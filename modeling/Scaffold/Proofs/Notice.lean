import Scaffold.Artifact.Pair
import Scaffold.Proofs.Naming

/-!
# The lines of the notice

All lines of the licence notice are comments to the end of the line, whatever free text is put into
them, as long as the text stays on its line. The character that ends a line is a parameter here, for
not all readers of a file mean the same one.
-/

namespace Scaffold

variable {c : Char} {first second text : String}

def isControl (c : Char) : Bool := c.toNat < 32

theorem not_isNameChar_of_isControl (hc : isControl c = true) : isNameChar c = false := by
  have hlow : c.toNat < 32 := by simpa [isControl] using hc
  rw [← Bool.not_eq_true]
  intro h
  have := (toNat_of_isNameChar h).1
  omega

theorem notMem_of_all (hc : isControl c = true) (h : (text.toList.all (!isControl ·)) = true) :
    c ∉ text.toList := by
  intro hmem
  have := List.all_eq_true.mp h c hmem
  rw [hc] at this
  cases this

theorem notMem_append (hfirst : c ∉ first.toList) (hsecond : c ∉ second.toList) :
    c ∉ (first ++ second).toList := by
  rw [String.toList_append, List.mem_append]
  exact not_or.mpr ⟨hfirst, hsecond⟩

def IsLineComment (c : Char) (text : String) : Prop :=
  ∃ rest, text.toList = '/' :: '/' :: rest ∧ c ∉ text.toList

theorem isLineComment_of_all (hc : isControl c = true)
    (h : (text.toList.take 2 == ['/', '/'] && text.toList.all (!isControl ·)) = true) :
    IsLineComment c text := by
  rw [Bool.and_eq_true, beq_iff_eq] at h
  have hsplit := (List.take_append_drop 2 text.toList).symm
  rw [h.1] at hsplit
  exact ⟨text.toList.drop 2, hsplit, notMem_of_all hc h.2⟩

theorem IsLineComment.append (h : IsLineComment c first) (hsecond : c ∉ second.toList) :
    IsLineComment c (first ++ second) := by
  obtain ⟨rest, hfirst, hc⟩ := h
  refine ⟨rest ++ second.toList, ?_, notMem_append hc hsecond⟩
  rw [String.toList_append, hfirst]
  rfl

/-! ### Dates -/

namespace Date

def isStampChar (c : Char) : Bool := c.isDigit || ['/', '-', '+'].contains c

theorem isDigit_of_mem_paddedDigits {width n : Nat} (h : c ∈ (paddedDigits width n).toList) :
    c.isDigit = true := by
  rw [paddedDigits, String.toList_ofList, List.leftpad, List.mem_append] at h
  rcases h with hzero | hdigit
  · rw [List.eq_of_mem_replicate hzero]
    decide
  · exact Nat.isDigit_of_mem_toDigits (by decide) (by decide) hdigit

theorem isStampChar_of_mem_paddedDigits {width n : Nat} (h : c ∈ (paddedDigits width n).toList) :
    isStampChar c = true := by
  rw [isStampChar, isDigit_of_mem_paddedDigits h]
  rfl

theorem isStampChar_of_mem_yearText {year : Int} (h : c ∈ (yearText year).toList) :
    isStampChar c = true := by
  have hsign {sign : String} {n : Nat} (hall : (sign.toList.all isStampChar) = true)
      (hmem : c ∈ (sign ++ paddedDigits 4 n).toList) : isStampChar c = true := by
    rw [String.toList_append, List.mem_append] at hmem
    exact hmem.elim (List.all_eq_true.mp hall c) isStampChar_of_mem_paddedDigits
  unfold yearText at h
  split at h
  · exact hsign (by decide) h
  · split at h
    · exact isStampChar_of_mem_paddedDigits h
    · exact hsign (by decide) h

theorem isStampChar_of_mem_stamp {date : Date} (h : c ∈ date.stamp.toList) :
    isStampChar c = true := by
  simp only [stamp, String.toList_append, List.mem_append] at h
  rcases h with (((hday | hslash) | hmonth) | hslash) | hyear
  · exact isStampChar_of_mem_paddedDigits hday
  · rw [List.mem_singleton.mp hslash]
    decide
  · exact isStampChar_of_mem_paddedDigits hmonth
  · rw [List.mem_singleton.mp hslash]
    decide
  · exact isStampChar_of_mem_yearText hyear

theorem notMem_stamp (hc : isControl c = true) (date : Date) : c ∉ date.stamp.toList := by
  intro hmem
  have hstamp := isStampChar_of_mem_stamp hmem
  rw [isStampChar, Bool.or_eq_true, List.contains_iff_mem] at hstamp
  rcases hstamp with hdigit | hsign
  · have hname := not_isNameChar_of_isControl hc
    simp [isNameChar, Char.isAlphanum, hdigit] at hname
  · have hsigns : (['/', '-', '+'].all (!isControl ·)) = true := by decide
    have hnot := List.all_eq_true.mp hsigns c hsign
    rw [hc] at hnot
    cases hnot

end Date

/-! ### The notice -/

namespace Blueprint

structure IsFreeOf (blueprint : Blueprint) (c : Char) : Prop where
  author : c ∉ blueprint.author.toList
  dateStamp : c ∉ blueprint.dateStamp.toList
  project : c ∉ blueprint.project.toList
  copyright : c ∉ blueprint.copyright.toList

/-- **The notice is comments.** No free text gets out of the line that it stands on. -/
theorem isLineComment_license {blueprint : Blueprint} {fileName : String} {level : Nat}
    (hc : isControl c = true) (hfree : blueprint.IsFreeOf c) (hfile : c ∉ fileName.toList) :
    ∀ emission ∈ (blueprint.license fileName).emissions level,
      ∃ text, emission = .line level text ∧ IsLineComment c text := by
  have hline {text : String} (h : IsLineComment c text) :
      ∃ other, Emission.line level text = .line level other ∧ IsLineComment c other :=
    ⟨text, rfl, h⟩
  have hfixed {text : String} (h : (text.toList.take 2 == ['/', '/'] &&
      text.toList.all (!isControl ·)) = true := by decide +kernel) :
      IsLineComment c text := isLineComment_of_all hc h
  have hrest {text : String} (h : (text.toList.all (!isControl ·)) = true := by decide +kernel) :
      c ∉ text.toList := notMem_of_all hc h
  have hproject {before : String} (h : IsLineComment c before) :
      IsLineComment c (before ++ blueprint.project) := h.append hfree.project
  have hcreated : IsLineComment c
      ("//  Created by " ++ blueprint.author ++ " on " ++ blueprint.dateStamp ++ ".") :=
    ((((hfixed).append hfree.author).append hrest).append hfree.dateStamp).append hrest
  simp only [license, Layout.all, Layout.emissions, Layout.levelAfter, List.cons_append,
    List.nil_append, List.forall_mem_cons]
  exact ⟨hline hfixed, hline ((hfixed).append hfile), hline (hproject hfixed), hline hfixed,
    hline hcreated, hline ((hfixed).append hfree.copyright), hline hfixed,
    hline ((hproject hfixed).append hrest), hline hfixed, hline ((hproject hfixed).append hrest),
    hline hfixed, hline hfixed, hline hfixed, hline hfixed,
    hline ((hproject hfixed).append hrest), hline hfixed, hline hfixed, hline hfixed,
    hline hfixed, hline hfixed, hline ((hproject hfixed).append hrest), List.forall_mem_nil _⟩

end Blueprint

end Scaffold
