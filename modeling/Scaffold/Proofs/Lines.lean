import Scaffold.Proofs.Notice

/-!
# The lines of a layout

A layout adds lines. As long as no text that it is given breaks its line, these are the lines of
what it has written. Whatever the text, they fall into code and comments by the way they start.
-/

namespace Scaffold

/-! ### Line breaks and uppercase -/

namespace Text

theorem eq_ten_of_ofNat {n : Nat} (h : Char.ofNat n = '\n') : n = 10 := by
  by_cases hvalid : n.isValidChar
  · have hnat : (Char.ofNat n).toNat = n := by
      rw [Char.ofNat, dif_pos hvalid]
      rfl
    rw [← hnat, h]
    rfl
  · rw [Char.ofNat, dif_neg hvalid] at h
    cases h

theorem lineFeed_ne_toUpper {c : Char} (hascii : c.toNat < 128) (hc : c ≠ '\n') :
    c.toUpper ≠ '\n' := by
  have htable : ∀ n < 128, Char.ofNat n ≠ '\n' → (Char.ofNat n).toUpper ≠ '\n' := by decide
  have hupper := htable c.toNat hascii
  rw [Char.ofNat_toNat] at hupper
  exact hupper hc

theorem lineFeed_notMem_of_lookup {code : Nat} {codes : List Nat}
    (h : caseExpansions.lookup code = some codes) : '\n' ∉ codes.map Char.ofNat := by
  have htable : (caseExpansions.all fun entry => !entry.2.contains 10) = true := by
    decide +kernel
  obtain ⟨before, after, hsplit, _⟩ := List.lookup_eq_some_iff.mp h
  have hentry := List.all_eq_true.mp htable (code, codes) (by simp [hsplit])
  intro hmem
  obtain ⟨n, hn, hchar⟩ := List.mem_map.mp hmem
  rw [eq_ten_of_ofNat hchar] at hn
  simp [hn] at hentry

theorem lineFeed_ne_upper {code : Nat} {run : CaseRun}
    (h : caseRuns.find? (·.contains code) = some run) : '\n' ≠ run.upper code := by
  have htable : (caseRuns.all fun run => decide (10 < run.first + run.shift)) = true := by
    decide +kernel
  have hfirst := List.all_eq_true.mp htable run (List.mem_of_find?_eq_some h)
  have hcontains := List.find?_some h
  simp only [CaseRun.contains, Bool.and_eq_true, decide_eq_true_eq] at hcontains hfirst
  intro heq
  have hten := eq_ten_of_ofNat heq.symm
  omega

theorem lineFeed_notMem_uppercaseChar {c : Char} (hc : c ≠ '\n') : '\n' ∉ uppercaseChar c := by
  unfold uppercaseChar
  split
  · next hascii => exact fun hmem => lineFeed_ne_toUpper hascii hc (List.mem_singleton.mp hmem).symm
  · split
    · next hlookup => exact lineFeed_notMem_of_lookup hlookup
    · split
      · next hfind => exact fun hmem => lineFeed_ne_upper hfind (List.mem_singleton.mp hmem)
      · exact fun hmem => hc (List.mem_singleton.mp hmem).symm

theorem lineFeed_notMem_uppercase {text : String} (h : '\n' ∉ text.toList) :
    '\n' ∉ (uppercase text).toList := by
  rw [toList_uppercase, List.mem_flatMap]
  rintro ⟨c, hc, hmem⟩
  exact lineFeed_notMem_uppercaseChar (fun heq => h (heq ▸ hc)) hmem

end Text

/-! ### Lines and their ends -/

/-- The lines of a text without their ends. After an end that is the last, there is an empty one. -/
def splitLines (text : String) : List String :=
  (text.toList.splitOn '\n').map String.ofList

namespace Emission

def body : Emission → String
  | line level text => tabs level ++ text
  | blank => ""
  | raw text => text

def IsWhole (emission : Emission) : Prop :=
  emission.text = emission.body ++ "\n" ∧ '\n' ∉ emission.body.toList

theorem isWhole_line {text : String} (h : '\n' ∉ text.toList) (level : Nat) :
    (line level text).IsWhole :=
  ⟨rfl, notMem_append (notMem_tabs (by decide) level) h⟩

theorem isWhole_blank : blank.IsWhole := ⟨rfl, List.not_mem_nil⟩

/-- Splitting what whole lines add gives them back. -/
theorem splitOn_concat {emissions : List Emission} (h : ∀ emission ∈ emissions, emission.IsWhole)
    (rest : List Char) :
    ((concat emissions).toList ++ rest).splitOn '\n' =
      emissions.map (·.body.toList) ++ rest.splitOn '\n' := by
  induction emissions with
  | nil => rfl
  | cons emission emissions ih =>
      obtain ⟨htext, hbreak⟩ := h emission List.mem_cons_self
      have hrest := ih fun other hother => h other (List.mem_cons_of_mem _ hother)
      have hfirst : (concat (emission :: emissions)).toList ++ rest =
          emission.body.toList ++ '\n' :: ((concat emissions).toList ++ rest) := by
        rw [concat, htext]
        simp
      rw [hfirst, List.splitOn_append_cons_self_of_not_mem hbreak, hrest]
      rfl

theorem splitLines_concat {emissions : List Emission}
    (h : ∀ emission ∈ emissions, emission.IsWhole) :
    splitLines (concat emissions) = emissions.map body ++ [""] := by
  have hsplit := splitOn_concat h []
  have hbodies : (emissions.map (·.body.toList)).map String.ofList = emissions.map body := by
    simp [List.map_map, Function.comp_def]
  rw [List.append_nil] at hsplit
  rw [splitLines, hsplit, List.map_append, hbodies]
  rfl

end Emission

namespace Layout

variable {layout first second body : Layout} {level : Nat} {text close : String}

def lines (layout : Layout) (level : Nat) : List String :=
  (layout.emissions level).map Emission.body

theorem lines_seq (first second : Layout) (level : Nat) :
    (seq first second).lines level =
      first.lines level ++ second.lines (first.levelAfter level) := by
  simp [lines, emissions]

theorem mem_emissions_each {lines : List String} {emission : Emission}
    (h : emission ∈ (each lines fun text => line (" " ++ text)).emissions level) :
    ∃ text ∈ lines, emission = .line level (" " ++ text) := by
  induction lines with
  | nil => cases h
  | cons text rest ih =>
      rcases List.mem_append.mp h with h | h
      · exact ⟨text, List.mem_cons_self, List.mem_singleton.mp h⟩
      · obtain ⟨other, hother, hemission⟩ := ih h
        exact ⟨other, List.mem_cons_of_mem _ hother, hemission⟩

/-! ### Whole lines -/

def IsWhole (layout : Layout) (level : Nat) : Prop :=
  ∀ emission ∈ layout.emissions level, emission.IsWhole

def Splits (layout : Layout) (level : Nat) : Prop :=
  (layout.added level).toList.splitOn '\n' = (layout.lines level).map String.toList

theorem IsWhole.seq (hfirst : first.IsWhole level)
    (hsecond : second.IsWhole (first.levelAfter level)) : (seq first second).IsWhole level :=
  Every.seq hfirst hsecond

theorem IsWhole.splits_seq (hfirst : first.IsWhole level)
    (hsecond : second.Splits (first.levelAfter level)) :
    (Layout.seq first second).Splits level := by
  have hlines : (first.emissions level).map (·.body.toList) =
      (first.lines level).map String.toList := by
    rw [lines, List.map_map]
    rfl
  unfold Splits at hsecond ⊢
  rw [added_seq, String.toList_append, added, Emission.splitOn_concat hfirst, hsecond, lines_seq,
    List.map_append, hlines]

theorem Splits.splitLines_render (h : layout.Splits 0) :
    splitLines layout.render = layout.lines 0 := by
  have hlines : ((layout.lines 0).map String.toList).map String.ofList = layout.lines 0 := by
    simp [List.map_map, Function.comp_def]
  rw [splitLines, render_eq_added, h, hlines]

theorem IsWhole.splitLines_render (h : layout.IsWhole 0) :
    splitLines layout.render = layout.lines 0 ++ [""] := by
  rw [render_eq_added, added, Emission.splitLines_concat h, lines]

theorem isWhole_skip : skip.IsWhole level := every_skip

theorem isWhole_blank : blank.IsWhole level := by
  intro emission hmem
  rw [List.mem_singleton.mp hmem]
  exact Emission.isWhole_blank

theorem isWhole_line (h : '\n' ∉ text.toList) : (line text).IsWhole level := by
  intro emission hmem
  rw [List.mem_singleton.mp hmem]
  exact Emission.isWhole_line h level

theorem isWhole_heading (h : '\n' ∉ text.toList) : (heading text).IsWhole level :=
  (isWhole_line (notMem_append (by decide) h)).seq (isWhole_blank.seq isWhole_skip)

theorem isWhole_doxygen {lines : List String} (h : ∀ text ∈ lines, '\n' ∉ text.toList)
    (hclose : '\n' ∉ close.toList) : (doxygen lines close).IsWhole level := by
  have hlines : (each lines fun text => line (" " ++ text)).IsWhole level := by
    intro emission hmem
    obtain ⟨text, htext, rfl⟩ := mem_emissions_each hmem
    exact Emission.isWhole_line (notMem_append (by decide) (h text htext)) level
  exact (isWhole_line (by decide)).seq
    (hlines.seq ((isWhole_line hclose).seq isWhole_skip))

theorem isWhole_indent : indent.IsWhole level := every_indent

theorem isWhole_dedent : dedent.IsWhole level := every_dedent

theorem isWhole_block (htext : '\n' ∉ text.toList) (hclose : '\n' ∉ close.toList)
    (hbody : body.IsWhole (level + 1)) : (block text close body).IsWhole level :=
  (isWhole_line htext).seq (isWhole_indent.seq (hbody.seq
    (isWhole_dedent.seq ((isWhole_line hclose).seq isWhole_skip))))

end Layout

end Scaffold
