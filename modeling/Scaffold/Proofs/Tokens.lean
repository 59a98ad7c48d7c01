import Mathlib.Data.List.SplitBy
import Scaffold.Proofs.Identifiers
import Scaffold.Proofs.Remainder

/-!
# Tokens of code

Lines of code are cut into words and marks. What a layout writes is cut line by line, and a line
piece by piece, wherever a mark stands between the words; indentation has no part in it.
-/

namespace Scaffold

/-- The words of a line, which are as long as they can be, and its marks, which are one character
each. Blank characters belong to no token. -/
def tokens (line : String) : List String :=
  ((line.toList.splitBy fun c d => isNameChar c && isNameChar d).filter
    (!·.all Text.isBlankChar)).map String.ofList

section Tokens

variable {first second mark name : String}

theorem tokens_append (h : first.toList.getLast?.any isNameChar = false ∨
    second.toList.head?.any isNameChar = false) :
    tokens (first ++ second) = tokens first ++ tokens second := by
  have hapart : ∀ c ∈ first.toList.getLast?, ∀ d ∈ second.toList.head?,
      (isNameChar c && isNameChar d) = false := by
    intro c hc d hd
    rw [Option.mem_def] at hc hd
    rw [hc, hd] at h
    exact Bool.and_eq_false_iff.mpr h
  rw [tokens, String.toList_append, List.splitBy_append hapart, List.filter_append, List.map_append]
  rfl

/-- A name is one token, with no mark in it and nothing of it left over. -/
theorem tokens_name (h : checkName name = .ok ()) : tokens name = [name] := by
  obtain ⟨hne, hall⟩ := checkName_eq_ok_iff.mp h
  have hchain : name.toList.IsChain fun c d => (isNameChar c && isNameChar d) = true := by
    refine (List.pairwise_of_forall_mem_list fun c hc d hd => ?_).isChain
    rw [hall c hc, hall d hd]
    rfl
  have hvisible : (name.toList.all Text.isBlankChar) = false := isBlank_of_checkName h
  rw [tokens, List.splitBy_of_isChain hne hchain]
  simp [hvisible]

theorem tokens_append_mark (first : String) (h : mark.toList.head?.any isNameChar = false) :
    tokens (first ++ mark) = tokens first ++ tokens mark :=
  tokens_append (Or.inr h)

theorem tokens_append_name (h : mark.toList.getLast?.any isNameChar = false)
    (hname : checkName name = .ok ()) : tokens (mark ++ name) = tokens mark ++ [name] := by
  rw [tokens_append (Or.inl h), tokens_name hname]

theorem tokens_append_mark_name (first : String) (hne : mark.toList ≠ [])
    (hhead : mark.toList.head?.any isNameChar = false)
    (hlast : mark.toList.getLast?.any isNameChar = false) (hname : checkName name = .ok ()) :
    tokens (first ++ mark ++ name) = tokens first ++ (tokens mark ++ [name]) := by
  have hmark : (first ++ mark).toList.getLast?.any isNameChar = false := by
    rw [String.toList_append, List.getLast?_append_of_ne_nil _ hne, hlast]
  rw [tokens_append_name hmark hname, tokens_append_mark first hhead, List.append_assoc]

theorem tokens_tabs (level : Nat) : tokens (tabs level) = [] := by
  induction level with
  | zero => decide
  | succ level ih =>
      have htab : tokens (tabs 1) = [] := by decide
      rw [tabs_add, tokens_append_mark _ (by decide), ih, htab]
      rfl

theorem tokens_tabs_append (level : Nat) (text : String) :
    tokens (tabs level ++ text) = tokens text := by
  have hlast : (tabs level).toList.getLast?.any isNameChar = false := by
    rw [toList_tabs]
    cases level with
    | zero => rfl
    | succ level =>
        rw [List.replicate_succ', List.getLast?_concat]
        decide
  rw [tokens_append (Or.inl hlast), tokens_tabs, List.nil_append]

example : tokens "\tif (!CBInitBase(x1))\x7b " =
    ["if", "(", "!", "CBInitBase", "(", "x1", ")", ")", "\x7b"] := by decide

end Tokens

namespace Layout

/-- The tokens of the lines that a layout writes, at whatever level. -/
def tokens : Layout → List String
  | seq first second => first.tokens ++ second.tokens
  | line text => Scaffold.tokens text
  | raw text => Scaffold.tokens text
  | _ => []

theorem flatMap_tokens_lines (layout : Layout) (level : Nat) :
    (layout.lines level).flatMap Scaffold.tokens = layout.tokens := by
  induction layout generalizing level with
  | seq first second ihFirst ihSecond =>
      rw [lines_seq, List.flatMap_append, ihFirst, ihSecond]
      rfl
  | line text =>
      have hlines : (line text).lines level = [tabs level ++ text] := rfl
      rw [hlines, List.flatMap_singleton, tokens_tabs_append]
      rfl
  | raw text =>
      have hlines : (raw text).lines level = [text] := rfl
      rw [hlines, List.flatMap_singleton]
      rfl
  | _ => rfl

end Layout

end Scaffold
