import Scaffold.Proofs.Notice
import Scaffold.Text.Blank

/-!
# Signatures in a text

A text is read line by line for the signatures of functions: lines that start aside are passed
over, and the others have to be words, parameters in parentheses and an end. What is found in a
text that a layout adds is found in its parts, as long as each part ends its lines.
-/

namespace Scaffold

namespace Text

def stripEnd (c : Char) (text : List Char) : Option (List Char) :=
  if text.getLast? = some c then some text.dropLast else none

def splitOnce (c : Char) : List Char → Option (List Char × List Char)
  | [] => none
  | d :: rest =>
    if d = c then some ([], rest)
    else (splitOnce c rest).map fun (before, after) => (d :: before, after)

def words (text : List Char) : List (List Char) :=
  (text.splitOnP isBlankChar).filter (!·.isEmpty)

def trim (text : List Char) : List Char :=
  ((text.dropWhile isBlankChar).reverse.dropWhile isBlankChar).reverse

def dropReturn (line : List Char) : List Char :=
  (stripEnd '\r' line).getD line

/-- The lines of a text. Nothing after the last line break is no line. -/
def lines (text : List Char) : List (List Char) :=
  let pieces := text.splitOn '\n'
  pieces.dropLast.map dropReturn ++ pieces.getLast?.toList.filter (!·.isEmpty)

variable {c : Char} {text line word before rest : List Char}

theorem stripEnd_concat (c : Char) (text : List Char) : stripEnd c (text ++ [c]) = some text := by
  simp [stripEnd]

theorem stripEnd_concat_of_ne {d : Char} (h : d ≠ c) (text : List Char) :
    stripEnd c (text ++ [d]) = none := by
  simp [stripEnd, h]

theorem splitOnce_append (h : c ∉ before) (rest : List Char) :
    splitOnce c (before ++ c :: rest) = some (before, rest) := by
  induction before with
  | nil => simp [splitOnce]
  | cons d before ih =>
      rw [List.mem_cons, not_or] at h
      rw [List.cons_append, splitOnce, if_neg (Ne.symm h.1), ih h.2]
      rfl

theorem splitOnce_eq_none (h : c ∉ text) : splitOnce c text = none := by
  induction text with
  | nil => rfl
  | cons d rest ih =>
      rw [List.mem_cons, not_or] at h
      rw [splitOnce, if_neg (Ne.symm h.1), ih h.2]
      rfl

theorem words_append (hne : word ≠ []) (hword : ∀ c ∈ word, isBlankChar c = false)
    (rest : List Char) : words (word ++ ' ' :: rest) = word :: words rest := by
  have hkept : (!word.isEmpty) = true := by simpa using hne
  unfold words
  rw [List.splitOnP_append_cons_of_forall_mem hword ' ' (by decide), List.filter_cons,
    if_pos hkept]

theorem words_singleton (hne : word ≠ []) (hword : ∀ c ∈ word, isBlankChar c = false) :
    words word = [word] := by
  unfold words
  rw [List.splitOnP_eq_singleton hword]
  simp [hne]

theorem lines_append (h : '\n' ∉ line) (rest : List Char) :
    lines (line ++ '\n' :: rest) = dropReturn line :: lines rest := by
  have hne := List.splitOn_ne_nil '\n' rest
  unfold lines
  rw [List.splitOn_append_cons_self_of_not_mem h]
  cases hpieces : rest.splitOn '\n' with
  | nil => exact absurd hpieces hne
  | cons piece pieces => simp

end Text

structure Signature where
  returns : List String
  name : String
  parameters : String
deriving DecidableEq, Repr

def isAside (line : List Char) : Bool :=
  line.head?.any ['/', ' ', '\t', '#'].contains

open Text (stripEnd splitOnce words trim dropReturn lines)

def signature? (ending : Char) (line : List Char) : Option Signature := do
  if isAside line then none
  let spelled ← stripEnd ending line
  let (head, tail) ← splitOnce '(' spelled
  let name ← (words head).getLast?
  let parameters ← stripEnd ')' tail
  return {
    returns := (words head).dropLast.map String.ofList
    name := String.ofList name
    parameters := String.ofList parameters }

/-- The functions that a text declares, or defines: `ending` says which. -/
def functions (ending : Char) (text : List Char) : List Signature :=
  (lines text).filterMap (signature? ending)

namespace Signature

/-- How many parameters there are. No text and `void` stand for none. -/
def arity (signature : Signature) : Nat :=
  let parameters := trim signature.parameters.toList
  if parameters = [] ∨ parameters = "void".toList then 0 else (parameters.splitOn ',').length

theorem arity_of_none (returns : List String) (name : String) : arity ⟨returns, name, ""⟩ = 0 := by
  simp [arity, trim]

theorem arity_of_void (returns : List String) (name : String) :
    arity ⟨returns, name, "void"⟩ = 0 := by
  have htrim : trim "void".toList = "void".toList := by decide
  unfold arity
  rw [htrim]
  exact if_pos (Or.inr rfl)

def spell (signature : Signature) (ending : Char) : List Char :=
  signature.returns.flatMap (·.toList ++ [' ']) ++ signature.name.toList ++
    '(' :: signature.parameters.toList ++ [')'] ++ [ending]

end Signature

/-! ### Reading what is spelled -/

def IsWord (word : String) : Prop :=
  word.toList ≠ [] ∧ ∀ c ∈ word.toList, isNameChar c = true ∨ c = '*'

theorem isWord {word : String} (h : checkName word = .ok ()) : IsWord word :=
  ⟨(checkName_eq_ok_iff.mp h).1, fun c hmem => Or.inl ((checkName_eq_ok_iff.mp h).2 c hmem)⟩

theorem IsWord.not_isBlankChar {word : String} (h : IsWord word) :
    ∀ c ∈ word.toList, Text.isBlankChar c = false := by
  have hblank : (Text.blankChars.all fun c => !isNameChar c && c != '*') = true := by decide
  intro c hmem
  rw [← Bool.not_eq_true]
  intro hc
  have hc := List.all_eq_true.mp hblank c (List.contains_iff_mem.mp hc)
  rw [Bool.and_eq_true, Bool.not_eq_true', bne_iff_ne] at hc
  rcases h.2 c hmem with hname | hstar
  · rw [hc.1] at hname
    cases hname
  · exact hc.2 hstar

theorem IsWord.ne_of_mem {word : String} {c d : Char} (h : IsWord word) (hmem : c ∈ word.toList)
    (hname : isNameChar d = false) (hstar : d ≠ '*') : c ≠ d := by
  rintro rfl
  rcases h.2 c hmem with hc | hc
  · rw [hname] at hc
    cases hc
  · exact hstar hc

namespace Signature

structure IsPlain (signature : Signature) : Prop where
  returns : ∀ word ∈ signature.returns, IsWord word
  name : IsWord signature.name
  parameters : '\n' ∉ signature.parameters.toList

variable {signature : Signature} {ending : Char}

theorem words_head {returns : List String} {name : String}
    (hreturns : ∀ word ∈ returns, IsWord word) (hname : IsWord name) :
    words (returns.flatMap (·.toList ++ [' ']) ++ name.toList) =
      returns.map String.toList ++ [name.toList] := by
  induction returns with
  | nil => exact Text.words_singleton hname.1 hname.not_isBlankChar
  | cons word rest ih =>
      have hword := hreturns word List.mem_cons_self
      have hrest := ih fun other hother => hreturns other (List.mem_cons_of_mem _ hother)
      rw [List.flatMap_cons, List.append_assoc, List.append_assoc, List.singleton_append,
        Text.words_append hword.1 hword.not_isBlankChar, hrest]
      rfl

theorem IsPlain.notMem_head {c : Char} (h : signature.IsPlain) (hname : isNameChar c = false)
    (hstar : c ≠ '*') (hspace : c ≠ ' ') :
    c ∉ signature.returns.flatMap (·.toList ++ [' ']) ++ signature.name.toList := by
  intro hmem
  rw [List.mem_append, List.mem_flatMap] at hmem
  rcases hmem with ⟨word, hword, hmem⟩ | hmem
  · rcases List.mem_append.mp hmem with hmem | hmem
    · exact (h.returns word hword).ne_of_mem hmem hname hstar rfl
    · exact hspace (List.mem_singleton.mp hmem)
  · exact h.name.ne_of_mem hmem hname hstar rfl

theorem IsPlain.notMem_spell (h : signature.IsPlain) (hending : ending ≠ '\n') :
    '\n' ∉ signature.spell ending := by
  have hhead := h.notMem_head (c := '\n') (by decide) (by decide) (by decide)
  unfold spell
  rw [List.append_assoc, List.append_assoc, List.mem_append]
  exact not_or.mpr ⟨hhead, by simp [h.parameters, hending.symm]⟩

theorem IsPlain.not_isAside (h : signature.IsPlain) (ending : Char) :
    isAside (signature.spell ending) = false := by
  have hstart {word : String} (hword : IsWord word) (rest : List Char) :
      isAside (word.toList ++ rest) = false := by
    cases htext : word.toList with
    | nil => exact absurd htext hword.1
    | cons c tail =>
        have hne {d : Char} := hword.ne_of_mem (d := d) (htext ▸ List.mem_cons_self)
        have hslash : c ≠ '/' := hne (by decide) (by decide)
        have hspace : c ≠ ' ' := hne (by decide) (by decide)
        have htab : c ≠ '\t' := hne (by decide) (by decide)
        have hhash : c ≠ '#' := hne (by decide) (by decide)
        simp [isAside, hslash, hspace, htab, hhash]
  unfold spell
  cases hreturns : signature.returns with
  | nil =>
      simp only [List.flatMap_nil, List.nil_append, List.append_assoc]
      exact hstart h.name _
  | cons word rest =>
      simp only [List.flatMap_cons, List.append_assoc]
      exact hstart (h.returns word (hreturns ▸ List.mem_cons_self)) _

theorem IsPlain.signature?_spell (h : signature.IsPlain) (ending : Char) :
    signature? ending (signature.spell ending) = some signature := by
  have hend : stripEnd ending (signature.spell ending) =
      some (signature.returns.flatMap (·.toList ++ [' ']) ++ signature.name.toList ++
        '(' :: (signature.parameters.toList ++ [')'])) := by
    rw [spell, Text.stripEnd_concat, List.append_assoc]
    rfl
  have hparen := h.notMem_head (c := '(') (by decide) (by decide) (by decide)
  have hreturns : signature.returns.map (String.ofList ∘ String.toList) = signature.returns := by
    simp [Function.comp_def]
  unfold signature?
  rw [h.not_isAside ending, hend]
  simp only [Bool.false_eq_true, if_false, Option.bind_eq_bind, Option.bind_some, Option.pure_def,
    Text.splitOnce_append hparen, words_head h.returns h.name, List.getLast?_concat,
    Text.stripEnd_concat, List.dropLast_concat, String.ofList_toList, List.map_map, hreturns]

end Signature

/-! ### Reading a text line by line -/

variable {ending : Char} {line : List Char}

theorem functions_append (h : '\n' ∉ line) (rest : List Char) :
    functions ending (line ++ '\n' :: rest) =
      (signature? ending (dropReturn line)).toList ++ functions ending rest := by
  unfold functions
  rw [Text.lines_append h, List.filterMap_cons]
  cases signature? ending (dropReturn line) <;> rfl

example :
    functions ';' "/* int f();\r\nint * g ( a, b );\r\n\tint h();\n#x y();\nint i ()\n;".toList =
      [⟨["int", "*"], "g", " a, b "⟩] := by decide

def IsQuietLine (line : List Char) : Prop :=
  isAside line = true ∨ '(' ∉ line

theorem IsQuietLine.dropReturn (h : IsQuietLine line) : IsQuietLine (dropReturn line) := by
  unfold Text.dropReturn stripEnd
  split
  · next hlast =>
    rw [Option.getD_some]
    rcases h with haside | hparen
    · left
      cases line with
      | nil => cases haside
      | cons c rest =>
          cases rest with
          | nil =>
              cases Option.some.inj hlast
              cases haside
          | cons d rest => exact haside
    · exact Or.inr fun hmem => hparen (List.dropLast_subset _ hmem)
  · exact h

theorem IsQuietLine.signature?_eq_none (h : IsQuietLine line) (ending : Char) :
    signature? ending line = none := by
  unfold signature?
  rcases h with haside | hparen
  · rw [haside]
    rfl
  · split
    · rfl
    · unfold stripEnd
      split
      · have hdrop : '(' ∉ line.dropLast := fun hmem => hparen (List.dropLast_subset _ hmem)
        simp [Text.splitOnce_eq_none hdrop]
      · rfl

end Scaffold
