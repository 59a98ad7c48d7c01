import Scaffold.Proofs.Code

/-!
# Indentation shows nesting

A layout is nested if it opens and closes its blocks and its levels in pairs, and all other text is
free of braces. Each line that it adds is then indented by what encloses it, and the braces before
the line are open for the blocks among this. A block is not around its own first and last line; at
the last one it is still open. A layout can leave any level behind, so the invariant says of each
line where it stands and of the whole that it comes back.
-/

namespace Scaffold

/-! ### Braces -/

def braceStep? (depth : Nat) (c : Char) : Option Nat :=
  if c = '\x7b' then some (depth + 1)
  else if c = '\x7d' then if depth = 0 then none else some (depth - 1)
  else some depth

/-- How many braces are open after a text that starts with `depth` of them. -/
def braceDepth? (text : List Char) (depth : Nat) : Option Nat :=
  text.foldlM braceStep? depth

def IsPlainText (text : String) : Prop :=
  ∀ c ∈ ['\n', '\x7b', '\x7d'], c ∉ text.toList

instance (text : String) : Decidable (IsPlainText text) :=
  List.decidableBAll _ _

structure IsPlainLine (text : String) : Prop where
  plain : IsPlainText text
  unindented : text.toList.head? ≠ some '\t'

section Braces

variable {text first second name : String} {c : Char} {depth : Nat}

theorem braceDepth?_append (first second : List Char) (depth : Nat) :
    braceDepth? (first ++ second) depth = (braceDepth? first depth).bind (braceDepth? second) :=
  List.foldlM_append

theorem braceDepth?_of_notMem {chars : List Char} (hopening : '\x7b' ∉ chars)
    (hclosing : '\x7d' ∉ chars) (depth : Nat) : braceDepth? chars depth = some depth := by
  induction chars with
  | nil => rfl
  | cons c rest ih =>
      rw [List.mem_cons, not_or] at hopening hclosing
      have hstep : braceStep? depth c = some depth := by
        rw [braceStep?, if_neg (Ne.symm hopening.1), if_neg (Ne.symm hclosing.1)]
      rw [braceDepth?, List.foldlM_cons, hstep]
      exact ih hopening.2 hclosing.2

theorem IsPlainText.braceDepth? (h : IsPlainText text) (depth : Nat) :
    braceDepth? text.toList depth = some depth :=
  braceDepth?_of_notMem (h _ (by decide)) (h _ (by decide)) depth

theorem IsPlainText.append (hfirst : IsPlainText first) (hsecond : IsPlainText second) :
    IsPlainText (first ++ second) :=
  fun c hc => notMem_append (hfirst c hc) (hsecond c hc)

theorem isPlainText_of_checkName (h : checkName name = .ok ()) : IsPlainText name := by
  have hmarks : (['\n', '\x7b', '\x7d'].all (!isNameChar ·)) = true := by decide
  intro c hc
  exact notMem_of_checkName h (by simpa using List.all_eq_true.mp hmarks c hc)

theorem isPlainText_tabs (level : Nat) : IsPlainText (tabs level) := by
  intro c hc
  apply notMem_tabs
  rintro rfl
  revert hc
  decide

theorem isPlainLine_of_starts (hstart : Starts c text) (hc : c ≠ '\t') (h : IsPlainText text) :
    IsPlainLine text where
  plain := h
  unindented := by
    rw [hstart]
    simpa using hc

end Braces

/-! ### Lines and what encloses them -/

structure Enclosure where
  blocks : Nat
  pairs : Nat
  closes : Bool
deriving DecidableEq, Repr

namespace Enclosure

def outside : Enclosure := ⟨0, 0, false⟩

def closing : Enclosure := ⟨0, 0, true⟩

def inBlock (enclosure : Enclosure) : Enclosure := { enclosure with blocks := enclosure.blocks + 1 }

def inPair (enclosure : Enclosure) : Enclosure := { enclosure with pairs := enclosure.pairs + 1 }

/-- The blocks that are open where the line begins, the one that it closes among them. -/
def openBlocks (enclosure : Enclosure) : Nat :=
  enclosure.blocks + if enclosure.closes then 1 else 0

@[simp]
theorem openBlocks_inBlock (enclosure : Enclosure) :
    enclosure.inBlock.openBlocks = enclosure.openBlocks + 1 :=
  Nat.add_right_comm _ _ _

end Enclosure

def leadingTabs (line : String) : Nat :=
  (line.toList.takeWhile (· == '\t')).length

def textBefore (text : String) (number : Nat) : String :=
  String.join (((splitLines text).take number).map (· ++ "\n"))

theorem leadingTabs_tabs_append {text : String} (h : text.toList.head? ≠ some '\t') (level : Nat) :
    leadingTabs (tabs level ++ text) = level := by
  have hrest : text.toList.takeWhile (· == '\t') = [] := by
    cases hchars : text.toList with
    | nil => rfl
    | cons c rest =>
        rw [hchars] at h
        have hc : c ≠ '\t' := by simpa using h
        simp [hc]
  have htabs : ∀ c ∈ List.replicate level '\t', (c == '\t') = true := by
    intro c hc
    rw [List.eq_of_mem_replicate hc]
    rfl
  rw [leadingTabs, String.toList_append, toList_tabs, List.takeWhile_append_of_pos htabs, hrest,
    List.append_nil, List.length_replicate]

structure ShowsNesting (level : Nat) (outline : List Enclosure) (text : String) : Prop where
  lines : ∃ lines, splitLines text = lines ++ [""] ∧ lines.length = outline.length
  indentation : ∀ (number : Nat) (line : String) (enclosure : Enclosure),
    (splitLines text)[number]? = some line → outline[number]? = some enclosure → line ≠ "" →
      leadingTabs line = level + (enclosure.blocks + enclosure.pairs)
  depth : ∀ (number : Nat) (enclosure : Enclosure), outline[number]? = some enclosure →
    braceDepth? (textBefore text number).toList 0 = some enclosure.openBlocks
  balanced : braceDepth? text.toList 0 = some 0

namespace Layout

inductive IsNested : Layout → List Enclosure → Prop where
  | skip : IsNested .skip []
  | seq {first second : Layout} {outline rest : List Enclosure} (hfirst : IsNested first outline)
      (hsecond : IsNested second rest) : IsNested (.seq first second) (outline ++ rest)
  | line {text : String} (h : IsPlainLine text) : IsNested (.line text) [.outside]
  | blank : IsNested .blank [.outside]
  | heading {title : String} (h : IsPlainText title) :
      IsNested (.heading title) [.outside, .outside]
  | when (condition : Bool) {body : Layout} {outline : List Enclosure} (h : IsNested body outline) :
      IsNested (.when condition body) (if condition then outline else [])
  | each {α : Type} {items : List α} {body : α → Layout} {outline : α → List Enclosure}
      (h : ∀ item ∈ items, IsNested (body item) (outline item)) :
      IsNested (.each items body) (items.flatMap outline)
  | indented {body : Layout} {outline : List Enclosure} (h : IsNested body outline) :
      IsNested (.all [.indent, body, .dedent]) (outline.map .inPair)
  | block {opening closing : String} {body : Layout} {outline : List Enclosure}
      (hopening : IsPlainLine opening) (hclosing : IsPlainText closing)
      (hbody : IsNested body outline) :
      IsNested (.block (opening ++ "\x7b") ("\x7d" ++ closing) body)
        (.outside :: (outline.map .inBlock ++ [.closing]))

end Layout

/-! ### The way through the lines -/

namespace Emission

structure IsAt (level : Nat) (enclosure : Enclosure) (emission : Emission) : Prop where
  isWhole : emission.IsWhole
  indented : emission.body ≠ "" →
    leadingTabs emission.body = level + (enclosure.blocks + enclosure.pairs)

inductive Follows (level base : Nat) : Nat → List Emission → List Enclosure → Nat → Prop where
  | nil {depth : Nat} : Follows level base depth [] [] depth
  | cons {depth next last : Nat} {emission : Emission} {enclosure : Enclosure}
      {emissions : List Emission} {outline : List Enclosure} (hat : emission.IsAt level enclosure)
      (hdepth : depth = base + enclosure.openBlocks)
      (hnext : braceDepth? emission.text.toList depth = some next)
      (hrest : Follows level base next emissions outline last) :
      Follows level base depth (emission :: emissions) (enclosure :: outline) last

variable {level base depth middle last : Nat} {emissions others : List Emission}
  {outline rest : List Enclosure} {text : String}

theorem concat_eq_join (h : ∀ emission ∈ emissions, emission.IsWhole) :
    concat emissions = String.join ((emissions.map body).map (· ++ "\n")) := by
  induction emissions with
  | nil => rfl
  | cons emission rest ih =>
      rw [List.forall_mem_cons] at h
      rw [concat, h.1.1, ih h.2, List.map_cons, List.map_cons, String.join_cons]

theorem textBefore_concat (h : ∀ emission ∈ emissions, emission.IsWhole) {number : Nat}
    (hnumber : number ≤ emissions.length) :
    textBefore (concat emissions) number = concat (emissions.take number) := by
  have htake : ∀ emission ∈ emissions.take number, emission.IsWhole :=
    fun emission hmem => h emission (List.mem_of_mem_take hmem)
  rw [textBefore, splitLines_concat h, List.take_append_of_le_length (by rwa [List.length_map]),
    ← List.map_take, concat_eq_join htake]

namespace Follows

theorem append (hfirst : Follows level base depth emissions outline middle)
    (hsecond : Follows level base middle others rest last) :
    Follows level base depth (emissions ++ others) (outline ++ rest) last := by
  induction hfirst with
  | nil => exact hsecond
  | cons hat hdepth hnext _ ih => exact .cons hat hdepth hnext (ih hsecond)

theorem inBlock (h : Follows (level + 1) (base + 1) depth emissions outline last) :
    Follows level base depth emissions (outline.map .inBlock) last := by
  induction h with
  | nil => exact .nil
  | @cons _ _ _ emission enclosure _ _ hat hdepth hnext _ ih =>
      refine .cons ⟨hat.isWhole, fun hbody => ?_⟩ ?_ hnext ih
      · rw [hat.indented hbody]
        simp only [Enclosure.inBlock]
        omega
      · rw [hdepth, Enclosure.openBlocks_inBlock]
        omega

theorem inPair (h : Follows (level + 1) base depth emissions outline last) :
    Follows level base depth emissions (outline.map .inPair) last := by
  induction h with
  | nil => exact .nil
  | @cons _ _ _ emission enclosure _ _ hat hdepth hnext _ ih =>
      refine .cons ⟨hat.isWhole, fun hbody => ?_⟩ hdepth hnext ih
      rw [hat.indented hbody]
      simp only [Enclosure.inPair]
      omega

theorem length_eq (h : Follows level base depth emissions outline last) :
    emissions.length = outline.length := by
  induction h with
  | nil => rfl
  | cons _ _ _ _ ih => rw [List.length_cons, List.length_cons, ih]

theorem isWhole (h : Follows level base depth emissions outline last) :
    ∀ emission ∈ emissions, emission.IsWhole := by
  induction h with
  | nil => exact List.forall_mem_nil _
  | cons hat _ _ _ ih => exact List.forall_mem_cons.mpr ⟨hat.isWhole, ih⟩

theorem isAt (h : Follows level base depth emissions outline last) {number : Nat}
    {emission : Emission} {enclosure : Enclosure} (hemission : emissions[number]? = some emission)
    (henclosure : outline[number]? = some enclosure) : emission.IsAt level enclosure := by
  induction h generalizing number with
  | nil => cases henclosure
  | cons hat _ _ _ ih =>
      cases number with
      | zero =>
          cases hemission
          cases henclosure
          exact hat
      | succ number => exact ih hemission henclosure

theorem braceDepth?_concat (h : Follows level base depth emissions outline last) :
    braceDepth? (concat emissions).toList depth = some last := by
  induction h with
  | nil => rfl
  | cons _ _ hnext _ ih =>
      rw [concat, String.toList_append, braceDepth?_append, hnext]
      exact ih

/-- What comes before a line leaves the braces open that its enclosure says. -/
theorem braceDepth?_take (h : Follows level base depth emissions outline last) {number : Nat}
    {enclosure : Enclosure} (henclosure : outline[number]? = some enclosure) :
    braceDepth? (concat (emissions.take number)).toList depth =
      some (base + enclosure.openBlocks) := by
  induction h generalizing number with
  | nil => cases henclosure
  | cons _ hdepth hnext _ ih =>
      cases number with
      | zero =>
          cases henclosure
          rw [hdepth]
          rfl
      | succ number =>
          rw [List.take_succ_cons, concat, String.toList_append, braceDepth?_append, hnext]
          exact ih henclosure

theorem showsNesting (h : Follows level 0 0 emissions outline 0) :
    ShowsNesting level outline (concat emissions) := by
  have hlines := splitLines_concat h.isWhole
  have hindex {number : Nat} {enclosure : Enclosure}
      (henclosure : outline[number]? = some enclosure) : number < emissions.length := by
    rw [h.length_eq]
    exact (List.getElem?_eq_some_iff.mp henclosure).1
  constructor
  case lines => exact ⟨_, hlines, by rw [List.length_map, h.length_eq]⟩
  case indentation =>
    intro number line enclosure hline henclosure hne
    have hnumber := hindex henclosure
    rw [hlines, List.getElem?_append_left (by rwa [List.length_map]), List.getElem?_map,
      List.getElem?_eq_getElem hnumber] at hline
    cases hline
    exact (h.isAt (List.getElem?_eq_getElem hnumber) henclosure).indented hne
  case depth =>
    intro number enclosure henclosure
    have hnumber := hindex henclosure
    rw [textBefore_concat h.isWhole (Nat.le_of_lt hnumber), h.braceDepth?_take henclosure,
      Nat.zero_add]
  case balanced => exact h.braceDepth?_concat

theorem line (h : IsPlainLine text) :
    Follows level base base [.line level text] [.outside] base := by
  have hplain := ((isPlainText_tabs level).append h.plain)
  refine .cons ⟨isWhole_line (h.plain _ (by decide)) level, fun _ => ?_⟩ rfl ?_ .nil
  · exact leadingTabs_tabs_append h.unindented level
  · change braceDepth? (tabs level ++ text ++ "\n").toList base = some base
    rw [String.toList_append, braceDepth?_append, hplain.braceDepth?]
    rfl

theorem blank : Follows level base base [.blank] [.outside] base :=
  .cons ⟨isWhole_blank, fun h => absurd rfl h⟩ rfl rfl .nil

theorem block {opening closing : String} (hopening : IsPlainLine opening)
    (hclosing : IsPlainText closing)
    (hbody : Follows (level + 1) (base + 1) (base + 1) emissions outline (base + 1)) :
    Follows level base base (.line level (opening ++ "\x7b") ::
        (emissions ++ [.line level ("\x7d" ++ closing)]))
      (.outside :: (outline.map .inBlock ++ [.closing])) base := by
  have hbefore := (isPlainText_tabs level).append hopening.plain
  have hfirst : braceDepth? (Emission.line level (opening ++ "\x7b")).text.toList base =
      some (base + 1) := by
    change braceDepth? (tabs level ++ (opening ++ "\x7b") ++ "\n").toList base = _
    rw [String.append_assoc, String.append_assoc, ← String.append_assoc, String.toList_append,
      braceDepth?_append, hbefore.braceDepth?]
    rfl
  have hlast : braceDepth? (Emission.line level ("\x7d" ++ closing)).text.toList (base + 1) =
      some base := by
    change braceDepth? (tabs level ++ ("\x7d" ++ closing) ++ "\n").toList (base + 1) = _
    rw [String.append_assoc, String.append_assoc, String.toList_append, braceDepth?_append,
      (isPlainText_tabs level).braceDepth?, String.toList_append, Option.bind_some,
      braceDepth?_append]
    have hbrace : braceDepth? "\x7d".toList (base + 1) = some base := rfl
    rw [hbrace, Option.bind_some, String.toList_append, braceDepth?_append, hclosing.braceDepth?]
    rfl
  have hfirstAt : (Emission.line level (opening ++ "\x7b")).IsAt level .outside := by
    refine ⟨isWhole_line (notMem_append (hopening.plain _ (by decide)) (by decide)) level,
      fun _ => leadingTabs_tabs_append ?_ level⟩
    rw [String.toList_append, List.head?_append]
    cases hhead : opening.toList.head? with
    | none => decide
    | some c =>
        rw [Option.some_or, ← hhead]
        exact hopening.unindented
  have hlastAt : (Emission.line level ("\x7d" ++ closing)).IsAt level .closing := by
    refine ⟨isWhole_line (notMem_append (by decide) (hclosing _ (by decide))) level,
      fun _ => leadingTabs_tabs_append ?_ level⟩
    rw [String.toList_append]
    simp
  refine .cons hfirstAt rfl hfirst ?_
  exact hbody.inBlock.append (.cons hlastAt rfl hlast .nil)

end Follows

end Emission

namespace Layout

open Emission (Follows)

variable {layout first second body : Layout} {outline rest : List Enclosure}

structure IsTraced (layout : Layout) (outline : List Enclosure) : Prop where
  levelAfter : ∀ level, layout.levelAfter level = level
  follows : ∀ level base, Follows level base base (layout.emissions level) outline base

theorem IsTraced.seq (hfirst : first.IsTraced outline) (hsecond : second.IsTraced rest) :
    (Layout.seq first second).IsTraced (outline ++ rest) where
  levelAfter level := by rw [Layout.levelAfter, hfirst.levelAfter, hsecond.levelAfter]
  follows level base := by
    rw [emissions, hfirst.levelAfter]
    exact (hfirst.follows level base).append (hsecond.follows level base)

theorem isTraced_skip : skip.IsTraced [] := ⟨fun _ => rfl, fun _ _ => .nil⟩

theorem isTraced_line {text : String} (h : IsPlainLine text) : (line text).IsTraced [.outside] :=
  ⟨fun _ => rfl, fun _ _ => .line h⟩

theorem isTraced_blank : blank.IsTraced [.outside] := ⟨fun _ => rfl, fun _ _ => .blank⟩

theorem isTraced_heading {title : String} (h : IsPlainText title) :
    (heading title).IsTraced [.outside, .outside] := by
  have hline : IsPlainLine ("//  " ++ title) :=
    isPlainLine_of_starts ((starts_ofList '/' _).append title) (by decide)
      (IsPlainText.append (by decide) h)
  exact (isTraced_line hline).seq (isTraced_blank.seq isTraced_skip)

theorem IsTraced.indented (h : body.IsTraced outline) :
    (all [indent, body, dedent]).IsTraced (outline.map .inPair) where
  levelAfter level := by
    change body.levelAfter (level + 1) - 1 = level
    rw [h.levelAfter, Nat.add_sub_cancel]
  follows level base := by
    have hemissions : (all [indent, body, dedent]).emissions level =
        body.emissions (level + 1) := by simp [all, emissions, Layout.levelAfter]
    rw [hemissions]
    exact (h.follows (level + 1) base).inPair

theorem IsTraced.block {opening closing : String} (h : body.IsTraced outline)
    (hopening : IsPlainLine opening) (hclosing : IsPlainText closing) :
    (Layout.block (opening ++ "\x7b") ("\x7d" ++ closing) body).IsTraced
      (.outside :: (outline.map .inBlock ++ [.closing])) where
  levelAfter level := by
    change body.levelAfter (level + 1) - 1 = level
    rw [h.levelAfter, Nat.add_sub_cancel]
  follows level base := by
    have hemissions : (Layout.block (opening ++ "\x7b") ("\x7d" ++ closing) body).emissions level =
        .line level (opening ++ "\x7b") ::
          (body.emissions (level + 1) ++ [.line level ("\x7d" ++ closing)]) := by
      simp [Layout.block, all, emissions, Layout.levelAfter, h.levelAfter]
    rw [hemissions]
    exact .block hopening hclosing (h.follows (level + 1) (base + 1))

theorem isTraced_each {α : Type} {items : List α} {body : α → Layout}
    {outline : α → List Enclosure} (h : ∀ item ∈ items, (body item).IsTraced (outline item)) :
    (each items body).IsTraced (items.flatMap outline) := by
  induction items with
  | nil => exact isTraced_skip
  | cons item rest ih =>
      rw [List.forall_mem_cons] at h
      exact h.1.seq (ih h.2)

/-- The induction is on the way in which the layout is nested. -/
theorem IsNested.isTraced (h : layout.IsNested outline) : layout.IsTraced outline := by
  induction h with
  | skip => exact isTraced_skip
  | seq _ _ ihFirst ihSecond => exact ihFirst.seq ihSecond
  | line h => exact isTraced_line h
  | blank => exact isTraced_blank
  | heading h => exact isTraced_heading h
  | when condition _ ih =>
      cases condition with
      | false => exact isTraced_skip
      | true => exact ih
  | each _ ih => exact isTraced_each ih
  | indented _ ih => exact ih.indented
  | block hopening hclosing _ ih => exact ih.block hopening hclosing

/-- From every level a nested layout shows its nesting, and comes back to the level. -/
theorem IsNested.showsNesting (h : layout.IsNested outline) (level : Nat) (before : String) :
    layout.write ⟨level, before⟩ = ⟨level, before ++ layout.added level⟩ ∧
      ShowsNesting level outline (layout.added level) := by
  constructor
  · rw [write_eq, h.isTraced.levelAfter]
  · exact (h.isTraced.follows level 0).showsNesting

/-! ### Nested programs -/

def WritesNested (layout : Layout) : Prop :=
  ∃ (program : Layout) (outline : List Enclosure), program.IsNested outline ∧
    ∀ writer, layout.write writer = program.write writer

theorem IsNested.writesNested (h : layout.IsNested outline) : layout.WritesNested :=
  ⟨layout, outline, h, fun _ => rfl⟩

theorem isNested_doxygen {lines : List String} {close : String}
    (hlines : ∀ text ∈ lines, IsPlainText text) (hclose : IsPlainLine close) :
    ∃ outline, (doxygen lines close).IsNested outline := by
  have htext : ∀ text ∈ lines, (line (" " ++ text)).IsNested [.outside] := by
    intro text hmem
    exact .line (isPlainLine_of_starts ((starts_ofList ' ' []).append text) (by decide)
      (IsPlainText.append (by decide) (hlines text hmem)))
  have hopening : IsPlainLine "/**" := ⟨by decide, by decide⟩
  exact ⟨_, (IsNested.line hopening).seq ((IsNested.each htext).seq
    ((IsNested.line hclose).seq .skip))⟩

theorem IsNested.block_of_toList {text close opening closing : String} (h : body.IsNested outline)
    (htext : text.toList = opening.toList ++ ['\x7b'])
    (hclose : close.toList = '\x7d' :: closing.toList)
    (hopening : IsPlainLine opening) (hclosing : IsPlainText closing) :
    (Layout.block text close body).IsNested (.outside :: (outline.map .inBlock ++ [.closing])) := by
  have htext' : text = opening ++ "\x7b" := String.toList_inj.mp (by rw [htext]; simp)
  have hclose' : close = "\x7d" ++ closing := String.toList_inj.mp (by rw [hclose]; simp)
  rw [htext', hclose']
  exact .block hopening hclosing h

theorem IsNested.definition {text opening : String} (h : body.IsNested outline)
    (htext : text.toList = opening.toList ++ ['\x7b']) (hopening : IsPlainLine opening) :
    (Layout.block text "\x7d" body).IsNested
      (.outside :: (outline.map .inBlock ++ [.closing])) :=
  have hnone : IsPlainText "" := by decide
  h.block_of_toList htext rfl hopening hnone

end Layout

namespace Blueprint

open Layout (IsNested isNested_doxygen)

variable {request : Request} {config : Config} {blueprint : Blueprint}

theorem isNested_allocationCheck (condition : Bool) :
    ∃ outline, (Layout.when condition allocationCheck).IsNested outline := by
  have htest : IsPlainLine "if (!self)" := ⟨by decide, by decide⟩
  have hreturn : IsPlainLine "return NULL;" := ⟨by decide, by decide⟩
  exact ⟨_, .when condition ((IsNested.line htest).seq (.indented (.line hreturn)))⟩

section Admissible

variable (hname : request.checkName = .ok ())

include hname

theorem isPlainText_symbols : ∀ name ∈ [request.symbols.typeName, request.symbols.constructor,
    request.symbols.getter, request.symbols.init, request.symbols.free,
    request.symbols.headerFile], IsPlainText name := by
  have h : request.symbols.Admissible := Symbols.admissible_derive hname
  simp only [List.forall_mem_cons]
  exact ⟨isPlainText_of_checkName h.typeName, isPlainText_of_checkName h.constructor,
    isPlainText_of_checkName h.getter, isPlainText_of_checkName h.init,
    isPlainText_of_checkName h.free,
    (isPlainText_of_checkName h.fileBase).append (by decide), List.forall_mem_nil _⟩

theorem isNested_structDeclaration :
    ∃ outline, (ofRequest request config).structDeclaration.IsNested outline := by
  have htype := isPlainText_symbols hname request.symbols.typeName (by simp)
  have hfile := isPlainText_symbols hname request.symbols.headerFile (by simp)
  have hdoc : IsPlainText ("@brief Structure for " ++ request.symbols.typeName ++
      " objects. @see " ++ request.symbols.headerFile) :=
    ((IsPlainText.append (by decide) htype).append (by decide)).append hfile
  have hmember : IsPlainLine (Symbols.base.typeName ++ " base; /**< " ++ Symbols.base.typeName ++
      " base structure */") := ⟨by decide, by decide⟩
  have hend : IsPlainText (" " ++ request.symbols.typeName ++ ";") :=
    (IsPlainText.append (by decide) htype).append (by decide)
  have hclose : ("\x7d " ++ request.symbols.typeName ++ ";").toList =
      '\x7d' :: (" " ++ request.symbols.typeName ++ ";").toList := by simp
  have hopening : "typedef struct\x7b".toList = "typedef struct".toList ++ ['\x7b'] := by decide
  obtain ⟨outline, hcomment⟩ : ∃ outline, (Layout.doxygen ["@brief Structure for " ++
      request.symbols.typeName ++ " objects. @see " ++ request.symbols.headerFile]
      "*/").IsNested outline :=
    isNested_doxygen (List.forall_mem_singleton.mpr hdoc) ⟨by decide, by decide⟩
  exact ⟨_, hcomment.seq (((IsNested.line hmember).block_of_toList hopening hclose
    ⟨by decide, by decide⟩ hend).seq .skip)⟩

theorem isNested_initialisation :
    ∃ outline, (ofRequest request config).initialisation.IsNested outline := by
  have hinit := isPlainText_symbols hname request.symbols.init (by simp)
  have hstart : Starts 'C' request.symbols.init :=
    ((starts_ofList 'C' _).append _).append request.shortName
  unfold initialisation
  split
  · have hcall : IsPlainLine (request.symbols.init ++ "(self);") :=
      isPlainLine_of_starts (hstart.append _) (by decide) (hinit.append (by decide))
    exact ⟨_, .line hcall⟩
  · have htest : IsPlainLine ("if (!" ++ request.symbols.init ++ "(self))") :=
      isPlainLine_of_starts (((starts_ofList 'i' _).append _).append _) (by decide)
        ((IsPlainText.append (by decide) hinit).append (by decide))
    have hfree : IsPlainLine "free(self);" := ⟨by decide, by decide⟩
    have hreturn : IsPlainLine "return NULL;" := ⟨by decide, by decide⟩
    have htext : ("if (!" ++ request.symbols.init ++ "(self))\x7b").toList =
        ("if (!" ++ request.symbols.init ++ "(self))").toList ++ ['\x7b'] := by simp
    exact ⟨_, ((IsNested.line hfree).seq ((IsNested.line hreturn).seq .skip)).definition htext
      htest⟩

theorem isNested_constructorDefinition :
    ∃ outline, (ofRequest request config).constructorDefinition.IsNested outline := by
  have htype := isPlainText_symbols hname request.symbols.typeName (by simp)
  have hconstructor := isPlainText_symbols hname request.symbols.constructor (by simp)
  have hfree := isPlainText_symbols hname request.symbols.free (by simp)
  have hstart : Starts 'C' request.symbols.typeName := starts_typeName request
  have hopening : IsPlainLine (request.symbols.typeName ++ " * " ++ request.symbols.constructor ++
      "()") :=
    isPlainLine_of_starts (((hstart.append _).append _).append _) (by decide)
      (((htype.append (by decide)).append hconstructor).append (by decide))
  have hself : IsPlainLine (request.symbols.typeName ++ " * self = malloc(sizeof(*self));") :=
    isPlainLine_of_starts (hstart.append _) (by decide) (htype.append (by decide))
  have hbase : Starts 'C' Symbols.base.getter := by
    rw [Starts]
    decide
  have hinstall : IsPlainLine (Symbols.base.getter ++ "(self)->free = " ++ request.symbols.free ++
      ";") :=
    isPlainLine_of_starts (((hbase.append _).append _).append _) (by decide)
      ((IsPlainText.append (by decide) hfree).append (by decide))
  have hreturn : IsPlainLine "return self;" := ⟨by decide, by decide⟩
  obtain ⟨_, hcheck⟩ := isNested_allocationCheck (config.constructor == .checked)
  obtain ⟨_, hinitialise⟩ := @isNested_initialisation request config hname
  have htext : (request.symbols.typeName ++ " * " ++ request.symbols.constructor ++
      "()\x7b").toList = (request.symbols.typeName ++ " * " ++ request.symbols.constructor ++
      "()").toList ++ ['\x7b'] := by simp
  exact ⟨_, ((IsNested.line hself).seq (hcheck.seq ((IsNested.line hinstall).seq
    (hinitialise.seq ((IsNested.line hreturn).seq .skip))))).definition htext hopening⟩

theorem isNested_getterDefinition :
    ∃ outline, (ofRequest request config).getterDefinition.IsNested outline := by
  have htype := isPlainText_symbols hname request.symbols.typeName (by simp)
  have hgetter := isPlainText_symbols hname request.symbols.getter (by simp)
  have hstart : Starts 'C' request.symbols.typeName := starts_typeName request
  have hopening : IsPlainLine (request.symbols.typeName ++ " * " ++ request.symbols.getter ++
      "(void * self)") :=
    isPlainLine_of_starts (((hstart.append _).append _).append _) (by decide)
      (((htype.append (by decide)).append hgetter).append (by decide))
  have htext : (request.symbols.typeName ++ " * " ++ request.symbols.getter ++
      "(void * self)\x7b").toList = (request.symbols.typeName ++ " * " ++ request.symbols.getter ++
      "(void * self)").toList ++ ['\x7b'] := by simp
  have hreturn : IsPlainLine "return self;" := ⟨by decide, by decide⟩
  exact ⟨_, (IsNested.line hreturn).definition htext hopening⟩

theorem isNested_destructorDefinition :
    ∃ outline, (ofRequest request config).destructorDefinition.IsNested outline := by
  have hfree := isPlainText_symbols hname request.symbols.free (by simp)
  have hopening : IsPlainLine ("void " ++ request.symbols.free ++ "(void * self)") :=
    isPlainLine_of_starts (((starts_ofList 'v' _).append _).append _) (by decide)
      ((IsPlainText.append (by decide) hfree).append (by decide))
  have hcall : IsPlainLine (Symbols.base.free ++ "(self);") := ⟨by decide, by decide⟩
  have htext : ("void " ++ request.symbols.free ++ "(void * self)\x7b").toList =
      ("void " ++ request.symbols.free ++ "(void * self)").toList ++ ['\x7b'] := by simp
  exact ⟨_, (IsNested.line hcall).definition htext hopening⟩

/-- The pair of an indent and a dedent stands in a row with the lines around it, so the layout is
not put together as a nested one, but writes what one does. -/
theorem writesNested_initialiserDefinition :
    (ofRequest request config).initialiserDefinition.WritesNested := by
  have htype := isPlainText_symbols hname request.symbols.typeName (by simp)
  have hinit := isPlainText_symbols hname request.symbols.init (by simp)
  have hopening : IsPlainLine ("bool " ++ request.symbols.init ++ "(" ++ request.symbols.typeName ++
      " * self)") :=
    isPlainLine_of_starts (((((starts_ofList 'b' _).append _).append _).append _).append _)
      (by decide) ((((IsPlainText.append (by decide) hinit).append (by decide)).append
        htype).append (by decide))
  have htest : IsPlainLine ("if (!" ++ Symbols.base.init ++ "(" ++ Symbols.base.getter ++
      "(self)))") := ⟨by decide, by decide⟩
  have hfalse : IsPlainLine "return false;" := ⟨by decide, by decide⟩
  have htrue : IsPlainLine "return true;" := ⟨by decide, by decide⟩
  have htext : ("bool " ++ request.symbols.init ++ "(" ++ request.symbols.typeName ++
      " * self)\x7b").toList = ("bool " ++ request.symbols.init ++ "(" ++
      request.symbols.typeName ++ " * self)").toList ++ ['\x7b'] := by simp
  exact ⟨_, _, ((IsNested.line htest).seq ((IsNested.indented (.line hfalse)).seq
    ((IsNested.line htrue).seq .skip))).definition htext hopening, fun _ => rfl⟩

theorem writesNested : ∀ piece ∈ [(ofRequest request config).structDeclaration,
    (ofRequest request config).constructorDefinition,
    (ofRequest request config).getterDefinition, (ofRequest request config).initialiserDefinition,
    (ofRequest request config).destructorDefinition], piece.WritesNested := by
  obtain ⟨_, hstruct⟩ := @isNested_structDeclaration request config hname
  obtain ⟨_, hconstructor⟩ := @isNested_constructorDefinition request config hname
  obtain ⟨_, hgetter⟩ := @isNested_getterDefinition request config hname
  obtain ⟨_, hdestructor⟩ := @isNested_destructorDefinition request config hname
  simp only [List.forall_mem_cons]
  exact ⟨hstruct.writesNested, hconstructor.writesNested, hgetter.writesNested,
    writesNested_initialiserDefinition hname, hdestructor.writesNested, List.forall_mem_nil _⟩

end Admissible

end Blueprint

/-- **Indentation shows nesting.** From every level a nested layout adds whole lines and comes back
to the level: each line that is not blank is indented by the level and by all that is around it, the
braces are balanced, and before each line as many are open as there are blocks around it. For every
admissible name, in both modes, the structure and the four functions are such layouts. -/
theorem Layout.nesting_shows :
    (∀ (layout : Layout) (outline : List Enclosure), layout.IsNested outline →
        ∀ (level : Nat) (before : String),
          layout.write ⟨level, before⟩ = ⟨level, before ++ layout.added level⟩ ∧
            ShowsNesting level outline (layout.added level)) ∧
      ∀ (request : Request) (config : Config), request.checkName = .ok () →
        ∀ piece ∈ [(Blueprint.ofRequest request config).structDeclaration,
          (Blueprint.ofRequest request config).constructorDefinition,
          (Blueprint.ofRequest request config).getterDefinition,
          (Blueprint.ofRequest request config).initialiserDefinition,
          (Blueprint.ofRequest request config).destructorDefinition], piece.WritesNested :=
  ⟨fun _ _ h => h.showsNesting, fun _ _ => Blueprint.writesNested⟩

/-- A loop in a function, with a line in it that is indented by hand and one that is not there. -/
theorem Layout.nesting_shows_loop :
    let loop := block "while (next(c))\x7b" "\x7d  // c is done"
      (all [heading "One by one", all [indent, line "skip(c);", dedent], when false blank,
        each ["a", "b"] fun name => line (name ++ "();")])
    let request : Request := ⟨"Widget", "Ada", "A widget.", { year := 2012, month := 1, day := 1 }⟩
    let config : Config := { Config.default with constructor := .checked }
    (∃ outline, outline = [.outside, ⟨1, 0, false⟩, ⟨1, 0, false⟩, ⟨1, 1, false⟩, ⟨1, 0, false⟩,
          ⟨1, 0, false⟩, .closing] ∧ loop.IsNested outline ∧
        ShowsNesting 2 outline (loop.added 2)) ∧
      request.checkName = .ok () ∧
      (Blueprint.ofRequest request config).constructorDefinition.WritesNested := by
  intro loop request config
  have hopening : IsPlainLine "while (next(c))" := ⟨by decide, by decide⟩
  have hskip : IsPlainLine "skip(c);" := ⟨by decide, by decide⟩
  have hcalls : ∀ name ∈ ["a", "b"], (line (name ++ "();")).IsNested [.outside] := by
    simp only [List.forall_mem_cons]
    exact ⟨.line ⟨by decide, by decide⟩, .line ⟨by decide, by decide⟩, List.forall_mem_nil _⟩
  have htitle : IsPlainText "One by one" := by decide
  have hclosing : IsPlainText "  // c is done" := by decide
  have hnested := IsNested.block hopening hclosing ((IsNested.heading htitle).seq
    ((IsNested.indented (.line hskip)).seq ((IsNested.when false .blank).seq
      ((IsNested.each hcalls).seq .skip))))
  have hname : request.checkName = .ok () := by decide
  exact ⟨⟨_, rfl, hnested, (nesting_shows.1 loop _ hnested 2 "").2⟩, hname,
    nesting_shows.2 request config hname _ (by simp)⟩

end Scaffold
