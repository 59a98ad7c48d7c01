import Scaffold.Artifact.Pair

/-!
# Levels in closed form

A dedent at level zero changes nothing, so what a layout does to its level can not be undone and is
no sum over its parts. Two numbers are enough for it nevertheless: what the layout adds, and where
its end does not fall below.
-/

namespace Scaffold

@[ext]
structure Shift where
  net : Int
  floor : Nat
  net_le_floor : net ≤ floor := by decide
deriving DecidableEq, Repr

namespace Shift

variable (shift first second : Shift)

def apply (level : Nat) : Nat := (max (level + shift.net) shift.floor).toNat

def none : Shift := ⟨0, 0, by decide⟩

def up : Shift := ⟨1, 1, by decide⟩

def down : Shift := ⟨-1, 0, by decide⟩

/-- The first shift and then the second. The floor of the first is shifted along. -/
def andThen : Shift where
  net := first.net + second.net
  floor := (max (first.floor + second.net) second.floor).toNat
  net_le_floor := by
    have hfirst := first.net_le_floor
    omega

theorem cast_apply (level : Nat) :
    (shift.apply level : Int) = max (level + shift.net) shift.floor := by
  rw [apply]
  omega

theorem floor_andThen :
    ((first.andThen second).floor : Int) = max (first.floor + second.net) second.floor := by
  change ((max (first.floor + second.net) (second.floor : Int)).toNat : Int) = _
  omega

theorem apply_none (level : Nat) : none.apply level = level := by
  simp [apply, none]

theorem apply_up (level : Nat) : up.apply level = level + 1 := by
  simp only [apply, up]
  omega

theorem apply_down (level : Nat) : down.apply level = level - 1 := by
  simp only [apply, down]
  omega

/-- **Shifts compose.** The lower of two floors is forgotten. -/
theorem apply_andThen (level : Nat) :
    (first.andThen second).apply level = second.apply (first.apply level) := by
  apply Int.ofNat_inj.mp
  calc ((first.andThen second).apply level : Int)
      = max (level + (first.net + second.net)) (first.andThen second).floor :=
        (first.andThen second).cast_apply level
    _ = max (level + (first.net + second.net)) (max (first.floor + second.net) second.floor) := by
        rw [floor_andThen]
    _ = max (max (level + first.net) first.floor + second.net) second.floor := by omega
    _ = max (first.apply level + second.net) second.floor := by rw [cast_apply]
    _ = second.apply (first.apply level) := (second.cast_apply _).symm

/-- Two shifts that do the same to every level are one. High above the floors only what is added
counts, and from level zero only the floor does. -/
theorem eq_of_apply_eq (h : ∀ level, first.apply level = second.apply level) : first = second := by
  have hzero := congrArg (Nat.cast : Nat → Int) (h 0)
  have hfirst := first.net_le_floor
  have hsecond := second.net_le_floor
  obtain ⟨high, hhigh⟩ : ∃ high : Nat,
      high = first.floor + second.floor + first.net.natAbs + second.net.natAbs := ⟨_, rfl⟩
  have hsame := congrArg (Nat.cast : Nat → Int) (h high)
  rw [cast_apply, cast_apply] at hzero hsame
  apply Shift.ext <;> omega

@[simp]
theorem none_andThen : none.andThen shift = shift := by
  apply eq_of_apply_eq
  intro level
  rw [apply_andThen, apply_none]

@[simp]
theorem andThen_none : shift.andThen none = shift := by
  apply eq_of_apply_eq
  intro level
  rw [apply_andThen, apply_none]

@[simp]
theorem up_andThen_down : up.andThen down = none := by decide

example : (down.andThen up).apply 0 = 1 ∧ (down.andThen up).apply 1 = 1 := by decide

end Shift

namespace Layout

variable {layout : Layout}

def shift : Layout → Shift
  | seq first second => first.shift.andThen second.shift
  | indent => .up
  | dedent => .down
  | skip | line _ | blank | raw _ => .none

theorem levelAfter_eq_apply (layout : Layout) (level : Nat) :
    layout.levelAfter level = layout.shift.apply level := by
  induction layout generalizing level with
  | seq first second ihFirst ihSecond =>
      rw [levelAfter, ihFirst, ihSecond, shift, Shift.apply_andThen]
  | indent => exact (Shift.apply_up level).symm
  | dedent => exact (Shift.apply_down level).symm
  | skip | line | blank | raw => exact (Shift.apply_none level).symm

theorem levelAfter_of_shift (h : layout.shift = .none) (level : Nat) :
    layout.levelAfter level = level := by
  rw [levelAfter_eq_apply, h, Shift.apply_none]

theorem level_write (layout : Layout) (writer : Writer) :
    (layout.write writer).level = layout.shift.apply writer.level := by
  rw [write_eq]
  exact layout.levelAfter_eq_apply writer.level

/-! ### Programs that are put together -/

theorem shift_all (layouts : List Layout) :
    (all layouts).shift = (layouts.map shift).foldr Shift.andThen .none := by
  induction layouts with
  | nil => rfl
  | cons first rest ih => rw [all, shift, ih, List.map_cons, List.foldr_cons]

theorem shift_when (condition : Bool) (body : Layout) :
    (when condition body).shift = if condition then body.shift else .none := by
  cases condition <;> rfl

theorem shift_each {α : Type} (items : List α) (body : α → Layout) :
    (each items body).shift =
      (items.map fun item => (body item).shift).foldr Shift.andThen .none := by
  rw [each, shift_all, List.map_map]
  rfl

theorem shift_block (header close : String) (body : Layout) :
    (block header close body).shift = Shift.up.andThen (body.shift.andThen .down) := by
  simp [block, all, shift]

theorem shift_heading (title : String) : (heading title).shift = .none := by
  simp [heading, all, shift]

theorem shift_each_line (lines : List String) :
    (each lines fun text => line (" " ++ text)).shift = .none := by
  rw [shift_each]
  induction lines with
  | nil => rfl
  | cons text rest ih => rw [List.map_cons, List.foldr_cons, ih, shift, Shift.andThen_none]

theorem shift_doxygen (lines : List String) (close : String) :
    (doxygen lines close).shift = .none := by
  simp [doxygen, all, shift, shift_each_line]

theorem level_write_block (header close : String) (body : Layout) (writer : Writer) :
    ((block header close body).write writer).level =
      (body.write { writer with level := writer.level + 1 }).level - 1 := by
  rw [level_write, level_write, shift_block, Shift.apply_andThen, Shift.apply_andThen,
    Shift.apply_up, Shift.apply_down]

/-! ### Layouts that end where they start -/

def KeepsLevel (layout : Layout) : Prop :=
  ∀ writer, (layout.write writer).level = writer.level

theorem keepsLevel_iff : layout.KeepsLevel ↔ layout.shift = .none := by
  constructor
  · intro h
    apply Shift.eq_of_apply_eq
    intro level
    rw [Shift.apply_none]
    exact (layout.level_write ⟨level, ""⟩).symm.trans (h ⟨level, ""⟩)
  · intro h writer
    rw [level_write, h, Shift.apply_none]

end Layout

namespace Blueprint

open Layout (KeepsLevel keepsLevel_iff)

variable (blueprint : Blueprint)

theorem shift_structDeclaration : blueprint.structDeclaration.shift = .none := by
  simp [structDeclaration, Layout.all, Layout.shift, Layout.shift_doxygen, Layout.shift_block]

theorem shift_functionDeclarations : blueprint.functionDeclarations.shift = .none := by
  simp [functionDeclarations, Layout.all, Layout.shift, Layout.shift_doxygen]

theorem shift_allocationCheck (condition : Bool) :
    (Layout.when condition allocationCheck).shift = .none := by
  rw [Layout.shift_when]
  simp [allocationCheck, Layout.all, Layout.shift]

theorem shift_initialisation : blueprint.initialisation.shift = .none := by
  unfold initialisation
  split <;> simp [Layout.all, Layout.shift, Layout.shift_block]

theorem shift_constructorDefinition : blueprint.constructorDefinition.shift = .none := by
  simp [constructorDefinition, Layout.all, Layout.shift, Layout.shift_block,
    shift_allocationCheck, shift_initialisation]

theorem shift_getterDefinition : blueprint.getterDefinition.shift = .none := by
  simp [getterDefinition, Layout.shift, Layout.shift_block]

theorem shift_initialiserDefinition : blueprint.initialiserDefinition.shift = .none := by
  simp [initialiserDefinition, Layout.all, Layout.shift, Layout.shift_block]

theorem shift_destructorDefinition : blueprint.destructorDefinition.shift = .none := by
  simp [destructorDefinition, Layout.shift, Layout.shift_block]

theorem shift_license (fileName : String) : (blueprint.license fileName).shift = .none := by
  rw [← keepsLevel_iff]
  intro writer
  rw [Layout.write_eq]
  exact levelAfter_license blueprint fileName writer.level

theorem shift_header : blueprint.header.shift = .none := by
  simp [header, Layout.all, Layout.shift, Layout.shift_doxygen, Layout.shift_heading,
    shift_license, shift_structDeclaration, shift_functionDeclarations]

theorem shift_source : blueprint.source.shift = .none := by
  simp [source, Layout.all, Layout.shift, Layout.shift_heading, shift_license,
    shift_constructorDefinition, shift_getterDefinition, shift_initialiserDefinition,
    shift_destructorDefinition]

theorem keepsLevel (fileName : String) :
    ∀ piece ∈ [blueprint.structDeclaration, blueprint.functionDeclarations,
      blueprint.constructorDefinition, blueprint.getterDefinition,
      blueprint.initialiserDefinition, blueprint.destructorDefinition,
      blueprint.license fileName, blueprint.header, blueprint.source], piece.KeepsLevel := by
  simp only [List.forall_mem_cons, keepsLevel_iff]
  exact ⟨blueprint.shift_structDeclaration, blueprint.shift_functionDeclarations,
    blueprint.shift_constructorDefinition, blueprint.shift_getterDefinition,
    blueprint.shift_initialiserDefinition, blueprint.shift_destructorDefinition,
    blueprint.shift_license fileName, blueprint.shift_header, blueprint.shift_source,
    List.forall_mem_nil _⟩

end Blueprint

namespace Layout

/-- **Levels in closed form.** What a layout does to the level is said by the two numbers of its
shift, which is put together along the layout: from every level it ends at the level that it adds up
to, or at its floor if that is higher. So a block ends one level below its body and restores every
level that its body restores, and nothing that the artifacts are made of changes a level, in either
mode. -/
theorem level_write_eq_max :
    (∀ (layout : Layout) (writer : Writer), ((layout.write writer).level : Int) =
        max (writer.level + layout.shift.net) layout.shift.floor) ∧
      (∀ first second : Layout,
        (seq first second).shift.net = first.shift.net + second.shift.net ∧
        ((seq first second).shift.floor : Int) =
          max (first.shift.floor + second.shift.net) second.shift.floor) ∧
      (∀ (condition : Bool) (body : Layout),
        (when condition body).shift = if condition then body.shift else .none) ∧
      (∀ (α : Type) (items : List α) (body : α → Layout), (each items body).shift =
        (items.map fun item => (body item).shift).foldr Shift.andThen .none) ∧
      (∀ (header close : String) (body : Layout) (writer : Writer),
        ((block header close body).write writer).level =
          (body.write { writer with level := writer.level + 1 }).level - 1) ∧
      (∀ (header close : String) (body : Layout) (writer : Writer),
        (body.write { writer with level := writer.level + 1 }).level = writer.level + 1 →
          ((block header close body).write writer).level = writer.level) ∧
      ∀ (blueprint : Blueprint) (fileName : String),
        ∀ piece ∈ [blueprint.structDeclaration, blueprint.functionDeclarations,
          blueprint.constructorDefinition, blueprint.getterDefinition,
          blueprint.initialiserDefinition, blueprint.destructorDefinition,
          blueprint.license fileName, blueprint.header, blueprint.source], piece.KeepsLevel := by
  refine ⟨fun layout writer => ?closed, fun first second => ⟨rfl, ?floor⟩, shift_when,
    fun _ => shift_each, level_write_block, fun header close body writer h => ?restores,
    fun blueprint => blueprint.keepsLevel⟩
  case closed => rw [level_write, Shift.cast_apply]
  case floor => exact first.shift.floor_andThen second.shift
  case restores => rw [level_write_block, h, Nat.add_sub_cancel]

/-- Around a body that takes a level away and gives it back, which would not restore level zero. -/
theorem level_write_eq_max_switch :
    let body := all [dedent, line "case 1:", indent, line "break;"]
    (body.write ⟨0 + 1, ""⟩).level = 0 + 1 ∧ (body.write ⟨0, ""⟩).level = 1 ∧
      ((block "switch (c)\x7b" "\x7d" body).write ⟨0, ""⟩).level = 0 := by
  intro body
  have hbody : (body.write ⟨0 + 1, ""⟩).level = 0 + 1 := by decide
  obtain ⟨_, _, _, _, _, hrestores, _⟩ := level_write_eq_max
  exact ⟨hbody, by decide, hrestores _ _ body ⟨0, ""⟩ hbody⟩

end Layout

end Scaffold
