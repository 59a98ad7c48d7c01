import Scaffold.Layout

/-!
# Layouts that start deeper

A layout that starts some levels deeper emits the same, and its lines get that many tabs more. Only
a dedent at level zero spoils this: it changes nothing there, but it does where there is a level to
take away.
-/

namespace Scaffold

/-! ### Emissions at a deeper level -/

namespace Emission

variable (extra : Nat)

def deepen : Emission → Emission
  | line level text => line (level + extra) text
  | blank => blank
  | raw text => raw text

def indentedText : Emission → String
  | line level text => tabs extra ++ (line level text).text
  | blank => blank.text
  | raw text => (raw text).text

theorem text_deepen (emission : Emission) :
    (emission.deepen extra).text = emission.indentedText extra := by
  cases emission with
  | line level text =>
      change tabs (level + extra) ++ text ++ "\n" = tabs extra ++ (tabs level ++ text ++ "\n")
      rw [Nat.add_comm, tabs_add]
      simp only [String.append_assoc]
  | blank => rfl
  | raw text => rfl

theorem concat_map_deepen (emissions : List Emission) :
    concat (emissions.map (deepen extra)) = String.join (emissions.map (indentedText extra)) := by
  induction emissions with
  | nil => rfl
  | cons emission rest ih =>
      rw [List.map_cons, concat, text_deepen, ih, List.map_cons, String.join_cons]

end Emission

namespace Layout

/-! ### Where levels are taken away -/

/-- The levels at which a layout that starts at `level` carries out its dedents. -/
def dedentLevels : Layout → Nat → List Nat
  | seq first second, level =>
    first.dedentLevels level ++ second.dedentLevels (first.levelAfter level)
  | dedent, level => [level]
  | _, _ => []

example :
    (block "while (x)\x7b" "\x7d" (all [dedent, when true dedent, indent])).dedentLevels 0 =
      [1, 0, 1] := by decide

variable (layout : Layout) {level extra : Nat}

theorem exists_levelAfter_add (level extra : Nat) :
    ∃ rest ≤ extra, layout.levelAfter (level + extra) = layout.levelAfter level + rest := by
  induction layout generalizing level extra with
  | seq first second ihFirst ihSecond =>
      obtain ⟨middle, hmiddle, hfirst⟩ := ihFirst level extra
      obtain ⟨rest, hrest, hsecond⟩ := ihSecond (first.levelAfter level) middle
      exact ⟨rest, Nat.le_trans hrest hmiddle, by rw [levelAfter, hfirst, hsecond, levelAfter]⟩
  | indent => exact ⟨extra, Nat.le_refl _, Nat.add_right_comm level extra 1⟩
  | dedent =>
      have hlevel : level + extra - 1 = level - 1 + (level + extra - 1 - (level - 1)) := by omega
      exact ⟨level + extra - 1 - (level - 1), by omega, hlevel⟩
  | skip | line | blank | raw => exact ⟨extra, Nat.le_refl _, rfl⟩

/-- All the levels that a layout starts deeper are left at its end exactly if it carries out no
dedent at level zero. -/
theorem levelAfter_add_iff (hextra : 0 < extra) :
    layout.levelAfter (level + extra) = layout.levelAfter level + extra ↔
      0 ∉ layout.dedentLevels level := by
  induction layout generalizing level extra with
  | seq first second ihFirst ihSecond =>
      obtain ⟨middle, hmiddle, hfirst⟩ := exists_levelAfter_add first level extra
      obtain ⟨rest, hrest, hsecond⟩ := exists_levelAfter_add second (first.levelAfter level) middle
      rw [dedentLevels, List.mem_append, not_or, ← ihFirst hextra, ← ihSecond hextra]
      constructor
      · -- What the first layout has lost the second one cannot bring back.
        intro h
        rw [levelAfter, levelAfter, hfirst, hsecond] at h
        have hkept : middle = extra := by omega
        rw [hkept] at hfirst hsecond
        exact ⟨hfirst, by omega⟩
      · rintro ⟨hfirst, hsecond⟩
        rw [levelAfter, hfirst, hsecond, levelAfter]
  | indent => exact iff_of_true (Nat.add_right_comm level extra 1) List.not_mem_nil
  | dedent =>
      rw [dedentLevels, List.mem_singleton, levelAfter, levelAfter]
      omega
  | skip | line | blank | raw => exact iff_of_true rfl List.not_mem_nil

theorem levelAfter_add (h : 0 ∉ layout.dedentLevels level) (extra : Nat) :
    layout.levelAfter (level + extra) = layout.levelAfter level + extra := by
  cases extra with
  | zero => rfl
  | succ extra => exact (layout.levelAfter_add_iff extra.succ_pos).mpr h

theorem emissions_add (h : 0 ∉ layout.dedentLevels level) (extra : Nat) :
    layout.emissions (level + extra) =
      (layout.emissions level).map (Emission.deepen extra) := by
  induction layout generalizing level with
  | seq first second ihFirst ihSecond =>
      rw [dedentLevels, List.mem_append, not_or] at h
      rw [emissions, ihFirst h.1, first.levelAfter_add h.1 extra, ihSecond h.2, emissions,
        List.map_append]
  | skip | line | blank | raw | indent | dedent => rfl

theorem added_eq_join (level : Nat) :
    layout.added level = String.join ((layout.emissions level).map Emission.text) := by
  rw [added]
  induction layout.emissions level with
  | nil => rfl
  | cons emission rest ih => rw [Emission.concat, ih, List.map_cons, String.join_cons]

/-- **Re-indentation.** What a layout adds and where its level ends depend on the level at which it
starts and not on the text before. All levels that it starts deeper are left at its end exactly if
it carries out no dedent at level zero; and then it emits the same at a deeper level and adds the
same text, but for tabs at the start of each line that it emits. -/
theorem write_deeper (level : Nat) :
    (∀ before, layout.write ⟨level, before⟩ = ⟨layout.levelAfter level,
        before ++ String.join ((layout.emissions level).map Emission.text)⟩) ∧
      ((∀ extra, layout.levelAfter (level + extra) = layout.levelAfter level + extra) ↔
        0 ∉ layout.dedentLevels level) ∧
      (0 ∉ layout.dedentLevels level → ∀ extra,
        layout.emissions (level + extra) = (layout.emissions level).map (Emission.deepen extra) ∧
        ∀ before, layout.write ⟨level + extra, before⟩ = ⟨layout.levelAfter level + extra,
          before ++ String.join ((layout.emissions level).map (Emission.indentedText extra))⟩) := by
  refine ⟨fun before => ?_, ⟨fun h => ?_, fun h => layout.levelAfter_add h⟩, fun h extra => ?_⟩
  · rw [write_eq, added_eq_join]
  · exact (layout.levelAfter_add_iff Nat.one_pos).mp (h 1)
  · have hemissions := layout.emissions_add h extra
    refine ⟨hemissions, fun before => ?_⟩
    rw [write_eq, layout.levelAfter_add h extra, added, hemissions, Emission.concat_map_deepen]

/-- Within a block a level may be taken away and given back. -/
theorem write_deeper_block :
    let layout := block "switch (c)\x7b" "\x7d"
      (all [dedent, line "case 1:\nbreak;", indent, blank, raw "\n#", line "return c;"])
    0 ∉ layout.dedentLevels 0 ∧
      layout.emissions (0 + 2) = (layout.emissions 0).map (Emission.deepen 2) ∧
      ∀ before, layout.write ⟨0 + 2, before⟩ = ⟨0 + 2,
        before ++ String.join ((layout.emissions 0).map (Emission.indentedText 2))⟩ := by
  intro layout
  have h : 0 ∉ layout.dedentLevels 0 := by decide
  exact ⟨h, (write_deeper layout 0).2.2 h 2⟩

end Layout

end Scaffold
