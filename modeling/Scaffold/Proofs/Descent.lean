import Scaffold.Config.Decode
import Scaffold.Proofs.Ancestry
import Scaffold.Proofs.Naming

/-!
# Below the root

The settings name an output directory, and any text will do. A path lies below another if it goes on
from it and never climbs above it again, as far as its components say. The destination lies below
the root for every output directory that does not climb above where it starts; an absolute one
replaces the root, so for these it is a matter of how the root is spelled.
-/

namespace Scaffold

namespace Path

variable {path base part root : Path} {before other segs : List (List Char)} {depth : Nat}
  {name : String}

/-- How far below its start a path is after one more component. It is nowhere below it once it has
climbed above it or started from the top again. -/
def Component.descend? : Nat → Component → Option Nat
  | _, .root => none
  | depth, .here => some depth
  | 0, .up => none
  | depth + 1, .up => some depth
  | depth, .name _ => some (depth + 1)

def Descend (components : List Component) : Prop :=
  components.foldlM Component.descend? 0 ≠ none

instance (components : List Component) : Decidable (Descend components) :=
  inferInstanceAs (Decidable (_ ≠ _))

/-- The path goes on from the root and stays at or below it. -/
def LiesBelow (path root : Path) : Prop :=
  ∃ rest, path.components = root.components ++ rest ∧ Descend rest

/-! ### Descents -/

theorem descend_concat_name (components : List Component) (text : List Char) :
    Descend (components ++ [.name text]) ↔ Descend components := by
  unfold Descend
  rw [List.foldlM_append]
  cases components.foldlM Component.descend? 0 with
  | none => exact Iff.rfl
  | some depth => simp [Component.descend?]

theorem not_descend_of_isAbsolute (habsolute : path.isAbsolute = true) :
    ¬ Descend path.components := by
  have hempty : path.isEmpty = false := by
    rw [← Bool.not_eq_true]
    intro hempty
    rw [isAbsolute, List.isEmpty_iff.mp hempty] at habsolute
    cases habsolute
  rw [isAbsolute_of_isEmpty hempty] at habsolute
  obtain ⟨first, rest, hsegments⟩ := List.exists_cons_of_ne_nil path.segments_ne_nil
  have hfirst : first = [] := by simpa [hsegments] using habsolute
  rw [components_of_isEmpty hempty, hsegments, hfirst]
  exact fun h => h rfl

theorem liesBelow_append {rest : List Component} (h : path.components = root.components ++ rest) :
    path.LiesBelow root ↔ Descend rest := by
  constructor
  · rintro ⟨other, hother, hdescend⟩
    rwa [List.append_cancel_left (h.symm.trans hother)]
  · exact fun hdescend => ⟨rest, h, hdescend⟩

theorem liesBelow_iff : path.LiesBelow root ↔ root.components <+: path.components ∧
    Descend (path.components.drop root.components.length) := by
  constructor
  · rintro ⟨rest, hrest, hdescend⟩
    rw [hrest, List.drop_left]
    exact ⟨List.prefix_append _ _, hdescend⟩
  · rintro ⟨⟨rest, hrest⟩, hdescend⟩
    rw [← hrest, List.drop_left] at hdescend
    exact ⟨rest, hrest.symm, hdescend⟩

instance (path root : Path) : Decidable (path.LiesBelow root) :=
  decidable_of_iff _ liesBelow_iff.symm

/-- What stands before segments counts only in whether it is there. -/
theorem map_fst_partsAfter (hbefore : before ≠ []) (hother : other ≠ []) :
    (partsAfter before segs).map Prod.fst = (partsAfter other segs).map Prod.fst := by
  induction segs generalizing before other with
  | nil => rfl
  | cons segment rest ih =>
      have hrest := @ih (before ++ [segment]) (other ++ [segment]) (by simp) (by simp)
      rw [partsAfter, partsAfter, List.isEmpty_eq_false_iff.mpr hbefore,
        List.isEmpty_eq_false_iff.mpr hother]
      cases componentOf? false segment with
      | none => exact hrest
      | some component => cases component <;> simp [hrest]

/-- After a base, a leading dot is no component any more, and all others are the same. -/
theorem descend_partsAfter (hrelative : part.isAbsolute = false) (hbefore : before ≠ []) :
    Descend ((partsAfter before part.segments).map Prod.fst) ↔ Descend part.components := by
  cases hempty : part.isEmpty with
  | true =>
      have hnil : part.text.toList = [] := List.isEmpty_iff.mp hempty
      have hsegments : part.segments = [[]] := by simp [segments, hnil]
      have hnone : componentOf? before.isEmpty [] = none := by
        rw [List.isEmpty_eq_false_iff.mpr hbefore]
        rfl
      rw [components, parts, hempty, hsegments, partsAfter, hnone]
      exact Iff.rfl
  | false =>
      rw [isAbsolute_of_isEmpty hempty] at hrelative
      rw [components_of_isEmpty hempty]
      obtain ⟨first, rest, hsegments⟩ := List.exists_cons_of_ne_nil part.segments_ne_nil
      have hfirst : first ≠ [] := by simpa [hsegments] using hrelative
      have hrest := @map_fst_partsAfter (before ++ [first]) ([] ++ [first]) rest
        (by simp) (by simp)
      rw [hsegments, partsAfter, partsAfter, List.isEmpty_eq_false_iff.mpr hbefore]
      by_cases hdot : first = ['.']
      · rw [hdot] at hrest ⊢
        change Descend ((partsAfter (before ++ [['.']]) rest).map Prod.fst) ↔
          Descend (.here :: (partsAfter ([] ++ [['.']]) rest).map Prod.fst)
        rw [hrest]
        exact Iff.rfl
      · have hsame : componentOf? false first =
            componentOf? ([] : List (List Char)).isEmpty first := by
          simp [componentOf?, hfirst, hdot]
        rw [hsame]
        cases hcomponent : componentOf? ([] : List (List Char)).isEmpty first with
        | none => rw [hrest]
        | some component => cases component <;> simp [hrest]

/-- A relative part stays below whatever it is joined to if it stays below its own start. -/
theorem liesBelow_join (base : Path) (hrelative : part.isAbsolute = false) :
    (base.join part).LiesBelow base ↔ Descend part.components := by
  cases hempty : base.isEmpty with
  | true =>
      have hnil : base.components = [] := by
        rw [components, parts, if_pos hempty]
        rfl
      apply liesBelow_append
      rw [join_of_isEmpty hempty, hnil, List.nil_append]
  | false =>
      rw [liesBelow_append (components_join hempty hrelative)]
      exact descend_partsAfter hrelative (joint_ne_nil hempty)

theorem liesBelow_concat {text : List Char}
    (h : path.components = base.components ++ [.name text]) :
    path.LiesBelow root ↔ base.LiesBelow root ∨ root.components = path.components := by
  constructor
  · rintro ⟨rest, hrest, hdescend⟩
    rcases List.eq_nil_or_concat rest with rfl | ⟨init, last, rfl⟩
    · exact Or.inr (by rw [hrest, List.append_nil])
    · rw [h, List.concat_eq_append, ← List.append_assoc] at hrest
      obtain ⟨hbase, hlast⟩ := List.append_inj' hrest rfl
      rw [List.concat_eq_append, ← hlast] at hdescend
      exact Or.inl ⟨init, hbase, (descend_concat_name init text).mp hdescend⟩
  · rintro (⟨rest, hrest, hdescend⟩ | hsame)
    · refine ⟨rest ++ [.name text], ?_, (descend_concat_name rest text).mpr hdescend⟩
      rw [h, hrest, List.append_assoc]
    · exact ⟨[], by rw [hsame, List.append_nil], Option.some_ne_none 0⟩

end Path

namespace Config

open Scaffold.Path (Descend)

/-- **Where the destination lies.** For all settings, every root and every admissible name, the
destination lies below the root exactly if the output directory does not climb above where it
starts, or is absolute and happens to spell the root first. -/
theorem destination_liesBelow_iff {name : String} (hname : checkName name = .ok ())
    (config : Config) (root : Path) :
    (config.destination root (Symbols.derive name).fileBase).LiesBelow root ↔
      Descend config.outputDir.components ∨ config.outputDir.isAbsolute = true ∧
        (config.outputDir.LiesBelow root ∨
          root.components =
            (config.destination root (Symbols.derive name).fileBase).components) := by
  have hends := endsWith_fileBase hname (root.join config.outputDir)
  rw [destination, Path.liesBelow_concat hends.components]
  cases habsolute : config.outputDir.isAbsolute with
  | true =>
      have hnot := Path.not_descend_of_isAbsolute habsolute
      simp only [Path.join_of_isAbsolute habsolute, hnot, false_or, true_and]
  | false =>
      have hlonger : root.components ≠
          ((root.join config.outputDir).join ⟨(Symbols.derive name).fileBase⟩).components := by
        intro hsame
        have hle := (Path.isPrefixOf_join root habsolute).components.length_le
        rw [hends.components] at hsame
        have hlength := congrArg List.length hsame
        rw [List.length_append, List.length_singleton] at hlength
        omega
      rw [Path.liesBelow_join root habsolute]
      simp [hlonger]

theorem destination_liesBelow_iff_default :
    checkName "Widget" = .ok () ∧
      (default.destination ⟨"."⟩ (Symbols.derive "Widget").fileBase).LiesBelow ⟨"."⟩ :=
  ⟨by decide, (destination_liesBelow_iff (by decide) default ⟨"."⟩).mpr (Or.inl (by decide))⟩

/-- Settings that are accepted put the destination elsewhere, or next to the root. -/
theorem not_liesBelow_of_outside :
    let elsewhere : Config := { default with outputDir := ⟨"/tmp"⟩ }
    let beside : Config := { default with outputDir := ⟨".."⟩ }
    let base := (Symbols.derive "Widget").fileBase
    checkName "Widget" = .ok () ∧
      ofText "output_dir = \"/tmp\"" = .ok elsewhere ∧
      ¬ (elsewhere.destination ⟨"repo"⟩ base).LiesBelow ⟨"repo"⟩ ∧
      ofText "output_dir = \"..\"" = .ok beside ∧
      ¬ (beside.destination ⟨"repo"⟩ base).LiesBelow ⟨"repo"⟩ := by
  decide +kernel

end Config

end Scaffold
