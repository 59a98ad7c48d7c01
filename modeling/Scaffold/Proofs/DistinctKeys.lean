import Mathlib.Data.List.Nodup
import Scaffold.Toml.Document

/-!
# The keys of a document are distinct

Each change that a document makes to its top table adds a key that is not there, or keeps the keys
that are there. Changes further down replace a value on their way.
-/

namespace Scaffold.Toml

namespace Entries

def HasDistinctNames (entries : Entries) : Prop :=
  (entries.map (·.1.name)).Nodup

variable {entries : Entries} {key : Key} {name : String} {value : Span × Value}

theorem get?_eq_none_iff : entries.get? name = none ↔ name ∉ entries.map (·.1.name) := by
  rw [get?, Option.map_eq_none_iff, List.find?_eq_none, List.mem_map]
  simp

theorem contains_eq_false_iff :
    entries.contains name = false ↔ name ∉ entries.map (·.1.name) := by
  rw [contains, List.any_eq_false, List.mem_map]
  simp

theorem HasDistinctNames.concat (h : entries.HasDistinctNames)
    (hkey : key.name ∉ entries.map (·.1.name)) :
    (entries ++ [(key, value)]).HasDistinctNames := by
  rw [HasDistinctNames, List.map_append, List.nodup_append_comm]
  exact List.nodup_cons.mpr ⟨hkey, h⟩

theorem HasDistinctNames.replace (h : entries.HasDistinctNames) (name : String)
    (value : Span × Value) : (entries.replace name value).HasDistinctNames := by
  have hnames : (entries.replace name value).map (·.1.name) = entries.map (·.1.name) := by
    rw [Entries.replace, List.map_map]
    apply List.map_congr_left
    intro entry _
    simp only [Function.comp_apply]
    split <;> rfl
  rw [HasDistinctNames, hnames]
  exact h

theorem HasDistinctNames.erase (h : entries.HasDistinctNames) (name : String) :
    (entries.erase name).HasDistinctNames :=
  List.Nodup.sublist (List.filter_sublist.map _) h

theorem name_notMem_erase (entries : Entries) (name : String) :
    name ∉ (entries.erase name).map (·.1.name) := by
  simp [Entries.erase]

/-! ### Changes of a table -/

def KeepsDistinctNames (change : TableOrigin → Entries → Option Entries) : Prop :=
  ∀ origin entries result, change origin entries = some result →
    entries.HasDistinctNames → result.HasDistinctNames

theorem keepsDistinctNames_updateAt {isDotted : Bool}
    {change : TableOrigin → Entries → Option Entries} (hchange : KeepsDistinctNames change)
    (path : List Key) : KeepsDistinctNames (updateAt isDotted change path) := by
  intro origin entries result hupdate h
  unfold updateAt at hupdate
  split at hupdate
  · exact hchange _ _ _ hupdate h
  · split at hupdate
    · next hget =>
        obtain ⟨inner, -, rfl⟩ := Option.map_eq_some_iff.mp hupdate
        exact h.concat (get?_eq_none_iff.mp hget)
    · split at hupdate
      · cases hupdate
      · obtain ⟨inner, -, rfl⟩ := Option.map_eq_some_iff.mp hupdate
        exact h.replace _ _
    · split at hupdate
      · obtain ⟨inner, -, rfl⟩ := Option.map_eq_some_iff.mp hupdate
        exact h.replace _ _
      · cases hupdate
    · cases hupdate

theorem keepsDistinctNames_addPair (path : List Key) (key : Key) (value : Span × Value) :
    KeepsDistinctNames fun origin entries => addPair path key value origin entries := by
  apply keepsDistinctNames_updateAt
  intro origin entries result hadd h
  dsimp only at hadd
  split at hadd
  · cases hadd
  · next hnot =>
      rw [Bool.not_eq_true, Bool.or_eq_false_iff] at hnot
      cases hadd
      exact h.concat (contains_eq_false_iff.mp hnot.2)

theorem keepsDistinctNames_openTable (key : Key) (span : Span) :
    KeepsDistinctNames (openTable key span) := by
  intro origin entries result hopen h
  unfold openTable at hopen
  split at hopen
  · next hget =>
      cases hopen
      exact h.concat (get?_eq_none_iff.mp hget)
  · cases hopen
    exact (h.erase key.name).concat (name_notMem_erase entries key.name)
  · cases hopen

theorem keepsDistinctNames_openItem (key : Key) (span : Span) :
    KeepsDistinctNames (openItem key span) := by
  intro origin entries result hopen h
  unfold openItem at hopen
  split at hopen
  · next hget =>
      cases hopen
      exact h.concat (get?_eq_none_iff.mp hget)
  · cases hopen
    exact h.replace _ _
  · cases hopen

end Entries

/-! ### Documents -/

namespace Growth

variable {growth result : Growth}

theorem hasDistinctNames_add? {statement : Statement} (hadd : growth.add? statement = some result)
    (h : growth.root.HasDistinctNames) : result.root.HasDistinctNames := by
  cases statement with
  | header isItem path key span =>
      obtain ⟨root, hroot, rfl⟩ := Option.map_eq_some_iff.mp hadd
      refine Entries.keepsDistinctNames_updateAt ?_ path _ _ root hroot h
      cases isItem with
      | true => exact Entries.keepsDistinctNames_openItem key span
      | false => exact Entries.keepsDistinctNames_openTable key span
  | pair path key value =>
      obtain ⟨root, hroot, rfl⟩ := Option.map_eq_some_iff.mp hadd
      exact Entries.keepsDistinctNames_updateAt (Entries.keepsDistinctNames_addPair path key value)
        growth.current _ _ root hroot h

theorem hasDistinctNames_foldlM {statements : List Statement}
    (hfold : statements.foldlM add? growth = some result) (h : growth.root.HasDistinctNames) :
    result.root.HasDistinctNames := by
  induction statements generalizing growth with
  | nil =>
      cases hfold
      exact h
  | cons statement statements ih =>
      obtain ⟨next, hnext, hrest⟩ := Option.bind_eq_some_iff.mp hfold
      exact ih hrest (hasDistinctNames_add? hnext h)

end Growth

/-- **The keys of a document are distinct.** -/
theorem hasDistinctNames_document? {text : String} {entries : Entries}
    (h : document? text = some entries) : entries.HasDistinctNames := by
  obtain ⟨⟨statements, _⟩, -, h⟩ := Option.bind_eq_some_iff.mp h
  obtain ⟨growth, hgrowth, h⟩ := Option.bind_eq_some_iff.mp h
  have hroot : growth.root = entries := by
    split at h
    · exact Option.some.inj h
    · cases h
  rw [← hroot]
  exact Growth.hasDistinctNames_foldlM hgrowth List.nodup_nil

end Scaffold.Toml
