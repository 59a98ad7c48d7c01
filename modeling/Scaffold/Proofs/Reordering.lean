import Scaffold.Proofs.DistinctKeys

/-!
# Tables in another order

The same entries in another order stand at other places of a document. Two tables are therefore
compared without the places.
-/

namespace Scaffold.Toml

abbrev Entry := Key × Span × Value

def Span.nowhere : Span := ⟨0, 0⟩

mutual

def Value.unplaced : Value → Value
  | .array ofHeaders items => .array ofHeaders (unplacedItems items)
  | .table origin entries => .table origin (unplacedEntries entries)
  | value => value

def unplacedItems : List (Span × Value) → List (Span × Value)
  | [] => []
  | (_, value) :: items => (.nowhere, value.unplaced) :: unplacedItems items

def unplacedEntries : Entries → Entries
  | [] => []
  | (key, _, value) :: entries =>
    (⟨key.name, .nowhere⟩, .nowhere, value.unplaced) :: unplacedEntries entries

end

namespace Entry

def unplaced (entry : Entry) : Entry :=
  (⟨entry.1.name, .nowhere⟩, .nowhere, entry.2.2.unplaced)

variable {entry twin : Entry}

theorem name_eq_of_unplaced_eq (h : twin.unplaced = entry.unplaced) :
    twin.1.name = entry.1.name :=
  congrArg (·.1.name) h

theorem value_eq_of_unplaced_eq (h : twin.unplaced = entry.unplaced) :
    twin.2.2.unplaced = entry.2.2.unplaced :=
  congrArg (·.2.2) h

end Entry

theorem unplacedEntries_eq_map (entries : Entries) :
    unplacedEntries entries = entries.map Entry.unplaced := by
  induction entries with
  | nil => rfl
  | cons entry entries ih => rw [unplacedEntries, ih, List.map_cons, Entry.unplaced]

/-- The same entries in any order, and anywhere in their documents. -/
def Entries.IsReordered (first second : Entries) : Prop :=
  (first.map Entry.unplaced).Perm (second.map Entry.unplaced)

namespace Entries.IsReordered

variable {first second : Entries}

theorem symm (h : first.IsReordered second) : second.IsReordered first :=
  List.Perm.symm h

theorem exists_twin (h : first.IsReordered second) {entry : Entry} (hmem : entry ∈ first) :
    ∃ twin ∈ second, Entry.unplaced twin = entry.unplaced :=
  List.mem_map.mp (h.mem_iff.mp (List.mem_map_of_mem hmem))

theorem hasDistinctNames (h : first.IsReordered second) (hfirst : first.HasDistinctNames) :
    second.HasDistinctNames := by
  have hnames (entries : Entries) :
      (entries.map Entry.unplaced).map (·.1.name) = entries.map (·.1.name) := by
    rw [List.map_map]
    rfl
  have hperm := h.map (·.1.name)
  rw [hnames, hnames] at hperm
  exact hperm.nodup_iff.mp hfirst

end Entries.IsReordered

end Scaffold.Toml
