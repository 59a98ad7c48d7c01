import Scaffold.Path

/-!
The tree of files: which entry stands at which location. Main statement: whatever is at a location,
all locations above it hold directories, and setting or removing an entry keeps it so.
-/

namespace Scaffold

/-- A place in the tree: the names on the way to it, the innermost first. -/
abbrev Location := List String

inductive Entry where
  | directory
  | file (content : ByteArray)
  | link (target : Path)

instance : DecidableEq Entry := fun first second =>
  match first, second with
  | .directory, .directory => isTrue rfl
  | .file left, .file right =>
    decidable_of_iff (left.data = right.data)
      ⟨fun same => congrArg Entry.file (ByteArray.ext same), fun same => by cases same; rfl⟩
  | .link left, .link right =>
    decidable_of_iff (left = right)
      ⟨fun same => congrArg Entry.link same, fun same => by cases same; rfl⟩
  | .directory, .file _ | .directory, .link _ | .file _, .directory | .file _, .link _
  | .link _, .directory | .link _, .file _ => isFalse (by simp)

namespace Entry

/-- The first entry listed for a location. The root is always a directory. -/
def lookup (entries : List (Location × Entry)) (location : Location) : Option Entry :=
  if location = [] then some .directory
  else (entries.find? (·.1 == location)).map Prod.snd

def assign (location : Location) (entry : Entry) :
    List (Location × Entry) → List (Location × Entry)
  | [] => [(location, entry)]
  | first :: rest =>
    if first.1 = location then (location, entry) :: rest
    else first :: assign location entry rest

theorem lookup_assign {location other : Location} (entry : Entry)
    (entries : List (Location × Entry)) (ne : location ≠ []) :
    lookup (assign location entry entries) other =
      if other = location then some entry else lookup entries other := by
  by_cases root : other = []
  · subst root
    simp [lookup, Ne.symm ne]
  simp only [lookup, root, ite_false]
  induction entries with
  | nil =>
    by_cases same : other = location
    · simp [assign, same]
    · simp [assign, same, Ne.symm same]
  | cons first rest ih =>
    by_cases found : first.1 = location
    · by_cases same : other = location
      · simp [assign, found, same]
      · simp [assign, found, same, Ne.symm same]
    · by_cases here : first.1 = other
      · have differ : other ≠ location := here ▸ found
        simp [assign, here, differ]
      · simpa [assign, found, here] using ih

theorem assign_assign (location : Location) (first second : Entry)
    (entries : List (Location × Entry)) :
    assign location second (assign location first entries) = assign location second entries := by
  induction entries with
  | nil => simp [assign]
  | cons head rest ih =>
      by_cases found : head.1 = location
      · simp [assign, found]
      · simp [assign, found, ih]

theorem assign_of_lookup {location : Location} {entry : Entry}
    {entries : List (Location × Entry)} (ne : location ≠ [])
    (h : lookup entries location = some entry) : assign location entry entries = entries := by
  simp only [lookup, ne, ite_false] at h
  induction entries with
  | nil => simp at h
  | cons head rest ih =>
      by_cases found : head.1 = location
      · have value : head.2 = entry := by simpa [found] using h
        rw [assign, if_pos found, ← found, ← value]
      · have later : (rest.find? (·.1 == location)).map Prod.snd = some entry := by
          simpa [found] using h
        rw [assign, if_neg found, ih later]

def prune (location : Location) (entries : List (Location × Entry)) : List (Location × Entry) :=
  entries.filter fun entry => !location.isSuffixOf entry.1

theorem lookup_prune {location other : Location} (entries : List (Location × Entry))
    (ne : other ≠ []) :
    lookup (prune location entries) other =
      if location <:+ other then none else lookup entries other := by
  simp only [lookup, ne, prune, ite_false]
  induction entries with
  | nil => simp
  | cons first rest ih =>
    by_cases here : first.1 = other
    · by_cases below : location <:+ other
      · have dropped : location.isSuffixOf first.1 = true := by
          rw [here, List.isSuffixOf_iff_suffix]
          exact below
        simpa [List.filter_cons, dropped, below] using ih
      · have kept : location.isSuffixOf other = false := by
          rw [← Bool.not_eq_true, List.isSuffixOf_iff_suffix]
          exact below
        simp [kept, below, here]
    · have differ : (first.1 == other) = false := by simp [here]
      rw [List.find?_cons, differ]
      by_cases dropped : location.isSuffixOf first.1 = true
      · simpa [List.filter_cons, dropped] using ih
      · simpa [List.filter_cons, dropped, differ] using ih

end Entry

def IsTree (entries : List (Location × Entry)) : Prop :=
  ∀ name parent, Entry.lookup entries (name :: parent) ≠ none →
    Entry.lookup entries parent = some .directory

structure Disk where
  entries : List (Location × Entry)
  workingDirectory : Location
  isTree : IsTree entries

namespace Disk

def at? (disk : Disk) (location : Location) : Option Entry :=
  Entry.lookup disk.entries location

@[simp]
theorem at?_root (disk : Disk) : disk.at? [] = some .directory := by
  simp [at?, Entry.lookup]

theorem at?_parent {disk : Disk} {name : String} {parent : Location}
    (h : disk.at? (name :: parent) ≠ none) : disk.at? parent = some .directory :=
  disk.isTree name parent h

def empty : Disk where
  entries := []
  workingDirectory := []
  isTree := fun name parent h => by simp [Entry.lookup] at h

/-- Whether an entry that is no directory, or a new directory, may stand at a name. -/
def Admits (disk : Disk) (name : String) (parent : Location) : Prop :=
  disk.at? parent = some .directory ∧ disk.at? (name :: parent) ≠ some .directory

instance (disk : Disk) (name : String) (parent : Location) : Decidable (disk.Admits name parent) :=
  inferInstanceAs (Decidable (_ ∧ _))

theorem isTree_assign {disk : Disk} {name : String} {parent : Location}
    (admits : disk.Admits name parent) (entry : Entry) :
    IsTree (Entry.assign (name :: parent) entry disk.entries) := by
  have lookup (other : Location) :
      Entry.lookup (Entry.assign (name :: parent) entry disk.entries) other =
        if other = name :: parent then some entry else Entry.lookup disk.entries other :=
    Entry.lookup_assign entry disk.entries (List.cons_ne_nil name parent)
  intro inner outer present
  rw [lookup] at present ⊢
  have outerDirectory : Entry.lookup disk.entries outer = some .directory := by
    split at present
    · next same =>
      injection same with _ outerEq
      exact outerEq ▸ admits.1
    · exact disk.isTree inner outer present
  rw [if_neg]
  · exact outerDirectory
  · intro same
    exact admits.2 (same ▸ outerDirectory)

def set (disk : Disk) (name : String) (parent : Location) (entry : Entry)
    (admits : disk.Admits name parent) : Disk :=
  { disk with
    entries := Entry.assign (name :: parent) entry disk.entries
    isTree := isTree_assign admits entry }

theorem at?_set {disk : Disk} {name : String} {parent : Location} {entry : Entry}
    (admits : disk.Admits name parent) (location : Location) :
    (disk.set name parent entry admits).at? location =
      if location = name :: parent then some entry else disk.at? location :=
  Entry.lookup_assign entry disk.entries (List.cons_ne_nil name parent)

@[simp]
theorem workingDirectory_set {disk : Disk} {name : String} {parent : Location} {entry : Entry}
    (admits : disk.Admits name parent) :
    (disk.set name parent entry admits).workingDirectory = disk.workingDirectory := rfl

theorem set_set {disk : Disk} {name : String} {parent : Location} {first entry : Entry}
    (admits : disk.Admits name parent)
    (again : (disk.set name parent first admits).Admits name parent) :
    (disk.set name parent first admits).set name parent entry again =
      disk.set name parent entry admits := by
  simp only [set, Entry.assign_assign]

theorem set_of_at? {disk : Disk} {name : String} {parent : Location} {entry : Entry}
    (admits : disk.Admits name parent) (h : disk.at? (name :: parent) = some entry) :
    disk.set name parent entry admits = disk := by
  have same : Entry.assign (name :: parent) entry disk.entries = disk.entries :=
    Entry.assign_of_lookup (List.cons_ne_nil name parent) h
  simp only [set, same]

def workspace : Disk :=
  { empty.set "workspace" [] .directory (by simp [Admits, empty, at?, Entry.lookup]) with
    workingDirectory := ["workspace"] }

theorem isTree_prune (disk : Disk) (location : Location) :
    IsTree (Entry.prune location disk.entries) := by
  intro name parent present
  rw [Entry.lookup_prune _ (List.cons_ne_nil name parent)] at present
  split at present
  · exact absurd rfl present
  · next notBelow =>
    have directory := disk.isTree name parent present
    by_cases root : parent = []
    · simp [root, Entry.lookup]
    · rw [Entry.lookup_prune _ root, if_neg]
      · exact directory
      · exact fun below => notBelow (below.trans (List.suffix_cons name parent))

def prune (disk : Disk) (location : Location) : Disk :=
  { disk with
    entries := Entry.prune location disk.entries
    isTree := disk.isTree_prune location }

end Disk

end Scaffold
