import Scaffold.Proofs.Consent
import Scaffold.Proofs.Ground

/-!
# The catalogue of a session

Creations that follow one another under one root keep a catalogue: for each short name the blueprint
that was accepted last. What a creation answers depends on the catalogue alone, and the output
directory shows the catalogue and nothing else.
-/

namespace Scaffold

open Scaffold.Path (Step descend)

/-! ### Sessions -/

structure Turn where
  creation : Creation
  consent : Bool

structure Reply where
  value : Except (CreationFailure Empty) Report
  asked : List Path

namespace Turn

def name (turn : Turn) : String := turn.creation.request.shortName

def blueprint (turn : Turn) : Blueprint := turn.creation.blueprint

def destination (turn : Turn) : Path := turn.creation.destination

def files (turn : Turn) : List Path :=
  [turn.blueprint.headerPath turn.destination, turn.blueprint.sourcePath turn.destination]

def take (turn : Turn) (disk : Disk) : Reply × Disk :=
  let ending := turn.creation.carryOut (fun _ state => (.ok turn.consent, state)) disk ()
  (⟨ending.value, ending.state.1⟩, ending.disk)

def takeAll : List Turn → Disk → List Reply × Disk
  | [], disk => ([], disk)
  | turn :: rest, disk =>
    let (reply, middle) := turn.take disk
    let (replies, last) := takeAll rest middle
    (reply :: replies, last)

end Turn

/-- The blueprints that were accepted last, by short name. -/
abbrev Catalogue := String → Option Blueprint

namespace Catalogue

def empty : Catalogue := fun _ => none

def insert (catalogue : Catalogue) (name : String) (blueprint : Blueprint) : Catalogue :=
  fun other => if other = name then some blueprint else catalogue other

/-- What a turn is to be answered, and the catalogue afterwards. -/
def serve (catalogue : Catalogue) (turn : Turn) : Reply × Catalogue :=
  if turn.creation.isDryRun then
    (⟨.ok (turn.creation.report (.preview turn.blueprint.files)), []⟩, catalogue)
  else match catalogue turn.name with
    | none =>
      (⟨.ok (turn.creation.report (.written true turn.files)), []⟩,
        catalogue.insert turn.name turn.blueprint)
    | some _ =>
      if turn.consent then
        (⟨.ok (turn.creation.report (.written false turn.files)), [turn.destination]⟩,
          catalogue.insert turn.name turn.blueprint)
      else (⟨.ok (turn.creation.report .declined), [turn.destination]⟩, catalogue)

def serveAll : List Turn → Catalogue → List Reply × Catalogue
  | [], catalogue => ([], catalogue)
  | turn :: rest, catalogue =>
    let (reply, middle) := catalogue.serve turn
    let (replies, last) := serveAll rest middle
    (reply :: replies, last)

def home (out : Location) (name : String) : Location := (Symbols.derive name).fileBase :: out

def headerPlace (out : Location) (name : String) : Location :=
  (Symbols.derive name).headerFile :: home out name

def sourcePlace (out : Location) (name : String) : Location :=
  (Symbols.derive name).sourceFile :: home out name

inductive Holds (catalogue : Catalogue) (out : Location) : Location → Entry → Prop where
  | above {name : String} {blueprint : Blueprint} {rel : Location}
      (hname : catalogue name = some blueprint) (hrel : rel <:+ out) :
      Holds catalogue out rel .directory
  | home {name : String} {blueprint : Blueprint} (hname : catalogue name = some blueprint) :
      Holds catalogue out (home out name) .directory
  | header {name : String} {blueprint : Blueprint} (hname : catalogue name = some blueprint) :
      Holds catalogue out (headerPlace out name) (.file blueprint.render.header.toUTF8)
  | source {name : String} {blueprint : Blueprint} (hname : catalogue name = some blueprint) :
      Holds catalogue out (sourcePlace out name) (.file blueprint.render.source.toUTF8)

end Catalogue

structure Mirrors (catalogue : Catalogue) (start disk : Disk) (here out : Location) : Prop where
  workingDirectory : disk.workingDirectory = start.workingDirectory
  elsewhere : ∀ location, (∀ rel, rel ≠ [] → location ≠ rel ++ here) →
    disk.at? location = start.at? location
  below : ∀ rel, rel ≠ [] → ∀ entry,
    disk.at? (rel ++ here) = some entry ↔ catalogue.Holds out rel entry

namespace Catalogue

variable {catalogue : Catalogue} {out rel : Location} {entry : Entry} {name file : String}
  {blueprint : Blueprint}

@[simp]
theorem length_home (out : Location) (name : String) : (home out name).length = out.length + 1 :=
  rfl

@[simp]
theorem length_headerPlace (out : Location) (name : String) :
    (headerPlace out name).length = out.length + 2 := rfl

@[simp]
theorem length_sourcePlace (out : Location) (name : String) :
    (sourcePlace out name).length = out.length + 2 := rfl

theorem home_injective {left right : String} (h : home out left = home out right) :
    left = right :=
  Symbols.fileBase_injective (List.cons.inj h).1

theorem suffix_home (out : Location) (name : String) : out <:+ home out name :=
  List.suffix_cons _ out

namespace Holds

theorem of_suffix (h : catalogue.Holds out rel entry) (hrel : rel <:+ out) :
    entry = .directory := by
  have hlength := hrel.length_le
  cases h with
  | above | home => rfl
  | header =>
      rw [length_headerPlace] at hlength
      omega
  | source =>
      rw [length_sourcePlace] at hlength
      omega

theorem of_home (h : catalogue.Holds out (Catalogue.home out name) entry) :
    entry = .directory ∧ catalogue name ≠ none := by
  generalize hplace : Catalogue.home out name = place at h
  have hlength := congrArg List.length hplace
  cases h with
  | above hname hrel =>
      have hle := hrel.length_le
      simp at hlength
      omega
  | home hname =>
      obtain rfl := home_injective hplace
      exact ⟨rfl, by rw [hname]; simp⟩
  | header | source => simp at hlength

theorem of_file (h : catalogue.Holds out (file :: Catalogue.home out name) entry) :
    ∃ blueprint, catalogue name = some blueprint ∧
      (file = (Symbols.derive name).headerFile ∧
          entry = .file blueprint.render.header.toUTF8 ∨
        file = (Symbols.derive name).sourceFile ∧
          entry = .file blueprint.render.source.toUTF8) := by
  generalize hplace : file :: Catalogue.home out name = place at h
  have hlength := congrArg List.length hplace
  cases h with
  | above hname hrel =>
      have hle := hrel.length_le
      simp at hlength
      omega
  | home => simp at hlength
  | header hname =>
      obtain ⟨hfile, hrest⟩ := List.cons.inj hplace
      obtain rfl := home_injective hrest
      exact ⟨_, hname, Or.inl ⟨hfile, rfl⟩⟩
  | source hname =>
      obtain ⟨hfile, hrest⟩ := List.cons.inj hplace
      obtain rfl := home_injective hrest
      exact ⟨_, hname, Or.inr ⟨hfile, rfl⟩⟩

theorem insert (h : catalogue.Holds out rel entry) (hheader : rel ≠ headerPlace out name)
    (hsource : rel ≠ sourcePlace out name) :
    (catalogue.insert name blueprint).Holds out rel entry := by
  have hkept {other : String} {old : Blueprint} (hother : catalogue other = some old) :
      ∃ new, (catalogue.insert name blueprint) other = some new ∧ (other ≠ name → new = old) := by
    by_cases heq : other = name
    · exact ⟨blueprint, if_pos heq, fun hne => absurd heq hne⟩
    · exact ⟨old, by rw [Catalogue.insert, if_neg heq, hother], fun _ => rfl⟩
  cases h with
  | above hname hrel =>
      obtain ⟨new, hnew, _⟩ := hkept hname
      exact .above hnew hrel
  | home hname =>
      obtain ⟨new, hnew, _⟩ := hkept hname
      exact .home hnew
  | header hname =>
      obtain ⟨new, hnew, hsame⟩ := hkept hname
      rw [← hsame (fun heq => hheader (by rw [heq]))]
      exact .header hnew
  | source hname =>
      obtain ⟨new, hnew, hsame⟩ := hkept hname
      rw [← hsame (fun heq => hsource (by rw [heq]))]
      exact .source hnew

theorem of_insert (h : (catalogue.insert name blueprint).Holds out rel entry)
    (hway : ¬ rel <:+ Catalogue.home out name) (hheader : rel ≠ headerPlace out name)
    (hsource : rel ≠ sourcePlace out name) : catalogue.Holds out rel entry := by
  have hkept {other : String} {new : Blueprint} (hne : other ≠ name)
      (hother : (catalogue.insert name blueprint) other = some new) :
      catalogue other = some new := by
    rwa [Catalogue.insert, if_neg hne] at hother
  cases h with
  | above _ hrel => exact absurd (hrel.trans (suffix_home out name)) hway
  | home hname =>
      exact .home (hkept (fun heq => hway (heq ▸ List.suffix_rfl)) hname)
  | header hname => exact .header (hkept (fun heq => hheader (by rw [heq])) hname)
  | source hname => exact .source (hkept (fun heq => hsource (by rw [heq])) hname)

theorem way_iff (hname : catalogue name = some blueprint) (hway : rel <:+ Catalogue.home out name) :
    catalogue.Holds out rel entry ↔ entry = .directory := by
  rcases List.suffix_cons_iff.mp hway with rfl | hrel
  · exact ⟨fun h => h.of_home.1, fun h => h ▸ .home hname⟩
  · exact ⟨fun h => h.of_suffix hrel, fun h => h ▸ .above hname hrel⟩

theorem headerPlace_iff (hname : catalogue name = some blueprint) :
    catalogue.Holds out (headerPlace out name) entry ↔
      entry = .file blueprint.render.header.toUTF8 := by
  constructor
  · intro h
    obtain ⟨found, hfound, ⟨_, rfl⟩ | ⟨hfile, _⟩⟩ := of_file h
    · rw [Option.some.inj (hfound.symm.trans hname)]
    · exact absurd hfile (Symbols.headerFile_ne_sourceFile name name)
  · rintro rfl
    exact .header hname

theorem sourcePlace_iff (hname : catalogue name = some blueprint) :
    catalogue.Holds out (sourcePlace out name) entry ↔
      entry = .file blueprint.render.source.toUTF8 := by
  constructor
  · intro h
    obtain ⟨found, hfound, ⟨hfile, _⟩ | ⟨_, rfl⟩⟩ := of_file h
    · exact absurd hfile.symm (Symbols.headerFile_ne_sourceFile name name)
    · rw [Option.some.inj (hfound.symm.trans hname)]
  · rintro rfl
    exact .source hname

end Holds

end Catalogue

/-! ### The disk of a session -/

namespace Disk

variable {disk : Disk} {here rel : Location}

theorem at?_below_empty (hempty : ∀ name, disk.at? (name :: here) = none) (hrel : rel ≠ []) :
    disk.at? (rel ++ here) = none := by
  by_contra hpresent
  obtain ⟨front, name, rfl⟩ : ∃ front name, rel = front ++ [name] :=
    ⟨_, _, (List.dropLast_concat_getLast hrel).symm⟩
  rw [List.append_assoc, List.singleton_append] at hpresent
  by_cases hfront : front = []
  · exact hpresent (by rw [hfront, List.nil_append, hempty])
  · have hdir := at?_of_append hfront hpresent
    rw [hempty] at hdir
    cases hdir

end Disk

namespace Mirrors

variable {catalogue : Catalogue} {start disk : Disk} {here out : Location} {name : String}

theorem at?_here (h : Mirrors catalogue start disk here out) : disk.at? here = start.at? here := by
  apply h.elsewhere
  intro rel hrel heq
  have hlength := congrArg List.length heq
  have hpos := List.length_pos_iff.mpr hrel
  rw [List.length_append] at hlength
  omega

theorem at?_eq_none {rel : Location} (h : Mirrors catalogue start disk here out) (hrel : rel ≠ [])
    (hholds : ∀ entry, ¬ catalogue.Holds out rel entry) : disk.at? (rel ++ here) = none := by
  cases hentry : disk.at? (rel ++ here) with
  | none => rfl
  | some entry => exact absurd ((h.below rel hrel entry).mp hentry) (hholds entry)

theorem isClear (h : Mirrors catalogue start disk here out)
    (hhere : start.at? here = some .directory) : disk.IsClear here out := by
  intro part hpart
  by_cases hnil : part = []
  · rw [hnil, List.nil_append, h.at?_here]
    exact Or.inr hhere
  · cases hentry : disk.at? (part ++ here) with
    | none => exact Or.inl rfl
    | some entry =>
        rw [((h.below part hnil entry).mp hentry).of_suffix hpart]
        exact Or.inr rfl

theorem at?_file {file : String} (h : Mirrors catalogue start disk here out) :
    disk.at? (file :: Catalogue.home out name ++ here) = none ∨
      ∃ content, disk.at? (file :: Catalogue.home out name ++ here) = some (.file content) := by
  cases hentry : disk.at? (file :: Catalogue.home out name ++ here) with
  | none => exact Or.inl rfl
  | some entry =>
      have hholds := (h.below _ (List.cons_ne_nil _ _) entry).mp hentry
      obtain ⟨_, _, ⟨_, rfl⟩ | ⟨_, rfl⟩⟩ := hholds.of_file
      · exact Or.inr ⟨_, rfl⟩
      · exact Or.inr ⟨_, rfl⟩

theorem grows (h : Mirrors catalogue start disk here out)
    (hempty : ∀ name, start.at? (name :: here) = none) : start.Grows disk := by
  have hcases (location : Location) : disk.at? location = start.at? location ∨
      start.at? location = none ∧ ∀ path, disk.at? location ≠ some (.link path) := by
    by_cases hbelow : ∃ rel, rel ≠ [] ∧ location = rel ++ here
    · obtain ⟨rel, hrel, rfl⟩ := hbelow
      refine Or.inr ⟨Disk.at?_below_empty hempty hrel, fun path hlink => ?_⟩
      cases (h.below rel hrel _).mp hlink
    · exact Or.inl (h.elsewhere location fun rel hrel heq => hbelow ⟨rel, hrel, heq⟩)
  refine ⟨h.workingDirectory, fun {location} hdir => ?_, fun {location path} => ?_⟩
  · rcases hcases location with hsame | ⟨hnone, _⟩
    · rw [hsame, hdir]
    · rw [hnone] at hdir
      cases hdir
  · rcases hcases location with hsame | ⟨hnone, hnotLink⟩
    · rw [hsame]
    · simp [hnone, hnotLink path]

theorem at?_home_of_none (h : Mirrors catalogue start disk here out)
    (hname : catalogue name = none) : disk.at? (Catalogue.home out name ++ here) = none :=
  h.at?_eq_none (List.cons_ne_nil _ _) fun _ hholds => hholds.of_home.2 hname

theorem at?_home_of_some {blueprint : Blueprint} (h : Mirrors catalogue start disk here out)
    (hname : catalogue name = some blueprint) :
    disk.at? (Catalogue.home out name ++ here) = some .directory :=
  (h.below _ (List.cons_ne_nil _ _) _).mpr (.home hname)

theorem isClear_home (h : Mirrors catalogue start disk here out)
    (hhere : start.at? here = some .directory) (name : String) :
    disk.IsClear here (Catalogue.home out name) := by
  intro part hpart
  rcases List.suffix_cons_iff.mp hpart with rfl | hpart
  · cases hname : catalogue name with
    | none => exact Or.inl (h.at?_home_of_none hname)
    | some blueprint => exact Or.inr (h.at?_home_of_some hname)
  · exact h.isClear hhere part hpart

/-- **One accepted type.** With the way to its directory filled in and both files put there, the
disk shows the catalogue with the type. -/
theorem insert {blueprint : Blueprint} {above middle after : Disk}
    (h : Mirrors catalogue start disk here out) (hhere : start.at? here = some .directory)
    (hfills : disk.Fills above here (Catalogue.home out name))
    (hheader : above.Puts middle (Catalogue.headerPlace out name ++ here)
      (.file blueprint.render.header.toUTF8))
    (hsource : middle.Puts after (Catalogue.sourcePlace out name ++ here)
      (.file blueprint.render.source.toUTF8)) :
    Mirrors (catalogue.insert name blueprint) start after here out := by
  have hnew : (catalogue.insert name blueprint) name = some blueprint := if_pos rfl
  constructor
  case workingDirectory =>
    rw [hsource.workingDirectory, hheader.workingDirectory, hfills.workingDirectory,
      h.workingDirectory]
  case elsewhere =>
    intro location hlocation
    have hnotSource := hlocation (Catalogue.sourcePlace out name) (List.cons_ne_nil _ _)
    have hnotHeader := hlocation (Catalogue.headerPlace out name) (List.cons_ne_nil _ _)
    rw [hsource.at?, if_neg hnotSource, hheader.at?, if_neg hnotHeader]
    by_cases hisHere : location = here
    · rw [hisHere, hhere]
      exact hfills.made [] List.nil_suffix
    · rw [hfills.kept, h.elsewhere location hlocation]
      rintro part _ heq
      by_cases hnil : part = []
      · exact hisHere (by rw [heq, hnil, List.nil_append])
      · exact hlocation part hnil heq
  case below =>
    intro rel hrel entry
    rw [hsource.at?, hheader.at?]
    by_cases hisSource : rel = Catalogue.sourcePlace out name
    · rw [hisSource, if_pos rfl, Catalogue.Holds.sourcePlace_iff hnew]
      exact ⟨fun heq => (Option.some.inj heq).symm, fun heq => by rw [heq]⟩
    rw [if_neg fun heq => hisSource (List.append_cancel_right heq)]
    by_cases hisHeader : rel = Catalogue.headerPlace out name
    · rw [hisHeader, if_pos rfl, Catalogue.Holds.headerPlace_iff hnew]
      exact ⟨fun heq => (Option.some.inj heq).symm, fun heq => by rw [heq]⟩
    rw [if_neg fun heq => hisHeader (List.append_cancel_right heq)]
    by_cases hway : rel <:+ Catalogue.home out name
    · rw [hfills.made rel hway, Catalogue.Holds.way_iff hnew hway]
      exact ⟨fun heq => (Option.some.inj heq).symm, fun heq => by rw [heq]⟩
    · have hkept : above.at? (rel ++ here) = disk.at? (rel ++ here) :=
        hfills.kept _ fun part hpart heq => hway (List.append_cancel_right heq ▸ hpart)
      rw [hkept, h.below rel hrel]
      exact ⟨fun hholds => hholds.insert hisHeader hisSource,
        fun hholds => hholds.of_insert hway hisHeader hisSource⟩

theorem empty (hempty : ∀ name, start.at? (name :: here) = none) :
    Mirrors Catalogue.empty start start here out where
  workingDirectory := rfl
  elsewhere _ _ := rfl
  below := by
    intro rel hrel entry
    rw [Disk.at?_below_empty hempty hrel]
    constructor
    · intro h
      cases h
    · intro h
      cases h with
      | above hname | home hname | header hname | source hname => cases hname

end Mirrors

end Scaffold
