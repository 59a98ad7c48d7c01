import Scaffold.Proofs.Ground

/-!
# Where a script looks

Where no link stands, a path without a `..` has its place in the tree before anything is looked up,
and a call depends on the ways to that place only. So a script whose paths all stay outside a
directory runs the same whatever the directory holds, and leaves it as it is.
-/

namespace Scaffold

open Scaffold.Path (Step descend)

/-! ### Places -/

namespace Path

variable {path : Path} {here : Location} {steps : List Step}

def place (path : Path) (here : Location) : Location :=
  descend (Disk.startOf path here) path.route

theorem descend_steps (path : Path) (here : Location) :
    descend here path.steps = descend here path.route := by
  rcases path.steps_eq_append with hsteps | hsteps
  · rw [hsteps]
  · rw [hsteps, descend_append]
    rfl

theorem suffix_descend (here : Location) (steps : List Step) : here <:+ descend here steps :=
  ⟨descend [] steps, (descend_eq here steps).symm⟩

theorem up_notMem_steps (hup : .up ∉ path.route) : .up ∉ path.steps := by
  rcases path.steps_eq_append with hsteps | hsteps <;> simp [hsteps, hup]

theorem place_join {base : Path} {name : String}
    (hends : (base.join ⟨name⟩).EndsWith base.joint name)
    (hrelative : (Path.mk name).isAbsolute = false) (here : Location) :
    (base.join ⟨name⟩).place here = name :: base.place here := by
  rw [place, Disk.startOf, isAbsolute_join hrelative, hends.route, descend_append,
    filterMap_stepOf?_joint]
  rfl

namespace IsAncestorOf

variable {stem : Path}

theorem up_notMem (h : stem.IsAncestorOf path) (hup : .up ∉ path.route) : .up ∉ stem.route := by
  obtain ⟨tail, hroute, _⟩ := h.route
  rw [hroute] at hup
  exact fun hmem => hup (List.mem_append_left _ hmem)

theorem exists_place (h : stem.IsAncestorOf path) (hup : .up ∉ path.route) (here : Location) :
    ∃ rel, rel ≠ [] ∧ path.place here = rel ++ stem.place here := by
  obtain ⟨stays, name, rest, hroute, _⟩ := h.exists_into hup
  refine ⟨descend [] (stays ++ .into name :: rest), ?_, ?_⟩
  · rw [descend_append, descend, descend_eq]
    simp
  · rw [place, place, hroute, descend_append, ← descend_eq, Disk.startOf, Disk.startOf,
      h.isAbsolute]

end IsAncestorOf

end Path

namespace Disk

variable {disk after left right : Disk} {aim : Aim} {links : Nat} {here home location : Location}
  {steps rest : List Step} {name : String} {path : Path} {target : Target} {entry : Entry}
  {enter other : Location → List Step → Except Fault Target}

/-! ### Trees without links -/

def IsLinkFree (disk : Disk) : Prop :=
  ∀ location path, disk.at? location ≠ some (.link path)

theorem Grows.isLinkFree (hgrows : disk.Grows after) (hfree : disk.IsLinkFree) :
    after.IsLinkFree :=
  fun location path hlink => hfree location path (hgrows.link_iff.mp hlink)

theorem isLinkFree_empty : empty.IsLinkFree := by
  intro location path
  by_cases hroot : location = [] <;> simp [empty, at?, Entry.lookup, hroot]

theorem IsLinkFree.set {parent : Location} (hfree : disk.IsLinkFree)
    (hadmits : disk.Admits name parent) (hentry : ∀ path, entry ≠ .link path) :
    (disk.set name parent entry hadmits).IsLinkFree := by
  intro location path
  rw [at?_set]
  split
  · simpa using hentry path
  · exact hfree location path

theorem isLinkFree_workspace : workspace.IsLinkFree :=
  @IsLinkFree.set empty "workspace" .directory [] isLinkFree_empty
    (by simp [Admits, empty, at?, Entry.lookup]) (by simp)

theorem walkSteps_into (hfree : disk.IsLinkFree) :
    walkSteps disk aim enter here (.into name :: rest) = (do
      disk.checkDirectory here
      if aim = .file ∧ rest = [.slash] then throw .isDirectory
      if maxNameSize < name.utf8ByteSize then throw .nameTooLong
      walkSteps disk aim enter (name :: here) rest) := by
  rw [walkSteps]
  cases hentry : disk.at? (name :: here) with
  | none => rfl
  | some entry =>
      cases entry with
      | directory | file content => rfl
      | link path => exact absurd hentry (hfree _ path)

theorem location_of_walkLinks (hfree : disk.IsLinkFree) (hup : .up ∉ steps)
    (hwalk : walkLinks disk aim links here steps = .ok target) :
    target.location = descend here steps := by
  induction steps generalizing here with
  | nil =>
      rw [walkLinks_nil] at hwalk
      cases hwalk
      rfl
  | cons step rest ih =>
      have hrest : .up ∉ rest := fun hmem => hup (List.mem_cons_of_mem _ hmem)
      rcases walkLinks_cons_cases hwalk with ⟨hlast, rfl⟩ | ⟨_, _, _, hstarts⟩
      · cases hlast
        rfl
      cases hstarts with
      | pass hpass hwalk =>
          cases hpass with
          | slash | stay | into => exact ih hrest hwalk
          | up => exact absurd List.mem_cons_self hup
      | follow hmeet =>
          obtain ⟨_, hlink⟩ := hmeet
          exact absurd hlink (hfree _ _)
      | stop _ _ _ hmeet =>
          obtain ⟨_, hlink⟩ := hmeet
          exact absurd hlink (hfree _ _)

theorem location_of_walk (hfree : disk.IsLinkFree) (hup : .up ∉ path.route)
    (hwalk : disk.walk aim path = .ok target) :
    target.location = path.place disk.workingDirectory := by
  rw [walk_of_checkPath (checkPath_of_walk hwalk)] at hwalk
  rw [location_of_walkLinks hfree (Path.up_notMem_steps hup) hwalk, Path.descend_steps, Path.place]

theorem LeadsTo.eq_place (h : disk.LeadsTo path location) (hfree : disk.IsLinkFree)
    (hup : .up ∉ path.route) : location = path.place disk.workingDirectory := by
  obtain ⟨slash, hwalk⟩ := h
  exact location_of_walk hfree hup hwalk

theorem at?_place_of_isDirectory (hfree : disk.IsLinkFree) (hup : .up ∉ path.route)
    (h : disk.isDirectory path = true) :
    disk.at? (path.place disk.workingDirectory) = some .directory := by
  obtain ⟨target, hwalk, hdir⟩ := isDirectory_eq_true_iff_walk.mp h
  rwa [← location_of_walk hfree hup hwalk]

/-! ### Trees that differ in one place -/

structure AgreesBeside (left right : Disk) (home : Location) : Prop where
  workingDirectory : left.workingDirectory = right.workingDirectory
  at? : ∀ location, ¬ home <:+ location → left.at? location = right.at? location

namespace AgreesBeside

theorem checkDirectory (h : left.AgreesBeside right home) (hbeside : ¬ home <:+ here) :
    left.checkDirectory here = right.checkDirectory here := by
  rw [Disk.checkDirectory, Disk.checkDirectory, h.at? here hbeside]

section LinkFree

variable (h : left.AgreesBeside right home) (hleft : left.IsLinkFree) (hright : right.IsLinkFree)

include h hleft hright

theorem walkSteps (hup : .up ∉ steps) (hbeside : ¬ home <:+ descend here steps) :
    Disk.walkSteps left aim enter here steps = Disk.walkSteps right aim other here steps := by
  induction steps generalizing here with
  | nil => rfl
  | cons step rest ih =>
      have hrest : .up ∉ rest := fun hmem => hup (List.mem_cons_of_mem _ hmem)
      have hhere : ¬ home <:+ here := fun hbelow =>
        hbeside (hbelow.trans (Path.suffix_descend here (step :: rest)))
      have hcheck := h.checkDirectory hhere
      cases step with
      | slash =>
          by_cases hnil : rest = []
          · rw [hnil]
            rfl
          · rw [walkSteps.eq_3 _ _ _ _ _ hnil, walkSteps.eq_3 _ _ _ _ _ hnil, hcheck,
              ih hrest hbeside]
      | stay => rw [Disk.walkSteps, Disk.walkSteps, hcheck, ih hrest hbeside]
      | up => exact absurd List.mem_cons_self hup
      | into name =>
          rw [walkSteps_into hleft, walkSteps_into hright, hcheck, ih hrest hbeside]

theorem walk (hup : .up ∉ path.route) (hbeside : ¬ home <:+ path.place left.workingDirectory) :
    left.walk aim path = right.walk aim path := by
  rw [Path.place, ← Path.descend_steps] at hbeside
  have hsteps : walkLinks left aim maxLinks (startOf path left.workingDirectory) path.steps =
      walkLinks right aim maxLinks (startOf path left.workingDirectory) path.steps :=
    h.walkSteps hleft hright (Path.up_notMem_steps hup) hbeside
  rw [Disk.walk, Disk.walk, ← h.workingDirectory, hsteps]

theorem resolve (hup : .up ∉ path.route) (hbeside : ¬ home <:+ path.place left.workingDirectory) :
    left.resolve path = right.resolve path := by
  rw [Disk.resolve, Disk.resolve, ← h.walk hleft hright hup hbeside]
  cases hwalk : left.walk .destination path with
  | error fault => rfl
  | ok target =>
      have hplace : left.at? target.location = right.at? target.location := by
        apply h.at?
        rwa [location_of_walk hleft hup hwalk]
      simp only [bind, Except.bind, hplace]

end LinkFree

theorem changed_place (h : left.AgreesBeside right home) (hbeside : ¬ home <:+ location)
    (entry : Entry) :
    (Call.changed left (left.place location entry)).1 =
        (Call.changed right (right.place location entry)).1 ∧
      (Call.changed left (left.place location entry)).2.AgreesBeside
        (Call.changed right (right.place location entry)).2 home := by
  cases location with
  | nil => exact ⟨rfl, h⟩
  | cons name parent =>
      have hname := h.at? (name :: parent) hbeside
      have hparent := h.at? parent fun hbelow => hbeside (hbelow.trans (List.suffix_cons _ _))
      have hiff : left.Admits name parent ↔ right.Admits name parent := by
        rw [Admits, Admits, hname, hparent]
      by_cases hadmits : left.Admits name parent
      · rw [Disk.place, Disk.place, dif_pos hadmits, dif_pos (hiff.mp hadmits)]
        refine ⟨rfl, h.workingDirectory, fun location hlocation => ?_⟩
        change (left.set name parent entry hadmits).at? location =
          (right.set name parent entry (hiff.mp hadmits)).at? location
        rw [at?_set, at?_set, h.at? location hlocation]
      · have hother : ¬ right.Admits name parent := fun hright => hadmits (hiff.mpr hright)
        rw [Disk.place, Disk.place, dif_neg hadmits, dif_neg hother, hparent]
        split <;> exact ⟨rfl, h⟩

section Change

variable (h : left.AgreesBeside right home) (hleft : left.IsLinkFree) (hright : right.IsLinkFree)
  (hup : .up ∉ path.route) (hbeside : ¬ home <:+ path.place left.workingDirectory)

include h hleft hright hup hbeside

theorem changed_makeDirectory :
    (Call.changed left (left.makeDirectory path)).1 =
        (Call.changed right (right.makeDirectory path)).1 ∧
      (Call.changed left (left.makeDirectory path)).2.AgreesBeside
        (Call.changed right (right.makeDirectory path)).2 home := by
  rw [Disk.makeDirectory, Disk.makeDirectory, ← h.walk hleft hright hup hbeside]
  cases hwalk : left.walk .entry path with
  | error fault => exact ⟨rfl, h⟩
  | ok target =>
      rw [← location_of_walk hleft hup hwalk] at hbeside
      simp only [bind, Except.bind, h.at? _ hbeside]
      split
      · exact ⟨rfl, h⟩
      · exact h.changed_place hbeside .directory

theorem changed_writeFile (content : ByteArray) :
    (Call.changed left (left.writeFile path content)).1 =
        (Call.changed right (right.writeFile path content)).1 ∧
      (Call.changed left (left.writeFile path content)).2.AgreesBeside
        (Call.changed right (right.writeFile path content)).2 home := by
  rw [Disk.writeFile, Disk.writeFile, ← h.walk hleft hright hup hbeside]
  cases hwalk : left.walk .file path with
  | error fault => exact ⟨rfl, h⟩
  | ok target =>
      rw [← location_of_walk hleft hup hwalk] at hbeside
      exact h.changed_place hbeside (.file content)

end Change

end AgreesBeside

/-- All that is changed is inside a directory if what is written leads there, and what is newly
made. -/
theorem Alters.agreesBeside {made : Path → Prop} {written : Path → ByteArray → Prop}
    (h : disk.Alters made written after)
    (hmade : ∀ path location, made path → after.LeadsTo path location →
      disk.at? location = none → home <:+ location)
    (hwritten : ∀ path content location, written path content → after.LeadsTo path location →
      home <:+ location) : disk.AgreesBeside after home := by
  refine ⟨h.workingDirectory.symm, fun location hbeside => ?_⟩
  cases hentry : disk.at? location with
  | none =>
      cases hnew : after.at? location with
      | none => rfl
      | some entry =>
          rcases h.fresh hentry hnew with
            ⟨_, path, hpath, hleads⟩ | ⟨path, content, _, hpath, hleads⟩
          · exact absurd (hmade path location hpath hleads hentry) hbeside
          · exact absurd (hwritten path content location hpath hleads) hbeside
  | some entry =>
      cases entry with
      | directory => exact (h.directory hentry).symm
      | link target => exact (h.link_iff.mpr hentry).symm
      | file old =>
          obtain ⟨new, hnew, rfl | ⟨path, hpath, hleads⟩⟩ := h.file hentry
          · exact hnew.symm
          · exact absurd (hwritten path new location hpath hleads) hbeside

end Disk

/-! ### Calls and scripts -/

variable {left right : Disk} {home here : Location}

namespace Call

def path : Call → Path
  | makeDirectory path | isDirectory path | isFile path | readText path => path
  | writeFile path _ => path

structure StaysBeside (home here : Location) (c : Call) : Prop where
  up_notMem : .up ∉ c.path.route
  beside : ¬ home <:+ c.path.place here

/-- **A call depends on its place only.** What differs inside a directory changes neither the reply
of a call that stays outside it, nor what the call does. -/
theorem StaysBeside.perform {c : Call} (hc : c.StaysBeside home left.workingDirectory)
    (h : left.AgreesBeside right home) (hleft : left.IsLinkFree) (hright : right.IsLinkFree) :
    (c.perform left).1 = (c.perform right).1 ∧
      (c.perform left).2.AgreesBeside (c.perform right).2 home := by
  obtain ⟨hup, hbeside⟩ := hc
  cases c with
  | makeDirectory path => exact h.changed_makeDirectory hleft hright hup hbeside
  | writeFile path content => exact h.changed_writeFile hleft hright hup hbeside content
  | isDirectory path =>
      have hresolve : left.resolve path = right.resolve path := h.resolve hleft hright hup hbeside
      exact ⟨by simp only [Call.perform, Disk.isDirectory, hresolve], h⟩
  | isFile path =>
      have hresolve : left.resolve path = right.resolve path := h.resolve hleft hright hup hbeside
      exact ⟨by simp only [Call.perform, Disk.isFile, hresolve], h⟩
  | readText path =>
      have hresolve : left.resolve path = right.resolve path := h.resolve hleft hright hup hbeside
      exact ⟨by simp only [Call.perform, Disk.readText, hresolve], h⟩

end Call

/-- **A script depends on its places only.** A script that stays outside a directory runs the same
whatever the directory holds. -/
theorem Script.Only.run_congr {Query Answer α σ : Type} {script : Script Query Answer α}
    (honly : script.Only (Call.StaysBeside home here)) (hhere : left.workingDirectory = here)
    (h : left.AgreesBeside right home) (hleft : left.IsLinkFree) (hright : right.IsLinkFree)
    (answer : Query → σ → Answer × σ) (state : σ) :
    (script.run answer left state).value = (script.run answer right state).value ∧
      (script.run answer left state).state = (script.run answer right state).state ∧
      (script.run answer left state).disk.AgreesBeside
        (script.run answer right state).disk home := by
  induction honly generalizing left right state with
  | done => exact ⟨rfl, rfl, h⟩
  | @call c next hcall _ ih =>
      rw [← hhere] at hcall
      obtain ⟨hreply, hafter⟩ := hcall.perform h hleft hright
      have hgrows := Call.grows c left
      have hrun := ih (c.perform left).1 (hgrows.workingDirectory.trans hhere) hafter
        (hgrows.isLinkFree hleft) ((Call.grows c right).isLinkFree hright) state
      change (run answer (next (c.perform left).1) (c.perform left).2 state).value =
          (run answer (next (c.perform right).1) (c.perform right).2 state).value ∧
        (run answer (next (c.perform left).1) (c.perform left).2 state).state =
          (run answer (next (c.perform right).1) (c.perform right).2 state).state ∧
        (run answer (next (c.perform left).1) (c.perform left).2 state).disk.AgreesBeside
          (run answer (next (c.perform right).1) (c.perform right).2 state).disk home
      rwa [← hreply]
  | ask _ ih => exact ih _ hhere h hleft hright _

end Scaffold
