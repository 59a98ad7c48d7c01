import Scaffold.Proofs.Route
import Scaffold.Proofs.Walk

/-!
# Paths that lead to directories

What `isDirectory` and `makeDirectory` do, in terms of where a path leads: a path names a directory
exactly if its route leads to one, a directory that is there is never made again, and one that is
made is new and holds nothing.
-/

namespace Scaffold

theorem Path.steps_eq_append (path : Path) :
    path.steps = path.route ∨ path.steps = path.route ++ [.slash] := by
  unfold Path.steps
  split
  · exact Or.inr rfl
  · exact Or.inl (List.append_nil _)

namespace Disk

open Scaffold.Path (Step)

variable {disk after : Disk} {path stem : Path} {start location : Location} {steps : List Step}

/-! ### Admissible paths -/

theorem checkPath_eq_ok_iff :
    checkPath path = .ok () ↔
      '\x00' ∉ path.text.toList ∧ path.text.toList ≠ [] ∧ path.text.utf8ByteSize ≤ maxPathSize := by
  unfold checkPath Path.isEmpty
  split
  · next hnul => simp_all
  · split
    · next hempty => simp_all
    · split <;> simp_all

theorem checkPath_of_isPrefix (hpath : checkPath path = .ok ())
    (hstem : stem.text.toList <+: path.text.toList) (hne : stem.isEmpty = false) :
    checkPath stem = .ok () := by
  rw [checkPath_eq_ok_iff] at hpath ⊢
  obtain ⟨hnul, _, hsize⟩ := hpath
  obtain ⟨rest, hrest⟩ := hstem
  have htext : path.text = stem.text ++ String.ofList rest := by
    apply String.toList_inj.mp
    rw [String.toList_append, String.toList_ofList, hrest]
  refine ⟨?_, by simpa [Path.isEmpty] using hne, ?_⟩
  · intro hmem
    exact hnul (by rw [← hrest]; exact List.mem_append_left _ hmem)
  · rw [htext, String.utf8ByteSize_append] at hsize
    omega

/-! ### Ways to directories -/

def Opens (disk : Disk) (start : Location) (steps : List Step) (location : Location) : Prop :=
  disk.at? location = some .directory ∧ ∃ links ≤ maxLinks, disk.Leads links start steps location

theorem Opens.unique {other : Location} (hleft : disk.Opens start steps location)
    (hright : disk.Opens start steps other) : location = other := by
  obtain ⟨_, _, _, hleads⟩ := hleft
  obtain ⟨_, _, _, hleads'⟩ := hright
  exact (hleads.unique hleads').2

theorem Grows.opens (hgrows : disk.Grows after) (h : disk.Opens start steps location) :
    after.Opens start steps location := by
  obtain ⟨hdir, links, hlinks, hleads⟩ := h
  exact ⟨hgrows.directory hdir, links, hlinks, hgrows.leads hleads⟩

theorem opens_steps_iff :
    disk.Opens start path.steps location ↔ disk.Opens start path.route location := by
  rcases path.steps_eq_append with hsteps | hsteps
  · rw [hsteps]
  rw [hsteps]
  constructor
  · rintro ⟨hdir, links, hlinks, hleads⟩
    obtain ⟨before, behind, middle, hsum, hroute, hslash⟩ := hleads.split
    cases hslash with
    | pass _ hpass hdone =>
        cases hpass
        cases hdone
        exact ⟨hdir, before, by omega, hroute⟩
    | follow _ hmeet _ => cases hmeet
  · rintro ⟨hdir, links, hlinks, hleads⟩
    exact ⟨hdir, links, hlinks, hleads.trans (.pass hdir .slash .done)⟩

theorem walk_of_checkPath {aim : Aim} (hcheck : checkPath path = .ok ()) :
    disk.walk aim path =
      walkLinks disk aim maxLinks (startOf path disk.workingDirectory) path.steps := by
  rw [walk, hcheck]
  rfl

theorem checkPath_of_walk {aim : Aim} {target : Target} (hwalk : disk.walk aim path = .ok target) :
    checkPath path = .ok () := by
  cases hcheck : checkPath path with
  | ok value => rfl
  | error fault =>
      rw [walk, hcheck] at hwalk
      cases hwalk

theorem Grows.walk_eq_ok {aim : Aim} {target : Target} (hgrows : disk.Grows after)
    (hwalk : disk.walk aim path = .ok target) : after.walk aim path = .ok target := by
  have hcheck := checkPath_of_walk hwalk
  rw [walk_of_checkPath hcheck] at hwalk
  rw [walk_of_checkPath hcheck, hgrows.workingDirectory]
  exact hgrows.walkLinks_eq_ok hwalk

/-- A walk that arrives where a directory is, or is made, has followed the route. -/
theorem Grows.opens_of_walk {aim : Aim} {target : Target} (hgrows : disk.Grows after)
    (hwalk : disk.walk aim path = .ok target)
    (hdir : after.at? target.location = some .directory) :
    after.Opens (startOf path disk.workingDirectory) path.route target.location := by
  rw [walk_of_checkPath (checkPath_of_walk hwalk)] at hwalk
  obtain ⟨links, hlinks, hleads⟩ := hgrows.leads_of_walkLinks hwalk hdir
  exact opens_steps_iff.mp ⟨hdir, links, hlinks, hleads⟩

theorem Opens.exists_walk (hcheck : checkPath path = .ok ())
    (hopens : disk.Opens (startOf path disk.workingDirectory) path.route location) :
    ∃ slash, disk.walk .destination path = .ok ⟨location, slash⟩ := by
  obtain ⟨_, links, hlinks, hleads⟩ := opens_steps_iff.mpr hopens
  obtain ⟨spare, hspare⟩ := Nat.exists_eq_add_of_le hlinks
  obtain ⟨slash, hwalk⟩ := hleads.walkLinks_destination spare
  exact ⟨slash, by rw [walk_of_checkPath hcheck, hspare, hwalk]⟩

theorem exists_opens_of_walk {aim : Aim} {target : Target} {name : String}
    (hsteps : path.steps = steps ++ [.into name]) (hwalk : disk.walk aim path = .ok target) :
    ∃ parent, disk.Opens (startOf path disk.workingDirectory) steps parent := by
  rw [walk_of_checkPath (checkPath_of_walk hwalk), hsteps] at hwalk
  have hend : isEnd [Step.into name] = false := rfl
  obtain ⟨used, parent, hused, hleads, harrives⟩ := exists_leads_of_walkLinks hend hwalk
  rcases walkLinks_cons_cases harrives with ⟨hlast, _⟩ | ⟨_, hdir, _⟩
  · simp at hlast
  · exact ⟨parent, hdir, used, hused, hleads⟩

theorem resolve_eq_directory_iff :
    disk.resolve path = .ok .directory ↔ ∃ target, disk.walk .destination path = .ok target ∧
      disk.at? target.location = some .directory := by
  unfold resolve
  cases disk.walk .destination path with
  | error fault => simp [bind, Except.bind]
  | ok target =>
      cases hentry : disk.at? target.location with
      | none => simp [bind, Except.bind, hentry]
      | some entry =>
          cases entry <;> cases hslash : target.slash <;> simp [bind, Except.bind, hentry, hslash]

theorem isDirectory_eq_true_iff_walk :
    disk.isDirectory path = true ↔ ∃ target, disk.walk .destination path = .ok target ∧
      disk.at? target.location = some .directory := by
  rw [← resolve_eq_directory_iff]
  unfold isDirectory
  split <;> simp_all

theorem isDirectory_eq_true_iff :
    disk.isDirectory path = true ↔ checkPath path = .ok () ∧
      ∃ location, disk.Opens (startOf path disk.workingDirectory) path.route location := by
  rw [isDirectory_eq_true_iff_walk]
  constructor
  · rintro ⟨target, hwalk, hdir⟩
    exact ⟨checkPath_of_walk hwalk, target.location, (Grows.refl disk).opens_of_walk hwalk hdir⟩
  · rintro ⟨hcheck, location, hopens⟩
    obtain ⟨slash, hwalk⟩ := hopens.exists_walk hcheck
    exact ⟨⟨location, slash⟩, hwalk, hopens.1⟩

theorem isDirectory_of_walk {aim : Aim} {target : Target} (hwalk : disk.walk aim path = .ok target)
    (hdir : disk.at? target.location = some .directory) : disk.isDirectory path = true :=
  isDirectory_eq_true_iff.mpr
    ⟨checkPath_of_walk hwalk, target.location, (Grows.refl disk).opens_of_walk hwalk hdir⟩

theorem Grows.isDirectory (hgrows : disk.Grows after) (h : disk.isDirectory path = true) :
    after.isDirectory path = true := by
  obtain ⟨target, hwalk, hdir⟩ := isDirectory_eq_true_iff_walk.mp h
  exact isDirectory_of_walk (hgrows.walk_eq_ok hwalk) (hgrows.directory hdir)

/-! ### Making directories -/

theorem makeDirectory_of_isDirectory (h : disk.isDirectory path = true) :
    disk.makeDirectory path = .error .alreadyExists := by
  obtain ⟨hcheck, location, hopens⟩ := isDirectory_eq_true_iff.mp h
  obtain ⟨hdir, links, hlinks, hleads⟩ := opens_steps_iff.mpr hopens
  obtain ⟨spare, hspare⟩ := Nat.exists_eq_add_of_le hlinks
  obtain ⟨target, hwalk, hpresent⟩ :=
    hleads.walkLinks_entry spare (by rw [hdir]; simp)
  rw [← hspare, ← walk_of_checkPath hcheck] at hwalk
  rw [makeDirectory, hwalk]
  exact if_pos (Option.isSome_iff_ne_none.mpr hpresent)

structure Adds (disk after : Disk) (location : Location) : Prop where
  absent : disk.at? location = none
  workingDirectory : after.workingDirectory = disk.workingDirectory
  at? : ∀ other, after.at? other = if other = location then some .directory else disk.at? other

namespace Adds

theorem present (h : disk.Adds after location) : after.at? location = some .directory := by
  rw [h.at?, if_pos rfl]

theorem grows (h : disk.Adds after location) : disk.Grows after where
  workingDirectory := h.workingDirectory
  directory := by
    intro other hother
    by_cases heq : other = location
    · rw [heq, h.present]
    · rw [h.at?, if_neg heq, hother]
  link_iff := by
    intro other path
    by_cases heq : other = location
    · simp [heq, h.present, h.absent]
    · rw [h.at?, if_neg heq]

theorem empty (h : disk.Adds after location) (name : String) :
    after.at? (name :: location) = none := by
  have hne : name :: location ≠ location := by
    intro heq
    simpa using congrArg List.length heq
  rw [h.at?, if_neg hne]
  by_contra hpresent
  have hdir := at?_parent hpresent
  rw [h.absent] at hdir
  cases hdir

end Adds

theorem adds_of_place (hplace : disk.place location .directory = .ok after)
    (habsent : disk.at? location = none) : disk.Adds after location := by
  cases location with
  | nil => cases hplace
  | cons name parent =>
      by_cases hadmits : disk.Admits name parent
      · rw [place, dif_pos hadmits] at hplace
        cases hplace
        exact ⟨habsent, workingDirectory_set hadmits, at?_set hadmits⟩
      · rw [place, dif_neg hadmits] at hplace
        split at hplace <;> cases hplace

theorem checkPath_of_makeDirectory (h : disk.makeDirectory path = .ok after) :
    checkPath path = .ok () := by
  cases hwalk : disk.walk .entry path with
  | error fault =>
      rw [makeDirectory, hwalk] at h
      cases h
  | ok target => exact checkPath_of_walk hwalk

theorem at?_of_makeDirectory {target : Target} (hwalk : disk.walk .entry path = .ok target)
    (hmake : disk.makeDirectory path = .ok after) : disk.at? target.location = none := by
  rw [makeDirectory, hwalk] at hmake
  by_contra hpresent
  rw [← ne_eq, ← Option.isSome_iff_ne_none] at hpresent
  change (if (disk.at? target.location).isSome then Except.error Fault.alreadyExists
    else disk.place target.location .directory) = .ok after at hmake
  rw [if_pos hpresent] at hmake
  cases hmake

/-- A directory that is made is the one that the path leads to from then on. -/
theorem makeDirectory_eq_ok (h : disk.makeDirectory path = .ok after) :
    ∃ location, disk.Adds after location ∧
      after.Opens (startOf path disk.workingDirectory) path.route location := by
  cases hwalk : disk.walk .entry path with
  | error fault =>
      rw [makeDirectory, hwalk] at h
      cases h
  | ok target =>
      rw [makeDirectory, hwalk] at h
      change (if (disk.at? target.location).isSome then Except.error Fault.alreadyExists
        else disk.place target.location .directory) = .ok after at h
      split at h
      · cases h
      · next habsent =>
        have hadds := adds_of_place h (by simpa using habsent)
        exact ⟨target.location, hadds, hadds.grows.opens_of_walk hwalk hadds.present⟩

theorem isDirectory_of_makeDirectory (h : disk.makeDirectory path = .ok after) :
    after.isDirectory path = true := by
  obtain ⟨location, hadds, hopens⟩ := makeDirectory_eq_ok h
  refine isDirectory_eq_true_iff.mpr ⟨checkPath_of_makeDirectory h, location, ?_⟩
  rwa [hadds.workingDirectory]

end Disk

end Scaffold
