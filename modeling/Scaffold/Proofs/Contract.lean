import Scaffold.Proofs.Claiming

/-!
# What a claim promises

A claim that creates puts an empty directory where nothing was, a claim that finds a directory
changes nothing, and a claim that fails leaves the place of the directory as it was. Only the second
promise can be broken: a `..` that leads out of a directory which the claim has to make first lets
it find a directory although it has changed something.
-/

namespace Scaffold

variable {disk after : Disk} {path : Path} {location : Location}

namespace Disk

/-- Something stands where a path leads, a link at its end included. -/
def IsOccupied (disk : Disk) (path : Path) : Prop :=
  ∃ target, disk.walk .entry path = .ok target ∧ disk.at? target.location ≠ none

structure Creates (path : Path) (disk after : Disk) (location : Location) : Prop where
  vacant : ¬ disk.IsOccupied path
  absent : disk.at? location = none
  leadsTo : after.LeadsTo path location
  directory : after.at? location = some .directory
  empty : ∀ name, after.at? (name :: location) = none
  beside : ∀ other, other ≠ location → disk.at? other = none → after.at? other ≠ none →
    ∃ ancestor ∈ path.ancestors, after.LeadsTo ancestor other

end Disk

namespace Directory

structure KeepsContract (path : Path) (disk : Disk) (claimed : Except DiskFailure Claim)
    (after : Disk) : Prop where
  created : claimed = .ok .created → ∃ location, disk.Creates path after location
  existing : claimed = .ok .existing → disk.isDirectory path = true ∧ after = disk
  failed : (∃ failure, claimed = .error failure) → ∀ aim target,
    after.walk aim path = .ok target → after.at? target.location = disk.at? target.location
  kept : ∀ location entry, disk.at? location = some entry → after.at? location = some entry
  fresh : ∀ location, disk.at? location = none → after.at? location ≠ none →
    after.at? location = some .directory

/-- A claim makes directories at the path and its ancestors, and writes nothing. -/
theorem claim_alters (path : Path) (disk : Disk) :
    disk.Alters (fun stem => stem = path ∨ stem ∈ path.ancestors) (fun _ _ => False)
      ((claim path).runSilent disk).2 :=
  (only_claim (Or.inl rfl) fun _ hstem => Or.inr hstem).isWithin.alters_runSilent disk

theorem exists_creates (hrun : (claim path).runSilent disk = (.ok .created, after)) :
    ∃ location, disk.Creates path after location := by
  obtain ⟨above, halters, hmake⟩ := claim_created hrun
  obtain ⟨location, hadds, hopens⟩ := Disk.makeDirectory_eq_ok hmake
  rw [← hadds.workingDirectory] at hopens
  refine ⟨location, ?vacant, ?absent, ?leadsTo, hadds.present, hadds.empty, ?beside⟩
  -- What stood there before the ancestors were made would still be in the way afterwards.
  case vacant =>
    rintro ⟨target, hwalk, hpresent⟩
    obtain ⟨entry, hentry⟩ := Option.ne_none_iff_exists'.mp hpresent
    have habsent := Disk.at?_of_makeDirectory (halters.walk_eq_ok hwalk) hmake
    rw [halters.kept hentry] at habsent
    cases habsent
  case absent =>
    by_contra hpresent
    obtain ⟨entry, hentry⟩ := Option.ne_none_iff_exists'.mp hpresent
    have habsent := hadds.absent
    rw [halters.kept hentry] at habsent
    cases habsent
  case leadsTo => exact .of_opens (Disk.checkPath_of_makeDirectory hmake) hopens
  case beside =>
    intro other hne habsent hpresent
    rw [hadds.at?, if_neg hne] at hpresent
    obtain ⟨entry, hentry⟩ := Option.ne_none_iff_exists'.mp hpresent
    obtain ⟨_, ancestor, hancestor, hleads⟩ := halters.eq_directory habsent hentry
    exact ⟨ancestor, hancestor, hadds.grows.leadsTo hleads⟩

/-- What a failed claim leaves at its path was there before: a new entry would be a directory. -/
theorem at?_of_claim_error {failure : DiskFailure} {aim : Aim} {target : Target}
    (hrun : (claim path).runSilent disk = (.error failure, after))
    (hwalk : after.walk aim path = .ok target) :
    after.at? target.location = disk.at? target.location := by
  have halters := claim_alters path disk
  rw [hrun] at halters
  cases hbefore : disk.at? target.location with
  | some entry => exact halters.kept hbefore
  | none =>
      by_contra hpresent
      obtain ⟨entry, hentry⟩ := Option.ne_none_iff_exists'.mp hpresent
      obtain ⟨rfl, _⟩ := halters.eq_directory hbefore hentry
      have hmissing := claim_error hrun
      rw [Disk.isDirectory_of_walk hwalk hentry] at hmissing
      cases hmissing

/-- **When a claim keeps its promises.** On every disk and for every path, it keeps all of them
exactly if a directory that it finds is reached without a `..` out of something that was no
directory before. -/
theorem keepsContract_iff (path : Path) (disk : Disk) :
    KeepsContract path disk ((claim path).runSilent disk).1 ((claim path).runSilent disk).2 ↔
      (((claim path).runSilent disk).1 = .ok .existing →
        disk.Climbs (Disk.startOf path disk.workingDirectory) path.route) := by
  have halters := claim_alters path disk
  rcases hrun : (claim path).runSilent disk with ⟨claimed, after⟩
  rw [hrun] at halters
  constructor
  · intro hkeeps hexisting
    obtain ⟨_, location, hopens⟩ :=
      Disk.isDirectory_eq_true_iff.mp (hkeeps.existing hexisting).1
    exact hopens.climbs
  · intro hclimbs
    refine ⟨?created, ?existing, ?failed, fun _ _ hentry => halters.kept hentry, ?fresh⟩
    case created =>
      rintro rfl
      exact exists_creates hrun
    case existing =>
      rintro rfl
      exact (claim_existing (hclimbs rfl) hrun).symm
    case failed =>
      rintro ⟨failure, rfl⟩ aim target hwalk
      exact at?_of_claim_error hrun hwalk
    case fresh =>
      intro location habsent hpresent
      obtain ⟨entry, hentry⟩ := Option.ne_none_iff_exists'.mp hpresent
      rw [(halters.eq_directory habsent hentry).1] at hentry
      exact hentry

/-- The directory is found under a path that did not lead to it before, and `missing` is new. -/
theorem not_keepsContract_of_up_out_of_missing :
    let disk := Disk.workspace.set "CBWidget" ["workspace"] .directory (by decide)
    let path : Path := ⟨"missing/../CBWidget"⟩
    disk.isDirectory ⟨"CBWidget"⟩ = true ∧ ((claim path).runSilent disk).1 = .ok .existing ∧
      ((claim path).runSilent disk).2.isDirectory ⟨"missing"⟩ = true ∧
      ¬ KeepsContract path disk ((claim path).runSilent disk).1
        ((claim path).runSilent disk).2 := by
  refine ⟨by decide, by decide +kernel, by decide +kernel, fun hkeeps => ?_⟩
  have hfound := (hkeeps.existing (by decide +kernel)).1
  exact absurd hfound (by decide +kernel)

end Directory

end Scaffold
