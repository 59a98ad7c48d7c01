import Scaffold.Proofs.Ancestry
import Scaffold.Proofs.Arrival
import Scaffold.Script

/-!
# What a call changes

Every call of the file system leaves directories and links as they are, so a path that leads
somewhere still does after any call. A call that makes a directory puts it where its path leads from
then on, and so does a call that writes a file.
-/

namespace Scaffold

namespace Disk

open Scaffold.Path (Step)

variable {disk after : Disk} {aim : Aim} {links : Nat} {here location : Location}
  {steps : List Step} {target : Target} {path : Path} {content : ByteArray}

/-- Where a path leads through all links, whether something stands there or not. -/
def LeadsTo (disk : Disk) (path : Path) (location : Location) : Prop :=
  ∃ slash, disk.walk .destination path = .ok ⟨location, slash⟩

theorem LeadsTo.of_opens (hcheck : checkPath path = .ok ())
    (hopens : disk.Opens (startOf path disk.workingDirectory) path.route location) :
    disk.LeadsTo path location :=
  hopens.exists_walk hcheck

/-! ### Walks on a disk that has grown -/

theorem Grows.walkLinks_destination (hgrows : disk.Grows after) (haim : aim ≠ .entry)
    (hwalk : walkLinks disk aim links here steps = .ok target) :
    walkLinks after .destination links here steps = .ok target := by
  -- Through a link the walk starts over with new steps, but with one link less.
  induction links using Nat.strongRecOn generalizing here steps with
  | ind links ihLinks =>
      induction steps generalizing here with
      | nil =>
          rw [walkLinks_nil] at hwalk ⊢
          exact hwalk
      | cons step rest ihSteps =>
          rcases walkLinks_cons_cases hwalk with ⟨hlast, rfl⟩ | ⟨hlast, hdir, _, hstarts⟩
          · rw [hlast, walkLinks_last_slash]
          · cases hstarts with
            | pass hpass hrest =>
                rw [walkLinks_pass (hgrows.directory hdir) (hgrows.passes hpass) hlast (by simp)]
                exact ihSteps hrest
            | @follow path fewer hmeet _ hlinks hrest =>
                subst hlinks
                rw [walkLinks_meet (hgrows.directory hdir) (hgrows.meets hmeet) (by simp) (by simp)]
                exact ihLinks fewer (Nat.lt_succ_self fewer) hrest
            | stop hentry => exact absurd hentry haim

theorem Grows.walk_destination (hgrows : disk.Grows after) (haim : aim ≠ .entry)
    (hwalk : disk.walk aim path = .ok target) : after.walk .destination path = .ok target := by
  have hcheck := checkPath_of_walk hwalk
  rw [walk_of_checkPath hcheck] at hwalk
  rw [walk_of_checkPath hcheck, hgrows.workingDirectory]
  exact hgrows.walkLinks_destination haim hwalk

theorem Grows.leadsTo_of_walk (hgrows : disk.Grows after) (haim : aim ≠ .entry)
    (hwalk : disk.walk aim path = .ok target) : after.LeadsTo path target.location :=
  ⟨target.slash, hgrows.walk_destination haim hwalk⟩

theorem Grows.leadsTo (hgrows : disk.Grows after) (h : disk.LeadsTo path location) :
    after.LeadsTo path location := by
  obtain ⟨slash, hwalk⟩ := h
  exact hgrows.leadsTo_of_walk (by simp) hwalk

/-! ### Writing files -/

theorem isEnd_eq_true_iff : isEnd steps = true ↔ steps = [] ∨ steps = [.slash] := by
  rcases steps with _ | ⟨_ | _ | _ | _, _ | _⟩ <;> simp [isEnd]

theorem tail_directory (hdir : disk.at? here = some .directory) :
    disk.at? here.tail = some .directory := by
  cases here with
  | nil => exact hdir
  | cons name parent =>
      have hpresent : disk.at? (name :: parent) ≠ none := by simp [hdir]
      exact at?_parent hpresent

theorem startOf_directory (hdir : disk.at? here = some .directory) (path : Path) :
    disk.at? (startOf path here) = some .directory := by
  unfold startOf
  split
  · exact at?_root disk
  · exact hdir

/-- A walk that looks for a file to write ends at a directory, or at something else that is no link
and is not asked to be a directory. -/
theorem walkLinks_file (hwalk : walkLinks disk .file links here steps = .ok target)
    (hstart : isEnd steps = true → disk.at? here = some .directory ∨
      steps = [] ∧ ∀ path, disk.at? here ≠ some (.link path)) :
    disk.at? target.location = some .directory ∨
      target.slash = false ∧ ∀ path, disk.at? target.location ≠ some (.link path) := by
  induction links using Nat.strongRecOn generalizing here steps with
  | ind links ihLinks =>
      induction steps generalizing here with
      | nil =>
          rw [walkLinks_nil] at hwalk
          cases hwalk
          exact (hstart rfl).imp_right fun h => ⟨rfl, h.2⟩
      | cons step rest ihSteps =>
          rcases walkLinks_cons_cases hwalk with ⟨hlast, rfl⟩ | ⟨_, hdir, hfile, hstarts⟩
          · cases hlast
            rcases hstart rfl with h | ⟨h, _⟩
            · exact Or.inl h
            · cases h
          · cases hstarts with
            | pass hpass hrest =>
                refine ihSteps hrest fun hend => ?_
                cases hpass with
                | slash | stay => exact Or.inl hdir
                | up => exact Or.inl (tail_directory hdir)
                | @into name _ hnotLink =>
                    rcases isEnd_eq_true_iff.mp hend with hnil | hslash
                    · exact Or.inr ⟨hnil, hnotLink⟩
                    · exact absurd (by rw [hslash]) (hfile rfl name)
            | @follow path fewer hmeet _ hlinks hrest =>
                subst hlinks
                exact ihLinks fewer (Nat.lt_succ_self fewer) hrest
                  fun _ => Or.inl (startOf_directory hdir path)
            | stop hentry => cases hentry

theorem isAbsolute_of_isEnd (hempty : path.isEmpty = false) (hend : isEnd path.steps = true) :
    path.isAbsolute = true := by
  have hroute : path.route = [] := by
    have hslash := Path.slash_notMem_route path
    rcases isEnd_eq_true_iff.mp hend with h | h <;>
      rcases path.steps_eq_append with hsteps | hsteps <;> rw [h] at hsteps
    · exact hsteps.symm
    · simp at hsteps
    · exact absurd (by simp [← hsteps]) hslash
    · simpa using hsteps
  obtain ⟨first, rest, hsegments⟩ := List.exists_cons_of_ne_nil path.segments_ne_nil
  have hfirst : Path.stepOf? first = none :=
    List.filterMap_eq_nil_iff.mp hroute first (by rw [hsegments]; exact List.mem_cons_self)
  have hnil : first = [] := by
    by_contra hne
    rw [Path.stepOf?, if_neg hne] at hfirst
    split at hfirst
    · cases hfirst
    · split at hfirst <;> cases hfirst
  rw [Path.isAbsolute_of_isEmpty hempty, hsegments, hnil]
  rfl

structure Puts (disk after : Disk) (location : Location) (entry : Entry) : Prop where
  workingDirectory : after.workingDirectory = disk.workingDirectory
  at? : ∀ other, after.at? other = if other = location then some entry else disk.at? other

theorem Puts.grows (h : disk.Puts after location (.file content))
    (hfile : disk.at? location = none ∨ ∃ old, disk.at? location = some (.file old)) :
    disk.Grows after where
  workingDirectory := h.workingDirectory
  directory := by
    intro other hother
    have hne : other ≠ location := by
      rintro rfl
      rcases hfile with h | ⟨old, h⟩ <;> simp [h] at hother
    rw [h.at?, if_neg hne, hother]
  link_iff := by
    intro other path
    by_cases heq : other = location
    · rcases hfile with hfile | ⟨old, hfile⟩ <;> simp [h.at?, heq, hfile]
    · rw [h.at?, if_neg heq]

theorem puts_of_place (hplace : disk.place location (.file content) = .ok after) :
    disk.Puts after location (.file content) ∧ disk.at? location ≠ some .directory := by
  cases location with
  | nil => cases hplace
  | cons name parent =>
      by_cases hadmits : disk.Admits name parent
      · rw [place, dif_pos hadmits] at hplace
        cases hplace
        exact ⟨⟨rfl, at?_set hadmits⟩, hadmits.2⟩
      · rw [place, dif_neg hadmits] at hplace
        split at hplace <;> cases hplace

/-- A file that is written is the one that the path leads to, before and from then on. -/
theorem writeFile_eq_ok (h : disk.writeFile path content = .ok after) :
    ∃ location, disk.Puts after location (.file content) ∧
      (disk.at? location = none ∨ ∃ old, disk.at? location = some (.file old)) ∧
      disk.walk .file path = .ok ⟨location, false⟩ := by
  cases hwalk : disk.walk .file path with
  | error fault =>
      rw [writeFile, hwalk] at h
      cases h
  | ok target =>
      rw [writeFile, hwalk] at h
      obtain ⟨hputs, hnotDirectory⟩ := puts_of_place (show disk.place _ _ = _ from h)
      have hcheck := checkPath_of_walk hwalk
      have hempty : path.isEmpty = false := by
        simpa [Path.isEmpty] using (checkPath_eq_ok_iff.mp hcheck).2.1
      have hstart (hend : isEnd path.steps = true) :
          disk.at? (startOf path disk.workingDirectory) = some .directory := by
        rw [startOf, if_pos (isAbsolute_of_isEnd hempty hend)]
        exact at?_root disk
      rw [walk_of_checkPath hcheck] at hwalk
      -- The walk went through a link at its end, so what is replaced can only be a file.
      rcases walkLinks_file hwalk fun hend => Or.inl (hstart hend) with hdir | ⟨hslash, hnotLink⟩
      · exact absurd hdir hnotDirectory
      · refine ⟨target.location, hputs, ?_, by rw [← hslash]⟩
        cases hentry : disk.at? target.location with
        | none => exact Or.inl rfl
        | some entry =>
            cases entry with
            | directory => exact absurd hentry hnotDirectory
            | file old => exact Or.inr ⟨old, rfl⟩
            | link path => exact absurd hentry (hnotLink path)

end Disk

end Scaffold
