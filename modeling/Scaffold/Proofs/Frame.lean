import Scaffold.Proofs.Calls
import Scaffold.Proofs.Writing

/-!
# What a script leaves alone

A script changes the disk only by the calls that it can make. Whatever it makes or writes is where
one of its paths leads in the end; everything else is as it was before.
-/

namespace Scaffold

variable {disk middle after : Disk} {path : Path} {location : Location} {entry : Entry}
  {made wider : Path → Prop} {written : Path → ByteArray → Prop}

namespace Disk

structure Alters (made : Path → Prop) (written : Path → ByteArray → Prop)
    (disk after : Disk) : Prop extends disk.Grows after where
  file : ∀ {location old}, disk.at? location = some (.file old) →
    ∃ new, after.at? location = some (.file new) ∧
      (new = old ∨ ∃ path, written path new ∧ after.LeadsTo path location)
  fresh : ∀ {location entry}, disk.at? location = none → after.at? location = some entry →
    (entry = .directory ∧ ∃ path, made path ∧ after.LeadsTo path location) ∨
      ∃ path content, entry = .file content ∧ written path content ∧ after.LeadsTo path location

namespace Alters

theorem refl (disk : Disk) : disk.Alters made written disk where
  toGrows := Grows.refl disk
  file hfile := ⟨_, hfile, Or.inl rfl⟩
  fresh hnone hsome := by
    rw [hnone] at hsome
    cases hsome

theorem trans (hfirst : disk.Alters made written middle)
    (hsecond : middle.Alters made written after) : disk.Alters made written after where
  toGrows := hfirst.toGrows.trans hsecond.toGrows
  file := by
    intro location old hold
    obtain ⟨between, hbetween, hwritten⟩ := hfirst.file hold
    obtain ⟨new, hnew, rfl | hlater⟩ := hsecond.file hbetween
    · refine ⟨new, hnew, hwritten.imp_right ?_⟩
      rintro ⟨path, hpath, hleads⟩
      exact ⟨path, hpath, hsecond.leadsTo hleads⟩
    · exact ⟨new, hnew, Or.inr hlater⟩
  fresh := by
    intro location entry hnone hsome
    cases hbetween : middle.at? location with
    | none => exact hsecond.fresh hbetween hsome
    | some between =>
        rcases hfirst.fresh hnone hbetween with
          ⟨rfl, path, hpath, hleads⟩ | ⟨path, content, rfl, hpath, hleads⟩
        · have hdir := (hsecond.directory hbetween).symm.trans hsome
          exact Or.inl ⟨(Option.some.inj hdir).symm, path, hpath, hsecond.leadsTo hleads⟩
        · obtain ⟨new, hnew, hwritten⟩ := hsecond.file hbetween
          have hentry : entry = .file new := Option.some.inj (hsome.symm.trans hnew)
          rcases hwritten with rfl | ⟨later, hlater, hleads'⟩
          · exact Or.inr ⟨path, new, hentry, hpath, hsecond.leadsTo hleads⟩
          · exact Or.inr ⟨later, new, hentry, hlater, hleads'⟩

theorem mono {more : Path → ByteArray → Prop} (h : disk.Alters made written after)
    (hmade : ∀ path, made path → wider path)
    (hwritten : ∀ path content, written path content → more path content) :
    disk.Alters wider more after where
  toGrows := h.toGrows
  file := by
    intro location old hold
    obtain ⟨new, hnew, hcases⟩ := h.file hold
    refine ⟨new, hnew, hcases.imp_right ?_⟩
    rintro ⟨path, hpath, hleads⟩
    exact ⟨path, hwritten path new hpath, hleads⟩
  fresh := by
    intro location entry hnone hsome
    rcases h.fresh hnone hsome with
      ⟨hdir, path, hpath, hleads⟩ | ⟨path, content, hfile, hpath, hleads⟩
    · exact Or.inl ⟨hdir, path, hmade path hpath, hleads⟩
    · exact Or.inr ⟨path, content, hfile, hwritten path content hpath, hleads⟩

theorem kept (h : disk.Alters made (fun _ _ => False) after)
    (hentry : disk.at? location = some entry) : after.at? location = some entry := by
  cases entry with
  | directory => exact h.directory hentry
  | link target => exact h.link_iff.mpr hentry
  | file old =>
      obtain ⟨new, hnew, rfl | ⟨_, hnever, _⟩⟩ := h.file hentry
      · exact hnew
      · exact hnever.elim

/-- Where nothing is written, only directories are new. -/
theorem eq_directory (h : disk.Alters made (fun _ _ => False) after)
    (habsent : disk.at? location = none) (hentry : after.at? location = some entry) :
    entry = .directory ∧ ∃ path, made path ∧ after.LeadsTo path location := by
  rcases h.fresh habsent hentry with hdir | ⟨_, _, _, hnever, _⟩
  · exact hdir
  · exact hnever.elim

end Alters

theorem Adds.alters (h : disk.Adds after location) (hleads : after.LeadsTo path location)
    (hpath : made path) : disk.Alters made written after where
  toGrows := h.grows
  file := by
    intro other old hold
    have hne : other ≠ location := by
      rintro rfl
      rw [h.absent] at hold
      cases hold
    exact ⟨old, by rw [h.at?, if_neg hne, hold], Or.inl rfl⟩
  fresh := by
    intro other entry hnone hsome
    rw [h.at?] at hsome
    split at hsome
    · next heq => exact Or.inl ⟨(Option.some.inj hsome).symm, path, hpath, heq ▸ hleads⟩
    · rw [hnone] at hsome
      cases hsome

theorem Puts.alters {content : ByteArray} (h : disk.Puts after location (.file content))
    (hfile : disk.at? location = none ∨ ∃ old, disk.at? location = some (.file old))
    (hleads : after.LeadsTo path location) (hpath : written path content) :
    disk.Alters made written after where
  toGrows := h.grows hfile
  file := by
    intro other old hold
    by_cases heq : other = location
    · exact ⟨content, by rw [h.at?, if_pos heq], Or.inr ⟨path, hpath, heq ▸ hleads⟩⟩
    · exact ⟨old, by rw [h.at?, if_neg heq, hold], Or.inl rfl⟩
  fresh := by
    intro other entry hnone hsome
    rw [h.at?] at hsome
    split at hsome
    · next heq =>
      exact Or.inr ⟨path, content, (Option.some.inj hsome).symm, hpath, heq ▸ hleads⟩
    · rw [hnone] at hsome
      cases hsome

end Disk

/-! ### Calls and scripts -/

theorem Call.alters {c : Call} (h : c.IsWithin made written) (disk : Disk) :
    disk.Alters made written (c.perform disk).2 := by
  cases c with
  | isDirectory path | isFile path | readText path => exact .refl disk
  | makeDirectory path =>
      change disk.Alters made written (Call.changed disk (disk.makeDirectory path)).2
      cases hmake : disk.makeDirectory path with
      | error fault => exact .refl disk
      | ok after =>
          obtain ⟨location, hadds, hopens⟩ := Disk.makeDirectory_eq_ok hmake
          rw [← hadds.workingDirectory] at hopens
          exact hadds.alters (.of_opens (Disk.checkPath_of_makeDirectory hmake) hopens) h
  | writeFile path content =>
      change disk.Alters made written (Call.changed disk (disk.writeFile path content)).2
      cases hwrite : disk.writeFile path content with
      | error fault => exact .refl disk
      | ok after =>
          obtain ⟨location, hputs, hfile, hwalk⟩ := Disk.writeFile_eq_ok hwrite
          exact hputs.alters hfile ((hputs.grows hfile).leadsTo_of_walk (by simp) hwalk) h

theorem Call.makeDirectory_of_perform
    (h : (Call.makeDirectory path).perform disk = (.ok (), after)) :
    disk.makeDirectory path = .ok after := by
  change Call.changed disk (disk.makeDirectory path) = _ at h
  cases hmake : disk.makeDirectory path with
  | error fault =>
      rw [hmake] at h
      cases h
  | ok made =>
      rw [hmake] at h
      cases h
      rfl

theorem Call.grows (c : Call) (disk : Disk) : disk.Grows (c.perform disk).2 := by
  have hwithin : c.IsWithin (fun _ => True) (fun _ _ => True) := by cases c <;> trivial
  exact (Call.alters hwithin disk).toGrows

namespace Script

variable {Query Answer α σ : Type} {script : Script Query Answer α}

theorem Only.alters (h : script.Only (Call.IsWithin made written)) (answer : Query → σ → Answer × σ)
    (disk : Disk) (state : σ) : disk.Alters made written (script.run answer disk state).disk := by
  induction h generalizing disk state with
  | done => exact .refl disk
  | call hcall _ ih => exact (Call.alters hcall disk).trans (ih _ _ _)
  | ask _ ih => exact ih _ _ _

theorem Only.alters_runSilent {script : Script Empty Empty α}
    (h : script.Only (Call.IsWithin made written)) (disk : Disk) :
    disk.Alters made written (script.runSilent disk).2 :=
  h.alters _ disk ()

def ReadsOnly (script : Script Query Answer α) : Prop :=
  script.Only (Call.IsWithin (fun _ => False) fun _ _ => False)

theorem ReadsOnly.within (h : script.ReadsOnly) : script.Only (Call.IsWithin made written) := by
  refine Only.mono h fun c hwithin => ?_
  cases c with
  | isDirectory path | isFile path | readText path => exact trivial
  | makeDirectory path | writeFile path content => exact hwithin.elim

theorem grows_run (script : Script Query Answer α) (answer : Query → σ → Answer × σ) (disk : Disk)
    (state : σ) : disk.Grows (script.run answer disk state).disk := by
  have honly : script.Only (Call.IsWithin (fun _ => True) fun _ _ => True) :=
    (Only.all script).mono fun c _ => by cases c <;> trivial
  exact (honly.alters answer disk state).toGrows

theorem grows_runSilent (script : Script Empty Empty α) (disk : Disk) :
    disk.Grows (script.runSilent disk).2 :=
  script.grows_run _ disk ()

end Script

end Scaffold
