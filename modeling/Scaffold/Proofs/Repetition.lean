import Scaffold.Proofs.Completion

/-!
# A creation done again

A creation that has written its files can be done again with consent, and finds all as it left it:
its directory is there, both paths lead where they led before, and both files are written over with
what they hold.
-/

namespace Scaffold

variable {disk after middle last : Disk} {path : Path} {content : ByteArray} {target : Target}
  {location : Location}

/-! ### Files written again -/

namespace Disk

theorem writeFile_of_walk (hwalk : disk.walk .file path = .ok target) :
    disk.writeFile path content = disk.place target.location (.file content) := by
  rw [writeFile, hwalk]
  rfl

theorem exists_place_of_file {old : ByteArray} (hfile : disk.at? location = some (.file old)) :
    ∃ name parent, location = name :: parent ∧ disk.Admits name parent := by
  cases location with
  | nil => simp at hfile
  | cons name parent =>
      have hpresent : disk.at? (name :: parent) ≠ none := by simp [hfile]
      exact ⟨name, parent, rfl, at?_parent hpresent, by simp [hfile]⟩

theorem writeFile_of_at? (hwalk : disk.walk .file path = .ok target)
    (hfile : disk.at? target.location = some (.file content)) :
    disk.writeFile path content = .ok disk := by
  obtain ⟨name, parent, hlocation, hadmits⟩ := exists_place_of_file hfile
  rw [hlocation] at hfile
  rw [writeFile_of_walk hwalk, hlocation, place, dif_pos hadmits, set_of_at? hadmits hfile]

/-- Of two writes to one file, the second decides. -/
theorem exists_writeFile_of_at? {other : Path} {draft : ByteArray}
    (hwalk : disk.walk .file path = .ok ⟨location, false⟩)
    (hother : disk.walk .file other = .ok ⟨location, false⟩)
    (hfile : disk.at? location = some (.file content)) :
    ∃ between, disk.writeFile other draft = .ok between ∧
      between.writeFile path content = .ok disk := by
  obtain ⟨name, parent, rfl, hadmits⟩ := exists_place_of_file hfile
  let between := disk.set name parent (.file draft) hadmits
  have hputs : disk.Puts between (name :: parent) (.file draft) := ⟨rfl, at?_set hadmits⟩
  have hgrows : disk.Grows between := hputs.grows (Or.inr ⟨content, hfile⟩)
  have hheld : between.at? (name :: parent) = some (.file draft) := by rw [hputs.at?, if_pos rfl]
  have hagain : between.Admits name parent := ⟨hgrows.directory hadmits.1, by simp [hheld]⟩
  refine ⟨between, ?_, ?_⟩
  · rw [writeFile_of_walk hother, place, dif_pos hadmits]
  · rw [writeFile_of_walk (hgrows.walk_eq_ok hwalk), place, dif_pos hagain,
      set_set hadmits hagain, set_of_at? hadmits hfile]

end Disk

theorem exists_endsWith_file (directory : Path) (base : String) {ending : String}
    (hending : ∃ c, ending.toList.getLast? = some c ∧ c ≠ '/' ∧ c ≠ '.') :
    ∃ before last, (directory.join ⟨base ++ ending⟩).EndsWith before last := by
  obtain ⟨c, hlast, hslash, hdot⟩ := hending
  obtain ⟨stem, hstem⟩ := Path.isSuffix_join directory ⟨base ++ ending⟩
  refine Path.exists_endsWith ?_ hslash hdot
  rw [← hstem, String.toList_append, ← List.append_assoc, List.getLast?_append, hlast]
  rfl

namespace Blueprint

variable {blueprint : Blueprint} {directory : Path}

/-- Files that have been written can be written again, and nothing changes. -/
theorem write_again {files : List Path}
    (hrun : (blueprint.write directory).runSilent disk = (.ok files, after)) :
    (blueprint.write directory).runSilent after = (.ok files, after) := by
  obtain ⟨rfl, middle, hheader, hsource⟩ := write_eq_ok hrun
  obtain ⟨first, _, hfirst⟩ := File.write_eq_ok hheader
  obtain ⟨second, hmakes, hsecond⟩ := File.write_eq_ok hsource
  obtain ⟨header, hputHeader, hfreeHeader, hwalkHeader⟩ := Disk.writeFile_eq_ok hfirst
  obtain ⟨source, hputSource, hfreeSource, hwalkSource⟩ := Disk.writeFile_eq_ok hsecond
  have hgrowsSource : second.Grows after := hputSource.grows hfreeSource
  have hgrowsHeader : first.Grows after :=
    (hputHeader.grows hfreeHeader).trans (hmakes.toGrows.trans hgrowsSource)
  have hwalkHeader' := hgrowsHeader.walk_eq_ok hwalkHeader
  have hwalkSource' := hgrowsSource.walk_eq_ok hwalkSource
  have hheldSource : after.at? source = some (.file blueprint.render.source.toUTF8) := by
    rw [hputSource.at?, if_pos rfl]
  obtain ⟨_, _, hendsHeader⟩ : ∃ before name,
      (blueprint.headerPath directory).EndsWith before name :=
    exists_endsWith_file directory _ ⟨'h', by decide⟩
  obtain ⟨_, _, hendsSource⟩ : ∃ before name,
      (blueprint.sourcePath directory).EndsWith before name :=
    exists_endsWith_file directory _ ⟨'c', by decide⟩
  suffices ∃ between,
      after.writeFile (blueprint.headerPath directory) blueprint.render.header.toUTF8 =
        .ok between ∧
      between.writeFile (blueprint.sourcePath directory) blueprint.render.source.toUTF8 =
        .ok after by
    obtain ⟨between, hagain, hlast⟩ := this
    exact write_of_files (File.write_of_writeFile hendsHeader hagain)
      (File.write_of_writeFile hendsSource hlast)
  by_cases hsame : header = source
  · subst hsame
    exact Disk.exists_writeFile_of_at? hwalkSource' hwalkHeader' hheldSource
  · have hheldHeader : after.at? header = some (.file blueprint.render.header.toUTF8) := by
      rw [hputSource.at?, if_neg hsame]
      apply hmakes.kept
      rw [hputHeader.at?, if_pos rfl]
    exact ⟨after, Disk.writeFile_of_at? hwalkHeader' hheldHeader,
      Disk.writeFile_of_at? hwalkSource' hheldSource⟩

end Blueprint

namespace Creation

variable {σ ε : Type} {creation : Creation} {callback : Path → σ → Except ε Bool × σ} {state : σ}
  {report : Report} {created : Bool} {files : List Path}

theorem isDryRun_of_written (hvalue : (creation.carryOut callback disk state).value = .ok report)
    (houtcome : report.outcome = .written created files) : creation.isDryRun = false := by
  rw [← Bool.not_eq_true]
  intro hdry
  rw [carryOut_of_isDryRun hdry] at hvalue
  cases hvalue
  cases houtcome

theorem isDirectory_destination (hwet : creation.isDryRun = false)
    (hvalue : (creation.carryOut callback disk state).value = .ok report) :
    (creation.carryOut callback disk state).disk.isDirectory creation.destination = true := by
  rcases hclaim : (Directory.claim creation.destination).runSilent disk with
    ⟨failure | claim, after⟩
  all_goals rw [carryOut, run_of_claim _ _ hwet hclaim] at hvalue ⊢
  · cases hvalue
  · exact (Script.grows_run _ _ after _).isDirectory (Directory.isDirectory_of_claim hclaim)

/-- **A creation can be done again.** Whatever the disk was, links at the two paths included, a
creation that has written its files with consent finds its directory there the next time, writes
the same files and leaves exactly the disk that it left before. -/
theorem carryOut_again (hyes : ∀ path state, (callback path state).1 = .ok true)
    (hvalue : (creation.carryOut callback disk state).value = .ok report)
    (houtcome : report.outcome = .written created files) (later : σ) :
    creation.carryOut callback (creation.carryOut callback disk state).disk later =
      ⟨.ok { report with outcome := .written false files },
        (creation.carryOut callback disk state).disk,
        [creation.destination], (callback creation.destination later).2⟩ := by
  have hwet := isDryRun_of_written hvalue houtcome
  have hfound := isDirectory_destination hwet hvalue
  obtain ⟨rfl, claimed, hwrite⟩ := carryOut_eq_written hwet hvalue houtcome
  have hagain := Blueprint.write_again hwrite
  rw [carryOut_of_consent hwet hfound (hyes _ _), hagain]
  rfl

/-- Both files are links to one file, which is not there before. -/
theorem carryOut_again_through_links :
    let home := Disk.workspace.set "CBWidget" ["workspace"] .directory (by decide)
    let linked := home.set "CBWidget.h" ["CBWidget", "workspace"] (.link ⟨"../shared"⟩) (by decide)
    let disk := linked.set "CBWidget.c" ["CBWidget", "workspace"] (.link ⟨"CBWidget.h"⟩) (by decide)
    let creation : Creation :=
      { request := ⟨"Widget", "Ada", "A widget.", { year := 2012, month := 1, day := 1 }⟩
        config := { Config.default with outputDir := ⟨"."⟩ }
        root := ⟨"."⟩
        isDryRun := false }
    let callback (_ : Path) (calls : Nat) : Except Empty Bool × Nat := (.ok true, calls + 1)
    let files : List Path := [⟨"././CBWidget/CBWidget.h"⟩, ⟨"././CBWidget/CBWidget.c"⟩]
    let first := creation.carryOut callback disk 0
    ∃ report, first.value = .ok report ∧ report.outcome = .written false files ∧
      creation.carryOut callback first.disk 1 =
        ⟨.ok { report with outcome := .written false files }, first.disk,
          [creation.destination], 2⟩ := by
  intro home linked disk creation callback files first
  have hwritten : first.value.toOption.map Report.outcome = some (.written false files) := by
    decide +kernel
  obtain ⟨report, hvalue, houtcome⟩ := exists_report_of_outcome hwritten
  exact ⟨report, hvalue, houtcome, carryOut_again (fun _ _ => rfl) hvalue houtcome 1⟩

end Creation

end Scaffold
