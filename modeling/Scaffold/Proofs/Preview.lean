import Scaffold.Proofs.Completion

/-!
# Previews show what is written

The files of a preview are those that the creation itself writes, in the same order and at the same
paths, and reading them back gives the texts of the preview.
-/

namespace Scaffold

variable {disk after : Disk} {path other : Path} {content old : ByteArray}

namespace Disk

def Holds (disk : Disk) (path : Path) (content : ByteArray) : Prop :=
  ∃ location, disk.walk .destination path = .ok ⟨location, false⟩ ∧
    disk.at? location = some (.file content)

theorem Holds.readText {text : String} (h : disk.Holds path text.toUTF8) :
    disk.readText path = .ok text := by
  obtain ⟨location, hwalk, hfile⟩ := h
  have hresolve : disk.resolve path = .ok (.file text.toUTF8) := by
    rw [resolve, hwalk]
    simp [bind, Except.bind, hfile]
  have htext : String.fromUTF8? text.toUTF8 = some text := dif_pos text.isValidUTF8
  rw [Disk.readText, hresolve]
  change (String.fromUTF8? text.toUTF8).elim _ _ = _
  rw [htext]
  rfl

theorem holds_of_writeFile (hwrite : disk.writeFile path content = .ok after) :
    after.Holds path content := by
  obtain ⟨location, hputs, hfile, hwalk⟩ := writeFile_eq_ok hwrite
  exact ⟨location, (hputs.grows hfile).walk_destination (by simp) hwalk,
    by rw [hputs.at?, if_pos rfl]⟩

namespace Holds

variable {made : Path → Prop}

theorem of_alters (h : disk.Holds path content)
    (halters : disk.Alters made (fun _ _ => False) after) : after.Holds path content := by
  obtain ⟨location, hwalk, hfile⟩ := h
  exact ⟨location, halters.walk_destination (by simp) hwalk, halters.kept hfile⟩

theorem of_writeFile (h : disk.Holds path old) (hwrite : disk.writeFile other content = .ok after)
    (hapart : ∀ location, after.LeadsTo path location → ¬ after.LeadsTo other location) :
    after.Holds path old := by
  obtain ⟨location, hwalk, hfile⟩ := h
  obtain ⟨place, hputs, hplace, hwalkOther⟩ := writeFile_eq_ok hwrite
  have hgrows := hputs.grows hplace
  have hwalk' := hgrows.walk_destination (by simp) hwalk
  refine ⟨location, hwalk', ?_⟩
  have hne : location ≠ place := by
    rintro rfl
    exact hapart location ⟨false, hwalk'⟩ (hgrows.leadsTo_of_walk (by simp) hwalkOther)
  rw [hputs.at?, if_neg hne, hfile]

end Holds

end Disk

theorem File.holds_of_write (hrun : (File.write path content).runSilent disk = (.ok (), after)) :
    after.Holds path content := by
  obtain ⟨above, _, hwrite⟩ := write_eq_ok hrun
  exact Disk.holds_of_writeFile hwrite

theorem Disk.Holds.of_write (h : disk.Holds path old)
    (hrun : (File.write other content).runSilent disk = (.ok (), after))
    (hapart : ∀ location, after.LeadsTo path location → ¬ after.LeadsTo other location) :
    after.Holds path old := by
  obtain ⟨above, halters, hwrite⟩ := File.write_eq_ok hrun
  exact (h.of_alters halters).of_writeFile hwrite hapart

theorem Blueprint.eq_of_mem_files {blueprint : Blueprint} {file : NamedText}
    (hfile : file ∈ blueprint.files) :
    file = ⟨blueprint.symbols.headerFile, blueprint.render.header⟩ ∨
      file = ⟨blueprint.symbols.sourceFile, blueprint.render.source⟩ := by
  simpa [files] using hfile

namespace Creation

variable {σ ε : Type} {creation : Creation}

def shown (creation : Creation) : Creation := { creation with isDryRun := true }

def real (creation : Creation) : Creation := { creation with isDryRun := false }

def filePath (creation : Creation) (file : NamedText) : Path :=
  creation.destination.join ⟨file.name⟩

structure IsPreviewed (creation : Creation) (callback : Path → σ → Except ε Bool × σ)
    (disk : Disk) (state : σ) : Prop where
  contents : creation.blueprint.files.map NamedText.content =
    [creation.blueprint.render.header, creation.blueprint.render.source]
  remarks : ∃ report, (creation.shown.carryOut callback disk state).value = .ok report ∧
    report.remarks = creation.request.lint.map (fun diagnostic => .warning diagnostic.message) ++
      creation.blueprint.files.flatMap
        (fun file => [.divider file.name, .preformatted file.content]) ++
      [.divider "Summary", .preformatted
        ("2 files would be generated in " ++ creation.destination.text)]
  written : ∀ report created files,
    (creation.real.carryOut callback disk state).value = .ok report →
      report.outcome = .written created files →
        report.destination = creation.destination ∧
          files = creation.blueprint.files.map creation.filePath
  nodup : (creation.blueprint.files.map creation.filePath).Nodup
  below : ∀ file ∈ creation.blueprint.files, (Path.mk file.name).isAbsolute = false ∧
    creation.destination.IsPrefixOf (creation.filePath file) ∧
      creation.filePath file ≠ creation.destination
  readBack : ∀ report created files,
    (creation.real.carryOut callback disk state).value = .ok report →
      report.outcome = .written created files →
        (¬ ∃ location, ∀ file ∈ creation.blueprint.files,
            (creation.real.carryOut callback disk state).disk.LeadsTo (creation.filePath file)
              location) →
          ∀ file ∈ creation.blueprint.files,
            (creation.real.carryOut callback disk state).disk.readText (creation.filePath file) =
              .ok file.content

theorem isAbsolute_of_mem_files {file : NamedText} (hfile : file ∈ creation.blueprint.files) :
    (Path.mk file.name).isAbsolute = false := by
  obtain rfl | rfl := Blueprint.eq_of_mem_files hfile
  · exact isAbsolute_file _ _
  · exact isAbsolute_file _ _

theorem filePath_ne_destination {file : NamedText} (hfile : file ∈ creation.blueprint.files) :
    creation.filePath file ≠ creation.destination := by
  have hname : file.name.toList ≠ [] := by
    obtain rfl | rfl := Blueprint.eq_of_mem_files hfile
    · simp [Symbols.headerFile]
    · simp [Symbols.sourceFile]
  intro heq
  have hlength := congrArg (fun path : Path => path.text.toList.length) heq
  have hpositive := List.length_pos_iff.mpr hname
  rcases Path.toList_join_cases creation.destination (isAbsolute_of_mem_files hfile) with
    htext | ⟨_, htext⟩
  all_goals
    simp only [filePath, htext, List.length_append, List.length_cons] at hlength
    omega

theorem remarks_preview (creation : Creation) :
    (creation.report (.preview creation.blueprint.files)).remarks =
      creation.request.lint.map (fun diagnostic => .warning diagnostic.message) ++
        creation.blueprint.files.flatMap
          (fun file => [.divider file.name, .preformatted file.content]) ++
        [.divider "Summary", .preformatted
          ("2 files would be generated in " ++ creation.destination.text)] := by
  have hlength : toString creation.blueprint.files.length ++ " files would be generated in " =
      "2 files would be generated in " := by
    rw [show creation.blueprint.files.length = 2 from rfl]
    decide
  rw [Report.remarks, report, Outcome.remarks, hlength, List.map_map, List.append_assoc]
  rfl

/-- **Previews show what is written.** On every disk, the preview of a creation lists the files that
the creation writes if it is carried out, and where no link makes them one file, each of them holds
the text of the preview afterwards. -/
theorem isPreviewed (creation : Creation) (callback : Path → σ → Except ε Bool × σ)
    (disk : Disk) (state : σ) : creation.IsPreviewed callback disk state where
  contents := creation.blueprint.map_content_files
  remarks := by
    refine ⟨_, ?_, creation.remarks_preview⟩
    rw [carryOut_of_isDryRun rfl]
    rfl
  written := by
    intro report created files hvalue houtcome
    obtain ⟨rfl, claimed, hwrite⟩ := carryOut_eq_written rfl hvalue houtcome
    exact ⟨rfl, (Blueprint.write_eq_ok hwrite).1⟩
  nodup := by
    have hne := creation.headerPath_ne_sourcePath creation.destination
    exact List.nodup_cons.mpr ⟨List.mem_singleton.not.mpr hne, List.pairwise_singleton _ _⟩
  below file hfile :=
    have hrelative := isAbsolute_of_mem_files hfile
    ⟨hrelative, Path.isPrefixOf_join creation.destination hrelative,
      filePath_ne_destination hfile⟩
  readBack := by
    intro report created files hvalue houtcome hapart file hfile
    obtain ⟨_, claimed, hwrite⟩ := carryOut_eq_written rfl hvalue houtcome
    obtain ⟨_, middle, hheader, hsource⟩ := Blueprint.write_eq_ok hwrite
    obtain rfl | rfl := Blueprint.eq_of_mem_files hfile
    · refine ((File.holds_of_write hheader).of_write hsource ?_).readText
      intro location hleft hright
      refine hapart ⟨location, fun other hother => ?_⟩
      obtain rfl | rfl := Blueprint.eq_of_mem_files hother
      · exact hleft
      · exact hright
    · exact (File.holds_of_write hsource).readText

/-- A run that is answered yes and writes. The header goes through a link to another place. -/
theorem isPreviewed_through_link :
    let home := Disk.workspace.set "CBWidget" ["workspace"] .directory (by decide)
    let disk := home.set "CBWidget.h" ["CBWidget", "workspace"] (.link ⟨"../shared"⟩) (by decide)
    let creation : Creation :=
      { request := ⟨"Widget", "Ada", "A widget.", { year := 2012, month := 1, day := 1 }⟩
        config := { Config.default with outputDir := ⟨"."⟩ }
        root := ⟨"."⟩
        isDryRun := true }
    let callback (_ : Path) (calls : Nat) : Except Empty Bool × Nat := (.ok true, calls + 1)
    let ending := creation.real.carryOut callback disk 0
    let files : List Path := [⟨"././CBWidget/CBWidget.h"⟩, ⟨"././CBWidget/CBWidget.c"⟩]
    ∃ report, ending.value = .ok report ∧ report.outcome = .written false files ∧
      report.destination = creation.destination ∧
      files = creation.blueprint.files.map creation.filePath ∧
      ∀ file ∈ creation.blueprint.files,
        ending.disk.readText (creation.filePath file) = .ok file.content := by
  intro home disk creation callback ending files
  have hwritten : ending.value.toOption.map Report.outcome = some (.written false files) := by
    decide +kernel
  obtain ⟨report, hvalue, houtcome⟩ := exists_report_of_outcome hwritten
  have hpreviewed : creation.IsPreviewed callback disk 0 := isPreviewed creation callback disk 0
  obtain ⟨hdestination, hfiles⟩ := hpreviewed.written report false files hvalue houtcome
  have hheader : ending.disk.walk .destination ⟨"././CBWidget/CBWidget.h"⟩ =
      .ok ⟨["shared", "workspace"], false⟩ := by
    decide +kernel
  have hsource : ending.disk.walk .destination ⟨"././CBWidget/CBWidget.c"⟩ =
      .ok ⟨["CBWidget.c", "CBWidget", "workspace"], false⟩ := by
    decide +kernel
  have hapart : ¬ ∃ location, ∀ file ∈ creation.blueprint.files,
      ending.disk.LeadsTo (creation.filePath file) location := by
    rintro ⟨location, hall⟩
    have hpaths : ∀ path ∈ files, ending.disk.LeadsTo path location := by
      rw [hfiles]
      exact List.forall_mem_map.mpr hall
    obtain ⟨_, hfirst⟩ := hpaths _ List.mem_cons_self
    obtain ⟨_, hsecond⟩ := hpaths _ (List.mem_cons_of_mem _ List.mem_cons_self)
    have hshared : ["shared", "workspace"] = location :=
      congrArg Target.location (Except.ok.inj (hheader.symm.trans hfirst))
    have hplain : ["CBWidget.c", "CBWidget", "workspace"] = location :=
      congrArg Target.location (Except.ok.inj (hsource.symm.trans hsecond))
    exact absurd (hshared.trans hplain.symm) (by decide)
  exact ⟨report, hvalue, houtcome, hdestination, hfiles,
    hpreviewed.readBack report false files hvalue houtcome hapart⟩

end Creation

end Scaffold
