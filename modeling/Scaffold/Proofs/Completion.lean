import Scaffold.Proofs.Consent

/-!
# What a finished creation has done

A creation that reports written files has written the header and then the source, and each of them
after the directories above it.
-/

namespace Scaffold

variable {disk after : Disk} {path : Path} {content : ByteArray}

theorem File.write_eq_ok (hrun : (File.write path content).runSilent disk = (.ok (), after)) :
    ∃ above, disk.Alters (· ∈ path.ancestors) (fun _ _ => False) above ∧
      above.writeFile path content = .ok after := by
  have halters := Directory.makeChain_ancestors_alters path disk
  rw [File.write, Script.runSilent_bind] at hrun
  rcases hchain : (Directory.makeChain path.ancestors).runSilent disk with ⟨fault | _, above⟩
  all_goals
    obtain ⟨parent, hparent⟩ := Directory.ensureParent_of_makeChain hchain
    rw [hparent] at hrun
  · cases hrun
  · rw [hchain] at halters
    refine ⟨above, halters, ?_⟩
    change (Script.perform (.writeFile path content) >>= _ :
      Script Empty Empty _).runSilent above = _ at hrun
    rw [Script.runSilent_bind, Script.runSilent_perform] at hrun
    change (((Call.changed above (above.writeFile path content)).1.mapError _),
      (Call.changed above (above.writeFile path content)).2) = _ at hrun
    cases hwrite : above.writeFile path content with
    | error fault =>
        rw [hwrite] at hrun
        cases hrun
    | ok last =>
        rw [hwrite] at hrun
        cases hrun
        rfl

namespace Blueprint

variable {blueprint : Blueprint} {directory : Path} {middle : Disk} {files : List Path}

theorem write_of_files
    (hheader : (File.write (blueprint.headerPath directory)
      blueprint.render.header.toUTF8).runSilent disk = (.ok (), middle))
    (hsource : (File.write (blueprint.sourcePath directory)
      blueprint.render.source.toUTF8).runSilent middle = (.ok (), after)) :
    (blueprint.write directory).runSilent disk =
      (.ok [blueprint.headerPath directory, blueprint.sourcePath directory], after) := by
  rw [write, Script.runSilent_bind, hheader]
  change (File.write _ _ >>= _ : Script Empty Empty _).runSilent middle = _
  rw [Script.runSilent_bind, hsource]
  rfl

theorem write_eq_ok (hrun : (blueprint.write directory).runSilent disk = (.ok files, after)) :
    files = [blueprint.headerPath directory, blueprint.sourcePath directory] ∧
      ∃ middle, (File.write (blueprint.headerPath directory)
          blueprint.render.header.toUTF8).runSilent disk = (.ok (), middle) ∧
        (File.write (blueprint.sourcePath directory)
          blueprint.render.source.toUTF8).runSilent middle = (.ok (), after) := by
  have hwrite := hrun
  rw [write, Script.runSilent_bind] at hwrite
  rcases hheader : (File.write (blueprint.headerPath directory)
    blueprint.render.header.toUTF8).runSilent disk with ⟨failure | _, middle⟩
  all_goals rw [hheader] at hwrite
  · cases hwrite
  · change (File.write _ _ >>= _ : Script Empty Empty _).runSilent middle = _ at hwrite
    rw [Script.runSilent_bind] at hwrite
    rcases hsource : (File.write (blueprint.sourcePath directory)
      blueprint.render.source.toUTF8).runSilent middle with ⟨failure | _, last⟩
    all_goals rw [hsource] at hwrite
    · cases hwrite
    · rw [write_of_files hheader hsource] at hrun
      cases hrun
      exact ⟨rfl, middle, rfl, hsource⟩

end Blueprint

/-- A creation that reports files has written them with its last calls. -/
theorem Creation.carryOut_eq_written {σ ε : Type} {creation : Creation}
    {callback : Path → σ → Except ε Bool × σ} {state : σ} {report : Report} {created : Bool}
    {files : List Path} (hwet : creation.isDryRun = false)
    (hvalue : (creation.carryOut callback disk state).value = .ok report)
    (houtcome : report.outcome = .written created files) :
    report = creation.report (.written created files) ∧ ∃ claimed,
      (creation.blueprint.write creation.destination).runSilent claimed =
        (.ok files, (creation.carryOut callback disk state).disk) := by
  rcases hclaim : (Directory.claim creation.destination).runSilent disk with ⟨claimed, after⟩
  -- Both ways to a report of files end with the files being written.
  have hfinish {claim : Claim} {calls : List Path × σ}
      (hcarry : creation.carryOut callback disk state =
        ⟨creation.wrote claim
            ((creation.blueprint.write creation.destination).runSilent after).1,
          ((creation.blueprint.write creation.destination).runSilent after).2, calls⟩) :
      report = creation.report (.written created files) ∧ ∃ claimed,
        (creation.blueprint.write creation.destination).runSilent claimed =
          (.ok files, (creation.carryOut callback disk state).disk) := by
    rcases hwrite : (creation.blueprint.write creation.destination).runSilent after with
      ⟨failure | written, last⟩
    all_goals
      rw [hwrite] at hcarry
      rw [hcarry] at hvalue
      cases hvalue
    cases houtcome
    exact ⟨rfl, after, by rw [hcarry, hwrite]⟩
  rcases claimed with failure | ⟨_ | _⟩
  case error =>
    rw [carryOut, run_of_claim _ _ hwet hclaim] at hvalue
    cases hvalue
  case ok.created => exact hfinish (carryOut_of_created hwet hclaim)
  case ok.existing =>
    have hcarry : creation.carryOut callback disk state = _ := carryOut_of_existing hwet hclaim
    rcases hreply : (callback creation.destination state).1 with error | ⟨_ | _⟩
    all_goals rw [hreply, conclude] at hcarry
    · rw [hcarry] at hvalue
      cases hvalue
    · rw [hcarry] at hvalue
      cases hvalue
      cases houtcome
    · rw [run_writeFiles] at hcarry
      exact hfinish hcarry

theorem Creation.exists_report_of_outcome {ε : Type} {value : Except (CreationFailure ε) Report}
    {outcome : Outcome} (h : value.toOption.map Report.outcome = some outcome) :
    ∃ report, value = .ok report ∧ report.outcome = outcome := by
  cases value with
  | error failure => cases h
  | ok report => exact ⟨report, rfl, Option.some.inj h⟩

end Scaffold
