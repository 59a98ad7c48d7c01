import Scaffold.Proofs.Claiming
import Scaffold.Proofs.Naming

/-!
# Nothing without consent

A creation asks for a confirmation exactly where its destination was a directory before, and until
the answer is yes the disk stays as it was.
-/

namespace Scaffold

def Script.recorded {Query Answer σ : Type} (answer : Query → σ → Answer × σ) (query : Query) :
    List Query × σ → Answer × (List Query × σ)
  | (asked, state) => ((answer query state).1, (asked ++ [query], (answer query state).2))

namespace Creation

variable {Query Answer ε σ : Type} {creation : Creation} {disk after : Disk}

theorem endsWith_destination (hname : creation.request.checkName = .ok ()) :
    creation.destination.EndsWith (creation.root.join creation.config.outputDir).joint
      creation.blueprint.symbols.fileBase :=
  endsWith_fileBase hname _

theorem headerPath_ne_sourcePath (creation : Creation) (directory : Path) :
    creation.blueprint.headerPath directory ≠ creation.blueprint.sourcePath directory := by
  intro h
  have hfile := Path.join_injective (isAbsolute_file _ _) (isAbsolute_file _ _) h
  exact Symbols.headerFile_ne_sourceFile _ _ (congrArg Path.text hfile)

theorem up_notMem_destination (hname : creation.request.checkName = .ok ())
    (hroot : .up ∉ creation.root.components)
    (hout : .up ∉ creation.config.outputDir.components) : .up ∉ creation.destination.route := by
  rw [(endsWith_destination hname).route, Path.filterMap_stepOf?_joint]
  intro hup
  rcases List.mem_append.mp hup with hup | hup
  · obtain ⟨segment, hsegment, hstep⟩ := List.mem_filterMap.mp hup
    rw [Path.eq_of_stepOf?_up hstep] at hsegment
    exact Path.up_notMem_join hroot hout hsegment
  · simp at hup

/-! ### The course of a creation -/

def wrote (creation : Creation) (claim : Claim) :
    Except DiskFailure (List Path) → Except (CreationFailure ε) Report
  | .error failure => .error (.disk failure)
  | .ok files => .ok (creation.report (.written claim.isCreated files))

def conclude (creation : Creation) :
    Except ε Bool → Script Query Answer (Except (CreationFailure ε) Report)
  | .error error => return .error (.confirmation error)
  | .ok false => return .ok (creation.report .declined)
  | .ok true => creation.writeFiles .existing

def concluded (creation : Creation) (disk : Disk) :
    Except ε Bool → Except (CreationFailure ε) Report × Disk
  | .error error => (.error (.confirmation error), disk)
  | .ok false => (.ok (creation.report .declined), disk)
  | .ok true =>
    let (written, after) := (creation.blueprint.write creation.destination).runSilent disk
    (creation.wrote .existing written, after)

def proceed (creation : Creation) (confirm : Path → Script Query Answer (Except ε Bool)) :
    Except DiskFailure Claim → Script Query Answer (Except (CreationFailure ε) Report)
  | .error failure => return .error (.disk failure)
  | .ok .created => creation.writeFiles .created
  | .ok .existing => (confirm creation.destination).bind creation.conclude

section Course

variable {confirm : Path → Script Query Answer (Except ε Bool)}
  (answer : Query → σ → Answer × σ) (state : σ)

theorem run_eq_bind (hwet : creation.isDryRun = false) :
    creation.run confirm =
      (Directory.claim creation.destination).bind (creation.proceed confirm) := by
  rw [run, hwet]
  rfl

theorem run_of_claim (hwet : creation.isDryRun = false) {claimed : Except DiskFailure Claim}
    (hclaim : (Directory.claim creation.destination).runSilent disk = (claimed, after)) :
    (creation.run confirm).run answer disk state =
      (creation.proceed confirm claimed).run answer after state := by
  rw [run_eq_bind hwet, Script.run_bind, ← Directory.lift_claim, Script.run_lift, hclaim]

theorem run_writeFiles (creation : Creation) (claim : Claim) (disk : Disk) :
    (creation.writeFiles claim : Script Query Answer (Except (CreationFailure ε) Report)).run
        answer disk state =
      ⟨creation.wrote claim ((creation.blueprint.write creation.destination).runSilent disk).1,
        ((creation.blueprint.write creation.destination).runSilent disk).2, state⟩ := by
  rw [writeFiles]
  change ((creation.blueprint.write creation.destination).bind _).run answer disk state = _
  rw [Script.run_bind, ← Blueprint.lift_write, Script.run_lift]
  rcases (creation.blueprint.write creation.destination).runSilent disk with ⟨_ | _, _⟩ <;> rfl

theorem run_conclude (creation : Creation) (reply : Except ε Bool) (disk : Disk) :
    (creation.conclude reply : Script Query Answer (Except (CreationFailure ε) Report)).run
        answer disk state =
      ⟨(creation.concluded disk reply).1, (creation.concluded disk reply).2, state⟩ := by
  rcases reply with error | ⟨_ | _⟩
  · rfl
  · rfl
  · rw [conclude, run_writeFiles, concluded]

/-- Where no directory is found, nobody is asked: the files are written, or the disk fails. -/
theorem run_of_not_isDirectory (hname : creation.request.checkName = .ok ())
    (hroot : .up ∉ creation.root.components) (hout : .up ∉ creation.config.outputDir.components)
    (hwet : creation.isDryRun = false)
    (hfound : disk.isDirectory creation.destination = false) :
    (∃ failure after, (creation.run confirm).run answer disk state =
        ⟨.error (.disk failure), after, state⟩) ∨
      ∃ files after, (creation.run confirm).run answer disk state =
        ⟨.ok (creation.report (.written true files)), after, state⟩ := by
  rcases hclaim : (Directory.claim creation.destination).runSilent disk with ⟨claimed, after⟩
  rw [run_of_claim answer state hwet hclaim]
  rcases claimed with failure | ⟨_ | _⟩
  case error => exact Or.inl ⟨failure, after, rfl⟩
  case ok.created =>
    rw [proceed, run_writeFiles]
    cases ((creation.blueprint.write creation.destination).runSilent after).1 with
    | error failure => exact Or.inl ⟨failure, _, rfl⟩
    | ok files => exact Or.inr ⟨files, _, rfl⟩
  case ok.existing =>
    have hup := up_notMem_destination hname hroot hout
    obtain ⟨_, hexisting⟩ := Directory.claim_existing (Disk.climbs_of_up_notMem hup) hclaim
    rw [hfound] at hexisting
    cases hexisting

end Course

/-! ### Consent -/

/-- Carries out a creation whose confirmations come from a callback. The paths that the callback is
called with are kept in a list. -/
def carryOut (creation : Creation) (callback : Path → σ → Except ε Bool × σ) (disk : Disk)
    (state : σ) : Script.Ending (List Path × σ) (Except (CreationFailure ε) Report) :=
  (creation.run Script.query).run (Script.recorded callback) disk ([], state)

structure Consents (creation : Creation) (callback : Path → σ → Except ε Bool × σ) (disk : Disk)
    (state : σ) : Prop where
  preview : creation.isDryRun = true → creation.carryOut callback disk state =
    ⟨.ok (creation.report (.preview creation.blueprint.files)), disk, ([], state)⟩
  asked : creation.isDryRun = false → (creation.carryOut callback disk state).state.1 =
    if disk.isDirectory creation.destination then [creation.destination] else []
  declined : creation.isDryRun = false →
    ((∃ report, (creation.carryOut callback disk state).value = .ok report ∧
        report.outcome = .declined) ↔
      disk.isDirectory creation.destination = true ∧
        (callback creation.destination state).1 = .ok false)
  failed : creation.isDryRun = false → ∀ error,
    ((creation.carryOut callback disk state).value = .error (.confirmation error) ↔
      disk.isDirectory creation.destination = true ∧
        (callback creation.destination state).1 = .error error)
  unchanged : (creation.isDryRun = true ∨
      (∃ report, (creation.carryOut callback disk state).value = .ok report ∧
        report.outcome = .declined) ∨
      ∃ error, (creation.carryOut callback disk state).value = .error (.confirmation error)) →
    (creation.carryOut callback disk state).disk = disk

section Consent

variable {callback : Path → σ → Except ε Bool × σ} {state : σ}

theorem carryOut_of_isDryRun (hdry : creation.isDryRun = true) :
    creation.carryOut callback disk state =
      ⟨.ok (creation.report (.preview creation.blueprint.files)), disk, ([], state)⟩ := by
  rw [carryOut, run_of_isDryRun hdry]
  rfl

theorem carryOut_of_created (hwet : creation.isDryRun = false)
    (hclaim : (Directory.claim creation.destination).runSilent disk = (.ok .created, after)) :
    creation.carryOut callback disk state =
      ⟨creation.wrote .created
          ((creation.blueprint.write creation.destination).runSilent after).1,
        ((creation.blueprint.write creation.destination).runSilent after).2, ([], state)⟩ := by
  rw [carryOut, run_of_claim _ _ hwet hclaim, proceed, run_writeFiles]

theorem carryOut_of_existing (hwet : creation.isDryRun = false)
    (hclaim : (Directory.claim creation.destination).runSilent disk = (.ok .existing, after)) :
    creation.carryOut callback disk state =
      (creation.conclude (callback creation.destination state).1).run (Script.recorded callback)
        after ([creation.destination], (callback creation.destination state).2) := by
  rw [carryOut, run_of_claim _ _ hwet hclaim, proceed, Script.run_bind]
  rfl

def replied (creation : Creation) (reply : Except ε Bool) (disk : Disk) :
    Script.Ending (List Path × Unit) (Except (CreationFailure ε) Report) :=
  creation.carryOut (fun _ calls => (reply, calls)) disk ()

/-- Whoever confirms, only the reply counts, and a confirmation is asked for just where the callback
would be called. -/
theorem run_of_reply {τ : Type} {confirm : Path → Script Query Answer (Except ε Bool)}
    {answer : Query → τ → Answer × τ} {before later : τ} {reply : Except ε Bool}
    (hconfirm : ∀ disk, (confirm creation.destination).run answer disk before =
      ⟨reply, disk, later⟩) (disk : Disk) :
    (creation.run confirm).run answer disk before =
      ⟨(creation.replied reply disk).value, (creation.replied reply disk).disk,
        if (creation.replied reply disk).state.1 = [] then before else later⟩ := by
  cases hdry : creation.isDryRun with
  | true =>
      rw [run_of_isDryRun hdry, replied, carryOut_of_isDryRun hdry]
      rfl
  | false =>
      rcases hclaim : (Directory.claim creation.destination).runSilent disk with ⟨claimed, after⟩
      rw [run_of_claim _ _ hdry hclaim]
      rcases claimed with failure | ⟨_ | _⟩
      case error =>
        rw [replied, carryOut, run_of_claim _ _ hdry hclaim]
        rfl
      case ok.created =>
        rw [replied, carryOut_of_created hdry hclaim, proceed, run_writeFiles, if_pos rfl]
      case ok.existing =>
        rw [replied, carryOut_of_existing hdry hclaim, proceed, Script.run_bind, hconfirm,
          run_conclude, run_conclude, if_neg (List.cons_ne_nil _ _)]

section Found

variable (hwet : creation.isDryRun = false)
  (hfound : disk.isDirectory creation.destination = true)

include hwet hfound

theorem carryOut_of_isDirectory :
    creation.carryOut callback disk state =
      (creation.conclude (callback creation.destination state).1).run (Script.recorded callback)
        disk ([creation.destination], (callback creation.destination state).2) :=
  carryOut_of_existing hwet (Directory.claim_of_isDirectory hfound)

theorem carryOut_of_error {error : ε}
    (hreply : (callback creation.destination state).1 = .error error) :
    creation.carryOut callback disk state = ⟨.error (.confirmation error), disk,
      ([creation.destination], (callback creation.destination state).2)⟩ := by
  rw [carryOut_of_isDirectory hwet hfound, hreply]
  rfl

theorem carryOut_of_refusal (hreply : (callback creation.destination state).1 = .ok false) :
    creation.carryOut callback disk state = ⟨.ok (creation.report .declined), disk,
      ([creation.destination], (callback creation.destination state).2)⟩ := by
  rw [carryOut_of_isDirectory hwet hfound, hreply]
  rfl

theorem carryOut_of_consent (hreply : (callback creation.destination state).1 = .ok true) :
    creation.carryOut callback disk state =
      ⟨creation.wrote .existing
          ((creation.blueprint.write creation.destination).runSilent disk).1,
        ((creation.blueprint.write creation.destination).runSilent disk).2,
        ([creation.destination], (callback creation.destination state).2)⟩ := by
  rw [carryOut_of_isDirectory hwet hfound, hreply, conclude, run_writeFiles]

theorem consents_of_isDirectory : creation.Consents callback disk state := by
  rcases hreply : (callback creation.destination state).1 with error | ⟨_ | _⟩
  case error =>
    have hcarry := carryOut_of_error hwet hfound hreply
    constructor <;> simp [hcarry, hwet, hfound, hreply]
  case ok.false =>
    have hcarry := carryOut_of_refusal hwet hfound hreply
    constructor <;> simp [hcarry, hwet, hfound, hreply, report]
  case ok.true =>
    have hcarry := carryOut_of_consent hwet hfound hreply
    rcases hwrite : ((creation.blueprint.write creation.destination).runSilent disk).1 with _ | _
    all_goals
      rw [hwrite] at hcarry
      constructor <;> simp [hcarry, wrote, hwet, hfound, hreply, report]

end Found

theorem carryOut_of_not_isDirectory (callback : Path → σ → Except ε Bool × σ) (state : σ)
    (hname : creation.request.checkName = .ok ())
    (hroot : .up ∉ creation.root.components) (hout : .up ∉ creation.config.outputDir.components)
    (hwet : creation.isDryRun = false)
    (hfound : disk.isDirectory creation.destination = false) :
    (∃ failure after, creation.carryOut callback disk state =
        ⟨.error (.disk failure), after, ([], state)⟩) ∨
      ∃ files after, creation.carryOut callback disk state =
        ⟨.ok (creation.report (.written true files)), after, ([], state)⟩ :=
  run_of_not_isDirectory _ _ hname hroot hout hwet hfound

theorem replied_cases (creation : Creation) (hname : creation.request.checkName = .ok ())
    (hroot : .up ∉ creation.root.components) (hout : .up ∉ creation.config.outputDir.components)
    (reply : Except ε Bool) (disk : Disk) :
    ((creation.isDryRun = false ∧ disk.isDirectory creation.destination = true) ∧
        (creation.replied reply disk).state.1 ≠ [] ∧
        ∀ error, (creation.replied reply disk).value = .error (.confirmation error) ↔
          reply = .error error) ∨
      ¬ (creation.isDryRun = false ∧ disk.isDirectory creation.destination = true) ∧
        (creation.replied reply disk).state.1 = [] ∧
        ∀ error, (creation.replied reply disk).value ≠ .error (.confirmation error) := by
  rw [replied]
  cases hdry : creation.isDryRun with
  | true => exact Or.inr (by simp [carryOut_of_isDryRun hdry])
  | false =>
      cases hfound : disk.isDirectory creation.destination with
      | true =>
          have hconsents : creation.Consents (fun _ calls => (reply, calls)) disk () :=
            consents_of_isDirectory hdry hfound
          refine Or.inl ⟨⟨rfl, rfl⟩, ?_, fun error => ?_⟩
          · rw [hconsents.asked hdry, hfound]
            simp
          · rw [hconsents.failed hdry, hfound]
            simp
      | false =>
          refine Or.inr ⟨by simp, ?_⟩
          rcases carryOut_of_not_isDirectory (fun _ (calls : Unit) => (reply, calls)) () hname hroot
            hout hdry hfound with ⟨failure, after, hcarry⟩ | ⟨files, after, hcarry⟩
          · rw [hcarry]
            simp
          · rw [hcarry]
            simp

/-- **Nothing without consent.** On every disk, with links or without, a creation of a type with an
admissible name asks exactly where its destination leads to a directory, once and for that
destination. A preview, a refusal and a confirmation that fails leave the disk as it was. -/
theorem consents (hname : creation.request.checkName = .ok ())
    (hroot : .up ∉ creation.root.components) (hout : .up ∉ creation.config.outputDir.components)
    (callback : Path → σ → Except ε Bool × σ) (disk : Disk) (state : σ) :
    creation.Consents callback disk state := by
  cases hdry : creation.isDryRun with
  | true =>
      have hpreview : creation.carryOut callback disk state = _ := carryOut_of_isDryRun hdry
      exact ⟨fun _ => hpreview, by simp [hdry], by simp [hdry], by simp [hdry],
        fun _ => by rw [hpreview]⟩
  | false =>
      cases hfound : disk.isDirectory creation.destination with
      | true => exact consents_of_isDirectory hdry hfound
      | false =>
          rcases carryOut_of_not_isDirectory callback state hname hroot hout hdry hfound with
            ⟨failure, after, hcarry⟩ | ⟨files, after, hcarry⟩
          · constructor <;> simp [hcarry, hdry, hfound]
          · constructor <;> simp [hcarry, hdry, hfound, report]

/-- A directory is found through a link, too, and the callback that fails is called for it. -/
theorem consents_through_link :
    let disk := Disk.workspace.set "CBWidget" ["workspace"] (.link ⟨"."⟩) (by decide)
    let creation : Creation :=
      { request := ⟨"Widget", "Ada", "A widget.", { year := 2012, month := 1, day := 1 }⟩
        config := { Config.default with outputDir := ⟨"."⟩ }
        root := ⟨"."⟩
        isDryRun := false }
    disk.isDirectory creation.destination = true ∧
      creation.Consents (fun _ calls => (.error "no terminal", calls + 1)) disk 0 :=
  ⟨by decide, consents (by decide) (by decide) (by decide) _ _ _⟩

end Consent

end Creation

end Scaffold
