import Scaffold.Lint
import Scaffold.Report
import Scaffold.Script.Directory

/-!
The creation of one object type: its directory is claimed, a directory that was there before is
written to only after a confirmation, and the header is written before the source.
-/

namespace Scaffold

namespace Blueprint

variable {Query Answer : Type}

def write (blueprint : Blueprint) (directory : Path) :
    Script Query Answer (Except DiskFailure (List Path)) := do
  let header := blueprint.headerPath directory
  let source := blueprint.sourcePath directory
  match ← File.write header blueprint.render.header.toUTF8 with
  | .error failure => return .error failure
  | .ok () =>
    match ← File.write source blueprint.render.source.toUTF8 with
    | .error failure => return .error failure
    | .ok () => return .ok [header, source]

end Blueprint

structure Creation where
  request : Request
  config : Config
  root : Path
  isDryRun : Bool

inductive CreationFailure (ε : Type) where
  | disk (failure : DiskFailure)
  | confirmation (error : ε)

namespace Creation

variable {Query Answer ε : Type}

def blueprint (creation : Creation) : Blueprint :=
  Blueprint.ofRequest creation.request creation.config

def destination (creation : Creation) : Path :=
  creation.config.destination creation.root creation.blueprint.symbols.fileBase

def report (creation : Creation) (outcome : Outcome) : Report where
  typeName := creation.blueprint.symbols.typeName
  destination := creation.destination
  warnings := creation.request.lint.map Diagnostic.message
  outcome := outcome

def writeFiles (creation : Creation) (claim : Claim) :
    Script Query Answer (Except (CreationFailure ε) Report) := do
  match ← creation.blueprint.write creation.destination with
  | .error failure => return .error (.disk failure)
  | .ok files => return .ok (creation.report (.written claim.isCreated files))

/-- Carries out a creation. A confirmation is asked for only where the directory was there before;
a dry run calls nothing. -/
def run (creation : Creation) (confirm : Path → Script Query Answer (Except ε Bool)) :
    Script Query Answer (Except (CreationFailure ε) Report) := do
  if creation.isDryRun then
    return .ok (creation.report (.preview creation.blueprint.files))
  match ← Directory.claim creation.destination with
  | .error failure => return .error (.disk failure)
  | .ok .created => creation.writeFiles .created
  | .ok .existing =>
    match ← confirm creation.destination with
    | .error error => return .error (.confirmation error)
    | .ok false => return .ok (creation.report .declined)
    | .ok true => creation.writeFiles .existing

theorem run_of_isDryRun {creation : Creation} (h : creation.isDryRun = true)
    (confirm : Path → Script Query Answer (Except ε Bool)) :
    creation.run confirm =
      .done (.ok (creation.report (.preview creation.blueprint.files))) := by
  simp only [run, h, ite_true]
  rfl

end Creation

end Scaffold
