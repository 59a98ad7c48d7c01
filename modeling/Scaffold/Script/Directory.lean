import Scaffold.Script

/-!
Directories and files with the directories above them. A directory is claimed by creating it: of
two claims on one path, at most one finds that it has created the directory.
-/

namespace Scaffold

inductive DiskFailure where
  | makeDirectory (path : Path) (fault : Fault)
  | writeFile (path : Path) (fault : Fault)
deriving DecidableEq, Repr

namespace DiskFailure

def message : DiskFailure → String
  | makeDirectory path _ => "Failed to create directory '" ++ path.text ++ "'"
  | writeFile path _ => "Failed to write '" ++ path.text ++ "'"

def fault : DiskFailure → Fault
  | makeDirectory _ fault => fault
  | writeFile _ fault => fault

end DiskFailure

inductive Claim where
  | created
  | existing
deriving DecidableEq, Repr

def Claim.isCreated : Claim → Bool
  | created => true
  | existing => false

namespace Directory

variable {Query Answer : Type}

def make (path : Path) : Script Query Answer (Except Fault Claim) := do
  match ← Script.perform (.makeDirectory path) with
  | .ok () => return .ok .created
  | .error .alreadyExists =>
    if ← Script.perform (.isDirectory path) then return .ok .existing
    else return .error .alreadyExists
  | .error fault => return .error fault

/-- Makes the first of the directories; the others are its ancestors, of which those that are
missing are made before it. -/
def makeChain : List Path → Script Query Answer (Except Fault Unit)
  | [] => return .ok ()
  | path :: ancestors => do
    match ← make path with
    | .ok _ => return .ok ()
    | .error .notFound =>
      match ← makeChain ancestors with
      | .ok () => return (← make path).map fun _ => ()
      | .error fault => return .error fault
    | .error fault => return .error fault

def ensure (path : Path) : Script Query Answer (Except Fault Unit) :=
  makeChain path.chain

def ensureParent (path : Path) : Script Query Answer (Except DiskFailure Unit) :=
  match path.parent? with
  | none => return .ok ()
  | some parent => return (← ensure parent).mapError (.makeDirectory parent)

def claim (path : Path) : Script Query Answer (Except DiskFailure Claim) := do
  match ← ensureParent path with
  | .error failure => return .error failure
  | .ok () => return (← make path).mapError (.makeDirectory path)

end Directory

def File.write {Query Answer : Type} (path : Path) (content : ByteArray) :
    Script Query Answer (Except DiskFailure Unit) := do
  match ← Directory.ensureParent path with
  | .error failure => return .error failure
  | .ok () => return (← Script.perform (.writeFile path content)).mapError (.writeFile path)

end Scaffold
