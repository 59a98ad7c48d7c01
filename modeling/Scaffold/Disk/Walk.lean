import Scaffold.Disk.Fault
import Scaffold.Disk.Tree

/-!
Where a path leads. A walk takes the steps of a path one after another; a link stands for the steps
of its target, unless it ends the path and is looked for itself. Before the last name of a path a
walk for a file to write looks whether a slash comes after it, which asks for a directory.
-/

namespace Scaffold

inductive Aim where
  | destination
  | entry
  | file
deriving DecidableEq, Repr

structure Target where
  location : Location
  slash : Bool
deriving DecidableEq, Repr

namespace Disk

def maxNameSize : Nat := 255

def maxPathSize : Nat := 4095

def maxLinks : Nat := 40

def checkDirectory (disk : Disk) (location : Location) : Except Fault Unit :=
  match disk.at? location with
  | some .directory => .ok ()
  | some _ => .error .notDirectory
  | none => .error .notFound

theorem checkDirectory_eq_ok_iff {disk : Disk} {location : Location} :
    disk.checkDirectory location = .ok () ↔ disk.at? location = some .directory := by
  unfold checkDirectory
  split <;> simp_all

def isEnd : List Path.Step → Bool
  | [] | [.slash] => true
  | _ => false

def startOf (path : Path) (here : Location) : Location :=
  if path.isAbsolute then [] else here

/-- Takes steps up to the first link that is to be followed, and leaves it to `enter` to take the
steps that the link stands for and the rest. -/
def walkSteps (disk : Disk) (aim : Aim)
    (enter : Location → List Path.Step → Except Fault Target) :
    Location → List Path.Step → Except Fault Target
  | here, [] => .ok ⟨here, false⟩
  | here, [.slash] => .ok ⟨here, true⟩
  | here, .slash :: rest => do
    disk.checkDirectory here
    walkSteps disk aim enter here rest
  | here, .stay :: rest => do
    disk.checkDirectory here
    walkSteps disk aim enter here rest
  | here, .up :: rest => do
    disk.checkDirectory here
    walkSteps disk aim enter here.tail rest
  | here, .into name :: rest => do
    disk.checkDirectory here
    if aim = .file ∧ rest = [.slash] then throw .isDirectory
    if maxNameSize < name.utf8ByteSize then throw .nameTooLong
    match disk.at? (name :: here) with
    | some (.link target) =>
      if aim = .entry ∧ isEnd rest then return ⟨name :: here, !rest.isEmpty⟩
      else enter (startOf target here) (target.steps ++ rest)
    | _ => walkSteps disk aim enter (name :: here) rest

def walkLinks (disk : Disk) (aim : Aim) :
    Nat → Location → List Path.Step → Except Fault Target
  | 0 => walkSteps disk aim fun _ _ => .error .tooManyLinks
  | links + 1 => walkSteps disk aim (walkLinks disk aim links)

def checkPath (path : Path) : Except Fault Unit :=
  if path.text.toList.contains '\x00' then .error .nulInPath
  else if path.isEmpty then .error .notFound
  else if maxPathSize < path.text.utf8ByteSize then .error .nameTooLong
  else .ok ()

def walk (disk : Disk) (aim : Aim) (path : Path) : Except Fault Target := do
  checkPath path
  walkLinks disk aim maxLinks (startOf path disk.workingDirectory) path.steps

def resolve (disk : Disk) (path : Path) : Except Fault Entry := do
  let target ← disk.walk .destination path
  match disk.at? target.location with
  | none => .error .notFound
  | some .directory => .ok .directory
  | some entry => if target.slash then .error .notDirectory else .ok entry

end Disk

end Scaffold
