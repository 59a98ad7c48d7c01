import Scaffold.Disk.Walk

/-!
Reading and changing the tree through paths. An operation that fails changes nothing.
-/

namespace Scaffold.Disk

def isDirectory (disk : Disk) (path : Path) : Bool :=
  match disk.resolve path with
  | .ok .directory => true
  | _ => false

def isFile (disk : Disk) (path : Path) : Bool :=
  match disk.resolve path with
  | .ok (.file _) => true
  | _ => false

def readText (disk : Disk) (path : Path) : Except Fault String := do
  match ← disk.resolve path with
  | .directory => .error .isDirectory
  | .file content => (String.fromUTF8? content).elim (.error .notUnicode) .ok
  | .link _ => .error .tooManyLinks

def place (disk : Disk) (location : Location) (entry : Entry) : Except Fault Disk :=
  match location with
  | [] => .error .isDirectory
  | name :: parent =>
    if admits : disk.Admits name parent then .ok (disk.set name parent entry admits)
    else if disk.at? parent = some .directory then .error .isDirectory
    else .error .notFound

/-- Makes a directory where nothing stands, a link that leads nowhere included. -/
def makeDirectory (disk : Disk) (path : Path) : Except Fault Disk := do
  let target ← disk.walk .entry path
  if (disk.at? target.location).isSome then .error .alreadyExists
  else disk.place target.location .directory

/-- Makes a file or replaces the content of one, through all links. -/
def writeFile (disk : Disk) (path : Path) (content : ByteArray) : Except Fault Disk := do
  let target ← disk.walk .file path
  disk.place target.location (.file content)

def makeLink (disk : Disk) (path target : Path) : Except Fault Disk := do
  checkPath target
  let place ← disk.walk .entry path
  if (disk.at? place.location).isSome then .error .alreadyExists
  else if place.slash then .error .notFound
  else disk.place place.location (.link target)

/-- Removes an entry and all entries below it. A link is removed and not what it leads to. -/
def remove (disk : Disk) (path : Path) : Except Fault Disk := do
  let target ← disk.walk .entry path
  match disk.at? target.location with
  | none => .error .notFound
  | some .directory => .ok (disk.prune target.location)
  | some _ => if target.slash then .error .notDirectory else .ok (disk.prune target.location)

def pathFrom (above location : Location) : Path :=
  ⟨"/".intercalate (location.take (location.length - above.length)).reverse⟩

def listing (disk : Disk) : List (Path × Entry) :=
  let below := disk.entries.filter fun entry =>
    disk.workingDirectory.isSuffixOf entry.1 && entry.1 != disk.workingDirectory
  (below.map fun entry => (pathFrom disk.workingDirectory entry.1, entry.2)).mergeSort
    fun left right => left.1.text ≤ right.1.text

end Scaffold.Disk
