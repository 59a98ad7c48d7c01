/-!
Paths as text. A path is never normalised: joining and taking parents keep its spelling. Its
components leave out empty segments and every `.` but a leading one; its steps are what a walk
through the file system does one after another. Main statement: each component comes with the
prefix of the text that ends with it, and splitting loses nothing.
-/

namespace Scaffold

structure Path where
  text : String
deriving DecidableEq, Repr

namespace Path

def segments (path : Path) : List (List Char) :=
  path.text.toList.splitOn '/'

def ofSegments (segments : List (List Char)) : Path :=
  ⟨String.ofList (['/'].intercalate segments)⟩

theorem ofSegments_segments (path : Path) : ofSegments path.segments = path := by
  simp [ofSegments, segments, List.intercalate_splitOn]

def isEmpty (path : Path) : Bool := path.text.toList.isEmpty

def isAbsolute (path : Path) : Bool := path.text.toList.head? == some '/'

def endsWithSlash (path : Path) : Bool := path.text.toList.getLast? == some '/'

/-- An absolute part stands for itself; any other is put after the base, with a slash between
them if the base has text that does not end with one. -/
def join (base part : Path) : Path :=
  if part.isAbsolute then part
  else if base.isEmpty || base.endsWithSlash then ⟨base.text ++ part.text⟩
  else ⟨base.text ++ "/" ++ part.text⟩

theorem join_of_isAbsolute {base part : Path} (h : part.isAbsolute = true) :
    base.join part = part := by
  simp [join, h]

theorem join_of_isEmpty {base part : Path} (h : base.isEmpty = true) :
    base.join part = part := by
  have nil : base.text.toList = [] := List.isEmpty_iff.mp h
  have text : base.text = "" := String.toList_inj.mp (by rw [nil]; rfl)
  simp [join, h, text]

inductive Component where
  | root
  | here
  | up
  | name (text : List Char)
deriving DecidableEq, Repr

def componentOf? (isFirst : Bool) (segment : List Char) : Option Component :=
  if segment = [] then if isFirst then some .root else none
  else if segment = ['.'] then if isFirst then some .here else none
  else if segment = ['.', '.'] then some .up
  else some (.name segment)

/-- The components in the segments that follow `before`, each with the prefix that ends with it. -/
def partsAfter (before : List (List Char)) : List (List Char) → List (Component × Path)
  | [] => []
  | segment :: rest =>
    let ending := before ++ [segment]
    match componentOf? before.isEmpty segment with
    | none => partsAfter ending rest
    | some .root => (.root, ⟨"/"⟩) :: partsAfter ending rest
    | some component => (component, ofSegments ending) :: partsAfter ending rest

def parts (path : Path) : List (Component × Path) :=
  if path.isEmpty then [] else partsAfter [] path.segments

def components (path : Path) : List Component :=
  path.parts.map Prod.fst

/-- The path without its last component. A single name has the empty parent; the empty path and
the root have none. -/
def parent? (path : Path) : Option Path :=
  match path.parts.reverse with
  | [] => none
  | [(.root, _)] => none
  | [_] => some ⟨""⟩
  | _ :: (_, stem) :: _ => some stem

/-- The path and its ancestors, longest first, as far as they name directories that may be
missing: the root and the empty path are left out. -/
def chain (path : Path) : List Path :=
  match path.parts.reverse.filter (·.1 ≠ .root) with
  | [] => []
  | _ :: ancestors => path :: ancestors.map Prod.snd

inductive Step where
  | stay
  | up
  | into (name : String)
  | slash
deriving DecidableEq, Repr

def stepOf? (segment : List Char) : Option Step :=
  if segment = [] then none
  else if segment = ['.'] then some .stay
  else if segment = ['.', '.'] then some .up
  else some (.into (String.ofList segment))

def steps (path : Path) : List Step :=
  path.segments.filterMap stepOf? ++ if path.endsWithSlash then [.slash] else []

example : (Path.mk "a//b/./c/").parent? = some ⟨"a//b"⟩ := by decide
example : (Path.mk "./a").parent? = some ⟨"."⟩ := by decide
example : (Path.mk "/a").parent? = some ⟨"/"⟩ := by decide
example : (Path.mk "a/.").chain = [⟨"a/."⟩] := by decide
example : (Path.mk "x/../y").chain = [⟨"x/../y"⟩, ⟨"x/.."⟩, ⟨"x"⟩] := by decide

end Path

end Scaffold
