import Scaffold.Text.Uppercase

/-!
The C symbols of an object type. All of them are spelled from one short name: `Widget` gives the
type `CBWidget`, the constructor `CBNewWidget` and so on. Only the include guard is uppercased.
-/

namespace Scaffold

def symbolMark : String := "CB"

structure Symbols where
  shortName : String
  typeName : String
  constructor : String
  getter : String
  init : String
  free : String
  guard : String
  fileBase : String
deriving DecidableEq, Repr

namespace Symbols

def derive (shortName : String) : Symbols where
  shortName := shortName
  typeName := symbolMark ++ shortName
  constructor := symbolMark ++ "New" ++ shortName
  getter := symbolMark ++ "Get" ++ shortName
  init := symbolMark ++ "Init" ++ shortName
  free := symbolMark ++ "Free" ++ shortName
  guard := symbolMark ++ Text.uppercase shortName ++ "H"
  fileBase := symbolMark ++ shortName

def baseName : String := "Object"

def base : Symbols := derive baseName

def headerFile (symbols : Symbols) : String := symbols.fileBase ++ ".h"

def sourceFile (symbols : Symbols) : String := symbols.fileBase ++ ".c"

theorem derive_injective {left right : String} (h : derive left = derive right) : left = right :=
  congrArg Symbols.shortName h

end Symbols

inductive NameProblem where
  | empty
  | invalidChar (char : Char) (index : Nat)
deriving DecidableEq, Repr

def NameProblem.message : NameProblem → String
  | empty => "the name is empty"
  | invalidChar char index =>
    "'" ++ char.toString ++ "' at position " ++ toString index ++
      " is not allowed in a C identifier"

/-- The characters of C identifiers. A digit may come first, because every symbol starts with
`symbolMark`. -/
def isNameChar (c : Char) : Bool :=
  c.isAlphanum || c == '_'

def checkName (name : String) : Except NameProblem Unit :=
  if name.toList.isEmpty then .error .empty
  else match name.toList.zipIdx.find? (!isNameChar ·.1) with
    | some (char, index) => .error (.invalidChar char index)
    | none => .ok ()

theorem checkName_eq_ok_iff {name : String} :
    checkName name = .ok () ↔ name.toList ≠ [] ∧ ∀ c ∈ name.toList, isNameChar c = true := by
  have find_none : name.toList.zipIdx.find? (!isNameChar ·.1) = none ↔
      ∀ c ∈ name.toList, isNameChar c = true := by
    rw [List.find?_eq_none]
    constructor
    · intro all c mem
      obtain ⟨index, bound, rfl⟩ := List.getElem_of_mem mem
      simpa using all (name.toList[index], index)
        (List.mk_mem_zipIdx_iff_getElem?.mpr (List.getElem?_eq_getElem bound))
    · intro all entry mem
      simp [all entry.1 (List.fst_mem_of_mem_zipIdx mem)]
  rw [← find_none]
  unfold checkName
  split
  · next isEmpty => simp [List.isEmpty_iff.mp isEmpty]
  · next notEmpty =>
    have ne : name.toList ≠ [] := fun h => notEmpty (List.isEmpty_iff.mpr h)
    split
    · next found => rw [found]; simp
    · next found => simp only [found, ne, ne_eq, not_false_eq_true, and_self]

end Scaffold
