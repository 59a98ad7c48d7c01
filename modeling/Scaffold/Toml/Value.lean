import Scaffold.Decimal.Binary64

/-!
Values of a TOML document with the places where they were read, and the growth of a table while
a document is read: key by key, header by header. A table keeps how it came about, in braces, by its
own header, or on the way of a header or of a dotted key, which decides what may be added to it.
-/

namespace Scaffold.Toml

structure Span where
  start : Nat
  length : Nat
deriving DecidableEq, Repr

structure Key where
  name : String
  span : Span
deriving DecidableEq, Repr

inductive TableOrigin where
  | inline
  | header
  | implied
  | dotted
deriving DecidableEq, Repr

def TableOrigin.isImplicit : TableOrigin → Bool
  | implied | dotted => true
  | inline | header => false

inductive Value where
  | string (text : String)
  | integer (value : Int)
  | float (value : Binary64)
  | boolean (value : Bool)
  | moment (text : String)
  | array (ofHeaders : Bool) (items : List (Span × Value))
  | table (origin : TableOrigin) (entries : List (Key × Span × Value))

abbrev Entries := List (Key × Span × Value)

namespace Entries

def get? (entries : Entries) (name : String) : Option (Span × Value) :=
  (entries.find? (·.1.name == name)).map Prod.snd

def contains (entries : Entries) (name : String) : Bool :=
  entries.any (·.1.name == name)

def replace (entries : Entries) (name : String) (value : Span × Value) : Entries :=
  entries.map fun entry => if entry.1.name == name then (entry.1, value) else entry

def erase (entries : Entries) (name : String) : Entries :=
  entries.filter (·.1.name != name)

/-- Goes down a path of keys and changes the table at its end. Tables that are missing on the way
are made, for a dotted key or for a header. A path goes through the last of several tables with
headers; it does not enter a table in braces, and a dotted key enters none with a header. -/
def updateAt (isDotted : Bool) (change : TableOrigin → Entries → Option Entries) :
    List Key → TableOrigin → Entries → Option Entries
  | [], origin, entries => change origin entries
  | key :: path, _, entries =>
    match entries.get? key.name with
    | none =>
      let origin : TableOrigin := if isDotted then .dotted else .implied
      (updateAt isDotted change path origin []).map fun inner =>
        entries ++ [(key, key.span, .table origin inner)]
    | some (span, .table origin inner) =>
      if origin = .inline || (isDotted && !origin.isImplicit) then none
      else (updateAt isDotted change path origin inner).map fun changed =>
        entries.replace key.name (span, .table origin changed)
    | some (span, .array true items) =>
      match items.getLast? with
      | some (itemSpan, .table origin inner) =>
        (updateAt isDotted change path origin inner).map fun changed =>
          entries.replace key.name
            (span, .array true (items.dropLast ++ [(itemSpan, .table origin changed)]))
      | _ => none
    | some _ => none

/-- Adds a key that is not there yet. Dotted keys and plain keys do not mix in one table. -/
def addPair (path : List Key) (key : Key) (value : Span × Value) (origin : TableOrigin)
    (entries : Entries) : Option Entries :=
  let isDotted := !path.isEmpty
  let add (innerOrigin : TableOrigin) (inner : Entries) : Option Entries :=
    if (innerOrigin == .dotted) != isDotted || inner.contains key.name then none
    else some (inner ++ [(key, value)])
  updateAt isDotted add path origin entries

/-- Opens a table by its header, which may come once, also for a table that a header has implied
before. -/
def openTable (key : Key) (headerSpan : Span) (_ : TableOrigin) (entries : Entries) :
    Option Entries :=
  match entries.get? key.name with
  | none => some (entries ++ [(key, headerSpan, .table .header [])])
  | some (_, .table .implied inner) =>
    some (entries.erase key.name ++ [(key, headerSpan, .table .header inner)])
  | some _ => none

def openItem (key : Key) (headerSpan : Span) (_ : TableOrigin) (entries : Entries) :
    Option Entries :=
  let item : Span × Value := (headerSpan, .table .header [])
  match entries.get? key.name with
  | none => some (entries ++ [(key, headerSpan, .array true [item])])
  | some (span, .array true items) =>
    some (entries.replace key.name (span, .array true (items ++ [item])))
  | some _ => none

end Entries

end Scaffold.Toml
