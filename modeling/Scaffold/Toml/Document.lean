import Scaffold.Toml.Quoted
import Scaffold.Toml.Reserved

/-!
Whole documents. A document is a list of lines: pairs of a key and a value, and headers that say
which table the pairs after them belong to.
-/

namespace Scaffold.Toml

/-- How many brackets and braces may be open at once, and how many parts a key may have. -/
def maxDepth : Nat := 80

def isBareKeyChar (c : Char) : Bool := c.isAlphanum || c == '_' || c == '-'

namespace Reader

def keyPart : Reader Key := do
  let (span, name) ← spanned do
    match ← head? with
    | some '"' | some '\'' => ofFunction lineString?
    | _ => takeWhile isBareKeyChar
  if span.length = 0 then fail
  return ⟨String.ofList name, span⟩

def keyParts : Reader (List Key) := do
  let first ← keyPart
  return first :: (← loop (← rest).length)
where
  loop : Nat → Reader (List Key)
    | 0 => pure []
    | fuel + 1 => do
      blanks
      if ← accept '.' then
        blanks
        let part ← keyPart
        return part :: (← loop fuel)
      else return []

def key : Reader (List Key × Key) := do
  let parts ← keyParts
  match parts.getLast? with
  | none => fail
  | some last => if maxDepth < parts.length then fail else return (parts.dropLast, last)

def items {α : Type} (item : Reader α) (closing : Char) : Reader (List α) := do
  loop (← rest).length
where
  loop : Nat → Reader (List α)
    | 0 => fail
    | fuel + 1 => do
      between
      if ← accept closing then return []
      let first ← item
      between
      if ← accept ',' then return first :: (← loop fuel)
      literal [closing]
      return [first]

def pair (filler : Reader Unit) (value : Reader (Span × Value)) :
    Reader ((List Key × Key) × Span × Value) := do
  let key ← key
  filler
  literal ['=']
  filler
  return (key, ← value)

def addPairs (pairs : List ((List Key × Key) × Span × Value)) : Option Entries :=
  pairs.foldlM (fun entries ((path, key), value) => entries.addPair path key value .inline) []

def scalar : Reader Value := do
  let word := scalarWord (← rest)
  literal word
  ofFunction fun rest => (scalar? word).map (·, rest)

/-- A value with at most `depth` brackets and braces open at once. Pairs in braces may spread over
several lines. -/
def value (depth : Nat) : Reader (Span × Value) := spanned do
  match ← head? with
  | some '"' | some '\'' => return .string (String.ofList (← ofFunction anyString?))
  | some '[' =>
    match depth with
    | 0 => fail
    | depth + 1 =>
      literal ['[']
      return .array false (← items (value depth) ']')
  | some '\x7b' =>
    match depth with
    | 0 => fail
    | depth + 1 =>
      literal ['\x7b']
      let pairs ← items (pair between (value depth)) '\x7d'
      ofFunction fun rest => (addPairs pairs).map (.table .inline ·, rest)
  | _ => scalar

end Reader

inductive Statement where
  | header (isItem : Bool) (path : List Key) (key : Key) (span : Span)
  | pair (path : List Key) (key : Key) (value : Span × Value)

namespace Reader

def header : Reader Statement := do
  let (span, isItem, path, key) ← spanned do
    literal ['[']
    let isItem ← accept '['
    blanks
    let (path, key) ← key
    blanks
    literal (if isItem then [']', ']'] else [']'])
    return (isItem, path, key)
  return .header isItem path key span

def line : Reader (Option Statement) := do
  blanks
  let statement ← content (← head?)
  blanks
  comment?
  lineEnd
  return statement
where
  content : Option Char → Reader (Option Statement)
    | none | some '#' | some '\n' | some '\r' => pure none
    | some '[' => some <$> header
    | some _ => do
      let ((path, key), value) ← pair blanks (value maxDepth)
      return some (.pair path key value)

/-- A mark of the byte order at the very start says nothing. -/
def statements : Reader (List Statement) := do
  let _ ← accept '\ufeff'
  loop ((← rest).length + 1)
where
  loop : Nat → Reader (List Statement)
    | 0 => fail
    | fuel + 1 => do
      if (← rest).isEmpty then return []
      let statement ← line
      return statement.toList ++ (← loop fuel)

end Reader

structure Growth where
  root : Entries
  current : List Key

namespace Growth

def empty : Growth := ⟨[], []⟩

def add? (growth : Growth) : Statement → Option Growth
  | .header isItem path key span =>
    let change := if isItem then Entries.openItem key span else Entries.openTable key span
    (Entries.updateAt false change path .header growth.root).map (⟨·, path ++ [key]⟩)
  | .pair path key value =>
    (Entries.updateAt false (fun origin entries => entries.addPair path key value origin)
      growth.current .header growth.root).map (⟨·, growth.current⟩)

end Growth

/-- The top table of a document, or `none` for a text that is not well-formed. The top table itself
stands for no date or time, whatever its keys. -/
def document? (text : String) : Option Entries := do
  let chars := text.toList
  let (statements, _) ← Reader.statements (byteLength chars) chars
  let growth ← statements.foldlM Growth.add? Growth.empty
  if areEntriesReadable growth.root then some growth.root else none

end Scaffold.Toml
