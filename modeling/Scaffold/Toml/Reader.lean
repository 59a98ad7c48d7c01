import Scaffold.Toml.Value

/-!
Readers: functions that take a piece off the front of a text or refuse it, and the places of what
they take. A place is counted from the end of the text while reading, because the rest of the text
is all that a reader carries.
-/

namespace Scaffold.Toml

/-- Reads from a document of which the length in bytes is known. -/
abbrev Reader := ReaderT Nat (StateT (List Char) Option)

def byteLength (chars : List Char) : Nat :=
  chars.foldr (fun char length => char.utf8Size + length) 0

namespace Reader

def ofFunction {α : Type} (read : List Char → Option (α × List Char)) : Reader α :=
  fun _ rest => read rest

def fail {α : Type} : Reader α := fun _ _ => none

def rest : Reader (List Char) := fun _ rest => some (rest, rest)

def head? : Reader (Option Char) := fun _ rest => some (rest.head?, rest)

def position : Reader Nat := fun total rest => some (total - byteLength rest, rest)

def spanned {α : Type} (read : Reader α) : Reader (Span × α) := do
  let start ← position
  let value ← read
  let stop ← position
  return (⟨start, stop - start⟩, value)

def takeWhile (accepts : Char → Bool) : Reader (List Char) := fun _ rest =>
  some (rest.takeWhile accepts, rest.dropWhile accepts)

def literal (expected : List Char) : Reader Unit := fun _ rest =>
  if expected.isPrefixOf rest then some ((), rest.drop expected.length) else none

def accept (char : Char) : Reader Bool := fun _ rest =>
  match rest with
  | [] => some (false, rest)
  | next :: following => if next = char then some (true, following) else some (false, rest)

end Reader

def isBlankInLine (c : Char) : Bool := c == ' ' || c == '\t'

/-- The characters of comments, and of strings but for their own marks: all but the control
characters, and the tab among those. -/
def isPlainChar (c : Char) : Bool := c == '\t' || (0x20 ≤ c.toNat && c != '\x7f')

def dropLineBreak? : List Char → Option (List Char)
  | '\n' :: rest => some rest
  | '\r' :: '\n' :: rest => some rest
  | _ => none

namespace Reader

def blanks : Reader Unit := do
  let _ ← takeWhile isBlankInLine

def comment? : Reader Unit := do
  if ← accept '#' then
    let _ ← takeWhile isPlainChar

def lineEnd : Reader Unit := fun _ rest =>
  match rest with
  | [] => some ((), [])
  | _ => (dropLineBreak? rest).map ((), ·)

def between : Reader Unit := do
  loop (← rest).length
where
  loop : Nat → Reader Unit
    | 0 => pure ()
    | fuel + 1 => do
      blanks
      match ← head? with
      | some '#' =>
        comment?
        lineEnd
        loop fuel
      | some '\n' | some '\r' =>
        lineEnd
        loop fuel
      | _ => pure ()

end Reader

end Scaffold.Toml
