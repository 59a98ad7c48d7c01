import Scaffold.Toml.Reader

/-!
Strings in their four notations: between double or single quotes, on one line or on several. Only
double quotes know escapes.
-/

namespace Scaffold.Toml

def hexValue? (c : Char) : Option Nat :=
  if '0' ≤ c ∧ c ≤ '9' then some (c.toNat - '0'.toNat)
  else if 'a' ≤ c ∧ c ≤ 'f' then some (c.toNat - 'a'.toNat + 10)
  else if 'A' ≤ c ∧ c ≤ 'F' then some (c.toNat - 'A'.toNat + 10)
  else none

def hexChar? (count : Nat) (rest : List Char) : Option (Char × List Char) := do
  let digits ← (rest.take count).mapM hexValue?
  let code := digits.foldl (fun value digit => value * 16 + digit) 0
  if digits.length = count ∧ code.isValidChar then some (Char.ofNat code, rest.drop count)
  else none

def escape? : List Char → Option (Char × List Char)
  | 'b' :: rest => some ('\x08', rest)
  | 't' :: rest => some ('\t', rest)
  | 'n' :: rest => some ('\n', rest)
  | 'f' :: rest => some ('\x0c', rest)
  | 'r' :: rest => some ('\r', rest)
  | 'e' :: rest => some ('\x1b', rest)
  | '"' :: rest => some ('"', rest)
  | '\\' :: rest => some ('\\', rest)
  | 'x' :: rest => hexChar? 2 rest
  | 'u' :: rest => hexChar? 4 rest
  | 'U' :: rest => hexChar? 8 rest
  | _ => none

def basicBody? : Nat → List Char → Option (List Char × List Char)
  | 0, _ => none
  | _, [] => none
  | _, '"' :: rest => some ([], rest)
  | fuel + 1, '\\' :: rest => do
    let (char, rest) ← escape? rest
    let (text, rest) ← basicBody? fuel rest
    return (char :: text, rest)
  | fuel + 1, char :: rest => do
    if !isPlainChar char then none
    let (text, rest) ← basicBody? fuel rest
    return (char :: text, rest)

def literalBody? (rest : List Char) : Option (List Char × List Char) :=
  let text := rest.takeWhile fun c => c != '\'' && isPlainChar c
  match rest.drop text.length with
  | '\'' :: rest => some (text, rest)
  | _ => none

/-- Up to five quotes in a row end a string on several lines; those before the last three belong
to it. -/
def closingQuotes? (quote : Char) (rest : List Char) : Option (List Char × List Char) :=
  let count := min 5 (rest.takeWhile (· == quote)).length
  if 3 ≤ count then some (List.replicate (count - 3) quote, rest.drop count) else none

def dropBlankLines : List Char → List Char
  | '\r' :: '\n' :: rest => dropBlankLines rest
  | c :: rest => if isBlankInLine c || c == '\n' then dropBlankLines rest else c :: rest
  | [] => []

/-- A backslash at the end of a line takes away all blanks and line breaks after it. -/
def lineContinuation? (rest : List Char) : Option (List Char) :=
  (dropLineBreak? (rest.dropWhile isBlankInLine)).map dropBlankLines

def multilineBody? (quote : Char) (escapes : Bool) :
    Nat → List Char → Option (List Char × List Char)
  | 0, _ => none
  | _, [] => none
  | fuel + 1, char :: rest => do
    if let some closing := closingQuotes? quote (char :: rest) then
      return closing
    if char = '\\' ∧ escapes then
      match lineContinuation? rest with
      | some rest => multilineBody? quote escapes fuel rest
      | none =>
        let (escaped, rest) ← escape? rest
        let (text, rest) ← multilineBody? quote escapes fuel rest
        return (escaped :: text, rest)
    else
      match dropLineBreak? (char :: rest) with
      | some following =>
        let (text, final) ← multilineBody? quote escapes fuel following
        return ((char :: rest).take (rest.length + 1 - following.length) ++ text, final)
      | none =>
        if !isPlainChar char then none
        let (text, rest) ← multilineBody? quote escapes fuel rest
        return (char :: text, rest)

/-- A line break right after the opening quotes does not belong to the string. -/
def multiline? (quote : Char) (escapes : Bool) (rest : List Char) :
    Option (List Char × List Char) :=
  let body := (dropLineBreak? rest).getD rest
  multilineBody? quote escapes (body.length + 1) body

def lineString? : List Char → Option (List Char × List Char)
  | '"' :: rest => basicBody? (rest.length + 1) rest
  | '\'' :: rest => literalBody? rest
  | _ => none

def anyString? : List Char → Option (List Char × List Char)
  | '"' :: '"' :: '"' :: rest => multiline? '"' true rest
  | '\'' :: '\'' :: '\'' :: rest => multiline? '\'' false rest
  | rest => lineString? rest

end Scaffold.Toml
