import Scaffold.Date
import Scaffold.Toml.Value

/-!
Values without quotes or brackets: booleans, numbers, and dates and times. Each of them is spelled
by one word, save that a blank may stand between a date and a time.
-/

namespace Scaffold.Toml

def isDecimalDigit (c : Char) : Bool := '0' ≤ c && c ≤ '9'

def isWordChar (c : Char) : Bool :=
  c.isAlphanum || c == '+' || c == '-' || c == '_' || c == '.' || c == ':'

def splitSign : List Char → Option Bool × List Char
  | '+' :: rest => (some false, rest)
  | '-' :: rest => (some true, rest)
  | text => (none, text)

def groupedDigits? (accepts : Char → Bool) (text : List Char) : Option (List Char) :=
  let groups := text.splitOn '_'
  if groups.all fun group => !group.isEmpty && group.all accepts then some groups.flatten else none

def digitValue (c : Char) : Nat :=
  if c ≤ '9' then c.toNat - '0'.toNat
  else if c ≤ 'F' then c.toNat - 'A'.toNat + 10
  else c.toNat - 'a'.toNat + 10

def digitsValue (radix : Nat) (digits : List Char) : Nat :=
  digits.foldl (fun value digit => value * radix + digitValue digit) 0

/-- Decimal digits of a whole number, which has no zero in front. -/
def wholeDigits? (text : List Char) : Option (List Char) := do
  let digits ← groupedDigits? isDecimalDigit text
  if digits.head? = some '0' ∧ digits ≠ ['0'] then none else some digits

def maxInteger : Int := 9223372036854775807

def minInteger : Int := -9223372036854775808

def integerInRange? (value : Int) : Option Value :=
  if minInteger ≤ value ∧ value ≤ maxInteger then some (.integer value) else none

/-- An integer in base ten with an optional sign, or in base two, eight or sixteen without. -/
def integer? : List Char → Option Value
  | '0' :: 'x' :: text => ofRadix 16 Char.isHexDigit text
  | '0' :: 'o' :: text => ofRadix 8 (fun c => '0' ≤ c && c ≤ '7') text
  | '0' :: 'b' :: text => ofRadix 2 (fun c => c == '0' || c == '1') text
  | text => do
    let (sign, text) := splitSign text
    let magnitude : Int := digitsValue 10 (← wholeDigits? text)
    integerInRange? (if sign = some true then -magnitude else magnitude)
where
  ofRadix (radix : Nat) (accepts : Char → Bool) (text : List Char) : Option Value := do
    integerInRange? (digitsValue radix (← groupedDigits? accepts text))

def exponent? : List Char → Option Int
  | [] => some 0
  | _ :: text => do
    let (sign, text) := splitSign text
    let magnitude : Int := digitsValue 10 (← groupedDigits? isDecimalDigit text)
    return if sign = some true then -magnitude else magnitude

def fraction? : List Char → Option (List Char)
  | [] => some []
  | _ :: text => groupedDigits? isDecimalDigit text

def float? (text : List Char) : Option Value := do
  let (sign, text) := splitSign text
  let negative := sign == some true
  if text = ['i', 'n', 'f'] then return .float (.infinite negative)
  if text = ['n', 'a', 'n'] then return .float .nan
  let significand := text.takeWhile fun c => c != 'e' && c != 'E'
  let whole := significand.takeWhile (· != '.')
  if whole = text then none
  let wholeDigits ← wholeDigits? whole
  let fractionDigits ← fraction? (significand.drop whole.length)
  let exponent ← exponent? (text.drop significand.length)
  let digits := digitsValue 10 (wholeDigits ++ fractionDigits)
  (Binary64.ofDecimal? negative digits (exponent - fractionDigits.length)).map .float

def fixedDigits? (count : Nat) (text : List Char) : Option (Nat × List Char) :=
  let digits := text.take count
  if digits.length = count ∧ digits.all isDecimalDigit then
    some (digitsValue 10 digits, text.drop count)
  else none

def dropChar? (expected : Char) : List Char → Option (List Char)
  | [] => none
  | c :: rest => if c = expected then some rest else none

def dropDate? (text : List Char) : Option (List Char) := do
  let (year, text) ← fixedDigits? 4 text
  let (month, text) ← fixedDigits? 2 (← dropChar? '-' text)
  let (day, text) ← fixedDigits? 2 (← dropChar? '-' text)
  if IsCalendarDay year month day then some text else none

def dropHourAndMinute? (text : List Char) : Option (List Char) := do
  let (hour, text) ← fixedDigits? 2 text
  let (minute, text) ← fixedDigits? 2 (← dropChar? ':' text)
  if hour ≤ 23 ∧ minute ≤ 59 then some text else none

def dropPlaces? : List Char → Option (List Char)
  | '.' :: text =>
    let places := text.takeWhile isDecimalDigit
    if places = [] then none else some (text.drop places.length)
  | text => some text

/-- What follows a time, of which the seconds may be left out. A leap second counts as the
sixtieth. -/
def dropTime? (text : List Char) : Option (List Char) := do
  match ← dropHourAndMinute? text with
  | ':' :: text =>
    let (second, text) ← fixedDigits? 2 text
    if second ≤ 60 then dropPlaces? text else none
  | text => some text

def isOffset : List Char → Bool
  | [] | ['Z'] | ['z'] => true
  | '+' :: text | '-' :: text => dropHourAndMinute? text == some []
  | _ => false

def isMoment (text : List Char) : Bool :=
  match dropDate? text with
  | none => dropTime? text == some []
  | some [] => true
  | some (separator :: text) =>
    (separator == 'T' || separator == 't' || separator == ' ') && (dropTime? text).any isOffset

def moment? (text : List Char) : Option Value :=
  if isMoment text then some (.moment (String.ofList text)) else none

def boolean? (text : List Char) : Option Value :=
  if text = ['t', 'r', 'u', 'e'] then some (.boolean true)
  else if text = ['f', 'a', 'l', 's', 'e'] then some (.boolean false)
  else none

def scalar? (text : List Char) : Option Value :=
  boolean? text <|> integer? text <|> float? text <|> moment? text

/-- The word at the front of a text; a date and a time with a blank between them are one word. -/
def scalarWord (text : List Char) : List Char :=
  let word := text.takeWhile isWordChar
  match text.drop word.length with
  | ' ' :: c :: rest =>
    if dropDate? word = some [] ∧ isDecimalDigit c then
      word ++ ' ' :: (c :: rest).takeWhile isWordChar
    else word
  | _ => word

end Scaffold.Toml
