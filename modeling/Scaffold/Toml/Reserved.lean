import Scaffold.Toml.Scalar

/-!
Tables that stand for dates and times. Where values are read without knowing what they are for, a
date or a time is a table with a reserved key. A table with this key as its first one, in the order
of names, is therefore taken for a date or a time and has to hold the text of one.
-/

namespace Scaffold.Toml

def reservedName : String := "$__toml_private_datetime"

/-- The value of the reserved key, unless a key with a smaller name comes before it. -/
def Entries.reserved? (entries : Entries) : Option Value :=
  if entries.all fun entry => reservedName ≤ entry.1.name then
    (entries.get? reservedName).map Prod.snd
  else none

def Value.isMomentText : Value → Bool
  | .string text => isMoment text.toList
  | _ => false

mutual

/-- Whether all tables in a value that stand for dates and times hold the text of one. Their other
keys do not matter. -/
def Value.isReadable : Value → Bool
  | .array _ items => areItemsReadable items
  | .table _ entries =>
    match Entries.reserved? entries with
    | some value => value.isMomentText
    | none => areEntriesReadable entries
  | _ => true

def areItemsReadable : List (Span × Value) → Bool
  | [] => true
  | (_, value) :: items => value.isReadable && areItemsReadable items

def areEntriesReadable : List (Key × Span × Value) → Bool
  | [] => true
  | (_, _, value) :: entries => value.isReadable && areEntriesReadable entries

end

end Scaffold.Toml
