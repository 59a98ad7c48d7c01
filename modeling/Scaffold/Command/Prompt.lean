import Scaffold.Script

/-!
Prompts and their answers from piped input. Each prompt is printed and answered by the next line.
Main statement: a line and what follows it make up the input.
-/

namespace Scaffold

inductive Prompt where
  | name
  | author
  | description
  | overwrite
deriving DecidableEq, Repr

namespace Prompt

def text : Prompt → String
  | name => "Enter the name of the new structure (Do not include CB)"
  | author => "Enter your first and last name"
  | description => "Enter a description for the structure"
  | overwrite => "This name conflicts with a previous name. Overwrite? (Y/N)"

def question (prompt : Prompt) : String := prompt.text ++ ": "

def yes : String := "Y"

def isYes (answer : String) : Bool := answer == yes

theorem isYes_iff {answer : String} : isYes answer = true ↔ answer = "Y" := by
  simp [isYes, yes]

end Prompt

structure AnswerError where
  prompt : Prompt
  fault : Fault
deriving DecidableEq, Repr

def AnswerError.message (error : AnswerError) : String :=
  "Failed to read input for '" ++ error.prompt.text ++ "'"

abbrev Dialogue := Script Prompt (Except Fault String)

namespace Prompt

def ask (prompt : Prompt) : Dialogue (Except AnswerError String) := do
  return (← Script.query prompt).mapError (⟨prompt, ·⟩)

def askUnless (prompt : Prompt) : Option String → Dialogue (Except AnswerError String)
  | some answer => return .ok answer
  | none => prompt.ask

def askOverwrite : Dialogue (Except AnswerError Bool) := do
  return (← overwrite.ask).map isYes

end Prompt

structure Console where
  input : List UInt8
  output : String
deriving DecidableEq

namespace Console

def lineFeed : UInt8 := 10

def splitLine : List UInt8 → List UInt8 × List UInt8
  | [] => ([], [])
  | byte :: rest =>
    if byte = lineFeed then ([byte], rest)
    else
      let (line, following) := splitLine rest
      (byte :: line, following)

def dropEnd (char : Char) (text : List Char) : List Char :=
  if text.getLast? = some char then text.dropLast else text

/-- A line without its end, which is a line feed with or without a carriage return before it. -/
def withoutEnd (line : String) : String :=
  String.ofList (dropEnd '\r' (dropEnd '\n' line.toList))

def reply (line : List UInt8) : Except Fault String :=
  match String.fromUTF8? ⟨line.toArray⟩ with
  | some text => .ok (withoutEnd text)
  | none => .error .notUnicode

/-- Prints a prompt and takes the next line; the end of the input reads as an empty line. -/
def answer (prompt : Prompt) (console : Console) : Except Fault String × Console :=
  let (line, rest) := splitLine console.input
  (reply line, ⟨rest, console.output ++ prompt.question⟩)

end Console

end Scaffold
