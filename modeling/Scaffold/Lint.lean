import Scaffold.Request
import Scaffold.Text.Blank

/-!
Lints: warnings about a request that is fit to be carried out but likely needs hand editing
afterwards.
-/

namespace Scaffold

structure Diagnostic where
  lint : String
  message : String
  location : Option String
deriving DecidableEq, Repr

namespace Diagnostic

def warning (lint message : String) : Diagnostic :=
  ⟨lint, message, none⟩

def locatedAt (diagnostic : Diagnostic) (location : String) : Diagnostic :=
  { diagnostic with location := some location }

def display (diagnostic : Diagnostic) : String :=
  match diagnostic.location with
  | none => diagnostic.message
  | some location => diagnostic.message ++ " (at " ++ location ++ ")"

end Diagnostic

inductive Lint where
  | redundantPrefix
  | emptyDescription
  | commentBreakingText
deriving DecidableEq, Repr

namespace Lint

def all : List Lint := [redundantPrefix, emptyDescription, commentBreakingText]

def name : Lint → String
  | redundantPrefix => "redundant-prefix"
  | emptyDescription => "empty-description"
  | commentBreakingText => "comment-breaking-text"

def ofName? (text : String) : Option Lint :=
  all.find? (·.name == text)

inductive CommentBreak where
  | terminator
  | lineBreak
deriving DecidableEq, Repr

def CommentBreak.reason : CommentBreak → String
  | terminator => "contains '*/'"
  | lineBreak => "contains a line break"

def hasTerminator : List Char → Bool
  | [] => false
  | c :: rest => (c == '*' && rest.head? == some '/') || hasTerminator rest

def commentBreak? (text : String) : Option CommentBreak :=
  if hasTerminator text.toList then some .terminator
  else if text.toList.any fun c => c == '\n' || c == '\r' then some .lineBreak
  else none

/-- What is left of a name after the mark that it starts with, unless that is nothing. -/
def unmarked? (shortName : String) : Option String :=
  if symbolMark.toList.isPrefixOf shortName.toList
      && shortName.toList.length != symbolMark.toList.length then
    some (String.ofList (shortName.toList.drop symbolMark.toList.length))
  else none

def checkFreeText (field text : String) : List Diagnostic :=
  match commentBreak? text with
  | none => []
  | some found =>
    [(Diagnostic.warning commentBreakingText.name
      (field ++ " " ++ found.reason ++ "; the generated comment will be broken")).locatedAt field]

def check (request : Request) : Lint → List Diagnostic
  | redundantPrefix =>
    match unmarked? request.shortName with
    | none => []
    | some rest =>
      [(Diagnostic.warning redundantPrefix.name
        ("'" ++ request.shortName ++ "' already starts with " ++ symbolMark ++
          "; the type will be named '" ++ symbolMark ++ request.shortName ++
          "' (did you mean '" ++ rest ++ "'?)")).locatedAt "name"]
  | emptyDescription =>
    if Text.isBlank request.description then
      [(Diagnostic.warning emptyDescription.name
        ("structure '" ++ request.shortName ++ "' has no description")).locatedAt "description"]
    else []
  | commentBreakingText =>
    checkFreeText "author" request.author ++ checkFreeText "description" request.description

end Lint

def Request.lint (request : Request) : List Diagnostic :=
  Lint.all.flatMap (·.check request)

theorem Request.lint_eq (request : Request) :
    request.lint = Lint.redundantPrefix.check request ++ (Lint.emptyDescription.check request ++
      Lint.commentBreakingText.check request) := by
  simp [lint, Lint.all]

end Scaffold
