import Scaffold.Path

/-!
The grammar of the command line. Words are read from left to right, and the first one that is wrong
ends the reading, as does the first one that asks for help or for the version.
-/

namespace Scaffold

inductive ValueOption where
  | author
  | description
  | root
  | config
deriving DecidableEq, Repr

namespace ValueOption

def all : List ValueOption := [author, description, root, config]

def long : ValueOption → String
  | author => "author"
  | description => "description"
  | root => "root"
  | config => "config"

def short : ValueOption → Char
  | author => 'a'
  | description => 'd'
  | root => 'r'
  | config => 'c'

def refusesEmpty : ValueOption → Bool
  | author | description => false
  | root | config => true

end ValueOption

inductive Switch where
  | checkedInit
  | dryRun
  | yes
deriving DecidableEq, Repr

namespace Switch

def all : List Switch := [checkedInit, dryRun, yes]

def long : Switch → String
  | checkedInit => "checked-init"
  | dryRun => "dry-run"
  | yes => "yes"

def short? : Switch → Option Char
  | yes => some 'y'
  | checkedInit | dryRun => none

end Switch

inductive Shell where
  | bash
  | elvish
  | fish
  | powershell
  | zsh
deriving DecidableEq, Repr

namespace Shell

def all : List Shell := [bash, elvish, fish, powershell, zsh]

def name : Shell → String
  | bash => "bash"
  | elvish => "elvish"
  | fish => "fish"
  | powershell => "powershell"
  | zsh => "zsh"

def ofName? (text : String) : Option Shell :=
  all.find? (·.name == text)

end Shell

inductive Misuse where
  | missingCommand
  | unknownCommand (word : String)
  | unexpectedArgument (word : String)
  | unknownOption (word : String)
  | repeatedOption (name : String)
  | missingValue (name : String)
  | emptyValue (name : String)
  | unexpectedValue (name : String)
  | missingShell
  | unknownShell (word : String)
deriving DecidableEq, Repr

inductive Detour where
  | help
  | version
  | misuse (misuse : Misuse)
deriving DecidableEq, Repr

structure NewArguments where
  name : Option String
  values : List (ValueOption × String)
  switches : List Switch
deriving DecidableEq, Repr

inductive OptionWord where
  | long (name : String) (value : Option String)
  | short (letters : List Char)
deriving DecidableEq, Repr

namespace OptionWord

def ofWord? (word : String) : Option OptionWord :=
  match word.toList with
  | ['-'] | ['-', '-'] => none
  | '-' :: '-' :: text =>
    let name := text.takeWhile (· != '=')
    let value := if name = text then none else some (String.ofList (text.drop (name.length + 1)))
    some (.long (String.ofList name) value)
  | '-' :: letters => some (.short letters)
  | _ => none

end OptionWord

def endOfOptions : String := "--"

def startsOption (word : String) : Bool :=
  word.toList.head? == some '-' && word != "-"

namespace NewArguments

def empty : NewArguments := ⟨none, [], []⟩

def value? (arguments : NewArguments) (option : ValueOption) : Option String :=
  arguments.values.lookup option

def has (arguments : NewArguments) (switch : Switch) : Bool :=
  arguments.switches.contains switch

def root (arguments : NewArguments) : Path :=
  ⟨(arguments.value? .root).getD "."⟩

def configFile? (arguments : NewArguments) : Option Path :=
  (arguments.value? .config).map Path.mk

def setValue (arguments : NewArguments) (option : ValueOption) (value : String) :
    Except Detour NewArguments :=
  if (arguments.value? option).isSome then .error (.misuse (.repeatedOption option.long))
  else if option.refusesEmpty && value.isEmpty then .error (.misuse (.emptyValue option.long))
  else .ok { arguments with values := arguments.values ++ [(option, value)] }

def setSwitch (arguments : NewArguments) (switch : Switch) : Except Detour NewArguments :=
  if arguments.has switch then .error (.misuse (.repeatedOption switch.long))
  else .ok { arguments with switches := arguments.switches ++ [switch] }

def setName (arguments : NewArguments) (word : String) : Except Detour NewArguments :=
  match arguments.name with
  | some _ => .error (.misuse (.unexpectedArgument word))
  | none => .ok { arguments with name := some word }

abbrev Progress := NewArguments × Option ValueOption

def readLong (arguments : NewArguments) (name : String) (value : Option String) :
    Except Detour Progress :=
  match ValueOption.all.find? (·.long == name), Switch.all.find? (·.long == name), value with
  | some option, _, some value => return (← arguments.setValue option value, none)
  | some option, _, none => .ok (arguments, some option)
  | none, some _, some _ => .error (.misuse (.unexpectedValue name))
  | none, some switch, none => return (← arguments.setSwitch switch, none)
  | none, none, none =>
    .error (if name = "help" then .help else .misuse (.unknownOption name))
  | none, none, some _ =>
    .error (.misuse (if name = "help" then .unexpectedValue name else .unknownOption name))

/-- Letters after one hyphen are switches, up to an option that takes the rest as its value. An
equals sign before the value does not belong to it. -/
def readShort (arguments : NewArguments) : List Char → Except Detour Progress
  | [] => .ok (arguments, none)
  | letter :: rest =>
    match ValueOption.all.find? (·.short == letter) with
    | some option =>
      match rest with
      | [] => .ok (arguments, some option)
      | '=' :: value => return (← arguments.setValue option (String.ofList value), none)
      | value => return (← arguments.setValue option (String.ofList value), none)
    | none =>
      match Switch.all.find? (·.short? == some letter) with
      | some switch => do readShort (← arguments.setSwitch switch) rest
      | none => .error (if letter = 'h' then .help else .misuse (.unknownOption letter.toString))

def readWord (arguments : NewArguments) (word : String) : Except Detour Progress :=
  match OptionWord.ofWord? word with
  | some (.long name value) => arguments.readLong name value
  | some (.short letters) => arguments.readShort letters
  | none => return (← arguments.setName word, none)

def read : NewArguments → Option ValueOption → List String → Except Detour NewArguments
  | arguments, none, [] => .ok arguments
  | _, some option, [] => .error (.misuse (.missingValue option.long))
  | arguments, some option, word :: rest => do
    if startsOption word then throw (.misuse (.missingValue option.long))
    read (← arguments.setValue option word) none rest
  | arguments, none, word :: rest => do
    if word = endOfOptions then rest.foldlM setName arguments
    else
      let (arguments, pending) ← arguments.readWord word
      read arguments pending rest

end NewArguments

inductive Invocation where
  | new (arguments : NewArguments)
  | completions (shell : Shell)
deriving DecidableEq, Repr

namespace Invocation

def readShell (shell? : Option Shell) (word : String) : Except Detour (Option Shell) :=
  match shell?, Shell.ofName? word with
  | some _, _ => .error (.misuse (.unexpectedArgument word))
  | none, none => .error (.misuse (.unknownShell word))
  | none, some shell => .ok (some shell)

def readShells : Option Shell → List String → Except Detour (Option Shell)
  | shell?, [] => .ok shell?
  | shell?, word :: rest => do
    if word = endOfOptions then rest.foldlM readShell shell?
    else
      match OptionWord.ofWord? word with
      | some (.long "help" none) | some (.short ('h' :: _)) => throw .help
      | some _ => throw (.misuse (.unknownOption word))
      | none => readShells (← readShell shell? word) rest

def readHelp : List String → Detour
  | [] | ["new"] | ["completions"] | ["help"] => .help
  | word :: _ => .misuse (.unknownCommand word)

def ofWords : List String → Except Detour Invocation
  | [] => .error (.misuse .missingCommand)
  | "new" :: rest => return .new (← NewArguments.empty.read none rest)
  | "completions" :: rest => do
    match ← readShells none rest with
    | some shell => return .completions shell
    | none => throw (.misuse .missingShell)
  | "help" :: rest => .error (readHelp rest)
  | word :: _ =>
    match OptionWord.ofWord? word with
    | some (.long "version" none) | some (.short ('V' :: _)) => .error .version
    | some (.long "help" none) | some (.short ('h' :: _)) => .error .help
    | some _ => .error (.misuse (.unknownOption word))
    | none => .error (.misuse (.unknownCommand word))

end Invocation

end Scaffold
