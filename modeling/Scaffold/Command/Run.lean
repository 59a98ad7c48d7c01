import Scaffold.Command.Arguments
import Scaffold.Command.Prompt
import Scaffold.Config.Load
import Scaffold.Creation

/-!
One run of the program: the configuration is loaded, then missing fields are asked for, then the
name is checked, and only then the disk is changed. How a run ends says what was asked for, failed
or misused; the help, the completions and the words about a misuse are not laid out here.
-/

namespace Scaffold

inductive RunFailure where
  | config (error : Config.LoadError)
  | answer (error : AnswerError)
  | name (error : InvalidName)
  | disk (failure : DiskFailure)
deriving DecidableEq

def RunFailure.message : RunFailure → String
  | config error => error.message
  | answer error => error.message
  | name error => error.message
  | disk failure => failure.message

namespace NewArguments

def loadConfig (arguments : NewArguments) : Dialogue (Except Config.LoadError Config) := do
  let loaded ←
    match arguments.configFile? with
    | some file => Config.load file
    | none => Config.discover arguments.root
  return loaded.map fun config =>
    if arguments.has .checkedInit then { config with constructor := .checked } else config

def readRequest (arguments : NewArguments) (today : Date) :
    Dialogue (Except AnswerError Request) := do
  match ← Prompt.name.askUnless arguments.name with
  | .error error => return .error error
  | .ok name =>
    match ← Prompt.author.askUnless (arguments.value? .author) with
    | .error error => return .error error
    | .ok author =>
      match ← Prompt.description.askUnless (arguments.value? .description) with
      | .error error => return .error error
      | .ok description => return .ok ⟨name, author, description, today⟩

def confirm (arguments : NewArguments) (_ : Path) : Dialogue (Except AnswerError Bool) :=
  if arguments.has .yes then return .ok true else Prompt.askOverwrite

def creation (arguments : NewArguments) (config : Config) (request : Request) : Creation where
  request := request
  config := config
  root := arguments.root
  isDryRun := arguments.has .dryRun

def create (arguments : NewArguments) (config : Config) (request : Request) :
    Dialogue (Except RunFailure Report) := do
  match ← (arguments.creation config request).run arguments.confirm with
  | .ok report => return .ok report
  | .error (.disk failure) => return .error (.disk failure)
  | .error (.confirmation error) => return .error (.answer error)

def run (arguments : NewArguments) (today : Date) : Dialogue (Except RunFailure Report) := do
  match ← arguments.loadConfig with
  | .error error => return .error (.config error)
  | .ok config =>
    match ← arguments.readRequest today with
    | .error error => return .error (.answer error)
    | .ok request =>
      match request.validate with
      | .error error => return .error (.name error)
      | .ok () => arguments.create config request

end NewArguments

namespace Program

def name : String := "cbgen"

def versionText : String := name ++ " 0.1.0\n"

end Program

inductive Inquiry where
  | help
  | version
  | completions (shell : Shell)
deriving DecidableEq, Repr

inductive Finish where
  | reported (report : Report)
  | failed (failure : RunFailure)
  | told (inquiry : Inquiry)
  | misused (misuse : Misuse)
deriving DecidableEq

namespace Finish

def exitCode : Finish → UInt32
  | reported _ | told _ => 0
  | failed _ => 1
  | misused _ => 2

/-- What goes to the standard output after the prompts. The texts of the help and of the completions
are left out. -/
def outputText : Finish → String
  | reported report => report.outputText
  | told .version => Program.versionText
  | told .help | told (.completions _) | failed _ | misused _ => ""

/-- What goes to the standard error: of a failure only its message, and of a misuse nothing. -/
def errorText : Finish → String
  | reported report => report.warningText
  | failed failure => failure.message ++ "\n"
  | told _ | misused _ => ""

end Finish

namespace Program

def run (today : Date) (words : List String) : Dialogue Finish := do
  match Invocation.ofWords words with
  | .error .help => return .told .help
  | .error .version => return .told .version
  | .error (.misuse misuse) => return .misused misuse
  | .ok (.completions shell) => return .told (.completions shell)
  | .ok (.new arguments) =>
    match ← arguments.run today with
    | .ok report => return .reported report
    | .error failure => return .failed failure

end Program

end Scaffold
