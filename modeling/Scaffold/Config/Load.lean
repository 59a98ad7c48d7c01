import Scaffold.Config.Decode
import Scaffold.Script

/-!
Settings from a file, or from the file in a project's root if there is one.
-/

namespace Scaffold.Config

inductive LoadError where
  | read (file : Path) (fault : Fault)
  | parse (error : ParseError)
deriving DecidableEq, Repr

def LoadError.message : LoadError → String
  | read file _ => "failed to read '" ++ file.text ++ "'"
  | parse error => error.message

variable {Query Answer : Type}

def load (file : Path) : Script Query Answer (Except LoadError Config) := do
  match ← Script.perform (.readText file) with
  | .error fault => return .error (.read file fault)
  | .ok text => return (parse file text).mapError .parse

def discover (root : Path) : Script Query Answer (Except LoadError Config) := do
  let file := root.join ⟨fileName⟩
  if ← Script.perform (.isFile file) then load file
  else return .ok default

end Scaffold.Config
