import Scaffold.Path

/-!
The settings of a project, and where the files of an object type go.
-/

namespace Scaffold

inductive ConstructorMode where
  | legacy
  | checked
deriving DecidableEq, Repr

namespace ConstructorMode

def name : ConstructorMode → String
  | legacy => "legacy"
  | checked => "checked"

def ofName? (text : String) : Option ConstructorMode :=
  [legacy, checked].find? (·.name == text)

theorem ofName?_name (mode : ConstructorMode) : ofName? mode.name = some mode := by
  cases mode <;> decide

end ConstructorMode

structure Config where
  project : String
  copyright : String
  outputDir : Path
  constructor : ConstructorMode
deriving DecidableEq, Repr

namespace Config

def default : Config where
  project := "cbitcoin"
  copyright := "2012 Matthew Mitchell"
  outputDir := ⟨"src/structures/CBObject"⟩
  constructor := .legacy

def fileName : String := "cbgen.toml"

def destination (config : Config) (root : Path) (fileBase : String) : Path :=
  (root.join config.outputDir).join ⟨fileBase⟩

end Config

end Scaffold
