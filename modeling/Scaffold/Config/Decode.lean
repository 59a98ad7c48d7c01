import Scaffold.Config
import Scaffold.Toml.Document

/-!
Settings read from a document. The fields are visited in the order of their names, whatever their
order in the document, and the first one that is wrong is blamed together with its place. A field
that is missing keeps its default.
-/

namespace Scaffold.Config

inductive Field where
  | project
  | copyright
  | outputDir
  | constructor
deriving DecidableEq, Repr

namespace Field

def name : Field → String
  | project => "project"
  | copyright => "copyright"
  | outputDir => "output_dir"
  | constructor => "constructor"

def all : List Field := [project, copyright, outputDir, constructor]

def ofName? (name : String) : Option Field :=
  all.find? (·.name == name)

theorem ofName?_name (field : Field) : ofName? field.name = some field := by
  cases field <;> decide

def expected : Field → String
  | outputDir => "path string"
  | _ => "a string"

end Field

inductive Shape where
  | integer (value : Int)
  | float (value : Binary64)
  | boolean (value : Bool)
  | sequence
  | map
deriving DecidableEq, Repr

def Shape.text : Shape → String
  | integer value => "integer `" ++ toString value ++ "`"
  | float value => "floating point `" ++ value.text ++ "`"
  | boolean value => "boolean `" ++ toString value ++ "`"
  | sequence => "sequence"
  | map => "map"

inductive ScalarKind where
  | string
  | integer
  | float
  | boolean
  | datetime
deriving DecidableEq, Repr

def ScalarKind.text : ScalarKind → String
  | string => "string"
  | integer => "integer"
  | float => "float"
  | boolean => "boolean"
  | datetime => "datetime"

inductive DecodeProblem where
  | unknownField (name : String)
  | notText (field : Field) (found : Shape)
  | unknownMode (name : String)
  | notMode
  | noMode
  | severalModes
  | arrayAfterMode
  | tableAfterMode
  | scalarAfterMode (found : ScalarKind)
deriving DecidableEq, Repr

def quotedNames (names : List String) (separator : String) : String :=
  separator.intercalate (names.map fun name => "`" ++ name ++ "`")

def DecodeProblem.message : DecodeProblem → String
  | unknownField name =>
    "unknown field `" ++ name ++ "`, expected one of " ++
      quotedNames (Field.all.map Field.name) ", "
  | notText field found => "invalid type: " ++ found.text ++ ", expected " ++ field.expected
  | unknownMode name =>
    "unknown variant `" ++ name ++ "`, expected " ++
      quotedNames [ConstructorMode.legacy.name, ConstructorMode.checked.name] " or "
  | notMode => "wanted string or table"
  | noMode => "wanted exactly 1 element, found 0 elements"
  | severalModes => "wanted exactly 1 element, more than 1 element"
  | arrayAfterMode => "expected empty array"
  | tableAfterMode => "expected empty table"
  | scalarAfterMode found => "expected table, found " ++ found.text

structure DecodeError where
  problem : DecodeProblem
  span : Toml.Span
deriving DecidableEq, Repr

def textOrShape : Toml.Value → Except Shape String
  | .string text => .ok text
  | .integer value => .error (.integer value)
  | .float value => .error (.float value)
  | .boolean value => .error (.boolean value)
  | .moment _ => .error .map
  | .array _ _ => .error .sequence
  | .table _ _ => .error .map

def decodeText (field : Field) (span : Toml.Span) (value : Toml.Value) :
    Except DecodeError String :=
  (textOrShape value).mapError fun found => ⟨.notText field found, span⟩

/-- What may follow the name of a mode: nothing, which is written as an empty array or table. -/
def decodeNothing (value : Toml.Value) : Except DecodeProblem Unit :=
  match value with
  | .array _ [] | .table _ [] => .ok ()
  | .array _ _ => .error .arrayAfterMode
  | .table _ _ => .error .tableAfterMode
  | .string _ => .error (.scalarAfterMode .string)
  | .integer _ => .error (.scalarAfterMode .integer)
  | .float _ => .error (.scalarAfterMode .float)
  | .boolean _ => .error (.scalarAfterMode .boolean)
  | .moment _ => .error (.scalarAfterMode .datetime)

def decodeModeName (name : String) (span : Toml.Span) : Except DecodeError ConstructorMode :=
  match ConstructorMode.ofName? name with
  | some mode => .ok mode
  | none => .error ⟨.unknownMode name, span⟩

/-- A mode is written as its name, or as a table in which its name is the only key. -/
def decodeMode (span : Toml.Span) : Toml.Value → Except DecodeError ConstructorMode
  | .string name => decodeModeName name span
  | .table _ [(key, payloadSpan, payload)] => do
    let mode ← decodeModeName key.name key.span
    (decodeNothing payload).mapError (⟨·, payloadSpan⟩)
    return mode
  | .table _ [] => .error ⟨.noMode, span⟩
  | .table _ _ => .error ⟨.severalModes, span⟩
  | _ => .error ⟨.notMode, span⟩

def setField (config : Config) (field : Field) (span : Toml.Span) (value : Toml.Value) :
    Except DecodeError Config := do
  match field with
  | .project => return { config with project := ← decodeText field span value }
  | .copyright => return { config with copyright := ← decodeText field span value }
  | .outputDir => return { config with outputDir := ⟨← decodeText field span value⟩ }
  | .constructor => return { config with constructor := ← decodeMode span value }

def decodeEntry (config : Config) (entry : Toml.Key × Toml.Span × Toml.Value) :
    Except DecodeError Config :=
  match Field.ofName? entry.1.name with
  | none => .error ⟨.unknownField entry.1.name, entry.1.span⟩
  | some field => config.setField field entry.2.1 entry.2.2

def inNameOrder (entries : Toml.Entries) : Toml.Entries :=
  entries.mergeSort fun left right => left.1.name ≤ right.1.name

def decode (entries : Toml.Entries) : Except DecodeError Config :=
  (inNameOrder entries).foldlM decodeEntry default

inductive TextProblem where
  | illFormed
  | undecodable (error : DecodeError)
deriving DecidableEq, Repr

def ofText (text : String) : Except TextProblem Config :=
  match Toml.document? text with
  | none => .error .illFormed
  | some entries => (decode entries).mapError .undecodable

structure ParseError where
  file : Path
  problem : TextProblem
deriving DecidableEq, Repr

def ParseError.message (_ : ParseError) : String := "failed to parse configuration"

def parse (file : Path) (text : String) : Except ParseError Config :=
  (ofText text).mapError (⟨file, ·⟩)

end Scaffold.Config
