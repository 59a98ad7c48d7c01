import Scaffold.Date
import Scaffold.Symbols

/-!
A request for one new object type.
-/

namespace Scaffold

structure Request where
  shortName : String
  author : String
  description : String
  date : Date
deriving DecidableEq

def Request.symbols (request : Request) : Symbols :=
  Symbols.derive request.shortName

def Request.dateStamp (request : Request) : String :=
  request.date.stamp

def Request.checkName (request : Request) : Except NameProblem Unit :=
  Scaffold.checkName request.shortName

structure InvalidName where
  name : String
  problem : NameProblem
deriving DecidableEq

def InvalidName.message (error : InvalidName) : String :=
  "invalid structure name '" ++ error.name ++ "': " ++ error.problem.message

def InvalidName.help : String :=
  "use letters, digits and underscores only, without the CB prefix (e.g. 'BlockHeader')"

def Request.validate (request : Request) : Except InvalidName Unit :=
  request.checkName.mapError (⟨request.shortName, ·⟩)

theorem Request.validate_eq_ok_iff {request : Request} :
    request.validate = .ok () ↔ request.checkName = .ok () := by
  unfold validate
  cases request.checkName with
  | error problem =>
    change Except.error _ = Except.ok _ ↔ Except.error _ = Except.ok _
    simp
  | ok value => exact ⟨fun _ => rfl, fun _ => rfl⟩

end Scaffold
