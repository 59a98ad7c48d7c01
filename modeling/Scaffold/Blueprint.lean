import Scaffold.Config
import Scaffold.Request

/-!
Blueprints: all that the two artifacts of an object type are made from.
-/

namespace Scaffold

structure Blueprint where
  symbols : Symbols
  base : Symbols
  author : String
  description : String
  dateStamp : String
  project : String
  copyright : String
  constructor : ConstructorMode
deriving DecidableEq, Repr

namespace Blueprint

def ofRequest (request : Request) (config : Config) : Blueprint where
  symbols := request.symbols
  base := Symbols.base
  author := request.author
  description := request.description
  dateStamp := request.dateStamp
  project := config.project
  copyright := config.copyright
  constructor := config.constructor

end Blueprint

end Scaffold
