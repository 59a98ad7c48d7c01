import Scaffold.Artifact.License

/-!
The source of an object type: the definitions of its four functions.
-/

namespace Scaffold.Blueprint

def allocationCheck : Layout :=
  .all [.line "if (!self)", .indent, .line "return NULL;", .dedent]

def initialisation (blueprint : Blueprint) : Layout :=
  match blueprint.constructor with
  | .legacy => .line (blueprint.symbols.init ++ "(self);")
  | .checked =>
    .block ("if (!" ++ blueprint.symbols.init ++ "(self))\x7b") "\x7d"
      (.all [.line "free(self);", .line "return NULL;"])

def constructorDefinition (blueprint : Blueprint) : Layout :=
  let type := blueprint.symbols.typeName
  .block (type ++ " * " ++ blueprint.symbols.constructor ++ "()\x7b") "\x7d"
    (.all [
      .line (type ++ " * self = malloc(sizeof(*self));"),
      .when (blueprint.constructor == .checked) allocationCheck,
      .line (blueprint.base.getter ++ "(self)->free = " ++ blueprint.symbols.free ++ ";"),
      blueprint.initialisation,
      .line "return self;"])

def getterDefinition (blueprint : Blueprint) : Layout :=
  .block (blueprint.symbols.typeName ++ " * " ++ blueprint.symbols.getter ++ "(void * self)\x7b")
    "\x7d" (.line "return self;")

def initialiserDefinition (blueprint : Blueprint) : Layout :=
  .block ("bool " ++ blueprint.symbols.init ++ "(" ++ blueprint.symbols.typeName ++ " * self)\x7b")
    "\x7d"
    (.all [
      .line ("if (!" ++ blueprint.base.init ++ "(" ++ blueprint.base.getter ++ "(self)))"),
      .indent,
      .line "return false;",
      .dedent,
      .line "return true;"])

def destructorDefinition (blueprint : Blueprint) : Layout :=
  .block ("void " ++ blueprint.symbols.free ++ "(void * self)\x7b") "\x7d"
    (.line (blueprint.base.free ++ "(self);"))

def source (blueprint : Blueprint) : Layout :=
  .all [
    blueprint.license blueprint.symbols.sourceFile,
    .blank,
    .heading "SEE HEADER FILE FOR DOCUMENTATION ",
    .line ("#include \"" ++ blueprint.symbols.headerFile ++ "\""),
    .blank,
    .heading "Constructor",
    blueprint.constructorDefinition,
    .blank,
    .heading "Object Getter",
    blueprint.getterDefinition,
    .blank,
    .heading "Initialiser",
    blueprint.initialiserDefinition,
    .blank,
    .heading "Destructor",
    blueprint.destructorDefinition,
    .blank,
    .heading "Functions"]

end Scaffold.Blueprint
