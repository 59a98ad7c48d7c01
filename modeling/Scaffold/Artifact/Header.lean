import Scaffold.Artifact.License

/-!
The header of an object type: include guard, structure and declarations.
-/

namespace Scaffold.Blueprint

/-- The structure. Its first member is the base, so that a pointer to it is a pointer to a base
object as well. -/
def structDeclaration (blueprint : Blueprint) : Layout :=
  let type := blueprint.symbols.typeName
  let base := blueprint.base.typeName
  .all [
    .doxygen ["@brief Structure for " ++ type ++ " objects. @see " ++ blueprint.symbols.headerFile]
      "*/",
    .block "typedef struct\x7b" ("\x7d " ++ type ++ ";")
      (.line (base ++ " base; /**< " ++ base ++ " base structure */"))]

def constructorPromise (blueprint : Blueprint) : String :=
  match blueprint.constructor with
  | .legacy => "@returns A new " ++ blueprint.symbols.typeName ++ " object."
  | .checked => "@returns A new " ++ blueprint.symbols.typeName ++ " object or NULL on failure."

def functionDeclarations (blueprint : Blueprint) : Layout :=
  let type := blueprint.symbols.typeName
  .all [
    .doxygen ["@brief Creates a new " ++ type ++ " object.", blueprint.constructorPromise] " */",
    .line (type ++ " * " ++ blueprint.symbols.constructor ++ "(void);"),
    .blank,
    .doxygen [
        "@brief Gets a " ++ type ++ " from another object. Use this to avoid casts.",
        "@param self The object to obtain the " ++ type ++ " from.",
        "@returns The " ++ type ++ " object."]
      " */",
    .line (type ++ " * " ++ blueprint.symbols.getter ++ "(void * self);"),
    .blank,
    .doxygen [
        "@brief Initialises a " ++ type ++ " object",
        "@param self The " ++ type ++ " object to initialise",
        "@returns true on success, false on failure."]
      " */",
    .line ("bool " ++ blueprint.symbols.init ++ "(" ++ type ++ " * self);"),
    .blank,
    .doxygen [
        "@brief Frees a " ++ type ++ " object.",
        "@param self The " ++ type ++ " object to free."]
      " */",
    .line ("void " ++ blueprint.symbols.free ++ "(void * self);")]

/-- The header. It ends with the end of its guard and no line break. -/
def header (blueprint : Blueprint) : Layout :=
  .all [
    blueprint.license blueprint.symbols.headerFile,
    .blank,
    .doxygen ["@file",
        "@brief " ++ blueprint.description ++ " Inherits " ++ blueprint.base.typeName]
      "*/",
    .blank,
    .line ("#ifndef " ++ blueprint.symbols.guard),
    .line ("#define " ++ blueprint.symbols.guard),
    .blank,
    .heading "Includes",
    .line ("#include \"" ++ blueprint.base.headerFile ++ "\""),
    .blank,
    blueprint.structDeclaration,
    .blank,
    blueprint.functionDeclarations,
    .line " ",
    .heading "Functions",
    .raw "#endif"]

end Scaffold.Blueprint
