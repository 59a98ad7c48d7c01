import Scaffold.Proofs.Comments
import Scaffold.Proofs.Levels

/-!
# What the mode of a constructor changes

Each artifact is cut where the mode of the constructor decides what is written: the header once, the
source twice. The pieces around the cuts are made without the mode, so two renderings that differ in
it are the same but for what stands at the cuts.
-/

namespace Scaffold

namespace Layout

variable {body : Layout}

def take : Nat → Layout → Layout
  | 0, _ => .skip
  | n + 1, .seq first rest => .seq first (rest.take n)
  | _ + 1, layout => layout

/-- A layout cut in two. The second part starts at the level that the first one left. -/
theorem added_take_drop (n : Nat) (layout : Layout) (level : Nat) :
    layout.added level =
      (layout.take n).added level ++ (layout.drop n).added ((layout.take n).levelAfter level) := by
  induction n generalizing layout level with
  | zero => exact String.empty_append.symm
  | succ n ih =>
      cases layout with
      | seq first rest =>
          rw [take, drop, added_seq, added_seq, levelAfter, String.append_assoc, ← ih]
      | skip | line | blank | raw | indent | dedent => exact String.append_empty.symm

theorem added_skip (level : Nat) : skip.added level = "" := rfl

theorem added_block (header close : String) (hbody : body.shift = .none) (level : Nat) :
    (block header close body).added level =
      tabs level ++ header ++ "\n" ++ body.added (level + 1) ++ (tabs level ++ close ++ "\n") := by
  have hlevel := levelAfter_of_shift hbody (level + 1)
  have hindent : indent.added level = "" := rfl
  have hdedent : dedent.added (level + 1) = "" := rfl
  simp only [block, all, added_seq, levelAfter, hlevel, Nat.add_sub_cancel, added_line, hindent,
    hdedent, added_skip, String.empty_append, String.append_empty, String.append_assoc]

theorem added_doxygen (lines : List String) (close : String) (level : Nat) :
    (doxygen lines close).added level =
      tabs level ++ "/**" ++ "\n" ++ (each lines fun text => line (" " ++ text)).added level ++
        (tabs level ++ close ++ "\n") := by
  have hlevel := levelAfter_of_shift (shift_each_line lines) level
  simp only [doxygen, all, added_seq, levelAfter, hlevel, added_line, added_skip,
    String.append_empty, String.append_assoc]

theorem added_each_cons {α : Type} (item : α) (items : List α) (body : α → Layout)
    (level : Nat) :
    (each (item :: items) body).added level =
      (body item).added level ++ (each items body).added ((body item).levelAfter level) :=
  added_seq _ _ level

theorem added_each_nil {α : Type} (body : α → Layout) (level : Nat) :
    (each [] body).added level = "" := rfl

end Layout

namespace ConstructorMode

def promiseEnd : ConstructorMode → String
  | legacy => "."
  | checked => " or NULL on failure."

def checkText : ConstructorMode → String
  | legacy => ""
  | checked => "\tif (!self)\n\t\treturn NULL;\n"

def callText (init : String) : ConstructorMode → String
  | legacy => "\t" ++ init ++ "(self);\n"
  | checked => "\tif (!" ++ init ++ "(self))\x7b\n\t\tfree(self);\n\t\treturn NULL;\n\t\x7d\n"

end ConstructorMode

namespace Blueprint

variable (blueprint : Blueprint) (mode : ConstructorMode)

def inMode : Blueprint := { blueprint with constructor := mode }

/-! ### The header, cut once -/

def promiseOpening : String :=
  "/**\n @brief Creates a new " ++ blueprint.symbols.typeName ++ " object.\n @returns A new " ++
    blueprint.symbols.typeName ++ " object"

def promiseClosing : String :=
  "\n */\n" ++ blueprint.symbols.typeName ++ " * " ++ blueprint.symbols.constructor ++ "(void);\n"

def aroundPromise : String × String :=
  ((blueprint.header.take 12).added 0 ++ blueprint.promiseOpening,
    blueprint.promiseClosing ++
      ((blueprint.functionDeclarations.drop 2).added 0 ++ (blueprint.header.drop 13).added 0))

theorem constructorPromise_eq :
    blueprint.constructorPromise =
      "@returns A new " ++ blueprint.symbols.typeName ++ " object" ++
        blueprint.constructor.promiseEnd := by
  apply String.toList_inj.mp
  unfold constructorPromise
  split <;> simp_all [ConstructorMode.promiseEnd]

theorem added_promise :
    (Layout.doxygen ["@brief Creates a new " ++ blueprint.symbols.typeName ++ " object.",
        blueprint.constructorPromise] " */").added 0 =
      blueprint.promiseOpening ++ blueprint.constructor.promiseEnd ++ "\n */\n" := by
  rw [Layout.added_doxygen, Layout.added_each_cons, Layout.added_each_cons,
    Layout.added_each_nil, Layout.added_line, Layout.added_line, constructorPromise_eq]
  unfold promiseOpening
  apply String.toList_inj.mp
  simp [Layout.levelAfter]

theorem added_functionDeclarations :
    blueprint.functionDeclarations.added 0 =
      blueprint.promiseOpening ++ blueprint.constructor.promiseEnd ++
        (blueprint.promiseClosing ++ (blueprint.functionDeclarations.drop 2).added 0) := by
  have hcut : blueprint.functionDeclarations =
      .seq (.doxygen ["@brief Creates a new " ++ blueprint.symbols.typeName ++ " object.",
          blueprint.constructorPromise] " */")
        (.seq (.line (blueprint.symbols.typeName ++ " * " ++ blueprint.symbols.constructor ++
          "(void);")) (blueprint.functionDeclarations.drop 2)) := rfl
  refine (congrArg (·.added 0) hcut).trans ?_
  rw [Layout.added_seq, Layout.levelAfter_of_shift (Layout.shift_doxygen _ _), added_promise,
    Layout.added_seq, Layout.added_line]
  unfold promiseClosing
  apply String.toList_inj.mp
  simp [Layout.levelAfter]

theorem header_eq_aroundPromise :
    blueprint.render.header =
      blueprint.aroundPromise.1 ++ blueprint.constructor.promiseEnd ++
        blueprint.aroundPromise.2 := by
  have hlevel : (blueprint.header.take 12).levelAfter 0 = 0 := rfl
  have hdrop : blueprint.header.drop 12 =
      .seq blueprint.functionDeclarations (blueprint.header.drop 13) := rfl
  have hdeclarations : blueprint.functionDeclarations.levelAfter 0 = 0 := rfl
  calc blueprint.render.header
      = (blueprint.header.take 12).added 0 ++
          (blueprint.functionDeclarations.added 0 ++ (blueprint.header.drop 13).added 0) := by
        change blueprint.header.render = _
        rw [Layout.render_eq_added, Layout.added_take_drop 12, hlevel, hdrop, Layout.added_seq,
          hdeclarations]
    _ = blueprint.aroundPromise.1 ++ blueprint.constructor.promiseEnd ++
          blueprint.aroundPromise.2 := by
        simp only [added_functionDeclarations, aroundPromise, String.append_assoc]

theorem header_inMode :
    (blueprint.inMode mode).render.header =
      blueprint.aroundPromise.1 ++ mode.promiseEnd ++ blueprint.aroundPromise.2 :=
  (blueprint.inMode mode).header_eq_aroundPromise

/-! ### The source, cut twice -/

def allocationText : String :=
  blueprint.symbols.typeName ++ " * " ++ blueprint.symbols.constructor ++ "()\x7b\n\t" ++
    blueprint.symbols.typeName ++ " * self = malloc(sizeof(*self));\n"

def installationText : String :=
  "\t" ++ blueprint.base.getter ++ "(self)->free = " ++ blueprint.symbols.free ++ ";\n"

def aroundConstruction : String × String :=
  ((blueprint.source.take 6).added 0 ++ blueprint.allocationText,
    "\treturn self;\n\x7d\n" ++ (blueprint.source.drop 7).added 0)

theorem added_allocationCheck :
    (Layout.when (mode == .checked) allocationCheck).added 1 = mode.checkText := by
  cases mode
  case legacy => rfl
  case checked => decide

theorem added_initialisation :
    blueprint.initialisation.added 1 =
      blueprint.constructor.callText blueprint.symbols.init := by
  unfold initialisation
  cases hmode : blueprint.constructor
  case legacy =>
    unfold ConstructorMode.callText
    apply String.toList_inj.mp
    simp [Layout.added_line]
  case checked =>
    have hshift : (Layout.all [.line "free(self);", .line "return NULL;"]).shift = .none := by
      decide
    have hadded : (Layout.all [.line "free(self);", .line "return NULL;"]).added 2 =
        "\t\tfree(self);\n\t\treturn NULL;\n" := by decide
    rw [Layout.added_block _ _ hshift, hadded]
    unfold ConstructorMode.callText
    apply String.toList_inj.mp
    simp

theorem added_constructorDefinition :
    blueprint.constructorDefinition.added 0 =
      blueprint.allocationText ++ blueprint.constructor.checkText ++
        blueprint.installationText ++
          blueprint.constructor.callText blueprint.symbols.init ++ "\treturn self;\n\x7d\n" := by
  have hcheck := Layout.levelAfter_of_shift
    (shift_allocationCheck (blueprint.constructor == .checked)) 1
  have hinit := Layout.levelAfter_of_shift blueprint.shift_initialisation 1
  unfold constructorDefinition
  rw [Layout.added_block]
  case hbody => simp [Layout.all, Layout.shift, shift_allocationCheck, shift_initialisation]
  simp only [Layout.all, Layout.added_seq, Layout.levelAfter, hcheck, hinit,
    added_initialisation, Layout.added_line, Layout.added_skip]
  rw [added_allocationCheck]
  unfold allocationText installationText
  apply String.toList_inj.mp
  simp

theorem source_eq_aroundConstruction :
    blueprint.render.source =
      blueprint.aroundConstruction.1 ++ blueprint.constructor.checkText ++
        blueprint.installationText ++
          blueprint.constructor.callText blueprint.symbols.init ++
            blueprint.aroundConstruction.2 := by
  have hlevel : (blueprint.source.take 6).levelAfter 0 = 0 := rfl
  have hdrop : blueprint.source.drop 6 =
      .seq blueprint.constructorDefinition (blueprint.source.drop 7) := rfl
  -- Of an unknown mode the level after the constructor does not compute.
  have hdefinition := Layout.levelAfter_of_shift blueprint.shift_constructorDefinition 0
  calc blueprint.render.source
      = (blueprint.source.take 6).added 0 ++
          (blueprint.constructorDefinition.added 0 ++ (blueprint.source.drop 7).added 0) := by
        change blueprint.source.render = _
        rw [Layout.render_eq_added, Layout.added_take_drop 6, hlevel, hdrop, Layout.added_seq,
          hdefinition]
    _ = _ := by
        simp only [added_constructorDefinition, aroundConstruction, String.append_assoc]

theorem source_inMode :
    (blueprint.inMode mode).render.source =
      blueprint.aroundConstruction.1 ++ mode.checkText ++ blueprint.installationText ++
        mode.callText blueprint.symbols.init ++ blueprint.aroundConstruction.2 :=
  (blueprint.inMode mode).source_eq_aroundConstruction

/-- **The mode changes the constructor only.** Two renderings that differ in the mode have headers
that differ in the end of one promise, in the comment right above the declaration of the
constructor, and sources that differ in the constructor alone: between its allocation and the
installation of the destructor stands a check or nothing, and the call of the initialiser, right
before the end of the constructor, is checked or plain. -/
theorem render_modes (request : Request) (config : Config) :
    let legacy := (ofRequest request { config with constructor := .legacy }).render
    let checked := (ofRequest request { config with constructor := .checked }).render
    let symbols := request.symbols
    let promise := "/**\n @brief Creates a new " ++ symbols.typeName ++
      " object.\n @returns A new " ++ symbols.typeName ++ " object"
    let declaration := "\n */\n" ++ symbols.typeName ++ " * " ++ symbols.constructor ++ "(void);\n"
    let allocation := symbols.typeName ++ " * " ++ symbols.constructor ++ "()\x7b\n\t" ++
      symbols.typeName ++ " * self = malloc(sizeof(*self));\n"
    let installation := "\t" ++ Symbols.base.getter ++ "(self)->free = " ++ symbols.free ++ ";\n"
    (∃ before after : String,
      legacy.header = before ++ promise ++ "." ++ (declaration ++ after) ∧
        checked.header = before ++ promise ++ " or NULL on failure." ++ (declaration ++ after)) ∧
    ∃ before after : String,
      legacy.source = before ++ allocation ++ installation ++
        ("\t" ++ symbols.init ++ "(self);\n") ++ ("\treturn self;\n\x7d\n" ++ after) ∧
      checked.source = before ++ allocation ++ "\tif (!self)\n\t\treturn NULL;\n" ++ installation ++
        ("\tif (!" ++ symbols.init ++
          "(self))\x7b\n\t\tfree(self);\n\t\treturn NULL;\n\t\x7d\n") ++
        ("\treturn self;\n\x7d\n" ++ after) := by
  intro legacy checked symbols promise declaration allocation installation
  let blueprint := ofRequest request config
  refine ⟨⟨(blueprint.header.take 12).added 0,
      (blueprint.functionDeclarations.drop 2).added 0 ++ (blueprint.header.drop 13).added 0,
      ?plain, ?orNull⟩,
    (blueprint.source.take 6).added 0, (blueprint.source.drop 7).added 0, ?unchecked, ?checks⟩
  case plain => exact blueprint.header_inMode .legacy
  case orNull => exact blueprint.header_inMode .checked
  case unchecked =>
    refine (blueprint.source_inMode .legacy).trans ?_
    rw [ConstructorMode.checkText, String.append_empty]
    rfl
  case checks => exact blueprint.source_inMode .checked

end Blueprint

end Scaffold
