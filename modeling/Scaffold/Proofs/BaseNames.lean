import Scaffold.Proofs.Code
import Scaffold.Proofs.Collisions

/-!
# Names of the base type

Generated code builds on the base type: it includes its header, embeds its structure and calls its
functions. Which names of types clash with it is read here from the code of both artifacts.
-/

namespace Scaffold

def functionsIn (ending : Char) (code : List String) : List Signature :=
  code.filterMap fun text => signature? ending text.toList

section FunctionsIn

variable {ending : Char} {code : List String} {signatures : List Signature}

theorem functionsIn_append (ending : Char) (first second : List String) :
    functionsIn ending (first ++ second) = functionsIn ending first ++ functionsIn ending second :=
  List.filterMap_append

theorem Starts.isQuietLine {c : Char} {text : String} (h : Starts c text)
    (hc : ['/', ' ', '\t', '#'].contains c = true) : IsQuietLine text.toList := by
  left
  rw [isAside, h]
  exact hc

theorem functionsIn_eq_nil (h : ∀ text ∈ code, IsQuietLine text.toList) :
    functionsIn ending code = [] :=
  List.filterMap_eq_nil_iff.mpr fun text htext => (h text htext).signature?_eq_none ending

theorem functionsIn_spellings (h : ∀ signature ∈ signatures, signature.IsPlain) :
    functionsIn ending (Blueprint.spellings ending signatures) = signatures := by
  induction signatures with
  | nil => rfl
  | cons signature rest ih =>
      have hrest := ih fun other hother => h other (List.mem_cons_of_mem _ hother)
      have hfirst : signature? ending (String.ofList (signature.spell ending)).toList =
          some signature := by
        rw [String.toList_ofList, (h signature List.mem_cons_self).signature?_spell]
      rw [Blueprint.spellings, List.map_cons, functionsIn, List.filterMap_cons, hfirst]
      exact congrArg (signature :: ·) hrest

theorem functionsIn_definition {signature : Signature} {body : List String} (h : signature.IsPlain)
    (hbody : ∀ text ∈ body, Starts '\t' text) :
    functionsIn '\x7b' (Blueprint.definition signature body) = [signature] := by
  have hquiet : ∀ text ∈ body ++ ["\x7d"], IsQuietLine text.toList := by
    refine List.forall_mem_append.mpr ⟨fun text htext => (hbody text htext).isQuietLine rfl, ?_⟩
    exact List.forall_mem_singleton.mpr (Or.inr (by decide))
  rw [Blueprint.definition, functionsIn_append, functionsIn_eq_nil hquiet,
    functionsIn_spellings (List.forall_mem_singleton.mpr h)]
  rfl

end FunctionsIn

namespace Blueprint

def Includes (blueprint : Blueprint) (file : String) : Prop :=
  "#include \"" ++ file ++ "\"" ∈ blueprint.header.code 0

def IsGuardedBy (blueprint : Blueprint) (guard : String) : Prop :=
  "#ifndef " ++ guard ∈ blueprint.header.code 0

def Declares (blueprint : Blueprint) (name : String) : Prop :=
  "\x7d " ++ name ++ ";" ∈ blueprint.header.code 0 ∨
    name ∈ (functionsIn ';' (blueprint.header.code 0)).map Signature.name

def Defines (blueprint : Blueprint) (name : String) : Prop :=
  name ∈ (functionsIn '\x7b' (blueprint.source.code 0)).map Signature.name

/-- In an indented line of the source the name stands as a word before an opening parenthesis. -/
def Calls (blueprint : Blueprint) (name : String) : Prop :=
  ∃ before after, tabs 1 ++ (before ++ name ++ "(" ++ after) ∈ blueprint.source.code 0 ∧
    before.toList.getLast?.any isNameChar = false

/-! ### Clashes with the base -/

def IncludesItself (blueprint : Blueprint) : Prop :=
  blueprint.Includes blueprint.symbols.headerFile

def SharesBaseGuard (blueprint : Blueprint) : Prop :=
  blueprint.IsGuardedBy blueprint.base.guard

/-- The constructor of the base is left out: no generated code uses it. -/
def RedeclaresBase (blueprint : Blueprint) : Prop :=
  ∃ kind ∈ [SymbolKind.typeName, .getter, .init, .free, .guard],
    blueprint.Declares (blueprint.base.symbol kind)

def RedefinesBase (blueprint : Blueprint) : Prop :=
  ∃ kind ∈ [SymbolKind.getter, .init, .free],
    blueprint.Calls (blueprint.base.symbol kind) ∧ blueprint.Defines (blueprint.base.symbol kind)

structure IsApartFromBase (blueprint : Blueprint) : Prop where
  inclusion : ¬ blueprint.IncludesItself
  guard : ¬ blueprint.SharesBaseGuard
  declarations : ¬ blueprint.RedeclaresBase
  definitions : ¬ blueprint.RedefinesBase

/-! ### What is in the code -/

variable {request : Request} {config : Config} {name : String}

theorem includes_iff :
    (ofRequest request config).Includes name ↔ name = Symbols.base.headerFile := by
  unfold Includes
  rw [code_header]
  simp [spellings, Symbols.signatures, ← String.toList_inj, Signature.spell, Request.symbols,
    Symbols.derive, symbolMark, tabs]

theorem isGuardedBy_iff :
    (ofRequest request config).IsGuardedBy name ↔ name = request.symbols.guard := by
  unfold IsGuardedBy
  rw [code_header]
  simp [spellings, Symbols.signatures, ← String.toList_inj, Signature.spell, Request.symbols,
    Symbols.derive, symbolMark, tabs]

theorem declaresType_iff :
    "\x7d " ++ name ++ ";" ∈ (ofRequest request config).header.code 0 ↔
      name = request.symbols.typeName := by
  rw [code_header]
  simp [spellings, Symbols.signatures, ← String.toList_inj, Signature.spell, Request.symbols,
    Symbols.derive, symbolMark, tabs]
  rw [← List.cons_append, ← List.cons_append, List.append_left_inj]

theorem functionsIn_header (hname : request.checkName = .ok ()) :
    functionsIn ';' ((ofRequest request config).header.code 0) =
      request.symbols.signatures "void" := by
  have hadmissible : request.symbols.Admissible := Symbols.admissible_derive hname
  have hparen : '(' ∉ request.symbols.typeName.toList :=
    notMem_of_checkName hadmissible.typeName (by decide)
  have hquiet : ∀ text ∈ ["#ifndef " ++ request.symbols.guard, "#define " ++ request.symbols.guard,
      "#include \"" ++ Symbols.base.headerFile ++ "\"", "typedef struct\x7b",
      tabs 1 ++ (Symbols.base.typeName ++ " base; /**< " ++ Symbols.base.typeName ++
        " base structure */"),
      "\x7d " ++ request.symbols.typeName ++ ";"], IsQuietLine text.toList := by
    simp only [List.forall_mem_cons]
    exact ⟨((starts_ofList '#' _).append _).isQuietLine rfl,
      ((starts_ofList '#' _).append _).isQuietLine rfl,
      (((starts_ofList '#' _).append _).append _).isQuietLine rfl, Or.inr (by decide),
      (starts_tabs 0 _).isQuietLine rfl, Or.inr (by simp [hparen]), List.forall_mem_nil _⟩
  have hend : functionsIn ';' ["#endif"] = [] := by decide
  rw [code_header, functionsIn_append, functionsIn_append,
    functionsIn_spellings (hadmissible.isPlain (by decide)), functionsIn_eq_nil hquiet, hend,
    List.nil_append, List.append_nil]

theorem functionsIn_source (hname : request.checkName = .ok ()) :
    functionsIn '\x7b' ((ofRequest request config).source.code 0) =
      request.symbols.signatures "" := by
  have hadmissible : request.symbols.Admissible := Symbols.admissible_derive hname
  have hnone : '\n' ∉ "".toList := by decide
  have hplain := hadmissible.isPlain hnone
  simp only [Symbols.signatures, List.forall_mem_cons] at hplain
  obtain ⟨hconstructor, hgetter, hinit, hfree, _⟩ := hplain
  obtain ⟨body, hindented, hcode⟩ := code_source request config
  have hinclude : IsQuietLine ("#include \"" ++ request.symbols.headerFile ++ "\"").toList :=
    (((starts_ofList '#' _).append _).append _).isQuietLine rfl
  rw [hcode, ← List.singleton_append, functionsIn_append,
    functionsIn_eq_nil (List.forall_mem_singleton.mpr hinclude), functionsIn_append,
    functionsIn_append, functionsIn_append, functionsIn_definition hconstructor hindented,
    functionsIn_definition hgetter (by simp [starts_tabs]),
    functionsIn_definition hinit (by simp [starts_tabs]),
    functionsIn_definition hfree (by simp [starts_tabs])]
  rfl

theorem calls_base {kind : SymbolKind} (h : kind ∈ [SymbolKind.getter, .init, .free]) :
    (ofRequest request config).Calls (Symbols.base.symbol kind) := by
  obtain ⟨body, -, hcode⟩ := code_source request config
  unfold Calls
  rw [hcode]
  simp only [List.mem_cons, List.not_mem_nil, or_false] at h
  rcases h with rfl | rfl | rfl
  · refine ⟨"if (!" ++ Symbols.base.init ++ "(", "self)))", ?_, by decide⟩
    simp [definition, Symbols.symbol, String.append_assoc]
  · refine ⟨"if (!", Symbols.base.getter ++ "(self)))", ?_, by decide⟩
    simp [definition, Symbols.symbol, String.append_assoc]
  · refine ⟨"", "self);", ?_, by decide⟩
    simp [definition, Symbols.symbol, String.append_assoc]

theorem declares_iff (hname : request.checkName = .ok ()) :
    (ofRequest request config).Declares name ↔
      ∃ kind ∈ [SymbolKind.typeName, .constructor, .getter, .init, .free],
        request.symbols.symbol kind = name := by
  unfold Declares
  rw [declaresType_iff, functionsIn_header hname]
  simp [Symbols.signatures, Symbols.symbol, eq_comm]

theorem defines_iff (hname : request.checkName = .ok ()) :
    (ofRequest request config).Defines name ↔
      ∃ kind ∈ [SymbolKind.constructor, .getter, .init, .free],
        request.symbols.symbol kind = name := by
  unfold Defines
  rw [functionsIn_source hname]
  simp [Symbols.signatures, Symbols.symbol, eq_comm]

/-! ### Which names clash -/

theorem toUpper_object : "Object".toUpper = "OBJECT" := by
  apply String.toList_inj.mp
  rw [String.toUpper, String.toList_map]
  decide

theorem symbol_eq_base_iff (hname : request.checkName = .ok ()) (kind other : SymbolKind) :
    request.symbols.symbol kind = Symbols.base.symbol other ↔
      kind.Collides other request.shortName "Object" :=
  SymbolKind.symbol_eq_symbol_iff hname rfl kind other

theorem includesItself_iff :
    (ofRequest request config).IncludesItself ↔ request.shortName = "Object" := by
  unfold IncludesItself
  rw [includes_iff]
  constructor
  · intro h
    exact Symbols.fileBase_injective ((String.append_left_inj _).mp h)
  · intro h
    exact congrArg (fun name => (Symbols.derive name).headerFile) h

theorem sharesBaseGuard_iff (hname : request.checkName = .ok ()) :
    (ofRequest request config).SharesBaseGuard ↔ request.shortName.toUpper = "OBJECT" := by
  unfold SharesBaseGuard
  rw [isGuardedBy_iff, eq_comm, ← toUpper_object]
  exact symbol_eq_base_iff hname .guard .guard

theorem redeclaresBase_iff (hname : request.checkName = .ok ()) :
    (ofRequest request config).RedeclaresBase ↔
      request.shortName ∈ ["Object", "GetObject", "InitObject", "FreeObject", "OBJECTH"] := by
  have hguard : "Object".toUpper ++ "H" = "OBJECTH" := by
    rw [toUpper_object]
    rfl
  -- The name of the base starts with no verb, so no function is named like the base structure.
  have hverb : "Object" ≠ "New" ++ request.shortName ∧ "Object" ≠ "Get" ++ request.shortName ∧
      "Object" ≠ "Init" ++ request.shortName ∧ "Object" ≠ "Free" ++ request.shortName := by
    simp [← String.toList_inj]
  obtain ⟨hnew, hget, hinit, hfree⟩ := hverb
  unfold RedeclaresBase
  change (∃ kind ∈ _, (ofRequest request config).Declares (Symbols.base.symbol kind)) ↔ _
  simp only [declares_iff hname, symbol_eq_base_iff hname]
  simp [SymbolKind.Collides, SymbolKind.verb, hguard, hnew, hget, hinit, hfree]
  grind

theorem redefinesBase_iff (hname : request.checkName = .ok ()) :
    (ofRequest request config).RedefinesBase ↔ request.shortName = "Object" := by
  unfold RedefinesBase
  change (∃ kind ∈ _, (ofRequest request config).Calls (Symbols.base.symbol kind) ∧
    (ofRequest request config).Defines (Symbols.base.symbol kind)) ↔ _
  simp only [defines_iff hname, symbol_eq_base_iff hname]
  constructor
  · rintro ⟨kind, hkind, -, other, hother, hcollides⟩
    simp only [List.mem_cons, List.not_mem_nil, or_false] at hkind hother
    rcases hkind with rfl | rfl | rfl <;> rcases hother with rfl | rfl | rfl | rfl <;>
      exact hcollides.2
  · intro h
    refine ⟨.getter, by decide, calls_base (by decide), .getter, by decide, rfl, h⟩

end Blueprint

end Scaffold
