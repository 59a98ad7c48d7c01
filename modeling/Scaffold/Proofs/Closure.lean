import Scaffold.Proofs.BaseNames
import Scaffold.Proofs.Tokens

/-!
# The source is closed

Every word in the code of a source is a word of the template, a symbol of the type itself, which the
header declares, or a function of the base. Its constructor installs the destructor between the
allocation and the call of the initialiser.
-/

namespace Scaffold

def templateWords : List String :=
  ["self", "malloc", "sizeof", "free", "NULL", "bool", "void", "if", "return", "true", "false",
    "include"]

/-! ### Phrases in a text -/

/-- How many times a phrase stands in a text. -/
def occurrences (phrase : List String) : List String → Nat
  | [] => 0
  | token :: rest =>
    (if phrase.isPrefixOf (token :: rest) then 1 else 0) + occurrences phrase rest

/-- The phrases stand in a text one after another, with or without other text between them. -/
def StandInOrder : List (List String) → List String → Prop
  | [], _ => True
  | phrase :: phrases, text =>
    ∃ before after, text = before ++ phrase ++ after ∧ StandInOrder phrases after

theorem one_le_occurrences {phrase : List String} (hphrase : phrase ≠ [])
    (before after : List String) : 1 ≤ occurrences phrase (before ++ phrase ++ after) := by
  induction before with
  | nil =>
      obtain ⟨token, rest, rfl⟩ := List.exists_cons_of_ne_nil hphrase
      have hprefix : (token :: rest).isPrefixOf (token :: (rest ++ after)) = true :=
        List.isPrefixOf_iff_prefix.mpr (List.prefix_append _ _)
      rw [List.nil_append, List.cons_append, occurrences, if_pos hprefix]
      exact Nat.le_add_right _ _
  | cons token before ih => exact Nat.le_trans ih (Nat.le_add_left _ _)

/-- A phrase stands in a text no more often than a token of it. -/
theorem occurrences_le_count (before : List String) (token : String) (after text : List String) :
    occurrences (before ++ token :: after) text ≤ text.count token := by
  -- An occurrence has its token as far from its start as the phrase has.
  suffices hdrop : occurrences (before ++ token :: after) text ≤
      (text.drop before.length).count token from
    Nat.le_trans hdrop ((List.drop_sublist _ _).count_le token)
  induction text with
  | nil => exact Nat.zero_le _
  | cons first rest ih =>
      have htail : rest.drop before.length = ((first :: rest).drop before.length).tail := by
        rw [List.tail_drop]
        rfl
      rw [occurrences]
      split
      · next hprefix =>
        obtain ⟨following, hfollowing⟩ := List.isPrefixOf_iff_prefix.mp hprefix
        have hdrop : (first :: rest).drop before.length = token :: (after ++ following) := by
          rw [← hfollowing, List.append_assoc, List.drop_left]
          rfl
        rw [htail, hdrop, List.tail_cons] at ih
        rw [hdrop, List.count_cons_self]
        omega
      · rw [htail] at ih
        have := (List.tail_sublist ((first :: rest).drop before.length)).count_le token
        omega

theorem occurrences_eq_one {phrase text : List String} {token : String} (htoken : token ∈ phrase)
    (hcount : text.count token = 1) (hphrase : phrase <:+: text) : occurrences phrase text = 1 := by
  obtain ⟨first, last, rfl⟩ := List.append_of_mem htoken
  obtain ⟨before, after, rfl⟩ := hphrase
  have hle := occurrences_le_count first token last (before ++ (first ++ token :: last) ++ after)
  have hne : first ++ token :: last ≠ [] := List.append_ne_nil_of_right_ne_nil _ (by simp)
  have hge := one_le_occurrences hne before after
  omega

theorem StandInOrder.isInfix {phrases : List (List String)} {text : List String}
    (h : StandInOrder phrases text) : ∀ phrase ∈ phrases, phrase <:+: text := by
  induction phrases generalizing text with
  | nil => exact List.forall_mem_nil _
  | cons phrase phrases ih =>
      obtain ⟨before, after, rfl, hrest⟩ := h
      have hafter : after <:+: before ++ phrase ++ after := (List.suffix_append _ _).isInfix
      exact List.forall_mem_cons.mpr ⟨List.infix_append _ _ _,
        fun other hother => (ih hrest other hother).trans hafter⟩

def after? (phrase : List String) : List String → Option (List String)
  | [] => none
  | token :: rest =>
    if phrase.isPrefixOf (token :: rest) then some ((token :: rest).drop phrase.length)
    else after? phrase rest

/-- The text up to the brace that closes more than was opened in it; `depth` braces are open
before. -/
def untilClosed : Nat → List String → List String
  | _, [] => []
  | 0, token :: rest =>
    if token = "\x7d" then []
    else token :: untilClosed (if token = "\x7b" then 1 else 0) rest
  | depth + 1, token :: rest =>
    token :: untilClosed
      (if token = "\x7d" then depth else if token = "\x7b" then depth + 2 else depth + 1) rest

/-- The tokens in the braces of the function with this name and no parameters. -/
def bodyOf? (name : String) (text : List String) : Option (List String) :=
  (after? [name, "(", ")", "\x7b"] text).map (untilClosed 0)

namespace Blueprint

variable {blueprint : Blueprint}

/-! ### The constructor -/

def allocation (blueprint : Blueprint) : List String :=
  [blueprint.symbols.typeName, "*", "self", "=", "malloc", "(", "sizeof", "(", "*", "self", ")",
    ")", ";"]

def installation (blueprint : Blueprint) : List String :=
  [blueprint.base.getter, "(", "self", ")", "-", ">", "free", "=", blueprint.symbols.free, ";"]

def initialiserCall (blueprint : Blueprint) : List String :=
  [blueprint.symbols.init, "(", "self", ")"]

def returnSelf : List String := ["return", "self", ";"]

def constructorTokens (blueprint : Blueprint) : List String :=
  match blueprint.constructor with
  | .legacy =>
    blueprint.allocation ++ blueprint.installation ++ blueprint.initialiserCall ++ [";"] ++
      returnSelf
  | .checked =>
    blueprint.allocation ++ ["if", "(", "!", "self", ")", "return", "NULL", ";"] ++
      blueprint.installation ++ ["if", "(", "!"] ++ blueprint.initialiserCall ++
      [")", "\x7b", "free", "(", "self", ")", ";", "return", "NULL", ";", "\x7d"] ++ returnSelf

/-! ### The four definitions -/

@[simp]
theorem tokens_star : tokens " * " = ["*"] := by decide

@[simp]
theorem tokens_parameters :
    tokens "(void * self)\x7b" = ["(", "void", "*", "self", ")", "\x7b"] := by decide

@[simp]
theorem tokens_test : tokens "if (!" = ["if", "(", "!"] := by decide

@[simp]
theorem tokens_call : tokens "(self);" = ["(", "self", ")", ";"] := by decide

@[simp]
theorem tokens_returnSelf : tokens "return self;" = returnSelf := by decide

@[simp]
theorem tokens_close : tokens "\x7d" = ["\x7d"] := by decide

theorem tokens_constructorDefinition (hsymbols : blueprint.symbols.Admissible)
    (hbase : blueprint.base.Admissible) :
    blueprint.constructorDefinition.tokens =
      [blueprint.symbols.typeName, "*", blueprint.symbols.constructor, "(", ")", "\x7b"] ++
        blueprint.constructorTokens ++ ["\x7d"] := by
  have htype := hsymbols.typeName
  have hconstructor := hsymbols.constructor
  have hgetter := hbase.getter
  have hinit := hsymbols.init
  have hfree := hsymbols.free
  have hparameters : tokens "()\x7b" = ["(", ")", "\x7b"] := by decide
  have hallocate : tokens " * self = malloc(sizeof(*self));" =
      ["*", "self", "=", "malloc", "(", "sizeof", "(", "*", "self", ")", ")", ";"] := by decide
  have htest : tokens "if (!self)" = ["if", "(", "!", "self", ")"] := by decide
  have hnull : tokens "return NULL;" = ["return", "NULL", ";"] := by decide
  have hinstall : tokens "(self)->free = " = ["(", "self", ")", "-", ">", "free", "="] := by decide
  have hend : tokens ";" = [";"] := by decide
  have hopen : tokens "(self))\x7b" = ["(", "self", ")", ")", "\x7b"] := by decide
  have hrelease : tokens "free(self);" = ["free", "(", "self", ")", ";"] := by decide
  obtain ⟨_, _, _, _, _, _, _, mode⟩ := blueprint
  cases mode <;>
    simp (disch := first | assumption | decide) [constructorDefinition, allocationCheck,
      initialisation, constructorTokens, allocation, installation, initialiserCall, returnSelf,
      Layout.when, Layout.block, Layout.all, Layout.tokens, tokens_append_mark,
      tokens_append_mark_name, tokens_append_name, tokens_name, hparameters, hallocate, htest,
      hnull, hinstall, hend, hopen, hrelease]

theorem tokens_getterDefinition (hsymbols : blueprint.symbols.Admissible) :
    blueprint.getterDefinition.tokens =
      [blueprint.symbols.typeName, "*", blueprint.symbols.getter, "(", "void", "*", "self", ")",
        "\x7b", "return", "self", ";", "\x7d"] := by
  have htype := hsymbols.typeName
  have hgetter := hsymbols.getter
  simp (disch := first | assumption | decide) [getterDefinition, Layout.block, Layout.all,
    Layout.tokens, tokens_append_mark, tokens_append_mark_name, tokens_name, returnSelf]

theorem tokens_initialiserDefinition (hsymbols : blueprint.symbols.Admissible)
    (hbase : blueprint.base.Admissible) :
    blueprint.initialiserDefinition.tokens =
      ["bool", blueprint.symbols.init, "(", blueprint.symbols.typeName, "*", "self", ")", "\x7b",
        "if", "(", "!", blueprint.base.init, "(", blueprint.base.getter, "(", "self", ")", ")", ")",
        "return", "false", ";", "return", "true", ";", "\x7d"] := by
  have hinit := hsymbols.init
  have htype := hsymbols.typeName
  have hbaseInit := hbase.init
  have hgetter := hbase.getter
  have hbool : tokens "bool " = ["bool"] := by decide
  have hparen : tokens "(" = ["("] := by decide
  have hparameters : tokens " * self)\x7b" = ["*", "self", ")", "\x7b"] := by decide
  have hself : tokens "(self)))" = ["(", "self", ")", ")", ")"] := by decide
  have hfalse : tokens "return false;" = ["return", "false", ";"] := by decide
  have htrue : tokens "return true;" = ["return", "true", ";"] := by decide
  simp (disch := first | assumption | decide) [initialiserDefinition, Layout.block, Layout.all,
    Layout.tokens, tokens_append_mark, tokens_append_mark_name, tokens_append_name, hbool, hparen,
    hparameters, hself, hfalse, htrue]

theorem tokens_destructorDefinition (hsymbols : blueprint.symbols.Admissible)
    (hbase : blueprint.base.Admissible) :
    blueprint.destructorDefinition.tokens =
      ["void", blueprint.symbols.free, "(", "void", "*", "self", ")", "\x7b", blueprint.base.free,
        "(", "self", ")", ";", "\x7d"] := by
  have hfree := hsymbols.free
  have hbaseFree := hbase.free
  have hvoid : tokens "void " = ["void"] := by decide
  simp (disch := first | assumption | decide) [destructorDefinition, Layout.block, Layout.all,
    Layout.tokens, tokens_append_mark, tokens_append_name, tokens_name, hvoid]

/-! ### What the tokens are -/

def marks : List String := ["(", ")", "\x7b", "\x7d", "*", "=", ";", "!", "-", ">"]

theorem not_isIdentifier_of_mem_marks {token : String} (h : token ∈ marks) :
    ¬ IsIdentifier token := by
  have hmarks : (marks.all fun mark => mark.toList.any (!isNameChar ·)) = true := by decide
  intro hidentifier
  obtain ⟨c, hc, hmark⟩ := List.any_eq_true.mp (List.all_eq_true.mp hmarks token h)
  rw [hidentifier.isNameChar hc] at hmark
  cases hmark

def Knows (blueprint : Blueprint) (word : String) : Prop :=
  word ∈ templateWords ∨
    (∃ kind ∈ [SymbolKind.typeName, .constructor, .getter, .init, .free],
      word = blueprint.symbols.symbol kind) ∨
    ∃ kind ∈ [SymbolKind.getter, .init, .free], word = blueprint.base.symbol kind

def definitionTokens (blueprint : Blueprint) : List String :=
  blueprint.constructorDefinition.tokens ++ (blueprint.getterDefinition.tokens ++
    (blueprint.initialiserDefinition.tokens ++ blueprint.destructorDefinition.tokens))

theorem knows_of_mem_definitionTokens (hsymbols : blueprint.symbols.Admissible)
    (hbase : blueprint.base.Admissible) :
    ∀ token ∈ blueprint.definitionTokens, token ∈ marks ∨ blueprint.Knows token := by
  rw [definitionTokens, tokens_constructorDefinition hsymbols hbase,
    tokens_getterDefinition hsymbols, tokens_initialiserDefinition hsymbols hbase,
    tokens_destructorDefinition hsymbols hbase]
  have hbody : ∀ token ∈ blueprint.constructorTokens, token ∈ marks ∨ blueprint.Knows token := by
    unfold constructorTokens
    split <;> simp [allocation, installation, initialiserCall, returnSelf, marks, Knows,
      templateWords, Symbols.symbol]
  simp only [List.forall_mem_append]
  refine ⟨⟨⟨?_, hbody⟩, ?_⟩, ?_, ?_, ?_⟩ <;>
    simp [marks, Knows, templateWords, Symbols.symbol]

theorem bodyOf?_definitionTokens (hsymbols : blueprint.symbols.Admissible)
    (hbase : blueprint.base.Admissible) :
    bodyOf? blueprint.symbols.constructor blueprint.definitionTokens =
      some blueprint.constructorTokens := by
  have hbrace {name : String} (hname : checkName name = .ok ()) :
      name ≠ "\x7b" ∧ name ≠ "\x7d" := by
    constructor <;> rintro rfl <;> cases hname
  have htype := hbrace hsymbols.typeName
  have hgetter := hbrace hbase.getter
  have hinit := hbrace hsymbols.init
  have hfree := hbrace hsymbols.free
  rw [definitionTokens, tokens_constructorDefinition hsymbols hbase]
  unfold constructorTokens
  split <;>
    simp [bodyOf?, after?, untilClosed, allocation, installation, initialiserCall, returnSelf,
      htype, hgetter, hinit, hfree]

theorem standInOrder_constructorTokens (blueprint : Blueprint) :
    StandInOrder [blueprint.allocation, blueprint.installation, blueprint.initialiserCall,
      returnSelf] blueprint.constructorTokens := by
  unfold constructorTokens
  split
  · refine ⟨[], _, ?_, [], _, rfl, [], _, rfl, [";"], [], rfl, trivial⟩
    simp [List.append_assoc]
  · refine ⟨[], _, ?_, ["if", "(", "!", "self", ")", "return", "NULL", ";"], _, rfl,
      ["if", "(", "!"], _, rfl, [")", "\x7b", "free", "(", "self", ")", ";", "return", "NULL", ";",
        "\x7d"], [], rfl, trivial⟩
    simp [List.append_assoc]

section Counts

variable {name base : String}

/-- All symbols start with the mark, and no word of the template does. -/
theorem symbol_notMem_template (h : checkName name = .ok ()) (kind : SymbolKind) :
    (Symbols.derive name).symbol kind ∉ marks ++ templateWords := by
  have htemplate : ∀ token ∈ marks ++ templateWords, token.toList.head? ≠ some 'C' := by decide
  obtain ⟨rest, hrest⟩ := SymbolKind.toList_symbol h kind
  intro hmem
  exact htemplate _ hmem (by rw [hrest]; rfl)

theorem count_constructorTokens {token : String} (hname : checkName name = .ok ())
    (hbaseName : checkName base = .ok ()) (hsymbols : blueprint.symbols = .derive name)
    (hbase : blueprint.base = .derive base) (htoken : token ∈ ["malloc", ">"]) :
    blueprint.constructorTokens.count token = 1 := by
  have htemplate : token ∈ marks ++ templateWords := by
    revert token
    decide
  have hne {name : String} (hname : checkName name = .ok ()) (kind : SymbolKind) :
      (Symbols.derive name).symbol kind ≠ token := by
    rintro rfl
    exact symbol_notMem_template hname kind htemplate
  have htype : blueprint.symbols.typeName ≠ token := hsymbols ▸ hne hname .typeName
  have hfree : blueprint.symbols.free ≠ token := hsymbols ▸ hne hname .free
  have hinit : blueprint.symbols.init ≠ token := hsymbols ▸ hne hname .init
  have hgetter : blueprint.base.getter ≠ token := hbase ▸ hne hbaseName .getter
  simp only [List.mem_cons, List.not_mem_nil, or_false] at htoken
  unfold constructorTokens
  rcases htoken with rfl | rfl <;> split <;>
    simp (disch := first | assumption | decide) only [allocation, installation, initialiserCall,
      returnSelf, List.cons_append, List.nil_append, List.count_cons_of_ne, List.count_cons_self,
      List.count_nil]

theorem count_init_constructorTokens (hname : checkName name = .ok ())
    (hbaseName : checkName base = .ok ()) (hsymbols : blueprint.symbols = .derive name)
    (hbase : blueprint.base = .derive base) :
    blueprint.constructorTokens.count blueprint.symbols.init = 1 := by
  have hown (kind : SymbolKind) (hkind : kind ≠ .init) :
      blueprint.symbols.symbol kind ≠ blueprint.symbols.init := by
    rw [hsymbols]
    intro heq
    exact hkind (SymbolKind.eq_of_collides_self
      ((SymbolKind.symbol_eq_symbol_iff hname hname kind .init).mp heq))
  have htype : blueprint.symbols.typeName ≠ blueprint.symbols.init := hown .typeName nofun
  have hfree : blueprint.symbols.free ≠ blueprint.symbols.init := hown .free nofun
  have hgetter : blueprint.base.getter ≠ blueprint.symbols.init := by
    rw [hsymbols, hbase]
    intro heq
    cases ((SymbolKind.symbol_eq_symbol_iff hbaseName hname .getter .init).mp heq).1
  have htemplate : ∀ token ∈ marks ++ templateWords, token ≠ blueprint.symbols.init := by
    rw [hsymbols]
    rintro token hmem rfl
    exact symbol_notMem_template hname .init hmem
  simp only [marks, templateWords, List.cons_append, List.nil_append, List.forall_mem_cons]
    at htemplate
  unfold constructorTokens
  split <;>
    simp only [allocation, installation, initialiserCall, returnSelf, List.cons_append,
      List.nil_append, List.count_cons_of_ne, List.count_cons_self, List.count_nil, ne_eq, htype,
      hfree, hgetter, htemplate, not_false_eq_true]

theorem occurrences_constructorTokens (hname : checkName name = .ok ())
    (hbaseName : checkName base = .ok ()) (hsymbols : blueprint.symbols = .derive name)
    (hbase : blueprint.base = .derive base) :
    ∀ phrase ∈ [blueprint.allocation, blueprint.installation, blueprint.initialiserCall,
      returnSelf], occurrences phrase blueprint.constructorTokens = 1 := by
  have hinfix := (standInOrder_constructorTokens blueprint).isInfix
  simp only [List.forall_mem_cons] at hinfix ⊢
  obtain ⟨hallocation, hinstallation, hcall, -⟩ := hinfix
  have hmalloc : blueprint.constructorTokens.count "malloc" = 1 :=
    count_constructorTokens hname hbaseName hsymbols hbase (by decide)
  have harrow : blueprint.constructorTokens.count ">" = 1 :=
    count_constructorTokens hname hbaseName hsymbols hbase (by decide)
  have hinit := count_init_constructorTokens hname hbaseName hsymbols hbase
  refine ⟨occurrences_eq_one (by simp [allocation]) hmalloc hallocation,
    occurrences_eq_one (by simp [installation]) harrow hinstallation,
    occurrences_eq_one (by simp [initialiserCall]) hinit hcall, ?_, List.forall_mem_nil _⟩
  -- No word of the last phrase stands there only once.
  unfold constructorTokens
  split <;> simp [occurrences, allocation, installation, initialiserCall, returnSelf]

end Counts

/-! ### The header -/

/-- The header text declares a type of this name, or a function. -/
def IsDeclaredIn (name header : String) : Prop :=
  (∃ member, ["typedef struct\x7b", member, "\x7d " ++ name ++ ";"] <:+: codeLines header) ∨
    name ∈ (functionsIn ';' (codeLines header)).map Signature.name

theorem isDeclaredIn_header (h : blueprint.StaysInComments)
    (hsymbols : blueprint.symbols.Admissible) :
    ∀ kind ∈ [SymbolKind.typeName, .constructor, .getter, .init, .free],
      IsDeclaredIn (blueprint.symbols.symbol kind) blueprint.render.header := by
  have hcode := codeLines_header h hsymbols
  have hstruct : ["typedef struct\x7b", tabs 1 ++ (blueprint.base.typeName ++ " base; "),
      "\x7d " ++ blueprint.symbols.typeName ++ ";"] <:+: codeLines blueprint.render.header := by
    rw [hcode, List.append_assoc]
    exact List.infix_append _ _ _
  have hfunctions : ∀ signature ∈ blueprint.symbols.signatures "void",
      signature ∈ functionsIn ';' (codeLines blueprint.render.header) := by
    intro signature hsignature
    rw [hcode, functionsIn_append, functionsIn_append,
      functionsIn_spellings (hsymbols.isPlain (by decide))]
    exact List.mem_append_left _ (List.mem_append_right _ hsignature)
  have hname (signature : Signature) (h : signature ∈ blueprint.symbols.signatures "void") :
      IsDeclaredIn signature.name blueprint.render.header :=
    Or.inr (List.mem_map_of_mem (hfunctions signature h))
  simp only [Symbols.signatures, List.forall_mem_cons] at hname ⊢
  obtain ⟨hconstructor, hgetter, hinit, hfree, -⟩ := hname
  exact ⟨Or.inl ⟨_, hstruct⟩, hconstructor, hgetter, hinit, hfree, List.forall_mem_nil _⟩

theorem tokens_source (h : blueprint.StaysInComments)
    (hsymbols : blueprint.symbols.Admissible) :
    (codeLines blueprint.render.source).tail.flatMap tokens = blueprint.definitionTokens := by
  rw [codeLines_source h hsymbols, List.tail_cons]
  simp only [List.flatMap_append, Layout.flatMap_tokens_lines]
  rfl

/-- **The source is closed, and its constructor is in order.** For admissible names of the type and
of its base, in either mode and whatever free text the lint lets through: after the inclusion of the
header every identifier in the code of the source is a word of the template, a symbol of the type or
a function of the base, and the header declares all of these symbols of the type. The body of the
constructor allocates, installs the destructor, calls the initialiser and returns the object, each
of it once and in this order. -/
theorem source_closed {name base : String} {blueprint : Blueprint}
    (hname : checkName name = .ok ()) (hbaseName : checkName base = .ok ())
    (hsymbols : blueprint.symbols = .derive name) (hbase : blueprint.base = .derive base)
    (hauthor : Lint.commentBreak? blueprint.author = none)
    (hdescription : Lint.commentBreak? blueprint.description = none)
    (hdate : blueprint.dateStamp.toList.any isLineBreak = false)
    (hproject : blueprint.project.toList.any isLineBreak = false)
    (hcopyright : blueprint.copyright.toList.any isLineBreak = false) :
    let pair := blueprint.render
    let text := (codeLines pair.source).tail.flatMap tokens
    let phrases := [blueprint.allocation, blueprint.installation, blueprint.initialiserCall,
      returnSelf]
    (codeLines pair.source).head? = some ("#include \"" ++ blueprint.symbols.headerFile ++ "\"") ∧
      (∀ token ∈ text, IsIdentifier token → blueprint.Knows token) ∧
      (∀ kind ∈ [SymbolKind.typeName, .constructor, .getter, .init, .free],
        IsDeclaredIn (blueprint.symbols.symbol kind) pair.header) ∧
      ∃ body, bodyOf? blueprint.symbols.constructor text = some body ∧
        StandInOrder phrases body ∧ (∀ phrase ∈ phrases, occurrences phrase body = 1) ∧
        body.count "malloc" = 1 ∧ body.count blueprint.symbols.init = 1 := by
  intro pair text phrases
  have hown : blueprint.symbols.Admissible := hsymbols ▸ Symbols.admissible_derive hname
  have hcomments := staysInComments_of_commentBreak? hname hbaseName hsymbols hbase hauthor
    hdescription hdate hproject hcopyright
  have htext : text = blueprint.definitionTokens := tokens_source hcomments hown
  refine ⟨?inclusion, ?known, isDeclaredIn_header hcomments hown, blueprint.constructorTokens,
    ?body, standInOrder_constructorTokens blueprint,
    occurrences_constructorTokens hname hbaseName hsymbols hbase,
    count_constructorTokens hname hbaseName hsymbols hbase (by decide),
    count_init_constructorTokens hname hbaseName hsymbols hbase⟩
  case inclusion =>
    rw [codeLines_source hcomments hown]
    rfl
  case known =>
    rw [htext]
    intro token hmem hidentifier
    exact (knows_of_mem_definitionTokens hown hcomments.base token hmem).resolve_left
      fun hmark => not_isIdentifier_of_mem_marks hmark hidentifier
  case body =>
    rw [htext]
    exact bodyOf?_definitionTokens hown hcomments.base

/-- A type named like the getter of its base, and free text that looks like code. -/
theorem source_closed_getBase :
    let blueprint : Blueprint := {
      symbols := .derive "GetBase", base := .derive "Base", author := "free(x); /* // ",
      description := "int y() \x7b", dateStamp := "01/02/2012", project := "*/ return z;",
      copyright := "malloc(1)", constructor := .checked }
    let pair := blueprint.render
    let text := (codeLines pair.source).tail.flatMap tokens
    let phrases := [blueprint.allocation, blueprint.installation, blueprint.initialiserCall,
      returnSelf]
    (codeLines pair.source).head? = some "#include \"CBGetBase.h\"" ∧
      (∀ token ∈ text, IsIdentifier token → blueprint.Knows token) ∧
      (∀ kind ∈ [SymbolKind.typeName, .constructor, .getter, .init, .free],
        IsDeclaredIn (blueprint.symbols.symbol kind) pair.header) ∧
      ∃ body, bodyOf? "CBNewGetBase" text = some body ∧
        StandInOrder phrases body ∧ (∀ phrase ∈ phrases, occurrences phrase body = 1) ∧
        body.count "malloc" = 1 ∧ body.count "CBInitGetBase" = 1 :=
  @source_closed "GetBase" "Base" _ rfl rfl rfl rfl (by decide) (by decide) (by decide)
    (by decide) (by decide)

end Blueprint

end Scaffold
