import Scaffold.Artifact.Pair
import Scaffold.Proofs.Signatures

/-!
# Declarations and definitions agree

What the header declares and what the source defines is one list of four functions, read from the
texts. Both are followed layout by layout: the lines of signatures give their signatures, and all
other lines give nothing, whatever free text stands in them.
-/

namespace Scaffold

namespace Layout

variable {ending : Char} {level : Nat} {text opening close : String}
variable {layout first second body : Layout} {found others : List Signature}

def Spells (layout : Layout) (ending : Char) (level : Nat) (found : List Signature) : Prop :=
  ∀ rest, functions ending ((layout.added level).toList ++ rest) = found ++ functions ending rest

theorem Spells.seq (hfirst : first.Spells ending level found)
    (hsecond : second.Spells ending (first.levelAfter level) others) :
    (Layout.seq first second).Spells ending level (found ++ others) := by
  intro rest
  rw [added_seq, String.toList_append, List.append_assoc, hfirst, hsecond, List.append_assoc]

theorem Spells.seq_of_levelAfter (hfirst : first.Spells ending level found)
    (hlevel : first.levelAfter level = level) (hsecond : second.Spells ending level others) :
    (Layout.seq first second).Spells ending level (found ++ others) :=
  hfirst.seq (hlevel.symm ▸ hsecond)

theorem Spells.functions_added (h : layout.Spells ending level found) :
    functions ending (layout.added level).toList = found := by
  have hnil := h []
  rw [List.append_nil] at hnil
  exact hnil.trans (List.append_nil found)

def IsQuiet (layout : Layout) (level : Nat) : Prop :=
  ∀ emission ∈ layout.emissions level, emission = .blank ∨ ∃ depth text,
    emission = .line depth text ∧ '\n' ∉ text.toList ∧ IsQuietLine (tabs depth ++ text).toList

theorem IsQuiet.seq (hfirst : first.IsQuiet level)
    (hsecond : second.IsQuiet (first.levelAfter level)) :
    (Layout.seq first second).IsQuiet level :=
  Every.seq hfirst hsecond

theorem notMem_tabs_append {c : Char} (htab : c ≠ '\t') (h : c ∉ text.toList) (level : Nat) :
    c ∉ (tabs level ++ text).toList := by
  exact notMem_append (notMem_tabs htab level) h

theorem isQuiet_line (hbreak : '\n' ∉ text.toList)
    (hquiet : IsQuietLine (tabs level ++ text).toList) : (line text).IsQuiet level := by
  intro emission hmem
  exact Or.inr ⟨level, text, List.mem_singleton.mp hmem, hbreak, hquiet⟩

theorem functions_line (hbreak : '\n' ∉ text.toList) (rest : List Char) :
    functions ending ((Emission.line level text).text.toList ++ rest) =
      (signature? ending (Text.dropReturn (tabs level ++ text).toList)).toList ++
        functions ending rest := by
  have hline : '\n' ∉ (tabs level ++ text).toList := notMem_tabs_append (by decide) hbreak level
  rw [← functions_append hline, Emission.text, String.toList_append, List.append_assoc]
  rfl

theorem IsQuiet.spells (h : layout.IsQuiet level) : layout.Spells ending level [] := by
  intro rest
  unfold IsQuiet at h
  unfold added
  generalize layout.emissions level = emissions at h ⊢
  induction emissions with
  | nil => rfl
  | cons emission emissions ih =>
      have htail := ih fun other hmem => h other (List.mem_cons_of_mem _ hmem)
      rw [Emission.concat, String.toList_append, List.append_assoc]
      rcases h emission List.mem_cons_self with rfl | ⟨depth, text, rfl, hbreak, hquiet⟩
      · exact (functions_append List.not_mem_nil _).trans htail
      · rw [functions_line hbreak, hquiet.dropReturn.signature?_eq_none ending]
        exact htail

theorem spells_signature {signature : Signature} (h : signature.IsPlain) (hbreak : ending ≠ '\n')
    (hreturn : ending ≠ '\r') (htext : text.toList = signature.spell ending) :
    (line text).Spells ending 0 [signature] := by
  intro rest
  have hnotMem : '\n' ∉ text.toList := htext ▸ h.notMem_spell hbreak
  have hwhole : Text.dropReturn (signature.spell ending) = signature.spell ending := by
    unfold Text.dropReturn Signature.spell
    rw [Text.stripEnd_concat_of_ne hreturn]
    rfl
  have hline : (tabs 0 ++ text).toList = signature.spell ending := by
    rw [String.toList_append, htext]
    rfl
  have hadded : (line text).added 0 = (Emission.line 0 text).text := String.append_empty
  rw [hadded, functions_line hnotMem, hline, hwhole, h.signature?_spell]
  rfl

theorem IsQuiet.spells_seq (hfirst : first.IsQuiet level)
    (hsecond : second.Spells ending (first.levelAfter level) found) :
    (Layout.seq first second).Spells ending level found :=
  hfirst.spells.seq hsecond

theorem Spells.functions_seq (hfirst : first.Spells ending level found)
    (hsecond : functions ending (second.added (first.levelAfter level)).toList = others) :
    functions ending ((Layout.seq first second).added level).toList = found ++ others := by
  rw [added_seq, String.toList_append, hfirst, hsecond]

theorem IsQuiet.functions_seq (hfirst : first.IsQuiet level)
    (hsecond : functions ending (second.added (first.levelAfter level)).toList = found) :
    functions ending ((Layout.seq first second).added level).toList = found :=
  hfirst.spells.functions_seq hsecond

theorem spells_skip : skip.Spells ending level [] := fun _ => rfl

theorem isQuiet_blank : blank.IsQuiet level :=
  fun _ hmem => Or.inl (List.mem_singleton.mp hmem)

theorem isQuiet_skip : skip.IsQuiet level := every_skip

theorem isQuiet_indent : indent.IsQuiet level := every_indent

theorem isQuiet_dedent : dedent.IsQuiet level := every_dedent

theorem isQuiet_unopened (hbreak : '\n' ∉ text.toList) (hparen : '(' ∉ text.toList) :
    (line text).IsQuiet level :=
  isQuiet_line hbreak (Or.inr (notMem_tabs_append (by decide) hparen level))

theorem isQuiet_aside (hbreak : '\n' ∉ text.toList) (haside : isAside text.toList = true) :
    (line text).IsQuiet 0 := by
  refine isQuiet_line hbreak (Or.inl ?_)
  rw [String.toList_append]
  exact haside

theorem isQuiet_indented (hbreak : '\n' ∉ text.toList) : (line text).IsQuiet (level + 1) := by
  refine isQuiet_line hbreak (Or.inl ?_)
  rw [String.toList_append, toList_tabs]
  rfl

theorem isQuiet_heading (h : '\n' ∉ text.toList) : (heading text).IsQuiet 0 := by
  have htitle : (line ("//  " ++ text)).IsQuiet 0 :=
    isQuiet_aside (notMem_append (by decide) h) (by simp [isAside])
  exact htitle.seq (isQuiet_blank.seq isQuiet_skip)

theorem isQuiet_each {lines : List String} (h : ∀ text ∈ lines, '\n' ∉ text.toList) :
    (each lines fun text => line (" " ++ text)).IsQuiet 0 := by
  induction lines with
  | nil => exact isQuiet_skip
  | cons text rest ih =>
      have htext : (line (" " ++ text)).IsQuiet 0 :=
        isQuiet_aside (notMem_append (by decide) (h text List.mem_cons_self)) (by simp [isAside])
      exact htext.seq (ih fun other hmem => h other (List.mem_cons_of_mem _ hmem))

theorem isQuiet_doxygen {lines : List String} (h : ∀ text ∈ lines, '\n' ∉ text.toList)
    (hclose : (line close).IsQuiet 0) : (doxygen lines close).IsQuiet 0 := by
  have hopen : (line "/**").IsQuiet 0 := isQuiet_aside (by decide) (by decide)
  have hlevel : (each lines fun text => line (" " ++ text)).levelAfter 0 = 0 := by
    induction lines with
    | nil => rfl
    | cons text rest ih => exact ih fun other hmem => h other (List.mem_cons_of_mem _ hmem)
  refine hopen.seq ((isQuiet_each h).seq ?_)
  change (Layout.seq (line close) skip).IsQuiet
    ((each lines fun text => line (" " ++ text)).levelAfter 0)
  rw [hlevel]
  exact hclose.seq isQuiet_skip

def KeepsQuiet (layout : Layout) (level : Nat) : Prop :=
  layout.IsQuiet level ∧ layout.levelAfter level = level

theorem KeepsQuiet.seq (hfirst : first.KeepsQuiet level) (hsecond : second.KeepsQuiet level) :
    (Layout.seq first second).KeepsQuiet level := by
  obtain ⟨hfirst, hlevel⟩ := hfirst
  unfold KeepsQuiet levelAfter
  rw [hlevel]
  exact ⟨hfirst.seq (hlevel.symm ▸ hsecond.1), hsecond.2⟩

theorem keepsQuiet_indented (hbreak : '\n' ∉ text.toList) : (line text).KeepsQuiet (level + 1) :=
  ⟨isQuiet_indented hbreak, rfl⟩

theorem keepsQuiet_skip : skip.KeepsQuiet level := ⟨isQuiet_skip, rfl⟩

theorem isQuiet_block_rest (hbody : body.KeepsQuiet (level + 1))
    (hclose : (line close).IsQuiet level) :
    (all [indent, body, dedent, line close]).IsQuiet level := by
  have hend : (all [dedent, line close]).IsQuiet (body.levelAfter (level + 1)) := by
    rw [hbody.2]
    exact isQuiet_dedent.seq (hclose.seq isQuiet_skip)
  exact isQuiet_indent.seq (hbody.1.seq hend)

theorem spells_block (hopen : (line opening).Spells ending level found)
    (hrest : (all [indent, body, dedent, line close]).IsQuiet level) :
    (block opening close body).Spells ending level found := by
  have hblock := hopen.seq hrest.spells
  rw [List.append_nil] at hblock
  exact hblock

end Layout

/-! ### The four functions -/

namespace Symbols

def signatures (symbols : Symbols) (parameters : String) : List Signature :=
  [⟨[symbols.typeName, "*"], symbols.constructor, parameters⟩,
    ⟨[symbols.typeName, "*"], symbols.getter, "void * self"⟩,
    ⟨["bool"], symbols.init, symbols.typeName ++ " * self"⟩,
    ⟨["void"], symbols.free, "void * self"⟩]

variable {symbols : Symbols}

theorem Admissible.isPlain (h : symbols.Admissible) {parameters : String}
    (hparameters : '\n' ∉ parameters.toList) :
    ∀ signature ∈ symbols.signatures parameters, signature.IsPlain := by
  have hstar : IsWord "*" := ⟨by decide, by simp⟩
  have hpointer : ∀ word ∈ [symbols.typeName, "*"], IsWord word :=
    List.forall_mem_cons.mpr ⟨isWord h.typeName, List.forall_mem_singleton.mpr hstar⟩
  have hbool : ∀ word ∈ ["bool"], IsWord word := List.forall_mem_singleton.mpr (isWord rfl)
  have hvoid : ∀ word ∈ ["void"], IsWord word := List.forall_mem_singleton.mpr (isWord rfl)
  have hself : '\n' ∉ "void * self".toList := by decide
  have htyped : '\n' ∉ (symbols.typeName ++ " * self").toList :=
    notMem_append (notMem_of_checkName h.typeName (by decide)) (by decide)
  simp only [signatures, List.forall_mem_cons]
  exact ⟨⟨hpointer, isWord h.constructor, hparameters⟩, ⟨hpointer, isWord h.getter, hself⟩,
    ⟨hbool, isWord h.init, htyped⟩, ⟨hvoid, isWord h.free, hself⟩, List.forall_mem_nil _⟩

theorem nodup_names_signatures (name parameters : String) :
    (((derive name).signatures parameters).map Signature.name).Nodup := by
  have hne {first second : String} {c d : Char} (h : c ≠ d)
      (hfirst : first.toList[2]? = some c) (hsecond : second.toList[2]? = some d) :
      first ≠ second := by
    rintro rfl
    exact h (Option.some.inj (hfirst.symm.trans hsecond))
  have hconstructor : (derive name).constructor.toList[2]? = some 'N' := by
    simp [derive, symbolMark]
  have hgetter : (derive name).getter.toList[2]? = some 'G' := by simp [derive, symbolMark]
  have hinit : (derive name).init.toList[2]? = some 'I' := by simp [derive, symbolMark]
  have hfree : (derive name).free.toList[2]? = some 'F' := by simp [derive, symbolMark]
  simp [signatures, hne _ hconstructor hgetter, hne _ hconstructor hinit, hne _ hconstructor hfree,
    hne _ hgetter hinit, hne _ hgetter hfree, hne _ hinit hfree]

end Symbols

namespace Blueprint

open Layout

variable {blueprint : Blueprint}

structure StaysOnLines (blueprint : Blueprint) : Prop where
  symbols : blueprint.symbols.Admissible
  base : blueprint.base = Symbols.base
  isFreeOf : blueprint.IsFreeOf '\n'
  description : '\n' ∉ blueprint.description.toList

theorem isQuiet_license (h : blueprint.StaysOnLines) {ending : String}
    (hending : '\n' ∉ ending.toList) :
    (blueprint.license (blueprint.symbols.fileBase ++ ending)).IsQuiet 0 := by
  have hfile := notMem_append (notMem_of_checkName h.symbols.fileBase (by decide)) hending
  intro emission hmem
  obtain ⟨text, rfl, rest, htext, hbreak⟩ :=
    isLineComment_license (by decide) h.isFreeOf hfile emission hmem
  refine Or.inr ⟨0, text, rfl, hbreak, Or.inl ?_⟩
  rw [String.toList_append, htext]
  rfl

theorem isQuiet_structDeclaration (h : blueprint.StaysOnLines) :
    blueprint.structDeclaration.IsQuiet 0 := by
  have htype {c : Char} (hc : isNameChar c = false) := notMem_of_checkName h.symbols.typeName hc
  have hbreak : '\n' ∉ blueprint.symbols.typeName.toList := htype (by decide)
  have hparen : '(' ∉ blueprint.symbols.typeName.toList := htype (by decide)
  have hfile : '\n' ∉ blueprint.symbols.headerFile.toList :=
    notMem_append (notMem_of_checkName h.symbols.fileBase (by decide)) (by decide)
  have hopen : (line "typedef struct\x7b").IsQuiet 0 := isQuiet_unopened (by decide) (by decide)
  have hbody : (line (blueprint.base.typeName ++ " base; /**< " ++ blueprint.base.typeName ++
      " base structure */")).KeepsQuiet 1 := by
    rw [h.base]
    exact keepsQuiet_indented (by decide)
  have hclose : (line ("\x7d " ++ blueprint.symbols.typeName ++ ";")).IsQuiet 0 :=
    isQuiet_unopened (by simp [hbreak]) (by simp [hparen])
  have hcomment : ∀ text ∈ ["@brief Structure for " ++ blueprint.symbols.typeName ++
      " objects. @see " ++ blueprint.symbols.headerFile], '\n' ∉ text.toList := by
    simp [hbreak, hfile]
  exact (isQuiet_doxygen hcomment (isQuiet_unopened (by decide) (by decide))).seq
    ((hopen.seq (isQuiet_block_rest hbody hclose)).seq isQuiet_skip)

theorem spells_functionDeclarations (h : blueprint.StaysOnLines) :
    blueprint.functionDeclarations.Spells ';' 0 (blueprint.symbols.signatures "void") := by
  have hbreak : '\n' ∉ blueprint.symbols.typeName.toList :=
    notMem_of_checkName h.symbols.typeName (by decide)
  have hvoid : '\n' ∉ "void".toList := by decide
  have hplain := h.symbols.isPlain hvoid
  simp only [Symbols.signatures, List.forall_mem_cons] at hplain
  obtain ⟨hconstructor, hgetter, hinit, hfree, _⟩ := hplain
  have hpromise : '\n' ∉ blueprint.constructorPromise.toList := by
    unfold constructorPromise
    split <;> simp [hbreak]
  have hdoc {lines : List String} (hlines : ∀ text ∈ lines, '\n' ∉ text.toList) :
      (doxygen lines " */").IsQuiet 0 :=
    isQuiet_doxygen hlines (isQuiet_unopened (by decide) (by decide))
  have hdeclare {text : String} {signature : Signature} (hsignature : signature.IsPlain)
      (htext : text.toList = signature.spell ';') : (line text).Spells ';' 0 [signature] :=
    spells_signature hsignature (by decide) (by decide) htext
  unfold functionDeclarations
  refine (hdoc (by simp [hbreak, hpromise])).spells_seq ?_
  refine Spells.seq (hdeclare hconstructor (by simp [Signature.spell])) ?_
  refine isQuiet_blank.spells_seq ((hdoc (by simp [hbreak])).spells_seq ?_)
  refine Spells.seq (hdeclare hgetter (by simp [Signature.spell])) ?_
  refine isQuiet_blank.spells_seq ((hdoc (by simp [hbreak])).spells_seq ?_)
  refine Spells.seq (hdeclare hinit (by simp [Signature.spell])) ?_
  refine isQuiet_blank.spells_seq ((hdoc (by simp [hbreak])).spells_seq ?_)
  exact Spells.seq (hdeclare hfree (by simp [Signature.spell])) spells_skip

theorem functions_header (h : blueprint.StaysOnLines) :
    functions ';' blueprint.render.header.toList = blueprint.symbols.signatures "void" := by
  have hguard : '\n' ∉ blueprint.symbols.guard.toList :=
    notMem_of_checkName h.symbols.guard (by decide)
  have hfile : ∀ text ∈ ["@file", "@brief " ++ blueprint.description ++ " Inherits " ++
      blueprint.base.typeName], '\n' ∉ text.toList := by
    have hbase : '\n' ∉ Symbols.base.typeName.toList := by decide
    simp [h.base, h.description, hbase]
  have hclose : (line "*/").IsQuiet 0 := isQuiet_unopened (by decide) (by decide)
  have hcomment := isQuiet_doxygen hfile hclose
  have hifndef : (line ("#ifndef " ++ blueprint.symbols.guard)).IsQuiet 0 :=
    isQuiet_aside (by simp [hguard]) (by simp [isAside])
  have hdefine : (line ("#define " ++ blueprint.symbols.guard)).IsQuiet 0 :=
    isQuiet_aside (by simp [hguard]) (by simp [isAside])
  have hinclude : (line ("#include \"" ++ blueprint.base.headerFile ++ "\"")).IsQuiet 0 := by
    rw [h.base]
    exact isQuiet_aside (by decide) (by decide)
  have hspace : (line " ").IsQuiet 0 := isQuiet_aside (by decide) (by decide)
  have hlast : functions ';' ((all [raw "#endif"]).added 0).toList = [] := by decide
  change functions ';' blueprint.header.render.toList = _
  rw [render_eq_added]
  unfold header
  refine (isQuiet_license h (by decide)).functions_seq ?_
  refine isQuiet_blank.functions_seq (hcomment.functions_seq (isQuiet_blank.functions_seq ?_))
  refine hifndef.functions_seq (hdefine.functions_seq (isQuiet_blank.functions_seq ?_))
  refine (isQuiet_heading (by decide)).functions_seq (hinclude.functions_seq ?_)
  refine isQuiet_blank.functions_seq ((isQuiet_structDeclaration h).functions_seq ?_)
  refine isQuiet_blank.functions_seq ((spells_functionDeclarations h).functions_seq ?_)
  exact hspace.functions_seq ((isQuiet_heading (by decide)).functions_seq hlast)

theorem keepsQuiet_initialisation (h : blueprint.StaysOnLines) :
    blueprint.initialisation.KeepsQuiet 1 := by
  have hinit : '\n' ∉ blueprint.symbols.init.toList :=
    notMem_of_checkName h.symbols.init (by decide)
  unfold initialisation
  split
  · exact keepsQuiet_indented (by simp [hinit])
  · have hopen : (line ("if (!" ++ blueprint.symbols.init ++ "(self))\x7b")).IsQuiet 1 :=
      isQuiet_indented (by simp [hinit])
    have hbody : (all [line "free(self);", line "return NULL;"]).KeepsQuiet 2 :=
      (keepsQuiet_indented (by decide)).seq ((keepsQuiet_indented (by decide)).seq keepsQuiet_skip)
    have hclose : (line "\x7d").IsQuiet 1 := isQuiet_indented (by decide)
    exact ⟨hopen.seq (isQuiet_block_rest hbody hclose), rfl⟩

theorem keepsQuiet_allocationCheck (condition : Bool) :
    (Layout.when condition allocationCheck).KeepsQuiet 1 := by
  cases condition with
  | false => exact keepsQuiet_skip
  | true =>
      have htest : (line "if (!self)").IsQuiet 1 := isQuiet_indented (by decide)
      have hreturn : (line "return NULL;").IsQuiet 2 := isQuiet_indented (by decide)
      exact ⟨htest.seq (isQuiet_indent.seq (hreturn.seq (isQuiet_dedent.seq isQuiet_skip))), rfl⟩

theorem spells_definition {signature : Signature} {text : String} {body : Layout}
    (h : signature.IsPlain) (htext : text.toList = signature.spell '\x7b')
    (hbody : body.KeepsQuiet 1) : (block text "\x7d" body).Spells '\x7b' 0 [signature] := by
  have hopen : (line text).Spells '\x7b' 0 [signature] :=
    spells_signature h (by decide) (by decide) htext
  have hclose : (line "\x7d").IsQuiet 0 := isQuiet_unopened (by decide) (by decide)
  exact spells_block hopen (isQuiet_block_rest hbody hclose)

theorem spells_constructorDefinition (h : blueprint.StaysOnLines)
    (hplain : Signature.IsPlain
      ⟨[blueprint.symbols.typeName, "*"], blueprint.symbols.constructor, ""⟩) :
    blueprint.constructorDefinition.Spells '\x7b' 0
      [⟨[blueprint.symbols.typeName, "*"], blueprint.symbols.constructor, ""⟩] := by
  have htype : '\n' ∉ blueprint.symbols.typeName.toList :=
    notMem_of_checkName h.symbols.typeName (by decide)
  have hfree : '\n' ∉ blueprint.symbols.free.toList :=
    notMem_of_checkName h.symbols.free (by decide)
  have hbase : '\n' ∉ blueprint.base.getter.toList := by
    rw [h.base]
    decide
  have hself : (line (blueprint.symbols.typeName ++
      " * self = malloc(sizeof(*self));")).KeepsQuiet 1 := keepsQuiet_indented (by simp [htype])
  have hinstall : (line (blueprint.base.getter ++ "(self)->free = " ++ blueprint.symbols.free ++
      ";")).KeepsQuiet 1 := keepsQuiet_indented (by simp [hbase, hfree])
  have hreturn : (line "return self;").KeepsQuiet 1 := keepsQuiet_indented (by decide)
  have hcheck := keepsQuiet_allocationCheck (blueprint.constructor == .checked)
  apply spells_definition hplain (by simp [Signature.spell])
  exact hself.seq (hcheck.seq (hinstall.seq ((keepsQuiet_initialisation h).seq
    (hreturn.seq keepsQuiet_skip))))

theorem levelAfter_constructorDefinition (blueprint : Blueprint) :
    blueprint.constructorDefinition.levelAfter 0 = 0 := by
  obtain ⟨_, _, _, _, _, _, _, mode⟩ := blueprint
  cases mode <;> rfl

theorem spells_initialiserDefinition (h : blueprint.StaysOnLines)
    (hplain : Signature.IsPlain
      ⟨["bool"], blueprint.symbols.init, blueprint.symbols.typeName ++ " * self"⟩) :
    blueprint.initialiserDefinition.Spells '\x7b' 0
      [⟨["bool"], blueprint.symbols.init, blueprint.symbols.typeName ++ " * self"⟩] := by
  have htest : (line ("if (!" ++ blueprint.base.init ++ "(" ++ blueprint.base.getter ++
      "(self)))")).IsQuiet 1 := by
    rw [h.base]
    exact isQuiet_indented (by decide)
  have hfalse : (line "return false;").IsQuiet 2 := isQuiet_indented (by decide)
  have htrue : (line "return true;").IsQuiet 1 := isQuiet_indented (by decide)
  apply spells_definition hplain (by simp [Signature.spell])
  exact ⟨htest.seq (isQuiet_indent.seq (hfalse.seq (isQuiet_dedent.seq
    (htrue.seq isQuiet_skip)))), rfl⟩

theorem functions_source (h : blueprint.StaysOnLines) :
    functions '\x7b' blueprint.render.source.toList = blueprint.symbols.signatures "" := by
  have hnone : '\n' ∉ "".toList := by decide
  have hplain := h.symbols.isPlain hnone
  simp only [Symbols.signatures, List.forall_mem_cons] at hplain
  obtain ⟨hconstructor, hgetter, hinit, hfree, _⟩ := hplain
  have hfile : '\n' ∉ blueprint.symbols.headerFile.toList :=
    notMem_append (notMem_of_checkName h.symbols.fileBase (by decide)) (by decide)
  have hinclude : (line ("#include \"" ++ blueprint.symbols.headerFile ++ "\"")).IsQuiet 0 :=
    isQuiet_aside (by simp [hfile]) (by simp [isAside])
  have hget : blueprint.getterDefinition.Spells '\x7b' 0
      [⟨[blueprint.symbols.typeName, "*"], blueprint.symbols.getter, "void * self"⟩] :=
    spells_definition hgetter (by simp [Signature.spell]) (keepsQuiet_indented (by decide))
  have hdestroy : blueprint.destructorDefinition.Spells '\x7b' 0
      [⟨["void"], blueprint.symbols.free, "void * self"⟩] := by
    refine spells_definition hfree (by simp [Signature.spell]) ?_
    rw [h.base]
    exact keepsQuiet_indented (by decide)
  change functions '\x7b' blueprint.source.render.toList = _
  rw [render_eq_added]
  apply Spells.functions_added
  unfold source
  refine (isQuiet_license h (by decide)).spells_seq ?_
  refine isQuiet_blank.spells_seq ((isQuiet_heading (by decide)).spells_seq ?_)
  refine hinclude.spells_seq (isQuiet_blank.spells_seq ?_)
  refine (isQuiet_heading (by decide)).spells_seq ?_
  refine (spells_constructorDefinition h hconstructor).seq_of_levelAfter
    (levelAfter_constructorDefinition blueprint) (isQuiet_blank.spells_seq ?_)
  refine (isQuiet_heading (by decide)).spells_seq (hget.seq (isQuiet_blank.spells_seq ?_))
  refine (isQuiet_heading (by decide)).spells_seq ?_
  refine (spells_initialiserDefinition h hinit).seq (isQuiet_blank.spells_seq ?_)
  refine (isQuiet_heading (by decide)).spells_seq (hdestroy.seq (isQuiet_blank.spells_seq ?_))
  exact (isQuiet_heading (by decide)).spells_seq spells_skip

theorem staysOnLines {request : Request} {config : Config} (hname : request.checkName = .ok ())
    (hauthor : '\n' ∉ request.author.toList) (hdescription : '\n' ∉ request.description.toList)
    (hproject : '\n' ∉ config.project.toList) (hcopyright : '\n' ∉ config.copyright.toList) :
    (ofRequest request config).StaysOnLines where
  symbols := Symbols.admissible_derive hname
  base := rfl
  isFreeOf := ⟨hauthor, Date.notMem_stamp (by decide) request.date, hproject, hcopyright⟩
  description := hdescription

end Blueprint

/-- **Declarations and definitions agree.** For an admissible name, in either mode and whatever free
text stands on its line, the header declares four functions and the source defines them, in one
order. Only the constructor is spelled differently, which takes no parameters in both. -/
theorem functions_agree {request : Request} {config : Config} (hname : request.checkName = .ok ())
    (hauthor : '\n' ∉ request.author.toList) (hdescription : '\n' ∉ request.description.toList)
    (hproject : '\n' ∉ config.project.toList) (hcopyright : '\n' ∉ config.copyright.toList) :
    let pair := (Blueprint.ofRequest request config).render
    let declared := functions ';' pair.header.toList
    let defined := functions '\x7b' pair.source.toList
    declared = request.symbols.signatures "void" ∧ defined = request.symbols.signatures "" ∧
      (declared.map Signature.name).Nodup ∧
      declared.map (fun signature => (signature.name, signature.arity)) =
        defined.map (fun signature => (signature.name, signature.arity)) := by
  intro pair declared defined
  have hlines := Blueprint.staysOnLines hname hauthor hdescription hproject hcopyright
  have hdeclared : declared = request.symbols.signatures "void" := Blueprint.functions_header hlines
  have hdefined : defined = request.symbols.signatures "" := Blueprint.functions_source hlines
  have hnodup := Symbols.nodup_names_signatures request.shortName "void"
  refine ⟨hdeclared, hdefined, hdeclared ▸ hnodup, ?_⟩
  rw [hdeclared, hdefined]
  simp [Symbols.signatures, Signature.arity_of_void, Signature.arity_of_none]

/-- Free text that looks like a declaration or a definition is none. -/
theorem functions_agree_widget :
    let request : Request :=
      ⟨"Widget", "int f(void);", "*/ int g()\x7b", { year := 2024, month := 1, day := 15 }⟩
    let config : Config :=
      { Config.default with constructor := .checked, project := "int h();", copyright := "i(\x7b" }
    let pair := (Blueprint.ofRequest request config).render
    let declared := functions ';' pair.header.toList
    let defined := functions '\x7b' pair.source.toList
    declared =
        [⟨["CBWidget", "*"], "CBNewWidget", "void"⟩,
          ⟨["CBWidget", "*"], "CBGetWidget", "void * self"⟩,
          ⟨["bool"], "CBInitWidget", "CBWidget * self"⟩,
          ⟨["void"], "CBFreeWidget", "void * self"⟩] ∧
      defined =
        [⟨["CBWidget", "*"], "CBNewWidget", ""⟩,
          ⟨["CBWidget", "*"], "CBGetWidget", "void * self"⟩,
          ⟨["bool"], "CBInitWidget", "CBWidget * self"⟩,
          ⟨["void"], "CBFreeWidget", "void * self"⟩] ∧
      (declared.map Signature.name).Nodup ∧
      declared.map (fun signature => (signature.name, signature.arity)) =
        defined.map (fun signature => (signature.name, signature.arity)) :=
  functions_agree rfl (by decide) (by decide) (by decide) (by decide)

end Scaffold
