import Scaffold.Proofs.Agreement
import Scaffold.Proofs.Lines

/-!
# The code of an artifact

The lines of an artifact that are no comments, as they are written. Free text stands in comments
alone, so the code of both artifacts depends on the name and the mode, whatever the free text is.
-/

namespace Scaffold

/-! ### Beginnings of lines -/

def Starts (c : Char) (text : String) : Prop :=
  text.toList.head? = some c

/-- A comment starts with a slash, its other lines start with a space or a star. -/
def isCommentMark (c : Char) : Bool := ['/', ' ', '*'].contains c

def isCode (text : String) : Bool :=
  text.toList.head?.any (!isCommentMark ·)

section Starts

variable {c : Char} {first text : String}

theorem starts_ofList (c : Char) (rest : List Char) : Starts c (String.ofList (c :: rest)) := by
  rw [Starts, String.toList_ofList]
  rfl

theorem Starts.append (h : Starts c first) (second : String) : Starts c (first ++ second) := by
  rw [Starts, String.toList_append, List.head?_append, h]
  rfl

theorem Starts.isCode_eq (h : Starts c text) : isCode text = !isCommentMark c := by
  rw [isCode, h]
  rfl

theorem starts_tabs (level : Nat) (text : String) : Starts '\t' (tabs (level + 1) ++ text) :=
  (starts_ofList '\t' (List.replicate level '\t')).append text

end Starts

namespace Layout

variable {layout first second body : Layout} {level : Nat} {text close last : String}
variable {texts others : List String}

def code (layout : Layout) (level : Nat) : List String :=
  (layout.lines level).filter isCode

theorem code_seq (first second : Layout) (level : Nat) :
    (seq first second).code level = first.code level ++ second.code (first.levelAfter level) := by
  rw [code, lines_seq, List.filter_append]
  rfl

structure HasCode (layout : Layout) (level : Nat) (texts : List String) : Prop where
  code : layout.code level = texts
  levelAfter : layout.levelAfter level = level

theorem HasCode.seq (hfirst : first.HasCode level texts) (hsecond : second.HasCode level others) :
    (Layout.seq first second).HasCode level (texts ++ others) where
  code := by rw [code_seq, hfirst.code, hfirst.levelAfter, hsecond.code]
  levelAfter := by rw [Layout.levelAfter, hfirst.levelAfter, hsecond.levelAfter]

theorem hasCode_skip : skip.HasCode level [] := ⟨rfl, rfl⟩

theorem hasCode_blank : blank.HasCode level [] := ⟨rfl, rfl⟩

theorem hasCode_raw (h : isCode text = true) : (raw text).HasCode level [text] :=
  ⟨List.filter_cons_of_pos h, rfl⟩

theorem hasCode_line (h : isCode text = true) : (line text).HasCode 0 [text] := by
  refine ⟨?_, rfl⟩
  change [tabs 0 ++ text].filter isCode = [text]
  rw [tabs_zero_append, List.filter_cons_of_pos h, List.filter_nil]

theorem hasCode_comment (h : isCode text = false) : (line text).HasCode 0 [] := by
  refine ⟨?_, rfl⟩
  change [tabs 0 ++ text].filter isCode = []
  rw [tabs_zero_append, List.filter_cons_of_neg (by simp [h]), List.filter_nil]

theorem hasCode_indented (text : String) (level : Nat) :
    (line text).HasCode (level + 1) [tabs (level + 1) ++ text] :=
  ⟨List.filter_cons_of_pos (starts_tabs level text).isCode_eq, rfl⟩

theorem hasCode_comments {α : Type} (text : α → String) (items : List α)
    (h : ∀ item ∈ items, isCode (text item) = false) :
    (each items fun item => line (text item)).HasCode 0 [] := by
  induction items with
  | nil => exact hasCode_skip
  | cons item rest ih =>
      have hrest := ih fun other hother => h other (List.mem_cons_of_mem _ hother)
      exact (hasCode_comment (h item List.mem_cons_self)).seq hrest

theorem hasCode_heading (text : String) : (heading text).HasCode 0 [] :=
  (hasCode_comment ((starts_ofList '/' _).append text).isCode_eq).seq
    (hasCode_blank.seq hasCode_skip)

theorem hasCode_doxygen (lines : List String) (h : isCode close = false) :
    (doxygen lines close).HasCode 0 [] := by
  have hopen : (line "/**").HasCode 0 [] := hasCode_comment (starts_ofList '/' _).isCode_eq
  have hlines : (each lines fun text => line (" " ++ text)).HasCode 0 [] :=
    hasCode_comments _ _ fun text _ => ((starts_ofList ' ' _).append text).isCode_eq
  exact hopen.seq (hlines.seq ((hasCode_comment h).seq hasCode_skip))

theorem HasCode.inner (hbody : body.HasCode (level + 1) texts)
    (hrest : second.HasCode level others) :
    (Layout.seq indent (Layout.seq body (Layout.seq dedent second))).HasCode level
      (texts ++ others) where
  code := by
    rw [code_seq, code_seq, code_seq]
    change [] ++ (body.code (level + 1) ++
      ([] ++ second.code (body.levelAfter (level + 1) - 1))) = texts ++ others
    rw [hbody.code, hbody.levelAfter, Nat.add_sub_cancel, hrest.code]
    rfl
  levelAfter := by
    change second.levelAfter (body.levelAfter (level + 1) - 1) = level
    rw [hbody.levelAfter, Nat.add_sub_cancel, hrest.levelAfter]

theorem hasCode_block (htext : (line text).HasCode level texts)
    (hclose : (line close).HasCode level [last]) (hbody : body.HasCode (level + 1) others) :
    (block text close body).HasCode level (texts ++ (others ++ [last])) :=
  htext.seq (hbody.inner (hclose.seq hasCode_skip))

def IsInner (layout : Layout) (level : Nat) : Prop :=
  ∃ texts, layout.HasCode level texts ∧ ∀ text ∈ texts, Starts '\t' text

theorem IsInner.seq (hfirst : first.IsInner level) (hsecond : second.IsInner level) :
    (Layout.seq first second).IsInner level := by
  obtain ⟨texts, hfirst, htexts⟩ := hfirst
  obtain ⟨others, hsecond, hothers⟩ := hsecond
  exact ⟨texts ++ others, hfirst.seq hsecond, List.forall_mem_append.mpr ⟨htexts, hothers⟩⟩

theorem IsInner.inner (hbody : body.IsInner (level + 1)) (hrest : second.IsInner level) :
    (Layout.seq indent (Layout.seq body (Layout.seq dedent second))).IsInner level := by
  obtain ⟨texts, hbody, htexts⟩ := hbody
  obtain ⟨others, hrest, hothers⟩ := hrest
  exact ⟨texts ++ others, hbody.inner hrest, List.forall_mem_append.mpr ⟨htexts, hothers⟩⟩

theorem isInner_skip : skip.IsInner level := ⟨[], hasCode_skip, List.forall_mem_nil _⟩

theorem isInner_line (text : String) (level : Nat) : (line text).IsInner (level + 1) :=
  ⟨_, hasCode_indented text level, List.forall_mem_singleton.mpr (starts_tabs level text)⟩

end Layout

namespace Blueprint

open Layout

theorem hasCode_license (blueprint : Blueprint) (fileName : String) :
    (blueprint.license fileName).HasCode 0 [] := by
  have hfixed {rest : List Char} : isCode (String.ofList ('/' :: rest)) = false :=
    (starts_ofList '/' rest).isCode_eq
  have hended {rest : List Char} {second : String} :
      isCode (String.ofList ('/' :: rest) ++ second) = false :=
    ((starts_ofList '/' rest).append second).isCode_eq
  have hwithin {rest : List Char} {second third : String} :
      isCode (String.ofList ('/' :: rest) ++ second ++ third) = false :=
    (((starts_ofList '/' rest).append second).append third).isCode_eq
  have hcreated : isCode ("//  Created by " ++ blueprint.author ++ " on " ++
      blueprint.dateStamp ++ ".") = false :=
    (((((starts_ofList '/' _).append _).append _).append _).append _).isCode_eq
  refine hasCode_comments id [_, _, _, _, _, _, _, _, _, _, _, _, _, _, _, _, _, _, _, _, _] ?_
  simp only [List.forall_mem_cons, id]
  exact ⟨hfixed, hended, hended, hfixed, hcreated, hended, hfixed, hwithin, hfixed, hwithin, hfixed,
    hfixed, hfixed, hfixed, hwithin, hfixed, hfixed, hfixed, hfixed, hfixed, hwithin,
    List.forall_mem_nil _⟩

section Artifacts

variable (request : Request) (config : Config)

theorem hasCode_structDeclaration :
    (ofRequest request config).structDeclaration.HasCode 0
      ["typedef struct\x7b", tabs 1 ++ (Symbols.base.typeName ++ " base; /**< " ++
          Symbols.base.typeName ++ " base structure */"),
        "\x7d " ++ request.symbols.typeName ++ ";"] := by
  have hopen : (line "typedef struct\x7b").HasCode 0 ["typedef struct\x7b"] :=
    hasCode_line (starts_ofList 't' _).isCode_eq
  have hclose : (line ("\x7d " ++ request.symbols.typeName ++ ";")).HasCode 0
      ["\x7d " ++ request.symbols.typeName ++ ";"] :=
    hasCode_line (((starts_ofList '\x7d' _).append _).append _).isCode_eq
  exact (hasCode_doxygen _ (starts_ofList '*' _).isCode_eq).seq
    ((hasCode_block hopen hclose (hasCode_indented _ 0)).seq hasCode_skip)

def spellings (ending : Char) (signatures : List Signature) : List String :=
  signatures.map fun signature => String.ofList (signature.spell ending)

theorem hasCode_spelling {ending c : Char} {text : String} {signature : Signature}
    (hstart : Starts c text) (hc : isCommentMark c = false)
    (htext : text.toList = signature.spell ending) :
    (line text).HasCode 0 (spellings ending [signature]) := by
  have hcode : isCode text = true := by
    rw [hstart.isCode_eq, hc]
    rfl
  have hline : spellings ending [signature] = [text] := by
    rw [spellings, List.map_singleton, ← htext, String.ofList_toList]
  rw [hline]
  exact hasCode_line hcode

theorem starts_typeName : Starts 'C' request.symbols.typeName :=
  (starts_ofList 'C' _).append request.shortName

theorem hasCode_functionDeclarations :
    (ofRequest request config).functionDeclarations.HasCode 0
      (spellings ';' (request.symbols.signatures "void")) := by
  have hdoc {texts : List String} : (doxygen texts " */").HasCode 0 [] :=
    hasCode_doxygen texts (starts_ofList ' ' _).isCode_eq
  have htype := starts_typeName request
  have hconstructor : (line (request.symbols.typeName ++ " * " ++ request.symbols.constructor ++
      "(void);")).HasCode 0
        (spellings ';' [⟨[request.symbols.typeName, "*"], request.symbols.constructor, "void"⟩]) :=
    hasCode_spelling (((htype.append _).append _).append _) rfl (by simp [Signature.spell])
  have hgetter : (line (request.symbols.typeName ++ " * " ++ request.symbols.getter ++
      "(void * self);")).HasCode 0
        (spellings ';'
          [⟨[request.symbols.typeName, "*"], request.symbols.getter, "void * self"⟩]) :=
    hasCode_spelling (((htype.append _).append _).append _) rfl (by simp [Signature.spell])
  have hinit : (line ("bool " ++ request.symbols.init ++ "(" ++ request.symbols.typeName ++
      " * self);")).HasCode 0
        (spellings ';' [⟨["bool"], request.symbols.init, request.symbols.typeName ++ " * self"⟩]) :=
    hasCode_spelling (((((starts_ofList 'b' _).append _).append _).append _).append _) rfl
      (by simp [Signature.spell])
  have hfree : (line ("void " ++ request.symbols.free ++ "(void * self);")).HasCode 0
        (spellings ';' [⟨["void"], request.symbols.free, "void * self"⟩]) :=
    hasCode_spelling (((starts_ofList 'v' _).append _).append _) rfl (by simp [Signature.spell])
  exact hdoc.seq (hconstructor.seq (hasCode_blank.seq (hdoc.seq (hgetter.seq (hasCode_blank.seq
    (hdoc.seq (hinit.seq (hasCode_blank.seq (hdoc.seq (hfree.seq hasCode_skip))))))))))

theorem code_header :
    (ofRequest request config).header.code 0 =
      ["#ifndef " ++ request.symbols.guard, "#define " ++ request.symbols.guard,
          "#include \"" ++ Symbols.base.headerFile ++ "\"", "typedef struct\x7b",
          tabs 1 ++ (Symbols.base.typeName ++ " base; /**< " ++ Symbols.base.typeName ++
            " base structure */"),
          "\x7d " ++ request.symbols.typeName ++ ";"] ++
        spellings ';' (request.symbols.signatures "void") ++ ["#endif"] := by
  have hstar : isCode "*/" = false := (starts_ofList '*' _).isCode_eq
  have hspace : isCode " " = false := (starts_ofList ' ' _).isCode_eq
  have hdirective {rest : List Char} {second : String} :
      isCode (String.ofList ('#' :: rest) ++ second) = true :=
    ((starts_ofList '#' rest).append second).isCode_eq
  have hinclude : isCode ("#include \"" ++ Symbols.base.headerFile ++ "\"") = true :=
    (((starts_ofList '#' _).append _).append _).isCode_eq
  have hend : isCode "#endif" = true := (starts_ofList '#' _).isCode_eq
  have hheader : (ofRequest request config).header.HasCode 0 _ :=
    (hasCode_license _ _).seq (hasCode_blank.seq ((hasCode_doxygen _ hstar).seq
      (hasCode_blank.seq ((hasCode_line hdirective).seq ((hasCode_line hdirective).seq
      (hasCode_blank.seq ((hasCode_heading _).seq ((hasCode_line hinclude).seq
      (hasCode_blank.seq ((hasCode_structDeclaration request config).seq
      (hasCode_blank.seq ((hasCode_functionDeclarations request config).seq
      ((hasCode_comment hspace).seq ((hasCode_heading _).seq
      ((hasCode_raw hend).seq hasCode_skip)))))))))))))))
  exact hheader.code

theorem isInner_allocationCheck (condition : Bool) :
    (Layout.when condition allocationCheck).IsInner 1 := by
  cases condition with
  | false => exact isInner_skip
  | true => exact (isInner_line _ 0).seq ((isInner_line _ 1).inner isInner_skip)

theorem isInner_initialisation (blueprint : Blueprint) : blueprint.initialisation.IsInner 1 := by
  unfold initialisation
  split
  · exact isInner_line _ 0
  · refine (isInner_line _ 0).seq (IsInner.inner ?_ ((isInner_line _ 0).seq isInner_skip))
    exact (isInner_line _ 1).seq ((isInner_line _ 1).seq isInner_skip)

def definition (signature : Signature) (body : List String) : List String :=
  spellings '\x7b' [signature] ++ (body ++ ["\x7d"])

theorem hasCode_definition {c : Char} {text : String} {signature : Signature} {body : Layout}
    {texts : List String} (hstart : Starts c text) (hc : isCommentMark c = false)
    (htext : text.toList = signature.spell '\x7b') (hbody : body.HasCode 1 texts) :
    (block text "\x7d" body).HasCode 0 (definition signature texts) :=
  hasCode_block (hasCode_spelling hstart hc htext)
    (hasCode_line (starts_ofList '\x7d' _).isCode_eq) hbody

theorem hasCode_constructorDefinition :
    ∃ body, (∀ text ∈ body, Starts '\t' text) ∧
      (ofRequest request config).constructorDefinition.HasCode 0
        (definition ⟨[request.symbols.typeName, "*"], request.symbols.constructor, ""⟩ body) := by
  obtain ⟨body, hbody, hindented⟩ := (isInner_line _ 0).seq ((isInner_allocationCheck _).seq
    ((isInner_line _ 0).seq ((isInner_initialisation (ofRequest request config)).seq
      ((isInner_line _ 0).seq isInner_skip))))
  have hname := ((starts_typeName request).append " * ").append request.symbols.constructor
  refine ⟨body, hindented, hasCode_definition (hname.append "()\x7b") rfl ?_ hbody⟩
  simp [Signature.spell, ofRequest]

theorem hasCode_getterDefinition :
    (ofRequest request config).getterDefinition.HasCode 0
      (definition ⟨[request.symbols.typeName, "*"], request.symbols.getter, "void * self"⟩
        [tabs 1 ++ "return self;"]) := by
  have hstart := (((starts_typeName request).append " * ").append request.symbols.getter).append
    "(void * self)\x7b"
  exact hasCode_definition hstart rfl (by simp [Signature.spell, ofRequest]) (hasCode_indented _ 0)

theorem hasCode_initialiserDefinition :
    (ofRequest request config).initialiserDefinition.HasCode 0
      (definition ⟨["bool"], request.symbols.init, request.symbols.typeName ++ " * self"⟩
        [tabs 1 ++ ("if (!" ++ Symbols.base.init ++ "(" ++ Symbols.base.getter ++ "(self)))"),
          tabs 2 ++ "return false;", tabs 1 ++ "return true;"]) := by
  have hstart : Starts 'b' ("bool " ++ request.symbols.init ++ "(" ++
      request.symbols.typeName ++ " * self)\x7b") :=
    ((((starts_ofList 'b' _).append _).append _).append _).append _
  exact hasCode_definition hstart rfl (by simp [Signature.spell, ofRequest])
    ((hasCode_indented _ 0).seq ((hasCode_indented _ 1).inner
      ((hasCode_indented _ 0).seq hasCode_skip)))

theorem hasCode_destructorDefinition :
    (ofRequest request config).destructorDefinition.HasCode 0
      (definition ⟨["void"], request.symbols.free, "void * self"⟩
        [tabs 1 ++ (Symbols.base.free ++ "(self);")]) := by
  have hstart : Starts 'v' ("void " ++ request.symbols.free ++ "(void * self)\x7b") :=
    ((starts_ofList 'v' _).append _).append _
  exact hasCode_definition hstart rfl (by simp [Signature.spell, ofRequest]) (hasCode_indented _ 0)

theorem code_source :
    ∃ body, (∀ text ∈ body, Starts '\t' text) ∧ (ofRequest request config).source.code 0 =
      ("#include \"" ++ request.symbols.headerFile ++ "\"") ::
        (definition ⟨[request.symbols.typeName, "*"], request.symbols.constructor, ""⟩ body ++
        (definition ⟨[request.symbols.typeName, "*"], request.symbols.getter, "void * self"⟩
          [tabs 1 ++ "return self;"] ++
        (definition ⟨["bool"], request.symbols.init, request.symbols.typeName ++ " * self"⟩
          [tabs 1 ++ ("if (!" ++ Symbols.base.init ++ "(" ++ Symbols.base.getter ++ "(self)))"),
            tabs 2 ++ "return false;", tabs 1 ++ "return true;"] ++
        definition ⟨["void"], request.symbols.free, "void * self"⟩
          [tabs 1 ++ (Symbols.base.free ++ "(self);")]))) := by
  have hinclude : isCode ("#include \"" ++ request.symbols.headerFile ++ "\"") = true :=
    (((starts_ofList '#' _).append _).append _).isCode_eq
  obtain ⟨body, hindented, hconstructor⟩ := hasCode_constructorDefinition request config
  have hspaced (title : String) {definition rest : Layout} {texts others : List String}
      (hdefinition : definition.HasCode 0 texts) (hrest : rest.HasCode 0 others) :
      (Layout.seq (heading title) (Layout.seq definition (Layout.seq blank rest))).HasCode 0
        (texts ++ others) :=
    (hasCode_heading title).seq (hdefinition.seq (hasCode_blank.seq hrest))
  have hlast : (Layout.seq (heading "Functions") skip).HasCode 0 [] :=
    (hasCode_heading _).seq hasCode_skip
  have hdefinitions := hspaced "Constructor" hconstructor
    (hspaced "Object Getter" (hasCode_getterDefinition request config)
    (hspaced "Initialiser" (hasCode_initialiserDefinition request config)
    (hspaced "Destructor" (hasCode_destructorDefinition request config) hlast)))
  rw [List.append_nil] at hdefinitions
  have hsource : (ofRequest request config).source.HasCode 0 _ :=
    (hasCode_license _ _).seq (hasCode_blank.seq ((hasCode_heading _).seq
      ((hasCode_line hinclude).seq (hasCode_blank.seq hdefinitions))))
  refine ⟨body, hindented, ?_⟩
  rw [hsource.code, List.nil_append, List.nil_append, List.nil_append, List.nil_append,
    List.singleton_append]

end Artifacts

end Blueprint

end Scaffold
