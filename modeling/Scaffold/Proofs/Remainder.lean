import Scaffold.Proofs.Code
import Scaffold.Proofs.Comments

/-!
# What comments leave

The lines of an artifact once its comments are removed. What is written from line to line is
followed through the scanner, so that free text is seen to leave nothing but blank lines.
-/

namespace Scaffold

/-- The lines of a text that are not blank once its comments are removed. -/
def codeLines (text : String) : List String :=
  (splitLines (stripComments text)).filter (!Text.isBlank ·)

/-! ### Pieces of a line -/

def Keeps (text kept : String) : Prop :=
  Region.code.scan text.toList = (kept.toList, .code)

structure IsBare (text : String) : Prop where
  visible : Text.isBlank text = false
  unmarked : ∀ c ∈ ['/', '"', '\n'], c ∉ text.toList

def isBareText (chars : List Char) : Bool :=
  !chars.all Text.isBlankChar && ['/', '"', '\n'].all (!chars.contains ·)

section Pieces

variable {first second text kept other name : String}

theorem Keeps.append (hfirst : Keeps first kept) (hsecond : Keeps second other) :
    Keeps (first ++ second) (kept ++ other) := by
  unfold Keeps at *
  rw [String.toList_append, Region.scan_append, hfirst, hsecond, String.toList_append]

theorem keeps_of_notMem (hslash : '/' ∉ text.toList) (hquote : '"' ∉ text.toList) :
    Keeps text text := by
  unfold Keeps
  generalize text.toList = chars at hslash hquote
  induction chars with
  | nil => rfl
  | cons c rest ih =>
      rw [List.mem_cons, not_or] at hslash hquote
      simp [Region.scan, Region.step, Ne.symm hslash.1, Ne.symm hquote.1, ih hslash.2 hquote.2]

theorem scan_quoted {chars : List Char} (hquote : '"' ∉ chars) (hescape : '\\' ∉ chars) :
    Region.quoted.scan chars = (chars, .quoted) := by
  induction chars with
  | nil => rfl
  | cons c rest ih =>
      rw [List.mem_cons, not_or] at hquote hescape
      simp [Region.scan, Region.step, Ne.symm hquote.1, Ne.symm hescape.1, ih hquote.2 hescape.2]

theorem keeps_string (hquote : '"' ∉ text.toList) (hescape : '\\' ∉ text.toList) :
    Keeps ("\"" ++ text ++ "\"") ("\"" ++ text ++ "\"") := by
  have hopen : Region.code.scan "\"".toList = (['"'], .quoted) := by decide
  have hclose : Region.quoted.scan "\"".toList = (['"'], .code) := by decide
  unfold Keeps
  rw [String.toList_append, String.toList_append, Region.scan_append, Region.scan_append, hopen,
    scan_quoted hquote hescape, hclose]
  rfl

theorem isBlank_append (first second : String) :
    Text.isBlank (first ++ second) = (Text.isBlank first && Text.isBlank second) := by
  rw [Text.isBlank, String.toList_append, List.all_append]
  rfl

theorem isBlank_of_checkName (h : checkName name = .ok ()) : Text.isBlank name = false := by
  obtain ⟨c, hc⟩ := List.exists_mem_of_ne_nil _ (isWord h).1
  rw [Text.isBlank, List.all_eq_false]
  exact ⟨c, hc, by simp [(isWord h).not_isBlankChar c hc]⟩

theorem IsBare.keeps (h : IsBare text) : Keeps text text :=
  keeps_of_notMem (h.unmarked '/' (by decide)) (h.unmarked '"' (by decide))

theorem isBare_ofList {chars : List Char} (h : isBareText chars = true) :
    IsBare (String.ofList chars) := by
  rw [isBareText, Bool.and_eq_true, Bool.not_eq_true', List.all_eq_true] at h
  constructor
  · rw [Text.isBlank, String.toList_ofList, h.1]
  · intro c hc
    rw [String.toList_ofList]
    simpa using h.2 c hc

theorem IsBare.append (hfirst : IsBare first) (hsecond : IsBare second) :
    IsBare (first ++ second) where
  visible := by rw [isBlank_append, hfirst.visible, Bool.false_and]
  unmarked := fun c hc => notMem_append (hfirst.unmarked c hc) (hsecond.unmarked c hc)

theorem IsBare.append_ofList (hfirst : IsBare first) {chars : List Char}
    (h : isBareText chars = true) : IsBare (first ++ String.ofList chars) :=
  hfirst.append (isBare_ofList h)

theorem isBare_of_checkName (h : checkName name = .ok ()) : IsBare name where
  visible := isBlank_of_checkName h
  unmarked := by
    have hmarks : (['/', '"', '\n'].all (!isNameChar ·)) = true := by decide
    intro c hc
    exact notMem_of_checkName h (by simpa using List.all_eq_true.mp hmarks c hc)

end Pieces

def Emission.IsBare : Emission → Prop
  | line _ text => Scaffold.IsBare text
  | _ => False

/-! ### Lines -/

section Lines

variable {first text kept : String}

theorem notMem_ofList {c : Char} {chars : List Char} (h : c ∉ chars) :
    c ∉ (String.ofList chars).toList := by rwa [String.toList_ofList]

theorem stripComments_append (h : Keeps first kept) (second : String) :
    stripComments (first ++ second) = kept ++ stripComments second := by
  unfold stripComments
  rw [String.toList_append, Region.scan_append, h]
  simp

theorem splitLines_append (first second : String) :
    splitLines (first ++ "\n" ++ second) = splitLines first ++ splitLines second := by
  have htext : (first ++ "\n" ++ second).toList = first.toList ++ '\n' :: second.toList := by simp
  rw [splitLines, htext, List.splitOn_append_cons_self, List.map_append]
  rfl

theorem splitLines_of_notMem (h : '\n' ∉ text.toList) : splitLines text = [text] := by
  rw [splitLines, List.splitOn_eq_singleton h]
  simp

theorem codeLines_append (h : Keeps first (kept ++ "\n")) (second : String) :
    codeLines (first ++ second) =
      (splitLines kept).filter (!Text.isBlank ·) ++ codeLines second := by
  rw [codeLines, stripComments_append h, splitLines_append, List.filter_append]
  rfl

end Lines

namespace Layout

variable {layout first second : Layout} {level : Nat} {text kept title close : String}
variable {texts others : List String}

structure Leaves (layout : Layout) (level : Nat) (texts : List String) : Prop where
  codeLines : ∀ rest, codeLines (layout.added level ++ rest) = texts ++ codeLines rest
  levelAfter : layout.levelAfter level = level

theorem Leaves.seq (hfirst : first.Leaves level texts) (hsecond : second.Leaves level others) :
    (Layout.seq first second).Leaves level (texts ++ others) where
  codeLines := by
    intro rest
    rw [added_seq, hfirst.levelAfter, String.append_assoc, hfirst.codeLines, hsecond.codeLines,
      List.append_assoc]
  levelAfter := by rw [Layout.levelAfter, hfirst.levelAfter, hsecond.levelAfter]

theorem Leaves.codeLines_seq (hfirst : first.Leaves level texts)
    (hsecond : Scaffold.codeLines (second.added level) = others) :
    Scaffold.codeLines ((Layout.seq first second).added level) = texts ++ others := by
  rw [added_seq, hfirst.levelAfter, hfirst.codeLines, hsecond]

theorem leaves_of_keeps (h : Keeps (layout.added level) (kept ++ "\n"))
    (hlevel : layout.levelAfter level = level) :
    layout.Leaves level ((splitLines kept).filter (!Text.isBlank ·)) :=
  ⟨codeLines_append h, hlevel⟩

theorem leaves_skip : skip.Leaves level [] := by
  refine ⟨fun rest => ?_, rfl⟩
  have hadded : skip.added level = "" := rfl
  rw [hadded, String.empty_append, List.nil_append]

theorem leaves_blank : blank.Leaves level [] := by
  have hadded : blank.added level = "" ++ "\n" := rfl
  have hkept : Keeps (blank.added level) ("" ++ "\n") := by
    rw [hadded, Keeps]
    decide
  exact leaves_of_keeps hkept rfl

theorem keeps_tabs (level : Nat) : Keeps (tabs level) (tabs level) := by
  rw [Keeps, toList_tabs, Region.scan_tabs]

theorem isBlank_tabs (level : Nat) : Text.isBlank (tabs level) = true := by
  rw [Text.isBlank_eq_true_iff, toList_tabs]
  intro c hc
  rw [List.eq_of_mem_replicate hc]
  decide

theorem codeLines_line (h : Keeps text kept) (hvisible : Text.isBlank kept = false)
    (hbreak : '\n' ∉ kept.toList) (level : Nat) (rest : String) :
    Scaffold.codeLines (tabs level ++ text ++ "\n" ++ rest) =
      (tabs level ++ kept) :: Scaffold.codeLines rest := by
  have hline : Keeps (tabs level ++ text ++ "\n") (tabs level ++ kept ++ "\n") :=
    ((keeps_tabs level).append h).append rfl
  have hshown : Text.isBlank (tabs level ++ kept) = false := by
    rw [isBlank_append, hvisible, Bool.and_false]
  rw [codeLines_append hline, splitLines_of_notMem (notMem_tabs_append (by decide) hbreak level)]
  simp [hshown]

theorem leaves_line (h : Keeps text kept) (hvisible : Text.isBlank kept = false)
    (hbreak : '\n' ∉ kept.toList) : (line text).Leaves level [tabs level ++ kept] := by
  refine ⟨fun rest => ?_, rfl⟩
  rw [added_line, codeLines_line h hvisible hbreak, List.singleton_append]

theorem leaves_heading {title : List Char} (h : title.any isLineBreak = false) :
    (heading (String.ofList title)).Leaves 0 [] := by
  have htitle : Keeps ((line ("//  " ++ String.ofList title)).added 0) ("" ++ "\n") := by
    have hbreak : ∀ c ∈ ' ' :: ' ' :: title, isLineBreak c = false := by
      simpa [isLineBreak] using h
    have htext : (tabs 0 ++ ("//  " ++ String.ofList title) ++ "\n").toList =
        '/' :: '/' :: (' ' :: ' ' :: title) ++ ['\n'] := by simp
    rw [added_line, Keeps, htext, Region.scan_line hbreak]
    rfl
  have hcomment : (line ("//  " ++ String.ofList title)).Leaves 0 [] := leaves_of_keeps htitle rfl
  exact hcomment.seq (leaves_blank.seq leaves_skip)

theorem leaves_doxygen {lines : List String}
    (hlines : ∀ text ∈ lines, Lint.hasTerminator text.toList = false)
    (hclose : close = "*/" ∨ close = " */") : (doxygen lines close).Leaves level [] := by
  have hkept : Keeps ((doxygen lines close).added level) (tabs level ++ "\n") := by
    unfold Keeps
    rw [Region.scan_doxygen hlines hclose, String.toList_append, toList_tabs]
    rfl
  have hleaves := leaves_of_keeps hkept (Region.scan_each_within hlines level).2
  rw [splitLines_of_notMem (notMem_tabs (by decide) level)] at hleaves
  simpa [isBlank_tabs] using hleaves

theorem every_line_ofList {chars : List Char} (h : isBareText chars = true) :
    (line (String.ofList chars)).Every Emission.IsBare level :=
  every_line (isBare_ofList h)

theorem every_block {body : Layout} (htext : IsBare text)
    (hbody : body.Every Emission.IsBare (level + 1)) :
    (block text "\x7d" body).Every Emission.IsBare level :=
  Every.seq (every_line htext) (every_indent.seq (hbody.seq (every_dedent.seq
    ((every_line_ofList (by decide)).seq every_skip))))

theorem Every.leaves (h : layout.Every Emission.IsBare level)
    (hlevel : layout.levelAfter level = level) : layout.Leaves level (layout.lines level) := by
  refine ⟨fun rest => ?_, hlevel⟩
  unfold Every at h
  unfold added lines
  generalize layout.emissions level = emissions at h
  induction emissions with
  | nil => rw [Emission.concat, String.empty_append, List.map_nil, List.nil_append]
  | cons emission emissions ih =>
      have htail := ih fun other hmem => h other (List.mem_cons_of_mem _ hmem)
      have hemission := h emission List.mem_cons_self
      cases emission with
      | blank => exact hemission.elim
      | raw text => exact hemission.elim
      | line depth text =>
          have hbare : Scaffold.IsBare text := hemission
          rw [Emission.concat, String.append_assoc, Emission.text,
            codeLines_line hbare.keeps hbare.visible (hbare.unmarked '\n' (by decide)), htail,
            List.map_cons, List.cons_append, Emission.body]

theorem leaves_bare (h : IsBare text) : (line text).Leaves 0 [text] := by
  have hline : (line text).Leaves 0 _ := leaves_line h.keeps h.visible (h.unmarked '\n' (by decide))
  rwa [tabs_zero_append] at hline

theorem leaves_block_line {opening : String} (hopening : IsBare opening)
    (hclose : IsBare close) (h : Keeps text kept) (hvisible : Text.isBlank kept = false)
    (hbreak : '\n' ∉ kept.toList) :
    (block opening close (line text)).Leaves 0 [opening, tabs 1 ++ kept, close] := by
  have hadded : (block opening close (line text)).added 0 = tabs 0 ++ opening ++ "\n" ++
      (tabs 1 ++ text ++ "\n" ++ (tabs 0 ++ close ++ "\n")) := by
    simp [block, all, added, emissions, levelAfter, Emission.concat, Emission.text]
  have hbare {text : String} (h : IsBare text) (rest : String) :
      Scaffold.codeLines (tabs 0 ++ text ++ "\n" ++ rest) = text :: Scaffold.codeLines rest := by
    rw [codeLines_line h.keeps h.visible (h.unmarked '\n' (by decide)), tabs_zero_append]
  refine ⟨fun rest => ?_, rfl⟩
  rw [hadded, String.append_assoc, hbare hopening, String.append_assoc,
    codeLines_line h hvisible hbreak, hbare hclose, List.cons_append, List.cons_append,
    List.singleton_append]

theorem leaves_spelling {ending : Char} {signature : Signature} (h : IsBare text)
    (htext : text.toList = signature.spell ending) :
    (line text).Leaves 0 (Blueprint.spellings ending [signature]) := by
  have hline : Blueprint.spellings ending [signature] = [text] := by
    rw [Blueprint.spellings, List.map_singleton, ← htext, String.ofList_toList]
  rw [hline]
  exact leaves_bare h

end Layout

namespace Blueprint

open Layout
open Region (scan_block)

variable {blueprint : Blueprint}

theorem leaves_license (h : blueprint.StaysInComments) {ending : String}
    (hending : (ending.toList.all (!isControl ·)) = true) :
    (blueprint.license (blueprint.symbols.fileBase ++ ending)).Leaves 0 [] := by
  have hkept : Keeps ((blueprint.license (blueprint.symbols.fileBase ++ ending)).added 0)
      (String.ofList (List.replicate 20 '\n') ++ "\n") := by
    rw [Keeps, scan_license h hending, String.toList_append, String.toList_ofList]
    rfl
  have hnone : (splitLines (String.ofList (List.replicate 20 '\n'))).filter
      (!Text.isBlank ·) = [] := by
    rw [splitLines, String.toList_ofList]
    decide
  exact hnone ▸ leaves_of_keeps hkept rfl

theorem leaves_include {file : String} (h : checkName file = .ok ()) :
    (line ("#include \"" ++ (file ++ ".h") ++ "\"")).Leaves 0
      ["#include \"" ++ (file ++ ".h") ++ "\""] := by
  have hnotMem {c : Char} (hc : isNameChar c = false) (hdot : c ∉ ".h".toList) :
      c ∉ (file ++ ".h").toList := notMem_append (notMem_of_checkName h hc) hdot
  have hword : Keeps "#include " "#include " := by
    rw [Keeps]
    decide
  have hstring : Keeps ("\"" ++ (file ++ ".h") ++ "\"") ("\"" ++ (file ++ ".h") ++ "\"") :=
    keeps_string (hnotMem (by decide) (by decide)) (hnotMem (by decide) (by decide))
  have hsplit : "#include \"" ++ (file ++ ".h") ++ "\"" =
      "#include " ++ ("\"" ++ (file ++ ".h") ++ "\"") := by
    apply String.toList_inj.mp
    simp
  have hvisible : Text.isBlank ("#include " ++ ("\"" ++ (file ++ ".h") ++ "\"")) = false := by
    have hshown : Text.isBlank "#include " = false := by decide
    rw [isBlank_append, hshown, Bool.false_and]
  have hbreak : '\n' ∉ ("#include " ++ ("\"" ++ (file ++ ".h") ++ "\"")).toList :=
    notMem_append (by decide) (notMem_append (notMem_append (by decide)
      (hnotMem (by decide) (by decide))) (by decide))
  rw [hsplit]
  have hline : (line _).Leaves 0 _ := leaves_line (hword.append hstring) hvisible hbreak
  rwa [tabs_zero_append] at hline

theorem keeps_member (hbase : blueprint.base.Admissible) :
    Keeps (blueprint.base.typeName ++ " base; /**< " ++ blueprint.base.typeName ++
      " base structure */") (blueprint.base.typeName ++ " base; ") := by
  have hstar : '*' ∉ blueprint.base.typeName.toList :=
    notMem_of_checkName hbase.typeName (by decide)
  have hwithin : Lint.hasTerminator ("*<".toList ++ ' ' :: (blueprint.base.typeName.toList ++
      ' ' :: "base structure ".toList)) = false := by
    rw [Lint.hasTerminator_append_cons (by decide) (by decide),
      Lint.hasTerminator_append_cons (by decide) (by decide), Lint.hasTerminator_of_notMem hstar]
    decide
  have hcomment : Keeps ("/**< " ++ blueprint.base.typeName ++ " base structure */") "" := by
    have hsplit : ("/**< " ++ blueprint.base.typeName ++ " base structure */").toList =
        '/' :: '*' :: ("*<".toList ++ ' ' :: (blueprint.base.typeName.toList ++
          ' ' :: "base structure ".toList)) ++ ['*', '/'] := by simp
    rw [Keeps, hsplit, scan_block hwithin]
    rfl
  have hmember : IsBare (blueprint.base.typeName ++ " base; ") :=
    (isBare_of_checkName hbase.typeName).append_ofList (by decide)
  have hsplit : blueprint.base.typeName ++ " base; /**< " ++ blueprint.base.typeName ++
      " base structure */" = blueprint.base.typeName ++ " base; " ++
        ("/**< " ++ blueprint.base.typeName ++ " base structure */") := by
    apply String.toList_inj.mp
    simp
  rw [hsplit]
  simpa using hmember.keeps.append hcomment

theorem leaves_structDeclaration (hsymbols : blueprint.symbols.Admissible)
    (hbase : blueprint.base.Admissible) :
    blueprint.structDeclaration.Leaves 0
      ["typedef struct\x7b", tabs 1 ++ (blueprint.base.typeName ++ " base; "),
        "\x7d " ++ blueprint.symbols.typeName ++ ";"] := by
  have htype := isBare_of_checkName hsymbols.typeName
  have hstar : '*' ∉ blueprint.symbols.typeName.toList :=
    notMem_of_checkName hsymbols.typeName (by decide)
  have hfile : '*' ∉ blueprint.symbols.headerFile.toList :=
    notMem_append (notMem_of_checkName hsymbols.fileBase (by decide)) (by decide)
  have hdoc : ∀ text ∈ ["@brief Structure for " ++ blueprint.symbols.typeName ++
      " objects. @see " ++ blueprint.symbols.headerFile],
      Lint.hasTerminator text.toList = false :=
    List.forall_mem_singleton.mpr (Lint.hasTerminator_of_notMem (notMem_append
      (notMem_append (notMem_append (notMem_ofList (by decide)) hstar)
        (notMem_ofList (by decide))) hfile))
  have hbreak : '\n' ∉ (blueprint.base.typeName ++ " base; ").toList :=
    notMem_append (notMem_of_checkName hbase.typeName (by decide)) (by decide)
  have hvisible : Text.isBlank (blueprint.base.typeName ++ " base; ") = false := by
    rw [isBlank_append, isBlank_of_checkName hbase.typeName, Bool.false_and]
  have hclose : IsBare ("\x7d " ++ blueprint.symbols.typeName ++ ";") :=
    ((isBare_ofList (by decide)).append htype).append_ofList (by decide)
  have hopening : IsBare "typedef struct\x7b" := isBare_ofList (by decide)
  have hblock := leaves_block_line hopening hclose (keeps_member hbase) hvisible hbreak
  exact (leaves_doxygen hdoc (Or.inl rfl)).seq (hblock.seq leaves_skip)

theorem leaves_functionDeclarations (hsymbols : blueprint.symbols.Admissible) :
    blueprint.functionDeclarations.Leaves 0
      (spellings ';' (blueprint.symbols.signatures "void")) := by
  have hdoc {texts : List String} (h : ∀ text ∈ texts, '*' ∉ text.toList) :
      (doxygen texts " */").Leaves 0 [] :=
    leaves_doxygen (fun text htext => Lint.hasTerminator_of_notMem (h text htext)) (Or.inr rfl)
  have hstar : '*' ∉ blueprint.symbols.typeName.toList :=
    notMem_of_checkName hsymbols.typeName (by decide)
  have habout {before after : List Char} (hbefore : '*' ∉ before) (hafter : '*' ∉ after) :
      '*' ∉ (String.ofList before ++ blueprint.symbols.typeName ++ String.ofList after).toList :=
    notMem_append (notMem_append (notMem_ofList hbefore) hstar) (notMem_ofList hafter)
  have hpromise : '*' ∉ blueprint.constructorPromise.toList := by
    unfold constructorPromise
    split <;> exact habout (by decide) (by decide)
  have htype := isBare_of_checkName hsymbols.typeName
  have hpointer {name parameters : String} (hname : checkName name = .ok ())
      (hparameters : IsBare parameters) :
      IsBare (blueprint.symbols.typeName ++ " * " ++ name ++ parameters) :=
    ((htype.append_ofList (by decide)).append (isBare_of_checkName hname)).append hparameters
  have hconstructor : (line (blueprint.symbols.typeName ++ " * " ++ blueprint.symbols.constructor ++
      "(void);")).Leaves 0 (spellings ';'
        [⟨[blueprint.symbols.typeName, "*"], blueprint.symbols.constructor, "void"⟩]) :=
    leaves_spelling (hpointer hsymbols.constructor (isBare_ofList (by decide)))
      (by simp [Signature.spell])
  have hgetter : (line (blueprint.symbols.typeName ++ " * " ++ blueprint.symbols.getter ++
      "(void * self);")).Leaves 0 (spellings ';'
        [⟨[blueprint.symbols.typeName, "*"], blueprint.symbols.getter, "void * self"⟩]) :=
    leaves_spelling (hpointer hsymbols.getter (isBare_ofList (by decide)))
      (by simp [Signature.spell])
  have hinit : (line ("bool " ++ blueprint.symbols.init ++ "(" ++ blueprint.symbols.typeName ++
      " * self);")).Leaves 0 (spellings ';'
        [⟨["bool"], blueprint.symbols.init, blueprint.symbols.typeName ++ " * self"⟩]) := by
    have hname : IsBare ("bool " ++ blueprint.symbols.init) :=
      (isBare_ofList (by decide)).append (isBare_of_checkName hsymbols.init)
    exact leaves_spelling (((hname.append_ofList (by decide)).append htype).append_ofList
      (by decide)) (by simp [Signature.spell])
  have hfree : (line ("void " ++ blueprint.symbols.free ++ "(void * self);")).Leaves 0
      (spellings ';' [⟨["void"], blueprint.symbols.free, "void * self"⟩]) := by
    have hname : IsBare ("void " ++ blueprint.symbols.free) :=
      (isBare_ofList (by decide)).append (isBare_of_checkName hsymbols.free)
    exact leaves_spelling (hname.append_ofList (by decide)) (by simp [Signature.spell])
  unfold functionDeclarations
  simp only [Layout.all]
  refine (hdoc ?_).seq (hconstructor.seq (leaves_blank.seq ((hdoc ?_).seq (hgetter.seq
    (leaves_blank.seq ((hdoc ?_).seq (hinit.seq (leaves_blank.seq ((hdoc ?_).seq
    (hfree.seq leaves_skip)))))))))) <;> simp only [List.forall_mem_cons]
  · exact ⟨habout (by decide) (by decide), hpromise, List.forall_mem_nil _⟩
  · exact ⟨habout (by decide) (by decide), habout (by decide) (by decide),
      habout (by decide) (by decide), List.forall_mem_nil _⟩
  · exact ⟨habout (by decide) (by decide), habout (by decide) (by decide),
      notMem_ofList (by decide), List.forall_mem_nil _⟩
  · exact ⟨habout (by decide) (by decide), habout (by decide) (by decide), List.forall_mem_nil _⟩

theorem leaves_fileComment (h : blueprint.StaysInComments) : blueprint.fileComment.Leaves 0 [] := by
  have hbase : '*' ∉ blueprint.base.typeName.toList :=
    notMem_of_checkName h.base.typeName (by decide)
  have hkept : Keeps (blueprint.fileComment.added 0) ("" ++ "\n") := by
    rw [Keeps, scan_fileComment hbase h.description]
    rfl
  exact leaves_of_keeps hkept rfl

theorem codeLines_header (h : blueprint.StaysInComments) (hsymbols : blueprint.symbols.Admissible) :
    codeLines blueprint.render.header =
      ["#ifndef " ++ blueprint.symbols.guard, "#define " ++ blueprint.symbols.guard,
          "#include \"" ++ blueprint.base.headerFile ++ "\""] ++
        ["typedef struct\x7b", tabs 1 ++ (blueprint.base.typeName ++ " base; "),
          "\x7d " ++ blueprint.symbols.typeName ++ ";"] ++
        spellings ';' (blueprint.symbols.signatures "void") ++ ["#endif"] := by
  have hguard := isBare_of_checkName hsymbols.guard
  have hifndef : IsBare ("#ifndef " ++ blueprint.symbols.guard) :=
    (isBare_ofList (by decide)).append hguard
  have hdefine : IsBare ("#define " ++ blueprint.symbols.guard) :=
    (isBare_ofList (by decide)).append hguard
  have hspace : (line " ").Leaves 0 [] := by
    have hkept : Keeps ((line " ").added 0) (" " ++ "\n") := by
      rw [Keeps]
      decide
    exact leaves_of_keeps hkept rfl
  have hend : codeLines ((all [raw "#endif"]).added 0) = ["#endif"] := by decide
  change codeLines blueprint.header.render = _
  rw [render_eq_added, List.append_assoc, List.append_assoc]
  refine (leaves_license h (by decide)).codeLines_seq ?_
  refine leaves_blank.codeLines_seq ((leaves_fileComment h).codeLines_seq ?_)
  refine leaves_blank.codeLines_seq ((leaves_bare hifndef).codeLines_seq ?_)
  refine (leaves_bare hdefine).codeLines_seq (leaves_blank.codeLines_seq ?_)
  refine (leaves_heading (by decide)).codeLines_seq ?_
  refine (leaves_include h.base.fileBase).codeLines_seq (leaves_blank.codeLines_seq ?_)
  refine (leaves_structDeclaration hsymbols h.base).codeLines_seq (leaves_blank.codeLines_seq ?_)
  refine (leaves_functionDeclarations hsymbols).codeLines_seq (hspace.codeLines_seq ?_)
  exact (leaves_heading (by decide)).codeLines_seq hend

theorem isBare_allocationCheck (condition : Bool) (level : Nat) :
    (Layout.when condition allocationCheck).Every Emission.IsBare level := by
  cases condition with
  | false => exact every_skip
  | true =>
      exact (every_line_ofList (by decide)).seq (every_indent.seq
        ((every_line_ofList (by decide)).seq (every_dedent.seq every_skip)))

theorem isBare_initialisation (hsymbols : blueprint.symbols.Admissible) (level : Nat) :
    blueprint.initialisation.Every Emission.IsBare level := by
  have hinit := isBare_of_checkName hsymbols.init
  unfold initialisation
  split
  · exact every_line (hinit.append_ofList (by decide))
  · exact every_block (((isBare_ofList (by decide)).append hinit).append_ofList (by decide))
      ((every_line_ofList (by decide)).seq ((every_line_ofList (by decide)).seq every_skip))

theorem isBare_constructorDefinition (hsymbols : blueprint.symbols.Admissible)
    (hbase : blueprint.base.Admissible) :
    blueprint.constructorDefinition.Every Emission.IsBare 0 := by
  have htype := isBare_of_checkName hsymbols.typeName
  have hconstructor := isBare_of_checkName hsymbols.constructor
  have hgetter := isBare_of_checkName hbase.getter
  have hfree := isBare_of_checkName hsymbols.free
  refine every_block (((htype.append_ofList (by decide)).append hconstructor).append_ofList
    (by decide)) ?_
  refine (every_line (htype.append_ofList (by decide))).seq ((isBare_allocationCheck _ _).seq ?_)
  refine (every_line (((hgetter.append_ofList (by decide)).append hfree).append_ofList
    (by decide))).seq ((isBare_initialisation hsymbols _).seq ?_)
  exact (every_line_ofList (by decide)).seq every_skip

theorem leaves_constructorDefinition (hsymbols : blueprint.symbols.Admissible)
    (hbase : blueprint.base.Admissible) :
    blueprint.constructorDefinition.Leaves 0 (blueprint.constructorDefinition.lines 0) :=
  (isBare_constructorDefinition hsymbols hbase).leaves (levelAfter_constructorDefinition blueprint)

theorem leaves_getterDefinition (hsymbols : blueprint.symbols.Admissible) :
    blueprint.getterDefinition.Leaves 0 (blueprint.getterDefinition.lines 0) := by
  have htype := isBare_of_checkName hsymbols.typeName
  have hgetter := isBare_of_checkName hsymbols.getter
  have hopening : IsBare (blueprint.symbols.typeName ++ " * " ++ blueprint.symbols.getter ++
      "(void * self)\x7b") :=
    ((htype.append_ofList (by decide)).append hgetter).append_ofList (by decide)
  exact (every_block hopening (every_line_ofList (by decide))).leaves rfl

theorem leaves_initialiserDefinition (hsymbols : blueprint.symbols.Admissible)
    (hbase : blueprint.base.Admissible) :
    blueprint.initialiserDefinition.Leaves 0 (blueprint.initialiserDefinition.lines 0) := by
  have htype := isBare_of_checkName hsymbols.typeName
  have hname : IsBare ("bool " ++ blueprint.symbols.init) :=
    (isBare_ofList (by decide)).append (isBare_of_checkName hsymbols.init)
  have hopening : IsBare ("bool " ++ blueprint.symbols.init ++ "(" ++
      blueprint.symbols.typeName ++ " * self)\x7b") :=
    ((hname.append_ofList (by decide)).append htype).append_ofList (by decide)
  have hgetter := isBare_of_checkName hbase.getter
  have hcall : IsBare ("if (!" ++ blueprint.base.init) :=
    (isBare_ofList (by decide)).append (isBare_of_checkName hbase.init)
  have htest : IsBare ("if (!" ++ blueprint.base.init ++ "(" ++ blueprint.base.getter ++
      "(self)))") :=
    ((hcall.append_ofList (by decide)).append hgetter).append_ofList (by decide)
  refine (every_block hopening ?_).leaves rfl
  exact (every_line htest).seq (every_indent.seq ((every_line_ofList (by decide)).seq
    (every_dedent.seq ((every_line_ofList (by decide)).seq every_skip))))

theorem leaves_destructorDefinition (hsymbols : blueprint.symbols.Admissible)
    (hbase : blueprint.base.Admissible) :
    blueprint.destructorDefinition.Leaves 0 (blueprint.destructorDefinition.lines 0) := by
  have hname : IsBare ("void " ++ blueprint.symbols.free) :=
    (isBare_ofList (by decide)).append (isBare_of_checkName hsymbols.free)
  have hopening : IsBare ("void " ++ blueprint.symbols.free ++ "(void * self)\x7b") :=
    hname.append_ofList (by decide)
  have hcall : IsBare (blueprint.base.free ++ "(self);") :=
    (isBare_of_checkName hbase.free).append_ofList (by decide)
  exact (every_block hopening (every_line hcall)).leaves rfl

theorem codeLines_source (h : blueprint.StaysInComments) (hsymbols : blueprint.symbols.Admissible) :
    codeLines blueprint.render.source =
      ("#include \"" ++ blueprint.symbols.headerFile ++ "\"") ::
        (blueprint.constructorDefinition.lines 0 ++ (blueprint.getterDefinition.lines 0 ++
          (blueprint.initialiserDefinition.lines 0 ++
            blueprint.destructorDefinition.lines 0))) := by
  have hnone : codeLines (skip.added 0) = [] := by decide
  change codeLines blueprint.source.render = _
  rw [render_eq_added, ← List.append_nil (blueprint.destructorDefinition.lines 0)]
  refine (leaves_license h (by decide)).codeLines_seq (leaves_blank.codeLines_seq ?_)
  refine (leaves_heading (by decide)).codeLines_seq ?_
  refine (leaves_include hsymbols.fileBase).codeLines_seq (leaves_blank.codeLines_seq ?_)
  refine (leaves_heading (by decide)).codeLines_seq ?_
  refine (leaves_constructorDefinition hsymbols h.base).codeLines_seq ?_
  refine leaves_blank.codeLines_seq ((leaves_heading (by decide)).codeLines_seq ?_)
  refine (leaves_getterDefinition hsymbols).codeLines_seq (leaves_blank.codeLines_seq ?_)
  refine (leaves_heading (by decide)).codeLines_seq ?_
  refine (leaves_initialiserDefinition hsymbols h.base).codeLines_seq ?_
  refine leaves_blank.codeLines_seq ((leaves_heading (by decide)).codeLines_seq ?_)
  exact (leaves_destructorDefinition hsymbols h.base).codeLines_seq
    (leaves_blank.codeLines_seq ((leaves_heading (by decide)).codeLines_seq hnone))

end Blueprint

end Scaffold
