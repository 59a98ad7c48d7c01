import Scaffold.Proofs.Code
import Scaffold.Proofs.Comments
import Scaffold.Proofs.Imprint

/-!
# The shape of the header

The header line by line, whatever the name and the free text are, as long as they break no line: its
directives, what stands before its guard, and its one structure. A directive is code, so that the
lines of code are enough to find all of them.
-/

namespace Scaffold

def isDirective (line : String) : Bool :=
  line.toList.head? == some '#'

def IsSpare (line : String) : Prop :=
  line = "" ∨ "//".toList <+: line.toList

/-- Spare lines, and among them one comment of several lines: it opens with a line of its own and
goes on to the first line that closes it. -/
def IsPreamble (lines : List String) : Prop :=
  ∃ notice comment gap, lines = notice ++ "/**" :: (comment ++ "*/" :: gap) ∧
    (∀ line ∈ notice ++ gap, IsSpare line) ∧ "*/" ∉ comment

theorem isCode_of_isDirective {line : String} (h : isDirective line = true) :
    isCode line = true := by
  rw [isDirective, beq_iff_eq] at h
  rw [isCode, h]
  rfl

theorem filter_isDirective (lines : List String) :
    lines.filter isDirective = (lines.filter isCode).filter isDirective := by
  rw [List.filter_filter]
  congr 1
  funext line
  cases h : isDirective line with
  | false => rfl
  | true => rw [isCode_of_isDirective h]; rfl

namespace Layout

variable {first second : Layout} {level : Nat} {lines : List String}

theorem lines_line (text : String) : (line text).lines 0 = [text] :=
  congrArg (fun line => [line]) (tabs_zero_append text)

theorem lines_block_line (opening text close : String) :
    (block opening close (line text)).lines 0 = [opening, tabs 1 ++ text, close] := by
  change [tabs 0 ++ opening, tabs 1 ++ text, tabs 0 ++ close] = _
  rw [tabs_zero_append, tabs_zero_append]

theorem lines_each (texts : List String) :
    let comment := each texts fun text => line (" " ++ text)
    comment.lines 0 = texts.map (" " ++ ·) ∧ comment.levelAfter 0 = 0 := by
  induction texts with
  | nil => exact ⟨rfl, rfl⟩
  | cons text rest ih =>
      obtain ⟨hlines, hlevel⟩ := ih
      refine ⟨?_, hlevel⟩
      change (seq (line (" " ++ text)) (each rest fun text => line (" " ++ text))).lines 0 = _
      rw [lines_seq, lines_line]
      exact congrArg ((" " ++ text) :: ·) hlines

theorem lines_doxygen (texts : List String) (close : String) :
    (doxygen texts close).lines 0 = "/**" :: (texts.map (" " ++ ·) ++ [close]) ∧
      (doxygen texts close).levelAfter 0 = 0 := by
  obtain ⟨hlines, hlevel⟩ := lines_each texts
  have hskip : skip.lines 0 = [] := rfl
  constructor
  · simp only [doxygen, all, lines_seq, lines_line, levelAfter, hlines, hlevel, hskip]
    rfl
  · exact hlevel

theorem lines_prefix_seq (first second : Layout) (level : Nat) :
    first.lines level <+: (seq first second).lines level := by
  rw [lines_seq]
  exact List.prefix_append _ _

theorem lines_suffix_seq (h : lines <:+ second.lines (first.levelAfter level)) :
    lines <:+ (seq first second).lines level := by
  rw [lines_seq]
  exact h.trans (List.suffix_append _ _)

end Layout

namespace Blueprint

open Layout

variable {request : Request} {config : Config}

theorem isSpare_license (h : IsUnbroken request config) {fileName : String}
    (hfile : '\n' ∉ fileName.toList) :
    ∀ line ∈ ((ofRequest request config).license fileName).lines 0, IsSpare line := by
  intro line hline
  obtain ⟨emission, hemission, rfl⟩ := List.mem_map.mp hline
  obtain ⟨text, rfl, rest, htext, -⟩ :=
    isLineComment_license (by decide) h.isFreeOf hfile emission hemission
  have hbody : (Emission.line 0 text).body = text := tabs_zero_append text
  rw [hbody]
  exact Or.inr ⟨rest, htext.symm⟩

theorem lines_header (blueprint : Blueprint) :
    blueprint.header.lines 0 =
      ((blueprint.license blueprint.symbols.headerFile).lines 0 ++ [""]) ++ "/**" ::
        ([" @file", " " ++ ("@brief " ++ blueprint.description ++ " Inherits " ++
          blueprint.base.typeName)] ++ "*/" :: [""]) ++
        ("#ifndef " ++ blueprint.symbols.guard) :: ("#define " ++ blueprint.symbols.guard) ::
          (blueprint.header.drop 6).lines 0 := by
  have hheader : blueprint.header = .seq (blueprint.license blueprint.symbols.headerFile)
      (.seq .blank (.seq blueprint.fileComment (.seq .blank
        (.seq (.line ("#ifndef " ++ blueprint.symbols.guard))
          (.seq (.line ("#define " ++ blueprint.symbols.guard))
            (blueprint.header.drop 6)))))) := rfl
  have hblank : Layout.blank.lines 0 = [""] := rfl
  obtain ⟨hcomment, hlevel⟩ := lines_doxygen ["@file", "@brief " ++ blueprint.description ++
    " Inherits " ++ blueprint.base.typeName] "*/"
  have hlines := congrArg (·.lines 0) hheader
  simp only [lines_seq, levelAfter_license, levelAfter, hblank, fileComment, hcomment, hlevel,
    lines_line] at hlines
  simpa using hlines

theorem isPreamble_header (h : IsUnbroken request config) :
    IsPreamble (((ofRequest request config).license request.symbols.headerFile).lines 0 ++ [""] ++
      "/**" :: ([" @file", " " ++ ("@brief " ++ request.description ++ " Inherits " ++
        Symbols.base.typeName)] ++ "*/" :: [""])) := by
  refine ⟨_, _, _, rfl, ?_, ?_⟩
  · have hblank : ∀ line ∈ [""], IsSpare line := List.forall_mem_singleton.mpr (Or.inl rfl)
    have hlicense := isSpare_license h h.notMem_headerFile
    exact List.forall_mem_append.mpr ⟨List.forall_mem_append.mpr ⟨hlicense, hblank⟩, hblank⟩
  · simp [← String.toList_inj]

theorem lines_suffix_header {blueprint : Blueprint} {lines : List String}
    (h : lines <:+ (blueprint.header.drop 10).lines 0) : lines <:+ blueprint.header.lines 0 :=
  lines_suffix_seq (lines_suffix_seq (lines_suffix_seq (lines_suffix_seq (lines_suffix_seq
    (lines_suffix_seq (lines_suffix_seq (lines_suffix_seq (lines_suffix_seq
    (lines_suffix_seq h)))))))))

theorem endif_suffix_header (blueprint : Blueprint) :
    ["#endif"] <:+ blueprint.header.lines 0 := by
  have hend : ["#endif"] <:+ (all [raw "#endif"]).lines 0 := List.suffix_rfl
  exact lines_suffix_header (lines_suffix_seq (lines_suffix_seq (lines_suffix_seq
    (lines_suffix_seq (lines_suffix_seq hend)))))

theorem struct_infix_header (blueprint : Blueprint) :
    ["typedef struct\x7b", tabs 1 ++ (blueprint.base.typeName ++ " base; /**< " ++
        blueprint.base.typeName ++ " base structure */"),
      "\x7d " ++ blueprint.symbols.typeName ++ ";"] <:+: blueprint.header.lines 0 := by
  rw [← lines_block_line]
  have hblock := lines_prefix_seq (block "typedef struct\x7b"
    ("\x7d " ++ blueprint.symbols.typeName ++ ";") (line (blueprint.base.typeName ++
      " base; /**< " ++ blueprint.base.typeName ++ " base structure */"))) skip 0
  have hstruct : _ <:+ blueprint.structDeclaration.lines 0 :=
    lines_suffix_seq (List.suffix_refl _)
  have hrest : blueprint.structDeclaration.lines 0 <+: (blueprint.header.drop 10).lines 0 :=
    lines_prefix_seq _ _ 0
  exact hblock.isInfix.trans (hstruct.isInfix.trans
    (hrest.isInfix.trans (lines_suffix_header List.suffix_rfl).isInfix))

/-! ### The source -/

theorem isWhole_initialisation (h : IsUnbroken request config) (level : Nat) :
    (ofRequest request config).initialisation.IsWhole level := by
  have hinit : '\n' ∉ request.symbols.init.toList := h.notMem_symbol .init
  have hsymbols : (ofRequest request config).symbols = request.symbols := rfl
  unfold initialisation
  split
  · exact isWhole_line (by simp [hsymbols, hinit])
  · have hbody : (all [line "free(self);", line "return NULL;"]).IsWhole (level + 1) :=
      (isWhole_line (by decide)).seq ((isWhole_line (by decide)).seq isWhole_skip)
    exact isWhole_block (by simp [hsymbols, hinit]) (by decide) hbody

theorem isWhole_allocationCheck (condition : Bool) (level : Nat) :
    (Layout.when condition allocationCheck).IsWhole level := by
  cases condition with
  | false => exact isWhole_skip
  | true =>
      exact (isWhole_line (by decide)).seq (isWhole_indent.seq ((isWhole_line (by decide)).seq
        (isWhole_dedent.seq isWhole_skip)))

theorem isWhole_constructorDefinition (h : IsUnbroken request config) (level : Nat) :
    (ofRequest request config).constructorDefinition.IsWhole level := by
  have hsymbols : (ofRequest request config).symbols = request.symbols := rfl
  have hbase : (ofRequest request config).base = Symbols.base := rfl
  have hbaseGetter : '\n' ∉ Symbols.base.getter.toList := by decide
  have htype : '\n' ∉ request.symbols.typeName.toList := h.notMem_symbol .typeName
  have hconstructor : '\n' ∉ request.symbols.constructor.toList := h.notMem_symbol .constructor
  have hfree : '\n' ∉ request.symbols.free.toList := h.notMem_symbol .free
  refine isWhole_block (by simp [hsymbols, htype, hconstructor]) (by decide) ?_
  refine (isWhole_line (by simp [hsymbols, htype])).seq ((isWhole_allocationCheck _ _).seq ?_)
  refine (isWhole_line (by simp [hsymbols, hbase, hbaseGetter, hfree])).seq ?_
  exact (isWhole_initialisation h _).seq ((isWhole_line (by decide)).seq isWhole_skip)

theorem isWhole_initialiserDefinition (h : IsUnbroken request config) (level : Nat) :
    (ofRequest request config).initialiserDefinition.IsWhole level := by
  have hsymbols : (ofRequest request config).symbols = request.symbols := rfl
  have htype : '\n' ∉ request.symbols.typeName.toList := h.notMem_symbol .typeName
  have hinit : '\n' ∉ request.symbols.init.toList := h.notMem_symbol .init
  have htest : (line ("if (!" ++ Symbols.base.init ++ "(" ++ Symbols.base.getter ++
      "(self)))")).IsWhole (level + 1) := isWhole_line (by decide)
  refine isWhole_block (by simp [hsymbols, htype, hinit]) (by decide) (htest.seq ?_)
  exact isWhole_indent.seq ((isWhole_line (by decide)).seq (isWhole_dedent.seq
    ((isWhole_line (by decide)).seq isWhole_skip)))

theorem isWhole_source (h : IsUnbroken request config) :
    (ofRequest request config).source.IsWhole 0 := by
  have hsymbols : (ofRequest request config).symbols = request.symbols := rfl
  have htype : '\n' ∉ request.symbols.typeName.toList := h.notMem_symbol .typeName
  have hgetter : '\n' ∉ request.symbols.getter.toList := h.notMem_symbol .getter
  have hfree : '\n' ∉ request.symbols.free.toList := h.notMem_symbol .free
  have hheader := h.notMem_headerFile
  have hget (level : Nat) : (ofRequest request config).getterDefinition.IsWhole level :=
    isWhole_block (by simp [hsymbols, htype, hgetter]) (by decide) (isWhole_line (by decide))
  have hbody (level : Nat) : (line (Symbols.base.free ++ "(self);")).IsWhole level :=
    isWhole_line (by decide)
  have hdestroy (level : Nat) : (ofRequest request config).destructorDefinition.IsWhole level :=
    isWhole_block (by simp [hsymbols, hfree]) (by decide) (hbody _)
  unfold source
  refine (isWhole_license h (h.notMem_file (by decide))).seq (isWhole_blank.seq ?_)
  refine (isWhole_heading (by decide)).seq ?_
  refine (isWhole_line (by simp [hsymbols, hheader])).seq (isWhole_blank.seq ?_)
  refine (isWhole_heading (by decide)).seq ((isWhole_constructorDefinition h _).seq ?_)
  refine isWhole_blank.seq ((isWhole_heading (by decide)).seq ((hget _).seq ?_))
  refine isWhole_blank.seq ((isWhole_heading (by decide)).seq ?_)
  refine (isWhole_initialiserDefinition h _).seq (isWhole_blank.seq ?_)
  refine (isWhole_heading (by decide)).seq ((hdestroy _).seq (isWhole_blank.seq ?_))
  exact (isWhole_heading (by decide)).seq isWhole_skip

theorem filter_isDirective_header (h : IsUnbroken request config) :
    (splitLines (ofRequest request config).render.header).filter isDirective =
      ["#ifndef " ++ request.symbols.guard, "#define " ++ request.symbols.guard,
        "#include \"CBObject.h\"", "#endif"] := by
  have hlines : splitLines (ofRequest request config).render.header = _ :=
    (splits_header h).splitLines_render
  have hcode : ((ofRequest request config).header.lines 0).filter isCode = _ :=
    code_header request config
  have hinclude :
      "#include \"" ++ Symbols.base.headerFile ++ "\"" = "#include \"CBObject.h\"" := rfl
  rw [hlines, filter_isDirective, hcode, hinclude]
  simp [isDirective, spellings, Symbols.signatures, Signature.spell, Request.symbols,
    Symbols.derive, symbolMark, tabs]

theorem filter_isDirective_source (h : IsUnbroken request config) :
    (splitLines (ofRequest request config).render.source).filter isDirective =
      ["#include \"" ++ request.symbols.headerFile ++ "\""] := by
  have hlines : splitLines (ofRequest request config).render.source = _ :=
    (isWhole_source h).splitLines_render
  obtain ⟨body, hindented, hcode⟩ := code_source request config
  have hfiltered : ((ofRequest request config).source.lines 0).filter isCode = _ := hcode
  have hbody : ∀ text ∈ body, text.toList.head? ≠ some '#' := by
    intro text htext
    rw [hindented text htext]
    decide
  rw [hlines, filter_isDirective, List.filter_append, hfiltered]
  simpa [definition, isDirective, spellings, Signature.spell, Request.symbols, Symbols.derive,
    symbolMark, tabs] using hbody

theorem count_struct_header (h : IsUnbroken request config) :
    (splitLines (ofRequest request config).render.header).count "typedef struct\x7b" = 1 := by
  have hlines : splitLines (ofRequest request config).render.header = _ :=
    (splits_header h).splitLines_render
  have hcode : ((ofRequest request config).header.lines 0).filter isCode = _ :=
    code_header request config
  have hopen : isCode "typedef struct\x7b" = true := by decide
  rw [hlines, ← List.count_filter hopen, hcode]
  simp [spellings, Symbols.signatures, Signature.spell, Request.symbols, Symbols.derive,
    symbolMark, tabs, ← String.toList_inj]

/-- **The shape of the header.** For any name and free text that break no line, in either mode: the
directives of the header are those of its guard and one inclusion; the guard is opened by two lines
side by side, with nothing but spare lines and the comment on the file before them, and closed by
the last line, which stays open; and there is one structure, with the base as its one member. The
one directive of the source includes this header. -/
theorem directives_render (h : IsUnbroken request config) :
    let pair := (ofRequest request config).render
    let lines := splitLines pair.header
    lines.filter isDirective =
        ["#ifndef " ++ request.symbols.guard, "#define " ++ request.symbols.guard,
          "#include \"CBObject.h\"", "#endif"] ∧
      (∃ before after, IsPreamble before ∧ lines = before ++
        ("#ifndef " ++ request.symbols.guard) :: ("#define " ++ request.symbols.guard) :: after) ∧
      lines.getLast? = some "#endif" ∧
      lines.count "typedef struct\x7b" = 1 ∧
      (∃ member, "\tCBObject base;".toList <+: member.toList ∧
        ["typedef struct\x7b", member, "\x7d " ++ request.symbols.typeName ++ ";"] <:+: lines) ∧
      (splitLines pair.source).filter isDirective =
        ["#include \"" ++ request.symbols.headerFile ++ "\""] := by
  intro pair lines
  have hlines : lines = (ofRequest request config).header.lines 0 :=
    (splits_header h).splitLines_render
  have hmember : "\tCBObject base;".toList <+: (tabs 1 ++ (Symbols.base.typeName ++
      " base; /**< " ++ Symbols.base.typeName ++ " base structure */")).toList := by decide
  have hstruct : ["typedef struct\x7b", tabs 1 ++ (Symbols.base.typeName ++ " base; /**< " ++
      Symbols.base.typeName ++ " base structure */"),
      "\x7d " ++ request.symbols.typeName ++ ";"] <:+: lines := by
    rw [hlines]
    exact struct_infix_header (ofRequest request config)
  have hclosing : lines.getLast? = some "#endif" := by
    obtain ⟨before, hbefore⟩ := endif_suffix_header (ofRequest request config)
    rw [hlines, ← hbefore, List.getLast?_concat]
  have hopening := hlines.trans (lines_header (ofRequest request config))
  exact ⟨filter_isDirective_header h, ⟨_, _, isPreamble_header h, hopening⟩, hclosing,
    count_struct_header h, ⟨_, hmember, hstruct⟩, filter_isDirective_source h⟩

/-- Names that are none, and free text that looks like directives. -/
theorem directives_render_hash :
    let request : Request := ⟨"#ß x", "#endif", "*/ #if 0", { year := 2012, month := 1, day := 1 }⟩
    let config : Config := { Config.default with
      project := "typedef struct\x7b", copyright := "#define", constructor := .checked }
    let pair := (ofRequest request config).render
    let lines := splitLines pair.header
    IsUnbroken request config ∧
      lines.filter isDirective = ["#ifndef CB#SS XH", "#define CB#SS XH",
        "#include \"CBObject.h\"", "#endif"] ∧
      (∃ before after, IsPreamble before ∧
        lines = before ++ "#ifndef CB#SS XH" :: "#define CB#SS XH" :: after) ∧
      lines.getLast? = some "#endif" ∧
      lines.count "typedef struct\x7b" = 1 ∧
      (∃ member, "\tCBObject base;".toList <+: member.toList ∧
        ["typedef struct\x7b", member, "\x7d CB#ß x;"] <:+: lines) ∧
      (splitLines pair.source).filter isDirective = ["#include \"CB#ß x.h\""] := by
  intro request config pair lines
  have h : IsUnbroken request config := ⟨by decide, by decide, by decide, by decide, by decide⟩
  have hguard : request.symbols.guard = "CB#SS XH" := by decide
  have hshape := directives_render h
  rw [hguard] at hshape
  exact ⟨h, hshape⟩

end Blueprint

end Scaffold
