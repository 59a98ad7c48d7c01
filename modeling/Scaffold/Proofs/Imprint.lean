import Scaffold.Proofs.Collisions
import Scaffold.Proofs.Lines
import Scaffold.Proofs.Signatures

/-!
# The imprint of a header

What a header says of its making: the request it comes from and the settings that have a part in it.
Free text is put into it as it stands, but each on a line of its own, between fixed words; only the
author and the date share a line, and no date has a space.
-/

namespace Scaffold

namespace Text

def between? (opening closing : String) (line : List Char) : Option (List Char) :=
  let text := (line.drop opening.toList.length).take
    (line.length - opening.toList.length - closing.toList.length)
  if line = opening.toList ++ text ++ closing.toList then some text else none

theorem between?_eq_some_iff {opening closing : String} {line text : List Char} :
    between? opening closing line = some text ↔
      line = opening.toList ++ text ++ closing.toList := by
  constructor
  · intro h
    simp only [between?, Option.ite_none_right_eq_some] at h
    obtain ⟨hline, htext⟩ := h
    rwa [Option.some.inj htext] at hline
  · rintro rfl
    have hlength : (opening.toList ++ text ++ closing.toList).length - opening.toList.length -
        closing.toList.length = text.length := by
      simp only [List.length_append]
      omega
    have htext : ((opening.toList ++ text ++ closing.toList).drop opening.toList.length).take
        text.length = text := by
      rw [List.append_assoc, List.drop_left, List.take_left]
    simp only [between?, hlength, htext, if_true]

theorem between?_append (opening text closing : String) :
    between? opening closing (opening ++ text ++ closing).toList = some text.toList := by
  rw [between?_eq_some_iff, String.toList_append, String.toList_append]

end Text

/-! ### Dates -/

namespace Date

def number (digits : List Char) : Nat := Nat.ofDigitChars 10 digits 0

def readYear : List Char → Int
  | '-' :: digits => -number digits
  | '+' :: digits => number digits
  | digits => number digits

def ofStamp? (text : List Char) : Option Date :=
  match text.splitOn '/' with
  | [day, month, year] => ofYearMonthDay? (readYear year) (number month) (number day)
  | _ => none

theorem number_paddedDigits (width n : Nat) : number (paddedDigits width n).toList = n := by
  rw [number, paddedDigits, String.toList_ofList, List.leftpad, Nat.ofDigitChars_append,
    Nat.ofDigitChars_replicate_zero, Nat.mul_zero, Nat.ofDigitChars_ten_toDigits]

theorem readYear_of_digits {digits : List Char} (h : ∀ c ∈ digits, c.isDigit = true) :
    readYear digits = number digits := by
  unfold readYear
  split
  · exact absurd (h '-' List.mem_cons_self) (by decide)
  · exact absurd (h '+' List.mem_cons_self) (by decide)
  · rfl

theorem readYear_yearText (year : Int) : readYear (yearText year).toList = year := by
  unfold yearText
  split
  · next hneg =>
    have hread : readYear ("-" ++ paddedDigits 4 year.natAbs).toList =
        -number (paddedDigits 4 year.natAbs).toList := by
      rw [String.toList_append]
      rfl
    rw [hread, number_paddedDigits]
    omega
  · next hpos =>
    split
    · rw [readYear_of_digits fun _ => isDigit_of_mem_paddedDigits, number_paddedDigits]
      omega
    · have hread : readYear ("+" ++ paddedDigits 4 year.toNat).toList =
          number (paddedDigits 4 year.toNat).toList := by
        rw [String.toList_append]
        rfl
      rw [hread, number_paddedDigits]
      omega

theorem slash_notMem_paddedDigits (width n : Nat) : '/' ∉ (paddedDigits width n).toList := by
  intro h
  exact absurd (isDigit_of_mem_paddedDigits h) (by decide)

theorem slash_notMem_yearText (year : Int) : '/' ∉ (yearText year).toList := by
  unfold yearText
  split
  · exact notMem_append (by decide) (slash_notMem_paddedDigits _ _)
  · split
    · exact slash_notMem_paddedDigits _ _
    · exact notMem_append (by decide) (slash_notMem_paddedDigits _ _)

/-- A stamp says which date it is, whatever the year. -/
theorem ofStamp?_stamp (date : Date) : ofStamp? date.stamp.toList = some date := by
  have hstamp : date.stamp.toList = (paddedDigits 2 date.day).toList ++
      '/' :: ((paddedDigits 2 date.month).toList ++ '/' :: (yearText date.year).toList) := by
    simp [stamp]
  have hsplit : date.stamp.toList.splitOn '/' = [(paddedDigits 2 date.day).toList,
      (paddedDigits 2 date.month).toList, (yearText date.year).toList] := by
    rw [hstamp, List.splitOn_append_cons_self_of_not_mem (slash_notMem_paddedDigits _ _),
      List.splitOn_append_cons_self_of_not_mem (slash_notMem_paddedDigits _ _),
      List.splitOn_eq_singleton (slash_notMem_yearText _)]
  rw [ofStamp?, hsplit]
  simp only [readYear_yearText, number_paddedDigits]
  exact ofYearMonthDay?_self date

end Date

/-! ### What the lines say -/

structure Imprint where
  request : Request
  project : String
  copyright : String
  constructor : ConstructorMode
deriving DecidableEq

namespace Imprint

def ofRequest (request : Request) (config : Config) : Imprint :=
  ⟨request, config.project, config.copyright, config.constructor⟩

/-- Reads the author and the date: the date is what follows the last space. -/
def created? (text : List Char) : Option (List Char × Date) := do
  let (stamp, rest) ← Text.splitOnce ' ' text.reverse
  let author ← Text.between? "" " on" rest.reverse
  let date ← Date.ofStamp? stamp.reverse
  return (author, date)

def promised (line : List Char) : ConstructorMode :=
  if (Text.between? " @returns A new " " object or NULL on failure." line).isSome then .checked
  else .legacy

def ofHeader? (text : String) : Option Imprint := do
  let lines := text.toList.splitOn '\n'
  let shortName ← lines[1]?.bind (Text.between? "//  CB" ".h")
  let project ← lines[2]?.bind (Text.between? "//  " "")
  let created ← lines[4]?.bind (Text.between? "//  Created by " ".")
  let (author, date) ← created? created
  let copyright ← lines[5]?.bind (Text.between? "//  Copyright (c) " "")
  let description ← lines[24]?.bind (Text.between? " @brief " " Inherits CBObject")
  let promise ← lines[43]?
  return {
    request := ⟨String.ofList shortName, String.ofList author, String.ofList description, date⟩
    project := String.ofList project
    copyright := String.ofList copyright
    constructor := promised promise }

theorem created?_append (author : String) (date : Date) :
    created? (author ++ " on " ++ date.stamp).toList = some (author.toList, date) := by
  have hspace : ' ' ∉ date.stamp.toList.reverse := by
    rw [List.mem_reverse]
    intro h
    exact absurd (Date.isStampChar_of_mem_stamp h) (by decide)
  have hreverse : (author ++ " on " ++ date.stamp).toList.reverse =
      date.stamp.toList.reverse ++ ' ' :: (author ++ " on").toList.reverse := by
    simp
  have hauthor : Text.between? "" " on" (author ++ " on").toList = some author.toList := by
    rw [Text.between?_eq_some_iff, String.toList_append]
    rfl
  rw [created?, hreverse, Text.splitOnce_append hspace]
  simp only [Option.bind_eq_bind, Option.bind_some, List.reverse_reverse, hauthor,
    Date.ofStamp?_stamp]
  rfl

end Imprint

namespace Blueprint

open Layout

variable {request : Request} {config : Config}

structure IsUnbroken (request : Request) (config : Config) : Prop where
  shortName : '\n' ∉ request.shortName.toList
  author : '\n' ∉ request.author.toList
  description : '\n' ∉ request.description.toList
  project : '\n' ∉ config.project.toList
  copyright : '\n' ∉ config.copyright.toList

theorem IsUnbroken.isFreeOf (h : IsUnbroken request config) :
    (ofRequest request config).IsFreeOf '\n' :=
  ⟨h.author, Date.notMem_stamp (by decide) request.date, h.project, h.copyright⟩

theorem IsUnbroken.notMem_symbol (h : IsUnbroken request config) (kind : SymbolKind) :
    '\n' ∉ (request.symbols.symbol kind).toList := by
  by_cases hguard : kind = .guard
  · have hupper := Text.lineFeed_notMem_uppercase h.shortName
    rw [hguard]
    exact notMem_append (notMem_append (by decide) hupper) (by decide)
  · have hverb : '\n' ∉ kind.verb.toList := by cases kind <;> decide
    rw [Request.symbols, SymbolKind.symbol_eq_append hguard]
    exact notMem_append (by decide) (notMem_append hverb h.shortName)

theorem IsUnbroken.notMem_file (h : IsUnbroken request config) {ending : String}
    (hending : '\n' ∉ ending.toList) : '\n' ∉ (request.symbols.fileBase ++ ending).toList :=
  notMem_append (h.notMem_symbol .typeName) hending

theorem IsUnbroken.notMem_headerFile (h : IsUnbroken request config) :
    '\n' ∉ request.symbols.headerFile.toList :=
  h.notMem_file (by decide)

theorem isWhole_license (h : IsUnbroken request config) {fileName : String}
    (hfile : '\n' ∉ fileName.toList) :
    ((ofRequest request config).license fileName).IsWhole 0 := by
  intro emission hmem
  obtain ⟨text, rfl, _, _, hbreak⟩ :=
    isLineComment_license (by decide) h.isFreeOf hfile emission hmem
  exact Emission.isWhole_line hbreak 0

theorem isWhole_structDeclaration (h : IsUnbroken request config) :
    (ofRequest request config).structDeclaration.IsWhole 0 := by
  have htype := h.notMem_symbol .typeName
  have hcomment : ∀ text ∈ ["@brief Structure for " ++ request.symbols.typeName ++
      " objects. @see " ++ request.symbols.headerFile], '\n' ∉ text.toList :=
    List.forall_mem_singleton.mpr
      (notMem_append (notMem_append (notMem_append (by decide) htype) (by decide))
        h.notMem_headerFile)
  have hbody : (line (Symbols.base.typeName ++ " base; /**< " ++ Symbols.base.typeName ++
      " base structure */")).IsWhole 1 := isWhole_line (by decide)
  have hclose : '\n' ∉ ("\x7d " ++ request.symbols.typeName ++ ";").toList :=
    notMem_append (notMem_append (by decide) htype) (by decide)
  exact (isWhole_doxygen hcomment (by decide)).seq
    ((isWhole_block (by decide) hclose hbody).seq isWhole_skip)

theorem isWhole_functionDeclarations (h : IsUnbroken request config) :
    (ofRequest request config).functionDeclarations.IsWhole 0 := by
  have htype : '\n' ∉ request.symbols.typeName.toList := h.notMem_symbol .typeName
  have hconstructor : '\n' ∉ request.symbols.constructor.toList := h.notMem_symbol .constructor
  have hgetter : '\n' ∉ request.symbols.getter.toList := h.notMem_symbol .getter
  have hinit : '\n' ∉ request.symbols.init.toList := h.notMem_symbol .init
  have hfree : '\n' ∉ request.symbols.free.toList := h.notMem_symbol .free
  have hsymbols : (ofRequest request config).symbols = request.symbols := rfl
  have hpromise : '\n' ∉ (ofRequest request config).constructorPromise.toList := by
    unfold constructorPromise
    split <;> simp [hsymbols, htype]
  have hclose : '\n' ∉ " */".toList := by decide
  have hdoc {lines : List String} (hlines : ∀ text ∈ lines, '\n' ∉ text.toList) :
      (doxygen lines " */").IsWhole 0 := isWhole_doxygen hlines hclose
  unfold functionDeclarations
  refine (hdoc (by simp [hsymbols, htype, hpromise])).seq ?_
  refine (isWhole_line (by simp [hsymbols, htype, hconstructor])).seq (isWhole_blank.seq ?_)
  refine (hdoc (by simp [hsymbols, htype])).seq ?_
  refine (isWhole_line (by simp [hsymbols, htype, hgetter])).seq (isWhole_blank.seq ?_)
  refine (hdoc (by simp [hsymbols, htype])).seq ?_
  refine (isWhole_line (by simp [hsymbols, htype, hinit])).seq (isWhole_blank.seq ?_)
  refine (hdoc (by simp [hsymbols, htype])).seq ?_
  exact (isWhole_line (by simp [hsymbols, hfree])).seq isWhole_skip

theorem splits_header (h : IsUnbroken request config) :
    (ofRequest request config).header.Splits 0 := by
  have hdescription : ∀ text ∈ ["@file", "@brief " ++ request.description ++ " Inherits " ++
      Symbols.base.typeName], '\n' ∉ text.toList := by
    have hbase : '\n' ∉ Symbols.base.typeName.toList := by decide
    simp [h.description, hbase]
  have hguard : '\n' ∉ request.symbols.guard.toList := h.notMem_symbol .guard
  have hinclude : '\n' ∉ ("#include \"" ++ Symbols.base.headerFile ++ "\"").toList := by decide
  have hend : (all [raw "#endif"]).Splits 0 := by
    unfold Splits
    decide
  refine (isWhole_license h h.notMem_headerFile).splits_seq (isWhole_blank.splits_seq ?_)
  refine (isWhole_doxygen hdescription (by decide)).splits_seq (isWhole_blank.splits_seq ?_)
  refine (isWhole_line (notMem_append (by decide) hguard)).splits_seq ?_
  refine (isWhole_line (notMem_append (by decide) hguard)).splits_seq (isWhole_blank.splits_seq ?_)
  refine (isWhole_heading (by decide)).splits_seq ((isWhole_line hinclude).splits_seq ?_)
  refine isWhole_blank.splits_seq ((isWhole_structDeclaration h).splits_seq ?_)
  refine isWhole_blank.splits_seq ((isWhole_functionDeclarations h).splits_seq ?_)
  exact (isWhole_line (by decide)).splits_seq ((isWhole_heading (by decide)).splits_seq hend)

theorem getElem?_lines_header (request : Request) (config : Config) :
    let lines := (ofRequest request config).header.lines 0
    lines[1]? = some ("//  CB" ++ request.shortName ++ ".h") ∧
      lines[2]? = some ("//  " ++ config.project ++ "") ∧
      lines[4]? = some ("//  Created by " ++
        (request.author ++ " on " ++ request.date.stamp) ++ ".") ∧
      lines[5]? = some ("//  Copyright (c) " ++ config.copyright ++ "") ∧
      lines[24]? = some (" @brief " ++ request.description ++ " Inherits CBObject") ∧
      lines[43]? = some (" " ++ (ofRequest request config).constructorPromise) := by
  intro lines
  have hline {entry : Option String} {text other : String} (h : entry = some (tabs 0 ++ text))
      (hother : text = other) : entry = some other := by
    rw [h, ← hother]
    exact congrArg some (tabs_zero_append text)
  refine ⟨hline rfl ?_, hline rfl ?_, hline rfl ?_, hline rfl ?_, hline rfl ?_, hline rfl rfl⟩
  · exact (String.append_assoc ..).symm
  · exact String.append_empty.symm
  · simp [ofRequest, Request.dateStamp, String.append_assoc]
  · exact String.append_empty.symm
  · simp [ofRequest, ← String.toList_inj, Symbols.base, Symbols.derive, symbolMark,
      Symbols.baseName]

end Blueprint

namespace Imprint

variable {request other : Request} {config settings : Config}

theorem promised_promise (blueprint : Blueprint) :
    promised (" " ++ blueprint.constructorPromise).toList = blueprint.constructor := by
  unfold promised Blueprint.constructorPromise
  cases blueprint.constructor with
  | legacy =>
      have hnone : Text.between? " @returns A new " " object or NULL on failure."
          (" " ++ ("@returns A new " ++ blueprint.symbols.typeName ++ " object.")).toList =
            none := by
        rw [Option.eq_none_iff_forall_ne_some]
        intro text htext
        rw [Text.between?_eq_some_iff] at htext
        -- The two promises differ in the letter before their last.
        have hlast := congrArg (fun line => line.reverse[1]?) htext
        simp at hlast
      rw [hnone]
      rfl
  | checked =>
      have hline : " " ++ ("@returns A new " ++ blueprint.symbols.typeName ++
          " object or NULL on failure.") = " @returns A new " ++ blueprint.symbols.typeName ++
            " object or NULL on failure." := by
        simp [← String.toList_inj]
      rw [hline, Text.between?_append]
      rfl

/-- A header tells what it was made from. -/
theorem ofHeader?_header (h : Blueprint.IsUnbroken request config) :
    ofHeader? (Blueprint.ofRequest request config).render.header =
      some (ofRequest request config) := by
  let lines := (Blueprint.ofRequest request config).header.lines 0
  have hlines : (Blueprint.ofRequest request config).render.header.toList.splitOn '\n' =
      lines.map String.toList := by
    change (Blueprint.ofRequest request config).header.render.toList.splitOn '\n' = _
    rw [Layout.render_eq_added]
    exact Blueprint.splits_header h
  have hfield {k : Nat} {opening text closing : String}
      (hk : lines[k]? = some (opening ++ text ++ closing)) :
      (lines.map String.toList)[k]?.bind (Text.between? opening closing) = some text.toList := by
    rw [List.getElem?_map, hk]
    exact Text.between?_append opening text closing
  obtain ⟨hname, hproject, hcreated, hcopyright, hdescription, hpromise⟩ :=
    Blueprint.getElem?_lines_header request config
  have hpromised : (lines.map String.toList)[43]? =
      some (" " ++ (Blueprint.ofRequest request config).constructorPromise).toList := by
    rw [List.getElem?_map, hpromise]
    rfl
  simp only [ofHeader?, hlines, hfield hname, hfield hproject, hfield hcreated, hfield hcopyright,
    hfield hdescription, hpromised, Option.bind_some, Option.bind_eq_bind, created?_append,
    promised_promise, String.ofList_toList]
  rfl

/-- **A header identifies its making.** If no free text breaks its line, the name, the author, the
description, the date, the project, the copyright and the mode can be read back from a header, so
two equal headers come from one request and from settings that agree. -/
theorem identifies (h : Blueprint.IsUnbroken request config)
    (hother : Blueprint.IsUnbroken other settings) :
    let header := (Blueprint.ofRequest request config).render.header
    ofHeader? header = some (ofRequest request config) ∧
      (header = (Blueprint.ofRequest other settings).render.header →
        request = other ∧ config.project = settings.project ∧
          config.copyright = settings.copyright ∧ config.constructor = settings.constructor) := by
  intro header
  have hread : ofHeader? header = some (ofRequest request config) := ofHeader?_header h
  refine ⟨hread, fun heq => ?_⟩
  have himprint : some (ofRequest request config) = some (ofRequest other settings) :=
    calc some (ofRequest request config)
      _ = ofHeader? header := hread.symm
      _ = ofHeader? (Blueprint.ofRequest other settings).render.header := by rw [heq]
      _ = some (ofRequest other settings) := ofHeader?_header hother
  injection himprint with himprint
  injection himprint with hrequest hproject hcopyright hconstructor
  exact ⟨hrequest, hproject, hcopyright, hconstructor⟩

/-- Free text that looks like the words around it does no harm. -/
theorem identifies_widget :
    let request : Request := ⟨"Widget", "Ada on 02/03/2004", "A widget. Inherits CBObject",
      { year := -1, month := 12, day := 31 }⟩
    let config : Config := { Config.default with project := "//  ", constructor := .checked }
    let other : Request := ⟨"Wid.h get", " on ", "", { year := 12345, month := 1, day := 1 }⟩
    let settings : Config := { Config.default with copyright := ". on 1/1/1" }
    let header := (Blueprint.ofRequest request config).render.header
    (Blueprint.IsUnbroken request config ∧ Blueprint.IsUnbroken other settings) ∧
      ofHeader? header = some (ofRequest request config) ∧
      (header = (Blueprint.ofRequest other settings).render.header →
        request = other ∧ config.project = settings.project ∧
          config.copyright = settings.copyright ∧
          config.constructor = settings.constructor) := by
  intro request config other settings header
  have h : Blueprint.IsUnbroken request config :=
    ⟨by decide, by decide, by decide, by decide, by decide⟩
  have hother : Blueprint.IsUnbroken other settings :=
    ⟨by decide, by decide, by decide, by decide, by decide⟩
  exact ⟨⟨h, hother⟩, identifies h hother⟩

end Imprint

end Scaffold
