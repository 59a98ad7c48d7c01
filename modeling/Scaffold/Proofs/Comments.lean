import Scaffold.Creation
import Scaffold.Proofs.Notice

/-!
# Free text stays in comments

Comments are taken out of a text by a scanner that reads one character after another. In both
artifacts the scanner is back in the code after each place where free text is put, and has kept
nothing of it, so what is left depends on the name of the type and the mode of the constructor.
-/

namespace Scaffold

inductive Region where
  | code
  | slash
  | quoted
  | escaped
  | lineComment
  | blockComment
  | star
deriving DecidableEq, Repr

def isLineBreak (c : Char) : Bool := c == '\n' || c == '\r'

namespace Region

/-- Reads one character: what is kept, and where the scanner is then. A slash is kept once it turns
out to open no comment. -/
def step : Region → Char → List Char × Region
  | code, c =>
    if c = '/' then ([], slash) else if c = '"' then ([c], quoted) else ([c], code)
  | slash, c =>
    if c = '/' then ([], lineComment) else if c = '*' then ([], blockComment)
    else if c = '"' then (['/', c], quoted) else (['/', c], code)
  | quoted, c =>
    if c = '\\' then ([c], escaped) else if c = '"' then ([c], code) else ([c], quoted)
  | escaped, c => ([c], quoted)
  | lineComment, c => if isLineBreak c then ([c], code) else ([], lineComment)
  | blockComment, c => if c = '*' then ([], star) else ([], blockComment)
  | star, c =>
    if c = '/' then ([], code) else if c = '*' then ([], star) else ([], blockComment)

def scan : Region → List Char → List Char × Region
  | region, [] => ([], region)
  | region, c :: rest =>
    ((region.step c).1 ++ (scan (region.step c).2 rest).1, (scan (region.step c).2 rest).2)

end Region

def stripComments (text : String) : String :=
  let (kept, last) := Region.code.scan text.toList
  String.ofList (kept ++ if last = .slash then ['/'] else [])

namespace Region

variable {region : Region} {text first second : List Char}

theorem scan_append (region : Region) (first second : List Char) :
    region.scan (first ++ second) =
      ((region.scan first).1 ++ ((region.scan first).2.scan second).1,
        ((region.scan first).2.scan second).2) := by
  induction first generalizing region with
  | nil => rfl
  | cons c rest ih =>
      rw [List.cons_append, scan, ih, scan]
      simp only [List.append_assoc]

theorem scan_lineComment (h : ∀ c ∈ text, isLineBreak c = false) :
    lineComment.scan text = ([], lineComment) := by
  induction text with
  | nil => rfl
  | cons c rest ih =>
      have hc := h c List.mem_cons_self
      have hrest := ih fun other hother => h other (List.mem_cons_of_mem _ hother)
      simp [scan, step, hc, hrest]

theorem scan_line (h : ∀ c ∈ text, isLineBreak c = false) :
    code.scan ('/' :: '/' :: text ++ ['\n']) = (['\n'], code) := by
  have hopen : code.scan ['/', '/'] = ([], lineComment) := by decide
  have hclose : lineComment.scan ['\n'] = (['\n'], code) := by decide
  have hsplit : '/' :: '/' :: text ++ ['\n'] = ['/', '/'] ++ (text ++ ['\n']) := rfl
  rw [hsplit, scan_append, hopen, scan_append, scan_lineComment h, hclose]
  rfl

/-- Without a star and a slash side by side, a comment goes on. -/
theorem scan_within (text : List Char) :
    (Lint.hasTerminator text = false →
      ∃ last, blockComment.scan text = ([], last) ∧ (last = blockComment ∨ last = star)) ∧
    (Lint.hasTerminator ('*' :: text) = false →
      ∃ last, star.scan text = ([], last) ∧ (last = blockComment ∨ last = star)) := by
  induction text with
  | nil => exact ⟨fun _ => ⟨_, rfl, Or.inl rfl⟩, fun _ => ⟨_, rfl, Or.inr rfl⟩⟩
  | cons c rest ih =>
      constructor
      · intro h
        by_cases hstar : c = '*'
        · obtain ⟨last, hscan, hlast⟩ := ih.2 (hstar ▸ h)
          exact ⟨last, by simp [scan, step, hstar, hscan], hlast⟩
        · have hrest : Lint.hasTerminator rest = false := by
            rw [Lint.hasTerminator, Bool.or_eq_false_iff] at h
            exact h.2
          obtain ⟨last, hscan, hlast⟩ := ih.1 hrest
          exact ⟨last, by simp [scan, step, hstar, hscan], hlast⟩
      · intro h
        rw [Lint.hasTerminator, Bool.or_eq_false_iff] at h
        have hslash : c ≠ '/' := by simpa using h.1
        by_cases hstar : c = '*'
        · obtain ⟨last, hscan, hlast⟩ := ih.2 (hstar ▸ h.2)
          exact ⟨last, by simp [scan, step, hstar, hscan], hlast⟩
        · have hrest : Lint.hasTerminator rest = false := by
            rw [Lint.hasTerminator, Bool.or_eq_false_iff] at h
            exact h.2.2
          obtain ⟨last, hscan, hlast⟩ := ih.1 hrest
          exact ⟨last, by simp [scan, step, hslash, hstar, hscan], hlast⟩

theorem scan_block (h : Lint.hasTerminator text = false) :
    code.scan ('/' :: '*' :: text ++ ['*', '/']) = ([], code) := by
  have hopen : code.scan ['/', '*'] = ([], blockComment) := by decide
  have hsplit : '/' :: '*' :: text ++ ['*', '/'] = ['/', '*'] ++ (text ++ ['*', '/']) := rfl
  obtain ⟨last, hscan, hlast⟩ := (scan_within text).1 h
  have hclose : last.scan ['*', '/'] = ([], code) := by
    rcases hlast with rfl | rfl <;> decide
  rw [hsplit, scan_append, hopen, scan_append, hscan, hclose]
  rfl

end Region

example : stripComments "a/b /* c // * / d */ e // f */ g\nh \"// \\\"/*\" i/" =
    "a/b  e \nh \"// \\\"/*\" i/" := by decide

/-! ### Free text in comments -/

theorem Lint.hasTerminator_append_cons {c : Char} (hstar : c ≠ '*') (hslash : c ≠ '/')
    (first second : List Char) :
    hasTerminator (first ++ c :: second) = (hasTerminator first || hasTerminator second) := by
  induction first with
  | nil => simp [hasTerminator, hstar]
  | cons d rest ih =>
      rw [List.cons_append, hasTerminator, ih, hasTerminator]
      cases rest with
      | nil => simp [hslash]
      | cons e rest => simp [Bool.or_assoc]

theorem Lint.hasTerminator_of_notMem {text : List Char} (h : '*' ∉ text) :
    hasTerminator text = false := by
  induction text with
  | nil => rfl
  | cons c rest ih =>
      rw [List.mem_cons, not_or] at h
      have hc : c ≠ '*' := Ne.symm h.1
      simp [hasTerminator, hc, ih h.2]

def Layout.drop : Nat → Layout → Layout
  | 0, layout => layout
  | n + 1, .seq _ rest => rest.drop n
  | _ + 1, _ => .skip

namespace Region

variable {lines : List String} {text close : String}

theorem scan_tabs (level : Nat) :
    code.scan (List.replicate level '\t') = (List.replicate level '\t', code) := by
  induction level with
  | zero => rfl
  | succ level ih => simp [List.replicate_succ, scan, step, ih]

theorem scan_tabs_within (level : Nat) :
    blockComment.scan (List.replicate level '\t') = ([], blockComment) := by
  induction level with
  | zero => rfl
  | succ level ih => simp [List.replicate_succ, scan, step, ih]

theorem scan_line_within (h : Lint.hasTerminator text.toList = false) (level : Nat) :
    blockComment.scan (tabs level ++ (" " ++ text) ++ "\n").toList = ([], blockComment) := by
  have htabs : '*' ∉ List.replicate level '\t' := toList_tabs level ▸ notMem_tabs (by decide) level
  have hline : Lint.hasTerminator (List.replicate level '\t' ++ ' ' :: text.toList) = false := by
    rw [Lint.hasTerminator_append_cons (by decide) (by decide), Lint.hasTerminator_of_notMem htabs,
      h]
    rfl
  obtain ⟨last, hscan, hlast⟩ := (scan_within _).1 hline
  have hbreak : last.scan ['\n'] = ([], blockComment) := by
    rcases hlast with rfl | rfl <;> decide
  have hsplit : (tabs level ++ (" " ++ text) ++ "\n").toList =
      (List.replicate level '\t' ++ ' ' :: text.toList) ++ ['\n'] := by simp
  rw [hsplit, scan_append, hscan, hbreak]
  rfl

theorem scan_each_within (h : ∀ text ∈ lines, Lint.hasTerminator text.toList = false)
    (level : Nat) :
    let comment := Layout.each lines fun text => .line (" " ++ text)
    blockComment.scan (comment.added level).toList = ([], blockComment) ∧
      comment.levelAfter level = level := by
  induction lines with
  | nil => exact ⟨rfl, rfl⟩
  | cons text rest ih =>
      obtain ⟨hrest, hlevel⟩ := ih fun other hother => h other (List.mem_cons_of_mem _ hother)
      have htext := scan_line_within (h text List.mem_cons_self) level
      have hadded : (Layout.each (text :: rest) fun text => .line (" " ++ text)).added level =
          (tabs level ++ (" " ++ text) ++ "\n") ++
            (Layout.each rest fun text => .line (" " ++ text)).added level := rfl
      refine ⟨?_, hlevel⟩
      rw [hadded, String.toList_append, scan_append, htext, hrest]
      rfl

/-- **A documentation comment is one comment.** At every level the scanner keeps the indentation
before it and the line break after it, if none of its lines closes it. -/
theorem scan_doxygen (hlines : ∀ text ∈ lines, Lint.hasTerminator text.toList = false)
    (hclose : close = "*/" ∨ close = " */") (level : Nat) :
    code.scan ((Layout.doxygen lines close).added level).toList =
      (List.replicate level '\t' ++ ['\n'], code) := by
  obtain ⟨hwithin, hlevel⟩ := scan_each_within hlines level
  have hopening : code.scan (tabs level ++ "/**" ++ "\n").toList =
      (List.replicate level '\t', blockComment) := by
    have hopen : code.scan ("/**" ++ "\n").toList = ([], blockComment) := by decide
    rw [String.append_assoc, String.toList_append, scan_append, toList_tabs, scan_tabs]
    simp only [hopen, List.append_nil]
  have hclosing : blockComment.scan (tabs level ++ close ++ "\n").toList = (['\n'], code) := by
    have hend : blockComment.scan (close ++ "\n").toList = (['\n'], code) := by
      rcases hclose with rfl | rfl <;> decide
    rw [String.append_assoc, String.toList_append, scan_append, toList_tabs, scan_tabs_within, hend]
    rfl
  have hadded : (Layout.doxygen lines close).added level = (tabs level ++ "/**" ++ "\n") ++
      ((Layout.each lines fun text => .line (" " ++ text)).added level ++
        (tabs level ++ close ++ "\n")) := by
    simp [Layout.doxygen, Layout.all, Layout.levelAfter, hlevel, Layout.added, Layout.emissions,
      Emission.concat, Emission.text]
  rw [hadded, String.toList_append, scan_append, hopening, String.toList_append, scan_append,
    hwithin, hclosing]
  rfl

end Region

namespace Blueprint

open Region (code scan_append scan_doxygen scan_line)

variable {blueprint : Blueprint}

def fileComment (blueprint : Blueprint) : Layout :=
  .doxygen ["@file", "@brief " ++ blueprint.description ++ " Inherits " ++ blueprint.base.typeName]
    "*/"

theorem scan_concat {emissions : List Emission}
    (h : ∀ c, isLineBreak c = true → ∀ emission ∈ emissions,
      ∃ text, emission = .line 0 text ∧ IsLineComment c text) :
    code.scan (Emission.concat emissions).toList =
      (List.replicate emissions.length '\n', code) := by
  induction emissions with
  | nil => rfl
  | cons emission rest ih =>
      have hrest := ih fun c hc other hother => h c hc other (List.mem_cons_of_mem _ hother)
      obtain ⟨text, rfl, tail, htail, _⟩ := h '\n' (by decide) emission List.mem_cons_self
      have hbreak : ∀ c ∈ tail, isLineBreak c = false := by
        intro c hmem
        rw [← Bool.not_eq_true]
        intro hc
        obtain ⟨other, hother, _, _, hnotMem⟩ := h c hc _ List.mem_cons_self
        cases hother
        rw [htail] at hnotMem
        exact hnotMem (List.mem_cons_of_mem _ (List.mem_cons_of_mem _ hmem))
      have htext : (Emission.line 0 text).text.toList = '/' :: '/' :: tail ++ ['\n'] := by
        simp [Emission.text, htail]
      rw [Emission.concat, String.toList_append, htext, scan_append, scan_line hbreak, hrest]
      rfl

/-- The comment on a file closes where it should if its description does not close it before. -/
theorem scan_fileComment (hbase : '*' ∉ blueprint.base.typeName.toList)
    (hdescription : Lint.hasTerminator blueprint.description.toList = false) :
    code.scan (blueprint.fileComment.added 0).toList = (['\n'], code) := by
  have hinherits : '*' ∉ "Inherits ".toList ++ blueprint.base.typeName.toList :=
    List.mem_append.not.mpr (not_or.mpr ⟨by decide, hbase⟩)
  have hbrief : Lint.hasTerminator ("@brief " ++ blueprint.description ++ " Inherits " ++
      blueprint.base.typeName).toList = false := by
    have hsplit : ("@brief " ++ blueprint.description ++ " Inherits " ++
        blueprint.base.typeName).toList = "@brief".toList ++ ' ' :: (blueprint.description.toList ++
          ' ' :: ("Inherits ".toList ++ blueprint.base.typeName.toList)) := by simp
    rw [hsplit, Lint.hasTerminator_append_cons (by decide) (by decide),
      Lint.hasTerminator_append_cons (by decide) (by decide), hdescription,
      Lint.hasTerminator_of_notMem hinherits]
    decide
  have hlines : ∀ text ∈ ["@file", "@brief " ++ blueprint.description ++ " Inherits " ++
      blueprint.base.typeName], Lint.hasTerminator text.toList = false :=
    List.forall_mem_cons.mpr ⟨by decide, List.forall_mem_singleton.mpr hbrief⟩
  exact scan_doxygen hlines (Or.inl rfl) 0

structure StaysInComments (blueprint : Blueprint) : Prop where
  base : blueprint.base.Admissible
  isFreeOf : ∀ c, isLineBreak c = true → blueprint.IsFreeOf c
  fileBase : ∀ c, isLineBreak c = true → c ∉ blueprint.symbols.fileBase.toList
  description : Lint.hasTerminator blueprint.description.toList = false

theorem isControl_of_isLineBreak {c : Char} (h : isLineBreak c = true) : isControl c = true := by
  rw [isLineBreak, Bool.or_eq_true, beq_iff_eq, beq_iff_eq] at h
  rcases h with rfl | rfl <;> decide

theorem scan_license (h : blueprint.StaysInComments) {ending : String}
    (hending : (ending.toList.all (!isControl ·)) = true) :
    code.scan ((blueprint.license (blueprint.symbols.fileBase ++ ending)).added 0).toList =
      (List.replicate 21 '\n', code) := by
  rw [← length_emissions_license blueprint (blueprint.symbols.fileBase ++ ending) 0]
  apply scan_concat
  intro c hc
  have hcontrol := isControl_of_isLineBreak hc
  exact isLineComment_license hcontrol (h.isFreeOf c hc)
    (notMem_append (h.fileBase c hc) (notMem_of_all hcontrol hending))

theorem added_header (blueprint : Blueprint) :
    blueprint.header.added 0 =
      (blueprint.license blueprint.symbols.headerFile).added 0 ++
        (Layout.blank.added 0 ++
          (blueprint.fileComment.added 0 ++ (blueprint.header.drop 3).added 0)) := by
  have hheader : blueprint.header = .seq (blueprint.license blueprint.symbols.headerFile)
      (.seq .blank (.seq blueprint.fileComment (blueprint.header.drop 3))) := rfl
  have hadded := congrArg (·.added 0) hheader
  simp only [Layout.added_seq, levelAfter_license] at hadded
  exact hadded

theorem added_source (blueprint : Blueprint) :
    blueprint.source.added 0 =
      (blueprint.license blueprint.symbols.sourceFile).added 0 ++
        (blueprint.source.drop 1).added 0 := by
  have hsource : blueprint.source = .seq (blueprint.license blueprint.symbols.sourceFile)
      (blueprint.source.drop 1) := rfl
  exact (congrArg (·.added 0) hsource).trans (Layout.added_seq _ _ 0)

theorem scan_header (h : blueprint.StaysInComments) :
    code.scan blueprint.render.header.toList =
      (List.replicate 23 '\n' ++ (code.scan ((blueprint.header.drop 3).added 0).toList).1,
        (code.scan ((blueprint.header.drop 3).added 0).toList).2) := by
  have hnotice : code.scan ((blueprint.license blueprint.symbols.headerFile).added 0).toList =
      (List.replicate 21 '\n', code) := scan_license h (by decide)
  have hblank : code.scan (Layout.blank.added 0).toList = (['\n'], code) := by decide
  have hbase := notMem_of_checkName h.base.typeName (c := '*') (by decide)
  have hcomment := scan_fileComment hbase h.description
  change code.scan blueprint.header.render.toList = _
  rw [Layout.render_eq_added, added_header, String.toList_append, scan_append, hnotice,
    String.toList_append, scan_append, hblank, String.toList_append, scan_append, hcomment]
  rfl

theorem scan_source (h : blueprint.StaysInComments) :
    code.scan blueprint.render.source.toList =
      (List.replicate 21 '\n' ++ (code.scan ((blueprint.source.drop 1).added 0).toList).1,
        (code.scan ((blueprint.source.drop 1).added 0).toList).2) := by
  have hnotice : code.scan ((blueprint.license blueprint.symbols.sourceFile).added 0).toList =
      (List.replicate 21 '\n', code) := scan_license h (by decide)
  change code.scan blueprint.source.render.toList = _
  rw [Layout.render_eq_added, added_source, String.toList_append, scan_append, hnotice]

structure SameCode (left right : Blueprint) : Prop where
  symbols : left.symbols = right.symbols
  base : left.base = right.base
  constructor : left.constructor = right.constructor

theorem SameCode.drop_eq {left right : Blueprint} (h : left.SameCode right) :
    left.header.drop 3 = right.header.drop 3 ∧ left.source.drop 1 = right.source.drop 1 := by
  obtain ⟨hsymbols, hbase, hconstructor⟩ := h
  cases left
  cases right
  cases hsymbols
  cases hbase
  cases hconstructor
  exact ⟨rfl, rfl⟩

theorem SameCode.stripComments_eq {left right : Blueprint} (h : left.SameCode right)
    (hleft : left.StaysInComments) (hright : right.StaysInComments) :
    stripComments left.render.header = stripComments right.render.header ∧
      stripComments left.render.source = stripComments right.render.source := by
  obtain ⟨hheader, hsource⟩ := h.drop_eq
  unfold stripComments
  rw [scan_header hleft, scan_header hright, hheader, scan_source hleft, scan_source hright,
    hsource]
  exact ⟨rfl, rfl⟩

end Blueprint

/-! ### What the lint lets through -/

theorem Lint.commentBreak?_eq_none_iff {text : String} :
    commentBreak? text = none ↔
      hasTerminator text.toList = false ∧ text.toList.any isLineBreak = false := by
  unfold commentBreak?
  split
  · next h => simp [h]
  · next h =>
    rw [Bool.not_eq_true] at h
    have hany : (text.toList.any fun c => c == '\n' || c == '\r') = text.toList.any isLineBreak :=
      rfl
    rw [hany, h]
    split
    · next hbreak => simp [hbreak]
    · next hbreak => simpa using hbreak

theorem Lint.commentBreak?_of_checkFreeText {field text : String}
    (h : ∀ diagnostic ∈ checkFreeText field text, diagnostic.lint ≠ commentBreakingText.name) :
    commentBreak? text = none := by
  cases hfound : commentBreak? text with
  | none => rfl
  | some found =>
      rw [checkFreeText, hfound] at h
      exact absurd rfl (h _ List.mem_cons_self)

theorem Request.commentBreak?_of_lint {request : Request}
    (h : ∀ diagnostic ∈ request.lint, diagnostic.lint ≠ Lint.commentBreakingText.name) :
    Lint.commentBreak? request.author = none ∧ Lint.commentBreak? request.description = none := by
  have hcheck : ∀ diagnostic ∈ Lint.commentBreakingText.check request,
      diagnostic.lint ≠ Lint.commentBreakingText.name := by
    intro diagnostic hmem
    apply h
    rw [Request.lint_eq]
    exact List.mem_append_right _ (List.mem_append_right _ hmem)
  rw [Lint.check] at hcheck
  exact ⟨Lint.commentBreak?_of_checkFreeText fun diagnostic hmem =>
      hcheck diagnostic (List.mem_append_left _ hmem),
    Lint.commentBreak?_of_checkFreeText fun diagnostic hmem =>
      hcheck diagnostic (List.mem_append_right _ hmem)⟩

theorem Blueprint.staysInComments_of_commentBreak? {name base : String} {blueprint : Blueprint}
    (hname : checkName name = .ok ()) (hbaseName : checkName base = .ok ())
    (hsymbols : blueprint.symbols = .derive name) (hbase : blueprint.base = .derive base)
    (hauthor : Lint.commentBreak? blueprint.author = none)
    (hdescription : Lint.commentBreak? blueprint.description = none)
    (hdate : blueprint.dateStamp.toList.any isLineBreak = false)
    (hproject : blueprint.project.toList.any isLineBreak = false)
    (hcopyright : blueprint.copyright.toList.any isLineBreak = false) :
    blueprint.StaysInComments := by
  have hnotMem {text : String} {c : Char} (h : text.toList.any isLineBreak = false)
      (hc : isLineBreak c = true) : c ∉ text.toList := fun hmem =>
    List.any_eq_false.mp h c hmem hc
  rw [Lint.commentBreak?_eq_none_iff] at hauthor hdescription
  constructor
  case base => exact hbase ▸ Symbols.admissible_derive hbaseName
  case isFreeOf =>
    intro c hc
    exact ⟨hnotMem hauthor.2 hc, hnotMem hdate hc, hnotMem hproject hc, hnotMem hcopyright hc⟩
  case fileBase =>
    intro c hc
    rw [hsymbols]
    exact notMem_fileBase hname (not_isNameChar_of_isControl (isControl_of_isLineBreak hc))
  case description => exact hdescription.1

theorem Blueprint.staysInComments {request : Request} {config : Config}
    (hname : request.checkName = .ok ())
    (hlint : ∀ diagnostic ∈ request.lint, diagnostic.lint ≠ Lint.commentBreakingText.name)
    (hproject : config.project.toList.any isLineBreak = false)
    (hcopyright : config.copyright.toList.any isLineBreak = false) :
    (ofRequest request config).StaysInComments := by
  have hdate : request.dateStamp.toList.any isLineBreak = false :=
    List.any_eq_false.mpr fun c hmem hc =>
      Date.notMem_stamp (isControl_of_isLineBreak hc) request.date hmem
  have hbase : (ofRequest request config).base = .derive Symbols.baseName := rfl
  obtain ⟨hauthor, hdescription⟩ := Request.commentBreak?_of_lint hlint
  exact staysInComments_of_commentBreak? hname rfl rfl hbase hauthor hdescription hdate hproject
    hcopyright

/-- **Free text stays in comments.** For one admissible name and one mode, whatever texts the lint
and the project's settings let through, the code of both artifacts is the same. -/
theorem stripComments_render_eq {left right : Request} {config other : Config}
    (hname : left.checkName = .ok ()) (hsame : left.shortName = right.shortName)
    (hmode : config.constructor = other.constructor)
    (hleft : ∀ diagnostic ∈ left.lint, diagnostic.lint ≠ Lint.commentBreakingText.name)
    (hright : ∀ diagnostic ∈ right.lint, diagnostic.lint ≠ Lint.commentBreakingText.name)
    (hproject : config.project.toList.any isLineBreak = false)
    (hcopyright : config.copyright.toList.any isLineBreak = false)
    (hotherProject : other.project.toList.any isLineBreak = false)
    (hotherCopyright : other.copyright.toList.any isLineBreak = false) :
    stripComments (Blueprint.ofRequest left config).render.header =
        stripComments (Blueprint.ofRequest right other).render.header ∧
      stripComments (Blueprint.ofRequest left config).render.source =
        stripComments (Blueprint.ofRequest right other).render.source := by
  have hnameRight : right.checkName = .ok () := by
    rw [Request.checkName, ← hsame]
    exact hname
  have hcode : (Blueprint.ofRequest left config).SameCode (Blueprint.ofRequest right other) :=
    ⟨congrArg Symbols.derive hsame, rfl, hmode⟩
  exact hcode.stripComments_eq (Blueprint.staysInComments hname hleft hproject hcopyright)
    (Blueprint.staysInComments hnameRight hright hotherProject hotherCopyright)

/-- Text that looks like comments or like strings stays where it is put, too. -/
theorem stripComments_render_eq_widget :
    let left : Request := ⟨"Widget", "Ada", "A widget.", { year := 2012, month := 1, day := 1 }⟩
    let right : Request := ⟨"Widget", "/* \"Bob", "// *", { year := 12000, month := 2, day := 29 }⟩
    let other : Config := { Config.default with project := "*/ int x;", copyright := "\\" }
    stripComments (Blueprint.ofRequest left Config.default).render.header =
        stripComments (Blueprint.ofRequest right other).render.header ∧
      stripComments (Blueprint.ofRequest left Config.default).render.source =
        stripComments (Blueprint.ofRequest right other).render.source :=
  stripComments_render_eq rfl rfl rfl (by decide) (by decide) (by decide) (by decide) (by decide)
    (by decide)

end Scaffold
