import Scaffold.Proofs.Lines
import Scaffold.Proofs.Modes

/-!
# Comments that stand on their own

A scanner with three states goes through what a layout appends. It looks at two characters at once
where they may open or close a comment, so a text can be cut in two for it only where no such pair
is taken apart: at the start of a line, for instance. From there a documentation comment is one
block comment, and the licence notice is one line comment on each of its lines, at every level.
-/

namespace Scaffold

inductive Zone where
  | code
  | lineComment
  | blockComment
deriving DecidableEq, Repr

namespace Zone

inductive Event where
  | outside (c : Char)
  | opensLine
  | opensBlock
  | inside (c : Char)
  | closesBlock
deriving DecidableEq, Repr

/-- The events of a text, and the state at its end. A line comment ends before its line feed. -/
def scan : Zone → List Char → List Event × Zone
  | code, '/' :: '/' :: rest => (scan lineComment rest).map (.opensLine :: ·) id
  | code, '/' :: '*' :: rest => (scan blockComment rest).map (.opensBlock :: ·) id
  | code, c :: rest => (scan code rest).map (.outside c :: ·) id
  | lineComment, '\n' :: rest => (scan code rest).map (.outside '\n' :: ·) id
  | lineComment, c :: rest => (scan lineComment rest).map (.inside c :: ·) id
  | blockComment, '*' :: '/' :: rest => (scan code rest).map (.closesBlock :: ·) id
  | blockComment, c :: rest => (scan blockComment rest).map (.inside c :: ·) id
  | zone, [] => ([], zone)

def Reads (start : Zone) (text : List Char) (events : List Event) (stop : Zone) : Prop :=
  ∀ rest, start.scan (text ++ rest) = (stop.scan rest).map (events ++ ·) id

variable {start middle stop zone : Zone} {first second text : List Char}
  {before after : List Event}

theorem Reads.scan (h : start.Reads text before stop) : start.scan text = (before, stop) := by
  have hscan := h []
  rw [List.append_nil] at hscan
  cases stop <;> simpa [Zone.scan] using hscan

theorem reads_nil : zone.Reads [] [] zone := fun _ => rfl

theorem Reads.append (hfirst : start.Reads first before middle)
    (hsecond : middle.Reads second after stop) :
    start.Reads (first ++ second) (before ++ after) stop := by
  intro rest
  rw [List.append_assoc, hfirst, hsecond]
  simp [Prod.map]

/-! ### Single characters and marks -/

theorem reads_outside {c : Char} (h : c ≠ '/') : code.Reads [c] [.outside c] code := by
  intro rest
  exact scan.eq_3 c rest (fun _ hc _ => h hc) (fun _ hc _ => h hc)

theorem reads_inside {c : Char} (h : c ≠ '\n') : lineComment.Reads [c] [.inside c] lineComment :=
  fun rest => scan.eq_5 c rest h

theorem reads_opensLine : code.Reads ['/', '/'] [.opensLine] lineComment := fun _ => rfl

theorem reads_endsLine : lineComment.Reads ['\n'] [.outside '\n'] code := fun _ => rfl

theorem reads_opensBlock : code.Reads ['/', '*'] [.opensBlock] blockComment := fun _ => rfl

theorem reads_closesBlock : blockComment.Reads ['*', '/'] [.closesBlock] code := fun _ => rfl

/-! ### Texts before the start of a line -/

/-- What comes after such a text starts a line. -/
def IsLineStart (text : List Char) : Prop :=
  ∀ c, text.getLast? = some c → c = '\n'

theorem IsLineStart.tail {c : Char} (h : IsLineStart (c :: text)) : IsLineStart text := by
  intro last hlast
  apply h
  rw [List.getLast?_cons, hlast]
  rfl

/-- The last character before the start of a line makes no pair with the one after it. -/
theorem IsLineStart.not_pair {c d e : Char} {rest following : List Char}
    (h : IsLineStart (c :: text)) (hbreak : d ≠ '\n')
    (hpair : ∀ following, c = d → text = e :: following → False) (hc : c = d)
    (hnext : text ++ rest = e :: following) : False := by
  cases text with
  | nil => exact hbreak (hc.symm.trans (h c rfl))
  | cons f text => exact hpair text hc (by rw [(List.cons.inj hnext).1])

/-- At the start of a line a text can be cut in two. -/
theorem reads_scan (h : IsLineStart text) :
    start.Reads text (start.scan text).1 (start.scan text).2 := by
  fun_induction Zone.scan start text with
  | case1 rest ih => exact reads_opensLine.append (ih h.tail.tail)
  | case2 rest ih => exact reads_opensBlock.append (ih h.tail.tail)
  | case3 c rest hline hblock ih =>
      intro more
      rw [List.cons_append, scan.eq_3 c _ (fun _ => h.not_pair (by decide) hline)
        (fun _ => h.not_pair (by decide) hblock), ih h.tail]
      rfl
  | case4 rest ih => exact reads_endsLine.append (ih h.tail)
  | case5 c rest hc ih => exact (reads_inside hc).append (ih h.tail)
  | case6 rest ih => exact reads_closesBlock.append (ih h.tail.tail)
  | case7 c rest hcloses ih =>
      intro more
      rw [List.cons_append, scan.eq_7 c _ (fun _ => h.not_pair (by decide) hcloses), ih h.tail]
      rfl
  | case8 => exact reads_nil

/-! ### Whole comments -/

theorem reads_tabs (level : Nat) :
    code.Reads (List.replicate level '\t') (List.replicate level (.outside '\t')) code := by
  induction level with
  | zero => exact reads_nil
  | succ level ih => exact (reads_outside (by decide)).append ih

theorem reads_lineComment (h : '\n' ∉ text) :
    lineComment.Reads text (text.map .inside) lineComment := by
  induction text with
  | nil => exact reads_nil
  | cons c text ih =>
      obtain ⟨hc, htext⟩ := List.ne_and_not_mem_of_not_mem_cons h
      exact (reads_inside hc.symm).append (ih htext)

/-- The end of a comment is taken together with its text, of which the last character may be a
star. -/
theorem reads_blockComment (h : Lint.hasTerminator text = false) :
    blockComment.Reads (text ++ ['*', '/']) (text.map .inside ++ [.closesBlock]) code := by
  induction text with
  | nil => exact reads_closesBlock
  | cons c text ih =>
      rw [Lint.hasTerminator, Bool.or_eq_false_iff] at h
      intro rest
      have hgoes : ∀ following, c = '*' → (text ++ ['*', '/']) ++ rest = '/' :: following →
          False := by
        intro following hc hnext
        cases text with
        | nil => exact absurd (List.cons.inj hnext).1 (by decide)
        | cons d text => simp_all
      have hfirst := scan.eq_7 c ((text ++ ['*', '/']) ++ rest) hgoes
      rw [ih h.2 rest] at hfirst
      exact hfirst

def lineEvents (level : Nat) (comment : String) : List Event :=
  List.replicate level (.outside '\t') ++
    ([.opensLine] ++ comment.toList.map .inside ++ [.outside '\n'])

def blockEvents (level : Nat) (comment : String) : List Event :=
  List.replicate level (.outside '\t') ++
    ([.opensBlock] ++ comment.toList.map .inside ++ [.closesBlock, .outside '\n'])

theorem reads_line {comment : String} (h : '\n' ∉ comment.toList) (level : Nat) :
    code.Reads (tabs level ++ "//" ++ comment ++ "\n").toList (lineEvents level comment) code := by
  have htext : (tabs level ++ "//" ++ comment ++ "\n").toList =
      List.replicate level '\t' ++ (['/', '/'] ++ comment.toList ++ ['\n']) := by simp
  rw [htext]
  exact (reads_tabs level).append
    ((reads_opensLine.append (reads_lineComment h)).append reads_endsLine)

theorem reads_block {comment : String} (h : Lint.hasTerminator comment.toList = false)
    (level : Nat) :
    code.Reads (tabs level ++ "/*" ++ comment ++ "*/" ++ "\n").toList (blockEvents level comment)
      code := by
  have htext : (tabs level ++ "/*" ++ comment ++ "*/" ++ "\n").toList =
      List.replicate level '\t' ++
        (['/', '*'] ++ (comment.toList ++ ['*', '/']) ++ ['\n']) := by simp
  have hevents : blockEvents level comment = List.replicate level (.outside '\t') ++
      ([.opensBlock] ++ (comment.toList.map .inside ++ [.closesBlock]) ++ [.outside '\n']) := by
    simp [blockEvents]
  rw [htext, hevents]
  exact (reads_tabs level).append
    ((reads_opensBlock.append (reads_blockComment h)).append (reads_outside (by decide)))

end Zone

/-! ### Documentation comments -/

theorem Lint.hasTerminator_eq_false_iff {text : List Char} :
    hasTerminator text = false ↔ ¬ ['*', '/'] <:+: text := by
  induction text with
  | nil => simp [hasTerminator]
  | cons c text ih =>
      have hhead : (text.head? == some '/') = true ↔ ['/'] <+: text := by
        cases text with
        | nil => decide
        | cons d text =>
            rw [List.head?_cons, beq_iff_eq, Option.some_inj, List.cons_prefix_cons, eq_comm]
            simp
      rw [← Bool.not_eq_true, not_iff_not] at ih ⊢
      rw [hasTerminator, Bool.or_eq_true, Bool.and_eq_true, beq_iff_eq, hhead, ih,
        List.infix_cons_iff, List.cons_prefix_cons, eq_comm]

namespace Layout

variable {lines : List String} {close : String}

/-- Between two lines stands more than a star and a slash: the end of the first line, the
indentation and a space. -/
theorem hasTerminator_added_each (h : ∀ text ∈ lines, ¬ ['*', '/'] <:+: text.toList) (level : Nat)
    {rest : List Char} (hrest : Lint.hasTerminator rest = false) :
    Lint.hasTerminator
      (((each lines fun text => line (" " ++ text)).added level).toList ++ rest) = false := by
  induction lines with
  | nil => exact hrest
  | cons text lines ih =>
      have htext := Lint.hasTerminator_eq_false_iff.mpr (h text List.mem_cons_self)
      have hlines := ih fun other hother => h other (List.mem_cons_of_mem _ hother)
      have htabs := Lint.hasTerminator_of_notMem (notMem_tabs (c := '*') (by decide) level)
      have hlevel : (line (" " ++ text)).levelAfter level = level := rfl
      have hadded : ((each (text :: lines) fun text => line (" " ++ text)).added level).toList ++
          rest = (tabs level).toList ++ ' ' :: (text.toList ++ '\n' ::
            (((each lines fun text => line (" " ++ text)).added level).toList ++ rest)) := by
        rw [added_each_cons, added_line, hlevel]
        simp
      rw [hadded, Lint.hasTerminator_append_cons (by decide) (by decide),
        Lint.hasTerminator_append_cons (by decide) (by decide), htabs, htext, hlines]
      rfl

theorem reads_doxygen (hlines : ∀ text ∈ lines, ¬ ['*', '/'] <:+: text.toList)
    (hclose : close = "*/" ∨ close = " */") (level : Nat) :
    ∃ comment, (doxygen lines close).added level = tabs level ++ "/*" ++ comment ++ "*/" ++ "\n" ∧
      Zone.code.Reads ((doxygen lines close).added level).toList (Zone.blockEvents level comment)
        .code := by
  obtain ⟨lead, hlead, hstar⟩ : ∃ lead, close = lead ++ "*/" ∧ '*' ∉ lead.toList := by
    obtain rfl | rfl := hclose
    · exact ⟨"", rfl, by decide⟩
    · exact ⟨" ", rfl, by decide⟩
  have hend : Lint.hasTerminator (tabs level ++ lead).toList = false :=
    Lint.hasTerminator_of_notMem (notMem_append (notMem_tabs (by decide) level) hstar)
  obtain ⟨texts, htexts⟩ :
    ∃ texts, texts = (each lines fun text => line (" " ++ text)).added level := ⟨_, rfl⟩
  -- The second star of the opening belongs to the comment.
  have hinner : Lint.hasTerminator ("*\n" ++ texts ++ (tabs level ++ lead)).toList = false := by
    have hsplit : ("*\n" ++ texts ++ (tabs level ++ lead)).toList =
        ['*'] ++ '\n' :: (texts.toList ++ (tabs level ++ lead).toList) := by simp
    rw [hsplit, Lint.hasTerminator_append_cons (by decide) (by decide), htexts,
      hasTerminator_added_each hlines level hend]
    rfl
  have hadded : (doxygen lines close).added level =
      tabs level ++ "/*" ++ ("*\n" ++ texts ++ (tabs level ++ lead)) ++ "*/" ++ "\n" := by
    apply String.toList_inj.mp
    rw [added_doxygen, htexts, hlead]
    simp
  refine ⟨_, hadded, ?_⟩
  rw [hadded]
  exact Zone.reads_block hinner level

end Layout

/-! ### Notices -/

namespace Emission

variable {emissions : List Emission} {level : Nat}

theorem exists_comments (h : ∀ emission ∈ emissions,
      ∃ text, emission = .line level text ∧ IsLineComment '\n' text) :
    ∃ comments : List String,
      emissions.map body = comments.map (tabs level ++ "//" ++ ·) ∧
        Zone.code.Reads (concat emissions).toList (comments.flatMap (Zone.lineEvents level))
          .code := by
  induction emissions with
  | nil => exact ⟨[], rfl, Zone.reads_nil⟩
  | cons emission emissions ih =>
      obtain ⟨comments, hbodies, hreads⟩ :=
        ih fun other hother => h other (List.mem_cons_of_mem _ hother)
      obtain ⟨text, rfl, rest, hrest, hbreak⟩ := h emission List.mem_cons_self
      obtain ⟨comment, rfl⟩ : ∃ comment : String, comment.toList = rest :=
        ⟨String.ofList rest, String.toList_ofList⟩
      have htext : text = "//" ++ comment := by
        apply String.toList_inj.mp
        rw [hrest, String.toList_append]
        rfl
      have hbody : (line level text).body = tabs level ++ "//" ++ comment := by
        rw [body, htext, String.append_assoc]
      have hline : (line level text).text = tabs level ++ "//" ++ comment ++ "\n" := by
        rw [Emission.text, htext, ← String.append_assoc]
      have hcomment : '\n' ∉ comment.toList := by
        rw [hrest] at hbreak
        exact fun hmem => hbreak (List.mem_cons_of_mem _ (List.mem_cons_of_mem _ hmem))
      refine ⟨comment :: comments, ?_, ?_⟩
      · rw [List.map_cons, hbody, hbodies, List.map_cons]
      · rw [concat, hline, String.toList_append, List.flatMap_cons]
        exact (Zone.reads_line hcomment level).append hreads

end Emission

/-! ### What a writer appends -/

namespace Layout

variable {writer : Writer} {layout : Layout} {events : List Zone.Event}

structure Appends (layout : Layout) (writer : Writer) (added : String)
    (events : List Zone.Event) : Prop where
  text : (layout.write writer).text = writer.text ++ added
  scan : Zone.code.scan (layout.write writer).text.toList =
    ((Zone.code.scan writer.text.toList).1 ++ events, .code)

theorem appends_of_reads (hcode : (Zone.code.scan writer.text.toList).2 = .code)
    (hstart : Zone.IsLineStart writer.text.toList)
    (h : Zone.code.Reads (layout.added writer.level).toList events .code) :
    layout.Appends writer (layout.added writer.level) events where
  text := by rw [write_eq]
  scan := by
    have hbefore : Zone.code.Reads writer.text.toList (Zone.code.scan writer.text.toList).1
        (Zone.code.scan writer.text.toList).2 := Zone.reads_scan hstart
    rw [hcode] at hbefore
    rw [write_eq, String.toList_append]
    exact (hbefore.append h).scan

/-- **Comments stand on their own.** At every level, and after every text that ends in the code at
the start of a line, a documentation comment of lines that do not close it is one block comment, and
the licence notice is 21 lines with one line comment each, if what is put into it stays on its line.
Outside of them stand the indentation and the ends of lines only. -/
theorem comments_standAlone (writer : Writer)
    (hcode : (Zone.code.scan writer.text.toList).2 = .code)
    (hstart : Zone.IsLineStart writer.text.toList) :
    (∀ (lines : List String) (close : String),
      (∀ text ∈ lines, ¬ ['*', '/'] <:+: text.toList) → (close = "*/" ∨ close = " */") →
        ∃ comment : String, (doxygen lines close).Appends writer
          (tabs writer.level ++ "/*" ++ comment ++ "*/" ++ "\n")
          (Zone.blockEvents writer.level comment)) ∧
      ∀ (blueprint : Blueprint) (fileName : String),
        blueprint.IsFreeOf '\n' → '\n' ∉ fileName.toList →
          ∃ (added : String) (comments : List String), comments.length = 21 ∧
            splitLines added = comments.map (tabs writer.level ++ "//" ++ ·) ++ [""] ∧
            (blueprint.license fileName).Appends writer added
              (comments.flatMap (Zone.lineEvents writer.level)) := by
  constructor
  · intro lines close hlines hclose
    obtain ⟨comment, hadded, hreads⟩ := reads_doxygen hlines hclose writer.level
    exact ⟨comment, hadded ▸ appends_of_reads hcode hstart hreads⟩
  · intro blueprint fileName hfree hfile
    have hlicense : ∀ emission ∈ (blueprint.license fileName).emissions writer.level,
        ∃ text, emission = .line writer.level text ∧ IsLineComment '\n' text :=
      Blueprint.isLineComment_license (by decide) hfree hfile
    obtain ⟨comments, hbodies, hreads⟩ := Emission.exists_comments hlicense
    have hwhole : ∀ emission ∈ (blueprint.license fileName).emissions writer.level,
        emission.IsWhole := by
      intro emission hmem
      obtain ⟨text, rfl, _, _, hbreak⟩ := hlicense emission hmem
      exact Emission.isWhole_line hbreak writer.level
    refine ⟨_, comments, ?_, ?_, appends_of_reads hcode hstart hreads⟩
    · have hlength := congrArg List.length hbodies
      rw [List.length_map, List.length_map, Blueprint.length_emissions_license] at hlength
      exact hlength.symm
    · rw [← hbodies]
      exact Emission.splitLines_concat hwhole

/-- Lines that all but close the comment, and free text that would close a block comment. -/
theorem comments_standAlone_nested :
    let lines := ["/ a slash first, a star last *", "// and /* are text", "two\nlines", "*", "/"]
    let blueprint : Blueprint :=
      { symbols := Symbols.derive "Widget", base := Symbols.base, author := "*/ int x; /*",
        description := "", dateStamp := "15/01/2024\r", project := "a // b", copyright := "\\",
        constructor := .checked }
    let writer : Writer := ⟨2, "int x; /* a */ // b\n"⟩
    (Zone.code.scan writer.text.toList).2 = .code ∧ Zone.IsLineStart writer.text.toList ∧
      (∀ text ∈ lines, ¬ ['*', '/'] <:+: text.toList) ∧
      (∃ comment : String, (doxygen lines " */").Appends writer
        (tabs writer.level ++ "/*" ++ comment ++ "*/" ++ "\n")
        (Zone.blockEvents writer.level comment)) ∧
      blueprint.IsFreeOf '\n' ∧
      ∃ (added : String) (comments : List String), comments.length = 21 ∧
        splitLines added = comments.map (tabs writer.level ++ "//" ++ ·) ++ [""] ∧
        (blueprint.license "CBWidget.c").Appends writer added
          (comments.flatMap (Zone.lineEvents writer.level)) := by
  intro lines blueprint writer
  have hcode : (Zone.code.scan writer.text.toList).2 = .code := by decide
  have hstart : Zone.IsLineStart writer.text.toList := by
    have hlast : writer.text.toList.getLast? = some '\n' := by decide
    intro c hc
    exact Option.some.inj (hc.symm.trans hlast)
  have hterminators : ∀ text ∈ lines, Lint.hasTerminator text.toList = false := by decide
  have hlines : ∀ text ∈ lines, ¬ ['*', '/'] <:+: text.toList := fun text hmem =>
    Lint.hasTerminator_eq_false_iff.mp (hterminators text hmem)
  have hfree : blueprint.IsFreeOf '\n' := ⟨by decide, by decide, by decide, by decide⟩
  obtain ⟨hdoxygen, hlicense⟩ := comments_standAlone writer hcode hstart
  exact ⟨hcode, hstart, hlines, hdoxygen lines " */" hlines (Or.inr rfl), hfree,
    hlicense blueprint "CBWidget.c" hfree (by decide)⟩

end Layout

end Scaffold
