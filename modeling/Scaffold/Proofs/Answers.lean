import Scaffold.Proofs.CommandLine

/-!
# Answers by the line

A program on a pipe takes its answers from the lines of the input, one after another. What a run
hears is settled by the numbers of these lines: the script can be run by line numbers alone, and
what it has not heard it does not depend on.
-/

namespace Scaffold

namespace Console

variable {input : List UInt8} {piece rest : List UInt8} {number : Nat}

/-- A line of the input, without its end; the first one has the number zero. Past the end of the
input all lines are empty. -/
def line (input : List UInt8) (number : Nat) : List UInt8 :=
  (input.splitOn lineFeed).getD number []

def following (input : List UInt8) (count : Nat) : List UInt8 :=
  [lineFeed].intercalate ((input.splitOn lineFeed).drop count)

def said (line : List UInt8) : Except Fault String :=
  match String.fromUTF8? ⟨line.toArray⟩ with
  | some text => .ok (String.ofList (dropEnd '\r' text.toList))
  | none => .error .notUnicode

/-! ### Lines -/

theorem splitLine_of_notMem (h : lineFeed ∉ piece) : splitLine piece = (piece, []) := by
  induction piece with
  | nil => rfl
  | cons byte rest ih =>
      have hne : byte ≠ lineFeed := fun heq => h (heq ▸ List.mem_cons_self)
      rw [splitLine, if_neg hne, ih fun hmem => h (List.mem_cons_of_mem _ hmem)]

theorem splitLine_append_cons (h : lineFeed ∉ piece) :
    splitLine (piece ++ lineFeed :: rest) = (piece ++ [lineFeed], rest) := by
  induction piece with
  | nil => rfl
  | cons byte more ih =>
      have hne : byte ≠ lineFeed := fun heq => h (heq ▸ List.mem_cons_self)
      rw [List.cons_append, splitLine, if_neg hne, ih fun hmem => h (List.mem_cons_of_mem _ hmem)]
      rfl

/-! ### What a line says -/

/-- A line feed is text by itself, so it makes no other bytes text and spoils none. -/
theorem isValidUTF8_append_newline {bytes : ByteArray} :
    (bytes ++ "\n".toByteArray).IsValidUTF8 ↔ bytes.IsValidUTF8 := by
  constructor
  · intro h
    have hsize : (String.ofByteArray _ h).toByteArray.size = bytes.size + 1 :=
      ByteArray.size_append
    have hinside : String.Pos.Raw.mk bytes.size < (String.ofByteArray _ h).rawEndPos := by
      rw [String.Pos.Raw.lt_iff]
      change _ < (String.ofByteArray _ h).toByteArray.size
      rw [hsize]
      exact Nat.lt_succ_self _
    have hbyte : (String.ofByteArray _ h).getUTF8Byte ⟨bytes.size⟩ hinside = lineFeed :=
      (ByteArray.getElem_append_right (Nat.le_refl _)).trans (by simp; rfl)
    have hend : String.Pos.Raw.IsValid (String.ofByteArray _ h) ⟨bytes.size⟩ := by
      rw [String.Pos.Raw.isValid_iff_isUTF8FirstByte]
      exact Or.inr ⟨hinside, by rw [hbyte]; decide⟩
    have hvalid := hend.isValidUTF8_extract_zero
    rwa [ByteArray.extract_append_eq_left rfl] at hvalid
  · exact fun h => h.append "\n".isValidUTF8

theorem fromUTF8?_append_newline (bytes : ByteArray) :
    String.fromUTF8? (bytes ++ "\n".toByteArray) = (String.fromUTF8? bytes).map (· ++ "\n") := by
  by_cases hvalid : bytes.IsValidUTF8
  · have hmore := isValidUTF8_append_newline.mpr hvalid
    rw [String.fromUTF8?, dif_pos hmore, String.fromUTF8?, dif_pos hvalid]
    rfl
  · have hmore : ¬ (bytes ++ "\n".toByteArray).IsValidUTF8 := fun h =>
      hvalid (isValidUTF8_append_newline.mp h)
    rw [String.fromUTF8?, dif_neg hmore, String.fromUTF8?, dif_neg hvalid]
    rfl

theorem toByteArray_of_fromUTF8? {bytes : ByteArray} {text : String}
    (h : String.fromUTF8? bytes = some text) : text.toByteArray = bytes := by
  unfold String.fromUTF8? at h
  split at h
  · cases h
    rfl
  · cases h

theorem data_newline : "\n".toByteArray.data = #[lineFeed] := rfl

theorem reply_concat (piece : List UInt8) : reply (piece ++ [lineFeed]) = said piece := by
  have hbytes : ByteArray.mk (piece ++ [lineFeed]).toArray =
      ⟨piece.toArray⟩ ++ "\n".toByteArray := by
    apply ByteArray.ext
    rw [ByteArray.data_append, data_newline]
    simp
  rw [reply, said, hbytes, fromUTF8?_append_newline]
  cases String.fromUTF8? ⟨piece.toArray⟩ with
  | none => rfl
  | some text => simp [withoutEnd, dropEnd]

theorem reply_eq_said (h : lineFeed ∉ piece) : reply piece = said piece := by
  rw [reply, said]
  cases htext : String.fromUTF8? ⟨piece.toArray⟩ with
  | none => rfl
  | some text =>
      have hlast : text.toList.getLast? ≠ some '\n' := by
        intro hlast
        obtain ⟨init, hinit⟩ := List.getLast?_eq_some_iff.mp hlast
        have hsplit : text = String.ofList init ++ "\n" := by
          apply String.toList_inj.mp
          rw [hinit]
          simp
        have hbytes := toByteArray_of_fromUTF8? htext
        rw [hsplit, String.toByteArray_append] at hbytes
        have hmem : lineFeed ∈ (ByteArray.mk piece.toArray).data := by
          rw [← hbytes, ByteArray.data_append]
          exact Array.mem_append_right _ (by simp [data_newline])
        exact h (by simpa using hmem)
      have hsame : dropEnd '\n' text.toList = text.toList := if_neg hlast
      change Except.ok (withoutEnd text) = _
      rw [withoutEnd, hsame]

theorem following_zero (input : List UInt8) : following input 0 = input := by
  rw [following, List.drop_zero, List.intercalate_splitOn]

theorem splitLine_following (input : List UInt8) (number : Nat) :
    reply (splitLine (following input number)).1 = said (line input number) ∧
      (splitLine (following input number)).2 = following input (number + 1) := by
  have hpieces : ∀ piece ∈ (input.splitOn lineFeed).drop number, lineFeed ∉ piece :=
    fun piece hpiece => Path.notMem_of_mem_splitOn (List.mem_of_mem_drop hpiece)
  have hline : line input number = ((input.splitOn lineFeed).drop number).headD [] := by
    rw [line, List.headD_eq_head?_getD, List.head?_drop, List.getD_eq_getElem?_getD]
  rw [hline, following, following, ← List.drop_drop]
  generalize (input.splitOn lineFeed).drop number = pieces at hpieces ⊢
  cases pieces with
  | nil => exact ⟨rfl, rfl⟩
  | cons piece rest =>
      have hpiece := hpieces piece List.mem_cons_self
      by_cases hrest : rest = []
      · rw [hrest, List.intercalate_singleton, splitLine_of_notMem hpiece]
        exact ⟨reply_eq_said hpiece, rfl⟩
      · rw [List.intercalate_cons_of_ne_nil hrest, List.append_assoc, List.singleton_append,
          splitLine_append_cons hpiece]
        exact ⟨reply_concat piece, rfl⟩

/-! ### Runs by line numbers -/

abbrev Heard := List (Prompt × Except Fault String)

/-- The answer to a prompt, and all that has been heard then. The number of the line is the number
of answers before. -/
def byLine (input : List UInt8) (prompt : Prompt) (heard : Heard) :
    Except Fault String × Heard :=
  let answer := said (line input heard.length)
  (answer, heard ++ [(prompt, answer)])

def after (console : Console) (heard : Heard) : Console :=
  ⟨following console.input heard.length,
    console.output ++ String.join (heard.map (·.1.question))⟩

theorem after_nil (console : Console) : console.after [] = console := by
  rw [after, List.length_nil, following_zero, List.map_nil, String.join_nil, String.append_empty]

theorem answer_after (console : Console) (prompt : Prompt) (heard : Heard) :
    answer prompt (console.after heard) =
      ((byLine console.input prompt heard).1,
        console.after (byLine console.input prompt heard).2) := by
  obtain ⟨hreply, hrest⟩ := splitLine_following console.input heard.length
  have hquestions (answer : Except Fault String) :
      String.join ((heard ++ [(prompt, answer)]).map (·.1.question)) =
        String.join (heard.map (·.1.question)) ++ prompt.question := by
    rw [List.map_append, String.join_append, List.map_singleton, String.join_cons, String.join_nil,
      String.append_empty]
  simp only [answer, after, byLine, hreply, hrest, hquestions, List.length_append,
    List.length_singleton, String.append_assoc]

end Console

def Event.heard? : Event Prompt (Except Fault String) → Option (Prompt × Except Fault String)
  | .asked prompt answer => some (prompt, answer)
  | .called _ _ => none

namespace Script

open Console (byLine Heard)

variable {α : Type} {input : List UInt8}

/-- A run on a console is a run by line numbers, and the console is where that one ends. -/
theorem run_after (script : Dialogue α) (disk : Disk) (console : Console) (heard : Heard) :
    script.run Console.answer disk (console.after heard) =
      ⟨(script.run (byLine console.input) disk heard).value,
        (script.run (byLine console.input) disk heard).disk,
        console.after (script.run (byLine console.input) disk heard).state⟩ := by
  induction script generalizing disk heard with
  | done value => rfl
  | call c next ih => exact ih _ _ _
  | ask prompt next ih =>
      rw [run, Console.answer_after]
      exact ih _ _ _

theorem heard_append_events (script : Dialogue α) (disk : Disk) (console : Console)
    (heard : Heard) :
    heard ++ (script.events Console.answer disk (console.after heard)).filterMap Event.heard? =
      (script.run (byLine console.input) disk heard).state := by
  induction script generalizing disk heard with
  | done value => exact List.append_nil heard
  | call c next ih => exact ih _ _ _
  | ask prompt next ih =>
      rw [events, Console.answer_after, run, List.filterMap_cons]
      change heard ++ (prompt, _) :: _ = _
      rw [List.append_cons]
      exact ih _ _ _

theorem length_le_state (script : Dialogue α) (input : List UInt8) (disk : Disk) (heard : Heard) :
    heard.length ≤ (script.run (byLine input) disk heard).state.length := by
  induction script generalizing disk heard with
  | done value => exact Nat.le_refl _
  | call c next ih => exact ih _ _ _
  | ask prompt next ih =>
      have hmore := ih (byLine input prompt heard).1 disk (byLine input prompt heard).2
      rw [byLine, List.length_append] at hmore
      rw [run]
      exact Nat.le_trans (Nat.le_add_right _ _) hmore

/-- A run depends on no other lines than those that it has taken answers from. -/
theorem run_byLine_congr {other : List UInt8} (script : Dialogue α) (disk : Disk) (heard : Heard)
    (hsame : ∀ number < (script.run (byLine input) disk heard).state.length,
      Console.line other number = Console.line input number) :
    script.run (byLine other) disk heard = script.run (byLine input) disk heard := by
  induction script generalizing disk heard with
  | done value => rfl
  | call c next ih => exact ih _ _ _ hsame
  | ask prompt next ih =>
      have htaken : heard.length <
          ((Script.ask prompt next).run (byLine input) disk heard).state.length := by
        have hmore := (next (byLine input prompt heard).1).length_le_state input disk
          (byLine input prompt heard).2
        rw [byLine, List.length_append, List.length_singleton] at hmore
        exact hmore
      have hanswer : byLine other prompt heard = byLine input prompt heard := by
        rw [byLine, byLine, hsame _ htaken]
      rw [run, run, hanswer]
      exact ih _ _ _ hsame

end Script

end Scaffold
