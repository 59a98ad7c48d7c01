/-!
Layouts: programs that write indented text. A `Writer` carries the indentation level and the text
so far. Main statement: what a layout adds to the text is the concatenation of its emissions, which
depend on the level at its start and not on the text before it.
-/

namespace Scaffold

inductive Layout where
  | skip
  | seq (first second : Layout)
  | line (text : String)
  | blank
  | raw (text : String)
  | indent
  | dedent
deriving DecidableEq, Inhabited, Repr

def tabs (level : Nat) : String :=
  String.ofList (List.replicate level '\t')

@[simp]
theorem toList_tabs (level : Nat) : (tabs level).toList = List.replicate level '\t' := by
  simp [tabs]

theorem notMem_tabs {c : Char} (h : c ≠ '\t') (level : Nat) : c ∉ (tabs level).toList := by
  rw [toList_tabs]
  exact fun hmem => h (List.eq_of_mem_replicate hmem)

theorem tabs_zero_append (text : String) : tabs 0 ++ text = text := String.empty_append

theorem tabs_add (first second : Nat) : tabs (first + second) = tabs first ++ tabs second := by
  apply String.toList_inj.mp
  simp

structure Writer where
  level : Nat
  text : String
deriving DecidableEq, Repr

namespace Writer

def empty : Writer := ⟨0, ""⟩

def append (writer : Writer) (added : String) : Writer :=
  { writer with text := writer.text ++ added }

end Writer

namespace Layout

instance : Append Layout := ⟨seq⟩

def all : List Layout → Layout
  | [] => skip
  | first :: rest => seq first (all rest)

def when (condition : Bool) (body : Layout) : Layout :=
  if condition then body else skip

def each {α : Type} (items : List α) (body : α → Layout) : Layout :=
  all (items.map body)

def block (header close : String) (body : Layout) : Layout :=
  all [line header, indent, body, dedent, line close]

/-- A documentation comment: an opening line, one line for each text, and a closing line of the
caller's choice. -/
def doxygen (lines : List String) (close : String) : Layout :=
  all [line "/**", each lines fun text => line (" " ++ text), line close]

def heading (title : String) : Layout :=
  all [line ("//  " ++ title), blank]

def write : Layout → Writer → Writer
  | skip, writer => writer
  | seq first second, writer => second.write (first.write writer)
  | line text, writer => writer.append (tabs writer.level ++ text ++ "\n")
  | blank, writer => writer.append "\n"
  | raw text, writer => writer.append text
  | indent, writer => { writer with level := writer.level + 1 }
  | dedent, writer => { writer with level := writer.level - 1 }

def render (layout : Layout) : String :=
  (layout.write .empty).text

end Layout

inductive Emission where
  | line (level : Nat) (text : String)
  | blank
  | raw (text : String)
deriving DecidableEq, Repr

namespace Emission

def text : Emission → String
  | line level text => tabs level ++ text ++ "\n"
  | blank => "\n"
  | raw text => text

def concat : List Emission → String
  | [] => ""
  | emission :: rest => emission.text ++ concat rest

@[simp]
theorem concat_append (first second : List Emission) :
    concat (first ++ second) = concat first ++ concat second := by
  induction first with
  | nil => simp [concat]
  | cons emission rest ih => simp [concat, ih, String.append_assoc]

end Emission

namespace Layout

def levelAfter : Layout → Nat → Nat
  | seq first second, level => second.levelAfter (first.levelAfter level)
  | indent, level => level + 1
  | dedent, level => level - 1
  | _, level => level

def emissions : Layout → Nat → List Emission
  | seq first second, level => first.emissions level ++ second.emissions (first.levelAfter level)
  | line text, level => [.line level text]
  | blank, _ => [.blank]
  | raw text, _ => [.raw text]
  | _, _ => []

def added (layout : Layout) (level : Nat) : String :=
  Emission.concat (layout.emissions level)

theorem write_eq (layout : Layout) (writer : Writer) :
    layout.write writer =
      ⟨layout.levelAfter writer.level, writer.text ++ layout.added writer.level⟩ := by
  induction layout generalizing writer with
  | seq first second ihFirst ihSecond =>
    simp [write, ihFirst, ihSecond, levelAfter, added, emissions, String.append_assoc]
  | _ => simp [write, Writer.append, levelAfter, added, emissions, Emission.concat, Emission.text]

theorem render_eq_added (layout : Layout) : layout.render = layout.added 0 := by
  simp [render, write_eq, Writer.empty]

@[simp]
theorem added_seq (first second : Layout) (level : Nat) :
    (seq first second).added level =
      first.added level ++ second.added (first.levelAfter level) := by
  simp [added, emissions]

theorem added_line (text : String) (level : Nat) :
    (line text).added level = tabs level ++ text ++ "\n" := by
  simp [added, emissions, Emission.concat, Emission.text]

/-! ### What holds of every emission -/

def Every (P : Emission → Prop) (layout : Layout) (level : Nat) : Prop :=
  ∀ emission ∈ layout.emissions level, P emission

section Every

variable {P : Emission → Prop} {first second : Layout} {level : Nat}

theorem Every.seq (hfirst : first.Every P level)
    (hsecond : second.Every P (first.levelAfter level)) :
    (Layout.seq first second).Every P level :=
  List.forall_mem_append.mpr ⟨hfirst, hsecond⟩

theorem every_line {text : String} (h : P (.line level text)) : (line text).Every P level :=
  List.forall_mem_singleton.mpr h

theorem every_skip : skip.Every P level := List.forall_mem_nil _

theorem every_indent : indent.Every P level := List.forall_mem_nil _

theorem every_dedent : dedent.Every P level := List.forall_mem_nil _

end Every

end Layout

end Scaffold
