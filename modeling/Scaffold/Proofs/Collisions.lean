import Scaffold.Proofs.Naming

/-!
# Collisions of symbols

Which symbols of two types are one. A name may start with the verb of another kind, and uppercasing
tells no cases apart, so there are collisions; here they are listed for all pairs of kinds.
-/

namespace Scaffold

inductive SymbolKind where
  | typeName
  | constructor
  | getter
  | init
  | free
  | guard
deriving DecidableEq, Repr

def Symbols.symbol (symbols : Symbols) : SymbolKind → String
  | .typeName => symbols.typeName
  | .constructor => symbols.constructor
  | .getter => symbols.getter
  | .init => symbols.init
  | .free => symbols.free
  | .guard => symbols.guard

namespace SymbolKind

def verb : SymbolKind → String
  | typeName | guard => ""
  | constructor => "New"
  | getter => "Get"
  | init => "Init"
  | free => "Free"

/-- What two names have to be like for their symbols of these kinds to be one. -/
def Collides : SymbolKind → SymbolKind → String → String → Prop
  | guard, guard, left, right => left.toUpper = right.toUpper
  | guard, typeName, left, right => right = left.toUpper ++ "H"
  | typeName, guard, left, right => left = right.toUpper ++ "H"
  | guard, _, _, _ | _, guard, _, _ => False
  | typeName, typeName, left, right => left = right
  | typeName, other, left, right => left = other.verb ++ right
  | kind, typeName, left, right => right = kind.verb ++ left
  | kind, other, left, right => kind = other ∧ left = right

variable {kind other : SymbolKind} {left right name : String}

theorem collides_comm : kind.Collides other left right ↔ other.Collides kind right left := by
  cases kind <;> cases other <;> simp [Collides, eq_comm]

/-! ### Symbols with a verb -/

theorem symbol_eq_append (hkind : kind ≠ guard) (name : String) :
    (Symbols.derive name).symbol kind = symbolMark ++ (kind.verb ++ name) := by
  cases kind with
  | guard => exact absurd rfl hkind
  | typeName => simp [Symbols.symbol, Symbols.derive, verb]
  | constructor | getter | init | free => exact String.append_assoc

/-- Two verbs differ in their first letters, so that only a name can make up for a verb. -/
theorem verb_append_eq_iff (hkind : kind ≠ guard) (hother : other ≠ guard) :
    kind.verb ++ left = other.verb ++ right ↔ kind.Collides other left right := by
  rw [← String.toList_inj, String.toList_append, String.toList_append]
  cases kind <;> cases other <;>
    simp_all [Collides, verb, ← String.toList_inj, eq_comm]

/-! ### Guards -/

theorem uppercase_eq_toUpper (hname : checkName name = .ok ()) :
    Text.uppercase name = name.toUpper := by
  apply String.toList_inj.mp
  rw [String.toUpper, String.toList_map]
  apply Text.toList_uppercase_of_ascii
  intro c hc
  exact (toNat_of_isNameChar ((checkName_eq_ok_iff.mp hname).2 c hc)).2

theorem guard_eq_append (hname : checkName name = .ok ()) :
    (Symbols.derive name).symbol guard = symbolMark ++ (name.toUpper ++ "H") := by
  rw [← uppercase_eq_toUpper hname]
  exact String.append_assoc

theorem isLower_toUpper {c : Char} (hc : isNameChar c = true) : c.toUpper.isLower = false := by
  have hascii : ∀ n < 128, (Char.ofNat n).toUpper.isLower = false := by decide
  have hupper := hascii c.toNat (toNat_of_isNameChar hc).2
  rwa [Char.ofNat_toNat] at hupper

/-- A guard is uppercase throughout, and all verbs have a lowercase letter. -/
theorem guard_ne_verb_append (hname : checkName left = .ok ())
    (hverb : kind.verb.toList.any Char.isLower = true) (right : String) :
    left.toUpper ++ "H" ≠ kind.verb ++ right := by
  intro heq
  obtain ⟨c, hmem, hlower⟩ := List.any_eq_true.mp hverb
  have hguard : c ∈ (left.toUpper ++ "H").toList := by
    rw [heq, String.toList_append]
    exact List.mem_append_left _ hmem
  rw [String.toList_append, String.toUpper, String.toList_map, List.mem_append] at hguard
  have hupper : c.isLower = false := by
    rcases hguard with hname' | hend
    · obtain ⟨d, hd, rfl⟩ := List.mem_map.mp hname'
      exact isLower_toUpper ((checkName_eq_ok_iff.mp hname).2 d hd)
    · rw [List.mem_singleton.mp hend]
      decide
  rw [hlower] at hupper
  cases hupper

theorem guard_eq_symbol_iff (hleft : checkName left = .ok ()) (hright : checkName right = .ok ())
    (other : SymbolKind) :
    (Symbols.derive left).symbol guard = (Symbols.derive right).symbol other ↔
      guard.Collides other left right := by
  have hfunction {kind : SymbolKind} (hkind : kind ≠ guard)
      (hverb : kind.verb.toList.any Char.isLower = true) :
      (Symbols.derive left).symbol guard ≠ (Symbols.derive right).symbol kind := by
    rw [guard_eq_append hleft, symbol_eq_append hkind, Ne, String.append_right_inj]
    exact guard_ne_verb_append hleft hverb right
  cases other with
  | guard =>
      rw [guard_eq_append hleft, guard_eq_append hright, String.append_right_inj]
      exact String.append_left_inj _
  | typeName =>
      rw [guard_eq_append hleft, symbol_eq_append (by decide), String.append_right_inj]
      exact eq_comm.trans (by simp [verb, Collides])
  | constructor => exact iff_of_false (hfunction (by decide) (by decide)) id
  | getter => exact iff_of_false (hfunction (by decide) (by decide)) id
  | init => exact iff_of_false (hfunction (by decide) (by decide)) id
  | free => exact iff_of_false (hfunction (by decide) (by decide)) id

/-! ### All pairs -/

theorem symbol_eq_symbol_iff (hleft : checkName left = .ok ()) (hright : checkName right = .ok ())
    (kind other : SymbolKind) :
    (Symbols.derive left).symbol kind = (Symbols.derive right).symbol other ↔
      kind.Collides other left right := by
  by_cases hkind : kind = guard
  · rw [hkind]
    exact guard_eq_symbol_iff hleft hright other
  by_cases hother : other = guard
  · rw [hother, eq_comm, collides_comm]
    exact guard_eq_symbol_iff hright hleft kind
  · rw [symbol_eq_append hkind, symbol_eq_append hother, String.append_right_inj]
    exact verb_append_eq_iff hkind hother

theorem ne_append_self {part : String} (hpart : part.toList ≠ []) (name : String) :
    name ≠ part ++ name := by
  intro heq
  have hlength := congrArg (fun text => text.toList.length) heq
  have hpositive := List.length_pos_iff.mpr hpart
  simp only [String.toList_append, List.length_append] at hlength
  omega

theorem ne_toUpper_append (name : String) : name ≠ name.toUpper ++ "H" := by
  intro heq
  have hlength := congrArg (fun text => text.toList.length) heq
  simp only [String.toList_append, String.toUpper, String.toList_map, List.length_append,
    List.length_map] at hlength
  simp at hlength

theorem eq_of_collides_self (h : kind.Collides other name name) : kind = other := by
  have hnew : name ≠ "New" ++ name := ne_append_self (by decide) name
  have hget : name ≠ "Get" ++ name := ne_append_self (by decide) name
  have hinit : name ≠ "Init" ++ name := ne_append_self (by decide) name
  have hfree : name ≠ "Free" ++ name := ne_append_self (by decide) name
  have hguard := ne_toUpper_append name
  cases kind <;> cases other <;> simp_all [Collides, verb]

end SymbolKind

/-- **The collisions of symbols.** Two symbols of two admissible names are one exactly where the
table says so. It follows that different names have different symbols, and that the symbols of one
name are all different. -/
theorem Symbols.collisions {left right : String} (hleft : checkName left = .ok ())
    (hright : checkName right = .ok ()) :
    (∀ kind other, (derive left).symbol kind = (derive right).symbol other ↔
        kind.Collides other left right) ∧
      (derive left = derive right → left = right) ∧
      Function.Injective (derive left).symbol := by
  refine ⟨SymbolKind.symbol_eq_symbol_iff hleft hright, derive_injective, ?_⟩
  intro kind other heq
  exact SymbolKind.eq_of_collides_self
    ((SymbolKind.symbol_eq_symbol_iff hleft hleft kind other).mp heq)

/-- The guard of one type may be the name of another. -/
theorem Symbols.collisions_widget :
    checkName "Widget" = .ok () ∧ checkName "WIDGETH" = .ok () ∧
      (derive "Widget").guard = (derive "WIDGETH").typeName ∧
      (∀ kind other, (derive "Widget").symbol kind = (derive "WIDGETH").symbol other ↔
          kind.Collides other "Widget" "WIDGETH") ∧
      (derive "Widget" = derive "WIDGETH" → "Widget" = "WIDGETH") ∧
      Function.Injective (derive "Widget").symbol :=
  ⟨rfl, rfl, by decide, collisions rfl rfl⟩

end Scaffold
