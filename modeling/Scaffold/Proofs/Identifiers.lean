import Scaffold.Proofs.Collisions

/-!
# Symbols are identifiers

A short name passes the check exactly if all symbols that are made from it are identifiers of C. The
guard is no exception: uppercasing may bring other letters into ASCII, but the type keeps the name
as it is.
-/

namespace Scaffold

def IsNondigit (c : Char) : Prop :=
  'A' ≤ c ∧ c ≤ 'Z' ∨ 'a' ≤ c ∧ c ≤ 'z' ∨ c = '_'

def IsDigit (c : Char) : Prop :=
  '0' ≤ c ∧ c ≤ '9'

def IsIdentifier (text : String) : Prop :=
  ∃ first rest, text.toList = first :: rest ∧ IsNondigit first ∧
    ∀ c ∈ rest, IsNondigit c ∨ IsDigit c

theorem isNameChar_iff {c : Char} : isNameChar c = true ↔ IsNondigit c ∨ IsDigit c := by
  have hrange (low high : Char) :
      (decide (low.val ≤ c.val) && decide (c.val ≤ high.val)) = true ↔ low ≤ c ∧ c ≤ high := by
    rw [Bool.and_eq_true, decide_eq_true_eq, decide_eq_true_eq]
    exact Iff.rfl
  have hupper : c.isUpper = true ↔ 'A' ≤ c ∧ c ≤ 'Z' := decide_eq_true_iff
  have hlower : c.isLower = true ↔ 'a' ≤ c ∧ c ≤ 'z' := hrange 'a' 'z'
  have hdigit : c.isDigit = true ↔ '0' ≤ c ∧ c ≤ '9' := hrange '0' '9'
  unfold isNameChar Char.isAlphanum Char.isAlpha IsNondigit IsDigit
  rw [Bool.or_eq_true, Bool.or_eq_true, Bool.or_eq_true, hupper, hlower, hdigit, beq_iff_eq,
    or_right_comm]
  exact or_congr_left or_assoc

section CheckName

variable {name : String} {char : Char} {index : Nat}

theorem IsIdentifier.isNameChar {c : Char} (h : IsIdentifier name) (hc : c ∈ name.toList) :
    isNameChar c = true := by
  obtain ⟨first, rest, hname, hfirst, hrest⟩ := h
  rw [hname] at hc
  rw [isNameChar_iff]
  rcases List.mem_cons.mp hc with rfl | hc
  · exact Or.inl hfirst
  · exact hrest c hc

namespace SymbolKind

theorem toList_symbol (h : checkName name = .ok ()) (kind : SymbolKind) :
    ∃ rest, ((Symbols.derive name).symbol kind).toList = 'C' :: rest := by
  by_cases hguard : kind = guard
  · rw [hguard, guard_eq_append h, String.toList_append]
    exact ⟨_, rfl⟩
  · rw [symbol_eq_append hguard, String.toList_append]
    exact ⟨_, rfl⟩

/-- What is marked is an identifier, even if it starts with a digit without its mark. -/
theorem isIdentifier_symbol (h : checkName name = .ok ()) (kind : SymbolKind) :
    IsIdentifier ((Symbols.derive name).symbol kind) := by
  have hadmissible := Symbols.admissible_derive h
  have hsymbol : checkName ((Symbols.derive name).symbol kind) = .ok () := by
    cases kind with
    | typeName => exact hadmissible.typeName
    | constructor => exact hadmissible.constructor
    | getter => exact hadmissible.getter
    | init => exact hadmissible.init
    | free => exact hadmissible.free
    | guard => exact hadmissible.guard
  obtain ⟨rest, hrest⟩ := toList_symbol h kind
  refine ⟨'C', rest, hrest, Or.inl (by decide), fun c hc => isNameChar_iff.mp ?_⟩
  exact (checkName_eq_ok_iff.mp hsymbol).2 c (hrest ▸ List.mem_cons_of_mem _ hc)

end SymbolKind

theorem checkName_eq_ok_iff_isIdentifier :
    checkName name = .ok () ↔
      name ≠ "" ∧ ∀ kind, IsIdentifier ((Symbols.derive name).symbol kind) := by
  constructor
  · intro h
    refine ⟨?_, SymbolKind.isIdentifier_symbol h⟩
    rintro rfl
    exact (checkName_eq_ok_iff.mp h).1 rfl
  · rintro ⟨hname, hsymbols⟩
    rw [checkName_eq_ok_iff]
    refine ⟨fun hnil => hname (String.toList_eq_nil_iff.mp hnil), fun c hc => ?_⟩
    -- The type is the name behind its mark, whatever the characters are.
    have htype : c ∈ ((Symbols.derive name).symbol .typeName).toList := by
      rw [SymbolKind.symbol_eq_append (by decide), String.toList_append, String.toList_append]
      exact List.mem_append_right _ (List.mem_append_right _ hc)
    exact (hsymbols .typeName).isNameChar htype

theorem checkName_eq_empty_iff : checkName name = .error .empty ↔ name = "" := by
  unfold checkName
  split
  · next hnil => simpa using String.toList_eq_nil_iff.mp (List.isEmpty_iff.mp hnil)
  · next hne =>
    refine iff_of_false ?_ fun hname => hne (by rw [hname]; rfl)
    split <;> simp

theorem checkName_eq_invalidChar_iff_find? :
    checkName name = .error (.invalidChar char index) ↔
      name.toList.zipIdx.find? (!isNameChar ·.1) = some (char, index) := by
  unfold checkName
  split
  · next hnil => simp [List.isEmpty_iff.mp hnil]
  · split
    · next found hfind => simp [hfind]
    · next hfind => simp [hfind]

theorem checkName_eq_invalidChar_iff :
    checkName name = .error (.invalidChar char index) ↔
      name.toList[index]? = some char ∧ isNameChar char = false ∧
        ∀ c ∈ name.toList.take index, isNameChar c = true := by
  rw [checkName_eq_invalidChar_iff_find?, List.find?_eq_some_iff_getElem, Bool.not_eq_true']
  simp only [List.getElem_zipIdx, Nat.zero_add, Prod.mk.injEq, Bool.not_not]
  constructor
  · rintro ⟨hchar, position, hposition, ⟨rfl, rfl⟩, hbefore⟩
    rw [List.length_zipIdx] at hposition
    refine ⟨List.getElem?_eq_getElem hposition, hchar, fun c hc => ?_⟩
    obtain ⟨earlier, hearlier, rfl⟩ := List.mem_take_iff_getElem.mp hc
    exact hbefore earlier (Nat.lt_min.mp hearlier).1
  · rintro ⟨hget, hchar, hbefore⟩
    obtain ⟨hindex, hget⟩ := List.getElem?_eq_some_iff.mp hget
    have hlength : index < name.toList.zipIdx.length := by rwa [List.length_zipIdx]
    refine ⟨hchar, index, hlength, ⟨hget, rfl⟩, fun earlier hearlier => ?_⟩
    have hbound : earlier < name.toList.length := Nat.lt_trans hearlier hindex
    exact hbefore _
      (List.mem_take_iff_getElem.mpr ⟨earlier, Nat.lt_min.mpr ⟨hearlier, hbound⟩, rfl⟩)

end CheckName

/-- **The check is exact.** A short name passes exactly if it is not empty and all six symbols of
the type are identifiers; only the empty name is refused as empty; and a character is reported with
a position exactly if it is the first one that no identifier holds, and stands there. -/
theorem checkName_decides (name : String) :
    (checkName name = .ok () ↔
        name ≠ "" ∧ ∀ kind, IsIdentifier ((Symbols.derive name).symbol kind)) ∧
      (checkName name = .error .empty ↔ name = "") ∧
      ∀ char index, checkName name = .error (.invalidChar char index) ↔
        name.toList[index]? = some char ∧ ¬ (IsNondigit char ∨ IsDigit char) ∧
          ∀ c ∈ name.toList.take index, IsNondigit c ∨ IsDigit c := by
  refine ⟨checkName_eq_ok_iff_isIdentifier, checkName_eq_empty_iff, fun char index => ?_⟩
  rw [checkName_eq_invalidChar_iff, ← isNameChar_iff, Bool.not_eq_true]
  simp only [isNameChar_iff]

/-- The long s is an S in the guard, and yet the name is refused for it. -/
example : (Symbols.derive "ſet").guard = "CBSETH" ∧
    checkName "ſet" = .error (.invalidChar 'ſ' 0) := by decide

end Scaffold
