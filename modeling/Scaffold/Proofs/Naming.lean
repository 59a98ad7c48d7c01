import Scaffold.Proofs.Route
import Scaffold.Symbols

/-!
# Names of types and files

What the characters of an admissible short name are not, and what the names of files that are made
from it look like.
-/

namespace Scaffold

theorem notMem_of_checkName {name : String} {c : Char} (h : checkName name = .ok ())
    (hc : isNameChar c = false) : c ∉ name.toList := by
  intro hmem
  have := (checkName_eq_ok_iff.mp h).2 c hmem
  rw [hc] at this
  cases this

theorem toList_fileBase (name : String) :
    (Symbols.derive name).fileBase.toList = 'C' :: 'B' :: name.toList := by
  simp [Symbols.derive, symbolMark]

theorem Symbols.fileBase_injective {left right : String}
    (h : (derive left).fileBase = (derive right).fileBase) : left = right := by
  have hlist := congrArg String.toList h
  rw [toList_fileBase, toList_fileBase] at hlist
  exact String.toList_inj.mp (List.cons.inj (List.cons.inj hlist).2).2

theorem Symbols.headerFile_ne_sourceFile (left right : String) :
    (derive left).headerFile ≠ (derive right).sourceFile := by
  intro h
  have hlast := congrArg (fun file => file.toList.getLast?) h
  simp [headerFile, sourceFile] at hlast

section File

variable {name ending : String} {c : Char}

theorem toList_file (name ending : String) :
    ((Symbols.derive name).fileBase ++ ending).toList =
      'C' :: 'B' :: (name.toList ++ ending.toList) := by
  rw [String.toList_append, toList_fileBase]
  rfl

theorem isAbsolute_file (name ending : String) :
    (Path.mk ((Symbols.derive name).fileBase ++ ending)).isAbsolute = false := by
  rw [Path.isAbsolute, toList_file]
  rfl

theorem notMem_fileBase (hname : checkName name = .ok ()) (hc : isNameChar c = false) :
    c ∉ (Symbols.derive name).fileBase.toList := by
  have hnotMem := notMem_of_checkName hname hc
  have hC : c ≠ 'C' := by
    rintro rfl
    cases hc
  have hB : c ≠ 'B' := by
    rintro rfl
    cases hc
  rw [toList_fileBase]
  simp [hnotMem, hC, hB]

theorem notMem_file (hname : checkName name = .ok ()) (hc : isNameChar c = false)
    (hending : c ∉ ending.toList) : c ∉ ((Symbols.derive name).fileBase ++ ending).toList := by
  rw [String.toList_append, List.mem_append]
  exact not_or.mpr ⟨notMem_fileBase hname hc, hending⟩

theorem endsWith_file (hname : checkName name = .ok ())
    (hending : '/' ∉ ending.toList) (directory : Path) :
    (directory.join ⟨(Symbols.derive name).fileBase ++ ending⟩).EndsWith directory.joint
      ((Symbols.derive name).fileBase ++ ending) := by
  have hslash : '/' ∉ ((Symbols.derive name).fileBase ++ ending).toList :=
    notMem_file hname (by decide) hending
  have hlist := toList_file name ending
  exact Path.endsWith_join (by simp only [hlist]; simp) hslash (by simp only [hlist]; simp)
    (by simp only [hlist]; simp) directory

theorem endsWith_fileBase (hname : checkName name = .ok ()) (directory : Path) :
    (directory.join ⟨(Symbols.derive name).fileBase⟩).EndsWith directory.joint
      (Symbols.derive name).fileBase := by
  have hends := @endsWith_file name "" hname (by simp) directory
  rwa [String.append_empty] at hends

end File

/-! ### Symbols are identifiers -/

theorem toNat_of_isNameChar {c : Char} (h : isNameChar c = true) :
    48 ≤ c.toNat ∧ c.toNat < 128 := by
  have hval : c.toNat = c.val.toNat := rfl
  change (decide ('A'.val ≤ c.val ∧ c.val ≤ 'Z'.val) ||
    decide ('a'.val ≤ c.val) && decide (c.val ≤ 'z'.val) ||
    decide ('0'.val ≤ c.val) && decide (c.val ≤ '9'.val) || c == '_') = true at h
  simp only [Bool.or_eq_true, Bool.and_eq_true, decide_eq_true_eq, beq_iff_eq,
    UInt32.le_iff_toNat_le] at h
  rcases h with ((hupper | hlower) | hdigit) | rfl
  · have : 65 ≤ c.val.toNat ∧ c.val.toNat ≤ 90 := hupper
    omega
  · have : 97 ≤ c.val.toNat ∧ c.val.toNat ≤ 122 := hlower
    omega
  · have : 48 ≤ c.val.toNat ∧ c.val.toNat ≤ 57 := hdigit
    omega
  · decide

theorem isNameChar_toUpper {c : Char} (h : isNameChar c = true) : isNameChar c.toUpper = true := by
  have hascii : ∀ n < 128, isNameChar (Char.ofNat n) = true →
      isNameChar (Char.ofNat n).toUpper = true := by decide
  have hc := hascii c.toNat (toNat_of_isNameChar h).2
  rw [Char.ofNat_toNat] at hc
  exact hc h

theorem checkName_append {first second : String} (hfirst : checkName first = .ok ())
    (hsecond : checkName second = .ok ()) : checkName (first ++ second) = .ok () := by
  rw [checkName_eq_ok_iff] at hfirst hsecond ⊢
  rw [String.toList_append]
  refine ⟨List.append_ne_nil_of_left_ne_nil hfirst.1 _, fun c hmem => ?_⟩
  rcases List.mem_append.mp hmem with hmem | hmem
  · exact hfirst.2 c hmem
  · exact hsecond.2 c hmem

theorem checkName_uppercase {name : String} (h : checkName name = .ok ()) :
    checkName (Text.uppercase name) = .ok () := by
  rw [checkName_eq_ok_iff] at h ⊢
  have hascii := Text.toList_uppercase_of_ascii fun c hmem => (toNat_of_isNameChar (h.2 c hmem)).2
  rw [hascii]
  refine ⟨fun hnil => h.1 (List.map_eq_nil_iff.mp hnil), fun c hmem => ?_⟩
  obtain ⟨d, hd, rfl⟩ := List.mem_map.mp hmem
  exact isNameChar_toUpper (h.2 d hd)

namespace Symbols

structure Admissible (symbols : Symbols) : Prop where
  typeName : checkName symbols.typeName = .ok ()
  constructor : checkName symbols.constructor = .ok ()
  getter : checkName symbols.getter = .ok ()
  init : checkName symbols.init = .ok ()
  free : checkName symbols.free = .ok ()
  guard : checkName symbols.guard = .ok ()
  fileBase : checkName symbols.fileBase = .ok ()

theorem admissible_derive {name : String} (h : checkName name = .ok ()) :
    (derive name).Admissible := by
  have hmark : checkName symbolMark = .ok () := rfl
  have hsymbol {part : String} (hpart : checkName part = .ok ()) :
      checkName (symbolMark ++ part ++ name) = .ok () :=
    checkName_append (checkName_append hmark hpart) h
  have htype : checkName (symbolMark ++ name) = .ok () := checkName_append hmark h
  have hguard : checkName (symbolMark ++ Text.uppercase name ++ "H") = .ok () :=
    checkName_append (checkName_append hmark (checkName_uppercase h)) rfl
  exact ⟨htype, hsymbol rfl, hsymbol rfl, hsymbol rfl, hsymbol rfl, hguard, htype⟩

end Symbols

end Scaffold
