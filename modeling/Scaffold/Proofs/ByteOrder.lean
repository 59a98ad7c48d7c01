import Mathlib.Data.String.Basic

/-!
# The order of texts is that of their bytes

UTF-8 keeps the order of characters: of two encodings the one of the smaller character is smaller at
the first byte where they differ, and no encoding starts another. So texts compare as their bytes
do.
-/

namespace Scaffold.Text

def utf8 (text : String) : List UInt8 :=
  text.toUTF8.data.toList

theorem utf8_eq_flatMap (text : String) :
    utf8 text = text.toList.flatMap String.utf8EncodeChar := by
  rw [utf8, String.toUTF8_eq_toByteArray]
  conv_lhs => rw [← String.ofList_toList (s := text), String.toByteArray_ofList, List.utf8Encode]
  exact List.toList_data_toByteArray

theorem utf8EncodeChar_append_lt {c d : Char} (h : c < d) (first second : List UInt8) :
    String.utf8EncodeChar c ++ first < String.utf8EncodeChar d ++ second := by
  have hlt : c.val.toNat < d.val.toNat := h
  have hmax : d.val.toNat < 0x110000 := by
    have hvalid := d.valid
    rw [UInt32.isValidChar, Nat.isValidChar] at hvalid
    omega
  unfold String.utf8EncodeChar
  generalize c.val.toNat = m at *
  generalize d.val.toNat = n at *
  have hbyte (bits mark k : Nat) (hbits : 0 < bits) (hmark : bits + mark ≤ 256) :
      (UInt8.ofNat (k % bits + mark)).toNat = k % bits + mark := by
    have hmod := Nat.mod_lt k hbits
    exact UInt8.toNat_ofNat_of_lt' (by change _ < 256; omega)
  have hlead (k : Nat) (hk : k < 0x110000) :
      k / 262144 % 8 = k / 4096 / 64 ∧ k / 4096 = k / 64 / 64 := by omega
  have hm := hlead m (hlt.trans hmax)
  have hn := hlead n hmax
  -- One case for each two lengths. A longer encoding has the greater first byte.
  simp only []
  split_ifs <;>
    simp only [List.cons_append, List.nil_append, List.cons_lt_cons_iff, UInt8.lt_iff_toNat_lt,
      ← UInt8.toNat_inj, UInt8.toNat_ofNat', hbyte 32 192 _ (by decide) (by decide),
      hbyte 16 224 _ (by decide) (by decide), hbyte 8 240 _ (by decide) (by decide),
      hbyte 64 128 _ (by decide) (by decide)] <;>
    omega

theorem flatMap_utf8EncodeChar_lt {first second : List Char} (h : first < second) :
    first.flatMap String.utf8EncodeChar < second.flatMap String.utf8EncodeChar := by
  induction first generalizing second with
  | nil =>
      cases second with
      | nil => exact absurd h (List.lt_irrefl [])
      | cons d second =>
          have hbytes : String.utf8EncodeChar d ≠ [] := String.utf8EncodeChar_ne_nil
          obtain ⟨byte, bytes, hbytes⟩ := List.exists_cons_of_ne_nil hbytes
          rw [List.flatMap_nil, List.flatMap_cons, hbytes]
          exact List.nil_lt_cons byte _
  | cons c first ih =>
      cases second with
      | nil => exact absurd h (List.not_lt_nil _)
      | cons d second =>
          rw [List.flatMap_cons, List.flatMap_cons]
          obtain hlt | ⟨rfl, htail⟩ := List.cons_lt_cons_iff.mp h
          · exact utf8EncodeChar_append_lt hlt _ _
          · exact List.append_left_lt (ih htail)

/-- **The order of texts is that of their bytes.** -/
theorem utf8_lt_utf8_iff {first second : String} : utf8 first < utf8 second ↔ first < second := by
  have hmono {first second : String} (h : first < second) : utf8 first < utf8 second := by
    rw [utf8_eq_flatMap, utf8_eq_flatMap]
    exact flatMap_utf8EncodeChar_lt h
  refine ⟨fun hbytes => ?_, hmono⟩
  obtain h | rfl | h := lt_trichotomy first second
  · exact h
  · exact absurd hbytes (List.lt_irrefl _)
  · exact absurd hbytes (List.lt_asymm (hmono h))

end Scaffold.Text
