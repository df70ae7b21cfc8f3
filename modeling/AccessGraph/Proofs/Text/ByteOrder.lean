import AccessGraph.Buffer.Write
import Mathlib.Data.List.Basic
/-!
# The order of texts is that of their bytes

Texts are compared code point by code point. The first byte of a code point tells how many bytes it
takes, and the more it takes the greater that byte is; code points of one length differ in their
digits to the base `64`, and these are what the bytes hold. So comparing the bytes of two texts
gives the same answer.

* `Text.lt_iff_digits` : numbers compare as their digits to the base `64` do.
* `Text.utf8EncodeChar_append_lt` : the bytes of a smaller code point are smaller, whatever follows.
* `Text.utf8Bytes_lt_iff` : **texts and their bytes are ordered in the same way.**
-/

namespace AccessGraph.Text

/-! ### Digits -/

theorem lt_iff_last_digit {m n : Nat} :
    m < n ↔ m / 64 < n / 64 ∨ m / 64 = n / 64 ∧ m % 64 < n % 64 := by
  omega

/-- Numbers compare as their last three digits and what stands before these. -/
theorem lt_iff_digits {m n : Nat} : m < n ↔ m / 262144 < n / 262144 ∨ m / 262144 = n / 262144 ∧
    (m / 4096 % 64 < n / 4096 % 64 ∨ m / 4096 % 64 = n / 4096 % 64 ∧
      (m / 64 % 64 < n / 64 % 64 ∨ m / 64 % 64 = n / 64 % 64 ∧ m % 64 < n % 64)) := by
  have last := @lt_iff_last_digit m n
  have second := @lt_iff_last_digit (m / 64) (n / 64)
  have first := @lt_iff_last_digit (m / 4096) (n / 4096)
  rw [Nat.div_div_eq_div_mul, Nat.div_div_eq_div_mul] at second first
  omega

/-! ### Bytes of one code point -/

theorem ofNat_eq_ofNat {m n : Nat} (hm : m < UInt8.size) (hn : n < UInt8.size) :
    UInt8.ofNat m = UInt8.ofNat n ↔ m = n := by
  rw [UInt8.ofNat_eq_iff_mod_eq_toNat, UInt8.toNat_ofNat', Nat.mod_eq_of_lt hm, Nat.mod_eq_of_lt hn]

theorem toNat_val_lt (c : Char) : c.val.toNat < 0x110000 := by
  have h : Nat.isValidChar c.val.toNat := c.valid
  unfold Nat.isValidChar at h
  omega

/-- **The bytes of a smaller code point are smaller**, whatever follows them. -/
theorem utf8EncodeChar_append_lt {c d : Char} (h : c < d) (cs ds : List UInt8) :
    String.utf8EncodeChar c ++ cs < String.utf8EncodeChar d ++ ds := by
  have hsize : UInt8.size = 256 := rfl
  have hlt : c.val.toNat < d.val.toNat := h
  have hd : d.val.toNat < 0x110000 := toNat_val_lt d
  have hdigits := lt_iff_digits.1 hlt
  have hfirst : c.val.toNat / 262144 % 8 = c.val.toNat / 262144 := by omega
  have hfirst' : d.val.toNat / 262144 % 8 = d.val.toNat / 262144 := by omega
  rw [String.utf8EncodeChar.eq_1 c, String.utf8EncodeChar.eq_1 d, hfirst, hfirst']
  -- either the first bytes differ already, or both code points take equally many
  split_ifs <;> first
    | omega
    | simp (disch := omega) only [List.cons_append, List.nil_append, List.cons_lt_cons_iff,
        UInt8.ofNat_lt_iff_lt, ofNat_eq_ofNat]
      omega

/-! ### Bytes of a text -/

theorem utf8Bytes_eq_flatMap (text : String) :
    utf8Bytes text = text.toList.flatMap String.utf8EncodeChar := by
  have h : text.toByteArray = (text.toList.flatMap String.utf8EncodeChar).toByteArray := by
    conv_lhs => rw [← String.ofList_toList (s := text), String.toByteArray_ofList]
    rfl
  rw [utf8Bytes, String.toUTF8, h]
  simp

theorem flatMap_utf8EncodeChar_lt {cs ds : List Char} (h : cs < ds) :
    cs.flatMap String.utf8EncodeChar < ds.flatMap String.utf8EncodeChar := by
  induction cs generalizing ds with
  | nil =>
    obtain _ | ⟨d, ds⟩ := ds
    · simp at h
    obtain ⟨byte, bytes, hbytes⟩ := List.exists_cons_of_ne_nil
      (String.utf8EncodeChar_ne_nil (c := d))
    rw [List.flatMap_cons, hbytes]
    exact List.nil_lt_cons _ _
  | cons c cs ih =>
    obtain _ | ⟨d, ds⟩ := ds
    · simp at h
    rw [List.flatMap_cons, List.flatMap_cons]
    rcases List.cons_lt_cons_iff.1 h with hfirst | ⟨rfl, hrest⟩
    · exact utf8EncodeChar_append_lt hfirst _ _
    · exact List.append_left_lt (ih hrest)

/-- **Texts and their bytes are ordered in the same way.** -/
theorem utf8Bytes_lt_iff {a b : String} : utf8Bytes a < utf8Bytes b ↔ a < b := by
  have hforward : ∀ {a b : String}, a < b → utf8Bytes a < utf8Bytes b := by
    intro a b h
    rw [utf8Bytes_eq_flatMap, utf8Bytes_eq_flatMap]
    exact flatMap_utf8EncodeChar_lt (String.lt_iff.1 h)
  refine ⟨fun h => ?_, hforward⟩
  by_contra hnot
  -- otherwise the texts are the same or the other way around, and so are the bytes
  by_cases heq : a = b
  · subst heq
    exact List.lt_irrefl _ h
  · have hlt : b < a :=
      String.not_le.1 fun hle => heq (String.le_antisymm hle (String.not_lt.1 hnot))
    exact List.lt_asymm h (hforward hlt)

theorem utf8Bytes_le_iff {a b : String} : utf8Bytes a ≤ utf8Bytes b ↔ a ≤ b := by
  rw [← List.not_lt, utf8Bytes_lt_iff, String.not_lt]

end AccessGraph.Text
