import AccessGraph.Buffer.Write
/-!
# Words are read back

* `Word.read?_bytes` : a word is the word of its four bytes.
* `Word.readMany?_bytes` : words are read off the front of a buffer as they were written.
* `Word.toNat?_ofNat`, `Word.toInt_ofNat` : numbers that fit into a word are the numbers of their
  words.
-/

namespace AccessGraph.Word

/-- The numbers that fit into a word. -/
def limit : Nat := Int32.size / 2

/-- A byte can be moved to any place of a word. -/
theorem shifted_mod (n : Nat) {m : Nat} (hm : 0 < m) (hfit : 256 * m ≤ 4294967296) :
    n % 256 * m % 4294967296 = n % 256 * m := by
  have := Nat.mul_lt_mul_of_pos_right (Nat.mod_lt n (by decide : 0 < 256)) hm
  exact Nat.mod_eq_of_lt (by omega)

/-- A number of 32 bits is put together from its bytes. -/
theorem or_bytes {n : Nat} (h : n < 4294967296) :
    n % 256 ||| n / 256 % 256 * 256 % 4294967296 ||| n / 65536 % 256 * 65536 % 4294967296 |||
      n / 16777216 % 256 * 16777216 % 4294967296 = n := by
  -- the bits of the two sides of each `|||` do not meet, so it is an addition
  have h₁ : n % 256 ||| n / 256 % 256 * 256 = n % 65536 := by
    have := Nat.two_pow_add_eq_or_of_lt (i := 8) (b := n % 256) (by omega) (n / 256 % 256)
    rw [Nat.or_comm, Nat.mul_comm, ← this]
    omega
  have h₂ : n % 65536 ||| n / 65536 % 256 * 65536 = n % 16777216 := by
    have := Nat.two_pow_add_eq_or_of_lt (i := 16) (b := n % 65536) (by omega) (n / 65536 % 256)
    rw [Nat.or_comm, Nat.mul_comm, ← this]
    omega
  have h₃ : n % 16777216 ||| n / 16777216 % 256 * 16777216 = n := by
    have := Nat.two_pow_add_eq_or_of_lt (i := 24) (b := n % 16777216) (by omega)
      (n / 16777216 % 256)
    rw [Nat.or_comm, Nat.mul_comm, ← this]
    omega
  have m₁ := shifted_mod (n / 256) (m := 256) (by decide) (by decide)
  have m₂ := shifted_mod (n / 65536) (m := 65536) (by decide) (by decide)
  have m₃ := shifted_mod (n / 16777216) (m := 16777216) (by decide) (by decide)
  rw [m₁, m₂, m₃, h₁, h₂, h₃]

theorem or_toUInt8 (u : UInt32) :
    u.toUInt8.toUInt32 ||| (u >>> 8).toUInt8.toUInt32 <<< 8 |||
      (u >>> 16).toUInt8.toUInt32 <<< 16 ||| (u >>> 24).toUInt8.toUInt32 <<< 24 = u := by
  apply UInt32.toNat_inj.1
  simpa [Nat.shiftLeft_eq, Nat.shiftRight_eq_div_pow] using or_bytes u.toNat_lt

/-- **A word is the word of its four bytes.** -/
theorem read?_bytes (w : Int32) (rest : List UInt8) : read? (bytes w ++ rest) = some (w, rest) := by
  change some (UInt32.toInt32 _, rest) = some (w, rest)
  rw [or_toUInt8, Int32.toInt32_toUInt32]

theorem length_bytes (w : Int32) : (bytes w).length = Layout.wordSize := rfl

theorem length_flatMap_bytes {α : Type} (word : α → Int32) (xs : List α) :
    (xs.flatMap fun x => bytes (word x)).length = Layout.wordSize * xs.length := by
  induction xs with
  | nil => rfl
  | cons x xs ih =>
    rw [List.flatMap_cons, List.length_append, ih, length_bytes, List.length_cons,
      Nat.mul_succ, Nat.add_comm]

/-- **Words are read off the front of a buffer as they were written.** -/
theorem readMany?_bytes (ws : List Int32) (rest : List UInt8) :
    readMany? ws.length (ws.flatMap bytes ++ rest) = some (ws, rest) := by
  induction ws with
  | nil => rfl
  | cons w ws ih =>
    simp [readMany?, read?_bytes, ih]

/-- A number that fits is the number of its word. -/
theorem toNat?_ofNat {n : Nat} (h : n < limit) : toNat? (Int32.ofNat n) = some n := by
  have hle : 0 ≤ Int32.ofNat n := Int32.zero_le_ofNat_of_lt h
  rw [toNat?, if_pos hle, Int32.toNatClampNeg_ofNat_of_lt h]

/-- A number that fits does not change when it becomes a word. -/
theorem toInt_ofNat {n : Nat} (h : n < limit) : (Int32.ofNat n).toInt = n :=
  Int32.toInt_ofNat_of_lt h

/-- Numbers that fit are in the order of their words. -/
theorem ofNat_lt_ofNat {m n : Nat} (h : m < n) (hn : n < limit) : Int32.ofNat m < Int32.ofNat n :=
  (Int32.ofNat_lt_iff_lt (Nat.lt_trans h hn) hn).2 h

/-- What is decoded one by one is decoded as a list. -/
theorem mapM_map_eq_some {α β : Type} {encode : α → β} {decode? : β → Option α} {xs : List α}
    (h : ∀ x ∈ xs, decode? (encode x) = some x) : (xs.map encode).mapM decode? = some xs := by
  induction xs with
  | nil => rfl
  | cons x xs ih =>
    have hfirst := h x List.mem_cons_self
    have hrest := ih fun y hy => h y (List.mem_cons_of_mem _ hy)
    rw [List.map_cons, List.mapM_cons, hfirst, hrest]
    rfl

/-- Numbers that fit are the numbers of their words. -/
theorem mapM_toNat?_map_ofNat {ns : List Nat} (h : ∀ n ∈ ns, n < limit) :
    (ns.map Int32.ofNat).mapM toNat? = some ns :=
  mapM_map_eq_some fun n hn => toNat?_ofNat (h n hn)

end AccessGraph.Word
