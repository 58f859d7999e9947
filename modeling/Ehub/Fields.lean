import Mathlib

/-!
Fields of a word. A field is `width` bits of the word, the lowest of them at `low`. A word
is put together with `|` from fields that have been cut to their width and shifted
(`put`), and a field is read by shifting the word back and cutting it (`get`). A field is
read as what has been put there, whatever stands in the other fields.
-/
namespace Ehub.Fields

variable {w : ℕ}

/-- A mask of the lowest bits. -/
def ones (w width : ℕ) : BitVec w := BitVec.ofNat w (2 ^ width - 1)

/-- `(v & mask) << low`. -/
def put (low width : ℕ) (v : BitVec w) : BitVec w := (v &&& ones w width) <<< low

/-- `(word >> low) & mask`. -/
def get (low width : ℕ) (word : BitVec w) : BitVec w := (word >>> low) &&& ones w width

/-- `word & ~(mask << low)`. -/
def clear (low width : ℕ) (word : BitVec w) : BitVec w := word &&& ~~~(ones w width <<< low)

theorem getLsbD_ones (width i : ℕ) : (ones w width).getLsbD i = (decide (i < w) && decide (i < width)) := by
  rw [ones, BitVec.getLsbD_ofNat, Nat.testBit_two_pow_sub_one]

theorem getLsbD_put (low width i : ℕ) (v : BitVec w) : (put low width v).getLsbD i =
    (decide (i < w) && (decide (low ≤ i) && (v.getLsbD (i - low) && decide (i - low < width)))) := by
  rw [put, BitVec.getLsbD_shiftLeft, BitVec.getLsbD_and, getLsbD_ones]
  by_cases inside : i < w
  · by_cases below : i < low
    · simp [inside, below]
    · have under : i - low < w := by omega
      simp [inside, below, under, Nat.le_of_not_lt below]
  · simp [inside]

theorem getLsbD_get (low width i : ℕ) (word : BitVec w) :
    (get low width word).getLsbD i = (word.getLsbD (low + i) && decide (i < width)) := by
  rw [get, BitVec.getLsbD_and, BitVec.getLsbD_ushiftRight, getLsbD_ones]
  by_cases inside : i < w
  · simp [inside]
  · have beyond : w ≤ low + i := by omega
    simp [inside, BitVec.getLsbD_of_ge _ _ beyond]

@[simp] theorem get_or (low width : ℕ) (x y : BitVec w) :
    get low width (x ||| y) = get low width x ||| get low width y := by
  rw [get, BitVec.ushiftRight_or_distrib, BitVec.and_or_distrib_right]
  rfl

/-- A word can be cut before it is shifted as well. -/
theorem shiftRight_and (low width : ℕ) (word : BitVec w) : (word &&& (ones w width <<< low)) >>> low = get low width word := by
  apply BitVec.eq_of_getLsbD_eq
  intro i inside
  rw [getLsbD_get, BitVec.getLsbD_ushiftRight, BitVec.getLsbD_and, BitVec.getLsbD_shiftLeft, getLsbD_ones, Nat.add_sub_cancel_left]
  by_cases within : low + i < w
  · simp [within, inside]
  · simp [within, BitVec.getLsbD_of_ge _ _ (Nat.le_of_not_lt within)]

/-- What has been put into a field is read there. -/
theorem get_put {low width : ℕ} (fits : low + width ≤ w) (v : BitVec w) : get low width (put low width v) = v &&& ones w width := by
  apply BitVec.eq_of_getLsbD_eq
  intro i inside
  rw [getLsbD_get, getLsbD_put, BitVec.getLsbD_and, getLsbD_ones, Nat.add_sub_cancel_left]
  by_cases within : i < width
  · have under : low + i < w := by omega
    simp [within, under, inside]
  · simp [within]

/-- Another field reads as 0. -/
theorem get_put_of_disjoint {low width low' width' : ℕ} (disjoint : low + width ≤ low' ∨ low' + width' ≤ low) (v : BitVec w) :
    get low' width' (put low width v) = 0#w := by
  apply BitVec.eq_of_getLsbD_eq
  intro i _
  rw [getLsbD_get, getLsbD_put, BitVec.getLsbD_zero]
  by_cases within : i < width'
  · by_cases above : low ≤ low' + i
    · have beyond : ¬low' + i - low < width := by omega
      simp [beyond]
    · simp [above]
  · simp [within]

theorem getLsbD_clear (low width i : ℕ) (word : BitVec w) :
    (clear low width word).getLsbD i = (word.getLsbD i && !(decide (low ≤ i) && decide (i < low + width))) := by
  by_cases inside : i < w
  · rw [clear, BitVec.getLsbD_and, BitVec.getLsbD_not, BitVec.getLsbD_shiftLeft, getLsbD_ones]
    by_cases below : i < low
    · simp [inside, below]
    · have within : i - low < width ↔ i < low + width := by omega
      have under : i - low < w := by omega
      simp [inside, below, under, within, Nat.le_of_not_lt below]
  · simp [BitVec.getLsbD_of_ge _ _ (Nat.le_of_not_lt inside)]

/-- A field of what has been cleared. -/
theorem get_clear {low width low' width' : ℕ} (inside : low ≤ low' ∧ low' + width' ≤ low + width) (word : BitVec w) :
    get low' width' (clear low width word) = 0#w := by
  apply BitVec.eq_of_getLsbD_eq
  intro i _
  rw [getLsbD_get, getLsbD_clear, BitVec.getLsbD_zero]
  by_cases within : i < width'
  · have cleared : low ≤ low' + i ∧ low' + i < low + width := by omega
    simp [cleared]
  · simp [within]

theorem get_clear_of_disjoint {low width low' width' : ℕ} (disjoint : low + width ≤ low' ∨ low' + width' ≤ low) (word : BitVec w) :
    get low' width' (clear low width word) = get low' width' word := by
  apply BitVec.eq_of_getLsbD_eq
  intro i _
  rw [getLsbD_get, getLsbD_get, getLsbD_clear]
  by_cases within : i < width'
  · have kept : ¬(low ≤ low' + i ∧ low' + i < low + width) := by omega
    rw [← Bool.decide_and, decide_eq_false kept, Bool.not_false, Bool.and_true]
  · simp [within]

/-- A field of a field. -/
theorem get_get {low width low' width' : ℕ} (inside : low' + width' ≤ width) (word : BitVec w) :
    get low' width' (get low width word) = get (low + low') width' word := by
  apply BitVec.eq_of_getLsbD_eq
  intro i _
  rw [getLsbD_get, getLsbD_get, getLsbD_get, Nat.add_assoc]
  by_cases within : i < width'
  · have under : low' + i < width := by omega
    simp [within, under]
  · simp [within]

/-- A bit that is set. -/
theorem get_one_or (low : ℕ) (word : BitVec w) : get low 1 word ||| 1#w = 1#w := by
  apply BitVec.eq_of_getLsbD_eq
  intro i inside
  rw [BitVec.getLsbD_or, getLsbD_get, BitVec.getLsbD_one]
  by_cases first : i = 0
  · have wide : 0 < w := by omega
    simp [first, wide]
  · have beyond : ¬i < 1 := by omega
    simp [first, beyond]

theorem toNat_and_ones {width : ℕ} (fits : width ≤ w) (v : BitVec w) : (v &&& ones w width).toNat = v.toNat % 2 ^ width := by
  have smaller : 2 ^ width - 1 < 2 ^ w := by
    have : 2 ^ width ≤ 2 ^ w := Nat.pow_le_pow_right (by omega) fits
    have : 0 < 2 ^ width := Nat.two_pow_pos width
    omega
  rw [BitVec.toNat_and, ones, BitVec.toNat_ofNat, Nat.mod_eq_of_lt smaller, Nat.and_two_pow_sub_one_eq_mod]

theorem get_toNat {low width : ℕ} (fits : low + width ≤ w) (word : BitVec w) :
    (get low width word).toNat = word.toNat / 2 ^ low % 2 ^ width := by
  rw [get, toNat_and_ones (by omega), BitVec.toNat_ushiftRight, Nat.shiftRight_eq_div_pow]

/-- What fits into a field is not cut. -/
theorem and_ones {width : ℕ} (fits : width ≤ w) {v : BitVec w} (small : v.toNat < 2 ^ width) : v &&& ones w width = v := by
  apply BitVec.eq_of_toNat_eq
  rw [toNat_and_ones fits, Nat.mod_eq_of_lt small]

end Ehub.Fields
