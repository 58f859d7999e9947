import Mathlib

/-!
Memory as bytes. A block of memory holds a byte at every offset and keeps the offsets that
have been written (`touched`), whether they lie inside the block or not. Bytes are written
in stretches (`fill`) and in little-endian words (`setWord`).
-/
namespace Ehub.Bytes

structure Memory where
  byte : Nat → BitVec 8
  touched : List Nat

/-- Memory before it is written. -/
def unwritten (byte : Nat → BitVec 8) : Memory := ⟨byte, []⟩

/-- The `n` bytes from `first` on are written. -/
def Memory.fill (b : Memory) (first n : Nat) (f : Nat → BitVec 8) : Memory :=
  ⟨fun o => if first ≤ o ∧ o < first + n then f (o - first) else b.byte o, List.range' first n ++ b.touched⟩

/-- The 32-bit word at an offset. -/
def Memory.word (b : Memory) (o : Nat) : BitVec 32 := b.byte (o + 3) ++ b.byte (o + 2) ++ b.byte (o + 1) ++ b.byte o

def Memory.setWord (b : Memory) (o : Nat) (w : BitVec 32) : Memory := b.fill o 4 fun i => w.extractLsb' (8 * i) 8

section
variable (b : Memory) (first n o : Nat) (f : Nat → BitVec 8) (w : BitVec 32)

theorem byte_fill : (b.fill first n f).byte o = if first ≤ o ∧ o < first + n then f (o - first) else b.byte o := rfl

theorem byte_fill_at {i : Nat} (inside : i < n) : (b.fill first n f).byte (first + i) = f i := by
  rw [byte_fill, if_pos (by omega), Nat.add_sub_cancel_left]

theorem byte_fill_other {o : Nat} (outside : o < first ∨ first + n ≤ o) : (b.fill first n f).byte o = b.byte o := by
  rw [byte_fill, if_neg (by omega)]

@[simp] theorem mem_touched_fill : o ∈ (b.fill first n f).touched ↔ (first ≤ o ∧ o < first + n) ∨ o ∈ b.touched := by
  simp [Memory.fill]

@[simp] theorem mem_touched_setWord {i : Nat} : i ∈ (b.setWord o w).touched ↔ (o ≤ i ∧ i < o + 4) ∨ i ∈ b.touched :=
  mem_touched_fill b o 4 i _

theorem byte_setWord {i : Nat} (inside : i < 4) : (b.setWord o w).byte (o + i) = w.extractLsb' (8 * i) 8 :=
  byte_fill_at b o 4 _ inside

/-- What is written as a word is read as one. -/
theorem word_setWord : (b.setWord o w).word o = w := by
  have low := byte_setWord b o w (i := 0) (by omega)
  rw [Nat.add_zero] at low
  rw [Memory.word, byte_setWord b o w (by omega), byte_setWord b o w (by omega), byte_setWord b o w (by omega), low]
  apply BitVec.eq_of_getLsbD_eq
  intro i inside
  simp only [BitVec.getLsbD_append, BitVec.getLsbD_extractLsb']
  split_ifs <;> simp <;> grind

/-- Bytes written elsewhere do not change a word. -/
theorem word_fill_other (outside : o + 4 ≤ first ∨ first + n ≤ o) : (b.fill first n f).word o = b.word o := by
  rw [Memory.word, Memory.word, byte_fill_other _ _ _ _ (by omega), byte_fill_other _ _ _ _ (by omega),
    byte_fill_other _ _ _ _ (by omega), byte_fill_other _ _ _ _ (by omega)]

theorem word_setWord_other {i : Nat} (outside : i + 4 ≤ o ∨ o + 4 ≤ i) : (b.setWord o w).word i = b.word i :=
  word_fill_other b o 4 i _ (by omega)

end

end Ehub.Bytes
