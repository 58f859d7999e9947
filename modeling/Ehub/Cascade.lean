import Mathlib

/-!
A schedule whose rounds double in length. A round has a number of slots, and items of its
own to be placed in them; what has been left over by the round before comes up twice, as
this round is twice as long. The items are spread evenly over the slots, and what does not
come out even is left over for the next round. An item costs its size and an overhead;
only the largest of each in a round are known, and they are charged for every item.

`used` is what the items cost in each slot. It never understates the items that have come
in: the rounds cover what all of them cost over the whole time (`Covers.round`).
-/
namespace Ehub.Cascade

/-- The items that come in with a round. -/
structure Level where
  count : ℕ
  size : ℕ
  overhead : ℕ

/-- The schedule so far: the items left over, what each of them is charged, and what the
    items placed cost in a slot. -/
structure Schedule where
  left : ℕ
  size : ℕ
  overhead : ℕ
  used : ℕ

/-- Once items of this round have been placed, all the older ones have been. -/
def Schedule.round (s : Schedule) (slots : ℕ) (level : Level) : Schedule :=
  let items := 2 * s.left + level.count
  let size := max s.size level.size
  let overhead := max s.overhead level.overhead
  let placed := items / slots
  let left := items % slots
  { left
    size := if left = 0 then 0 else if 0 < placed then level.size else size
    overhead := if left = 0 then 0 else if 0 < placed then level.overhead else overhead
    used := s.used + placed * (overhead + size) }

/-- The schedule pays for a cost over the slots of a round. -/
structure Covers (slots cost : ℕ) (s : Schedule) : Prop where
  rest : s.left < slots
  paid : cost ≤ s.used * slots + s.left * (s.size + s.overhead)

/-- What is charged for the items that come up in a round, the older ones at `old` each
    and those of its own at `new`: as soon as anything is placed, all the older ones are. -/
theorem charged {left slots old new full : ℕ} (count : ℕ) (rest : left < slots) (older : old ≤ full) (newer : new ≤ full) :
    2 * left * old + count * new ≤ (2 * left + count) / (2 * slots) * (2 * slots) * full +
      (2 * left + count) % (2 * slots) *
        if (2 * left + count) % (2 * slots) = 0 then 0 else if 0 < (2 * left + count) / (2 * slots) then new else full := by
  have split := Nat.div_add_mod' (2 * left + count) (2 * slots)
  set placed := (2 * left + count) / (2 * slots)
  set beyond := (2 * left + count) % (2 * slots)
  have all : 2 * left * old + count * new ≤ (placed * (2 * slots) + beyond) * full := by
    rw [split, add_mul]
    exact Nat.add_le_add (Nat.mul_le_mul_left _ older) (Nat.mul_le_mul_left _ newer)
  by_cases even : beyond = 0
  · rw [even, add_zero] at all
    rwa [even, zero_mul, add_zero]
  · rw [if_neg even]
    by_cases fresh : 0 < placed
    · have one : 1 * (2 * slots) ≤ placed * (2 * slots) := Nat.mul_le_mul_right _ fresh
      obtain ⟨more, enough⟩ := Nat.exists_eq_add_of_le (show 2 * left ≤ placed * (2 * slots) by omega)
      have own : count = more + beyond := by omega
      have first := Nat.mul_le_mul_left (2 * left) older
      have second := Nat.mul_le_mul_left more newer
      rw [if_pos fresh, enough, own, add_mul, add_mul]
      omega
    · rwa [if_neg fresh, ← add_mul]

theorem Covers.round {slots cost : ℕ} {s : Schedule} (covers : Covers slots cost s) (level : Level) :
    Covers (2 * slots) (2 * cost + level.count * (level.size + level.overhead)) (s.round (2 * slots) level) := by
  have positive : 0 < 2 * slots := by
    have := covers.rest
    omega
  refine ⟨Nat.mod_lt _ positive, ?_⟩
  have older : s.size + s.overhead ≤ max s.size level.size + max s.overhead level.overhead := by omega
  have newer : level.size + level.overhead ≤ max s.size level.size + max s.overhead level.overhead := by omega
  have items := charged level.count covers.rest older newer
  have paid := Nat.mul_le_mul_left 2 covers.paid
  have charges : (s.round (2 * slots) level).size + (s.round (2 * slots) level).overhead =
      if (2 * s.left + level.count) % (2 * slots) = 0 then 0
      else if 0 < (2 * s.left + level.count) / (2 * slots) then level.size + level.overhead
      else max s.size level.size + max s.overhead level.overhead := by
    simp only [Schedule.round]
    split_ifs <;> rfl
  rw [charges]
  calc 2 * cost + level.count * (level.size + level.overhead)
      ≤ s.used * (2 * slots) + (2 * s.left * (s.size + s.overhead) + level.count * (level.size + level.overhead)) := by
        linarith
    _ ≤ s.used * (2 * slots) + _ := Nat.add_le_add_left items _
    _ = _ := by
        unfold Schedule.round
        ring

/-- What is left over in the end is charged to every slot. -/
theorem Covers.total {slots cost : ℕ} {s : Schedule} (covers : Covers slots cost s) :
    cost ≤ (s.used + if 0 < s.left then s.overhead + s.size else 0) * slots := by
  have paid := covers.paid
  have rest := covers.rest
  by_cases some : 0 < s.left
  · have most := Nat.mul_le_mul_right (s.size + s.overhead) rest.le
    rw [if_pos some]
    linarith
  · have none : s.left = 0 := by omega
    rw [none, zero_mul, add_zero] at paid
    rwa [if_neg some, add_zero]

end Ehub.Cascade
