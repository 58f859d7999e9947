import Mathlib

/-!
A lock with one unit. Somebody who finds the unit takes it and is inside until he puts
it back; then nobody is ever inside together with somebody else, and there is never
more than one unit.
-/
namespace Ehub.Exclusion

section
variable {ι : Type*} {count : Nat} {inside inside' : ι → Prop} {i j : ι}

/-- The unit is there and nobody is inside, or one is inside and has it. -/
def Exclusive (count : Nat) (inside : ι → Prop) : Prop :=
  (count = 1 ∧ ∀ i, ¬inside i) ∨ (count = 0 ∧ ∃ i, inside i ∧ ∀ j, inside j → j = i)

theorem Exclusive.le_one (exclusive : Exclusive count inside) : count ≤ 1 := by
  rcases exclusive with ⟨one, _⟩ | ⟨zero, _⟩ <;> omega

theorem Exclusive.unique (exclusive : Exclusive count inside) (one : inside i) (two : inside j) : i = j := by
  rcases exclusive with ⟨_, nobody⟩ | ⟨_, holder, _, only⟩
  · exact absurd one (nobody i)
  · rw [only i one, only j two]

theorem Exclusive.congr (exclusive : Exclusive count inside) (same : ∀ i, inside' i ↔ inside i) : Exclusive count inside' := by
  have is_inside : inside' = inside := funext fun i => propext (same i)
  rwa [is_inside]

theorem Exclusive.enter (exclusive : Exclusive count inside) (free : 0 < count) (same : ∀ j, inside' j ↔ inside j ∨ j = i) :
    Exclusive (count - 1) inside' := by
  rcases exclusive with ⟨one, nobody⟩ | ⟨zero, _⟩
  · refine .inr ⟨by omega, i, (same i).mpr (.inr rfl), ?_⟩
    intro j member
    exact ((same j).mp member).resolve_left (nobody j)
  · omega

theorem Exclusive.leave (exclusive : Exclusive count inside) (was : inside i) (same : ∀ j, inside' j ↔ inside j ∧ j ≠ i) :
    Exclusive (count + 1) inside' := by
  rcases exclusive with ⟨_, nobody⟩ | ⟨zero, holder, _, only⟩
  · exact absurd was (nobody i)
  · refine .inl ⟨by omega, ?_⟩
    intro j member
    obtain ⟨inJ, other⟩ := (same j).mp member
    exact other ((only j inJ).trans (only i was).symm)

end

end Ehub.Exclusion
