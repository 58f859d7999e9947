import Mathlib

/-!
Tables whose slots hold blocks of a heap. A loop over a table that looks at one slot at a
time, changes it and frees some blocks, is a `sweep`; what it does to a slot does not
depend on the others (`sweep_slot`, `sweep_log`).

What the slots add up to changes by what one slot does (`sum_change`).

`Sound` says of all the places that can hold a block that a block is held by one of them
at most and has not been freed then, and that nothing has been freed twice. It is kept
when a fresh block is put somewhere (`Sound.allocate`) and when blocks move between
places while others are freed (`Sound.relocate`).
-/
namespace Ehub.Slots

section Sweep
variable {ι α β : Type*} [DecidableEq ι]

/-- A loop over slots with a log of what has been freed. -/
def sweep (visit : ι → α → α × List β) : List ι → (ι → α) → List β → (ι → α) × List β
  | [], slots, log => (slots, log)
  | i :: rest, slots, log =>
    let (slot, gone) := visit i (slots i)
    sweep visit rest (Function.update slots i slot) (log ++ gone)

variable {visit : ι → α → α × List β}

theorem sweep_slot : ∀ {order : List ι} (slots : ι → α) (log : List β), order.Nodup → ∀ j,
    (sweep visit order slots log).1 j = if j ∈ order then (visit j (slots j)).1 else slots j := by
  intro order
  induction order with
  | nil =>
    intro slots log _ j
    rw [if_neg List.not_mem_nil]
    rfl
  | cons i rest ih =>
    intro slots log distinct j
    obtain ⟨fresh, distinct⟩ := List.nodup_cons.mp distinct
    rw [sweep, ih _ _ distinct]
    by_cases same : j = i
    · subst same
      simp [fresh]
    · simp [same]

theorem sweep_log : ∀ {order : List ι} (slots : ι → α) (log : List β), order.Nodup →
    (sweep visit order slots log).2 = log ++ order.flatMap fun i => (visit i (slots i)).2 := by
  intro order
  induction order with
  | nil => exact fun slots log _ => (List.append_nil log).symm
  | cons i rest ih =>
    intro slots log distinct
    obtain ⟨fresh, distinct⟩ := List.nodup_cons.mp distinct
    have later : ∀ j ∈ rest, (visit j (Function.update slots i (visit i (slots i)).1 j)).2 = (visit j (slots j)).2 := by
      intro j listed
      have other : j ≠ i := ne_of_mem_of_not_mem listed fresh
      rw [Function.update_of_ne other]
    rw [sweep, ih _ _ distinct, List.flatMap_cons, List.append_assoc]
    exact congrArg _ (congrArg _ (List.flatMap_congr later))

end Sweep

section Count

/-- A sum over slots of which one has changed. -/
theorem sum_change {ι : Type*} [DecidableEq ι] (slots : Finset ι) (weight weight' : ι → ℕ) {i : ι} (inside : i ∈ slots)
    (others : ∀ j ∈ slots, j ≠ i → weight' j = weight j) :
    ∑ j ∈ slots, weight' j + weight i = ∑ j ∈ slots, weight j + weight' i := by
  have same : ∑ j ∈ slots.erase i, weight' j = ∑ j ∈ slots.erase i, weight j := by
    refine Finset.sum_congr rfl ?_
    intro j listed
    exact others j (Finset.mem_of_mem_erase listed) (Finset.ne_of_mem_erase listed)
  rw [← Finset.add_sum_erase slots weight' inside, ← Finset.add_sum_erase slots weight inside, same]
  omega

end Count

section Sound
variable {π : Type*} {hold : π → Option ℕ} {next : ℕ} {freed : List ℕ}

/-- Blocks are numbered in the order in which they are allocated; `next` is the number of
    the next one. -/
structure Sound (hold : π → Option ℕ) (next : ℕ) (freed : List ℕ) : Prop where
  old : ∀ {p b}, hold p = some b → b < next
  live : ∀ {p b}, hold p = some b → b ∉ freed
  one : ∀ {p q b}, hold p = some b → hold q = some b → p = q
  once : freed.Nodup
  spent : ∀ {b}, b ∈ freed → b < next

namespace Sound

theorem allocate (sound : Sound hold next freed) {hold' : π → Option ℕ} (place : π)
    (kept : ∀ {p b}, hold' p = some b → hold p = some b ∨ p = place ∧ b = next) : Sound hold' (next + 1) freed where
  old {p b} held := by
    rcases kept held with held | ⟨-, rfl⟩
    · exact (sound.old held).trans (Nat.lt_succ_self _)
    · exact Nat.lt_succ_self _
  live {p b} held := by
    rcases kept held with held | ⟨-, rfl⟩
    · exact sound.live held
    · exact fun gone => lt_irrefl _ (sound.spent gone)
  one {p q b} first second := by
    rcases kept first with first | ⟨rfl, rfl⟩ <;> rcases kept second with second | ⟨rfl, fresh⟩
    · exact sound.one first second
    · exact absurd (sound.old first) (fresh ▸ lt_irrefl _)
    · exact absurd (sound.old second) (lt_irrefl _)
    · rfl
  once := sound.once
  spent gone := (sound.spent gone).trans (Nat.lt_succ_self _)

/-- What a place holds it got from its origin; different places do not share one. -/
theorem relocate (sound : Sound hold next freed) {hold' : π → Option ℕ} (gone : List ℕ) (origin : π → π)
    (kept : ∀ {p b}, hold' p = some b → hold (origin p) = some b ∧ b ∉ gone)
    (apart : ∀ {p q b}, hold' p = some b → hold' q = some b → origin p = origin q → p = q)
    (distinct : gone.Nodup) (held : ∀ {b}, b ∈ gone → ∃ p, hold p = some b) : Sound hold' next (freed ++ gone) where
  old now := sound.old (kept now).1
  live now := by
    rw [List.mem_append, not_or]
    exact ⟨sound.live (kept now).1, (kept now).2⟩
  one first second := apart first second (sound.one (kept first).1 (kept second).1)
  once := by
    rw [List.nodup_append']
    refine ⟨sound.once, distinct, ?_⟩
    intro b before after
    obtain ⟨p, was⟩ := held after
    exact sound.live was before
  spent {b} listed := by
    rcases List.mem_append.mp listed with before | after
    · exact sound.spent before
    · obtain ⟨p, was⟩ := held after
      exact sound.old was

/-- Places can be emptied without freeing anything, and blocks can move. -/
theorem move (sound : Sound hold next freed) {hold' : π → Option ℕ} (origin : π → π)
    (kept : ∀ {p b}, hold' p = some b → hold (origin p) = some b)
    (apart : ∀ {p q b}, hold' p = some b → hold' q = some b → origin p = origin q → p = q) : Sound hold' next freed := by
  have moved := sound.relocate [] origin (fun now => ⟨kept now, List.not_mem_nil⟩) apart List.nodup_nil
    (fun listed => absurd listed List.not_mem_nil)
  rwa [List.append_nil] at moved

/-- A loop that frees at most what each of some places holds frees no block twice. -/
theorem gone_nodup (sound : Sound hold next freed) {ι : Type*} {order : List ι} (distinct : order.Nodup) (place : ι → π)
    (injective : Function.Injective place) {gone : ι → List ℕ}
    (source : ∀ {i b}, b ∈ gone i → gone i = [b] ∧ hold (place i) = some b) : (order.flatMap gone).Nodup := by
  rw [List.nodup_flatMap]
  refine ⟨?_, ?_⟩
  · intro i _
    rcases empty : gone i with _ | ⟨b, rest⟩
    · exact List.nodup_nil
    · have single := (source (i := i) (b := b) (by rw [empty]; exact List.mem_cons_self)).1
      rw [← empty, single]
      exact List.nodup_singleton b
  · refine distinct.imp ?_
    intro i j different b inFirst inSecond
    exact different (injective (sound.one (source inFirst).2 (source inSecond).2))

end Sound
end Sound

end Ehub.Slots
