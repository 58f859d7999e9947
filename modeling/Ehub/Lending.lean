import Mathlib

/-!
Things that are lent out. A lender keeps two lists, of those that are free and of those
that are busy. Whatever is taken comes from the front of the free list and goes to the
end of the busy one, and it comes back to the end of the free list. As long as nothing is
added that is on a list already, every thing is on at most one list and only once
(`Tidy`), and what is out with somebody is not free.
-/
namespace Ehub.Lending

/-- Two doubly linked lists that share their nodes. -/
structure Lender (α : Type*) where
  free : List α
  busy : List α

section
variable {α : Type*}

/-- Links a node that is on no list. -/
def Lender.addFree (l : Lender α) (a : α) : Lender α := { l with free := l.free ++ [a] }

/-- Each thing is on one list at most, and what is out is not free. -/
structure Tidy (l : Lender α) (out : α → Prop) : Prop where
  nodup : (l.free ++ l.busy).Nodup
  kept : ∀ a, out a → a ∉ l.free

variable {l : Lender α} {out out' : α → Prop} {a b : α}

/-- Whatever is not free may go out. -/
theorem Tidy.lend (tidy : Tidy l out) (only : ∀ a, out' a → out a ∨ a ∉ l.free) : Tidy l out' := by
  refine ⟨tidy.nodup, fun a isOut => ?_⟩
  rcases only a isOut with old | busy
  · exact tidy.kept a old
  · exact busy

theorem Tidy.nodup_free (tidy : Tidy l out) : l.free.Nodup := (List.nodup_append.mp tidy.nodup).1

theorem Tidy.nodup_busy (tidy : Tidy l out) : l.busy.Nodup := (List.nodup_append.mp tidy.nodup).2.1

theorem mem_addFree : b ∈ (l.addFree a).free ++ (l.addFree a).busy ↔ b = a ∨ b ∈ l.free ++ l.busy := by
  show b ∈ (l.free ++ [a]) ++ l.busy ↔ _
  simp only [List.mem_append, List.mem_singleton]
  tauto

theorem Tidy.addFree (tidy : Tidy l out) (unlinked : a ∉ l.free ++ l.busy) (home : ¬out a) : Tidy (l.addFree a) out := by
  constructor
  · have same : ((l.addFree a).free ++ (l.addFree a).busy).Perm (a :: (l.free ++ l.busy)) := by
      show ((l.free ++ [a]) ++ l.busy).Perm _
      rw [List.append_assoc]
      exact List.perm_middle
    exact same.nodup_iff.mpr (List.nodup_cons.mpr ⟨unlinked, tidy.nodup⟩)
  · intro b isOut inFree
    rcases List.mem_append.mp inFree with old | new
    · exact tidy.kept b isOut old
    · cases List.mem_singleton.mp new
      exact home isOut

variable [DecidableEq α]

/-- Unlinks the node from the list it is on. -/
def Lender.remove (l : Lender α) (a : α) : Lender α := ⟨l.free.erase a, l.busy.erase a⟩

def Lender.moveBusy (l : Lender α) (a : α) : Lender α := { l.remove a with busy := (l.remove a).busy ++ [a] }

def Lender.moveFree (l : Lender α) (a : α) : Lender α := (l.remove a).addFree a

theorem Tidy.mem_remove (tidy : Tidy l out) :
    b ∈ (l.remove a).free ++ (l.remove a).busy ↔ b ≠ a ∧ b ∈ l.free ++ l.busy := by
  rw [Lender.remove, List.mem_append, tidy.nodup_free.mem_erase_iff, tidy.nodup_busy.mem_erase_iff, List.mem_append]
  tauto

theorem Tidy.remove (tidy : Tidy l out) (a : α) : Tidy (l.remove a) out := by
  constructor
  · have apart := (List.nodup_append.mp tidy.nodup).2.2
    refine List.nodup_append.mpr ⟨tidy.nodup_free.erase a, tidy.nodup_busy.erase a, ?_⟩
    intro b inFree c inBusy
    exact apart b (List.mem_of_mem_erase inFree) c (List.mem_of_mem_erase inBusy)
  · intro b isOut inFree
    exact tidy.kept b isOut (List.mem_of_mem_erase inFree)

theorem Tidy.mem_moveBusy (tidy : Tidy l out) :
    b ∈ (l.moveBusy a).free ++ (l.moveBusy a).busy ↔ b = a ∨ b ∈ l.free ++ l.busy := by
  show b ∈ (l.remove a).free ++ ((l.remove a).busy ++ [a]) ↔ _
  rw [← List.append_assoc, List.mem_append, tidy.mem_remove, List.mem_singleton]
  tauto

theorem Tidy.moveBusy (tidy : Tidy l out) (a : α) : Tidy (l.moveBusy a) out := by
  have removed := tidy.remove a
  constructor
  · show ((l.remove a).free ++ ((l.remove a).busy ++ [a])).Nodup
    rw [← List.append_assoc]
    refine List.nodup_append.mpr ⟨removed.nodup, List.nodup_singleton a, ?_⟩
    intro b member c isLast
    cases List.mem_singleton.mp isLast
    exact (tidy.mem_remove.mp member).1
  · exact removed.kept

theorem Tidy.not_free (tidy : Tidy l out) : a ∉ (l.moveBusy a).free := by
  intro inFree
  exact (tidy.nodup_free.mem_erase_iff.mp inFree).1 rfl

theorem Tidy.mem_moveFree (tidy : Tidy l out) :
    b ∈ (l.moveFree a).free ++ (l.moveFree a).busy ↔ b = a ∨ b ∈ l.free ++ l.busy := by
  rw [Lender.moveFree, mem_addFree, tidy.mem_remove]
  tauto

theorem Tidy.moveFree (tidy : Tidy l out) (home : ¬out a) : Tidy (l.moveFree a) out := by
  refine (tidy.remove a).addFree ?_ home
  intro member
  exact (tidy.mem_remove.mp member).1 rfl

end

end Ehub.Lending
