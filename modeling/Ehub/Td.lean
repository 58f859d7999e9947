import Mathlib
import Ehub.RingFifo

/-!
Transfer descriptors, the units of work that the driver queues: a TD is the stretch of
the ring from its first to its last TRB. `td_to_noop` takes the work out of a TD that
the controller must not execute any more; it leaves the links where they are, and the
ring keeps its shape.
-/
namespace Ehub

/-- `struct xhci_td`: which TD of which URB it is, and where it lies on the ring. -/
structure Td where
  urb : Nat
  index : Nat
  firstTrb : TrbPtr
  lastTrb : TrbPtr
deriving DecidableEq

namespace Ring

/-- What `td_to_noop` makes of the TRB `t` at `p`. -/
def noopTrb (flipCycle : Bool) (firstTrb lastTrb p : TrbPtr) (t : Trb) : Trb :=
  if t.isLink then
    if flipCycle then (t.setChain false).flipCycle else t.setChain false
  else if flipCycle ∧ p ≠ firstTrb ∧ p ≠ lastTrb then t.toNoop.flipCycle
  else t.toNoop

/-- The loop of `td_to_noop`. -/
def tdToNoopLoop (flipCycle : Bool) (firstTrb lastTrb : TrbPtr) : Nat → TrbPtr → Ring → Ring
  | 0, _, r => r
  | fuel + 1, p, r =>
    let r := r.modifyTrb p (noopTrb flipCycle firstTrb lastTrb p)
    if p = lastTrb then r else tdToNoopLoop flipCycle firstTrb lastTrb fuel (r.nextTrb p) r

/-- `td_to_noop`. -/
def tdToNoop (r : Ring) (firstTrb lastTrb : TrbPtr) (flipCycle : Bool) : Ring :=
  tdToNoopLoop flipCycle firstTrb lastTrb (trbsPerSegment * r.numSegs) firstTrb r

section
variable (flipCycle : Bool) (first last p : TrbPtr) (t : Trb)

@[simp] theorem isLink_noopTrb : (noopTrb flipCycle first last p t).isLink = t.isLink := by
  rw [noopTrb]
  split_ifs with isLink <;> simp [isLink]

theorem sameLink_noopTrb (isLink : t.isLink = true) : RingShape.SameLink t (noopTrb flipCycle first last p t) := by
  rw [noopTrb, if_pos isLink]
  split_ifs
  · exact ⟨by simp, by simp, by simp⟩
  · exact ⟨by simp, by simp, by simp⟩

/-- The cycle bit changes in links, and in the TRBs between the first and the last. -/
theorem cycle_noopTrb : (noopTrb flipCycle first last p t).cycle =
    (t.cycle ^^ (flipCycle && (t.isLink || (decide (p ≠ first) && decide (p ≠ last))))) := by
  rw [noopTrb]
  by_cases isFirst : p = first <;> by_cases isLast : p = last <;> cases flipCycle <;> cases isLink : t.isLink <;>
    simp [isFirst, isLast]

end

end Ring

namespace RingShape
open Ehub.Lap Ehub.Ring Ehub.Segments

theorem Shape.noopTrb {r : Ring} {lap : List TrbPtr} (shape : Shape r lap) (flipCycle : Bool) (first last p : TrbPtr) :
    Shape (r.modifyTrb p (Ring.noopTrb flipCycle first last p)) lap := by
  refine shape.edit rfl rfl rfl rfl ?_ ?_
  · intro x _
    rw [trb_modifyTrb]
    split_ifs with same
    · rw [isLink_noopTrb, same]
    · rfl
  · intro x member onLink
    rw [trb_modifyTrb]
    split_ifs with same
    · have isLink := (shape.links x member).mpr onLink
      rw [same] at isLink ⊢
      have kept := sameLink_noopTrb flipCycle first last p (r.trb p) isLink
      exact ⟨kept.segmentPtr, kept.toggle⟩
    · exact ⟨rfl, rfl⟩

/-- `td_to_noop` edits the TRBs from the first to the last one. -/
theorem tdToNoopLoop_eq (flipCycle : Bool) (first last : TrbPtr) : ∀ {mid front back : List TrbPtr} {r : Ring} {p : TrbPtr}
    {fuel : Nat}, Shape r (front ++ (mid ++ last :: back)) → (mid ++ last :: back).head? = some p → mid.length < fuel →
    ∃ trbs, tdToNoopLoop flipCycle first last fuel p r = { r with trbs := trbs } ∧
      Shape (tdToNoopLoop flipCycle first last fuel p r) (front ++ (mid ++ last :: back)) ∧
      ∀ x, (tdToNoopLoop flipCycle first last fuel p r).trb x =
        if x ∈ mid ++ [last] then noopTrb flipCycle first last x (r.trb x) else r.trb x := by
  intro mid
  induction mid with
  | nil =>
    intro front back r p fuel shape start room
    obtain ⟨n, rfl⟩ : ∃ n, fuel = n + 1 := ⟨fuel - 1, by simp at room; omega⟩
    have is_p : p = last := by simpa using start.symm
    subst is_p
    rw [tdToNoopLoop, if_pos rfl]
    refine ⟨_, rfl, shape.noopTrb _ _ _ _, ?_⟩
    intro x
    rw [trb_modifyTrb]
    by_cases same : x = p
    · simp [same]
    · simp [same]
  | cons y mid ih =>
    intro front back r p fuel shape start room
    obtain ⟨n, rfl⟩ : ∃ n, fuel = n + 1 := ⟨fuel - 1, by simp at room; omega⟩
    have is_y : y = p := by simpa using start
    subst is_y
    have distinct := shape.isLap.1
    have other : y ≠ last := by
      rintro rfl
      have := (List.nodup_append.mp distinct).2.1
      simp at this
    have notBehind : y ∉ mid ++ [last] := by
      have := (List.nodup_append.mp distinct).2.1
      rw [List.cons_append, List.nodup_cons] at this
      intro member
      apply this.1
      simp only [List.mem_append, List.mem_cons, List.not_mem_nil, or_false] at member ⊢
      exact member.imp_right .inl
    rw [tdToNoopLoop, if_neg other]
    have shape' := shape.noopTrb flipCycle first last y
    have step : (mid ++ last :: back).head? = some ((r.modifyTrb y (noopTrb flipCycle first last y)).nextTrb y) := by
      rw [shape'.nextTrb_eq (by simp)]
      show (mid ++ last :: back).head? = some (follow r.next y)
      have := shape.isLap.next_eq
      cases mid <;> simpa using this
    have moved : Shape (r.modifyTrb y (noopTrb flipCycle first last y)) ((front ++ [y]) ++ (mid ++ last :: back)) := by
      simpa using shape'
    obtain ⟨trbs, eq, kept, read⟩ := ih moved step (by simpa using room)
    refine ⟨trbs, by rw [eq]; rfl, by simpa using kept, ?_⟩
    intro x
    rw [read x, trb_modifyTrb]
    by_cases same : x = y
    · subst same
      rw [if_neg notBehind, if_pos rfl, if_pos (by simp)]
    · rw [if_neg same]
      simp [same]

theorem tdToNoop_eq (flipCycle : Bool) {first last : TrbPtr} {mid front back : List TrbPtr} {r : Ring}
    (shape : Shape r (front ++ (mid ++ last :: back))) (start : (mid ++ last :: back).head? = some first) :
    ∃ trbs, r.tdToNoop first last flipCycle = { r with trbs := trbs } ∧
      Shape (r.tdToNoop first last flipCycle) (front ++ (mid ++ last :: back)) ∧
      ∀ x, (r.tdToNoop first last flipCycle).trb x =
        if x ∈ mid ++ [last] then noopTrb flipCycle first last x (r.trb x) else r.trb x := by
  refine tdToNoopLoop_eq flipCycle first last shape start ?_
  have size := shape.size
  simp only [List.length_append, List.length_cons] at size
  simp only [trbsPerSegment]
  omega

end RingShape

end Ehub
