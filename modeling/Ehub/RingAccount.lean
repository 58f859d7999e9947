import Mathlib
import Ehub.Run
import Ehub.RingGrow

/-!
The accounting of free TRBs. `num_trbs_free` and the TRBs between `dequeue` and
`enqueue` always make up the ring but for one TRB, whatever the driver does with the
ring, as long as `dequeue` has not run past the link on which `enqueue` rests; and the
room that `prepare_ring` leaves keeps `enqueue` out of the segment of `dequeue`.
The invariant is that a segment's worth of free TRBs, as far as `dequeue` has come in
its segment, stays beyond those that have been reserved (`Inv`).
-/
namespace Ehub.RingAccount
open Ehub.Lap Ehub.Segments Ehub.Ring Ehub.RingShape

/-- The TRBs from `dequeue` up to and without `target`. -/
def span (r : Ring) (target : TrbPtr) : List TrbPtr :=
  walk r.nextTrb target (trbsPerSegment * r.numSegs) r.dequeue

/-- The number of those that are no links. -/
def spanned (r : Ring) (target : TrbPtr) : Nat := (span r target).countP fun p => !(r.trb p).isLink

/-- The counter agrees with the pointers, and on a transfer ring `enqueue` is not in the
    segment of `dequeue` unless it never left it. -/
def Accounted (r : Ring) : Prop :=
  r.numTrbsFree + spanned r r.enqueue = 63 * r.numSegs - 1 ∧ 0 ≤ r.numTrbsFree ∧
  (r.type ≠ .command → r.enqueue.seg = r.dequeue.seg → ∀ p ∈ span r r.enqueue, p.seg = r.dequeue.seg)

/-- A ring between two calls, with the number of TRBs that the last `prepare_ring` made
    room for and that have not been queued yet, and the number of TRBs that have been
    queued and not been consumed. -/
structure State where
  ring : Ring
  reserved : Nat
  pending : Nat

inductive Op where
  | prepareRing (epState numTrbs : Nat) (answers : List Answers) (status : Int)
  | queueTrb (moreTrbsComing : Bool) (t : Trb)
  | incDeq
  | ringExpansion (numTrbs : Nat) (answers : Answers)
  | setDeq (queuedDeqPtr : TrbPtr)

def State.step (q : Quirks) (s : State) : Op → State
  | .prepareRing epState numTrbs answers status =>
    match s.ring.prepareRing q epState numTrbs answers status with
    | (error, ring) => { s with ring, reserved := if error = 0 then numTrbs else 0 }
  | .queueTrb more t => ⟨s.ring.queueTrb q more t, s.reserved - 1, s.pending + 1⟩
  | .incDeq =>
    { s with ring := s.ring.incDeq, pending := if s.ring.lastTrb s.ring.dequeue then s.pending else s.pending - 1 }
  | .ringExpansion numTrbs answers =>
    match s.ring.ringExpansion q numTrbs answers with
    | none => s
    | some ring => { s with ring }
  | .setDeq target =>
    { s with
      ring := s.ring.updateRingForSetDeqCompletion target
      pending := s.pending - spanned s.ring target }

/-- Allocated segments are new: distinct, and not on the ring. -/
def Fresh (r : Ring) (segs : List Addr) : Prop :=
  segs.Nodup ∧ ∀ p ∈ List.iterate r.nextTrb r.enqueue (trbsPerSegment * r.numSegs), p.seg ∉ segs

/-- What the callers promise. TRBs are queued where `prepare_ring` made room for them,
    and only pending TRBs are consumed; `prepare_ring` never expands a command ring. -/
def Op.Allowed (s : State) : Op → Prop
  | .prepareRing _ _ answers _ => Fresh s.ring (answers.flatMap Answers.segs)
  | .queueTrb _ t => 0 < s.reserved ∧ (s.ring.trb s.ring.enqueue).isLink = false ∧ t.isLink = false
  | .incDeq => 0 < s.pending
  | .ringExpansion _ answers => s.ring.type ≠ .command ∧ Fresh s.ring answers.segs
  | .setDeq target => ¬Overtaken s.ring ∧ target ∈ (span s.ring s.ring.enqueue ++ [s.ring.enqueue]).tail

/-- The ring is not expanded while `dequeue` is past the link on which `enqueue` rests,
    and no write of a link TRB raises the error that leaves an expansion half done. -/
def Careful (s : State) : Op → Prop
  | .prepareRing _ numTrbs answers _ =>
    (Overtaken s.ring → s.ring.numTrbsNeeded numTrbs < 1) ∧ ∀ a ∈ answers, ∀ i, a.write i ≠ .error
  | .ringExpansion _ answers => ¬Overtaken s.ring ∧ ∀ i, answers.write i ≠ .error
  | _ => True

/-- A ring as `xhci_ring_alloc` makes it, with nothing queued. -/
def New (q : Quirks) (s : State) : Prop :=
  ∃ numSegs cycleState type answers, type ≠ .event ∧ answers.segs.Nodup ∧
    ringAlloc q numSegs cycleState type answers = some s.ring ∧ s.reserved = 0 ∧ s.pending = 0

/-- `s` is reached from a new ring by allowed calls that all meet a condition. -/
def Reachable (q : Quirks) (condition : State → Op → Prop) (s : State) : Prop :=
  Run.Reachable (New q) (fun s op => Op.Allowed s op ∧ condition s op) (State.step q) s

instance (r : Ring) (segs : List Addr) : Decidable (Fresh r segs) := inferInstanceAs (Decidable (_ ∧ _))

instance (s : State) : (op : Op) → Decidable (op.Allowed s)
  | .prepareRing _ _ answers _ => inferInstanceAs (Decidable (Fresh s.ring (answers.flatMap Answers.segs)))
  | .queueTrb _ _ => inferInstanceAs (Decidable (_ ∧ _))
  | .incDeq => inferInstanceAs (Decidable (_ < _))
  | .ringExpansion _ _ => inferInstanceAs (Decidable (_ ∧ _))
  | .setDeq _ => inferInstanceAs (Decidable (_ ∧ _))

/-- How far `dequeue` has come in its segment, which on a transfer ring stays free. -/
def slack (r : Ring) : Nat := if r.type = .command then 0 else r.dequeue.idx

/-- The TRBs reserved and the slack are free, and one more. -/
structure Inv (s : State) (busy idle : List TrbPtr) : Prop where
  queue : Queue s.ring busy idle
  pending : s.pending = nonlinks busy
  room : s.reserved + slack s.ring + 1 ≤ nonlinks idle

theorem numTrbsNeeded_lt {r : Ring} (notEvent : r.type ≠ .event) (numTrbs : Nat) :
    r.numTrbsNeeded numTrbs < 1 ↔ (numTrbs + slack r : Int) ≤ r.numTrbsFree := by
  rw [Ring.numTrbsNeeded, slack]
  by_cases command : r.type = .command
  · simp only [command, ne_eq, not_true_eq_false, false_and, if_false, if_true]
    split_ifs <;> omega
  · simp only [command, if_false, notEvent, ne_eq, not_false_eq_true, and_self, if_true]
    split_ifs <;> omega

/-! ### The pointers and the stretches -/

theorem span_eq {r : Ring} {front rest : List TrbPtr} {target : TrbPtr} (shape : Shape r (front ++ target :: rest))
    (first : (front ++ target :: rest).head? = some r.dequeue) : span r target = front := by
  have isLap : IsLap r.nextTrb (front ++ target :: rest) := shape.isLap.congr fun p member => shape.nextTrb_eq member
  refine walk_eq isLap first ?_
  have size := shape.size
  simp only [List.length_append, List.length_cons] at size
  simp only [trbsPerSegment]
  omega

theorem spanned_eq {r : Ring} {front rest : List TrbPtr} {target : TrbPtr} (shape : Shape r (front ++ target :: rest))
    (first : (front ++ target :: rest).head? = some r.dequeue) : spanned r target = nonlinks front := by
  rw [spanned, span_eq shape first, nonlinks]
  refine List.countP_congr ?_
  intro p member
  have links := shape.links p (List.mem_append_left _ member)
  by_cases onLink : p.idx = 63
  · simp [onLink, links.mpr onLink]
  · have : (r.trb p).isLink = false := by simpa using mt links.mp onLink
    simp [onLink, this]

theorem inOrder_of {r : Ring} {busy idle : List TrbPtr} (queue : Queue r busy idle) (ahead : ¬Overtaken r) :
    (busy ++ idle).head? = some r.dequeue := by
  rcases queue.dequeue with inOrder | ⟨_, onLink, behind⟩
  · exact inOrder
  · refine absurd ⟨?_, ?_⟩ ahead
    · exact (queue.shape.links _ queue.enqueue_mem).mpr onLink
    · rw [behind, follow, if_pos onLink]

/-- With a TRB free the two orders of the pointers exclude each other. -/
theorem not_overtaken {r : Ring} {busy idle : List TrbPtr} (queue : Queue r busy idle)
    (inOrder : (busy ++ idle).head? = some r.dequeue) (room : 1 ≤ nonlinks idle) : ¬Overtaken r := by
  intro overtaken
  have onLink := (queue.shape.links _ queue.enqueue_mem).mp overtaken.1
  obtain ⟨rest, is_idle⟩ := queue.idle_eq
  have leads : r.dequeue = follow r.next r.enqueue := by rw [overtaken.2, follow, if_pos onLink]
  have isLap := queue.shape.isLap
  rw [is_idle] at isLap inOrder room
  have step := isLap.next_eq
  cases rest with
  | nil => simp [nonlinks_cons, onLink] at room
  | cons p rest =>
    -- The TRB behind the link would be both free and the first busy one.
    have is_p : p = r.dequeue := by rw [leads]; simpa using step
    have distinct := isLap.1
    cases busy with
    | nil =>
      have same : r.enqueue = r.dequeue := by simpa using inOrder
      rw [is_p, ← same] at distinct
      simp at distinct
    | cons x busy =>
      have same : x = r.dequeue := by simpa using inOrder
      rw [is_p, same] at distinct
      simp at distinct

theorem behind_of {r : Ring} {busy idle : List TrbPtr} (queue : Queue r busy idle) (overtaken : Overtaken r)
    (room : 1 ≤ nonlinks idle) :
    busy = [] ∧ r.enqueue.idx = 63 ∧ r.dequeue = follow r.next r.enqueue := by
  rcases queue.dequeue with inOrder | behind
  · exact absurd overtaken (not_overtaken queue inOrder room)
  · exact behind

theorem Inv.behind {s : State} {busy idle : List TrbPtr} (inv : Inv s busy idle) (overtaken : Overtaken s.ring) :
    busy = [] ∧ s.ring.enqueue.idx = 63 ∧ s.ring.dequeue = follow s.ring.next s.ring.enqueue :=
  behind_of inv.queue overtaken (by have := inv.room; omega)

/-- On a transfer ring the TRBs from `dequeue` to `enqueue` stay in a segment that holds
    both. -/
theorem same_segment {r : Ring} {busy idle : List TrbPtr} (queue : Queue r busy idle)
    (inOrder : (busy ++ idle).head? = some r.dequeue) (room : r.dequeue.idx + 1 ≤ nonlinks idle)
    (same : r.enqueue.seg = r.dequeue.seg) : ∀ p ∈ busy, p.seg = r.dequeue.seg := by
  have shape := queue.shape
  have isLap := shape.isLap
  obtain ⟨rest, is_idle⟩ := queue.idle_eq
  have inEnq : r.enqueue.idx < 64 := shape.inside _ queue.enqueue_mem
  have inDeq : r.dequeue.idx < 64 := shape.inside _ (List.mem_of_mem_head? inOrder)
  have few := nonlinks_le_length idle
  by_cases ahead : r.dequeue.idx ≤ r.enqueue.idx
  · have first : (busy ++ idle).head? = some ⟨r.dequeue.seg, r.dequeue.idx⟩ := inOrder
    obtain ⟨more, split⟩ := stretch isLap first (r.enqueue.idx - r.dequeue.idx) (by omega)
    have there : (⟨r.dequeue.seg, r.dequeue.idx + (r.enqueue.idx - r.dequeue.idx)⟩ : TrbPtr) = r.enqueue := by
      rw [← same, Nat.add_sub_cancel' ahead]
    rw [there, is_idle] at split
    have distinct := isLap.1
    rw [is_idle] at distinct
    have notBefore : r.enqueue ∉ busy := by
      intro member
      exact (List.nodup_append.mp distinct).2.2 _ member _ (by simp) rfl
    have notAfter : r.enqueue ∉ rest := (List.nodup_cons.mp (List.nodup_append.mp distinct).2.1).1
    have equal := (List.append_cons_inj_of_notMem notBefore notAfter).mp split
    intro p member
    rw [equal.1] at member
    exact (mem_run member).1
  · exfalso
    have first : (idle ++ busy).head? = some ⟨r.enqueue.seg, r.enqueue.idx⟩ := by simp [is_idle]
    obtain ⟨more, split⟩ := stretch shape.swap.isLap first (r.dequeue.idx - r.enqueue.idx) (by omega)
    have there : (⟨r.enqueue.seg, r.enqueue.idx + (r.dequeue.idx - r.enqueue.idx)⟩ : TrbPtr) = r.dequeue := by
      rw [same, Nat.add_sub_cancel' (by omega)]
    rw [there] at split
    cases busy with
    | nil =>
      have : r.enqueue = r.dequeue := by simpa [is_idle] using inOrder
      rw [this] at ahead
      omega
    | cons x busy =>
      have is_x : x = r.dequeue := by simpa using inOrder
      subst is_x
      have distinct := shape.swap.isLap.1
      have notBefore : r.dequeue ∉ idle := by
        intro member
        exact (List.nodup_append.mp distinct).2.2 _ member _ (by simp) rfl
      have notAfter : r.dequeue ∉ busy := (List.nodup_cons.mp (List.nodup_append.mp distinct).2.1).1
      have equal := (List.append_cons_inj_of_notMem notBefore notAfter).mp split
      have : idle.length = r.dequeue.idx - r.enqueue.idx := by rw [equal.1]; simp [run]
      omega

/-! ### One call keeps the invariant -/

theorem mem_lap_iterate {r : Ring} {busy idle : List TrbPtr} (queue : Queue r busy idle) {p : TrbPtr}
    (member : p ∈ busy ++ idle) : p ∈ List.iterate r.nextTrb r.enqueue (trbsPerSegment * r.numSegs) := by
  have shape := queue.shape.swap
  have member' : p ∈ idle ++ busy := by simpa [or_comm] using member
  obtain ⟨a, b, split⟩ := List.append_of_mem member'
  have size := shape.size
  rw [split, List.length_append, List.length_cons] at size
  refine List.mem_iterate.mpr ⟨a.length, by rw [trbsPerSegment]; omega, ?_⟩
  have isLap : IsLap r.nextTrb ([] ++ (a ++ p :: b)) := by
    rw [List.nil_append, ← split]
    exact shape.isLap.congr fun p member => shape.nextTrb_eq member
  obtain ⟨rest, is_idle⟩ := queue.idle_eq
  exact (isLap.iterate_eq (by rw [← split, is_idle]; rfl)).symm

theorem Fresh.outside {r : Ring} {busy idle : List TrbPtr} {segs : List Addr} (fresh : Fresh r segs)
    (queue : Queue r busy idle) : ∀ p ∈ busy ++ idle, p.seg ∉ segs :=
  fun _ member => fresh.2 _ (mem_lap_iterate queue member)

/-- An expansion adds free TRBs and leaves the rest alone. -/
theorem expand_queue {q : Quirks} {r r' : Ring} {numTrbs : Nat} {answers : Answers} {busy idle : List TrbPtr}
    (queue : Queue r busy idle) (inOrder : (busy ++ idle).head? = some r.dequeue)
    (room : r.dequeue.idx + 1 ≤ nonlinks idle) (distinct : answers.segs.Nodup)
    (outside : ∀ p ∈ busy ++ idle, p.seg ∉ answers.segs) (noError : ∀ i, answers.write i ≠ .error)
    (result : ringExpansion q r numTrbs answers = some r') :
    ∃ last back idle', Expanded r r' (answers.segs.take (r.expansionSegs numTrbs)) last ∧
      idle = run r.enqueue.seg r.enqueue.idx (63 - r.enqueue.idx) ++ link r.enqueue.seg :: back ∧
      idle' = run r.enqueue.seg r.enqueue.idx (63 - r.enqueue.idx) ++
        link r.enqueue.seg :: (laid (answers.segs.take (r.expansionSegs numTrbs)) ++ back) ∧
      Queue r' busy idle' ∧ (busy ++ idle').head? = some r'.dequeue := by
  have notEnqueue : r.enqueue.seg ∉ answers.segs := outside _ queue.enqueue_mem
  obtain ⟨last, expanded⟩ := ringExpansion_expanded queue.shape.notEvent distinct notEnqueue ⟨noError _, noError _⟩ result
  have distinct' : (answers.segs.take (r.expansionSegs numTrbs)).Nodup := distinct.sublist (List.take_sublist _ _)
  have outside' : ∀ p ∈ busy ++ idle, p.seg ∉ answers.segs.take (r.expansionSegs numTrbs) :=
    fun p member inTake => outside p member (List.mem_of_mem_take inTake)
  obtain ⟨back, is_idle⟩ := queue.idle_to_link inOrder room
  obtain ⟨queue', inOrder'⟩ := queue.expand inOrder is_idle expanded distinct' outside'
  exact ⟨last, back, _, expanded, is_idle, rfl, queue', inOrder'⟩

/-- What every expansion keeps holds after the loop of `prepare_ring`, for the answers
    that it has not used. -/
theorem makeRoom_rule (q : Quirks) {numTrbs : Nat} (P : List Answers → Ring → Prop)
    (expand : ∀ {a : Answers} {more : List Answers} {r r' : Ring}, P (a :: more) r → ¬r.numTrbsNeeded numTrbs < 1 →
      r.type ≠ .command → ringExpansion q r (r.numTrbsNeeded numTrbs).toNat a = some r' → P more r') :
    ∀ {answers : List Answers} {r : Ring}, P answers r → ∃ rest, P rest (makeRoom q numTrbs answers r).2 := by
  intro answers
  induction answers with
  | nil =>
    intro r holds
    rw [makeRoom]
    split_ifs
    · exact ⟨[], holds⟩
    · exact ⟨[], holds⟩
  | cons a more ih =>
    intro r holds
    rw [makeRoom]
    split_ifs with enough command
    · exact ⟨a :: more, holds⟩
    · exact ⟨a :: more, holds⟩
    · cases result : ringExpansion q r (r.numTrbsNeeded numTrbs).toNat a with
      | none => exact ⟨a :: more, holds⟩
      | some r' => exact ih (expand holds enough command result)

/-- No expansion is tried when there is room. -/
theorem makeRoom_of_enough (q : Quirks) {numTrbs : Nat} {r : Ring} (enough : r.numTrbsNeeded numTrbs < 1)
    (answers : List Answers) : makeRoom q numTrbs answers r = (0, r) := by
  cases answers <;> rw [makeRoom, if_pos enough]

theorem makeRoom_enough {q : Quirks} {numTrbs : Nat} : ∀ {answers : List Answers} {r r' : Ring},
    makeRoom q numTrbs answers r = (0, r') → r'.numTrbsNeeded numTrbs < 1 := by
  intro answers
  induction answers with
  | nil =>
    intro r r' done
    rw [makeRoom] at done
    split_ifs at done with enough
    · simp only [Prod.mk.injEq, true_and] at done
      exact done ▸ enough
    · simp [eNOMEM] at done
  | cons a more ih =>
    intro r r' done
    rw [makeRoom] at done
    split_ifs at done with enough command
    · simp only [Prod.mk.injEq, true_and] at done
      exact done ▸ enough
    · simp [eNOMEM] at done
    · cases result : ringExpansion q r (r.numTrbsNeeded numTrbs).toNat a with
      | none => simp [result, eNOMEM] at done
      | some r1 =>
        simp only [result] at done
        exact ih done

/-- The ways through `prepare_ring`. -/
theorem prepareRing_cases (q : Quirks) (r : Ring) (epState numTrbs : Nat) (answers : List Answers) (status : Int) :
    (epStateError epState ≠ 0 ∧ r.prepareRing q epState numTrbs answers status = (epStateError epState, r)) ∨
    ∃ error r', makeRoom q numTrbs answers r = (error, r') ∧
      ((error ≠ 0 ∧ r.prepareRing q epState numTrbs answers status = (error, r')) ∨
       (error = 0 ∧ (r'.trb r'.enqueue).isLink = false ∧ r.prepareRing q epState numTrbs answers status = (0, r')) ∨
       (error = 0 ∧ (r'.trb r'.enqueue).isLink = true ∧
        r.prepareRing q epState numTrbs answers status = handOver q status (r'.numSegs + 1) r')) := by
  by_cases refused : epStateError epState ≠ 0
  · exact .inl ⟨refused, by rw [Ring.prepareRing, if_pos refused]⟩
  · obtain ⟨error, r', made⟩ : ∃ error r', makeRoom q numTrbs answers r = (error, r') := ⟨_, _, rfl⟩
    refine .inr ⟨error, r', made, ?_⟩
    by_cases done : error = 0
    · subst done
      cases onLink : (r'.trb r'.enqueue).isLink with
      | false => exact .inr (.inl ⟨rfl, rfl, by simp only [Ring.prepareRing, if_neg refused, made, onLink]; simp⟩)
      | true => exact .inr (.inr ⟨rfl, rfl, by simp only [Ring.prepareRing, if_neg refused, made, onLink]; simp⟩)
    · refine .inl ⟨done, ?_⟩
      simp only [Ring.prepareRing, if_neg refused, made]

/-- Where a hand-over that succeeds leaves the ring. -/
theorem handOver_done (q : Quirks) (status : Int) : ∀ {fuel : Nat} {r r' : Ring}, handOver q status fuel r = (0, r') →
    r'.numTrbsFree = r.numTrbsFree ∧ r'.dequeue = r.dequeue ∧ r'.type = r.type ∧
    (r'.enqueue = r.enqueue ∨ r'.enqueue.idx = 0) ∧ (fuel ≠ 0 → r.lastTrb r.enqueue = true → r'.enqueue.idx = 0) := by
  intro fuel
  induction fuel with
  | zero =>
    intro r r' done
    rw [handOver] at done
    simp only [Prod.mk.injEq, true_and] at done
    subst done
    exact ⟨rfl, rfl, rfl, .inl rfl, by simp⟩
  | succ fuel ih =>
    intro r r' done
    rw [handOver] at done
    have given : ∀ r : Ring, r.giveLink.numTrbsFree = r.numTrbsFree ∧ r.giveLink.dequeue = r.dequeue ∧
        r.giveLink.type = r.type := by
      intro r
      rw [giveLink]
      split_ifs <;> exact ⟨rfl, rfl, rfl⟩
    by_cases onLink : r.lastTrb r.enqueue = true
    · rw [if_pos onLink] at done
      have same := given (r.modifyTrb r.enqueue (·.setChain (linkChained q r.type)))
      -- Whether it is cached or not, the rest of the loop starts in the next segment.
      obtain ⟨r2, starts, free2, dequeue2, type2, rest⟩ : ∃ r2 : Ring, r2.enqueue.idx = 0 ∧
          r2.numTrbsFree = (r.modifyTrb r.enqueue (·.setChain (linkChained q r.type))).giveLink.numTrbsFree ∧
          r2.dequeue = (r.modifyTrb r.enqueue (·.setChain (linkChained q r.type))).giveLink.dequeue ∧
          r2.type = (r.modifyTrb r.enqueue (·.setChain (linkChained q r.type))).giveLink.type ∧
          handOver q status fuel r2 = (0, r') := by
        dsimp only at done
        split_ifs at done with cached failed
        · simp only [Prod.mk.injEq] at done
          omega
        · refine ⟨_, ?_, ?_, ?_, ?_, done⟩ <;> rfl
        · refine ⟨_, ?_, ?_, ?_, ?_, done⟩ <;> rfl
      obtain ⟨free, dequeue, type, moved, _⟩ := ih rest
      have atStart : r'.enqueue.idx = 0 := by
        rcases moved with here | zero
        · rw [here, starts]
        · exact zero
      exact ⟨free.trans (free2.trans same.1), dequeue.trans (dequeue2.trans same.2.1), type.trans (type2.trans same.2.2),
        .inr atStart, fun _ _ => atStart⟩
    · rw [if_neg onLink] at done
      simp only [Prod.mk.injEq, true_and] at done
      subst done
      exact ⟨rfl, rfl, rfl, .inl rfl, fun _ last => absurd last onLink⟩

/-- A ring that `prepare_ring` has prepared: there is room, and `enqueue` is not on a
    link. -/
theorem prepareRing_done {q : Quirks} {r r' : Ring} {epState numTrbs : Nat} {answers : List Answers} {status : Int}
    (done : r.prepareRing q epState numTrbs answers status = (0, r')) {busy idle : List TrbPtr} (queue : Queue r' busy idle) :
    r'.numTrbsNeeded numTrbs < 1 ∧ r'.enqueue.idx ≠ 63 := by
  rcases prepareRing_cases q r epState numTrbs answers status with ⟨refused, result⟩ | ⟨error, r1, made, ways⟩
  · rw [result] at done
    simp only [Prod.mk.injEq] at done
    exact absurd done.1 refused
  · rcases ways with ⟨failed, result⟩ | ⟨rfl, inner, result⟩ | ⟨rfl, onLink, result⟩
    · rw [result] at done
      simp only [Prod.mk.injEq] at done
      exact absurd done.1 failed
    · rw [result] at done
      simp only [Prod.mk.injEq, true_and] at done
      subst done
      refine ⟨makeRoom_enough made, ?_⟩
      intro last
      rw [(queue.shape.links _ queue.enqueue_mem).mpr last] at inner
      simp at inner
    · rw [result] at done
      obtain ⟨free, dequeue, type, _, moved⟩ := handOver_done q status done
      have enough := makeRoom_enough made
      have notEvent : r1.type ≠ .event := by
        rw [← type]
        exact queue.shape.notEvent
      refine ⟨?_, ?_⟩
      · rw [Ring.numTrbsNeeded] at enough ⊢
        rwa [free, dequeue, type]
      · rw [moved (by omega) (by rw [lastTrb_isLink notEvent, onLink])]
        decide

theorem Inv.queueTrb {s : State} {busy idle : List TrbPtr} (inv : Inv s busy idle) (q : Quirks) (more : Bool) {t : Trb}
    (reserved : 0 < s.reserved) (inner : (s.ring.trb s.ring.enqueue).isLink = false) (plain : t.isLink = false) :
    ∃ busy' idle', Inv (s.step q (.queueTrb more t)) busy' idle' := by
  obtain ⟨rest, rfl⟩ := inv.queue.idle_eq
  have notLink : s.ring.enqueue.idx ≠ 63 := by
    intro onLink
    rw [(inv.queue.shape.links _ inv.queue.enqueue_mem).mpr onLink] at inner
    simp at inner
  have room := inv.room
  rw [nonlinks_cons, if_pos notLink] at room
  rcases inv.queue.queueTrb_cases q notLink more plain (by omega) with
    ⟨eq, queue, _⟩ | ⟨rest', rfl, onLink, eq, _, queue⟩
  · refine ⟨busy ++ [s.ring.enqueue], rest, ?_, ?_, ?_⟩
    · simpa only [State.step, eq] using queue
    · simp [State.step, inv.pending, nonlinks_cons, notLink]
    · have sameSlack : slack (stored s.ring t) = slack s.ring := rfl
      simp only [State.step, eq, sameSlack]
      omega
  · refine ⟨_, rest', queue, ?_, ?_⟩
    · simp [State.step, inv.pending, nonlinks_cons, notLink, onLink]
    · rw [nonlinks_cons, if_neg (by simp [onLink])] at room
      have sameSlack : slack (s.ring.queueTrb q more t) = slack s.ring := by
        rw [eq]
        rfl
      simp only [State.step, sameSlack]
      omega

theorem nonlinks_links {l : List TrbPtr} (links : ∀ p ∈ l, p.idx = 63) : nonlinks l = 0 := by
  rw [nonlinks, List.countP_eq_zero]
  intro p member
  simp [links p member]

theorem skip_idx (next : Addr → Addr) (p : TrbPtr) : (skip next p).idx ≤ p.idx + 1 := by
  simp only [skip, follow]
  split_ifs <;> simp_all

theorem slack_incDeq {r : Ring} {lap : List TrbPtr} (shape : Shape r lap) (member : r.dequeue ∈ lap) :
    slack r.incDeq ≤ slack r + if r.dequeue.idx ≠ 63 then 1 else 0 := by
  have eq := incDeq_eq shape member
  have type : r.incDeq.type = r.type := by rw [eq]
  have dequeue : r.incDeq.dequeue = skip r.next r.dequeue := by rw [eq]
  rw [slack, slack, type, dequeue]
  have bound := skip_idx r.next r.dequeue
  by_cases onLink : r.dequeue.idx = 63
  · have : (skip r.next r.dequeue).idx = 0 := by simp [skip, follow, onLink]
    simp [this, onLink]
  · split_ifs <;> omega

theorem Inv.incDeq {s : State} {busy idle : List TrbPtr} (inv : Inv s busy idle) (q : Quirks) (pending : 0 < s.pending) :
    ∃ busy' idle', Inv (s.step q .incDeq) busy' idle' := by
  have counted := inv.pending
  cases busy with
  | nil =>
    simp at counted
    omega
  | cons x busy =>
    have is_x := inv.queue.first_busy
    have member : s.ring.dequeue ∈ x :: busy ++ idle := by simp [is_x]
    have here := inv.queue.shape.lastTrb_eq member
    obtain ⟨links, rest, rfl, areLinks, queue⟩ := inv.queue.incDeq
    have noLinks := nonlinks_links areLinks
    have room := inv.room
    rw [nonlinks_cons, nonlinks_append, noLinks, is_x] at counted
    refine ⟨rest, _, queue, ?_, ?_⟩
    · simp only [State.step, here]
      by_cases onLink : s.ring.dequeue.idx = 63
      · simp [onLink] at counted ⊢
        exact counted
      · simp [onLink] at counted ⊢
        omega
    · have less := slack_incDeq inv.queue.shape member
      show s.reserved + slack s.ring.incDeq + 1 ≤ _
      rw [nonlinks_append, nonlinks_cons, noLinks, is_x]
      omega

/-- Along a ring the index grows by one at each TRB that is no link, at most. -/
theorem idx_le {next : Addr → Addr} : ∀ {a b front : List TrbPtr} {p q : TrbPtr},
    IsLap (follow next) (front ++ (a ++ q :: b)) → (a ++ q :: b).head? = some p → q.idx ≤ p.idx + nonlinks a := by
  intro a
  induction a with
  | nil =>
    intro b front p q _ first
    have : q = p := by simpa using first
    simp [this]
  | cons x a ih =>
    intro b front p q lap first
    have is_x : x = p := by simpa using first
    subst is_x
    have step : (a ++ q :: b).head? = some (follow next x) := by
      have := lap.next_eq
      cases a <;> simpa using this
    have turned : IsLap (follow next) ((front ++ [x]) ++ (a ++ q :: b)) := by simpa using lap
    have rest := ih turned step
    have one : (follow next x).idx ≤ x.idx + if x.idx ≠ 63 then 1 else 0 := by
      simp only [follow]
      split_ifs <;> simp_all
    rw [nonlinks_cons]
    omega

/-- Along a ring the index counts the TRBs that are no links. -/
theorem idx_mod {next : Addr → Addr} : ∀ {a b front : List TrbPtr} {p q : TrbPtr},
    IsLap (follow next) (front ++ (a ++ q :: b)) → (a ++ q :: b).head? = some p →
    q.idx % 63 = (p.idx + nonlinks a) % 63 := by
  intro a
  induction a with
  | nil =>
    intro b front p q _ first
    have : q = p := by simpa using first
    simp [this]
  | cons x a ih =>
    intro b front p q lap first
    have is_x : x = p := by simpa using first
    subst is_x
    have step : (a ++ q :: b).head? = some (follow next x) := by
      have := lap.next_eq
      cases a <;> simpa using this
    have turned : IsLap (follow next) ((front ++ [x]) ++ (a ++ q :: b)) := by simpa using lap
    rw [ih turned step, nonlinks_cons]
    by_cases onLink : x.idx = 63
    · simp [follow, onLink]
    · have goesOn : (follow next x).idx = x.idx + 1 := by rw [follow, if_neg onLink]
      rw [goesOn, if_pos onLink]
      omega

/-- What lies between the pointers. -/
theorem span_busy {r : Ring} {busy idle : List TrbPtr} (queue : Queue r busy idle) (ahead : ¬Overtaken r) :
    span r r.enqueue = busy := by
  have inOrder := inOrder_of queue ahead
  have shape := queue.shape
  obtain ⟨rest, rfl⟩ := queue.idle_eq
  exact span_eq shape inOrder

/-- The TRBs before a queued pointer and those from it on. -/
theorem split_target {r : Ring} {busy idle : List TrbPtr} {target : TrbPtr} (queue : Queue r busy idle)
    (there : target ∈ (busy ++ [r.enqueue]).tail) :
    ∃ front back, busy = front ++ back ∧ front ≠ [] ∧ (back ++ idle).head? = some target := by
  obtain ⟨rest, is_idle⟩ := queue.idle_eq
  cases busy with
  | nil => simp at there
  | cons x busy =>
    rcases List.mem_append.mp there with inBusy | isEnqueue
    · obtain ⟨a, b, rfl⟩ := List.append_of_mem inBusy
      exact ⟨x :: a, target :: b, rfl, by simp, rfl⟩
    · rw [List.mem_singleton.mp isEnqueue]
      exact ⟨x :: busy, [], by simp, by simp, by simp [is_idle]⟩

theorem Inv.setDeq {s : State} {busy idle : List TrbPtr} (inv : Inv s busy idle) (q : Quirks) {target : TrbPtr}
    (ahead : ¬Overtaken s.ring) (there : target ∈ (span s.ring s.ring.enqueue ++ [s.ring.enqueue]).tail) :
    ∃ busy' idle', Inv (s.step q (.setDeq target)) busy' idle' := by
  have inOrder := inOrder_of inv.queue ahead
  have shape := inv.queue.shape
  rw [span_busy inv.queue ahead] at there
  obtain ⟨front, back, rfl, moves, first⟩ := split_target inv.queue there
  obtain ⟨eq, queue⟩ := inv.queue.setDeq moves first
  obtain ⟨more, split⟩ := List.head?_eq_some_iff.mp first
  have lap : Shape s.ring (front ++ target :: more) := by rwa [List.append_assoc, split] at shape
  have start : (front ++ target :: more).head? = some s.ring.dequeue := by rwa [List.append_assoc, split] at inOrder
  have counted := inv.pending
  have room := inv.room
  rw [nonlinks_append] at counted
  refine ⟨back, _, queue, ?_, ?_⟩
  · simp only [State.step, spanned_eq lap start]
    omega
  · have further : target.idx ≤ s.ring.dequeue.idx + nonlinks front :=
      idx_le (show IsLap (follow s.ring.next) ([] ++ (front ++ target :: more)) from lap.isLap) start
    have less : slack (s.ring.updateRingForSetDeqCompletion target) ≤ slack s.ring + nonlinks front := by
      rw [eq, slack, slack]
      split_ifs
      · simp
      · exact further
    show s.reserved + slack (s.ring.updateRingForSetDeqCompletion target) + 1 ≤ _
    rw [nonlinks_append]
    omega

theorem Inv.ringExpansion {s : State} {busy idle : List TrbPtr} (inv : Inv s busy idle) (q : Quirks) (numTrbs : Nat)
    {answers : Answers} (transfer : s.ring.type ≠ .command) (fresh : Fresh s.ring answers.segs)
    (ahead : ¬Overtaken s.ring) (noError : ∀ i, answers.write i ≠ .error) :
    ∃ busy' idle', Inv (s.step q (.ringExpansion numTrbs answers)) busy' idle' := by
  cases result : s.ring.ringExpansion q numTrbs answers with
  | none => exact ⟨busy, idle, by simpa only [State.step, result] using inv⟩
  | some r' =>
    have room := inv.room
    rw [slack, if_neg transfer] at room
    obtain ⟨last, back, idle', expanded, is_idle, is_idle', queue, _⟩ := expand_queue inv.queue
      (inOrder_of inv.queue ahead) (by omega) fresh.1 (fresh.outside inv.queue) noError result
    refine ⟨busy, idle', ?_, ?_, ?_⟩
    · simpa only [State.step, result] using queue
    · simpa only [State.step, result] using inv.pending
    · simp only [State.step, result]
      rw [slack, expanded.type, if_neg transfer, expanded.dequeue]
      rw [is_idle] at room
      rw [is_idle']
      simp only [nonlinks_append, nonlinks_cons] at room ⊢
      omega

/-- What the loop of `prepare_ring` keeps while it has `answers` to come. -/
structure Growing (numTrbs : Nat) (busy : List TrbPtr) (answers : List Answers) (r : Ring) (idle : List TrbPtr) :
    Prop where
  queue : Queue r busy idle
  careful : Overtaken r → r.numTrbsNeeded numTrbs < 1
  room : slack r + 1 ≤ nonlinks idle
  distinct : (answers.flatMap Answers.segs).Nodup
  outside : ∀ p ∈ busy ++ idle, p.seg ∉ answers.flatMap Answers.segs
  noError : ∀ a ∈ answers, ∀ i, a.write i ≠ .error

theorem Growing.expand {q : Quirks} {numTrbs : Nat} {busy idle : List TrbPtr} {a : Answers} {more : List Answers}
    {r r' : Ring} (growing : Growing numTrbs busy (a :: more) r idle) (needed : ¬r.numTrbsNeeded numTrbs < 1)
    (transfer : r.type ≠ .command) (result : ringExpansion q r (r.numTrbsNeeded numTrbs).toNat a = some r') :
    ∃ last back idle', a.segs.Nodup ∧ (∀ p ∈ busy ++ idle, p.seg ∉ a.segs) ∧
      Expanded r r' (a.segs.take (r.expansionSegs (r.numTrbsNeeded numTrbs).toNat)) last ∧
      idle = run r.enqueue.seg r.enqueue.idx (63 - r.enqueue.idx) ++ link r.enqueue.seg :: back ∧
      idle' = run r.enqueue.seg r.enqueue.idx (63 - r.enqueue.idx) ++
        link r.enqueue.seg :: (laid (a.segs.take (r.expansionSegs (r.numTrbsNeeded numTrbs).toNat)) ++ back) ∧
      Growing numTrbs busy more r' idle' := by
  have ahead : ¬Overtaken r := fun overtaken => needed (growing.careful overtaken)
  have room := growing.room
  rw [slack, if_neg transfer] at room
  have distinct := growing.distinct
  have outside := growing.outside
  rw [List.flatMap_cons] at distinct outside
  have outside' : ∀ p ∈ busy ++ idle, p.seg ∉ a.segs := fun p member inSegs =>
    outside p member (List.mem_append_left _ inSegs)
  obtain ⟨last, back, idle', expanded, is_idle, is_idle', queue, inOrder⟩ := expand_queue growing.queue
    (inOrder_of growing.queue ahead) room (List.nodup_append.mp distinct).1 outside'
    (growing.noError a (by simp)) result
  have more_room : slack r' + 1 ≤ nonlinks idle' := by
    rw [slack, expanded.type, if_neg transfer, expanded.dequeue]
    rw [is_idle] at room
    rw [is_idle']
    simp only [nonlinks_append, nonlinks_cons] at room ⊢
    omega
  refine ⟨last, back, idle', (List.nodup_append.mp distinct).1, outside', expanded, is_idle, is_idle', queue, ?_,
    more_room, ?_, ?_, ?_⟩
  · exact fun overtaken => absurd overtaken (not_overtaken queue inOrder (by omega))
  · exact (List.nodup_append.mp distinct).2.1
  · intro p member inMore
    by_cases new : p ∈ laid (a.segs.take (r.expansionSegs (r.numTrbsNeeded numTrbs).toNat))
    · have inSegs := List.mem_of_mem_take (mem_laid.mp new).1
      exact (List.nodup_append.mp distinct).2.2 _ inSegs _ inMore rfl
    · refine outside p ?_ (List.mem_append_right _ inMore)
      rw [is_idle'] at member
      rw [is_idle]
      simp only [List.mem_append, List.mem_cons] at member ⊢
      rcases member with inBusy | inRun | same | inNew | inBack
      · exact .inl inBusy
      · exact .inr (.inl inRun)
      · exact .inr (.inr (.inl same))
      · exact absurd inNew new
      · exact .inr (.inr (.inr inBack))
  · exact fun b member => growing.noError b (List.mem_cons_of_mem _ member)

/-- Room made: the TRBs asked for and the slack are free, and one more. -/
theorem room_made {r : Ring} {busy idle : List TrbPtr} {numTrbs : Nat} (queue : Queue r busy idle)
    (enough : r.numTrbsNeeded numTrbs < 1) : numTrbs + slack r + 1 ≤ nonlinks idle := by
  have count := queue.idle_count
  have := (numTrbsNeeded_lt queue.shape.notEvent numTrbs).mp enough
  omega

/-- A link is handed over. -/
theorem Inv.handedOver {s : State} {busy idle : List TrbPtr} (inv : Inv s busy idle) (q : Quirks)
    (onLink : s.ring.enqueue.idx = 63) : ∃ busy' idle', Inv { s with ring := handedOver q s.ring } busy' idle' := by
  have room := inv.room
  have pending := inv.pending
  have queue := inv.queue
  obtain ⟨rest, rfl⟩ := queue.idle_eq
  rw [nonlinks_cons, if_neg (by simp [onLink]), Nat.add_zero] at room
  have some_left : rest ≠ [] := by
    rintro rfl
    simp at room
  have sameSlack : slack (RingShape.handedOver q s.ring) = slack s.ring := by
    rw [RingShape.handedOver]
    split_ifs <;> rfl
  obtain ⟨goesOn, catchesUp⟩ := queue.handedOver q onLink some_left
  rcases queue.dequeue with inOrder | ⟨rfl, _, behind⟩
  · refine ⟨busy ++ [s.ring.enqueue], rest, goesOn inOrder, ?_, ?_⟩
    · simpa [nonlinks_cons, onLink] using pending
    · rw [sameSlack]
      exact room
  · refine ⟨[], rest ++ [s.ring.enqueue], catchesUp rfl behind, pending, ?_⟩
    rw [sameSlack]
    simpa [nonlinks_cons, onLink] using room

theorem Inv.prepareRing {s : State} {busy idle : List TrbPtr} (inv : Inv s busy idle) (q : Quirks) (epState numTrbs : Nat)
    {answers : List Answers} (status : Int) (fresh : Fresh s.ring (answers.flatMap Answers.segs))
    (careful : Overtaken s.ring → s.ring.numTrbsNeeded numTrbs < 1)
    (noError : ∀ a ∈ answers, ∀ i, a.write i ≠ .error) :
    ∃ busy' idle', Inv (s.step q (.prepareRing epState numTrbs answers status)) busy' idle' := by
  have room := inv.room
  rcases prepareRing_cases q s.ring epState numTrbs answers status with ⟨refused, result⟩ | ⟨error, r', made, ways⟩
  · refine ⟨busy, idle, ?_, ?_, ?_⟩
    · simpa only [State.step, result] using inv.queue
    · simpa only [State.step, result] using inv.pending
    · simp only [State.step, result, if_neg refused]
      omega
  · have start : ∃ idle, Growing numTrbs busy answers s.ring idle :=
      ⟨idle, inv.queue, careful, by omega, fresh.1, fresh.outside inv.queue, noError⟩
    obtain ⟨_, idle', grown⟩ := makeRoom_rule q (fun answers r => ∃ idle, Growing numTrbs busy answers r idle)
      (fun ⟨_, growing⟩ needed transfer result => by
        obtain ⟨_, _, idle', _, _, _, _, _, growing'⟩ := growing.expand needed transfer result
        exact ⟨idle', growing'⟩) start
    rw [made] at grown
    have room' : slack r' + 1 ≤ nonlinks idle' := grown.room
    have queue : Queue r' busy idle' := grown.queue
    rcases ways with ⟨failed, result⟩ | ⟨rfl, inner, result⟩ | ⟨rfl, onLink, result⟩
    · refine ⟨busy, idle', ?_, ?_, ?_⟩
      · simpa only [State.step, result] using queue
      · simpa only [State.step, result] using inv.pending
      · simp only [State.step, result, if_neg failed]
        omega
    · refine ⟨busy, idle', ?_, ?_, ?_⟩
      · simpa only [State.step, result] using queue
      · simpa only [State.step, result] using inv.pending
      · simpa only [State.step, result, if_true] using room_made queue (makeRoom_enough made)
    · have last := (queue.shape.links _ queue.enqueue_mem).mp onLink
      rw [handOver_eq q status queue.shape queue.enqueue_mem last] at result
      have enough := room_made queue (makeRoom_enough made)
      split_ifs at result with failed
      · refine ⟨busy, idle', ?_, ?_, ?_⟩
        · simpa only [State.step, result] using queue.handOverFailed q
        · simpa only [State.step, result] using inv.pending
        · simp only [State.step, result, if_neg (show ¬status = 0 by omega)]
          show 0 + slack r' + 1 ≤ _
          omega
      · have ready : Inv ⟨r', numTrbs, s.pending⟩ busy idle' := ⟨queue, inv.pending, enough⟩
        simpa only [State.step, result, if_true] using ready.handedOver q last

theorem Inv.step {s : State} {busy idle : List TrbPtr} (inv : Inv s busy idle) (q : Quirks) (op : Op)
    (allowed : op.Allowed s) (careful : Careful s op) : ∃ busy' idle', Inv (s.step q op) busy' idle' := by
  cases op with
  | prepareRing epState numTrbs answers status =>
    exact inv.prepareRing q epState numTrbs status allowed careful.1 careful.2
  | queueTrb more t => exact inv.queueTrb q more allowed.1 allowed.2.1 allowed.2.2
  | incDeq => exact inv.incDeq q allowed
  | ringExpansion numTrbs answers => exact inv.ringExpansion q numTrbs allowed.1 allowed.2 careful.1 careful.2
  | setDeq target => exact inv.setDeq q allowed.1 allowed.2

theorem inv_new {q : Quirks} {s : State} (new : New q s) : ∃ busy idle, Inv s busy idle := by
  obtain ⟨numSegs, cycleState, type, answers, notEvent, distinct, made, reserved, pending⟩ := new
  obtain ⟨queue, _, _, dequeue, _, start, _, _⟩ := queue_ringAlloc notEvent distinct made
  refine ⟨_, _, queue, pending, ?_⟩
  obtain ⟨rest, is_idle⟩ := queue.idle_eq
  rw [reserved, slack, dequeue, start, is_idle, nonlinks_cons]
  simp [start]

theorem inv_reachable {q : Quirks} {s : State} (reachable : Reachable q Careful s) : ∃ busy idle, Inv s busy idle := by
  refine Run.Reachable.invariant (P := fun s => ∃ busy idle, Inv s busy idle) (fun _ new => inv_new new) ?_ reachable
  rintro s op ⟨busy, idle, inv⟩ ⟨allowed, careful⟩
  exact inv.step q op allowed careful

/-- On a ring whose counter agrees with its pointers `dequeue` has not run past `enqueue`. -/
theorem Accounted.ahead {r : Ring} {busy idle : List TrbPtr} (accounted : Accounted r) (queue : Queue r busy idle) :
    ¬Overtaken r := by
  intro overtaken
  obtain ⟨balance, notNegative, _⟩ := accounted
  have free := queue.idle_count
  obtain ⟨rfl, onLink, behind⟩ := behind_of queue overtaken (by omega)
  -- From behind the link the pointers are a whole lap apart.
  obtain ⟨rest, rfl⟩ := queue.idle_eq
  have turned : Shape r (rest ++ [r.enqueue]) := Shape.swap (show Shape r ([r.enqueue] ++ rest) from queue.shape)
  have leads := queue.shape.isLap.next_eq
  have first : (rest ++ [r.enqueue]).head? = some r.dequeue := by
    rw [behind]
    simpa using leads
  rw [spanned_eq turned first] at balance
  have all := turned.count
  rw [nonlinks_append, nonlinks_cons, if_neg (by simp [onLink])] at all
  simp at all
  omega

theorem accounted_ahead {r : Ring} {busy idle : List TrbPtr} (queue : Queue r busy idle) (ahead : ¬Overtaken r)
    (room : slack r + 1 ≤ nonlinks idle) : Accounted r := by
  have count := queue.idle_count
  have inOrder := inOrder_of queue ahead
  have shape := queue.shape
  have inOrder' := inOrder
  obtain ⟨rest, is_idle⟩ := queue.idle_eq
  rw [is_idle] at shape inOrder'
  refine ⟨?_, by omega, ?_⟩
  · rw [spanned_eq shape inOrder']
    exact queue.free
  · intro transfer same p member
    rw [span_eq shape inOrder'] at member
    rw [slack, if_neg transfer] at room
    exact same_segment queue inOrder room same p member

/-- In every state reached, `num_trbs_free` and the pending TRBs make up the ring but for
    one TRB and the counter is not negative; and the counter agrees with the pointers
    exactly when `dequeue` has not run past the link on which `enqueue` rests. -/
theorem ring_accounted {q : Quirks} {s : State} (reachable : Reachable q Careful s) :
    (Accounted s.ring ↔ ¬Overtaken s.ring) ∧
    s.ring.numTrbsFree + s.pending = 63 * s.ring.numSegs - 1 ∧ 0 ≤ s.ring.numTrbsFree := by
  obtain ⟨busy, idle, inv⟩ := inv_reachable reachable
  have queue := inv.queue
  have room := inv.room
  have count := queue.idle_count
  refine ⟨⟨fun accounted => accounted.ahead queue, fun ahead => accounted_ahead queue ahead (by omega)⟩, ?_, by omega⟩
  rw [inv.pending]
  exact queue.free

/-- A bulk ring of two segments, as the driver allocates it. -/
def bulkRing : Ring :=
  (ringAlloc ⟨false, false⟩ 2 true .bulk ⟨[0x1000, 0x1400], fun _ => .accepted⟩).get (by decide +kernel)

theorem bulkRing_made : ringAlloc ⟨false, false⟩ 2 true .bulk ⟨[0x1000, 0x1400], fun _ => .accepted⟩ = some bulkRing :=
  (Option.some_get _).symm

/-- A normal TRB that ends its TD. -/
def normalTrb : Trb := ⟨0, 0, 0, 0x400⟩

/-- Room for three TRBs, of which one is queued. -/
def shortRun : List Op := [.prepareRing 1 3 [] 0, .queueTrb false normalTrb]

theorem bulkRing_new : New ⟨false, false⟩ ⟨bulkRing, 0, 0⟩ :=
  ⟨2, true, .bulk, _, by decide, by decide, bulkRing_made, rfl, rfl⟩

theorem ring_accounted_shortRun :
    Reachable ⟨false, false⟩ Careful (shortRun.foldl (State.step ⟨false, false⟩) ⟨bulkRing, 0, 0⟩) ∧
    Accounted (shortRun.foldl (State.step ⟨false, false⟩) ⟨bulkRing, 0, 0⟩).ring := by
  have reachable : Reachable ⟨false, false⟩ Careful (shortRun.foldl (State.step ⟨false, false⟩) ⟨bulkRing, 0, 0⟩) := by
    refine Run.Reachable.all (.first bulkRing_new) ⟨⟨?_, ?_⟩, ⟨?_, trivial⟩, trivial⟩
    · decide +kernel
    · exact ⟨by decide +kernel, by simp⟩
    · decide +kernel
  exact ⟨reachable, (ring_accounted reachable).1.mpr (by decide +kernel)⟩

/-- A segment is filled and consumed, so that `dequeue` runs past the link on which
    `enqueue` rests; the ring is expanded for a TD of 126 TRBs, which fill the new
    segments; and the link behind them is handed over for one more TRB. -/
def overtakenRun : List Op :=
  [.prepareRing 1 63 [] 0] ++ List.replicate 63 (.queueTrb false normalTrb) ++ List.replicate 63 .incDeq ++
  [.prepareRing 1 126 [⟨[0x1800, 0x1c00], fun _ => .accepted⟩] 0] ++
  List.replicate 125 (.queueTrb true normalTrb) ++ [.queueTrb false normalTrb] ++ [.prepareRing 1 1 [] 0]

/-- Then the pointers meet, as on an empty ring, with 126 TRBs pending. -/
theorem ring_not_accounted : ¬∀ s, Reachable ⟨false, false⟩ (fun _ _ => True) s → Accounted s.ring := by
  intro accounted
  have allows : Run.Allows (fun s op => Op.Allowed s op ∧ True) (State.step ⟨false, false⟩) ⟨bulkRing, 0, 0⟩ overtakenRun := by
    decide +kernel
  have reachable := Run.Reachable.all (.first bulkRing_new) allows
  have balance := (accounted _ reachable).1
  revert balance
  decide +kernel

end Ehub.RingAccount
