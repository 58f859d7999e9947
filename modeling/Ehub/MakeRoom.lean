import Mathlib
import Ehub.Mirror
import Ehub.Expansion

/-!
How `prepare_ring` makes room. A request is short of free TRBs, or they are enough and would
only lead `enqueue` into the segment of `dequeue`. An expansion takes the ring at least from
the first case to the second or from the second to the end (`stage`), so that two of them are
always enough. One that the error of the cache writes has left half done takes the ring
nowhere; but the error stays, and the next expansion gets no segments.

The room that has been made for a whole URB is there for each of its TDs, whatever TRBs are
completed while they are queued (`Queueing`).
-/
namespace Ehub.MakeRoom
open Ehub.Lap Ehub.Segments Ehub.Ring Ehub.RingShape Ehub.RingAccount Ehub.RingFifo Ehub.Mirror Ehub.Expansion Ehub.Isoc

/-- The loop of `prepare_ring`, with the number of expansions that have succeeded; nothing when
    it has not come to its end. The `n`-th expansion gets the `n`-th answer. -/
def makeRun (q : Quirks) (numTrbs : Nat) (answers : Nat → Answers) : Nat → Nat → Ring → Option (Nat × Int × Ring)
  | 0, _, _ => none
  | fuel + 1, n, r =>
    if r.numTrbsNeeded numTrbs < 1 then some (n, 0, r)
    else if r.type = .command then some (n, -eNOMEM, r)
    else
      match ringExpansion q r (r.numTrbsNeeded numTrbs).toNat (answers n) with
      | none => some (n, -eNOMEM, r)
      | some r => makeRun q numTrbs answers fuel (n + 1) r

/-- `prepare_ring`, where its loop comes to an end, with the number of expansions. -/
def prepareRun (q : Quirks) (r : Ring) (epState numTrbs : Nat) (answers : Nat → Answers) (status : Int) (fuel : Nat) :
    Option (Nat × Int × Ring) :=
  if epStateError epState ≠ 0 then some (0, epStateError epState, r)
  else
    (makeRun q numTrbs answers fuel 0 r).map fun made =>
      if made.2.1 = 0 ∧ (made.2.2.trb made.2.2.enqueue).isLink = true then
        (made.1, handOver q status (made.2.2.numSegs + 1) made.2.2)
      else made

/-- The error of the cache writes is never cleared. -/
def Sticky (answers : Nat → Answers) : Prop :=
  ∀ n i m j, (n < m ∨ (n = m ∧ i ≤ j)) → (answers n).write i = .error → (answers m).write j = .error

/-- The TRBs of the ring, from `enqueue` on. -/
def around (r : Ring) : List TrbPtr := List.iterate r.nextTrb r.enqueue (trbsPerSegment * r.numSegs)

/-- Allocated segments are new: they are not on the ring, and none is delivered twice. -/
structure AllFresh (r : Ring) (answers : Nat → Answers) : Prop where
  distinct : ∀ n, (answers n).segs.Nodup
  apart : ∀ n m, n ≠ m → (answers n).segs.Disjoint (answers m).segs
  outside : ∀ n, ∀ p ∈ around r, p.seg ∉ (answers n).segs

/-- A transfer ring as the driver keeps it, with the cycle state of the consumer at `dequeue`:
    its segments are two or more, the counter agrees with the pointers and the cycle bits with
    both. -/
structure TransferRing (r : Ring) (ccs : Bool) : Prop where
  transfer : r.type ≠ .command
  several : 2 ≤ r.numSegs
  accounted : Accounted r
  consistent : ∃ busy idle, Queue r busy idle ∧ Phased r busy idle ccs

/-- The TRBs that have been queued and not been consumed, without the links. -/
def queued (r : Ring) : List Trb := contents r (span r r.enqueue)

/-- Of the TRBs of the ring only the link of `last_seg` toggles the cycle. -/
def OneToggle (r : Ring) : Prop := ∀ p, p ∈ around r ∧ flipsAt r p = true ↔ p = link r.lastSeg

/-- What `prepare_ring` promises when it succeeds: there is room, and a consumer takes the TRBs
    that it took before, and stops at `enqueue`, which is not on a link. -/
structure Prepared (r r' : Ring) (ccs : Bool) (numTrbs : Nat) : Prop where
  room : r'.numTrbsNeeded numTrbs = 0
  before : Fifo ⟨r, 0, queued r, ccs⟩
  after : Fifo ⟨r', numTrbs, queued r, ccs⟩
  copies : ∀ p ∈ span r r.enqueue, cached r'.toSegments p = cached r.toSegments p
  toggle : OneToggle r'
  inner : (r'.trb r'.enqueue).isLink = false

/-- `xhci_queue_isoc_tx` between two of its steps: `packet` is the next one to be prepared, and the
    TRBs `left` of the packet before it are still to be queued. `pending` TRBs of the ring have
    been queued and not been consumed. -/
structure Queueing where
  ring : Ring
  pending : Nat
  packet : Nat
  left : List Trb
  first : Bool

inductive Queueing.Op where
  | prepareTransfer
  | queueTrb
  | incDeq

/-- One step of the URB, or the completion of a TRB. The first TRB of the URB is held back. -/
def Queueing.step (q : Quirks) (urb : Urb) (maxBufferSize : Nat) (env : Env) (startCycle : Bool) (s : Queueing) :
    Op → Queueing
  | .prepareTransfer =>
    match urb.packets[s.packet]? with
    | none => s
    | some p =>
      { s with
        ring := (Isoc.prepareTransfer q s.ring (countIsocTrbsNeeded urb p maxBufferSize) s.packet env).2
        packet := s.packet + 1
        left := packetTrbs urb maxBufferSize s.packet p }
  | .queueTrb =>
    match s.left with
    | [] => s
    | t :: ts =>
      { s with
        ring := s.ring.queueTrb q (!ts.isEmpty) (t.setCycle (if s.first then !startCycle else s.ring.cycleState))
        pending := s.pending + 1
        left := ts
        first := false }
  | .incDeq =>
    { s with ring := s.ring.incDeq, pending := if s.ring.lastTrb s.ring.dequeue then s.pending else s.pending - 1 }

/-- A packet is prepared when the one before it has been queued, and the loop ends where that
    fails; only pending TRBs are completed. -/
def Queueing.Allowed (q : Quirks) (urb : Urb) (maxBufferSize : Nat) (env : Env) (s : Queueing) : Op → Prop
  | .prepareTransfer =>
    s.left = [] ∧ ∃ p, urb.packets[s.packet]? = some p ∧
      (Isoc.prepareTransfer q s.ring (countIsocTrbsNeeded urb p maxBufferSize) s.packet env).1 = 0
  | .queueTrb => s.left ≠ []
  | .incDeq => 0 < s.pending

/-- The states that `xhci_queue_isoc_tx` comes through on the ring `r`. -/
def Queueing.Reachable (q : Quirks) (urb : Urb) (maxBufferSize : Nat) (env : Env) (r : Ring) (s : Queueing) : Prop :=
  Run.Reachable (fun s => s = ⟨r, spanned r r.enqueue, 0, [], true⟩) (Allowed q urb maxBufferSize env)
    (step q urb maxBufferSize env r.cycleState) s

/-! ### The loop comes to an end -/

section
variable {q : Quirks} {r r' : Ring} {numTrbs : Nat} {answers : Nat → Answers}

/-- Answers that are not used do not matter. -/
theorem makeRoom_of_run : ∀ {fuel n m : Nat} {error : Int} {r r' : Ring},
    makeRun q numTrbs answers fuel n r = some (m, error, r') → ∀ more : Nat,
      n ≤ m ∧ makeRoom q numTrbs ((List.range' n (m - n + 1 + more)).map answers) r = (error, r') := by
  intro fuel
  induction fuel with
  | zero =>
    intro n m error r r' result
    simp [makeRun] at result
  | succ fuel ih =>
    intro n m error r r' result more
    rw [makeRun] at result
    have one : List.range' n (m - n + 1 + more) = n :: List.range' (n + 1) (m - n + more) := by
      rw [show m - n + 1 + more = (m - n + more) + 1 by omega, List.range'_succ]
    rw [one, List.map_cons, makeRoom]
    split_ifs at result ⊢ with enough command
    · cases result
      exact ⟨le_rfl, rfl⟩
    · cases result
      exact ⟨le_rfl, rfl⟩
    · cases expansion : ringExpansion q r (r.numTrbsNeeded numTrbs).toNat (answers n) with
      | none =>
        simp only [expansion] at result ⊢
        cases result
        exact ⟨le_rfl, rfl⟩
      | some r₁ =>
        simp only [expansion] at result ⊢
        obtain ⟨later, made⟩ := ih result more
        rw [show m - (n + 1) + 1 + more = m - n + more by omega] at made
        exact ⟨by omega, made⟩

/-- Where its loop comes to an end, `prepare_ring` leaves the ring as this says. -/
theorem prepareRing_of_run {epState fuel n : Nat} {status error : Int}
    (result : prepareRun q r epState numTrbs answers status fuel = some (n, error, r')) (more : Nat) :
    r.prepareRing q epState numTrbs ((List.range (n + 1 + more)).map answers) status = (error, r') := by
  rw [prepareRun] at result
  by_cases refused : epStateError epState ≠ 0
  · rw [if_pos refused] at result
    cases result
    rw [Ring.prepareRing, if_pos refused]
  · rw [if_neg refused] at result
    obtain ⟨⟨m, error₁, r₁⟩, made, ends⟩ := Option.map_eq_some_iff.mp result
    have is_n : n = m := by
      dsimp only at ends
      split_ifs at ends
      · exact (congrArg Prod.fst ends).symm
      · exact (congrArg Prod.fst ends).symm
    subst is_n
    obtain ⟨_, loop⟩ := makeRoom_of_run made more
    rw [Nat.sub_zero, ← List.range_eq_range'] at loop
    rcases prepareRing_cases q r epState numTrbs ((List.range (n + 1 + more)).map answers) status with
      ⟨refused', _⟩ | ⟨error₂, r₂, made₂, ways⟩
    · exact absurd refused' refused
    · rw [loop] at made₂
      cases made₂
      dsimp only at ends
      rcases ways with ⟨failed, result⟩ | ⟨rfl, inner, result⟩ | ⟨rfl, onLink, result⟩
      · rw [if_neg fun both => failed both.1] at ends
        exact result.trans (congrArg Prod.snd ends)
      · rw [if_neg fun both => by simp [inner] at both] at ends
        exact result.trans (congrArg Prod.snd ends)
      · rw [if_pos ⟨rfl, onLink⟩] at ends
        exact result.trans (congrArg Prod.snd ends)

/-- `num_trbs_needed` as it is computed in 32-bit words, with the result read as an `int`. -/
def numTrbsNeeded32 (r : Ring) (numTrbs : BitVec 32) : Int :=
  let free := BitVec.ofInt 32 r.numTrbsFree
  let inDeqSeg := BitVec.ofNat 32 r.dequeue.idx
  if free.ult numTrbs then (numTrbs - free).toInt
  else if r.type ≠ .command ∧ r.type ≠ .event then
    if free.ult (numTrbs + inDeqSeg) then (numTrbs + inDeqSeg - free).toInt else 0
  else 0

/-- No request that is a nonnegative `int` is changed by the width of the words. -/
theorem numTrbsNeeded32_eq {numTrbs : BitVec 32} (request : numTrbs.toNat < 2 ^ 31) (free : 0 ≤ r.numTrbsFree)
    (counter : r.numTrbsFree < 2 ^ 32) (inside : r.dequeue.idx ≤ 63) :
    numTrbsNeeded32 r numTrbs = r.numTrbsNeeded numTrbs.toNat := by
  have word : ((BitVec.ofInt 32 r.numTrbsFree).toNat : Int) = r.numTrbsFree := by
    rw [BitVec.toNat_ofInt]
    omega
  have index : (BitVec.ofNat 32 r.dequeue.idx).toNat = r.dequeue.idx := by
    rw [BitVec.toNat_ofNat]
    omega
  have sum : (numTrbs + BitVec.ofNat 32 r.dequeue.idx).toNat = numTrbs.toNat + r.dequeue.idx := by
    rw [BitVec.toNat_add, index]
    omega
  -- A difference that does not go below zero and fits into an `int`.
  have difference : ∀ x y : BitVec 32, y.toNat ≤ x.toNat → x.toNat < y.toNat + 2 ^ 31 → (x - y).toInt = x.toNat - y.toNat := by
    intro x y le small
    have minus : (x - y).toNat = x.toNat - y.toNat := by
      rw [BitVec.toNat_sub_of_le (BitVec.le_def.mpr le)]
    rw [BitVec.toInt_eq_toNat_of_lt (by omega), minus]
    omega
  set word32 := BitVec.ofInt 32 r.numTrbsFree with is_word32
  simp only [numTrbsNeeded32, Ring.numTrbsNeeded, BitVec.ult, decide_eq_true_eq, sum, ← is_word32]
  by_cases short : r.numTrbsFree < numTrbs.toNat
  · rw [if_pos short, if_pos (by omega), difference _ _ (by omega) (by omega), word]
  · rw [if_neg short, if_neg (by omega)]
    by_cases transfers : r.type ≠ .command ∧ r.type ≠ .event
    · rw [if_pos transfers, if_pos transfers]
      by_cases inSegment : r.numTrbsFree < numTrbs.toNat + r.dequeue.idx
      · rw [if_pos inSegment, if_pos (by omega), difference _ _ (by omega) (by omega), sum, word]
        push_cast
        ring
      · rw [if_neg inSegment, if_neg (by omega)]
    · rw [if_neg transfers, if_neg transfers]

/-- How many expansions a request may still take. -/
def stage (r : Ring) (numTrbs : Nat) : Nat :=
  if r.numTrbsFree < numTrbs then 2 else if r.numTrbsNeeded numTrbs < 1 then 0 else 1

/-- What the counters are after an expansion. -/
theorem ringExpansion_counts {needed : Nat} {a : Answers} (result : ringExpansion q r needed a = some r') :
    r'.type = r.type ∧ r'.dequeue = r.dequeue ∧
    (((a.write (r.expansionSegs needed) ≠ .error ∧ a.write (r.expansionSegs needed + 1) ≠ .error) ∧
        r'.numSegs = r.numSegs + r.expansionSegs needed ∧ r'.numTrbsFree = r.numTrbsFree + 63 * r.expansionSegs needed) ∨
      ((∃ i, a.write i = .error) ∧ r'.numSegs = r.numSegs ∧ r'.numTrbsFree = r.numTrbsFree)) := by
  rw [ringExpansion] at result
  split_ifs at result with short
  cases alloc : allocSegmentsForRing q r.type r.cycleState a.write (a.segs.take (r.expansionSegs needed)) r.toSegments with
  | none => simp [alloc] at result
  | some made =>
    obtain ⟨m, first, last⟩ := made
    simp only [alloc, Option.some.injEq] at result
    subst result
    obtain ⟨type, dequeue⟩ := pointers_linkRings q { r with toSegments := m } first last (r.expansionSegs needed)
      (a.write (r.expansionSegs needed)) (a.write (r.expansionSegs needed + 1))
    refine ⟨type, dequeue, ?_⟩
    by_cases failed : a.write (r.expansionSegs needed) = .error ∨ a.write (r.expansionSegs needed + 1) = .error
    · obtain ⟨same, free⟩ := counts_linkRings_error q { r with toSegments := m } first last (r.expansionSegs needed) failed
      refine .inr ⟨?_, same, free⟩
      rcases failed with error | error
      · exact ⟨_, error⟩
      · exact ⟨_, error⟩
    · have written := not_or.mp failed
      obtain ⟨more, free⟩ := counts_linkRings q { r with toSegments := m } first last (r.expansionSegs needed) written
      exact .inl ⟨written, more, free⟩

/-- An expansion brings at least as many segments as the ring has, and at least those it is
    asked for. -/
theorem le_expansionSegs (r : Ring) (needed : Nat) :
    r.numSegs ≤ r.expansionSegs needed ∧ needed ≤ 63 * r.expansionSegs needed := by
  have inner : trbsPerSegment - 1 = 63 := rfl
  rw [expansionSegs, inner]
  constructor
  · split_ifs <;> omega
  · split_ifs <;> omega

/-- When the error has been set before, an expansion of a ring of several segments gets none. -/
theorem ringExpansion_after_error {needed : Nat} {a : Answers} (several : 2 ≤ r.numSegs) (error : ∀ i, a.write i = .error) :
    ringExpansion q r needed a = none := by
  have many := (le_expansionSegs r needed).1
  rw [ringExpansion]
  split_ifs with short
  · rfl
  · have count : (a.segs.take (r.expansionSegs needed)).length = r.expansionSegs needed := by
      rw [List.length_take]
      omega
    have some_segs : a.segs.take (r.expansionSegs needed) ≠ [] := List.ne_nil_of_length_pos (by omega)
    rw [(allocSegments_eq_none q r.type r.cycleState a.write r.toSegments some_segs).mpr ⟨0, by omega, error 0⟩]

/-- Every expansion that is counted brings the request further. -/
theorem stage_lt {k : Nat} (transfer : r.type ≠ .command) (notEvent : r.type ≠ .event) (several : 2 ≤ r.numSegs)
    (inside : r.dequeue.idx ≤ 63) (needed : ¬r.numTrbsNeeded numTrbs < 1)
    (is_k : k = r.expansionSegs (r.numTrbsNeeded numTrbs).toNat) (type : r'.type = r.type) (dequeue : r'.dequeue = r.dequeue)
    (free : r'.numTrbsFree = r.numTrbsFree + 63 * k) : stage r' numTrbs < stage r numTrbs := by
  obtain ⟨double, covers⟩ := le_expansionSegs r (r.numTrbsNeeded numTrbs).toNat
  rw [← is_k] at double covers
  have notEvent' : r'.type ≠ .event := by rwa [type]
  have fits := numTrbsNeeded_lt notEvent' numTrbs
  have short := numTrbsNeeded_lt notEvent numTrbs
  have amount : r.numTrbsFree < numTrbs → r.numTrbsNeeded numTrbs = numTrbs - r.numTrbsFree := by
    intro few
    rw [Ring.numTrbsNeeded, if_pos few]
  rw [slack, type, dequeue, if_neg transfer] at fits
  rw [slack, if_neg transfer] at short
  simp only [stage, if_neg needed]
  by_cases few : r.numTrbsFree < numTrbs
  · have := amount few
    rw [if_pos few, if_neg (by omega)]
    split_ifs <;> omega
  · rw [if_neg few, if_neg (by omega), if_pos (fits.mpr (by omega))]
    omega

/-- What every counted expansion keeps holds at the end of the loop, unless the room could not be
    made; and the loop comes to its end after no more expansions than the request takes. -/
theorem makeRun_rule (q : Quirks) (sticky : Sticky answers) (P : Nat → Ring → Prop)
    (fits : ∀ {n r}, P n r → r.type ≠ .command ∧ r.type ≠ .event ∧ 2 ≤ r.numSegs ∧ r.dequeue.idx ≤ 63)
    (expand : ∀ {n r r'}, P n r → ringExpansion q r (r.numTrbsNeeded numTrbs).toNat (answers n) = some r' →
      (answers n).write (r.expansionSegs (r.numTrbsNeeded numTrbs).toNat) ≠ .error ∧
        (answers n).write (r.expansionSegs (r.numTrbsNeeded numTrbs).toNat + 1) ≠ .error → P (n + 1) r') :
    ∀ {m n : Nat} {r : Ring}, P n r → stage r numTrbs ≤ m → ∃ last error r', last ≤ n + m ∧
      (error = 0 → P last r' ∧ r'.numTrbsNeeded numTrbs < 1) ∧
      ∀ fuel, m < fuel → makeRun q numTrbs answers fuel n r = some (last, error, r') := by
  intro m
  induction m with
  | zero =>
    intro n r holds ends
    have enough : r.numTrbsNeeded numTrbs < 1 := by
      by_contra needed
      simp only [stage, if_neg needed] at ends
      split_ifs at ends <;> omega
    refine ⟨n, 0, r, le_rfl, fun _ => ⟨holds, enough⟩, ?_⟩
    intro fuel some_fuel
    obtain ⟨fuel, rfl⟩ := Nat.exists_eq_succ_of_ne_zero (Nat.ne_of_gt some_fuel)
    rw [makeRun, if_pos enough]
  | succ m ih =>
    intro n r holds ends
    obtain ⟨transfer, notEvent, several, inside⟩ := fits holds
    by_cases enough : r.numTrbsNeeded numTrbs < 1
    · refine ⟨n, 0, r, by omega, fun _ => ⟨holds, enough⟩, ?_⟩
      intro fuel some_fuel
      obtain ⟨fuel, rfl⟩ := Nat.exists_eq_succ_of_ne_zero (Nat.ne_of_gt (Nat.zero_lt_of_lt some_fuel))
      rw [makeRun, if_pos enough]
    · have step : ∀ fuel, makeRun q numTrbs answers (fuel + 1) n r =
          match ringExpansion q r (r.numTrbsNeeded numTrbs).toNat (answers n) with
          | none => some (n, -eNOMEM, r)
          | some r => makeRun q numTrbs answers fuel (n + 1) r := by
        intro fuel
        rw [makeRun, if_neg enough, if_neg transfer]
      cases expansion : ringExpansion q r (r.numTrbsNeeded numTrbs).toNat (answers n) with
      | none =>
        refine ⟨n, -eNOMEM, r, by omega, fun none => absurd none (by decide), ?_⟩
        intro fuel some_fuel
        obtain ⟨fuel, rfl⟩ := Nat.exists_eq_succ_of_ne_zero (Nat.ne_of_gt (Nat.zero_lt_of_lt some_fuel))
        rw [step, expansion]
      | some r₁ =>
        obtain ⟨type, dequeue, ways⟩ := ringExpansion_counts expansion
        rcases ways with ⟨written, more, free⟩ | ⟨⟨i, error⟩, same, free⟩
        · have further := stage_lt transfer notEvent several inside enough rfl type dequeue free
          obtain ⟨last, error, r', few, done, runs⟩ := ih (expand holds expansion written) (by omega)
          refine ⟨last, error, r', by omega, done, ?_⟩
          intro fuel some_fuel
          obtain ⟨fuel, rfl⟩ := Nat.exists_eq_succ_of_ne_zero (Nat.ne_of_gt (Nat.zero_lt_of_lt some_fuel))
          rw [step, expansion]
          exact runs fuel (by omega)
        · -- The request is as it was, and the next expansion fails.
          have asBefore : r₁.numTrbsNeeded numTrbs = r.numTrbsNeeded numTrbs := by
            rw [Ring.numTrbsNeeded, Ring.numTrbsNeeded, type, dequeue, free]
          have failing : ringExpansion q r₁ (r₁.numTrbsNeeded numTrbs).toNat (answers (n + 1)) = none :=
            ringExpansion_after_error (by omega) fun j => sticky n i (n + 1) j (.inl (by omega)) error
          refine ⟨n + 1, -eNOMEM, r₁, by omega, fun none => absurd none (by decide), ?_⟩
          intro fuel some_fuel
          obtain ⟨fuel, rfl⟩ : ∃ k, fuel = k + 2 := ⟨fuel - 2, by omega⟩
          rw [step, expansion]
          dsimp only
          rw [makeRun, asBefore, if_neg enough, type, if_neg transfer, ← asBefore, failing]

end

/-! ### What the expansions keep -/

section
variable {q : Quirks} {r r' : Ring} {numTrbs : Nat} {answers : Nat → Answers} {pending : List Trb} {ccs c : Bool}
  {busy idle : List TrbPtr}

theorem mem_around (queue : Queue r busy idle) (p : TrbPtr) : p ∈ around r ↔ p ∈ busy ++ idle := by
  constructor
  · intro member
    obtain ⟨n, _, rfl⟩ := List.mem_iterate.mp member
    have closed : ∀ n, r.nextTrb^[n] r.enqueue ∈ busy ++ idle := by
      intro n
      induction n with
      | zero => exact queue.enqueue_mem
      | succ n ih =>
        rw [Function.iterate_succ_apply', queue.shape.nextTrb_eq ih]
        exact queue.shape.follow_mem ih
    exact closed n
  · exact mem_lap_iterate queue

/-- The link of the segment of `enqueue` is free: otherwise all TRBs between the pointers would lie
    in that segment, and the others nowhere. -/
theorem TransferRing.free_link (ring : TransferRing r ccs) (queue : Queue r busy idle) :
    ∃ back, idle = run r.enqueue.seg r.enqueue.idx (63 - r.enqueue.idx) ++ link r.enqueue.seg :: back := by
  have ahead := ring.accounted.ahead queue
  have inOrder := inOrder_of queue ahead
  have inside : r.enqueue.idx < 64 := queue.shape.inside _ queue.enqueue_mem
  have first : (idle ++ busy).head? = some ⟨r.enqueue.seg, r.enqueue.idx⟩ := by
    obtain ⟨rest, is_idle⟩ := queue.idle_eq
    simp [is_idle]
  obtain ⟨rest, split⟩ := stretch queue.shape.swap.isLap first (63 - r.enqueue.idx) (by omega)
  have onLink : (⟨r.enqueue.seg, r.enqueue.idx + (63 - r.enqueue.idx)⟩ : TrbPtr) = link r.enqueue.seg := by
    simp [link, trbsPerSegment]
    omega
  rw [onLink] at split
  have within : ∀ p ∈ run r.enqueue.seg r.enqueue.idx (63 - r.enqueue.idx) ++ [link r.enqueue.seg], p.seg = r.enqueue.seg := by
    intro p member
    rcases List.mem_append.mp member with inRun | here
    · exact (mem_run inRun).1
    · rw [List.mem_singleton.mp here]
      rfl
  have joined : idle ++ busy = (run r.enqueue.seg r.enqueue.idx (63 - r.enqueue.idx) ++ [link r.enqueue.seg]) ++ rest := by
    simpa using split
  rcases List.append_eq_append_iff.mp joined with ⟨a, is_front, is_busy⟩ | ⟨a, is_idle, is_rest⟩
  · cases a with
    | nil => exact ⟨[], by simpa using is_front.symm⟩
    | cons x a =>
      exfalso
      have is_x : x = r.dequeue := by
        have leads := inOrder
        rw [is_busy] at leads
        simpa using leads
      have inEnq : r.dequeue.seg = r.enqueue.seg := by
        rw [← is_x]
        exact within x (by simp [is_front])
      have shape := queue.shape
      have single := ring.accounted.2.2 ring.transfer inEnq.symm
      rw [span_busy queue ahead] at single
      have all : ∀ p ∈ busy ++ idle, p ∈ run r.enqueue.seg 0 64 := by
        intro p member
        refine mem_run_iff.mpr ⟨?_, Nat.zero_le _, by simpa using shape.inside p member⟩
        rcases List.mem_append.mp member with inBusy | inIdle
        · exact (single p inBusy).trans inEnq
        · exact within p (by rw [is_front]; exact List.mem_append_left _ inIdle)
      have few := (List.subperm_of_subset shape.isLap.1 all).length_le
      have size := shape.size
      have several := ring.several
      have sixtyFour : (run r.enqueue.seg 0 64).length = 64 := by simp [run]
      omega
  · exact ⟨a, by rw [is_idle]; simp⟩

/-- The ring after some expansions, with the answers from the `n`-th on still to come. -/
structure Growth (r₀ : Ring) (answers : Nat → Answers) (pending : List Trb) (ccs c : Bool) (busy : List TrbPtr) (n : Nat)
    (r : Ring) (idle : List TrbPtr) : Prop where
  view : View r pending ccs busy idle c
  ahead : ¬Overtaken r
  toLink : ∃ back, idle = run r.enqueue.seg r.enqueue.idx (63 - r.enqueue.idx) ++ link r.enqueue.seg :: back
  outside : ∀ m, n ≤ m → ∀ p ∈ busy ++ idle, p.seg ∉ (answers m).segs
  copies : ∀ p ∈ busy, cached r.toSegments p = cached r₀.toSegments p
  transfer : r.type ≠ .command
  several : 2 ≤ r.numSegs
  room : 1 ≤ nonlinks idle

theorem Growth.inside {r₀ : Ring} {n : Nat} (growth : Growth r₀ answers pending ccs c busy n r idle) :
    r.type ≠ .command ∧ r.type ≠ .event ∧ 2 ≤ r.numSegs ∧ r.dequeue.idx ≤ 63 := by
  have shape := growth.view.queue.shape
  have inOrder := inOrder_of growth.view.queue growth.ahead
  have := shape.inside _ (List.mem_of_mem_head? inOrder)
  exact ⟨growth.transfer, shape.notEvent, growth.several, by omega⟩

/-- An expansion that is counted. -/
theorem Growth.expand {r₀ : Ring} {n needed : Nat} (growth : Growth r₀ answers pending ccs c busy n r idle)
    (distinct : (answers n).segs.Nodup) (apart : ∀ m, n ≠ m → (answers n).segs.Disjoint (answers m).segs)
    (result : ringExpansion q r needed (answers n) = some r')
    (written : (answers n).write (r.expansionSegs needed) ≠ .error ∧ (answers n).write (r.expansionSegs needed + 1) ≠ .error) :
    ∃ idle', Growth r₀ answers pending ccs c busy (n + 1) r' idle' := by
  have queue := growth.view.queue
  have notEvent := queue.shape.notEvent
  have distinctLap := queue.shape.isLap.1
  have new := growth.outside n le_rfl
  obtain ⟨last, expanded⟩ := ringExpansion_expanded notEvent distinct (new _ queue.enqueue_mem) written result
  have copied := fun p outside other => ringExpansion_cached_other (p := p) notEvent distinct written result outside other
  set segs := (answers n).segs.take (r.expansionSegs needed) with is_segs
  have distinct' : segs.Nodup := distinct.sublist (List.take_sublist _ _)
  have fresh : ∀ p ∈ busy ++ idle, p.seg ∉ segs := fun p member inTake => new p member (List.mem_of_mem_take inTake)
  obtain ⟨back, is_idle⟩ := growth.toLink
  obtain ⟨queue', inOrder'⟩ := queue.expand (inOrder_of queue growth.ahead) is_idle expanded distinct' fresh
  set front := run r.enqueue.seg r.enqueue.idx (63 - r.enqueue.idx) with is_front
  have room : 1 ≤ nonlinks (front ++ link r.enqueue.seg :: (laid segs ++ back)) := by
    have before := growth.room
    rw [is_idle] at before
    simp only [nonlinks_append, nonlinks_cons] at before ⊢
    omega
  have ahead' := not_overtaken queue' inOrder' room
  refine ⟨_, growth.view.expand growth.ahead expanded is_idle rfl fresh queue' room, ahead', ?_, ?_, ?_, ?_, ?_, room⟩
  · exact ⟨laid segs ++ back, by rw [expanded.enqueue]⟩
  · intro m later p member inSegs
    by_cases inNew : p ∈ laid segs
    · exact apart m (by omega) (List.mem_of_mem_take (mem_laid.mp inNew).1) inSegs
    · refine growth.outside m (by omega) p ?_ inSegs
      rw [is_idle]
      simp only [List.mem_append, List.mem_cons] at member ⊢
      tauto
  · intro p inBusy
    have other : p ≠ link r.enqueue.seg := by
      rintro rfl
      rw [is_idle] at distinctLap
      exact (List.nodup_append.mp distinctLap).2.2 _ inBusy _ (by simp) rfl
    rw [copied p (fresh p (List.mem_append_left _ inBusy)) other]
    exact growth.copies p inBusy
  · rw [expanded.type]
    exact growth.transfer
  · rw [expanded.numSegs]
    have several := growth.several
    omega

/-- The ring before the first expansion. -/
theorem TransferRing.growth (ring : TransferRing r ccs) (fresh : AllFresh r answers) :
    ∃ busy idle, span r r.enqueue = busy ∧ Growth r answers (queued r) ccs ccs busy 0 r idle := by
  obtain ⟨busy, idle, queue, phased⟩ := ring.consistent
  have ahead := ring.accounted.ahead queue
  have is_busy := span_busy queue ahead
  have count := queue.idle_count
  have notNegative := ring.accounted.2.1
  refine ⟨busy, idle, is_busy, ?_, ahead, ring.free_link queue, ?_, fun _ _ => rfl, ring.transfer, ring.several, by omega⟩
  · exact .of_ahead queue phased (by rw [queued, is_busy]) ahead
  · exact fun n _ p member => fresh.outside n p ((mem_around queue p).mpr member)

/-- On a ring in order the link of the last segment is the one that toggles. -/
theorem oneToggle (queue : Queue r busy idle) : OneToggle r := by
  intro p
  rw [mem_around queue]
  constructor
  · rintro ⟨member, flips⟩
    exact (flipsAt_iff queue.shape member).mp flips
  · rintro rfl
    exact ⟨queue.shape.lastLink, (flipsAt_iff queue.shape queue.shape.lastLink).mpr rfl⟩

/-- Handing over a link copies no other TRB. -/
theorem cached_handedOver (q : Quirks) (r : Ring) {p : TrbPtr} (other : p ≠ r.enqueue) :
    cached (handedOver q r).toSegments p = cached r.toSegments p := by
  rw [RingShape.handedOver]
  split_ifs
  · exact (cached_copy _ r.enqueue p).trans (if_neg other)
  · rfl

theorem numTrbsNeeded_nonneg (r : Ring) (numTrbs : Nat) : 0 ≤ r.numTrbsNeeded numTrbs := by
  rw [Ring.numTrbsNeeded]
  split_ifs <;> omega

/-- The room that has been made, as the accounting of the TRBs has it. -/
theorem inv_prepared (queue : Queue r busy idle) (inner : r.enqueue.idx ≠ 63) (enough : r.numTrbsNeeded numTrbs < 1) :
    RingAccount.Inv ⟨r, numTrbs, spanned r r.enqueue⟩ busy idle := by
  refine ⟨queue, ?_, room_made queue enough⟩
  have inOrder := inOrder_of queue (not_overtaken_inner queue inner)
  have shape := queue.shape
  obtain ⟨rest, is_idle⟩ := queue.idle_eq
  rw [is_idle] at inOrder shape
  exact spanned_eq shape inOrder

/-- What the end of `prepare_ring` leaves. -/
theorem Growth.prepared {r₀ : Ring} {n : Nat} (ring : TransferRing r₀ ccs) (is_busy : span r₀ r₀.enqueue = busy)
    (growth : Growth r₀ answers (queued r₀) ccs c busy n r idle) (enough : r.numTrbsNeeded numTrbs < 1) (q : Quirks)
    (status : Int) {error : Int}
    (ends : (if (r.trb r.enqueue).isLink = true then handOver q status (r.numSegs + 1) r else (0, r)) = (error, r'))
    (done : error = 0) : Prepared r₀ r' ccs numTrbs ∧ ∃ busy' idle', RingAccount.Inv ⟨r', numTrbs, spanned r' r'.enqueue⟩ busy' idle' := by
  subst done
  have queue := growth.view.queue
  obtain ⟨busy₀, idle₀, queue₀, phased₀⟩ := ring.consistent
  have ahead₀ := ring.accounted.ahead queue₀
  have before : Fifo ⟨r₀, 0, queued r₀, ccs⟩ :=
    View.fifo (View.of_ahead queue₀ phased₀ (by rw [queued, span_busy queue₀ ahead₀]) ahead₀) ahead₀ 0
  have finish : ∀ {r' : Ring} {busy' idle' : List TrbPtr} {c' : Bool}, View r' (queued r₀) ccs busy' idle' c' →
      r'.enqueue.idx ≠ 63 → r'.numTrbsNeeded numTrbs < 1 → (∀ p ∈ busy, cached r'.toSegments p = cached r₀.toSegments p) →
      Prepared r₀ r' ccs numTrbs ∧ ∃ busy' idle', RingAccount.Inv ⟨r', numTrbs, spanned r' r'.enqueue⟩ busy' idle' := by
    intro r' busy' idle' c' view inner enough copies
    have ahead := not_overtaken_inner view.queue inner
    have notNegative := numTrbsNeeded_nonneg r' numTrbs
    refine ⟨⟨by omega, before, view.fifo ahead numTrbs, ?_, oneToggle view.queue, ?_⟩, _, _, inv_prepared view.queue inner enough⟩
    · rw [is_busy]
      exact copies
    · simpa using mt (view.queue.shape.links _ view.queue.enqueue_mem).mp inner
  by_cases onLink : (r.trb r.enqueue).isLink = true
  · have last := (queue.shape.links _ queue.enqueue_mem).mp onLink
    rw [if_pos onLink, handOver_eq q status queue.shape queue.enqueue_mem last] at ends
    by_cases failed : ehubCacheRing r.type = true ∧ status < 0
    · rw [if_pos failed] at ends
      have := congrArg Prod.fst ends
      dsimp only at this
      omega
    · rw [if_neg failed] at ends
      have is_r' : handedOver q r = r' := congrArg Prod.snd ends
      obtain ⟨busy', idle', c', view', _, _⟩ := growth.view.handedOver q last growth.room
      have enqueue : (handedOver q r).enqueue.idx = 0 := by
        rw [RingShape.handedOver]
        split_ifs <;> rfl
      have same : (handedOver q r).numTrbsNeeded numTrbs = r.numTrbsNeeded numTrbs := by
        rw [RingShape.handedOver]
        split_ifs <;> rfl
      rw [← is_r']
      refine finish view' (by rw [enqueue]; decide) (by rw [same]; exact enough) ?_
      intro p inBusy
      have other : p ≠ r.enqueue := by
        rintro rfl
        obtain ⟨rest, is_idle⟩ := queue.idle_eq
        exact (List.nodup_append.mp queue.shape.isLap.1).2.2 _ inBusy _ (by simp [is_idle]) rfl
      rw [cached_handedOver q r other]
      exact growth.copies p inBusy
  · rw [if_neg onLink] at ends
    have is_r' : r = r' := congrArg Prod.snd ends
    subst is_r'
    have inner : r.enqueue.idx ≠ 63 := fun last => onLink ((queue.shape.links _ queue.enqueue_mem).mpr last)
    exact finish growth.view inner enough growth.copies

/-- `prepare_ring` comes to an end after at most two expansions, and keeps its promises if it
    succeeds. -/
theorem TransferRing.prepares (ring : TransferRing r ccs) (fresh : AllFresh r answers) (sticky : Sticky answers) (q : Quirks)
    (epState numTrbs : Nat) (status : Int) :
    ∃ n error r', n ≤ 2 ∧ (∀ fuel, 2 < fuel → prepareRun q r epState numTrbs answers status fuel = some (n, error, r')) ∧
      (error = 0 → Prepared r r' ccs numTrbs ∧
        ∃ busy idle, RingAccount.Inv ⟨r', numTrbs, spanned r' r'.enqueue⟩ busy idle) := by
  obtain ⟨busy, idle, is_busy, growth⟩ := ring.growth fresh
  by_cases refused : epStateError epState ≠ 0
  · refine ⟨0, epStateError epState, r, by omega, ?_, fun done => absurd done refused⟩
    intro fuel _
    rw [prepareRun, if_pos refused]
  · have stages : stage r numTrbs ≤ 2 := by
      rw [stage]
      split_ifs <;> omega
    obtain ⟨n, error, r', few, done, runs⟩ := makeRun_rule q sticky
      (fun n r' => ∃ idle, Growth r answers (queued r) ccs ccs busy n r' idle) (fun ⟨_, growth⟩ => growth.inside)
      (fun ⟨_, growth⟩ result written => growth.expand (fresh.distinct _) (fresh.apart _) result written)
      ⟨idle, growth⟩ stages
    have begins : ∀ fuel, 2 < fuel → prepareRun q r epState numTrbs answers status fuel =
        some (if error = 0 ∧ (r'.trb r'.enqueue).isLink = true then (n, handOver q status (r'.numSegs + 1) r')
          else (n, error, r')) := by
      intro fuel enough
      rw [prepareRun, if_neg refused, runs fuel enough, Option.map_some]
    by_cases made : error = 0
    · subst made
      obtain ⟨⟨_, growth'⟩, enough⟩ := done rfl
      obtain ⟨error', r'', ends⟩ : ∃ error' r'', (if (r'.trb r'.enqueue).isLink = true then
          handOver q status (r'.numSegs + 1) r' else (0, r')) = (error', r'') := ⟨_, _, rfl⟩
      refine ⟨n, error', r'', by omega, ?_, growth'.prepared ring is_busy enough q status ends⟩
      intro fuel enough
      rw [begins fuel enough, ← ends]
      split_ifs with both onLink
      · rfl
      · exact absurd both.2 onLink
      · exact absurd ⟨rfl, ‹_›⟩ both
      · rfl
    · refine ⟨n, error, r', by omega, ?_, fun none => absurd none made⟩
      intro fuel enough
      rw [begins fuel enough, if_neg fun both => made both.1]

end

/-! ### A URB in the room made for it -/

section
variable {q : Quirks} {urb : Urb} {maxBufferSize : Nat} {env : Env} {r r' : Ring} {busy idle : List TrbPtr} {s : Queueing}

/-- The TRBs that the packets from the `i`-th on take. -/
def trbsFrom (urb : Urb) (maxBufferSize i : Nat) : Nat :=
  ((urb.packets.drop i).map (countIsocTrbsNeeded urb · maxBufferSize)).sum

theorem trbsFrom_eq {i : Nat} {p : Packet} (here : urb.packets[i]? = some p) :
    trbsFrom urb maxBufferSize i = countIsocTrbsNeeded urb p maxBufferSize + trbsFrom urb maxBufferSize (i + 1) := by
  obtain ⟨inside, is_p⟩ := List.getElem?_eq_some_iff.mp here
  rw [trbsFrom, List.drop_eq_getElem_cons inside, is_p, List.map_cons, List.sum_cons, trbsFrom]

/-- There is room for the TRBs of the URB that have not been queued. -/
structure Queueing.Inv (urb : Urb) (maxBufferSize : Nat) (s : Queueing) (busy idle : List TrbPtr) : Prop where
  account : RingAccount.Inv ⟨s.ring, s.left.length + trbsFrom urb maxBufferSize s.packet, s.pending⟩ busy idle
  inner : s.left ≠ [] → s.ring.enqueue.idx ≠ 63
  plain : ∀ t ∈ s.left, t.isLink = false

/-- Where the next TD is prepared nothing is missing. -/
theorem Queueing.Inv.enough (inv : Inv urb maxBufferSize s busy idle) {p : Packet} (here : urb.packets[s.packet]? = some p) :
    s.ring.numTrbsNeeded (countIsocTrbsNeeded urb p maxBufferSize) < 1 := by
  have queue : Queue s.ring busy idle := inv.account.queue
  have room : s.left.length + trbsFrom urb maxBufferSize s.packet + slack s.ring + 1 ≤ nonlinks idle := inv.account.room
  have count := queue.idle_count
  rw [trbsFrom_eq here] at room
  rw [numTrbsNeeded_lt queue.shape.notEvent]
  omega

/-- Between two TRBs of a TD `enqueue` is not left on a link. -/
theorem queueTrb_inner (queue : Queue r busy idle) (inner : r.enqueue.idx ≠ 63) {t : Trb} (plain : t.isLink = false)
    (room : 2 ≤ nonlinks idle) : (r.queueTrb q true t).enqueue.idx ≠ 63 := by
  obtain ⟨rest, rfl⟩ := queue.idle_eq
  rw [nonlinks_cons, if_pos inner] at room
  rcases queue.queueTrb_cases q inner true plain (by omega) with ⟨eq, _, goesOn⟩ | ⟨_, _, _, eq, _, _⟩
  · rw [eq]
    exact goesOn rfl
  · rw [eq]
    simp [RingShape.linkGiven]

/-- A link is handed over, or nothing is done. -/
theorem inv_prepareRing {n : Nat} {pending epState numTrbs : Nat} {answers : List Answers} {status : Int}
    (inv : RingAccount.Inv ⟨r, n, pending⟩ busy idle) (enough : r.numTrbsNeeded numTrbs < 1)
    (result : r.prepareRing q epState numTrbs answers status = (0, r')) :
    ∃ busy' idle', RingAccount.Inv ⟨r', n, pending⟩ busy' idle' := by
  have queue : Queue r busy idle := inv.queue
  rcases prepareRing_cases q r epState numTrbs answers status with ⟨refused, same⟩ | ⟨error, r₁, made, ways⟩
  · rw [result] at same
    exact absurd (congrArg Prod.fst same).symm refused
  · rw [makeRoom_of_enough q enough] at made
    cases made
    rcases ways with ⟨failed, _⟩ | ⟨_, _, same⟩ | ⟨_, onLink, same⟩
    · exact absurd rfl failed
    · rw [result] at same
      cases same
      exact ⟨busy, idle, inv⟩
    · have last := (queue.shape.links _ queue.enqueue_mem).mp onLink
      rw [result, handOver_eq q status queue.shape queue.enqueue_mem last] at same
      split_ifs at same with failed
      · have := congrArg Prod.fst same
        dsimp only at this
        omega
      · cases same
        exact inv.handedOver q last

theorem Queueing.Inv.prepareTransfer (inv : Inv urb maxBufferSize s busy idle) (none_left : s.left = []) {p : Packet}
    (here : urb.packets[s.packet]? = some p)
    (done : (Isoc.prepareTransfer q s.ring (countIsocTrbsNeeded urb p maxBufferSize) s.packet env).1 = 0) (startCycle : Bool) :
    ∃ busy' idle', Inv urb maxBufferSize (s.step q urb maxBufferSize env startCycle .prepareTransfer) busy' idle' := by
  obtain ⟨r', result, same⟩ : ∃ r', s.ring.prepareRing q (env.epState s.packet) (countIsocTrbsNeeded urb p maxBufferSize)
      (env.answers s.packet) (env.status s.packet) = (0, r') ∧
      (Isoc.prepareTransfer q s.ring (countIsocTrbsNeeded urb p maxBufferSize) s.packet env).2 = r' := by
    rw [Isoc.prepareTransfer] at done ⊢
    obtain ⟨error, r', result⟩ : ∃ error r', s.ring.prepareRing q (env.epState s.packet)
        (countIsocTrbsNeeded urb p maxBufferSize) (env.answers s.packet) (env.status s.packet) = (error, r') := ⟨_, _, rfl⟩
    rw [result] at done ⊢
    by_cases prepared : error = 0
    · subst prepared
      refine ⟨r', rfl, ?_⟩
      split_ifs <;> rfl
    · split at done
      · rename_i heq
        exact absurd (congrArg Prod.fst heq) prepared
      · rename_i heq
        exact absurd ((congrArg Prod.fst heq).trans done) prepared
  have account := inv.account
  rw [none_left, List.length_nil, Nat.zero_add, trbsFrom_eq here] at account
  obtain ⟨busy', idle', account'⟩ := inv_prepareRing account (inv.enough here) result
  have queue' : Queue r' busy' idle' := account'.queue
  simp only [Queueing.step, here]
  refine ⟨busy', idle', ?_, fun _ => ?_, ?_⟩
  · rw [length_packetTrbs, same]
    exact account'
  · rw [same]
    exact (prepareRing_done result queue').2
  · exact tdTrbs_plain urb s.packet _ true _

theorem Queueing.Inv.queueTrb (inv : Inv urb maxBufferSize s busy idle) (some_left : s.left ≠ []) (startCycle : Bool) :
    ∃ busy' idle', Inv urb maxBufferSize (s.step q urb maxBufferSize env startCycle .queueTrb) busy' idle' := by
  obtain ⟨t, ts, is_left⟩ := List.exists_cons_of_ne_nil some_left
  have queue : Queue s.ring busy idle := inv.account.queue
  have inner := inv.inner some_left
  have notLink : (s.ring.trb s.ring.enqueue).isLink = false := by
    simpa using mt (queue.shape.links _ queue.enqueue_mem).mp inner
  have room : s.left.length + trbsFrom urb maxBufferSize s.packet + slack s.ring + 1 ≤ nonlinks idle := inv.account.room
  have account := inv.account
  rw [is_left, List.length_cons] at room account
  have plain : ∀ cycle : Bool, (t.setCycle cycle).isLink = false := by
    intro cycle
    simpa using inv.plain t (by simp [is_left])
  simp only [Queueing.step, is_left]
  set cycle := if s.first then !startCycle else s.ring.cycleState with is_cycle
  obtain ⟨busy', idle', account'⟩ := account.queueTrb q (!ts.isEmpty) (by simp) notLink (plain cycle)
  refine ⟨busy', idle', ?_, ?_, ?_⟩
  · have reserved : ts.length + 1 + trbsFrom urb maxBufferSize s.packet - 1 = ts.length + trbsFrom urb maxBufferSize s.packet := by
      omega
    simpa only [RingAccount.State.step, reserved] using account'
  · intro more
    have goesOn : (!ts.isEmpty) = true := by simpa using more
    rw [goesOn]
    have some_more := List.length_pos_of_ne_nil more
    exact queueTrb_inner queue inner (plain cycle) (by omega)
  · exact fun t' member => inv.plain t' (by simp [is_left, member])

theorem Queueing.Inv.incDeq (inv : Inv urb maxBufferSize s busy idle) (pending : 0 < s.pending) (startCycle : Bool) :
    ∃ busy' idle', Inv urb maxBufferSize (s.step q urb maxBufferSize env startCycle .incDeq) busy' idle' := by
  obtain ⟨busy', idle', account⟩ := inv.account.incDeq q pending
  have queue : Queue s.ring busy idle := inv.account.queue
  have member : s.ring.dequeue ∈ busy ++ idle := by
    have counted : s.pending = nonlinks busy := inv.account.pending
    cases busy with
    | nil =>
      rw [nonlinks_nil] at counted
      omega
    | cons x busy =>
      have is_x : x = s.ring.dequeue := queue.first_busy
      simp [is_x]
  have still : s.ring.incDeq.enqueue = s.ring.enqueue := by rw [incDeq_eq queue.shape member]
  refine ⟨busy', idle', account, ?_, inv.plain⟩
  show s.left ≠ [] → s.ring.incDeq.enqueue.idx ≠ 63
  rw [still]
  exact inv.inner

/-- What has been reserved for the URB stays there. -/
theorem Queueing.inv_reachable {numTrbs : Nat} (whole : trbsBefore urb maxBufferSize urb.packets.length = numTrbs)
    (inv : RingAccount.Inv ⟨r, numTrbs, spanned r r.enqueue⟩ busy idle) (reachable : Reachable q urb maxBufferSize env r s) :
    ∃ busy idle, Inv urb maxBufferSize s busy idle := by
  refine Run.Reachable.invariant (P := fun s => ∃ busy idle, Inv urb maxBufferSize s busy idle) ?_ ?_ reachable
  · rintro s rfl
    refine ⟨busy, idle, ?_, fun some_left => absurd rfl some_left, by simp⟩
    have all : trbsFrom urb maxBufferSize 0 = numTrbs := by
      rw [← whole, trbsBefore, trbsFrom, List.drop_zero, List.take_length]
    simpa only [List.length_nil, Nat.zero_add, all] using inv
  · rintro s op ⟨busy, idle, inv⟩ allowed
    cases op with
    | prepareTransfer =>
      obtain ⟨none_left, p, here, done⟩ := allowed
      exact inv.prepareTransfer none_left here done r.cycleState
    | queueTrb => exact inv.queueTrb allowed r.cycleState
    | incDeq => exact inv.incDeq allowed r.cycleState

/-- The TRBs of a TD, with no completion in between. -/
theorem Queueing.Reachable.queueRest : ∀ {ts : List Trb} {s : Queueing}, Reachable q urb maxBufferSize env r s → s.left = ts →
    s.first = false → Reachable q urb maxBufferSize env r
      { s with ring := Ring.queueRest q ts s.ring, pending := s.pending + ts.length, left := [] } := by
  intro ts
  induction ts with
  | nil =>
    intro s reachable none_left _
    obtain ⟨ring, pending, packet, left, first⟩ := s
    simp only at none_left
    simpa [Ring.queueRest, none_left] using reachable
  | cons t ts ih =>
    intro s reachable is_left notFirst
    have step := Run.Reachable.step Op.queueTrb reachable
      (show s.left ≠ [] by simp [is_left])
    simp only [Queueing.step, is_left, notFirst] at step
    have rest := ih step rfl rfl
    simpa [Ring.queueRest, notFirst, Nat.add_assoc, Nat.add_comm 1] using rest

/-- Without completions the states that the URB comes through are those of its loop. -/
theorem Queueing.reachable_ringAt : ∀ {i : Nat}, i ≤ urb.packets.length →
    (∀ k < i, ∀ p, urb.packets[k]? = some p →
      (Isoc.prepareTransfer q (ringAt q r urb maxBufferSize env k) (countIsocTrbsNeeded urb p maxBufferSize) k env).1 = 0) →
    Reachable q urb maxBufferSize env r
      ⟨ringAt q r urb maxBufferSize env i, spanned r r.enqueue + trbsBefore urb maxBufferSize i, i, [], i == 0⟩ := by
  intro i
  induction i with
  | zero =>
    intro _ _
    exact .first (by simp [ringAt, trbsBefore])
  | succ i ih =>
    intro inside prepared
    obtain ⟨p, here⟩ : ∃ p, urb.packets[i]? = some p := ⟨_, List.getElem?_eq_getElem (by omega)⟩
    have before := ih (by omega) fun k earlier => prepared k (by omega)
    have step := Run.Reachable.step Op.prepareTransfer before
      (show Queueing.Allowed _ _ _ _ _ Op.prepareTransfer from ⟨rfl, p, here, prepared i (by omega) p here⟩)
    simp only [Queueing.step, here] at step
    have further : trbsBefore urb maxBufferSize (i + 1) = trbsBefore urb maxBufferSize i +
        (packetTrbs urb maxBufferSize i p).length := by
      rw [length_packetTrbs, trbsBefore_succ here]
    simp only [ringAt, here]
    rw [further, ← Nat.add_assoc]
    set r₁ := (Isoc.prepareTransfer q (ringAt q r urb maxBufferSize env i) (countIsocTrbsNeeded urb p maxBufferSize) i env).2
    cases i with
    | succ i =>
      have rest := Queueing.Reachable.queueRest step rfl rfl
      simpa [queuePacket] using rest
    | zero =>
      obtain ⟨t, ts, is_trbs⟩ : ∃ t ts, packetTrbs urb maxBufferSize 0 p = t :: ts := by
        apply List.exists_cons_of_ne_nil
        apply List.ne_nil_of_length_pos
        rw [length_packetTrbs]
        exact countIsocTrbsNeeded_pos urb p maxBufferSize
      rw [is_trbs] at step ⊢
      have first := Run.Reachable.step Op.queueTrb step (show t :: ts ≠ [] by simp)
      simp only [Queueing.step] at first
      have rest := Queueing.Reachable.queueRest first rfl rfl
      simpa [queuePacket, Nat.add_assoc, Nat.add_comm 1] using rest

end

/-- The rings that the driver comes to are transfer rings in this sense, unless `dequeue` has run
    past the link on which `enqueue` rests. -/
theorem transferRing_reachable {q : Quirks} {s : RingFifo.State} (reachable : RingFifo.Reachable q RingFifo.Careful s)
    (transfer : s.ring.type ≠ .command) (several : 2 ≤ s.ring.numSegs) (ahead : ¬Overtaken s.ring) :
    TransferRing s.ring s.ccs := by
  obtain ⟨busy, idle, c, inv⟩ := RingFifo.inv_reachable reachable
  have room := inv.room
  refine ⟨transfer, several, accounted_ahead inv.view.queue ahead (by omega), busy, idle, inv.view.queue, ?_⟩
  rw [inv.view.ccs_ahead ahead]
  exact inv.view.phased

/-- `prepare_ring` comes to an end whatever becomes of the allocations. If it succeeds it has
    expanded the ring at most twice and kept its promises; and if the room was made for a URB,
    none of the URB's TDs needs an expansion, whatever TRBs are completed in between. -/
theorem prepareRing_makesRoom {q : Quirks} {r : Ring} {ccs : Bool} {answers : Nat → Answers} (ring : TransferRing r ccs)
    (fresh : AllFresh r answers) (sticky : Sticky answers) (epState numTrbs : Nat) (status : Int) :
    ∃ n error r', n ≤ 2 ∧ (∀ fuel, 2 < fuel → prepareRun q r epState numTrbs answers status fuel = some (n, error, r')) ∧
      (error = 0 → Prepared r r' ccs numTrbs ∧
        ∀ urb maxBufferSize env, trbsBefore urb maxBufferSize urb.packets.length = numTrbs →
          ∀ s, Queueing.Reachable q urb maxBufferSize env r' s → ∀ p, urb.packets[s.packet]? = some p → s.left = [] →
            ∀ more, makeRoom q (countIsocTrbsNeeded urb p maxBufferSize) more s.ring = (0, s.ring)) := by
  obtain ⟨n, error, r', few, runs, done⟩ := ring.prepares fresh sticky q epState numTrbs status
  refine ⟨n, error, r', few, runs, fun succeeds => ?_⟩
  obtain ⟨prepared, busy, idle, inv⟩ := done succeeds
  refine ⟨prepared, ?_⟩
  intro urb maxBufferSize env whole s reachable p here _ more
  obtain ⟨_, _, inv'⟩ := Queueing.inv_reachable whole inv reachable
  exact makeRoom_of_enough q (inv'.enough here) more

/-- Two more segments for the bulk ring, and none after them. -/
def twoMore : Nat → Answers
  | 0 => moreSegs fun _ => .accepted
  | _ + 1 => ⟨[], fun _ => .accepted⟩

theorem bulkRing_transferRing : TransferRing bulkRing true :=
  transferRing_reachable (s := ⟨bulkRing, 0, [], true⟩) (.first RingFifo.bulkRing_new) (by decide +kernel) (by decide +kernel)
    (by decide +kernel)

theorem twoMore_fresh : AllFresh bulkRing twoMore := by
  refine ⟨?_, ?_, ?_⟩
  · intro n
    cases n <;> simp [twoMore, moreSegs]
  · intro n m other
    cases n with
    | zero =>
      cases m with
      | zero => exact absurd rfl other
      | succ m => simp [twoMore]
    | succ n => simp [twoMore]
  · intro n
    cases n with
    | zero => decide +kernel
    | succ n => simp [twoMore]

theorem twoMore_sticky : Sticky twoMore := by
  intro n i m j _ error
  cases n <;> simp [twoMore, moreSegs] at error

theorem prepareRing_makesRoom_bulkRing : ∃ r', prepareRun ⟨false, false⟩ bulkRing 1 130 twoMore 0 3 = some (1, 0, r') ∧
    Prepared bulkRing r' true 130 := by
  obtain ⟨n, error, r', _, runs, done⟩ := prepareRing_makesRoom (q := ⟨false, false⟩) bulkRing_transferRing twoMore_fresh
    twoMore_sticky 1 130 0
  have shown : (prepareRun ⟨false, false⟩ bulkRing 1 130 twoMore 0 3).map (fun made => (made.1, made.2.1)) = some (1, 0) := by
    decide +kernel
  rw [runs 3 (by omega)] at shown
  simp only [Option.map_some, Option.some.injEq, Prod.mk.injEq] at shown
  obtain ⟨rfl, rfl⟩ := shown
  exact ⟨r', runs 3 (by omega), (done rfl).1⟩

end Ehub.MakeRoom
