import Mathlib
import Ehub.Run
import Ehub.RingAccount

/-!
Doorbells of cached rings (`ehub_queue_cache_write`, `URB_CompletionRoutine_Cache`).
The TRBs of a TD go to the device in several writes: the link that `prepare_ring` hands
over, then one stretch for each segment (`ehub_xhci_cache_copy_from_ring`). The last
stretch carries the request to ring the doorbell, which is done when its URB comes back.
The completion routine looks at the error flags of the driver; the status of the URB it
does not look at.

URBs complete in the order of their submission, at any time between the steps that
queue TDs on the rings. What is given to the hardware by one `giveback_first_trb` is a
batch: one TD, or all TDs of an isoc URB.
-/
namespace Ehub.Doorbell
open Ehub.Ring Ehub.Segments

/-- A slot and an endpoint index of it. -/
abbrev Endpoint := Nat × Nat

/-- The TRBs of a segment from `first` to `last`, and whether they are the last ones of a
    batch. -/
structure Stretch where
  seg : Addr
  first : Nat
  last : Nat
  lastCopy : Bool
deriving DecidableEq

/-- A cache write that was submitted. `batch` says whose TRBs it carries: the endpoint and
    the number of its batch; segments that are made or linked belong to no batch. -/
structure Write where
  stretch : Stretch
  ringDoorbell : Bool
  slotId : Nat
  epIndex : Nat
  batch : Option (Endpoint × Nat)
deriving DecidableEq

/-- The stretches that the loop of `ehub_xhci_cache_copy_from_ring` submits. -/
def copyStretches (last : TrbPtr) (write : Nat → CacheWrite) (next : Addr → Addr) : Nat → Nat → TrbPtr → List Stretch
  | 0, _, _ => []
  | fuel + 1, i, start =>
    if start.seg ≠ last.seg ∨ start.idx > last.idx then
      if write i = .accepted then
        ⟨start.seg, start.idx, trbsPerSegment - 1, false⟩ :: copyStretches last write next fuel (i + 1) ⟨next start.seg, 0⟩
      else []
    else if write i = .accepted then [⟨start.seg, start.idx, last.idx, true⟩]
    else []

/-- The stretches that `giveback_first_trb` submits. -/
def givebackStretches (r : Ring) (write : Nat → CacheWrite) : List Stretch :=
  if ehubCacheRing r.type then
    match r.findPrevTrb r.enqueue with
    | none => []
    | some last => copyStretches last write r.next (r.numSegs + 1) 0 r.cacheEnqueue
  else []

/-- The links that the end of `prepare_ring` submits. -/
def handOverLinks (q : Quirks) (status : Int) : Nat → Ring → List TrbPtr
  | 0, _ => []
  | fuel + 1, r =>
    if r.lastTrb r.enqueue then
      let r := r.modifyTrb r.enqueue (·.setChain (linkChained q r.type))
      let r := r.giveLink
      if ehubCacheRing r.type then
        if status < 0 then []
        else r.enqueue :: handOverLinks q status fuel { r with toSegments := r.copy r.enqueue }.enqueueNextSeg
      else handOverLinks q status fuel r.enqueueNextSeg
    else []

/-- The links that `prepare_ring` hands over and submits. -/
def prepareLinks (q : Quirks) (r : Ring) (epState numTrbs : Nat) (answers : List Answers) (status : Int) : List TrbPtr :=
  if epStateError epState ≠ 0 then []
  else
    match makeRoom q numTrbs answers r with
    | (0, r) => if (r.trb r.enqueue).isLink then handOverLinks q status (r.numSegs + 1) r else []
    | _ => []

/-- The rings of the endpoints, the submitted writes in their order, those that came back
    with their status, the number of the batch that each endpoint is at, an error that
    `DEVICECONTEXT_ErrorCheck` finds (no error is taken back), and the writes whose
    completion rang a doorbell. -/
structure State where
  ring : Endpoint → Ring
  inFlight : List Write
  completed : List (Write × Int)
  batch : Endpoint → Nat
  error : Bool
  doorbells : List Write

namespace State

def setRing (s : State) (e : Endpoint) (r : Ring) : State := { s with ring := Function.update s.ring e r }

def submit (s : State) (writes : List Write) : State := { s with inFlight := s.inFlight ++ writes }

/-- `prepare_ring`. Its writes name no endpoint. -/
def prepareRing (q : Quirks) (s : State) (e : Endpoint) (epState numTrbs : Nat) (answers : List Answers) (status : Int) :
    State :=
  (s.setRing e ((s.ring e).prepareRing q epState numTrbs answers status).2).submit
    ((prepareLinks q (s.ring e) epState numTrbs answers status).map fun p =>
      ⟨⟨p.seg, p.idx, p.idx, false⟩, false, 0, 0, some (e, s.batch e)⟩)

def queueTrb (q : Quirks) (s : State) (e : Endpoint) (more : Bool) (t : Trb) : State :=
  s.setRing e ((s.ring e).queueTrb q more t)

/-- `giveback_first_trb`. -/
def giveback (s : State) (e : Endpoint) (startCycle : Bool) (startTrb : TrbPtr) (write : Nat → CacheWrite) : State :=
  let stretches := givebackStretches ((s.ring e).modifyTrb startTrb (·.setCycle startCycle)) write
  { (s.setRing e ((s.ring e).givebackFirstTrb startCycle startTrb write)).submit
      (stretches.map fun w => ⟨w, w.lastCopy, e.1, e.2, some (e, s.batch e)⟩) with
    batch := Function.update s.batch e (s.batch e + 1) }

/-- `URB_CompletionRoutine_Cache` for the URB that was submitted first. `blocked` says that
    one of `EP_HALT_PENDING`, `SET_DEQ_PENDING` and `EP_HALTED` is set, in which case
    `ehub_xhci_ring_ep_doorbell` does nothing. -/
def complete (s : State) (status : Int) (blocked : Bool) : State :=
  match s.inFlight with
  | [] => s
  | w :: rest =>
    let s := { s with inFlight := rest, completed := s.completed ++ [(w, status)] }
    if s.error then s
    else if w.ringDoorbell ∧ !blocked then { s with doorbells := s.doorbells ++ [w] }
    else s

end State

/-- `other` submits a write that belongs to no batch, for a segment that is made or
    linked. -/
inductive Op where
  | prepareRing (e : Endpoint) (epState numTrbs : Nat) (answers : List Answers) (status : Int)
  | queueTrb (e : Endpoint) (more : Bool) (t : Trb)
  | giveback (e : Endpoint) (startCycle : Bool) (startTrb : TrbPtr) (write : Nat → CacheWrite)
  | other (stretch : Stretch)
  | raise
  | complete (status : Int) (blocked : Bool)

def State.step (q : Quirks) (s : State) : Op → State
  | .prepareRing e epState numTrbs answers status => s.prepareRing q e epState numTrbs answers status
  | .queueTrb e more t => s.queueTrb q e more t
  | .giveback e startCycle startTrb write => s.giveback e startCycle startTrb write
  | .other stretch => s.submit [⟨stretch, false, 0, 0, none⟩]
  | .raise => { s with error := true }
  | .complete status blocked => s.complete status blocked

/-- No write was submitted; the rings are in any state. -/
def State.initial (ring : Endpoint → Ring) : State := ⟨ring, [], [], fun _ => 0, false, []⟩

/-- A write that carries TRBs of a batch fails only after an error was found. -/
def Noticed (s : State) : Op → Prop
  | .complete status _ => ∀ w rest, s.inFlight = w :: rest → w.batch ≠ none → s.error = false → status = 0
  | _ => True

def Reachable (q : Quirks) (condition : State → Op → Prop) (s : State) : Prop :=
  Run.Reachable (fun s => ∃ ring, s = State.initial ring) condition (State.step q) s

/-- All writes of a batch have come back with status 0. -/
structure Written (s : State) (batch : Option (Endpoint × Nat)) : Prop where
  landed : ∀ w ∈ s.inFlight, w.batch ≠ batch
  good : ∀ w status, (w, status) ∈ s.completed → w.batch = batch → status = 0

/-- Every doorbell was rung for a batch all of whose writes have come back with status 0. -/
def DoorbellsBehind (s : State) : Prop := ∀ w ∈ s.doorbells, Written s w.batch

/-! ### The submitted writes are what changes the cache -/

/-- The loop copies the stretches that it submits. -/
theorem cacheCopyLoop_stretches (last : TrbPtr) (write : Nat → CacheWrite) : ∀ (fuel i : Nat) (start : TrbPtr) (r : Ring),
    cacheCopyLoop last write fuel i start r =
      (copyStretches last write r.next fuel i start).foldl (fun r w => r.copyTrbs w.seg w.first w.last) r := by
  intro fuel
  induction fuel with
  | zero => exact fun _ _ _ => rfl
  | succ fuel ih =>
    intro i start r
    rw [cacheCopyLoop, copyStretches]
    by_cases more : start.seg ≠ last.seg ∨ start.idx > last.idx
    · rw [if_pos more, if_pos more]
      by_cases accepted : write i = .accepted
      · rw [if_pos accepted, if_pos accepted, ih, List.foldl_cons]
        rfl
      · rw [if_neg accepted, if_neg accepted, List.foldl_nil]
    · rw [if_neg more, if_neg more]
      by_cases accepted : write i = .accepted
      · rw [if_pos accepted, if_pos accepted, List.foldl_cons, List.foldl_nil]
      · rw [if_neg accepted, if_neg accepted, List.foldl_nil]

/-- `giveback_first_trb` changes the cache by the stretches that it submits. -/
theorem givebackFirstTrb_cache (r : Ring) (startCycle : Bool) (startTrb : TrbPtr) (write : Nat → CacheWrite) :
    (r.givebackFirstTrb startCycle startTrb write).cache =
      ((givebackStretches (r.modifyTrb startTrb (·.setCycle startCycle)) write).foldl
        (fun r w => r.copyTrbs w.seg w.first w.last) (r.modifyTrb startTrb (·.setCycle startCycle))).cache := by
  simp only [givebackFirstTrb, givebackStretches]
  by_cases cached : ehubCacheRing (r.modifyTrb startTrb (·.setCycle startCycle)).type
  · rw [if_pos cached, if_pos cached, cacheCopyFromRing]
    cases (r.modifyTrb startTrb (·.setCycle startCycle)).findPrevTrb (r.modifyTrb startTrb (·.setCycle startCycle)).enqueue with
    | none => rfl
    | some last =>
      dsimp only
      rw [cacheCopyLoop_stretches]
  · rw [if_neg cached, if_neg cached, List.foldl_nil]

/-- The end of `prepare_ring` changes the cache where it submits a link. -/
theorem handOver_cache (q : Quirks) (status : Int) (p : TrbPtr) : ∀ (fuel : Nat) (r : Ring), p ∉ handOverLinks q status fuel r →
    (handOver q status fuel r).2.cache p.seg p.idx = r.cache p.seg p.idx := by
  intro fuel
  induction fuel with
  | zero => exact fun _ _ => rfl
  | succ fuel ih =>
    intro r outside
    rw [handOverLinks] at outside
    rw [handOver]
    have kept : ∀ r : Ring, (r.modifyTrb r.enqueue (·.setChain (linkChained q r.type))).giveLink.cache = r.cache := by
      intro r
      rw [giveLink]
      split_ifs <;> rfl
    by_cases isLink : r.lastTrb r.enqueue
    · rw [if_pos isLink] at outside ⊢
      simp only at outside ⊢
      generalize given : (r.modifyTrb r.enqueue (·.setChain (linkChained q r.type))).giveLink = r' at outside ⊢
      have same : r'.cache = r.cache := given ▸ kept r
      by_cases cached : ehubCacheRing r'.type
      · rw [if_pos cached] at outside ⊢
        by_cases refused : status < 0
        · rw [if_pos refused, same]
        · rw [if_neg refused] at outside ⊢
          rw [List.mem_cons, not_or] at outside
          rw [ih _ outside.2]
          have elsewhere : ¬(p.seg = r'.enqueue.seg ∧ p.idx = r'.enqueue.idx) := by
            rintro ⟨seg, idx⟩
            exact outside.1 (by cases p; cases h : r'.enqueue; simp_all)
          show (if p.seg = r'.enqueue.seg ∧ p.idx = r'.enqueue.idx then _ else r'.cache p.seg p.idx) = _
          rw [if_neg elsewhere, same]
      · rw [if_neg cached] at outside ⊢
        rw [ih _ outside]
        show r'.cache p.seg p.idx = _
        rw [same]
    · rw [if_neg isLink]

/-! ### The order of the writes -/

/-- `left` before `right` in flight: the doorbell of a batch is asked for behind all its
    writes. -/
def Before (left right : Write) : Prop := left.ringDoorbell = true → left.batch ≠ right.batch

/-- What a write in flight says about the batch its endpoint is at. -/
def Recent (batch : Endpoint → Nat) (w : Write) : Prop :=
  ∀ e n, w.batch = some (e, n) → n ≤ batch e ∧ (w.ringDoorbell = true → n < batch e)

structure Inv (s : State) : Prop where
  ordered : s.inFlight.Pairwise Before
  recent : ∀ w ∈ s.inFlight, Recent s.batch w
  named : ∀ w ∈ s.inFlight, w.ringDoorbell = true → w.batch ≠ none
  clean : s.error = false → ∀ w status, (w, status) ∈ s.completed → w.batch ≠ none → status = 0
  rung : ∀ w ∈ s.doorbells, (∃ e n, w.batch = some (e, n) ∧ n < s.batch e) ∧ Written s w.batch

theorem inv_initial (ring : Endpoint → Ring) : Inv (State.initial ring) := by
  constructor <;> simp [State.initial]

section
variable {s : State} {e : Endpoint}

/-- Writes without a doorbell, of the batch that the endpoint is at. -/
theorem Inv.submit (inv : Inv s) {writes : List Write} (quiet : ∀ w ∈ writes, w.ringDoorbell = false)
    (own : ∀ w ∈ writes, w.batch = none ∨ ∃ e, w.batch = some (e, s.batch e)) : Inv (s.submit writes) := by
  -- A batch whose doorbell is asked for, or was rung, is not one that is being written.
  have past : ∀ w ∈ writes, ∀ e n, n < s.batch e → w.batch ≠ some (e, n) := by
    intro w member e n early same
    rcases own w member with none' | ⟨e', now⟩
    · simp [none'] at same
    · rw [now, Option.some.injEq, Prod.mk.injEq] at same
      obtain ⟨rfl, rfl⟩ := same
      omega
  constructor
  · refine List.pairwise_append.mpr ⟨inv.ordered, ?_, ?_⟩
    · refine List.pairwise_of_forall_mem_list ?_
      intro w member _ _ rings
      rw [quiet w member] at rings
      contradiction
    · intro left before right new rings same
      obtain ⟨⟨e, n⟩, batch⟩ := Option.ne_none_iff_exists'.mp (inv.named left before rings)
      exact past right new e n ((inv.recent left before e n batch).2 rings) (same ▸ batch)
  · intro w member
    rcases List.mem_append.mp member with old | new
    · exact inv.recent w old
    · intro e n batch
      refine ⟨?_, fun rings => absurd rings (by simp [quiet w new])⟩
      rcases own w new with none' | ⟨e', now⟩
      · simp [none'] at batch
      · rw [now, Option.some.injEq, Prod.mk.injEq] at batch
        obtain ⟨rfl, rfl⟩ := batch
        exact le_refl _
  · intro w member rings
    rcases List.mem_append.mp member with old | new
    · exact inv.named w old rings
    · simp [quiet w new] at rings
  · exact inv.clean
  · intro w member
    obtain ⟨⟨e, n, batch, early⟩, written⟩ := inv.rung w member
    refine ⟨⟨e, n, batch, early⟩, ?_, written.good⟩
    intro w' flies
    rcases List.mem_append.mp flies with old | new
    · exact written.landed w' old
    · rw [batch]
      exact past w' new e n early

/-- Nothing is said about the rings. -/
theorem Inv.setRing (inv : Inv s) (r : Ring) : Inv (s.setRing e r) :=
  ⟨inv.ordered, inv.recent, inv.named, inv.clean, fun w member => ⟨(inv.rung w member).1, ⟨(inv.rung w member).2.1, (inv.rung w member).2.2⟩⟩⟩

/-- Only the last stretch asks for the doorbell. -/
theorem copyStretches_last (last : TrbPtr) (write : Nat → CacheWrite) (next : Addr → Addr) : ∀ (fuel i : Nat) (start : TrbPtr),
    ∃ front back, copyStretches last write next fuel i start = front ++ back ∧ (∀ w ∈ front, w.lastCopy = false) ∧
      back.length ≤ 1 := by
  intro fuel
  induction fuel with
  | zero => exact fun _ _ => ⟨[], [], rfl, by simp, by simp⟩
  | succ fuel ih =>
    intro i start
    rw [copyStretches]
    split_ifs
    · obtain ⟨front, back, eq, quiet, one⟩ := ih (i + 1) ⟨next start.seg, 0⟩
      refine ⟨_ :: front, back, by rw [eq]; rfl, ?_, one⟩
      intro w member
      rcases List.mem_cons.mp member with rfl | later
      · rfl
      · exact quiet w later
    · exact ⟨[], [], rfl, by simp, by simp⟩
    · exact ⟨[], _, rfl, by simp, by simp⟩
    · exact ⟨[], [], rfl, by simp, by simp⟩

/-- At most one write ends a batch. It is the last one that belongs to the batch. -/
theorem Inv.close (inv : Inv s) {writes : List Write} (one : writes.length ≤ 1)
    (own : ∀ w ∈ writes, w.batch = some (e, s.batch e)) :
    Inv { s.submit writes with batch := Function.update s.batch e (s.batch e + 1) } := by
  have grows : ∀ e', s.batch e' ≤ Function.update s.batch e (s.batch e + 1) e' := by
    intro e'
    by_cases here : e' = e
    · rw [here, Function.update_self]
      omega
    · rw [Function.update_of_ne here]
  have past : ∀ w ∈ writes, ∀ e' n, n < s.batch e' → w.batch ≠ some (e', n) := by
    intro w member e' n early same
    rw [own w member, Option.some.injEq, Prod.mk.injEq] at same
    obtain ⟨rfl, rfl⟩ := same
    omega
  constructor
  · refine List.pairwise_append.mpr ⟨inv.ordered, ?_, ?_⟩
    · match writes, one with
      | [], _ => exact .nil
      | [w], _ => exact List.pairwise_singleton ..
    · intro left before right new rings same
      obtain ⟨⟨e', n⟩, batch⟩ := Option.ne_none_iff_exists'.mp (inv.named left before rings)
      exact past right new e' n ((inv.recent left before e' n batch).2 rings) (same ▸ batch)
  · intro w member e' n batch
    rcases List.mem_append.mp member with old | new
    · obtain ⟨low, lower⟩ := inv.recent w old e' n batch
      exact ⟨low.trans (grows e'), fun rings => (lower rings).trans_le (grows e')⟩
    · rw [own w new, Option.some.injEq, Prod.mk.injEq] at batch
      obtain ⟨rfl, rfl⟩ := batch
      simp only [Function.update_self]
      omega
  · intro w member rings
    rcases List.mem_append.mp member with old | new
    · exact inv.named w old rings
    · simp [own w new]
  · exact inv.clean
  · intro w member
    obtain ⟨⟨e', n, batch, early⟩, written⟩ := inv.rung w member
    refine ⟨⟨e', n, batch, early.trans_le (grows e')⟩, ?_, written.good⟩
    intro w' flies
    rcases List.mem_append.mp flies with old | new
    · exact written.landed w' old
    · rw [batch]
      exact past w' new e' n early

theorem givebackStretches_last (r : Ring) (write : Nat → CacheWrite) :
    ∃ front back, givebackStretches r write = front ++ back ∧ (∀ w ∈ front, w.lastCopy = false) ∧ back.length ≤ 1 := by
  rw [givebackStretches]
  split_ifs
  · split
    · exact ⟨[], [], rfl, by simp, by simp⟩
    · exact copyStretches_last ..
  · exact ⟨[], [], rfl, by simp, by simp⟩

theorem Inv.giveback (inv : Inv s) (startCycle : Bool) (startTrb : TrbPtr) (write : Nat → CacheWrite) :
    Inv (s.giveback e startCycle startTrb write) := by
  obtain ⟨front, back, eq, quiet, one⟩ :=
    givebackStretches_last ((s.ring e).modifyTrb startTrb (·.setCycle startCycle)) write
  let made : Stretch → Write := fun w => ⟨w, w.lastCopy, e.1, e.2, some (e, s.batch e)⟩
  have first : Inv ((s.setRing e ((s.ring e).givebackFirstTrb startCycle startTrb write)).submit (front.map made)) := by
    refine (inv.setRing _).submit ?_ ?_
    · intro w member
      obtain ⟨stretch, inside, rfl⟩ := List.mem_map.mp member
      exact quiet stretch inside
    · intro w member
      obtain ⟨stretch, inside, rfl⟩ := List.mem_map.mp member
      exact .inr ⟨e, rfl⟩
  have ends : ∀ w ∈ back.map made, w.batch = some (e, s.batch e) := by
    intro w member
    obtain ⟨stretch, inside, rfl⟩ := List.mem_map.mp member
    rfl
  have second := first.close (by simpa using one) ends
  simp only [State.giveback, eq, List.map_append, State.submit, ← List.append_assoc]
  exact second

/-- The first write of those in flight comes back. -/
theorem Inv.complete (inv : Inv s) {status : Int} {blocked : Bool} (noticed : Noticed s (.complete status blocked)) :
    Inv (s.complete status blocked) := by
  rw [State.complete]
  split
  · exact inv
  · rename_i w rest flight
    have here : w ∈ s.inFlight := by simp [flight]
    have later : ∀ {w'}, w' ∈ rest → w' ∈ s.inFlight := by simp +contextual [flight]
    have ordered := inv.ordered
    rw [flight, List.pairwise_cons] at ordered
    have popped : Inv { s with inFlight := rest, completed := s.completed ++ [(w, status)] } := by
      refine ⟨ordered.2, fun w' member => inv.recent w' (later member), fun w' member => inv.named w' (later member), ?_, ?_⟩
      · intro fine w' status' member owned
        rcases List.mem_append.mp member with old | new
        · exact inv.clean fine w' status' old owned
        · obtain ⟨rfl, rfl⟩ : w' = w ∧ status' = status := by simpa using new
          exact noticed w' rest flight owned fine
      · intro w' member
        obtain ⟨named, written⟩ := inv.rung w' member
        refine ⟨named, fun w'' flies => written.landed w'' (later flies), ?_⟩
        intro w'' status' done same
        rcases List.mem_append.mp done with old | new
        · exact written.good w'' status' old same
        · obtain ⟨rfl, rfl⟩ : w'' = w ∧ status' = status := by simpa using new
          exact absurd same (written.landed w'' here)
    simp only
    by_cases error : s.error = true
    · rwa [if_pos error]
    rw [if_neg error]
    by_cases rings : w.ringDoorbell = true ∧ (!blocked) = true
    · rw [if_pos rings]
      refine ⟨popped.ordered, popped.recent, popped.named, popped.clean, ?_⟩
      intro w' member
      rcases List.mem_append.mp member with old | new
      · obtain ⟨named, written⟩ := popped.rung w' old
        exact ⟨named, written.landed, written.good⟩
      · obtain rfl : w' = w := by simpa using new
        have owned := inv.named w' here rings.1
        obtain ⟨⟨e, n⟩, batch⟩ := Option.ne_none_iff_exists'.mp owned
        refine ⟨⟨e, n, batch, (inv.recent w' here e n batch).2 rings.1⟩, ?_, ?_⟩
        · exact fun w'' flies => (ordered.1 w'' flies rings.1).symm
        · intro w'' status' done same
          exact popped.clean (by simpa using error) w'' status' done (same ▸ owned)
    · rwa [if_neg rings]

theorem Inv.step (inv : Inv s) (q : Quirks) {op : Op} (noticed : Noticed s op) : Inv (s.step q op) := by
  cases op with
  | prepareRing e epState numTrbs answers status =>
    refine (inv.setRing _).submit ?_ ?_
    · intro w member
      obtain ⟨p, _, rfl⟩ := List.mem_map.mp member
      rfl
    · intro w member
      obtain ⟨p, _, rfl⟩ := List.mem_map.mp member
      exact .inr ⟨e, rfl⟩
  | queueTrb e more t => exact inv.setRing _
  | giveback e startCycle startTrb write => exact inv.giveback startCycle startTrb write
  | other stretch => exact inv.submit (by simp) (by simp)
  | raise =>
    refine ⟨inv.ordered, inv.recent, inv.named, by simp [State.step], ?_⟩
    intro w member
    obtain ⟨named, written⟩ := inv.rung w member
    exact ⟨named, written.landed, written.good⟩
  | complete status blocked => exact inv.complete noticed

/-- No doorbell is rung before the TRBs are in the device, in every run in which a failed
    write comes back only after an error was found. -/
theorem doorbells_behind {q : Quirks} (reachable : Reachable q Noticed s) : DoorbellsBehind s := by
  have inv : Inv s := by
    refine reachable.invariant ?_ ?_
    · rintro s ⟨ring, rfl⟩
      exact inv_initial ring
    · intro s op inv noticed
      exact inv.step q noticed
  exact fun w member => (inv.rung w member).2

end

/-- A bulk TD is queued on the endpoint 2 of slot 1, its first TRB with the wrong cycle
    bit. -/
def bulkTd (trbs : List Trb) : List Op :=
  .prepareRing (1, 2) 1 trbs.length [] 0 ::
    (trbs.mapIdx (fun i t => .queueTrb (1, 2) (i + 1 < trbs.length) t) ++
      [.giveback (1, 2) true ⟨0x1000, 0⟩ fun _ => .accepted])

/-- The TD reaches into the second segment. -/
def longTd : List Op := bulkTd (⟨0, 0, 0, 0x410⟩ :: (List.replicate 62 ⟨0, 0, 0, 0x411⟩ ++ [⟨0, 0, 0, 0x421⟩]))

theorem allows_bulkTd (q : Quirks) (s : State) (trbs : List Trb) : Run.Allows Noticed (State.step q) s (bulkTd trbs) := by
  have quiet : ∀ (ops : List Op) (s : State), (∀ op ∈ ops, ∀ s, Noticed s op) → Run.Allows Noticed (State.step q) s ops := by
    intro ops
    induction ops with
    | nil => exact fun _ _ => trivial
    | cons op ops ih => exact fun s all => ⟨all op (by simp) s, ih _ fun op' later => all op' (List.mem_cons_of_mem _ later)⟩
  apply quiet
  intro op member s
  rw [bulkTd, List.mem_cons, List.mem_append, List.mem_mapIdx, List.mem_singleton] at member
  obtain rfl | ⟨i, _, rfl⟩ | rfl := member <;> trivial

def queued : State := longTd.foldl (State.step ⟨false, false⟩) (State.initial fun _ => RingAccount.bulkRing)

theorem queued_reachable : Reachable ⟨false, false⟩ Noticed queued :=
  (Run.Reachable.first ⟨fun _ => RingAccount.bulkRing, rfl⟩).all (allows_bulkTd ⟨false, false⟩ _ _)

theorem reachable_complete {q : Quirks} {s : State} (reachable : Reachable q Noticed s) :
    Reachable q Noticed (s.step q (.complete 0 false)) := by
  have noticed : Noticed s (.complete 0 false) := fun _ _ _ _ _ => rfl
  exact Run.Reachable.step (Op.complete 0 false) reachable noticed

def half : State := queued.step ⟨false, false⟩ (.complete 0 false)

def landed : State := half.step ⟨false, false⟩ (.complete 0 false)

/-- Two writes carry the TD, and the doorbell is rung when the second one has come back. -/
theorem doorbells_behind_longTd :
    half.doorbells = [] ∧ half.completed.length = 1 ∧ landed.doorbells.length = 1 ∧ DoorbellsBehind landed := by
  have reachable : Reachable ⟨false, false⟩ Noticed landed := reachable_complete (reachable_complete queued_reachable)
  exact ⟨by decide +kernel, by decide +kernel, by decide +kernel, doorbells_behind reachable⟩

/-- The write of the first segment fails, that of the second does not, and the doorbell is
    rung. -/
theorem not_doorbells_behind : ¬∀ s, Reachable ⟨false, false⟩ (fun _ _ => True) s → DoorbellsBehind s := by
  intro behind
  let s := (longTd ++ [Op.complete (-71) false, .complete 0 false]).foldl (State.step ⟨false, false⟩)
    (State.initial fun _ => RingAccount.bulkRing)
  have reachable : Reachable ⟨false, false⟩ (fun _ _ => True) s := by
    refine (Run.Reachable.first ⟨fun _ => RingAccount.bulkRing, rfl⟩).all ?_
    decide +kernel
  have rung : (⟨⟨0x1400, 0, 0, true⟩, true, 1, 2, some ((1, 2), 0)⟩ : Write) ∈ s.doorbells := by decide +kernel
  have failed : ((⟨⟨0x1000, 0, 63, false⟩, false, 1, 2, some ((1, 2), 0)⟩ : Write), (-71 : Int)) ∈ s.completed := by
    decide +kernel
  exact absurd ((behind s reachable _ rung).good _ _ failed rfl) (by decide)

end Ehub.Doorbell
