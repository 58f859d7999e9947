import Mathlib
import Ehub.Trb

/-!
The rings of the driver (`xhci-ring.c`, and the ring part of `xhci-mem.c`). A ring
is a circle of segments of 64 TRBs; in every ring but the event ring the last TRB of
a segment is a link to the next one. The driver queues TRBs at `enqueue` and follows
the controller's progress with `dequeue`; on a cached ring the controller reads a
copy of the segments that the driver writes to blocks of the device's memory.

A segment is named by its device address, which is what link TRBs carry: for a
cached ring the address of its block, otherwise the address of its TRBs. Loops of the
source that run along the ring have a fuel that a ring never uses up, as no ring is
made of link TRBs only.
-/
namespace Ehub

/-- The device address of a segment, `seg->dma`. -/
abbrev Addr := BitVec 64

def trbsPerSegment : Nat := 64

/-- A pointer to a TRB, together with the segment that the driver keeps beside it. -/
structure TrbPtr where
  seg : Addr
  idx : Nat
deriving DecidableEq

/-- `enum xhci_ring_type`. -/
inductive RingType where
  | ctrl | isoc | bulk | intr | stream | command | event
deriving DecidableEq

/-- Rings whose segments are kept in the device's memory. -/
def ehubCacheRing : RingType → Bool
  | .ctrl | .isoc | .bulk | .intr => true
  | .stream | .command | .event => false

/-- The controller quirks that concern link TRBs. -/
structure Quirks where
  linkTrbQuirk : Bool
  amd0x96Host : Bool

/-- Link TRBs always carry the chain bit: 0.95 hardware, or an isoc ring on an AMD
    0.96 host. -/
def linkChained (q : Quirks) (type : RingType) : Bool :=
  q.linkTrbQuirk || (type == .isoc && q.amd0x96Host)

/-- What becomes of a cache write: it is submitted, it is refused, or it is refused
    with `EmbeddedCacheWriteError` set from then on. -/
inductive CacheWrite where
  | accepted | refused | error
deriving DecidableEq

/-- The memory of segments: their TRBs, the `next` pointers, and what the submitted
    cache writes have put into their blocks. -/
structure Segments where
  trbs : Addr → Nat → Trb
  next : Addr → Addr
  cache : Addr → Nat → Trb

/-- `struct xhci_ring`. -/
structure Ring extends Segments where
  firstSeg : Addr
  lastSeg : Addr
  enqueue : TrbPtr
  dequeue : TrbPtr
  cacheEnqueue : TrbPtr
  cycleState : Bool
  numSegs : Nat
  numTrbsFree : Int
  type : RingType

namespace Segments

def trb (m : Segments) (p : TrbPtr) : Trb := m.trbs p.seg p.idx

def set (m : Segments) (p : TrbPtr) (t : Trb) : Segments :=
  { m with trbs := fun s i => if s = p.seg ∧ i = p.idx then t else m.trbs s i }

/-- The TRB at `p` is written to its place in the cache. -/
def copy (m : Segments) (p : TrbPtr) : Segments :=
  { m with cache := fun s i => if s = p.seg ∧ i = p.idx then m.trbs s i else m.cache s i }

/-- The link TRB of a segment. -/
def link (seg : Addr) : TrbPtr := ⟨seg, trbsPerSegment - 1⟩

/-- A TRB of a new segment: not handed over by a producer with this cycle state. -/
def freshTrb (cycleState : Bool) : Trb := if cycleState then .zero else Trb.zero.setCycle true

/-- `xhci_segment_alloc`, followed on a cached ring by the write of
    `ehub_xhci_cache_block_allocate_segment`. -/
def segmentAlloc (m : Segments) (type : RingType) (cycleState : Bool) (seg : Addr) : Segments :=
  { m with
    trbs := fun s i => if s = seg then freshTrb cycleState else m.trbs s i
    cache := fun s i => if s = seg ∧ ehubCacheRing type then freshTrb cycleState else m.cache s i }

/-- `xhci_link_segments`. The outcome of the cache write is not looked at here. -/
def linkSegments (q : Quirks) (type : RingType) (m : Segments) (prev next : Addr) (write : CacheWrite) : Segments :=
  let m := { m with next := fun s => if s = prev then next else m.next s }
  if type = .event then m
  else
    let t := ((m.trb (link prev)).setSegmentPtr next).setLinkType
    let m := m.set (link prev) (if linkChained q type then t.setChain true else t)
    if ehubCacheRing type ∧ write = .accepted then m.copy (link prev) else m

/-- The loop of `xhci_alloc_segments_for_ring`: the segments behind `prev`, each
    linked to the one before it. The `i`-th link write decides whether it goes on. -/
def allocRest (q : Quirks) (type : RingType) (cycleState : Bool) (write : Nat → CacheWrite) :
    Nat → Addr → List Addr → Segments → Option (Segments × Addr)
  | _, prev, [], m => some (m, prev)
  | i, prev, next :: segs, m =>
    let m := linkSegments q type (m.segmentAlloc type cycleState next) prev next (write i)
    if write i = .error then none else allocRest q type cycleState write (i + 1) next segs m

/-- `xhci_alloc_segments_for_ring` with the segments that the allocations deliver:
    the new memory with the first and the last segment. A failure leaves the ring
    alone. -/
def allocSegmentsForRing (q : Quirks) (type : RingType) (cycleState : Bool) (write : Nat → CacheWrite)
    (segs : List Addr) (m : Segments) : Option (Segments × Addr × Addr) :=
  match segs with
  | [] => none
  | first :: rest =>
    match allocRest q type cycleState write 0 first rest (m.segmentAlloc type cycleState first) with
    | none => none
    | some (m, last) => some (linkSegments q type m last first (write rest.length), first, last)

end Segments

/-- What the allocators and the device answer while segments are added to a ring: the
    segments that can be had, and the fate of each write of a link TRB. -/
structure Answers where
  segs : List Addr
  write : Nat → CacheWrite

namespace Ring
open Segments

def setTrb (r : Ring) (p : TrbPtr) (t : Trb) : Ring := { r with toSegments := r.set p t }

def modifyTrb (r : Ring) (p : TrbPtr) (f : Trb → Trb) : Ring := r.setTrb p (f (r.trb p))

/-- `last_trb`. -/
def lastTrb (r : Ring) (p : TrbPtr) : Bool :=
  if r.type = .event then p.idx == trbsPerSegment else (r.trb p).isLink

/-- `last_trb_on_last_seg`. -/
def lastTrbOnLastSeg (r : Ring) (p : TrbPtr) : Bool :=
  if r.type = .event then p.idx == trbsPerSegment && r.next p.seg == r.firstSeg else (r.trb p).toggle

/-- `next_trb`. -/
def nextTrb (r : Ring) (p : TrbPtr) : TrbPtr :=
  if r.lastTrb p then ⟨r.next p.seg, 0⟩ else ⟨p.seg, p.idx + 1⟩

/-- `xhci_initialize_ring_info`. -/
def initializeRingInfo (r : Ring) (cycleState : Bool) : Ring :=
  { r with
    enqueue := ⟨r.firstSeg, 0⟩
    cacheEnqueue := ⟨r.firstSeg, 0⟩
    dequeue := ⟨r.firstSeg, 0⟩
    cycleState := cycleState
    numTrbsFree := r.numSegs * (trbsPerSegment - 1) - 1 }

/-- `xhci_ring_alloc`, for at least one segment. -/
def ringAlloc (q : Quirks) (numSegs : Nat) (cycleState : Bool) (type : RingType) (answers : Answers) : Option Ring :=
  if answers.segs.length < numSegs then none
  else
    match allocSegmentsForRing q type cycleState answers.write (answers.segs.take numSegs)
        ⟨fun _ _ => .zero, id, fun _ _ => .zero⟩ with
    | none => none
    | some (m, first, last) =>
      let m := if type = .event then m else m.set (link last) ((m.trb (link last)).setToggle true)
      some (initializeRingInfo ⟨m, first, last, ⟨first, 0⟩, ⟨first, 0⟩, ⟨first, 0⟩, cycleState, numSegs, 0, type⟩
        cycleState)

/-- The loop of `inc_deq`. -/
def incDeqLoop : Nat → Ring → Ring
  | 0, r => r
  | fuel + 1, r =>
    let r :=
      if r.lastTrb r.dequeue then
        let r := if r.type = .event ∧ r.lastTrbOnLastSeg r.dequeue then { r with cycleState := !r.cycleState } else r
        { r with dequeue := ⟨r.next r.dequeue.seg, 0⟩ }
      else { r with dequeue := ⟨r.dequeue.seg, r.dequeue.idx + 1⟩ }
    if r.lastTrb r.dequeue then incDeqLoop fuel r else r

/-- `inc_deq`. -/
def incDeq (r : Ring) : Ring :=
  let r := if r.type ≠ .event ∧ !r.lastTrb r.dequeue then { r with numTrbsFree := r.numTrbsFree + 1 } else r
  incDeqLoop (r.numSegs + 2) r

/-- The link TRB at `enqueue` goes to the hardware, and the cycle state flips behind
    the last segment. -/
def giveLink (r : Ring) : Ring :=
  let r := r.modifyTrb r.enqueue Trb.flipCycle
  if r.lastTrbOnLastSeg r.enqueue then { r with cycleState := !r.cycleState } else r

/-- `enqueue` moves to the next segment. -/
def enqueueNextSeg (r : Ring) : Ring := { r with enqueue := ⟨r.next r.enqueue.seg, 0⟩ }

/-- The loop of `inc_enq`. -/
def incEnqLoop (q : Quirks) (chain moreTrbsComing : Bool) : Nat → Ring → Ring
  | 0, r => r
  | fuel + 1, r =>
    if r.lastTrb r.enqueue then
      if r.type = .event then incEnqLoop q chain moreTrbsComing fuel r.enqueueNextSeg
      -- The link TRB is given to the hardware by `prepare_ring`, before the next TD.
      else if !chain && !moreTrbsComing then r
      else
        let r := if linkChained q r.type then r else r.modifyTrb r.enqueue (·.setChain chain)
        incEnqLoop q chain moreTrbsComing fuel r.giveLink.enqueueNextSeg
    else r

/-- `inc_enq`. -/
def incEnq (q : Quirks) (r : Ring) (moreTrbsComing : Bool) : Ring :=
  let chain := (r.trb r.enqueue).chain
  let r := if r.type ≠ .event ∧ !r.lastTrb r.enqueue then { r with numTrbsFree := r.numTrbsFree - 1 } else r
  incEnqLoop q chain moreTrbsComing (r.numSegs + 2) { r with enqueue := ⟨r.enqueue.seg, r.enqueue.idx + 1⟩ }

/-- `queue_trb`. -/
def queueTrb (q : Quirks) (r : Ring) (moreTrbsComing : Bool) (t : Trb) : Ring :=
  incEnq q (r.setTrb r.enqueue t) moreTrbsComing

/-- `num_trbs_needed`. -/
def numTrbsNeeded (r : Ring) (numTrbs : Nat) : Int :=
  if r.numTrbsFree < numTrbs then numTrbs - r.numTrbsFree
  else if r.type ≠ .command ∧ r.type ≠ .event then
    if r.numTrbsFree < numTrbs + r.dequeue.idx then numTrbs + r.dequeue.idx - r.numTrbsFree else 0
  else 0

/-- `xhci_link_rings`: the segments from `first` to `last` join the ring behind the
    segment of `enqueue`. It stops half way when a cache write has raised the error. -/
def linkRings (q : Quirks) (r : Ring) (first last : Addr) (numSegs : Nat) (write1 write2 : CacheWrite) : Ring :=
  let next := r.next r.enqueue.seg
  let r := { r with toSegments := linkSegments q r.type r.toSegments r.enqueue.seg first write1 }
  if write1 = .error then r
  else
    let r := { r with toSegments := linkSegments q r.type r.toSegments last next write2 }
    if write2 = .error then r
    else
      let r := { r with
        numSegs := r.numSegs + numSegs
        numTrbsFree := r.numTrbsFree + (trbsPerSegment - 1) * numSegs }
      if r.type ≠ .event ∧ r.enqueue.seg = r.lastSeg then
        let r := r.modifyTrb (link r.lastSeg) (·.setToggle false)
        let r := r.modifyTrb (link last) (·.setToggle true)
        { r with lastSeg := last }
      else r

/-- The number of segments `ehub_xhci_ring_expansion` asks for. -/
def expansionSegs (r : Ring) (numTrbs : Nat) : Nat :=
  let needed := (numTrbs + (trbsPerSegment - 1) - 1) / (trbsPerSegment - 1)
  if r.numSegs > needed then r.numSegs else needed

/-- `ehub_xhci_ring_expansion`; nothing when the segments cannot be had. -/
def ringExpansion (q : Quirks) (r : Ring) (numTrbs : Nat) (answers : Answers) : Option Ring :=
  let numSegs := r.expansionSegs numTrbs
  if answers.segs.length < numSegs then none
  else
    match allocSegmentsForRing q r.type r.cycleState answers.write (answers.segs.take numSegs) r.toSegments with
    | none => none
    | some (m, first, last) =>
      some (linkRings q { r with toSegments := m } first last numSegs (answers.write numSegs)
        (answers.write (numSegs + 1)))

def eNOENT : Int := 2
def eNOMEM : Int := 12
def eINVAL : Int := 22

/-- The check of the endpoint state in `prepare_ring`. -/
def epStateError : Nat → Int
  | 0 => -eNOENT  -- EP_STATE_DISABLED
  | 1 => 0        -- EP_STATE_RUNNING
  | 2 => 0        -- EP_STATE_HALTED
  | 3 => 0        -- EP_STATE_STOPPED
  | _ => -eINVAL  -- EP_STATE_ERROR and unknown states

/-- The loop of `prepare_ring` that makes room for `numTrbs` TRBs, one answer for each
    expansion it tries. -/
def makeRoom (q : Quirks) (numTrbs : Nat) : List Answers → Ring → Int × Ring
  | [], r => if r.numTrbsNeeded numTrbs < 1 then (0, r) else (-eNOMEM, r)
  | answers :: more, r =>
    if r.numTrbsNeeded numTrbs < 1 then (0, r)
    else if r.type = .command then (-eNOMEM, r)
    else
      match ringExpansion q r (r.numTrbsNeeded numTrbs).toNat answers with
      | none => (-eNOMEM, r)
      | some r => makeRoom q numTrbs more r

/-- The end of `prepare_ring`: a link TRB at `enqueue` is handed over, and on a cached
    ring written to the cache with the given status. -/
def handOver (q : Quirks) (status : Int) : Nat → Ring → Int × Ring
  | 0, r => (0, r)
  | fuel + 1, r =>
    if r.lastTrb r.enqueue then
      let r := r.modifyTrb r.enqueue (·.setChain (linkChained q r.type))
      let r := r.giveLink
      if ehubCacheRing r.type then
        if status < 0 then (status, r)
        else handOver q status fuel { r with toSegments := r.copy r.enqueue }.enqueueNextSeg
      else handOver q status fuel r.enqueueNextSeg
    else (0, r)

/-- `prepare_ring`. -/
def prepareRing (q : Quirks) (r : Ring) (epState numTrbs : Nat) (answers : List Answers) (status : Int) : Int × Ring :=
  if epStateError epState ≠ 0 then (epStateError epState, r)
  else
    match makeRoom q numTrbs answers r with
    | (0, r) => if (r.trb r.enqueue).isLink then handOver q status (r.numSegs + 1) r else (0, r)
    | (error, r) => (error, r)

/-- The loop of `update_ring_for_set_deq_completion`; the flag says that it came back
    to where it started. -/
def setDeqLoop (queuedDeqPtr start : TrbPtr) : Nat → Ring → Ring × Bool
  | 0, r => (r, false)
  | fuel + 1, r =>
    if r.dequeue = queuedDeqPtr then (r, false)
    else
      let r := { r with numTrbsFree := r.numTrbsFree + 1, dequeue := ⟨r.dequeue.seg, r.dequeue.idx + 1⟩ }
      if r.lastTrb r.dequeue ∧ r.dequeue = queuedDeqPtr then (r, false)
      else
        let r := if r.lastTrb r.dequeue then { r with dequeue := ⟨r.next r.dequeue.seg, 0⟩ } else r
        if r.dequeue = start then (r, true) else setDeqLoop queuedDeqPtr start fuel r

/-- `update_ring_for_set_deq_completion`. -/
def updateRingForSetDeqCompletion (r : Ring) (queuedDeqPtr : TrbPtr) : Ring :=
  let free := r.numTrbsFree
  let start := r.dequeue
  let r := if r.lastTrb r.dequeue then { r with dequeue := ⟨r.next r.dequeue.seg, 0⟩ } else r
  match setDeqLoop queuedDeqPtr start (trbsPerSegment * r.numSegs + 1) r with
  | (r, false) => r
  | (r, true) => { r with numTrbsFree := free }

/-- The search of `ehub_find_prev_trb` for the segment before `seg`. -/
def prevSeg (r : Ring) (seg : Addr) : Nat → Addr → Option Addr
  | 0, _ => none
  | fuel + 1, s => if s = seg then none else if r.next s = seg then some s else prevSeg r seg fuel (r.next s)

/-- `ehub_find_prev_trb`; nothing on a ring of one segment, where the source asserts. -/
def findPrevTrb (r : Ring) (p : TrbPtr) : Option TrbPtr :=
  if p.idx ≠ 0 then some ⟨p.seg, p.idx - 1⟩ else (prevSeg r p.seg r.numSegs (r.next p.seg)).map link

/-- The TRBs of a segment from `first` to `last` are written to the cache. -/
def copyTrbs (r : Ring) (seg : Addr) (first last : Nat) : Ring :=
  { r with cache := fun s i => if s = seg ∧ first ≤ i ∧ i ≤ last then r.trbs s i else r.cache s i }

/-- The loop of `ehub_xhci_cache_copy_from_ring`, one cache write for each segment. -/
def cacheCopyLoop (last : TrbPtr) (write : Nat → CacheWrite) : Nat → Nat → TrbPtr → Ring → Ring
  | 0, _, _, r => r
  | fuel + 1, i, start, r =>
    if start.seg ≠ last.seg ∨ start.idx > last.idx then
      if write i = .accepted then
        cacheCopyLoop last write fuel (i + 1) ⟨r.next start.seg, 0⟩ (r.copyTrbs start.seg start.idx (trbsPerSegment - 1))
      else r
    else if write i = .accepted then r.copyTrbs start.seg start.idx last.idx
    else r

/-- `ehub_xhci_cache_copy_from_ring`. The source asserts that a TRB is found before
    `enqueue`. -/
def cacheCopyFromRing (r : Ring) (write : Nat → CacheWrite) : Ring :=
  match r.findPrevTrb r.enqueue with
  | none => r
  | some last => { cacheCopyLoop last write (r.numSegs + 1) 0 r.cacheEnqueue r with cacheEnqueue := r.enqueue }

/-- `giveback_first_trb`, up to the doorbell. -/
def givebackFirstTrb (r : Ring) (startCycle : Bool) (startTrb : TrbPtr) (write : Nat → CacheWrite) : Ring :=
  let r := r.modifyTrb startTrb (·.setCycle startCycle)
  if ehubCacheRing r.type then r.cacheCopyFromRing write else r

/-- The TRBs of a TD behind its first one. They are handed over as they are queued. -/
def queueRest (q : Quirks) : List Trb → Ring → Ring
  | [], r => r
  | t :: ts, r => queueRest q ts (r.queueTrb q (!ts.isEmpty) (t.setCycle r.cycleState))

/-- How the driver queues a TD on a prepared ring: the first TRB gets the wrong cycle bit,
    which `giveback_first_trb` corrects when all are there. The cycle bits that the
    TRBs come with are not used. -/
def queueTd (q : Quirks) (r : Ring) (first : Trb) (rest : List Trb) (write : Nat → CacheWrite) : Ring :=
  let startTrb := r.enqueue
  let startCycle := r.cycleState
  let r := r.queueTrb q (!rest.isEmpty) (first.setCycle (!startCycle))
  (queueRest q rest r).givebackFirstTrb startCycle startTrb write

/-! ### What an edit of one TRB leaves alone -/

section
variable (r : Ring) (p p' : TrbPtr) (t : Trb) (f : Trb → Trb)

theorem trb_set (m : Segments) : (m.set p t).trb p' = if p' = p then t else m.trb p' := by
  obtain ⟨seg, idx⟩ := p
  obtain ⟨seg', idx'⟩ := p'
  simp [Segments.trb, Segments.set]

@[simp] theorem trb_setTrb_same : (r.setTrb p t).trb p = t := by simp [setTrb, trb_set]

theorem trb_setTrb : (r.setTrb p t).trb p' = if p' = p then t else r.trb p' := trb_set p p' t r.toSegments

theorem trb_modifyTrb : (r.modifyTrb p f).trb p' = if p' = p then f (r.trb p) else r.trb p' := trb_setTrb r p p' _

@[simp] theorem next_setTrb : (r.setTrb p t).next = r.next := rfl
@[simp] theorem cache_setTrb : (r.setTrb p t).cache = r.cache := rfl
@[simp] theorem lastSeg_setTrb : (r.setTrb p t).lastSeg = r.lastSeg := rfl
@[simp] theorem enqueue_setTrb : (r.setTrb p t).enqueue = r.enqueue := rfl
@[simp] theorem dequeue_setTrb : (r.setTrb p t).dequeue = r.dequeue := rfl
@[simp] theorem cacheEnqueue_setTrb : (r.setTrb p t).cacheEnqueue = r.cacheEnqueue := rfl
@[simp] theorem cycleState_setTrb : (r.setTrb p t).cycleState = r.cycleState := rfl
@[simp] theorem numSegs_setTrb : (r.setTrb p t).numSegs = r.numSegs := rfl
@[simp] theorem numTrbsFree_setTrb : (r.setTrb p t).numTrbsFree = r.numTrbsFree := rfl
@[simp] theorem type_setTrb : (r.setTrb p t).type = r.type := rfl

/-- A link TRB that is handed over flips its own cycle bit, and if it toggles also
    the cycle state. -/
theorem giveLink_eq (notEvent : r.type ≠ .event) : r.giveLink =
    { r.modifyTrb r.enqueue Trb.flipCycle with cycleState := (r.cycleState ^^ (r.trb r.enqueue).toggle) } := by
  have toggle : (r.modifyTrb r.enqueue Trb.flipCycle).lastTrbOnLastSeg r.enqueue = (r.trb r.enqueue).toggle := by
    simp [lastTrbOnLastSeg, modifyTrb, notEvent]
  rw [giveLink]
  show (if (r.modifyTrb r.enqueue Trb.flipCycle).lastTrbOnLastSeg r.enqueue = true then _ else _) = _
  cases flips : (r.trb r.enqueue).toggle with
  | false =>
    rw [if_neg (by simp [toggle, flips]), Bool.xor_false]
    rfl
  | true =>
    rw [if_pos (by simp [toggle, flips]), Bool.xor_true]
    rfl

end

end Ring

end Ehub
