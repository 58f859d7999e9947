import Mathlib
import Ehub.Mirror

/-!
What the device sees of a cached transfer ring over whole runs. To the calls of
`RingFifo` come isochronous URBs with the cleanup of those that fail, TDs that are
turned into no-ops when they are cancelled, and Set TR Dequeue Pointer commands that
complete. The copies that the driver writes are like the TRBs (`Mirrored`) as long as
the steps are careful; how like depends on whether TDs are cancelled, since a no-op is
not written to the device.
-/
namespace Ehub.Coherence
open Ehub.Lap Ehub.Segments Ehub.Ring Ehub.RingShape Ehub.RingFifo Ehub.Isoc Ehub.Mirror
open Ehub.RingAccount (span spanned span_eq spanned_eq span_busy split_target slack slack_incDeq Fresh inOrder_of not_overtaken idx_le idx_mod bulkRing bulkRing_made normalTrb)

inductive Op where
  | ring (op : RingFifo.Op)
  | queueIsoc (urb : Urb) (maxBufferSize : Nat) (env : Env)
  | tdToNoop (firstTrb lastTrb : TrbPtr)
  | setDeq (queuedDeqPtr : TrbPtr)

/-- The TRBs of a URB that fails are not pending, and neither is its room reserved any
    longer. The TRBs of a TD that has been turned into no-ops stay pending. -/
def step (q : Quirks) (s : State) : Op → State
  | .ring op => s.step q op
  | .queueIsoc urb maxBufferSize env =>
    match queueIsocTx q s.ring [] urb maxBufferSize env with
    | (error, ring, _) =>
      if error = 0 then
        { s with
          ring
          reserved := s.reserved - trbsBefore urb maxBufferSize urb.packets.length
          pending := s.pending ++ (urbTds urb maxBufferSize).flatten }
      else { s with ring, reserved := 0 }
  | .tdToNoop first last =>
    let ring := s.ring.tdToNoop first last false
    { s with ring, pending := contents ring (span ring ring.enqueue) }
  | .setDeq target =>
    { s with
      ring := s.ring.updateRingForSetDeqCompletion target
      pending := s.pending.drop (spanned s.ring target)
      ccs := phase (flipsAt s.ring) s.ccs (span s.ring target) }

/-- `first` and what follows up to `last` is on the list. -/
def Stretch (first last : TrbPtr) (l : List TrbPtr) : Prop :=
  ∃ front mid back, l = front ++ (mid ++ last :: back) ∧ (mid ++ last :: back).head? = some first

/-- What the callers promise. A URB is queued where room was made for all of its TRBs,
    and the TRBs of a cancelled TD are pending. -/
def Op.Allowed (s : State) : Op → Prop
  | .ring op => op.Allowed s
  | .queueIsoc urb maxBufferSize _ =>
    s.ring.type = .isoc ∧ trbsBefore urb maxBufferSize urb.packets.length ≤ s.reserved ∧
    (s.ring.trb s.ring.enqueue).isLink = false
  | .tdToNoop first last => ¬Overtaken s.ring ∧ Stretch first last (span s.ring s.ring.enqueue)
  | .setDeq target => ¬Overtaken s.ring ∧ target ∈ (span s.ring s.ring.enqueue ++ [s.ring.enqueue]).tail

/-- The device accepts the cache writes of the call. -/
def Written : RingFifo.Op → Prop
  | .prepareRing _ _ answers _ => ∀ a ∈ answers, ∀ i, a.write i = .accepted
  | .queueTd _ _ write => ∀ i, write i = .accepted
  | .incDeq => True
  | .ringExpansion _ answers => ∀ i, answers.write i = .accepted

/-- If TD `i` is the first that cannot be queued, then the cleanup does not find `enqueue`
    on a link that has not been given to the device. -/
def Restores (r : Ring) (urb : Urb) (maxBufferSize : Nat) (env : Env) : Prop :=
  ∀ i < urb.packets.length, (∀ k < i, ¬PrepareFails r urb maxBufferSize env k ∧ ¬LengthFails urb maxBufferSize k) →
    (PrepareFails r urb maxBufferSize env i → OnLink r urb maxBufferSize i → epStateError (env.epState i) = 0) ∧
    (¬PrepareFails r urb maxBufferSize env i → LengthFails urb maxBufferSize i → ¬OnLink r urb maxBufferSize (i + 1))

/-- Besides what keeps the ring in order, the device accepts every cache write, and a URB
    that fails is taken back without a trace. -/
def Careful (s : State) : Op → Prop
  | .ring op => RingFifo.Careful s op ∧ Written op
  | .queueIsoc urb maxBufferSize env => (∀ i, env.write i = .accepted) ∧ Restores s.ring urb maxBufferSize env
  | _ => True

/-- A new transfer ring of at least two segments. -/
def New (q : Quirks) (s : State) : Prop :=
  ∃ numSegs type answers, 2 ≤ numSegs ∧ ehubCacheRing type = true ∧ answers.segs.Nodup ∧
    ringAlloc q numSegs s.ccs type answers = some s.ring ∧ s.reserved = 0 ∧ s.pending = []

/-- `s` is reached from a new ring by allowed calls that all meet a condition. -/
def Reachable (q : Quirks) (condition : State → Op → Prop) (s : State) : Prop :=
  Run.Reachable (New q) (fun s op => Op.Allowed s op ∧ condition s op) (step q) s

/-! ### One call keeps the copies right -/

/-- The ring is in order, and its copies are like it. -/
structure Inv (Like : Trb → Trb → Prop) (s : State) (busy idle : List TrbPtr) (c : Bool) : Prop where
  fifo : RingFifo.Inv s busy idle c
  mirrored : Mirrored Like s.ring busy idle
  isCached : ehubCacheRing s.ring.type = true
  several : 2 ≤ s.ring.numSegs

section
variable {Like : Trb → Trb → Prop} {s : State} {busy idle : List TrbPtr} {c : Bool}

theorem Inv.sees (inv : Inv Like s busy idle c) (likeness : Likeness Like) : Sees s.ring s.ccs s.pending := by
  have room := inv.fifo.room
  exact inv.mirrored.sees likeness inv.fifo.view (by omega)

theorem Inv.inner (inv : Inv Like s busy idle c) (plain : (s.ring.trb s.ring.enqueue).isLink = false) :
    s.ring.enqueue.idx ≠ 63 := by
  intro onLink
  rw [(inv.fifo.view.queue.shape.links _ inv.fifo.view.queue.enqueue_mem).mpr onLink] at plain
  simp at plain

theorem Inv.prepareRing (inv : Inv Like s busy idle c) (likeness : Likeness Like) (q : Quirks) (epState numTrbs : Nat)
    {answers : List Answers} {status : Int} (fresh : Fresh s.ring (answers.flatMap Answers.segs))
    (careful : RingFifo.Careful s (.prepareRing epState numTrbs answers status))
    (accepted : ∀ a ∈ answers, ∀ i, a.write i = .accepted) :
    ∃ busy' idle' c', Inv Like (s.step q (.prepareRing epState numTrbs answers status)) busy' idle' c' := by
  obtain ⟨ahead, noError, written⟩ := careful
  have grows : ∀ a ∈ answers, ∀ (r r' : Ring) (idle idle' : List TrbPtr), Queue r busy idle →
      (Mirrored Like r busy idle ∧ ehubCacheRing r.type = true ∧ 2 ≤ r.numSegs) → Grown q a r r' busy idle idle' →
      Mirrored Like r' busy idle' ∧ ehubCacheRing r'.type = true ∧ 2 ≤ r'.numSegs := by
    intro a member r r' idle idle' queue ⟨mirrored, isCached, several⟩ grown
    obtain ⟨_, _, _, _, expanded, _⟩ := grown.expands
    refine ⟨mirrored.grown queue isCached several (accepted a member) grown, by rw [expanded.type]; exact isCached, ?_⟩
    rw [expanded.numSegs]
    omega
  obtain ⟨busy', idle', c', fifo, mirrored, isCached, several⟩ := inv.fifo.prepareRing q epState numTrbs fresh ahead noError
    written (fun r busy idle => Mirrored Like r busy idle ∧ ehubCacheRing r.type = true ∧ 2 ≤ r.numSegs)
    ⟨inv.mirrored, inv.isCached, inv.several⟩ grows (by
      intro r idle busy' idle' queue ⟨mirrored, isCached, several⟩ onLink passed
      refine ⟨mirrored.handedOver likeness queue isCached onLink passed, ?_⟩
      rw [handedOver, if_pos isCached]
      exact ⟨isCached, several⟩)
  exact ⟨busy', idle', c', fifo, mirrored, isCached, several⟩

theorem Inv.ringExpansion (inv : Inv Like s busy idle c) (q : Quirks) (numTrbs : Nat) {answers : Answers}
    (allowed : RingFifo.Op.Allowed s (.ringExpansion numTrbs answers))
    (careful : RingFifo.Careful s (.ringExpansion numTrbs answers)) (accepted : ∀ i, answers.write i = .accepted) :
    ∃ busy' idle' c', Inv Like (s.step q (.ringExpansion numTrbs answers)) busy' idle' c' := by
  obtain ⟨idle', fifo, ways⟩ := inv.fifo.ringExpansion q numTrbs allowed.1 allowed.2 careful.1 careful.2
  rcases ways with ⟨same, rfl⟩ | grown
  · rw [same]
    exact ⟨busy, idle', c, inv⟩
  · have mirrored := inv.mirrored.grown inv.fifo.view.queue inv.isCached inv.several accepted grown
    obtain ⟨_, _, _, _, expanded, _⟩ := grown.expands
    refine ⟨busy, idle', c, fifo, mirrored, by rw [expanded.type]; exact inv.isCached, ?_⟩
    rw [expanded.numSegs]
    have several := inv.several
    omega

/-- The TRBs of a TD before they are copied. -/
theorem Inv.queued (inv : Inv Like s busy idle c) (q : Quirks) {first : Trb} {rest : List Trb} (write : Nat → CacheWrite)
    (allowed : RingFifo.Op.Allowed s (.queueTd first rest write)) :
    ∃ td idle', idle = td ++ idle' ∧ nonlinks td = rest.length + 1 ∧ td.head? = some s.ring.enqueue ∧
      View (queueRest q (first :: rest) s.ring) (s.pending ++ (first :: rest).map (·.setCycle false)) s.ccs (busy ++ td) idle' c ∧
      contents (queueRest q (first :: rest) s.ring) busy = s.pending ∧
      Kept s.ring (queueRest q (first :: rest) s.ring) td ∧ Ready Like (queueRest q (first :: rest) s.ring) busy td idle' ∧
      s.ring.queueTd q first rest write = (queueRest q (first :: rest) s.ring).cacheCopyFromRing write := by
  obtain ⟨reserved, plain, plains⟩ := allowed
  have room := inv.fifo.room
  have inner := inv.inner plain
  obtain ⟨td, idle', split, counted, begins, view, before, kept, ready⟩ := inv.mirrored.queueRest (q := q) inv.fifo.view inner
    (by simp) plains (by simp only [List.length_cons]; omega)
  refine ⟨td, idle', split, counted, begins, view, before, kept, ready, ?_⟩
  rw [queueTd_eq q inv.fifo.view.queue inner plains (by omega), if_pos (by rw [kept.type]; exact inv.isCached)]

theorem Inv.queueTd (inv : Inv Like s busy idle c) (likeness : Likeness Like) (q : Quirks) {first : Trb} {rest : List Trb}
    {write : Nat → CacheWrite} (allowed : RingFifo.Op.Allowed s (.queueTd first rest write))
    (accepted : ∀ i, write i = .accepted) :
    ∃ busy' idle' c', Inv Like (s.step q (.queueTd first rest write)) busy' idle' c' := by
  obtain ⟨td, idle', split, counted, begins, view, _, kept, ready, eq⟩ := inv.queued q write allowed
  have room := inv.fifo.room
  have few := allowed.1
  rw [split, nonlinks_append] at room
  have several : 2 ≤ (queueRest q (first :: rest) s.ring).numSegs := by rw [kept.numSegs]; exact inv.several
  have mirrored := ready.mirrored likeness view.queue several (by omega) accepted
  obtain ⟨cache, cacheEnqueue, copied⟩ := cacheCopyFromRing_eq (queueRest q (first :: rest) s.ring) write
  have sameSlack : slack (s.ring.queueTd q first rest write) = slack s.ring := by
    rw [slack, slack, eq, copied]
    simp only [kept.type, kept.dequeue]
  refine ⟨busy ++ td, idle', c, ⟨?_, ?_⟩, ?_, ?_, ?_⟩
  · show View (s.ring.queueTd q first rest write) _ _ _ _ _
    rw [eq, copied]
    exact view.recached cache cacheEnqueue
  · show s.reserved - (rest.length + 1) + slack (s.ring.queueTd q first rest write) + 1 ≤ _
    omega
  · show Mirrored Like (s.ring.queueTd q first rest write) _ _
    rw [eq]
    exact mirrored
  · show ehubCacheRing (s.ring.queueTd q first rest write).type = true
    rw [eq, copied]
    simpa only [kept.type] using inv.isCached
  · show 2 ≤ (s.ring.queueTd q first rest write).numSegs
    rw [eq, copied]
    exact several

/-- TRBs that have been consumed are like their copies as others. -/
theorem Inv.incDeq (inv : Inv Like s busy idle c) (likeness : Likeness Like) (q : Quirks) (pending : s.pending ≠ []) :
    ∃ busy' idle' c', Inv Like (s.step q .incDeq) busy' idle' c' := by
  obtain ⟨front, rest, c', rfl, fifo⟩ := inv.fifo.incDeq q pending
  have queue := inv.fifo.view.queue
  have member : s.ring.dequeue ∈ front ++ rest ++ idle := by
    rcases queue.dequeue with inOrder | ⟨nothing, _⟩
    · exact List.mem_of_mem_head? inOrder
    · have none := inv.fifo.view.pending
      rw [nothing] at none
      exact absurd none.symm pending
  have eq : (s.step q .incDeq).ring = _ := incDeq_eq queue.shape member
  refine ⟨rest, idle ++ front, c', fifo, ?_, ?_, ?_⟩
  · exact inv.mirrored.release likeness (by rw [eq]) (by rw [eq]) (by rw [eq]) (by rw [eq])
  · rw [eq]
    exact inv.isCached
  · rw [eq]
    exact inv.several

theorem Inv.setDeq (inv : Inv Like s busy idle c) (likeness : Likeness Like) (q : Quirks) {target : TrbPtr}
    (ahead : ¬Overtaken s.ring) (there : target ∈ (span s.ring s.ring.enqueue ++ [s.ring.enqueue]).tail) :
    ∃ busy' idle' c', Inv Like (step q s (.setDeq target)) busy' idle' c' := by
  have view := inv.fifo.view
  have shape := view.queue.shape
  have inOrder := inOrder_of view.queue ahead
  rw [span_busy view.queue ahead] at there
  obtain ⟨front, back, rfl, moves, first⟩ := split_target view.queue there
  obtain ⟨eq, queue⟩ := view.queue.setDeq moves first
  obtain ⟨more, split⟩ := List.head?_eq_some_iff.mp first
  have lap : Shape s.ring (front ++ target :: more) := by rwa [List.append_assoc, split] at shape
  have start : (front ++ target :: more).head? = some s.ring.dequeue := by rwa [List.append_assoc, split] at inOrder
  have passed := span_eq lap start
  set x := s.ring.updateRingForSetDeqCompletion target with is_x
  have room := inv.fifo.room
  have enqueue : x.enqueue = s.ring.enqueue := by rw [eq]
  have phased : Phased x back (idle ++ front) (phase (flipsAt s.ring) c front) :=
    Phased.release shape view.phased (by rw [eq]) (by rw [eq])
  have contains : contents x back = s.pending.drop (spanned s.ring target) := by
    have inside : ∀ p ∈ front, p ∈ front ++ back ++ idle := fun p member => by simp [member]
    have same : contents x back = contents s.ring back := contents_edit fun p _ => by rw [eq]
    rw [same, ← view.pending, contents_append, spanned_eq lap start, ← length_contents shape inside, List.drop_left]
  have inOrder' : (back ++ (idle ++ front)).head? = some x.dequeue := by
    rw [eq, ← List.append_assoc, split]
    rfl
  refine ⟨back, idle ++ front, phase (flipsAt s.ring) c front, ⟨?_, ?_⟩, ?_, ?_, ?_⟩
  · show View x _ (phase (flipsAt s.ring) s.ccs (span s.ring target)) _ _ _
    rw [view.ccs_ahead ahead, passed]
    refine .of_ahead queue phased contains (not_overtaken queue inOrder' ?_)
    rw [nonlinks_append]
    omega
  · have further : target.idx ≤ s.ring.dequeue.idx + nonlinks front :=
      idx_le (show IsLap (follow s.ring.next) ([] ++ (front ++ target :: more)) from lap.isLap) start
    have less : slack x ≤ slack s.ring + nonlinks front := by
      rw [eq, slack, slack]
      split_ifs
      · simp
      · exact further
    show s.reserved + slack x + 1 ≤ _
    rw [nonlinks_append]
    omega
  · show Mirrored Like x back (idle ++ front)
    exact inv.mirrored.release likeness (by rw [eq]) (by rw [eq]) enqueue (by rw [eq])
  · show ehubCacheRing x.type = true
    rw [eq]
    exact inv.isCached
  · show 2 ≤ x.numSegs
    rw [eq]
    exact inv.several

theorem Inv.tdToNoop (inv : Inv Like s busy idle c) (q : Quirks) {first last : TrbPtr} (ahead : ¬Overtaken s.ring)
    (stretch : Stretch first last (span s.ring s.ring.enqueue))
    (unlike : ∀ p t t', Like t t' → Like (noopTrb false first last p t) t') :
    ∃ busy' idle' c', Inv Like (step q s (.tdToNoop first last)) busy' idle' c' := by
  rw [span_busy inv.fifo.view.queue ahead] at stretch
  obtain ⟨front, mid, back, is_busy, begins⟩ := stretch
  have room := inv.fifo.room
  obtain ⟨view, mirrored, trbs, eq⟩ := inv.mirrored.noop inv.fifo.view (by omega) is_busy begins unlike
  set x := s.ring.tdToNoop first last false with is_x
  have ahead' : ¬Overtaken x := by
    refine not_overtaken view.queue ?_ (by omega)
    have inOrder := inOrder_of inv.fifo.view.queue ahead
    rw [inOrder, eq]
  refine ⟨busy, idle, c, ⟨?_, ?_⟩, mirrored, ?_, ?_⟩
  · show View x (contents x (span x x.enqueue)) s.ccs busy idle c
    rw [span_busy view.queue ahead']
    exact view
  · have sameSlack : slack x = slack s.ring := by rw [eq]; rfl
    show s.reserved + slack x + 1 ≤ _
    omega
  · show ehubCacheRing x.type = true
    rw [eq]
    exact inv.isCached
  · show 2 ≤ x.numSegs
    rw [eq]
    exact inv.several

/-- With nothing reserved any longer. -/
theorem Inv.unreserved (inv : Inv Like s busy idle c) : Inv Like { s with reserved := 0 } busy idle c := by
  have room := inv.fifo.room
  refine ⟨⟨inv.fifo.view, ?_⟩, inv.mirrored, inv.isCached, inv.several⟩
  show 0 + slack s.ring + 1 ≤ _
  omega

variable {q : Quirks} {urb : Urb} {maxBufferSize i : Nat} {env : Env}

/-- What the loop of `xhci_queue_isoc_tx` has done before packet `i`. -/
theorem Inv.looping (inv : Inv Like s busy idle c) (allowed : Op.Allowed s (.queueIsoc urb maxBufferSize env))
    (inside : i ≤ urb.packets.length)
    (passes : ∀ k < i, ¬PrepareFails s.ring urb maxBufferSize env k ∧ ¬LengthFails urb maxBufferSize k) :
    trbsBefore urb maxBufferSize urb.packets.length + slack s.ring + 1 ≤ nonlinks idle ∧
    ∃ tds' done idle', Looping s.ring [] urb maxBufferSize busy idle i (ringAt q s.ring urb maxBufferSize env i) tds' done idle' ∧
      queueIsocLoop q urb maxBufferSize env s.ring.enqueue 0 urb.packets
          ⟨s.ring.enqueue, s.ring.cycleState, s.ring.numTrbsFree⟩ s.ring [] =
        queueIsocLoop q urb maxBufferSize env s.ring.enqueue i (urb.packets.drop i)
          ⟨s.ring.enqueue, s.ring.cycleState, s.ring.numTrbsFree⟩ (ringAt q s.ring urb maxBufferSize env i) tds' := by
  obtain ⟨isoc, reserved, plain⟩ := allowed
  have room := inv.fifo.room
  have enough : trbsBefore urb maxBufferSize urb.packets.length + slack s.ring + 1 ≤ nonlinks idle := by omega
  exact ⟨enough, looping_at inv.fifo.view.queue inv.fifo.view.phased (inv.inner plain) isoc enough i inside passes⟩

/-- Before the TRBs of the URB are copied the device takes none of them, whatever links it
    has been given. -/
theorem Inv.sees_looping (inv : Inv Like s busy idle c) (likeness : Likeness Like)
    (allowed : Op.Allowed s (.queueIsoc urb maxBufferSize env)) (inside : i ≤ urb.packets.length)
    (passes : ∀ k < i, ¬PrepareFails s.ring urb maxBufferSize env k ∧ ¬LengthFails urb maxBufferSize k) :
    Sees (ringAt q s.ring urb maxBufferSize env i) s.ccs s.pending := by
  obtain ⟨_, tds', done, idle', looping, _⟩ := inv.looping (q := q) allowed inside passes
  set x := ringAt q s.ring urb maxBufferSize env i
  have view := inv.fifo.view
  have start := inv.inner allowed.2.2
  have ahead := not_overtaken_inner view.queue start
  have inOrder := inOrder_of view.queue ahead
  have distinct := view.queue.shape.isLap.1
  have enqIn : s.ring.enqueue ∈ idle := List.mem_of_mem_head? view.queue.enqueue
  obtain ⟨rest, is_idle⟩ := view.queue.idle_eq
  have shape : Shape x (busy ++ s.ring.enqueue :: rest) := by
    rw [← is_idle, looping.split, ← List.append_assoc]
    exact looping.filling.queue.shape
  have apart : ∀ p ∈ busy, p ∉ done := fun p inBusy inDone =>
    (List.nodup_append.mp distinct).2.2 p inBusy p (by rw [looping.split]; simp [inDone]) rfl
  have host : ∀ p ∈ busy, x.trb p = s.ring.trb p := fun p member => looping.filling.kept.trb p (apart p member)
  have copies : ∀ p, (p ∉ done ∨ p.idx ≠ 63) → cached x.toSegments p = cached s.ring.toSegments p := by
    intro p outside
    refine (looping.copied p).resolve_right ?_
    rintro ⟨inDone, onLink, _⟩
    exact outside.elim (fun notIn => notIn inDone) fun inner => inner onLink
  rw [← view.pending, ← contents_edit host, view.ccs_ahead ahead]
  refine sees_upTo likeness shape ?_ ?_ (inPhase_edit view.phased.owned host) ?_
  · rw [← is_idle, inOrder, looping.filling.kept.dequeue]
  · intro p member
    rw [host p member, copies p (.inl (apart p member))]
    exact inv.mirrored.like p member
  · have free := view.phased.free
    rw [is_idle] at free
    rw [copies _ (.inr start), inv.mirrored.plain _ enqIn start, phase_edit c host, view.phased.cycleState]
    exact free.1

/-- The TRBs of a URB of which nothing fails, before they are copied. -/
theorem Inv.urbQueued (inv : Inv Like s busy idle c) (env : Env) (allowed : Op.Allowed s (.queueIsoc urb maxBufferSize env))
    (some_packets : 0 < urb.packets.length)
    (passes : ∀ k < urb.packets.length, ¬PrepareFails s.ring urb maxBufferSize env k ∧ ¬LengthFails urb maxBufferSize k) :
    ∃ x td idle', (queueIsocTx q s.ring [] urb maxBufferSize env).1 = 0 ∧
      (queueIsocTx q s.ring [] urb maxBufferSize env).2.1 = x.cacheCopyFromRing env.write ∧
      idle = td ++ idle' ∧ td.head? = some s.ring.enqueue ∧ nonlinks td = trbsBefore urb maxBufferSize urb.packets.length ∧
      View x (s.pending ++ (urbTds urb maxBufferSize).flatten) s.ccs (busy ++ td) idle' c ∧
      contents x busy = s.pending ∧ Kept s.ring x td ∧ Ready Like x busy td idle' := by
  obtain ⟨room, tds', td, idle', looping, reached⟩ := inv.looping (q := q) allowed le_rfl passes
  obtain ⟨begun, _⟩ := looping.begun some_packets
  have split := looping.split
  have view := inv.fifo.view
  have mirrored := inv.mirrored
  have inner := inv.inner allowed.2.2
  have enqueue := view.queue.enqueue
  rw [split] at view mirrored room enqueue
  have begins : td.head? = some s.ring.enqueue := by
    cases td with
    | nil => simp at begun
    | cons x td => exact enqueue
  rw [nonlinks_append, looping.counted] at room
  obtain ⟨view', kept⟩ := filling_released looping.filling view begins inner (by omega)
  set y := ringAt q s.ring urb maxBufferSize env urb.packets.length
  set x := y.modifyTrb s.ring.enqueue (·.setCycle s.ring.cycleState) with is_x
  have whole : contents y td = (urbTds urb maxBufferSize).flatten := by
    have length : (urbTds urb maxBufferSize).length = urb.packets.length := by simp [urbTds]
    rw [looping.contains, List.take_of_length_le length.le]
  rw [whole] at view'
  have called : queueIsocTx q s.ring [] urb maxBufferSize env = (0, y.givebackFirstTrb s.ring.cycleState s.ring.enqueue env.write, tds') := by
    rw [queueIsocTx, if_neg (by omega), reached, List.drop_length, queueIsocLoop]
  have isCached : ehubCacheRing x.type = true := by
    rw [kept.type]
    exact inv.isCached
  refine ⟨x, td, idle', by rw [called], ?_, split, begins, looping.counted, view', ?_, kept, ?_⟩
  · rw [called]
    show y.givebackFirstTrb s.ring.cycleState s.ring.enqueue env.write = _
    rw [givebackFirstTrb]
    exact if_pos isCached
  · have distinct := view.queue.shape.isLap.1
    rw [← view.pending]
    refine contents_edit fun p member => kept.trb p fun inTd => ?_
    exact (List.nodup_append.mp distinct).2.2 p member p (List.mem_append_left _ inTd) rfl
  · refine mirrored.ready view view' kept begins fun p => ?_
    exact (looping.copied p).imp_right fun copied => ⟨copied.1, copied.2.1⟩

/-- A URB whose TD `i` is the first that cannot be queued is taken back. -/
theorem Inv.urbTakenBack (inv : Inv Like s busy idle c) (allowed : Op.Allowed s (.queueIsoc urb maxBufferSize env))
    (inside : i < urb.packets.length)
    (passes : ∀ k < i, ¬PrepareFails s.ring urb maxBufferSize env k ∧ ¬LengthFails urb maxBufferSize k)
    (fails : PrepareFails s.ring urb maxBufferSize env i ∨ LengthFails urb maxBufferSize i)
    (restores : Restores s.ring urb maxBufferSize env) :
    (queueIsocTx q s.ring [] urb maxBufferSize env).1 ≠ 0 ∧
    Inv Like { s with ring := (queueIsocTx q s.ring [] urb maxBufferSize env).2.1 } busy idle c := by
  obtain ⟨room, tds', done, idle', looping, reached⟩ := inv.looping (q := q) allowed inside.le passes
  obtain ⟨afterPrepare, afterLength⟩ := restores i inside passes
  have here : urb.packets[i]? = some urb.packets[i] := List.getElem?_eq_getElem inside
  have view := inv.fifo.view
  have start := inv.inner allowed.2.2
  have called : queueIsocTx q s.ring [] urb maxBufferSize env =
      queueIsocLoop q urb maxBufferSize env s.ring.enqueue i (urb.packets[i] :: urb.packets.drop (i + 1))
        ⟨s.ring.enqueue, s.ring.cycleState, s.ring.numTrbsFree⟩ (ringAt q s.ring urb maxBufferSize env i) tds' := by
    rw [queueIsocTx, if_neg (by omega), reached, List.drop_eq_getElem_cons inside]
  rw [called]
  -- Where the cleanup leaves off the copies are as good as they were.
  have restored : ∀ {x : Ring} {done rest : List TrbPtr} (tds : List Td), idle = done ++ x.enqueue :: rest →
      Interrupted s.ring x busy done rest → (cycleAt x x.enqueue ^^ decide (x.enqueue.idx = 63)) = cycleAt s.ring x.enqueue →
      (∀ p, x.cache p.seg p.idx = s.ring.cache p.seg p.idx ∨
        (p ∈ done ∧ p.idx = 63 ∧ SameLink (s.ring.trb p) (x.cache p.seg p.idx))) →
      Inv Like { s with ring :=
        (cleanup x tds urb.id i ⟨s.ring.enqueue, s.ring.cycleState, s.ring.numTrbsFree⟩).1 } busy idle c := by
    intro x done rest tds split interrupted same copied
    have mirrored := inv.mirrored
    have view := inv.fifo.view
    rw [split] at view mirrored
    obtain ⟨view', mirrored', numSegs, type, dequeue⟩ := interrupted_restored tds urb.id i
      interrupted view start same mirrored copied
    rw [← split] at view' mirrored'
    refine ⟨⟨view', ?_⟩, mirrored', ?_, ?_⟩
    · have sameSlack : slack (cleanup x tds urb.id i ⟨s.ring.enqueue, s.ring.cycleState, s.ring.numTrbsFree⟩).1 = slack s.ring := by
        rw [slack, slack, type, dequeue]
      have room := inv.fifo.room
      show s.reserved + slack (cleanup x tds urb.id i ⟨s.ring.enqueue, s.ring.cycleState, s.ring.numTrbsFree⟩).1 + 1 ≤ _
      omega
    · show ehubCacheRing (cleanup x tds urb.id i ⟨s.ring.enqueue, s.ring.cycleState, s.ring.numTrbsFree⟩).1.type = true
      rw [type]
      exact inv.isCached
    · show 2 ≤ (cleanup x tds urb.id i ⟨s.ring.enqueue, s.ring.cycleState, s.ring.numTrbsFree⟩).1.numSegs
      rw [numSegs]
      exact inv.several
  by_cases prepare : PrepareFails s.ring urb maxBufferSize env i
  · by_cases zero : i = 0
    · subst zero
      obtain ⟨error, failed, result⟩ := looping.fails_first (q := q) start allowed.1 room here prepare (urb.packets.drop 1)
        s.ring.enqueue ⟨s.ring.enqueue, s.ring.cycleState, s.ring.numTrbsFree⟩
      rw [result]
      exact ⟨failed, inv⟩
    · obtain ⟨error, x, rest, failed, result, rfl, interrupted, cache, same⟩ := looping.fails_later (q := q) view.queue start
        allowed.1 room here (by omega) prepare (urb.packets.drop (i + 1)) s.ring.enqueue
      rw [result]
      refine ⟨failed, restored tds' looping.split interrupted (same.mpr (afterPrepare prepare)) ?_⟩
      rw [cache]
      exact looping.copied
  · have short := fails.resolve_left prepare
    have inner := afterLength prepare short
    obtain ⟨p, is_p, short⟩ := short
    rw [here, Option.some.injEq] at is_p
    subst is_p
    obtain ⟨x, done', idle'', result, first, looping'⟩ := looping.queued (q := q) view.queue view.phased start allowed.1 room
      here prepare
    rw [queueIsocLoop_ok result first, if_pos short]
    have filling := looping'.filling
    have split := looping'.split
    have onLink_iff := looping'.onLink_iff view.queue start
    set y := queuePacket q s.ring.cycleState i (packetTrbs urb maxBufferSize i urb.packets[i]) x
    obtain ⟨rest, rfl⟩ := filling.queue.idle_eq
    have error : -eINVAL ≠ 0 := by decide
    refine ⟨error, restored _ split filling.interrupted ?_ looping'.copied⟩
    have notLink : y.enqueue.idx ≠ 63 := fun onLink => inner (onLink_iff.mp onLink)
    rw [decide_eq_false notLink, Bool.xor_false, cycleAt, filling.kept.trb _ filling.notDone]
    rfl

theorem Inv.queueIsoc (inv : Inv Like s busy idle c) (likeness : Likeness Like)
    (allowed : Op.Allowed s (.queueIsoc urb maxBufferSize env)) (accepted : ∀ i, env.write i = .accepted)
    (restores : Restores s.ring urb maxBufferSize env) :
    ∃ busy' idle' c', Inv Like (step q s (.queueIsoc urb maxBufferSize env)) busy' idle' c' := by
  have failed : ∀ (busy' idle' : List TrbPtr) (c' : Bool), (queueIsocTx q s.ring [] urb maxBufferSize env).1 ≠ 0 →
      Inv Like { s with ring := (queueIsocTx q s.ring [] urb maxBufferSize env).2.1 } busy' idle' c' →
      ∃ busy' idle' c', Inv Like (step q s (.queueIsoc urb maxBufferSize env)) busy' idle' c' := by
    intro busy' idle' c' failed inv'
    refine ⟨busy', idle', c', ?_⟩
    simp only [step, if_neg failed]
    exact inv'.unreserved
  by_cases none : urb.packets.length < 1
  · have called : queueIsocTx q s.ring [] urb maxBufferSize env = (-eINVAL, s.ring, []) := by rw [queueIsocTx, if_pos none]
    refine failed busy idle c ?_ ?_
    · rw [called]
      show -eINVAL ≠ 0
      decide
    · rw [called]
      exact inv
  by_cases fails : ∃ i < urb.packets.length, PrepareFails s.ring urb maxBufferSize env i ∨ LengthFails urb maxBufferSize i
  · classical
    obtain ⟨inside, here⟩ := Nat.find_spec fails
    have passes : ∀ k < Nat.find fails, ¬PrepareFails s.ring urb maxBufferSize env k ∧ ¬LengthFails urb maxBufferSize k := by
      intro k before
      have not := Nat.find_min fails before
      push Not at not
      exact not (by omega)
    obtain ⟨error, inv'⟩ := inv.urbTakenBack (q := q) allowed inside passes here restores
    exact failed busy idle c error inv'
  · have passes : ∀ k < urb.packets.length, ¬PrepareFails s.ring urb maxBufferSize env k ∧ ¬LengthFails urb maxBufferSize k := by
      push Not at fails
      exact fails
    obtain ⟨x, td, idle', ok, called, split, begins, counted, view, before, kept, ready⟩ :=
      inv.urbQueued (q := q) env allowed (by omega) passes
    have room := inv.fifo.room
    have few := allowed.2.1
    rw [split, nonlinks_append] at room
    have several : 2 ≤ x.numSegs := by rw [kept.numSegs]; exact inv.several
    have mirrored := ready.mirrored likeness view.queue several (by omega) accepted
    obtain ⟨cache, cacheEnqueue, copied⟩ := cacheCopyFromRing_eq x env.write
    have sameSlack : slack (x.cacheCopyFromRing env.write) = slack s.ring := by
      rw [slack, slack, copied]
      simp only [kept.type, kept.dequeue]
    refine ⟨busy ++ td, idle', c, ?_⟩
    simp only [step, if_pos ok, called]
    refine ⟨⟨?_, ?_⟩, mirrored, ?_, ?_⟩
    · show View (x.cacheCopyFromRing env.write) _ _ _ _ _
      rw [copied]
      exact view.recached cache cacheEnqueue
    · show s.reserved - trbsBefore urb maxBufferSize urb.packets.length + slack (x.cacheCopyFromRing env.write) + 1 ≤ _
      omega
    · show ehubCacheRing (x.cacheCopyFromRing env.write).type = true
      rw [copied]
      simpa only [kept.type] using inv.isCached
    · show 2 ≤ (x.cacheCopyFromRing env.write).numSegs
      rw [copied]
      exact several

/-- TDs may only be cancelled where a no-op is like what it was. -/
theorem Inv.step (inv : Inv Like s busy idle c) (likeness : Likeness Like) (q : Quirks) (op : Op) (allowed : op.Allowed s)
    (careful : Careful s op)
    (unlike : ∀ first last, op = .tdToNoop first last → ∀ p t t', Like t t' → Like (noopTrb false first last p t) t') :
    ∃ busy' idle' c', Inv Like (step q s op) busy' idle' c' := by
  cases op with
  | ring op =>
    obtain ⟨inOrder, written⟩ := careful
    cases op with
    | prepareRing epState numTrbs answers status => exact inv.prepareRing likeness q epState numTrbs allowed inOrder written
    | queueTd first rest write => exact inv.queueTd likeness q allowed written
    | incDeq => exact inv.incDeq likeness q allowed
    | ringExpansion numTrbs answers => exact inv.ringExpansion q numTrbs allowed inOrder written
  | queueIsoc urb maxBufferSize env => exact inv.queueIsoc likeness allowed careful.1 careful.2
  | tdToNoop first last => exact inv.tdToNoop q allowed.1 allowed.2 (unlike first last rfl)
  | setDeq target => exact inv.setDeq likeness q allowed.1 allowed.2

end

theorem numSegs_ringAlloc {q : Quirks} {numSegs : Nat} {cycleState : Bool} {type : RingType} {answers : Answers} {r : Ring}
    (made : ringAlloc q numSegs cycleState type answers = some r) : r.numSegs = numSegs := by
  rw [ringAlloc] at made
  split at made
  · simp at made
  · split at made
    · simp at made
    · rw [Option.some.injEq] at made
      rw [← made]
      rfl

theorem inv_new {Like : Trb → Trb → Prop} {q : Quirks} {s : State} (new : New q s) : ∃ busy idle c, Inv Like s busy idle c := by
  obtain ⟨numSegs, type, answers, several, isCached, distinct, made, reserved, pending⟩ := new
  have notEvent : type ≠ .event := by
    rintro rfl
    simp [ehubCacheRing] at isCached
  obtain ⟨queue, is_type, cycleState, dequeue, _, start, last_eq, marks⟩ := queue_ringAlloc notEvent distinct made
  have phased := phased_new queue.shape cycleState last_eq marks
  have mirrored : Mirrored Like s.ring [] (laid (answers.segs.take numSegs)) := mirrored_new isCached distinct made
  refine ⟨[], laid (answers.segs.take numSegs), s.ccs, ⟨?_, ?_⟩, mirrored, ?_, ?_⟩
  · exact .of_ahead queue phased pending.symm (not_overtaken_inner queue (by rw [start]; decide))
  · obtain ⟨rest, is_idle⟩ := queue.idle_eq
    rw [reserved, slack, dequeue, start, is_idle, nonlinks_cons]
    simp [start]
  · rw [is_type]
    exact isCached
  · have many : s.ring.numSegs = numSegs := numSegs_ringAlloc made
    omega

/-! ### What the device sees -/

/-- As far as an owner looks at it the copy is the TRB. -/
structure Tracks (t t' : Trb) : Prop where
  cycle : t'.cycle = t.cycle
  isLink : t'.isLink = t.isLink
  segmentPtr : t.isLink = true → t'.segmentPtr = t.segmentPtr
  toggle : t.isLink = true → t'.toggle = t.toggle

theorem likeness_tracks : Likeness Tracks :=
  ⟨fun _ => ⟨rfl, rfl, fun _ => rfl, fun _ => rfl⟩, Tracks.cycle, Tracks.isLink, Tracks.segmentPtr, Tracks.toggle⟩

theorem likeness_eq : Likeness (fun t t' : Trb => t' = t) := by
  refine ⟨fun _ => rfl, ?_, ?_, ?_, ?_⟩
  · rintro t _ rfl
    rfl
  · rintro t _ rfl
    rfl
  · rintro t _ rfl _
    rfl
  · rintro t _ rfl _
    rfl

/-- A TRB and its no-op are the same to an owner. -/
theorem Tracks.noop {first last : TrbPtr} (p : TrbPtr) (t t' : Trb) (tracks : Tracks t t') :
    Tracks (noopTrb false first last p t) t' := by
  have cycle : (noopTrb false first last p t).cycle = t.cycle := by rw [cycle_noopTrb]; simp
  refine ⟨by rw [cycle, tracks.cycle], by rw [isLink_noopTrb, tracks.isLink], ?_, ?_⟩
  · intro isLink
    rw [isLink_noopTrb] at isLink
    rw [(sameLink_noopTrb _ _ _ _ _ isLink).segmentPtr, tracks.segmentPtr isLink]
  · intro isLink
    rw [isLink_noopTrb] at isLink
    rw [(sameLink_noopTrb _ _ _ _ _ isLink).toggle, tracks.toggle isLink]

theorem inv_reachable {q : Quirks} {s : State} (reachable : Reachable q Careful s) :
    ∃ busy idle c, Inv Tracks s busy idle c := by
  refine Run.Reachable.invariant (P := fun s => ∃ busy idle c, Inv Tracks s busy idle c) (fun _ new => inv_new new) ?_
    reachable
  rintro s op ⟨busy, idle, c, inv⟩ ⟨allowed, careful⟩
  exact inv.step likeness_tracks q op allowed careful fun first last _ => Tracks.noop

/-- The first `k` cache writes of a call have been made. -/
def firstWrites (k : Nat) : Nat → CacheWrite := fun i => if i < k then .accepted else .refused

/-- No TD of the URB goes past the end of a segment when its first TRB comes to index
    `idx`. -/
def Unbroken (urb : Urb) (maxBufferSize idx : Nat) : Prop :=
  ∀ i < urb.packets.length, (idx + trbsBefore urb maxBufferSize i) / 63 = (idx + trbsBefore urb maxBufferSize (i + 1) - 1) / 63

/-- TRBs that end with a segment end with a TD, if no TD is broken. -/
theorem Unbroken.whole {urb : Urb} {maxBufferSize idx m : Nat} (unbroken : Unbroken urb maxBufferSize idx)
    (atEnd : (idx + m) % 63 = 0) (less : m < trbsBefore urb maxBufferSize urb.packets.length) :
    ∃ j ≤ urb.packets.length, m = trbsBefore urb maxBufferSize j := by
  classical
  have some_beyond : ∃ j, m < trbsBefore urb maxBufferSize j := ⟨_, less⟩
  have beyond := Nat.find_spec some_beyond
  have below : Nat.find some_beyond ≤ urb.packets.length := Nat.find_min' some_beyond less
  have notFirst : Nat.find some_beyond ≠ 0 := by
    intro zero
    rw [zero] at beyond
    simp [trbsBefore] at beyond
  obtain ⟨j, is_j⟩ : ∃ j, Nat.find some_beyond = j + 1 := Nat.exists_eq_add_one_of_ne_zero notFirst
  rw [is_j] at beyond
  have notYet := Nat.find_min some_beyond (show j < _ by omega)
  have inside := unbroken j (by omega)
  exact ⟨j, by omega, by omega⟩

theorem length_urbTds (urb : Urb) (maxBufferSize : Nat) : ∀ j ≤ urb.packets.length,
    ((urbTds urb maxBufferSize).take j).flatten.length = trbsBefore urb maxBufferSize j := by
  intro j
  induction j with
  | zero => simp [trbsBefore]
  | succ j ih =>
    intro inside
    have here : urb.packets[j]? = some urb.packets[j] := List.getElem?_eq_getElem (by omega)
    rw [urbTds_succ here, List.length_append, ih (by omega), trbsBefore_succ here, List.length_map, length_packetTrbs]

theorem take_urbTds {urb : Urb} {maxBufferSize j : Nat} (inside : j ≤ urb.packets.length) :
    (urbTds urb maxBufferSize).flatten.take (trbsBefore urb maxBufferSize j) = ((urbTds urb maxBufferSize).take j).flatten := by
  have split : (urbTds urb maxBufferSize).flatten =
      ((urbTds urb maxBufferSize).take j).flatten ++ ((urbTds urb maxBufferSize).drop j).flatten := by
    rw [← List.flatten_append, List.take_append_drop]
  rw [split, List.take_left' (length_urbTds urb maxBufferSize j inside)]

/-- In every state reached the device takes the pending TRBs. A TD that does not go past
    the end of a segment is then seen whole or not at all, after however many of its
    cache writes; and of a URB that has only such TDs none are seen before the last one
    is queued, and after that always whole ones. -/
theorem td_visible_at_once {q : Quirks} {s : State} (reachable : Reachable q Careful s) :
    Sees s.ring s.ccs s.pending ∧
    (∀ first rest k, RingFifo.Op.Allowed s (.queueTd first rest (firstWrites k)) →
      s.ring.enqueue.idx + (rest.length + 1) ≤ 63 →
      Sees (s.ring.queueTd q first rest (firstWrites k)) s.ccs s.pending ∨
      Sees (s.ring.queueTd q first rest (firstWrites k)) s.ccs (s.pending ++ (first :: rest).map (·.setCycle false))) ∧
    ∀ urb maxBufferSize env, Op.Allowed s (.queueIsoc urb maxBufferSize env) →
      (∀ i < urb.packets.length, ¬PrepareFails s.ring urb maxBufferSize env i ∧ ¬LengthFails urb maxBufferSize i) →
      Unbroken urb maxBufferSize s.ring.enqueue.idx →
      (∀ i ≤ urb.packets.length, Sees (ringAt q s.ring urb maxBufferSize env i) s.ccs s.pending) ∧
      ∀ k, ∃ j, Sees (queueIsocTx q s.ring [] urb maxBufferSize { env with write := firstWrites k }).2.1 s.ccs
        (s.pending ++ ((urbTds urb maxBufferSize).take j).flatten) := by
  obtain ⟨busy, idle, c, inv⟩ := inv_reachable reachable
  have room := inv.fifo.room
  have inside := inv.fifo.view.queue.shape.inside _ inv.fifo.view.queue.enqueue_mem
  refine ⟨inv.sees likeness_tracks, ?_, ?_⟩
  · intro first rest k allowed fits
    obtain ⟨td, idle', split, counted, begins, view, before, kept, ready, eq⟩ := inv.queued q (firstWrites k) allowed
    have few := allowed.1
    have several : 2 ≤ (queueRest q (first :: rest) s.ring).numSegs := by rw [kept.numSegs]; exact inv.several
    rw [split, nonlinks_append] at room
    obtain ⟨m, sees, stops⟩ := ready.sees likeness_tracks view before several (by omega) begins (inv.inner allowed.2.1)
      (firstWrites k)
    rw [eq]
    by_cases none : m = 0
    · left
      simpa [none] using sees
    · right
      have all : ((first :: rest).map (·.setCycle false)).length ≤ m := by
        simp only [List.length_map, List.length_cons] at stops ⊢
        omega
      rwa [List.take_of_length_le all] at sees
  · intro urb maxBufferSize env allowed passes unbroken
    refine ⟨?_, ?_⟩
    · exact fun i upTo => inv.sees_looping likeness_tracks allowed upTo fun k before => passes k (by omega)
    · intro k
      by_cases none : urb.packets.length < 1
      · refine ⟨0, ?_⟩
        rw [queueIsocTx, if_pos none]
        simpa using inv.sees likeness_tracks
      · obtain ⟨x, td, idle', ok, called, split, begins, counted, view, before, kept, ready⟩ :=
          inv.urbQueued (q := q) { env with write := firstWrites k } allowed (by omega) passes
        have few := allowed.2.1
        have several : 2 ≤ x.numSegs := by rw [kept.numSegs]; exact inv.several
        rw [split, nonlinks_append] at room
        obtain ⟨m, sees, stops⟩ := ready.sees likeness_tracks view before several (by omega) begins (inv.inner allowed.2.2)
          (firstWrites k)
        rw [called]
        have total := length_urbTds urb maxBufferSize urb.packets.length le_rfl
        have length : (urbTds urb maxBufferSize).length = urb.packets.length := by simp [urbTds]
        rw [List.take_of_length_le length.le] at total
        by_cases less : m < trbsBefore urb maxBufferSize urb.packets.length
        · obtain ⟨j, upTo, is_m⟩ : ∃ j ≤ urb.packets.length, m = trbsBefore urb maxBufferSize j := by
            rcases stops with rfl | all | atEnd
            · exact ⟨0, by omega, by simp [trbsBefore]⟩
            · omega
            · exact unbroken.whole atEnd less
          refine ⟨j, ?_⟩
          rwa [is_m, take_urbTds upTo] at sees
        · refine ⟨urb.packets.length, ?_⟩
          rw [List.take_of_length_le length.le]
          rwa [List.take_of_length_le (by omega)] at sees

theorem bulkRing_new : New ⟨false, false⟩ ⟨bulkRing, 0, [], true⟩ :=
  ⟨2, .bulk, _, by decide, by decide, by decide, bulkRing_made, rfl, rfl⟩

/-- A ring on which room has been made for `n` TRBs. -/
def prepared (n : Nat) : State := step ⟨false, false⟩ ⟨bulkRing, 0, [], true⟩ (.ring (.prepareRing 1 n [] 0))

theorem prepared_careful (n : Nat) :
    Op.Allowed ⟨bulkRing, 0, [], true⟩ (.ring (.prepareRing 1 n [] 0)) ∧
    Careful ⟨bulkRing, 0, [], true⟩ (.ring (.prepareRing 1 n [] 0)) := by
  have ahead : ¬Overtaken bulkRing := by decide +kernel
  have fresh : Fresh bulkRing [] := by decide +kernel
  exact ⟨fresh, ⟨fun overtaken => absurd overtaken ahead, by simp, fun _ _ => by decide⟩, by simp [Written]⟩

theorem prepared_reachable (n : Nat) : Reachable ⟨false, false⟩ Careful (prepared n) :=
  Run.Reachable.step (Op.ring (.prepareRing 1 n [] 0)) (.first bulkRing_new) (prepared_careful n)

def dataTrb : Trb := ⟨0x5000, 0, 512, 0x400⟩

def dataTd : Op := .ring (.queueTd (dataTrb.setChain true) [dataTrb] fun _ => .accepted)

/-- A TD of two TRBs has been queued and copied, and there is room for another one. -/
def queued : State := step ⟨false, false⟩ (prepared 4) dataTd

theorem queued_careful : Op.Allowed (prepared 4) dataTd ∧ Careful (prepared 4) dataTd :=
  ⟨(by decide +kernel : RingFifo.Op.Allowed (prepared 4)
    (.queueTd (dataTrb.setChain true) [dataTrb] fun _ => .accepted)), trivial, fun _ => rfl⟩

theorem queued_reachable : Reachable ⟨false, false⟩ Careful queued :=
  Run.Reachable.step dataTd (prepared_reachable 4) queued_careful

/-- The only write of the next TD is made. -/
theorem td_visible_at_once_queued :
    Sees (queued.ring.queueTd ⟨false, false⟩ (dataTrb.setChain true) [dataTrb] (firstWrites 1)) true
      ([dataTrb.setChain true, dataTrb].map (·.setCycle false)) ∨
    Sees (queued.ring.queueTd ⟨false, false⟩ (dataTrb.setChain true) [dataTrb] (firstWrites 1)) true
      ([dataTrb.setChain true, dataTrb, dataTrb.setChain true, dataTrb].map (·.setCycle false)) :=
  (td_visible_at_once queued_reachable).2.1 (dataTrb.setChain true) [dataTrb] 1 (by decide +kernel) (by decide +kernel)

/-- A TD of 64 TRBs that begins with a segment: after one cache write the device takes
    the 63 TRBs of this segment. -/
theorem td_not_visible_at_once : ¬∀ s, Reachable ⟨false, false⟩ Careful s → ∀ first rest k,
    RingFifo.Op.Allowed s (.queueTd first rest (firstWrites k)) →
    Sees (s.ring.queueTd ⟨false, false⟩ first rest (firstWrites k)) s.ccs s.pending ∨
    Sees (s.ring.queueTd ⟨false, false⟩ first rest (firstWrites k)) s.ccs
      (s.pending ++ (first :: rest).map (·.setCycle false)) := by
  intro always
  have sees := always (prepared 64) (prepared_reachable 64) normalTrb (List.replicate 63 normalTrb) 1 (by decide +kernel)
  set r := (prepared 64).ring.queueTd ⟨false, false⟩ normalTrb (List.replicate 63 normalTrb) (firstWrites 1) with is_r
  have part : (device r (64 * r.numSegs) (prepared 64).ccs).map (fun found => (contents r found.1).length) = some 63 := by
    rw [is_r]
    decide +kernel
  have never : ∀ l : List Trb, l.length ≠ 63 → ¬Sees r (prepared 64).ccs l := by
    intro l other sees
    obtain ⟨taken, stop, takes, contains⟩ := sees _ le_rfl
    rw [takes, Option.map_some, contains, Option.some.injEq] at part
    exact other part
  rcases sees with none | all
  · exact never _ (by decide +kernel) none
  · exact never _ (by decide +kernel) all

/-! ### What is equal in all four words -/

/-- The copies of the TRBs from `dequeue` up to `cache_enqueue` are equal to them. There
    are no such TRBs when `dequeue` has run past the link on which `enqueue` rests. -/
def Coherent (r : Ring) : Prop :=
  ¬Overtaken r → ∀ p ∈ (span r r.enqueue).takeWhile (· ≠ r.cacheEnqueue), cached r.toSegments p = r.trb p

/-- As long as no TD is turned into no-ops the device holds what the host has queued. -/
theorem coherent_reachable {q : Quirks} {s : State}
    (reachable : Reachable q (fun s op => Careful s op ∧ ∀ first last, op ≠ .tdToNoop first last) s) : Coherent s.ring := by
  obtain ⟨busy, idle, c, inv⟩ : ∃ busy idle c, Inv (fun t t' => t' = t) s busy idle c := by
    refine Run.Reachable.invariant (P := fun s => ∃ busy idle c, Inv (fun t t' => t' = t) s busy idle c)
      (fun _ new => inv_new new) ?_ reachable
    rintro s op ⟨busy, idle, c, inv⟩ ⟨allowed, careful, noNoop⟩
    exact inv.step likeness_eq q op allowed careful fun first last is_noop => absurd is_noop (noNoop first last)
  intro ahead p member
  rw [span_busy inv.fifo.view.queue ahead] at member
  exact inv.mirrored.like p ((List.takeWhile_sublist _).subset member)

/-- The two TRBs of the TD that has been queued. -/
theorem coherent_queued :
    cached queued.ring.toSegments ⟨0x1000, 0⟩ = queued.ring.trb ⟨0x1000, 0⟩ ∧
    cached queued.ring.toSegments ⟨0x1000, 1⟩ = queued.ring.trb ⟨0x1000, 1⟩ ∧
    (queued.ring.trb ⟨0x1000, 1⟩).setCycle false = dataTrb := by
  obtain ⟨allowed, careful⟩ := prepared_careful 4
  have reachable : Reachable ⟨false, false⟩ (fun s op => Careful s op ∧ ∀ first last, op ≠ .tdToNoop first last) queued :=
    Run.Reachable.step dataTd
      (Run.Reachable.step (Op.ring (.prepareRing 1 4 [] 0)) (.first bulkRing_new) ⟨allowed, careful, fun _ _ => by simp⟩)
      ⟨queued_careful.1, queued_careful.2, fun _ _ => by simp [dataTd]⟩
  have ahead : ¬Overtaken queued.ring := by decide +kernel
  have pending : ∀ i < 2, ⟨0x1000, i⟩ ∈ (span queued.ring queued.ring.enqueue).takeWhile (· ≠ queued.ring.cacheEnqueue) := by
    decide +kernel
  have coherent := coherent_reachable reachable ahead
  exact ⟨coherent _ (pending 0 (by decide)), coherent _ (pending 1 (by decide)), by decide +kernel⟩

/-- Two TDs of one TRB each, the second of which is cancelled: the device holds the TRB
    as it was queued. -/
theorem not_coherent : ¬∀ s, Reachable ⟨false, false⟩ Careful s → Coherent s.ring := by
  intro always
  have first : RingFifo.Op.Allowed (prepared 2) (RingFifo.normalTd 0) := by decide +kernel
  set once := step ⟨false, false⟩ (prepared 2) (.ring (RingFifo.normalTd 0)) with is_once
  have reachedOnce : Reachable ⟨false, false⟩ Careful once :=
    Run.Reachable.step (Op.ring (RingFifo.normalTd 0)) (prepared_reachable 2) ⟨first, trivial, fun _ => rfl⟩
  have second : RingFifo.Op.Allowed once (RingFifo.normalTd 0) := by
    rw [is_once]
    decide +kernel
  set s := step ⟨false, false⟩ once (.ring (RingFifo.normalTd 0)) with is_s
  have reachable : Reachable ⟨false, false⟩ Careful s :=
    Run.Reachable.step (Op.ring (RingFifo.normalTd 0)) reachedOnce ⟨second, trivial, fun _ => rfl⟩
  have ahead : ¬Overtaken s.ring := by
    rw [is_s, is_once]
    decide +kernel
  have two : span s.ring s.ring.enqueue = [⟨0x1000, 0⟩, ⟨0x1000, 1⟩] := by
    rw [is_s, is_once]
    decide +kernel
  have stretch : Stretch ⟨0x1000, 1⟩ ⟨0x1000, 1⟩ (span s.ring s.ring.enqueue) := ⟨[⟨0x1000, 0⟩], [], [], two, rfl⟩
  have coherent := always _ (Run.Reachable.step (Op.tdToNoop ⟨0x1000, 1⟩ ⟨0x1000, 1⟩) reachable ⟨⟨ahead, stretch⟩, trivial⟩)
  have differs : cached (step ⟨false, false⟩ s (.tdToNoop ⟨0x1000, 1⟩ ⟨0x1000, 1⟩)).ring.toSegments ⟨0x1000, 1⟩ ≠
      (step ⟨false, false⟩ s (.tdToNoop ⟨0x1000, 1⟩ ⟨0x1000, 1⟩)).ring.trb ⟨0x1000, 1⟩ := by
    rw [is_s, is_once]
    decide +kernel
  refine differs (coherent ?_ ⟨0x1000, 1⟩ ?_)
  · rw [is_s, is_once]
    decide +kernel
  · rw [is_s, is_once]
    decide +kernel

end Ehub.Coherence
