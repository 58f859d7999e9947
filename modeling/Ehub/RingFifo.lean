import Mathlib
import Ehub.RingAccount

/-!
A ring is a queue. The cycle bits tell the controller which TRBs are its own: reading
from `dequeue`, following the links and flipping its cycle at the one that toggles, it
meets its cycle state on every TRB that has been handed over and stops at the first
one that has not. The invariant (`Phased`) reads the cycle bits once around the lap:
the busy TRBs are in phase with the consumer, the free ones in the opposite phase,
and the producer's cycle state is the phase between the two.
-/
namespace Ehub.RingFifo
open Ehub.Lap Ehub.Segments Ehub.Ring Ehub.RingShape Ehub.RingAccount

def cycleAt (r : Ring) (p : TrbPtr) : Bool := (r.trb p).cycle

/-- A consumer flips its cycle at a link TRB with the toggle bit. -/
def flipsAt (r : Ring) (p : TrbPtr) : Bool := (r.trb p).isLink && (r.trb p).toggle

/-- Where a consumer goes from a TRB: at a link to the segment it points to. -/
def followLink (r : Ring) (p : TrbPtr) : TrbPtr :=
  if (r.trb p).isLink then ⟨(r.trb p).segmentPtr, 0⟩ else ⟨p.seg, p.idx + 1⟩

/-- The TRBs of a stretch that are no links, whatever their cycle bits. -/
def contents (r : Ring) (l : List TrbPtr) : List Trb :=
  (l.filter fun p => !(r.trb p).isLink).map fun p => (r.trb p).setCycle false

/-- What a consumer at `dequeue` with cycle state `c` takes, and where it stops. -/
def consumer (r : Ring) (fuel : Nat) (c : Bool) : Option (List TrbPtr × TrbPtr) :=
  consume (followLink r) (cycleAt r) (flipsAt r) fuel r.dequeue c

/-- The busy TRBs belong to a consumer with cycle state `c`, the others do not. -/
structure Phased (r : Ring) (busy idle : List TrbPtr) (c : Bool) : Prop where
  owned : InPhase (cycleAt r) (flipsAt r) c busy
  cycleState : phase (flipsAt r) c busy = r.cycleState
  free : InPhase (cycleAt r) (flipsAt r) (!r.cycleState) idle

/-- The cycle bits of the ring agree with its pointers. -/
def Consistent (r : Ring) : Prop := ∃ busy idle c, Queue r busy idle ∧ Phased r busy idle c

theorem flipsAt_iff {r : Ring} {lap : List TrbPtr} (shape : Shape r lap) {p : TrbPtr} (member : p ∈ lap) :
    flipsAt r p = true ↔ p = link r.lastSeg := by
  rw [flipsAt, Bool.and_eq_true, shape.links p member]
  constructor
  · rintro ⟨onLink, toggle⟩
    rw [← (shape.toggles p member onLink).mp toggle]
    simp [link, trbsPerSegment, ← onLink]
  · rintro rfl
    exact ⟨rfl, (shape.toggles _ member rfl).mpr rfl⟩

theorem flipsAt_inner {r : Ring} {lap : List TrbPtr} (shape : Shape r lap) {p : TrbPtr} (member : p ∈ lap)
    (inner : p.idx ≠ 63) : flipsAt r p = false := by
  have notLink : (r.trb p).isLink = false := by simpa using mt (shape.links p member).mp inner
  simp [flipsAt, notLink]

/-- Once around the ring the phase has changed. -/
theorem phase_lap {r : Ring} {lap : List TrbPtr} (shape : Shape r lap) (c : Bool) : phase (flipsAt r) c lap = !c :=
  phase_once c shape.isLap.1 shape.lastLink fun _ member => flipsAt_iff shape member

theorem followLink_eq {r : Ring} {lap : List TrbPtr} (shape : Shape r lap) {p : TrbPtr} (member : p ∈ lap) :
    followLink r p = follow r.next p := by
  have links := shape.links p member
  by_cases onLink : p.idx = 63
  · rw [followLink, if_pos (links.mpr onLink), follow, if_pos onLink, shape.pointers p member onLink]
  · rw [followLink, if_neg (mt links.mp onLink), follow, if_neg onLink]

/-- The consumer takes the busy TRBs and stops at the first free one. -/
theorem consumer_eq {r : Ring} {busy rest : List TrbPtr} {stop : TrbPtr} {c : Bool} (shape : Shape r (busy ++ stop :: rest))
    (first : (busy ++ stop :: rest).head? = some r.dequeue) (owned : InPhase (cycleAt r) (flipsAt r) c busy)
    (free : cycleAt r stop = !phase (flipsAt r) c busy) {fuel : Nat} (enough : 64 * r.numSegs ≤ fuel) :
    consumer r fuel c = some (busy, stop) := by
  have isLap : IsLap (followLink r) (busy ++ stop :: rest) :=
    shape.isLap.congr fun p member => followLink_eq shape member
  have size := shape.size
  simp only [List.length_append, List.length_cons] at size
  exact consume_eq isLap first owned free (by omega)

/-- A consumer only looks at the cycle bits and at the links. -/
theorem consumer_congr {r r' : Ring} {lap : List TrbPtr} (shape : Shape r lap) (shape' : Shape r' lap)
    (cycles : ∀ p, cycleAt r' p = cycleAt r p) (next : r'.next = r.next) (lastSeg : r'.lastSeg = r.lastSeg)
    (dequeue : r'.dequeue = r.dequeue) (outside : ∀ p ∉ lap, r'.trb p = r.trb p) (fuel : Nat) (c : Bool) :
    consumer r' fuel c = consumer r fuel c := by
  have flips : flipsAt r' = flipsAt r := by
    funext p
    by_cases member : p ∈ lap
    · rw [Bool.eq_iff_iff, flipsAt_iff shape' member, flipsAt_iff shape member, lastSeg]
    · rw [flipsAt, flipsAt, outside p member]
  have follows : followLink r' = followLink r := by
    funext p
    by_cases member : p ∈ lap
    · rw [followLink_eq shape' member, followLink_eq shape member, next]
    · rw [followLink, followLink, outside p member]
  rw [consumer, consumer, flips, follows, dequeue, funext cycles]

/-! ### What the steps do to the phases -/

/-- Edits outside a stretch leave its phases alone. -/
theorem inPhase_edit {r r' : Ring} {l : List TrbPtr} {c : Bool} (inPhase : InPhase (cycleAt r) (flipsAt r) c l)
    (same : ∀ p ∈ l, r'.trb p = r.trb p) : InPhase (cycleAt r') (flipsAt r') c l :=
  inPhase.congr (fun p member => by rw [cycleAt, cycleAt, same p member])
    (fun p member => by rw [flipsAt, flipsAt, same p member])

theorem phase_edit {r r' : Ring} {l : List TrbPtr} (c : Bool) (same : ∀ p ∈ l, r'.trb p = r.trb p) :
    phase (flipsAt r') c l = phase (flipsAt r) c l :=
  phase_congr c fun p member => by rw [flipsAt, flipsAt, same p member]

theorem contents_edit {r r' : Ring} {l : List TrbPtr} (same : ∀ p ∈ l, r'.trb p = r.trb p) :
    contents r' l = contents r l := by
  rw [contents, contents]
  have kept : l.filter (fun p => !(r'.trb p).isLink) = l.filter (fun p => !(r.trb p).isLink) :=
    List.filter_congr fun p member => by rw [same p member]
  rw [kept]
  exact List.map_congr_left fun p member => by rw [same p (List.mem_of_mem_filter member)]

theorem contents_append (r : Ring) (l m : List TrbPtr) : contents r (l ++ m) = contents r l ++ contents r m := by
  simp [contents]

theorem contents_link {r : Ring} {p : TrbPtr} (isLink : (r.trb p).isLink = true) : contents r [p] = [] := by
  simp [contents, isLink]

theorem contents_plain {r : Ring} {p : TrbPtr} (plain : (r.trb p).isLink = false) :
    contents r [p] = [(r.trb p).setCycle false] := by
  simp [contents, plain]

/-- One TRB at `enqueue` changes hands: the TRB `t` is written there and the cycle state
    becomes the phase behind it. -/
theorem Phased.forward {r r' : Ring} {busy rest : List TrbPtr} {c : Bool} {t : Trb}
    (phased : Phased r busy (r.enqueue :: rest) c) (distinct : (busy ++ r.enqueue :: rest).Nodup)
    (trbs : r'.trbs = (r.setTrb r.enqueue t).trbs) (cycle : t.cycle = r.cycleState)
    (flips : (t.isLink && t.toggle) = flipsAt r r.enqueue)
    (cycleState : r'.cycleState = (r.cycleState ^^ flipsAt r r.enqueue)) :
    Phased r' (busy ++ [r.enqueue]) rest c := by
  have read : ∀ p, r'.trb p = if p = r.enqueue then t else r.trb p := by
    intro p
    rw [← trb_setTrb]
    simp only [Segments.trb, trbs]
  have outside : ∀ p ∈ busy ++ rest, r'.trb p = r.trb p := by
    intro p member
    rw [read, if_neg]
    rintro rfl
    exact (List.nodup_cons.mp (List.nodup_middle.mp distinct)).1 member
  have inBusy : ∀ p ∈ busy, r'.trb p = r.trb p := fun p member => outside p (List.mem_append_left _ member)
  have inRest : ∀ p ∈ rest, r'.trb p = r.trb p := fun p member => outside p (List.mem_append_right _ member)
  have here : r'.trb r.enqueue = t := by rw [read, if_pos rfl]
  have flips' : flipsAt r' r.enqueue = flipsAt r r.enqueue := by rw [flipsAt, here, flips]
  have free := phased.free
  rw [inPhase_cons] at free
  refine ⟨?_, ?_, ?_⟩
  · rw [inPhase_append]
    refine ⟨inPhase_edit phased.owned inBusy, ?_, trivial⟩
    rw [phase_edit c inBusy, phased.cycleState, cycleAt, here, cycle]
  · rw [phase_append, phase_edit c inBusy, phased.cycleState, phase_cons, phase_nil, flips', cycleState]
  · rw [cycleState]
    refine inPhase_edit ?_ inRest
    simpa using free.2

theorem Phased.stored {r : Ring} {busy rest : List TrbPtr} {c : Bool} {t : Trb} (queue : Queue r busy (r.enqueue :: rest))
    (phased : Phased r busy (r.enqueue :: rest) c) (inner : r.enqueue.idx ≠ 63) (plain : t.isLink = false)
    (cycle : t.cycle = r.cycleState) : Phased (stored r t) (busy ++ [r.enqueue]) rest c := by
  have still := flipsAt_inner queue.shape queue.enqueue_mem inner
  refine phased.forward queue.shape.isLap.1 rfl cycle ?_ ?_
  · rw [plain, still]
    rfl
  · rw [still, Bool.xor_false]
    rfl

theorem flips_sameLink {r : Ring} {t : Trb} (same : SameLink (r.trb r.enqueue) t) :
    (t.isLink && t.toggle) = flipsAt r r.enqueue := by
  rw [flipsAt, same.isLink, same.toggle]

theorem toggle_sameLink {r : Ring} {t : Trb} (same : SameLink (r.trb r.enqueue) t)
    (isLink : (r.trb r.enqueue).isLink = true) : t.toggle = flipsAt r r.enqueue := by
  rw [← flips_sameLink same, same.isLink, isLink, Bool.true_and]

theorem Phased.linkGiven {r : Ring} {busy rest : List TrbPtr} {c : Bool} {t : Trb}
    (queue : Queue r busy (r.enqueue :: rest)) (phased : Phased r busy (r.enqueue :: rest) c)
    (onLink : r.enqueue.idx = 63) (same : SameLink (r.trb r.enqueue) t) (flipped : t.cycle = !(r.trb r.enqueue).cycle) :
    Phased (linkGiven r t) (busy ++ [r.enqueue]) rest c := by
  have isLink := (queue.shape.links _ queue.enqueue_mem).mpr onLink
  have notYet : (r.trb r.enqueue).cycle = !r.cycleState := phased.free.1
  refine phased.forward queue.shape.isLap.1 rfl ?_ (flips_sameLink same) ?_
  · rw [flipped, notYet, Bool.not_not]
  · rw [RingShape.linkGiven, toggle_sameLink same isLink]

/-- The link is handed over behind which a consumer with nothing to do already waits. -/
theorem Phased.linkGiven_behind {r : Ring} {rest : List TrbPtr} {c : Bool} {t : Trb}
    (queue : Queue r [] (r.enqueue :: rest)) (phased : Phased r [] (r.enqueue :: rest) c)
    (onLink : r.enqueue.idx = 63) (same : SameLink (r.trb r.enqueue) t) (flipped : t.cycle = !(r.trb r.enqueue).cycle) :
    Phased (RingShape.linkGiven r t) [] (rest ++ [r.enqueue]) (c ^^ flipsAt r r.enqueue) := by
  have given := phased.linkGiven queue onLink same flipped
  have is_c : c = r.cycleState := phased.cycleState
  have shape := queue.shape.linkGiven same
  have around := phase_lap shape c
  refine ⟨trivial, ?_, ?_⟩
  · rw [is_c, phase_nil, RingShape.linkGiven, toggle_sameLink same ((queue.shape.links _ queue.enqueue_mem).mpr onLink)]
  · rw [inPhase_append]
    refine ⟨given.free, ?_⟩
    -- Behind the free TRBs the phase is that of the link again.
    have back : phase (flipsAt (RingShape.linkGiven r t)) (!(RingShape.linkGiven r t).cycleState) rest = c := by
      have owned := given.cycleState
      rw [List.nil_append] at owned around
      rw [phase_not, ← owned, ← phase_append, List.singleton_append, around, Bool.not_not]
    rw [back]
    simpa using given.owned

/-- What a consumer has taken becomes free in its opposite phase. -/
theorem Phased.release {r r' : Ring} {front busy idle : List TrbPtr} {c : Bool} (shape : Shape r (front ++ busy ++ idle))
    (phased : Phased r (front ++ busy) idle c) (segments : r'.toSegments = r.toSegments)
    (cycleState : r'.cycleState = r.cycleState) : Phased r' busy (idle ++ front) (phase (flipsAt r) c front) := by
  have same : ∀ l : List TrbPtr, ∀ p ∈ l, r'.trb p = r.trb p := by
    intro l p _
    rw [segments]
  obtain ⟨inFront, inBusy⟩ := (inPhase_append c front busy).mp phased.owned
  refine ⟨inPhase_edit inBusy (same busy), ?_, ?_⟩
  · rw [phase_edit _ (same busy), ← phase_append, phased.cycleState, cycleState]
  · rw [cycleState]
    refine inPhase_edit ?_ (same _)
    rw [inPhase_append]
    refine ⟨phased.free, ?_⟩
    have around := phase_lap shape c
    rw [phase_append, phased.cycleState] at around
    rwa [phase_not, around, Bool.not_not]

/-- New segments are free in the phase of the TRBs they are put between. -/
theorem Phased.expand {r r' : Ring} {busy front back : List TrbPtr} {segs : List Addr} {last : Addr} {c : Bool}
    (shape : Shape r (busy ++ (front ++ link r.enqueue.seg :: back)))
    (shape' : Shape r' (busy ++ (front ++ link r.enqueue.seg :: (laid segs ++ back))))
    (phased : Phased r busy (front ++ link r.enqueue.seg :: back) c) (expanded : Expanded r r' segs last)
    (inFront : ∀ p ∈ front, p.idx ≠ 63) (fresh : ∀ p ∈ busy ++ (front ++ link r.enqueue.seg :: back), p.seg ∉ segs) :
    Phased r' busy (front ++ link r.enqueue.seg :: (laid segs ++ back)) c := by
  have distinct := shape.isLap.1
  have lastIn : last ∈ segs := List.mem_of_getLast? expanded.last_eq
  have same : ∀ p ∈ busy ++ (front ++ link r.enqueue.seg :: back), p ≠ link r.enqueue.seg → r'.trb p = r.trb p :=
    fun p member other => expanded.trbOther p (fresh p member) other
  have notLink : ∀ p ∈ busy ++ (front ++ back), p ≠ link r.enqueue.seg := by
    rintro p member rfl
    rw [← List.append_assoc] at distinct member
    exact (List.nodup_cons.mp (List.nodup_middle.mp distinct)).1 member
  have sameBusy : ∀ p ∈ busy, r'.trb p = r.trb p := fun p member =>
    same p (List.mem_append_left _ member) (notLink p (List.mem_append_left _ member))
  have sameFront : ∀ p ∈ front, r'.trb p = r.trb p := fun p member =>
    same p (by simp [member]) (notLink p (by simp [member]))
  have sameBack : ∀ p ∈ back, r'.trb p = r.trb p := fun p member =>
    same p (by simp [member]) (notLink p (by simp [member]))
  have link_inj : ∀ s s' : Addr, link s = link s' ↔ s = s' := by simp [link]
  have enqIn : link r.enqueue.seg ∈ busy ++ (front ++ link r.enqueue.seg :: back) := by simp
  have lastFresh : r.lastSeg ∉ segs := fresh (link r.lastSeg) shape.lastLink
  have enqFresh : r.enqueue.seg ∉ segs := fresh (link r.enqueue.seg) enqIn
  obtain ⟨init, laid_eq⟩ := laid_last expanded.last_eq
  have newIn : ∀ p ∈ laid segs, p ∈ busy ++ (front ++ link r.enqueue.seg :: (laid segs ++ back)) := by
    intro p member
    simp only [List.mem_append, List.mem_cons]
    exact .inr (.inr (.inr (.inl member)))
  -- The only link of the new segments that may flip is the last one, and it flips in
  -- place of the link that leads to them.
  have still : ∀ p ∈ laid init ++ run last 0 63, flipsAt r' p = false := by
    intro p member
    have inLaid : p ∈ laid segs := by
      rw [laid_eq]
      exact List.mem_append_left _ member
    have notLast : p ≠ link last := by
      have nodup := shape'.isLap.1
      rintro rfl
      have := ((List.nodup_append.mp nodup).2.1)
      have := (List.nodup_append.mp (List.nodup_cons.mp (List.nodup_append.mp this).2.1).2).1
      rw [laid_eq] at this
      exact (List.nodup_append.mp this).2.2 _ member _ (by simp) rfl
    by_contra flips
    have := (flipsAt_iff shape' (newIn p inLaid)).mp (by simpa using flips)
    rw [expanded.lastSeg] at this
    split_ifs at this with inFront
    · exact notLast this
    · exact lastFresh (by have seg := (mem_laid.mp inLaid).1; rwa [this] at seg)
  have marks : ∀ p ∈ laid segs, cycleAt r' p = !r.cycleState := by
    intro p member
    obtain ⟨inSegs, _⟩ := mem_laid.mp member
    by_cases onLink : p.idx = 63
    · have : p = link p.seg := by simp [link, trbsPerSegment, ← onLink]
      rw [this]
      exact (expanded.links p.seg inSegs).1.cycle
    · have : r'.trb p = freshTrb r.cycleState := expanded.inner p.seg inSegs p.idx onLink
      rw [cycleAt, this, cycle_freshTrb]
  have leads : flipsAt r' (link r.enqueue.seg) = false := by
    by_contra flips
    have inLap : link r.enqueue.seg ∈ busy ++ (front ++ link r.enqueue.seg :: (laid segs ++ back)) := by simp
    have := (flipsAt_iff shape' inLap).mp (by simpa using flips)
    rw [link_inj, expanded.lastSeg] at this
    split_ifs at this with inFront
    · exact enqFresh (this ▸ lastIn)
    · exact inFront this
  have moved : flipsAt r' (link last) = flipsAt r (link r.enqueue.seg) := by
    rw [Bool.eq_iff_iff, flipsAt_iff shape enqIn, flipsAt_iff shape' (newIn _ (by simp [laid_eq])), link_inj, link_inj,
      expanded.lastSeg]
    split_ifs with inFront
    · simp [inFront]
    · exact ⟨fun same => absurd (same ▸ lastIn) lastFresh, fun same => absurd same inFront⟩
  obtain ⟨freeFront, linkFree, freeBack⟩ := (inPhase_append _ front (link r.enqueue.seg :: back)).mp phased.free
  have stillFront : ∀ p ∈ front, flipsAt r p = false := fun p member =>
    flipsAt_inner shape (by simp [member]) (inFront p member)
  rw [phase_still _ stillFront] at linkFree freeBack
  refine ⟨inPhase_edit phased.owned sameBusy, ?_, ?_⟩
  · rw [phase_edit c sameBusy, phased.cycleState, expanded.cycleState]
  · rw [expanded.cycleState, inPhase_append, inPhase_cons, phase_edit _ sameFront, phase_still _ stillFront, leads,
      Bool.xor_false, inPhase_append]
    refine ⟨inPhase_edit freeFront sameFront, ?_, ?_, ?_⟩
    · rw [cycleAt, expanded.enqLink.2.2.1]
      exact linkFree
    · rw [laid_eq, inPhase_append, phase_still _ still]
      rw [laid_eq] at marks
      exact ⟨inPhase_still (fun p member => marks p (List.mem_append_left _ member)) still,
        marks (link last) (by simp), trivial⟩
    · rw [laid_eq, phase_append, phase_still _ still, phase_cons, phase_nil, moved]
      exact inPhase_edit freeBack sameBack

/-! ### Queueing a TD -/

theorem setTrb_comm (r : Ring) {p p' : TrbPtr} (t t' : Trb) (different : p ≠ p') :
    (r.setTrb p t).setTrb p' t' = (r.setTrb p' t').setTrb p t := by
  simp only [Ring.setTrb, Segments.set]
  congr 2
  funext s i
  split_ifs with here there there
  · exact absurd (by cases p; cases p'; simp_all) different
  · rfl
  · rfl
  · rfl

theorem setTrb_setTrb (r : Ring) (p : TrbPtr) (t t' : Trb) : (r.setTrb p t).setTrb p t' = r.setTrb p t' := by
  simp only [Ring.setTrb, Segments.set]
  congr 2
  funext s i
  split_ifs <;> rfl

theorem modifyTrb_stored_here (r : Ring) (t : Trb) (f : Trb → Trb) :
    (stored r t).modifyTrb r.enqueue f = stored r (f t) := by
  have here : (stored r t).trb r.enqueue = t := trb_setTrb_same r r.enqueue t
  rw [modifyTrb, here]
  show ({ (r.setTrb r.enqueue t).setTrb r.enqueue (f t) with
    numTrbsFree := r.numTrbsFree - 1, enqueue := ⟨r.enqueue.seg, r.enqueue.idx + 1⟩ } : Ring) = _
  rw [setTrb_setTrb]
  rfl

theorem modifyTrb_stored (r : Ring) (t : Trb) {p : TrbPtr} (f : Trb → Trb) (different : p ≠ r.enqueue) :
    (stored r t).modifyTrb p f = stored (r.modifyTrb p f) t := by
  have there : (stored r t).trb p = r.trb p := (trb_setTrb r r.enqueue p t).trans (if_neg different)
  rw [modifyTrb, there]
  show ({ (r.setTrb r.enqueue t).setTrb p (f (r.trb p)) with
    numTrbsFree := r.numTrbsFree - 1, enqueue := ⟨r.enqueue.seg, r.enqueue.idx + 1⟩ } : Ring) = _
  rw [setTrb_comm r t _ different.symm]
  rfl

theorem modifyTrb_linkGiven (r : Ring) (t : Trb) {p : TrbPtr} (f : Trb → Trb) (different : p ≠ r.enqueue) :
    (linkGiven r t).modifyTrb p f = linkGiven (r.modifyTrb p f) t := by
  have there : (linkGiven r t).trb p = r.trb p := (trb_setTrb r r.enqueue p t).trans (if_neg different)
  rw [modifyTrb, there]
  show ({ (r.setTrb r.enqueue t).setTrb p (f (r.trb p)) with
    cycleState := (r.cycleState ^^ t.toggle), enqueue := ⟨r.next r.enqueue.seg, 0⟩ } : Ring) = _
  rw [setTrb_comm r t _ different.symm]
  rfl

/-- The cycle bit of an earlier TRB may as well be set before another one is queued. -/
theorem queueTrb_release (q : Quirks) {r : Ring} {lap : List TrbPtr} (shape : Shape r lap) (member : r.enqueue ∈ lap)
    (inner : r.enqueue.idx ≠ 63) {t : Trb} (plain : t.isLink = false) (more : Bool) {p : TrbPtr} (inLap : p ∈ lap)
    (innerP : p.idx ≠ 63) (different : p ≠ r.enqueue) (c : Bool) :
    (r.queueTrb q more t).modifyTrb p (·.setCycle c) = (r.modifyTrb p (·.setCycle c)).queueTrb q more t := by
  have plainP : ((r.trb p).setCycle c).isLink = false := by
    rw [Trb.isLink_setCycle]
    simpa using mt (shape.links p inLap).mp innerP
  have shape' : Shape (r.modifyTrb p (·.setCycle c)) lap := shape.setTrb innerP plainP
  have notLink : ∀ s, link s ≠ p := by
    rintro s rfl
    exact innerP rfl
  have sameLink : (r.modifyTrb p (·.setCycle c)).trb (link r.enqueue.seg) = r.trb (link r.enqueue.seg) := by
    rw [trb_modifyTrb, if_neg (notLink _)]
  rw [queueTrb_eq q shape member inner plain more, queueTrb_eq q shape' member inner plain more]
  have enqueue : (r.modifyTrb p (·.setCycle c)).enqueue = r.enqueue := rfl
  have type : (r.modifyTrb p (·.setCycle c)).type = r.type := rfl
  rw [enqueue, type, sameLink]
  split_ifs with passes
  · have onLink : (stored r t).enqueue = link r.enqueue.seg := by simp [stored, link, passes.1, trbsPerSegment]
    rw [modifyTrb_linkGiven _ _ _ (by rw [onLink]; exact (notLink _).symm), modifyTrb_stored r t _ different]
  · exact modifyTrb_stored r t _ different

theorem contents_kept {r : Ring} {busy rest : List TrbPtr} {x : TrbPtr} (distinct : (busy ++ x :: rest).Nodup) (t : Trb) :
    contents (r.setTrb x t) busy = contents r busy := by
  refine contents_edit fun p member => ?_
  rw [trb_setTrb, if_neg]
  rintro rfl
  exact (List.nodup_append.mp distinct).2.2 _ member _ (by simp) rfl

/-- `r'` differs from `r` at most in the TRBs of a stretch, in the cache, and in how far
    the producer has come. -/
structure Kept (r r' : Ring) (l : List TrbPtr) : Prop where
  trb : ∀ p ∉ l, r'.trb p = r.trb p
  next : r'.next = r.next
  lastSeg : r'.lastSeg = r.lastSeg
  dequeue : r'.dequeue = r.dequeue
  cacheEnqueue : r'.cacheEnqueue = r.cacheEnqueue
  numSegs : r'.numSegs = r.numSegs
  type : r'.type = r.type

theorem Kept.trans {r r' r'' : Ring} {l m : List TrbPtr} (first : Kept r r' l) (second : Kept r' r'' m) :
    Kept r r'' (l ++ m) := by
  refine ⟨?_, second.next.trans first.next, second.lastSeg.trans first.lastSeg, second.dequeue.trans first.dequeue,
    second.cacheEnqueue.trans first.cacheEnqueue, second.numSegs.trans first.numSegs, second.type.trans first.type⟩
  intro p outside
  rw [List.mem_append, not_or] at outside
  rw [second.trb p outside.2, first.trb p outside.1]

theorem Kept.mono {r r' : Ring} {l m : List TrbPtr} (kept : Kept r r' l) (more : ∀ p ∈ l, p ∈ m) : Kept r r' m :=
  ⟨fun p outside => kept.trb p fun inside => outside (more p inside), kept.next, kept.lastSeg, kept.dequeue,
    kept.cacheEnqueue, kept.numSegs, kept.type⟩

theorem kept_stored (r : Ring) (t : Trb) : Kept r (stored r t) [r.enqueue] := by
  refine ⟨?_, rfl, rfl, rfl, rfl, rfl, rfl⟩
  intro p outside
  exact (trb_setTrb r r.enqueue p t).trans (if_neg (by simpa using outside))

theorem kept_linkGiven (r : Ring) (t : Trb) : Kept r (linkGiven r t) [r.enqueue] := by
  refine ⟨?_, rfl, rfl, rfl, rfl, rfl, rfl⟩
  intro p outside
  exact (trb_setTrb r r.enqueue p t).trans (if_neg (by simpa using outside))

/-- The TRB `t` is written at `x`, with links behind it. -/
theorem contents_join {r r' : Ring} {l links : List TrbPtr} {x : TrbPtr} {t : Trb} (kept : Kept r r' (x :: links))
    (apart : ∀ p ∈ l, p ∉ x :: links) (here : r'.trb x = t) (plain : t.isLink = false)
    (areLinks : ∀ p ∈ links, (r'.trb p).isLink = true) :
    contents r' (l ++ x :: links) = contents r l ++ [t.setCycle false] := by
  have before : contents r' l = contents r l := contents_edit fun p member => kept.trb p (apart p member)
  have nothing : contents r' links = [] := by simpa [contents] using areLinks
  rw [← List.singleton_append, contents_append, contents_append, before, contents_plain (here ▸ plain), nothing, here,
    List.append_nil]

/-- A TRB with the producer's cycle bit joins the queue. -/
theorem queueTrb_fifo (q : Quirks) {r : Ring} {busy rest : List TrbPtr} {c : Bool} {t : Trb}
    (queue : Queue r busy (r.enqueue :: rest)) (phased : Phased r busy (r.enqueue :: rest) c)
    (inner : r.enqueue.idx ≠ 63) (plain : t.isLink = false) (cycle : t.cycle = r.cycleState) (more : Bool)
    (room : 1 ≤ nonlinks rest) :
    ∃ links rest', rest = links ++ rest' ∧ (∀ p ∈ links, p.idx = 63) ∧
      Queue (r.queueTrb q more t) (busy ++ r.enqueue :: links) rest' ∧
      Phased (r.queueTrb q more t) (busy ++ r.enqueue :: links) rest' c ∧
      contents (r.queueTrb q more t) (busy ++ r.enqueue :: links) = contents r busy ++ [t.setCycle false] ∧
      Kept r (r.queueTrb q more t) (r.enqueue :: links) ∧
      (more = true → (r.queueTrb q more t).enqueue.idx ≠ 63) := by
  have put := phased.stored queue inner plain cycle
  have distinct := queue.shape.isLap.1
  have here : (stored r t).trb r.enqueue = t := trb_setTrb_same r r.enqueue t
  have apart : ∀ links, (∀ p ∈ links, p ∈ rest) → ∀ p ∈ busy, p ∉ r.enqueue :: links := by
    intro links inRest p inBusy inLinks
    refine (List.nodup_append.mp distinct).2.2 p inBusy p ?_ rfl
    exact (List.mem_cons.mp inLinks).elim (fun same => by simp [same]) fun later => by simp [inRest p later]
  rcases queue.queueTrb_cases q inner more plain room with ⟨eq, queue', goesOn⟩ | ⟨rest', rfl, onLink, eq, queue1, queue'⟩
  · have joins := contents_join (kept_stored r t) (apart [] (by simp)) here plain (by simp)
    rw [eq]
    exact ⟨[], rest, rfl, by simp, queue', put, joins, kept_stored r t, goesOn⟩
  · have kept : Kept r (r.queueTrb q more t) [r.enqueue, (stored r t).enqueue] := by
      rw [eq]
      exact (kept_stored r t).trans (kept_linkGiven _ _)
    refine ⟨[(stored r t).enqueue], rest', rfl, by simpa using onLink, ?_, ?_, ?_, kept, ?_⟩
    · simpa using queue'
    · have given := put.linkGiven queue1 onLink (sameLink_carried q r.type t.chain _) (by
        simp only [carried]
        split_ifs <;> simp)
      rw [eq]
      simpa using given
    · have isLink : ((r.queueTrb q more t).trb (stored r t).enqueue).isLink = true :=
        (queue'.shape.links _ (by simp)).mpr onLink
      have other : r.enqueue ≠ (stored r t).enqueue := by
        intro same
        rw [← same] at onLink
        exact inner onLink
      have here' : (r.queueTrb q more t).trb r.enqueue = t := by
        rw [eq, (kept_linkGiven _ _).trb _ (by simpa using other)]
        exact here
      exact contents_join kept (apart _ (by simp)) here' plain (by simpa using isLink)
    · intro _
      rw [eq]
      simp [RingShape.linkGiven]

theorem Queue.queueTrb {r : Ring} {busy idle : List TrbPtr} (q : Quirks) (queue : Queue r busy idle)
    (inner : r.enqueue.idx ≠ 63) (more : Bool) {t : Trb} (plain : t.isLink = false) (room : 2 ≤ nonlinks idle) :
    ∃ links idle', Queue (r.queueTrb q more t) (busy ++ r.enqueue :: links) idle' ∧
      nonlinks idle = nonlinks idle' + 1 ∧ (more = true → (r.queueTrb q more t).enqueue.idx ≠ 63) := by
  obtain ⟨rest, rfl⟩ := queue.idle_eq
  rw [nonlinks_cons, if_pos inner] at room
  rcases queue.queueTrb_cases q inner more plain (by omega) with ⟨eq, queue', goesOn⟩ | ⟨rest', rfl, onLink, eq, _, queue'⟩
  · refine ⟨[], rest, ?_, ?_, ?_⟩
    · rwa [eq]
    · rw [nonlinks_cons, if_pos inner]
    · rwa [eq]
  · refine ⟨[(stored r t).enqueue], rest', ?_, ?_, ?_⟩
    · simpa using queue'
    · rw [nonlinks_cons, if_pos inner, nonlinks_cons, if_neg (by simp [onLink])]
    · intro _
      rw [eq]
      simp [RingShape.linkGiven]

/-- The cycle bit of an earlier TRB may as well be set before the rest of the TD is
    queued. -/
theorem queueRest_release (q : Quirks) (c : Bool) {p : TrbPtr} (innerP : p.idx ≠ 63) :
    ∀ {ts : List Trb} {r : Ring} {busy idle : List TrbPtr}, Queue r busy idle → p ∈ busy →
      (ts ≠ [] → r.enqueue.idx ≠ 63) → (∀ t ∈ ts, t.isLink = false) → ts.length + 1 ≤ nonlinks idle →
      (queueRest q ts r).modifyTrb p (·.setCycle c) = queueRest q ts (r.modifyTrb p (·.setCycle c)) := by
  intro ts
  induction ts with
  | nil =>
    intro r busy idle _ _ _ _ _
    rfl
  | cons t ts ih =>
    intro r busy idle queue member inner plain room
    have inner' : r.enqueue.idx ≠ 63 := inner (by simp)
    have plain' : (t.setCycle r.cycleState).isLink = false := by simpa using plain t (by simp)
    have different : p ≠ r.enqueue := by
      obtain ⟨rest, rfl⟩ := queue.idle_eq
      rintro rfl
      exact (List.nodup_append.mp queue.shape.isLap.1).2.2 _ member _ (by simp) rfl
    rw [List.length_cons] at room
    obtain ⟨links, idle', queue', counted, goesOn⟩ := Queue.queueTrb q queue inner' (!ts.isEmpty) plain' (by omega)
    rw [queueRest, queueRest, ih queue' (List.mem_append_left _ member) ?_ ?_ (by omega)]
    · rw [queueTrb_release q queue.shape queue.enqueue_mem inner' plain' _ (List.mem_append_left _ member) innerP
        different]
      rfl
    · intro some_left
      exact goesOn (by simpa using some_left)
    · exact fun t member => plain t (List.mem_cons_of_mem _ member)

/-- The first TRB with the wrong cycle bit, put right. -/
theorem queueTrb_first (q : Quirks) {r : Ring} {lap : List TrbPtr} (shape : Shape r lap) (member : r.enqueue ∈ lap)
    (inner : r.enqueue.idx ≠ 63) {t : Trb} (plain : t.isLink = false) (more c c' : Bool) :
    (r.queueTrb q more (t.setCycle c)).modifyTrb r.enqueue (·.setCycle c') = r.queueTrb q more (t.setCycle c') := by
  have plain' : ∀ c, (t.setCycle c).isLink = false := fun c => by simpa using plain
  rw [queueTrb_eq q shape member inner (plain' c), queueTrb_eq q shape member inner (plain' c')]
  simp only [Trb.chain_setCycle]
  split_ifs with passes
  · have different : r.enqueue ≠ (stored r (t.setCycle c)).enqueue := by
      intro same
      have := congrArg TrbPtr.idx same
      simp [stored] at this
    rw [modifyTrb_linkGiven _ _ _ different, modifyTrb_stored_here, Trb.setCycle_setCycle]
  · rw [modifyTrb_stored_here, Trb.setCycle_setCycle]

/-- A TD that has been released is as if its TRBs had been queued one by one. -/
theorem queueTd_eq (q : Quirks) {r : Ring} {busy idle : List TrbPtr} (queue : Queue r busy idle)
    (inner : r.enqueue.idx ≠ 63) {first : Trb} {rest : List Trb} (plain : ∀ t ∈ first :: rest, t.isLink = false)
    (room : rest.length + 2 ≤ nonlinks idle) (write : Nat → CacheWrite) :
    queueTd q r first rest write =
      if ehubCacheRing (queueRest q (first :: rest) r).type then (queueRest q (first :: rest) r).cacheCopyFromRing write
      else queueRest q (first :: rest) r := by
  have plain' : (first.setCycle (!r.cycleState)).isLink = false := by simpa using plain first (by simp)
  obtain ⟨links, idle', queue', counted, goesOn⟩ := Queue.queueTrb q queue inner (!rest.isEmpty) plain' (by omega)
  have released : (queueRest q rest (r.queueTrb q (!rest.isEmpty) (first.setCycle (!r.cycleState)))).modifyTrb r.enqueue
      (·.setCycle r.cycleState) = queueRest q (first :: rest) r := by
    rw [queueRest_release q r.cycleState inner queue' (by simp) ?_ ?_ (by omega)]
    · rw [queueTrb_first q queue.shape queue.enqueue_mem inner (plain first (by simp))]
      rfl
    · intro some_left
      exact goesOn (by simpa using some_left)
    · exact fun t member => plain t (List.mem_cons_of_mem _ member)
  rw [queueTd]
  simp only [givebackFirstTrb]
  rw [released]

/-- The TRBs of a TD join the queue one by one. -/
theorem queueRest_fifo (q : Quirks) {c : Bool} : ∀ {ts : List Trb} {r : Ring} {busy idle : List TrbPtr},
    Queue r busy idle → Phased r busy idle c → (ts ≠ [] → r.enqueue.idx ≠ 63) → (∀ t ∈ ts, t.isLink = false) →
    ts.length + 1 ≤ nonlinks idle →
    ∃ td idle', idle = td ++ idle' ∧ Queue (queueRest q ts r) (busy ++ td) idle' ∧
      Phased (queueRest q ts r) (busy ++ td) idle' c ∧
      contents (queueRest q ts r) (busy ++ td) = contents r busy ++ ts.map (·.setCycle false) ∧
      nonlinks td = ts.length ∧ Kept r (queueRest q ts r) td := by
  intro ts
  induction ts with
  | nil =>
    intro r busy idle queue phased _ _ _
    exact ⟨[], idle, rfl, by simpa [queueRest] using queue, by simpa [queueRest] using phased, by simp [queueRest], rfl,
      fun _ _ => rfl, rfl, rfl, rfl, rfl, rfl, rfl⟩
  | cons t ts ih =>
    intro r busy idle queue phased inner plain room
    have inner' : r.enqueue.idx ≠ 63 := inner (by simp)
    have plain' : (t.setCycle r.cycleState).isLink = false := by simpa using plain t (by simp)
    obtain ⟨rest, rfl⟩ := queue.idle_eq
    rw [List.length_cons, nonlinks_cons, if_pos inner'] at room
    obtain ⟨links, rest', rfl, areLinks, queue1, phased1, joins, kept1, goesOn⟩ :=
      queueTrb_fifo q queue phased inner' plain' (by simp) (!ts.isEmpty) (by omega)
    have noLinks := nonlinks_links areLinks
    rw [nonlinks_append] at room
    obtain ⟨td, idle', rfl, queue2, phased2, joins2, counted, kept2⟩ := ih queue1 phased1
      (fun some_left => goesOn (by simpa using some_left)) (fun t member => plain t (List.mem_cons_of_mem _ member))
      (by omega)
    refine ⟨r.enqueue :: links ++ td, idle', ?_, ?_, ?_, ?_, ?_, kept1.trans kept2⟩
    · simp
    · simpa [queueRest] using queue2
    · simpa [queueRest] using phased2
    · rw [queueRest, ← List.append_assoc, joins2, joins, Trb.setCycle_setCycle]
      simp
    · rw [List.cons_append, nonlinks_cons, if_pos inner', nonlinks_append, noLinks, counted, List.length_cons]
      omega

theorem cache_queueTrb (q : Quirks) (r : Ring) (more : Bool) (t : Trb) : (r.queueTrb q more t).cache = r.cache := by
  have loop : ∀ (chain : Bool) (fuel : Nat) (r : Ring), (incEnqLoop q chain more fuel r).cache = r.cache := by
    intro chain fuel
    induction fuel with
    | zero => exact fun _ => rfl
    | succ fuel ih =>
      intro r
      have given : ∀ r : Ring, r.giveLink.enqueueNextSeg.cache = r.cache := by
        intro r
        rw [giveLink]
        split_ifs <;> rfl
      rw [incEnqLoop]
      split_ifs
      · exact ih _
      · rfl
      · exact (ih _).trans (given _)
      · exact (ih _).trans (given _)
      · rfl
  rw [Ring.queueTrb, incEnq]
  refine (loop _ _ _).trans ?_
  split_ifs <;> rfl

/-- Queueing writes nothing to the cache. -/
theorem cache_queueRest (q : Quirks) : ∀ (ts : List Trb) (r : Ring), (queueRest q ts r).cache = r.cache := by
  intro ts
  induction ts with
  | nil => exact fun _ => rfl
  | cons t ts ih =>
    intro r
    rw [queueRest, ih, cache_queueTrb]

/-- The copy to the cache changes nothing else. -/
theorem cacheCopyFromRing_eq (r : Ring) (write : Nat → CacheWrite) :
    ∃ cache cacheEnqueue, r.cacheCopyFromRing write = { r with cache := cache, cacheEnqueue := cacheEnqueue } := by
  have loop : ∀ (last : TrbPtr) (fuel i : Nat) (start : TrbPtr) (r : Ring), ∃ cache,
      cacheCopyLoop last write fuel i start r = { r with cache := cache } := by
    intro last fuel
    induction fuel with
    | zero => exact fun _ _ r => ⟨r.cache, rfl⟩
    | succ fuel ih =>
      intro i start r
      rw [cacheCopyLoop]
      split_ifs
      · obtain ⟨cache, eq⟩ := ih (i + 1) ⟨r.next start.seg, 0⟩ (r.copyTrbs start.seg start.idx (trbsPerSegment - 1))
        exact ⟨cache, by rw [eq]; rfl⟩
      · exact ⟨r.cache, rfl⟩
      · exact ⟨_, rfl⟩
      · exact ⟨r.cache, rfl⟩
  rw [cacheCopyFromRing]
  cases r.findPrevTrb r.enqueue with
  | none => exact ⟨r.cache, r.cacheEnqueue, rfl⟩
  | some last =>
    obtain ⟨cache, eq⟩ := loop last (r.numSegs + 1) 0 r.cacheEnqueue r
    exact ⟨cache, r.enqueue, by simp only [eq]⟩

/-! ### Runs -/

/-- A ring between two TDs: the TRBs that `prepare_ring` made room for and that have not
    been queued yet, those that have been queued and not been consumed, and the cycle
    state of the consumer at `dequeue`. -/
structure State where
  ring : Ring
  reserved : Nat
  pending : List Trb
  ccs : Bool

inductive Op where
  | prepareRing (epState numTrbs : Nat) (answers : List Answers) (status : Int)
  | queueTd (first : Trb) (rest : List Trb) (write : Nat → CacheWrite)
  | incDeq
  | ringExpansion (numTrbs : Nat) (answers : Answers)

def State.step (q : Quirks) (s : State) : Op → State
  | .prepareRing epState numTrbs answers status =>
    match s.ring.prepareRing q epState numTrbs answers status with
    | (error, ring) => { s with ring, reserved := if error = 0 then numTrbs else 0 }
  | .queueTd first rest write =>
    { s with
      ring := s.ring.queueTd q first rest write
      reserved := s.reserved - (rest.length + 1)
      pending := s.pending ++ (first :: rest).map (·.setCycle false) }
  | .incDeq =>
    { s with
      ring := s.ring.incDeq
      pending := if s.ring.lastTrb s.ring.dequeue then s.pending else s.pending.tail
      ccs := phase (flipsAt s.ring) s.ccs (span s.ring s.ring.incDeq.dequeue) }
  | .ringExpansion numTrbs answers =>
    match s.ring.ringExpansion q numTrbs answers with
    | none => s
    | some ring => { s with ring }

/-- What the callers promise. -/
def Op.Allowed (s : State) : Op → Prop
  | .prepareRing _ _ answers _ => Fresh s.ring (answers.flatMap Answers.segs)
  | .queueTd first rest _ =>
    rest.length + 1 ≤ s.reserved ∧ (s.ring.trb s.ring.enqueue).isLink = false ∧ ∀ t ∈ first :: rest, t.isLink = false
  | .incDeq => s.pending ≠ []
  | .ringExpansion _ answers => s.ring.type ≠ .command ∧ Fresh s.ring answers.segs

/-- The ring is not expanded while `dequeue` is past the link on which `enqueue` rests,
    no link is handed over whose cache write fails, and no write of a link TRB raises
    the error that leaves an expansion half done. -/
def Careful (s : State) : Op → Prop
  | .prepareRing _ numTrbs answers status =>
    (Overtaken s.ring → s.ring.numTrbsNeeded numTrbs < 1) ∧ (∀ a ∈ answers, ∀ i, a.write i ≠ .error) ∧
    (ehubCacheRing s.ring.type = true → (s.ring.trb s.ring.enqueue).isLink = true → 0 ≤ status)
  | .ringExpansion _ answers => ¬Overtaken s.ring ∧ ∀ i, answers.write i ≠ .error
  | _ => True

/-- A ring as `xhci_ring_alloc` makes it, with nothing queued. -/
def New (q : Quirks) (s : State) : Prop :=
  ∃ numSegs type answers, type ≠ .event ∧ answers.segs.Nodup ∧
    ringAlloc q numSegs s.ccs type answers = some s.ring ∧ s.reserved = 0 ∧ s.pending = []

/-- `s` is reached from a new ring by allowed calls that all meet a condition. -/
def Reachable (q : Quirks) (condition : State → Op → Prop) (s : State) : Prop :=
  Run.Reachable (New q) (fun s op => Op.Allowed s op ∧ condition s op) (State.step q) s

/-- A consumer takes the pending TRBs, each once and in order, and stops at `enqueue`. -/
def Fifo (s : State) : Prop :=
  ∀ fuel, 64 * s.ring.numSegs ≤ fuel → ∃ taken, consumer s.ring fuel s.ccs = some (taken, s.ring.enqueue) ∧
    taken.Nodup ∧ contents s.ring taken = s.pending

/-- The ring holds the pending TRBs for a consumer with cycle state `ccs`. -/
structure View (r : Ring) (pending : List Trb) (ccs : Bool) (busy idle : List TrbPtr) (c : Bool) : Prop where
  queue : Queue r busy idle
  phased : Phased r busy idle c
  pending : contents r busy = pending
  ccs : ccs = (c ^^ (decide (Overtaken r) && flipsAt r r.enqueue))

theorem View.ccs_ahead {r : Ring} {pending : List Trb} {ccs c : Bool} {busy idle : List TrbPtr}
    (view : View r pending ccs busy idle c) (ahead : ¬Overtaken r) : ccs = c := by
  rw [view.ccs, decide_eq_false ahead, Bool.false_and, Bool.xor_false]

theorem View.ccs_behind {r : Ring} {pending : List Trb} {ccs c : Bool} {busy idle : List TrbPtr}
    (view : View r pending ccs busy idle c) (overtaken : Overtaken r) : ccs = (c ^^ flipsAt r r.enqueue) := by
  rw [view.ccs, decide_eq_true overtaken, Bool.true_and]

/-- In every new order of the pointers that is right the consumer is where it was. -/
theorem View.of_ahead {r : Ring} {pending : List Trb} {c : Bool} {busy idle : List TrbPtr} (queue : Queue r busy idle)
    (phased : Phased r busy idle c) (contains : contents r busy = pending) (ahead : ¬Overtaken r) :
    View r pending c busy idle c :=
  ⟨queue, phased, contains, by rw [decide_eq_false ahead, Bool.false_and, Bool.xor_false]⟩

theorem View.expand {r r' : Ring} {pending : List Trb} {ccs c : Bool} {busy idle idle' back : List TrbPtr}
    {segs : List Addr} {last : Addr} (view : View r pending ccs busy idle c) (ahead : ¬Overtaken r)
    (expanded : Expanded r r' segs last)
    (is_idle : idle = run r.enqueue.seg r.enqueue.idx (63 - r.enqueue.idx) ++ link r.enqueue.seg :: back)
    (is_idle' : idle' = run r.enqueue.seg r.enqueue.idx (63 - r.enqueue.idx) ++ link r.enqueue.seg :: (laid segs ++ back))
    (fresh : ∀ p ∈ busy ++ idle, p.seg ∉ segs) (queue : Queue r' busy idle') (room : 1 ≤ nonlinks idle') :
    View r' pending ccs busy idle' c := by
  have inOrder : (busy ++ idle').head? = some r'.dequeue := by
    have before := inOrder_of view.queue ahead
    rw [expanded.dequeue]
    cases busy with
    | nil => rw [List.nil_append, queue.enqueue, expanded.enqueue, ← view.queue.enqueue, ← before, List.nil_append]
    | cons x busy => exact before
  rw [view.ccs_ahead ahead]
  refine .of_ahead queue ?_ ?_ (not_overtaken queue inOrder room)
  · have shape := view.queue.shape
    have phased := view.phased
    have shape' := queue.shape
    rw [is_idle] at shape phased fresh
    rw [is_idle'] at shape' ⊢
    refine phased.expand shape shape' expanded ?_ fresh
    intro p member
    have := mem_run member
    omega
  · rw [← view.pending]
    refine contents_edit fun p member => expanded.trbOther p (fresh p (List.mem_append_left _ member)) ?_
    rintro rfl
    have distinct := view.queue.shape.isLap.1
    rw [is_idle] at distinct
    exact (List.nodup_append.mp distinct).2.2 _ member _ (by simp) rfl

theorem trb_handedOver (q : Quirks) (r : Ring) (p : TrbPtr) :
    (handedOver q r).trb p = (RingShape.linkGiven r (handed q r.type (r.trb r.enqueue))).trb p := by
  rw [handedOver]
  split_ifs <;> rfl

theorem cycleState_handedOver (q : Quirks) (r : Ring) :
    (handedOver q r).cycleState = (RingShape.linkGiven r (handed q r.type (r.trb r.enqueue))).cycleState := by
  rw [handedOver]
  split_ifs <;> rfl

theorem Phased.congr {r r' : Ring} {busy idle : List TrbPtr} {c : Bool} (phased : Phased r busy idle c)
    (trbs : ∀ p, r'.trb p = r.trb p) (cycleState : r'.cycleState = r.cycleState) : Phased r' busy idle c := by
  refine ⟨inPhase_edit phased.owned fun p _ => trbs p, ?_, ?_⟩
  · rw [phase_edit c fun p _ => trbs p, phased.cycleState, cycleState]
  · rw [cycleState]
    exact inPhase_edit phased.free fun p _ => trbs p

/-- The free TRB at `enqueue` joins the busy ones, or goes to the end of the free ones when
    `dequeue` is already behind it. -/
def Passed (r : Ring) (busy idle busy' idle' : List TrbPtr) : Prop :=
  ∃ rest, idle = r.enqueue :: rest ∧
    ((busy' = busy ++ [r.enqueue] ∧ idle' = rest) ∨ (busy = [] ∧ busy' = [] ∧ idle' = rest ++ [r.enqueue]))

/-- The link that `prepare_ring` hands over is passed by the producer. -/
theorem View.handedOver {r : Ring} {pending : List Trb} {ccs c : Bool} {busy idle : List TrbPtr} (q : Quirks)
    (view : View r pending ccs busy idle c) (onLink : r.enqueue.idx = 63) (room : 1 ≤ nonlinks idle) :
    ∃ busy' idle' c', View (handedOver q r) pending ccs busy' idle' c' ∧ nonlinks idle' = nonlinks idle ∧
      Passed r busy idle busy' idle' := by
  obtain ⟨rest, rfl⟩ := view.queue.idle_eq
  have notCounted : nonlinks (r.enqueue :: rest) = nonlinks rest := by
    rw [nonlinks_cons, if_neg (by simp [onLink]), Nat.add_zero]
  have some_left : rest ≠ [] := by
    rintro rfl
    simp [notCounted] at room
  have same := sameLink_handed q r.type (r.trb r.enqueue)
  have flipped : (handed q r.type (r.trb r.enqueue)).cycle = !(r.trb r.enqueue).cycle := by simp [handed]
  have enqueue : (RingShape.handedOver q r).enqueue = ⟨r.next r.enqueue.seg, 0⟩ := by
    rw [RingShape.handedOver]
    split_ifs <;> rfl
  obtain ⟨goesOn, catchesUp⟩ := view.queue.handedOver q onLink some_left
  have ahead : ∀ {busy idle : List TrbPtr}, Queue (RingShape.handedOver q r) busy idle →
      ¬Overtaken (RingShape.handedOver q r) := by
    intro busy idle queue overtaken
    have := (queue.shape.links _ queue.enqueue_mem).mp overtaken.1
    simp [enqueue] at this
  rcases view.queue.dequeue with inOrder | ⟨rfl, _, behind⟩
  · refine ⟨busy ++ [r.enqueue], rest, c, ?_, notCounted.symm, rest, rfl, .inl ⟨rfl, rfl⟩⟩
    rw [view.ccs_ahead (not_overtaken view.queue inOrder room)]
    have queue := goesOn inOrder
    refine .of_ahead queue ?_ ?_ (ahead queue)
    · exact (view.phased.linkGiven view.queue onLink same flipped).congr (trb_handedOver q r)
        (cycleState_handedOver q r)
    · have isLink : ((RingShape.handedOver q r).trb r.enqueue).isLink = true :=
        (queue.shape.links _ (by simp)).mpr onLink
      rw [contents_append, contents_link isLink, List.append_nil, ← view.pending,
        contents_edit fun p _ => trb_handedOver q r p]
      exact contents_kept view.queue.shape.isLap.1 _
  · have overtaken : Overtaken r := by
      refine ⟨(view.queue.shape.links _ view.queue.enqueue_mem).mpr onLink, ?_⟩
      rw [behind, follow, if_pos onLink]
    refine ⟨[], rest ++ [r.enqueue], c ^^ flipsAt r r.enqueue, ?_, ?_, rest, rfl, .inr ⟨rfl, rfl, rfl⟩⟩
    · rw [view.ccs_behind overtaken]
      have queue := catchesUp rfl behind
      refine .of_ahead queue ?_ (by rw [← view.pending]; rfl) (ahead queue)
      exact (view.phased.linkGiven_behind view.queue onLink same flipped).congr (trb_handedOver q r)
        (cycleState_handedOver q r)
    · simp [notCounted, nonlinks_cons, onLink]

theorem not_overtaken_inner {r : Ring} {busy idle : List TrbPtr} (queue : Queue r busy idle)
    (inner : r.enqueue.idx ≠ 63) : ¬Overtaken r := fun overtaken =>
  inner ((queue.shape.links _ queue.enqueue_mem).mp overtaken.1)

/-- What the device holds is not looked at. -/
theorem View.recached {r : Ring} {pending : List Trb} {ccs c : Bool} {busy idle : List TrbPtr}
    (view : View r pending ccs busy idle c) (cache : Addr → Nat → Trb) (cacheEnqueue : TrbPtr) :
    View { r with cache := cache, cacheEnqueue := cacheEnqueue } pending ccs busy idle c := by
  have queue := view.queue
  refine ⟨?_, view.phased.congr (fun _ => rfl) rfl, view.pending, view.ccs⟩
  exact queue.edit (queue.shape.edit rfl rfl rfl rfl (fun _ _ => rfl) fun _ _ _ => ⟨rfl, rfl⟩) rfl rfl rfl rfl rfl

theorem View.queueRest {r : Ring} {pending : List Trb} {ccs c : Bool} {busy idle : List TrbPtr} (q : Quirks)
    (view : View r pending ccs busy idle c) (inner : r.enqueue.idx ≠ 63) (ts : List Trb) (some_trbs : ts ≠ [])
    (plain : ∀ t ∈ ts, t.isLink = false) (room : ts.length + 1 ≤ nonlinks idle) :
    ∃ td idle', idle = td ++ idle' ∧
      View (queueRest q ts r) (pending ++ ts.map (·.setCycle false)) ccs (busy ++ td) idle' c ∧
      nonlinks td = ts.length ∧ Kept r (queueRest q ts r) td := by
  obtain ⟨td, idle', rfl, queue, phased, joins, counted, kept⟩ :=
    queueRest_fifo q (c := c) view.queue view.phased (fun _ => inner) plain room
  have inOrder : (busy ++ td ++ idle').head? = some (Ring.queueRest q ts r).dequeue := by
    rcases queue.dequeue with inOrder | ⟨nothing, _⟩
    · exact inOrder
    · rw [(List.append_eq_nil_iff.mp nothing).2] at counted
      exact absurd (List.length_eq_zero_iff.mp counted.symm) some_trbs
  rw [nonlinks_append] at room
  refine ⟨td, idle', rfl, ?_, counted, kept⟩
  rw [view.ccs_ahead (not_overtaken_inner view.queue inner)]
  refine .of_ahead queue phased ?_ (not_overtaken queue inOrder (by omega))
  rw [joins, view.pending]

theorem View.queueTd {r : Ring} {pending : List Trb} {ccs c : Bool} {busy idle : List TrbPtr} (q : Quirks)
    (view : View r pending ccs busy idle c) (inner : r.enqueue.idx ≠ 63) {first : Trb} {rest : List Trb}
    (plain : ∀ t ∈ first :: rest, t.isLink = false) (room : rest.length + 2 ≤ nonlinks idle) (write : Nat → CacheWrite) :
    ∃ td idle', idle = td ++ idle' ∧
      View (r.queueTd q first rest write) (pending ++ (first :: rest).map (·.setCycle false)) ccs (busy ++ td) idle' c ∧
      nonlinks td = rest.length + 1 ∧ (r.queueTd q first rest write).dequeue = r.dequeue ∧
      (r.queueTd q first rest write).type = r.type := by
  obtain ⟨td, idle', rfl, view', counted, kept⟩ := view.queueRest q inner (first :: rest) (by simp) plain room
  have eq : ∃ cache cacheEnqueue, r.queueTd q first rest write =
      { Ring.queueRest q (first :: rest) r with cache := cache, cacheEnqueue := cacheEnqueue } := by
    rw [queueTd_eq q view.queue inner plain room write]
    split_ifs
    · exact cacheCopyFromRing_eq _ write
    · exact ⟨_, _, rfl⟩
  obtain ⟨cache, cacheEnqueue, eq⟩ := eq
  refine ⟨td, idle', rfl, ?_, counted, by rw [eq]; exact kept.dequeue, by rw [eq]; exact kept.type⟩
  rw [eq]
  exact view'.recached cache cacheEnqueue

theorem contents_take {r : Ring} {x : TrbPtr} {links rest : List TrbPtr} (areLinks : ∀ p ∈ links, (r.trb p).isLink = true) :
    contents r rest = if (r.trb x).isLink then contents r (x :: (links ++ rest)) else (contents r (x :: (links ++ rest))).tail := by
  have nothing : contents r links = [] := by
    simpa [contents] using areLinks
  have split : contents r (x :: (links ++ rest)) = contents r [x] ++ contents r rest := by
    rw [← List.singleton_append, contents_append, contents_append, nothing, List.nil_append]
  rw [split]
  cases isLink : (r.trb x).isLink with
  | true => rw [if_pos rfl, contents_link isLink, List.nil_append]
  | false => simp [contents_plain isLink]

/-- The consumer's cycle state follows `dequeue`. -/
theorem View.incDeq {r : Ring} {pending : List Trb} {ccs c : Bool} {x : TrbPtr} {busy idle : List TrbPtr}
    (view : View r pending ccs (x :: busy) idle c) (room : 1 ≤ nonlinks idle) :
    ∃ links rest, busy = links ++ rest ∧ (∀ p ∈ links, p.idx = 63) ∧
      View r.incDeq (if r.lastTrb r.dequeue then pending else pending.tail)
        (phase (flipsAt r) ccs (span r r.incDeq.dequeue)) rest (idle ++ x :: links) (phase (flipsAt r) c (x :: links)) := by
  have queue := view.queue
  have is_x := queue.first_busy
  have member : r.dequeue ∈ x :: busy ++ idle := by simp [is_x]
  have eq := incDeq_eq queue.shape member
  have inOrder : (x :: busy ++ idle).head? = some r.dequeue := by simp [is_x]
  have ccs_eq : ccs = c := view.ccs_ahead (not_overtaken queue inOrder room)
  obtain ⟨links, rest, rfl, areLinks, queue'⟩ := queue.incDeq
  have shape : Shape r ((x :: links) ++ rest ++ idle) := by simpa using queue.shape
  have phased : Phased r.incDeq rest (idle ++ x :: links) (phase (flipsAt r) c (x :: links)) := by
    refine Phased.release shape ?_ (by rw [eq]) (by rw [eq])
    simpa using view.phased
  have asLinks : ∀ p ∈ links, (r.trb p).isLink = true := fun p inLinks =>
    (queue.shape.links p (by simp [inLinks])).mpr (areLinks p inLinks)
  have left : contents r.incDeq rest = if r.lastTrb r.dequeue then pending else pending.tail := by
    rw [lastTrb_isLink queue.shape.notEvent, ← view.pending, ← is_x, ← contents_take asLinks]
    exact contents_edit fun p _ => by rw [eq]
  refine ⟨links, rest, rfl, areLinks, queue', phased, left, ?_⟩
  rw [ccs_eq]
  have enqueue : r.incDeq.enqueue = r.enqueue := by rw [eq]
  have room' : 1 ≤ nonlinks (idle ++ x :: links) := by
    rw [nonlinks_append]
    omega
  obtain ⟨more, is_idle⟩ := queue.idle_eq
  rcases queue'.dequeue with inOrder' | ⟨rfl, onLink, behind⟩
  · rw [decide_eq_false (not_overtaken queue' inOrder' room'), Bool.false_and, Bool.xor_false]
    have first : (rest ++ idle).head? = some r.incDeq.dequeue := by
      rw [← inOrder', is_idle]
      cases rest <;> rfl
    obtain ⟨further, split⟩ := List.head?_eq_some_iff.mp first
    rw [List.append_assoc, split] at shape
    rw [span_eq shape (by simp [is_x])]
  · -- `dequeue` has run past the link on which `enqueue` rests.
    rw [enqueue] at onLink behind
    have next : r.incDeq.next = r.next := by rw [eq]
    rw [next] at behind
    have asLink : (r.trb r.enqueue).isLink = true := (queue.shape.links _ queue.enqueue_mem).mpr onLink
    have overtaken : Overtaken r.incDeq := by
      refine ⟨?_, ?_⟩
      · rw [enqueue, eq]
        exact asLink
      · rw [behind, follow, if_pos onLink, enqueue, next]
    rw [decide_eq_true overtaken, Bool.true_and, enqueue]
    have sameFlip : flipsAt r.incDeq r.enqueue = flipsAt r r.enqueue := by rw [flipsAt, flipsAt, eq]
    rw [is_idle, List.append_nil] at shape
    have leads := shape.isLap.next_eq
    have some_left : more ≠ [] := by
      rintro rfl
      simp [is_idle, nonlinks_cons, onLink] at room
    obtain ⟨p, more, rfl⟩ := List.exists_cons_of_ne_nil some_left
    have is_p : p = r.incDeq.dequeue := by
      rw [behind]
      simpa using leads
    subst is_p
    have shape' : Shape r ((x :: links ++ [r.enqueue]) ++ r.incDeq.dequeue :: more) := by simpa using shape
    rw [span_eq shape' (by simp [is_x]), phase_append, sameFlip, phase_cons (phase _ _ _), phase_nil]

/-- A TRB more is free than those reserved and the slack. -/
structure Inv (s : State) (busy idle : List TrbPtr) (c : Bool) : Prop where
  view : View s.ring s.pending s.ccs busy idle c
  room : s.reserved + slack s.ring + 1 ≤ nonlinks idle

theorem Inv.queueTd {s : State} {busy idle : List TrbPtr} {c : Bool} (inv : Inv s busy idle c) (q : Quirks)
    {first : Trb} {rest : List Trb} (write : Nat → CacheWrite) (reserved : rest.length + 1 ≤ s.reserved)
    (inner : (s.ring.trb s.ring.enqueue).isLink = false) (plain : ∀ t ∈ first :: rest, t.isLink = false) :
    ∃ td idle', idle = td ++ idle' ∧ Inv (s.step q (.queueTd first rest write)) (busy ++ td) idle' c := by
  have notLink : s.ring.enqueue.idx ≠ 63 := by
    intro onLink
    rw [(inv.view.queue.shape.links _ inv.view.queue.enqueue_mem).mpr onLink] at inner
    simp at inner
  have room := inv.room
  obtain ⟨td, idle', rfl, view, counted, dequeue, type⟩ := inv.view.queueTd q notLink plain (by omega) write
  refine ⟨td, idle', rfl, view, ?_⟩
  have sameSlack : slack (s.ring.queueTd q first rest write) = slack s.ring := by
    rw [slack, slack, dequeue, type]
  rw [nonlinks_append] at room
  show s.reserved - (rest.length + 1) + slack (s.ring.queueTd q first rest write) + 1 ≤ _
  omega

theorem Inv.incDeq {s : State} {busy idle : List TrbPtr} {c : Bool} (inv : Inv s busy idle c) (q : Quirks)
    (pending : s.pending ≠ []) :
    ∃ front rest c', busy = front ++ rest ∧ Inv (s.step q .incDeq) rest (idle ++ front) c' := by
  cases busy with
  | nil =>
    have nothing := inv.view.pending
    exact absurd nothing.symm pending
  | cons x busy =>
    have is_x := inv.view.queue.first_busy
    have room := inv.room
    have less := slack_incDeq inv.view.queue.shape (show s.ring.dequeue ∈ x :: busy ++ idle by simp [is_x])
    obtain ⟨links, rest, rfl, areLinks, view⟩ := inv.view.incDeq (by omega)
    refine ⟨x :: links, rest, _, rfl, view, ?_⟩
    show s.reserved + slack s.ring.incDeq + 1 ≤ _
    rw [nonlinks_append, nonlinks_cons, nonlinks_links areLinks, is_x]
    omega

/-- An expansion puts its segments between the free TRBs. -/
structure Grown (q : Quirks) (answers : Answers) (r r' : Ring) (busy idle idle' : List TrbPtr) : Prop where
  distinct : answers.segs.Nodup
  fresh : ∀ p ∈ busy ++ idle, p.seg ∉ answers.segs
  expands : ∃ numTrbs last back, r.ringExpansion q numTrbs answers = some r' ∧
    Expanded r r' (answers.segs.take (r.expansionSegs numTrbs)) last ∧
    idle = run r.enqueue.seg r.enqueue.idx (63 - r.enqueue.idx) ++ link r.enqueue.seg :: back ∧
    idle' = run r.enqueue.seg r.enqueue.idx (63 - r.enqueue.idx) ++
      link r.enqueue.seg :: (laid (answers.segs.take (r.expansionSegs numTrbs)) ++ back)

theorem View.grown {q : Quirks} {answers : Answers} {r r' : Ring} {pending : List Trb} {ccs c : Bool}
    {busy idle idle' : List TrbPtr} (view : View r pending ccs busy idle c) (ahead : ¬Overtaken r)
    (grown : Grown q answers r r' busy idle idle') (queue : Queue r' busy idle') (room : 1 ≤ nonlinks idle') :
    View r' pending ccs busy idle' c := by
  obtain ⟨numTrbs, last, back, _, expanded, is_idle, is_idle'⟩ := grown.expands
  refine view.expand ahead expanded is_idle is_idle' ?_ queue room
  exact fun p member inTake => grown.fresh p member (List.mem_of_mem_take inTake)

theorem Inv.ringExpansion {s : State} {busy idle : List TrbPtr} {c : Bool} (inv : Inv s busy idle c) (q : Quirks)
    (numTrbs : Nat) {answers : Answers} (transfer : s.ring.type ≠ .command) (fresh : Fresh s.ring answers.segs)
    (ahead : ¬Overtaken s.ring) (noError : ∀ i, answers.write i ≠ .error) :
    ∃ idle', Inv (s.step q (.ringExpansion numTrbs answers)) busy idle' c ∧
      ((s.step q (.ringExpansion numTrbs answers) = s ∧ idle' = idle) ∨
       Grown q answers s.ring (s.step q (.ringExpansion numTrbs answers)).ring busy idle idle') := by
  cases result : s.ring.ringExpansion q numTrbs answers with
  | none =>
    have same : s.step q (.ringExpansion numTrbs answers) = s := by simp only [State.step, result]
    exact ⟨idle, by rw [same]; exact inv, .inl ⟨same, rfl⟩⟩
  | some r' =>
    have room := inv.room
    have queue := inv.view.queue
    rw [slack, if_neg transfer] at room
    obtain ⟨last, back, idle', expanded, is_idle, is_idle', queue', _⟩ := expand_queue queue (inOrder_of queue ahead)
      (by omega) fresh.1 (fresh.outside queue) noError result
    have more : s.reserved + s.ring.dequeue.idx + 1 ≤ nonlinks idle' := by
      rw [is_idle] at room
      rw [is_idle']
      simp only [nonlinks_append, nonlinks_cons] at room ⊢
      omega
    have grown : Grown q answers s.ring r' busy idle idle' :=
      ⟨fresh.1, fresh.outside queue, numTrbs, last, back, result, expanded, is_idle, is_idle'⟩
    have step : s.step q (.ringExpansion numTrbs answers) = { s with ring := r' } := by simp only [State.step, result]
    rw [step]
    refine ⟨idle', ⟨inv.view.grown ahead grown queue' (by omega), ?_⟩, .inr grown⟩
    show s.reserved + slack r' + 1 ≤ _
    rw [slack, expanded.type, if_neg transfer, expanded.dequeue]
    exact more

/-- Besides the invariant, `prepare_ring` keeps whatever its expansions and the hand-over
    of a link keep. -/
theorem Inv.prepareRing {s : State} {busy idle : List TrbPtr} {c : Bool} (inv : Inv s busy idle c) (q : Quirks)
    (epState numTrbs : Nat) {answers : List Answers} {status : Int} (fresh : Fresh s.ring (answers.flatMap Answers.segs))
    (careful : Overtaken s.ring → s.ring.numTrbsNeeded numTrbs < 1)
    (noError : ∀ a ∈ answers, ∀ i, a.write i ≠ .error)
    (written : ehubCacheRing s.ring.type = true → (s.ring.trb s.ring.enqueue).isLink = true → 0 ≤ status)
    (P : Ring → List TrbPtr → List TrbPtr → Prop) (holds : P s.ring busy idle)
    (expands : ∀ a ∈ answers, ∀ (r r' : Ring) (idle idle' : List TrbPtr), Queue r busy idle → P r busy idle →
      Grown q a r r' busy idle idle' → P r' busy idle')
    (hands : ∀ (r : Ring) (idle busy' idle' : List TrbPtr), Queue r busy idle → P r busy idle → r.enqueue.idx = 63 →
      Passed r busy idle busy' idle' → P (handedOver q r) busy' idle') :
    ∃ busy' idle' c', Inv (s.step q (.prepareRing epState numTrbs answers status)) busy' idle' c' ∧
      P (s.step q (.prepareRing epState numTrbs answers status)).ring busy' idle' := by
  have room := inv.room
  rcases prepareRing_cases q s.ring epState numTrbs answers status with ⟨refused, result⟩ | ⟨error, r', made, ways⟩
  · refine ⟨busy, idle, c, ⟨?_, ?_⟩, ?_⟩
    · simpa only [State.step, result] using inv.view
    · simp only [State.step, result, if_neg refused]
      omega
    · simpa only [State.step, result] using holds
  · obtain ⟨_, ⟨idle', grown, view, kept⟩, _, type, enqueue⟩ := makeRoom_rule q
      (fun left r => (∃ idle, Growing numTrbs busy left r idle ∧ View r s.pending s.ccs busy idle c ∧ P r busy idle) ∧
        (∀ a ∈ left, a ∈ answers) ∧ r.type = s.ring.type ∧ r.enqueue = s.ring.enqueue)
      (fun ⟨⟨idle, growing, view, kept⟩, mine, type, enqueue⟩ needed transfer result => by
        obtain ⟨last, back, idle', distinct, fresh, expanded, is_idle, is_idle', growing'⟩ :=
          growing.expand needed transfer result
        have ahead := fun overtaken => needed (growing.careful overtaken)
        have more := growing'.room
        have grown : Grown q _ _ _ busy idle idle' :=
          ⟨distinct, fresh, _, last, back, result, expanded, is_idle, is_idle'⟩
        refine ⟨⟨idle', growing', ?_, ?_⟩, fun a member => mine a (List.mem_cons_of_mem _ member),
          by rw [expanded.type, type], by rw [expanded.enqueue, enqueue]⟩
        · exact view.grown ahead grown growing'.queue (by omega)
        · exact expands _ (mine _ (by simp)) _ _ idle idle' growing.queue kept grown)
      (⟨⟨idle, ⟨inv.view.queue, careful, by omega, fresh.1, fresh.outside inv.view.queue, noError⟩, inv.view, holds⟩,
        fun _ member => member, rfl, rfl⟩ :
        (∃ idle, Growing numTrbs busy answers s.ring idle ∧ View s.ring s.pending s.ccs busy idle c ∧ P s.ring busy idle) ∧
          (∀ a ∈ answers, a ∈ answers) ∧ s.ring.type = s.ring.type ∧ s.ring.enqueue = s.ring.enqueue)
    rw [made] at grown view kept type enqueue
    have room' : slack r' + 1 ≤ nonlinks idle' := grown.room
    have queue : Queue r' busy idle' := grown.queue
    have view : View r' s.pending s.ccs busy idle' c := view
    have kept : P r' busy idle' := kept
    rcases ways with ⟨failed, result⟩ | ⟨rfl, inner, result⟩ | ⟨rfl, onLink, result⟩
    · refine ⟨busy, idle', c, ⟨?_, ?_⟩, ?_⟩
      · simpa only [State.step, result] using view
      · simp only [State.step, result, if_neg failed]
        omega
      · simpa only [State.step, result] using kept
    · refine ⟨busy, idle', c, ⟨?_, ?_⟩, ?_⟩
      · simpa only [State.step, result] using view
      · simpa only [State.step, result, if_true] using room_made queue (makeRoom_enough made)
      · simpa only [State.step, result] using kept
    · have last := (queue.shape.links _ queue.enqueue_mem).mp onLink
      have was : (s.ring.trb s.ring.enqueue).isLink = true :=
        (inv.view.queue.shape.links _ inv.view.queue.enqueue_mem).mpr (by rw [← enqueue]; exact last)
      have accepted : ¬(ehubCacheRing r'.type = true ∧ status < 0) := by
        rintro ⟨cached, failed⟩
        have := written (type ▸ cached) was
        omega
      rw [handOver_eq q status queue.shape queue.enqueue_mem last, if_neg accepted] at result
      have enough := room_made queue (makeRoom_enough made)
      have sameSlack : slack (handedOver q r') = slack r' := by
        rw [handedOver]
        split_ifs <;> rfl
      obtain ⟨busy', idle'', c', view', counted, passed⟩ := view.handedOver q last (by omega)
      refine ⟨busy', idle'', c', ⟨?_, ?_⟩, ?_⟩
      · simpa only [State.step, result] using view'
      · simp only [State.step, result, if_true, sameSlack]
        omega
      · simpa only [State.step, result] using hands r' idle' busy' idle'' queue kept last passed

theorem Inv.step {s : State} {busy idle : List TrbPtr} {c : Bool} (inv : Inv s busy idle c) (q : Quirks) (op : Op)
    (allowed : op.Allowed s) (careful : Careful s op) : ∃ busy' idle' c', Inv (s.step q op) busy' idle' c' := by
  cases op with
  | prepareRing epState numTrbs answers status =>
    obtain ⟨busy', idle', c', inv', _⟩ := inv.prepareRing q epState numTrbs allowed careful.1 careful.2.1 careful.2.2
      (fun _ _ _ => True) trivial (fun _ _ _ _ _ _ _ _ _ => trivial) (fun _ _ _ _ _ _ _ _ => trivial)
    exact ⟨busy', idle', c', inv'⟩
  | queueTd first rest write =>
    obtain ⟨td, idle', _, inv'⟩ := inv.queueTd q write allowed.1 allowed.2.1 allowed.2.2
    exact ⟨busy ++ td, idle', c, inv'⟩
  | incDeq =>
    obtain ⟨front, rest, c', _, inv'⟩ := inv.incDeq q allowed
    exact ⟨rest, idle ++ front, c', inv'⟩
  | ringExpansion numTrbs answers =>
    obtain ⟨idle', inv', _⟩ := inv.ringExpansion q numTrbs allowed.1 allowed.2 careful.1 careful.2
    exact ⟨busy, idle', c, inv'⟩

/-- On a new ring every TRB is free. -/
theorem phased_new {r : Ring} {segs : List Addr} {cycleState : Bool} (shape : Shape r (laid segs))
    (is_state : r.cycleState = cycleState) (last_eq : segs.getLast? = some r.lastSeg)
    (marks : ∀ p ∈ laid segs, (r.trb p).cycle = !cycleState) : Phased r [] (laid segs) cycleState := by
  refine ⟨trivial, is_state.symm, ?_⟩
  obtain ⟨init, laid_eq⟩ := laid_last last_eq
  rw [is_state]
  have distinct := shape.isLap.1
  rw [laid_eq] at shape marks distinct ⊢
  have still : ∀ p ∈ laid init ++ run r.lastSeg 0 63, flipsAt r p = false := by
    intro p member
    have notLast : p ≠ link r.lastSeg := by
      rintro rfl
      exact (List.nodup_append.mp distinct).2.2 _ member _ (by simp) rfl
    simpa using mt (flipsAt_iff shape (List.mem_append_left _ member)).mp notLast
  rw [inPhase_append, phase_still _ still]
  exact ⟨inPhase_still (fun p member => marks p (List.mem_append_left _ member)) still, marks _ (by simp), trivial⟩

theorem inv_new {q : Quirks} {s : State} (new : New q s) : ∃ busy idle c, Inv s busy idle c := by
  obtain ⟨numSegs, type, answers, notEvent, distinct, made, reserved, pending⟩ := new
  obtain ⟨queue, _, cycleState, dequeue, _, start, last_eq, marks⟩ := queue_ringAlloc notEvent distinct made
  have phased := phased_new queue.shape cycleState last_eq marks
  refine ⟨_, _, _, .of_ahead queue phased pending.symm (not_overtaken_inner queue (by rw [start]; decide)), ?_⟩
  obtain ⟨rest, is_idle⟩ := queue.idle_eq
  rw [reserved, slack, dequeue, start, is_idle, nonlinks_cons]
  simp [start]

theorem inv_reachable {q : Quirks} {s : State} (reachable : Reachable q Careful s) :
    ∃ busy idle c, Inv s busy idle c := by
  refine Run.Reachable.invariant (P := fun s => ∃ busy idle c, Inv s busy idle c) (fun _ new => inv_new new) ?_ reachable
  rintro s op ⟨busy, idle, c, inv⟩ ⟨allowed, careful⟩
  exact inv.step q op allowed careful

theorem consistent_reachable {q : Quirks} {s : State} (reachable : Reachable q Careful s) : Consistent s.ring := by
  obtain ⟨busy, idle, c, inv⟩ := inv_reachable reachable
  exact ⟨busy, idle, c, inv.view.queue, inv.view.phased⟩

/-- While `dequeue` is not past `enqueue` a consumer takes the pending TRBs. -/
theorem View.fifo {r : Ring} {pending : List Trb} {ccs c : Bool} {busy idle : List TrbPtr}
    (view : View r pending ccs busy idle c) (ahead : ¬Overtaken r) (reserved : Nat) : Fifo ⟨r, reserved, pending, ccs⟩ := by
  intro fuel enough
  have queue := view.queue
  have inOrder := inOrder_of queue ahead
  have shape := queue.shape
  have distinct := shape.isLap.1
  have free := view.phased.free
  obtain ⟨rest, is_idle⟩ := queue.idle_eq
  rw [is_idle] at shape inOrder free
  refine ⟨busy, ?_, (List.nodup_append.mp distinct).1, view.pending⟩
  rw [view.ccs_ahead ahead]
  refine consumer_eq shape inOrder view.phased.owned ?_ enough
  rw [view.phased.cycleState]
  exact free.1

section
variable {q : Quirks} {s : State} (reachable : Reachable q Careful s)
include reachable

theorem fifo_of_ahead (ahead : ¬Overtaken s.ring) : Fifo s := by
  obtain ⟨busy, idle, c, view, _⟩ := inv_reachable reachable
  exact view.fifo ahead s.reserved

/-- Behind the link a consumer waits where it is. -/
theorem stops_of_overtaken (overtaken : Overtaken s.ring) :
    s.pending = [] ∧ ∀ fuel, 64 * s.ring.numSegs ≤ fuel → consumer s.ring fuel s.ccs = some ([], s.ring.dequeue) := by
  obtain ⟨busy, idle, c, view, room⟩ := inv_reachable reachable
  have queue := view.queue
  obtain ⟨rest, is_idle⟩ := queue.idle_eq
  have free := view.phased.free
  obtain ⟨rfl, onLink, behind⟩ := behind_of queue overtaken (by omega)
  refine ⟨view.pending.symm, ?_⟩
  intro fuel enough
  have shape := queue.shape
  rw [is_idle] at shape room free
  have some_left : rest ≠ [] := by
    rintro rfl
    simp [nonlinks_cons, onLink] at room
  obtain ⟨p, rest, rfl⟩ := List.exists_cons_of_ne_nil some_left
  have is_p : p = s.ring.dequeue := by
    have leads := shape.isLap.next_eq
    rw [behind]
    simpa using leads
  subst is_p
  have turned : Shape s.ring ([] ++ s.ring.dequeue :: (rest ++ [s.ring.enqueue])) := by
    have := Shape.swap (show Shape s.ring ([s.ring.enqueue] ++ s.ring.dequeue :: rest) from shape)
    simpa using this
  refine consumer_eq turned rfl trivial ?_ enough
  have is_c : c = s.ring.cycleState := view.phased.cycleState
  rw [view.ccs_behind overtaken, phase_nil, is_c]
  simpa using free.2.1

/-- So it does not come to `enqueue`. -/
theorem not_fifo_of_overtaken (overtaken : Overtaken s.ring) : ¬Fifo s := by
  intro fifo
  obtain ⟨busy, idle, c, view, room⟩ := inv_reachable reachable
  obtain ⟨_, onLink, behind⟩ := behind_of view.queue overtaken (by omega)
  obtain ⟨taken, takes, _, _⟩ := fifo _ le_rfl
  rw [(stops_of_overtaken reachable overtaken).2 _ le_rfl] at takes
  have same : s.ring.dequeue = s.ring.enqueue := by
    simp only [Option.some.injEq, Prod.mk.injEq] at takes
    exact takes.2
  have atStart : s.ring.dequeue.idx = 0 := by rw [behind, follow, if_pos onLink]
  rw [same, onLink] at atStart
  simp at atStart

end

/-- In every state reached, a consumer takes the pending TRBs and stops at `enqueue`, if
    and only if `dequeue` has not run past the link on which `enqueue` rests; if it has,
    nothing is pending, and a consumer at `dequeue` finds nothing. -/
theorem ring_fifo {q : Quirks} {s : State} (reachable : Reachable q Careful s) :
    (Fifo s ↔ ¬Overtaken s.ring) ∧
    (Overtaken s.ring → s.pending = [] ∧
      ∀ fuel, 64 * s.ring.numSegs ≤ fuel → consumer s.ring fuel s.ccs = some ([], s.ring.dequeue)) :=
  ⟨⟨fun fifo overtaken => not_fifo_of_overtaken reachable overtaken fifo, fifo_of_ahead reachable⟩, stops_of_overtaken reachable⟩

instance (s : State) : (op : Op) → Decidable (op.Allowed s)
  | .prepareRing _ _ answers _ => inferInstanceAs (Decidable (Fresh s.ring (answers.flatMap Answers.segs)))
  | .queueTd _ _ _ => inferInstanceAs (Decidable (_ ∧ _))
  | .incDeq => inferInstanceAs (Decidable (_ ≠ _))
  | .ringExpansion _ _ => inferInstanceAs (Decidable (_ ∧ _))

/-- A TD of `n + 1` normal TRBs, chained up to the last one. -/
def normalTd : Nat → Op
  | 0 => .queueTd normalTrb [] fun _ => .accepted
  | n + 1 =>
    .queueTd (normalTrb.setChain true) (List.replicate n (normalTrb.setChain true) ++ [normalTrb]) fun _ => .accepted

theorem bulkRing_new : New ⟨false, false⟩ ⟨bulkRing, 0, [], true⟩ :=
  ⟨2, .bulk, _, by decide, by decide, bulkRing_made, rfl, rfl⟩

/-- Room for three TRBs and a TD of two, the first of which is consumed. -/
def shortRun : List Op := [.prepareRing 1 3 [] 0, normalTd 1, .incDeq]

theorem shortRun_reachable :
    Reachable ⟨false, false⟩ Careful (shortRun.foldl (State.step ⟨false, false⟩) ⟨bulkRing, 0, [], true⟩) := by
  refine Run.Reachable.all (.first bulkRing_new) ⟨⟨?_, ?_⟩, ⟨?_, trivial⟩, ⟨?_, trivial⟩, trivial⟩
  · decide +kernel
  · exact ⟨by decide +kernel, by simp, fun _ _ => by decide⟩
  · decide +kernel
  · decide +kernel

theorem ring_fifo_shortRun :
    Reachable ⟨false, false⟩ Careful (shortRun.foldl (State.step ⟨false, false⟩) ⟨bulkRing, 0, [], true⟩) ∧
    Fifo (shortRun.foldl (State.step ⟨false, false⟩) ⟨bulkRing, 0, [], true⟩) :=
  ⟨shortRun_reachable, (ring_fifo shortRun_reachable).1.mpr (by decide +kernel)⟩

/-- A segment is filled and consumed, so that `dequeue` runs past the link on which
    `enqueue` rests; the ring is expanded for a TD of 126 TRBs, which goes to the new
    segments; and the link behind it is handed over for one more TRB. -/
def overtakenRun : List Op :=
  [.prepareRing 1 63 [] 0, normalTd 62] ++ List.replicate 63 .incDeq ++
  [.prepareRing 1 126 [⟨[0x1800, 0x1c00], fun _ => .accepted⟩] 0, normalTd 125, .prepareRing 1 1 [] 0]

/-- Then a consumer at `dequeue` finds nothing of the 126 TRBs that are pending. -/
theorem ring_not_fifo : ¬∀ s, Reachable ⟨false, false⟩ (fun _ _ => True) s → Fifo s := by
  intro fifo
  have allows : Run.Allows (fun s op => Op.Allowed s op ∧ True) (State.step ⟨false, false⟩) ⟨bulkRing, 0, [], true⟩
      overtakenRun := by
    decide +kernel
  obtain ⟨taken, takes, _, contains⟩ := fifo _ (Run.Reachable.all (.first bulkRing_new) allows) _ le_rfl
  have nothing : (consumer (overtakenRun.foldl (State.step ⟨false, false⟩) ⟨bulkRing, 0, [], true⟩).ring
      (64 * (overtakenRun.foldl (State.step ⟨false, false⟩) ⟨bulkRing, 0, [], true⟩).ring.numSegs)
      (overtakenRun.foldl (State.step ⟨false, false⟩) ⟨bulkRing, 0, [], true⟩).ccs).map Prod.fst = some [] := by
    decide +kernel
  have is_taken : taken = [] := by
    rw [takes] at nothing
    simpa using nothing
  rw [is_taken] at contains
  have pending : (overtakenRun.foldl (State.step ⟨false, false⟩) ⟨bulkRing, 0, [], true⟩).pending ≠ [] := by
    decide +kernel
  exact pending contains.symm

end Ehub.RingFifo
