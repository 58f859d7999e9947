import Mathlib
import Ehub.Lap
import Ehub.Ring

/-!
The TRBs of a ring as a closed track. Whatever the driver does with a ring, its TRBs
form one lap whose links are the last TRBs of the segments (`Shape`), and the lap
falls into the TRBs between `dequeue` and `enqueue` and those that are free
(`Queue`). Every function of the driver moves the border between the two stretches,
or inserts new segments into the free one; there is one lemma for each.

The two pointers have one odd meeting. `inc_enq` leaves `enqueue` on the link TRB
behind a TD that ends a segment, while `inc_deq` always skips links: once that TD is
consumed `dequeue` lies behind `enqueue` (`Overtaken`), on a ring with no TRB pending.
-/
namespace Ehub.RingShape
open Ehub.Lap Ehub.Segments Ehub.Ring

/-- The TRB behind `p` on a ring with these `next` pointers. -/
def follow (next : Addr → Addr) (p : TrbPtr) : TrbPtr :=
  if p.idx = 63 then ⟨next p.seg, 0⟩ else ⟨p.seg, p.idx + 1⟩

/-- The number of TRBs of a stretch that are not the last of their segment. -/
def nonlinks (l : List TrbPtr) : Nat := l.countP (fun p => p.idx ≠ 63)

@[simp] theorem nonlinks_nil : nonlinks [] = 0 := rfl

@[simp] theorem nonlinks_append (l m : List TrbPtr) : nonlinks (l ++ m) = nonlinks l + nonlinks m := by
  simp [nonlinks]

theorem nonlinks_cons (p : TrbPtr) (l : List TrbPtr) :
    nonlinks (p :: l) = nonlinks l + if p.idx ≠ 63 then 1 else 0 := by
  simp [nonlinks, List.countP_cons]

theorem nonlinks_le_length (l : List TrbPtr) : nonlinks l ≤ l.length := List.countP_le_length

/-- `lap` are the TRBs of the ring, read once around. -/
structure Shape (r : Ring) (lap : List TrbPtr) : Prop where
  notEvent : r.type ≠ .event
  isLap : IsLap (follow r.next) lap
  inside : ∀ p ∈ lap, p.idx < 64
  links : ∀ p ∈ lap, ((r.trb p).isLink = true ↔ p.idx = 63)
  pointers : ∀ p ∈ lap, p.idx = 63 → (r.trb p).segmentPtr = r.next p.seg
  toggles : ∀ p ∈ lap, p.idx = 63 → ((r.trb p).toggle = true ↔ p.seg = r.lastSeg)
  lastLink : link r.lastSeg ∈ lap
  size : lap.length = 64 * r.numSegs
  count : nonlinks lap = 63 * r.numSegs

theorem Shape.swap {r : Ring} {a b : List TrbPtr} (shape : Shape r (a ++ b)) : Shape r (b ++ a) := by
  have same : ∀ p, p ∈ b ++ a ↔ p ∈ a ++ b := by
    intro p
    simp [or_comm]
  refine ⟨shape.notEvent, shape.isLap.swap, ?_, ?_, ?_, ?_, ?_, ?_, ?_⟩
  · exact fun p member => shape.inside p ((same p).mp member)
  · exact fun p member => shape.links p ((same p).mp member)
  · exact fun p member => shape.pointers p ((same p).mp member)
  · exact fun p member => shape.toggles p ((same p).mp member)
  · exact (same _).mpr shape.lastLink
  · rw [← shape.size, List.length_append, List.length_append, Nat.add_comm]
  · rw [← shape.count, nonlinks_append, nonlinks_append, Nat.add_comm]

theorem lastTrb_isLink {r : Ring} (notEvent : r.type ≠ .event) (p : TrbPtr) : r.lastTrb p = (r.trb p).isLink := by
  rw [Ring.lastTrb, if_neg notEvent]

theorem Shape.lastTrb_eq {r : Ring} {lap : List TrbPtr} (shape : Shape r lap) {p : TrbPtr} (member : p ∈ lap) :
    r.lastTrb p = decide (p.idx = 63) := by
  have links := shape.links p member
  rw [lastTrb_isLink shape.notEvent]
  by_cases last : p.idx = 63 <;> simp_all

theorem Shape.nextTrb_eq {r : Ring} {lap : List TrbPtr} (shape : Shape r lap) {p : TrbPtr} (member : p ∈ lap) :
    r.nextTrb p = follow r.next p := by
  simp only [Ring.nextTrb, follow, shape.lastTrb_eq member, decide_eq_true_eq]

/-- The shape does not depend on what the TRBs say besides their type and, in a link,
    their target and toggle. -/
theorem Shape.edit {r r' : Ring} {lap : List TrbPtr} (shape : Shape r lap) (type : r'.type = r.type)
    (next : r'.next = r.next) (numSegs : r'.numSegs = r.numSegs) (lastSeg : r'.lastSeg = r.lastSeg)
    (links : ∀ p ∈ lap, (r'.trb p).isLink = (r.trb p).isLink)
    (same : ∀ p ∈ lap, p.idx = 63 →
      (r'.trb p).segmentPtr = (r.trb p).segmentPtr ∧ (r'.trb p).toggle = (r.trb p).toggle) : Shape r' lap := by
  refine ⟨type ▸ shape.notEvent, next ▸ shape.isLap, shape.inside, ?_, ?_, ?_, ?_, ?_, ?_⟩
  · intro p member
    rw [links p member]
    exact shape.links p member
  · intro p member last
    rw [(same p member last).1, next]
    exact shape.pointers p member last
  · intro p member last
    rw [(same p member last).2, lastSeg]
    exact shape.toggles p member last
  · exact lastSeg ▸ shape.lastLink
  · exact numSegs ▸ shape.size
  · exact numSegs ▸ shape.count

/-! ### Stretches inside one segment -/

/-- The `n` TRBs of a segment from index `i` on. -/
def run (seg : Addr) (i n : Nat) : List TrbPtr := (List.range n).map fun j => ⟨seg, i + j⟩

theorem run_succ (seg : Addr) (i n : Nat) : run seg i (n + 1) = run seg i n ++ [⟨seg, i + n⟩] := by
  simp [run, List.range_succ]

theorem mem_run_iff {seg : Addr} {i n : Nat} {p : TrbPtr} :
    p ∈ run seg i n ↔ p.seg = seg ∧ i ≤ p.idx ∧ p.idx < i + n := by
  constructor
  · intro member
    obtain ⟨j, inside, rfl⟩ := List.mem_map.mp member
    have := List.mem_range.mp inside
    exact ⟨rfl, by simp, by simpa using this⟩
  · rintro ⟨rfl, after, before⟩
    refine List.mem_map.mpr ⟨p.idx - i, List.mem_range.mpr (by omega), ?_⟩
    rw [Nat.add_sub_cancel' after]

theorem mem_run {seg : Addr} {i n : Nat} {p : TrbPtr} (member : p ∈ run seg i n) :
    p.seg = seg ∧ i ≤ p.idx ∧ p.idx < i + n := mem_run_iff.mp member

/-- A lap that starts in a segment runs through it up to any later TRB. -/
theorem stretch {next : Addr → Addr} {lap : List TrbPtr} {seg : Addr} {i : Nat} (isLap : IsLap (follow next) lap)
    (first : lap.head? = some ⟨seg, i⟩) (n : Nat) (inside : i + n ≤ 63) :
    ∃ rest, lap = run seg i n ++ ⟨seg, i + n⟩ :: rest := by
  induction n with
  | zero =>
    obtain ⟨rest, rfl⟩ := List.head?_eq_some_iff.mp first
    exact ⟨rest, by simp [run]⟩
  | succ n ih =>
    obtain ⟨rest, split⟩ := ih (by omega)
    have step : (rest ++ run seg i n ++ [(⟨seg, i + n⟩ : TrbPtr)]).head? = some ⟨seg, i + n + 1⟩ := by
      rw [split] at isLap
      have := isLap.next_eq
      simp only [follow] at this
      rwa [if_neg (by omega)] at this
    cases rest with
    | nil =>
      -- The lap would be back at its first TRB, which has a smaller index.
      exfalso
      have back : run seg i (n + 1) = lap := by rw [split, run_succ]
      rw [List.nil_append, ← run_succ, back, first] at step
      simp at step
      omega
    | cons p rest =>
      simp at step
      exact ⟨rest, by rw [split, run_succ, step]; simp [Nat.add_assoc]⟩

/-! ### The pointers on a ring -/

/-- `busy` are the TRBs from `dequeue` up to `enqueue`, and `idle` the free ones from
    there on. If the driver has consumed the last TRB before a link on which
    `enqueue` rests, `dequeue` is behind that link and no TRB is busy. -/
structure Queue (r : Ring) (busy idle : List TrbPtr) : Prop where
  shape : Shape r (busy ++ idle)
  enqueue : idle.head? = some r.enqueue
  dequeue : (busy ++ idle).head? = some r.dequeue ∨
    (busy = [] ∧ r.enqueue.idx = 63 ∧ r.dequeue = follow r.next r.enqueue)
  free : r.numTrbsFree + nonlinks busy = 63 * r.numSegs - 1

/-- `dequeue` is right behind the link TRB on which `enqueue` rests. -/
def Overtaken (r : Ring) : Prop := (r.trb r.enqueue).isLink = true ∧ r.dequeue = ⟨r.next r.enqueue.seg, 0⟩

instance (r : Ring) : Decidable (Overtaken r) := inferInstanceAs (Decidable (_ ∧ _))

/-- A queue does not depend on what the TRBs say, or on the cache. -/
theorem Queue.edit {r r' : Ring} {busy idle : List TrbPtr} (queue : Queue r busy idle)
    (shape : Shape r' (busy ++ idle)) (next : r'.next = r.next) (enqueue : r'.enqueue = r.enqueue)
    (dequeue : r'.dequeue = r.dequeue) (numSegs : r'.numSegs = r.numSegs) (free : r'.numTrbsFree = r.numTrbsFree) :
    Queue r' busy idle := by
  refine ⟨shape, ?_, ?_, ?_⟩
  · rw [enqueue]
    exact queue.enqueue
  · rw [enqueue, dequeue, next]
    exact queue.dequeue
  · rw [free, numSegs]
    exact queue.free

theorem Queue.enqueue_mem {r : Ring} {busy idle : List TrbPtr} (queue : Queue r busy idle) :
    r.enqueue ∈ busy ++ idle :=
  List.mem_append_right _ (List.mem_of_mem_head? queue.enqueue)

theorem Queue.idle_eq {r : Ring} {busy idle : List TrbPtr} (queue : Queue r busy idle) :
    ∃ rest, idle = r.enqueue :: rest := List.head?_eq_some_iff.mp queue.enqueue

theorem Queue.idle_count {r : Ring} {busy idle : List TrbPtr} (queue : Queue r busy idle) :
    (nonlinks idle : Int) = r.numTrbsFree + 1 := by
  have count := queue.shape.count
  have free := queue.free
  rw [nonlinks_append] at count
  omega

/-- The link TRB `t` is written at `enqueue`, which moves on to the next segment. -/
def linkGiven (r : Ring) (t : Trb) : Ring :=
  { r.setTrb r.enqueue t with
    cycleState := (r.cycleState ^^ t.toggle)
    enqueue := ⟨r.next r.enqueue.seg, 0⟩ }

/-- The link TRB that `inc_enq` hands over, with the chain bit it carries on. -/
def carried (q : Quirks) (type : RingType) (chain : Bool) (t : Trb) : Trb :=
  (if linkChained q type then t else t.setChain chain).flipCycle

theorem giveLink_carried (q : Quirks) (chain : Bool) {r : Ring} (notEvent : r.type ≠ .event) :
    (if linkChained q r.type then r else r.modifyTrb r.enqueue (·.setChain chain)).giveLink.enqueueNextSeg =
      linkGiven r (carried q r.type chain (r.trb r.enqueue)) := by
  split_ifs with chained
  · rw [giveLink_eq r notEvent]
    simp [enqueueNextSeg, linkGiven, carried, chained, modifyTrb, setTrb]
    rfl
  · rw [giveLink_eq _ (by simpa [modifyTrb] using notEvent)]
    simp [enqueueNextSeg, linkGiven, carried, chained, modifyTrb, setTrb, Segments.set, Segments.trb]
    funext s i
    split_ifs <;> rfl

theorem incEnqLoop_stop (q : Quirks) (chain more : Bool) (fuel : Nat) {r : Ring}
    (inner : r.lastTrb r.enqueue = false) : incEnqLoop q chain more fuel r = r := by
  cases fuel <;> simp [incEnqLoop, inner]

/-- The TRB `t` is written at `enqueue`, which moves on to the next TRB. -/
def stored (r : Ring) (t : Trb) : Ring :=
  { r.setTrb r.enqueue t with
    numTrbsFree := r.numTrbsFree - 1
    enqueue := ⟨r.enqueue.seg, r.enqueue.idx + 1⟩ }

/-- `queue_trb` on a TRB that is no link: the TRB is written, and a link right behind
    it is passed if the TD goes on. -/
theorem queueTrb_eq (q : Quirks) {r : Ring} {lap : List TrbPtr} (shape : Shape r lap) (member : r.enqueue ∈ lap)
    (inner : r.enqueue.idx ≠ 63) {t : Trb} (plain : t.isLink = false) (more : Bool) :
    r.queueTrb q more t =
      if r.enqueue.idx = 62 ∧ (t.chain = true ∨ more = true) then
        linkGiven (stored r t) (carried q r.type t.chain (r.trb (link r.enqueue.seg)))
      else stored r t := by
  have notEvent := shape.notEvent
  have behind : ∀ p ∈ lap, follow r.next p ∈ lap := by
    intro p inLap
    obtain ⟨a, b, rfl⟩ := List.append_of_mem inLap
    exact shape.isLap.next_mem
  have second : (⟨r.enqueue.seg, r.enqueue.idx + 1⟩ : TrbPtr) ∈ lap := by
    have := behind _ member
    rwa [follow, if_neg inner] at this
  set r' : Ring := stored r t with is_r'
  have unfolded : r.queueTrb q more t = incEnqLoop q t.chain more (r.numSegs + 2) r' := by
    have written : (r.setTrb r.enqueue t).lastTrb r.enqueue = false := by simp [Ring.lastTrb, notEvent, plain]
    simp [Ring.queueTrb, incEnq, written, notEvent, is_r', stored]
  have other : r'.trb ⟨r.enqueue.seg, r.enqueue.idx + 1⟩ = r.trb ⟨r.enqueue.seg, r.enqueue.idx + 1⟩ := by
    show (r.setTrb r.enqueue t).trb _ = _
    rw [trb_setTrb, if_neg]
    intro same
    have := congrArg TrbPtr.idx same
    simp at this
  have reached : r'.lastTrb r'.enqueue = decide (r.enqueue.idx = 62) := by
    have links := shape.lastTrb_eq second
    rw [lastTrb_isLink notEvent] at links
    rw [lastTrb_isLink (show r'.type ≠ .event from notEvent)]
    show (r'.trb ⟨r.enqueue.seg, r.enqueue.idx + 1⟩).isLink = _
    rw [other, links]
    simp
  rw [unfolded]
  by_cases before : r.enqueue.idx = 62
  · by_cases goes : t.chain = true ∨ more = true
    · have onLink : r'.enqueue = link r.enqueue.seg := by
        simp [is_r', stored, link, before, trbsPerSegment]
      have passed : incEnqLoop q t.chain more (r.numSegs + 2) r' =
          incEnqLoop q t.chain more (r.numSegs + 1)
            (linkGiven r' (carried q r.type t.chain (r.trb (link r.enqueue.seg)))) := by
        have there : r'.trb r'.enqueue = r.trb (link r.enqueue.seg) := by
          rw [onLink]
          have := other
          rw [before] at this
          exact this
        have given := giveLink_carried q t.chain (show r'.type ≠ .event from notEvent)
        rw [there] at given
        rw [incEnqLoop, reached, if_pos (by simp [before]), if_neg (show ¬r'.type = .event from notEvent),
          if_neg (by rcases goes with h | h <;> simp [h])]
        exact congrArg (incEnqLoop q t.chain more (r.numSegs + 1)) given
      rw [passed, incEnqLoop_stop, if_pos ⟨before, goes⟩]
      have third : (⟨r.next r.enqueue.seg, 0⟩ : TrbPtr) ∈ lap := by
        have := behind _ second
        rwa [follow, if_pos (by simp [before])] at this
      have plainThird := shape.lastTrb_eq third
      rw [lastTrb_isLink notEvent] at plainThird
      rw [lastTrb_isLink (show (linkGiven r' _).type ≠ .event from notEvent)]
      show ((r'.setTrb r'.enqueue _).trb ⟨r.next r.enqueue.seg, 0⟩).isLink = _
      rw [trb_setTrb, if_neg (by rw [onLink]; simp [link, trbsPerSegment])]
      show ((r.setTrb r.enqueue t).trb ⟨r.next r.enqueue.seg, 0⟩).isLink = _
      rw [trb_setTrb, if_neg, plainThird]
      · simp
      · intro same
        have := congrArg TrbPtr.idx same
        simp [before] at this
    · rw [incEnqLoop, reached, if_pos (by simp [before]), if_neg (show ¬r'.type = .event from notEvent), if_pos, if_neg]
      · exact fun h => goes h.2
      · simp_all
  · rw [incEnqLoop_stop q _ _ _ (by simp [reached, before]), if_neg fun h => before h.1]

/-- A TRB that is no link may be replaced by another such TRB. -/
theorem Shape.setTrb {r : Ring} {lap : List TrbPtr} (shape : Shape r lap) {p : TrbPtr} (inner : p.idx ≠ 63) {t : Trb}
    (plain : t.isLink = false) : Shape (r.setTrb p t) lap := by
  refine shape.edit rfl rfl rfl rfl ?_ ?_
  · intro x member
    rw [trb_setTrb]
    split_ifs with same
    · subst same
      have := shape.links x member
      simp_all
    · rfl
  · intro x _ last
    have different : x ≠ p := by
      rintro rfl
      exact inner last
    simp [trb_setTrb, different]

/-- A link may be replaced by one with the same target and toggle. -/
theorem Shape.setLink {r : Ring} {lap : List TrbPtr} (shape : Shape r lap) {p : TrbPtr} {t : Trb}
    (isLink : t.isLink = (r.trb p).isLink) (ptr : t.segmentPtr = (r.trb p).segmentPtr)
    (toggle : t.toggle = (r.trb p).toggle) : Shape (r.setTrb p t) lap := by
  refine shape.edit rfl rfl rfl rfl ?_ ?_
  · intro x _
    rw [trb_setTrb]
    split_ifs with same
    · rw [isLink, same]
    · rfl
  · intro x _ _
    rw [trb_setTrb]
    split_ifs with same
    · rw [ptr, toggle, same]
      exact ⟨rfl, rfl⟩
    · exact ⟨rfl, rfl⟩

/-- `enqueue` moves over one TRB, whatever has been written to it, if another free one
    follows and `dequeue` is not behind it. -/
theorem Queue.forward {r r' : Ring} {busy rest : List TrbPtr} (queue : Queue r busy (r.enqueue :: rest))
    (inOrder : (busy ++ r.enqueue :: rest).head? = some r.dequeue) (some_left : rest ≠ [])
    (shape : Shape r' (busy ++ r.enqueue :: rest)) (enqueue : r'.enqueue = follow r.next r.enqueue)
    (dequeue : r'.dequeue = r.dequeue) (numSegs : r'.numSegs = r.numSegs)
    (free : r'.numTrbsFree = r.numTrbsFree - if r.enqueue.idx ≠ 63 then 1 else 0) :
    Queue r' (busy ++ [r.enqueue]) rest := by
  obtain ⟨p, rest, rfl⟩ := List.exists_cons_of_ne_nil some_left
  have step := queue.shape.isLap.next_eq
  refine ⟨?_, ?_, .inl ?_, ?_⟩
  · simpa using shape
  · simp only [List.cons_append, List.head?_cons] at step ⊢
    rw [step, enqueue]
  · rw [dequeue, ← inOrder]
    simp
  · have old := queue.free
    rw [free, nonlinks_append, nonlinks_cons, numSegs]
    simp only [nonlinks_nil]
    split_ifs <;> push_cast <;> omega

/-- `enqueue` moves over the link behind which `dequeue` already is: no TRB is busy. -/
theorem Queue.catchUp {r r' : Ring} {rest : List TrbPtr} (queue : Queue r [] (r.enqueue :: rest))
    (behind : r.dequeue = follow r.next r.enqueue) (some_left : rest ≠ []) (shape : Shape r' (r.enqueue :: rest))
    (enqueue : r'.enqueue = follow r.next r.enqueue) (dequeue : r'.dequeue = r.dequeue)
    (numSegs : r'.numSegs = r.numSegs) (free : r'.numTrbsFree = r.numTrbsFree) :
    Queue r' [] (rest ++ [r.enqueue]) := by
  obtain ⟨p, rest, rfl⟩ := List.exists_cons_of_ne_nil some_left
  have step := queue.shape.isLap.next_eq
  simp only [List.cons_append, List.head?_cons, Option.some.injEq] at step
  refine ⟨?_, ?_, .inl ?_, ?_⟩
  · have turned : Shape r' ((p :: rest) ++ [r.enqueue]) := Shape.swap shape
    exact turned
  · simp [step, enqueue]
  · simp [step, dequeue, behind]
  · rw [free, numSegs]
    exact queue.free

theorem Queue.inOrder_of_inner {r : Ring} {busy idle : List TrbPtr} (queue : Queue r busy idle)
    (inner : r.enqueue.idx ≠ 63) : (busy ++ idle).head? = some r.dequeue := by
  rcases queue.dequeue with inOrder | ⟨_, onLink, _⟩
  · exact inOrder
  · exact absurd onLink inner

theorem Queue.put {r : Ring} {busy rest : List TrbPtr} (queue : Queue r busy (r.enqueue :: rest))
    (inner : r.enqueue.idx ≠ 63) (some_left : rest ≠ []) {t : Trb} (plain : t.isLink = false) :
    Queue (stored r t) (busy ++ [r.enqueue]) rest := by
  refine queue.forward (queue.inOrder_of_inner inner) some_left ?_ ?_ rfl rfl ?_
  · have written := queue.shape.setTrb inner plain
    exact written.edit rfl rfl rfl rfl (fun _ _ => rfl) (fun _ _ _ => ⟨rfl, rfl⟩)
  · rw [follow, if_neg inner]
    rfl
  · rw [if_pos inner]
    rfl

/-- The edits of a link TRB that leave its place on the ring alone. -/
structure SameLink (t t' : Trb) : Prop where
  isLink : t'.isLink = t.isLink
  segmentPtr : t'.segmentPtr = t.segmentPtr
  toggle : t'.toggle = t.toggle

theorem sameLink_carried (q : Quirks) (type : RingType) (chain : Bool) (t : Trb) :
    SameLink t (carried q type chain t) := by
  simp only [carried]
  split_ifs
  · exact ⟨by simp, by simp, by simp⟩
  · exact ⟨by simp, by simp, by simp⟩

/-- The link TRB that `prepare_ring` hands over. -/
def handed (q : Quirks) (type : RingType) (t : Trb) : Trb := (t.setChain (linkChained q type)).flipCycle

theorem sameLink_handed (q : Quirks) (type : RingType) (t : Trb) : SameLink t (handed q type t) :=
  ⟨by simp [handed], by simp [handed], by simp [handed]⟩

theorem Shape.linkGiven {r : Ring} {lap : List TrbPtr} (shape : Shape r lap) {t : Trb}
    (same : SameLink (r.trb r.enqueue) t) : Shape (linkGiven r t) lap := by
  have written := shape.setLink same.isLink same.segmentPtr same.toggle
  exact written.edit rfl rfl rfl rfl (fun _ _ => rfl) (fun _ _ _ => ⟨rfl, rfl⟩)

/-- A link is handed over behind the busy TRBs. -/
theorem Queue.linkGiven {r : Ring} {busy rest : List TrbPtr} (queue : Queue r busy (r.enqueue :: rest))
    (onLink : r.enqueue.idx = 63) (inOrder : (busy ++ r.enqueue :: rest).head? = some r.dequeue)
    (some_left : rest ≠ []) {t : Trb} (same : SameLink (r.trb r.enqueue) t) :
    Queue (linkGiven r t) (busy ++ [r.enqueue]) rest := by
  refine queue.forward inOrder some_left (queue.shape.linkGiven same) ?_ rfl rfl ?_
  · simp [RingShape.linkGiven, follow, onLink]
  · simp [RingShape.linkGiven, onLink]

/-- A link is handed over that `dequeue` has already passed. -/
theorem Queue.linkGiven_behind {r : Ring} {rest : List TrbPtr} (queue : Queue r [] (r.enqueue :: rest))
    (onLink : r.enqueue.idx = 63) (behind : r.dequeue = follow r.next r.enqueue)
    (some_left : rest ≠ []) {t : Trb} (same : SameLink (r.trb r.enqueue) t) :
    Queue (RingShape.linkGiven r t) [] (rest ++ [r.enqueue]) := by
  refine queue.catchUp behind some_left (queue.shape.linkGiven same) ?_ rfl rfl rfl
  simp [RingShape.linkGiven, follow, onLink]

/-- `queue_trb` takes a free TRB, and the link behind it if the TD goes on. -/
theorem Queue.queueTrb_cases {r : Ring} {busy rest : List TrbPtr} (q : Quirks) (queue : Queue r busy (r.enqueue :: rest))
    (inner : r.enqueue.idx ≠ 63) (more : Bool) {t : Trb} (plain : t.isLink = false) (room : 1 ≤ nonlinks rest) :
    (r.queueTrb q more t = stored r t ∧ Queue (stored r t) (busy ++ [r.enqueue]) rest ∧
      (more = true → (stored r t).enqueue.idx ≠ 63)) ∨
    ∃ rest', rest = (stored r t).enqueue :: rest' ∧ (stored r t).enqueue.idx = 63 ∧
      r.queueTrb q more t =
        RingShape.linkGiven (stored r t) (carried q r.type t.chain ((stored r t).trb (stored r t).enqueue)) ∧
      Queue (stored r t) (busy ++ [r.enqueue]) rest ∧
      Queue (r.queueTrb q more t) (busy ++ [r.enqueue] ++ [(stored r t).enqueue]) rest' := by
  have some_left : rest ≠ [] := by
    rintro rfl
    simp at room
  have put := queue.put inner some_left plain
  have eq := queueTrb_eq q queue.shape queue.enqueue_mem inner plain more
  split_ifs at eq with passes
  · right
    obtain ⟨rest', is_rest⟩ := put.idle_eq
    have onLink : (stored r t).enqueue.idx = 63 := by simp [stored, passes.1]
    rw [is_rest, nonlinks_cons, if_neg (by simp [onLink])] at room
    have some_left' : rest' ≠ [] := by
      rintro rfl
      simp at room
    have inOrder : (busy ++ [r.enqueue] ++ (stored r t).enqueue :: rest').head? = some (stored r t).dequeue := by
      have := queue.inOrder_of_inner inner
      rw [is_rest] at this
      show _ = some r.dequeue
      simpa using this
    have there : r.trb (link r.enqueue.seg) = (stored r t).trb (stored r t).enqueue := by
      have different : link r.enqueue.seg ≠ r.enqueue := by
        intro same
        exact inner (by rw [← same]; rfl)
      have same : (stored r t).enqueue = link r.enqueue.seg := by simp [stored, link, passes.1, trbsPerSegment]
      rw [same]
      show _ = (r.setTrb r.enqueue t).trb _
      rw [trb_setTrb, if_neg different]
    rw [there] at eq
    refine ⟨rest', is_rest, onLink, eq, put, ?_⟩
    rw [is_rest] at put
    rw [eq]
    exact put.linkGiven onLink inOrder some_left' (sameLink_carried q r.type t.chain _)
  · refine .inl ⟨eq, put, fun goesOn onLink => passes ⟨?_, .inr goesOn⟩⟩
    have : r.enqueue.idx + 1 = 63 := onLink
    omega

/-- What `prepare_ring` leaves behind when it hands over the link at `enqueue`. -/
def handedOver (q : Quirks) (r : Ring) : Ring :=
  let r' := linkGiven r (handed q r.type (r.trb r.enqueue))
  if ehubCacheRing r.type then { r' with toSegments := r'.copy r.enqueue } else r'

/-- What it leaves behind when the cache write of that link fails. -/
def handOverFailed (q : Quirks) (r : Ring) : Ring :=
  { linkGiven r (handed q r.type (r.trb r.enqueue)) with enqueue := r.enqueue }

theorem Shape.handedOver {r : Ring} {lap : List TrbPtr} (q : Quirks)
    (shape : Shape (RingShape.linkGiven r (handed q r.type (r.trb r.enqueue))) lap) :
    Shape (handedOver q r) lap := by
  rw [RingShape.handedOver]
  split_ifs
  · exact shape.edit rfl rfl rfl rfl (fun _ _ => rfl) (fun _ _ _ => ⟨rfl, rfl⟩)
  · exact shape

/-- The link that `prepare_ring` hands over joins the busy TRBs, unless `dequeue` is
    behind it. -/
theorem Queue.handedOver {r : Ring} {busy rest : List TrbPtr} (q : Quirks) (queue : Queue r busy (r.enqueue :: rest))
    (onLink : r.enqueue.idx = 63) (some_left : rest ≠ []) :
    ((busy ++ r.enqueue :: rest).head? = some r.dequeue → Queue (handedOver q r) (busy ++ [r.enqueue]) rest) ∧
    (busy = [] → r.dequeue = follow r.next r.enqueue → Queue (handedOver q r) [] (rest ++ [r.enqueue])) := by
  have same := sameLink_handed q r.type (r.trb r.enqueue)
  have cached : ∀ {busy idle : List TrbPtr}, Queue (RingShape.linkGiven r (handed q r.type (r.trb r.enqueue))) busy idle →
      Queue (RingShape.handedOver q r) busy idle := by
    intro busy idle given
    refine given.edit (given.shape.handedOver q) ?_ ?_ ?_ ?_ ?_ <;> (rw [RingShape.handedOver]; split_ifs <;> rfl)
  refine ⟨fun inOrder => ?_, fun nothing behind => ?_⟩
  · exact cached (queue.linkGiven onLink inOrder some_left same)
  · subst nothing
    exact cached (queue.linkGiven_behind onLink behind some_left same)

theorem Queue.handOverFailed {r : Ring} {busy idle : List TrbPtr} (q : Quirks) (queue : Queue r busy idle) :
    Queue (handOverFailed q r) busy idle := by
  have shape := queue.shape.linkGiven (sameLink_handed q r.type (r.trb r.enqueue))
  refine queue.edit ?_ rfl rfl rfl rfl rfl
  exact shape.edit rfl rfl rfl rfl (fun _ _ => rfl) (fun _ _ _ => ⟨rfl, rfl⟩)

theorem handOver_eq (q : Quirks) (status : Int) {r : Ring} {lap : List TrbPtr} (shape : Shape r lap)
    (member : r.enqueue ∈ lap) (onLink : r.enqueue.idx = 63) (fuel : Nat) :
    handOver q status (fuel + 1) r =
      if ehubCacheRing r.type = true ∧ status < 0 then (status, handOverFailed q r) else (0, handedOver q r) := by
  have notEvent := shape.notEvent
  have here : r.lastTrb r.enqueue = true := by simp [shape.lastTrb_eq member, onLink]
  have first : (⟨r.next r.enqueue.seg, 0⟩ : TrbPtr) ∈ lap := by
    obtain ⟨a, b, rfl⟩ := List.append_of_mem member
    have := shape.isLap.next_mem
    rwa [follow, if_pos onLink] at this
  have given : (r.modifyTrb r.enqueue (·.setChain (linkChained q r.type))).giveLink =
      handOverFailed q r := by
    rw [giveLink_eq _ (by simpa [modifyTrb] using notEvent)]
    simp [handOverFailed, linkGiven, handed, modifyTrb, setTrb, Segments.set, Segments.trb]
    funext s i
    split_ifs <;> rfl
  have stops : ∀ r' : Ring, r'.type = r.type → r'.enqueue = ⟨r.next r.enqueue.seg, 0⟩ →
      r'.trbs = (handOverFailed q r).trbs → handOver q status fuel r' = (0, r') := by
    intro r' type enqueue trbs
    have inner : r'.lastTrb r'.enqueue = false := by
      have plain := shape.lastTrb_eq first
      rw [lastTrb_isLink notEvent] at plain
      rw [lastTrb_isLink (by rw [type]; exact notEvent), enqueue]
      have same : r'.trb ⟨r.next r.enqueue.seg, 0⟩ = (r.setTrb r.enqueue (handed q r.type (r.trb r.enqueue))).trb
          ⟨r.next r.enqueue.seg, 0⟩ := by
        simp only [Segments.trb, trbs]
        rfl
      rw [same, trb_setTrb, if_neg, plain]
      · simp
      · intro same
        rw [← same] at onLink
        simp at onLink
    cases fuel <;> simp [handOver, inner]
  rw [handOver, if_pos here]
  simp only [given]
  by_cases cached : ehubCacheRing r.type = true
  · by_cases failed : status < 0
    · have : ehubCacheRing (handOverFailed q r).type = true := cached
      simp [this, failed, cached]
    · have : ehubCacheRing (handOverFailed q r).type = true := cached
      rw [if_pos this, if_neg failed, if_neg (by simp [failed])]
      refine (stops _ (by rfl) (by rfl) (by rfl)).trans ?_
      simp [handedOver, cached, handOverFailed, enqueueNextSeg, linkGiven, Segments.copy]
      rfl
  · have : ¬ehubCacheRing (handOverFailed q r).type = true := cached
    rw [if_neg this, if_neg (by simp [cached])]
    refine (stops _ (by rfl) (by rfl) (by rfl)).trans ?_
    simp [handedOver, cached, handOverFailed, enqueueNextSeg, linkGiven]

/-! ### Consuming -/

/-- The TRB behind `p` that is no link. -/
def skip (next : Addr → Addr) (p : TrbPtr) : TrbPtr :=
  if (follow next p).idx = 63 then follow next (follow next p) else follow next p

theorem Shape.follow_mem {r : Ring} {lap : List TrbPtr} (shape : Shape r lap) {p : TrbPtr} (member : p ∈ lap) :
    follow r.next p ∈ lap := by
  obtain ⟨a, b, rfl⟩ := List.append_of_mem member
  exact shape.isLap.next_mem

/-- `inc_deq` moves to the next TRB that is no link, and counts the one it leaves. -/
theorem incDeq_eq {r : Ring} {lap : List TrbPtr} (shape : Shape r lap) (member : r.dequeue ∈ lap) :
    r.incDeq = { r with
      numTrbsFree := r.numTrbsFree + (if r.dequeue.idx ≠ 63 then 1 else 0)
      dequeue := skip r.next r.dequeue } := by
  have notEvent := shape.notEvent
  have step : ∀ (n : Int) (fuel : Nat) (p : TrbPtr), p ∈ lap →
      incDeqLoop (fuel + 1) { r with numTrbsFree := n, dequeue := p } =
        if (follow r.next p).idx = 63 then
          incDeqLoop fuel { r with numTrbsFree := n, dequeue := follow r.next p }
        else { r with numTrbsFree := n, dequeue := follow r.next p } := by
    intro n fuel p inLap
    have here : Ring.lastTrb { r with numTrbsFree := n, dequeue := p } p = decide (p.idx = 63) :=
      shape.lastTrb_eq inLap
    have there : Ring.lastTrb { r with numTrbsFree := n, dequeue := follow r.next p } (follow r.next p) =
        decide ((follow r.next p).idx = 63) := shape.lastTrb_eq (shape.follow_mem inLap)
    rw [incDeqLoop]
    by_cases last : p.idx = 63
    · have moved : follow r.next p = ⟨r.next p.seg, 0⟩ := if_pos last
      rw [moved] at there ⊢
      simp [here, last, notEvent, there]
    · have moved : follow r.next p = ⟨p.seg, p.idx + 1⟩ := if_neg last
      rw [moved] at there ⊢
      simp [here, last, there]
  have counted : r.incDeq = incDeqLoop (r.numSegs + 2) { r with
      numTrbsFree := r.numTrbsFree + (if r.dequeue.idx ≠ 63 then 1 else 0), dequeue := r.dequeue } := by
    rw [Ring.incDeq]
    by_cases last : r.dequeue.idx = 63
    · simp [shape.lastTrb_eq member, last]
    · simp [shape.lastTrb_eq member, last, notEvent]
  rw [counted, step _ (r.numSegs + 1) _ member]
  by_cases onto : (follow r.next r.dequeue).idx = 63
  · -- The loop runs a second time, from the link to the first TRB of the next segment.
    have twice : (follow r.next (follow r.next r.dequeue)).idx ≠ 63 := by
      rw [follow, if_pos onto]
      simp
    rw [if_pos onto, step _ r.numSegs _ (shape.follow_mem member), if_neg twice, skip, if_pos onto]
  · rw [if_neg onto, skip, if_neg onto]

/-- The first busy TRBs become the last free ones. -/
theorem Queue.release {r r' : Ring} {front busy idle : List TrbPtr} (queue : Queue r (front ++ busy) idle)
    (segments : r'.toSegments = r.toSegments) (type : r'.type = r.type) (lastSeg : r'.lastSeg = r.lastSeg)
    (numSegs : r'.numSegs = r.numSegs) (enqueue : r'.enqueue = r.enqueue)
    (dequeue : (busy ++ idle).head? = some r'.dequeue ∨
      (busy = [] ∧ r.enqueue.idx = 63 ∧ r'.dequeue = follow r.next r.enqueue))
    (free : r'.numTrbsFree = r.numTrbsFree + nonlinks front) : Queue r' busy (idle ++ front) := by
  obtain ⟨rest, is_idle⟩ := queue.idle_eq
  refine ⟨?_, ?_, ?_, ?_⟩
  · have turned : Shape r ((busy ++ idle) ++ front) := by
      apply Shape.swap
      rw [← List.append_assoc]
      exact queue.shape
    rw [← List.append_assoc]
    refine turned.edit type (by rw [segments]) numSegs lastSeg ?_ ?_
    · intro p _
      rw [segments]
    · intro p _ _
      rw [segments]
      exact ⟨rfl, rfl⟩
  · rw [enqueue, is_idle]
    rfl
  · rw [enqueue, segments]
    refine dequeue.imp (fun inOrder => ?_) id
    rw [← inOrder, is_idle]
    cases busy <;> rfl
  · have old := queue.free
    rw [free, numSegs]
    rw [nonlinks_append] at old
    push_cast at old
    omega

theorem Queue.first_busy {r : Ring} {busy idle : List TrbPtr} {x : TrbPtr} (queue : Queue r (x :: busy) idle) :
    x = r.dequeue := by
  rcases queue.dequeue with inOrder | ⟨nothing, _⟩
  · simpa using inOrder
  · simp at nothing

/-- `inc_deq` releases the first busy TRB with the link behind it, if that is busy
    too. -/
theorem Queue.incDeq {r : Ring} {busy idle : List TrbPtr} {x : TrbPtr} (queue : Queue r (x :: busy) idle) :
    ∃ links rest, busy = links ++ rest ∧ (∀ p ∈ links, p.idx = 63) ∧ Queue r.incDeq rest (idle ++ x :: links) := by
  have is_x := queue.first_busy
  have member : r.dequeue ∈ x :: busy ++ idle := by simp [is_x]
  have eq := incDeq_eq queue.shape member
  have counted : (nonlinks [x] : Int) = if r.dequeue.idx ≠ 63 then 1 else 0 := by
    rw [nonlinks_cons, ← is_x]
    split_ifs <;> simp
  obtain ⟨rest, is_idle⟩ := queue.idle_eq
  have step : (busy ++ idle ++ [x]).head? = some (follow r.next x) := by
    have := IsLap.next_eq (show IsLap (follow r.next) ([] ++ x :: (busy ++ idle)) from queue.shape.isLap)
    simpa using this
  have second : (busy ++ idle).head? = some (follow r.next x) := by
    rw [← step, is_idle]
    cases busy <;> rfl
  by_cases onto : (follow r.next x).idx = 63
  · have skipped : skip r.next r.dequeue = follow r.next (follow r.next x) := by rw [skip, ← is_x, if_pos onto]
    cases busy with
    | nil =>
      -- The link behind the last busy TRB is the one `enqueue` rests on.
      have onEnqueue : follow r.next x = r.enqueue := by
        rw [is_idle] at second
        simpa using second.symm
      refine ⟨[], [], rfl, by simp, ?_⟩
      refine Queue.release (show Queue r ([x] ++ []) idle from queue) (by rw [eq]) (by rw [eq]) (by rw [eq])
        (by rw [eq]) (by rw [eq]) (.inr ?_) (by rw [eq, counted])
      refine ⟨rfl, onEnqueue ▸ onto, ?_⟩
      rw [eq, ← onEnqueue]
      exact skipped
    | cons l busy =>
      have is_l : follow r.next x = l := by simpa using second.symm
      have third : (busy ++ idle).head? = some (follow r.next l) := by
        have := IsLap.next_eq (show IsLap (follow r.next) ([x] ++ l :: (busy ++ idle)) from queue.shape.isLap)
        rw [← this, is_idle]
        cases busy <;> rfl
      have one : Queue { r.incDeq with dequeue := l } (l :: busy) (idle ++ [x]) := by
        refine Queue.release (show Queue r ([x] ++ l :: busy) idle from queue) (by rw [eq]) (by rw [eq]) (by rw [eq])
          (by rw [eq]) (by rw [eq]) (.inl (by simp)) (by rw [eq, counted])
      have two : Queue r.incDeq busy (idle ++ [x] ++ [l]) := by
        refine Queue.release (show Queue { r.incDeq with dequeue := l } ([l] ++ busy) (idle ++ [x]) from one)
          rfl rfl rfl rfl rfl (.inl ?_) ?_
        · rw [eq, skipped, is_l, ← List.append_assoc, List.head?_append, third]
          rfl
        · simp [nonlinks_cons, ← is_l, onto]
      refine ⟨[l], busy, rfl, ?_, ?_⟩
      · intro p member
        rw [List.mem_singleton.mp member, ← is_l]
        exact onto
      · rw [List.append_assoc] at two
        exact two
  · have skipped : skip r.next r.dequeue = follow r.next x := by rw [skip, ← is_x, if_neg onto]
    refine ⟨[], busy, rfl, by simp, ?_⟩
    refine Queue.release (show Queue r ([x] ++ busy) idle from queue) (by rw [eq]) (by rw [eq]) (by rw [eq])
      (by rw [eq]) (by rw [eq]) (.inl ?_) (by rw [eq, counted])
    rw [second, eq, skipped]

/-- The loop of `update_ring_for_set_deq_completion` gets from a TRB that is no link to
    the queued pointer, and counts the TRBs that are no links on the way. -/
theorem setDeqLoop_eq {r : Ring} {start target : TrbPtr} {rest : List TrbPtr} (fuel : Nat) :
    ∀ (before front : List TrbPtr) (n : Int) (p : TrbPtr), Shape r (before ++ (front ++ target :: rest)) →
      (front ++ [target]).head? = some p → (front ≠ [] → p.idx ≠ 63) → start ∉ (front ++ [target]).tail →
      front.length < fuel →
      setDeqLoop target start fuel { r with numTrbsFree := n, dequeue := p } =
        ({ r with numTrbsFree := n + nonlinks front, dequeue := target }, false) := by
  induction fuel with
  | zero => simp
  | succ fuel ih =>
    intro before front n p shape first inner away room
    cases front with
    | nil =>
      have : p = target := by simpa using first.symm
      simp [setDeqLoop, this]
    | cons x front =>
      have is_x : x = p := by simpa using first
      subst is_x
      have inner' : x.idx ≠ 63 := inner (by simp)
      have distinct := shape.isLap.1
      have notYet : x ≠ target := by
        rintro rfl
        simp [List.nodup_append] at distinct
      have moved : follow r.next x = ⟨x.seg, x.idx + 1⟩ := if_neg inner'
      have step : (front ++ [target]).head? = some ⟨x.seg, x.idx + 1⟩ := by
        have := IsLap.next_eq (show IsLap (follow r.next) (before ++ x :: (front ++ target :: rest)) from shape.isLap)
        rw [← moved, ← this]
        cases front <;> simp
      have inLap : (⟨x.seg, x.idx + 1⟩ : TrbPtr) ∈ before ++ (x :: front ++ target :: rest) := by
        rw [← moved]
        exact shape.follow_mem (by simp)
      have link : Ring.lastTrb { r with numTrbsFree := n + 1, dequeue := ⟨x.seg, x.idx + 1⟩ } ⟨x.seg, x.idx + 1⟩ =
          decide (x.idx = 62) := by
        have := shape.lastTrb_eq inLap
        simp at this
        exact this
      rw [setDeqLoop, if_neg notYet]
      by_cases onto : x.idx = 62
      · cases front with
        | nil =>
          -- The link is the queued pointer itself.
          have is_target : target = ⟨x.seg, x.idx + 1⟩ := by simpa using step
          have onLink : decide (x.idx = 62) = true := by simp [onto]
          refine (if_pos ⟨link.trans onLink, is_target.symm⟩).trans ?_
          simp only [← is_target, nonlinks_cons, nonlinks_nil, if_pos inner']
          rfl
        | cons l front =>
          have is_l : l = ⟨x.seg, x.idx + 1⟩ := by simpa using step
          have notTarget : (⟨x.seg, x.idx + 1⟩ : TrbPtr) ≠ target := by
            rw [← is_l]
            rintro rfl
            simp [List.nodup_append] at distinct
          have beyond : follow r.next l = ⟨r.next x.seg, 0⟩ := by simp [follow, is_l, onto]
          have step' : (front ++ [target]).head? = some ⟨r.next x.seg, 0⟩ := by
            have turned : IsLap (follow r.next) ((before ++ [x]) ++ l :: (front ++ target :: rest)) := by
              simpa using shape.isLap
            rw [← beyond, ← turned.next_eq]
            cases front <;> simp
          have notStart : (⟨r.next x.seg, 0⟩ : TrbPtr) ≠ start := by
            rintro rfl
            apply away
            have := List.mem_of_mem_head? (Option.mem_def.mpr step')
            simpa using Or.inr this
          have rest_eq := ih (before ++ [x, l]) front (n + 1) ⟨r.next x.seg, 0⟩ (by simpa using shape) step'
            (by simp) (by
              intro member
              apply away
              have := List.mem_of_mem_tail member
              simpa using Or.inr this) (by simp at room; omega)
          have onLink : decide (x.idx = 62) = true := by simp [onto]
          refine (if_neg fun h => notTarget h.2).trans ?_
          simp only [if_pos (link.trans onLink)]
          rw [if_neg notStart, rest_eq]
          simp [nonlinks_cons, is_l, onto]
          omega
      · have notStart : (⟨x.seg, x.idx + 1⟩ : TrbPtr) ≠ start := by
          rintro rfl
          apply away
          have := List.mem_of_mem_head? (Option.mem_def.mpr step)
          simpa using this
        have rest_eq := ih (before ++ [x]) front (n + 1) ⟨x.seg, x.idx + 1⟩ (by simpa using shape) step
          (fun _ => by simpa using onto) (by
            intro member
            apply away
            have := List.mem_of_mem_tail member
            simpa using this) (by simp at room; omega)
        have notLink : decide (x.idx = 62) = false := by simp [onto]
        simp only [link.trans notLink, Bool.false_eq_true, false_and, if_false]
        rw [if_neg notStart, rest_eq]
        simp [nonlinks_cons, inner']
        omega

/-- A completed Set TR Dequeue Pointer releases the TRBs before the queued pointer. -/
theorem Queue.setDeq {r : Ring} {front back idle : List TrbPtr} {target : TrbPtr}
    (queue : Queue r (front ++ back) idle) (moves : front ≠ []) (there : (back ++ idle).head? = some target) :
    r.updateRingForSetDeqCompletion target =
        { r with numTrbsFree := r.numTrbsFree + nonlinks front, dequeue := target } ∧
      Queue (r.updateRingForSetDeqCompletion target) back (idle ++ front) := by
  obtain ⟨rest, split⟩ := List.head?_eq_some_iff.mp there
  obtain ⟨x, front, rfl⟩ := List.exists_cons_of_ne_nil moves
  have is_x : x = r.dequeue := queue.first_busy
  have shape : Shape r (x :: (front ++ target :: rest)) := by
    have := queue.shape
    rwa [List.append_assoc, split] at this
  have fits : (x :: front).length < 64 * r.numSegs + 1 := by
    have := shape.size
    simp at this ⊢
    omega
  have distinct := shape.isLap.1
  have away : x ∉ front ++ [target] := by
    simp [List.nodup_cons] at distinct ⊢
    tauto
  have loop : r.updateRingForSetDeqCompletion target =
      { r with numTrbsFree := r.numTrbsFree + nonlinks (x :: front), dequeue := target } := by
    have member : r.dequeue ∈ x :: (front ++ target :: rest) := by simp [is_x]
    rw [updateRingForSetDeqCompletion, shape.lastTrb_eq member, trbsPerSegment]
    by_cases onLink : r.dequeue.idx = 63
    · have step : (front ++ [target]).head? = some ⟨r.next r.dequeue.seg, 0⟩ := by
        have := IsLap.next_eq (show IsLap (follow r.next) ([] ++ x :: (front ++ target :: rest)) from shape.isLap)
        rw [follow, is_x, if_pos onLink] at this
        rw [← this]
        cases front <;> simp
      have moved := setDeqLoop_eq (64 * r.numSegs + 1) [x] front r.numTrbsFree ⟨r.next r.dequeue.seg, 0⟩
        (show Shape r ([x] ++ (front ++ target :: rest)) from shape) step (by simp)
        (fun member => away (List.mem_of_mem_tail member)) (by simp at fits; omega)
      rw [is_x] at moved
      simp only [onLink, decide_true, if_true]
      rw [moved]
      simp [nonlinks_cons, is_x, onLink]
    · have moved := setDeqLoop_eq (64 * r.numSegs + 1) [] (x :: front) r.numTrbsFree r.dequeue
        (show Shape r ([] ++ (x :: front ++ target :: rest)) from shape) (by simp [is_x]) (fun _ => onLink)
        (show x ∉ (x :: front ++ [target]).tail from away) fits
      rw [is_x] at moved ⊢
      simp only [onLink, decide_false, Bool.false_eq_true, if_false]
      rw [moved]
  refine ⟨loop, ?_⟩
  refine queue.release (by rw [loop]) (by rw [loop]) (by rw [loop]) (by rw [loop]) (by rw [loop]) (.inl ?_)
    (by rw [loop])
  rw [there, loop]

end Ehub.RingShape
