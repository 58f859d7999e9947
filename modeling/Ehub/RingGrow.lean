import Mathlib
import Ehub.RingShape

/-!
New segments. `xhci_alloc_segments_for_ring` makes a circle of fresh segments
(`Circle`); `xhci_ring_alloc` makes it a ring, and `xhci_link_rings` opens it and puts
it into a ring behind the segment of `enqueue` (`Expanded`). Each comes with the lap
it leads to.
-/
namespace Ehub.RingShape
open Ehub.Lap Ehub.Segments Ehub.Ring

/-- The link TRB of a segment once `xhci_link_segments` has pointed it to `next`. -/
def joined (q : Quirks) (type : RingType) (next : Addr) (t : Trb) : Trb :=
  if linkChained q type then ((t.setSegmentPtr next).setLinkType).setChain true
  else (t.setSegmentPtr next).setLinkType

section
variable (q : Quirks) (type : RingType) (next : Addr) (t : Trb)

@[simp] theorem isLink_joined : (joined q type next t).isLink = true := by
  simp only [joined]
  split_ifs <;> simp

@[simp] theorem segmentPtr_joined : (joined q type next t).segmentPtr = next := by
  simp only [joined]
  split_ifs <;> simp

@[simp] theorem toggle_joined : (joined q type next t).toggle = t.toggle := by
  simp only [joined]
  split_ifs <;> simp

@[simp] theorem cycle_joined : (joined q type next t).cycle = t.cycle := by
  simp only [joined]
  split_ifs <;> simp

end

theorem linkSegments_trb (q : Quirks) {type : RingType} (notEvent : type ≠ .event) (m : Segments) (prev next : Addr)
    (write : CacheWrite) (p : TrbPtr) : (linkSegments q type m prev next write).trb p =
      if p = link prev then joined q type next (m.trb (link prev)) else m.trb p := by
  have written : ∀ m' : Segments, m'.trbs = m.trbs → ((if ehubCacheRing type = true ∧ write = .accepted then
      (m'.set (link prev) (joined q type next (m.trb (link prev)))).copy (link prev)
      else m'.set (link prev) (joined q type next (m.trb (link prev)))).trb p) =
        if p = link prev then joined q type next (m.trb (link prev)) else m.trb p := by
    intro m' same
    have read : m'.trb p = m.trb p := by simp only [Segments.trb, same]
    split_ifs with cached here here
    · exact (trb_set (link prev) p _ m').trans (if_pos here)
    · exact ((trb_set (link prev) p _ m').trans (if_neg here)).trans read
    · exact (trb_set (link prev) p _ m').trans (if_pos here)
    · exact ((trb_set (link prev) p _ m').trans (if_neg here)).trans read
  rw [linkSegments]
  simp only [notEvent, if_false]
  exact written _ rfl

theorem linkSegments_next (q : Quirks) (type : RingType) (m : Segments) (prev next : Addr) (write : CacheWrite) :
    (linkSegments q type m prev next write).next = fun s => if s = prev then next else m.next s := by
  rw [linkSegments]
  split_ifs <;> rfl

theorem linkSegments_cache (q : Quirks) (type : RingType) (m : Segments) (prev next : Addr) (write : CacheWrite)
    {s : Addr} (other : s ≠ prev) : (linkSegments q type m prev next write).cache s = m.cache s := by
  by_cases event : type = .event
  · simp only [linkSegments, event, if_true]
  · by_cases cached : ehubCacheRing type = true ∧ write = .accepted
    · simp only [linkSegments, event, cached, if_false]
      funext i
      simp [Segments.copy, Segments.set, link, other]
    · simp only [linkSegments, event, cached, if_false]
      rfl

/-- The link TRB of `s` leads to the next segment and has not been handed over by a
    producer with this cycle state. -/
structure Linked (m : Segments) (cycleState : Bool) (s : Addr) : Prop where
  isLink : (m.trb (link s)).isLink = true
  segmentPtr : (m.trb (link s)).segmentPtr = m.next s
  cycle : (m.trb (link s)).cycle = !cycleState

theorem cycle_freshTrb (cycleState : Bool) : (freshTrb cycleState).cycle = !cycleState := by
  cases cycleState <;> decide

theorem toggle_freshTrb (cycleState : Bool) : (freshTrb cycleState).toggle = false := by
  cases cycleState <;> decide

theorem isLink_freshTrb (cycleState : Bool) : (freshTrb cycleState).isLink = false := by
  cases cycleState <;> decide

/-- `m'` is `m` with new segments, each linked to the next one but for the last. -/
structure Row (m m' : Segments) (cycleState : Bool) (segs : List Addr) (last : Addr) : Prop where
  last_eq : segs.getLast? = some last
  others : ∀ s ∉ segs, m'.trbs s = m.trbs s ∧ m'.next s = m.next s ∧ m'.cache s = m.cache s
  inner : ∀ s ∈ segs, ∀ i ≠ 63, m'.trbs s i = freshTrb cycleState
  links : ∀ s ∈ segs, s ≠ last → Linked m' cycleState s ∧ (m'.trb (link s)).toggle = false
  lastTrb : m'.trb (link last) = freshTrb cycleState
  chain : List.IsChain (fun a b => m'.next a = b) segs

/-- A link that is followed by a fresh segment. -/
theorem linked_joined {q : Quirks} {type : RingType} (notEvent : type ≠ .event) {m : Segments} {cycleState : Bool}
    {prev : Addr} (next : Addr) (write : CacheWrite) (fresh : m.trb (link prev) = freshTrb cycleState) :
    Linked (linkSegments q type m prev next write) cycleState prev ∧
      ((linkSegments q type m prev next write).trb (link prev)).toggle = false := by
  have trb := linkSegments_trb q notEvent m prev next write (link prev)
  rw [if_pos rfl, fresh] at trb
  refine ⟨⟨?_, ?_, ?_⟩, ?_⟩
  · rw [trb, isLink_joined]
  · rw [trb, segmentPtr_joined, linkSegments_next]
    simp
  · rw [trb, cycle_joined, cycle_freshTrb]
  · rw [trb, toggle_joined, toggle_freshTrb]

theorem allocRest_row {q : Quirks} {type : RingType} (notEvent : type ≠ .event) {cycleState : Bool}
    {write : Nat → CacheWrite} : ∀ (segs : List Addr) (i : Nat) (prev last : Addr) (m m' : Segments),
      (prev :: segs).Nodup → (∀ i, m.trbs prev i = freshTrb cycleState) →
      allocRest q type cycleState write i prev segs m = some (m', last) → Row m m' cycleState (prev :: segs) last := by
  intro segs
  induction segs with
  | nil =>
    intro i prev last m m' _ fresh result
    simp only [allocRest, Option.some.injEq, Prod.mk.injEq] at result
    obtain ⟨rfl, rfl⟩ := result
    refine ⟨rfl, fun _ _ => ⟨rfl, rfl, rfl⟩, ?_, ?_, fresh _, List.isChain_singleton _⟩
    · intro s member i _
      rw [List.mem_singleton.mp member]
      exact fresh i
    · intro s member other
      exact absurd (List.mem_singleton.mp member) other
  | cons next segs ih =>
    intro i prev last m m' distinct fresh result
    rw [allocRest] at result
    split_ifs at result with failed
    obtain ⟨notIn, distinct'⟩ := List.nodup_cons.mp distinct
    have different : prev ≠ next := fun same => notIn (by simp [same])
    set m1 := linkSegments q type (m.segmentAlloc type cycleState next) prev next (write i) with is_m1
    have read : ∀ p, m1.trb p = if p = link prev then
        joined q type next ((m.segmentAlloc type cycleState next).trb (link prev)) else
        (m.segmentAlloc type cycleState next).trb p := linkSegments_trb q notEvent _ prev next (write i)
    have freshNext : ∀ i, m1.trbs next i = freshTrb cycleState := by
      intro i
      have := read ⟨next, i⟩
      rw [if_neg (by simp [link, different.symm])] at this
      simpa [Segments.trb, Segments.segmentAlloc] using this
    have row := ih (i + 1) next last m1 m' distinct' freshNext result
    obtain ⟨trbs, nextPrev, _⟩ := row.others prev notIn
    have freshLink : (m.segmentAlloc type cycleState next).trb (link prev) = freshTrb cycleState := by
      simp [Segments.trb, Segments.segmentAlloc, link, fresh, different]
    have linked := linked_joined (q := q) notEvent next (write i) freshLink
    have sameLink : m'.trb (link prev) = m1.trb (link prev) := by simp only [Segments.trb, link, trbs]
    have lastIn : last ∈ next :: segs := List.mem_of_getLast? row.last_eq
    refine ⟨?_, ?_, ?_, ?_, row.lastTrb, ?_⟩
    · rw [List.getLast?_cons_cons]
      exact row.last_eq
    · intro s outside
      obtain ⟨notPrev, notNext⟩ := not_or.mp (mt List.mem_cons.mpr outside)
      obtain ⟨trbs, next_eq, cache⟩ := row.others s notNext
      have notNext' : s ≠ next := fun same => notNext (by simp [same])
      refine ⟨?_, ?_, ?_⟩
      · rw [trbs]
        funext i
        have := read ⟨s, i⟩
        rw [if_neg (by simp [link, notPrev])] at this
        simpa [Segments.trb, Segments.segmentAlloc, notNext'] using this
      · rw [next_eq, is_m1, linkSegments_next]
        simp [notPrev, Segments.segmentAlloc]
      · rw [cache, is_m1, linkSegments_cache q type _ prev next _ notPrev]
        funext i
        simp [Segments.segmentAlloc, notNext']
    · intro s member i notLast
      rcases List.mem_cons.mp member with rfl | member
      · rw [trbs]
        have := read ⟨s, i⟩
        rw [if_neg (by simpa [link, trbsPerSegment] using notLast)] at this
        simpa [Segments.trb, Segments.segmentAlloc, different, fresh] using this
      · exact row.inner s member i notLast
    · intro s member notLast
      rcases List.mem_cons.mp member with rfl | member
      · obtain ⟨⟨isLink, ptr, cycle⟩, toggle⟩ := linked
        rw [← is_m1] at isLink ptr cycle toggle
        refine ⟨⟨?_, ?_, ?_⟩, ?_⟩
        · rw [sameLink, isLink]
        · rw [sameLink, ptr, nextPrev]
        · rw [sameLink, cycle]
        · rw [sameLink, toggle]
      · exact row.links s member notLast
    · refine List.isChain_cons_cons.mpr ⟨?_, row.chain⟩
      rw [nextPrev, is_m1, linkSegments_next]
      simp

/-- `m'` is `m` with new segments, linked in a circle. -/
structure Circle (m m' : Segments) (cycleState : Bool) (segs : List Addr) (first last : Addr) : Prop where
  first_eq : segs.head? = some first
  last_eq : segs.getLast? = some last
  others : ∀ s ∉ segs, m'.trbs s = m.trbs s ∧ m'.next s = m.next s ∧ m'.cache s = m.cache s
  inner : ∀ s ∈ segs, ∀ i ≠ 63, m'.trbs s i = freshTrb cycleState
  links : ∀ s ∈ segs, Linked m' cycleState s ∧ (m'.trb (link s)).toggle = false
  chain : List.IsChain (fun a b => m'.next a = b) (segs ++ [first])

theorem allocSegments_circle {q : Quirks} {type : RingType} (notEvent : type ≠ .event) {cycleState : Bool}
    {write : Nat → CacheWrite} {segs : List Addr} {m m' : Segments} {first last : Addr} (distinct : segs.Nodup)
    (result : allocSegmentsForRing q type cycleState write segs m = some (m', first, last)) :
    Circle m m' cycleState segs first last := by
  cases segs with
  | nil => simp [allocSegmentsForRing] at result
  | cons s segs =>
    rw [allocSegmentsForRing] at result
    cases rest : allocRest q type cycleState write 0 s segs (m.segmentAlloc type cycleState s) with
    | none => simp [rest] at result
    | some made =>
      obtain ⟨m1, last'⟩ := made
      simp only [rest, Option.some.injEq, Prod.mk.injEq] at result
      obtain ⟨rfl, rfl, rfl⟩ := result
      have row := allocRest_row notEvent segs 0 s last' (m.segmentAlloc type cycleState s) m1 distinct
        (by simp [Segments.segmentAlloc]) rest
      have lastIn : last' ∈ s :: segs := List.mem_of_getLast? row.last_eq
      have linked := linked_joined (q := q) notEvent s (write segs.length) row.lastTrb
      have read := linkSegments_trb q notEvent m1 last' s (write segs.length)
      have next := linkSegments_next q type m1 last' s (write segs.length)
      refine ⟨rfl, row.last_eq, ?_, ?_, ?_, ?_⟩
      · intro x outside
        have notLast : x ≠ last' := fun same => outside (same ▸ lastIn)
        have notFirst : x ≠ s := fun same => outside (by simp [same])
        obtain ⟨trbs, next_eq, cache⟩ := row.others x outside
        refine ⟨?_, ?_, ?_⟩
        · funext i
          have := read ⟨x, i⟩
          rw [if_neg (by simp [link, notLast])] at this
          simpa [Segments.trb, trbs, Segments.segmentAlloc, notFirst] using this
        · rw [next]
          simp [notLast, next_eq, Segments.segmentAlloc]
        · rw [linkSegments_cache q type m1 last' s _ notLast, cache]
          funext i
          simp [Segments.segmentAlloc, notFirst]
      · intro x member i notLink
        have := read ⟨x, i⟩
        rw [if_neg (by simp [link, trbsPerSegment, notLink])] at this
        exact this.trans (row.inner x member i notLink)
      · intro x member
        by_cases isLast : x = last'
        · rw [isLast]
          exact linked
        · obtain ⟨⟨isLink, ptr, cycle⟩, toggle⟩ := row.links x member isLast
          have same := read (link x)
          rw [if_neg (by simp [link, isLast])] at same
          refine ⟨⟨?_, ?_, ?_⟩, ?_⟩
          · rw [same, isLink]
          · rw [same, ptr, next]
            simp [isLast]
          · rw [same, cycle]
          · rw [same, toggle]
      · -- Inside the row the pointers are as before; the last one leads back.
        obtain ⟨front, is_front⟩ : ∃ front, s :: segs = front ++ [last'] := List.getLast?_eq_some_iff.mp row.last_eq
        have before : ∀ x ∈ front, x ≠ last' := by
          rintro x member rfl
          rw [is_front, List.nodup_append] at distinct
          exact distinct.2.2 x member x (by simp) rfl
        rw [is_front, next, List.append_assoc]
        have chain := row.chain
        rw [is_front] at chain
        refine List.isChain_append.mpr ⟨?_, ?_, ?_⟩
        · refine (List.isChain_append.mp chain).1.imp_of_mem_imp fun a b inFront _ step => ?_
          simpa [before a inFront] using step
        · simp
        · intro a member b member'
          have inFront : a ∈ front := List.mem_of_getLast? member
          have := (List.isChain_append.mp chain).2.2 a member b (by simpa using member')
          simpa [before a inFront] using this

/-! ### The lap of a row of segments -/

/-- The TRBs of segments, one segment after the other. -/
def laid (segs : List Addr) : List TrbPtr := segs.flatMap fun s => run s 0 64

theorem laid_cons (s : Addr) (segs : List Addr) : laid (s :: segs) = run s 0 64 ++ laid segs := rfl

theorem mem_laid {segs : List Addr} {p : TrbPtr} : p ∈ laid segs ↔ p.seg ∈ segs ∧ p.idx < 64 := by
  simp only [laid, List.mem_flatMap]
  constructor
  · rintro ⟨s, member, inRun⟩
    obtain ⟨rfl, _, inside⟩ := mem_run inRun
    exact ⟨member, by omega⟩
  · rintro ⟨member, inside⟩
    exact ⟨p.seg, member, List.mem_map.mpr ⟨p.idx, List.mem_range.mpr inside, by simp⟩⟩

theorem length_laid (segs : List Addr) : (laid segs).length = 64 * segs.length := by
  induction segs with
  | nil => rfl
  | cons s segs ih =>
    rw [laid_cons, List.length_append, ih]
    simp [run]
    omega

theorem nonlinks_run_inner (s : Addr) (n : Nat) (inside : n ≤ 63) : nonlinks (run s 0 n) = n := by
  induction n with
  | zero => rfl
  | succ n ih =>
    have notLast : n ≠ 63 := by omega
    rw [run_succ, nonlinks_append, ih (by omega), nonlinks_cons]
    simp [notLast]

theorem nonlinks_laid (segs : List Addr) : nonlinks (laid segs) = 63 * segs.length := by
  induction segs with
  | nil => rfl
  | cons s segs ih =>
    have one : nonlinks (run s 0 64) = 63 := by
      rw [run_succ, nonlinks_append, nonlinks_run_inner s 63 le_rfl, nonlinks_cons]
      simp
    rw [laid_cons, nonlinks_append, ih, one]
    simp
    omega

theorem nodup_laid {segs : List Addr} (distinct : segs.Nodup) : (laid segs).Nodup := by
  refine List.nodup_flatMap.mpr ⟨?_, ?_⟩
  · intro s _
    refine List.Nodup.map ?_ List.nodup_range
    intro i j same
    simpa using same
  · refine distinct.imp ?_
    intro s s' different p inS inS'
    exact different ((mem_run inS).1.symm.trans (mem_run inS').1)

theorem chain_run {next : Addr → Addr} (s : Addr) (n : Nat) (inside : n ≤ 64) :
    List.IsChain (fun p q => follow next p = q) (run s 0 n) := by
  induction n with
  | zero => simp [run]
  | succ n ih =>
    rw [run_succ]
    refine List.isChain_append.mpr ⟨ih (by omega), List.isChain_singleton _, ?_⟩
    intro p member p' member'
    cases n with
    | zero => simp [run] at member
    | succ n =>
      rw [run_succ] at member
      simp at member member'
      subst member member'
      have notLast : n ≠ 63 := by omega
      simp [follow, notLast]

/-- Segments linked in a row are laid out in a row. -/
theorem chain_laid {next : Addr → Addr} {z : Addr} : ∀ {segs : List Addr},
    List.IsChain (fun a b => next a = b) (segs ++ [z]) →
      List.IsChain (fun p q => follow next p = q) (laid segs ++ [⟨z, 0⟩]) := by
  intro segs
  induction segs with
  | nil => simp [laid]
  | cons s segs ih =>
    intro chain
    have tail := ih chain.tail
    rw [laid_cons, List.append_assoc]
    refine List.isChain_append.mpr ⟨chain_run s 64 le_rfl, tail, ?_⟩
    intro p member p' member'
    rw [run_succ] at member
    simp at member
    subst member
    have step : p' = ⟨next s, 0⟩ := by
      cases segs with
      | nil =>
        simp [laid] at member'
        have := (List.isChain_cons_cons.mp chain).1
        rw [← member', ← this]
      | cons s' segs =>
        have := (List.isChain_cons_cons.mp chain).1
        rw [laid_cons] at member'
        simp [run, List.range_succ_eq_map] at member'
        rw [← member', this]
    simp [follow, step]

theorem isLap_laid {next : Addr → Addr} {segs : List Addr} {first : Addr} (distinct : segs.Nodup)
    (first_eq : segs.head? = some first) (chain : List.IsChain (fun a b => next a = b) (segs ++ [first])) :
    IsLap (follow next) (laid segs) := by
  refine ⟨nodup_laid distinct, ?_⟩
  obtain ⟨rest, rfl⟩ := List.head?_eq_some_iff.mp first_eq
  have closed := chain_laid chain
  have head : ∃ more, laid (first :: rest) = ⟨first, 0⟩ :: more := by
    simp [laid_cons, run, List.range_succ_eq_map]
  obtain ⟨more, is_more⟩ := head
  rw [is_more] at closed ⊢
  rw [Cycle.chain_coe_cons]
  exact closed

theorem laid_last {segs : List Addr} {last : Addr} (last_eq : segs.getLast? = some last) :
    ∃ init, laid segs = (laid init ++ run last 0 63) ++ [link last] := by
  obtain ⟨init, is_segs⟩ := List.getLast?_eq_some_iff.mp last_eq
  refine ⟨init, ?_⟩
  rw [is_segs, laid, List.flatMap_append, List.flatMap_singleton, run_succ, ← List.append_assoc]
  rfl

/-- A new ring is an empty queue on its segments. -/
theorem queue_ringAlloc {q : Quirks} {numSegs : Nat} {cycleState : Bool} {type : RingType} {answers : Answers} {r : Ring}
    (notEvent : type ≠ .event) (distinct : answers.segs.Nodup)
    (made : ringAlloc q numSegs cycleState type answers = some r) :
    Queue r [] (laid (answers.segs.take numSegs)) ∧ r.type = type ∧ r.cycleState = cycleState ∧
      r.dequeue = r.enqueue ∧ r.cacheEnqueue = r.enqueue ∧ r.enqueue.idx = 0 ∧
      (answers.segs.take numSegs).getLast? = some r.lastSeg ∧
      ∀ p ∈ laid (answers.segs.take numSegs), (r.trb p).cycle = !cycleState := by
  rw [ringAlloc] at made
  split_ifs at made with short
  set segs := answers.segs.take numSegs with is_segs
  have distinct' : segs.Nodup := distinct.sublist (List.take_sublist _ _)
  have many : segs.length = numSegs := by
    rw [is_segs, List.length_take]
    omega
  cases result : allocSegmentsForRing q type cycleState answers.write segs ⟨fun _ _ => .zero, id, fun _ _ => .zero⟩ with
  | none => simp [result] at made
  | some parts =>
    obtain ⟨m, first, last⟩ := parts
    simp only [result, Option.some.injEq] at made
    have circle := allocSegments_circle notEvent distinct' result
    set m' := m.set (link last) ((m.trb (link last)).setToggle true) with is_m'
    have toSegments : r.toSegments = m' := by rw [← made]; rfl
    have read : ∀ p, r.trb p = if p = link last then (m.trb (link last)).setToggle true else m.trb p := by
      intro p
      rw [toSegments, is_m']
      exact trb_set (link last) p _ m
    have next : r.next = m.next := by rw [toSegments]; rfl
    have type_eq : r.type = type := by rw [← made]; rfl
    have numSegs_eq : r.numSegs = numSegs := by rw [← made]; rfl
    have lastSeg : r.lastSeg = last := by rw [← made]; rfl
    have enqueue : r.enqueue = ⟨first, 0⟩ := by rw [← made]; rfl
    have dequeue : r.dequeue = ⟨first, 0⟩ := by rw [← made]; rfl
    have free : r.numTrbsFree = numSegs * (64 - 1) - 1 := by rw [← made]; rfl
    have isLink : ∀ p, p.seg ∈ segs → p.idx = 63 → p = link p.seg := by
      intro p _ onLink
      simp [link, trbsPerSegment, ← onLink]
    have start : (laid segs).head? = some ⟨first, 0⟩ := by
      obtain ⟨rest, is_rest⟩ := List.head?_eq_some_iff.mp circle.first_eq
      rw [is_rest]
      simp [laid_cons, run, List.range_succ_eq_map]
    have shape : Shape r (laid segs) := by
      refine ⟨type_eq ▸ notEvent, ?_, ?_, ?_, ?_, ?_, ?_, ?_, ?_⟩
      · rw [next]
        exact isLap_laid distinct' circle.first_eq circle.chain
      · exact fun p member => (mem_laid.mp member).2
      · intro p member
        obtain ⟨inSegs, _⟩ := mem_laid.mp member
        by_cases onLink : p.idx = 63
        · have linked := (circle.links p.seg inSegs).1.isLink
          rw [← isLink p inSegs onLink] at linked
          rw [read]
          split_ifs with isLast
          · rw [← isLast, Trb.isLink_setToggle, linked]
            simp [onLink]
          · simp [linked, onLink]
        · have plain : m.trb p = freshTrb cycleState := circle.inner p.seg inSegs p.idx onLink
          rw [read, if_neg (fun same => onLink (by simp [same, link, trbsPerSegment])), plain, isLink_freshTrb]
          simp [onLink]
      · intro p member onLink
        obtain ⟨inSegs, _⟩ := mem_laid.mp member
        have ptr := (circle.links p.seg inSegs).1.segmentPtr
        rw [← isLink p inSegs onLink] at ptr
        rw [read, next]
        split_ifs with isLast
        · rw [← isLast, Trb.segmentPtr_setToggle, ptr]
        · exact ptr
      · intro p member onLink
        obtain ⟨inSegs, _⟩ := mem_laid.mp member
        have toggle := (circle.links p.seg inSegs).2
        rw [← isLink p inSegs onLink] at toggle
        rw [read, lastSeg]
        split_ifs with isLast
        · simp [isLast, link]
        · rw [toggle]
          simp only [Bool.false_eq_true, false_iff]
          intro same
          apply isLast
          rw [isLink p inSegs onLink, same]
      · rw [lastSeg]
        exact mem_laid.mpr ⟨List.mem_of_getLast? circle.last_eq, by simp [link, trbsPerSegment]⟩
      · rw [length_laid, many, numSegs_eq]
      · rw [nonlinks_laid, many, numSegs_eq]
    refine ⟨⟨shape, ?_, .inl ?_, ?_⟩, type_eq, ?_, ?_, ?_, ?_, ?_, ?_⟩
    · rw [start, enqueue]
    · rw [List.nil_append, start, dequeue]
    · rw [free, numSegs_eq]
      simp
      omega
    · rw [← made]
      rfl
    · rw [dequeue, enqueue]
    · rw [← made]
      rfl
    · rw [enqueue]
    · rw [lastSeg]
      exact circle.last_eq
    · intro p member
      obtain ⟨inSegs, _⟩ := mem_laid.mp member
      by_cases onLink : p.idx = 63
      · have cycle := (circle.links p.seg inSegs).1.cycle
        rw [← isLink p inSegs onLink] at cycle
        rw [read]
        split_ifs with isLast
        · rw [← isLast, Trb.cycle_setToggle, cycle]
        · exact cycle
      · have plain : m.trb p = freshTrb cycleState := circle.inner p.seg inSegs p.idx onLink
        rw [read, if_neg (fun same => onLink (by simp [same, link, trbsPerSegment])), plain, cycle_freshTrb]

/-! ### Expansion -/

/-- `r'` is `r` with new segments behind the segment of `enqueue`. The last new link
    toggles in place of the one that did if that one was in front of it. -/
structure Expanded (r r' : Ring) (segs : List Addr) (last : Addr) : Prop where
  last_eq : segs.getLast? = some last
  type : r'.type = r.type
  enqueue : r'.enqueue = r.enqueue
  dequeue : r'.dequeue = r.dequeue
  cacheEnqueue : r'.cacheEnqueue = r.cacheEnqueue
  cycleState : r'.cycleState = r.cycleState
  numSegs : r'.numSegs = r.numSegs + segs.length
  free : r'.numTrbsFree = r.numTrbsFree + 63 * segs.length
  lastSeg : r'.lastSeg = if r.enqueue.seg = r.lastSeg then last else r.lastSeg
  chain : List.IsChain (fun a b => r'.next a = b) (r.enqueue.seg :: (segs ++ [r.next r.enqueue.seg]))
  nextOther : ∀ s ∉ segs, s ≠ r.enqueue.seg → r'.next s = r.next s
  trbOther : ∀ p, p.seg ∉ segs → p ≠ link r.enqueue.seg → r'.trb p = r.trb p
  cacheOther : ∀ s ∉ segs, s ≠ r.enqueue.seg → r'.cache s = r.cache s
  enqLink : (r'.trb (link r.enqueue.seg)).isLink = true ∧
    (r'.trb (link r.enqueue.seg)).segmentPtr = r'.next r.enqueue.seg ∧
    (r'.trb (link r.enqueue.seg)).cycle = (r.trb (link r.enqueue.seg)).cycle ∧
    ((r'.trb (link r.enqueue.seg)).toggle = true ↔
      (r.trb (link r.enqueue.seg)).toggle = true ∧ r.enqueue.seg ≠ r.lastSeg)
  inner : ∀ s ∈ segs, ∀ i ≠ 63, r'.trbs s i = freshTrb r.cycleState
  links : ∀ s ∈ segs, Linked r'.toSegments r.cycleState s ∧
    ((r'.trb (link s)).toggle = true ↔ s = last ∧ r.enqueue.seg = r.lastSeg)

/-- The two links that `xhci_link_rings` writes, before it moves the toggle. -/
theorem linkSegments_twice (q : Quirks) {type : RingType} (notEvent : type ≠ .event) (m : Segments)
    {s last : Addr} (different : last ≠ s) (first next : Addr) (write1 write2 : CacheWrite) (p : TrbPtr) :
    (linkSegments q type (linkSegments q type m s first write1) last next write2).trb p =
      if p = link last then joined q type next (m.trb (link last))
      else if p = link s then joined q type first (m.trb (link s)) else m.trb p := by
  rw [linkSegments_trb q notEvent, linkSegments_trb q notEvent, linkSegments_trb q notEvent]
  rw [if_neg (show ¬link last = link s by simp [link, different])]

theorem ringExpansion_expanded {q : Quirks} {r r' : Ring} {numTrbs : Nat} {answers : Answers}
    (notEvent : r.type ≠ .event) (distinct : answers.segs.Nodup) (notEnqueue : r.enqueue.seg ∉ answers.segs)
    (written : answers.write (r.expansionSegs numTrbs) ≠ .error ∧ answers.write (r.expansionSegs numTrbs + 1) ≠ .error)
    (result : ringExpansion q r numTrbs answers = some r') :
    ∃ last, Expanded r r' (answers.segs.take (r.expansionSegs numTrbs)) last := by
  rw [ringExpansion] at result
  split_ifs at result with short
  set segs := answers.segs.take (r.expansionSegs numTrbs) with is_segs
  have distinct' : segs.Nodup := distinct.sublist (List.take_sublist _ _)
  have many : segs.length = r.expansionSegs numTrbs := by
    rw [is_segs, List.length_take]
    omega
  have notIn : r.enqueue.seg ∉ segs := fun member => notEnqueue (List.mem_of_mem_take member)
  cases alloc : allocSegmentsForRing q r.type r.cycleState answers.write segs r.toSegments with
  | none => simp [alloc] at result
  | some parts =>
    obtain ⟨m, first, last⟩ := parts
    simp only [alloc, Option.some.injEq] at result
    have circle := allocSegments_circle notEvent distinct' alloc
    have lastIn : last ∈ segs := List.mem_of_getLast? circle.last_eq
    have different : last ≠ r.enqueue.seg := fun same => notIn (same ▸ lastIn)
    obtain ⟨oldTrbs, oldNext, oldCache⟩ := circle.others r.enqueue.seg notIn
    set m' := linkSegments q r.type (linkSegments q r.type m r.enqueue.seg first (answers.write (r.expansionSegs numTrbs)))
      last (m.next r.enqueue.seg) (answers.write (r.expansionSegs numTrbs + 1)) with is_m'
    have linked := linkSegments_twice q notEvent m different first (m.next r.enqueue.seg)
      (answers.write (r.expansionSegs numTrbs)) (answers.write (r.expansionSegs numTrbs + 1))
    rw [← is_m'] at linked
    have next' : m'.next = fun s => if s = last then r.next r.enqueue.seg else if s = r.enqueue.seg then first
        else m.next s := by
      rw [is_m', linkSegments_next, linkSegments_next, oldNext]
    have joinedRings : r' = { (if r.enqueue.seg = r.lastSeg then
          ({ r with toSegments := m' } : Ring).modifyTrb (link r.lastSeg) (·.setToggle false) |>.modifyTrb (link last) (·.setToggle true)
        else { r with toSegments := m' }) with
        numSegs := r.numSegs + r.expansionSegs numTrbs
        numTrbsFree := r.numTrbsFree + 63 * r.expansionSegs numTrbs
        lastSeg := if r.enqueue.seg = r.lastSeg then last else r.lastSeg } := by
      rw [← result, linkRings]
      simp only [if_neg written.1, if_neg written.2]
      by_cases inFront : r.enqueue.seg = r.lastSeg
      · rw [if_pos ⟨notEvent, inFront⟩, if_pos inFront, if_pos inFront]
        rfl
      · rw [if_neg fun h => inFront h.2, if_neg inFront, if_neg inFront]
        rfl
    have read : ∀ p, r'.trb p = if r.enqueue.seg = r.lastSeg then
        (if p = link last then (m'.trb (link last)).setToggle true
          else if p = link r.enqueue.seg then (m'.trb (link r.enqueue.seg)).setToggle false else m'.trb p)
        else m'.trb p := by
      intro p
      rw [joinedRings]
      by_cases inFront : r.enqueue.seg = r.lastSeg
      · simp only [if_pos inFront]
        rw [trb_modifyTrb, trb_modifyTrb, trb_modifyTrb, ← inFront]
        rw [if_neg (show ¬link last = link r.enqueue.seg by simp [link, different])]
      · simp only [if_neg inFront]
    have next_eq : r'.next = m'.next := by
      rw [joinedRings]
      split_ifs <;> rfl
    have cache_eq : r'.cache = m'.cache := by
      rw [joinedRings]
      split_ifs <;> rfl
    have lastTrb_eq := (circle.links last lastIn)
    refine ⟨last, circle.last_eq, ?_, ?_, ?_, ?_, ?_, ?_, ?_, ?_, ?_, ?_, ?_, ?_, ?_, ?_, ?_⟩
    · rw [joinedRings]; split_ifs <;> rfl
    · rw [joinedRings]; split_ifs <;> rfl
    · rw [joinedRings]; split_ifs <;> rfl
    · rw [joinedRings]; split_ifs <;> rfl
    · rw [joinedRings]; split_ifs <;> rfl
    · rw [joinedRings, many]
    · rw [joinedRings, many]
    · rw [joinedRings]
    · -- The circle is opened behind its last segment.
      refine chain_opened distinct' circle.first_eq circle.last_eq (List.isChain_append.mp circle.chain).1 ?_ ?_ ?_
      · rw [next_eq, next']
        simp [different.symm]
      · rw [next_eq, next']
        simp
      · intro s member notLast
        have notEnq : s ≠ r.enqueue.seg := fun same => notIn (same ▸ member)
        rw [next_eq, next']
        simp [notLast, notEnq]
    · intro s outside other
      rw [next_eq, next']
      have notLast : s ≠ last := fun same => outside (same ▸ lastIn)
      simp only [notLast, other, if_false]
      exact (circle.others s outside).2.1
    · intro p outside other
      have notLast : p ≠ link last := fun same => outside (by rw [same]; exact lastIn)
      simp only [read, linked, notLast, other, if_false, ite_self]
      simp only [Segments.trb, (circle.others p.seg outside).1]
    · intro s outside other
      have notLast : s ≠ last := fun same => outside (same ▸ lastIn)
      rw [cache_eq, is_m', linkSegments_cache q _ _ _ _ _ notLast, linkSegments_cache q _ _ _ _ _ other]
      exact (circle.others s outside).2.2
    · have notLastLink : link r.enqueue.seg ≠ link last := by simp [link, different.symm]
      have old : m.trb (link r.enqueue.seg) = r.trb (link r.enqueue.seg) := by
        simp only [Segments.trb, link, oldTrbs]
      have trb : r'.trb (link r.enqueue.seg) = if r.enqueue.seg = r.lastSeg then
          (joined q r.type first (r.trb (link r.enqueue.seg))).setToggle false
          else joined q r.type first (r.trb (link r.enqueue.seg)) := by
        simp only [read, linked, notLastLink, if_false, if_true, old]
      refine ⟨?_, ?_, ?_, ?_⟩
      · rw [trb]
        split_ifs <;> simp
      · rw [trb, next_eq, next']
        split_ifs <;> simp [different.symm]
      · rw [trb]
        split_ifs <;> simp
      · rw [trb]
        split_ifs with inFront <;> simp [inFront]
    · intro s member i notLink
      have other : (⟨s, i⟩ : TrbPtr) ≠ link last := by simp [link, trbsPerSegment, notLink]
      have other' : (⟨s, i⟩ : TrbPtr) ≠ link r.enqueue.seg := by simp [link, trbsPerSegment, notLink]
      have := read ⟨s, i⟩
      simp only [linked, other, other', if_false, ite_self] at this
      exact this.trans (circle.inner s member i notLink)
    · intro s member
      obtain ⟨⟨isLink, ptr, cycle⟩, toggle⟩ := circle.links s member
      have notEnq : s ≠ r.enqueue.seg := fun same => notIn (same ▸ member)
      have notEnqLink : link s ≠ link r.enqueue.seg := by simp [link, notEnq]
      by_cases isLast : s = last
      · subst isLast
        have trb : r'.trb (link s) = if r.enqueue.seg = r.lastSeg then
            (joined q r.type (m.next r.enqueue.seg) (m.trb (link s))).setToggle true
            else joined q r.type (m.next r.enqueue.seg) (m.trb (link s)) := by
          simp only [read, linked, if_true]
        refine ⟨⟨?_, ?_, ?_⟩, ?_⟩
        · rw [trb]
          split_ifs <;> simp
        · rw [trb, next_eq, next']
          split_ifs <;> simp [oldNext]
        · rw [trb]
          split_ifs <;> simp [cycle]
        · rw [trb]
          split_ifs with inFront <;> simp [toggle, inFront]
      · have notLastLink : link s ≠ link last := by simp [link, isLast]
        have trb : r'.trb (link s) = m.trb (link s) := by
          simp only [read, linked, notLastLink, notEnqLink, if_false, ite_self]
        refine ⟨⟨?_, ?_, ?_⟩, ?_⟩
        · rw [trb, isLink]
        · rw [trb, ptr, next_eq, next']
          simp [isLast, notEnq]
        · rw [trb, cycle]
        · rw [trb, toggle]
          simp [isLast]

/-- While some TRB beyond those before `dequeue` in its segment is free, the free TRBs
    reach to the end of the segment of `enqueue`. -/
theorem Queue.idle_to_link {r : Ring} {busy idle : List TrbPtr} (queue : Queue r busy idle)
    (inOrder : (busy ++ idle).head? = some r.dequeue) (room : r.dequeue.idx + 1 ≤ nonlinks idle) :
    ∃ back, idle = run r.enqueue.seg r.enqueue.idx (63 - r.enqueue.idx) ++ link r.enqueue.seg :: back := by
  have inside : r.enqueue.idx < 64 := queue.shape.inside _ queue.enqueue_mem
  have first : (idle ++ busy).head? = some ⟨r.enqueue.seg, r.enqueue.idx⟩ := by
    obtain ⟨rest, is_idle⟩ := queue.idle_eq
    simp [is_idle]
  obtain ⟨rest, split⟩ := stretch queue.shape.swap.isLap first (63 - r.enqueue.idx) (by omega)
  have onLink : (⟨r.enqueue.seg, r.enqueue.idx + (63 - r.enqueue.idx)⟩ : TrbPtr) = link r.enqueue.seg := by
    simp [link, trbsPerSegment]
    omega
  rw [onLink] at split
  have few := nonlinks_le_length idle
  have runLength : (run r.enqueue.seg r.enqueue.idx (63 - r.enqueue.idx)).length = 63 - r.enqueue.idx := by simp [run]
  -- Otherwise `dequeue` would be in this segment, behind no more TRBs than are free.
  rcases List.append_eq_append_iff.mp split with ⟨c, is_run, is_busy⟩ | ⟨c, is_idle, is_rest⟩
  · exfalso
    have bound : idle.length + c.length = 63 - r.enqueue.idx := by
      rw [← runLength, is_run, List.length_append]
    cases c with
    | nil =>
      have : r.dequeue = link r.enqueue.seg := by simpa [is_busy] using inOrder.symm
      rw [this] at room
      simp [link, trbsPerSegment] at room
      omega
    | cons y c =>
      have is_y : r.dequeue = y := by simpa [is_busy] using inOrder.symm
      have there : (run r.enqueue.seg r.enqueue.idx (63 - r.enqueue.idx))[idle.length]? = some y := by
        rw [is_run]
        simp
      simp only [run, List.getElem?_map, Option.map_eq_some_iff, List.getElem?_eq_some_iff, List.getElem_range] at there
      obtain ⟨_, ⟨_, rfl⟩, rfl⟩ := there
      rw [is_y] at room
      simp at room
      omega
  · cases c with
    | nil =>
      exfalso
      have : r.dequeue = link r.enqueue.seg := by
        have is_busy : busy = link r.enqueue.seg :: rest := by simpa using is_rest.symm
        simpa [is_busy] using inOrder.symm
      have bound : idle.length = 63 - r.enqueue.idx := by rw [is_idle, List.append_nil, runLength]
      rw [this] at room
      simp [link, trbsPerSegment] at room
      omega
    | cons y c =>
      have is_y : y = link r.enqueue.seg := by simpa using (List.cons.inj is_rest).1.symm
      exact ⟨c, by rw [is_idle, is_y]⟩

/-- The new segments take their place on the lap, behind the link of the segment of
    `enqueue`. -/
theorem Shape.expand {r r' : Ring} {a b : List TrbPtr} {segs : List Addr} {last : Addr}
    (shape : Shape r (a ++ link r.enqueue.seg :: b)) (expanded : Expanded r r' segs last) (distinct : segs.Nodup)
    (fresh : ∀ p ∈ a ++ link r.enqueue.seg :: b, p.seg ∉ segs) :
    Shape r' (a ++ link r.enqueue.seg :: (laid segs ++ b)) := by
  have lastIn : last ∈ segs := List.mem_of_getLast? expanded.last_eq
  have nodup := shape.isLap.1
  have asLink : ∀ p : TrbPtr, p.idx = 63 → p = link p.seg := by
    intro p onLink
    simp [link, trbsPerSegment, ← onLink]
  have linkHere : ∀ s, (link s).idx = 63 := fun _ => rfl
  -- A TRB of the new lap is the link that leads to the new segments, an old one or a new one.
  have kinds : ∀ p ∈ a ++ link r.enqueue.seg :: (laid segs ++ b),
      p = link r.enqueue.seg ∨ (p ∈ a ++ link r.enqueue.seg :: b ∧ p ≠ link r.enqueue.seg ∧ p.seg ∉ segs) ∨
        (p.seg ∈ segs ∧ p.idx < 64) := by
    intro p member
    by_cases here : p = link r.enqueue.seg
    · exact .inl here
    · by_cases new : p ∈ laid segs
      · exact .inr (.inr (mem_laid.mp new))
      · have old : p ∈ a ++ link r.enqueue.seg :: b := by
          simp only [List.mem_append, List.mem_cons] at member ⊢
          rcases member with inA | same | inNew | inB
          · exact .inl inA
          · exact .inr (.inl same)
          · exact absurd inNew new
          · exact .inr (.inr inB)
        exact .inr (.inl ⟨old, here, fresh p old⟩)
  have nextOld : ∀ p : TrbPtr, p ≠ link r.enqueue.seg → p.idx = 63 → p.seg ∉ segs → r'.next p.seg = r.next p.seg := by
    intro p other onLink outside
    apply expanded.nextOther p.seg outside
    intro same
    apply other
    rw [asLink p onLink, same]
  have enqIn : link r.enqueue.seg ∈ a ++ link r.enqueue.seg :: b := by simp
  have enqFresh : r.enqueue.seg ∉ segs := fresh (link r.enqueue.seg) enqIn
  have lastFresh : r.lastSeg ∉ segs := fresh (link r.lastSeg) shape.lastLink
  refine ⟨expanded.type ▸ shape.notEvent, ?_, ?_, ?_, ?_, ?_, ?_, ?_, ?_⟩
  · refine shape.isLap.insert ?_ ?_ ?_
    · have apart : ∀ p ∈ laid segs, p ∉ a ++ link r.enqueue.seg :: b :=
        fun p new old => fresh p old (mem_laid.mp new).1
      have moved : (a ++ link r.enqueue.seg :: (laid segs ++ b)).Perm (laid segs ++ (a ++ link r.enqueue.seg :: b)) := by
        have swap : (laid segs ++ (a ++ [link r.enqueue.seg])).Perm ((a ++ [link r.enqueue.seg]) ++ laid segs) :=
          List.perm_append_comm
        simpa using (swap.append_right b).symm
      rw [moved.nodup_iff]
      exact List.nodup_append.mpr ⟨nodup_laid distinct, nodup, fun p new p' old same => apart p new (same ▸ old)⟩
    · intro p member
      have other : p ≠ link r.enqueue.seg := by
        rintro rfl
        have := List.nodup_middle.mp nodup
        exact (List.nodup_cons.mp this).1 member
      have outside : p.seg ∉ segs := by
        apply fresh p
        simp only [List.mem_append, List.mem_cons] at member ⊢
        exact member.imp id .inr
      by_cases onLink : p.idx = 63
      · rw [follow, follow, if_pos onLink, if_pos onLink, nextOld p other onLink outside]
      · rw [follow, follow, if_neg onLink, if_neg onLink]
    · have chain := chain_laid expanded.chain.tail
      have leads : follow r.next (link r.enqueue.seg) = ⟨r.next r.enqueue.seg, 0⟩ := if_pos rfl
      rw [leads]
      cases segs with
      | nil => simp at lastIn
      | cons s segs =>
        have start : ∃ more, laid (s :: segs) = ⟨s, 0⟩ :: more := by
          simp [laid_cons, run, List.range_succ_eq_map]
        obtain ⟨more, is_more⟩ := start
        rw [is_more] at chain
        rw [is_more]
        refine List.isChain_cons_cons.mpr ⟨?_, chain⟩
        have first := (List.isChain_cons_cons.mp expanded.chain).1
        rw [follow, if_pos (linkHere _)]
        simp [link, first]
  · intro p member
    rcases kinds p member with rfl | ⟨old, _, _⟩ | ⟨_, inside⟩
    · simp [linkHere]
    · exact shape.inside p old
    · exact inside
  · intro p member
    rcases kinds p member with rfl | ⟨old, other, outside⟩ | ⟨new, inside⟩
    · simp [expanded.enqLink.1, linkHere]
    · rw [expanded.trbOther p outside other]
      exact shape.links p old
    · by_cases onLink : p.idx = 63
      · rw [asLink p onLink, (expanded.links p.seg new).1.isLink]
        simp [linkHere]
      · have : r'.trb p = freshTrb r.cycleState := expanded.inner p.seg new p.idx onLink
        simp [this, isLink_freshTrb, onLink]
  · intro p member onLink
    rcases kinds p member with rfl | ⟨old, other, outside⟩ | ⟨new, inside⟩
    · exact expanded.enqLink.2.1
    · rw [expanded.trbOther p outside other, nextOld p other onLink outside]
      exact shape.pointers p old onLink
    · rw [asLink p onLink]
      exact (expanded.links p.seg new).1.segmentPtr
  · intro p member onLink
    rw [expanded.lastSeg]
    rcases kinds p member with rfl | ⟨old, other, outside⟩ | ⟨new, inside⟩
    · have before := shape.toggles _ enqIn (linkHere _)
      rw [expanded.enqLink.2.2.2, before]
      have different : r.enqueue.seg ≠ last := fun same => enqFresh (same ▸ lastIn)
      by_cases inFront : r.enqueue.seg = r.lastSeg
      · rw [if_pos inFront]
        exact ⟨fun both => absurd inFront both.2, fun same => absurd same different⟩
      · rw [if_neg inFront]
        exact ⟨fun both => absurd both.1 inFront, fun same => absurd same inFront⟩
    · rw [expanded.trbOther p outside other, shape.toggles p old onLink]
      have notEnq : p.seg ≠ r.enqueue.seg := by
        intro same
        apply other
        rw [asLink p onLink, same]
      have notLast : p.seg ≠ last := fun same => outside (same ▸ lastIn)
      by_cases inFront : r.enqueue.seg = r.lastSeg
      · rw [if_pos inFront, ← inFront]
        exact ⟨fun same => absurd same notEnq, fun same => absurd same notLast⟩
      · rw [if_neg inFront]
    · have toggle := (expanded.links p.seg new).2
      rw [← asLink p onLink] at toggle
      rw [toggle]
      have notLast : p.seg ≠ r.lastSeg := fun same => lastFresh (same ▸ new)
      by_cases inFront : r.enqueue.seg = r.lastSeg <;> simp [inFront, notLast]
  · rw [expanded.lastSeg]
    split_ifs with inFront
    · have : link last ∈ laid segs := mem_laid.mpr ⟨lastIn, by simp [linkHere]⟩
      simp [this]
    · have old := shape.lastLink
      simp only [List.mem_append, List.mem_cons] at old ⊢
      rcases old with inA | same | inB
      · exact .inl inA
      · exact .inr (.inl same)
      · exact .inr (.inr (.inr inB))
  · have := shape.size
    simp only [List.length_append, List.length_cons, length_laid] at this ⊢
    rw [expanded.numSegs]
    omega
  · have := shape.count
    simp only [nonlinks_append, nonlinks_cons, nonlinks_laid] at this ⊢
    rw [expanded.numSegs]
    omega

/-- An expansion adds its segments to the free TRBs. -/
theorem Queue.expand {r r' : Ring} {busy idle front back : List TrbPtr} {segs : List Addr} {last : Addr}
    (queue : Queue r busy idle) (inOrder : (busy ++ idle).head? = some r.dequeue)
    (is_idle : idle = front ++ link r.enqueue.seg :: back) (expanded : Expanded r r' segs last) (distinct : segs.Nodup)
    (fresh : ∀ p ∈ busy ++ idle, p.seg ∉ segs) :
    Queue r' busy (front ++ link r.enqueue.seg :: (laid segs ++ back)) ∧
      (busy ++ (front ++ link r.enqueue.seg :: (laid segs ++ back))).head? = some r'.dequeue := by
  have shape := queue.shape
  rw [is_idle, ← List.append_assoc] at shape fresh
  have sameHead : ∀ more more' : List TrbPtr, (front ++ link r.enqueue.seg :: more).head? =
      (front ++ link r.enqueue.seg :: more').head? := by
    intro more more'
    cases front <;> rfl
  have inOrder' : (busy ++ (front ++ link r.enqueue.seg :: (laid segs ++ back))).head? = some r'.dequeue := by
    rw [List.head?_append, sameHead _ back, ← is_idle, ← List.head?_append, inOrder, expanded.dequeue]
  refine ⟨⟨?_, ?_, .inl inOrder', ?_⟩, inOrder'⟩
  · rw [← List.append_assoc]
    exact shape.expand expanded distinct fresh
  · rw [sameHead _ back, ← is_idle, expanded.enqueue]
    exact queue.enqueue
  · have old := queue.free
    rw [expanded.free, expanded.numSegs]
    push_cast
    omega

end Ehub.RingShape
