import Mathlib
import Ehub.Isoc

/-!
What the device holds of a cached ring. The controller reads the copies that the driver
has written to the blocks of the segments (`device`), and the copies are behind the
ring: free TRBs are edited without being written, the toggle bit of a new last segment
is never written on its own, and a URB that is taken back leaves links behind that
have been handed over. What the copies always agree on with the ring is in `Mirrored`:
the busy TRBs, and the owner of the free ones, but for links that lead where they
should.
-/
namespace Ehub.Mirror
open Ehub.Lap Ehub.Segments Ehub.Ring Ehub.RingShape Ehub.RingAccount Ehub.RingFifo

/-- The copy of the TRB at `p` in the device. -/
def cached (m : Segments) (p : TrbPtr) : Trb := m.cache p.seg p.idx

/-- The ring as the device has it. -/
def mirror (r : Ring) : Ring := { r with trbs := r.cache }

/-- What the device takes from its copy, at `dequeue` with cycle state `c`, and where it
    stops. -/
def device (r : Ring) (fuel : Nat) (c : Bool) : Option (List TrbPtr × TrbPtr) := consumer (mirror r) fuel c

/-- The device takes the copies of the TRBs in `l`, whatever links lie between them. -/
def Sees (r : Ring) (c : Bool) (l : List Trb) : Prop :=
  ∀ fuel, 64 * r.numSegs ≤ fuel → ∃ taken stop, device r fuel c = some (taken, stop) ∧ contents r taken = l

/-- A link from the segment of `p` to the next one. -/
structure LinkOf (r : Ring) (p : TrbPtr) (t : Trb) : Prop where
  isLink : t.isLink = true
  segmentPtr : t.segmentPtr = r.next p.seg
  toggle : t.toggle = true ↔ p.seg = r.lastSeg

/-- How like a TRB its copy is to be: at least as an owner sees it. -/
structure Likeness (Like : Trb → Trb → Prop) : Prop where
  refl : ∀ t, Like t t
  cycle : ∀ {t t'}, Like t t' → t'.cycle = t.cycle
  isLink : ∀ {t t'}, Like t t' → t'.isLink = t.isLink
  segmentPtr : ∀ {t t'}, Like t t' → t.isLink = true → t'.segmentPtr = t.segmentPtr
  toggle : ∀ {t t'}, Like t t' → t.isLink = true → t'.toggle = t.toggle

/-- The copies of the busy TRBs are like them; those of the free TRBs have the same
    owner, unless they are links that lead on as they should; and what has not been copied
    yet begins at `enqueue`, or at the link before it. -/
structure Mirrored (Like : Trb → Trb → Prop) (r : Ring) (busy idle : List TrbPtr) : Prop where
  like : ∀ p ∈ busy, Like (r.trb p) (cached r.toSegments p)
  plain : ∀ p ∈ idle, p.idx ≠ 63 → (cached r.toSegments p).cycle = (r.trb p).cycle
  links : ∀ p ∈ idle, p.idx = 63 →
    (cached r.toSegments p).cycle = (r.trb p).cycle ∨ LinkOf r p (cached r.toSegments p)
  cacheEnqueue : r.cacheEnqueue = r.enqueue ∨
    (r.cacheEnqueue.idx = 63 ∧ r.cacheEnqueue ∈ busy ++ idle ∧ follow r.next r.cacheEnqueue = r.enqueue)

/-! ### What the device takes -/

section
variable {Like : Trb → Trb → Prop} {r : Ring} {a rest lap : List TrbPtr} {p stop : TrbPtr} {c : Bool}

theorem cycleAt_mirror (likeness : Likeness Like) (like : Like (r.trb p) (cached r.toSegments p)) :
    cycleAt (mirror r) p = cycleAt r p := likeness.cycle like

theorem flipsAt_mirror (likeness : Likeness Like) (like : Like (r.trb p) (cached r.toSegments p)) :
    flipsAt (mirror r) p = flipsAt r p := by
  show ((cached r.toSegments p).isLink && (cached r.toSegments p).toggle) = _
  rw [flipsAt, likeness.isLink like]
  cases isLink : (r.trb p).isLink with
  | false => rfl
  | true => rw [likeness.toggle like isLink]

theorem followLink_mirror (likeness : Likeness Like) (shape : Shape r lap) (member : p ∈ lap)
    (like : Like (r.trb p) (cached r.toSegments p)) : followLink (mirror r) p = follow r.next p := by
  rw [← followLink_eq shape member, followLink, followLink]
  show (if (cached r.toSegments p).isLink = true then (⟨(cached r.toSegments p).segmentPtr, 0⟩ : TrbPtr) else _) = _
  rw [likeness.isLink like]
  by_cases isLink : (r.trb p).isLink = true
  · rw [if_pos isLink, if_pos isLink, likeness.segmentPtr like isLink]
  · rw [if_neg isLink, if_neg isLink]

theorem LinkOf.flipsAt_eq (link : LinkOf r p (cached r.toSegments p)) (shape : Shape r lap) (member : p ∈ lap)
    (onLink : p.idx = 63) : flipsAt (mirror r) p = flipsAt r p := by
  show ((cached r.toSegments p).isLink && (cached r.toSegments p).toggle) = _
  rw [link.isLink, Bool.true_and, Bool.eq_iff_iff, link.toggle, flipsAt_iff shape member]
  constructor
  · rintro same
    simp [Segments.link, trbsPerSegment, ← onLink, ← same]
  · rintro rfl
    rfl

theorem LinkOf.followLink_eq (link : LinkOf r p (cached r.toSegments p)) (onLink : p.idx = 63) :
    followLink (mirror r) p = follow r.next p := by
  rw [followLink, follow, if_pos onLink]
  refine (if_pos link.isLink).trans ?_
  rw [← link.segmentPtr]
  rfl

/-- The device goes along the copies as far as they lead on and are its own. -/
theorem device_eq (shape : Shape r (a ++ stop :: rest)) (first : (a ++ stop :: rest).head? = some r.dequeue)
    (follows : ∀ p ∈ a, followLink (mirror r) p = follow r.next p)
    (owned : InPhase (cycleAt (mirror r)) (flipsAt (mirror r)) c a)
    (free : cycleAt (mirror r) stop = !phase (flipsAt (mirror r)) c a) {fuel : Nat} (enough : 64 * r.numSegs ≤ fuel) :
    device r fuel c = some (a, stop) := by
  have size := shape.size
  rw [List.length_append, List.length_cons] at size
  have chain := List.isChain_append.mp shape.isLap.chain_upTo
  refine consume_chain (List.isChain_append.mpr ⟨?_, List.isChain_singleton _, ?_⟩) ?_ owned free (by omega)
  · exact chain.1.imp_of_mem_imp fun p q member _ step => (follows p member).trans step
  · exact fun p member q member' => (follows p (List.mem_of_getLast? member)).trans (chain.2.2 p member q member')
  · show _ = some r.dequeue
    rw [← first]
    cases a <;> rfl

/-- The device stops behind copies that are like the TRBs and its own. -/
theorem sees_upTo (likeness : Likeness Like) (shape : Shape r (a ++ stop :: rest))
    (first : (a ++ stop :: rest).head? = some r.dequeue) (like : ∀ p ∈ a, Like (r.trb p) (cached r.toSegments p))
    (owned : InPhase (cycleAt r) (flipsAt r) c a)
    (free : (cached r.toSegments stop).cycle = !phase (flipsAt r) c a) : Sees r c (contents r a) := by
  have flips : ∀ p ∈ a, flipsAt (mirror r) p = flipsAt r p := fun p member => flipsAt_mirror likeness (like p member)
  intro fuel enough
  refine ⟨a, stop, device_eq shape first ?_ ?_ ?_ enough, rfl⟩
  · exact fun p member => followLink_mirror likeness shape (List.mem_append_left _ member) (like p member)
  · exact owned.congr (fun p member => cycleAt_mirror likeness (like p member)) flips
  · rw [phase_congr c flips]
    exact free

/-- The same behind a link that has only been handed over to the device. -/
theorem sees_upTo_link {l : TrbPtr} (likeness : Likeness Like) (shape : Shape r (a ++ l :: stop :: rest))
    (first : (a ++ l :: stop :: rest).head? = some r.dequeue)
    (like : ∀ p ∈ a, Like (r.trb p) (cached r.toSegments p)) (owned : InPhase (cycleAt r) (flipsAt r) c a)
    (onLink : l.idx = 63) (linkOf : LinkOf r l (cached r.toSegments l))
    (handed : (cached r.toSegments l).cycle = phase (flipsAt r) c a)
    (free : (cached r.toSegments stop).cycle = !(phase (flipsAt r) c a ^^ flipsAt r l)) : Sees r c (contents r a) := by
  have flips : ∀ p ∈ a, flipsAt (mirror r) p = flipsAt r p := fun p member => flipsAt_mirror likeness (like p member)
  have inLap : l ∈ a ++ l :: stop :: rest := by simp
  have flipsLink := linkOf.flipsAt_eq shape inLap onLink
  have shape' : Shape r ((a ++ [l]) ++ stop :: rest) := by simpa using shape
  intro fuel enough
  refine ⟨a ++ [l], stop, device_eq shape' (by simpa using first) ?_ ?_ ?_ enough, ?_⟩
  · intro p member
    rcases List.mem_append.mp member with inA | here
    · exact followLink_mirror likeness shape (List.mem_append_left _ inA) (like p inA)
    · rw [List.mem_singleton.mp here]
      exact linkOf.followLink_eq onLink
  · rw [inPhase_append, phase_congr c flips]
    exact ⟨owned.congr (fun p member => cycleAt_mirror likeness (like p member)) flips, handed, trivial⟩
  · rw [phase_append, phase_congr c flips, phase_cons, phase_nil, flipsLink]
    exact free
  · have isLink := (shape.links l inLap).mpr onLink
    rw [contents_append, contents_link isLink, List.append_nil]

end

/-- Between two calls the device takes the pending TRBs. -/
theorem Mirrored.sees {Like : Trb → Trb → Prop} (likeness : Likeness Like) {r : Ring} {pending : List Trb} {ccs c : Bool}
    {busy idle : List TrbPtr} (mirrored : Mirrored Like r busy idle) (view : View r pending ccs busy idle c)
    (room : 1 ≤ nonlinks idle) : Sees r ccs pending := by
  have queue := view.queue
  have free := view.phased.free
  have isIdle := mirrored.plain
  have isLink := mirrored.links
  have shape := queue.shape
  obtain ⟨rest, rfl⟩ := queue.idle_eq
  rw [← view.pending]
  by_cases onLink : r.enqueue.idx = 63
  · obtain ⟨p, rest, rfl⟩ : ∃ p rest', rest = p :: rest' := by
      cases rest with
      | nil => simp [nonlinks_cons, onLink] at room
      | cons p rest => exact ⟨p, rest, rfl⟩
    -- The TRB behind the link is the first of its segment, and free.
    have is_p : p = follow r.next r.enqueue := by
      have := shape.isLap.next_eq
      simpa using this
    have inner : p.idx ≠ 63 := by
      rw [is_p, follow, if_pos onLink]
      simp
    have cycleP : (cached r.toSegments p).cycle = (r.trb p).cycle := isIdle p (by simp) inner
    have freeP : (cached r.toSegments p).cycle = !(r.cycleState ^^ flipsAt r r.enqueue) := by
      have freeNext : (r.trb p).cycle = (!r.cycleState ^^ flipsAt r r.enqueue) := free.2.1
      rw [cycleP, freeNext, Bool.not_xor]
    by_cases overtaken : Overtaken r
    · obtain ⟨rfl, _, behind⟩ := behind_of queue overtaken room
      have turned : Shape r ([] ++ p :: (rest ++ [r.enqueue])) := by
        have := Shape.swap (show Shape r ([r.enqueue] ++ p :: rest) from shape)
        simpa using this
      refine sees_upTo likeness turned (by rw [behind, is_p]; rfl) (by simp) trivial ?_
      have is_c : c = r.cycleState := view.phased.cycleState
      rw [view.ccs_behind overtaken, phase_nil, is_c]
      exact freeP
    · have inOrder := inOrder_of queue overtaken
      rw [view.ccs_ahead overtaken]
      by_cases own : (cached r.toSegments r.enqueue).cycle = (r.trb r.enqueue).cycle
      · refine sees_upTo likeness shape inOrder mirrored.like view.phased.owned ?_
        rw [own, view.phased.cycleState]
        exact free.1
      · have linkOf := (isLink r.enqueue (by simp) onLink).resolve_left own
        refine sees_upTo_link likeness shape inOrder mirrored.like view.phased.owned onLink linkOf ?_ ?_
        · have notYet : (r.trb r.enqueue).cycle = !r.cycleState := free.1
          rw [view.phased.cycleState]
          rw [notYet] at own
          simpa using own
        · rw [view.phased.cycleState]
          exact freeP
  · have ahead := not_overtaken_inner queue onLink
    rw [view.ccs_ahead ahead]
    refine sees_upTo likeness shape (inOrder_of queue ahead) mirrored.like view.phased.owned ?_
    rw [isIdle r.enqueue (by simp) onLink, view.phased.cycleState]
    exact free.1

/-! ### New segments -/

/-- The copy of the TRB at `p` has the same owner. -/
def Agrees (m : Segments) (p : TrbPtr) : Prop := (cached m p).cycle = (m.trb p).cycle

section
variable {q : Quirks} {type : RingType} {m : Segments} {p : TrbPtr}

theorem cached_copy (m : Segments) (x p : TrbPtr) : cached (m.copy x) p = if p = x then m.trb p else cached m p := by
  obtain ⟨seg, idx⟩ := p
  obtain ⟨seg', idx'⟩ := x
  simp [cached, Segments.copy, Segments.trb]

theorem cached_linkSegments (q : Quirks) (isCached : ehubCacheRing type = true) (m : Segments) (prev next : Addr)
    (write : CacheWrite) (p : TrbPtr) : cached (linkSegments q type m prev next write) p =
      if p = link prev ∧ write = .accepted then (linkSegments q type m prev next write).trb p else cached m p := by
  have notEvent : type ≠ .event := by
    rintro rfl
    simp [ehubCacheRing] at isCached
  by_cases accepted : write = .accepted
  · simp only [linkSegments, notEvent, isCached, accepted, and_true, if_true, if_false]
    exact cached_copy _ (link prev) p
  · simp only [linkSegments, notEvent, accepted, and_false, if_false]
    rfl

/-- Besides the link itself no copy is made. -/
theorem cached_linkSegments_other (q : Quirks) (type : RingType) (m : Segments) (prev next : Addr) (write : CacheWrite)
    (other : p ≠ link prev) : cached (linkSegments q type m prev next write) p = cached m p := by
  rw [linkSegments]
  by_cases event : type = .event
  · rw [if_pos event]
    rfl
  · rw [if_neg event]
    by_cases copied : ehubCacheRing type = true ∧ write = .accepted
    · rw [if_pos copied, cached_copy, if_neg other]
      rfl
    · rw [if_neg copied]
      rfl

theorem agrees_linkSegments (isCached : ehubCacheRing type = true) (agrees : Agrees m p) (prev next : Addr)
    (write : CacheWrite) : Agrees (linkSegments q type m prev next write) p := by
  have notEvent : type ≠ .event := by
    rintro rfl
    simp [ehubCacheRing] at isCached
  rw [Agrees, cached_linkSegments q isCached]
  split_ifs with copied
  · rfl
  · rw [agrees, linkSegments_trb q notEvent]
    split_ifs with here
    · rw [here, cycle_joined]
    · rfl

theorem agrees_joined (isCached : ehubCacheRing type = true) (prev next : Addr) :
    Agrees (linkSegments q type m prev next .accepted) (link prev) := by
  rw [Agrees, cached_linkSegments q isCached, if_pos ⟨rfl, rfl⟩]

theorem agrees_segmentAlloc (isCached : ehubCacheRing type = true) (cycleState : Bool) (seg : Addr)
    (known : p.seg = seg ∨ Agrees m p) : Agrees (m.segmentAlloc type cycleState seg) p := by
  by_cases new : p.seg = seg
  · simp [Agrees, cached, Segments.trb, segmentAlloc, new, isCached]
  · simpa [Agrees, cached, Segments.trb, segmentAlloc, new] using known.resolve_left new

theorem agrees_setToggle (toggles : Bool) (x : TrbPtr) (agrees : Agrees m p) :
    Agrees (m.set x ((m.trb x).setToggle toggles)) p := by
  have copies : cached (m.set x ((m.trb x).setToggle toggles)) p = cached m p := rfl
  rw [Agrees, copies, agrees, trb_set]
  split_ifs with here
  · rw [here, Trb.cycle_setToggle]
  · rfl

theorem allocRest_agrees (isCached : ehubCacheRing type = true) {cycleState : Bool} {write : Nat → CacheWrite} :
    ∀ (segs : List Addr) (i : Nat) (prev last : Addr) (m m' : Segments),
      allocRest q type cycleState write i prev segs m = some (m', last) →
      ∀ p : TrbPtr, p.seg ∈ segs ∨ Agrees m p → Agrees m' p := by
  intro segs
  induction segs with
  | nil =>
    intro i prev last m m' result p known
    simp only [allocRest, Option.some.injEq, Prod.mk.injEq] at result
    rw [← result.1]
    exact known.resolve_left (by simp)
  | cons next segs ih =>
    intro i prev last m m' result p known
    rw [allocRest] at result
    split_ifs at result with failed
    refine ih (i + 1) next last _ m' result p ?_
    by_cases later : p.seg ∈ segs
    · exact .inl later
    · refine .inr (agrees_linkSegments isCached (agrees_segmentAlloc isCached cycleState next ?_) _ _ _)
      exact known.imp_left fun inside => (List.mem_cons.mp inside).resolve_right later

theorem allocSegments_agrees (isCached : ehubCacheRing type = true) {cycleState : Bool} {write : Nat → CacheWrite}
    {segs : List Addr} {m' : Segments} {first last : Addr}
    (result : allocSegmentsForRing q type cycleState write segs m = some (m', first, last)) (new : p.seg ∈ segs) :
    Agrees m' p := by
  cases segs with
  | nil => simp [allocSegmentsForRing] at result
  | cons s segs =>
    rw [allocSegmentsForRing] at result
    cases rest : allocRest q type cycleState write 0 s segs (m.segmentAlloc type cycleState s) with
    | none => simp [rest] at result
    | some made =>
      obtain ⟨m1, last'⟩ := made
      simp only [rest, Option.some.injEq, Prod.mk.injEq] at result
      rw [← result.1]
      refine agrees_linkSegments isCached (allocRest_agrees isCached segs 0 s last' _ m1 rest p ?_) _ _ _
      exact (List.mem_cons.mp new).symm.imp_right fun here => agrees_segmentAlloc isCached cycleState s (.inl here)

/-- The copies of the TRBs of a ring but for the link that leads to the new segments are as they
    were before the expansion, whatever becomes of the writes. -/
theorem ringExpansion_cached_other {r r' : Ring} (notEvent : r.type ≠ .event) {numTrbs : Nat} {answers : Answers}
    (distinct : answers.segs.Nodup)
    (written : answers.write (r.expansionSegs numTrbs) ≠ .error ∧ answers.write (r.expansionSegs numTrbs + 1) ≠ .error)
    (result : ringExpansion q r numTrbs answers = some r') (outside : p.seg ∉ answers.segs.take (r.expansionSegs numTrbs))
    (other : p ≠ link r.enqueue.seg) : cached r'.toSegments p = cached r.toSegments p := by
  rw [ringExpansion] at result
  split_ifs at result with short
  set segs := answers.segs.take (r.expansionSegs numTrbs) with is_segs
  have distinct' : segs.Nodup := distinct.sublist (List.take_sublist _ _)
  cases alloc : allocSegmentsForRing q r.type r.cycleState answers.write segs r.toSegments with
  | none => simp [alloc] at result
  | some parts =>
    obtain ⟨m, first, last⟩ := parts
    simp only [alloc, Option.some.injEq, linkRings, if_neg written.1, if_neg written.2] at result
    have circle := allocSegments_circle notEvent distinct' alloc
    have notLast : p ≠ link last := by
      rintro rfl
      exact outside (List.mem_of_getLast? circle.last_eq)
    have linked : cached (linkSegments q r.type (linkSegments q r.type m r.enqueue.seg first
        (answers.write (r.expansionSegs numTrbs))) last (m.next r.enqueue.seg)
        (answers.write (r.expansionSegs numTrbs + 1))) p = cached r.toSegments p := by
      rw [cached_linkSegments_other q _ _ _ _ _ notLast, cached_linkSegments_other q _ _ _ _ _ other]
      simp only [cached, (circle.others p.seg outside).2.2]
    rw [← result]
    split_ifs <;> exact linked

/-- What an expansion leaves in the device: the new segments and the link that leads to them
    are copied, and everything else is as it was. -/
theorem ringExpansion_cached {r r' : Ring} (isCached : ehubCacheRing r.type = true) {numTrbs : Nat} {answers : Answers}
    (accepted : ∀ i, answers.write i = .accepted) (distinct : answers.segs.Nodup)
    (result : ringExpansion q r numTrbs answers = some r') (p : TrbPtr) :
    (p.seg ∈ answers.segs.take (r.expansionSegs numTrbs) ∨ p = link r.enqueue.seg → Agrees r'.toSegments p) ∧
    (p.seg ∉ answers.segs.take (r.expansionSegs numTrbs) → p ≠ link r.enqueue.seg →
      cached r'.toSegments p = cached r.toSegments p) := by
  have notEvent : r.type ≠ .event := by
    intro event
    simp [event, ehubCacheRing] at isCached
  have written : answers.write (r.expansionSegs numTrbs) ≠ .error ∧ answers.write (r.expansionSegs numTrbs + 1) ≠ .error := by
    simp [accepted]
  refine ⟨fun changed => ?_, fun outside other => ringExpansion_cached_other notEvent distinct written result outside other⟩
  rw [ringExpansion] at result
  split_ifs at result with short
  set segs := answers.segs.take (r.expansionSegs numTrbs) with is_segs
  have distinct' : segs.Nodup := distinct.sublist (List.take_sublist _ _)
  cases alloc : allocSegmentsForRing q r.type r.cycleState answers.write segs r.toSegments with
  | none => simp [alloc] at result
  | some parts =>
    obtain ⟨m, first, last⟩ := parts
    simp only [alloc, Option.some.injEq, linkRings, accepted, reduceCtorEq, if_false] at result
    set m' := linkSegments q r.type (linkSegments q r.type m r.enqueue.seg first .accepted) last (m.next r.enqueue.seg)
      .accepted with is_m'
    -- The toggle bits are edited, and not copied, at the end.
    have ends : Agrees m' p → Agrees r'.toSegments p := by
      intro agrees
      rw [← result]
      split_ifs with inFront
      · exact agrees_setToggle true (link last) (agrees_setToggle false (link r.lastSeg) agrees)
      · exact agrees
    refine ends (agrees_linkSegments isCached ?_ _ _ _)
    rcases changed with new | rfl
    · exact agrees_linkSegments isCached (allocSegments_agrees isCached alloc new) _ _ _
    · exact agrees_joined isCached _ _

end

/-! ### What the calls do to the copies -/

section
variable {Like : Trb → Trb → Prop} {q : Quirks} {r r' : Ring} {busy idle : List TrbPtr}

theorem LinkOf.congr {p : TrbPtr} {t : Trb} (linkOf : LinkOf r p t) (next : r'.next p.seg = r.next p.seg)
    (lastSeg : p.seg = r'.lastSeg ↔ p.seg = r.lastSeg) : LinkOf r' p t :=
  ⟨linkOf.isLink, by rw [linkOf.segmentPtr, next], by rw [linkOf.toggle, lastSeg]⟩

/-- TRBs that have been consumed. -/
theorem Mirrored.release {front : List TrbPtr} (likeness : Likeness Like) (mirrored : Mirrored Like r (front ++ busy) idle)
    (segments : r'.toSegments = r.toSegments) (lastSeg : r'.lastSeg = r.lastSeg) (enqueue : r'.enqueue = r.enqueue)
    (cacheEnqueue : r'.cacheEnqueue = r.cacheEnqueue) : Mirrored Like r' busy (idle ++ front) := by
  have agrees : ∀ p ∈ front, Agrees r.toSegments p := fun p member =>
    likeness.cycle (mirrored.like p (List.mem_append_left _ member))
  refine ⟨?_, ?_, ?_, ?_⟩
  · intro p member
    rw [segments]
    exact mirrored.like p (List.mem_append_right _ member)
  · intro p member inner
    rw [segments]
    rcases List.mem_append.mp member with inIdle | inFront
    · exact mirrored.plain p inIdle inner
    · exact agrees p inFront
  · intro p member onLink
    rw [segments]
    rcases List.mem_append.mp member with inIdle | inFront
    · refine (mirrored.links p inIdle onLink).imp_right fun linkOf => linkOf.congr (by rw [segments]) (by rw [lastSeg])
    · exact .inl (agrees p inFront)
  · rw [cacheEnqueue, enqueue, segments]
    refine mirrored.cacheEnqueue.imp_right fun ⟨onLink, member, leads⟩ => ⟨onLink, ?_, leads⟩
    simp only [List.mem_append] at member ⊢
    tauto

/-- A link that `prepare_ring` has handed over is copied. -/
theorem Mirrored.handedOver {busy' idle' : List TrbPtr} (likeness : Likeness Like) (mirrored : Mirrored Like r busy idle)
    (queue : Queue r busy idle) (isCached : ehubCacheRing r.type = true) (onLink : r.enqueue.idx = 63)
    (passed : Passed r busy idle busy' idle') : Mirrored Like (handedOver q r) busy' idle' := by
  set x := RingShape.handedOver q r with is_x
  have eq : x = { linkGiven r (handed q r.type (r.trb r.enqueue)) with
      toSegments := (linkGiven r (handed q r.type (r.trb r.enqueue))).copy r.enqueue } := by
    rw [is_x, RingShape.handedOver, if_pos isCached]
  have host : ∀ p, p ≠ r.enqueue → x.trb p = r.trb p := by
    intro p other
    rw [is_x, trb_handedOver]
    exact (trb_setTrb r r.enqueue p _).trans (if_neg other)
  have copies : ∀ p, cached x.toSegments p = if p = r.enqueue then x.trb p else cached r.toSegments p := by
    intro p
    rw [eq]
    exact cached_copy _ r.enqueue p
  have here : cached x.toSegments r.enqueue = x.trb r.enqueue := by
    rw [copies, if_pos rfl]
  have next : x.next = r.next := by rw [eq]; rfl
  have lastSeg : x.lastSeg = r.lastSeg := by rw [eq]; rfl
  obtain ⟨rest, rfl, moved⟩ := passed
  have distinct := queue.shape.isLap.1
  have apart : ∀ p ∈ busy ++ rest, p ≠ r.enqueue := by
    rintro p member rfl
    exact (List.nodup_cons.mp (List.nodup_middle.mp distinct)).1 member
  have inBusy : ∀ p ∈ busy, Like (x.trb p) (cached x.toSegments p) := by
    intro p member
    have other := apart p (List.mem_append_left _ member)
    rw [host p other, copies, if_neg other]
    exact mirrored.like p member
  have inRest : ∀ p ∈ rest, p.idx ≠ 63 → Agrees x.toSegments p := by
    intro p member inner
    have other := apart p (List.mem_append_right _ member)
    rw [Agrees, host p other, copies, if_neg other]
    exact mirrored.plain p (List.mem_cons_of_mem _ member) inner
  have linksRest : ∀ p ∈ rest, p.idx = 63 → Agrees x.toSegments p ∨ LinkOf x p (cached x.toSegments p) := by
    intro p member last
    have other := apart p (List.mem_append_right _ member)
    rw [Agrees, host p other, copies, if_neg other]
    exact (mirrored.links p (List.mem_cons_of_mem _ member) last).imp_right fun linkOf =>
      linkOf.congr (by rw [next]) (by rw [lastSeg])
  have begins : x.cacheEnqueue.idx = 63 ∧ x.cacheEnqueue = r.enqueue ∧ follow x.next x.cacheEnqueue = x.enqueue := by
    have was : r.cacheEnqueue = r.enqueue := by
      refine mirrored.cacheEnqueue.resolve_right ?_
      rintro ⟨last, _, leads⟩
      rw [follow, if_pos last] at leads
      rw [← leads] at onLink
      simp at onLink
    have same : x.cacheEnqueue = r.enqueue := by rw [eq]; exact was
    refine ⟨by rw [same, onLink], same, ?_⟩
    rw [same, next, follow, if_pos onLink, eq]
    rfl
  rcases moved with ⟨rfl, rfl⟩ | ⟨rfl, rfl, rfl⟩
  · refine ⟨?_, inRest, linksRest, .inr ⟨begins.1, by rw [begins.2.1]; simp, begins.2.2⟩⟩
    intro p member
    rcases List.mem_append.mp member with old | new
    · exact inBusy p old
    · rw [List.mem_singleton.mp new, here]
      exact likeness.refl _
  · refine ⟨by simp, ?_, ?_, .inr ⟨begins.1, by rw [begins.2.1]; simp, begins.2.2⟩⟩
    · intro p member inner
      rcases List.mem_append.mp member with old | new
      · exact inRest p old inner
      · rw [List.mem_singleton.mp new] at inner
        exact absurd onLink inner
    · intro p member last
      rcases List.mem_append.mp member with old | new
      · exact linksRest p old last
      · rw [List.mem_singleton.mp new, here]
        exact .inl rfl

/-- On a ring of several segments no segment leads to itself. -/
theorem next_ne {lap : List TrbPtr} (shape : Shape r lap) (several : 2 ≤ r.numSegs) {s : Addr} (member : link s ∈ lap) :
    r.next s ≠ s := by
  intro same
  have start : (⟨s, 0⟩ : TrbPtr) ∈ lap := by
    have leads : follow r.next (link s) = ⟨r.next s, 0⟩ := if_pos rfl
    rw [← same, ← leads]
    exact shape.follow_mem member
  obtain ⟨a, b, rfl⟩ := List.append_of_mem start
  have turned := shape.swap
  have first : ((⟨s, 0⟩ :: b) ++ a : List TrbPtr).head? = some ⟨s, 0⟩ := rfl
  obtain ⟨rest, split⟩ := stretch turned.isLap first 63 (by omega)
  have size := turned.size
  rw [split] at turned size
  have leads := turned.isLap.next_eq
  rw [follow, if_pos (by simp)] at leads
  cases rest with
  | nil =>
    simp [run] at size
    omega
  | cons x rest =>
    -- The segment would be entered twice.
    have is_x : x = ⟨s, 0⟩ := by simpa [same] using leads
    have distinct := turned.isLap.1
    have inRun : (⟨s, 0⟩ : TrbPtr) ∈ run s 0 63 := List.mem_map.mpr ⟨0, by simp, rfl⟩
    exact (List.nodup_append.mp distinct).2.2 _ inRun x (by simp) is_x.symm

/-- An expansion copies what it writes. -/
theorem Mirrored.grown {answers : Answers} {idle' : List TrbPtr} (mirrored : Mirrored Like r busy idle)
    (queue : Queue r busy idle) (isCached : ehubCacheRing r.type = true) (several : 2 ≤ r.numSegs)
    (accepted : ∀ i, answers.write i = .accepted) (grown : Grown q answers r r' busy idle idle') :
    Mirrored Like r' busy idle' := by
  obtain ⟨numTrbs, last, back, result, expanded, is_idle, is_idle'⟩ := grown.expands
  have enqIn : link r.enqueue.seg ∈ idle := by simp [is_idle]
  have copies := ringExpansion_cached isCached accepted grown.distinct result
  set segs := answers.segs.take (r.expansionSegs numTrbs) with is_segs
  have old : ∀ p ∈ busy ++ idle, p.seg ∉ segs := fun p member inSegs =>
    grown.fresh p member (List.mem_of_mem_take inSegs)
  have distinct := queue.shape.isLap.1
  have notLast : ∀ p ∈ busy ++ idle, (p.seg = r'.lastSeg ↔ p.seg = r.lastSeg) ∨ p.seg = r.enqueue.seg := by
    intro p member
    by_cases here : p.seg = r.enqueue.seg
    · exact .inr here
    · refine .inl ?_
      rw [expanded.lastSeg]
      split_ifs with inFront
      · have apart : p.seg ≠ last := fun same => old p member (same ▸ List.mem_of_getLast? expanded.last_eq)
        rw [← inFront]
        exact ⟨fun same => absurd same apart, fun same => absurd same here⟩
      · rfl
  -- A free TRB is an old one, the link that leads to the new ones, or one of these.
  have kinds : ∀ p ∈ idle', (p.seg ∈ segs ∨ p = link r.enqueue.seg) ∨ (p ∈ idle ∧ p ≠ link r.enqueue.seg) := by
    intro p member
    by_cases here : p = link r.enqueue.seg
    · exact .inl (.inr here)
    · rw [is_idle'] at member
      rw [is_idle]
      simp only [List.mem_append, List.mem_cons] at member ⊢
      rcases member with inRun | same | inNew | inBack
      · exact .inr ⟨.inl inRun, here⟩
      · exact absurd same here
      · exact .inl (.inl (mem_laid.mp inNew).1)
      · exact .inr ⟨.inr (.inr inBack), here⟩
  refine ⟨?_, ?_, ?_, ?_⟩
  · intro p member
    have inLap := List.mem_append_left idle member
    have other : p ≠ link r.enqueue.seg := by
      rintro rfl
      exact (List.nodup_append.mp distinct).2.2 _ member _ enqIn rfl
    rw [expanded.trbOther p (old p inLap) other, (copies p).2 (old p inLap) other]
    exact mirrored.like p member
  · intro p member inner
    rcases kinds p member with changed | ⟨inIdle, other⟩
    · exact (copies p).1 changed
    · have outside := old p (List.mem_append_right _ inIdle)
      rw [expanded.trbOther p outside other, (copies p).2 outside other]
      exact mirrored.plain p inIdle inner
  · intro p member onLink
    rcases kinds p member with changed | ⟨inIdle, other⟩
    · exact .inl ((copies p).1 changed)
    · have inLap := List.mem_append_right busy inIdle
      have outside := old p inLap
      have notHere : p.seg ≠ r.enqueue.seg := by
        intro same
        apply other
        simp [link, trbsPerSegment, ← onLink, ← same]
      rw [expanded.trbOther p outside other, (copies p).2 outside other]
      refine (mirrored.links p inIdle onLink).imp_right fun linkOf => linkOf.congr ?_ ?_
      · exact expanded.nextOther p.seg outside notHere
      · exact (notLast p inLap).resolve_right notHere
  · rw [expanded.cacheEnqueue, expanded.enqueue]
    refine mirrored.cacheEnqueue.imp_right ?_
    rintro ⟨onLink, member, leads⟩
    refine ⟨onLink, ?_, ?_⟩
    · rw [is_idle']
      rw [is_idle] at member
      simp only [List.mem_append, List.mem_cons] at member ⊢
      tauto
    · rw [follow, if_pos onLink] at leads ⊢
      have isLink : r.cacheEnqueue = link r.cacheEnqueue.seg := by simp [link, trbsPerSegment, ← onLink]
      have away : r.cacheEnqueue.seg ≠ r.enqueue.seg := by
        rw [isLink] at member
        rw [← leads]
        exact (next_ne queue.shape several member).symm
      rw [expanded.nextOther _ (old _ member) away, leads]

end

/-! ### The TRB before `enqueue` -/

/-- From the first TRB of a segment the ring runs through it and on to the next one. -/
theorem follow_iterate (next : Addr → Addr) (s : Addr) (j : Nat) : ∀ i ≤ 63,
    (follow next)^[64 * j + i] ⟨s, 0⟩ = ⟨next^[j] s, i⟩ := by
  have inside : ∀ s i, i ≤ 63 → (follow next)^[i] (⟨s, 0⟩ : TrbPtr) = ⟨s, i⟩ := by
    intro s i
    induction i with
    | zero => simp
    | succ i ih =>
      intro bound
      rw [Function.iterate_succ_apply', ih (by omega), follow, if_neg (by simp; omega)]
  induction j with
  | zero => simpa using inside s
  | succ j ih =>
    intro i bound
    have whole : 64 * (j + 1) + i = i + (1 + (64 * j + 63)) := by omega
    rw [whole, Function.iterate_add_apply, Function.iterate_add_apply, ih 63 le_rfl, Function.iterate_one, follow,
      if_pos rfl, inside _ i bound, Function.iterate_succ_apply']

section
variable {r : Ring} {a b : List TrbPtr} {p x : TrbPtr}

theorem prevSeg_eq {seg target : Addr} : ∀ {n fuel : Nat} {s : Addr}, n < fuel → r.next^[n] s = target →
    r.next target = seg → (∀ i ≤ n, r.next^[i] s ≠ seg) → prevSeg r seg fuel s = some target := by
  intro n
  induction n with
  | zero =>
    intro fuel s room there leads apart
    obtain ⟨f, rfl⟩ : ∃ f, fuel = f + 1 := ⟨fuel - 1, by omega⟩
    have is_s : s = target := there
    have other : s ≠ seg := apart 0 le_rfl
    rw [prevSeg, if_neg other, is_s, if_pos leads]
  | succ n ih =>
    intro fuel s room there leads apart
    obtain ⟨f, rfl⟩ : ∃ f, fuel = f + 1 := ⟨fuel - 1, by omega⟩
    have other : s ≠ seg := apart 0 (by omega)
    have other' : r.next s ≠ seg := apart 1 (by omega)
    rw [prevSeg, if_neg other, if_neg other']
    refine ih (by omega) there leads fun i bound => ?_
    exact apart (i + 1) (by omega)

/-- `ehub_find_prev_trb` finds the TRB before another one. -/
theorem findPrevTrb_eq (shape : Shape r (a ++ x :: p :: b)) (several : 2 ≤ r.numSegs) : r.findPrevTrb p = some x := by
  have leads : p = follow r.next x := by
    have := shape.isLap.next_eq
    simpa using this
  by_cases onLink : x.idx = 63
  · rw [follow, if_pos onLink] at leads
    -- From `p` on, `x` is the last TRB of the lap.
    have turned : Shape r ((p :: b) ++ (a ++ [x])) := by
      apply Shape.swap
      simpa using shape
    have nth : ∀ (k : Nat) (y : TrbPtr), ((p :: b) ++ (a ++ [x]))[k]? = some y → (follow r.next)^[k] p = y :=
      fun k y here => turned.isLap.iterate_getElem rfl here
    have is_p : p = ⟨r.next x.seg, 0⟩ := leads
    obtain ⟨n, is_n⟩ : ∃ n, r.numSegs = n + 2 := ⟨r.numSegs - 2, by omega⟩
    have size := turned.size
    have lastAt : (follow r.next)^[64 * (n + 1) + 63] p = x := by
      apply nth
      have here : 64 * (n + 1) + 63 = ((p :: b) ++ a).length := by
        simp only [List.length_append, List.length_cons, List.length_nil] at size ⊢
        omega
      rw [here, ← List.append_assoc, List.getElem?_append_right le_rfl]
      simp
    have xSeg : r.next^[n + 1] (r.next x.seg) = x.seg := by
      rw [is_p, follow_iterate r.next _ _ 63 le_rfl] at lastAt
      exact congrArg TrbPtr.seg lastAt
    have apart : ∀ i ≤ n, r.next^[i] (r.next (r.next x.seg)) ≠ r.next x.seg := by
      intro i bound same
      rw [← Function.iterate_succ_apply] at same
      have inside : 64 * (i + 1) < ((p :: b) ++ (a ++ [x])).length := by omega
      have there := nth (64 * (i + 1)) _ (List.getElem?_eq_getElem inside)
      have back := follow_iterate r.next (r.next x.seg) (i + 1) 0 (by omega)
      rw [← is_p, Nat.add_zero, there, same, ← is_p] at back
      have zero : ((p :: b) ++ (a ++ [x]))[0]? = some p := rfl
      have again := turned.isLap.1
      have index := (List.nodup_iff_getElem?_ne_getElem?.mp again) 0 (64 * (i + 1)) (by omega) inside
      rw [zero, List.getElem?_eq_getElem inside, back] at index
      exact index rfl
    rw [findPrevTrb, if_neg (by simp [is_p]), is_p]
    have found : prevSeg r (r.next x.seg) r.numSegs (r.next (r.next x.seg)) = some x.seg := by
      refine prevSeg_eq (n := n) (by omega) ?_ rfl apart
      rw [← Function.iterate_succ_apply]
      exact xSeg
    rw [found]
    simp [link, trbsPerSegment, ← onLink]
  · rw [follow, if_neg onLink] at leads
    rw [findPrevTrb, leads, if_pos (by simp)]
    simp

end

/-! ### Copying what has been queued -/

/-- Copied up to a place: everything, or up to the end of a segment, where a write was
    refused. -/
def UpTo (write : Nat → CacheWrite) (x y : List TrbPtr) : Prop :=
  y = [] ∨ ((∃ j, write j ≠ .accepted) ∧ (x = [] ∨ ∃ e, x.getLast? = some e ∧ e.idx = 63))

section
variable {r : Ring} {l pre post : List TrbPtr} {start last p : TrbPtr} {write : Nat → CacheWrite}

theorem cached_copyTrbs (r : Ring) (seg : Addr) (i n : Nat) (p : TrbPtr) :
    cached (r.copyTrbs seg i (i + n)).toSegments p =
      if p ∈ run seg i (n + 1) then r.trb p else cached r.toSegments p := by
  have same : (p.seg = seg ∧ i ≤ p.idx ∧ p.idx ≤ i + n) ↔ p ∈ run seg i (n + 1) := by
    rw [mem_run_iff, ← Nat.add_assoc, Nat.lt_succ_iff]
  by_cases inside : p ∈ run seg i (n + 1)
  · rw [if_pos inside]
    exact if_pos (same.mpr inside)
  · rw [if_neg inside]
    exact if_neg fun here => inside (same.mp here)

theorem shape_copyTrbs {lap : List TrbPtr} (shape : Shape r lap) (seg : Addr) (i n : Nat) :
    Shape (r.copyTrbs seg i n) lap :=
  shape.edit rfl rfl rfl rfl (fun _ _ => rfl) fun _ _ _ => ⟨rfl, rfl⟩

/-- A stretch that ends in the segment it starts in. -/
theorem stretch_last (shape : Shape r (pre ++ (l ++ post))) (first : l.head? = some start) (ends : l.getLast? = some last)
    (sameSeg : start.seg = last.seg) (ahead : start.idx ≤ last.idx) :
    l = run start.seg start.idx (last.idx - start.idx + 1) := by
  have turned : Shape r (l ++ (post ++ pre)) := by
    rw [← List.append_assoc]
    exact shape.swap
  obtain ⟨init, rfl⟩ := List.getLast?_eq_some_iff.mp ends
  have inLap : last ∈ init ++ [last] ++ (post ++ pre) := by simp
  have bound := turned.inside last inLap
  have begins : (init ++ [last] ++ (post ++ pre)).head? = some ⟨start.seg, start.idx⟩ := by
    rw [List.head?_append, first]
    rfl
  obtain ⟨rest, split⟩ := stretch turned.isLap begins (last.idx - start.idx) (by omega)
  have is_last : (⟨start.seg, start.idx + (last.idx - start.idx)⟩ : TrbPtr) = last := by
    rw [Nat.add_sub_cancel' ahead, sameSeg]
  have distinct := turned.isLap.1
  rw [is_last, List.append_assoc, List.singleton_append] at split
  rw [List.append_assoc, List.singleton_append] at distinct
  have notBefore : last ∉ init := fun member => (List.nodup_append.mp distinct).2.2 _ member _ (by simp) rfl
  have notAfter : last ∉ post ++ pre := (List.nodup_cons.mp (List.nodup_append.mp distinct).2.1).1
  have equal := (List.append_cons_inj_of_notMem notBefore notAfter).mp split
  rw [equal.1, run_succ, is_last]

/-- A stretch that does not runs to the end of its first segment and goes on in the next. -/
theorem stretch_on (shape : Shape r (pre ++ (l ++ post))) (first : l.head? = some start) (ends : l.getLast? = some last)
    (apart : start.seg ≠ last.seg ∨ start.idx > last.idx) :
    ∃ l', l = run start.seg start.idx (63 - start.idx + 1) ++ l' ∧ l'.head? = some ⟨r.next start.seg, 0⟩ ∧
      l'.getLast? = some last := by
  have turned : Shape r (l ++ (post ++ pre)) := by
    rw [← List.append_assoc]
    exact shape.swap
  have startIn : start ∈ l ++ (post ++ pre) := List.mem_append_left _ (List.mem_of_mem_head? first)
  have bound := turned.inside start startIn
  have begins : (l ++ (post ++ pre)).head? = some ⟨start.seg, start.idx⟩ := by
    rw [List.head?_append, first]
    rfl
  obtain ⟨rest, split⟩ := stretch turned.isLap begins (63 - start.idx) (by omega)
  have notYet : ∀ p ∈ run start.seg start.idx (63 - start.idx + 1), p ≠ last := by
    rintro p member rfl
    obtain ⟨seg, after, _⟩ := mem_run_iff.mp member
    rcases apart with other | before
    · exact other seg.symm
    · omega
  have whole : l ++ (post ++ pre) = run start.seg start.idx (63 - start.idx + 1) ++ rest := by
    rw [split, run_succ, List.append_assoc, List.singleton_append]
  have lastIn : last ∈ l := List.mem_of_getLast? ends
  rcases List.append_eq_append_iff.mp whole with ⟨c, is_run, _⟩ | ⟨c, is_l, is_rest⟩
  · exact absurd rfl (notYet last (by rw [is_run]; exact List.mem_append_left _ lastIn))
  · have some_left : c ≠ [] := by
      rintro rfl
      rw [List.append_nil] at is_l
      exact notYet last (is_l ▸ lastIn) rfl
    refine ⟨c, is_l, ?_, ?_⟩
    · have isLap := turned.isLap
      rw [split] at isLap
      have leads := isLap.next_eq
      have onLink : start.idx + (63 - start.idx) = 63 := by omega
      rw [follow, if_pos onLink, is_rest] at leads
      obtain ⟨y, c, rfl⟩ := List.exists_cons_of_ne_nil some_left
      simpa using leads
    · rw [is_l, List.getLast?_append] at ends
      obtain ⟨e, is_e⟩ := Option.isSome_iff_exists.mp (List.getLast?_isSome.mpr some_left)
      rw [is_e] at ends ⊢
      exact ends

/-- The loop of `ehub_xhci_cache_copy_from_ring` copies the TRBs from `start` to `last`,
    segment by segment, up to a write that is refused. -/
theorem cacheCopyLoop_copies : ∀ {fuel i : Nat} {r : Ring} {l pre : List TrbPtr} {start : TrbPtr},
    Shape r (pre ++ (l ++ post)) → l.head? = some start → l.getLast? = some last →
    l.countP (fun p => p.idx = 63) < fuel →
    ∃ x y, l = x ++ y ∧ UpTo write x y ∧
      ∀ p, cached (cacheCopyLoop last write fuel i start r).toSegments p =
        if p ∈ x then r.trb p else cached r.toSegments p := by
  intro fuel
  induction fuel with
  | zero => simp
  | succ fuel ih =>
    intro i r l pre start shape first ends room
    have startIn : start ∈ pre ++ (l ++ post) := by simp [List.mem_of_mem_head? first]
    have bound := shape.inside start startIn
    rw [cacheCopyLoop]
    by_cases goesOn : start.seg ≠ last.seg ∨ start.idx > last.idx
    · rw [if_pos goesOn]
      obtain ⟨l', rfl, first', ends'⟩ := stretch_on shape first ends goesOn
      by_cases accepted : write i = .accepted
      · rw [if_pos accepted]
        have toLink : trbsPerSegment - 1 = start.idx + (63 - start.idx) := by
          rw [trbsPerSegment]
          omega
        have isLast : start.idx + (63 - start.idx) = 63 := by omega
        have oneLink : 1 ≤ (run start.seg start.idx (63 - start.idx + 1)).countP (fun p => p.idx = 63) := by
          rw [run_succ, List.countP_append]
          simp [isLast]
        rw [List.countP_append] at room
        have moved : Shape (r.copyTrbs start.seg start.idx (trbsPerSegment - 1))
            ((pre ++ run start.seg start.idx (63 - start.idx + 1)) ++ (l' ++ post)) := by
          have := shape_copyTrbs shape start.seg start.idx (trbsPerSegment - 1)
          simpa using this
        obtain ⟨x, y, rfl, upTo, copies⟩ := ih (i := i + 1) moved first' ends' (by omega)
        refine ⟨run start.seg start.idx (63 - start.idx + 1) ++ x, y, by simp, ?_, ?_⟩
        · refine upTo.imp_right ?_
          rintro ⟨refused, stops⟩
          refine ⟨refused, .inr ?_⟩
          rcases stops with rfl | ⟨e, is_e, onLink⟩
          · refine ⟨_, by rw [List.append_nil, run_succ, List.getLast?_append]; rfl, isLast⟩
          · exact ⟨e, by rw [List.getLast?_append, is_e]; rfl, onLink⟩
        · intro p
          rw [copies p, toLink, cached_copyTrbs]
          have host : (r.copyTrbs start.seg start.idx (start.idx + (63 - start.idx))).trb p = r.trb p := rfl
          rw [host]
          by_cases inX : p ∈ x
          · rw [if_pos inX, if_pos (List.mem_append_right _ inX)]
          · rw [if_neg inX]
            simp only [List.mem_append, inX, or_false]
      · rw [if_neg accepted]
        exact ⟨[], _, rfl, .inr ⟨⟨i, accepted⟩, .inl rfl⟩, by simp⟩
    · rw [if_neg goesOn]
      rw [not_or, not_not, Nat.not_lt] at goesOn
      have is_l := stretch_last shape first ends goesOn.1 goesOn.2
      by_cases accepted : write i = .accepted
      · rw [if_pos accepted]
        refine ⟨l, [], by simp, .inl rfl, ?_⟩
        intro p
        have upTo : last.idx = start.idx + (last.idx - start.idx) := by omega
        rw [is_l]
        conv_lhs => rw [upTo]
        exact cached_copyTrbs r start.seg start.idx (last.idx - start.idx) p
      · rw [if_neg accepted]
        exact ⟨[], l, rfl, .inr ⟨⟨i, accepted⟩, .inl rfl⟩, by simp⟩

end

section
variable {Like : Trb → Trb → Prop} {r : Ring} {busy td idle l m pre post : List TrbPtr} {start p : TrbPtr}
  {write : Nat → CacheWrite} {pending ts : List Trb} {ccs c : Bool}

theorem links_le {lap : List TrbPtr} (shape : Shape r lap) : lap.countP (fun p => p.idx = 63) = r.numSegs := by
  have all := List.length_eq_countP_add_countP (fun p : TrbPtr => p.idx ≠ 63) (l := lap)
  have size := shape.size
  have count := shape.count
  have links : lap.countP (fun p => decide (¬(decide (p.idx ≠ 63)) = true)) = lap.countP (fun p => p.idx = 63) :=
    List.countP_congr fun p _ => by simp
  rw [nonlinks] at count
  rw [links] at all
  omega

/-- `ehub_xhci_cache_copy_from_ring` copies the TRBs from `cache_enqueue` to `enqueue`. -/
theorem cacheCopyFromRing_copies (shape : Shape r (pre ++ (l ++ r.enqueue :: post))) (several : 2 ≤ r.numSegs)
    (first : l.head? = some r.cacheEnqueue) (write : Nat → CacheWrite) :
    (r.cacheCopyFromRing write).cacheEnqueue = r.enqueue ∧
    ∃ x y, l = x ++ y ∧ UpTo write x y ∧
      ∀ p, cached (r.cacheCopyFromRing write).toSegments p = if p ∈ x then r.trb p else cached r.toSegments p := by
  have some_trbs : l ≠ [] := by
    rintro rfl
    simp at first
  obtain ⟨last, ends⟩ := Option.isSome_iff_exists.mp (List.getLast?_isSome.mpr some_trbs)
  obtain ⟨init, is_l⟩ := List.getLast?_eq_some_iff.mp ends
  have found : r.findPrevTrb r.enqueue = some last := by
    have split : pre ++ (l ++ r.enqueue :: post) = (pre ++ init) ++ last :: r.enqueue :: post := by simp [is_l]
    rw [split] at shape
    exact findPrevTrb_eq shape several
  have room : l.countP (fun p => p.idx = 63) < r.numSegs + 1 := by
    have all := links_le shape
    simp only [List.countP_append] at all
    omega
  rw [cacheCopyFromRing, found]
  exact ⟨rfl, cacheCopyLoop_copies shape first ends room⟩

/-- The TRB that leads to the first one of a lap is its last one. -/
theorem last_of_leads (shape : Shape r (td ++ m)) (first : td.head? = some start) (some_left : m ≠ [])
    (member : p ∈ td ++ m) (leads : follow r.next p = start) : ∃ front, m = front ++ [p] := by
  obtain ⟨u, v, split⟩ := List.append_of_mem member
  have begins : (td ++ m).head? = some start := by
    rw [List.head?_append, first]
    rfl
  have distinct := shape.isLap.1
  have isLap := shape.isLap
  rw [split] at isLap distinct begins
  have step := isLap.next_eq
  rw [leads] at step
  cases v with
  | nil =>
    obtain ⟨last, is_last⟩ := Option.isSome_iff_exists.mp (List.getLast?_isSome.mpr some_left)
    obtain ⟨front, rfl⟩ := List.getLast?_eq_some_iff.mp is_last
    refine ⟨front, ?_⟩
    rw [← List.append_assoc] at split
    rw [(List.append_inj' split rfl).2]
  | cons y v =>
    -- The first place would come again behind `p`.
    have is_y : y = start := by simpa using step
    cases u with
    | nil =>
      have is_p : p = start := by simpa using begins
      rw [is_p, is_y] at distinct
      simp at distinct
    | cons z u =>
      have is_z : z = start := by simpa using begins
      rw [is_z, is_y] at distinct
      simp at distinct

/-- A ring on which the TRBs `td` have been queued behind the busy ones, before they are
    copied: to the device they are still free. -/
structure Ready (Like : Trb → Trb → Prop) (r : Ring) (busy td idle : List TrbPtr) : Prop where
  like : ∀ p ∈ busy, Like (r.trb p) (cached r.toSegments p)
  held : ∀ p ∈ td, p.idx ≠ 63 → (cached r.toSegments p).cycle = !(r.trb p).cycle
  plain : ∀ p ∈ idle, p.idx ≠ 63 → (cached r.toSegments p).cycle = (r.trb p).cycle
  links : ∀ p ∈ idle, p.idx = 63 →
    (cached r.toSegments p).cycle = (r.trb p).cycle ∨ LinkOf r p (cached r.toSegments p)
  cacheEnqueue : td.head? = some r.cacheEnqueue ∨
    (r.cacheEnqueue.idx = 63 ∧ r.cacheEnqueue ∈ busy ++ idle ∧ td.head? = some (follow r.next r.cacheEnqueue))

/-- They are copied segment by segment, perhaps with the link before them. -/
theorem Ready.copies (ready : Ready Like r busy td idle) (queue : Queue r (busy ++ td) idle) (several : 2 ≤ r.numSegs)
    (room : 1 ≤ nonlinks idle) (write : Nat → CacheWrite) :
    (r.cacheCopyFromRing write).cacheEnqueue = r.enqueue ∧
    ∃ x y, td = x ++ y ∧ UpTo write x y ∧
      (∀ p ∈ x, cached (r.cacheCopyFromRing write).toSegments p = r.trb p) ∧
      ∀ p ∉ x, cached (r.cacheCopyFromRing write).toSegments p = cached r.toSegments p ∨
        (p.idx = 63 ∧ cached (r.cacheCopyFromRing write).toSegments p = r.trb p) := by
  obtain ⟨rest, rfl⟩ := queue.idle_eq
  rcases ready.cacheEnqueue with first | ⟨onLink, member, first⟩
  · have shape : Shape r (busy ++ (td ++ r.enqueue :: rest)) := by simpa using queue.shape
    obtain ⟨moved, x, y, split, upTo, copies⟩ := cacheCopyFromRing_copies shape several first write
    refine ⟨moved, x, y, split, upTo, ?_, ?_⟩
    · exact fun p inX => by rw [copies, if_pos inX]
    · exact fun p notInX => .inl (by rw [copies, if_neg notInX])
  · have turned : Shape r (td ++ ((r.enqueue :: rest) ++ busy)) := by
      rw [← List.append_assoc]
      apply Shape.swap
      simpa using queue.shape
    have inLap : r.cacheEnqueue ∈ td ++ ((r.enqueue :: rest) ++ busy) := by
      simp only [List.mem_append] at member ⊢
      tauto
    obtain ⟨front, is_front⟩ := last_of_leads turned first (by simp) inLap rfl
    obtain ⟨front, rfl⟩ : ∃ front', front = r.enqueue :: front' := by
      cases front with
      | nil =>
        have alone : r.enqueue = r.cacheEnqueue ∧ rest ++ busy = [] := by simpa using is_front
        rw [(List.append_eq_nil_iff.mp alone.2).1, nonlinks_cons, if_neg (by simp [alone.1, onLink])] at room
        simp at room
      | cons y front =>
        have same : r.enqueue = y ∧ rest ++ busy = front ++ [r.cacheEnqueue] := by simpa using is_front
        exact ⟨front, by rw [same.1]⟩
    have shape : Shape r ([] ++ ((r.cacheEnqueue :: td) ++ r.enqueue :: front)) := by
      rw [is_front, ← List.append_assoc] at turned
      have := turned.swap
      simpa using this
    obtain ⟨moved, x, y, split, upTo, copies⟩ := cacheCopyFromRing_copies shape several rfl write
    refine ⟨moved, ?_⟩
    cases x with
    | nil =>
      refine ⟨[], td, rfl, ?_, by simp, fun p _ => .inl (by rw [copies, if_neg (by simp)])⟩
      have is_y : y = r.cacheEnqueue :: td := by simpa using split.symm
      refine .inr ⟨?_, .inl rfl⟩
      rcases upTo with nothing | ⟨refused, _⟩
      · rw [is_y] at nothing
        simp at nothing
      · exact refused
    | cons z x =>
      obtain ⟨is_z, is_td⟩ : r.cacheEnqueue = z ∧ td = x ++ y := by simpa using split
      subst is_z
      refine ⟨x, y, is_td, ?_, ?_, ?_⟩
      · refine upTo.imp_right fun ⟨refused, stops⟩ => ⟨refused, ?_⟩
        cases x with
        | nil => exact .inl rfl
        | cons z x =>
          obtain ⟨e, is_e, last⟩ := stops.resolve_left (by simp)
          exact .inr ⟨e, by rw [← is_e, List.getLast?_cons_cons], last⟩
      · exact fun p inX => by rw [copies, if_pos (List.mem_cons_of_mem _ inX)]
      · intro p notInX
        by_cases here : p = r.cacheEnqueue
        · exact .inr ⟨here ▸ onLink, by rw [copies, if_pos (by simp [here])]⟩
        · exact .inl (by rw [copies, if_neg (by simp [here, notInX])])

/-- Once all of them are copied they are mirrored. -/
theorem Ready.all_copied (likeness : Likeness Like) (ready : Ready Like r busy td idle) (queue : Queue r (busy ++ td) idle)
    (moved : (r.cacheCopyFromRing write).cacheEnqueue = r.enqueue)
    (copied : ∀ p ∈ td, cached (r.cacheCopyFromRing write).toSegments p = r.trb p)
    (others : ∀ p ∉ td, cached (r.cacheCopyFromRing write).toSegments p = cached r.toSegments p ∨
      (p.idx = 63 ∧ cached (r.cacheCopyFromRing write).toSegments p = r.trb p)) :
    Mirrored Like (r.cacheCopyFromRing write) (busy ++ td) idle := by
  obtain ⟨cache, cacheEnqueue, eq⟩ := cacheCopyFromRing_eq r write
  have host : ∀ p, (r.cacheCopyFromRing write).trb p = r.trb p := fun p => by rw [eq]; rfl
  have next : (r.cacheCopyFromRing write).next = r.next := by rw [eq]
  have lastSeg : (r.cacheCopyFromRing write).lastSeg = r.lastSeg := by rw [eq]
  have enqueue : (r.cacheCopyFromRing write).enqueue = r.enqueue := by rw [eq]
  have distinct := queue.shape.isLap.1
  have apart : ∀ p ∈ idle, p ∉ td := fun p member inTd =>
    (List.nodup_append.mp distinct).2.2 p (List.mem_append_right _ inTd) p member rfl
  refine ⟨?_, ?_, ?_, .inl (by rw [moved, enqueue])⟩
  · intro p member
    rw [host]
    by_cases inTd : p ∈ td
    · rw [copied p inTd]
      exact likeness.refl _
    · have inBusy := (List.mem_append.mp member).resolve_right inTd
      rcases others p inTd with same | ⟨_, same⟩
      · rw [same]
        exact ready.like p inBusy
      · rw [same]
        exact likeness.refl _
  · intro p member inner
    rw [host]
    rcases others p (apart p member) with same | ⟨onLink, _⟩
    · rw [same]
      exact ready.plain p member inner
    · exact absurd onLink inner
  · intro p member onLink
    rw [host]
    rcases others p (apart p member) with same | ⟨_, same⟩
    · rw [same]
      exact (ready.links p member onLink).imp_right fun linkOf => linkOf.congr (by rw [next]) (by rw [lastSeg])
    · exact .inl (by rw [same])

theorem Ready.mirrored (likeness : Likeness Like) (ready : Ready Like r busy td idle) (queue : Queue r (busy ++ td) idle)
    (several : 2 ≤ r.numSegs) (room : 1 ≤ nonlinks idle) (accepted : ∀ i, write i = .accepted) :
    Mirrored Like (r.cacheCopyFromRing write) (busy ++ td) idle := by
  obtain ⟨moved, x, y, split, upTo, copied, others⟩ := ready.copies queue several room write
  have is_x : td = x := by
    rcases upTo with rfl | ⟨⟨j, refused⟩, _⟩
    · rw [split, List.append_nil]
    · exact absurd (accepted j) refused
  subst is_x
  exact ready.all_copied likeness queue moved copied others

theorem length_contents {lap : List TrbPtr} (shape : Shape r lap) (inside : ∀ p ∈ l, p ∈ lap) :
    (contents r l).length = nonlinks l := by
  rw [contents, List.length_map, ← List.countP_eq_length_filter, nonlinks]
  refine List.countP_congr fun p member => ?_
  have links := shape.links p (inside p member)
  by_cases onLink : p.idx = 63
  · simp [onLink, links.mpr onLink]
  · have plain : (r.trb p).isLink = false := by simpa using mt links.mp onLink
    simp [onLink, plain]

/-- Whatever writes are accepted, the device takes the TRBs before, and of the new ones
    none, all, or those up to the end of a segment. -/
theorem Ready.sees (likeness : Likeness Like) (ready : Ready Like r busy td idle)
    (view : View r (pending ++ ts) ccs (busy ++ td) idle c) (before : contents r busy = pending) (several : 2 ≤ r.numSegs)
    (room : 1 ≤ nonlinks idle) (first : td.head? = some start) (inner : start.idx ≠ 63) (write : Nat → CacheWrite) :
    ∃ m, Sees (r.cacheCopyFromRing write) ccs (pending ++ ts.take m) ∧
      (m = 0 ∨ m = ts.length ∨ (start.idx + m) % 63 = 0) := by
  have queue := view.queue
  have distinct := queue.shape.isLap.1
  have after : contents r td = ts := by
    have whole := view.pending
    rwa [contents_append, before, List.append_cancel_left_eq] at whole
  obtain ⟨cache, cacheEnqueue, eq⟩ := cacheCopyFromRing_eq r write
  have host : ∀ p, (r.cacheCopyFromRing write).trb p = r.trb p := fun p => by rw [eq]; rfl
  obtain ⟨moved, x, y, rfl, upTo, copied, others⟩ := ready.copies queue several room write
  cases y with
  | nil =>
    rw [List.append_nil] at ready view queue
    rw [List.append_nil] at after
    refine ⟨ts.length, ?_, .inr (.inl rfl)⟩
    have mirrored := ready.all_copied likeness queue moved copied others
    have copy : View (r.cacheCopyFromRing write) (pending ++ ts) ccs (busy ++ x) idle c := by
      rw [eq]
      exact view.recached cache cacheEnqueue
    rw [List.take_length]
    exact mirrored.sees likeness copy room
  | cons stop y =>
    have stops := (upTo.resolve_left (by simp)).2
    have inOrder : (busy ++ (x ++ stop :: y) ++ idle).head? = some r.dequeue := by
      rcases queue.dequeue with inOrder | ⟨nothing, _⟩
      · exact inOrder
      · simp at nothing
    have shape : Shape r ((busy ++ x) ++ stop :: (y ++ idle)) := by simpa using queue.shape
    have dequeued : ((busy ++ x) ++ stop :: (y ++ idle)).head? = some r.dequeue := by simpa using inOrder
    -- The TRB behind what has been copied is the first one, or the first of its segment.
    have innerStop : stop.idx ≠ 63 ∧ (x ≠ [] → stop.idx = 0) := by
      rcases stops with rfl | ⟨e, is_e, onLink⟩
      · have is_start : stop = start := by simpa using first
        exact ⟨is_start ▸ inner, by simp⟩
      · obtain ⟨init, rfl⟩ := List.getLast?_eq_some_iff.mp is_e
        have isLap : IsLap (follow r.next) ((busy ++ init) ++ e :: stop :: (y ++ idle)) := by simpa using shape.isLap
        have leads := isLap.next_eq
        rw [follow, if_pos onLink] at leads
        have is_stop : stop = ⟨r.next e.seg, 0⟩ := by simpa using leads
        simp [is_stop]
    have notInX : stop ∉ x := by
      intro member
      have := (List.nodup_append.mp (List.nodup_append.mp distinct).1).2.1
      exact (List.nodup_append.mp this).2.2 _ member _ (by simp) rfl
    have untouched : cached (r.cacheCopyFromRing write).toSegments stop = cached r.toSegments stop := by
      rcases others stop notInX with same | ⟨onLink, _⟩
      · exact same
      · exact absurd onLink innerStop.1
    have owned := view.phased.owned
    rw [← List.append_assoc, inPhase_append] at owned
    refine ⟨nonlinks x, ?_, ?_⟩
    · have shape' : Shape (r.cacheCopyFromRing write) ((busy ++ x) ++ stop :: (y ++ idle)) := by
        rw [eq]
        exact shape.edit rfl rfl rfl rfl (fun _ _ => rfl) fun _ _ _ => ⟨rfl, rfl⟩
      have taken : contents (r.cacheCopyFromRing write) (busy ++ x) = pending ++ ts.take (nonlinks x) := by
        have size := length_contents shape (l := x) (fun p member => by simp [member])
        have part : ts.take (nonlinks x) = contents r x := by
          rw [← after, contents_append, ← size, List.take_left']
          rfl
        rw [contents_edit fun p _ => host p, contents_append, before, part]
      rw [← taken, view.ccs_ahead (not_overtaken queue inOrder room)]
      refine sees_upTo likeness shape' (by rw [eq]; exact dequeued) ?_ ?_ ?_
      · intro p member
        rw [host]
        by_cases inX : p ∈ x
        · rw [copied p inX]
          exact likeness.refl _
        · rcases others p inX with same | ⟨_, same⟩
          · rw [same]
            exact ready.like p ((List.mem_append.mp member).resolve_right inX)
          · rw [same]
            exact likeness.refl _
      · exact inPhase_edit owned.1 fun p _ => host p
      · have held := ready.held stop (by simp) innerStop.1
        have mark : (r.trb stop).cycle = phase (flipsAt r) c (busy ++ x) := owned.2.1
        rw [untouched, held, mark, phase_edit c fun p _ => host p]
    · by_cases nothing : x = []
      · exact .inl (by simp [nothing])
      · refine .inr (.inr ?_)
        have isLap : IsLap (follow r.next) (busy ++ (x ++ stop :: (y ++ idle))) := by simpa using shape.isLap
        have begins : (x ++ stop :: (y ++ idle)).head? = some start := by
          obtain ⟨z, x, rfl⟩ := List.exists_cons_of_ne_nil nothing
          simpa using first
        rw [← idx_mod isLap begins, innerStop.2 nothing]

end

/-! ### TDs that are queued -/

section
variable {Like : Trb → Trb → Prop} {q : Quirks} {r r' : Ring} {busy td idle : List TrbPtr} {pending pending' : List Trb}
  {ccs ccs' c : Bool}

/-- What has been queued on a mirrored ring is ready to be copied, if nothing but links has
    been written meanwhile. -/
theorem Mirrored.ready (mirrored : Mirrored Like r busy (td ++ idle)) (view : View r pending ccs busy (td ++ idle) c)
    (view' : View r' pending' ccs' (busy ++ td) idle c) (kept : Kept r r' td) (begins : td.head? = some r.enqueue)
    (copied : ∀ p, cached r'.toSegments p = cached r.toSegments p ∨ (p ∈ td ∧ p.idx = 63)) : Ready Like r' busy td idle := by
  have shape := view.queue.shape
  have shape' := view'.queue.shape
  have distinct := shape.isLap.1
  rw [← List.append_assoc] at shape distinct
  have apartBusy : ∀ p ∈ busy, p ∉ td := fun p inBusy inTd =>
    (List.nodup_append.mp (List.nodup_append.mp distinct).1).2.2 p inBusy p inTd rfl
  have apartIdle : ∀ p ∈ idle, p ∉ td := fun p inIdle inTd =>
    (List.nodup_append.mp distinct).2.2 p (List.mem_append_right _ inTd) p inIdle rfl
  have untouched : ∀ p, (p ∉ td ∨ p.idx ≠ 63) → cached r'.toSegments p = cached r.toSegments p := by
    rintro p outside
    refine (copied p).resolve_right ?_
    rintro ⟨inTd, onLink⟩
    exact outside.elim (fun notIn => notIn inTd) fun inner => inner onLink
  refine ⟨?_, ?_, ?_, ?_, ?_⟩
  · intro p member
    rw [kept.trb p (apartBusy p member), untouched p (.inl (apartBusy p member))]
    exact mirrored.like p member
  · -- Every TRB of the TD has changed hands on the ring.
    have flips : ∀ p ∈ td, flipsAt r' p = flipsAt r p := by
      intro p member
      have inLap : p ∈ busy ++ td ++ idle := by simp [member]
      rw [Bool.eq_iff_iff, flipsAt_iff shape' inLap, flipsAt_iff shape inLap, kept.lastSeg]
    have inBusy : ∀ p ∈ busy, r'.trb p = r.trb p := fun p member => kept.trb p (apartBusy p member)
    have owned := ((inPhase_append c busy td).mp view'.phased.owned).2
    rw [phase_edit c inBusy, view.phased.cycleState] at owned
    have free := ((inPhase_append _ td idle).mp view.phased.free).1
    have opposite := owned.opposite (free.congr (fun _ _ => rfl) flips)
    intro p member inner
    have changed : (r'.trb p).cycle = !(r.trb p).cycle := opposite p member
    rw [untouched p (.inr inner), mirrored.plain p (List.mem_append_left _ member) inner, changed, Bool.not_not]
  · intro p member inner
    rw [kept.trb p (apartIdle p member), untouched p (.inl (apartIdle p member))]
    exact mirrored.plain p (List.mem_append_right _ member) inner
  · intro p member onLink
    rw [kept.trb p (apartIdle p member), untouched p (.inl (apartIdle p member))]
    exact (mirrored.links p (List.mem_append_right _ member) onLink).imp_right fun linkOf =>
      linkOf.congr (by rw [kept.next]) (by rw [kept.lastSeg])
  · rw [kept.cacheEnqueue, kept.next, begins]
    rcases mirrored.cacheEnqueue with here | ⟨onLink, member, leads⟩
    · exact .inl (by rw [here])
    · refine .inr ⟨onLink, ?_, by rw [leads]⟩
      have turned : Shape r (td ++ (idle ++ busy)) := by
        rw [← List.append_assoc]
        apply Shape.swap
        simpa using shape
      have inLap : r.cacheEnqueue ∈ td ++ (idle ++ busy) := by
        simp only [List.mem_append] at member ⊢
        tauto
      have some_left : idle ++ busy ≠ [] := by
        obtain ⟨rest, rfl⟩ := view'.queue.idle_eq
        simp
      obtain ⟨front, is_last⟩ := last_of_leads turned begins some_left inLap leads
      have : r.cacheEnqueue ∈ idle ++ busy := by simp [is_last]
      simp only [List.mem_append] at this ⊢
      exact this.symm

/-- A TD queued on a mirrored ring, before it is copied. -/
theorem Mirrored.queueRest (mirrored : Mirrored Like r busy idle) (view : View r pending ccs busy idle c)
    (inner : r.enqueue.idx ≠ 63) {ts : List Trb} (some_trbs : ts ≠ []) (plain : ∀ t ∈ ts, t.isLink = false)
    (room : ts.length + 1 ≤ nonlinks idle) :
    ∃ td idle', idle = td ++ idle' ∧ nonlinks td = ts.length ∧ td.head? = some r.enqueue ∧
      View (queueRest q ts r) (pending ++ ts.map (·.setCycle false)) ccs (busy ++ td) idle' c ∧
      contents (queueRest q ts r) busy = pending ∧ Kept r (queueRest q ts r) td ∧
      Ready Like (queueRest q ts r) busy td idle' := by
  obtain ⟨td, idle', rfl, view', counted, kept⟩ := view.queueRest q inner ts some_trbs plain room
  have begins : td.head? = some r.enqueue := by
    have first := view.queue.enqueue
    cases td with
    | nil => exact absurd (List.length_eq_zero_iff.mp counted.symm) some_trbs
    | cons x td => exact first
  have distinct := view.queue.shape.isLap.1
  refine ⟨td, idle', rfl, counted, begins, view', ?_, kept, ?_⟩
  · rw [← view.pending]
    refine contents_edit fun p member => kept.trb p fun inTd => ?_
    exact (List.nodup_append.mp distinct).2.2 p member p (List.mem_append_left _ inTd) rfl
  · refine mirrored.ready view view' kept begins fun p => .inl ?_
    rw [cached, cache_queueRest]
    rfl

theorem contents_setCycle (r : Ring) (p : TrbPtr) (c : Bool) (l : List TrbPtr) :
    contents (r.modifyTrb p (·.setCycle c)) l = contents r l := by
  have same : ∀ x, ((r.modifyTrb p (·.setCycle c)).trb x).isLink = (r.trb x).isLink ∧
      ((r.modifyTrb p (·.setCycle c)).trb x).setCycle false = (r.trb x).setCycle false := by
    intro x
    rw [trb_modifyTrb]
    split_ifs with here
    · rw [here, Trb.isLink_setCycle, Trb.setCycle_setCycle]
      exact ⟨rfl, rfl⟩
    · exact ⟨rfl, rfl⟩
  rw [contents, contents, List.filter_congr fun x _ => by rw [(same x).1]]
  exact List.map_congr_left fun x _ => (same x).2

/-- The TRBs of a URB, once the first one has been released. -/
theorem filling_released (filling : Isoc.Filling r r' busy td idle) (view : View r pending ccs busy (td ++ idle) c)
    (begins : td.head? = some r.enqueue) (inner : r.enqueue.idx ≠ 63) (room : 1 ≤ nonlinks idle) :
    View (r'.modifyTrb r.enqueue (·.setCycle r.cycleState)) (pending ++ contents r' td) ccs (busy ++ td) idle c ∧
      Kept r (r'.modifyTrb r.enqueue (·.setCycle r.cycleState)) td := by
  have shape := view.queue.shape
  have distinct := shape.isLap.1
  rw [← List.append_assoc] at shape distinct
  have startIn : r.enqueue ∈ td := List.mem_of_mem_head? begins
  have plain : ((r'.trb r.enqueue).setCycle r.cycleState).isLink = false := by
    rw [Trb.isLink_setCycle]
    have inLap : r.enqueue ∈ busy ++ td ++ idle := by simp [startIn]
    simpa using mt (filling.queue.shape.links _ inLap).mp inner
  set x := r'.modifyTrb r.enqueue (·.setCycle r.cycleState) with is_x
  have shape' : Shape x (busy ++ td ++ idle) := filling.queue.shape.setTrb inner plain
  have queue' : Queue x (busy ++ td) idle := filling.queue.edit shape' rfl rfl rfl rfl rfl
  have read : ∀ p, x.trb p = if p = r.enqueue then (r'.trb r.enqueue).setCycle r.cycleState else r'.trb p :=
    fun p => trb_modifyTrb r' r.enqueue p _
  have kept : Kept r x td := by
    have before := filling.kept
    refine ⟨?_, before.next, before.lastSeg, before.dequeue, before.cacheEnqueue, before.numSegs, before.type⟩
    intro p outside
    have other : p ≠ r.enqueue := by
      rintro rfl
      exact outside startIn
    rw [read, if_neg other, before.trb p outside]
  have apartBusy : ∀ p ∈ busy, x.trb p = r.trb p := fun p inBusy => kept.trb p fun inTd =>
    (List.nodup_append.mp (List.nodup_append.mp distinct).1).2.2 p inBusy p inTd rfl
  have apartIdle : ∀ p ∈ idle, x.trb p = r.trb p := fun p inIdle => kept.trb p fun inTd =>
    (List.nodup_append.mp distinct).2.2 p (List.mem_append_right _ inTd) p inIdle rfl
  have flips : ∀ p ∈ td, flipsAt x p = flipsAt r p := by
    intro p member
    have inLap : p ∈ busy ++ td ++ idle := by simp [member]
    rw [Bool.eq_iff_iff, flipsAt_iff shape' inLap, flipsAt_iff shape inLap, kept.lastSeg]
  obtain ⟨freeTd, freeIdle⟩ := (inPhase_append _ td idle).mp view.phased.free
  have flipped : ∀ p ∈ td, cycleAt x p = !cycleAt r p := by
    intro p member
    rw [cycleAt, read]
    split_ifs with here
    · have first : cycleAt r r.enqueue = !r.cycleState := by
        obtain ⟨rest, rfl⟩ := List.head?_eq_some_iff.mp begins
        exact freeTd.1
      rw [here, first, Trb.cycle_setCycle, Bool.not_not]
    · exact filling.taken p member here
  have sameState : x.cycleState = phase (flipsAt r) r.cycleState td := filling.cycleState
  have inOrder : (busy ++ td ++ idle).head? = some x.dequeue := filling.inOrder startIn
  refine ⟨?_, kept⟩
  rw [view.ccs_ahead (not_overtaken_inner view.queue inner)]
  refine .of_ahead queue' ⟨?_, ?_, ?_⟩ ?_ (not_overtaken queue' inOrder room)
  · rw [inPhase_append, phase_edit c apartBusy, view.phased.cycleState]
    refine ⟨inPhase_edit view.phased.owned apartBusy, ?_⟩
    exact (freeTd.congr (fun _ _ => rfl) flips).flip flipped
  · rw [phase_append, phase_edit c apartBusy, view.phased.cycleState, phase_congr _ flips, sameState]
  · rw [sameState, ← phase_not]
    exact inPhase_edit freeIdle apartIdle
  · rw [contents_append, contents_edit apartBusy, view.pending, contents_setCycle]

theorem linkOf_shape {lap : List TrbPtr} (shape : Shape r lap) {p : TrbPtr} (member : p ∈ lap) (onLink : p.idx = 63) :
    LinkOf r p (r.trb p) :=
  ⟨(shape.links p member).mpr onLink, shape.pointers p member onLink, shape.toggles p member onLink⟩

/-- A URB that is taken back: the ring is as it was, and the device may keep links that
    have been handed over. -/
theorem interrupted_restored {x : Ring} {done rest : List TrbPtr} (tds : List Td) (urb i : Nat)
    (interrupted : Isoc.Interrupted r x busy done rest) (view : View r pending ccs busy (done ++ x.enqueue :: rest) c)
    (start : r.enqueue.idx ≠ 63)
    (same : (cycleAt x x.enqueue ^^ decide (x.enqueue.idx = 63)) = cycleAt r x.enqueue)
    (mirrored : Mirrored Like r busy (done ++ x.enqueue :: rest))
    (copied : ∀ p, cached x.toSegments p = cached r.toSegments p ∨
      (p ∈ done ∧ p.idx = 63 ∧ SameLink (r.trb p) (cached x.toSegments p))) :
    let result := (Isoc.cleanup x tds urb i ⟨r.enqueue, r.cycleState, r.numTrbsFree⟩).1
    View result pending ccs busy (done ++ x.enqueue :: rest) c ∧ Mirrored Like result busy (done ++ x.enqueue :: rest) ∧
      result.numSegs = r.numSegs ∧ result.type = r.type ∧ result.dequeue = r.dequeue := by
  intro result
  have queue := view.queue
  have shape := queue.shape
  have distinct := shape.isLap.1
  obtain ⟨trbs, eq, shapeX, outside, cycles⟩ := interrupted.cycleAt_noop start queue.enqueue
  have kept := interrupted.kept
  have fields : result = { x with
      trbs := trbs, enqueue := r.enqueue, cycleState := r.cycleState, numTrbsFree := r.numTrbsFree } := by
    show ({ x.tdToNoop r.enqueue x.enqueue true with
      enqueue := r.enqueue, cycleState := r.cycleState, numTrbsFree := r.numTrbsFree } : Ring) = _
    rw [eq]
  have host : ∀ p, result.trb p = (x.tdToNoop r.enqueue x.enqueue true).trb p := fun _ => rfl
  have next : result.next = r.next := by rw [fields, ← kept.next]
  have lastSeg : result.lastSeg = r.lastSeg := by rw [fields, ← kept.lastSeg]
  have numSegs : result.numSegs = r.numSegs := by rw [fields, ← kept.numSegs]
  have type : result.type = r.type := by rw [fields, ← kept.type]
  have dequeue : result.dequeue = r.dequeue := by rw [fields, ← kept.dequeue]
  have cacheEnqueue : result.cacheEnqueue = r.cacheEnqueue := by rw [fields, ← kept.cacheEnqueue]
  have enqueue : result.enqueue = r.enqueue := by rw [fields]
  have cache : result.cache = x.cache := by rw [fields]
  have shape' : Shape result (busy ++ (done ++ x.enqueue :: rest)) :=
    shapeX.edit rfl rfl rfl rfl (fun _ _ => rfl) fun _ _ _ => ⟨rfl, rfl⟩
  have sameCycle : ∀ p, cycleAt result p = cycleAt r p := by
    intro p
    rw [cycleAt, host]
    refine (cycles p).trans ?_
    split_ifs with here
    · rw [here, same]
    · rfl
  have sameFlips : ∀ p ∈ busy ++ (done ++ x.enqueue :: rest), flipsAt result p = flipsAt r p := by
    intro p member
    rw [Bool.eq_iff_iff, flipsAt_iff shape' member, flipsAt_iff shape member, lastSeg]
  have sameBusy : ∀ p ∈ busy, result.trb p = r.trb p := by
    intro p member
    rw [host, outside p]
    intro inside
    refine (List.nodup_append.mp distinct).2.2 p member p ?_ rfl
    simp only [List.mem_append, List.mem_cons, List.not_mem_nil, or_false] at inside ⊢
    exact inside.imp_right .inl
  have copies : ∀ p, cached result.toSegments p = cached x.toSegments p := fun p => by simp only [cached, cache]
  refine ⟨?_, ?_, numSegs, type, dequeue⟩
  · have queue' : Queue result busy (done ++ x.enqueue :: rest) :=
      queue.edit shape' next enqueue dequeue numSegs (by rw [fields])
    rw [view.ccs_ahead (not_overtaken_inner queue start)]
    refine .of_ahead queue' ⟨?_, ?_, ?_⟩ ?_ (not_overtaken_inner queue' (by rw [enqueue]; exact start))
    · exact inPhase_edit view.phased.owned sameBusy
    · rw [phase_edit c sameBusy, view.phased.cycleState, fields]
    · have sameState : result.cycleState = r.cycleState := by rw [fields]
      rw [sameState]
      exact view.phased.free.congr (fun p _ => sameCycle p) fun p member =>
        sameFlips p (List.mem_append_right _ member)
    · rw [contents_edit sameBusy, view.pending]
  · refine ⟨?_, ?_, ?_, ?_⟩
    · intro p member
      rw [sameBusy p member, copies, (copied p).resolve_right]
      · exact mirrored.like p member
      · rintro ⟨inDone, _⟩
        exact (List.nodup_append.mp distinct).2.2 p member p (List.mem_append_left _ inDone) rfl
    · intro p member inner
      have cycle : (result.trb p).cycle = (r.trb p).cycle := sameCycle p
      rw [cycle, copies, (copied p).resolve_right fun handed => inner handed.2.1]
      exact mirrored.plain p member inner
    · intro p member onLink
      have inLap := List.mem_append_right busy member
      have cycle : (result.trb p).cycle = (r.trb p).cycle := sameCycle p
      rw [cycle, copies]
      rcases copied p with untouched | ⟨_, _, same⟩
      · rw [untouched]
        exact (mirrored.links p member onLink).imp_right fun linkOf => linkOf.congr (by rw [next]) (by rw [lastSeg])
      · have linkOf := linkOf_shape shape inLap onLink
        refine .inr ⟨?_, ?_, ?_⟩
        · rw [same.isLink, linkOf.isLink]
        · rw [same.segmentPtr, linkOf.segmentPtr, next]
        · rw [same.toggle, linkOf.toggle, lastSeg]
    · rw [cacheEnqueue, enqueue, next]
      exact mirrored.cacheEnqueue

/-- TDs that have been turned into no-ops, which the device is not told. -/
theorem Mirrored.noop {front mid back : List TrbPtr} {first last : TrbPtr} (mirrored : Mirrored Like r busy idle)
    (view : View r pending ccs busy idle c) (room : 1 ≤ nonlinks idle) (is_busy : busy = front ++ (mid ++ last :: back))
    (begins : (mid ++ last :: back).head? = some first)
    (unlike : ∀ p t t', Like t t' → Like (noopTrb false first last p t) t') :
    View (r.tdToNoop first last false) (contents (r.tdToNoop first last false) busy) ccs busy idle c ∧
      Mirrored Like (r.tdToNoop first last false) busy idle ∧
      ∃ trbs, r.tdToNoop first last false = { r with trbs := trbs } := by
  have queue := view.queue
  have shape := queue.shape
  have distinct := shape.isLap.1
  have split : busy ++ idle = front ++ (mid ++ last :: (back ++ idle)) := by simp [is_busy]
  have begins' : (mid ++ last :: (back ++ idle)).head? = some first := by
    rw [← begins]
    cases mid <;> rfl
  obtain ⟨trbs, eq, shape', read⟩ := tdToNoop_eq false (split ▸ shape) begins'
  rw [← split] at shape'
  set x := r.tdToNoop first last false with is_x
  have inBusy : ∀ p ∈ mid ++ [last], p ∈ busy := by
    intro p member
    rw [is_busy]
    simp only [List.mem_append, List.mem_cons, List.not_mem_nil, or_false] at member ⊢
    tauto
  have untouched : ∀ p ∈ idle, x.trb p = r.trb p := by
    intro p member
    rw [read, if_neg]
    exact fun inside => (List.nodup_append.mp distinct).2.2 p (inBusy p inside) p member rfl
  have sameCycle : ∀ p, cycleAt x p = cycleAt r p := by
    intro p
    rw [cycleAt, read]
    split_ifs
    · rw [cycle_noopTrb]
      simp [cycleAt]
    · rfl
  have lastSeg : x.lastSeg = r.lastSeg := by rw [eq]
  have next : x.next = r.next := by rw [eq]
  have enqueue : x.enqueue = r.enqueue := by rw [eq]
  have dequeue : x.dequeue = r.dequeue := by rw [eq]
  have cycleState : x.cycleState = r.cycleState := by rw [eq]
  have cacheEnqueue : x.cacheEnqueue = r.cacheEnqueue := by rw [eq]
  have copies : ∀ p, cached x.toSegments p = cached r.toSegments p := fun p => by rw [eq]; rfl
  have sameFlips : ∀ p ∈ busy ++ idle, flipsAt x p = flipsAt r p := by
    intro p member
    rw [Bool.eq_iff_iff, flipsAt_iff shape' member, flipsAt_iff shape member, lastSeg]
  have queue' : Queue x busy idle := queue.edit shape' next enqueue dequeue (by rw [eq]) (by rw [eq])
  have inOrder : (busy ++ idle).head? = some r.dequeue := by
    rcases queue.dequeue with inOrder | ⟨nothing, _⟩
    · exact inOrder
    · simp [is_busy] at nothing
  refine ⟨?_, ?_, trbs, eq⟩
  · rw [view.ccs_ahead (not_overtaken queue inOrder room)]
    refine .of_ahead queue' ⟨?_, ?_, ?_⟩ rfl (not_overtaken queue' (by rw [dequeue]; exact inOrder) room)
    · exact view.phased.owned.congr (fun p _ => sameCycle p) fun p member => sameFlips p (List.mem_append_left _ member)
    · rw [phase_congr c fun p member => sameFlips p (List.mem_append_left _ member), view.phased.cycleState, cycleState]
    · rw [cycleState]
      exact inPhase_edit view.phased.free untouched
  · refine ⟨?_, ?_, ?_, ?_⟩
    · intro p member
      rw [copies, read]
      split_ifs
      · exact unlike p _ _ (mirrored.like p member)
      · exact mirrored.like p member
    · intro p member inner
      rw [copies, untouched p member]
      exact mirrored.plain p member inner
    · intro p member onLink
      rw [copies, untouched p member]
      exact (mirrored.links p member onLink).imp_right fun linkOf => linkOf.congr (by rw [next]) (by rw [lastSeg])
    · rw [cacheEnqueue, enqueue, next]
      exact mirrored.cacheEnqueue

/-- A new ring is written to the device but for the toggle bit of its last link. -/
theorem mirrored_new {numSegs : Nat} {cycleState : Bool} {type : RingType} {answers : Answers}
    (isCached : ehubCacheRing type = true) (distinct : answers.segs.Nodup)
    (made : ringAlloc q numSegs cycleState type answers = some r) :
    Mirrored Like r [] (laid (answers.segs.take numSegs)) := by
  have notEvent : type ≠ .event := by
    rintro rfl
    simp [ehubCacheRing] at isCached
  obtain ⟨_, _, _, _, cacheEnqueue, _⟩ := queue_ringAlloc notEvent distinct made
  have agrees : ∀ p ∈ laid (answers.segs.take numSegs), Agrees r.toSegments p := by
    intro p member
    rw [ringAlloc] at made
    split_ifs at made with short
    cases result : allocSegmentsForRing q type cycleState answers.write (answers.segs.take numSegs)
        ⟨fun _ _ => .zero, id, fun _ _ => .zero⟩ with
    | none => simp [result] at made
    | some parts =>
      obtain ⟨m, first, last⟩ := parts
      simp only [result, Option.some.injEq] at made
      rw [← made]
      exact agrees_setToggle true (link last) (allocSegments_agrees isCached result (mem_laid.mp member).1)
  exact ⟨by simp, fun p member _ => agrees p member, fun p member _ => .inl (agrees p member), .inl cacheEnqueue⟩

end

end Ehub.Mirror
