import Mathlib
import Ehub.FrameAccount
import Ehub.RingAccount
import Ehub.TrbInTd

/-!
Missed isochronous TDs. When the controller has missed some service intervals the driver sets
`ep->skip`, and the next event tells it how far the controller has come:
`ehub_handle_tx_event` passes one TD after the other until it finds the one with the TRB of
the event. Each time it looks for that TRB between the ring's dequeue pointer and the end of
the first TD, and moves the pointer on behind a TD that has been missed.

The search goes by addresses, segment by segment. It finds just the TRBs of that stretch of
the ring as long as the stretch does not come back into the segment where it begins, and the
room that `prepare_ring` leaves keeps it from there (`unwrapped`).
-/
namespace Ehub.Missed
open Ehub.Lap Ehub.Ring Ehub.RingShape Ehub.Segments Ehub.Cancel Ehub.Giveback Ehub.Lengths Ehub.Reported Ehub.TrbInTd
open Ehub.Transfer hiding State

/-- The segments of the TRBs lie apart in memory. -/
structure Mapped (lap : List TrbPtr) : Prop where
  range : ∀ p ∈ lap, 0 < p.seg.toNat ∧ p.seg.toNat + 1024 ≤ 2 ^ 64
  apart : ∀ p ∈ lap, ∀ q ∈ lap, p.seg ≠ q.seg → p.seg.toNat + 1024 ≤ q.seg.toNat ∨ q.seg.toNat + 1024 ≤ p.seg.toNat

/-- The TDs lie one behind the other, with links or cancelled TDs in front of any of them. A TD
    does not begin or end with a link. -/
def Laid : List Td → List TrbPtr → Prop
  | [], _ => True
  | td :: tds, busy => ∃ gap trbs rest, busy = gap ++ (trbs ++ rest) ∧ trbs.head? = some td.firstTrb ∧
      trbs.getLast? = some td.lastTrb ∧ td.firstTrb.idx ≠ 63 ∧ td.lastTrb.idx ≠ 63 ∧ Laid tds rest

/-- A ring with the TRBs `busy` from its dequeue pointer on, and TDs among them. -/
structure OnRing (r : Ring) (busy idle : List TrbPtr) (tds : List Td) : Prop where
  shape : Shape r (busy ++ idle)
  dequeue : (busy ++ idle).head? = some r.dequeue
  room : r.dequeue.idx + 1 ≤ nonlinks idle
  mapped : Mapped (busy ++ idle)
  laid : Laid tds busy

/-- An isochronous endpoint with its TDs on the ring. They are all those of their URBs that are
    not done. -/
structure Ready (s : State) (e : EpId) (busy idle : List TrbPtr) : Prop where
  isoc : (s.ep e).pipe = .isoc
  onRing : OnRing (s.ep e).ring busy idle (s.ep e).tdList
  left : ∀ td ∈ (s.ep e).tdList, (own (s.ep e).tdList td.urb).map Td.index =
    List.range' (s.urbPriv td.urb).tdCnt ((s.urbPriv td.urb).length - (s.urbPriv td.urb).tdCnt)

/-- The last TD of its URB. -/
def isLast (s : State) (td : Td) : Bool := td.index + 1 == (s.urbPriv td.urb).length

/-- The URBs whose last TD is one of these. -/
def finished (s : State) (tds : List Td) : List Nat := (tds.filter (isLast s)).map Td.urb

/-- The frame of a missed TD. -/
def missedFrame (f : Frame) : Frame := { f with status := -eXDEV, actualLength := 0 }

/-- The dequeue pointer has moved behind the last of these TDs, over the link if there is one,
    and the TRBs up to the end of that TD are free again. Nothing else of the ring has changed. -/
def Advanced (r r' : Ring) (busy : List TrbPtr) (missed : List Td) : Prop :=
  match missed.getLast? with
  | none => r' = r
  | some td => ∃ front rest, busy = front ++ td.lastTrb :: rest ∧ r' = { r with
      numTrbsFree := r.numTrbsFree + nonlinks (front ++ [td.lastTrb])
      dequeue := skip r.next td.lastTrb }

/-- What `finish_td` makes of a URB whose frame has been missed. -/
structure Checked (u u' : Urb) : Prop where
  transferBufferLength : u'.transferBufferLength = u.transferBufferLength
  shortNotOk : u'.shortNotOk = u.shortNotOk
  actualLength : u'.actualLength = if u.transferBufferLength < u.actualLength then 0 else u.actualLength

/-- The TDs of `missed`, the first ones of the list, have been completed as missed, and only
    these. All of the second state is said here but for `tdFrames`, which no function reads. -/
structure Passed (s s' : State) (e : EpId) (busy : List TrbPtr) (missed : List Td) : Prop where
  tdList : (s.ep e).tdList = missed ++ (s'.ep e).tdList
  cancelled : (s'.ep e).cancelledTdList = (s.ep e).cancelledTdList.diff missed
  ring : Advanced (s.ep e).ring (s'.ep e).ring busy missed
  ep : s'.ep e = { s.ep e with
    ring := (s'.ep e).ring, tdList := (s'.ep e).tdList, cancelledTdList := (s'.ep e).cancelledTdList }
  others : ∀ e', e' ≠ e → s'.ep e' = s.ep e'
  counts : ∀ urb, s'.urbPriv urb = { s.urbPriv urb with tdCnt := (s.urbPriv urb).tdCnt + (own missed urb).length }
  frames : ∀ urb i, (s'.urbs urb).isoFrameDesc[i]? = (s.urbs urb).isoFrameDesc[i]?.map
    fun f => if (urb, i) ∈ missed.map (fun td => (td.urb, td.index)) then missedFrame f else f
  urbs : ∀ urb, own missed urb = [] → s'.urbs urb = s.urbs urb
  lengths : ∀ urb, own missed urb ≠ [] → Checked (s.urbs urb) (s'.urbs urb)
  lengthSet : s'.urbLengthSet = s.urbLengthSet
  commands : s'.toState = { s.toState with
    ep := s'.ep, urbPriv := s'.urbPriv, givenBack := s'.givenBack, freed := s'.freed }
  givenBack : s'.givenBack = s.givenBack ++ finished s missed
  freed : s'.freed = s.freed ++ finished s missed
  reports : ∃ new, s'.reports = s.reports ++ new ∧ new.map Report.urb = finished s missed ∧
    ∀ r ∈ new, r.status = 0 ∧ r.given = s'.urbs r.urb

/-! ### Where an event is found -/

section
variable {r : Ring} {start last p q : TrbPtr} {lap b : List TrbPtr}

theorem Mapped.between_iff (mapped : Mapped lap) (p_mem : p ∈ lap) (q_mem : q ∈ lap) (inside : p.idx < 64) {first end_ : Nat}
    (low : end_ < 64) : Between q.seg first end_ (trbVirtToDma p) ↔ p.seg = q.seg ∧ first ≤ p.idx ∧ p.idx ≤ end_ := by
  rw [Between, trbVirtToDma_toNat (mapped.range p p_mem).2 inside]
  by_cases same : p.seg = q.seg
  · rw [same]
    simp only [true_and]
    omega
  · have := mapped.apart p p_mem q q_mem same
    simp only [same, false_and, iff_false]
    omega

/-- A stretch that ends in the segment where it begins. -/
theorem stretch_ends {next : Addr → Addr} {front a : List TrbPtr} {i : Nat} (isLap : IsLap (follow next) (front ++ (a ++ last :: b)))
    (first : (a ++ last :: b).head? = some ⟨last.seg, i⟩) (after : i ≤ last.idx) (inside : last.idx < 64) :
    a ++ [last] = run last.seg i (last.idx - i + 1) := by
  have around : IsLap (follow next) (a ++ last :: (b ++ front)) := by simpa using isLap.swap
  have begins : (a ++ last :: (b ++ front)).head? = some ⟨last.seg, i⟩ := by
    rw [← first]
    cases a <;> rfl
  obtain ⟨more, is_run⟩ := stretch around begins (last.idx - i) (by omega)
  rw [Nat.add_sub_cancel' after] at is_run
  have parts := List.nodup_append.mp around.1
  have is_a := (List.append_cons_inj_of_notMem (fun inA => parts.2.2 _ inA _ (by simp) rfl)
    (List.nodup_cons.mp parts.2.1).1).mp is_run
  rw [run_succ, Nat.add_sub_cancel' after, is_a.1]

/-- A stretch that goes on in the next segment. -/
theorem stretch_passes {next : Addr → Addr} {front a : List TrbPtr} {seg : Addr} {i : Nat}
    (isLap : IsLap (follow next) (front ++ (a ++ last :: b))) (first : (a ++ last :: b).head? = some ⟨seg, i⟩) (inside : i < 64)
    (elsewhere : last.seg ≠ seg) :
    ∃ a', a = run seg i (64 - i) ++ a' ∧ (a' ++ last :: b).head? = some ⟨next seg, 0⟩ := by
  have around : IsLap (follow next) (a ++ last :: (b ++ front)) := by simpa using isLap.swap
  have begins : (a ++ last :: (b ++ front)).head? = some ⟨seg, i⟩ := by
    rw [← first]
    cases a <;> rfl
  obtain ⟨more, is_run⟩ := stretch around begins (63 - i) (by omega)
  have all : run seg i (63 - i) ++ (⟨seg, i + (63 - i)⟩ :: more) = run seg i (64 - i) ++ more := by
    rw [List.append_cons, ← run_succ, show 63 - i + 1 = 64 - i by omega]
  rw [all] at is_run
  obtain ⟨a', is_a⟩ : ∃ a', a = run seg i (64 - i) ++ a' := by
    rcases List.append_eq_append_iff.mp is_run with ⟨c, is_c, rest⟩ | ⟨c, is_a, _⟩
    · cases c with
      | nil => exact ⟨[], by rw [is_c]; simp⟩
      | cons x c =>
        have is_x : last = x := by simpa using List.head_eq_of_cons_eq rest
        have inRun : last ∈ run seg i (64 - i) := by rw [is_c, is_x]; simp
        exact absurd (mem_run inRun).1 elsewhere
    · exact ⟨c, is_a⟩
  subst is_a
  refine ⟨a', rfl, ?_⟩
  have path : front ++ (run seg i (64 - i) ++ a' ++ last :: b) =
      (front ++ run seg i (63 - i)) ++ ⟨seg, 63⟩ :: (a' ++ last :: b) := by
    rw [show 64 - i = 63 - i + 1 by omega, run_succ, Nat.add_sub_cancel' (show i ≤ 63 by omega)]
    simp
  rw [path] at isLap
  have step := isLap.next_eq
  rw [follow, if_pos rfl] at step
  rw [← step]
  cases a' <;> rfl

/-- The search of `ehub_trb_in_td` from the first TRB of a segment that the stretch has. -/
theorem search_eq (isLap : IsLap (follow r.next) lap) (inside : ∀ p ∈ lap, p.idx < 64) (mapped : Mapped lap) (startIn : start.idx < 64)
    (member : p ∈ lap) : ∀ {fuel : Nat} (front a : List TrbPtr) (seg : Addr), front ++ (a ++ last :: b) = lap →
      (a ++ last :: b).head? = some ⟨seg, firstIn start seg⟩ →
      ((seg = start.seg ∧ ∀ q ∈ a ++ [last], q.seg = start.seg → start.idx ≤ q.idx) ∨ ∀ q ∈ a ++ [last], q.seg ≠ start.seg) →
      a.length + firstIn start seg < 64 * fuel →
      trbInTdRun r start.seg last (trbVirtToDma p) fuel seg (trbVirtToDma ⟨seg, firstIn start seg⟩) =
        some (if p ∈ a ++ [last] then some p.seg else none) := by
  intro fuel
  induction fuel with
  | zero =>
    intro front a seg _ _ _ enough
    omega
  | succ fuel ih =>
    intro front a seg split first only enough
    have firstBelow := firstIn_lt startIn seg
    have last_mem : last ∈ lap := by simp [← split]
    have here : (⟨seg, firstIn start seg⟩ : TrbPtr) ∈ lap := by
      rw [← split]
      exact List.mem_append_right _ (List.mem_of_mem_head? first)
    have notBefore : ∀ q ∈ a ++ [last], q.seg = seg → firstIn start seg ≤ q.idx := by
      intro q inTd same
      rcases only with ⟨is_start, after⟩ | elsewhere
      · rw [firstIn, if_pos is_start]
        exact after q inTd (same.trans is_start)
      · rw [firstIn, if_neg (same ▸ elsewhere q inTd)]
        exact Nat.zero_le _
    have path := isLap
    rw [← split] at path
    by_cases ends : last.seg = seg
    · subst ends
      have lastIn' := inside last last_mem
      have after := notBefore last (by simp) rfl
      have all := stretch_ends path first after lastIn'
      have covered : Covered start last last.seg (trbVirtToDma p) ↔ p ∈ a ++ [last] := by
        rw [Covered, if_neg (fun both => Nat.not_lt.mpr after both.2), lastIn, if_pos rfl,
          mapped.between_iff member last_mem (inside p member) lastIn', all, mem_run_iff]
        exact and_congr_right fun _ => by omega
      obtain ⟨found, result, spec⟩ := run_ends (r := r) start.seg (trbVirtToDma p) (mapped.range last last_mem) startIn lastIn' fuel
      rw [result]
      congr 1
      split_ifs with inTd
      · have same : p.seg = last.seg := by
          rw [all] at inTd
          exact (mem_run inTd).1
        rw [spec, same]
        exact ⟨rfl, covered.mpr inTd⟩
      · apply Option.eq_none_iff_forall_ne_some.mpr
        intro s is_found
        obtain ⟨rfl, inSegment⟩ := (spec s).mp is_found
        exact inTd (covered.mp inSegment)
    · obtain ⟨a', is_a, next⟩ := stretch_passes path first firstBelow ends
      have inRun (q : TrbPtr) (q_mem : q ∈ lap) : q ∈ run seg (firstIn start seg) (64 - firstIn start seg) ↔
          q.seg = seg ∧ firstIn start seg ≤ q.idx ∧ q.idx ≤ 63 := by
        have := inside q q_mem
        rw [mem_run_iff]
        exact and_congr_right fun _ => by omega
      have distinct := (List.nodup_append.mp path.1).2.1
      rw [is_a, List.append_assoc, List.nodup_append] at distinct
      have beyond : ∀ q ∈ a' ++ [last], q.seg ≠ start.seg := by
        intro q inTd same
        have inStretch : q ∈ a ++ [last] := by
          rw [is_a, List.append_assoc]
          exact List.mem_append_right _ inTd
        rcases only with ⟨is_start, after⟩ | elsewhere
        · have q_mem : q ∈ lap := by
            rw [← split]
            simp only [List.mem_append, List.mem_cons] at inStretch ⊢
            tauto
          have before := (inRun q q_mem).mpr ⟨same.trans is_start.symm, notBefore q inStretch (same.trans is_start.symm),
            by have := inside q q_mem; omega⟩
          exact distinct.2.2 q before q (by simp at inTd ⊢; tauto) rfl
        · exact elsewhere q inStretch same
      have further : r.next seg ≠ start.seg := by
        have inTd : (⟨r.next seg, 0⟩ : TrbPtr) ∈ a' ++ [last] := by
          cases a' with
          | nil => simpa using next.symm
          | cons x a' =>
            have is_x : x = ⟨r.next seg, 0⟩ := by simpa using next
            simp [is_x]
        exact beyond _ inTd
      have test : Between seg (firstIn start seg) 63 (trbVirtToDma p) ↔ p ∈ run seg (firstIn start seg) (64 - firstIn start seg) := by
        rw [inRun p member]
        exact mapped.between_iff member here (inside p member) (by decide)
      have zero : firstIn start (r.next seg) = 0 := if_neg further
      rw [run_passes (mapped.range _ here) startIn ends, if_neg further]
      by_cases before : p ∈ run seg (firstIn start seg) (64 - firstIn start seg)
      · rw [if_pos (test.mpr before), if_pos (by simp [is_a, before]), (mem_run before).1]
      · have shorter : a.length = 64 - firstIn start seg + a'.length := by simp [is_a, run]
        have rest := ih (front ++ run seg (firstIn start seg) (64 - firstIn start seg)) a' (r.next seg)
          (by rw [← split, is_a]; simp) (by rw [zero]; exact next) (.inr beyond) (by omega)
        rw [zero] at rest
        rw [if_neg (mt test.mp before), rest]
        simp [is_a, before]

/-- The TRBs up to `enqueue` do not come back into the segment of `dequeue`. -/
theorem unwrapped {busy idle : List TrbPtr} (shape : Shape r (busy ++ idle)) (first : (busy ++ idle).head? = some r.dequeue)
    (room : r.dequeue.idx + 1 ≤ nonlinks idle) : ∀ q ∈ busy, q.seg = r.dequeue.seg → r.dequeue.idx ≤ q.idx := by
  intro q member same
  by_contra before
  obtain ⟨x, y, rfl⟩ := List.append_of_mem member
  have inDeq : r.dequeue.idx < 64 := shape.inside _ (List.mem_of_mem_head? first)
  cases x with
  | nil =>
    have is_q : q = r.dequeue := by simpa using first
    rw [is_q] at before
    exact before le_rfl
  | cons d x =>
    have is_d : d = r.dequeue := by simpa using first
    subst is_d
    -- Read from `q` on, the ring comes to `dequeue` behind all of its free TRBs.
    have around : IsLap (follow r.next) ((q :: y ++ idle) ++ r.dequeue :: x) := by
      have := shape.isLap
      rw [List.append_assoc] at this
      simpa using this.swap
    have begins : ((q :: y ++ idle) ++ r.dequeue :: x).head? = some ⟨r.dequeue.seg, q.idx⟩ := by
      rw [← same]
      rfl
    obtain ⟨more, is_run⟩ := stretch around begins (r.dequeue.idx - q.idx) (by omega)
    rw [Nat.add_sub_cancel' (by omega)] at is_run
    have parts := List.nodup_append.mp around.1
    have is_front := ((List.append_cons_inj_of_notMem (fun inFront => parts.2.2 _ inFront _ (by simp) rfl)
      (List.nodup_cons.mp parts.2.1).1).mp is_run).1
    have size := congrArg List.length is_front
    have few := nonlinks_le_length idle
    simp only [List.length_append, List.length_cons, run, List.length_map, List.length_range] at size
    omega

/-- An event is in the range of a TD just when its TRB is one of those from `dequeue` to the end
    of the TD. -/
theorem trbInTd_eq {a : List TrbPtr} (shape : Shape r (a ++ last :: b)) (first : (a ++ last :: b).head? = some r.dequeue)
    (unwrapped : ∀ q ∈ a ++ [last], q.seg = r.dequeue.seg → r.dequeue.idx ≤ q.idx) (mapped : Mapped (a ++ last :: b))
    (member : p ∈ a ++ last :: b) : trbInTd r last (trbVirtToDma p) = if p ∈ a ++ [last] then some p else none := by
  have startIn : r.dequeue.idx < 64 := shape.inside _ (List.mem_of_mem_head? first)
  have start := start_eq r.dequeue
  have size := shape.size
  rw [List.length_append, List.length_cons] at size
  have search := search_eq shape.isLap shape.inside mapped startIn member [] a r.dequeue.seg rfl (by rw [first, ← start])
    (.inl ⟨rfl, unwrapped⟩) (show _ < 64 * (r.numSegs + 1) by have := firstIn_lt startIn r.dequeue.seg; omega)
  rw [← start] at search
  rw [trbInTd, trbInTdLoop_of_run search]
  split_ifs
  · have place : (trbVirtToDma p - p.seg).toNat / 16 = p.idx := by
      have index := shape.inside p member
      rw [trbVirtToDma, add_sub_cancel_left, BitVec.toNat_ofNat]
      omega
    rw [Option.map_some, place]
  · rfl

/-- A ring's pointers may be moved. -/
theorem shape_moved (shape : Shape r lap) (n : Int) (d : TrbPtr) : Shape { r with numTrbsFree := n, dequeue := d } lap :=
  ⟨shape.notEvent, shape.isLap, shape.inside, shape.links, shape.pointers, shape.toggles, shape.lastLink, shape.size, shape.count⟩

/-- `inc_deq` goes over a link behind a TRB, and not over `q`. -/
theorem skip_head {next : Addr → Addr} {front gap l : List TrbPtr} (isLap : IsLap (follow next) (front ++ p :: (gap ++ q :: l)))
    (inner : q.idx ≠ 63) :
    ∃ links gap', gap = links ++ gap' ∧ nonlinks links = 0 ∧ (gap' ++ q :: l).head? = some (skip next p) := by
  have step := isLap.next_eq
  cases gap with
  | nil =>
    have is_q : q = follow next p := by simpa using step
    refine ⟨[], [], rfl, rfl, ?_⟩
    rw [skip, ← is_q, if_neg inner]
    rfl
  | cons x gap =>
    have is_x : x = follow next p := by simpa using step
    by_cases onLink : x.idx = 63
    · have turned : IsLap (follow next) ((front ++ [p]) ++ x :: (gap ++ q :: l)) := by simpa using isLap
      have step := turned.next_eq
      refine ⟨[x], gap, rfl, by simp [nonlinks, onLink], ?_⟩
      rw [skip, ← is_x, if_pos onLink, ← step]
      cases gap <;> rfl
    · refine ⟨[], x :: gap, rfl, rfl, ?_⟩
      rw [skip, ← is_x, if_neg onLink]
      rfl

theorem advanceLoop_eq (inner : last.idx ≠ 63) : ∀ {fuel : Nat} {r : Ring} (front a : List TrbPtr), Shape r (front ++ (a ++ last :: b)) →
    (a ++ last :: b).head? = some r.dequeue → a.length < fuel →
    advanceLoop last fuel r = { r with numTrbsFree := r.numTrbsFree + nonlinks a, dequeue := last } := by
  intro fuel
  induction fuel with
  | zero =>
    intro r front a _ _ enough
    omega
  | succ fuel ih =>
    intro r front a shape first enough
    rw [advanceLoop]
    cases a with
    | nil =>
      have there : last = r.dequeue := by simpa using first
      rw [if_pos there.symm, there]
      simp
    | cons x a =>
      have is_x : x = r.dequeue := by simpa using first
      subst is_x
      have apart : r.dequeue ≠ last := by
        intro same
        have distinct := (List.nodup_append.mp shape.isLap.1).2.1
        rw [List.cons_append, List.nodup_cons] at distinct
        exact distinct.1 (by simp [same])
      obtain ⟨links, a, rfl, free, next⟩ := skip_head shape.isLap inner
      rw [List.length_cons, List.length_append] at enough
      have count : (nonlinks (r.dequeue :: (links ++ a)) : Int) = (if r.dequeue.idx ≠ 63 then 1 else 0) + nonlinks a := by
        rw [nonlinks_cons, nonlinks_append, free]
        split_ifs
        · push_cast
          ring
        · simp
      have rest := ih (front ++ r.dequeue :: links) a (shape_moved (by simpa using shape) (r.numTrbsFree + if r.dequeue.idx ≠ 63 then 1 else 0)
        (skip r.next r.dequeue)) next (by omega)
      rw [if_neg apart, incDeq_eq shape (by simp), rest, count, ← add_assoc]

/-- The dequeue pointer moves behind a TD. -/
theorem advance_eq {a : List TrbPtr} (shape : Shape r (a ++ last :: b)) (first : (a ++ last :: b).head? = some r.dequeue)
    (inner : last.idx ≠ 63) :
    advance r last = { r with numTrbsFree := r.numTrbsFree + nonlinks (a ++ [last]), dequeue := skip r.next last } := by
  have size := shape.size
  rw [List.length_append, List.length_cons] at size
  have loop := advanceLoop_eq inner [] a shape first (show a.length < trbsPerSegment * r.numSegs by rw [trbsPerSegment]; omega)
  have count : (nonlinks (a ++ [last]) : Int) = nonlinks a + 1 := by
    rw [nonlinks_append, nonlinks_cons, if_pos inner]
    simp
  rw [advance, loop, incDeq_eq (shape_moved shape _ last) (by simp), if_pos inner, count, ← add_assoc]

end

/-! ### The TDs on the ring -/

section
variable {r : Ring} {busy idle : List TrbPtr} {td td' : Td} {tds : List Td} {p : TrbPtr}

/-- The TRBs of a TD are those from its first to its last one. -/
theorem trbsOf_eq {front trbs back : List TrbPtr} (shape : Shape r (front ++ (trbs ++ back))) (first : trbs.head? = some td.firstTrb)
    (last : trbs.getLast? = some td.lastTrb) : trbsOf r td = trbs := by
  obtain ⟨init, rfl⟩ := List.getLast?_eq_some_iff.mp last
  have turned : Shape r (init ++ td.lastTrb :: (back ++ front)) := by simpa using shape.swap
  have isLap : IsLap r.nextTrb (init ++ td.lastTrb :: (back ++ front)) := turned.isLap.congr fun _ member => turned.nextTrb_eq member
  have begins : (init ++ td.lastTrb :: (back ++ front)).head? = some td.firstTrb := by
    rw [← first]
    cases init <;> rfl
  have size := turned.size
  rw [List.length_append, List.length_cons] at size
  rw [trbsOf, walk_eq isLap begins (show init.length < trbsPerSegment * r.numSegs by rw [trbsPerSegment]; omega)]

theorem Laid.mem : ∀ {tds : List Td} {busy : List TrbPtr} (front : List TrbPtr), Laid tds busy → Shape r (front ++ (busy ++ idle)) →
    td ∈ tds → ∀ p ∈ trbsOf r td, p ∈ busy := by
  intro tds
  induction tds with
  | nil => simp
  | cons td' tds ih =>
    intro busy front laid shape member
    obtain ⟨gap, trbs, rest, rfl, first, last, _, _, later⟩ := laid
    rcases List.mem_cons.mp member with rfl | behind
    · intro p inTd
      rw [trbsOf_eq (show Shape r ((front ++ gap) ++ (trbs ++ (rest ++ idle))) by simpa using shape) first last] at inTd
      simp [inTd]
    · intro p inTd
      have inRest := ih (front ++ (gap ++ trbs)) later (by simpa using shape) behind p inTd
      simp [inRest]

/-- What lies in front of the end of the first TD, and behind it. -/
structure Front (r : Ring) (busy : List TrbPtr) (td : Td) (tds : List Td) (a rest : List TrbPtr) : Prop where
  split : busy = a ++ td.lastTrb :: rest
  own : ∀ p ∈ trbsOf r td, p ∈ a ++ [td.lastTrb]
  inner : td.lastTrb.idx ≠ 63
  laid : Laid tds rest

theorem OnRing.front (onRing : OnRing r busy idle (td :: tds)) : ∃ a rest, Front r busy td tds a rest := by
  obtain ⟨gap, trbs, rest, rfl, first, last, _, inner, laid⟩ := onRing.laid
  have own := trbsOf_eq (show Shape r (gap ++ (trbs ++ (rest ++ idle))) by simpa using onRing.shape) first last
  obtain ⟨init, rfl⟩ := List.getLast?_eq_some_iff.mp last
  refine ⟨gap ++ init, rest, by simp, ?_, inner, laid⟩
  intro p member
  rw [own] at member
  simp only [List.append_assoc, List.mem_append] at member ⊢
  exact .inr member

theorem OnRing.finds (onRing : OnRing r busy idle (td :: tds)) {a rest : List TrbPtr} (front : Front r busy td tds a rest)
    (member : p ∈ busy) : trbInTd r td.lastTrb (trbVirtToDma p) = if p ∈ a ++ [td.lastTrb] then some p else none := by
  have only := unwrapped onRing.shape onRing.dequeue onRing.room
  obtain ⟨shape, first, _, mapped, _⟩ := onRing
  obtain ⟨rfl, _, _, _⟩ := front
  rw [List.append_assoc, List.cons_append] at shape first mapped
  refine trbInTd_eq shape first (fun q inTd => only q ?_) mapped ?_
  · simp only [List.mem_append, List.mem_cons] at inTd ⊢
    tauto
  · rw [← List.cons_append, ← List.append_assoc]
    exact List.mem_append_left idle member

/-- The event is for the first TD. -/
theorem OnRing.found (onRing : OnRing r busy idle (td :: tds)) (inTd : p ∈ trbsOf r td) :
    trbInTd r td.lastTrb (trbVirtToDma p) = some p := by
  obtain ⟨a, rest, front⟩ := onRing.front
  rw [onRing.finds front (Laid.mem [] onRing.laid onRing.shape (by simp) p inTd), if_pos (front.own p inTd)]

/-- The event is for a later TD. -/
theorem OnRing.missed (onRing : OnRing r busy idle (td :: tds)) (later : td' ∈ tds) (inTd : p ∈ trbsOf r td') :
    trbInTd r td.lastTrb (trbVirtToDma p) = none := by
  obtain ⟨a, rest, front⟩ := onRing.front
  have shape := onRing.shape
  rw [onRing.finds front (Laid.mem [] onRing.laid shape (List.mem_cons_of_mem td later) p inTd), if_neg]
  intro before
  obtain ⟨rfl, _, _, laid⟩ := front
  have path : a ++ td.lastTrb :: rest ++ idle = (a ++ [td.lastTrb]) ++ (rest ++ idle) := by simp
  rw [path] at shape
  have behind := laid.mem _ shape later p inTd
  exact (List.nodup_append.mp shape.isLap.1).2.2 p before p (List.mem_append_left idle behind) rfl

/-- The ring when its dequeue pointer has moved on. -/
theorem OnRing.move {front : List TrbPtr} {n : Int} {d : TrbPtr} (shape : Shape r (front ++ busy ++ idle))
    (first : (front ++ busy ++ idle).head? = some r.dequeue) (room : r.dequeue.idx + 1 ≤ nonlinks idle)
    (mapped : Mapped (front ++ busy ++ idle)) (next : busy.head? = some d) (laid : Laid tds busy) :
    OnRing { r with numTrbsFree := n, dequeue := d } busy (idle ++ front) tds := by
  obtain ⟨busy, rfl⟩ := List.head?_eq_some_iff.mp next
  have same : ∀ p, p ∈ d :: busy ++ (idle ++ front) ↔ p ∈ front ++ (d :: busy) ++ idle := by
    intro p
    simp only [List.mem_append]
    tauto
  refine ⟨?_, rfl, ?_, ⟨?_, ?_⟩, laid⟩
  · rw [← List.append_assoc]
    apply shape_moved
    apply Shape.swap
    rwa [← List.append_assoc]
  · have further : d.idx ≤ r.dequeue.idx + nonlinks front := by
      refine RingAccount.idx_le (show IsLap (follow r.next) ([] ++ (front ++ d :: (busy ++ idle))) from ?_) ?_
      · simpa using shape.isLap
      · simpa using first
    rw [nonlinks_append]
    show d.idx + 1 ≤ _
    omega
  · exact fun p member => mapped.range p ((same p).mp member)
  · exact fun p p_mem q q_mem => mapped.apart p ((same p).mp p_mem) q ((same q).mp q_mem)

theorem OnRing.advanced (onRing : OnRing r busy idle (td :: tds)) : Advanced r (advance r td.lastTrb) busy [td] := by
  obtain ⟨a, rest, rfl, _, inner, _⟩ := onRing.front
  have shape := onRing.shape
  have first := onRing.dequeue
  rw [List.append_assoc, List.cons_append] at shape first
  exact ⟨a, rest, rfl, advance_eq shape first inner⟩

theorem Advanced.sameTrbs {r r' : Ring} {missed : List Td} (advanced : Advanced r r' busy missed) : SameTrbs r r' := by
  rw [Advanced] at advanced
  cases last : missed.getLast? with
  | none =>
    rw [last] at advanced
    exact advanced ▸ ⟨rfl, rfl, rfl⟩
  | some td =>
    rw [last] at advanced
    obtain ⟨_, _, _, rfl⟩ := advanced
    exact ⟨rfl, rfl, rfl⟩

/-- `busy'` is what lies behind a TD that has been passed. -/
def Behind (busy busy' : List TrbPtr) (td : Td) : Prop :=
  ∃ front links, busy = front ++ td.lastTrb :: (links ++ busy') ∧ nonlinks links = 0

/-- One TD is passed, and then those of `missed`. -/
theorem Advanced.cons {r r' r'' : Ring} {busy' : List TrbPtr} {missed : List Td} (distinct : busy.Nodup) (behind : Behind busy busy' td)
    (first : Advanced r r' busy [td]) (later : Advanced r' r'' busy' missed) : Advanced r r'' busy (td :: missed) := by
  obtain ⟨front, links, rfl, free⟩ := behind
  obtain ⟨front', rest, same, rfl⟩ := first
  have is_front : front = front' := by
    have parts := List.nodup_append.mp distinct
    exact ((List.append_cons_inj_of_notMem (fun inFront => parts.2.2 _ inFront _ (by simp) rfl)
      (List.nodup_cons.mp parts.2.1).1).mp same).1
  subst is_front
  rw [Advanced] at later ⊢
  rw [List.getLast?_cons]
  cases last : missed.getLast? with
  | none =>
    rw [last] at later
    exact ⟨front, links ++ busy', rfl, later⟩
  | some td' =>
    rw [last] at later
    obtain ⟨front', rest', rfl, rfl⟩ := later
    refine ⟨front ++ td.lastTrb :: (links ++ front'), rest', by simp, ?_⟩
    simp [nonlinks_cons, free]
    omega

/-- A missed TD is passed. -/
theorem OnRing.passed (onRing : OnRing r busy idle (td :: td' :: tds)) :
    ∃ busy' idle', Behind busy busy' td ∧ OnRing (advance r td.lastTrb) busy' idle' (td' :: tds) := by
  obtain ⟨a, rest, rfl, _, inner, laid⟩ := onRing.front
  obtain ⟨shape, first, room, mapped, _⟩ := onRing
  obtain ⟨gap, trbs, more, rfl, firstTrb, lastTrb, firstInner, lastInner, later⟩ := laid
  obtain ⟨trbs, rfl⟩ := List.head?_eq_some_iff.mp firstTrb
  have path : a ++ td.lastTrb :: (gap ++ (td'.firstTrb :: trbs ++ more)) ++ idle =
      a ++ td.lastTrb :: (gap ++ td'.firstTrb :: (trbs ++ (more ++ idle))) := by simp
  rw [path] at shape first mapped
  have moved := advance_eq shape first inner
  obtain ⟨links, gap, rfl, free, next⟩ := skip_head shape.isLap firstInner
  have again : a ++ td.lastTrb :: (links ++ gap ++ td'.firstTrb :: (trbs ++ (more ++ idle))) =
      (a ++ td.lastTrb :: links) ++ (gap ++ (td'.firstTrb :: trbs ++ more)) ++ idle := by simp
  rw [again] at shape first mapped
  rw [moved]
  refine ⟨_, _, ⟨a, links, by rw [List.append_assoc], free⟩,
    OnRing.move shape first room mapped ?_ ⟨gap, _, more, rfl, firstTrb, lastTrb, firstInner, lastInner, later⟩⟩
  rw [← next]
  cases gap <;> rfl

end

/-! ### A missed TD -/

/-- What holds in the runs of `Giveback` and of `RingAccount` makes an endpoint ready. -/
theorem ready_of_invariants {s : State} {e : EpId} {busy idle : List TrbPtr} {reserved pending : Nat} (inv : Giveback.Inv [] s.toState)
    (ring : RingAccount.Inv ⟨(s.ep e).ring, reserved, pending⟩ busy idle) (transfer : (s.ep e).ring.type ≠ .command)
    (isoc : (s.ep e).pipe = .isoc) (mapped : Mapped (busy ++ idle)) (laid : Laid (s.ep e).tdList busy) (some_td : (s.ep e).tdList ≠ []) :
    Ready s e busy idle := by
  refine ⟨isoc, ⟨ring.queue.shape, ?_, ?_, mapped, laid⟩, ?_⟩
  · rcases ring.queue.dequeue with first | ⟨nothing, _, _⟩
    · exact first
    · obtain ⟨td, tds, is_list⟩ := List.exists_cons_of_ne_nil some_td
      rw [is_list, nothing] at laid
      obtain ⟨gap, trbs, rest, split, first, _⟩ := laid
      have empty := (List.append_eq_nil_iff.mp (List.append_eq_nil_iff.mp split.symm).2).1
      rw [empty] at first
      simp at first
  · have room := ring.room
    rw [RingAccount.slack, if_neg transfer] at room
    change reserved + (s.ep e).ring.dequeue.idx + 1 ≤ nonlinks idle at room
    omega
  · intro td member
    obtain ⟨linked, going⟩ := inv.listed member
    exact (inv.left linked going).2

section
variable {s s' s'' : State} {e : EpId} {td : Td} {rest missed : List Td} {event : Event} {env : TxEnv} {busy idle : List TrbPtr}

theorem Ready.index (ready : Ready s e busy idle) (is_list : (s.ep e).tdList = td :: rest) :
    td.index = (s.urbPriv td.urb).tdCnt ∧ (own rest td.urb).map Td.index =
      List.range' ((s.urbPriv td.urb).tdCnt + 1) ((s.urbPriv td.urb).length - ((s.urbPriv td.urb).tdCnt + 1)) := by
  have left := ready.left td (by simp [is_list])
  rw [is_list, own_cons, if_pos rfl, List.map_cons] at left
  have some_left : (s.urbPriv td.urb).length - (s.urbPriv td.urb).tdCnt ≠ 0 := by
    intro none
    rw [none] at left
    simp at left
  obtain ⟨n, count⟩ := Nat.exists_eq_succ_of_ne_zero some_left
  rw [count, List.range'_succ, List.cons.injEq] at left
  refine ⟨left.1, ?_⟩
  rw [left.2]
  congr 1
  omega

theorem skipIsocTd_ret (ready : Ready s e busy idle) (is_list : (s.ep e).tdList = td :: rest) (status : Int) :
    (s.skipIsocTd e td event env status).2.1 = isLast s td := by
  rw [(toState_skipIsocTd s e td event env status).2, isLast, (ready.index is_list).1]
  change ((countDone s.urbPriv td.urb td.urb).tdCnt == (countDone s.urbPriv td.urb td.urb).length) = _
  rw [countDone, Function.update_self]

/-- What passing a TD gives back. -/
theorem passMissed_givenBack (event : Event) (env : TxEnv) (ready : Ready s e busy idle) (is_list : (s.ep e).tdList = td :: rest)
    (status : Int) :
    (s.passMissed e td event env status).1.givenBack = s.givenBack ++ finished s [td] ∧
      (s.passMissed e td event env status).1.freed = s.freed ++ finished s [td] ∧
      (s.passMissed e td event env status).1.reports = s.reports ++ (finished s [td]).map fun urb =>
        ⟨urb, 0, (s.passMissed e td event env status).1.urbs urb, (s.passMissed e td event env status).1.tdFrames urb⟩ := by
  have ret : (s.skipIsocTd e td event env status).2.1 = isLast s td := skipIsocTd_ret ready is_list status
  have state := (toState_skipIsocTd s e td event env status).1
  have pipe : ((s.skipIsocTd e td event env status).1.ep e).pipe = .isoc := by
    have eq := ep_skipIsocTd (s := s.toState) (e := e) td event env false
    rw [show Transfer.State.cleanup _ false (some td) = (s.toState.skipIsocTd e td event env).1 from rfl, ← state] at eq
    rw [eq]
    exact ready.isoc
  have reports : (s.skipIsocTd e td event env status).1.reports = s.reports := by
    simp only [Lengths.State.skipIsocTd, Lengths.State.finishTd]
    split_ifs <;> rfl
  have givenBack : (s.skipIsocTd e td event env status).1.givenBack = s.givenBack := by rw [state]; rfl
  have freed : (s.skipIsocTd e td event env status).1.freed = s.freed := by rw [state]; rfl
  rw [State.passMissed, finished, List.filter_singleton, ← ret]
  dsimp only
  rw [Lengths.State.cleanup, pipe]
  cases (s.skipIsocTd e td event env status).2.1 with
  | false => simp [givenBack, freed, reports]
  | true => simp [givenBack, freed, reports, Transfer.State.cleanup, Transfer.State.giveback]

theorem commands_passMissed (s : State) (e : EpId) (td : Td) (event : Event) (env : TxEnv) (status : Int) :
    (s.passMissed e td event env status).1.urbLengthSet = s.urbLengthSet ∧
      (s.passMissed e td event env status).1.toState = { s.toState with
        ep := (s.passMissed e td event env status).1.ep
        urbPriv := (s.passMissed e td event env status).1.urbPriv
        givenBack := (s.passMissed e td event env status).1.givenBack
        freed := (s.passMissed e td event env status).1.freed } := by
  constructor
  · simp only [Lengths.State.passMissed, Lengths.State.skipIsocTd, Lengths.State.finishTd, Lengths.State.cleanup]
    split_ifs <;> rfl
  · rw [(toState_passMissed status).1]
    cases (s.toState.skipIsocTd e td event env).2 with
    | true => rfl
    | false => rfl

theorem checked_checkLength (u : Urb) (frames : List Frame) (status : Int) :
    Checked u (checkLength { u with isoFrameDesc := frames } status).1 := by
  rw [checkLength]
  dsimp only
  split_ifs with tooLong
  · exact ⟨rfl, rfl, (if_pos tooLong).symm⟩
  · exact ⟨rfl, rfl, (if_neg tooLong).symm⟩

theorem own_one (td : Td) (urb : Nat) : own [td] urb = if td.urb = urb then [td] else [] := own_cons td []

/-- A step of the loop. -/
theorem Ready.passMissed (ready : Ready s e busy idle) (is_list : (s.ep e).tdList = td :: rest) (status : Int) :
    Passed s (s.passMissed e td event env status).1 e busy [td] := by
  obtain ⟨status', moves, books⟩ := passMissed_step event env is_list status
  obtain ⟨givenBack, freed, reports⟩ := passMissed_givenBack event env ready is_list status
  obtain ⟨lengthSet, commands⟩ := commands_passMissed s e td event env status
  have index := (ready.index is_list).1
  have onRing := ready.onRing
  rw [is_list] at onRing
  refine ⟨?_, ?_, ?_, ?_, moves.others, ?_, ?_, ?_, ?_, lengthSet, commands, givenBack, freed, ⟨_, reports, ?_, ?_⟩⟩
  · rw [is_list, moves.tdList]
    rfl
  · rw [(toState_passMissed status).1, ep_skipIsocTd, List.diff_cons, List.diff_nil]
  · rw [(toState_passMissed status).1, ep_skipIsocTd]
    exact onRing.advanced
  · rw [(toState_passMissed status).1, ep_skipIsocTd]
  · intro urb
    rw [moves.urbPriv, countDone, own_one]
    by_cases mine : urb = td.urb
    · subst mine
      rw [Function.update_self, if_pos rfl]
      rfl
    · rw [Function.update_of_ne mine, if_neg (Ne.symm mine)]
      rfl
  · intro urb i
    rw [books.urbs]
    by_cases mine : urb = td.urb
    · subst mine
      rw [Function.update_self, checkLength_frames, Lengths.State.missed, List.getElem?_modify, ← index]
      simp [missedFrame, eq_comm]
    · rw [Function.update_of_ne mine]
      simp [mine]
  · intro urb none
    have apart : urb ≠ td.urb := fun mine => own_eq_nil.mp none td (by simp) mine.symm
    rw [books.urbs, Function.update_of_ne apart]
  · intro urb one
    have mine : urb = td.urb := by
      by_contra apart
      rw [own_one, if_neg (Ne.symm apart)] at one
      exact one rfl
    rw [books.urbs, mine, Function.update_self]
    exact checked_checkLength ..
  · rw [List.map_map]
    exact List.map_id _
  · intro r member
    obtain ⟨urb, _, rfl⟩ := List.mem_map.mp member
    exact ⟨rfl, rfl⟩

/-- The endpoint has still missed the TDs behind. -/
theorem Ready.after {td' : Td} (ready : Ready s e busy idle) (is_list : (s.ep e).tdList = td :: td' :: rest) (status : Int) :
    ∃ busy' idle', Behind busy busy' td ∧ Ready (s.passMissed e td event env status).1 e busy' idle' := by
  have passed : Passed s (s.passMissed e td event env status).1 e busy [td] := ready.passMissed is_list status
  have index := ready.index is_list
  have onRing := ready.onRing
  rw [is_list] at onRing
  obtain ⟨busy', idle', behind, onRing'⟩ := onRing.passed
  have ep : ((s.passMissed e td event env status).1.ep e) = { s.ep e with
      ring := advance (s.ep e).ring td.lastTrb
      tdList := td' :: rest
      cancelledTdList := (s.ep e).cancelledTdList.erase td } := by
    rw [(toState_passMissed status).1, ep_skipIsocTd, is_list, List.erase_cons_head]
  refine ⟨busy', idle', behind, ?_, ?_, ?_⟩
  · rw [ep]
    exact ready.isoc
  · rw [ep]
    exact onRing'
  · intro x member
    rw [ep] at member ⊢
    rw [passed.counts]
    by_cases mine : x.urb = td.urb
    · rw [mine, own_one, if_pos rfl]
      exact index.2
    · have left := ready.left x (by rw [is_list]; exact List.mem_cons_of_mem td member)
      rw [is_list, own_cons, if_neg (Ne.symm mine)] at left
      rw [own_one, if_neg (Ne.symm mine)]
      exact left

/-- A URB that has been finished has no more TDs. -/
theorem Ready.done (ready : Ready s e busy idle) (is_list : (s.ep e).tdList = td :: rest) (last : isLast s td = true) :
    own rest td.urb = [] := by
  obtain ⟨index, behind⟩ := ready.index is_list
  have count : td.index + 1 = (s.urbPriv td.urb).length := by simpa [isLast] using last
  rw [← index, count, Nat.sub_self, List.range'_zero, List.map_eq_nil_iff] at behind
  exact behind

theorem Passed.none (s : State) (e : EpId) (busy : List TrbPtr) : Passed s s e busy [] where
  tdList := rfl
  cancelled := (List.diff_nil _).symm
  ring := rfl
  ep := rfl
  others _ _ := rfl
  counts _ := rfl
  frames urb i := by simp
  urbs _ _ := rfl
  lengths urb some := absurd rfl some
  lengthSet := rfl
  commands := rfl
  givenBack := by simp [finished]
  freed := by simp [finished]
  reports := ⟨[], by simp, rfl, by simp⟩

theorem Passed.skip (passed : Passed s s' e busy missed) : (s'.ep e).skip = (s.ep e).skip := by
  rw [passed.ep]

theorem Passed.mem_cancelled (passed : Passed s s' e busy missed) {td : Td} (other : td ∉ missed) :
    td ∈ (s'.ep e).cancelledTdList ↔ td ∈ (s.ep e).cancelledTdList := by
  rw [passed.cancelled]
  exact ⟨fun member => List.diff_subset _ _ member, fun member => List.mem_diff_of_mem member other⟩

theorem Checked.trans {u u' u'' : Urb} (first : Checked u u') (later : Checked u' u'') : Checked u u'' := by
  refine ⟨later.transferBufferLength.trans first.transferBufferLength, later.shortNotOk.trans first.shortNotOk, ?_⟩
  rw [later.actualLength, first.actualLength, first.transferBufferLength]
  split_ifs with tooLong negative
  · rfl
  · rfl
  · rfl

theorem Passed.finished_cons (first : Passed s s' e busy [td]) (missed : List Td) :
    finished s (td :: missed) = finished s [td] ++ finished s' missed := by
  have last : isLast s' = isLast s := by
    funext td'
    rw [isLast, isLast, first.counts]
  rw [finished, finished, finished, last, ← List.map_append, ← List.filter_append]
  rfl

section
variable {busy' : List TrbPtr} (first : Passed s s' e busy [td]) (later : Passed s' s'' e busy' missed)
include first later

theorem Passed.lengths_cons (urb : Nat) (some : own (td :: missed) urb ≠ []) : Checked (s.urbs urb) (s''.urbs urb) := by
  rw [own_cons] at some
  by_cases mine : td.urb = urb
  · have one : own [td] urb ≠ [] := by simp [own_one, mine]
    by_cases more : own missed urb = []
    · rw [later.urbs urb more]
      exact first.lengths urb one
    · exact (first.lengths urb one).trans (later.lengths urb more)
  · rw [if_neg mine] at some
    rw [← first.urbs urb (by rw [own_one, if_neg mine])]
    exact later.lengths urb some

/-- What the first TD has given back stays as it is, when this was the last TD of its URB. -/
theorem Passed.reports_cons (done : isLast s td = true → own missed td.urb = []) :
    ∃ new, s''.reports = s.reports ++ new ∧ new.map (·.urb) = finished s (td :: missed) ∧
      ∀ r ∈ new, r.status = 0 ∧ r.given = s''.urbs r.urb := by
  obtain ⟨new, added, urbs, given⟩ := first.reports
  obtain ⟨new', added', urbs', given'⟩ := later.reports
  refine ⟨new ++ new', by rw [added', added, List.append_assoc], by rw [List.map_append, urbs, urbs', first.finished_cons missed], ?_⟩
  intro r member
  rcases List.mem_append.mp member with inFirst | inLater
  · obtain ⟨status, data⟩ := given r inFirst
    refine ⟨status, data.trans (later.urbs r.urb ?_).symm⟩
    have inFinished : r.urb ∈ finished s [td] := by
      rw [← urbs]
      exact List.mem_map_of_mem inFirst
    obtain ⟨td', inLast, same⟩ := List.mem_map.mp inFinished
    obtain ⟨is_td, isLast'⟩ := List.mem_filter.mp inLast
    rw [List.mem_singleton.mp is_td] at isLast' same
    rw [← same]
    exact done isLast'
  · exact given' r inLater

/-- One more TD at the front. -/
theorem Passed.cons (distinct : busy.Nodup) (behind : Behind busy busy' td) (done : isLast s td = true → own missed td.urb = []) :
    Passed s s'' e busy (td :: missed) := by
  have both := first.finished_cons missed
  refine ⟨?_, ?_, first.ring.cons distinct behind later.ring, ?_, ?_, ?_, ?_, ?_, first.lengths_cons later,
    later.lengthSet.trans first.lengthSet, ?_, ?_, ?_, first.reports_cons later done⟩
  · rw [first.tdList, later.tdList]
    rfl
  · rw [later.cancelled, first.cancelled, List.diff_cons, List.diff_cons, List.diff_nil]
  · refine later.ep.trans ?_
    rw [first.ep]
  · intro e' other
    rw [later.others e' other, first.others e' other]
  · intro urb
    rw [later.counts, first.counts, own_one, own_cons]
    split_ifs
    · simp [Nat.add_assoc, Nat.add_comm, Nat.add_left_comm]
    · rfl
  · intro urb i
    rw [later.frames, first.frames, Option.map_map]
    congr 1
    funext f
    simp only [Function.comp_apply, List.map_cons, List.map_nil, List.mem_cons, List.not_mem_nil, or_false]
    by_cases here : (urb, i) = (td.urb, td.index)
    · simp only [here, if_true, true_or]
      split_ifs <;> rfl
    · simp only [here, if_false, false_or]
  · intro urb none
    rw [own_cons] at none
    split_ifs at none with mine
    rw [later.urbs urb none, first.urbs urb (by rw [own_one, if_neg mine])]
  · refine later.commands.trans ?_
    rw [first.commands]
  · rw [later.givenBack, first.givenBack, both, List.append_assoc]
  · rw [later.freed, first.freed, both, List.append_assoc]

end

/-- The loop passes the TDs in front of that of the event. -/
theorem txLoop_passes (env : TxEnv) {code : Nat} {later : List Td} {p : TrbPtr} (here : event.buffer = trbVirtToDma p)
    (goesOn : ¬(code = compStop ∨ code = compStopInval)) : ∀ {missed : List Td} {s : State} {busy idle : List TrbPtr},
    Ready s e busy idle → (s.ep e).skip = true → (s.ep e).tdList = missed ++ td :: later → p ∈ trbsOf (s.ep e).ring td →
    ∀ (tdNum : Nat) (ret : Bool) (status : Int), ∃ s' busy' idle' ret' status', Passed s s' e busy missed ∧ Ready s' e busy' idle' ∧
      ∀ fuel, s.txLoop e event code env (fuel + missed.length) (tdNum + missed.length) ret status =
        s'.txLoop e event code env fuel tdNum ret' status' := by
  intro missed
  induction missed with
  | nil => exact fun ready _ _ _ tdNum ret status => ⟨_, _, _, ret, status, Passed.none _ e _, ready, fun _ => rfl⟩
  | cons first missed ih =>
    intro s busy idle ready skip is_list inTd tdNum ret status
    obtain ⟨next, rest, is_rest⟩ : ∃ next rest, missed ++ td :: later = next :: rest := List.exists_cons_of_ne_nil (by simp)
    have begins : (s.ep e).tdList = first :: next :: rest := by rw [is_list, List.cons_append, is_rest]
    have passed : Passed s (s.passMissed e first event env status).1 e busy [first] := ready.passMissed begins status
    obtain ⟨busy', idle', behind, ready'⟩ : ∃ busy' idle', Behind busy busy' first ∧
        Ready (s.passMissed e first event env status).1 e busy' idle' := ready.after begins status
    have distinct : busy.Nodup := (List.nodup_append.mp ready.onRing.shape.isLap.1).1
    have left : ((s.passMissed e first event env status).1.ep e).tdList = missed ++ td :: later :=
      List.cons_injective ((passed.tdList.symm.trans is_list) : first :: _ = first :: (missed ++ td :: later))
    have missing : trbInTd (s.ep e).ring first.lastTrb event.buffer = none := by
      have onRing := ready.onRing
      rw [is_list, List.cons_append] at onRing
      rw [here]
      exact onRing.missed (by simp) inTd
    obtain ⟨s', busy'', idle'', ret', status', passes, last, loop⟩ := ih ready' (passed.skip.trans skip) left
      (by rw [passed.ring.sameTrbs.trbsOf]; exact inTd) tdNum (s.passMissed e first event env status).2.1 (s.passMissed e first event env status).2.2
    refine ⟨s', busy'', idle'', ret', status', passed.cons passes distinct behind ?_, last, fun fuel => ?_⟩
    · intro isLast
      have done := ready.done begins isLast
      rw [← is_rest, own_append] at done
      exact (List.append_eq_nil_iff.mp done).1
    · rw [← loop fuel, List.length_cons, ← Nat.add_assoc, ← Nat.add_assoc, Lengths.State.txLoop, is_list]
      simp only [List.cons_append, missing, skip, ready.isoc, Nat.add_sub_cancel, if_true]
      rw [if_neg (by simp), if_neg goesOn]
      simp

end

/-! ### The TD of the event -/

section
variable {s : State} {e : EpId} {td : Td} {missed later : List Td} {event : Event} {env : TxEnv} {busy idle : List TrbPtr} {p : TrbPtr}

/-- The TDs in `done` have been taken off the list, and those of `later` are as they were. -/
structure Untouched (s t : State) (e : EpId) (done later : List Td) : Prop where
  skip : (t.ep e).skip = false
  tdList : (t.ep e).tdList = later
  cancelled : ∀ td ∈ later, td ∈ (t.ep e).cancelledTdList ↔ td ∈ (s.ep e).cancelledTdList
  ring : SameTrbs (s.ep e).ring (t.ep e).ring
  frames : ∀ td ∈ later, (t.urbs td.urb).isoFrameDesc[td.index]? = (s.urbs td.urb).isoFrameDesc[td.index]?
  givenBack : t.givenBack = s.givenBack ++ finished s done

theorem finishTd_status (s : State) (e : EpId) (td : Td) (event : Event) (env : TxEnv) (skip : Bool) (status status' : Int) :
    (s.finishTd e td skip event env status).1 = (s.finishTd e td skip event env status').1 ∧
      (s.finishTd e td skip event env status).2.1 = (s.finishTd e td skip event env status').2.1 := by
  have same : (checkLength (s.urbs td.urb) status).1 = (checkLength (s.urbs td.urb) status').1 := by
    rw [checkLength, checkLength]
    split_ifs <;> rfl
  simp only [Lengths.State.finishTd]
  split_ifs
  · exact ⟨rfl, rfl⟩
  · exact ⟨by rw [same], rfl⟩

theorem cleanup_status (isoc : (s.ep e).pipe = .isoc) (ret : Bool) (status status' : Int) :
    (s.cleanup e ret td status).1 = (s.cleanup e ret td status').1 := by
  simp only [Lengths.State.cleanup, isoc, if_true]
  split_ifs <;> rfl

/-- An isochronous TD is completed in the same way whatever the status was before. -/
theorem complete_status (isoc : (s.ep e).pipe = .isoc) (is_list : (s.ep e).tdList = td :: later) (eventTrb : TrbPtr) (status status' : Int) :
    s.complete e td eventTrb event env status = s.complete e td eventTrb event env status' := by
  have processed : (s.process e td eventTrb event env status).1 = (s.process e td eventTrb event env status').1 ∧
      (s.process e td eventTrb event env status).2.1 = (s.process e td eventTrb event env status').2.1 := by
    simp [Lengths.State.process, Lengths.State.processTd, isoc]
  have pipe (status : Int) : (((s.process e td eventTrb event env status').1.finishTd e td false event env status).1.ep e).pipe = .isoc := by
    rw [(toState_finishTd _ e td event env false status).1, toState_process]
    have moves := moves_finishTd event env is_list false
    split_ifs at moves
    · exact moves.2.pipe.trans isoc
    · exact moves.pipe.trans isoc
  rw [Lengths.State.complete, Lengths.State.complete]
  dsimp only
  rw [processed.1, processed.2]
  split_ifs
  · obtain ⟨state, ret⟩ := finishTd_status (s.process e td eventTrb event env status').1 e td event env false
      (s.process e td eventTrb event env status).2.2 (s.process e td eventTrb event env status').2.2
    rw [state, ret]
    exact cleanup_status (pipe _) _ _ _
  · rfl

/-- A success or a short packet finishes the TD, and of the lists and the ring it makes what
    passing it would. -/
theorem toState_complete_done (td : Td) (env : TxEnv) (code : event.code = compSuccess ∨ event.code = compShortTx) (isoc : (s.ep e).pipe = .isoc)
    (eventTrb : TrbPtr) (status : Int) :
    (s.complete e td eventTrb event env status).toState = (s.passMissed e td event env status).1.toState := by
  have ends : finishes (s.ep e) td eventTrb event env.epState = true := by
    rw [finishes, isoc]
    rcases code with success | short
    · simp [success, compSuccess, compTxErr]
    · simp [short, compShortTx, compTxErr]
  have done : s.toState.finishTd e td false event env = s.toState.skipIsocTd e td event env := by
    rw [Transfer.State.skipIsocTd, Transfer.State.finishTd, Transfer.State.finishTd, if_neg (by simp), if_pos rfl]
    rcases code with success | short
    · simp [success, requiresManualHaltCleanup, compSuccess, compStop, compStopInval, compStall, compTxErr, compBabble, compSplitErr]
    · simp [short, requiresManualHaltCleanup, compShortTx, compStop, compStopInval, compStall, compTxErr, compBabble, compSplitErr]
  rw [toState_complete, if_pos ends, done, (toState_passMissed status).1]

/-- The other frames of a URB stay as they are. -/
theorem frames_processIsocTd {trust : Bool} {r : Ring} {eventTrb : TrbPtr} {idx i : Nat} {u : Urb} (other : i ≠ idx) :
    (processIsocTd trust r td eventTrb event idx u).1.isoFrameDesc[i]? = u.isoFrameDesc[i]? := by
  have set (u : Urb) (status : Int) : (u.setFrameStatus idx status).isoFrameDesc[i]? = u.isoFrameDesc[i]? := by
    simp [Urb.setFrameStatus, Ne.symm other]
  have add (u : Urb) (len : BitVec 32) : (u.addFrame idx len).isoFrameDesc[i]? = u.isoFrameDesc[i]? := by
    simp [Urb.addFrame, Ne.symm other]
  simp only [processIsocTd]
  split_ifs
  · exact set u _
  · rw [add, set]
  · exact set u _
  · rw [add, set]

theorem frames_complete (isoc : (s.ep e).pipe = .isoc) (is_list : (s.ep e).tdList = td :: later) (eventTrb : TrbPtr) (status : Int)
    {urb i : Nat} (other : ¬(urb = td.urb ∧ i = (s.urbPriv td.urb).tdCnt)) :
    ((s.complete e td eventTrb event env status).urbs urb).isoFrameDesc[i]? = (s.urbs urb).isoFrameDesc[i]? := by
  have processed : (s.processTd e td eventTrb event env status).urb =
      (processIsocTd env.trustTxLength (s.ep e).ring td eventTrb event (s.urbPriv td.urb).tdCnt (s.urbs td.urb)).1 :=
    congrArg Prod.fst (processTd_isoc td event env isoc eventTrb status)
  have kept : urb = td.urb → (s.processTd e td eventTrb event env status).urb.isoFrameDesc[i]? = (s.urbs urb).isoFrameDesc[i]? := by
    intro mine
    rw [processed, mine]
    exact frames_processIsocTd fun same => other ⟨mine, same⟩
  refine complete_step (Q := fun t => (t.urbs urb).isoFrameDesc[i]? = (s.urbs urb).isoFrameDesc[i]?) is_list eventTrb status ?_ ?_
  · intro s' _ books _
    rw [books.urbs]
    by_cases mine : urb = td.urb
    · rw [mine, Function.update_self, ← mine]
      exact kept mine
    · rw [Function.update_of_ne mine]
  · intro s' ret status' _ books _ _
    rw [books.urbs]
    by_cases mine : urb = td.urb
    · rw [mine, Function.update_self, checkLength_frames, ← mine]
      exact kept mine
    · rw [Function.update_of_ne mine]

theorem reaction_done (code : event.code = compSuccess ∨ event.code = compShortTx) (trust : Bool) :
    ∃ c, reaction event trust = .process c ∧ (c = compSuccess ∨ c = compShortTx) := by
  rcases code with success | short
  · rw [reaction, if_pos success]
    split_ifs
    · exact ⟨_, rfl, .inr rfl⟩
    · exact ⟨_, rfl, .inl rfl⟩
  · rw [reaction, short, if_neg (by decide), if_pos (by decide)]
    exact ⟨_, rfl, .inr rfl⟩

/-- The flags of the endpoint when the TD of the event has been found. -/
def foundTd (s : State) (e : EpId) (code : Nat) : State :=
  s.setEp e { s.ep e with lastTdWasShort := decide (code = compShortTx), skip := false }

/-- The loop finds the TD of the event in front. -/
theorem txLoop_found {code : Nat} (ready : Ready s e busy idle) (is_list : (s.ep e).tdList = td :: later)
    (here : event.buffer = trbVirtToDma p) (inTd : p ∈ trbsOf (s.ep e).ring td) (work : ((s.ep e).ring.trb p).isNoop = false)
    {tdNum : Nat} (left : (s.ep e).skip = true → tdNum ≠ 0) (fuel : Nat) (ret : Bool) (status : Int) :
    s.txLoop e event code env (fuel + 1) tdNum ret status = (foundTd s e code).complete e td p event env status := by
  have onRing := ready.onRing
  rw [is_list] at onRing
  rw [Lengths.State.txLoop, is_list]
  dsimp only
  rw [if_neg (fun both => left both.1 both.2), here, onRing.found inTd]
  dsimp only
  rw [work, if_neg Bool.false_ne_true]
  rfl

/-- Flags of the endpoint do not matter for where its TDs are. -/
theorem Ready.flags (ready : Ready s e busy idle) (skip short : Bool) :
    Ready (s.setEp e { s.ep e with skip := skip, lastTdWasShort := short }) e busy idle := by
  obtain ⟨isoc, onRing, left⟩ := ready
  refine ⟨?_, ?_, ?_⟩
  · rw [toState_setEp, Transfer.State.ep_setEp]
    exact isoc
  · rw [toState_setEp, Transfer.State.ep_setEp]
    exact onRing
  · rw [toState_setEp, Transfer.State.ep_setEp]
    exact left

/-- No two TDs of the list have the same frame. -/
theorem Ready.apart {front : List Td} (ready : Ready s e busy idle) (is_list : (s.ep e).tdList = front ++ later) {x y : Td}
    (before : x ∈ front) (behind : y ∈ later) : ¬(x.urb = y.urb ∧ x.index = y.index) := by
  rintro ⟨urb, index⟩
  have left := ready.left y (by simp [is_list, behind])
  have distinct : ((own (s.ep e).tdList y.urb).map Td.index).Nodup := by
    rw [left]
    exact List.nodup_range'
  rw [is_list, own_append, List.map_append] at distinct
  exact (List.nodup_append.mp distinct).2.2 _ (List.mem_map_of_mem (mem_own.mpr ⟨before, urb⟩)) _
    (List.mem_map_of_mem (mem_own.mpr ⟨behind, rfl⟩)) index

/-- Without `skip` an event for the first TD completes it. -/
theorem handleTxEvent_found (ready : Ready s e busy idle) (clear : (s.ep e).skip = false) (enabled : env.epState ≠ 0)
    (is_list : (s.ep e).tdList = td :: later) {code : Nat} (reacts : reaction event env.trustTxLength = .process code)
    (noStall : event.code ≠ compStall) (here : event.buffer = trbVirtToDma p) (inTd : p ∈ trbsOf (s.ep e).ring td)
    (work : ((s.ep e).ring.trb p).isNoop = false) :
    s.handleTxEvent e event env = (foundTd s e code).complete e td p event env (codeStatus event.code) := by
  have same : ({ s with toState := s.toState.noteStall e event } : State) = s := by
    rw [Transfer.State.noteStall, if_neg noStall]
  rw [Lengths.State.handleTxEvent, if_neg enabled]
  simp only [reacts, same]
  exact txLoop_found ready is_list here inTd work (fun set => absurd set (by simp [clear])) _ _ _

/-- The TD of the event is finished, and those behind it are left alone. -/
theorem untouched_complete {s' : State} {busy' idle' : List TrbPtr} (ready : Ready s e busy idle) (ready' : Ready s' e busy' idle')
    (is_list : (s.ep e).tdList = missed ++ td :: later) (passed : Passed s s' e busy missed)
    (code : event.code = compSuccess ∨ event.code = compShortTx) (short : Nat) (eventTrb : TrbPtr) (status : Int) :
    Untouched s ((foundTd s' e short).complete e td eventTrb event env status) e (missed ++ [td]) later := by
  have found : Ready (foundTd s' e short) e busy' idle' := ready'.flags false (decide (short = compShortTx))
  have left : (s'.ep e).tdList = td :: later := List.append_cancel_left (passed.tdList.symm.trans is_list)
  have list : ((foundTd s' e short).ep e).tdList = td :: later := by simpa [foundTd] using left
  have state := toState_complete_done td env code found.isoc eventTrb status
  have last : Passed (foundTd s' e short) ((foundTd s' e short).passMissed e td event env status).1 e busy' [td] := found.passMissed list status
  have index : td.index = (s'.urbPriv td.urb).tdCnt := (found.index list).1
  have split : (s.ep e).tdList = (missed ++ [td]) ++ later := by simpa using is_list
  have apart : ∀ x ∈ missed ++ [td], ∀ y ∈ later, ¬(x.urb = y.urb ∧ x.index = y.index) :=
    fun x before y behind => ready.apart split before behind
  have ring : SameTrbs (s'.ep e).ring ((foundTd s' e short).ep e).ring := by
    rw [foundTd, toState_setEp, Transfer.State.ep_setEp]
    exact ⟨rfl, rfl, rfl⟩
  have cancelled : ((foundTd s' e short).ep e).cancelledTdList = (s'.ep e).cancelledTdList := by
    rw [foundTd, toState_setEp, Transfer.State.ep_setEp]
  have isLast' : isLast (foundTd s' e short) = isLast s := by
    funext x
    rw [isLast, isLast, show (foundTd s' e short).urbPriv = s'.urbPriv from rfl, passed.counts]
  refine ⟨?_, ?_, ?_, ?_, ?_, ?_⟩
  · rw [state, last.skip, foundTd, toState_setEp, Transfer.State.ep_setEp]
  · rw [state]
    exact (List.cons_injective (list.symm.trans last.tdList : td :: later = td :: _)).symm
  · intro y behind
    have notTd : y ∉ [td] := fun same => apart y (List.mem_append_right missed same) y behind ⟨rfl, rfl⟩
    have notMissed : y ∉ missed := fun before => apart y (List.mem_append_left [td] before) y behind ⟨rfl, rfl⟩
    rw [state, last.mem_cancelled notTd, cancelled, passed.mem_cancelled notMissed]
  · rw [state]
    exact (passed.ring.sameTrbs.trans ring).trans last.ring.sameTrbs
  · intro y behind
    have other : ¬(y.urb = td.urb ∧ y.index = ((foundTd s' e short).urbPriv td.urb).tdCnt) := by
      rintro ⟨urb, number⟩
      exact apart td (by simp) y behind ⟨urb.symm, index.trans number.symm⟩
    have none : (y.urb, y.index) ∉ missed.map fun td => (td.urb, td.index) := by
      intro member
      obtain ⟨x, before, same⟩ := List.mem_map.mp member
      exact apart x (List.mem_append_left [td] before) y behind (Prod.ext_iff.mp same)
    rw [frames_complete found.isoc list eventTrb status other, show (foundTd s' e short).urbs = s'.urbs from rfl, passed.frames]
    simp [none]
  · rw [state, last.givenBack, show (foundTd s' e short).givenBack = s'.givenBack from rfl, passed.givenBack, finished, finished, finished,
      isLast', List.filter_append, List.map_append, List.append_assoc]

end

/-- A success or a short packet for a TRB of a TD of the list completes the TDs in front of it as
    missed, and then it is as if nothing had been missed. However long the list is, the loop
    comes to an end there. -/
theorem handleTxEvent_skips {s : State} {e : EpId} {busy idle : List TrbPtr} {missed later : List Td} {td : Td} {event : Event} {env : TxEnv}
    {p : TrbPtr} (ready : Ready s e busy idle) (skip : (s.ep e).skip = true) (enabled : env.epState ≠ 0)
    (is_list : (s.ep e).tdList = missed ++ td :: later) (code : event.code = compSuccess ∨ event.code = compShortTx)
    (here : event.buffer = trbVirtToDma p) (inTd : p ∈ trbsOf (s.ep e).ring td) (work : ((s.ep e).ring.trb p).isNoop = false) :
    ∃ s', Passed s s' e busy missed ∧
      s.handleTxEvent e event env = (s'.setEp e { s'.ep e with skip := false }).handleTxEvent e event env ∧
      Untouched s (s.handleTxEvent e event env) e (missed ++ [td]) later ∧
      ∀ c, reaction event env.trustTxLength = .process c → ∀ fuel, missed.length < fuel →
        s.txLoop e event c env fuel (s.ep e).tdList.length false (codeStatus event.code) = s.handleTxEvent e event env := by
  obtain ⟨c, reacts, is_c⟩ := reaction_done code env.trustTxLength
  have noStall : event.code ≠ compStall := by
    rcases code with success | short
    · rw [success]
      decide
    · rw [short]
      decide
  have goesOn : ¬(c = compStop ∨ c = compStopInval) := by
    rcases is_c with rfl | rfl
    · decide
    · decide
  obtain ⟨s', busy', idle', ret', status', passed, ready', loop⟩ := txLoop_passes env here goesOn ready skip is_list inTd
    (later.length + 1) false (codeStatus event.code)
  have left : (s'.ep e).tdList = td :: later := List.append_cancel_left (passed.tdList.symm.trans is_list)
  have inTd' : p ∈ trbsOf (s'.ep e).ring td := by
    rw [passed.ring.sameTrbs.trbsOf]
    exact inTd
  have work' : ((s'.ep e).ring.trb p).isNoop = false := by
    rw [passed.ring.sameTrbs.segments]
    exact work
  have found : Ready (foundTd s' e c) e busy' idle' := ready'.flags false (decide (c = compShortTx))
  have list : ((foundTd s' e c).ep e).tdList = td :: later := by
    rw [foundTd, toState_setEp, Transfer.State.ep_setEp]
    exact left
  have whole (fuel : Nat) (enough : missed.length < fuel) : s.txLoop e event c env fuel (s.ep e).tdList.length false (codeStatus event.code) =
      (foundTd s' e c).complete e td p event env (codeStatus event.code) := by
    obtain ⟨n, rfl⟩ : ∃ n, fuel = n + 1 + missed.length := ⟨fuel - missed.length - 1, by omega⟩
    have count : (s.ep e).tdList.length = later.length + 1 + missed.length := by
      rw [is_list, List.length_append, List.length_cons, Nat.add_comm]
    rw [count, loop, txLoop_found ready' left here inTd' work' (fun _ => Nat.succ_ne_zero _)]
    exact complete_status found.isoc list p status' (codeStatus event.code)
  have result : s.handleTxEvent e event env = (foundTd s' e c).complete e td p event env (codeStatus event.code) := by
    have same : ({ s with toState := s.toState.noteStall e event } : State) = s := by
      rw [Transfer.State.noteStall, if_neg noStall]
    rw [Lengths.State.handleTxEvent, if_neg enabled]
    simp only [reacts, same, skip, if_true]
    apply whole
    rw [is_list, List.length_append]
    omega
  have clear : (s'.setEp e { s'.ep e with skip := false }).handleTxEvent e event env =
      (foundTd s' e c).complete e td p event env (codeStatus event.code) := by
    have ready'' : Ready (s'.setEp e { s'.ep e with skip := false }) e busy' idle' := ready'.flags false (s'.ep e).lastTdWasShort
    have ep : (s'.setEp e { s'.ep e with skip := false }).ep e = { s'.ep e with skip := false } := by
      rw [toState_setEp, Transfer.State.ep_setEp]
    have again : foundTd (s'.setEp e { s'.ep e with skip := false }) e c = foundTd s' e c := by
      simp [foundTd, Lengths.State.setEp, Transfer.State.setEp]
    rw [handleTxEvent_found ready'' (by rw [ep]) enabled (by rw [ep]; exact left) reacts noStall here (by rw [ep]; exact inTd')
      (by rw [ep]; exact work'), again]
  refine ⟨s', passed, result.trans clear.symm, ?_, ?_⟩
  · rw [result]
    exact untouched_complete ready ready' is_list passed code c p _
  · intro c' reacts' fuel enough
    have same : c' = c := by simpa using reacts'.symm.trans reacts
    rw [same, whole fuel enough, result]

/-! ### Two missed TDs of a URB -/

def quietTx : TxEnv := ⟨1, false, false, true, 0, ⟨0x1000, true, true, 0⟩⟩

def firstTd : Td := ⟨7, 0, ⟨0x1000, 0⟩, ⟨0x1000, 0⟩⟩
def secondTd : Td := ⟨7, 1, ⟨0x1000, 1⟩, ⟨0x1000, 1⟩⟩
def thirdTd : Td := ⟨8, 0, ⟨0x1000, 2⟩, ⟨0x1000, 2⟩⟩

/-- A URB of two frames and one of one frame are queued, and the controller misses an interval. -/
def missedTwo : State :=
  [Reported.Op.enqueue (1, 2) 7 ⟨200, 0, false, [⟨100, 0, 0⟩, ⟨100, 0, 0⟩]⟩ (isocTds 2)
      [(⟨0x1000, 0⟩, ⟨0x1000, 0⟩), (⟨0x1000, 1⟩, ⟨0x1000, 1⟩)] true,
    .enqueue (1, 2) 8 ⟨100, 0, false, [⟨100, 0, 0⟩]⟩ (isocTds 3) [(⟨0x1000, 2⟩, ⟨0x1000, 2⟩)] true,
    .txEvent (1, 2) ⟨compMissedInt, 0, 0⟩ quietTx].foldl step idleFrames

theorem missedTwo_ready : Ready missedTwo (1, 2) (run 0x1000 0 3) (run 0x1000 3 61 ++ run 0x1400 0 64) := by
  have shape : Shape (missedTwo.ep (1, 2)).ring (run 0x1000 0 3 ++ (run 0x1000 3 61 ++ run 0x1400 0 64)) :=
    ⟨by decide +kernel, by decide +kernel, by decide +kernel, by decide +kernel, by decide +kernel, by decide +kernel, by decide +kernel,
      by decide +kernel, by decide +kernel⟩
  have laid : Laid (missedTwo.ep (1, 2)).tdList (run 0x1000 0 3) := by
    rw [show (missedTwo.ep (1, 2)).tdList = [firstTd, secondTd, thirdTd] by decide +kernel]
    exact ⟨[], [⟨0x1000, 0⟩], run 0x1000 1 2, rfl, rfl, rfl, by decide, by decide, [], [⟨0x1000, 1⟩], run 0x1000 2 1, rfl, rfl, rfl,
      by decide, by decide, [], [⟨0x1000, 2⟩], [], rfl, rfl, rfl, by decide, by decide, trivial⟩
  have segments : ∀ p ∈ run 0x1000 0 3 ++ (run 0x1000 3 61 ++ run 0x1400 0 64), p.seg = 0x1000 ∨ p.seg = 0x1400 := by decide +kernel
  refine ⟨by decide +kernel, ⟨shape, by decide +kernel, by decide +kernel, ⟨?_, ?_⟩, laid⟩, by decide +kernel⟩
  · intro p member
    rcases segments p member with seg | seg
    · rw [seg]
      decide
    · rw [seg]
      decide
  · intro p p_mem q q_mem
    rcases segments p p_mem with seg | seg
    · rcases segments q q_mem with seg' | seg'
      · simp [seg, seg']
      · simp [seg, seg']
    · rcases segments q q_mem with seg' | seg'
      · simp [seg, seg']
      · simp [seg, seg']

/-- The next event is for the TD of the second URB. -/
theorem handleTxEvent_skips_two : ∃ s', Passed missedTwo s' (1, 2) (run 0x1000 0 3) [firstTd, secondTd] ∧
    missedTwo.handleTxEvent (1, 2) ⟨compSuccess, 0x1020, 0⟩ quietTx =
      (s'.setEp (1, 2) { s'.ep (1, 2) with skip := false }).handleTxEvent (1, 2) ⟨compSuccess, 0x1020, 0⟩ quietTx ∧
    Untouched missedTwo (missedTwo.handleTxEvent (1, 2) ⟨compSuccess, 0x1020, 0⟩ quietTx) (1, 2) [firstTd, secondTd, thirdTd] [] ∧
    (missedTwo.handleTxEvent (1, 2) ⟨compSuccess, 0x1020, 0⟩ quietTx).reports.map Report.given =
      [⟨200, 0, false, [⟨100, 0, -18⟩, ⟨100, 0, -18⟩]⟩, ⟨100, 100, false, [⟨100, 100, 0⟩]⟩] := by
  obtain ⟨s', passed, as_clear, untouched, _⟩ := @handleTxEvent_skips missedTwo (1, 2) _ _ [firstTd, secondTd] [] thirdTd
    ⟨compSuccess, 0x1020, 0⟩ quietTx ⟨0x1000, 2⟩ missedTwo_ready (by decide +kernel) (by decide) (by decide +kernel) (.inl rfl)
    (by decide) (by decide +kernel) (by decide +kernel)
  exact ⟨s', passed, as_clear, untouched, by decide +kernel⟩

end Ehub.Missed
