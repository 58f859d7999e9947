import Mathlib
import Ehub.RingAccount

/-!
The walk that follows a completed Set TR Dequeue Pointer command
(`update_ring_for_set_deq_completion`). It goes from `dequeue` to the queued pointer over the
TRBs that are no links, and is meant to notice when it is back where it began. A link is
passed over except when it is the queued pointer, so that a walk that begins on a link never
comes back to it.
-/
namespace Ehub.SetDeq
open Ehub.Lap Ehub.Segments Ehub.Ring Ehub.RingShape

/-- `dequeue` moves off a link TRB to the next segment. -/
def offLink (r : Ring) : Ring := if r.lastTrb r.dequeue then { r with dequeue := ⟨r.next r.dequeue.seg, 0⟩ } else r

/-- `dequeue` moves over one TRB, which is usable again. -/
def counted (r : Ring) : Ring :=
  { r with numTrbsFree := r.numTrbsFree + 1, dequeue := ⟨r.dequeue.seg, r.dequeue.idx + 1⟩ }

/-- The loop of `update_ring_for_set_deq_completion`, with the flag for being back at the start;
    nothing when it has not come to its end. The queued pointer may be NULL. -/
def setDeqRun (queuedDeqPtr : Option TrbPtr) (start : TrbPtr) : Nat → Ring → Option (Ring × Bool)
  | 0, _ => none
  | fuel + 1, r =>
    if some r.dequeue = queuedDeqPtr then some (r, false)
    else if (counted r).lastTrb (counted r).dequeue ∧ some (counted r).dequeue = queuedDeqPtr then some (counted r, false)
    else if (offLink (counted r)).dequeue = start then some (offLink (counted r), true)
    else setDeqRun queuedDeqPtr start fuel (offLink (counted r))

/-- `update_ring_for_set_deq_completion`, where its loop comes to an end. -/
def setDeqCompletion (r : Ring) (queuedDeqPtr : Option TrbPtr) (fuel : Nat) : Option Ring :=
  (setDeqRun queuedDeqPtr r.dequeue fuel (offLink r)).map fun walked =>
    if walked.2 then { walked.1 with numTrbsFree := r.numTrbsFree } else walked.1

theorem setDeqLoop_succ (target start : TrbPtr) (fuel : Nat) (r : Ring) :
    setDeqLoop target start (fuel + 1) r =
      if r.dequeue = target then (r, false)
      else if (counted r).lastTrb (counted r).dequeue ∧ (counted r).dequeue = target then (counted r, false)
      else if (offLink (counted r)).dequeue = start then (offLink (counted r), true)
      else setDeqLoop target start fuel (offLink (counted r)) := rfl

theorem setDeqLoop_of_run {target start : TrbPtr} : ∀ {fuel : Nat} {r : Ring} {walked : Ring × Bool},
    setDeqRun (some target) start fuel r = some walked → setDeqLoop target start fuel r = walked := by
  intro fuel
  induction fuel with
  | zero =>
    intro r walked result
    simp [setDeqRun] at result
  | succ fuel ih =>
    intro r walked result
    rw [setDeqRun] at result
    rw [setDeqLoop_succ]
    simp only [Option.some.injEq] at result
    split_ifs at result ⊢ with there onto back
    · exact Option.some.inj result
    · exact Option.some.inj result
    · exact Option.some.inj result
    · exact ih result

/-- Where the walk of the completed command comes to an end, the ring is left as it says. -/
theorem updateRing_of_completion {r r' : Ring} {target : TrbPtr}
    (result : setDeqCompletion r (some target) (trbsPerSegment * r.numSegs + 1) = some r') :
    r.updateRingForSetDeqCompletion target = r' := by
  obtain ⟨walked, run, rfl⟩ := Option.map_eq_some_iff.mp result
  have loop := setDeqLoop_of_run run
  have sameSegs : (offLink r).numSegs = r.numSegs := by
    rw [offLink]
    split <;> rfl
  rw [← sameSegs] at loop
  rw [updateRingForSetDeqCompletion]
  dsimp only
  rw [← offLink, loop]
  obtain ⟨x, back⟩ := walked
  cases back with
  | false => rfl
  | true => rfl

/-- A walk that ends does so with any more fuel. -/
theorem setDeqRun_mono {queued : Option TrbPtr} {start : TrbPtr} : ∀ {fuel more : Nat} {r : Ring} {walked : Ring × Bool},
    setDeqRun queued start fuel r = some walked → fuel ≤ more → setDeqRun queued start more r = some walked := by
  intro fuel
  induction fuel with
  | zero =>
    intro more r walked result
    simp [setDeqRun] at result
  | succ fuel ih =>
    intro more r walked result enough
    obtain ⟨more, rfl⟩ := Nat.exists_eq_succ_of_ne_zero (Nat.ne_of_gt (Nat.lt_of_lt_of_le (Nat.succ_pos fuel) enough))
    rw [setDeqRun] at result ⊢
    split_ifs at result ⊢ with there onto back
    · exact result
    · exact result
    · exact result
    · exact ih result (Nat.le_of_succ_le_succ enough)

section
variable {r : Ring} {lap : List TrbPtr} {queued : Option TrbPtr} {start : TrbPtr}

/-- The ring with the walk at `p`, after it has counted `n` more TRBs. -/
def walkAt (r : Ring) (n : Int) (p : TrbPtr) : Ring := { r with numTrbsFree := r.numTrbsFree + n, dequeue := p }

theorem walkAt_dequeue (r : Ring) : walkAt r 0 r.dequeue = r := by simp [walkAt]

theorem offLink_eq (shape : Shape r lap) {p : TrbPtr} (member : p ∈ lap) (n : Int) :
    offLink (walkAt r n p) = walkAt r n (if p.idx = 63 then follow r.next p else p) := by
  have link : (walkAt r n p).lastTrb (walkAt r n p).dequeue = decide (p.idx = 63) := shape.lastTrb_eq member
  rw [offLink, link]
  by_cases last : p.idx = 63
  · simp [walkAt, last, follow]
  · simp [last]

/-- Where the walk begins. -/
theorem offLink_dequeue (shape : Shape r lap) (member : r.dequeue ∈ lap) :
    offLink r = walkAt r 0 (if r.dequeue.idx = 63 then follow r.next r.dequeue else r.dequeue) := by
  have moved := offLink_eq shape member 0
  rwa [walkAt_dequeue] at moved

/-- The loop goes from a TRB that is no link to the next one that is none, unless the queued
    pointer is one of the two or the link between them. -/
theorem setDeqRun_step (shape : Shape r lap) {p : TrbPtr} (member : p ∈ lap) (inner : p.idx ≠ 63) (notYet : queued ≠ some p)
    (notOnto : (follow r.next p).idx = 63 → queued ≠ some (follow r.next p)) (fuel : Nat) (n : Int) :
    setDeqRun queued start (fuel + 1) (walkAt r n p) =
      if skip r.next p = start then some (walkAt r (n + 1) (skip r.next p), true)
      else setDeqRun queued start fuel (walkAt r (n + 1) (skip r.next p)) := by
  have moved : counted (walkAt r n p) = walkAt r (n + 1) (follow r.next p) := by
    rw [follow, if_neg inner]
    simp [counted, walkAt, add_assoc]
  have there := shape.follow_mem member
  have link : (walkAt r (n + 1) (follow r.next p)).lastTrb (walkAt r (n + 1) (follow r.next p)).dequeue =
      decide ((follow r.next p).idx = 63) := shape.lastTrb_eq there
  have beyond : offLink (walkAt r (n + 1) (follow r.next p)) = walkAt r (n + 1) (skip r.next p) := by
    rw [offLink_eq shape there, skip]
  rw [setDeqRun, if_neg (fun same => notYet same.symm), moved, link, beyond]
  rw [if_neg (fun both => notOnto (by simpa using both.1) both.2.symm)]
  rfl

theorem skip_inner (next : Addr → Addr) (p : TrbPtr) : (skip next p).idx ≠ 63 := by
  rw [skip]
  split
  · rename_i onto
    rw [follow, if_pos onto]
    simp
  · assumption

theorem skip_mem (shape : Shape r lap) {p : TrbPtr} (member : p ∈ lap) : skip r.next p ∈ lap := by
  rw [skip]
  split
  · exact shape.follow_mem (shape.follow_mem member)
  · exact shape.follow_mem member

/-- A walk that has begun on a link, with a queued pointer that is nowhere on the ring, does not
    come to an end: it passes over every link. -/
theorem setDeqRun_forever (shape : Shape r lap) (onLink : start.idx = 63) (nowhere : ∀ t ∈ lap, queued ≠ some t) :
    ∀ (fuel : Nat) (n : Int) {p : TrbPtr}, p ∈ lap → p.idx ≠ 63 → setDeqRun queued start fuel (walkAt r n p) = none := by
  intro fuel
  induction fuel with
  | zero => exact fun _ _ _ _ => rfl
  | succ fuel ih =>
    intro n p member inner
    have onward : skip r.next p ≠ start := fun back => skip_inner r.next p (by rw [back]; exact onLink)
    rw [setDeqRun_step shape member inner (nowhere p member) (fun _ => nowhere _ (shape.follow_mem member)), if_neg onward]
    exact ih (n + 1) (skip_mem shape member) (skip_inner r.next p)

/-- The walk over a stretch of the ring without the queued pointer, and without the start if that
    is no link. -/
theorem setDeqRun_walk : ∀ {front before rest : List TrbPtr} {p t : TrbPtr} (fuel : Nat) (n : Int),
    Shape r (before ++ (front ++ t :: rest)) → (front ++ [t]).head? = some p → p.idx ≠ 63 → t.idx ≠ 63 →
    (∀ x ∈ front, queued ≠ some x) → (start.idx ≠ 63 → start ∉ (front ++ [t]).tail) →
    setDeqRun queued start (fuel + nonlinks front) (walkAt r n p) =
      setDeqRun queued start fuel (walkAt r (n + nonlinks front) t) := by
  intro front
  induction front using List.twoStepInduction with
  | nil =>
    intro before rest p t fuel n _ first _ _ _ _
    have is_p : t = p := by simpa using first
    simp [is_p]
  | singleton x =>
    intro before rest p t fuel n shape first inner ends others away
    have is_p : x = p := by simpa using first
    subst is_p
    have step : follow r.next x = t := by
      have := IsLap.next_eq (show IsLap (follow r.next) (before ++ x :: (t :: rest)) from shape.isLap)
      simpa using this.symm
    have onto : skip r.next x = t := by rw [skip, step, if_neg ends]
    have notStart : t ≠ start := by
      rintro rfl
      simp [ends] at away
    have one : nonlinks [x] = 1 := by simp [nonlinks_cons, inner]
    rw [one, setDeqRun_step shape (by simp) inner (others x (by simp)) (fun link => absurd (step ▸ link) ends), onto,
      if_neg notStart]
    rfl
  | cons_cons x y l ih ih' =>
    intro before rest p t fuel n shape first inner ends others away
    have is_p : x = p := by simpa using first
    subst is_p
    have step : follow r.next x = y := by
      have := IsLap.next_eq (show IsLap (follow r.next) (before ++ x :: (y :: l ++ t :: rest)) from shape.isLap)
      simpa using this.symm
    have notOnto : (follow r.next x).idx = 63 → queued ≠ some (follow r.next x) := by
      intro _
      rw [step]
      exact others y (by simp)
    by_cases link : y.idx = 63
    · have turned : Shape r ((before ++ [x, y]) ++ (l ++ t :: rest)) := by simpa using shape
      have beyond : (l ++ [t]).head? = some (follow r.next y) := by
        have := IsLap.next_eq (show IsLap (follow r.next) ((before ++ [x]) ++ y :: (l ++ t :: rest)) by
          simpa using shape.isLap)
        rw [← this]
        cases l <;> simp
      have onto : skip r.next x = follow r.next y := by rw [skip, step, if_pos link]
      have inner' : (follow r.next y).idx ≠ 63 := by
        rw [follow, if_pos link]
        simp
      have away' : start.idx ≠ 63 → start ∉ l ++ [t] := by
        intro plain member
        exact away plain (List.mem_cons_of_mem _ member)
      have notStart : follow r.next y ≠ start := by
        rintro rfl
        exact away' inner' (List.mem_of_mem_head? beyond)
      have count : nonlinks (x :: y :: l) = nonlinks l + 1 := by simp [nonlinks_cons, link, inner]
      rw [count, ← Nat.add_assoc, setDeqRun_step shape (by simp) inner (others x (by simp)) notOnto, onto, if_neg notStart,
        ih fuel (n + 1) turned beyond inner' ends (fun z member => others z (by simp [member]))
          (fun plain member => away' plain (List.mem_of_mem_tail member))]
      congr 2
      push_cast
      ring
    · have turned : Shape r ((before ++ [x]) ++ (y :: l ++ t :: rest)) := by simpa using shape
      have onto : skip r.next x = y := by rw [skip, step, if_neg link]
      have away' : start.idx ≠ 63 → start ∉ y :: l ++ [t] := away
      have notStart : y ≠ start := by
        rintro rfl
        exact away' link (by simp)
      have count : nonlinks (x :: y :: l) = nonlinks (y :: l) + 1 := by simp [nonlinks_cons x, inner]
      rw [count, ← Nat.add_assoc, setDeqRun_step shape (by simp) inner (others x (by simp)) notOnto, onto, if_neg notStart,
        ih' y fuel (n + 1) turned (by simp) link ends (fun z member => others z (List.mem_cons_of_mem _ member))
          (fun plain member => away' plain (List.mem_of_mem_tail member))]
      congr 2
      push_cast
      ring

/-- The last step onto the queued pointer, if that is a link. -/
theorem setDeqRun_onto (shape : Shape r lap) {p t : TrbPtr} (member : p ∈ lap) (step : follow r.next p = t) (link : t.idx = 63)
    (fuel : Nat) (n : Int) : setDeqRun (some t) start (fuel + 1) (walkAt r n p) = some (walkAt r (n + 1) t, false) := by
  have inner : p.idx ≠ 63 := by
    intro last
    rw [follow, if_pos last] at step
    simp [← step] at link
  have moved : counted (walkAt r n p) = walkAt r (n + 1) t := by
    rw [← step, follow, if_neg inner]
    simp [counted, walkAt, add_assoc]
  have there : (walkAt r (n + 1) t).lastTrb (walkAt r (n + 1) t).dequeue = decide (t.idx = 63) :=
    shape.lastTrb_eq (step ▸ shape.follow_mem member)
  have notYet : some (walkAt r n p).dequeue ≠ some t := by
    intro same
    have is_t : p = t := Option.some.inj same
    exact inner (is_t ▸ link)
  rw [setDeqRun, if_neg notYet, moved, there, if_pos ⟨by simp [link], rfl⟩]

/-- A queued pointer on the ring is found. -/
theorem setDeqRun_found (start : TrbPtr) {front before rest : List TrbPtr} {p t : TrbPtr} (n : Int)
    (shape : Shape r (before ++ (front ++ t :: rest))) (first : (front ++ [t]).head? = some p)
    (inner : front ≠ [] → p.idx ≠ 63) (away : start.idx ≠ 63 → start ∉ (front ++ [t]).tail) :
    ∃ fuel, setDeqRun (some t) start fuel (walkAt r n p) = some (walkAt r (n + nonlinks front) t, false) := by
  have distinct := shape.isLap.1
  have others : ∀ x ∈ front, some t ≠ some x := by
    rintro x member same
    cases same
    exact (List.nodup_append.mp (List.nodup_append.mp distinct).2.1).2.2 t member t (by simp) rfl
  have here : ∀ (fuel : Nat) (m : Int), setDeqRun (some t) start (fuel + 1) (walkAt r m t) = some (walkAt r m t, false) := by
    intro fuel m
    rw [setDeqRun]
    exact if_pos rfl
  cases front using List.reverseRecOn with
  | nil =>
    have is_p : t = p := by simpa using first
    refine ⟨1, ?_⟩
    rw [← is_p, here]
    simp
  | append_singleton front x =>
    by_cases link : t.idx = 63
    · -- The TRB before the link is reached first.
      have step : follow r.next x = t := by
        have := IsLap.next_eq (show IsLap (follow r.next) ((before ++ front) ++ x :: (t :: rest)) by simpa using shape.isLap)
        simpa using this.symm
      have x_inner : x.idx ≠ 63 := by
        intro last
        rw [follow, if_pos last] at step
        simp [← step] at link
      have turned : Shape r (before ++ (front ++ x :: (t :: rest))) := by simpa using shape
      have first' : (front ++ [x]).head? = some p := by
        rw [← first]
        cases front <;> simp
      refine ⟨1 + nonlinks front, ?_⟩
      rw [setDeqRun_walk 1 n turned first' (inner (by simp)) x_inner (fun y member => others y (by simp [member])) ?_,
        setDeqRun_onto shape (by simp) step link]
      · rw [nonlinks_append, nonlinks_cons, if_pos x_inner]
        push_cast
        simp [add_assoc]
      · intro plain member
        apply away plain
        cases front with
        | nil => simp at member
        | cons y front => simp at member ⊢; tauto
    · refine ⟨1 + nonlinks (front ++ [x]), ?_⟩
      rw [setDeqRun_walk 1 n shape first (inner (by simp)) link others away, here]

/-- Without the queued pointer a walk that has begun on no link comes back to where it began. -/
theorem setDeqRun_back {p : TrbPtr} (shape : Shape r lap) (first : lap.head? = some p) (inner : p.idx ≠ 63)
    (nowhere : ∀ t ∈ lap, queued ≠ some t) :
    ∃ fuel n, setDeqRun queued p fuel (walkAt r 0 p) = some (walkAt r n p, true) := by
  have distinct := shape.isLap.1
  cases lap using List.reverseRecOn with
  | nil => simp at first
  | append_singleton init y =>
    have back : follow r.next y = p := by
      have := IsLap.next_eq (show IsLap (follow r.next) (init ++ y :: []) from shape.isLap)
      rw [List.nil_append, first] at this
      exact (Option.some.inj this).symm
    have stretch : ∀ (front : List TrbPtr) (x : TrbPtr) (rest : List TrbPtr), init ++ [y] = front ++ x :: rest → x.idx ≠ 63 →
        skip r.next x = p → ∃ fuel n, setDeqRun queued p fuel (walkAt r 0 p) = some (walkAt r n p, true) := by
      intro front x rest split x_inner around
      rw [split] at shape first distinct nowhere
      have first' : (front ++ [x]).head? = some p := by
        rw [← first]
        cases front <;> simp
      have away : p ∉ (front ++ [x]).tail := by
        intro member
        cases front with
        | nil => simp at member
        | cons z front =>
          have is_z : z = p := by simpa using first'
          subst is_z
          simp at member distinct
          tauto
      refine ⟨1 + nonlinks front, 0 + nonlinks front + 1, ?_⟩
      rw [setDeqRun_walk 1 0 (show Shape r ([] ++ (front ++ x :: rest)) from shape) first' inner x_inner (fun t member => nowhere t (by simp [member])) (fun _ => away),
        setDeqRun_step shape (by simp) x_inner (nowhere x (by simp)) (fun _ => nowhere _ (shape.follow_mem (by simp))), around,
        if_pos rfl]
    by_cases link : y.idx = 63
    · cases init using List.reverseRecOn with
      | nil =>
        have is_p : y = p := by simpa using first
        exact absurd (is_p ▸ link) inner
      | append_singleton init x =>
        have step : follow r.next x = y := by
          have := IsLap.next_eq (show IsLap (follow r.next) (init ++ x :: [y]) by simpa using shape.isLap)
          simpa using this.symm
        refine stretch init x [y] (by simp) ?_ ?_
        · intro last
          rw [follow, if_pos last] at step
          simp [← step] at link
        · rw [skip, step, if_pos link, back]
    · exact stretch init y [] rfl link (by rw [skip, back, if_neg inner])

/-- What a completed command should leave behind, on a ring whose TRBs are `lap` from `dequeue`
    on: `dequeue` is at the queued pointer and the TRBs before it are free, and when the
    pointer is nowhere on the ring nothing has changed. -/
def Completes (r : Ring) (lap : List TrbPtr) (queuedDeqPtr : Option TrbPtr) (r' : Ring) : Prop :=
  (∀ t ∈ lap, queuedDeqPtr = some t →
    r' = { r with numTrbsFree := r.numTrbsFree + nonlinks (lap.takeWhile (· ≠ t)), dequeue := t }) ∧
  ((∀ t ∈ lap, queuedDeqPtr ≠ some t) → r' = r)

/-- The TRBs before the first occurrence of `t`. -/
theorem takeWhile_split {front rest : List TrbPtr} {t : TrbPtr} (distinct : (front ++ t :: rest).Nodup) :
    (front ++ t :: rest).takeWhile (· ≠ t) = front := by
  have others : ∀ x ∈ front, decide (x ≠ t) = true := by
    intro x member
    have := (List.nodup_append.mp distinct).2.2 x member t (by simp)
    simpa using this
  rw [List.takeWhile_append_of_pos others]
  simp

/-- A queued pointer on the ring is found, except when the walk begins on it and it is a link. -/
theorem setDeqCompletion_found {front rest : List TrbPtr} {t : TrbPtr} (shape : Shape r (front ++ t :: rest))
    (first : (front ++ t :: rest).head? = some r.dequeue) (moves : t = r.dequeue → r.dequeue.idx ≠ 63) :
    ∃ fuel, setDeqCompletion r (some t) fuel =
      some { r with numTrbsFree := r.numTrbsFree + nonlinks front, dequeue := t } := by
  have distinct := shape.isLap.1
  have member : r.dequeue ∈ front ++ t :: rest := List.mem_of_mem_head? first
  have start := offLink_dequeue shape member
  have first' : (front ++ [t]).head? = some r.dequeue := by
    rw [← first]
    cases front <;> simp
  have away : r.dequeue ∉ (front ++ [t]).tail := by
    cases front with
    | nil => simp
    | cons x front =>
      have is_x : x = r.dequeue := by simpa using first'
      intro inTail
      simp only [List.cons_append, List.tail_cons] at inTail
      rw [← is_x] at inTail
      apply (List.nodup_cons.mp distinct).1
      simp at inTail ⊢
      tauto
  by_cases onLink : r.dequeue.idx = 63
  · rw [if_pos onLink] at start
    cases front with
    | nil => exact absurd onLink (moves (by simpa using first'))
    | cons x front =>
      have is_x : x = r.dequeue := by simpa using first'
      have step : (front ++ [t]).head? = some (follow r.next r.dequeue) := by
        have := IsLap.next_eq (show IsLap (follow r.next) ([] ++ x :: (front ++ t :: rest)) from shape.isLap)
        rw [← is_x, ← this]
        cases front <;> simp
      have inner : (follow r.next r.dequeue).idx ≠ 63 := by
        rw [follow, if_pos onLink]
        simp
      obtain ⟨fuel, found⟩ := setDeqRun_found r.dequeue 0
        (show Shape r ([x] ++ (front ++ t :: rest)) from shape) step (fun _ => inner)
        (fun plain => absurd onLink plain)
      refine ⟨fuel, ?_⟩
      rw [setDeqCompletion, start, found]
      simp [walkAt, nonlinks_cons, is_x, onLink]
  · rw [if_neg onLink] at start
    obtain ⟨fuel, found⟩ := setDeqRun_found r.dequeue 0 (show Shape r ([] ++ (front ++ t :: rest)) from shape) first' (fun _ => onLink)
      (fun _ => away)
    refine ⟨fuel, ?_⟩
    rw [setDeqCompletion, start, found]
    simp [walkAt]

/-- A walk that begins on the queued pointer, a link, goes around the whole ring. -/
theorem setDeqCompletion_around (shape : Shape r lap) (first : lap.head? = some r.dequeue) (onLink : r.dequeue.idx = 63) :
    ∃ fuel, setDeqCompletion r (some r.dequeue) fuel = some { r with numTrbsFree := r.numTrbsFree + nonlinks lap } := by
  obtain ⟨behind, rfl⟩ := List.head?_eq_some_iff.mp first
  have start := offLink_dequeue shape (by simp)
  rw [if_pos onLink] at start
  have turned : Shape r ([] ++ (behind ++ r.dequeue :: [])) := Shape.swap (a := [r.dequeue]) (b := behind) shape
  have step : (behind ++ [r.dequeue]).head? = some (follow r.next r.dequeue) := by
    have := IsLap.next_eq (show IsLap (follow r.next) ([] ++ r.dequeue :: behind) from shape.isLap)
    rwa [List.append_nil] at this
  have inner : (follow r.next r.dequeue).idx ≠ 63 := by
    rw [follow, if_pos onLink]
    simp
  obtain ⟨fuel, found⟩ := setDeqRun_found r.dequeue 0 turned step (fun _ => inner) (fun plain => absurd onLink plain)
  refine ⟨fuel, ?_⟩
  rw [setDeqCompletion, start, found]
  simp [walkAt, nonlinks_cons, onLink]

/-- A walk that begins on a link does not end when the queued pointer is nowhere on the ring. -/
theorem setDeqCompletion_forever (shape : Shape r lap) (member : r.dequeue ∈ lap) (onLink : r.dequeue.idx = 63)
    (nowhere : ∀ t ∈ lap, queued ≠ some t) (fuel : Nat) : setDeqCompletion r queued fuel = none := by
  have start := offLink_dequeue shape member
  rw [if_pos onLink] at start
  have inner : (follow r.next r.dequeue).idx ≠ 63 := by
    rw [follow, if_pos onLink]
    simp
  rw [setDeqCompletion, start, setDeqRun_forever shape onLink nowhere fuel 0 (shape.follow_mem member) inner]
  rfl

/-- Two walks that end leave the same ring behind. -/
theorem setDeqCompletion_unique {fuel fuel' : Nat} {r₁ r₂ : Ring} (first : setDeqCompletion r queued fuel = some r₁)
    (second : setDeqCompletion r queued fuel' = some r₂) : r₁ = r₂ := by
  obtain ⟨walked, run, rfl⟩ := Option.map_eq_some_iff.mp first
  obtain ⟨walked', run', rfl⟩ := Option.map_eq_some_iff.mp second
  have same := (setDeqRun_mono run (le_max_left fuel fuel')).symm.trans (setDeqRun_mono run' (le_max_right fuel fuel'))
  rw [Option.some.inj same]

/-- The walk ends and leaves behind what it should exactly when it does not begin on a link, or
    when the queued pointer is another TRB of the ring. -/
theorem setDeqCompletion_iff (shape : Shape r lap) (first : lap.head? = some r.dequeue) (queuedDeqPtr : Option TrbPtr) :
    (∃ fuel r', setDeqCompletion r queuedDeqPtr fuel = some r' ∧ Completes r lap queuedDeqPtr r') ↔
      (r.trb r.dequeue).isLink = false ∨ ∃ t ∈ lap, queuedDeqPtr = some t ∧ t ≠ r.dequeue := by
  have member : r.dequeue ∈ lap := List.mem_of_mem_head? first
  have links := shape.links r.dequeue member
  have positive : 0 < nonlinks lap := by
    have := shape.size
    have := List.length_pos_of_mem member
    rw [shape.count]
    omega
  constructor
  · rintro ⟨fuel, r', result, completes⟩
    by_contra neither
    obtain ⟨onLink, notOther⟩ := not_or.mp neither
    rw [Bool.not_eq_false, links] at onLink
    by_cases here : queuedDeqPtr = some r.dequeue
    · -- The walk goes around the whole ring and counts all of its TRBs.
      subst here
      obtain ⟨fuel', around⟩ := setDeqCompletion_around shape first onLink
      have left := completes.1 r.dequeue member rfl
      rw [setDeqCompletion_unique result around] at left
      have free := congrArg Ring.numTrbsFree left
      obtain ⟨behind, rfl⟩ := List.head?_eq_some_iff.mp first
      simp at free
      omega
    · have nowhere : ∀ t ∈ lap, queuedDeqPtr ≠ some t := by
        intro t inLap same
        refine notOther ⟨t, inLap, same, ?_⟩
        rintro rfl
        exact here same
      rw [setDeqCompletion_forever shape member onLink nowhere] at result
      exact absurd result (by simp)
  · intro condition
    by_cases there : ∃ t ∈ lap, queuedDeqPtr = some t
    · obtain ⟨t, inLap, rfl⟩ := there
      obtain ⟨front, rest, rfl⟩ := List.append_of_mem inLap
      have moves : t = r.dequeue → r.dequeue.idx ≠ 63 := by
        rintro same last
        rcases condition with plain | ⟨t', _, is_t, other⟩
        · rw [links.mpr last] at plain
          exact absurd plain (by decide)
        · exact other (Option.some.inj is_t ▸ same)
      obtain ⟨fuel, result⟩ := setDeqCompletion_found shape first moves
      refine ⟨fuel, _, result, ?_, fun nowhere => absurd rfl (nowhere t inLap)⟩
      intro t' _ same
      rw [← Option.some.inj same, takeWhile_split shape.isLap.1]
    · have nowhere : ∀ t ∈ lap, queuedDeqPtr ≠ some t := fun t inLap same => there ⟨t, inLap, same⟩
      have inner : r.dequeue.idx ≠ 63 := by
        rcases condition with plain | ⟨t, inLap, same, _⟩
        · intro last
          rw [links.mpr last] at plain
          exact absurd plain (by decide)
        · exact absurd same (nowhere t inLap)
      have start := offLink_dequeue shape member
      rw [if_neg inner] at start
      obtain ⟨fuel, n, run⟩ := setDeqRun_back shape first inner nowhere
      refine ⟨fuel, r, ?_, fun t inLap same => absurd same (nowhere t inLap), fun _ => rfl⟩
      rw [setDeqCompletion, start, run]
      rfl

end

/-- A bulk ring on which an earlier command has left `dequeue` on the first link TRB. -/
def linkRing : Ring := { RingAccount.bulkRing with dequeue := ⟨0x1000, 63⟩ }

def linkLap : List TrbPtr := run 0x1000 63 1 ++ (run 0x1400 0 64 ++ run 0x1000 0 63)

theorem linkRing_shape : Shape linkRing linkLap :=
  ⟨by decide, by decide +kernel, by decide +kernel, by decide +kernel, by decide +kernel, by decide +kernel, by decide +kernel,
    by decide +kernel, by decide +kernel⟩

/-- A TRB of the second segment is found from there. -/
theorem setDeqCompletion_beyond :
    ∃ fuel r', setDeqCompletion linkRing (some ⟨0x1400, 5⟩) fuel = some r' ∧ Completes linkRing linkLap (some ⟨0x1400, 5⟩) r' :=
  (setDeqCompletion_iff linkRing_shape rfl (some ⟨0x1400, 5⟩)).mpr
    (.inr ⟨⟨0x1400, 5⟩, by decide +kernel, rfl, by decide⟩)

/-- With a NULL pointer the walk from there does not end, and with the link itself it ends with
    126 more free TRBs than there are. -/
theorem setDeqCompletion_stuck :
    Shape linkRing linkLap ∧ linkLap.head? = some linkRing.dequeue ∧ linkRing.numSegs = 2 ∧
      (∀ fuel, setDeqCompletion linkRing none fuel = none) ∧
      ∃ fuel r', setDeqCompletion linkRing (some linkRing.dequeue) fuel = some r' ∧
        r'.numTrbsFree = linkRing.numTrbsFree + 126 ∧ ¬Completes linkRing linkLap (some linkRing.dequeue) r' := by
  obtain ⟨fuel, around⟩ := setDeqCompletion_around linkRing_shape rfl rfl
  have grown : nonlinks linkLap = 126 := by decide +kernel
  rw [grown] at around
  refine ⟨linkRing_shape, rfl, rfl, ?_, fuel, _, around, rfl, ?_⟩
  · exact setDeqCompletion_forever linkRing_shape (by decide +kernel) rfl (fun _ _ => by simp)
  · intro completes
    have free := congrArg Ring.numTrbsFree (completes.1 linkRing.dequeue (by decide +kernel) rfl)
    revert free
    decide +kernel

end Ehub.SetDeq
