import Mathlib
import Ehub.TrbInTd

/-!
Where the controller is to go on behind a cancelled TD (`ehub_xhci_find_new_dequeue_state`).
One walk from `dequeue` on looks for two TRBs that may come in either order: the one the
controller has stopped at and the last one of the TD. The places are counted along the
lap that starts at `dequeue`, and the loop is followed by the number of the place it
has come to.
-/
namespace Ehub.DequeueState
open Ehub.Lap Ehub.Segments Ehub.Ring Ehub.RingShape Ehub.RingFifo Ehub.Cancel

/-- The loop of `ehub_xhci_find_new_dequeue_state`; nothing when it has not come to its end. -/
def findRun (r : Ring) (hwDequeue : BitVec 64) (lastTrb : TrbPtr) :
    Nat → TrbPtr → Bool → Bool → Bool → Option (Option (TrbPtr × Bool))
  | 0, _, _, _, _ => none
  | fuel + 1, newDeq, cycleFound, tdLastTrbFound, newCycleState =>
    let here := !cycleFound && trbVirtToDma newDeq == hwDequeue
    if here && tdLastTrbFound then some (some (newDeq, newCycleState))
    else
      let cycleFound := cycleFound || here
      let tdLastTrbFound := tdLastTrbFound || newDeq == lastTrb
      let newCycleState := newCycleState ^^ (cycleFound && flipsAt r newDeq)
      let newDeq := r.nextTrb newDeq
      if newDeq = r.dequeue then some none
      else if !cycleFound || !tdLastTrbFound then
        findRun r hwDequeue lastTrb fuel newDeq cycleFound tdLastTrbFound newCycleState
      else some (some (newDeq, newCycleState))

/-- Where the loop has come to its end, its result is the one that the cancelled TD gets. -/
theorem findLoop_of_run {r : Ring} {hw : BitVec 64} {last : TrbPtr} : ∀ {fuel : Nat} {p : TrbPtr} {cycleFound lastFound cycle : Bool}
    {found : Option (TrbPtr × Bool)}, findRun r hw last fuel p cycleFound lastFound cycle = some found →
    findLoop r hw last fuel p cycleFound lastFound cycle = found := by
  intro fuel
  induction fuel with
  | zero =>
    intro p cycleFound lastFound cycle found result
    simp [findRun] at result
  | succ fuel ih =>
    intro p cycleFound lastFound cycle found result
    rw [findRun] at result
    rw [findLoop]
    dsimp only at result ⊢
    generalize (!cycleFound && trbVirtToDma p == hw) = here at result ⊢
    by_cases stops : (here && lastFound) = true
    · rw [if_pos stops] at result ⊢
      exact Option.some.inj result
    rw [if_neg stops] at result ⊢
    by_cases back : r.nextTrb p = r.dequeue
    · rw [if_pos back] at result ⊢
      exact Option.some.inj result
    rw [if_neg back] at result ⊢
    by_cases goesOn : (!(cycleFound || here) || !(lastFound || p == last)) = true
    · rw [if_pos goesOn] at result ⊢
      exact ih result
    · rw [if_neg goesOn] at result ⊢
      exact Option.some.inj result

/-- `ehub_xhci_find_new_dequeue_state`: bit 0 of the controller's dequeue pointer is its cycle
    state, the other three low bits do not count. -/
def findNewDequeue (r : Ring) (lastTrb : TrbPtr) (hwDequeue : BitVec 64) (fuel : Nat) : Option (Option (TrbPtr × Bool)) :=
  findRun r (hwDequeue &&& ~~~0xf) lastTrb fuel r.dequeue false false (hwDequeue.getLsbD 0)

/-- A cancelled TD in which the controller has stopped gets the result of the search. -/
theorem findNewDequeueState_of_run {r : Ring} {td : Td} {hwDequeue : BitVec 64} {found : Option (TrbPtr × Bool)}
    (result : findNewDequeue r td.lastTrb hwDequeue (trbsPerSegment * r.numSegs + 1) = some found) (alloc : Bool)
    (queueCommand : Int) :
    findNewDequeueState r td ⟨hwDequeue &&& ~~~0xf, hwDequeue.getLsbD 0, alloc, queueCommand⟩ = found :=
  findLoop_of_run result

section
variable {r : Ring} {lap : List TrbPtr} {hw : BitVec 64} {last : TrbPtr}

theorem nextTrb_getElem (shape : Shape r lap) {k : Nat} (inside : k + 1 < lap.length) : r.nextTrb lap[k] = lap[k + 1] := by
  rw [shape.nextTrb_eq (List.getElem_mem _), shape.isLap.next_getElem inside]

theorem nextTrb_last (shape : Shape r lap) (first : lap.head? = some r.dequeue) {k : Nat} (inside : k < lap.length)
    (end_eq : lap.length = k + 1) : r.nextTrb lap[k] = r.dequeue := by
  rw [shape.nextTrb_eq (List.getElem_mem _), shape.isLap.next_last first inside end_eq]

/-- Only the first place is `dequeue`. -/
theorem getElem_eq_dequeue_iff (shape : Shape r lap) (first : lap.head? = some r.dequeue) {k : Nat} (inside : k < lap.length) :
    lap[k] = r.dequeue ↔ k = 0 := by
  have positive : 0 < lap.length := by omega
  have start : lap[0] = r.dequeue := by
    rw [List.head?_eq_getElem?, List.getElem?_eq_getElem positive] at first
    exact Option.some.inj first
  rw [← start]
  exact shape.isLap.1.getElem_inj_iff

/-- The loop from place `k` on. The controller stands at place `i`, or nowhere on the ring when
    `i` is beyond it, and the TD ends at place `j`: what has been found by then is what lies
    before `k`. -/
theorem findRun_at (shape : Shape r lap) (first : lap.head? = some r.dequeue) {i j : Nat} (room : j + 1 < lap.length)
    (hwAt : ∀ k, (inside : k < lap.length) → (trbVirtToDma lap[k] = hw ↔ k = i))
    (lastAt : ∀ k, (inside : k < lap.length) → (lap[k] = last ↔ k = j)) (c : Bool) :
    ∀ {fuel k : Nat} (inside : k < lap.length), lap.length ≤ k + fuel → ¬(i < k ∧ j < k) →
      findRun r hw last fuel lap[k] (decide (i < k)) (decide (j < k)) (phase (flipsAt r) c ((lap.take k).drop i)) =
        some (if i < lap.length then
          lap[max i (j + 1)]?.map fun t => (t, phase (flipsAt r) c ((lap.take (max i (j + 1))).drop i)) else none) := by
  intro fuel
  induction fuel with
  | zero =>
    intro k inside enough _
    omega
  | succ fuel ih =>
    intro k inside enough searching
    have test : (trbVirtToDma lap[k] == hw) = decide (k = i) := by
      rw [Bool.eq_iff_iff]
      simp [hwAt k inside]
    have isLast : (lap[k] == last) = decide (k = j) := by
      rw [Bool.eq_iff_iff]
      simp [lastAt k inside]
    have here : (!decide (i < k) && decide (k = i)) = decide (k = i) := by
      by_cases at_i : k = i
      · simp [at_i]
      · simp [at_i]
    have cycleFound : (decide (i < k) || decide (k = i)) = decide (i ≤ k) := by
      rw [Bool.eq_iff_iff]
      simp only [Bool.or_eq_true, decide_eq_true_eq]
      omega
    have lastFound : (decide (j < k) || decide (k = j)) = decide (j ≤ k) := by
      rw [Bool.eq_iff_iff]
      simp only [Bool.or_eq_true, decide_eq_true_eq]
      omega
    rw [findRun]
    dsimp only
    rw [test, isLast, here, cycleFound, lastFound, ← phase_upTo c lap inside]
    by_cases stops : k = i ∧ j < k
    · obtain ⟨rfl, after⟩ := stops
      have place : max k (j + 1) = k := by omega
      rw [place, if_pos (by simpa using after), if_pos inside, List.getElem?_eq_getElem inside]
      rfl
    rw [if_neg (by simpa using stops)]
    by_cases ends : lap.length = k + 1
    · rw [if_pos (nextTrb_last shape first inside ends), if_neg (by omega)]
    have further : k + 1 < lap.length := by omega
    have notBack : lap[k + 1] ≠ r.dequeue := fun back =>
      absurd ((getElem_eq_dequeue_iff shape first further).mp back) (Nat.succ_ne_zero k)
    rw [nextTrb_getElem shape further, if_neg notBack]
    by_cases both : i ≤ k ∧ j ≤ k
    · -- The last of the two is found here, so it is the end of the TD.
      have place : max i (j + 1) = k + 1 := by omega
      rw [if_neg (by simp [both]), place, if_pos (by omega), List.getElem?_eq_getElem further]
      rfl
    · rw [if_pos (by simpa [or_iff_not_imp_left] using both)]
      have found := ih further (by omega) (by omega)
      simpa only [Nat.lt_succ_iff] using found

/-- The walk from `dequeue` on. -/
theorem findNewDequeue_at (shape : Shape r lap) (first : lap.head? = some r.dequeue) {i j : Nat} (room : j + 1 < lap.length)
    {hwDequeue : BitVec 64} (hwAt : ∀ k, (inside : k < lap.length) → (trbVirtToDma lap[k] = hwDequeue &&& ~~~0xf ↔ k = i))
    (lastAt : lap[j]? = some last) {fuel : Nat} (enough : 64 * r.numSegs ≤ fuel) :
    findNewDequeue r last hwDequeue fuel =
      some (if i < lap.length then lap[max i (j + 1)]?.map fun t =>
        (t, phase (flipsAt r) (hwDequeue.getLsbD 0) ((lap.take (max i (j + 1))).drop i)) else none) := by
  obtain ⟨_, is_last⟩ := List.getElem?_eq_some_iff.mp lastAt
  have positive : 0 < lap.length := by omega
  have start : lap[0] = r.dequeue := (getElem_eq_dequeue_iff shape first positive).mpr rfl
  have lastOnly : ∀ k, (inside : k < lap.length) → (lap[k] = last ↔ k = j) := by
    intro k inside
    rw [← is_last]
    exact shape.isLap.1.getElem_inj_iff
  have enough' : lap.length ≤ 0 + fuel := by
    have := shape.size
    omega
  have found := findRun_at shape first room hwAt lastOnly (hwDequeue.getLsbD 0) positive enough' (by omega)
  rw [start, decide_eq_false (Nat.not_lt_zero i), decide_eq_false (Nat.not_lt_zero j), List.take_zero, List.drop_nil,
    phase_nil] at found
  exact found

/-- Two TRBs of aligned segments have different device addresses. -/
theorem trbVirtToDma_inj {p q : TrbPtr} (p_aligned : p.seg.toNat % 1024 = 0) (q_aligned : q.seg.toNat % 1024 = 0)
    (p_index : p.idx < 64) (q_index : q.idx < 64) (same : trbVirtToDma p = trbVirtToDma q) : p = q := by
  have p_below := p.seg.isLt
  have q_below := q.seg.isLt
  have addresses := congrArg BitVec.toNat same
  rw [TrbInTd.trbVirtToDma_toNat (by omega) p_index, TrbInTd.trbVirtToDma_toNat (by omega) q_index] at addresses
  have seg : p.seg = q.seg := BitVec.eq_of_toNat_eq (by omega)
  have idx : p.idx = q.idx := by omega
  cases p
  cases q
  simp_all

/-- The search gives the later of the controller's TRB and the one behind the TD, with the
    cycle state that the controller has there, and nothing when the controller's pointer is
    no TRB of the ring. -/
theorem findNewDequeue_spec (shape : Shape r lap) (first : lap.head? = some r.dequeue)
    (aligned : ∀ p ∈ lap, p.seg.toNat % 1024 = 0) {j e : Nat} (lastAt : lap[j]? = some last)
    (enqueueAt : lap[e]? = some r.enqueue) (between : j < e) (hwDequeue : BitVec 64) {fuel : Nat}
    (enough : 64 * r.numSegs ≤ fuel) :
    (∀ i p, lap[i]? = some p → trbVirtToDma p = hwDequeue &&& ~~~0xf →
      ∃ t, lap[max i (j + 1)]? = some t ∧ findNewDequeue r last hwDequeue fuel =
        some (some (t, phase (flipsAt r) (hwDequeue.getLsbD 0) ((lap.take (max i (j + 1))).drop i)))) ∧
    ((∀ p ∈ lap, trbVirtToDma p ≠ hwDequeue &&& ~~~0xf) → findNewDequeue r last hwDequeue fuel = some none) := by
  have room : j + 1 < lap.length := by
    have := (List.getElem?_eq_some_iff.mp enqueueAt).1
    omega
  constructor
  · intro i p here is_hw
    obtain ⟨inside, is_p⟩ := List.getElem?_eq_some_iff.mp here
    have hwAt : ∀ k, (inside : k < lap.length) → (trbVirtToDma lap[k] = hwDequeue &&& ~~~0xf ↔ k = i) := by
      intro k below
      have place : lap[k] = lap[i] ↔ k = i := shape.isLap.1.getElem_inj_iff
      rw [← place, is_p, ← is_hw]
      constructor
      · intro same
        exact trbVirtToDma_inj (aligned _ (List.getElem_mem _)) (aligned _ (List.mem_of_getElem? here))
          (shape.inside _ (List.getElem_mem _)) (shape.inside _ (List.mem_of_getElem? here)) same
      · exact congrArg trbVirtToDma
    have further : max i (j + 1) < lap.length := by omega
    refine ⟨lap[max i (j + 1)], List.getElem?_eq_getElem further, ?_⟩
    rw [findNewDequeue_at shape first room hwAt lastAt enough, if_pos inside, List.getElem?_eq_getElem further]
    rfl
  · intro nowhere
    have hwAt : ∀ k, (inside : k < lap.length) → (trbVirtToDma lap[k] = hwDequeue &&& ~~~0xf ↔ k = lap.length) :=
      fun k inside => ⟨fun same => absurd same (nowhere _ (List.getElem_mem _)), fun same => absurd same inside.ne⟩
    rw [findNewDequeue_at shape first room hwAt lastAt enough, if_neg (Nat.lt_irrefl _)]

end

/-- The bulk ring with a TD of two TRBs that goes around the end of the ring. -/
def aroundRing : Ring :=
  { RingAccount.bulkRing with dequeue := ⟨0x1400, 62⟩, enqueue := ⟨0x1000, 1⟩ }

def aroundLap : List TrbPtr := run 0x1400 62 2 ++ (run 0x1000 0 64 ++ run 0x1400 0 62)

theorem aroundRing_shape : Shape aroundRing aroundLap :=
  ⟨by decide, by decide +kernel, by decide +kernel, by decide +kernel, by decide +kernel, by decide +kernel, by decide +kernel,
    by decide +kernel, by decide +kernel⟩

/-- The controller has stopped at the first TRB, with cycle state 1. Behind the TD, and so behind
    the link that toggles, it has cycle state 0. -/
theorem findNewDequeue_around :
    findNewDequeue aroundRing ⟨0x1000, 0⟩ 0x17e1 128 = some (some (⟨0x1000, 1⟩, false)) := by
  have ends : aroundLap[2]? = some ⟨0x1000, 0⟩ := rfl
  have enqueue : aroundLap[3]? = some aroundRing.enqueue := rfl
  have enough : 64 * aroundRing.numSegs ≤ 128 := by decide
  obtain ⟨found, _⟩ := findNewDequeue_spec aroundRing_shape rfl (by decide +kernel) ends enqueue (by decide) 0x17e1 enough
  obtain ⟨t, place, result⟩ := found 0 ⟨0x1400, 62⟩ rfl (by decide)
  have is_t : t = ⟨0x1000, 1⟩ := (Option.some.inj place).symm
  rw [result, is_t]
  decide +kernel

end Ehub.DequeueState
