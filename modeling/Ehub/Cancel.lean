import Mathlib
import Ehub.Td

/-!
Cancelled TDs (`xhci_handle_cmd_stop_ep`). When the controller has stopped the endpoint,
the driver takes the cancelled TDs out of the ring: a TD in which the controller has
stopped is skipped by moving the controller's dequeue pointer behind it with a Set TR
Dequeue Pointer command, every other one is turned into no-ops. Then the URBs are given
back, and nothing of them may be left that the controller would execute.
-/
namespace Ehub.Cancel
open Ehub.Lap Ehub.Segments Ehub.Ring Ehub.RingShape Ehub.RingAccount Ehub.RingFifo

/-- `ehub_xhci_trb_virt_to_dma`. -/
def trbVirtToDma (p : TrbPtr) : BitVec 64 := p.seg + BitVec.ofNat 64 (16 * p.idx)

/-- `struct xhci_virt_ep` with its ring, as far as it matters for stopping it. -/
structure Endpoint where
  ring : Ring
  tdList : List Td
  cancelledTdList : List Td
  stoppedTd : Option Td
  haltPending : Bool
  setDeqPending : Bool
  halted : Bool
  queuedDeqPtr : Option TrbPtr

/-- What the completion of the Stop Endpoint command finds: the controller's dequeue
    pointer and cycle state in the endpoint context, and the outcomes of
    `ehub_xhci_alloc_command` and of `queue_command`. -/
structure Env where
  hwDequeue : BitVec 64
  hwCycle : Bool
  alloc : Bool
  queueCommand : Int

/-- The loop of `ehub_xhci_find_new_dequeue_state`; nothing when the search wraps. -/
def findLoop (r : Ring) (hwDequeue : BitVec 64) (lastTrb : TrbPtr) :
    Nat → TrbPtr → Bool → Bool → Bool → Option (TrbPtr × Bool)
  | 0, _, _, _, _ => none
  | fuel + 1, newDeq, cycleFound, tdLastTrbFound, newCycleState =>
    let here := !cycleFound && trbVirtToDma newDeq == hwDequeue
    if here && tdLastTrbFound then some (newDeq, newCycleState)
    else
      let cycleFound := cycleFound || here
      let tdLastTrbFound := tdLastTrbFound || newDeq == lastTrb
      let newCycleState := newCycleState ^^ (cycleFound && flipsAt r newDeq)
      let newDeq := r.nextTrb newDeq
      if newDeq = r.dequeue then none
      else if !cycleFound || !tdLastTrbFound then
        findLoop r hwDequeue lastTrb fuel newDeq cycleFound tdLastTrbFound newCycleState
      else some (newDeq, newCycleState)

/-- `ehub_xhci_find_new_dequeue_state`. -/
def findNewDequeueState (r : Ring) (td : Td) (env : Env) : Option (TrbPtr × Bool) :=
  findLoop r env.hwDequeue td.lastTrb (trbsPerSegment * r.numSegs + 1) r.dequeue false false env.hwCycle

/-- `ehub_xhci_queue_new_dequeue_state`, with the command that it queues, if any. -/
def queueNewDequeueState (ep : Endpoint) (deqState : TrbPtr × Bool) (env : Env) : Endpoint × Option (TrbPtr × Bool) :=
  if trbVirtToDma deqState.1 = 0 then (ep, none)
  else if ep.setDeqPending then (ep, none)
  else if !env.alloc then (ep, none)
  else
    let ep := { ep with queuedDeqPtr := some deqState.1 }
    if env.queueCommand < 0 then (ep, none) else ({ ep with setDeqPending := true }, some deqState)

/-- `ring_doorbell_for_active_rings`, on an endpoint without streams. -/
def ringDoorbellForActiveRings (ep : Endpoint) : Bool :=
  !ep.tdList.isEmpty && !ep.haltPending && !ep.setDeqPending && !ep.halted

/-- The loop of `xhci_handle_cmd_stop_ep` over the cancelled TDs. -/
def fixUpRing (env : Env) : List Td → Endpoint → Option (TrbPtr × Bool) → Endpoint × Option (TrbPtr × Bool)
  | [], ep, deqState => (ep, deqState)
  | td :: tds, ep, deqState =>
    if ep.stoppedTd = some td then
      fixUpRing env tds { ep with tdList := ep.tdList.erase td } (findNewDequeueState ep.ring td env)
    else
      fixUpRing env tds
        { ep with ring := ep.ring.tdToNoop td.firstTrb td.lastTrb false, tdList := ep.tdList.erase td } deqState

/-- What `xhci_handle_cmd_stop_ep` leaves behind: the endpoint, the command that moves the
    controller's dequeue pointer, whether the doorbell was rung, and the TDs whose URBs
    it accounts for. -/
structure Outcome where
  ep : Endpoint
  setDeq : Option (TrbPtr × Bool)
  doorbell : Bool
  finished : List Td

/-- `xhci_handle_cmd_stop_ep`. -/
def handleCmdStopEp (ep : Endpoint) (env : Env) : Outcome :=
  if ep.cancelledTdList.isEmpty then
    let ep := { ep with haltPending := false, stoppedTd := none }
    ⟨ep, none, ringDoorbellForActiveRings ep, []⟩
  else
    let finished := ep.cancelledTdList
    let (ep, deqState) := fixUpRing env finished ep none
    let ep := { ep with haltPending := false }
    match deqState with
    | some deqState =>
      let (ep, setDeq) := queueNewDequeueState ep deqState env
      ⟨{ ep with stoppedTd := none, cancelledTdList := [] }, setDeq, false, finished⟩
    | none => ⟨{ ep with stoppedTd := none, cancelledTdList := [] }, none, ringDoorbellForActiveRings ep, finished⟩

/-- The TRBs of a TD. -/
def trbsOf (r : Ring) (td : Td) : List TrbPtr :=
  walk r.nextTrb td.lastTrb (trbsPerSegment * r.numSegs) td.firstTrb ++ [td.lastTrb]

/-- Where the controller goes on: where it stopped, unless a command moves it. -/
def resume (env : Env) (h : TrbPtr) (setDeq : Option (TrbPtr × Bool)) : TrbPtr × Bool := setDeq.getD (h, env.hwCycle)

/-- What the controller executes from there. -/
def executed (r : Ring) (fuel : Nat) (start : TrbPtr × Bool) : Option (List TrbPtr × TrbPtr) :=
  consume (followLink r) (cycleAt r) (flipsAt r) fuel start.1 start.2

/-! ### Turning TDs into no-ops -/

section
variable {r x : Ring} {td : Td} {a b lap idle : List TrbPtr}

/-- The TRBs of a TD are those between its ends, on every ring of the same shape. -/
theorem trbsOf_congr (shape : Shape r (a ++ (trbsOf r td ++ b))) (shape' : Shape x (a ++ (trbsOf r td ++ b))) :
    trbsOf x td = trbsOf r td := by
  have size := shape'.size
  set mid := walk r.nextTrb td.lastTrb (trbsPerSegment * r.numSegs) td.firstTrb with is_mid
  have stretch : trbsOf r td = mid ++ [td.lastTrb] := rfl
  rw [stretch] at shape shape' size ⊢
  have turned : Shape x ((mid ++ td.lastTrb :: b) ++ a) := by
    have := Shape.swap (show Shape x (a ++ ((mid ++ [td.lastTrb]) ++ b)) from shape')
    simpa using this
  have isLap : IsLap x.nextTrb (mid ++ td.lastTrb :: (b ++ a)) := by
    have := turned.isLap.congr fun p member => turned.nextTrb_eq member
    simpa using this
  simp only [List.length_append, List.length_cons, List.length_nil] at size
  rw [trbsOf]
  congr 1
  refine walk_eq isLap ?_ (by simp only [trbsPerSegment]; omega)
  have positive : 0 < r.numSegs := by
    have := shape.size
    simp only [List.length_append, List.length_cons, List.length_nil] at this
    omega
  obtain ⟨n, is_n⟩ : ∃ n, trbsPerSegment * r.numSegs = n + 1 := ⟨trbsPerSegment * r.numSegs - 1, by
    simp only [trbsPerSegment]; omega⟩
  by_cases single : td.firstTrb = td.lastTrb
  · simp [is_mid, is_n, walk, single]
  · simp [is_mid, is_n, walk, single]

theorem trbsOf_head (shape : Shape r (a ++ (trbsOf r td ++ b))) : (trbsOf r td).head? = some td.firstTrb := by
  have positive : 0 < r.numSegs := by
    have := shape.size
    simp only [trbsOf, List.length_append, List.length_cons, List.length_nil] at this
    omega
  obtain ⟨n, is_n⟩ : ∃ n, trbsPerSegment * r.numSegs = n + 1 := ⟨trbsPerSegment * r.numSegs - 1, by
    simp only [trbsPerSegment]; omega⟩
  by_cases single : td.firstTrb = td.lastTrb
  · simp [trbsOf, is_n, walk, single]
  · simp [trbsOf, is_n, walk, single]

/-- `td_to_noop` on a TD that lies on the ring. -/
theorem noop_td (shape : Shape r (a ++ (trbsOf r td ++ b))) :
    ∃ trbs, r.tdToNoop td.firstTrb td.lastTrb false = { r with trbs := trbs } ∧
      Shape (r.tdToNoop td.firstTrb td.lastTrb false) (a ++ (trbsOf r td ++ b)) ∧
      (∀ p, cycleAt (r.tdToNoop td.firstTrb td.lastTrb false) p = cycleAt r p) ∧
      (∀ p ∉ trbsOf r td, (r.tdToNoop td.firstTrb td.lastTrb false).trb p = r.trb p) ∧
      (∀ p, (r.trb p).isLink = false → p ∈ trbsOf r td ∨ (r.trb p).isNoop = true →
        ((r.tdToNoop td.firstTrb td.lastTrb false).trb p).isNoop = true) := by
  have head := trbsOf_head shape
  set mid := walk r.nextTrb td.lastTrb (trbsPerSegment * r.numSegs) td.firstTrb with is_mid
  have stretch : trbsOf r td = mid ++ [td.lastTrb] := rfl
  rw [stretch] at shape head ⊢
  have shape1 : Shape r (a ++ (mid ++ td.lastTrb :: b)) := by simpa using shape
  have start : (mid ++ td.lastTrb :: b).head? = some td.firstTrb := by
    rw [List.head?_append] at head ⊢
    exact head
  obtain ⟨trbs, eq, shape', read⟩ := tdToNoop_eq false shape1 start
  refine ⟨trbs, eq, by simpa using shape', ?_, ?_, ?_⟩
  · intro p
    rw [cycleAt, cycleAt, read]
    split_ifs
    · rw [cycle_noopTrb]
      simp
    · rfl
  · intro p outside
    rw [read, if_neg outside]
  · intro p plain inside
    rw [read]
    split_ifs with member
    · simp [noopTrb, plain]
    · exact inside.resolve_left member

end

/-! ### The endpoint when the controller has stopped -/

/-- The TDs lie on the ring one after the other, with work in each of them, and what the
    controller has not passed yet is in a TD or a no-op; if it has stopped in a TD, its
    dequeue pointer `h` is there. Device addresses of TRBs are distinct and not 0. -/
structure Stopped (ep : Endpoint) (env : Env) (passed ahead idle : List TrbPtr) (c : Bool) (h : TrbPtr) : Prop where
  queue : Queue ep.ring (passed ++ ahead) idle
  phased : Phased ep.ring (passed ++ ahead) idle c
  position : (ahead ++ idle).head? = some h
  hwDequeue : env.hwDequeue = trbVirtToDma h
  hwCycle : env.hwCycle = phase (flipsAt ep.ring) c passed
  mapped : ∀ p ∈ passed ++ ahead ++ idle, trbVirtToDma p ≠ 0
  distinct : ∀ p ∈ passed ++ ahead ++ idle, ∀ p' ∈ passed ++ ahead ++ idle, trbVirtToDma p = trbVirtToDma p' → p = p'
  onRing : ∀ td ∈ ep.tdList, ∃ a b, passed ++ ahead = a ++ (trbsOf ep.ring td ++ b)
  apart : ep.tdList.Pairwise fun td td' => ∀ p ∈ trbsOf ep.ring td, p ∉ trbsOf ep.ring td'
  work : ∀ td ∈ ep.tdList, td.lastTrb.idx ≠ 63 ∧ (ep.ring.trb td.lastTrb).isNoop = false
  covered : ∀ p ∈ ahead, p.idx ≠ 63 → (ep.ring.trb p).isNoop = true ∨ ∃ td ∈ ep.tdList, p ∈ trbsOf ep.ring td
  cancelled : ∀ td ∈ ep.cancelledTdList, td ∈ ep.tdList
  stopped : ∀ td, ep.stoppedTd = some td → td ∈ ep.tdList ∧ h ∈ trbsOf ep.ring td

/-- What is left of the cancelled TDs is out of the controller's reach: from where it goes
    on it executes links, no-ops and the TRBs of the TDs that are still on `td_list`,
    these all but for what it had executed before, and of a cancelled TD nothing but
    links and no-ops. -/
structure Unreachable (ep : Endpoint) (env : Env) (h : TrbPtr) (outcome : Outcome) : Prop where
  runs : ∀ fuel, 64 * ep.ring.numSegs ≤ fuel → ∃ taken, executed outcome.ep.ring fuel (resume env h outcome.setDeq) =
      some (taken, outcome.ep.ring.enqueue) ∧
    (∀ p ∈ taken, (outcome.ep.ring.trb p).isLink = true ∨ (outcome.ep.ring.trb p).isNoop = true ∨
      ∃ td ∈ outcome.ep.tdList, p ∈ trbsOf outcome.ep.ring td) ∧
    (∀ td ∈ outcome.ep.tdList, ∀ p ∈ trbsOf outcome.ep.ring td, p ∈ taken ∨ p ∈ span ep.ring h) ∧
    (∀ td ∈ ep.cancelledTdList, ∀ p ∈ trbsOf outcome.ep.ring td, p ∈ taken →
      (outcome.ep.ring.trb p).isLink = true ∨ (outcome.ep.ring.trb p).isNoop = true)

/-- From any place among the busy TRBs a consumer with the phase of that place executes
    all that follow, on every ring with the same shape and the same cycle bits. -/
theorem executed_eq {r x : Ring} {front back idle : List TrbPtr} {c : Bool} {p : TrbPtr}
    (queue : Queue r (front ++ back) idle) (phased : Phased r (front ++ back) idle c) (shape : Shape x (front ++ back ++ idle))
    (cycles : ∀ p, cycleAt x p = cycleAt r p) (lastSeg : x.lastSeg = r.lastSeg)
    (start : (back ++ idle).head? = some p) {fuel : Nat} (enough : 64 * x.numSegs ≤ fuel) :
    executed x fuel (p, phase (flipsAt r) c front) = some (back, r.enqueue) := by
  obtain ⟨rest, is_idle⟩ := queue.idle_eq
  have flips : ∀ p ∈ front ++ back ++ idle, flipsAt x p = flipsAt r p := by
    intro p member
    rw [Bool.eq_iff_iff, flipsAt_iff shape member, flipsAt_iff queue.shape member, lastSeg]
  have inBack : ∀ p ∈ back, flipsAt x p = flipsAt r p := fun p member => flips p (by simp [member])
  have turned : Shape x (back ++ idle ++ front) := by
    rw [List.append_assoc] at shape
    exact shape.swap
  rw [is_idle] at turned start
  have isLap : IsLap (followLink x) (back ++ r.enqueue :: (rest ++ front)) := by
    have := turned.isLap.congr fun p member => followLink_eq turned member
    simpa using this
  have owned := ((inPhase_append c front back).mp phased.owned).2
  have stops : cycleAt x r.enqueue = !phase (flipsAt x) (phase (flipsAt r) c front) back := by
    have free := phased.free
    rw [is_idle] at free
    rw [phase_congr _ inBack, ← phase_append, phased.cycleState, cycles]
    exact free.1
  have size := shape.size
  rw [is_idle] at size
  simp only [List.length_append, List.length_cons] at size
  refine consume_eq isLap ?_ (owned.congr (fun p _ => cycles p) inBack) stops (by omega)
  cases back with
  | nil => simpa using start
  | cons y back => simpa using start

/-! ### The search for the new dequeue pointer -/

section
variable {x : Ring} {hw : BitVec 64} {last : TrbPtr}

/-- Before the controller's position nothing is found. -/
theorem findLoop_skip : ∀ {pre front rest : List TrbPtr} {p h : TrbPtr} {fuel : Nat} {cycle : Bool},
    Shape x (front ++ (pre ++ h :: rest)) → (pre ++ h :: rest).head? = some p → x.dequeue ∉ (pre ++ h :: rest).tail →
    (∀ y ∈ pre, trbVirtToDma y ≠ hw ∧ y ≠ last) →
    findLoop x hw last (fuel + pre.length) p false false cycle = findLoop x hw last fuel h false false cycle := by
  intro pre
  induction pre with
  | nil =>
    intro front rest p h fuel cycle _ start _ _
    have is_p : h = p := by simpa using start
    rw [is_p]
    rfl
  | cons y pre ih =>
    intro front rest p h fuel cycle shape start notBack others
    have is_y : y = p := by simpa using start
    subst is_y
    obtain ⟨notHere, notLast⟩ := others y (by simp)
    have step : (pre ++ h :: rest).head? = some (x.nextTrb y) := by
      rw [shape.nextTrb_eq (by simp)]
      have := shape.isLap.next_eq
      cases pre <;> simpa using this
    have goesOn : x.nextTrb y ≠ x.dequeue := by
      intro same
      rw [same] at step
      exact notBack (List.mem_of_mem_head? step)
    have moved : Shape x ((front ++ [y]) ++ (pre ++ h :: rest)) := by simpa using shape
    rw [List.length_cons, ← Nat.add_assoc, findLoop]
    simp only [beq_eq_false_iff_ne.mpr notHere, beq_eq_false_iff_ne.mpr notLast, Bool.not_false, Bool.and_false, Bool.and_self,
      Bool.or_self, Bool.false_and, Bool.xor_false, Bool.false_eq_true, if_false, if_true, if_neg goesOn]
    refine ih moved step ?_ (fun y member => others y (by simp [member]))
    intro member
    exact notBack (List.mem_of_mem_tail member)

/-- From there the cycle state is followed up to the last TRB of the TD. -/
theorem findLoop_last : ∀ {mid front rest : List TrbPtr} {p t : TrbPtr} {fuel : Nat} {cycle : Bool},
    Shape x (front ++ (mid ++ last :: t :: rest)) → (mid ++ [last]).head? = some p →
    x.dequeue ∉ (mid ++ last :: t :: rest).tail → mid.length < fuel →
    findLoop x hw last fuel p true false cycle = some (t, phase (flipsAt x) cycle (mid ++ [last])) := by
  intro mid
  induction mid with
  | nil =>
    intro front rest p t fuel cycle shape start notBack room
    obtain ⟨n, rfl⟩ : ∃ n, fuel = n + 1 := ⟨fuel - 1, by simp at room; omega⟩
    have is_p : last = p := by simpa using start
    subst is_p
    have step : x.nextTrb last = t := by
      rw [shape.nextTrb_eq (by simp)]
      have := shape.isLap.next_eq
      simpa using this.symm
    have goesOn : ¬t = x.dequeue := by
      intro same
      rw [← same] at notBack
      simp at notBack
    rw [findLoop]
    simp [step, goesOn]
  | cons y mid ih =>
    intro front rest p t fuel cycle shape start notBack room
    obtain ⟨n, rfl⟩ : ∃ n, fuel = n + 1 := ⟨fuel - 1, by simp at room; omega⟩
    have is_p : y = p := by simpa using start
    subst is_p
    have notLast : y ≠ last := by
      rintro rfl
      have distinct := (List.nodup_append.mp shape.isLap.1).2.1
      simp at distinct
    have step : (mid ++ last :: t :: rest).head? = some (x.nextTrb y) := by
      rw [shape.nextTrb_eq (by simp)]
      have := shape.isLap.next_eq
      cases mid <;> simpa using this
    have goesOn : x.nextTrb y ≠ x.dequeue := by
      intro same
      rw [same] at step
      exact notBack (List.mem_of_mem_head? step)
    have moved : Shape x ((front ++ [y]) ++ (mid ++ last :: t :: rest)) := by simpa using shape
    have start' : (mid ++ [last]).head? = some (x.nextTrb y) := by
      rw [List.head?_append] at step ⊢
      exact step
    have further : findLoop x hw last n (x.nextTrb y) true false (cycle ^^ flipsAt x y) = _ := ih moved start'
      (fun member => notBack (List.mem_of_mem_tail member)) (by simpa using room)
    rw [findLoop]
    simp only [Bool.not_true, Bool.false_and, Bool.false_eq_true, if_false, Bool.true_or, Bool.true_and,
      beq_eq_false_iff_ne.mpr notLast, Bool.or_self, Bool.not_false, Bool.or_true, if_true, if_neg goesOn, further]
    rfl

theorem findLoop_here {p : TrbPtr} (here : trbVirtToDma p = hw) (fuel : Nat) (cycle : Bool) :
    findLoop x hw last (fuel + 1) p false false cycle = findLoop x hw last (fuel + 1) p true false cycle := by
  rw [findLoop, findLoop]
  simp [here]

end

/-! ### The cancelled TDs, one after the other -/

/-- A ring that differs from `r` only in what the TRBs say besides their cycle bits. -/
structure SameRing (r x : Ring) (lap : List TrbPtr) : Prop where
  shape : Shape x lap
  cycles : ∀ p, cycleAt x p = cycleAt r p
  eq : ∃ trbs, x = { r with trbs := trbs }

section
variable {ep : Endpoint} {env : Env} {passed ahead idle : List TrbPtr} {c : Bool} {h : TrbPtr}

theorem Stopped.trbsOf_eq (stopped : Stopped ep env passed ahead idle c h) {x : Ring}
    (same : SameRing ep.ring x (passed ++ ahead ++ idle)) {td : Td} (member : td ∈ ep.tdList) :
    trbsOf x td = trbsOf ep.ring td := by
  obtain ⟨a, b, split⟩ := stopped.onRing td member
  have assoc : passed ++ ahead ++ idle = a ++ (trbsOf ep.ring td ++ (b ++ idle)) := by simp [split]
  have shape := stopped.queue.shape
  have shape' := same.shape
  rw [assoc] at shape shape'
  exact trbsOf_congr shape shape'

/-- Where the controller has stopped in a TD, the search finds the TRB behind it. -/
theorem Stopped.find (stopped : Stopped ep env passed ahead idle c h) {td : Td} (isStopped : ep.stoppedTd = some td) :
    ∃ rest back t, ahead = rest ++ back ∧ (back ++ idle).head? = some t ∧ (∀ p ∈ rest, p ∈ trbsOf ep.ring td) ∧
      (∀ p ∈ trbsOf ep.ring td, p ∉ back) ∧ td.lastTrb ∈ ahead ∧
      ∀ x, SameRing ep.ring x (passed ++ ahead ++ idle) →
        findNewDequeueState x td env = some (t, phase (flipsAt ep.ring) c (passed ++ rest)) := by
  obtain ⟨member, inTd⟩ := stopped.stopped td isStopped
  obtain ⟨a, back, split⟩ := stopped.onRing td member
  obtain ⟨u, v, is_td⟩ := List.append_of_mem inTd
  have distinct := stopped.queue.shape.isLap.1
  -- The controller's position splits the TD where it splits the ring.
  obtain ⟨before, after⟩ : passed = a ++ u ∧ ahead = h :: (v ++ back) := by
    have lap := split
    rw [is_td] at lap
    have nodup := (List.nodup_append.mp distinct).1
    cases ahead with
    | nil =>
      exfalso
      obtain ⟨rest, is_idle⟩ := List.head?_eq_some_iff.mp stopped.position
      have inBusy : h ∈ passed ++ [] := by rw [lap]; simp
      have inIdle : h ∈ idle := by
        rw [List.nil_append] at is_idle
        simp [is_idle]
      exact (List.nodup_append.mp distinct).2.2 _ inBusy _ inIdle rfl
    | cons y ahead =>
      have is_y : y = h := by simpa using stopped.position
      subst is_y
      have notBefore : y ∉ passed := fun inPassed => (List.nodup_append.mp nodup).2.2 _ inPassed _ (by simp) rfl
      have notAfter : y ∉ ahead := (List.nodup_cons.mp (List.nodup_append.mp nodup).2.1).1
      have shape : passed ++ y :: ahead = (a ++ u) ++ y :: (v ++ back) := by simpa using lap
      have parts := (List.append_cons_inj_of_notMem notBefore notAfter).mp shape
      exact ⟨parts.1, by rw [parts.2.2]⟩
  have isLast : ∃ m, h :: v = m ++ [td.lastTrb] := by
    have ends : trbsOf ep.ring td = _ ++ [td.lastTrb] := rfl
    rw [is_td] at ends
    have := congrArg List.getLast? ends
    rw [List.getLast?_append_of_ne_nil _ (by simp), List.getLast?_append_of_ne_nil _ (by simp), List.getLast?_singleton] at this
    exact List.getLast?_eq_some_iff.mp this
  obtain ⟨m, is_m⟩ := isLast
  obtain ⟨rest, is_idle⟩ := stopped.queue.idle_eq
  obtain ⟨t, more, is_t⟩ : ∃ t more, back ++ idle = t :: more := by
    cases back with
    | nil => exact ⟨_, _, by rw [List.nil_append, is_idle]⟩
    | cons t back => exact ⟨t, back ++ idle, rfl⟩
  have lap : passed ++ ahead ++ idle = a ++ u ++ (m ++ td.lastTrb :: t :: more) := by
    rw [before, after, ← is_t]
    have : h :: (v ++ back) = m ++ [td.lastTrb] ++ back := by rw [← is_m]; simp
    rw [this]
    simp
  have inMiddle : ∀ p, p ∈ h :: v ↔ p ∈ m ++ [td.lastTrb] := fun p => by rw [is_m]
  refine ⟨h :: v, back, t, by simp [after], by simp [is_t], ?_, ?_, ?_, ?_⟩
  · intro p inside
    rw [is_td]
    simp only [List.mem_append]
    exact .inr inside
  · intro p inside inBack
    have nodup := (List.nodup_append.mp distinct).1
    rw [split] at nodup
    exact (List.nodup_append.mp (List.nodup_append.mp nodup).2.1).2.2 _ inside _ inBack rfl
  · have := (inMiddle td.lastTrb).mpr (by simp)
    rw [after]
    simp only [List.mem_cons, List.mem_append] at this ⊢
    exact this.imp_right .inl
  · intro x same
    have shape := same.shape
    have lapNodup := shape.isLap.1
    obtain ⟨trbs, is_x⟩ := same.eq
    have lastSeg : x.lastSeg = ep.ring.lastSeg := by rw [is_x]
    have dequeue : x.dequeue = ep.ring.dequeue := by rw [is_x]
    have first : (a ++ u ++ (m ++ td.lastTrb :: t :: more)).head? = some x.dequeue := by
      rw [← lap, dequeue]
      rcases stopped.queue.dequeue with inOrder | ⟨nothing, _⟩
      · exact inOrder
      · simp [after] at nothing
    have notBack : x.dequeue ∉ (a ++ u ++ (m ++ td.lastTrb :: t :: more)).tail := by
      rw [lap] at lapNodup
      obtain ⟨l, is_l⟩ := List.head?_eq_some_iff.mp first
      rw [is_l] at lapNodup ⊢
      exact (List.nodup_cons.mp lapNodup).1
    have is_h : (m ++ td.lastTrb :: t :: more).head? = some h := by
      have : (h :: v).head? = (m ++ [td.lastTrb]).head? := by rw [is_m]
      rw [List.head?_append] at this ⊢
      exact this.symm
    obtain ⟨l, is_l⟩ := List.head?_eq_some_iff.mp is_h
    have flips : ∀ p ∈ m ++ [td.lastTrb], flipsAt x p = flipsAt ep.ring p := by
      intro p inside
      have inLap : p ∈ passed ++ ahead ++ idle := by
        rw [lap]
        simp only [List.mem_append, List.mem_cons, List.not_mem_nil, or_false] at inside ⊢
        exact .inr (inside.imp_right .inl)
      rw [Bool.eq_iff_iff, flipsAt_iff shape inLap, flipsAt_iff stopped.queue.shape inLap, lastSeg]
    have size := shape.size
    rw [lap] at shape size
    simp only [List.length_append, List.length_cons] at size
    have others : ∀ y ∈ a ++ u, trbVirtToDma y ≠ env.hwDequeue ∧ y ≠ td.lastTrb := by
      intro y inside
      have apart : ∀ p ∈ m ++ [td.lastTrb], y ≠ p := by
        rw [lap] at lapNodup
        intro p inMid
        refine (List.nodup_append.mp lapNodup).2.2 y inside p ?_
        simp only [List.mem_append, List.mem_cons, List.not_mem_nil, or_false] at inMid ⊢
        exact inMid.imp_right .inl
      refine ⟨?_, apart _ (by simp)⟩
      rw [stopped.hwDequeue]
      intro sameAddr
      have inLap : y ∈ passed ++ ahead ++ idle := by rw [lap]; exact List.mem_append_left _ inside
      have hIn : h ∈ passed ++ ahead ++ idle := by simp [after]
      exact apart h ((inMiddle h).mp (by simp)) (stopped.distinct y inLap h hIn sameAddr)
    obtain ⟨n, enough⟩ : ∃ n, trbsPerSegment * x.numSegs + 1 = (n + 1) + (a ++ u).length := by
      refine ⟨trbsPerSegment * x.numSegs - (a ++ u).length, ?_⟩
      simp only [trbsPerSegment, List.length_append]
      omega
    have searched : findLoop x env.hwDequeue td.lastTrb (trbsPerSegment * x.numSegs + 1) x.dequeue false false env.hwCycle =
        findLoop x env.hwDequeue td.lastTrb (n + 1) h false false env.hwCycle := by
      rw [enough]
      have shape' : Shape x ([] ++ (a ++ u ++ h :: l)) := by rw [← is_l]; exact shape
      exact findLoop_skip shape' (by rw [← is_l]; exact first) (by rw [← is_l]; exact notBack) others
    rw [findNewDequeueState, searched, findLoop_here stopped.hwDequeue.symm]
    have notBack' : x.dequeue ∉ (m ++ td.lastTrb :: t :: more).tail := by
      intro inside
      apply notBack
      cases a ++ u with
      | nil => exact inside
      | cons y l => exact List.mem_append_right _ (List.mem_of_mem_tail inside)
    rw [findLoop_last shape ?_ notBack' ?_]
    · rw [stopped.hwCycle, before, is_m, phase_congr _ flips, ← phase_append]
    · rw [← is_m]
      rfl
    · simp only [trbsPerSegment, List.length_append] at enough
      omega

/-- The endpoint after some of its cancelled TDs have been taken out. -/
structure Fixed (ep : Endpoint) (lap : List TrbPtr) (tds : List Td) (ep' : Endpoint) : Prop where
  same : SameRing ep.ring ep'.ring lap
  noops : ∀ td ∈ tds, ep.stoppedTd ≠ some td → ∀ p ∈ trbsOf ep.ring td, p.idx ≠ 63 → (ep'.ring.trb p).isNoop = true
  stays : ∀ p ∈ lap, p.idx ≠ 63 → (ep.ring.trb p).isNoop = true → (ep'.ring.trb p).isNoop = true
  kept : ∀ p, (∀ td ∈ tds, ep.stoppedTd ≠ some td → p ∉ trbsOf ep.ring td) → ep'.ring.trb p = ep.ring.trb p
  tdList : ∀ td, td ∈ ep'.tdList ↔ td ∈ ep.tdList ∧ td ∉ tds
  nodup : ep'.tdList.Nodup

theorem Stopped.tds_nodup (stopped : Stopped ep env passed ahead idle c h) : ep.tdList.Nodup := by
  refine stopped.apart.imp ?_
  rintro td td' apart rfl
  exact apart td.lastTrb (by simp [trbsOf]) (by simp [trbsOf])

theorem Stopped.apart_of (stopped : Stopped ep env passed ahead idle c h) {td td' : Td} (member : td ∈ ep.tdList)
    (member' : td' ∈ ep.tdList) (other : td ≠ td') : ∀ p ∈ trbsOf ep.ring td, p ∉ trbsOf ep.ring td' := by
  have : Std.Symm fun td td' => ∀ p ∈ trbsOf ep.ring td, p ∉ trbsOf ep.ring td' :=
    ⟨fun _ _ apart p inside inside' => apart p inside' inside⟩
  exact stopped.apart.forall member member' other

theorem Stopped.fixed (stopped : Stopped ep env passed ahead idle c h) : Fixed ep (passed ++ ahead ++ idle) [] ep := by
  refine ⟨⟨stopped.queue.shape, fun _ => rfl, ep.ring.trbs, rfl⟩, ?_, fun _ _ _ noop => noop, fun _ _ => rfl, ?_,
    stopped.tds_nodup⟩
  · intro td member
    simp at member
  · simp

theorem Fixed.congr {lap : List TrbPtr} {tds : List Td} {ep' ep'' : Endpoint} (fixed : Fixed ep lap tds ep')
    (ring : ep''.ring = ep'.ring) (tdList : ep''.tdList = ep'.tdList) : Fixed ep lap tds ep'' := by
  obtain ⟨same, noops, stays, kept, left, nodup⟩ := fixed
  rw [← ring] at same noops stays kept
  rw [← tdList] at left nodup
  exact ⟨same, noops, stays, kept, left, nodup⟩

theorem Fixed.skip {lap : List TrbPtr} {tds : List Td} {ep' : Endpoint} (fixed : Fixed ep lap tds ep') {td : Td}
    (isStopped : ep.stoppedTd = some td) : Fixed ep lap (tds ++ [td]) { ep' with tdList := ep'.tdList.erase td } := by
  have onlyBefore : ∀ td' ∈ tds ++ [td], ep.stoppedTd ≠ some td' → td' ∈ tds := by
    intro td' member other
    rcases List.mem_append.mp member with before | here
    · exact before
    · rw [List.mem_singleton.mp here] at other
      exact absurd isStopped other
  refine ⟨fixed.same, ?_, fixed.stays, ?_, ?_, fixed.nodup.erase td⟩
  · exact fun td' member other => fixed.noops td' (onlyBefore td' member other) other
  · exact fun p outside => fixed.kept p fun td' member other => outside td' (List.mem_append_left _ member) other
  · intro td'
    rw [fixed.nodup.mem_erase_iff, fixed.tdList]
    simp only [List.mem_append, List.mem_singleton, not_or]
    tauto

theorem Fixed.noop (stopped : Stopped ep env passed ahead idle c h) {tds : List Td} {ep' : Endpoint}
    (fixed : Fixed ep (passed ++ ahead ++ idle) tds ep') {td : Td} (member : td ∈ ep.tdList)
    (other : ep.stoppedTd ≠ some td) : Fixed ep (passed ++ ahead ++ idle) (tds ++ [td])
      { ep' with ring := ep'.ring.tdToNoop td.firstTrb td.lastTrb false, tdList := ep'.tdList.erase td } := by
  have stretch := stopped.trbsOf_eq fixed.same member
  obtain ⟨a, b, split⟩ := stopped.onRing td member
  have lap : passed ++ ahead ++ idle = a ++ (trbsOf ep'.ring td ++ (b ++ idle)) := by simp [split, stretch]
  have shape := fixed.same.shape
  have links : ∀ p ∈ passed ++ ahead ++ idle, p.idx ≠ 63 → (ep'.ring.trb p).isLink = false := by
    intro p inLap inner
    simpa using mt (shape.links p inLap).mp inner
  rw [lap] at shape
  obtain ⟨trbs, eq, shape', cycles, outside, noops⟩ := noop_td shape
  rw [← lap] at shape'
  obtain ⟨trbs', is_ring⟩ := fixed.same.eq
  have inLap : ∀ td' ∈ ep.tdList, ∀ p ∈ trbsOf ep.ring td', p ∈ passed ++ ahead ++ idle := by
    intro td' member' p inside
    obtain ⟨a, b, split⟩ := stopped.onRing td' member'
    rw [split]
    simp [inside]
  refine ⟨⟨shape', fun p => (cycles p).trans (fixed.same.cycles p), trbs, ?_⟩, ?_, ?_, ?_, ?_, fixed.nodup.erase td⟩
  · show ep'.ring.tdToNoop td.firstTrb td.lastTrb false = _
    rw [eq, is_ring]
  · intro td' member' other' p inside inner
    by_cases here : p ∈ trbsOf ep'.ring td
    · have inRing : p ∈ passed ++ ahead ++ idle := by
        rw [stretch] at here
        exact inLap td member p here
      exact noops p (links p inRing inner) (.inl here)
    · rcases List.mem_append.mp member' with before | isTd
      · show ((ep'.ring.tdToNoop td.firstTrb td.lastTrb false).trb p).isNoop = true
        rw [outside p here]
        exact fixed.noops td' before other' p inside inner
      · rw [List.mem_singleton.mp isTd, ← stretch] at inside
        exact absurd inside here
  · intro p inRing inner noop
    exact noops p (links p inRing inner) (.inr (fixed.stays p inRing inner noop))
  · intro p clear
    have here : p ∉ trbsOf ep'.ring td := by
      rw [stretch]
      exact clear td (by simp) other
    show (ep'.ring.tdToNoop td.firstTrb td.lastTrb false).trb p = _
    rw [outside p here]
    exact fixed.kept p fun td' before other' => clear td' (List.mem_append_left _ before) other'
  · intro td'
    rw [fixed.nodup.mem_erase_iff, fixed.tdList]
    simp only [List.mem_append, List.mem_singleton, not_or]
    tauto

/-- The loop takes out all the cancelled TDs and finds the new dequeue pointer if one of
    them is the stopped one. -/
theorem fixUpRing_fixed (stopped : Stopped ep env passed ahead idle c h) : ∀ {tds done : List Td} {ep' : Endpoint} (deqState : Option (TrbPtr × Bool)),
    (∀ td ∈ tds, td ∈ ep.tdList) → Fixed ep (passed ++ ahead ++ idle) done ep' → ep'.stoppedTd = ep.stoppedTd →
    Fixed ep (passed ++ ahead ++ idle) (done ++ tds) (fixUpRing env tds ep' deqState).1 ∧
    ((∀ td ∈ tds, ep.stoppedTd ≠ some td) → (fixUpRing env tds ep' deqState).2 = deqState) ∧
    (∀ target, (∀ td, ep.stoppedTd = some td → ∀ x, SameRing ep.ring x (passed ++ ahead ++ idle) →
      findNewDequeueState x td env = target) → (∃ td ∈ tds, ep.stoppedTd = some td) ∨ deqState = target →
      (fixUpRing env tds ep' deqState).2 = target) := by
  intro tds
  induction tds with
  | nil =>
    intro done ep' deqState _ fixed _
    refine ⟨by simpa [fixUpRing] using fixed, fun _ => rfl, ?_⟩
    rintro target _ (⟨td, inside, _⟩ | same)
    · simp at inside
    · exact same
  | cons td tds ih =>
    intro done ep' deqState members fixed stoppedTd
    have more : ∀ td ∈ tds, td ∈ ep.tdList := fun td inside => members td (by simp [inside])
    have assoc : done ++ td :: tds = (done ++ [td]) ++ tds := by simp
    rw [fixUpRing, assoc]
    split_ifs with isStopped
    · rw [stoppedTd] at isStopped
      obtain ⟨fixed', _, finds⟩ := ih (findNewDequeueState ep'.ring td env) more (fixed.skip isStopped) stoppedTd
      refine ⟨fixed', fun none => absurd isStopped (none td (by simp)), ?_⟩
      intro target found _
      exact finds target found (.inr (found td isStopped _ fixed.same))
    · rw [stoppedTd] at isStopped
      obtain ⟨fixed', keeps, finds⟩ := ih deqState more
        (fixed.noop stopped (members td (by simp)) isStopped) stoppedTd
      refine ⟨fixed', fun none => keeps fun td inside => none td (by simp [inside]), ?_⟩
      rintro target found (⟨td', inside, isTd'⟩ | same)
      · refine finds target found (.inl ⟨td', ?_, isTd'⟩)
        rcases List.mem_cons.mp inside with rfl | later
        · exact absurd isTd' isStopped
        · exact later
      · exact finds target found (.inr same)

/-- Whatever becomes of the command, the ring and its TDs stay. -/
theorem queueNewDequeueState_same (ep : Endpoint) (deqState : TrbPtr × Bool) (env : Env) :
    (queueNewDequeueState ep deqState env).1.ring = ep.ring ∧
      (queueNewDequeueState ep deqState env).1.tdList = ep.tdList := by
  rw [queueNewDequeueState]
  split_ifs <;> exact ⟨rfl, rfl⟩

theorem queueNewDequeueState_queued (ep : Endpoint) {deqState : TrbPtr × Bool} (env : Env)
    (mapped : trbVirtToDma deqState.1 ≠ 0) : (queueNewDequeueState ep deqState env).2 =
      if ep.setDeqPending = false ∧ env.alloc = true ∧ 0 ≤ env.queueCommand then some deqState else none := by
  rw [queueNewDequeueState, if_neg mapped]
  cases pending : ep.setDeqPending with
  | true => simp
  | false =>
    cases alloc : env.alloc with
    | false => simp
    | true =>
      by_cases fails : env.queueCommand < 0
      · simp [fails]
      · simp [fails, not_lt.mp fails]

theorem fixUpRing_setDeqPending (env : Env) : ∀ (tds : List Td) (ep : Endpoint) (deqState : Option (TrbPtr × Bool)),
    (fixUpRing env tds ep deqState).1.setDeqPending = ep.setDeqPending := by
  intro tds
  induction tds with
  | nil => exact fun _ _ => rfl
  | cons td tds ih =>
    intro ep deqState
    rw [fixUpRing]
    split_ifs
    · exact ih _ _
    · exact ih _ _

theorem Fixed.executed_eq (stopped : Stopped ep env passed ahead idle c h) {tds : List Td} {ep' : Endpoint}
    (fixed : Fixed ep (passed ++ ahead ++ idle) tds ep') {rest back : List TrbPtr} {t : TrbPtr} (split : ahead = rest ++ back)
    (start : (back ++ idle).head? = some t) {fuel : Nat} (enough : 64 * ep.ring.numSegs ≤ fuel) :
    executed ep'.ring fuel (t, phase (flipsAt ep.ring) c (passed ++ rest)) = some (back, ep'.ring.enqueue) := by
  have queue := stopped.queue
  have phased := stopped.phased
  have shape := fixed.same.shape
  obtain ⟨trbs, is_ring⟩ := fixed.same.eq
  rw [split, ← List.append_assoc] at queue phased shape
  have numSegs : ep'.ring.numSegs = ep.ring.numSegs := by rw [is_ring]
  have enqueue : ep'.ring.enqueue = ep.ring.enqueue := by rw [is_ring]
  rw [enqueue]
  exact Cancel.executed_eq queue phased shape fixed.same.cycles (by rw [is_ring]) start (by rw [numSegs]; exact enough)

/-- The controller goes on with `back` and skips `rest`, which is in cancelled TDs. -/
theorem Fixed.unreachable (stopped : Stopped ep env passed ahead idle c h) {outcome : Outcome}
    (fixed : Fixed ep (passed ++ ahead ++ idle) ep.cancelledTdList outcome.ep) {rest back : List TrbPtr} {t : TrbPtr}
    (split : ahead = rest ++ back) (start : (back ++ idle).head? = some t)
    (resumes : resume env h outcome.setDeq = (t, phase (flipsAt ep.ring) c (passed ++ rest)))
    (skipped : ∀ p ∈ rest, ∃ td ∈ ep.cancelledTdList, p ∈ trbsOf ep.ring td)
    (clear : ∀ td, ep.stoppedTd = some td → td ∈ ep.cancelledTdList → ∀ p ∈ trbsOf ep.ring td, p ∉ back) :
    Unreachable ep env h outcome := by
  -- What is left of a cancelled TD among the TRBs that are executed are no-ops.
  have gone : ∀ td ∈ ep.cancelledTdList, ∀ p ∈ trbsOf ep.ring td, p ∈ back →
      (outcome.ep.ring.trb p).isLink = true ∨ (outcome.ep.ring.trb p).isNoop = true := by
    intro td member p inside inBack
    by_cases onLink : p.idx = 63
    · exact .inl ((fixed.same.shape.links p (by simp [split, inBack])).mpr onLink)
    · refine .inr (fixed.noops td member ?_ p inside onLink)
      exact fun isStopped => clear td isStopped member p inside inBack
  refine ⟨fun fuel enough => ⟨back, ?_, ?_, ?_, ?_⟩⟩
  · rw [resumes]
    exact fixed.executed_eq stopped split start enough
  · intro p inBack
    by_cases onLink : p.idx = 63
    · exact .inl ((fixed.same.shape.links p (by simp [split, inBack])).mpr onLink)
    · rcases stopped.covered p (by simp [split, inBack]) onLink with noop | ⟨td, member, inside⟩
      · exact .inr (.inl (fixed.stays p (by simp [split, inBack]) onLink noop))
      · by_cases cancelled : td ∈ ep.cancelledTdList
        · exact (gone td cancelled p inside inBack).imp_right .inl
        · refine .inr (.inr ⟨td, (fixed.tdList td).mpr ⟨member, cancelled⟩, ?_⟩)
          rw [stopped.trbsOf_eq fixed.same member]
          exact inside
  · intro td inList p inside
    obtain ⟨member, notCancelled⟩ := (fixed.tdList td).mp inList
    rw [stopped.trbsOf_eq fixed.same member] at inside
    obtain ⟨a, b, lies⟩ := stopped.onRing td member
    have inBusy : p ∈ passed ++ ahead := by
      rw [lies]
      simp [inside]
    rw [split] at inBusy
    rcases List.mem_append.mp inBusy with before | after
    · right
      have inOrder : (passed ++ ahead ++ idle).head? = some ep.ring.dequeue := by
        rcases stopped.queue.dequeue with inOrder | ⟨nothing, _⟩
        · exact inOrder
        · rw [List.append_eq_nil_iff.mp nothing |>.1] at before
          simp at before
      obtain ⟨more, is_more⟩ := List.head?_eq_some_iff.mp stopped.position
      have shape := stopped.queue.shape
      rw [List.append_assoc, is_more] at shape inOrder
      rwa [span_eq shape inOrder]
    · left
      rcases List.mem_append.mp after with inRest | inBack
      · exfalso
        obtain ⟨td', cancelled, inside'⟩ := skipped p inRest
        have other : td ≠ td' := by
          rintro rfl
          exact notCancelled cancelled
        exact stopped.apart_of member (stopped.cancelled td' cancelled) other p inside inside'
      · exact inBack
  · intro td member p inside inBack
    rw [stopped.trbsOf_eq fixed.same (stopped.cancelled td member)] at inside
    exact gone td member p inside inBack

/-- The stopped TD is executed if the controller goes on where it stopped. -/
theorem Fixed.reachable (stopped : Stopped ep env passed ahead idle c h) {outcome : Outcome}
    (fixed : Fixed ep (passed ++ ahead ++ idle) ep.cancelledTdList outcome.ep) (noCommand : outcome.setDeq = none) {td : Td}
    (isStopped : ep.stoppedTd = some td) (cancelled : td ∈ ep.cancelledTdList) : ¬Unreachable ep env h outcome := by
  intro unreachable
  obtain ⟨taken, runs, _, _, gone⟩ := unreachable.runs _ le_rfl
  have member := stopped.cancelled td cancelled
  obtain ⟨_, _, _, _, _, _, _, isAhead, _⟩ := stopped.find isStopped
  obtain ⟨inner, work⟩ := stopped.work td member
  have all : executed outcome.ep.ring (64 * ep.ring.numSegs) (h, phase (flipsAt ep.ring) c (passed ++ [])) = _ :=
    fixed.executed_eq stopped (show ahead = [] ++ ahead from rfl) stopped.position le_rfl
  rw [noCommand, resume, Option.getD_none, stopped.hwCycle] at runs
  rw [List.append_nil, runs] at all
  have is_taken : taken = ahead := by
    simp only [Option.some.injEq, Prod.mk.injEq] at all
    exact all.1
  have inside : td.lastTrb ∈ trbsOf ep.ring td := by simp [trbsOf]
  have untouched : outcome.ep.ring.trb td.lastTrb = ep.ring.trb td.lastTrb := by
    refine fixed.kept _ fun td' cancelled' other' => ?_
    refine stopped.apart_of member (stopped.cancelled td' cancelled') ?_ _ inside
    rintro rfl
    exact other' isStopped
  have inLap : td.lastTrb ∈ passed ++ ahead ++ idle := by simp [isAhead]
  rcases gone td cancelled td.lastTrb (by rw [stopped.trbsOf_eq fixed.same member]; exact inside)
    (by rw [is_taken]; exact isAhead) with link | noop
  · exact inner ((fixed.same.shape.links _ inLap).mp link)
  · rw [untouched, work] at noop
    simp at noop

/-- Without the stopped TD among them all the cancelled TDs become no-ops. -/
theorem handleCmdStopEp_noops (stopped : Stopped ep env passed ahead idle c h)
    (other : ∀ td ∈ ep.cancelledTdList, ep.stoppedTd ≠ some td) :
    Fixed ep (passed ++ ahead ++ idle) ep.cancelledTdList (handleCmdStopEp ep env).ep ∧ (handleCmdStopEp ep env).setDeq = none := by
  cases list : ep.cancelledTdList with
  | nil =>
    rw [handleCmdStopEp, if_pos (by simp [list])]
    exact ⟨stopped.fixed.congr rfl rfl, rfl⟩
  | cons td tds =>
    obtain ⟨fixed, keeps, _⟩ := fixUpRing_fixed stopped none stopped.cancelled stopped.fixed rfl
    rw [handleCmdStopEp, if_neg (by simp [list])]
    simp only [keeps other, and_true]
    rw [← list]
    exact fixed.congr rfl rfl

end

/-- The cancelled TDs are out of the controller's reach when their URBs are given back, if
    and only if the controller has not stopped in one of them, or the command that
    moves its dequeue pointer could be queued. -/
theorem handleCmdStopEp_unreachable_iff {ep : Endpoint} {env : Env} {passed ahead idle : List TrbPtr} {c : Bool} {h : TrbPtr}
    (stopped : Stopped ep env passed ahead idle c h) :
    Unreachable ep env h (handleCmdStopEp ep env) ↔
      ∀ td, ep.stoppedTd = some td → td ∈ ep.cancelledTdList →
        ep.setDeqPending = false ∧ env.alloc = true ∧ 0 ≤ env.queueCommand := by
  by_cases isStopped : ∃ td ∈ ep.cancelledTdList, ep.stoppedTd = some td
  · obtain ⟨td, cancelled, isTd⟩ := isStopped
    obtain ⟨rest, back, t, split, start, inRest, notBack, _, finds⟩ := stopped.find isTd
    have found : ∀ td', ep.stoppedTd = some td' → ∀ x, SameRing ep.ring x (passed ++ ahead ++ idle) →
        findNewDequeueState x td' env = some (t, phase (flipsAt ep.ring) c (passed ++ rest)) := by
      intro td' isTd' x same
      rw [isTd, Option.some.injEq] at isTd'
      rw [← isTd']
      exact finds x same
    obtain ⟨fixed, _, deqState⟩ := fixUpRing_fixed stopped none stopped.cancelled stopped.fixed rfl
    have deqState := deqState _ found (.inl ⟨td, cancelled, isTd⟩)
    have pending := fixUpRing_setDeqPending env ep.cancelledTdList ep none
    rw [List.nil_append] at fixed
    have mapped : ¬trbVirtToDma t = 0 := by
      refine stopped.mapped t ?_
      have member := List.mem_of_mem_head? start
      rw [split]
      simp only [List.mem_append] at member ⊢
      tauto
    have some_cancelled : ep.cancelledTdList.isEmpty = false := by
      cases list : ep.cancelledTdList with
      | nil => simp [list] at cancelled
      | cons td tds => rfl
    have fixed' : Fixed ep (passed ++ ahead ++ idle) ep.cancelledTdList (handleCmdStopEp ep env).ep := by
      obtain ⟨ring, tdList⟩ := queueNewDequeueState_same { (fixUpRing env ep.cancelledTdList ep none).1 with haltPending := false }
        (t, phase (flipsAt ep.ring) c (passed ++ rest)) env
      rw [handleCmdStopEp, if_neg (by simp [some_cancelled])]
      simp only [deqState]
      exact fixed.congr ring tdList
    have setDeq : (handleCmdStopEp ep env).setDeq =
        if ep.setDeqPending = false ∧ env.alloc = true ∧ 0 ≤ env.queueCommand then
          some (t, phase (flipsAt ep.ring) c (passed ++ rest)) else none := by
      rw [handleCmdStopEp, if_neg (by simp [some_cancelled]), ← pending]
      simp only [deqState]
      exact queueNewDequeueState_queued _ env mapped
    by_cases queued : ep.setDeqPending = false ∧ env.alloc = true ∧ 0 ≤ env.queueCommand
    · refine ⟨fun _ _ _ _ => queued, fun _ => ?_⟩
      rw [if_pos queued] at setDeq
      refine fixed'.unreachable stopped split start (by rw [setDeq, resume, Option.getD_some]) ?_ ?_
      · exact fun p member => ⟨td, cancelled, inRest p member⟩
      · intro td' isTd' _ p inside
        rw [isTd, Option.some.injEq] at isTd'
        rw [← isTd'] at inside
        exact notBack p inside
    · rw [if_neg queued] at setDeq
      refine ⟨fun unreachable => ?_, fun always => absurd (always td isTd cancelled) queued⟩
      exact absurd unreachable (fixed'.reachable stopped setDeq isTd cancelled)
  · -- All the cancelled TDs have become no-ops, and the controller goes on where it stopped.
    have other : ∀ td ∈ ep.cancelledTdList, ep.stoppedTd ≠ some td := fun td cancelled isTd => isStopped ⟨td, cancelled, isTd⟩
    obtain ⟨fixed, noCommand⟩ := handleCmdStopEp_noops stopped other
    refine ⟨fun _ td isTd cancelled => absurd isTd (other td cancelled), fun _ => ?_⟩
    refine fixed.unreachable stopped (show ahead = [] ++ ahead from rfl) stopped.position ?_ ?_ ?_
    · rw [noCommand, resume, Option.getD_none, stopped.hwCycle, List.append_nil]
    · intro p inside
      simp at inside
    · exact fun td isTd cancelled => absurd isTd (other td cancelled)

def tdAt (i : Nat) : Td := ⟨7, i, ⟨0x1000, i⟩, ⟨0x1000, i⟩⟩

/-- A bulk ring with three TDs of one TRB each. The controller has stopped in the first one;
    this and the second one have been cancelled. -/
def stoppedEp : Endpoint where
  ring := (List.range 3).foldl (fun r _ => r.queueTd ⟨false, false⟩ normalTrb [] fun _ => .accepted) bulkRing
  tdList := [tdAt 0, tdAt 1, tdAt 2]
  cancelledTdList := [tdAt 0, tdAt 1]
  stoppedTd := some (tdAt 0)
  haltPending := true
  setDeqPending := false
  halted := false
  queuedDeqPtr := none

def stoppedEnv (alloc : Bool) : Env := ⟨0x1000, true, alloc, 0⟩

def stoppedBusy : List TrbPtr := [⟨0x1000, 0⟩, ⟨0x1000, 1⟩, ⟨0x1000, 2⟩]

theorem stoppedEp_queue : Queue stoppedEp.ring stoppedBusy ((laid [0x1000, 0x1400]).drop 3) := by
  refine ⟨⟨?_, ?_, ?_, ?_, ?_, ?_, ?_, ?_, ?_⟩, ?_, .inl ?_, ?_⟩ <;> decide +kernel

theorem stoppedEp_trbsOf : ∀ td ∈ stoppedEp.tdList, trbsOf stoppedEp.ring td = [td.firstTrb] := by decide +kernel

theorem stoppedEp_stopped (alloc : Bool) :
    Stopped stoppedEp (stoppedEnv alloc) [] stoppedBusy ((laid [0x1000, 0x1400]).drop 3) true ⟨0x1000, 0⟩ where
  queue := stoppedEp_queue
  phased := by refine ⟨?_, ?_, ?_⟩ <;> decide +kernel
  position := rfl
  hwDequeue := rfl
  hwCycle := rfl
  mapped := by decide +kernel
  distinct := by decide +kernel
  onRing := by
    intro td member
    have split : ∀ td ∈ stoppedEp.tdList, stoppedBusy = stoppedBusy.take td.index ++ ([td.firstTrb] ++ stoppedBusy.drop (td.index + 1)) := by
      decide +kernel
    rw [stoppedEp_trbsOf td member]
    exact ⟨_, _, split td member⟩
  apart := by decide +kernel
  work := by decide +kernel
  covered := by
    intro p member _
    have owned : ∀ p ∈ stoppedBusy, ∃ td ∈ stoppedEp.tdList, p ∈ [td.firstTrb] := by decide +kernel
    obtain ⟨td, listed, first⟩ := owned p member
    exact .inr ⟨td, listed, (stoppedEp_trbsOf td listed).symm ▸ first⟩
  cancelled := by decide +kernel
  stopped := by
    intro td isStopped
    obtain rfl : tdAt 0 = td := Option.some.inj isStopped
    exact ⟨by decide +kernel, by decide +kernel⟩

/-- The controller is moved behind the first TD, and the second one is turned into no-ops. -/
theorem handleCmdStopEp_unreachable_moved :
    Unreachable stoppedEp (stoppedEnv true) ⟨0x1000, 0⟩ (handleCmdStopEp stoppedEp (stoppedEnv true)) ∧
      ((handleCmdStopEp stoppedEp (stoppedEnv true)).ep.ring.trb ⟨0x1000, 1⟩).isNoop = true :=
  ⟨(handleCmdStopEp_unreachable_iff (stoppedEp_stopped true)).mpr fun _ _ _ => ⟨rfl, rfl, by decide⟩, by decide +kernel⟩

/-- There is no memory for the command, and the controller goes on with the first TD. -/
theorem handleCmdStopEp_not_unreachable : ¬∀ (ep : Endpoint) (env : Env) (passed ahead idle : List TrbPtr) (c : Bool) (h : TrbPtr),
    Stopped ep env passed ahead idle c h → Unreachable ep env h (handleCmdStopEp ep env) := by
  intro always
  obtain ⟨taken, runs, _, _, gone⟩ := (always _ _ _ _ _ _ _ (stoppedEp_stopped false)).runs 128 (by decide +kernel)
  have executes : (executed (handleCmdStopEp stoppedEp (stoppedEnv false)).ep.ring 128
      (resume (stoppedEnv false) ⟨0x1000, 0⟩ (handleCmdStopEp stoppedEp (stoppedEnv false)).setDeq)).map Prod.fst =
      some stoppedBusy := by
    decide +kernel
  have is_taken : taken = stoppedBusy := by
    rw [runs] at executes
    simpa using executes
  have left := gone (tdAt 0) (by simp [stoppedEp]) ⟨0x1000, 0⟩ (by decide +kernel) (by simp [is_taken, stoppedBusy])
  revert left
  decide +kernel

end Ehub.Cancel
