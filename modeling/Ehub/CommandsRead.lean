import Mathlib
import Ehub.Commands
import Ehub.RingFifo

/-!
Commands on their way. The driver queues commands and completes them (`CommandRing.State`);
what was asked for with each is noted beside it, and so is the cycle state of a controller
that has followed the ring up to `dequeue`. As long as the controller is not given up, the
command ring holds the commands on the list and nothing else (`Carries`), so the controller
finds them as they were asked for and in their order, and the event for the first one leads
to its handler (`commands_read`).
-/
namespace Ehub.CommandsRead
open Ehub.Lap Ehub.Ring Ehub.RingShape Ehub.RingAccount Ehub.RingFifo Ehub.Cancel Ehub.CommandRing Ehub.Commands

/-- A command that is to be queued: what is asked for, the memory of the command and whether it
    has been allocated for it, whether somebody waits, and whether it must not fail. -/
structure Ask where
  cmd : Cmd
  ptr : ℕ
  fresh : Bool
  completion : Bool
  mustSucceed : Bool

def Ask.request (ask : Ask) : Request := ⟨ask.ptr, ask.fresh, ask.completion, ask.cmd.trb, ask.mustSucceed⟩

/-- The driver, what was asked for with the command of each number, and the cycle state of the
    controller at `dequeue`. -/
structure State where
  driver : CommandRing.State
  asked : ℕ → Cmd
  ccs : Bool

inductive Op where
  | queue (ask : Ask)
  | event (cmdTrb : BitVec 64) (code : ℕ) (asks : List Ask)
  | expire
  | timeout
  | cleanup
  | reserve
  | release
  | setCmdRingState (state : CmdRingState)
  | die

def Op.driver : Op → CommandRing.Op
  | .queue ask => .queue ask.request
  | .event cmdTrb code asks => .event cmdTrb code (asks.map Ask.request)
  | .expire => .expire
  | .timeout => .timeout
  | .cleanup => .cleanup
  | .reserve => .reserve
  | .release => .release
  | .setCmdRingState state => .setCmdRingState state
  | .die => .die

/-- What is asked for is noted under the number that the command gets if it is queued. -/
def note (q : Quirks) (s : CommandRing.State × (ℕ → Cmd)) (ask : Ask) : CommandRing.State × (ℕ → Cmd) :=
  (s.1.queueCommand q ask.request, Function.update s.2 s.1.queued ask.cmd)

/-- What is noted after an operation. -/
def Op.noted (q : Quirks) (s : State) : Op → ℕ → Cmd
  | .queue ask => (note q (s.driver, s.asked) ask).2
  | .event _ code asks => (asks.foldl (note q) (s.driver.inHandler code, s.asked)).2
  | _ => s.asked

/-- The cycle state of a consumer that was at `dequeue` before the ring became `r`. -/
def follow (r : Ring) (dequeue : TrbPtr) (ccs : Bool) : Bool :=
  phase (flipsAt r) ccs (span { r with dequeue := dequeue } r.dequeue)

def State.step (q : Quirks) (s : State) (op : Op) : State where
  driver := s.driver.step q op.driver
  asked := op.noted q s
  ccs := follow (s.driver.step q op.driver).cmdRing s.driver.cmdRing.dequeue s.ccs

/-- The commands that an operation asks for. -/
def Op.asks : Op → List Ask
  | .queue ask => [ask]
  | .event _ _ asks => asks
  | _ => []

/-- What is asked for is valid, and memory that is used again has been reset. -/
def Op.Allowed (q : Quirks) (s : State) (op : Op) : Prop :=
  (op.driver.Allowed q s.driver ∧ Reset q s.driver op.driver) ∧ ∀ ask ∈ op.asks, ask.cmd.Valid

instance decidableAllowed (q : Quirks) (s : State) (op : Op) : Decidable (op.Allowed q s) :=
  inferInstanceAs (Decidable ((_ ∧ _) ∧ _))

/-- A controller starts with the cycle state of its new command ring. -/
def New (q : Quirks) (s : State) : Prop := CommandRing.New q s.driver ∧ s.ccs = s.driver.cmdRing.cycleState

def Reachable (q : Quirks) (s : State) : Prop := Run.Reachable (New q) (Op.Allowed q) (State.step q) s

theorem reachable_driver {q : Quirks} {s : State} (reachable : Reachable q s) :
    CommandRing.Reachable q (Reset q) s.driver := by
  induction reachable with
  | first new => exact .first new.1
  | step op _ ok ih => exact .step op.driver ih ok.1

/-! ### The ring holds the commands on the list -/

/-- The command ring holds the commands on the list for a controller with cycle state `ccs`. -/
structure Carries (s : CommandRing.State) (asked : ℕ → Cmd) (ccs : Bool) (busy idle : List TrbPtr) (c : Bool) : Prop where
  view : View s.cmdRing (s.cmdList.map fun cmd => (asked cmd.seq).trb) ccs busy idle c
  type : s.cmdRing.type = .command
  room : 1 ≤ nonlinks idle
  numbered : ∀ cmd ∈ s.cmdList, cmd.seq < s.queued
  valid : ∀ cmd ∈ s.cmdList, (asked cmd.seq).Valid

section
variable {q : Quirks} {s s' : CommandRing.State} {asked : ℕ → Cmd} {ccs c : Bool} {busy idle : List TrbPtr} {r : Ring}
  {pending : List Trb}

/-- `prepare_ring` on a command ring refuses, or leaves `enqueue` before as many free TRBs as
    it was asked for. -/
theorem prepareRing_view (q : Quirks) (view : View r pending ccs busy idle c) (command : r.type = .command)
    (room : 1 ≤ nonlinks idle) (n : ℕ) :
    (∃ e < 0, r.prepareRing q 1 n [] 0 = (e, r)) ∨
    ∃ r' busy' idle' c', r.prepareRing q 1 n [] 0 = (0, r') ∧ View r' pending ccs busy' idle' c' ∧ r'.type = .command ∧
      r'.dequeue = r.dequeue ∧ r'.enqueue.idx ≠ 63 ∧ n + 1 ≤ nonlinks idle' := by
  have queue := view.queue
  rw [Ring.prepareRing, if_neg (by decide), makeRoom]
  by_cases enough : r.numTrbsNeeded n < 1
  · right
    rw [if_pos enough]
    have free := (numTrbsNeeded_lt (by simp [command]) n).mp enough
    have count := queue.idle_count
    have noSlack : slack r = 0 := by simp [slack, command]
    have left : n + 1 ≤ nonlinks idle := by omega
    by_cases onLink : (r.trb r.enqueue).isLink = true
    · have last := (queue.shape.links _ queue.enqueue_mem).mp onLink
      have notCached : ¬(ehubCacheRing r.type = true ∧ (0 : Int) < 0) := by omega
      obtain ⟨busy', idle', c', view', counted, _⟩ := view.handedOver q last room
      simp only [onLink, if_true]
      rw [handOver_eq q 0 queue.shape queue.enqueue_mem last, if_neg notCached]
      have is_handed : handedOver q r = RingShape.linkGiven r (handed q r.type (r.trb r.enqueue)) := by
        simp [handedOver, command, ehubCacheRing]
      refine ⟨_, busy', idle', c', rfl, view', ?_, ?_, ?_, by omega⟩
      · rw [is_handed]
        exact command
      · rw [is_handed]
        rfl
      · rw [is_handed]
        simp [RingShape.linkGiven]
    · have plain : r.enqueue.idx ≠ 63 := fun last => onLink ((queue.shape.links _ queue.enqueue_mem).mpr last)
      simp only [onLink]
      exact ⟨r, busy, idle, c, rfl, view, command, rfl, plain, left⟩
  · left
    rw [if_neg enough]
    exact ⟨-eNOMEM, by decide, rfl⟩

/-- Only the ring, the list and the numbers matter, and what is noted for the commands on the
    list. -/
theorem Carries.congr (carries : Carries s asked ccs busy idle c) {asked' : ℕ → Cmd} (cmdRing : s'.cmdRing = s.cmdRing)
    (cmdList : s'.cmdList = s.cmdList) (queued : s'.queued = s.queued) (same : ∀ i < s.queued, asked' i = asked i) :
    Carries s' asked' ccs busy idle c := by
  have noted : ∀ cmd ∈ s.cmdList, asked' cmd.seq = asked cmd.seq := fun cmd member => same _ (carries.numbered cmd member)
  constructor
  · rw [cmdRing, cmdList, List.map_congr_left fun cmd member => congrArg Cmd.trb (noted cmd member)]
    exact carries.view
  · exact cmdRing ▸ carries.type
  · exact carries.room
  · rw [cmdList, queued]
    exact carries.numbered
  · intro cmd member
    rw [cmdList] at member
    rw [noted cmd member]
    exact carries.valid cmd member

/-- What queueing commands leaves alone. -/
structure Frame (s s' : CommandRing.State) : Prop where
  cmdList : ∃ more, s'.cmdList = s.cmdList ++ more
  dequeue : s'.cmdRing.dequeue = s.cmdRing.dequeue
  dying : s'.dying = s.dying
  reserved : s'.cmdRingReservedTrbs = s.cmdRingReservedTrbs
  queued : s.queued ≤ s'.queued

theorem Frame.trans {s'' : CommandRing.State} (first : Frame s s') (second : Frame s' s'') : Frame s s'' := by
  obtain ⟨more, list⟩ := first.cmdList
  obtain ⟨more', list'⟩ := second.cmdList
  exact ⟨⟨more ++ more', by rw [list', list, List.append_assoc]⟩, second.dequeue.trans first.dequeue,
    second.dying.trans first.dying, second.reserved.trans first.reserved, first.queued.trans second.queued⟩

/-- A command is queued behind the others, or nothing is. -/
theorem Carries.queueCommand (carries : Carries s asked ccs busy idle c) (q : Quirks) (awake : s.dying = false)
    (reserved : 1 ≤ s.cmdRingReservedTrbs) (ask : Ask) (valid : ask.cmd.Valid) :
    (∃ busy' idle' c', Carries (s.queueCommand q ask.request) (Function.update asked s.queued ask.cmd) ccs busy' idle' c') ∧
      Frame s (s.queueCommand q ask.request) := by
  set asked' := Function.update asked s.queued ask.cmd with is_asked
  have below : ∀ i < s.queued, asked' i = asked i := by
    intro i old
    rw [is_asked, Function.update_of_ne (by omega)]
  rw [State.queueCommand]
  set s₀ := if ask.request.fresh then s.setStatus ask.request.ptr 0 else s with is_s₀
  have same : s₀.cmdRing = s.cmdRing ∧ s₀.cmdList = s.cmdList ∧ s₀.queued = s.queued ∧ s₀.dying = s.dying ∧
      s₀.cmdRingReservedTrbs = s.cmdRingReservedTrbs := by
    rw [is_s₀]
    split_ifs <;> exact ⟨rfl, rfl, rfl, rfl, rfl⟩
  obtain ⟨ring, list, number, dying, kept⟩ := same
  have asks : 1 ≤ if ask.request.mustSucceed then s₀.cmdRingReservedTrbs else s₀.cmdRingReservedTrbs + 1 := by
    split_ifs <;> omega
  rw [if_neg (by rw [dying, awake]; decide)]
  dsimp only
  generalize (if ask.request.mustSucceed then s₀.cmdRingReservedTrbs else s₀.cmdRingReservedTrbs + 1) = n at asks ⊢
  rcases prepareRing_view q carries.view carries.type carries.room n with
    ⟨e, negative, result⟩ | ⟨r', busy', idle', c', result, view, command, dequeue, plain, left⟩
  · simp only [ring, result, negative, if_true]
    exact ⟨⟨busy, idle, c, carries.congr rfl list number below⟩, ⟨[], by rw [list, List.append_nil]⟩, rfl, dying, kept, number.ge⟩
  · simp only [ring, result, lt_self_iff_false, if_false]
    have stored : r'.queueTrb q false { ask.request.trb with
        field3 := ask.request.trb.field3 ||| (if r'.cycleState then Trb.trbCycle else 0) } = queueRest q [ask.cmd.trb] r' :=
      congrArg (r'.queueTrb q false) (setCycle_trb ask.cmd r'.cycleState).1
    obtain ⟨td, idle₂, rfl, view₂, counted, kept₂⟩ := view.queueRest q plain [ask.cmd.trb] (by simp)
      (by simp [(plain_trb ask.cmd).1]) (by simp only [List.length_singleton]; omega)
    have cleared : [ask.cmd.trb].map (·.setCycle false) = [ask.cmd.trb] := by simp [(setCycle_trb ask.cmd false).2]
    rw [cleared] at view₂
    have here : asked' s.queued = ask.cmd := Function.update_self ..
    rw [stored, list, number]
    refine ⟨⟨busy' ++ td, idle₂, c', ?_, kept₂.type.trans command, ?_, ?_, ?_⟩, ⟨_, rfl⟩, kept₂.dequeue.trans dequeue,
      dying, kept, Nat.le_succ _⟩
    · have listed : (s.cmdList ++ [Command.mk s.queued ask.request.ptr r'.enqueue ask.request.completion]).map
          (fun cmd => (asked' cmd.seq).trb) = s.cmdList.map (fun cmd => (asked cmd.seq).trb) ++ [ask.cmd.trb] := by
        rw [List.map_append, List.map_singleton, here]
        exact congrArg (· ++ _) (List.map_congr_left fun cmd member => by rw [below _ (carries.numbered cmd member)])
      rw [listed]
      exact view₂
    · rw [nonlinks_append, counted, List.length_singleton] at left
      omega
    · intro cmd member
      rcases List.mem_append.mp member with old | new
      · exact Nat.lt_succ_of_lt (carries.numbered cmd old)
      · rw [List.mem_singleton.mp new]
        exact Nat.lt_succ_self _
    · intro cmd member
      rcases List.mem_append.mp member with old | new
      · rw [below _ (carries.numbered cmd old)]
        exact carries.valid cmd old
      · rw [List.mem_singleton.mp new, here]
        exact valid

/-- So do the commands that the handler of another one queues. -/
theorem Carries.queueAll (q : Quirks) : ∀ {asks : List Ask} {s : CommandRing.State} {asked : ℕ → Cmd} {busy idle : List TrbPtr}
    {c : Bool}, Carries s asked ccs busy idle c → s.dying = false → 1 ≤ s.cmdRingReservedTrbs →
    (∀ ask ∈ asks, ask.cmd.Valid) →
    (∃ busy' idle' c', Carries (asks.foldl (note q) (s, asked)).1 (asks.foldl (note q) (s, asked)).2 ccs busy' idle' c') ∧
      Frame s (asks.foldl (note q) (s, asked)).1 ∧
      (∀ i < s.queued, (asks.foldl (note q) (s, asked)).2 i = asked i) ∧
      (asks.foldl (note q) (s, asked)).1 = (asks.map Ask.request).foldl (State.queueCommand q) s := by
  intro asks
  induction asks with
  | nil =>
    intro s asked busy idle c carries _ _ _
    exact ⟨⟨busy, idle, c, carries⟩, ⟨⟨[], (List.append_nil _).symm⟩, rfl, rfl, rfl, le_rfl⟩, fun _ _ => rfl, rfl⟩
  | cons ask asks ih =>
    intro s asked busy idle c carries awake reserved valid
    obtain ⟨⟨busy', idle', c', carries'⟩, frame⟩ := carries.queueCommand q awake reserved ask (valid ask (by simp))
    obtain ⟨rest, frame', below, same⟩ := ih carries' (frame.dying.trans awake) (frame.reserved ▸ reserved)
      fun ask' member => valid ask' (List.mem_cons_of_mem _ member)
    refine ⟨rest, frame.trans frame', ?_, same⟩
    intro i old
    have first : Function.update asked s.queued ask.cmd i = asked i := Function.update_of_ne (by omega) ..
    exact (below i (old.trans_le frame.queued)).trans first

/-! ### One operation -/

theorem span_start (r : Ring) : span r r.dequeue = [] := by
  rw [span]
  cases trbsPerSegment * r.numSegs with
  | zero => rfl
  | succ fuel => rw [walk, if_pos rfl]

/-- A controller whose ring is not moved stays where it is. -/
theorem follow_same {r : Ring} {dequeue : TrbPtr} (same : r.dequeue = dequeue) (ccs : Bool) : follow r dequeue ccs = ccs := by
  subst same
  exact congrArg (phase (flipsAt r) ccs) (span_start r)

/-- With nothing timed out no command is turned into a no-op. -/
theorem turn_none : ∀ {l : List Command}, (∀ cmd ∈ l, s.status cmd.ptr ≠ compCmdAbort) → l.foldl State.turnToNoop s = s := by
  intro l
  induction l with
  | nil => exact fun _ => rfl
  | cons cmd l ih =>
    intro others
    rw [List.foldl_cons, State.turnToNoop, if_pos (others cmd (by simp))]
    exact ih fun cmd' member => others cmd' (List.mem_cons_of_mem _ member)

/-- A stopped ring is restarted as it is. -/
theorem handleStoppedCmdRing_none (others : ∀ cmd ∈ s.cmdList, s.status cmd.ptr ≠ compCmdAbort) (curCmd : Option ℕ) :
    (s.handleStoppedCmdRing curCmd).cmdRing = s.cmdRing ∧ (s.handleStoppedCmdRing curCmd).cmdList = s.cmdList ∧
      (s.handleStoppedCmdRing curCmd).queued = s.queued := by
  rw [State.handleStoppedCmdRing, turn_none others]
  dsimp only
  split_ifs
  · exact ⟨rfl, rfl, rfl⟩
  · exact ⟨rfl, rfl, rfl⟩

/-- The first command is completed, and the controller has gone on to the next. -/
theorem Carries.eventHandled (carries : Carries s asked ccs busy idle c) {cmd : Command} {rest : List Command}
    (is_first : s.cmdList = cmd :: rest) (plain : s.cmdRing.dequeue.idx ≠ 63) (cmdTrb : BitVec 64) (code status : ℕ) :
    ∃ busy' idle' c', Carries (s.eventHandled cmd cmdTrb code status) asked
      (follow (s.eventHandled cmd cmdTrb code status).cmdRing s.cmdRing.dequeue ccs) busy' idle' c' := by
  have view := carries.view
  have queue := view.queue
  rw [is_first, List.map_cons] at view
  cases busy with
  | nil => exact absurd view.pending (by simp [contents])
  | cons x busy =>
    have here : s.cmdRing.dequeue ∈ x :: busy ++ idle := by simp [queue.first_busy]
    have eq := incDeq_eq queue.shape here
    have notLink : s.cmdRing.lastTrb s.cmdRing.dequeue = false := by
      rw [lastTrb_isLink queue.shape.notEvent]
      simpa using mt (queue.shape.links _ here).mp plain
    obtain ⟨links, busy', rfl, _, view'⟩ := view.incDeq carries.room
    have ring : (s.eventHandled cmd cmdTrb code status).cmdRing = s.cmdRing.incDeq := rfl
    have list : (s.eventHandled cmd cmdTrb code status).cmdList = rest := by
      show s.cmdList.erase cmd = rest
      rw [is_first, List.erase_cons_head]
    have moved : follow s.cmdRing.incDeq s.cmdRing.dequeue ccs =
        phase (flipsAt s.cmdRing) ccs (span s.cmdRing s.cmdRing.incDeq.dequeue) := by
      rw [follow, eq]
      rfl
    rw [notLink, if_neg (by decide), List.tail_cons] at view'
    refine ⟨busy', idle ++ x :: links, phase (flipsAt s.cmdRing) c (x :: links), ?_, ?_, ?_, ?_, ?_⟩
    · rw [ring, list, moved]
      exact view'
    · rw [ring, eq]
      exact carries.type
    · rw [nonlinks_append]
      exact Nat.le_trans carries.room (Nat.le_add_right ..)
    · intro cmd' member
      rw [list] at member
      exact carries.numbered cmd' (is_first ▸ List.mem_cons_of_mem _ member)
    · intro cmd' member
      rw [list] at member
      exact carries.valid cmd' (is_first ▸ List.mem_cons_of_mem _ member)

/-- An event, for any TRB and with any code, while the controller is not given up. -/
theorem Carries.handleCmdCompletion (carries : Carries s asked ccs busy idle c) (q : Quirks) {busy' idle' : List TrbPtr}
    (inv : Inv s busy' idle') (awake : s.dying = false) (cmdTrb : BitVec 64) (code : ℕ) {asks : List Ask}
    (valid : ∀ ask ∈ asks, ask.cmd.Valid) :
    ∃ busy' idle' c', Carries (s.handleCmdCompletion q cmdTrb code (asks.map Ask.request))
      (asks.foldl (note q) (s.inHandler code, asked)).2
      (follow (s.handleCmdCompletion q cmdTrb code (asks.map Ask.request)).cmdRing s.cmdRing.dequeue ccs) busy' idle' c' := by
  have within : Carries (s.inHandler code) asked ccs busy idle c := carries.congr rfl rfl rfl fun _ _ => rfl
  obtain ⟨⟨busy₁, idle₁, c₁, carries₁⟩, frame, below, same⟩ := within.queueAll q awake inv.reserved valid
  have notAborted : ∀ cmd ∈ s.cmdList, s.status cmd.ptr ≠ compCmdAbort := by
    intro cmd member isAborted
    have out := inv.aborted cmd member isAborted
    rw [(inv.alive awake).1] at out
    simp at out
  -- Where the ring and the list stay as they are, so does the controller.
  have stays : ∀ s' : CommandRing.State, s'.cmdRing = s.cmdRing → s'.cmdList = s.cmdList → s'.queued = s.queued →
      ∃ busy' idle' c', Carries s' (asks.foldl (note q) (s.inHandler code, asked)).2
        (follow s'.cmdRing s.cmdRing.dequeue ccs) busy' idle' c' := by
    intro s' ring list number
    rw [follow_same (by rw [ring])]
    exact ⟨busy, idle, c, carries.congr ring list number below⟩
  unfold State.handleCmdCompletion
  by_cases unmapped : trbVirtToDma s.cmdRing.dequeue = 0
  · rw [if_pos unmapped]
    exact stays s rfl rfl rfl
  rw [if_neg unmapped]
  by_cases other : cmdTrb ≠ trbVirtToDma s.cmdRing.dequeue
  · rw [if_pos other]
    exact stays s rfl rfl rfl
  rw [if_neg other]
  split
  · exact stays s rfl rfl rfl
  rename_i cmd rest is_list
  have member : cmd ∈ s.cmdList := is_list ▸ List.mem_cons_self ..
  by_cases mismatch : cmd.commandTrb ≠ s.cmdRing.dequeue
  · rw [if_pos mismatch]
    exact stays s rfl rfl rfl
  rw [if_neg mismatch]
  by_cases stop : code = compCmdStop
  · rw [if_pos stop]
    obtain ⟨ring, list, number⟩ := handleStoppedCmdRing_none (s := { s with cmdTimer := false }) notAborted (some cmd.ptr)
    exact stays _ ring list number
  rw [if_neg stop, if_neg fun aborted => notAborted cmd member aborted.2, ← same]
  set s₁ := (asks.foldl (note q) (s.inHandler code, asked)).1 with is_s₁
  obtain ⟨current, timer, is_restarted, _, _⟩ := restartTimer_eq s₁
  obtain ⟨more, longer⟩ := frame.cmdList
  have list : s₁.cmdList = cmd :: (rest ++ more) := by
    rw [longer]
    show s.cmdList ++ more = _
    rw [is_list, List.cons_append]
  have dequeue : s.cmdRing.dequeue = s₁.cmdRing.dequeue := frame.dequeue.symm
  have plain : s₁.cmdRing.dequeue.idx ≠ 63 := by
    rw [← dequeue, ← not_not.mp mismatch]
    exact inv.trb_idx member
  have restarted : Carries { s₁ with currentCmd := current, cmdTimer := timer }
      (asks.foldl (note q) (s.inHandler code, asked)).2 ccs busy₁ idle₁ c₁ := carries₁.congr rfl rfl rfl fun _ _ => rfl
  rw [is_restarted, dequeue]
  exact restarted.eventHandled list plain cmdTrb code _

end

/-! ### Runs -/

section
variable {q : Quirks}

theorem dying_queueCommand {s : CommandRing.State} (dead : s.dying = true) (request : Request) :
    (s.queueCommand q request).dying = true := by
  have dead' : (if request.fresh then s.setStatus request.ptr 0 else s).dying = true := by
    split_ifs
    · exact dead
    · exact dead
  rw [State.queueCommand]
  dsimp only
  rw [if_pos dead']
  exact dead'

theorem dying_queueAll : ∀ {requests : List Request} {s : CommandRing.State}, s.dying = true →
    (requests.foldl (State.queueCommand q) s).dying = true := by
  intro requests
  induction requests with
  | nil => exact fun dead => dead
  | cons request requests ih => exact fun dead => ih (dying_queueCommand dead request)

theorem dying_handleStoppedCmdRing {s : CommandRing.State} (dead : s.dying = true) (curCmd : Option ℕ) :
    (s.handleStoppedCmdRing curCmd).dying = true := by
  have turned : ∀ {l : List Command} {s : CommandRing.State}, s.dying = true → (l.foldl State.turnToNoop s).dying = true := by
    intro l
    induction l with
    | nil => exact fun dead => dead
    | cons cmd l ih =>
      intro s dead
      refine ih ?_
      rw [State.turnToNoop]
      split_ifs
      · exact dead
      · exact dead
  rw [State.handleStoppedCmdRing]
  dsimp only
  split_ifs
  · exact turned dead
  · exact turned dead

/-- A controller that has been given up stays so. -/
theorem dying_step {s : CommandRing.State} (dead : s.dying = true) (op : CommandRing.Op) : (s.step q op).dying = true := by
  cases op with
  | queue request => exact dying_queueCommand dead request
  | event cmdTrb code requests =>
    rw [CommandRing.State.step, State.handleCmdCompletion]
    by_cases other : trbVirtToDma s.cmdRing.dequeue = 0 ∨ cmdTrb ≠ trbVirtToDma s.cmdRing.dequeue
    · rcases other with unmapped | other
      · rw [if_pos unmapped]
        exact dead
      · rw [if_pos other, ite_self]
        exact dead
    rw [if_neg (fun unmapped => other (.inl unmapped)), if_neg (fun different => other (.inr different))]
    split
    · exact dead
    rename_i cmd rest _
    by_cases mismatch : cmd.commandTrb ≠ s.cmdRing.dequeue
    · rw [if_pos mismatch]
      exact dead
    by_cases stop : code = compCmdStop
    · rw [if_neg mismatch, if_pos stop]
      exact dying_handleStoppedCmdRing (s := { s with cmdTimer := false }) dead _
    by_cases aborted : code = compCmdAbort ∧ s.status cmd.ptr = compCmdAbort
    · rw [if_neg mismatch, if_neg stop, if_pos aborted]
      exact dead
    · obtain ⟨current, timer, is_restarted, _, _⟩ := restartTimer_eq (requests.foldl (State.queueCommand q) (s.inHandler code))
      rw [if_neg mismatch, if_neg stop, if_neg aborted]
      dsimp only
      rw [is_restarted]
      exact dying_queueAll (s := s.inHandler code) dead
  | expire =>
    rw [CommandRing.State.step]
    split_ifs
    · exact dead
    · exact dead
  | timeout =>
    rw [CommandRing.State.step]
    split_ifs
    · rw [State.handleCommandTimeout]
      dsimp only
      split_ifs
      · rfl
      · exact dying_handleStoppedCmdRing rfl _
    · exact dead
  | cleanup =>
    rw [CommandRing.State.step]
    split_ifs
    · rw [State.cleanupCommandQueue]
      dsimp only
      obtain ⟨status, eq⟩ := cleanup_eq (s := { s with cleanups := s.cleanups - 1 }) rfl
      rw [eq]
      exact dead
    · exact dead
  | reserve =>
    rw [CommandRing.State.step]
    split_ifs
    · exact dead
    · exact dead
  | release => exact dead
  | setCmdRingState state => exact dead
  | die => rfl

variable {s : State}

/-- While the controller is not given up the ring carries the commands on the list. -/
def Carried (s : State) : Prop := s.driver.dying = false → ∃ busy idle c, Carries s.driver s.asked s.ccs busy idle c

theorem Carried.step (carried : Carried s) {busy idle : List TrbPtr} (inv : Inv s.driver busy idle) {op : Op}
    (valid : ∀ ask ∈ op.asks, ask.cmd.Valid) : Carried (s.step q op) := by
  intro alive
  have awake : s.driver.dying = false := by
    refine Bool.eq_false_of_not_eq_true fun dead => ?_
    have after : (s.step q op).driver.dying = true := dying_step dead op.driver
    rw [after] at alive
    exact absurd alive (by decide)
  obtain ⟨busy', idle', c, carries⟩ := carried awake
  -- An operation that touches neither the ring nor the list.
  have stays : ∀ driver : CommandRing.State, driver.cmdRing = s.driver.cmdRing → driver.cmdList = s.driver.cmdList →
      driver.queued = s.driver.queued →
      ∃ busy idle c, Carries driver s.asked (follow driver.cmdRing s.driver.cmdRing.dequeue s.ccs) busy idle c := by
    intro driver ring list number
    rw [follow_same (by rw [ring])]
    exact ⟨busy', idle', c, carries.congr ring list number fun _ _ => rfl⟩
  cases op with
  | queue ask =>
    obtain ⟨⟨busy₁, idle₁, c₁, carries₁⟩, frame⟩ := carries.queueCommand q awake inv.reserved ask (valid ask (by simp [Op.asks]))
    refine ⟨busy₁, idle₁, c₁, ?_⟩
    have still : (s.step q (.queue ask)).ccs = s.ccs := follow_same frame.dequeue s.ccs
    rw [still]
    exact carries₁
  | event cmdTrb code asks => exact carries.handleCmdCompletion q inv awake cmdTrb code valid
  | expire =>
    rw [State.step]
    simp only [Op.driver, CommandRing.State.step]
    split_ifs
    · exact stays _ rfl rfl rfl
    · exact stays _ rfl rfl rfl
  | timeout =>
    rw [State.step] at alive ⊢
    simp only [Op.driver, CommandRing.State.step] at alive ⊢
    split_ifs at alive ⊢
    · -- The handler of the timer gives the controller up.
      have inv' : Inv { s.driver with fired := s.driver.fired - 1 } busy idle :=
        inv.congr rfl rfl rfl rfl rfl rfl rfl rfl rfl inv.reserved
      rw [inv'.handleCommandTimeout.2] at alive
      exact absurd alive (by decide)
    · exact stays _ rfl rfl rfl
  | cleanup =>
    have none : ¬0 < s.driver.cleanups := by rw [(inv.alive awake).2]; decide
    rw [State.step]
    simp only [Op.driver, CommandRing.State.step, if_neg none]
    exact stays _ rfl rfl rfl
  | reserve =>
    rw [State.step]
    simp only [Op.driver, CommandRing.State.step]
    split_ifs
    · exact stays _ rfl rfl rfl
    · exact stays _ rfl rfl rfl
  | release => exact stays _ rfl rfl rfl
  | setCmdRingState state => exact stays _ rfl rfl rfl
  | die => exact absurd (show true = false from alive) (by decide)

theorem carried_new (new : New q s) : Carried s := by
  obtain ⟨⟨ring, status, state, ⟨numSegs, cycleState, type, answers, notEvent, distinct, made, _, _⟩, command, is_driver⟩, start⟩ := new
  have sameCycle : ring.cycleState = cycleState := (queue_ringAlloc notEvent distinct made).2.2.1
  have is_ccs : s.ccs = cycleState := by rw [start, is_driver, sameCycle]
  obtain ⟨busy, idle, c, inv⟩ := RingFifo.inv_new (q := q) (s := ⟨ring, 0, [], s.ccs⟩)
    ⟨numSegs, type, answers, notEvent, distinct, is_ccs ▸ made, rfl, rfl⟩
  intro _
  rw [is_driver]
  refine ⟨busy, idle, c, inv.view, command, ?_, by simp, by simp⟩
  exact Nat.le_trans (Nat.le_add_left ..) inv.room

theorem carried_reachable (reachable : Reachable q s) : Carried s := by
  induction reachable with
  | first new => exact carried_new new
  | step op before ok ih =>
    obtain ⟨⟨busy, idle, inv⟩, _⟩ := CommandRing.inv_reachable (reachable_driver before)
    exact ih.step inv ok.2

/-- A controller finds what is pending, and no more. -/
theorem view_read {r : Ring} {pending : List Trb} {ccs c : Bool} {busy idle : List TrbPtr} (view : View r pending ccs busy idle c)
    (room : 1 ≤ nonlinks idle) {fuel : ℕ} (enough : 64 * r.numSegs ≤ fuel) :
    ∃ taken stop, consumer r fuel ccs = some (taken, stop) ∧ taken.Nodup ∧ contents r taken = pending := by
  by_cases overtaken : Overtaken r
  · -- Nothing is busy, and the TRB behind the link at `enqueue` is free.
    obtain ⟨rfl, onLink, behind⟩ := behind_of view.queue overtaken room
    refine ⟨[], r.dequeue, ?_, List.nodup_nil, view.pending⟩
    have free := view.phased.free
    have shape := view.queue.shape
    obtain ⟨rest, rfl⟩ := view.queue.idle_eq
    have some_left : rest ≠ [] := by
      rintro rfl
      simp [nonlinks_cons, onLink] at room
    obtain ⟨p, rest, rfl⟩ := List.exists_cons_of_ne_nil some_left
    have is_p : p = r.dequeue := by
      have leads := shape.isLap.next_eq
      rw [behind]
      simpa using leads
    subst is_p
    have unmarked : cycleAt r r.dequeue ≠ ccs := by
      have state : c = r.cycleState := view.phased.cycleState
      rw [view.ccs_behind overtaken, free.2.1, state]
      cases r.cycleState <;> cases flipsAt r r.enqueue <;> decide
    obtain ⟨fuel, rfl⟩ := Nat.exists_eq_add_of_lt (show 0 < fuel by have := shape.size; simp at this; omega)
    rw [consumer, Nat.zero_add, consume, if_neg unmarked]
  · obtain ⟨taken, takes, distinct, contains⟩ := view.fifo overtaken 0 fuel enough
    exact ⟨taken, _, takes, distinct, contains⟩

/-- The cycle bit does not matter to the driver. -/
theorem handler_setCycle (t : Trb) (cycle completion : Bool) (flags : BitVec 32) :
    handler (t.setCycle cycle) completion flags = handler t completion flags := by
  have same : ∀ {low width : ℕ}, 0 < low → Fields.get low width (t.setCycle cycle).field3 = Fields.get low width t.field3 := by
    intro low width above
    apply BitVec.eq_of_getLsbD_eq
    intro i _
    rw [Fields.getLsbD_get, Fields.getLsbD_get]
    by_cases inside : low + i < 32
    · have other : Trb.trbCycle[low + i] = false := by
        rw [← BitVec.getLsbD_eq_getElem inside, show Trb.trbCycle = Fields.ones 32 1 from rfl, Fields.getLsbD_ones]
        simp [show ¬low + i < 1 by omega]
      cases cycle <;> simp [Trb.setCycle, other, inside]
    · simp [BitVec.getLsbD_of_ge _ _ (Nat.le_of_not_lt inside)]
  simp only [handler, trbFieldToType_eq, trbToEpIndex_eq, trbToSuspendPort_eq, trbToSlotId_eq (t.setCycle cycle).field3,
    trbToSlotId_eq t.field3, same (show 0 < 10 by decide), same (show 0 < 16 by decide), same (show 0 < 23 by decide),
    same (show 0 < 24 by decide)]
  rfl

/-- What the controller and the driver make of the command ring: the controller finds the
    commands on the list as they were asked for, in their order and each once; and when the
    first one has its event, the driver calls the handler that this command is meant for. -/
structure Understood (s : State) : Prop where
  read : ∀ fuel, 64 * s.driver.cmdRing.numSegs ≤ fuel → ∃ taken stop,
    consumer s.driver.cmdRing fuel s.ccs = some (taken, stop) ∧ taken.Nodup ∧
    (contents s.driver.cmdRing taken).map readCommand = s.driver.cmdList.map fun cmd => some (s.asked cmd.seq)
  handled : ∀ cmd rest, s.driver.cmdList = cmd :: rest → cmd.commandTrb = s.driver.cmdRing.dequeue →
    ∀ flags, (∀ slotId ∈ (s.asked cmd.seq).slotId, trbToSlotId flags = slotId) →
      handler (s.driver.cmdRing.trb s.driver.cmdRing.dequeue) cmd.completion flags =
        (s.asked cmd.seq).handler cmd.completion (trbToSlotId flags)

theorem commands_read (reachable : Reachable q s) (alive : s.driver.dying = false) : Understood s := by
  obtain ⟨busy, idle, c, carries⟩ := carried_reachable reachable alive
  obtain ⟨⟨_, _, inv⟩, _⟩ := CommandRing.inv_reachable (reachable_driver reachable)
  refine ⟨?_, ?_⟩
  · intro fuel enough
    obtain ⟨taken, stop, takes, distinct, contains⟩ := view_read carries.view carries.room enough
    refine ⟨taken, stop, takes, distinct, ?_⟩
    rw [contains, List.map_map]
    exact List.map_congr_left fun cmd member => readCommand_trb (carries.valid cmd member)
  · intro cmd rest is_list here flags answered
    have member : cmd ∈ s.driver.cmdList := is_list ▸ List.mem_cons_self ..
    have plain := inv.trb_idx member
    rw [here] at plain
    have view := carries.view
    rw [is_list, List.map_cons] at view
    have queue := view.queue
    cases busy with
    | nil => exact absurd view.pending (by simp [contents])
    | cons x busy =>
      have notLink : (s.driver.cmdRing.trb s.driver.cmdRing.dequeue).isLink = false := by
        simpa using mt (queue.shape.links _ (by simp [queue.first_busy])).mp plain
      have pending := view.pending
      rw [queue.first_busy, ← List.singleton_append, contents_append, contents_plain notLink, List.singleton_append] at pending
      have first := (List.cons.inj pending).1
      rw [← handler_setCycle _ false, first]
      exact handler_trb (carries.valid cmd member) cmd.completion answered

end

/-- A device is addressed, one of its endpoints is stopped, and its ring is moved. -/
def cancelRun : List Op := [
  .queue ⟨.addressDevice 0x2400 1 false, 0, false, true, false⟩, .event 0x1000 1 [],
  .queue ⟨.stopEndpoint 1 2 false, 1, true, false, false⟩,
  .event 0x1010 1 [⟨.newDequeueState 1 2 0 0x3010 true, 2, true, false, false⟩]]

theorem commands_read_cancelRun :
    (cancelRun.foldl (State.step ⟨false, false⟩) ⟨started, fun _ => .enableSlot, true⟩).driver.cmdList.length = 1 ∧
    Understood (cancelRun.foldl (State.step ⟨false, false⟩) ⟨started, fun _ => .enableSlot, true⟩) := by
  refine ⟨by decide +kernel, commands_read (q := ⟨false, false⟩) ?_ (by decide +kernel)⟩
  refine Run.Reachable.all (.first ⟨started_new, by decide +kernel⟩) ?_
  decide +kernel

end Ehub.CommandsRead
