import Mathlib
import Ehub.Run
import Ehub.RingAccount
import Ehub.Cancel

/-!
The command ring and the list of queued commands (`queue_command`,
`handle_cmd_completion`, the command timer). A command is a TRB on the command ring and
an entry of `cmd_list`; an event for the TRB at `dequeue` completes the first entry. The
timer watches the first command. When it fires, the controller is given up: the ring is
marked as aborted and every queued command is completed, or, on a stopped ring, the
command that was watched is turned into a no-op.

The memory of a command has a status, which is zero when the command is allocated and is
written when the command is completed or timed out. A command that is queued again still
has the status of its last use.
-/
namespace Ehub.CommandRing
open Ehub.Ring Ehub.RingShape Ehub.RingAccount Ehub.Cancel

def compCmdStop : Nat := 24
def compCmdAbort : Nat := 25
def trbCmdNoop : BitVec 32 := 23
/-- `MAX_RSVD_CMD_TRBS`. -/
def maxRsvdCmdTrbs : Nat := trbsPerSegment - 3

/-- The type is `TRB_CMD_NOOP`. -/
def isCmdNoop (t : Trb) : Bool := t.field3 &&& Trb.trbTypeBitmask == Trb.trbType trbCmdNoop

/-- What becomes of the TRB of a command that was timed out: only the cycle bit stays. -/
def toCmdNoop (t : Trb) : Trb := ⟨0, 0, 0, Trb.trbType trbCmdNoop ||| (t.field3 &&& Trb.trbCycle)⟩

/-- An entry of `cmd_list`: the `seq`-th command that was queued, where its memory is, its
    TRB, and whether somebody waits for it. -/
structure Command where
  seq : Nat
  ptr : Nat
  commandTrb : TrbPtr
  completion : Bool
deriving DecidableEq

/-- Why a command was completed. -/
inductive Cause where
  | event (cmdTrb : BitVec 64) (code : Nat)
  | cleanup
deriving DecidableEq

structure Completed where
  command : Command
  status : Nat
  cause : Cause
deriving DecidableEq

inductive CmdRingState where
  | running | aborted | stopped
deriving DecidableEq

/-- The driver's state that concerns commands. `fired` counts the runs of the timer's handler
    that are to come, `cleanups` those that have left the lock and will clean up the list;
    the last four fields record what happened. -/
structure State where
  cmdRing : Ring
  cmdList : List Command
  currentCmd : Option Nat
  cmdTimer : Bool
  cmdRingState : CmdRingState
  cmdRingReservedTrbs : Nat
  dying : Bool
  status : Nat → Nat
  fired : Nat
  cleanups : Nat
  queued : Nat
  completed : List Completed
  timedOut : List Nat
  turned : List Nat

/-- What is passed to `queue_command`: the command, newly allocated or not, and its TRB. -/
structure Request where
  ptr : Nat
  fresh : Bool
  completion : Bool
  trb : Trb
  mustSucceed : Bool

namespace State

def setStatus (s : State) (ptr status : Nat) : State := { s with status := Function.update s.status ptr status }

/-- `mod_timer`. -/
def modTimer (s : State) : State := { s with cmdTimer := true }

/-- `queue_command`. -/
def queueCommand (q : Quirks) (s : State) (request : Request) : State :=
  let s := if request.fresh then s.setStatus request.ptr 0 else s
  if s.dying then s
  else
    let reservedTrbs := if request.mustSucceed then s.cmdRingReservedTrbs else s.cmdRingReservedTrbs + 1
    match s.cmdRing.prepareRing q 1 reservedTrbs [] 0 with
    | (ret, ring) =>
      if ret < 0 then { s with cmdRing := ring }
      else
        let cmd : Command := ⟨s.queued, request.ptr, ring.enqueue, request.completion⟩
        let first := s.cmdList.isEmpty && !s.cmdTimer
        let field3 := request.trb.field3 ||| (if ring.cycleState then Trb.trbCycle else 0)
        { s with
          cmdList := s.cmdList ++ [cmd]
          currentCmd := if first then some request.ptr else s.currentCmd
          cmdTimer := s.cmdTimer || first
          cmdRing := ring.queueTrb q false { request.trb with field3 := field3 }
          queued := s.queued + 1 }

/-- `xhci_complete_del_and_free_cmd` for the first command; one that nobody waits for is
    freed. -/
def complete (s : State) (cmd : Command) (status : Nat) (cause : Cause) : State :=
  { s with
    cmdList := s.cmdList.erase cmd
    status := if cmd.completion then Function.update s.status cmd.ptr status else s.status
    completed := s.completed ++ [⟨cmd, status, cause⟩] }

/-- `ehub_xhci_cleanup_command_queue`. -/
def cleanupCommandQueue (s : State) : State := s.cmdList.foldl (fun s cmd => s.complete cmd compCmdAbort .cleanup) s

/-- The body of the loop in `xhci_handle_stopped_cmd_ring`. -/
def turnToNoop (s : State) (cmd : Command) : State :=
  if s.status cmd.ptr ≠ compCmdAbort then s
  else
    { s.setStatus cmd.ptr compCmdStop with
      cmdRing := s.cmdRing.modifyTrb cmd.commandTrb toCmdNoop
      turned := s.turned ++ [cmd.seq] }

/-- `xhci_handle_stopped_cmd_ring`. -/
def handleStoppedCmdRing (s : State) (curCmd : Option Nat) : State :=
  let s := { s.cmdList.foldl turnToNoop s with cmdRingState := .running }
  if s.cmdRing.dequeue ≠ s.cmdRing.enqueue ∧ s.dying = false then { s with currentCmd := curCmd }.modTimer else s

/-- `ehub_xhci_handle_command_timeout`, up to where it leaves the lock. The watched command
    need not be on the list any more. -/
def handleCommandTimeout (s : State) : State :=
  let s := { s with
    status := match s.currentCmd with | some ptr => Function.update s.status ptr compCmdAbort | none => s.status
    timedOut := s.timedOut ++ (s.cmdList.filter fun cmd : Command => some cmd.ptr = s.currentCmd).map Command.seq
    dying := true }
  if s.cmdRingState = .running then { s with cmdRingState := .aborted, cleanups := s.cleanups + 1 }
  else s.handleStoppedCmdRing s.currentCmd

/-- The end of `handle_cmd_completion`. -/
def eventHandled (s : State) (cmd : Command) (cmdTrb : BitVec 64) (code status : Nat) : State :=
  let s := s.complete cmd status (.event cmdTrb code)
  { s with cmdRing := s.cmdRing.incDeq }

/-- The timer is restarted for the command behind the first one. -/
def restartTimer (s : State) : State :=
  match s.cmdList with
  | _ :: next :: _ => { s with currentCmd := some next.ptr }.modTimer
  | _ => s

/-- The state in which the handler of the first command runs: the timer is deleted, and
    `COMP_CMD_ABORT` means that the ring has stopped. -/
def inHandler (s : State) (code : Nat) : State :=
  { s with cmdTimer := false, cmdRingState := if code = compCmdAbort then .stopped else s.cmdRingState }

/-- `handle_cmd_completion`; the handler of the command queues `requests`. -/
def handleCmdCompletion (q : Quirks) (s : State) (cmdTrb : BitVec 64) (code : Nat) (requests : List Request) : State :=
  if trbVirtToDma s.cmdRing.dequeue = 0 then s
  else if cmdTrb ≠ trbVirtToDma s.cmdRing.dequeue then s
  else
    match s.cmdList with
    -- The list head is taken for a command. Where its TRB would be is `cmd_ring_state`, so it does not match.
    | [] => s
    | cmd :: _ =>
      if cmd.commandTrb ≠ s.cmdRing.dequeue then s
      else if code = compCmdStop then { s with cmdTimer := false }.handleStoppedCmdRing (some cmd.ptr)
      else if code = compCmdAbort ∧ s.status cmd.ptr = compCmdAbort then (s.inHandler code).eventHandled cmd cmdTrb code code
      else
        let status :=
          if isCmdNoop (s.cmdRing.trb s.cmdRing.dequeue) ∧ s.status cmd.ptr = compCmdStop then compCmdStop else code
        (requests.foldl (queueCommand q) (s.inHandler code)).restartTimer.eventHandled cmd cmdTrb code status

end State

inductive Op where
  | queue (request : Request)
  | event (cmdTrb : BitVec 64) (code : Nat) (requests : List Request)
  | expire
  | timeout
  | cleanup
  | reserve
  | release
  | setCmdRingState (state : CmdRingState)
  | die

def State.step (q : Quirks) (s : State) : Op → State
  | .queue request => s.queueCommand q request
  | .event cmdTrb code requests => s.handleCmdCompletion q cmdTrb code requests
  -- The timer goes off; its handler will run.
  | .expire => if s.cmdTimer then { s with cmdTimer := false, fired := s.fired + 1 } else s
  | .timeout => if 0 < s.fired then { s with fired := s.fired - 1 }.handleCommandTimeout else s
  | .cleanup => if 0 < s.cleanups then { s with cleanups := s.cleanups - 1 }.cleanupCommandQueue else s
  -- Streams of an endpoint are allocated and freed.
  | .reserve => if s.cmdRingReservedTrbs = maxRsvdCmdTrbs then s else { s with cmdRingReservedTrbs := s.cmdRingReservedTrbs + 1 }
  | .release => { s with cmdRingReservedTrbs := s.cmdRingReservedTrbs - 1 }
  | .setCmdRingState state => { s with cmdRingState := state }
  -- `XHCI_STATE_DYING` is set for another reason.
  | .die => { s with dying := true }

/-- A command is not queued while it is on the list, and its TRB is neither a link nor a
    no-op. -/
def Request.Allowed (s : State) (request : Request) : Prop :=
  (∀ cmd ∈ s.cmdList, cmd.ptr ≠ request.ptr) ∧ request.trb.isLink = false ∧ isCmdNoop request.trb = false

/-- What the handler of a command queues, it queues one after the other. Only streams that
    were allocated are freed, so one TRB stays reserved. -/
def Op.Allowed (q : Quirks) (s : State) : Op → Prop
  | .queue request => request.Allowed s
  | .event _ code requests => Run.Allows (fun s r => r.Allowed s) (State.queueCommand q) (s.inHandler code) requests
  | .release => 1 < s.cmdRingReservedTrbs
  | _ => True

/-- A command that is queued has not kept the status `COMP_CMD_ABORT` from an earlier use. -/
def Request.Reset (s : State) (request : Request) : Prop := request.fresh = false → s.status request.ptr ≠ compCmdAbort

def Reset (q : Quirks) (s : State) : Op → Prop
  | .queue request => request.Reset s
  | .event _ code requests => Run.Allows (fun s r => r.Reset s) (State.queueCommand q) (s.inHandler code) requests
  | _ => True

/-- A command ring as `xhci_ring_alloc` makes it, no command, and one TRB reserved. -/
def New (q : Quirks) (s : State) : Prop :=
  ∃ ring status state, RingAccount.New q ⟨ring, 0, 0⟩ ∧ ring.type = .command ∧
    s = ⟨ring, [], none, false, state, 1, false, status, 0, 0, 0, [], [], []⟩

def Reachable (q : Quirks) (condition : State → Op → Prop) (s : State) : Prop :=
  Run.Reachable (New q) (fun s op => op.Allowed q s ∧ condition s op) (State.step q) s

instance (s : State) (request : Request) : Decidable (request.Allowed s) := inferInstanceAs (Decidable (_ ∧ _))

instance (s : State) (request : Request) : Decidable (request.Reset s) := inferInstanceAs (Decidable (_ → _))

instance (q : Quirks) (s : State) : (op : Op) → Decidable (op.Allowed q s)
  | .queue request => inferInstanceAs (Decidable (request.Allowed s))
  | .event _ code requests =>
    inferInstanceAs (Decidable (Run.Allows (fun s r => r.Allowed s) (State.queueCommand q) (s.inHandler code) requests))
  | .release => inferInstanceAs (Decidable (_ < _))
  | .expire | .timeout | .cleanup | .reserve | .setCmdRingState _ | .die => .isTrue trivial

instance (q : Quirks) (s : State) : (op : Op) → Decidable (Reset q s op)
  | .queue request => inferInstanceAs (Decidable (request.Reset s))
  | .event _ code requests =>
    inferInstanceAs (Decidable (Run.Allows (fun s r => r.Reset s) (State.queueCommand q) (s.inHandler code) requests))
  | .release | .expire | .timeout | .cleanup | .reserve | .setCmdRingState _ | .die => .isTrue trivial

/-! ### The command ring -/

/-- The TRBs of a stretch that are not the last of their segment. -/
def inner (l : List TrbPtr) : List TrbPtr := l.filter fun p => p.idx ≠ 63

@[simp] theorem inner_append (l m : List TrbPtr) : inner (l ++ m) = inner l ++ inner m := List.filter_append ..

theorem inner_links {l : List TrbPtr} (links : ∀ p ∈ l, p.idx = 63) : inner l = [] := by
  rw [inner, List.filter_eq_nil_iff]
  intro p member
  simp [links p member]

theorem isCmdNoop_or (t : Trb) (c : Bool) :
    isCmdNoop { t with field3 := t.field3 ||| (if c then Trb.trbCycle else 0) } = isCmdNoop t := by
  cases c
  · simp [isCmdNoop]
  · simp [isCmdNoop, Trb.or_and_of_disjoint (show Trb.trbCycle &&& Trb.trbTypeBitmask = 0 from rfl)]

theorem isLink_or (t : Trb) (c : Bool) :
    Trb.isLink { t with field3 := t.field3 ||| (if c then Trb.trbCycle else 0) } = t.isLink := by
  cases c
  · simp [Trb.isLink]
  · simp [Trb.isLink, Trb.or_and_of_disjoint (show Trb.trbCycle &&& Trb.trbTypeBitmask = 0 from rfl)]

theorem isLink_toCmdNoop (t : Trb) : (toCmdNoop t).isLink = false := by
  have cleared : (t.field3 &&& Trb.trbCycle) &&& Trb.trbTypeBitmask = 0 := by
    rw [BitVec.and_assoc]
    simp [Trb.trbCycle, Trb.trbTypeBitmask]
  simp only [toCmdNoop, Trb.isLink, BitVec.and_or_distrib_right, cleared]
  decide

section
variable {r : Ring} {busy idle : List TrbPtr}

/-- `prepare_ring` on a command ring refuses, or leaves `enqueue` before as many free TRBs as
    it was asked for. -/
theorem prepareRing_command (q : Quirks) (queue : Queue r busy idle) (command : r.type = .command)
    (room : 1 ≤ nonlinks idle) (n : Nat) :
    (∃ e < 0, r.prepareRing q 1 n [] 0 = (e, r)) ∨
    ∃ r' busy' idle', r.prepareRing q 1 n [] 0 = (0, r') ∧ Queue r' busy' idle' ∧ r'.type = .command ∧
      r'.dequeue = r.dequeue ∧ inner busy' = inner busy ∧ r'.enqueue.idx ≠ 63 ∧ n + 1 ≤ nonlinks idle' ∧
      ∀ p : TrbPtr, p.idx ≠ 63 → r'.trb p = r.trb p := by
  rw [Ring.prepareRing, if_neg (by decide), makeRoom]
  by_cases enough : r.numTrbsNeeded n < 1
  · right
    rw [if_pos enough]
    have free := (numTrbsNeeded_lt (by simp [command]) n).mp enough
    have count := queue.idle_count
    have noSlack : slack r = 0 := by simp [slack, command]
    have left : n + 1 ≤ nonlinks idle := by omega
    by_cases onLink : (r.trb r.enqueue).isLink = true
    · have last := (queue.shape.links _ queue.enqueue_mem).mp onLink
      have notCached : ¬(ehubCacheRing r.type = true ∧ (0 : Int) < 0) := by omega
      simp only [onLink, if_true]
      rw [handOver_eq q 0 queue.shape queue.enqueue_mem last, if_neg notCached]
      obtain ⟨rest, rfl⟩ := queue.idle_eq
      rw [nonlinks_cons, if_neg (by simp [last])] at left
      have some_left : rest ≠ [] := by
        rintro rfl
        simp at left
      have is_handed : handedOver q r = RingShape.linkGiven r (handed q r.type (r.trb r.enqueue)) := by
        simp [handedOver, command, ehubCacheRing]
      have same : ∀ p : TrbPtr, p.idx ≠ 63 → (handedOver q r).trb p = r.trb p := by
        intro p noLink
        have different : p ≠ r.enqueue := by
          rintro rfl
          exact noLink last
        rw [is_handed]
        show (r.setTrb r.enqueue _).trb p = _
        rw [trb_setTrb, if_neg different]
      have start : (handedOver q r).enqueue.idx ≠ 63 := by
        rw [is_handed]
        simp [RingShape.linkGiven]
      have type : (handedOver q r).type = .command := by
        rw [is_handed]
        exact command
      have dequeue : (handedOver q r).dequeue = r.dequeue := by
        rw [is_handed]
        rfl
      obtain ⟨goesOn, catchesUp⟩ := queue.handedOver q last some_left
      rcases queue.dequeue with inOrder | ⟨rfl, _, behind⟩
      · refine ⟨_, _, _, rfl, goesOn inOrder, type, dequeue, ?_, start, by simpa using left, same⟩
        simp [inner, last]
      · refine ⟨_, _, _, rfl, catchesUp rfl behind, type, dequeue, rfl, start, ?_, same⟩
        simpa [nonlinks_cons, last] using left
    · have plain : r.enqueue.idx ≠ 63 := fun last => onLink ((queue.shape.links _ queue.enqueue_mem).mpr last)
      simp only [onLink]
      exact ⟨r, busy, idle, rfl, queue, command, rfl, rfl, plain, left, fun _ _ => rfl⟩
  · left
    rw [if_neg enough]
    exact ⟨-eNOMEM, by decide, rfl⟩

/-- `queue_trb` on a prepared command ring. -/
theorem queueTrb_command (q : Quirks) (queue : Queue r busy idle) (plain : r.enqueue.idx ≠ 63) (room : 2 ≤ nonlinks idle)
    {t : Trb} (noLink : t.isLink = false) :
    ∃ busy' idle', Queue (r.queueTrb q false t) busy' idle' ∧ (r.queueTrb q false t).type = r.type ∧
      (r.queueTrb q false t).dequeue = r.dequeue ∧ inner busy' = inner busy ++ [r.enqueue] ∧ 1 ≤ nonlinks idle' ∧
      ∀ p : TrbPtr, p.idx ≠ 63 → (r.queueTrb q false t).trb p = if p = r.enqueue then t else r.trb p := by
  obtain ⟨rest, rfl⟩ := queue.idle_eq
  rw [nonlinks_cons, if_pos plain] at room
  have put : ∀ p, (stored r t).trb p = if p = r.enqueue then t else r.trb p := fun p => trb_setTrb r r.enqueue p t
  rcases queue.queueTrb_cases q plain false noLink (by omega) with ⟨eq, next, _⟩ | ⟨rest', rfl, onLink, eq, _, next⟩
  · refine ⟨_, _, eq ▸ next, ?_, ?_, ?_, by omega, ?_⟩
    · rw [eq]
      rfl
    · rw [eq]
      rfl
    · simp [inner, plain]
    · intro p _
      rw [eq]
      exact put p
  · rw [nonlinks_cons, if_neg (by simp [onLink])] at room
    refine ⟨_, _, next, ?_, ?_, ?_, by omega, ?_⟩
    · rw [eq]
      rfl
    · rw [eq]
      rfl
    · simp [inner, plain, onLink]
    · intro p inside
      have different : p ≠ (stored r t).enqueue := by
        rintro rfl
        exact inside onLink
      rw [eq, ← put p]
      show ((stored r t).setTrb _ _).trb p = _
      rw [trb_setTrb, if_neg different]

/-- `inc_deq` passes the first TRB. -/
theorem incDeq_command (queue : Queue r busy idle) {first : TrbPtr} {rest : List TrbPtr} (is_inner : inner busy = first :: rest)
    (here : first = r.dequeue) : ∃ busy' idle', Queue r.incDeq busy' idle' ∧ r.incDeq.type = r.type ∧
      inner busy' = rest ∧ nonlinks idle ≤ nonlinks idle' ∧ ∀ p, r.incDeq.trb p = r.trb p := by
  cases busy with
  | nil => simp [inner] at is_inner
  | cons x busy =>
    have is_x := queue.first_busy
    have member : first ∈ inner (x :: busy) := by simp [is_inner]
    have plain : x.idx ≠ 63 := by
      rw [is_x, ← here]
      simpa using (List.mem_filter.mp member).2
    have eq := incDeq_eq queue.shape (show r.dequeue ∈ x :: busy ++ idle by simp [is_x])
    obtain ⟨links, rest', rfl, areLinks, next⟩ := queue.incDeq
    refine ⟨rest', _, next, by rw [eq], ?_, by simp, fun p => by rw [eq]⟩
    have split : inner (x :: (links ++ rest')) = x :: inner rest' := by
      rw [inner, List.filter_cons, if_pos (by simpa using plain)]
      exact congrArg (x :: ·) (by rw [← inner, inner_append, inner_links areLinks, List.nil_append])
    rw [split] at is_inner
    exact (List.cons.inj is_inner).2

end

/-! ### The list follows the ring -/

/-- A command that is completed by an event gets the code of an event for its own TRB, or
    `COMP_CMD_STOP` if it was timed out and turned into a no-op; one that is cleaned up gets
    `COMP_CMD_ABORT`. -/
def Completed.Fair (timedOut turned : List Nat) (c : Completed) : Prop :=
  match c.cause with
  | .event cmdTrb code => cmdTrb = trbVirtToDma c.command.commandTrb ∧
      (c.status = code ∨ (c.status = compCmdStop ∧ c.command.seq ∈ timedOut ∧ c.command.seq ∈ turned))
  | .cleanup => c.status = compCmdAbort

/-- The commands on the list have the TRBs of the ring, one after the other; after a clean-up
    some TRBs have no command, and none is queued any more. -/
structure Inv (s : State) (busy idle : List TrbPtr) : Prop where
  queue : Queue s.cmdRing busy idle
  type : s.cmdRing.type = .command
  room : 1 ≤ nonlinks idle
  reserved : 1 ≤ s.cmdRingReservedTrbs
  aligned : s.cmdList.map Command.commandTrb <+: inner busy
  all : s.dying = false → s.cmdList.map Command.commandTrb = inner busy
  once : s.completed.map (·.command.seq) ++ s.cmdList.map Command.seq = List.range s.queued
  distinct : (s.cmdList.map Command.ptr).Nodup
  aborted : ∀ cmd ∈ s.cmdList, s.status cmd.ptr = compCmdAbort → cmd.seq ∈ s.timedOut
  noop : ∀ cmd ∈ s.cmdList, isCmdNoop (s.cmdRing.trb cmd.commandTrb) = true → cmd.seq ∈ s.timedOut ∧ cmd.seq ∈ s.turned
  fair : ∀ c ∈ s.completed, c.Fair s.timedOut s.turned
  alive : s.dying = false → s.timedOut = [] ∧ s.cleanups = 0

section
variable {s : State} {busy idle : List TrbPtr}

theorem Inv.inner_mem (inv : Inv s busy idle) {cmd : Command} (member : cmd ∈ s.cmdList) :
    cmd.commandTrb ∈ inner busy :=
  inv.aligned.subset (List.mem_map_of_mem member)

theorem Inv.trb_idx (inv : Inv s busy idle) {cmd : Command} (member : cmd ∈ s.cmdList) : cmd.commandTrb.idx ≠ 63 := by
  simpa using (List.mem_filter.mp (inv.inner_mem member)).2

theorem Inv.busy_nodup (inv : Inv s busy idle) : (busy ++ idle).Nodup := inv.queue.shape.isLap.1

/-- Only the ring, the list and what is recorded matter. -/
theorem Inv.congr (inv : Inv s busy idle) {s' : State} (cmdRing : s'.cmdRing = s.cmdRing) (cmdList : s'.cmdList = s.cmdList)
    (dying : s'.dying = s.dying) (status : s'.status = s.status) (queued : s'.queued = s.queued)
    (completed : s'.completed = s.completed) (timedOut : s'.timedOut = s.timedOut) (turned : s'.turned = s.turned)
    (cleanups : s'.cleanups = s.cleanups) (reserved : 1 ≤ s'.cmdRingReservedTrbs) : Inv s' busy idle := by
  constructor
  · exact cmdRing ▸ inv.queue
  · exact cmdRing ▸ inv.type
  · exact inv.room
  · exact reserved
  · exact cmdList ▸ inv.aligned
  · rw [dying, cmdList]
    exact inv.all
  · rw [completed, cmdList, queued]
    exact inv.once
  · exact cmdList ▸ inv.distinct
  · rw [cmdList, status, timedOut]
    exact inv.aborted
  · rw [cmdList, cmdRing, timedOut, turned]
    exact inv.noop
  · rw [completed, timedOut, turned]
    exact inv.fair
  · rw [dying, timedOut, cleanups]
    exact inv.alive

/-- The status of a command that is not on the list does not matter. -/
theorem Inv.setStatus (inv : Inv s busy idle) {ptr : Nat} (off : ∀ cmd ∈ s.cmdList, cmd.ptr ≠ ptr) (status : Nat) :
    Inv (s.setStatus ptr status) busy idle := by
  refine ⟨inv.queue, inv.type, inv.room, inv.reserved, inv.aligned, inv.all, inv.once, inv.distinct, ?_, inv.noop, inv.fair,
    inv.alive⟩
  intro cmd member
  simp only [State.setStatus, Function.update_of_ne (off cmd member)]
  exact inv.aborted cmd member

/-- What `queue_command` does to the list, the timer and the flags. -/
structure Queued (request : Request) (s s' : State) : Prop where
  cmdList : s'.cmdList = s.cmdList ∨ ∃ trb, s'.cmdList = s.cmdList ++ [⟨s.queued, request.ptr, trb, request.completion⟩]
  dequeue : s'.cmdRing.dequeue = s.cmdRing.dequeue
  dying : s'.dying = s.dying
  fired : s'.fired = s.fired
  completed : s'.completed = s.completed
  timedOut : s'.timedOut = s.timedOut
  turned : s'.turned = s.turned
  status : ∀ ptr, ptr ≠ request.ptr → s'.status ptr = s.status ptr
  timer : (s'.cmdTimer = s.cmdTimer ∧ s'.currentCmd = s.currentCmd ∧
      (s'.cmdList = s.cmdList ∨ s.cmdList ≠ [] ∨ s.cmdTimer = true)) ∨
    (s.cmdList = [] ∧ s'.cmdList ≠ [] ∧ s'.cmdTimer = true ∧ s'.currentCmd = some request.ptr)

/-- A command whose TRB was queued at the end of the ring joins the list. -/
theorem Inv.join (inv : Inv s busy idle) {busy' idle' : List TrbPtr} {ring : Ring} {cmd : Command} {current : Option Nat}
    {timer : Bool} (awake : s.dying = false) (queue : Queue ring busy' idle') (type : ring.type = .command)
    (room : 1 ≤ nonlinks idle') (ends : inner busy' = inner busy ++ [cmd.commandTrb])
    (trbs : ∀ p : TrbPtr, p ∈ inner busy → isCmdNoop (ring.trb p) = isCmdNoop (s.cmdRing.trb p))
    (plain : isCmdNoop (ring.trb cmd.commandTrb) = false) (seq : cmd.seq = s.queued)
    (off : ∀ c ∈ s.cmdList, c.ptr ≠ cmd.ptr) (reset : s.status cmd.ptr ≠ compCmdAbort) :
    Inv { s with
      cmdList := s.cmdList ++ [cmd], currentCmd := current, cmdTimer := timer, cmdRing := ring, queued := s.queued + 1 }
      busy' idle' := by
  have same : (s.cmdList ++ [cmd]).map Command.commandTrb = inner busy' := by
    rw [ends, ← inv.all awake, List.map_append]
    rfl
  constructor
  · exact queue
  · exact type
  · exact room
  · exact inv.reserved
  · exact same ▸ List.prefix_refl _
  · exact fun _ => same
  · rw [List.map_append, ← List.append_assoc, inv.once, List.range_succ, List.map_singleton, seq]
  · rw [List.map_append, List.map_singleton, List.nodup_append]
    refine ⟨inv.distinct, by simp, ?_⟩
    intro ptr member ptr' single
    obtain ⟨c, inList, rfl⟩ := List.mem_map.mp member
    rw [List.mem_singleton.mp single]
    exact off c inList
  · intro c member isAborted
    rcases List.mem_append.mp member with old | new
    · exact inv.aborted c old isAborted
    · rw [List.mem_singleton.mp new] at isAborted
      exact absurd isAborted reset
  · intro c member isNoop
    rcases List.mem_append.mp member with old | new
    · rw [trbs _ (inv.inner_mem old)] at isNoop
      exact inv.noop c old isNoop
    · rw [List.mem_singleton.mp new, plain] at isNoop
      exact absurd isNoop (by simp)
  · exact inv.fair
  · exact inv.alive

theorem Inv.queueCommand (inv : Inv s busy idle) (q : Quirks) {request : Request} (allowed : request.Allowed s)
    (reset : request.Reset s) : (∃ busy' idle', Inv (s.queueCommand q request) busy' idle') ∧
      Queued request s (s.queueCommand q request) := by
  obtain ⟨off, noLink, noNoop⟩ := allowed
  -- The state with the status of a newly allocated command.
  set s₀ := if request.fresh then s.setStatus request.ptr 0 else s with is_s₀
  have inv₀ : Inv s₀ busy idle := by
    rw [is_s₀]
    split_ifs
    · exact inv.setStatus off 0
    · exact inv
  have clear : s₀.status request.ptr ≠ compCmdAbort := by
    rw [is_s₀]
    split_ifs with fresh
    · simp [State.setStatus, compCmdAbort]
    · exact reset (Bool.eq_false_iff.mpr fresh)
  have refl : Queued request s s₀ := by
    rw [is_s₀]
    split_ifs
    · exact ⟨.inl rfl, rfl, rfl, rfl, rfl, rfl, rfl, fun ptr other => Function.update_of_ne other .., .inl ⟨rfl, rfl, .inl rfl⟩⟩
    · exact ⟨.inl rfl, rfl, rfl, rfl, rfl, rfl, rfl, fun _ _ => rfl, .inl ⟨rfl, rfl, .inl rfl⟩⟩
  have list₀ : s₀.cmdList = s.cmdList ∧ s₀.cmdTimer = s.cmdTimer ∧ s₀.currentCmd = s.currentCmd ∧ s₀.queued = s.queued := by
    rw [is_s₀]
    split_ifs <;> exact ⟨rfl, rfl, rfl, rfl⟩
  obtain ⟨list, timer, current, queued⟩ := list₀
  rw [State.queueCommand]
  simp only [← is_s₀]
  by_cases dead : s₀.dying = true
  · rw [if_pos dead]
    exact ⟨⟨busy, idle, inv₀⟩, refl⟩
  rw [if_neg dead]
  have awake : s₀.dying = false := Bool.eq_false_iff.mpr dead
  have asks : 1 ≤ if request.mustSucceed = true then s₀.cmdRingReservedTrbs else s₀.cmdRingReservedTrbs + 1 := by
    have := inv₀.reserved
    split_ifs <;> omega
  generalize (if request.mustSucceed = true then s₀.cmdRingReservedTrbs else s₀.cmdRingReservedTrbs + 1) = n at asks ⊢
  rcases prepareRing_command q inv₀.queue inv₀.type inv₀.room n with
    ⟨e, negative, result⟩ | ⟨ring, busy', idle', result, queue', type', dequeue', same, plain, left, trbs⟩
  · simp only [result, negative, if_true]
    exact ⟨⟨busy, idle, inv₀⟩, refl⟩
  · simp only [result, lt_self_iff_false, if_false]
    have kept := isLink_or request.trb ring.cycleState
    have kept' := isCmdNoop_or request.trb ring.cycleState
    generalize ({ request.trb with field3 := request.trb.field3 ||| (if ring.cycleState = true then Trb.trbCycle else 0) } : Trb) = t
      at kept kept' ⊢
    obtain ⟨busy₂, idle₂, queue₂, type₂, dequeue₂, ends, room₂, trbs₂⟩ :=
      queueTrb_command q queue' plain (show 2 ≤ nonlinks idle' by omega) (kept.trans noLink)
    refine ⟨⟨busy₂, idle₂, inv₀.join awake queue₂ (type₂.trans type') room₂ (by rw [ends, same]) ?_ ?_ rfl ?_ clear⟩, ?_⟩
    · intro p inside
      have notLink : p.idx ≠ 63 := by simpa using (List.mem_filter.mp inside).2
      have other : p ≠ ring.enqueue := by
        rintro rfl
        rw [← same] at inside
        obtain ⟨rest, rfl⟩ := queue'.idle_eq
        exact (List.nodup_append.mp queue'.shape.isLap.1).2.2 _ (List.mem_filter.mp inside).1 _ (by simp) rfl
      rw [trbs₂ p notLink, if_neg other, trbs p notLink]
    · rw [trbs₂ _ plain, if_pos rfl, kept', noNoop]
    · rw [list]
      exact off
    · refine ⟨.inr ⟨_, by rw [list, queued]⟩, dequeue₂.trans (dequeue'.trans refl.dequeue), refl.dying, refl.fired, refl.completed, refl.timedOut, refl.turned, refl.status, ?_⟩
      simp only [list, timer, current]
      cases empty : s.cmdList with
      | cons c cs => exact .inl ⟨by simp, by simp, .inr (.inl (by simp))⟩
      | nil =>
        cases running : s.cmdTimer with
        | true => exact .inl ⟨by simp, by simp, .inr (.inr rfl)⟩
        | false => exact .inr ⟨rfl, by simp, by simp, by simp⟩

/-- What the handler of a command does with the commands it queues. -/
structure Grown (s s' : State) : Prop where
  cmdList : ∃ more, s'.cmdList = s.cmdList ++ more
  dequeue : s'.cmdRing.dequeue = s.cmdRing.dequeue
  dying : s'.dying = s.dying
  completed : s'.completed = s.completed
  timedOut : s'.timedOut = s.timedOut
  turned : s'.turned = s.turned
  status : ∀ cmd ∈ s.cmdList, s'.status cmd.ptr = s.status cmd.ptr
  timer : s.cmdList ≠ [] → s'.cmdTimer = s.cmdTimer

theorem Queued.grown {request : Request} {s' : State} (queued : Queued request s s')
    (off : ∀ cmd ∈ s.cmdList, cmd.ptr ≠ request.ptr) : Grown s s' := by
  refine ⟨?_, queued.dequeue, queued.dying, queued.completed, queued.timedOut, queued.turned, ?_, ?_⟩
  · rcases queued.cmdList with same | ⟨trb, longer⟩
    · exact ⟨[], by simp [same]⟩
    · exact ⟨_, longer⟩
  · intro cmd member
    exact queued.status _ (off cmd member)
  · intro some_left
    rcases queued.timer with ⟨same, _⟩ | ⟨empty, _⟩
    · exact same
    · exact absurd empty some_left

theorem Grown.trans {s' s'' : State} (first : Grown s s') (second : Grown s' s'') : Grown s s'' := by
  obtain ⟨more, is_more⟩ := first.cmdList
  obtain ⟨more', is_more'⟩ := second.cmdList
  refine ⟨⟨more ++ more', by rw [is_more', is_more, List.append_assoc]⟩, second.dequeue.trans first.dequeue,
    second.dying.trans first.dying, second.completed.trans first.completed, second.timedOut.trans first.timedOut,
    second.turned.trans first.turned, ?_, ?_⟩
  · intro cmd member
    have later : cmd ∈ s'.cmdList := by
      rw [is_more]
      exact List.mem_append_left _ member
    rw [second.status cmd later, first.status cmd member]
  · intro some_left
    have later : s'.cmdList ≠ [] := by
      rw [is_more]
      simp [some_left]
    rw [second.timer later, first.timer some_left]

theorem Inv.queueAll (q : Quirks) : ∀ {requests : List Request} {s : State} {busy idle : List TrbPtr}, Inv s busy idle →
    Run.Allows (fun s r => r.Allowed s) (State.queueCommand q) s requests →
    Run.Allows (fun s r => r.Reset s) (State.queueCommand q) s requests →
    (∃ busy' idle', Inv (requests.foldl (State.queueCommand q) s) busy' idle') ∧
      Grown s (requests.foldl (State.queueCommand q) s) := by
  intro requests
  induction requests with
  | nil =>
    intro s busy idle inv _ _
    exact ⟨⟨busy, idle, inv⟩, ⟨[], by simp⟩, rfl, rfl, rfl, rfl, rfl, fun _ _ => rfl, fun _ => rfl⟩
  | cons request requests ih =>
    intro s busy idle inv allowed reset
    obtain ⟨⟨busy', idle', inv'⟩, queued⟩ := inv.queueCommand q allowed.1 reset.1
    obtain ⟨next, grown⟩ := ih inv' allowed.2 reset.2
    exact ⟨next, (queued.grown allowed.1.1).trans grown⟩

/-- The first command is completed by an event for its TRB. -/
theorem Inv.eventHandled (inv : Inv s busy idle) {cmd : Command} {rest : List Command} (is_first : s.cmdList = cmd :: rest)
    (here : cmd.commandTrb = s.cmdRing.dequeue) {code status : Nat}
    (fair : status = code ∨ (status = compCmdStop ∧ cmd.seq ∈ s.timedOut ∧ cmd.seq ∈ s.turned)) :
    ∃ busy' idle', Inv (s.eventHandled cmd (trbVirtToDma s.cmdRing.dequeue) code status) busy' idle' := by
  have aligned := inv.aligned
  rw [is_first, List.map_cons] at aligned
  obtain ⟨tail, is_inner⟩ := aligned
  obtain ⟨busy', idle', queue', type', inner', more, trbs⟩ := incDeq_command inv.queue is_inner.symm here
  have list : (s.cmdList.erase cmd) = rest := by simp [is_first]
  have distinct := inv.distinct
  rw [is_first, List.map_cons, List.nodup_cons] at distinct
  have others : ∀ c ∈ rest, c.ptr ≠ cmd.ptr := by
    intro c member same
    exact distinct.1 (same ▸ List.mem_map_of_mem member)
  have statusOf : ∀ c ∈ rest, (if cmd.completion = true then Function.update s.status cmd.ptr status else s.status) c.ptr =
      s.status c.ptr := by
    intro c member
    split_ifs
    · exact Function.update_of_ne (others c member) ..
    · rfl
  refine ⟨busy', idle', ?_⟩
  rw [State.eventHandled, State.complete]
  simp only [list]
  constructor
  · exact queue'
  · exact type'.trans inv.type
  · exact Nat.le_trans inv.room more
  · exact inv.reserved
  · rw [inner']
    exact List.prefix_append _ _
  · intro awake
    have all := inv.all awake
    rw [is_first, List.map_cons, ← is_inner] at all
    rw [inner']
    exact (List.cons.inj all).2
  · have once := inv.once
    rw [is_first, List.map_cons] at once
    rw [List.map_append, List.append_assoc]
    exact once
  · exact distinct.2
  · intro c member isAborted
    simp only [statusOf c member] at isAborted
    exact inv.aborted c (is_first ▸ List.mem_cons_of_mem _ member) isAborted
  · intro c member isNoop
    simp only [trbs] at isNoop
    exact inv.noop c (is_first ▸ List.mem_cons_of_mem _ member) isNoop
  · intro c member
    rcases List.mem_append.mp member with old | new
    · exact inv.fair c old
    · rw [List.mem_singleton.mp new]
      exact ⟨by rw [here], fair⟩
  · exact inv.alive

theorem Completed.Fair.mono {c : Completed} {timedOut timedOut' turned turned' : List Nat} (fair : c.Fair timedOut turned)
    (more : timedOut ⊆ timedOut') (more' : turned ⊆ turned') : c.Fair timedOut' turned' := by
  unfold Completed.Fair at fair ⊢
  split at fair
  · exact ⟨fair.1, fair.2.imp_right fun ⟨stop, isOut, isTurned⟩ => ⟨stop, more isOut, more' isTurned⟩⟩
  · exact fair

/-- What turning commands into no-ops leaves alone. -/
structure Stopping (s s' : State) : Prop where
  cmdList : s'.cmdList = s.cmdList
  pointers : s'.cmdRing.dequeue = s.cmdRing.dequeue ∧ s'.cmdRing.enqueue = s.cmdRing.enqueue
  dying : s'.dying = s.dying
  cmdTimer : s'.cmdTimer = s.cmdTimer
  fired : s'.fired = s.fired
  currentCmd : s'.currentCmd = s.currentCmd

/-- A command on the list that was timed out becomes a no-op. -/
theorem Inv.turnToNoop (inv : Inv s busy idle) {cmd : Command} (member : cmd ∈ s.cmdList) :
    Inv (s.turnToNoop cmd) busy idle ∧ Stopping s (s.turnToNoop cmd) := by
  rw [State.turnToNoop]
  split_ifs with other
  · exact ⟨inv, rfl, ⟨rfl, rfl⟩, rfl, rfl, rfl, rfl⟩
  · have isOut : cmd.seq ∈ s.timedOut := inv.aborted cmd member (not_not.mp other)
    have plain := inv.trb_idx member
    have shape : Shape (s.cmdRing.modifyTrb cmd.commandTrb toCmdNoop) (busy ++ idle) :=
      inv.queue.shape.setTrb plain (isLink_toCmdNoop _)
    have trbs_nodup : (s.cmdList.map Command.commandTrb).Nodup :=
      inv.aligned.sublist.nodup ((List.nodup_append.mp inv.busy_nodup).1.filter _)
    refine ⟨?_, rfl, ⟨rfl, rfl⟩, rfl, rfl, rfl, rfl⟩
    refine ⟨inv.queue.edit shape rfl rfl rfl rfl rfl, inv.type, inv.room, inv.reserved, inv.aligned, inv.all, inv.once,
      inv.distinct, ?_, ?_, ?_, inv.alive⟩
    · intro c inList isAborted
      by_cases same : c.ptr = cmd.ptr
      · simp [State.setStatus, same, compCmdStop, compCmdAbort] at isAborted
      · simp only [State.setStatus, Function.update_of_ne same] at isAborted
        exact inv.aborted c inList isAborted
    · intro c inList isNoop
      by_cases same : c.commandTrb = cmd.commandTrb
      · obtain rfl : c = cmd := List.inj_on_of_nodup_map trbs_nodup inList member same
        exact ⟨isOut, by simp⟩
      · simp only [trb_modifyTrb, same, if_false] at isNoop
        obtain ⟨out, turned⟩ := inv.noop c inList isNoop
        exact ⟨out, List.mem_append_left _ turned⟩
    · intro c inList
      exact (inv.fair c inList).mono (List.Subset.refl _) (List.subset_append_left _ _)

theorem Inv.turnAll : ∀ {l : List Command} {s : State}, Inv s busy idle → (∀ cmd ∈ l, cmd ∈ s.cmdList) →
    Inv (l.foldl State.turnToNoop s) busy idle ∧ Stopping s (l.foldl State.turnToNoop s) := by
  intro l
  induction l with
  | nil => exact fun inv _ => ⟨inv, rfl, ⟨rfl, rfl⟩, rfl, rfl, rfl, rfl⟩
  | cons cmd l ih =>
    intro s inv members
    obtain ⟨inv', one⟩ := inv.turnToNoop (members cmd (by simp))
    obtain ⟨inv'', more⟩ := ih inv' (fun c member => one.cmdList ▸ members c (List.mem_cons_of_mem _ member))
    refine ⟨inv'', more.cmdList.trans one.cmdList, ⟨more.pointers.1.trans one.pointers.1, more.pointers.2.trans one.pointers.2⟩,
      more.dying.trans one.dying, more.cmdTimer.trans one.cmdTimer, more.fired.trans one.fired, more.currentCmd.trans one.currentCmd⟩

/-- With a command on the list there is something between `dequeue` and `enqueue`. -/
theorem Inv.pointers_ne (inv : Inv s busy idle) (some_left : s.cmdList ≠ []) : s.cmdRing.dequeue ≠ s.cmdRing.enqueue := by
  obtain ⟨cmd, rest, is_list⟩ := List.exists_cons_of_ne_nil some_left
  have member : cmd.commandTrb ∈ inner busy := inv.inner_mem (is_list ▸ List.mem_cons_self ..)
  cases busy with
  | nil => simp [inner] at member
  | cons x busy =>
    obtain ⟨rest, rfl⟩ := inv.queue.idle_eq
    rw [← inv.queue.first_busy]
    rintro rfl
    have distinct := inv.busy_nodup
    simp at distinct

theorem Inv.handleStoppedCmdRing (inv : Inv s busy idle) (curCmd : Option Nat) : Inv (s.handleStoppedCmdRing curCmd) busy idle ∧
    (s.handleStoppedCmdRing curCmd).cmdList = s.cmdList ∧ (s.handleStoppedCmdRing curCmd).dying = s.dying ∧
    (s.cmdList ≠ [] → s.dying = false →
      (s.handleStoppedCmdRing curCmd).cmdTimer = true ∧ (s.handleStoppedCmdRing curCmd).currentCmd = curCmd) := by
  obtain ⟨inv', stopping⟩ := inv.turnAll (fun cmd member => member)
  rw [State.handleStoppedCmdRing]
  split_ifs with restarts
  · refine ⟨inv'.congr rfl rfl rfl rfl rfl rfl rfl rfl rfl inv'.reserved, stopping.cmdList, stopping.dying, fun _ _ => ⟨rfl, rfl⟩⟩
  · refine ⟨inv'.congr rfl rfl rfl rfl rfl rfl rfl rfl rfl inv'.reserved, stopping.cmdList, stopping.dying, ?_⟩
    intro some_left awake
    have apart : (s.cmdList.foldl State.turnToNoop s).cmdRing.dequeue ≠ (s.cmdList.foldl State.turnToNoop s).cmdRing.enqueue := by
      rw [stopping.pointers.1, stopping.pointers.2]
      exact inv.pointers_ne some_left
    exact absurd ⟨apart, stopping.dying.trans awake⟩ restarts

/-- The timer's handler gives the controller up. -/
theorem Inv.handleCommandTimeout (inv : Inv s busy idle) : Inv s.handleCommandTimeout busy idle ∧ s.handleCommandTimeout.dying = true := by
  have marked : Inv { s with
      status := match s.currentCmd with | some ptr => Function.update s.status ptr compCmdAbort | none => s.status
      timedOut := s.timedOut ++ (s.cmdList.filter fun cmd : Command => some cmd.ptr = s.currentCmd).map Command.seq
      dying := true } busy idle := by
    refine ⟨inv.queue, inv.type, inv.room, inv.reserved, inv.aligned, by simp, inv.once, inv.distinct, ?_, ?_, ?_, by simp⟩
    · intro cmd member isAborted
      simp only [List.mem_append]
      by_cases watched : some cmd.ptr = s.currentCmd
      · refine .inr (List.mem_map_of_mem (List.mem_filter.mpr ⟨member, by simpa using watched⟩))
      · refine .inl (inv.aborted cmd member ?_)
        cases current : s.currentCmd with
        | none => simpa [current] using isAborted
        | some ptr =>
          have other : cmd.ptr ≠ ptr := by
            rintro rfl
            exact watched current.symm
          simpa [current, other] using isAborted
    · intro cmd member isNoop
      obtain ⟨out, turned⟩ := inv.noop cmd member isNoop
      exact ⟨List.mem_append_left _ out, turned⟩
    · intro c member
      exact (inv.fair c member).mono (List.subset_append_left _ _) (List.Subset.refl _)
  rw [State.handleCommandTimeout]
  simp only []
  split_ifs with running
  · exact ⟨⟨marked.queue, marked.type, marked.room, marked.reserved, marked.aligned, by simp, marked.once, marked.distinct,
      marked.aborted, marked.noop, marked.fair, by simp⟩, rfl⟩
  · obtain ⟨inv', _, dying, _⟩ := marked.handleStoppedCmdRing s.currentCmd
    exact ⟨inv', dying⟩

theorem cleanup_eq : ∀ {l : List Command} {s : State}, s.cmdList = l →
    ∃ status, l.foldl (fun s cmd => s.complete cmd compCmdAbort .cleanup) s = { s with
      cmdList := [], status := status, completed := s.completed ++ l.map fun cmd => ⟨cmd, compCmdAbort, .cleanup⟩ } := by
  intro l
  induction l with
  | nil =>
    intro s empty
    refine ⟨s.status, ?_⟩
    rw [List.foldl_nil, List.map_nil, List.append_nil, ← empty]
  | cons cmd l ih =>
    intro s is_list
    obtain ⟨status, rest⟩ := ih (s := s.complete cmd compCmdAbort .cleanup) (by simp [State.complete, is_list])
    refine ⟨status, ?_⟩
    rw [List.foldl_cons, rest]
    simp [State.complete]

theorem Inv.cleanupCommandQueue (inv : Inv s busy idle) (dead : s.dying = true) : Inv s.cleanupCommandQueue busy idle ∧
    s.cleanupCommandQueue.dying = true := by
  obtain ⟨status, eq⟩ := cleanup_eq (s := s) rfl
  rw [State.cleanupCommandQueue, eq]
  refine ⟨⟨inv.queue, inv.type, inv.room, inv.reserved, by simp, by simp [dead], ?_, by simp, by simp, by simp, ?_, by simp [dead]⟩,
    dead⟩
  · simpa [List.map_append, Function.comp_def] using inv.once
  · intro c member
    rcases List.mem_append.mp member with old | new
    · exact inv.fair c old
    · obtain ⟨cmd, _, rfl⟩ := List.mem_map.mp new
      rfl

/-- While the controller is not given up the timer runs, or its handler is about to, and
    watches the first command. -/
structure Watched (s : State) : Prop where
  off : s.dying = false → s.cmdList = [] → s.cmdTimer = false
  on : s.dying = false → ∀ cmd rest, s.cmdList = cmd :: rest → (s.cmdTimer = true ∨ 0 < s.fired) ∧ s.currentCmd = some cmd.ptr

theorem Watched.dead (dead : s.dying = true) : Watched s := by
  constructor
  · simp [dead]
  · simp [dead]

theorem Queued.watched {request : Request} {s' : State} (queued : Queued request s s') (watched : Watched s) : Watched s' := by
  constructor
  · intro awake empty
    rw [queued.dying] at awake
    rcases queued.timer with ⟨timer, _⟩ | ⟨_, some_left, _⟩
    · rw [timer]
      refine watched.off awake ?_
      rcases queued.cmdList with same | ⟨trb, longer⟩
      · exact same ▸ empty
      · simp [longer] at empty
    · exact absurd empty some_left
  · intro awake cmd rest is_list
    rw [queued.dying] at awake
    rcases queued.timer with ⟨timer, current, why⟩ | ⟨empty, _, timer, current⟩
    · by_cases empty : s.cmdList = []
      · rcases why with same | some_left | running
        · rw [same, empty] at is_list
          exact absurd is_list (by simp)
        · exact absurd empty some_left
        · rw [watched.off awake empty] at running
          exact absurd running (by simp)
      · obtain ⟨first, others, is_first⟩ := List.exists_cons_of_ne_nil empty
        have is_cmd : first = cmd := by
          rcases queued.cmdList with same | ⟨trb, longer⟩
          · rw [same, is_first] at is_list
            exact (List.cons.inj is_list).1
          · rw [longer, is_first] at is_list
            exact (List.cons.inj is_list).1
        rw [timer, current, queued.fired, ← is_cmd]
        exact watched.on awake first others is_first
    · refine ⟨.inl timer, ?_⟩
      rcases queued.cmdList with same | ⟨trb, longer⟩
      · rw [same, empty] at is_list
        exact absurd is_list (by simp)
      · rw [longer, empty] at is_list
        rw [current, ← (List.cons.inj is_list).1]

/-- The command behind the first one is watched, if there is one. -/
theorem restartTimer_eq (s : State) : ∃ current timer, s.restartTimer = { s with currentCmd := current, cmdTimer := timer } ∧
    (∀ first next rest, s.cmdList = first :: next :: rest → current = some next.ptr ∧ timer = true) ∧
    (∀ first, s.cmdList = [first] → timer = s.cmdTimer) := by
  rw [State.restartTimer]
  split
  · rename_i first next rest is_list
    refine ⟨some next.ptr, true, rfl, ?_, ?_⟩
    · intro first' next' rest' is_list'
      rw [is_list] at is_list'
      obtain ⟨_, is_next⟩ := List.cons.inj is_list'
      exact ⟨by rw [(List.cons.inj is_next).1], rfl⟩
    · intro first' is_list'
      rw [is_list] at is_list'
      simp at is_list'
  · rename_i short
    exact ⟨s.currentCmd, s.cmdTimer, rfl, fun first next rest is_list => absurd is_list (short first next rest), fun _ _ => rfl⟩

theorem Inv.inHandler (inv : Inv s busy idle) (code : Nat) : Inv (s.inHandler code) busy idle :=
  inv.congr rfl rfl rfl rfl rfl rfl rfl rfl rfl inv.reserved

/-- An event, for any TRB and with any code. -/
theorem Inv.handleCmdCompletion (inv : Inv s busy idle) (watched : Watched s) (q : Quirks) (cmdTrb : BitVec 64) (code : Nat)
    {requests : List Request}
    (allowed : Run.Allows (fun s r => r.Allowed s) (State.queueCommand q) (s.inHandler code) requests)
    (reset : Run.Allows (fun s r => r.Reset s) (State.queueCommand q) (s.inHandler code) requests) :
    (∃ busy' idle', Inv (s.handleCmdCompletion q cmdTrb code requests) busy' idle') ∧
      Watched (s.handleCmdCompletion q cmdTrb code requests) := by
  unfold State.handleCmdCompletion
  by_cases unmapped : trbVirtToDma s.cmdRing.dequeue = 0
  · rw [if_pos unmapped]
    exact ⟨⟨busy, idle, inv⟩, watched⟩
  rw [if_neg unmapped]
  by_cases other : cmdTrb ≠ trbVirtToDma s.cmdRing.dequeue
  · rw [if_pos other]
    exact ⟨⟨busy, idle, inv⟩, watched⟩
  rw [if_neg other]
  obtain rfl : cmdTrb = trbVirtToDma s.cmdRing.dequeue := not_not.mp other
  split
  · exact ⟨⟨busy, idle, inv⟩, watched⟩
  rename_i cmd rest is_list
  have member : cmd ∈ s.cmdList := is_list ▸ List.mem_cons_self ..
  by_cases mismatch : cmd.commandTrb ≠ s.cmdRing.dequeue
  · rw [if_pos mismatch]
    exact ⟨⟨busy, idle, inv⟩, watched⟩
  rw [if_neg mismatch]
  by_cases stop : code = compCmdStop
  · -- The ring is restarted, the timer too.
    rw [if_pos stop]
    have inv' : Inv { s with cmdTimer := false } busy idle := inv.congr rfl rfl rfl rfl rfl rfl rfl rfl rfl inv.reserved
    obtain ⟨inv'', list, dying, restarts⟩ := inv'.handleStoppedCmdRing (some cmd.ptr)
    refine ⟨⟨busy, idle, inv''⟩, ?_⟩
    by_cases dead : s.dying = true
    · exact .dead (dying.trans dead)
    · obtain ⟨timer, current⟩ := restarts (by simp [is_list]) (Bool.eq_false_iff.mpr dead)
      constructor
      · intro _ empty
        rw [list] at empty
        exact absurd (is_list.symm.trans empty) (by simp)
      · intro _ cmd' rest' is_list'
        rw [list] at is_list'
        refine ⟨.inl timer, current.trans ?_⟩
        rw [(List.cons.inj (is_list.symm.trans is_list')).1]
  rw [if_neg stop]
  by_cases abort : code = compCmdAbort ∧ s.status cmd.ptr = compCmdAbort
  · -- Only a command that was timed out has this status, so the controller is given up.
    rw [if_pos abort]
    have isOut := inv.aborted cmd member abort.2
    have dead : s.dying = true := by
      by_contra awake
      rw [(inv.alive (Bool.eq_false_iff.mpr awake)).1] at isOut
      simp at isOut
    exact ⟨(inv.inHandler code).eventHandled is_list (not_not.mp mismatch) (.inl rfl), .dead dead⟩
  · rw [if_neg abort]
    have here : cmd.commandTrb = s.cmdRing.dequeue := not_not.mp mismatch
    obtain ⟨⟨busy', idle', inv'⟩, grown⟩ := Inv.queueAll q (inv.inHandler code) allowed reset
    obtain ⟨more, is_more⟩ := grown.cmdList
    set s' := requests.foldl (State.queueCommand q) (s.inHandler code)
    obtain ⟨current, timer, is_restarted, restarts, stays⟩ := restartTimer_eq s'
    have list : s'.cmdList = cmd :: (rest ++ more) := by
      rw [is_more]
      show s.cmdList ++ more = _
      rw [is_list]
      rfl
    have restarted : Inv { s' with currentCmd := current, cmdTimer := timer } busy' idle' :=
      inv'.congr rfl rfl rfl rfl rfl rfl rfl rfl rfl inv'.reserved
    have dequeue : trbVirtToDma s.cmdRing.dequeue = trbVirtToDma s'.cmdRing.dequeue := by
      rw [grown.dequeue]
      rfl
    rw [is_restarted, dequeue]
    refine ⟨restarted.eventHandled list (here.trans grown.dequeue.symm) ?_, ?_⟩
    · split_ifs with noop
      · obtain ⟨out, turned⟩ := inv.noop cmd member (here ▸ noop.1)
        refine .inr ⟨rfl, ?_, ?_⟩
        · show cmd.seq ∈ s'.timedOut
          rw [grown.timedOut]
          exact out
        · show cmd.seq ∈ s'.turned
          rw [grown.turned]
          exact turned
      · exact .inl rfl
    · have erased : s'.cmdList.erase cmd = rest ++ more := by simp [list]
      have idle_timer : s'.cmdTimer = false := grown.timer (by simp [State.inHandler, is_list])
      constructor
      · intro _ empty
        simp only [State.eventHandled, State.complete, erased] at empty
        simp only [State.eventHandled, State.complete]
        rw [stays cmd (by rw [list, empty]), idle_timer]
      · intro _ next others is_next
        simp only [State.eventHandled, State.complete, erased] at is_next
        simp only [State.eventHandled, State.complete]
        obtain ⟨is_current, is_timer⟩ := restarts cmd next others (by rw [list, is_next])
        exact ⟨.inl is_timer, is_current⟩

theorem Inv.step (inv : Inv s busy idle) (watched : Watched s) (q : Quirks) {op : Op} (allowed : op.Allowed q s)
    (reset : Reset q s op) : (∃ busy' idle', Inv (s.step q op) busy' idle') ∧ Watched (s.step q op) := by
  cases op with
  | queue request =>
    obtain ⟨next, queued⟩ := inv.queueCommand q allowed reset
    exact ⟨next, queued.watched watched⟩
  | event cmdTrb code requests => exact inv.handleCmdCompletion watched q cmdTrb code allowed reset
  | expire =>
    simp only [State.step]
    split_ifs with running
    · refine ⟨⟨busy, idle, inv.congr rfl rfl rfl rfl rfl rfl rfl rfl rfl inv.reserved⟩, fun _ _ => rfl, ?_⟩
      intro awake cmd rest is_list
      exact ⟨.inr (Nat.succ_pos _), (watched.on awake cmd rest is_list).2⟩
    · exact ⟨⟨busy, idle, inv⟩, watched⟩
  | timeout =>
    simp only [State.step]
    split_ifs
    · have inv' : Inv { s with fired := s.fired - 1 } busy idle := inv.congr rfl rfl rfl rfl rfl rfl rfl rfl rfl inv.reserved
      obtain ⟨next, dead⟩ := inv'.handleCommandTimeout
      exact ⟨⟨busy, idle, next⟩, .dead dead⟩
    · exact ⟨⟨busy, idle, inv⟩, watched⟩
  | cleanup =>
    simp only [State.step]
    split_ifs with left
    · have dead : s.dying = true := by
        by_contra awake
        have := (inv.alive (Bool.eq_false_iff.mpr awake)).2
        omega
      have inv' : Inv { s with cleanups := s.cleanups - 1 } busy idle := by
        refine ⟨inv.queue, inv.type, inv.room, inv.reserved, inv.aligned, inv.all, inv.once, inv.distinct, inv.aborted, inv.noop,
          inv.fair, ?_⟩
        simp [dead]
      obtain ⟨next, dead'⟩ := inv'.cleanupCommandQueue dead
      exact ⟨⟨busy, idle, next⟩, .dead dead'⟩
    · exact ⟨⟨busy, idle, inv⟩, watched⟩
  | reserve =>
    simp only [State.step]
    split_ifs
    · exact ⟨⟨busy, idle, inv⟩, watched⟩
    · exact ⟨⟨busy, idle, inv.congr rfl rfl rfl rfl rfl rfl rfl rfl rfl (Nat.le_add_left ..)⟩, watched.off, watched.on⟩
  | release => exact ⟨⟨busy, idle, inv.congr rfl rfl rfl rfl rfl rfl rfl rfl rfl (Nat.le_sub_one_of_lt allowed)⟩, watched.off, watched.on⟩
  | die =>
    refine ⟨⟨busy, idle, inv.queue, inv.type, inv.room, inv.reserved, inv.aligned, ?_, inv.once, inv.distinct, inv.aborted,
      inv.noop, inv.fair, ?_⟩, .dead rfl⟩
    · simp [State.step]
    · simp [State.step]
  | setCmdRingState state =>
    exact ⟨⟨busy, idle, inv.congr rfl rfl rfl rfl rfl rfl rfl rfl rfl inv.reserved⟩, watched.off, watched.on⟩

theorem inv_new {q : Quirks} (new : New q s) : (∃ busy idle, Inv s busy idle) ∧ Watched s := by
  obtain ⟨ring, status, state, fresh, command, rfl⟩ := new
  obtain ⟨busy, idle, inv⟩ := RingAccount.inv_new fresh
  have room := inv.room
  have none_busy : inner busy = [] := by
    rw [inner, List.filter_eq_nil_iff]
    intro p member
    have count : nonlinks busy = 0 := inv.pending.symm
    rw [nonlinks, List.countP_eq_zero] at count
    exact count p member
  refine ⟨⟨busy, idle, inv.queue, command, by omega, Nat.le_refl 1, by simp, ?_, rfl, by simp, by simp, by simp, by simp, by simp⟩,
    by simp, by simp⟩
  simp [none_busy]

theorem inv_reachable {q : Quirks} (reachable : Reachable q (Reset q) s) : (∃ busy idle, Inv s busy idle) ∧ Watched s := by
  refine reachable.invariant (P := fun s => (∃ busy idle, Inv s busy idle) ∧ Watched s) (fun _ new => inv_new new) ?_
  rintro s op ⟨⟨busy, idle, inv⟩, watched⟩ ⟨allowed, reset⟩
  exact inv.step watched q allowed reset

/-- The list and the ring agree, an event for another TRB changes neither, and every command
    that was queued is on the list or was completed, once and in the order of queueing. -/
structure Aligned (q : Quirks) (s : State) : Prop where
  aligned : s.cmdList.map Command.commandTrb <+:
    (span s.cmdRing s.cmdRing.enqueue).filter fun p => !(s.cmdRing.trb p).isLink
  other : ∀ cmdTrb code requests, cmdTrb ≠ trbVirtToDma s.cmdRing.dequeue →
    (s.step q (.event cmdTrb code requests)).cmdList = s.cmdList ∧ (s.step q (.event cmdTrb code requests)).cmdRing = s.cmdRing
  once : s.completed.map (·.command.seq) ++ s.cmdList.map Command.seq = List.range s.queued
  fair : ∀ c ∈ s.completed, c.Fair s.timedOut s.turned

theorem commands_aligned {q : Quirks} (reachable : Reachable q (Reset q) s) : Aligned q s := by
  obtain ⟨⟨busy, idle, inv⟩, _⟩ := inv_reachable reachable
  refine ⟨?_, ?_, inv.once, inv.fair⟩
  · cases is_list : s.cmdList with
    | nil => simp
    | cons cmd rest =>
      have member := inv.inner_mem (is_list ▸ List.mem_cons_self ..)
      have some_busy : busy ≠ [] := by
        rintro rfl
        simp [inner] at member
      have queue := inv.queue
      obtain ⟨left, rfl⟩ := queue.idle_eq
      have inOrder := queue.dequeue.resolve_right fun behind => some_busy behind.1
      have filtered : busy.filter (fun p => !(s.cmdRing.trb p).isLink) = inner busy := by
        refine List.filter_congr ?_
        intro p inBusy
        have links := queue.shape.links p (List.mem_append_left _ inBusy)
        by_cases onLink : p.idx = 63
        · simp [onLink, links.mpr onLink]
        · have plain : (s.cmdRing.trb p).isLink = false := by simpa using mt links.mp onLink
          simp [onLink, plain]
      rw [span_eq queue.shape inOrder, filtered, ← is_list]
      exact inv.aligned
  · intro cmdTrb code requests different
    simp only [State.step, State.handleCmdCompletion, if_pos different]
    split_ifs <;> exact ⟨rfl, rfl⟩

/-- The timer covers every command as long as the controller is not given up. -/
theorem commands_watched {q : Quirks} (reachable : Reachable q (Reset q) s) (alive : s.dying = false) {cmd : Command}
    {rest : List Command} (is_list : s.cmdList = cmd :: rest) :
    (s.cmdTimer = true ∨ 0 < s.fired) ∧ s.currentCmd = some cmd.ptr :=
  (inv_reachable reachable).2.on alive cmd rest is_list

end

/-- The command ring of a new controller. -/
def commandRing : Ring := (ringAlloc ⟨false, false⟩ 1 true .command ⟨[0x1000], fun _ => .accepted⟩).get (by decide +kernel)

theorem commandRing_made : ringAlloc ⟨false, false⟩ 1 true .command ⟨[0x1000], fun _ => .accepted⟩ = some commandRing :=
  (Option.some_get _).symm

/-- A controller that was started and has no command yet. -/
def started : State := ⟨commandRing, [], none, false, .running, 1, false, fun _ => 0, 0, 0, 0, [], [], []⟩

theorem started_new : New ⟨false, false⟩ started :=
  ⟨commandRing, fun _ => 0, .running, ⟨1, true, .command, _, by decide, by decide, commandRing_made, rfl, rfl⟩,
    by decide +kernel, rfl⟩

/-- `xhci->lpm_command`, which is allocated once, for an Evaluate Context command. -/
def lpmCommand : Request := ⟨0, false, true, ⟨0, 0, 0, 0x3400⟩, true⟩

/-- A command that is allocated for a Stop Endpoint command. -/
def stopCommand : Request := ⟨1, true, false, ⟨0, 0, 0, 0x3c00⟩, false⟩

/-- Two commands are queued, the first one is completed, and its handler queues another. -/
def quietRun : List Op :=
  [.queue stopCommand, .queue lpmCommand, .event 0x1000 1 [{ stopCommand with ptr := 2 }]]

theorem quietRun_reachable : Reachable ⟨false, false⟩ (Reset ⟨false, false⟩) (quietRun.foldl (State.step ⟨false, false⟩) started) := by
  refine Run.Reachable.all (.first started_new) ?_
  decide +kernel

theorem commands_aligned_quietRun :
    Aligned ⟨false, false⟩ (quietRun.foldl (State.step ⟨false, false⟩) started) ∧
    (quietRun.foldl (State.step ⟨false, false⟩) started).cmdList.map Command.seq = [1, 2] :=
  ⟨commands_aligned quietRun_reachable, by decide +kernel⟩

theorem commands_watched_quietRun : ∃ cmd rest, (quietRun.foldl (State.step ⟨false, false⟩) started).cmdList = cmd :: rest ∧
    ((quietRun.foldl (State.step ⟨false, false⟩) started).cmdTimer = true ∨
      0 < (quietRun.foldl (State.step ⟨false, false⟩) started).fired) ∧
    (quietRun.foldl (State.step ⟨false, false⟩) started).currentCmd = some cmd.ptr := by
  have some_left : (quietRun.foldl (State.step ⟨false, false⟩) started).cmdList ≠ [] := by decide +kernel
  obtain ⟨cmd, rest, is_list⟩ := List.exists_cons_of_ne_nil some_left
  exact ⟨cmd, rest, is_list, commands_watched quietRun_reachable (by decide +kernel) is_list⟩

/-- `lpm_command` is completed by an event with `COMP_CMD_ABORT` and keeps that status when it
    is queued again; the ring stops, which turns it into a no-op. -/
def staleRun : List Op := [.queue lpmCommand, .event 0x1000 25 [], .queue lpmCommand, .event 0x1010 24 [], .event 0x1010 1 []]

/-- Then it is completed with `COMP_CMD_STOP` though no command was ever timed out. -/
theorem not_commands_aligned : ¬∀ s, Reachable ⟨false, false⟩ (fun _ _ => True) s → Aligned ⟨false, false⟩ s := by
  intro aligned
  have allows : Run.Allows (fun s op => Op.Allowed ⟨false, false⟩ s op ∧ True) (State.step ⟨false, false⟩) started staleRun := by
    decide +kernel
  have fair := (aligned _ (Run.Reachable.all (.first started_new) allows)).fair
  have last : ∃ c ∈ (staleRun.foldl (State.step ⟨false, false⟩) started).completed,
      c.cause = .event 0x1010 1 ∧ c.status = compCmdStop := by decide +kernel
  obtain ⟨c, member, cause, stop⟩ := last
  have none_out : (staleRun.foldl (State.step ⟨false, false⟩) started).timedOut = [] := by decide +kernel
  have isFair := fair c member
  simp [Completed.Fair, cause, stop, none_out, compCmdStop] at isFair

/-- `lpm_command` is aborted, queued again with that status before another command, and aborted
    once more: the timer is not restarted for the command behind it. -/
def unwatchedRun : List Op :=
  [.queue lpmCommand, .event 0x1000 25 [], .queue lpmCommand, .queue stopCommand, .event 0x1010 25 []]

theorem not_commands_watched : ¬∀ s, Reachable ⟨false, false⟩ (fun _ _ => True) s → s.dying = false → ∀ cmd rest,
    s.cmdList = cmd :: rest → (s.cmdTimer = true ∨ 0 < s.fired) ∧ s.currentCmd = some cmd.ptr := by
  intro watched
  have allows : Run.Allows (fun s op => Op.Allowed ⟨false, false⟩ s op ∧ True) (State.step ⟨false, false⟩) started unwatchedRun := by
    decide +kernel
  have some_left : (unwatchedRun.foldl (State.step ⟨false, false⟩) started).cmdList ≠ [] := by decide +kernel
  obtain ⟨cmd, rest, is_list⟩ := List.exists_cons_of_ne_nil some_left
  have timer := (watched _ (Run.Reachable.all (.first started_new) allows) (by decide +kernel) cmd rest is_list).1
  revert timer
  decide +kernel

end Ehub.CommandRing
