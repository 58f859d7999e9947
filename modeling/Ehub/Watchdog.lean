import Mathlib
import Ehub.Transfer

/-!
The watchdog of the Stop Endpoint command. A cancellation arms the endpoint's timer and
counts it in `stop_cmds_pending`; the completion of the command deletes the timer, but it
cannot take back a timer that has expired and whose handler still waits for the lock. The
handler therefore decides by the counter and by `EP_HALT_PENDING` together. The machine is
that of the transfers with the timers added (`base_step`).
-/
namespace Ehub.Watchdog
open Ehub.Ring Ehub.Segments Ehub.Cancel Ehub.Transfer

/-- The counter and the timer of an endpoint. `expired` are the handlers that have not run
    yet; `completed` says that a Stop Endpoint command for the endpoint has completed since
    the last one was queued. -/
structure Timer where
  stopCmdsPending : Int
  armed : Bool
  expired : Nat
  completed : Bool

namespace Timer

/-- The end of `ehub_xhci_urb_dequeue`. -/
def arm (t : Timer) : Timer :=
  { t with stopCmdsPending := t.stopCmdsPending + 1, armed := true, completed := false }

/-- `xhci_stop_watchdog_timer_in_irq`: `del_timer` says whether the timer was armed. -/
def stopWatchdogTimerInIrq (t : Timer) : Timer :=
  if t.armed then { t with stopCmdsPending := t.stopCmdsPending - 1, armed := false, completed := true }
  else { t with completed := true }

def expire (t : Timer) : Timer := { t with armed := false, expired := t.expired + 1 }

def run (t : Timer) : Timer := { t with stopCmdsPending := t.stopCmdsPending - 1, expired := t.expired - 1 }

/-- The timers and handlers that are out. -/
def outstanding (t : Timer) : Nat := (if t.armed then 1 else 0) + t.expired

def Counts (t : Timer) : Prop := t.stopCmdsPending = t.outstanding

variable {t : Timer}

theorem Counts.arm (counts : t.Counts) (unarmed : t.armed = false) : t.arm.Counts := by
  unfold Counts outstanding at counts ⊢
  rw [unarmed, if_neg (by decide)] at counts
  rw [if_pos (show t.arm.armed = true from rfl)]
  show t.stopCmdsPending + 1 = ((1 + t.expired : Nat) : Int)
  omega

theorem Counts.stopWatchdogTimerInIrq (counts : t.Counts) : t.stopWatchdogTimerInIrq.Counts := by
  unfold Timer.stopWatchdogTimerInIrq
  split_ifs with armed
  · unfold Counts outstanding at counts ⊢
    rw [if_pos armed] at counts
    show t.stopCmdsPending - 1 = ((0 + t.expired : Nat) : Int)
    omega
  · exact counts

theorem Counts.expire (counts : t.Counts) (armed : t.armed = true) : t.expire.Counts := by
  unfold Counts outstanding at counts ⊢
  rw [if_pos armed] at counts
  show t.stopCmdsPending = ((0 + (t.expired + 1) : Nat) : Int)
  omega

theorem Counts.run (counts : t.Counts) (out : 0 < t.expired) : t.run.Counts := by
  unfold Counts outstanding at counts ⊢
  show t.stopCmdsPending - 1 = (((if t.armed then 1 else 0) + (t.expired - 1) : Nat) : Int)
  omega

end Timer

structure State where
  base : Transfer.State
  timer : EpId → Timer

/-- `ehub_xhci_urb_dequeue` comes to queueing a Stop Endpoint command. -/
def QueuesStop (s : Transfer.State) (u : Unlink) : Prop :=
  ¬((u.e, u.urb) ∉ s.linked ∨ u.urb ∈ s.unlinked ∨ u.urb ∈ s.givenBack) ∧ u.gone = false ∧ s.dying = false ∧
    (s.ep u.e).haltPending = false ∧ u.alloc = true

instance (s : Transfer.State) (u : Unlink) : Decidable (QueuesStop s u) := inferInstanceAs (Decidable (_ ∧ _))

namespace State

def setTimer (s : State) (e : EpId) (t : Timer) : State := { s with timer := Function.update s.timer e t }

/-- `ehub_xhci_urb_dequeue`. -/
def urbDequeue (s : State) (u : Unlink) : State :=
  let s' := if QueuesStop s.base u then s.setTimer u.e (s.timer u.e).arm else s
  { s' with base := s.base.urbDequeue u }

/-- `xhci_handle_cmd_stop_ep`; the URBs are given back when the timer has been dealt with. -/
def handleCmdStopEp (s : State) (e : EpId) (env : Env) (unlinks : List Unlink) : State :=
  let s' := s.setTimer e (s.timer e).stopWatchdogTimerInIrq
  unlinks.foldl urbDequeue { s' with base := s.base.handleCmdStopEp e env [] }

/-- `handle_cmd_completion`. -/
def handleCmdCompletion (s : State) (slot code : Nat) (deq : BitVec 64) (env : Env) (unlinks : List Unlink) : State :=
  match s.base.cmdList with
  | .stopEp e :: _ =>
    if code = compCmdStop then s
    else
      let s := s.handleCmdStopEp (slot, e.2) env unlinks
      { s with base := { s.base with cmdList := s.base.cmdList.tail } }
  | _ => { s with base := s.base.handleCmdCompletion slot code deq env unlinks }

/-- `ehub_xhci_stop_endpoint_command_watchdog`. -/
def stopEndpointCommandWatchdog (s : State) (e : EpId) (endpoints : List EpId) : State :=
  let s := s.setTimer e (s.timer e).run
  if s.base.dying then s
  else if ¬((s.timer e).stopCmdsPending = 0 ∧ (s.base.ep e).haltPending) then s
  else { s with base := s.base.watchdog endpoints }

end State

inductive Op where
  | transfer (op : Transfer.Op)
  | expire (e : EpId)
  | handler (e : EpId) (endpoints : List EpId)

def State.step (s : State) : Op → State
  | .transfer (.urbDequeue u) => s.urbDequeue u
  | .transfer (.cmdCompletion slot code deq env unlinks) => s.handleCmdCompletion slot code deq env unlinks
  -- The watchdog runs in its handler only.
  | .transfer (.watchdog _) => s
  | .transfer op => { s with base := s.base.step op }
  | .expire e => s.setTimer e (s.timer e).expire
  | .handler e endpoints => s.stopEndpointCommandWatchdog e endpoints

/-- A timer expires when it is armed, and its handler runs once for that. The event of a
    Stop Endpoint command names the slot of the command. -/
def Op.Allowed (s : State) : Op → Prop
  | .transfer (.cmdCompletion slot _ _ _ _) => ∀ e, s.base.cmdList.head? = some (.stopEp e) → slot = e.1
  | .transfer op => op.Allowed s.base
  | .expire e => (s.timer e).armed = true
  | .handler e _ => 0 < (s.timer e).expired

/-- No cancellation yet. -/
def New (s : State) : Prop := Transfer.New s.base ∧ ∀ e, s.timer e = ⟨0, false, 0, false⟩

def Reachable (s : State) : Prop := Run.Reachable New (fun s op => op.Allowed s) State.step s

/-! ### The transfers below -/

/-- Cancellations in a row do to the transfers what they do without timers. -/
theorem base_urbDequeues : ∀ (unlinks : List Unlink) (s : State),
    (unlinks.foldl State.urbDequeue s).base = unlinks.foldl Transfer.State.urbDequeue s.base := by
  intro unlinks
  induction unlinks with
  | nil => exact fun _ => rfl
  | cons u unlinks ih => exact fun s => ih (s.urbDequeue u)

theorem base_handleCmdCompletion (s : State) (slot code : Nat) (deq : BitVec 64) (env : Env) (unlinks : List Unlink) :
    (s.handleCmdCompletion slot code deq env unlinks).base = s.base.handleCmdCompletion slot code deq env unlinks := by
  unfold State.handleCmdCompletion
  split
  · rename_i e rest is_list
    unfold Transfer.State.handleCmdCompletion
    rw [is_list]
    dsimp only
    split_ifs
    · rfl
    · show { (State.handleCmdStopEp s (slot, e.2) env unlinks).base with
        cmdList := (State.handleCmdStopEp s (slot, e.2) env unlinks).base.cmdList.tail } = _
      rw [State.handleCmdStopEp, base_urbDequeues]
      rfl
  · rfl

/-- Each step is one of the transfers, or leaves them alone. -/
theorem base_step (s : State) (op : Op) (allowed : op.Allowed s) :
    (s.step op).base = s.base ∨ ∃ op' : Transfer.Op, op'.Allowed s.base ∧ (s.step op).base = s.base.step op' := by
  cases op with
  | transfer op =>
    cases op with
    | watchdog endpoints => exact .inl rfl
    | cmdCompletion slot code deq env unlinks =>
      exact .inr ⟨.cmdCompletion slot code deq env unlinks, trivial, base_handleCmdCompletion s slot code deq env unlinks⟩
    | urbDequeue u => exact .inr ⟨.urbDequeue u, allowed, rfl⟩
    | enqueue e urb ring tds submitted => exact .inr ⟨.enqueue e urb ring tds submitted, allowed, rfl⟩
    | txEvent e event env => exact .inr ⟨.txEvent e event env, allowed, rfl⟩
    | cacheComplete => exact .inr ⟨.cacheComplete, allowed, rfl⟩
    | queueOther ret => exact .inr ⟨.queueOther ret, allowed, rfl⟩
    | raise => exact .inr ⟨.raise, allowed, rfl⟩
    | die => exact .inr ⟨.die, allowed, rfl⟩
  | expire e => exact .inl rfl
  | handler e endpoints =>
    unfold State.step State.stopEndpointCommandWatchdog
    dsimp only
    split_ifs
    · exact .inl rfl
    · exact .inr ⟨.watchdog endpoints, trivial, rfl⟩
    · exact .inl rfl

theorem base_reachable {s : State} (reachable : Reachable s) : Transfer.Reachable (fun _ _ => True) s.base := by
  refine Run.Reachable.invariant (P := fun s => Transfer.Reachable (fun _ _ => True) s.base) ?_ ?_ reachable
  · exact fun s new => .first new.1
  · intro s op before allowed
    rcases base_step s op allowed with same | ⟨op', allowed', next⟩
    · show Transfer.Reachable _ (s.step op).base
      rw [same]
      exact before
    · show Transfer.Reachable _ (s.step op).base
      rw [next]
      exact .step op' before ⟨allowed', trivial⟩

/-! ### `EP_HALT_PENDING` -/

/-- The flags of all endpoints are as they were. -/
structure SameHalts (s s' : Transfer.State) : Prop where
  same : ∀ e, (s'.ep e).haltPending = (s.ep e).haltPending

section
variable {s s' s'' : Transfer.State} {e : EpId}

theorem SameHalts.refl (s : Transfer.State) : SameHalts s s := ⟨fun _ => rfl⟩

theorem SameHalts.trans (left : SameHalts s s') (right : SameHalts s' s'') : SameHalts s s'' :=
  ⟨fun e => (right.same e).trans (left.same e)⟩

theorem sameHalts_of_ep (same : s'.ep = s.ep) : SameHalts s s' := ⟨fun e => by rw [same]⟩

theorem sameHalts_setEp {ep : Ep} (same : ep.haltPending = (s.ep e).haltPending) : SameHalts s (s.setEp e ep) := by
  refine ⟨fun e' => ?_⟩
  by_cases here : e' = e
  · rw [here, State.ep_setEp, same]
  · rw [State.ep_setEp_other _ here]

theorem sameHalts_queueCommand (ret : Int) (cmd : Cmd) : SameHalts s (s.queueCommand ret cmd) :=
  sameHalts_of_ep (State.ep_queueCommand ..)

theorem sameHalts_cleanupStalledRing (td : Td) (env : Env) : SameHalts s (s.cleanupStalledRing e td env) := by
  unfold Transfer.State.cleanupStalledRing
  split
  · exact .refl s
  · rename_i deqState _
    have same : (queueNewDequeueState (s.ep e).toEndpoint deqState (s.queueEnv env)).1.haltPending = (s.ep e).haltPending := by
      rcases queueNewDequeueState_cases (s.ep e).toEndpoint deqState (s.queueEnv env) with ⟨p, eq, _⟩ | ⟨_, eq⟩
      · rw [eq]
      · rw [eq]
    exact SameHalts.trans (sameHalts_setEp same) (sameHalts_of_ep (State.ep_withSetDeq ..))

theorem sameHalts_cleanupHaltedEndpoint (td : Td) (env : TxEnv) : SameHalts s (s.cleanupHaltedEndpoint e td env) := by
  unfold Transfer.State.cleanupHaltedEndpoint
  split_ifs
  · exact .refl s
  · have noted : SameHalts s (s.setEp e { s.ep e with halted := true }) := sameHalts_setEp rfl
    exact (noted.trans (sameHalts_queueCommand ..)).trans (sameHalts_cleanupStalledRing td env.env)

theorem sameHalts_removeTd (td : Td) : SameHalts s (s.removeTd e td).1 := by
  have removed : SameHalts s (s.setEp e { s.ep e with
      tdList := (s.ep e).tdList.erase td, cancelledTdList := (s.ep e).cancelledTdList.erase td }) := sameHalts_setEp rfl
  exact removed.trans (sameHalts_of_ep rfl)

theorem sameHalts_ring (r : Ring) : SameHalts s (s.setEp e { s.ep e with ring := r }) := sameHalts_setEp rfl

theorem sameHalts_finishTd (td : Td) (skip : Bool) (event : Event) (env : TxEnv) :
    SameHalts s (s.finishTd e td skip event env).1 := by
  unfold Transfer.State.finishTd
  split_ifs
  · exact sameHalts_removeTd td
  · exact sameHalts_setEp rfl
  · exact (sameHalts_cleanupHaltedEndpoint td env).trans (sameHalts_removeTd td)
  · exact (sameHalts_ring _).trans (sameHalts_removeTd td)

theorem sameHalts_cleanup (ret : Bool) (td : Option Td) : SameHalts s (s.cleanup ret td) := by
  refine sameHalts_of_ep ?_
  cases ret <;> cases td <;> rfl

theorem sameHalts_handleTxEvent (event : Event) (env : TxEnv) : SameHalts s (s.handleTxEvent e event env) := by
  have loops : ∀ code fuel tdNum ret s', SameHalts s s' → SameHalts s (s'.txLoop e event code env fuel tdNum ret) := by
    intro code
    refine txLoop_rule (SameHalts s) (SameHalts s) (fun _ same => same) ?_ ?_ ?_ ?_
    · intro s' skip short same _
      exact same.trans (sameHalts_setEp rfl)
    · intro s' td rest same _ _ _ _
      have skipped : SameHalts s' (s'.skipIsocTd e td event env).1 :=
        (sameHalts_ring _).trans (sameHalts_finishTd td true event env)
      exact (same.trans skipped).trans (sameHalts_cleanup ..)
    · intro s' td rest eventTrb same _ _ _ _ _
      exact (same.trans (sameHalts_finishTd ..)).trans (sameHalts_cleanup ..)
    · intro s' td rest eventTrb ret same _ _ _
      exact same.trans (sameHalts_cleanup ..)
  rcases handleTxEvent_cases s e event env with ⟨_, eq⟩ | ⟨_, ⟨code, tdNum, eq, _, _⟩ | ⟨_, eq | eq⟩⟩
  · rw [eq]
    exact .refl s
  · rw [eq]
    refine loops _ _ _ _ _ ?_
    unfold Transfer.State.noteStall
    split_ifs
    · exact sameHalts_setEp rfl
    · exact .refl s
  · rw [eq]
    exact .refl s
  · rw [eq]
    exact sameHalts_setEp rfl

theorem sameHalts_dropTds (urb : Nat) : SameHalts s (s.dropTds e urb) := sameHalts_setEp rfl

theorem sameHalts_cancelTds (urb : Nat) : SameHalts s (s.cancelTds e urb) := sameHalts_setEp rfl

/-- What a cancellation does to the flags. -/
theorem halt_urbDequeue (u : Unlink) : ((s.urbDequeue u).ep e).haltPending =
    if QueuesStop s u ∧ e = u.e then true else (s.ep e).haltPending := by
  unfold Transfer.State.urbDequeue QueuesStop
  by_cases refused : (u.e, u.urb) ∉ s.linked ∨ u.urb ∈ s.unlinked ∨ u.urb ∈ s.givenBack
  · rw [if_pos refused, if_neg (fun queues => queues.1.1 refused)]
  rw [if_neg refused]
  dsimp only
  by_cases gone : u.gone = true
  · rw [if_pos gone, if_neg (fun queues => by rw [gone] at queues; exact absurd queues.1.2.1 (by decide))]
    exact (sameHalts_dropTds (s := s.noteUnlinked u.urb) u.urb).same e
  rw [if_neg gone]
  by_cases dying : s.dying = true
  · rw [if_pos (show (s.noteUnlinked u.urb).dying = true from dying),
      if_neg (fun queues => by rw [dying] at queues; exact absurd queues.1.2.2.1 (by decide))]
    rfl
  rw [if_neg (show ¬(s.noteUnlinked u.urb).dying = true from dying)]
  by_cases pending : (s.ep u.e).haltPending = true
  · rw [if_pos (show ((s.noteUnlinked u.urb).ep u.e).haltPending = true from pending),
      if_neg (fun queues => by rw [pending] at queues; exact absurd queues.1.2.2.2.1 (by decide))]
    exact (sameHalts_cancelTds (s := s.noteUnlinked u.urb) u.urb).same e
  rw [if_neg (show ¬((s.noteUnlinked u.urb).ep u.e).haltPending = true from pending)]
  by_cases alloc : u.alloc = true
  · rw [if_neg (by rw [alloc]; decide)]
    rw [Bool.not_eq_true] at gone dying pending
    by_cases here : e = u.e
    · rw [if_pos ⟨⟨refused, gone, dying, pending, alloc⟩, here⟩, here, Transfer.State.stopEndpoint, State.ep_queueCommand,
        State.ep_setEp]
    · rw [if_neg (fun queues => here queues.2), Transfer.State.stopEndpoint, State.ep_queueCommand,
        State.ep_setEp_other _ here, Transfer.State.cancelTds, State.ep_setEp_other _ here]
      rfl
  · rw [Bool.not_eq_true] at alloc
    rw [if_pos (by rw [alloc]; rfl), if_neg (fun queues => by rw [alloc] at queues; exact absurd queues.1.2.2.2.2 (by decide))]
    exact (sameHalts_cancelTds (s := s.noteUnlinked u.urb) u.urb).same e

/-- The flag is cleared when the command has completed. -/
theorem halt_handleCmdStopEp (env : Env) (e' : EpId) : ((s.handleCmdStopEp e env []).ep e').haltPending =
    if e' = e then false else (s.ep e').haltPending := by
  unfold Transfer.State.handleCmdStopEp
  dsimp only
  rw [List.foldl_nil, (givebacks_frame e _ _).1, State.ep_markIf, State.ep_withSetDeq, State.ep_markIf]
  split_ifs with here
  · rw [here, State.ep_setEp]
    exact (stopEp_spec (s.ep e).toEndpoint (s.queueEnv env)).halt
  · rw [State.ep_setEp_other _ here]

theorem sameHalts_handleCmdSetDeq (code : Nat) (deq : BitVec 64) : SameHalts s (s.handleCmdSetDeq e code deq) := by
  unfold Transfer.State.handleCmdSetDeq
  dsimp only
  refine SameHalts.trans ?_ (sameHalts_of_ep (State.ep_markIf ..))
  refine SameHalts.trans ?_ (sameHalts_of_ep (State.ep_markIf ..))
  exact sameHalts_setEp rfl

theorem sameHalts_handleCmdResetEp : SameHalts s (s.handleCmdResetEp e) := by
  unfold Transfer.State.handleCmdResetEp
  refine SameHalts.trans ?_ (sameHalts_of_ep (State.ep_markIf ..))
  exact sameHalts_setEp rfl

theorem sameHalts_killed : ∀ (endpoints : List EpId) (s : Transfer.State),
    SameHalts s (endpoints.foldl Transfer.State.killEndpointUrbs s) := by
  intro endpoints
  induction endpoints with
  | nil => exact fun s => .refl s
  | cons e endpoints ih =>
    intro s
    have killed : SameHalts s (s.killEndpointUrbs e) := by
      unfold Transfer.State.killEndpointUrbs
      dsimp only
      refine SameHalts.trans ?_ (sameHalts_of_ep (givebacks_frame e _ _).1)
      exact sameHalts_setEp rfl
    exact killed.trans (ih _)

/-- No other operation on the transfers touches the flag. -/
theorem sameHalts_handleCmdCompletion (slot code : Nat) (deq : BitVec 64) (env : Env) (unlinks : List Unlink)
    (other : ∀ e rest, s.cmdList ≠ .stopEp e :: rest) : SameHalts s (s.handleCmdCompletion slot code deq env unlinks) := by
  unfold Transfer.State.handleCmdCompletion
  split
  · exact .refl s
  · rename_i cmd rest is_list
    split_ifs
    · exact .refl s
    · cases cmd with
      | stopEp e => exact absurd is_list (other e rest)
      | setDeq e => exact (sameHalts_handleCmdSetDeq code deq).trans (sameHalts_of_ep rfl)
      | resetEp e => exact sameHalts_handleCmdResetEp.trans (sameHalts_of_ep rfl)
      | other => exact sameHalts_of_ep rfl

theorem sameHalts_cacheComplete : SameHalts s s.cacheComplete := by
  unfold Transfer.State.cacheComplete
  split
  · exact .refl s
  · dsimp only
    split_ifs
    · exact sameHalts_of_ep rfl
    · exact sameHalts_of_ep (State.ep_markIf ..)

theorem sameHalts_enqueue (urb : Nat) (ring : Ring) (tds : List (TrbPtr × TrbPtr)) (submitted : Bool) :
    SameHalts s (s.enqueue e urb ring tds submitted) := by
  have queued : SameHalts s (s.setEp e { s.ep e with
      ring := ring, tdList := (s.ep e).tdList ++ tds.mapIdx fun i td => ⟨urb, i, td.1, td.2⟩ }) := sameHalts_setEp rfl
  unfold Transfer.State.enqueue
  by_cases dying : s.dying = true
  · rw [if_pos dying]
    exact .refl s
  · rw [if_neg dying]
    exact queued.trans (sameHalts_of_ep rfl)

theorem sameHalts_watchdog (endpoints : List EpId) : SameHalts s (s.watchdog endpoints) := by
  unfold Transfer.State.watchdog
  split_ifs
  · exact .refl s
  · have dead : SameHalts s { s with dying := true } := sameHalts_of_ep rfl
    exact dead.trans (sameHalts_killed endpoints _)

end

/-! ### The counter and the flag in every state -/

structure Inv (s : State) : Prop where
  count : ∀ e, (s.timer e).Counts
  halt : ∀ e, (s.timer e).armed = true → (s.base.ep e).haltPending = true
  recent : ∀ e, (s.base.ep e).haltPending = true → (s.timer e).completed = false

section
variable {s s' : State} {e : EpId}

theorem Inv.transfer (inv : Inv s) (timers : s'.timer = s.timer) (same : SameHalts s.base s'.base) : Inv s' := by
  constructor
  · intro e
    rw [timers]
    exact inv.count e
  · intro e
    rw [timers, same.same e]
    exact inv.halt e
  · intro e
    rw [timers, same.same e]
    exact inv.recent e

/-- One timer is changed, and at most the flag of its endpoint. -/
theorem Inv.setTimer (inv : Inv s) {t : Timer} (timers : s'.timer = Function.update s.timer e t)
    (others : ∀ e' ≠ e, (s'.base.ep e').haltPending = (s.base.ep e').haltPending)
    (count : t.Counts) (halt : t.armed = true → (s'.base.ep e).haltPending = true)
    (recent : (s'.base.ep e).haltPending = true → t.completed = false) : Inv s' := by
  have here : s'.timer e = t := by rw [timers, Function.update_self]
  have there : ∀ e' ≠ e, s'.timer e' = s.timer e' := fun e' other => by rw [timers, Function.update_of_ne other]
  constructor
  · intro e'
    by_cases same : e' = e
    · rw [same, here]
      exact count
    · rw [there e' same]
      exact inv.count e'
  · intro e'
    by_cases same : e' = e
    · rw [same, here]
      exact halt
    · rw [there e' same, others e' same]
      exact inv.halt e'
  · intro e'
    by_cases same : e' = e
    · rw [same, here]
      exact recent
    · rw [there e' same, others e' same]
      exact inv.recent e'

theorem Inv.urbDequeue (inv : Inv s) (u : Unlink) : Inv (s.urbDequeue u) := by
  have halts := fun e => halt_urbDequeue (s := s.base) (e := e) u
  unfold State.urbDequeue
  by_cases queues : QueuesStop s.base u
  · -- The flag was clear, so the timer is not armed yet.
    have clear := queues.2.2.2.1
    have unarmed : (s.timer u.e).armed = false := by
      by_contra armed
      have set := inv.halt u.e (Bool.eq_true_of_not_eq_false armed)
      rw [clear] at set
      cases set
    simp only [if_pos queues]
    refine inv.setTimer rfl ?_ ?_ ?_ ?_
    · intro e other
      exact (halts e).trans (if_neg fun both => other both.2)
    · exact (inv.count u.e).arm unarmed
    · intro _
      exact (halts u.e).trans (if_pos ⟨queues, rfl⟩)
    · intro _
      rfl
  · simp only [if_neg queues]
    exact inv.transfer rfl ⟨fun e => (halts e).trans (if_neg fun both => queues both.1)⟩

theorem Inv.urbDequeues : ∀ (unlinks : List Unlink) {s : State}, Inv s → Inv (unlinks.foldl State.urbDequeue s) := by
  intro unlinks
  induction unlinks with
  | nil => exact fun inv => inv
  | cons u unlinks ih => exact fun inv => ih (inv.urbDequeue u)

theorem Inv.handleCmdStopEp (inv : Inv s) (e : EpId) (env : Env) (unlinks : List Unlink) :
    Inv (s.handleCmdStopEp e env unlinks) := by
  have halts := halt_handleCmdStopEp (s := s.base) (e := e) env
  have clear := (halts e).trans (if_pos rfl)
  refine Inv.urbDequeues unlinks (inv.setTimer rfl ?_ ?_ ?_ ?_)
  · intro e' other
    exact (halts e').trans (if_neg other)
  · exact (inv.count e).stopWatchdogTimerInIrq
  · intro armed
    unfold Timer.stopWatchdogTimerInIrq at armed
    split_ifs at armed with before
    exact absurd armed before
  · intro pending
    exact absurd (pending.symm.trans clear) (by decide)

theorem Inv.handleCmdCompletion (inv : Inv s) (slot code : Nat) (deq : BitVec 64) (env : Env) (unlinks : List Unlink) :
    Inv (s.handleCmdCompletion slot code deq env unlinks) := by
  unfold State.handleCmdCompletion
  split
  · rename_i e rest is_list
    split_ifs
    · exact inv
    · exact (inv.handleCmdStopEp (slot, e.2) env unlinks).transfer rfl (sameHalts_of_ep rfl)
  · rename_i other
    exact inv.transfer rfl (sameHalts_handleCmdCompletion slot code deq env unlinks other)

theorem Inv.run (inv : Inv s) (out : 0 < (s.timer e).expired) : Inv (s.setTimer e (s.timer e).run) :=
  inv.setTimer rfl (fun _ _ => rfl) ((inv.count e).run out) (inv.halt e) (inv.recent e)

theorem Inv.step (inv : Inv s) (op : Op) (allowed : op.Allowed s) : Inv (s.step op) := by
  cases op with
  | transfer op =>
    cases op with
    | urbDequeue u => exact inv.urbDequeue u
    | cmdCompletion slot code deq env unlinks => exact inv.handleCmdCompletion slot code deq env unlinks
    | watchdog endpoints => exact inv
    | txEvent e event env => exact inv.transfer rfl (sameHalts_handleTxEvent event env)
    | cacheComplete => exact inv.transfer rfl sameHalts_cacheComplete
    | queueOther ret => exact inv.transfer rfl (sameHalts_queueCommand ret .other)
    | raise => exact inv.transfer rfl (sameHalts_of_ep rfl)
    | die => exact inv.transfer rfl (sameHalts_of_ep rfl)
    | enqueue e urb ring tds submitted => exact inv.transfer rfl (sameHalts_enqueue urb ring tds submitted)
  | expire e =>
    refine inv.setTimer rfl (fun _ _ => rfl) ((inv.count e).expire allowed) ?_ (inv.recent e)
    rintro ⟨⟩
  | handler e endpoints =>
    have ran := inv.run allowed
    show Inv (s.stopEndpointCommandWatchdog e endpoints)
    unfold State.stopEndpointCommandWatchdog
    dsimp only
    split_ifs
    · exact ran
    · exact ran.transfer rfl (sameHalts_watchdog endpoints)
    · exact ran

theorem inv_reachable (reachable : Reachable s) : Inv s := by
  refine Run.Reachable.invariant (P := Inv) ?_ (fun s op inv allowed => inv.step op allowed) reachable
  intro s new
  constructor
  · intro e
    rw [new.2 e]
    exact rfl
  · intro e armed
    rw [new.2 e] at armed
    cases armed
  · intro e _
    rw [new.2 e]

/-- In every reachable state the counter of every endpoint counts its armed timer and the
    handlers that have not run, and a handler marks the host dying only when it is the last
    one and the Stop Endpoint command has not completed. -/
theorem watchdog_sound (reachable : Reachable s) (e : EpId) :
    (s.timer e).stopCmdsPending = (s.timer e).outstanding ∧ 0 ≤ (s.timer e).stopCmdsPending ∧
      ∀ endpoints, 0 < (s.timer e).expired → s.base.dying = false → (s.step (.handler e endpoints)).base.dying = true →
        (s.timer e).outstanding = 1 ∧ (s.timer e).completed = false := by
  have inv := inv_reachable reachable
  have count : (s.timer e).stopCmdsPending = (s.timer e).outstanding := inv.count e
  refine ⟨count, by rw [count]; exact Int.natCast_nonneg _, ?_⟩
  intro endpoints out alive marked
  have ran : (s.setTimer e (s.timer e).run).timer e = (s.timer e).run := Function.update_self ..
  -- The handler has gone past both of its exits.
  have last : (s.timer e).run.stopCmdsPending = 0 ∧ (s.base.ep e).haltPending = true := by
    by_contra notLast
    have notLast : ¬(((s.setTimer e (s.timer e).run).timer e).stopCmdsPending = 0 ∧
        ((s.setTimer e (s.timer e).run).base.ep e).haltPending = true) := by
      rw [ran]
      exact notLast
    have same : (s.step (.handler e endpoints)).base = s.base := by
      show (s.stopEndpointCommandWatchdog e endpoints).base = _
      unfold State.stopEndpointCommandWatchdog
      dsimp only
      rw [if_neg (by rw [show (s.setTimer e (s.timer e).run).base.dying = false from alive]; decide), if_pos notLast]
      rfl
    rw [same, alive] at marked
    cases marked
  refine ⟨?_, inv.recent e last.2⟩
  have pending : (s.timer e).stopCmdsPending - 1 = 0 := last.1
  omega

end

def newTimers : State := ⟨idleState, fun _ => ⟨0, false, 0, false⟩⟩

/-- A timer expires, the command completes all the same, and the next cancellation arms the
    timer again before the handler has run. -/
def rearmed : List Op :=
  [.transfer oneTrb, .transfer (.urbDequeue ⟨(1, 2), 7, false, true, 0⟩), .expire (1, 2),
    .transfer (.cmdCompletion 1 1 0 ⟨0, true, true, 0⟩ []),
    .transfer (.enqueue (1, 2) 8 RingAccount.bulkRing [(⟨0x1000, 1⟩, ⟨0x1000, 1⟩)] true),
    .transfer (.urbDequeue ⟨(1, 2), 8, false, true, 0⟩)]

theorem watchdog_sound_rearmed :
    let s := rearmed.foldl State.step newTimers
    (s.timer (1, 2)).stopCmdsPending = (s.timer (1, 2)).outstanding ∧ 0 ≤ (s.timer (1, 2)).stopCmdsPending ∧
      ∀ endpoints, 0 < (s.timer (1, 2)).expired → s.base.dying = false →
        (s.step (.handler (1, 2) endpoints)).base.dying = true →
          (s.timer (1, 2)).outstanding = 1 ∧ (s.timer (1, 2)).completed = false := by
  have new : Reachable newTimers := .first ⟨idleState_new, fun _ => rfl⟩
  refine watchdog_sound (new.all (show Run.Allows _ _ _ rearmed from ?_)) (1, 2)
  refine ⟨⟨fun _ => List.not_mem_nil, by decide⟩, trivial, ?_, ?_, ⟨?_, by decide⟩, trivial, trivial⟩
  · show ((rearmed.take 2).foldl State.step newTimers |>.timer (1, 2)).armed = true
    decide +kernel
  · intro e isHead
    have head : ((rearmed.take 3).foldl State.step newTimers).base.cmdList.head? = some (.stopEp (1, 2)) := by decide +kernel
    cases head.symm.trans isHead
    rfl
  · intro e member
    have linked : ((rearmed.take 4).foldl State.step newTimers).base.linked = [((1, 2), 7)] := by decide +kernel
    cases List.mem_singleton.mp (linked ▸ (show (e, 8) ∈ ((rearmed.take 4).foldl State.step newTimers).base.linked from member))

/-- Both timers are counted there. -/
example : ((rearmed.foldl State.step newTimers).timer (1, 2)).stopCmdsPending = 2 := by decide +kernel

end Ehub.Watchdog
