import Mathlib
import Ehub.Run
import Ehub.Cancel

/-!
The life of TDs (`xhci-ring.c`, `ehub_xhci_urb_dequeue`). TDs join the `td_list` of
their endpoint when a URB is queued. They leave it when a transfer event says so
(`ehub_handle_tx_event`, `finish_td`), or when a cancelled URB is taken out after the
endpoint has been stopped (`xhci_handle_cmd_stop_ep`), or when the host is given up (the
stop endpoint watchdog). An endpoint with `EP_HALT_PENDING`, `SET_DEQ_PENDING` or
`EP_HALTED` rings no doorbell; the flags are taken back when the Stop Endpoint, Set TR
Dequeue Pointer or Reset Endpoint command completes.

Every handler is one step. URBs have numbers that are not used again. Endpoints have no
streams.
-/
namespace Ehub.Transfer
open Ehub.Ring Ehub.Segments Ehub.Cancel

/-- A slot and an endpoint index of it. -/
abbrev EpId := Nat × Nat

inductive Pipe where
  | control | isoc | bulkIntr
deriving DecidableEq

/-- `struct xhci_virt_ep` with what transfer events need. -/
structure Ep extends Endpoint where
  pipe : Pipe
  skip : Bool
  lastTdWasShort : Bool

/-- An entry of `cmd_list`. -/
inductive Cmd where
  | stopEp (e : EpId)
  | setDeq (e : EpId)
  | resetEp (e : EpId)
  | other
deriving DecidableEq

/-- `struct urb_priv`. -/
structure UrbPriv where
  tdCnt : Nat
  length : Nat

/-- What matters for the doorbell of an endpoint: a URB's TRBs have all been written to
    the device, a flag that was set has been cleared, the doorbell was written. -/
inductive Mark where
  | written (urb : Nat)
  | cleared
  | doorbell
deriving DecidableEq

/-- `linked` are the URBs that were queued and `unlinked` those of them that
    `usb_hcd_check_unlink_urb` has let through; `writes` are the cache writes in flight
    that end a URB's TRBs, in order. `givenBack` and `freed`
    record the calls of `usb_hcd_giveback_urb` and `ehub_xhci_urb_free_priv`, `log` what
    happened for the doorbells, the latest last. -/
structure State where
  ep : EpId → Ep
  cmdList : List Cmd
  urbPriv : Nat → UrbPriv
  linked : List (EpId × Nat)
  unlinked : List Nat
  writes : List (EpId × Nat)
  dying : Bool
  error : Bool
  givenBack : List Nat
  freed : List Nat
  log : List (EpId × Mark)

def compSuccess : Nat := 1
def compDbErr : Nat := 2
def compBabble : Nat := 3
def compTxErr : Nat := 4
def compTrbErr : Nat := 5
def compStall : Nat := 6
def compShortTx : Nat := 13
def compUnderrun : Nat := 14
def compOverrun : Nat := 15
def compBwOver : Nat := 18
def compDevErr : Nat := 22
def compMissedInt : Nat := 23
def compCmdStop : Nat := 24
def compStop : Nat := 26
def compStopInval : Nat := 27
def compBuffOver : Nat := 31
def compSplitErr : Nat := 36

def eSHUTDOWN : Int := 108

/-- A transfer event: completion code, TRB pointer and the bytes that were not transferred. -/
structure Event where
  code : Nat
  buffer : BitVec 64
  trbLen : Nat

/-- What a transfer event finds: the endpoint's state in its context, the quirks, the
    outcomes of allocating and queueing the Reset Endpoint command, and what follows it. -/
structure TxEnv where
  epState : Nat
  trustTxLength : Bool
  spuriousSuccess : Bool
  resetAlloc : Bool
  resetQueue : Int
  env : Env

/-- A call of `ehub_xhci_urb_dequeue`: whether the device is not attached or the host has
    halted, and the outcomes of allocating and queueing the Stop Endpoint command. -/
structure Unlink where
  e : EpId
  urb : Nat
  gone : Bool
  alloc : Bool
  ret : Int

/-- What the switch of `ehub_handle_tx_event` does with a completion code. -/
inductive Reaction where
  | process (code : Nat)
  | leave

/-- The loop of `ehub_trb_in_td`. -/
def trbInTdLoop (r : Ring) (startSeg : Addr) (endTrb : TrbPtr) (suspect : BitVec 64) : Nat → Addr → BitVec 64 → Option Addr
  | 0, _, _ => none
  | fuel + 1, seg, start =>
    if start = 0 then none
    else
      let endSeg := trbVirtToDma (link seg)
      -- If the end TRB is not in this segment, this is 0.
      let endDma := if endTrb.seg = seg then trbVirtToDma endTrb else 0
      if 0 < endDma then
        if start ≤ endDma then if start ≤ suspect ∧ suspect ≤ endDma then some seg else none
        else if (start ≤ suspect ∧ suspect ≤ endSeg) ∨ (seg ≤ suspect ∧ suspect ≤ endDma) then some seg
        else none
      else if start ≤ suspect ∧ suspect ≤ endSeg then some seg
      else if r.next seg = startSeg then none
      else trbInTdLoop r startSeg endTrb suspect fuel (r.next seg) (trbVirtToDma ⟨r.next seg, 0⟩)

/-- `ehub_trb_in_td` from `dequeue` to the end of a TD, with the TRB of the segment found. -/
def trbInTd (r : Ring) (endTrb : TrbPtr) (suspect : BitVec 64) : Option TrbPtr :=
  (trbInTdLoop r r.dequeue.seg endTrb suspect (r.numSegs + 1) r.dequeue.seg (trbVirtToDma r.dequeue)).map
    fun seg => ⟨seg, (suspect - seg).toNat / 16⟩

/-- `while (ep_ring->dequeue != td->last_trb) inc_deq`. -/
def advanceLoop (lastTrb : TrbPtr) : Nat → Ring → Ring
  | 0, r => r
  | fuel + 1, r => if r.dequeue = lastTrb then r else advanceLoop lastTrb fuel r.incDeq

/-- The ring's dequeue pointer moves past a TD. -/
def advance (r : Ring) (lastTrb : TrbPtr) : Ring := (advanceLoop lastTrb (trbsPerSegment * r.numSegs) r).incDeq

/-- `xhci_requires_manual_halt_cleanup`; 2 is `EP_STATE_HALTED`. -/
def requiresManualHaltCleanup (epState code : Nat) : Bool :=
  (code == compTxErr || code == compBabble || code == compSplitErr) && epState == 2

/-- `ehub_xhci_is_vendor_info_code`. -/
def isVendorInfoCode (code : Nat) : Bool := 224 ≤ code ∧ code ≤ 255

/-- One of the flags that keep the doorbell from being rung is set. -/
def Ep.blocked (ep : Ep) : Bool := ep.haltPending || ep.setDeqPending || ep.halted

/-- Whether `process_ctrl_td`, `process_isoc_td` or `process_bulk_intr_td` finishes the TD. -/
def finishes (ep : Ep) (td : Td) (eventTrb : TrbPtr) (event : Event) (epState : Nat) : Bool :=
  match ep.pipe with
  | .control =>
    -- An event in the data stage waits for the status stage.
    event.code == compStopInval || event.code == compStop || event.code == compStall ||
      (event.code ≠ compSuccess && event.code ≠ compShortTx && requiresManualHaltCleanup epState event.code) ||
      eventTrb == ep.ring.dequeue || eventTrb == td.lastTrb
  | .isoc => !(event.code == compTxErr && eventTrb ≠ td.lastTrb)
  | .bulkIntr => true

/-- The switch of `ehub_handle_tx_event`. -/
def reaction (event : Event) (trustTxLength : Bool) : Reaction :=
  if event.code = compSuccess then
    .process (if event.trbLen ≠ 0 ∧ trustTxLength then compShortTx else compSuccess)
  else if event.code ∈ [compShortTx, compStop, compStopInval, compStall, compTrbErr, compSplitErr, compTxErr, compBabble,
      compDbErr, compBwOver, compBuffOver, compDevErr] then .process event.code
  else if event.code ∈ [compUnderrun, compOverrun, compMissedInt] then .leave
  else if isVendorInfoCode event.code then .process event.code
  else .leave

namespace State

def setEp (s : State) (e : EpId) (ep : Ep) : State := { s with ep := Function.update s.ep e ep }

def mark (s : State) (e : EpId) (m : Mark) : State := { s with log := s.log ++ [(e, m)] }

/-- A flag is cleared; it is a moment to remember if it was set. -/
def markIf (s : State) (e : EpId) (was : Bool) (m : Mark) : State := if was then s.mark e m else s

/-- `queue_command`: the ring may have no room, and nothing is queued on a dying host. -/
def queueCommand (s : State) (ret : Int) (cmd : Cmd) : State :=
  if s.dying ∨ ret < 0 then s else { s with cmdList := s.cmdList ++ [cmd] }

/-- What `queue_command` returns for an internal Set TR Dequeue Pointer command. -/
def queueEnv (s : State) (env : Env) : Env := { env with queueCommand := if s.dying then -eSHUTDOWN else env.queueCommand }

/-- The Set TR Dequeue Pointer command that `ehub_xhci_queue_new_dequeue_state` queued. -/
def withSetDeq (s : State) (e : EpId) (queued : Option (TrbPtr × Bool)) : State :=
  match queued with
  | some _ => { s with cmdList := s.cmdList ++ [.setDeq e] }
  | none => s

/-- `ehub_xhci_urb_free_priv` and `usb_hcd_giveback_urb`. -/
def giveback (s : State) (urb : Nat) : State := { s with givenBack := s.givenBack ++ [urb], freed := s.freed ++ [urb] }

def tdDone (s : State) (urb : Nat) : State :=
  { s with urbPriv := Function.update s.urbPriv urb { s.urbPriv urb with tdCnt := (s.urbPriv urb).tdCnt + 1 } }

/-- All TDs of the URB are done. -/
def allDone (s : State) (urb : Nat) : Bool := (s.urbPriv urb).tdCnt == (s.urbPriv urb).length

/-- `xhci_giveback_urb_in_irq`. -/
def givebackUrbInIrq (s : State) (td : Td) : State :=
  let s := s.tdDone td.urb
  if s.allDone td.urb then s.giveback td.urb else s

/-- `ehub_xhci_cleanup_stalled_ring`. -/
def cleanupStalledRing (s : State) (e : EpId) (td : Td) (env : Env) : State :=
  match findNewDequeueState (s.ep e).ring td env with
  | none => s
  | some deqState =>
    let (ep, queued) := queueNewDequeueState (s.ep e).toEndpoint deqState (s.queueEnv env)
    (s.setEp e { s.ep e with toEndpoint := ep }).withSetDeq e queued

/-- `xhci_cleanup_halted_endpoint`. -/
def cleanupHaltedEndpoint (s : State) (e : EpId) (td : Td) (env : TxEnv) : State :=
  if !env.resetAlloc then s
  else ((s.setEp e { s.ep e with halted := true }).queueCommand env.resetQueue (.resetEp e)).cleanupStalledRing e td env.env

/-- The end of `finish_td`: the TD leaves the lists. The URB is given back if it was the
    last one. -/
def removeTd (s : State) (e : EpId) (td : Td) : State × Bool :=
  let ep := s.ep e
  let s := s.setEp e { ep with tdList := ep.tdList.erase td, cancelledTdList := ep.cancelledTdList.erase td }
  let s := s.tdDone td.urb
  (s, s.allDone td.urb)

/-- `finish_td`. -/
def finishTd (s : State) (e : EpId) (td : Td) (skip : Bool) (event : Event) (env : TxEnv) : State × Bool :=
  if skip then s.removeTd e td
  else if event.code = compStopInval ∨ event.code = compStop then (s.setEp e { s.ep e with stoppedTd := some td }, false)
  else if event.code = compStall ∨ requiresManualHaltCleanup env.epState event.code then
    (s.cleanupHaltedEndpoint e td env).removeTd e td
  else (s.setEp e { s.ep e with ring := advance (s.ep e).ring td.lastTrb }).removeTd e td

/-- The label `cleanup`: the URB of the TD is given back if `ret` is set. -/
def cleanup (s : State) (ret : Bool) (td : Option Td) : State :=
  match ret, td with
  | true, some td => s.giveback td.urb
  | _, _ => s

/-- `skip_isoc_td`. -/
def skipIsocTd (s : State) (e : EpId) (td : Td) (event : Event) (env : TxEnv) : State × Bool :=
  (s.setEp e { s.ep e with ring := advance (s.ep e).ring td.lastTrb }).finishTd e td true event env

/-- The loop of `ehub_handle_tx_event`. `ret` is carried from one iteration to the next. -/
def txLoop (e : EpId) (event : Event) (code : Nat) (env : TxEnv) : Nat → Nat → Bool → State → State
  | 0, _, _, s => s
  | fuel + 1, tdNum, ret, s =>
    let ep := s.ep e
    match ep.tdList with
    | [] => s.setEp e { ep with skip := false }
    | td :: _ =>
      if ep.skip ∧ tdNum = 0 then s.setEp e { ep with skip := false }
      else
        let tdNum := if ep.skip then tdNum - 1 else tdNum
        match trbInTd ep.ring td.lastTrb event.buffer with
        | none =>
          if code = compStop ∨ code = compStopInval then
            if ep.skip then txLoop e event code env fuel tdNum false s else s
          else if !ep.skip ∨ ep.pipe ≠ .isoc then
            if env.spuriousSuccess ∧ ep.lastTdWasShort then
              let s := s.setEp e { ep with lastTdWasShort := false }
              if ep.skip then txLoop e event code env fuel tdNum false s else s
            else s
          else
            let (s, ret) := s.skipIsocTd e td event env
            txLoop e event code env fuel tdNum ret (s.cleanup ret (some td))
        | some eventTrb =>
          let s := s.setEp e { ep with lastTdWasShort := decide (code = compShortTx), skip := false }
          -- The TD was cancelled: `ret` is what the iteration before has left in it.
          if (ep.ring.trb eventTrb).isNoop then s.cleanup ret (some td)
          else if finishes ep td eventTrb event env.epState then
            let (s, ret) := s.finishTd e td false event env
            s.cleanup ret (some td)
          else s

/-- `COMP_STALL` sets `EP_HALTED` before the TD is looked for. -/
def noteStall (s : State) (e : EpId) (event : Event) : State :=
  if event.code = compStall then s.setEp e { s.ep e with halted := true } else s

/-- `ehub_handle_tx_event`; 0 is `EP_STATE_DISABLED`. Codes that only are looked at still
    enter the loop when `skip` is set, but for `COMP_MISSED_INT`, which sets it. -/
def handleTxEvent (s : State) (e : EpId) (event : Event) (env : TxEnv) : State :=
  if env.epState = 0 then s
  else
    let tdNum := if (s.ep e).skip then (s.ep e).tdList.length else 0
    let s := s.noteStall e event
    match reaction event env.trustTxLength with
    | .process code => s.txLoop e event code env (tdNum + 2) tdNum false
    | .leave =>
      if event.code = compMissedInt then s.setEp e { s.ep e with skip := true }
      else if (s.ep e).skip then s.txLoop e event event.code env (tdNum + 2) tdNum false
      else s

/-- A TD of the URB that is not done. -/
def isLeft (s : State) (urb : Nat) (td : Td) : Bool := td.urb == urb && (s.urbPriv urb).tdCnt ≤ td.index

def noteUnlinked (s : State) (urb : Nat) : State := { s with unlinked := s.unlinked ++ [urb] }

/-- The TDs of the URB leave the lists. -/
def dropTds (s : State) (e : EpId) (urb : Nat) : State :=
  s.setEp e { s.ep e with
    tdList := (s.ep e).tdList.filter (!s.isLeft urb ·)
    cancelledTdList := (s.ep e).cancelledTdList.filter (!s.isLeft urb ·) }

/-- The TDs of the URB join `cancelled_td_list`. They are on `td_list` in their order. -/
def cancelTds (s : State) (e : EpId) (urb : Nat) : State :=
  s.setEp e { s.ep e with cancelledTdList := (s.ep e).cancelledTdList ++ (s.ep e).tdList.filter (s.isLeft urb) }

/-- `EP_HALT_PENDING` is set and the Stop Endpoint command queued, whatever becomes of it. -/
def stopEndpoint (s : State) (e : EpId) (ret : Int) : State :=
  (s.setEp e { s.ep e with haltPending := true }).queueCommand ret (.stopEp e)

/-- `ehub_xhci_urb_dequeue`. -/
def urbDequeue (s : State) (u : Unlink) : State :=
  if (u.e, u.urb) ∉ s.linked ∨ u.urb ∈ s.unlinked ∨ u.urb ∈ s.givenBack then s
  else
    let s := s.noteUnlinked u.urb
    if u.gone then (s.dropTds u.e u.urb).giveback u.urb
    else if s.dying then s
    else if (s.ep u.e).haltPending then s.cancelTds u.e u.urb
    else if !u.alloc then s.cancelTds u.e u.urb
    else (s.cancelTds u.e u.urb).stopEndpoint u.e u.ret

/-- `xhci_handle_cmd_stop_ep`; URBs that are given back may unlink others. -/
def handleCmdStopEp (s : State) (e : EpId) (env : Env) (unlinks : List Unlink) : State :=
  let ep := s.ep e
  let outcome := Cancel.handleCmdStopEp ep.toEndpoint (s.queueEnv env)
  let s := (s.setEp e { ep with toEndpoint := outcome.ep }).markIf e ep.haltPending .cleared
  let s := (s.withSetDeq e outcome.setDeq).markIf e outcome.doorbell .doorbell
  unlinks.foldl urbDequeue (outcome.finished.foldl givebackUrbInIrq s)

/-- `xhci_handle_cmd_set_deq`; `deq` is the dequeue pointer in the endpoint's context. -/
def handleCmdSetDeq (s : State) (e : EpId) (code : Nat) (deq : BitVec 64) : State :=
  let ep := s.ep e
  let ring :=
    match ep.queuedDeqPtr with
    | some p => if code = compSuccess ∧ trbVirtToDma p = deq then ep.ring.updateRingForSetDeqCompletion p else ep.ring
    | none => ep.ring
  let ep' := { ep with ring, setDeqPending := false, queuedDeqPtr := none }
  ((s.setEp e ep').markIf e ep.setDeqPending .cleared).markIf e (ringDoorbellForActiveRings ep'.toEndpoint) .doorbell

/-- `xhci_handle_cmd_reset_ep`. -/
def handleCmdResetEp (s : State) (e : EpId) : State :=
  (s.setEp e { s.ep e with halted := false }).markIf e (s.ep e).halted .cleared

/-- `handle_cmd_completion` for the first command: the handlers take the slot from the event
    and the endpoint from the command. -/
def handleCmdCompletion (s : State) (slot code : Nat) (deq : BitVec 64) (env : Env) (unlinks : List Unlink) : State :=
  match s.cmdList with
  | [] => s
  | cmd :: _ =>
    if code = compCmdStop then s
    else
      let s :=
        match cmd with
        | .stopEp e => s.handleCmdStopEp (slot, e.2) env unlinks
        | .setDeq e => s.handleCmdSetDeq (slot, e.2) code deq
        | .resetEp e => s.handleCmdResetEp (slot, e.2)
        | .other => s
      { s with cmdList := s.cmdList.tail }

/-- `xhci_kill_endpoint_urbs`: the TDs on `td_list`, then those only on the other list. -/
def killEndpointUrbs (s : State) (e : EpId) : State :=
  let ep := s.ep e
  let killed := ep.tdList ++ ep.cancelledTdList.filter (· ∉ ep.tdList)
  killed.foldl givebackUrbInIrq (s.setEp e { ep with tdList := [], cancelledTdList := [] })

/-- `ehub_xhci_stop_endpoint_command_watchdog` when it finds the command still pending, for
    the endpoints that there are. -/
def watchdog (s : State) (endpoints : List EpId) : State :=
  if s.dying then s else endpoints.foldl killEndpointUrbs { s with dying := true }

/-- The TDs of a URB are queued; `ring` is the endpoint's ring with them. `submitted` says
    that the cache writes were all accepted. -/
def enqueue (s : State) (e : EpId) (urb : Nat) (ring : Ring) (tds : List (TrbPtr × TrbPtr)) (submitted : Bool) : State :=
  if s.dying then s
  else
    let own := tds.mapIdx fun i td => ⟨urb, i, td.1, td.2⟩
    { s.setEp e { s.ep e with ring, tdList := (s.ep e).tdList ++ own } with
      urbPriv := Function.update s.urbPriv urb ⟨0, tds.length⟩
      linked := s.linked ++ [(e, urb)]
      writes := if submitted then s.writes ++ [(e, urb)] else s.writes }

/-- `URB_CompletionRoutine_Cache` for the write that ends a URB's TRBs. -/
def cacheComplete (s : State) : State :=
  match s.writes with
  | [] => s
  | (e, urb) :: writes =>
    let s := { s with writes }.mark e (.written urb)
    -- `DEVICECONTEXT_ErrorCheck`.
    if s.error ∨ s.dying then s else s.markIf e (!(s.ep e).blocked) .doorbell

end State

inductive Op where
  | enqueue (e : EpId) (urb : Nat) (ring : Ring) (tds : List (TrbPtr × TrbPtr)) (submitted : Bool)
  | urbDequeue (u : Unlink)
  | txEvent (e : EpId) (event : Event) (env : TxEnv)
  | cmdCompletion (slot code : Nat) (deq : BitVec 64) (env : Env) (unlinks : List Unlink)
  | cacheComplete
  | watchdog (endpoints : List EpId)
  | queueOther (ret : Int)
  | raise
  | die

def State.step (s : State) : Op → State
  | .enqueue e urb ring tds submitted => s.enqueue e urb ring tds submitted
  | .urbDequeue u => s.urbDequeue u
  | .txEvent e event env => s.handleTxEvent e event env
  | .cmdCompletion slot code deq env unlinks => s.handleCmdCompletion slot code deq env unlinks
  | .cacheComplete => s.cacheComplete
  | .watchdog endpoints => s.watchdog endpoints
  -- Commands of the USB core, and stop commands for a suspend, which change no flag.
  | .queueOther ret => s.queueCommand ret .other
  | .raise => { s with error := true }
  | .die => { s with dying := true }

/-- No TD and no command is queued, no flag is set; the rings are in any state. -/
structure New (s : State) : Prop where
  idle : ∀ e, (s.ep e).tdList = [] ∧ (s.ep e).cancelledTdList = [] ∧ (s.ep e).stoppedTd = none ∧ (s.ep e).skip = false ∧
    (s.ep e).blocked = false
  empty : s.cmdList = [] ∧ s.linked = [] ∧ s.unlinked = [] ∧ s.writes = [] ∧ s.givenBack = [] ∧ s.freed = [] ∧ s.log = []

/-- A URB is queued once, and with a TD. -/
def Op.Allowed (s : State) : Op → Prop
  | .enqueue _ urb _ tds _ => (∀ e, (e, urb) ∉ s.linked) ∧ tds ≠ []
  | _ => True

def Reachable (condition : State → Op → Prop) (s : State) : Prop :=
  Run.Reachable New (fun s op => op.Allowed s ∧ condition s op) State.step s

/-- Bulk endpoints with new rings. -/
def idleState : State :=
  ⟨fun _ => ⟨⟨RingAccount.bulkRing, [], [], none, false, false, false, none⟩, .bulkIntr, false, false⟩, [], fun _ => ⟨0, 0⟩, [], [],
    [], false, false, [], [], []⟩

theorem idleState_new : New idleState :=
  ⟨fun _ => ⟨rfl, rfl, rfl, rfl, rfl⟩, rfl, rfl, rfl, rfl, rfl, rfl, rfl⟩

/-- A bulk URB of one TRB is queued on the endpoint 2 of slot 1. -/
def oneTrb : Op :=
  .enqueue (1, 2) 7 (RingAccount.bulkRing.queueTd ⟨false, false⟩ RingAccount.normalTrb [] fun _ => .accepted)
    [(⟨0x1000, 0⟩, ⟨0x1000, 0⟩)] true

/-- The search of a transfer event for its TRB when `skip` is set: TDs that do not contain
    it are passed. -/
def findTrb (dma : BitVec 64) : Ring → List Td → Option (Td × Ring × TrbPtr)
  | _, [] => none
  | r, td :: tds =>
    match trbInTd r td.lastTrb dma with
    | some p => some (td, r, p)
    | none => findTrb dma (advance r td.lastTrb) tds

/-- The TRB of a transfer event: missed isoc TDs are passed, otherwise it is in the first TD. -/
def eventTrb (ep : Ep) (dma : BitVec 64) : Option (Td × Ring × TrbPtr) :=
  if ep.skip ∧ ep.pipe = .isoc then findTrb dma ep.ring ep.tdList else findTrb dma ep.ring (ep.tdList.take 1)

theorem eventTrb_first {ep : Ep} {td : Td} {rest : List Td} {dma : BitVec 64} {p : TrbPtr} (is_list : ep.tdList = td :: rest)
    (found : trbInTd ep.ring td.lastTrb dma = some p) : eventTrb ep dma = some (td, ep.ring, p) := by
  rw [eventTrb, is_list]
  split_ifs <;> simp [findTrb, found]

/-- A missed isoc TD is passed. -/
theorem eventTrb_passed {ep : Ep} {td : Td} {rest cancelled : List Td} {dma : BitVec 64} (is_list : ep.tdList = td :: rest)
    (skips : ep.skip = true ∧ ep.pipe = .isoc) (missed : trbInTd ep.ring td.lastTrb dma = none) :
    eventTrb { ep with ring := advance ep.ring td.lastTrb, tdList := rest, cancelledTdList := cancelled } dma =
      eventTrb ep dma := by
  rw [eventTrb, eventTrb, if_pos skips, if_pos skips, is_list, findTrb, missed]

/-- The search goes less far when `skip` is taken back. -/
theorem eventTrb_of_skip {ep : Ep} {dma : BitVec 64} {skip short : Bool} {found : Td × Ring × TrbPtr}
    (less : skip = true → ep.skip = true) (is_trb : eventTrb { ep with skip := skip, lastTdWasShort := short } dma = some found) :
    eventTrb ep dma = some found := by
  have first : ∀ (r : Ring) (l : List Td), findTrb dma r (l.take 1) = some found → findTrb dma r l = some found := by
    intro r l
    cases l with
    | nil => exact fun nothing => nothing
    | cons td l =>
      cases here : trbInTd r td.lastTrb dma with
      | none => simp [findTrb, here]
      | some p => simp [findTrb, here]
  rw [eventTrb] at is_trb ⊢
  split_ifs at is_trb ⊢ with before after after
  · exact is_trb
  · exact first _ _ is_trb
  · exact absurd ⟨less after.1, after.2⟩ before
  · exact is_trb

/-! ### What the steps leave alone -/

section
variable {s : State} {e e' : EpId}

@[simp] theorem State.ep_setEp (ep : Ep) : (s.setEp e ep).ep e = ep := Function.update_self ..

theorem State.ep_setEp_other (ep : Ep) (other : e' ≠ e) : (s.setEp e ep).ep e' = s.ep e' := Function.update_of_ne other ..

@[simp] theorem State.cmdList_setEp (ep : Ep) : (s.setEp e ep).cmdList = s.cmdList := rfl
@[simp] theorem State.dying_setEp (ep : Ep) : (s.setEp e ep).dying = s.dying := rfl
@[simp] theorem State.log_setEp (ep : Ep) : (s.setEp e ep).log = s.log := rfl

@[simp] theorem State.ep_markIf (was : Bool) (m : Mark) : (s.markIf e was m).ep = s.ep := by cases was <;> rfl
@[simp] theorem State.cmdList_markIf (was : Bool) (m : Mark) : (s.markIf e was m).cmdList = s.cmdList := by cases was <;> rfl
@[simp] theorem State.dying_markIf (was : Bool) (m : Mark) : (s.markIf e was m).dying = s.dying := by cases was <;> rfl

@[simp] theorem State.ep_withSetDeq (queued : Option (TrbPtr × Bool)) : (s.withSetDeq e queued).ep = s.ep := by
  cases queued <;> rfl
@[simp] theorem State.dying_withSetDeq (queued : Option (TrbPtr × Bool)) : (s.withSetDeq e queued).dying = s.dying := by
  cases queued <;> rfl

@[simp] theorem State.ep_queueCommand (ret : Int) (cmd : Cmd) : (s.queueCommand ret cmd).ep = s.ep := by
  rw [State.queueCommand]
  split_ifs <;> rfl
@[simp] theorem State.dying_queueCommand (ret : Int) (cmd : Cmd) : (s.queueCommand ret cmd).dying = s.dying := by
  rw [State.queueCommand]
  split_ifs <;> rfl

/-- What a transfer event on the endpoint `e` leaves alone. -/
structure Framed (e : EpId) (s s' : State) : Prop where
  others : ∀ e', e' ≠ e → s'.ep e' = s.ep e'
  dying : s'.dying = s.dying
  error : s'.error = s.error
  linked : s'.linked = s.linked
  unlinked : s'.unlinked = s.unlinked
  writes : s'.writes = s.writes
  log : s'.log = s.log

theorem Framed.refl (e : EpId) (s : State) : Framed e s s := ⟨fun _ _ => rfl, rfl, rfl, rfl, rfl, rfl, rfl⟩

theorem Framed.trans {s' s'' : State} (first : Framed e s s') (second : Framed e s' s'') : Framed e s s'' :=
  ⟨fun e' other => (second.others e' other).trans (first.others e' other), second.dying.trans first.dying,
    second.error.trans first.error, second.linked.trans first.linked, second.unlinked.trans first.unlinked,
    second.writes.trans first.writes, second.log.trans first.log⟩

theorem framed_setEp (ep : Ep) : Framed e s (s.setEp e ep) :=
  ⟨fun _ other => State.ep_setEp_other ep other, rfl, rfl, rfl, rfl, rfl, rfl⟩

theorem framed_queueCommand (ret : Int) (cmd : Cmd) : Framed e s (s.queueCommand ret cmd) := by
  rw [State.queueCommand]
  split_ifs
  · exact .refl e s
  · exact ⟨fun _ _ => rfl, rfl, rfl, rfl, rfl, rfl, rfl⟩

theorem framed_withSetDeq (queued : Option (TrbPtr × Bool)) : Framed e s (s.withSetDeq e queued) := by
  cases queued with
  | none => exact .refl e s
  | some _ => exact ⟨fun _ _ => rfl, rfl, rfl, rfl, rfl, rfl, rfl⟩

theorem framed_cleanupStalledRing (td : Td) (env : Env) : Framed e s (s.cleanupStalledRing e td env) := by
  rw [State.cleanupStalledRing]
  split
  · exact .refl e s
  · exact (framed_setEp _).trans (framed_withSetDeq _)

theorem framed_cleanupHaltedEndpoint (td : Td) (env : TxEnv) : Framed e s (s.cleanupHaltedEndpoint e td env) := by
  rw [State.cleanupHaltedEndpoint]
  split_ifs
  · exact .refl e s
  · exact ((framed_setEp _).trans (framed_queueCommand _ _)).trans (framed_cleanupStalledRing _ _)

theorem framed_removeTd (td : Td) : Framed e s (s.removeTd e td).1 :=
  (framed_setEp _).trans ⟨fun _ _ => rfl, rfl, rfl, rfl, rfl, rfl, rfl⟩

theorem framed_finishTd (td : Td) (skip : Bool) (event : Event) (env : TxEnv) :
    Framed e s (s.finishTd e td skip event env).1 := by
  rw [State.finishTd]
  split_ifs
  · exact framed_removeTd td
  · exact framed_setEp _
  · exact (framed_cleanupHaltedEndpoint td env).trans (framed_removeTd td)
  · exact (framed_setEp _).trans (framed_removeTd td)

theorem framed_cleanup (ret : Bool) (td : Option Td) : Framed e s (s.cleanup ret td) := by
  cases ret with
  | false => exact .refl e s
  | true =>
    cases td with
    | none => exact .refl e s
    | some td => exact ⟨fun _ _ => rfl, rfl, rfl, rfl, rfl, rfl, rfl⟩

theorem framed_skipIsocTd (td : Td) (event : Event) (env : TxEnv) : Framed e s (s.skipIsocTd e td event env).1 :=
  (framed_setEp _).trans (framed_finishTd ..)

theorem ep_skipIsocTd (td : Td) (event : Event) (env : TxEnv) (ret : Bool) :
    ((s.skipIsocTd e td event env).1.cleanup ret (some td)).ep e = { s.ep e with
      ring := advance (s.ep e).ring td.lastTrb
      tdList := (s.ep e).tdList.erase td
      cancelledTdList := (s.ep e).cancelledTdList.erase td } := by
  have skipped : (s.skipIsocTd e td event env).1.ep e = { s.ep e with
      ring := advance (s.ep e).ring td.lastTrb
      tdList := (s.ep e).tdList.erase td
      cancelledTdList := (s.ep e).cancelledTdList.erase td } := by
    simp [State.skipIsocTd, State.finishTd, State.removeTd, State.tdDone]
  cases ret
  · exact skipped
  · exact skipped

/-- What is kept by the steps of the loop of `ehub_handle_tx_event` that go on, and what
    the last step makes of it, holds after the loop. The steps may ask for the endpoint as
    it was when the iteration began, and for what `ret` is then. -/
theorem txLoop_carries {event : Event} {code : Nat} {env : TxEnv} (P : Bool → State → Prop) (Q : State → Prop)
    (stays : ∀ ret s, P ret s → Q s) (forgets : ∀ ret s, P ret s → P false s)
    (marks : ∀ ret s skip short, P ret s → (skip = true → (s.ep e).skip = true) →
      P ret (s.setEp e { s.ep e with skip := skip, lastTdWasShort := short }))
    (skips : ∀ ret s td rest, P ret s → (s.ep e).tdList = td :: rest → (s.ep e).skip = true → (s.ep e).pipe = .isoc →
      trbInTd (s.ep e).ring td.lastTrb event.buffer = none → ¬(code = compStop ∨ code = compStopInval) →
      P (s.skipIsocTd e td event env).2 ((s.skipIsocTd e td event env).1.cleanup (s.skipIsocTd e td event env).2 (some td)))
    (ends : ∀ ret s td rest eventTrb, P ret s → (s.ep e).tdList = td :: rest →
      trbInTd (s.ep e).ring td.lastTrb event.buffer = some eventTrb → ((s.ep e).ring.trb eventTrb).isNoop = false →
      finishes (s.ep e) td eventTrb event env.epState = true → (s.ep e).skip = false →
      Q ((s.finishTd e td false event env).1.cleanup (s.finishTd e td false event env).2 (some td)))
    (noop : ∀ ret s td rest eventTrb, P ret s → (s.ep e).tdList = td :: rest →
      trbInTd (s.ep e).ring td.lastTrb event.buffer = some eventTrb → ((s.ep e).ring.trb eventTrb).isNoop = true →
      Q (s.cleanup ret (some td))) :
    ∀ fuel tdNum ret s, P ret s → Q (s.txLoop e event code env fuel tdNum ret) := by
  intro fuel
  induction fuel with
  | zero => exact fun _ ret s kept => stays ret s kept
  | succ fuel ih =>
    intro tdNum ret s kept
    rw [State.txLoop]
    split
    · exact stays ret _ (marks ret s false (s.ep e).lastTdWasShort kept (by simp))
    · rename_i td rest is_list
      by_cases skipped : (s.ep e).skip = true ∧ tdNum = 0
      · rw [if_pos skipped]
        exact stays ret _ (marks ret s false (s.ep e).lastTdWasShort kept (by simp))
      · rw [if_neg skipped]
        simp only
        split
        · rename_i missed
          by_cases stopped : code = compStop ∨ code = compStopInval
          · rw [if_pos stopped]
            split_ifs
            · exact ih _ _ _ (forgets ret s kept)
            · exact stays ret s kept
          · rw [if_neg stopped]
            by_cases lost : (!(s.ep e).skip) = true ∨ (s.ep e).pipe ≠ .isoc
            · rw [if_pos lost]
              have short := marks ret s (s.ep e).skip false kept id
              split_ifs
              · exact ih _ _ _ (forgets ret _ short)
              · exact stays ret _ short
              · exact stays ret s kept
            · rw [if_neg lost]
              rw [not_or, not_not] at lost
              exact ih _ _ _ (skips ret s td rest kept is_list (by simpa using lost.1) lost.2 missed stopped)
        · rename_i eventTrb found
          have marked := marks ret s false (decide (code = compShortTx)) kept (by simp)
          split_ifs with isNoop finishing
          · refine noop ret _ td rest eventTrb marked ?_ ?_ ?_ <;> rw [State.ep_setEp] <;> assumption
          · refine ends ret _ td rest eventTrb marked ?_ ?_ ?_ ?_ ?_ <;> rw [State.ep_setEp]
            · exact is_list
            · exact found
            · simpa using isNoop
            · exact finishing
          · exact stays ret _ marked

/-- The same for what does not depend on `ret`. -/
theorem txLoop_rule {event : Event} {code : Nat} {env : TxEnv} (P Q : State → Prop) (stays : ∀ s, P s → Q s)
    (marks : ∀ s skip short, P s → (skip = true → (s.ep e).skip = true) →
      P (s.setEp e { s.ep e with skip := skip, lastTdWasShort := short }))
    (skips : ∀ s td rest, P s → (s.ep e).tdList = td :: rest → (s.ep e).skip = true → (s.ep e).pipe = .isoc →
      trbInTd (s.ep e).ring td.lastTrb event.buffer = none →
      P ((s.skipIsocTd e td event env).1.cleanup (s.skipIsocTd e td event env).2 (some td)))
    (ends : ∀ s td rest eventTrb, P s → (s.ep e).tdList = td :: rest →
      trbInTd (s.ep e).ring td.lastTrb event.buffer = some eventTrb → ((s.ep e).ring.trb eventTrb).isNoop = false →
      finishes (s.ep e) td eventTrb event env.epState = true → (s.ep e).skip = false →
      Q ((s.finishTd e td false event env).1.cleanup (s.finishTd e td false event env).2 (some td)))
    (noop : ∀ s td rest eventTrb ret, P s → (s.ep e).tdList = td :: rest →
      trbInTd (s.ep e).ring td.lastTrb event.buffer = some eventTrb → ((s.ep e).ring.trb eventTrb).isNoop = true →
      Q (s.cleanup ret (some td))) :
    ∀ fuel tdNum ret s, P s → Q (s.txLoop e event code env fuel tdNum ret) := by
  refine txLoop_carries (fun _ => P) Q (fun _ => stays) (fun _ _ kept => kept) (fun _ => marks) ?_ (fun _ => ends) ?_
  · exact fun _ s td rest kept is_list skip isoc missed _ => skips s td rest kept is_list skip isoc missed
  · exact fun ret s td rest eventTrb kept => noop s td rest eventTrb ret kept

theorem framed_txLoop (event : Event) (code : Nat) (env : TxEnv) (fuel tdNum : Nat) (ret : Bool) :
    Framed e s (s.txLoop e event code env fuel tdNum ret) := by
  refine txLoop_rule (Framed e s) (Framed e s) (fun _ kept => kept) ?_ ?_ ?_ ?_ fuel tdNum ret s (.refl e s)
  · intro s' skip short framed _
    exact framed.trans (framed_setEp _)
  · intro s' td rest framed _ _ _ _
    exact (framed.trans (framed_skipIsocTd ..)).trans (framed_cleanup ..)
  · intro s' td rest eventTrb framed _ _ _ _ _
    exact (framed.trans (framed_finishTd ..)).trans (framed_cleanup ..)
  · intro s' td rest eventTrb ret framed _ _ _
    exact framed.trans (framed_cleanup ..)

theorem framed_noteStall (event : Event) : Framed e s (s.noteStall e event) := by
  rw [State.noteStall]
  split_ifs
  · exact framed_setEp _
  · exact .refl e s

/-- A transfer event changes nothing, or it notes a stall and then goes through the loop or
    sets `skip`. -/
theorem handleTxEvent_cases (s : State) (e : EpId) (event : Event) (env : TxEnv) :
    (env.epState = 0 ∧ s.handleTxEvent e event env = s) ∨
    env.epState ≠ 0 ∧ (
      (∃ code tdNum, s.handleTxEvent e event env = (s.noteStall e event).txLoop e event code env (tdNum + 2) tdNum false ∧
        ((event.code ≠ compSuccess → code = event.code) ∧ event.code ≠ compMissedInt) ∧
        tdNum = if (s.ep e).skip then (s.ep e).tdList.length else 0) ∨
      event.code ≠ compStall ∧
        (s.handleTxEvent e event env = s ∨ s.handleTxEvent e event env = s.setEp e { s.ep e with skip := true })) := by
  rw [State.handleTxEvent]
  by_cases disabled : env.epState = 0
  · exact .inl ⟨disabled, by rw [if_pos disabled]⟩
  refine .inr ⟨disabled, ?_⟩
  rw [if_neg disabled]
  simp only
  generalize reacted : reaction event env.trustTxLength = how
  cases how with
  | process code =>
    refine .inl ⟨code, _, rfl, ⟨?_, ?_⟩, rfl⟩
    · intro failed
      rw [reaction, if_neg failed] at reacted
      split_ifs at reacted with listed passed vendor
      · exact (Reaction.process.inj reacted).symm
      · exact (Reaction.process.inj reacted).symm
    · intro missed
      simp [reaction, missed, compMissedInt, compSuccess, compShortTx, compStop, compStopInval, compStall, compTrbErr, compSplitErr,
        compTxErr, compBabble, compDbErr, compBwOver, compBuffOver, compDevErr, compUnderrun, compOverrun] at reacted
  | leave =>
    have noStall : event.code ≠ compStall := by
      intro stall
      simp [reaction, stall, compStall, compSuccess] at reacted
    have same : s.noteStall e event = s := by rw [State.noteStall, if_neg noStall]
    rw [same]
    by_cases missed : event.code = compMissedInt
    · exact .inr ⟨noStall, .inr (by simp only [if_pos missed])⟩
    · simp only [if_neg missed]
      by_cases skips : (s.ep e).skip = true
      · refine .inl ⟨event.code, _, by rw [if_pos skips], ⟨fun _ => rfl, missed⟩, rfl⟩
      · exact .inr ⟨noStall, .inl (by rw [if_neg skips])⟩

theorem framed_handleTxEvent (event : Event) (env : TxEnv) : Framed e s (s.handleTxEvent e event env) := by
  rcases handleTxEvent_cases s e event env with ⟨_, eq⟩ | ⟨_, ⟨code, tdNum, eq, _, _⟩ | ⟨_, eq | eq⟩⟩
  · rw [eq]
    exact .refl e s
  · rw [eq]
    exact (framed_noteStall event).trans (framed_txLoop ..)
  · rw [eq]
    exact .refl e s
  · rw [eq]
    exact framed_setEp _

end

/-! ### Stopping an endpoint -/

/-- What `ehub_xhci_urb_dequeue` does. -/
theorem urbDequeue_cases (s : State) (u : Unlink) : s.urbDequeue u = s ∨
    ((u.e, u.urb) ∈ s.linked ∧ u.urb ∉ s.unlinked ∧ u.urb ∉ s.givenBack) ∧ (
      s.urbDequeue u = ((s.noteUnlinked u.urb).dropTds u.e u.urb).giveback u.urb ∨
      s.dying = true ∧ s.urbDequeue u = s.noteUnlinked u.urb ∨
      ((s.ep u.e).haltPending = true ∨ u.alloc = false) ∧ s.urbDequeue u = (s.noteUnlinked u.urb).cancelTds u.e u.urb ∨
      s.dying = false ∧ s.urbDequeue u = ((s.noteUnlinked u.urb).cancelTds u.e u.urb).stopEndpoint u.e u.ret) := by
  rw [State.urbDequeue]
  by_cases refused : (u.e, u.urb) ∉ s.linked ∨ u.urb ∈ s.unlinked ∨ u.urb ∈ s.givenBack
  · exact .inl (by rw [if_pos refused])
  right
  rw [if_neg refused]
  simp only [not_or, not_not] at refused
  refine ⟨refused, ?_⟩
  simp only
  by_cases gone : u.gone = true
  · exact .inl (by rw [if_pos gone])
  rw [if_neg gone]
  by_cases dying : s.dying = true
  · exact .inr (.inl ⟨dying, by rw [if_pos (show (s.noteUnlinked u.urb).dying = true from dying)]⟩)
  rw [if_neg (show ¬(s.noteUnlinked u.urb).dying = true from dying)]
  by_cases pending : (s.ep u.e).haltPending = true
  · exact .inr (.inr (.inl ⟨.inl pending, by rw [if_pos (show ((s.noteUnlinked u.urb).ep u.e).haltPending = true from pending)]⟩))
  rw [if_neg (show ¬((s.noteUnlinked u.urb).ep u.e).haltPending = true from pending)]
  by_cases alloc : u.alloc = true
  · exact .inr (.inr (.inr ⟨by simpa using dying, by rw [if_neg (by simp [alloc])]⟩))
  · exact .inr (.inr (.inl ⟨.inr (by simpa using alloc), by rw [if_pos (by simpa using alloc)]⟩))

/-- A Set TR Dequeue Pointer command is queued, or the endpoint is left with at most another
    `queued_deq_ptr`. -/
theorem queueNewDequeueState_cases (ep : Endpoint) (deqState : TrbPtr × Bool) (env : Env) :
    (∃ p, queueNewDequeueState ep deqState env = ({ ep with queuedDeqPtr := p }, none) ∧
      (ep.setDeqPending = true → p = ep.queuedDeqPtr)) ∨
    ep.setDeqPending = false ∧ queueNewDequeueState ep deqState env =
      ({ ep with queuedDeqPtr := some deqState.1, setDeqPending := true }, some deqState) := by
  rw [queueNewDequeueState]
  split_ifs with unmapped pending full refused
  · exact .inl ⟨_, rfl, fun _ => rfl⟩
  · exact .inl ⟨_, rfl, fun _ => rfl⟩
  · exact .inl ⟨_, rfl, fun _ => rfl⟩
  · exact .inl ⟨_, rfl, fun set => absurd set pending⟩
  · exact .inr ⟨by simpa using pending, rfl⟩

theorem queueNewDequeueState_sends {ep : Endpoint} {deqState : TrbPtr × Bool} {env : Env} (clear : ep.setDeqPending = false)
    (mapped : trbVirtToDma deqState.1 ≠ 0) (alloc : env.alloc = true) (ok : 0 ≤ env.queueCommand) :
    queueNewDequeueState ep deqState env =
      ({ ep with queuedDeqPtr := some deqState.1, setDeqPending := true }, some deqState) := by
  rw [queueNewDequeueState, if_neg mapped, if_neg (by simp [clear]), if_neg (by simp [alloc]), if_neg (by omega)]

/-- The cancelled TDs are taken from the ring and from `td_list`. -/
theorem fixUpRing_eq (env : Env) : ∀ (tds : List Td) (ep : Endpoint) (deqState : Option (TrbPtr × Bool)),
    ∃ ring, (fixUpRing env tds ep deqState).1 = { ep with ring, tdList := tds.foldl List.erase ep.tdList } := by
  intro tds
  induction tds with
  | nil => exact fun ep _ => ⟨ep.ring, rfl⟩
  | cons td tds ih =>
    intro ep deqState
    rw [fixUpRing]
    split_ifs
    · obtain ⟨ring, eq⟩ := ih { ep with tdList := ep.tdList.erase td } (findNewDequeueState ep.ring td env)
      exact ⟨ring, by rw [eq, List.foldl_cons]⟩
    · obtain ⟨ring, eq⟩ := ih
        { ep with ring := ep.ring.tdToNoop td.firstTrb td.lastTrb false, tdList := ep.tdList.erase td } deqState
      exact ⟨ring, by rw [eq, List.foldl_cons]⟩

/-- Where the controller has to be sent when the cancelled TDs are taken out, if anywhere. -/
def newDequeue (ep : Endpoint) (env : Env) : Option (TrbPtr × Bool) := (fixUpRing env ep.cancelledTdList ep none).2

/-- What `xhci_handle_cmd_stop_ep` does to the flags and the lists. -/
structure StopSpec (ep : Endpoint) (env : Env) (outcome : Outcome) : Prop where
  halt : outcome.ep.haltPending = false
  cancelled : outcome.ep.cancelledTdList = []
  halted : outcome.ep.halted = ep.halted
  finished : outcome.finished = ep.cancelledTdList
  tdList : outcome.ep.tdList = ep.cancelledTdList.foldl List.erase ep.tdList
  command : outcome.setDeq = none ∧ outcome.ep.setDeqPending = ep.setDeqPending ∧
      (ep.setDeqPending = true → outcome.ep.queuedDeqPtr = ep.queuedDeqPtr) ∨
    ep.setDeqPending = false ∧ outcome.setDeq ≠ none ∧ outcome.ep.setDeqPending = true ∧ outcome.ep.queuedDeqPtr ≠ none
  sent : ∀ p, newDequeue ep env = some p →
    ep.setDeqPending = true ∨ trbVirtToDma p.1 ≠ 0 ∧ env.alloc = true ∧ 0 ≤ env.queueCommand → outcome.ep.setDeqPending = true
  doorbell : newDequeue ep env = none → outcome.doorbell = ringDoorbellForActiveRings outcome.ep
  silent : outcome.doorbell = true → ringDoorbellForActiveRings outcome.ep = true

theorem stopEp_spec (ep : Endpoint) (env : Env) : StopSpec ep env (Cancel.handleCmdStopEp ep env) := by
  rw [Cancel.handleCmdStopEp]
  by_cases nothing : ep.cancelledTdList.isEmpty = true
  · rw [if_pos nothing]
    have is_nil : ep.cancelledTdList = [] := by simpa using nothing
    refine ⟨rfl, is_nil, rfl, is_nil.symm, by rw [is_nil]; rfl, .inl ⟨rfl, rfl, fun _ => rfl⟩, ?_, fun _ => rfl, fun rings => rings⟩
    intro p needed
    simp [newDequeue, is_nil, fixUpRing] at needed
  · rw [if_neg nothing]
    obtain ⟨ring, fixed⟩ := fixUpRing_eq env ep.cancelledTdList ep none
    simp only
    cases needed : (fixUpRing env ep.cancelledTdList ep none).2 with
    | none =>
      simp only [fixed]
      refine ⟨rfl, rfl, rfl, rfl, rfl, .inl ⟨rfl, rfl, fun _ => rfl⟩, ?_, fun _ => rfl, fun rings => rings⟩
      intro p isNeeded
      simp [newDequeue, needed] at isNeeded
    | some deqState =>
      have not_none : newDequeue ep env ≠ none := by simp [newDequeue, needed]
      rcases queueNewDequeueState_cases { (fixUpRing env ep.cancelledTdList ep none).1 with haltPending := false } deqState env
        with ⟨p, eq, same⟩ | ⟨clear, eq⟩
      · simp only [eq]
        rw [fixed] at same ⊢
        refine ⟨rfl, rfl, rfl, rfl, rfl, .inl ⟨rfl, rfl, same⟩, ?_, fun sent => absurd sent not_none, by simp⟩
        intro p' isNeeded can
        obtain rfl : deqState = p' := by simpa [newDequeue, needed] using isNeeded
        rcases can with pending | ⟨mapped, alloc, queued⟩
        · exact pending
        · by_contra clear
          rw [queueNewDequeueState_sends (by simpa [fixed] using clear) mapped alloc queued] at eq
          simp at eq
      · simp only [eq]
        rw [fixed] at clear ⊢
        exact ⟨rfl, rfl, rfl, rfl, rfl, .inr ⟨clear, by simp, rfl, by simp⟩, fun _ _ _ => rfl, fun sent => absurd sent not_none, by simp⟩

section
variable {s : State} {e : EpId}

theorem mem_queueCommand {cmd cmd' : Cmd} (ret : Int) (member : cmd ∈ s.cmdList) :
    cmd ∈ (s.queueCommand ret cmd').cmdList := by
  rw [State.queueCommand]
  split_ifs
  · exact member
  · exact List.mem_append_left _ member

theorem mem_withSetDeq {cmd : Cmd} (queued : Option (TrbPtr × Bool)) (member : cmd ∈ s.cmdList) :
    cmd ∈ (s.withSetDeq e queued).cmdList := by
  cases queued with
  | none => exact member
  | some _ => exact List.mem_append_left _ member

theorem dying_urbDequeue (u : Unlink) : (s.urbDequeue u).dying = s.dying := by
  rcases urbDequeue_cases s u with eq | ⟨_, eq | ⟨_, eq⟩ | ⟨_, eq⟩ | ⟨_, eq⟩⟩
  · rw [eq]
  · rw [eq]
    rfl
  · rw [eq]
    rfl
  · rw [eq]
    rfl
  · rw [eq]
    exact State.dying_queueCommand ..

theorem mem_urbDequeue {cmd : Cmd} (u : Unlink) (member : cmd ∈ s.cmdList) : cmd ∈ (s.urbDequeue u).cmdList := by
  rcases urbDequeue_cases s u with eq | ⟨_, eq | ⟨_, eq⟩ | ⟨_, eq⟩ | ⟨_, eq⟩⟩
  · rwa [eq]
  · rw [eq]
    exact member
  · rw [eq]
    exact member
  · rw [eq]
    exact member
  · rw [eq]
    exact mem_queueCommand _ member

end

/-! ### Commands complete -/

section
variable {s : State}

/-- The first command leaves the list. -/
def dropHead (s : State) : State := { s with cmdList := s.cmdList.tail }

/-- Handlers only append to the list, so the first command may as well leave it before. -/
theorem dropHead_queueCommand (some_cmd : s.cmdList ≠ []) (ret : Int) (cmd : Cmd) :
    dropHead (s.queueCommand ret cmd) = (dropHead s).queueCommand ret cmd := by
  rw [State.queueCommand, State.queueCommand]
  by_cases refused : s.dying = true ∨ ret < 0
  · rw [if_pos refused, if_pos (show (dropHead s).dying = true ∨ ret < 0 from refused)]
  · rw [if_neg refused, if_neg (show ¬((dropHead s).dying = true ∨ ret < 0) from refused)]
    simp only [dropHead, List.tail_append_of_ne_nil some_cmd]

theorem dropHead_urbDequeue (some_cmd : s.cmdList ≠ []) (u : Unlink) :
    dropHead (s.urbDequeue u) = (dropHead s).urbDequeue u := by
  simp only [State.urbDequeue]
  by_cases refused : (u.e, u.urb) ∉ s.linked ∨ u.urb ∈ s.unlinked ∨ u.urb ∈ s.givenBack
  · rw [if_pos refused]
    exact (if_pos refused).symm
  rw [if_neg refused]
  refine Eq.trans ?_ (if_neg refused).symm
  by_cases gone : u.gone = true
  · rw [if_pos gone, if_pos gone]
    rfl
  rw [if_neg gone, if_neg gone]
  by_cases dying : s.dying = true
  · exact (congrArg dropHead (if_pos dying)).trans (if_pos dying).symm
  refine (congrArg dropHead (if_neg dying)).trans (Eq.trans ?_ (if_neg dying).symm)
  by_cases pending : (s.ep u.e).haltPending = true
  · exact (congrArg dropHead (if_pos pending)).trans (if_pos pending).symm
  refine (congrArg dropHead (if_neg pending)).trans (Eq.trans ?_ (if_neg pending).symm)
  by_cases alloc : (!u.alloc) = true
  · rw [if_pos alloc, if_pos alloc]
    rfl
  rw [if_neg alloc, if_neg alloc]
  exact dropHead_queueCommand (s := ((s.noteUnlinked u.urb).cancelTds u.e u.urb).setEp u.e _) some_cmd _ _

theorem dropHead_urbDequeues : ∀ (unlinks : List Unlink) {s : State}, s.cmdList ≠ [] →
    dropHead (unlinks.foldl State.urbDequeue s) = unlinks.foldl State.urbDequeue (dropHead s) := by
  intro unlinks
  induction unlinks with
  | nil => exact fun _ => rfl
  | cons u unlinks ih =>
    intro s some_cmd
    obtain ⟨cmd, member⟩ := List.exists_mem_of_ne_nil _ some_cmd
    have still : (s.urbDequeue u).cmdList ≠ [] := List.ne_nil_of_mem (mem_urbDequeue u member)
    rw [List.foldl_cons, List.foldl_cons, ih still, dropHead_urbDequeue some_cmd]

/-- URBs that are given back change no flag and no command. -/
theorem givebacks_frame (e : EpId) : ∀ (tds : List Td) (s : State), (tds.foldl State.givebackUrbInIrq s).ep = s.ep ∧
    (tds.foldl State.givebackUrbInIrq s).cmdList = s.cmdList ∧ Framed e s (tds.foldl State.givebackUrbInIrq s) := by
  intro tds
  induction tds with
  | nil => exact fun s => ⟨rfl, rfl, .refl e s⟩
  | cons td tds ih =>
    intro s
    rw [List.foldl_cons]
    obtain ⟨ep, cmdList, framed⟩ := ih (s.givebackUrbInIrq td)
    have same : (s.givebackUrbInIrq td).ep = s.ep ∧ (s.givebackUrbInIrq td).cmdList = s.cmdList ∧
        Framed e s (s.givebackUrbInIrq td) := by
      rw [State.givebackUrbInIrq]
      split_ifs <;> exact ⟨rfl, rfl, fun _ _ => rfl, rfl, rfl, rfl, rfl, rfl, rfl⟩
    exact ⟨ep.trans same.1, cmdList.trans same.2.1, same.2.2.trans framed⟩

theorem dying_handleCmdCompletion (slot code : Nat) (deq : BitVec 64) (env : Env) (unlinks : List Unlink) :
    (s.handleCmdCompletion slot code deq env unlinks).dying = s.dying := by
  have unlinked : ∀ (unlinks : List Unlink) (s : State), (unlinks.foldl State.urbDequeue s).dying = s.dying := by
    intro unlinks
    induction unlinks with
    | nil => exact fun _ => rfl
    | cons u unlinks ih => exact fun s => (ih _).trans (dying_urbDequeue u)
  rw [State.handleCmdCompletion]
  split
  · rfl
  · rename_i cmd rest _
    split_ifs
    · rfl
    · cases cmd with
      | stopEp e => simp [State.handleCmdStopEp, unlinked, (givebacks_frame e _ _).2.2.dying]
      | setDeq e => simp [State.handleCmdSetDeq]
      | resetEp e => simp [State.handleCmdResetEp]
      | other => rfl

theorem dying_watchdog (endpoints : List EpId) : (s.watchdog endpoints).dying = true := by
  have killed : ∀ (endpoints : List EpId) (s : State), (endpoints.foldl State.killEndpointUrbs s).dying = s.dying := by
    intro endpoints
    induction endpoints with
    | nil => exact fun _ => rfl
    | cons e endpoints ih =>
      intro s
      rw [List.foldl_cons, ih, State.killEndpointUrbs]
      exact (givebacks_frame e _ _).2.2.dying
  rw [State.watchdog]
  split_ifs with dying
  · exact dying
  · rw [killed]

/-- Nothing revives a dying host. -/
theorem dying_step (op : Op) (dying : s.dying = true) : (s.step op).dying = true := by
  cases op with
  | enqueue e urb ring tds submitted =>
    simp only [State.step, State.enqueue]
    rwa [if_pos dying]
  | urbDequeue u => exact (dying_urbDequeue u).trans dying
  | txEvent e event env => exact (framed_handleTxEvent event env).dying.trans dying
  | cmdCompletion slot code deq env unlinks => exact (dying_handleCmdCompletion ..).trans dying
  | cacheComplete =>
    simp only [State.step, State.cacheComplete]
    split
    · exact dying
    · split_ifs
      · exact dying
      · simpa [State.mark] using dying
  | watchdog endpoints => exact dying_watchdog endpoints
  | queueOther ret => exact (State.dying_queueCommand ..).trans dying
  | raise => exact dying
  | die => rfl

end

end Ehub.Transfer
