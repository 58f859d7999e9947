import Mathlib
import Ehub.Run
import Ehub.Cancel
import Ehub.CommandRing

/-!
What events may do to the driver (`ehub_xhci_handle_event`). The device sends 16 bytes
that name a slot, an endpoint and a TRB. The handlers use them as indices of `xhci->devs`
and of the 31 endpoints of a device, take the first entry of `cmd_list`, and read the
command ring and the event ring. An access through an index out of range, through a NULL
pointer or to the first entry of an empty list is a `Fault`.

Not all of it is checked. What a transfer event finds out about the TDs of its endpoint
and what a command's handler finds there is left open (`Findings`); no endpoint has
streams. The rings are freed when the host is stopped, while events still arrive.
-/
namespace Ehub.EventSafety
open Ehub.Ring Ehub.Segments Ehub.Cancel

inductive Fault where
  | slotId | nullDevice | epIndex | emptyCmdList | nullRing
deriving DecidableEq

/-- `MAX_HC_SLOTS`. -/
def maxHcSlots : Nat := 9

/-- `LAST_EP_INDEX`. -/
def lastEpIndex : Nat := 30

/-- `TRB_TO_SLOT_ID`. -/
def trbToSlotId (field : BitVec 32) : Nat := ((field &&& (0xff <<< 24)) >>> 24).toNat

/-- `TRB_TO_EP_ID`. -/
def trbToEpId (field : BitVec 32) : Nat := ((field >>> 16) &&& 0x1f).toNat

/-- `TRB_TO_EP_INDEX`. -/
def trbToEpIndex (field : BitVec 32) : Nat := (((field &&& (0x1f <<< 16)) >>> 16) - 1).toNat

/-- `TRB_TO_SUSPEND_PORT`. -/
def trbToSuspendPort (field : BitVec 32) : Bool := field.getLsbD 23

/-- `TRB_FIELD_TO_TYPE`. -/
def trbFieldToType (field : BitVec 32) : Nat := ((field &&& Trb.trbTypeBitmask) >>> 10).toNat

/-- `GET_COMP_CODE`. -/
def getCompCode (field : BitVec 32) : Nat := ((field &&& (0xff <<< 24)) >>> 24).toNat

/-- `GET_PORT_ID`. -/
def getPortId (field : BitVec 32) : Nat := ((field &&& (0xff <<< 24)) >>> 24).toNat

def slotIdForTrb (slotId : Nat) : BitVec 32 := (BitVec.ofNat 32 slotId &&& 0xff) <<< 24

def epIdForTrb (epIndex : Nat) : BitVec 32 := ((BitVec.ofNat 32 epIndex + 1) &&& 0x1f) <<< 16

def suspendPortForTrb (suspend : Bool) : BitVec 32 := if suspend then 1 <<< 23 else 0

def trbDisableSlot : Nat := 10
def trbConfigEp : Nat := 12
def trbResetEp : Nat := 14
def trbStopRing : Nat := 15
def trbSetDeq : Nat := 16
def trbResetDev : Nat := 17
def trbTransfer : Nat := 32
def trbCompletion : Nat := 33
def trbPortStatus : Nat := 34
def trbDevNote : Nat := 38
def trbNecCmdComp : Nat := 48

def compCmdStop : Nat := 24
def compCmdAbort : Nat := 25

/-- `struct xhci_virt_device`: which of its endpoints have a ring. -/
structure Device where
  ring : Nat → Bool

/-- `struct xhci_command`, with the TRB that `command_trb` points to: it is not written
    again while the command is on the list, but for `xhci_handle_stopped_cmd_ring`. -/
structure Command where
  commandTrb : TrbPtr
  trb : Trb
  status : Nat
  completion : Bool

/-- `struct cache_write_context`; `command` says that `stream_id` is `~0`. -/
structure CacheWork where
  slotId : Nat
  epIndex : Nat
  command : Bool
  ringDoorbell : Bool

/-- The parts of `struct xhci_hcd` that the handlers use, the cache writes in flight and the
    port status events that are put off. -/
structure State where
  devs : Nat → Option Device
  cmdRing : Option Ring
  eventRing : Bool
  cmdList : List Command
  dying : Bool
  error : Bool
  maxPorts : Nat
  writes : List CacheWork
  portWork : List Trb

structure Config where
  quirks : Quirks
  necHost : Bool

/-- What a handler finds: the endpoint is disabled, the event halts it, it has TDs, it waits
    for a Set TR Dequeue Pointer command, where the controller has to go, which commands can
    be allocated, and the slot of a port that has resumed. -/
structure Findings where
  disabled : Bool
  halts : Bool
  active : Bool
  setDeqPending : Bool
  newDeq : Option (BitVec 64 × Bool)
  resetAlloc : Bool
  setDeqAlloc : Bool
  resumed : Option Nat

namespace State

/-- `xhci->devs[slot_id]`. -/
def entry (s : State) (slotId : Nat) : Except Fault (Option Device) :=
  if slotId < maxHcSlots then .ok (s.devs slotId) else .error .slotId

/-- A device that is used without a check. -/
def device (s : State) (slotId : Nat) : Except Fault Device := do
  match ← s.entry slotId with
  | some dev => .ok dev
  | none => .error .nullDevice

/-- `eps[ep_index]`: whether its ring is there. -/
def endpoint (dev : Device) (epIndex : Int) : Except Fault Bool :=
  if 0 ≤ epIndex ∧ epIndex ≤ lastEpIndex then .ok (dev.ring epIndex.toNat) else .error .epIndex

def commandRing (s : State) : Except Fault Ring :=
  match s.cmdRing with
  | some ring => .ok ring
  | none => .error .nullRing

/-- `xhci->event_ring->deq_seg` in a message, or `inc_deq(xhci, xhci->event_ring)`. -/
def useEventRing (s : State) : Except Fault Unit := if s.eventRing then .ok () else .error .nullRing

/-- `list_entry(xhci->cmd_list.next, ...)`. -/
def firstCommand (s : State) : Except Fault Command :=
  match s.cmdList with
  | cmd :: _ => .ok cmd
  | [] => .error .emptyCmdList

/-- `queue_command` with one reserved TRB. -/
def queueCommand (q : Quirks) (s : State) (trb : Trb) (completion : Bool) : Except Fault State :=
  if s.dying then .ok s
  else do
    let ring ← s.commandRing
    match ring.prepareRing q 1 2 [] 0 with
    | (ret, ring) =>
      if ret < 0 then .ok { s with cmdRing := some ring }
      else
        let trb := { trb with field3 := trb.field3 ||| (if ring.cycleState then Trb.trbCycle else 0) }
        .ok { s with
          cmdRing := some (ring.queueTrb q false trb)
          cmdList := s.cmdList ++ [⟨ring.enqueue, trb, 0, completion⟩] }

/-- `ehub_xhci_ring_ep_doorbell`. -/
def ringEpDoorbell (s : State) (slotId : Nat) (epIndex : Int) : Except Fault Unit := do
  let dev ← s.device slotId
  let _ ← endpoint dev epIndex

/-- `ring_doorbell_for_active_rings`. -/
def ringDoorbellForActiveRings (s : State) (slotId : Nat) (epIndex : Int) (active : Bool) : Except Fault Unit := do
  let dev ← s.device slotId
  let ring ← endpoint dev epIndex
  if ring && active then s.ringEpDoorbell slotId epIndex

/-- A command for an endpoint. -/
def endpointTrb (type slotId epIndex : Nat) (addr : BitVec 64) (suspend : Bool) : Trb :=
  ⟨addr.extractLsb' 0 32, addr.extractLsb' 32 32, 0,
    slotIdForTrb slotId ||| epIdForTrb epIndex ||| Trb.trbType (BitVec.ofNat 32 type) ||| suspendPortForTrb suspend⟩

/-- `ehub_xhci_queue_new_dequeue_state`. -/
def queueNewDequeueState (q : Quirks) (s : State) (slotId : Nat) (epIndex : Int) (deqState : BitVec 64 × Bool) (f : Findings) :
    Except Fault State :=
  if deqState.1 = 0 then .ok s
  else do
    let dev ← s.device slotId
    let _ ← endpoint dev epIndex
    if f.setDeqPending || !f.setDeqAlloc then .ok s
    else
      let addr := deqState.1 ||| (if deqState.2 then 1 else 0)
      s.queueCommand q (endpointTrb trbSetDeq slotId epIndex.toNat addr false) false

/-- `ehub_xhci_find_new_dequeue_state` and, if it found a place, the command for it. -/
def moveDequeue (q : Quirks) (s : State) (slotId : Nat) (epIndex : Int) (f : Findings) : Except Fault State := do
  let dev ← s.device slotId
  let ring ← endpoint dev epIndex
  match f.newDeq with
  | some deqState => if ring then s.queueNewDequeueState q slotId epIndex deqState f else .ok s
  | none => .ok s

/-- `xhci_cleanup_halted_endpoint`. -/
def cleanupHaltedEndpoint (q : Quirks) (s : State) (slotId : Nat) (epIndex : Int) (f : Findings) : Except Fault State := do
  let dev ← s.device slotId
  let _ ← endpoint dev epIndex
  if f.resetAlloc then
    let s ← s.queueCommand q (endpointTrb trbResetEp slotId epIndex.toNat 0 false) false
    s.moveDequeue q slotId epIndex f
  else .ok s

/-- `ehub_handle_tx_event`. -/
def handleTxEvent (q : Quirks) (s : State) (event : Trb) (f : Findings) : Except Fault State := do
  let slotId := trbToSlotId event.field3
  match ← s.entry slotId with
  | none =>
    s.useEventRing
    .ok s
  | some dev =>
    -- The endpoint ID is 1 based.
    let epIndex : Int := trbToEpId event.field3 - 1
    let ring ← endpoint dev epIndex
    if !ring || f.disabled then
      s.useEventRing
      .ok s
    else
      let s ← if f.halts then s.cleanupHaltedEndpoint q slotId epIndex f else .ok s
      s.useEventRing
      .ok s

/-- `xhci_handle_cmd_stop_ep`. -/
def handleCmdStopEp (q : Quirks) (s : State) (slotId : Nat) (trb : Trb) (f : Findings) : Except Fault State := do
  if trbToSuspendPort trb.field3 then
    let _ ← s.entry slotId
    .ok s
  else
    let epIndex := trbToEpIndex trb.field3
    let dev ← s.device slotId
    let _ ← endpoint dev epIndex
    if f.newDeq.isSome then s.moveDequeue q slotId epIndex f
    else
      s.ringDoorbellForActiveRings slotId epIndex f.active
      .ok s

/-- `xhci_handle_cmd_set_deq`; a ring that is not there is not used. -/
def handleCmdSetDeq (s : State) (slotId : Nat) (trb : Trb) (f : Findings) : Except Fault State := do
  let epIndex := trbToEpIndex trb.field3
  let dev ← s.device slotId
  let _ ← endpoint dev epIndex
  s.ringDoorbellForActiveRings slotId epIndex f.active
  .ok s

/-- `xhci_handle_cmd_reset_ep`. -/
def handleCmdResetEp (s : State) (slotId : Nat) (trb : Trb) : Except Fault State := do
  let dev ← s.device slotId
  let _ ← endpoint dev (trbToEpIndex trb.field3)
  .ok s

/-- `xhci_handle_cmd_disable_slot`: slot 0 is reserved. -/
def handleCmdDisableSlot (s : State) (slotId : Nat) : Except Fault State := do
  match ← s.entry slotId with
  | some _ => .ok (if slotId = 0 then s else { s with devs := Function.update s.devs slotId none })
  | none => .ok s

/-- The switch of `handle_cmd_completion`. Other commands only are completed. -/
def handleCommand (q : Quirks) (s : State) (slotId : Nat) (cmd : Command) (f : Findings) : Except Fault State :=
  let type := trbFieldToType cmd.trb.field3
  if type = trbDisableSlot then s.handleCmdDisableSlot slotId
  -- `xhci_handle_cmd_config_ep` reads the device's input context.
  else if type = trbConfigEp then if cmd.completion then .ok s else (s.device slotId).map fun _ => s
  else if type = trbStopRing then s.handleCmdStopEp q slotId cmd.trb f
  else if type = trbSetDeq then s.handleCmdSetDeq slotId cmd.trb f
  else if type = trbResetEp then s.handleCmdResetEp slotId cmd.trb
  else if type = trbResetDev then (s.entry (trbToSlotId cmd.trb.field3)).map fun _ => s
  else .ok s

/-- `xhci_handle_stopped_cmd_ring`: only the cycle bit of a timed out command's TRB stays. -/
def turnToNoop (cmd : Command) : Command :=
  if cmd.status = compCmdAbort then
    { cmd with status := compCmdStop, trb := ⟨0, 0, 0, Trb.trbType 23 ||| (cmd.trb.field3 &&& Trb.trbCycle)⟩ }
  else cmd

/-- `handle_cmd_completion`. -/
def handleCmdCompletion (q : Quirks) (s : State) (event : Trb) (f : Findings) : Except Fault State := do
  let ring ← s.commandRing
  if trbVirtToDma ring.dequeue = 0 ∨ event.segmentPtr ≠ trbVirtToDma ring.dequeue then .ok s
  else
    let cmd ← s.firstCommand
    if cmd.commandTrb ≠ ring.dequeue then .ok s
    else
      let code := getCompCode event.field2
      if code = compCmdStop then .ok { s with cmdList := s.cmdList.map turnToNoop }
      else
        let s ← if code = compCmdAbort ∧ cmd.status = compCmdAbort then .ok s
          else s.handleCommand q (trbToSlotId event.field3) cmd f
        let ring ← s.commandRing
        .ok { s with cmdList := s.cmdList.tail, cmdRing := some ring.incDeq }

/-- `handle_device_notification`. -/
def handleDeviceNotification (s : State) (event : Trb) : Except Fault State := (s.entry (trbToSlotId event.field3)).map fun _ => s

/-- `ehub_xhci_handle_event`. -/
def handleEvent (c : Config) (s : State) (event : Trb) (f : Findings) : Except Fault State :=
  let type := trbFieldToType event.field3
  if type = trbCompletion then s.handleCmdCompletion c.quirks event f
  else if type = trbPortStatus then .ok { s with portWork := s.portWork ++ [event] }
  else if type = trbTransfer then s.handleTxEvent c.quirks event f
  else if type = trbDevNote then s.handleDeviceNotification event
  else if type = trbNecCmdComp ∧ c.necHost then s.handleCmdCompletion c.quirks event f
  else .ok s

/-- `ehub_xhci_ring_device`. -/
def ringDevice (s : State) (slotId : Nat) : Except Fault Unit :=
  (List.range (lastEpIndex + 1)).forM fun i => do
    let dev ← s.device slotId
    let ring ← endpoint dev i
    if ring then s.ringEpDoorbell slotId i

/-- `handle_port_status`. -/
def handlePortStatus (s : State) (event : Trb) (f : Findings) : Except Fault Unit :=
  let portId := getPortId event.field0
  if portId = 0 ∨ s.maxPorts < portId then s.useEventRing
  else
    -- `ehub_xhci_find_slot_id_by_port` looks at all slots; the device is checked again.
    match f.resumed with
    | some slotId => if slotId < maxHcSlots ∧ (s.devs slotId).isSome then s.ringDevice slotId else .ok ()
    | none => .ok ()

/-- `ehub_xhci_handle_queued_port_status`. -/
def handleQueuedPortStatus (s : State) (f : Findings) : Except Fault State :=
  match s.portWork with
  | [] => .ok s
  | event :: portWork => do
    if !(s.error || s.dying) then s.handlePortStatus event f
    .ok { s with portWork }

/-- `URB_CompletionRoutine_Cache`. -/
def cacheComplete (s : State) : Except Fault State :=
  match s.writes with
  | [] => .ok s
  | work :: writes => do
    if !(s.error || s.dying) && work.ringDoorbell && !work.command then s.ringEpDoorbell work.slotId work.epIndex
    .ok { s with writes }

/-- `ehub_xhci_mem_cleanup`. -/
def memCleanup (s : State) : State := { s with devs := fun _ => none, cmdRing := none, eventRing := false, cmdList := [] }

end State

/-- The commands that are queued for the USB core. -/
inductive Order where
  | stopEndpoint (slotId epIndex : Nat) (suspend completion : Bool)
  | slotCommand (type slotId : Nat) (addr : BitVec 64) (bsr completion : Bool)

def Order.trb : Order → Trb
  | .stopEndpoint slotId epIndex suspend _ => State.endpointTrb trbStopRing slotId epIndex 0 suspend
  | .slotCommand type slotId addr bsr _ =>
    ⟨addr.extractLsb' 0 32, addr.extractLsb' 32 32, 0,
      Trb.trbType (BitVec.ofNat 32 type) ||| slotIdForTrb slotId ||| if bsr then 1 <<< 9 else 0⟩

def Order.completion : Order → Bool
  | .stopEndpoint _ _ _ completion => completion
  | .slotCommand _ _ _ _ completion => completion

/-- Commands name slots and endpoints that there are. The types are those for enabling,
    disabling, addressing, configuring, evaluating and resetting a device and for reading
    the firmware version; somebody waits for a Configure Endpoint command. -/
def Order.Built : Order → Prop
  | .stopEndpoint slotId epIndex _ _ => slotId < maxHcSlots ∧ epIndex ≤ lastEpIndex
  | .slotCommand type slotId _ _ completion => type ∈ [9, 10, 11, 12, 13, 17, 49] ∧ slotId < maxHcSlots ∧
      (type = trbConfigEp → completion = true)

inductive Op where
  | event (event : Trb) (f : Findings)
  | portStatus (f : Findings)
  | cacheComplete
  | allocDevice (slotId : Nat)
  | freeDevice (slotId : Nat)
  | setRing (slotId epIndex : Nat) (ring : Bool)
  | queue (order : Order)
  | submit (work : CacheWork)
  | timeout (commandTrb : TrbPtr)
  | cleanupCommandQueue
  | die
  | raise
  | memCleanup
  | memInit (ring : Ring)

def State.run (c : Config) (s : State) : Op → Except Fault State
  | .event event f => s.handleEvent c event f
  | .portStatus f => s.handleQueuedPortStatus f
  | .cacheComplete => s.cacheComplete
  -- A new device has the ring of its control endpoint.
  | .allocDevice slotId => .ok { s with devs := Function.update s.devs slotId (some ⟨fun i => i = 0⟩) }
  | .freeDevice slotId => .ok { s with devs := Function.update s.devs slotId none }
  | .setRing slotId epIndex ring =>
    .ok { s with devs := Function.update s.devs slotId ((s.devs slotId).map fun dev => ⟨Function.update dev.ring epIndex ring⟩) }
  | .queue order => s.queueCommand c.quirks order.trb order.completion
  | .submit work => .ok { s with writes := s.writes ++ [work] }
  | .timeout commandTrb => .ok { s with
      cmdList := s.cmdList.map fun cmd => if cmd.commandTrb = commandTrb then { cmd with status := compCmdAbort } else cmd
      dying := true }
  | .cleanupCommandQueue => .ok { s with cmdList := [] }
  | .die => .ok { s with dying := true }
  | .raise => .ok { s with error := true }
  | .memCleanup => .ok s.memCleanup
  | .memInit ring => .ok { s with cmdRing := some ring, eventRing := true }

/-- The USB core works with the devices that there are, and not before the host is set up;
    TDs are written for endpoints of a device. -/
def Op.Allowed (s : State) : Op → Prop
  | .allocDevice slotId => 0 < slotId ∧ slotId < maxHcSlots ∧ s.devs slotId = none ∧ s.cmdRing ≠ none
  | .queue order => s.cmdRing ≠ none ∧ order.Built
  | .submit work => work.slotId < maxHcSlots ∧ work.epIndex ≤ lastEpIndex
  | .memInit _ => s.cmdRing = none
  | _ => True

/-- The host is set up: the rings are there, and nothing else. -/
def New (s : State) : Prop :=
  (∀ slotId, s.devs slotId = none) ∧ s.cmdRing ≠ none ∧ s.eventRing = true ∧ s.cmdList = [] ∧ s.writes = [] ∧ s.portWork = []

/-- A run goes on as long as there is no fault. -/
def State.step (c : Config) (s : State) (op : Op) : State := (s.run c op).toOption.getD s

def Reachable (c : Config) (s : State) : Prop :=
  Run.Reachable New (fun s op => op.Allowed s ∧ ∃ s', s.run c op = .ok s') (State.step c) s

/-! ### When there is no fault -/

/-- The command's handler uses the device of the event's slot. -/
def NeedsDevice (cmd : Command) : Prop :=
  trbFieldToType cmd.trb.field3 = trbStopRing ∧ trbToSuspendPort cmd.trb.field3 = false ∨
  trbFieldToType cmd.trb.field3 = trbSetDeq ∨ trbFieldToType cmd.trb.field3 = trbResetEp

/-- The command's handler looks at the entry of the event's slot. -/
def NeedsSlot (cmd : Command) : Prop :=
  trbFieldToType cmd.trb.field3 = trbStopRing ∨ trbFieldToType cmd.trb.field3 = trbDisableSlot

/-- What an event for the TRB at the dequeue pointer asks of the first command: if it is the
    one of the TRB and needs a device, the event's slot has one. -/
def CommandGuarded (s : State) (event : Trb) (ring : Ring) (cmd : Command) : Prop :=
  cmd.commandTrb = ring.dequeue → getCompCode event.field2 ≠ compCmdStop →
    ¬(getCompCode event.field2 = compCmdAbort ∧ cmd.status = compCmdAbort) →
    (NeedsSlot cmd → trbToSlotId event.field3 < maxHcSlots) ∧
    (NeedsDevice cmd → trbToSlotId event.field3 < maxHcSlots ∧ s.devs (trbToSlotId event.field3) ≠ none)

/-- The command ring is there, and if the event is for the TRB at its dequeue pointer there is
    a command. -/
def CompletionGuarded (s : State) (event : Trb) : Prop :=
  ∃ ring, s.cmdRing = some ring ∧ (trbVirtToDma ring.dequeue ≠ 0 → event.segmentPtr = trbVirtToDma ring.dequeue →
    ∃ cmd ∈ s.cmdList.head?, CommandGuarded s event ring cmd)

/-- The slot is one of the table; if it has a device the event's endpoint ID is not 0, and if
    it has none the event ring is there. -/
def TransferGuarded (s : State) (event : Trb) : Prop :=
  trbToSlotId event.field3 < maxHcSlots ∧
    (s.devs (trbToSlotId event.field3) ≠ none → trbToEpId event.field3 ≠ 0) ∧
    (s.devs (trbToSlotId event.field3) = none → s.eventRing = true)

def Guarded (c : Config) (s : State) : Op → Prop
  | .event event _ =>
    let type := trbFieldToType event.field3
    (type = trbCompletion ∨ type = trbNecCmdComp ∧ c.necHost = true → CompletionGuarded s event) ∧
    (type = trbTransfer → TransferGuarded s event) ∧
    (type = trbDevNote → trbToSlotId event.field3 < maxHcSlots)
  -- The port is one that there is, or the event ring is there.
  | .portStatus _ => s.error = false → s.dying = false → ∀ event ∈ s.portWork.head?,
      getPortId event.field0 = 0 ∨ s.maxPorts < getPortId event.field0 → s.eventRing = true
  -- The device has not been freed.
  | .cacheComplete => s.error = false → s.dying = false → ∀ work ∈ s.writes.head?, work.ringDoorbell = true →
      work.command = false → s.devs work.slotId ≠ none
  | _ => True

/-! ### The TRBs of commands -/

/-- What the handlers rely on in a command. -/
structure Valid (cmd : Command) : Prop where
  endpoint : trbFieldToType cmd.trb.field3 ∈ [trbStopRing, trbSetDeq, trbResetEp] → trbToEpIndex cmd.trb.field3 ≤ lastEpIndex
  waits : trbFieldToType cmd.trb.field3 = trbConfigEp → cmd.completion = true
  slot : trbFieldToType cmd.trb.field3 = trbResetDev → trbToSlotId cmd.trb.field3 < maxHcSlots

/-- The control word of a TRB as it is put on the ring. -/
def cycled (field : BitVec 32) (cycle : Bool) : BitVec 32 := field ||| (if cycle then Trb.trbCycle else 0)

theorem endpointTrb_fields : ∀ type ∈ [trbStopRing, trbSetDeq, trbResetEp], ∀ slotId < maxHcSlots, ∀ epIndex < lastEpIndex + 1,
    ∀ suspend cycle : Bool,
      let field := cycled (State.endpointTrb type slotId epIndex 0 suspend).field3 cycle
      trbFieldToType field = type ∧ trbToEpIndex field = epIndex := by
  decide +kernel

theorem slotCommand_fields : ∀ type ∈ [9, 10, 11, 12, 13, 17, 49], ∀ slotId < maxHcSlots, ∀ bsr cycle : Bool,
    let field := cycled (Order.slotCommand type slotId 0 bsr true).trb.field3 cycle
    trbFieldToType field = type ∧ trbToSlotId field = slotId := by
  decide +kernel

theorem valid_endpointTrb {type slotId epIndex : Nat} (isType : type ∈ [trbStopRing, trbSetDeq, trbResetEp])
    (slot : slotId < maxHcSlots) (index : epIndex ≤ lastEpIndex) (addr : BitVec 64) (suspend cycle completion : Bool)
    (commandTrb : TrbPtr) (status : Nat) :
    Valid ⟨commandTrb, { State.endpointTrb type slotId epIndex addr suspend with
      field3 := cycled (State.endpointTrb type slotId epIndex addr suspend).field3 cycle }, status, completion⟩ := by
  obtain ⟨type_eq, index_eq⟩ := endpointTrb_fields type isType slotId slot epIndex (by omega) suspend cycle
  have known : trbFieldToType (cycled (State.endpointTrb type slotId epIndex addr suspend).field3 cycle) = type := type_eq
  refine ⟨fun _ => ?_, fun config => ?_, fun reset => ?_⟩
  · exact (show trbToEpIndex _ = epIndex from index_eq).trans_le index
  · rw [known] at config
    rw [config] at isType
    exact absurd isType (by decide)
  · rw [known] at reset
    rw [reset] at isType
    exact absurd isType (by decide)

theorem Order.Built.valid {order : Order} (built : order.Built) (cycle : Bool) (commandTrb : TrbPtr) (status : Nat) :
    Valid ⟨commandTrb, { order.trb with field3 := cycled order.trb.field3 cycle }, status, order.completion⟩ := by
  cases order with
  | stopEndpoint slotId epIndex suspend completion =>
    exact valid_endpointTrb (by decide) built.1 built.2 0 suspend cycle completion commandTrb status
  | slotCommand type slotId addr bsr completion =>
    obtain ⟨isType, slot, waits⟩ := built
    obtain ⟨type_eq, slot_eq⟩ := slotCommand_fields type isType slotId slot bsr cycle
    have known : trbFieldToType (cycled (Order.slotCommand type slotId addr bsr completion).trb.field3 cycle) = type := type_eq
    refine ⟨fun endpoint => ?_, fun config => waits (known.symm.trans config), fun _ => ?_⟩
    · have other : ∀ type ∈ [9, 10, 11, 12, 13, 17, 49], type ∉ [trbStopRing, trbSetDeq, trbResetEp] := by decide
      rw [known] at endpoint
      exact absurd endpoint (other type isType)
    · exact (show trbToSlotId _ = slotId from slot_eq).trans_lt slot

theorem noop_type (field : BitVec 32) : trbFieldToType (Trb.trbType 23 ||| (field &&& Trb.trbCycle)) = 23 := by
  have cleared : (field &&& Trb.trbCycle) &&& Trb.trbTypeBitmask = 0 := by
    rw [BitVec.and_assoc]
    simp [Trb.trbCycle, Trb.trbTypeBitmask]
  rw [trbFieldToType, Trb.or_and_of_disjoint cleared]
  decide

theorem Valid.turnToNoop {cmd : Command} (valid : Valid cmd) : Valid (State.turnToNoop cmd) := by
  rw [State.turnToNoop]
  split_ifs
  · have type := noop_type cmd.trb.field3
    refine ⟨fun endpoint => ?_, fun config => ?_, fun reset => ?_⟩
    · exact absurd (type ▸ endpoint) (by decide)
    · exact absurd (type.symm.trans config) (by decide)
    · exact absurd (type.symm.trans reset) (by decide)
  · exact valid

/-! ### The handlers -/

/-- What event handlers keep: rings stay, devices only go, and commands are as the handlers
    expect them. -/
structure Sound (s s' : State) : Prop where
  cmdRing : s'.cmdRing.isSome = s.cmdRing.isSome
  eventRing : s'.eventRing = s.eventRing
  devs : ∀ slotId, s.devs slotId = none → s'.devs slotId = none
  cmdList : (∀ cmd ∈ s.cmdList, Valid cmd) → ∀ cmd ∈ s'.cmdList, Valid cmd
  writes : ∀ work ∈ s'.writes, work ∈ s.writes

theorem bind_ok {α β : Type} {x : Except Fault α} {f : α → Except Fault β} :
    (∃ b, x >>= f = .ok b) ↔ ∃ a, x = .ok a ∧ ∃ b, f a = .ok b := by
  cases x with
  | error fault => simp [bind, Except.bind]
  | ok a => simp [bind, Except.bind]

section
variable {s s' s'' : State} {slotId : Nat} {epIndex : Int} {dev : Device} {q : Quirks} {f : Findings}

theorem Sound.refl (s : State) : Sound s s := ⟨rfl, rfl, fun _ => id, id, fun _ => id⟩

theorem Sound.trans (first : Sound s s') (second : Sound s' s'') : Sound s s'' :=
  ⟨second.cmdRing.trans first.cmdRing, second.eventRing.trans first.eventRing,
    fun slotId nothing => second.devs slotId (first.devs slotId nothing), fun valid => second.cmdList (first.cmdList valid),
    fun work member => first.writes work (second.writes work member)⟩

theorem entry_eq (slot : slotId < maxHcSlots) : s.entry slotId = .ok (s.devs slotId) := by rw [State.entry, if_pos slot]

theorem entry_ok : (∃ entry, s.entry slotId = .ok entry) ↔ slotId < maxHcSlots := by
  rw [State.entry]
  split_ifs with slot <;> simp [slot]

theorem device_eq (slot : slotId < maxHcSlots) (there : s.devs slotId = some dev) : s.device slotId = .ok dev := by
  rw [State.device, entry_eq slot, there]
  rfl

theorem device_ok : (∃ dev, s.device slotId = .ok dev) ↔ slotId < maxHcSlots ∧ s.devs slotId ≠ none := by
  constructor
  · intro ok
    obtain ⟨entry, is_entry, is_device⟩ := bind_ok.mp ok
    have slot := entry_ok.mp ⟨entry, is_entry⟩
    obtain rfl : s.devs slotId = entry := by simpa [entry_eq slot] using is_entry
    refine ⟨slot, fun nothing => ?_⟩
    simp [nothing] at is_device
  · rintro ⟨slot, there⟩
    obtain ⟨dev, is_dev⟩ := Option.ne_none_iff_exists'.mp there
    exact ⟨dev, device_eq slot is_dev⟩

theorem endpoint_eq (low : 0 ≤ epIndex) (high : epIndex ≤ lastEpIndex) :
    State.endpoint dev epIndex = .ok (dev.ring epIndex.toNat) := by
  rw [State.endpoint, if_pos ⟨low, high⟩]

theorem queueCommand_spec (completion : Bool) (rings : s.cmdRing ≠ none) {trb : Trb}
    (valid : ∀ cycle commandTrb, Valid ⟨commandTrb, { trb with field3 := cycled trb.field3 cycle }, 0, completion⟩) :
    ∃ s', s.queueCommand q trb completion = .ok s' ∧ Sound s s' ∧ s'.devs = s.devs := by
  rw [State.queueCommand]
  split_ifs
  · exact ⟨s, rfl, .refl s, rfl⟩
  · obtain ⟨ring, is_ring⟩ := Option.ne_none_iff_exists'.mp rings
    have there : s.commandRing = .ok ring := by rw [State.commandRing, is_ring]
    rw [there]
    simp only [bind, Except.bind]
    by_cases full : (ring.prepareRing q 1 2 [] 0).1 < 0
    · rw [if_pos full]
      exact ⟨_, rfl, ⟨by simp [is_ring], rfl, fun _ => id, id, fun _ => id⟩, rfl⟩
    · rw [if_neg full]
      refine ⟨_, rfl, ⟨by simp [is_ring], rfl, fun _ => id, ?_, fun _ => id⟩, rfl⟩
      intro before cmd member
      rcases List.mem_append.mp member with old | new
      · exact before cmd old
      · rw [List.mem_singleton.mp new]
        exact valid _ _

/-- An endpoint of a device that there is. -/
structure There (s : State) (slotId : Nat) (epIndex : Int) (dev : Device) : Prop where
  slot : slotId < maxHcSlots
  device : s.devs slotId = some dev
  low : 0 ≤ epIndex
  high : epIndex ≤ lastEpIndex
  rings : s.cmdRing ≠ none

theorem ringEpDoorbell_eq (there : There s slotId epIndex dev) : s.ringEpDoorbell slotId epIndex = .ok () := by
  rw [State.ringEpDoorbell, device_eq there.slot there.device]
  simp only [bind, Except.bind, endpoint_eq there.low there.high]
  rfl

theorem ringDoorbellForActiveRings_eq (there : There s slotId epIndex dev) (active : Bool) :
    s.ringDoorbellForActiveRings slotId epIndex active = .ok () := by
  rw [State.ringDoorbellForActiveRings, device_eq there.slot there.device]
  simp only [bind, Except.bind, endpoint_eq there.low there.high, ringEpDoorbell_eq there]
  split_ifs <;> rfl

theorem There.valid (there : There s slotId epIndex dev) (type : Nat) (isType : type ∈ [trbStopRing, trbSetDeq, trbResetEp])
    (addr : BitVec 64) (completion cycle : Bool) (commandTrb : TrbPtr) :
    Valid ⟨commandTrb, { State.endpointTrb type slotId epIndex.toNat addr false with
      field3 := cycled (State.endpointTrb type slotId epIndex.toNat addr false).field3 cycle }, 0, completion⟩ := by
  have low := there.low
  have high := there.high
  exact valid_endpointTrb isType there.slot (by omega) addr false cycle completion commandTrb 0

theorem queueNewDequeueState_spec (there : There s slotId epIndex dev) (deqState : BitVec 64 × Bool) :
    ∃ s', s.queueNewDequeueState q slotId epIndex deqState f = .ok s' ∧ Sound s s' := by
  rw [State.queueNewDequeueState, device_eq there.slot there.device]
  simp only [bind, Except.bind, endpoint_eq there.low there.high]
  by_cases unmapped : deqState.1 = 0
  · rw [if_pos unmapped]
    exact ⟨s, rfl, .refl s⟩
  rw [if_neg unmapped]
  by_cases refused : (f.setDeqPending || !f.setDeqAlloc) = true
  · rw [if_pos refused]
    exact ⟨s, rfl, .refl s⟩
  · rw [if_neg refused]
    obtain ⟨s', ok, sound, _⟩ := queueCommand_spec (q := q) false there.rings (there.valid trbSetDeq (by decide) _ false)
    exact ⟨s', ok, sound⟩

theorem moveDequeue_spec (there : There s slotId epIndex dev) :
    ∃ s', s.moveDequeue q slotId epIndex f = .ok s' ∧ Sound s s' := by
  rw [State.moveDequeue, device_eq there.slot there.device]
  simp only [bind, Except.bind, endpoint_eq there.low there.high]
  split
  · split_ifs
    · exact queueNewDequeueState_spec there _
    · exact ⟨s, rfl, .refl s⟩
  · exact ⟨s, rfl, .refl s⟩

theorem cleanupHaltedEndpoint_spec (there : There s slotId epIndex dev) :
    ∃ s', s.cleanupHaltedEndpoint q slotId epIndex f = .ok s' ∧ Sound s s' := by
  rw [State.cleanupHaltedEndpoint, device_eq there.slot there.device]
  simp only [bind, Except.bind, endpoint_eq there.low there.high]
  split_ifs
  · obtain ⟨s', ok, sound, devs⟩ := queueCommand_spec (q := q) false there.rings (there.valid trbResetEp (by decide) 0 false)
    rw [ok]
    have rings : s'.cmdRing ≠ none := by
      have := sound.cmdRing
      rw [Option.isSome_iff_ne_none.mpr there.rings] at this
      exact Option.isSome_iff_ne_none.mp this
    obtain ⟨s'', ok', sound'⟩ := moveDequeue_spec (q := q) (f := f)
      (⟨there.slot, devs ▸ there.device, there.low, there.high, rings⟩ : There s' slotId epIndex dev)
    exact ⟨s'', ok', sound.trans sound'⟩
  · exact ⟨s, rfl, .refl s⟩

/-- There is no fault exactly when the condition holds, and then the state stays sound. -/
structure Handled (s : State) (x : Except Fault State) (condition : Prop) : Prop where
  ok : condition → ∃ s', x = .ok s' ∧ Sound s s'
  only : ∀ s', x = .ok s' → condition

theorem handled_same (s : State) : Handled s (.ok s) True := ⟨fun _ => ⟨s, rfl, .refl s⟩, fun _ _ => trivial⟩

theorem Handled.congr {x : Except Fault State} {condition condition' : Prop} (handled : Handled s x condition)
    (same : condition ↔ condition') : Handled s x condition' :=
  ⟨fun holds => handled.ok (same.mpr holds), fun s' ok => same.mp (handled.only s' ok)⟩

/-- A handler that begins with a device. -/
theorem handled_device {rest : Device → Except Fault State}
    (ok : ∀ dev, slotId < maxHcSlots → s.devs slotId = some dev → ∃ s', rest dev = .ok s' ∧ Sound s s') :
    Handled s (s.device slotId >>= rest) (slotId < maxHcSlots ∧ s.devs slotId ≠ none) := by
  refine ⟨?_, fun s' runs => ?_⟩
  · rintro ⟨slot, there⟩
    obtain ⟨dev, is_dev⟩ := Option.ne_none_iff_exists'.mp there
    rw [device_eq slot is_dev]
    exact ok dev slot is_dev
  · obtain ⟨dev, is_dev, _⟩ := bind_ok.mp ⟨s', runs⟩
    exact device_ok.mp ⟨dev, is_dev⟩

theorem handled_entry (rest : Option Device → State) (sound : ∀ entry, Sound s (rest entry)) :
    Handled s (s.entry slotId >>= fun entry => .ok (rest entry)) (slotId < maxHcSlots) := by
  refine ⟨fun slot => ?_, fun s' runs => ?_⟩
  · rw [entry_eq slot]
    exact ⟨_, rfl, sound _⟩
  · obtain ⟨entry, is_entry, _⟩ := bind_ok.mp ⟨s', runs⟩
    exact entry_ok.mp ⟨entry, is_entry⟩

theorem handled_stopEp (rings : s.cmdRing ≠ none) {trb : Trb} (index : trbToEpIndex trb.field3 ≤ lastEpIndex) :
    Handled s (s.handleCmdStopEp q slotId trb f)
      (slotId < maxHcSlots ∧ (trbToSuspendPort trb.field3 = false → s.devs slotId ≠ none)) := by
  rw [State.handleCmdStopEp]
  by_cases suspends : trbToSuspendPort trb.field3 = true
  · rw [if_pos suspends]
    exact (handled_entry (fun _ => s) fun _ => .refl s).congr (by simp [suspends])
  · rw [if_neg suspends]
    refine (handled_device fun dev slot is_dev => ?_).congr (by simp [suspends])
    have there : There s slotId (trbToEpIndex trb.field3) dev := ⟨slot, is_dev, by omega, by exact_mod_cast index, rings⟩
    simp only [bind, Except.bind, endpoint_eq there.low there.high, ringDoorbellForActiveRings_eq there]
    split_ifs
    · exact moveDequeue_spec there
    · exact ⟨s, rfl, .refl s⟩

theorem handled_setDeq (rings : s.cmdRing ≠ none) {trb : Trb} (index : trbToEpIndex trb.field3 ≤ lastEpIndex) :
    Handled s (s.handleCmdSetDeq slotId trb f) (slotId < maxHcSlots ∧ s.devs slotId ≠ none) := by
  rw [State.handleCmdSetDeq]
  refine handled_device fun dev slot is_dev => ?_
  have there : There s slotId (trbToEpIndex trb.field3) dev := ⟨slot, is_dev, by omega, by exact_mod_cast index, rings⟩
  simp only [bind, Except.bind, endpoint_eq there.low there.high, ringDoorbellForActiveRings_eq there]
  exact ⟨s, rfl, .refl s⟩

theorem handled_resetEp {trb : Trb} (index : trbToEpIndex trb.field3 ≤ lastEpIndex) :
    Handled s (s.handleCmdResetEp slotId trb) (slotId < maxHcSlots ∧ s.devs slotId ≠ none) := by
  rw [State.handleCmdResetEp]
  refine handled_device fun dev _ _ => ?_
  simp only [bind, Except.bind, endpoint_eq (show (0 : Int) ≤ trbToEpIndex trb.field3 by omega) (by exact_mod_cast index)]
  exact ⟨s, rfl, .refl s⟩

theorem handled_disableSlot : Handled s (s.handleCmdDisableSlot slotId) (slotId < maxHcSlots) := by
  have freed : Sound s (if slotId = 0 then s else { s with devs := Function.update s.devs slotId none }) := by
    split_ifs
    · exact .refl s
    · refine ⟨rfl, rfl, fun slotId' nothing => ?_, id, fun _ => id⟩
      by_cases here : slotId' = slotId
      · simp [here]
      · simp [here, nothing]
  refine ⟨fun slot => ?_, fun s' runs => ?_⟩
  · rw [State.handleCmdDisableSlot, entry_eq slot]
    cases is_dev : s.devs slotId with
    | none => exact ⟨s, rfl, .refl s⟩
    | some dev => exact ⟨_, rfl, freed⟩
  · obtain ⟨entry, is_entry, _⟩ := bind_ok.mp ⟨s', runs⟩
    exact entry_ok.mp ⟨entry, is_entry⟩

/-- The handler of a command looks up the slot or uses the device, or neither. -/
theorem handled_command (slotId : Nat) (rings : s.cmdRing ≠ none) {cmd : Command} (valid : Valid cmd) :
    Handled s (s.handleCommand q slotId cmd f) ((NeedsSlot cmd → slotId < maxHcSlots) ∧
      (NeedsDevice cmd → slotId < maxHcSlots ∧ s.devs slotId ≠ none)) := by
  obtain ⟨endpoint, waits, slot⟩ := valid
  rw [State.handleCommand, NeedsSlot, NeedsDevice]
  generalize trbFieldToType cmd.trb.field3 = type at endpoint waits slot ⊢
  by_cases disables : type = trbDisableSlot
  · rw [if_pos disables]
    exact handled_disableSlot.congr (by simp [disables, trbDisableSlot, trbStopRing, trbSetDeq, trbResetEp])
  rw [if_neg disables]
  by_cases configures : type = trbConfigEp
  · rw [if_pos configures, if_pos (waits configures)]
    exact (handled_same s).congr (by simp [configures, trbConfigEp, trbDisableSlot, trbStopRing, trbSetDeq, trbResetEp])
  rw [if_neg configures]
  by_cases stops : type = trbStopRing
  · rw [if_pos stops]
    refine (handled_stopEp rings (endpoint (by simp [stops]))).congr ?_
    simp only [stops, trbStopRing, trbDisableSlot, trbSetDeq, trbResetEp]
    constructor
    · exact fun ⟨slot, there⟩ => ⟨fun _ => slot, fun needs => ⟨slot, there (by simpa using needs)⟩⟩
    · exact fun ⟨slot, there⟩ => ⟨slot (by simp), fun needs => (there (by simp [needs])).2⟩
  rw [if_neg stops]
  by_cases moves : type = trbSetDeq
  · rw [if_pos moves]
    refine (handled_setDeq rings (endpoint (by simp [moves]))).congr ?_
    simp [moves, trbStopRing, trbDisableSlot, trbSetDeq, trbResetEp]
  rw [if_neg moves]
  by_cases resets : type = trbResetEp
  · rw [if_pos resets]
    refine (handled_resetEp (endpoint (by simp [resets]))).congr ?_
    simp [resets, trbStopRing, trbDisableSlot, trbSetDeq, trbResetEp]
  rw [if_neg resets]
  have neither : ((type = trbStopRing ∨ type = trbDisableSlot → slotId < maxHcSlots) ∧
      (type = trbStopRing ∧ trbToSuspendPort cmd.trb.field3 = false ∨ type = trbSetDeq ∨ type = trbResetEp →
        slotId < maxHcSlots ∧ s.devs slotId ≠ none)) ↔ True := by simp [stops, disables, moves, resets]
  by_cases restarts : type = trbResetDev
  · rw [if_pos restarts, entry_eq (slot restarts)]
    exact (handled_same s).congr neither.symm
  · rw [if_neg restarts]
    exact (handled_same s).congr neither.symm

/-! ### Events -/

/-- What holds in every run: without a command ring there is no device, the event ring is
    there as long as the command ring is, and commands and cache writes name endpoints. -/
structure Inv (s : State) : Prop where
  devs : s.cmdRing = none → ∀ slotId, s.devs slotId = none
  rings : s.eventRing = s.cmdRing.isSome
  valid : ∀ cmd ∈ s.cmdList, Valid cmd
  writes : ∀ work ∈ s.writes, work.slotId < maxHcSlots ∧ work.epIndex ≤ lastEpIndex

theorem Inv.sound (inv : Inv s) (sound : Sound s s') : Inv s' := by
  refine ⟨fun nothing slotId => ?_, ?_, sound.cmdList inv.valid, fun work member => inv.writes work (sound.writes work member)⟩
  · refine sound.devs slotId (inv.devs ?_ slotId)
    have same := sound.cmdRing
    rw [nothing] at same
    exact Option.isSome_eq_false_iff.mp same.symm |> Option.isNone_iff_eq_none.mp
  · rw [sound.eventRing, sound.cmdRing, inv.rings]

/-- The first command leaves the list, and the ring's dequeue pointer moves on. -/
theorem eventHandled_spec (rings : s.cmdRing ≠ none) (sound : Sound s s') : ∃ s'', (s'.commandRing >>= fun ring =>
    (.ok { s' with cmdList := s'.cmdList.tail, cmdRing := some ring.incDeq } : Except Fault State)) = .ok s'' ∧ Sound s s'' := by
  obtain ⟨ring, is_ring⟩ : ∃ ring, s'.cmdRing = some ring := by
    have same := sound.cmdRing
    rw [Option.isSome_iff_ne_none.mpr rings] at same
    exact Option.isSome_iff_exists.mp same
  rw [State.commandRing, is_ring]
  refine ⟨_, rfl, sound.trans ⟨by simp [is_ring], rfl, fun _ => id, ?_, fun _ => id⟩⟩
  exact fun valid cmd member => valid cmd (List.mem_of_mem_tail member)

theorem completionGuarded_first {ring : Ring} {cmd : Command} {rest : List Command} {event : Trb} (is_ring : s.cmdRing = some ring)
    (is_list : s.cmdList = cmd :: rest) (mapped : trbVirtToDma ring.dequeue ≠ 0) (here : event.segmentPtr = trbVirtToDma ring.dequeue) :
    CompletionGuarded s event ↔ CommandGuarded s event ring cmd := by
  constructor
  · rintro ⟨ring', is_ring', guarded⟩
    obtain rfl : ring = ring' := Option.some.inj (is_ring.symm.trans is_ring')
    obtain ⟨cmd', is_cmd, guarded⟩ := guarded mapped here
    rw [is_list] at is_cmd
    obtain rfl : cmd = cmd' := Option.some.inj is_cmd
    exact guarded
  · intro guarded
    exact ⟨ring, is_ring, fun _ _ => ⟨cmd, by rw [is_list]; rfl, guarded⟩⟩

theorem Inv.handled_completion (inv : Inv s) (event : Trb) :
    Handled s (s.handleCmdCompletion q event f) (CompletionGuarded s event) := by
  rw [State.handleCmdCompletion]
  by_cases nothing : s.cmdRing = none
  · refine ⟨fun ⟨_, there, _⟩ => by simp [nothing] at there, fun _ runs => ?_⟩
    simp [State.commandRing, nothing, bind, Except.bind] at runs
  obtain ⟨ring, is_ring⟩ := Option.ne_none_iff_exists'.mp nothing
  have there : s.commandRing = .ok ring := by rw [State.commandRing, is_ring]
  rw [there]
  change Handled s (if _ then _ else _) _
  by_cases elsewhere : trbVirtToDma ring.dequeue = 0 ∨ event.segmentPtr ≠ trbVirtToDma ring.dequeue
  · rw [if_pos elsewhere]
    refine (handled_same s).congr ⟨fun _ => ⟨ring, is_ring, fun mapped here => ?_⟩, fun _ => trivial⟩
    exact (elsewhere.elim mapped fun other => other here).elim
  rw [if_neg elsewhere]
  rw [not_or, not_not] at elsewhere
  by_cases empty : s.cmdList = []
  · refine ⟨fun ⟨ring', is_ring', guarded⟩ => ?_, fun _ runs => ?_⟩
    · obtain rfl : ring = ring' := Option.some.inj (is_ring.symm.trans is_ring')
      simpa [empty] using guarded elsewhere.1 elsewhere.2
    · simp [State.firstCommand, empty, bind, Except.bind] at runs
  obtain ⟨cmd, rest, is_list⟩ := List.exists_cons_of_ne_nil empty
  have first : s.firstCommand = .ok cmd := by rw [State.firstCommand, is_list]
  have valid : Valid cmd := inv.valid cmd (by simp [is_list])
  rw [first, completionGuarded_first is_ring is_list elsewhere.1 elsewhere.2]
  change Handled s (if _ then _ else _) _
  by_cases mismatch : cmd.commandTrb ≠ ring.dequeue
  · rw [if_pos mismatch]
    exact (handled_same s).congr ⟨fun _ here => absurd here mismatch, fun _ => trivial⟩
  rw [if_neg mismatch]
  by_cases stopped : getCompCode event.field2 = compCmdStop
  · rw [if_pos stopped]
    refine ⟨fun _ => ⟨_, rfl, rfl, rfl, fun _ => id, fun valid cmd' member => ?_, fun _ => id⟩, fun _ _ _ other => ?_⟩
    · obtain ⟨before, was_there, rfl⟩ := List.mem_map.mp member
      exact (valid before was_there).turnToNoop
    · exact absurd stopped other
  rw [if_neg stopped]
  by_cases aborted : getCompCode event.field2 = compCmdAbort ∧ cmd.status = compCmdAbort
  · rw [if_pos aborted]
    exact ⟨fun _ => eventHandled_spec nothing (.refl s), fun _ _ _ _ other => absurd aborted other⟩
  rw [if_neg aborted]
  have handled := handled_command (q := q) (f := f) (trbToSlotId event.field3) nothing valid
  refine ⟨fun guarded => ?_, fun s'' runs _ _ _ => ?_⟩
  · obtain ⟨s', ok, sound⟩ := handled.ok (guarded (not_not.mp mismatch) stopped aborted)
    rw [ok]
    exact eventHandled_spec nothing sound
  · obtain ⟨s', ok, _⟩ := bind_ok.mp ⟨s'', runs⟩
    exact handled.only s' ok

theorem Inv.handled_transfer (inv : Inv s) (event : Trb) :
    Handled s (s.handleTxEvent q event f) (TransferGuarded s event) := by
  rw [State.handleTxEvent, TransferGuarded]
  by_cases slot : trbToSlotId event.field3 < maxHcSlots
  · rw [entry_eq slot]
    simp only [bind, Except.bind]
    cases is_dev : s.devs (trbToSlotId event.field3) with
    | none =>
      rw [State.useEventRing]
      by_cases there : s.eventRing = true
      · rw [if_pos there]
        exact (handled_same s).congr (by simp [slot, there])
      · rw [if_neg there]
        exact ⟨fun holds => absurd (holds.2.2 rfl) there, fun _ runs => by simp at runs⟩
    | some dev =>
      have rings : s.cmdRing ≠ none := fun nothing => by simp [inv.devs nothing] at is_dev
      have there : s.eventRing = true := by rw [inv.rings, Option.isSome_iff_ne_none.mpr rings]
      by_cases zero : trbToEpId event.field3 = 0
      · refine ⟨fun holds => absurd zero (holds.2.1 (by simp)), fun _ runs => ?_⟩
        simp [State.endpoint, zero] at runs
      · have small : trbToEpId event.field3 ≤ 31 := by
          rw [trbToEpId, BitVec.toNat_and]
          exact Nat.and_le_right
        have at_ep : There s (trbToSlotId event.field3) ((trbToEpId event.field3 : Int) - 1) dev :=
          ⟨slot, is_dev, by omega, by simp only [lastEpIndex]; omega, rings⟩
        have used : ∀ s', Sound s s' → s'.useEventRing = .ok () := by
          intro s' sound
          rw [State.useEventRing, sound.eventRing, if_pos there]
        have condition : (trbToSlotId event.field3 < maxHcSlots ∧ (some dev ≠ none → trbToEpId event.field3 ≠ 0) ∧
            (some dev = none → s.eventRing = true)) ↔ True := by simp [slot, zero]
        rw [condition]
        refine ⟨fun _ => ?_, fun _ _ => trivial⟩
        simp only [endpoint_eq at_ep.low at_ep.high]
        by_cases unused : (!dev.ring ((trbToEpId event.field3 : Int) - 1).toNat || f.disabled) = true
        · rw [if_pos unused, used s (.refl s)]
          exact ⟨s, rfl, .refl s⟩
        · rw [if_neg unused]
          by_cases halts : f.halts = true
          · obtain ⟨s', ok, sound⟩ := cleanupHaltedEndpoint_spec (q := q) (f := f) at_ep
            rw [if_pos halts, ok]
            simp only [used s' sound]
            exact ⟨s', rfl, sound⟩
          · rw [if_neg halts]
            simp only [used s (.refl s)]
            exact ⟨s, rfl, .refl s⟩
  · refine ⟨fun holds => absurd holds.1 slot, fun s' runs => ?_⟩
    obtain ⟨entry, is_entry, _⟩ := bind_ok.mp ⟨s', runs⟩
    exact absurd (entry_ok.mp ⟨entry, is_entry⟩) slot

theorem Inv.handled_event (inv : Inv s) (c : Config) (event : Trb) :
    Handled s (s.handleEvent c event f) (Guarded c s (.event event f)) := by
  rw [State.handleEvent, Guarded]
  generalize trbFieldToType event.field3 = type
  by_cases completes : type = trbCompletion
  · subst completes
    exact (inv.handled_completion event).congr (by simp [trbCompletion, trbTransfer, trbDevNote])
  by_cases vendor : type = trbNecCmdComp ∧ c.necHost = true
  · obtain ⟨rfl, isNec⟩ := vendor
    rw [if_neg (by decide), if_neg (by decide), if_neg (by decide), if_neg (by decide), if_pos ⟨rfl, isNec⟩]
    exact (inv.handled_completion event).congr (by simp [isNec, trbNecCmdComp, trbTransfer, trbDevNote])
  simp only [completes, vendor, or_self, false_implies, true_and, if_false]
  by_cases port : type = trbPortStatus
  · subst port
    refine ⟨fun _ => ⟨_, rfl, rfl, rfl, fun _ => id, id, fun _ => id⟩, fun _ _ => ?_⟩
    simp [trbPortStatus, trbTransfer, trbDevNote]
  rw [if_neg port]
  by_cases transfers : type = trbTransfer
  · subst transfers
    exact (inv.handled_transfer event).congr (by simp [trbTransfer, trbDevNote])
  rw [if_neg transfers]
  by_cases notes : type = trbDevNote
  · subst notes
    exact (handled_entry (fun _ => s) fun _ => .refl s).congr (by simp [trbTransfer, trbDevNote])
  rw [if_neg notes]
  exact (handled_same s).congr (by simp [transfers, notes])

theorem forM_ok {x : Nat → Except Fault Unit} : ∀ (l : List Nat), (∀ i ∈ l, x i = .ok ()) → l.forM x = .ok () := by
  intro l
  induction l with
  | nil => exact fun _ => rfl
  | cons i l ih =>
    intro ok
    rw [show (i :: l).forM x = x i >>= fun _ => l.forM x from rfl, ok i (by simp)]
    exact ih fun i' member => ok i' (by simp [member])

theorem ringDevice_eq (slot : slotId < maxHcSlots) (there : s.devs slotId = some dev) (rings : s.cmdRing ≠ none) :
    s.ringDevice slotId = .ok () := by
  refine forM_ok _ fun i member => ?_
  have at_ep : There s slotId i dev := by
    refine ⟨slot, there, by omega, ?_, rings⟩
    have := List.mem_range.mp member
    exact_mod_cast Nat.le_of_lt_succ this
  rw [device_eq slot there]
  simp only [bind, Except.bind, endpoint_eq at_ep.low at_ep.high, ringEpDoorbell_eq at_ep]
  split_ifs <;> rfl

theorem Inv.handled_portStatus (inv : Inv s) (c : Config) :
    Handled s (s.handleQueuedPortStatus f) (Guarded c s (.portStatus f)) := by
  rw [State.handleQueuedPortStatus, Guarded]
  cases is_work : s.portWork with
  | nil => exact (handled_same s).congr (by simp)
  | cons event portWork =>
    have done : Sound s { s with portWork } := ⟨rfl, rfl, fun _ => id, id, fun _ => id⟩
    by_cases failed : s.error = true ∨ s.dying = true
    · have skipped : (!(s.error || s.dying)) = false := by
        rw [Bool.not_eq_false', Bool.or_eq_true]
        exact failed
      simp only [skipped]
      refine ⟨fun _ => ⟨_, rfl, done⟩, fun _ _ ok alive => ?_⟩
      simp [ok, alive] at failed
    · have clear : s.error = false ∧ s.dying = false := by simpa using failed
      have runs : (!(s.error || s.dying)) = true := by simp [clear]
      have condition : (s.error = false → s.dying = false → ∀ e ∈ (event :: portWork).head?,
          getPortId e.field0 = 0 ∨ s.maxPorts < getPortId e.field0 → s.eventRing = true) ↔
          (getPortId event.field0 = 0 ∨ s.maxPorts < getPortId event.field0 → s.eventRing = true) := by simp [clear]
      rw [condition]
      simp only [runs, if_true]
      rw [State.handlePortStatus]
      by_cases invalid : getPortId event.field0 = 0 ∨ s.maxPorts < getPortId event.field0
      · simp only [invalid, if_true, forall_const]
        rw [State.useEventRing]
        by_cases there : s.eventRing = true
        · rw [if_pos there]
          exact ⟨fun _ => ⟨_, rfl, done⟩, fun _ _ => there⟩
        · rw [if_neg there]
          exact ⟨fun holds => absurd holds there, fun _ runs => by simp [bind, Except.bind] at runs⟩
      · simp only [invalid, if_false, false_implies]
        have rung : (match f.resumed with
            | some slotId => if slotId < maxHcSlots ∧ (s.devs slotId).isSome = true then s.ringDevice slotId else .ok ()
            | none => .ok ()) = .ok () := by
          split
          · rename_i slotId _
            split_ifs with there
            · obtain ⟨dev, is_dev⟩ := Option.isSome_iff_exists.mp there.2
              refine ringDevice_eq there.1 is_dev fun nothing => ?_
              simp [inv.devs nothing] at is_dev
            · rfl
          · rfl
        rw [rung]
        exact ⟨fun _ => ⟨_, rfl, done⟩, fun _ _ => trivial⟩

theorem Inv.handled_cacheComplete (inv : Inv s) (c : Config) : Handled s s.cacheComplete (Guarded c s .cacheComplete) := by
  rw [State.cacheComplete, Guarded]
  cases is_writes : s.writes with
  | nil => exact (handled_same s).congr (by simp)
  | cons work writes =>
    have done : Sound s { s with writes } := ⟨rfl, rfl, fun _ => id, id, fun _ member => by simp [is_writes, show _ ∈ writes from member]⟩
    obtain ⟨slot, index⟩ := inv.writes work (by simp [is_writes])
    by_cases rings : (!(s.error || s.dying) && work.ringDoorbell && !work.command) = true
    · have condition : (s.error = false → s.dying = false → ∀ w ∈ (work :: writes).head?, w.ringDoorbell = true →
          w.command = false → s.devs w.slotId ≠ none) ↔ work.slotId < maxHcSlots ∧ s.devs work.slotId ≠ none := by
        simp only [Bool.and_eq_true, Bool.not_eq_true', Bool.or_eq_false_iff] at rings
        simp [rings, slot]
      simp only [rings, if_true]
      rw [condition]
      refine ⟨fun ⟨_, there⟩ => ?_, fun s' runs => ?_⟩
      · obtain ⟨dev, is_dev⟩ := Option.ne_none_iff_exists'.mp there
        have at_ep : There s work.slotId work.epIndex dev :=
          ⟨slot, is_dev, by omega, by exact_mod_cast index, fun nothing => by simp [inv.devs nothing] at is_dev⟩
        rw [ringEpDoorbell_eq at_ep]
        exact ⟨_, rfl, done⟩
      · obtain ⟨_, rung, _⟩ := bind_ok.mp ⟨s', runs⟩
        obtain ⟨dev, is_dev, _⟩ := bind_ok.mp ⟨_, rung⟩
        exact device_ok.mp ⟨dev, is_dev⟩
    · simp only [rings]
      refine ⟨fun _ => ⟨_, rfl, done⟩, fun _ _ ok alive w is_work rung command => ?_⟩
      obtain rfl : work = w := Option.some.inj is_work
      simp [ok, alive, rung, command] at rings

/-! ### Runs -/

theorem Inv.setDevs (inv : Inv s) {slotId : Nat} {dev : Option Device} (rings : dev ≠ none → s.cmdRing ≠ none) :
    Inv { s with devs := Function.update s.devs slotId dev } := by
  refine ⟨fun nothing slotId' => ?_, inv.rings, inv.valid, inv.writes⟩
  by_cases here : slotId' = slotId
  · subst here
    show Function.update s.devs slotId' dev slotId' = none
    rw [Function.update_self]
    by_contra there
    exact rings there nothing
  · show Function.update s.devs slotId dev slotId' = none
    rw [Function.update_of_ne here]
    exact inv.devs nothing slotId'

theorem Inv.run (inv : Inv s) {c : Config} {op : Op} (allowed : op.Allowed s) (runs : s.run c op = .ok s') : Inv s' := by
  cases op with
  | event event f =>
    obtain ⟨s'', ok, sound⟩ := (inv.handled_event c event).ok ((inv.handled_event c event).only s' runs)
    obtain rfl : s' = s'' := Except.ok.inj (runs.symm.trans ok)
    exact inv.sound sound
  | portStatus f =>
    obtain ⟨s'', ok, sound⟩ := (inv.handled_portStatus c).ok ((inv.handled_portStatus c).only s' runs)
    obtain rfl : s' = s'' := Except.ok.inj (runs.symm.trans ok)
    exact inv.sound sound
  | cacheComplete =>
    obtain ⟨s'', ok, sound⟩ := (inv.handled_cacheComplete c).ok ((inv.handled_cacheComplete c).only s' runs)
    obtain rfl : s' = s'' := Except.ok.inj (runs.symm.trans ok)
    exact inv.sound sound
  | allocDevice slotId =>
    obtain rfl := Except.ok.inj runs
    exact inv.setDevs fun _ => allowed.2.2.2
  | freeDevice slotId =>
    obtain rfl := Except.ok.inj runs
    exact inv.setDevs fun there => absurd rfl there
  | setRing slotId epIndex ring =>
    obtain rfl := Except.ok.inj runs
    refine inv.setDevs fun there nothing => ?_
    simp [inv.devs nothing] at there
  | queue order =>
    obtain ⟨s'', ok, sound, _⟩ := queueCommand_spec (q := c.quirks) order.completion allowed.1
      fun cycle commandTrb => allowed.2.valid cycle commandTrb 0
    obtain rfl : s' = s'' := Except.ok.inj (runs.symm.trans ok)
    exact inv.sound sound
  | submit work =>
    obtain rfl := Except.ok.inj runs
    refine ⟨inv.devs, inv.rings, inv.valid, fun w member => ?_⟩
    rcases List.mem_append.mp member with before | new
    · exact inv.writes w before
    · rw [List.mem_singleton.mp new]
      exact allowed
  | timeout commandTrb =>
    obtain rfl := Except.ok.inj runs
    refine ⟨inv.devs, inv.rings, fun cmd member => ?_, inv.writes⟩
    obtain ⟨before, was_there, rfl⟩ := List.mem_map.mp member
    have valid := inv.valid before was_there
    split_ifs
    · exact ⟨valid.endpoint, valid.waits, valid.slot⟩
    · exact valid
  | cleanupCommandQueue =>
    obtain rfl := Except.ok.inj runs
    exact ⟨inv.devs, inv.rings, by simp, inv.writes⟩
  | die =>
    obtain rfl := Except.ok.inj runs
    exact ⟨inv.devs, inv.rings, inv.valid, inv.writes⟩
  | raise =>
    obtain rfl := Except.ok.inj runs
    exact ⟨inv.devs, inv.rings, inv.valid, inv.writes⟩
  | memCleanup =>
    obtain rfl := Except.ok.inj runs
    exact ⟨fun _ _ => rfl, rfl, by simp [State.memCleanup], inv.writes⟩
  | memInit ring =>
    obtain rfl := Except.ok.inj runs
    exact ⟨by simp, rfl, inv.valid, inv.writes⟩

theorem Reachable.inv {c : Config} (reachable : Reachable c s) : Inv s := by
  refine Run.Reachable.invariant ?_ ?_ reachable
  · rintro s ⟨noDevice, rings, there, noCommand, noWrite, _⟩
    refine ⟨fun nothing => absurd nothing rings, ?_, by simp [noCommand], by simp [noWrite]⟩
    rw [there, Option.isSome_iff_ne_none.mpr rings]
  · rintro s op inv ⟨allowed, s', runs⟩
    rw [State.step, runs]
    exact inv.run allowed runs

/-- In every state that is reached, an event, a port status that was put off or a cache write
    that completes leads to no fault exactly when it is `Guarded`. -/
theorem events_safe_iff {c : Config} (reachable : Reachable c s) {op : Op} (allowed : op.Allowed s) :
    (∃ s', s.run c op = .ok s') ↔ Guarded c s op := by
  have inv := reachable.inv
  have done : ∀ {condition : Prop} {x : Except Fault State}, Handled s x condition → ((∃ s', x = .ok s') ↔ condition) := by
    intro condition x handled
    refine ⟨fun ⟨s', ok⟩ => handled.only s' ok, fun holds => ?_⟩
    obtain ⟨s', ok, _⟩ := handled.ok holds
    exact ⟨s', ok⟩
  cases op with
  | event event f => exact done (inv.handled_event c event)
  | portStatus f => exact done (inv.handled_portStatus c)
  | cacheComplete => exact done (inv.handled_cacheComplete c)
  | queue order =>
    obtain ⟨s', ok, _⟩ := queueCommand_spec (q := c.quirks) order.completion allowed.1
      fun cycle commandTrb => allowed.2.valid cycle commandTrb 0
    exact ⟨fun _ => trivial, fun _ => ⟨s', ok⟩⟩
  | allocDevice | freeDevice | setRing | submit | timeout | cleanupCommandQueue | die | raise | memCleanup | memInit =>
    exact ⟨fun _ => trivial, fun _ => ⟨_, rfl⟩⟩

end

/-- Nothing special. -/
def quiet : Findings := ⟨false, false, false, false, none, true, true, none⟩

/-- The host with a new command ring and a device in slot 1. -/
def oneDevice : State :=
  State.step ⟨⟨false, false⟩, false⟩ ⟨fun _ => none, some CommandRing.commandRing, true, [], false, false, 4, [], []⟩ (.allocDevice 1)

theorem oneDevice_reachable : Reachable ⟨⟨false, false⟩, false⟩ oneDevice := by
  refine .step _ (.first ⟨fun _ => rfl, by simp, rfl, rfl, rfl, rfl⟩) ⟨⟨by decide, by decide, rfl, by simp⟩, _, rfl⟩

/-- A transfer event for slot 1 and an endpoint ID. -/
def transferTo (epId : BitVec 32) : Op := .event ⟨0x1000, 0, 0x1000000, 0x1008000 ||| (epId <<< 16)⟩ quiet

/-- An event for the control endpoint is handled. -/
theorem events_safe_iff_control :
    Guarded ⟨⟨false, false⟩, false⟩ oneDevice (transferTo 1) ∧
      ∃ s', oneDevice.run ⟨⟨false, false⟩, false⟩ (transferTo 1) = .ok s' := by
  have guarded : Guarded ⟨⟨false, false⟩, false⟩ oneDevice (transferTo 1) := by
    refine ⟨fun completes => ?_, fun _ => ⟨by decide +kernel, fun _ => by decide +kernel, fun _ => rfl⟩, fun _ => by decide +kernel⟩
    exact absurd completes (by decide +kernel)
  exact ⟨guarded, (events_safe_iff oneDevice_reachable (show (transferTo 1).Allowed oneDevice from trivial)).mpr guarded⟩

/-- An event with the endpoint ID 0 leads to `eps[-1]`. -/
theorem not_events_safe : ¬∀ c s, Reachable c s → ∀ event f, ∃ s', s.run c (.event event f) = .ok s' := by
  intro safe
  obtain ⟨s', runs⟩ := safe _ oneDevice oneDevice_reachable ⟨0x1000, 0, 0x1000000, 0x1008000⟩ quiet
  have fault : (oneDevice.run ⟨⟨false, false⟩, false⟩ (.event ⟨0x1000, 0, 0x1000000, 0x1008000⟩ quiet)).isOk = false := by
    decide +kernel
  rw [runs] at fault
  simp [Except.isOk, Except.toBool] at fault

end Ehub.EventSafety
