import Mathlib
import Ehub.CommandRing
import Ehub.Fields

/-!
What commands say. Each command is four words that are put together by a function of its own
(`ehub_xhci_queue_slot_control` and its siblings), read by the controller (`readCommand`), and
read once more by the driver when the event for it arrives, to find the handler and the
endpoint (`handler`). Both readers find what was asked for (`readCommand_trb`, `handler_trb`).
-/
namespace Ehub.Commands
open Ehub.Fields Ehub.CommandRing

/-- What is asked of the controller. -/
inductive Cmd
  | enableSlot
  | disableSlot (slotId : BitVec 32)
  | addressDevice (inCtxPtr : BitVec 64) (slotId : BitVec 32) (contextOnly : Bool)
  | configureEndpoint (inCtxPtr : BitVec 64) (slotId : BitVec 32)
  | evaluateContext (inCtxPtr : BitVec 64) (slotId : BitVec 32)
  | resetEp (slotId epIndex : BitVec 32)
  | stopEndpoint (slotId epIndex : BitVec 32) (suspend : Bool)
  | newDequeueState (slotId epIndex streamId : BitVec 32) (addr : BitVec 64) (cycleState : Bool)
  | resetDevice (slotId : BitVec 32)
  | necGetFw
  deriving DecidableEq

/-! ### The TRBs of the commands -/

def trbEnableSlot : BitVec 32 := 9
def trbDisableSlot : BitVec 32 := 10
def trbAddrDev : BitVec 32 := 11
def trbConfigEp : BitVec 32 := 12
def trbEvalContext : BitVec 32 := 13
def trbResetEp : BitVec 32 := 14
def trbStopRing : BitVec 32 := 15
def trbSetDeq : BitVec 32 := 16
def trbResetDev : BitVec 32 := 17
def trbNecGetFw : BitVec 32 := 49
def trbBsr : BitVec 32 := 1 <<< 9
def sctPriTr : BitVec 32 := 1

def slotIdForTrb (p : BitVec 32) : BitVec 32 := (p &&& 0xff) <<< 24
def epIdForTrb (p : BitVec 32) : BitVec 32 := ((p + 1) &&& 0x1f) <<< 16
def suspendPortForTrb (p : BitVec 32) : BitVec 32 := (p &&& 1) <<< 23
def streamIdForTrb (p : BitVec 32) : BitVec 32 := (p &&& 0xffff) <<< 16
def sctForTrb (p : BitVec 32) : BitVec 32 := (p <<< 1) &&& 0x7

/-- `ehub_xhci_queue_slot_control`. -/
def queueSlotControl (trbType slotId : BitVec 32) : Trb := ⟨0, 0, 0, Trb.trbType trbType ||| slotIdForTrb slotId⟩

/-- A command with an input context. -/
def queueInCtx (trbType : BitVec 32) (inCtxPtr : BitVec 64) (slotId more : BitVec 32) : Trb :=
  ⟨inCtxPtr.extractLsb' 0 32, inCtxPtr.extractLsb' 32 32, 0, Trb.trbType trbType ||| slotIdForTrb slotId ||| more⟩

/-- `ehub_xhci_queue_address_device`. -/
def queueAddressDevice (inCtxPtr : BitVec 64) (slotId : BitVec 32) (contextOnly : Bool) : Trb :=
  queueInCtx trbAddrDev inCtxPtr slotId (if contextOnly then trbBsr else 0)

/-- `ehub_xhci_queue_configure_endpoint`. -/
def queueConfigureEndpoint (inCtxPtr : BitVec 64) (slotId : BitVec 32) : Trb := queueInCtx trbConfigEp inCtxPtr slotId 0

/-- `ehub_xhci_queue_evaluate_context`. -/
def queueEvaluateContext (inCtxPtr : BitVec 64) (slotId : BitVec 32) : Trb := queueInCtx trbEvalContext inCtxPtr slotId 0

/-- `ehub_xhci_queue_reset_device`. -/
def queueResetDevice (slotId : BitVec 32) : Trb := ⟨0, 0, 0, Trb.trbType trbResetDev ||| slotIdForTrb slotId⟩

/-- `ehub_xhci_queue_stop_endpoint`. -/
def queueStopEndpoint (slotId epIndex suspend : BitVec 32) : Trb :=
  ⟨0, 0, 0, slotIdForTrb slotId ||| epIdForTrb epIndex ||| Trb.trbType trbStopRing ||| suspendPortForTrb suspend⟩

/-- The TRB of `ehub_xhci_queue_new_dequeue_state`. -/
def queueNewDequeueState (slotId epIndex streamId : BitVec 32) (addr : BitVec 64) (cycleState : Bool) : Trb :=
  ⟨addr.extractLsb' 0 32 ||| (if streamId ≠ 0 then sctForTrb sctPriTr else 0) ||| (if cycleState then 1 else 0),
    addr.extractLsb' 32 32, streamIdForTrb streamId, slotIdForTrb slotId ||| epIdForTrb epIndex ||| Trb.trbType trbSetDeq⟩

/-- `ehub_xhci_queue_reset_ep`. -/
def queueResetEp (slotId epIndex : BitVec 32) : Trb :=
  ⟨0, 0, 0, slotIdForTrb slotId ||| epIdForTrb epIndex ||| Trb.trbType trbResetEp⟩

/-- `ehub_xhci_queue_vendor_command`, for the only command it is used for. -/
def queueVendorCommand : Trb := ⟨0, 0, 0, Trb.trbType trbNecGetFw⟩

def Cmd.trb : Cmd → Trb
  | .enableSlot => queueSlotControl trbEnableSlot 0
  | .disableSlot slotId => queueSlotControl trbDisableSlot slotId
  | .addressDevice inCtxPtr slotId contextOnly => queueAddressDevice inCtxPtr slotId contextOnly
  | .configureEndpoint inCtxPtr slotId => queueConfigureEndpoint inCtxPtr slotId
  | .evaluateContext inCtxPtr slotId => queueEvaluateContext inCtxPtr slotId
  | .resetEp slotId epIndex => queueResetEp slotId epIndex
  | .stopEndpoint slotId epIndex suspend => queueStopEndpoint slotId epIndex (if suspend then 1 else 0)
  | .newDequeueState slotId epIndex streamId addr cycleState => queueNewDequeueState slotId epIndex streamId addr cycleState
  | .resetDevice slotId => queueResetDevice slotId
  | .necGetFw => queueVendorCommand

/-! ### The handlers of the commands -/

def trbFieldToType (p : BitVec 32) : BitVec 32 := (p &&& Trb.trbTypeBitmask) >>> 10
def trbToSlotId (p : BitVec 32) : BitVec 32 := (p &&& (0xff <<< 24)) >>> 24
def trbToEpIndex (p : BitVec 32) : BitVec 32 := ((p &&& (0x1f <<< 16)) >>> 16) - 1
def trbToSuspendPort (p : BitVec 32) : BitVec 32 := (p &&& (1 <<< 23)) >>> 23
def trbToStreamId (p : BitVec 32) : BitVec 32 := (p &&& (0xffff <<< 16)) >>> 16

/-- A handler with what it is called for, and what it reads from the TRB of the command. -/
inductive Handler
  | enableSlot (slotId : BitVec 32)
  | disableSlot (slotId : BitVec 32)
  | configEp (slotId : BitVec 32)
  | none
  | stopEpSuspended (slotId : BitVec 32)
  | stopEp (slotId epIndex : BitVec 32)
  | setDeq (slotId epIndex streamId : BitVec 32)
  | cmdNoop
  | resetEp (slotId epIndex : BitVec 32)
  | resetDev (slotId : BitVec 32)
  | necGetFw
  | unknown
  deriving DecidableEq

/-- The `switch` of `handle_cmd_completion`, for the TRB of the command, whether somebody waits
    for it, and the flags of the event. -/
def handler (cmdTrb : Trb) (completion : Bool) (flags : BitVec 32) : Handler :=
  let cmdType := trbFieldToType cmdTrb.field3
  let slotId := trbToSlotId flags
  if cmdType = trbEnableSlot then .enableSlot slotId
  else if cmdType = trbDisableSlot then .disableSlot slotId
  else if cmdType = trbConfigEp then if completion then .none else .configEp slotId
  else if cmdType = trbEvalContext then .none
  else if cmdType = trbAddrDev then .none
  else if cmdType = trbStopRing then
    -- `xhci_handle_cmd_stop_ep` has nothing to do for a port that is suspended.
    if trbToSuspendPort cmdTrb.field3 ≠ 0 then .stopEpSuspended slotId else .stopEp slotId (trbToEpIndex cmdTrb.field3)
  else if cmdType = trbSetDeq then .setDeq slotId (trbToEpIndex cmdTrb.field3) (trbToStreamId cmdTrb.field2)
  else if cmdType = trbCmdNoop then .cmdNoop
  else if cmdType = trbResetEp then .resetEp slotId (trbToEpIndex cmdTrb.field3)
  else if cmdType = trbResetDev then .resetDev (trbToSlotId cmdTrb.field3)
  else if cmdType = trbNecGetFw then .necGetFw
  else .unknown

/-- The handler that a command is meant for. A slot that has just been enabled is named by
    the event. -/
def Cmd.handler (completion : Bool) (enabled : BitVec 32) : Cmd → Handler
  | .enableSlot => .enableSlot enabled
  | .disableSlot slotId => .disableSlot slotId
  | .addressDevice _ _ _ => .none
  | .configureEndpoint _ slotId => if completion then .none else .configEp slotId
  | .evaluateContext _ _ => .none
  | .resetEp slotId epIndex => .resetEp slotId epIndex
  | .stopEndpoint slotId epIndex suspend => if suspend then .stopEpSuspended slotId else .stopEp slotId epIndex
  | .newDequeueState slotId epIndex streamId _ _ => .setDeq slotId epIndex streamId
  | .resetDevice slotId => .resetDev slotId
  | .necGetFw => .necGetFw

/-- The slot in the event for a command: its own, but 0 for a Reset Device command. -/
def Cmd.slotId : Cmd → Option (BitVec 32)
  | .enableSlot => none
  | .disableSlot slotId => some slotId
  | .addressDevice _ slotId _ => some slotId
  | .configureEndpoint _ slotId => some slotId
  | .evaluateContext _ slotId => some slotId
  | .resetEp slotId _ => some slotId
  | .stopEndpoint slotId _ _ => some slotId
  | .newDequeueState slotId _ _ _ _ => some slotId
  | .resetDevice _ => some 0
  | .necGetFw => none

/-! ### What the controller makes of the TRBs -/

def readPointer (t : Trb) : BitVec 64 := t.segmentPtr &&& ~~~0xf#64

/-- The slot and the endpoint of a command; endpoints are counted from 1. -/
def readEndpoint (t : Trb) : Option (BitVec 32 × BitVec 32) :=
  if Fields.get 16 5 t.field3 = 0 then none else some (Fields.get 24 8 t.field3, Fields.get 16 5 t.field3 - 1)

/-- A TRB of the command ring as a command. -/
def readCommand (t : Trb) : Option Cmd :=
  let type := Fields.get 10 6 t.field3
  let slotId := Fields.get 24 8 t.field3
  if type = 9 then some .enableSlot
  else if type = 10 then some (.disableSlot slotId)
  else if type = 11 then some (.addressDevice (readPointer t) slotId (Fields.get 9 1 t.field3 ≠ 0))
  else if type = 12 then some (.configureEndpoint (readPointer t) slotId)
  else if type = 13 then some (.evaluateContext (readPointer t) slotId)
  else if type = 14 then (readEndpoint t).map fun (slotId, epIndex) => .resetEp slotId epIndex
  else if type = 15 then
    (readEndpoint t).map fun (slotId, epIndex) => .stopEndpoint slotId epIndex (Fields.get 23 1 t.field3 ≠ 0)
  else if type = 16 then
    -- A stream is named together with the kind of its ring.
    if Fields.get 1 3 t.field0 = (if Fields.get 16 16 t.field2 = 0 then 0 else 1) then
      (readEndpoint t).map fun (slotId, epIndex) =>
        .newDequeueState slotId epIndex (Fields.get 16 16 t.field2) (readPointer t) (Fields.get 0 1 t.field0 ≠ 0)
    else none
  else if type = 17 then some (.resetDevice slotId)
  else if type = 49 then some .necGetFw
  else none

/-- What callers pass: slots of 8 bits, one of 31 endpoints, streams of 16 bits, and contexts
    and TRBs that are aligned. -/
def Cmd.Valid : Cmd → Prop
  | .enableSlot => True
  | .disableSlot slotId => slotId.toNat < 2 ^ 8
  | .addressDevice inCtxPtr slotId _ => slotId.toNat < 2 ^ 8 ∧ inCtxPtr &&& 0xf#64 = 0
  | .configureEndpoint inCtxPtr slotId => slotId.toNat < 2 ^ 8 ∧ inCtxPtr &&& 0xf#64 = 0
  | .evaluateContext inCtxPtr slotId => slotId.toNat < 2 ^ 8 ∧ inCtxPtr &&& 0xf#64 = 0
  | .resetEp slotId epIndex => slotId.toNat < 2 ^ 8 ∧ epIndex.toNat < 31
  | .stopEndpoint slotId epIndex _ => slotId.toNat < 2 ^ 8 ∧ epIndex.toNat < 31
  | .newDequeueState slotId epIndex streamId addr _ =>
    slotId.toNat < 2 ^ 8 ∧ epIndex.toNat < 31 ∧ streamId.toNat < 2 ^ 16 ∧ addr &&& 0xf#64 = 0
  | .resetDevice slotId => slotId.toNat < 2 ^ 8
  | .necGetFw => True

instance decidableValid : (cmd : Cmd) → Decidable cmd.Valid
  | .enableSlot => .isTrue trivial
  | .disableSlot _ => inferInstanceAs (Decidable (_ < _))
  | .addressDevice _ _ _ => inferInstanceAs (Decidable (_ ∧ _))
  | .configureEndpoint _ _ => inferInstanceAs (Decidable (_ ∧ _))
  | .evaluateContext _ _ => inferInstanceAs (Decidable (_ ∧ _))
  | .resetEp _ _ => inferInstanceAs (Decidable (_ ∧ _))
  | .stopEndpoint _ _ _ => inferInstanceAs (Decidable (_ ∧ _))
  | .newDequeueState _ _ _ _ _ => inferInstanceAs (Decidable (_ ∧ _))
  | .resetDevice _ => inferInstanceAs (Decidable (_ < _))
  | .necGetFw => .isTrue trivial

/-! ### The words of a command -/

theorem slotIdForTrb_eq (p : BitVec 32) : slotIdForTrb p = put 24 8 p := rfl
theorem epIdForTrb_eq (p : BitVec 32) : epIdForTrb p = put 16 5 (p + 1) := rfl
theorem suspendPortForTrb_eq (p : BitVec 32) : suspendPortForTrb p = put 23 1 p := rfl
theorem streamIdForTrb_eq (p : BitVec 32) : streamIdForTrb p = put 16 16 p := rfl
theorem trbBsr_eq (contextOnly : Bool) : (if contextOnly then trbBsr else 0) = put 9 1 (if contextOnly then 1 else 0) := by
  cases contextOnly <;> rfl

theorem trbFieldToType_eq (p : BitVec 32) : trbFieldToType p = Fields.get 10 6 p := shiftRight_and 10 6 p
theorem trbToSlotId_eq (p : BitVec 32) : trbToSlotId p = Fields.get 24 8 p := shiftRight_and 24 8 p
theorem trbToEpIndex_eq (p : BitVec 32) : trbToEpIndex p = Fields.get 16 5 p - 1 :=
  congrArg (· - 1) (shiftRight_and 16 5 p)
theorem trbToSuspendPort_eq (p : BitVec 32) : trbToSuspendPort p = Fields.get 23 1 p := shiftRight_and 23 1 p
theorem trbToStreamId_eq (p : BitVec 32) : trbToStreamId p = Fields.get 16 16 p := shiftRight_and 16 16 p

/-- The control word of a command: its type, its slot, its endpoint, and two flags. -/
def control (type slotId epId suspend bsr : BitVec 32) : BitVec 32 :=
  put 10 6 type ||| put 24 8 slotId ||| put 16 5 epId ||| put 23 1 suspend ||| put 9 1 bsr

section
variable (type slotId epId suspend bsr : BitVec 32)

theorem get_type : Fields.get 10 6 (control type slotId epId suspend bsr) = type &&& ones 32 6 := by
  simp (disch := decide) [control, get_put, get_put_of_disjoint]

theorem get_slotId : Fields.get 24 8 (control type slotId epId suspend bsr) = slotId &&& ones 32 8 := by
  simp (disch := decide) [control, get_put, get_put_of_disjoint]

theorem get_epId : Fields.get 16 5 (control type slotId epId suspend bsr) = epId &&& ones 32 5 := by
  simp (disch := decide) [control, get_put, get_put_of_disjoint]

theorem get_suspend : Fields.get 23 1 (control type slotId epId suspend bsr) = suspend &&& ones 32 1 := by
  simp (disch := decide) [control, get_put, get_put_of_disjoint]

theorem get_bsr : Fields.get 9 1 (control type slotId epId suspend bsr) = bsr &&& ones 32 1 := by
  simp (disch := decide) [control, get_put, get_put_of_disjoint]

theorem get_cycle : Fields.get 0 1 (control type slotId epId suspend bsr) = 0 := by
  simp (disch := decide) [control, get_put_of_disjoint]

end

section
variable (type slotId epId suspend bsr : BitVec 32)

theorem put_zero (low width : ℕ) : put low width 0#32 = 0#32 := by simp [put]

theorem control_slot : control type slotId 0#32 0#32 0#32 = put 10 6 type ||| put 24 8 slotId := by
  rw [control, put_zero, put_zero, put_zero, BitVec.or_zero, BitVec.or_zero, BitVec.or_zero]

theorem control_bsr : control type slotId 0#32 0#32 bsr = put 10 6 type ||| put 24 8 slotId ||| put 9 1 bsr := by
  rw [control, put_zero, put_zero, BitVec.or_zero, BitVec.or_zero]

theorem control_endpoint : control type slotId epId 0#32 0#32 = put 24 8 slotId ||| put 16 5 epId ||| put 10 6 type := by
  rw [control, put_zero, put_zero, BitVec.or_zero, BitVec.or_zero, BitVec.or_assoc, BitVec.or_comm]

theorem control_suspend :
    control type slotId epId suspend 0#32 = put 24 8 slotId ||| put 16 5 epId ||| put 10 6 type ||| put 23 1 suspend := by
  rw [control, put_zero, BitVec.or_zero, BitVec.or_assoc (put 10 6 type), BitVec.or_comm (put 10 6 type)]

end

/-- The control word of each command. -/
def Cmd.control : Cmd → BitVec 32
  | .enableSlot => Commands.control 9 0 0 0 0
  | .disableSlot slotId => Commands.control 10 slotId 0 0 0
  | .addressDevice _ slotId contextOnly => Commands.control 11 slotId 0 0 (if contextOnly then 1 else 0)
  | .configureEndpoint _ slotId => Commands.control 12 slotId 0 0 0
  | .evaluateContext _ slotId => Commands.control 13 slotId 0 0 0
  | .resetEp slotId epIndex => Commands.control 14 slotId (epIndex + 1) 0 0
  | .stopEndpoint slotId epIndex suspend => Commands.control 15 slotId (epIndex + 1) (if suspend then 1 else 0) 0
  | .newDequeueState slotId epIndex _ _ _ => Commands.control 16 slotId (epIndex + 1) 0 0
  | .resetDevice slotId => Commands.control 17 slotId 0 0 0
  | .necGetFw => Commands.control 49 0 0 0 0

theorem field3_trb (cmd : Cmd) : cmd.trb.field3 = cmd.control := by
  have type : ∀ p : BitVec 32, p.toNat < 2 ^ 6 → Trb.trbType p = put 10 6 p := by
    intro p small
    rw [put, and_ones (by decide) small]
    rfl
  cases cmd with
  | enableSlot => decide
  | disableSlot slotId =>
    rw [Cmd.trb, queueSlotControl, type _ (by decide), slotIdForTrb_eq]
    exact (control_slot _ slotId).symm
  | addressDevice inCtxPtr slotId contextOnly =>
    rw [Cmd.trb, queueAddressDevice, queueInCtx, type _ (by decide), slotIdForTrb_eq, trbBsr_eq]
    exact (control_bsr _ slotId _).symm
  | configureEndpoint inCtxPtr slotId =>
    rw [Cmd.trb, queueConfigureEndpoint, queueInCtx, type _ (by decide), slotIdForTrb_eq]
    exact BitVec.or_zero.trans (control_slot _ slotId).symm
  | evaluateContext inCtxPtr slotId =>
    rw [Cmd.trb, queueEvaluateContext, queueInCtx, type _ (by decide), slotIdForTrb_eq]
    exact BitVec.or_zero.trans (control_slot _ slotId).symm
  | resetEp slotId epIndex =>
    rw [Cmd.trb, queueResetEp, type _ (by decide), slotIdForTrb_eq, epIdForTrb_eq]
    exact (control_endpoint _ slotId _).symm
  | stopEndpoint slotId epIndex suspend =>
    rw [Cmd.trb, queueStopEndpoint, type _ (by decide), slotIdForTrb_eq, epIdForTrb_eq, suspendPortForTrb_eq]
    exact (control_suspend _ slotId _ _).symm
  | newDequeueState slotId epIndex streamId addr cycleState =>
    rw [Cmd.trb, queueNewDequeueState, type _ (by decide), slotIdForTrb_eq, epIdForTrb_eq]
    exact (control_endpoint _ slotId _).symm
  | resetDevice slotId =>
    rw [Cmd.trb, queueResetDevice, type _ (by decide), slotIdForTrb_eq]
    exact (control_slot _ slotId).symm
  | necGetFw => decide

/-- The low bits of an aligned pointer are free. -/
theorem getLsbD_aligned {ptr : BitVec 64} (aligned : ptr &&& 0xf#64 = 0#64) {i : ℕ} (below : i < 4) : ptr.getLsbD i = false := by
  have zero : (ptr &&& 0xf#64).getLsbD i = false := by rw [aligned, BitVec.getLsbD_zero]
  have mask : (0xf#64).getLsbD i = true := by
    rw [show (0xf#64) = ones 64 4 from rfl, getLsbD_ones]
    simp [below, show i < 64 by omega]
  rw [BitVec.getLsbD_and, mask, Bool.and_true] at zero
  exact zero

theorem get_aligned {ptr : BitVec 64} (aligned : ptr &&& 0xf#64 = 0) {low width : ℕ} (below : low + width ≤ 4) :
    Fields.get low width (ptr.extractLsb' 0 32) = 0#32 := by
  apply BitVec.eq_of_getLsbD_eq
  intro i _
  rw [getLsbD_get, BitVec.getLsbD_extractLsb', BitVec.getLsbD_zero]
  by_cases within : i < width
  · rw [getLsbD_aligned aligned (show 0 + (low + i) < 4 by omega), Bool.and_false, Bool.false_and]
  · simp [within]

/-- A pointer is found again, whatever flags stand in its low bits. -/
theorem readPointer_eq {t : Trb} {ptr : BitVec 64} (flags : BitVec 32) (aligned : ptr &&& 0xf#64 = 0)
    (small : flags &&& 0xf#32 = flags) (low : t.field0 = ptr.extractLsb' 0 32 ||| flags) (high : t.field1 = ptr.extractLsb' 32 32) :
    readPointer t = ptr := by
  have beyond : ∀ i, 4 ≤ i → flags.getLsbD i = false := by
    intro i above
    have zero : (0xf#32).getLsbD i = false := by
      rw [show (0xf#32) = ones 32 4 from rfl, getLsbD_ones]
      simp [Nat.not_lt.mpr above]
    rw [← small, BitVec.getLsbD_and, zero, Bool.and_false]
  apply BitVec.eq_of_getLsbD_eq
  intro i inside
  have mask : (~~~0xf#64).getLsbD i = !decide (i < 4) := by
    rw [BitVec.getLsbD_not, show (0xf#64) = ones 64 4 from rfl, getLsbD_ones]
    simp [inside]
  rw [readPointer, Trb.segmentPtr, low, high, BitVec.getLsbD_and, BitVec.getLsbD_append, mask]
  by_cases below : i < 4
  · simp [getLsbD_aligned aligned below, below]
  · by_cases first : i < 32
    · have zero : flags[i] = false := (BitVec.getLsbD_eq_getElem first).symm.trans (beyond i (by omega))
      simp [first, below, zero]
    · simp [first, below, show i - 32 < 32 by omega, show 32 + (i - 32) = i by omega]

theorem readPointer_inCtx {inCtxPtr : BitVec 64} (aligned : inCtxPtr &&& 0xf#64 = 0) (trbType slotId more : BitVec 32) :
    readPointer (queueInCtx trbType inCtxPtr slotId more) = inCtxPtr :=
  readPointer_eq 0#32 aligned rfl BitVec.or_zero.symm rfl

/-- The cycle state and the kind of the stream's ring stand in the low bits of the pointer. -/
theorem read_dequeue (slotId epIndex : BitVec 32) {streamId : BitVec 32} {addr : BitVec 64} (stream : streamId.toNat < 2 ^ 16)
    (aligned : addr &&& 0xf#64 = 0) (cycleState : Bool) :
    readPointer (queueNewDequeueState slotId epIndex streamId addr cycleState) = addr ∧
    Fields.get 16 16 (queueNewDequeueState slotId epIndex streamId addr cycleState).field2 = streamId ∧
    Fields.get 1 3 (queueNewDequeueState slotId epIndex streamId addr cycleState).field0 = (if streamId = 0 then 0 else 1) ∧
    Fields.get 0 1 (queueNewDequeueState slotId epIndex streamId addr cycleState).field0 = (if cycleState then 1 else 0) := by
  have isStream : Fields.get 16 16 (queueNewDequeueState slotId epIndex streamId addr cycleState).field2 = streamId := by
    show Fields.get 16 16 (put 16 16 streamId) = streamId
    rw [get_put (by decide), and_ones (by decide) stream]
  have word : (queueNewDequeueState slotId epIndex streamId addr cycleState).field0 = addr.extractLsb' 0 32 |||
      ((if streamId ≠ 0 then sctForTrb sctPriTr else 0) ||| (if cycleState then 1 else 0)) := BitVec.or_assoc ..
  refine ⟨?_, isStream, ?_, ?_⟩
  · refine readPointer_eq _ aligned ?_ word rfl
    by_cases none : streamId = 0
    · rw [if_neg (not_not.mpr none)]
      cases cycleState <;> rfl
    · rw [if_pos none]
      cases cycleState <;> rfl
  · rw [word, get_or, get_aligned aligned (by decide)]
    by_cases none : streamId = 0
    · rw [if_neg (not_not.mpr none), if_pos none]
      cases cycleState <;> rfl
    · rw [if_pos none, if_neg none]
      cases cycleState <;> rfl
  · rw [word, get_or, get_aligned aligned (by decide)]
    by_cases none : streamId = 0
    · rw [if_neg (not_not.mpr none)]
      cases cycleState <;> rfl
    · rw [if_pos none]
      cases cycleState <;> rfl

section
variable {type slotId epIndex suspend bsr : BitVec 32}

theorem epIndex_succ (endpoint : epIndex.toNat < 31) : (epIndex + 1).toNat = epIndex.toNat + 1 := by
  rw [BitVec.toNat_add, Nat.mod_eq_of_lt]
  · rfl
  · show epIndex.toNat + 1 < 2 ^ 32
    omega

/-- Endpoints are counted from 1 in a command. -/
theorem epId_eq (endpoint : epIndex.toNat < 31) : (epIndex + 1) &&& ones 32 5 = epIndex + 1 := by
  have next := epIndex_succ endpoint
  exact and_ones (by decide) (by omega)

theorem readEndpoint_eq {t : Trb} (word : t.field3 = control type slotId (epIndex + 1) suspend bsr)
    (slot : slotId.toNat < 2 ^ 8) (endpoint : epIndex.toNat < 31) : readEndpoint t = some (slotId, epIndex) := by
  have nonzero : epIndex + 1 ≠ 0 := by
    intro zero
    have next := epIndex_succ endpoint
    rw [zero] at next
    simp at next
  rw [readEndpoint, word, get_epId, get_slotId, epId_eq endpoint, and_ones (by decide) slot, if_neg nonzero,
    BitVec.add_sub_cancel]

theorem trbToEpIndex_control (endpoint : epIndex.toNat < 31) :
    trbToEpIndex (control type slotId (epIndex + 1) suspend bsr) = epIndex := by
  rw [trbToEpIndex_eq, get_epId, epId_eq endpoint, BitVec.add_sub_cancel]

end

/-- The controller reads every command as it was asked for. -/
theorem readCommand_trb {cmd : Cmd} (valid : cmd.Valid) : readCommand cmd.trb = some cmd := by
  have word := field3_trb cmd
  cases cmd with
  | enableSlot => decide
  | disableSlot slotId =>
    rw [Cmd.control] at word
    rw [readCommand, word, get_type, get_slotId, and_ones (by decide) valid]
    rfl
  | addressDevice inCtxPtr slotId contextOnly =>
    obtain ⟨slot, aligned⟩ := valid
    rw [Cmd.control] at word
    have pointer : readPointer (Cmd.addressDevice inCtxPtr slotId contextOnly).trb = inCtxPtr := readPointer_inCtx aligned ..
    rw [readCommand, word, get_type, get_slotId, get_bsr, and_ones (by decide) slot, pointer]
    cases contextOnly <;> rfl
  | configureEndpoint inCtxPtr slotId =>
    obtain ⟨slot, aligned⟩ := valid
    rw [Cmd.control] at word
    have pointer : readPointer (Cmd.configureEndpoint inCtxPtr slotId).trb = inCtxPtr := readPointer_inCtx aligned ..
    rw [readCommand, word, get_type, get_slotId, and_ones (by decide) slot, pointer]
    rfl
  | evaluateContext inCtxPtr slotId =>
    obtain ⟨slot, aligned⟩ := valid
    rw [Cmd.control] at word
    have pointer : readPointer (Cmd.evaluateContext inCtxPtr slotId).trb = inCtxPtr := readPointer_inCtx aligned ..
    rw [readCommand, word, get_type, get_slotId, and_ones (by decide) slot, pointer]
    rfl
  | resetEp slotId epIndex =>
    rw [Cmd.control] at word
    rw [readCommand, readEndpoint_eq word valid.1 valid.2, word, get_type]
    rfl
  | stopEndpoint slotId epIndex suspend =>
    rw [Cmd.control] at word
    rw [readCommand, readEndpoint_eq word valid.1 valid.2, word, get_type, get_suspend]
    cases suspend <;> rfl
  | newDequeueState slotId epIndex streamId addr cycleState =>
    obtain ⟨slot, endpoint, stream, aligned⟩ := valid
    rw [Cmd.control] at word
    obtain ⟨pointer, isStream, kind, cycle⟩ := read_dequeue slotId epIndex stream aligned cycleState
    rw [← Cmd.trb] at pointer isStream kind cycle
    rw [readCommand, readEndpoint_eq word slot endpoint, word, get_type, isStream, kind, pointer, cycle]
    by_cases none : streamId = 0
    · rw [if_pos none]
      cases cycleState <;> rfl
    · rw [if_neg none]
      cases cycleState <;> rfl
  | resetDevice slotId =>
    rw [Cmd.control] at word
    rw [readCommand, word, get_type, get_slotId, and_ones (by decide) valid]
    rfl
  | necGetFw => decide

/-- The type of a command. -/
theorem get_type_trb (cmd : Cmd) : Fields.get 10 6 cmd.trb.field3 ∉ ([6, 23] : List (BitVec 32)) ∧
    Fields.get 0 1 cmd.trb.field3 = 0 := by
  rw [field3_trb]
  cases cmd with
  | enableSlot => decide
  | disableSlot slotId => exact ⟨by rw [Cmd.control, get_type]; decide, get_cycle ..⟩
  | addressDevice inCtxPtr slotId contextOnly => exact ⟨by rw [Cmd.control, get_type]; decide, get_cycle ..⟩
  | configureEndpoint inCtxPtr slotId => exact ⟨by rw [Cmd.control, get_type]; decide, get_cycle ..⟩
  | evaluateContext inCtxPtr slotId => exact ⟨by rw [Cmd.control, get_type]; decide, get_cycle ..⟩
  | resetEp slotId epIndex => exact ⟨by rw [Cmd.control, get_type]; decide, get_cycle ..⟩
  | stopEndpoint slotId epIndex suspend => exact ⟨by rw [Cmd.control, get_type]; decide, get_cycle ..⟩
  | newDequeueState slotId epIndex streamId addr cycleState => exact ⟨by rw [Cmd.control, get_type]; decide, get_cycle ..⟩
  | resetDevice slotId => exact ⟨by rw [Cmd.control, get_type]; decide, get_cycle ..⟩
  | necGetFw => decide

/-- The TRB of a command is neither a link nor a no-op. -/
theorem plain_trb (cmd : Cmd) : cmd.trb.isLink = false ∧ isCmdNoop cmd.trb = false := by
  have others : ∀ type : BitVec 32, cmd.trb.field3 &&& Trb.trbTypeBitmask = Trb.trbType type →
      Fields.get 10 6 cmd.trb.field3 = Trb.trbType type >>> 10 := by
    intro type same
    rw [← shiftRight_and]
    exact congrArg (fun word : BitVec 32 => word >>> 10) same
  have type := (get_type_trb cmd).1
  constructor
  · refine Bool.eq_false_of_not_eq_true fun link => type ?_
    rw [others _ (beq_iff_eq.mp link)]
    decide
  · refine Bool.eq_false_of_not_eq_true fun noop => type ?_
    rw [others _ (beq_iff_eq.mp noop)]
    decide

/-- The cycle bit of a command is left to `queue_command`. -/
theorem setCycle_trb (cmd : Cmd) (c : Bool) :
    { cmd.trb with field3 := cmd.trb.field3 ||| (if c then Trb.trbCycle else 0) } = cmd.trb.setCycle c ∧
    cmd.trb.setCycle false = cmd.trb := by
  have clear : cmd.trb.field3 &&& ~~~Trb.trbCycle = cmd.trb.field3 := by
    have zero : cmd.trb.field3.getLsbD 0 = false := by
      have bit : (Fields.get 0 1 cmd.trb.field3).getLsbD 0 = false := by rw [(get_type_trb cmd).2]; rfl
      rw [getLsbD_get] at bit
      simpa using bit
    apply BitVec.eq_of_getLsbD_eq
    intro i inside
    rw [BitVec.getLsbD_and, BitVec.getLsbD_not, show Trb.trbCycle = ones 32 1 from rfl, getLsbD_ones]
    by_cases first : i = 0
    · subst first
      rw [zero, Bool.false_and]
    · simp [inside, first]
  refine ⟨?_, ?_⟩
  · cases c with
    | true => rfl
    | false =>
      show ({ cmd.trb with field3 := cmd.trb.field3 ||| 0#32 } : Trb) = { cmd.trb with field3 := cmd.trb.field3 &&& ~~~Trb.trbCycle }
      rw [clear, BitVec.or_zero]
  · show ({ cmd.trb with field3 := cmd.trb.field3 &&& ~~~Trb.trbCycle } : Trb) = cmd.trb
    rw [clear]

/-- The event for a command leads to the handler that the command is meant for, with its slot,
    its endpoint and its stream. -/
theorem handler_trb {cmd : Cmd} (valid : cmd.Valid) (completion : Bool) {flags : BitVec 32}
    (answered : ∀ slotId ∈ cmd.slotId, trbToSlotId flags = slotId) :
    handler cmd.trb completion flags = cmd.handler completion (trbToSlotId flags) := by
  have word := field3_trb cmd
  cases cmd with
  | enableSlot => rfl
  | disableSlot slotId =>
    rw [Cmd.control] at word
    rw [handler, trbFieldToType_eq, word, get_type, answered slotId rfl]
    rfl
  | addressDevice inCtxPtr slotId contextOnly =>
    rw [Cmd.control] at word
    rw [handler, trbFieldToType_eq, word, get_type]
    rfl
  | configureEndpoint inCtxPtr slotId =>
    rw [Cmd.control] at word
    rw [handler, trbFieldToType_eq, word, get_type, answered slotId rfl]
    rfl
  | evaluateContext inCtxPtr slotId =>
    rw [Cmd.control] at word
    rw [handler, trbFieldToType_eq, word, get_type]
    rfl
  | resetEp slotId epIndex =>
    rw [Cmd.control] at word
    rw [handler, trbFieldToType_eq, word, get_type, trbToEpIndex_control valid.2, answered slotId rfl]
    rfl
  | stopEndpoint slotId epIndex suspend =>
    rw [Cmd.control] at word
    rw [handler, trbFieldToType_eq, word, get_type, trbToEpIndex_control valid.2, trbToSuspendPort_eq, get_suspend,
      answered slotId rfl]
    cases suspend <;> rfl
  | newDequeueState slotId epIndex streamId addr cycleState =>
    obtain ⟨_, endpoint, stream, _⟩ := valid
    have isStream : trbToStreamId (Cmd.newDequeueState slotId epIndex streamId addr cycleState).trb.field2 = streamId := by
      rw [trbToStreamId_eq]
      show Fields.get 16 16 (put 16 16 streamId) = streamId
      rw [get_put (by decide), and_ones (by decide) stream]
    rw [Cmd.control] at word
    rw [handler, trbFieldToType_eq, word, get_type, trbToEpIndex_control endpoint, isStream, answered slotId rfl]
    rfl
  | resetDevice slotId =>
    rw [Cmd.control] at word
    rw [handler, trbFieldToType_eq, trbToSlotId_eq (Cmd.resetDevice slotId).trb.field3, word, get_type, get_slotId,
      and_ones (by decide) valid]
    rfl
  | necGetFw => rfl

end Ehub.Commands
