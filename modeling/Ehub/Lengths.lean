import Mathlib
import Ehub.Bulk
import Ehub.Transfer

/-!
What a transfer event makes of the lengths of a URB (`process_ctrl_td`,
`process_isoc_td`, `process_bulk_intr_td`, `skip_isoc_td`, `finish_td`). The controller
says how many bytes of a TRB it has not transferred; the driver works out from this how
many bytes the URB has got, and for an isochronous URB how many each frame has got.
Whether a TD is finished and what becomes of the lists, the rings and the commands is
modelled in `Transfer`; the functions here are those with the data of the URBs, and
leaving the data out gives those back (`toState_handleTxEvent`).

Lengths are words of 32 bits and are subtracted as such.
-/
namespace Ehub.Lengths
open Ehub.Lap Ehub.Ring Ehub.Segments Ehub.Cancel Ehub.Transfer Ehub.Bulk

/-- `struct usb_iso_packet_descriptor`. -/
structure Frame where
  length : BitVec 32
  actualLength : BitVec 32
  status : Int
deriving DecidableEq

structure Urb where
  transferBufferLength : BitVec 32
  actualLength : BitVec 32
  shortNotOk : Bool
  isoFrameDesc : List Frame
deriving DecidableEq

/-- A URB as `ehub_handle_tx_event` gives it back. `tdFrames` are its frames as they would be
    if every event were noted in the frame of the TD that it is for; no function reads them. -/
structure Report where
  urb : Nat
  status : Int
  given : Urb
  tdFrames : List Frame
deriving DecidableEq

/-- `urbLengthSet` is the flag of a control URB's TD. -/
structure State extends Transfer.State where
  urbs : Nat → Urb
  urbLengthSet : Nat → Bool
  tdFrames : Nat → List Frame
  reports : List Report

def eILSEQ : Int := 84
def eINPROGRESS : Int := 115
def eOVERFLOW : Int := 75
def eNOSR : Int := 63
def ePIPE : Int := 32
def ePROTO : Int := 71
def eREMOTEIO : Int := 121
def eXDEV : Int := 18
def eCOMM : Int := 70

/-- `EVENT_TRB_LEN`. -/
def eventTrbLen (event : Event) : BitVec 32 := BitVec.ofNat 32 event.trbLen &&& 0xffffff

/-- The status of a transfer that fell short. -/
def Urb.shortStatus (urb : Urb) : Int := if urb.shortNotOk then - eREMOTEIO else 0

/-- `TRB_LEN` of the TRB at `p`. -/
def lenAt (r : Ring) (p : TrbPtr) : BitVec 32 := trbLen (r.trb p).field2

/-- A TRB that is neither a no-op nor a link. -/
def isWork (r : Ring) (p : TrbPtr) : Bool := !(r.trb p).isNoop && !(r.trb p).isLink

/-- The loop that adds up the TRBs before the one of the event. -/
def lenLoop (r : Ring) (eventTrb : TrbPtr) : Nat → TrbPtr → BitVec 32 → BitVec 32
  | 0, _, len => len
  | fuel + 1, curTrb, len =>
    if curTrb = eventTrb then len
    else
      let len := if isWork r curTrb then len + lenAt r curTrb else len
      lenLoop r eventTrb fuel (r.nextTrb curTrb) len

/-- The bytes before the TRB of the event. -/
def lenBefore (r : Ring) (eventTrb : TrbPtr) : BitVec 32 := lenLoop r eventTrb (trbsPerSegment * r.numSegs) r.dequeue 0

/-- What processing a TD leaves: its URB, the status, `urb_length_set`, and whether the TD
    is finished. -/
structure Processed where
  urb : Urb
  status : Int
  lengthSet : Bool
  finish : Bool

/-- `process_ctrl_td`. -/
def processCtrlTd (r : Ring) (td : Td) (eventTrb : TrbPtr) (event : Event) (epState : Nat) (lengthSet : Bool) (urb : Urb)
    (status : Int) : Processed :=
  let untransferred := urb.transferBufferLength - eventTrbLen event
  if event.code = compStopInval ∨ event.code = compStop then ⟨urb, status, lengthSet, true⟩
  else if event.code = compStall ∨
      (event.code ≠ compSuccess ∧ event.code ≠ compShortTx ∧ requiresManualHaltCleanup epState event.code) then
    -- Part of the data stage may have been transferred.
    let actualLength := if eventTrb ≠ r.dequeue ∧ eventTrb ≠ td.lastTrb then untransferred else 0
    ⟨{ urb with actualLength }, status, lengthSet, true⟩
  else
    let status :=
      if event.code = compSuccess then
        if eventTrb = r.dequeue then -eSHUTDOWN else if eventTrb ≠ td.lastTrb then -eSHUTDOWN else 0
      else if event.code = compShortTx then urb.shortStatus
      else status
    if eventTrb = r.dequeue then ⟨urb, status, lengthSet, true⟩
    else if eventTrb = td.lastTrb then
      if lengthSet then
        let status := if (status = -eINPROGRESS ∨ status = 0) ∧ urb.shortNotOk then - eREMOTEIO else status
        ⟨urb, status, lengthSet, true⟩
      else ⟨{ urb with actualLength := urb.transferBufferLength }, status, lengthSet, true⟩
    else ⟨{ urb with actualLength := untransferred }, status, true, false⟩

def Urb.setFrameStatus (urb : Urb) (idx : Nat) (status : Int) : Urb :=
  { urb with isoFrameDesc := urb.isoFrameDesc.modify idx fun frame => { frame with status } }

/-- A frame's length is set and added to that of the URB. -/
def Urb.addFrame (urb : Urb) (idx : Nat) (len : BitVec 32) : Urb :=
  { urb with
    isoFrameDesc := urb.isoFrameDesc.modify idx fun frame => { frame with actualLength := len }
    actualLength := urb.actualLength + len }

/-- `iso_frame_desc[idx].length`. -/
def Urb.frameLength (urb : Urb) (idx : Nat) : BitVec 32 := (urb.isoFrameDesc[idx]?.map Frame.length).getD 0

def Urb.frameStatus (urb : Urb) (idx : Nat) : Int := (urb.isoFrameDesc[idx]?.map Frame.status).getD 0

/-- The status of a frame, by the completion code; a stopped TD keeps it. -/
def isocStatus (urb : Urb) (event : Event) (before : Int) : Int :=
  if event.code = compSuccess then if eventTrbLen event = 0 then 0 else urb.shortStatus
  else if event.code = compShortTx then urb.shortStatus
  else if event.code = compBwOver then -eCOMM
  else if event.code = compBuffOver ∨ event.code = compBabble then -eOVERFLOW
  else if event.code = compDevErr ∨ event.code = compStall ∨ event.code = compTxErr then -ePROTO
  else if event.code = compStop ∨ event.code = compStopInval then before
  else -1

/-- `skip_td` of `process_isoc_td`. -/
def skipTd (code : Nat) : Bool := code ∈ [compBwOver, compBuffOver, compBabble, compDevErr, compStall, compTxErr]

/-- The event is taken for the whole frame; a success that is short needs the quirk to be
    one. -/
def wholeFrame (event : Event) (trustTxLength : Bool) : Bool :=
  (event.code == compSuccess && !(eventTrbLen event ≠ 0 && trustTxLength)) || skipTd event.code

/-- `process_isoc_td`, and whether the TD is finished. -/
def processIsocTd (trustTxLength : Bool) (r : Ring) (td : Td) (eventTrb : TrbPtr) (event : Event) (idx : Nat) (urb : Urb) :
    Urb × Bool :=
  let urb := urb.setFrameStatus idx (isocStatus urb event (urb.frameStatus idx))
  if event.code = compTxErr ∧ eventTrb ≠ td.lastTrb then (urb, false)
  else if wholeFrame event trustTxLength then (urb.addFrame idx (urb.frameLength idx), true)
  else if event.code = compStopInval then (urb, true)
  else (urb.addFrame idx (lenBefore r eventTrb + (lenAt r eventTrb - eventTrbLen event)), true)

/-- `process_bulk_intr_td`. -/
def processBulkIntrTd (r : Ring) (td : Td) (eventTrb : TrbPtr) (event : Event) (urb : Urb) (status : Int) : Urb × Int :=
  let status :=
    if event.code = compSuccess then
      if eventTrb ≠ td.lastTrb ∨ eventTrbLen event ≠ 0 then urb.shortStatus else 0
    else if event.code = compShortTx then urb.shortStatus
    else status
  if eventTrb = td.lastTrb then
    if eventTrbLen event ≠ 0 then
      let actualLength := urb.transferBufferLength - eventTrbLen event
      if urb.transferBufferLength < actualLength then ({ urb with actualLength := 0 }, urb.shortStatus)
      else ({ urb with actualLength }, if status = -eINPROGRESS then urb.shortStatus else status)
    else ({ urb with actualLength := urb.transferBufferLength }, if status = - eREMOTEIO then 0 else status)
  else
    let actualLength := lenBefore r eventTrb
    let actualLength :=
      if event.code ≠ compStopInval then actualLength + (lenAt r eventTrb - eventTrbLen event) else actualLength
    ({ urb with actualLength }, status)

/-- The check of the length at the end of `finish_td`. -/
def checkLength (urb : Urb) (status : Int) : Urb × Int :=
  if urb.transferBufferLength < urb.actualLength then ({ urb with actualLength := 0 }, urb.shortStatus) else (urb, status)

/-- The status with which `ehub_handle_tx_event` begins to process a TD. -/
def codeStatus (code : Nat) : Int :=
  if code = compStall then -ePIPE
  else if code = compTrbErr then -eILSEQ
  else if code = compSplitErr ∨ code = compTxErr ∨ code = compDevErr then -ePROTO
  else if code = compBabble then -eOVERFLOW
  else if code = compDbErr then -eNOSR
  else if isVendorInfoCode code then 0
  else -eINPROGRESS

namespace State

def setEp (s : State) (e : EpId) (ep : Ep) : State := { s with toState := s.toState.setEp e ep }

def setUrb (s : State) (urb : Nat) (data : Urb) : State := { s with urbs := Function.update s.urbs urb data }

def noteFrames (s : State) (urb : Nat) (frames : List Frame) : State :=
  { s with tdFrames := Function.update s.tdFrames urb frames }

/-- `finish_td`. -/
def finishTd (s : State) (e : EpId) (td : Td) (skip : Bool) (event : Event) (env : TxEnv) (status : Int) : State × Bool × Int :=
  let (t, ret) := s.toState.finishTd e td skip event env
  if !skip ∧ (event.code = compStopInval ∨ event.code = compStop) then ({ s with toState := t }, ret, status)
  else
    let (urb, status) := checkLength (s.urbs td.urb) status
    ({ s with toState := t }.setUrb td.urb urb, ret, status)

/-- The label `cleanup`; the status of an isochronous URB is 0. -/
def cleanup (s : State) (e : EpId) (ret : Bool) (td : Td) (status : Int) : State × Int :=
  if ret then
    let status := if (s.ep e).pipe = .isoc then 0 else status
    ({ s with
      toState := s.toState.cleanup ret (some td)
      reports := s.reports ++ [⟨td.urb, status, s.urbs td.urb, s.tdFrames td.urb⟩] }, status)
  else (s, status)

/-- `iso_frame_desc` with a missed frame. -/
def missed (idx : Nat) (frames : List Frame) : List Frame :=
  frames.modify idx fun frame => { frame with status := -eXDEV, actualLength := 0 }

/-- `skip_isoc_td`. -/
def skipIsocTd (s : State) (e : EpId) (td : Td) (event : Event) (env : TxEnv) (status : Int) : State × Bool × Int :=
  let urb := s.urbs td.urb
  let s := s.setUrb td.urb { urb with isoFrameDesc := missed (s.urbPriv td.urb).tdCnt urb.isoFrameDesc }
  let s := s.noteFrames td.urb (missed td.index (s.tdFrames td.urb))
  (s.setEp e { s.ep e with ring := advance (s.ep e).ring td.lastTrb }).finishTd e td true event env status

/-- One of `process_ctrl_td`, `process_isoc_td` and `process_bulk_intr_td`, by the type of
    the endpoint. -/
def processTd (s : State) (e : EpId) (td : Td) (eventTrb : TrbPtr) (event : Event) (env : TxEnv) (status : Int) : Processed :=
  let urb := s.urbs td.urb
  let lengthSet := s.urbLengthSet td.urb
  match (s.ep e).pipe with
  | .control => processCtrlTd (s.ep e).ring td eventTrb event env.epState lengthSet urb status
  | .isoc =>
    let (urb, finish) := processIsocTd env.trustTxLength (s.ep e).ring td eventTrb event (s.urbPriv td.urb).tdCnt urb
    ⟨urb, status, lengthSet, finish⟩
  | .bulkIntr =>
    let (urb, status) := processBulkIntrTd (s.ep e).ring td eventTrb event urb status
    ⟨urb, status, lengthSet, true⟩

/-- The same event noted in the frame of its own TD. -/
def notedFrames (s : State) (e : EpId) (td : Td) (eventTrb : TrbPtr) (event : Event) (env : TxEnv) : List Frame :=
  match (s.ep e).pipe with
  | .isoc =>
    (processIsocTd env.trustTxLength (s.ep e).ring td eventTrb event td.index
      { s.urbs td.urb with isoFrameDesc := s.tdFrames td.urb }).1.isoFrameDesc
  | _ => s.tdFrames td.urb

def process (s : State) (e : EpId) (td : Td) (eventTrb : TrbPtr) (event : Event) (env : TxEnv) (status : Int) :
    State × Bool × Int :=
  let p := s.processTd e td eventTrb event env status
  let frames := s.notedFrames e td eventTrb event env
  ({ s.setUrb td.urb p.urb with urbLengthSet := Function.update s.urbLengthSet td.urb p.lengthSet }.noteFrames td.urb frames,
    p.finish, p.status)

/-- An iteration that passes a missed TD, with `ret` and `status` as the next one finds them. -/
def passMissed (s : State) (e : EpId) (td : Td) (event : Event) (env : TxEnv) (status : Int) : State × Bool × Int :=
  let (s, ret, status) := s.skipIsocTd e td event env status
  let (s, status) := s.cleanup e ret td status
  (s, ret, status)

/-- The iteration that has found the TD of the event. -/
def complete (s : State) (e : EpId) (td : Td) (eventTrb : TrbPtr) (event : Event) (env : TxEnv) (status : Int) : State :=
  let (s, finish, status) := s.process e td eventTrb event env status
  if finish then
    let (s, ret, status) := s.finishTd e td false event env status
    (s.cleanup e ret td status).1
  else s

/-- The loop of `ehub_handle_tx_event`. -/
def txLoop (e : EpId) (event : Event) (code : Nat) (env : TxEnv) : Nat → Nat → Bool → Int → State → State
  | 0, _, _, _, s => s
  | fuel + 1, tdNum, ret, status, s =>
    let ep := s.ep e
    match ep.tdList with
    | [] => s.setEp e { ep with skip := false }
    | td :: _ =>
      if ep.skip ∧ tdNum = 0 then s.setEp e { ep with skip := false }
      else
        let tdNum := if ep.skip then tdNum - 1 else tdNum
        match trbInTd ep.ring td.lastTrb event.buffer with
        | none =>
          if code = compStop ∨ code = compStopInval then
            if ep.skip then txLoop e event code env fuel tdNum false status s else s
          else if !ep.skip ∨ ep.pipe ≠ .isoc then
            if env.spuriousSuccess ∧ ep.lastTdWasShort then
              let s := s.setEp e { ep with lastTdWasShort := false }
              if ep.skip then txLoop e event code env fuel tdNum false status s else s
            else s
          else
            let (s, ret, status) := s.passMissed e td event env status
            txLoop e event code env fuel tdNum ret status s
        | some eventTrb =>
          let s := s.setEp e { ep with lastTdWasShort := decide (code = compShortTx), skip := false }
          if (ep.ring.trb eventTrb).isNoop then (s.cleanup e ret td status).1
          else s.complete e td eventTrb event env status

/-- `ehub_handle_tx_event`. -/
def handleTxEvent (s : State) (e : EpId) (event : Event) (env : TxEnv) : State :=
  if env.epState = 0 then s
  else
    let tdNum := if (s.ep e).skip then (s.ep e).tdList.length else 0
    let s := { s with toState := s.toState.noteStall e event }
    match reaction event env.trustTxLength with
    | .process code => s.txLoop e event code env (tdNum + 2) tdNum false (codeStatus event.code)
    | .leave =>
      if event.code = compMissedInt then s.setEp e { s.ep e with skip := true }
      else if (s.ep e).skip then s.txLoop e event event.code env (tdNum + 2) tdNum false (-eINPROGRESS)
      else s

end State

/-! ### Without the data -/

section
variable {s : State} {e : EpId} {td : Td} {event : Event} {env : TxEnv}

@[simp] theorem toState_setEp (ep : Ep) : (s.setEp e ep).toState = s.toState.setEp e ep := rfl
@[simp] theorem toState_setUrb (urb : Nat) (data : Urb) : (s.setUrb urb data).toState = s.toState := rfl
@[simp] theorem toState_noteFrames (urb : Nat) (frames : List Frame) : (s.noteFrames urb frames).toState = s.toState := rfl

theorem toState_finishTd (s : State) (e : EpId) (td : Td) (event : Event) (env : TxEnv) (skip : Bool) (status : Int) :
    (s.finishTd e td skip event env status).1.toState = (s.toState.finishTd e td skip event env).1 ∧
      (s.finishTd e td skip event env status).2.1 = (s.toState.finishTd e td skip event env).2 := by
  simp only [State.finishTd]
  split_ifs
  · exact ⟨rfl, rfl⟩
  · exact ⟨rfl, rfl⟩

theorem toState_cleanup (ret : Bool) (status : Int) :
    (s.cleanup e ret td status).1.toState = s.toState.cleanup ret (some td) := by
  cases ret
  · rfl
  · rfl

theorem toState_skipIsocTd (s : State) (e : EpId) (td : Td) (event : Event) (env : TxEnv) (status : Int) :
    (s.skipIsocTd e td event env status).1.toState = (s.toState.skipIsocTd e td event env).1 ∧
      (s.skipIsocTd e td event env status).2.1 = (s.toState.skipIsocTd e td event env).2 :=
  toState_finishTd _ e td event env true status

theorem finish_processCtrlTd {r : Ring} {eventTrb : TrbPtr} {epState : Nat} {lengthSet : Bool} {urb : Urb} {status : Int} :
    (processCtrlTd r td eventTrb event epState lengthSet urb status).finish =
      (event.code == compStopInval || event.code == compStop || event.code == compStall ||
        (event.code ≠ compSuccess && event.code ≠ compShortTx && requiresManualHaltCleanup epState event.code) ||
        eventTrb == r.dequeue || eventTrb == td.lastTrb) := by
  unfold processCtrlTd
  by_cases stopped : event.code = compStopInval ∨ event.code = compStop
  · rw [if_pos stopped]
    rcases stopped with is_code | is_code <;> simp [is_code]
  rw [if_neg stopped]
  obtain ⟨noInval, noStop⟩ := not_or.mp stopped
  by_cases halted : event.code = compStall ∨
      (event.code ≠ compSuccess ∧ event.code ≠ compShortTx ∧ requiresManualHaltCleanup epState event.code)
  · rw [if_pos halted]
    rcases halted with is_code | ⟨noSuccess, noShort, manual⟩
    · simp [is_code]
    · simp [noSuccess, noShort, manual]
  rw [if_neg halted]
  have runs : (event.code == compStopInval || event.code == compStop || event.code == compStall ||
      (event.code ≠ compSuccess && event.code ≠ compShortTx && requiresManualHaltCleanup epState event.code)) = false := by
    simp_all
  rw [runs]
  by_cases first : eventTrb = r.dequeue
  · simp [first]
  by_cases last : eventTrb = td.lastTrb
  · simp only [if_neg first, if_pos last]
    split_ifs <;> simp [last]
  · simp [first, last]

theorem finish_processIsocTd {r : Ring} {eventTrb : TrbPtr} {idx : Nat} {urb : Urb} {trust : Bool} :
    (processIsocTd trust r td eventTrb event idx urb).2 = !(event.code == compTxErr && eventTrb ≠ td.lastTrb) := by
  unfold processIsocTd
  by_cases waits : event.code = compTxErr ∧ eventTrb ≠ td.lastTrb
  · simp [waits]
  · have goes : (event.code == compTxErr && eventTrb ≠ td.lastTrb) = false := by simpa using waits
    simp only [if_neg waits, goes]
    split_ifs <;> rfl

/-- Whether a TD is finished does not depend on the data. -/
theorem process_finish (eventTrb : TrbPtr) (status : Int) :
    (s.process e td eventTrb event env status).2.1 = finishes (s.ep e) td eventTrb event env.epState := by
  simp only [State.process, State.processTd, finishes]
  cases (s.ep e).pipe with
  | control => exact finish_processCtrlTd
  | isoc => exact finish_processIsocTd
  | bulkIntr => rfl

@[simp] theorem toState_process (eventTrb : TrbPtr) (status : Int) :
    (s.process e td eventTrb event env status).1.toState = s.toState := rfl

theorem toState_passMissed (status : Int) :
    (s.passMissed e td event env status).1.toState =
        (s.toState.skipIsocTd e td event env).1.cleanup (s.toState.skipIsocTd e td event env).2 (some td) ∧
      (s.passMissed e td event env status).2.1 = (s.toState.skipIsocTd e td event env).2 := by
  obtain ⟨state, ret⟩ := toState_skipIsocTd s e td event env status
  refine ⟨?_, ret⟩
  rw [← state, ← ret]
  exact toState_cleanup _ _

theorem toState_complete (eventTrb : TrbPtr) (status : Int) :
    (s.complete e td eventTrb event env status).toState =
      if finishes (s.ep e) td eventTrb event env.epState then
        (s.toState.finishTd e td false event env).1.cleanup (s.toState.finishTd e td false event env).2 (some td)
      else s.toState := by
  rw [State.complete]
  dsimp only
  rw [process_finish]
  split_ifs
  · rw [toState_cleanup, (toState_finishTd _ e td event env false _).1, (toState_finishTd _ e td event env false _).2]
    rfl
  · rfl

/-- The loop without the data. -/
theorem toState_txLoop (code : Nat) : ∀ (fuel tdNum : Nat) (ret : Bool) (status : Int) (s : State),
    (s.txLoop e event code env fuel tdNum ret status).toState = s.toState.txLoop e event code env fuel tdNum ret := by
  intro fuel
  induction fuel with
  | zero => exact fun _ _ _ _ => rfl
  | succ fuel ih =>
    intro tdNum ret status s
    rw [State.txLoop, Transfer.State.txLoop]
    cases (s.ep e).tdList with
    | nil => rfl
    | cons td rest =>
      dsimp only
      by_cases skipped : (s.ep e).skip = true ∧ tdNum = 0
      · rw [if_pos skipped, if_pos skipped]
        rfl
      rw [if_neg skipped, if_neg skipped]
      cases trbInTd (s.ep e).ring td.lastTrb event.buffer with
      | none =>
        dsimp only
        by_cases stopped : code = compStop ∨ code = compStopInval
        · rw [if_pos stopped, if_pos stopped]
          split_ifs
          · exact ih ..
          · rfl
        rw [if_neg stopped, if_neg stopped]
        by_cases lost : (!(s.ep e).skip) = true ∨ (s.ep e).pipe ≠ .isoc
        · rw [if_pos lost, if_pos lost]
          split_ifs
          · exact ih ..
          · rfl
          · rfl
        · rw [if_neg lost, if_neg lost, ih, (toState_passMissed status).1, (toState_passMissed status).2]
      | some eventTrb =>
        dsimp only
        by_cases isNoop : ((s.ep e).ring.trb eventTrb).isNoop = true
        · rw [if_pos isNoop, if_pos isNoop]
          exact toState_cleanup ret status
        rw [if_neg isNoop, if_neg isNoop, toState_complete]
        have same : finishes ((s.setEp e { s.ep e with lastTdWasShort := decide (code = compShortTx), skip := false }).ep e) td
            eventTrb event env.epState = finishes (s.ep e) td eventTrb event env.epState := by
          rw [toState_setEp, Transfer.State.ep_setEp]
          rfl
        rw [same]
        rfl

/-- Without the data of the URBs an event does what it does in `Transfer`. -/
theorem toState_handleTxEvent : (s.handleTxEvent e event env).toState = s.toState.handleTxEvent e event env := by
  rw [State.handleTxEvent, Transfer.State.handleTxEvent]
  by_cases disabled : env.epState = 0
  · rw [if_pos disabled, if_pos disabled]
  rw [if_neg disabled, if_neg disabled]
  dsimp only
  cases reaction event env.trustTxLength with
  | process code => exact toState_txLoop ..
  | leave =>
    generalize (if (s.ep e).skip then (s.ep e).tdList.length else 0) = tdNum
    dsimp only
    split_ifs
    · rfl
    · exact toState_txLoop ..
    · rfl

/-- `COMP_STALL` sets `EP_HALTED`. -/
def noted (s : State) (e : EpId) (event : Event) : State := { s with toState := s.toState.noteStall e event }

/-- An event notes a stall, and then goes through the loop, sets `skip` or does nothing. -/
theorem handleTxEvent_cases (s : State) (e : EpId) (event : Event) (env : TxEnv) :
    s.handleTxEvent e event env = s ∨ s.handleTxEvent e event env = noted s e event ∨
      s.handleTxEvent e event env = (noted s e event).setEp e { (noted s e event).ep e with skip := true } ∨
      ∃ code tdNum status, s.handleTxEvent e event env = (noted s e event).txLoop e event code env (tdNum + 2) tdNum false status := by
  rw [State.handleTxEvent]
  by_cases disabled : env.epState = 0
  · rw [if_pos disabled]
    exact .inl rfl
  rw [if_neg disabled]
  generalize (if (s.ep e).skip then (s.ep e).tdList.length else 0) = tdNum
  dsimp only
  cases reaction event env.trustTxLength with
  | process code => exact .inr (.inr (.inr ⟨code, tdNum, _, rfl⟩))
  | leave =>
    dsimp only
    split_ifs
    · exact .inr (.inr (.inl rfl))
    · exact .inr (.inr (.inr ⟨_, tdNum, _, rfl⟩))
    · exact .inr (.inl rfl)

/-- What is kept by the steps of the loop that go on, and what the last step makes of it, holds
    after the loop; `P` may look at `ret`. -/
theorem txLoop_carries {code : Nat} (P : Bool → State → Prop) (Q : State → Prop)
    (stays : ∀ ret s, P ret s → Q s) (forgets : ∀ ret s, P ret s → P false s)
    (marks : ∀ ret s skip short, P ret s → (skip = true → (s.ep e).skip = true) →
      P ret (s.setEp e { s.ep e with skip := skip, lastTdWasShort := short }))
    (skips : ∀ ret s td rest status, P ret s → (s.ep e).tdList = td :: rest → (s.ep e).skip = true → (s.ep e).pipe = .isoc →
      trbInTd (s.ep e).ring td.lastTrb event.buffer = none →
      P (s.passMissed e td event env status).2.1 (s.passMissed e td event env status).1)
    (ends : ∀ ret s td rest eventTrb status, P ret s → (s.ep e).tdList = td :: rest →
      trbInTd (s.ep e).ring td.lastTrb event.buffer = some eventTrb → ((s.ep e).ring.trb eventTrb).isNoop = false →
      (s.ep e).skip = false → Q (s.complete e td eventTrb event env status))
    (noop : ∀ ret s td rest eventTrb status, P ret s → (s.ep e).tdList = td :: rest →
      trbInTd (s.ep e).ring td.lastTrb event.buffer = some eventTrb → ((s.ep e).ring.trb eventTrb).isNoop = true →
      Q (s.cleanup e ret td status).1) :
    ∀ fuel tdNum ret status s, P ret s → Q (s.txLoop e event code env fuel tdNum ret status) := by
  intro fuel
  induction fuel with
  | zero => exact fun _ ret _ s kept => stays ret s kept
  | succ fuel ih =>
    intro tdNum ret status s kept
    rw [State.txLoop]
    cases is_list : (s.ep e).tdList with
    | nil => exact stays ret _ (marks ret s false (s.ep e).lastTdWasShort kept (by simp))
    | cons td rest =>
      dsimp only
      by_cases skipped : (s.ep e).skip = true ∧ tdNum = 0
      · rw [if_pos skipped]
        exact stays ret _ (marks ret s false (s.ep e).lastTdWasShort kept (by simp))
      rw [if_neg skipped]
      cases found : trbInTd (s.ep e).ring td.lastTrb event.buffer with
      | none =>
        dsimp only
        by_cases stopped : code = compStop ∨ code = compStopInval
        · rw [if_pos stopped]
          split_ifs
          · exact ih _ _ _ _ (forgets ret s kept)
          · exact stays ret s kept
        rw [if_neg stopped]
        by_cases lost : (!(s.ep e).skip) = true ∨ (s.ep e).pipe ≠ .isoc
        · rw [if_pos lost]
          have short := marks ret s (s.ep e).skip false kept id
          split_ifs
          · exact ih _ _ _ _ (forgets ret _ short)
          · exact stays ret _ short
          · exact stays ret s kept
        · rw [if_neg lost]
          rw [not_or, not_not] at lost
          exact ih _ _ _ _ (skips ret s td rest status kept is_list (by simpa using lost.1) lost.2 found)
      | some eventTrb =>
        dsimp only
        have marked := marks ret s false (decide (code = compShortTx)) kept (by simp)
        by_cases isNoop : ((s.ep e).ring.trb eventTrb).isNoop = true
        · rw [if_pos isNoop]
          refine noop ret _ td rest eventTrb status marked ?_ ?_ ?_ <;> rw [toState_setEp, Transfer.State.ep_setEp] <;> assumption
        · rw [if_neg isNoop]
          have last := ends ret _ td rest eventTrb status marked
          simp only [toState_setEp, Transfer.State.ep_setEp] at last
          exact last is_list found (by simpa using isNoop) trivial

end

end Ehub.Lengths
