import Mathlib
import Ehub.Bulk
import Ehub.Fields

/-!
Control transfers (`ehub_xhci_queue_ctrl_tx`). A transfer has a setup stage, which carries
the eight bytes of the request in the TRB itself, a data stage if there are data, and a
status stage in the other direction. The three TRBs are not chained, but they are handed
over together, and only the last one raises an event when all goes well. A controller that
follows the ring finds the transfer that the URB describes behind everything that it has
found there before (`queueCtrlTx_read`).
-/
namespace Ehub.Control
open Ehub.Fields Ehub.Ring Ehub.RingFifo Ehub.Bulk
open Ehub.RingAccount (bulkRing prepareRing_done)

/-- `struct usb_ctrlrequest`. -/
structure CtrlRequest where
  bRequestType : BitVec 8
  bRequest : BitVec 8
  wValue : BitVec 16
  wIndex : BitVec 16
  wLength : BitVec 16
  deriving DecidableEq

/-- `USB_DIR_IN` of the request type. -/
def CtrlRequest.dirIn (setup : CtrlRequest) : Bool := setup.bRequestType &&& 0x80 != 0

/-- `dirIn` is `usb_urb_dir_in`. -/
structure Urb where
  setupPacket : Option CtrlRequest
  transferBuffer : BitVec 64
  transferBufferLength : BitVec 32
  dirIn : Bool

def trbIdt : BitVec 32 := 1 <<< 6
def trbDirIn : BitVec 32 := 1 <<< 16
def trbTxType (p : BitVec 32) : BitVec 32 := p <<< 16
def trbDataOut : BitVec 32 := 2
def trbDataIn : BitVec 32 := 3
def trbSetup : BitVec 32 := 2
def trbData : BitVec 32 := 3
def trbStatus : BitVec 32 := 4

def cycleBit (c : Bool) : BitVec 32 := if c then 1 else 0

/-- Only controllers of version 1.0 are told of the data stage. -/
def transferType (hciVersion : BitVec 16) (urb : Urb) (setup : CtrlRequest) : BitVec 32 :=
  if hciVersion = 0x100 ∧ urb.transferBufferLength ≠ 0 then
    if setup.dirIn then trbTxType trbDataIn else trbTxType trbDataOut
  else 0

/-- The setup TRB, with a given cycle bit. -/
def setupTrb (hciVersion : BitVec 16) (urb : Urb) (setup : CtrlRequest) (cycle : Bool) : Trb where
  field0 := setup.bRequestType.setWidth 32 ||| setup.bRequest.setWidth 32 <<< 8 ||| setup.wValue.setWidth 32 <<< 16
  field1 := setup.wIndex.setWidth 32 ||| setup.wLength.setWidth 32 <<< 16
  field2 := trbLen 8
  field3 := trbIdt ||| Trb.trbType trbSetup ||| cycleBit cycle ||| transferType hciVersion urb setup

def dataTrb (urb : Urb) (setup : CtrlRequest) (cycle : Bool) : Trb where
  field0 := urb.transferBuffer.extractLsb' 0 32
  field1 := urb.transferBuffer.extractLsb' 32 32
  field2 := trbLen urb.transferBufferLength ||| tdRemainder urb.transferBufferLength
  field3 := (if urb.dirIn then Isoc.trbIsp ||| Trb.trbType trbData else Trb.trbType trbData) |||
    (if setup.dirIn then trbDirIn else 0) ||| cycleBit cycle

/-- If the device sends data, the status stage goes out. -/
def statusTrb (urb : Urb) (setup : CtrlRequest) (cycle : Bool) : Trb where
  field0 := 0
  field1 := 0
  field2 := 0
  field3 := (if urb.transferBufferLength ≠ 0 ∧ setup.dirIn then 0 else trbDirIn) ||| Isoc.trbIoc ||| Trb.trbType trbStatus |||
    cycleBit cycle

structure Outcome where
  status : ℤ
  ring : Ring
  lastTrb : Option TrbPtr

def numTrbs (urb : Urb) : ℕ := if urb.transferBufferLength ≠ 0 then 3 else 2

/-- `ehub_xhci_queue_ctrl_tx` for the ring of an endpoint. -/
def queueCtrlTx (q : Quirks) (hciVersion : BitVec 16) (urb : Urb) (env : Isoc.Env) (r : Ring) : Outcome :=
  match urb.setupPacket with
  | none => ⟨-eINVAL, r, none⟩
  | some setup =>
    match Isoc.prepareTransfer q r (numTrbs urb) 0 env with
    | (0, r) =>
      let startTrb := r.enqueue
      let startCycle := r.cycleState
      -- The first TRB is not handed over before the others are there.
      let r := r.queueTrb q true (setupTrb hciVersion urb setup !startCycle)
      let r := if urb.transferBufferLength ≠ 0 then r.queueTrb q true (dataTrb urb setup r.cycleState) else r
      let lastTrb := r.enqueue
      let r := r.queueTrb q false (statusTrb urb setup r.cycleState)
      ⟨0, r.givebackFirstTrb startCycle startTrb env.write, some lastTrb⟩
    | (error, r) => ⟨error, r, none⟩

/-! ### What a controller makes of the TRBs -/

/-- The stages of a transfer: the request, the data stage as the setup TRB announces it,
    the data stage itself with its buffer, its length and whether data come in, and the
    direction of the status stage. -/
structure Stages where
  setup : CtrlRequest
  announced : ℕ
  data : Option (BitVec 64 × ℕ × Bool)
  statusIn : Bool
  deriving DecidableEq

def trbTypeOf (t : Trb) : BitVec 32 := get 10 6 t.field3

/-- Immediate data of eight bytes, which are a request. -/
def readSetup (t : Trb) : Option (CtrlRequest × ℕ) :=
  if trbTypeOf t = trbSetup ∧ t.field3.getLsbD 6 = true ∧ ioc t = false ∧ t.chain = false ∧ get 0 17 t.field2 = 8 then
    some (⟨t.field0.extractLsb' 0 8, t.field0.extractLsb' 8 8, t.field0.extractLsb' 16 16, t.field1.extractLsb' 0 16,
      t.field1.extractLsb' 16 16⟩, (get 16 2 t.field3).toNat)
  else none

def readData (t : Trb) : Option (BitVec 64 × ℕ × Bool) :=
  if trbTypeOf t = trbData ∧ t.field3.getLsbD 6 = false ∧ ioc t = false ∧ t.chain = false then
    some (t.segmentPtr, (get 0 17 t.field2).toNat, t.field3.getLsbD 16)
  else none

def readStatus (t : Trb) : Option Bool :=
  if trbTypeOf t = trbStatus ∧ ioc t = true ∧ t.chain = false then some (t.field3.getLsbD 16) else none

/-- A setup TRB, a data TRB or none, and a status TRB. -/
def readStages : List Trb → Option Stages
  | [s, t] => do
    let (setup, announced) ← readSetup s
    let statusIn ← readStatus t
    some ⟨setup, announced, none, statusIn⟩
  | [s, d, t] => do
    let (setup, announced) ← readSetup s
    let data ← readData d
    let statusIn ← readStatus t
    some ⟨setup, announced, some data, statusIn⟩
  | _ => none

/-- The transfer that a URB describes. -/
def described (hciVersion : BitVec 16) (urb : Urb) (setup : CtrlRequest) : Stages where
  setup := setup
  announced := if hciVersion = 0x100 ∧ urb.transferBufferLength ≠ 0 then if setup.dirIn then 3 else 2 else 0
  data := if urb.transferBufferLength ≠ 0 then some (urb.transferBuffer, urb.transferBufferLength.toNat, setup.dirIn) else none
  statusIn := !(urb.transferBufferLength ≠ 0 && setup.dirIn)

section
variable (hciVersion : BitVec 16) (urb : Urb) (setup : CtrlRequest)

/-- The bytes of a request lie one behind the other in the first two words. -/
theorem read_request : ((setupTrb hciVersion urb setup false).field0.extractLsb' 0 8 = setup.bRequestType ∧
      (setupTrb hciVersion urb setup false).field0.extractLsb' 8 8 = setup.bRequest ∧
      (setupTrb hciVersion urb setup false).field0.extractLsb' 16 16 = setup.wValue) ∧
    (setupTrb hciVersion urb setup false).field1.extractLsb' 0 16 = setup.wIndex ∧
      (setupTrb hciVersion urb setup false).field1.extractLsb' 16 16 = setup.wLength := by
  unfold setupTrb
  refine ⟨⟨?_, ?_, ?_⟩, ?_, ?_⟩
  all_goals
    apply BitVec.eq_of_getLsbD_eq
    intro i inside
    simp only [BitVec.getLsbD_extractLsb', BitVec.getLsbD_or, BitVec.getLsbD_setWidth, BitVec.getLsbD_shiftLeft]
  · have low : i < 16 := by omega
    simp [inside, low, show i < 32 by omega]
  · simp [inside, show 8 + i < 32 by omega, show 8 + i < 16 by omega, show i < 32 by omega]
  · have beyond := setup.bRequestType.getLsbD_of_ge (16 + i) (by omega)
    have beyond' := setup.bRequest.getLsbD_of_ge (16 + i - 8) (by omega)
    simp [inside, beyond, beyond', show 16 + i < 32 by omega, show i < 32 by omega]
  · simp [inside, show i < 32 by omega]
  · simp [inside, show 16 + i < 32 by omega, show i < 32 by omega]

theorem readSetup_setupTrb : readSetup (setupTrb hciVersion urb setup false) =
    some (setup, (described hciVersion urb setup).announced) := by
  obtain ⟨⟨type, request, value⟩, index, length⟩ := read_request hciVersion urb setup
  rw [readSetup, type, request, value, index, length]
  -- the control word depends on whether there are data to announce, and on their direction
  have word : (setupTrb hciVersion urb setup false).field3 = trbIdt ||| Trb.trbType trbSetup ||| 0 |||
      transferType hciVersion urb setup := rfl
  have eight : (setupTrb hciVersion urb setup false).field2 = 8 := rfl
  unfold transferType at word
  unfold trbTypeOf ioc Trb.chain
  rw [word, eight]
  by_cases some_data : hciVersion = 0x100 ∧ urb.transferBufferLength ≠ 0
  · simp only [described, if_pos some_data]
    cases setup.dirIn with
    | true => exact if_pos (by decide)
    | false => exact if_pos (by decide)
  · simp only [described, if_neg some_data]
    exact if_pos (by decide)

theorem readStatus_statusTrb : readStatus (statusTrb urb setup false) = some (described hciVersion urb setup).statusIn := by
  have word : (statusTrb urb setup false).field3 = (if urb.transferBufferLength ≠ 0 ∧ setup.dirIn then 0 else trbDirIn) |||
      Isoc.trbIoc ||| Trb.trbType trbStatus ||| 0 := rfl
  unfold readStatus trbTypeOf ioc Trb.chain
  rw [word]
  by_cases incoming : urb.transferBufferLength ≠ 0 ∧ setup.dirIn = true
  · have out : (described hciVersion urb setup).statusIn = false := by
      simp only [described, incoming.2, decide_eq_true incoming.1]
      rfl
    rw [if_pos incoming, out]
    exact if_pos (by decide)
  · have isIn : (described hciVersion urb setup).statusIn = true := by
      have both : (decide (urb.transferBufferLength ≠ 0) && setup.dirIn) = false := by
        rw [Bool.and_eq_false_iff, decide_eq_false_iff_not]
        by_cases some_data : urb.transferBufferLength ≠ 0
        · exact .inr (Bool.eq_false_of_not_eq_true fun dirIn => incoming ⟨some_data, dirIn⟩)
        · exact .inl some_data
      simp only [described, both]
      rfl
    rw [if_neg incoming, isIn]
    exact if_pos (by decide)

theorem readData_dataTrb (small : urb.transferBufferLength.toNat < 2 ^ 17) : readData (dataTrb urb setup false) =
    some (urb.transferBuffer, urb.transferBufferLength.toNat, setup.dirIn) := by
  have pointer : (dataTrb urb setup false).segmentPtr = urb.transferBuffer := BitVec.extractLsb'_append_extractLsb'
  have length : (Fields.get 0 17 (dataTrb urb setup false).field2).toNat = urb.transferBufferLength.toNat := by
    have beyond : tdRemainder urb.transferBufferLength &&& ones 32 17 = 0#32 := tdRemainder_and urb.transferBufferLength
    unfold dataTrb trbLen Fields.get
    rw [BitVec.ushiftRight_zero, BitVec.and_or_distrib_right]
    change ((urb.transferBufferLength &&& ones 32 17) &&& ones 32 17 ||| tdRemainder urb.transferBufferLength &&& ones 32 17).toNat = _
    rw [beyond, BitVec.or_zero, BitVec.and_assoc, BitVec.and_self, and_ones (by decide) small]
  rw [readData, pointer, length]
  have word : (dataTrb urb setup false).field3 = (if urb.dirIn then Isoc.trbIsp ||| Trb.trbType trbData else Trb.trbType trbData) |||
      (if setup.dirIn then trbDirIn else 0) ||| 0 := rfl
  unfold trbTypeOf ioc Trb.chain
  rw [word]
  cases urb.dirIn <;> cases setup.dirIn <;> exact if_pos (by decide)

/-- The TRBs of a transfer, but for their cycle bits. -/
def ctrlTrbs : List Trb :=
  setupTrb hciVersion urb setup false ::
    if urb.transferBufferLength ≠ 0 then [dataTrb urb setup false, statusTrb urb setup false] else [statusTrb urb setup false]

theorem readStages_ctrlTrbs (small : urb.transferBufferLength.toNat < 2 ^ 17) :
    readStages (ctrlTrbs hciVersion urb setup) = some (described hciVersion urb setup) := by
  unfold ctrlTrbs
  by_cases some_data : urb.transferBufferLength ≠ 0
  · have data : (described hciVersion urb setup).data =
        some (urb.transferBuffer, urb.transferBufferLength.toNat, setup.dirIn) := if_pos some_data
    rw [if_pos some_data, readStages, readSetup_setupTrb, readData_dataTrb urb setup small, readStatus_statusTrb hciVersion]
    exact congrArg (fun d => some (Stages.mk setup (described hciVersion urb setup).announced d
      (described hciVersion urb setup).statusIn)) data.symm
  · have data : (described hciVersion urb setup).data = none := if_neg some_data
    rw [if_neg some_data, readStages, readSetup_setupTrb, readStatus_statusTrb hciVersion]
    exact congrArg (fun d => some (Stages.mk setup (described hciVersion urb setup).announced d
      (described hciVersion urb setup).statusIn)) data.symm

/-! ### The cycle bits -/

theorem setCycle_setupTrb (c : Bool) : (setupTrb hciVersion urb setup false).setCycle c = setupTrb hciVersion urb setup c := by
  unfold setupTrb transferType Trb.setCycle
  congr 1
  dsimp only
  by_cases some_data : hciVersion = 0x100 ∧ urb.transferBufferLength ≠ 0
  · rw [if_pos some_data]
    cases c <;> cases setup.dirIn <;> decide
  · rw [if_neg some_data]
    cases c <;> decide

theorem setCycle_dataTrb (c : Bool) : (dataTrb urb setup false).setCycle c = dataTrb urb setup c := by
  unfold dataTrb Trb.setCycle
  congr 1
  dsimp only
  cases c <;> cases urb.dirIn <;> cases setup.dirIn <;> decide

theorem setCycle_statusTrb (c : Bool) : (statusTrb urb setup false).setCycle c = statusTrb urb setup c := by
  unfold statusTrb Trb.setCycle
  congr 1
  dsimp only
  by_cases incoming : urb.transferBufferLength ≠ 0 ∧ setup.dirIn = true
  · rw [if_pos incoming]
    cases c <;> decide
  · rw [if_neg incoming]
    cases c <;> decide

theorem ctrlTrbs_plain : ∀ t ∈ ctrlTrbs hciVersion urb setup, t.isLink = false ∧ t.setCycle false = t := by
  have setupPlain : (setupTrb hciVersion urb setup false).isLink = false := by
    unfold Trb.isLink setupTrb transferType
    dsimp only
    by_cases some_data : hciVersion = 0x100 ∧ urb.transferBufferLength ≠ 0
    · rw [if_pos some_data]
      cases setup.dirIn <;> decide
    · rw [if_neg some_data]
      decide
  have dataPlain : (dataTrb urb setup false).isLink = false := by
    unfold Trb.isLink dataTrb
    dsimp only
    cases urb.dirIn <;> cases setup.dirIn <;> decide
  have statusPlain : (statusTrb urb setup false).isLink = false := by
    unfold Trb.isLink statusTrb
    dsimp only
    by_cases incoming : urb.transferBufferLength ≠ 0 ∧ setup.dirIn = true
    · rw [if_pos incoming]
      decide
    · rw [if_neg incoming]
      decide
  intro t member
  unfold ctrlTrbs at member
  split at member
  · simp only [List.mem_cons, List.not_mem_nil, or_false] at member
    rcases member with rfl | rfl | rfl
    · exact ⟨setupPlain, setCycle_setupTrb hciVersion urb setup false⟩
    · exact ⟨dataPlain, setCycle_dataTrb urb setup false⟩
    · exact ⟨statusPlain, setCycle_statusTrb urb setup false⟩
  · simp only [List.mem_cons, List.not_mem_nil, or_false] at member
    rcases member with rfl | rfl
    · exact ⟨setupPlain, setCycle_setupTrb hciVersion urb setup false⟩
    · exact ⟨statusPlain, setCycle_statusTrb urb setup false⟩

/-! ### On the ring -/

variable {hciVersion urb setup} {q : Quirks} {env : Isoc.Env} {r r' : Ring} {s : RingFifo.State}

theorem numTrbs_eq (hciVersion : BitVec 16) (urb : Urb) (setup : CtrlRequest) : numTrbs urb = (ctrlTrbs hciVersion urb setup).length := by
  unfold numTrbs ctrlTrbs
  split <;> rfl

/-- A transfer is queued as a TD. -/
theorem queueCtrlTx_eq (request : urb.setupPacket = some setup) (prepared : Isoc.prepareTransfer q r (numTrbs urb) 0 env = (0, r')) :
    ∃ first rest, ctrlTrbs hciVersion urb setup = first :: rest ∧ (queueCtrlTx q hciVersion urb env r).status = 0 ∧
      (queueCtrlTx q hciVersion urb env r).ring = r'.queueTd q first rest env.write := by
  refine ⟨_, _, rfl, ?_⟩
  unfold queueCtrlTx queueTd
  rw [request]
  dsimp only
  rw [prepared]
  refine ⟨rfl, ?_⟩
  by_cases some_data : urb.transferBufferLength ≠ 0
  · simp only [if_pos some_data, queueRest, List.isEmpty_cons, List.isEmpty_nil, Bool.not_false, Bool.not_true,
      setCycle_setupTrb, setCycle_dataTrb, setCycle_statusTrb]
  · simp only [if_neg some_data, queueRest, List.isEmpty_cons, List.isEmpty_nil, Bool.not_false, Bool.not_true,
      setCycle_setupTrb, setCycle_statusTrb]

theorem queueCtrlTx_failed {error : ℤ} (request : urb.setupPacket = some setup)
    (prepared : Isoc.prepareTransfer q r (numTrbs urb) 0 env = (error, r')) (failed : error ≠ 0) :
    queueCtrlTx q hciVersion urb env r = ⟨error, r', none⟩ := by
  unfold queueCtrlTx
  rw [request]
  dsimp only
  rw [prepared]
  split
  · rename_i same
    exact absurd (congrArg Prod.fst same) failed
  · rename_i same
    cases same
    rfl

/-- The call of `prepare_ring` for a transfer. -/
def preparation (env : Isoc.Env) (urb : Urb) : Op :=
  .prepareRing (env.epState 0) (numTrbs urb) (env.answers 0) (env.status 0)

/-- The preparation of a transfer is one step of the ring; if it succeeds there is room. -/
theorem prepareTransfer_step (q : Quirks) (env : Isoc.Env) (urb : Urb) (s : RingFifo.State) :
    ∃ reserved, s.step q (preparation env urb) =
        { s with ring := (Isoc.prepareTransfer q s.ring (numTrbs urb) 0 env).2, reserved := reserved } ∧
      ((Isoc.prepareTransfer q s.ring (numTrbs urb) 0 env).1 = 0 → reserved = numTrbs urb ∧
        s.ring.prepareRing q (env.epState 0) (numTrbs urb) (env.answers 0) (env.status 0) =
          (0, (Isoc.prepareTransfer q s.ring (numTrbs urb) 0 env).2)) := by
  rcases result : s.ring.prepareRing q (env.epState 0) (numTrbs urb) (env.answers 0) (env.status 0) with ⟨error, r'⟩
  have stepped : s.step q (preparation env urb) = { s with ring := r', reserved := if error = 0 then numTrbs urb else 0 } := by
    rw [preparation, RingFifo.State.step, result]
  rw [stepped]
  by_cases failed : error = 0
  · subst failed
    rw [Isoc.prepareTransfer, result]
    by_cases refused : env.linkUrb ≠ 0
    · refine ⟨numTrbs urb, ?_, ?_⟩
      · simp only [true_and, if_pos refused, if_true]
      · intro done
        simp only [true_and, if_pos refused] at done
        omega
    · refine ⟨numTrbs urb, ?_, ?_⟩
      · simp only [true_and, if_neg refused, if_true]
      · intro _
        simp only [true_and, if_neg refused]
  · have kept : Isoc.prepareTransfer q s.ring (numTrbs urb) 0 env = (error, r') := by
      rw [Isoc.prepareTransfer, result]
      split
      · rename_i same
        cases same
        exact absurd rfl failed
      · rename_i same
        exact same.symm
    rw [kept]
    exact ⟨0, by rw [if_neg failed], fun done => absurd done failed⟩

/-- A control transfer is queued whole or not at all: if it is, then a controller finds
    behind what it has found before the stages that the URB describes, and if it is not,
    it finds nothing new. No cached hand-over of a link fails on the way, and no expansion
    happens behind one, here as in all calls before. -/
theorem queueCtrlTx_read (q : Quirks) (hciVersion : BitVec 16) (env : Isoc.Env) (urb : Urb) {s : RingFifo.State}
    (reachable : RingFifo.Reachable q Careful s) (small : urb.transferBufferLength.toNat < 2 ^ 17)
    (allowed : (preparation env urb).Allowed s) (careful : Careful s (preparation env urb)) :
    ((queueCtrlTx q hciVersion urb env s.ring).status = 0 ∧ ∃ setup trbs, urb.setupPacket = some setup ∧
      readStages trbs = some (described hciVersion urb setup) ∧
      RingFifo.Reachable q Careful ⟨(queueCtrlTx q hciVersion urb env s.ring).ring, 0, s.pending ++ trbs, s.ccs⟩ ∧
      Fifo ⟨(queueCtrlTx q hciVersion urb env s.ring).ring, 0, s.pending ++ trbs, s.ccs⟩) ∨
    ((queueCtrlTx q hciVersion urb env s.ring).status ≠ 0 ∧ ∃ reserved,
      RingFifo.Reachable q Careful ⟨(queueCtrlTx q hciVersion urb env s.ring).ring, reserved, s.pending, s.ccs⟩ ∧
      (¬RingShape.Overtaken (queueCtrlTx q hciVersion urb env s.ring).ring →
        Fifo ⟨(queueCtrlTx q hciVersion urb env s.ring).ring, reserved, s.pending, s.ccs⟩)) := by
  rcases request : urb.setupPacket with _ | setup
  · right
    have result : queueCtrlTx q hciVersion urb env s.ring = ⟨-eINVAL, s.ring, none⟩ := by
      unfold queueCtrlTx
      rw [request]
    rw [result]
    exact ⟨show -eINVAL ≠ 0 by decide, s.reserved, reachable, fifo_of_ahead reachable⟩
  have next : RingFifo.Reachable q Careful (s.step q (preparation env urb)) := .step _ reachable ⟨allowed, careful⟩
  obtain ⟨reserved, stepped, room⟩ := prepareTransfer_step q env urb s
  rw [stepped] at next
  rcases prepared : Isoc.prepareTransfer q s.ring (numTrbs urb) 0 env with ⟨error, r'⟩
  rw [prepared] at next room
  by_cases failed : error ≠ 0
  · right
    rw [queueCtrlTx_failed request prepared failed]
    exact ⟨failed, reserved, next, fifo_of_ahead next⟩
  left
  obtain rfl : error = 0 := not_not.mp failed
  obtain ⟨rfl, done⟩ := room rfl
  obtain ⟨first, rest, trbs, status, result⟩ := queueCtrlTx_eq request prepared
  have count : rest.length + 1 = numTrbs urb := by
    rw [numTrbs_eq hciVersion urb setup, trbs]
    rfl
  have plain := ctrlTrbs_plain hciVersion urb setup
  have same : (first :: rest).map (·.setCycle false) = ctrlTrbs hciVersion urb setup := by
    rw [← trbs]
    exact (List.map_congr_left fun t member => (plain t member).2).trans (List.map_id _)
  -- `prepare_ring` does not leave `enqueue` on a link
  have inner : (r'.trb r'.enqueue).isLink = false := by
    obtain ⟨busy, idle, c, view, _⟩ := inv_reachable next
    have queue := view.queue
    have notLink := (prepareRing_done done queue).2
    simpa using mt (queue.shape.links _ queue.enqueue_mem).mp notLink
  have queued := Run.Reachable.step (Op.queueTd first rest env.write) next
    ⟨⟨le_of_eq count, inner, fun t member => (plain t (trbs ▸ member)).1⟩, trivial⟩
  have after : RingFifo.Reachable q Careful
      ⟨r'.queueTd q first rest env.write, 0, s.pending ++ ctrlTrbs hciVersion urb setup, s.ccs⟩ := by
    have none : numTrbs urb - (rest.length + 1) = 0 := by rw [count, Nat.sub_self]
    simp only [RingFifo.State.step, none, same] at queued
    exact queued
  rw [result]
  refine ⟨status, setup, ctrlTrbs hciVersion urb setup, rfl, readStages_ctrlTrbs hciVersion urb setup small, after, ?_⟩
  refine fifo_of_ahead after fun overtaken => ?_
  have nothing := (stops_of_overtaken after overtaken).1
  rw [trbs] at nothing
  simp at nothing

/-- `GET_DESCRIPTOR` of a device descriptor. -/
def getDescriptor : Urb := ⟨some ⟨0x80, 6, 0x100, 0, 18⟩, 0x3000, 18, true⟩

/-- A TRB of another transfer is still to be taken. -/
def busyRing : RingFifo.State := RingFifo.shortRun.foldl (RingFifo.State.step ⟨false, false⟩) ⟨bulkRing, 0, [], true⟩

theorem queueCtrlTx_read_getDescriptor : busyRing.pending.length = 1 ∧
    ∃ setup trbs, getDescriptor.setupPacket = some setup ∧ readStages trbs = some (described 0x100 getDescriptor setup) ∧
      RingFifo.Reachable ⟨false, false⟩ Careful
        ⟨(queueCtrlTx ⟨false, false⟩ 0x100 getDescriptor quietEnv busyRing.ring).ring, 0, busyRing.pending ++ trbs, true⟩ ∧
      Fifo ⟨(queueCtrlTx ⟨false, false⟩ 0x100 getDescriptor quietEnv busyRing.ring).ring, 0, busyRing.pending ++ trbs, true⟩ := by
  have reachable : RingFifo.Reachable ⟨false, false⟩ Careful busyRing := RingFifo.shortRun_reachable
  have careful : Careful busyRing (preparation quietEnv getDescriptor) :=
    ⟨fun overtaken => absurd overtaken (by decide +kernel), by simp [quietEnv], fun _ _ => by decide⟩
  have done : (queueCtrlTx ⟨false, false⟩ 0x100 getDescriptor quietEnv busyRing.ring).status = 0 := by decide +kernel
  refine ⟨by decide +kernel, ?_⟩
  rcases queueCtrlTx_read ⟨false, false⟩ 0x100 quietEnv getDescriptor reachable (by decide) (by decide +kernel) careful with queued | failed
  · exact queued.2
  · exact absurd done failed.1

end

end Ehub.Control
