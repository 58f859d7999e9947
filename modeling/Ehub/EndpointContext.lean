import Mathlib
import Ehub.Fields
import Ehub.EndpointConfig

/-!
The input context of an endpoint (`ehub_xhci_endpoint_init`). The descriptors of an
endpoint are put into the three words of its context; the controller reads them, and so
does the driver when it keeps account of the bandwidth itself
(`ehub_xhci_update_bw_info`) and when it tells a class driver how often its URBs will be
served (`ehub_xhci_queue_intr_tx`). The words hold what the descriptors say
(`updateBwInfo_endpointInit`), and the interval of an endpoint is the longest power of two
that does not exceed the one that the descriptor asks for (`interval_granted`).
-/
namespace Ehub.EndpointContext
open Ehub.Fields
open Ehub.EndpointConfig (Xfer)

inductive Speed
  | low
  | full
  | high
  | super
  deriving DecidableEq

/-- The endpoint descriptor and, for SuperSpeed, its companion. -/
structure EndpointDesc where
  xfer : Xfer
  dirIn : Bool
  wMaxPacketSize : BitVec 16
  bInterval : BitVec 8
  compAttributes : BitVec 8
  bMaxBurst : BitVec 8
  wBytesPerInterval : BitVec 16

/-- `struct xhci_ep_ctx`. -/
structure EpCtx where
  epInfo : BitVec 32
  epInfo2 : BitVec 32
  deq : BitVec 64
  txInfo : BitVec 32
  deriving DecidableEq

/-! ### The fields of a context -/

def epMult (p : BitVec 32) : BitVec 32 := put 8 2 p
def ctxToEpMult (p : BitVec 32) : BitVec 32 := get 8 2 p
def epInterval (p : BitVec 32) : BitVec 32 := put 16 8 p
def ctxToEpInterval (p : BitVec 32) : BitVec 32 := get 16 8 p
def errorCount (p : BitVec 32) : BitVec 32 := put 1 2 p
def epType (p : BitVec 32) : BitVec 32 := p <<< 3
def ctxToEpType (p : BitVec 32) : BitVec 32 := get 3 3 p
def maxBurst (p : BitVec 32) : BitVec 32 := put 8 8 p
def ctxToMaxBurst (p : BitVec 32) : BitVec 32 := get 8 8 p
def maxPacket (p : BitVec 32) : BitVec 32 := put 16 16 p
def maxPacketDecoded (p : BitVec 32) : BitVec 32 := get 16 16 p
def avgTrbLengthForEp (p : BitVec 32) : BitVec 32 := put 0 16 p
def maxEsitPayloadForEp (p : BitVec 32) : BitVec 32 := put 16 16 p
def ctxToMaxEsitPayload (p : BitVec 32) : BitVec 32 := get 16 16 p

def isocOutEp : BitVec 32 := 1
def bulkOutEp : BitVec 32 := 2
def intOutEp : BitVec 32 := 3
def ctrlEp : BitVec 32 := 4
def isocInEp : BitVec 32 := 5
def bulkInEp : BitVec 32 := 6
def intInEp : BitVec 32 := 7

/-! ### From descriptors to a context -/

/-- `fls`: the number of the highest bit that is set, counted from 1. -/
def fls (x : ℕ) : ℕ := if x = 0 then 0 else Nat.log2 x + 1

def clampVal (x lo hi : ℕ) : ℕ := min (max x lo) hi

namespace EndpointDesc
variable (desc : EndpointDesc)

/-- `usb_endpoint_maxp`. -/
def maxp : ℕ := desc.wMaxPacketSize.toNat

/-- `GET_MAX_PACKET`. -/
def getMaxPacket : ℕ := desc.maxp % 2048

/-- Bits 11 and 12 of the packet size. -/
def additional : ℕ := desc.maxp / 2048 % 4

def periodic : Bool := desc.xfer = .isoc || desc.xfer = .interrupt

/-- A full-speed endpoint has its interval in frames of eight microframes. -/
def parseExponentInterval (speed : Speed) : ℕ :=
  clampVal desc.bInterval.toNat 1 16 - 1 + if speed = .full then 3 else 0

/-- An unsigned int: without any interval it is the largest one, which is then clamped. -/
def microframesToExponent (descInterval minExponent maxExponent : ℕ) : ℕ :=
  clampVal ((fls descInterval + (2 ^ 32 - 1)) % 2 ^ 32) minExponent maxExponent

def parseMicroframeInterval : ℕ :=
  if desc.bInterval.toNat = 0 then 0 else microframesToExponent desc.bInterval.toNat 0 15

def parseFrameInterval : ℕ := microframesToExponent (desc.bInterval.toNat * 8) 3 10

/-- The exponent, before `EP_INTERVAL`. -/
def getEndpointInterval (speed : Speed) : ℕ :=
  match speed with
  | .high => if desc.periodic then desc.parseExponentInterval speed else desc.parseMicroframeInterval
  | .super => if desc.periodic then desc.parseExponentInterval speed else 0
  | .full =>
    if desc.xfer = .isoc then desc.parseExponentInterval speed
    else if desc.xfer = .interrupt then desc.parseFrameInterval else 0
  | .low => if desc.periodic then desc.parseFrameInterval else 0

def getEndpointMult (speed : Speed) : BitVec 32 :=
  if speed ≠ .super ∨ desc.xfer ≠ .isoc then 0 else desc.compAttributes.setWidth 32

/-- The type, before `EP_TYPE`. -/
def getEndpointType : BitVec 32 :=
  match desc.xfer with
  | .control => ctrlEp
  | .bulk => if desc.dirIn then bulkInEp else bulkOutEp
  | .isoc => if desc.dirIn then isocInEp else isocOutEp
  | .interrupt => if desc.dirIn then intInEp else intOutEp

def getMaxEsitPayload (speed : Speed) : ℕ :=
  if !desc.periodic then 0
  else if speed = .super then desc.wBytesPerInterval.toNat
  else desc.getMaxPacket * (desc.additional + 1)

/-- The packet size that goes into the context. -/
def packetSize (speed : Speed) : ℕ := if speed = .high ∧ desc.xfer = .bulk then 512 else desc.getMaxPacket

/-- The burst that goes into the context, one less than the number of packets. -/
def burst (speed : Speed) : ℕ :=
  match speed with
  | .super => desc.bMaxBurst.toNat
  | .high => if desc.periodic then desc.additional else 0
  | _ => 0

end EndpointDesc

/-- The context that `ehub_xhci_endpoint_init` writes for a ring whose first segment is at
    `dma`. The consumer's cycle state of a new ring is 1. -/
def endpointInit (hciVersion : ℕ) (speed : Speed) (desc : EndpointDesc) (dma : BitVec 64) : EpCtx where
  epInfo := epInterval (BitVec.ofNat 32 (desc.getEndpointInterval speed)) ||| epMult (desc.getEndpointMult speed)
  epInfo2 := epType desc.getEndpointType ||| errorCount (if desc.xfer ≠ .isoc then 3 else 0) |||
    (maxPacket (BitVec.ofNat 32 (desc.packetSize speed)) ||| maxBurst (BitVec.ofNat 32 (desc.burst speed)))
  deq := dma ||| 1
  txInfo := maxEsitPayloadForEp (BitVec.ofNat 32 (desc.getMaxEsitPayload speed)) |||
    avgTrbLengthForEp (if desc.xfer = .control ∧ hciVersion = 0x100 then 8
      else BitVec.ofNat 32 (desc.getMaxEsitPayload speed))

/-! ### From a context to the account of the bandwidth -/

structure BwInfo where
  epInterval : ℕ
  mult : ℕ
  numPackets : ℕ
  maxPacketSize : ℕ
  maxEsitPayload : ℕ
  type : BitVec 32
  deriving DecidableEq

/-- `ehub_xhci_clear_endpoint_bw_info`. -/
def clearBwInfo : BwInfo := ⟨0, 0, 0, 0, 0, 0⟩

def isAsyncEp (type : BitVec 32) : Bool :=
  type != isocOutEp && type != intOutEp && type != isocInEp && type != intInEp

def isSyncInEp (type : BitVec 32) : Bool := type == isocInEp || type == intInEp

/-- What `ehub_xhci_update_bw_info` makes of the account of one endpoint. An endpoint that
    is not periodic is passed over. -/
def updateBwInfo (added dropped : Bool) (ctx : EpCtx) (old : BwInfo) : BwInfo :=
  if !added && dropped then clearBwInfo
  else if added then
    if isAsyncEp (ctxToEpType ctx.epInfo2) then old
    else ⟨(ctxToEpInterval ctx.epInfo).toNat, (ctxToEpMult ctx.epInfo).toNat + 1, (ctxToMaxBurst ctx.epInfo2).toNat + 1,
      (maxPacketDecoded ctx.epInfo2).toNat, (ctxToMaxEsitPayload ctx.txInfo).toNat, ctxToEpType ctx.epInfo2⟩
  else old

/-! ### From a context to the interval of a URB -/

/-- `EP_INTERVAL_TO_UFRAMES`. -/
def epIntervalToUframes (epInfo : BitVec 32) : ℕ := 2 ^ (ctxToEpInterval epInfo).toNat

def inFrames (speed : Speed) : Bool := speed = .low || speed = .full

/-- What `ehub_xhci_queue_intr_tx` and `ehub_xhci_queue_isoc_tx_prepare` make of the
    interval of a URB. -/
def urbInterval (speed : Speed) (epInfo : BitVec 32) (interval : ℕ) : ℕ :=
  let xhciInterval := epIntervalToUframes epInfo
  let epInterval := if inFrames speed then interval * 8 else interval
  if xhciInterval ≠ epInterval then if inFrames speed then xhciInterval / 8 else xhciInterval else interval

/-! ### The controller reads what the descriptors say -/

/-- What the controller takes from a context. -/
structure Reading where
  interval : ℕ
  mult : ℕ
  errors : ℕ
  type : BitVec 32
  burst : ℕ
  packetSize : ℕ
  payload : ℕ
  average : ℕ
  dequeue : BitVec 64
  cycle : Bool
  deriving DecidableEq

def EpCtx.read (ctx : EpCtx) : Reading where
  interval := (ctxToEpInterval ctx.epInfo).toNat
  mult := (ctxToEpMult ctx.epInfo).toNat
  errors := (get 1 2 ctx.epInfo2).toNat
  type := ctxToEpType ctx.epInfo2
  burst := (ctxToMaxBurst ctx.epInfo2).toNat
  packetSize := (maxPacketDecoded ctx.epInfo2).toNat
  payload := (ctxToMaxEsitPayload ctx.txInfo).toNat
  average := (get 0 16 ctx.txInfo).toNat
  dequeue := ctx.deq &&& ~~~0xf
  cycle := ctx.deq.getLsbD 0

/-- What the descriptors say. Only SuperSpeed isochronous endpoints have a Mult, and only
    isochronous endpoints are not retried. -/
def EndpointDesc.described (desc : EndpointDesc) (hciVersion : ℕ) (speed : Speed) (dma : BitVec 64) : Reading where
  interval := desc.getEndpointInterval speed
  mult := if speed = .super ∧ desc.xfer = .isoc then desc.compAttributes.toNat % 4 else 0
  errors := if desc.xfer = .isoc then 0 else 3
  type := desc.getEndpointType
  burst := desc.burst speed
  packetSize := desc.packetSize speed
  payload := desc.getMaxEsitPayload speed
  average := if desc.xfer = .control ∧ hciVersion = 0x100 then 8 else desc.getMaxEsitPayload speed
  dequeue := dma
  cycle := true

theorem clampVal_bounds {x lo hi : ℕ} (order : lo ≤ hi) : lo ≤ clampVal x lo hi ∧ clampVal x lo hi ≤ hi := by
  unfold clampVal
  omega

namespace EndpointDesc
variable (desc : EndpointDesc)

theorem getMaxPacket_lt : desc.getMaxPacket < 2048 := Nat.mod_lt _ (by decide)

theorem additional_lt : desc.additional < 4 := Nat.mod_lt _ (by decide)

theorem parseExponentInterval_lt (speed : Speed) : desc.parseExponentInterval speed < 16 + if speed = .full then 3 else 0 := by
  have bounds := clampVal_bounds (x := desc.bInterval.toNat) (show 1 ≤ 16 by omega)
  unfold parseExponentInterval
  split <;> omega

theorem microframesToExponent_bounds {x lo hi : ℕ} (order : lo ≤ hi) :
    lo ≤ microframesToExponent x lo hi ∧ microframesToExponent x lo hi ≤ hi := clampVal_bounds order

theorem getEndpointInterval_lt (speed : Speed) : desc.getEndpointInterval speed < 2 ^ 8 := by
  have exponent := desc.parseExponentInterval_lt speed
  have frame := microframesToExponent_bounds (x := desc.bInterval.toNat * 8) (show 3 ≤ 10 by omega)
  have microframe := microframesToExponent_bounds (x := desc.bInterval.toNat) (show 0 ≤ 15 by omega)
  have bound : (if speed = .full then 3 else 0) ≤ 3 := by split <;> omega
  cases speed with
  | low =>
    change (if desc.periodic then desc.parseFrameInterval else 0) < _
    unfold parseFrameInterval
    split <;> omega
  | full =>
    change (if desc.xfer = .isoc then _ else if desc.xfer = .interrupt then desc.parseFrameInterval else 0) < _
    unfold parseFrameInterval
    split_ifs <;> omega
  | high =>
    change (if desc.periodic then _ else desc.parseMicroframeInterval) < _
    unfold parseMicroframeInterval
    split_ifs <;> omega
  | super =>
    change (if desc.periodic then _ else 0) < _
    split <;> omega

theorem burst_lt (speed : Speed) : desc.burst speed < 2 ^ 8 := by
  have few := desc.additional_lt
  have byte := desc.bMaxBurst.isLt
  cases speed with
  | low => exact Nat.two_pow_pos 8
  | full => exact Nat.two_pow_pos 8
  | high =>
    change (if desc.periodic then desc.additional else 0) < _
    split <;> omega
  | super => exact byte

theorem packetSize_lt (speed : Speed) : desc.packetSize speed < 2 ^ 16 := by
  have small := desc.getMaxPacket_lt
  unfold packetSize
  split <;> omega

theorem getMaxEsitPayload_lt (speed : Speed) : desc.getMaxEsitPayload speed < 2 ^ 16 := by
  have small := desc.getMaxPacket_lt
  have few := desc.additional_lt
  have word := desc.wBytesPerInterval.isLt
  have product : desc.getMaxPacket * (desc.additional + 1) ≤ 2048 * 4 := Nat.mul_le_mul (by omega) (by omega)
  unfold getMaxEsitPayload
  split
  · omega
  · split <;> omega

theorem isAsyncEp_getEndpointType : isAsyncEp desc.getEndpointType = !desc.periodic := by
  unfold getEndpointType periodic
  cases desc.xfer <;> cases desc.dirIn <;> decide

theorem packetSize_of_periodic (periodic : desc.periodic = true) (speed : Speed) : desc.packetSize speed = desc.getMaxPacket := by
  rw [packetSize, if_neg]
  rintro ⟨-, bulk⟩
  rw [EndpointDesc.periodic, bulk] at periodic
  simp at periodic

theorem getEndpointType_lt : desc.getEndpointType.toNat < 2 ^ 3 := by
  unfold getEndpointType
  cases desc.xfer <;> cases desc.dirIn <;> decide

end EndpointDesc

/-- A type is not cut to the width of its field, but it fits. -/
theorem epType_eq {type : BitVec 32} (small : type.toNat < 2 ^ 3) : epType type = put 3 3 type := by
  rw [put, and_ones (by decide) small, epType]

/-- A number that fits is read as it has been put. -/
theorem get_put_ofNat {low width n : ℕ} (fits : low + width ≤ 32) (small : n < 2 ^ width) :
    (get low width (put low width (BitVec.ofNat 32 n))).toNat = n := by
  have wide : 2 ^ width ≤ 2 ^ 32 := Nat.pow_le_pow_right (by omega) (by omega)
  rw [get_put fits, toNat_and_ones (by omega), BitVec.toNat_ofNat, Nat.mod_eq_of_lt (show n < 2 ^ 32 by omega),
    Nat.mod_eq_of_lt small]

section Init
variable (hciVersion : ℕ) (speed : Speed) (desc : EndpointDesc) (dma : BitVec 64)

theorem read_epInfo : (ctxToEpInterval (endpointInit hciVersion speed desc dma).epInfo).toNat = desc.getEndpointInterval speed ∧
    (ctxToEpMult (endpointInit hciVersion speed desc dma).epInfo).toNat =
      if speed = .super ∧ desc.xfer = .isoc then desc.compAttributes.toNat % 4 else 0 := by
  unfold ctxToEpInterval ctxToEpMult endpointInit epInterval epMult
  constructor
  · simp (disch := decide) only [get_or, get_put_of_disjoint, BitVec.or_zero]
    exact get_put_ofNat (by decide) (desc.getEndpointInterval_lt speed)
  · simp (disch := decide) only [get_or, get_put_of_disjoint, BitVec.zero_or, get_put, toNat_and_ones]
    unfold EndpointDesc.getEndpointMult
    by_cases isoc : speed = .super ∧ desc.xfer = .isoc
    · have byte : desc.compAttributes.toNat < 2 ^ 32 := lt_trans desc.compAttributes.isLt (by decide)
      rw [if_pos isoc, if_neg (by simp [isoc]), BitVec.toNat_setWidth, Nat.mod_eq_of_lt byte]
      rfl
    · rw [if_neg isoc, if_pos (by rwa [Ne, Ne, ← not_and_or])]
      rfl

/-- The second word has four fields, of which the type is not masked. -/
theorem epInfo2_eq : (endpointInit hciVersion speed desc dma).epInfo2 =
    put 3 3 desc.getEndpointType ||| put 1 2 (if desc.xfer ≠ .isoc then 3 else 0) |||
      (put 16 16 (BitVec.ofNat 32 (desc.packetSize speed)) ||| put 8 8 (BitVec.ofNat 32 (desc.burst speed))) := by
  rw [← epType_eq desc.getEndpointType_lt]
  rfl

theorem read_epInfo2 : (get 1 2 (endpointInit hciVersion speed desc dma).epInfo2).toNat = (if desc.xfer = .isoc then 0 else 3) ∧
    ctxToEpType (endpointInit hciVersion speed desc dma).epInfo2 = desc.getEndpointType ∧
    (ctxToMaxBurst (endpointInit hciVersion speed desc dma).epInfo2).toNat = desc.burst speed ∧
    (maxPacketDecoded (endpointInit hciVersion speed desc dma).epInfo2).toNat = desc.packetSize speed := by
  rw [epInfo2_eq, ctxToEpType, ctxToMaxBurst, maxPacketDecoded]
  simp (disch := decide) only [get_or, get_put_of_disjoint, BitVec.or_zero, BitVec.zero_or]
  refine ⟨?_, ?_, get_put_ofNat (by decide) (desc.burst_lt speed), get_put_ofNat (by decide) (desc.packetSize_lt speed)⟩
  · by_cases isoc : desc.xfer = .isoc
    · rw [if_neg (not_not.mpr isoc), if_pos isoc]
      rfl
    · rw [if_pos isoc, if_neg isoc]
      rfl
  · rw [get_put (by decide), and_ones (by decide) desc.getEndpointType_lt]

theorem read_txInfo : (ctxToMaxEsitPayload (endpointInit hciVersion speed desc dma).txInfo).toNat = desc.getMaxEsitPayload speed ∧
    (get 0 16 (endpointInit hciVersion speed desc dma).txInfo).toNat =
      if desc.xfer = .control ∧ hciVersion = 0x100 then 8 else desc.getMaxEsitPayload speed := by
  unfold ctxToMaxEsitPayload endpointInit maxEsitPayloadForEp avgTrbLengthForEp
  simp (disch := decide) only [get_or, get_put_of_disjoint, BitVec.or_zero, BitVec.zero_or]
  constructor
  · exact get_put_ofNat (by decide) (desc.getMaxEsitPayload_lt speed)
  · by_cases control : desc.xfer = .control ∧ hciVersion = 0x100
    · rw [if_pos control, if_pos control]
      rfl
    · rw [if_neg control, if_neg control, get_put_ofNat (by decide) (desc.getMaxEsitPayload_lt speed)]

/-- A segment of a ring begins at a multiple of 16, so the cycle state has room below. -/
theorem read_deq {dma : BitVec 64} (aligned : dma &&& 0xf = 0) : (dma ||| 1) &&& ~~~0xf = dma ∧ (dma ||| 1).getLsbD 0 = true := by
  have low : ∀ i < 4, dma.getLsbD i = false := by
    intro i small
    have bit := congrArg (BitVec.getLsbD · i) aligned
    interval_cases i <;> simpa using bit
  constructor
  · apply BitVec.eq_of_getLsbD_eq
    intro i inside
    by_cases small : i < 4
    · rw [low i small]
      interval_cases i <;> simp
    · have one : (1 : BitVec 64).getLsbD i = false := by
        rw [show (1 : BitVec 64) = ones 64 1 from rfl, getLsbD_ones]
        simp
        omega
      have mask : (0xf : BitVec 64).getLsbD i = false := by
        rw [show (0xf : BitVec 64) = ones 64 4 from rfl, getLsbD_ones]
        simp [small]
      rw [BitVec.getLsbD_and, BitVec.getLsbD_or, BitVec.getLsbD_not, one, mask, decide_eq_true inside]
      simp
  · simp

end Init

/-- The account of a periodic endpoint, which counts packets and bursts from one. -/
def EndpointDesc.account (desc : EndpointDesc) (speed : Speed) : BwInfo :=
  ⟨desc.getEndpointInterval speed, (if speed = .super ∧ desc.xfer = .isoc then desc.compAttributes.toNat % 4 else 0) + 1,
    desc.burst speed + 1, desc.getMaxPacket, desc.getMaxEsitPayload speed, desc.getEndpointType⟩

theorem updateBwInfo_endpointInit (hciVersion : ℕ) (speed : Speed) (desc : EndpointDesc) (dma : BitVec 64) (dropped : Bool)
    (old : BwInfo) : updateBwInfo true dropped (endpointInit hciVersion speed desc dma) old =
      if desc.periodic then desc.account speed else old := by
  obtain ⟨interval, mult⟩ := read_epInfo hciVersion speed desc dma
  obtain ⟨errors, type, burst, packet⟩ := read_epInfo2 hciVersion speed desc dma
  obtain ⟨payload, average⟩ := read_txInfo hciVersion speed desc dma
  have update : updateBwInfo true dropped (endpointInit hciVersion speed desc dma) old =
      if isAsyncEp desc.getEndpointType then old
      else { desc.account speed with maxPacketSize := desc.packetSize speed } := by
    rw [updateBwInfo, interval, mult, type, burst, packet, payload]
    rfl
  rw [update, desc.isAsyncEp_getEndpointType]
  cases periodic : desc.periodic with
  | false => rfl
  | true =>
    rw [desc.packetSize_of_periodic periodic]
    rfl

/-- The controller finds in the context of an endpoint what the descriptors say, and so
    does the account of the bandwidth for a periodic endpoint. -/
theorem endpointInit_read (hciVersion : ℕ) (speed : Speed) (desc : EndpointDesc) (dma : BitVec 64) (aligned : dma &&& 0xf = 0) :
    (endpointInit hciVersion speed desc dma).read = desc.described hciVersion speed dma ∧
    ∀ dropped old, updateBwInfo true dropped (endpointInit hciVersion speed desc dma) old =
      if desc.periodic then desc.account speed else old := by
  obtain ⟨interval, mult⟩ := read_epInfo hciVersion speed desc dma
  obtain ⟨errors, type, burst, packet⟩ := read_epInfo2 hciVersion speed desc dma
  obtain ⟨payload, average⟩ := read_txInfo hciVersion speed desc dma
  obtain ⟨dequeue, cycle⟩ := read_deq aligned
  constructor
  · unfold EpCtx.read EndpointDesc.described
    congr 1
  · exact updateBwInfo_endpointInit hciVersion speed desc dma

/-- A microphone at high speed: two packets of 512 bytes in every microframe. -/
def microphone : EndpointDesc := ⟨.isoc, true, 0xa00, 1, 0, 0, 0⟩

theorem endpointInit_read_microphone :
    (endpointInit 0x100 .high microphone 0x1000).read = microphone.described 0x100 .high 0x1000 ∧
    ∀ dropped old, updateBwInfo true dropped (endpointInit 0x100 .high microphone 0x1000) old =
      if microphone.periodic then microphone.account .high else old :=
  endpointInit_read 0x100 .high microphone 0x1000 (by decide)

/-! ### Intervals -/

/-- The interval that a periodic endpoint asks for, in microframes. -/
def EndpointDesc.asks (desc : EndpointDesc) : Speed → ℕ
  | .high | .super => 2 ^ (desc.bInterval.toNat - 1)
  | .full => if desc.xfer = .isoc then 8 * 2 ^ (desc.bInterval.toNat - 1) else 8 * desc.bInterval.toNat
  | .low => 8 * desc.bInterval.toNat

/-- Whether `bInterval` is an exponent. -/
def EndpointDesc.exponential (desc : EndpointDesc) : Speed → Bool
  | .high | .super => true
  | .full => desc.xfer = .isoc
  | .low => false

/-- The numbers that the USB core lets through. -/
def EndpointDesc.Valid (desc : EndpointDesc) (speed : Speed) : Prop :=
  1 ≤ desc.bInterval.toNat ∧ (desc.exponential speed = true → desc.bInterval.toNat ≤ 16)

theorem clampVal_of_mem {x lo hi : ℕ} (above : lo ≤ x) (below : x ≤ hi) : clampVal x lo hi = x := by
  unfold clampVal
  omega

/-- Rounded down to a power of two. -/
theorem microframesToExponent_spec {x lo hi : ℕ} (word : hi < 32) (above : 2 ^ lo ≤ x) (below : x < 2 ^ (hi + 1)) :
    2 ^ EndpointDesc.microframesToExponent x lo hi ≤ x ∧ x < 2 * 2 ^ EndpointDesc.microframesToExponent x lo hi := by
  have positive : x ≠ 0 := by
    have := Nat.two_pow_pos lo
    omega
  have lower : lo ≤ x.log2 := (Nat.le_log2 positive).mpr above
  have upper : x.log2 ≤ hi := Nat.lt_succ_iff.mp ((Nat.log2_lt positive).mpr below)
  have wrapped : (fls x + (2 ^ 32 - 1)) % 2 ^ 32 = x.log2 := by
    rw [fls, if_neg positive]
    omega
  rw [EndpointDesc.microframesToExponent, wrapped, clampVal_of_mem lower upper]
  constructor
  · exact Nat.log2_self_le positive
  · have next : x < 2 ^ (x.log2 + 1) := Nat.lt_log2_self
    rwa [pow_succ, mul_comm] at next

namespace EndpointDesc
variable {desc : EndpointDesc} {speed : Speed}

theorem parseExponentInterval_eq (valid : 1 ≤ desc.bInterval.toNat ∧ desc.bInterval.toNat ≤ 16) :
    desc.parseExponentInterval speed = desc.bInterval.toNat - 1 + if speed = .full then 3 else 0 := by
  rw [parseExponentInterval, clampVal_of_mem valid.1 valid.2]

theorem parseFrameInterval_spec (positive : 1 ≤ desc.bInterval.toNat) :
    2 ^ desc.parseFrameInterval ≤ 8 * desc.bInterval.toNat ∧ 8 * desc.bInterval.toNat < 2 * 2 ^ desc.parseFrameInterval := by
  have byte := desc.bInterval.isLt
  rw [mul_comm 8]
  apply microframesToExponent_spec <;> omega

theorem getEndpointInterval_spec (periodic : desc.periodic = true) (valid : desc.Valid speed) :
    2 ^ desc.getEndpointInterval speed ≤ desc.asks speed ∧ desc.asks speed < 2 * 2 ^ desc.getEndpointInterval speed := by
  obtain ⟨positive, few⟩ := valid
  cases speed with
  | low =>
    have exponent : desc.getEndpointInterval .low = desc.parseFrameInterval := if_pos periodic
    rw [exponent]
    exact parseFrameInterval_spec positive
  | full =>
    by_cases isoc : desc.xfer = .isoc
    · have exponent : desc.getEndpointInterval .full = desc.parseExponentInterval .full := if_pos isoc
      have small : desc.bInterval.toNat ≤ 16 := few (by simpa [exponential] using isoc)
      rw [exponent, parseExponentInterval_eq ⟨positive, small⟩, if_pos rfl, pow_add, asks, if_pos isoc, mul_comm]
      have := Nat.two_pow_pos (desc.bInterval.toNat - 1)
      omega
    · have interrupt : desc.xfer = .interrupt := by simpa [EndpointDesc.periodic, isoc] using periodic
      have exponent : desc.getEndpointInterval .full = desc.parseFrameInterval := (if_neg isoc).trans (if_pos interrupt)
      rw [exponent, asks, if_neg isoc]
      exact parseFrameInterval_spec positive
  | high =>
    have exponent : desc.getEndpointInterval .high = desc.parseExponentInterval .high := if_pos periodic
    rw [exponent, parseExponentInterval_eq ⟨positive, few rfl⟩, if_neg (by decide), add_zero, asks]
    have := Nat.two_pow_pos (desc.bInterval.toNat - 1)
    omega
  | super =>
    have exponent : desc.getEndpointInterval .super = desc.parseExponentInterval .super := if_pos periodic
    rw [exponent, parseExponentInterval_eq ⟨positive, few rfl⟩, if_neg (by decide), add_zero, asks]
    have := Nat.two_pow_pos (desc.bInterval.toNat - 1)
    omega

/-- A full- or low-speed endpoint is served once in a frame at most. -/
theorem frame_le_getEndpointInterval (frames : inFrames speed = true) (periodic : desc.periodic = true) :
    3 ≤ desc.getEndpointInterval speed := by
  have frame : 3 ≤ desc.parseFrameInterval := (microframesToExponent_bounds (by omega)).1
  cases speed with
  | low => exact le_of_le_of_eq frame (if_pos periodic).symm
  | full =>
    by_cases isoc : desc.xfer = .isoc
    · have exponent : desc.getEndpointInterval .full = desc.parseExponentInterval .full := if_pos isoc
      rw [exponent, parseExponentInterval, if_pos rfl]
      omega
    · have interrupt : desc.xfer = .interrupt := by simpa [EndpointDesc.periodic, isoc] using periodic
      exact le_of_le_of_eq frame ((if_neg isoc).trans (if_pos interrupt)).symm
  | high => cases frames
  | super => cases frames

end EndpointDesc

/-- The interval of a URB becomes that of the controller, in frames when the URB counts
    frames. -/
theorem urbInterval_eq {speed : Speed} {epInfo : BitVec 32} (interval : ℕ)
    (frames : inFrames speed = true → 8 ∣ epIntervalToUframes epInfo) :
    urbInterval speed epInfo interval * (if inFrames speed then 8 else 1) = epIntervalToUframes epInfo := by
  unfold urbInterval
  cases counts : inFrames speed with
  | false =>
    by_cases same : epIntervalToUframes epInfo = interval
    · simp [same]
    · simp [same]
  | true =>
    by_cases same : epIntervalToUframes epInfo = interval * 8
    · simp [same]
    · simpa [same] using Nat.div_mul_cancel (frames counts)

/-- A periodic endpoint is served at least as often as its descriptor asks for, and less
    than twice as often, and a URB that has been queued says how often. -/
theorem interval_granted (hciVersion : ℕ) (speed : Speed) (desc : EndpointDesc) (dma : BitVec 64) (interval : ℕ)
    (periodic : desc.periodic = true) (valid : desc.Valid speed) :
    let epInfo := (endpointInit hciVersion speed desc dma).epInfo
    epIntervalToUframes epInfo ≤ desc.asks speed ∧ desc.asks speed < 2 * epIntervalToUframes epInfo ∧
      urbInterval speed epInfo interval * (if inFrames speed then 8 else 1) = epIntervalToUframes epInfo := by
  intro epInfo
  have uframes : epIntervalToUframes epInfo = 2 ^ desc.getEndpointInterval speed := by
    rw [epIntervalToUframes, (read_epInfo hciVersion speed desc dma).1]
  obtain ⟨lower, upper⟩ := EndpointDesc.getEndpointInterval_spec periodic valid
  rw [← uframes] at lower upper
  refine ⟨lower, upper, urbInterval_eq interval ?_⟩
  intro frames
  rw [uframes]
  exact pow_dvd_pow 2 (EndpointDesc.frame_le_getEndpointInterval frames periodic)

/-- A full-speed interrupt endpoint that asks for 10 frames gets 8. -/
def mouse : EndpointDesc := ⟨.interrupt, true, 8, 10, 0, 0, 0⟩

theorem interval_granted_mouse : epIntervalToUframes (endpointInit 0x100 .full mouse 0x1000).epInfo ≤ 80 ∧
    80 < 2 * epIntervalToUframes (endpointInit 0x100 .full mouse 0x1000).epInfo ∧
    urbInterval .full (endpointInit 0x100 .full mouse 0x1000).epInfo 10 * 8 =
      epIntervalToUframes (endpointInit 0x100 .full mouse 0x1000).epInfo :=
  interval_granted 0x100 .full mouse 0x1000 10 (by decide) (by unfold EndpointDesc.Valid; decide)

end Ehub.EndpointContext
