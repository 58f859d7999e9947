import Mathlib
import Ehub.Cuts
import Ehub.Isoc

/-!
Bulk and interrupt transfers (`queue_bulk_sg_tx` and `ehub_xhci_queue_bulk_tx`). A
transfer is one TD, and no TRB of it may cross a 64KB boundary of the address space.
Both functions count the TRBs first, to make room for them, and then go over the
buffers a second time to queue them. Nothing but arithmetic keeps the two in step: the
chain bit, the interrupt and the place of the last TRB follow the count.

The C types `int` and `unsigned int` are both words of 32 bits here; a comparison is
signed or unsigned as the source's types make it. The buffers of these transfers are not
kept in the device's memory, and a TRB has the host's address of its data.
-/
namespace Ehub.Bulk
open Ehub.Cuts Ehub.Ring Ehub.RingAccount
open Ehub.RingShape (Queue nonlinks nonlinks_cons stored)
open Ehub.RingFifo (Kept kept_stored kept_linkGiven cacheCopyFromRing_eq)

/-- An entry of a mapped scatter-gather list: `sg_dma_address` and `sg_dma_len`. -/
structure Sg where
  dmaAddress : BitVec 64
  dmaLength : BitVec 32

/-- A bulk or interrupt URB. The list has the mapped entries; `maxp` is what
    `usb_endpoint_maxp` says of the endpoint. -/
structure Urb where
  transferBuffer : BitVec 64
  transferBufferLength : BitVec 32
  sg : List Sg
  dirIn : Bool
  maxp : BitVec 16

def trbMaxBuffSize : BitVec 32 := 65536

/-- `TRB_MAX_BUFF_SIZE - (addr & (TRB_MAX_BUFF_SIZE - 1))`. -/
def toBoundary (addr : BitVec 64) : BitVec 32 := (65536 - (addr &&& 0xffff)).setWidth 32

/-- `min_t(int, a, b)`. -/
def minInt (a b : BitVec 32) : BitVec 32 := if a.slt b then a else b

/-- The loop that counts a TRB for every window of 64KB; nothing when it would not end. -/
def countLoop (goesOn : BitVec 32 → Bool) : Nat → BitVec 32 → BitVec 32 → Option (BitVec 32)
  | 0, _, _ => none
  | fuel + 1, runningTotal, numTrbs =>
    if goesOn runningTotal then countLoop goesOn fuel (runningTotal + trbMaxBuffSize) (numTrbs + 1) else some numTrbs

/-- The running total takes this many values in steps of 64KB. -/
def countFuel : Nat := 65537

/-- What `count_sg_trbs_needed` counts for one entry, when `temp` bytes are left. -/
def countEntry (sg : Sg) (temp numTrbs : BitVec 32) : Option (BitVec 32) :=
  let runningTotal := toBoundary sg.dmaAddress &&& (trbMaxBuffSize - 1)
  let numTrbs := if runningTotal ≠ 0 then numTrbs + 1 else numTrbs
  countLoop (fun t => t.ult sg.dmaLength && t.slt temp) countFuel runningTotal numTrbs

/-- The loop of `count_sg_trbs_needed` over the entries. -/
def countSgLoop : List Sg → BitVec 32 → BitVec 32 → Option (BitVec 32)
  | [], _, numTrbs => some numTrbs
  | sg :: sgs, temp, numTrbs =>
    (countEntry sg temp numTrbs).bind fun numTrbs =>
      let temp := temp - minInt sg.dmaLength temp
      if temp = 0 then some numTrbs else countSgLoop sgs temp numTrbs

/-- `count_sg_trbs_needed`. -/
def countSgTrbsNeeded (urb : Urb) : Option (BitVec 32) := countSgLoop urb.sg urb.transferBufferLength 0

/-- The TRBs that `ehub_xhci_queue_bulk_tx` reserves. -/
def countTrbsNeeded (urb : Urb) : Option (BitVec 32) :=
  let runningTotal := toBoundary urb.transferBuffer &&& (trbMaxBuffSize - 1)
  let numTrbs := if runningTotal ≠ 0 ∨ urb.transferBufferLength = 0 then 1 else 0
  countLoop (fun t => t.ult urb.transferBufferLength) countFuel runningTotal numTrbs

/-- `GET_MAX_PACKET`. -/
def getMaxPacket (maxp : BitVec 16) : BitVec 32 := maxp.setWidth 32 &&& 0x7ff

/-- `DIV_ROUND_UP`. -/
def divRoundUp (n d : BitVec 32) : BitVec 32 := (n + d - 1) / d

/-- `xhci_td_remainder`. -/
def tdRemainder (remainder : BitVec 32) : BitVec 32 :=
  if 31 ≤ remainder >>> 10 then 31 <<< 17 else (remainder >>> 10) <<< 17

/-- `xhci_v1_0_td_remainder`. -/
def v10TdRemainder (runningTotal trbBuffLen totalPacketCount : BitVec 32) (maxp : BitVec 16)
    (numTrbsLeft : BitVec 32) : BitVec 32 :=
  if numTrbsLeft = 0 ∨ (runningTotal = 0 ∧ trbBuffLen = 0) then 0
  else
    let packetsTransferred := (runningTotal + trbBuffLen).sdiv (getMaxPacket maxp)
    if 31 < totalPacketCount - packetsTransferred then 31 <<< 17 else (totalPacketCount - packetsTransferred) <<< 17

/-- `TRB_LEN`. -/
def trbLen (p : BitVec 32) : BitVec 32 := p &&& 0x1ffff

/-- The variables of the loop that queues the TRBs, with the entries behind the current
    one, and the calls of `queue_trb`: where each TRB went, and what it was. -/
structure Tx where
  ring : Ring
  numTrbs : BitVec 32
  runningTotal : BitVec 32
  sgs : List Sg
  addr : BitVec 64
  thisSgLen : BitVec 32
  trbBuffLen : BitVec 32
  firstTrb : Bool
  lastTrb : Option TrbPtr
  queued : List (TrbPtr × Trb)

/-- What stays the same in the loop: the controller, the URB, the packets of the TD and the
    cycle state at its beginning. The two functions differ in the type of the number of
    TRBs that are left, and in how they go on: `next` works out where the next TRB
    begins and how long it is, and has nothing to say when the source breaks off. -/
structure Setup where
  q : Quirks
  hciVersion : BitVec 16
  urb : Urb
  totalPacketCount : BitVec 32
  startCycle : Bool
  moreThanOne : BitVec 32 → Bool
  next : Tx → Option Tx

/-- The TD size of a TRB. -/
def Setup.remainder (s : Setup) (runningTotal trbBuffLen numTrbs : BitVec 32) : BitVec 32 :=
  if s.hciVersion < 0x100 then tdRemainder (s.urb.transferBufferLength - runningTotal)
  else v10TdRemainder runningTotal trbBuffLen s.totalPacketCount s.urb.maxp (numTrbs - 1)

/-- One TRB is queued. -/
def queuePiece (s : Setup) (x : Tx) : Tx :=
  let more := s.moreThanOne x.numTrbs
  let cycle : BitVec 32 :=
    if x.firstTrb then (if s.startCycle then 0 else 1) else if x.ring.cycleState then 1 else 0
  let field := cycle ||| (if more then Trb.trbChain else Isoc.trbIoc) ||| (if s.urb.dirIn then Isoc.trbIsp else 0)
  let lengthField := trbLen x.trbBuffLen ||| s.remainder x.runningTotal x.trbBuffLen x.numTrbs
  let trb : Trb :=
    ⟨x.addr.extractLsb' 0 32, x.addr.extractLsb' 32 32, lengthField, field ||| Trb.trbType Isoc.trbNormal⟩
  { x with
    firstTrb := false
    lastTrb := if more then x.lastTrb else some x.ring.enqueue
    ring := x.ring.queueTrb s.q more trb
    queued := x.queued ++ [(x.ring.enqueue, trb)]
    numTrbs := x.numTrbs - 1
    runningTotal := x.runningTotal + x.trbBuffLen }

/-- The loop that queues the TRBs. -/
def queueLoop (s : Setup) : Nat → Tx → Option Tx
  | 0, _ => none
  | fuel + 1, x =>
    let x := queuePiece s x
    match s.next x with
    | none => some x
    | some x => if x.runningTotal.ult s.urb.transferBufferLength then queueLoop s fuel x else some x

/-- The length of a TRB of `queue_bulk_sg_tx`; nothing has been queued before the first
    one. -/
def sgBuffLen (urb : Urb) (addr : BitVec 64) (thisSgLen runningTotal : BitVec 32) : BitVec 32 :=
  let trbBuffLen := minInt (toBoundary addr) thisSgLen
  if urb.transferBufferLength.ult (runningTotal + trbBuffLen) then urb.transferBufferLength - runningTotal
  else trbBuffLen

/-- How `queue_bulk_sg_tx` goes on. -/
def sgNext (urb : Urb) (x : Tx) : Option Tx :=
  let thisSgLen := x.thisSgLen - x.trbBuffLen
  if thisSgLen = 0 then
    match x.sgs with
    | [] => none
    | sg :: sgs => some { x with
        sgs := sgs
        addr := sg.dmaAddress
        thisSgLen := sg.dmaLength
        trbBuffLen := sgBuffLen urb sg.dmaAddress sg.dmaLength x.runningTotal }
  else
    let addr := x.addr + x.trbBuffLen.signExtend 64
    some { x with addr := addr, thisSgLen := thisSgLen, trbBuffLen := sgBuffLen urb addr thisSgLen x.runningTotal }

/-- How `ehub_xhci_queue_bulk_tx` goes on. -/
def bulkNext (urb : Urb) (x : Tx) : Option Tx :=
  let trbBuffLen := urb.transferBufferLength - x.runningTotal
  some { x with
    addr := x.addr + x.trbBuffLen.signExtend 64
    trbBuffLen := if trbMaxBuffSize.slt trbBuffLen then trbMaxBuffSize else trbBuffLen }

/-- `check_trb_math` finds nothing to complain about. -/
def checkTrbMath (urb : Urb) (x : Tx) : Bool := x.numTrbs == 0 && x.runningTotal == urb.transferBufferLength

/-- What a call leaves: its result, the ring, and once the TRBs have been queued
    `td->last_trb`, the calls of `queue_trb` and whether the numbers came out right. -/
structure Outcome where
  status : Int
  ring : Ring
  lastTrb : Option TrbPtr
  queued : List (TrbPtr × Trb)
  mathOk : Bool

/-- The part of both functions from `prepare_transfer` on, for `numTrbs` TRBs and with the
    loop variables as `begin` sets them. -/
def queueTx (q : Quirks) (hciVersion : BitVec 16) (urb : Urb) (numTrbs : BitVec 32) (moreThanOne : BitVec 32 → Bool)
    (next : Tx → Option Tx) (begin : Ring → Tx) (env : Isoc.Env) (r : Ring) : Option Outcome :=
  match Isoc.prepareTransfer q r numTrbs.toNat 0 env with
  | (0, r) =>
    let totalPacketCount := divRoundUp urb.transferBufferLength (urb.maxp.setWidth 32)
    let setup : Setup := ⟨q, hciVersion, urb, totalPacketCount, r.cycleState, moreThanOne, next⟩
    match queueLoop setup (urb.transferBufferLength.toNat + urb.sg.length + 1) (begin r) with
    | none => none
    | some x => some ⟨0, x.ring.givebackFirstTrb r.cycleState r.enqueue env.write, x.lastTrb, x.queued, checkTrbMath urb x⟩
  | (error, r) => some ⟨error, r, none, [], true⟩

/-- `queue_bulk_sg_tx`, for a list that is not empty. -/
def queueBulkSgTx (q : Quirks) (hciVersion : BitVec 16) (urb : Urb) (env : Isoc.Env) (r : Ring) : Option Outcome :=
  match urb.sg, countSgTrbsNeeded urb with
  | sg :: sgs, some numTrbs =>
    queueTx q hciVersion urb numTrbs (fun n => (1 : BitVec 32).ult n) (sgNext urb)
      (fun r => ⟨r, numTrbs, 0, sgs, sg.dmaAddress, sg.dmaLength, sgBuffLen urb sg.dmaAddress sg.dmaLength 0, true, none, []⟩)
      env r
  | _, _ => none

/-- `ehub_xhci_queue_bulk_tx` for an URB without a scatter-gather list. -/
def queueBulkTx (q : Quirks) (hciVersion : BitVec 16) (urb : Urb) (env : Isoc.Env) (r : Ring) : Option Outcome :=
  match countTrbsNeeded urb with
  | some numTrbs =>
    let trbBuffLen := toBoundary urb.transferBuffer
    let trbBuffLen := if urb.transferBufferLength.ult trbBuffLen then urb.transferBufferLength else trbBuffLen
    queueTx q hciVersion urb numTrbs (fun n => (1 : BitVec 32).slt n) (bulkNext urb)
      (fun r => ⟨r, numTrbs, 0, [], urb.transferBuffer, 0, trbBuffLen, true, none, []⟩) env r
  | none => none

/-! ### Words as numbers -/

section
variable {a b c : BitVec 32}

theorem slt_toNat (small : a.toNat < 2 ^ 31) (small' : b.toNat < 2 ^ 31) : a.slt b = decide (a.toNat < b.toNat) := by
  rw [BitVec.slt, BitVec.toInt_eq_toNat_of_lt (by omega), BitVec.toInt_eq_toNat_of_lt (by omega)]
  simp

/-- A word beyond the signed range is not below `b` as an unsigned number. -/
theorem ult_and_slt (small : b.toNat < 2 ^ 31) (small' : c.toNat < 2 ^ 31) :
    (a.ult b && a.slt c) = decide (a.toNat < min b.toNat c.toNat) := by
  by_cases within : a.toNat < 2 ^ 31
  · rw [slt_toNat within small', BitVec.ult]
    simp
  · rw [BitVec.ult, decide_eq_false (by omega), Bool.false_and, decide_eq_false (by omega)]

theorem minInt_toNat (small : a.toNat < 2 ^ 31) (small' : b.toNat < 2 ^ 31) : (minInt a b).toNat = min a.toNat b.toNat := by
  rw [minInt, slt_toNat small small']
  split_ifs with below
  · have := of_decide_eq_true below
    omega
  · have := of_decide_eq_false (Bool.not_eq_true _ ▸ below)
    omega

theorem signExtend_eq (small : a.toNat < 2 ^ 31) : a.signExtend 64 = ((a.toNat : Nat) : BitVec 64) := by
  rw [BitVec.signExtend_eq_setWidth_of_msb_false (by rw [BitVec.msb_eq_decide]; simp; omega)]
  apply BitVec.eq_of_toNat_eq
  simp

theorem toBoundary_toNat (addr : BitVec 64) : (toBoundary addr).toNat = 65536 - addr.toNat % 65536 := by
  have masked : (addr &&& 0xffff).toNat = addr.toNat % 65536 := by
    rw [BitVec.toNat_and]
    exact Nat.and_two_pow_sub_one_eq_mod addr.toNat 16
  have below := Nat.mod_lt addr.toNat (show 0 < 65536 by decide)
  rw [toBoundary, BitVec.toNat_setWidth, BitVec.toNat_sub, masked]
  simp
  omega

/-- Where an address lies between two boundaries is not lost when it wraps around. -/
theorem toNat_add_mod (addr : BitVec 64) (n : Nat) : (addr + (n : BitVec 64)).toNat % 65536 = (addr.toNat + n) % 65536 := by
  rw [BitVec.toNat_add]
  simp

theorem toBoundary_and (addr : BitVec 64) :
    (toBoundary addr &&& (trbMaxBuffSize - 1)).toNat = (65536 - addr.toNat % 65536) % 65536 := by
  rw [BitVec.toNat_and, toBoundary_toNat]
  exact Nat.and_two_pow_sub_one_eq_mod (65536 - addr.toNat % 65536) 16

end

/-! ### Counting -/

/-- A TRB for every round of the loop, which goes on below `n`. -/
theorem countLoop_rounds {goesOn : BitVec 32 → Bool} {n : Nat} (small : n < 2 ^ 31)
    (below : ∀ t, goesOn t = decide (t.toNat < n)) : ∀ (fuel : Nat) (t numTrbs : BitVec 32), (n - t.toNat + 65535) / 65536 < fuel →
    countLoop goesOn fuel t numTrbs = some (numTrbs + BitVec.ofNat 32 ((n - t.toNat + 65535) / 65536)) := by
  intro fuel
  induction fuel with
  | zero =>
    intro t numTrbs room
    omega
  | succ fuel ih =>
    intro t numTrbs room
    rw [countLoop, below]
    by_cases again : t.toNat < n
    · have next : (t + trbMaxBuffSize).toNat = t.toNat + 65536 := by
        rw [BitVec.toNat_add, trbMaxBuffSize]
        simp
        omega
      have rounds : (n - t.toNat + 65535) / 65536 = (n - (t.toNat + 65536) + 65535) / 65536 + 1 := by omega
      rw [if_pos (decide_eq_true again), ih _ _ (by rw [next]; omega), next, rounds, BitVec.ofNat_add, BitVec.add_assoc,
        BitVec.add_comm 1]
      rfl
    · rw [if_neg (by simpa using again), show n - t.toNat = 0 by omega]
      simp

/-- A transfer of `n` bytes at `a` in windows of 64KB. -/
abbrev pieces (a : BitVec 64) (n : Nat) : List (BitVec 64 × Nat) := parts BitVec.toNat 65536 a n

theorem pieces_pos {a : BitVec 64} {n : Nat} (some_length : 0 < n) : pieces a n =
    (a, min (65536 - a.toNat % 65536) n) ::
      pieces (a + (min (65536 - a.toNat % 65536) n : Nat)) (n - min (65536 - a.toNat % 65536) n) :=
  parts_pos (by decide) toNat_add_mod some_length

/-- The count of both functions for one stretch of memory: what lies before the first
    boundary, and the rounds of the loop behind it. -/
theorem countLoop_pieces {goesOn : BitVec 32 → Bool} {n : Nat} (a : BitVec 64) (some_length : 0 < n) (small : n < 2 ^ 31)
    (below : ∀ t, goesOn t = decide (t.toNat < n)) (numTrbs : BitVec 32) :
    countLoop goesOn countFuel (toBoundary a &&& (trbMaxBuffSize - 1))
        (if toBoundary a &&& (trbMaxBuffSize - 1) ≠ 0 then numTrbs + 1 else numTrbs) =
      some (numTrbs + BitVec.ofNat 32 (pieces a n).length) := by
  have aligned : toBoundary a &&& (trbMaxBuffSize - 1) = 0 ↔ (65536 - a.toNat % 65536) % 65536 = 0 := by
    rw [← toBoundary_and, ← BitVec.toNat_inj]
    rfl
  rw [countLoop_rounds small below _ _ _ (by rw [countFuel]; omega), toBoundary_and, length_parts (by decide),
    windows_rounds (by decide) some_length, BitVec.ofNat_add, ← BitVec.add_assoc]
  congr 2
  by_cases zero : (65536 - a.toNat % 65536) % 65536 = 0
  · rw [if_pos zero, if_neg (by simpa using aligned.mpr zero)]
    simp
  · rw [if_neg zero, if_pos (by simpa using mt aligned.mp zero)]
    rfl

/-- The pieces of the first `n` bytes of a scatter-gather list. -/
def sgPieces : Nat → List Sg → List (BitVec 64 × Nat)
  | _, [] => []
  | n, sg :: sgs =>
    pieces sg.dmaAddress (min sg.dmaLength.toNat n) ++ sgPieces (n - min sg.dmaLength.toNat n) sgs

@[simp] theorem sgPieces_zero : ∀ sgs, sgPieces 0 sgs = [] := by
  intro sgs
  induction sgs with
  | nil => rfl
  | cons sg sgs ih => simp [sgPieces, ih]

/-- The bytes of a scatter-gather list, by their addresses. -/
def sgBytes (sgs : List Sg) : List (BitVec 64) := sgs.flatMap fun sg => bytes sg.dmaAddress sg.dmaLength.toNat

theorem take_bytes (a : BitVec 64) (n k : Nat) : (bytes a n).take k = bytes a (min n k) := by
  rw [bytes, bytes, ← List.map_take, List.take_range, Nat.min_comm]

theorem bytes_sgPieces : ∀ (sgs : List Sg) (n : Nat),
    ((sgPieces n sgs).flatMap fun p => bytes p.1 p.2) = (sgBytes sgs).take n := by
  intro sgs
  induction sgs with
  | nil => simp [sgPieces, sgBytes]
  | cons sg sgs ih =>
    intro n
    have split : sgBytes (sg :: sgs) = bytes sg.dmaAddress sg.dmaLength.toNat ++ sgBytes sgs := rfl
    rw [sgPieces, List.flatMap_append, bytes_parts (by decide), ih, split, List.take_append, take_bytes, length_bytes]
    congr 2
    omega

theorem sgPieces_inside : ∀ {sgs : List Sg} {n : Nat}, ∀ p ∈ sgPieces n sgs, 0 < p.2 ∧ p.1.toNat % 65536 + p.2 ≤ 65536 := by
  intro sgs
  induction sgs with
  | nil => simp [sgPieces]
  | cons sg sgs ih =>
    intro n p member
    rw [sgPieces, List.mem_append] at member
    rcases member with here | later
    · exact parts_inside (by decide) toNat_add_mod p here
    · exact ih p later

/-- The length of a list whose first `n` bytes are transferred. -/
def sgLength (sgs : List Sg) : Nat := (sgs.map (·.dmaLength.toNat)).sum

theorem sum_sgPieces : ∀ {sgs : List Sg} {n : Nat}, n ≤ sgLength sgs → ((sgPieces n sgs).map Prod.snd).sum = n := by
  intro sgs
  induction sgs with
  | nil =>
    intro n enough
    simp [sgLength] at enough
    simp [sgPieces, enough]
  | cons sg sgs ih =>
    intro n enough
    rw [sgLength, List.map_cons, List.sum_cons] at enough
    rw [sgPieces, List.map_append, List.sum_append, pieces, parts, snd_placed, sum_cuts (by decide),
      ih (by rw [sgLength]; omega)]
    omega

/-- There are no more pieces than bytes. -/
theorem length_le_sum {ps : List (BitVec 64 × Nat)} (nonempty : ∀ p ∈ ps, 0 < p.2) : ps.length ≤ (ps.map Prod.snd).sum := by
  have counted := List.length_le_sum_of_one_le (ps.map Prod.snd) (by
    intro n member
    obtain ⟨p, here, rfl⟩ := List.mem_map.mp member
    exact nonempty p here)
  rwa [List.length_map] at counted

/-- What the counting loop looks at: the lengths are `int` values, and none is zero. -/
def ProperSgs (sgs : List Sg) : Prop := ∀ sg ∈ sgs, 0 < sg.dmaLength.toNat ∧ sg.dmaLength.toNat < 2 ^ 31

theorem countSgLoop_pieces : ∀ {sgs : List Sg} {temp : BitVec 32} (numTrbs : BitVec 32), ProperSgs sgs → 0 < temp.toNat →
    temp.toNat < 2 ^ 31 →
    countSgLoop sgs temp numTrbs = some (numTrbs + BitVec.ofNat 32 (sgPieces temp.toNat sgs).length) := by
  intro sgs
  induction sgs with
  | nil =>
    intro temp numTrbs _ _ _
    simp [countSgLoop, sgPieces]
  | cons sg sgs ih =>
    intro temp numTrbs proper some_left small
    obtain ⟨some_length, fits⟩ := proper sg (by simp)
    have left : (temp - minInt sg.dmaLength temp).toNat = temp.toNat - min sg.dmaLength.toNat temp.toNat := by
      rw [BitVec.toNat_sub_of_le (by rw [BitVec.le_def, minInt_toNat fits small]; omega), minInt_toNat fits small]
    have counted : countEntry sg temp numTrbs =
        some (numTrbs + BitVec.ofNat 32 (pieces sg.dmaAddress (min sg.dmaLength.toNat temp.toNat)).length) :=
      countLoop_pieces sg.dmaAddress (by omega) (by omega) (fun t => ult_and_slt fits small) numTrbs
    rw [countSgLoop, counted, Option.bind_some]
    simp only
    rw [sgPieces, List.length_append, BitVec.ofNat_add, ← BitVec.add_assoc, ← left]
    by_cases all : temp - minInt sg.dmaLength temp = 0
    · rw [if_pos all, all]
      simp
    · have more : 0 < (temp - minInt sg.dmaLength temp).toNat := by
        rw [Nat.pos_iff_ne_zero]
        exact fun none => all (BitVec.eq_of_toNat_eq none)
      rw [if_neg all, ih _ (fun e member => proper e (List.mem_cons_of_mem _ member)) more (by omega)]

/-! ### Queueing -/

/-- The control word of a TRB, but for its cycle bit. -/
def control (urb : Urb) (isLast : Bool) : BitVec 32 :=
  (if isLast then Isoc.trbIoc else Trb.trbChain) ||| (if urb.dirIn then Isoc.trbIsp else 0) ||| Trb.trbType Isoc.trbNormal

/-- The TRBs for the pieces of a transfer of which `runningTotal` bytes are queued, but for
    their cycle bits. -/
def trbsOf (s : Setup) : BitVec 32 → List (BitVec 64 × Nat) → List Trb
  | _, [] => []
  | runningTotal, p :: ps =>
    let len := BitVec.ofNat 32 p.2
    ⟨p.1.extractLsb' 0 32, p.1.extractLsb' 32 32,
        trbLen len ||| s.remainder runningTotal len (BitVec.ofNat 32 (ps.length + 1)), control s.urb ps.isEmpty⟩ ::
      trbsOf s (runningTotal + len) ps

/-- The first TRB of the TD is held back by its cycle bit. -/
def heldCycle (s : Setup) (firstTrb : Bool) (r : Ring) : Bool := if firstTrb then !s.startCycle else r.cycleState

/-- The TRBs are queued one after the other. -/
def queueHeld (s : Setup) (firstTrb : Bool) : List Trb → Ring → Ring
  | [], r => r
  | t :: ts, r =>
    queueRest s.q ts (r.queueTrb s.q (!ts.isEmpty) (t.setCycle (heldCycle s firstTrb r)))

@[simp] theorem length_trbsOf (s : Setup) : ∀ (ps : List (BitVec 64 × Nat)) (total : BitVec 32),
    (trbsOf s total ps).length = ps.length := by
  intro ps
  induction ps with
  | nil => exact fun _ => rfl
  | cons p ps ih => exact fun total => by rw [trbsOf, List.length_cons, ih, List.length_cons]

theorem isEmpty_trbsOf (s : Setup) (total : BitVec 32) (ps : List (BitVec 64 × Nat)) :
    (trbsOf s total ps).isEmpty = ps.isEmpty := by
  cases ps with
  | nil => rfl
  | cons p ps => rfl

theorem control_setCycle (urb : Urb) (isLast c : Bool) (f0 f1 f2 : BitVec 32) :
    (⟨f0, f1, f2, (if c then 1 else 0) ||| (if !isLast then Trb.trbChain else Isoc.trbIoc) |||
      (if urb.dirIn then Isoc.trbIsp else 0) ||| Trb.trbType Isoc.trbNormal⟩ : Trb) =
        (⟨f0, f1, f2, control urb isLast⟩ : Trb).setCycle c := by
  cases isLast <;> cases c <;> cases dirIn : urb.dirIn <;> simp [control, Trb.setCycle, dirIn] <;> decide

/-- What the loop variables say of the ring stays. -/
structure Steady (x x' : Tx) : Prop where
  ring : x'.ring = x.ring
  numTrbs : x'.numTrbs = x.numTrbs
  runningTotal : x'.runningTotal = x.runningTotal
  firstTrb : x'.firstTrb = x.firstTrb
  lastTrb : x'.lastTrb = x.lastTrb
  queued : x'.queued = x.queued

/-- The loop variables lead through the pieces: `Ready x ps` says that those of `ps` are
    still to be queued. -/
structure Leads (s : Setup) (Ready : Tx → List (BitVec 64 × Nat) → Prop) : Prop where
  here : ∀ {x p ps}, Ready x (p :: ps) → x.addr = p.1 ∧ x.trbBuffLen = BitVec.ofNat 32 p.2
  next : ∀ {x p ps}, Ready x (p :: ps) → (ps = [] ∧ s.next (queuePiece s x) = none) ∨
    ∃ x', s.next (queuePiece s x) = some x' ∧ Steady (queuePiece s x) x' ∧
      x'.runningTotal.ult s.urb.transferBufferLength = !ps.isEmpty ∧ (ps ≠ [] → Ready x' ps)
  moreThanOne : ∀ n < 2 ^ 31, s.moreThanOne (BitVec.ofNat 32 n) = decide (1 < n)

/-- From `x` the pieces have been queued. -/
structure Queued (s : Setup) (ps : List (BitVec 64 × Nat)) (x x' : Tx) : Prop where
  numTrbs : x'.numTrbs = 0
  runningTotal : x'.runningTotal = x.runningTotal + BitVec.ofNat 32 (ps.map Prod.snd).sum
  ring : x'.ring = queueHeld s x.firstTrb (trbsOf s x.runningTotal ps) x.ring
  calls : ∃ new, x'.queued = x.queued ++ new ∧ new.map (·.2.setCycle false) = trbsOf s x.runningTotal ps ∧
    x'.lastTrb = new.getLast?.map Prod.fst

section
variable {s : Setup} {x x' x'' : Tx} {p : BitVec 64 × Nat} {ps : List (BitVec 64 × Nat)}

/-- The TRB that `queue_trb` is called with is the first one of the pieces, and its cycle
    bit the current one unless it is the first of the TD. -/
theorem queuePiece_eq (addr : x.addr = p.1) (len : x.trbBuffLen = BitVec.ofNat 32 p.2)
    (left : x.numTrbs = BitVec.ofNat 32 (ps.length + 1)) (more : s.moreThanOne x.numTrbs = !ps.isEmpty) :
    ∃ t, trbsOf s x.runningTotal (p :: ps) = t :: trbsOf s (x.runningTotal + BitVec.ofNat 32 p.2) ps ∧
      queuePiece s x = { x with
        firstTrb := false
        lastTrb := if ps.isEmpty then some x.ring.enqueue else x.lastTrb
        ring := x.ring.queueTrb s.q (!ps.isEmpty) (t.setCycle (heldCycle s x.firstTrb x.ring))
        queued := x.queued ++ [(x.ring.enqueue, t.setCycle (heldCycle s x.firstTrb x.ring))]
        numTrbs := BitVec.ofNat 32 ps.length
        runningTotal := x.runningTotal + BitVec.ofNat 32 p.2 } := by
  refine ⟨_, rfl, ?_⟩
  have cycle : (if x.firstTrb then (if s.startCycle then 0 else 1) else if x.ring.cycleState then 1 else 0 : BitVec 32) =
      if heldCycle s x.firstTrb x.ring then 1 else 0 := by
    rw [heldCycle]
    cases x.firstTrb <;> cases s.startCycle <;> rfl
  have fewer : BitVec.ofNat 32 (ps.length + 1) - 1 = BitVec.ofNat 32 ps.length := by
    rw [BitVec.ofNat_add]
    exact BitVec.add_sub_cancel _ _
  rw [left] at more
  rw [queuePiece]
  simp only [cycle, addr, len, left, more, fewer, control_setCycle]
  cases ps <;> rfl

/-- The TRBs of the pieces come without their cycle bits. -/
theorem setCycle_trbsOf {total : BitVec 32} {t : Trb} {ts : List Trb} (trbs : trbsOf s total (p :: ps) = t :: ts) (c : Bool) :
    (t.setCycle c).setCycle false = t := by
  obtain ⟨rfl, _⟩ := List.cons.inj trbs
  rw [Trb.setCycle_setCycle, ← control_setCycle]
  cases ps <;> simp [control]

theorem Queued.ending (queued : Queued s ps x x'') (steady : Steady x'' x') : Queued s ps x x' := by
  obtain ⟨none, total, ring, new, calls, trbs, lastTrb⟩ := queued
  exact ⟨steady.numTrbs.trans none, steady.runningTotal.trans total, steady.ring.trans ring, new,
    steady.queued.trans calls, trbs, steady.lastTrb.trans lastTrb⟩

theorem Queued.steady (queued : Queued s ps x x') (steady : Steady x'' x) : Queued s ps x'' x' := by
  obtain ⟨numTrbs, runningTotal, ring, new, calls, trbs, lastTrb⟩ := queued
  rw [steady.runningTotal] at runningTotal ring trbs
  rw [steady.ring, steady.firstTrb] at ring
  rw [steady.queued] at calls
  exact ⟨numTrbs, runningTotal, ring, new, calls, trbs, lastTrb⟩

/-- The loop queues the pieces and then comes to its end. -/
theorem queueLoop_queued {Ready : Tx → List (BitVec 64 × Nat) → Prop} (leads : Leads s Ready) :
    ∀ {ps : List (BitVec 64 × Nat)} {x : Tx} {fuel : Nat}, Ready x ps → ps ≠ [] → x.numTrbs = BitVec.ofNat 32 ps.length →
      ps.length < 2 ^ 31 → ps.length ≤ fuel → ∃ x', queueLoop s fuel x = some x' ∧ Queued s ps x x' := by
  intro ps
  induction ps with
  | nil => exact fun _ none => absurd rfl none
  | cons p ps ih =>
    intro x fuel ready _ left few room
    obtain ⟨fuel, rfl⟩ : ∃ n, fuel = n + 1 := ⟨fuel - 1, by simp at room; omega⟩
    obtain ⟨addr, len⟩ := leads.here ready
    have more : s.moreThanOne x.numTrbs = !ps.isEmpty := by
      rw [left, leads.moreThanOne _ few]
      cases ps <;> simp
    obtain ⟨t, trbs, piece⟩ := queuePiece_eq addr len left more
    rw [queueLoop]
    cases ps with
    | nil =>
      have queued : Queued s [p] x (queuePiece s x) := by
        rw [piece]
        refine ⟨rfl, by simp, by rw [trbs]; rfl, [_], rfl, ?_, rfl⟩
        rw [trbs]
        simp [trbsOf, setCycle_trbsOf trbs]
      rcases leads.next ready with ⟨_, broken⟩ | ⟨x', next, steady, finished, _⟩
      · rw [broken]
        exact ⟨_, rfl, queued⟩
      · rw [next]
        simp only [finished]
        exact ⟨_, rfl, queued.ending steady⟩
    | cons p' ps =>
      obtain ⟨none, _⟩ | ⟨x', next, steady, below, ready'⟩ := leads.next ready
      · simp at none
      rw [next]
      simp only [below, List.isEmpty_cons, Bool.not_false, if_true]
      have left' : x'.numTrbs = BitVec.ofNat 32 (p' :: ps).length := by rw [steady.numTrbs, piece]
      obtain ⟨x'', result, queued⟩ := ih (ready' (by simp)) (by simp) left' (by simp at few ⊢; omega) (by simp at room ⊢; omega)
      refine ⟨x'', result, ?_⟩
      obtain ⟨none, total, ring, new, calls, trbs', lastTrb⟩ := queued.steady steady
      rw [piece] at total ring calls trbs'
      refine ⟨none, ?_, ?_, (x.ring.enqueue, t.setCycle (heldCycle s x.firstTrb x.ring)) :: new, ?_, ?_, ?_⟩
      · have whole : (List.map Prod.snd (p :: p' :: ps)).sum = p.2 + (List.map Prod.snd (p' :: ps)).sum := rfl
        rw [total, whole, BitVec.ofNat_add, BitVec.add_assoc]
      · rw [ring, trbs, queueHeld, isEmpty_trbsOf]
        rfl
      · rw [calls, List.append_assoc]
        rfl
      · rw [trbs, List.map_cons, trbs', setCycle_trbsOf trbs]
      · rw [lastTrb]
        cases new with
        | nil => simp [trbsOf] at trbs'
        | cons c new => rw [List.getLast?_cons_cons]

end

/-! ### Where the TRBs are -/

/-- A TRB that the loop queues is a normal one. -/
theorem work_queuePiece (s : Setup) (x : Tx) : ∃ t : Trb, (queuePiece s x).queued = x.queued ++ [(x.ring.enqueue, t)] ∧
    (queuePiece s x).ring = x.ring.queueTrb s.q (s.moreThanOne x.numTrbs) t ∧ t.isNoop = false ∧ t.isLink = false := by
  refine ⟨_, rfl, rfl, ?_⟩
  simp only [Trb.isNoop, Trb.isLink]
  generalize s.moreThanOne x.numTrbs = more
  cases more <;> cases s.urb.dirIn <;> cases x.firstTrb <;> cases s.startCycle <;> cases x.ring.cycleState <;> decide

/-- The calls of `queue_trb`, each at `enqueue`, lead from `r` to `r'`. -/
def Follows (s : Setup) : BitVec 32 → Ring → List (TrbPtr × Trb) → Ring → Prop
  | _, r, [], r' => r' = r
  | numTrbs, r, c :: cs, r' => c.1 = r.enqueue ∧ (c.2.isNoop = false ∧ c.2.isLink = false) ∧
      Follows s (numTrbs - 1) (r.queueTrb s.q (s.moreThanOne numTrbs) c.2) cs r'

theorem queueLoop_follows {s : Setup} (steady : ∀ x x', s.next x = some x' → Steady x x') : ∀ {fuel : Nat} {x x' : Tx},
    queueLoop s fuel x = some x' → ∃ c cs, x'.queued = x.queued ++ c :: cs ∧ Follows s x.numTrbs x.ring (c :: cs) x'.ring := by
  intro fuel
  induction fuel with
  | zero =>
    intro x x' result
    simp [queueLoop] at result
  | succ fuel ih =>
    intro x x' result
    obtain ⟨t, calls, ring, work⟩ := work_queuePiece s x
    rw [queueLoop] at result
    cases next : s.next (queuePiece s x) with
    | none =>
      simp only [next, Option.some.injEq] at result
      subst result
      exact ⟨(x.ring.enqueue, t), [], calls, rfl, work, ring⟩
    | some x1 =>
      have same := steady _ _ next
      simp only [next] at result
      split_ifs at result
      · obtain ⟨c, cs, later, follows⟩ := ih result
        refine ⟨(x.ring.enqueue, t), c :: cs, ?_, rfl, work, ?_⟩
        · rw [later, same.queued, calls, List.append_assoc]
          rfl
        · rw [same.ring, same.numTrbs, ring] at follows
          exact follows
      · rw [Option.some.injEq] at result
        subst result
        refine ⟨(x.ring.enqueue, t), [], same.queued.trans calls, rfl, work, ?_⟩
        rw [same.ring, ring]
        rfl

theorem Follows.work {s : Setup} : ∀ {cs : List (TrbPtr × Trb)} {numTrbs : BitVec 32} {r r' : Ring}, Follows s numTrbs r cs r' →
    ∀ c ∈ cs, c.2.isNoop = false ∧ c.2.isLink = false := by
  intro cs
  induction cs with
  | nil => simp
  | cons c cs ih =>
    intro numTrbs r r' ⟨_, work, follows⟩ c' member
    rcases List.mem_cons.mp member with rfl | later
    · exact work
    · exact ih follows c' later

theorem steady_sgNext {urb : Urb} {x x' : Tx} (next : sgNext urb x = some x') : Steady x x' := by
  rw [sgNext] at next
  split_ifs at next
  · cases sgs : x.sgs with
    | nil => simp [sgs] at next
    | cons sg sgs' =>
      simp only [sgs, Option.some.injEq] at next
      subst next
      exact ⟨rfl, rfl, rfl, rfl, rfl, rfl⟩
  · simp only [Option.some.injEq] at next
    subst next
    exact ⟨rfl, rfl, rfl, rfl, rfl, rfl⟩

theorem steady_bulkNext {urb : Urb} {x x' : Tx} (next : bulkNext urb x = some x') : Steady x x' := by
  rw [bulkNext, Option.some.injEq] at next
  subst next
  exact ⟨rfl, rfl, rfl, rfl, rfl, rfl⟩

section
variable {q : Quirks} {r r' : Ring} {busy idle : List TrbPtr}

/-- A TRB is written at `enqueue`, and behind it there may be links. -/
theorem queueTrb_placed (queue : Queue r busy idle) (inner : r.enqueue.idx ≠ 63) (more : Bool) {t : Trb} (plain : t.isLink = false)
    (room : 2 ≤ nonlinks idle) : ∃ links idle', idle = r.enqueue :: links ++ idle' ∧ (∀ p ∈ links, p.idx = 63) ∧
      Queue (r.queueTrb q more t) (busy ++ r.enqueue :: links) idle' ∧ nonlinks idle = nonlinks idle' + 1 ∧
      Kept r (r.queueTrb q more t) (r.enqueue :: links) ∧ (r.queueTrb q more t).trb r.enqueue = t ∧
      (more = true → (r.queueTrb q more t).enqueue.idx ≠ 63) := by
  obtain ⟨rest, rfl⟩ := queue.idle_eq
  rw [nonlinks_cons, if_pos inner] at room
  have here : (stored r t).trb r.enqueue = t := trb_setTrb_same r r.enqueue t
  rcases queue.queueTrb_cases q inner more plain (by omega) with ⟨eq, queue', goesOn⟩ | ⟨rest', rfl, onLink, eq, _, queue'⟩
  · rw [eq]
    refine ⟨[], rest, rfl, by simp, queue', ?_, kept_stored r t, here, goesOn⟩
    rw [nonlinks_cons, if_pos inner]
  · have other : r.enqueue ≠ (stored r t).enqueue := by
      intro same
      rw [← same] at onLink
      exact inner onLink
    have kept : Kept r (r.queueTrb q more t) [r.enqueue, (stored r t).enqueue] := by
      rw [eq]
      exact (kept_stored r t).trans (kept_linkGiven _ _)
    refine ⟨[(stored r t).enqueue], rest', rfl, by simpa using onLink, by simpa using queue', ?_, kept, ?_, ?_⟩
    · rw [nonlinks_cons, if_pos inner, nonlinks_cons, if_neg (by simp [onLink])]
    · rw [eq, (kept_linkGiven _ _).trb _ (by simpa using other), here]
    · intro _
      rw [eq]
      simp [RingShape.linkGiven]

/-- The TRBs of a TD, with the links among them, are the next ones of the ring. -/
theorem Follows.placed {s : Setup} : ∀ {cs : List (TrbPtr × Trb)} {numTrbs : BitVec 32} {r : Ring} {busy idle : List TrbPtr},
    Follows s numTrbs r cs r' → Queue r busy idle → (cs ≠ [] → r.enqueue.idx ≠ 63) →
    (∀ k, k + 1 < cs.length → s.moreThanOne (numTrbs - BitVec.ofNat 32 k) = true) → cs.length + 1 ≤ nonlinks idle →
    ∃ td idle', idle = td ++ idle' ∧ Queue r' (busy ++ td) idle' ∧ td.filter (fun p => p.idx ≠ 63) = cs.map Prod.fst ∧
      (∀ c ∈ cs, r'.trb c.1 = c.2) ∧ Kept r r' td := by
  intro cs
  induction cs with
  | nil =>
    intro numTrbs r busy idle follows queue _ _ _
    rw [Follows] at follows
    subst follows
    exact ⟨[], idle, rfl, by simpa using queue, rfl, by simp, fun _ _ => rfl, rfl, rfl, rfl, rfl, rfl, rfl⟩
  | cons c cs ih =>
    intro numTrbs r busy idle ⟨first, work, follows⟩ queue inner goesOn room
    have inner := inner (by simp)
    rw [List.length_cons] at room goesOn
    obtain ⟨links, idle', rfl, areLinks, queue1, counted, kept1, here, next⟩ :=
      queueTrb_placed (q := s.q) queue inner (s.moreThanOne numTrbs) work.2 (by omega)
    have step (k : Nat) : numTrbs - 1 - BitVec.ofNat 32 k = numTrbs - BitVec.ofNat 32 (k + 1) := by
      rw [BitVec.ofNat_add, BitVec.add_comm, sub_sub]
      rfl
    obtain ⟨td, idle'', rfl, queue2, spots, trbs, kept2⟩ := ih follows queue1
      (fun more => next (by
        have := goesOn 0 (by have := List.length_pos_iff.mpr more; omega)
        rwa [BitVec.sub_zero] at this))
      (fun k below => by rw [step]; exact goesOn (k + 1) (by omega)) (by omega)
    have apart : r.enqueue ∉ td := by
      intro member
      have distinct := queue2.shape.isLap.1
      rw [List.append_assoc, List.append_assoc] at distinct
      have behind := (List.nodup_append.mp distinct).2.1
      rw [List.cons_append, List.nodup_cons] at behind
      exact behind.1 (by simp [member])
    refine ⟨r.enqueue :: links ++ td, idle'', by simp, by simpa using queue2, ?_, ?_, kept1.trans kept2⟩
    · rw [List.cons_append, List.filter_cons_of_pos (by simpa using inner), List.filter_append,
        List.filter_eq_nil_iff.mpr (fun p member => by simp [areLinks p member]), List.nil_append, spots, List.map_cons, first]
    · intro c' member
      rcases List.mem_cons.mp member with rfl | later
      · rw [first, kept2.trb _ apart, here]
      · exact trbs c' later

/-- The first TRB gets its cycle bit, and nothing else changes but the cache. -/
theorem givebackFirstTrb_eq (x : Ring) (startCycle : Bool) (startTrb : TrbPtr) (write : Nat → CacheWrite) :
    ∃ cache cacheEnqueue, x.givebackFirstTrb startCycle startTrb write =
      { x.modifyTrb startTrb (·.setCycle startCycle) with cache := cache, cacheEnqueue := cacheEnqueue } := by
  rw [givebackFirstTrb]
  dsimp only
  split_ifs
  · exact cacheCopyFromRing_eq _ write
  · exact ⟨_, _, rfl⟩

/-- Before the last TRB there is more than one left. -/
theorem more_left {moreThanOne : BitVec 32 → Bool} (few : ∀ n < 2 ^ 31, moreThanOne (BitVec.ofNat 32 n) = decide (1 < n)) {n k : Nat}
    (small : n < 2 ^ 31) (below : k + 1 < n) : moreThanOne (BitVec.ofNat 32 n - BitVec.ofNat 32 k) = true := by
  have left : BitVec.ofNat 32 n - BitVec.ofNat 32 k = BitVec.ofNat 32 (n - k) := by
    rw [sub_eq_iff_eq_add, ← BitVec.ofNat_add, Nat.sub_add_cancel (by omega)]
  rw [left, few _ (by omega)]
  exact decide_eq_true (by omega)

theorem setCycle_givebackFirstTrb (x : Ring) (startCycle : Bool) (startTrb : TrbPtr) (write : Nat → CacheWrite) (p : TrbPtr) :
    ((x.givebackFirstTrb startCycle startTrb write).trb p).setCycle false = (x.trb p).setCycle false := by
  obtain ⟨cache, cacheEnqueue, ring⟩ := givebackFirstTrb_eq x startCycle startTrb write
  rw [ring]
  show ((x.modifyTrb startTrb (·.setCycle startCycle)).trb p).setCycle false = _
  rw [trb_modifyTrb]
  split_ifs with same
  · rw [same, Trb.setCycle_setCycle]
  · rfl

end

section
variable {urb : Urb} {x : Tx} {p : BitVec 64 × Nat} {ps : List (BitVec 64 × Nat)}

/-- The list from the current entry on, of which the part in front is already queued. -/
def sgsLeft (x : Tx) : List Sg := ⟨x.addr, x.thisSgLen⟩ :: x.sgs

/-- The loop variables of `queue_bulk_sg_tx` before the TRBs of `ps`. -/
structure SgReady (urb : Urb) (x : Tx) (ps : List (BitVec 64 × Nat)) : Prop where
  below : x.runningTotal.toNat < urb.transferBufferLength.toNat
  proper : ProperSgs (sgsLeft x)
  len : x.trbBuffLen = sgBuffLen urb x.addr x.thisSgLen x.runningTotal
  ahead : ps = sgPieces (urb.transferBufferLength.toNat - x.runningTotal.toNat) (sgsLeft x)

theorem sgBuffLen_toNat (addr : BitVec 64) {thisSgLen runningTotal : BitVec 32}
    (small : urb.transferBufferLength.toNat < 2 ^ 31) (below : runningTotal.toNat ≤ urb.transferBufferLength.toNat)
    (fits : thisSgLen.toNat < 2 ^ 31) : (sgBuffLen urb addr thisSgLen runningTotal).toNat =
      min (65536 - addr.toNat % 65536) (min thisSgLen.toNat (urb.transferBufferLength.toNat - runningTotal.toNat)) := by
  have boundary := toBoundary_toNat addr
  have shorter : (minInt (toBoundary addr) thisSgLen).toNat = min (65536 - addr.toNat % 65536) thisSgLen.toNat := by
    rw [minInt_toNat (by omega) fits, boundary]
  have sum : (runningTotal + minInt (toBoundary addr) thisSgLen).toNat =
      runningTotal.toNat + min (65536 - addr.toNat % 65536) thisSgLen.toNat := by
    rw [BitVec.toNat_add, shorter]
    omega
  rw [sgBuffLen]
  split_ifs with tooLong
  · rw [BitVec.ult, sum] at tooLong
    have := of_decide_eq_true tooLong
    rw [BitVec.toNat_sub_of_le (by rw [BitVec.le_def]; omega)]
    omega
  · rw [BitVec.ult, sum] at tooLong
    have := of_decide_eq_false (Bool.not_eq_true _ ▸ tooLong)
    rw [shorter]
    omega

theorem sgPieces_ne_nil {sgs : List Sg} {n : Nat} (proper : ProperSgs sgs) (some_left : 0 < n) (more : sgs ≠ []) :
    sgPieces n sgs ≠ [] := by
  cases sgs with
  | nil => exact absurd rfl more
  | cons sg sgs =>
    obtain ⟨some_length, _⟩ := proper sg (by simp)
    rw [sgPieces, pieces_pos (by omega)]
    simp

/-- The list behind the first `k` bytes of its first entry. -/
def dropBytes (k : BitVec 32) (sg : Sg) (sgs : List Sg) : List Sg :=
  if sg.dmaLength - k = 0 then sgs else ⟨sg.dmaAddress + k.signExtend 64, sg.dmaLength - k⟩ :: sgs

theorem sgPieces_cons {sg : Sg} {sgs : List Sg} {n : Nat} {k : BitVec 32} (proper : ProperSgs (sg :: sgs)) (some_left : 0 < n)
    (len : k.toNat = min (65536 - sg.dmaAddress.toNat % 65536) (min sg.dmaLength.toNat n)) :
    sgPieces n (sg :: sgs) = (sg.dmaAddress, k.toNat) :: sgPieces (n - k.toNat) (dropBytes k sg sgs) ∧
      ProperSgs (dropBytes k sg sgs) := by
  obtain ⟨some_length, fits⟩ := proper sg (by simp)
  have proper' : ProperSgs sgs := fun e member => proper e (List.mem_cons_of_mem _ member)
  have lessLeft : (sg.dmaLength - k).toNat = sg.dmaLength.toNat - k.toNat :=
    BitVec.toNat_sub_of_le (by rw [BitVec.le_def]; omega)
  rw [sgPieces, pieces_pos (by omega), ← len, List.cons_append, dropBytes]
  split_ifs with entryDone
  · have used : sg.dmaLength.toNat = k.toNat := by
      rw [entryDone] at lessLeft
      simp at lessLeft
      omega
    rw [show min sg.dmaLength.toNat n = k.toNat by omega, Nat.sub_self, pieces, parts_zero, List.nil_append]
    exact ⟨rfl, proper'⟩
  · have entryMore : k.toNat < sg.dmaLength.toNat := by
      by_contra beyond
      exact entryDone (BitVec.eq_of_toNat_eq (by rw [lessLeft]; simp; omega))
    refine ⟨?_, ?_⟩
    · rw [sgPieces, signExtend_eq (by omega), lessLeft,
        show min (sg.dmaLength.toNat - k.toNat) (n - k.toNat) = min sg.dmaLength.toNat n - k.toNat by omega,
        show n - k.toNat - (min sg.dmaLength.toNat n - k.toNat) = n - min sg.dmaLength.toNat n by omega]
    · intro e member
      rcases List.mem_cons.mp member with rfl | later
      · show 0 < (sg.dmaLength - k).toNat ∧ (sg.dmaLength - k).toNat < 2 ^ 31
        omega
      · exact proper' e later

/-- The loop variables at the beginning of an entry, or of what is left of it. -/
def atEntry (urb : Urb) (x : Tx) (sg : Sg) (sgs : List Sg) : Tx :=
  { x with
    sgs := sgs
    addr := sg.dmaAddress
    thisSgLen := sg.dmaLength
    trbBuffLen := sgBuffLen urb sg.dmaAddress sg.dmaLength x.runningTotal }

theorem sgNext_none (behind : dropBytes x.trbBuffLen ⟨x.addr, x.thisSgLen⟩ x.sgs = []) : sgNext urb x = none := by
  rw [dropBytes] at behind
  rw [sgNext]
  split_ifs at behind with entryDone
  rw [if_pos entryDone, behind]

theorem sgNext_some {sg : Sg} {sgs : List Sg} (behind : dropBytes x.trbBuffLen ⟨x.addr, x.thisSgLen⟩ x.sgs = sg :: sgs) :
    sgNext urb x = some (atEntry urb x sg sgs) := by
  rw [dropBytes] at behind
  rw [sgNext]
  split_ifs at behind with entryDone
  · rw [if_pos entryDone, behind]
    rfl
  · obtain ⟨rfl, rfl⟩ := List.cons.inj behind
    rw [if_neg entryDone]
    rfl

theorem sgReady_leads {s : Setup} (isSg : s.next = sgNext s.urb) (small : s.urb.transferBufferLength.toNat < 2 ^ 31)
    (moreThanOne : ∀ n < 2 ^ 31, s.moreThanOne (BitVec.ofNat 32 n) = decide (1 < n)) : Leads s (SgReady s.urb) := by
  have head : ∀ {x p ps}, SgReady s.urb x (p :: ps) → p = (x.addr, x.trbBuffLen.toNat) ∧
      x.runningTotal.toNat + x.trbBuffLen.toNat ≤ s.urb.transferBufferLength.toNat ∧
      ps = sgPieces (s.urb.transferBufferLength.toNat - (x.runningTotal.toNat + x.trbBuffLen.toNat))
        (dropBytes x.trbBuffLen ⟨x.addr, x.thisSgLen⟩ x.sgs) ∧
      ProperSgs (dropBytes x.trbBuffLen ⟨x.addr, x.thisSgLen⟩ x.sgs) := by
    intro x p ps ready
    have below := ready.below
    have len := sgBuffLen_toNat x.addr small below.le (ready.proper ⟨x.addr, x.thisSgLen⟩ (by simp [sgsLeft])).2
    rw [← ready.len] at len
    obtain ⟨split, proper⟩ := sgPieces_cons ready.proper (n := s.urb.transferBufferLength.toNat - x.runningTotal.toNat)
      (by omega) len
    have ahead := ready.ahead
    rw [sgsLeft, split, List.cons.injEq, Nat.sub_sub] at ahead
    exact ⟨ahead.1, by omega, ahead.2, proper⟩
  refine ⟨?_, ?_, moreThanOne⟩
  · intro x p ps ready
    obtain ⟨rfl, -⟩ := head ready
    exact ⟨rfl, by simp⟩
  · intro x p ps ready
    obtain ⟨rfl, within, rest, proper⟩ := head ready
    have total : (queuePiece s x).runningTotal.toNat = x.runningTotal.toNat + x.trbBuffLen.toNat := by
      show (x.runningTotal + x.trbBuffLen).toNat = _
      rw [BitVec.toNat_add]
      omega
    rw [isSg]
    cases behind : dropBytes x.trbBuffLen ⟨x.addr, x.thisSgLen⟩ x.sgs with
    | nil =>
      rw [behind] at rest
      exact .inl ⟨rest, sgNext_none (x := queuePiece s x) behind⟩
    | cons sg sgs =>
      rw [behind] at rest proper
      refine .inr ⟨_, sgNext_some (x := queuePiece s x) behind, ⟨rfl, rfl, rfl, rfl, rfl, rfl⟩, ?_⟩
      have compared : (atEntry s.urb (queuePiece s x) sg sgs).runningTotal.ult s.urb.transferBufferLength =
          decide (x.runningTotal.toNat + x.trbBuffLen.toNat < s.urb.transferBufferLength.toNat) := by
        rw [← total]
        rfl
      rw [compared]
      rcases Nat.eq_or_lt_of_le within with all | some_left
      · rw [all, Nat.sub_self, sgPieces_zero] at rest
        rw [rest, decide_eq_false (by omega)]
        exact ⟨rfl, fun more => absurd rfl more⟩
      · have more : ps ≠ [] := rest ▸ sgPieces_ne_nil proper (by omega) (by simp)
        rw [decide_eq_true some_left]
        refine ⟨by cases ps <;> simp at more ⊢, fun _ => ⟨?_, proper, rfl, ?_⟩⟩
        · exact total ▸ some_left
        · rw [rest, ← total]
          rfl

/-- The pieces of a transfer from a contiguous buffer; an empty transfer is one empty
    piece. -/
def bulkPieces (urb : Urb) : List (BitVec 64 × Nat) :=
  if urb.transferBufferLength = 0 then [(urb.transferBuffer, 0)]
  else pieces urb.transferBuffer urb.transferBufferLength.toNat

/-- The loop variables of `ehub_xhci_queue_bulk_tx` before the TRBs of `ps`. -/
structure BulkReady (urb : Urb) (x : Tx) (ps : List (BitVec 64 × Nat)) : Prop where
  within : x.runningTotal.toNat ≤ urb.transferBufferLength.toNat
  len : x.trbBuffLen.toNat =
    min (65536 - x.addr.toNat % 65536) (urb.transferBufferLength.toNat - x.runningTotal.toNat)
  ahead : ps =
    if urb.transferBufferLength = 0 then [(x.addr, 0)]
    else pieces x.addr (urb.transferBufferLength.toNat - x.runningTotal.toNat)

theorem BulkReady.head (ready : BulkReady urb x (p :: ps)) : p = (x.addr, x.trbBuffLen.toNat) ∧
    ps = pieces (x.addr + (x.trbBuffLen.toNat : BitVec 64))
      (urb.transferBufferLength.toNat - (x.runningTotal.toNat + x.trbBuffLen.toNat)) := by
  have ahead := ready.ahead
  have len := ready.len
  split_ifs at ahead with empty
  · have none : x.trbBuffLen.toNat = 0 := by
      rw [empty] at len
      simp at len
      simp [len]
    obtain ⟨rfl, rfl⟩ := List.cons.inj ahead
    rw [none, empty]
    simp
  · have some_left : 0 < urb.transferBufferLength.toNat - x.runningTotal.toNat := by
      rw [Nat.pos_iff_ne_zero]
      intro none
      rw [none, pieces, parts_zero] at ahead
      simp at ahead
    rw [pieces_pos some_left, ← len, List.cons.injEq, Nat.sub_sub] at ahead
    exact ahead

theorem pieces_ne_nil {a : BitVec 64} {n : Nat} (some_length : 0 < n) : pieces a n ≠ [] := by
  rw [pieces_pos some_length]
  simp

theorem bulkReady_leads {s : Setup} (isBulk : s.next = bulkNext s.urb) (small : s.urb.transferBufferLength.toNat < 2 ^ 31)
    (moreThanOne : ∀ n < 2 ^ 31, s.moreThanOne (BitVec.ofNat 32 n) = decide (1 < n)) : Leads s (BulkReady s.urb) := by
  refine ⟨?_, ?_, moreThanOne⟩
  · intro x p ps ready
    obtain ⟨rfl, -⟩ := ready.head
    exact ⟨rfl, by simp⟩
  · intro x p ps ready
    obtain ⟨rfl, rest⟩ := ready.head
    have within := ready.within
    have len := ready.len
    have total : (queuePiece s x).runningTotal.toNat = x.runningTotal.toNat + x.trbBuffLen.toNat := by
      show (x.runningTotal + x.trbBuffLen).toNat = _
      rw [BitVec.toNat_add]
      omega
    rw [isBulk]
    refine .inr ⟨_, rfl, ⟨rfl, rfl, rfl, rfl, rfl, rfl⟩, ?_⟩
    show (queuePiece s x).runningTotal.ult s.urb.transferBufferLength = _ ∧ _
    rw [BitVec.ult, total]
    by_cases some_left : x.runningTotal.toNat + x.trbBuffLen.toNat < s.urb.transferBufferLength.toNat
    · have more : ps ≠ [] := rest ▸ pieces_ne_nil (by omega)
      have left : (s.urb.transferBufferLength - (queuePiece s x).runningTotal).toNat =
          s.urb.transferBufferLength.toNat - (x.runningTotal.toNat + x.trbBuffLen.toNat) := by
        rw [BitVec.toNat_sub_of_le (by rw [BitVec.le_def]; omega), total]
      have behind : (queuePiece s x).addr + (queuePiece s x).trbBuffLen.signExtend 64 =
          x.addr + (x.trbBuffLen.toNat : BitVec 64) := by
        rw [← signExtend_eq (by omega)]
        rfl
      -- More is left when the TRB has come to a boundary.
      have aligned : (x.addr + (x.trbBuffLen.toNat : BitVec 64)).toNat % 65536 = 0 := by
        rw [toNat_add_mod]
        omega
      rw [decide_eq_true some_left]
      refine ⟨by cases ps <;> simp at more ⊢, fun _ => ⟨?_, ?_, ?_⟩⟩
      · show (queuePiece s x).runningTotal.toNat ≤ _
        omega
      · show (if trbMaxBuffSize.slt _ = true then _ else _ : BitVec 32).toNat =
          min (65536 - ((queuePiece s x).addr + (queuePiece s x).trbBuffLen.signExtend 64).toNat % 65536)
            (_ - (queuePiece s x).runningTotal.toNat)
        rw [behind, aligned, total, slt_toNat (by decide) (by omega), left]
        split_ifs with long
        · have := of_decide_eq_true long
          simp [trbMaxBuffSize] at this ⊢
          omega
        · have := of_decide_eq_false (Bool.not_eq_true _ ▸ long)
          simp [trbMaxBuffSize] at this
          rw [left]
          omega
      · show ps = if s.urb.transferBufferLength = 0 then _ else
          pieces ((queuePiece s x).addr + (queuePiece s x).trbBuffLen.signExtend 64) (_ - (queuePiece s x).runningTotal.toNat)
        have positive : s.urb.transferBufferLength ≠ 0 := by
          intro empty
          rw [empty] at some_left
          simp at some_left
        rw [if_neg positive, behind, total, rest]
    · rw [decide_eq_false some_left, rest, show s.urb.transferBufferLength.toNat -
        (x.runningTotal.toNat + x.trbBuffLen.toNat) = 0 by omega, pieces, parts_zero]
      exact ⟨rfl, fun more => absurd rfl more⟩

end

/-! ### What the TRBs say -/

/-- The stretch of memory that a TRB is for. -/
def range (t : Trb) : BitVec 64 × Nat := (t.segmentPtr, (trbLen t.field2).toNat)

/-- `TRB_IOC` of the control word. -/
def ioc (t : Trb) : Bool := t.field3.getLsbD 5

@[simp] theorem range_setCycle (t : Trb) (c : Bool) : range (t.setCycle c) = range t := rfl

@[simp] theorem ioc_setCycle (t : Trb) (c : Bool) : ioc (t.setCycle c) = ioc t := by
  cases c <;> simp [Trb.setCycle, ioc, Trb.trbCycle]

theorem shifted_and (x : BitVec 32) : x <<< 17 &&& 0x1ffff = 0#32 := by
  apply BitVec.eq_of_toNat_eq
  rw [BitVec.toNat_and, BitVec.toNat_shiftLeft]
  refine (Nat.and_two_pow_sub_one_eq_mod _ 17).trans ?_
  rw [Nat.shiftLeft_eq]
  simp

theorem tdRemainder_and (x : BitVec 32) : tdRemainder x &&& 0x1ffff = 0#32 := by
  rw [tdRemainder]
  split_ifs
  · exact shifted_and 31
  · exact shifted_and _

theorem v10TdRemainder_and (total len packets left : BitVec 32) (maxp : BitVec 16) :
    v10TdRemainder total len packets maxp left &&& 0x1ffff = 0#32 := by
  rw [v10TdRemainder]
  by_cases none : left = 0 ∨ (total = 0 ∧ len = 0)
  · rw [if_pos none]
    exact BitVec.zero_and
  · rw [if_neg none]
    simp only
    by_cases many : 31 < packets - (total + len).sdiv (getMaxPacket maxp)
    · rw [if_pos many]
      exact shifted_and 31
    · rw [if_neg many]
      exact shifted_and _

/-- The TD size lies beyond the length. -/
theorem remainder_and (s : Setup) (total len left : BitVec 32) : s.remainder total len left &&& 0x1ffff = 0#32 := by
  rw [Setup.remainder]
  split_ifs
  · exact tdRemainder_and _
  · exact v10TdRemainder_and ..

theorem trbLen_or {n : Nat} (short : n ≤ 65536) {x : BitVec 32} (beyond : x &&& 0x1ffff = 0#32) :
    (trbLen (trbLen (BitVec.ofNat 32 n) ||| x)).toNat = n := by
  have masked : (BitVec.ofNat 32 n &&& 0x1ffff).toNat = n := by
    rw [BitVec.toNat_and]
    refine (Nat.and_two_pow_sub_one_eq_mod _ 17).trans ?_
    simp
    omega
  rw [trbLen, trbLen, BitVec.and_or_distrib_right, beyond, BitVec.or_zero, BitVec.and_assoc, BitVec.and_self, masked]

theorem range_trbsOf (s : Setup) : ∀ {ps : List (BitVec 64 × Nat)} {total : BitVec 32}, (∀ p ∈ ps, p.2 ≤ 65536) →
    (trbsOf s total ps).map range = ps := by
  intro ps
  induction ps with
  | nil => exact fun _ => rfl
  | cons p ps ih =>
    intro total short
    rw [trbsOf, List.map_cons, ih fun p member => short p (List.mem_cons_of_mem _ member), range,
      trbLen_or (short p (by simp)) (remainder_and ..)]
    congr 1
    exact Prod.ext BitVec.extractLsb'_append_extractLsb' rfl

theorem flags_trbsOf (s : Setup) : ∀ {ps : List (BitVec 64 × Nat)} {total : BitVec 32} {front back : List Trb} {t : Trb},
    trbsOf s total ps = front ++ t :: back → t.chain = !back.isEmpty ∧ ioc t = back.isEmpty := by
  intro ps
  induction ps with
  | nil =>
    intro total front back t split
    simp [trbsOf] at split
  | cons p ps ih =>
    intro total front back t split
    cases front with
    | nil =>
      obtain ⟨rfl, rfl⟩ := List.cons.inj split
      rw [isEmpty_trbsOf]
      cases ps.isEmpty <;> cases dirIn : s.urb.dirIn <;>
        simp [Trb.chain, ioc, control, dirIn, Isoc.trbIoc, Isoc.trbIsp, Trb.trbChain, Trb.trbType, Isoc.trbNormal]
    | cons t' front => exact ih (List.cons.inj split).2

/-- The transfer of the bytes `whole` has been queued on the prepared ring `r` as one TD of
    `n` TRBs, and handed over. Where the ring has room for them, it holds each of them. -/
structure Queues (q : Quirks) (env : Isoc.Env) (r : Ring) (urb : Urb) (whole : List (BitVec 64)) (n : Nat)
    (out : Outcome) : Prop where
  status : out.status = 0
  count : out.queued.length = n
  bytes : (out.queued.flatMap fun c => bytes (range c.2).1 (range c.2).2) = whole
  nonempty : urb.transferBufferLength ≠ 0 → ∀ c ∈ out.queued, 0 < (range c.2).2
  inside : ∀ c ∈ out.queued, (range c.2).1.toNat % 65536 + (range c.2).2 ≤ 65536
  flags : ∀ front c back, out.queued = front ++ c :: back → c.2.chain = !back.isEmpty ∧ ioc c.2 = back.isEmpty
  lastTrb : out.lastTrb = out.queued.getLast?.map Prod.fst
  ring : ∃ t ts, out.queued.map (·.2.setCycle false) = t :: ts ∧ out.ring = queueTd q r t ts env.write
  mathOk : out.mathOk = true
  held : ∀ {busy idle : List TrbPtr}, Queue r busy idle → r.enqueue.idx ≠ 63 → n + 1 ≤ nonlinks idle →
    ∀ c ∈ out.queued, (out.ring.trb c.1).setCycle false = c.2.setCycle false

/-- The TRBs are those for the pieces of the transfer. -/
def Pieced (hciVersion : BitVec 16) (urb : Urb) (ps : List (BitVec 64 × Nat)) (out : Outcome) : Prop :=
  ∃ s : Setup, s.hciVersion = hciVersion ∧ s.urb = urb ∧
    s.totalPacketCount = divRoundUp urb.transferBufferLength (urb.maxp.setWidth 32) ∧
    out.queued.map (·.2.setCycle false) = trbsOf s 0 ps

section
variable {q : Quirks} {hciVersion : BitVec 16} {urb : Urb} {env : Isoc.Env} {r r' : Ring} {ps : List (BitVec 64 × Nat)}

/-- What the loop leaves behind when it has queued the pieces of a whole transfer. -/
theorem queueTx_queues {moreThanOne : BitVec 32 → Bool} {next : Tx → Option Tx} {begin : Ring → Tx}
    {Ready : Tx → List (BitVec 64 × Nat) → Prop}
    (leads : Leads ⟨q, hciVersion, urb, divRoundUp urb.transferBufferLength (urb.maxp.setWidth 32), r'.cycleState,
      moreThanOne, next⟩ Ready) (steady : ∀ x x', next x = some x' → Steady x x') (ready : Ready (begin r') ps)
    (begins : begin r' = { begin r' with
      ring := r', numTrbs := BitVec.ofNat 32 ps.length, runningTotal := 0, firstTrb := true, lastTrb := none, queued := [] })
    (some_piece : ps ≠ [])
    (whole : (ps.map Prod.snd).sum = urb.transferBufferLength.toNat)
    (inside : ∀ p ∈ ps, p.1.toNat % 65536 + p.2 ≤ 65536) (nonempty : urb.transferBufferLength ≠ 0 → ∀ p ∈ ps, 0 < p.2)
    (few : ps.length < 2 ^ 31 ∧ ps.length ≤ urb.transferBufferLength.toNat + 1)
    (prepared : Isoc.prepareTransfer q r (BitVec.ofNat 32 ps.length).toNat 0 env = (0, r')) :
    ∃ out, queueTx q hciVersion urb (BitVec.ofNat 32 ps.length) moreThanOne next begin env r = some out ∧
      Queues q env r' urb (ps.flatMap fun p => bytes p.1 p.2) ps.length out ∧ Pieced hciVersion urb ps out := by
  have room : ps.length ≤ urb.transferBufferLength.toNat + urb.sg.length + 1 := by omega
  obtain ⟨x', result, none, total, ring, new, calls, trbs, lastTrb⟩ :=
    queueLoop_queued leads ready some_piece (by rw [begins]) few.1 room
  obtain ⟨first, others, behind, follows⟩ := queueLoop_follows steady result
  rw [begins] at total ring calls trbs behind follows
  simp only [List.nil_append] at calls behind
  have ranges : new.map (range ·.2) = ps := by
    have mapped := congrArg (List.map range) trbs
    rw [List.map_map, range_trbsOf _ fun p member => by have := inside p member; omega] at mapped
    exact mapped
  have each : ∀ c ∈ x'.queued, range c.2 ∈ ps := by
    intro c member
    rw [calls] at member
    rw [← ranges]
    exact List.mem_map_of_mem (f := fun c : TrbPtr × Trb => range c.2) member
  rw [queueTx, prepared]
  simp only [result]
  refine ⟨_, rfl, ⟨rfl, ?_, ?_, ?_, ?_, ?_, ?_, ?_, ?_, ?_⟩, _, rfl, rfl, rfl, calls ▸ trbs⟩
  · show x'.queued.length = ps.length
    rw [calls, ← ranges, List.length_map]
  · show (x'.queued.flatMap fun c => bytes (range c.2).1 (range c.2).2) = _
    rw [calls, ← ranges, List.flatMap_map]
  · intro some_length c member
    exact nonempty some_length _ (each c member)
  · intro c member
    exact inside _ (each c member)
  · intro front c back split
    change x'.queued = _ at split
    rw [calls] at split
    rw [split, List.map_append, List.map_cons] at trbs
    have flags := flags_trbsOf _ trbs.symm
    rwa [Trb.chain_setCycle, ioc_setCycle, List.isEmpty_map] at flags
  · show x'.lastTrb = x'.queued.getLast?.map Prod.fst
    rw [lastTrb, calls]
  · show ∃ t ts, x'.queued.map (·.2.setCycle false) = t :: ts ∧ _
    cases ps with
    | nil => exact absurd rfl some_piece
    | cons p ps =>
      refine ⟨_, _, by rw [calls, trbs]; rfl, ?_⟩
      show x'.ring.givebackFirstTrb _ _ _ = _
      rw [ring]
      rfl
  · show checkTrbMath urb x' = true
    rw [checkTrbMath, none, total, whole]
    simp
  · intro busy idle queue inner free c member
    have length : (first :: others).length = ps.length := by rw [← behind, calls, ← ranges, List.length_map]
    have goesOn (k : Nat) (below : k + 1 < (first :: others).length) : moreThanOne (BitVec.ofNat 32 ps.length - BitVec.ofNat 32 k) = true :=
      more_left leads.moreThanOne few.1 (length ▸ below)
    obtain ⟨_, _, _, _, _, here, _⟩ := follows.placed queue (fun _ => inner) goesOn (by omega)
    change c ∈ x'.queued at member
    rw [behind] at member
    show ((x'.ring.givebackFirstTrb _ _ _).trb c.1).setCycle false = _
    rw [setCycle_givebackFirstTrb, here c member]

end

section
variable {q : Quirks} {hciVersion : BitVec 16} {urb : Urb} {env : Isoc.Env} {r r' : Ring}

theorem moreThanOne_unsigned : ∀ n < 2 ^ 31, (1 : BitVec 32).ult (BitVec.ofNat 32 n) = decide (1 < n) := by
  intro n few
  simp [BitVec.ult]
  omega

theorem moreThanOne_signed : ∀ n < 2 ^ 31, (1 : BitVec 32).slt (BitVec.ofNat 32 n) = decide (1 < n) := by
  intro n few
  have value : (BitVec.ofNat 32 n).toNat = n := by
    simp
    omega
  rw [slt_toNat (by decide) (by omega), value]
  rfl

theorem queueTx_error {numTrbs : BitVec 32} {moreThanOne : BitVec 32 → Bool} {next : Tx → Option Tx} {begin : Ring → Tx}
    {error : Int} (prepared : Isoc.prepareTransfer q r numTrbs.toNat 0 env = (error, r')) (failed : error ≠ 0) :
    queueTx q hciVersion urb numTrbs moreThanOne next begin env r = some ⟨error, r', none, [], true⟩ := by
  rw [queueTx, prepared]
  split
  · next same => exact absurd (congrArg Prod.fst same) failed
  · next same => cases same; rfl

/-- The scatter-gather list of a transfer: no entry is empty, the lengths are `int` values
    and there is enough for the transfer. -/
structure SgTransfer (urb : Urb) : Prop where
  proper : ProperSgs urb.sg
  enough : urb.transferBufferLength.toNat ≤ sgLength urb.sg
  some_length : 0 < urb.transferBufferLength.toNat
  small : urb.transferBufferLength.toNat < 2 ^ 31

theorem SgTransfer.count (transfer : SgTransfer urb) : countSgTrbsNeeded urb =
    some (BitVec.ofNat 32 (sgPieces urb.transferBufferLength.toNat urb.sg).length) := by
  rw [countSgTrbsNeeded, countSgLoop_pieces _ transfer.proper transfer.some_length transfer.small]
  simp

theorem SgTransfer.few (transfer : SgTransfer urb) :
    (sgPieces urb.transferBufferLength.toNat urb.sg).length ≤ urb.transferBufferLength.toNat := by
  have counted : (sgPieces urb.transferBufferLength.toNat urb.sg).length ≤ _ :=
    length_le_sum fun p member => (sgPieces_inside p member).1
  rwa [sum_sgPieces transfer.enough] at counted

theorem SgTransfer.some_entry (transfer : SgTransfer urb) : urb.sg ≠ [] := by
  intro none
  have enough := transfer.enough
  rw [none] at enough
  exact absurd transfer.some_length (by simpa [sgLength] using enough)

theorem SgTransfer.value (transfer : SgTransfer urb) :
    (BitVec.ofNat 32 (sgPieces urb.transferBufferLength.toNat urb.sg).length).toNat =
      (sgPieces urb.transferBufferLength.toNat urb.sg).length := by
  have few := transfer.few
  have small := transfer.small
  rw [BitVec.toNat_ofNat, Nat.mod_eq_of_lt (by omega)]

theorem SgTransfer.queues (transfer : SgTransfer urb) (hciVersion : BitVec 16) (prepared : Isoc.prepareTransfer q r
      (sgPieces urb.transferBufferLength.toNat urb.sg).length 0 env = (0, r')) :
    ∃ out, queueBulkSgTx q hciVersion urb env r = some out ∧
      Queues q env r' urb ((sgBytes urb.sg).take urb.transferBufferLength.toNat)
        (sgPieces urb.transferBufferLength.toNat urb.sg).length out ∧
      Pieced hciVersion urb (sgPieces urb.transferBufferLength.toNat urb.sg) out := by
  have few := transfer.few
  have small := transfer.small
  have value := transfer.value
  have some_piece := sgPieces_ne_nil transfer.proper transfer.some_length transfer.some_entry
  rw [queueBulkSgTx, transfer.count, ← bytes_sgPieces]
  cases list : urb.sg with
  | nil => exact absurd (by rw [list]; rfl) some_piece
  | cons sg sgs =>
    rw [list] at some_piece value few prepared
    have proper := transfer.proper
    have enough := transfer.enough
    rw [list] at proper enough
    refine queueTx_queues (sgReady_leads rfl small moreThanOne_unsigned) (fun _ _ => steady_sgNext)
      ⟨by simpa using transfer.some_length, proper, rfl, by simp [sgsLeft]⟩ rfl some_piece (sum_sgPieces enough)
      (fun p member => (sgPieces_inside p member).2) (fun _ p member => (sgPieces_inside p member).1) ⟨by omega, by omega⟩ ?_
    rw [value]
    exact prepared

theorem SgTransfer.fails {error : Int} (transfer : SgTransfer urb) (prepared : Isoc.prepareTransfer q r
      (BitVec.ofNat 32 (sgPieces urb.transferBufferLength.toNat urb.sg).length).toNat 0 env = (error, r'))
    (failed : error ≠ 0) : queueBulkSgTx q hciVersion urb env r = some ⟨error, r', none, [], true⟩ := by
  rw [queueBulkSgTx, transfer.count]
  cases list : urb.sg with
  | nil => exact absurd list transfer.some_entry
  | cons sg sgs =>
    rw [list] at prepared
    exact queueTx_error prepared failed

/-- `queue_bulk_sg_tx` queues as many TRBs as it has counted; they make up the transfer, and
    only the last of them ends it. -/
theorem queueBulkSgTx_queues (q : Quirks) (hciVersion : BitVec 16) (urb : Urb) (env : Isoc.Env) (r : Ring)
    (entries : ∀ sg ∈ urb.sg, 0 < sg.dmaLength.toNat ∧ sg.dmaLength.toNat ≤ 2 ^ 31 - 2 ^ 16)
    (enough : urb.transferBufferLength.toNat ≤ sgLength urb.sg) (some_length : 0 < urb.transferBufferLength.toNat)
    (short : urb.transferBufferLength.toNat ≤ 2 ^ 31 - 2 ^ 16) :
    ∃ n, countSgTrbsNeeded urb = some n ∧
      (∀ r', Isoc.prepareTransfer q r n.toNat 0 env = (0, r') → ∃ out, queueBulkSgTx q hciVersion urb env r = some out ∧
        Queues q env r' urb ((sgBytes urb.sg).take urb.transferBufferLength.toNat) n.toNat out) ∧
      ∀ r' error, Isoc.prepareTransfer q r n.toNat 0 env = (error, r') → error ≠ 0 →
        queueBulkSgTx q hciVersion urb env r = some ⟨error, r', none, [], true⟩ := by
  have transfer : SgTransfer urb := by
    refine ⟨fun sg member => ?_, enough, some_length, by omega⟩
    have := entries sg member
    omega
  refine ⟨_, transfer.count, ?_, ?_⟩
  · intro r' prepared
    rw [transfer.value] at prepared ⊢
    obtain ⟨out, result, queues, _⟩ := transfer.queues hciVersion prepared
    exact ⟨out, result, queues⟩
  · exact fun r' error prepared failed => transfer.fails prepared failed

/-- Nothing fails. -/
def quietEnv : Isoc.Env := ⟨fun _ => 1, fun _ => [], fun _ => 0, 0, fun _ => .accepted⟩

theorem bulkRing_prepared {n : Nat} (room : bulkRing.numTrbsNeeded n < 1) :
    Isoc.prepareTransfer ⟨false, false⟩ bulkRing n 0 quietEnv = (0, bulkRing) := by
  have prepared : bulkRing.prepareRing ⟨false, false⟩ 1 n [] 0 = (0, bulkRing) := by
    rw [Ring.prepareRing, if_neg (by decide), makeRoom_of_enough _ room]
    exact if_neg (by decide +kernel)
  rw [Isoc.prepareTransfer, show quietEnv.epState 0 = 1 from rfl, show quietEnv.answers 0 = [] from rfl,
    show quietEnv.status 0 = 0 from rfl, prepared]
  rfl

/-- Two entries that cross a boundary each, and the transfer ends within the second one. -/
def straddling : Urb := ⟨0, 70000, [⟨65000, 1000⟩, ⟨0x20400, 80000⟩], true, 512⟩

theorem queueBulkSgTx_queues_straddling : ∃ out, queueBulkSgTx ⟨false, false⟩ 0x100 straddling quietEnv bulkRing = some out ∧
    Queues ⟨false, false⟩ quietEnv bulkRing straddling ((sgBytes straddling.sg).take 70000) 4 out := by
  obtain ⟨n, counted, queues, _⟩ := queueBulkSgTx_queues ⟨false, false⟩ 0x100 straddling quietEnv bulkRing
    (by decide) (by decide) (by decide) (by decide)
  have four : n = 4 := by
    rw [show countSgTrbsNeeded straddling = some 4 by decide +kernel] at counted
    exact (Option.some.inj counted).symm
  rw [four] at queues
  exact queues bulkRing (bulkRing_prepared (by decide +kernel))

theorem countTrbsNeeded_pieces (small : urb.transferBufferLength.toNat < 2 ^ 31) :
    countTrbsNeeded urb = some (BitVec.ofNat 32 (bulkPieces urb).length) := by
  have below : ∀ t : BitVec 32, t.ult urb.transferBufferLength = decide (t.toNat < urb.transferBufferLength.toNat) :=
    fun _ => rfl
  rw [countTrbsNeeded, bulkPieces]
  by_cases empty : urb.transferBufferLength = 0
  · have none : urb.transferBufferLength.toNat = 0 := by rw [empty]; rfl
    simp only [empty, or_true, if_true]
    rw [countLoop_rounds (n := 0) (by decide) (by simp [BitVec.ult]) _ _ _ (by simp [countFuel])]
    simp
  · have some_length : 0 < urb.transferBufferLength.toNat := by
      rw [Nat.pos_iff_ne_zero]
      exact fun none => empty (BitVec.eq_of_toNat_eq none)
    have counted := countLoop_pieces urb.transferBuffer some_length small below 0
    simp only [empty, or_false, if_false]
    simpa using counted

theorem bulkPieces_inside (urb : Urb) : (∀ p ∈ bulkPieces urb, p.1.toNat % 65536 + p.2 ≤ 65536) ∧
      (urb.transferBufferLength ≠ 0 → ∀ p ∈ bulkPieces urb, 0 < p.2) ∧
      ((bulkPieces urb).map Prod.snd).sum = urb.transferBufferLength.toNat ∧
      0 < (bulkPieces urb).length ∧ (bulkPieces urb).length ≤ max 1 urb.transferBufferLength.toNat := by
  rw [bulkPieces]
  split_ifs with empty
  · have below := Nat.mod_lt urb.transferBuffer.toNat (show 0 < 65536 by decide)
    refine ⟨?_, fun more => absurd empty more, by simp [empty], by simp, by simp⟩
    intro p member
    rw [List.mem_singleton.mp member]
    omega
  · have some_length : 0 < urb.transferBufferLength.toNat := by
      rw [Nat.pos_iff_ne_zero]
      exact fun none => empty (BitVec.eq_of_toNat_eq none)
    have whole : ((pieces urb.transferBuffer urb.transferBufferLength.toNat).map Prod.snd).sum =
        urb.transferBufferLength.toNat := by rw [pieces, parts, snd_placed, sum_cuts (by decide)]
    have each := fun p member => parts_inside (M := 65536) (by decide) toNat_add_mod (n := urb.transferBufferLength.toNat)
      (a := urb.transferBuffer) p member
    have few : (pieces urb.transferBuffer urb.transferBufferLength.toNat).length ≤ _ :=
      length_le_sum fun p member => (each p member).1
    rw [whole] at few
    refine ⟨fun p member => (each p member).2, fun _ p member => (each p member).1, whole, ?_, by omega⟩
    exact List.length_pos_iff.mpr (pieces_ne_nil some_length)

theorem bytes_bulkPieces : ((bulkPieces urb).flatMap fun p => bytes p.1 p.2) =
    bytes urb.transferBuffer urb.transferBufferLength.toNat := by
  rw [bulkPieces]
  split_ifs with empty
  · simp [empty, bytes]
  · exact bytes_parts (by decide) _ _

theorem bulkPieces_value (small : urb.transferBufferLength.toNat < 2 ^ 31) :
    (BitVec.ofNat 32 (bulkPieces urb).length).toNat = (bulkPieces urb).length := by
  obtain ⟨_, _, _, _, few⟩ := bulkPieces_inside urb
  rw [BitVec.toNat_ofNat, Nat.mod_eq_of_lt (by omega)]

theorem queueBulkTx_pieces (hciVersion : BitVec 16) (small : urb.transferBufferLength.toNat < 2 ^ 31)
    (prepared : Isoc.prepareTransfer q r (bulkPieces urb).length 0 env = (0, r')) :
    ∃ out, queueBulkTx q hciVersion urb env r = some out ∧
      Queues q env r' urb (bytes urb.transferBuffer urb.transferBufferLength.toNat) (bulkPieces urb).length out ∧
      Pieced hciVersion urb (bulkPieces urb) out := by
  obtain ⟨inside, nonempty, whole, some_piece, few⟩ := bulkPieces_inside urb
  rw [queueBulkTx, countTrbsNeeded_pieces small, ← bytes_bulkPieces]
  dsimp only
  refine queueTx_queues (bulkReady_leads rfl small moreThanOne_signed) (fun _ _ => steady_bulkNext) ?_ ?_
    (List.length_pos_iff.mp some_piece) whole inside nonempty ⟨by omega, by omega⟩ ?_
  · constructor
    · exact Nat.zero_le _
    · have boundary := toBoundary_toNat urb.transferBuffer
      have none : (0 : BitVec 32).toNat = 0 := rfl
      dsimp only
      rw [none, Nat.sub_zero]
      split_ifs with shorter
      · have := of_decide_eq_true shorter
        omega
      · have := of_decide_eq_false (Bool.not_eq_true _ ▸ shorter)
        omega
    · exact if_congr Iff.rfl rfl rfl
  · dsimp only
  · rw [bulkPieces_value small]
    exact prepared

/-- `ehub_xhci_queue_bulk_tx` queues as many TRBs as it has reserved. -/
theorem queueBulkTx_queues (q : Quirks) (hciVersion : BitVec 16) (urb : Urb) (env : Isoc.Env) (r : Ring)
    (short : urb.transferBufferLength.toNat ≤ 2 ^ 31 - 2 ^ 16) :
    ∃ n, countTrbsNeeded urb = some n ∧ 0 < n.toNat ∧
      (∀ r', Isoc.prepareTransfer q r n.toNat 0 env = (0, r') → ∃ out, queueBulkTx q hciVersion urb env r = some out ∧
        Queues q env r' urb (bytes urb.transferBuffer urb.transferBufferLength.toNat) n.toNat out) ∧
      ∀ r' error, Isoc.prepareTransfer q r n.toNat 0 env = (error, r') → error ≠ 0 →
        queueBulkTx q hciVersion urb env r = some ⟨error, r', none, [], true⟩ := by
  have small : urb.transferBufferLength.toNat < 2 ^ 31 := by omega
  obtain ⟨_, _, _, some_piece, _⟩ := bulkPieces_inside urb
  have counted := countTrbsNeeded_pieces small
  have value := bulkPieces_value small
  refine ⟨_, counted, by rw [value]; exact some_piece, ?_, ?_⟩
  · intro r' prepared
    rw [value] at prepared ⊢
    obtain ⟨out, result, queues, _⟩ := queueBulkTx_pieces hciVersion small prepared
    exact ⟨out, result, queues⟩
  · intro r' error prepared failed
    rw [queueBulkTx, counted]
    exact queueTx_error prepared failed

/-- A buffer that begins and ends within a window of 64KB, with a whole one in between. -/
def unaligned : Urb := ⟨0x1fff0, 131072, [], false, 512⟩

theorem queueBulkTx_queues_unaligned : ∃ out, queueBulkTx ⟨false, false⟩ 0x100 unaligned quietEnv bulkRing = some out ∧
    Queues ⟨false, false⟩ quietEnv bulkRing unaligned (bytes unaligned.transferBuffer 131072) 3 out := by
  obtain ⟨n, counted, _, queues, _⟩ := queueBulkTx_queues ⟨false, false⟩ 0x100 unaligned quietEnv bulkRing
    (by decide)
  have three : n = 3 := by
    rw [show countTrbsNeeded unaligned = some 3 by decide +kernel] at counted
    exact (Option.some.inj counted).symm
  rw [three] at queues
  exact queues bulkRing (bulkRing_prepared (by decide +kernel))

end

end Ehub.Bulk
