import Mathlib
import Ehub.Bytes

/-!
The packet of a cache write (`EMBEDDED_CACHE_Write`). Behind a header of a command word and
the address comes the payload, padded to a multiple of 8 bytes. Instead of a buffer the
caller may ask for a cleared segment, whose TRBs belong to the producer; the loop that sets
their cycle bits goes from one TRB to the sixteenth behind it, and out of the buffer.
-/
namespace Ehub.CachePacket
open Ehub.Bytes

/-- `sizeof(EMBEDDED_CACHE_TRANSFER)`. -/
def sizeofCacheTransfer : Nat := 8

/-- `MESSAGE_DATA_BUFFER_SIZE_CACHE`, and the data buffer of the URB with room for a header. -/
def messageDataBufferSizeCache : Nat := 0x400 * 3
def dataBufferSize : Nat := sizeofCacheTransfer + messageDataBufferSizeCache

def trbsPerSegment : Nat := 64
def sizeofLinkTrb : Nat := 16
def trbCycle : BitVec 32 := 1

/-- The `Length` field of `EMBEDDED_MEMORY_COMMAND`. -/
def length (w : BitVec 32) : BitVec 16 := w.extractLsb' 8 16
def setLength (w : BitVec 32) (n : BitVec 16) : BitVec 32 := (w &&& ~~~(0xffff#32 <<< 8)) ||| n.setWidth 32 <<< 8

/-- The `Cache` bit. -/
def setCache (w : BitVec 32) : BitVec 32 := w ||| 1 <<< 4

def eINVAL : Int := 22

/-- `DataBufferLength` rounded up to a multiple of 8. -/
def aligned (dataBufferLength : BitVec 32) : BitVec 32 :=
  dataBufferLength + if dataBufferLength &&& 7 ≠ 0 then 8 - dataBufferLength % 8 else 0

/-- The loop that sets the cycle bits. The pointer to a TRB is moved by as many TRBs as a TRB has
    bytes. -/
def setCycles : Nat → Nat → Memory → Memory
  | 0, _, b => b
  | n + 1, trb, b =>
    setCycles n (trb + sizeofLinkTrb * sizeofLinkTrb) (b.setWord (trb + 12) (b.word (trb + 12) ||| trbCycle))

/-- The status of the call, `transfer_buffer_length` if the URB has been submitted, and the data
    buffer. -/
structure Outcome where
  status : Int
  submitted : Option (BitVec 32)
  buffer : Memory

/-- `EMBEDDED_CACHE_Write`, with the results of `DEVICECONTEXT_ErrorCheck` and `URB_Submit` and what
    is in the data buffer and, if there is one, at `DataBuffer`. -/
def embeddedCacheWrite (errorCheck submit : Int) (cacheAddress : BitVec 32) (dataBuffer : Option (Nat → BitVec 8))
    (dataBufferLength : BitVec 32) (trbCycleState : Int) (bytes : Nat → BitVec 8) : Outcome :=
  if errorCheck < 0 then ⟨errorCheck, none, unwritten bytes⟩
  else if cacheAddress &&& 7 ≠ 0 then ⟨-eINVAL, none, unwritten bytes⟩
  else
    let b := (unwritten bytes).setWord 4 cacheAddress
    let b := b.setWord 0 (setLength (b.word 0) ((aligned dataBufferLength >>> 3).setWidth 16))
    let b := b.setWord 0 (setCache (b.word 0))
    let b := match dataBuffer with
      | some data => b.fill sizeofCacheTransfer dataBufferLength.toNat data
      | none =>
        let b := b.fill sizeofCacheTransfer dataBufferLength.toNat fun _ => 0
        if trbCycleState = 0 then setCycles trbsPerSegment sizeofCacheTransfer b else b
    ⟨submit, some (BitVec.ofNat 32 sizeofCacheTransfer + aligned dataBufferLength), b⟩

/-- The payload that is asked for. The control word of a TRB begins with its twelfth byte. -/
def payload (dataBuffer : Option (Nat → BitVec 8)) (dataBufferLength : BitVec 32) (trbCycleState : Int) (i : Nat) : BitVec 8 :=
  match dataBuffer with
  | some data => data i
  | none => if trbCycleState = 0 ∧ dataBufferLength = 1024 ∧ i % sizeofLinkTrb = 12 then 1 else 0

/-- A packet as it should be: its length is that of the payload, which is padded to 8 bytes; the
    payload is what is asked for; and nothing is written outside the data buffer. -/
structure Packet (cacheAddress : BitVec 32) (dataBuffer : Option (Nat → BitVec 8)) (dataBufferLength : BitVec 32)
    (trbCycleState : Int) (transferLength : BitVec 32) (b : Memory) : Prop where
  address : b.word 4 = cacheAddress
  counted : (length (b.word 0)).toNat * 8 + sizeofCacheTransfer = transferLength.toNat
  padded : transferLength.toNat = sizeofCacheTransfer + (dataBufferLength.toNat + 7) / 8 * 8
  content : ∀ i < dataBufferLength.toNat, b.byte (sizeofCacheTransfer + i) = payload dataBuffer dataBufferLength trbCycleState i
  inside : ∀ o ∈ b.touched, o < dataBufferSize

/-- A call does what it should: with an address that is not aligned, or on a device with an error,
    it fails and submits nothing; otherwise it submits a packet. -/
def Meets (errorCheck : Int) (cacheAddress : BitVec 32) (dataBuffer : Option (Nat → BitVec 8)) (dataBufferLength : BitVec 32)
    (trbCycleState : Int) (out : Outcome) : Prop :=
  if errorCheck < 0 ∨ cacheAddress.toNat % 8 ≠ 0 then out.status < 0 ∧ out.submitted = none ∧ out.buffer.touched = []
  else ∃ transferLength, out.submitted = some transferLength ∧
    Packet cacheAddress dataBuffer dataBufferLength trbCycleState transferLength out.buffer

/-! ### The header -/

theorem length_setLength (w : BitVec 32) (n : BitVec 16) : length (setLength w n) = n := by
  apply BitVec.eq_of_getLsbD_eq
  intro i inside
  simp only [length, setLength, BitVec.getLsbD_extractLsb', BitVec.getLsbD_or, BitVec.getLsbD_and, BitVec.getLsbD_not,
    BitVec.getLsbD_shiftLeft, BitVec.getLsbD_setWidth]
  have mask : (0xffff#32).getLsbD i = true := by
    interval_cases i <;> rfl
  have below : 8 + i < 32 := by omega
  have above : ¬8 + i < 8 := by omega
  simp [inside, mask, below, above]
  omega

theorem length_setCache (w : BitVec 32) : length (setCache w) = length w := by
  apply BitVec.eq_of_getLsbD_eq
  intro i inside
  have bit : (16#32).getLsbD (8 + i) = false := by
    interval_cases i <;> rfl
  simp [length, setCache, bit]

theorem and_seven (w : BitVec 32) : (w &&& 7).toNat = w.toNat % 8 := by
  rw [BitVec.toNat_and]
  exact Nat.and_two_pow_sub_one_eq_mod w.toNat 3

theorem aligned_address (cacheAddress : BitVec 32) : cacheAddress &&& 7 ≠ 0 ↔ cacheAddress.toNat % 8 ≠ 0 := by
  rw [← and_seven, ne_eq, ne_eq, ← BitVec.toNat_inj]
  rfl

theorem toNat_aligned {n : BitVec 32} (small : n.toNat ≤ messageDataBufferSizeCache) : (aligned n).toNat = (n.toNat + 7) / 8 * 8 := by
  have le : n.toNat ≤ 3072 := small
  have low : (n % 8).toNat = n.toNat % 8 := BitVec.toNat_umod
  rw [aligned]
  by_cases exact_size : n.toNat % 8 = 0
  · have same : ¬(n &&& 7 ≠ 0) := fun other => (aligned_address n).mp other exact_size
    rw [if_neg same, show n + 0 = n from add_zero n]
    omega
  · have other : n &&& 7 ≠ 0 := (aligned_address n).mpr exact_size
    have gap : (8 - n % 8).toNat = 8 - n.toNat % 8 := by
      rw [BitVec.toNat_sub_of_le (BitVec.le_def.mpr (by rw [low]; show _ ≤ 8; omega)), low]
      rfl
    rw [if_pos other, BitVec.toNat_add, gap]
    omega

/-! ### The payload -/

/-- The loop comes to a TRB in every stretch of sixteen. -/
theorem touched_setCycles : ∀ {n trb k : Nat} (b : Memory), k < n → trb + 256 * k + 12 ∈ (setCycles n trb b).touched := by
  have kept : ∀ {n trb o : Nat} (b : Memory), o ∈ b.touched → o ∈ (setCycles n trb b).touched := by
    intro n
    induction n with
    | zero => exact fun _ there => there
    | succ n ih =>
      intro trb o b there
      rw [setCycles]
      exact ih _ (by simp [there])
  intro n
  induction n with
  | zero => exact fun _ inside => absurd inside (Nat.not_lt_zero _)
  | succ n ih =>
    intro trb k b inside
    rw [setCycles]
    cases k with
    | zero => exact kept _ (by simp)
    | succ k =>
      rw [show trb + 256 * (k + 1) + 12 = trb + sizeofLinkTrb * sizeofLinkTrb + 256 * k + 12 by simp [sizeofLinkTrb]; omega]
      exact ih (b.setWord (trb + 12) (b.word (trb + 12) ||| trbCycle)) (by omega)

/-- The buffer with the header and `n` bytes of payload. -/
def filled (cacheAddress dataBufferLength : BitVec 32) (bytes payload : Nat → BitVec 8) : Memory :=
  let b := (unwritten bytes).setWord 4 cacheAddress
  let b := b.setWord 0 (setLength (b.word 0) ((aligned dataBufferLength >>> 3).setWidth 16))
  let b := b.setWord 0 (setCache (b.word 0))
  b.fill sizeofCacheTransfer dataBufferLength.toNat payload

section
variable {errorCheck submit : Int} {cacheAddress dataBufferLength : BitVec 32} {dataBuffer : Option (Nat → BitVec 8)}
  {trbCycleState : Int} {bytes : Nat → BitVec 8}

theorem filled_header (cacheAddress : BitVec 32) (bytes : Nat → BitVec 8)
    (small : dataBufferLength.toNat ≤ messageDataBufferSizeCache) (f : Nat → BitVec 8) :
    (filled cacheAddress dataBufferLength bytes f).word 4 = cacheAddress ∧
      (length ((filled cacheAddress dataBufferLength bytes f).word 0)).toNat * 8 = (aligned dataBufferLength).toNat := by
  have le : dataBufferLength.toNat ≤ 3072 := small
  simp only [filled]
  refine ⟨?_, ?_⟩
  · rw [word_fill_other _ _ _ _ _ (by simp [sizeofCacheTransfer]), word_setWord_other _ _ _ (by omega),
      word_setWord_other _ _ _ (by omega), word_setWord]
  · rw [word_fill_other _ _ _ _ _ (by simp [sizeofCacheTransfer]), word_setWord, length_setCache, word_setWord, length_setLength,
      BitVec.toNat_setWidth, BitVec.toNat_ushiftRight, toNat_aligned small, Nat.shiftRight_eq_div_pow]
    omega

/-- A payload that is copied or cleared. -/
theorem filled_packet (small : dataBufferLength.toNat ≤ messageDataBufferSizeCache) (f : Nat → BitVec 8)
    (asked : ∀ i, f i = payload dataBuffer dataBufferLength trbCycleState i) :
    Packet cacheAddress dataBuffer dataBufferLength trbCycleState (BitVec.ofNat 32 sizeofCacheTransfer + aligned dataBufferLength)
      (filled cacheAddress dataBufferLength bytes f) := by
  have le : dataBufferLength.toNat ≤ 3072 := small
  have size := toNat_aligned small
  have whole : (BitVec.ofNat 32 sizeofCacheTransfer + aligned dataBufferLength).toNat =
      sizeofCacheTransfer + (aligned dataBufferLength).toNat := by
    rw [BitVec.toNat_add, size]
    simp only [sizeofCacheTransfer, BitVec.toNat_ofNat]
    omega
  obtain ⟨address, counted⟩ := filled_header cacheAddress bytes small f
  refine ⟨address, ?_, ?_, ?_, ?_⟩
  · rw [counted, whole, Nat.add_comm]
  · rw [whole, size]
  · intro i inside
    rw [← asked i]
    exact byte_fill_at _ sizeofCacheTransfer _ f inside
  · intro o there
    simp only [filled, mem_touched_fill, mem_touched_setWord, unwritten, List.not_mem_nil, or_false, sizeofCacheTransfer] at there
    simp only [dataBufferSize, sizeofCacheTransfer, messageDataBufferSizeCache]
    omega

/-- What is submitted, on a device without errors. -/
theorem embeddedCacheWrite_eq (submit : Int) (dataBuffer : Option (Nat → BitVec 8)) (dataBufferLength : BitVec 32)
    (trbCycleState : Int) (bytes : Nat → BitVec 8) (works : ¬errorCheck < 0) (straight : cacheAddress.toNat % 8 = 0) :
    embeddedCacheWrite errorCheck submit cacheAddress dataBuffer dataBufferLength trbCycleState bytes =
      ⟨submit, some (BitVec.ofNat 32 sizeofCacheTransfer + aligned dataBufferLength),
        match dataBuffer with
        | some data => filled cacheAddress dataBufferLength bytes data
        | none =>
          if trbCycleState = 0 then
            setCycles trbsPerSegment sizeofCacheTransfer (filled cacheAddress dataBufferLength bytes fun _ => 0)
          else filled cacheAddress dataBufferLength bytes fun _ => 0⟩ := by
  have onWord : ¬(cacheAddress &&& 7 ≠ 0) := fun crooked => (aligned_address cacheAddress).mp crooked straight
  rw [embeddedCacheWrite, if_neg works, if_neg onWord]
  cases dataBuffer <;> rfl

end

/-- A call does what it should unless it is to clear a segment whose TRBs belong to a producer with
    cycle state 0. -/
theorem embeddedCacheWrite_iff (errorCheck submit : Int) (cacheAddress : BitVec 32) (dataBuffer : Option (Nat → BitVec 8))
    {dataBufferLength : BitVec 32} (small : dataBufferLength.toNat ≤ messageDataBufferSizeCache) (trbCycleState : Int)
    (bytes : Nat → BitVec 8) :
    Meets errorCheck cacheAddress dataBuffer dataBufferLength trbCycleState
        (embeddedCacheWrite errorCheck submit cacheAddress dataBuffer dataBufferLength trbCycleState bytes) ↔
      errorCheck < 0 ∨ cacheAddress.toNat % 8 ≠ 0 ∨ dataBuffer.isSome = true ∨ trbCycleState ≠ 0 := by
  by_cases failed : errorCheck < 0
  · rw [Meets, embeddedCacheWrite, if_pos failed, if_pos (.inl failed)]
    exact ⟨fun _ => .inl failed, fun _ => ⟨failed, rfl, rfl⟩⟩
  by_cases crooked : cacheAddress.toNat % 8 ≠ 0
  · rw [Meets, embeddedCacheWrite, if_neg failed, if_pos ((aligned_address cacheAddress).mpr crooked), if_pos (.inr crooked)]
    exact ⟨fun _ => .inr (.inl crooked), fun _ => ⟨by simp [eINVAL], rfl, rfl⟩⟩
  have straight : cacheAddress.toNat % 8 = 0 := by omega
  rw [Meets, if_neg (by omega), embeddedCacheWrite_eq submit dataBuffer dataBufferLength trbCycleState bytes failed straight]
  cases dataBuffer with
  | some data => exact ⟨fun _ => .inr (.inr (.inl rfl)), fun _ => ⟨_, rfl, filled_packet small data fun _ => rfl⟩⟩
  | none =>
    dsimp only
    by_cases clears : trbCycleState = 0
    · rw [if_pos clears]
      constructor
      · rintro ⟨_, _, packet⟩
        have last : 63 < trbsPerSegment := by decide
        have there : sizeofCacheTransfer + 256 * 63 + 12 ∈ _ :=
          touched_setCycles (filled cacheAddress dataBufferLength bytes fun _ => 0) last
        have inside := packet.inside _ there
        exact absurd inside (by decide)
      · rintro (failed' | crooked' | given | other)
        · exact absurd failed' failed
        · exact absurd crooked' crooked
        · exact absurd given (by simp)
        · exact absurd clears other
    · rw [if_neg clears]
      refine ⟨fun _ => .inr (.inr (.inr clears)), fun _ => ⟨_, rfl, filled_packet small _ fun i => ?_⟩⟩
      simp [payload, clears]

/-- A copied buffer of 3072 bytes. -/
theorem embeddedCacheWrite_iff_copied : Meets 0 0x1000 (some fun _ => 7) 3072 (-1)
    (embeddedCacheWrite 0 0 0x1000 (some fun _ => 7) 3072 (-1) fun _ => 0) :=
  have small : (3072 : BitVec 32).toNat ≤ messageDataBufferSizeCache := by decide
  (embeddedCacheWrite_iff 0 0 0x1000 (some fun _ => 7) small (-1) fun _ => 0).mpr (.inr (.inr (.inl rfl)))

/-- Clearing a segment for cycle state 0 writes beyond the buffer, and sets the cycle bit of the first
    TRB but not of the second. -/
theorem embeddedCacheWrite_overruns :
    ¬Meets 0 0x1000 none 1024 0 (embeddedCacheWrite 0 0 0x1000 none 1024 0 fun _ => 0) ∧
      (embeddedCacheWrite 0 0 0x1000 none 1024 0 fun _ => 0).buffer.byte (8 + 12) = 1 ∧
      (embeddedCacheWrite 0 0 0x1000 none 1024 0 fun _ => 0).buffer.byte (8 + 28) = 0 := by
  refine ⟨?_, by decide +kernel, by decide +kernel⟩
  rintro ⟨_, _, packet⟩
  have there : 16148 ∈ (embeddedCacheWrite 0 0 0x1000 none 1024 0 fun _ => 0).buffer.touched := by decide +kernel
  exact absurd (packet.inside _ there) (by decide)

end Ehub.CachePacket
