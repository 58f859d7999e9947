import Mathlib
import Ehub.Message
import Ehub.Bytes

/-!
How a received URB becomes a work item (`URB_CompletionRoutine_GetMessage`) and what the
work item makes the parser do. The packets of an isochronous URB lie at their own places
in the transfer buffer; those of status 0 are moved together at the start of a cleared
buffer that is as long as all packets, so that what the failed ones leave out at its end
reads as the zero word that ends the messages.
-/
namespace Ehub.Merge
open Ehub.Message Ehub.Bytes

/-- The part of `struct usb_iso_packet_descriptor` that the routine reads. -/
structure Packet where
  status : Int
  offset : Nat
  actualLength : Nat
deriving DecidableEq

/-- A completed URB; `isoFrameDesc` has `number_of_packets` entries. The length of the buffer
    that `URB_CreateIsoch` allocates is an `int`, and no more than the buffer holds is reported. -/
structure Urb where
  status : Int
  actualLength : BitVec 32
  transferBuffer : Option (Nat → BitVec 8)
  transferBufferLength : Nat
  isoFrameDesc : List Packet
  allocated : transferBufferLength < 2 ^ 31
  reported : actualLength.toNat ≤ transferBufferLength

structure WorkItem where
  dataBuffer : Bytes.Memory
  dataBufferLength : Int

/-- `WORK_ITEM_Create`: the bytes of the buffer are zero, `beyond` them there may be anything. -/
def workItemCreate (beyond : Nat → BitVec 8) (dataBufferLength : Int) : WorkItem :=
  ⟨unwritten fun o => if (o : Int) < dataBufferLength then 0 else beyond o, dataBufferLength⟩

/-- The loop over the packets; `dataBuf` is the place in the buffer that `data_buf` points to. -/
def merge (xferBuf : Nat → BitVec 8) : List Packet → Nat → Bytes.Memory → Bytes.Memory
  | [], _, b => b
  | packet :: packets, dataBuf, b =>
    if packet.status = 0 then
      merge xferBuf packets (dataBuf + packet.actualLength)
        (b.fill dataBuf packet.actualLength fun i => xferBuf (packet.offset + i))
    else merge xferBuf packets dataBuf b

/-- What the routine leaves behind: the work item that it submits, and whether it submits the URB again. -/
structure Completion where
  workItem : Option WorkItem
  resubmits : Bool

/-- `URB_CompletionRoutine_GetMessage`, with the result of `DEVICECONTEXT_ErrorCheck`. -/
def completionRoutineGetMessage (errorCheck : Int) (beyond : Nat → BitVec 8) (urb : Urb) : Completion :=
  if errorCheck < 0 then ⟨none, false⟩
  else
    let xferBufLen := urb.actualLength.toInt
    match urb.transferBuffer with
    | none => ⟨none, false⟩
    | some xferBuf =>
      let workItem :=
        if 0 < xferBufLen then
          let item := workItemCreate beyond xferBufLen
          if urb.isoFrameDesc = [] then
            some { item with dataBuffer := item.dataBuffer.fill 0 xferBufLen.toNat xferBuf }
          else some { item with dataBuffer := merge xferBuf urb.isoFrameDesc 0 item.dataBuffer }
        else none
      ⟨workItem, urb.status = 0⟩

/-- `WORK_ITEM_Process_MessageHandle`. -/
def processMessageHandle (context : Context) (item : WorkItem) : Option (List Act) :=
  messageParsing context item.dataBuffer.byte item.dataBufferLength.toNat

/-! ### What the loop writes -/

/-- The packets whose bytes are taken. -/
def taken (packets : List Packet) : List Packet := packets.filter fun packet => packet.status = 0

/-- The bytes of all packets. -/
def total (packets : List Packet) : Nat := (packets.map Packet.actualLength).sum

/-- The bytes of a packet in the transfer buffer. -/
def Packet.bytes (xferBuf : Nat → BitVec 8) (packet : Packet) : List Byte :=
  (List.range packet.actualLength).map fun i => xferBuf (packet.offset + i)

section
variable (xferBuf : Nat → BitVec 8)

@[simp] theorem length_bytes (packet : Packet) : (packet.bytes xferBuf).length = packet.actualLength := by
  simp [Packet.bytes]

theorem taken_cons_ok {packet : Packet} (packets : List Packet) (ok : packet.status = 0) :
    taken (packet :: packets) = packet :: taken packets := by
  simp [taken, ok]

theorem taken_cons_failed {packet : Packet} (packets : List Packet) (failed : packet.status ≠ 0) :
    taken (packet :: packets) = taken packets := by
  simp [taken, failed]

theorem total_taken_le (packets : List Packet) : total (taken packets) ≤ total packets := by
  induction packets with
  | nil => exact Nat.le_refl _
  | cons packet packets ih =>
    by_cases ok : packet.status = 0
    · rw [taken_cons_ok packets ok]
      simp only [total, List.map_cons, List.sum_cons] at ih ⊢
      omega
    · rw [taken_cons_failed packets ok]
      simp only [total, List.map_cons, List.sum_cons] at ih ⊢
      omega

/-- What stands outside the stretch that the taken packets fill is left alone. -/
theorem byte_merge_other (packets : List Packet) {dataBuf o : Nat} (b : Bytes.Memory)
    (outside : o < dataBuf ∨ dataBuf + total (taken packets) ≤ o) : (merge xferBuf packets dataBuf b).byte o = b.byte o := by
  induction packets generalizing dataBuf b with
  | nil => rfl
  | cons packet packets ih =>
    rw [merge]
    by_cases ok : packet.status = 0
    · rw [taken_cons_ok packets ok] at outside
      simp only [total, List.map_cons, List.sum_cons] at ih outside
      rw [if_pos ok, ih _ (by omega), byte_fill_other _ _ _ _ (by omega)]
    · rw [taken_cons_failed packets ok] at outside
      rw [if_neg ok, ih _ outside]

theorem touched_merge (packets : List Packet) {dataBuf o : Nat} (b : Bytes.Memory) :
    o ∈ (merge xferBuf packets dataBuf b).touched ↔
      (dataBuf ≤ o ∧ o < dataBuf + total (taken packets)) ∨ o ∈ b.touched := by
  induction packets generalizing dataBuf b with
  | nil => simp [merge, taken, total]
  | cons packet packets ih =>
    rw [merge]
    by_cases ok : packet.status = 0
    · rw [if_pos ok, ih, mem_touched_fill, taken_cons_ok packets ok]
      simp only [total, List.map_cons, List.sum_cons]
      have first : dataBuf ≤ o ∧ o < dataBuf + packet.actualLength ∨
          dataBuf + packet.actualLength ≤ o ∧ o < dataBuf + packet.actualLength + (List.map Packet.actualLength (taken packets)).sum ↔
          dataBuf ≤ o ∧ o < dataBuf + (packet.actualLength + (List.map Packet.actualLength (taken packets)).sum) := by omega
      rw [← first]
      tauto
    · rw [if_neg ok, ih, taken_cons_failed packets ok]

/-- The taken packets stand one behind the other. -/
theorem holds_merge (packets : List Packet) (dataBuf : Nat) (b : Bytes.Memory) :
    Holds (merge xferBuf packets dataBuf b).byte dataBuf ((taken packets).flatMap (Packet.bytes xferBuf)) := by
  induction packets generalizing dataBuf b with
  | nil => exact fun _ inside => absurd inside (Nat.not_lt_zero _)
  | cons packet packets ih =>
    rw [merge]
    by_cases ok : packet.status = 0
    · rw [if_pos ok, taken_cons_ok packets ok, List.flatMap_cons]
      intro i inside
      by_cases here : i < packet.actualLength
      · rw [byte_merge_other _ _ _ (.inl (by omega)), byte_fill_at _ _ _ _ here, List.getElem_append_left (by simpa using here)]
        simp [Packet.bytes]
      · have later := ih (dataBuf + packet.actualLength)
          (b.fill dataBuf packet.actualLength fun i => xferBuf (packet.offset + i)) (i - packet.actualLength)
          (by simp only [List.length_append, length_bytes] at inside; omega)
        rw [show dataBuf + packet.actualLength + (i - packet.actualLength) = dataBuf + i by omega] at later
        rw [later, List.getElem_append_right (by simpa using here)]
        simp
    · rw [if_neg ok, taken_cons_failed packets ok]
      exact ih dataBuf b

end

/-! ### What is dispatched -/

/-- The messages are whole and padded, so the packets together are again such messages. -/
theorem encodeAll_taken {xferBuf : Nat → BitVec 8} {messages : Packet → List Record} (packets : List Packet)
    (carries : ∀ packet ∈ taken packets, packet.bytes xferBuf = encodeAll (messages packet)) :
    (taken packets).flatMap (Packet.bytes xferBuf) = encodeAll ((taken packets).flatMap messages) := by
  rw [encodeAll, List.flatMap_assoc]
  exact List.flatMap_congr carries

theorem length_taken (xferBuf : Nat → BitVec 8) (packets : List Packet) :
    ((taken packets).flatMap (Packet.bytes xferBuf)).length = total (taken packets) := by
  simp [List.length_flatMap, total]

theorem dvd_total {packets : List Packet} (words : ∀ packet ∈ packets, 4 ∣ packet.actualLength) : 4 ∣ total packets := by
  apply List.dvd_sum
  intro n there
  obtain ⟨packet, member, rfl⟩ := List.mem_map.mp there
  exact words packet member

/-- Behind the taken packets the buffer is clear to its end. -/
theorem dword_after (xferBuf beyond : Nat → BitVec 8) {packets : List Packet}
    (words : ∀ packet ∈ packets, 4 ∣ packet.actualLength) (left : total (taken packets) < total packets) :
    dword (merge xferBuf packets 0 (workItemCreate beyond (total packets)).dataBuffer).byte (total (taken packets)) = 0 := by
  have whole := dvd_total words
  have part : 4 ∣ total (taken packets) := dvd_total fun packet there => words packet (List.mem_of_mem_filter there)
  have clear : ∀ k < 4, (merge xferBuf packets 0 (workItemCreate beyond (total packets)).dataBuffer).byte
      (total (taken packets) + k) = 0 := by
    intro k below
    rw [byte_merge_other _ _ _ (.inr (by omega))]
    have inside : ((total (taken packets) + k : Nat) : Int) < total packets := by omega
    exact if_pos inside
  have first := clear 0 (by omega)
  rw [Nat.add_zero] at first
  rw [dword, clear 3 (by omega), clear 2 (by omega), clear 1 (by omega), first]
  rfl

/-- The messages of the packets of status 0 are dispatched, in the order of the packets, and nothing
    else; only the buffer of the work item is written. -/
theorem getMessage_dispatches {errorCheck : Int} (works : 0 ≤ errorCheck) (context : Context)
    (noError : ∀ pass, 0 ≤ context.errorCheck pass) (beyond : Nat → BitVec 8) (urb : Urb) {xferBuf : Nat → BitVec 8}
    (given : urb.transferBuffer = some xferBuf) (all : urb.actualLength.toNat = total urb.isoFrameDesc)
    (words : ∀ packet ∈ urb.isoFrameDesc, 4 ∣ packet.actualLength) (messages : Packet → List Record)
    (carries : ∀ packet ∈ taken urb.isoFrameDesc, packet.bytes xferBuf = encodeAll (messages packet)) :
    let sent := (taken urb.isoFrameDesc).flatMap messages
    match (completionRoutineGetMessage errorCheck beyond urb).workItem with
    | none => sent = []
    | some item =>
      (∀ o ∈ item.dataBuffer.touched, (o : Int) < item.dataBufferLength) ∧
        Holds item.dataBuffer.byte 0 (encodeAll sent) ∧
        ∃ acts, processMessageHandle context item = some acts ∧ calls acts = wanted 0 sent := by
  intro sent
  have asInt : urb.actualLength.toInt = total urb.isoFrameDesc := by
    rw [BitVec.toInt_eq_toNat_of_lt (by have := urb.reported; have := urb.allocated; omega), all]
  have bytes := encodeAll_taken urb.isoFrameDesc carries
  have size : (encodeAll sent).length = total (taken urb.isoFrameDesc) := by
    rw [← bytes, length_taken]
  have fits := total_taken_le urb.isoFrameDesc
  rw [completionRoutineGetMessage, if_neg (by omega), given]
  dsimp only
  rw [asInt]
  by_cases empty : total urb.isoFrameDesc = 0
  · rw [if_neg (by omega)]
    cases shape : sent with
    | nil => rfl
    | cons m ms =>
      have long := encode_length_ge m
      rw [shape, encodeAll, List.flatMap_cons, List.length_append] at size
      omega
  · have some_ : urb.isoFrameDesc ≠ [] := by
      intro nothing
      rw [nothing] at empty
      exact empty rfl
    rw [if_pos (by omega), if_neg some_]
    have holds := holds_merge xferBuf urb.isoFrameDesc 0 (workItemCreate beyond (total urb.isoFrameDesc)).dataBuffer
    rw [bytes] at holds
    refine ⟨?_, holds, ?_⟩
    · intro o there
      rw [touched_merge] at there
      simp only [workItemCreate, unwritten, List.not_mem_nil, or_false] at there ⊢
      omega
    · obtain ⟨acts, run⟩ := messageParsing_terminates context
        (merge xferBuf urb.isoFrameDesc 0 (workItemCreate beyond (total urb.isoFrameDesc)).dataBuffer).byte
        (total urb.isoFrameDesc) (by omega)
      refine ⟨acts, run, parsingLoop_encodeAll _ _ noError sent 0 0 _ holds (by omega) (by omega) ?_ run⟩
      intro left
      rw [Nat.zero_add, size] at left ⊢
      exact dword_after xferBuf beyond words left

theorem regAccess_32 : regAccess 0x20 = true := by decide

/-- A register response and, behind a failed packet, the answer to a memory read. -/
def mixedUrb : Urb where
  status := 0
  actualLength := 36
  transferBuffer := some fun i =>
    if i < 1024 then bytesOf (encode (.registerResponse 0x20 0 0 5 regAccess_32)) i
    else bytesOf (encode (.memoryRead 0x1 0x00200000 0 (by decide) (by decide))) (i - 2048)
  transferBufferLength := 3072
  isoFrameDesc := [⟨0, 0, 16⟩, ⟨-71, 1024, 8⟩, ⟨0, 2048, 12⟩]
  allocated := by decide
  reported := by decide

theorem getMessage_dispatches_mixed :
    ∃ item, (completionRoutineGetMessage 0 (fun _ => 255) mixedUrb).workItem = some item ∧
      ∃ acts, processMessageHandle working item = some acts ∧
        calls acts = [(.registerReadCompletion, 0), (.memoryReadCompletion, 16)] := by
  obtain ⟨_, _, dispatched⟩ := getMessage_dispatches (Int.le_refl 0) working (fun _ => Int.le_refl 0) (fun _ => 255) mixedUrb rfl
    (by decide) (by decide)
    (fun packet =>
      if packet.offset = 0 then [.registerResponse 0x20 0 0 5 (by decide)]
      else [.memoryRead 0x1 0x00200000 0 (by decide) (by decide)])
    (by decide)
  exact ⟨_, rfl, dispatched⟩

end Ehub.Merge
