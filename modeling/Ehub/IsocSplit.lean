import Mathlib
import Ehub.Bulk
import Ehub.CachePool

/-!
How the frames of an isochronous URB are split (`count_isoc_trbs_needed` and the inner
loop of `xhci_queue_isoc_tx`). The count is worked out from `transfer_dma`, the TRBs
from `transfer_buffer`, and `ehub_xhci_map_urb_for_dma` makes nothing of the one for an
isochronous endpoint that it could share with the other. A frame is split right when it
reaches as many windows from the one address as from the other, and only then.
-/
namespace Ehub.IsocSplit
open Ehub.Cuts Ehub.Bulk Ehub.CachePool

/-- An entry of a scatter-gather list, with what the mapping fills in. -/
structure SgEntry where
  virt : BitVec 64
  length : BitVec 32
  dmaAddress : BitVec 64
  dmaLength : BitVec 32

/-- `struct usb_iso_packet_descriptor`. -/
structure Frame where
  offset : BitVec 32
  length : BitVec 32
deriving DecidableEq

/-- What `ehub_xhci_map_urb_for_dma` reads and writes of an URB, with the frames. -/
structure Urb where
  control : Bool
  transferBuffer : BitVec 64
  transferBufferLength : BitVec 32
  transferDma : BitVec 64
  setupDma : BitVec 64
  sg : List SgEntry
  numMappedSgs : Nat
  noTransferDmaMap : Bool
  setupMapSingle : Bool
  setupMapLocal : Bool
  dmaMapSg : Bool
  mapLocal : Bool
  isoFrameDesc : List Frame

/-- What `ehub_xhci_map_urb_for_dma` asks of the host controller driver. -/
structure Hcd where
  usesPioForControl : Bool
  usesDma : Bool
  localMem : Bool

def eAGAIN : Int := 11

/-- The part of `ehub_xhci_map_urb_for_dma` for the data. -/
def mapData (hcd : Hcd) (urb : Urb) : Urb :=
  if urb.transferBufferLength ≠ 0 ∧ !urb.noTransferDmaMap then
    if urb.sg ≠ [] then
      { urb with
        sg := urb.sg.map fun s => { s with dmaAddress := s.virt, dmaLength := s.length }
        dmaMapSg := true
        numMappedSgs := urb.sg.length }
    else if hcd.localMem then { urb with mapLocal := true }
    else urb
  else urb

/-- `ehub_xhci_map_urb_for_dma`, with the address that the setup packet is mapped to. A
    list that is not empty always has entries to map. -/
def mapUrbForDma (hcd : Hcd) (setupDma : Option (BitVec 64)) (urb : Urb) : Int × Urb :=
  if urb.control then
    if hcd.usesPioForControl then (0, urb)
    else if hcd.usesDma then
      match setupDma with
      | none => (-eAGAIN, urb)
      | some addr => (0, mapData hcd { urb with setupDma := addr, setupMapSingle := true })
    else if hcd.localMem then (0, mapData hcd { urb with setupMapLocal := true })
    else (0, mapData hcd urb)
  else (0, mapData hcd urb)

/-- The `max_buffer_size` that `ehub_xhci_endpoint_init` sets: the data of isochronous OUT
    endpoints is kept in cache blocks. -/
def maxBufferSize (isocOut : Bool) : BitVec 32 :=
  if isocOut then BitVec.ofNat 32 ehubCacheBlockSize else trbMaxBuffSize

/-- `count_isoc_trbs_needed`. -/
def countIsocTrbsNeeded (urb : Urb) (frame : Frame) (maxBufferSize : BitVec 32) : BitVec 32 :=
  let addr := urb.transferDma + frame.offset.setWidth 64
  let size := maxBufferSize.setWidth 64
  let tdLen := frame.length.setWidth 64
  let numTrbs := ((tdLen + (addr &&& (size - 1)) + size - 1) / size).setWidth 32
  if numTrbs = 0 then numTrbs + 1 else numTrbs

/-- The inner loop of `xhci_queue_isoc_tx`: the address and the length of each TRB. -/
def splitLoop (maxBufferSize : BitVec 32) : Nat → BitVec 64 → BitVec 32 → List (BitVec 64 × BitVec 32)
  | 0, _, _ => []
  | n + 1, addr, tdRemainLen =>
    let size := maxBufferSize.setWidth 64
    let trbBuffLen := (size - (addr &&& (size - 1))).setWidth 32
    let trbBuffLen := if tdRemainLen.slt trbBuffLen then tdRemainLen else trbBuffLen
    (addr, trbBuffLen) :: splitLoop maxBufferSize n (addr + trbBuffLen.signExtend 64) (tdRemainLen - trbBuffLen)

/-- The TRBs of a frame. -/
def splitFrame (urb : Urb) (frame : Frame) (maxBufferSize : BitVec 32) : List (BitVec 64 × BitVec 32) :=
  splitLoop maxBufferSize (countIsocTrbsNeeded urb frame maxBufferSize).toNat
    (urb.transferBuffer + frame.offset.setWidth 64) frame.length

/-- The running total at the end, which has to be the length of the frame. -/
def runningTotal (chunks : List (BitVec 64 × BitVec 32)) : BitVec 32 := (chunks.map Prod.snd).sum

/-- The TRBs cover the frame. -/
structure Covers (urb : Urb) (frame : Frame) (maxBufferSize : BitVec 32) : Prop where
  bytes : ((splitFrame urb frame maxBufferSize).flatMap fun c => bytes c.1 c.2.toNat) =
    bytes (urb.transferBuffer + frame.offset.setWidth 64) frame.length.toNat
  inside : ∀ c ∈ splitFrame urb frame maxBufferSize, c.1.toNat % maxBufferSize.toNat + c.2.toNat ≤ maxBufferSize.toNat
  nonempty : frame.length ≠ 0 → ∀ c ∈ splitFrame urb frame maxBufferSize, c.2 ≠ 0
  measured : runningTotal (splitFrame urb frame maxBufferSize) = frame.length

/-- A frame reaches as many windows from the one address of the URB as from the other. -/
def SameWindows (urb : Urb) (frame : Frame) (maxBufferSize : BitVec 32) : Prop :=
  windows maxBufferSize.toNat (urb.transferDma + frame.offset.setWidth 64).toNat frame.length.toNat =
    windows maxBufferSize.toNat (urb.transferBuffer + frame.offset.setWidth 64).toNat frame.length.toNat

instance decidableSameWindows (urb : Urb) (frame : Frame) (maxBufferSize : BitVec 32) :
    Decidable (SameWindows urb frame maxBufferSize) := instDecidableEqNat _ _

/-! ### The two sizes -/

section
variable {isocOut : Bool}

theorem size_facts (isocOut : Bool) : 0 < (maxBufferSize isocOut).toNat ∧ (maxBufferSize isocOut).toNat ≤ 65536 ∧
    (maxBufferSize isocOut).toNat ∣ 2 ^ 64 := by
  cases isocOut
  · exact ⟨by decide, by decide, ⟨2 ^ 48, by decide⟩⟩
  · exact ⟨by decide, by decide, ⟨2 ^ 54, by decide⟩⟩

theorem toNat_and_size (isocOut : Bool) (addr : BitVec 64) :
    (addr &&& ((maxBufferSize isocOut).setWidth 64 - 1)).toNat = addr.toNat % (maxBufferSize isocOut).toNat := by
  cases isocOut
  · exact (BitVec.toNat_and ..).trans (Nat.and_two_pow_sub_one_eq_mod addr.toNat 16)
  · exact (BitVec.toNat_and ..).trans (Nat.and_two_pow_sub_one_eq_mod addr.toNat 10)

theorem toNat_setWidth_size (isocOut : Bool) : ((maxBufferSize isocOut).setWidth 64).toNat = (maxBufferSize isocOut).toNat := by
  cases isocOut <;> rfl

theorem toNat_add_mod_size (isocOut : Bool) (addr : BitVec 64) (n : Nat) :
    (addr + (n : BitVec 64)).toNat % (maxBufferSize isocOut).toNat = (addr.toNat + n) % (maxBufferSize isocOut).toNat := by
  have wraps := (size_facts isocOut).2.2
  have value : ((n : Nat) : BitVec 64).toNat = n % 2 ^ 64 := BitVec.toNat_ofNat n 64
  rw [BitVec.toNat_add, Nat.mod_mod_of_dvd _ wraps, value, Nat.add_mod, Nat.mod_mod_of_dvd _ wraps, ← Nat.add_mod]

/-- How far it is to the next boundary. -/
theorem toBoundary_size (isocOut : Bool) (addr : BitVec 64) :
    (((maxBufferSize isocOut).setWidth 64 - (addr &&& ((maxBufferSize isocOut).setWidth 64 - 1))).setWidth 32).toNat =
      (maxBufferSize isocOut).toNat - addr.toNat % (maxBufferSize isocOut).toNat := by
  obtain ⟨positive, small, _⟩ := size_facts isocOut
  have below := Nat.mod_lt addr.toNat positive
  rw [BitVec.toNat_setWidth, BitVec.toNat_sub_of_le (by rw [BitVec.le_def, toNat_and_size, toNat_setWidth_size]; omega),
    toNat_and_size, toNat_setWidth_size]
  omega

/-- The count is the number of windows that the frame reaches from `transfer_dma`. -/
theorem countIsocTrbsNeeded_toNat (urb : Urb) (frame : Frame) (isocOut : Bool) :
    (countIsocTrbsNeeded urb frame (maxBufferSize isocOut)).toNat =
      if frame.length.toNat = 0 then 1
      else windows (maxBufferSize isocOut).toNat (urb.transferDma + frame.offset.setWidth 64).toNat frame.length.toNat := by
  obtain ⟨positive, small, _⟩ := size_facts isocOut
  have below := Nat.mod_lt (urb.transferDma + frame.offset.setWidth 64).toNat positive
  have fits := frame.length.isLt
  have sum : (frame.length.setWidth 64 + ((urb.transferDma + frame.offset.setWidth 64) &&&
      ((maxBufferSize isocOut).setWidth 64 - 1)) + (maxBufferSize isocOut).setWidth 64 - 1).toNat =
        frame.length.toNat + (urb.transferDma + frame.offset.setWidth 64).toNat % (maxBufferSize isocOut).toNat +
          (maxBufferSize isocOut).toNat - 1 := by
    have whole : (frame.length.setWidth 64 + ((urb.transferDma + frame.offset.setWidth 64) &&&
        ((maxBufferSize isocOut).setWidth 64 - 1)) + (maxBufferSize isocOut).setWidth 64).toNat =
          frame.length.toNat + (urb.transferDma + frame.offset.setWidth 64).toNat % (maxBufferSize isocOut).toNat +
            (maxBufferSize isocOut).toNat := by
      rw [BitVec.toNat_add, BitVec.toNat_add, toNat_and_size, toNat_setWidth_size, BitVec.toNat_setWidth]
      omega
    rw [BitVec.toNat_sub_of_le (by rw [BitVec.le_def, whole]; exact le_trans positive (Nat.le_add_left _ _)), whole]
    rfl
  have one : ∀ w : BitVec 32, (if w = 0 then w + 1 else w).toNat = if w.toNat = 0 then 1 else w.toNat := by
    intro w
    by_cases zero : w = 0
    · rw [if_pos zero, zero]
      rfl
    · rw [if_neg zero, if_neg (show w.toNat ≠ 0 from fun none => zero (BitVec.eq_of_toNat_eq none))]
  rw [countIsocTrbsNeeded, one, BitVec.toNat_setWidth, BitVec.toNat_udiv, sum, toNat_setWidth_size, windows]
  generalize (urb.transferDma + frame.offset.setWidth 64).toNat = a at below ⊢
  cases isocOut with
  | false =>
    rw [show (maxBufferSize false).toNat = 65536 from rfl] at below ⊢
    split_ifs <;> omega
  | true =>
    rw [show (maxBufferSize true).toNat = 1024 from rfl] at below ⊢
    split_ifs <;> omega

/-! ### The split -/

/-- As many parts as the stretch has when it is cut at the boundaries, as long as there is
    something left; the others are empty. -/
def firstParts (M n a l : Nat) : List Nat := (cuts M a l ++ List.replicate n 0).take n

theorem firstParts_succ {M n a l : Nat} (positive : 0 < M) : firstParts M (n + 1) a l =
    min (M - a % M) l :: firstParts M n (a + min (M - a % M) l) (l - min (M - a % M) l) := by
  rcases Nat.eq_zero_or_pos l with rfl | some_length
  · simp [firstParts, List.replicate_succ]
  · rw [firstParts, cuts_pos positive some_length, List.cons_append, List.take_succ_cons, firstParts, List.replicate_succ']
    congr 1
    rw [← List.append_assoc, List.take_append_of_le_length (by simp)]

theorem splitLoop_eq (isocOut : Bool) : ∀ (n : Nat) (addr : BitVec 64) (left : BitVec 32), left.toNat < 2 ^ 31 →
    (splitLoop (maxBufferSize isocOut) n addr left).map (fun c => (c.1, c.2.toNat)) =
      placed addr (firstParts (maxBufferSize isocOut).toNat n addr.toNat left.toNat) := by
  obtain ⟨positive, small, _⟩ := size_facts isocOut
  intro n
  induction n with
  | zero => simp [splitLoop, firstParts, placed]
  | succ n ih =>
    intro addr left signed
    have boundary := toBoundary_size isocOut addr
    set toBoundary := ((maxBufferSize isocOut).setWidth 64 - (addr &&& ((maxBufferSize isocOut).setWidth 64 - 1))).setWidth 32
    have len : (if left.slt toBoundary then left else toBoundary).toNat =
        min ((maxBufferSize isocOut).toNat - addr.toNat % (maxBufferSize isocOut).toNat) left.toNat := by
      rw [slt_toNat signed (by omega)]
      split_ifs with shorter
      · have := of_decide_eq_true shorter
        omega
      · have := of_decide_eq_false (Bool.not_eq_true _ ▸ shorter)
        omega
    rw [splitLoop]
    change (addr, (if left.slt toBoundary then left else toBoundary).toNat) ::
      (splitLoop (maxBufferSize isocOut) n (addr + (if left.slt toBoundary then left else toBoundary).signExtend 64)
        (left - if left.slt toBoundary then left else toBoundary)).map (fun c => (c.1, c.2.toNat)) = _
    generalize (if left.slt toBoundary then left else toBoundary) = k at len ⊢
    have rest : (left - k).toNat = left.toNat - k.toNat := BitVec.toNat_sub_of_le (by rw [BitVec.le_def]; omega)
    have onward := cuts_mod (n := left.toNat - k.toNat) positive (toNat_add_mod_size isocOut addr k.toNat)
    rw [ih _ _ (by omega), rest, signExtend_eq (by omega), firstParts_succ positive, ← len, placed, firstParts, firstParts,
      onward]

/-- The parts cover the stretch, and none is empty, only when there are as many of them as
    it has. -/
theorem firstParts_exact {M n a l : Nat} (positive : 0 < M) :
    ((firstParts M n a l).sum = l ∧ ∀ k ∈ firstParts M n a l, k ≠ 0) ↔ n = windows M a l := by
  have count := length_cuts (n := l) positive a
  constructor
  · rintro ⟨whole, nonempty⟩
    rcases Nat.lt_trichotomy n (windows M a l) with few | same | many
    · -- What is left out is not empty.
      rw [firstParts, List.take_append_of_le_length (by omega)] at whole
      have split := sum_cuts (n := l) positive a
      rw [← List.take_append_drop n (cuts M a l), List.sum_append, whole] at split
      cases more : (cuts M a l).drop n with
      | nil =>
        have := congrArg List.length more
        simp at this
        omega
      | cons k ks =>
        have := pos_of_mem_cuts positive k (List.mem_of_mem_drop (more ▸ List.mem_cons_self))
        rw [more, List.sum_cons] at split
        omega
    · exact same
    · refine absurd rfl (nonempty 0 ?_)
      rw [firstParts, List.take_append, List.mem_append]
      refine .inr ?_
      rw [List.take_replicate, List.mem_replicate]
      exact ⟨by omega, rfl⟩
  · rintro rfl
    rw [firstParts, List.take_append_of_le_length (by omega), List.take_of_length_le (by omega)]
    exact ⟨sum_cuts positive a, fun k member => (pos_of_mem_cuts positive k member).ne'⟩

theorem toNat_sum : ∀ ws : List (BitVec 32), ws.sum = BitVec.ofNat 32 (ws.map BitVec.toNat).sum := by
  intro ws
  induction ws with
  | nil => rfl
  | cons w ws ih => rw [List.sum_cons, ih, List.map_cons, List.sum_cons, BitVec.ofNat_add, BitVec.ofNat_toNat, BitVec.setWidth_eq]

/-- The first TRB of a frame whose length is negative as an `int` takes all of it. -/
theorem splitLoop_negative {n : Nat} {addr : BitVec 64} {left : BitVec 32} (isocOut : Bool) (negative : 2 ^ 31 ≤ left.toNat) :
    (addr, left) ∈ splitLoop (maxBufferSize isocOut) (n + 1) addr left := by
  obtain ⟨positive, small, _⟩ := size_facts isocOut
  have boundary := toBoundary_size isocOut addr
  have below : left.slt (((maxBufferSize isocOut).setWidth 64 -
      (addr &&& ((maxBufferSize isocOut).setWidth 64 - 1))).setWidth 32) = true := by
    have isNeg : left.toInt < 0 := by
      rw [BitVec.toInt_eq_toNat_cond, if_neg (by omega)]
      omega
    have notNeg := BitVec.toInt_eq_toNat_of_lt (x := ((maxBufferSize isocOut).setWidth 64 -
      (addr &&& ((maxBufferSize isocOut).setWidth 64 - 1))).setWidth 32) (by omega)
    rw [BitVec.slt, notNeg]
    exact decide_eq_true (by omega)
  rw [splitLoop]
  simp only [below, if_true]
  exact List.mem_cons_self

section
variable {urb urb' : Urb} {frame : Frame}

theorem splitFrame_eq (urb : Urb) (isocOut : Bool) (signed : frame.length.toNat < 2 ^ 31) :
    (splitFrame urb frame (maxBufferSize isocOut)).map (fun c => (c.1, c.2.toNat)) =
      placed (urb.transferBuffer + frame.offset.setWidth 64)
        (firstParts (maxBufferSize isocOut).toNat (countIsocTrbsNeeded urb frame (maxBufferSize isocOut)).toNat
          (urb.transferBuffer + frame.offset.setWidth 64).toNat frame.length.toNat) :=
  splitLoop_eq isocOut _ _ _ signed

theorem lengths_splitFrame (urb : Urb) (isocOut : Bool) (signed : frame.length.toNat < 2 ^ 31) :
    (splitFrame urb frame (maxBufferSize isocOut)).map (·.2.toNat) =
      firstParts (maxBufferSize isocOut).toNat (countIsocTrbsNeeded urb frame (maxBufferSize isocOut)).toNat
        (urb.transferBuffer + frame.offset.setWidth 64).toNat frame.length.toNat := by
  have split := congrArg (List.map Prod.snd) (splitFrame_eq urb isocOut signed)
  rwa [snd_placed, List.map_map] at split

theorem runningTotal_eq (chunks : List (BitVec 64 × BitVec 32)) :
    runningTotal chunks = BitVec.ofNat 32 (chunks.map (·.2.toNat)).sum := by
  rw [runningTotal, toNat_sum, List.map_map]
  rfl

theorem length_flatMap_bytes (chunks : List (BitVec 64 × BitVec 32)) :
    (chunks.flatMap fun c => bytes c.1 c.2.toNat).length = (chunks.map (·.2.toNat)).sum := by
  rw [List.length_flatMap]
  simp

/-- As many TRBs as the frame has parts when it is cut at the boundaries of its buffer are
    these parts. -/
theorem covers_of_windows (isocOut : Bool) (signed : frame.length.toNat < 2 ^ 31)
    (same : (countIsocTrbsNeeded urb frame (maxBufferSize isocOut)).toNat = windows (maxBufferSize isocOut).toNat
      (urb.transferBuffer + frame.offset.setWidth 64).toNat frame.length.toNat) :
    Covers urb frame (maxBufferSize isocOut) := by
  obtain ⟨positive, _, _⟩ := size_facts isocOut
  have cut : firstParts (maxBufferSize isocOut).toNat (countIsocTrbsNeeded urb frame (maxBufferSize isocOut)).toNat
      (urb.transferBuffer + frame.offset.setWidth 64).toNat frame.length.toNat =
        cuts (maxBufferSize isocOut).toNat (urb.transferBuffer + frame.offset.setWidth 64).toNat frame.length.toNat := by
    have count := length_cuts (n := frame.length.toNat) positive (urb.transferBuffer + frame.offset.setWidth 64).toNat
    rw [firstParts, List.take_append_of_le_length (by omega), List.take_of_length_le (by omega)]
  have split := splitFrame_eq urb isocOut signed
  have lengths := lengths_splitFrame urb isocOut signed
  rw [cut] at split lengths
  have each : ∀ c ∈ splitFrame urb frame (maxBufferSize isocOut),
      0 < c.2.toNat ∧ c.1.toNat % (maxBufferSize isocOut).toNat + c.2.toNat ≤ (maxBufferSize isocOut).toNat := by
    intro c member
    have here := List.mem_map_of_mem (f := fun c : BitVec 64 × BitVec 32 => (c.1, c.2.toNat)) member
    rw [split] at here
    exact parts_inside positive (toNat_add_mod_size isocOut) _ here
  refine ⟨?_, fun c member => (each c member).2, fun _ c member none => ?_, ?_⟩
  · have whole : (parts BitVec.toNat (maxBufferSize isocOut).toNat (urb.transferBuffer + frame.offset.setWidth 64)
        frame.length.toNat).flatMap (fun p => bytes p.1 p.2) = _ := bytes_parts positive _ _
    rw [← whole, parts, ← split, List.flatMap_map]
  · have positive' := (each c member).1
    rw [none] at positive'
    exact absurd positive' (by decide)
  · rw [runningTotal_eq, lengths, sum_cuts positive]
    simp

theorem covers_empty (isocOut : Bool) (empty : frame.length = 0) : Covers urb frame (maxBufferSize isocOut) := by
  obtain ⟨positive, _, _⟩ := size_facts isocOut
  have none : frame.length.toNat = 0 := by rw [empty]; rfl
  have split := splitFrame_eq urb isocOut (show frame.length.toNat < _ by omega)
  have lengths := lengths_splitFrame urb isocOut (show frame.length.toNat < _ by omega)
  rw [countIsocTrbsNeeded_toNat, none, if_pos rfl, firstParts_succ positive, Nat.min_zero] at split lengths
  change _ = [(urb.transferBuffer + frame.offset.setWidth 64, 0)] at split
  refine ⟨?_, ?_, fun some_length => absurd empty some_length, ?_⟩
  · have onto : ((splitFrame urb frame (maxBufferSize isocOut)).flatMap fun c => bytes c.1 c.2.toNat) =
        ((splitFrame urb frame (maxBufferSize isocOut)).map fun c => (c.1, c.2.toNat)).flatMap fun p => bytes p.1 p.2 :=
      (List.flatMap_map (fun c : BitVec 64 × BitVec 32 => (c.1, c.2.toNat)) (fun p => bytes p.1 p.2) _).symm
    rw [onto, split, none]
    rfl
  · intro c member
    have here := List.mem_map_of_mem (f := fun c : BitVec 64 × BitVec 32 => (c.1, c.2.toNat)) member
    rw [split, List.mem_singleton, Prod.mk.injEq] at here
    have below := Nat.mod_lt c.1.toNat positive
    omega
  · rw [runningTotal_eq, lengths, empty]
    rfl

theorem covers_iff (isocOut : Bool) : Covers urb frame (maxBufferSize isocOut) ↔
    frame.length = 0 ∨ (frame.length.toNat < 2 ^ 31 ∧ SameWindows urb frame (maxBufferSize isocOut)) := by
  obtain ⟨positive, small, _⟩ := size_facts isocOut
  have counted := countIsocTrbsNeeded_toNat urb frame isocOut
  constructor
  · intro covers
    by_cases empty : frame.length = 0
    · exact .inl empty
    · refine .inr ?_
      have some_length : frame.length.toNat ≠ 0 := fun none => empty (BitVec.eq_of_toNat_eq none)
      rw [if_neg some_length] at counted
      have signed : frame.length.toNat < 2 ^ 31 := by
        by_contra negative
        have some_trb := windows_pos (M := (maxBufferSize isocOut).toNat)
          (a := (urb.transferDma + frame.offset.setWidth 64).toNat) (Nat.pos_of_ne_zero some_length)
        have first : (urb.transferBuffer + frame.offset.setWidth 64, frame.length) ∈
            splitFrame urb frame (maxBufferSize isocOut) := by
          rw [splitFrame, counted, ← Nat.succ_pred_eq_of_pos some_trb]
          exact splitLoop_negative isocOut (by omega)
        have within := covers.inside _ first
        simp only at within
        omega
      refine ⟨signed, ?_⟩
      rw [SameWindows, ← counted]
      refine (firstParts_exact positive).mp ?_
      rw [← lengths_splitFrame urb isocOut signed]
      refine ⟨?_, ?_⟩
      · have whole := congrArg List.length covers.bytes
        rwa [length_flatMap_bytes, length_bytes] at whole
      · intro k member
        obtain ⟨c, here, rfl⟩ := List.mem_map.mp member
        exact fun none => covers.nonempty empty c here (BitVec.eq_of_toNat_eq none)
  · rintro (empty | ⟨signed, same⟩)
    · exact covers_empty isocOut empty
    · by_cases empty : frame.length = 0
      · exact covers_empty isocOut empty
      · have some_length : frame.length.toNat ≠ 0 := fun none => empty (BitVec.eq_of_toNat_eq none)
        rw [if_neg some_length] at counted
        exact covers_of_windows isocOut signed (counted.trans same)

/-- An URB for an isochronous endpoint is always accepted, with its addresses as they are. -/
theorem mapUrbForDma_isoc (hcd : Hcd) (setupDma : Option (BitVec 64)) (isoc : urb.control = false) :
    (mapUrbForDma hcd setupDma urb).1 = 0 ∧ (mapUrbForDma hcd setupDma urb).2.transferDma = urb.transferDma ∧
      (mapUrbForDma hcd setupDma urb).2.transferBuffer = urb.transferBuffer ∧
      (mapUrbForDma hcd setupDma urb).2.isoFrameDesc = urb.isoFrameDesc := by
  have mapped : mapUrbForDma hcd setupDma urb = (0, mapData hcd urb) := by simp [mapUrbForDma, isoc]
  rw [mapped, mapData]
  split_ifs <;> exact ⟨rfl, rfl, rfl, rfl⟩

/-- The TRBs of all frames of an URB that has been mapped cover them if and only if every
    frame is empty, or reaches as many windows from `transfer_dma` as from
    `transfer_buffer`. -/
theorem frames_covered_iff {hcd : Hcd} {setupDma : Option (BitVec 64)} (isoc : urb.control = false)
    (accepted : mapUrbForDma hcd setupDma urb = (0, urb')) (isocOut : Bool) :
    (∀ frame ∈ urb'.isoFrameDesc, Covers urb' frame (maxBufferSize isocOut)) ↔
      ∀ frame ∈ urb.isoFrameDesc,
        frame.length = 0 ∨ (frame.length.toNat < 2 ^ 31 ∧ SameWindows urb frame (maxBufferSize isocOut)) := by
  obtain ⟨_, dma, buffer, frames⟩ := mapUrbForDma_isoc hcd setupDma isoc
  rw [accepted] at dma buffer frames
  simp only at dma buffer frames
  rw [frames]
  refine forall₂_congr fun frame _ => ?_
  rw [covers_iff, SameWindows, SameWindows, dma, buffer]

theorem nat_and_size (isocOut : Bool) (a : Nat) :
    a &&& ((maxBufferSize isocOut).toNat - 1) = a % (maxBufferSize isocOut).toNat := by
  cases isocOut
  · exact Nat.and_two_pow_sub_one_eq_mod a 16
  · exact Nat.and_two_pow_sub_one_eq_mod a 10

/-- The count and the split of the TRBs that are queued on the ring. -/
theorem bufferLengths_eq (isocOut : Bool) : ∀ n a l,
    Isoc.bufferLengths (maxBufferSize isocOut).toNat n a l = firstParts (maxBufferSize isocOut).toNat n a l := by
  obtain ⟨positive, _, _⟩ := size_facts isocOut
  intro n
  induction n with
  | zero => simp [Isoc.bufferLengths, firstParts]
  | succ n ih =>
    intro a l
    rw [Isoc.bufferLengths, firstParts_succ positive, nat_and_size]
    simp only [ih]

theorem isoc_count (isocOut : Bool) (u : Isoc.Urb) (p : Isoc.Packet) :
    Isoc.countIsocTrbsNeeded u p (maxBufferSize isocOut).toNat =
      if p.length = 0 then 1 else windows (maxBufferSize isocOut).toNat (u.transferDma + p.offset) p.length := by
  have below := Nat.mod_lt (u.transferDma + p.offset) (size_facts isocOut).1
  rw [Isoc.countIsocTrbsNeeded, nat_and_size, windows]
  cases isocOut with
  | false =>
    rw [show (maxBufferSize false).toNat = 65536 from rfl] at below ⊢
    split_ifs <;> omega
  | true =>
    rw [show (maxBufferSize true).toNat = 1024 from rfl] at below ⊢
    split_ifs <;> omega

/-- A frame that is covered does not fail the check of its length. -/
theorem Covers.measured_isoc {isocOut : Bool} {u : Isoc.Urb} (covers : Covers urb frame (maxBufferSize isocOut))
    (buffer : u.transferBuffer = urb.transferBuffer.toNat) (dma : u.transferDma = urb.transferDma.toNat) :
    (Isoc.packetLengths u (maxBufferSize isocOut).toNat ⟨frame.offset.toNat, frame.length.toNat⟩).sum =
      frame.length.toNat := by
  obtain ⟨positive, _, _⟩ := size_facts isocOut
  have moved : ∀ addr : BitVec 64, (addr.toNat + frame.offset.toNat) % (maxBufferSize isocOut).toNat =
      (addr + frame.offset.setWidth 64).toNat % (maxBufferSize isocOut).toNat := by
    intro addr
    have offset : frame.offset.setWidth 64 = ((frame.offset.toNat : Nat) : BitVec 64) := by
      apply BitVec.eq_of_toNat_eq
      simp
    rw [offset, toNat_add_mod_size]
  rw [Isoc.packetLengths, bufferLengths_eq, isoc_count]
  simp only [dma, buffer]
  rcases (covers_iff isocOut).mp covers with empty | ⟨signed, same⟩
  · rw [empty]
    simp [firstParts]
  · by_cases none : frame.length.toNat = 0
    · rw [none]
      simp [firstParts]
    · rw [if_neg none]
      refine ((firstParts_exact positive).mpr ?_).1
      rw [SameWindows, windows, windows, ← moved, ← moved] at same
      exact same

/-- A frame of 200 bytes, 100 bytes before a boundary of the buffer. The address that nothing
    has set is zero. -/
def unmapped : Urb :=
  ⟨false, 0xff9c, 200, 0, 0, [], 0, false, false, false, false, false, [⟨0, 200⟩]⟩

def ehubHcd : Hcd := ⟨false, true, false⟩

theorem not_frames_covered : ¬∀ (hcd : Hcd) (setupDma : Option (BitVec 64)) (urb urb' : Urb) (isocOut : Bool),
    urb.control = false → mapUrbForDma hcd setupDma urb = (0, urb') →
    ∀ frame ∈ urb'.isoFrameDesc, Covers urb' frame (maxBufferSize isocOut) := by
  intro always
  have covers := always ehubHcd none unmapped unmapped false rfl rfl ⟨0, 200⟩ (by decide)
  exact absurd covers.measured (by decide)

/-- Two frames in one window each. -/
def aligned : Urb :=
  ⟨false, 0x10000, 2000, 0, 0, [], 0, false, false, false, false, false, [⟨0, 1000⟩, ⟨1024, 1000⟩]⟩

theorem frames_covered_aligned : aligned.isoFrameDesc.length = 2 ∧
    ∀ frame ∈ aligned.isoFrameDesc, Covers aligned frame (maxBufferSize true) := by
  have accepted : mapUrbForDma ehubHcd none aligned = (0, aligned) := rfl
  refine ⟨rfl, (frames_covered_iff rfl accepted true).mpr ?_⟩
  decide

end

end

end Ehub.IsocSplit
