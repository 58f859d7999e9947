import Mathlib
import Ehub.CachePool
import Ehub.DequeueState
import Ehub.Mirror

/-!
The writes of `ehub_xhci_cache_copy_from_ring`. What has been queued since the last copy is
written to the cache blocks segment by segment: from `cache_enqueue` to the end of its
segment, through whole segments, and up to the TRB before `enqueue`. Each write names an
address of the device, a length in bytes, and whether its completion rings the doorbell.
-/
namespace Ehub.CacheCopy
open Ehub.Lap Ehub.Segments Ehub.Ring Ehub.RingShape Ehub.Mirror Ehub.CachePool

/-- What `ehub_queue_cache_write` gets, with the TRB of the host that the data starts at. -/
structure CopyWrite where
  startTrb : TrbPtr
  cacheAddress : BitVec 32
  dataBufferLength : BitVec 32
  ringDoorbell : Bool
deriving DecidableEq

/-- The writes of the loop, when all are accepted; nothing when it has not come to its end. -/
def cacheCopyWrites (last : TrbPtr) (ringDoorbell : Bool) (next : Addr → Addr) : Nat → TrbPtr → Option (List CopyWrite)
  | 0, _ => none
  | fuel + 1, start =>
    let lastCopy := !(start.seg ≠ last.seg || start.idx > last.idx)
    let endIdx := if lastCopy then last.idx else trbsPerSegment - 1
    let trbOffset := 16 * start.idx
    let cacheAddress := start.seg + BitVec.ofNat 64 trbOffset
    let copyLength := BitVec.ofNat 32 (16 * (1 + endIdx - start.idx))
    let writes : List CopyWrite :=
      if cacheAddress ≠ 0 ∧ copyLength ≠ 0 then [⟨start, cacheAddress.setWidth 32, copyLength, lastCopy && ringDoorbell⟩] else []
    if lastCopy then some writes
    else (cacheCopyWrites last ringDoorbell next fuel ⟨next start.seg, 0⟩).map (writes ++ ·)

/-- `ehub_xhci_cache_copy_from_ring`: the writes, and the ring with the new `cache_enqueue`. -/
def cacheCopy (r : Ring) (ringDoorbell : Bool) (fuel : Nat) : Option (Ring × List CopyWrite) :=
  match r.findPrevTrb r.enqueue with
  | none => none
  | some last =>
    (cacheCopyWrites last ringDoorbell r.next fuel r.cacheEnqueue).map fun writes => ({ r with cacheEnqueue := r.enqueue }, writes)

namespace CopyWrite

/-- The TRBs that a write carries. -/
def trbs (w : CopyWrite) : List TrbPtr := run w.startTrb.seg w.startTrb.idx (w.dataBufferLength.toNat / 16)

/-- The write goes to the block of the segment it comes from, at the offset that the data has
    in the segment, and stays inside the block. -/
def Inside (w : CopyWrite) : Prop :=
  ∃ block < ehubCacheNumberOfBlocks, w.startTrb.seg.toNat = address block ∧
    w.cacheAddress.toNat = address block + 16 * w.startTrb.idx ∧ w.cacheAddress.toNat % 16 = 0 ∧
    16 * w.startTrb.idx + w.dataBufferLength.toNat ≤ ehubCacheBlockSize

end CopyWrite

/-- Only the last write may ask for the doorbell. -/
def DoorbellLast (ringDoorbell : Bool) (writes : List CopyWrite) : Prop :=
  ∃ front w, writes = front ++ [w] ∧ w.ringDoorbell = ringDoorbell ∧ ∀ w' ∈ front, w'.ringDoorbell = false

section
variable {r : Ring} {l pre post : List TrbPtr} {start last : TrbPtr}

/-- The write of one stretch of a segment. -/
theorem stretch_write {block : Nat} (inPool : block < ehubCacheNumberOfBlocks) (isBlock : start.seg.toNat = address block)
    {endIdx : Nat} (ordered : start.idx ≤ endIdx) (bound : endIdx < 64) (lastCopy : Bool) :
    let w : CopyWrite := ⟨start, (start.seg + BitVec.ofNat 64 (16 * start.idx)).setWidth 32,
      BitVec.ofNat 32 (16 * (1 + endIdx - start.idx)), lastCopy⟩
    start.seg + BitVec.ofNat 64 (16 * start.idx) ≠ 0 ∧ BitVec.ofNat 32 (16 * (1 + endIdx - start.idx)) ≠ 0 ∧
      w.trbs = run start.seg start.idx (endIdx - start.idx + 1) ∧ w.Inside := by
  have is_length : (BitVec.ofNat 32 (16 * (1 + endIdx - start.idx))).toNat = 16 * (1 + endIdx - start.idx) := by
    rw [BitVec.toNat_ofNat]
    omega
  have below : address block < 0x21000 := by
    have : ehubCacheNumberOfBlocks = 128 := rfl
    simp only [address, ehubCacheStartAddress, ehubCacheBlockSize]
    omega
  have aligned : address block % 16 = 0 ∧ 0 < address block := by
    simp only [address, ehubCacheStartAddress, ehubCacheBlockSize]
    omega
  have is_address : (start.seg + BitVec.ofNat 64 (16 * start.idx)).toNat = address block + 16 * start.idx := by
    rw [BitVec.toNat_add, BitVec.toNat_ofNat, isBlock]
    omega
  have is_word : ((start.seg + BitVec.ofNat 64 (16 * start.idx)).setWidth 32).toNat = address block + 16 * start.idx := by
    rw [BitVec.toNat_setWidth, is_address]
    omega
  refine ⟨?_, ?_, ?_, block, inPool, isBlock, is_word, ?_, ?_⟩
  · intro zero
    have : (start.seg + BitVec.ofNat 64 (16 * start.idx)).toNat = 0 := congrArg BitVec.toNat zero
    omega
  · intro zero
    have : (BitVec.ofNat 32 (16 * (1 + endIdx - start.idx))).toNat = 0 := congrArg BitVec.toNat zero
    omega
  · show run start.seg start.idx ((BitVec.ofNat 32 (16 * (1 + endIdx - start.idx))).toNat / 16) = _
    rw [is_length]
    congr 1
    omega
  · dsimp only
    rw [is_word]
    omega
  · dsimp only
    rw [is_length, ehubCacheBlockSize]
    omega

/-- The loop writes the TRBs from `start` to `last`, each once and in their order. -/
theorem cacheCopyWrites_covers (ringDoorbell : Bool) : ∀ {fuel : Nat} {l pre : List TrbPtr} {start : TrbPtr}, Shape r (pre ++ (l ++ post)) →
    (∀ p ∈ l, ∃ block < ehubCacheNumberOfBlocks, p.seg.toNat = address block) → l.head? = some start →
    l.getLast? = some last → l.countP (fun p => p.idx = 63) < fuel →
    ∃ writes, cacheCopyWrites last ringDoorbell r.next fuel start = some writes ∧ writes.flatMap CopyWrite.trbs = l ∧
      (∀ w ∈ writes, w.Inside) ∧ DoorbellLast ringDoorbell writes := by
  intro fuel
  induction fuel with
  | zero =>
    intro l pre start _ _ _ _ room
    omega
  | succ fuel ih =>
    intro l pre start shape blocks first ends room
    have startIn : start ∈ l := List.mem_of_mem_head? first
    have bound := shape.inside start (by simp [startIn])
    obtain ⟨block, inPool, isBlock⟩ := blocks start startIn
    rw [cacheCopyWrites]
    by_cases goesOn : start.seg ≠ last.seg ∨ start.idx > last.idx
    · obtain ⟨l', rfl, first', ends'⟩ := stretch_on shape first ends goesOn
      have more : (!(start.seg ≠ last.seg || start.idx > last.idx)) = false := by simpa [imp_iff_not_or] using goesOn
      obtain ⟨address_ne, length_ne, carries, inside⟩ := stretch_write inPool isBlock (Nat.le_of_lt_succ bound)
        (show 63 < 64 by decide) false
      have oneLink : 1 ≤ (run start.seg start.idx (63 - start.idx + 1)).countP (fun p => p.idx = 63) := by
        have isLast : start.idx + (63 - start.idx) = 63 := by omega
        rw [run_succ, List.countP_append]
        simp [isLast]
      rw [List.countP_append] at room
      have turned : Shape r ((pre ++ run start.seg start.idx (63 - start.idx + 1)) ++ (l' ++ post)) := by simpa using shape
      obtain ⟨writes, result, covers, allInside, front, w, split, rings, quiet⟩ :=
        ih turned (fun p member => blocks p (List.mem_append_right _ member)) first' ends' (by omega)
      rw [more]
      simp only [Bool.false_eq_true, if_false, Bool.false_and]
      rw [show trbsPerSegment - 1 = 63 from rfl, if_pos ⟨address_ne, length_ne⟩, result]
      refine ⟨_, rfl, ?_, ?_, _ :: front, w, by rw [split]; rfl, rings, ?_⟩
      · rw [List.flatMap_append, List.flatMap_singleton, carries, covers]
      · intro w' member
        rcases List.mem_append.mp member with first | later
        · rw [List.mem_singleton.mp first]
          exact inside
        · exact allInside w' later
      · intro w' member
        rcases List.mem_cons.mp member with rfl | later
        · rfl
        · exact quiet w' later
    · rw [not_or, not_not, Nat.not_lt] at goesOn
      have is_l := stretch_last shape first ends goesOn.1 goesOn.2
      have ending : (!(start.seg ≠ last.seg || start.idx > last.idx)) = true := by simpa using goesOn
      have lastBound := shape.inside last (by simp [List.mem_of_getLast? ends])
      obtain ⟨address_ne, length_ne, carries, inside⟩ := stretch_write inPool isBlock goesOn.2 lastBound ringDoorbell
      rw [ending]
      simp only [if_true, Bool.true_and]
      rw [if_pos ⟨address_ne, length_ne⟩]
      refine ⟨_, rfl, ?_, ?_, [], _, rfl, rfl, by simp⟩
      · rw [List.flatMap_singleton, carries, is_l]
      · intro w member
        rw [List.mem_singleton.mp member]
        exact inside

/-- The copy ends. Its writes carry the TRBs from `cache_enqueue` up to `enqueue`, each once and in
    the order of the ring, to their places in the cache blocks; the last write asks for the
    doorbell; and the next copy starts at `enqueue`. -/
theorem cacheCopy_covers (shape : Shape r (pre ++ (l ++ r.enqueue :: post))) (several : 2 ≤ r.numSegs)
    (blocks : ∀ p ∈ pre ++ (l ++ r.enqueue :: post), ∃ block < ehubCacheNumberOfBlocks, p.seg.toNat = address block)
    (first : l.head? = some r.cacheEnqueue) (ringDoorbell : Bool) {fuel : Nat} (enough : r.numSegs < fuel) :
    ∃ r' writes, cacheCopy r ringDoorbell fuel = some (r', writes) ∧ writes.flatMap CopyWrite.trbs = l ∧ l.Nodup ∧
      (∀ w ∈ writes, w.Inside) ∧ DoorbellLast ringDoorbell writes ∧ r'.cacheEnqueue = r.enqueue := by
  have some_trbs : l ≠ [] := by
    rintro rfl
    simp at first
  obtain ⟨last, ends⟩ := Option.isSome_iff_exists.mp (List.getLast?_isSome.mpr some_trbs)
  obtain ⟨init, is_l⟩ := List.getLast?_eq_some_iff.mp ends
  have found : r.findPrevTrb r.enqueue = some last := by
    have split : pre ++ (l ++ r.enqueue :: post) = (pre ++ init) ++ last :: r.enqueue :: post := by simp [is_l]
    rw [split] at shape
    exact findPrevTrb_eq shape several
  have room : l.countP (fun p => p.idx = 63) < fuel := by
    have all := links_le shape
    simp only [List.countP_append] at all
    omega
  have distinct : l.Nodup := (List.nodup_append.mp (List.nodup_append.mp shape.isLap.1).2.1).1
  obtain ⟨writes, result, covers, inside, doorbell⟩ := cacheCopyWrites_covers ringDoorbell shape
    (fun p member => blocks p (by simp [member])) first ends room
  refine ⟨{ r with cacheEnqueue := r.enqueue }, writes, ?_, covers, distinct, inside, doorbell, rfl⟩
  rw [cacheCopy, found]
  dsimp only
  rw [result]
  rfl

/-- When all writes are accepted, the cache changes in the TRBs that they carry. -/
theorem cached_cacheCopy {writes : List CopyWrite} (shape : Shape r (pre ++ (l ++ r.enqueue :: post)))
    (several : 2 ≤ r.numSegs) (first : l.head? = some r.cacheEnqueue) (covers : writes.flatMap CopyWrite.trbs = l)
    (p : TrbPtr) :
    cached (r.cacheCopyFromRing fun _ => .accepted).toSegments p =
      if p ∈ writes.flatMap CopyWrite.trbs then r.trb p else cached r.toSegments p := by
  obtain ⟨_, x, y, split, upTo, copies⟩ := cacheCopyFromRing_copies shape several first fun _ => .accepted
  have whole : y = [] := upTo.resolve_right fun refused => refused.1.choose_spec rfl
  rw [copies, covers, split, whole, List.append_nil]

end

/-- The ring of a TD that goes around its end, before it is copied. -/
def copyRing : Ring := { DequeueState.aroundRing with cacheEnqueue := ⟨0x1400, 62⟩ }

/-- Two writes copy it: the end of the last segment with the link, and the first TRB. -/
theorem cacheCopy_around : ∃ r' writes, cacheCopy copyRing true 3 = some (r', writes) ∧
    writes.flatMap CopyWrite.trbs = [⟨0x1400, 62⟩, ⟨0x1400, 63⟩, ⟨0x1000, 0⟩] ∧ (∀ w ∈ writes, w.Inside) ∧
      DoorbellLast true writes ∧ r'.cacheEnqueue = ⟨0x1000, 1⟩ := by
  have lap : DequeueState.aroundLap = [] ++ ([⟨0x1400, 62⟩, ⟨0x1400, 63⟩, ⟨0x1000, 0⟩] ++ copyRing.enqueue ::
      (run 0x1000 2 62 ++ run 0x1400 0 62)) := by decide +kernel
  have shape : Shape copyRing DequeueState.aroundLap :=
    DequeueState.aroundRing_shape.edit rfl rfl rfl rfl (fun _ _ => rfl) fun _ _ _ => ⟨rfl, rfl⟩
  rw [lap] at shape
  have blocks : ∀ p ∈ [] ++ ([⟨0x1400, 62⟩, ⟨0x1400, 63⟩, ⟨0x1000, 0⟩] ++ copyRing.enqueue ::
      (run 0x1000 2 62 ++ run 0x1400 0 62)), ∃ block < ehubCacheNumberOfBlocks, p.seg.toNat = address block := by
    decide +kernel
  have enough : copyRing.numSegs < 3 := by decide
  obtain ⟨r', writes, result, covers, _, inside, doorbell, moved⟩ := cacheCopy_covers shape (by decide) blocks rfl true enough
  exact ⟨r', writes, result, covers, inside, doorbell, moved⟩

end Ehub.CacheCopy
