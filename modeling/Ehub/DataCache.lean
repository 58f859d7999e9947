import Mathlib
import Ehub.CachePool
import Ehub.Isoc

/-!
The data of an isochronous OUT URB in the device. `ehub_xhci_cache_block_allocate_urb`
copies the transfer buffer to blocks of the pool, block by block from the start of the
buffer; `ehub_xhci_get_data_buffer_addr` then gives the device address for each TRB.
The call is all or nothing only where the room check passes and the blocks fit the array
of the URB, and the addresses are right only for a buffer that is aligned as blocks are.
-/
namespace Ehub.DataCache
open Ehub.CachePool

/-- The number of blocks that `length` bytes fill. -/
def blocksFor (length : Nat) : Nat := (length + (ehubCacheBlockSize - 1)) / ehubCacheBlockSize

/-- The entries of `EhubDataCacheBlock` at which `ehub_xhci_cache_block_allocate_urb`
    stores. -/
def storedAt (p : Pool) (length : Nat) : List Nat :=
  if p.lock.numberOfCachesFree < numBlocksNeeded length then []
  else List.range (takeBlocks (numBlocksNeeded length) 0 p.lock .fresh).2.2.cacheBlockCnt

/-- The bytes of the buffer that go to block `i`. -/
def writeOf (blocks : List Nat) (length i : Nat) : DataWrite :=
  ⟨blocks[i]?, ehubCacheBlockSize * i, min (length - ehubCacheBlockSize * i) ehubCacheBlockSize⟩

/-- The URB holds as many blocks as its data fills, all written. -/
structure Stored (length : Nat) (result : UrbResult) (blocks : List Nat) : Prop where
  distinct : blocks.Nodup
  many : blocks.length = blocksFor length
  count : result.priv.cacheBlockCnt = blocksFor length
  entries : ∀ i, result.priv.ehubDataCacheBlock i = blocks[i]?
  used : ∀ block ∈ blocks, block ∈ result.pool.used
  log : result.log = (List.range (blocksFor length)).map (writeOf blocks length)

/-- The pool is as it was, but for the order of its lists, and the URB holds nothing. -/
structure Untouched (p : Pool) (result : UrbResult) : Prop where
  free : ∀ block, block ∈ result.pool.free ↔ block ∈ p.free
  used : ∀ block, block ∈ result.pool.used ↔ block ∈ p.used
  numberOfCachesFree : result.pool.numberOfCachesFree = p.numberOfCachesFree
  numberOfCachesUsed : result.pool.numberOfCachesUsed = p.numberOfCachesUsed
  count : result.priv.cacheBlockCnt = 0

/-- An error leaves nothing behind, a success stores everything, in either case the lock
    is given back, and the array is not overrun. -/
structure AllOrNothing (p : Pool) (length : Nat) (result : UrbResult) : Prop where
  error : result.status < 0 → Untouched p result
  success : 0 ≤ result.status → ∃ blocks, Stored length result blocks
  unlocked : result.pool.locked = false
  inside : ∀ i ∈ storedAt p length, i < ehubCacheMaxDataBlocks

/-! ### Taking and writing blocks -/

/-- Blocks are taken from the front of the free list. -/
theorem takeBlocks_eq : ∀ {left i : Nat} {p : Pool} {u : UrbPriv}, (p.free ++ p.used).Nodup → left ≤ p.free.length →
    takeBlocks left i p u = (true,
      { p with
        free := p.free.drop left
        used := p.used ++ p.free.take left
        numberOfCachesFree := p.numberOfCachesFree - left
        numberOfCachesUsed := p.numberOfCachesUsed + left },
      ⟨u.cacheBlockCnt + left, fun k => if i ≤ k ∧ k < i + left then p.free[k - i]? else u.ehubDataCacheBlock k⟩) := by
  intro left
  induction left with
  | zero =>
    intro i p u _ _
    have nothing : ∀ k, ¬(i ≤ k ∧ k < i) := fun k => by omega
    simp [takeBlocks, nothing]
  | succ left ih =>
    intro i p u distinct enough
    obtain ⟨block, rest, first⟩ : ∃ block rest, p.free = block :: rest := by
      cases free : p.free with
      | nil => simp [free] at enough
      | cons block rest => exact ⟨block, rest, rfl⟩
    rw [first] at distinct enough
    have fresh : block ∉ p.used := by
      have apart := (List.nodup_append.mp distinct).2.2
      exact fun member => apart block (by simp) block member rfl
    have free' : (p.toUsed block).free = rest := by simp [Pool.toUsed, first]
    have used' : (p.toUsed block).used = p.used ++ [block] := by simp [Pool.toUsed, List.erase_of_not_mem fresh]
    have distinct' : ((p.toUsed block).free ++ (p.toUsed block).used).Nodup := by
      rw [free', used']
      refine (List.Perm.nodup_iff ?_).mp distinct
      rw [← List.append_assoc]
      exact (List.perm_append_singleton block (rest ++ p.used)).symm
    rw [takeBlocks_cons first, ih distinct' (by rw [free']; simpa using enough)]
    rw [Prod.mk.injEq, Prod.mk.injEq]
    refine ⟨rfl, ?_, ?_⟩
    · rw [free', used', first]
      simp only [Pool.toUsed, List.drop_succ_cons, List.take_succ_cons, List.append_assoc, List.singleton_append,
        Pool.mk.injEq, and_true, true_and]
      omega
    · rw [UrbPriv.mk.injEq]
      refine ⟨Nat.add_right_comm .., funext fun k => ?_⟩
      rw [free', first]
      by_cases here : k = i
      · subst here
        have notBehind : ¬(k + 1 ≤ k ∧ k < k + 1 + left) := by omega
        rw [if_neg notBehind, if_pos (by omega)]
        simp
      · by_cases behind : i + 1 ≤ k ∧ k < i + 1 + left
        · obtain ⟨j, rfl⟩ : ∃ j, k = i + 1 + j := ⟨k - (i + 1), by omega⟩
          rw [if_pos behind, if_pos (by omega)]
          have same : i + 1 + j - i = (i + 1 + j - (i + 1)) + 1 := by omega
          rw [same, List.getElem?_cons_succ]
        · rw [if_neg behind, if_neg (by omega)]
          exact Function.update_of_ne here _ _

theorem blocksFor_pos {length : Nat} (some_left : 0 < length) :
    blocksFor length = blocksFor (length - min length ehubCacheBlockSize) + 1 := by
  simp only [blocksFor, ehubCacheBlockSize]
  omega

/-- Writes that are all accepted cover the buffer. -/
theorem writeBlocks_log {u : UrbPriv} {writes : Nat → Int} : ∀ {left i start length : Nat}, left = blocksFor length →
    0 ≤ (writeBlocks u writes left i start length).1 →
    (writeBlocks u writes left i start length).2 = (List.range left).map fun k =>
      ⟨u.ehubDataCacheBlock (i + k), start + ehubCacheBlockSize * k, min (length - ehubCacheBlockSize * k) ehubCacheBlockSize⟩ := by
  intro left
  induction left with
  | zero =>
    intro i start length _ _
    rfl
  | succ left ih =>
    intro i start length many ok
    have some_left : 0 < length := by
      by_contra none
      have zero : length = 0 := by omega
      rw [zero] at many
      simp [blocksFor, ehubCacheBlockSize] at many
    rw [blocksFor_pos some_left] at many
    rw [writeBlocks] at ok ⊢
    by_cases failed : writes i < 0
    · simp only [failed, if_true] at ok
      omega
    · simp only [failed, if_false] at ok ⊢
      rw [ih (by omega) ok, List.range_succ_eq_map, List.map_cons, List.map_map]
      refine congrArg₂ List.cons (by simp) (List.map_congr_left fun k member => ?_)
      have before : k < blocksFor (length - min length ehubCacheBlockSize) := by
        rw [List.mem_range] at member
        omega
      have whole : min length ehubCacheBlockSize = ehubCacheBlockSize := by
        simp only [blocksFor, ehubCacheBlockSize] at before ⊢
        omega
      simp only [Function.comp_apply, whole, DataWrite.mk.injEq, Nat.succ_eq_add_one]
      refine ⟨by rw [Nat.add_assoc, Nat.add_comm 1 k], ?_, ?_⟩
      · rw [Nat.mul_add]
        omega
      · rw [Nat.mul_add, Nat.mul_one, Nat.sub_sub, Nat.add_comm ehubCacheBlockSize]

/-! ### All or nothing -/

section
variable {p : Pool} {held : List Nat} {length : Nat} {writes : Nat → Int}

/-- Two pools of which the same blocks are held. -/
theorem Sound.same {p' : Pool} (sound : Sound p held) (sound' : Sound p' held) :
    p'.free.Perm p.free ∧ p'.used.Perm p.used ∧ p'.numberOfCachesFree = p.numberOfCachesFree ∧
      p'.numberOfCachesUsed = p.numberOfCachesUsed := by
  have used : p'.used.Perm p.used := sound'.owners.trans sound.owners.symm
  have both : (p'.free ++ p.used).Perm (p.free ++ p.used) :=
    (used.symm.append_left _).trans (sound'.partition.trans sound.partition.symm)
  have free : p'.free.Perm p.free := (List.perm_append_right_iff _).mp both
  refine ⟨free, used, ?_, ?_⟩
  · rw [sound'.countFree, sound.countFree, free.length_eq]
  · rw [sound'.countUsed, sound.countUsed, used.length_eq]

theorem numBlocksNeeded_eq (fits : length + (ehubCacheBlockSize - 1) < 2 ^ 32) : numBlocksNeeded length = blocksFor length := by
  have same : length + ehubCacheBlockSize - 1 = length + (ehubCacheBlockSize - 1) := rfl
  rw [numBlocksNeeded, blocksFor, same, Nat.mod_eq_of_lt fits]

/-- The blocks are taken when there are enough. -/
theorem takeBlocks_enough (sound : Sound p held) {n : Nat} (enough : n ≤ p.free.length) :
    ∃ p' u', takeBlocks n 0 p.lock .fresh = (true, p', u') ∧ u'.cacheBlockCnt = n ∧
      (∀ i, u'.ehubDataCacheBlock i = (p.free.take n)[i]?) ∧ p'.used = p.used ++ p.free.take n := by
  have taken := takeBlocks_eq (i := 0) (u := .fresh) (show (p.lock.free ++ p.lock.used).Nodup from sound.nodup) enough
  refine ⟨_, _, taken, Nat.zero_add _, ?_, rfl⟩
  intro i
  show (if 0 ≤ i ∧ i < 0 + n then p.free[i - 0]? else none) = _
  by_cases before : i < n
  · rw [if_pos (by omega), List.getElem?_take_of_lt before]
    rfl
  · rw [if_neg (by omega), List.getElem?_take_eq_none (by omega)]

/-- What the function does then. -/
theorem allocateUrb_eq (writes : Nat → Int) {p' : Pool} {u' : UrbPriv} (notFew : ¬p.lock.numberOfCachesFree < numBlocksNeeded length)
    (taken : takeBlocks (numBlocksNeeded length) 0 p.lock .fresh = (true, p', u')) :
    cacheBlockAllocateUrb p .fresh length writes =
      let written := writeBlocks u' writes (numBlocksNeeded length) 0 0 length
      if written.1 < 0 then
        ⟨written.1, (cacheBlockFreeByUrb p'.unlock u').1, (cacheBlockFreeByUrb p'.unlock u').2, written.2⟩
      else ⟨written.1, p'.unlock, u', written.2⟩ := by
  rw [cacheBlockAllocateUrb]
  simp only [if_neg notFew, taken]

theorem unlocked_freeByUrb (p : Pool) (u : UrbPriv) : (cacheBlockFreeByUrb p u).1.locked = false := rfl

/-- With blocks enough for the array of the URB everything is done or nothing. -/
theorem allocateUrb_allOrNothing (sound : Sound p held) (few : blocksFor length ≤ ehubCacheMaxDataBlocks)
    (enough : (blocksFor length : Int) ≤ p.numberOfCachesFree) :
    AllOrNothing p length (cacheBlockAllocateUrb p .fresh length writes) := by
  have fits : length + (ehubCacheBlockSize - 1) < 2 ^ 32 := by
    simp only [blocksFor, ehubCacheBlockSize, ehubCacheMaxDataBlocks] at few ⊢
    omega
  have needed := numBlocksNeeded_eq fits
  rw [sound.countFree] at enough
  have notFew : ¬p.lock.numberOfCachesFree < numBlocksNeeded length := by
    have count : p.lock.numberOfCachesFree = p.free.length := sound.countFree
    omega
  obtain ⟨p', u', taken, count, entries, used⟩ := takeBlocks_enough sound (show numBlocksNeeded length ≤ p.free.length by omega)
  have eq := allocateUrb_eq writes notFew taken
  have after := sound.allocateUrb length writes
  rw [eq] at after ⊢
  rw [needed] at taken count entries used after ⊢
  refine ⟨?_, ?_, ?_, ?_⟩
  · intro error
    by_cases failed : (writeBlocks u' writes (blocksFor length) 0 0 length).1 < 0
    · simp only [failed, if_true, freeByUrb_blocks, List.nil_append] at after ⊢
      obtain ⟨free, used, countFree, countUsed⟩ := Sound.same sound after
      exact ⟨fun _ => free.mem_iff, fun _ => used.mem_iff, countFree, countUsed, rfl⟩
    · simp only [failed, if_false] at error
  · intro ok
    by_cases failed : (writeBlocks u' writes (blocksFor length) 0 0 length).1 < 0
    · simp only [failed, if_true] at ok
      omega
    · simp only [failed, if_false]
      refine ⟨p.free.take (blocksFor length), ?_, ?_, count, entries, ?_, ?_⟩
      · exact (List.nodup_append.mp sound.nodup).1.sublist (List.take_sublist _ _)
      · rw [List.length_take]
        omega
      · intro block member
        show block ∈ p'.used
        rw [used]
        exact List.mem_append_right _ member
      · rw [writeBlocks_log rfl (by omega)]
        refine List.map_congr_left fun k _ => ?_
        rw [writeOf, Nat.zero_add, Nat.zero_add, entries k]
  · by_cases failed : (writeBlocks u' writes (blocksFor length) 0 0 length).1 < 0
    · simp only [failed, if_true]
      exact unlocked_freeByUrb _ _
    · simp only [failed, if_false]
      rfl
  · intro i member
    rw [storedAt, if_neg notFew, needed, taken] at member
    have before : i < u'.cacheBlockCnt := List.mem_range.mp member
    omega

/-- For every pool in which the counters are right, every length of the buffer and every
    outcome of the cache writes, the call is all or nothing if and only if the data fits
    the array of the URB and there are blocks enough for it. -/
theorem allocateUrb_allOrNothing_iff (sound : Sound p held) (small : length < 2 ^ 32) :
    AllOrNothing p length (cacheBlockAllocateUrb p .fresh length writes) ↔
      blocksFor length ≤ ehubCacheMaxDataBlocks ∧ (blocksFor length : Int) ≤ p.numberOfCachesFree := by
  refine ⟨fun whole => ?_, fun ⟨few, enough⟩ => allocateUrb_allOrNothing sound few enough⟩
  have count : p.lock.numberOfCachesFree = p.free.length := sound.countFree
  have count' := sound.countFree
  -- The first error exit keeps the lock.
  have notFew : ¬p.lock.numberOfCachesFree < numBlocksNeeded length := by
    intro few
    have locked := whole.unlocked
    rw [cacheBlockAllocateUrb] at locked
    simp only [if_pos few] at locked
    simp [Pool.lock] at locked
  obtain ⟨p', u', taken, stored, entries, used⟩ := takeBlocks_enough sound (show numBlocksNeeded length ≤ p.free.length by omega)
  have eq := allocateUrb_eq writes notFew taken
  by_cases fits : length + (ehubCacheBlockSize - 1) < 2 ^ 32
  · have needed := numBlocksNeeded_eq fits
    have inside := whole.inside
    rw [storedAt, if_neg notFew, taken] at inside
    have few : numBlocksNeeded length ≤ ehubCacheMaxDataBlocks := by
      by_contra many
      have last := inside ehubCacheMaxDataBlocks (List.mem_range.mpr (by rw [stored]; omega))
      omega
    rw [needed] at few notFew
    exact ⟨few, by omega⟩
  · -- The number of blocks wraps to zero, which passes for a success.
    have none_needed : numBlocksNeeded length = 0 := by
      simp only [numBlocksNeeded, ehubCacheBlockSize] at fits ⊢
      omega
    rw [none_needed] at eq
    simp only [writeBlocks, Int.lt_irrefl, if_false] at eq
    obtain ⟨blocks, all⟩ := whole.success (by rw [eq])
    have counted := all.count
    rw [eq] at counted
    have zero : u'.cacheBlockCnt = blocksFor length := counted
    rw [stored, none_needed] at zero
    simp only [blocksFor, ehubCacheBlockSize] at zero fits
    omega

end

/-- Two blocks, the second of which cannot be written. -/
theorem allocateUrb_allOrNothing_refused :
    AllOrNothing cacheCreate 2000 (cacheBlockAllocateUrb cacheCreate .fresh 2000 fun i => if i = 1 then -19 else 0) := by
  have sound : Sound cacheCreate [] := sound_initial
  refine (allocateUrb_allOrNothing_iff sound (by decide)).mpr ⟨by decide, ?_⟩
  rw [cacheCreate_eq]
  decide

/-- Seven blocks do not fit the array. -/
theorem allocateUrb_not_allOrNothing : ¬∀ (p : Pool) (held : List Nat) (length : Nat) (writes : Nat → Int),
    Sound p held → p.locked = false → length < 2 ^ 32 →
    AllOrNothing p length (cacheBlockAllocateUrb p .fresh length writes) := by
  intro always
  have whole := always cacheCreate _ 7000 (fun _ => 0) sound_initial (by rw [cacheCreate_eq]) (by decide)
  have overrun : 6 ∈ storedAt cacheCreate 7000 := by decide +kernel
  exact absurd (whole.inside 6 overrun) (by decide)

/-! ### Where the TRBs find their data -/

/-- A cache write puts bytes of the buffer to its block. -/
def applyWrite (data cache : Nat → BitVec 8) (w : DataWrite) : Nat → BitVec 8 := fun a =>
  match w.block with
  | none => cache a
  | some block => if address block ≤ a ∧ a < address block + w.length then data (w.start + (a - address block)) else cache a

/-- The device's memory when the writes have been made. -/
def cacheAfter (data : Nat → BitVec 8) (log : List DataWrite) (cache : Nat → BitVec 8) : Nat → BitVec 8 :=
  log.foldl (applyWrite data) cache

/-- `ehub_xhci_get_data_buffer_addr`; zero where it panics. -/
def getDataBufferAddr (u : UrbPriv) (transferBuffer addr : Nat) : BitVec 64 :=
  if u.cacheBlockCnt = 0 then BitVec.ofNat 64 addr
  else
    match u.ehubDataCacheBlock ((addr - transferBuffer) / ehubCacheBlockSize) with
    | none => 0
    | some block => BitVec.ofNat 64 (address block + (addr &&& (ehubCacheBlockSize - 1)))

/-- The address in the first two words of a TRB. -/
def trbData (t : Trb) : Nat := t.field0.toNat + 2 ^ 32 * t.field1.toNat

/-- The pieces of the buffer that the TRBs of a TD are for: where they begin and how long
    they are. -/
def chunksFrom : Nat → List Nat → List (Nat × Nat)
  | _, [] => []
  | addr, len :: lens => (addr, len) :: chunksFrom (addr + len) lens

/-- The pieces of a packet, cut at the ends of blocks. -/
def chunks (urb : Isoc.Urb) (packet : Isoc.Packet) : List (Nat × Nat) :=
  chunksFrom (urb.transferBuffer + packet.offset) (Isoc.packetLengths urb ehubCacheBlockSize packet)

/-- The TRB points into a block of the URB, where the device finds the bytes of the
    piece. -/
def Addressed (u : UrbPriv) (transferBuffer : Nat) (data cache : Nat → BitVec 8) (t : Trb) (chunk : Nat × Nat) : Prop :=
  ∃ block ∈ u.blocks, address block ≤ trbData t ∧ trbData t + chunk.2 ≤ address block + ehubCacheBlockSize ∧
    ∀ j < chunk.2, cache (trbData t + j) = data (chunk.1 - transferBuffer + j)

theorem trbData_words (data : BitVec 64) (length control : BitVec 32) :
    trbData ⟨data.extractLsb' 0 32, data.extractLsb' 32 32, length, control⟩ = data.toNat := by
  have small := data.isLt
  simp only [trbData, BitVec.extractLsb'_toNat, Nat.shiftRight_eq_div_pow]
  omega

theorem trbData_chunks (urb : Isoc.Urb) (i : Nat) : ∀ (lens : List Nat) (isFirst : Bool) (addr : Nat),
    ∀ tc ∈ (Isoc.tdTrbs urb i isFirst addr lens).zip (chunksFrom addr lens),
      trbData tc.1 = (urb.dataAddr tc.2.1 tc.2.2).toNat := by
  intro lens
  induction lens with
  | nil => simp [chunksFrom]
  | cons len lens ih =>
    intro isFirst addr tc member
    rw [Isoc.tdTrbs, chunksFrom, List.zip_cons_cons, List.mem_cons] at member
    rcases member with rfl | later
    · exact trbData_words ..
    · exact ih _ _ tc later

theorem length_chunksFrom : ∀ (lens : List Nat) (addr : Nat), (chunksFrom addr lens).length = lens.length := by
  intro lens
  induction lens with
  | nil => exact fun _ => rfl
  | cons len lens ih => exact fun addr => congrArg (· + 1) (ih _)

/-- The pieces lie in the packet, one behind the other, and none goes past the end of a
    block. -/
theorem mem_chunksFrom : ∀ {n addr remain : Nat},
    ∀ c ∈ chunksFrom addr (Isoc.bufferLengths ehubCacheBlockSize n addr remain),
      addr ≤ c.1 ∧ c.1 + c.2 ≤ addr + remain ∧ c.1 % ehubCacheBlockSize + c.2 ≤ ehubCacheBlockSize := by
  intro n
  induction n with
  | zero => simp [Isoc.bufferLengths, chunksFrom]
  | succ n ih =>
    intro addr remain c member
    rw [Isoc.bufferLengths, chunksFrom, List.mem_cons] at member
    have masked : addr &&& (ehubCacheBlockSize - 1) = addr % ehubCacheBlockSize := Nat.and_two_pow_sub_one_eq_mod addr 10
    rw [masked] at member
    have inside : addr % ehubCacheBlockSize < ehubCacheBlockSize := Nat.mod_lt _ (by decide)
    rcases member with rfl | later
    · simp only
      omega
    · have := ih c later
      omega

/-- What a byte of a block is after the writes. -/
theorem cacheAfter_at {blocks : List Nat} (distinct : blocks.Nodup) {length k q block : Nat} (here : blocks[k]? = some block)
    (inside : q < ehubCacheBlockSize) (data : Nat → BitVec 8) : ∀ (ks : List Nat) (cache : Nat → BitVec 8),
    cacheAfter data (ks.map (writeOf blocks length)) cache (address block + q) =
      if k ∈ ks ∧ ehubCacheBlockSize * k + q < length then data (ehubCacheBlockSize * k + q) else cache (address block + q) := by
  intro ks
  induction ks with
  | nil => simp [cacheAfter]
  | cons j ks ih =>
    intro cache
    have step : cacheAfter data ((j :: ks).map (writeOf blocks length)) cache (address block + q) =
        cacheAfter data (ks.map (writeOf blocks length)) (applyWrite data cache (writeOf blocks length j)) (address block + q) := rfl
    rw [step, ih]
    by_cases later : k ∈ ks ∧ ehubCacheBlockSize * k + q < length
    · rw [if_pos later, if_pos ⟨List.mem_cons_of_mem _ later.1, later.2⟩]
    rw [if_neg later]
    by_cases same : j = k
    · subst same
      simp only [applyWrite, writeOf, here, Nat.le_add_right, true_and, Nat.add_lt_add_iff_left, Nat.add_sub_cancel_left,
        List.mem_cons, true_or]
      by_cases short : ehubCacheBlockSize * j + q < length
      · rw [if_pos (by omega), if_pos short]
      · rw [if_neg (by omega), if_neg short]
    · have elsewhere : applyWrite data cache (writeOf blocks length j) (address block + q) = cache (address block + q) := by
        simp only [applyWrite, writeOf]
        cases other : blocks[j]? with
        | none => rfl
        | some block' =>
          have different : block' ≠ block := by
            rintro rfl
            obtain ⟨inJ, is_j⟩ := List.getElem?_eq_some_iff.mp other
            obtain ⟨inK, is_k⟩ := List.getElem?_eq_some_iff.mp here
            exact same ((List.Nodup.getElem_inj_iff distinct).mp (is_j.trans is_k.symm))
          refine if_neg fun covered => ?_
          simp only [address, ehubCacheBlockSize] at covered inside
          omega
      rw [elsewhere, if_neg]
      rintro ⟨member, short⟩
      exact later ⟨(List.mem_cons.mp member).resolve_left (Ne.symm same), short⟩

section
variable {p : Pool} {held : List Nat} {length : Nat} {writes : Nat → Int}

/-- A URB whose data has been cached. -/
theorem allocateUrb_stored (sound : Sound p held) (few : blocksFor length ≤ ehubCacheMaxDataBlocks)
    (ok : 0 ≤ (cacheBlockAllocateUrb p .fresh length writes).status) :
    ∃ blocks, Stored length (cacheBlockAllocateUrb p .fresh length writes) blocks ∧ ∀ block ∈ blocks, block < 128 := by
  have enough : (blocksFor length : Int) ≤ p.numberOfCachesFree := by
    by_contra short
    have fits : length + (ehubCacheBlockSize - 1) < 2 ^ 32 := by
      simp only [blocksFor, ehubCacheBlockSize, ehubCacheMaxDataBlocks] at few ⊢
      omega
    have tooFew : p.lock.numberOfCachesFree < numBlocksNeeded length := by
      show p.numberOfCachesFree < _
      rw [numBlocksNeeded_eq fits]
      omega
    rw [cacheBlockAllocateUrb] at ok
    simp only [if_pos tooFew] at ok
    exact absurd ok (by decide)
  obtain ⟨blocks, stored⟩ := (allocateUrb_allOrNothing sound few enough).success ok
  refine ⟨blocks, stored, fun block member => ?_⟩
  have after := (sound.allocateUrb length writes).partition.mem_iff.mp (List.mem_append_right _ (stored.used block member))
  exact List.mem_range.mp after

/-- Where a TRB points whose piece begins in block `k` of the buffer. -/
theorem getDataBufferAddr_stored {result : UrbResult} {blocks : List Nat} (stored : Stored length result blocks)
    (bounded : ∀ block ∈ blocks, block < 128) (some_data : 0 < length) (transferBuffer addr : Nat) :
    (getDataBufferAddr result.priv transferBuffer addr).toNat =
      match blocks[(addr - transferBuffer) / ehubCacheBlockSize]? with
      | none => 0
      | some block => address block + addr % ehubCacheBlockSize := by
  have cached : result.priv.cacheBlockCnt ≠ 0 := by
    rw [stored.count, blocksFor_pos some_data]
    omega
  rw [getDataBufferAddr, if_neg cached, stored.entries]
  cases here : blocks[(addr - transferBuffer) / ehubCacheBlockSize]? with
  | none => rfl
  | some block =>
    have masked : addr &&& (ehubCacheBlockSize - 1) = addr % ehubCacheBlockSize := Nat.and_two_pow_sub_one_eq_mod addr 10
    have small := bounded block (List.mem_of_getElem? here)
    show (BitVec.ofNat 64 (address block + (addr &&& (ehubCacheBlockSize - 1)))).toNat = _
    rw [masked]
    simp only [BitVec.toNat_ofNat, address, ehubCacheStartAddress, ehubCacheBlockSize]
    omega

/-- All TRBs of a URB whose data has been cached find it if and only if the buffer is
    aligned as blocks are, unless no TRB has data, and no TRB without data lies behind the
    last block. -/
theorem data_addressed_iff (sound : Sound p held) (few : blocksFor length ≤ ehubCacheMaxDataBlocks) (some_data : 0 < length)
    (ok : 0 ≤ (cacheBlockAllocateUrb p .fresh length writes).status) {urb : Isoc.Urb}
    (addresses : ∀ addr len, urb.dataAddr addr len =
      getDataBufferAddr (cacheBlockAllocateUrb p .fresh length writes).priv urb.transferBuffer addr)
    (inside : ∀ packet ∈ urb.packets, packet.offset + packet.length ≤ length) :
    (∀ data cache i packet, urb.packets[i]? = some packet →
      ∀ tc ∈ (Isoc.packetTrbs urb ehubCacheBlockSize i packet).zip (chunks urb packet),
        Addressed (cacheBlockAllocateUrb p .fresh length writes).priv urb.transferBuffer data
          (cacheAfter data (cacheBlockAllocateUrb p .fresh length writes).log cache) tc.1 tc.2) ↔
    ∀ packet ∈ urb.packets, ∀ c ∈ chunks urb packet,
      if c.2 = 0 then c.1 < urb.transferBuffer + ehubCacheBlockSize * blocksFor length
      else urb.transferBuffer % ehubCacheBlockSize = 0 := by
  obtain ⟨blocks, stored, bounded⟩ := allocateUrb_stored sound few ok
  set result := cacheBlockAllocateUrb p .fresh length writes
  -- A piece lies in the buffer and in one block of the address space.
  have within : ∀ packet ∈ urb.packets, ∀ c ∈ chunks urb packet, urb.transferBuffer ≤ c.1 ∧
      c.1 - urb.transferBuffer + c.2 ≤ length ∧ c.1 % ehubCacheBlockSize + c.2 ≤ ehubCacheBlockSize := by
    intro packet member c inChunks
    have fits := inside packet member
    obtain ⟨from_start, to_end, cut⟩ := mem_chunksFrom c inChunks
    exact ⟨by omega, by omega, cut⟩
  have points : ∀ i packet, ∀ tc ∈ (Isoc.packetTrbs urb ehubCacheBlockSize i packet).zip (chunks urb packet),
      trbData tc.1 = match blocks[(tc.2.1 - urb.transferBuffer) / ehubCacheBlockSize]? with
        | none => 0
        | some block => address block + tc.2.1 % ehubCacheBlockSize := by
    intro i packet tc member
    rw [trbData_chunks urb i _ _ _ tc member, addresses, getDataBufferAddr_stored stored bounded some_data]
  have finds : ∀ c : Nat × Nat, (c.1 - urb.transferBuffer) / ehubCacheBlockSize < blocksFor length →
      ∃ block ∈ result.priv.blocks, blocks[(c.1 - urb.transferBuffer) / ehubCacheBlockSize]? = some block := by
    intro c before
    have here := List.getElem?_eq_getElem (show (c.1 - urb.transferBuffer) / ehubCacheBlockSize < blocks.length by
      rw [stored.many]; exact before)
    refine ⟨_, List.mem_filterMap.mpr ⟨_, List.mem_range.mpr ?_, (stored.entries _).trans here⟩, here⟩
    rw [stored.count]
    exact before
  have size : ehubCacheBlockSize = 1024 := rfl
  have many : ehubCacheBlockSize * blocksFor length ≥ length := by
    simp only [blocksFor, ehubCacheBlockSize]
    omega
  constructor
  · intro always packet inUrb c inChunks
    obtain ⟨from_start, to_end, cut⟩ := within packet inUrb c inChunks
    obtain ⟨i, is_packet⟩ := List.mem_iff_getElem?.mp inUrb
    obtain ⟨t, inZip⟩ : ∃ t, (t, c) ∈ (Isoc.packetTrbs urb ehubCacheBlockSize i packet).zip (chunks urb packet) := by
      have all : ((Isoc.packetTrbs urb ehubCacheBlockSize i packet).zip (chunks urb packet)).map Prod.snd = chunks urb packet := by
        refine List.map_snd_zip ?_
        rw [Isoc.packetTrbs, Isoc.tdTrbs_length, chunks, length_chunksFrom]
      rw [← all] at inChunks
      obtain ⟨⟨t, c'⟩, inZip, rfl⟩ := List.mem_map.mp inChunks
      exact ⟨t, inZip⟩
    have pointer := points i packet (t, c) inZip
    split_ifs with empty
    · by_contra beyond
      have none_there : blocks[(c.1 - urb.transferBuffer) / ehubCacheBlockSize]? = none := by
        refine List.getElem?_eq_none ?_
        rw [stored.many, Nat.le_div_iff_mul_le (by decide)]
        rw [Nat.mul_comm]
        omega
      simp only [none_there] at pointer
      obtain ⟨block, _, above, _⟩ := always (fun _ => 0) (fun _ => 0) i packet is_packet (t, c) inZip
      rw [pointer, address, ehubCacheStartAddress] at above
      omega
    · by_contra skewed
      -- Mark the byte that the TRB should begin with.
      obtain ⟨block, _, here⟩ := finds c (by rw [Nat.div_lt_iff_lt_mul (by decide), Nat.mul_comm]; omega)
      simp only [here] at pointer
      obtain ⟨_, _, _, _, same⟩ := always (fun o => if o = c.1 - urb.transferBuffer then 1 else 0) (fun _ => 0) i packet
        is_packet (t, c) inZip
      have first := same 0 (show 0 < c.2 by omega)
      rw [pointer, Nat.add_zero, stored.log, cacheAfter_at stored.distinct here (Nat.mod_lt _ (by decide))] at first
      have wrong : ehubCacheBlockSize * ((c.1 - urb.transferBuffer) / ehubCacheBlockSize) + c.1 % ehubCacheBlockSize ≠
          c.1 - urb.transferBuffer := by
        rw [size] at skewed ⊢
        omega
      simp only [wrong, if_false, ite_self, Nat.add_zero, if_true] at first
      exact absurd first (by decide)
  · intro aligned data cache i packet is_packet tc inZip
    obtain ⟨t, c⟩ := tc
    have inUrb := List.mem_of_getElem? is_packet
    have inChunks : c ∈ chunks urb packet := (List.of_mem_zip inZip).2
    obtain ⟨from_start, to_end, cut⟩ := within packet inUrb c inChunks
    have condition := aligned packet inUrb c inChunks
    have before : (c.1 - urb.transferBuffer) / ehubCacheBlockSize < blocksFor length := by
      rw [Nat.div_lt_iff_lt_mul (by decide), Nat.mul_comm]
      split_ifs at condition <;> omega
    obtain ⟨block, inBlocks, here⟩ := finds c before
    have pointer : trbData t = address block + c.1 % ehubCacheBlockSize := by
      simpa only [here] using points i packet (t, c) inZip
    refine ⟨block, inBlocks, ?_, ?_, ?_⟩
    · show address block ≤ trbData t
      omega
    · show trbData t + c.2 ≤ _
      omega
    intro j short
    have short : j < c.2 := short
    rw [if_neg (by omega)] at condition
    have place : ehubCacheBlockSize * ((c.1 - urb.transferBuffer) / ehubCacheBlockSize) + (c.1 % ehubCacheBlockSize + j) =
        c.1 - urb.transferBuffer + j := by
      rw [size] at condition ⊢
      omega
    show cacheAfter data result.log cache (trbData t + j) = _
    rw [pointer, Nat.add_assoc, stored.log, cacheAfter_at stored.distinct here (by omega), place, if_pos]
    exact ⟨List.mem_range.mpr before, by omega⟩

end

/-- An OUT URB of one packet, whose data is the first in the pool. -/
def outUrb (transferBuffer length : Nat) : Isoc.Urb where
  id := 0
  transferBuffer := transferBuffer
  transferDma := 0
  dirIn := false
  packets := [⟨0, length⟩]
  burstCount := fun _ => 0
  residue := fun _ => 0
  dataAddr := fun addr _ =>
    getDataBufferAddr (cacheBlockAllocateUrb cacheCreate .fresh length fun _ => 0).priv transferBuffer addr
  lengthField := fun _ _ => 0
  bei := false

theorem dataAddr_outUrb (transferBuffer length : Nat) : ∀ addr len, (outUrb transferBuffer length).dataAddr addr len =
    getDataBufferAddr (cacheBlockAllocateUrb cacheCreate .fresh length fun _ => 0).priv transferBuffer addr := by
  intro addr len
  rw [outUrb]

/-- Two blocks of a buffer at a page. -/
theorem data_addressed_aligned : 0 ≤ (cacheBlockAllocateUrb cacheCreate .fresh 2000 fun _ => 0).status ∧
    ∀ data cache : Nat → BitVec 8,
      ∀ tc ∈ (Isoc.packetTrbs (outUrb 4096 2000) ehubCacheBlockSize 0 ⟨0, 2000⟩).zip (chunks (outUrb 4096 2000) ⟨0, 2000⟩),
        Addressed (cacheBlockAllocateUrb cacheCreate .fresh 2000 fun _ => 0).priv 4096 data
          (cacheAfter data (cacheBlockAllocateUrb cacheCreate .fresh 2000 fun _ => 0).log cache) tc.1 tc.2 := by
  have sound : Sound cacheCreate [] := sound_initial
  have ok : 0 ≤ (cacheBlockAllocateUrb cacheCreate .fresh 2000 fun _ => 0).status := by decide +kernel
  refine ⟨ok, fun data cache => ?_⟩
  have inside : ∀ packet ∈ (outUrb 4096 2000).packets, packet.offset + packet.length ≤ 2000 := by
    intro packet member
    cases List.mem_singleton.mp member
    decide
  refine (data_addressed_iff sound (by decide) (by decide) ok (dataAddr_outUrb 4096 2000) inside).mpr ?_ data cache 0 ⟨0, 2000⟩ rfl
  intro packet member c inChunks
  cases List.mem_singleton.mp member
  have pieces : chunks (outUrb 4096 2000) ⟨0, 2000⟩ = [(4096, 1024), (5120, 976)] := by decide +kernel
  rw [pieces] at inChunks
  fin_cases inChunks <;> decide

/-- The same data 16 bytes behind the page. -/
theorem data_not_addressed : ¬∀ (p : Pool) (held : List Nat) (length : Nat) (writes : Nat → Int) (urb : Isoc.Urb),
    Sound p held → blocksFor length ≤ ehubCacheMaxDataBlocks → 0 < length →
    0 ≤ (cacheBlockAllocateUrb p .fresh length writes).status →
    (∀ addr len, urb.dataAddr addr len =
      getDataBufferAddr (cacheBlockAllocateUrb p .fresh length writes).priv urb.transferBuffer addr) →
    (∀ packet ∈ urb.packets, packet.offset + packet.length ≤ length) →
    ∀ data cache i packet, urb.packets[i]? = some packet →
      ∀ tc ∈ (Isoc.packetTrbs urb ehubCacheBlockSize i packet).zip (chunks urb packet),
        Addressed (cacheBlockAllocateUrb p .fresh length writes).priv urb.transferBuffer data
          (cacheAfter data (cacheBlockAllocateUrb p .fresh length writes).log cache) tc.1 tc.2 := by
  intro always
  have ok : 0 ≤ (cacheBlockAllocateUrb cacheCreate .fresh 2000 fun _ => 0).status := by decide +kernel
  have inside : ∀ packet ∈ (outUrb 4112 2000).packets, packet.offset + packet.length ≤ 2000 := by
    intro packet member
    cases List.mem_singleton.mp member
    decide
  -- The bytes of the buffer are numbered; the first TRB finds byte 16.
  have found := always cacheCreate _ 2000 (fun _ => 0) (outUrb 4112 2000) sound_initial (by decide) (by decide) ok
    (dataAddr_outUrb 4112 2000) inside (fun o => BitVec.ofNat 8 o) (fun _ => 0) 0 ⟨0, 2000⟩ rfl
  obtain ⟨_, _, _, _, same⟩ := found
    ((Isoc.packetTrbs (outUrb 4112 2000) ehubCacheBlockSize 0 ⟨0, 2000⟩).get ⟨0, by decide +kernel⟩, (4112, 1008))
    (by decide +kernel)
  have first := same 0 (by decide)
  revert first
  decide +kernel

end Ehub.DataCache
