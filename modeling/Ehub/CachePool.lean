import Mathlib
import Ehub.Run

/-!
The pool of cache blocks in the device (`xhci-ehub.c`). A block is 1024 bytes of
device memory; it is on `cache_list_free` or on `cache_list_used`, and a used
block belongs to a ring segment or to a URB whose data it caches. Blocks are
named by `IndexOfBlock`.
-/
namespace Ehub.CachePool

def ehubCacheSize : Nat := 0x20000
def ehubCacheBlockSize : Nat := 0x400
def ehubCacheNumberOfBlocks : Nat := ehubCacheSize / ehubCacheBlockSize
def ehubCacheStartAddress : Nat := 0x1000
def ehubCacheMaxDataBlocks : Nat := 6
def enomem : Int := 12

/-- `Address` of a block. -/
def address (block : Nat) : Nat := ehubCacheStartAddress + ehubCacheBlockSize * block

/-- The two lists with their counters, and whether `cache_list_lock` is held. -/
structure Pool where
  free : List Nat
  used : List Nat
  numberOfCachesFree : Int
  numberOfCachesUsed : Int
  locked : Bool
  deriving DecidableEq, Repr

/-- `list_move_tail` to `cache_list_used`, with the counters. -/
def Pool.toUsed (p : Pool) (block : Nat) : Pool :=
  { p with
    free := p.free.erase block
    used := p.used.erase block ++ [block]
    numberOfCachesFree := p.numberOfCachesFree - 1
    numberOfCachesUsed := p.numberOfCachesUsed + 1 }

/-- `list_move_tail` to `cache_list_free`, with the counters. -/
def Pool.toFree (p : Pool) (block : Nat) : Pool :=
  { p with
    free := p.free.erase block ++ [block]
    used := p.used.erase block
    numberOfCachesUsed := p.numberOfCachesUsed - 1
    numberOfCachesFree := p.numberOfCachesFree + 1 }

def Pool.lock (p : Pool) : Pool := { p with locked := true }
def Pool.unlock (p : Pool) : Pool := { p with locked := false }

/-- `ehub_xhci_cache_create`, as far as it makes the blocks. -/
def cacheCreate : Pool :=
  (List.range ehubCacheNumberOfBlocks).foldl
    (fun p block => { p with free := p.free ++ [block], numberOfCachesFree := p.numberOfCachesFree + 1 })
    ⟨[], [], 0, 0, false⟩

/-- `ehub_xhci_cache_block_allocate`. -/
def cacheBlockAllocate (p : Pool) : Option Nat × Pool :=
  let p := p.lock
  match p.free with
  | [] => (none, p.unlock)
  | block :: _ => (some block, (p.toUsed block).unlock)

/-- `ehub_xhci_cache_block_allocate_segment`; `status` is that of its cache write. -/
def cacheBlockAllocateSegment (p : Pool) (status : Int) : Option Nat × Pool :=
  let p := p.lock
  match p.free with
  | [] => (none, p.unlock)
  | block :: _ =>
    let p := (p.toUsed block).unlock
    if status < 0 then (none, (p.lock.toFree block).unlock) else (some block, p)

/-- `ehub_xhci_cache_block_free`. -/
def cacheBlockFree (p : Pool) (block : Nat) : Pool := (p.lock.toFree block).unlock

/-- The cache blocks of a `struct urb_priv`. The array has six entries; stores
    behind its end are kept here so that they can be spoken about. -/
structure UrbPriv where
  cacheBlockCnt : Nat
  ehubDataCacheBlock : Nat → Option Nat

/-- What `ehub_xhci_urb_enqueue` starts with. -/
def UrbPriv.fresh : UrbPriv := ⟨0, fun _ => none⟩

/-- `EhubDataCacheBlock[0 .. cache_block_cnt)`. -/
def UrbPriv.blocks (u : UrbPriv) : List Nat := (List.range u.cacheBlockCnt).filterMap u.ehubDataCacheBlock

/-- `ehub_xhci_cache_block_free_by_urb`. -/
def cacheBlockFreeByUrb (p : Pool) (u : UrbPriv) : Pool × UrbPriv :=
  let p := (List.range u.cacheBlockCnt).foldl (fun p index =>
    match u.ehubDataCacheBlock index with
    | some block => p.toFree block
    | none => p) p.lock
  (p.unlock, ⟨0, fun index => if index < u.cacheBlockCnt then none else u.ehubDataCacheBlock index⟩)

/-- `DIV_ROUND_UP( transfer_buffer_length, EHUB_CACHE_BLOCK_SIZE )` on 32 bits. -/
def numBlocksNeeded (length : Nat) : Nat :=
  (length + ehubCacheBlockSize - 1) % 2 ^ 32 / ehubCacheBlockSize

/-- The loop that takes blocks `i`, `i + 1`, ... for a URB; `false` when the free
    list ran empty. -/
def takeBlocks : Nat → Nat → Pool → UrbPriv → Bool × Pool × UrbPriv
  | 0, _, p, u => (true, p, u)
  | left + 1, i, p, u =>
    match p.free with
    | [] => (false, p, u)
    | block :: _ =>
      takeBlocks left (i + 1) (p.toUsed block)
        ⟨u.cacheBlockCnt + 1, Function.update u.ehubDataCacheBlock i (some block)⟩

/-- A cache write of URB data: the block it goes to, the offset in the transfer
    buffer and the number of bytes. -/
structure DataWrite where
  block : Option Nat
  start : Nat
  length : Nat
  deriving DecidableEq, Repr

/-- The loop that writes the data of a URB to its blocks: the status that ends it
    and the writes made. -/
def writeBlocks (u : UrbPriv) (writes : Nat → Int) : Nat → Nat → Nat → Nat → Int × List DataWrite
  | 0, _, _, _ => (0, [])
  | left + 1, i, start, length =>
    let cacheLength := min length ehubCacheBlockSize
    let here : DataWrite := ⟨u.ehubDataCacheBlock i, start, cacheLength⟩
    if writes i < 0 then (writes i, [here])
    else
      let rest := writeBlocks u writes left (i + 1) (start + cacheLength) (length - cacheLength)
      (rest.1, here :: rest.2)

structure UrbResult where
  status : Int
  pool : Pool
  priv : UrbPriv
  log : List DataWrite

/-- `ehub_xhci_cache_block_allocate_urb`; `writes i` is the status of the cache
    write of block `i`. The first error exit does not give the lock back. -/
def cacheBlockAllocateUrb (p : Pool) (u : UrbPriv) (transferBufferLength : Nat) (writes : Nat → Int) : UrbResult :=
  let needed := numBlocksNeeded transferBufferLength
  let p := p.lock
  if p.numberOfCachesFree < needed then ⟨-enomem, p, u, []⟩
  else
    match takeBlocks needed 0 p u with
    | (false, p, u) =>
      let (p, u) := cacheBlockFreeByUrb p.unlock u
      ⟨-enomem, p, u, []⟩
    | (true, p, u) =>
      let p := p.unlock
      let (status, log) := writeBlocks u writes needed 0 0 transferBufferLength
      if status < 0 then
        let (p, u) := cacheBlockFreeByUrb p u
        ⟨status, p, u, log⟩
      else ⟨status, p, u, log⟩

/-! ### Which blocks are whose -/

/-- The lists partition the blocks of the device, the counters count them, and the
    used blocks are those that the owners hold, each once. -/
structure Sound (p : Pool) (held : List Nat) : Prop where
  partition : (p.free ++ p.used).Perm (List.range ehubCacheNumberOfBlocks)
  countFree : p.numberOfCachesFree = p.free.length
  countUsed : p.numberOfCachesUsed = p.used.length
  owners : p.used.Perm held

theorem Sound.nodup {p : Pool} {held : List Nat} (sound : Sound p held) : (p.free ++ p.used).Nodup :=
  sound.partition.nodup_iff.mpr List.nodup_range

theorem Sound.held_nodup {p : Pool} {held : List Nat} (sound : Sound p held) : held.Nodup :=
  sound.owners.nodup_iff.mp (List.nodup_append.mp sound.nodup).2.1

theorem Sound.perm {p : Pool} {held held' : List Nat} (sound : Sound p held) (same : held.Perm held') :
    Sound p held' :=
  ⟨sound.partition, sound.countFree, sound.countUsed, sound.owners.trans same⟩

@[simp] theorem sound_lock {p : Pool} {held : List Nat} : Sound p.lock held ↔ Sound p held :=
  ⟨fun ⟨a, b, c, d⟩ => ⟨a, b, c, d⟩, fun ⟨a, b, c, d⟩ => ⟨a, b, c, d⟩⟩

@[simp] theorem sound_unlock {p : Pool} {held : List Nat} : Sound p.unlock held ↔ Sound p held :=
  ⟨fun ⟨a, b, c, d⟩ => ⟨a, b, c, d⟩, fun ⟨a, b, c, d⟩ => ⟨a, b, c, d⟩⟩

/-- Taking the first free block makes it one more that is held. -/
theorem Sound.toUsed {p : Pool} {held : List Nat} (sound : Sound p held) {block : Nat} {rest : List Nat}
    (first : p.free = block :: rest) : Sound (p.toUsed block) (block :: held) := by
  have fresh : block ∉ p.used := by
    have apart := (List.nodup_append.mp sound.nodup).2.2
    intro member
    exact apart block (by simp [first]) block member rfl
  have same : p.used.erase block = p.used := List.erase_of_not_mem fresh
  have shorter : p.free.erase block = rest := by simp [first]
  refine ⟨?_, ?_, ?_, ?_⟩
  · have moved : (rest ++ (p.used ++ [block])).Perm (block :: (rest ++ p.used)) := by
      rw [← List.append_assoc]
      exact List.perm_append_singleton block (rest ++ p.used)
    simpa [Pool.toUsed, same, shorter] using moved.trans (by simpa [first] using sound.partition)
  · simp [Pool.toUsed, sound.countFree, first]
  · simp [Pool.toUsed, same, sound.countUsed]
  · simpa [Pool.toUsed, same] using
      (List.perm_append_singleton block p.used).trans (sound.owners.cons block)

/-- Giving back a block that is held makes it free. -/
theorem Sound.toFree {p : Pool} {held : List Nat} {block : Nat} (sound : Sound p (block :: held)) :
    Sound (p.toFree block) held := by
  have member : block ∈ p.used := sound.owners.mem_iff.mpr (by simp)
  have absent : block ∉ p.free := by
    have apart := (List.nodup_append.mp sound.nodup).2.2
    intro inFree
    exact apart block inFree block member rfl
  have same : p.free.erase block = p.free := List.erase_of_not_mem absent
  have back : p.used.Perm (block :: p.used.erase block) := List.perm_cons_erase member
  refine ⟨?_, ?_, ?_, ?_⟩
  · have moved : (p.free ++ [block] ++ p.used.erase block).Perm (p.free ++ p.used) := by
      rw [List.append_assoc]
      exact List.Perm.append_left p.free back.symm
    simpa [Pool.toFree, same] using moved.trans sound.partition
  · simp [Pool.toFree, same, sound.countFree]
  · have shorter : (p.used.erase block).length = p.used.length - 1 := List.length_erase_of_mem member
    have some_ : 0 < p.used.length := List.length_pos_of_mem member
    simp only [Pool.toFree, sound.countUsed, shorter]
    omega
  · exact (List.perm_cons block).mp (back.symm.trans sound.owners)

theorem Sound.toFree_all {p : Pool} {held : List Nat} (blocks : List Nat) (sound : Sound p (blocks ++ held)) :
    Sound (blocks.foldl Pool.toFree p) held := by
  induction blocks generalizing p with
  | nil => exact sound
  | cons block blocks ih => exact ih sound.toFree

theorem allocateSegment_nil {p : Pool} (empty : p.free = []) (status : Int) :
    cacheBlockAllocateSegment p status = (none, p.lock.unlock) := by
  have locked : p.lock.free = [] := empty
  simp only [cacheBlockAllocateSegment, locked]

theorem allocateSegment_cons {p : Pool} {block : Nat} {rest : List Nat} (first : p.free = block :: rest)
    (status : Int) :
    cacheBlockAllocateSegment p status =
      if status < 0 then (none, ((p.lock.toUsed block).unlock.lock.toFree block).unlock)
      else (some block, (p.lock.toUsed block).unlock) := by
  have locked : p.lock.free = block :: rest := first
  simp only [cacheBlockAllocateSegment, locked]

theorem Sound.allocate {p : Pool} {held : List Nat} (sound : Sound p held) :
    Sound (cacheBlockAllocate p).2 ((cacheBlockAllocate p).1.toList ++ held) := by
  unfold cacheBlockAllocate
  cases first : p.free with
  | nil =>
    have locked : p.lock.free = [] := first
    simpa only [locked, Option.toList_none, List.nil_append, sound_unlock, sound_lock] using sound
  | cons block rest =>
    have locked : p.lock.free = block :: rest := first
    have moved := (sound_lock.mpr sound).toUsed locked
    simpa only [locked, Option.toList_some, List.singleton_append, sound_unlock] using moved

theorem Sound.allocateSegment {p : Pool} {held : List Nat} (sound : Sound p held) (status : Int) :
    Sound (cacheBlockAllocateSegment p status).2 ((cacheBlockAllocateSegment p status).1.toList ++ held) := by
  cases first : p.free with
  | nil => simpa [allocateSegment_nil first] using sound
  | cons block rest =>
    have locked : p.lock.free = block :: rest := first
    have moved := (sound_lock.mpr sound).toUsed locked
    rw [allocateSegment_cons first]
    split_ifs with failed
    · simpa using (sound_lock.mpr (sound_unlock.mpr moved)).toFree
    · simpa using moved

theorem Sound.free {p : Pool} {held : List Nat} {block : Nat} (sound : Sound p (block :: held)) :
    Sound (cacheBlockFree p block) held := by
  simpa [cacheBlockFree] using (sound_lock.mpr sound).toFree

theorem freeByUrb_pool (p : Pool) (u : UrbPriv) :
    (cacheBlockFreeByUrb p u).1 = (u.blocks.foldl Pool.toFree p.lock).unlock := by
  have same : ∀ (indices : List Nat) (p : Pool),
      indices.foldl (fun p index => match u.ehubDataCacheBlock index with
        | some block => p.toFree block
        | none => p) p = (indices.filterMap u.ehubDataCacheBlock).foldl Pool.toFree p := by
    intro indices
    induction indices with
    | nil => simp
    | cons index indices ih =>
      intro p
      cases entry : u.ehubDataCacheBlock index <;> simp [entry, ih]
  simp [cacheBlockFreeByUrb, UrbPriv.blocks, same]

theorem freeByUrb_blocks (p : Pool) (u : UrbPriv) : (cacheBlockFreeByUrb p u).2.blocks = [] := by
  simp [cacheBlockFreeByUrb, UrbPriv.blocks]

theorem Sound.freeByUrb {p : Pool} {held : List Nat} {u : UrbPriv} (sound : Sound p (u.blocks ++ held)) :
    Sound (cacheBlockFreeByUrb p u).1 held := by
  rw [freeByUrb_pool]
  exact sound_unlock.mpr (Sound.toFree_all u.blocks (sound_lock.mpr sound))

/-- Storing a block in the entry behind the last one. -/
theorem blocks_store (u : UrbPriv) (block : Nat) :
    UrbPriv.blocks ⟨u.cacheBlockCnt + 1, Function.update u.ehubDataCacheBlock u.cacheBlockCnt (some block)⟩ =
      u.blocks ++ [block] := by
  simp only [UrbPriv.blocks, List.range_succ, List.filterMap_append]
  congr 1
  · apply List.filterMap_congr
    intro i member
    have : i ≠ u.cacheBlockCnt := by have := List.mem_range.mp member; omega
    simp [this]
  · simp

theorem takeBlocks_cons {p : Pool} {block : Nat} {rest : List Nat} (first : p.free = block :: rest) (left i : Nat)
    (u : UrbPriv) :
    takeBlocks (left + 1) i p u =
      takeBlocks left (i + 1) (p.toUsed block)
        ⟨u.cacheBlockCnt + 1, Function.update u.ehubDataCacheBlock i (some block)⟩ := by
  simp only [takeBlocks, first]

theorem takeBlocks_nil {p : Pool} (empty : p.free = []) (left i : Nat) (u : UrbPriv) :
    takeBlocks (left + 1) i p u = (false, p, u) := by
  simp only [takeBlocks, empty]

theorem takeBlocks_sound (left : Nat) (p : Pool) (u : UrbPriv) (held : List Nat)
    (sound : Sound p (u.blocks ++ held)) :
    Sound (takeBlocks left u.cacheBlockCnt p u).2.1
      ((takeBlocks left u.cacheBlockCnt p u).2.2.blocks ++ held) := by
  induction left generalizing p u with
  | zero => exact sound
  | succ left ih =>
    cases first : p.free with
    | nil => simpa only [takeBlocks_nil first] using sound
    | cons block rest =>
      have moved := sound.toUsed first
      rw [takeBlocks_cons first]
      refine ih (p.toUsed block)
        ⟨u.cacheBlockCnt + 1, Function.update u.ehubDataCacheBlock u.cacheBlockCnt (some block)⟩ ?_
      rw [blocks_store]
      exact moved.perm (by simpa using List.perm_middle.symm)

/-- Whatever happens to its cache writes, a URB holds what is taken for it. -/
theorem Sound.allocateUrb {p : Pool} {held : List Nat} (sound : Sound p held) (length : Nat) (writes : Nat → Int) :
    Sound (cacheBlockAllocateUrb p .fresh length writes).pool
      ((cacheBlockAllocateUrb p .fresh length writes).priv.blocks ++ held) := by
  have none_ : UrbPriv.blocks .fresh = [] := by simp [UrbPriv.blocks, UrbPriv.fresh]
  have start : Sound p.lock (UrbPriv.blocks .fresh ++ held) := by simpa [none_] using sound
  unfold cacheBlockAllocateUrb
  by_cases few : p.lock.numberOfCachesFree < numBlocksNeeded length
  · simpa [few] using start
  · have taken := takeBlocks_sound (numBlocksNeeded length) p.lock .fresh held start
    simp only [few, if_false]
    revert taken
    rcases shape : takeBlocks (numBlocksNeeded length) 0 p.lock .fresh with ⟨enough, p', u'⟩
    have shape' : takeBlocks (numBlocksNeeded length) UrbPriv.fresh.cacheBlockCnt p.lock .fresh = (enough, p', u') :=
      shape
    rw [shape']
    intro taken
    cases enough with
    | false =>
      have back := Sound.freeByUrb (sound_unlock.mpr taken)
      simpa [freeByUrb_blocks] using back
    | true =>
      by_cases failed : (writeBlocks u' writes (numBlocksNeeded length) 0 0 length).1 < 0
      · have back := Sound.freeByUrb (sound_unlock.mpr taken)
        simpa [failed, freeByUrb_blocks] using back
      · simpa [failed] using taken

/-! ### Runs of the five operations -/

/-- The pool, the blocks held by ring segments (one entry for each holder), and
    the URBs that `ehub_xhci_cache_block_allocate_urb` has been called for. -/
structure State where
  pool : Pool
  segments : List Nat
  urbs : List UrbPriv

def State.initial : State := ⟨cacheCreate, [], []⟩

/-- The blocks that owners hold, one entry for each block of each owner. -/
def State.held (s : State) : List Nat := s.segments ++ s.urbs.flatMap UrbPriv.blocks

/-- A call of one of the operations. `free` gives back the block of a holder,
    `freeByUrb` those of a URB, which may have none (any more). -/
inductive Op
  | allocate
  | allocateSegment (status : Int)
  | allocateUrb (transferBufferLength : Nat) (writes : Nat → Int)
  | free (holder : Nat)
  | freeByUrb (urb : Nat)

/-- A holder frees the block it holds; a URB needs at most six blocks. -/
def Op.Allowed (s : State) : Op → Prop
  | .free holder => holder < s.segments.length
  | .allocateUrb length _ => numBlocksNeeded length ≤ ehubCacheMaxDataBlocks
  | _ => True

def State.step (s : State) : Op → State
  | .allocate =>
    let (block, pool) := cacheBlockAllocate s.pool
    { s with pool, segments := block.toList ++ s.segments }
  | .allocateSegment status =>
    let (block, pool) := cacheBlockAllocateSegment s.pool status
    { s with pool, segments := block.toList ++ s.segments }
  | .allocateUrb length writes =>
    let result := cacheBlockAllocateUrb s.pool .fresh length writes
    { s with pool := result.pool, urbs := s.urbs ++ [result.priv] }
  | .free holder =>
    { s with
      pool := cacheBlockFree s.pool (s.segments.getD holder 0)
      segments := s.segments.eraseIdx holder }
  | .freeByUrb urb =>
    match s.urbs[urb]? with
    | none => s
    | some u =>
      let (pool, u) := cacheBlockFreeByUrb s.pool u
      { s with pool, urbs := s.urbs.set urb u }

/-- `s` is reached by calls that are allowed where they are made. -/
def Reachable (s : State) : Prop := Run.Reachable (· = State.initial) (fun s op => Op.Allowed s op) State.step s

theorem cacheCreate_eq : cacheCreate =
    ⟨List.range ehubCacheNumberOfBlocks, [], ehubCacheNumberOfBlocks, 0, false⟩ := by
  have made : ∀ n, (List.range n).foldl
      (fun (p : Pool) block => { p with free := p.free ++ [block], numberOfCachesFree := p.numberOfCachesFree + 1 })
      ⟨[], [], 0, 0, false⟩ = ⟨List.range n, [], n, 0, false⟩ := by
    intro n
    induction n with
    | zero => rfl
    | succ n ih => rw [List.range_succ, List.foldl_append, ih]; simp
  exact made ehubCacheNumberOfBlocks

theorem sound_initial : Sound State.initial.pool State.initial.held := by
  rw [State.initial, cacheCreate_eq]
  exact ⟨by simp, by simp, by simp, by simp [State.held]⟩

theorem sound_step {s : State} (sound : Sound s.pool s.held) (op : Op) (allowed : op.Allowed s) :
    Sound (s.step op).pool (s.step op).held := by
  cases op with
  | allocate => simpa [State.step, State.held] using sound.allocate
  | allocateSegment status => simpa [State.step, State.held] using sound.allocateSegment status
  | allocateUrb length writes =>
    have added := sound.allocateUrb length writes
    refine added.perm ?_
    simp only [State.step, State.held, List.flatMap_append, List.flatMap_singleton]
    rw [← List.append_assoc s.segments]
    exact List.perm_append_comm
  | free holder =>
    have inside : holder < s.segments.length := allowed
    have out : s.held.Perm (s.segments[holder] :: (s.segments.eraseIdx holder ++ s.urbs.flatMap UrbPriv.blocks)) :=
      (List.getElem_cons_eraseIdx_perm inside).symm.append_right _
    have given := (sound.perm out).free
    simpa [State.step, State.held, List.getElem?_eq_getElem inside] using given
  | freeByUrb urb =>
    cases entry : s.urbs[urb]? with
    | none => simpa [State.step, entry] using sound
    | some u =>
      obtain ⟨inside, is_u⟩ := List.getElem?_eq_some_iff.mp entry
      have shape : s.urbs = s.urbs.take urb ++ u :: s.urbs.drop (urb + 1) := by
        rw [← is_u, List.getElem_cons_drop, List.take_append_drop]
      have after : s.urbs.set urb (cacheBlockFreeByUrb s.pool u).2 =
          s.urbs.take urb ++ (cacheBlockFreeByUrb s.pool u).2 :: s.urbs.drop (urb + 1) :=
        List.set_eq_take_append_cons_drop .. |>.trans (if_pos inside)
      have out : s.held.Perm (u.blocks ++ (s.segments ++ (s.urbs.take urb).flatMap UrbPriv.blocks ++
          (s.urbs.drop (urb + 1)).flatMap UrbPriv.blocks)) := by
        rw [State.held]
        nth_rewrite 1 [shape]
        simp only [List.flatMap_append, List.flatMap_cons]
        rw [← List.append_assoc, ← List.append_assoc, ← List.append_assoc]
        exact List.Perm.append_right _ List.perm_append_comm
      have given := Sound.freeByUrb (sound.perm out)
      simpa [State.step, entry, State.held, after, freeByUrb_blocks] using given

theorem sound_reachable {s : State} (reachable : Reachable s) : Sound s.pool s.held := by
  refine Run.Reachable.invariant (P := fun s => Sound s.pool s.held) ?_ ?_ reachable
  · rintro _ rfl
    exact sound_initial
  · exact fun _ op sound allowed => sound_step sound op allowed

/-- The device addresses of a block. -/
def addresses (block : Nat) : Set Nat := Set.Ico (address block) (address block + ehubCacheBlockSize)

theorem addresses_disjoint {b c : Nat} (different : b ≠ c) : Disjoint (addresses b) (addresses c) := by
  rw [Set.disjoint_left]
  intro a inB inC
  simp only [addresses, address, ehubCacheBlockSize, Set.mem_Ico] at inB inC
  omega

/-- In every reachable state the two lists partition the 128 blocks, the counters
    are their lengths, every used block has one owner and every held block is used,
    and no two owned blocks share a device address. -/
theorem cacheBlocks_partition {s : State} (reachable : Reachable s) :
    (s.pool.free ++ s.pool.used).Perm (List.range 128) ∧
    s.pool.numberOfCachesFree = s.pool.free.length ∧ s.pool.numberOfCachesUsed = s.pool.used.length ∧
    s.held.Nodup ∧ s.pool.used.Perm s.held ∧
    s.held.Pairwise (fun b c => Disjoint (addresses b) (addresses c)) := by
  have sound := sound_reachable reachable
  exact ⟨sound.partition, sound.countFree, sound.countUsed, sound.held_nodup, sound.owners,
    sound.held_nodup.imp fun different => addresses_disjoint different⟩

/-- A segment, a URB of two blocks and a URB whose second write fails. -/
def someRun : List Op :=
  [.allocateSegment 0, .allocateUrb 2000 fun _ => 0, .allocateUrb 2000 fun i => if i = 1 then -19 else 0]

theorem cacheBlocks_partition_someRun : Reachable (someRun.foldl State.step .initial) ∧
    (someRun.foldl State.step .initial).held = [0, 1, 2] ∧ (someRun.foldl State.step .initial).held.Nodup := by
  have reachable : Reachable (someRun.foldl State.step .initial) :=
    Run.Reachable.all (.first rfl) ⟨trivial, by simp [Op.Allowed]; decide, by simp [Op.Allowed]; decide, trivial⟩
  exact ⟨reachable, by decide +kernel, (cacheBlocks_partition reachable).2.2.2.1⟩

end Ehub.CachePool
