import Mathlib
import Ehub.CachePool
import Ehub.Lap

/-!
The cache blocks of rings and URBs (`xhci-mem.c`, and the bandwidth calls of `xhci.c`).
Every segment of an endpoint's ring has a block of the device's memory, which it gets
when the ring is allocated or expanded and which goes back when the ring is freed. Isoc
URBs have blocks for their data. Between two calls a block is used if and only if a
segment of some ring or a URB has it; otherwise it is lost for good.

A segment is named by its block. All rings here are cached ones: stream rings, the
command ring and the event ring have no blocks.
-/
namespace Ehub.RingBlocks
open Ehub.CachePool Ehub.Lap

/-- The blocks and the `next` pointers of the segments. -/
structure Segs where
  pool : Pool
  next : Nat → Option Nat

/-- `struct xhci_ring`, as far as its segments are concerned. -/
structure Ring where
  firstSeg : Nat
  enqSeg : Nat
  numSegs : Nat

/-- What the allocators and the device answer while segments are allocated: whether
    there is memory for the `i`-th segment, the status of the write that initialises its
    block, and whether `EmbeddedCacheWriteError` is set when it has been linked. -/
structure Answers where
  kzalloc : Nat → Bool
  status : Nat → Int
  writeError : Nat → Bool

/-- `xhci_link_segments`. -/
def linkSegments (m : Segs) (prev next : Nat) : Segs := { m with next := Function.update m.next prev (some next) }

@[simp] theorem linkSegments_pool (m : Segs) (prev next : Nat) : (linkSegments m prev next).pool = m.pool := rfl

@[simp] theorem linkSegments_next (m : Segs) (prev next : Nat) :
    (linkSegments m prev next).next = Function.update m.next prev (some next) := rfl

/-- The exit of `xhci_alloc_segments_for_ring` that frees the segments from `seg` on. -/
def freeChain : Nat → Option Nat → Segs → Segs
  | 0, _, m => m
  | _, none, m => m
  | fuel + 1, some seg, m => freeChain fuel (m.next seg) { m with pool := cacheBlockFree m.pool seg }

/-- The loop of `xhci_alloc_segments_for_ring`: the last segment, if all could be had.
    Only the first of its three error exits gives blocks back. -/
def allocRest (answers : Answers) (first : Nat) : Nat → Nat → Nat → Segs → Option Nat × Segs
  | 0, _, prev, m => (some prev, m)
  | left + 1, i, prev, m =>
    if !answers.kzalloc i then (none, freeChain (ehubCacheNumberOfBlocks + 1) (some first) m)
    else
      match cacheBlockAllocateSegment m.pool (answers.status i) with
      | (none, pool) => (none, { m with pool })
      | (some next, pool) =>
        let m := linkSegments ⟨pool, Function.update m.next next none⟩ prev next
        if answers.writeError i then (none, m) else allocRest answers first left (i + 1) next m

/-- `xhci_alloc_segments_for_ring`, for at least one segment: the first and the last one. -/
def allocSegmentsForRing (m : Segs) (numSegs : Nat) (answers : Answers) : Option (Nat × Nat) × Segs :=
  if !answers.kzalloc 0 then (none, m)
  else
    match cacheBlockAllocateSegment m.pool (answers.status 0) with
    | (none, pool) => (none, { m with pool })
    | (some first, pool) =>
      match allocRest answers first (numSegs - 1) 1 first ⟨pool, Function.update m.next first none⟩ with
      | (none, m) => (none, m)
      | (some last, m) => (some (first, last), linkSegments m last first)

/-- `xhci_ring_alloc`, for at least one segment. -/
def ringAlloc (m : Segs) (numSegs : Nat) (kzalloc : Bool) (answers : Answers) : Option Ring × Segs :=
  if !kzalloc then (none, m)
  else
    match allocSegmentsForRing m numSegs answers with
    | (none, m) => (none, m)
    | (some (first, _), m) => (some ⟨first, first, numSegs⟩, m)

/-- The number of segments `ehub_xhci_ring_expansion` asks for. -/
def expansionSegs (r : Ring) (numTrbs : Nat) : Nat :=
  let needed := (numTrbs + (64 - 1) - 1) / (64 - 1)
  if r.numSegs > needed then r.numSegs else needed

/-- `xhci_link_rings`; the two flags say whether `EmbeddedCacheWriteError` is set after
    the first and after the second link. -/
def linkRings (m : Segs) (r : Ring) (first last numSegs : Nat) (error1 error2 : Bool) : Ring × Segs :=
  match m.next r.enqSeg with
  | none => (r, m)
  | some next =>
    let m := linkSegments m r.enqSeg first
    if error1 then (r, m)
    else
      let m := linkSegments m last next
      if error2 then (r, m) else ({ r with numSegs := r.numSegs + numSegs }, m)

/-- `ehub_xhci_ring_expansion`; nothing when the segments cannot be had. -/
def ringExpansion (m : Segs) (r : Ring) (numTrbs : Nat) (answers : Answers) (error1 error2 : Bool) : Option Ring × Segs :=
  match allocSegmentsForRing m (expansionSegs r numTrbs) answers with
  | (none, m) => (none, m)
  | (some (first, last), m) =>
    let (r, m) := linkRings m r first last (expansionSegs r numTrbs) error1 error2
    (some r, m)

/-- The loop of `xhci_free_segments_for_ring`. -/
def freeLoop (first : Nat) : Nat → Option Nat → Segs → Segs
  | 0, _, m => m
  | _, none, m => m
  | fuel + 1, some seg, m =>
    if seg = first then m else freeLoop first fuel (m.next seg) { m with pool := cacheBlockFree m.pool seg }

/-- `ehub_xhci_ring_free`. -/
def ringFree (m : Segs) (r : Ring) : Segs :=
  let m := freeLoop r.firstSeg (ehubCacheNumberOfBlocks + 1) (m.next r.firstSeg) m
  { m with pool := cacheBlockFree m.pool r.firstSeg }

/-- The blocks of the segments that a walk along the ring comes to. -/
def ringBlocks (next : Nat → Option Nat) (r : Ring) : Set Nat :=
  { block | ∃ n, (fun p => p.bind next)^[n] (some r.firstSeg) = some block }

/-! ### Devices and URBs -/

/-- An endpoint's place for a ring: the slot, the endpoint's index, and whether it is
    `new_ring` or `ring`. -/
abbrev Place := Fin 256 × Fin 31 × Bool

/-- The devices with the rings of their endpoints and their input control contexts, and
    the URBs that have not been given back. -/
structure State where
  segs : Segs
  devs : Fin 256 → Bool
  rings : Place → Option Ring
  addFlags : Fin 256 → Fin 31 → Bool
  dropFlags : Fin 256 → Fin 31 → Bool
  urbs : List UrbPriv

def State.initial : State :=
  ⟨⟨cacheCreate, fun _ => none⟩, fun _ => false, fun _ => none, fun _ _ => false, fun _ _ => false, []⟩

/-- The ring at a place is freed, and the place is empty then. -/
def State.freeRing (s : State) (k : Place) : State :=
  match s.rings k with
  | none => s
  | some r => { s with segs := ringFree s.segs r, rings := Function.update s.rings k none }

/-- A ring is allocated for a place. -/
def State.allocRing (s : State) (k : Place) (numSegs : Nat) (kzalloc : Bool) (answers : Answers) : State :=
  let (r, segs) := ringAlloc s.segs numSegs kzalloc answers
  { s with segs, rings := Function.update s.rings k r }

/-- `xhci_zero_in_ctx`. -/
def State.zeroInCtx (s : State) (slot : Fin 256) : State :=
  { s with
    addFlags := Function.update s.addFlags slot fun _ => false
    dropFlags := Function.update s.dropFlags slot fun _ => false }

/-- `ehub_xhci_free_virt_device`. Only `ring` is looked at. -/
def State.freeVirtDevice (s : State) (slot : Fin 256) : State :=
  if !s.devs slot then s
  else
    let s := (List.finRange 31).foldl (fun s ep => s.freeRing (slot, ep, false)) s
    { s.zeroInCtx slot with
      devs := Function.update s.devs slot false
      rings := fun k => if k.1 = slot then none else s.rings k }

/-- `ehub_xhci_alloc_virt_device`; `contexts` says whether there is memory for the device
    and its contexts. -/
def State.allocVirtDevice (s : State) (slot : Fin 256) (contexts kzalloc : Bool) (answers : Answers) : State :=
  if slot = 0 ∨ s.devs slot then s
  else
    let s := { s with devs := Function.update s.devs slot true }
    if !contexts then s.freeVirtDevice slot
    else
      let s := s.allocRing (slot, 0, false) 2 kzalloc answers
      if (s.rings (slot, 0, false)).isNone then s.freeVirtDevice slot else s

/-- `ehub_xhci_add_endpoint` with `ehub_xhci_endpoint_init`. -/
def State.addEndpoint (s : State) (slot : Fin 256) (ep : Fin 31) (isoc kzalloc : Bool) (answers : Answers) : State :=
  if !s.devs slot ∨ ep = 0 then s
  else if (s.rings (slot, ep, false)).isSome ∧ !s.dropFlags slot ep then s
  else if s.addFlags slot ep then s
  else
    let s := s.allocRing (slot, ep, true) (if isoc then 4 else 2) kzalloc answers
    if (s.rings (slot, ep, true)).isNone then s
    else { s with addFlags := Function.update s.addFlags slot (Function.update (s.addFlags slot) ep true) }

/-- `ehub_xhci_drop_endpoint`; `disabled` is what the controller says of the endpoint. -/
def State.dropEndpoint (s : State) (slot : Fin 256) (ep : Fin 31) (disabled : Bool) : State :=
  if !s.devs slot ∨ ep = 0 then s
  else if disabled ∨ s.dropFlags slot ep then s
  else
    { s with
      dropFlags := Function.update s.dropFlags slot (Function.update (s.dropFlags slot) ep true)
      addFlags := Function.update s.addFlags slot (Function.update (s.addFlags slot) ep false) }

/-- The endpoints but the first one. -/
def otherEps : List (Fin 31) := (List.finRange 31).tail

/-- The first loop of `ehub_xhci_check_bandwidth`, for one endpoint: a ring that was
    dropped and not changed is freed. -/
def State.freeDropped (slot : Fin 256) (s : State) (ep : Fin 31) : State :=
  if s.dropFlags slot ep && !s.addFlags slot ep then s.freeRing (slot, ep, false) else s

/-- The second loop, for one endpoint: the new ring takes the place of the old one. -/
def State.installNew (slot : Fin 256) (s : State) (ep : Fin 31) : State :=
  match s.rings (slot, ep, true) with
  | none => s
  | some r =>
    let s := s.freeRing (slot, ep, false)
    { s with rings := Function.update (Function.update s.rings (slot, ep, false) (some r)) (slot, ep, true) none }

/-- `ehub_xhci_check_bandwidth`; `configured` says whether the command could be allocated
    and the controller accepted the configuration. -/
def State.checkBandwidth (s : State) (slot : Fin 256) (configured : Bool) : State :=
  if !s.devs slot then s
  else if otherEps.all fun ep => !s.addFlags slot ep && !s.dropFlags slot ep then s
  else if !configured then s
  else
    let s := otherEps.foldl (State.freeDropped slot) s
    otherEps.foldl (State.installNew slot) (s.zeroInCtx slot)

/-- `ehub_xhci_reset_bandwidth`. -/
def State.resetBandwidth (s : State) (slot : Fin 256) : State :=
  if !s.devs slot then s
  else ((List.finRange 31).foldl (fun s ep => s.freeRing (slot, ep, true)) s).zeroInCtx slot

/-- `ehub_xhci_ring_expansion` on the ring of an endpoint. -/
def State.expandRing (s : State) (slot : Fin 256) (ep : Fin 31) (numTrbs : Nat) (answers : Answers) (error1 error2 : Bool) :
    State :=
  match s.rings (slot, ep, false) with
  | none => s
  | some r =>
    match ringExpansion s.segs r numTrbs answers error1 error2 with
    | (none, segs) => { s with segs }
    | (some r, segs) => { s with segs, rings := Function.update s.rings (slot, ep, false) (some r) }

/-- `enq_seg` moves on to the next segment, as TRBs are queued. -/
def State.advance (s : State) (slot : Fin 256) (ep : Fin 31) : State :=
  match s.rings (slot, ep, false) with
  | none => s
  | some r =>
    match s.segs.next r.enqSeg with
    | none => s
    | some seg => { s with rings := Function.update s.rings (slot, ep, false) (some { r with enqSeg := seg }) }

/-- The enqueue of an isoc URB behind the check for room. On an endpoint with `cache_data`
    its data gets blocks; when that or the queueing of its TDs fails, `urb_priv` is freed. -/
def State.enqueueUrb (s : State) (cacheData : Bool) (transferBufferLength : Nat) (writes : Nat → Int) (queued : Bool) : State :=
  let result := if cacheData then cacheBlockAllocateUrb s.segs.pool .fresh transferBufferLength writes
    else ⟨0, s.segs.pool, .fresh, []⟩
  if result.status ≠ 0 ∨ !queued then
    { s with segs := { s.segs with pool := (cacheBlockFreeByUrb result.pool result.priv).1 } }
  else { s with segs := { s.segs with pool := result.pool }, urbs := s.urbs ++ [result.priv] }

/-- A URB is given back and its `urb_priv` freed (`ehub_xhci_urb_free_priv`). -/
def State.givebackUrb (s : State) (urb : Nat) : State :=
  match s.urbs[urb]? with
  | none => s
  | some u =>
    { s with segs := { s.segs with pool := (cacheBlockFreeByUrb s.segs.pool u).1 }, urbs := s.urbs.eraseIdx urb }

/-- The calls. -/
inductive Op where
  | allocVirtDevice (slot : Fin 256) (contexts kzalloc : Bool) (answers : Answers)
  | freeVirtDevice (slot : Fin 256)
  | addEndpoint (slot : Fin 256) (ep : Fin 31) (isoc kzalloc : Bool) (answers : Answers)
  | dropEndpoint (slot : Fin 256) (ep : Fin 31) (disabled : Bool)
  | checkBandwidth (slot : Fin 256) (configured : Bool)
  | resetBandwidth (slot : Fin 256)
  | expandRing (slot : Fin 256) (ep : Fin 31) (numTrbs : Nat) (answers : Answers) (error1 error2 : Bool)
  | advance (slot : Fin 256) (ep : Fin 31)
  | enqueueUrb (cacheData : Bool) (transferBufferLength : Nat) (writes : Nat → Int) (queued : Bool)
  | givebackUrb (urb : Nat)

def State.step (s : State) : Op → State
  | .allocVirtDevice slot contexts kzalloc answers => s.allocVirtDevice slot contexts kzalloc answers
  | .freeVirtDevice slot => s.freeVirtDevice slot
  | .addEndpoint slot ep isoc kzalloc answers => s.addEndpoint slot ep isoc kzalloc answers
  | .dropEndpoint slot ep disabled => s.dropEndpoint slot ep disabled
  | .checkBandwidth slot configured => s.checkBandwidth slot configured
  | .resetBandwidth slot => s.resetBandwidth slot
  | .expandRing slot ep numTrbs answers error1 error2 => s.expandRing slot ep numTrbs answers error1 error2
  | .advance slot ep => s.advance slot ep
  | .enqueueUrb cacheData transferBufferLength writes queued => s.enqueueUrb cacheData transferBufferLength writes queued
  | .givebackUrb urb => s.givebackUrb urb

/-- `A call to ehub_xhci_add_endpoint() followed by a call to ehub_xhci_drop_endpoint() is
    not allowed.` -/
def Op.Allowed (s : State) : Op → Prop
  | .dropEndpoint slot ep _ => s.addFlags slot ep = false
  | _ => True

/-! ### Segments of one ring -/

section
variable {m : Segs} {held : List Nat}

/-- The ring's segments, read once around from the first one. -/
structure OnCircle (next : Nat → Option Nat) (r : Ring) (lap : List Nat) : Prop where
  first : lap.head? = some r.firstSeg
  isLap : IsLap (fun p => p.bind next) (lap.map some)
  enq : r.enqSeg ∈ lap

theorem OnCircle.congr {next next' : Nat → Option Nat} {r : Ring} {lap : List Nat} (circle : OnCircle next r lap)
    (same : ∀ b ∈ lap, next' b = next b) : OnCircle next' r lap := by
  refine ⟨circle.first, circle.isLap.congr ?_, circle.enq⟩
  intro p member
  obtain ⟨b, inLap, rfl⟩ := List.mem_map.mp member
  exact same b inLap

theorem OnCircle.chain {next : Nat → Option Nat} {r : Ring} {lap : List Nat} (circle : OnCircle next r lap) :
    ∃ rest, lap = r.firstSeg :: rest ∧ List.IsChain (fun a b => next a = some b) (r.firstSeg :: (rest ++ [r.firstSeg])) := by
  obtain ⟨rest, rfl⟩ := List.head?_eq_some_iff.mp circle.first
  refine ⟨rest, rfl, ?_⟩
  have chain := circle.isLap.2
  rw [List.map_cons, Cycle.chain_coe_cons, ← List.map_singleton, ← List.map_append, ← List.map_cons, List.isChain_map] at chain
  exact chain

/-- A closed chain of segments is a circle. -/
theorem onCircle_of_chain {next : Nat → Option Nat} {first enq n : Nat} {rest : List Nat} (distinct : (first :: rest).Nodup)
    (chain : List.IsChain (fun a b => next a = some b) (first :: (rest ++ [first]))) (member : enq ∈ first :: rest) :
    OnCircle next ⟨first, enq, n⟩ (first :: rest) := by
  refine ⟨rfl, ⟨distinct.map fun _ _ same => Option.some.inj same, ?_⟩, member⟩
  rw [List.map_cons, Cycle.chain_coe_cons, ← List.map_singleton, ← List.map_append, ← List.map_cons, List.isChain_map]
  exact chain

/-- A walk along the ring comes to the segments of its lap. -/
theorem OnCircle.ringBlocks_iff {next : Nat → Option Nat} {r : Ring} {lap : List Nat} (circle : OnCircle next r lap) (block : Nat) :
    block ∈ ringBlocks next r ↔ block ∈ lap := by
  obtain ⟨rest, rfl, _⟩ := circle.chain
  have isLap := circle.isLap
  constructor
  · rintro ⟨n, reaches⟩
    have inLap : ∀ n, (fun p => p.bind next)^[n] (some r.firstSeg) ∈ (r.firstSeg :: rest).map some := by
      intro n
      induction n with
      | zero => simp
      | succ n ih =>
        rw [Function.iterate_succ_apply']
        obtain ⟨a, b, split⟩ := List.append_of_mem ih
        rw [split] at isLap ⊢
        exact isLap.next_mem
    have := inLap n
    rw [reaches] at this
    simpa using this
  · intro member
    obtain ⟨a, b, split⟩ := List.append_of_mem member
    refine ⟨(a.map some).length, ?_⟩
    have turned : IsLap (fun p => p.bind next) ([] ++ (a.map some ++ some block :: b.map some)) := by
      simpa [split] using isLap
    refine turned.iterate_eq ?_
    have := congrArg (fun l => (l.map some).head?) split
    simpa using this.symm

theorem Sound.held_le {p : Pool} (sound : Sound p held) : held.length ≤ ehubCacheNumberOfBlocks := by
  have all := sound.partition.length_eq
  have owners := sound.owners.length_eq
  simp only [List.length_append, List.length_range] at all
  omega

theorem Sound.free_all {p : Pool} (blocks : List Nat) (sound : Sound p (blocks ++ held)) :
    Sound (blocks.foldl cacheBlockFree p) held := by
  induction blocks generalizing p with
  | nil => exact sound
  | cons block blocks ih => exact ih sound.free

theorem freeLoop_eq {first : Nat} : ∀ {l : List Nat} {m : Segs} {p fuel : Nat},
    List.IsChain (fun a b => m.next a = some b) (p :: (l ++ [first])) → first ∉ l → l.length < fuel →
    freeLoop first fuel (m.next p) m = { m with pool := l.foldl cacheBlockFree m.pool } := by
  intro l
  induction l with
  | nil =>
    intro m p fuel chain _ room
    obtain ⟨n, rfl⟩ : ∃ n, fuel = n + 1 := ⟨fuel - 1, by simp at room; omega⟩
    have leads : m.next p = some first := by simpa using chain
    rw [leads, freeLoop, if_pos rfl]
    rfl
  | cons x l ih =>
    intro m p fuel chain other room
    obtain ⟨n, rfl⟩ : ∃ n, fuel = n + 1 := ⟨fuel - 1, by simp at room; omega⟩
    obtain ⟨leads, more⟩ := List.isChain_cons_cons.mp chain
    have different : x ≠ first := by
      rintro rfl
      simp at other
    rw [leads, freeLoop, if_neg different]
    exact ih (m := { m with pool := cacheBlockFree m.pool x }) more (fun inside => other (by simp [inside]))
      (by simpa using room)

/-- Freeing a ring gives back the blocks of its segments. -/
theorem ringFree_sound {r : Ring} {lap : List Nat} (circle : OnCircle m.next r lap) (sound : Sound m.pool (lap ++ held)) :
    Sound (ringFree m r).pool held ∧ (ringFree m r).next = m.next := by
  obtain ⟨rest, rfl, chain⟩ := circle.chain
  have other : r.firstSeg ∉ rest := by
    have distinct := sound.held_nodup
    rw [List.cons_append] at distinct
    exact fun inside => (List.nodup_cons.mp distinct).1 (by simp [inside])
  have short := Sound.held_le sound
  simp only [List.length_append, List.length_cons] at short
  rw [ringFree, freeLoop_eq chain other (by omega)]
  refine ⟨?_, rfl⟩
  have turned : Sound m.pool (rest ++ (r.firstSeg :: held)) := sound.perm (by simpa using List.perm_middle.symm)
  exact (Sound.free_all rest turned).free

theorem freeChain_eq : ∀ {l : List Nat} {m : Segs} {p fuel : Nat}, List.IsChain (fun a b => m.next a = some b) (p :: l) →
    (∀ last, (p :: l).getLast? = some last → m.next last = none) → l.length + 1 < fuel →
    freeChain fuel (some p) m = { m with pool := (p :: l).foldl cacheBlockFree m.pool } := by
  intro l
  induction l with
  | nil =>
    intro m p fuel _ ends room
    obtain ⟨n, rfl⟩ : ∃ n, fuel = n + 2 := ⟨fuel - 2, by simp at room; omega⟩
    rw [freeChain, ends p (by simp), freeChain]
    · rfl
    · simp
  | cons x l ih =>
    intro m p fuel chain ends room
    obtain ⟨n, rfl⟩ : ∃ n, fuel = n + 1 := ⟨fuel - 1, by simp at room; omega⟩
    obtain ⟨leads, more⟩ := List.isChain_cons_cons.mp chain
    rw [freeChain, leads]
    exact ih (m := { m with pool := cacheBlockFree m.pool p }) more (fun last isLast => ends last (by simpa using isLast))
      (by simpa using room)

/-- A chain goes on at a new end, if no segment before the old end is the end itself. -/
theorem chain_link {next : Nat → Option Nat} {x v : Nat} : ∀ {l : List Nat}, (l ++ [x]).Nodup →
    List.IsChain (fun a b => next a = some b) (l ++ [x]) →
    List.IsChain (fun a b => Function.update next x (some v) a = some b) (l ++ [x] ++ [v]) := by
  intro l
  induction l with
  | nil => simp
  | cons y l ih =>
    intro distinct chain
    have other : y ≠ x := by
      rintro rfl
      simp at distinct
    have goesOn := ih (List.nodup_cons.mp distinct).2 (List.IsChain.tail chain)
    cases rest : l ++ [x] with
    | nil => simp at rest
    | cons z rest' =>
      rw [List.cons_append, rest] at chain
      rw [rest] at goesOn
      rw [List.cons_append, rest, List.cons_append, List.cons_append, List.isChain_cons_cons, Function.update_of_ne other]
      exact ⟨(List.isChain_cons_cons.mp chain).1, goesOn⟩

theorem chain_congr {next next' : Nat → Option Nat} {l : List Nat} (chain : List.IsChain (fun a b => next a = some b) l)
    (same : ∀ b ∈ l, next' b = next b) : List.IsChain (fun a b => next' a = some b) l :=
  chain.imp_of_mem_imp fun a _ inside _ leads => (same a inside).trans leads

/-- As long as there is memory for segments, each gets its block and is linked. -/
def Going (answers : Answers) (i left free : Nat) : Prop :=
  ∀ j < left, (∀ n ≤ j, answers.kzalloc (i + n) = true) →
    j < free ∧ 0 ≤ answers.status (i + j) ∧ answers.writeError (i + j) = false

theorem Going.tail {answers : Answers} {i left free : Nat} (going : Going answers i (left + 1) (free + 1))
    (memory : answers.kzalloc i = true) : Going answers (i + 1) left free := by
  intro j inside all
  have more := going (j + 1) (by omega) ?_
  · rw [Nat.add_assoc, Nat.add_comm 1 j]
    exact ⟨by omega, more.2⟩
  · intro n before
    cases n with
    | zero => exact memory
    | succ n =>
      have := all n (by omega)
      rwa [Nat.add_assoc, Nat.add_comm 1 n] at this

theorem allocate_ok {p : Pool} {status : Int} (sound : Sound p held) (some_free : 0 < p.free.length) (written : 0 ≤ status) :
    ∃ block pool, cacheBlockAllocateSegment p status = (some block, pool) ∧ Sound pool (block :: held) ∧
      p.free.length = pool.free.length + 1 := by
  cases first : p.free with
  | nil => simp [first] at some_free
  | cons block rest =>
    refine ⟨block, (p.lock.toUsed block).unlock, ?_, ?_, ?_⟩
    · rw [allocateSegment_cons first, if_neg (by omega)]
    · simpa using (sound_lock.mpr sound).toUsed (show p.lock.free = block :: rest from first)
    · simp [Pool.unlock, Pool.toUsed, Pool.lock, first]

/-- The loop takes what it can give back: when it fails everything is free again. -/
theorem allocRest_sound {answers : Answers} {first : Nat} : ∀ {left i prev : Nat} {m : Segs} {l : List Nat},
    (l ++ [prev]).head? = some first → List.IsChain (fun a b => m.next a = some b) (l ++ [prev]) → m.next prev = none →
    Sound m.pool (l ++ [prev] ++ held) → Going answers i left m.pool.free.length →
    (∀ b ∈ held, (allocRest answers first left i prev m).2.next b = m.next b) ∧
    ((allocRest answers first left i prev m).1 = none → Sound (allocRest answers first left i prev m).2.pool held) ∧
    (∀ last, (allocRest answers first left i prev m).1 = some last → ∃ l', (l' ++ [last]).head? = some first ∧
      List.IsChain (fun a b => (allocRest answers first left i prev m).2.next a = some b) (l' ++ [last]) ∧
      Sound (allocRest answers first left i prev m).2.pool (l' ++ [last] ++ held)) := by
  intro left
  induction left with
  | zero =>
    intro i prev m l start chain _ sound _
    refine ⟨fun _ _ => rfl, fun none => by simp [allocRest] at none, ?_⟩
    intro last isLast
    have is_last : prev = last := by simpa [allocRest] using isLast
    subst is_last
    exact ⟨l, start, chain, sound⟩
  | succ left ih =>
    intro i prev m l start chain ends sound going
    cases memory : answers.kzalloc i with
    | false =>
      have short := Sound.held_le sound
      obtain ⟨rest, is_rest⟩ := List.head?_eq_some_iff.mp start
      have freed : freeChain (ehubCacheNumberOfBlocks + 1) (some first) m =
          { m with pool := (first :: rest).foldl cacheBlockFree m.pool } := by
        rw [is_rest] at chain short
        refine freeChain_eq chain ?_ (by simp only [List.length_append, List.length_cons] at short; omega)
        intro last isLast
        rw [← is_rest, List.getLast?_concat, Option.some.injEq] at isLast
        rw [← isLast, ends]
      rw [is_rest] at sound
      have back := Sound.free_all _ sound
      rw [allocRest, memory]
      simp only [Bool.not_false, if_true, freed]
      exact ⟨fun _ _ => trivial, fun _ => back, fun _ isLast => by simp at isLast⟩
    | true =>
      have now : 0 < m.pool.free.length ∧ 0 ≤ answers.status i ∧ answers.writeError i = false :=
        going 0 (by omega) (fun n zero => by rw [Nat.le_zero.mp zero]; exact memory)
      obtain ⟨next, pool, taken, sound', less⟩ := allocate_ok sound now.1 now.2.1
      have fresh : next ∉ l ++ [prev] ++ held := (List.nodup_cons.mp sound'.held_nodup).1
      have old : ∀ b ∈ l ++ [prev], Function.update m.next next none b = m.next b := by
        intro b inside
        refine Function.update_of_ne ?_ _ _
        rintro rfl
        exact fresh (List.mem_append_left _ inside)
      have distinct : (l ++ [prev]).Nodup := (List.nodup_append.mp sound.held_nodup).1
      have other : next ≠ prev := by
        rintro rfl
        exact fresh (by simp)
      set m' := linkSegments ⟨pool, Function.update m.next next none⟩ prev next with is_m'
      have result : allocRest answers first (left + 1) i prev m = allocRest answers first left (i + 1) next m' := by
        rw [allocRest, memory, taken]
        simp [now.2.2, is_m']
      rw [result]
      have chain' : List.IsChain (fun a b => m'.next a = some b) ((l ++ [prev]) ++ [next]) :=
        chain_link distinct (chain_congr chain old)
      have ends' : m'.next next = none := by
        rw [is_m', linkSegments_next, Function.update_of_ne other]
        exact Function.update_self ..
      have start' : ((l ++ [prev]) ++ [next]).head? = some first := by
        rw [List.head?_append, start]
        rfl
      have sound'' : Sound m'.pool ((l ++ [prev]) ++ [next] ++ held) := by
        refine sound'.perm ?_
        rw [List.append_assoc _ [next]]
        exact List.perm_middle.symm
      rw [less] at going
      obtain ⟨frame, failed, made⟩ := ih start' chain' ends' sound'' (going.tail memory)
      refine ⟨fun b inside => (frame b inside).trans ?_, failed, made⟩
      have notNext : b ≠ next := by
        rintro rfl
        exact fresh (List.mem_append_right _ inside)
      have notPrev : b ≠ prev := by
        rintro rfl
        exact (List.nodup_append.mp sound.held_nodup).2.2 b (by simp) b inside rfl
      rw [is_m', linkSegments_next, Function.update_of_ne notPrev]
      exact Function.update_of_ne notNext ..

/-- Behind the first segment nothing fails while there is memory for segments: each of
    them gets its block, and no write of a link TRB raises the error. -/
def Clean (answers : Answers) (numSegs free : Nat) : Prop :=
  answers.kzalloc 0 = true → 0 < free → 0 ≤ answers.status 0 → Going answers 1 (numSegs - 1) (free - 1)

theorem allocSegments_sound (numSegs : Nat) {answers : Answers} (sound : Sound m.pool held)
    (clean : Clean answers numSegs m.pool.free.length) :
    (∀ b ∈ held, (allocSegmentsForRing m numSegs answers).2.next b = m.next b) ∧
    ((allocSegmentsForRing m numSegs answers).1 = none → Sound (allocSegmentsForRing m numSegs answers).2.pool held) ∧
    (∀ first last, (allocSegmentsForRing m numSegs answers).1 = some (first, last) → ∃ l, (l ++ [last]).head? = some first ∧
      List.IsChain (fun a b => (allocSegmentsForRing m numSegs answers).2.next a = some b) (l ++ [last] ++ [first]) ∧
      Sound (allocSegmentsForRing m numSegs answers).2.pool (l ++ [last] ++ held)) := by
  cases memory : answers.kzalloc 0 with
  | false => simp [allocSegmentsForRing, memory, sound]
  | true =>
    by_cases had : 0 < m.pool.free.length ∧ 0 ≤ answers.status 0
    · obtain ⟨first, pool, taken, sound', less⟩ := allocate_ok sound had.1 had.2
      have going := clean memory had.1 had.2
      rw [less, Nat.add_sub_cancel] at going
      have fresh : first ∉ held := (List.nodup_cons.mp sound'.held_nodup).1
      obtain ⟨frame, failed, made⟩ := allocRest_sound (l := []) (m := ⟨pool, Function.update m.next first none⟩)
        rfl (by simp) (Function.update_self ..) sound' going
      have outside : ∀ b ∈ held, Function.update m.next first none b = m.next b := by
        intro b inside
        refine Function.update_of_ne ?_ _ _
        rintro rfl
        exact fresh inside
      rcases result : allocRest answers first (numSegs - 1) 1 first ⟨pool, Function.update m.next first none⟩ with ⟨out, m'⟩
      rw [result] at frame failed made
      simp only [allocSegmentsForRing, memory, taken, result, Bool.not_true, Bool.false_eq_true, if_false]
      cases out with
      | none => exact ⟨fun b inside => (frame b inside).trans (outside b inside), fun _ => failed rfl, by simp⟩
      | some last =>
        obtain ⟨l, start, chain, sound''⟩ := made last rfl
        have distinct : (l ++ [last]).Nodup := (List.nodup_append.mp sound''.held_nodup).1
        refine ⟨?_, by simp, ?_⟩
        · intro b inside
          have notLast : b ≠ last := by
            rintro rfl
            exact (List.nodup_append.mp sound''.held_nodup).2.2 b (by simp) b inside rfl
          rw [linkSegments_next, Function.update_of_ne notLast, frame b inside]
          exact outside b inside
        · intro first' last' is_pair
          simp only [Option.some.injEq, Prod.mk.injEq] at is_pair
          obtain ⟨rfl, rfl⟩ := is_pair
          exact ⟨l, start, chain_link distinct chain, sound''⟩
    · -- The first segment gets no block, and the pool is as before.
      have none_taken : (cacheBlockAllocateSegment m.pool (answers.status 0)).1 = none := by
        cases first : m.pool.free with
        | nil => rw [allocateSegment_nil first]
        | cons block rest =>
          have failed : answers.status 0 < 0 := by
            by_contra written
            exact had ⟨by simp [first], by omega⟩
          rw [allocateSegment_cons first, if_pos failed]
      have same := sound.allocateSegment (answers.status 0)
      rcases result : cacheBlockAllocateSegment m.pool (answers.status 0) with ⟨out, pool⟩
      rw [result] at none_taken same
      have is_none : out = none := none_taken
      subst is_none
      simpa [allocSegmentsForRing, memory, result] using same

/-- A ring that could be allocated has a circle of new segments; otherwise the pool is as
    before. -/
theorem ringAlloc_sound (numSegs : Nat) (kzalloc : Bool) {answers : Answers} (sound : Sound m.pool held)
    (clean : Clean answers numSegs m.pool.free.length) :
    (∀ b ∈ held, (ringAlloc m numSegs kzalloc answers).2.next b = m.next b) ∧
    ((ringAlloc m numSegs kzalloc answers).1 = none → Sound (ringAlloc m numSegs kzalloc answers).2.pool held) ∧
    (∀ r, (ringAlloc m numSegs kzalloc answers).1 = some r → ∃ lap,
      OnCircle (ringAlloc m numSegs kzalloc answers).2.next r lap ∧
      Sound (ringAlloc m numSegs kzalloc answers).2.pool (lap ++ held)) := by
  cases kzalloc with
  | false => simp [ringAlloc, sound]
  | true =>
    obtain ⟨frame, failed, made⟩ := allocSegments_sound numSegs sound clean
    rcases result : allocSegmentsForRing m numSegs answers with ⟨out, m'⟩
    rw [result] at frame failed made
    simp only [ringAlloc, result, Bool.not_true, Bool.false_eq_true, if_false]
    cases out with
    | none => exact ⟨frame, fun _ => failed rfl, by simp⟩
    | some pair =>
      obtain ⟨l, start, chain, sound'⟩ := made pair.1 pair.2 rfl
      obtain ⟨rest, is_rest⟩ := List.head?_eq_some_iff.mp start
      rw [is_rest] at chain sound'
      refine ⟨frame, by simp, ?_⟩
      intro r is_r
      have is_r : ⟨pair.1, pair.1, numSegs⟩ = r := by simpa using is_r
      rw [← is_r]
      have distinct := (List.nodup_append.mp sound'.held_nodup).1
      exact ⟨_, onCircle_of_chain distinct chain (by simp), sound'⟩

/-- New segments join a ring behind `enq_seg`. -/
theorem OnCircle.join {next : Nat → Option Nat} {r : Ring} {lap l : List Nat} {first last n : Nat} (circle : OnCircle next r lap)
    (distinct : (lap ++ (l ++ [last])).Nodup) (start : (l ++ [last]).head? = some first)
    (chain : List.IsChain (fun a b => next a = some b) (l ++ [last])) :
    ∃ seg lap', next r.enqSeg = some seg ∧ lap'.Perm (lap ++ (l ++ [last])) ∧
      OnCircle (Function.update (Function.update next r.enqSeg (some first)) last (some seg)) { r with numSegs := n } lap' := by
  obtain ⟨a, b, is_lap⟩ := List.append_of_mem circle.enq
  have isLap := circle.isLap
  rw [is_lap, List.map_append, List.map_cons] at isLap
  obtain ⟨seg, leads⟩ : ∃ seg, next r.enqSeg = some seg := by
    have onLap := isLap.next_mem
    rw [← List.map_cons, ← List.map_append] at onLap
    obtain ⟨seg, _, is_seg⟩ := List.mem_map.mp onLap
    exact ⟨seg, is_seg.symm⟩
  have same : (a ++ r.enqSeg :: (l ++ [last] ++ b)).Perm (lap ++ (l ++ [last])) := by
    rw [is_lap, List.append_assoc a, List.cons_append]
    exact (List.perm_append_comm.cons _).append_left a
  have distinct' := same.nodup_iff.mpr distinct
  have notNew : ∀ x ∈ lap, x ∉ l ++ [last] := fun x inLap inNew => (List.nodup_append.mp distinct).2.2 x inLap x inNew rfl
  have notLast : r.enqSeg ≠ last := by
    intro isLast
    exact notNew _ circle.enq (by simp [isLast])
  refine ⟨seg, _, leads, same, ?_, ?_, by simp⟩
  · have first := circle.first
    rw [is_lap] at first
    cases a with
    | nil => exact first
    | cons x a => exact first
  · rw [List.map_append, List.map_cons, List.map_append]
    refine isLap.insert ?_ ?_ ?_
    · rw [← List.map_append, ← List.map_cons, ← List.map_append]
      exact distinct'.map fun _ _ => Option.some.inj
    · intro q inside
      rw [← List.map_append] at inside
      obtain ⟨x, inOld, rfl⟩ := List.mem_map.mp inside
      have notEnq : x ≠ r.enqSeg := by
        rintro rfl
        have middle := (List.nodup_append.mp distinct).1
        rw [is_lap] at middle
        exact (List.nodup_cons.mp (List.nodup_middle.mp middle)).1 inOld
      have inLap : x ∈ lap := by
        rw [is_lap]
        simp only [List.mem_append, List.mem_cons] at inOld ⊢
        tauto
      have other : x ≠ last := by
        rintro rfl
        exact notNew x inLap (by simp)
      show Function.update (Function.update next r.enqSeg (some first)) last (some seg) x = next x
      rw [Function.update_of_ne other, Function.update_of_ne notEnq]
    · have newNodup : (l ++ [last]).Nodup := (List.nodup_append.mp distinct).2.1
      have still : ∀ x ∈ l ++ [last], Function.update next r.enqSeg (some first) x = next x := by
        intro x inNew
        refine Function.update_of_ne ?_ _ _
        rintro rfl
        exact notNew _ circle.enq inNew
      have linked : List.IsChain
          (fun a b => Function.update (Function.update next r.enqSeg (some first)) last (some seg) a = some b)
          (r.enqSeg :: (l ++ [last] ++ [seg])) := by
        have goesOn := chain_link (v := seg) newNodup (chain_congr chain still)
        obtain ⟨rest, is_rest⟩ := List.head?_eq_some_iff.mp start
        rw [is_rest] at goesOn ⊢
        refine List.isChain_cons_cons.mpr ⟨?_, goesOn⟩
        rw [Function.update_of_ne notLast, Function.update_self]
      have ends : Option.bind (some r.enqSeg) next = some seg := leads
      rw [ends, ← List.map_singleton, ← List.map_append, ← List.map_cons, List.isChain_map]
      exact linked

/-- An expansion adds new segments to the ring or leaves everything as it was. -/
theorem ringExpansion_sound {r : Ring} {lap : List Nat} {numTrbs : Nat} {answers : Answers} (error2 : Bool)
    (circle : OnCircle m.next r lap) (sound : Sound m.pool (lap ++ held))
    (clean : Clean answers (expansionSegs r numTrbs) m.pool.free.length) :
    (∀ b ∈ held, (ringExpansion m r numTrbs answers false error2).2.next b = m.next b) ∧
    ((ringExpansion m r numTrbs answers false error2).1 = none →
      OnCircle (ringExpansion m r numTrbs answers false error2).2.next r lap ∧
      Sound (ringExpansion m r numTrbs answers false error2).2.pool (lap ++ held)) ∧
    (∀ r', (ringExpansion m r numTrbs answers false error2).1 = some r' → ∃ lap',
      OnCircle (ringExpansion m r numTrbs answers false error2).2.next r' lap' ∧
      Sound (ringExpansion m r numTrbs answers false error2).2.pool (lap' ++ held)) := by
  obtain ⟨frame, failed, made⟩ := allocSegments_sound (expansionSegs r numTrbs) sound clean
  rcases result : allocSegmentsForRing m (expansionSegs r numTrbs) answers with ⟨out, m'⟩
  rw [result] at frame failed made
  have circle' : OnCircle m'.next r lap := circle.congr fun b inside => frame b (List.mem_append_left _ inside)
  cases out with
  | none =>
    simp only [ringExpansion, result]
    exact ⟨fun b inside => frame b (List.mem_append_right _ inside), fun _ => ⟨circle', failed rfl⟩, by simp⟩
  | some pair =>
    obtain ⟨l, start, chain, sound'⟩ := made pair.1 pair.2 rfl
    have sound'' : Sound m'.pool ((lap ++ (l ++ [pair.2])) ++ held) := by
      refine sound'.perm ?_
      rw [← List.append_assoc]
      exact List.perm_append_comm.append_right held
    have apart := List.nodup_append.mp sound''.held_nodup
    have opened := (List.isChain_append.mp chain).1
    obtain ⟨seg, lap', leads, same, joined⟩ := circle'.join
      (n := if error2 then r.numSegs else r.numSegs + expansionSegs r numTrbs) apart.1 start opened
    have links : ringExpansion m r numTrbs answers false error2 =
        (some { r with numSegs := if error2 then r.numSegs else r.numSegs + expansionSegs r numTrbs },
          linkSegments (linkSegments m' r.enqSeg pair.1) pair.2 seg) := by
      simp only [ringExpansion, result, linkRings, leads]
      cases error2 <;> rfl
    rw [links]
    refine ⟨?_, by simp, ?_⟩
    · intro b inside
      have notEnq : b ≠ r.enqSeg := by
        rintro rfl
        exact apart.2.2 _ (List.mem_append_left _ circle.enq) _ inside rfl
      have notLast : b ≠ pair.2 := by
        rintro rfl
        exact apart.2.2 _ (by simp) _ inside rfl
      rw [linkSegments_next, Function.update_of_ne notLast, linkSegments_next, Function.update_of_ne notEnq]
      exact frame b (List.mem_append_right _ inside)
    · intro r' is_r'
      rw [← Option.some.inj is_r']
      exact ⟨lap', joined, sound''.perm (same.symm.append_right held)⟩

end

/-! ### Which blocks are whose -/

section
variable {ι : Type} [Fintype ι] [DecidableEq ι]

/-- The blocks of the rings, whose segments are given for each place, and of the URBs. -/
def held (laps : ι → List Nat) (urbs : List UrbPriv) : Multiset Nat :=
  ∑ k, (laps k : Multiset Nat) + (urbs.flatMap UrbPriv.blocks : Multiset Nat)

/-- Those of all the places but one. -/
def others (laps : ι → List Nat) (urbs : List UrbPriv) (k : ι) : Multiset Nat :=
  ∑ k' ∈ Finset.univ.erase k, (laps k' : Multiset Nat) + (urbs.flatMap UrbPriv.blocks : Multiset Nat)

theorem held_eq (laps : ι → List Nat) (urbs : List UrbPriv) (k : ι) : held laps urbs = laps k + others laps urbs k := by
  have all := Finset.add_sum_erase Finset.univ (fun k => (laps k : Multiset Nat)) (Finset.mem_univ k)
  rw [held, others, ← add_assoc, ← all]

theorem others_update (laps : ι → List Nat) (urbs : List UrbPriv) (k : ι) (lap : List Nat) :
    others (Function.update laps k lap) urbs k = others laps urbs k := by
  have same : ∑ k' ∈ Finset.univ.erase k, (Function.update laps k lap k' : Multiset Nat) =
      ∑ k' ∈ Finset.univ.erase k, (laps k' : Multiset Nat) := by
    refine Finset.sum_congr rfl ?_
    intro k' member
    rw [Function.update_of_ne (Finset.ne_of_mem_erase member)]
  rw [others, others, same]

theorem held_update (laps : ι → List Nat) (urbs : List UrbPriv) (k : ι) (lap : List Nat) :
    held (Function.update laps k lap) urbs = lap + others laps urbs k := by
  rw [held_eq _ _ k, others_update, Function.update_self]

theorem mem_others (laps : ι → List Nat) (urbs : List UrbPriv) {k k' : ι} (other : k' ≠ k) {block : Nat}
    (inside : block ∈ laps k') : block ∈ (others laps urbs k).toList := by
  rw [Multiset.mem_toList, others, Multiset.mem_add, Multiset.mem_sum]
  exact .inl ⟨k', Finset.mem_erase.mpr ⟨other, Finset.mem_univ _⟩, inside⟩

omit [DecidableEq ι] in
theorem mem_held {laps : ι → List Nat} {urbs : List UrbPriv} {block : Nat} :
    block ∈ held laps urbs ↔ (∃ k, block ∈ laps k) ∨ ∃ u ∈ urbs, block ∈ u.blocks := by
  simp [held, Multiset.mem_sum]

/-- The blocks of one place move to another one. -/
theorem held_move (laps : ι → List Nat) (urbs : List UrbPriv) {k k' : ι} (other : k' ≠ k) (vacant : laps k = []) :
    held (Function.update (Function.update laps k (laps k')) k' []) urbs = held laps urbs := by
  have whole := held_update laps urbs k (laps k')
  rw [held_eq _ _ k', Function.update_of_ne other] at whole
  rw [held_update, held_eq laps urbs k, vacant, add_left_cancel whole]

/-- The blocks of one place and those of the others. -/
theorem Sound.split {p : Pool} {laps : ι → List Nat} {urbs : List UrbPriv} (sound : Sound p (held laps urbs).toList) (k : ι) :
    Sound p (laps k ++ (others laps urbs k).toList) := by
  refine sound.perm (Multiset.coe_eq_coe.mp ?_)
  rw [Multiset.coe_toList, ← Multiset.coe_add, Multiset.coe_toList, held_eq laps urbs k]

theorem Sound.join {p : Pool} {laps : ι → List Nat} {urbs : List UrbPriv} {k : ι} {lap : List Nat}
    (sound : Sound p (lap ++ (others laps urbs k).toList)) : Sound p (held (Function.update laps k lap) urbs).toList := by
  refine sound.perm (Multiset.coe_eq_coe.mp ?_)
  rw [Multiset.coe_toList, ← Multiset.coe_add, Multiset.coe_toList, held_update]

end

/-- The used blocks are those of the rings, each of which is a circle of segments, and of
    the URBs. -/
structure Inv (s : State) (laps : Place → List Nat) : Prop where
  sound : Sound s.segs.pool (held laps s.urbs).toList
  circles : ∀ k r, s.rings k = some r → OnCircle s.segs.next r (laps k)
  empty : ∀ k, s.rings k = none → laps k = []

section
variable {s : State} {laps : Place → List Nat}

/-- A step that changes the ring at one place and keeps the segments of the others. -/
theorem Inv.replace (inv : Inv s laps) {k : Place} {segs : Segs} {r : Option Ring} {lap : List Nat}
    (frame : ∀ b ∈ (others laps s.urbs k).toList, segs.next b = s.segs.next b)
    (sound : Sound segs.pool (lap ++ (others laps s.urbs k).toList))
    (circle : ∀ r', r = some r' → OnCircle segs.next r' lap) (empty : r = none → lap = []) :
    Inv { s with segs, rings := Function.update s.rings k r } (Function.update laps k lap) := by
  refine ⟨Sound.join sound, ?_, ?_⟩
  · intro k' r' is_r'
    by_cases here : k' = k
    · subst here
      rw [Function.update_self]
      exact circle r' (by simpa using is_r')
    · rw [Function.update_of_ne here]
      refine (inv.circles k' r' (by simpa [here] using is_r')).congr ?_
      exact fun b inside => frame b (mem_others laps s.urbs here inside)
  · intro k' is_none
    by_cases here : k' = k
    · subst here
      rw [Function.update_self]
      exact empty (by simpa using is_none)
    · rw [Function.update_of_ne here]
      exact inv.empty k' (by simpa [here] using is_none)

theorem Inv.freeRing (inv : Inv s laps) (k : Place) : ∃ laps', Inv (s.freeRing k) laps' := by
  cases is_r : s.rings k with
  | none => exact ⟨laps, by simpa only [State.freeRing, is_r] using inv⟩
  | some r =>
    obtain ⟨sound, next⟩ := ringFree_sound (inv.circles k r is_r) (Sound.split inv.sound k)
    refine ⟨Function.update laps k [], ?_⟩
    simp only [State.freeRing, is_r]
    exact inv.replace (fun b _ => by rw [next]) sound (by simp) (by simp)

theorem Inv.allocRing (inv : Inv s laps) {k : Place} (vacant : s.rings k = none) (numSegs : Nat) (kzalloc : Bool)
    {answers : Answers} (clean : Clean answers numSegs s.segs.pool.free.length) :
    ∃ laps', Inv (s.allocRing k numSegs kzalloc answers) laps' := by
  have sound := Sound.split inv.sound k
  rw [inv.empty k vacant] at sound
  obtain ⟨frame, failed, made⟩ := ringAlloc_sound numSegs kzalloc sound clean
  rcases result : ringAlloc s.segs numSegs kzalloc answers with ⟨r, segs⟩
  rw [result] at frame failed made
  simp only [State.allocRing, result]
  cases r with
  | none =>
    have kept : Sound segs.pool ([] ++ (others laps s.urbs k).toList) := failed rfl
    exact ⟨_, inv.replace frame kept (by simp) (by simp)⟩
  | some r =>
    obtain ⟨lap, circle, sound'⟩ := made r rfl
    refine ⟨_, inv.replace frame sound' ?_ (by simp)⟩
    intro r' is_r'
    rwa [← Option.some.inj is_r']

theorem freeRing_rings (s : State) (k : Place) : (s.freeRing k).rings = Function.update s.rings k none := by
  cases is_r : s.rings k with
  | none => simp [State.freeRing, is_r]
  | some r => simp [State.freeRing, is_r]

theorem Inv.installNew (inv : Inv s laps) (slot : Fin 256) (ep : Fin 31) : ∃ laps', Inv (s.installNew slot ep) laps' := by
  cases is_r : s.rings (slot, ep, true) with
  | none => exact ⟨laps, by simpa only [State.installNew, is_r] using inv⟩
  | some r =>
    obtain ⟨laps1, inv1⟩ := inv.freeRing (slot, ep, false)
    have rings := freeRing_rings s (slot, ep, false)
    have other : (slot, ep, true) ≠ (slot, ep, false) := by simp
    have vacant : laps1 (slot, ep, false) = [] := inv1.empty _ (by rw [rings, Function.update_self])
    have new := inv1.circles (slot, ep, true) r (by rw [rings, Function.update_of_ne other, is_r])
    simp only [State.installNew, is_r]
    refine ⟨Function.update (Function.update laps1 (slot, ep, false) (laps1 (slot, ep, true))) (slot, ep, true) [], ?_, ?_, ?_⟩
    · rw [held_move laps1 _ other vacant]
      exact inv1.sound
    · intro k r' is_r'
      by_cases isNew : k = (slot, ep, true)
      · simp [isNew] at is_r'
      · dsimp only at is_r' ⊢
        rw [Function.update_of_ne isNew] at is_r' ⊢
        by_cases isOld : k = (slot, ep, false)
        · subst isOld
          rw [Function.update_self] at is_r' ⊢
          rwa [← Option.some.inj is_r']
        · rw [Function.update_of_ne isOld] at is_r' ⊢
          exact inv1.circles k r' is_r'
    · intro k is_none
      by_cases isNew : k = (slot, ep, true)
      · rw [isNew, Function.update_self]
      · dsimp only at is_none
        rw [Function.update_of_ne isNew] at is_none ⊢
        by_cases isOld : k = (slot, ep, false)
        · simp [isOld] at is_none
        · rw [Function.update_of_ne isOld] at is_none ⊢
          exact inv1.empty k is_none

theorem Inv.expandRing (inv : Inv s laps) (slot : Fin 256) (ep : Fin 31) {numTrbs : Nat} {answers : Answers} (error2 : Bool)
    (clean : ∀ r, s.rings (slot, ep, false) = some r → Clean answers (expansionSegs r numTrbs) s.segs.pool.free.length) :
    ∃ laps', Inv (s.expandRing slot ep numTrbs answers false error2) laps' := by
  cases is_r : s.rings (slot, ep, false) with
  | none => exact ⟨laps, by simpa only [State.expandRing, is_r] using inv⟩
  | some r =>
    obtain ⟨frame, failed, made⟩ := ringExpansion_sound error2 (inv.circles _ r is_r)
      (Sound.split inv.sound (slot, ep, false)) (clean r is_r)
    rcases result : ringExpansion s.segs r numTrbs answers false error2 with ⟨out, segs⟩
    rw [result] at frame failed made
    simp only [State.expandRing, is_r, result]
    cases out with
    | none =>
      obtain ⟨circle, sound⟩ := failed rfl
      have same : Function.update s.rings (slot, ep, false) (some r) = s.rings := by rw [← is_r, Function.update_eq_self]
      have kept := inv.replace (r := some r) frame sound (fun r' is_r' => by rwa [← Option.some.inj is_r']) (by simp)
      rw [same] at kept
      exact ⟨_, kept⟩
    | some r' =>
      obtain ⟨lap, circle, sound⟩ := made r' rfl
      exact ⟨_, inv.replace frame sound (fun r' is_r' => by rwa [← Option.some.inj is_r']) (by simp)⟩

theorem Inv.advance (inv : Inv s laps) (slot : Fin 256) (ep : Fin 31) : ∃ laps', Inv (s.advance slot ep) laps' := by
  cases is_r : s.rings (slot, ep, false) with
  | none => exact ⟨laps, by simpa only [State.advance, is_r] using inv⟩
  | some r =>
    have circle := inv.circles _ r is_r
    cases leads : s.segs.next r.enqSeg with
    | none => exact ⟨laps, by simpa only [State.advance, is_r, leads] using inv⟩
    | some seg =>
      simp only [State.advance, is_r, leads]
      refine ⟨_, inv.replace (fun _ _ => rfl) (Sound.split inv.sound (slot, ep, false)) ?_ (by simp)⟩
      intro r' is_r'
      rw [← Option.some.inj is_r']
      refine ⟨circle.first, circle.isLap, ?_⟩
      obtain ⟨a, b, split⟩ := List.append_of_mem circle.enq
      have isLap := circle.isLap
      rw [split, List.map_append, List.map_cons] at isLap
      have onLap := isLap.next_mem
      rw [Option.bind_some, leads, ← List.map_cons, ← List.map_append, ← split] at onLap
      simpa using onLap

theorem Inv.enqueueUrb (inv : Inv s laps) (cacheData : Bool) (length : Nat) (writes : Nat → Int) (queued : Bool) :
    ∃ laps', Inv (s.enqueueUrb cacheData length writes queued) laps' := by
  refine ⟨laps, ?_⟩
  rw [State.enqueueUrb]
  set result := if cacheData = true then cacheBlockAllocateUrb s.segs.pool .fresh length writes
    else ⟨0, s.segs.pool, .fresh, []⟩ with is_result
  have sound : Sound result.pool (result.priv.blocks ++ (held laps s.urbs).toList) := by
    rw [is_result]
    split_ifs
    · exact inv.sound.allocateUrb length writes
    · have nothing : UrbPriv.blocks .fresh = [] := by simp [UrbPriv.blocks, UrbPriv.fresh]
      rw [nothing]
      exact inv.sound
  simp only []
  split_ifs
  · exact ⟨sound.freeByUrb, inv.circles, inv.empty⟩
  · refine ⟨sound.perm (Multiset.coe_eq_coe.mp ?_), inv.circles, inv.empty⟩
    rw [Multiset.coe_toList, ← Multiset.coe_add, Multiset.coe_toList, held, held, List.flatMap_append, ← Multiset.coe_add,
      List.flatMap_singleton, add_comm, add_assoc]

theorem Inv.givebackUrb (inv : Inv s laps) (urb : Nat) : ∃ laps', Inv (s.givebackUrb urb) laps' := by
  cases entry : s.urbs[urb]? with
  | none => exact ⟨laps, by simpa only [State.givebackUrb, entry] using inv⟩
  | some u =>
    obtain ⟨inside, is_u⟩ := List.getElem?_eq_some_iff.mp entry
    simp only [State.givebackUrb, entry]
    refine ⟨laps, ?_, inv.circles, inv.empty⟩
    refine Sound.freeByUrb (inv.sound.perm (Multiset.coe_eq_coe.mp ?_))
    have out : (s.urbs.flatMap UrbPriv.blocks : Multiset Nat) =
        u.blocks + ((s.urbs.eraseIdx urb).flatMap UrbPriv.blocks : Multiset Nat) := by
      rw [Multiset.coe_add, ← List.flatMap_cons, ← is_u]
      exact Multiset.coe_eq_coe.mpr ((List.getElem_cons_eraseIdx_perm inside).symm.flatMap_right _)
    rw [Multiset.coe_toList, ← Multiset.coe_add, Multiset.coe_toList, held, held, out, add_left_comm]

end

/-! ### Runs -/

/-- What a call for one device leaves alone: its flags and the other devices. -/
structure Local (slot : Fin 256) (s s' : State) : Prop where
  devs : s'.devs = s.devs
  addFlags : s'.addFlags = s.addFlags
  dropFlags : s'.dropFlags = s.dropFlags
  rings : ∀ k : Place, k.1 ≠ slot → s'.rings k = s.rings k

theorem Local.refl (slot : Fin 256) (s : State) : Local slot s s := ⟨rfl, rfl, rfl, fun _ _ => rfl⟩

theorem Local.trans {slot : Fin 256} {s s' s'' : State} (one : Local slot s s') (two : Local slot s' s'') : Local slot s s'' :=
  ⟨two.devs.trans one.devs, two.addFlags.trans one.addFlags, two.dropFlags.trans one.dropFlags,
    fun k other => (two.rings k other).trans (one.rings k other)⟩

theorem freeRing_local (s : State) (slot : Fin 256) (ep : Fin 31) (isNew : Bool) : Local slot s (s.freeRing (slot, ep, isNew)) := by
  refine ⟨?_, ?_, ?_, ?_⟩
  · rw [State.freeRing]
    split <;> rfl
  · rw [State.freeRing]
    split <;> rfl
  · rw [State.freeRing]
    split <;> rfl
  · intro k other
    rw [freeRing_rings, Function.update_of_ne]
    rintro rfl
    exact other rfl

section
variable {slot : Fin 256}

theorem freeRings_local (isNew : Bool) (eps : List (Fin 31)) (s : State) :
    Local slot s (eps.foldl (fun s ep => s.freeRing (slot, ep, isNew)) s) :=
  List.foldlRecOn eps _ (Local.refl slot s) fun _ so_far _ _ => so_far.trans (freeRing_local ..)

theorem freeRings_rings (isNew : Bool) (eps : List (Fin 31)) (s : State) (ep : Fin 31) (w : Bool) :
    (eps.foldl (fun s ep => s.freeRing (slot, ep, isNew)) s).rings (slot, ep, w) =
      if ep ∈ eps ∧ w = isNew then none else s.rings (slot, ep, w) := by
  induction eps generalizing s with
  | nil => simp
  | cons x eps ih =>
    rw [List.foldl_cons, ih, freeRing_rings]
    by_cases here : ep = x ∧ w = isNew
    · obtain ⟨rfl, rfl⟩ := here
      simp
    · have other : ((slot, ep, w) : Place) ≠ (slot, x, isNew) := by
        simpa using here
      rw [Function.update_of_ne other]
      by_cases isW : w = isNew
      · have notX : ep ≠ x := fun isX => here ⟨isX, isW⟩
        simp [isW, notX]
      · simp [isW]

theorem freeDropped_local (slot : Fin 256) (s : State) (ep : Fin 31) :
    Local slot s (s.freeDropped slot ep) ∧ ∀ ep', (s.freeDropped slot ep).rings (slot, ep', true) = s.rings (slot, ep', true) := by
  rw [State.freeDropped]
  split_ifs
  · refine ⟨freeRing_local .., fun ep' => ?_⟩
    rw [freeRing_rings, Function.update_of_ne (by simp)]
  · exact ⟨.refl .., fun _ => rfl⟩

theorem installNew_local (slot : Fin 256) (s : State) (ep : Fin 31) : Local slot s (s.installNew slot ep) ∧
    ∀ ep', (s.installNew slot ep).rings (slot, ep', true) = if ep' = ep then none else s.rings (slot, ep', true) := by
  cases is_r : s.rings (slot, ep, true) with
  | none =>
    simp only [State.installNew, is_r]
    refine ⟨.refl .., fun ep' => ?_⟩
    split_ifs with here
    · rw [here, is_r]
    · rfl
  | some r =>
    simp only [State.installNew, is_r]
    obtain ⟨devs, addFlags, dropFlags, rings⟩ := freeRing_local s slot ep false
    refine ⟨⟨devs, addFlags, dropFlags, ?_⟩, ?_⟩
    · intro k other
      have notNew : k ≠ (slot, ep, true) := by
        rintro rfl
        exact other rfl
      have notOld : k ≠ (slot, ep, false) := by
        rintro rfl
        exact other rfl
      dsimp only
      rw [Function.update_of_ne notNew, Function.update_of_ne notOld, rings k other]
    · intro ep'
      by_cases here : ep' = ep
      · simp [here]
      · have other : ((slot, ep', true) : Place) ≠ (slot, ep, true) := by simpa using here
        rw [Function.update_of_ne other, Function.update_of_ne (by simp), freeRing_rings, Function.update_of_ne (by simp),
          if_neg here]

theorem freeDropped_all (slot : Fin 256) (eps : List (Fin 31)) (s : State) : Local slot s (eps.foldl (State.freeDropped slot) s) ∧
    ∀ ep, (eps.foldl (State.freeDropped slot) s).rings (slot, ep, true) = s.rings (slot, ep, true) := by
  induction eps generalizing s with
  | nil => exact ⟨.refl .., fun _ => rfl⟩
  | cons x eps ih =>
    obtain ⟨one, same⟩ := freeDropped_local slot s x
    obtain ⟨more, same'⟩ := ih (s.freeDropped slot x)
    exact ⟨one.trans more, fun ep => (same' ep).trans (same ep)⟩

theorem installNew_all (slot : Fin 256) (eps : List (Fin 31)) (s : State) : Local slot s (eps.foldl (State.installNew slot) s) ∧
    ∀ ep, (eps.foldl (State.installNew slot) s).rings (slot, ep, true) =
      if ep ∈ eps then none else s.rings (slot, ep, true) := by
  induction eps generalizing s with
  | nil => exact ⟨.refl .., fun _ => by simp⟩
  | cons x eps ih =>
    obtain ⟨one, rings⟩ := installNew_local slot s x
    obtain ⟨more, rings'⟩ := ih (s.installNew slot x)
    refine ⟨one.trans more, fun ep => ?_⟩
    rw [List.foldl_cons, rings', rings]
    by_cases later : ep ∈ eps
    · simp [later]
    · simp [later]

end

/-- A device that is gone has no rings, and a new ring has its flag set. -/
structure Known (s : State) : Prop where
  gone : ∀ slot, s.devs slot = false → ∀ ep isNew, s.rings (slot, ep, isNew) = none
  added : ∀ slot ep, s.rings (slot, ep, true) ≠ none → s.addFlags slot ep = true ∧ ep ≠ 0

/-- What the calls have to meet for no block to be lost: behind the first segment of a new
    stretch nothing fails but the memory for a segment, the link to the new stretch does
    not raise the error, a device is not freed with a new ring pending, and the data of a
    URB fits into the array for its blocks. -/
def Careful (s : State) : Op → Prop
  | .allocVirtDevice _ _ _ answers => Clean answers 2 s.segs.pool.free.length
  | .addEndpoint _ _ isoc _ answers => Clean answers (if isoc then 4 else 2) s.segs.pool.free.length
  | .expandRing slot ep numTrbs answers error1 _ => error1 = false ∧
      ∀ r, s.rings (slot, ep, false) = some r → Clean answers (expansionSegs r numTrbs) s.segs.pool.free.length
  | .freeVirtDevice slot => ∀ ep, s.rings (slot, ep, true) = none
  | .enqueueUrb cacheData length _ _ => cacheData = true → numBlocksNeeded length ≤ ehubCacheMaxDataBlocks
  | _ => True

/-- The invariant of the runs. -/
structure Good (s : State) : Prop where
  owned : ∃ laps, Inv s laps
  known : Known s

section
variable {s : State}

theorem owned_foldl {f : State → Fin 31 → State} (keeps : ∀ s laps ep, Inv s laps → ∃ laps', Inv (f s ep) laps')
    (eps : List (Fin 31)) (owned : ∃ laps, Inv s laps) : ∃ laps, Inv (eps.foldl f s) laps := by
  induction eps generalizing s with
  | nil => exact owned
  | cons ep eps ih =>
    obtain ⟨laps, inv⟩ := owned
    exact ih (keeps s laps ep inv)

theorem mem_otherEps : ∀ ep, ep ∈ otherEps ↔ ep ≠ 0 := by decide

theorem freeVirtDevice_rings {slot : Fin 256} (present : s.devs slot = true) (k : Place) :
    (s.freeVirtDevice slot).rings k = if k.1 = slot then none else s.rings k := by
  rw [State.freeVirtDevice, present]
  simp only [Bool.not_true, Bool.false_eq_true, if_false]
  split_ifs with here
  · rfl
  · exact (freeRings_local false _ s).rings k here

theorem Good.freeVirtDevice (good : Good s) {slot : Fin 256} (noneNew : ∀ ep, s.rings (slot, ep, true) = none) :
    Good (s.freeVirtDevice slot) := by
  rw [State.freeVirtDevice]
  split_ifs with present
  · exact good
  · set s' := (List.finRange 31).foldl (fun s ep => s.freeRing (slot, ep, false)) s with is_s'
    have kept : Local slot s s' := freeRings_local ..
    have nothing : ∀ ep isNew, s'.rings (slot, ep, isNew) = none := by
      intro ep isNew
      rw [is_s', freeRings_rings]
      cases isNew with
      | false => simp
      | true => simpa using noneNew ep
    have same : (fun k : Place => if k.1 = slot then none else s'.rings k) = s'.rings := by
      funext ⟨slot', ep, isNew⟩
      dsimp only
      split_ifs with here
      · rw [here, nothing]
      · rfl
    obtain ⟨laps, inv⟩ : ∃ laps, Inv s' laps := owned_foldl (fun _ _ _ inv => inv.freeRing _) _ good.owned
    simp only [same]
    refine ⟨⟨laps, inv.sound, inv.circles, inv.empty⟩, ?_, ?_⟩
    · intro slot' absent ep isNew
      by_cases here : slot' = slot
      · rw [here]
        exact nothing ep isNew
      · refine (kept.rings _ here).trans ?_
        refine good.known.gone slot' ?_ ep isNew
        rw [← kept.devs]
        simpa [Function.update_of_ne here] using absent
    · intro slot' ep isNew
      have other : slot' ≠ slot := by
        rintro rfl
        exact isNew (nothing ep true)
      have known := good.known.added slot' ep (by rw [← kept.rings (slot', ep, true) other]; exact isNew)
      simpa [State.zeroInCtx, Function.update_of_ne other, kept.addFlags] using known

theorem Good.checkBandwidth (good : Good s) (slot : Fin 256) (configured : Bool) : Good (s.checkBandwidth slot configured) := by
  rw [State.checkBandwidth]
  split_ifs with absent noFlags refused
  · exact good
  · exact good
  · exact good
  · set s1 := otherEps.foldl (State.freeDropped slot) s with is_s1
    obtain ⟨kept1, same1⟩ := freeDropped_all slot otherEps s
    obtain ⟨kept2, new2⟩ := installNew_all slot otherEps (s1.zeroInCtx slot)
    rw [← is_s1] at kept1 same1
    set s2 := otherEps.foldl (State.installNew slot) (s1.zeroInCtx slot) with is_s2
    have owned1 : ∃ laps, Inv s1 laps := by
      refine owned_foldl (fun s' laps ep inv => ?_) _ good.owned
      rw [State.freeDropped]
      split_ifs
      · exact inv.freeRing _
      · exact ⟨laps, inv⟩
    have owned2 : ∃ laps, Inv s2 laps := by
      obtain ⟨laps, inv⟩ := owned1
      exact owned_foldl (fun _ _ ep inv => inv.installNew slot ep) _ ⟨laps, inv.sound, inv.circles, inv.empty⟩
    have others : ∀ slot' ep isNew, slot' ≠ slot → s2.rings (slot', ep, isNew) = s.rings (slot', ep, isNew) :=
      fun slot' ep isNew other => (kept2.rings _ other).trans (kept1.rings _ other)
    refine ⟨owned2, ?_, ?_⟩
    · intro slot' gone ep isNew
      rw [kept2.devs] at gone
      have isGone : s.devs slot' = false := by rw [← kept1.devs]; exact gone
      have other : slot' ≠ slot := by
        rintro rfl
        simp [isGone] at absent
      rw [others _ _ _ other]
      exact good.known.gone slot' isGone ep isNew
    · intro slot' ep isNew
      by_cases here : slot' = slot
      · subst here
        exfalso
        refine isNew ?_
        rw [new2]
        split_ifs with member
        · rfl
        · have first : ep = 0 := not_not.mp (mt (mem_otherEps ep).mpr member)
          rw [show (s1.zeroInCtx slot').rings = s1.rings from rfl, same1, first]
          by_contra isNew0
          exact (good.known.added slot' 0 isNew0).2 rfl
      · rw [others _ _ _ here] at isNew
        have known := good.known.added slot' ep isNew
        rw [kept2.addFlags]
        simpa [State.zeroInCtx, Function.update_of_ne here, kept1.addFlags] using known

theorem Good.resetBandwidth (good : Good s) (slot : Fin 256) : Good (s.resetBandwidth slot) := by
  rw [State.resetBandwidth]
  split_ifs with absent
  · exact good
  · set s' := (List.finRange 31).foldl (fun s ep => s.freeRing (slot, ep, true)) s with is_s'
    have kept : Local slot s s' := freeRings_local ..
    obtain ⟨laps, inv⟩ : ∃ laps, Inv s' laps := owned_foldl (fun _ _ _ inv => inv.freeRing _) _ good.owned
    refine ⟨⟨laps, inv.sound, inv.circles, inv.empty⟩, ?_, ?_⟩
    · intro slot' gone ep isNew
      have isGone : s.devs slot' = false := by rw [← kept.devs]; exact gone
      have other : slot' ≠ slot := by
        rintro rfl
        simp [isGone] at absent
      exact (kept.rings _ other).trans (good.known.gone slot' isGone ep isNew)
    · intro slot' ep isNew
      by_cases here : slot' = slot
      · subst here
        refine absurd ?_ isNew
        show s'.rings (slot', ep, true) = none
        rw [is_s', freeRings_rings]
        simp
      · have known := good.known.added slot' ep (by rw [← kept.rings (slot', ep, true) here]; exact isNew)
        simpa [State.zeroInCtx, Function.update_of_ne here, kept.addFlags] using known

theorem Good.allocVirtDevice (good : Good s) (slot : Fin 256) (contexts kzalloc : Bool) {answers : Answers}
    (clean : Clean answers 2 s.segs.pool.free.length) : Good (s.allocVirtDevice slot contexts kzalloc answers) := by
  rw [State.allocVirtDevice]
  by_cases refused : slot = 0 ∨ s.devs slot = true
  · rw [if_pos refused]
    exact good
  rw [if_neg refused]
  have absent : s.devs slot = false := by
    rw [not_or] at refused
    simpa using refused.2
  have vacant := good.known.gone slot absent
  obtain ⟨laps, inv⟩ := good.owned
  set s1 : State := { s with devs := Function.update s.devs slot true } with is_s1
  have inv1 : Inv s1 laps := ⟨inv.sound, inv.circles, inv.empty⟩
  have gone1 : ∀ slot', s1.devs slot' = false → ∀ ep isNew, s.rings (slot', ep, isNew) = none := by
    intro slot' isGone
    have other : slot' ≠ slot := by
      rintro rfl
      simp [is_s1] at isGone
    exact good.known.gone slot' (by simpa [is_s1, Function.update_of_ne other] using isGone)
  cases contexts with
  | false => exact Good.freeVirtDevice ⟨⟨laps, inv1⟩, gone1, good.known.added⟩ fun ep => vacant ep true
  | true =>
    have rings : ∀ k, k ≠ (slot, 0, false) → (s1.allocRing (slot, 0, false) 2 kzalloc answers).rings k = s.rings k :=
      fun k other => Function.update_of_ne other _ _
    have good2 : Good (s1.allocRing (slot, 0, false) 2 kzalloc answers) := by
      refine ⟨inv1.allocRing (vacant 0 false) 2 kzalloc clean, ?_, ?_⟩
      · intro slot' isGone ep isNew
        have other : slot' ≠ slot := by
          rintro rfl
          simp [State.allocRing, is_s1] at isGone
        rw [rings (slot', ep, isNew) (by simp [other])]
        exact gone1 slot' isGone ep isNew
      · intro slot' ep isNew
        rw [rings (slot', ep, true) (by simp)] at isNew
        exact good.known.added slot' ep isNew
    simp only [Bool.not_true, Bool.false_eq_true, if_false]
    split_ifs with failed
    · refine good2.freeVirtDevice fun ep => ?_
      rw [rings (slot, ep, true) (by simp)]
      exact vacant ep true
    · exact good2

theorem Good.addEndpoint (good : Good s) (slot : Fin 256) (ep : Fin 31) (isoc kzalloc : Bool) {answers : Answers}
    (clean : Clean answers (if isoc then 4 else 2) s.segs.pool.free.length) :
    Good (s.addEndpoint slot ep isoc kzalloc answers) := by
  rw [State.addEndpoint]
  generalize (if isoc = true then 4 else 2) = numSegs at clean ⊢
  split_ifs with refused inUse already
  · exact good
  · exact good
  · exact good
  rw [not_or] at refused
  have present : s.devs slot = true := by simpa using refused.1
  have vacant : s.rings (slot, ep, true) = none := by
    by_contra isNew
    exact already (good.known.added slot ep isNew).1
  obtain ⟨laps, inv⟩ := good.owned
  set s1 := s.allocRing (slot, ep, true) numSegs kzalloc answers with is_s1
  have rings : ∀ k, k ≠ (slot, ep, true) → s1.rings k = s.rings k := fun k other => Function.update_of_ne other _ _
  obtain ⟨laps1, inv1⟩ : ∃ laps, Inv s1 laps := inv.allocRing vacant _ kzalloc clean
  have gone1 : ∀ slot', s.devs slot' = false → ∀ ep isNew, s1.rings (slot', ep, isNew) = none := by
    intro slot' isGone ep' isNew
    have other : slot' ≠ slot := by
      rintro rfl
      rw [present] at isGone
      simp at isGone
    rw [rings (slot', ep', isNew) (by simp [other])]
    exact good.known.gone slot' isGone ep' isNew
  have added1 : ∀ slot' ep', s1.rings (slot', ep', true) ≠ none → ¬(slot' = slot ∧ ep' = ep) →
      s.addFlags slot' ep' = true ∧ ep' ≠ 0 := by
    intro slot' ep' isNew other
    rw [rings (slot', ep', true) (by simpa using other)] at isNew
    exact good.known.added slot' ep' isNew
  dsimp only
  split_ifs with failed
  · refine ⟨⟨laps1, inv1⟩, gone1, ?_⟩
    intro slot' ep' isNew
    refine added1 slot' ep' isNew ?_
    rintro ⟨rfl, rfl⟩
    exact isNew (by simpa using failed)
  · refine ⟨⟨laps1, inv1.sound, inv1.circles, inv1.empty⟩, gone1, ?_⟩
    intro slot' ep' isNew
    by_cases here : slot' = slot ∧ ep' = ep
    · obtain ⟨rfl, rfl⟩ := here
      exact ⟨by simp, refused.2⟩
    · obtain ⟨flag, notFirst⟩ := added1 slot' ep' isNew here
      refine ⟨?_, notFirst⟩
      by_cases sameSlot : slot' = slot
      · subst sameSlot
        have otherEp : ep' ≠ ep := fun sameEp => here ⟨rfl, sameEp⟩
        simpa [Function.update_of_ne otherEp, is_s1, State.allocRing] using flag
      · simpa [Function.update_of_ne sameSlot, is_s1, State.allocRing] using flag

theorem Good.dropEndpoint (good : Good s) {slot : Fin 256} {ep : Fin 31} (disabled : Bool)
    (notAdded : s.addFlags slot ep = false) : Good (s.dropEndpoint slot ep disabled) := by
  rw [State.dropEndpoint]
  split_ifs
  · exact good
  · exact good
  · obtain ⟨laps, inv⟩ := good.owned
    refine ⟨⟨laps, inv.sound, inv.circles, inv.empty⟩, good.known.gone, ?_⟩
    intro slot' ep' isNew
    obtain ⟨flag, notFirst⟩ := good.known.added slot' ep' isNew
    refine ⟨?_, notFirst⟩
    have other : ¬(slot' = slot ∧ ep' = ep) := by
      rintro ⟨rfl, rfl⟩
      rw [notAdded] at flag
      simp at flag
    by_cases sameSlot : slot' = slot
    · subst sameSlot
      have otherEp : ep' ≠ ep := fun sameEp => other ⟨rfl, sameEp⟩
      simpa [Function.update_of_ne otherEp] using flag
    · simpa [Function.update_of_ne sameSlot] using flag

/-- A change of the ring of an endpoint that has one. -/
theorem Known.setRing (known : Known s) {slot : Fin 256} {ep : Fin 31} {r : Ring} (is_r : s.rings (slot, ep, false) = some r)
    (segs : Segs) (r' : Option Ring) : Known { s with segs, rings := Function.update s.rings (slot, ep, false) r' } := by
  refine ⟨?_, ?_⟩
  · intro slot' isGone ep' isNew
    have other : ((slot', ep', isNew) : Place) ≠ (slot, ep, false) := by
      intro same
      have nothing := known.gone slot' isGone ep' isNew
      rw [same, is_r] at nothing
      simp at nothing
    exact (Function.update_of_ne other _ _).trans (known.gone slot' isGone ep' isNew)
  · intro slot' ep' isNew
    refine known.added slot' ep' ?_
    dsimp only at isNew
    rwa [Function.update_of_ne (by simp)] at isNew

theorem Good.expandRing (good : Good s) (slot : Fin 256) (ep : Fin 31) {numTrbs : Nat} {answers : Answers} (error2 : Bool)
    (clean : ∀ r, s.rings (slot, ep, false) = some r → Clean answers (expansionSegs r numTrbs) s.segs.pool.free.length) :
    Good (s.expandRing slot ep numTrbs answers false error2) := by
  obtain ⟨laps, inv⟩ := good.owned
  refine ⟨inv.expandRing slot ep error2 clean, ?_⟩
  cases is_r : s.rings (slot, ep, false) with
  | none => simpa only [State.expandRing, is_r] using good.known
  | some r =>
    simp only [State.expandRing, is_r]
    rcases ringExpansion s.segs r numTrbs answers false error2 with ⟨_ | r', segs⟩
    · exact ⟨good.known.gone, good.known.added⟩
    · exact good.known.setRing is_r segs (some r')

theorem Good.advance (good : Good s) (slot : Fin 256) (ep : Fin 31) : Good (s.advance slot ep) := by
  obtain ⟨laps, inv⟩ := good.owned
  refine ⟨inv.advance slot ep, ?_⟩
  cases is_r : s.rings (slot, ep, false) with
  | none => simpa only [State.advance, is_r] using good.known
  | some r =>
    cases leads : s.segs.next r.enqSeg with
    | none => simpa only [State.advance, is_r, leads] using good.known
    | some seg =>
      simp only [State.advance, is_r, leads]
      exact good.known.setRing is_r s.segs _

theorem Good.step (good : Good s) (op : Op) (allowed : op.Allowed s) (careful : Careful s op) : Good (s.step op) := by
  obtain ⟨laps, inv⟩ := good.owned
  cases op with
  | allocVirtDevice slot contexts kzalloc answers => exact good.allocVirtDevice slot contexts kzalloc careful
  | freeVirtDevice slot => exact good.freeVirtDevice careful
  | addEndpoint slot ep isoc kzalloc answers => exact good.addEndpoint slot ep isoc kzalloc careful
  | dropEndpoint slot ep disabled => exact good.dropEndpoint disabled allowed
  | checkBandwidth slot configured => exact good.checkBandwidth slot configured
  | resetBandwidth slot => exact good.resetBandwidth slot
  | expandRing slot ep numTrbs answers error1 error2 =>
    obtain ⟨rfl, clean⟩ := careful
    exact good.expandRing slot ep error2 clean
  | advance slot ep => exact good.advance slot ep
  | enqueueUrb cacheData length writes queued =>
    refine ⟨inv.enqueueUrb cacheData length writes queued, ?_⟩
    rw [State.step, State.enqueueUrb]
    dsimp only
    split_ifs <;> exact ⟨good.known.gone, good.known.added⟩
  | givebackUrb urb =>
    refine ⟨inv.givebackUrb urb, ?_⟩
    rw [State.step, State.givebackUrb]
    split <;> exact ⟨good.known.gone, good.known.added⟩

theorem good_initial : Good State.initial := by
  refine ⟨⟨fun _ => [], ?_, ?_, ?_⟩, ?_, ?_⟩
  · have nothing : held (fun _ : Place => []) State.initial.urbs = 0 := by
      simp [held, State.initial]
    rw [nothing, Multiset.toList_zero]
    exact sound_initial
  · simp [State.initial]
  · simp
  · simp [State.initial]
  · simp [State.initial]

end

/-- `s` is reached by calls that are allowed where they are made and meet the condition. -/
def Reachable (condition : State → Op → Prop) (s : State) : Prop :=
  Run.Reachable (· = State.initial) (fun s op => op.Allowed s ∧ condition s op) State.step s

/-- A segment of a ring that some endpoint has, or a URB, has the block. -/
def Owned (s : State) (block : Nat) : Prop :=
  (∃ k r, s.rings k = some r ∧ block ∈ ringBlocks s.segs.next r) ∨ ∃ u ∈ s.urbs, block ∈ u.blocks

/-- The used blocks are those that somebody has. -/
def NoLeak (s : State) : Prop := ∀ block, block ∈ s.segs.pool.used ↔ Owned s block

theorem Inv.noLeak {s : State} {laps : Place → List Nat} (inv : Inv s laps) : NoLeak s := by
  intro block
  rw [inv.sound.owners.mem_iff, Multiset.mem_toList, mem_held, Owned]
  refine or_congr_left ⟨?_, ?_⟩
  · rintro ⟨k, inside⟩
    cases is_r : s.rings k with
    | none =>
      rw [inv.empty k is_r] at inside
      simp at inside
    | some r => exact ⟨k, r, is_r, ((inv.circles k r is_r).ringBlocks_iff block).mpr inside⟩
  · rintro ⟨k, r, is_r, inside⟩
    exact ⟨k, ((inv.circles k r is_r).ringBlocks_iff block).mp inside⟩

theorem Sound.free_length {p p' : Pool} {held : List Nat} (sound : Sound p held) (sound' : Sound p' held) :
    p'.free.length = p.free.length := by
  have all := sound.partition.length_eq
  have all' := sound'.partition.length_eq
  have same := sound.owners.length_eq
  have same' := sound'.owners.length_eq
  simp only [List.length_append] at all all'
  omega

/-- In every state reached, the used blocks are those that the rings of the endpoints and
    the URBs have, and a ring allocation or expansion that fails leaves as many blocks
    free as there were. -/
theorem no_leak {s : State} (reachable : Reachable Careful s) :
    NoLeak s ∧
    (∀ numSegs kzalloc answers, Clean answers numSegs s.segs.pool.free.length →
      (ringAlloc s.segs numSegs kzalloc answers).1 = none →
      (ringAlloc s.segs numSegs kzalloc answers).2.pool.free.length = s.segs.pool.free.length) ∧
    (∀ k r numTrbs answers error2, s.rings k = some r → Clean answers (expansionSegs r numTrbs) s.segs.pool.free.length →
      (ringExpansion s.segs r numTrbs answers false error2).1 = none →
      (ringExpansion s.segs r numTrbs answers false error2).2.pool.free.length = s.segs.pool.free.length) := by
  have good : Good s := by
    refine Run.Reachable.invariant (P := Good) ?_ ?_ reachable
    · rintro _ rfl
      exact good_initial
    · exact fun _ op good ok => good.step op ok.1 ok.2
  obtain ⟨laps, inv⟩ := good.owned
  refine ⟨inv.noLeak, ?_, ?_⟩
  · intro numSegs kzalloc answers clean failed
    exact Sound.free_length inv.sound ((ringAlloc_sound _ _ inv.sound clean).2.1 failed)
  · intro k r numTrbs answers error2 is_r clean failed
    have sound := Sound.split inv.sound k
    exact Sound.free_length sound ((ringExpansion_sound error2 (inv.circles k r is_r) sound clean).2.1 failed).2

/-- Everything can be had. -/
def allGood : Answers := ⟨fun _ => true, fun _ => 0, fun _ => false⟩

/-- A device gets a bulk endpoint. -/
def someRun : List Op :=
  [.allocVirtDevice 1 true true allGood, .addEndpoint 1 1 false true allGood, .checkBandwidth 1 true]

theorem clean_allGood {n free : Nat} (enough : n ≤ free) : Clean allGood n free := by
  intro _ _ _ j inside _
  exact ⟨by omega, le_rfl, rfl⟩

theorem no_leak_someRun : NoLeak (someRun.foldl State.step .initial) ∧
    (someRun.foldl State.step .initial).segs.pool.used = [0, 1, 2, 3] := by
  have room : 2 ≤ State.initial.segs.pool.free.length := by
    simp only [State.initial, cacheCreate_eq, List.length_range]
    decide
  have room' : 2 ≤ (State.step .initial (.allocVirtDevice 1 true true allGood)).segs.pool.free.length := by decide +kernel
  have one : Reachable Careful (State.step .initial (.allocVirtDevice 1 true true allGood)) :=
    Run.Reachable.step (s := State.initial) _ (.first rfl) ⟨trivial, clean_allGood room⟩
  have two := Run.Reachable.step (Op.addEndpoint 1 1 false true allGood) one ⟨trivial, clean_allGood (n := 2) room'⟩
  have reachable : Reachable Careful (someRun.foldl State.step .initial) := by
    rw [someRun, List.foldl_cons, List.foldl_cons, List.foldl_cons, List.foldl_nil]
    exact Run.Reachable.step (Op.checkBandwidth 1 true) two ⟨trivial, trivial⟩
  exact ⟨(no_leak reachable).1, by decide +kernel⟩

theorem allocVirtDevice_failed {s : State} {slot : Fin 256} {answers : Answers} (notZero : slot ≠ 0) (absent : s.devs slot = false)
    (failed : (ringAlloc s.segs 2 true answers).1 = none) (k : Place) :
    (s.allocVirtDevice slot true true answers).rings k = if k.1 = slot then none else s.rings k := by
  rw [State.allocVirtDevice, if_neg (by simp [notZero, absent])]
  simp only [Bool.not_true, Bool.false_eq_true, if_false]
  rw [if_pos (by simp [State.allocRing, failed]), freeVirtDevice_rings (by simp [State.allocRing])]
  split_ifs with here
  · rfl
  · refine Function.update_of_ne ?_ _ _
    rintro rfl
    exact here rfl

/-- The second segment of a ring gets no block. -/
def secondFails : Answers := ⟨fun _ => true, fun i => if i = 1 then -19 else 0, fun _ => false⟩

/-- The ring of a new device cannot be allocated, and the block of its first segment is
    lost. -/
theorem not_no_leak : ¬∀ s, Reachable (fun _ _ => True) s → NoLeak s := by
  intro always
  have reachable : Reachable (fun _ _ => True) (State.step .initial (.allocVirtDevice 1 true true secondFails)) :=
    Run.Reachable.step (s := State.initial) _ (.first rfl) ⟨trivial, trivial⟩
  rw [State.step] at reachable
  have isUsed : 0 ∈ (State.initial.allocVirtDevice 1 true true secondFails).segs.pool.used := by decide +kernel
  rcases (always _ reachable 0).mp isUsed with ⟨k, r, is_r, _⟩ | ⟨u, inside, _⟩
  · have failed : (ringAlloc State.initial.segs 2 true secondFails).1.isNone = true := by decide +kernel
    rw [allocVirtDevice_failed (by decide) rfl (Option.isNone_iff_eq_none.mp failed), show State.initial.rings k = none from rfl,
      ite_self] at is_r
    simp at is_r
  · have nothing : (State.initial.allocVirtDevice 1 true true secondFails).urbs.length = 0 := by decide +kernel
    rw [List.length_eq_zero_iff.mp nothing] at inside
    simp at inside

end Ehub.RingBlocks
