import Mathlib
import Ehub.Run
import Ehub.Cascade
import Ehub.EndpointContext

/-!
The bandwidth that the driver keeps account of itself (`XHCI_SW_BW_CHECKING`). Every root
port and every transaction translator of a hub has a table, in which the periodic endpoints
of the devices below are listed by their intervals. `xhci_reserve_bandwidth` takes the
endpoints that are dropped out of the table and puts those that are added into it, looks
whether the schedule still fits, and takes all of it back if it does not.

A table always sums up the endpoints that are accounted for (`Sound`), so that a
reservation that fails leaves nothing behind (`reserve_reverts`). What fits is an
estimate that looks at one interval after the other; it covers the load of the endpoints
(`load_le_total`), so no domain is ever given more than it has (`load_bounded`), unless the
words that count the translators of a root port overflow.
-/
namespace Ehub.Bandwidth
open Ehub.EndpointContext

/-- The slot of a device and the index of an endpoint. -/
abbrev EpId := Fin 256 × Fin 31

/-- `endpoints` is sorted, the endpoint with the largest packets first; `overhead` counts
    the endpoints of each speed. -/
structure IntervalBw where
  numPackets : ℕ
  endpoints : List EpId
  overhead : Speed → ℕ

/-- The used bandwidth is a word: whatever is added to it in a run stays there. -/
structure BwTable where
  interval0EsitPayload : ℕ
  intervalBw : ℕ → IntervalBw
  bwUsed : BitVec 32
  ssBwIn : ℕ
  ssBwOut : ℕ

/-- The bandwidth that a device shares with others: that of its root port or that of the
    transaction translator it is behind, of the hub in a slot. -/
inductive Domain
  | rootPort (port : ℕ)
  | tt (port : ℕ) (hub : Fin 256) (ttport : ℕ)
  deriving DecidableEq

namespace Domain

def port : Domain → ℕ
  | .rootPort port => port
  | .tt port _ _ => port

def isTt : Domain → Bool
  | .rootPort _ => false
  | .tt _ _ _ => true

end Domain

structure VirtDevice where
  speed : Speed
  domain : Domain
  bwInfo : Fin 31 → BwInfo

/-- `activeEps` belongs to a translator, `numActiveTts` to a root port. -/
structure Host where
  devs : Fin 256 → Option VirtDevice
  table : Domain → BwTable
  activeEps : Domain → ℤ
  numActiveTts : ℕ → BitVec 32

def divRoundUp (n d : ℕ) : ℕ := (n + d - 1) / d

def ttHsOverhead : ℕ := 31 + 94

def hsBwLimit : ℕ := 1607

/-- In blocks, of which a packet takes whole ones. -/
def maxBandwidth : Speed → ℕ
  | .high => hsBwLimit
  | _ => 1285

def bwReserved : Speed → ℕ
  | .high => divRoundUp (20 * maxBandwidth .high) 100
  | speed => divRoundUp (10 * maxBandwidth speed) 100

def getBlockSize : Speed → ℕ
  | .low | .full => 1
  | .high => 4
  | .super => 16

/-- What a packet costs besides its bytes. -/
def overheadOf : Speed → ℕ
  | .low => 128
  | .full => 20
  | _ => 26

def getLargestOverhead (bw : IntervalBw) : ℕ :=
  if bw.overhead .low ≠ 0 then overheadOf .low
  else if bw.overhead .full ≠ 0 then overheadOf .full
  else overheadOf .high

/-- Intervals of full- and low-speed endpoints are made frames. -/
def normalizedInterval (speed : Speed) (epInterval : ℕ) : ℕ := if speed = .high then epInterval else epInterval - 3

def ssBwLimit : ℕ := 3906

def ssOverheadBurst : ℕ := 32

def getSsBwConsumed (epBw : BwInfo) : ℕ :=
  let mps := divRoundUp epBw.maxPacketSize (getBlockSize .super)
  if epBw.epInterval = 0 then ssOverheadBurst + epBw.mult * epBw.numPackets * (8 + mps)
  else divRoundUp (epBw.mult * epBw.numPackets * (8 + mps + ssOverheadBurst)) (2 ^ epBw.epInterval)

namespace BwTable
variable (t : BwTable)

/-- Whether `bw_endpoint_list` of an endpoint is in a list. -/
def linked (id : EpId) : Bool := (List.range 16).any fun i => decide (id ∈ (t.intervalBw i).endpoints)

/-- `list_del_init`. -/
def unlink (id : EpId) : BwTable :=
  { t with intervalBw := fun i => { t.intervalBw i with endpoints := (t.intervalBw i).endpoints.erase id } }

def dropEp (epBw : BwInfo) (speed : Speed) (id : EpId) : BwTable :=
  let n := normalizedInterval speed epBw.epInterval
  let bw := t.intervalBw n
  let bw := { bw with
    numPackets := bw.numPackets - epBw.numPackets
    overhead := Function.update bw.overhead speed (bw.overhead speed - 1) }
  let t := { t with
    interval0EsitPayload := if n = 0 then t.interval0EsitPayload - epBw.maxEsitPayload else t.interval0EsitPayload
    intervalBw := Function.update t.intervalBw n bw }
  t.unlink id

/-- The endpoint comes before the first one that has no larger packets; `size` is what is
    read through the list. -/
def addEp (epBw : BwInfo) (speed : Speed) (id : EpId) (size : EpId → ℕ) : BwTable :=
  let n := normalizedInterval speed epBw.epInterval
  let bw := t.intervalBw n
  let bw := { bw with
    numPackets := bw.numPackets + epBw.numPackets
    overhead := Function.update bw.overhead speed (bw.overhead speed + 1)
    endpoints := bw.endpoints.orderedInsert (fun a b => size b ≤ size a) id }
  { t with
    interval0EsitPayload := if n = 0 then t.interval0EsitPayload + epBw.maxEsitPayload else t.interval0EsitPayload
    intervalBw := Function.update t.intervalBw n bw }

def checkSsBw : ℤ :=
  let reserved := divRoundUp (10 * ssBwLimit) 100
  if t.ssBwIn > ssBwLimit - reserved then -12
  else if t.ssBwOut > ssBwLimit - reserved then -12
  else 0

end BwTable

/-! ### The estimate -/

/-- The variables of the loop over the intervals. -/
structure Estimate where
  bwUsed : ℕ
  packetSize : ℕ
  overhead : ℕ
  packetsRemaining : ℕ

/-- The largest packets of an interval, in blocks: the first of the list has them. -/
def BwTable.largestMps (t : BwTable) (size : EpId → ℕ) (blockSize i : ℕ) : ℕ :=
  match (t.intervalBw i).endpoints with
  | [] => 0
  | first :: _ => divRoundUp (size first) blockSize

/-- The body of the loop for an interval. -/
def Estimate.interval (e : Estimate) (t : BwTable) (size : EpId → ℕ) (blockSize i : ℕ) : Estimate :=
  let packetsRemaining := 2 * e.packetsRemaining + (t.intervalBw i).numPackets
  let largestMps := t.largestMps size blockSize i
  let packetSize := if largestMps > e.packetSize then largestMps else e.packetSize
  let intervalOverhead := getLargestOverhead (t.intervalBw i)
  let overhead := if intervalOverhead > e.overhead then intervalOverhead else e.overhead
  let packetsTransmitted := packetsRemaining / 2 ^ (i + 1)
  let bwAdded := packetsTransmitted * (overhead + packetSize)
  let packetsRemaining := packetsRemaining % 2 ^ (i + 1)
  { bwUsed := e.bwUsed + bwAdded
    packetSize := if packetsRemaining = 0 then 0 else if packetsTransmitted > 0 then largestMps else packetSize
    overhead := if packetsRemaining = 0 then 0 else if packetsTransmitted > 0 then intervalOverhead else overhead
    packetsRemaining }

/-- The loop, which stops as soon as it is too much. -/
def Estimate.intervals (t : BwTable) (size : EpId → ℕ) (blockSize max : ℕ) : List ℕ → Estimate → Option Estimate
  | [], e => some e
  | i :: rest, e =>
    let e := e.interval t size blockSize i
    if e.bwUsed > max then none else Estimate.intervals t size blockSize max rest e

/-- Interval 0: the payload in blocks, and the overhead of its packets. -/
def Estimate.start (t : BwTable) (blockSize : ℕ) : Estimate :=
  ⟨divRoundUp t.interval0EsitPayload blockSize + (t.intervalBw 0).numPackets * getLargestOverhead (t.intervalBw 0), 0, 0, 0⟩

/-- What the packets that are left after the last interval add. -/
def Estimate.total (e : Estimate) : ℕ := e.bwUsed + if e.packetsRemaining > 0 then e.overhead + e.packetSize else 0

namespace Host

def info (h : Host) (id : EpId) : BwInfo :=
  match h.devs id.1 with
  | some dev => dev.bwInfo id.2
  | none => clearBwInfo

def setTable (h : Host) (d : Domain) (t : BwTable) : Host := { h with table := Function.update h.table d t }

/-- `tt_info` is there for the devices behind a translator. -/
def countEp (h : Host) (d : Domain) (change : ℤ) : Host :=
  { h with activeEps := if d.isTt then Function.update h.activeEps d (h.activeEps d + change) else h.activeEps }

def dropEpFromIntervalTable (h : Host) (epBw : BwInfo) (d : Domain) (speed : Speed) (id : EpId) : Host :=
  let t := h.table d
  if isAsyncEp epBw.type then h
  else if speed = .super then
    if isSyncInEp epBw.type then h.setTable d { t with ssBwIn := t.ssBwIn - getSsBwConsumed epBw }
    else h.setTable d { t with ssBwOut := t.ssBwOut - getSsBwConsumed epBw }
  else if !t.linked id then h
  else (h.setTable d (t.dropEp epBw speed id)).countEp d (-1)

def addEpToIntervalTable (h : Host) (epBw : BwInfo) (d : Domain) (speed : Speed) (id : EpId) : Host :=
  let t := h.table d
  if isAsyncEp epBw.type then h
  else if speed = .super then
    if isSyncInEp epBw.type then h.setTable d { t with ssBwIn := t.ssBwIn + getSsBwConsumed epBw }
    else h.setTable d { t with ssBwOut := t.ssBwOut + getSsBwConsumed epBw }
  else (h.setTable d (t.addEp epBw speed id fun other => (h.info other).maxPacketSize)).countEp d 1

def checkTtBwTable (h : Host) (dev : VirtDevice) (oldActiveEps : ℤ) : ℤ :=
  if oldActiveEps ≠ 0 then 0
  else if h.activeEps dev.domain ≠ 0 then
    if ((h.table (.rootPort dev.domain.port)).bwUsed + BitVec.ofNat 32 ttHsOverhead).toNat > hsBwLimit then -12 else 0
  else 0

/-- The bandwidth that is used: what has been reckoned, that of the translators on the bus,
    and the reserve. -/
def charge (h : Host) (dev : VirtDevice) (e : Estimate) : BitVec 32 :=
  let tts := if !dev.domain.isTt ∧ dev.speed = .high then BitVec.ofNat 32 ttHsOverhead * h.numActiveTts dev.domain.port else 0
  BitVec.ofNat 32 e.total + tts + BitVec.ofNat 32 (bwReserved dev.speed)

def checkBwTable (h : Host) (dev : VirtDevice) (oldActiveEps : ℤ) : Host × ℤ :=
  let t := h.table dev.domain
  let max := maxBandwidth dev.speed
  let blockSize := getBlockSize dev.speed
  if dev.speed = .super then (h, t.checkSsBw)
  else if dev.domain.isTt ∧ h.checkTtBwTable dev oldActiveEps ≠ 0 then (h, -12)
  else
    let size (id : EpId) : ℕ := (h.info id).maxPacketSize
    match Estimate.intervals t size blockSize max (List.range' 1 15) (Estimate.start t blockSize) with
    | none => (h, -12)
    | some e =>
      let bwUsed := h.charge dev e
      if bwUsed.toNat > max then (h, -12) else (h.setTable dev.domain { t with bwUsed }, 0)

def updateTtActiveEps (h : Host) (d : Domain) (oldActiveEps : ℤ) : Host :=
  let root : Domain := .rootPort d.port
  if !d.isTt then h
  else if oldActiveEps = 0 ∧ h.activeEps d ≠ 0 then
    { h.setTable root { h.table root with bwUsed := (h.table root).bwUsed + BitVec.ofNat 32 ttHsOverhead } with
      numActiveTts := Function.update h.numActiveTts d.port (h.numActiveTts d.port + 1) }
  else if oldActiveEps ≠ 0 ∧ h.activeEps d = 0 then
    { h.setTable root { h.table root with bwUsed := (h.table root).bwUsed - BitVec.ofNat 32 ttHsOverhead } with
      numActiveTts := Function.update h.numActiveTts d.port (h.numActiveTts d.port - 1) }
  else h

def setInfo (h : Host) (slot : Fin 256) (bwInfo : Fin 31 → BwInfo) : Host :=
  { h with devs := Function.update h.devs slot ((h.devs slot).map fun dev => { dev with bwInfo }) }

end Host

/-- An input context: the flags and the contexts of the endpoints. -/
structure InputCtx where
  addFlags : BitVec 32
  dropFlags : BitVec 32
  ep : Fin 31 → EpCtx

namespace InputCtx

/-- `EP_IS_ADDED`. -/
def added (ctx : InputCtx) (i : Fin 31) : Bool := EndpointConfig.has ctx.addFlags i

/-- `EP_IS_DROPPED`. -/
def dropped (ctx : InputCtx) (i : Fin 31) : Bool := EndpointConfig.has ctx.dropFlags i

end InputCtx

namespace Host

local instance neZero_endpoints : NeZero 31 := ⟨by decide⟩

/-- The old endpoints that are dropped or changed leave the table. -/
def dropLoop (slot : Fin 256) (dev : VirtDevice) (ctx : InputCtx) (h : Host) (i : Fin 31) : Host :=
  if ctx.dropped i then h.dropEpFromIntervalTable (h.info (slot, i)) dev.domain dev.speed (slot, i) else h

/-- The new endpoints enter it. -/
def addLoop (slot : Fin 256) (dev : VirtDevice) (ctx : InputCtx) (h : Host) (i : Fin 31) : Host :=
  if ctx.added i then h.addEpToIntervalTable (h.info (slot, i)) dev.domain dev.speed (slot, i) else h

/-- `saved` is the copy that was made before anything was dropped. -/
def revertLoop (slot : Fin 256) (dev : VirtDevice) (ctx : InputCtx) (saved : Fin 31 → BwInfo) (h : Host) (i : Fin 31) : Host :=
  if !ctx.added i && !ctx.dropped i then h
  else
    let h := if ctx.added i then h.dropEpFromIntervalTable (h.info (slot, i)) dev.domain dev.speed (slot, i) else h
    let h := h.setInfo slot (Function.update (fun j => h.info (slot, j)) i (saved i))
    if ctx.dropped i then h.addEpToIntervalTable (h.info (slot, i)) dev.domain dev.speed (slot, i) else h

/-- `ehub_xhci_update_bw_info`, which leaves out endpoint 0. -/
def newInfo (dev : VirtDevice) (ctx : InputCtx) (i : Fin 31) : BwInfo :=
  if i = 0 then dev.bwInfo i else updateBwInfo (ctx.added i) (ctx.dropped i) (ctx.ep i) (dev.bwInfo i)

/-- The table with the new configuration in it. -/
def proposed (h : Host) (slot : Fin 256) (dev : VirtDevice) (ctx : InputCtx) : Host :=
  let dropped := (List.finRange 31).foldl (dropLoop slot dev ctx) h
  let updated := dropped.setInfo slot (newInfo dev ctx)
  (List.finRange 31).foldl (addLoop slot dev ctx) updated

def reserveBandwidth (h : Host) (slot : Fin 256) (ctx : InputCtx) : Host × ℤ :=
  match h.devs slot with
  | none => (h, -22)
  | some dev =>
    let oldActiveEps := if dev.domain.isTt then h.activeEps dev.domain else 0
    let proposed := h.proposed slot dev ctx
    let (checked, ret) := proposed.checkBwTable dev oldActiveEps
    if ret = 0 then (checked.updateTtActiveEps dev.domain oldActiveEps, 0)
    else ((List.finRange 31).foldl (revertLoop slot dev ctx dev.bwInfo) checked, -12)

/-- The loop of a device that has been reset. -/
def resetLoop (slot : Fin 256) (dev : VirtDevice) (h : Host) (i : Fin 31) : Host :=
  if i = 0 then h
  else
    let h := if (h.table dev.domain).linked (slot, i) then
        h.dropEpFromIntervalTable (h.info (slot, i)) dev.domain dev.speed (slot, i)
      else h
    h.setInfo slot (Function.update (fun j => h.info (slot, j)) i clearBwInfo)

/-- What `ehub_xhci_discover_or_reset_device` does when the command has succeeded. It never
    looks how many endpoints were active before. -/
def resetDevice (h : Host) (slot : Fin 256) : Host :=
  match h.devs slot with
  | none => h
  | some dev => ((List.finRange 31).foldl (resetLoop slot dev) h).updateTtActiveEps dev.domain 0

/-- A device that has been addressed. -/
def setupDevice (h : Host) (slot : Fin 256) (speed : Speed) (domain : Domain) : Host :=
  { h with devs := Function.update h.devs slot (some ⟨speed, domain, fun _ => clearBwInfo⟩) }

/-- `ehub_xhci_free_virt_device`, as far as the account goes. -/
def freeDevice (h : Host) (slot : Fin 256) : Host := { h with devs := Function.update h.devs slot none }

def emptyTable : BwTable := ⟨0, fun _ => ⟨0, [], fun _ => 0⟩, 0, 0, 0⟩

/-- `ehub_xhci_alloc_tt_info` makes a new table. -/
def allocTtInfo (h : Host) (d : Domain) : Host :=
  { h.setTable d emptyTable with activeEps := Function.update h.activeEps d 0 }

end Host

/-! ### A table sums up what is in it -/

section Tally
variable (info : EpId → BwInfo) (speed : EpId → Speed)

/-- The interval in whose list an endpoint belongs. -/
def place (id : EpId) : ℕ := normalizedInterval (speed id) (info id).epInterval

/-- The table lists the endpoints of a set, and its counters are theirs. -/
structure BwTable.Tally (t : BwTable) (here : Finset EpId) : Prop where
  mem : ∀ i id, id ∈ (t.intervalBw i).endpoints ↔ id ∈ here ∧ place info speed id = i
  nodup : ∀ i, (t.intervalBw i).endpoints.Nodup
  sorted : ∀ i, (t.intervalBw i).endpoints.Pairwise fun a b => (info b).maxPacketSize ≤ (info a).maxPacketSize
  packets : ∀ i, (t.intervalBw i).numPackets = ∑ id ∈ here with place info speed id = i, (info id).numPackets
  overhead : ∀ i s, (t.intervalBw i).overhead s = ∑ id ∈ here with place info speed id = i, if speed id = s then 1 else 0
  payload : t.interval0EsitPayload = ∑ id ∈ here with place info speed id = 0, (info id).maxEsitPayload

variable {info speed} {t : BwTable} {here : Finset EpId} {id : EpId}

theorem sum_insert_at {f : EpId → ℕ} (p : EpId → Prop) [DecidablePred p] (fresh : id ∉ here) :
    ∑ j ∈ insert id here with p j, f j = (∑ j ∈ here with p j, f j) + if p id then f id else 0 := by
  rw [Finset.filter_insert]
  by_cases holds : p id
  · rw [if_pos holds, if_pos holds, Finset.sum_insert (fun listed => fresh (Finset.mem_of_mem_filter _ listed)), add_comm]
  · rw [if_neg holds, if_neg holds, add_zero]

theorem sum_erase_at {f : EpId → ℕ} (p : EpId → Prop) [DecidablePred p] (listed : id ∈ here) :
    ∑ j ∈ here.erase id with p j, f j = (∑ j ∈ here with p j, f j) - if p id then f id else 0 := by
  nth_rewrite 2 [← Finset.insert_erase listed]
  rw [sum_insert_at p (Finset.notMem_erase id here), Nat.add_sub_cancel]

namespace BwTable

/-- A table reads only what its endpoints hold. -/
theorem Tally.congr {info' : EpId → BwInfo} {speed' : EpId → Speed} (tally : t.Tally info speed here)
    (same : ∀ id ∈ here, info' id = info id ∧ speed' id = speed id) : t.Tally info' speed' here := by
  have placed : ∀ id ∈ here, place info' speed' id = place info speed id := by
    intro id listed
    unfold place
    rw [(same id listed).1, (same id listed).2]
  have filter : ∀ i, {id ∈ here | place info' speed' id = i} = {id ∈ here | place info speed id = i} := by
    intro i
    apply Finset.filter_congr
    intro id listed
    rw [placed id listed]
  have inside : ∀ {i id}, id ∈ {id ∈ here | place info speed id = i} → id ∈ here := fun listed => Finset.mem_of_mem_filter _ listed
  constructor
  · intro i id
    rw [tally.mem]
    apply and_congr_right
    intro listed
    rw [placed id listed]
  · exact tally.nodup
  · intro i
    refine (tally.sorted i).imp_of_mem ?_
    intro a b first second order
    rwa [(same a ((tally.mem i a).mp first).1).1, (same b ((tally.mem i b).mp second).1).1]
  · intro i
    rw [tally.packets, filter]
    apply Finset.sum_congr rfl
    intro id listed
    rw [(same id (inside listed)).1]
  · intro i s
    rw [tally.overhead, filter]
    apply Finset.sum_congr rfl
    intro id listed
    rw [(same id (inside listed)).2]
  · rw [tally.payload, filter]
    apply Finset.sum_congr rfl
    intro id listed
    rw [(same id (inside listed)).1]

/-- The same endpoints make the same table, but for the order of packets of one size. -/
theorem Tally.unique {t' : BwTable} (tally : t.Tally info speed here) (tally' : t'.Tally info speed here) :
    t'.interval0EsitPayload = t.interval0EsitPayload ∧ ∀ i, (t'.intervalBw i).numPackets = (t.intervalBw i).numPackets ∧
      (t'.intervalBw i).overhead = (t.intervalBw i).overhead ∧
      (t'.intervalBw i).endpoints.Perm (t.intervalBw i).endpoints := by
  refine ⟨tally'.payload.trans tally.payload.symm, fun i => ⟨?_, ?_, ?_⟩⟩
  · rw [tally'.packets, tally.packets]
  · funext s
    rw [tally'.overhead, tally.overhead]
  · rw [List.perm_ext_iff_of_nodup (tally'.nodup i) (tally.nodup i)]
    intro id
    rw [tally'.mem, tally.mem]

theorem linked_iff (tally : t.Tally info speed here) (inside : id ∈ here → place info speed id < 16) :
    t.linked id = true ↔ id ∈ here := by
  unfold linked
  simp only [List.any_eq_true, List.mem_range, decide_eq_true_eq, tally.mem]
  constructor
  · rintro ⟨i, -, listed, -⟩
    exact listed
  · intro listed
    exact ⟨place info speed id, inside listed, listed, rfl⟩

theorem addEp_intervalBw (t : BwTable) (id : EpId) (epBw : BwInfo) (s : Speed) (size : EpId → ℕ) (i : ℕ) :
    ((t.addEp epBw s id size).intervalBw i).numPackets =
        (t.intervalBw i).numPackets + (if normalizedInterval s epBw.epInterval = i then epBw.numPackets else 0) ∧
      (∀ s', ((t.addEp epBw s id size).intervalBw i).overhead s' =
        (t.intervalBw i).overhead s' + if normalizedInterval s epBw.epInterval = i then (if s = s' then 1 else 0) else 0) ∧
      ((t.addEp epBw s id size).intervalBw i).endpoints =
        if normalizedInterval s epBw.epInterval = i then
          (t.intervalBw i).endpoints.orderedInsert (fun a b => size b ≤ size a) id
        else (t.intervalBw i).endpoints := by
  unfold addEp
  by_cases at_ : normalizedInterval s epBw.epInterval = i
  · subst at_
    refine ⟨by simp, ?_, by simp⟩
    intro s'
    by_cases own : s = s'
    · subst own
      simp
    · simp [own, Function.update_of_ne (Ne.symm own)]
  · simp [at_, Function.update_of_ne (Ne.symm at_)]

theorem dropEp_intervalBw (t : BwTable) (id : EpId) (epBw : BwInfo) (s : Speed) (i : ℕ) :
    ((t.dropEp epBw s id).intervalBw i).numPackets =
        (t.intervalBw i).numPackets - (if normalizedInterval s epBw.epInterval = i then epBw.numPackets else 0) ∧
      (∀ s', ((t.dropEp epBw s id).intervalBw i).overhead s' =
        (t.intervalBw i).overhead s' - if normalizedInterval s epBw.epInterval = i then (if s = s' then 1 else 0) else 0) ∧
      ((t.dropEp epBw s id).intervalBw i).endpoints = (t.intervalBw i).endpoints.erase id := by
  unfold dropEp unlink
  by_cases at_ : normalizedInterval s epBw.epInterval = i
  · subst at_
    refine ⟨by simp, ?_, by simp⟩
    intro s'
    by_cases own : s = s'
    · subst own
      simp
    · simp [own, Function.update_of_ne (Ne.symm own)]
  · simp [at_, Function.update_of_ne (Ne.symm at_)]

theorem Tally.addEp (tally : t.Tally info speed here) (fresh : id ∉ here) :
    (t.addEp (info id) (speed id) id fun other => (info other).maxPacketSize).Tally info speed (insert id here) := by
  have change := addEp_intervalBw t id (info id) (speed id) fun other => (info other).maxPacketSize
  have out : ∀ i, id ∉ (t.intervalBw i).endpoints := fun i listed => fresh ((tally.mem i id).mp listed).1
  constructor
  · intro i other
    rw [(change i).2.2, Finset.mem_insert]
    change (other ∈ if place info speed id = i then _ else _) ↔ _
    by_cases at_ : place info speed id = i
    · rw [if_pos at_, List.mem_orderedInsert, tally.mem]
      constructor
      · rintro (rfl | ⟨listed, where_⟩)
        · exact ⟨.inl rfl, at_⟩
        · exact ⟨.inr listed, where_⟩
      · rintro ⟨rfl | listed, where_⟩
        · exact .inl rfl
        · exact .inr ⟨listed, where_⟩
    · rw [if_neg at_, tally.mem]
      constructor
      · rintro ⟨listed, where_⟩
        exact ⟨.inr listed, where_⟩
      · rintro ⟨rfl | listed, where_⟩
        · exact absurd where_ at_
        · exact ⟨listed, where_⟩
  · intro i
    rw [(change i).2.2]
    split
    · rw [(List.perm_orderedInsert _ id _).nodup_iff, List.nodup_cons]
      exact ⟨out i, tally.nodup i⟩
    · exact tally.nodup i
  · intro i
    rw [(change i).2.2]
    split
    · have total : Std.Total fun a b : EpId => (info b).maxPacketSize ≤ (info a).maxPacketSize := ⟨fun a b => le_total _ _⟩
      have trans : IsTrans EpId fun a b => (info b).maxPacketSize ≤ (info a).maxPacketSize := ⟨fun a b c ab bc => bc.trans ab⟩
      exact (tally.sorted i).orderedInsert id _
    · exact tally.sorted i
  · intro i
    rw [(change i).1, tally.packets, sum_insert_at _ fresh]
    rfl
  · intro i s
    rw [(change i).2.1, tally.overhead, sum_insert_at _ fresh]
    rfl
  · rw [sum_insert_at _ fresh, ← tally.payload]
    change (if place info speed id = 0 then _ else _) = _
    split <;> simp

theorem Tally.dropEp (tally : t.Tally info speed here) (listed : id ∈ here) :
    (t.dropEp (info id) (speed id) id).Tally info speed (here.erase id) := by
  have change := dropEp_intervalBw t id (info id) (speed id)
  constructor
  · intro i other
    rw [(change i).2.2, (tally.nodup i).mem_erase_iff, tally.mem, Finset.mem_erase, and_assoc]
  · intro i
    rw [(change i).2.2]
    exact (tally.nodup i).erase id
  · intro i
    rw [(change i).2.2]
    exact (tally.sorted i).sublist List.erase_sublist
  · intro i
    rw [(change i).1, tally.packets, sum_erase_at _ listed]
    rfl
  · intro i s
    rw [(change i).2.1, tally.overhead, sum_erase_at _ listed]
    rfl
  · rw [sum_erase_at _ listed, ← tally.payload]
    change (if place info speed id = 0 then _ else _) = _
    split <;> simp

end BwTable
end Tally

end Ehub.Bandwidth
