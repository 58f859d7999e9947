import Mathlib
import Ehub.BandwidthLoad

/-!
Runs of the driver's own account of the bandwidth: devices are addressed, endpoints are
reserved and dropped, devices are reset and go away, and hubs get their translators. The
tables tally in every state (`tables_tally`), and no domain is ever given more than its
share (`load_bounded`). A translator may be counted twice after a reset, which makes less
of the bandwidth of its root port available, until the words that count overflow.
-/
namespace Ehub.Bandwidth
open Ehub.EndpointContext

/-- The flags that the USB core's calls have set, and the endpoints that are to be added:
    their descriptors and the rings that have been allocated for them. -/
structure Request where
  addFlags : BitVec 32
  dropFlags : BitVec 32
  desc : Fin 31 → EndpointDesc
  dma : Fin 31 → BitVec 64

def Request.ctx (r : Request) (hciVersion : ℕ) (speed : Speed) : InputCtx where
  addFlags := r.addFlags
  dropFlags := r.dropFlags
  ep i := endpointInit hciVersion speed (r.desc i) (r.dma i)

inductive Op
  | setupDevice (slot : Fin 256) (speed : Speed) (domain : Domain)
  | reserveBandwidth (slot : Fin 256) (request : Request)
  | resetDevice (slot : Fin 256)
  | freeDevice (slot : Fin 256)
  | allocTtInfo (domain : Domain)

/-- The speed of the link that a root port has: a translator is behind a high-speed hub. -/
def link (speed : Speed) (d : Domain) : Speed :=
  if speed = .super then .super else if speed = .high ∨ d.isTt then .high else .full

namespace Host

def initial : Host := ⟨fun _ => none, fun _ => emptyTable, fun _ => 0, fun _ => 0⟩

def reserve (h : Host) (hciVersion : ℕ) (slot : Fin 256) (request : Request) : Host × ℤ :=
  match h.devs slot with
  | none => (h, -22)
  | some dev => h.reserveBandwidth slot (request.ctx hciVersion dev.speed)

def step (hciVersion : ℕ) (h : Host) : Op → Host
  | .setupDevice slot speed domain => h.setupDevice slot speed domain
  | .reserveBandwidth slot request => (h.reserve hciVersion slot request).1
  | .resetDevice slot => h.resetDevice slot
  | .freeDevice slot => h.freeDevice slot
  | .allocTtInfo domain => h.allocTtInfo domain

/-- All devices below a root port depend on the speed of its link, and only full- and
    low-speed devices use a translator. An endpoint that is added has not been accounted
    for yet, or is dropped as well. When a device goes, its endpoints have been dropped; a
    translator is new when its hub is. -/
def Allowed (h : Host) : Op → Prop
  | .setupDevice slot speed domain => h.devs slot = none ∧ (domain.isTt = true → inFrames speed = true) ∧
      ∀ id d, h.domain id = some d → d.port = domain.port → link (h.speed id) d = link speed domain
  | .reserveBandwidth slot request => ∀ i : Fin 31, EndpointConfig.has request.addFlags i = true →
      EndpointConfig.has request.dropFlags i = false → ¬h.periodic (slot, i)
  | .resetDevice _ => True
  | .freeDevice slot => ∀ i, h.speed (slot, i) ≠ .super → ¬h.periodic (slot, i)
  | .allocTtInfo domain => domain.isTt = true ∧ ∀ id, h.domain id ≠ some domain

abbrev Reachable (hciVersion : ℕ) : Host → Prop := Run.Reachable (· = initial) Allowed (step hciVersion)

/-- The words of the root ports are far from an overflow. -/
def Small (h : Host) : Prop := ∀ p, (h.numActiveTts p).toNat < 2 ^ 24 ∧ (h.table (.rootPort p)).bwUsed.toNat < 2 ^ 31

/-- No step of the run is made when a word could overflow. -/
abbrev Exact (hciVersion : ℕ) : Host → Prop := Run.Reachable (· = initial) (fun h op => h.Allowed op ∧ h.Small) (step hciVersion)

/-- The endpoints that are accounted for. -/
@[irreducible] def accounted (h : Host) : Finset EpId := {id | h.periodic id}

def load (h : Host) (d : Domain) : ℕ := ∑ id ∈ h.here h.accounted d, loadOf (h.info id) (h.speed id)

/-- Translators below a root port with endpoints that are accounted for. -/
def Active (h : Host) (port : ℕ) (tts : Finset Domain) : Prop :=
  ∀ d ∈ tts, d.isTt = true ∧ d.port = port ∧ h.activeEps d ≠ 0

/-- There are only high-speed devices below a root port, and translators. -/
def High (h : Host) (port : ℕ) : Prop := ∀ id d, h.domain id = some d → d.port = port → link (h.speed id) d = .high

end Host

/-- The bytes in blocks that the endpoints of a domain may send. -/
def share (speed : Speed) : ℕ := getBlockSize speed * (maxBandwidth speed - bwReserved speed)

/-- What a number of active translators takes of the high-speed bus, as a load. -/
def ttLoad (n : ℕ) : ℕ := 2 ^ 16 * (getBlockSize .high * (ttHsOverhead * n))

/-- How the devices are placed below the root ports. -/
structure Placed (h : Host) : Prop where
  behind : ∀ id d, h.domain id = some d → d.isTt = true → inFrames (h.speed id) = true
  kinds : ∀ id id' d d', h.domain id = some d → h.domain id' = some d' → d.port = d'.port →
    link (h.speed id) d = link (h.speed id') d'

/-- A root port with a number of active translators. They have been counted, and the
    high-speed bus has room for them and for its own endpoints. -/
structure RootLoad (h : Host) (p n : ℕ) : Prop where
  tts : n ≤ (h.numActiveTts p).toNat
  used : ttHsOverhead * n ≤ (h.table (.rootPort p)).bwUsed.toNat
  root : h.High p → h.load (.rootPort p) + ttLoad n ≤ 2 ^ 16 * (getBlockSize .high * (h.table (.rootPort p)).bwUsed.toNat)
  total : h.High p → h.load (.rootPort p) + ttLoad n ≤ 2 ^ 16 * (getBlockSize .high * hsBwLimit)

/-- No domain has too much to carry. -/
structure Loads (h : Host) : Prop where
  share : ∀ id d, h.domain id = some d → h.speed id ≠ .super → h.load d ≤ 2 ^ 16 * share (h.speed id)
  root : ∀ p s, h.Active p s → RootLoad h p s.card
  ss : ∀ d, (h.table d).ssBwIn ≤ 3515 ∧ (h.table d).ssBwOut ≤ 3515

structure Inv (h : Host) : Prop where
  sound : ∃ base, Sound h base h.accounted
  ep0 : ∀ slot, ¬h.periodic (slot, 0)
  sizes : ∀ id, (h.info id).maxPacketSize < 2 ^ 16
  placed : Placed h

/-- The next state is sound, and if nothing overflows no domain has too much to carry. -/
structure Kept (h h' : Host) : Prop where
  inv : Inv h'
  loads : h.Small → Loads h → Loads h'

section Invariant
variable {h : Host} {base : Domain → ℕ × ℕ} {A : Finset EpId} {d : Domain} {id : EpId}

theorem mem_accounted : id ∈ h.accounted ↔ h.periodic id := by
  unfold Host.accounted
  rw [Finset.mem_filter, and_iff_right (Finset.mem_univ id)]

theorem accounted_eq (all : ∀ id, id ∈ A ↔ h.periodic id) : h.accounted = A := by
  ext id
  rw [mem_accounted, all]

theorem mem_here : id ∈ h.here A d ↔ id ∈ A ∧ h.domain id = some d ∧ h.speed id ≠ .super := Finset.mem_filter

/-- A domain without devices has no load, and none of its endpoints is active. -/
theorem here_empty (none : ∀ id, h.domain id ≠ some d) : h.here A d = ∅ := by
  rw [Finset.eq_empty_iff_forall_notMem]
  intro id listed
  exact none id (mem_here.mp listed).2.1

theorem load_empty (none : ∀ id, h.domain id ≠ some d) : h.load d = 0 := by
  rw [Host.load, here_empty none, Finset.sum_empty]

/-- An active translator has a device. -/
theorem Sound.device (sound : Sound h base A) (active : h.activeEps d ≠ 0) : ∃ id, h.domain id = some d := by
  by_contra none
  push Not at none
  have count := sound.active d
  rw [here_empty none] at count
  apply active
  rw [count]
  simp

theorem active_empty (sound : Sound h base A) {p : ℕ} {s : Finset Domain} (active : h.Active p s)
    (none : ∀ id d, h.domain id = some d → d.port ≠ p) : s = ∅ := by
  rw [Finset.eq_empty_iff_forall_notMem]
  intro d listed
  obtain ⟨-, port, busy⟩ := active d listed
  obtain ⟨id, there⟩ := sound.device busy
  exact none id d there port

/-- The devices of a domain are of one kind. -/
theorem Placed.kind (placed : Placed h) {id' : EpId} (own : h.domain id = some d) (own' : h.domain id' = some d)
    (notSuper : h.speed id ≠ .super) : h.speed id' ≠ .super ∧ (h.speed id' = .high ↔ h.speed id = .high) := by
  have same := placed.kinds id' id d d own' own rfl
  unfold link at same
  cases behind : d.isTt with
  | true =>
    have frames := placed.behind id d own behind
    have frames' := placed.behind id' d own' behind
    cases hs : h.speed id <;> cases hs' : h.speed id' <;> simp_all [inFrames]
  | false => cases hs : h.speed id <;> cases hs' : h.speed id' <;> simp_all

theorem Placed.alike (placed : Placed h) (own : h.domain id = some d) (notSuper : h.speed id ≠ .super) :
    Alike h.speed (h.here A d) (h.speed id) := fun _ listed => placed.kind own (mem_here.mp listed).2.1 notSuper

theorem share_eq {s s' : Speed} (notSuper : s ≠ .super) (notSuper' : s' ≠ .super) (same : s = .high ↔ s' = .high) :
    share s = share s' := by
  cases s <;> cases s' <;> simp_all [share, getBlockSize, maxBandwidth, bwReserved]

/-! ### Less in a domain -/

/-- What is accounted for in a domain has been so before. -/
def Within (h : Host) (A : Finset EpId) (h' : Host) (A' : Finset EpId) (d : Domain) : Prop :=
  ∀ id ∈ A', h.domain id = some d → id ∈ A ∧ h'.info id = h.info id

theorem sum_within {X X' : Finset EpId} {P P' : EpId → Prop} [DecidablePred P] [DecidablePred P'] {f f' : EpId → ℕ}
    (sub : ∀ id ∈ X', P' id → (id ∈ X ∧ P id) ∧ f' id = f id) : ∑ id ∈ X' with P' id, f' id ≤ ∑ id ∈ X with P id, f id := by
  have same : ∑ id ∈ X' with P' id, f' id = ∑ id ∈ X' with P' id, f id := by
    apply Finset.sum_congr rfl
    intro id listed
    obtain ⟨mem, holds⟩ := Finset.mem_filter.mp listed
    exact (sub id mem holds).2
  rw [same]
  apply Finset.sum_le_sum_of_subset
  intro id listed
  obtain ⟨mem, holds⟩ := Finset.mem_filter.mp listed
  exact Finset.mem_filter.mpr (sub id mem holds).1

section Within
variable {h' : Host} {A' : Finset EpId}

theorem Within.load_le (within : Within h h.accounted h' h'.accounted d) (speed : h'.speed = h.speed) (domain : h'.domain = h.domain) :
    h'.load d ≤ h.load d := by
  unfold Host.load Host.here
  apply sum_within
  intro id listed own
  rw [speed, domain] at own
  obtain ⟨mem, info⟩ := within id listed own.1
  exact ⟨⟨mem, own⟩, by rw [info, speed]⟩

theorem Within.here_subset (within : Within h A h' A' d) (speed : h'.speed = h.speed) (domain : h'.domain = h.domain) :
    h'.here A' d ⊆ h.here A d := by
  intro id listed
  obtain ⟨mem, own⟩ := mem_here.mp listed
  rw [speed, domain] at own
  exact mem_here.mpr ⟨(within id mem own.1).1, own⟩

theorem Within.active (within : Within h A h' A' d) (frame : Frame h h') (sound : Sound h base A) (sound' : Sound h' base A')
    (busy : h'.activeEps d ≠ 0) : h.activeEps d ≠ 0 := by
  have fewer := Finset.card_le_card (within.here_subset frame.speed frame.domain)
  have before := sound.active d
  have after := sound'.active d
  split at after
  · rename_i behind
    rw [if_pos behind] at before
    omega
  · exact absurd after busy

theorem ss_le (within : ∀ id ∈ A', h.domain id = some d → h.speed id = .super → id ∈ A ∧ h'.info id = h.info id)
    (frame : Frame h h') (sound : Sound h base A) (sound' : Sound h' base A') :
    (h'.table d).ssBwIn ≤ (h.table d).ssBwIn ∧ (h'.table d).ssBwOut ≤ (h.table d).ssBwOut := by
  have sub : ∀ id ∈ h'.supers A' d, id ∈ h.supers A d ∧ h'.info id = h.info id := by
    intro id listed
    obtain ⟨mem, own⟩ := Finset.mem_filter.mp listed
    rw [frame.speed, frame.domain] at own
    obtain ⟨mem, info⟩ := within id mem own.1 own.2
    exact ⟨Finset.mem_filter.mpr ⟨mem, own⟩, info⟩
  rw [sound.ssIn, sound'.ssIn, sound.ssOut, sound'.ssOut]
  constructor
  · apply Nat.add_le_add_left
    apply sum_within
    intro id listed direction
    obtain ⟨mem, info⟩ := sub id listed
    rw [Host.syncIn, info] at direction
    exact ⟨⟨mem, direction⟩, by rw [Host.consumed, Host.consumed, info]⟩
  · apply Nat.add_le_add_left
    apply sum_within
    intro id listed direction
    obtain ⟨mem, info⟩ := sub id listed
    rw [Host.syncIn, info] at direction
    exact ⟨⟨mem, direction⟩, by rw [Host.consumed, Host.consumed, info]⟩

end Within

/-! ### A root port -/

section Root
variable {h' : Host} {p n n' : ℕ}

theorem toNat_add_overhead {used : BitVec 32} (low : used.toNat < 2 ^ 31) : (used + BitVec.ofNat 32 ttHsOverhead).toNat = used.toNat + 125 := by
  unfold ttHsOverhead
  bv_omega

theorem rootLoad_iff : RootLoad h p n ↔ n ≤ (h.numActiveTts p).toNat ∧ 125 * n ≤ (h.table (.rootPort p)).bwUsed.toNat ∧
    (h.High p → h.load (.rootPort p) + 32768000 * n ≤ 262144 * (h.table (.rootPort p)).bwUsed.toNat ∧
      h.load (.rootPort p) + 32768000 * n ≤ 421265408) := by
  have takes : ttLoad n = 32768000 * n := by
    change 2 ^ 16 * (4 * (125 * n)) = _
    omega
  have room : 2 ^ 16 * (getBlockSize .high * (h.table (.rootPort p)).bwUsed.toNat) = 262144 * (h.table (.rootPort p)).bwUsed.toNat := by
    change 2 ^ 16 * (4 * _) = _
    omega
  constructor
  · rintro ⟨counted, enough, room', total⟩
    rw [takes, room] at room'
    rw [takes] at total
    exact ⟨counted, enough, fun high => ⟨room' high, total high⟩⟩
  · rintro ⟨counted, enough, both⟩
    refine ⟨counted, enough, ?_, ?_⟩
    · rw [takes, room]
      exact fun high => (both high).1
    · rw [takes]
      exact fun high => (both high).2

theorem RootLoad.same (root : RootLoad h p n) (fewer : n' ≤ n) (tts : h'.numActiveTts p = h.numActiveTts p)
    (used : (h'.table (.rootPort p)).bwUsed = (h.table (.rootPort p)).bwUsed)
    (load : h'.High p → h.High p ∧ h'.load (.rootPort p) ≤ h.load (.rootPort p)) : RootLoad h' p n' := by
  rw [rootLoad_iff] at root ⊢
  rw [tts, used]
  obtain ⟨counted, enough, both⟩ := root
  refine ⟨by omega, by omega, ?_⟩
  intro high
  obtain ⟨high, less⟩ := load high
  have := both high
  omega

/-- A translator becomes active, or one that is active already is counted once more. -/
theorem RootLoad.more (root : RootLoad h p n) (small : h.Small)
    (fits : (h.table (.rootPort p)).bwUsed.toNat + 125 ≤ hsBwLimit ∧ n' ≤ n + 1 ∨ n' ≤ n)
    (tts : h'.numActiveTts p = h.numActiveTts p + 1)
    (used : (h'.table (.rootPort p)).bwUsed = (h.table (.rootPort p)).bwUsed + BitVec.ofNat 32 ttHsOverhead)
    (load : h'.High p → h.High p ∧ h'.load (.rootPort p) ≤ h.load (.rootPort p)) : RootLoad h' p n' := by
  obtain ⟨few, low⟩ := small p
  have oneMore : (h.numActiveTts p + 1).toNat = (h.numActiveTts p).toNat + 1 := by bv_omega
  have added := toNat_add_overhead low
  unfold hsBwLimit at fits
  rw [rootLoad_iff] at root ⊢
  rw [tts, used, oneMore, added]
  obtain ⟨counted, enough, both⟩ := root
  refine ⟨by omega, by omega, ?_⟩
  intro high
  obtain ⟨high, less⟩ := load high
  have := both high
  omega

/-- An active translator is not active any more. -/
theorem RootLoad.less (root : RootLoad h p n) (fewer : n' + 1 ≤ n) (tts : h'.numActiveTts p = h.numActiveTts p - 1)
    (used : (h'.table (.rootPort p)).bwUsed = (h.table (.rootPort p)).bwUsed - BitVec.ofNat 32 ttHsOverhead)
    (load : h'.High p → h.High p ∧ h'.load (.rootPort p) ≤ h.load (.rootPort p)) : RootLoad h' p n' := by
  rw [rootLoad_iff] at root ⊢
  rw [tts, used]
  obtain ⟨counted, enough, both⟩ := root
  have oneLess : (h.numActiveTts p - 1).toNat = (h.numActiveTts p).toNat - 1 := by bv_omega
  have taken : ((h.table (.rootPort p)).bwUsed - BitVec.ofNat 32 ttHsOverhead).toNat = (h.table (.rootPort p)).bwUsed.toNat - 125 := by
    unfold ttHsOverhead
    bv_omega
  rw [oneLess, taken]
  refine ⟨by omega, by omega, ?_⟩
  intro high
  obtain ⟨high, less⟩ := load high
  have := both high
  omega

end Root

/-! ### The operations, one after the other -/

section Keeps
variable {h' : Host}

/-- What is read of the endpoints is what the devices hold. -/
theorem reads_eq (devs : h'.devs = h.devs) : h'.info = h.info ∧ h'.speed = h.speed ∧ h'.domain = h.domain := by
  unfold Host.info Host.speed Host.domain
  rw [devs]
  exact ⟨rfl, rfl, rfl⟩

theorem load_congr (devs : h'.devs = h.devs) : h'.load = h.load ∧ h'.accounted = h.accounted ∧ h'.High = h.High := by
  obtain ⟨info, speed, domain⟩ := reads_eq devs
  have accounted : h'.accounted = h.accounted := by
    apply accounted_eq
    intro id
    rw [mem_accounted, Host.periodic, Host.periodic, info]
  unfold Host.load Host.here Host.High
  rw [accounted, info, speed, domain]
  exact ⟨rfl, rfl, rfl⟩

theorem Sound.setUsed (sound : Sound h base A) (d : Domain) (used : BitVec 32) :
    Sound (h.setTable d { h.table d with bwUsed := used }) base A :=
  sound.recount sound.periodic sound.inside (fun _ => rfl) (fun _ _ => rfl) ⟨rfl, rfl⟩ (sound.ssIn d) (sound.ssOut d)

theorem setUsed_ss (h : Host) (d : Domain) (used : BitVec 32) (d' : Domain) :
    ((h.setTable d { h.table d with bwUsed := used }).table d').ssBwIn = (h.table d').ssBwIn ∧
      ((h.setTable d { h.table d with bwUsed := used }).table d').ssBwOut = (h.table d').ssBwOut :=
  updated (t := { h.table d with bwUsed := used })
    (fun d' t => t.ssBwIn = (h.table d').ssBwIn ∧ t.ssBwOut = (h.table d').ssBwOut) ⟨rfl, rfl⟩ (fun _ _ => ⟨rfl, rfl⟩) d'

/-- The bandwidth of a root port and the number of its translators. -/
def Host.setRoot (h : Host) (p : ℕ) (used n : BitVec 32) : Host :=
  { h.setTable (.rootPort p) { h.table (.rootPort p) with bwUsed := used } with
    numActiveTts := Function.update h.numActiveTts p n }

theorem setRoot_self (h : Host) (p : ℕ) (used n : BitVec 32) :
    ((h.setRoot p used n).table (.rootPort p)).bwUsed = used ∧ (h.setRoot p used n).numActiveTts p = n := by
  simp [Host.setRoot, Host.setTable]

theorem setRoot_other (h : Host) {p q : ℕ} (used n : BitVec 32) (other : q ≠ p) :
    ((h.setRoot p used n).table (.rootPort q)).bwUsed = (h.table (.rootPort q)).bwUsed ∧
      (h.setRoot p used n).numActiveTts q = h.numActiveTts q := by
  simp [Host.setRoot, Host.setTable, other]

/-- There is no translator. -/
theorem updateTtActiveEps_bus (h : Host) {d : Domain} (bus : d.isTt = false) (old : ℤ) : h.updateTtActiveEps d old = h := by
  rw [Host.updateTtActiveEps, bus]
  rfl

theorem updateTtActiveEps_cases (h : Host) (d : Domain) (old : ℤ) :
    (h.updateTtActiveEps d old = h ∧ (d.isTt = true → (old = 0 ↔ h.activeEps d = 0))) ∨
    (d.isTt = true ∧ old = 0 ∧ h.activeEps d ≠ 0 ∧ h.updateTtActiveEps d old =
      h.setRoot d.port ((h.table (.rootPort d.port)).bwUsed + BitVec.ofNat 32 ttHsOverhead) (h.numActiveTts d.port + 1)) ∨
    (d.isTt = true ∧ old ≠ 0 ∧ h.activeEps d = 0 ∧ h.updateTtActiveEps d old =
      h.setRoot d.port ((h.table (.rootPort d.port)).bwUsed - BitVec.ofNat 32 ttHsOverhead) (h.numActiveTts d.port - 1)) := by
  unfold Host.updateTtActiveEps
  dsimp only
  cases behind : d.isTt with
  | false =>
    refine .inl ⟨if_pos rfl, ?_⟩
    intro true
    cases true
  | true =>
    rw [if_neg (by decide)]
    by_cases more : old = 0 ∧ h.activeEps d ≠ 0
    · rw [if_pos more]
      exact .inr (.inl ⟨rfl, more.1, more.2, rfl⟩)
    rw [if_neg more]
    by_cases less : old ≠ 0 ∧ h.activeEps d = 0
    · rw [if_pos less]
      exact .inr (.inr ⟨rfl, less.1, less.2, rfl⟩)
    · rw [if_neg less]
      refine .inl ⟨rfl, fun _ => ?_⟩
      tauto

theorem Sound.updateTtActiveEps (sound : Sound h base A) (d : Domain) (old : ℤ) : Sound (h.updateTtActiveEps d old) base A := by
  have root : ∀ used n, Sound (h.setRoot d.port used n) base A := fun used n =>
    (sound.setUsed (.rootPort d.port) used).congr rfl rfl fun _ _ => ⟨rfl, rfl, rfl⟩
  rcases updateTtActiveEps_cases h d old with ⟨same, -⟩ | ⟨-, -, -, more⟩ | ⟨-, -, -, less⟩
  · rwa [same]
  · rw [more]
    exact root _ _
  · rw [less]
    exact root _ _

theorem updateTtActiveEps_keeps (h : Host) (d : Domain) (old : ℤ) :
    (h.updateTtActiveEps d old).devs = h.devs ∧ (h.updateTtActiveEps d old).activeEps = h.activeEps ∧
      ∀ d', ((h.updateTtActiveEps d old).table d').ssBwIn = (h.table d').ssBwIn ∧
        ((h.updateTtActiveEps d old).table d').ssBwOut = (h.table d').ssBwOut := by
  rcases updateTtActiveEps_cases h d old with ⟨same, -⟩ | ⟨-, -, -, more⟩ | ⟨-, -, -, less⟩
  · rw [same]
    exact ⟨rfl, rfl, fun _ => ⟨rfl, rfl⟩⟩
  · rw [more]
    exact ⟨rfl, rfl, setUsed_ss h _ _⟩
  · rw [less]
    exact ⟨rfl, rfl, setUsed_ss h _ _⟩

end Keeps

/-- Nothing overflows in the sum. -/
theorem charge_eq {dev : VirtDevice} {e : Estimate} (few : (h.numActiveTts dev.domain.port).toNat < 2 ^ 24) (short : e.total < 2 ^ 17) :
    (h.charge dev e).toNat =
      e.total + (if !dev.domain.isTt ∧ dev.speed = .high then 125 * (h.numActiveTts dev.domain.port).toNat else 0) + bwReserved dev.speed := by
  have reserved : bwReserved dev.speed ≤ 322 := by cases dev.speed <;> decide
  unfold Host.charge ttHsOverhead
  split_ifs <;> bv_omega

theorem room_of_charge {dev : VirtDevice} {e : Estimate} (few : (h.numActiveTts dev.domain.port).toNat < 2 ^ 24) (short : e.total < 2 ^ 17)
    (fits : (h.charge dev e).toNat ≤ maxBandwidth dev.speed) : e.total ≤ maxBandwidth dev.speed - bwReserved dev.speed := by
  rw [charge_eq few short] at fits
  omega

/-! ### The endpoints of a device change -/

/-- The endpoints of a device have been taken out of the tables and put in again. -/
structure Change (h h₁ : Host) (slot : Fin 256) (dev : VirtDevice) (base : Domain → ℕ × ℕ) (A₁ : Finset EpId) : Prop where
  found : h.devs slot = some dev
  sound : Sound h₁ base A₁
  all : ∀ id, id ∈ A₁ ↔ h₁.periodic id
  frame : Frame h h₁
  others : ∀ id, id.1 ≠ slot → h₁.info id = h.info id

section Change
variable {h₁ h' : Host} {slot : Fin 256} {dev : VirtDevice} {A₁ : Finset EpId} {p n : ℕ} {s : Finset Domain}

namespace Change

theorem accounted (change : Change h h₁ slot dev base A₁) : h₁.accounted = A₁ := accounted_eq change.all

theorem own (change : Change h h₁ slot dev base A₁) : h.domain (slot, 0) = some dev.domain ∧ h.speed (slot, 0) = dev.speed :=
  owns_of_found change.found 0

theorem within (change : Change h h₁ slot dev base A₁) (other : d ≠ dev.domain) : Within h h.accounted h₁ A₁ d := by
  rintro ⟨slot', i⟩ listed own
  have apart : slot' ≠ slot := by
    rintro rfl
    rw [(owns_of_found change.found i).1, Option.some.injEq] at own
    exact other own.symm
  have info := change.others (slot', i) apart
  rw [change.all, Host.periodic, info] at listed
  exact ⟨mem_accounted.mpr listed, info⟩

/-- The load of every other domain is not more than before. -/
theorem load_le (change : Change h h₁ slot dev base A₁) (devs : h'.devs = h₁.devs) (other : d ≠ dev.domain) : h'.load d ≤ h.load d := by
  obtain ⟨load, -⟩ := load_congr devs
  have within := change.within other
  rw [← change.accounted] at within
  rw [load]
  exact within.load_le change.frame.speed change.frame.domain

theorem high (change : Change h h₁ slot dev base A₁) (devs : h'.devs = h₁.devs) : h'.High p = h.High p := by
  obtain ⟨-, -, high⟩ := load_congr devs
  rw [high]
  unfold Host.High
  rw [change.frame.speed, change.frame.domain]

/-- Other translators were active before. -/
theorem active (change : Change h h₁ slot dev base A₁) (sound : Sound h base A) (accounts : A = h.accounted)
    (other : d ≠ dev.domain) (busy : h₁.activeEps d ≠ 0) : h.activeEps d ≠ 0 := by
  subst accounts
  exact (change.within other).active change.frame sound change.sound busy

theorem share (change : Change h h₁ slot dev base A₁) (placed : Placed h) (loads : Loads h) (devs : h'.devs = h₁.devs)
    (fits : dev.speed ≠ .super → h₁.load dev.domain ≤ 2 ^ 16 * share dev.speed) :
    ∀ id d, h'.domain id = some d → h'.speed id ≠ .super → h'.load d ≤ 2 ^ 16 * Bandwidth.share (h'.speed id) := by
  intro id d own notSuper
  obtain ⟨-, speed, domain⟩ := reads_eq devs
  rw [domain, change.frame.domain] at own
  rw [speed, change.frame.speed] at notSuper ⊢
  by_cases same : d = dev.domain
  · subst same
    obtain ⟨ownDev, speedDev⟩ := change.own
    obtain ⟨notSuperDev, alike⟩ := placed.kind own ownDev notSuper
    rw [speedDev] at notSuperDev alike
    rw [(load_congr devs).1, ← share_eq notSuperDev notSuper alike]
    exact fits notSuperDev
  · exact (change.load_le devs same).trans (loads.share id d own notSuper)

theorem ss (change : Change h h₁ slot dev base A₁) (placed : Placed h) (loads : Loads h) (sound : Sound h base h.accounted)
    (fits : dev.speed = .super → (h₁.table dev.domain).checkSsBw = 0) :
    ∀ d, (h₁.table d).ssBwIn ≤ 3515 ∧ (h₁.table d).ssBwOut ≤ 3515 := by
  intro d
  by_cases here : d = dev.domain ∧ dev.speed = .super
  · obtain ⟨rfl, super⟩ := here
    have few := fits super
    unfold BwTable.checkSsBw at few
    have limit : ssBwLimit - divRoundUp (10 * ssBwLimit) 100 = 3515 := rfl
    dsimp only at few
    rw [limit] at few
    split_ifs at few with tooMuchIn tooMuchOut
    omega
  · have sub : ∀ id ∈ A₁, h.domain id = some d → h.speed id = .super → id ∈ h.accounted ∧ h₁.info id = h.info id := by
      intro id listed own super
      apply change.within _ id listed own
      rintro rfl
      obtain ⟨ownDev, speedDev⟩ := change.own
      refine here ⟨rfl, ?_⟩
      by_contra notSuper
      rw [← speedDev] at notSuper
      exact (placed.kind ownDev own notSuper).1 super
    obtain ⟨lessIn, lessOut⟩ := ss_le sub change.frame sound change.sound
    obtain ⟨fewIn, fewOut⟩ := loads.ss d
    exact ⟨lessIn.trans fewIn, lessOut.trans fewOut⟩

/-- A root port that is not the domain of the device carries no more than before. -/
theorem less (change : Change h h₁ slot dev base A₁) (devs : h'.devs = h₁.devs) (apart : Domain.rootPort p ≠ dev.domain) :
    h'.High p → h.High p ∧ h'.load (.rootPort p) ≤ h.load (.rootPort p) := by
  intro high
  rw [change.high devs] at high
  exact ⟨high, change.load_le devs apart⟩

/-- The endpoints of a device behind a translator have changed, and they fit. -/
theorem loads_tt (change : Change h h₁ slot dev base A₁) (placed : Placed h) (small : h.Small) (loads : Loads h)
    (sound : Sound h base h.accounted) (behind : dev.domain.isTt = true) (fits : h₁.load dev.domain ≤ 2 ^ 16 * Bandwidth.share dev.speed)
    (room : h₁.checkTtBwTable dev (h.activeEps dev.domain) = 0) (used : BitVec 32) :
    Loads ((h₁.setTable dev.domain { h₁.table dev.domain with bwUsed := used }).updateTtActiveEps dev.domain
      (h.activeEps dev.domain)) := by
  have notSuper : dev.speed ≠ .super := by
    intro super
    have frames := placed.behind (slot, 0) dev.domain change.own.1 behind
    rw [change.own.2, super] at frames
    cases frames
  have apart : ∀ p, Domain.rootPort p ≠ dev.domain := by
    intro p same
    rw [← same] at behind
    cases behind
  have rootUsed : ∀ p, ((h₁.setTable dev.domain { h₁.table dev.domain with bwUsed := used }).table (.rootPort p)).bwUsed =
      (h.table (.rootPort p)).bwUsed := by
    intro p
    rw [← change.frame.used]
    exact congrArg BwTable.bwUsed (Function.update_of_ne (apart p) ..)
  have tts : (h₁.setTable dev.domain { h₁.table dev.domain with bwUsed := used }).numActiveTts = h.numActiveTts := change.frame.tts
  have active : ∀ d, d ≠ dev.domain → h₁.activeEps d ≠ 0 → h.activeEps d ≠ 0 := fun d => change.active sound rfl
  obtain ⟨devs, eps, ss⟩ := updateTtActiveEps_keeps (h₁.setTable dev.domain { h₁.table dev.domain with bwUsed := used }) dev.domain
    (h.activeEps dev.domain)
  have cases_ := updateTtActiveEps_cases (h₁.setTable dev.domain { h₁.table dev.domain with bwUsed := used }) dev.domain
    (h.activeEps dev.domain)
  have before : (h₁.setTable dev.domain { h₁.table dev.domain with bwUsed := used }).activeEps = h₁.activeEps := rfl
  have beforeSs := setUsed_ss h₁ dev.domain used
  have beforeDevs : (h₁.setTable dev.domain { h₁.table dev.domain with bwUsed := used }).devs = h₁.devs := rfl
  generalize h₁.setTable dev.domain { h₁.table dev.domain with bwUsed := used } = h₂ at *
  rw [before] at eps cases_
  rw [beforeDevs] at devs
  constructor
  · exact change.share placed loads devs fun _ => fits
  · intro p s busy
    have busy' : ∀ d ∈ s, d.isTt = true ∧ d.port = p ∧ h₁.activeEps d ≠ 0 := by
      intro d listed
      rw [← eps]
      exact busy d listed
    rcases cases_ with ⟨same, iff⟩ | ⟨-, idle, now, more⟩ | ⟨-, was, idle, less⟩
    · have activeBefore : h.Active p s := by
        intro d listed
        obtain ⟨tt, port, now⟩ := busy' d listed
        refine ⟨tt, port, ?_⟩
        by_cases own : d = dev.domain
        · subst own
          exact fun none => now ((iff behind).mp none)
        · exact active d own now
      apply (loads.root p s activeBefore).same le_rfl
      · rw [same, tts]
      · rw [same, rootUsed]
      · exact change.less devs (apart p)
    · have activeBefore : h.Active p (s.erase dev.domain) := by
        intro d listed
        obtain ⟨other, listed⟩ := Finset.mem_erase.mp listed
        obtain ⟨tt, port, now⟩ := busy' d listed
        exact ⟨tt, port, active d other now⟩
      by_cases port : p = dev.domain.port
      · subst port
        have usedMore : ((h₂.updateTtActiveEps dev.domain (h.activeEps dev.domain)).table (.rootPort dev.domain.port)).bwUsed =
            (h.table (.rootPort dev.domain.port)).bwUsed + BitVec.ofNat 32 ttHsOverhead := by
          rw [more, (setRoot_self _ _ _ _).1, rootUsed]
        apply (loads.root _ _ activeBefore).more small
        · left
          have fewer : s.card - 1 ≤ (s.erase dev.domain).card := Finset.pred_card_le_card_erase
          refine ⟨?_, by omega⟩
          unfold Host.checkTtBwTable at room
          rw [if_neg (not_not.mpr idle), if_pos now, change.frame.used] at room
          by_contra much
          rw [toNat_add_overhead (small _).2, if_pos (not_le.mp much)] at room
          cases room
        · rw [more, (setRoot_self _ _ _ _).2, tts]
        · exact usedMore
        · exact change.less devs (apart _)
      · have out : s.erase dev.domain = s := by
          apply Finset.erase_eq_of_notMem
          intro listed
          exact port (busy' _ listed).2.1.symm
        rw [out] at activeBefore
        apply (loads.root p s activeBefore).same le_rfl
        · rw [more, (setRoot_other _ _ _ port).2, tts]
        · rw [more, (setRoot_other _ _ _ port).1, rootUsed]
        · exact change.less devs (apart p)
    · have out : dev.domain ∉ s := fun listed => (busy' _ listed).2.2 idle
      by_cases port : p = dev.domain.port
      · subst port
        have activeBefore : h.Active dev.domain.port (insert dev.domain s) := by
          intro d listed
          rcases Finset.mem_insert.mp listed with rfl | listed
          · exact ⟨behind, rfl, was⟩
          · obtain ⟨tt, port, now⟩ := busy' d listed
            exact ⟨tt, port, active d (fun same => out (same ▸ listed)) now⟩
        apply (loads.root _ _ activeBefore).less
        · exact (Finset.card_insert_of_notMem out).ge
        · rw [less, (setRoot_self _ _ _ _).2, tts]
        · rw [less, (setRoot_self _ _ _ _).1, rootUsed]
        · exact change.less devs (apart _)
      · have activeBefore : h.Active p s := by
          intro d listed
          obtain ⟨tt, port, now⟩ := busy' d listed
          exact ⟨tt, port, active d (fun same => out (same ▸ listed)) now⟩
        apply (loads.root p s activeBefore).same le_rfl
        · rw [less, (setRoot_other _ _ _ port).2, tts]
        · rw [less, (setRoot_other _ _ _ port).1, rootUsed]
        · exact change.less devs (apart p)
  · intro d
    obtain ⟨fewIn, fewOut⟩ := change.ss placed loads sound (fun super => absurd super notSuper) d
    obtain ⟨sameIn, sameOut⟩ := ss d
    obtain ⟨sameIn', sameOut'⟩ := beforeSs d
    omega

/-- The translators that are active after a change of a device on the bus itself were
    active before. -/
theorem activeBefore (change : Change h h₁ slot dev base A₁) (sound : Sound h base h.accounted) (bus : dev.domain.isTt = false)
    (eps : h'.activeEps = h₁.activeEps) (busy : h'.Active p s) : h.Active p s := by
  intro d listed
  obtain ⟨tt, port, now⟩ := busy d listed
  refine ⟨tt, port, change.active sound rfl ?_ (eps ▸ now)⟩
  rintro rfl
  rw [bus] at tt
  cases tt

/-- The endpoints of a SuperSpeed device have changed, and they fit. -/
theorem loads_super (change : Change h h₁ slot dev base A₁) (placed : Placed h) (loads : Loads h) (sound : Sound h base h.accounted)
    (bus : dev.domain.isTt = false) (super : dev.speed = .super) (fits : (h₁.table dev.domain).checkSsBw = 0) : Loads h₁ := by
  constructor
  · exact change.share placed loads rfl fun notSuper => absurd super notSuper
  · intro p s busy
    apply (loads.root p s (change.activeBefore sound bus rfl busy)).same le_rfl
    · rw [change.frame.tts]
    · rw [change.frame.used]
    · intro high
      apply change.less rfl _ high
      intro own
      have link := change.high rfl ▸ high
      obtain ⟨ownDev, speedDev⟩ := change.own
      have fast := link (slot, 0) dev.domain ownDev (own ▸ rfl)
      rw [speedDev, super] at fast
      cases fast
  · exact change.ss placed loads sound fun _ => fits

/-- The endpoints of a device on the bus itself have changed, and they fit. -/
theorem loads_bus (change : Change h h₁ slot dev base A₁) (placed : Placed h) (small : h.Small) (loads : Loads h)
    (sound : Sound h base h.accounted) (bus : dev.domain.isTt = false) (notSuper : dev.speed ≠ .super) {e : Estimate}
    (covers : h₁.load dev.domain ≤ 2 ^ 16 * (getBlockSize dev.speed * e.total)) (short : e.total < 2 ^ 17)
    (fits : (h₁.charge dev e).toNat ≤ maxBandwidth dev.speed) :
    Loads (h₁.setTable dev.domain { h₁.table dev.domain with bwUsed := h₁.charge dev e }) := by
  obtain ⟨ownDev, speedDev⟩ := change.own
  have devs : (h₁.setTable dev.domain { h₁.table dev.domain with bwUsed := h₁.charge dev e }).devs = h₁.devs := rfl
  have eps : (h₁.setTable dev.domain { h₁.table dev.domain with bwUsed := h₁.charge dev e }).activeEps = h₁.activeEps := rfl
  have tts : (h₁.setTable dev.domain { h₁.table dev.domain with bwUsed := h₁.charge dev e }).numActiveTts = h.numActiveTts :=
    change.frame.tts
  have ss := setUsed_ss h₁ dev.domain (h₁.charge dev e)
  have used : ((h₁.setTable dev.domain { h₁.table dev.domain with bwUsed := h₁.charge dev e }).table dev.domain).bwUsed =
      h₁.charge dev e := congrArg BwTable.bwUsed (Function.update_self dev.domain _ h₁.table)
  have others : ∀ d, d ≠ dev.domain →
      ((h₁.setTable dev.domain { h₁.table dev.domain with bwUsed := h₁.charge dev e }).table d).bwUsed = (h.table d).bwUsed := by
    intro d other
    rw [← change.frame.used]
    exact congrArg BwTable.bwUsed (Function.update_of_ne other ..)
  generalize h₁.setTable dev.domain { h₁.table dev.domain with bwUsed := h₁.charge dev e } = h₂ at *
  constructor
  · apply change.share placed loads devs
    intro _
    have room := (room_of_charge (change.frame.tts ▸ small dev.domain.port).1 short fits)
    exact covers.trans (Nat.mul_le_mul_left _ (Nat.mul_le_mul_left _ room))
  · intro p s busy
    have root := loads.root p s (change.activeBefore sound bus eps busy)
    by_cases own : Domain.rootPort p = dev.domain
    · have port : dev.domain.port = p := own ▸ rfl
      by_cases high : dev.speed = .high
      · have charge : (h₁.charge dev e).toNat = e.total + 125 * (h.numActiveTts p).toNat + bwReserved .high := by
          rw [charge_eq (change.frame.tts ▸ (small dev.domain.port).1) short, if_pos ⟨by rw [bus]; rfl, high⟩, port, high, change.frame.tts]
        have counted := root.tts
        rw [high] at covers fits
        rw [charge] at fits
        change h₁.load dev.domain ≤ 2 ^ 16 * (4 * e.total) at covers
        change _ ≤ 1607 at fits
        rw [rootLoad_iff, own, used, (load_congr devs).1, charge, tts]
        exact ⟨counted, by omega, fun _ => by omega⟩
      · -- there are no translators below a port with a device of full or low speed
        have slow : link dev.speed dev.domain ≠ .high := by
          unfold link
          rw [if_neg notSuper, if_neg (by simp [high, bus])]
          decide
        have notHigh : ¬h₂.High p := by
          intro allHigh
          rw [change.high devs] at allHigh
          exact slow (speedDev ▸ allHigh (slot, 0) dev.domain ownDev port)
        have none : s = ∅ := by
          rw [Finset.eq_empty_iff_forall_notMem]
          intro d listed
          obtain ⟨tt, samePort, now⟩ := change.activeBefore sound bus eps busy d listed
          obtain ⟨id, there⟩ := sound.device now
          have same := placed.kinds (slot, 0) id dev.domain d ownDev there (port.trans samePort.symm)
          have frames := placed.behind id d there tt
          rw [speedDev] at same
          apply slow
          rw [same, link, if_neg, if_pos (.inr tt)]
          intro super
          rw [super] at frames
          cases frames
        subst none
        exact ⟨Nat.zero_le _, Nat.zero_le _, fun high => absurd high notHigh, fun high => absurd high notHigh⟩
    · apply root.same le_rfl
      · rw [tts]
      · rw [others _ own]
      · exact change.less devs own
  · intro d
    obtain ⟨fewIn, fewOut⟩ := change.ss placed loads sound (fun super => absurd super notSuper) d
    obtain ⟨sameIn, sameOut⟩ := ss d
    omega

end Change
end Change

/-! ### A reservation -/

section Reserve
variable {slot : Fin 256} {dev : VirtDevice} {hciVersion : ℕ} {request : Request}

/-- Every interval that a descriptor may ask for has a list. -/
theorem normalizedInterval_lt (desc : EndpointDesc) {speed : Speed} (notSuper : speed ≠ .super) (periodic : desc.periodic = true) :
    normalizedInterval speed (desc.getEndpointInterval speed) < 16 := by
  have exponent := desc.parseExponentInterval_lt speed
  have frame : desc.parseFrameInterval ≤ 10 := (EndpointDesc.microframesToExponent_bounds (by omega)).2
  cases speed with
  | low =>
    have interval : desc.getEndpointInterval .low = desc.parseFrameInterval := if_pos periodic
    rw [interval, normalizedInterval, if_neg (by decide)]
    omega
  | full =>
    rw [if_pos rfl] at exponent
    rw [normalizedInterval, if_neg (by decide)]
    change (if desc.xfer = .isoc then _ else if desc.xfer = .interrupt then desc.parseFrameInterval else 0) - 3 < 16
    split_ifs <;> omega
  | high =>
    rw [if_neg (by decide)] at exponent
    have interval : desc.getEndpointInterval .high = desc.parseExponentInterval .high := if_pos periodic
    rw [interval, normalizedInterval, if_pos rfl]
    exact exponent
  | super => exact absurd rfl notSuper

theorem fits_of_allowed (hciVersion : ℕ) (sound : Sound h base h.accounted) (ep0 : ¬h.periodic (slot, 0)) (found : h.devs slot = some dev)
    (allowed : h.Allowed (.reserveBandwidth slot request)) : Fits dev (request.ctx hciVersion dev.speed) := by
  constructor
  · rw [Host.periodic, info_of_found found] at ep0
    exact eq_true_of_ne_false ep0
  · intro i added dropped
    have fresh := allowed i added dropped
    rw [Host.periodic, info_of_found found] at fresh
    exact eq_true_of_ne_false fresh
  · intro i periodic notSuper
    -- an endpoint that keeps its account is accounted for
    have kept : Host.newInfo dev (request.ctx hciVersion dev.speed) i = dev.bwInfo i →
        normalizedInterval dev.speed (Host.newInfo dev (request.ctx hciVersion dev.speed) i).epInterval < 16 := by
      intro same
      rw [same] at periodic ⊢
      obtain ⟨-, speed⟩ := owns_of_found found i
      have listed : (slot, i) ∈ h.accounted := by
        rw [mem_accounted, Host.periodic, info_of_found found]
        exact periodic
      have inside := sound.inside (slot, i) listed (speed ▸ notSuper)
      rwa [place, speed, info_of_found found] at inside
    by_cases first : i = 0
    · exact kept (if_pos first)
    · have update : Host.newInfo dev (request.ctx hciVersion dev.speed) i = updateBwInfo ((request.ctx hciVersion dev.speed).added i)
          ((request.ctx hciVersion dev.speed).dropped i) (endpointInit hciVersion dev.speed (request.desc i) (request.dma i))
          (dev.bwInfo i) := if_neg first
      cases added : (request.ctx hciVersion dev.speed).added i with
      | true =>
        rw [added, updateBwInfo_endpointInit] at update
        by_cases asks : (request.desc i).periodic = true
        · rw [if_pos asks] at update
          rw [update]
          exact normalizedInterval_lt (request.desc i) notSuper asks
        · rw [if_neg asks] at update
          exact kept update
      | false =>
        cases dropped : (request.ctx hciVersion dev.speed).dropped i with
        | true =>
          rw [added, dropped] at update
          rw [update] at periodic
          cases periodic
        | false => exact kept (newInfo_of_unflagged added dropped)

theorem reserve_eq (found : h.devs slot = some dev) :
    h.reserve hciVersion slot request = h.reserveBandwidth slot (request.ctx hciVersion dev.speed) := by
  unfold Host.reserve
  rw [found]

theorem Placed.congr {h' : Host} (placed : Placed h) (speed : h'.speed = h.speed) (domain : h'.domain = h.domain) : Placed h' := by
  constructor
  · rw [speed, domain]
    exact placed.behind
  · rw [speed, domain]
    exact placed.kinds

/-- The state after an operation has the devices of a state whose tables tally. -/
theorem Kept.of_devs {h₁ h' : Host} (devs : h'.devs = h₁.devs) (sound : Sound h' base A) (all : ∀ id, id ∈ A ↔ h₁.periodic id)
    (ep0 : ∀ slot, ¬h₁.periodic (slot, 0)) (sizes : ∀ id, (h₁.info id).maxPacketSize < 2 ^ 16) (placed : Placed h₁)
    (loads : h.Small → Loads h → Loads h') : Kept h h' := by
  obtain ⟨info, speed, domain⟩ := reads_eq devs
  have periodic : ∀ id, h'.periodic id ↔ h₁.periodic id := by
    intro id
    rw [Host.periodic, Host.periodic, info]
  refine ⟨⟨⟨base, ?_⟩, ?_, info ▸ sizes, placed.congr speed domain⟩, loads⟩
  · rw [accounted_eq fun id => (all id).trans (periodic id).symm]
    exact sound
  · intro slot
    rw [periodic]
    exact ep0 slot

theorem Inv.restored {h' : Host} (inv : Inv h) (sound : Sound h' base h.accounted) (restored : Restored h h') : Kept h h' := by
  obtain ⟨load, accounted, high⟩ := load_congr restored.devs
  obtain ⟨info, speed, domain⟩ := reads_eq restored.devs
  refine .of_devs restored.devs sound (fun _ => mem_accounted) inv.ep0 inv.sizes inv.placed fun _ loads => ⟨?_, ?_, ?_⟩
  · rw [domain, speed, load]
    exact loads.share
  · intro p s busy
    have before : h.Active p s := by
      intro d listed
      rw [← restored.activeEps]
      exact busy d listed
    apply (loads.root p s before).same le_rfl
    · rw [restored.numActiveTts]
    · rw [restored.used]
    · rw [high, load]
      exact fun high => ⟨high, le_rfl⟩
  · intro d
    obtain ⟨sameIn, sameOut⟩ := restored.ss d
    rw [sameIn, sameOut]
    exact loads.ss d

theorem updateBwInfo_small (added dropped : Bool) (ctx : EpCtx) {old : BwInfo} (small : old.maxPacketSize < 2 ^ 16) :
    (updateBwInfo added dropped ctx old).maxPacketSize < 2 ^ 16 := by
  unfold updateBwInfo
  split_ifs
  · decide
  · exact small
  · rw [maxPacketDecoded, Fields.get_toNat (by decide)]
    exact Nat.mod_lt _ (by decide)
  · exact small

theorem proposed_change {ctx : InputCtx} (inv : Inv h) (sound : Sound h base h.accounted) (found : h.devs slot = some dev)
    (fits : Fits dev ctx) : ∃ A₁, Change h (h.proposed slot dev ctx) slot dev base A₁ ∧
      (∀ slot', ¬(h.proposed slot dev ctx).periodic (slot', 0)) ∧ ∀ id, ((h.proposed slot dev ctx).info id).maxPacketSize < 2 ^ 16 := by
  obtain ⟨A₁, sound₁, visited⟩ := proposed_spec sound (fun _ => mem_accounted) found fits
  refine ⟨A₁, ⟨found, sound₁, ?_, visited.frame, fun id other => (visited.others id (.inl other)).2⟩, ?_, ?_⟩
  · rintro ⟨slot', i⟩
    by_cases own : slot' = slot
    · subst own
      rw [visited.mem i (List.mem_finRange i), Host.periodic, visited.info i (List.mem_finRange i)]
    · obtain ⟨mem, info⟩ := visited.others (slot', i) (.inl own)
      rw [mem, mem_accounted, Host.periodic, Host.periodic, info]
  · intro slot'
    by_cases own : slot' = slot
    · subst own
      have same : Host.newInfo dev ctx 0 = dev.bwInfo 0 := if_pos rfl
      rw [Host.periodic, visited.info 0 (List.mem_finRange 0), same, fits.ep0]
      decide
    · rw [Host.periodic, (visited.others (slot', 0) (.inl own)).2]
      exact inv.ep0 slot'
  · rintro ⟨slot', i⟩
    by_cases own : slot' = slot
    · subst own
      have small := inv.sizes (slot', i)
      rw [info_of_found found] at small
      rw [visited.info i (List.mem_finRange i), Host.newInfo]
      split_ifs
      · exact small
      · exact updateBwInfo_small _ _ _ small
    · rw [(visited.others (slot', i) (.inl own)).2]
      exact inv.sizes (slot', i)

theorem Change.covered {h₁ : Host} {A₁ : Finset EpId} (change : Change h h₁ slot dev base A₁) (placed : Placed h)
    (notSuper : dev.speed ≠ .super) {e : Estimate}
    (done : Estimate.intervals (h₁.table dev.domain) (fun id => (h₁.info id).maxPacketSize) (getBlockSize dev.speed)
      (maxBandwidth dev.speed) (List.range' 1 15) (Estimate.start (h₁.table dev.domain) (getBlockSize dev.speed)) = some e) :
    h₁.load dev.domain ≤ 2 ^ 16 * (getBlockSize dev.speed * e.total) := by
  obtain ⟨own, speed⟩ := change.own
  have placed₁ := placed.congr change.frame.speed change.frame.domain
  rw [← change.frame.domain] at own
  rw [← change.frame.speed] at speed
  rw [Host.load, change.accounted]
  apply load_le_total (change.sound.tally dev.domain) _ notSuper _ done
  · rw [← speed]
    exact placed₁.alike own (speed ▸ notSuper)
  · intro id listed
    obtain ⟨mem, -, other⟩ := mem_here.mp listed
    exact change.sound.inside id mem other

theorem estimate_small (sizes : ∀ id, (h.info id).maxPacketSize < 2 ^ 16) {e : Estimate}
    (done : Estimate.intervals (h.table d) (fun id => (h.info id).maxPacketSize) (getBlockSize dev.speed) (maxBandwidth dev.speed)
      (List.range' 1 15) (Estimate.start (h.table d) (getBlockSize dev.speed)) = some e) : e.total < 2 ^ 17 := by
  have positive : 0 < getBlockSize dev.speed := by cases dev.speed <;> decide
  have limit : maxBandwidth dev.speed ≤ 1607 := by cases dev.speed <;> decide
  have short := total_small (largestMps_small (fun id => Nat.le_of_lt_succ (sizes id)) positive) done
  omega

theorem Inv.reserve (inv : Inv h) (allowed : h.Allowed (.reserveBandwidth slot request)) :
    Kept h (h.reserve hciVersion slot request).1 := by
  cases found : h.devs slot with
  | none =>
    rw [Host.reserve, found]
    exact ⟨inv, fun _ loads => loads⟩
  | some dev =>
    obtain ⟨base, sound⟩ := inv.sound
    have fits := fits_of_allowed hciVersion sound (inv.ep0 slot) found allowed
    rw [reserve_eq found]
    generalize request.ctx hciVersion dev.speed = ctx at fits
    by_cases failed : (h.reserveBandwidth slot ctx).2 ≠ 0
    · obtain ⟨sound', restored⟩ := reserve_failed sound (fun _ => mem_accounted) found fits failed
      exact inv.restored sound' restored
    obtain ⟨A₁, change, ep0, sizes⟩ := proposed_change inv sound found fits
    have placed₁ := inv.placed.congr change.frame.speed change.frame.domain
    rw [reserveBandwidth_eq found] at failed ⊢
    rcases checkBwTable_cases (h.proposed slot dev ctx) dev (oldActiveEps h dev) with
      ⟨no, -⟩ | ⟨super, few, fit⟩ | ⟨notSuper, room, e, done, few, fit⟩
    · have few : (-12 : ℤ) ≠ 0 := by decide
      rw [if_neg no] at failed
      exact absurd few failed
    · rw [fit, if_pos rfl]
      have bus : dev.domain.isTt = false := by
        by_contra behind
        have frames := inv.placed.behind (slot, 0) dev.domain change.own.1 (eq_true_of_ne_false behind)
        rw [change.own.2, super] at frames
        cases frames
      dsimp only
      rw [updateTtActiveEps_bus _ bus]
      exact .of_devs rfl change.sound change.all ep0 sizes placed₁ fun _ loads => change.loads_super inv.placed loads sound bus super few
    · rw [fit, if_pos rfl]
      have covers := change.covered inv.placed notSuper done
      have short := estimate_small sizes done
      have devs : (((h.proposed slot dev ctx).setTable dev.domain { (h.proposed slot dev ctx).table dev.domain with
          bwUsed := (h.proposed slot dev ctx).charge dev e }).updateTtActiveEps dev.domain (oldActiveEps h dev)).devs =
          (h.proposed slot dev ctx).devs := (updateTtActiveEps_keeps _ dev.domain _).1
      have sound₂ := (change.sound.setUsed dev.domain ((h.proposed slot dev ctx).charge dev e)).updateTtActiveEps dev.domain
        (oldActiveEps h dev)
      cases tt : dev.domain.isTt with
      | true =>
        have old : oldActiveEps h dev = h.activeEps dev.domain := if_pos tt
        rw [old] at room sound₂ devs ⊢
        refine .of_devs devs sound₂ change.all ep0 sizes placed₁ fun small loads => ?_
        apply change.loads_tt inv.placed small loads sound tt _ (room tt)
        have left := room_of_charge (change.frame.tts ▸ (small dev.domain.port).1) short few
        exact covers.trans (Nat.mul_le_mul_left _ (Nat.mul_le_mul_left _ left))
      | false =>
        refine .of_devs devs sound₂ change.all ep0 sizes placed₁ fun small loads => ?_
        rw [updateTtActiveEps_bus _ tt]
        exact change.loads_bus inv.placed small loads sound tt notSuper covers short few

end Reserve

/-! ### A reset -/

section Reset
variable {slot : Fin 256} {dev : VirtDevice}

/-- SuperSpeed endpoints that are not accounted for any more leave what they have been
    given in the counters. -/
theorem Sound.forget {A₀ : Finset EpId} (sound : Sound h base A) (sub : A₀ ⊆ A) (gone : ∀ id ∈ A, id ∉ A₀ → h.speed id = .super) :
    ∃ base', Sound h base' A₀ := by
  have here : ∀ d, h.here A₀ d = h.here A d := by
    intro d
    ext id
    rw [mem_here, mem_here]
    constructor
    · rintro ⟨mem, own⟩
      exact ⟨sub mem, own⟩
    · rintro ⟨mem, own, other⟩
      by_contra out
      exact other (gone id mem fun kept => out ⟨kept, own, other⟩)
  have supers : ∀ d, h.supers A₀ d ⊆ h.supers A d := fun d => Finset.filter_subset_filter _ sub
  have less : ∀ d (P : EpId → Prop) [DecidablePred P],
      ∑ id ∈ h.supers A₀ d with P id, h.consumed id ≤ ∑ id ∈ h.supers A d with P id, h.consumed id := fun d P _ =>
    Finset.sum_le_sum_of_subset (Finset.filter_subset_filter _ (supers d))
  refine ⟨fun d => ((h.table d).ssBwIn - ∑ id ∈ h.supers A₀ d with h.syncIn id, h.consumed id,
    (h.table d).ssBwOut - ∑ id ∈ h.supers A₀ d with ¬h.syncIn id, h.consumed id), ?_⟩
  constructor
  · exact fun id listed => sound.periodic id (sub listed)
  · exact fun id listed => sound.inside id (sub listed)
  · intro d
    rw [here]
    exact sound.tally d
  · intro d
    have total := sound.ssIn d
    have part := less d h.syncIn
    dsimp only
    omega
  · intro d
    have total := sound.ssOut d
    have part := less d fun id => ¬h.syncIn id
    dsimp only
    omega
  · intro d
    rw [here]
    exact sound.active d

theorem resetLoop_spec {A₀ : Finset EpId} (sound : Sound h base A₀) (found : h.devs slot = some dev) (ep0 : isAsyncEp (dev.bwInfo 0).type = true)
    (mem : ∀ i, (slot, i) ∈ A₀ ↔ isAsyncEp (dev.bwInfo i).type = false ∧ dev.speed ≠ .super) :
    ∃ A', Sound ((List.finRange 31).foldl (Host.resetLoop slot dev) h) base A' ∧
      Visited slot (List.finRange 31) (fun _ => False) (fun i => if i = 0 then dev.bwInfo 0 else clearBwInfo) h A₀
        ((List.finRange 31).foldl (Host.resetLoop slot dev) h) A' := by
  refine visit_device (fun i => isAsyncEp (dev.bwInfo i).type = false ∧ dev.speed ≠ .super) dev.bwInfo ?_ sound
    (owns_of_found found) ?_
  rotate_left
  · intro i
    exact ⟨mem i, info_of_found found i⟩
  intro h A i sound owns mem info
  unfold Host.resetLoop
  by_cases first : i = 0
  · subst first
    rw [if_pos rfl]
    apply stay_visited sound
    · rw [mem, ep0]
      simp
    · rwa [if_pos rfl]
  · rw [if_neg first]
    dsimp only
    -- the endpoint leaves its table, where it is listed
    obtain ⟨A₁, sound₁, visited₁⟩ : ∃ A₁, Sound (if (h.table dev.domain).linked (slot, i) then
          h.dropEpFromIntervalTable (h.info (slot, i)) dev.domain dev.speed (slot, i) else h) base A₁ ∧
        Visited slot [i] (fun _ => False) (fun j => h.info (slot, j)) h A (if (h.table dev.domain).linked (slot, i) then
          h.dropEpFromIntervalTable (h.info (slot, i)) dev.domain dev.speed (slot, i) else h) A₁ := by
      obtain ⟨own, speed⟩ := owns i
      have linked : (h.table dev.domain).linked (slot, i) = true ↔ (slot, i) ∈ h.here A dev.domain := by
        apply BwTable.linked_iff (sound.tally dev.domain)
        intro listed
        obtain ⟨mem, -, notSuper⟩ := mem_here.mp listed
        exact sound.inside _ mem notSuper
      by_cases listed : (h.table dev.domain).linked (slot, i) = true
      · rw [if_pos listed]
        exact drop_visited sound owns (.inl (mem_here.mp (linked.mp listed)).1)
      · rw [if_neg listed]
        apply stay_visited sound _ rfl
        rw [iff_false]
        intro kept
        have notSuper := (mem.mp kept).2
        exact listed (linked.mpr (mem_here.mpr ⟨kept, own, speed ▸ notSuper⟩))
    generalize (if (h.table dev.domain).linked (slot, i) then
      h.dropEpFromIntervalTable (h.info (slot, i)) dev.domain dev.speed (slot, i) else h) = h₁ at sound₁ visited₁ ⊢
    have out : (slot, i) ∉ A₁ := (visited₁.mem i (List.mem_singleton_self i)).mp
    obtain ⟨A₂, sound₂, visited₂⟩ := set_visited (fun _ => False) (x := clearBwInfo) sound₁ (owns.frame visited₁.frame) out not_false
    exact ⟨A₂, sound₂, visited₁.trans (visited₂.change .rfl (if_neg first).symm)⟩

/-- Endpoints have gone, and a translator that has others left is counted once more. -/
theorem Loads.reset {h₁ : Host} {A₀ A₁ : Finset EpId} (small : h.Small) (loads : Loads h) (sound : Sound h base A₀)
    (sub : A₀ ⊆ h.accounted) (sound₁ : Sound h₁ base A₁) (all : h₁.accounted = A₁) (frame : Frame h h₁)
    (within : ∀ id ∈ A₁, id ∈ A₀ ∧ h₁.info id = h.info id) (d : Domain) : Loads (h₁.updateTtActiveEps d 0) := by
  obtain ⟨devs, eps, ss⟩ := updateTtActiveEps_keeps h₁ d 0
  obtain ⟨load, accounted, high⟩ := load_congr devs
  obtain ⟨info, speed, domain⟩ := reads_eq devs
  have fewer : ∀ d', h₁.load d' ≤ h.load d' := by
    intro d'
    have inDomain : Within h h.accounted h₁ h₁.accounted d' := by
      intro id listed own
      rw [all] at listed
      obtain ⟨mem, info⟩ := within id listed
      exact ⟨sub mem, info⟩
    exact inDomain.load_le frame.speed frame.domain
  have busyBefore : ∀ d', h₁.activeEps d' ≠ 0 → h.activeEps d' ≠ 0 := by
    intro d' busy
    exact Within.active (fun id listed _ => within id listed) frame sound sound₁ busy
  constructor
  · rw [speed, domain, load, frame.speed, frame.domain]
    intro id d' own notSuper
    exact (fewer d').trans (loads.share id d' own notSuper)
  · intro p s busy
    have before : h.Active p s := by
      intro d' listed
      obtain ⟨tt, port, now⟩ := busy d' listed
      rw [eps] at now
      exact ⟨tt, port, busyBefore d' now⟩
    have less : (h₁.updateTtActiveEps d 0).High p → h.High p ∧ (h₁.updateTtActiveEps d 0).load (.rootPort p) ≤ h.load (.rootPort p) := by
      rw [high, load]
      intro allHigh
      refine ⟨?_, fewer _⟩
      unfold Host.High at allHigh ⊢
      rwa [frame.speed, frame.domain] at allHigh
    have root := loads.root p s before
    rcases updateTtActiveEps_cases h₁ d 0 with ⟨same, -⟩ | ⟨-, -, -, more⟩ | ⟨-, never, -⟩
    · apply root.same le_rfl _ _ less
      · rw [same, frame.tts]
      · rw [same, frame.used]
    · by_cases port : p = d.port
      · subst port
        apply root.more small (.inr le_rfl) _ _ less
        · rw [more, (setRoot_self _ _ _ _).2, frame.tts]
        · rw [more, (setRoot_self _ _ _ _).1, frame.used]
      · apply root.same le_rfl _ _ less
        · rw [more, (setRoot_other _ _ _ port).2, frame.tts]
        · rw [more, (setRoot_other _ _ _ port).1, frame.used]
    · exact absurd rfl never
  · intro d'
    obtain ⟨sameIn, sameOut⟩ := ss d'
    obtain ⟨lessIn, lessOut⟩ := ss_le (fun id listed _ _ => within id listed) frame sound sound₁ (d := d')
    obtain ⟨fewIn, fewOut⟩ := loads.ss d'
    omega

theorem Inv.reset (inv : Inv h) (slot : Fin 256) : Kept h (h.resetDevice slot) := by
  unfold Host.resetDevice
  cases found : h.devs slot with
  | none => exact ⟨inv, fun _ loads => loads⟩
  | some dev =>
    obtain ⟨base, sound⟩ := inv.sound
    have owns := owns_of_found found
    have ep0 : isAsyncEp (dev.bwInfo 0).type = true := by
      have none := inv.ep0 slot
      rw [Host.periodic, info_of_found found] at none
      exact eq_true_of_ne_false none
    have sub : h.accounted.filter (fun id => ¬(id.1 = slot ∧ dev.speed = .super)) ⊆ h.accounted := Finset.filter_subset _ _
    obtain ⟨base', sound₀⟩ := sound.forget sub (by
      rintro ⟨slot', i⟩ listed out
      by_contra notSuper
      apply out
      refine Finset.mem_filter.mpr ⟨listed, ?_⟩
      rintro ⟨rfl, super⟩
      exact notSuper ((owns i).2.trans super))
    generalize members : h.accounted.filter (fun id => ¬(id.1 = slot ∧ dev.speed = .super)) = A₀ at sound₀ sub
    have own : ∀ i, (slot, i) ∈ A₀ ↔ isAsyncEp (dev.bwInfo i).type = false ∧ dev.speed ≠ .super := by
      intro i
      rw [← members, Finset.mem_filter, mem_accounted, Host.periodic, info_of_found found]
      simp
    have other : ∀ id : EpId, id.1 ≠ slot → (id ∈ A₀ ↔ h.periodic id) := by
      intro id apart
      rw [← members, Finset.mem_filter, mem_accounted]
      simp [apart]
    obtain ⟨A₁, sound₁, visited⟩ := resetLoop_spec sound₀ found ep0 own
    dsimp only
    generalize (List.finRange 31).foldl (Host.resetLoop slot dev) h = h₁ at sound₁ visited ⊢
    have gone : ∀ i, ¬h₁.periodic (slot, i) := by
      intro i
      rw [Host.periodic, visited.info i (List.mem_finRange i)]
      by_cases first : i = 0
      · rw [if_pos first, ep0]
        decide
      · rw [if_neg first]
        decide
    have all : ∀ id, id ∈ A₁ ↔ h₁.periodic id := by
      rintro ⟨slot', i⟩
      by_cases same : slot' = slot
      · subst same
        exact iff_of_false (visited.mem i (List.mem_finRange i)).mp (gone i)
      · obtain ⟨mem, info⟩ := visited.others (slot', i) (.inl same)
        rw [mem, other _ same, Host.periodic, Host.periodic, info]
    have within : ∀ id ∈ A₁, id ∈ A₀ ∧ h₁.info id = h.info id := by
      rintro ⟨slot', i⟩ listed
      by_cases same : slot' = slot
      · subst same
        exact absurd ((all _).mp listed) (gone i)
      · obtain ⟨mem, info⟩ := visited.others (slot', i) (.inl same)
        exact ⟨mem.mp listed, info⟩
    refine .of_devs (updateTtActiveEps_keeps h₁ dev.domain 0).1 (sound₁.updateTtActiveEps dev.domain 0) all ?_ ?_
      (inv.placed.congr visited.frame.speed visited.frame.domain)
      fun small loads => loads.reset small sound₀ sub sound₁ (accounted_eq all) visited.frame within dev.domain
    · intro slot'
      by_cases same : slot' = slot
      · subst same
        exact gone 0
      · rw [Host.periodic, (visited.others (slot', 0) (.inl same)).2]
        exact inv.ep0 slot'
    · rintro ⟨slot', i⟩
      by_cases same : slot' = slot
      · subst same
        have own := inv.sizes (slot', i)
        rw [info_of_found found] at own
        rw [visited.info i (List.mem_finRange i)]
        split_ifs with first
        · exact first ▸ own
        · decide
      · rw [(visited.others (slot', i) (.inl same)).2]
        exact inv.sizes (slot', i)

end Reset

/-! ### Devices come and go -/

section Devices
variable {h' : Host} {slot : Fin 256}

theorem nothing_in (free : h.devs slot = none) (i : Fin 31) : ¬h.periodic (slot, i) := by
  have info : h.info (slot, i) = clearBwInfo := by
    unfold Host.info
    rw [free]
  rw [Host.periodic, info]
  decide

theorem load_le_of (sub : ∀ id ∈ h'.accounted, id ∈ h.accounted ∧ h'.info id = h.info id ∧ h'.speed id = h.speed id ∧
    h'.domain id = h.domain id) (d : Domain) : h'.load d ≤ h.load d := by
  unfold Host.load Host.here
  apply sum_within
  intro id listed own
  obtain ⟨mem, info, speed, domain⟩ := sub id listed
  rw [speed, domain] at own
  exact ⟨⟨mem, own⟩, by rw [info, speed]⟩

/-- The tables stay as they are, and what is accounted for has been so before. -/
theorem Loads.devices (loads : Loads h) (fewer : ∀ d, h'.load d ≤ h.load d) (tables : h'.table = h.table)
    (eps : h'.activeEps = h.activeEps) (tts : h'.numActiveTts = h.numActiveTts)
    (share : ∀ id d, h'.domain id = some d → h'.speed id ≠ .super → h'.load d ≤ 2 ^ 16 * Bandwidth.share (h'.speed id))
    (high : ∀ p s, h'.Active p s → h'.High p → h.High p ∨ s = ∅ ∧ h'.load (.rootPort p) = 0) : Loads h' := by
  refine ⟨share, ?_, fun d => tables ▸ loads.ss d⟩
  intro p s busy
  have root := loads.root p s (by
    intro d listed
    rw [← eps]
    exact busy d listed)
  rw [rootLoad_iff] at root ⊢
  rw [tables, tts]
  refine ⟨root.1, root.2.1, ?_⟩
  intro allHigh
  have less := fewer (.rootPort p)
  rcases high p s busy allHigh with before | ⟨rfl, none⟩
  · have both := root.2.2 before
    omega
  · rw [none, Finset.card_empty]
    omega

theorem setup_reads (h : Host) (slot : Fin 256) (speed : Speed) (domain : Domain) (id : EpId) :
    (h.setupDevice slot speed domain).info id = (if id.1 = slot then clearBwInfo else h.info id) ∧
      (h.setupDevice slot speed domain).speed id = (if id.1 = slot then speed else h.speed id) ∧
      (h.setupDevice slot speed domain).domain id = if id.1 = slot then some domain else h.domain id := by
  unfold Host.setupDevice Host.info Host.speed Host.domain
  by_cases own : id.1 = slot
  · simp [own]
  · simp [own]

theorem Inv.setup {speed : Speed} {domain : Domain} (inv : Inv h) (allowed : h.Allowed (.setupDevice slot speed domain)) :
    Kept h (h.setupDevice slot speed domain) := by
  obtain ⟨free, behind, kinds⟩ := allowed
  obtain ⟨base, sound⟩ := inv.sound
  have reads := setup_reads h slot speed domain
  have nothing : ∀ i, ¬h.periodic (slot, i) := nothing_in free
  have periodic : ∀ id, (h.setupDevice slot speed domain).periodic id ↔ h.periodic id := by
    rintro ⟨slot', i⟩
    rw [Host.periodic, (reads _).1]
    by_cases own : slot' = slot
    · subst own
      rw [if_pos rfl]
      exact iff_of_false (by decide) (nothing i)
    · rw [if_neg own, Host.periodic]
  have same : ∀ id ∈ h.accounted, (h.setupDevice slot speed domain).info id = h.info id ∧
      (h.setupDevice slot speed domain).speed id = h.speed id ∧ (h.setupDevice slot speed domain).domain id = h.domain id := by
    rintro ⟨slot', i⟩ listed
    have own : slot' ≠ slot := by
      rintro rfl
      exact nothing i (mem_accounted.mp listed)
    obtain ⟨info, ownSpeed, ownDomain⟩ := reads (slot', i)
    rw [if_neg own] at info ownSpeed ownDomain
    exact ⟨info, ownSpeed, ownDomain⟩
  have accounted : (h.setupDevice slot speed domain).accounted = h.accounted := accounted_eq fun id => by
    rw [mem_accounted, periodic]
  have sound' : Sound (h.setupDevice slot speed domain) base h.accounted := sound.congr rfl rfl same
  have keeps : ∀ id d, h.domain id = some d →
      (h.setupDevice slot speed domain).domain id = some d ∧ (h.setupDevice slot speed domain).speed id = h.speed id := by
    intro id d own
    have other : id.1 ≠ slot := by
      rintro here
      rw [Host.domain, here, free] at own
      cases own
    obtain ⟨-, ownSpeed, ownDomain⟩ := reads id
    rw [if_neg other] at ownSpeed ownDomain
    exact ⟨ownDomain.trans own, ownSpeed⟩
  have placed : Placed (h.setupDevice slot speed domain) := by
    constructor
    · intro id d own tt
      rw [(reads id).2.2] at own
      rw [(reads id).2.1]
      by_cases here : id.1 = slot
      · rw [if_pos here] at own ⊢
        obtain rfl := Option.some.inj own
        exact behind tt
      · rw [if_neg here] at own ⊢
        exact inv.placed.behind id d own tt
    · intro id id' d d' own own' port
      rw [(reads id).2.2] at own
      rw [(reads id').2.2] at own'
      rw [(reads id).2.1, (reads id').2.1]
      by_cases here : id.1 = slot
      · rw [if_pos here] at own ⊢
        obtain rfl := Option.some.inj own
        by_cases here' : id'.1 = slot
        · rw [if_pos here'] at own' ⊢
          rw [Option.some.inj own']
        · rw [if_neg here'] at own' ⊢
          exact (kinds id' d' own' port.symm).symm
      · rw [if_neg here] at own ⊢
        by_cases here' : id'.1 = slot
        · rw [if_pos here'] at own' ⊢
          obtain rfl := Option.some.inj own'
          exact kinds id d own port
        · rw [if_neg here'] at own' ⊢
          exact inv.placed.kinds id id' d d' own own' port
  have fewer : ∀ d, (h.setupDevice slot speed domain).load d ≤ h.load d := by
    apply load_le_of
    intro id listed
    rw [accounted] at listed
    exact ⟨listed, same id listed⟩
  refine ⟨⟨⟨base, accounted ▸ sound'⟩, ?_, ?_, placed⟩, fun _ loads => loads.devices fewer rfl rfl rfl ?_ ?_⟩
  · intro slot'
    rw [periodic]
    exact inv.ep0 slot'
  · intro id
    rw [(reads id).1]
    split_ifs
    · decide
    · exact inv.sizes id
  · intro id d own notSuper
    -- the load of a domain with a device was bounded before
    by_cases empty : ∀ id, h.domain id ≠ some d
    · have less := fewer d
      rw [load_empty empty] at less
      omega
    · push Not at empty
      obtain ⟨id', own'⟩ := empty
      obtain ⟨now, sameSpeed⟩ := keeps id' d own'
      obtain ⟨notSuper', kind⟩ := placed.kind own now notSuper
      rw [sameSpeed] at notSuper' kind
      rw [← share_eq notSuper' notSuper kind]
      exact (fewer d).trans (loads.share id' d own' notSuper')
  · intro p s _ allHigh
    left
    intro id d own port
    obtain ⟨now, sameSpeed⟩ := keeps id d own
    rw [← sameSpeed]
    exact allHigh id d now port

theorem free_reads (h : Host) (slot : Fin 256) (id : EpId) :
    (h.freeDevice slot).info id = (if id.1 = slot then clearBwInfo else h.info id) ∧
      (h.freeDevice slot).domain id = (if id.1 = slot then none else h.domain id) ∧
      (id.1 ≠ slot → (h.freeDevice slot).speed id = h.speed id) := by
  unfold Host.freeDevice Host.info Host.speed Host.domain
  by_cases own : id.1 = slot
  · simp [own]
  · simp [own]

theorem Inv.free (inv : Inv h) (allowed : h.Allowed (.freeDevice slot)) : Kept h (h.freeDevice slot) := by
  obtain ⟨base, sound⟩ := inv.sound
  have reads := free_reads h slot
  have periodic : ∀ id, (h.freeDevice slot).periodic id ↔ h.periodic id ∧ id.1 ≠ slot := by
    intro id
    rw [Host.periodic, (reads id).1]
    by_cases own : id.1 = slot
    · rw [if_pos own]
      exact iff_of_false (by decide) fun holds => holds.2 own
    · rw [if_neg own]
      exact (and_iff_left own).symm
  have sub : h.accounted.filter (fun id => id.1 ≠ slot) ⊆ h.accounted := Finset.filter_subset _ _
  obtain ⟨base', sound₀⟩ := sound.forget sub (by
    rintro ⟨slot', i⟩ listed out
    by_contra notSuper
    apply out
    refine Finset.mem_filter.mpr ⟨listed, ?_⟩
    rintro rfl
    exact allowed i notSuper (mem_accounted.mp listed))
  have all : ∀ id, id ∈ h.accounted.filter (fun id => id.1 ≠ slot) ↔ (h.freeDevice slot).periodic id := by
    intro id
    rw [Finset.mem_filter, mem_accounted, periodic]
  generalize h.accounted.filter (fun id => id.1 ≠ slot) = A₀ at sub sound₀ all
  have same : ∀ id, id.1 ≠ slot → (h.freeDevice slot).info id = h.info id ∧ (h.freeDevice slot).speed id = h.speed id ∧
      (h.freeDevice slot).domain id = h.domain id := by
    intro id other
    obtain ⟨info, domain, speed⟩ := reads id
    rw [if_neg other] at info domain
    exact ⟨info, speed other, domain⟩
  have apart : ∀ id d, (h.freeDevice slot).domain id = some d → id.1 ≠ slot := by
    intro id d own here
    rw [(reads id).2.1, if_pos here] at own
    cases own
  have before : ∀ id d, (h.freeDevice slot).domain id = some d →
      h.domain id = some d ∧ h.speed id = (h.freeDevice slot).speed id := by
    intro id d own
    obtain ⟨-, speed, domain⟩ := same id (apart id d own)
    exact ⟨domain ▸ own, speed.symm⟩
  have sound' : Sound (h.freeDevice slot) base' A₀ := sound₀.congr rfl rfl fun id listed =>
    same id ((periodic id).mp ((all id).mp listed)).2
  have placed : Placed (h.freeDevice slot) := by
    constructor
    · intro id d own tt
      obtain ⟨own, speed⟩ := before id d own
      rw [← speed]
      exact inv.placed.behind id d own tt
    · intro id id' d d' own own' port
      obtain ⟨own, speed⟩ := before id d own
      obtain ⟨own', speed'⟩ := before id' d' own'
      rw [← speed, ← speed']
      exact inv.placed.kinds id id' d d' own own' port
  have fewer : ∀ d, (h.freeDevice slot).load d ≤ h.load d := by
    apply load_le_of
    intro id listed
    obtain ⟨there, other⟩ := (periodic id).mp (mem_accounted.mp listed)
    exact ⟨mem_accounted.mpr there, same id other⟩
  refine ⟨⟨⟨base', accounted_eq all ▸ sound'⟩, ?_, ?_, placed⟩, fun _ loads => loads.devices fewer rfl rfl rfl ?_ ?_⟩
  · intro slot' there
    exact inv.ep0 slot' ((periodic _).mp there).1
  · intro id
    rw [(reads id).1]
    split_ifs
    · decide
    · exact inv.sizes id
  · intro id d own notSuper
    obtain ⟨own, speed⟩ := before id d own
    rw [← speed] at notSuper ⊢
    exact (fewer d).trans (loads.share id d own notSuper)
  · intro p s busy allHigh
    by_cases wasHigh : h.High p
    · exact .inl wasHigh
    -- the device was the last one below its root port
    have empty : ∀ id d, (h.freeDevice slot).domain id = some d → d.port ≠ p := by
      intro id d own port
      apply wasHigh
      intro id' d' own' port'
      obtain ⟨was, speed⟩ := before id d own
      rw [inv.placed.kinds id' id d' d own' was (port'.trans port.symm), speed]
      exact allHigh id d own port
    refine .inr ⟨active_empty sound' busy empty, load_empty ?_⟩
    intro id own
    exact empty id _ own rfl

theorem emptyTable_tally (info : EpId → BwInfo) (speed : EpId → Speed) : Host.emptyTable.Tally info speed ∅ := by
  constructor <;> simp [Host.emptyTable]

theorem Inv.allocTt {d : Domain} (inv : Inv h) (allowed : h.Allowed (.allocTtInfo d)) : Kept h (h.allocTtInfo d) := by
  obtain ⟨tt, empty⟩ := allowed
  obtain ⟨base, sound⟩ := inv.sound
  have devs : (h.allocTtInfo d).devs = h.devs := rfl
  obtain ⟨load, -, high⟩ := load_congr devs
  have noneHere : h.here h.accounted d = ∅ := here_empty empty
  have noneSuper : h.supers h.accounted d = ∅ := by
    rw [Finset.eq_empty_iff_forall_notMem]
    intro id listed
    exact empty id (Finset.mem_filter.mp listed).2.1
  have sound' : Sound (h.allocTtInfo d) (Function.update base d (0, 0)) h.accounted := by
    constructor
    · exact sound.periodic
    · exact sound.inside
    · apply updated (fun d' t => t.Tally h.info h.speed (h.here h.accounted d')) _ fun d' _ => sound.tally d'
      rw [noneHere]
      exact emptyTable_tally h.info h.speed
    · apply updated (fun d' t => t.ssBwIn = (Function.update base d (0, 0) d').1 +
        ∑ id ∈ h.supers h.accounted d' with h.syncIn id, h.consumed id)
      · rw [noneSuper, Function.update_self]
        rfl
      · intro d' other
        rw [Function.update_of_ne other]
        exact sound.ssIn d'
    · apply updated (fun d' t => t.ssBwOut = (Function.update base d (0, 0) d').2 +
        ∑ id ∈ h.supers h.accounted d' with ¬h.syncIn id, h.consumed id)
      · rw [noneSuper, Function.update_self]
        rfl
      · intro d' other
        rw [Function.update_of_ne other]
        exact sound.ssOut d'
    · intro d'
      change Function.update h.activeEps d 0 d' = if d'.isTt then ((h.here h.accounted d').card : ℤ) else 0
      by_cases own : d' = d
      · subst own
        rw [Function.update_self, noneHere]
        simp
      · rw [Function.update_of_ne own]
        exact sound.active d'
  refine .of_devs devs sound' (fun _ => mem_accounted) inv.ep0 inv.sizes inv.placed fun _ loads => ⟨?_, ?_, ?_⟩
  · rw [load]
    exact loads.share
  · intro p s busy
    have before : h.Active p s := by
      intro d' listed
      obtain ⟨behind, port, now⟩ := busy d' listed
      refine ⟨behind, port, ?_⟩
      by_cases own : d' = d
      · subst own
        exact absurd (Function.update_self ..) now
      · exact (Function.update_of_ne own 0 h.activeEps) ▸ now
    apply (loads.root p s before).same le_rfl
    · rfl
    · have other : Domain.rootPort p ≠ d := by
        rintro rfl
        cases tt
      exact congrArg BwTable.bwUsed (Function.update_of_ne other ..)
    · rw [high, load]
      exact fun high => ⟨high, le_rfl⟩
  · apply updated (fun _ t => t.ssBwIn ≤ 3515 ∧ t.ssBwOut ≤ 3515)
    · exact ⟨Nat.zero_le _, Nat.zero_le _⟩
    · exact fun d' _ => loads.ss d'

theorem Inv.initial : Inv .initial ∧ Loads .initial := by
  have nothing : ∀ id, ¬Host.initial.periodic id := fun id => nothing_in rfl id.2
  have none : Host.initial.accounted = ∅ := accounted_eq fun id => iff_of_false (Finset.notMem_empty id) (nothing id)
  have nowhere : ∀ id d, Host.initial.domain id ≠ some d := by
    intro id d own
    cases own
  refine ⟨⟨⟨fun _ => (0, 0), ?_⟩, fun slot => nothing _, fun _ => by simp [Host.info, Host.initial, clearBwInfo], ⟨?_, ?_⟩⟩,
    ⟨?_, ?_, fun d => ⟨Nat.zero_le _, Nat.zero_le _⟩⟩⟩
  · rw [none]
    have here : ∀ d, Host.initial.here ∅ d = ∅ := fun d => Finset.filter_empty _
    have supers : ∀ d, Host.initial.supers ∅ d = ∅ := fun d => Finset.filter_empty _
    constructor
    · exact fun id listed => absurd listed (Finset.notMem_empty id)
    · exact fun id listed => absurd listed (Finset.notMem_empty id)
    · intro d
      rw [here]
      exact emptyTable_tally _ _
    · intro d
      rw [supers]
      rfl
    · intro d
      rw [supers]
      rfl
    · intro d
      rw [here]
      exact (ite_self _).symm
  · exact fun id d own => absurd own (nowhere id d)
  · exact fun id _ d _ own => absurd own (nowhere id d)
  · exact fun id d own => absurd own (nowhere id d)
  · intro p s busy
    have idle : s = ∅ := by
      rw [Finset.eq_empty_iff_forall_notMem]
      exact fun d listed => (busy d listed).2.2 rfl
    subst idle
    have empty : Host.initial.load (.rootPort p) = 0 := load_empty fun id => nowhere id _
    rw [rootLoad_iff, empty, Finset.card_empty]
    omega

end Devices

theorem Inv.step {hciVersion : ℕ} {op : Op} (inv : Inv h) (allowed : h.Allowed op) : Kept h (h.step hciVersion op) := by
  cases op with
  | setupDevice slot speed domain => exact inv.setup allowed
  | reserveBandwidth slot request => exact inv.reserve allowed
  | resetDevice slot => exact inv.reset slot
  | freeDevice slot => exact inv.free allowed
  | allocTtInfo domain => exact inv.allocTt allowed

theorem Inv.reachable {hciVersion : ℕ} (reachable : Host.Reachable hciVersion h) : Inv h :=
  reachable.invariant (fun _ new => new ▸ Inv.initial.1) fun _ _ inv allowed => (inv.step allowed).inv

theorem Loads.exact {hciVersion : ℕ} (reachable : Host.Exact hciVersion h) : Inv h ∧ Loads h := by
  apply reachable.invariant (P := fun h => Inv h ∧ Loads h)
  · rintro _ rfl
    exact Inv.initial
  · rintro h op ⟨inv, loads⟩ ⟨allowed, small⟩
    have kept : Kept h (h.step hciVersion op) := inv.step allowed
    exact ⟨kept.inv, kept.loads small loads⟩

/-! ### Whatever happens -/

section Runs
variable {hciVersion : ℕ}

/-- The tables list what is accounted for, and their counters sum it up. -/
theorem tables_tally (reachable : Host.Reachable hciVersion h) (d : Domain) :
    (h.table d).Tally h.info h.speed (h.here h.accounted d) ∧
    (h.activeEps d = if d.isTt then ((h.here h.accounted d).card : ℤ) else 0) ∧
    ∑ id ∈ h.supers h.accounted d with h.syncIn id, h.consumed id ≤ (h.table d).ssBwIn ∧
    ∑ id ∈ h.supers h.accounted d with ¬h.syncIn id, h.consumed id ≤ (h.table d).ssBwOut := by
  obtain ⟨base, sound⟩ := (Inv.reachable reachable).sound
  refine ⟨sound.tally d, sound.active d, ?_, ?_⟩
  · rw [sound.ssIn]
    exact Nat.le_add_left _ _
  · rw [sound.ssOut]
    exact Nat.le_add_left _ _

/-- A microphone at each of the endpoints with a flag. There is room for two, but not for
    five. -/
def microphones (addFlags : BitVec 32) : Request := ⟨addFlags, 0, fun _ => microphone, fun _ => 0x1000⟩

def camera : Host := Host.initial.setupDevice 1 .high (.rootPort 0)

theorem camera_allowed_setup : Host.Allowed .initial (.setupDevice 1 .high (.rootPort 0)) := by
  refine ⟨rfl, fun behind => ?_, fun id d own => ?_⟩
  · cases behind
  · cases own

theorem camera_reachable : Host.Reachable 0x100 camera := by
  have begins : Host.Reachable 0x100 .initial := .first rfl
  exact begins.step _ camera_allowed_setup

theorem camera_allowed (addFlags : BitVec 32) : camera.Allowed (.reserveBandwidth 1 (microphones addFlags)) := by
  intro i _ _
  rw [Host.periodic, camera, (setup_reads Host.initial 1 .high (.rootPort 0) (1, i)).1, if_pos rfl]
  decide

def recording : Host := camera.step 0x100 (.reserveBandwidth 1 (microphones 0xc))

theorem recording_reachable : Host.Reachable 0x100 recording := camera_reachable.step _ (camera_allowed 0xc)

theorem tables_tally_recording : (recording.table (.rootPort 0)).Tally recording.info recording.speed
      (recording.here recording.accounted (.rootPort 0)) ∧
    (recording.activeEps (.rootPort 0) = if (Domain.rootPort 0).isTt then
      ((recording.here recording.accounted (.rootPort 0)).card : ℤ) else 0) ∧
    ∑ id ∈ recording.supers recording.accounted (.rootPort 0) with recording.syncIn id, recording.consumed id ≤
      (recording.table (.rootPort 0)).ssBwIn ∧
    ∑ id ∈ recording.supers recording.accounted (.rootPort 0) with ¬recording.syncIn id, recording.consumed id ≤
      (recording.table (.rootPort 0)).ssBwOut := tables_tally recording_reachable (.rootPort 0)

/-- No domain is given more than its share, translators that are active have room on their
    high-speed bus, and SuperSpeed endpoints take no more than nine tenths. -/
theorem load_bounded (reachable : Host.Exact hciVersion h) :
    (∀ id d, h.domain id = some d → h.speed id ≠ .super → h.load d ≤ 2 ^ 16 * share (h.speed id)) ∧
    (∀ p s, h.Active p s → h.High p → h.load (.rootPort p) + ttLoad s.card ≤ 2 ^ 16 * (getBlockSize .high * hsBwLimit)) ∧
    ∀ d, ∑ id ∈ h.supers h.accounted d with h.syncIn id, h.consumed id ≤ 3515 ∧
      ∑ id ∈ h.supers h.accounted d with ¬h.syncIn id, h.consumed id ≤ 3515 := by
  obtain ⟨⟨⟨base, sound⟩, -, -, -⟩, share, root, ss⟩ := Loads.exact reachable
  refine ⟨share, fun p s busy high => (root p s busy).total high, ?_⟩
  intro d
  have sumIn := sound.ssIn d
  have sumOut := sound.ssOut d
  obtain ⟨fewIn, fewOut⟩ := ss d
  omega

theorem recording_exact : Host.Exact 0x100 recording := by
  have begins : Host.Exact 0x100 .initial := .first rfl
  have small : ∀ h : Host, (∀ p, h.numActiveTts p = 0) → (∀ p, (h.table (.rootPort p)).bwUsed = 0) → h.Small := by
    intro h tts used p
    rw [tts, used]
    decide
  have setup := begins.step _ ⟨camera_allowed_setup, small _ (fun _ => rfl) fun _ => rfl⟩
  exact setup.step _ ⟨camera_allowed 0xc, small _ (fun _ => rfl) fun _ => rfl⟩

theorem load_bounded_recording :
    (∀ id d, recording.domain id = some d → recording.speed id ≠ .super → recording.load d ≤ 2 ^ 16 * share (recording.speed id)) ∧
    (∀ p s, recording.Active p s → recording.High p →
      recording.load (.rootPort p) + ttLoad s.card ≤ 2 ^ 16 * (getBlockSize .high * hsBwLimit)) ∧
    ∀ d, ∑ id ∈ recording.supers recording.accounted d with recording.syncIn id, recording.consumed id ≤ 3515 ∧
      ∑ id ∈ recording.supers recording.accounted d with ¬recording.syncIn id, recording.consumed id ≤ 3515 :=
  load_bounded recording_exact

/-- A reservation that fails leaves nothing behind. -/
theorem reserve_reverts (reachable : Host.Reachable hciVersion h) (slot : Fin 256) (request : Request)
    (allowed : h.Allowed (.reserveBandwidth slot request)) (failed : (h.reserve hciVersion slot request).2 ≠ 0) :
    Restored h (h.reserve hciVersion slot request).1 := by
  have inv := Inv.reachable reachable
  obtain ⟨base, sound⟩ := inv.sound
  cases found : h.devs slot with
  | none =>
    rw [Host.reserve, found]
    exact restored sound sound (.refl h) rfl
  | some dev =>
    have fits := fits_of_allowed hciVersion sound (inv.ep0 slot) found allowed
    rw [reserve_eq found] at failed ⊢
    exact (reserve_failed sound (fun _ => mem_accounted) found fits failed).2

/-- The endpoint of one microphone is dropped, that of the other one is changed, and there
    are four more. -/
def moreMicrophones : Request := { microphones 0xf8 with dropFlags := 0xc }

theorem reserve_reverts_recording : Restored recording (recording.reserve 0x100 1 moreMicrophones).1 := by
  have allowed : recording.Allowed (.reserveBandwidth 1 moreMicrophones) := by
    show ∀ i : Fin 31, EndpointConfig.has 0xf8#32 i = true → EndpointConfig.has 0xc#32 i = false → ¬recording.periodic (1, i)
    decide +kernel
  exact reserve_reverts recording_reachable 1 moreMicrophones allowed (by decide +kernel)

end Runs

end Invariant

end Ehub.Bandwidth
