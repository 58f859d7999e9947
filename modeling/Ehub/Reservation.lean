import Mathlib
import Ehub.Bandwidth

/-!
Reservations (`xhci_reserve_bandwidth`). The endpoints that are accounted for are a set;
every table lists those of its domain and sums them up (`Sound`). Taking an endpoint out of
its table and putting it in change the set by that endpoint (`Sound.drop`, `Sound.add`), and
each of the loops goes over the endpoints of one device and leaves all others as they are
(`Visited`). In the end the endpoints accounted for are those with a periodic type again.
-/
namespace Ehub.Bandwidth
open Ehub.EndpointContext

namespace Host
variable (h : Host)

def speed (id : EpId) : Speed :=
  match h.devs id.1 with
  | some dev => dev.speed
  | none => .low

def domain (id : EpId) : Option Domain := (h.devs id.1).map VirtDevice.domain

def periodic (id : EpId) : Prop := isAsyncEp (h.info id).type = false

instance decidablePeriodic (id : EpId) : Decidable (h.periodic id) := inferInstanceAs (Decidable (_ = _))

/-- The endpoints of a set that are listed in the table of a domain. -/
def here (A : Finset EpId) (d : Domain) : Finset EpId := {id ∈ A | h.domain id = some d ∧ h.speed id ≠ .super}

/-- Those that the table only counts. -/
def supers (A : Finset EpId) (d : Domain) : Finset EpId := {id ∈ A | h.domain id = some d ∧ h.speed id = .super}

def syncIn (id : EpId) : Prop := isSyncInEp (h.info id).type = true

instance decidableSyncIn (id : EpId) : Decidable (h.syncIn id) := inferInstanceAs (Decidable (_ = _))

def consumed (id : EpId) : ℕ := getSsBwConsumed (h.info id)

end Host

/-- The endpoints of a set are accounted for in the tables. What the SuperSpeed counters
    show besides (`base`) belongs to endpoints that have gone without being taken out. -/
structure Sound (h : Host) (base : Domain → ℕ × ℕ) (A : Finset EpId) : Prop where
  periodic : ∀ id ∈ A, h.periodic id
  inside : ∀ id ∈ A, h.speed id ≠ .super → place h.info h.speed id < 16
  tally : ∀ d, (h.table d).Tally h.info h.speed (h.here A d)
  ssIn : ∀ d, (h.table d).ssBwIn = (base d).1 + ∑ id ∈ h.supers A d with h.syncIn id, h.consumed id
  ssOut : ∀ d, (h.table d).ssBwOut = (base d).2 + ∑ id ∈ h.supers A d with ¬h.syncIn id, h.consumed id
  active : ∀ d, h.activeEps d = if d.isTt then ((h.here A d).card : ℤ) else 0

/-- The devices stay where they are, and nothing is reserved or given back yet. -/
structure Frame (h h' : Host) : Prop where
  speed : h'.speed = h.speed
  domain : h'.domain = h.domain
  used : ∀ d, (h'.table d).bwUsed = (h.table d).bwUsed
  tts : h'.numActiveTts = h.numActiveTts

theorem Frame.refl (h : Host) : Frame h h := ⟨rfl, rfl, fun _ => rfl, rfl⟩

theorem Frame.trans {h h' h'' : Host} (first : Frame h h') (second : Frame h' h'') : Frame h h'' where
  speed := second.speed.trans first.speed
  domain := second.domain.trans first.domain
  used d := (second.used d).trans (first.used d)
  tts := second.tts.trans first.tts

section Step
variable {h : Host} {base : Domain → ℕ × ℕ} {A : Finset EpId} {id : EpId} {d : Domain}

/-- Nothing changes but what is read of endpoints that are not accounted for. -/
theorem Sound.congr {h' : Host} (sound : Sound h base A) (tables : h'.table = h.table) (active : h'.activeEps = h.activeEps)
    (same : ∀ id ∈ A, h'.info id = h.info id ∧ h'.speed id = h.speed id ∧ h'.domain id = h.domain id) : Sound h' base A := by
  have hereSame : ∀ d, h'.here A d = h.here A d := by
    intro d
    apply Finset.filter_congr
    intro id listed
    rw [(same id listed).2.1, (same id listed).2.2]
  have supersSame : ∀ d, h'.supers A d = h.supers A d := by
    intro d
    apply Finset.filter_congr
    intro id listed
    rw [(same id listed).2.1, (same id listed).2.2]
  have dir : ∀ id ∈ A, h'.syncIn id ↔ h.syncIn id := by
    intro id listed
    unfold Host.syncIn
    rw [(same id listed).1]
  have amount : ∀ id ∈ A, h'.consumed id = h.consumed id := by
    intro id listed
    unfold Host.consumed
    rw [(same id listed).1]
  have inA : ∀ {d id}, id ∈ h.supers A d → id ∈ A := fun listed => Finset.mem_of_mem_filter _ listed
  constructor
  · intro id listed
    unfold Host.periodic
    rw [(same id listed).1]
    exact sound.periodic id listed
  · intro id listed
    unfold place
    rw [(same id listed).1, (same id listed).2.1]
    exact sound.inside id listed
  · intro d
    rw [tables, hereSame]
    apply (sound.tally d).congr
    intro id listed
    obtain ⟨info, speed, -⟩ := same id (Finset.mem_of_mem_filter _ listed)
    exact ⟨info, speed⟩
  · intro d
    rw [tables, sound.ssIn, supersSame, Finset.sum_filter, Finset.sum_filter]
    congr 1
    apply Finset.sum_congr rfl
    intro id listed
    exact if_congr (dir id (inA listed)).symm (amount id (inA listed)).symm rfl
  · intro d
    rw [tables, sound.ssOut, supersSame, Finset.sum_filter, Finset.sum_filter]
    congr 1
    apply Finset.sum_congr rfl
    intro id listed
    exact if_congr (not_congr (dir id (inA listed)).symm) (amount id (inA listed)).symm rfl
  · intro d
    rw [active, sound.active, hereSame]

/-! ### The set of a domain -/

theorem here_insert_own (own : h.domain id = some d) (other : h.speed id ≠ .super) :
    h.here (insert id A) d = insert id (h.here A d) := by
  unfold Host.here
  rw [Finset.filter_insert, if_pos ⟨own, other⟩]

theorem here_insert_of_ne {d' : Domain} (apart : h.domain id ≠ some d' ∨ h.speed id = .super) :
    h.here (insert id A) d' = h.here A d' := by
  unfold Host.here
  rw [Finset.filter_insert, if_neg]
  rintro ⟨own, other⟩
  rcases apart with apart | apart
  · exact apart own
  · exact other apart

theorem supers_insert_own (own : h.domain id = some d) (super : h.speed id = .super) :
    h.supers (insert id A) d = insert id (h.supers A d) := by
  unfold Host.supers
  rw [Finset.filter_insert, if_pos ⟨own, super⟩]

theorem supers_insert_of_ne {d' : Domain} (apart : h.domain id ≠ some d' ∨ h.speed id ≠ .super) :
    h.supers (insert id A) d' = h.supers A d' := by
  unfold Host.supers
  rw [Finset.filter_insert, if_neg]
  rintro ⟨own, super⟩
  rcases apart with apart | apart
  · exact apart own
  · exact apart super

theorem updated (P : Domain → BwTable → Prop) {f : Domain → BwTable} {t : BwTable} (own : P d t)
    (others : ∀ d', d' ≠ d → P d' (f d')) (d' : Domain) : P d' (Function.update f d t d') := by
  by_cases same : d' = d
  · subst same
    rwa [Function.update_self]
  · rw [Function.update_of_ne same]
    exact others d' same

/-- A table of a domain is replaced by one that lists the endpoints of another set. -/
theorem Sound.relist {A' : Finset EpId} {t : BwTable} {change : ℤ} (sound : Sound h base A)
    (periodic : ∀ id ∈ A', h.periodic id) (inside : ∀ id ∈ A', h.speed id ≠ .super → place h.info h.speed id < 16)
    (others : ∀ d', d' ≠ d → h.here A' d' = h.here A d') (supers : ∀ d', h.supers A' d' = h.supers A d')
    (tally : t.Tally h.info h.speed (h.here A' d)) (ss : t.ssBwIn = (h.table d).ssBwIn ∧ t.ssBwOut = (h.table d).ssBwOut)
    (count : ((h.here A' d).card : ℤ) = (h.here A d).card + change) : Sound ((h.setTable d t).countEp d change) base A' where
  periodic := periodic
  inside := inside
  tally := by
    apply updated (fun d' t => t.Tally h.info h.speed (h.here A' d')) tally
    intro d' other
    rw [others d' other]
    exact sound.tally d'
  ssIn d' := by
    change (Function.update h.table d t d').ssBwIn = _ + ∑ id ∈ h.supers A' d' with h.syncIn id, h.consumed id
    rw [supers, ← sound.ssIn]
    exact updated (fun d' t => t.ssBwIn = (h.table d').ssBwIn) ss.1 (fun _ _ => rfl) d'
  ssOut d' := by
    change (Function.update h.table d t d').ssBwOut = _ + ∑ id ∈ h.supers A' d' with ¬h.syncIn id, h.consumed id
    rw [supers, ← sound.ssOut]
    exact updated (fun d' t => t.ssBwOut = (h.table d').ssBwOut) ss.2 (fun _ _ => rfl) d'
  active d' := by
    change (if d.isTt then Function.update h.activeEps d (h.activeEps d + change) else h.activeEps) d' =
      if d'.isTt then ((h.here A' d').card : ℤ) else 0
    by_cases same : d' = d
    · subst same
      cases behind : d'.isTt with
      | false => simpa [behind] using sound.active d'
      | true => simp [sound.active, behind, count]
    · rw [others d' same, ← sound.active]
      split
      · exact Function.update_of_ne same ..
      · rfl

/-- The SuperSpeed counters of a domain are replaced by those of another set. -/
theorem Sound.recount {A' : Finset EpId} {t : BwTable} (sound : Sound h base A)
    (periodic : ∀ id ∈ A', h.periodic id) (inside : ∀ id ∈ A', h.speed id ≠ .super → place h.info h.speed id < 16)
    (here : ∀ d', h.here A' d' = h.here A d') (others : ∀ d', d' ≠ d → h.supers A' d' = h.supers A d')
    (lists : t.intervalBw = (h.table d).intervalBw ∧ t.interval0EsitPayload = (h.table d).interval0EsitPayload)
    (ssIn : t.ssBwIn = (base d).1 + ∑ id ∈ h.supers A' d with h.syncIn id, h.consumed id)
    (ssOut : t.ssBwOut = (base d).2 + ∑ id ∈ h.supers A' d with ¬h.syncIn id, h.consumed id) : Sound (h.setTable d t) base A' where
  periodic := periodic
  inside := inside
  tally := by
    have same : t.Tally h.info h.speed (h.here A' d) := by
      obtain ⟨mem, nodup, sorted, packets, overhead, payload⟩ := sound.tally d
      rw [here]
      constructor
      all_goals first | rw [lists.2] | rw [lists.1]
      · exact mem
      · exact nodup
      · exact sorted
      · exact packets
      · exact overhead
      · exact payload
    apply updated (fun d' t => t.Tally h.info h.speed (h.here A' d')) same
    intro d' _
    rw [here]
    exact sound.tally d'
  ssIn := by
    apply updated (fun d' t => t.ssBwIn = (base d').1 + ∑ id ∈ h.supers A' d' with h.syncIn id, h.consumed id) ssIn
    intro d' other
    rw [others d' other]
    exact sound.ssIn d'
  ssOut := by
    apply updated (fun d' t => t.ssBwOut = (base d').2 + ∑ id ∈ h.supers A' d' with ¬h.syncIn id, h.consumed id) ssOut
    intro d' other
    rw [others d' other]
    exact sound.ssOut d'
  active d' := by
    change h.activeEps d' = if d'.isTt then ((h.here A' d').card : ℤ) else 0
    rw [here]
    exact sound.active d'

/-! ### One endpoint -/

theorem frame_setTable {t : BwTable} (used : t.bwUsed = (h.table d).bwUsed) : Frame h (h.setTable d t) where
  speed := rfl
  domain := rfl
  used := updated (fun d' t => t.bwUsed = (h.table d').bwUsed) used (fun _ _ => rfl)
  tts := rfl

theorem frame_drop (h : Host) (epBw : BwInfo) (d : Domain) (speed : Speed) (id : EpId) :
    Frame h (h.dropEpFromIntervalTable epBw d speed id) ∧ (h.dropEpFromIntervalTable epBw d speed id).info = h.info := by
  unfold Host.dropEpFromIntervalTable
  dsimp only
  split_ifs
  · exact ⟨.refl h, rfl⟩
  · exact ⟨frame_setTable rfl, rfl⟩
  · exact ⟨frame_setTable rfl, rfl⟩
  · exact ⟨.refl h, rfl⟩
  · obtain ⟨speed, domain, used, tts⟩ := frame_setTable (h := h) (d := d) (t := (h.table d).dropEp epBw speed id) rfl
    exact ⟨⟨speed, domain, used, tts⟩, rfl⟩

theorem frame_add (h : Host) (epBw : BwInfo) (d : Domain) (speed : Speed) (id : EpId) :
    Frame h (h.addEpToIntervalTable epBw d speed id) ∧ (h.addEpToIntervalTable epBw d speed id).info = h.info := by
  unfold Host.addEpToIntervalTable
  dsimp only
  split_ifs
  · exact ⟨.refl h, rfl⟩
  · exact ⟨frame_setTable rfl, rfl⟩
  · exact ⟨frame_setTable rfl, rfl⟩
  · obtain ⟨speed, domain, used, tts⟩ := frame_setTable (h := h) (d := d)
      (t := (h.table d).addEp epBw speed id fun other => (h.info other).maxPacketSize) rfl
    exact ⟨⟨speed, domain, used, tts⟩, rfl⟩

/-- A periodic endpoint that is put into its table is accounted for. -/
theorem Sound.add (sound : Sound h base A) (fresh : id ∉ A) (own : h.domain id = some d) (periodic : h.periodic id)
    (inside : h.speed id ≠ .super → place h.info h.speed id < 16) :
    Sound (h.addEpToIntervalTable (h.info id) d (h.speed id) id) base (insert id A) := by
  have allPeriodic : ∀ j ∈ insert id A, h.periodic j := by
    intro j listed
    rcases Finset.mem_insert.mp listed with rfl | listed
    · exact periodic
    · exact sound.periodic j listed
  have allInside : ∀ j ∈ insert id A, h.speed j ≠ .super → place h.info h.speed j < 16 := by
    intro j listed
    rcases Finset.mem_insert.mp listed with rfl | listed
    · exact inside
    · exact sound.inside j listed
  have sync : isAsyncEp (h.info id).type = false := periodic
  have elsewhere : ∀ d', d' ≠ d → h.domain id ≠ some d' := by
    rintro d' other same
    rw [own, Option.some.injEq] at same
    exact other same.symm
  have out : ∀ d, id ∉ h.here A d := fun d listed => fresh (Finset.mem_of_mem_filter _ listed)
  have outSupers : ∀ d, id ∉ h.supers A d := fun d listed => fresh (Finset.mem_of_mem_filter _ listed)
  unfold Host.addEpToIntervalTable
  rw [sync, if_neg (by decide)]
  by_cases super : h.speed id = .super
  · rw [if_pos super]
    have apart : ∀ d', h.here (insert id A) d' = h.here A d' := fun d' => here_insert_of_ne (.inr super)
    have rest : ∀ d', d' ≠ d → h.supers (insert id A) d' = h.supers A d' := fun d' other =>
      supers_insert_of_ne (.inl (elsewhere d' other))
    cases direction : isSyncInEp (h.info id).type with
    | true =>
      have isIn : h.syncIn id := direction
      rw [if_pos rfl]
      refine sound.recount allPeriodic allInside apart rest ?_ ?_ ?_
      · exact ⟨rfl, rfl⟩
      · rw [supers_insert_own own super, sum_insert_at _ (outSupers d), if_pos isIn, ← add_assoc, ← sound.ssIn]
        rfl
      · rw [supers_insert_own own super, sum_insert_at _ (outSupers d), if_neg (not_not.mpr isIn), add_zero, ← sound.ssOut]
    | false =>
      have isOut : ¬h.syncIn id := by
        unfold Host.syncIn
        rw [direction]
        decide
      rw [if_neg (by decide)]
      refine sound.recount allPeriodic allInside apart rest ?_ ?_ ?_
      · exact ⟨rfl, rfl⟩
      · rw [supers_insert_own own super, sum_insert_at _ (outSupers d), if_neg isOut, add_zero, ← sound.ssIn]
      · rw [supers_insert_own own super, sum_insert_at _ (outSupers d), if_pos isOut, ← add_assoc, ← sound.ssOut]
        rfl
  · rw [if_neg super]
    apply sound.relist allPeriodic allInside
    · intro d' other
      exact here_insert_of_ne (.inl (elsewhere d' other))
    · intro d'
      exact supers_insert_of_ne (.inr super)
    · rw [here_insert_own own super]
      exact (sound.tally d).addEp (out d)
    · exact ⟨rfl, rfl⟩
    · rw [here_insert_own own super, Finset.card_insert_of_notMem (out d)]
      push_cast
      rfl

/-- An endpoint that is taken out of its table is not accounted for any more, and nothing
    is taken out for an endpoint that is not periodic. -/
theorem Sound.drop (sound : Sound h base A) (own : h.domain id = some d) (known : id ∈ A ∨ ¬h.periodic id) :
    Sound (h.dropEpFromIntervalTable (h.info id) d (h.speed id) id) base (A.erase id) := by
  by_cases listed : id ∈ A
  · have sync : isAsyncEp (h.info id).type = false := sound.periodic id listed
    have allPeriodic : ∀ j ∈ A.erase id, h.periodic j := fun j kept => sound.periodic j (Finset.mem_of_mem_erase kept)
    have allInside : ∀ j ∈ A.erase id, h.speed j ≠ .super → place h.info h.speed j < 16 := fun j kept =>
      sound.inside j (Finset.mem_of_mem_erase kept)
    have elsewhere : ∀ d', d' ≠ d → h.domain id ≠ some d' := by
      rintro d' other same
      rw [own, Option.some.injEq] at same
      exact other same.symm
    -- the set before is the set after and the endpoint
    have whole : insert id (A.erase id) = A := Finset.insert_erase listed
    have out : ∀ d, id ∉ h.here (A.erase id) d := fun d kept => Finset.notMem_erase id A (Finset.mem_of_mem_filter _ kept)
    have outSupers : ∀ d, id ∉ h.supers (A.erase id) d := fun d kept =>
      Finset.notMem_erase id A (Finset.mem_of_mem_filter _ kept)
    unfold Host.dropEpFromIntervalTable
    rw [sync, if_neg (by decide)]
    by_cases super : h.speed id = .super
    · rw [if_pos super]
      have apart : ∀ d', h.here (A.erase id) d' = h.here A d' := by
        intro d'
        rw [← here_insert_of_ne (A := A.erase id) (.inr super), whole]
      have rest : ∀ d', d' ≠ d → h.supers (A.erase id) d' = h.supers A d' := by
        intro d' other
        rw [← supers_insert_of_ne (A := A.erase id) (.inl (elsewhere d' other)), whole]
      have before : h.supers A d = insert id (h.supers (A.erase id) d) := by
        rw [← supers_insert_own own super, whole]
      have inBefore := sound.ssIn d
      have outBefore := sound.ssOut d
      rw [before, sum_insert_at _ (outSupers d)] at inBefore outBefore
      cases direction : isSyncInEp (h.info id).type with
      | true =>
        have isIn : h.syncIn id := direction
        rw [if_pos isIn] at inBefore
        rw [if_neg (not_not.mpr isIn), add_zero] at outBefore
        rw [if_pos rfl]
        refine sound.recount allPeriodic allInside apart rest ?_ ?_ outBefore
        · exact ⟨rfl, rfl⟩
        · change (h.table d).ssBwIn - h.consumed id = _
          rw [inBefore, ← add_assoc, Nat.add_sub_cancel]
      | false =>
        have isOut : ¬h.syncIn id := by
          unfold Host.syncIn
          rw [direction]
          decide
        rw [if_neg isOut, add_zero] at inBefore
        rw [if_pos isOut] at outBefore
        rw [if_neg (by decide)]
        refine sound.recount allPeriodic allInside apart rest ?_ inBefore ?_
        · exact ⟨rfl, rfl⟩
        · change (h.table d).ssBwOut - h.consumed id = _
          rw [outBefore, ← add_assoc, Nat.add_sub_cancel]
    · rw [if_neg super]
      have here : id ∈ h.here A d := Finset.mem_filter.mpr ⟨listed, own, super⟩
      have linked : (h.table d).linked id = true := (BwTable.linked_iff (sound.tally d) (fun _ => sound.inside id listed super)).mpr here
      have after : h.here (A.erase id) d = (h.here A d).erase id := by
        unfold Host.here
        rw [Finset.filter_erase]
      rw [linked, if_neg (by decide)]
      apply sound.relist allPeriodic allInside
      · intro d' other
        rw [← here_insert_of_ne (A := A.erase id) (.inl (elsewhere d' other)), whole]
      · intro d'
        rw [← supers_insert_of_ne (A := A.erase id) (.inr super), whole]
      · rw [after]
        exact (sound.tally d).dropEp here
      · exact ⟨rfl, rfl⟩
      · have positive := Finset.card_pos.mpr ⟨id, here⟩
        rw [after, Finset.card_erase_of_mem here]
        omega
  · have async : isAsyncEp (h.info id).type = true := by
      rcases known with known | known
      · exact absurd known listed
      · exact eq_true_of_ne_false known
    rw [Finset.erase_eq_of_notMem listed, Host.dropEpFromIntervalTable, async, if_pos rfl]
    exact sound

end Step

/-! ### Loops over the endpoints of a device -/

/-- Of the endpoints of a slot those in `done` have been visited: `member` says which of
    them are accounted for now, and `f` what they hold. -/
structure Visited (slot : Fin 256) (done : List (Fin 31)) (member : Fin 31 → Prop) (f : Fin 31 → BwInfo)
    (h : Host) (A : Finset EpId) (h' : Host) (A' : Finset EpId) : Prop where
  frame : Frame h h'
  mem : ∀ i, i ∈ done → ((slot, i) ∈ A' ↔ member i)
  info : ∀ i, i ∈ done → h'.info (slot, i) = f i
  others : ∀ id : EpId, id.1 ≠ slot ∨ id.2 ∉ done → (id ∈ A' ↔ id ∈ A) ∧ h'.info id = h.info id

/-- A device is in a slot. -/
def Owns (h : Host) (slot : Fin 256) (d : Domain) (s : Speed) : Prop :=
  ∀ i, h.domain (slot, i) = some d ∧ h.speed (slot, i) = s

section Loops
variable {slot : Fin 256} {d : Domain} {s : Speed} {base : Domain → ℕ × ℕ}

theorem Owns.frame {h h' : Host} (owns : Owns h slot d s) (frame : Frame h h') : Owns h' slot d s := by
  intro i
  rw [frame.domain, frame.speed]
  exact owns i

/-- A loop whose body visits one endpoint visits all of them. -/
theorem visit_all {body : Host → Fin 31 → Host} {member member' : Fin 31 → Prop} {f f' : Fin 31 → BwInfo}
    (one : ∀ h A i, Sound h base A → Owns h slot d s → ((slot, i) ∈ A ↔ member i) → h.info (slot, i) = f i →
      ∃ A', Sound (body h i) base A' ∧ Visited slot [i] member' f' h A (body h i) A') :
    ∀ (l : List (Fin 31)) (h : Host) (A : Finset EpId), l.Nodup → Sound h base A → Owns h slot d s →
      (∀ i ∈ l, ((slot, i) ∈ A ↔ member i) ∧ h.info (slot, i) = f i) →
      ∃ A', Sound (l.foldl body h) base A' ∧ Visited slot l member' f' h A (l.foldl body h) A' := by
  intro l
  induction l with
  | nil =>
    intro h A _ sound _ _
    refine ⟨A, sound, .refl h, ?_, ?_, fun _ _ => ⟨.rfl, rfl⟩⟩
    · intro i listed
      cases listed
    · intro i listed
      cases listed
  | cons i rest ih =>
    intro h A distinct sound owns before
    obtain ⟨fresh, distinct⟩ := List.nodup_cons.mp distinct
    obtain ⟨mem, info⟩ := before i List.mem_cons_self
    obtain ⟨A₁, sound₁, visit⟩ := one h A i sound owns mem info
    have untouched : ∀ j ∈ rest, j ∉ [i] := by
      intro j listed same
      rw [List.mem_singleton] at same
      exact fresh (same ▸ listed)
    obtain ⟨A₂, sound₂, visits⟩ := ih (body h i) A₁ distinct sound₁ (owns.frame visit.frame) (by
      intro j listed
      obtain ⟨mem, info⟩ := visit.others (slot, j) (.inr (untouched j listed))
      rw [mem, info]
      exact before j (List.mem_cons_of_mem _ listed))
    refine ⟨A₂, sound₂, visit.frame.trans visits.frame, ?_, ?_, ?_⟩
    · intro j listed
      rcases List.mem_cons.mp listed with rfl | listed
      · rw [(visits.others (slot, j) (.inr fresh)).1]
        exact visit.mem j (List.mem_singleton_self j)
      · exact visits.mem j listed
    · intro j listed
      rcases List.mem_cons.mp listed with rfl | listed
      · exact (visits.others (slot, j) (.inr fresh)).2.trans (visit.info j (List.mem_singleton_self j))
      · exact visits.info j listed
    · intro id apart
      have first : id.1 ≠ slot ∨ id.2 ∉ [i] := by
        rcases apart with apart | apart
        · exact .inl apart
        · right
          rw [List.mem_singleton]
          rintro rfl
          exact apart List.mem_cons_self
      have later : id.1 ≠ slot ∨ id.2 ∉ rest := by
        rcases apart with apart | apart
        · exact .inl apart
        · exact .inr fun listed => apart (List.mem_cons_of_mem _ listed)
      obtain ⟨mem₁, info₁⟩ := visit.others id first
      obtain ⟨mem₂, info₂⟩ := visits.others id later
      exact ⟨mem₂.trans mem₁, info₂.trans info₁⟩

/-- The whole of a device. -/
theorem visit_device {body : Host → Fin 31 → Host} (member : Fin 31 → Prop) (f : Fin 31 → BwInfo) {member' : Fin 31 → Prop}
    {f' : Fin 31 → BwInfo} {h : Host} {A : Finset EpId}
    (one : ∀ h A i, Sound h base A → Owns h slot d s → ((slot, i) ∈ A ↔ member i) → h.info (slot, i) = f i →
      ∃ A', Sound (body h i) base A' ∧ Visited slot [i] member' f' h A (body h i) A')
    (sound : Sound h base A) (owns : Owns h slot d s) (before : ∀ i, ((slot, i) ∈ A ↔ member i) ∧ h.info (slot, i) = f i) :
    ∃ A', Sound ((List.finRange 31).foldl body h) base A' ∧
      Visited slot (List.finRange 31) member' f' h A ((List.finRange 31).foldl body h) A' :=
  visit_all one (List.finRange 31) h A (List.nodup_finRange 31) sound owns fun i _ => before i

/-- One endpoint has been visited when the set and what is held are as before elsewhere. -/
theorem visited_one {h h' : Host} {A A' : Finset EpId} {i : Fin 31} {member : Fin 31 → Prop} {f : Fin 31 → BwInfo}
    (frame : Frame h h') (mem : (slot, i) ∈ A' ↔ member i) (info : h'.info (slot, i) = f i)
    (others : ∀ id, id ≠ (slot, i) → (id ∈ A' ↔ id ∈ A) ∧ h'.info id = h.info id) : Visited slot [i] member f h A h' A' where
  frame := frame
  mem := by
    intro j listed
    rw [List.mem_singleton] at listed
    subst listed
    exact mem
  info := by
    intro j listed
    rw [List.mem_singleton] at listed
    subst listed
    exact info
  others := by
    intro id apart
    apply others
    rintro rfl
    rw [List.mem_singleton] at apart
    exact apart.elim (fun ne => ne rfl) (fun ne => ne rfl)

/-- What is held of an endpoint changes while it is not accounted for. -/
theorem Sound.setInfo {h : Host} {A : Finset EpId} {f : Fin 31 → BwInfo} (sound : Sound h base A)
    (same : ∀ i, (slot, i) ∈ A → f i = h.info (slot, i)) (there : (h.devs slot).isSome = true) :
    Sound (h.setInfo slot f) base A ∧ Frame h (h.setInfo slot f) ∧
      ∀ id, (h.setInfo slot f).info id = if id.1 = slot then f id.2 else h.info id := by
  obtain ⟨dev, found⟩ := Option.isSome_iff_exists.mp there
  have info : ∀ id, (h.setInfo slot f).info id = if id.1 = slot then f id.2 else h.info id := by
    intro id
    unfold Host.setInfo Host.info
    by_cases own : id.1 = slot
    · simp [own, found]
    · simp [own]
  have speed : (h.setInfo slot f).speed = h.speed := by
    funext id
    unfold Host.setInfo Host.speed
    by_cases own : id.1 = slot
    · simp [own, found]
    · simp [own]
  have domain : (h.setInfo slot f).domain = h.domain := by
    funext id
    unfold Host.setInfo Host.domain
    by_cases own : id.1 = slot
    · simp [own, found]
    · simp [own]
  refine ⟨sound.congr rfl rfl ?_, ⟨speed, domain, fun _ => rfl, rfl⟩, info⟩
  intro id listed
  rw [info, speed, domain]
  refine ⟨?_, rfl, rfl⟩
  by_cases own : id.1 = slot
  · obtain ⟨_, i⟩ := id
    subst own
    rw [if_pos rfl]
    exact same i listed
  · rw [if_neg own]

theorem mem_erase_other {A : Finset EpId} {id j : EpId} (other : id ≠ j) : id ∈ A.erase j ↔ id ∈ A := by
  rw [Finset.mem_erase]
  exact and_iff_right other

theorem mem_insert_other {A : Finset EpId} {id j : EpId} (other : id ≠ j) : id ∈ insert j A ↔ id ∈ A := by
  rw [Finset.mem_insert]
  exact or_iff_right other

/-! ### The loops of a reservation -/

variable {h : Host} {A : Finset EpId} {i : Fin 31} {dev : VirtDevice} {ctx : InputCtx}

theorem Owns.there (owns : Owns h slot d s) : (h.devs slot).isSome = true := by
  have found := (owns 0).1
  unfold Host.domain at found
  rw [Option.map_eq_some_iff] at found
  obtain ⟨dev, found, -⟩ := found
  exact Option.isSome_of_eq_some found

/-- The endpoint of a device leaves its table. -/
theorem drop_visited (sound : Sound h base A) (owns : Owns h slot d s)
    (known : (slot, i) ∈ A ∨ ¬h.periodic (slot, i)) :
    ∃ A', Sound (h.dropEpFromIntervalTable (h.info (slot, i)) d s (slot, i)) base A' ∧
      Visited slot [i] (fun _ => False) (fun j => h.info (slot, j)) h A
        (h.dropEpFromIntervalTable (h.info (slot, i)) d s (slot, i)) A' := by
  obtain ⟨own, speed⟩ := owns i
  obtain ⟨frame, info⟩ := frame_drop h (h.info (slot, i)) d s (slot, i)
  subst speed
  refine ⟨A.erase (slot, i), sound.drop own known, visited_one frame ?_ ?_ ?_⟩
  · simp
  · rw [info]
  · intro id other
    rw [info]
    exact ⟨mem_erase_other other, rfl⟩

/-- An endpoint of a device enters its table if it is periodic. -/
theorem add_visited (sound : Sound h base A) (owns : Owns h slot d s) (fresh : (slot, i) ∉ A)
    (inside : h.periodic (slot, i) → s ≠ .super → normalizedInterval s (h.info (slot, i)).epInterval < 16) :
    ∃ A', Sound (h.addEpToIntervalTable (h.info (slot, i)) d s (slot, i)) base A' ∧
      Visited slot [i] (fun j => h.periodic (slot, j)) (fun j => h.info (slot, j)) h A
        (h.addEpToIntervalTable (h.info (slot, i)) d s (slot, i)) A' := by
  obtain ⟨own, speed⟩ := owns i
  obtain ⟨frame, info⟩ := frame_add h (h.info (slot, i)) d s (slot, i)
  subst speed
  by_cases periodic : h.periodic (slot, i)
  · refine ⟨insert (slot, i) A, sound.add fresh own periodic (inside periodic), visited_one frame ?_ ?_ ?_⟩
    · simp [periodic]
    · rw [info]
    · intro id other
      rw [info]
      exact ⟨mem_insert_other other, rfl⟩
  · have async : isAsyncEp (h.info (slot, i)).type = true := eq_true_of_ne_false periodic
    have unchanged : h.addEpToIntervalTable (h.info (slot, i)) d (h.speed (slot, i)) (slot, i) = h := by
      rw [Host.addEpToIntervalTable, async, if_pos rfl]
    rw [unchanged]
    refine ⟨A, sound, visited_one (.refl h) ?_ rfl fun _ _ => ⟨.rfl, rfl⟩⟩
    simp [periodic, fresh]

/-- Nothing happens. -/
theorem stay_visited (sound : Sound h base A) {member : Fin 31 → Prop} {f : Fin 31 → BwInfo}
    (mem : (slot, i) ∈ A ↔ member i) (info : h.info (slot, i) = f i) :
    ∃ A', Sound h base A' ∧ Visited slot [i] member f h A h A' :=
  ⟨A, sound, visited_one (.refl h) mem info fun _ _ => ⟨.rfl, rfl⟩⟩

theorem Visited.change {h' : Host} {A' : Finset EpId} {member member' : Fin 31 → Prop} {f f' : Fin 31 → BwInfo}
    (visited : Visited slot [i] member f h A h' A') (mem : member i ↔ member' i) (info : f i = f' i) :
    Visited slot [i] member' f' h A h' A' where
  frame := visited.frame
  mem := by
    intro j listed
    rw [visited.mem j listed]
    rw [List.mem_singleton] at listed
    subst listed
    exact mem
  info := by
    intro j listed
    rw [visited.info j listed]
    rw [List.mem_singleton] at listed
    subst listed
    exact info
  others := visited.others

theorem Visited.trans {h' h'' : Host} {A' A'' : Finset EpId} {member member' : Fin 31 → Prop} {f f' : Fin 31 → BwInfo}
    {done : List (Fin 31)} (first : Visited slot done member f h A h' A') (second : Visited slot done member' f' h' A' h'' A'') :
    Visited slot done member' f' h A h'' A'' where
  frame := first.frame.trans second.frame
  mem := second.mem
  info := second.info
  others := by
    intro id apart
    obtain ⟨mem, info⟩ := first.others id apart
    obtain ⟨mem', info'⟩ := second.others id apart
    exact ⟨mem'.trans mem, info'.trans info⟩

/-- What is held of one endpoint changes while it is not accounted for. -/
theorem set_visited (member : Fin 31 → Prop) {x : BwInfo} (sound : Sound h base A) (owns : Owns h slot d s)
    (out : (slot, i) ∉ A) (no : ¬member i) :
    ∃ A', Sound (h.setInfo slot (Function.update (fun j => h.info (slot, j)) i x)) base A' ∧
      Visited slot [i] member (fun _ => x) h A (h.setInfo slot (Function.update (fun j => h.info (slot, j)) i x)) A' := by
  have same : ∀ j, (slot, j) ∈ A → Function.update (fun j => h.info (slot, j)) i x j = h.info (slot, j) := by
    intro j listed
    have other : j ≠ i := fun eq => out (eq ▸ listed)
    rw [Function.update_of_ne other]
  obtain ⟨sound', frame, info⟩ := sound.setInfo same owns.there
  refine ⟨A, sound', visited_one frame ?_ ?_ ?_⟩
  · exact iff_of_false out no
  · rw [info, if_pos rfl, Function.update_self]
  · intro id other
    refine ⟨.rfl, ?_⟩
    rw [info]
    by_cases own : id.1 = slot
    · have apart : id.2 ≠ i := fun eq => other (Prod.ext own eq)
      rw [if_pos own, Function.update_of_ne apart, ← own]
    · rw [if_neg own]

/-- An endpoint that is added is new or changed, and its interval has a list. -/
structure Fits (dev : VirtDevice) (ctx : InputCtx) : Prop where
  ep0 : isAsyncEp (dev.bwInfo 0).type = true
  fresh : ∀ i, ctx.added i = true → ctx.dropped i = false → isAsyncEp (dev.bwInfo i).type = true
  inside : ∀ i, isAsyncEp (Host.newInfo dev ctx i).type = false → dev.speed ≠ .super →
    normalizedInterval dev.speed (Host.newInfo dev ctx i).epInterval < 16

theorem owns_of_found (found : h.devs slot = some dev) : Owns h slot dev.domain dev.speed := by
  intro i
  unfold Host.domain Host.speed
  rw [found]
  exact ⟨rfl, rfl⟩

theorem info_of_found (found : h.devs slot = some dev) (i : Fin 31) : h.info (slot, i) = dev.bwInfo i := by
  unfold Host.info
  rw [found]

theorem newInfo_of_unflagged (added : ctx.added i = false) (dropped : ctx.dropped i = false) :
    Host.newInfo dev ctx i = dev.bwInfo i := by
  unfold Host.newInfo updateBwInfo
  rw [added, dropped]
  exact ite_self _

theorem newInfo_of_dropped (ep0 : isAsyncEp (dev.bwInfo 0).type = true) (added : ctx.added i = false)
    (dropped : ctx.dropped i = true) : isAsyncEp (Host.newInfo dev ctx i).type = true := by
  unfold Host.newInfo updateBwInfo
  by_cases first : i = 0
  · subst first
    rwa [if_pos rfl]
  · rw [if_neg first, added, dropped]
    rfl

/-- All of the endpoints that are dropped or changed have left the table. -/
theorem dropLoop_spec (ctx : InputCtx) (sound : Sound h base A) (all : ∀ id, id ∈ A ↔ h.periodic id) (found : h.devs slot = some dev) :
    ∃ A', Sound ((List.finRange 31).foldl (Host.dropLoop slot dev ctx) h) base A' ∧
      Visited slot (List.finRange 31) (fun i => isAsyncEp (dev.bwInfo i).type = false ∧ ctx.dropped i = false) dev.bwInfo h A
        ((List.finRange 31).foldl (Host.dropLoop slot dev ctx) h) A' := by
  have owns := owns_of_found found
  refine visit_device (fun i => isAsyncEp (dev.bwInfo i).type = false) dev.bwInfo ?_ sound owns ?_
  · intro h A i sound owns mem info
    unfold Host.dropLoop
    cases dropped : ctx.dropped i with
    | false =>
      apply stay_visited sound
      · rw [mem, dropped, and_iff_left rfl]
      · exact info
    | true =>
      have known : (slot, i) ∈ A ∨ ¬h.periodic (slot, i) := by
        unfold Host.periodic
        rw [info, mem]
        exact em _
      obtain ⟨A', sound', visited⟩ := drop_visited sound owns known
      refine ⟨A', sound', visited.change ?_ info⟩
      rw [dropped]
      simp
  · intro i
    rw [all, Host.periodic, info_of_found found]
    exact ⟨.rfl, rfl⟩

theorem proposed_spec (sound : Sound h base A) (all : ∀ id, id ∈ A ↔ h.periodic id) (found : h.devs slot = some dev)
    (fits : Fits dev ctx) : ∃ A', Sound (h.proposed slot dev ctx) base A' ∧
      Visited slot (List.finRange 31) (fun i => isAsyncEp (Host.newInfo dev ctx i).type = false) (Host.newInfo dev ctx) h A
        (h.proposed slot dev ctx) A' := by
  obtain ⟨A₁, sound₁, dropped⟩ := dropLoop_spec ctx sound all found
  have owns₁ := (owns_of_found found).frame dropped.frame
  -- what is left of the device in the table is not changed
  have kept : ∀ i, (slot, i) ∈ A₁ → Host.newInfo dev ctx i = ((List.finRange 31).foldl (Host.dropLoop slot dev ctx) h).info (slot, i) := by
    intro i listed
    obtain ⟨periodic, notDropped⟩ := (dropped.mem i (List.mem_finRange i)).mp listed
    have notAdded : ctx.added i = false := by
      cases added : ctx.added i with
      | false => rfl
      | true =>
        have async := fits.fresh i added notDropped
        rw [periodic] at async
        cases async
    rw [dropped.info i (List.mem_finRange i), newInfo_of_unflagged notAdded notDropped]
  obtain ⟨sound₂, frame₂, info₂⟩ := sound₁.setInfo kept owns₁.there
  have owns₂ := owns₁.frame frame₂
  obtain ⟨A₃, sound₃, visited⟩ : ∃ A₃, Sound (h.proposed slot dev ctx) base A₃ ∧
      Visited slot (List.finRange 31) (fun i => isAsyncEp (Host.newInfo dev ctx i).type = false) (Host.newInfo dev ctx)
        (((List.finRange 31).foldl (Host.dropLoop slot dev ctx) h).setInfo slot (Host.newInfo dev ctx)) A₁
        (h.proposed slot dev ctx) A₃ := by
    refine visit_device (fun i => isAsyncEp (dev.bwInfo i).type = false ∧ ctx.dropped i = false) (Host.newInfo dev ctx)
      ?_ sound₂ owns₂ ?_
    rotate_left
    · intro i
      refine ⟨dropped.mem i (List.mem_finRange i), ?_⟩
      rw [info₂, if_pos rfl]
    intro h A i sound owns mem info
    unfold Host.addLoop
    cases added : ctx.added i with
    | false =>
      refine stay_visited sound ?_ info
      rw [mem]
      cases dropped : ctx.dropped i with
      | false => rw [newInfo_of_unflagged added dropped, and_iff_left rfl]
      | true =>
        rw [newInfo_of_dropped fits.ep0 added dropped]
        simp
    | true =>
      have fresh : (slot, i) ∉ A := by
        rw [mem]
        rintro ⟨periodic, notDropped⟩
        rw [fits.fresh i added notDropped] at periodic
        cases periodic
      obtain ⟨A', sound', visited⟩ := add_visited sound owns fresh (by
        intro periodic notSuper
        unfold Host.periodic at periodic
        rw [info] at periodic ⊢
        exact fits.inside i periodic notSuper)
      refine ⟨A', sound', visited.change ?_ info⟩
      unfold Host.periodic
      rw [info]
  refine ⟨A₃, sound₃, (dropped.frame.trans frame₂).trans visited.frame, visited.mem, visited.info, ?_⟩
  intro id apart
  have other : id.1 ≠ slot := by
    rcases apart with apart | apart
    · exact apart
    · exact absurd (List.mem_finRange _) apart
  obtain ⟨mem, info⟩ := visited.others id (.inl other)
  obtain ⟨mem', info'⟩ := dropped.others id (.inl other)
  refine ⟨mem.trans mem', info.trans ?_⟩
  rw [info₂, if_neg other, info']

/-- Everything is as it was before. -/
theorem revertLoop_spec {saved : Fin 31 → BwInfo} (sound : Sound h base A) (owns : Owns h slot dev.domain dev.speed)
    (before : ∀ i, ((slot, i) ∈ A ↔ isAsyncEp (Host.newInfo dev ctx i).type = false) ∧ h.info (slot, i) = Host.newInfo dev ctx i)
    (copy : saved = dev.bwInfo) (fits : Fits dev ctx)
    (inside : ∀ i, isAsyncEp (saved i).type = false → dev.speed ≠ .super → normalizedInterval dev.speed (saved i).epInterval < 16) :
    ∃ A', Sound ((List.finRange 31).foldl (Host.revertLoop slot dev ctx saved) h) base A' ∧
      Visited slot (List.finRange 31) (fun i => isAsyncEp (saved i).type = false) saved h A
        ((List.finRange 31).foldl (Host.revertLoop slot dev ctx saved) h) A' := by
  refine visit_device (fun i => isAsyncEp (Host.newInfo dev ctx i).type = false) (Host.newInfo dev ctx) ?_ sound owns before
  subst copy
  intro h A i sound owns mem info
  unfold Host.revertLoop
  by_cases flagged : (!ctx.added i && !ctx.dropped i) = true
  · rw [if_pos flagged]
    simp only [Bool.and_eq_true, Bool.not_eq_true'] at flagged
    have same : Host.newInfo dev ctx i = dev.bwInfo i := newInfo_of_unflagged flagged.1 flagged.2
    rw [same] at mem info
    exact stay_visited sound mem info
  · rw [if_neg flagged]
    dsimp only
    -- the endpoint leaves the table, unless it was only dropped and is not in it
    obtain ⟨A₁, sound₁, visited₁⟩ : ∃ A₁, Sound (if ctx.added i then
          h.dropEpFromIntervalTable (h.info (slot, i)) dev.domain dev.speed (slot, i) else h) base A₁ ∧
        Visited slot [i] (fun _ => False) (fun j => h.info (slot, j)) h A (if ctx.added i then
          h.dropEpFromIntervalTable (h.info (slot, i)) dev.domain dev.speed (slot, i) else h) A₁ := by
      cases added : ctx.added i with
      | true =>
        rw [if_pos rfl]
        apply drop_visited sound owns
        unfold Host.periodic
        rw [info, mem]
        exact em _
      | false =>
        have dropped : ctx.dropped i = true := by simpa [added] using flagged
        rw [if_neg (by decide)]
        apply stay_visited sound _ rfl
        rw [mem, newInfo_of_dropped fits.ep0 added dropped]
        simp
    generalize (if ctx.added i then h.dropEpFromIntervalTable (h.info (slot, i)) dev.domain dev.speed (slot, i) else h) = h₁
      at sound₁ visited₁ ⊢
    have owns₁ := owns.frame visited₁.frame
    have out : (slot, i) ∉ A₁ := (visited₁.mem i (List.mem_singleton_self i)).mp
    -- then its old account comes back
    obtain ⟨A₂, sound₂, visited₂⟩ := set_visited (fun _ => False) (x := dev.bwInfo i) sound₁ owns₁ out not_false
    generalize h₁.setInfo slot (Function.update (fun j => h₁.info (slot, j)) i (dev.bwInfo i)) = h₂ at sound₂ visited₂ ⊢
    have owns₂ := owns₁.frame visited₂.frame
    have out : (slot, i) ∉ A₂ := (visited₂.mem i (List.mem_singleton_self i)).mp
    have held : h₂.info (slot, i) = dev.bwInfo i := visited₂.info i (List.mem_singleton_self i)
    cases dropped : ctx.dropped i with
    | true =>
      rw [if_pos rfl]
      obtain ⟨A₃, sound₃, visited₃⟩ := add_visited sound₂ owns₂ out (by
        intro periodic notSuper
        unfold Host.periodic at periodic
        rw [held] at periodic ⊢
        exact inside i periodic notSuper)
      refine ⟨A₃, sound₃, (visited₁.trans visited₂).trans (visited₃.change ?_ held)⟩
      unfold Host.periodic
      rw [held]
    | false =>
      have added : ctx.added i = true := by simpa [dropped] using flagged
      rw [if_neg (by decide)]
      refine ⟨A₂, sound₂, visited₁.trans (visited₂.change ?_ rfl)⟩
      rw [fits.fresh i added dropped]
      simp

end Loops

/-! ### A reservation that fails -/

/-- The devices are as before, and so are the tables, but for the order of endpoints with
    packets of one size. -/
structure Restored (h h' : Host) : Prop where
  devs : h'.devs = h.devs
  activeEps : h'.activeEps = h.activeEps
  numActiveTts : h'.numActiveTts = h.numActiveTts
  used : ∀ d, (h'.table d).bwUsed = (h.table d).bwUsed
  ss : ∀ d, (h'.table d).ssBwIn = (h.table d).ssBwIn ∧ (h'.table d).ssBwOut = (h.table d).ssBwOut
  payload : ∀ d, (h'.table d).interval0EsitPayload = (h.table d).interval0EsitPayload
  lists : ∀ d i, ((h'.table d).intervalBw i).numPackets = ((h.table d).intervalBw i).numPackets ∧
    ((h'.table d).intervalBw i).overhead = ((h.table d).intervalBw i).overhead ∧
    ((h'.table d).intervalBw i).endpoints.Perm ((h.table d).intervalBw i).endpoints ∧
    ((h'.table d).intervalBw i).endpoints.Pairwise fun a b => (h.info b).maxPacketSize ≤ (h.info a).maxPacketSize

section Failed
variable {h h' : Host} {base : Domain → ℕ × ℕ} {A : Finset EpId} {slot : Fin 256} {dev : VirtDevice} {ctx : InputCtx}

/-- A device is what is read of it. -/
theorem devs_eq (speed : h'.speed = h.speed) (domain : h'.domain = h.domain) (info : h'.info = h.info) : h'.devs = h.devs := by
  funext slot
  have sameSpeed := congrFun speed (slot, 0)
  have sameDomain := congrFun domain (slot, 0)
  unfold Host.speed at sameSpeed
  unfold Host.domain at sameDomain
  cases now : h'.devs slot with
  | none =>
    rw [now, Option.map_none] at sameDomain
    exact (Option.map_eq_none_iff.mp sameDomain.symm).symm
  | some dev' =>
    rw [now, Option.map_some] at sameDomain
    obtain ⟨dev, was, same⟩ := Option.map_eq_some_iff.mp sameDomain.symm
    dsimp only at was
    rw [now, was] at sameSpeed
    have sameInfo : dev'.bwInfo = dev.bwInfo := by
      funext i
      have read := congrFun info (slot, i)
      rwa [info_of_found now, info_of_found was] at read
    rw [was]
    cases dev
    cases dev'
    simp_all

/-- The same endpoints are accounted for, and nothing else has changed. -/
theorem restored (sound : Sound h base A) (sound' : Sound h' base A) (frame : Frame h h') (info : h'.info = h.info) :
    Restored h h' := by
  have here : ∀ d, h'.here A d = h.here A d := by
    intro d
    unfold Host.here
    rw [frame.speed, frame.domain]
  have supers : ∀ d, h'.supers A d = h.supers A d := by
    intro d
    unfold Host.supers
    rw [frame.speed, frame.domain]
  have same : ∀ d, (h'.table d).Tally h.info h.speed (h.here A d) := by
    intro d
    have tally := sound'.tally d
    rwa [here, info, frame.speed] at tally
  constructor
  · exact devs_eq frame.speed frame.domain info
  · funext d
    rw [sound'.active, sound.active, here]
  · exact frame.tts
  · exact frame.used
  · intro d
    have isIn : ∀ id, h.syncIn id ↔ h'.syncIn id := by
      intro id
      rw [Host.syncIn, Host.syncIn, info]
    have amount : ∀ id, h.consumed id = h'.consumed id := by
      intro id
      rw [Host.consumed, Host.consumed, info]
    rw [sound'.ssIn, sound.ssIn, sound'.ssOut, sound.ssOut, supers]
    simp only [isIn, amount, and_self]
  · intro d
    exact ((sound.tally d).unique (same d)).1
  · intro d i
    obtain ⟨packets, overhead, perm⟩ := ((sound.tally d).unique (same d)).2 i
    exact ⟨packets, overhead, perm, (same d).sorted i⟩

/-- The check fails, or nothing is looked at but the SuperSpeed counters, or the estimate
    fits and is kept. -/
theorem checkBwTable_cases (h : Host) (dev : VirtDevice) (old : ℤ) :
    ((h.checkBwTable dev old).2 ≠ 0 ∧ (h.checkBwTable dev old).1 = h) ∨
    (dev.speed = .super ∧ (h.table dev.domain).checkSsBw = 0 ∧ h.checkBwTable dev old = (h, 0)) ∨
    (dev.speed ≠ .super ∧ (dev.domain.isTt = true → h.checkTtBwTable dev old = 0) ∧ ∃ e : Estimate,
      Estimate.intervals (h.table dev.domain) (fun id => (h.info id).maxPacketSize) (getBlockSize dev.speed)
        (maxBandwidth dev.speed) (List.range' 1 15) (Estimate.start (h.table dev.domain) (getBlockSize dev.speed)) = some e ∧
      (h.charge dev e).toNat ≤ maxBandwidth dev.speed ∧
      h.checkBwTable dev old = (h.setTable dev.domain { h.table dev.domain with bwUsed := h.charge dev e }, 0)) := by
  unfold Host.checkBwTable
  dsimp only
  by_cases super : dev.speed = .super
  · rw [if_pos super]
    by_cases fits : (h.table dev.domain).checkSsBw = 0
    · exact .inr (.inl ⟨super, fits, by rw [fits]⟩)
    · exact .inl ⟨fits, rfl⟩
  rw [if_neg super]
  have few : (-12 : ℤ) ≠ 0 := by decide
  by_cases tt : dev.domain.isTt = true ∧ h.checkTtBwTable dev old ≠ 0
  · rw [if_pos tt]
    exact .inl ⟨few, rfl⟩
  rw [if_neg tt]
  cases estimate : Estimate.intervals (h.table dev.domain) (fun id => (h.info id).maxPacketSize) (getBlockSize dev.speed)
      (maxBandwidth dev.speed) (List.range' 1 15) (Estimate.start (h.table dev.domain) (getBlockSize dev.speed)) with
  | none => exact .inl ⟨few, rfl⟩
  | some e =>
    dsimp only
    by_cases much : (h.charge dev e).toNat > maxBandwidth dev.speed
    · rw [if_pos much]
      exact .inl ⟨few, rfl⟩
    · rw [if_neg much]
      refine .inr (.inr ⟨super, ?_, e, rfl, not_lt.mp much, rfl⟩)
      intro behind
      by_contra none
      exact tt ⟨behind, none⟩

theorem checkBwTable_failed {old : ℤ} (failed : (h.checkBwTable dev old).2 ≠ 0) : (h.checkBwTable dev old).1 = h := by
  rcases checkBwTable_cases h dev old with ⟨-, same⟩ | ⟨-, -, fits⟩ | ⟨-, -, e, -, -, fits⟩
  · exact same
  · rw [fits] at failed
    exact absurd rfl failed
  · rw [fits] at failed
    exact absurd rfl failed

/-- The number that is compared when a reservation has been made. -/
def oldActiveEps (h : Host) (dev : VirtDevice) : ℤ := if dev.domain.isTt then h.activeEps dev.domain else 0

theorem reserveBandwidth_eq (found : h.devs slot = some dev) : h.reserveBandwidth slot ctx =
    if ((h.proposed slot dev ctx).checkBwTable dev (oldActiveEps h dev)).2 = 0 then
      (((h.proposed slot dev ctx).checkBwTable dev (oldActiveEps h dev)).1.updateTtActiveEps dev.domain (oldActiveEps h dev), 0)
    else ((List.finRange 31).foldl (Host.revertLoop slot dev ctx dev.bwInfo)
      ((h.proposed slot dev ctx).checkBwTable dev (oldActiveEps h dev)).1, -12) := by
  unfold Host.reserveBandwidth
  rw [found]
  rfl

theorem reserve_failed (sound : Sound h base A) (all : ∀ id, id ∈ A ↔ h.periodic id) (found : h.devs slot = some dev)
    (fits : Fits dev ctx) (failed : (h.reserveBandwidth slot ctx).2 ≠ 0) :
    Sound (h.reserveBandwidth slot ctx).1 base A ∧ Restored h (h.reserveBandwidth slot ctx).1 := by
  obtain ⟨A₁, sound₁, visited⟩ := proposed_spec sound all found fits
  rw [reserveBandwidth_eq found] at failed ⊢
  by_cases ok : ((h.proposed slot dev ctx).checkBwTable dev (oldActiveEps h dev)).2 = 0
  · rw [if_pos ok] at failed
    exact absurd rfl failed
  · rw [if_neg ok, checkBwTable_failed ok]
    have owns := owns_of_found found
    have inside : ∀ i, isAsyncEp (dev.bwInfo i).type = false → dev.speed ≠ .super →
        normalizedInterval dev.speed (dev.bwInfo i).epInterval < 16 := by
      intro i periodic notSuper
      have listed : (slot, i) ∈ A := by
        rw [all, Host.periodic, info_of_found found]
        exact periodic
      have place := sound.inside (slot, i) listed (by rwa [(owns i).2])
      rwa [Ehub.Bandwidth.place, (owns i).2, info_of_found found] at place
    obtain ⟨A₂, sound₂, reverted⟩ := revertLoop_spec sound₁ (owns.frame visited.frame)
      (fun i => ⟨visited.mem i (List.mem_finRange i), visited.info i (List.mem_finRange i)⟩) rfl fits inside
    have whole := visited.trans reverted
    have info : (((List.finRange 31).foldl (Host.revertLoop slot dev ctx dev.bwInfo) (h.proposed slot dev ctx))).info = h.info := by
      funext id
      by_cases own : id.1 = slot
      · obtain ⟨_, i⟩ := id
        subst own
        rw [whole.info i (List.mem_finRange i), info_of_found found]
      · exact (whole.others id (.inl own)).2
    have same : A₂ = A := by
      ext id
      by_cases own : id.1 = slot
      · obtain ⟨_, i⟩ := id
        subst own
        rw [whole.mem i (List.mem_finRange i), all, Host.periodic, info_of_found found]
      · exact (whole.others id (.inl own)).1
    subst same
    exact ⟨sound₂, restored sound sound₂ whole.frame info⟩

end Failed

end Ehub.Bandwidth
