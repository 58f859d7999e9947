import Mathlib
import Ehub.Run
import Ehub.Slots
import Ehub.EndpointConfig

/-!
The counter of isochronous endpoints. It goes up when an endpoint is prepared to be added
and down when one is marked to be dropped, while the rings change later; the loop that
receives isochronous data is started for the first endpoint and stopped some time after
the last. What is counted is what the endpoints would be if every change went through
(`planned`).

Nothing compensates for a change that is taken back, for a ring that could not be
allocated, or for a device that is reset or freed with isochronous endpoints. In runs
without these the counter is right whenever no change is under way (`isoc_counted`).
-/
namespace Ehub.IsocCount
open Ehub.EndpointConfig Ehub.Slots

def isIsoc (ring : Option Ring) : Bool :=
  match ring with
  | some ring => decide (ring.type = .isoc)
  | none => false

@[simp] theorem isIsoc_none : isIsoc none = false := rfl

/-- An isochronous endpoint that is there and not marked to be dropped. -/
def kept (dev : Device) (i : ℕ) : ℕ := if isIsoc (dev.eps i).ring ∧ has dev.inCtx.dropFlags i = false then 1 else 0

/-- An isochronous endpoint that is about to be added. -/
def fresh (dev : Device) (i : ℕ) : ℕ := if isIsoc (dev.eps i).newRing then 1 else 0

def planned (dev : Device) : ℕ := ∑ i ∈ Finset.Ico 1 31, (kept dev i + fresh dev i)

/-- The isochronous endpoints whose ring is installed. -/
def installed (dev : Device) : ℕ := ∑ i ∈ Finset.range 31, if isIsoc (dev.eps i).ring then 1 else 0

def allPlanned (h : Host) : ℕ := ∑ slot, (h.devs slot).elim 0 planned

def allInstalled (h : Host) : ℕ := ∑ slot, (h.devs slot).elim 0 installed

/-- The USB core drops an endpoint with the descriptor it was added with, and the
    controller has an endpoint enabled only if it was told about it. -/
def Allowed (h : Host) : Op → Prop
  | .dropEndpoint caller _ desc disabled =>
    match h.devs caller.slot with
    | none => True
    | some dev =>
      desc.Inside →
        match (dev.eps desc.getEndpointIndex.toNat).ring with
        | none => disabled = true
        | some ring => ring.type = desc.xfer
  | _ => True

/-- No ring of an isochronous endpoint and no URB of the loop is refused; a change that is
    taken back adds as many isochronous endpoints as it drops; and no device is reset or
    freed that has isochronous endpoints. -/
def Careful (h : Host) : Op → Prop
  | .addEndpoint _ desc allocated submitted => desc.isoc = true → allocated = true ∧ submitted = true
  | .resetBandwidth caller =>
    match h.checkArgs caller with
    | .error _ => True
    | .ok dev => planned dev = installed dev
  | .discoverOrResetDevice caller _ _ .done =>
    match h.devs caller.slot with
    | none => True
    | some dev => ∑ i ∈ Finset.Ico 1 31, kept dev i = 0
  | .freeVirtDevice slot =>
    match h.devs slot with
    | none => True
    | some dev => planned dev = 0
  | _ => True

abbrev Reachable (condition : Host → Op → Prop) : Host → Prop :=
  Run.Reachable (· = Host.initial) (fun h op => Allowed h op ∧ condition h op) step

/-- The new rings and the marks of a device belong together. -/
structure Matched (dev : Device) : Prop where
  control : isIsoc (dev.eps 0).ring = false
  new : ∀ {i}, 1 ≤ i → i < 31 → (dev.eps i).newRing.isSome = has dev.inCtx.addFlags i
  room : ∀ {i}, 1 ≤ i → i < 31 → has dev.inCtx.addFlags i = true → (dev.eps i).ring = none ∨ has dev.inCtx.dropFlags i = true

structure Counted (h : Host) : Prop where
  matched : ∀ {slot dev}, h.devs slot = some dev → Matched dev
  count : h.numActiveIsocEps = (allPlanned h : ℤ)
  loop : 0 < h.numActiveIsocEps → h.isochInRunning = true ∧ h.stopPending = false

section Steps
variable {h after : Host} {slot : Fin 256} {dev dev' : Device}

theorem planned_update (found : h.devs slot = some dev) (devs : after.devs = Function.update h.devs slot (some dev')) :
    allPlanned after + planned dev = allPlanned h + planned dev' := by
  have changed := sum_change Finset.univ (fun slot => (h.devs slot).elim 0 planned) (fun slot => (after.devs slot).elim 0 planned)
    (Finset.mem_univ slot) (fun other _ different => by rw [devs, Function.update_of_ne different])
  rw [devs, Function.update_self, found] at changed
  unfold allPlanned
  rw [devs]
  exact changed

/-- A device has changed, and the counter with it. -/
theorem Counted.update (counted : Counted h) (found : h.devs slot = some dev)
    (devs : after.devs = Function.update h.devs slot (some dev')) (matched : Matched dev')
    (count : after.numActiveIsocEps + planned dev = h.numActiveIsocEps + planned dev')
    (loop : 0 < after.numActiveIsocEps → after.isochInRunning = true ∧ after.stopPending = false) : Counted after := by
  constructor
  · intro slot' found' now
    rw [devs] at now
    by_cases same : slot' = slot
    · subst same
      rw [Function.update_self] at now
      rwa [← Option.some.inj now]
    · rw [Function.update_of_ne same] at now
      exact counted.matched now
  · have sum := planned_update found devs
    have before := counted.count
    omega
  · exact loop

/-- What is planned depends on the rings and the marks. -/
theorem planned_congr (weights : ∀ i, 1 ≤ i → i < 31 → kept dev' i + fresh dev' i = kept dev i + fresh dev i) :
    planned dev' = planned dev := by
  unfold planned
  refine Finset.sum_congr rfl ?_
  intro i listed
  obtain ⟨one, inside⟩ := Finset.mem_Ico.mp listed
  exact weights i one inside

/-- What is planned changes by what one endpoint does. -/
theorem planned_change (dev dev' : Device) {i : ℕ} (one : 1 ≤ i) (inside : i < 31)
    (others : ∀ j, 1 ≤ j → j < 31 → j ≠ i → kept dev' j + fresh dev' j = kept dev j + fresh dev j) :
    planned dev' + (kept dev i + fresh dev i) = planned dev + (kept dev' i + fresh dev' i) := by
  unfold planned
  refine sum_change (Finset.Ico 1 31) (fun j => kept dev j + fresh dev j) (fun j => kept dev' j + fresh dev' j)
    (Finset.mem_Ico.mpr ⟨one, inside⟩) ?_
  intro j listed different
  obtain ⟨one, inside⟩ := Finset.mem_Ico.mp listed
  exact others j one inside different

theorem endpointZero_counter (h : Host) (desc : Descriptor) : (h.endpointZero desc).devs = h.devs ∧
    (h.endpointZero desc).numActiveIsocEps = h.numActiveIsocEps - (if desc.isoc then 1 else 0) ∧
      (h.endpointZero desc).isochInRunning = h.isochInRunning ∧ (h.endpointZero desc).stopPending = h.stopPending := by
  unfold Host.endpointZero
  by_cases isoc : desc.isoc = true
  · rw [if_pos isoc, if_pos isoc]
    exact ⟨rfl, rfl, rfl, rfl⟩
  · rw [if_neg isoc, if_neg isoc]
    exact ⟨rfl, (sub_zero _).symm, rfl, rfl⟩

/-- An endpoint that is marked to be dropped was not marked to be added. -/
theorem Matched.marked (matched : Matched dev) {i : ℕ} (one : 1 ≤ i) (inside : i < 31) (there : (dev.eps i).ring.isSome = true)
    (undropped : has dev.inCtx.dropFlags i = false) : has dev.inCtx.addFlags i = false ∧ (dev.eps i).newRing = none := by
  have unadded : has dev.inCtx.addFlags i = false := by
    by_contra added
    rcases matched.room one inside (Bool.eq_true_of_not_eq_false added) with none | dropped
    · rw [none] at there
      cases there
    · exact Bool.noConfusion (dropped.symm.trans undropped)
  refine ⟨unadded, ?_⟩
  have new := matched.new one inside
  rw [unadded] at new
  exact Option.not_isSome_iff_eq_none.mp (Bool.not_eq_true _ ▸ new)

theorem Counted.dropEndpoint (counted : Counted h) (caller : Caller) (goingGone : Bool) (desc : Descriptor) (disabled : Bool)
    (allowed : Allowed h (.dropEndpoint caller goingGone desc disabled)) :
    Counted (h.dropEndpoint caller goingGone desc disabled).1 := by
  by_cases drops : ∃ dev, Drops h caller goingGone desc disabled dev
  · obtain ⟨dev, drops⟩ := drops
    have found := (checkArgs_ok.mp drops.served).2.1
    obtain ⟨one, inside⟩ := drops.inside
    have matched := counted.matched found
    -- The controller knows the endpoint, so that it has a ring, of the type of the descriptor.
    obtain ⟨ring, holds, type⟩ : ∃ ring, (dev.eps desc.getEndpointIndex.toNat).ring = some ring ∧ ring.type = desc.xfer := by
      simp only [Allowed, found] at allowed
      have promise := allowed drops.inside
      cases holds : (dev.eps desc.getEndpointIndex.toNat).ring with
      | none =>
        simp only [holds] at promise
        exact absurd (drops.enabled.symm.trans promise) Bool.noConfusion
      | some ring =>
        simp only [holds] at promise
        exact ⟨ring, rfl, promise⟩
    obtain ⟨unadded, noNew⟩ := matched.marked one inside (by rw [holds]; rfl) drops.unmarked
    have drop : ∀ {i}, i < 31 → has (dev.marked desc.getEndpointIndex.toNat).inCtx.dropFlags i =
        (has dev.inCtx.dropFlags i || decide (desc.getEndpointIndex.toNat = i)) := fun inside => has_or_flag _ inside
    have add : ∀ {i}, i < 31 → has (dev.marked desc.getEndpointIndex.toNat).inCtx.addFlags i = has dev.inCtx.addFlags i := by
      intro i inside
      refine (has_and_not_flag _ inside).trans ?_
      by_cases own : desc.getEndpointIndex.toNat = i
      · rw [← own, unadded, Bool.false_and]
      · simp [own]
    rw [drop_eq drops]
    obtain ⟨devs, count, running, pending⟩ :=
      endpointZero_counter (h.setDev caller.slot (dev.marked desc.getEndpointIndex.toNat)) desc
    refine counted.update found devs ⟨matched.control, ?_, ?_⟩ ?_ ?_
    · intro i one inside
      rw [add inside]
      exact matched.new one inside
    · intro i one inside marked
      rw [add inside] at marked
      rcases matched.room one inside marked with none | dropped
      · exact .inl none
      · exact .inr (by rw [drop inside, dropped, Bool.true_or])
    · have change := planned_change dev (dev.marked desc.getEndpointIndex.toNat) one inside (by
        intro j _ inside different
        unfold kept fresh
        rw [drop inside, decide_eq_false (Ne.symm different), Bool.or_false]
        rfl)
      have before : kept dev desc.getEndpointIndex.toNat = if desc.isoc then 1 else 0 := by
        unfold kept isIsoc Descriptor.isoc
        simp [holds, type, drops.unmarked]
      have gone : kept (dev.marked desc.getEndpointIndex.toNat) desc.getEndpointIndex.toNat = 0 := by
        unfold kept
        rw [drop inside]
        simp
      have none : fresh dev desc.getEndpointIndex.toNat = 0 ∧
          fresh (dev.marked desc.getEndpointIndex.toNat) desc.getEndpointIndex.toNat = 0 := by
        unfold fresh
        rw [show ((dev.marked desc.getEndpointIndex.toNat).eps desc.getEndpointIndex.toNat).newRing = _ from noNew, noNew]
        exact ⟨rfl, rfl⟩
      rw [before, gone, none.1, none.2] at change
      rw [count]
      change h.numActiveIsocEps - _ + _ = h.numActiveIsocEps + _
      split_ifs at change ⊢ <;> omega
    · intro positive
      rw [running, pending]
      refine counted.loop ?_
      rw [count] at positive
      change 0 < h.numActiveIsocEps - _ at positive
      split_ifs at positive <;> omega
  · rw [drop_other (not_exists.mp drops)]
    exact counted

theorem Counted.addEndpoint (counted : Counted h) (caller : Caller) (desc : Descriptor) (allocated submitted : Bool)
    (careful : Careful h (.addEndpoint caller desc allocated submitted)) :
    Counted (h.addEndpoint caller desc allocated submitted).1 := by
  by_cases prepares : ∃ dev, Prepares h caller desc dev
  · obtain ⟨dev, prepares⟩ := prepares
    have found := (checkArgs_ok.mp prepares.served).2.1
    obtain ⟨one, inside⟩ := prepares.inside
    have matched := counted.matched found
    have added := add_eq prepares allocated submitted
    generalize (h.addEndpoint caller desc allocated submitted).1 = after at added ⊢
    have devs := added.devs
    generalize ringed : (if allocated then some (EndpointConfig.Ring.mk h.next desc.xfer) else none) = newRing at devs
    have noNew : (dev.eps desc.getEndpointIndex.toNat).newRing = none := by
      have new := matched.new one inside
      rw [prepares.unmarked] at new
      exact Option.not_isSome_iff_eq_none.mp (Bool.not_eq_true _ ▸ new)
    have eps : ∀ i, (i = desc.getEndpointIndex.toNat ∧ ((dev.staged desc newRing).eps i).ring = (dev.eps i).ring ∧
        ((dev.staged desc newRing).eps i).newRing = newRing) ∨
        (i ≠ desc.getEndpointIndex.toNat ∧ (dev.staged desc newRing).eps i = dev.eps i) := by
      intro i
      rw [staged_eps]
      by_cases own : i = desc.getEndpointIndex.toNat
      · rw [if_pos own]
        exact .inl ⟨own, rfl, rfl⟩
      · rw [if_neg own]
        exact .inr ⟨own, rfl⟩
    refine counted.update found devs ⟨?_, ?_, ?_⟩ ?_ ?_
    · rcases eps 0 with ⟨zero, -⟩ | ⟨-, same⟩
      · omega
      · rw [same]
        exact matched.control
    · intro i one' inside'
      rw [staged_add _ _ _ inside']
      rcases eps i with ⟨rfl, -, new⟩ | ⟨other, same⟩
      · rw [new, prepares.unmarked]
        simp
      · rw [same, matched.new one' inside', decide_eq_false (Ne.symm other), Bool.and_false, Bool.or_false]
    · intro i one' inside' marked
      rw [staged_add _ _ _ inside'] at marked
      rcases eps i with ⟨rfl, ring, -⟩ | ⟨other, same⟩
      · rw [ring]
        exact prepares.room
      · rw [same]
        refine matched.room one' inside' ?_
        rwa [decide_eq_false (Ne.symm other), Bool.and_false, Bool.or_false] at marked
    · -- The old ring, if any, is marked to be dropped: only the new ring counts.
      have change := planned_change dev (dev.staged desc newRing) one inside (by
        intro j _ inside' different
        rcases eps j with ⟨same, -⟩ | ⟨-, same⟩
        · exact absurd same different
        · unfold kept fresh
          rw [same]
          rfl)
      have unkept : kept dev desc.getEndpointIndex.toNat = 0 := by
        unfold kept
        rcases prepares.room with none | dropped
        · simp [none, isIsoc]
        · simp [dropped]
      have still : kept (dev.staged desc newRing) desc.getEndpointIndex.toNat = 0 := by
        rcases eps desc.getEndpointIndex.toNat with ⟨-, ring, -⟩ | ⟨other, -⟩
        · unfold kept at unkept ⊢
          rw [ring]
          exact unkept
        · exact absurd rfl other
      have before : fresh dev desc.getEndpointIndex.toNat = 0 := by
        unfold fresh
        rw [noNew]
        rfl
      have now : fresh (dev.staged desc newRing) desc.getEndpointIndex.toNat = if desc.isoc then 1 else 0 := by
        rcases eps desc.getEndpointIndex.toNat with ⟨-, -, new⟩ | ⟨other, -⟩
        · unfold fresh
          rw [new, ← ringed]
          cases allocated with
          | true => rfl
          | false =>
            have plain : ¬desc.isoc = true := fun isoc => Bool.noConfusion (careful isoc).1
            rw [if_neg plain]
            rfl
        · exact absurd rfl other
      rw [unkept, still, before, now] at change
      rw [added.count]
      split_ifs at change ⊢ <;> omega
    · intro positive
      rw [added.running, added.pending]
      rw [added.count] at positive
      by_cases first : desc.isoc = true ∧ h.numActiveIsocEps = 0
      · rw [if_pos first, if_pos first, (careful first.1).2, Bool.or_true]
        exact ⟨rfl, rfl⟩
      · rw [if_neg first, if_neg first]
        refine counted.loop ?_
        have natural := counted.count
        split_ifs at positive with isoc
        · have nonzero : h.numActiveIsocEps ≠ 0 := fun zero => first ⟨isoc, zero⟩
          omega
        · exact positive
  · rw [add_other (not_exists.mp prepares)]
    exact counted

/-- Nothing that is counted changes. -/
theorem Counted.same (counted : Counted h) (found : h.devs slot = some dev)
    (devs : after.devs = Function.update h.devs slot (some dev'))
    (rings : ∀ i, (dev'.eps i).ring = (dev.eps i).ring ∧ (dev'.eps i).newRing = (dev.eps i).newRing)
    (flags : ∀ {i}, 1 ≤ i → i < 31 → has dev'.inCtx.addFlags i = has dev.inCtx.addFlags i ∧
      has dev'.inCtx.dropFlags i = has dev.inCtx.dropFlags i)
    (count : after.numActiveIsocEps = h.numActiveIsocEps) (running : after.isochInRunning = h.isochInRunning)
    (pending : after.stopPending = true → h.stopPending = true ∨ h.numActiveIsocEps = 0) : Counted after := by
  have matched := counted.matched found
  refine counted.update found devs ⟨?_, ?_, ?_⟩ ?_ ?_
  · rw [(rings 0).1]
    exact matched.control
  · intro i one inside
    rw [(rings i).2, (flags one inside).1]
    exact matched.new one inside
  · intro i one inside marked
    rw [(flags one inside).1] at marked
    rw [(rings i).1, (flags one inside).2]
    exact matched.room one inside marked
  · have same : planned dev' = planned dev := by
      refine planned_congr (fun i one inside => ?_)
      unfold kept fresh
      rw [(rings i).1, (rings i).2, (flags one inside).2]
    rw [count, same]
  · intro positive
    rw [count] at positive
    obtain ⟨run, quiet⟩ := counted.loop positive
    refine ⟨running.trans run, ?_⟩
    by_contra now
    rcases pending (Bool.eq_true_of_not_eq_false now) with before | zero
    · exact Bool.noConfusion (before.symm.trans quiet)
    · omega

/-- When the rings are replaced, what was planned is there. -/
theorem Counted.install (counted : Counted h) (found : h.devs slot = some dev) : Counted (h.install slot dev) := by
  have matched := counted.matched found
  obtain ⟨final, done⟩ := install_installed h slot dev
  have frame : (h.install slot dev).numActiveIsocEps = h.numActiveIsocEps ∧
      (h.install slot dev).isochInRunning = h.isochInRunning ∧ (h.install slot dev).stopPending = h.stopPending := ⟨rfl, rfl, rfl⟩
  generalize h.install slot dev = after at done frame ⊢
  have eps : ∀ {i}, 1 ≤ i → i < 31 → (final.eps i).newRing = none ∧ (final.eps i).ring =
      if has dev.inCtx.addFlags i then (dev.eps i).newRing else if has dev.inCtx.dropFlags i then none else (dev.eps i).ring := by
    intro i one inside
    rw [done.eps one inside]
    exact install_endpoint inside (matched.new one inside)
  have clear : ∀ i, has final.inCtx.addFlags i = false ∧ has final.inCtx.dropFlags i = false := by
    intro i
    rw [done.inCtx]
    exact ⟨BitVec.getLsbD_zero, BitVec.getLsbD_zero⟩
  refine counted.update found done.devs ⟨?_, ?_, ?_⟩ ?_ ?_
  · rw [done.zero]
    exact matched.control
  · intro i one inside
    rw [(eps one inside).1, (clear i).1]
    rfl
  · intro i one inside marked
    exact absurd ((clear i).1.symm.trans marked) Bool.noConfusion
  · have same : planned final = planned dev := by
      refine planned_congr (fun i one inside => ?_)
      have new := matched.new one inside
      unfold kept fresh
      rw [(eps one inside).1, (eps one inside).2, (clear i).2]
      cases add : has dev.inCtx.addFlags i with
      | true =>
        rcases matched.room one inside add with none | drop
        · simp [none]
        · simp [drop]
      | false =>
        rw [add] at new
        have none : (dev.eps i).newRing = none := Option.not_isSome_iff_eq_none.mp (Bool.not_eq_true _ ▸ new)
        cases drop : has dev.inCtx.dropFlags i with
        | true => simp [none]
        | false => simp [none]
    rw [frame.1, same]
  · rw [frame.1, frame.2.1, frame.2.2]
    exact counted.loop

theorem Counted.checkBandwidth (counted : Counted h) (caller : Caller) (command : Bool) (configured : Configured) :
    Counted (h.checkBandwidth caller command configured).1 := by
  by_cases refused : (∃ ret, h.checkArgs caller = .error ret) ∨ caller.dying = true ∨ command = false
  · rw [check_refused refused]
    exact counted
  obtain ⟨noError, alive, commanded⟩ : (¬∃ ret, h.checkArgs caller = .error ret) ∧ caller.dying = false ∧ command = true := by
    simpa [not_or] using refused
  cases served : h.checkArgs caller with
  | error ret => exact absurd ⟨ret, served⟩ noError
  | ok dev =>
    have found := (checkArgs_ok.mp served).2.1
    subst commanded
    by_cases marked : dev.Marked
    · rw [check_marked served alive configured marked]
      have answered := configure_answered (h.setDev caller.slot dev.ready) dev.ready.inCtx configured
      dsimp only
      generalize (h.setDev caller.slot dev.ready).configureEndpoint dev.ready.inCtx configured = result at answered ⊢
      have still : Counted result.1 := counted.same found answered.devs (fun _ => ⟨rfl, rfl⟩)
        (fun one inside => ready_flags dev one inside) answered.count answered.running answered.pending
      by_cases failed : result.2 ≠ 0
      · rw [if_pos failed]
        exact still
      · rw [if_neg failed]
        refine still.install ?_
        rw [answered.devs, setDev_self]
    · rw [check_unmarked served alive configured marked]
      exact counted.same found rfl (fun _ => ⟨rfl, rfl⟩) (fun one inside => ready_flags dev one inside) rfl rfl .inl

theorem zero_clear (i : ℕ) : has zeroInCtx.addFlags i = false ∧ has zeroInCtx.dropFlags i = false :=
  ⟨BitVec.getLsbD_zero, BitVec.getLsbD_zero⟩

/-- Endpoint 0 does not count. -/
theorem installed_eq (control : isIsoc (dev.eps 0).ring = false) :
    installed dev = ∑ i ∈ Finset.Ico 1 31, if isIsoc (dev.eps i).ring then 1 else 0 := by
  unfold installed
  rw [Finset.range_eq_Ico, Finset.sum_eq_sum_Ico_succ_bot (by decide), control]
  exact Nat.zero_add _

theorem Counted.resetBandwidth (counted : Counted h) (caller : Caller) (careful : Careful h (.resetBandwidth caller)) :
    Counted (h.resetBandwidth caller) := by
  unfold Host.resetBandwidth
  cases served : h.checkArgs caller with
  | error ret => exact counted
  | ok dev =>
    simp only [Careful, served] at careful
    dsimp only
    have found := (checkArgs_ok.mp served).2.1
    have matched := counted.matched found
    have eps : ∀ {i}, i < 31 → (sweep freeNew (List.range 31) dev.eps h.freed).1 i = { dev.eps i with newRing := none } := by
      intro i inside
      rw [sweep_slot _ _ List.nodup_range, if_pos (List.mem_range.mpr inside)]
      rfl
    generalize (sweep freeNew (List.range 31) dev.eps h.freed).1 = after at eps ⊢
    refine counted.update found rfl ⟨?_, ?_, ?_⟩ ?_ counted.loop
    · dsimp only
      rw [eps (by decide)]
      exact matched.control
    · intro i _ inside
      dsimp only
      rw [eps inside, (zero_clear i).1]
      rfl
    · intro i _ _ marked
      exact absurd ((zero_clear i).1.symm.trans marked) Bool.noConfusion
    · have back : planned { dev with eps := after, inCtx := zeroInCtx } = installed dev := by
        rw [installed_eq matched.control]
        unfold planned
        refine Finset.sum_congr rfl ?_
        intro i listed
        simp [kept, fresh, eps (Finset.mem_Ico.mp listed).2, (zero_clear i).2]
      change h.numActiveIsocEps + _ = h.numActiveIsocEps + _
      rw [careful, back]

theorem Counted.allocVirtDevice (counted : Counted h) (slot : Fin 256) (udev : ℕ) (allocated : Bool) :
    Counted (h.allocVirtDevice slot udev allocated).1 := by
  unfold Host.allocVirtDevice
  by_cases refused : slot = 0 ∨ (h.devs slot).isSome ∨ !allocated
  · rw [if_pos refused]
    exact counted
  rw [if_neg refused]
  have vacant : h.devs slot = none := by
    obtain ⟨-, free, -⟩ : slot ≠ 0 ∧ (h.devs slot).isSome = false ∧ allocated = true := by simpa [not_or] using refused
    exact Option.not_isSome_iff_eq_none.mp (Bool.not_eq_true _ ▸ free)
  dsimp only
  generalize created : Device.mk udev ⟨0, 0, 0⟩
    (fun i => ⟨if i = 0 then some ⟨h.next, .control⟩ else none, none, 0, false, false⟩) = dev
  have clear : ∀ i, has dev.inCtx.addFlags i = false := by
    intro i
    rw [← created]
    exact BitVec.getLsbD_zero
  have empty : planned dev = 0 := by
    unfold planned
    refine Finset.sum_eq_zero ?_
    intro i listed
    have positive : i ≠ 0 := by
      have one := (Finset.mem_Ico.mp listed).1
      omega
    unfold kept fresh
    rw [← created]
    simp [positive]
  constructor
  · intro slot' found now
    by_cases same : slot' = slot
    · subst same
      obtain rfl := Option.some.inj ((setDev_self h slot' dev).symm.trans now)
      refine ⟨?_, ?_, ?_⟩
      · rw [← created]
        rfl
      · intro i _ _
        rw [clear i, ← created]
        rfl
      · intro i _ _ marked
        exact absurd ((clear i).symm.trans marked) Bool.noConfusion
    · have before : h.devs slot' = some found := (Function.update_of_ne same ..).symm.trans now
      exact counted.matched before
  · have sum := sum_change Finset.univ (fun slot => (h.devs slot).elim 0 planned)
      (fun slot' => (Function.update h.devs slot (some dev) slot').elim 0 planned) (Finset.mem_univ slot) (by
        intro other _ different
        rw [Function.update_of_ne different])
    rw [Function.update_self, vacant, Option.elim_none, Option.elim_some, empty, add_zero, add_zero] at sum
    refine counted.count.trans (congrArg Nat.cast ?_)
    exact sum.symm
  · exact counted.loop

theorem Counted.freeVirtDevice (counted : Counted h) (slot : Fin 256) (careful : Careful h (.freeVirtDevice slot)) :
    Counted (h.freeVirtDevice slot) := by
  unfold Host.freeVirtDevice
  cases found : h.devs slot with
  | none => exact counted
  | some dev =>
    simp only [Careful, found] at careful
    dsimp only
    constructor
    · intro slot' dev' now
      by_cases same : slot' = slot
      · subst same
        simp at now
      · dsimp only at now
        rw [Function.update_of_ne same] at now
        exact counted.matched now
    · have sum := sum_change Finset.univ (fun slot => (h.devs slot).elim 0 planned)
        (fun slot' => (Function.update h.devs slot none slot').elim 0 planned) (Finset.mem_univ slot) (by
          intro other _ different
          rw [Function.update_of_ne different])
      rw [Function.update_self, found, Option.elim_none, Option.elim_some, careful, add_zero, add_zero] at sum
      refine counted.count.trans (congrArg Nat.cast ?_)
      exact sum.symm
    · exact counted.loop

theorem Counted.discoverOrResetDevice (counted : Counted h) (caller : Caller) (slot : Fin 256) (allocated : Bool)
    (reset : DeviceReset) (careful : Careful h (.discoverOrResetDevice caller slot allocated reset)) :
    Counted (h.discoverOrResetDevice caller slot allocated reset).1 := by
  unfold Host.discoverOrResetDevice
  dsimp only
  by_cases root : caller.rootHub = true
  · rw [if_pos root]
    exact counted
  rw [if_neg root]
  by_cases halted : caller.halted = true
  · rw [if_pos halted]
    exact counted
  rw [if_neg halted]
  cases found : h.devs caller.slot with
  | none => exact counted.allocVirtDevice slot caller.udev allocated
  | some dev =>
    dsimp only
    by_cases lost : dev.udev ≠ caller.udev
    · rw [if_pos lost]
      exact counted.allocVirtDevice slot caller.udev allocated
    rw [if_neg lost]
    cases reset with
    | disabled => exact counted
    | noCommand => exact counted
    | notQueued ret => exact counted
    | refused ret => exact counted
    | done =>
      simp only [Careful, found] at careful
      obtain ⟨order, same, distinct, listed⟩ := order_spec
      have zero : 0 ∉ order := fun no => absurd ((listed 0).mp no).1 (by decide)
      have matched := counted.matched found
      rw [← same]
      dsimp only
      have first : (sweep freeInstalled order dev.eps h.freed).1 0 = dev.eps 0 := by
        rw [sweep_slot _ _ distinct, if_neg zero]
      have eps : ∀ {i}, 1 ≤ i → i < 31 → ((sweep freeInstalled order dev.eps h.freed).1 i).ring = none ∧
          ((sweep freeInstalled order dev.eps h.freed).1 i).newRing = (dev.eps i).newRing := by
        intro i one inside
        rw [sweep_slot _ _ distinct, if_pos ((listed i).mpr ⟨one, inside⟩)]
        unfold freeInstalled Endpoint.freeRing
        cases ring : (dev.eps i).ring with
        | none => exact ⟨ring, rfl⟩
        | some old => exact ⟨rfl, rfl⟩
      generalize (sweep freeInstalled order dev.eps h.freed).1 = after at first eps ⊢
      refine counted.update found rfl ⟨?_, ?_, ?_⟩ ?_ counted.loop
      · dsimp only
        rw [first]
        exact matched.control
      · intro i one inside
        dsimp only
        rw [(eps one inside).2]
        exact matched.new one inside
      · intro i one inside _
        exact .inl (eps one inside).1
      · have back : planned { dev with eps := after } = planned dev := by
          unfold planned
          rw [Finset.sum_add_distrib, Finset.sum_add_distrib, careful]
          refine congrArg₂ _ ?_ ?_
          · refine Finset.sum_eq_zero (fun i listed => ?_)
            obtain ⟨one, inside⟩ := Finset.mem_Ico.mp listed
            unfold kept
            dsimp only
            rw [(eps one inside).1]
            simp
          · refine Finset.sum_congr rfl (fun i listed => ?_)
            obtain ⟨one, inside⟩ := Finset.mem_Ico.mp listed
            unfold fresh
            dsimp only
            rw [(eps one inside).2]
        rw [back]
        rfl

theorem Counted.transferEvent (counted : Counted h) (slot : Fin 256) (i : ℕ) (skip : Bool) :
    Counted (h.transferEvent slot i skip) := by
  unfold Host.transferEvent Host.modifyDev
  cases found : h.devs slot with
  | none =>
    rw [Option.map_none, ← found, Function.update_eq_self]
    exact counted
  | some dev =>
    refine counted.same found rfl (fun j => ?_) (fun _ _ => ⟨rfl, rfl⟩) rfl rfl .inl
    dsimp only
    by_cases same : j = i
    · subst same
      simp
    · simp [same]

/-- The loop is only stopped when nothing is counted. -/
theorem Counted.delayedStopLoopIsoch (counted : Counted h) : Counted h.delayedStopLoopIsoch := by
  unfold Host.delayedStopLoopIsoch
  by_cases pending : h.stopPending = true
  · rw [if_pos pending]
    refine ⟨counted.matched, counted.count, ?_⟩
    intro positive
    exact absurd (pending.symm.trans (counted.loop positive).2) Bool.noConfusion
  · rw [if_neg pending]
    exact counted

theorem Counted.step (counted : Counted h) (op : Op) (allowed : Allowed h op) (careful : Careful h op) : Counted (step h op) := by
  cases op with
  | allocDev slot udev allocated => exact counted.allocVirtDevice slot udev allocated
  | dropEndpoint caller goingGone desc disabled => exact counted.dropEndpoint caller goingGone desc disabled allowed
  | addEndpoint caller desc allocated submitted => exact counted.addEndpoint caller desc allocated submitted careful
  | checkBandwidth caller command configured => exact counted.checkBandwidth caller command configured
  | resetBandwidth caller => exact counted.resetBandwidth caller careful
  | discoverOrResetDevice caller slot allocated reset => exact counted.discoverOrResetDevice caller slot allocated reset careful
  | freeVirtDevice slot => exact counted.freeVirtDevice slot careful
  | transferEvent slot i skip => exact counted.transferEvent slot i skip
  | delayedStopLoopIsoch => exact counted.delayedStopLoopIsoch

theorem reachable_counted (reachable : Reachable Careful h) : Counted h := by
  refine Run.Reachable.invariant (P := Counted) ?_ (fun _ op counted ok => counted.step op ok.1 ok.2) reachable
  rintro _ rfl
  refine ⟨?_, ?_, ?_⟩
  · intro slot dev now
    cases now
  · unfold allPlanned Host.initial
    simp
  · intro positive
    exact absurd positive (lt_irrefl _)

/-- With no change under way, what is planned is what is installed. -/
theorem Matched.quiet (matched : Matched dev) (quiet : Quiet dev) : planned dev = installed dev := by
  rw [installed_eq matched.control]
  unfold planned
  refine Finset.sum_congr rfl ?_
  intro i listed
  obtain ⟨one, inside⟩ := Finset.mem_Ico.mp listed
  have undropped : has dev.inCtx.dropFlags i = false := by
    by_contra marked
    exact quiet.unmarked ⟨i, one, inside, .inr (Bool.eq_true_of_not_eq_false marked)⟩
  unfold kept fresh
  rw [quiet.noNew i inside, undropped]
  simp

/-- The counter, whenever no device is being reconfigured. -/
def CountRight (h : Host) : Prop :=
  (∀ slot dev, h.devs slot = some dev → Quiet dev) →
    0 ≤ h.numActiveIsocEps ∧ h.numActiveIsocEps = (allInstalled h : ℤ) ∧ (0 < allInstalled h → h.isochInRunning = true)

theorem isoc_counted (reachable : Reachable Careful h) : CountRight h := by
  intro quiet
  have counted := reachable_counted reachable
  have each : ∀ slot, (h.devs slot).elim 0 planned = (h.devs slot).elim 0 installed := by
    intro slot
    cases found : h.devs slot with
    | none => rw [Option.elim_none, Option.elim_none]
    | some dev =>
      rw [Option.elim_some, Option.elim_some]
      exact (counted.matched found).quiet (quiet slot dev found)
  have same : allPlanned h = allInstalled h := Finset.sum_congr rfl fun slot _ => each slot
  have count := counted.count
  rw [same] at count
  refine ⟨by omega, count, ?_⟩
  intro positive
  exact (counted.loop (by omega)).1

end Steps

/-- A device with one isochronous endpoint. -/
def theDevice : Caller := ⟨1, 7, false, false, false⟩

def setUp : List Op :=
  [.allocDev 1 7 true, .addEndpoint theDevice ⟨1, true, .isoc⟩ true true, .checkBandwidth theDevice true (.completed 0)]

/-- Only the one device is there, and nothing is marked. -/
theorem quiet_of_one {h : Host} (others : ∀ slot, slot ≠ 1 → (h.devs slot).isNone = true)
    (quiet : ∀ dev, h.devs 1 = some dev → Quiet dev) : ∀ slot dev, h.devs slot = some dev → Quiet dev := by
  intro slot dev found
  by_cases same : slot = 1
  · exact quiet dev (same ▸ found)
  · have none := others slot same
    rw [found] at none
    cases none

theorem isoc_counted_setUp : 0 < allInstalled (setUp.foldl step Host.initial) ∧
    (setUp.foldl step Host.initial).isochInRunning = true := by
  have reachable : Reachable Careful (setUp.foldl step Host.initial) :=
    Run.Reachable.all (.first rfl) ⟨⟨trivial, trivial⟩, ⟨trivial, fun _ => ⟨rfl, rfl⟩⟩, ⟨trivial, trivial⟩, trivial⟩
  have quiet : ∀ dev, (setUp.foldl step Host.initial).devs 1 = some dev → Quiet dev := by
    intro dev found
    obtain rfl : ((setUp.foldl step Host.initial).devs 1).get (by decide +kernel) = dev := Option.get_of_eq_some _ found
    exact ⟨by decide +kernel, by decide +kernel⟩
  have positive : 0 < allInstalled (setUp.foldl step Host.initial) := by decide +kernel
  exact ⟨positive, (isoc_counted reachable (quiet_of_one (by decide +kernel) quiet)).2.2 positive⟩

def afterReset : List Op := setUp ++ [.discoverOrResetDevice theDevice 1 true .done]

/-- The device is reset: its endpoint is gone and still counted. -/
theorem not_isoc_counted : ¬∀ h, Reachable (fun _ _ => True) h → CountRight h := by
  intro always
  have reachable : Reachable (fun _ _ => True) (afterReset.foldl step Host.initial) :=
    Run.Reachable.all (.first rfl) ⟨⟨trivial, trivial⟩, ⟨trivial, trivial⟩, ⟨trivial, trivial⟩, ⟨trivial, trivial⟩, trivial⟩
  have quiet : ∀ dev, (afterReset.foldl step Host.initial).devs 1 = some dev →
      Quiet dev := by
    intro dev found
    obtain rfl : ((afterReset.foldl step Host.initial).devs 1).get (by decide +kernel) = dev := Option.get_of_eq_some _ found
    exact ⟨by decide +kernel, by decide +kernel⟩
  have right := (always _ reachable (quiet_of_one (by decide +kernel) quiet)).2.1
  revert right
  decide +kernel

end Ehub.IsocCount
