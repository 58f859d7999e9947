import Mathlib
import Ehub.Run
import Ehub.Slots
import Ehub.EndpointConfig

/-!
Whole reconfigurations of a device: calls of `drop_endpoint` and `add_endpoint`, then
`check_bandwidth` or `reset_bandwidth`. The USB core drops and adds each endpoint at most
once, and drops it first.

After a `check_bandwidth` that returns 0 every endpoint has the ring the calls asked for
and the controller was told the right number of contexts (`reconfigured`). After
`reset_bandwidth` the rings and the flags are what they were, but an endpoint that was
prepared to be added again keeps the parameters of the ring it did not get
(`rolled_back_iff`).
-/
namespace Ehub.Reconfigure
open Ehub.EndpointConfig Ehub.Slots

inductive Action
  | drop (goingGone disabled : Bool)
  | add (allocated submitted : Bool)

/-- A call for a device, with the state the controller is in then. -/
structure Call where
  desc : Descriptor
  halted : Bool
  dying : Bool
  action : Action

namespace Call

def index (call : Call) : BitVec 32 := call.desc.getEndpointIndex

def isDrop (call : Call) : Bool :=
  match call.action with
  | .drop _ _ => true
  | .add _ _ => false

def caller (call : Call) (device : Caller) : Caller := { device with halted := call.halted, dying := call.dying }

def op (call : Call) (device : Caller) : Op :=
  match call.action with
  | .drop goingGone disabled => .dropEndpoint (call.caller device) goingGone call.desc disabled
  | .add allocated submitted => .addEndpoint (call.caller device) call.desc allocated submitted

end Call

def perform (device : Caller) (h : Host) (call : Call) : Host := step h (call.op device)

def run (device : Caller) (h : Host) (calls : List Call) : Host := calls.foldl (perform device) h

theorem perform_drop (device : Caller) (h : Host) (desc : Descriptor) (halted dying goingGone disabled : Bool) :
    perform device h ⟨desc, halted, dying, .drop goingGone disabled⟩ =
      (h.dropEndpoint { device with halted, dying } goingGone desc disabled).1 := rfl

theorem perform_add (device : Caller) (h : Host) (desc : Descriptor) (halted dying allocated submitted : Bool) :
    perform device h ⟨desc, halted, dying, .add allocated submitted⟩ =
      (h.addEndpoint { device with halted, dying } desc allocated submitted).1 := rfl

/-- At most one drop for each endpoint, and then at most one add. -/
def Orderly (calls : List Call) : Prop :=
  calls.Pairwise fun first second => first.index = second.index → first.isDrop = true ∧ second.isDrop = false

theorem run_reachable (device : Caller) {h : Host} (reachable : Reachable h) (calls : List Call) :
    Reachable (run device h calls) := by
  induction calls generalizing h with
  | nil => exact reachable
  | cons call calls ih => exact ih (.step (call.op device) reachable trivial)

section Staging
variable {first h : Host} {device : Caller} {old dev : Device}

/-- What the calls for a device have done since the first state: they have marked
    endpoints and allocated a ring for each endpoint to be added. -/
structure Staged (first : Host) (device : Caller) (old : Device) (h : Host) (dev : Device) : Prop where
  found : h.devs device.slot = some dev
  udev : dev.udev = old.udev
  freed : h.freed = first.freed
  sent : h.sent = first.sent
  next : first.next ≤ h.next
  ring : ∀ i, (dev.eps i).ring = (old.eps i).ring
  added : ∀ {i}, 1 ≤ i → i < 31 → has dev.inCtx.addFlags i = true → ∃ ring, (dev.eps i).newRing = some ring ∧ first.next ≤ ring.id
  unadded : ∀ {i}, 1 ≤ i → i < 31 → has dev.inCtx.addFlags i = false → (dev.eps i).newRing = none
  room : ∀ {i}, 1 ≤ i → i < 31 → has dev.inCtx.addFlags i = true → (dev.eps i).ring = none ∨ has dev.inCtx.dropFlags i = true
  all : ∀ {b}, first.next ≤ b → b < h.next → ∃ i, 1 ≤ i ∧ i < 31 ∧ (dev.eps i).hold true = some b

theorem Staged.begin (found : first.devs device.slot = some old) (quiet : Quiet old) : Staged first device old first old where
  found := found
  udev := rfl
  freed := rfl
  sent := rfl
  next := le_refl _
  ring _ := rfl
  added {i} one inside marked := absurd ⟨i, one, inside, .inl marked⟩ quiet.unmarked
  unadded _ inside _ := quiet.noNew _ inside
  room {i} one inside marked := absurd ⟨i, one, inside, .inl marked⟩ quiet.unmarked
  all low high := absurd high (by omega)

/-- What a call leaves alone: the marks and parameters of other endpoints, and the
    parameters of all when it drops one. -/
structure Local (call : Call) (dev dev' : Device) : Prop where
  add : ∀ {i}, i < 31 → i ≠ call.index.toNat → has dev'.inCtx.addFlags i = has dev.inCtx.addFlags i
  eps : ∀ {i}, i ≠ call.index.toNat ∨ call.isDrop = true → dev'.eps i = dev.eps i

theorem Local.refl (call : Call) (dev : Device) : Local call dev dev := ⟨fun _ _ => rfl, fun _ => rfl⟩

theorem Staged.drop (staged : Staged first device old h dev) {caller : Caller} {goingGone disabled : Bool} {desc : Descriptor}
    (drops : Drops h caller goingGone desc disabled dev) (same : caller.slot = device.slot)
    (unadded : has dev.inCtx.addFlags desc.getEndpointIndex.toNat = false) :
    Staged first device old (h.dropEndpoint caller goingGone desc disabled).1 (dev.marked desc.getEndpointIndex.toNat) := by
  obtain ⟨devs, freed, sent, next⟩ := endpointZero_frame (h.setDev caller.slot (dev.marked desc.getEndpointIndex.toNat)) desc
  have add : ∀ {i}, i < 31 → has (dev.marked desc.getEndpointIndex.toNat).inCtx.addFlags i = has dev.inCtx.addFlags i := by
    intro i inside
    refine (has_and_not_flag _ inside).trans ?_
    by_cases own : desc.getEndpointIndex.toNat = i
    · rw [← own, unadded, Bool.false_and]
    · simp [own]
  rw [drop_eq drops]
  constructor
  · rw [devs, same]
    exact Function.update_self ..
  · exact staged.udev
  · exact freed.trans staged.freed
  · exact sent.trans staged.sent
  · rw [next]
    exact staged.next
  · exact staged.ring
  · exact fun one inside marked => staged.added one inside ((add inside).symm.trans marked)
  · exact fun one inside clear => staged.unadded one inside ((add inside).symm.trans clear)
  · intro i one inside marked
    rcases staged.room one inside ((add inside).symm.trans marked) with none | dropped
    · exact .inl none
    · refine .inr ((has_or_flag _ inside).trans ?_)
      rw [dropped, Bool.true_or]
  · rw [next]
    exact staged.all

theorem Staged.add (staged : Staged first device old h dev) {caller : Caller} {desc : Descriptor}
    (prepares : Prepares h caller desc dev) (same : caller.slot = device.slot) (allocated submitted : Bool) :
    Staged first device old (h.addEndpoint caller desc allocated submitted).1
      (dev.staged desc (if allocated then some ⟨h.next, desc.xfer⟩ else none)) := by
  have added := add_eq prepares allocated submitted
  generalize (h.addEndpoint caller desc allocated submitted).1 = after at added ⊢
  obtain ⟨one, inside⟩ := prepares.inside
  have noNew := staged.unadded one inside prepares.unmarked
  constructor
  · rw [added.devs, same]
    exact Function.update_self ..
  · exact staged.udev
  · exact added.freed.trans staged.freed
  · exact added.sent.trans staged.sent
  · have later := staged.next
    rw [added.next]
    split_ifs <;> omega
  · intro i
    rw [staged_eps]
    by_cases own : i = desc.getEndpointIndex.toNat
    · rw [if_pos own]
      exact staged.ring i
    · rw [if_neg own]
      exact staged.ring i
  · intro i one' inside' marked
    rw [staged_add _ _ _ inside'] at marked
    rw [staged_eps]
    by_cases own : i = desc.getEndpointIndex.toNat
    · rw [if_pos own]
      subst own
      rw [prepares.unmarked] at marked
      cases allocated with
      | false => cases marked
      | true => exact ⟨_, rfl, staged.next⟩
    · rw [if_neg own]
      refine staged.added one' inside' ?_
      simpa [Ne.symm own] using marked
  · intro i one' inside' clear
    rw [staged_add _ _ _ inside'] at clear
    rw [staged_eps]
    by_cases own : i = desc.getEndpointIndex.toNat
    · rw [if_pos own]
      subst own
      cases allocated with
      | false => rfl
      | true => simp at clear
    · rw [if_neg own]
      refine staged.unadded one' inside' ?_
      simpa [Ne.symm own] using clear
  · intro i one' inside' marked
    rw [staged_add _ _ _ inside'] at marked
    rw [staged_eps]
    by_cases own : i = desc.getEndpointIndex.toNat
    · rw [if_pos own]
      subst own
      exact prepares.room
    · rw [if_neg own]
      refine staged.room one' inside' ?_
      simpa [Ne.symm own] using marked
  · -- The new ring is the only one since, and none was there to be forgotten.
    intro b low high
    have other : ∀ {i}, (dev.eps i).hold true = some b →
        ((dev.staged desc (if allocated then some ⟨h.next, desc.xfer⟩ else none)).eps i).hold true = some b := by
      intro i held
      rw [staged_eps]
      by_cases own : i = desc.getEndpointIndex.toNat
      · rw [own] at held
        simp [Endpoint.hold, noNew] at held
      · rwa [if_neg own]
    rw [added.next] at high
    by_cases before : b < h.next
    · obtain ⟨i, one', inside', held⟩ := staged.all low before
      exact ⟨i, one', inside', other held⟩
    · cases allocated with
      | false => exact absurd high before
      | true =>
        have latest : b = h.next := by
          simp only [if_true] at high
          omega
        refine ⟨_, one, inside, ?_⟩
        rw [staged_eps, if_pos rfl, latest]
        rfl

/-- One call. -/
theorem Staged.perform (staged : Staged first device old h dev) (call : Call)
    (orderly : call.isDrop = true → call.desc.Inside → has dev.inCtx.addFlags call.index.toNat = false) :
    ∃ dev', Staged first device old (perform device h call) dev' ∧ Local call dev dev' := by
  obtain ⟨desc, halted, dying, action⟩ := call
  have only : ∀ {caller : Caller} {other : Device}, h.checkArgs caller = .ok other → caller.slot = device.slot → other = dev := by
    intro caller other served same
    have found := (checkArgs_ok.mp served).2.1
    rw [same, staged.found] at found
    exact (Option.some.inj found).symm
  cases action with
  | drop goingGone disabled =>
    by_cases drops : ∃ other, Drops h { device with halted, dying } goingGone desc disabled other
    · obtain ⟨other, drops⟩ := drops
      obtain rfl := only drops.served rfl
      refine ⟨_, staged.drop drops rfl (orderly rfl drops.inside), ?_, fun _ => rfl⟩
      intro i inside different
      change i ≠ desc.getEndpointIndex.toNat at different
      refine (has_and_not_flag _ inside).trans ?_
      dsimp only
      rw [decide_eq_false (Ne.symm different), Bool.not_false, Bool.and_true]
    · refine ⟨dev, ?_, .refl _ dev⟩
      have nothing := drop_other (not_exists.mp drops)
      rw [perform_drop, nothing]
      exact staged
  | add allocated submitted =>
    by_cases prepares : ∃ other, Prepares h { device with halted, dying } desc other
    · obtain ⟨other, prepares⟩ := prepares
      obtain rfl := only prepares.served rfl
      refine ⟨_, staged.add prepares rfl allocated submitted, ?_, ?_⟩
      · intro i inside different
        change i ≠ desc.getEndpointIndex.toNat at different
        rw [staged_add _ _ _ inside, decide_eq_false (Ne.symm different), Bool.and_false, Bool.or_false]
      · intro i different
        rw [staged_eps]
        rcases different with different | drop
        · exact if_neg different
        · cases drop
    · refine ⟨dev, ?_, .refl _ dev⟩
      have nothing := add_other (not_exists.mp prepares) allocated submitted
      rw [perform_add, nothing]
      exact staged

theorem Local.free {call : Call} {calls : List Call} {dev' : Device} (kept : Local call dev dev') (orderly : Orderly (call :: calls))
    (free : ∀ other ∈ call :: calls, other.isDrop = true → other.desc.Inside → has dev.inCtx.addFlags other.index.toNat = false) :
    ∀ other ∈ calls, other.isDrop = true → other.desc.Inside → has dev'.inCtx.addFlags other.index.toNat = false := by
  intro later listed drops inside
  have other : later.index.toNat ≠ call.index.toNat := by
    intro same
    have twice := ((List.pairwise_cons.mp orderly).1 later listed (BitVec.eq_of_toNat_eq same.symm)).2
    exact Bool.noConfusion (drops.symm.trans twice)
  rw [kept.add (i := later.index.toNat) inside.2 other]
  exact free later (List.mem_cons_of_mem _ listed) drops inside

/-- All calls, when none of them drops an endpoint that an earlier one has added. -/
theorem Staged.run : ∀ {calls : List Call} {h : Host} {dev : Device}, Staged first device old h dev → Orderly calls →
    (∀ call ∈ calls, call.isDrop = true → call.desc.Inside → has dev.inCtx.addFlags call.index.toNat = false) →
    ∃ dev', Staged first device old (run device h calls) dev' := by
  intro calls
  induction calls with
  | nil => exact fun staged _ _ => ⟨_, staged⟩
  | cons call calls ih =>
    intro h dev staged orderly free
    obtain ⟨dev', staged', kept⟩ := staged.perform call (free call List.mem_cons_self)
    exact ih staged' orderly.of_cons (kept.free orderly free)

theorem quiet_free (quiet : Quiet old) {calls : List Call} :
    ∀ call ∈ calls, call.isDrop = true → call.desc.Inside → has old.inCtx.addFlags call.index.toNat = false := by
  intro call _ _ inside
  by_contra marked
  exact quiet.unmarked ⟨_, inside.1, inside.2, .inl (Bool.eq_true_of_not_eq_false marked)⟩

theorem Staged.all_calls (found : first.devs device.slot = some old) (quiet : Quiet old) {calls : List Call} (orderly : Orderly calls) :
    ∃ dev, Staged first device old (Reconfigure.run device first calls) dev :=
  (Staged.begin found quiet).run orderly (quiet_free quiet)

end Staging

section Success
variable {h after : Host} {dev : Device}

/-- The context of the endpoint is part of the new configuration. -/
def Chosen (dev : Device) (i : ℕ) : Prop :=
  ((dev.eps i).ring.isSome = true ∧ has dev.inCtx.dropFlags i = false) ∨ has dev.inCtx.addFlags i = true

theorem findLastCtx_succ (dev : Device) (i : ℕ) : dev.findLastCtx (i + 1) =
    if ((dev.eps i).ring.isSome ∧ dev.inCtx.dropFlags &&& flag i = 0) ∨ dev.inCtx.addFlags &&& flag i ≠ 0 ∨ i + 1 = 1 then i + 1
    else dev.findLastCtx i := rfl

theorem findLastCtx_spec (dev : Device) : ∀ {n : ℕ}, n < 31 → 1 ≤ dev.findLastCtx (n + 1) ∧ dev.findLastCtx (n + 1) ≤ n + 1 ∧
    (dev.findLastCtx (n + 1) = 1 ∨ Chosen dev (dev.findLastCtx (n + 1) - 1)) ∧
      ∀ i, dev.findLastCtx (n + 1) ≤ i → i ≤ n → ¬Chosen dev i := by
  intro n
  induction n with
  | zero =>
    intro _
    have one : dev.findLastCtx 1 = 1 := by
      rw [findLastCtx_succ, if_pos (.inr (.inr rfl))]
    rw [one]
    exact ⟨le_refl 1, le_refl 1, .inl rfl, fun i low high => absurd high (by omega)⟩
  | succ n ih =>
    intro inside
    have test : ((dev.eps (n + 1)).ring.isSome = true ∧ dev.inCtx.dropFlags &&& flag (n + 1) = 0) ∨
        dev.inCtx.addFlags &&& flag (n + 1) ≠ 0 ∨ n + 1 + 1 = 1 ↔ Chosen dev (n + 1) := by
      unfold Chosen
      rw [ne_eq, and_flag _ inside, and_flag _ inside, Bool.not_eq_false]
      simp
    rw [findLastCtx_succ]
    by_cases chosen : Chosen dev (n + 1)
    · rw [if_pos (test.mpr chosen)]
      exact ⟨by omega, le_refl _, .inr chosen, fun i low high => absurd high (by omega)⟩
    · rw [if_neg (fun hit => chosen (test.mp hit))]
      obtain ⟨low, high, hit, none⟩ := ih (by omega)
      refine ⟨low, by omega, hit, ?_⟩
      intro i above below
      rcases Nat.lt_or_ge n i with last | earlier
      · rwa [show i = n + 1 by omega]
      · exact none i above earlier

/-- A command has been sent and succeeded. -/
theorem check_success (caller : Caller) {command : Bool} {configured : Configured} (found : h.devs caller.slot = some dev)
    (notRoot : caller.rootHub = false) (marked : dev.Marked) (ok : h.checkBandwidth caller command configured = (after, 0)) :
    ∃ answered, Answered (h.setDev caller.slot dev.ready) dev.ready.inCtx (.completed 0) answered ∧
      after = answered.install caller.slot dev.ready := by
  have ret := congrArg Prod.snd ok
  have served : h.checkArgs caller = .ok dev := by
    cases answer : h.checkArgs caller with
    | error code =>
      rw [Host.checkBandwidth, answer] at ret
      obtain rfl : code = 0 := ret
      unfold Host.checkArgs at answer
      rw [notRoot, if_neg Bool.noConfusion, found] at answer
      dsimp only at answer
      split_ifs at answer <;> cases answer
    | ok other =>
      have same := (checkArgs_ok.mp answer).2.1
      rw [found] at same
      rw [Option.some.inj same]
  have alive : caller.dying = false := by
    by_contra dying
    simp [Host.checkBandwidth, served, Bool.eq_true_of_not_eq_false dying] at ret
  have commanded : command = true := by
    by_contra none
    simp [Host.checkBandwidth, served, alive, Bool.eq_false_of_not_eq_true none] at ret
  subst commanded
  rw [check_marked served alive configured marked] at ok
  dsimp only at ok
  have answered := configure_answered (h.setDev caller.slot dev.ready) dev.ready.inCtx configured
  by_cases failed : ((h.setDev caller.slot dev.ready).configureEndpoint dev.ready.inCtx configured).2 ≠ 0
  · rw [if_pos failed] at ok
    exact absurd (congrArg Prod.snd ok) failed
  · rw [if_neg failed] at ok
    rw [not_not, configure_ret] at failed
    rw [failed] at answered ok
    exact ⟨_, answered, (congrArg Prod.fst ok).symm⟩

/-- The rings of a device follow the flags: `marked` is the device when `check_bandwidth`
    is called and `final` when it has returned. -/
structure Reconfigured (h : Host) (old marked : Device) (after : Host) (final : Device) : Prop where
  added : ∀ i, 1 ≤ i → i < 31 → has marked.inCtx.addFlags i = true →
    ∃ ring, (marked.eps i).newRing = some ring ∧ h.next ≤ ring.id ∧ (final.eps i).ring = some ring
  dropped : ∀ i, 1 ≤ i → i < 31 → has marked.inCtx.addFlags i = false → has marked.inCtx.dropFlags i = true →
    (final.eps i).ring = none
  kept : ∀ i, 1 ≤ i → i < 31 → has marked.inCtx.addFlags i = false → has marked.inCtx.dropFlags i = false →
    (final.eps i).ring = (old.eps i).ring
  freed : ∀ i ring, 1 ≤ i → i < 31 → (old.eps i).ring = some ring →
    has marked.inCtx.addFlags i = true ∨ has marked.inCtx.dropFlags i = true → after.freed.count ring.id = 1
  unfreed : ∀ slot dev i ring, after.devs slot = some dev → (dev.eps i).ring = some ring → ring.id ∉ after.freed
  noNew : ∀ i < 31, (final.eps i).newRing = none
  clear : final.inCtx.addFlags = 0 ∧ final.inCtx.dropFlags = 0
  told : ∃ inCtx, after.sent = h.sent ++ [inCtx] ∧
    IsGreatest {n | ∃ i < 31, (final.eps i).ring.isSome = true ∧ n = i + 1} inCtx.contextEntries

/-- After calls that go together, a `check_bandwidth` that returns 0 has done what they
    asked for. -/
theorem reconfigured (reachable : Reachable h) {device : Caller} {old : Device} (found : h.devs device.slot = some old)
    (notRoot : device.rootHub = false) (quiet : Quiet old) {calls : List Call} (orderly : Orderly calls) {marked : Device}
    (there : (run device h calls).devs device.slot = some marked) (pending : marked.Marked) {halted dying command : Bool}
    {configured : Configured}
    (ok : (run device h calls).checkBandwidth { device with halted, dying } command configured = (after, 0)) :
    ∃ final, after.devs device.slot = some final ∧ Reconfigured h old marked after final := by
  obtain ⟨dev, staged⟩ := Staged.all_calls found quiet orderly
  obtain rfl : dev = marked := Option.some.inj (staged.found.symm.trans there)
  have inv : Inv after := by
    have kept := (reachable_inv (run_reachable device reachable calls)).checkBandwidth
      { device with halted, dying } command configured
    rwa [ok] at kept
  obtain ⟨answered, frame, result⟩ := check_success { device with halted, dying } there notRoot pending ok
  obtain ⟨final, installed⟩ := install_installed answered device.slot dev.ready
  rw [← result] at installed
  have final_found : after.devs device.slot = some final := by
    rw [installed.devs]
    exact Function.update_self ..
  have new : ∀ {i}, 1 ≤ i → i < 31 → (dev.eps i).newRing.isSome = has dev.ready.inCtx.addFlags i := by
    intro i one inside
    rw [(ready_flags dev one inside).1]
    cases marked : has dev.inCtx.addFlags i with
    | true =>
      obtain ⟨ring, fresh, -⟩ := staged.added one inside marked
      rw [fresh]
      rfl
    | false =>
      rw [staged.unadded one inside marked]
      rfl
  have eps : ∀ {i}, 1 ≤ i → i < 31 → (final.eps i).newRing = none ∧ (final.eps i).ring =
      if has dev.inCtx.addFlags i then (dev.eps i).newRing else if has dev.inCtx.dropFlags i then none else (dev.eps i).ring := by
    intro i one inside
    have flags := ready_flags dev one inside
    rw [installed.eps one inside, ← flags.1, ← flags.2]
    exact install_endpoint inside (new one inside)
  have zero : (final.eps 0).ring.isSome = true ∧ (final.eps 0).newRing = none := (inv.ep0 final_found).2
  refine ⟨final, final_found, ?_, ?_, ?_, ?_, ?_, ?_, ?_, ?_⟩
  · intro i one inside marked
    obtain ⟨ring, fresh, recent⟩ := staged.added one inside marked
    refine ⟨ring, fresh, recent, ?_⟩
    rw [(eps one inside).2, if_pos marked, fresh]
  · intro i one inside add drop
    rw [(eps one inside).2, add, drop]
    rfl
  · intro i one inside add drop
    rw [(eps one inside).2, add, drop]
    exact staged.ring i
  · intro i ring one inside was marks
    refine List.count_eq_one_of_mem inv.sound.once (installed.freed one inside ?_)
    have flags := ready_flags dev one inside
    rw [← flags.1, ← flags.2] at marks
    exact install_freed inside (new one inside) ((staged.ring i).trans was) marks
  · intro slot other i ring listed holds
    refine inv.sound.live (p := (slot, i, false)) ?_
    rw [hold_found listed]
    unfold Endpoint.hold
    rw [if_neg Bool.noConfusion, holds]
    rfl
  · intro i inside
    rcases Nat.eq_zero_or_pos i with rfl | one
    · exact zero.2
    · exact (eps one inside).1
  · rw [installed.inCtx]
    exact ⟨rfl, rfl⟩
  · -- An endpoint has a ring now if and only if it was chosen when the contexts were counted.
    have chosen : ∀ {i}, 1 ≤ i → i < 31 → ((final.eps i).ring.isSome = true ↔ Chosen dev.masked i) := by
      intro i one inside
      have flags := ready_flags dev one inside
      rw [(eps one inside).2]
      unfold Chosen
      rw [show has dev.masked.inCtx.addFlags i = has dev.inCtx.addFlags i from flags.1,
        show has dev.masked.inCtx.dropFlags i = has dev.inCtx.dropFlags i from flags.2]
      cases add : has dev.inCtx.addFlags i with
      | true =>
        have fresh := new one inside
        rw [flags.1, add] at fresh
        simp [fresh]
      | false =>
        cases drop : has dev.inCtx.dropFlags i with
        | true => simp
        | false => simp [Device.masked]
    obtain ⟨low, high, hit, none⟩ := findLastCtx_spec dev.masked (n := 30) (by decide)
    refine ⟨dev.ready.inCtx, ?_, ?_, ?_⟩
    · rw [installed.sent, frame.sent]
      exact congrArg (· ++ [dev.ready.inCtx]) staged.sent
    · change ∃ i < 31, (final.eps i).ring.isSome = true ∧ dev.masked.findLastCtx (30 + 1) = i + 1
      refine ⟨dev.masked.findLastCtx (30 + 1) - 1, by omega, ?_, by omega⟩
      rcases Nat.eq_or_lt_of_le low with first | later
      · rw [← first]
        exact zero.1
      · refine (chosen (by omega) (by omega)).mpr (hit.resolve_left (by omega))
    · rintro n ⟨i, inside, has_ring, rfl⟩
      change i + 1 ≤ dev.masked.findLastCtx (30 + 1)
      by_contra above
      rcases Nat.eq_zero_or_pos i with rfl | one
      · omega
      · exact none i (by omega) (by omega) ((chosen one inside).mp has_ring)

/-- Endpoint 1 OUT of a device is isochronous, endpoint 1 IN is a bulk endpoint. -/
def someDevice : Caller := ⟨1, 7, false, false, false⟩

def setUp : List Op :=
  [.allocDev 1 7 true, .addEndpoint someDevice ⟨1, false, .isoc⟩ true true, .addEndpoint someDevice ⟨1, true, .bulk⟩ true true,
    .checkBandwidth someDevice true (.completed 0)]

def someHost : Host := setUp.foldl step Host.initial

theorem someHost_reachable : Reachable someHost := Run.Reachable.all (.first rfl) ⟨trivial, trivial, trivial, trivial, trivial⟩

def setUpDevice : Device := (someHost.devs 1).get (by decide +kernel)

theorem setUpDevice_found : someHost.devs someDevice.slot = some setUpDevice := (Option.some_get _).symm

theorem setUpDevice_quiet : Quiet setUpDevice := ⟨by decide +kernel, by decide +kernel⟩

def changes : List Call :=
  [⟨⟨1, false, .isoc⟩, false, false, .drop false false⟩, ⟨⟨1, false, .bulk⟩, false, false, .add true true⟩,
    ⟨⟨1, true, .bulk⟩, false, false, .drop false false⟩]

theorem changes_orderly : Orderly changes := by
  unfold Orderly
  decide +kernel

def changedDevice : Device := ((run someDevice someHost changes).devs 1).get (by decide +kernel)

theorem reconfigured_changes :
    ∃ final, ((run someDevice someHost changes).checkBandwidth someDevice true (.completed 0)).1.devs 1 = some final ∧
      Reconfigured someHost setUpDevice changedDevice
        ((run someDevice someHost changes).checkBandwidth someDevice true (.completed 0)).1 final :=
  reconfigured someHost_reachable setUpDevice_found rfl setUpDevice_quiet changes_orderly (Option.some_get _).symm
    (by decide +kernel)
    (show (run someDevice someHost changes).checkBandwidth someDevice true (.completed 0) = (_, 0) from Prod.ext rfl (by decide +kernel))

end Success

section Rollback
variable {first h : Host} {device : Caller} {old dev : Device}

/-- The parameters that are used when something is queued on the ring. -/
def params (ep : Endpoint) : ℕ × Bool × Bool := (ep.maxBufferSize, ep.cacheData, ep.skip)

/-- What `endpoint_init` writes are the parameters that are there already. -/
def Unchanged (ep : Endpoint) (desc : Descriptor) (allocated : Bool) : Prop :=
  ep.maxBufferSize = (if desc.isocOut then cacheBlockSize else trbMaxBuffSize) ∧
    (desc.isocOut = true → ep.cacheData = true) ∧ (allocated = true → ep.skip = false)

/-- No endpoint that has a ring is prepared for a ring with other parameters. -/
def Keeps (device : Caller) (h : Host) (call : Call) : Prop :=
  match call.action with
  | .drop _ _ => True
  | .add allocated _ => ∀ dev, Prepares h (call.caller device) call.desc dev → (dev.eps call.index.toNat).ring.isSome = true →
      Unchanged (dev.eps call.index.toNat) call.desc allocated

theorem params_prepare (ep : Endpoint) (desc : Descriptor) (newRing : Option Ring) :
    params (ep.prepare desc newRing) = params ep ↔ Unchanged ep desc newRing.isSome := by
  unfold params Unchanged Endpoint.prepare
  simp only [Prod.mk.injEq]
  refine and_congr eq_comm (and_congr ?_ ?_)
  · cases desc.isocOut <;> cases ep.cacheData <;> simp
  · cases newRing.isSome <;> cases ep.skip <;> simp

/-- One call keeps the parameters of all rings if and only if it meets the condition. -/
theorem Staged.perform_params (staged : Staged first device old h dev) (call : Call) {dev' : Device}
    (found : (Reconfigure.perform device h call).devs device.slot = some dev') :
    (∀ i < 31, (dev.eps i).ring.isSome = true → params (dev'.eps i) = params (dev.eps i)) ↔ Keeps device h call := by
  obtain ⟨desc, halted, dying, action⟩ := call
  have only : ∀ {caller : Caller} {other : Device}, h.checkArgs caller = .ok other → caller.slot = device.slot → other = dev := by
    intro caller other served same
    have found := (checkArgs_ok.mp served).2.1
    rw [same, staged.found] at found
    exact (Option.some.inj found).symm
  cases action with
  | drop goingGone disabled =>
    refine iff_of_true (fun i _ _ => ?_) trivial
    rw [perform_drop] at found
    by_cases drops : ∃ other, Drops h { device with halted, dying } goingGone desc disabled other
    · obtain ⟨other, drops⟩ := drops
      obtain rfl := only drops.served rfl
      rw [drop_eq drops, (endpointZero_frame _ desc).1] at found
      simp only [Host.setDev, Function.update_self, Option.some.injEq] at found
      rw [← found]
      rfl
    · rw [drop_other (not_exists.mp drops), staged.found] at found
      rw [Option.some.inj found]
  | add allocated submitted =>
    rw [perform_add] at found
    by_cases prepares : ∃ other, Prepares h { device with halted, dying } desc other
    · obtain ⟨other, prepares⟩ := prepares
      obtain rfl := only prepares.served rfl
      have added := add_eq prepares allocated submitted
      rw [added.devs] at found
      simp only [Function.update_self, Option.some.injEq] at found
      have own : params (dev'.eps desc.getEndpointIndex.toNat) = params (other.eps desc.getEndpointIndex.toNat) ↔
          Unchanged (other.eps desc.getEndpointIndex.toNat) desc allocated := by
        rw [← found, staged_eps, if_pos rfl, params_prepare]
        cases allocated <;> rfl
      constructor
      · intro same otherDev again ring
        obtain rfl := only again.served rfl
        exact own.mp (same _ prepares.inside.2 ring)
      · intro keeps i inside ring
        by_cases here : i = desc.getEndpointIndex.toNat
        · rw [here] at ring ⊢
          exact own.mpr (keeps other prepares ring)
        · rw [← found, staged_eps, if_neg here]
    · rw [add_other (not_exists.mp prepares), staged.found] at found
      refine iff_of_true (fun i _ _ => by rw [Option.some.inj found]) ?_
      exact fun other prepare => absurd ⟨other, prepare⟩ prepares

/-- Calls that add no endpoint with this index leave it alone. -/
theorem Staged.run_eps {i : ℕ} : ∀ {calls : List Call} {h : Host} {dev final : Device}, Staged first device old h dev →
    Orderly calls →
    (∀ call ∈ calls, call.isDrop = true → call.desc.Inside → has dev.inCtx.addFlags call.index.toNat = false) →
    (∀ call ∈ calls, i ≠ call.index.toNat) → (Reconfigure.run device h calls).devs device.slot = some final →
    final.eps i = dev.eps i := by
  intro calls
  induction calls with
  | nil =>
    intro h dev final staged _ _ _ found
    rw [Option.some.inj (staged.found.symm.trans found)]
  | cons call calls ih =>
    intro h dev final staged orderly free other found
    obtain ⟨dev', staged', kept⟩ := staged.perform call (free call List.mem_cons_self)
    rw [ih staged' orderly.of_cons (kept.free orderly free) (fun later listed => other later (List.mem_cons_of_mem _ listed)) found]
    exact kept.eps (.inl (other call List.mem_cons_self))

theorem Staged.run_params : ∀ {calls : List Call} {h : Host} {dev final : Device}, Staged first device old h dev → Orderly calls →
    (∀ call ∈ calls, call.isDrop = true → call.desc.Inside → has dev.inCtx.addFlags call.index.toNat = false) →
    (Reconfigure.run device h calls).devs device.slot = some final →
    ((∀ i < 31, (old.eps i).ring.isSome = true → params (final.eps i) = params (dev.eps i)) ↔
      Run.Allows (Keeps device) (Reconfigure.perform device) h calls) := by
  intro calls
  induction calls with
  | nil =>
    intro h dev final staged _ _ found
    refine iff_of_true (fun i _ _ => ?_) trivial
    rw [Option.some.inj (staged.found.symm.trans found)]
  | cons call calls ih =>
    intro h dev final staged orderly free found
    obtain ⟨dev', staged', kept⟩ := staged.perform call (free call List.mem_cons_self)
    have rest := ih staged' orderly.of_cons (kept.free orderly free) found
    have one := staged.perform_params call staged'.found
    constructor
    · intro same
      have now : ∀ i < 31, (old.eps i).ring.isSome = true → params (dev'.eps i) = params (dev.eps i) := by
        intro i inside ring
        by_cases here : i ≠ call.index.toNat ∨ call.isDrop = true
        · rw [kept.eps here]
        · -- The endpoint is being added, so that no later call is about it.
          obtain ⟨own, adds⟩ := not_or.mp here
          rw [not_not] at own
          have later : ∀ other ∈ calls, i ≠ other.index.toNat := by
            intro other listed again
            have equal : call.index = other.index := BitVec.eq_of_toNat_eq (own.symm.trans again)
            exact adds ((List.pairwise_cons.mp orderly).1 other listed equal).1
          rw [← same i inside ring, staged'.run_eps orderly.of_cons (kept.free orderly free) later found]
      refine ⟨one.mp (fun i inside ring => now i inside ?_), rest.mp (fun i inside ring => ?_)⟩
      · rwa [← staged.ring i]
      · rw [same i inside ring, now i inside ring]
    · rintro ⟨keeps, later⟩ i inside ring
      rw [rest.mpr later i inside ring]
      refine one.mpr keeps i inside ?_
      rwa [staged.ring i]

/-- A `check_bandwidth` that fails, or none at all. -/
inductive Failed (device : Caller) (h : Host) : Host → Prop
  | unchecked : Failed device h h
  | checked (halted dying command : Bool) (configured : Configured)
      (failed : (h.checkBandwidth { device with halted, dying } command configured).2 ≠ 0) :
      Failed device h (h.checkBandwidth { device with halted, dying } command configured).1

/-- The marks may change, the endpoints do not. -/
theorem Failed.frame {checked : Host} (failed : Failed device h checked) (found : h.devs device.slot = some dev) :
    ∃ dev', checked.devs device.slot = some dev' ∧ dev'.eps = dev.eps ∧ dev'.udev = dev.udev ∧ checked.next = h.next ∧
      checked.freed = h.freed := by
  cases failed with
  | unchecked => exact ⟨dev, found, rfl, rfl, rfl, rfl⟩
  | checked halted dying command configured failed =>
    by_cases refused : (∃ ret, h.checkArgs { device with halted, dying } = .error ret) ∨ dying = true ∨ command = false
    · rw [check_refused refused]
      exact ⟨dev, found, rfl, rfl, rfl, rfl⟩
    obtain ⟨noError, alive, commanded⟩ :
        (¬∃ ret, h.checkArgs { device with halted, dying } = .error ret) ∧ dying = false ∧ command = true := by
      simpa [not_or] using refused
    subst commanded
    cases served : h.checkArgs { device with halted, dying } with
    | error ret => exact absurd ⟨ret, served⟩ noError
    | ok other =>
      obtain rfl : dev = other := Option.some.inj (found.symm.trans (checkArgs_ok.mp served).2.1)
      by_cases marked : dev.Marked
      · rw [check_marked served alive configured marked] at failed ⊢
        dsimp only at failed ⊢
        have answered := configure_answered (h.setDev device.slot dev.ready) dev.ready.inCtx configured
        by_cases refusal : ((h.setDev device.slot dev.ready).configureEndpoint dev.ready.inCtx configured).2 ≠ 0
        · rw [if_pos refusal]
          refine ⟨dev.ready, ?_, rfl, rfl, answered.next, answered.freed⟩
          rw [answered.devs]
          exact Function.update_self ..
        · rw [if_neg refusal] at failed
          exact absurd rfl failed
      · rw [check_unmarked served alive configured marked] at failed
        exact absurd rfl failed

/-- Everything is as it was before the calls. -/
structure RolledBack (h : Host) (old : Device) (after : Host) (final : Device) : Prop where
  rings : ∀ i ring, i < 31 → (old.eps i).ring = some ring → (final.eps i).ring = some ring ∧
    (final.eps i).maxBufferSize = (old.eps i).maxBufferSize ∧ (final.eps i).cacheData = (old.eps i).cacheData ∧
      (final.eps i).skip = (old.eps i).skip
  freed : ∀ b, h.next ≤ b → b < after.next → after.freed.count b = 1
  noNew : ∀ i < 31, (final.eps i).newRing = none
  clear : ¬final.Marked

/-- Rings and flags are always taken back. The parameters are what they were if and only
    if no call has written others. -/
theorem rolled_back_iff (reachable : Reachable h) (found : h.devs device.slot = some old) (owner : old.udev = device.udev)
    (notRoot : device.rootHub = false) (quiet : Quiet old) {calls : List Call} (orderly : Orderly calls) {checked : Host}
    (failed : Failed device (run device h calls) checked) (dying : Bool) :
    (∃ final, (checked.resetBandwidth { device with halted := false, dying }).devs device.slot = some final ∧
      RolledBack h old (checked.resetBandwidth { device with halted := false, dying }) final) ↔
    Run.Allows (Keeps device) (perform device) h calls := by
  obtain ⟨dev, staged⟩ := Staged.all_calls found quiet orderly
  obtain ⟨dev', there, eps, udev, next, freed⟩ := failed.frame staged.found
  have reached : Inv checked := by
    have before := reachable_inv (run_reachable device reachable calls)
    cases failed with
    | unchecked => exact before
    | checked halted dying command configured _ => exact before.checkBandwidth _ command configured
  have inv := reached.resetBandwidth { device with halted := false, dying }
  have served : checked.checkArgs { device with halted := false, dying } = .ok dev' := by
    refine checkArgs_ok.mpr ⟨notRoot, there, (reached.ep0 there).1, ?_, rfl⟩
    exact udev.trans (staged.udev.trans owner)
  have same : ∀ {i}, i < 31 → (sweep freeNew (List.range 31) dev'.eps checked.freed).1 i = { dev.eps i with newRing := none } := by
    intro i inside
    rw [sweep_slot _ _ List.nodup_range, if_pos (List.mem_range.mpr inside), eps]
    rfl
  have parameters := (Staged.begin found quiet).run_params orderly (quiet_free quiet) staged.found
  unfold Host.resetBandwidth at inv ⊢
  rw [served] at inv ⊢
  dsimp only at inv ⊢
  constructor
  · rintro ⟨final, now, back⟩
    have final_eq := Option.some.inj ((setDev_self ..).symm.trans now)
    refine parameters.mp (fun i inside ring => ?_)
    obtain ⟨held, holds⟩ := Option.isSome_iff_exists.mp ring
    obtain ⟨-, size, cache, skip⟩ := back.rings i held inside holds
    rw [← final_eq] at size cache skip
    dsimp only at size cache skip
    rw [same inside] at size cache skip
    exact Prod.ext size (Prod.ext cache skip)
  · intro allows
    refine ⟨_, Function.update_self .., ?_, ?_, ?_, ?_⟩
    · intro i ring inside holds
      have kept := parameters.mpr allows i inside (by rw [holds]; rfl)
      simp only [params, Prod.mk.injEq] at kept
      dsimp only
      rw [same inside]
      exact ⟨(staged.ring i).trans holds, kept⟩
    · intro b low high
      obtain ⟨i, one, inside, held⟩ := staged.all low (next ▸ high)
      refine List.count_eq_one_of_mem inv.sound.once ?_
      dsimp only
      rw [sweep_log _ _ List.nodup_range, List.mem_append]
      refine .inr (List.mem_flatMap.mpr ⟨i, List.mem_range.mpr inside, ?_⟩)
      rw [eps]
      unfold freeNew
      unfold Endpoint.hold at held
      obtain ⟨ring, fresh, rfl⟩ := Option.map_eq_some_iff.mp held
      rw [if_pos rfl] at fresh
      rw [fresh]
      exact List.mem_singleton_self _
    · intro i inside
      dsimp only
      rw [same inside]
    · rintro ⟨i, -, -, marks⟩
      unfold zeroInCtx has at marks
      simp at marks

def sameAgain : List Call :=
  [⟨⟨1, false, .isoc⟩, false, false, .drop false false⟩, ⟨⟨1, false, .isoc⟩, false, false, .add true true⟩]

theorem rolled_back_sameAgain :
    ∃ final, (((run someDevice someHost sameAgain).checkBandwidth someDevice true .notQueued).1.resetBandwidth someDevice).devs 1 =
      some final ∧ RolledBack someHost setUpDevice
        (((run someDevice someHost sameAgain).checkBandwidth someDevice true .notQueued).1.resetBandwidth someDevice) final := by
  refine (rolled_back_iff someHost_reachable setUpDevice_found (by decide +kernel) rfl setUpDevice_quiet
    (show Orderly sameAgain by unfold Orderly; decide +kernel) (.checked false false true .notQueued (by decide +kernel)) false).mpr ?_
  refine ⟨trivial, ?_, trivial⟩
  intro dev prepares _
  have found := (checkArgs_ok.mp prepares.served).2.1
  obtain rfl : ((run someDevice someHost (sameAgain.take 1)).devs 1).get (by decide +kernel) = dev := Option.get_of_eq_some _ found
  unfold Unchanged
  decide +kernel

/-- Endpoint 1 OUT was to become a bulk endpoint. -/
def otherType : List Call :=
  [⟨⟨1, false, .isoc⟩, false, false, .drop false false⟩, ⟨⟨1, false, .bulk⟩, false, false, .add true true⟩]

theorem not_rolled_back : ¬∀ (h : Host) (device : Caller) (old : Device) (calls : List Call) (checked : Host), Reachable h →
    h.devs device.slot = some old → old.udev = device.udev → device.rootHub = false → device.halted = false → Quiet old →
    Orderly calls → Failed device (run device h calls) checked →
    ∃ final, (checked.resetBandwidth device).devs device.slot = some final ∧
      RolledBack h old (checked.resetBandwidth device) final := by
  intro always
  obtain ⟨final, found, back⟩ := always someHost someDevice setUpDevice otherType _ someHost_reachable setUpDevice_found
    (by decide +kernel) rfl rfl setUpDevice_quiet (by unfold Orderly; decide +kernel) .unchecked
  obtain rfl : (((run someDevice someHost otherType).resetBandwidth someDevice).devs 1).get (by decide +kernel) = final :=
    Option.get_of_eq_some _ found
  have size := (back.rings 1 ⟨1, .isoc⟩ (by decide) (by decide +kernel)).2.1
  revert size
  decide +kernel

end Rollback

end Ehub.Reconfigure
