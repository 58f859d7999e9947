import Mathlib
import Ehub.Contexts

/-!
Fail-stop. `DEVICECONTEXT_ErrorCheck` guards every way to the device, but it looks at
three of the five error flags only: after `usb_alloc_coherent` or `usb_alloc_urb` has
failed in `URB_Create`, everything goes on. Also `xhci_start` clears the state of a host
that was marked dying after it had read that the controller runs. Where neither happens,
no call, message or completion that begins after the first error gets to the device
(`nothing_late`).
-/
namespace Ehub.FailStop
open Ehub.Contexts

/-- One of the flags is set that `DEVICECONTEXT_ErrorCheck` looks at. -/
def Consulted (d : DeviceContext) : Prop :=
  d.errorFlags.urbContextAllocationError = true ∨ d.errorFlags.embeddedRegisterError = true ∨
    d.errorFlags.embeddedCacheWriteError = true

instance : DecidablePred Consulted := fun _ => inferInstanceAs (Decidable (_ ∨ _))

/-- The host is not marked dying while `xhci_start` is about to clear its state. -/
def Timely (s : State) : Op → Prop
  | .markDying => s.starting = 0
  | _ => True

instance (s : State) : (op : Op) → Decidable (Timely s op)
  | .markDying => inferInstanceAs (Decidable (s.starting = 0))
  | .writelDoorbell .. | .completeDoorbell .. | .queueCacheWrite .. | .completeCache .. | .doorbellExpand .. | .cacheWorkExpand ..
  | .urbCreate .. | .registerCall .. | .registerSubmit .. | .registerReturn .. | .messagePass .. | .completeMessage ..
  | .startRead | .startDone | .environment .. => .isTrue trivial

/-- As long as no such flag is set, `URB_Create` fails for want of a context only, and the
    host is marked dying in time. -/
def Careful (s : State) (op : Op) : Prop := Consulted s.device ∨ (op.CreatesValid ∧ Timely s op)

instance (s : State) (op : Op) : Decidable (Careful s op) := inferInstanceAs (Decidable (_ ∨ _))

def Reachable (condition : State → Op → Prop) (s : State) : Prop :=
  Run.Reachable IsInitial (fun s op => op.Allowed s ∧ condition s op) State.step s

/-- The error stays. -/
def Stopped (s : State) : Prop := Consulted s.device ∨ (s.device.dying = true ∧ s.starting = 0)

theorem Stopped.errorCheck {s : State} (stopped : Stopped s) : s.device.errorCheck < 0 := by
  unfold DeviceContext.errorCheck
  split_ifs with bound dying invalid attached noContext register write
  all_goals try decide
  rcases stopped with (flag | flag | flag) | ⟨flag, -⟩
  · exact absurd flag noContext
  · exact absurd flag register
  · exact absurd flag write
  · refine absurd ?_ dying
    unfold DeviceContext.xhciIsDyingSafe
    split_ifs
    · exact flag
    · rfl

theorem Consulted.isFailed {d : DeviceContext} (consulted : Consulted d) : d.isFailed = true := by
  unfold DeviceContext.isFailed
  rcases consulted with flag | flag | flag <;> simp [flag]

theorem consulted_registerFailed (d : DeviceContext) : Consulted d.registerFailed := .inr (.inl rfl)

theorem consulted_cacheWriteFailed (d : DeviceContext) : Consulted d.cacheWriteFailed := .inr (.inr rfl)

/-- What the routines do to the flags, and that they do nothing late before the first
    error. Where the contexts made are valid, whatever fails is consulted. -/
structure Advance (valid : Prop) (s s' : State) : Prop where
  failed : s'.failed = s.failed
  consulted : Consulted s.device → Consulted s'.device
  dying : s'.device.dying = s.device.dying
  starting : s'.starting = s.starting
  calls : s'.calls = s.calls
  late : s.failed = false → s'.late = s.late
  noted : valid → s'.device.isFailed = true → s.device.isFailed = true ∨ Consulted s'.device

section
variable {valid : Prop} {s s' s'' : State}

theorem Advance.refl (valid : Prop) (s : State) : Advance valid s s :=
  ⟨rfl, id, rfl, rfl, rfl, fun _ => rfl, fun _ => .inl⟩

theorem Advance.trans (left : Advance valid s s') (right : Advance valid s' s'') : Advance valid s s'' := by
  constructor
  · exact right.failed.trans left.failed
  · exact fun consulted => right.consulted (left.consulted consulted)
  · exact right.dying.trans left.dying
  · exact right.starting.trans left.starting
  · exact right.calls.trans left.calls
  · intro first
    exact (right.late (left.failed.trans first)).trans (left.late first)
  · intro made isFailed
    rcases right.noted made isFailed with before | consulted
    · exact (left.noted made before).imp_right right.consulted
    · exact .inr consulted

/-- The flags are as they were. -/
theorem Advance.same (valid : Prop) (device : s'.device = s.device) (failed : s'.failed = s.failed)
    (starting : s'.starting = s.starting) (calls : s'.calls = s.calls) (late : s.failed = false → s'.late = s.late) :
    Advance valid s s' :=
  ⟨failed, fun consulted => device ▸ consulted, by rw [device], starting, calls, late, fun _ isFailed => .inl (device ▸ isFailed)⟩

theorem advance_registerFailed (valid : Prop) (s : State) : Advance valid s { s with device := s.device.registerFailed } :=
  ⟨rfl, fun _ => consulted_registerFailed _, rfl, rfl, rfl, fun _ => rfl, fun _ _ => .inr (consulted_registerFailed _)⟩

theorem advance_cacheWriteFailed (valid : Prop) (s : State) : Advance valid s { s with device := s.device.cacheWriteFailed } :=
  ⟨rfl, fun _ => consulted_cacheWriteFailed _, rfl, rfl, rfl, fun _ => rfl, fun _ _ => .inr (consulted_cacheWriteFailed _)⟩

theorem advance_act (valid : Prop) (s : State) (e : Event) : Advance valid s (s.act s.failed e) := by
  refine .same valid rfl rfl rfl rfl fun first => ?_
  unfold State.act
  rw [first]
  rfl

theorem advance_urbCreate (s : State) (alloc : Alloc) (s' : State) (device : s'.device = (urbCreate s.device alloc).1)
    (failed : s'.failed = s.failed) (starting : s'.starting = s.starting) (calls : s'.calls = s.calls) (late : s'.late = s.late) :
    Advance alloc.Valid s s' := by
  unfold urbCreate at device
  by_cases bound : ¬s.device.isBound
  · rw [if_pos bound] at device
    exact .same _ device failed starting calls fun _ => late
  rw [if_neg bound] at device
  cases alloc with
  | done => exact .same _ device failed starting calls fun _ => late
  | noContext =>
    have set : Consulted s'.device := .inl (by rw [device])
    exact ⟨failed, fun _ => set, by rw [device], starting, calls, fun _ => late, fun _ _ => .inr set⟩
  | noCoherent | noUrb =>
    refine ⟨failed, fun consulted => by rw [device]; exact consulted, by rw [device], starting, calls, fun _ => late, ?_⟩
    rintro (valid | valid) <;> cases valid

theorem Advance.weaken {stronger : Prop} (advance : Advance valid s s') (implies : stronger → valid) : Advance stronger s s' :=
  { advance with noted := fun made => advance.noted (implies made) }

/-- Contexts are made of these answers. -/
def AllValid (answers : List (Option Alloc)) : Prop := ∀ answer ∈ answers, ∀ alloc ∈ answer, alloc.Valid

theorem allValid_some {answers : List Alloc} (valid : ∀ alloc ∈ answers, alloc.Valid) : AllValid (answers.map some) := by
  intro answer member alloc isAlloc
  obtain ⟨alloc', inAnswers, rfl⟩ := List.mem_map.mp member
  cases isAlloc
  exact valid _ inAnswers

theorem valid_headD {answers : List (Option Alloc)} (valid : AllValid answers) {alloc : Alloc}
    (first : answers.headD (some .done) = some alloc) : alloc.Valid := by
  cases answers with
  | nil =>
    cases first
    exact .inl rfl
  | cons answer rest => exact valid answer List.mem_cons_self alloc first

theorem advance_expand (kind : Kind) : ∀ (n : Nat) (answers : List (Option Alloc)) (s : State),
    Advance (AllValid answers) s (s.expand kind n answers).2 ∧ (s.expand kind n answers).2.late = s.late := by
  intro n
  induction n with
  | zero => exact fun _ s => ⟨.refl _ s, rfl⟩
  | succ n ih =>
    intro answers s
    unfold State.expand
    cases first : answers.headD (some .done) with
    | none => exact ⟨.refl _ s, rfl⟩
    | some alloc =>
      dsimp only
      split_ifs
      · obtain ⟨rest, late⟩ := ih answers.tail
          { s.setPool kind ((s.pools kind).addFree s.created) with
            device := (urbCreate s.device alloc).1, created := s.created + 1 }
        have made := advance_urbCreate s alloc
          { s.setPool kind ((s.pools kind).addFree s.created) with
            device := (urbCreate s.device alloc).1, created := s.created + 1 } rfl rfl rfl rfl rfl
        refine ⟨.trans (made.weaken fun valid => valid_headD valid first) (rest.weaken fun valid answer member => ?_), late⟩
        exact valid answer (List.mem_of_mem_tail member)
      · exact ⟨(advance_urbCreate s alloc { s with device := (urbCreate s.device alloc).1 } rfl rfl rfl rfl rfl).weaken
          fun valid => valid_headD valid first, rfl⟩

theorem advance_getContext (s : State) (kind : Kind) (answers : List (Option Alloc)) :
    Advance (AllValid answers) s (s.getContext kind answers).2 := by
  have grows : Advance (AllValid answers) s (if (s.pools kind).free = [] then s.expand kind 4 answers else (1, s)).2 := by
    split_ifs
    · exact (advance_expand kind 4 answers s).1
    · exact .refl _ s
  unfold State.getContext
  dsimp only
  split_ifs at grows ⊢
  · exact grows
  · split
    · exact grows
    · exact grows.trans (.same _ rfl rfl rfl rfl fun _ => rfl)
  · exact grows
  · split
    · exact grows
    · exact grows.trans (.same _ rfl rfl rfl rfl fun _ => rfl)

theorem advance_fillAndSubmit (valid : Prop) (s : State) (kind : Kind) (context : Nat) (content : Content) (status : Int) :
    Advance valid s (s.fillAndSubmit kind context content status) := by
  have filled : Advance valid s (s.note (.rewrote kind context content)) := .same valid rfl rfl rfl rfl fun _ => rfl
  exact filled.trans (advance_act valid (s.note (.rewrote kind context content)) (.submit kind context (0 ≤ status)))

theorem advance_writelDoorbell (s : State) (address data : BitVec 32) (answers : List Alloc) (status : Int) :
    Advance (∀ alloc ∈ answers, alloc.Valid) s (s.writelDoorbell address data answers status) := by
  unfold State.writelDoorbell State.embeddedRegisterWriteDoorbell
  by_cases error : s.device.errorCheck < 0
  · rw [if_pos error]
    exact .refl _ s
  rw [if_neg error]
  have got := (advance_getContext s .doorbell (answers.map some)).weaken allValid_some
  rcases taken : s.getContext .doorbell (answers.map some) with ⟨_ | context, s'⟩
  · rw [taken] at got
    exact got
  · rw [taken] at got
    have submitted := got.trans (advance_fillAndSubmit _ s' .doorbell context (.register address data) status)
    dsimp only
    split_ifs
    · exact submitted.trans (advance_registerFailed _ _)
    · exact submitted

theorem advance_embeddedCacheWrite (valid : Prop) (s : State) (context : Nat) (status : Int) :
    Advance valid s (s.embeddedCacheWrite context status) := by
  unfold State.embeddedCacheWrite
  have submitted := advance_fillAndSubmit valid s .cache context
    (.cache (s.work context).cacheAddress (s.work context).data) status
  dsimp only
  split_ifs
  · exact advance_cacheWriteFailed _ _
  · exact advance_cacheWriteFailed _ _
  · exact submitted.trans (advance_cacheWriteFailed _ _)
  · exact submitted

theorem advance_queueCacheWrite (s : State) (w : Work) (answers : List (Option Alloc)) (status : Int) :
    Advance (AllValid answers) s (s.queueCacheWrite w answers status) := by
  unfold State.queueCacheWrite State.getCacheWorkContext
  by_cases error : s.device.errorCheck < 0
  · rw [if_pos error]
    exact .refl _ s
  rw [if_neg error, if_neg error]
  have got := advance_getContext s .cache answers
  rcases taken : s.getContext .cache answers with ⟨_ | context, s'⟩
  · rw [taken] at got
    exact got
  · rw [taken] at got
    have filled : Advance (AllValid answers) s { s' with work := Function.update s'.work context w } :=
      got.trans (.same _ rfl rfl rfl rfl fun _ => rfl)
    exact filled.trans (advance_embeddedCacheWrite _ _ context status)

theorem advance_completionRoutineDoorbell (valid : Prop) (s : State) (context : Nat) (status : Int) :
    Advance valid s (s.completionRoutineDoorbell context status) := by
  unfold State.completionRoutineDoorbell
  dsimp only
  split_ifs
  · exact .same _ rfl rfl rfl rfl fun _ => rfl
  · exact .same _ rfl rfl rfl rfl fun _ => rfl
  · exact .same _ rfl rfl rfl rfl fun _ => rfl

theorem advance_completionRoutineCache (s : State) (context : Nat) (ready : Bool) (answers : List Alloc) (status : Int) :
    Advance (∀ alloc ∈ answers, alloc.Valid) s (s.completionRoutineCache context ready answers status) := by
  have rings : ∀ (s : State) (w : Work), Advance (∀ alloc ∈ answers, alloc.Valid) s (s.ringDoorbell w ready answers status) := by
    intro s w
    unfold State.ringDoorbell
    refine ite_of (.refl _ s) (ite_of ?_ ?_)
    · exact advance_writelDoorbell s _ _ answers status
    · exact advance_writelDoorbell s _ _ answers status
  unfold State.completionRoutineCache
  dsimp only
  split_ifs
  · exact .same _ rfl rfl rfl rfl fun _ => rfl
  · set s' := (s.note (.completed .cache context)).setPool .cache
      (((s.note (.completed .cache context)).pools .cache).remove context)
    have removed : Advance (∀ alloc ∈ answers, alloc.Valid) s s' := .same _ rfl rfl rfl rfl fun _ => rfl
    exact (removed.trans (rings s' (s'.work context))).trans (.same _ rfl rfl rfl rfl fun _ => rfl)
  · exact .same _ rfl rfl rfl rfl fun _ => rfl

end

/-! ### Every run -/

/-- An error that has been seen stays, and nothing has been done late. -/
structure Inv (s : State) : Prop where
  stopped : s.failed = true → Stopped s
  seen : s.device.isFailed = true → s.failed = true
  calls : ∀ call ∈ s.calls, call.late = false
  late : s.late = []

section
variable {valid : Prop} {s s' : State}

theorem Advance.stopped (advance : Advance valid s s') (stopped : Stopped s) : Stopped s' := by
  rcases stopped with consulted | ⟨dying, none_starts⟩
  · exact .inl (advance.consulted consulted)
  · exact .inr ⟨advance.dying.trans dying, advance.starting.trans none_starts⟩

/-- What an operation leaves behind, before the step notes whether it has failed. -/
structure Kept (s s' : State) : Prop where
  failed : s'.failed = s.failed
  stopped : s'.failed = true ∨ s'.device.isFailed = true → Stopped s'
  calls : ∀ call ∈ s'.calls, call.late = false
  late : s'.late = []

/-- A routine that did nothing late keeps the invariant. -/
theorem Inv.advance (inv : Inv s) (advance : Advance valid s s') (made : valid ∨ Consulted s.device)
    (late : s'.late = s.late) : Kept s s' := by
  refine ⟨advance.failed, ?_, advance.calls ▸ inv.calls, late.trans inv.late⟩
  rintro (failed | isFailed)
  · exact advance.stopped (inv.stopped (advance.failed.symm.trans failed))
  rcases made with valid | consulted
  · rcases advance.noted valid isFailed with before | consulted
    · exact advance.stopped (inv.stopped (inv.seen before))
    · exact .inl consulted
  · exact .inl (advance.consulted consulted)

/-- A routine that begins with a check does nothing at all after the first error. -/
theorem Inv.guarded (inv : Inv s) (advance : Advance valid s s') (made : valid ∨ Consulted s.device)
    (guard : s.device.errorCheck < 0 → s'.late = s.late) : Kept s s' := by
  refine inv.advance advance made ?_
  cases first : s.failed with
  | false => exact advance.late first
  | true => exact guard (inv.stopped first).errorCheck

theorem Inv.registerCall (inv : Inv s) (read : Bool) : Kept s (s.registerCall read) := by
  have same : Kept s s := inv.advance (.refl True s) (.inl trivial) rfl
  unfold State.registerCall
  split_ifs with error
  · exact same
  · refine ⟨rfl, same.stopped, ?_, inv.late⟩
    intro call member
    rcases List.mem_append.mp member with old | new
    · exact inv.calls call old
    · cases List.mem_singleton.mp new
      by_contra failed
      exact error (inv.stopped (Bool.eq_true_of_not_eq_false failed)).errorCheck

theorem Inv.registerSubmit (inv : Inv s) (i : Nat) (context : Bool) (status : Int) :
    Kept s (s.registerSubmit i context status) := by
  have same : Kept s s := inv.advance (.refl True s) (.inl trivial) rfl
  unfold State.registerSubmit
  cases found : s.calls[i]? with
  | none => exact same
  | some call =>
    have timely : call.late = false := inv.calls call (List.mem_of_getElem? found)
    have erased : ∀ c ∈ s.calls.eraseIdx i, c.late = false := fun c member =>
      inv.calls c (List.mem_of_mem_eraseIdx member)
    have unlate : (s.act call.late (.submitRegister call.read (0 ≤ status))).late = [] := by
      unfold State.act
      rw [timely]
      exact inv.late
    dsimp only
    split_ifs
    · exact same
    · exact ⟨rfl, fun _ => .inl (consulted_registerFailed _), erased, inv.late⟩
    · exact ⟨rfl, fun _ => .inl (consulted_registerFailed _), erased, unlate⟩
    · refine ⟨rfl, same.stopped, ?_, unlate⟩
      intro c member
      rcases List.mem_or_eq_of_mem_set member with old | rfl
      · exact inv.calls c old
      · exact timely

theorem Inv.registerReturn (inv : Inv s) (i : Nat) (status : Int) : Kept s (s.registerReturn i status) := by
  have same : Kept s s := inv.advance (.refl True s) (.inl trivial) rfl
  have erased : ∀ c ∈ s.calls.eraseIdx i, c.late = false := fun c member => inv.calls c (List.mem_of_mem_eraseIdx member)
  unfold State.registerReturn
  split_ifs
  · exact ⟨rfl, fun _ => .inl (consulted_registerFailed _), erased, inv.late⟩
  · exact ⟨rfl, same.stopped, erased, inv.late⟩

theorem Inv.act (inv : Inv s) (noError : ¬s.device.errorCheck < 0) (e : Event) : Kept s (s.act s.failed e) := by
  refine inv.guarded (advance_act True s e) (.inl trivial) ?_
  exact fun error => absurd error noError

theorem Inv.run (inv : Inv s) (op : Op) (careful : Careful s op) : Kept s (s.run op) := by
  have same : Kept s s := inv.advance (.refl True s) (.inl trivial) rfl
  have made : op.CreatesValid ∨ Consulted s.device := careful.symm.imp_left And.left
  cases op with
  | writelDoorbell address data answers status =>
    refine inv.guarded (advance_writelDoorbell s address data answers status) made fun error => ?_
    rw [State.run, State.writelDoorbell, if_pos error]
  | completeDoorbell context status =>
    refine inv.advance (advance_completionRoutineDoorbell True s context status) (.inl trivial) ?_
    unfold State.run State.completionRoutineDoorbell
    dsimp only
    split_ifs <;> rfl
  | queueCacheWrite w answers status =>
    refine inv.guarded (advance_queueCacheWrite s w answers status) made fun error => ?_
    rw [State.run, State.queueCacheWrite, if_pos error]
  | completeCache context ready answers status =>
    refine inv.guarded (advance_completionRoutineCache s context ready answers status) made fun error => ?_
    have still : (s.note (.completed .cache context)).device.errorCheck < 0 := error
    rw [State.run, State.completionRoutineCache, if_pos still]
    rfl
  | doorbellExpand entries answers =>
    have expanded := advance_expand .doorbell entries (answers.map some) s
    exact inv.advance expanded.1 (made.imp_left allValid_some) expanded.2
  | cacheWorkExpand entries answers =>
    have expanded := advance_expand .cache entries answers s
    exact inv.advance expanded.1 made expanded.2
  | urbCreate alloc =>
    exact inv.advance (advance_urbCreate s alloc (s.run (.urbCreate alloc)) rfl rfl rfl rfl rfl) made rfl
  | registerCall read => exact inv.registerCall read
  | registerSubmit i context status => exact inv.registerSubmit i context status
  | registerReturn i status => exact inv.registerReturn i status
  | messagePass header =>
    show Kept s (s.messagePass header)
    unfold State.messagePass
    split_ifs with none unknown error
    · exact same
    · exact same
    · exact same
    · exact inv.act error _
  | completeMessage buffer status submitted =>
    show Kept s (s.completionRoutineGetMessage buffer status submitted)
    unfold State.completionRoutineGetMessage
    by_cases error : s.device.errorCheck < 0
    · rw [if_pos error]
      exact same
    · rw [if_neg error]
      exact ite_of same (ite_of (inv.act error _) same)
  | startRead =>
    show Kept s s.startRead
    unfold State.startRead
    split_ifs with error
    · exact same
    · -- The host is not dying, or the check would have failed.
      refine ⟨rfl, fun failed => ?_, inv.calls, inv.late⟩
      exact absurd (inv.stopped (failed.elim id inv.seen)).errorCheck error
  | startDone =>
    show Kept s s.startDone
    unfold State.startDone
    split_ifs with none
    · exact same
    · refine ⟨rfl, fun failed => ?_, inv.calls, inv.late⟩
      have before : s.failed = true ∨ s.device.isFailed = true := by
        refine failed.imp_right fun isFailed => ?_
        unfold DeviceContext.isFailed at isFailed ⊢
        simp only [Bool.or_eq_true, Bool.false_eq_true, or_false] at isFailed ⊢
        exact .inl isFailed
      rcases inv.stopped (before.elim id inv.seen) with consulted | ⟨-, none_starts⟩
      · exact .inl consulted
      · exact absurd none_starts none
  | markDying =>
    refine ⟨rfl, fun _ => ?_, inv.calls, inv.late⟩
    rcases careful with consulted | ⟨-, none_starts⟩
    · exact .inl consulted
    · exact .inr ⟨rfl, none_starts⟩
  | environment condition xhciHcd isUsbHcdInvalid notAttached =>
    refine ⟨rfl, fun failed => ?_, inv.calls, inv.late⟩
    exact inv.stopped (failed.elim id inv.seen)

theorem inv_reachable (reachable : Reachable Careful s) : Inv s := by
  refine Run.Reachable.invariant (P := Inv) ?_ ?_ reachable
  · rintro s ⟨work, dba, rfl⟩
    refine ⟨?_, ?_, ?_, rfl⟩
    · rintro ⟨⟩
    · rintro ⟨⟩
    · rintro call ⟨⟩
  · intro s op inv ok
    have kept := inv.run op ok.2
    refine ⟨fun failed => ?_, fun isFailed => ?_, kept.calls, kept.late⟩
    · refine kept.stopped ?_
      rw [kept.failed]
      exact Bool.or_eq_true_iff.mp failed
    · exact Bool.or_eq_true_iff.mpr (.inr isFailed)

/-- In every run in which the unconsulted flags stay clear and no host is marked dying
    while it is being started, nothing that begins after the first error gets to the
    device. -/
theorem nothing_late (reachable : Reachable Careful s) : s.late = [] := (inv_reachable reachable).late

end

/-- A register access and a doorbell before the first error and after it. -/
def failingRun : List Op :=
  [.registerCall true, .registerCall false, .registerSubmit 0 true 0, .writelDoorbell 0 0 [] (-19), .registerSubmit 1 true 0,
    .registerCall true, .writelDoorbell 0 0 [] 0, .messagePass 32, .completeMessage true 0 0]

theorem nothing_late_failingRun : (failingRun.foldl State.step (.initial noWork 0x1000)).late = [] := by
  have first : Reachable Careful (.initial noWork 0x1000) := .first ⟨_, _, rfl⟩
  exact nothing_late (first.all (show Run.Allows _ _ _ failingRun by decide +kernel))

/-- There is no memory for a URB, and a register is read all the same. -/
theorem not_nothing_late : ¬∀ s, Reachable (fun _ _ => True) s → s.late = [] := by
  intro always
  have first : Reachable (fun _ _ => True) (.initial noWork 0x1000) := .first ⟨_, _, rfl⟩
  have unnoticed := always _ (first.all (show Run.Allows _ _ _
    [.urbCreate .noUrb, .registerCall true, .registerSubmit 0 true 0] by decide +kernel))
  revert unnoticed
  decide +kernel

end Ehub.FailStop
