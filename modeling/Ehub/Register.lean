import Mathlib
import Ehub.Run
import Ehub.Exclusion

/-!
Register accesses (`ehub_embedded_register.c`, `ehub_notification.c`, and the register
lock of `xhci.h`). A thread that reads a register sends a request to the device and waits
for the answer, which the message handler leaves in one slot that all reads share. An
answer does not say which request it is for. What keeps the answers apart is a lock that
is held from the request to the answer, and an error flag: a read that gives up sets it
before it releases the lock, and from then on no other read takes an answer.

Any number of threads run, one step at a time, between steps of the device and of the
message handler.
-/
namespace Ehub.Register
open Ehub.Exclusion

/-- Where a thread is in `EMBEDDED_REGISTER_Read` or `EMBEDDED_REGISTER_Write`, with the
    request it has sent and, at the exit, what it returns (nothing is an error). -/
inductive Pc where
  | idle
  | readDown | readBegin | readReset | readSubmit
  | readCheck1 (request : Nat) | readWait1 (request : Nat) | readCheck2 (request : Nat) | readWait2 (request : Nat)
  | readFetch (request : Nat)
  | readExit (request : Option Nat) (result : Option (BitVec 32))
  | readUp (request : Option Nat) (result : Option (BitVec 32))
  | writeDown | writeBegin | writeCheck | writeWait
  | writeExit (ok : Bool)
  | writeUp

/-- Where a thread is with respect to `reg_lock`. -/
inductive RegPc where
  | outside | waiting | inside
deriving DecidableEq

/-- The device context, the threads, and the device: `answers k` is the answer to the
    `k`-th request, once the message handler has seen it, and `handlers` are the requests
    whose answer is in the slot and will be notified next. -/
structure State where
  embeddedRegisterLock : Nat
  embeddedRegisterError : Bool
  otherError : Bool
  readEvent : Nat
  writeEvent : Nat
  completionEvent : Nat
  dataEmbeddedRegisterRead : BitVec 32
  readUrbs : Nat
  writeUrbs : Nat
  requests : Nat
  answers : Nat → Option (BitVec 32)
  handlers : List Nat
  pc : Nat → Pc
  returned : List (Nat × BitVec 32)
  regLock : Nat
  regLockAcquired : Bool
  regPc : Nat → RegPc

/-- Before any call; the slot may hold anything. -/
def State.initial (data : BitVec 32) : State :=
  ⟨1, false, false, 0, 0, 0, data, 0, 0, 0, fun _ => none, [], fun _ => .idle, [], 1, false, fun _ => .outside⟩

namespace State

/-- `DEVICECONTEXT_ErrorCheck`; `otherError` stands for all that it looks at besides
    `EmbeddedRegisterError`. -/
def errorCheck (s : State) : Bool := s.embeddedRegisterError || s.otherError

def goto (s : State) (t : Nat) (pc : Pc) : State := { s with pc := Function.update s.pc t pc }

/-- `down_interruptible` on the lock. A wait that is ended by a signal goes on like one
    that was not: the assertion behind it is empty. -/
def down (s : State) (t : Nat) (ok : Bool) (pc : Pc) : State :=
  if ok then
    if 0 < s.embeddedRegisterLock then { s.goto t pc with embeddedRegisterLock := s.embeddedRegisterLock - 1 } else s
  else s.goto t pc

/-- The next step of a thread in one of the two functions. `ok` says that a wait is not
    given up, that there is a URB, or that its submission works. -/
def run (s : State) (t : Nat) (ok : Bool) : State :=
  match s.pc t with
  | .idle => s
  | .readDown => s.down t ok .readBegin
  | .readBegin => if ok then { s.goto t .readReset with readEvent := 0 } else s.goto t (.readExit none none)
  | .readReset => { s.goto t .readSubmit with completionEvent := 0 }
  | .readSubmit =>
    if ok then
      { s.goto t (.readCheck1 s.requests) with readEvent := 0, requests := s.requests + 1, readUrbs := s.readUrbs + 1 }
    else { s.goto t (.readExit none none) with readEvent := 0 }
  | .readCheck1 request => s.goto t (if s.errorCheck then .readExit (some request) none else .readWait1 request)
  | .readWait1 request =>
    if ok then
      if 0 < s.readEvent then { s.goto t (.readCheck2 request) with readEvent := s.readEvent - 1 } else s
    else s.goto t (.readExit (some request) none)
  | .readCheck2 request => s.goto t (if s.errorCheck then .readExit (some request) none else .readWait2 request)
  | .readWait2 request =>
    if ok then
      if 0 < s.completionEvent then { s.goto t (.readFetch request) with completionEvent := s.completionEvent - 1 } else s
    else s.goto t (.readExit (some request) none)
  | .readFetch request => s.goto t (.readExit (some request) (some s.dataEmbeddedRegisterRead))
  | .readExit request result =>
    { s.goto t (.readUp request result) with embeddedRegisterError := s.embeddedRegisterError || result.isNone }
  | .readUp request result =>
    { s.goto t .idle with
      embeddedRegisterLock := s.embeddedRegisterLock + 1
      returned := (match request, result with | some k, some d => [(k, d)] | _, _ => []) ++ s.returned }
  | .writeDown => s.down t ok .writeBegin
  | .writeBegin =>
    if ok then { s.goto t .writeCheck with writeEvent := 0, writeUrbs := s.writeUrbs + 1 }
    else { s.goto t (.writeExit false) with writeEvent := 0 }
  | .writeCheck => s.goto t (if s.errorCheck then .writeExit false else .writeWait)
  | .writeWait =>
    if ok then
      if 0 < s.writeEvent then { s.goto t (.writeExit true) with writeEvent := s.writeEvent - 1 } else s
    else s.goto t (.writeExit false)
  | .writeExit ok => { s.goto t .writeUp with embeddedRegisterError := s.embeddedRegisterError || !ok }
  | .writeUp => { s.goto t .idle with embeddedRegisterLock := s.embeddedRegisterLock + 1 }

/-- `ehub_xhci_readl` or `ehub_xhci_writel`, up to the wait for the lock. -/
def call (s : State) (t : Nat) (read : Bool) : State :=
  match s.pc t, s.regPc t with
  | .idle, .outside | .idle, .inside => if s.errorCheck then s else s.goto t (if read then .readDown else .writeDown)
  | _, _ => s

/-- A thread comes to `xhci_reg_lock`. -/
def regCall (s : State) (t : Nat) : State :=
  match s.pc t, s.regPc t with
  | .idle, .outside => { s with regPc := Function.update s.regPc t .waiting }
  | _, _ => s

/-- `xhci_reg_lock`: like `down`, its panics only print. -/
def xhciRegLock (s : State) (t : Nat) (ok : Bool) : State :=
  match s.regPc t with
  | .waiting =>
    if ok then
      if 0 < s.regLock then
        { s with regLock := s.regLock - 1, regLockAcquired := true, regPc := Function.update s.regPc t .inside }
      else s
    else { s with regLockAcquired := true, regPc := Function.update s.regPc t .inside }
  | _ => s

/-- `xhci_reg_unlock`. -/
def xhciRegUnlock (s : State) (t : Nat) : State :=
  match s.pc t, s.regPc t with
  | .idle, .inside =>
    { s with regLock := s.regLock + 1, regLockAcquired := false, regPc := Function.update s.regPc t .outside }
  | _, _ => s

/-- `URB_CompletionRoutine_Simple` for the URB of a read or a write. -/
def urbComplete (s : State) (read : Bool) : State :=
  if read then
    if 0 < s.readUrbs then
      { s with readUrbs := s.readUrbs - 1, readEvent := if s.errorCheck then s.readEvent else s.readEvent + 1 }
    else s
  else
    if 0 < s.writeUrbs then
      { s with writeUrbs := s.writeUrbs - 1, writeEvent := if s.errorCheck then s.writeEvent else s.writeEvent + 1 }
    else s

/-- The message handler gets the answer to a request and puts it into the slot. -/
def respond (s : State) (request : Nat) (data : BitVec 32) : State :=
  { s with
    answers := Function.update s.answers request (some data)
    dataEmbeddedRegisterRead := data
    handlers := request :: s.handlers }

/-- Then it notifies the reader. -/
def notify (s : State) (request : Nat) : State :=
  { s with completionEvent := s.completionEvent + 1, handlers := s.handlers.erase request }

end State

inductive Op where
  | call (t : Nat) (read : Bool)
  | run (t : Nat) (ok : Bool)
  | regCall (t : Nat)
  | regLock (t : Nat) (ok : Bool)
  | regUnlock (t : Nat)
  | urbComplete (read : Bool)
  | respond (request : Nat) (data : BitVec 32)
  | notify (request : Nat)
  | setError
  | setOther (error : Bool)

def State.step (s : State) : Op → State
  | .call t read => s.call t read
  | .run t ok => s.run t ok
  | .regCall t => s.regCall t
  | .regLock t ok => s.xhciRegLock t ok
  | .regUnlock t => s.xhciRegUnlock t
  | .urbComplete read => s.urbComplete read
  | .respond request data => s.respond request data
  | .notify request => s.notify request
  -- `EMBEDDED_REGISTER_Write_Doorbell` sets the flag without the lock.
  | .setError => { s with embeddedRegisterError := true }
  | .setOther error => { s with otherError := error }

/-- The device answers a request at most once and nothing that was not asked. -/
def Op.Allowed (s : State) : Op → Prop
  | .respond request _ => request < s.requests ∧ s.answers request = none
  | .notify request => request ∈ s.handlers
  | _ => True

/-- The thread is between acquisition and release of `EmbeddedRegisterLock`. -/
def Pc.inside : Pc → Bool
  | .idle | .readDown | .writeDown => false
  | _ => true

/-- The wait for `EmbeddedRegisterLock` is not interrupted. -/
def LockWaits (s : State) : Op → Prop
  | .run t false => s.pc t ≠ .readDown ∧ s.pc t ≠ .writeDown
  | _ => True

/-- No wait for one of the two locks is interrupted. -/
def NoSignal (s : State) : Op → Prop
  | .regLock _ false => False
  | op => LockWaits s op

def Reachable (condition : State → Op → Prop) (s : State) : Prop :=
  Run.Reachable (fun s => ∃ data, s = State.initial data) (fun s op => op.Allowed s ∧ condition s op) State.step s

/-! ### One thread at a time -/

section
variable {s : State} {t : Nat}

theorem inside_goto {count : Nat} (exclusive : Exclusive count fun t => (s.pc t).inside = true) {pc : Pc}
    (same : pc.inside = (s.pc t).inside) : Exclusive count fun t' => (Function.update s.pc t pc t').inside = true := by
  refine exclusive.congr fun t' => ?_
  by_cases here : t' = t
  · subst here
    rw [Function.update_self, same]
  · rw [Function.update_of_ne here]

theorem inside_enter {count : Nat} (exclusive : Exclusive count fun t => (s.pc t).inside = true) (free : 0 < count) {pc : Pc}
    (enters : pc.inside = true) : Exclusive (count - 1) fun t' => (Function.update s.pc t pc t').inside = true := by
  refine exclusive.enter (i := t) free fun t' => ?_
  by_cases here : t' = t
  · subst here
    simp [enters]
  · simp [here]

theorem inside_leave {count : Nat} (exclusive : Exclusive count fun t => (s.pc t).inside = true)
    (was : (s.pc t).inside = true) : Exclusive (count + 1) fun t' => (Function.update s.pc t .idle t').inside = true := by
  refine exclusive.leave was fun t' => ?_
  by_cases here : t' = t
  · subst here
    simp [Pc.inside]
  · simp [here]

/-- A step of a thread keeps the threads apart, unless its wait for the lock is
    interrupted. -/
theorem exclusive_run (exclusive : Exclusive s.embeddedRegisterLock fun t => (s.pc t).inside = true) (t : Nat) (ok : Bool)
    (waits : LockWaits s (.run t ok)) :
    Exclusive (s.run t ok).embeddedRegisterLock fun t' => ((s.run t ok).pc t').inside = true := by
  have down : ∀ pc, s.pc t = .readDown ∨ s.pc t = .writeDown → pc.inside = true →
      Exclusive (s.down t ok pc).embeddedRegisterLock fun t' => ((s.down t ok pc).pc t').inside = true := by
    intro pc atDown enters
    cases ok with
    | false => exact absurd atDown (by simpa [LockWaits, not_or] using waits)
    | true =>
      simp only [State.down, if_true]
      split_ifs with free
      · exact inside_enter exclusive free enters
      · exact exclusive
  have goes : ∀ pc : Pc, pc.inside = (s.pc t).inside →
      Exclusive s.embeddedRegisterLock fun t' => (Function.update s.pc t pc t').inside = true :=
    fun pc same => inside_goto exclusive same
  cases at_pc : s.pc t with
  | readDown => simpa only [State.run, at_pc] using down _ (.inl at_pc) rfl
  | writeDown => simpa only [State.run, at_pc] using down _ (.inr at_pc) rfl
  | readUp request result =>
    simp only [State.run, at_pc]
    exact inside_leave exclusive (by rw [at_pc]; rfl)
  | writeUp =>
    simp only [State.run, at_pc]
    exact inside_leave exclusive (by rw [at_pc]; rfl)
  | idle => simpa only [State.run, at_pc] using exclusive
  | _ =>
    -- The thread stays inside.
    rw [at_pc] at goes
    simp only [State.run, at_pc]
    first
    | exact goes _ (by rfl)
    | split_ifs <;> first | exact exclusive | exact goes _ (by rfl)

theorem call_cases (s : State) (t : Nat) (read : Bool) : s.call t read = s ∨
    (s.pc t = .idle ∧ ∃ pc : Pc, pc.inside = false ∧ s.call t read = s.goto t pc) := by
  have called : s.pc t = .idle → (if s.errorCheck then s else s.goto t (if read then .readDown else .writeDown)) = s ∨
      (s.pc t = .idle ∧ ∃ pc : Pc, pc.inside = false ∧
        (if s.errorCheck then s else s.goto t (if read then .readDown else .writeDown)) = s.goto t pc) := by
    intro idle
    split_ifs
    · exact .inl rfl
    · exact .inr ⟨idle, .readDown, rfl, rfl⟩
    · exact .inr ⟨idle, .writeDown, rfl, rfl⟩
  rw [State.call]
  split
  · exact called ‹_›
  · exact called ‹_›
  · exact .inl rfl

/-- Apart from `reg_lock`, the step changes nothing that a thread inside or the message
    handler looks at but the error flags, and moves no thread into the lock or out of it. -/
structure Quiet (s s' : State) : Prop where
  lock : s'.embeddedRegisterLock = s.embeddedRegisterLock
  error : s'.embeddedRegisterError = false → s.embeddedRegisterError = false
  completionEvent : s'.completionEvent = s.completionEvent
  data : s'.dataEmbeddedRegisterRead = s.dataEmbeddedRegisterRead
  requests : s'.requests = s.requests
  answers : s'.answers = s.answers
  handlers : s'.handlers = s.handlers
  returned : s'.returned = s.returned
  pc : ∀ t, s'.pc t = s.pc t ∨ ((s'.pc t).inside = false ∧ (s.pc t).inside = false)

theorem Quiet.refl (s : State) : Quiet s s := ⟨rfl, id, rfl, rfl, rfl, rfl, rfl, rfl, fun _ => .inl rfl⟩

theorem step_cases (s : State) (op : Op) : (∃ t ok, op = .run t ok) ∨ (∃ k data, op = .respond k data) ∨
    (∃ k, op = .notify k) ∨ Quiet s (s.step op) := by
  cases op with
  | run t ok => exact .inl ⟨t, ok, rfl⟩
  | respond k data => exact .inr (.inl ⟨k, data, rfl⟩)
  | notify k => exact .inr (.inr (.inl ⟨k, rfl⟩))
  | call t read =>
    refine .inr (.inr (.inr ?_))
    rcases call_cases s t read with stays | ⟨idle, pc, outside, goes⟩
    · rw [State.step, stays]
      exact .refl s
    · rw [State.step, goes]
      refine ⟨rfl, id, rfl, rfl, rfl, rfl, rfl, rfl, ?_⟩
      intro t'
      by_cases here : t' = t
      · subst here
        refine .inr ⟨?_, by rw [idle]; rfl⟩
        simpa [State.goto] using outside
      · exact .inl (Function.update_of_ne here ..)
  | regCall t =>
    refine .inr (.inr (.inr ?_))
    simp only [State.step, State.regCall]
    split <;> exact ⟨rfl, id, rfl, rfl, rfl, rfl, rfl, rfl, fun _ => .inl rfl⟩
  | regLock t ok =>
    refine .inr (.inr (.inr ?_))
    simp only [State.step, State.xhciRegLock]
    split
    · split_ifs <;> exact ⟨rfl, id, rfl, rfl, rfl, rfl, rfl, rfl, fun _ => .inl rfl⟩
    · exact .refl s
  | regUnlock t =>
    refine .inr (.inr (.inr ?_))
    simp only [State.step, State.xhciRegUnlock]
    split <;> exact ⟨rfl, id, rfl, rfl, rfl, rfl, rfl, rfl, fun _ => .inl rfl⟩
  | urbComplete read =>
    refine .inr (.inr (.inr ?_))
    simp only [State.step, State.urbComplete]
    split_ifs <;> exact ⟨rfl, id, rfl, rfl, rfl, rfl, rfl, rfl, fun _ => .inl rfl⟩
  | setError => exact .inr (.inr (.inr ⟨rfl, by simp [State.step], rfl, rfl, rfl, rfl, rfl, rfl, fun _ => .inl rfl⟩))
  | setOther => exact .inr (.inr (.inr ⟨rfl, id, rfl, rfl, rfl, rfl, rfl, rfl, fun _ => .inl rfl⟩))

theorem Quiet.inside {s' : State} (quiet : Quiet s s') (t : Nat) : (s'.pc t).inside = (s.pc t).inside := by
  rcases quiet.pc t with same | ⟨outside', outside⟩
  · rw [same]
  · rw [outside', outside]

theorem exclusive_step (exclusive : Exclusive s.embeddedRegisterLock fun t => (s.pc t).inside = true) {op : Op}
    (waits : LockWaits s op) : Exclusive (s.step op).embeddedRegisterLock fun t => ((s.step op).pc t).inside = true := by
  rcases step_cases s op with ⟨t, ok, rfl⟩ | ⟨k, data, rfl⟩ | ⟨k, rfl⟩ | quiet
  · exact exclusive_run exclusive t ok waits
  · exact exclusive
  · exact exclusive
  · rw [quiet.lock]
    exact exclusive.congr fun t => by rw [quiet.inside t]

/-- The same for `reg_lock`. -/
theorem regExclusive_step (exclusive : Exclusive s.regLock fun t => s.regPc t = .inside) {op : Op} (quiet : NoSignal s op) :
    Exclusive (s.step op).regLock fun t => (s.step op).regPc t = .inside := by
  cases op with
  | run t ok =>
    have same : (s.run t ok).regLock = s.regLock ∧ (s.run t ok).regPc = s.regPc := by
      cases at_pc : s.pc t <;> simp only [State.run, State.down, at_pc]
      all_goals first
        | exact ⟨trivial, trivial⟩
        | exact ⟨rfl, rfl⟩
        | split_ifs <;> exact ⟨rfl, rfl⟩
    simp only [State.step]
    rw [same.1, same.2]
    exact exclusive
  | call t read =>
    rcases call_cases s t read with stays | ⟨_, pc, _, goes⟩
    · rw [State.step, stays]
      exact exclusive
    · rw [State.step, goes]
      exact exclusive
  | regCall t =>
    simp only [State.step, State.regCall]
    split
    · refine exclusive.congr fun t' => ?_
      by_cases here : t' = t
      · subst here
        simp_all
      · simp [here]
    · exact exclusive
  | regLock t ok =>
    cases ok with
    | false => exact quiet.elim
    | true =>
      simp only [State.step, State.xhciRegLock, if_true]
      split
      · split_ifs with free
        · refine exclusive.enter (i := t) free fun t' => ?_
          by_cases here : t' = t
          · subst here
            simp
          · simp [here]
        · exact exclusive
      · exact exclusive
  | regUnlock t =>
    simp only [State.step, State.xhciRegUnlock]
    split
    · refine exclusive.leave (i := t) ‹_› fun t' => ?_
      by_cases here : t' = t
      · subst here
        simp
      · simp [here]
    · exact exclusive
  | urbComplete read =>
    simp only [State.step, State.urbComplete]
    split_ifs <;> exact exclusive
  | respond | notify | setError | setOther => exact exclusive

/-- As long as no signal ends the wait for a lock, at most one thread is between acquisition
    and release of either lock, and neither count exceeds one. -/
theorem locks_exclude (reachable : Reachable NoSignal s) :
    (∀ t t', (s.pc t).inside = true → (s.pc t').inside = true → t = t') ∧
    (∀ t t', s.regPc t = .inside → s.regPc t' = .inside → t = t') ∧ s.embeddedRegisterLock ≤ 1 ∧ s.regLock ≤ 1 := by
  have both : Exclusive s.embeddedRegisterLock (fun t => (s.pc t).inside = true) ∧
      Exclusive s.regLock (fun t => s.regPc t = .inside) := by
    refine reachable.invariant (P := fun s => Exclusive s.embeddedRegisterLock (fun t => (s.pc t).inside = true) ∧
      Exclusive s.regLock fun t => s.regPc t = .inside) ?_ ?_
    · rintro s ⟨data, rfl⟩
      exact ⟨.inl ⟨rfl, fun _ => by simp [State.initial, Pc.inside]⟩, .inl ⟨rfl, fun _ => by simp [State.initial]⟩⟩
    · intro s op ⟨lock, regLock⟩ ⟨_, quiet⟩
      refine ⟨exclusive_step lock ?_, regExclusive_step regLock quiet⟩
      cases op with
      | regLock => trivial
      | _ => exact quiet
  obtain ⟨lock, regLock⟩ := both
  exact ⟨fun _ _ => lock.unique, fun _ _ => regLock.unique, lock.le_one, regLock.le_one⟩

end

/-- Thread 2 waits in `EMBEDDED_REGISTER_Read` while thread 1 reads. -/
theorem locks_exclude_reading :
    let s := [Op.regCall 1, .regLock 1 true, .call 1 true, .run 1 true, .call 2 true, .run 2 true].foldl State.step (State.initial 0)
    Reachable NoSignal s ∧ (s.pc 1).inside = true ∧ s.regPc 1 = .inside ∧ (∀ t, (s.pc t).inside = true → t = 1) ∧
      s.embeddedRegisterLock ≤ 1 ∧ s.regLock ≤ 1 := by
  intro s
  have reachable : Reachable NoSignal s := by
    refine (Run.Reachable.first ⟨0, rfl⟩).all ?_
    exact ⟨⟨trivial, trivial⟩, ⟨trivial, trivial⟩, ⟨trivial, trivial⟩, ⟨trivial, trivial⟩, ⟨trivial, trivial⟩, ⟨trivial, trivial⟩, trivial⟩
  have reads : (s.pc 1).inside = true := rfl
  obtain ⟨one, _, count, regCount⟩ := locks_exclude reachable
  exact ⟨reachable, reads, rfl, fun t inside => one t 1 inside reads, count, regCount⟩

/-- Thread 2's wait is ended by a signal while thread 1 reads, and thread 2 goes on. -/
theorem not_locks_exclude :
    ¬∀ s, Reachable (fun _ _ => True) s → (∀ t t', (s.pc t).inside = true → (s.pc t').inside = true → t = t') ∧
      (∀ t t', s.regPc t = .inside → s.regPc t' = .inside → t = t') ∧ s.embeddedRegisterLock ≤ 1 ∧ s.regLock ≤ 1 := by
  intro exclude
  have reachable : Reachable (fun _ _ => True)
      ([Op.call 1 true, .run 1 true, .call 2 true, .run 2 false].foldl State.step (State.initial 0)) := by
    refine (Run.Reachable.first ⟨0, rfl⟩).all ?_
    exact ⟨⟨trivial, trivial⟩, ⟨trivial, trivial⟩, ⟨trivial, trivial⟩, ⟨trivial, trivial⟩, trivial⟩
  exact absurd ((exclude _ reachable).1 1 2 rfl rfl) (by decide)

/-! ### Every answer goes to its own request -/

/-- The request is answered and the handler is done with the answer. -/
def State.Settled (s : State) (k : Nat) : Prop := s.answers k ≠ none ∧ k ∉ s.handlers

def State.AllSettled (s : State) : Prop := ∀ k < s.requests, s.Settled k

/-- The request is the last one, those before it are settled, and the answer, if there is
    one, is in the slot and is notified or will be. -/
def State.Live (s : State) (k : Nat) : Prop :=
  k + 1 = s.requests ∧ (∀ j < k, s.Settled j) ∧
  ((s.answers k = none ∧ s.completionEvent = 0) ∨
    (s.answers k = some s.dataEmbeddedRegisterRead ∧ s.handlers.count k + s.completionEvent = 1))

/-- What holds while the thread that has the lock is at the given place; at a place outside
    of the lock, what holds while nobody has it. -/
def Pc.Ok (s : State) : Pc → Prop
  | .readSubmit => s.embeddedRegisterError = false → s.AllSettled ∧ s.completionEvent = 0
  | .readCheck1 k => s.embeddedRegisterError = false → s.Live k
  | .readWait1 k | .readCheck2 k | .readWait2 k => s.Live k
  | .readFetch k => s.AllSettled ∧ s.answers k = some s.dataEmbeddedRegisterRead
  | .readExit request (some d) | .readUp request (some d) => s.AllSettled ∧ ∀ k, request = some k → s.answers k = some d
  | .readExit _ none => True
  | .readUp _ none => s.embeddedRegisterError = true
  | _ => s.embeddedRegisterError = false → s.AllSettled

/-- Only requests that were sent are answered, and only answers are handled. -/
structure Answering (s : State) : Prop where
  sent : ∀ k, s.answers k ≠ none → k < s.requests
  handled : ∀ k ∈ s.handlers, s.answers k ≠ none

section
variable {s : State} {t : Nat}

theorem live_done {k : Nat} (live : s.Live k) (notified : 0 < s.completionEvent) :
    s.AllSettled ∧ s.answers k = some s.dataEmbeddedRegisterRead := by
  obtain ⟨last, before, ⟨_, zero⟩ | ⟨answer, one⟩⟩ := live
  · omega
  · refine ⟨?_, answer⟩
    intro j sent
    rcases Nat.lt_or_ge j k with old | new
    · exact before j old
    · have is_k : j = k := by omega
      subst is_k
      refine ⟨by simp [answer], ?_⟩
      exact List.count_eq_zero.mp (by omega)

/-- A new request is live when all requests before it are settled. -/
theorem Answering.live_new (answering : Answering s) (settled : s.AllSettled) {s' : State} (zero : s'.completionEvent = 0)
    (sent : s'.requests = s.requests + 1) (answers : s'.answers = s.answers) (handlers : s'.handlers = s.handlers) :
    s'.Live s.requests := by
  refine ⟨sent.symm, ?_, .inl ⟨?_, zero⟩⟩
  · intro j old
    rw [State.Settled, answers, handlers]
    exact settled j old
  · rw [answers]
    by_contra answered
    exact Nat.lt_irrefl _ (answering.sent _ answered)

/-- A step of the thread that has the lock. -/
theorem Pc.Ok.run (answering : Answering s) (ok : (s.pc t).Ok s) (inside : (s.pc t).inside = true) (b : Bool) :
    ((s.run t b).pc t).Ok (s.run t b) := by
  cases at_pc : s.pc t with
  | idle | readDown | writeDown => simp [at_pc, Pc.inside] at inside
  | readBegin =>
    rw [at_pc] at ok
    simp only [State.run, at_pc]
    split_ifs
    · simp only [State.goto, Function.update_self]
      exact ok
    · simp only [State.goto, Function.update_self, Pc.Ok]
  | readReset =>
    rw [at_pc] at ok
    simp only [State.run, at_pc, State.goto, Function.update_self]
    exact fun clear => ⟨ok clear, rfl⟩
  | readSubmit =>
    rw [at_pc] at ok
    simp only [State.run, at_pc]
    split_ifs
    · simp only [State.goto, Function.update_self]
      intro clear
      obtain ⟨settled, zero⟩ := ok clear
      exact answering.live_new settled zero rfl rfl rfl
    · simp only [State.goto, Function.update_self, Pc.Ok]
  | readCheck1 k =>
    rw [at_pc] at ok
    simp only [State.run, at_pc, State.goto, Function.update_self]
    split_ifs with error
    · trivial
    · refine ok ?_
      rw [State.errorCheck, Bool.or_eq_true, not_or] at error
      exact Bool.eq_false_iff.mpr error.1
  | readCheck2 k =>
    rw [at_pc] at ok
    simp only [State.run, at_pc, State.goto, Function.update_self]
    split_ifs
    · trivial
    · exact ok
  | readWait1 k =>
    simp only [State.run, at_pc]
    split_ifs
    · rw [at_pc] at ok
      simp only [State.goto, Function.update_self]
      exact ok
    · exact ok
    · simp only [State.goto, Function.update_self, Pc.Ok]
  | readWait2 k =>
    simp only [State.run, at_pc]
    split_ifs with wakes notified
    · rw [at_pc] at ok
      simp only [State.goto, Function.update_self]
      exact live_done (s := s) ok notified
    · exact ok
    · simp only [State.goto, Function.update_self, Pc.Ok]
  | readFetch k =>
    rw [at_pc] at ok
    simp only [State.run, at_pc, State.goto, Function.update_self]
    refine ⟨ok.1, ?_⟩
    rintro k' ⟨⟩
    exact ok.2
  | readExit request result =>
    rw [at_pc] at ok
    simp only [State.run, at_pc, State.goto, Function.update_self]
    cases result with
    | none => simp [Pc.Ok]
    | some d => exact ok
  | readUp request result =>
    rw [at_pc] at ok
    simp only [State.run, at_pc, State.goto, Function.update_self]
    cases result with
    | none =>
      intro clear
      rw [show s.embeddedRegisterError = true from ok] at clear
      exact absurd clear (by simp)
    | some d => exact fun _ => ok.1
  | writeBegin =>
    rw [at_pc] at ok
    simp only [State.run, at_pc]
    split_ifs
    · simp only [State.goto, Function.update_self]
      exact ok
    · simp only [State.goto, Function.update_self]
      exact ok
  | writeCheck =>
    rw [at_pc] at ok
    simp only [State.run, at_pc, State.goto, Function.update_self]
    split_ifs <;> exact ok
  | writeWait =>
    simp only [State.run, at_pc]
    split_ifs
    · rw [at_pc] at ok
      simp only [State.goto, Function.update_self]
      exact ok
    · exact ok
    · rw [at_pc] at ok
      simp only [State.goto, Function.update_self]
      exact ok
  | writeExit ok' =>
    rw [at_pc] at ok
    simp only [State.run, at_pc, State.goto, Function.update_self]
    intro clear
    exact ok (Bool.or_eq_false_iff.mp clear).1
  | writeUp =>
    rw [at_pc] at ok
    simp only [State.run, at_pc, State.goto, Function.update_self]
    exact ok

/-- What happens to an answer only matters to the thread that waits for it. -/
theorem Pc.Ok.busy {pc : Pc} (ok : pc.Ok s) {s' : State} (busy : ¬s.AllSettled) (live : ∀ k, s.Live k → s'.Live k)
    (flag : s'.embeddedRegisterError = s.embeddedRegisterError) : pc.Ok s' := by
  unfold Pc.Ok at ok ⊢
  rw [flag]
  split at ok
  · exact fun clear => absurd (ok clear).1 busy
  · exact fun clear => live _ (ok clear)
  · exact live _ ok
  · exact live _ ok
  · exact live _ ok
  · exact absurd ok.1 busy
  · exact absurd ok.1 busy
  · exact absurd ok.1 busy
  · trivial
  · exact ok
  · exact fun clear => absurd (ok clear) busy

/-- An answer arrives. It is the one that the thread inside waits for. -/
theorem Pc.Ok.respond (answering : Answering s) {pc : Pc} (ok : pc.Ok s) {k : Nat} (data : BitVec 32) (sent : k < s.requests)
    (first : s.answers k = none) : pc.Ok (s.respond k data) := by
  have busy : ¬s.AllSettled := fun settled => (settled k sent).1 first
  have live : ∀ j, s.Live j → (s.respond k data).Live j := by
    rintro j ⟨last, before, now⟩
    have is_j : k = j := by
      by_contra other
      exact (before k (by omega)).1 first
    subst is_j
    have unhandled : k ∉ s.handlers := fun handled => answering.handled k handled first
    obtain ⟨_, zero⟩ | ⟨answer, _⟩ := now
    · refine ⟨last, ?_, .inr ⟨Function.update_self .., ?_⟩⟩
      · intro j old
        have other : j ≠ k := by omega
        simpa [State.Settled, State.respond, other] using before j old
      · simp [State.respond, zero, List.count_eq_zero.mpr unhandled]
    · exact absurd (answer.symm.trans first) (by simp)
  exact ok.busy busy live rfl

theorem Pc.Ok.notify (answering : Answering s) {pc : Pc} (ok : pc.Ok s) {k : Nat} (handled : k ∈ s.handlers) :
    pc.Ok (s.notify k) := by
  have sent := answering.sent k (answering.handled k handled)
  have busy : ¬s.AllSettled := fun settled => (settled k sent).2 handled
  have live : ∀ j, s.Live j → (s.notify k).Live j := by
    rintro j ⟨last, before, now⟩
    have is_j : k = j := by
      by_contra other
      exact (before k (by omega)).2 handled
    subst is_j
    obtain ⟨unanswered, _⟩ | ⟨answer, one⟩ := now
    · exact absurd unanswered (answering.handled k handled)
    · refine ⟨last, ?_, .inr ⟨answer, ?_⟩⟩
      · intro j old
        exact ⟨(before j old).1, fun erased => (before j old).2 (List.mem_of_mem_erase erased)⟩
      · have counted := List.count_pos_iff.mpr handled
        simp only [State.notify, List.count_erase_self]
        omega
  exact ok.busy busy live rfl

theorem run_answers (s : State) (t : Nat) (b : Bool) :
    (s.run t b).answers = s.answers ∧ (s.run t b).handlers = s.handlers ∧ s.requests ≤ (s.run t b).requests := by
  cases at_pc : s.pc t <;> simp only [State.run, State.down, at_pc]
  all_goals first
    | exact ⟨trivial, trivial, le_rfl⟩
    | exact ⟨rfl, rfl, le_rfl⟩
    | split_ifs <;> first | exact ⟨rfl, rfl, le_rfl⟩ | exact ⟨rfl, rfl, Nat.le_succ _⟩

theorem Answering.step (answering : Answering s) {op : Op} (allowed : op.Allowed s) : Answering (s.step op) := by
  rcases step_cases s op with ⟨t, b, rfl⟩ | ⟨k, data, rfl⟩ | ⟨k, rfl⟩ | quiet
  · obtain ⟨answers, handlers, more⟩ := run_answers s t b
    refine ⟨?_, ?_⟩
    · intro k answered
      rw [State.step, answers] at answered
      exact Nat.lt_of_lt_of_le (answering.sent k answered) more
    · rw [State.step, answers, handlers]
      exact answering.handled
  · refine ⟨?_, ?_⟩
    · intro j answered
      by_cases here : j = k
      · exact here ▸ allowed.1
      · simp only [State.step, State.respond, Function.update_of_ne here] at answered
        exact answering.sent j answered
    · intro j handled
      by_cases here : j = k
      · simp [State.step, State.respond, here]
      · simp only [State.step, State.respond, List.mem_cons, here, false_or] at handled
        simp only [State.step, State.respond, Function.update_of_ne here]
        exact answering.handled j handled
  · exact ⟨answering.sent, fun j handled => answering.handled j (List.mem_of_mem_erase handled)⟩
  · refine ⟨?_, ?_⟩
    · rw [quiet.answers, quiet.requests]
      exact answering.sent
    · rw [quiet.answers, quiet.handlers]
      exact answering.handled

theorem Pc.ok_outside {pc : Pc} (outside : pc.inside = false) :
    pc.Ok s ↔ (s.embeddedRegisterError = false → s.AllSettled) := by
  cases pc with
  | idle | readDown | writeDown => exact Iff.rfl
  | _ => simp [Pc.inside] at outside

theorem Pc.Ok.quiet {s' : State} (quiet : Quiet s s') {pc : Pc} (ok : pc.Ok s) : pc.Ok s' := by
  have settled : s'.AllSettled ↔ s.AllSettled := by
    simp only [State.AllSettled, State.Settled, quiet.requests, quiet.answers, quiet.handlers]
  have live : ∀ k, s'.Live k ↔ s.Live k := by
    intro k
    simp only [State.Live, State.Settled, quiet.requests, quiet.answers, quiet.handlers, quiet.completionEvent, quiet.data]
  unfold Pc.Ok at ok ⊢
  simp only [settled, live, quiet.completionEvent, quiet.answers, quiet.data]
  split at ok
  · exact fun clear => ok (quiet.error clear)
  · exact fun clear => ok (quiet.error clear)
  · exact ok
  · exact ok
  · exact ok
  · exact ok
  · exact ok
  · exact ok
  · trivial
  · by_contra clear
    rw [quiet.error (Bool.eq_false_iff.mpr clear)] at ok
    exact absurd ok (by simp)
  · exact fun clear => ok (quiet.error clear)

/-- Some thread's place says what holds, and no other thread is inside. -/
def Held (s : State) : Prop := ∃ t, (s.pc t).Ok s ∧ ∀ t', (s.pc t').inside = true → t' = t

/-- A thread that is not inside either stays outside and changes nothing, or it comes in
    when nobody is there. -/
theorem run_outside (exclusive : Exclusive s.embeddedRegisterLock fun t => (s.pc t).inside = true) {b : Bool}
    (waits : LockWaits s (.run t b)) (outside : (s.pc t).inside = false) : s.run t b = s ∨
      ((∀ t', (s.pc t').inside = false) ∧ ∃ pc, (pc = .readBegin ∨ pc = .writeBegin) ∧
        s.run t b = { s.goto t pc with embeddedRegisterLock := s.embeddedRegisterLock - 1 }) := by
  have down : ∀ pc, s.pc t = .readDown ∨ s.pc t = .writeDown → s.down t b pc = s ∨ ((∀ t', (s.pc t').inside = false) ∧
      s.down t b pc = { s.goto t pc with embeddedRegisterLock := s.embeddedRegisterLock - 1 }) := by
    intro pc atDown
    cases b with
    | false => exact absurd atDown (by simpa [LockWaits, not_or] using waits)
    | true =>
      simp only [State.down, if_true]
      split_ifs with free
      · refine .inr ⟨?_, rfl⟩
        rcases exclusive with ⟨_, nobody⟩ | ⟨zero, _⟩
        · exact fun t' => Bool.eq_false_iff.mpr (nobody t')
        · omega
      · exact .inl rfl
  cases at_pc : s.pc t with
  | idle => exact .inl (by simp only [State.run, at_pc])
  | readDown =>
    simp only [State.run, at_pc]
    rcases down .readBegin (.inl at_pc) with stays | ⟨nobody, enters⟩
    · exact .inl stays
    · exact .inr ⟨nobody, .readBegin, .inl rfl, enters⟩
  | writeDown =>
    simp only [State.run, at_pc]
    rcases down .writeBegin (.inr at_pc) with stays | ⟨nobody, enters⟩
    · exact .inl stays
    · exact .inr ⟨nobody, .writeBegin, .inr rfl, enters⟩
  | _ => simp [at_pc, Pc.inside] at outside

theorem run_pc_other (s : State) {t t' : Nat} (other : t' ≠ t) (b : Bool) : (s.run t b).pc t' = s.pc t' := by
  cases at_pc : s.pc t <;> simp only [State.run, State.down, at_pc, State.goto]
  all_goals first
    | exact Function.update_of_ne other ..
    | split_ifs <;> first | rfl | exact Function.update_of_ne other ..

theorem Held.run (answering : Answering s) (exclusive : Exclusive s.embeddedRegisterLock fun t => (s.pc t).inside = true)
    (held : Held s) {b : Bool} (waits : LockWaits s (.run t b)) : Held (s.run t b) := by
  obtain ⟨holder, ok, only⟩ := held
  by_cases inside : (s.pc t).inside = true
  · have is_holder := only t inside
    subst is_holder
    refine ⟨t, ok.run answering inside b, ?_⟩
    intro t' inside'
    by_contra other
    rw [run_pc_other s other] at inside'
    exact other (only t' inside')
  · rcases run_outside exclusive waits (Bool.eq_false_iff.mpr inside) with stays | ⟨nobody, pc, begins, enters⟩
    · rw [stays]
      exact ⟨holder, ok, only⟩
    · have calm := (Pc.ok_outside (nobody holder)).mp ok
      refine ⟨t, ?_, ?_⟩
      · rw [enters]
        simp only [State.goto, Function.update_self]
        rcases begins with rfl | rfl <;> exact calm
      · intro t' inside'
        by_contra other
        rw [run_pc_other s other, nobody t'] at inside'
        exact absurd inside' (by simp)

theorem Held.step (answering : Answering s) (exclusive : Exclusive s.embeddedRegisterLock fun t => (s.pc t).inside = true)
    (held : Held s) {op : Op} (allowed : op.Allowed s) (waits : LockWaits s op) : Held (s.step op) := by
  rcases step_cases s op with ⟨t, b, rfl⟩ | ⟨k, data, rfl⟩ | ⟨k, rfl⟩ | quiet
  · exact held.run answering exclusive waits
  · obtain ⟨holder, ok, only⟩ := held
    exact ⟨holder, ok.respond answering data allowed.1 allowed.2, only⟩
  · obtain ⟨holder, ok, only⟩ := held
    exact ⟨holder, ok.notify answering allowed, only⟩
  · obtain ⟨holder, ok, only⟩ := held
    refine ⟨holder, ?_, fun t' inside => only t' (quiet.inside t' ▸ inside)⟩
    rcases quiet.pc holder with same | ⟨outside', outside⟩
    · rw [same]
      exact ok.quiet quiet
    · rw [Pc.ok_outside outside] at ok
      rw [Pc.ok_outside outside']
      have idle : Pc.idle.Ok s ↔ _ := Pc.ok_outside rfl
      exact (idle.mpr ok).quiet quiet

/-- What a step of a thread returns is what it has at its exit. -/
theorem run_returned (s : State) (t : Nat) (b : Bool) {p : Nat × BitVec 32} (mem : p ∈ (s.run t b).returned) :
    p ∈ s.returned ∨ s.pc t = .readUp (some p.1) (some p.2) := by
  cases at_pc : s.pc t with
  | readUp request result =>
    simp only [State.run, at_pc, List.mem_append] at mem
    rcases mem with now | before
    · match request, result, now with
      | some k, some d, now =>
        rw [List.mem_singleton] at now
        subst now
        exact .inr rfl
    · exact .inl before
  | _ =>
    left
    simp only [State.run, State.down, at_pc] at mem
    first
    | exact mem
    | split_ifs at mem <;> exact mem

/-- Every read that succeeds returns the answer to its own request. -/
theorem read_returns_own_answer (reachable : Reachable LockWaits s) {k : Nat} {d : BitVec 32} (mem : (k, d) ∈ s.returned) :
    s.answers k = some d := by
  have inv : (Answering s ∧ Exclusive s.embeddedRegisterLock (fun t => (s.pc t).inside = true) ∧ Held s) ∧
      ∀ p ∈ s.returned, s.answers p.1 = some p.2 := by
    refine reachable.invariant (P := fun s => (Answering s ∧ Exclusive s.embeddedRegisterLock
      (fun t => (s.pc t).inside = true) ∧ Held s) ∧ ∀ p ∈ s.returned, s.answers p.1 = some p.2) ?_ ?_
    · rintro s ⟨data, rfl⟩
      refine ⟨⟨⟨by simp [State.initial], by simp [State.initial]⟩, .inl ⟨rfl, by simp [State.initial, Pc.inside]⟩, 0, ?_, ?_⟩, ?_⟩
      · exact fun _ k sent => absurd sent (Nat.not_lt_zero k)
      · simp [State.initial, Pc.inside]
      · simp [State.initial]
    · rintro s op ⟨⟨answering, exclusive, held⟩, returned⟩ ⟨allowed, waits⟩
      refine ⟨⟨answering.step allowed, exclusive_step exclusive waits, held.step answering exclusive allowed waits⟩, ?_⟩
      intro p mem
      rcases step_cases s op with ⟨t, b, rfl⟩ | ⟨j, data, rfl⟩ | ⟨j, rfl⟩ | quiet
      · rw [State.step, (run_answers s t b).1]
        rcases run_returned s t b mem with before | exits
        · exact returned p before
        · obtain ⟨holder, ok, only⟩ := held
          have is_holder : t = holder := only t (by rw [exits]; rfl)
          subst is_holder
          rw [exits] at ok
          exact ok.2 p.1 rfl
      · have answered := returned p mem
        have other : p.1 ≠ j := by
          rintro rfl
          exact absurd (allowed.2.symm.trans answered) (by simp)
        simpa [State.step, State.respond, other] using answered
      · exact returned p mem
      · rw [quiet.returned] at mem
        rw [quiet.answers]
        exact returned p mem
  exact inv.2 (k, d) mem

end

/-- Thread 1 reads and the device answers 7 before the URB of the request is done, while
    thread 2 waits. -/
theorem read_returns_own_answer_seven :
    let s := [Op.call 1 true, .call 2 true, .run 1 true, .run 2 true, .run 1 true, .run 1 true, .run 1 true, .respond 0 7, .run 1 true,
      .urbComplete true, .run 1 true, .notify 0, .run 1 true, .run 1 true, .run 1 true, .run 1 true, .run 1 true].foldl
      State.step (State.initial 0)
    Reachable LockWaits s ∧ (0, 7) ∈ s.returned ∧ s.answers 0 = some 7 := by
  intro s
  have reachable : Reachable LockWaits s := by
    refine (Run.Reachable.first ⟨0, rfl⟩).all ?_
    simp only [Run.Allows, LockWaits, Op.Allowed, and_true, true_and]
    exact ⟨⟨by decide, rfl⟩, List.mem_singleton.mpr rfl⟩
  have returned : (0, 7) ∈ s.returned := List.mem_singleton.mpr rfl
  exact ⟨reachable, returned, read_returns_own_answer reachable returned⟩

end Ehub.Register
