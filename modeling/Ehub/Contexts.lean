import Mathlib
import Ehub.Run
import Ehub.Lending
import Ehub.Message

/-!
The URB contexts for doorbells and for cache writes. Both pools are two lists, which
grow by four contexts whenever the free one is empty; a context goes to the busy list
when it is handed out and comes back in the completion routine of its URB, unless an
error has been noted by then. The completion of a cache write rings a doorbell, which
takes a context from the other pool. No context is handed out or filled again while its
URB is in flight (`contexts_apart`).

The machine has the rest of the traffic to the device as well: the register accesses, the
message loop and whatever sets one of the error flags.
-/
namespace Ehub.Contexts
open Ehub.Lending

/-- `enum usb_interface_condition`. -/
inductive Condition
  | unbound
  | binding
  | bound
  | unbinding
  deriving DecidableEq

structure ErrorFlags where
  urbContextAllocationError : Bool
  usbAllocateUrbError : Bool
  usbAllocateCoherentError : Bool
  embeddedRegisterError : Bool
  embeddedCacheWriteError : Bool

/-- What `DEVICECONTEXT_ErrorCheck` looks at. No `condition` stands for no
    `InterfaceBackup`. -/
structure DeviceContext where
  condition : Option Condition
  xhciHcd : Bool
  dying : Bool
  isUsbHcdInvalid : Bool
  notAttached : Bool
  errorFlags : ErrorFlags

namespace DeviceContext

def isBound (d : DeviceContext) : Bool := d.condition = some .bound ∨ d.condition = some .binding

/-- `xhci_is_dying_safe`. -/
def xhciIsDyingSafe (d : DeviceContext) : Bool := if d.xhciHcd then d.dying else true

/-- `DEVICECONTEXT_ErrorCheck`. -/
def errorCheck (d : DeviceContext) : Int :=
  if ¬d.isBound then -19
  else if d.xhciIsDyingSafe then -19
  else if d.isUsbHcdInvalid then -19
  else if d.notAttached then -19
  else if d.errorFlags.urbContextAllocationError then -19
  else if d.errorFlags.embeddedRegisterError then -19
  else if d.errorFlags.embeddedCacheWriteError then -19
  else 0

def registerFailed (d : DeviceContext) : DeviceContext :=
  { d with errorFlags := { d.errorFlags with embeddedRegisterError := true } }

def cacheWriteFailed (d : DeviceContext) : DeviceContext :=
  { d with errorFlags := { d.errorFlags with embeddedCacheWriteError := true } }

end DeviceContext

/-- What the allocators in `URB_Create` answer. -/
inductive Alloc
  | done
  | noContext
  | noCoherent
  | noUrb
  deriving DecidableEq

/-- `URB_Create`, and whether what it returns is not NULL. Without a buffer or without a
    URB it frees the context and returns it. -/
def urbCreate (d : DeviceContext) (alloc : Alloc) : DeviceContext × Bool :=
  if ¬d.isBound then (d, false)
  else
    match alloc with
    | .done => (d, true)
    | .noContext => ({ d with errorFlags := { d.errorFlags with urbContextAllocationError := true } }, false)
    | .noCoherent => ({ d with errorFlags := { d.errorFlags with usbAllocateCoherentError := true } }, true)
    | .noUrb => ({ d with errorFlags := { d.errorFlags with usbAllocateUrbError := true } }, true)

inductive Kind
  | doorbell
  | cache
  deriving DecidableEq

/-- What a buffer is filled with. -/
inductive Content
  | register (address data : BitVec 32)
  | cache (address : BitVec 32) (data : List (BitVec 8))
  deriving DecidableEq

/-- The fields of a `cache_write_context`. -/
structure Work where
  cacheAddress : BitVec 32
  data : List (BitVec 8)
  ringDoorbell : Bool
  slotId : Nat
  epIndex : Nat
  streamId : BitVec 32

inductive Event
  | handed (kind : Kind) (context : Nat)
  | rewrote (kind : Kind) (context : Nat) (content : Content)
  | submit (kind : Kind) (context : Nat) (ok : Bool)
  | completed (kind : Kind) (context : Nat)
  | submitRegister (read ok : Bool)
  | dispatched (header : Message.Dword)
  | resubmitted (ok : Bool)
  deriving DecidableEq

/-- A call of `ehub_xhci_readl` or `ehub_xhci_writel` that has passed its check. -/
structure Call where
  read : Bool
  submitted : Bool
  late : Bool

/-- The device context with its pools, the register accesses under way and the calls of
    `xhci_start` that have found the controller running. `log` is what has happened and
    `late` the part of it that was done for a call, a message or a completion that began
    when an error had been noted before (`failed`). -/
structure State where
  device : DeviceContext
  pools : Kind → Lender Nat
  created : Nat
  work : Nat → Work
  dba : Nat
  calls : List Call
  starting : Nat
  log : List Event
  late : List Event
  failed : Bool

namespace State

def note (s : State) (e : Event) : State := { s with log := s.log ++ [e] }

def act (s : State) (late : Bool) (e : Event) : State :=
  { s with log := s.log ++ [e], late := if late then s.late ++ [e] else s.late }

def setPool (s : State) (kind : Kind) (l : Lender Nat) : State := { s with pools := Function.update s.pools kind l }

/-- The loop of `ehub_xhci_doorbell_expand` and `ehub_xhci_cache_work_expand`. No answer
    stands for a `cache_write_context` that could not be allocated. -/
def expand (kind : Kind) : Nat → List (Option Alloc) → State → Nat × State
  | 0, _, s => (0, s)
  | n + 1, answers, s =>
    match answers.headD (some .done) with
    | none => (0, s)
    | some alloc =>
      let made := urbCreate s.device alloc
      if made.2 then
        let s := { (s.setPool kind ((s.pools kind).addFree s.created)) with device := made.1, created := s.created + 1 }
        let rest := expand kind n answers.tail s
        (rest.1 + 1, rest.2)
      else (0, { s with device := made.1 })

/-- `ehub_xhci_doorbell_expand`. -/
def doorbellExpand (entries : Nat) (answers : List Alloc) (s : State) : Nat × State :=
  s.expand .doorbell entries (answers.map some)

/-- `ehub_xhci_cache_work_expand`. -/
def cacheWorkExpand (entries : Nat) (answers : List (Option Alloc)) (s : State) : Nat × State :=
  s.expand .cache entries answers

/-- The first context of the free list goes to the busy one. -/
def getContext (kind : Kind) (answers : List (Option Alloc)) (s : State) : Option Nat × State :=
  let grown := if (s.pools kind).free = [] then s.expand kind 4 answers else (1, s)
  if grown.1 < 1 then (none, grown.2)
  else
    match (grown.2.pools kind).free with
    | [] => (none, grown.2)
    | context :: _ =>
      (some context, (grown.2.setPool kind ((grown.2.pools kind).moveBusy context)).note (.handed kind context))

/-- The buffer is filled and the URB submitted, with the status that `usb_submit_urb`
    returns. -/
def fillAndSubmit (kind : Kind) (context : Nat) (content : Content) (status : Int) (s : State) : State :=
  (s.note (.rewrote kind context content)).act s.failed (.submit kind context (0 ≤ status))

/-- `EMBEDDED_REGISTER_Write_Doorbell`. -/
def embeddedRegisterWriteDoorbell (address data : BitVec 32) (answers : List Alloc) (status : Int) (s : State) : State :=
  match s.getContext .doorbell (answers.map some) with
  | (none, s) => s
  | (some context, s) =>
    let s := s.fillAndSubmit .doorbell context (.register address data) status
    if status < 0 then { s with device := s.device.registerFailed } else s

/-- `ehub_xhci_writel_doorbell`. -/
def writelDoorbell (address data : BitVec 32) (answers : List Alloc) (status : Int) (s : State) : State :=
  if s.device.errorCheck < 0 then s else s.embeddedRegisterWriteDoorbell address data answers status

/-- `EMBEDDED_CACHE_Write`. -/
def embeddedCacheWrite (context : Nat) (status : Int) (s : State) : State :=
  if s.device.errorCheck < 0 then { s with device := s.device.cacheWriteFailed }
  else if (s.work context).cacheAddress.toNat % 8 ≠ 0 then { s with device := s.device.cacheWriteFailed }
  else
    let s := s.fillAndSubmit .cache context (.cache (s.work context).cacheAddress (s.work context).data) status
    if status < 0 then { s with device := s.device.cacheWriteFailed } else s

/-- `ehub_get_cache_work_context`. -/
def getCacheWorkContext (answers : List (Option Alloc)) (s : State) : Option Nat × State :=
  if s.device.errorCheck < 0 then (none, s) else s.getContext .cache answers

/-- `ehub_queue_cache_write`. -/
def queueCacheWrite (w : Work) (answers : List (Option Alloc)) (status : Int) (s : State) : State :=
  if s.device.errorCheck < 0 then s
  else
    match s.getCacheWorkContext answers with
    | (none, s) => s
    | (some context, s) => { s with work := Function.update s.work context w }.embeddedCacheWrite context status

/-- `URB_CompletionRoutine_Doorbell`. -/
def completionRoutineDoorbell (context : Nat) (status : Int) (s : State) : State :=
  let s := s.note (.completed .doorbell context)
  if status = -108 then s
  else if s.device.errorCheck < 0 then s
  else s.setPool .doorbell ((s.pools .doorbell).moveFree context)

/-- `ehub_xhci_ring_ep_doorbell` and `ehub_xhci_ring_cmd_db_low`; `ready` says that no
    command for the endpoint is pending and that the command ring runs. -/
def ringDoorbell (w : Work) (ready : Bool) (answers : List Alloc) (status : Int) (s : State) : State :=
  if ¬ready then s
  else if w.streamId ≠ BitVec.allOnes 32 then
    s.writelDoorbell (BitVec.ofNat 32 (s.dba + 4 * w.slotId)) (BitVec.ofNat 32 ((w.epIndex + 1) % 256) ||| w.streamId <<< 16)
      answers status
  else s.writelDoorbell (BitVec.ofNat 32 s.dba) 0 answers status

/-- `URB_CompletionRoutine_Cache`. -/
def completionRoutineCache (context : Nat) (ready : Bool) (answers : List Alloc) (status : Int) (s : State) : State :=
  let s := s.note (.completed .cache context)
  if s.device.errorCheck < 0 then s
  else
    let s := s.setPool .cache ((s.pools .cache).remove context)
    let s := if (s.work context).ringDoorbell then s.ringDoorbell (s.work context) ready answers status else s
    s.setPool .cache ((s.pools .cache).addFree context)

/-- `ehub_xhci_readl` and `ehub_xhci_writel` up to the lock of the register access. -/
def registerCall (read : Bool) (s : State) : State :=
  if s.device.errorCheck < 0 then s else { s with calls := s.calls ++ [⟨read, false, s.failed⟩] }

/-- The call has the lock and submits its URB; a read finds no URB context when the
    device goes away. -/
def registerSubmit (i : Nat) (context : Bool) (status : Int) (s : State) : State :=
  match s.calls[i]? with
  | none => s
  | some call =>
    if call.submitted then s
    else if call.read ∧ ¬context then { s with device := s.device.registerFailed, calls := s.calls.eraseIdx i }
    else
      let s := s.act call.late (.submitRegister call.read (0 ≤ status))
      if status < 0 then { s with device := s.device.registerFailed, calls := s.calls.eraseIdx i }
      else { s with calls := s.calls.set i { call with submitted := true } }

/-- The waits of the call end, with the status of the last one. -/
def registerReturn (i : Nat) (status : Int) (s : State) : State :=
  { s with
    device := if status < 0 then s.device.registerFailed else s.device
    calls := s.calls.eraseIdx i }

/-- One pass of the loop of `MESSAGE_Parsing`. -/
def messagePass (header : Message.Dword) (s : State) : State :=
  if header = 0 then s
  else if (Message.messageGetType header).1 = .unknown then s
  else if s.device.errorCheck < 0 then s
  else s.act s.failed (.dispatched header)

/-- `URB_CompletionRoutine_GetMessage`, with the status of the URB and the status of its
    next submission. -/
def completionRoutineGetMessage (buffer : Bool) (status submitted : Int) (s : State) : State :=
  if s.device.errorCheck < 0 then s
  else if ¬buffer then s
  else if status = 0 then s.act s.failed (.resubmitted (0 ≤ submitted))
  else s

/-- `xhci_start` has read that the controller runs. -/
def startRead (s : State) : State := if s.device.errorCheck < 0 then s else { s with starting := s.starting + 1 }

/-- `xhci_start` sets the state of the host to 0. -/
def startDone (s : State) : State :=
  if s.starting = 0 then s else { s with starting := s.starting - 1, device := { s.device with dying := false } }

end State

/-- The routines, each as one step (the register accesses wait in between), and whatever
    else changes what `DEVICECONTEXT_ErrorCheck` looks at. -/
inductive Op
  | writelDoorbell (address data : BitVec 32) (answers : List Alloc) (status : Int)
  | completeDoorbell (context : Nat) (status : Int)
  | queueCacheWrite (w : Work) (answers : List (Option Alloc)) (status : Int)
  | completeCache (context : Nat) (ready : Bool) (answers : List Alloc) (status : Int)
  | doorbellExpand (entries : Nat) (answers : List Alloc)
  | cacheWorkExpand (entries : Nat) (answers : List (Option Alloc))
  | urbCreate (alloc : Alloc)
  | registerCall (read : Bool)
  | registerSubmit (i : Nat) (context : Bool) (status : Int)
  | registerReturn (i : Nat) (status : Int)
  | messagePass (header : Message.Dword)
  | completeMessage (buffer : Bool) (status submitted : Int)
  | startRead
  | startDone
  | markDying
  | environment (condition : Option Condition) (xhciHcd isUsbHcdInvalid notAttached : Bool)

def State.run (s : State) : Op → State
  | .writelDoorbell address data answers status => s.writelDoorbell address data answers status
  | .completeDoorbell context status => s.completionRoutineDoorbell context status
  | .queueCacheWrite w answers status => s.queueCacheWrite w answers status
  | .completeCache context ready answers status => s.completionRoutineCache context ready answers status
  | .doorbellExpand entries answers => (s.doorbellExpand entries answers).2
  | .cacheWorkExpand entries answers => (s.cacheWorkExpand entries answers).2
  | .urbCreate alloc => { s with device := (Contexts.urbCreate s.device alloc).1 }
  | .registerCall read => s.registerCall read
  | .registerSubmit i context status => s.registerSubmit i context status
  | .registerReturn i status => s.registerReturn i status
  | .messagePass header => s.messagePass header
  | .completeMessage buffer status submitted => s.completionRoutineGetMessage buffer status submitted
  | .startRead => s.startRead
  | .startDone => s.startDone
  | .markDying => { s with device := { s.device with dying := true } }
  | .environment condition xhciHcd isUsbHcdInvalid notAttached =>
    { s with device := { s.device with
        condition := condition
        xhciHcd := xhciHcd
        isUsbHcdInvalid := isUsbHcdInvalid
        notAttached := notAttached } }

/-- A flag is set or the host is dying. -/
def DeviceContext.isFailed (d : DeviceContext) : Bool :=
  d.errorFlags.urbContextAllocationError || d.errorFlags.usbAllocateUrbError || d.errorFlags.usbAllocateCoherentError ||
    d.errorFlags.embeddedRegisterError || d.errorFlags.embeddedCacheWriteError || d.dying

def State.step (s : State) (op : Op) : State := { s.run op with failed := s.failed || (s.run op).device.isFailed }

/-- A device that has just been bound. -/
def State.initial (work : Nat → Work) (dba : Nat) : State where
  device := ⟨some .binding, true, false, false, false, ⟨false, false, false, false, false⟩⟩
  pools := fun _ => ⟨[], []⟩
  created := 0
  work := work
  dba := dba
  calls := []
  starting := 0
  log := []
  late := []
  failed := false

def IsInitial (s : State) : Prop := ∃ work dba, s = .initial work dba

/-- The URB of the context has been accepted more often than it has completed. -/
def InFlight (log : List Event) (kind : Kind) (context : Nat) : Prop :=
  log.count (.completed kind context) < log.count (.submit kind context true)

/-- `URB_Create` answers with NULL or with a context of its own. -/
def Alloc.Valid (alloc : Alloc) : Prop := alloc = .done ∨ alloc = .noContext

instance : DecidablePred Alloc.Valid := fun _ => inferInstanceAs (Decidable (_ ∨ _))

instance (log : List Event) (kind : Kind) (context : Nat) : Decidable (InFlight log kind context) :=
  inferInstanceAs (Decidable (_ < _))

/-- URBs complete once for each submission. -/
def Op.Allowed (s : State) : Op → Prop
  | .completeDoorbell context _ => InFlight s.log .doorbell context
  | .completeCache context _ _ _ => InFlight s.log .cache context
  | _ => True

/-- What `URB_Create` returns in the operation can be used. -/
def Op.CreatesValid : Op → Prop
  | .writelDoorbell _ _ answers _ | .completeCache _ _ answers _ | .doorbellExpand _ answers => ∀ alloc ∈ answers, alloc.Valid
  | .queueCacheWrite _ answers _ | .cacheWorkExpand _ answers => ∀ answer ∈ answers, ∀ alloc ∈ answer, alloc.Valid
  | .urbCreate alloc => alloc.Valid
  | _ => True

instance (s : State) (op : Op) : Decidable (op.Allowed s) := by
  cases op <;> unfold Op.Allowed <;> infer_instance

instance (op : Op) : Decidable op.CreatesValid := by
  cases op <;> unfold Op.CreatesValid <;> infer_instance

def Reachable (s : State) : Prop := Run.Reachable IsInitial (fun s op => op.Allowed s ∧ op.CreatesValid) State.step s

/-- The event hands out the context or fills its buffer. -/
def Event.Uses (kind : Kind) (context : Nat) (e : Event) : Prop :=
  e = .handed kind context ∨ ∃ content, e = .rewrote kind context content

/-- No context was used while its URB was in flight. -/
def Unharmed (log : List Event) : Prop := ∀ before e after, log = before ++ e :: after →
  ∀ kind context, e.Uses kind context → ¬InFlight before kind context

/-! ### What an event does to the URBs in flight -/

section
variable {log : List Event} {e : Event} {kind k : Kind} {context c : Nat}

theorem inFlight_other (notCompleted : e ≠ .completed kind c) (notSubmit : e ≠ .submit kind c true) :
    InFlight (log ++ [e]) kind c ↔ InFlight log kind c := by
  unfold InFlight
  rw [List.count_append, List.count_append, List.count_singleton, List.count_singleton]
  simp only [beq_iff_eq, notCompleted, notSubmit, if_false, Nat.add_zero]

theorem inFlight_submit (flight : InFlight (log ++ [.submit kind context true]) k c) :
    InFlight log k c ∨ (k = kind ∧ c = context) := by
  by_cases same : Event.submit kind context true = .submit k c true
  · cases same
    exact .inr ⟨rfl, rfl⟩
  · exact .inl ((inFlight_other (by rintro ⟨⟩) same).mp flight)

theorem inFlight_completed (flight : InFlight (log ++ [.completed kind context]) k c) : InFlight log k c := by
  unfold InFlight at flight ⊢
  rw [List.count_append, List.count_append, List.count_singleton, List.count_singleton] at flight
  simp only [beq_iff_eq, reduceCtorEq, if_false, Nat.add_zero] at flight
  omega

theorem unharmed_append (unharmed : Unharmed log) (uses : ∀ kind context, e.Uses kind context → ¬InFlight log kind context) :
    Unharmed (log ++ [e]) := by
  intro before e' after split kind context used
  rcases List.eq_nil_or_concat after with rfl | ⟨after', last, rfl⟩
  · obtain ⟨rfl, one⟩ := List.append_inj' split rfl
    cases one
    exact uses kind context used
  · rw [List.concat_eq_append, ← List.cons_append, ← List.append_assoc] at split
    obtain ⟨rfl, _⟩ := List.append_inj' split rfl
    exact unharmed before e' after' rfl kind context used

end

/-! ### The pools in every state -/

structure Inv (s : State) : Prop where
  tidy : ∀ kind, Tidy (s.pools kind) (InFlight s.log kind)
  made : ∀ kind, ∀ context ∈ (s.pools kind).free ++ (s.pools kind).busy, context < s.created
  flown : ∀ kind context, InFlight s.log kind context → context < s.created
  once : ∀ kind context, s.log.count (.submit kind context true) ≤ s.log.count (.completed kind context) + 1
  unharmed : Unharmed s.log

/-- The other pool is left alone. -/
structure Frame (kind : Kind) (s s' : State) : Prop where
  pools : ∀ k ≠ kind, s'.pools k = s.pools k
  flights : ∀ k ≠ kind, ∀ context, InFlight s'.log k context ↔ InFlight s.log k context
  created : s.created ≤ s'.created

section
variable {s s' s'' : State} {kind : Kind} {context : Nat} {e : Event}

theorem Frame.refl (kind : Kind) (s : State) : Frame kind s s := ⟨fun _ _ => rfl, fun _ _ _ => .rfl, le_rfl⟩

theorem Frame.trans (left : Frame kind s s') (right : Frame kind s' s'') : Frame kind s s'' :=
  ⟨fun k other => (right.pools k other).trans (left.pools k other),
    fun k other context => (right.flights k other context).trans (left.flights k other context),
    left.created.trans right.created⟩

theorem Inv.congr (inv : Inv s) (pools : s'.pools = s.pools) (created : s'.created = s.created) (log : s'.log = s.log) :
    Inv s' := by
  obtain ⟨tidy, made, flown, once, unharmed⟩ := inv
  rw [← pools, ← log] at tidy
  rw [← pools, ← created] at made
  rw [← created, ← log] at flown
  rw [← log] at once unharmed
  exact ⟨tidy, made, flown, once, unharmed⟩

/-- The event takes no URB up or back. -/
theorem Inv.note (inv : Inv s) (quiet : ∀ kind context, e ≠ .completed kind context ∧ e ≠ .submit kind context true)
    (uses : ∀ kind context, e.Uses kind context → ¬InFlight s.log kind context) : Inv (s.note e) := by
  have same : ∀ kind context, InFlight (s.log ++ [e]) kind context ↔ InFlight s.log kind context :=
    fun kind context => inFlight_other (quiet kind context).1 (quiet kind context).2
  constructor
  · intro kind
    exact (inv.tidy kind).lend fun context flight => .inl ((same kind context).mp flight)
  · exact inv.made
  · intro kind context flight
    exact inv.flown kind context ((same kind context).mp flight)
  · intro kind context
    show (s.log ++ [e]).count _ ≤ (s.log ++ [e]).count _ + 1
    rw [List.count_append, List.count_append, List.count_singleton, List.count_singleton]
    simp only [beq_iff_eq, (quiet kind context).1, (quiet kind context).2, if_false, Nat.add_zero]
    exact inv.once kind context
  · exact unharmed_append inv.unharmed uses

theorem Inv.submit (inv : Inv s) (made : context < s.created) (home : ¬InFlight s.log kind context)
    (busy : context ∉ (s.pools kind).free) : Inv (s.note (.submit kind context true)) := by
  constructor
  · intro k
    refine (inv.tidy k).lend fun c flight => ?_
    rcases inFlight_submit flight with old | ⟨rfl, rfl⟩
    · exact .inl old
    · exact .inr busy
  · exact inv.made
  · intro k c flight
    rcases inFlight_submit flight with old | ⟨rfl, rfl⟩
    · exact inv.flown k c old
    · exact made
  · intro k c
    show (s.log ++ [_]).count _ ≤ (s.log ++ [_]).count _ + 1
    rw [List.count_append, List.count_append, List.count_singleton, List.count_singleton]
    simp only [beq_iff_eq, reduceCtorEq, if_false, Nat.add_zero]
    by_cases same : Event.submit kind context true = .submit k c true
    · cases same
      rw [if_pos rfl]
      unfold InFlight at home
      omega
    · rw [if_neg same]
      exact inv.once k c
  · refine unharmed_append inv.unharmed ?_
    rintro k c (used | ⟨_, used⟩)
    · cases used
    · cases used

theorem Inv.completed (inv : Inv s) (flight : InFlight s.log kind context) :
    Inv (s.note (.completed kind context)) ∧ ¬InFlight (s.note (.completed kind context)).log kind context := by
  have once := inv.once kind context
  constructor
  · constructor
    · intro k
      exact (inv.tidy k).lend fun c flight => .inl (inFlight_completed flight)
    · exact inv.made
    · intro k c flight
      exact inv.flown k c (inFlight_completed flight)
    · intro k c
      show (s.log ++ [_]).count _ ≤ (s.log ++ [_]).count _ + 1
      have before := inv.once k c
      rw [List.count_append, List.count_append, List.count_singleton, List.count_singleton]
      simp only [beq_iff_eq, reduceCtorEq, if_false, Nat.add_zero]
      omega
    · refine unharmed_append inv.unharmed ?_
      rintro k c (used | ⟨_, used⟩)
      · cases used
      · cases used
  · unfold InFlight at flight ⊢
    show ¬(s.log ++ [_]).count _ < (s.log ++ [_]).count _
    rw [List.count_append, List.count_append, List.count_singleton, List.count_singleton]
    simp only [beq_iff_eq, reduceCtorEq, if_false, if_true, Nat.add_zero]
    omega

/-- One pool is replaced by another that is in order. -/
theorem Inv.setPool (inv : Inv s) {l : Lender Nat} (tidy : Tidy l (InFlight s.log kind))
    (made : ∀ context ∈ l.free ++ l.busy, context < s.created) : Inv (s.setPool kind l) := by
  constructor
  · intro k
    by_cases same : k = kind
    · subst same
      show Tidy (Function.update s.pools k l k) _
      rw [Function.update_self]
      exact tidy
    · show Tidy (Function.update s.pools kind l k) _
      rw [Function.update_of_ne same]
      exact inv.tidy k
  · intro k
    by_cases same : k = kind
    · subst same
      show ∀ context ∈ (Function.update s.pools k l k).free ++ (Function.update s.pools k l k).busy, _
      rw [Function.update_self]
      exact made
    · show ∀ context ∈ (Function.update s.pools kind l k).free ++ (Function.update s.pools kind l k).busy, _
      rw [Function.update_of_ne same]
      exact inv.made k
  · exact inv.flown
  · exact inv.once
  · exact inv.unharmed

theorem frame_setPool (s : State) (kind : Kind) (l : Lender Nat) : Frame kind s (s.setPool kind l) :=
  ⟨fun _ other => Function.update_of_ne other _ _, fun _ _ _ => .rfl, le_rfl⟩

/-- A new context is on no list and its URB not in flight. -/
theorem Inv.create (inv : Inv s) (kind : Kind) (d : DeviceContext) :
    Inv { s.setPool kind ((s.pools kind).addFree s.created) with device := d, created := s.created + 1 } := by
  have unlinked : s.created ∉ (s.pools kind).free ++ (s.pools kind).busy := fun member =>
    lt_irrefl _ (inv.made kind _ member)
  have home : ¬InFlight s.log kind s.created := fun flight => lt_irrefl _ (inv.flown kind _ flight)
  -- The new number is in use before its list is changed.
  have wider : Inv { s with device := d, created := s.created + 1 } :=
    ⟨inv.tidy, fun k context member => Nat.lt_succ_of_lt (inv.made k context member),
      fun k context flight => Nat.lt_succ_of_lt (inv.flown k context flight), inv.once, inv.unharmed⟩
  refine wider.setPool ((inv.tidy kind).addFree unlinked home) ?_
  intro context member
  rcases mem_addFree.mp member with rfl | old
  · exact Nat.lt_succ_self _
  · exact Nat.lt_succ_of_lt (inv.made kind context old)

theorem Inv.expand (kind : Kind) : ∀ (n : Nat) (answers : List (Option Alloc)) {s : State}, Inv s →
    Inv (s.expand kind n answers).2 ∧ Frame kind s (s.expand kind n answers).2 := by
  intro n
  induction n with
  | zero => exact fun _ s inv => ⟨inv, .refl kind s⟩
  | succ n ih =>
    intro answers s inv
    unfold State.expand
    cases answers.headD (some .done) with
    | none => exact ⟨inv, .refl kind s⟩
    | some alloc =>
      by_cases made : (urbCreate s.device alloc).2 = true
      · simp only [made, if_true]
        obtain ⟨inv', frame⟩ := ih answers.tail (inv.create kind (urbCreate s.device alloc).1)
        have first : Frame kind s
            { s.setPool kind ((s.pools kind).addFree s.created) with
              device := (urbCreate s.device alloc).1, created := s.created + 1 } :=
          ⟨(frame_setPool s kind _).pools, fun _ _ _ => .rfl, Nat.le_succ _⟩
        exact ⟨inv', first.trans frame⟩
      · simp only [made, if_false, Bool.false_eq_true]
        exact ⟨inv.congr rfl rfl rfl, ⟨fun _ _ => rfl, fun _ _ _ => .rfl, le_rfl⟩⟩

/-- The context is in the hands of the caller: it is not free and its URB is not in
    flight. -/
structure Handed (s : State) (kind : Kind) (context : Nat) : Prop where
  made : context < s.created
  home : ¬InFlight s.log kind context
  busy : context ∉ (s.pools kind).free

theorem Inv.hand (inv : Inv s) (member : context ∈ (s.pools kind).free) :
    let s' := (s.setPool kind ((s.pools kind).moveBusy context)).note (.handed kind context)
    Inv s' ∧ Frame kind s s' ∧ Handed s' kind context := by
  have tidy := inv.tidy kind
  have made := inv.made kind context (List.mem_append_left _ member)
  have home : ¬InFlight s.log kind context := fun flight => tidy.kept context flight member
  have moved : Inv (s.setPool kind ((s.pools kind).moveBusy context)) := by
    refine inv.setPool (tidy.moveBusy context) ?_
    intro c inLists
    rcases tidy.mem_moveBusy.mp inLists with rfl | old
    · exact made
    · exact inv.made kind c old
  have other : ∀ k c, InFlight (s.log ++ [.handed kind context]) k c ↔ InFlight s.log k c := fun k c =>
    inFlight_other (by rintro ⟨⟩) (by rintro ⟨⟩)
  refine ⟨moved.note (fun k c => ⟨by rintro ⟨⟩, by rintro ⟨⟩⟩) ?_, ?_, ?_⟩
  · rintro k c (used | ⟨_, used⟩)
    · cases used
      exact home
    · cases used
  · exact ⟨(frame_setPool s kind _).pools, fun k _ c => other k c, le_rfl⟩
  · refine ⟨made, fun flight => home ((other kind context).mp flight), ?_⟩
    show context ∉ (Function.update s.pools kind ((s.pools kind).moveBusy context) kind).free
    rw [Function.update_self]
    exact tidy.not_free

theorem Inv.getContext (inv : Inv s) (kind : Kind) (answers : List (Option Alloc)) :
    Inv (s.getContext kind answers).2 ∧ Frame kind s (s.getContext kind answers).2 ∧
      ∀ context, (s.getContext kind answers).1 = some context → Handed (s.getContext kind answers).2 kind context := by
  obtain ⟨inv', frame⟩ : Inv (if (s.pools kind).free = [] then s.expand kind 4 answers else (1, s)).2 ∧
      Frame kind s (if (s.pools kind).free = [] then s.expand kind 4 answers else (1, s)).2 := by
    by_cases empty : (s.pools kind).free = []
    · rw [if_pos empty]
      exact inv.expand kind 4 answers
    · rw [if_neg empty]
      exact ⟨inv, .refl kind s⟩
  unfold State.getContext
  set grown := if (s.pools kind).free = [] then s.expand kind 4 answers else (1, s)
  by_cases few : grown.1 < 1
  · simp only [if_pos few]
    refine ⟨inv', frame, ?_⟩
    rintro context ⟨⟩
  · simp only [if_neg few]
    cases free : (grown.2.pools kind).free with
    | nil =>
      refine ⟨inv', frame, ?_⟩
      rintro context ⟨⟩
    | cons first rest =>
      have member : first ∈ (grown.2.pools kind).free := by
        rw [free]
        exact List.mem_cons_self
      obtain ⟨inv'', frame', handed⟩ := inv'.hand member
      refine ⟨inv'', frame.trans frame', ?_⟩
      rintro context ⟨⟩
      exact handed

theorem Inv.fillAndSubmit (inv : Inv s) (handed : Handed s kind context) (content : Content) (status : Int) :
    Inv (s.fillAndSubmit kind context content status) ∧ Frame kind s (s.fillAndSubmit kind context content status) := by
  have filled : Inv (s.note (.rewrote kind context content)) := by
    refine inv.note (fun k c => ⟨by rintro ⟨⟩, by rintro ⟨⟩⟩) ?_
    rintro k c (used | ⟨_, used⟩)
    · cases used
    · cases used
      exact handed.home
  have same : ∀ k c, InFlight (s.log ++ [.rewrote kind context content]) k c ↔ InFlight s.log k c := fun k c =>
    inFlight_other (by rintro ⟨⟩) (by rintro ⟨⟩)
  have submitted : Inv ((s.note (.rewrote kind context content)).note (.submit kind context (0 ≤ status))) := by
    by_cases ok : 0 ≤ status
    · rw [decide_eq_true ok]
      exact filled.submit handed.made (fun flight => handed.home ((same kind context).mp flight)) handed.busy
    · rw [decide_eq_false ok]
      refine filled.note (fun k c => ⟨by rintro ⟨⟩, by rintro ⟨⟩⟩) ?_
      rintro k c (used | ⟨_, used⟩)
      · cases used
      · cases used
  refine ⟨submitted.congr rfl rfl rfl, fun _ _ => rfl, fun k other c => ?_, le_rfl⟩
  show InFlight (s.log ++ [.rewrote kind context content] ++ [.submit kind context (0 ≤ status)]) k c ↔ _
  have elsewhere : Event.submit kind context (decide (0 ≤ status)) ≠ .submit k c true := by
    intro eq
    exact other (Event.submit.inj eq).1.symm
  rw [inFlight_other (by rintro ⟨⟩) elsewhere]
  exact same k c

theorem Inv.writelDoorbell (inv : Inv s) (address data : BitVec 32) (answers : List Alloc) (status : Int) :
    Inv (s.writelDoorbell address data answers status) ∧ Frame .doorbell s (s.writelDoorbell address data answers status) := by
  unfold State.writelDoorbell State.embeddedRegisterWriteDoorbell
  by_cases error : s.device.errorCheck < 0
  · rw [if_pos error]
    exact ⟨inv, .refl _ s⟩
  rw [if_neg error]
  obtain ⟨inv', frame, handed⟩ := inv.getContext .doorbell (answers.map some)
  rcases taken : s.getContext .doorbell (answers.map some) with ⟨_ | context, s'⟩
  · rw [taken] at inv' frame
    exact ⟨inv', frame⟩
  · rw [taken] at inv' frame handed
    obtain ⟨inv'', frame'⟩ := inv'.fillAndSubmit (handed context rfl) (.register address data) status
    have both := frame.trans frame'
    dsimp only
    split_ifs
    · exact ⟨inv''.congr rfl rfl rfl, both.pools, both.flights, both.created⟩
    · exact ⟨inv'', both⟩

theorem Inv.queueCacheWrite (inv : Inv s) (w : Work) (answers : List (Option Alloc)) (status : Int) :
    Inv (s.queueCacheWrite w answers status) := by
  unfold State.queueCacheWrite State.getCacheWorkContext
  by_cases error : s.device.errorCheck < 0
  · rw [if_pos error]
    exact inv
  rw [if_neg error, if_neg error]
  obtain ⟨inv', -, handed⟩ := inv.getContext .cache answers
  rcases taken : s.getContext .cache answers with ⟨_ | context, s'⟩
  · rw [taken] at inv'
    exact inv'
  · rw [taken] at inv' handed
    have given : Inv { s' with work := Function.update s'.work context w } := inv'.congr rfl rfl rfl
    have hand : Handed { s' with work := Function.update s'.work context w } .cache context := by
      obtain ⟨made, home, busy⟩ := handed context rfl
      exact ⟨made, home, busy⟩
    dsimp only
    unfold State.embeddedCacheWrite
    split_ifs
    · exact given.congr rfl rfl rfl
    · exact given.congr rfl rfl rfl
    · exact (given.fillAndSubmit hand _ status).1.congr rfl rfl rfl
    · exact (given.fillAndSubmit hand _ status).1

theorem Inv.completionRoutineDoorbell (inv : Inv s) (flight : InFlight s.log .doorbell context) (status : Int) :
    Inv (s.completionRoutineDoorbell context status) := by
  have made := inv.flown .doorbell context flight
  obtain ⟨inv', home⟩ := inv.completed flight
  unfold State.completionRoutineDoorbell
  dsimp only
  split_ifs
  · exact inv'
  · exact inv'
  · have tidy := inv'.tidy .doorbell
    refine inv'.setPool (tidy.moveFree home) ?_
    intro c member
    rcases tidy.mem_moveFree.mp member with rfl | old
    · exact made
    · exact inv'.made .doorbell c old

theorem Inv.ringDoorbell (inv : Inv s) (w : Work) (ready : Bool) (answers : List Alloc) (status : Int) :
    Inv (s.ringDoorbell w ready answers status) ∧ Frame .doorbell s (s.ringDoorbell w ready answers status) := by
  unfold State.ringDoorbell
  by_cases able : ¬ready
  · rw [if_pos able]
    exact ⟨inv, .refl _ s⟩
  rw [if_neg able]
  split_ifs
  · exact inv.writelDoorbell _ _ answers status
  · exact inv.writelDoorbell _ _ answers status

theorem Inv.completionRoutineCache (inv : Inv s) (flight : InFlight s.log .cache context) (ready : Bool) (answers : List Alloc)
    (status : Int) : Inv (s.completionRoutineCache context ready answers status) := by
  have made := inv.flown .cache context flight
  obtain ⟨inv', home⟩ := inv.completed flight
  unfold State.completionRoutineCache
  dsimp only
  split_ifs with error ring
  · exact inv'
  all_goals
    -- On no list, the context waits until the doorbell has been rung.
    have tidy := inv'.tidy .cache
    set s1 := s.note (.completed .cache context)
    have removed : Inv (s1.setPool .cache ((s1.pools .cache).remove context)) :=
      inv'.setPool (tidy.remove context) fun c member => inv'.made .cache c (tidy.mem_remove.mp member).2
    have unlinked : context ∉ ((s1.setPool .cache ((s1.pools .cache).remove context)).pools .cache).free ++
        ((s1.setPool .cache ((s1.pools .cache).remove context)).pools .cache).busy := by
      show context ∉ (Function.update s1.pools .cache _ .cache).free ++ (Function.update s1.pools .cache _ .cache).busy
      rw [Function.update_self]
      exact fun member => (tidy.mem_remove.mp member).1 rfl
    set s2 := s1.setPool .cache ((s1.pools .cache).remove context)
  · obtain ⟨inv'', frame⟩ := removed.ringDoorbell (s2.work context) ready answers status
    have pool := frame.pools .cache (by rintro ⟨⟩)
    have tidy' := inv''.tidy .cache
    have lists := inv''.made .cache
    rw [pool] at tidy' lists ⊢
    refine inv''.setPool (tidy'.addFree unlinked fun flight => home ?_) ?_
    · exact (frame.flights .cache (by rintro ⟨⟩) context).mp flight
    · intro c member
      rcases mem_addFree.mp member with rfl | old
      · exact made.trans_le frame.created
      · exact lists c old
  · refine removed.setPool ((removed.tidy .cache).addFree unlinked home) ?_
    intro c member
    rcases mem_addFree.mp member with rfl | old
    · exact made
    · exact removed.made .cache c old

theorem ite_of {P : State → Prop} {p : Prop} [Decidable p] (left : P s) (right : P s') : P (if p then s else s') := by
  split_ifs
  · exact left
  · exact right

theorem Inv.act (inv : Inv s) (late : Bool) (quiet : ∀ kind context, e ≠ .completed kind context ∧ e ≠ .submit kind context true)
    (idle : ∀ kind context, ¬e.Uses kind context) : Inv (s.act late e) :=
  (inv.note quiet fun kind context used => absurd used (idle kind context)).congr rfl rfl rfl

theorem Inv.registerSubmit (inv : Inv s) (i : Nat) (context : Bool) (status : Int) :
    Inv (s.registerSubmit i context status) := by
  unfold State.registerSubmit
  cases s.calls[i]? with
  | none => exact inv
  | some call =>
    have acted : Inv (s.act call.late (.submitRegister call.read (0 ≤ status))) := by
      refine inv.act _ (fun k c => ⟨by rintro ⟨⟩, by rintro ⟨⟩⟩) ?_
      rintro k c (used | ⟨_, used⟩)
      · cases used
      · cases used
    dsimp only
    split_ifs
    · exact inv
    · exact inv.congr rfl rfl rfl
    · exact acted.congr rfl rfl rfl
    · exact acted.congr rfl rfl rfl

theorem Inv.messagePass (inv : Inv s) (header : Message.Dword) : Inv (s.messagePass header) := by
  have acted : Inv (s.act s.failed (.dispatched header)) := by
    refine inv.act _ (fun k c => ⟨by rintro ⟨⟩, by rintro ⟨⟩⟩) ?_
    rintro k c (used | ⟨_, used⟩)
    · cases used
    · cases used
  unfold State.messagePass
  repeat' apply ite_of
  all_goals assumption

theorem Inv.completionRoutineGetMessage (inv : Inv s) (buffer : Bool) (status submitted : Int) :
    Inv (s.completionRoutineGetMessage buffer status submitted) := by
  have acted : Inv (s.act s.failed (.resubmitted (0 ≤ submitted))) := by
    refine inv.act _ (fun k c => ⟨by rintro ⟨⟩, by rintro ⟨⟩⟩) ?_
    rintro k c (used | ⟨_, used⟩)
    · cases used
    · cases used
  unfold State.completionRoutineGetMessage
  repeat' apply ite_of
  all_goals assumption

theorem Inv.run (inv : Inv s) (op : Op) (allowed : op.Allowed s) : Inv (s.run op) := by
  cases op with
  | writelDoorbell address data answers status => exact (inv.writelDoorbell address data answers status).1
  | completeDoorbell context status => exact inv.completionRoutineDoorbell allowed status
  | queueCacheWrite w answers status => exact inv.queueCacheWrite w answers status
  | completeCache context ready answers status => exact inv.completionRoutineCache allowed ready answers status
  | doorbellExpand entries answers => exact (inv.expand .doorbell entries (answers.map some)).1
  | cacheWorkExpand entries answers => exact (inv.expand .cache entries answers).1
  | registerSubmit i context status => exact inv.registerSubmit i context status
  | registerCall read => exact ite_of inv (inv.congr rfl rfl rfl)
  | messagePass header => exact inv.messagePass header
  | completeMessage buffer status submitted => exact inv.completionRoutineGetMessage buffer status submitted
  | startRead => exact ite_of inv (inv.congr rfl rfl rfl)
  | startDone => exact ite_of inv (inv.congr rfl rfl rfl)
  | urbCreate _ | registerReturn _ _ | markDying | environment _ _ _ _ => exact inv.congr rfl rfl rfl

theorem inv_initial (initial : IsInitial s) : Inv s := by
  obtain ⟨work, dba, rfl⟩ := initial
  have none_flies : ∀ kind context, ¬InFlight [] kind context := fun kind context => Nat.lt_irrefl 0
  constructor
  · intro kind
    exact ⟨List.nodup_nil, fun context flight => absurd flight (none_flies kind context)⟩
  · intro kind context member
    cases member
  · intro kind context flight
    exact absurd flight (none_flies kind context)
  · intro kind context
    exact Nat.zero_le _
  · intro before e after split
    exact absurd split.symm (List.append_ne_nil_of_right_ne_nil _ (List.cons_ne_nil _ _))

theorem inv_reachable (reachable : Reachable s) : Inv s := by
  refine Run.Reachable.invariant (P := Inv) (fun s initial => inv_initial initial) ?_ reachable
  intro s op inv ok
  exact (inv.run op ok.1).congr rfl rfl rfl

/-- Whatever is submitted and refused and however the URBs complete, every context is on
    one list at most, none is free while its URB is in flight, and none has been handed
    out or filled then. -/
theorem contexts_apart (reachable : Reachable s) :
    (∀ kind, ((s.pools kind).free ++ (s.pools kind).busy).Nodup) ∧
      (∀ kind context, InFlight s.log kind context → context ∉ (s.pools kind).free) ∧ Unharmed s.log := by
  have inv := inv_reachable reachable
  exact ⟨fun kind => (inv.tidy kind).nodup, fun kind => (inv.tidy kind).kept, inv.unharmed⟩

end

/-- A cache write that rings a doorbell, a refused one and the end of the doorbell. -/
def someRun : List Op :=
  let w : Work := ⟨0x800, [1, 2, 3, 4], true, 1, 2, 0⟩
  [.doorbellExpand 1 [], .queueCacheWrite w [] 0, .completeCache 1 true [] 0, .queueCacheWrite w [] (-19),
    .completeDoorbell 0 0]

def noWork : Nat → Work := fun _ => ⟨0, [], false, 0, 0, 0⟩

theorem contexts_apart_someRun :
    let s := someRun.foldl State.step (.initial noWork 0x1000)
    (∀ kind, ((s.pools kind).free ++ (s.pools kind).busy).Nodup) ∧
      (∀ kind context, InFlight s.log kind context → context ∉ (s.pools kind).free) ∧ Unharmed s.log := by
  have first : Reachable (.initial noWork 0x1000) := .first ⟨_, _, rfl⟩
  exact contexts_apart (first.all (show Run.Allows _ _ _ someRun by decide +kernel))

end Ehub.Contexts
