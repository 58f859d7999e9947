import Mathlib
import Ehub.Run
import Ehub.Slots

/-!
Who owns the URB contexts of a device. They are created when the device is connected and
whenever a message loop is started, and destroyed when a loop is stopped and when the
device is disconnected; the arrays and lists of the `DEVICE_CONTEXT` hold them meanwhile.

`URB_Create` can return a context that it has freed, a context whose URB is refused is
destroyed and still held, and a connection that fails late frees the `DEVICE_CONTEXT` and
leaves the contexts. In runs without these every context is owned (`contexts_owned`).
-/
namespace Ehub.UrbOwner
open Ehub.Slots

instance neZero_eight : NeZero 8 := ⟨by decide⟩

/-- Where a context is held: an entry of an array, a field, or the n-th context that was
    put on the lists for doorbells or for cache writes. -/
inductive Place
  | messageBulk (i : Fin 8)
  | messageInterrupt (i : Fin 8)
  | messageIsoch (i : Fin 6)
  | memoryReadCompletion (i : Fin 8)
  | registerRead
  | registerWrite
  | doorbell (n : ℕ)
  | cacheWork (n : ℕ)
  deriving DecidableEq

/-- The entries of the four arrays. -/
def Place.entry : Place → Bool
  | .messageBulk _ | .messageInterrupt _ | .messageIsoch _ | .memoryReadCompletion _ => true
  | _ => false

/-- What the interface and the allocators in `URB_Create` and `URB_CreateIsoch` answer. -/
inductive Alloc
  | unbound
  | noContext
  | noCoherent
  | noUrb
  | done
  deriving DecidableEq

/-- The device a context points to, and what it has been given. -/
structure Context where
  deviceContext : ℕ
  dataBuffer : Bool
  urb : Bool

/-- What a call of `URB_Create` has returned, as it was then. -/
structure Returned where
  context : Option ℕ
  live : Bool
  initialised : Bool

/-- The `DEVICE_CONTEXT`s are numbered, and so are the URB contexts; `freed` lists these in
    the order in which they are freed. -/
structure State where
  devices : ℕ
  device : Option ℕ
  next : ℕ
  contexts : ℕ → Context
  freed : List ℕ
  returned : List Returned
  slots : Place → Option ℕ
  doorbells : ℕ
  cacheWorks : ℕ
  isochInRunning : Bool

/-- What everything outside answers during a call: for each place the allocators and
    whether the URB can be submitted. -/
structure Answers where
  alloc : Place → Alloc
  submitted : Place → Bool

def bulkPlaces : List Place := (List.finRange 8).map .messageBulk

def interruptPlaces : List Place := (List.finRange 8).map .messageInterrupt

def isochPlaces : List Place := (List.finRange 6).map .messageIsoch

def memoryReadPlaces : List Place := (List.finRange 8).map .memoryReadCompletion

def registerPlaces : List Place := [.registerRead, .registerWrite]

namespace State

/-- Nothing is connected. -/
def initial : State := ⟨0, none, 0, fun _ => ⟨0, false, false⟩, [], [], fun _ => none, 0, 0, false⟩

/-- A context is allocated; without a buffer or without a URB it is freed again, and
    returned all the same. -/
def urbCreate (s : State) (alloc : Alloc) : State × Option ℕ :=
  let owner := s.device.getD 0
  match alloc with
  | .unbound | .noContext => ({ s with returned := s.returned ++ [⟨none, false, false⟩] }, none)
  | .noCoherent | .noUrb =>
    ({ s with
        next := s.next + 1
        contexts := Function.update s.contexts s.next ⟨owner, false, false⟩
        freed := s.freed ++ [s.next]
        returned := s.returned ++ [⟨some s.next, false, false⟩] }, some s.next)
  | .done =>
    ({ s with
        next := s.next + 1
        contexts := Function.update s.contexts s.next ⟨owner, true, true⟩
        returned := s.returned ++ [⟨some s.next, true, true⟩] }, some s.next)

def put (s : State) (place : Place) (context : Option ℕ) : State := { s with slots := Function.update s.slots place context }

def urbDestroy (s : State) (context : ℕ) : State := { s with freed := s.freed ++ [context] }

/-- Contexts that are created and held, whatever comes back. -/
def fill (alloc : Place → Alloc) : List Place → State → State
  | [], s => s
  | place :: rest, s =>
    let (made, context) := s.urbCreate (alloc place)
    fill alloc rest (made.put place context)

/-- Contexts that are created, held and submitted, up to the first that fails. A context
    whose URB is refused is destroyed. -/
def startLoop (answers : Answers) : List Place → State → State × ℤ
  | [], s => (s, 0)
  | place :: rest, s =>
    match s.urbCreate (answers.alloc place) with
    | (made, none) => (made, -12)
    | (made, some context) =>
      let held := made.put place (some context)
      if answers.submitted place then startLoop answers rest held else (held.urbDestroy context, -19)

/-- The same for contexts that are not submitted yet. -/
def expand (alloc : Place → Alloc) (places : List Place) (s : State) : State × ℤ := startLoop ⟨alloc, fun _ => true⟩ places s

def startLoopBulk (s : State) (answers : Answers) : State × ℤ := startLoop answers bulkPlaces s

def startLoopInterrupt (s : State) (answers : Answers) : State × ℤ := startLoop answers interruptPlaces s

def initLoopIsoch (s : State) (alloc : Place → Alloc) : State × ℤ := expand alloc isochPlaces s

/-- The URBs are submitted up to the first that is refused, whose context is destroyed. -/
def submitLoop (submitted : Place → Bool) : List Place → State → State × Bool
  | [], s => (s, true)
  | place :: rest, s =>
    if submitted place then submitLoop submitted rest s
    else (match s.slots place with | none => s | some context => s.urbDestroy context, false)

def startLoopIsoch (s : State) (submitted : Place → Bool) : State :=
  if s.isochInRunning then s
  else
    let (s, running) := submitLoop submitted isochPlaces s
    { s with isochInRunning := running }

/-- The contexts are taken from their places and destroyed. -/
def stopLoop (s : State) (places : List Place) : State :=
  let (slots, freed) := sweep (fun _ context => (none, context.toList)) places s.slots s.freed
  { s with slots, freed }

/-- The contexts are destroyed and stay where they are. -/
def freeLoop (s : State) (places : List Place) : State :=
  let (slots, freed) := sweep (fun _ context => (context, context.toList)) places s.slots s.freed
  { s with slots, freed }

def stopLoopBulk (s : State) : State := s.stopLoop bulkPlaces

def stopLoopInterrupt (s : State) : State := s.stopLoop interruptPlaces

def stopLoopIsoch (s : State) : State := { s with isochInRunning := false }

def freeLoopIsoch (s : State) : State := s.freeLoop isochPlaces

def doorbellExpand (s : State) (entries : ℕ) (alloc : Place → Alloc) : State :=
  (expand alloc ((List.range' s.doorbells entries).map .doorbell) { s with doorbells := s.doorbells + entries }).1

def cacheWorkExpand (s : State) (entries : ℕ) (alloc : Place → Alloc) : State :=
  (expand alloc ((List.range' s.cacheWorks entries).map .cacheWork) { s with cacheWorks := s.cacheWorks + entries }).1

def cacheWorkPlaces (s : State) : List Place := (List.range s.cacheWorks).map .cacheWork

def doorbellPlaces (s : State) : List Place := (List.range s.doorbells).map .doorbell

/-- `DEVICECONTEXT_Create`. -/
def deviceContextCreate (s : State) : State :=
  { s with devices := s.devices + 1, device := some s.devices, slots := fun _ => none, doorbells := 0, cacheWorks := 0, isochInRunning := false }

/-- `DEVICECONTEXT_Destroy`: the arrays and lists are gone. -/
def deviceContextDestroy (s : State) : State :=
  { s with device := none, slots := fun _ => none, doorbells := 0, cacheWorks := 0, isochInRunning := false }

end State

/-- How far `ehub_xhci_add` gets: it can fail before the contexts for cache writes are
    created, or after, and then it destroys them. -/
inductive XhciAdd
  | failsEarly
  | failsLate
  | added
  deriving DecidableEq

/-- What happens during `MODULE_UsbInterfaceConnect`. -/
structure Connection where
  deviceContext : Bool
  configured : Bool
  setInterfaceBulk : Bool
  setInterfaceInterrupt : Bool
  setInterfaceIsoch : Bool
  xhciAdd : XhciAdd
  answers : Answers

namespace State

def interfaceCreateBulk (s : State) (connection : Connection) : State × ℤ :=
  if connection.setInterfaceBulk then s.startLoopBulk connection.answers else (s, -19)

def interfaceCreateInterrupt (s : State) (connection : Connection) : State × ℤ :=
  if connection.setInterfaceInterrupt then s.startLoopInterrupt connection.answers else (s, -19)

def xhciAdd (s : State) (connection : Connection) : State × ℤ :=
  match connection.xhciAdd with
  | .failsEarly => (s, -12)
  | .failsLate =>
    let made := s.cacheWorkExpand 32 connection.answers.alloc
    (made.stopLoop made.cacheWorkPlaces, -12)
  | .added => (s.cacheWorkExpand 32 connection.answers.alloc, 0)

def interfaceCreateIsoch (s : State) (connection : Connection) : State × ℤ :=
  if connection.setInterfaceIsoch then
    let (made, status) := s.initLoopIsoch connection.answers.alloc
    if status < 0 then (made.freeLoopIsoch, status) else (made, status)
  else (s, -19)

/-- The contexts that are created before the loops. -/
def createContexts (s : State) (alloc : Place → Alloc) : State :=
  fill alloc memoryReadPlaces ((fill alloc registerPlaces s).doorbellExpand 32 alloc)

/-- From the first loop on a failure frees the `DEVICE_CONTEXT` and nothing else. -/
def connect (s : State) (connection : Connection) : State :=
  if !connection.deviceContext then s
  else if !connection.configured then s.deviceContextCreate.deviceContextDestroy
  else
    let created := s.deviceContextCreate.createContexts connection.answers.alloc
    let (bulk, status) := created.interfaceCreateBulk connection
    if status < 0 then bulk.deviceContextDestroy
    else
      let (interrupt, status) := bulk.interfaceCreateInterrupt connection
      if status < 0 then interrupt.deviceContextDestroy
      else
        let (hosted, status) := interrupt.xhciAdd connection
        if status < 0 then hosted.deviceContextDestroy
        else
          let (isoch, status) := hosted.interfaceCreateIsoch connection
          if status < 0 then isoch.deviceContextDestroy else isoch

def disconnect (s : State) : State :=
  let removed := s.stopLoop s.cacheWorkPlaces
  let stopped := removed.stopLoopIsoch.freeLoopIsoch.stopLoopBulk.stopLoopInterrupt
  let cleaned := ((stopped.stopLoop stopped.doorbellPlaces).stopLoop memoryReadPlaces).stopLoop registerPlaces
  cleaned.deviceContextDestroy

end State

inductive Op
  | connect (connection : Connection)
  | startLoopBulk (answers : Answers)
  | startLoopInterrupt (answers : Answers)
  | startLoopIsoch (submitted : Place → Bool)
  | stopLoopBulk
  | stopLoopInterrupt
  | stopLoopIsoch
  | doorbellExpand (entries : ℕ) (alloc : Place → Alloc)
  | cacheWorkExpand (entries : ℕ) (alloc : Place → Alloc)
  | disconnect

def step (s : State) : Op → State
  | .connect connection => s.connect connection
  | .startLoopBulk answers => (s.startLoopBulk answers).1
  | .startLoopInterrupt answers => (s.startLoopInterrupt answers).1
  | .startLoopIsoch submitted => s.startLoopIsoch submitted
  | .stopLoopBulk => s.stopLoopBulk
  | .stopLoopInterrupt => s.stopLoopInterrupt
  | .stopLoopIsoch => s.stopLoopIsoch
  | .doorbellExpand entries alloc => s.doorbellExpand entries alloc
  | .cacheWorkExpand entries alloc => s.cacheWorkExpand entries alloc
  | .disconnect => s.disconnect

/-- An interface is connected when it is not, and everything else happens while it is. -/
def Allowed (s : State) : Op → Prop
  | .connect _ => s.device = none
  | _ => s.device.isSome = true

instance (s : State) (op : Op) : Decidable (Allowed s op) := by
  cases op <;> unfold Allowed <;> infer_instance

/-- What is promised of the contexts. -/
structure Owned (s : State) : Prop where
  returned : ∀ result ∈ s.returned, result.context = none ∨ (result.live = true ∧ result.initialised = true)
  once : s.freed.Nodup
  entries : ∀ place context, place.entry = true → s.slots place = some context → context < s.next ∧ context ∉ s.freed
  live : ∀ context < s.next, context ∉ s.freed → s.device = some (s.contexts context).deviceContext

/-- Nothing comes back, or a context that is kept. -/
def Alloc.whole : Alloc → Bool
  | .noCoherent | .noUrb => false
  | _ => true

def Alloc.null : Alloc → Bool
  | .unbound | .noContext => true
  | _ => false

/-- The connection goes through. -/
structure Connection.Succeeds (connection : Connection) : Prop where
  whole : ∀ place, (connection.answers.alloc place).whole = true
  interfaces : connection.setInterfaceBulk = true ∧ connection.setInterfaceInterrupt = true ∧ connection.setInterfaceIsoch = true
  added : connection.xhciAdd = .added
  loops : ∀ place ∈ bulkPlaces ++ interruptPlaces ++ isochPlaces, connection.answers.alloc place = .done
  submitted : ∀ place ∈ bulkPlaces ++ interruptPlaces, connection.answers.submitted place = true

/-- No context is given back half made and no URB of a loop is refused; a loop is started
    when it holds no contexts; and a connection goes through, or fails before any context
    has been created. -/
def Careful (s : State) : Op → Prop
  | .connect connection =>
    connection.deviceContext = false ∨ connection.configured = false ∨
      (∀ place, (connection.answers.alloc place).null = true) ∨ connection.Succeeds
  | .startLoopBulk answers =>
    ∀ place ∈ bulkPlaces, s.slots place = none ∧ (answers.alloc place).whole = true ∧ answers.submitted place = true
  | .startLoopInterrupt answers =>
    ∀ place ∈ interruptPlaces, s.slots place = none ∧ (answers.alloc place).whole = true ∧ answers.submitted place = true
  | .startLoopIsoch submitted => s.isochInRunning = false → ∀ place ∈ isochPlaces, submitted place = true
  | .doorbellExpand _ alloc | .cacheWorkExpand _ alloc => ∀ place, (alloc place).whole = true
  | _ => True

abbrev Reachable (condition : State → Op → Prop) : State → Prop :=
  Run.Reachable (· = State.initial) (fun s op => Allowed s op ∧ condition s op) step

/-- A place on one of the lists has been used. -/
def State.Known (s : State) : Place → Prop
  | .doorbell n => n < s.doorbells
  | .cacheWork n => n < s.cacheWorks
  | _ => True

/-- Every live context is held, at one place, by the device it points to. -/
structure Tidy (s : State) : Prop where
  sound : Sound s.slots s.next s.freed
  held : ∀ {context}, context < s.next → context ∉ s.freed → ∃ place, s.slots place = some context
  owner : ∀ {context}, context < s.next → context ∉ s.freed → s.device = some (s.contexts context).deviceContext
  known : ∀ {place context}, s.slots place = some context → s.Known place
  returned : ∀ result ∈ s.returned, result.context = none ∨ (result.live = true ∧ result.initialised = true)

theorem Tidy.owned {s : State} (tidy : Tidy s) : Owned s where
  returned := tidy.returned
  once := tidy.sound.once
  entries _ _ _ holds := ⟨tidy.sound.old holds, tidy.sound.live holds⟩
  live _ old live := tidy.owner old live

section Creating
variable {s : State}

/-- What a loop that creates contexts leaves alone. -/
structure Frame (places : List Place) (s s' : State) : Prop where
  device : s'.device = s.device
  doorbells : s'.doorbells = s.doorbells
  cacheWorks : s'.cacheWorks = s.cacheWorks
  slots : ∀ {place}, place ∉ places → s'.slots place = s.slots place

theorem Frame.refl (places : List Place) (s : State) : Frame places s s := ⟨rfl, rfl, rfl, fun _ => rfl⟩

theorem known_iff {s s' : State} (doorbells : s'.doorbells = s.doorbells) (cacheWorks : s'.cacheWorks = s.cacheWorks) (place : Place) :
    s'.Known place ↔ s.Known place := by
  cases place with
  | doorbell n =>
    unfold State.Known
    rw [doorbells]
  | cacheWork n =>
    unfold State.Known
    rw [cacheWorks]
  | _ => exact Iff.rfl

/-- A call that returns NULL only writes that down. -/
theorem create_null (s : State) {alloc : Alloc} (null : alloc.null = true) :
    s.urbCreate alloc = ({ s with returned := s.returned ++ [⟨none, false, false⟩] }, none) := by
  cases alloc <;> first | rfl | cases null

theorem Tidy.note (tidy : Tidy s) : Tidy { s with returned := s.returned ++ [⟨none, false, false⟩] } where
  sound := tidy.sound
  held := tidy.held
  owner := tidy.owner
  known := tidy.known
  returned result listed := by
    rcases List.mem_append.mp listed with before | now
    · exact tidy.returned result before
    · rw [List.mem_singleton.mp now]
      exact .inl rfl

/-- A context is created and put where there was none. -/
theorem Tidy.create (tidy : Tidy s) (connected : s.device.isSome = true) {place : Place} (empty : s.slots place = none)
    (known : s.Known place) : Tidy ((s.urbCreate .done).1.put place (some s.next)) := by
  obtain ⟨device, there⟩ := Option.isSome_iff_exists.mp connected
  have slot : ∀ {p c}, Function.update s.slots place (some s.next) p = some c → s.slots p = some c ∨ p = place ∧ c = s.next := by
    intro p c now
    by_cases same : p = place
    · subst same
      rw [Function.update_self] at now
      exact .inr ⟨rfl, (Option.some.inj now).symm⟩
    · rw [Function.update_of_ne same] at now
      exact .inl now
  constructor
  · exact tidy.sound.allocate place slot
  · intro context old live
    by_cases new : context = s.next
    · exact ⟨place, new ▸ Function.update_self ..⟩
    · have before : context < s.next := lt_of_le_of_ne (Nat.lt_succ_iff.mp old) new
      obtain ⟨other, holds⟩ := tidy.held before live
      refine ⟨other, ?_⟩
      have different : other ≠ place := by
        rintro rfl
        rw [empty] at holds
        cases holds
      exact (Function.update_of_ne different ..).trans holds
  · intro context old live
    change s.device = some (Function.update s.contexts s.next _ context).deviceContext
    by_cases new : context = s.next
    · subst new
      rw [Function.update_self, there]
      rfl
    · have before : context < s.next := lt_of_le_of_ne (Nat.lt_succ_iff.mp old) new
      rw [Function.update_of_ne new]
      exact tidy.owner before live
  · intro p c now
    rcases slot now with was | ⟨rfl, -⟩
    · exact tidy.known was
    · exact known
  · intro result listed
    rcases List.mem_append.mp listed with before | now
    · exact tidy.returned result before
    · rw [List.mem_singleton.mp now]
      exact .inr ⟨rfl, rfl⟩

/-- What a loop needs: each of its places is empty, and what is created is kept. -/
structure Ready (answers : Answers) (s : State) (place : Place) : Prop where
  empty : s.slots place = none
  known : s.Known place
  whole : (answers.alloc place).whole = true
  submitted : answers.submitted place = true

theorem done_or_null {alloc : Alloc} (whole : alloc.whole = true) : alloc = .done ∨ alloc.null = true := by
  cases alloc <;> first | exact .inl rfl | exact .inr rfl | cases whole

theorem Tidy.startLoop (answers : Answers) : ∀ {places : List Place} {s : State}, Tidy s → s.device.isSome = true → places.Nodup →
    (∀ place ∈ places, Ready answers s place) →
    Tidy (State.startLoop answers places s).1 ∧ Frame places s (State.startLoop answers places s).1 ∧
      ((∀ place ∈ places, answers.alloc place = .done) → (State.startLoop answers places s).2 = 0) := by
  intro places
  induction places with
  | nil => exact fun tidy _ _ _ => ⟨tidy, .refl [] _, fun _ => rfl⟩
  | cons place rest ih =>
    intro s tidy connected distinct ready
    obtain ⟨fresh, distinct⟩ := List.nodup_cons.mp distinct
    have first := ready place List.mem_cons_self
    unfold State.startLoop
    rcases done_or_null first.whole with done | null
    · rw [done]
      have made := tidy.create connected first.empty first.known
      have other : ∀ {p}, p ≠ place → ((s.urbCreate .done).1.put place (some s.next)).slots p = s.slots p :=
        fun different => Function.update_of_ne different ..
      obtain ⟨tidy', frame, status⟩ := ih made connected distinct (by
        intro later listed
        have before := ready later (List.mem_cons_of_mem _ listed)
        refine ⟨?_, before.known, before.whole, before.submitted⟩
        rw [other (ne_of_mem_of_not_mem listed fresh)]
        exact before.empty)
      dsimp only [State.urbCreate] at tidy' frame status ⊢
      rw [if_pos first.submitted]
      refine ⟨tidy', ⟨frame.device, frame.doorbells, frame.cacheWorks, ?_⟩, ?_⟩
      · intro p outside
        obtain ⟨different, outside⟩ := not_or.mp (fun listed => outside (List.mem_cons.mpr listed))
        exact (frame.slots outside).trans (other different)
      · exact fun all => status (fun later listed => all later (List.mem_cons_of_mem _ listed))
    · rw [create_null s null]
      refine ⟨tidy.note, ⟨rfl, rfl, rfl, fun _ => rfl⟩, ?_⟩
      intro all
      rw [all place List.mem_cons_self] at null
      cases null

theorem Tidy.fill (alloc : Place → Alloc) : ∀ {places : List Place} {s : State}, Tidy s → s.device.isSome = true → places.Nodup →
    (∀ place ∈ places, Ready ⟨alloc, fun _ => true⟩ s place) →
    Tidy (State.fill alloc places s) ∧ Frame places s (State.fill alloc places s) := by
  intro places
  induction places with
  | nil => exact fun tidy _ _ _ => ⟨tidy, .refl [] _⟩
  | cons place rest ih =>
    intro s tidy connected distinct ready
    obtain ⟨fresh, distinct⟩ := List.nodup_cons.mp distinct
    have first := ready place List.mem_cons_self
    have step : Tidy ((s.urbCreate (alloc place)).1.put place (s.urbCreate (alloc place)).2) ∧
        Frame [place] s ((s.urbCreate (alloc place)).1.put place (s.urbCreate (alloc place)).2) := by
      have other : ∀ {made : State} {context p}, made.slots = s.slots → p ∉ [place] → (made.put place context).slots p = s.slots p := by
        intro made context p same outside
        exact (Function.update_of_ne (List.ne_of_not_mem_cons outside) ..).trans (congrFun same p)
      rcases done_or_null first.whole with done | null
      · replace done : alloc place = .done := done
        rw [done]
        exact ⟨tidy.create connected first.empty first.known, rfl, rfl, rfl, other rfl⟩
      · replace null : (alloc place).null = true := null
        rw [create_null s null]
        refine ⟨?_, rfl, rfl, rfl, other rfl⟩
        have nothing : Function.update s.slots place none = s.slots := Function.update_eq_self_iff.mpr first.empty.symm
        unfold State.put
        dsimp only
        rw [nothing]
        exact tidy.note
    obtain ⟨tidy', frame⟩ := step
    obtain ⟨result, frame'⟩ := ih tidy' (by rw [frame.device]; exact connected) distinct (by
      intro later listed
      have before := ready later (List.mem_cons_of_mem _ listed)
      refine ⟨?_, (known_iff frame.doorbells frame.cacheWorks later).mpr before.known, before.whole, rfl⟩
      rw [frame.slots (by simpa using ne_of_mem_of_not_mem listed fresh)]
      exact before.empty)
    refine ⟨result, frame'.device.trans frame.device, frame'.doorbells.trans frame.doorbells,
      frame'.cacheWorks.trans frame.cacheWorks, ?_⟩
    intro p outside
    obtain ⟨different, outside⟩ := not_or.mp (fun listed => outside (List.mem_cons.mpr listed))
    exact (frame'.slots outside).trans (frame.slots (by simpa using different))

end Creating

section Destroying
variable {s : State}

/-- The contexts at some places have been destroyed; what these places hold now does not
    matter. -/
structure Freeing (done : List Place) (s s' : State) : Prop where
  freed : s'.freed = s.freed ++ done.flatMap fun place => (s.slots place).toList
  slots : ∀ {place}, place ∉ done → s'.slots place = s.slots place
  next : s'.next = s.next
  contexts : s'.contexts = s.contexts
  device : s'.device = s.device
  returned : s'.returned = s.returned
  doorbells : s'.doorbells = s.doorbells
  cacheWorks : s'.cacheWorks = s.cacheWorks

theorem Freeing.refl (s : State) : Freeing [] s s := ⟨(List.append_nil _).symm, fun _ => rfl, rfl, rfl, rfl, rfl, rfl, rfl⟩

/-- One more loop that destroys contexts, whatever it leaves at their places. -/
theorem Freeing.sweep {done : List Place} {s' : State} (freeing : Freeing done s s') (left : Option ℕ → Option ℕ) {places : List Place}
    (distinct : places.Nodup) (new : ∀ place ∈ places, place ∉ done) :
    Freeing (done ++ places) s
      { s' with
        slots := (sweep (fun _ context => (left context, context.toList)) places s'.slots s'.freed).1
        freed := (sweep (fun _ context => (left context, context.toList)) places s'.slots s'.freed).2 } := by
  refine ⟨?_, ?_, freeing.next, freeing.contexts, freeing.device, freeing.returned, freeing.doorbells, freeing.cacheWorks⟩
  · dsimp only
    rw [sweep_log _ _ distinct, freeing.freed, List.flatMap_append, List.append_assoc]
    refine congrArg _ (congrArg _ (List.flatMap_congr ?_))
    intro place listed
    rw [freeing.slots (new place listed)]
  · intro place outside
    obtain ⟨before, now⟩ := not_or.mp (fun listed => outside (List.mem_append.mpr listed))
    dsimp only
    rw [sweep_slot _ _ distinct, if_neg now]
    exact freeing.slots before

theorem Freeing.stopLoop {done : List Place} {s' : State} (freeing : Freeing done s s') {places : List Place}
    (distinct : places.Nodup) (new : ∀ place ∈ places, place ∉ done) : Freeing (done ++ places) s (s'.stopLoop places) :=
  freeing.sweep (fun _ => none) distinct new

theorem Freeing.freeLoop {done : List Place} {s' : State} (freeing : Freeing done s s') {places : List Place}
    (distinct : places.Nodup) (new : ∀ place ∈ places, place ∉ done) : Freeing (done ++ places) s (s'.freeLoop places) :=
  freeing.sweep id distinct new

/-- The contexts of the places are the ones that are freed. -/
theorem Tidy.gone (tidy : Tidy s) {done : List Place} (distinct : done.Nodup) :
    (done.flatMap fun place => (s.slots place).toList).Nodup ∧
      ∀ context, context ∈ (done.flatMap fun place => (s.slots place).toList) ↔ ∃ place ∈ done, s.slots place = some context := by
  refine ⟨tidy.sound.gone_nodup distinct id Function.injective_id ?_, ?_⟩
  · intro place context listed
    rw [Option.mem_toList] at listed
    exact ⟨by rw [listed]; rfl, listed⟩
  · intro context
    simp only [List.mem_flatMap, Option.mem_toList]

/-- The contexts are taken from their places: what is left is held as before. -/
theorem Tidy.stopLoop (tidy : Tidy s) {places : List Place} (distinct : places.Nodup) : Tidy (s.stopLoop places) := by
  have freeing := (Freeing.refl s).stopLoop distinct (fun _ _ => List.not_mem_nil)
  obtain ⟨nodup, mem⟩ := tidy.gone distinct
  have slots : ∀ place, (s.stopLoop places).slots place = if place ∈ places then none else s.slots place :=
    fun place => sweep_slot _ _ distinct place
  generalize s.stopLoop places = after at freeing slots ⊢
  have was : ∀ {place context}, after.slots place = some context → place ∉ places ∧ s.slots place = some context := by
    intro place context now
    rw [slots] at now
    by_cases listed : place ∈ places
    · rw [if_pos listed] at now
      cases now
    · rw [if_neg listed] at now
      exact ⟨listed, now⟩
  have same : after.freed = s.freed ++ places.flatMap fun place => (s.slots place).toList := freeing.freed
  constructor
  · rw [same, freeing.next]
    refine tidy.sound.relocate _ id (fun {place context} now => ?_) (fun _ _ equal => equal) nodup (fun {context} listed => ?_)
    · refine ⟨(was now).2, fun gone => ?_⟩
      obtain ⟨other, listed, holds⟩ := (mem context).mp gone
      exact (was now).1 (tidy.sound.one (was now).2 holds ▸ listed)
    · obtain ⟨place, -, holds⟩ := (mem context).mp listed
      exact ⟨place, holds⟩
  · intro context old live
    rw [freeing.next] at old
    rw [same, List.mem_append, not_or] at live
    obtain ⟨place, holds⟩ := tidy.held old live.1
    have outside : place ∉ places := fun listed => live.2 ((mem context).mpr ⟨place, listed, holds⟩)
    refine ⟨place, ?_⟩
    rw [slots, if_neg outside]
    exact holds
  · intro context old live
    rw [freeing.next] at old
    rw [same, List.mem_append, not_or] at live
    rw [freeing.device, freeing.contexts]
    exact tidy.owner old live.1
  · intro place context now
    exact (known_iff freeing.doorbells freeing.cacheWorks place).mpr (tidy.known (was now).2)
  · rw [freeing.returned]
    exact tidy.returned

/-- The device context is freed after all its contexts. -/
theorem Tidy.release (tidy : Tidy s) {done : List Place} {s' : State} (freeing : Freeing done s s') (distinct : done.Nodup)
    (all : ∀ {place}, s.Known place → place ∈ done) : Tidy s'.deviceContextDestroy := by
  obtain ⟨nodup, mem⟩ := tidy.gone distinct
  have none_live : ∀ {context}, context < s'.next → context ∈ s'.freed := by
    intro context old
    rw [freeing.freed, List.mem_append]
    by_contra live
    obtain ⟨unfreed, outside⟩ := not_or.mp live
    rw [freeing.next] at old
    obtain ⟨place, holds⟩ := tidy.held old unfreed
    exact outside ((mem context).mpr ⟨place, all (tidy.known holds), holds⟩)
  constructor
  · change Sound (fun _ => none) s'.next s'.freed
    rw [freeing.freed, freeing.next]
    refine tidy.sound.relocate _ id (fun now => ?_) (fun now => ?_) nodup (fun {context} listed => ?_)
    · cases now
    · cases now
    · obtain ⟨place, -, holds⟩ := (mem context).mp listed
      exact ⟨place, holds⟩
  · exact fun old live => absurd (none_live old) live
  · exact fun old live => absurd (none_live old) live
  · intro place context now
    cases now
  · change ∀ result ∈ s'.returned, _
    rw [freeing.returned]
    exact tidy.returned

/-- The places in the order in which `disconnect` destroys their contexts. -/
def Place.kind : Place → ℕ
  | .cacheWork _ => 0
  | .messageIsoch _ => 1
  | .messageBulk _ => 2
  | .messageInterrupt _ => 3
  | .doorbell _ => 4
  | .memoryReadCompletion _ => 5
  | .registerRead | .registerWrite => 6

/-- The places of one kind, each once. -/
structure Kind (k : ℕ) (s : State) (places : List Place) : Prop where
  distinct : places.Nodup
  all : ∀ {place}, place ∈ places ↔ place.kind = k ∧ s.Known place

theorem kind_finRange {n k : ℕ} (s : State) {entry : Fin n → Place} (injective : Function.Injective entry)
    (known : ∀ i, s.Known (entry i)) (kind : ∀ place : Place, place.kind = k ↔ ∃ i, entry i = place) :
    Kind k s ((List.finRange n).map entry) where
  distinct := (List.nodup_finRange n).map injective
  all {place} := by
    rw [List.mem_map, kind place]
    constructor
    · rintro ⟨i, -, rfl⟩
      exact ⟨⟨i, rfl⟩, known i⟩
    · rintro ⟨⟨i, rfl⟩, -⟩
      exact ⟨i, List.mem_finRange i, rfl⟩

theorem kind_isoch (s : State) : Kind 1 s isochPlaces := by
  refine kind_finRange s (fun _ _ same => Place.messageIsoch.inj same) (fun _ => trivial) (fun place => ?_)
  cases place <;> simp [Place.kind]

theorem kind_bulk (s : State) : Kind 2 s bulkPlaces := by
  refine kind_finRange s (fun _ _ same => Place.messageBulk.inj same) (fun _ => trivial) (fun place => ?_)
  cases place <;> simp [Place.kind]

theorem kind_interrupt (s : State) : Kind 3 s interruptPlaces := by
  refine kind_finRange s (fun _ _ same => Place.messageInterrupt.inj same) (fun _ => trivial) (fun place => ?_)
  cases place <;> simp [Place.kind]

theorem kind_memoryRead (s : State) : Kind 5 s memoryReadPlaces := by
  refine kind_finRange s (fun _ _ same => Place.memoryReadCompletion.inj same) (fun _ => trivial) (fun place => ?_)
  cases place <;> simp [Place.kind]

theorem kind_register (s : State) : Kind 6 s registerPlaces where
  distinct := by decide
  all {place} := by cases place <;> simp [Place.kind, registerPlaces, State.Known]

theorem kind_cacheWork (s : State) : Kind 0 s s.cacheWorkPlaces where
  distinct := List.nodup_range.map fun _ _ same => Place.cacheWork.inj same
  all {place} := by cases place <;> simp [Place.kind, State.cacheWorkPlaces, State.Known]

theorem kind_doorbell (s : State) : Kind 4 s s.doorbellPlaces where
  distinct := List.nodup_range.map fun _ _ same => Place.doorbell.inj same
  all {place} := by cases place <;> simp [Place.kind, State.doorbellPlaces, State.Known]

/-- All places of the first kinds. -/
structure Upto (k : ℕ) (s : State) (done : List Place) : Prop where
  distinct : done.Nodup
  all : ∀ {place}, place ∈ done ↔ place.kind < k ∧ s.Known place

theorem Upto.fresh {k : ℕ} {done places : List Place} (upto : Upto k s done) (kind : Kind k s places) :
    ∀ place ∈ places, place ∉ done := by
  intro place listed before
  have here := (kind.all.mp listed).1
  have there := (upto.all.mp before).1
  omega

theorem Upto.add {k : ℕ} {done places : List Place} (upto : Upto k s done) (kind : Kind k s places) :
    Upto (k + 1) s (done ++ places) where
  distinct := by
    rw [List.nodup_append']
    exact ⟨upto.distinct, kind.distinct, fun place before listed => upto.fresh kind place listed before⟩
  all {place} := by
    rw [List.mem_append, upto.all, kind.all]
    constructor
    · rintro (⟨below, known⟩ | ⟨here, known⟩)
      · exact ⟨by omega, known⟩
      · exact ⟨by omega, known⟩
    · rintro ⟨below, known⟩
      rcases Nat.lt_succ_iff_lt_or_eq.mp below with earlier | here
      · exact .inl ⟨earlier, known⟩
      · exact .inr ⟨here, known⟩

theorem kind_lt (place : Place) : place.kind < 7 := by
  cases place <;> simp [Place.kind]

/-- The device is disconnected and every context it had is destroyed. -/
theorem Tidy.disconnect (tidy : Tidy s) : Tidy s.disconnect := by
  have first : Upto 0 s [] := ⟨List.nodup_nil, by simp⟩
  have cache := first.add (kind_cacheWork s)
  have isoch := cache.add (kind_isoch s)
  have bulk := isoch.add (kind_bulk s)
  have interrupt := bulk.add (kind_interrupt s)
  have doorbell := interrupt.add (kind_doorbell s)
  have memory := doorbell.add (kind_memoryRead s)
  have register := memory.add (kind_register s)
  have removed := (Freeing.refl s).stopLoop (kind_cacheWork s).distinct (first.fresh (kind_cacheWork s))
  have idle : Freeing ([] ++ s.cacheWorkPlaces) s (s.stopLoop s.cacheWorkPlaces).stopLoopIsoch :=
    ⟨removed.freed, removed.slots, removed.next, removed.contexts, removed.device, removed.returned, removed.doorbells,
      removed.cacheWorks⟩
  have stopped : Freeing ([] ++ s.cacheWorkPlaces ++ isochPlaces ++ bulkPlaces ++ interruptPlaces) s
      (s.stopLoop s.cacheWorkPlaces).stopLoopIsoch.freeLoopIsoch.stopLoopBulk.stopLoopInterrupt :=
    ((idle.freeLoop (kind_isoch s).distinct (cache.fresh (kind_isoch s))).stopLoop
      (kind_bulk s).distinct (isoch.fresh (kind_bulk s))).stopLoop (kind_interrupt s).distinct (bulk.fresh (kind_interrupt s))
  unfold State.disconnect
  dsimp only
  generalize (s.stopLoop s.cacheWorkPlaces).stopLoopIsoch.freeLoopIsoch.stopLoopBulk.stopLoopInterrupt = silent at stopped ⊢
  have same : silent.doorbellPlaces = s.doorbellPlaces := by
    unfold State.doorbellPlaces
    rw [stopped.doorbells]
  rw [same]
  have cleaned := ((stopped.stopLoop (kind_doorbell s).distinct (interrupt.fresh (kind_doorbell s))).stopLoop
    (kind_memoryRead s).distinct (doorbell.fresh (kind_memoryRead s))).stopLoop
    (kind_register s).distinct (memory.fresh (kind_register s))
  exact tidy.release cleaned register.distinct (fun {place} known => register.all.mpr ⟨kind_lt place, known⟩)

end Destroying

section Connecting
variable {s : State}

/-- With no context left, an empty device context, or none, is tidy. -/
theorem Tidy.vacant (once : s.freed.Nodup) (spent : ∀ {context}, context ∈ s.freed → context < s.next)
    (none_live : ∀ {context}, context < s.next → context ∈ s.freed) (empty : ∀ place, s.slots place = none)
    (returned : ∀ result ∈ s.returned, result.context = none ∨ (result.live = true ∧ result.initialised = true)) : Tidy s where
  sound := by
    constructor
    · intro place context holds
      rw [empty] at holds
      cases holds
    · intro place context holds
      rw [empty] at holds
      cases holds
    · intro place other context holds
      rw [empty] at holds
      cases holds
    · exact once
    · exact spent
  held old live := absurd (none_live old) live
  owner old live := absurd (none_live old) live
  known holds := by
    rw [empty] at holds
    cases holds
  returned := returned

/-- Nothing is live when nothing is connected. -/
theorem Tidy.none_live (tidy : Tidy s) (disconnected : s.device = none) {context : ℕ} (old : context < s.next) : context ∈ s.freed := by
  by_contra live
  have owner := tidy.owner old live
  rw [disconnected] at owner
  cases owner

theorem Tidy.attach (tidy : Tidy s) (disconnected : s.device = none) : Tidy s.deviceContextCreate :=
  Tidy.vacant (s := s.deviceContextCreate) tidy.sound.once tidy.sound.spent (tidy.none_live disconnected) (fun _ => rfl) tidy.returned

/-- No context has been created. -/
structure Unmade (s s' : State) : Prop where
  next : s'.next = s.next
  freed : s'.freed = s.freed
  returned : ∀ result ∈ s'.returned, result ∈ s.returned ∨ result.context = none

theorem Unmade.refl (s : State) : Unmade s s := ⟨rfl, rfl, fun _ listed => .inl listed⟩

theorem Unmade.trans {s' s'' : State} (first : Unmade s s') (second : Unmade s' s'') : Unmade s s'' where
  next := second.next.trans first.next
  freed := second.freed.trans first.freed
  returned result listed := by
    rcases second.returned result listed with before | null
    · exact first.returned result before
    · exact .inr null

theorem unmade_create {alloc : Alloc} (null : alloc.null = true) : Unmade s (s.urbCreate alloc).1 := by
  rw [create_null s null]
  refine ⟨rfl, rfl, fun result listed => ?_⟩
  rcases List.mem_append.mp listed with before | now
  · exact .inl before
  · rw [List.mem_singleton.mp now]
    exact .inr rfl

theorem unmade_fill {alloc : Place → Alloc} (null : ∀ place, (alloc place).null = true) : ∀ (places : List Place) (s : State),
    Unmade s (State.fill alloc places s) := by
  intro places
  induction places with
  | nil => exact fun s => .refl s
  | cons place rest ih =>
    intro s
    have first : Unmade s ((s.urbCreate (alloc place)).1.put place (s.urbCreate (alloc place)).2) := by
      obtain ⟨next, freed, returned⟩ := unmade_create (s := s) (null place)
      exact ⟨next, freed, returned⟩
    exact first.trans (ih _)

theorem unmade_startLoop (answers : Answers) (null : ∀ place, (answers.alloc place).null = true) (places : List Place) (s : State) :
    Unmade s (State.startLoop answers places s).1 ∧ (places ≠ [] → (State.startLoop answers places s).2 < 0) := by
  cases places with
  | nil => exact ⟨.refl s, fun some => absurd rfl some⟩
  | cons place rest =>
    have noted := unmade_create (s := s) (null place)
    unfold State.startLoop
    rw [create_null s (null place)] at noted ⊢
    exact ⟨noted, fun _ => show (-12 : ℤ) < 0 by decide⟩

/-- The device context is freed before any context has been created. -/
theorem Tidy.detach (tidy : Tidy s) (disconnected : s.device = none) {s' : State} (unmade : Unmade s s') : Tidy s'.deviceContextDestroy := by
  refine Tidy.vacant (s := s'.deviceContextDestroy) ?_ ?_ ?_ (fun _ => rfl) ?_
  · change s'.freed.Nodup
    rw [unmade.freed]
    exact tidy.sound.once
  · intro context listed
    change context ∈ s'.freed at listed
    change context < s'.next
    rw [unmade.freed] at listed
    rw [unmade.next]
    exact tidy.sound.spent listed
  · intro context old
    change context < s'.next at old
    change context ∈ s'.freed
    rw [unmade.next] at old
    rw [unmade.freed]
    exact tidy.none_live disconnected old
  · intro result listed
    rcases unmade.returned result listed with before | nothing
    · exact tidy.returned result before
    · exact .inl nothing

theorem unmade_attach (s : State) : Unmade s s.deviceContextCreate := ⟨rfl, rfl, fun _ listed => .inl listed⟩

/-- A connection for which no context can be created. -/
theorem Tidy.connect_null (tidy : Tidy s) (disconnected : s.device = none) {connection : Connection}
    (device : connection.deviceContext = true) (configured : connection.configured = true)
    (null : ∀ place, (connection.answers.alloc place).null = true) : Tidy (s.connect connection) := by
  unfold State.connect
  simp only [device, configured, Bool.not_true, Bool.false_eq_true, if_false]
  have created : Unmade s (s.deviceContextCreate.createContexts connection.answers.alloc) := by
    refine (unmade_attach s).trans (Unmade.trans ?_ (unmade_fill null memoryReadPlaces _))
    refine (unmade_fill null registerPlaces _).trans ?_
    obtain ⟨next, freed, returned⟩ := (unmade_startLoop ⟨connection.answers.alloc, fun _ => true⟩ null
      ((List.range' (State.fill connection.answers.alloc registerPlaces s.deviceContextCreate).doorbells 32).map .doorbell)
      { State.fill connection.answers.alloc registerPlaces s.deviceContextCreate with
        doorbells := (State.fill connection.answers.alloc registerPlaces s.deviceContextCreate).doorbells + 32 }).1
    exact ⟨next, freed, returned⟩
  generalize s.deviceContextCreate.createContexts connection.answers.alloc = before at created ⊢
  have bulk : Unmade before (before.interfaceCreateBulk connection).1 ∧ (before.interfaceCreateBulk connection).2 < 0 := by
    unfold State.interfaceCreateBulk
    by_cases set : connection.setInterfaceBulk = true
    · rw [if_pos set]
      obtain ⟨unmade, negative⟩ := unmade_startLoop connection.answers null bulkPlaces before
      exact ⟨unmade, negative (by decide)⟩
    · rw [if_neg set]
      exact ⟨.refl before, show (-19 : ℤ) < 0 by decide⟩
  rw [if_pos bulk.2]
  exact tidy.detach disconnected (created.trans bulk.1)

/-- Only places of one kind have changed. -/
structure Only (k : ℕ) (s s' : State) : Prop where
  device : s'.device = s.device
  slots : ∀ {place}, place.kind ≠ k → s'.slots place = s.slots place

/-- No place of these kinds holds a context. -/
def Free (kinds : List ℕ) (s : State) : Prop := ∀ place, place.kind ∈ kinds → s.slots place = none

theorem Only.free {k : ℕ} {s' : State} (only : Only k s s') (kinds : List ℕ) (free : Free kinds s) (other : k ∉ kinds) : Free kinds s' := by
  intro place listed
  rw [only.slots (fun same => other (same ▸ listed))]
  exact free place listed

theorem Tidy.startLoop_kind (tidy : Tidy s) (connected : s.device.isSome = true) {k : ℕ} {places : List Place} (kind : Kind k s places)
    (answers : Answers) (ready : ∀ place ∈ places, s.slots place = none ∧ (answers.alloc place).whole = true ∧
      answers.submitted place = true) :
    Tidy (State.startLoop answers places s).1 ∧ Only k s (State.startLoop answers places s).1 ∧
      ((∀ place ∈ places, answers.alloc place = .done) → (State.startLoop answers places s).2 = 0) := by
  obtain ⟨tidy', frame, status⟩ := Tidy.startLoop answers tidy connected kind.distinct (by
    intro place listed
    obtain ⟨empty, whole, submitted⟩ := ready place listed
    exact ⟨empty, (kind.all.mp listed).2, whole, submitted⟩)
  exact ⟨tidy', ⟨frame.device, fun other => frame.slots (fun listed => other (kind.all.mp listed).1)⟩, status⟩

theorem Tidy.fill_kind (tidy : Tidy s) (connected : s.device.isSome = true) {k : ℕ} {places : List Place} (kind : Kind k s places)
    (free : Free [k] s) {alloc : Place → Alloc} (whole : ∀ place, (alloc place).whole = true) :
    Tidy (State.fill alloc places s) ∧ Only k s (State.fill alloc places s) := by
  obtain ⟨tidy', frame⟩ := Tidy.fill alloc tidy connected kind.distinct (by
    intro place listed
    obtain ⟨here, known⟩ := kind.all.mp listed
    exact ⟨free place (List.mem_singleton.mpr here), known, whole place, rfl⟩)
  exact ⟨tidy', frame.device, fun other => frame.slots (fun listed => other (kind.all.mp listed).1)⟩

/-- The lists grow at places that have not been used. -/
theorem Tidy.expand (tidy : Tidy s) (connected : s.device.isSome = true) {k first entries : ℕ} (entry : ℕ → Place)
    (injective : Function.Injective entry) (kind : ∀ n, (entry n).kind = k) (grown : State) (same : grown.slots = s.slots)
    (rest : grown.next = s.next ∧ grown.freed = s.freed ∧ grown.device = s.device ∧ grown.contexts = s.contexts ∧
      grown.returned = s.returned)
    (known : ∀ {place}, s.Known place → grown.Known place) (new : ∀ n, first ≤ n → n < first + entries → grown.Known (entry n))
    (unused : ∀ n, first ≤ n → ¬s.Known (entry n)) {alloc : Place → Alloc} (whole : ∀ place, (alloc place).whole = true) :
    Tidy (State.expand alloc ((List.range' first entries).map entry) grown).1 ∧
      Only k s (State.expand alloc ((List.range' first entries).map entry) grown).1 := by
  obtain ⟨next, freed, device, contexts, returned⟩ := rest
  have tidy' : Tidy grown := by
    constructor
    · rw [same, next, freed]
      exact tidy.sound
    · rw [same, next, freed]
      exact tidy.held
    · rw [next, freed, device, contexts]
      exact tidy.owner
    · rw [same]
      exact fun holds => known (tidy.known holds)
    · rw [returned]
      exact tidy.returned
  obtain ⟨result, frame, -⟩ := Tidy.startLoop ⟨alloc, fun _ => true⟩ tidy' (by rw [device]; exact connected)
    ((List.nodup_range' ..).map injective) (by
      intro place listed
      obtain ⟨n, inRange, rfl⟩ := List.mem_map.mp listed
      obtain ⟨low, high⟩ := List.mem_range'_1.mp inRange
      refine ⟨?_, new n low high, whole _, rfl⟩
      rw [same]
      by_contra holds
      obtain ⟨context, holds⟩ := Option.ne_none_iff_exists'.mp holds
      exact unused n low (tidy.known holds))
  refine ⟨result, frame.device.trans device, ?_⟩
  intro place other
  refine (frame.slots ?_).trans (congrFun same place)
  intro listed
  obtain ⟨n, -, rfl⟩ := List.mem_map.mp listed
  exact other (kind n)

theorem Tidy.doorbellExpand (tidy : Tidy s) (connected : s.device.isSome = true) (entries : ℕ) {alloc : Place → Alloc}
    (whole : ∀ place, (alloc place).whole = true) : Tidy (s.doorbellExpand entries alloc) ∧ Only 4 s (s.doorbellExpand entries alloc) := by
  refine tidy.expand connected .doorbell (fun _ _ same => Place.doorbell.inj same) (fun _ => rfl)
    { s with doorbells := s.doorbells + entries } rfl ⟨rfl, rfl, rfl, rfl, rfl⟩ (fun {place} known => ?_) (fun n _ below => below) (fun n above => Nat.not_lt.mpr above) whole
  cases place with
  | doorbell n => exact lt_of_lt_of_le known (Nat.le_add_right ..)
  | cacheWork n => exact known
  | _ => trivial

theorem Tidy.cacheWorkExpand (tidy : Tidy s) (connected : s.device.isSome = true) (entries : ℕ) {alloc : Place → Alloc}
    (whole : ∀ place, (alloc place).whole = true) :
    Tidy (s.cacheWorkExpand entries alloc) ∧ Only 0 s (s.cacheWorkExpand entries alloc) := by
  refine tidy.expand connected .cacheWork (fun _ _ same => Place.cacheWork.inj same) (fun _ => rfl)
    { s with cacheWorks := s.cacheWorks + entries } rfl ⟨rfl, rfl, rfl, rfl, rfl⟩ (fun {place} known => ?_) (fun n _ below => below) (fun n above => Nat.not_lt.mpr above) whole
  cases place with
  | doorbell n => exact known
  | cacheWork n => exact lt_of_lt_of_le known (Nat.le_add_right ..)
  | _ => trivial

/-- A connection that goes through. -/
theorem Tidy.connect_succeeds (tidy : Tidy s) (disconnected : s.device = none) {connection : Connection}
    (device : connection.deviceContext = true) (configured : connection.configured = true) (succeeds : connection.Succeeds) :
    Tidy (s.connect connection) := by
  obtain ⟨whole, ⟨setBulk, setInterrupt, setIsoch⟩, added, loops, submitted⟩ := succeeds
  have attached : Tidy s.deviceContextCreate := tidy.attach disconnected
  have free : Free [0, 1, 2, 3, 4, 5, 6] s.deviceContextCreate := fun _ _ => rfl
  have some : s.deviceContextCreate.device.isSome = true := rfl
  unfold State.connect
  simp only [device, configured, Bool.not_true, Bool.false_eq_true, if_false]
  generalize s.deviceContextCreate = s₀ at attached free some ⊢
  -- The contexts for registers, doorbells and replies.
  obtain ⟨tidy₁, only₁⟩ := attached.fill_kind some (kind_register s₀) (fun p here => free p (by simp at here ⊢; omega)) whole
  have free₁ := only₁.free [0, 1, 2, 3, 4, 5] (fun p here => free p (by simp at here ⊢; omega)) (by decide)
  have some₁ := only₁.device ▸ some
  obtain ⟨tidy₂, only₂⟩ := tidy₁.doorbellExpand some₁ 32 whole
  have free₂ := only₂.free [0, 1, 2, 3, 5] (fun p here => free₁ p (by simp at here ⊢; omega)) (by decide)
  have some₂ := only₂.device ▸ some₁
  obtain ⟨tidy₃, only₃⟩ := tidy₂.fill_kind some₂ (kind_memoryRead _) (fun p here => free₂ p (by simp at here ⊢; omega)) whole
  have free₃ := only₃.free [0, 1, 2, 3] (fun p here => free₂ p (by simp at here ⊢; omega)) (by decide)
  have some₃ := only₃.device ▸ some₂
  unfold State.createContexts
  generalize State.fill connection.answers.alloc memoryReadPlaces _ = s₃ at tidy₃ free₃ some₃ ⊢
  -- The loops, and the contexts for cache writes between them.
  obtain ⟨tidy₄, only₄, status₄⟩ := tidy₃.startLoop_kind some₃ (kind_bulk s₃) connection.answers (by
    intro place listed
    exact ⟨free₃ place (by simp [((kind_bulk s₃).all.mp listed).1]), whole place, submitted place (by simp [listed])⟩)
  have free₄ := only₄.free [0, 1, 3] (fun p here => free₃ p (by simp at here ⊢; omega)) (by decide)
  have some₄ := only₄.device ▸ some₃
  have bulk : s₃.interfaceCreateBulk connection = State.startLoop connection.answers bulkPlaces s₃ := if_pos setBulk
  rw [bulk, status₄ (fun place listed => loops place (by simp [listed])), if_neg (by decide)]
  generalize (State.startLoop connection.answers bulkPlaces s₃).1 = s₄ at tidy₄ free₄ some₄ ⊢
  obtain ⟨tidy₅, only₅, status₅⟩ := tidy₄.startLoop_kind some₄ (kind_interrupt s₄) connection.answers (by
    intro place listed
    exact ⟨free₄ place (by simp [((kind_interrupt s₄).all.mp listed).1]), whole place, submitted place (by simp [listed])⟩)
  have free₅ := only₅.free [0, 1] (fun p here => free₄ p (by simp at here ⊢; omega)) (by decide)
  have some₅ := only₅.device ▸ some₄
  have interrupt : s₄.interfaceCreateInterrupt connection = State.startLoop connection.answers interruptPlaces s₄ :=
    if_pos setInterrupt
  rw [interrupt, status₅ (fun place listed => loops place (by simp [listed])), if_neg (by decide)]
  generalize (State.startLoop connection.answers interruptPlaces s₄).1 = s₅ at tidy₅ free₅ some₅ ⊢
  obtain ⟨tidy₆, only₆⟩ := tidy₅.cacheWorkExpand some₅ 32 whole
  have free₆ := only₆.free [1] (fun p here => free₅ p (by simp at here ⊢; omega)) (by decide)
  have some₆ := only₆.device ▸ some₅
  have hosted : s₅.xhciAdd connection = (s₅.cacheWorkExpand 32 connection.answers.alloc, 0) := by
    unfold State.xhciAdd
    rw [added]
  rw [hosted, if_neg (show ¬((0 : ℤ) < 0) by decide)]
  generalize s₅.cacheWorkExpand 32 connection.answers.alloc = s₆ at tidy₆ free₆ some₆ ⊢
  obtain ⟨tidy₇, -, status₇⟩ := tidy₆.startLoop_kind some₆ (kind_isoch s₆) ⟨connection.answers.alloc, fun _ => true⟩ (by
    intro place listed
    exact ⟨free₆ place (by simp [((kind_isoch s₆).all.mp listed).1]), whole place, rfl⟩)
  have ok := status₇ (fun place listed => loops place (by simp [listed]))
  have isoch : s₆.interfaceCreateIsoch connection =
      State.startLoop ⟨connection.answers.alloc, fun _ => true⟩ isochPlaces s₆ := by
    unfold State.interfaceCreateIsoch State.initLoopIsoch State.expand
    rw [if_pos setIsoch]
    dsimp only
    rw [ok, if_neg (by decide), ← ok]
  rw [isoch, ok, if_neg (by decide)]
  exact tidy₇

/-- The ways in which a connection can end. -/
theorem Tidy.connect (tidy : Tidy s) (disconnected : s.device = none) {connection : Connection} (careful : Careful s (.connect connection)) :
    Tidy (s.connect connection) := by
  by_cases device : connection.deviceContext = true
  · by_cases configured : connection.configured = true
    · rcases careful with without | unconfigured | null | succeeds
      · rw [device] at without
        cases without
      · rw [configured] at unconfigured
        cases unconfigured
      · exact tidy.connect_null disconnected device configured null
      · exact tidy.connect_succeeds disconnected device configured succeeds
    · have failed : s.connect connection = s.deviceContextCreate.deviceContextDestroy := by
        unfold State.connect
        simp only [device, Bool.eq_false_of_not_eq_true configured, Bool.not_true, Bool.not_false, Bool.false_eq_true, if_false, if_true]
      rw [failed]
      exact tidy.detach disconnected (unmade_attach s)
  · have same : s.connect connection = s := by
      unfold State.connect
      simp only [Bool.eq_false_of_not_eq_true device, Bool.not_false, if_true]
    rw [same]
    exact tidy

end Connecting

section Running
variable {s : State}

/-- Whether the isoch loop runs is of no matter here. -/
theorem Tidy.running (tidy : Tidy s) (running : Bool) : Tidy { s with isochInRunning := running } :=
  ⟨tidy.sound, tidy.held, tidy.owner, fun {place _} holds => (known_iff rfl rfl place).mpr (tidy.known holds), tidy.returned⟩

theorem submitLoop_all {submitted : Place → Bool} : ∀ {places : List Place}, (∀ place ∈ places, submitted place = true) →
    State.submitLoop submitted places s = (s, true) := by
  intro places
  induction places with
  | nil => exact fun _ => rfl
  | cons place rest ih =>
    intro all
    unfold State.submitLoop
    rw [if_pos (all place List.mem_cons_self)]
    exact ih (fun later listed => all later (List.mem_cons_of_mem _ listed))

theorem Tidy.startLoopIsoch (tidy : Tidy s) {submitted : Place → Bool}
    (careful : s.isochInRunning = false → ∀ place ∈ isochPlaces, submitted place = true) : Tidy (s.startLoopIsoch submitted) := by
  unfold State.startLoopIsoch
  by_cases running : s.isochInRunning = true
  · rw [if_pos running]
    exact tidy
  · rw [if_neg running, submitLoop_all (careful (Bool.eq_false_of_not_eq_true running))]
    exact tidy.running true

theorem Tidy.step {op : Op} (tidy : Tidy s) (allowed : Allowed s op) (careful : Careful s op) : Tidy (step s op) := by
  cases op with
  | connect connection => exact tidy.connect allowed careful
  | startLoopBulk answers => exact (tidy.startLoop_kind allowed (kind_bulk s) answers careful).1
  | startLoopInterrupt answers => exact (tidy.startLoop_kind allowed (kind_interrupt s) answers careful).1
  | startLoopIsoch submitted => exact tidy.startLoopIsoch careful
  | stopLoopBulk => exact tidy.stopLoop (kind_bulk s).distinct
  | stopLoopInterrupt => exact tidy.stopLoop (kind_interrupt s).distinct
  | stopLoopIsoch => exact tidy.running false
  | doorbellExpand entries alloc => exact (tidy.doorbellExpand allowed entries careful).1
  | cacheWorkExpand entries alloc => exact (tidy.cacheWorkExpand allowed entries careful).1
  | disconnect => exact tidy.disconnect

theorem Tidy.initial : Tidy State.initial := by
  refine Tidy.vacant List.nodup_nil ?_ ?_ (fun _ => rfl) ?_
  · exact fun listed => absurd listed List.not_mem_nil
  · exact fun old => absurd old (Nat.not_lt_zero _)
  · exact fun _ listed => absurd listed List.not_mem_nil

/-- In a run in which contexts are made whole or not at all, no URB of a loop is refused
    and a connection that fails does so before it has created a context, every context is
    owned. -/
theorem contexts_owned (reachable : Reachable Careful s) : Owned s := by
  refine Tidy.owned (Run.Reachable.invariant ?_ ?_ reachable)
  · rintro _ rfl
    exact Tidy.initial
  · exact fun s op tidy ok => tidy.step ok.1 ok.2

end Running

/-- Everything can be allocated and submitted. -/
def plenty : Answers := ⟨fun _ => .done, fun _ => true⟩

def usualConnection : Connection := ⟨true, true, true, true, true, .added, plenty⟩

/-- A device is connected, its loops are stopped and started and it is disconnected. -/
def usualRun : List Op :=
  [.connect usualConnection, .startLoopIsoch plenty.submitted, .stopLoopBulk, .startLoopBulk plenty, .stopLoopIsoch, .disconnect]

/-- The first context for replies gets no URB. -/
def scarceConnection : Connection :=
  { usualConnection with answers := ⟨fun place => if place = .memoryReadCompletion 0 then .noUrb else .done, fun _ => true⟩ }

theorem contexts_owned_usualRun : Reachable Careful (usualRun.foldl step State.initial) ∧ Owned (usualRun.foldl step State.initial) := by
  have reachable : Reachable Careful (usualRun.foldl step State.initial) := by
    refine Run.Reachable.all (.first rfl) ?_
    refine ⟨⟨rfl, .inr (.inr (.inr ?_))⟩, ⟨?_, fun _ _ _ => rfl⟩, ⟨?_, trivial⟩, ⟨?_, ?_⟩, ⟨?_, trivial⟩, ⟨?_, trivial⟩, trivial⟩
    · exact ⟨fun _ => rfl, ⟨rfl, rfl, rfl⟩, rfl, fun _ _ => rfl, fun _ _ => rfl⟩
    · decide +kernel
    · decide +kernel
    · decide +kernel
    · change ∀ place ∈ bulkPlaces, _ ∧ _ ∧ _
      decide +kernel
    · decide +kernel
    · decide +kernel
  exact ⟨reachable, contexts_owned reachable⟩

theorem not_contexts_owned : ¬∀ s, Reachable (fun _ _ => True) s → Owned s := by
  intro all
  have reachable : Reachable (fun _ _ => True) (step State.initial (.connect scarceConnection)) := .step _ (.first rfl) ⟨rfl, trivial⟩
  have promised := (all _ reachable).returned
  revert promised
  decide +kernel

end Ehub.UrbOwner
