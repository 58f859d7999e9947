import Mathlib
import Ehub.Run
import Ehub.Slots

/-!
Changing the endpoints of a device. `drop_endpoint` and `add_endpoint` only mark what is
to change, in two words of flags, and allocate the rings of the endpoints to be added;
`check_bandwidth` sends the marks to the controller and then replaces the rings, or
`reset_bandwidth` takes all of it back.
-/
namespace Ehub.EndpointConfig
open Ehub.Slots

instance neZero_sixteen : NeZero 16 := ⟨by decide⟩

instance neZero_slots : NeZero 256 := ⟨by decide⟩

inductive Xfer
  | control
  | isoc
  | bulk
  | interrupt
  deriving DecidableEq

/-- An endpoint descriptor: `bEndpointAddress` and the type from `bmAttributes`. -/
structure Descriptor where
  number : Fin 16
  dirIn : Bool
  xfer : Xfer
  deriving DecidableEq

/-- The type is `usb_endpoint_type` of the descriptor the ring was allocated for. -/
structure Ring where
  id : ℕ
  type : Xfer
  deriving DecidableEq

structure Endpoint where
  ring : Option Ring
  newRing : Option Ring
  maxBufferSize : ℕ
  cacheData : Bool
  skip : Bool
  deriving DecidableEq

/-- The input control context, and Context Entries of the input slot context. -/
structure InputContext where
  addFlags : BitVec 32
  dropFlags : BitVec 32
  contextEntries : ℕ
  deriving DecidableEq

/-- An `xhci_virt_device`. There are 31 endpoints. -/
structure Device where
  udev : ℕ
  inCtx : InputContext
  eps : ℕ → Endpoint

/-- The devices, the rings allocated and freed so far, the input contexts sent with a
    Configure Endpoint command, and the loop that receives isochronous data. -/
structure Host where
  devs : Fin 256 → Option Device
  next : ℕ
  freed : List ℕ
  sent : List InputContext
  numActiveIsocEps : ℤ
  isochInRunning : Bool
  stopPending : Bool

def slotFlag : BitVec 32 := 1

def ep0Flag : BitVec 32 := 2

def trbMaxBuffSize : ℕ := 65536

def cacheBlockSize : ℕ := 1024

namespace Descriptor

def isoc (desc : Descriptor) : Bool := decide (desc.xfer = .isoc)

def isocOut (desc : Descriptor) : Bool := desc.isoc && !desc.dirIn

/-- An unsigned int: it wraps around for a non-control endpoint 0 OUT. -/
def getEndpointIndex (desc : Descriptor) : BitVec 32 :=
  if desc.xfer = .control then BitVec.ofNat 32 (desc.number * 2)
  else BitVec.ofNat 32 (desc.number * 2) + (if desc.dirIn then 1 else 0) - 1

def getEndpointFlag (desc : Descriptor) : BitVec 32 := 1#32 <<< (desc.getEndpointIndex + 1)

end Descriptor

/-- The bit of an endpoint in a word of flags. -/
def flag (i : ℕ) : BitVec 32 := 1#32 <<< (i + 1)

/-- The device a function is called for and the state of the controller. -/
structure Caller where
  slot : Fin 256
  udev : ℕ
  rootHub : Bool
  halted : Bool
  dying : Bool

namespace Host

def setDev (h : Host) (slot : Fin 256) (dev : Device) : Host := { h with devs := Function.update h.devs slot (some dev) }

def modifyDev (h : Host) (slot : Fin 256) (change : Device → Device) : Host :=
  { h with devs := Function.update h.devs slot ((h.devs slot).map change) }

/-- The device, or what the caller of `check_args` returns at once. -/
def checkArgs (h : Host) (caller : Caller) : Except ℤ Device :=
  if caller.rootHub then .error 0
  else match h.devs caller.slot with
    | none => .error (-22)
    | some dev =>
      if caller.slot = 0 ∨ dev.udev ≠ caller.udev then .error (-22)
      else if caller.halted then .error (-19)
      else .ok dev

/-- `MESSAGE_StartLoopIsoch`; the URBs of the loop may be refused. -/
def startLoopIsoch (h : Host) (submitted : Bool) : Host :=
  { h with stopPending := false, isochInRunning := h.isochInRunning || submitted }

/-- `MESSAGE_queue_StopLoopIsoch`. -/
def queueStopLoopIsoch (h : Host) : Host := { h with stopPending := true }

/-- `MESSAGE_delayed_StopLoopIsoch`, when its time has come. -/
def delayedStopLoopIsoch (h : Host) : Host :=
  if h.stopPending then { h with stopPending := false, isochInRunning := false } else h

def endpointZero (h : Host) (desc : Descriptor) : Host :=
  if desc.isoc then { h with numActiveIsocEps := h.numActiveIsocEps - 1 } else h

/-- An interface that is going away drops nothing; `disabled` is the endpoint state in the
    output context, which the controller writes. -/
def dropEndpoint (h : Host) (caller : Caller) (goingGone : Bool) (desc : Descriptor) (disabled : Bool) : Host × ℤ :=
  match h.checkArgs caller with
  | .error ret => (h, ret)
  | .ok dev =>
    if caller.dying then (h, -19)
    else if goingGone then (h, 0)
    else if desc.getEndpointFlag = slotFlag ∨ desc.getEndpointFlag = ep0Flag then (h, 0)
    else if disabled ∨ dev.inCtx.dropFlags &&& desc.getEndpointFlag ≠ 0 then (h, 0)
    else
      let inCtx := { dev.inCtx with
        dropFlags := dev.inCtx.dropFlags ||| desc.getEndpointFlag
        addFlags := dev.inCtx.addFlags &&& ~~~desc.getEndpointFlag }
      ((h.setDev caller.slot { dev with inCtx }).endpointZero desc, 0)

end Host

/-- What `endpoint_init` writes into an endpoint; a ring that is there stays. -/
def Endpoint.prepare (ep : Endpoint) (desc : Descriptor) (newRing : Option Ring) : Endpoint :=
  { ep with
    maxBufferSize := if desc.isocOut then cacheBlockSize else trbMaxBuffSize
    cacheData := if desc.isocOut then true else ep.cacheData
    newRing
    skip := if newRing.isSome then false else ep.skip }

def Device.prepare (dev : Device) (desc : Descriptor) (newRing : Option Ring) : Device :=
  let index := desc.getEndpointIndex.toNat
  { dev with eps := Function.update dev.eps index ((dev.eps index).prepare desc newRing) }

namespace Host

/-- The endpoint is counted, and the loop started for the first one, before the ring is
    allocated. -/
def endpointInit (h : Host) (slot : Fin 256) (desc : Descriptor) (allocated submitted : Bool) : Host × ℤ :=
  let counted := if desc.isoc then { h with numActiveIsocEps := h.numActiveIsocEps + 1 } else h
  let started := if desc.isoc ∧ counted.numActiveIsocEps = 1 then counted.startLoopIsoch submitted else counted
  if allocated then
    ({ started.modifyDev slot (Device.prepare · desc (some ⟨h.next, desc.xfer⟩)) with next := h.next + 1 }, 0)
  else (started.modifyDev slot (Device.prepare · desc none), -12)

def addEndpoint (h : Host) (caller : Caller) (desc : Descriptor) (allocated submitted : Bool) : Host × ℤ :=
  match h.checkArgs caller with
  | .error ret => (h, ret)
  | .ok dev =>
    if caller.dying then (h, -19)
    else if desc.getEndpointFlag = slotFlag ∨ desc.getEndpointFlag = ep0Flag then (h, 0)
    else if (dev.eps desc.getEndpointIndex.toNat).ring.isSome ∧ dev.inCtx.dropFlags &&& desc.getEndpointFlag = 0 then
      (h, -22)
    else if dev.inCtx.addFlags &&& desc.getEndpointFlag ≠ 0 then (h, 0)
    else
      let (ready, ret) := h.endpointInit caller.slot desc allocated submitted
      if ret < 0 then (ready, -12)
      else
        let mark (dev : Device) : Device :=
          { dev with inCtx := { dev.inCtx with addFlags := dev.inCtx.addFlags ||| desc.getEndpointFlag } }
        (ready.modifyDev caller.slot mark, 0)

end Host

/-- The flags are cleared and Context Entries is 1 again. -/
def zeroInCtx : InputContext := ⟨0, 0, 1⟩

/-- The first of the given numbers, from 31 down, whose context is part of the new
    configuration. Endpoint 0 always is. -/
def Device.findLastCtx (dev : Device) : ℕ → ℕ
  | 0 => 1
  | i + 1 =>
    if ((dev.eps i).ring.isSome ∧ dev.inCtx.dropFlags &&& (1#32 <<< (i + 1)) = 0)
        ∨ dev.inCtx.addFlags &&& (1#32 <<< (i + 1)) ≠ 0 ∨ i + 1 = 1 then i + 1
    else dev.findLastCtx i

/-- What a Configure Endpoint command comes to. -/
inductive Configured
  | notQueued
  | completed (result : ℤ)

/-- `ehub_xhci_free_endpoint_ring`. -/
def Endpoint.freeRing (ep : Endpoint) : Endpoint × List ℕ := ({ ep with ring := none }, ep.ring.toList.map Ring.id)

/-- The loop over rings that were dropped, but not changed. -/
def freeDropped (inCtx : InputContext) (i : ℕ) (ep : Endpoint) : Endpoint × List ℕ :=
  if inCtx.dropFlags &&& flag i ≠ 0 ∧ inCtx.addFlags &&& flag i = 0 then ep.freeRing else (ep, [])

/-- The loop that installs rings and frees those of changed endpoints. -/
def installNew (_ : ℕ) (ep : Endpoint) : Endpoint × List ℕ :=
  match ep.newRing with
  | none => (ep, [])
  | some ring =>
    let (ep, gone) := if ep.ring.isSome then ep.freeRing else (ep, [])
    ({ ep with ring := some ring, newRing := none }, gone)

/-- The loop of `reset_bandwidth`. -/
def freeNew (_ : ℕ) (ep : Endpoint) : Endpoint × List ℕ := ({ ep with newRing := none }, ep.newRing.toList.map Ring.id)

/-- The loop of a device that has been reset. -/
def freeInstalled (_ : ℕ) (ep : Endpoint) : Endpoint × List ℕ := if ep.ring.isSome then ep.freeRing else (ep, [])

namespace Host

def configureEndpoint (h : Host) (inCtx : InputContext) : Configured → Host × ℤ
  | .notQueued => (h, -12)
  | .completed result =>
    let sent := { h with sent := h.sent ++ [inCtx] }
    (if sent.isochInRunning ∧ sent.numActiveIsocEps = 0 then sent.queueStopLoopIsoch else sent, result)

/-- What `check_bandwidth` does when the command has succeeded. -/
def install (h : Host) (slot : Fin 256) (dev : Device) : Host :=
  let (dropped, freed) := sweep (freeDropped dev.inCtx) (List.range' 1 30) dev.eps h.freed
  let (eps, freed) := sweep installNew (List.range' 1 30) dropped freed
  { h.setDev slot { dev with eps, inCtx := zeroInCtx } with freed }

def checkBandwidth (h : Host) (caller : Caller) (command : Bool) (configured : Configured) : Host × ℤ :=
  match h.checkArgs caller with
  | .error ret => (h, ret)
  | .ok dev =>
    if caller.dying then (h, -19)
    else if !command then (h, -12)
    else
      let inCtx := { dev.inCtx with
        addFlags := (dev.inCtx.addFlags ||| slotFlag) &&& ~~~ep0Flag
        dropFlags := dev.inCtx.dropFlags &&& ~~~(slotFlag ||| ep0Flag) }
      if inCtx.addFlags = slotFlag ∧ inCtx.dropFlags = 0 then (h.setDev caller.slot { dev with inCtx }, 0)
      else
        let dev := { dev with inCtx := { inCtx with contextEntries := { dev with inCtx }.findLastCtx 31 } }
        let (answered, ret) := (h.setDev caller.slot dev).configureEndpoint dev.inCtx configured
        if ret ≠ 0 then (answered, ret) else (answered.install caller.slot dev, 0)

def resetBandwidth (h : Host) (caller : Caller) : Host :=
  match h.checkArgs caller with
  | .error _ => h
  | .ok dev =>
    let (eps, freed) := sweep freeNew (List.range 31) dev.eps h.freed
    { h.setDev caller.slot { dev with eps, inCtx := zeroInCtx } with freed }

/-- Nothing happens for slot 0, a slot in use or when some allocation fails. -/
def allocVirtDevice (h : Host) (slot : Fin 256) (udev : ℕ) (allocated : Bool) : Host × ℤ :=
  if slot = 0 ∨ (h.devs slot).isSome ∨ !allocated then (h, 0)
  else
    let eps (i : ℕ) : Endpoint := ⟨if i = 0 then some ⟨h.next, .control⟩ else none, none, 0, false, false⟩
    ({ h.setDev slot ⟨udev, ⟨0, 0, 0⟩, eps⟩ with next := h.next + 1 }, 1)

/-- The new rings and the counter are left as they are. -/
def freeVirtDevice (h : Host) (slot : Fin 256) : Host :=
  match h.devs slot with
  | none => h
  | some dev =>
    let (_, freed) := sweep freeInstalled (List.range 31) dev.eps h.freed
    { h with devs := Function.update h.devs slot none, freed }

end Host

/-- What a Reset Device command comes to; a slot that is not set up needs none. -/
inductive DeviceReset
  | disabled
  | noCommand
  | notQueued (ret : ℤ)
  | refused (ret : ℤ)
  | done

namespace Host

/-- `slot` and `allocated` are what `alloc_dev` gets for a device that was lost. -/
def discoverOrResetDevice (h : Host) (caller : Caller) (slot : Fin 256) (allocated : Bool) (reset : DeviceReset) : Host × ℤ :=
  let allocDev : Host × ℤ :=
    let (found, ret) := h.allocVirtDevice slot caller.udev allocated
    (found, if ret = 1 then 0 else -22)
  if caller.rootHub then (h, 0)
  else if caller.halted then (h, -19)
  else
    match h.devs caller.slot with
    | none => allocDev
    | some dev =>
      if dev.udev ≠ caller.udev then allocDev
      else
        match reset with
        | .disabled => (h, 0)
        | .noCommand => (h, -12)
        | .notQueued ret => (h, ret)
        | .refused ret => (h, ret)
        | .done =>
          let (eps, freed) := sweep freeInstalled (List.range' 1 30) dev.eps h.freed
          ({ h.setDev caller.slot { dev with eps } with freed }, 0)

/-- Missed service intervals set `skip` of an endpoint, later events clear it. -/
def transferEvent (h : Host) (slot : Fin 256) (i : ℕ) (skip : Bool) : Host :=
  h.modifyDev slot fun dev => { dev with eps := Function.update dev.eps i { dev.eps i with skip } }

/-- No devices yet. -/
def initial : Host := ⟨fun _ => none, 0, [], [], 0, false, false⟩

end Host

inductive Op
  | allocDev (slot : Fin 256) (udev : ℕ) (allocated : Bool)
  | dropEndpoint (caller : Caller) (goingGone : Bool) (desc : Descriptor) (disabled : Bool)
  | addEndpoint (caller : Caller) (desc : Descriptor) (allocated submitted : Bool)
  | checkBandwidth (caller : Caller) (command : Bool) (configured : Configured)
  | resetBandwidth (caller : Caller)
  | discoverOrResetDevice (caller : Caller) (slot : Fin 256) (allocated : Bool) (reset : DeviceReset)
  | freeVirtDevice (slot : Fin 256)
  | transferEvent (slot : Fin 256) (i : ℕ) (skip : Bool)
  | delayedStopLoopIsoch

def step (h : Host) : Op → Host
  | .allocDev slot udev allocated => (h.allocVirtDevice slot udev allocated).1
  | .dropEndpoint caller goingGone desc disabled => (h.dropEndpoint caller goingGone desc disabled).1
  | .addEndpoint caller desc allocated submitted => (h.addEndpoint caller desc allocated submitted).1
  | .checkBandwidth caller command configured => (h.checkBandwidth caller command configured).1
  | .resetBandwidth caller => h.resetBandwidth caller
  | .discoverOrResetDevice caller slot allocated reset => (h.discoverOrResetDevice caller slot allocated reset).1
  | .freeVirtDevice slot => h.freeVirtDevice slot
  | .transferEvent slot i skip => h.transferEvent slot i skip
  | .delayedStopLoopIsoch => h.delayedStopLoopIsoch

/-- Every call is possible in every state. -/
abbrev Reachable : Host → Prop := Run.Reachable (· = Host.initial) (fun _ (_ : Op) => True) step

/-! ### Flags -/

/-- The flag of an endpoint is set. -/
def has (flags : BitVec 32) (i : ℕ) : Bool := flags.getLsbD (i + 1)

theorem getLsbD_flag (i j : ℕ) : (flag i).getLsbD j = (decide (i + 1 < 32) && decide (i + 1 = j)) :=
  BitVec.getLsbD_twoPow ..

theorem has_flag {i j : ℕ} (inside : j < 31) : has (flag i) j = decide (i = j) := by
  unfold has
  rw [getLsbD_flag]
  by_cases same : i = j
  · subst same
    simp
    omega
  · simp [same]

theorem has_or_flag (flags : BitVec 32) {i j : ℕ} (inside : j < 31) :
    has (flags ||| flag i) j = (has flags j || decide (i = j)) := by
  rw [← has_flag inside]
  exact BitVec.getLsbD_or

theorem has_and_not_flag (flags : BitVec 32) {i j : ℕ} (inside : j < 31) :
    has (flags &&& ~~~flag i) j = (has flags j && !decide (i = j)) := by
  have width : j + 1 < 32 := by omega
  rw [← has_flag inside]
  unfold has
  rw [BitVec.getLsbD_and, BitVec.getLsbD_not, decide_eq_true width, Bool.true_and]

theorem and_flag (flags : BitVec 32) {i : ℕ} (inside : i < 31) : flags &&& flag i = 0 ↔ has flags i = false := by
  have width : i + 1 < 32 := by omega
  constructor
  · intro clear
    have bit := congrArg (BitVec.getLsbD · (i + 1)) clear
    simp only [BitVec.getLsbD_and, getLsbD_flag, decide_eq_true width, decide_true, Bool.and_true] at bit
    exact bit.trans BitVec.getLsbD_zero
  · intro clear
    apply BitVec.eq_of_getLsbD_eq
    intro j _
    rw [BitVec.getLsbD_and, getLsbD_flag]
    by_cases same : i + 1 = j
    · subst same
      rw [show flags.getLsbD (i + 1) = false from clear, Bool.false_and]
      exact BitVec.getLsbD_zero.symm
    · simp [same]

/-- The marks `check_bandwidth` sends: those of the endpoints, and the slot. -/
theorem has_sent (flags : BitVec 32) {i : ℕ} (first : 1 ≤ i) (inside : i < 31) :
    has ((flags ||| slotFlag) &&& ~~~ep0Flag) i = has flags i ∧ has (flags &&& ~~~(slotFlag ||| ep0Flag)) i = has flags i := by
  have width : i + 1 < 32 := by omega
  have slot : slotFlag.getLsbD (i + 1) = false := by
    unfold slotFlag
    simp
  have ep0 : ep0Flag.getLsbD (i + 1) = false := by
    rw [show ep0Flag = BitVec.twoPow 32 1 from rfl, BitVec.getLsbD_twoPow]
    simp
    omega
  unfold has
  refine ⟨?_, ?_⟩
  · rw [BitVec.getLsbD_and, BitVec.getLsbD_or, BitVec.getLsbD_not, slot, ep0, decide_eq_true width]
    simp
  · rw [BitVec.getLsbD_and, BitVec.getLsbD_not, BitVec.getLsbD_or, slot, ep0, decide_eq_true width]
    simp

/-- No command is sent when there is no mark for an endpoint. -/
theorem nothing_marked (add drop : BitVec 32) : (add ||| slotFlag) &&& ~~~ep0Flag = slotFlag ∧
    drop &&& ~~~(slotFlag ||| ep0Flag) = 0 ↔ ∀ i, 1 ≤ i → i < 31 → has add i = false ∧ has drop i = false := by
  constructor
  · rintro ⟨noAdd, noDrop⟩ i first inside
    have added := (has_sent add first inside).1
    have dropped := (has_sent drop first inside).2
    rw [noAdd] at added
    rw [noDrop] at dropped
    refine ⟨?_, ?_⟩
    · rw [← added]
      unfold has slotFlag
      simp
    · rw [← dropped]
      exact BitVec.getLsbD_zero
  · intro clear
    refine ⟨?_, ?_⟩
    · apply BitVec.eq_of_getLsbD_eq
      intro j width
      rcases Nat.lt_or_ge j 2 with low | high
      · interval_cases j <;> simp [slotFlag, ep0Flag]
      · obtain ⟨i, rfl⟩ : ∃ i, j = i + 1 := ⟨j - 1, by omega⟩
        have sent := (has_sent add (i := i) (by omega) (by omega)).1
        rw [(clear i (by omega) (by omega)).1] at sent
        refine sent.trans ?_
        simp [slotFlag]
    · apply BitVec.eq_of_getLsbD_eq
      intro j width
      rcases Nat.lt_or_ge j 2 with low | high
      · interval_cases j <;> simp [slotFlag, ep0Flag]
      · obtain ⟨i, rfl⟩ : ∃ i, j = i + 1 := ⟨j - 1, by omega⟩
        have sent := (has_sent drop (i := i) (by omega) (by omega)).2
        rw [(clear i (by omega) (by omega)).2] at sent
        exact sent.trans BitVec.getLsbD_zero.symm

/-! ### What each call can do -/

section Calls
variable {h : Host} {caller : Caller} {dev : Device}

theorem setDev_self (h : Host) (slot : Fin 256) (dev : Device) : (h.setDev slot dev).devs slot = some dev := Function.update_self ..

theorem checkArgs_ok : h.checkArgs caller = .ok dev ↔ caller.rootHub = false ∧ h.devs caller.slot = some dev ∧
    caller.slot ≠ 0 ∧ dev.udev = caller.udev ∧ caller.halted = false := by
  unfold Host.checkArgs
  constructor
  · intro ok
    by_cases root : caller.rootHub = true
    · simp [root] at ok
    rw [if_neg root] at ok
    cases found : h.devs caller.slot with
    | none => simp [found] at ok
    | some other =>
      simp only [found] at ok
      by_cases wrong : caller.slot = 0 ∨ other.udev ≠ caller.udev
      · simp [if_pos wrong] at ok
      by_cases halted : caller.halted = true
      · simp [if_neg wrong, halted] at ok
      rw [if_neg wrong, if_neg halted] at ok
      obtain ⟨nonzero, owner⟩ := not_or.mp wrong
      obtain rfl := Except.ok.inj ok
      exact ⟨Bool.eq_false_of_not_eq_true root, rfl, nonzero, not_not.mp owner, Bool.eq_false_of_not_eq_true halted⟩
  · rintro ⟨root, found, nonzero, owner, halted⟩
    simp [root, found, nonzero, owner, halted]

/-- A device with an endpoint marked to be dropped. -/
def Device.marked (dev : Device) (i : ℕ) : Device :=
  { dev with inCtx := { dev.inCtx with
      dropFlags := dev.inCtx.dropFlags ||| flag i
      addFlags := dev.inCtx.addFlags &&& ~~~flag i } }

/-- A device with an endpoint prepared, and marked to be added if that went well. -/
def Device.staged (dev : Device) (desc : Descriptor) (newRing : Option Ring) : Device :=
  let addFlags :=
    if newRing.isSome then dev.inCtx.addFlags ||| flag desc.getEndpointIndex.toNat else dev.inCtx.addFlags
  { dev.prepare desc newRing with inCtx := { dev.inCtx with addFlags } }

/-- An endpoint of a device other than endpoint 0. -/
def Descriptor.Inside (desc : Descriptor) : Prop := 1 ≤ desc.getEndpointIndex.toNat ∧ desc.getEndpointIndex.toNat < 31

theorem Descriptor.inside_or (desc : Descriptor) : desc.getEndpointFlag = slotFlag ∨ desc.getEndpointFlag = ep0Flag ∨
    desc.Inside ∧ desc.getEndpointFlag = flag desc.getEndpointIndex.toNat := by
  obtain ⟨number, dirIn, xfer⟩ := desc
  revert number
  unfold Descriptor.Inside
  cases dirIn <;> cases xfer <;> decide

theorem Descriptor.Inside.flag {desc : Descriptor} (inside : desc.Inside) :
    desc.getEndpointFlag = flag desc.getEndpointIndex.toNat ∧
      ¬(desc.getEndpointFlag = slotFlag ∨ desc.getEndpointFlag = ep0Flag) := by
  obtain ⟨number, dirIn, xfer⟩ := desc
  revert number
  unfold Descriptor.Inside
  cases dirIn <;> cases xfer <;> decide

/-- The call marks the endpoint of the descriptor to be dropped. -/
structure Drops (h : Host) (caller : Caller) (goingGone : Bool) (desc : Descriptor) (disabled : Bool) (dev : Device) : Prop where
  served : h.checkArgs caller = .ok dev
  alive : caller.dying = false
  stays : goingGone = false
  inside : desc.Inside
  enabled : disabled = false
  unmarked : has dev.inCtx.dropFlags desc.getEndpointIndex.toNat = false

/-- The call gets as far as `endpoint_init`. -/
structure Prepares (h : Host) (caller : Caller) (desc : Descriptor) (dev : Device) : Prop where
  served : h.checkArgs caller = .ok dev
  alive : caller.dying = false
  inside : desc.Inside
  room : (dev.eps desc.getEndpointIndex.toNat).ring = none ∨ has dev.inCtx.dropFlags desc.getEndpointIndex.toNat = true
  unmarked : has dev.inCtx.addFlags desc.getEndpointIndex.toNat = false

theorem drop_eq {goingGone disabled : Bool} {desc : Descriptor} (drops : Drops h caller goingGone desc disabled dev) :
    (h.dropEndpoint caller goingGone desc disabled).1 =
      (h.setDev caller.slot (dev.marked desc.getEndpointIndex.toNat)).endpointZero desc := by
  obtain ⟨served, alive, stays, inside, enabled, unmarked⟩ := drops
  obtain ⟨own, other⟩ := inside.flag
  have clear := (and_flag _ inside.2).mpr unmarked
  rw [← own] at clear
  rw [Host.dropEndpoint, served]
  simp only [alive, stays, enabled, Bool.false_eq_true, if_false, if_neg other, clear, ne_eq, not_true_eq_false, or_self]
  rw [own]
  rfl

theorem drop_other {goingGone disabled : Bool} {desc : Descriptor}
    (no : ∀ dev, ¬Drops h caller goingGone desc disabled dev) : (h.dropEndpoint caller goingGone desc disabled).1 = h := by
  rw [Host.dropEndpoint]
  cases served : h.checkArgs caller with
  | error ret => rfl
  | ok dev =>
    dsimp only
    by_cases dying : caller.dying = true
    · rw [if_pos dying]
    rw [if_neg dying]
    by_cases going : goingGone = true
    · rw [if_pos going]
    rw [if_neg going]
    by_cases other : desc.getEndpointFlag = slotFlag ∨ desc.getEndpointFlag = ep0Flag
    · rw [if_pos other]
    rw [if_neg other]
    rcases desc.inside_or with slot | ep0 | ⟨inside, own⟩
    · exact absurd (.inl slot) other
    · exact absurd (.inr ep0) other
    by_cases ignored : disabled = true ∨ dev.inCtx.dropFlags &&& desc.getEndpointFlag ≠ 0
    · rw [if_pos ignored]
    · obtain ⟨enabled, clear⟩ := not_or.mp ignored
      rw [own, not_not, and_flag _ inside.2] at clear
      exact absurd ⟨served, Bool.eq_false_of_not_eq_true dying, Bool.eq_false_of_not_eq_true going, inside,
        Bool.eq_false_of_not_eq_true enabled, clear⟩ (no dev)

/-- What a call that gets as far as `endpoint_init` leaves behind. -/
structure Added (h : Host) (slot : Fin 256) (dev : Device) (desc : Descriptor) (allocated submitted : Bool) (after : Host) : Prop where
  devs : after.devs =
    Function.update h.devs slot (some (dev.staged desc (if allocated then some ⟨h.next, desc.xfer⟩ else none)))
  next : after.next = if allocated then h.next + 1 else h.next
  freed : after.freed = h.freed
  sent : after.sent = h.sent
  count : after.numActiveIsocEps = if desc.isoc then h.numActiveIsocEps + 1 else h.numActiveIsocEps
  running : after.isochInRunning = if desc.isoc ∧ h.numActiveIsocEps = 0 then h.isochInRunning || submitted else h.isochInRunning
  pending : after.stopPending = if desc.isoc ∧ h.numActiveIsocEps = 0 then false else h.stopPending

theorem add_eq {desc : Descriptor} (prepares : Prepares h caller desc dev) (allocated submitted : Bool) :
    Added h caller.slot dev desc allocated submitted (h.addEndpoint caller desc allocated submitted).1 := by
  obtain ⟨served, alive, inside, room, unmarked⟩ := prepares
  obtain ⟨own, other⟩ := inside.flag
  have found := (checkArgs_ok.mp served).2.1
  have clear := (and_flag _ inside.2).mpr unmarked
  rw [← own] at clear
  have free : ¬((dev.eps desc.getEndpointIndex.toNat).ring.isSome ∧ dev.inCtx.dropFlags &&& desc.getEndpointFlag = 0) := by
    rintro ⟨some, undropped⟩
    rw [own, and_flag _ inside.2] at undropped
    rcases room with none | dropped
    · rw [none] at some
      cases some
    · exact Bool.noConfusion (dropped.symm.trans undropped)
  rw [Host.addEndpoint, served]
  simp only [alive, Bool.false_eq_true, if_false, if_neg other, if_neg free, clear, ne_eq, not_true_eq_false]
  unfold Host.endpointInit
  have one : h.numActiveIsocEps + 1 = 1 ↔ h.numActiveIsocEps = 0 := by omega
  by_cases isoc : desc.isoc = true
  · by_cases zero : h.numActiveIsocEps = 0
    · cases allocated <;>
        constructor <;> simp [isoc, zero, Host.startLoopIsoch, Host.modifyDev, found, Device.staged, Device.prepare, own]
    · cases allocated <;>
        constructor <;> simp [isoc, zero, one, Host.modifyDev, found, Device.staged, Device.prepare, own]
  · cases allocated <;>
      constructor <;> simp [isoc, Host.modifyDev, found, Device.staged, Device.prepare, own]

theorem endpointZero_frame (h : Host) (desc : Descriptor) : (h.endpointZero desc).devs = h.devs ∧
    (h.endpointZero desc).freed = h.freed ∧ (h.endpointZero desc).sent = h.sent ∧ (h.endpointZero desc).next = h.next := by
  unfold Host.endpointZero
  split_ifs <;> exact ⟨rfl, rfl, rfl, rfl⟩

theorem staged_eps (dev : Device) (desc : Descriptor) (newRing : Option Ring) (i : ℕ) :
    (dev.staged desc newRing).eps i =
      if i = desc.getEndpointIndex.toNat then (dev.eps i).prepare desc newRing else dev.eps i := by
  unfold Device.staged Device.prepare
  by_cases same : i = desc.getEndpointIndex.toNat
  · subst same
    simp
  · simp [same]

theorem staged_add (dev : Device) (desc : Descriptor) (newRing : Option Ring) {i : ℕ} (inside : i < 31) :
    has (dev.staged desc newRing).inCtx.addFlags i =
      (has dev.inCtx.addFlags i || (newRing.isSome && decide (desc.getEndpointIndex.toNat = i))) := by
  unfold Device.staged
  cases newRing with
  | none => simp
  | some ring =>
    simp only [Option.isSome_some, if_true, Bool.true_and]
    exact has_or_flag _ inside

theorem add_other {desc : Descriptor} (no : ∀ dev, ¬Prepares h caller desc dev) (allocated submitted : Bool) :
    (h.addEndpoint caller desc allocated submitted).1 = h := by
  rw [Host.addEndpoint]
  cases served : h.checkArgs caller with
  | error ret => rfl
  | ok dev =>
    dsimp only
    by_cases dying : caller.dying = true
    · rw [if_pos dying]
    rw [if_neg dying]
    by_cases other : desc.getEndpointFlag = slotFlag ∨ desc.getEndpointFlag = ep0Flag
    · rw [if_pos other]
    rw [if_neg other]
    rcases desc.inside_or with slot | ep0 | ⟨inside, own⟩
    · exact absurd (.inl slot) other
    · exact absurd (.inr ep0) other
    by_cases used : (dev.eps desc.getEndpointIndex.toNat).ring.isSome ∧ dev.inCtx.dropFlags &&& desc.getEndpointFlag = 0
    · rw [if_pos used]
    rw [if_neg used]
    by_cases marked : dev.inCtx.addFlags &&& desc.getEndpointFlag ≠ 0
    · rw [if_pos marked]
    · rw [own, not_not, and_flag _ inside.2] at marked
      refine absurd ⟨served, Bool.eq_false_of_not_eq_true dying, inside, ?_, marked⟩ (no dev)
      by_cases empty : (dev.eps desc.getEndpointIndex.toNat).ring = none
      · exact .inl empty
      · right
        by_contra undropped
        refine used ⟨Option.isSome_iff_ne_none.mpr empty, ?_⟩
        rw [own, and_flag _ inside.2]
        exact Bool.eq_false_of_not_eq_true undropped

end Calls

/-- The marks are those of endpoints and of the slot. -/
def Device.masked (dev : Device) : Device :=
  { dev with inCtx := { dev.inCtx with
      addFlags := (dev.inCtx.addFlags ||| slotFlag) &&& ~~~ep0Flag
      dropFlags := dev.inCtx.dropFlags &&& ~~~(slotFlag ||| ep0Flag) } }

/-- The device as it is when its input context is sent. -/
def Device.ready (dev : Device) : Device :=
  { dev with inCtx := { dev.masked.inCtx with contextEntries := dev.masked.findLastCtx 31 } }

/-- Some endpoint is marked to be dropped or added. -/
def Device.Marked (dev : Device) : Prop :=
  ∃ i, 1 ≤ i ∧ i < 31 ∧ (has dev.inCtx.addFlags i = true ∨ has dev.inCtx.dropFlags i = true)

instance (dev : Device) : Decidable dev.Marked :=
  decidable_of_iff (∃ i < 31, 1 ≤ i ∧ (has dev.inCtx.addFlags i = true ∨ has dev.inCtx.dropFlags i = true))
    ⟨fun ⟨i, inside, one, marks⟩ => ⟨i, one, inside, marks⟩, fun ⟨i, one, inside, marks⟩ => ⟨i, inside, one, marks⟩⟩

/-- No flag is set for an endpoint and no endpoint has a new ring. -/
structure Quiet (dev : Device) : Prop where
  unmarked : ¬dev.Marked
  noNew : ∀ i < 31, (dev.eps i).newRing = none

section Bandwidth
variable {h : Host} {caller : Caller} {dev : Device}

theorem masked_empty : dev.masked.inCtx.addFlags = slotFlag ∧ dev.masked.inCtx.dropFlags = 0 ↔ ¬dev.Marked := by
  refine (nothing_marked dev.inCtx.addFlags dev.inCtx.dropFlags).trans ?_
  unfold Device.Marked
  simp only [not_exists, not_and, not_or, Bool.not_eq_true]

theorem check_refused (refused : (∃ ret, h.checkArgs caller = .error ret) ∨ caller.dying = true ∨ command = false)
    (configured : Configured) : (h.checkBandwidth caller command configured).1 = h := by
  rw [Host.checkBandwidth]
  cases served : h.checkArgs caller with
  | error ret => rfl
  | ok dev =>
    rw [served] at refused
    rcases refused with ⟨ret, no⟩ | dying | none
    · cases no
    · simp [dying]
    · by_cases dying : caller.dying = true
      · simp [dying]
      · simp [dying, none]

theorem check_unmarked (served : h.checkArgs caller = .ok dev) (alive : caller.dying = false) (configured : Configured)
    (none : ¬dev.Marked) : h.checkBandwidth caller true configured = (h.setDev caller.slot dev.masked, 0) := by
  rw [Host.checkBandwidth, served]
  simp only [alive, Bool.false_eq_true, if_false, Bool.not_true]
  exact if_pos (masked_empty.mpr none)

theorem check_marked (served : h.checkArgs caller = .ok dev) (alive : caller.dying = false) (configured : Configured)
    (some : dev.Marked) : h.checkBandwidth caller true configured =
      let (answered, ret) := (h.setDev caller.slot dev.ready).configureEndpoint dev.ready.inCtx configured
      if ret ≠ 0 then (answered, ret) else (answered.install caller.slot dev.ready, 0) := by
  rw [Host.checkBandwidth, served]
  simp only [alive, Bool.false_eq_true, if_false, Bool.not_true]
  exact if_neg (fun empty => masked_empty.mp empty some)

/-- What a Configure Endpoint command changes at once. -/
structure Answered (h : Host) (inCtx : InputContext) (configured : Configured) (after : Host) : Prop where
  devs : after.devs = h.devs
  next : after.next = h.next
  freed : after.freed = h.freed
  sent : after.sent = match configured with | .notQueued => h.sent | .completed _ => h.sent ++ [inCtx]
  count : after.numActiveIsocEps = h.numActiveIsocEps
  running : after.isochInRunning = h.isochInRunning
  pending : after.stopPending = true → h.stopPending = true ∨ h.numActiveIsocEps = 0

theorem configure_answered (h : Host) (inCtx : InputContext) (configured : Configured) :
    Answered h inCtx configured (h.configureEndpoint inCtx configured).1 := by
  cases configured with
  | notQueued =>
    exact ⟨rfl, rfl, rfl, rfl, rfl, rfl, .inl⟩
  | completed result =>
    unfold Host.configureEndpoint
    dsimp only
    by_cases idle : h.isochInRunning = true ∧ h.numActiveIsocEps = 0
    · rw [if_pos idle]
      exact ⟨rfl, rfl, rfl, rfl, rfl, rfl, fun _ => .inr idle.2⟩
    · rw [if_neg idle]
      exact ⟨rfl, rfl, rfl, rfl, rfl, rfl, .inl⟩

theorem configure_ret (h : Host) (inCtx : InputContext) (configured : Configured) :
    (h.configureEndpoint inCtx configured).2 = 0 ↔ configured = .completed 0 := by
  cases configured with
  | notQueued => simp [Host.configureEndpoint]
  | completed result => simp [Host.configureEndpoint]

/-- The flags that are sent are those of the calls. -/
theorem ready_flags (dev : Device) {i : ℕ} (one : 1 ≤ i) (inside : i < 31) :
    has dev.ready.inCtx.addFlags i = has dev.inCtx.addFlags i ∧ has dev.ready.inCtx.dropFlags i = has dev.inCtx.dropFlags i :=
  ⟨(has_sent _ one inside).1, (has_sent _ one inside).2⟩

/-- The loops over all endpoints but endpoint 0. -/
theorem order_spec : ∃ order, order = List.range' 1 30 ∧ order.Nodup ∧ ∀ i, i ∈ order ↔ 1 ≤ i ∧ i < 31 := by
  refine ⟨_, rfl, List.nodup_range' .., fun i => ?_⟩
  rw [List.mem_range'_1]

/-- What is left of an endpoint, and what has been freed. -/
structure Installed (h : Host) (slot : Fin 256) (dev : Device) (after : Host) (final : Device) : Prop where
  devs : after.devs = Function.update h.devs slot (some final)
  inCtx : final.inCtx = zeroInCtx
  zero : final.eps 0 = dev.eps 0
  eps : ∀ {i}, 1 ≤ i → i < 31 → final.eps i = (installNew i (freeDropped dev.inCtx i (dev.eps i)).1).1
  freed : ∀ {i b}, 1 ≤ i → i < 31 →
    b ∈ (freeDropped dev.inCtx i (dev.eps i)).2 ∨ b ∈ (installNew i (freeDropped dev.inCtx i (dev.eps i)).1).2 → b ∈ after.freed
  sent : after.sent = h.sent

theorem install_installed (h : Host) (slot : Fin 256) (dev : Device) : ∃ final, Installed h slot dev (h.install slot dev) final := by
  obtain ⟨order, same, distinct, listed⟩ := order_spec
  rw [Host.install, ← same]
  dsimp only
  refine ⟨_, rfl, rfl, ?_, ?_, ?_, rfl⟩
  · have zero : 0 ∉ order := fun no => absurd ((listed 0).mp no).1 (by decide)
    dsimp only
    rw [sweep_slot _ _ distinct, if_neg zero, sweep_slot _ _ distinct, if_neg zero]
  · intro i one inside
    have on : i ∈ order := (listed i).mpr ⟨one, inside⟩
    dsimp only
    rw [sweep_slot _ _ distinct, if_pos on, sweep_slot _ _ distinct, if_pos on]
  · intro i b one inside gone
    have on : i ∈ order := (listed i).mpr ⟨one, inside⟩
    dsimp only
    rw [sweep_log _ _ distinct, sweep_log _ _ distinct, List.mem_append, List.mem_append]
    rcases gone with gone | gone
    · exact .inl (.inr (List.mem_flatMap.mpr ⟨i, on, gone⟩))
    · refine .inr (List.mem_flatMap.mpr ⟨i, on, ?_⟩)
      rwa [sweep_slot _ _ distinct, if_pos on]

/-- Both loops, by the flags. A new ring is there if and only if the endpoint is marked to
    be added. -/
theorem install_endpoint {inCtx : InputContext} {ep : Endpoint} {i : ℕ} (inside : i < 31)
    (new : ep.newRing.isSome = has inCtx.addFlags i) : (installNew i (freeDropped inCtx i ep).1).1.newRing = none ∧
    (installNew i (freeDropped inCtx i ep).1).1.ring =
      if has inCtx.addFlags i then ep.newRing else if has inCtx.dropFlags i then none else ep.ring := by
  unfold freeDropped
  simp only [ne_eq, and_flag _ inside, Bool.not_eq_false]
  cases fresh : ep.newRing with
  | some ring =>
    rw [fresh, Option.isSome_some] at new
    simp [← new, installNew, fresh]
  | none =>
    rw [fresh, Option.isSome_none] at new
    cases drop : has inCtx.dropFlags i with
    | true => simp [← new, installNew, fresh, Endpoint.freeRing]
    | false => simp [← new, installNew, fresh]

theorem install_freed {inCtx : InputContext} {ep : Endpoint} {i : ℕ} (inside : i < 31)
    (new : ep.newRing.isSome = has inCtx.addFlags i) {ring : Ring} (was : ep.ring = some ring)
    (marked : has inCtx.addFlags i = true ∨ has inCtx.dropFlags i = true) :
    ring.id ∈ (freeDropped inCtx i ep).2 ∨ ring.id ∈ (installNew i (freeDropped inCtx i ep).1).2 := by
  unfold freeDropped
  simp only [ne_eq, and_flag _ inside, Bool.not_eq_false]
  cases fresh : ep.newRing with
  | some other =>
    rw [fresh, Option.isSome_some] at new
    right
    simp [← new, installNew, fresh, was, Endpoint.freeRing]
  | none =>
    rw [fresh, Option.isSome_none] at new
    have drop : has inCtx.dropFlags i = true := marked.resolve_left (by rw [← new]; exact Bool.noConfusion)
    left
    simp [← new, drop, Endpoint.freeRing, was]

end Bandwidth

/-! ### Rings are held once and freed once -/

/-- The ring of an endpoint, or its new ring. -/
def Endpoint.hold (ep : Endpoint) (new : Bool) : Option ℕ := (if new then ep.newRing else ep.ring).map Ring.id

def Host.hold (h : Host) (place : Fin 256 × ℕ × Bool) : Option ℕ :=
  (h.devs place.1).bind fun dev => (dev.eps place.2.1).hold place.2.2

/-- Slot 0 is reserved. Endpoint 0 has a ring as long as there is a device, and is never
    given a new one. -/
structure Inv (h : Host) : Prop where
  sound : Sound h.hold h.next h.freed
  ep0 : ∀ {slot dev}, h.devs slot = some dev → slot ≠ 0 ∧ (dev.eps 0).ring.isSome ∧ (dev.eps 0).newRing = none

section Kept
variable {h after : Host} {slot : Fin 256} {dev dev' : Device}

theorem hold_found (found : h.devs slot = some dev) (i : ℕ) (new : Bool) : h.hold (slot, i, new) = (dev.eps i).hold new := by
  unfold Host.hold
  rw [found]
  rfl

theorem hold_same (devs : after.devs = Function.update h.devs slot (some dev')) (i : ℕ) (new : Bool) :
    after.hold (slot, i, new) = (dev'.eps i).hold new := by
  refine hold_found ?_ i new
  rw [devs, Function.update_self]

theorem hold_other {found : Option Device} (devs : after.devs = Function.update h.devs slot found) {place : Fin 256 × ℕ × Bool}
    (other : place.1 ≠ slot) : after.hold place = h.hold place := by
  unfold Host.hold
  rw [devs, Function.update_of_ne other]

theorem Inv.ep0_update (inv : Inv h) (slot : Fin 256) (devs : after.devs = Function.update h.devs slot (some dev'))
    (zero : slot ≠ 0 ∧ (dev'.eps 0).ring.isSome ∧ (dev'.eps 0).newRing = none) {slot' : Fin 256} {found : Device}
    (now : after.devs slot' = some found) : slot' ≠ 0 ∧ (found.eps 0).ring.isSome ∧ (found.eps 0).newRing = none := by
  rw [devs] at now
  by_cases same : slot' = slot
  · subst same
    rw [Function.update_self] at now
    rw [← Option.some.inj now]
    exact zero
  · rw [Function.update_of_ne same] at now
    exact inv.ep0 now

/-- Only flags and parameters change. -/
theorem Inv.same (inv : Inv h) (found : h.devs slot = some dev) (devs : after.devs = Function.update h.devs slot (some dev'))
    (rings : ∀ i, (dev'.eps i).ring = (dev.eps i).ring ∧ (dev'.eps i).newRing = (dev.eps i).newRing)
    (next : after.next = h.next) (freed : after.freed = h.freed) : Inv after := by
  have same : after.hold = h.hold := by
    funext ⟨slot', i, new⟩
    by_cases here : slot' = slot
    · subst here
      rw [hold_same devs, hold_found found]
      unfold Endpoint.hold
      rw [(rings i).1, (rings i).2]
    · exact hold_other devs here
  constructor
  · rw [same, next, freed]
    exact inv.sound
  · intro slot' found' now
    refine inv.ep0_update slot devs ?_ now
    rw [(rings 0).1, (rings 0).2]
    exact inv.ep0 found

/-- Every visit of a loop over the endpoints frees the ring in one kind of place, if any,
    and what it leaves at a place comes from its origin. -/
structure Visits (visit : ℕ → Endpoint → Endpoint × List ℕ) (which : Bool) (origin : Endpoint → Bool → Bool) : Prop where
  gone : ∀ {i ep b}, b ∈ (visit i ep).2 → (visit i ep).2 = [b] ∧ ep.hold which = some b
  kept : ∀ {i ep new b}, (visit i ep).1.hold new = some b → ep.hold (origin ep new) = some b
  freed : ∀ {i ep new b}, (visit i ep).1.hold new = some b → (visit i ep).2 = [] ∨ origin ep new ≠ which
  apart : ∀ {i ep new new' b b'}, (visit i ep).1.hold new = some b → (visit i ep).1.hold new' = some b' →
    origin ep new = origin ep new' → new = new'

/-- The places after a loop over the endpoints of a device. -/
theorem Sound.swept (sound : Sound h.hold h.next h.freed) (found : h.devs slot = some dev) {order : List ℕ} (distinct : order.Nodup)
    {visit : ℕ → Endpoint → Endpoint × List ℕ} {which : Bool} {origin : Endpoint → Bool → Bool} (visits : Visits visit which origin)
    (dev' : Device) (devs : after.devs = Function.update h.devs slot (some dev')) (eps : dev'.eps = (sweep visit order dev.eps h.freed).1)
    (next : after.next = h.next) (freed : after.freed = (sweep visit order dev.eps h.freed).2) :
    Sound after.hold after.next after.freed := by
  have source : ∀ {i b}, b ∈ (visit i (dev.eps i)).2 → (visit i (dev.eps i)).2 = [b] ∧ h.hold (slot, i, which) = some b := by
    intro i b gone
    rw [hold_found found]
    exact visits.gone gone
  have held : ∀ {b}, b ∈ order.flatMap (fun i => (visit i (dev.eps i)).2) → ∃ i, b ∈ (visit i (dev.eps i)).2 := by
    intro b listed
    obtain ⟨i, -, gone⟩ := List.mem_flatMap.mp listed
    exact ⟨i, gone⟩
  rw [next, freed, sweep_log _ _ distinct]
  refine sound.relocate _
    (fun place => if place.1 = slot ∧ place.2.1 ∈ order then (slot, place.2.1, origin (dev.eps place.2.1) place.2.2) else place)
    ?_ ?_ (sound.gone_nodup distinct (fun i => (slot, i, which)) ?_ source) ?_
  · rintro ⟨slot', i, new⟩ b now
    by_cases here : slot' = slot
    · subst here
      rw [hold_same devs, eps, sweep_slot _ _ distinct] at now
      by_cases listed : i ∈ order
      · rw [if_pos listed] at now
        rw [if_pos ⟨rfl, listed⟩, hold_found found]
        refine ⟨visits.kept now, ?_⟩
        intro gone
        obtain ⟨j, inVisit⟩ := held gone
        have was : h.hold (slot', i, origin (dev.eps i) new) = some b := (hold_found found ..).trans (visits.kept now)
        have place := sound.one was (source inVisit).2
        obtain ⟨rfl, same⟩ : i = j ∧ origin (dev.eps i) new = which := by simpa using place
        rcases visits.freed now with none | different
        · rw [none] at inVisit
          exact absurd inVisit List.not_mem_nil
        · exact different same
      · rw [if_neg listed] at now
        rw [if_neg (fun all => listed all.2), hold_found found]
        refine ⟨now, ?_⟩
        intro gone
        obtain ⟨j, onList, inVisit⟩ := List.mem_flatMap.mp gone
        have was : h.hold (slot', i, new) = some b := (hold_found found ..).trans now
        have place := sound.one was (source inVisit).2
        obtain ⟨rfl, -⟩ : i = j ∧ new = which := by simpa using place
        exact listed onList
    · rw [hold_other devs here] at now
      rw [if_neg (fun all => here all.1)]
      refine ⟨now, ?_⟩
      intro gone
      obtain ⟨j, inVisit⟩ := held gone
      have place := sound.one now (source inVisit).2
      exact here (congrArg Prod.fst place)
  · rintro ⟨slot₁, i, new⟩ ⟨slot₂, j, new'⟩ b first second same
    dsimp only at same
    by_cases here₁ : slot₁ = slot ∧ i ∈ order
    · by_cases here₂ : slot₂ = slot ∧ j ∈ order
      · rw [if_pos here₁, if_pos here₂] at same
        obtain ⟨rfl, listed⟩ := here₁
        obtain ⟨rfl, -⟩ := here₂
        obtain ⟨rfl, origins⟩ : i = j ∧ origin (dev.eps i) new = origin (dev.eps j) new' := by simpa using same
        rw [hold_same devs, eps, sweep_slot _ _ distinct, if_pos listed] at first second
        rw [visits.apart first second origins]
      · rw [if_pos here₁, if_neg here₂] at same
        obtain ⟨rfl, rfl, -⟩ : slot = slot₂ ∧ i = j ∧ origin (dev.eps i) new = new' := by simpa using same
        exact absurd ⟨rfl, here₁.2⟩ here₂
    · by_cases here₂ : slot₂ = slot ∧ j ∈ order
      · rw [if_neg here₁, if_pos here₂] at same
        obtain ⟨rfl, rfl, -⟩ : slot₁ = slot ∧ i = j ∧ new = origin (dev.eps j) new' := by simpa using same
        exact absurd ⟨rfl, here₂.2⟩ here₁
      · rwa [if_neg here₁, if_neg here₂] at same
  · intro i j same
    simpa using same
  · intro b listed
    obtain ⟨i, gone⟩ := held listed
    exact ⟨_, (source gone).2⟩

end Kept

theorem visits_freeRing (guard : ℕ → Endpoint → Bool) :
    Visits (fun i ep => if guard i ep then ep.freeRing else (ep, [])) false (fun _ new => new) where
  gone {i ep b} listed := by
    by_cases frees : guard i ep = true
    · rw [if_pos frees] at listed ⊢
      unfold Endpoint.freeRing at listed ⊢
      unfold Endpoint.hold
      cases held : ep.ring with
      | none => simp [held] at listed
      | some ring =>
        rw [held] at listed
        obtain rfl := List.mem_singleton.mp listed
        exact ⟨rfl, rfl⟩
    · rw [if_neg frees] at listed
      exact absurd listed List.not_mem_nil
  kept {i ep new b} now := by
    by_cases frees : guard i ep = true
    · rw [if_pos frees] at now
      cases new with
      | false => cases now
      | true => exact now
    · rwa [if_neg frees] at now
  freed {i ep new b} now := by
    by_cases frees : guard i ep = true
    · rw [if_pos frees] at now
      cases new with
      | false => cases now
      | true => exact .inr Bool.noConfusion
    · rw [if_neg frees]
      exact .inl rfl
  apart _ _ same := same

theorem visits_freeDropped (inCtx : InputContext) : Visits (freeDropped inCtx) false (fun _ new => new) := by
  have same : freeDropped inCtx = fun i ep =>
      if decide (inCtx.dropFlags &&& flag i ≠ 0 ∧ inCtx.addFlags &&& flag i = 0) then ep.freeRing else (ep, []) := by
    funext i ep
    simp only [freeDropped, decide_eq_true_eq]
  rw [same]
  exact visits_freeRing fun i _ => decide (inCtx.dropFlags &&& flag i ≠ 0 ∧ inCtx.addFlags &&& flag i = 0)

theorem visits_freeInstalled : Visits freeInstalled false (fun _ new => new) := visits_freeRing fun _ ep => ep.ring.isSome

theorem visits_freeNew : Visits freeNew true (fun _ new => new) where
  gone {i ep b} listed := by
    unfold freeNew at listed ⊢
    unfold Endpoint.hold
    cases held : ep.newRing with
    | none => simp [held] at listed
    | some ring =>
      rw [held] at listed
      obtain rfl := List.mem_singleton.mp listed
      exact ⟨rfl, rfl⟩
  kept {i ep new b} now := by
    cases new with
    | false => exact now
    | true => cases now
  freed {i ep new b} now := by
    cases new with
    | false => exact .inr Bool.noConfusion
    | true => cases now
  apart _ _ same := same

/-- An endpoint with a new ring gets its ring from there. -/
theorem visits_installNew : Visits installNew false (fun ep new => new || ep.newRing.isSome) where
  gone {i ep b} listed := by
    unfold installNew at listed ⊢
    unfold Endpoint.hold
    cases fresh : ep.newRing with
    | none => simp [fresh] at listed
    | some ring =>
      cases held : ep.ring with
      | none => simp [fresh, held] at listed
      | some old =>
        simp only [fresh, held, Option.isSome_some, if_true, Endpoint.freeRing, Option.toList_some, List.map_cons, List.map_nil,
          List.mem_singleton] at listed ⊢
        subst listed
        exact ⟨rfl, rfl⟩
  kept {i ep new b} now := by
    unfold installNew at now
    cases fresh : ep.newRing with
    | none => simpa [fresh, Endpoint.hold] using now
    | some ring =>
      cases new with
      | false => simpa [fresh, Endpoint.hold] using now
      | true => simp [fresh, Endpoint.hold] at now
  freed {i ep new b} now := by
    unfold installNew at now ⊢
    cases fresh : ep.newRing with
    | none => exact .inl rfl
    | some ring =>
      right
      simp
  apart {i ep new new' b b'} first second same := by
    unfold installNew at first second
    cases fresh : ep.newRing with
    | none => simpa [fresh] using same
    | some ring =>
      cases new <;> cases new'
      · rfl
      · simp [fresh, Endpoint.hold] at second
      · simp [fresh, Endpoint.hold] at first
      · rfl

section Steps
variable {h : Host}

theorem Inv.dropEndpoint (inv : Inv h) (caller : Caller) (goingGone : Bool) (desc : Descriptor) (disabled : Bool) :
    Inv (h.dropEndpoint caller goingGone desc disabled).1 := by
  by_cases drops : ∃ dev, Drops h caller goingGone desc disabled dev
  · obtain ⟨dev, drops⟩ := drops
    have found := (checkArgs_ok.mp drops.served).2.1
    rw [drop_eq drops]
    unfold Host.endpointZero
    by_cases isoc : desc.isoc = true
    · rw [if_pos isoc]
      exact inv.same found rfl (fun _ => ⟨rfl, rfl⟩) rfl rfl
    · rw [if_neg isoc]
      exact inv.same found rfl (fun _ => ⟨rfl, rfl⟩) rfl rfl
  · rw [drop_other (not_exists.mp drops)]
    exact inv

theorem Inv.addEndpoint (inv : Inv h) (caller : Caller) (desc : Descriptor) (allocated submitted : Bool) :
    Inv (h.addEndpoint caller desc allocated submitted).1 := by
  by_cases prepares : ∃ dev, Prepares h caller desc dev
  · obtain ⟨dev, prepares⟩ := prepares
    have found := (checkArgs_ok.mp prepares.served).2.1
    have added := add_eq prepares allocated submitted
    generalize (h.addEndpoint caller desc allocated submitted).1 = after at added ⊢
    have zero : ((dev.staged desc (if allocated then some ⟨h.next, desc.xfer⟩ else none)).eps 0) = dev.eps 0 := by
      have positive := prepares.inside.1
      rw [staged_eps, if_neg (by omega)]
    constructor
    · -- A new ring is held where it was put, or the one that was there is forgotten.
      rw [added.next, added.freed]
      have places : ∀ {place b}, after.hold place = some b → h.hold place = some b ∨
          (place = (caller.slot, desc.getEndpointIndex.toNat, true) ∧ allocated = true ∧ b = h.next) := by
        rintro ⟨slot, i, new⟩ b now
        by_cases here : slot = caller.slot
        · subst here
          rw [hold_same added.devs, staged_eps] at now
          rw [hold_found found]
          by_cases same : i = desc.getEndpointIndex.toNat
          · rw [if_pos same] at now
            cases new with
            | false => exact .inl now
            | true =>
              cases allocated with
              | false => cases now
              | true => exact .inr ⟨by rw [same], rfl, (Option.some.inj now).symm⟩
          · rw [if_neg same] at now
            exact .inl now
        · rw [hold_other added.devs here] at now
          exact .inl now
      cases allocated with
      | false =>
        refine inv.sound.move id (fun now => ?_) (fun _ _ same => same)
        rcases places now with was | ⟨-, no, -⟩
        · exact was
        · cases no
      | true =>
        refine inv.sound.allocate (caller.slot, desc.getEndpointIndex.toNat, true) (fun now => ?_)
        rcases places now with was | ⟨here, -, fresh⟩
        · exact .inl was
        · exact .inr ⟨here, fresh⟩
    · exact fun now => inv.ep0_update caller.slot added.devs (zero ▸ inv.ep0 found) now
  · rw [add_other (not_exists.mp prepares)]
    exact inv

/-- A ring that was dropped is freed, and a new ring takes the place of the old one. -/
theorem Inv.install (inv : Inv h) {slot : Fin 256} {dev : Device} (found : h.devs slot = some dev) : Inv (h.install slot dev) := by
  obtain ⟨order, same, distinct, listed⟩ := order_spec
  have zero : 0 ∉ order := fun no => absurd ((listed 0).mp no).1 (by decide)
  rw [Host.install, ← same]
  dsimp only
  generalize one : sweep (freeDropped dev.inCtx) order dev.eps h.freed = dropped
  generalize two : sweep installNew order dropped.1 dropped.2 = installed
  let middle : Host := { h.setDev slot { dev with eps := dropped.1 } with freed := dropped.2 }
  have there : middle.devs slot = some { dev with eps := dropped.1 } := Function.update_self ..
  have first : Sound middle.hold middle.next middle.freed :=
    Sound.swept inv.sound found distinct (visits_freeDropped dev.inCtx) { dev with eps := dropped.1 } rfl
      (by rw [one]) rfl (by rw [one])
  constructor
  · refine Sound.swept first there distinct visits_installNew { dev with eps := installed.1, inCtx := zeroInCtx } ?_
      (congrArg Prod.fst two).symm rfl (congrArg Prod.snd two).symm
    exact (Function.update_idem ..).symm
  · refine fun now => inv.ep0_update slot rfl ?_ now
    dsimp only
    rw [← two, sweep_slot _ _ distinct, if_neg zero, ← one, sweep_slot _ _ distinct, if_neg zero]
    exact inv.ep0 found

theorem Inv.checkBandwidth (inv : Inv h) (caller : Caller) (command : Bool) (configured : Configured) :
    Inv (h.checkBandwidth caller command configured).1 := by
  by_cases refused : (∃ ret, h.checkArgs caller = .error ret) ∨ caller.dying = true ∨ command = false
  · rw [check_refused refused]
    exact inv
  · obtain ⟨noError, alive, commanded⟩ : (¬∃ ret, h.checkArgs caller = .error ret) ∧ caller.dying = false ∧ command = true := by
      simpa [not_or] using refused
    cases served : h.checkArgs caller with
    | error ret => exact absurd ⟨ret, served⟩ noError
    | ok dev =>
      have found := (checkArgs_ok.mp served).2.1
      subst commanded
      by_cases marked : dev.Marked
      · rw [check_marked served alive configured marked]
        have sending : Inv (h.setDev caller.slot dev.ready) := inv.same found rfl (fun _ => ⟨rfl, rfl⟩) rfl rfl
        have there : (h.setDev caller.slot dev.ready).devs caller.slot = some dev.ready := Function.update_self ..
        have answered := configure_answered (h.setDev caller.slot dev.ready) dev.ready.inCtx configured
        dsimp only
        generalize (h.setDev caller.slot dev.ready).configureEndpoint dev.ready.inCtx configured = result at answered ⊢
        have still : Inv result.1 := by
          refine sending.same there ?_ (fun _ => ⟨rfl, rfl⟩) answered.next answered.freed
          rw [answered.devs, Function.update_eq_self_iff.mpr there.symm]
        by_cases failed : result.2 ≠ 0
        · rw [if_pos failed]
          exact still
        · rw [if_neg failed]
          refine still.install ?_
          rw [answered.devs]
          exact there
      · rw [check_unmarked served alive configured marked]
        exact inv.same found rfl (fun _ => ⟨rfl, rfl⟩) rfl rfl

theorem Inv.resetBandwidth (inv : Inv h) (caller : Caller) : Inv (h.resetBandwidth caller) := by
  unfold Host.resetBandwidth
  cases served : h.checkArgs caller with
  | error ret => exact inv
  | ok dev =>
    have found := (checkArgs_ok.mp served).2.1
    have distinct : (List.range 31).Nodup := List.nodup_range
    have zero : 0 ∈ List.range 31 := by decide
    generalize List.range 31 = order at distinct zero ⊢
    dsimp only
    constructor
    · exact Sound.swept inv.sound found distinct visits_freeNew _ rfl rfl rfl rfl
    · refine fun now => inv.ep0_update caller.slot rfl ?_ now
      dsimp only
      rw [sweep_slot _ _ distinct, if_pos zero]
      exact ⟨(inv.ep0 found).1, (inv.ep0 found).2.1, rfl⟩

theorem Inv.allocVirtDevice (inv : Inv h) (slot : Fin 256) (udev : ℕ) (allocated : Bool) :
    Inv (h.allocVirtDevice slot udev allocated).1 := by
  unfold Host.allocVirtDevice
  by_cases refused : slot = 0 ∨ (h.devs slot).isSome ∨ !allocated
  · rw [if_pos refused]
    exact inv
  rw [if_neg refused]
  constructor
  · refine inv.sound.allocate (slot, 0, false) ?_
    rintro ⟨slot', i, new⟩ b now
    by_cases here : slot' = slot
    · subst here
      rw [hold_same (h := h) rfl] at now
      cases new with
      | true => cases now
      | false =>
        by_cases first : i = 0
        · subst first
          exact .inr ⟨rfl, (Option.some.inj now).symm⟩
        · simp [Endpoint.hold, first] at now
    · rw [hold_other (h := h) rfl here] at now
      exact .inl now
  · exact fun now => inv.ep0_update slot rfl ⟨(not_or.mp refused).1, rfl, rfl⟩ now

theorem Inv.freeVirtDevice (inv : Inv h) (slot : Fin 256) : Inv (h.freeVirtDevice slot) := by
  unfold Host.freeVirtDevice
  cases found : h.devs slot with
  | none => exact inv
  | some dev =>
    have distinct : (List.range 31).Nodup := List.nodup_range
    generalize List.range 31 = order at distinct ⊢
    dsimp only
    generalize one : sweep freeInstalled order dev.eps h.freed = swept
    let emptied : Host := { h.setDev slot { dev with eps := swept.1 } with freed := swept.2 }
    have freed : Sound emptied.hold emptied.next emptied.freed :=
      Sound.swept inv.sound found distinct visits_freeInstalled { dev with eps := swept.1 } rfl (by rw [one]) rfl (by rw [one])
    -- Whatever the device still holds is forgotten with it.
    have gone : ∀ {place b}, Host.hold { h with devs := Function.update h.devs slot none, freed := swept.2 } place = some b →
        place.1 ≠ slot ∧ h.hold place = some b := by
      rintro ⟨slot', i, new⟩ b now
      by_cases here : slot' = slot
      · subst here
        simp [Host.hold] at now
      · rw [hold_other (h := h) rfl here] at now
        exact ⟨here, now⟩
    constructor
    · refine freed.move id (fun {place b} now => ?_) (fun _ _ same => same)
      obtain ⟨other, was⟩ := gone now
      refine Eq.trans (hold_other (h := h) rfl other) was
    · intro slot' dev' now
      by_cases here : slot' = slot
      · subst here
        simp at now
      · dsimp only at now
        rw [Function.update_of_ne here] at now
        exact inv.ep0 now

theorem Inv.discoverOrResetDevice (inv : Inv h) (caller : Caller) (slot : Fin 256) (allocated : Bool) (reset : DeviceReset) :
    Inv (h.discoverOrResetDevice caller slot allocated reset).1 := by
  unfold Host.discoverOrResetDevice
  dsimp only
  by_cases root : caller.rootHub = true
  · rw [if_pos root]
    exact inv
  rw [if_neg root]
  by_cases halted : caller.halted = true
  · rw [if_pos halted]
    exact inv
  rw [if_neg halted]
  cases found : h.devs caller.slot with
  | none => exact inv.allocVirtDevice slot caller.udev allocated
  | some dev =>
    dsimp only
    by_cases lost : dev.udev ≠ caller.udev
    · rw [if_pos lost]
      exact inv.allocVirtDevice slot caller.udev allocated
    rw [if_neg lost]
    cases reset with
    | disabled => exact inv
    | noCommand => exact inv
    | notQueued ret => exact inv
    | refused ret => exact inv
    | done =>
      obtain ⟨order, same, distinct, listed⟩ := order_spec
      have zero : 0 ∉ order := fun no => absurd ((listed 0).mp no).1 (by decide)
      rw [← same]
      dsimp only
      constructor
      · exact Sound.swept inv.sound found distinct visits_freeInstalled _ rfl rfl rfl rfl
      · refine fun now => inv.ep0_update caller.slot rfl ?_ now
        dsimp only
        rw [sweep_slot _ _ distinct, if_neg zero]
        exact inv.ep0 found

theorem Inv.transferEvent (inv : Inv h) (slot : Fin 256) (i : ℕ) (skip : Bool) : Inv (h.transferEvent slot i skip) := by
  unfold Host.transferEvent Host.modifyDev
  cases found : h.devs slot with
  | none =>
    rw [Option.map_none, ← found, Function.update_eq_self]
    exact inv
  | some dev =>
    refine inv.same found rfl (fun j => ?_) rfl rfl
    dsimp only
    by_cases same : j = i
    · subst same
      simp
    · simp [same]

theorem Inv.step (inv : Inv h) (op : Op) : Inv (step h op) := by
  cases op with
  | allocDev slot udev allocated => exact inv.allocVirtDevice slot udev allocated
  | dropEndpoint caller goingGone desc disabled => exact inv.dropEndpoint caller goingGone desc disabled
  | addEndpoint caller desc allocated submitted => exact inv.addEndpoint caller desc allocated submitted
  | checkBandwidth caller command configured => exact inv.checkBandwidth caller command configured
  | resetBandwidth caller => exact inv.resetBandwidth caller
  | discoverOrResetDevice caller slot allocated reset => exact inv.discoverOrResetDevice caller slot allocated reset
  | freeVirtDevice slot => exact inv.freeVirtDevice slot
  | transferEvent slot i skip => exact inv.transferEvent slot i skip
  | delayedStopLoopIsoch =>
    unfold EndpointConfig.step Host.delayedStopLoopIsoch
    by_cases pending : h.stopPending = true
    · rw [if_pos pending]
      exact ⟨inv.sound, inv.ep0⟩
    · rw [if_neg pending]
      exact inv

theorem reachable_inv (reachable : Reachable h) : Inv h := by
  refine Run.Reachable.invariant (P := Inv) ?_ (fun _ op inv _ => inv.step op) reachable
  rintro _ rfl
  constructor
  · constructor <;> simp [Host.initial, Host.hold]
  · intro slot dev now
    cases now

end Steps

end Ehub.EndpointConfig
