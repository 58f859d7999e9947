import Mathlib
import Ehub.Run
import Ehub.PortWrites

/-!
A USB 2.0 device that wakes up signals resume. The event that reports it
(`handle_port_status`) only notes a deadline. The hub driver asks for the port's status
until the deadline has passed; then `xhci_get_port_status` moves the port to U0, waits
for it without the lock, and tells the hub driver that the port has left suspend.

In between the wake-up must not be lost. `ehub_xhci_hub_status_data` has to report
something so that the hub is asked again, from the deadline on for the port itself, and
the bus may not be suspended.
-/
namespace Ehub.PortWake
open Ehub.Registers Ehub.Registers.Prog Ehub.PortWrites

/-! ### The changes of all ports -/

def changeMask : BitVec 32 := portCsc ||| portPec ||| portOcc ||| portPlc ||| portWrc ||| portCec

/-- What has been found at the ports so far. -/
structure Scan where
  buf : Nat → BitVec 8
  status : BitVec 32
  resetChange : Bool
  retval : Int

/-- The port is reported. -/
def Changed (hub : Hub) (bus : Bus) (i : Nat) (temp : BitVec 32) : Prop :=
  temp &&& changeMask ≠ 0 ∨ bus.portCSuspend &&& bit i ≠ 0 ∨
    bus.resumeDone i ≠ 0 ∧ timeAfterEq hub.jiffies (bus.resumeDone i)

instance decidableChanged (hub : Hub) (bus : Bus) (i : Nat) (temp : BitVec 32) : Decidable (Changed hub bus i temp) :=
  inferInstanceAs (Decidable (_ ∨ _))

/-- `buf[(i + 1) / 8] |= 1 << (i + 1) % 8`. -/
def Scan.report (scan : Scan) (i : Nat) : Scan :=
  { scan with
    buf := Function.update scan.buf ((i + 1) / 8) (scan.buf ((i + 1) / 8) ||| (1#8 <<< ((i + 1) % 8)))
    status := 1 }

def Scan.note (scan : Scan) (hub : Hub) (bus : Bus) (i : Nat) (temp : BitVec 32) : Scan :=
  let scan := if Changed hub bus i temp then scan.report i else scan
  if temp &&& portRc ≠ 0 then { scan with resetChange := true } else scan

/-- The loop of `ehub_xhci_hub_status_data`. -/
def scanPorts (hub : Hub) (bus : Bus) : Nat → Nat → Scan → PortProg Scan
  | _, 0, scan => pure scan
  | i, ports + 1, scan => do
    let temp ← readl (.portsc i)
    if temp = 0xffffffff then pure { scan with retval := -eNODEV }
    else scanPorts hub bus (i + 1) ports (scan.note hub bus i temp)

/-- What is returned, the bits of the ports, and whether the root hub is polled further. -/
structure StatusData where
  retval : Int
  buf : Nat → BitVec 8
  polls : Bool

/-- `ehub_xhci_hub_status_data`. The result of `DEVICECONTEXT_ErrorCheck` is kept in an
    unsigned variable and never taken for an error. -/
def hubStatusData (hub : Hub) (bus : Bus) : PortProg StatusData := do
  let scan ← scanPorts hub bus 0 hub.maxPorts ⟨fun _ => 0, bus.resumingPorts.setWidth 32, false, ((hub.maxPorts + 8) / 8 : Nat)⟩
  pure ⟨if scan.status = 0 then 0 else scan.retval, scan.buf, scan.status != 0 || scan.resetChange⟩

/-! ### A request that waits -/

/-- How far a request gets with the lock: it is answered, or it waits for a port of which
    `raw` was read to leave the resume state. -/
inductive Started
  | replied (reply : Reply)
  | waits (bus : Bus) (port : Nat) (raw : BitVec 32)

/-- `GetPortStatus`, with what has been found out. -/
def statusReply (bus : Bus) (status : BitVec 32) : Reply := if status = 0xffffffff then .error bus else ⟨bus, 0, some status⟩

/-- `xhci_get_port_status` up to its wait. -/
def startPortStatus (hub : Hub) (bus : Bus) (wIndex : Nat) (raw : BitVec 32) : PortProg Started :=
  let status := portChange hub.usb3 raw
  let answer (r : Bus × BitVec 32) : PortProg Started := pure (.replied (statusReply r.1 r.2))
  if raw &&& portPlsMask = xdevResume ∧ ¬devSuperspeed raw then
    if raw &&& portReset ≠ 0 ∨ raw &&& portPe = 0 then answer (bus, 0xffffffff)
    else if timeAfterEq hub.jiffies (bus.resumeDone wIndex) then do
      setLinkState wIndex xdevU0
      pure (.waits { bus with
        resumeDone := Function.update bus.resumeDone wIndex 0
        resumingPorts := clearBit wIndex bus.resumingPorts
        rexitPorts := setBit wIndex bus.rexitPorts } wIndex raw)
    else answer (reportPortStatus hub bus wIndex raw (status ||| portStatSuspend))
  else answer (reportPortStatus hub bus wIndex raw status)

/-- `xhci_get_port_status` behind its wait. -/
def endPortStatus (hub : Hub) (bus : Bus) (wIndex : Nat) (raw : BitVec 32) : PortProg Reply :=
  let status := portChange hub.usb3 raw
  let resumed := { bus with
    portCSuspend := bus.portCSuspend ||| bit wIndex
    suspendedPorts := bus.suspendedPorts &&& ~~~bit wIndex }
  let answer (r : Bus × BitVec 32) : PortProg Reply := pure (statusReply r.1 r.2)
  if hub.rexitDone then
    answer (if hub.slotId (wIndex + 1) = 0 then (bus, 0xffffffff) else reportPortStatus hub resumed wIndex raw status)
  else do
    let _ ← readl (.portsc wIndex)
    answer (reportPortStatus hub { resumed with rexitPorts := clearBit wIndex bus.rexitPorts } wIndex raw (status ||| portStatSuspend))

/-- `ehub_xhci_hub_control` up to the wait. -/
def startRequest (hub : Hub) (bus : Bus) : Request → PortProg Started
  | .getPortStatus wIndex =>
    if wIndex = 0 ∨ hub.maxPorts < wIndex.toNat then pure (.replied (.error bus))
    else do
      let port := wIndex.toNat - 1
      let temp ← readl (.portsc port)
      if temp = 0xffffffff then pure (.replied (.error bus)) else startPortStatus hub bus port temp
  | request => do
    let reply ← hubControl hub bus request
    pure (.replied reply)

/-- What is left of a request. -/
def Started.finish (hub : Hub) : Started → PortProg Reply
  | .replied reply => pure reply
  | .waits bus port raw => endPortStatus hub bus port raw

theorem getPortStatus_eq (hub : Hub) (bus : Bus) (wIndex : Nat) (raw : BitVec 32) :
    (do let r ← getPortStatus hub bus wIndex raw; pure (statusReply r.1 r.2)) =
      (do let started ← startPortStatus hub bus wIndex raw; started.finish hub : PortProg Reply) := by
  rw [getPortStatus, startPortStatus]
  dsimp only
  by_cases resuming : raw &&& portPlsMask = xdevResume ∧ ¬devSuperspeed raw
  · rw [if_pos resuming, if_pos resuming]
    split_ifs with reset passed exited gone
    · rfl
    · rw [bind_bind, bind_bind]
      congr 1
      funext u
      show pure _ = endPortStatus hub _ wIndex raw
      rw [endPortStatus, if_pos exited, if_pos gone]
    · rw [bind_bind, bind_bind]
      congr 1
      funext u
      show pure _ = endPortStatus hub _ wIndex raw
      rw [endPortStatus, if_pos exited, if_neg gone]
    · rw [bind_bind, bind_bind, bind_bind]
      congr 1
      funext u
      show _ = endPortStatus hub _ wIndex raw
      rw [endPortStatus, if_neg exited]
      rfl
    · rfl
  · rw [if_neg resuming, if_neg resuming]
    rfl

/-- A request is what it does up to its wait, and the rest. -/
theorem hubControl_eq (hub : Hub) (bus : Bus) (request : Request) :
    hubControl hub bus request = (do let started ← startRequest hub bus request; started.finish hub) := by
  cases request with
  | getPortStatus wIndex =>
    rw [hubControl, startRequest]
    split_ifs with outside
    · rfl
    · dsimp only
      rw [bind_bind]
      congr 1
      funext temp
      by_cases gone : temp = 0xffffffff
      · rw [if_pos gone, if_pos gone]
        rfl
      · rw [if_neg gone, if_neg gone, ← getPortStatus_eq]
        rfl
  | _ =>
    rw [startRequest, bind_bind]
    · exact (bind_ret _).symm
    · rintro wIndex ⟨⟩

/-! ### Runs -/

/-- The requests that wait, each with its port and what was read of it, and for every
    wake-up that no request has taken up its deadline. -/
structure State where
  bus : Bus
  waits : List (Nat × BitVec 32)
  woken : Nat → Option (BitVec 64)

inductive Op
  | start (request : Request)
  | finish (wait : Nat × BitVec 32)
  | busSuspend
  | busResume
  | portStatus (event : PortEvent)

/-- A call, when it is made and what it reads. -/
structure Call where
  hub : Hub
  reads : Reg → Nat → BitVec 32
  op : Op

def Call.result {α : Type} (call : Call) (p : PortProg α) : α := (p.run call.reads fun _ => 0).1

/-- A device signals resume, not at SuperSpeed, while the controller runs. -/
def Wakes (raw command : BitVec 32) : Prop :=
  raw ≠ -1 ∧ (raw &&& portPlc ≠ 0 ∧ raw &&& portPlsMask = xdevResume) ∧ ¬devSuperspeed raw ∧ command &&& cmdRun ≠ 0

instance decidableWakes (raw command : BitVec 32) : Decidable (Wakes raw command) := inferInstanceAs (Decidable (_ ∧ _))

/-- The event is for the port, whose device wakes up. -/
def Signals (call : Call) (event : PortEvent) (i : Nat) : Prop :=
  event.fakedPortIndex call.hub.usb3 = some i ∧ Wakes (call.reads (.portsc i) 0) (call.reads .command 0)

instance decidableSignals (call : Call) (event : PortEvent) (i : Nat) : Decidable (Signals call event i) :=
  inferInstanceAs (Decidable (_ ∧ _))

/-- `jiffies + msecs_to_jiffies(USB_RESUME_TIMEOUT)`. -/
def deadline (hub : Hub) : BitVec 64 := hub.jiffies + hub.msecsToJiffies hub.resumeTimeout

def State.step (s : State) (call : Call) : State :=
  match call.op with
  | .start request =>
    match call.result (startRequest call.hub s.bus request) with
    | .replied reply => { s with bus := reply.bus }
    | .waits bus port raw => ⟨bus, (port, raw) :: s.waits, Function.update s.woken port none⟩
  | .finish wait =>
    { s with
      bus := (call.result (endPortStatus call.hub s.bus wait.1 wait.2)).bus
      waits := s.waits.erase wait }
  | .busSuspend => { s with bus := (call.result (busSuspend call.hub s.bus)).1 }
  | .busResume => { s with bus := (call.result (busResume call.hub s.bus)).1 }
  | .portStatus event =>
    { s with
      bus := (call.result (handlePortStatus call.hub s.bus event)).1
      woken := fun i => if Signals call event i then some (deadline call.hub) else s.woken i }

/-- The arrays have room for the ports, and a request ends once. -/
def Call.Allowed (s : State) (call : Call) : Prop :=
  call.hub.maxPorts ≤ RootPorts.usbMaxChildren ∧
    match call.op with
    | .finish wait => wait ∈ s.waits
    | .portStatus event => ∀ i, event.fakedPortIndex call.hub.usb3 = some i → i < call.hub.maxPorts
    | _ => True

/-- No wake-up yet. -/
def New (s : State) : Prop := s.bus.resumingPorts = 0 ∧ s.waits = [] ∧ s.woken = fun _ => none

abbrev Reachable : State → Prop := Run.Reachable New (fun s call => call.Allowed s) State.step

/-! ### What the operations leave alone -/

/-- The wake-ups that are noted stay the same. -/
structure SameWakes (bus bus' : Bus) : Prop where
  resumingPorts : bus'.resumingPorts = bus.resumingPorts
  resumeDone : bus'.resumeDone = bus.resumeDone

theorem SameWakes.refl (bus : Bus) : SameWakes bus bus := ⟨rfl, rfl⟩

variable {reads : Reg → Nat → BitVec 32} {seen : Reg → Nat}

@[simp] theorem wp_link {i : Nat} {linkState : BitVec 32} {Q : Unit → (Reg → Nat) → Prop} :
    wp reads (fun _ => True) (setLinkState i linkState) seen Q ↔ Q () (bump seen (.portsc i)) := by
  simp [setLinkState]

@[simp] theorem wp_clearBit {i : Nat} {portBit : BitVec 32} {Q : Unit → (Reg → Nat) → Prop} :
    wp reads (fun _ => True) (testAndClearBit i portBit) seen Q ↔ Q () (bump seen (.portsc i)) := by
  simp [testAndClearBit]

theorem same_reportPortStatus (hub : Hub) (bus : Bus) (i : Nat) (raw status : BitVec 32) :
    SameWakes bus (reportPortStatus hub bus i raw status).1 := by
  rw [reportPortStatus]
  dsimp only
  split_ifs <;> exact ⟨rfl, rfl⟩

theorem same_statusReply {bus bus' : Bus} (same : SameWakes bus bus') (status : BitVec 32) :
    SameWakes bus (statusReply bus' status).bus := by
  rw [statusReply]
  split_ifs <;> exact same

theorem same_unblock {bus bus' : Bus} (i : Nat) (same : SameWakes bus bus') :
    wp reads (fun _ => True) (unblock i bus') seen fun r _ => SameWakes bus r.bus := by
  rw [unblock, wp_bind]
  exact same

theorem same_setSuspend (hub : Hub) (bus : Bus) (i : Nat) :
    wp reads (fun _ => True) (setSuspend hub bus i) seen fun r _ => SameWakes bus r.bus := by
  have same : SameWakes bus bus := .refl bus
  simp only [setSuspend, wp_ite, wp_bind, wp_readl, wp_link, wp_pure]
  split_ifs
  all_goals first | exact same | exact same_unblock i ⟨rfl, rfl⟩

theorem same_setLinkStateFeature (bus : Bus) (i : Nat) (linkState : BitVec 16) :
    wp reads (fun _ => True) (setLinkStateFeature bus i linkState) seen fun r _ => SameWakes bus r.bus := by
  have same : SameWakes bus bus := .refl bus
  simp only [setLinkStateFeature, wp_ite, wp_bind, wp_readl, wp_writel, wp_link, wp_pure, true_and]
  split_ifs
  all_goals first | exact same | exact same_unblock i ⟨rfl, rfl⟩

theorem same_setTimeout (hub : Hub) (bus : Bus) (i : Nat) (mask timeout : BitVec 32) :
    wp reads (fun _ => True) (setTimeout hub bus i mask timeout) seen fun r _ => SameWakes bus r.bus := by
  simp only [setTimeout, wp_ite, wp_bind, wp_readl, wp_writel, wp_pure, true_and]
  split_ifs
  · exact .refl bus
  · exact same_unblock i (.refl bus)

theorem same_setPortFeature (hub : Hub) (bus : Bus) (f : Feature) (wIndex : BitVec 16) :
    wp reads (fun _ => True) (setPortFeature hub bus f wIndex) seen fun r _ => SameWakes bus r.bus := by
  have same : SameWakes bus bus := .refl bus
  simp only [setPortFeature, wp_ite, wp_bind, wp_readl]
  split_ifs
  · exact same
  · exact same
  cases f with
  | suspend => exact same_setSuspend hub bus _
  | linkState => exact same_setLinkStateFeature bus _ _
  | power =>
    simp only [wp_bind, wp_writel, wp_readl, wp_ite, wp_pure, true_and]
    split_ifs
    · exact same
    · exact same_unblock _ same
  | reset | bhPortReset =>
    simp only [wp_bind, wp_writel, wp_readl, true_and]
    exact same_unblock _ same
  | remoteWakeMask =>
    simp only [setRemoteWakeMask, wp_bind, wp_readl, wp_writel, true_and]
    exact same_unblock _ same
  | u1Timeout => exact same_setTimeout hub bus _ _ _
  | u2Timeout => exact same_setTimeout hub bus _ _ _
  | _ => exact same

theorem same_clearSuspend (hub : Hub) (bus : Bus) (i : Nat) :
    wp reads (fun _ => True) (clearSuspend hub bus i) seen fun r _ => SameWakes bus r.bus := by
  simp only [clearSuspend, wp_bind, wp_readl, wp_ite, wp_link, wp_pure]
  split_ifs <;> exact ⟨rfl, rfl⟩

theorem same_clearPortFeature (hub : Hub) (bus : Bus) (f : Feature) (wIndex : BitVec 16) :
    wp reads (fun _ => True) (clearPortFeature hub bus f wIndex) seen fun r _ => SameWakes bus r.bus := by
  have same : SameWakes bus bus := .refl bus
  simp only [clearPortFeature, wp_ite, wp_bind, wp_readl]
  split_ifs
  · exact same
  · exact same
  cases f with
  | suspend => exact same_clearSuspend hub bus _
  | enable =>
    simp only [disablePort, wp_bind, wp_ite, wp_readl, wp_writel, wp_pure, true_and]
    split_ifs <;> exact same
  | power => exact ⟨trivial, same⟩
  | cConnection | cEnable | cSuspend | cOverCurrent | cReset | cBhPortReset | cPortLinkState | cPortConfigError =>
    exact ⟨trivial, ⟨rfl, rfl⟩⟩
  | _ => exact same

theorem same_readPorts {bus : Bus} (ports : Nat) {i : Nat} :
    wp reads (fun _ => True) (readPorts i ports) seen fun _ _ => SameWakes bus bus := by
  induction ports generalizing i seen with
  | zero => exact .refl bus
  | succ ports ih => exact ih

/-- A request that is answered at once leaves the wake-ups alone. -/
theorem same_hubControl (hub : Hub) (bus : Bus) {request : Request} (other : ∀ wIndex, request ≠ .getPortStatus wIndex) :
    wp reads (fun _ => True) (hubControl hub bus request) seen fun r _ => SameWakes bus r.bus := by
  have same : SameWakes bus bus := .refl bus
  cases request with
  | getHubStatus => exact same
  | getHubDescriptor wValue wLength =>
    simp only [hubControl, wp_ite, wp_bind]
    split_ifs
    · exact same
    · exact same_readPorts hub.maxPorts
    · exact same
  | getDescriptor wValue =>
    rw [hubControl, wp_pure]
    split_ifs <;> exact same
  | getPortStatus wIndex => exact absurd rfl (other wIndex)
  | setPortFeature f wIndex => exact same_setPortFeature hub bus f wIndex
  | clearPortFeature f wIndex => exact same_clearPortFeature hub bus f wIndex
  | other => exact same

theorem same_suspendPort (hub : Hub) (i : Nat) (bus : Bus) {Q : Bus → (Reg → Nat) → Prop}
    (next : ∀ bus' seen, SameWakes bus bus' → Q bus' seen) : wp reads (fun _ => True) (suspendPort hub i bus) seen Q := by
  simp only [suspendPort, wp_bind, wp_readl, wp_ite, wp_writel, wp_pure, true_and]
  split_ifs <;> exact next _ _ ⟨rfl, rfl⟩

theorem same_suspendPorts (hub : Hub) (bus : Bus) {Q : Bus → (Reg → Nat) → Prop} (next : ∀ bus' seen, SameWakes bus bus' → Q bus' seen)
    (ports : Nat) {bus' : Bus} (same : SameWakes bus bus') : wp reads (fun _ => True) (suspendPorts hub ports bus') seen Q := by
  induction ports generalizing bus' seen with
  | zero => exact next bus' seen same
  | succ ports ih =>
    rw [suspendPorts, wp_bind]
    apply same_suspendPort
    intro bus'' seen' kept
    exact ih ⟨kept.resumingPorts.trans same.resumingPorts, kept.resumeDone.trans same.resumeDone⟩

theorem same_busSuspend (hub : Hub) (bus : Bus) :
    wp reads (fun _ => True) (busSuspend hub bus) seen fun r _ => SameWakes bus r.1 := by
  rw [busSuspend]
  apply wp_branch
  · exact fun _ => .refl bus
  · intro _
    rw [wp_bind]
    apply same_suspendPorts hub bus
    · exact fun bus' seen same => ⟨same.resumingPorts, same.resumeDone⟩
    · exact ⟨rfl, rfl⟩

theorem resumePort_ends (bus : Bus) (i : Nat) {Q : Unit → (Reg → Nat) → Prop} (next : ∀ seen, Q () seen) :
    wp reads (fun _ => True) (resumePort bus i) seen Q := by
  simp only [resumePort, wp_bind, wp_readl, wp_ite, wp_link, wp_clearBit, wp_writel, true_and]
  split_ifs <;> exact next _

theorem resumePorts_ends (bus : Bus) {Q : Unit → (Reg → Nat) → Prop} (next : ∀ seen, Q () seen) (ports : Nat) :
    wp reads (fun _ => True) (resumePorts bus ports) seen Q := by
  induction ports generalizing seen with
  | zero => exact next seen
  | succ ports ih =>
    rw [resumePorts, wp_bind]
    exact resumePort_ends bus ports fun _ => ih

theorem same_busResume (hub : Hub) (bus : Bus) :
    wp reads (fun _ => True) (busResume hub bus) seen fun r _ => SameWakes bus r.1 := by
  rw [busResume]
  apply wp_branch
  · exact fun _ => .refl bus
  · intro _
    simp only [wp_bind, wp_readl, wp_writel, true_and]
    apply resumePorts_ends
    exact fun _ => ⟨rfl, rfl⟩

/-! ### The wake-ups -/

/-- The deadline of the wake-up that is noted for a port. -/
def pending (bus : Bus) (i : Nat) : Option (BitVec 64) := if bus.resumingPorts.getLsbD i then some (bus.resumeDone i) else none

theorem SameWakes.pending {bus bus' : Bus} (same : SameWakes bus bus') : pending bus' = pending bus := by
  funext i
  rw [PortWake.pending, PortWake.pending, same.resumingPorts, same.resumeDone]

/-- What a request has done when it waits for a port. -/
structure Taken (hub : Hub) (bus bus' : Bus) (port : Nat) (raw : BitVec 32) : Prop where
  passed : timeAfterEq hub.jiffies (bus.resumeDone port)
  resumingPorts : bus'.resumingPorts = clearBit port bus.resumingPorts
  resumeDone : bus'.resumeDone = Function.update bus.resumeDone port 0
  alive : raw ≠ 0xffffffff

theorem getLsbD_one_shiftLeft {w i j : Nat} (inside : j < w) : (1#w <<< i).getLsbD j = decide (j = i) := by
  rw [BitVec.getLsbD_shiftLeft, BitVec.getLsbD_one]
  by_cases here : j = i
  · simp [here]
    omega
  · simp [here]
    omega

theorem getLsbD_clearBit (bits : BitVec 64) {i j : Nat} (inside : j < 64) :
    (clearBit i bits).getLsbD j = (bits.getLsbD j && decide (j ≠ i)) := by
  rw [clearBit, BitVec.getLsbD_and, BitVec.getLsbD_not, getLsbD_one_shiftLeft inside]
  simp [inside]

theorem getLsbD_setBit (bits : BitVec 64) {i j : Nat} (inside : j < 64) :
    (setBit i bits).getLsbD j = (bits.getLsbD j || decide (j = i)) := by
  rw [setBit, BitVec.getLsbD_or, getLsbD_one_shiftLeft inside]

theorem Taken.pending {hub : Hub} {bus bus' : Bus} {port : Nat} {raw : BitVec 32} (taken : Taken hub bus bus' port raw) {i : Nat}
    (inside : i < 64) : pending bus' i = Function.update (pending bus) port none i := by
  rw [PortWake.pending, taken.resumingPorts, taken.resumeDone, getLsbD_clearBit _ inside]
  by_cases here : i = port
  · simp [here]
  · simp [here, PortWake.pending]

/-- What holds of a started request: it has left the wake-ups alone, or taken one up. -/
def Started.Fits (hub : Hub) (bus : Bus) (request : Request) : Started → Prop
  | .replied reply => SameWakes bus reply.bus
  | .waits bus' port raw => (∃ wIndex, request = .getPortStatus wIndex ∧ wIndex.toNat = port + 1) ∧ port < hub.maxPorts ∧
      Taken hub bus bus' port raw

theorem startPortStatus_fits {hub : Hub} {bus : Bus} {wIndex : BitVec 16} {port : Nat} {raw : BitVec 32} (asked : wIndex.toNat = port + 1)
    (inside : port < hub.maxPorts) (alive : raw ≠ 0xffffffff) :
    wp reads (fun _ => True) (startPortStatus hub bus port raw) seen fun started _ => started.Fits hub bus (.getPortStatus wIndex) := by
  simp only [startPortStatus, wp_ite, wp_bind, wp_link, wp_pure]
  split_ifs with resuming reset passed
  · exact same_statusReply (.refl bus) _
  · exact ⟨⟨wIndex, rfl, asked⟩, inside, ⟨passed, rfl, rfl, alive⟩⟩
  · exact same_statusReply (same_reportPortStatus hub bus port raw _) _
  · exact same_statusReply (same_reportPortStatus hub bus port raw _) _

theorem startRequest_fits (hub : Hub) (bus : Bus) (request : Request) :
    wp reads (fun _ => True) (startRequest hub bus request) seen fun started _ => started.Fits hub bus request := by
  cases request with
  | getPortStatus wIndex =>
    simp only [startRequest, wp_ite, wp_bind, wp_readl]
    split_ifs with outside dead
    · exact .refl bus
    · exact .refl bus
    · have := RootPorts.toNat_pos (not_or.mp outside).1
      exact startPortStatus_fits (by omega) (by omega) dead
  | _ =>
    rw [startRequest, wp_bind]
    · apply same_hubControl
      rintro wIndex ⟨⟩
    · rintro wIndex ⟨⟩

theorem same_endPortStatus (hub : Hub) (bus : Bus) (i : Nat) (raw : BitVec 32) :
    wp reads (fun _ => True) (endPortStatus hub bus i raw) seen fun r _ => SameWakes bus r.bus := by
  have reported (bus' : Bus) (status : BitVec 32) (same : SameWakes bus bus') :
      SameWakes bus (statusReply (reportPortStatus hub bus' i raw status).1 (reportPortStatus hub bus' i raw status).2).bus := by
    have kept := same_reportPortStatus hub bus' i raw status
    exact same_statusReply ⟨kept.resumingPorts.trans same.resumingPorts, kept.resumeDone.trans same.resumeDone⟩ _
  simp only [endPortStatus, wp_ite, wp_bind, wp_readl, wp_pure]
  split_ifs
  · exact same_statusReply (.refl bus) _
  · exact reported _ _ ⟨rfl, rfl⟩
  · exact reported _ _ ⟨rfl, rfl⟩

/-! ### What a request that has waited tells -/

/-- The reply tells that the port has left suspend. -/
def Tells (reply : Reply) : Prop := reply.retval = 0 ∧ ∃ status, reply.status = some status ∧ status.getLsbD portFeatCSuspend = true

theorem high_or {status bits : BitVec 32} (high : status.getLsbD 31 = false) (low : bits.getLsbD 31 = false) :
    (status ||| bits).getLsbD 31 = false := by
  rw [BitVec.getLsbD_or, high, low]
  rfl

theorem high_ite {c : Prop} [Decidable c] {status other : BitVec 32} (high : status.getLsbD 31 = false)
    (high' : other.getLsbD 31 = false) : (if c then other else status).getLsbD 31 = false := by
  split_ifs
  · exact high'
  · exact high

theorem high_portChange (usb3 : Bool) (raw : BitVec 32) : (portChange usb3 raw).getLsbD 31 = false := by
  have set {c : Prop} [Decidable c] {status bits : BitVec 32} (low : bits.getLsbD 31 = false) (high : status.getLsbD 31 = false) :
      (if c then status ||| bits else status).getLsbD 31 = false := high_ite high (high_or high low)
  have zero : (0 : BitVec 32).getLsbD 31 = false := rfl
  rw [portChange]
  dsimp only
  split
  · exact set (by decide) (set (by decide) (set (by decide) (set (by decide) (set (by decide) (set (by decide) (set (by decide) zero))))))
  · apply high_ite
    · exact set (by decide) (set (by decide) (set (by decide) (set (by decide) zero)))
    · exact high_or (set (by decide) (set (by decide) (set (by decide) (set (by decide) zero)))) (by decide)

theorem high_linkState (usb3 compModeQuirk : Bool) {status : BitVec 32} (raw : BitVec 32) (high : status.getLsbD 31 = false) :
    (if usb3 then hubReportUsb3LinkState compModeQuirk status raw else hubReportUsb2LinkState status raw).getLsbD 31 = false := by
  have pls : (raw &&& portPlsMask).getLsbD 31 = false := by
    rw [BitVec.getLsbD_and, show portPlsMask.getLsbD 31 = false from rfl, Bool.and_false]
  apply high_ite
  · rw [hubReportUsb2LinkState]
    exact high_ite high (high_or high (by decide))
  · rw [hubReportUsb3LinkState]
    dsimp only
    apply high_ite _ high
    apply high_ite
    · apply high_ite
      · exact high_or high pls
      · exact high_or high (high_or pls (by decide))
    · exact high_or high (high_or (high_ite pls (by decide)) (by decide))

theorem high_reportPortStatus (hub : Hub) (bus : Bus) (i : Nat) (raw : BitVec 32) {status : BitVec 32} (high : status.getLsbD 31 = false) :
    (reportPortStatus hub bus i raw status).2.getLsbD 31 = false := by
  have set {c : Prop} [Decidable c] {status bits : BitVec 32} (low : bits.getLsbD 31 = false) (high : status.getLsbD 31 = false) :
      (if c then status ||| bits else status).getLsbD 31 = false := high_ite high (high_or high low)
  have speed : (portSpeed raw).getLsbD 31 = false := by
    rw [portSpeed]
    split_ifs <;> decide
  rw [reportPortStatus]
  dsimp only
  apply set (by decide)
  apply high_linkState
  apply set
  · split <;> decide
  apply set (by decide)
  apply set (by decide)
  apply set (by decide)
  exact high_ite high (high_or (high_or high (by decide)) speed)

theorem and_bit (bits : BitVec 32) (i : Nat) : bits &&& bit i ≠ 0 ↔ bits.getLsbD i = true := by
  have at_ (j : Nat) (inside : j < 32) : (bits &&& bit i).getLsbD j = (bits.getLsbD j && decide (j = i)) := by
    rw [BitVec.getLsbD_and, bit, getLsbD_one_shiftLeft inside]
  constructor
  · intro some
    by_contra clear
    apply some
    apply BitVec.eq_of_getLsbD_eq
    intro j inside
    rw [at_ j inside]
    by_cases here : j = i
    · simpa [here] using clear
    · simp [here]
  · intro set zero
    have inside := BitVec.lt_of_getLsbD set
    simpa [set, zero] using at_ i inside

theorem bit_set (bits : BitVec 32) {i : Nat} (inside : i < 32) : (bits ||| bit i) &&& bit i ≠ 0 := by
  rw [and_bit, BitVec.getLsbD_or, bit, getLsbD_one_shiftLeft inside]
  simp

theorem reportPortStatus_tells (hub : Hub) {bus : Bus} {i : Nat} (raw : BitVec 32) {status : BitVec 32} (high : status.getLsbD 31 = false)
    (resumed : bus.portCSuspend &&& bit i ≠ 0) :
    Tells (statusReply (reportPortStatus hub bus i raw status).1 (reportPortStatus hub bus i raw status).2) := by
  have low := high_reportPortStatus hub bus i raw high
  have told : (reportPortStatus hub bus i raw status).2.getLsbD portFeatCSuspend = true := by
    have inside : i < 32 := BitVec.lt_of_getLsbD ((and_bit _ _).mp resumed)
    have again := bit_set bus.portCSuspend inside
    rw [reportPortStatus]
    dsimp only
    rw [if_pos]
    · rw [BitVec.getLsbD_or, show (bit portFeatCSuspend).getLsbD portFeatCSuspend = true from rfl, Bool.or_true]
    · split_ifs <;> assumption
  rw [statusReply, if_neg]
  · exact ⟨rfl, _, rfl, told⟩
  · intro all
    rw [all] at low
    exact absurd low (by decide)

/-- The hub driver is told, unless there is no device at the port any more. -/
theorem endPortStatus_tells (hub : Hub) (bus : Bus) {i : Nat} (raw : BitVec 32) (inside : i < 32) :
    wp reads (fun _ => True) (endPortStatus hub bus i raw) seen fun r _ => Tells r ∨ hub.slotId (i + 1) = 0 := by
  have high := high_portChange hub.usb3 raw
  have resumed := bit_set bus.portCSuspend inside
  simp only [endPortStatus, wp_ite, wp_bind, wp_readl, wp_pure]
  split_ifs with exited gone
  · exact .inr gone
  · exact .inl (reportPortStatus_tells hub raw high resumed)
  · exact .inl (reportPortStatus_tells hub raw (high_or high (by decide)) resumed)

/-! ### Events -/

theorem handlePort_other (hub : Hub) (bus : Bus) (i : Nat) (other : ¬Wakes (reads (.portsc i) 0) (reads .command 0)) :
    wp reads (fun _ => True) (handlePort hub bus i) (fun _ => 0) fun r _ => SameWakes bus r.1 := by
  have zero : bump (fun _ => 0) (.portsc i) Reg.command = 0 := bump_other nofun
  simp only [handlePort, wp_bind, wp_readl, wp_ite, wp_pure, wp_clearBit, wp_link, decide_eq_true_eq, zero]
  split_ifs
  all_goals first | exact ⟨rfl, rfl⟩ | exact absurd (by simp_all [Wakes]) other

theorem handlePort_wakes (hub : Hub) (bus : Bus) (i : Nat) (wakes : Wakes (reads (.portsc i) 0) (reads .command 0)) :
    wp reads (fun _ => True) (handlePort hub bus i) (fun _ => 0) fun r _ =>
      r.1.resumingPorts = setBit i bus.resumingPorts ∧ r.1.resumeDone = Function.update bus.resumeDone i (deadline hub) := by
  obtain ⟨alive, resuming, slower, runs⟩ := wakes
  have zero : bump (fun _ => 0) (.portsc i) Reg.command = 0 := bump_other nofun
  have running : (reads .command 0 &&& cmdRun == 0) = false := beq_false_of_ne runs
  simp only [handlePort, wp_bind, wp_readl, wp_ite, wp_pure, wp_clearBit, wp_link, decide_eq_true_eq, zero, alive, resuming, slower,
    running, Bool.false_eq_true, ne_eq, not_false_eq_true, and_true, true_and, and_false, false_and, if_true, if_false]
  split_ifs <;> rfl

/-- An event notes the wake-up that it reports, and nothing else. -/
theorem pending_handlePortStatus (call : Call) (bus : Bus) (event : PortEvent) {i : Nat} (inside : i < 64) :
    pending (call.result (handlePortStatus call.hub bus event)).1 i =
      if Signals call event i then some (deadline call.hub) else pending bus i := by
  rw [handlePortStatus]
  cases port : event.fakedPortIndex call.hub.usb3 with
  | none =>
    rw [if_neg]
    · rfl
    · simp [Signals, port]
  | some j =>
    by_cases wakes : Wakes (call.reads (.portsc j) 0) (call.reads .command 0)
    · obtain ⟨resuming, done⟩ := ((wp_iff _ _ _).mp (handlePort_wakes call.hub bus j wakes)).2
      rw [pending, show (call.result (handlePort call.hub bus j)).1.resumingPorts = _ from resuming,
        show (call.result (handlePort call.hub bus j)).1.resumeDone = _ from done, getLsbD_setBit _ inside]
      by_cases here : i = j
      · obtain rfl := here
        have signals : Signals call event i := ⟨port, wakes⟩
        simp [signals]
      · have silent : ¬Signals call event i := by
          rintro ⟨eq, -⟩
          exact here (Option.some.inj (port.symm.trans eq)).symm
        simp [here, silent, pending]
    · have same := ((wp_iff _ _ _).mp (handlePort_other call.hub bus j wakes)).2
      rw [if_neg]
      · exact congrFun same.pending i
      · rintro ⟨eq, here⟩
        obtain rfl : j = i := Option.some.inj (port.symm.trans eq)
        exact wakes here

/-! ### What is reported -/

/-- The bit of a port is set. -/
def Marked (buf : Nat → BitVec 8) (i : Nat) : Prop := (buf ((i + 1) / 8)).getLsbD ((i + 1) % 8) = true

theorem marked_report (scan : Scan) (i : Nat) : Marked (scan.report i).buf i := by
  have inside : (i + 1) % 8 < 8 := Nat.mod_lt _ (by decide)
  simp [Marked, Scan.report, getLsbD_one_shiftLeft inside]

theorem Marked.report {scan : Scan} {i : Nat} (marked : Marked scan.buf i) (j : Nat) : Marked (scan.report j).buf i := by
  rw [Marked] at marked
  by_cases here : (i + 1) / 8 = (j + 1) / 8
  · simp [Marked, Scan.report, ← here, marked]
  · simp [Marked, Scan.report, here, marked]

theorem Marked.note {scan : Scan} {i : Nat} (marked : Marked scan.buf i) (hub : Hub) (bus : Bus) (j : Nat) (temp : BitVec 32) :
    Marked (scan.note hub bus j temp).buf i := by
  rw [Scan.note]
  split_ifs
  · exact marked.report j
  · exact marked
  · exact marked.report j
  · exact marked

theorem marked_note {hub : Hub} {bus : Bus} {i : Nat} {temp : BitVec 32} (changed : Changed hub bus i temp) (scan : Scan) :
    Marked (scan.note hub bus i temp).buf i := by
  rw [Scan.note, if_pos changed]
  split_ifs <;> exact marked_report scan i

theorem note_status {scan : Scan} (some : scan.status ≠ 0) (hub : Hub) (bus : Bus) (i : Nat) (temp : BitVec 32) :
    (scan.note hub bus i temp).status ≠ 0 ∧ (scan.note hub bus i temp).retval = scan.retval := by
  rw [Scan.note]
  split_ifs
  · exact ⟨(by decide : (1 : BitVec 32) ≠ 0), rfl⟩
  · exact ⟨some, rfl⟩
  · exact ⟨(by decide : (1 : BitVec 32) ≠ 0), rfl⟩
  · exact ⟨some, rfl⟩

/-- Something stays to be reported. -/
theorem scanPorts_status (reads : Reg → Nat → BitVec 32) (hub : Hub) (bus : Bus) (ports : Nat) : ∀ (i : Nat) (scan : Scan) (seen : Reg → Nat), scan.status ≠ 0 →
    scan.retval ≠ 0 → wp reads (fun _ => True) (scanPorts hub bus i ports scan) seen fun r _ => r.status ≠ 0 ∧ r.retval ≠ 0 := by
  induction ports with
  | zero => exact fun _ _ _ some value => ⟨some, value⟩
  | succ ports ih =>
    intro i scan seen some value
    rw [scanPorts, wp_bind, wp_readl]
    apply wp_branch
    · exact fun _ => ⟨some, (by decide : -eNODEV ≠ 0)⟩
    · intro _
      obtain ⟨status, same⟩ := note_status some hub bus i (reads (.portsc i) (seen (.portsc i)))
      exact ih _ _ _ status (same ▸ value)

theorem scanPorts_keeps (hub : Hub) (bus : Bus) {j : Nat} (ports : Nat) : ∀ (i : Nat) (scan : Scan) (seen : Reg → Nat),
    Marked scan.buf j → wp reads (fun _ => True) (scanPorts hub bus i ports scan) seen fun r _ => Marked r.buf j := by
  induction ports with
  | zero => exact fun _ _ _ marked => marked
  | succ ports ih =>
    intro i scan seen marked
    rw [scanPorts, wp_bind, wp_readl]
    apply wp_branch
    · exact fun _ => marked
    · exact fun _ => ih _ _ _ (marked.note hub bus i _)

/-- A port whose deadline has passed is marked, unless the registers can not be read. -/
theorem scanPorts_marks {hub : Hub} {bus : Bus} {j : Nat} (passed : ∀ temp, Changed hub bus j temp) (ports : Nat) :
    ∀ (i : Nat) (scan : Scan) (seen : Reg → Nat), i ≤ j → j < i + ports → (∀ k, i ≤ k → seen (.portsc k) = 0) →
      (∀ k ≤ j, reads (.portsc k) 0 ≠ 0xffffffff) →
      wp reads (fun _ => True) (scanPorts hub bus i ports scan) seen fun r _ => Marked r.buf j := by
  induction ports with
  | zero => exact fun i scan seen low high => absurd high (by omega)
  | succ ports ih =>
    intro i scan seen low high fresh alive
    rw [scanPorts, wp_bind, wp_readl, fresh i le_rfl, wp_ite, if_neg (alive i low)]
    by_cases here : i = j
    · obtain rfl := here
      exact scanPorts_keeps hub bus ports _ _ _ (marked_note (passed _) scan)
    · apply ih
      · omega
      · omega
      · intro k above
        rw [bump_other, fresh k (by omega)]
        simp
        omega
      · exact alive

/-- A wake-up that is noted is reported: something has changed, the root hub is polled
    further, and from the deadline on the port is marked. -/
theorem hubStatusData_reports {hub : Hub} {bus : Bus} {i : Nat} {d : BitVec 64} (noted : pending bus i = some d) (inside : i < hub.maxPorts)
    (ports : hub.maxPorts ≤ RootPorts.usbMaxChildren) :
    wp reads (fun _ => True) (hubStatusData hub bus) (fun _ => 0) fun r _ => r.retval ≠ 0 ∧ r.polls = true ∧
      (d ≠ 0 → timeAfterEq hub.jiffies d → (∀ j ≤ i, reads (.portsc j) 0 ≠ 0xffffffff) → Marked r.buf i) := by
  rw [pending] at noted
  split_ifs at noted with resuming
  obtain rfl := Option.some.inj noted
  have some : bus.resumingPorts.setWidth 32 ≠ 0 := by
    intro zero
    have clear := congrArg (·.getLsbD i) zero
    have small : i < 32 := by
      rw [RootPorts.usbMaxChildren] at ports
      omega
    simp [small, resuming] at clear
  have size : (((hub.maxPorts + 8) / 8 : Nat) : Int) ≠ 0 := by omega
  rw [hubStatusData, wp_bind]
  have status := (wp_iff _ _ _).mp (scanPorts_status reads hub bus hub.maxPorts 0
    ⟨fun _ => 0, bus.resumingPorts.setWidth 32, false, ((hub.maxPorts + 8) / 8 : Nat)⟩ (fun _ => 0) some size)
  rw [wp_iff, wp_pure]
  refine ⟨fun _ _ => trivial, ?_, ?_, ?_⟩
  · rw [if_neg status.2.1]
    exact status.2.2
  · rw [Bool.or_eq_true, bne_iff_ne]
    exact .inl status.2.1
  · intro later passed alive
    have changed (temp : BitVec 32) : Changed hub bus i temp := .inr (.inr ⟨later, passed⟩)
    exact ((wp_iff _ _ _).mp (scanPorts_marks changed hub.maxPorts 0 _ _ i.zero_le (by omega) (fun _ _ => rfl) alive)).2

/-! ### No wake-up is lost -/

/-- The wake-ups are those that are noted, and they and the requests that wait are for ports
    that there are. -/
structure Inv (s : State) : Prop where
  noted : ∀ i < 64, s.woken i = pending s.bus i
  small : ∀ i, s.woken i ≠ none → i < RootPorts.usbMaxChildren
  waits : ∀ w ∈ s.waits, w.1 < RootPorts.usbMaxChildren

theorem inv_new {s : State} (new : New s) : Inv s := by
  obtain ⟨resuming, waits, woken⟩ := new
  constructor
  · intro i _
    simp [woken, pending, resuming]
  · simp [woken]
  · simp [waits]

theorem result_of {α : Type} (call : Call) {p : PortProg α} {Q : α → Prop}
    (ends : wp call.reads (fun _ => True) p (fun _ => 0) fun a _ => Q a) : Q (call.result p) := ((wp_iff _ _ _).mp ends).2

/-- A call that leaves the wake-ups alone. -/
theorem Inv.same {s : State} (inv : Inv s) {bus : Bus} (same : SameWakes s.bus bus) {waits : List (Nat × BitVec 32)}
    (kept : ∀ w ∈ waits, w ∈ s.waits) : Inv ⟨bus, waits, s.woken⟩ := by
  constructor
  · intro i inside
    rw [same.pending]
    exact inv.noted i inside
  · exact inv.small
  · exact fun w here => inv.waits w (kept w here)

theorem Inv.step {s : State} {call : Call} (inv : Inv s) (ok : call.Allowed s) : Inv (s.step call) := by
  obtain ⟨hub, reads, op⟩ := call
  obtain ⟨ports, ok⟩ := ok
  cases op with
  | start request =>
    have fits := result_of ⟨hub, reads, .start request⟩ (startRequest_fits hub s.bus request)
    rw [State.step]
    dsimp only
    cases started : Call.result ⟨hub, reads, .start request⟩ (startRequest hub s.bus request) with
    | replied reply =>
      rw [started] at fits
      exact inv.same fits fun _ here => here
    | waits bus port raw =>
      rw [started] at fits
      obtain ⟨-, inside, taken⟩ := fits
      have small : port < RootPorts.usbMaxChildren := inside.trans_le ports
      constructor
      · intro i word
        rw [taken.pending word]
        by_cases here : i = port
        · simp [here]
        · simpa [here] using inv.noted i word
      · intro i woken
        by_cases here : i = port
        · exact here ▸ small
        · exact inv.small i (by simpa [here] using woken)
      · intro w here
        obtain rfl | before := List.mem_cons.mp here
        · exact small
        · exact inv.waits w before
  | finish wait =>
    have same := result_of ⟨hub, reads, .finish wait⟩ (same_endPortStatus hub s.bus wait.1 wait.2)
    exact inv.same same fun _ => List.mem_of_mem_erase
  | busSuspend =>
    have same := result_of ⟨hub, reads, .busSuspend⟩ (same_busSuspend hub s.bus)
    exact inv.same same fun _ here => here
  | busResume =>
    have same := result_of ⟨hub, reads, .busResume⟩ (same_busResume hub s.bus)
    exact inv.same same fun _ here => here
  | portStatus event =>
    constructor
    · intro i word
      have noted := pending_handlePortStatus ⟨hub, reads, .portStatus event⟩ s.bus event word
      rw [State.step]
      dsimp only
      rw [noted, inv.noted i word]
    · intro i woken
      rw [State.step] at woken
      dsimp only at woken
      split_ifs at woken with signals
      · exact (ok i signals.1).trans_le ports
      · exact inv.small i woken
    · exact inv.waits

theorem Reachable.inv {s : State} (reachable : Reachable s) : Inv s :=
  Run.Reachable.invariant (P := Inv) (fun _ new => inv_new new) (fun _ _ inv ok => inv.step ok) reachable

/-- What is known of the wake-up of a port that no request has taken up: it is reported, and
    it stays until a status request takes it up after its deadline. -/
structure Noted (s : State) (i : Nat) (d : BitVec 64) : Prop where
  reported : ∀ (hub : Hub) (reads : Reg → Nat → BitVec 32), i < hub.maxPorts → hub.maxPorts ≤ RootPorts.usbMaxChildren →
    wp reads (fun _ => True) (hubStatusData hub s.bus) (fun _ => 0) fun r _ => r.retval ≠ 0 ∧ r.polls = true ∧
      (d ≠ 0 → timeAfterEq hub.jiffies d → (∀ j ≤ i, reads (.portsc j) 0 ≠ 0xffffffff) → Marked r.buf i)
  stays : ∀ call : Call, (s.step call).woken i ≠ none ∨
    timeAfterEq call.hub.jiffies d ∧ (∃ wIndex, call.op = .start (.getPortStatus wIndex) ∧ wIndex.toNat = i + 1) ∧
      ∃ raw, (i, raw) ∈ (s.step call).waits

/-- A request that waits does so until it tells the hub driver that the port has left
    suspend, or finds no device at the port. -/
def Answers (s : State) (wait : Nat × BitVec 32) : Prop :=
  ∀ call : Call, wait ∈ (s.step call).waits ∨ call.op = .finish wait ∧
    (Tells (call.result (endPortStatus call.hub s.bus wait.1 wait.2)) ∨ call.hub.slotId (wait.1 + 1) = 0)

theorem Inv.stays {s : State} (inv : Inv s) {i : Nat} {d : BitVec 64} (woken : s.woken i = some d) (call : Call) :
    (s.step call).woken i ≠ none ∨
      timeAfterEq call.hub.jiffies d ∧ (∃ wIndex, call.op = .start (.getPortStatus wIndex) ∧ wIndex.toNat = i + 1) ∧
        ∃ raw, (i, raw) ∈ (s.step call).waits := by
  have still : s.woken i ≠ none := by simp [woken]
  have word : i < 64 := (inv.small i still).trans (by decide)
  have done : s.bus.resumeDone i = d := by
    have noted := (inv.noted i word).symm.trans woken
    rw [pending] at noted
    split_ifs at noted
    exact Option.some.inj noted
  obtain ⟨hub, reads, op⟩ := call
  cases op with
  | start request =>
    have fits := result_of ⟨hub, reads, .start request⟩ (startRequest_fits hub s.bus request)
    rw [State.step]
    dsimp only
    cases started : Call.result ⟨hub, reads, .start request⟩ (startRequest hub s.bus request) with
    | replied reply => exact .inl still
    | waits bus port raw =>
      rw [started] at fits
      obtain ⟨⟨wIndex, rfl, asked⟩, -, taken⟩ := fits
      by_cases here : i = port
      · obtain rfl := here
        exact .inr ⟨done ▸ taken.passed, ⟨wIndex, rfl, asked⟩, raw, List.mem_cons_self⟩
      · left
        simpa [here] using still
  | portStatus event =>
    left
    rw [State.step]
    dsimp only
    split_ifs
    · simp
    · exact still
  | _ => exact .inl still

theorem Inv.answers {s : State} (inv : Inv s) {wait : Nat × BitVec 32} (here : wait ∈ s.waits) : Answers s wait := by
  rintro ⟨hub, reads, op⟩
  cases op with
  | start request =>
    left
    rw [State.step]
    dsimp only
    split
    · exact here
    · exact List.mem_cons_of_mem _ here
  | finish wait' =>
    by_cases same : wait = wait'
    · obtain rfl := same
      have small : wait.1 < 32 := (inv.waits wait here).trans (by decide)
      exact .inr ⟨rfl, result_of ⟨hub, reads, .finish wait⟩ (endPortStatus_tells hub s.bus wait.2 small)⟩
    · exact .inl ((List.mem_erase_of_ne same).mpr here)
  | _ => exact .inl here

/-- A port is resuming exactly when a wake-up has not been taken up. -/
theorem Inv.resuming {s : State} (inv : Inv s) : s.bus.resumingPorts ≠ 0 ↔ ∃ i, s.woken i ≠ none := by
  constructor
  · intro busy
    by_contra quiet
    push Not at quiet
    apply busy
    apply BitVec.eq_of_getLsbD_eq
    intro i inside
    have noted := (inv.noted i inside).symm.trans (quiet i)
    rw [pending] at noted
    split_ifs at noted with set
    simpa using set
  · rintro ⟨i, woken⟩ zero
    apply woken
    rw [inv.noted i ((inv.small i woken).trans (by decide)), pending, zero]
    simp

theorem busSuspend_done {hub : Hub} {bus : Bus} (idle : ¬(hub.doRemoteWakeup ∧ bus.resumingPorts ≠ 0)) (reads : Reg → Nat → BitVec 32) :
    ((busSuspend hub bus).run reads fun _ => 0).1.2 = 0 := by
  have done : wp reads (fun _ => True) (busSuspend hub bus) (fun _ => 0) fun r _ => r.2 = 0 := by
    rw [busSuspend, if_neg idle, wp_bind]
    apply same_suspendPorts hub _ _ hub.maxPorts (.refl _)
    exact fun _ _ _ => rfl
  exact ((wp_iff _ _ _).mp done).2

/-- No wake-up of a USB 2.0 port is lost, in whatever order requests, suspends and events
    come, and only wake-ups keep the bus from being suspended. -/
theorem wakes_noted {s : State} (reachable : Reachable s) :
    (∀ i d, s.woken i = some d → Noted s i d) ∧ (∀ w ∈ s.waits, Answers s w) ∧
      ∀ hub : Hub, (hub.doRemoteWakeup = true ∧ (∃ i, s.woken i ≠ none) → busSuspend hub s.bus = pure (s.bus, -eBUSY)) ∧
        (¬(hub.doRemoteWakeup = true ∧ ∃ i, s.woken i ≠ none) → ∀ reads, ((busSuspend hub s.bus).run reads fun _ => 0).1.2 = 0) := by
  have inv := reachable.inv
  refine ⟨?_, fun w here => inv.answers here, fun hub => ⟨?_, ?_⟩⟩
  · intro i d woken
    have still : s.woken i ≠ none := by simp [woken]
    have noted : pending s.bus i = some d := (inv.noted i ((inv.small i still).trans (by decide))).symm.trans woken
    exact ⟨fun hub reads inside ports => hubStatusData_reports noted inside ports, inv.stays woken⟩
  · rw [← inv.resuming]
    intro busy
    rw [busSuspend, if_pos busy]
  · rw [← inv.resuming]
    exact fun idle => busSuspend_done idle

/-- A hub with one port, and the event of a device there that wakes up at the time 100. -/
def wakeUp : Call where
  hub := { onePort with jiffies := 100, msecsToJiffies := BitVec.ofNat 64 }
  reads _ _ := 0x400fe3
  op := .portStatus ⟨1 <<< 24, 1 <<< 24, [2]⟩

theorem allowed_wakeUp (s : State) : wakeUp.Allowed s := by
  refine ⟨by decide, fun i port => ?_⟩
  have zero : PortEvent.fakedPortIndex ⟨1 <<< 24, 1 <<< 24, [2]⟩ wakeUp.hub.usb3 = some 0 := by decide
  obtain rfl : 0 = i := Option.some.inj (zero.symm.trans port)
  decide

def woken : State := State.step ⟨idleBus, [], fun _ => none⟩ wakeUp

/-- A status request after the deadline, which waits. -/
def getStatus : Call where
  hub := { wakeUp.hub with jiffies := 130 }
  reads := wakeUp.reads
  op := .start (.getPortStatus 1)

theorem wakes_noted_wakeUp :
    Noted woken 0 120 ∧ (woken.step getStatus).waits = [(0, 0x400fe3)] ∧ Answers (woken.step getStatus) (0, 0x400fe3) := by
  have reported : Reachable woken := .step wakeUp (.first ⟨rfl, rfl, rfl⟩) (allowed_wakeUp _)
  have taken : Reachable (woken.step getStatus) := reported.step getStatus ⟨by decide, trivial⟩
  have waits : (woken.step getStatus).waits = [(0, 0x400fe3)] := by decide
  exact ⟨(wakes_noted reported).1 0 120 (by decide), waits, (wakes_noted taken).2.1 _ (waits ▸ List.mem_singleton_self _)⟩

end Ehub.PortWake
