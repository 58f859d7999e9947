import Mathlib
import Ehub.Registers
import Ehub.RootPorts

/-!
What is written to the PORTSC registers (`ehub_xhci_hub_control`, `ehub_xhci_bus_suspend`,
`ehub_xhci_bus_resume`, `handle_port_status`). Some bits of PORTSC hold what is written to
them, others are cleared or set by writing a one. A write takes the value read before,
keeps the bits of the first kind with `ehub_xhci_port_state_to_neutral`, and adds what the
operation is about.

One write does not: for a port that has nothing to resume `ehub_xhci_bus_resume` only
clears the bits of the read value that it names. It writes a reset, a warm reset or a link
strobe back, and for a slower port also the change of the configuration error.
-/
namespace Ehub.PortWrites
open Ehub.Registers Ehub.Registers.Prog

def ePIPE : Int := 32
def eNODEV : Int := 19
def eBUSY : Int := 16
def eSHUTDOWN : Int := 108

/-! ### The bits of PORTSC -/

def portConnect : BitVec 32 := 1 <<< 0
def portPe : BitVec 32 := 1 <<< 1
def portOc : BitVec 32 := 1 <<< 3
def portReset : BitVec 32 := 1 <<< 4
def portPlsMask : BitVec 32 := 0xf <<< 5
def xdevU0 : BitVec 32 := 0x0 <<< 5
def xdevU2 : BitVec 32 := 0x2 <<< 5
def xdevU3 : BitVec 32 := 0x3 <<< 5
def xdevResume : BitVec 32 := 0xf <<< 5
def portPower : BitVec 32 := 1 <<< 9
def devSpeedMask : BitVec 32 := 0xf <<< 10
def xdevLs : BitVec 32 := 0x2 <<< 10
def xdevHs : BitVec 32 := 0x3 <<< 10
def xdevSs : BitVec 32 := 0x4 <<< 10
def portLinkStrobe : BitVec 32 := 1 <<< 16
def portCsc : BitVec 32 := 1 <<< 17
def portPec : BitVec 32 := 1 <<< 18
def portWrc : BitVec 32 := 1 <<< 19
def portOcc : BitVec 32 := 1 <<< 20
def portRc : BitVec 32 := 1 <<< 21
def portPlc : BitVec 32 := 1 <<< 22
def portCec : BitVec 32 := 1 <<< 23
def portCas : BitVec 32 := 1 <<< 24
def portWkconnE : BitVec 32 := 1 <<< 25
def portWkdiscE : BitVec 32 := 1 <<< 26
def portWkocE : BitVec 32 := 1 <<< 27
def portWr : BitVec 32 := 1 <<< 31

def portWakeBits : BitVec 32 := portWkocE ||| portWkdiscE ||| portWkconnE
def portRwcBits : BitVec 32 := portCsc ||| portPec ||| portWrc ||| portOcc ||| portRc ||| portPlc ||| portPe

def xhciPortRo : BitVec 32 := (1 <<< 0) ||| (1 <<< 3) ||| (0xf <<< 10) ||| (1 <<< 30)
def xhciPortRws : BitVec 32 := (0xf <<< 5) ||| (1 <<< 9) ||| (0x3 <<< 14) ||| (0x7 <<< 25)
def xhciPortRw1s : BitVec 32 := 1 <<< 4
def xhciPortRw1cs : BitVec 32 := (1 <<< 1) ||| (0x7f <<< 17)
def xhciPortRw : BitVec 32 := 1 <<< 16

/-- `DEV_SUPERSPEED`. -/
def devSuperspeed (p : BitVec 32) : Prop := p &&& devSpeedMask = xdevSs

instance decidableDevSuperspeed (p : BitVec 32) : Decidable (devSuperspeed p) := inferInstanceAs (Decidable (_ = _))

/-! ### Other registers and constants -/

def portU1TimeoutMask : BitVec 32 := 0xff
def portU2TimeoutMask : BitVec 32 := 0xff <<< 8
def cmdRun : BitVec 32 := 1 <<< 0
def cmdEie : BitVec 32 := 1 <<< 2

def portFeatRemoteWakeConnect : BitVec 16 := 1 <<< 8
def portFeatRemoteWakeDisconnect : BitVec 16 := 1 <<< 9
def portFeatRemoteWakeOverCurrent : BitVec 16 := 1 <<< 10

def portStatConnection : BitVec 32 := 0x0001
def portStatEnable : BitVec 32 := 0x0002
def portStatSuspend : BitVec 32 := 0x0004
def portStatOvercurrent : BitVec 32 := 0x0008
def portStatReset : BitVec 32 := 0x0010
def portStatL1 : BitVec 32 := 0x0020
def portStatPower : BitVec 32 := 0x0100
def portStatLowSpeed : BitVec 32 := 0x0200
def portStatHighSpeed : BitVec 32 := 0x0400
def ssPortStatPower : BitVec 32 := 0x0200

def portStatCConnection : BitVec 32 := 0x0001
def portStatCEnable : BitVec 32 := 0x0002
def portStatCOvercurrent : BitVec 32 := 0x0008
def portStatCReset : BitVec 32 := 0x0010
def portStatCBhReset : BitVec 32 := 0x0020
def portStatCLinkState : BitVec 32 := 0x0040
def portStatCConfigError : BitVec 32 := 0x0080
def portFeatCSuspend : Nat := 18

def ssPortLsU3 : BitVec 16 := 0x0060
def ssPortLsSsDisabled : BitVec 16 := 0x0080
def ssPortLsRxDetect : BitVec 16 := 0x00a0
def ssPortLsSsInactive : BitVec 32 := 0x00c0
def ssPortLsCompMod : BitVec 32 := 0x0140

def dtBos : BitVec 16 := 0x0f
def dtBosSize : Int := 5
def dtUsbSsCapSize : Int := 10
def dtSsHub : BitVec 16 := 0x2a
def dtSsHubSize : BitVec 16 := 12

/-- The registers, the ports numbered as in the root hub. -/
inductive Reg
  | portsc (i : Nat)
  | portpmsc (i : Nat)
  | command
  deriving DecidableEq

/-- What a write is for. -/
inductive Purpose
  | linkState (linkState : BitVec 32)
  | remoteWakeMask
  | clearBit (portBit : BitVec 32)
  | disable
  | ssDisabled
  | power
  | reset
  | bhReset
  | timeout
  | suspend (active : Bool)
  | resume
  | irqs
  deriving DecidableEq

abbrev PortProg := Prog Reg Purpose (BitVec 32)

/-- A root hub, the time, and what is answered by the rest of the driver: the slot of the
    device at a port (0 if there is none), and whether a port leaves the resume state
    before the time is up. -/
structure Hub where
  usb3 : Bool
  maxPorts : Nat
  slotId : Nat → Nat
  rexitDone : Bool
  doRemoteWakeup : Bool
  hwAccessible : Bool
  compModeQuirk : Bool
  jiffies : BitVec 64
  msecsToJiffies : Nat → BitVec 64
  resumeTimeout : Nat

/-- `xhci_bus_state`. -/
structure Bus where
  busSuspended : BitVec 64
  nextStatechange : BitVec 64
  portCSuspend : BitVec 32
  suspendedPorts : BitVec 32
  portRemoteWakeup : BitVec 32
  resumeDone : Nat → BitVec 64
  resumingPorts : BitVec 64
  rexitPorts : BitVec 64

/-- `1 << i`. -/
def bit (i : Nat) : BitVec 32 := 1#32 <<< i

def setBit (i : Nat) (bits : BitVec 64) : BitVec 64 := bits ||| (1#64 <<< i)
def clearBit (i : Nat) (bits : BitVec 64) : BitVec 64 := bits &&& ~~~(1#64 <<< i)

/-- `time_after_eq`. -/
def timeAfterEq (a b : BitVec 64) : Prop := 0 ≤ (a - b).toInt

instance decidableTimeAfterEq (a b : BitVec 64) : Decidable (timeAfterEq a b) := inferInstanceAs (Decidable (_ ≤ _))

/-! ### Writes to one port -/

/-- `ehub_xhci_port_state_to_neutral`. -/
def portStateToNeutral (state : BitVec 32) : BitVec 32 := (state &&& xhciPortRo) ||| (state &&& xhciPortRws)

/-- `ehub_xhci_set_link_state`. -/
def setLinkState (portId : Nat) (linkState : BitVec 32) : PortProg Unit := do
  let temp ← readl (.portsc portId)
  let temp := portStateToNeutral temp
  let temp := temp &&& ~~~portPlsMask
  let temp := temp ||| (portLinkStrobe ||| linkState)
  writel (.linkState linkState) (.portsc portId) temp

/-- A bit that depends on a condition. -/
def setOrClear (c : Prop) [Decidable c] (portBit temp : BitVec 32) : BitVec 32 := if c then temp ||| portBit else temp &&& ~~~portBit

/-- `xhci_set_remote_wake_mask`. -/
def setRemoteWakeMask (portId : Nat) (wakeMask : BitVec 16) : PortProg Unit := do
  let temp ← readl (.portsc portId)
  let temp := portStateToNeutral temp
  let temp := setOrClear (wakeMask &&& portFeatRemoteWakeConnect ≠ 0) portWkconnE temp
  let temp := setOrClear (wakeMask &&& portFeatRemoteWakeDisconnect ≠ 0) portWkdiscE temp
  let temp := setOrClear (wakeMask &&& portFeatRemoteWakeOverCurrent ≠ 0) portWkocE temp
  writel .remoteWakeMask (.portsc portId) temp

/-- `ehub_xhci_test_and_clear_bit`. -/
def testAndClearBit (portId : Nat) (portBit : BitVec 32) : PortProg Unit := do
  let temp ← readl (.portsc portId)
  if temp &&& portBit ≠ 0 then
    let temp := portStateToNeutral temp
    writel (.clearBit portBit) (.portsc portId) (temp ||| portBit)
  else pure ()

/-- `xhci_disable_port`. -/
def disablePort (hub : Hub) (wIndex : Nat) (portStatus : BitVec 32) : PortProg Unit :=
  if hub.usb3 then pure ()
  else do
    writel .disable (.portsc wIndex) (portStatus ||| portPe)
    let _ ← readl (.portsc wIndex)
    pure ()

/-- The port features that are known to the root hub. -/
inductive Feature
  | enable
  | suspend
  | reset
  | power
  | linkState
  | u1Timeout
  | u2Timeout
  | remoteWakeMask
  | bhPortReset
  | cConnection
  | cEnable
  | cSuspend
  | cOverCurrent
  | cReset
  | cBhPortReset
  | cPortLinkState
  | cPortConfigError
  | other
  deriving DecidableEq

/-- The change bit of a feature. -/
def Feature.changeBit : Feature → Option (BitVec 32)
  | .cReset => some portRc
  | .cBhPortReset => some portWrc
  | .cConnection => some portCsc
  | .cOverCurrent => some portOcc
  | .cEnable => some portPec
  | .cSuspend => some portPlc
  | .cPortLinkState => some portPlc
  | .cPortConfigError => some portCec
  | _ => none

/-- `xhci_clear_port_change_bit`. -/
def clearPortChangeBit (wValue : Feature) (wIndex : Nat) (portStatus : BitVec 32) : PortProg Unit :=
  match wValue.changeBit with
  | none => pure ()
  | some status => do
    writel (.clearBit status) (.portsc wIndex) (portStatus ||| status)
    let _ ← readl (.portsc wIndex)
    pure ()

/-! ### The status of a port -/

/-- The bits of wPortChange. -/
def portChange (usb3 : Bool) (raw : BitVec 32) : BitVec 32 :=
  let status : BitVec 32 := 0
  let status := if raw &&& portCsc ≠ 0 then status ||| portStatCConnection <<< 16 else status
  let status := if raw &&& portPec ≠ 0 then status ||| portStatCEnable <<< 16 else status
  let status := if raw &&& portOcc ≠ 0 then status ||| portStatCOvercurrent <<< 16 else status
  let status := if raw &&& portRc ≠ 0 then status ||| portStatCReset <<< 16 else status
  if usb3 then
    let status := if raw &&& portPlc ≠ 0 then status ||| portStatCLinkState <<< 16 else status
    let status := if raw &&& portWrc ≠ 0 then status ||| portStatCBhReset <<< 16 else status
    if raw &&& portCec ≠ 0 then status ||| portStatCConfigError <<< 16 else status
  else if raw &&& portPlsMask = xdevU3 ∧ raw &&& portPower ≠ 0 then status ||| portStatSuspend
  else status

/-- `xhci_port_speed`. -/
def portSpeed (portStatus : BitVec 32) : BitVec 32 :=
  if portStatus &&& devSpeedMask = xdevLs then portStatLowSpeed
  else if portStatus &&& devSpeedMask = xdevHs then portStatHighSpeed
  else 0

/-- `xhci_hub_report_usb2_link_state`. -/
def hubReportUsb2LinkState (status statusReg : BitVec 32) : BitVec 32 :=
  if statusReg &&& portPlsMask = xdevU2 then status ||| portStatL1 else status

/-- `xhci_hub_report_usb3_link_state`. -/
def hubReportUsb3LinkState (compModeQuirk : Bool) (status statusReg : BitVec 32) : BitVec 32 :=
  let pls := statusReg &&& portPlsMask
  if pls = xdevResume then status
  else if statusReg &&& portCas ≠ 0 then
    let pls := if pls ≠ ssPortLsCompMod ∧ pls ≠ ssPortLsSsInactive then ssPortLsCompMod else pls
    status ||| (pls ||| portStatConnection)
  else if compModeQuirk ∧ pls = ssPortLsCompMod then status ||| (pls ||| portStatConnection)
  else status ||| pls

/-- `xhci_get_port_status` from where a resume has been dealt with. -/
def reportPortStatus (hub : Hub) (bus : Bus) (wIndex : Nat) (raw status : BitVec 32) : Bus × BitVec 32 :=
  let bus :=
    if raw &&& portPlsMask = xdevU0 ∧ raw &&& portPower ≠ 0 ∧ bus.suspendedPorts &&& bit wIndex ≠ 0 then
      { bus with
        suspendedPorts := bus.suspendedPorts &&& ~~~bit wIndex
        portCSuspend := if hub.usb3 then bus.portCSuspend else bus.portCSuspend ||| bit wIndex }
    else bus
  let status := if raw &&& portConnect ≠ 0 then status ||| portStatConnection ||| portSpeed raw else status
  let status := if raw &&& portPe ≠ 0 then status ||| portStatEnable else status
  let status := if raw &&& portOc ≠ 0 then status ||| portStatOvercurrent else status
  let status := if raw &&& portReset ≠ 0 then status ||| portStatReset else status
  let status := if raw &&& portPower ≠ 0 then status ||| (if hub.usb3 then ssPortStatPower else portStatPower) else status
  let status := if hub.usb3 then hubReportUsb3LinkState hub.compModeQuirk status raw else hubReportUsb2LinkState status raw
  (bus, if bus.portCSuspend &&& bit wIndex ≠ 0 then status ||| bit portFeatCSuspend else status)

/-- `xhci_get_port_status`. -/
def getPortStatus (hub : Hub) (bus : Bus) (wIndex : Nat) (raw : BitVec 32) : PortProg (Bus × BitVec 32) :=
  let status := portChange hub.usb3 raw
  if raw &&& portPlsMask = xdevResume ∧ ¬devSuperspeed raw then
    if raw &&& portReset ≠ 0 ∨ raw &&& portPe = 0 then pure (bus, 0xffffffff)
    else if timeAfterEq hub.jiffies (bus.resumeDone wIndex) then do
      let bus := { bus with
        resumeDone := Function.update bus.resumeDone wIndex 0
        resumingPorts := clearBit wIndex bus.resumingPorts
        rexitPorts := setBit wIndex bus.rexitPorts }
      setLinkState wIndex xdevU0
      let resumed := { bus with
        portCSuspend := bus.portCSuspend ||| bit wIndex
        suspendedPorts := bus.suspendedPorts &&& ~~~bit wIndex }
      if hub.rexitDone then
        pure (if hub.slotId (wIndex + 1) = 0 then (bus, 0xffffffff) else reportPortStatus hub resumed wIndex raw status)
      else do
        let _ ← readl (.portsc wIndex)
        pure (reportPortStatus hub { resumed with rexitPorts := clearBit wIndex bus.rexitPorts } wIndex raw
          (status ||| portStatSuspend))
    else pure (reportPortStatus hub bus wIndex raw (status ||| portStatSuspend))
  else pure (reportPortStatus hub bus wIndex raw status)

/-! ### The requests to a root hub -/

/-- The requests by `typeReq`. -/
inductive Request
  | getHubStatus
  | getHubDescriptor (wValue wLength : BitVec 16)
  | getDescriptor (wValue : BitVec 16)
  | getPortStatus (wIndex : BitVec 16)
  | setPortFeature (wValue : Feature) (wIndex : BitVec 16)
  | clearPortFeature (wValue : Feature) (wIndex : BitVec 16)
  | other

/-- What is returned, and the status of a port if it was asked for. -/
structure Reply where
  bus : Bus
  retval : Int
  status : Option (BitVec 32)

/-- The end of a request at the label `error`. -/
def Reply.error (bus : Bus) : Reply := ⟨bus, -ePIPE, none⟩

/-- The end of a request that was carried out. -/
def Reply.ok (bus : Bus) : Reply := ⟨bus, 0, none⟩

/-- The last read of a set feature request. -/
def unblock (port : Nat) (bus : Bus) : PortProg Reply := do
  let _ ← readl (.portsc port)
  pure (.ok bus)

/-- `SetPortFeature` for `USB_PORT_FEAT_SUSPEND`. -/
def setSuspend (hub : Hub) (bus : Bus) (port : Nat) : PortProg Reply := do
  let temp ← readl (.portsc port)
  if temp = 0xffffffff then pure (.error bus)
  else do
    if temp &&& portPlsMask ≠ xdevU0 then setLinkState port xdevU0 else pure ()
    let temp ← readl (.portsc port)
    if temp &&& portPe = 0 ∨ temp &&& portReset ≠ 0 ∨ xdevU3 ≤ temp &&& portPlsMask then pure (.error bus)
    else if hub.slotId (port + 1) = 0 then pure (.error bus)
    else do
      setLinkState port xdevU3
      let _ ← readl (.portsc port)
      unblock port { bus with suspendedPorts := bus.suspendedPorts ||| bit port }

/-- `SetPortFeature` for `USB_PORT_FEAT_LINK_STATE`. -/
def setLinkStateFeature (bus : Bus) (port : Nat) (linkState : BitVec 16) : PortProg Reply := do
  let temp ← readl (.portsc port)
  if temp = 0xffffffff then pure (.error bus)
  else if linkState = ssPortLsSsDisabled then do
    let temp := portStateToNeutral temp
    let temp := temp ||| (portCsc ||| portPec ||| portWrc ||| portOcc ||| portRc ||| portPlc ||| portCec)
    writel .ssDisabled (.portsc port) (temp ||| portPe)
    let _ ← readl (.portsc port)
    unblock port bus
  else if linkState = ssPortLsRxDetect then do
    setLinkState port (linkState.setWidth 32)
    let _ ← readl (.portsc port)
    unblock port bus
  else if temp &&& portPe = 0 ∨ ssPortLsU3 < linkState then pure (.error bus)
  else do
    setLinkState port (linkState.setWidth 32)
    let _ ← readl (.portsc port)
    unblock port (if linkState = ssPortLsU3 then { bus with suspendedPorts := bus.suspendedPorts ||| bit port } else bus)

/-- `SetPortFeature` for a timeout: the register PORTPMSC is written. -/
def setTimeout (hub : Hub) (bus : Bus) (port : Nat) (mask timeout : BitVec 32) : PortProg Reply :=
  if !hub.usb3 then pure (.error bus)
  else do
    let temp ← readl (.portpmsc port)
    writel .timeout (.portpmsc port) ((temp &&& ~~~mask) ||| timeout)
    unblock port bus

/-- The high byte of `wIndex` as a link state. -/
def linkStateOf (wIndex : BitVec 16) : BitVec 16 := (wIndex &&& 0xff00) >>> 3

/-- `SetPortFeature`. -/
def setPortFeature (hub : Hub) (bus : Bus) (wValue : Feature) (wIndex : BitVec 16) : PortProg Reply :=
  let wakeMask := wIndex &&& 0xff00
  let timeout : BitVec 32 := ((wIndex &&& 0xff00) >>> 8).setWidth 32
  let port1 := (wIndex &&& 0xff).toNat
  if port1 = 0 ∨ hub.maxPorts < port1 then pure (.error bus)
  else do
    let port := port1 - 1
    let temp ← readl (.portsc port)
    if temp = 0xffffffff then pure (.error bus)
    else
      let temp := portStateToNeutral temp
      match wValue with
      | .suspend => setSuspend hub bus port
      | .linkState => setLinkStateFeature bus port (linkStateOf wIndex)
      | .power => do
        writel .power (.portsc port) (temp ||| portPower)
        let temp ← readl (.portsc port)
        if temp = 0xffffffff then pure (.error bus) else unblock port bus
      | .reset => do
        writel .reset (.portsc port) (temp ||| portReset)
        let _ ← readl (.portsc port)
        unblock port bus
      | .remoteWakeMask => do
        setRemoteWakeMask port wakeMask
        let _ ← readl (.portsc port)
        unblock port bus
      | .bhPortReset => do
        writel .bhReset (.portsc port) (temp ||| portWr)
        let _ ← readl (.portsc port)
        unblock port bus
      | .u1Timeout => setTimeout hub bus port portU1TimeoutMask (timeout &&& 0xff)
      | .u2Timeout => setTimeout hub bus port portU2TimeoutMask ((timeout &&& 0xff) <<< 8)
      | _ => pure (.error bus)

/-- `ClearPortFeature` for `USB_PORT_FEAT_SUSPEND`. -/
def clearSuspend (hub : Hub) (bus : Bus) (port : Nat) : PortProg Reply := do
  let temp ← readl (.portsc port)
  let resumed := { bus with portCSuspend := bus.portCSuspend ||| bit port }
  let reply := if hub.slotId (port + 1) = 0 then Reply.error resumed else Reply.ok resumed
  if temp &&& portReset ≠ 0 then pure (.error bus)
  else if temp &&& portPlsMask = xdevU3 then
    if temp &&& portPe = 0 then pure (.error bus)
    else do
      setLinkState port xdevResume
      setLinkState port xdevU0
      pure reply
  else pure reply

/-- `ClearPortFeature`. -/
def clearPortFeature (hub : Hub) (bus : Bus) (wValue : Feature) (wIndex : BitVec 16) : PortProg Reply :=
  if wIndex = 0 ∨ hub.maxPorts < wIndex.toNat then pure (.error bus)
  else do
    let port := wIndex.toNat - 1
    let temp ← readl (.portsc port)
    if temp = 0xffffffff then pure ⟨bus, -eNODEV, none⟩
    else
      let temp := portStateToNeutral temp
      match wValue with
      | .suspend => clearSuspend hub bus port
      | .cSuspend => do
        clearPortChangeBit wValue port temp
        pure (.ok { bus with portCSuspend := bus.portCSuspend &&& ~~~bit port })
      | .cReset | .cBhPortReset | .cConnection | .cOverCurrent | .cEnable | .cPortLinkState | .cPortConfigError => do
        clearPortChangeBit wValue port temp
        pure (.ok bus)
      | .enable => do
        disablePort hub port temp
        pure (.ok bus)
      | .power => do
        writel .power (.portsc port) (temp &&& ~~~portPower)
        pure (.ok bus)
      | _ => pure (.error bus)

/-- The ports are read for the descriptor of a USB 3.0 hub. -/
def readPorts : Nat → Nat → PortProg Unit
  | _, 0 => pure ()
  | i, ports + 1 => do
    let _ ← readl (.portsc i)
    readPorts (i + 1) ports

/-- `ehub_xhci_hub_control`. -/
def hubControl (hub : Hub) (bus : Bus) : Request → PortProg Reply
  | .getHubStatus => pure (.ok bus)
  | .getHubDescriptor wValue wLength =>
    if hub.usb3 ∧ (wLength < dtSsHubSize ∨ wValue ≠ dtSsHub <<< 8) then pure (.error bus)
    else do
      if hub.usb3 then readPorts 0 hub.maxPorts else pure ()
      pure (.ok bus)
  | .getDescriptor wValue =>
    pure (if wValue &&& 0xff00 ≠ dtBos <<< 8 then .error bus else if !hub.usb3 then .error bus
      else ⟨bus, dtBosSize + dtUsbSsCapSize, none⟩)
  | .getPortStatus wIndex =>
    if wIndex = 0 ∨ hub.maxPorts < wIndex.toNat then pure (.error bus)
    else do
      let port := wIndex.toNat - 1
      let temp ← readl (.portsc port)
      if temp = 0xffffffff then pure (.error bus)
      else do
        let r ← getPortStatus hub bus port temp
        pure (if r.2 = 0xffffffff then .error r.1 else ⟨r.1, 0, some r.2⟩)
  | .setPortFeature wValue wIndex => setPortFeature hub bus wValue wIndex
  | .clearPortFeature wValue wIndex => clearPortFeature hub bus wValue wIndex
  | .other => pure (.error bus)

/-! ### Suspending and resuming the bus -/

/-- The wake bits of a port that is suspended. -/
def wakeOnSuspend (doRemoteWakeup : Bool) (t1 t2 : BitVec 32) : BitVec 32 :=
  if doRemoteWakeup then
    if t1 &&& portConnect ≠ 0 then (t2 ||| (portWkocE ||| portWkdiscE)) &&& ~~~portWkconnE
    else (t2 ||| (portWkocE ||| portWkconnE)) &&& ~~~portWkdiscE
  else t2 &&& ~~~portWakeBits

/-- A port that is enabled and in U0 is suspended. -/
def active (t1 : BitVec 32) : Bool := t1 &&& portPe != 0 && t1 &&& portPlsMask == 0

/-- The link of an active port is put to U3. -/
def suspendLink (t1 t2 : BitVec 32) : BitVec 32 :=
  if active t1 then (t2 &&& ~~~portPlsMask) ||| (portLinkStrobe ||| xdevU3) else t2

/-- One round of the loop of `ehub_xhci_bus_suspend`. -/
def suspendPort (hub : Hub) (portIndex : Nat) (bus : Bus) : PortProg Bus := do
  let t1 ← readl (.portsc portIndex)
  let t2 := suspendLink t1 (portStateToNeutral t1)
  let bus := if active t1 then { bus with busSuspended := setBit portIndex bus.busSuspended } else bus
  let t2 := wakeOnSuspend hub.doRemoteWakeup t1 t2
  if portStateToNeutral t1 ≠ t2 then do
    writel (.suspend (active t1)) (.portsc portIndex) t2
    pure bus
  else pure bus

def suspendPorts (hub : Hub) : Nat → Bus → PortProg Bus
  | 0, bus => pure bus
  | portIndex + 1, bus => do
    let bus ← suspendPort hub portIndex bus
    suspendPorts hub portIndex bus

/-- `ehub_xhci_bus_suspend`. -/
def busSuspend (hub : Hub) (bus : Bus) : PortProg (Bus × Int) :=
  if hub.doRemoteWakeup ∧ bus.resumingPorts ≠ 0 then pure (bus, -eBUSY)
  else do
    let bus ← suspendPorts hub hub.maxPorts { bus with busSuspended := 0 }
    pure ({ bus with nextStatechange := hub.jiffies + hub.msecsToJiffies 10 }, 0)

/-- One round of the loop of `ehub_xhci_bus_resume`. -/
def resumePort (bus : Bus) (portIndex : Nat) : PortProg Unit := do
  let temp ← readl (.portsc portIndex)
  let temp :=
    if devSuperspeed temp then temp &&& ~~~(portRwcBits ||| portCec ||| portWakeBits)
    else temp &&& ~~~(portRwcBits ||| portWakeBits)
  if bus.busSuspended.getLsbD portIndex ∧ temp &&& portPlsMask ≠ 0 then
    if devSuperspeed temp then do
      setLinkState portIndex xdevU0
      testAndClearBit portIndex portPlc
    else do
      setLinkState portIndex xdevResume
      setLinkState portIndex xdevU0
      testAndClearBit portIndex portPlc
  else writel .resume (.portsc portIndex) temp

def resumePorts (bus : Bus) : Nat → PortProg Unit
  | 0 => pure ()
  | portIndex + 1 => do
    resumePort bus portIndex
    resumePorts bus portIndex

/-- `ehub_xhci_bus_resume`. -/
def busResume (hub : Hub) (bus : Bus) : PortProg (Bus × Int) :=
  if !hub.hwAccessible then pure (bus, -eSHUTDOWN)
  else do
    let temp ← readl .command
    writel .irqs .command (temp &&& ~~~cmdEie)
    resumePorts bus hub.maxPorts
    let _ ← readl .command
    let temp ← readl .command
    writel .irqs .command (temp ||| cmdEie)
    let _ ← readl .command
    pure ({ bus with nextStatechange := hub.jiffies + hub.msecsToJiffies 5 }, 0)

/-! ### Port status events -/

/-- The event and what is known about the ports of the hardware. -/
structure PortEvent where
  field0 : BitVec 32
  hcsParams1 : BitVec 32
  portArray : List (BitVec 8)

/-- `GET_PORT_ID`. -/
def PortEvent.portId (event : PortEvent) : Nat := ((event.field0 >>> 24) &&& 0xff).toNat

/-- The number of the event's port in its root hub, if it has one. -/
def PortEvent.fakedPortIndex (event : PortEvent) (usb3 : Bool) : Option Nat :=
  if event.portId = 0 ∨ (RootPorts.hcsMaxPorts event.hcsParams1).toNat < event.portId then none
  else
    match event.portArray[event.portId - 1]? with
    | none => none
    | some majorRevision =>
      if majorRevision = 0 ∨ majorRevision = RootHub.duplicateEntry then none
      else RootPorts.findFakedPortnum event.portArray usb3 event.portId

/-- How an event ends: it stays on the event ring, it is taken off, or the root hub is
    polled as well. -/
inductive Handled
  | left
  | taken
  | polled

/-- `handle_port_status` for a port of the root hub. -/
def handlePort (hub : Hub) (bus : Bus) (i : Nat) : PortProg (Bus × Handled) := do
  let temp ← readl (.portsc i)
  if temp = -1 then pure (bus, .left)
  else do
    let resuming := decide (temp &&& portPlc ≠ 0 ∧ temp &&& portPlsMask = xdevResume)
    let halted ←
      if resuming then do
        let temp1 ← readl .command
        pure (temp1 &&& cmdRun == 0)
      else pure false
    if halted then pure (bus, .polled)
    else if resuming ∧ devSuperspeed temp then do
      testAndClearBit i portPlc
      setLinkState i xdevU0
      pure ({ bus with portRemoteWakeup := bus.portRemoteWakeup ||| bit i }, .taken)
    else do
      let bus :=
        if resuming then
          { bus with
            resumeDone := Function.update bus.resumeDone i (hub.jiffies + hub.msecsToJiffies hub.resumeTimeout)
            resumingPorts := setBit i bus.resumingPorts }
        else bus
      if temp &&& portPlc ≠ 0 ∧ temp &&& portPlsMask = xdevU0 ∧ devSuperspeed temp ∧
          bus.portRemoteWakeup &&& bit i ≠ 0 then do
        testAndClearBit i portPlc
        pure ({ bus with portRemoteWakeup := bus.portRemoteWakeup &&& ~~~bit i }, .taken)
      else if ¬devSuperspeed temp ∧ bus.rexitPorts.getLsbD i then
        pure ({ bus with rexitPorts := clearBit i bus.rexitPorts }, .taken)
      else do
        if !hub.usb3 then testAndClearBit i portPlc else pure ()
        pure (bus, .polled)

/-- `handle_port_status`. -/
def handlePortStatus (hub : Hub) (bus : Bus) (event : PortEvent) : PortProg (Bus × Handled) :=
  match event.fakedPortIndex hub.usb3 with
  | none => pure (bus, .taken)
  | some i => handlePort hub bus i

/-! ### What the writes are meant to do -/

/-- A one that is written to the bits of the second kind resets the port, clears a bit or
    latches the link state. -/
def portLayout : Layout 32 := ⟨xhciPortRo ||| xhciPortRws, xhciPortRw1s ||| xhciPortRw1cs ||| xhciPortRw ||| portWr⟩

def Purpose.effect : Purpose → Effect 32
  | .linkState _ => ⟨portPlsMask, portLinkStrobe⟩
  | .remoteWakeMask => ⟨portWakeBits, 0#32⟩
  | .clearBit portBit => ⟨0#32, portBit⟩
  | .disable => ⟨0#32, portPe⟩
  | .ssDisabled => ⟨0#32, portCsc ||| portPec ||| portWrc ||| portOcc ||| portRc ||| portPlc ||| portCec ||| portPe⟩
  | .power => ⟨portPower, 0#32⟩
  | .reset => ⟨0#32, portReset⟩
  | .bhReset => ⟨0#32, portWr⟩
  | .suspend true => ⟨portPlsMask ||| portWakeBits, portLinkStrobe⟩
  | .suspend false => ⟨portWakeBits, 0#32⟩
  | .resume => ⟨portWakeBits, 0#32⟩
  | .timeout => ⟨0#32, 0#32⟩
  | .irqs => ⟨0#32, 0#32⟩

/-- What setting a feature of a port is for. -/
def Feature.Sets (linkState : BitVec 16) : Feature → Purpose → Prop
  | .suspend, p => p = .linkState xdevU0 ∨ p = .linkState xdevU3
  | .linkState, p => p = if linkState = ssPortLsSsDisabled then .ssDisabled else .linkState (linkState.setWidth 32)
  | .power, p => p = .power
  | .reset, p => p = .reset
  | .remoteWakeMask, p => p = .remoteWakeMask
  | .bhPortReset, p => p = .bhReset
  | _, _ => False

/-- What clearing a feature of a port is for. -/
def Feature.Clears : Feature → Purpose → Prop
  | .suspend, p => p = .linkState xdevResume ∨ p = .linkState xdevU0
  | .enable, p => p = .disable
  | .power, p => p = .power
  | f, p => ∃ bit ∈ f.changeBit, p = .clearBit bit

/-- What a request is meant to do to the port with the given number. -/
def Request.Means : Request → Nat → Purpose → Prop
  | .getPortStatus wIndex, i, p => wIndex.toNat = i + 1 ∧ p = .linkState xdevU0
  | .setPortFeature f wIndex, i, p => (wIndex &&& 0xff).toNat = i + 1 ∧ f.Sets (linkStateOf wIndex) p
  | .clearPortFeature f wIndex, i, p => wIndex.toNat = i + 1 ∧ f.Clears p
  | _, _, _ => False

inductive Operation
  | hubControl (request : Request)
  | busSuspend
  | busResume
  | portStatus (event : PortEvent)

namespace Operation

def prog (hub : Hub) (bus : Bus) : Operation → PortProg Bus
  | .hubControl request => do
    let reply ← PortWrites.hubControl hub bus request
    pure reply.bus
  | .busSuspend => do
    let r ← PortWrites.busSuspend hub bus
    pure r.1
  | .busResume => do
    let r ← PortWrites.busResume hub bus
    pure r.1
  | .portStatus event => do
    let r ← handlePortStatus hub bus event
    pure r.1

/-- What an operation is meant to do to the port with the given number. -/
def Means (hub : Hub) : Operation → Nat → Purpose → Prop
  | .hubControl request, i, p => request.Means i p
  | .busSuspend, i, p => i < hub.maxPorts ∧ ∃ active, p = .suspend active
  | .busResume, i, p => i < hub.maxPorts ∧ p ∈ [.linkState xdevU0, .linkState xdevResume, .clearBit portPlc, .resume]
  | .portStatus event, i, p => event.fakedPortIndex hub.usb3 = some i ∧ p ∈ [.linkState xdevU0, .clearBit portPlc]

end Operation

/-- What is written to a PORTSC register is meant, and does nothing but what it is meant to. -/
def Sound (means : Nat → Purpose → Prop) (w : Write Reg Purpose (BitVec 32)) : Prop :=
  ∀ i, w.reg = .portsc i → means i w.purpose ∧ ∃ raw, w.raw = some raw ∧ portLayout.Clean w.purpose.effect raw w.value

/-- The bits with an effect that `ehub_xhci_bus_resume` writes back to a port with nothing
    to resume. -/
def writtenBack (raw : BitVec 32) : BitVec 32 :=
  if devSuperspeed raw then portReset ||| portLinkStrobe ||| portWr else portReset ||| portLinkStrobe ||| portWr ||| portCec

/-- A port that is resumed: it was suspended with the bus, and its link is not in U0. -/
def Resumed (bus : Bus) (portIndex : Nat) (raw : BitVec 32) : Prop :=
  bus.busSuspended.getLsbD portIndex = true ∧ raw &&& portPlsMask ≠ 0

instance decidableResumed (bus : Bus) (portIndex : Nat) (raw : BitVec 32) : Decidable (Resumed bus portIndex raw) :=
  inferInstanceAs (Decidable (_ ∧ _))

/-- Each port of which the bus resume first reads `raw` is resumed, or has none of these
    bits set. -/
def Operation.Settled (hub : Hub) (bus : Bus) (raw : Nat → BitVec 32) : Operation → Prop
  | .busResume => hub.hwAccessible = true → ∀ i < hub.maxPorts, Resumed bus i (raw i) ∨ raw i &&& writtenBack (raw i) = 0
  | _ => True

variable {means : Nat → Purpose → Prop} {reads : Reg → Nat → BitVec 32} {seen : Reg → Nat}

theorem neutral_eq (state : BitVec 32) : portStateToNeutral state = state &&& portLayout.kept := by
  rw [portStateToNeutral, portLayout, BitVec.and_or_distrib_left]

theorem clean_neutral (e : Effect 32) (raw : BitVec 32) : portLayout.Clean e raw (portStateToNeutral raw) := by
  rw [neutral_eq]
  exact Layout.clean_kept (by decide)

theorem sound_other {purpose : Purpose} {reg : Reg} {raw : Option (BitVec 32)} {value : BitVec 32} (ne : ∀ i, reg ≠ .portsc i) :
    Sound means ⟨purpose, reg, raw, value⟩ := fun i eq => absurd eq (ne i)

theorem sound_portsc {purpose : Purpose} {i : Nat} {raw value : BitVec 32} :
    Sound means ⟨purpose, .portsc i, some raw, value⟩ ↔ means i purpose ∧ portLayout.Clean purpose.effect raw value := by
  simp [Sound]

/-- The bits of a link state. -/
def LinkBits (linkState : BitVec 32) : Prop :=
  linkState &&& (portLayout.kept &&& ~~~portPlsMask) = 0#32 ∧ linkState &&& (portLayout.effects &&& ~~~portLinkStrobe) = 0#32

theorem clean_setLinkState {linkState raw : BitVec 32} (bits : LinkBits linkState) :
    portLayout.Clean ⟨portPlsMask, portLinkStrobe⟩ raw
      ((portStateToNeutral raw &&& ~~~portPlsMask) ||| (portLinkStrobe ||| linkState)) := by
  rw [← BitVec.or_assoc]
  apply Layout.Clean.or
  · apply Layout.Clean.or
    · exact (clean_neutral _ raw).andNot _ (by decide)
    · decide
    · decide
  · exact bits.1
  · exact bits.2

theorem wp_setLinkState {i : Nat} {linkState : BitVec 32} {Q : Unit → (Reg → Nat) → Prop} (meant : means i (.linkState linkState))
    (bits : LinkBits linkState) :
    wp reads (Sound means) (setLinkState i linkState) seen Q ↔ Q () (bump seen (.portsc i)) := by
  simp [setLinkState, sound_portsc, meant, Purpose.effect, clean_setLinkState bits]

theorem clean_set (e : Effect 32) (raw bits : BitVec 32) (changed : bits &&& (portLayout.kept &&& ~~~e.change) = 0#32)
    (triggered : bits &&& (portLayout.effects &&& ~~~e.trigger) = 0#32) : portLayout.Clean e raw (portStateToNeutral raw ||| bits) :=
  (clean_neutral e raw).or changed triggered

theorem wp_testAndClearBit {i : Nat} {portBit : BitVec 32} {Q : Unit → (Reg → Nat) → Prop} (meant : means i (.clearBit portBit))
    (changed : portBit &&& (portLayout.kept &&& ~~~0#32) = 0#32) (triggered : portBit &&& (portLayout.effects &&& ~~~portBit) = 0#32) :
    wp reads (Sound means) (testAndClearBit i portBit) seen Q ↔ Q () (bump seen (.portsc i)) := by
  have clean := clean_set ⟨0#32, portBit⟩ (reads (.portsc i) (seen (.portsc i))) portBit changed triggered
  simp [testAndClearBit, sound_portsc, meant, Purpose.effect, clean]

theorem wp_disablePort {hub : Hub} {i : Nat} {raw : BitVec 32} {Q : Unit → (Reg → Nat) → Prop} (meant : means i .disable)
    (read : last reads seen (.portsc i) = some raw) (ends : ∀ seen, Q () seen) :
    wp reads (Sound means) (disablePort hub i (portStateToNeutral raw)) seen Q := by
  have clean := clean_set ⟨0#32, portPe⟩ raw portPe (by decide) (by decide)
  simp [disablePort, read, sound_portsc, meant, Purpose.effect, clean, ends]

theorem changeBit_clean {f : Feature} {bit : BitVec 32} (changes : f.changeBit = some bit) :
    bit &&& (portLayout.kept &&& ~~~0#32) = 0#32 ∧ bit &&& (portLayout.effects &&& ~~~bit) = 0#32 := by
  cases f <;> simp only [Feature.changeBit, Option.some.injEq, reduceCtorEq] at changes <;> subst changes <;> decide

theorem wp_clearPortChangeBit {f : Feature} {i : Nat} {raw : BitVec 32} {Q : Unit → (Reg → Nat) → Prop}
    (meant : ∀ bit, f.changeBit = some bit → means i (.clearBit bit)) (read : last reads seen (.portsc i) = some raw)
    (ends : ∀ seen, Q () seen) : wp reads (Sound means) (clearPortChangeBit f i (portStateToNeutral raw)) seen Q := by
  rw [clearPortChangeBit]
  cases changes : f.changeBit with
  | none => simpa using ends seen
  | some bit =>
    obtain ⟨changed, triggered⟩ := changeBit_clean changes
    have clean := clean_set ⟨0#32, bit⟩ raw bit changed triggered
    simp [read, sound_portsc, meant bit changes, Purpose.effect, clean, ends]

theorem clean_setOrClear {e : Effect 32} {raw temp bit : BitVec 32} (clean : portLayout.Clean e raw temp) (c : Prop) [Decidable c]
    (changed : bit &&& (portLayout.kept &&& ~~~e.change) = 0#32) (triggered : bit &&& (portLayout.effects &&& ~~~e.trigger) = 0#32) :
    portLayout.Clean e raw (setOrClear c bit temp) := by
  rw [setOrClear]
  split_ifs
  · exact clean.or changed triggered
  · exact clean.andNot bit changed

theorem wp_setRemoteWakeMask {i : Nat} {wakeMask : BitVec 16} {Q : Unit → (Reg → Nat) → Prop} (meant : means i .remoteWakeMask)
    (ends : ∀ seen, Q () seen) : wp reads (Sound means) (setRemoteWakeMask i wakeMask) seen Q := by
  simp only [setRemoteWakeMask, wp_bind, wp_readl, wp_writel, last_bump, sound_portsc, Purpose.effect]
  refine ⟨⟨meant, ?_⟩, ends _⟩
  apply clean_setOrClear
  · apply clean_setOrClear
    · exact clean_setOrClear (clean_neutral _ _) _ (by decide) (by decide)
    · decide
    · decide
  · decide
  · decide

theorem linkStateOf_cases {wIndex : BitVec 16} (small : ¬ssPortLsU3 < linkStateOf wIndex) :
    linkStateOf wIndex ∈ [0x0, 0x20, 0x40, 0x60] := by
  have low : linkStateOf wIndex &&& 31#16 = 0#16 := by
    rw [linkStateOf, BitVec.ushiftRight_and_distrib, BitVec.and_assoc]
    exact BitVec.and_zero
  generalize linkStateOf wIndex = linkState at small low
  have round : linkState.toNat % 2 ^ 5 = 0 := by
    rw [← Nat.and_two_pow_sub_one_eq_mod]
    simpa using congrArg BitVec.toNat low
  have bound : linkState.toNat ≤ 96 := by simpa [ssPortLsU3, BitVec.lt_def] using small
  obtain zero | one | two | three : linkState.toNat = 0 ∨ linkState.toNat = 32 ∨ linkState.toNat = 64 ∨ linkState.toNat = 96 := by
    omega
  · simp [BitVec.eq_of_toNat_eq (y := 0#16) zero]
  · simp [BitVec.eq_of_toNat_eq (y := 32#16) one]
  · simp [BitVec.eq_of_toNat_eq (y := 64#16) two]
  · simp [BitVec.eq_of_toNat_eq (y := 96#16) three]

theorem linkBits_linkStateOf {wIndex : BitVec 16} (small : ¬ssPortLsU3 < linkStateOf wIndex) :
    LinkBits ((linkStateOf wIndex).setWidth 32) := by
  have cases := linkStateOf_cases small
  generalize linkStateOf wIndex = linkState at cases
  simp only [List.mem_cons, List.not_mem_nil, or_false] at cases
  obtain rfl | rfl | rfl | rfl := cases <;> exact ⟨by decide, by decide⟩

/-! ### The operations -/

theorem wp_getPortStatus (hub : Hub) (bus : Bus) {i : Nat} (raw : BitVec 32) (meant : means i (.linkState xdevU0)) :
    wp reads (Sound means) (getPortStatus hub bus i raw) seen fun _ _ => True := by
  have bits : LinkBits xdevU0 := ⟨by decide, by decide⟩
  simp [getPortStatus, wp_setLinkState meant bits]

theorem wp_unblock (i : Nat) (bus : Bus) : wp reads (Sound means) (unblock i bus) seen fun _ _ => True := by simp [unblock]

theorem wp_setSuspend (hub : Hub) (bus : Bus) {i : Nat} (wakes : means i (.linkState xdevU0)) (sleeps : means i (.linkState xdevU3)) :
    wp reads (Sound means) (setSuspend hub bus i) seen fun _ _ => True := by
  have awake : LinkBits xdevU0 := ⟨by decide, by decide⟩
  have asleep : LinkBits xdevU3 := ⟨by decide, by decide⟩
  simp [setSuspend, wp_setLinkState wakes awake, wp_setLinkState sleeps asleep, wp_unblock]

theorem wp_setLinkStateFeature (bus : Bus) {i : Nat} {wIndex : BitVec 16}
    (meant : ∀ p, Feature.Sets (linkStateOf wIndex) .linkState p → means i p) :
    wp reads (Sound means) (setLinkStateFeature bus i (linkStateOf wIndex)) seen fun _ _ => True := by
  have moves (enabled : linkStateOf wIndex ≠ ssPortLsSsDisabled) : means i (.linkState ((linkStateOf wIndex).setWidth 32)) :=
    meant _ (by simp [Feature.Sets, enabled])
  have known (bits : LinkBits ((linkStateOf wIndex).setWidth 32)) (enabled : linkStateOf wIndex ≠ ssPortLsSsDisabled) (bus : Bus)
      (seen : Reg → Nat) : wp reads (Sound means)
        (do setLinkState i ((linkStateOf wIndex).setWidth 32); let _ ← readl (.portsc i); unblock i bus) seen fun _ _ => True := by
    simp [wp_setLinkState (moves enabled) bits, wp_unblock]
  rw [setLinkStateFeature, wp_bind, wp_readl, wp_ite, wp_ite, wp_ite, wp_ite]
  split_ifs with dead disabled rxDetect high u3
  · trivial
  · have purpose : means i .ssDisabled := meant _ (by simp [Feature.Sets, disabled])
    have clean := clean_set Purpose.ssDisabled.effect (reads (.portsc i) (seen (.portsc i))) Purpose.ssDisabled.effect.trigger
      (by decide) (by decide)
    simpa [sound_portsc, purpose, Purpose.effect, wp_unblock, BitVec.or_assoc] using clean
  · apply known _ disabled
    rw [rxDetect]
    exact ⟨by decide, by decide⟩
  · trivial
  · exact known (linkBits_linkStateOf (not_or.mp high).2) disabled _ _
  · exact known (linkBits_linkStateOf (not_or.mp high).2) disabled _ _

theorem wp_setTimeout (hub : Hub) (bus : Bus) (i : Nat) (mask timeout : BitVec 32) :
    wp reads (Sound means) (setTimeout hub bus i mask timeout) seen fun _ _ => True := by
  simp [setTimeout, sound_other, wp_unblock]

theorem wp_setPortFeature (hub : Hub) (bus : Bus) (f : Feature) (wIndex : BitVec 16) :
    wp reads (Sound (Request.setPortFeature f wIndex).Means) (setPortFeature hub bus f wIndex) seen fun _ _ => True := by
  simp only [setPortFeature, wp_ite, wp_bind, wp_readl]
  split_ifs with outside dead
  · trivial
  · trivial
  have port : (wIndex &&& 0xff).toNat = (wIndex &&& 0xff).toNat - 1 + 1 := by omega
  have meant {p : Purpose} (sets : f.Sets (linkStateOf wIndex) p) :
      (Request.setPortFeature f wIndex).Means ((wIndex &&& 0xff).toNat - 1) p := ⟨port, sets⟩
  generalize (wIndex &&& 0xff).toNat - 1 = i at meant
  cases f with
  | suspend => exact wp_setSuspend hub bus (meant (.inl rfl)) (meant (.inr rfl))
  | linkState => exact wp_setLinkStateFeature bus fun p sets => meant sets
  | power =>
    have clean := clean_set ⟨portPower, 0#32⟩ (reads (.portsc i) (seen (.portsc i))) portPower (by decide) (by decide)
    simp [sound_portsc, meant rfl, Purpose.effect, clean, wp_unblock]
  | reset =>
    have clean := clean_set ⟨0#32, portReset⟩ (reads (.portsc i) (seen (.portsc i))) portReset (by decide) (by decide)
    simp [sound_portsc, meant rfl, Purpose.effect, clean, wp_unblock]
  | bhPortReset =>
    have clean := clean_set ⟨0#32, portWr⟩ (reads (.portsc i) (seen (.portsc i))) portWr (by decide) (by decide)
    simp [sound_portsc, meant rfl, Purpose.effect, clean, wp_unblock]
  | remoteWakeMask =>
    rw [wp_bind]
    apply wp_setRemoteWakeMask (meant rfl)
    simp [wp_unblock]
  | u1Timeout => exact wp_setTimeout hub bus i _ _
  | u2Timeout => exact wp_setTimeout hub bus i _ _
  | _ => trivial

theorem wp_clearSuspend (hub : Hub) (bus : Bus) {i : Nat} (resumes : means i (.linkState xdevResume)) (wakes : means i (.linkState xdevU0)) :
    wp reads (Sound means) (clearSuspend hub bus i) seen fun _ _ => True := by
  have resuming : LinkBits xdevResume := ⟨by decide, by decide⟩
  have awake : LinkBits xdevU0 := ⟨by decide, by decide⟩
  simp [clearSuspend, wp_setLinkState resumes resuming, wp_setLinkState wakes awake]

theorem wp_clearPortFeature (hub : Hub) (bus : Bus) (f : Feature) (wIndex : BitVec 16) :
    wp reads (Sound (Request.clearPortFeature f wIndex).Means) (clearPortFeature hub bus f wIndex) seen fun _ _ => True := by
  simp only [clearPortFeature, wp_ite, wp_bind, wp_readl]
  split_ifs with outside dead
  · trivial
  · trivial
  have inside : wIndex.toNat = wIndex.toNat - 1 + 1 := by
    have := RootPorts.toNat_pos (not_or.mp outside).1
    omega
  have meant {p : Purpose} (clears : f.Clears p) : (Request.clearPortFeature f wIndex).Means (wIndex.toNat - 1) p := ⟨inside, clears⟩
  generalize wIndex.toNat - 1 = i at meant
  have read : last reads (bump seen (.portsc i)) (.portsc i) = some (reads (.portsc i) (seen (.portsc i))) := last_bump _
  cases f with
  | suspend => exact wp_clearSuspend hub bus (meant (.inl rfl)) (meant (.inr rfl))
  | enable =>
    rw [wp_bind]
    exact wp_disablePort (meant rfl) read fun _ => trivial
  | power =>
    have clean := (clean_neutral ⟨portPower, 0#32⟩ (reads (.portsc i) (seen (.portsc i)))).andNot portPower (by decide)
    simp [sound_portsc, meant rfl, Purpose.effect, clean]
  | cConnection | cEnable | cSuspend | cOverCurrent | cReset | cBhPortReset | cPortLinkState | cPortConfigError =>
    rw [wp_bind]
    exact wp_clearPortChangeBit (fun portBit changes => meant ⟨portBit, changes, rfl⟩) read fun _ => trivial
  | _ => trivial

theorem wp_readPorts (n : Nat) {i : Nat} {Q : Unit → (Reg → Nat) → Prop} (ends : ∀ seen, Q () seen) :
    wp reads (Sound means) (readPorts i n) seen Q := by
  induction n generalizing i seen with
  | zero => exact ends seen
  | succ n ih => exact ih

theorem wp_hubControl (hub : Hub) (bus : Bus) (request : Request) :
    wp reads (Sound request.Means) (hubControl hub bus request) seen fun _ _ => True := by
  cases request with
  | getHubStatus => trivial
  | getHubDescriptor wValue wLength =>
    simp only [hubControl, wp_ite, wp_bind]
    split_ifs
    · trivial
    · exact wp_readPorts hub.maxPorts fun _ => trivial
    · trivial
  | getDescriptor wValue => trivial
  | getPortStatus wIndex =>
    simp only [hubControl, wp_ite, wp_bind, wp_readl]
    split_ifs with outside dead
    · trivial
    · trivial
    · have := RootPorts.toNat_pos (not_or.mp outside).1
      exact wp_getPortStatus hub bus _ ⟨by omega, rfl⟩
  | setPortFeature f wIndex => exact wp_setPortFeature hub bus f wIndex
  | clearPortFeature f wIndex => exact wp_clearPortFeature hub bus f wIndex
  | other => trivial

/-- The wake bits are among those that suspending the bus is meant to change. -/
theorem clean_wakeOnSuspend {suspends : Bool} {raw t2 : BitVec 32} (clean : portLayout.Clean (Purpose.suspend suspends).effect raw t2)
    (doRemoteWakeup : Bool) (t1 : BitVec 32) :
    portLayout.Clean (Purpose.suspend suspends).effect raw (wakeOnSuspend doRemoteWakeup t1 t2) := by
  rw [wakeOnSuspend]
  split_ifs
  · apply (clean.or _ _).andNot <;> cases suspends <;> decide
  · apply (clean.or _ _).andNot <;> cases suspends <;> decide
  · apply clean.andNot
    cases suspends <;> decide

/-- What is written to a port when the bus is suspended. -/
theorem clean_suspend (doRemoteWakeup : Bool) (t1 : BitVec 32) : portLayout.Clean (Purpose.suspend (active t1)).effect t1
    (wakeOnSuspend doRemoteWakeup t1 (suspendLink t1 (portStateToNeutral t1))) := by
  apply clean_wakeOnSuspend
  rw [suspendLink]
  cases active t1 with
  | false => exact clean_neutral _ t1
  | true =>
    apply Layout.Clean.or
    · exact (clean_neutral _ t1).andNot _ (by decide)
    · decide
    · decide

theorem wp_suspendPort (hub : Hub) (bus : Bus) {i : Nat} {Q : Bus → (Reg → Nat) → Prop} (meant : ∀ active, means i (.suspend active))
    (ends : ∀ bus seen, Q bus seen) : wp reads (Sound means) (suspendPort hub i bus) seen Q := by
  have clean := clean_suspend hub.doRemoteWakeup (reads (.portsc i) (seen (.portsc i)))
  rw [suspendPort, wp_bind, wp_readl]
  apply wp_branch
  · intro _
    rw [wp_bind, wp_writel, last_bump, sound_portsc]
    exact ⟨⟨meant _, clean⟩, ends _ _⟩
  · intro _
    exact ends _ _

theorem wp_suspendPorts (hub : Hub) (n : Nat) {bus : Bus} {Q : Bus → (Reg → Nat) → Prop}
    (meant : ∀ i < n, ∀ active, means i (.suspend active)) (ends : ∀ bus seen, Q bus seen) :
    wp reads (Sound means) (suspendPorts hub n bus) seen Q := by
  induction n generalizing bus seen with
  | zero => exact ends bus seen
  | succ n ih =>
    rw [suspendPorts, wp_bind]
    apply wp_suspendPort hub bus (meant n (Nat.lt_succ_self n))
    intro bus seen
    exact ih fun i inside => meant i (Nat.lt_succ_of_lt inside)

theorem wp_busSuspend (hub : Hub) (bus : Bus) :
    wp reads (Sound (Operation.busSuspend.Means hub)) (busSuspend hub bus) seen fun _ _ => True := by
  rw [busSuspend, wp_ite]
  split_ifs
  · trivial
  · rw [wp_bind]
    exact wp_suspendPorts hub hub.maxPorts (fun i inside active => ⟨inside, active, rfl⟩) fun _ _ => trivial

/-- A value from which bits have been cleared, where others are looked at. -/
theorem andNot_and {raw bits mask : BitVec 32} (disjoint : bits &&& mask = 0#32) : raw &&& ~~~bits &&& mask = raw &&& mask := by
  rw [BitVec.and_assoc, BitVec.and_comm (~~~bits), Layout.and_not_of_disjoint disjoint]

/-- The bits that are cleared of what is read when the bus is resumed. -/
def cleared (raw : BitVec 32) : BitVec 32 :=
  if devSuperspeed raw then portRwcBits ||| portCec ||| portWakeBits else portRwcBits ||| portWakeBits

theorem clean_resume_iff (raw : BitVec 32) :
    portLayout.Clean Purpose.resume.effect raw (raw &&& ~~~cleared raw) ↔ raw &&& writtenBack raw = 0 := by
  have others : ~~~cleared raw &&& (portLayout.effects &&& ~~~Purpose.resume.effect.trigger) = writtenBack raw := by
    rw [cleared, writtenBack]
    split_ifs <;> decide
  have wakes : cleared raw &&& (portLayout.kept &&& ~~~Purpose.resume.effect.change) = 0#32 := by
    rw [cleared]
    split_ifs <;> decide
  constructor
  · intro clean
    have triggers := clean.triggers
    rwa [BitVec.and_assoc, others] at triggers
  · intro neutral
    constructor
    · exact andNot_and wakes
    · rwa [BitVec.and_assoc, others]

theorem cleared_eq (raw : BitVec 32) : (if devSuperspeed raw then raw &&& ~~~(portRwcBits ||| portCec ||| portWakeBits)
    else raw &&& ~~~(portRwcBits ||| portWakeBits)) = raw &&& ~~~cleared raw := by
  rw [cleared]
  split_ifs <;> rfl

theorem cleared_link (raw : BitVec 32) : raw &&& ~~~cleared raw &&& portPlsMask = raw &&& portPlsMask := by
  apply andNot_and
  rw [cleared]
  split_ifs <;> decide

theorem cleared_speed (raw : BitVec 32) : devSuperspeed (raw &&& ~~~cleared raw) ↔ devSuperspeed raw := by
  have kept : raw &&& ~~~cleared raw &&& devSpeedMask = raw &&& devSpeedMask := by
    apply andNot_and
    rw [cleared]
    split_ifs <;> decide
  rw [devSuperspeed, devSuperspeed, kept]

/-- A port is resumed, or what has been read of it is written back. -/
theorem wp_resumePort_iff {bus : Bus} {i : Nat} {Q : Unit → (Reg → Nat) → Prop} {R : Prop}
    (meant : ∀ p ∈ [.linkState xdevU0, .linkState xdevResume, .clearBit portPlc, .resume], means i p)
    (next : ∀ seen', (∀ j, j ≠ i → seen' (.portsc j) = seen (.portsc j)) → (Q () seen' ↔ R)) :
    wp reads (Sound means) (resumePort bus i) seen Q ↔
      (Resumed bus i (reads (.portsc i) (seen (.portsc i))) ∨
        reads (.portsc i) (seen (.portsc i)) &&& writtenBack (reads (.portsc i) (seen (.portsc i))) = 0) ∧ R := by
  have wakes : means i (.linkState xdevU0) := meant _ (by simp)
  have resumes : means i (.linkState xdevResume) := meant _ (by simp)
  have clears : means i (.clearBit portPlc) := meant _ (by simp)
  have awake : LinkBits xdevU0 := ⟨by decide, by decide⟩
  have resuming : LinkBits xdevResume := ⟨by decide, by decide⟩
  rw [resumePort, wp_bind, wp_readl]
  simp only [cleared_eq, cleared_link, cleared_speed]
  have next' {seen' : Reg → Nat} (same : ∀ j, j ≠ i → seen' (.portsc j) = seen (.portsc j))
      (resumed : Resumed bus i (reads (.portsc i) (seen (.portsc i)))) : Q () seen' ↔
        (Resumed bus i (reads (.portsc i) (seen (.portsc i))) ∨
          reads (.portsc i) (seen (.portsc i)) &&& writtenBack (reads (.portsc i) (seen (.portsc i))) = 0) ∧ R := by
    rw [next seen' same, and_iff_right (.inl resumed)]
  rw [wp_ite, wp_ite]
  split_ifs with resumed superspeed
  · rw [wp_bind, wp_setLinkState wakes awake, wp_testAndClearBit clears (by decide) (by decide)]
    exact next' (fun j ne => by simp [ne]) resumed
  · rw [wp_bind, wp_setLinkState resumes resuming, wp_bind, wp_setLinkState wakes awake,
      wp_testAndClearBit clears (by decide) (by decide)]
    exact next' (fun j ne => by simp [ne]) resumed
  · have left : ¬Resumed bus i (reads (.portsc i) (seen (.portsc i))) := resumed
    rw [wp_writel, last_bump, sound_portsc, and_iff_right (meant _ (by simp)), clean_resume_iff, next _ fun j ne => by simp [ne]]
    simp only [left, false_or]

/-- The ports are read for the first time when it is their turn. -/
theorem wp_resumePorts_iff {bus : Bus} {n : Nat} {Q : Unit → (Reg → Nat) → Prop}
    (meant : ∀ i < n, ∀ p ∈ [.linkState xdevU0, .linkState xdevResume, .clearBit portPlc, .resume], means i p)
    (fresh : ∀ i < n, seen (.portsc i) = 0) (ends : ∀ seen, Q () seen) :
    wp reads (Sound means) (resumePorts bus n) seen Q ↔
      ∀ i < n, Resumed bus i (reads (.portsc i) 0) ∨ reads (.portsc i) 0 &&& writtenBack (reads (.portsc i) 0) = 0 := by
  induction n generalizing seen with
  | zero =>
    rw [resumePorts, wp_pure]
    simpa using ends seen
  | succ n ih =>
    rw [resumePorts, wp_bind, Nat.forall_lt_succ_right, and_comm, wp_resumePort_iff (meant n (Nat.lt_succ_self n)),
      fresh n (Nat.lt_succ_self n)]
    intro seen' same
    apply ih
    · exact fun i inside => meant i (Nat.lt_succ_of_lt inside)
    · intro i inside
      rw [same i inside.ne, fresh i (Nat.lt_succ_of_lt inside)]

theorem wp_busResume_iff (hub : Hub) (bus : Bus) :
    wp reads (Sound (Operation.busResume.Means hub)) (busResume hub bus) (fun _ => 0) (fun _ _ => True) ↔
      Operation.busResume.Settled hub bus fun i => reads (.portsc i) 0 := by
  rw [busResume, wp_ite, Operation.Settled]
  cases accessible : hub.hwAccessible with
  | false => simp
  | true =>
    have irqs {raw : Option (BitVec 32)} {value : BitVec 32} : Sound (Operation.busResume.Means hub) ⟨.irqs, .command, raw, value⟩ :=
      sound_other (by simp)
    simp only [Bool.not_true, Bool.false_eq_true, if_false, wp_bind, wp_readl, wp_writel, irqs, true_and, wp_pure, true_imp_iff]
    apply wp_resumePorts_iff
    · exact fun i inside p meant => ⟨inside, meant⟩
    · intro i _
      simp
    · simp

theorem wp_handlePort (hub : Hub) (bus : Bus) {i : Nat} (wakes : means i (.linkState xdevU0)) (clears : means i (.clearBit portPlc)) :
    wp reads (Sound means) (handlePort hub bus i) seen fun _ _ => True := by
  have awake : LinkBits xdevU0 := ⟨by decide, by decide⟩
  have cleared {seen : Reg → Nat} {Q : Unit → (Reg → Nat) → Prop} :
      wp reads (Sound means) (testAndClearBit i portPlc) seen Q ↔ Q () (bump seen (.portsc i)) :=
    wp_testAndClearBit clears (by decide) (by decide)
  simp [handlePort, cleared, wp_setLinkState wakes awake]

theorem wp_handlePortStatus (hub : Hub) (bus : Bus) (event : PortEvent) :
    wp reads (Sound ((Operation.portStatus event).Means hub)) (handlePortStatus hub bus event) seen fun _ _ => True := by
  rw [handlePortStatus]
  cases port : event.fakedPortIndex hub.usb3 with
  | none => trivial
  | some i => exact wp_handlePort hub bus ⟨port, by simp⟩ ⟨port, by simp⟩

/-- Whatever the registers are read as, all that an operation writes to the PORTSC registers
    is meant and has no other effect, if and only if the bus resume finds no bit set that it
    writes back. -/
theorem portsc_writes_sound_iff (hub : Hub) (bus : Bus) (op : Operation) (reads : Reg → Nat → BitVec 32) :
    (∀ w ∈ (op.prog hub bus).writes reads, Sound (op.Means hub) w) ↔ op.Settled hub bus fun i => reads (.portsc i) 0 := by
  rw [writes_iff]
  cases op with
  | hubControl request =>
    rw [Operation.prog, wp_bind]
    exact iff_of_true (wp_hubControl hub bus request) trivial
  | busSuspend =>
    rw [Operation.prog, wp_bind]
    exact iff_of_true (wp_busSuspend hub bus) trivial
  | busResume =>
    rw [Operation.prog, wp_bind]
    exact wp_busResume_iff hub bus
  | portStatus event =>
    rw [Operation.prog, wp_bind]
    exact iff_of_true (wp_handlePortStatus hub bus event) trivial

/-- A hub with one port. -/
def onePort : Hub where
  usb3 := false
  maxPorts := 1
  slotId _ := 0
  rexitDone := true
  doRemoteWakeup := false
  hwAccessible := true
  compModeQuirk := false
  jiffies := 0
  msecsToJiffies _ := 0
  resumeTimeout := 20

/-- Nothing is suspended or resumed. -/
def idleBus : Bus := ⟨0, 0, 0, 0, 0, fun _ => 0, 0, 0⟩

/-- A connected high-speed device is being reset when the bus is resumed: the reset is
    written back. -/
theorem not_portsc_writes_sound :
    ¬∀ (hub : Hub) (bus : Bus) (op : Operation) (reads : Reg → Nat → BitVec 32),
      ∀ w ∈ (op.prog hub bus).writes reads, Sound (op.Means hub) w := by
  intro sound
  have written : (⟨.resume, .portsc 0, some 0xe11, 0xe11⟩ : Write Reg Purpose (BitVec 32)) ∈
      (Operation.busResume.prog onePort idleBus).writes fun _ _ => 0xe11 := by decide
  obtain ⟨-, raw, -, clean⟩ := sound onePort idleBus .busResume (fun _ _ => 0xe11) _ written 0 rfl
  exact absurd clean.triggers (by decide)

end Ehub.PortWrites
