import Mathlib
import Ehub.RootHub

/-!
The numbers of the ports of the root hubs (`xhci_setup_port_arrays`,
`find_faked_portnum_from_hw_portnum`, `ehub_xhci_find_raw_port_number`,
`xhci_usb2_hub_descriptor`). The ports of a hub are those of its kind in the order of the
hardware: the k-th of them is `findIdxNth` of `port_array`, and a port's number is
`countPBefore` it.

The bit of a port that cannot be removed is read and kept under the port's number in the
hardware instead of that in the hub. Both are the same only if the ports of the USB 2.0
hub come before all others, and there is room for no more than four (`MAX_HC_PORTS`).

An access outside an array, or to an element of `usb2_ports` that has not been written, is
`none`.
-/
namespace Ehub.RootPorts
open Ehub.RootHub

def eNODEV : Int := 19
def eNOMEM : Int := 12

def maxHcPorts : Nat := 4
def usbMaxChildren : Nat := 31
def numPortRegs : Nat := 4
def portDevRemove : BitVec 32 := 1 <<< 30

/-- An extended capability: its first dword, and the third one of a Supported Protocol
    capability. -/
structure ExtCap where
  capId : BitVec 32
  temp : BitVec 32

namespace ExtCap

/-- `XHCI_EXT_CAPS_ID`, and whether it is `XHCI_EXT_CAPS_PROTOCOL`. -/
def isProtocol (c : ExtCap) : Bool := c.capId &&& 0xff == 2

/-- `XHCI_EXT_CAPS_NEXT`. -/
def next (c : ExtCap) : BitVec 32 := (c.capId >>> 8) &&& 0xff

/-- `XHCI_EXT_PORT_MAJOR`. -/
def capability (c : ExtCap) : Capability := ⟨(c.capId >>> 24).truncate 8, c.temp⟩

end ExtCap

/-- The registers that are read, and whether memory for the arrays can be had. The list of
    extended capabilities is as long as it is needed. -/
structure Env where
  hciVersion : BitVec 16
  hcsParams1 : BitVec 32
  hccParams : BitVec 32
  extCaps : List ExtCap
  portStatusBase : Nat
  readl : Nat → BitVec 32
  alloc : Bool
  allocUsb2 : Bool
  allocUsb3 : Bool

/-- The root hubs. The arrays of pointers are not initialised by `kmalloc`. -/
structure Hubs extends Xhci where
  usb2Ports : List (Option Nat)
  usb3Ports : List (Option Nat)
  usb2PortRemovable : List Bool

/-- The extended capabilities are counted. -/
def countCaps : List ExtCap → Except Int Nat
  | [] => .ok 0
  | c :: caps =>
    if c.capId = -1 then .error (-eNOMEM)
    else
      let count := if c.isProtocol then 1 else 0
      if c.next = 0 then .ok count else (countCaps caps).map (count + ·)

/-- The ports of the extended capabilities are entered. -/
def scanCaps (hciVersion : BitVec 16) (numPorts : BitVec 32) (capCount : Nat) : List ExtCap → Xhci → Option (Except Int Xhci)
  | [], xhci => some (.ok xhci)
  | c :: caps, xhci =>
    if c.capId = -1 then some (.error (-eNOMEM))
    else
      let added := if c.isProtocol then addInPort hciVersion numPorts capCount xhci c.capability else some xhci
      added.bind fun xhci =>
        if c.next = 0 ∨ xhci.numUsb2Ports + xhci.numUsb3Ports = numPorts then some (.ok xhci)
        else scanCaps hciVersion numPorts capCount caps xhci

/-- The hub descriptors have room for so many ports. -/
def limitPorts (xhci : Xhci) : Xhci :=
  let xhci := if 15 < xhci.numUsb3Ports then { xhci with numUsb3Ports := 15 } else xhci
  if usbMaxChildren < xhci.numUsb2Ports.toNat then { xhci with numUsb2Ports := usbMaxChildren } else xhci

/-- The address of a port's PORTSC register. -/
def portsc (portStatusBase i : Nat) : Nat := portStatusBase + numPortRegs * i

/-- An element is written. -/
def write {α : Type*} (l : List α) (i : Nat) (a : α) : Option (List α) := if i < l.length then some (l.set i a) else none

/-- The loop over the ports that fills `usb2_ports` and `usb2_port_removable`; `i` is the
    port's number in the hardware. -/
def usb2Loop (env : Env) : List (BitVec 8) → Nat → Nat → Hubs → Option Hubs
  | [], _, _, hubs => some hubs
  | entry :: entries, i, portIndex, hubs =>
    if !isUsb2 entry then usb2Loop env entries (i + 1) portIndex hubs
    else do
      let usb2Ports ← write hubs.usb2Ports portIndex (some (portsc env.portStatusBase i))
      let addr ← (usb2Ports[i]?).join
      let usb2PortRemovable ← write hubs.usb2PortRemovable i (env.readl addr &&& portDevRemove != 0)
      let hubs := { hubs with usb2Ports, usb2PortRemovable }
      if portIndex + 1 = hubs.numUsb2Ports.toNat then some hubs else usb2Loop env entries (i + 1) (portIndex + 1) hubs

/-- The loop over the ports that fills `usb3_ports`. -/
def usb3Loop (env : Env) : List (BitVec 8) → Nat → Nat → Hubs → Option Hubs
  | [], _, _, hubs => some hubs
  | entry :: entries, i, portIndex, hubs =>
    if isUsb3 entry then do
      let usb3Ports ← write hubs.usb3Ports portIndex (some (portsc env.portStatusBase i))
      let hubs := { hubs with usb3Ports }
      if portIndex + 1 = hubs.numUsb3Ports.toNat then some hubs else usb3Loop env entries (i + 1) (portIndex + 1) hubs
    else usb3Loop env entries (i + 1) portIndex hubs

/-- The arrays of the USB 2.0 hub are filled. -/
def fillUsb2 (env : Env) (hubs : Hubs) : Option (Except Int Hubs) :=
  if hubs.numUsb2Ports = 0 then some (.ok hubs)
  else if !env.allocUsb2 then some (.error (-eNOMEM))
  else (usb2Loop env hubs.portArray 0 0 { hubs with usb2Ports := List.replicate hubs.numUsb2Ports.toNat none }).map Except.ok

/-- The array of the USB 3.0 hub is filled. -/
def fillUsb3 (env : Env) (hubs : Hubs) : Option (Except Int Hubs) :=
  if hubs.numUsb3Ports = 0 then some (.ok hubs)
  else if !env.allocUsb3 then some (.error (-eNOMEM))
  else (usb3Loop env hubs.portArray 0 0 { hubs with usb3Ports := List.replicate hubs.numUsb3Ports.toNat none }).map Except.ok

def fillPorts (env : Env) (xhci : Xhci) : Option (Except Int Hubs) :=
  (fillUsb2 env ⟨xhci, [], [], List.replicate maxHcPorts false⟩).bind fun
    | .error ret => some (.error ret)
    | .ok hubs => fillUsb3 env hubs

/-- `HCS_MAX_PORTS`. -/
def hcsMaxPorts (hcsParams1 : BitVec 32) : BitVec 32 := (hcsParams1 >>> 24) &&& 0x7f

/-- `XHCI_HCC_EXT_CAPS`. -/
def hccExtCaps (hccParams : BitVec 32) : BitVec 32 := (hccParams >>> 16) &&& 0xffff

/-- `xhci_setup_port_arrays`. -/
def setupPortArrays (env : Env) : Option (Except Int Hubs) :=
  let offset := hccExtCaps env.hccParams
  if offset = hccExtCaps (-1) then some (.error (-eNODEV))
  else if offset = 0 then some (.error (-eNODEV))
  else if !env.alloc then some (.error (-eNOMEM))
  else
    let numPorts := hcsMaxPorts env.hcsParams1
    match countCaps env.extCaps with
    | .error ret => some (.error ret)
    | .ok capCount =>
      (scanCaps env.hciVersion numPorts capCount env.extCaps (newXhci numPorts capCount)).bind fun
        | .error ret => some (.error ret)
        | .ok xhci =>
          if xhci.numUsb2Ports = 0 ∧ xhci.numUsb3Ports = 0 then some (.error (-eNODEV)) else fillPorts env (limitPorts xhci)

/-- `find_faked_portnum_from_hw_portnum`; `usb3` is whether `hcd->speed` is `HCD_USB3`. -/
def findFakedPortnum (portArray : List (BitVec 8)) (usb3 : Bool) (portId : Nat) : Option Nat :=
  (List.range (portId - 1)).foldlM (fun numSimilarSpeedPorts i => portArray[i]?.map fun portSpeed =>
    if portSpeed = 0 ∨ portSpeed = duplicateEntry then numSimilarSpeedPorts
    else if (portSpeed == 3) = usb3 then numSimilarSpeedPorts + 1
    else numSimilarSpeedPorts) 0

/-- `ehub_xhci_find_raw_port_number`. -/
def findRawPortNumber (portStatusBase : Nat) (hubs : Hubs) (usb3 : Bool) (port1 : Nat) : Option Int :=
  ((if !usb3 then hubs.usb2Ports else hubs.usb3Ports)[port1 - 1]?).join.map fun addr : Nat =>
    ((addr : Int) - (portStatusBase : Int)).tdiv (numPortRegs : Int) + 1

/-! ### The descriptor of the USB 2.0 hub -/

structure HubDescriptor where
  bDescLength : Nat
  bDescriptorType : BitVec 8
  bNbrPorts : Nat
  wHubCharacteristics : BitVec 16
  bPwrOn2PwrGood : BitVec 8
  bHubContrCurrent : BitVec 8
  deviceRemovable : List (BitVec 8)
  portPwrCtrlMask : List (BitVec 8)
deriving DecidableEq

/-- The bytes of a bit for every port and one that is reserved. -/
def removableSize : Nat := (usbMaxChildren + 1 + 7) / 8

/-- `xhci_common_hub_descriptor`, with nothing in the fields that it does not write. -/
def commonHubDescriptor (hccParams : BitVec 32) (ports : Nat) : HubDescriptor :=
  let temp : BitVec 16 := if hccParams &&& (1 <<< 3) ≠ 0 then 0x0001 else 0x0002
  ⟨0, 0, ports, temp ||| 0x0008, 10, 0, List.replicate removableSize 0, List.replicate removableSize 0⟩

/-- Bits are set for the ports whose device cannot be removed; bit 0 is reserved. -/
def portRemovable (usb2PortRemovable : List Bool) (ports : Nat) : Option (List (BitVec 8)) :=
  (List.range ports).foldlM (fun portRemovable i => do
    let removable ← usb2PortRemovable[i]?
    if removable then
      let byte ← portRemovable[(i + 1) / 8]?
      write portRemovable ((i + 1) / 8) (byte ||| (1 : BitVec 8) <<< ((i + 1) % 8))
    else some portRemovable) (List.replicate removableSize 0)

/-- The first bytes are copied. -/
def copyBytes (src dst : List (BitVec 8)) (n : Nat) : Option (List (BitVec 8)) :=
  (List.range n).foldlM (fun dst i => src[i]?.bind fun byte => write dst i byte) dst

/-- `xhci_usb2_hub_descriptor`. -/
def usb2HubDescriptor (env : Env) (hubs : Hubs) : Option HubDescriptor := do
  let ports := hubs.numUsb2Ports.toNat
  let desc := commonHubDescriptor env.hccParams ports
  let portRemovable ← portRemovable hubs.usb2PortRemovable ports
  let deviceRemovable ← copyBytes portRemovable (List.replicate removableSize 0xff) ((ports + 1 + 7) / 8)
  some { desc with
    bDescriptorType := 0x29
    bDescLength := 7 + 2 * (1 + ports / 8)
    deviceRemovable
    portPwrCtrlMask := List.replicate removableSize 0xff }

/-! ### What the numbers are to be -/

/-- The entries of a hub's ports. -/
def kind (usb3 : Bool) : BitVec 8 → Bool := if usb3 then isUsb3 else isUsb2

def Hubs.numPorts (hubs : Hubs) (usb3 : Bool) : Nat := if usb3 then hubs.numUsb3Ports.toNat else hubs.numUsb2Ports.toNat

def Hubs.ports (hubs : Hubs) (usb3 : Bool) : List (Option Nat) := if usb3 then hubs.usb3Ports else hubs.usb2Ports

/-- The bit of a port in an array of bytes. -/
def bitAt (bytes : List (BitVec 8)) (n : Nat) : Bool := (bytes.getD (n / 8) 0).getLsbD (n % 8)

/-- The ports of the hubs are those of their kind in the order of the hardware, their numbers in
    the hub and in the hardware are found from each other, and the descriptor has the bits of the
    ports' own registers. -/
structure Mapped (env : Env) (hubs : Hubs) : Prop where
  ports : ∀ usb3 k, k < hubs.numPorts usb3 → k < hubs.portArray.countP (kind usb3) ∧
    (hubs.ports usb3)[k]? = some (some (portsc env.portStatusBase (hubs.portArray.findIdxNth (kind usb3) k)))
  faked : ∀ usb3 k, k < hubs.numPorts usb3 → ∃ portId : Nat,
    findRawPortNumber env.portStatusBase hubs usb3 (k + 1) = some (portId : Int) ∧
      findFakedPortnum hubs.portArray usb3 portId = some k
  raw : ∀ usb3 portId entry, 0 < portId → hubs.portArray[portId - 1]? = some entry → kind usb3 entry = true →
    ∃ k, findFakedPortnum hubs.portArray usb3 portId = some k ∧
      (k < hubs.numPorts usb3 → findRawPortNumber env.portStatusBase hubs usb3 (k + 1) = some (portId : Int))
  removable : ∃ desc, usb2HubDescriptor env hubs = some desc ∧ ∀ k < hubs.numUsb2Ports.toNat, bitAt desc.deviceRemovable (k + 1) =
    (env.readl (portsc env.portStatusBase (hubs.portArray.findIdxNth isUsb2 k)) &&& portDevRemove != 0)

/-- The ports of the USB 2.0 hub are the first ones, and no more than `MAX_HC_PORTS`. -/
def Front (xhci : Xhci) : Prop :=
  xhci.numUsb2Ports.toNat ≤ maxHcPorts ∧ ∀ k < xhci.numUsb2Ports.toNat, isUsb2 (xhci.portArray.getD k 0) = true

/-- The registers can be read, memory can be had, and the capabilities have given `xhci` ports. -/
structure Scanned (env : Env) (xhci : Xhci) : Prop where
  offset : hccExtCaps env.hccParams ≠ hccExtCaps (-1) ∧ hccExtCaps env.hccParams ≠ 0
  alloc : env.alloc = true ∧ env.allocUsb2 = true ∧ env.allocUsb3 = true
  scanned : ∃ capCount, countCaps env.extCaps = .ok capCount ∧ scanCaps env.hciVersion (hcsMaxPorts env.hcsParams1) capCount
    env.extCaps (newXhci (hcsMaxPorts env.hcsParams1) capCount) = some (.ok xhci)
  some_port : ¬(xhci.numUsb2Ports = 0 ∧ xhci.numUsb3Ports = 0)

section
variable {env : Env} {hubs hubs' : Hubs}

/-! ### Filling the arrays -/

theorem write_some {α : Type*} {l : List α} {i : Nat} (inside : i < l.length) (a : α) : write l i a = some (l.set i a) := if_pos inside

/-- Once a port of another kind has been passed, the element that is read is one that has not been
    written: the loop goes on only if there is no further port of the USB 2.0 hub. -/
theorem usb2Loop_behind : ∀ (entries : List (BitVec 8)) {i j : Nat} {hubs : Hubs}, j < i →
    (∀ m, j ≤ m → (hubs.usb2Ports[m]?).join = none) → usb2Loop env entries i j hubs = some hubs' → hubs' = hubs := by
  intro entries
  induction entries with
  | nil =>
    intro i j hubs _ _ done
    exact (Option.some.inj done).symm
  | cons entry entries ih =>
    intro i j hubs behind unwritten done
    rw [usb2Loop] at done
    by_cases other : (!isUsb2 entry) = true
    · rw [if_pos other] at done
      exact ih (by omega) unwritten done
    · rw [if_neg other] at done
      by_cases inside : j < hubs.usb2Ports.length
      · rw [write_some inside] at done
        have fault : ((hubs.usb2Ports.set j (some (portsc env.portStatusBase i)))[i]?).join = none := by
          rw [List.getElem?_set_ne (by omega)]
          exact unwritten i (by omega)
        simp only [Option.bind_eq_bind, Option.bind_some, fault, Option.bind_none] at done
        exact absurd done (by simp)
      · rw [write, if_neg inside] at done
        exact absurd done (by simp)

/-- The bit that is read from a port's register. -/
def isFixed (env : Env) (i : Nat) : Bool := env.readl (portsc env.portStatusBase i) &&& portDevRemove != 0

/-- A port whose number is the same in the hardware and in the hub. -/
def setUsb2 (env : Env) (hubs : Hubs) (k : Nat) : Hubs :=
  { hubs with
    usb2Ports := hubs.usb2Ports.set k (some (portsc env.portStatusBase k))
    usb2PortRemovable := hubs.usb2PortRemovable.set k (isFixed env k) }

theorem usb2Loop_front {entry : BitVec 8} (entries : List (BitVec 8)) {k : Nat} (is_usb2 : isUsb2 entry = true)
    (inside : k < hubs.usb2Ports.length) : usb2Loop env (entry :: entries) k k hubs =
      if k < hubs.usb2PortRemovable.length then
        if k + 1 = hubs.numUsb2Ports.toNat then some (setUsb2 env hubs k)
        else usb2Loop env entries (k + 1) (k + 1) (setUsb2 env hubs k)
      else none := by
  rw [usb2Loop, if_neg (by simp [is_usb2]), write_some inside]
  simp only [Option.bind_eq_bind, Option.bind_some, List.getElem?_set_self inside, Option.join_some]
  by_cases room : k < hubs.usb2PortRemovable.length
  · rw [write_some room, if_pos room]
    rfl
  · rw [write, if_neg room, if_neg room]
    rfl

/-- All ports of the USB 2.0 hub are numbered only if none of another kind is before them. -/
theorem front_of_usb2Loop (env : Env) : ∀ (entries : List (BitVec 8)) (k : Nat) (hubs : Hubs), k < hubs.numUsb2Ports.toNat →
    hubs.usb2Ports.length = hubs.numUsb2Ports.toNat → (∀ m, k ≤ m → (hubs.usb2Ports[m]?).join = none) →
    usb2Loop env entries k k hubs = some hubs' → (∀ m, m < hubs.numUsb2Ports.toNat → ∃ addr, hubs'.usb2Ports[m]? = some (some addr)) →
    ∀ m, k ≤ m → m < hubs.numUsb2Ports.toNat → isUsb2 (entries.getD (m - k) 0) = true ∧ m < hubs.usb2PortRemovable.length := by
  intro entries
  induction entries with
  | nil =>
    intro k hubs less _ unwritten done written
    cases done
    obtain ⟨addr, here⟩ := written k less
    have none_there := unwritten k le_rfl
    rw [here] at none_there
    exact absurd none_there (by simp)
  | cons entry entries ih =>
    intro k hubs less size unwritten done written
    have first : isUsb2 entry = true := by
      by_contra other
      rw [usb2Loop, if_pos (by simpa using other)] at done
      have same := usb2Loop_behind entries (Nat.lt_succ_self k) unwritten done
      obtain ⟨addr, here⟩ := written k less
      have none_there := unwritten k le_rfl
      rw [same] at here
      rw [here] at none_there
      exact absurd none_there (by simp)
    rw [usb2Loop_front entries first (by omega)] at done
    by_cases room : k < hubs.usb2PortRemovable.length
    · rw [if_pos room] at done
      intro m le_m less_m
      rcases Nat.eq_or_lt_of_le le_m with rfl | later
      · rw [Nat.sub_self]
        exact ⟨first, room⟩
      · rw [if_neg (by omega)] at done
        have rest := ih (k + 1) (setUsb2 env hubs k) (by change k + 1 < hubs.numUsb2Ports.toNat; omega)
          (List.length_set.trans size) (fun m' le_m' => ?_) done written m later less_m
        · have shift : m - k = (m - (k + 1)) + 1 := by omega
          rw [shift, List.getD_cons_succ]
          exact ⟨rest.1, by simpa [setUsb2] using rest.2⟩
        · change ((hubs.usb2Ports.set k _)[m']?).join = none
          rw [List.getElem?_set_ne (by omega)]
          exact unwritten m' (by omega)
    · rw [if_neg room] at done
      exact absurd done (by simp)

/-- What is written when the ports of the USB 2.0 hub come first. -/
theorem usb2Loop_of_front (env : Env) : ∀ (entries : List (BitVec 8)) (k : Nat) (hubs : Hubs), k < hubs.numUsb2Ports.toNat →
    hubs.usb2Ports.length = hubs.numUsb2Ports.toNat → hubs.numUsb2Ports.toNat ≤ hubs.usb2PortRemovable.length →
    (∀ m, k ≤ m → m < hubs.numUsb2Ports.toNat → isUsb2 (entries.getD (m - k) 0) = true) →
    ∃ hubs', usb2Loop env entries k k hubs = some hubs' ∧ hubs'.toXhci = hubs.toXhci ∧ hubs'.usb3Ports = hubs.usb3Ports ∧
      (∀ m < k, hubs'.usb2Ports[m]? = hubs.usb2Ports[m]? ∧ hubs'.usb2PortRemovable[m]? = hubs.usb2PortRemovable[m]?) ∧
      ∀ m, k ≤ m → m < hubs.numUsb2Ports.toNat →
        hubs'.usb2Ports[m]? = some (some (portsc env.portStatusBase m)) ∧ hubs'.usb2PortRemovable[m]? = some (isFixed env m) := by
  intro entries
  induction entries with
  | nil =>
    intro k hubs less _ _ front
    exact absurd (front k le_rfl less) (by simp [isUsb2])
  | cons entry entries ih =>
    intro k hubs less size room front
    have first : isUsb2 entry = true := by
      have here := front k le_rfl less
      rwa [Nat.sub_self, List.getD_cons_zero] at here
    have inside : k < hubs.usb2Ports.length := by omega
    rw [usb2Loop_front entries first inside, if_pos (by omega)]
    have before : ∀ m < k, (setUsb2 env hubs k).usb2Ports[m]? = hubs.usb2Ports[m]? ∧
        (setUsb2 env hubs k).usb2PortRemovable[m]? = hubs.usb2PortRemovable[m]? :=
      fun m less_m => ⟨List.getElem?_set_ne (by omega), List.getElem?_set_ne (by omega)⟩
    have here : (setUsb2 env hubs k).usb2Ports[k]? = some (some (portsc env.portStatusBase k)) ∧
        (setUsb2 env hubs k).usb2PortRemovable[k]? = some (isFixed env k) :=
      ⟨List.getElem?_set_self inside, List.getElem?_set_self (by omega)⟩
    by_cases last : k + 1 = hubs.numUsb2Ports.toNat
    · rw [if_pos last]
      refine ⟨_, rfl, rfl, rfl, before, fun m le_m less_m => ?_⟩
      obtain rfl : m = k := by omega
      exact here
    · rw [if_neg last]
      obtain ⟨hubs', done, toXhci, usb3, kept, written⟩ := ih (k + 1) (setUsb2 env hubs k)
        (by change k + 1 < hubs.numUsb2Ports.toNat; omega) (List.length_set.trans size)
        (by change hubs.numUsb2Ports.toNat ≤ _; rw [setUsb2, List.length_set]; exact room) (fun m le_m less_m => by
          have shift : m - k = (m - (k + 1)) + 1 := by omega
          have there := front m (by omega) less_m
          rwa [shift, List.getD_cons_succ] at there)
      refine ⟨hubs', done, toXhci, usb3, fun m less_m => ?_, fun m le_m less_m => ?_⟩
      · rw [(kept m (by omega)).1, (kept m (by omega)).2]
        exact before m less_m
      · rcases Nat.eq_or_lt_of_le le_m with rfl | later
        · rw [(kept k (by omega)).1, (kept k (by omega)).2]
          exact here
        · exact written m later less_m

/-- The ports of the USB 3.0 hub are written in their order. -/
theorem usb3Loop_written (env : Env) : ∀ (entries : List (BitVec 8)) (i j : Nat) (hubs : Hubs), j < hubs.numUsb3Ports.toNat →
    hubs.usb3Ports.length = hubs.numUsb3Ports.toNat → hubs.numUsb3Ports.toNat - j ≤ entries.countP isUsb3 →
    ∃ usb3Ports, usb3Loop env entries i j hubs = some { hubs with usb3Ports } ∧
      (∀ m < j, usb3Ports[m]? = hubs.usb3Ports[m]?) ∧
      ∀ m, j ≤ m → m < hubs.numUsb3Ports.toNat →
        usb3Ports[m]? = some (some (portsc env.portStatusBase (i + entries.findIdxNth isUsb3 (m - j)))) := by
  intro entries
  induction entries with
  | nil =>
    intro i j hubs less _ enough
    rw [List.countP_nil] at enough
    omega
  | cons entry entries ih =>
    intro i j hubs less size enough
    rw [usb3Loop]
    by_cases is_usb3 : isUsb3 entry = true
    · have inside : j < hubs.usb3Ports.length := by omega
      rw [if_pos is_usb3, write_some inside]
      simp only [Option.bind_eq_bind, Option.bind_some]
      rw [List.countP_cons_of_pos is_usb3] at enough
      have here : (hubs.usb3Ports.set j (some (portsc env.portStatusBase i)))[j]? =
          some (some (portsc env.portStatusBase (i + (entry :: entries).findIdxNth isUsb3 (j - j)))) := by
        rw [List.getElem?_set_self inside, Nat.sub_self, List.findIdxNth_cons_zero_of_pos is_usb3]
        rfl
      by_cases last : j + 1 = hubs.numUsb3Ports.toNat
      · rw [if_pos last]
        refine ⟨_, rfl, fun m less_m => List.getElem?_set_ne (by omega), fun m le_m less_m => ?_⟩
        obtain rfl : m = j := by omega
        exact here
      · rw [if_neg last]
        obtain ⟨usb3Ports, done, kept, written⟩ := ih (i + 1) (j + 1)
          { hubs with usb3Ports := hubs.usb3Ports.set j (some (portsc env.portStatusBase i)) }
          (by change j + 1 < hubs.numUsb3Ports.toNat; omega) (List.length_set.trans size) (by
            change hubs.numUsb3Ports.toNat - (j + 1) ≤ _
            omega)
        refine ⟨usb3Ports, done, fun m less_m => ?_, fun m le_m less_m => ?_⟩
        · rw [kept m (by omega)]
          exact List.getElem?_set_ne (by omega)
        · rcases Nat.eq_or_lt_of_le le_m with rfl | later
          · rw [kept j (by omega)]
            exact here
          · have shift : m - j = (m - (j + 1)) + 1 := by omega
            rw [written m later less_m, shift, List.findIdxNth_cons_succ_of_pos is_usb3]
            congr 3
            omega
    · rw [if_neg is_usb3]
      rw [List.countP_cons_of_neg is_usb3] at enough
      obtain ⟨usb3Ports, done, kept, written⟩ := ih (i + 1) j hubs less size enough
      refine ⟨usb3Ports, done, kept, fun m le_m less_m => ?_⟩
      rw [written m le_m less_m, List.findIdxNth_cons_of_neg (by simpa using is_usb3)]
      congr 3
      omega

/-! ### All arrays -/

theorem toNat_pos {n : Nat} {x : BitVec n} (some_port : x ≠ 0) : 0 < x.toNat :=
  Nat.pos_of_ne_zero fun zero => some_port (BitVec.eq_of_toNat_eq zero)

theorem fillUsb3_ok (hubs : Hubs) (alloc : env.allocUsb3 = true) (enough : hubs.numUsb3Ports.toNat ≤ hubs.portArray.countP isUsb3) :
    ∃ usb3Ports, fillUsb3 env hubs = some (.ok { hubs with usb3Ports }) ∧
      ∀ m < hubs.numUsb3Ports.toNat, usb3Ports[m]? = some (some (portsc env.portStatusBase (hubs.portArray.findIdxNth isUsb3 m))) := by
  rw [fillUsb3]
  by_cases none_there : hubs.numUsb3Ports = 0
  · rw [if_pos none_there, none_there]
    exact ⟨hubs.usb3Ports, rfl, fun m less => absurd less (Nat.not_lt_zero m)⟩
  · obtain ⟨usb3Ports, done, -, written⟩ := usb3Loop_written env hubs.portArray 0 0
      { hubs with usb3Ports := List.replicate hubs.numUsb3Ports.toNat none } (toNat_pos none_there)
      List.length_replicate enough
    rw [if_neg none_there, alloc, if_neg (by simp), done]
    refine ⟨usb3Ports, rfl, fun m less => ?_⟩
    have here := written m (Nat.zero_le m) less
    rwa [Nat.zero_add, Nat.sub_zero] at here

theorem front_of_fillUsb2 (alloc : env.allocUsb2 = true) (size : hubs.usb2PortRemovable.length = maxHcPorts)
    (done : fillUsb2 env hubs = some (.ok hubs'))
    (written : ∀ m < hubs.numUsb2Ports.toNat, ∃ addr, hubs'.usb2Ports[m]? = some (some addr)) : Front hubs.toXhci := by
  by_cases none_there : hubs.numUsb2Ports = 0
  · rw [Front, none_there]
    exact ⟨Nat.zero_le _, fun k less => absurd less (Nat.not_lt_zero k)⟩
  rw [fillUsb2, if_neg none_there, alloc, if_neg (by simp)] at done
  obtain ⟨_, run, is_hubs⟩ := Option.map_eq_some_iff.mp done
  cases is_hubs
  have front := front_of_usb2Loop env hubs.portArray 0
    { hubs with usb2Ports := List.replicate hubs.numUsb2Ports.toNat none } (toNat_pos none_there)
    List.length_replicate (fun m _ => by rw [List.getElem?_replicate]; split_ifs <;> rfl) run written
  refine ⟨?_, fun k less => ?_⟩
  · have last := (front (hubs.numUsb2Ports.toNat - 1) (Nat.zero_le _) (Nat.sub_lt (toNat_pos none_there) Nat.one_pos)).2
    change hubs.numUsb2Ports.toNat - 1 < hubs.usb2PortRemovable.length at last
    omega
  · have here := (front k (Nat.zero_le k) less).1
    rwa [Nat.sub_zero] at here

theorem fillUsb2_ok (hubs : Hubs) (alloc : env.allocUsb2 = true) (size : hubs.usb2PortRemovable.length = maxHcPorts) (front : Front hubs.toXhci) :
    ∃ hubs', fillUsb2 env hubs = some (.ok hubs') ∧ hubs'.toXhci = hubs.toXhci ∧
      ∀ m < hubs.numUsb2Ports.toNat,
        hubs'.usb2Ports[m]? = some (some (portsc env.portStatusBase m)) ∧ hubs'.usb2PortRemovable[m]? = some (isFixed env m) := by
  rw [fillUsb2]
  by_cases none_there : hubs.numUsb2Ports = 0
  · rw [if_pos none_there, none_there]
    exact ⟨hubs, rfl, rfl, fun m less => absurd less (Nat.not_lt_zero m)⟩
  · obtain ⟨hubs', done, toXhci, -, -, written⟩ := usb2Loop_of_front env hubs.portArray 0
      { hubs with usb2Ports := List.replicate hubs.numUsb2Ports.toNat none } (toNat_pos none_there)
      List.length_replicate (front.1.trans_eq size.symm) fun m _ less => front.2 m less
    rw [if_neg none_there, alloc, if_neg (by simp), done]
    exact ⟨hubs', rfl, toXhci, fun m less => written m (Nat.zero_le m) less⟩

theorem toXhci_usb2Loop : ∀ (entries : List (BitVec 8)) {i j : Nat} {hubs : Hubs},
    usb2Loop env entries i j hubs = some hubs' → hubs'.toXhci = hubs.toXhci := by
  intro entries
  induction entries with
  | nil =>
    intro i j hubs done
    cases done
    rfl
  | cons entry entries ih =>
    intro i j hubs done
    rw [usb2Loop] at done
    by_cases other : (!isUsb2 entry) = true
    · rw [if_pos other] at done
      exact ih done
    · rw [if_neg other] at done
      simp only [Option.bind_eq_bind, Option.bind_eq_some_iff] at done
      obtain ⟨usb2Ports, -, addr, -, removable, -, rest⟩ := done
      split_ifs at rest
      · cases rest
        rfl
      · have same := ih rest
        exact same

theorem toXhci_fillUsb2 (done : fillUsb2 env hubs = some (.ok hubs')) : hubs'.toXhci = hubs.toXhci := by
  rw [fillUsb2] at done
  split_ifs at done
  · cases done
    rfl
  · exact absurd done (by simp)
  · obtain ⟨_, run, is_hubs⟩ := Option.map_eq_some_iff.mp done
    cases is_hubs
    have same := toXhci_usb2Loop hubs.portArray run
    exact same

/-- The arrays can be filled, with all ports of the USB 2.0 hub, only if these come first. -/
theorem front_of_fillPorts {xhci : Xhci} (allocUsb2 : env.allocUsb2 = true) (allocUsb3 : env.allocUsb3 = true)
    (enough : xhci.numUsb3Ports.toNat ≤ xhci.portArray.countP isUsb3) (done : fillPorts env xhci = some (.ok hubs))
    (written : ∀ m < hubs.numUsb2Ports.toNat, ∃ addr, hubs.usb2Ports[m]? = some (some addr)) : Front xhci := by
  rw [fillPorts] at done
  obtain ⟨outcome, first, second⟩ := Option.bind_eq_some_iff.mp done
  cases outcome with
  | error ret => exact absurd second (by simp)
  | ok usb2Hubs =>
    have same := toXhci_fillUsb2 first
    obtain ⟨usb3Ports, filled, -⟩ := fillUsb3_ok usb2Hubs allocUsb3 (by rw [same]; exact enough)
    dsimp only at second
    rw [filled] at second
    cases second
    refine front_of_fillUsb2 allocUsb2 List.length_replicate first fun m less => ?_
    exact written m (by rw [same]; exact less)

theorem fillPorts_ok {xhci : Xhci} (allocUsb2 : env.allocUsb2 = true) (allocUsb3 : env.allocUsb3 = true)
    (enough : xhci.numUsb3Ports.toNat ≤ xhci.portArray.countP isUsb3) (front : Front xhci) :
    ∃ hubs, fillPorts env xhci = some (.ok hubs) ∧ hubs.toXhci = xhci ∧
      (∀ m < xhci.numUsb2Ports.toNat,
        hubs.usb2Ports[m]? = some (some (portsc env.portStatusBase m)) ∧ hubs.usb2PortRemovable[m]? = some (isFixed env m)) ∧
      ∀ m < xhci.numUsb3Ports.toNat,
        hubs.usb3Ports[m]? = some (some (portsc env.portStatusBase (xhci.portArray.findIdxNth isUsb3 m))) := by
  obtain ⟨usb2Hubs, first, same, usb2⟩ := fillUsb2_ok ⟨xhci, [], [], List.replicate maxHcPorts false⟩ allocUsb2 List.length_replicate front
  obtain ⟨usb3Ports, second, usb3⟩ := fillUsb3_ok usb2Hubs allocUsb3 (by rw [same]; exact enough)
  rw [same] at usb3
  refine ⟨{ usb2Hubs with usb3Ports }, ?_, same, usb2, usb3⟩
  rw [fillPorts, first]
  exact second

/-! ### Numbers of ports -/

/-- A port is similar if it is of the kind of the hub's ports. -/
theorem similar_iff (usb3 : Bool) (entry : BitVec 8) :
    ¬(entry = 0 ∨ entry = duplicateEntry) ∧ (entry == 3) = usb3 ↔ kind usb3 entry = true := by
  cases usb3 with
  | false => rw [kind, if_neg Bool.false_ne_true, isUsb2_iff, not_or, beq_eq_false_iff_ne]; tauto
  | true =>
    rw [kind, if_pos rfl, isUsb3, beq_iff_eq]
    refine ⟨And.right, ?_⟩
    rintro rfl
    exact ⟨by decide, rfl⟩

/-- The ports of the same kind before a port are counted. -/
theorem findFakedPortnum_eq (portArray : List (BitVec 8)) (usb3 : Bool) {portId : Nat} (inside : portId - 1 ≤ portArray.length) :
    findFakedPortnum portArray usb3 portId = some (portArray.countPBefore (kind usb3) (portId - 1)) := by
  rw [findFakedPortnum]
  generalize portId - 1 = n at inside
  induction n with
  | zero => simp
  | succ n ih =>
    have here := List.getElem?_eq_getElem (show n < portArray.length from inside)
    generalize portArray[n] = entry at here
    rw [List.range_succ, List.foldlM_append, ih (by omega)]
    simp only [Option.bind_eq_bind, Option.bind_some, List.foldlM_cons, List.foldlM_nil, here, Option.map_some, Option.pure_def]
    rw [List.countPBefore_eq_countP_take, List.countPBefore_eq_countP_take, List.take_add_one, here, List.countP_append,
      Option.toList_some, List.countP_singleton]
    by_cases similar : kind usb3 entry = true
    · obtain ⟨known, same⟩ := (similar_iff usb3 entry).mpr similar
      rw [if_neg known, if_pos same, if_pos similar]
    · rw [if_neg similar]
      split_ifs with unknown same
      · rfl
      · exact absurd ((similar_iff usb3 entry).mp ⟨unknown, same⟩) similar
      · rfl

theorem findRawPortNumber_eq {portStatusBase : Nat} {usb3 : Bool} {k i : Nat}
    (here : (hubs.ports usb3)[k]? = some (some (portsc portStatusBase i))) :
    findRawPortNumber portStatusBase hubs usb3 (k + 1) = some ((i + 1 : Nat) : Int) := by
  have same : (if !usb3 then hubs.usb2Ports else hubs.usb3Ports) = hubs.ports usb3 := by
    cases usb3 <;> rfl
  rw [findRawPortNumber, same, Nat.add_sub_cancel, here]
  simp only [Option.join_some, Option.map_some, portsc, numPortRegs]
  have difference : ((portStatusBase + 4 * i : Nat) : Int) - portStatusBase = 4 * i := by
    push_cast
    ring
  rw [difference, Nat.cast_ofNat, Int.mul_tdiv_cancel_left _ (by decide)]
  rfl

/-! ### Bits of the descriptor -/

theorem bitAt_write {bytes : List (BitVec 8)} {n : Nat} {byte : BitVec 8} (here : bytes[n / 8]? = some byte) (m : Nat) :
    bitAt (bytes.set (n / 8) (byte ||| (1 : BitVec 8) <<< (n % 8))) m = (bitAt bytes m || decide (m = n)) := by
  obtain ⟨inside, is_byte⟩ := List.getElem?_eq_some_iff.mp here
  rw [bitAt, bitAt, List.getD_eq_getElem?_getD, List.getD_eq_getElem?_getD, List.getElem?_set]
  by_cases same : n / 8 = m / 8
  · rw [if_pos same, ← same, here]
    have small : m % 8 < 8 := Nat.mod_lt _ (by decide)
    have bit : ((1 : BitVec 8) <<< (n % 8)).getLsbD (m % 8) = decide (m = n) := by
      rw [BitVec.getLsbD_shiftLeft, show (1 : BitVec 8) = 1#8 from rfl, BitVec.getLsbD_one]
      rw [← decide_not, ← Bool.decide_and, ← Bool.decide_and, ← Bool.decide_and, decide_eq_decide]
      omega
    simp only [inside, if_true, Option.getD_some, BitVec.getLsbD_or, bit]
  · rw [if_neg same]
    have other : m ≠ n := fun eq => same (by rw [eq])
    simp [other]

/-- The bit of a port is set exactly if its device cannot be removed. -/
theorem portRemovable_bits (flags : List Bool) : ∀ n ≤ flags.length, n ≤ usbMaxChildren →
    ∃ bytes, portRemovable flags n = some bytes ∧ bytes.length = removableSize ∧
      ∀ m, bitAt bytes m = decide (0 < m ∧ m ≤ n ∧ flags.getD (m - 1) false = true) := by
  intro n
  induction n with
  | zero =>
    intro _ _
    refine ⟨_, rfl, List.length_replicate, fun m => ?_⟩
    have none_set : ¬(0 < m ∧ m ≤ 0 ∧ flags.getD (m - 1) false = true) := by omega
    rw [decide_eq_false none_set, bitAt, List.getD_eq_getElem?_getD, List.getElem?_replicate]
    split_ifs <;> simp
  | succ n ih =>
    intro inside few
    obtain ⟨bytes, done, size, bits⟩ := ih (by omega) (by omega)
    have flag := List.getElem?_eq_getElem (show n < flags.length from inside)
    generalize flags[n] = removable at flag
    have flag' : flags.getD n false = removable := by
      rw [List.getD_eq_getElem?_getD, flag]
      rfl
    rw [portRemovable] at done ⊢
    rw [List.range_succ, List.foldlM_append, done]
    simp only [Option.bind_eq_bind, Option.bind_some, List.foldlM_cons, List.foldlM_nil, flag, Option.pure_def]
    cases removable with
    | false =>
      refine ⟨bytes, rfl, size, fun m => ?_⟩
      rw [bits, decide_eq_decide]
      refine ⟨fun ⟨pos, le, set⟩ => ⟨pos, by omega, set⟩, fun ⟨pos, le, set⟩ => ⟨pos, ?_, set⟩⟩
      by_contra beyond
      rw [show m - 1 = n by omega, flag'] at set
      exact absurd set Bool.false_ne_true
    | true =>
      have room : (n + 1) / 8 < bytes.length := by
        rw [size, removableSize, usbMaxChildren]
        rw [usbMaxChildren] at few
        omega
      have here := List.getElem?_eq_getElem room
      simp only [here, if_true, Option.bind_some]
      rw [write_some room]
      refine ⟨_, rfl, List.length_set.trans size, fun m => ?_⟩
      rw [bitAt_write here, bits, ← Bool.decide_or, decide_eq_decide]
      constructor
      · rintro (⟨pos, le, set⟩ | rfl)
        · exact ⟨pos, by omega, set⟩
        · exact ⟨by omega, le_rfl, flag'⟩
      · rintro ⟨pos, le, set⟩
        rcases Nat.eq_or_lt_of_le le with rfl | before
        · exact .inr rfl
        · exact .inl ⟨pos, by omega, set⟩

theorem copyBytes_eq (src dst : List (BitVec 8)) : ∀ n ≤ src.length, n ≤ dst.length →
    copyBytes src dst n = some (src.take n ++ dst.drop n) := by
  intro n
  induction n with
  | zero => exact fun _ _ => rfl
  | succ n ih =>
    intro inside room
    have done := ih (by omega) (by omega)
    rw [copyBytes] at done ⊢
    rw [List.range_succ, List.foldlM_append, done]
    have here := List.getElem?_eq_getElem (show n < src.length from inside)
    have size : (src.take n).length = n := by
      rw [List.length_take]
      omega
    simp only [Option.bind_eq_bind, Option.bind_some, List.foldlM_cons, List.foldlM_nil, here]
    rw [write_some (by rw [List.length_append, size, List.length_drop]; omega)]
    simp only [Option.bind_some, Option.pure_def]
    rw [List.set_append_right _ _ size.le, size, Nat.sub_self, List.drop_eq_getElem_cons room, List.set_cons_zero, List.take_add_one,
      here, Option.toList_some, List.append_assoc]
    rfl

/-- The descriptor has the bits that were kept. -/
theorem usb2HubDescriptor_bits (env : Env) (room : hubs.numUsb2Ports.toNat ≤ hubs.usb2PortRemovable.length)
    (few : hubs.numUsb2Ports.toNat ≤ usbMaxChildren) : ∃ desc, usb2HubDescriptor env hubs = some desc ∧
      ∀ k < hubs.numUsb2Ports.toNat, bitAt desc.deviceRemovable (k + 1) = hubs.usb2PortRemovable.getD k false := by
  obtain ⟨bytes, removable, size, bits⟩ := portRemovable_bits hubs.usb2PortRemovable _ room few
  have enough : (hubs.numUsb2Ports.toNat + 1 + 7) / 8 ≤ removableSize := by
    rw [usbMaxChildren] at few
    rw [removableSize, usbMaxChildren]
    omega
  have copied := copyBytes_eq bytes (List.replicate removableSize 0xff) _ (enough.trans_eq size.symm)
    (enough.trans_eq List.length_replicate.symm)
  rw [usb2HubDescriptor, removable]
  simp only [Option.bind_eq_bind, Option.bind_some, copied]
  refine ⟨_, rfl, fun k less => ?_⟩
  have inside : (k + 1) / 8 < (bytes.take ((hubs.numUsb2Ports.toNat + 1 + 7) / 8)).length := by
    rw [List.length_take, size]
    omega
  have same : bitAt (bytes.take ((hubs.numUsb2Ports.toNat + 1 + 7) / 8) ++
      (List.replicate removableSize (0xff : BitVec 8)).drop ((hubs.numUsb2Ports.toNat + 1 + 7) / 8)) (k + 1) = bitAt bytes (k + 1) := by
    rw [bitAt, bitAt, List.getD_eq_getElem?_getD, List.getD_eq_getElem?_getD, List.getElem?_append_left inside,
      List.getElem?_take_of_lt (by omega)]
  rw [same, bits, Nat.add_sub_cancel]
  cases hubs.usb2PortRemovable.getD k false with
  | false => simp
  | true =>
    rw [decide_eq_true_eq]
    exact ⟨by omega, by omega, rfl⟩

/-! ### The mapping -/

/-- Ports that come first have the numbers of the hardware. -/
theorem findIdxNth_of_front {p : BitVec 8 → Bool} {l : List (BitVec 8)} {n : Nat} (empty : p 0 = false)
    (front : ∀ k < n, p (l.getD k 0) = true) {k : Nat} (less : k < n) : k < l.countP p ∧ l.findIdxNth p k = k := by
  have inside : ∀ j < n, ∃ entry, l[j]? = some entry ∧ p entry = true := by
    intro j less_j
    have holds := front j less_j
    rw [List.getD_eq_getElem?_getD] at holds
    cases here : l[j]? with
    | none =>
      rw [here, Option.getD_none, empty] at holds
      exact absurd holds Bool.false_ne_true
    | some entry =>
      rw [here] at holds
      exact ⟨entry, rfl, holds⟩
  obtain ⟨entry, here, holds⟩ := inside k less
  obtain ⟨short, rfl⟩ := List.getElem?_eq_some_iff.mp here
  have before : l.countPBefore p k = k := by
    rw [List.countPBefore_eq_countP_take]
    have all : ∀ entry ∈ l.take k, p entry = true := by
      intro entry member
      obtain ⟨j, less_j, is_entry⟩ := List.getElem_of_mem member
      rw [List.length_take] at less_j
      obtain ⟨entry', there, holds'⟩ := inside j (by omega)
      rw [List.getElem_take] at is_entry
      rw [List.getElem?_eq_getElem (by omega), Option.some.injEq] at there
      rw [← is_entry, there]
      exact holds'
    rw [List.countP_eq_length.mpr all, List.length_take]
    omega
  have count := List.countPBefore_lt_countP_of_lt_length_of_pos holds
  have index := List.findIdxNth_countPBefore_of_lt_length_of_pos holds
  rw [before] at count index
  exact ⟨count, index⟩

theorem mapped_of_filled {xhci : Xhci} (same : hubs.toXhci = xhci) (front : Front xhci)
    (enough : xhci.numUsb3Ports.toNat ≤ xhci.portArray.countP isUsb3)
    (usb2 : ∀ m < xhci.numUsb2Ports.toNat,
      hubs.usb2Ports[m]? = some (some (portsc env.portStatusBase m)) ∧ hubs.usb2PortRemovable[m]? = some (isFixed env m))
    (usb3 : ∀ m < xhci.numUsb3Ports.toNat,
      hubs.usb3Ports[m]? = some (some (portsc env.portStatusBase (xhci.portArray.findIdxNth isUsb3 m)))) : Mapped env hubs := by
  subst same
  have first : ∀ {k}, k < hubs.numUsb2Ports.toNat → k < hubs.portArray.countP isUsb2 ∧ hubs.portArray.findIdxNth isUsb2 k = k :=
    findIdxNth_of_front rfl front.2
  have ports : ∀ usb3 k, k < hubs.numPorts usb3 → k < hubs.portArray.countP (kind usb3) ∧
      (hubs.ports usb3)[k]? = some (some (portsc env.portStatusBase (hubs.portArray.findIdxNth (kind usb3) k))) := by
    intro is_usb3 k less
    cases is_usb3 with
    | false =>
      obtain ⟨count, index⟩ := first less
      refine ⟨count, (usb2 k less).1.trans ?_⟩
      change _ = some (some (portsc env.portStatusBase (hubs.portArray.findIdxNth isUsb2 k)))
      rw [index]
    | true => exact ⟨lt_of_lt_of_le less enough, usb3 k less⟩
  have inside : ∀ usb3 k, k < hubs.portArray.countP (kind usb3) →
      findFakedPortnum hubs.portArray usb3 (hubs.portArray.findIdxNth (kind usb3) k + 1) = some k := by
    intro is_usb3 k count
    rw [findFakedPortnum_eq _ _ (by rw [Nat.add_sub_cancel]; exact List.findIdxNth_le_length), Nat.add_sub_cancel,
      List.countPBefore_findIdxNth_of_lt_countP count]
  refine ⟨ports, ?_, ?_, ?_⟩
  · intro is_usb3 k less
    obtain ⟨count, here⟩ := ports is_usb3 k less
    exact ⟨_, findRawPortNumber_eq here, inside is_usb3 k count⟩
  · intro is_usb3 portId entry pos here similar
    obtain ⟨short, rfl⟩ := List.getElem?_eq_some_iff.mp here
    refine ⟨_, findFakedPortnum_eq hubs.portArray is_usb3 short.le, fun less => ?_⟩
    obtain ⟨-, there⟩ := ports is_usb3 _ less
    rw [List.findIdxNth_countPBefore_of_lt_length_of_pos similar] at there
    rw [findRawPortNumber_eq there, Nat.sub_add_cancel pos]
  · have room : hubs.numUsb2Ports.toNat ≤ hubs.usb2PortRemovable.length := by
      by_contra short
      rw [not_le] at short
      have last := (usb2 _ short).2
      rw [List.getElem?_eq_none le_rfl] at last
      exact absurd last (by simp)
    obtain ⟨desc, done, bits⟩ := usb2HubDescriptor_bits env room (front.1.trans (by decide))
    refine ⟨desc, done, fun k less => ?_⟩
    rw [bits k less, List.getD_eq_getElem?_getD, (usb2 k less).2, (first less).2]
    rfl

end

/-! ### Setting up -/

section
variable {env : Env} {xhci xhci' : Xhci}

/-- The capabilities are added up to some of them. -/
theorem scanCaps_run {hciVersion : BitVec 16} {numPorts : BitVec 32} {capCount : Nat} : ∀ (caps : List ExtCap) {xhci : Xhci},
    scanCaps hciVersion numPorts capCount caps xhci = some (.ok xhci') →
      ∃ added, addInPorts hciVersion numPorts capCount added xhci = some xhci' := by
  intro caps
  induction caps with
  | nil =>
    intro xhci done
    cases done
    exact ⟨[], rfl⟩
  | cons c caps ih =>
    intro xhci done
    rw [scanCaps] at done
    by_cases unread : c.capId = -1
    · rw [if_pos unread] at done
      exact absurd done (by simp)
    rw [if_neg unread] at done
    obtain ⟨next, first, rest⟩ := Option.bind_eq_some_iff.mp done
    have later : ∃ added, addInPorts hciVersion numPorts capCount added next = some xhci' := by
      by_cases last : c.next = 0 ∨ next.numUsb2Ports + next.numUsb3Ports = numPorts
      · rw [if_pos last] at rest
        cases rest
        exact ⟨[], rfl⟩
      · rw [if_neg last] at rest
        exact ih rest
    obtain ⟨added, run⟩ := later
    by_cases protocol : c.isProtocol = true
    · rw [if_pos protocol] at first
      refine ⟨c.capability :: added, ?_⟩
      rw [addInPorts, List.foldlM_cons, first]
      exact run
    · rw [if_neg protocol] at first
      cases first
      exact ⟨added, run⟩

theorem limitPorts_usb3 (usb3 : Usb3Counted xhci) :
    (limitPorts xhci).numUsb3Ports.toNat ≤ (limitPorts xhci).portArray.countP isUsb3 := by
  rw [Usb3Counted] at usb3
  rw [limitPorts]
  split_ifs with many
  · exact (BitVec.le_def.mp (BitVec.le_of_lt many)).trans_eq usb3
  · exact (BitVec.le_def.mp (BitVec.le_of_lt many)).trans_eq usb3
  · exact usb3.le
  · exact usb3.le

theorem Scanned.setup (scanned : Scanned env xhci) : setupPortArrays env = fillPorts env (limitPorts xhci) ∧ Usb3Counted xhci := by
  obtain ⟨⟨readable, some_caps⟩, ⟨alloc, -, -⟩, ⟨capCount, counted, done⟩, some_port⟩ := scanned
  refine ⟨?_, ?_⟩
  · rw [setupPortArrays]
    dsimp only
    rw [if_neg readable, if_neg some_caps, alloc, if_neg (by simp), counted]
    dsimp only
    rw [done]
    dsimp only [Option.bind_some]
    rw [if_neg some_port]
  · obtain ⟨added, run⟩ := scanCaps_run env.extCaps done
    obtain ⟨_, run', -, -, usb3, -⟩ := addInPorts_run env.hciVersion (hcsMaxPorts env.hcsParams1) capCount added
    rw [run] at run'
    cases run'
    exact usb3

/-- The ports are set up without an access outside of the arrays, and numbered in the order of the
    hardware with the bits of their own registers, exactly if the ports of the USB 2.0 hub are the
    first ones and no more than four. -/
theorem setupPortArrays_mapped (scanned : Scanned env xhci) :
    (∃ hubs, setupPortArrays env = some (.ok hubs) ∧ Mapped env hubs) ↔ Front (limitPorts xhci) := by
  obtain ⟨setup, counted⟩ := scanned.setup
  obtain ⟨-, ⟨-, allocUsb2, allocUsb3⟩, -, -⟩ := scanned
  have enough := limitPorts_usb3 counted
  rw [setup]
  constructor
  · rintro ⟨hubs, done, mapped⟩
    refine front_of_fillPorts allocUsb2 allocUsb3 enough done fun m less => ?_
    exact ⟨_, (mapped.ports false m less).2⟩
  · intro front
    obtain ⟨hubs, done, same, usb2, usb3⟩ := fillPorts_ok allocUsb2 allocUsb3 enough front
    exact ⟨hubs, done, mapped_of_filled same front enough usb2 usb3⟩

end

/-- A host of two ports, with a capability for each; the device of the first one cannot be
    removed. -/
def twoPorts (first second : BitVec 32) : Env :=
  ⟨0x96, 0x02000000, 0x00010000, [⟨first ||| 0x402, 0x101⟩, ⟨second ||| 0x2, 0x102⟩], 0x440,
    fun addr => if addr = 0x440 then portDevRemove else 0, true, true, true⟩

/-- The capability of the USB 2.0 port comes first. -/
def usb2First : Xhci := ⟨[2, 3], 1, 1, [0x101, 0], 1, false, false, false⟩

def usb3First : Xhci := ⟨[3, 2], 1, 1, [0x102, 0], 1, false, false, false⟩

theorem usb2First_scanned : Scanned (twoPorts 0x02000000 0x03000000) usb2First where
  offset := by decide
  alloc := ⟨rfl, rfl, rfl⟩
  scanned := ⟨2, rfl, rfl⟩
  some_port := by decide

theorem usb3First_scanned : Scanned (twoPorts 0x03000000 0x02000000) usb3First where
  offset := by decide
  alloc := ⟨rfl, rfl, rfl⟩
  scanned := ⟨2, rfl, rfl⟩
  some_port := by decide

theorem setupPortArrays_mapped_two : ∃ hubs, setupPortArrays (twoPorts 0x02000000 0x03000000) = some (.ok hubs) ∧
    Mapped (twoPorts 0x02000000 0x03000000) hubs :=
  (setupPortArrays_mapped usb2First_scanned).mpr ⟨by decide, by decide⟩

/-- With the other order `usb2_ports[1]` is read, which is outside of the array. -/
theorem not_setupPortArrays_mapped : ¬∀ env xhci, Scanned env xhci → limitPorts xhci = xhci →
    ∃ hubs, setupPortArrays env = some (.ok hubs) ∧ Mapped env hubs := by
  intro mapped
  obtain ⟨hubs, done, -⟩ := mapped _ _ usb3First_scanned rfl
  have fault : (setupPortArrays (twoPorts 0x03000000 0x02000000)).isNone = true := by decide +kernel
  rw [done] at fault
  exact absurd fault (by simp)

end Ehub.RootPorts
