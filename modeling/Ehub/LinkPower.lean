import Mathlib
import Ehub.EndpointConfig

/-!
The power states U1 and U2 of a SuperSpeed link. `xhci_calculate_lpm_timeout` works out
after which idle time the hub may move a device's link to U1 or U2. It looks at one
endpoint after the other and stops at the first one that the hub must not do this for; then
the device may be allowed to do it on its own.

Whatever is enabled, the controller has to know how long it takes to leave it
(`calculate_max_exit_latency`), which an Evaluate Context command tells it.
-/
namespace Ehub.LinkPower

/-- `enum usb3_link_state`. -/
inductive LinkState
  | u0
  | u1
  | u2
  | u3
  deriving DecidableEq

def lpmDisabled : Nat := 0x0
def lpmU1MaxTimeout : Nat := 0x7f
def lpmU2MaxTimeout : Nat := 0xfe
def lpmDeviceInitiated : Nat := 0xff
def lpmMaxU1SelPel : Nat := 0xff
def lpmMaxU2SelPel : Nat := 0xffff
def maxExit : Nat := 0xffff

def e2BIG : Int := 7

/-- `struct usb3_lpm_parameters`, with times in nanoseconds. `timeout` is what the hub has
    been set to. -/
structure LpmParameters where
  mel : BitVec 32
  pel : BitVec 32
  sel : BitVec 32
  timeout : Nat

/-- An endpoint descriptor: the types of endpoint and of interrupt endpoint from
    `bmAttributes`, and `bInterval`. -/
structure Descriptor where
  xfer : EndpointConfig.Xfer
  notification : Bool
  bInterval : BitVec 8

/-- An interface: whether its driver asks for no timeouts in the hub, and the endpoints of
    its alternate setting. -/
structure Interface where
  disableHubInitiatedLpm : Bool
  altsetting : Option (List Descriptor)

/-- A device, behind so many hubs other than the root hub. -/
structure Device where
  u1 : LpmParameters
  u2 : LpmParameters
  u2DevExitLat : BitVec 16
  ep0 : Descriptor
  config : Option (List (Option Interface))
  hubs : Nat

/-- `DIV_ROUND_UP(n, 1000)` of an unsigned int. -/
def microseconds (n : BitVec 32) : Nat := ((n + 999) / 1000).toNat

/-- `DIV_ROUND_UP_ULL`. -/
def divRoundUpUll (n d : Nat) : Nat := (n + d - 1) % 2 ^ 64 / d

/-- `xhci_service_interval_to_ns`. C leaves a shift by -1 or by 64 and more open; the count
    is taken modulo 64 here, as on x86. -/
def serviceIntervalToNs (desc : Descriptor) : Nat := ((1#64 <<< ((desc.bInterval.toNat + 63) % 64)) * 125 * 1000).toNat

/-- `xhci_get_timeout_no_hub_lpm`. -/
def getTimeoutNoHubLpm (udev : Device) : LinkState → Nat
  | .u1 =>
    if microseconds udev.u1.sel ≤ lpmMaxU1SelPel ∧ microseconds udev.u1.pel ≤ lpmMaxU1SelPel then lpmDeviceInitiated
    else lpmDisabled
  | .u2 =>
    if microseconds udev.u2.sel ≤ lpmMaxU2SelPel ∧ microseconds udev.u2.pel ≤ lpmMaxU2SelPel then lpmDeviceInitiated
    else lpmDisabled
  | _ => lpmDisabled

/-- 105% of the service interval, but no less than twice the exit latency. -/
def intelPeriodicTimeout (udev : Device) (desc : Descriptor) : Nat :=
  let timeoutNs := divRoundUpUll (serviceIntervalToNs desc * 105 % 2 ^ 64) 100
  if timeoutNs < (udev.u1.sel * 2).toNat then (udev.u1.sel * 2).toNat else timeoutNs

/-- `xhci_calculate_intel_u1_timeout`. -/
def calculateIntelU1Timeout (udev : Device) (desc : Descriptor) : Nat :=
  match desc.xfer with
  | .control => (udev.u1.sel * 3).toNat
  | .bulk => (udev.u1.sel * 5).toNat
  | .interrupt => if desc.notification then (udev.u1.sel * 3).toNat else intelPeriodicTimeout udev desc
  | .isoc => intelPeriodicTimeout udev desc

/-- `xhci_calculate_u1_timeout`; `intel` is the quirk `XHCI_INTEL_HOST`. -/
def calculateU1Timeout (intel : Bool) (udev : Device) (desc : Descriptor) : Nat :=
  let timeoutNs := if intel then calculateIntelU1Timeout udev desc else udev.u1.sel.toNat
  let timeoutNs := if timeoutNs = lpmDisabled then 1 else divRoundUpUll timeoutNs 1000
  if timeoutNs ≤ lpmU1MaxTimeout then timeoutNs else getTimeoutNoHubLpm udev .u1

/-- `xhci_calculate_intel_u2_timeout`. -/
def calculateIntelU2Timeout (udev : Device) (desc : Descriptor) : Nat :=
  let timeoutNs := 10 * 1000 * 1000
  let timeoutNs :=
    if (desc.xfer = .interrupt ∨ desc.xfer = .isoc) ∧ timeoutNs < serviceIntervalToNs desc then serviceIntervalToNs desc else timeoutNs
  let u2DelNs := udev.u2DevExitLat.toNat * 1000
  if timeoutNs < u2DelNs then u2DelNs else timeoutNs

/-- `xhci_calculate_u2_timeout`. -/
def calculateU2Timeout (intel : Bool) (udev : Device) (desc : Descriptor) : Nat :=
  let timeoutNs := if intel then calculateIntelU2Timeout udev desc else udev.u2.sel.toNat
  let timeoutNs := divRoundUpUll timeoutNs (256 * 1000)
  if timeoutNs ≤ lpmU2MaxTimeout then timeoutNs else getTimeoutNoHubLpm udev .u2

/-- `xhci_call_host_update_timeout_for_endpoint`. -/
def callHostUpdateTimeoutForEndpoint (intel : Bool) (udev : Device) (desc : Descriptor) : LinkState → Nat
  | .u1 => calculateU1Timeout intel udev desc
  | .u2 => calculateU2Timeout intel udev desc
  | _ => lpmDisabled

/-- The timeout so far, and whether it is final (`-E2BIG` is returned). -/
structure Timeout where
  timeout : Nat
  final : Bool

/-- `xhci_update_timeout_for_endpoint`. -/
def updateTimeoutForEndpoint (intel : Bool) (udev : Device) (state : LinkState) (desc : Descriptor) (timeout : Nat) : Timeout :=
  let altTimeout := callHostUpdateTimeoutForEndpoint intel udev desc state
  if altTimeout = lpmDisabled ∨ altTimeout = lpmDeviceInitiated then ⟨altTimeout, true⟩
  else ⟨if timeout < altTimeout then altTimeout else timeout, false⟩

/-- `xhci_update_timeout_for_interface`. -/
def updateTimeoutForInterface (intel : Bool) (udev : Device) (state : LinkState) : List Descriptor → Nat → Timeout
  | [], timeout => ⟨timeout, false⟩
  | desc :: descs, timeout =>
    let r := updateTimeoutForEndpoint intel udev state desc timeout
    if r.final then r else updateTimeoutForInterface intel udev state descs r.timeout

/-- The loop over the interfaces in `xhci_calculate_lpm_timeout`. -/
def interfacesLoop (intel : Bool) (udev : Device) (state : LinkState) : List (Option Interface) → Nat → Nat
  | [], timeout => timeout
  | none :: intfs, timeout => interfacesLoop intel udev state intfs timeout
  | some intf :: intfs, timeout =>
    if intf.disableHubInitiatedLpm then getTimeoutNoHubLpm udev state
    else
      match intf.altsetting with
      | none => interfacesLoop intel udev state intfs timeout
      | some descs =>
        let r := updateTimeoutForInterface intel udev state descs timeout
        if r.final then r.timeout else interfacesLoop intel udev state intfs r.timeout

/-- `xhci_check_tier_policy` with `xhci_check_intel_tier_policy`: whether the state may be
    used as far down as the device is. -/
def checkTierPolicy (intel : Bool) (udev : Device) (state : LinkState) : Bool :=
  !intel || state == .u2 || decide (udev.hubs < 2)

/-- `xhci_calculate_lpm_timeout`. -/
def calculateLpmTimeout (intel : Bool) (udev : Device) (state : LinkState) : Nat :=
  if state ≠ .u1 ∧ state ≠ .u2 then lpmDisabled
  else if !checkTierPolicy intel udev state then lpmDisabled
  else
    let r := updateTimeoutForEndpoint intel udev state udev.ep0 lpmDisabled
    if r.final then r.timeout
    else
      match udev.config with
      | none => r.timeout
      | some intfs => interfacesLoop intel udev state intfs r.timeout

/-- `calculate_max_exit_latency`. -/
def calculateMaxExitLatency (udev : Device) (stateChanged : LinkState) (hubEncodedTimeout : Nat) : Int :=
  let disablingU1 := stateChanged = .u1 ∧ hubEncodedTimeout = lpmDisabled
  let disablingU2 := stateChanged = .u2 ∧ hubEncodedTimeout = lpmDisabled
  let enablingU1 := stateChanged = .u1 ∧ hubEncodedTimeout ≠ lpmDisabled
  let enablingU2 := stateChanged = .u2 ∧ hubEncodedTimeout ≠ lpmDisabled
  let u1MelUs := if udev.u1.timeout ≠ lpmDisabled ∧ ¬disablingU1 ∨ enablingU1 then microseconds udev.u1.mel else 0
  let u2MelUs := if udev.u2.timeout ≠ lpmDisabled ∧ ¬disablingU2 ∨ enablingU2 then microseconds udev.u2.mel else 0
  let melUs := if u2MelUs < u1MelUs then u1MelUs else u2MelUs
  if maxExit < melUs then -e2BIG else melUs

/-! ### What the endpoints ask for -/

/-- The service interval in nanoseconds. -/
def interval (desc : Descriptor) : Nat := 2 ^ (desc.bInterval.toNat - 1) * 125000

def Descriptor.periodic (desc : Descriptor) : Prop := desc.xfer = .interrupt ∨ desc.xfer = .isoc

instance decidablePeriodic (desc : Descriptor) : Decidable desc.periodic := inferInstanceAs (Decidable (_ ∨ _))

/-- The time that a link is to be idle before it goes to U1, for an endpoint. -/
def neededU1 (intel : Bool) (udev : Device) (desc : Descriptor) : Nat :=
  let sel := udev.u1.sel.toNat
  if !intel then sel
  else if desc.xfer = .bulk then 5 * sel
  else if desc.xfer = .control ∨ desc.xfer = .interrupt ∧ desc.notification then 3 * sel
  else max ((interval desc * 105 + 99) / 100) (2 * sel)

/-- The time that a link is to be idle before it goes to U2. -/
def neededU2 (intel : Bool) (udev : Device) (desc : Descriptor) : Nat :=
  if !intel then udev.u2.sel.toNat
  else max (max 10000000 (if desc.periodic then interval desc else 0)) (udev.u2DevExitLat.toNat * 1000)

def needed (intel : Bool) (udev : Device) (desc : Descriptor) : LinkState → Nat
  | .u1 => neededU1 intel udev desc
  | .u2 => neededU2 intel udev desc
  | _ => 0

/-- The unit of a timeout in nanoseconds. -/
def unit : LinkState → Nat
  | .u2 => 256000
  | _ => 1000

def maxTimeout : LinkState → Nat
  | .u1 => lpmU1MaxTimeout
  | .u2 => lpmU2MaxTimeout
  | _ => 0

/-- The time in units, rounded up; a timeout of 0 for U1 would be none. -/
def encoded (intel : Bool) (udev : Device) (state : LinkState) (desc : Descriptor) : Nat :=
  if state = .u1 ∧ needed intel udev desc state = 0 then 1 else (needed intel udev desc state + (unit state - 1)) / unit state

/-- The endpoints of an interface. -/
def endpointsOf (intf : Option Interface) : List Descriptor := (intf.bind Interface.altsetting).getD []

/-- The endpoints of the current configuration. -/
def Device.endpoints (udev : Device) : List Descriptor := udev.ep0 :: (udev.config.getD []).flatMap endpointsOf

/-- A periodic endpoint has an interval of SuperSpeed. -/
def Descriptor.Served (desc : Descriptor) : Prop := desc.periodic → 1 ≤ desc.bInterval.toNat ∧ desc.bInterval.toNat ≤ 16

instance decidableServed (desc : Descriptor) : Decidable desc.Served := inferInstanceAs (Decidable (_ → _))

/-- The USB core sets `bInterval` of a periodic endpoint to a value from 1 to 16, and works
    the latencies out from 16-bit fields. -/
structure Regular (udev : Device) : Prop where
  bInterval : ∀ desc ∈ udev.endpoints, desc.Served
  sel : udev.u1.sel.toNat * 5 < 2 ^ 32

theorem serviceIntervalToNs_eq {desc : Descriptor} (served : desc.Served) (periodic : desc.periodic) :
    serviceIntervalToNs desc = interval desc := by
  obtain ⟨some, small⟩ := served periodic
  have count : (desc.bInterval.toNat + 63) % 64 = desc.bInterval.toNat - 1 := by omega
  have power : 2 ^ (desc.bInterval.toNat - 1) ≤ 2 ^ 15 := Nat.pow_le_pow_right (by decide) (by omega)
  rw [serviceIntervalToNs, interval, count, BitVec.toNat_mul, BitVec.toNat_mul, BitVec.toNat_shiftLeft, Nat.shiftLeft_eq,
    show (1#64).toNat = 1 from rfl, show (125 : BitVec 64).toNat = 125 from rfl, show (1000 : BitVec 64).toNat = 1000 from rfl]
  omega

theorem interval_le {desc : Descriptor} (served : desc.Served) (periodic : desc.periodic) : interval desc ≤ 2 ^ 15 * 125000 := by
  have small := (served periodic).2
  exact Nat.mul_le_mul_right _ (Nat.pow_le_pow_right (by decide) (by omega))

theorem toNat_mul_small {n : BitVec 32} {k : Nat} (small : n.toNat * 5 < 2 ^ 32) (le : k ≤ 5) : (n * BitVec.ofNat 32 k).toNat = k * n.toNat := by
  have product : n.toNat * k ≤ n.toNat * 5 := Nat.mul_le_mul_left _ le
  rw [BitVec.toNat_mul, BitVec.toNat_ofNat, Nat.mod_eq_of_lt (by omega : k < 2 ^ 32), Nat.mod_eq_of_lt (by omega), Nat.mul_comm]

theorem intelPeriodicTimeout_eq {udev : Device} {desc : Descriptor} (served : desc.Served) (periodic : desc.periodic)
    (sel : udev.u1.sel.toNat * 5 < 2 ^ 32) :
    intelPeriodicTimeout udev desc = max ((interval desc * 105 + 99) / 100) (2 * udev.u1.sel.toNat) := by
  have bound := interval_le served periodic
  have twice : (udev.u1.sel * 2).toNat = 2 * udev.u1.sel.toNat := toNat_mul_small sel (by decide)
  have whole : divRoundUpUll (interval desc * 105 % 2 ^ 64) 100 = (interval desc * 105 + 99) / 100 := by
    rw [divRoundUpUll]
    omega
  rw [intelPeriodicTimeout, serviceIntervalToNs_eq served periodic, whole, twice]
  split_ifs <;> omega

theorem intelU1_eq {udev : Device} {desc : Descriptor} (served : desc.Served) (sel : udev.u1.sel.toNat * 5 < 2 ^ 32) :
    calculateIntelU1Timeout udev desc = neededU1 true udev desc := by
  have three : (udev.u1.sel * 3).toNat = 3 * udev.u1.sel.toNat := toNat_mul_small sel (by decide)
  have five : (udev.u1.sel * 5).toNat = 5 * udev.u1.sel.toNat := toNat_mul_small sel (by decide)
  have periodic (there : desc.periodic) := intelPeriodicTimeout_eq served there sel
  rw [calculateIntelU1Timeout, neededU1]
  cases xfer : desc.xfer with
  | control => simpa using three
  | bulk => simpa using five
  | isoc => simp [periodic (.inr xfer)]
  | interrupt =>
    cases notification : desc.notification with
    | true => simpa using three
    | false => simp [periodic (.inl xfer)]

theorem intelU2_eq {udev : Device} {desc : Descriptor} (served : desc.Served) :
    calculateIntelU2Timeout udev desc = neededU2 true udev desc := by
  rw [calculateIntelU2Timeout, neededU2]
  simp only [Descriptor.periodic, Bool.not_true, Bool.false_eq_true, if_false]
  by_cases periodic : desc.xfer = .interrupt ∨ desc.xfer = .isoc
  · simp only [periodic, true_and, if_true, serviceIntervalToNs_eq served periodic]
    split_ifs <;> omega
  · simp only [periodic, false_and, if_false]
    split_ifs <;> omega

theorem neededU1_le (intel : Bool) {udev : Device} {desc : Descriptor} (served : desc.Served)
    (sel : udev.u1.sel.toNat * 5 < 2 ^ 32) : neededU1 intel udev desc ≤ 2 ^ 33 := by
  rw [neededU1]
  split_ifs with _ bulk brief
  · omega
  · omega
  · omega
  · have periodic : desc.periodic := by
      cases xfer : desc.xfer with
      | control => exact absurd (.inl xfer) brief
      | bulk => exact absurd xfer bulk
      | interrupt => exact .inl xfer
      | isoc => exact .inr xfer
    have bound := interval_le served periodic
    omega

theorem neededU2_le (intel : Bool) (udev : Device) {desc : Descriptor} (served : desc.Served) : neededU2 intel udev desc ≤ 2 ^ 33 := by
  have bound : desc.periodic → interval desc ≤ 2 ^ 15 * 125000 := interval_le served
  have exit := udev.u2DevExitLat.isLt
  have sel := udev.u2.sel.isLt
  rw [neededU2]
  split_ifs with _ periodic
  · omega
  · have long := bound periodic
    omega
  · omega

/-- The answer for an endpoint. -/
theorem callHost_eq (intel : Bool) {udev : Device} {desc : Descriptor} (served : desc.Served)
    (sel : udev.u1.sel.toNat * 5 < 2 ^ 32) {state : LinkState} (known : state = .u1 ∨ state = .u2) :
    callHostUpdateTimeoutForEndpoint intel udev desc state =
      if encoded intel udev state desc ≤ maxTimeout state then encoded intel udev state desc else getTimeoutNoHubLpm udev state := by
  obtain rfl | rfl := known
  · have fits := neededU1_le intel served sel
    have ns : (if intel then calculateIntelU1Timeout udev desc else udev.u1.sel.toNat) = neededU1 intel udev desc := by
      cases intel with
      | true => exact intelU1_eq served sel
      | false => rfl
    have whole : (if neededU1 intel udev desc = lpmDisabled then 1 else divRoundUpUll (neededU1 intel udev desc) 1000) =
        encoded intel udev .u1 desc := by
      by_cases zero : neededU1 intel udev desc = lpmDisabled
      · rw [if_pos zero, encoded, if_pos ⟨rfl, zero⟩]
      · rw [if_neg zero, encoded, if_neg fun both => zero both.2, divRoundUpUll]
        show _ = (neededU1 intel udev desc + (1000 - 1)) / 1000
        omega
    rw [callHostUpdateTimeoutForEndpoint, calculateU1Timeout, ns, whole]
    rfl
  · have fits := neededU2_le intel udev served
    have ns : (if intel then calculateIntelU2Timeout udev desc else udev.u2.sel.toNat) = neededU2 intel udev desc := by
      cases intel with
      | true => exact intelU2_eq served
      | false => rfl
    have whole : divRoundUpUll (neededU2 intel udev desc) (256 * 1000) = encoded intel udev .u2 desc := by
      rw [encoded, if_neg (by simp), needed, unit, divRoundUpUll]
      omega
    rw [callHostUpdateTimeoutForEndpoint, calculateU2Timeout, ns, whole]
    rfl

/-- For one endpoint no timeout is needed only if none is for any. -/
theorem encoded_zero {intel : Bool} {udev : Device} {state : LinkState} (known : state = .u1 ∨ state = .u2) {desc desc' : Descriptor}
    (zero : encoded intel udev state desc = 0) : encoded intel udev state desc' = 0 := by
  obtain rfl | rfl := known
  · simp only [encoded, unit, true_and] at zero
    split_ifs at zero
    omega
  · rw [encoded, if_neg (by simp), needed, unit, neededU2] at zero ⊢
    cases intel with
    | true =>
      simp only [Bool.not_true, Bool.false_eq_true, if_false] at zero
      omega
    | false => exact zero

/-! ### The loops -/

/-- The link may be moved by the hub, for this endpoint. -/
def Fits (intel : Bool) (udev : Device) (state : LinkState) (desc : Descriptor) : Prop :=
  encoded intel udev state desc ≤ maxTimeout state

instance decidableFits (intel : Bool) (udev : Device) (state : LinkState) (desc : Descriptor) :
    Decidable (Fits intel udev state desc) := inferInstanceAs (Decidable (_ ≤ _))

/-- `timeout` is the longest time asked for by these endpoints. -/
def Longest (intel : Bool) (udev : Device) (state : LinkState) (descs : List Descriptor) (timeout : Nat) : Prop :=
  IsGreatest {n | ∃ desc ∈ descs, encoded intel udev state desc = n} timeout

theorem Longest.singleton (intel : Bool) (udev : Device) (state : LinkState) (desc : Descriptor) :
    Longest intel udev state [desc] (max lpmDisabled (encoded intel udev state desc)) := by
  rw [lpmDisabled, Nat.zero_max]
  constructor
  · exact ⟨desc, List.mem_singleton_self _, rfl⟩
  · rintro n ⟨other, here, rfl⟩
    rw [List.mem_singleton.mp here]

theorem noHub_final (udev : Device) (state : LinkState) :
    getTimeoutNoHubLpm udev state = lpmDisabled ∨ getTimeoutNoHubLpm udev state = lpmDeviceInitiated := by
  cases state with
  | u1 | u2 =>
    rw [getTimeoutNoHubLpm]
    split_ifs
    · exact .inr rfl
    · exact .inl rfl
  | u0 | u3 => exact .inl rfl

/-- What is known of an endpoint: its interval is one of SuperSpeed, and it asks for some
    time. -/
structure Asks (intel : Bool) (udev : Device) (state : LinkState) (desc : Descriptor) : Prop where
  served : desc.Served
  some : 0 < encoded intel udev state desc

/-- The driver of an interface asks for no timeouts in the hub. -/
def Objects (intfs : List (Option Interface)) : Prop := ∃ intf, some intf ∈ intfs ∧ intf.disableHubInitiatedLpm = true

section
variable {intel : Bool} {udev : Device} {state : LinkState} (sel : udev.u1.sel.toNat * 5 < 2 ^ 32) (known : state = .u1 ∨ state = .u2)
include sel known

theorem updateTimeout_fits {desc : Descriptor} (asks : Asks intel udev state desc) (fits : Fits intel udev state desc) (timeout : Nat) :
    updateTimeoutForEndpoint intel udev state desc timeout = ⟨max timeout (encoded intel udev state desc), false⟩ := by
  have below : maxTimeout state < lpmDeviceInitiated := by obtain rfl | rfl := known <;> decide
  have answer := (callHost_eq intel asks.served sel known).trans (if_pos fits)
  have some := asks.some
  rw [Fits] at fits
  rw [updateTimeoutForEndpoint, answer, if_neg]
  · congr 1
    split_ifs <;> omega
  · rw [lpmDisabled]
    omega

theorem updateTimeout_stops {desc : Descriptor} (asks : Asks intel udev state desc) (long : ¬Fits intel udev state desc) (timeout : Nat) :
    updateTimeoutForEndpoint intel udev state desc timeout = ⟨getTimeoutNoHubLpm udev state, true⟩ := by
  have answer := (callHost_eq intel asks.served sel known).trans (if_neg long)
  rw [updateTimeoutForEndpoint, answer, if_pos (noHub_final udev state)]

omit sel known in
theorem Longest.append {descs : List Descriptor} {timeout : Nat} (longest : Longest intel udev state descs timeout) (desc : Descriptor) :
    Longest intel udev state (descs ++ [desc]) (max timeout (encoded intel udev state desc)) := by
  obtain ⟨⟨first, here, eq⟩, bound⟩ := longest
  constructor
  · obtain le | le := le_total timeout (encoded intel udev state desc)
    · exact ⟨desc, by simp, (max_eq_right le).symm⟩
    · exact ⟨first, by simp [here], eq.trans (max_eq_left le).symm⟩
  · rintro n ⟨other, there, rfl⟩
    obtain before | rfl := List.mem_append.mp there |>.imp_right List.mem_singleton.mp
    · exact (bound ⟨other, before, rfl⟩).trans (le_max_left _ _)
    · exact le_max_right _ _

theorem interface_fits {descs : List Descriptor} (asks : ∀ desc ∈ descs, Asks intel udev state desc)
    (fits : ∀ desc ∈ descs, Fits intel udev state desc) (timeout : Nat) :
    (updateTimeoutForInterface intel udev state descs timeout).final = false ∧ ∀ seen, Longest intel udev state seen timeout →
      Longest intel udev state (seen ++ descs) (updateTimeoutForInterface intel udev state descs timeout).timeout := by
  induction descs generalizing timeout with
  | nil => simp [updateTimeoutForInterface]
  | cons desc descs ih =>
    rw [List.forall_mem_cons] at asks fits
    rw [updateTimeoutForInterface, updateTimeout_fits sel known asks.1 fits.1]
    obtain ⟨open_, longer⟩ := ih asks.2 fits.2 (max timeout (encoded intel udev state desc))
    refine ⟨open_, fun seen longest => ?_⟩
    have rest := longer _ (longest.append desc)
    rwa [List.append_assoc] at rest

theorem interface_stops {descs : List Descriptor} (asks : ∀ desc ∈ descs, Asks intel udev state desc)
    (long : ∃ desc ∈ descs, ¬Fits intel udev state desc) (timeout : Nat) :
    updateTimeoutForInterface intel udev state descs timeout = ⟨getTimeoutNoHubLpm udev state, true⟩ := by
  induction descs generalizing timeout with
  | nil => simp at long
  | cons desc descs ih =>
    rw [List.forall_mem_cons] at asks
    rw [updateTimeoutForInterface]
    by_cases fits : Fits intel udev state desc
    · rw [updateTimeout_fits sel known asks.1 fits]
      obtain ⟨other, here, tooLong⟩ := long
      obtain rfl | later := List.mem_cons.mp here
      · exact absurd fits tooLong
      · exact ih asks.2 ⟨other, later, tooLong⟩ _
    · rw [updateTimeout_stops sel known asks.1 fits]
      rfl

theorem interfaces_fit {intfs : List (Option Interface)} {seen : List Descriptor} {timeout : Nat}
    (asks : ∀ desc ∈ intfs.flatMap endpointsOf, Asks intel udev state desc)
    (fits : ∀ desc ∈ intfs.flatMap endpointsOf, Fits intel udev state desc) (agreed : ¬Objects intfs)
    (longest : Longest intel udev state seen timeout) :
    Longest intel udev state (seen ++ intfs.flatMap endpointsOf) (interfacesLoop intel udev state intfs timeout) := by
  induction intfs generalizing seen timeout with
  | nil => simpa [interfacesLoop] using longest
  | cons intf intfs ih =>
    rw [List.flatMap_cons, List.forall_mem_append] at asks fits
    have later : ¬Objects intfs := fun ⟨other, here, objects⟩ => agreed ⟨other, List.mem_cons_of_mem _ here, objects⟩
    rw [List.flatMap_cons, ← List.append_assoc]
    cases intf with
    | none =>
      rw [interfacesLoop]
      simpa [endpointsOf] using ih asks.2 fits.2 later longest
    | some intf =>
      have quiet : ¬intf.disableHubInitiatedLpm = true := fun objects => agreed ⟨intf, List.mem_cons_self, objects⟩
      rw [interfacesLoop, if_neg quiet]
      cases setting : intf.altsetting with
      | none =>
        have none : endpointsOf (some intf) = [] := by simp [endpointsOf, setting]
        rw [none, List.append_nil]
        exact ih asks.2 fits.2 later longest
      | some descs =>
        have these : endpointsOf (some intf) = descs := by simp [endpointsOf, setting]
        rw [these] at asks fits ⊢
        obtain ⟨open_, longer⟩ := interface_fits sel known asks.1 fits.1 timeout
        dsimp only
        rw [open_, if_neg Bool.false_ne_true]
        exact ih asks.2 fits.2 later (longer seen longest)

theorem interfaces_stop {intfs : List (Option Interface)} (asks : ∀ desc ∈ intfs.flatMap endpointsOf, Asks intel udev state desc)
    (stops : (∃ desc ∈ intfs.flatMap endpointsOf, ¬Fits intel udev state desc) ∨ Objects intfs) (timeout : Nat) :
    interfacesLoop intel udev state intfs timeout = getTimeoutNoHubLpm udev state := by
  induction intfs generalizing timeout with
  | nil => simp [Objects] at stops
  | cons intf intfs ih =>
    rw [List.flatMap_cons, List.forall_mem_append] at asks
    cases intf with
    | none =>
      rw [interfacesLoop]
      apply ih asks.2
      simpa [endpointsOf, Objects] using stops
    | some intf =>
      rw [interfacesLoop]
      by_cases objects : intf.disableHubInitiatedLpm = true
      · rw [if_pos objects]
      rw [if_neg objects]
      cases setting : intf.altsetting with
      | none =>
        apply ih asks.2
        simpa [endpointsOf, Objects, setting, objects] using stops
      | some descs =>
        have these : endpointsOf (some intf) = descs := by simp [endpointsOf, setting]
        rw [these] at asks
        dsimp only
        by_cases long : ∃ desc ∈ descs, ¬Fits intel udev state desc
        · rw [interface_stops sel known asks.1 long]
          rfl
        · push Not at long
          rw [(interface_fits sel known asks.1 long timeout).1, if_neg Bool.false_ne_true]
          apply ih asks.2
          rw [List.flatMap_cons, these] at stops
          obtain ⟨desc, here, tooLong⟩ | ⟨other, here, asked⟩ := stops
          · obtain before | after := List.mem_append.mp here
            · exact absurd (long desc before) tooLong
            · exact .inl ⟨desc, after, tooLong⟩
          · obtain eq | after := List.mem_cons.mp here
            · exact absurd (Option.some.inj eq ▸ asked) objects
            · exact .inr ⟨other, after, asked⟩

end

/-- The hub may move the link: nothing speaks against the state, and every endpoint asks for
    a time that the hub can be set to. -/
structure Permitted (intel : Bool) (udev : Device) (state : LinkState) : Prop where
  tier : checkTierPolicy intel udev state = true
  agreed : ¬Objects (udev.config.getD [])
  some : encoded intel udev state udev.ep0 ≠ 0
  fits : ∀ desc ∈ udev.endpoints, Fits intel udev state desc

theorem calculateLpmTimeout_of_tier {intel : Bool} {udev : Device} {state : LinkState} (known : state = .u1 ∨ state = .u2)
    (tier : checkTierPolicy intel udev state = true) :
    calculateLpmTimeout intel udev state =
      let r := updateTimeoutForEndpoint intel udev state udev.ep0 lpmDisabled
      if r.final then r.timeout
      else
        match udev.config with
        | none => r.timeout
        | some intfs => interfacesLoop intel udev state intfs r.timeout := by
  have reached : ¬(state ≠ .u1 ∧ state ≠ .u2) := by
    rintro ⟨notU1, notU2⟩
    exact known.elim notU1 notU2
  rw [calculateLpmTimeout, if_neg reached, tier, Bool.not_true, if_neg Bool.false_ne_true]

theorem calculateLpmTimeout_below {intel : Bool} {udev : Device} {state : LinkState} (tier : ¬checkTierPolicy intel udev state = true) :
    calculateLpmTimeout intel udev state = lpmDisabled := by
  rw [calculateLpmTimeout, Bool.eq_false_iff.mpr tier, Bool.not_false, if_pos rfl, ite_self]

theorem Regular.asks {intel : Bool} {udev : Device} {state : LinkState} (regular : Regular udev) (known : state = .u1 ∨ state = .u2)
    (some : encoded intel udev state udev.ep0 ≠ 0) {desc : Descriptor} (here : desc ∈ udev.endpoints) : Asks intel udev state desc where
  served := regular.bInterval desc here
  some := Nat.pos_of_ne_zero fun none => some (encoded_zero known none)

/-- Once endpoint 0 has been looked at, the loop over the interfaces decides. -/
theorem configured_spec {intel : Bool} {udev : Device} {state : LinkState} (regular : Regular udev) (known : state = .u1 ∨ state = .u2)
    (tier : checkTierPolicy intel udev state = true) (zero : encoded intel udev state udev.ep0 ≠ 0) (fits : Fits intel udev state udev.ep0) :
    (Permitted intel udev state → Longest intel udev state udev.endpoints (calculateLpmTimeout intel udev state)) ∧
      (¬Permitted intel udev state → calculateLpmTimeout intel udev state = getTimeoutNoHubLpm udev state) := by
  have sel := regular.sel
  have asks {desc : Descriptor} (here : desc ∈ udev.endpoints) := regular.asks known zero here
  rw [calculateLpmTimeout_of_tier known tier, updateTimeout_fits sel known (asks List.mem_cons_self) fits]
  have alone := Longest.singleton intel udev state udev.ep0
  cases config : udev.config with
  | none =>
    have only : udev.endpoints = [udev.ep0] := by simp [Device.endpoints, config]
    rw [only]
    refine ⟨fun _ => alone, fun refused => absurd ⟨tier, ?_, zero, ?_⟩ refused⟩
    · simp [Objects, config]
    · simpa [only] using fits
  | some intfs =>
    have all : udev.endpoints = udev.ep0 :: intfs.flatMap endpointsOf := by simp [Device.endpoints, config]
    have ask : ∀ desc ∈ intfs.flatMap endpointsOf, Asks intel udev state desc := fun desc here =>
      asks (all ▸ List.mem_cons_of_mem _ here)
    constructor
    · intro permitted
      have agreed : ¬Objects intfs := by simpa [config] using permitted.agreed
      rw [all]
      exact interfaces_fit sel known ask (fun desc here => permitted.fits desc (all ▸ List.mem_cons_of_mem _ here)) agreed alone
    · intro refused
      apply interfaces_stop sel known ask
      by_contra fine
      push Not at fine
      apply refused
      refine ⟨tier, by simpa [config] using fine.2, zero, ?_⟩
      rw [all, List.forall_mem_cons]
      exact ⟨fits, fine.1⟩

/-- The timeout is the longest time that an endpoint asks for, in whole units, if the hub may
    move the link. If it may not, the device may be asked to do it, as long as its latencies
    are not too long for that; only the tier policy, and a U2 without any latency, rule that
    out too. -/
theorem calculateLpmTimeout_spec {udev : Device} (regular : Regular udev) (intel : Bool) {state : LinkState}
    (known : state = .u1 ∨ state = .u2) :
    (Permitted intel udev state → Longest intel udev state udev.endpoints (calculateLpmTimeout intel udev state)) ∧
      (¬Permitted intel udev state → calculateLpmTimeout intel udev state =
        if checkTierPolicy intel udev state = true ∧ encoded intel udev state udev.ep0 ≠ 0 then getTimeoutNoHubLpm udev state
        else lpmDisabled) := by
  have sel := regular.sel
  by_cases tier : checkTierPolicy intel udev state = true
  · have runs := calculateLpmTimeout_of_tier known tier
    have served : udev.ep0.Served := regular.bInterval _ List.mem_cons_self
    by_cases zero : encoded intel udev state udev.ep0 = 0
    · have answer := (callHost_eq intel served sel known).trans (if_pos (zero ▸ Nat.zero_le _))
      have stops : updateTimeoutForEndpoint intel udev state udev.ep0 lpmDisabled = ⟨lpmDisabled, true⟩ := by
        rw [updateTimeoutForEndpoint, answer, zero]
        rfl
      have barred : ¬(checkTierPolicy intel udev state = true ∧ encoded intel udev state udev.ep0 ≠ 0) := fun both => both.2 zero
      rw [runs, stops, if_neg barred]
      exact ⟨fun permitted => absurd zero permitted.some, fun _ => rfl⟩
    · have asks {desc : Descriptor} (here : desc ∈ udev.endpoints) := regular.asks known zero here
      rw [if_pos ⟨tier, zero⟩]
      by_cases fits : Fits intel udev state udev.ep0
      · exact configured_spec regular known tier zero fits
      · rw [runs, updateTimeout_stops sel known (asks List.mem_cons_self) fits]
        exact ⟨fun permitted => absurd (permitted.fits _ List.mem_cons_self) fits, fun _ => rfl⟩
  · have none := calculateLpmTimeout_below tier
    have barred : ¬(checkTierPolicy intel udev state = true ∧ encoded intel udev state udev.ep0 ≠ 0) := fun both => tier both.1
    rw [none, if_neg barred]
    exact ⟨fun permitted => absurd permitted.tier tier, fun _ => rfl⟩

/-- A network adapter behind a hub: two bulk endpoints, and one for notifications. -/
def adapter : Device where
  u1 := { mel := 20000, pel := 5000, sel := 8000, timeout := lpmDisabled }
  u2 := { mel := 300000, pel := 6000, sel := 9000, timeout := lpmDisabled }
  u2DevExitLat := 500
  ep0 := { xfer := .control, notification := false, bInterval := 0 }
  config := some [some { disableHubInitiatedLpm := false, altsetting := some [
    { xfer := .bulk, notification := false, bInterval := 0 }, { xfer := .bulk, notification := false, bInterval := 0 },
    { xfer := .interrupt, notification := true, bInterval := 8 }] }]
  hubs := 1

theorem adapter_regular (hubs : Nat) : Regular { adapter with hubs := hubs } where
  bInterval := by
    show ∀ desc ∈ adapter.endpoints, desc.Served
    decide
  sel := by
    show 8000 * 5 < 2 ^ 32
    decide

/-- The bulk endpoints need 40 microseconds; behind two hubs there is no U1. -/
theorem calculateLpmTimeout_spec_adapter :
    Longest true adapter .u1 adapter.endpoints (calculateLpmTimeout true adapter .u1) ∧ calculateLpmTimeout true adapter .u1 = 40 ∧
      calculateLpmTimeout true { adapter with hubs := 2 } .u1 = lpmDisabled := by
  have permitted : Permitted true adapter .u1 :=
    { tier := rfl, agreed := by simp [Objects, adapter], some := by decide, fits := by decide }
  have refused : ¬Permitted true { adapter with hubs := 2 } .u1 := fun permitted => Bool.false_ne_true permitted.tier
  exact ⟨(calculateLpmTimeout_spec (adapter_regular 1) true (.inl rfl)).1 permitted, by decide,
    (calculateLpmTimeout_spec (adapter_regular 2) true (.inl rfl)).2 refused⟩

/-! ### What the controller is told -/

/-- The timeout of a state, and how long it takes to leave it, in microseconds. -/
def Device.timeout (udev : Device) : LinkState → Nat
  | .u1 => udev.u1.timeout
  | .u2 => udev.u2.timeout
  | _ => lpmDisabled

def Device.exitLatency (udev : Device) : LinkState → Nat
  | .u1 => microseconds udev.u1.mel
  | .u2 => microseconds udev.u2.mel
  | _ => 0

/-- The USB core notes a timeout that a hub has been set to. -/
def Device.setTimeout (udev : Device) (state : LinkState) (timeout : Nat) : Device :=
  match state with
  | .u1 => { udev with u1 := { udev.u1 with timeout := timeout } }
  | .u2 => { udev with u2 := { udev.u2 with timeout := timeout } }
  | _ => udev

/-- A host with one device: the quirks `XHCI_INTEL_HOST` and `XHCI_LPM_SUPPORT`, and
    `current_mel` of the device's `xhci_virt_device`, if it has one. -/
structure Host where
  intel : Bool
  lpmSupport : Bool
  udev : Device
  currentMel : Option Nat

def Host.setTimeout (h : Host) (state : LinkState) (timeout : Nat) : Host := { h with udev := h.udev.setTimeout state timeout }

/-- An int as a u16. -/
def toU16 (n : Int) : Nat := (n % 2 ^ 16).toNat

/-- `xhci_change_max_exit_latency` with `current_mel` and what becomes of it; `answer` is 0,
    or the error with which the Evaluate Context command fails. -/
def changeMaxExitLatency (currentMel : Option Nat) (maxExitLatency : Nat) (answer : Int) : Int × Option Nat :=
  if currentMel = none ∨ currentMel = some maxExitLatency then (0, currentMel)
  else if answer = 0 then (0, some maxExitLatency)
  else (answer, currentMel)

def Host.changeMaxExitLatency (h : Host) (maxExitLatency : Nat) (answer : Int) : Int × Host :=
  let r := LinkPower.changeMaxExitLatency h.currentMel maxExitLatency answer
  (r.1, { h with currentMel := r.2 })

/-- `ehub_xhci_enable_usb3_lpm_timeout`: the timeout, or an error. -/
def Host.enableUsb3LpmTimeout (h : Host) (state : LinkState) (answer : Int) : Int × Host :=
  if h.lpmSupport = false ∨ h.currentMel = none then (lpmDisabled, h)
  else
    let hubEncodedTimeout := calculateLpmTimeout h.intel h.udev state
    let mel := calculateMaxExitLatency h.udev state hubEncodedTimeout
    let r := h.changeMaxExitLatency (toU16 (if mel < 0 then 0 else mel)) answer
    if r.1 ≠ 0 then r else (if mel < 0 then lpmDisabled else hubEncodedTimeout, r.2)

/-- `ehub_xhci_disable_usb3_lpm_timeout`. -/
def Host.disableUsb3LpmTimeout (h : Host) (state : LinkState) (answer : Int) : Int × Host :=
  if h.lpmSupport = false ∨ h.currentMel = none then (0, h)
  else h.changeMaxExitLatency (toU16 (calculateMaxExitLatency h.udev state lpmDisabled)) answer

/-- What the USB core does with a device. It asks for a timeout only for a state that has
    none, and sets the hub to the timeout that it gets, unless the hub refuses. It sets the
    hub to no timeout first and tells the driver afterwards. The configuration and the
    drivers may change at any time. -/
inductive Step (h : Host) : Host → Prop
  | enable (state : LinkState) (answer : Int) (off : h.udev.timeout state = lpmDisabled) :
      Step h (h.enableUsb3LpmTimeout state answer).2
  | enabled (state : LinkState) (answer : Int) (off : h.udev.timeout state = lpmDisabled) (error : answer ≤ 0)
      (taken : 0 < (h.enableUsb3LpmTimeout state answer).1) :
      Step h ((h.enableUsb3LpmTimeout state answer).2.setTimeout state (h.enableUsb3LpmTimeout state answer).1.toNat)
  | turnOff (state : LinkState) : Step h (h.setTimeout state lpmDisabled)
  | disable (state : LinkState) (answer : Int) (off : h.udev.timeout state = lpmDisabled) :
      Step h (h.disableUsb3LpmTimeout state answer).2
  | configure (config : Option (List (Option Interface))) : Step h { h with udev := { h.udev with config := config } }

/-- The controller has been told of no less than it takes to leave any state that a hub may
    move the link to. -/
def Covered (h : Host) : Prop :=
  ∀ state, h.udev.timeout state ≠ lpmDisabled → ∃ mel, h.currentMel = some mel ∧ h.udev.exitLatency state ≤ mel

/-- The longest time to leave a state that is enabled. -/
def Device.longest (udev : Device) : Nat :=
  max (if udev.timeout .u1 = lpmDisabled then 0 else udev.exitLatency .u1) (if udev.timeout .u2 = lpmDisabled then 0 else udev.exitLatency .u2)

theorem longest_le {udev : Device} {n : Nat} :
    udev.longest ≤ n ↔ ∀ state, udev.timeout state ≠ lpmDisabled → udev.exitLatency state ≤ n := by
  rw [Device.longest, max_le_iff]
  constructor
  · rintro ⟨one, two⟩ state on
    cases state with
    | u1 => rwa [if_neg on] at one
    | u2 => rwa [if_neg on] at two
    | u0 | u3 => exact absurd rfl on
  · intro all
    constructor
    · split_ifs with off
      · exact Nat.zero_le _
      · exact all .u1 off
    · split_ifs with off
      · exact Nat.zero_le _
      · exact all .u2 off

theorem covered_iff {h : Host} {mel : Nat} (told : h.currentMel = some mel) : Covered h ↔ h.udev.longest ≤ mel := by
  rw [longest_le]
  simp [Covered, told]

/-- The latency after a change, unless it does not fit. -/
theorem calculateMaxExitLatency_eq (udev : Device) (state : LinkState) (timeout : Nat) :
    calculateMaxExitLatency udev state timeout =
      if maxExit < (udev.setTimeout state timeout).longest then -e2BIG else (udev.setTimeout state timeout).longest := by
  have larger (a b : Nat) : (if a < b then b else a) = max b a := by split_ifs <;> omega
  rw [calculateMaxExitLatency]
  rw [larger]
  cases state with
  | u1 =>
    by_cases off : timeout = lpmDisabled <;> by_cases other : udev.u2.timeout = lpmDisabled <;>
      simp [Device.setTimeout, Device.longest, Device.timeout, Device.exitLatency, off, other]
  | u2 =>
    by_cases off : timeout = lpmDisabled <;> by_cases other : udev.u1.timeout = lpmDisabled <;>
      simp [Device.setTimeout, Device.longest, Device.timeout, Device.exitLatency, off, other]
  | u0 | u3 =>
    by_cases one : udev.u1.timeout = lpmDisabled <;> by_cases two : udev.u2.timeout = lpmDisabled <;>
      simp [Device.setTimeout, Device.longest, Device.timeout, Device.exitLatency, one, two]

@[simp] theorem setTimeout_exitLatency (udev : Device) (state : LinkState) (timeout : Nat) (other : LinkState) :
    (udev.setTimeout state timeout).exitLatency other = udev.exitLatency other := by
  cases state <;> cases other <;> rfl

theorem setTimeout_timeout (udev : Device) {state other : LinkState} (apart : other ≠ state) (timeout : Nat) :
    (udev.setTimeout state timeout).timeout other = udev.timeout other := by
  cases state <;> cases other <;> first | rfl | exact absurd rfl apart

/-- Both states can be left in a time that the controller can be told of. -/
def Device.Small (udev : Device) : Prop := ∀ state, udev.exitLatency state ≤ maxExit

theorem longest_small {udev : Device} (small : udev.Small) (state : LinkState) (timeout : Nat) :
    (udev.setTimeout state timeout).longest ≤ maxExit :=
  longest_le.mpr fun other _ => (setTimeout_exitLatency ..).trans_le (small other)

/-- Whatever becomes of a state that was off, the other is counted as before. -/
theorem longest_of_off {udev : Device} {state : LinkState} (off : udev.timeout state = lpmDisabled) (timeout : Nat) :
    udev.longest ≤ (udev.setTimeout state timeout).longest := by
  rw [longest_le]
  intro other on
  have apart : other ≠ state := by
    rintro rfl
    exact on off
  have still := longest_le.mp (le_refl (udev.setTimeout state timeout).longest) other
  rw [setTimeout_timeout udev apart, setTimeout_exitLatency] at still
  exact still on

theorem toU16_natCast {n : Nat} (small : n ≤ maxExit) : toU16 n = n := by
  rw [maxExit] at small
  rw [toU16]
  omega

theorem changeMaxExitLatency_eq {h : Host} {mel : Nat} (told : h.currentMel = some mel) (maxExitLatency : Nat) (answer : Int) :
    h.changeMaxExitLatency maxExitLatency answer =
      if maxExitLatency = mel ∨ answer = 0 then (0, { h with currentMel := some maxExitLatency }) else (answer, h) := by
  obtain ⟨intel, lpmSupport, udev, currentMel⟩ := h
  obtain rfl : currentMel = some mel := told
  rw [Host.changeMaxExitLatency, LinkPower.changeMaxExitLatency]
  by_cases same : maxExitLatency = mel
  · simp [same]
  · by_cases done : answer = 0
    · simp [same, Ne.symm same, done]
    · simp [same, Ne.symm same, done]

theorem enable_udev (h : Host) (state : LinkState) (answer : Int) : (h.enableUsb3LpmTimeout state answer).2.udev = h.udev := by
  rw [Host.enableUsb3LpmTimeout]
  split_ifs
  · rfl
  · dsimp only
    split_ifs <;> rfl

theorem disable_udev (h : Host) (state : LinkState) (answer : Int) : (h.disableUsb3LpmTimeout state answer).2.udev = h.udev := by
  rw [Host.disableUsb3LpmTimeout]
  split_ifs <;> rfl

/-- Neither call does anything without support, or without a device in the controller. -/
def Host.Idle (h : Host) : Prop := h.lpmSupport = false ∨ h.currentMel = none

theorem enable_idle {h : Host} (idle : h.Idle) (state : LinkState) (answer : Int) : h.enableUsb3LpmTimeout state answer = ((lpmDisabled : Int), h) :=
  if_pos idle

theorem disable_idle {h : Host} (idle : h.Idle) (state : LinkState) (answer : Int) : h.disableUsb3LpmTimeout state answer = (0, h) :=
  if_pos idle

theorem not_idle {h : Host} (active : ¬h.Idle) : ∃ mel, h.currentMel = some mel :=
  Option.ne_none_iff_exists'.mp fun gone => active (.inr gone)

section
variable {h : Host} (small : h.udev.Small) (active : ¬(h.lpmSupport = false ∨ h.currentMel = none)) {mel : Nat} (told : h.currentMel = some mel)
include small active told

theorem enable_eq (state : LinkState) {timeout latency : Nat} (answer : Int) (timeout_eq : calculateLpmTimeout h.intel h.udev state = timeout)
    (latency_eq : (h.udev.setTimeout state timeout).longest = latency) :
    h.enableUsb3LpmTimeout state answer =
      if latency = mel ∨ answer = 0 then ((timeout : Int), { h with currentMel := some latency }) else (answer, h) := by
  have fits : latency ≤ maxExit := latency_eq ▸ longest_small small state timeout
  have counted : calculateMaxExitLatency h.udev state timeout = latency := by
    rw [calculateMaxExitLatency_eq, latency_eq, if_neg fits.not_gt]
  have unsigned : ¬(latency : Int) < 0 := (Int.natCast_nonneg _).not_gt
  rw [Host.enableUsb3LpmTimeout, if_neg active]
  dsimp only
  rw [timeout_eq, counted, if_neg unsigned, if_neg unsigned, toU16_natCast fits, changeMaxExitLatency_eq told]
  by_cases done : latency = mel ∨ answer = 0
  · rw [if_pos done, if_pos done, if_neg fun error => error rfl]
  · have error : answer ≠ 0 := fun none => done (.inr none)
    rw [if_neg done, if_neg done, if_pos error]

theorem disable_eq (state : LinkState) {latency : Nat} (answer : Int) (latency_eq : (h.udev.setTimeout state lpmDisabled).longest = latency) :
    h.disableUsb3LpmTimeout state answer =
      if latency = mel ∨ answer = 0 then (0, { h with currentMel := some latency }) else (answer, h) := by
  have fits : latency ≤ maxExit := latency_eq ▸ longest_small small state lpmDisabled
  rw [Host.disableUsb3LpmTimeout, if_neg active, calculateMaxExitLatency_eq, latency_eq, if_neg fits.not_gt, toU16_natCast fits,
    changeMaxExitLatency_eq told]

end

section
variable {h : Host} (small : h.udev.Small) (covered : Covered h) (state : LinkState)
include small covered

variable {state} in
theorem Covered.enable (off : h.udev.timeout state = lpmDisabled) (answer : Int) : Covered (h.enableUsb3LpmTimeout state answer).2 := by
  by_cases idle : h.Idle
  · rw [enable_idle idle]
    exact covered
  obtain ⟨mel, told⟩ := not_idle idle
  rw [enable_eq small idle told state answer rfl rfl]
  split_ifs
  · exact (covered_iff rfl).mpr (longest_of_off off _)
  · exact covered

omit covered in
/-- The latency that the controller has been told of counts the state already. -/
theorem Covered.enabled {answer : Int} (error : answer ≤ 0) (taken : 0 < (h.enableUsb3LpmTimeout state answer).1) :
    Covered ((h.enableUsb3LpmTimeout state answer).2.setTimeout state (h.enableUsb3LpmTimeout state answer).1.toNat) := by
  by_cases idle : h.Idle
  · rw [enable_idle idle] at taken
    exact absurd taken (lt_irrefl _)
  obtain ⟨mel, told⟩ := not_idle idle
  rw [enable_eq small idle told state answer rfl rfl] at taken ⊢
  split_ifs at taken ⊢
  · rw [covered_iff rfl, Int.toNat_natCast]
    exact le_rfl
  · exact absurd taken error.not_gt

omit small in
theorem Covered.turnOff : Covered (h.setTimeout state lpmDisabled) := by
  intro other on
  have apart : other ≠ state := by
    rintro rfl
    cases other <;> exact on rfl
  change ∃ mel, h.currentMel = some mel ∧ (h.udev.setTimeout state lpmDisabled).exitLatency other ≤ mel
  rw [setTimeout_exitLatency]
  exact covered other (setTimeout_timeout h.udev apart lpmDisabled ▸ on)

variable {state} in
theorem Covered.disable (off : h.udev.timeout state = lpmDisabled) (answer : Int) : Covered (h.disableUsb3LpmTimeout state answer).2 := by
  by_cases idle : h.Idle
  · rw [disable_idle idle]
    exact covered
  obtain ⟨mel, told⟩ := not_idle idle
  rw [disable_eq small idle told state answer rfl]
  split_ifs
  · exact (covered_iff rfl).mpr (longest_of_off off _)
  · exact covered

end

/-- No step changes how long it takes to leave a state. -/
theorem Step.exitLatency {h h' : Host} (step : Step h h') (state : LinkState) : h'.udev.exitLatency state = h.udev.exitLatency state := by
  cases step with
  | enable changed answer off => rw [enable_udev]
  | enabled changed answer off error taken => rw [Host.setTimeout, setTimeout_exitLatency, enable_udev]
  | turnOff changed => exact setTimeout_exitLatency ..
  | disable changed answer off => rw [disable_udev]
  | configure config => cases state <;> rfl

theorem Step.covered {h h' : Host} (step : Step h h') (small : h.udev.Small) (covered : Covered h) : Covered h' := by
  cases step with
  | enable state answer off => exact covered.enable small off answer
  | enabled state answer off error taken => exact .enabled small state error taken
  | turnOff state => exact covered.turnOff state
  | disable state answer off => exact covered.disable small off answer
  | configure config =>
    intro state on
    cases state with
    | u1 => exact covered .u1 on
    | u2 => exact covered .u2 on
    | u0 | u3 => exact absurd rfl on

/-- From a device with nothing enabled on, the controller has always been told of the
    time that leaving an enabled state can take, if it can be told of both at all. -/
theorem exitLatency_covered {h h' : Host} (small : h.udev.Small) (off : ∀ state, h.udev.timeout state = lpmDisabled)
    (run : Relation.ReflTransGen Step h h') : Covered h' := by
  have both : h'.udev.Small ∧ Covered h' := by
    induction run with
    | refl => exact ⟨small, fun state on => absurd (off state) on⟩
    | tail _ step ih => exact ⟨fun state => (step.exitLatency state).trans_le (ih.1 state), step.covered ih.1 ih.2⟩
  exact both.2

/-- The adapter with nothing enabled. -/
def fresh : Host := { intel := true, lpmSupport := true, udev := adapter, currentMel := some 0 }

/-- The hub is set to the timeout that the driver has worked out. -/
def Host.enabled (h : Host) (state : LinkState) : Host :=
  (h.enableUsb3LpmTimeout state 0).2.setTimeout state (h.enableUsb3LpmTimeout state 0).1.toNat

/-- U1 is enabled; then the first command for U2 times out. -/
def u1Enabled : Host := ((fresh.enabled .u1).enableUsb3LpmTimeout .u2 (-62)).2

def u2Enabled : Host := u1Enabled.enabled .u2

/-- The controller cannot be told that U2 is off again. -/
def u2Disabled : Host := ((u2Enabled.setTimeout .u2 lpmDisabled).disableUsb3LpmTimeout .u2 (-62)).2

theorem exitLatency_covered_adapter :
    Covered u1Enabled ∧ u1Enabled.currentMel = some 20 ∧ Covered u2Enabled ∧ u2Enabled.currentMel = some 300 ∧ Covered u2Disabled := by
  have small : fresh.udev.Small := fun state => by cases state <;> decide
  have off (state : LinkState) : fresh.udev.timeout state = lpmDisabled := by cases state <;> rfl
  have enable (h : Host) (state : LinkState) (disabled : h.udev.timeout state = lpmDisabled) (taken : 0 < (h.enableUsb3LpmTimeout state 0).1) :
      Step h (h.enabled state) := .enabled state 0 disabled le_rfl taken
  have one : Relation.ReflTransGen Step fresh u1Enabled :=
    (Relation.ReflTransGen.single (enable fresh .u1 rfl (by decide +kernel))).tail (.enable .u2 (-62) rfl)
  have two : Relation.ReflTransGen Step fresh u2Enabled := one.tail (enable u1Enabled .u2 rfl (by decide +kernel))
  have last : Relation.ReflTransGen Step fresh u2Disabled := (two.tail (.turnOff .u2)).tail (.disable .u2 (-62) rfl)
  exact ⟨exitLatency_covered small off one, by decide +kernel, exitLatency_covered small off two, by decide +kernel,
    exitLatency_covered small off last⟩

/-- A state that takes too long to leave is not enabled, but the controller is told of no
    latency at all, also while the other state is enabled. -/
theorem tooLong_uncovers {h : Host} (active : ¬h.Idle) {state other : LinkState}
    (tooLong : maxExit < (h.udev.setTimeout state (calculateLpmTimeout h.intel h.udev state)).longest)
    (on : h.udev.timeout other ≠ lpmDisabled) (slow : 0 < h.udev.exitLatency other) : ¬Covered (h.enableUsb3LpmTimeout state 0).2 := by
  obtain ⟨mel, told⟩ := not_idle active
  have unreached : ¬(h.lpmSupport = false ∨ h.currentMel = none) := active
  have refused : calculateMaxExitLatency h.udev state (calculateLpmTimeout h.intel h.udev state) = -e2BIG :=
    (calculateMaxExitLatency_eq ..).trans (if_pos tooLong)
  have none : h.enableUsb3LpmTimeout state 0 = ((lpmDisabled : Int), { h with currentMel := some 0 }) := by
    rw [Host.enableUsb3LpmTimeout, if_neg unreached]
    dsimp only
    rw [refused]
    have zero : toU16 0 = 0 := rfl
    simp [e2BIG, zero, changeMaxExitLatency_eq told]
  rw [none]
  intro covered
  obtain ⟨latency, eq, le⟩ := covered other on
  obtain rfl := Option.some.inj eq
  exact absurd slow le.not_gt

end Ehub.LinkPower
