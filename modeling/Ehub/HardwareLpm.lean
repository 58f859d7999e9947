import Mathlib
import Ehub.Fields
import Ehub.LinkPower

/-!
Link power management of USB 2.0 by the hardware. A port of the root hub with `PORT_HLE`
moves its device to L1 and back on its own. The register PORTPMSC also names the slot of
the device that the port addresses (L1DS) and says how long it signals resume (HIRD). Where
both sides count that time in BESL the controller is told of it as the Max Exit Latency.

`ehub_xhci_set_usb2_hardware_lpm` never clears L1DS before it names a device; it relies on
what it has left there the last time.
-/
namespace Ehub.HardwareLpm
open Ehub.Fields
open Ehub.LinkPower (changeMaxExitLatency)

def ePERM : Int := 1

/-- `xhci_besl_encoding`. -/
def beslEncoding : List Nat := [125, 150, 200, 300, 400, 500, 1000, 2000, 3000, 4000, 5000, 6000, 7000, 8000, 9000, 10000]

/-- A device: whether it can do link power management at all, whether it is on the root hub
    and is no hub, and what `update_device` has found out about its port. `bmAttributes` is
    from its USB 2.0 extension. The USB core takes no BESL from 16 on. -/
structure Device where
  lpmCapable : Bool
  onRootHub : Bool
  isHub : Bool
  hwLpmCapable : Bool
  beslCapable : Bool
  bmAttributes : BitVec 32
  timeout : Nat
  besl : Fin 16
  slotId : BitVec 8

namespace Device

def beslSupport (udev : Device) : Bool := udev.bmAttributes.getLsbD 2

def beslBaselineValid (udev : Device) : Bool := udev.bmAttributes.getLsbD 3

def beslDeepValid (udev : Device) : Bool := udev.bmAttributes.getLsbD 4

/-- `USB_GET_BESL_BASELINE` and `USB_GET_BESL_DEEP`. -/
def getBeslBaseline (udev : Device) : Nat := (get 8 4 udev.bmAttributes).toNat

def getBeslDeep (udev : Device) : Nat := (get 12 4 udev.bmAttributes).toNat

end Device

/-- `xhci_calculate_hird_besl`. -/
def calculateHirdBesl (hcsParams3 : BitVec 32) (udev : Device) : Nat :=
  let u2del := (get 16 16 hcsParams3).toNat
  let beslHost :=
    if udev.beslSupport then beslEncoding.findIdx (u2del ≤ ·)
    else if u2del ≤ 50 then 0 else (u2del - 51) / 75 + 1
  let beslDevice :=
    if !udev.beslSupport then 0
    else if udev.beslBaselineValid then udev.getBeslBaseline
    else if udev.beslDeepValid then udev.getBeslDeep
    else 0
  let besl := beslHost + beslDevice
  if 15 < besl then 15 else besl

def Device.preferredDeep (udev : Device) : Nat := if udev.beslDeepValid then udev.getBeslDeep else 0

/-- `xhci_calculate_usb2_hw_lpm_params`. -/
def calculateUsb2HwLpmParams (udev : Device) : BitVec 32 :=
  let l1 := udev.timeout / 256
  let hirdm := if udev.beslDeepValid then 1 else 0
  put 10 4 (BitVec.ofNat 32 udev.preferredDeep) ||| put 2 8 (BitVec.ofNat 32 l1) ||| put 0 2 (BitVec.ofNat 32 hirdm)

def portRwe : BitVec 32 := 1#32 <<< 3
def portHirdMask : BitVec 32 := 0xf#32 <<< 4
def portL1dsMask : BitVec 32 := 0xff#32 <<< 8
def portHle : BitVec 32 := 1#32 <<< 16

def portHird (p : Nat) : BitVec 32 := put 4 4 (BitVec.ofNat 32 p)

def portL1ds (slotId : BitVec 8) : BitVec 32 := put 8 8 (slotId.setWidth 32)

/-- A port with its device: the registers PORTPMSC and PORTHLPMC, and `current_mel` of the
    device if the controller knows it. -/
structure State where
  hwLpmSupport : Bool
  hcsParams3 : BitVec 32
  udev : Device
  currentMel : Option Nat
  pmsc : BitVec 32
  hlpmc : BitVec 32

/-- The BESL that is told to the controller. -/
def Device.chosenBesl (udev : Device) : Nat :=
  if udev.beslSupport && udev.beslBaselineValid then udev.getBeslBaseline else udev.besl

/-- The writes to PORTPMSC that switch it on: `PORT_HLE` comes last. -/
def State.enablePmsc (s : State) (hird : Nat) : State :=
  let s := { s with pmsc := (s.pmsc &&& ~~~portHirdMask) ||| (portHird hird ||| portRwe ||| portL1ds s.udev.slotId) }
  { s with pmsc := s.pmsc ||| portHle }

/-- `ehub_xhci_set_usb2_hardware_lpm`; `answer` is 0, or the error with which the Evaluate
    Context command fails. -/
def State.setUsb2HardwareLpm (s : State) (enable : Bool) (answer : Int) : Int × State :=
  if !s.hwLpmSupport || !s.udev.lpmCapable then (-ePERM, s)
  else if !s.udev.onRootHub || s.udev.isHub then (-ePERM, s)
  else if !s.udev.hwLpmCapable then (-ePERM, s)
  else if enable then
    if s.udev.beslCapable then
      let hird := s.udev.chosenBesl
      let r := changeMaxExitLatency s.currentMel (beslEncoding.getD hird 0) answer
      if r.1 < 0 then (r.1, { s with currentMel := r.2 })
      else (0, { s with currentMel := r.2, hlpmc := calculateUsb2HwLpmParams s.udev }.enablePmsc hird)
    else (0, s.enablePmsc (calculateHirdBesl s.hcsParams3 s.udev))
  else
    let s := { s with pmsc := s.pmsc &&& ~~~(portHle ||| portRwe ||| portHirdMask ||| portL1dsMask) }
    if s.udev.beslCapable then (0, { s with currentMel := (changeMaxExitLatency s.currentMel 0 answer).2 })
    else (0, s)

/-! ### Fields of PORTPMSC -/

def hle (pmsc : BitVec 32) : BitVec 32 := get 16 1 pmsc
def l1ds (pmsc : BitVec 32) : BitVec 32 := get 8 8 pmsc
def hird (pmsc : BitVec 32) : BitVec 32 := get 4 4 pmsc
def rwe (pmsc : BitVec 32) : BitVec 32 := get 3 1 pmsc

/-- What the driver writes, as one field. -/
def written (pmsc : BitVec 32) : BitVec 32 := get 3 14 pmsc

/-- What can happen to a port. The USB core switches power management off before another
    device takes the place of one; the BESL and the timeout of a device can be set at any
    time. The hardware changes what the driver does not write. -/
inductive Step (s : State) : State → Prop
  | set (enable : Bool) (answer : Int) (error : answer ≤ 0) : Step s (s.setUsb2HardwareLpm enable answer).2
  | configure (timeout : Nat) (besl : Fin 16) : Step s { s with udev := { s.udev with timeout := timeout, besl := besl } }
  | connect (udev : Device) (off : hle s.pmsc = 0#32) : Step s { s with udev := udev, currentMel := some 0 }
  | hardware (pmsc : BitVec 32) (same : written pmsc = written s.pmsc) : Step s { s with pmsc := pmsc }

/-- The port addresses its device, which may wake it up. With BESL the controller knows the
    time that resume is signalled, and PORTHLPMC has the deep BESL of the device; without, the
    time is the one that the latency of the controller asks for. -/
structure Addressed (s : State) : Prop where
  slot : l1ds s.pmsc = s.udev.slotId.setWidth 32
  wakes : rwe s.pmsc = 1#32
  told : s.udev.beslCapable = true → ∀ mel, s.currentMel = some mel → mel = beslEncoding.getD (hird s.pmsc).toNat 0
  deep : s.udev.beslCapable = true → (get 10 4 s.hlpmc).toNat = s.udev.preferredDeep
  signals : ¬s.udev.beslCapable = true → (hird s.pmsc).toNat = calculateHirdBesl s.hcsParams3 s.udev

structure Inv (s : State) : Prop where
  on : hle s.pmsc ≠ 0#32 → Addressed s
  off : hle s.pmsc = 0#32 → l1ds s.pmsc = 0#32

theorem clear_written (pmsc : BitVec 32) : pmsc &&& ~~~(portHle ||| portRwe ||| portHirdMask ||| portL1dsMask) = clear 3 14 pmsc := rfl

theorem fields_eq {pmsc pmsc' : BitVec 32} (same : written pmsc = written pmsc') :
    hle pmsc = hle pmsc' ∧ l1ds pmsc = l1ds pmsc' ∧ hird pmsc = hird pmsc' ∧ rwe pmsc = rwe pmsc' := by
  have field {low width : Nat} (inside : low + width ≤ 14) : get (3 + low) width pmsc = get (3 + low) width pmsc' := by
    rw [← get_get inside, ← get_get inside]
    exact congrArg (get low width) same
  exact ⟨field (by decide : 13 + 1 ≤ 14), field (by decide : 5 + 8 ≤ 14), field (by decide : 1 + 4 ≤ 14), field (by decide : 0 + 1 ≤ 14)⟩

section
variable (s : State) (time : Nat)

theorem enablePmsc_eq : (s.enablePmsc time).pmsc =
    clear 4 4 s.pmsc ||| (put 4 4 (BitVec.ofNat 32 time) ||| put 3 1 1#32 ||| put 8 8 (s.udev.slotId.setWidth 32)) ||| put 16 1 1#32 := rfl

theorem enablePmsc_hle : hle (s.enablePmsc time).pmsc = 1#32 := by
  rw [enablePmsc_eq, hle]
  simp (disch := decide) only [get_or, get_put_of_disjoint, get_put, BitVec.or_zero]
  exact get_one_or ..

theorem enablePmsc_rwe : rwe (s.enablePmsc time).pmsc = 1#32 := by
  rw [enablePmsc_eq, rwe]
  simp (disch := decide) only [get_or, get_put_of_disjoint, get_put, get_clear_of_disjoint, BitVec.or_zero, BitVec.zero_or]
  exact get_one_or ..

/-- The slot is only added to what L1DS has been. -/
theorem enablePmsc_l1ds : l1ds (s.enablePmsc time).pmsc = l1ds s.pmsc ||| s.udev.slotId.setWidth 32 := by
  have small : (s.udev.slotId.setWidth 32).toNat < 2 ^ 8 := by
    have byte := s.udev.slotId.isLt
    rw [BitVec.toNat_setWidth]
    omega
  rw [enablePmsc_eq, l1ds]
  simp (disch := decide) only [get_or, get_put_of_disjoint, get_put, get_clear_of_disjoint, BitVec.or_zero, BitVec.zero_or]
  rw [and_ones (by decide) small]
  rfl

variable {time} in
theorem enablePmsc_hird (small : time < 16) : (hird (s.enablePmsc time).pmsc).toNat = time := by
  rw [enablePmsc_eq, hird]
  simp (disch := decide) only [get_or, get_put_of_disjoint, get_put, get_clear, BitVec.or_zero, BitVec.zero_or, toNat_and_ones]
  rw [BitVec.toNat_ofNat]
  omega

end

theorem chosenBesl_lt (udev : Device) : udev.chosenBesl < 16 := by
  rw [Device.chosenBesl, Device.getBeslBaseline]
  split_ifs
  · rw [get_toNat (by decide)]
    exact Nat.mod_lt _ (by decide)
  · exact udev.besl.isLt

theorem get_hwLpmParams (udev : Device) : (get 10 4 (calculateUsb2HwLpmParams udev)).toNat = udev.preferredDeep := by
  have small : udev.preferredDeep < 16 := by
    rw [Device.preferredDeep, Device.getBeslDeep]
    split_ifs
    · rw [get_toNat (by decide)]
      exact Nat.mod_lt _ (by decide)
    · decide
  rw [calculateUsb2HwLpmParams]
  simp (disch := decide) only [get_or, get_put_of_disjoint, get_put, BitVec.or_zero, toNat_and_ones]
  rw [BitVec.toNat_ofNat]
  omega

theorem calculateHirdBesl_lt (hcsParams3 : BitVec 32) (udev : Device) : calculateHirdBesl hcsParams3 udev < 16 := by
  rw [calculateHirdBesl]
  split_ifs <;> omega

/-- A device that counts in BESL and prefers none is given the shortest time that is no less
    than the latency of the controller. -/
theorem calculateHirdBesl_least {hcsParams3 : BitVec 32} {udev : Device} (support : udev.beslSupport = true)
    (none : udev.beslBaselineValid = false ∧ udev.beslDeepValid = false) (fits : (get 16 16 hcsParams3).toNat ≤ 10000) :
    (get 16 16 hcsParams3).toNat ≤ beslEncoding.getD (calculateHirdBesl hcsParams3 udev) 0 ∧
      ∀ i < calculateHirdBesl hcsParams3 udev, beslEncoding.getD i 0 < (get 16 16 hcsParams3).toNat := by
  generalize latency : (get 16 16 hcsParams3).toNat = u2del at fits
  have found : beslEncoding.findIdx (u2del ≤ ·) < beslEncoding.length :=
    List.findIdx_lt_length_of_exists ⟨10000, by decide, by simpa using fits⟩
  have first : calculateHirdBesl hcsParams3 udev = beslEncoding.findIdx (u2del ≤ ·) := by
    have length : beslEncoding.length = 16 := rfl
    simp only [calculateHirdBesl, latency, support, none.1, none.2, Bool.not_true, Bool.false_eq_true, if_true, if_false, Nat.add_zero]
    exact if_neg (by omega)
  rw [first]
  constructor
  · have long := List.findIdx_getElem (w := found)
    rw [List.getD_eq_getElem _ _ found]
    simpa using long
  · intro i before
    have short := List.not_of_lt_findIdx before
    rw [List.getD_eq_getElem _ _ (before.trans found)]
    simpa using short

theorem change_failed {currentMel : Option Nat} {mel : Nat} {answer : Int} (failed : (changeMaxExitLatency currentMel mel answer).1 < 0) :
    (changeMaxExitLatency currentMel mel answer).2 = currentMel := by
  rw [changeMaxExitLatency] at failed ⊢
  split_ifs at failed ⊢
  · rfl
  · exact absurd failed (lt_irrefl _)
  · rfl

theorem change_done {currentMel : Option Nat} {mel : Nat} {answer : Int} (error : answer ≤ 0)
    (done : ¬(changeMaxExitLatency currentMel mel answer).1 < 0) {told : Nat} (eq : (changeMaxExitLatency currentMel mel answer).2 = some told) :
    told = mel := by
  rw [changeMaxExitLatency] at done eq
  split_ifs at done eq with known ok
  · obtain none | same := known
    · simp [none] at eq
    · exact Option.some.inj (eq.symm.trans same)
  · exact (Option.some.inj eq).symm
  · exact absurd (lt_of_le_of_ne error ok) done

/-- L1DS is 0 or names the device already. -/
theorem Inv.l1ds_or {s : State} (inv : Inv s) : l1ds s.pmsc ||| s.udev.slotId.setWidth 32 = s.udev.slotId.setWidth 32 := by
  by_cases off : hle s.pmsc = 0#32
  · rw [inv.off off, BitVec.zero_or]
  · rw [(inv.on off).slot, BitVec.or_self]

theorem Inv.enable {s : State} (inv : Inv s) {time : Nat} (small : time < 16) (currentMel : Option Nat) (hlpmc : BitVec 32)
    (told : s.udev.beslCapable = true → ∀ mel, currentMel = some mel → mel = beslEncoding.getD time 0)
    (deep : s.udev.beslCapable = true → (get 10 4 hlpmc).toNat = s.udev.preferredDeep)
    (signals : ¬s.udev.beslCapable = true → time = calculateHirdBesl s.hcsParams3 s.udev) :
    Inv ({ s with currentMel := currentMel, hlpmc := hlpmc }.enablePmsc time) := by
  constructor
  · intro _
    constructor
    · exact (enablePmsc_l1ds ..).trans inv.l1ds_or
    · exact enablePmsc_rwe ..
    · rw [enablePmsc_hird _ small]
      exact told
    · exact deep
    · rw [enablePmsc_hird _ small]
      exact signals
  · intro off
    rw [enablePmsc_hle] at off
    exact absurd off (by decide)

theorem Inv.disable (s : State) {pmsc : BitVec 32} (cleared : pmsc = clear 3 14 s.pmsc) (currentMel : Option Nat) :
    Inv { s with pmsc := pmsc, currentMel := currentMel } := by
  subst cleared
  constructor
  · intro on
    exact absurd (get_clear (by decide) s.pmsc) on
  · intro _
    exact get_clear (by decide) s.pmsc

theorem Inv.set {s : State} (inv : Inv s) (enable : Bool) {answer : Int} (error : answer ≤ 0) :
    Inv (s.setUsb2HardwareLpm enable answer).2 := by
  rw [State.setUsb2HardwareLpm]
  split_ifs with unsupported hub old enabled besl
  · exact inv
  · exact inv
  · exact inv
  · dsimp only
    split_ifs with failed
    · rw [change_failed failed]
      exact inv
    · apply inv.enable (chosenBesl_lt s.udev)
      · intro _ mel eq
        exact change_done error failed eq
      · intro _
        exact get_hwLpmParams s.udev
      · intro incapable
        exact absurd besl incapable
  · apply inv.enable (calculateHirdBesl_lt s.hcsParams3 s.udev) s.currentMel s.hlpmc
    · intro capable
      exact absurd capable besl
    · intro capable
      exact absurd capable besl
    · intro _
      rfl
  · dsimp only
    split_ifs
    · exact .disable s (clear_written s.pmsc) _
    · exact .disable s (clear_written s.pmsc) s.currentMel

theorem Step.inv {s s' : State} (step : Step s s') (inv : Inv s) : Inv s' := by
  cases step with
  | set enable answer error => exact inv.set enable error
  | configure timeout besl =>
    constructor
    · intro on
      exact { inv.on on with }
    · exact inv.off
  | connect udev off => exact ⟨fun on => absurd off on, inv.off⟩
  | hardware pmsc same =>
    obtain ⟨sameHle, sameL1ds, sameHird, sameRwe⟩ := fields_eq same
    constructor
    · intro on
      have addressed := inv.on (sameHle ▸ on)
      constructor
      · exact sameL1ds.trans addressed.slot
      · exact sameRwe.trans addressed.wakes
      · intro capable mel eq
        rw [sameHird]
        exact addressed.told capable mel eq
      · exact addressed.deep
      · rw [sameHird]
        exact addressed.signals
    · intro off
      exact sameL1ds.trans (inv.off (sameHle ▸ off))

theorem inv_run {s s' : State} (inv : Inv s) (run : Relation.ReflTransGen Step s s') : Inv s' := by
  induction run with
  | refl => exact inv
  | tail _ step ih => exact step.inv ih

/-- Whenever the hardware may put the device on the port to sleep, the port addresses that
    device, however many have been there before it, and the controller knows its BESL. -/
theorem addressed_run {s s' : State} (reset : written s.pmsc = 0#32) (run : Relation.ReflTransGen Step s s') (on : hle s'.pmsc ≠ 0#32) :
    Addressed s' := by
  obtain ⟨sameHle, sameL1ds, _⟩ := fields_eq (reset.trans rfl : written s.pmsc = written 0#32)
  have start : Inv s := ⟨fun on => absurd sameHle on, fun _ => sameL1ds⟩
  exact (inv_run start run).on on

/-- A device with BESL in slot 5, on a port that has been reset. -/
def attached : State where
  hwLpmSupport := true
  hcsParams3 := 0
  udev := { lpmCapable := true, onRootHub := true, isHub := false, hwLpmCapable := true, beslCapable := true, bmAttributes := 0x40e,
            timeout := 512, besl := 4, slotId := 5 }
  currentMel := some 0
  pmsc := 0
  hlpmc := 0

/-- The first command fails, the second one does not. -/
def asleep : State := ((attached.setUsb2HardwareLpm true (-62)).2.setUsb2HardwareLpm true 0).2

/-- It is switched off, and a device in slot 6 with another BESL takes the place. -/
def replaced : State :=
  { (asleep.setUsb2HardwareLpm false 0).2 with udev := { attached.udev with besl := 7, slotId := 6 }, currentMel := some 0 }

/-- The port names either device alone. -/
theorem addressed_run_replaced :
    Addressed asleep ∧ l1ds asleep.pmsc = 5#32 ∧
      Addressed (replaced.setUsb2HardwareLpm true 0).2 ∧ l1ds (replaced.setUsb2HardwareLpm true 0).2.pmsc = 6#32 := by
  have first : Relation.ReflTransGen Step attached asleep :=
    (Relation.ReflTransGen.single (.set true (-62) (by decide))).tail (.set true 0 le_rfl)
  have gone : Relation.ReflTransGen Step attached (asleep.setUsb2HardwareLpm false 0).2 := first.tail (.set false 0 le_rfl)
  have other : Relation.ReflTransGen Step attached (replaced.setUsb2HardwareLpm true 0).2 :=
    (gone.tail (.connect { attached.udev with besl := 7, slotId := 6 } (by decide))).tail (.set true 0 le_rfl)
  exact ⟨addressed_run rfl first (by decide), by decide, addressed_run rfl other (by decide), by decide⟩

end Ehub.HardwareLpm
