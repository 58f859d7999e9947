import Mathlib

/-!
The ports of the two root hubs (`xhci_add_in_port`, `xhci_setup_port_arrays`). Every
Supported Protocol capability of the host says for a range of ports which revision of USB
they are of. `port_array` has an entry for every port, 0 as long as no capability has
named it; a port that two capabilities name with different revisions is of neither hub.
The numbers of ports of the two hubs are counted on the way.

A capability of revision 0 is not sorted out: its ports are counted, but their entries
stay 0, as if nothing had named them. The counts are those of the entries exactly if no
such capability names a port that has no entry yet (`addInPorts_counted`).

An access outside an array is `none`.
-/
namespace Ehub.RootHub

/-- `DUPLICATE_ENTRY`. -/
def duplicateEntry : BitVec 8 := 0xff

/-- `XHCI_EXT_PORT_OFF`. -/
def extPortOff (temp : BitVec 32) : Nat := (temp &&& 0xff).toNat

/-- `XHCI_EXT_PORT_COUNT`. -/
def extPortCount (temp : BitVec 32) : Nat := ((temp >>> 8) &&& 0xff).toNat

/-- `XHCI_L1C` and `XHCI_HLC`. -/
def xhciL1c : BitVec 32 := 1 <<< 16
def xhciHlc : BitVec 32 := 1 <<< 19

/-- A Supported Protocol capability: its major revision, and its third dword. -/
structure Capability where
  majorRevision : BitVec 8
  temp : BitVec 32
deriving DecidableEq

/-- `wrapped` is set when a count goes from 0 to 2^32 - 1 or back; nothing reads it. -/
structure Xhci where
  portArray : List (BitVec 8)
  numUsb2Ports : BitVec 32
  numUsb3Ports : BitVec 32
  extCaps : List (BitVec 32)
  numExtCaps : Nat
  swLpmSupport : Bool
  hwLpmSupport : Bool
  wrapped : Bool
deriving DecidableEq

namespace Xhci

def incUsb2Ports (xhci : Xhci) : Xhci :=
  { xhci with numUsb2Ports := xhci.numUsb2Ports + 1, wrapped := xhci.wrapped || xhci.numUsb2Ports == -1 }

def decUsb2Ports (xhci : Xhci) : Xhci :=
  { xhci with numUsb2Ports := xhci.numUsb2Ports - 1, wrapped := xhci.wrapped || xhci.numUsb2Ports == 0 }

def incUsb3Ports (xhci : Xhci) : Xhci :=
  { xhci with numUsb3Ports := xhci.numUsb3Ports + 1, wrapped := xhci.wrapped || xhci.numUsb3Ports == -1 }

def decUsb3Ports (xhci : Xhci) : Xhci :=
  { xhci with numUsb3Ports := xhci.numUsb3Ports - 1, wrapped := xhci.wrapped || xhci.numUsb3Ports == 0 }

def setPort (xhci : Xhci) (i : Nat) (entry : BitVec 8) : Xhci := { xhci with portArray := xhci.portArray.set i entry }

/-- The body of the loop over the ports of a capability. -/
def addPort (majorRevision : BitVec 8) (xhci : Xhci) (i : Nat) : Option Xhci :=
  match xhci.portArray[i]? with
  | none => none
  | some entry =>
    if entry ≠ 0 then
      if entry ≠ majorRevision ∧ entry ≠ duplicateEntry then
        let xhci := if entry = 3 then xhci.decUsb3Ports else xhci.decUsb2Ports
        some (xhci.setPort i duplicateEntry)
      else some xhci
    else
      let xhci := xhci.setPort i majorRevision
      some (if majorRevision = 3 then xhci.incUsb3Ports else xhci.incUsb2Ports)

/-- The third dword is kept in `ext_caps`, if there is room. -/
def cacheCap (maxCaps : Nat) (c : Capability) (xhci : Xhci) : Option Xhci :=
  if c.majorRevision < 3 ∧ xhci.numExtCaps < maxCaps then
    if xhci.numExtCaps < xhci.extCaps.length then
      some { xhci with extCaps := xhci.extCaps.set xhci.numExtCaps c.temp, numExtCaps := xhci.numExtCaps + 1 }
    else none
  else some xhci

/-- The host's USB2 LPM capability. -/
def noteLpm (hciVersion : BitVec 16) (c : Capability) (xhci : Xhci) : Xhci :=
  let xhci :=
    if hciVersion = 0x96 ∧ c.majorRevision ≠ 3 ∧ c.temp &&& xhciL1c ≠ 0 then { xhci with swLpmSupport := true } else xhci
  if 0x100 ≤ hciVersion ∧ c.majorRevision ≠ 3 then
    { xhci with swLpmSupport := true, hwLpmSupport := xhci.hwLpmSupport || c.temp &&& xhciHlc != 0 }
  else xhci

end Xhci

/-- The ports that a capability names, from 0 on. -/
def Capability.ports (c : Capability) : List Nat := List.range' (extPortOff c.temp - 1) (extPortCount c.temp)

/-- A capability whose ports are entered: its revision is known, its third dword could be
    read, and its ports exist. -/
def Capability.Accepted (numPorts : BitVec 32) (c : Capability) : Prop :=
  ¬3 < c.majorRevision ∧ c.temp ≠ -1 ∧ ¬(extPortOff c.temp = 0 ∨ numPorts.toNat < extPortOff c.temp + extPortCount c.temp - 1)

instance Capability.instDecidableAccepted (numPorts : BitVec 32) (c : Capability) : Decidable (c.Accepted numPorts) :=
  inferInstanceAs (Decidable (_ ∧ _ ∧ _))

/-- `xhci_add_in_port`. -/
def addInPort (hciVersion : BitVec 16) (numPorts : BitVec 32) (maxCaps : Nat) (xhci : Xhci) (c : Capability) : Option Xhci :=
  if 3 < c.majorRevision then some xhci
  else if c.temp = -1 then some xhci
  else if extPortOff c.temp = 0 ∨ numPorts.toNat < extPortOff c.temp + extPortCount c.temp - 1 then some xhci
  else (xhci.cacheCap maxCaps c).bind fun xhci => c.ports.foldlM (Xhci.addPort c.majorRevision) (xhci.noteLpm hciVersion c)

/-- `xhci_add_in_port` for one capability after the other. -/
def addInPorts (hciVersion : BitVec 16) (numPorts : BitVec 32) (maxCaps : Nat) (caps : List Capability) (xhci : Xhci) : Option Xhci :=
  caps.foldlM (addInPort hciVersion numPorts maxCaps) xhci

/-- The arrays as `kzalloc` gives them. -/
def newXhci (numPorts : BitVec 32) (maxCaps : Nat) : Xhci :=
  ⟨List.replicate numPorts.toNat 0, 0, 0, List.replicate maxCaps 0, 0, false, false, false⟩

/-- An entry of a port of the USB 2.0 hub. -/
def isUsb2 (entry : BitVec 8) : Bool := entry ≠ 0 && entry ≠ 3 && entry ≠ duplicateEntry

def isUsb3 (entry : BitVec 8) : Bool := entry == 3

/-- The counts are those of the entries. -/
structure Counted (xhci : Xhci) : Prop where
  usb3 : xhci.numUsb3Ports.toNat = xhci.portArray.countP isUsb3
  usb2 : xhci.numUsb2Ports.toNat = xhci.portArray.countP isUsb2
  unwrapped : xhci.wrapped = false

/-- A capability of revision 0 only names ports that capabilities before it have named with
    other revisions. -/
def Named (numPorts : BitVec 32) (caps : List Capability) : Prop :=
  ∀ before c after, caps = before ++ c :: after → c.Accepted numPorts → c.majorRevision = 0 →
    ∀ i ∈ c.ports, ∃ c' ∈ before, c'.Accepted numPorts ∧ c'.majorRevision ≠ 0 ∧ i ∈ c'.ports

section
variable {xhci : Xhci} {major entry : BitVec 8} {i : Nat}

/-! ### One port -/

/-- Another count than that of the entries, for a capability of revision 0. -/
def Strayed (xhci : Xhci) : Prop := xhci.wrapped = true ∨ xhci.portArray.countP isUsb2 < xhci.numUsb2Ports.toNat

def Usb3Counted (xhci : Xhci) : Prop := xhci.numUsb3Ports.toNat = xhci.portArray.countP isUsb3

theorem toNat_inc {x : BitVec 32} (room : x ≠ -1) : (x + 1).toNat = x.toNat + 1 := by
  bv_omega

theorem toNat_dec {x : BitVec 32} (some_port : x ≠ 0) : (x - 1).toNat = x.toNat - 1 := by
  bv_omega

/-- A count after an entry has been written. -/
theorem countP_write {α : Type*} {p : α → Bool} {l : List α} {i : Nat} {a : α} (here : l[i]? = some a) (b : α) :
    (l.set i b).countP p + (if p a then 1 else 0) = l.countP p + if p b then 1 else 0 := by
  obtain ⟨inside, rfl⟩ := List.getElem?_eq_some_iff.mp here
  have counted : (if p l[i] then 1 else 0) ≤ l.countP p := by
    split_ifs with holds
    · exact List.countP_pos_iff.mpr ⟨_, List.getElem_mem inside, holds⟩
    · exact Nat.zero_le _
  rw [List.countP_set inside]
  omega

theorem isUsb2_iff : isUsb2 entry = true ↔ entry ≠ 0 ∧ entry ≠ 3 ∧ entry ≠ duplicateEntry := by
  simp only [isUsb2, Bool.and_eq_true, decide_eq_true_eq, and_assoc]

/-- What a port that has an entry becomes. -/
theorem addPort_named (here : xhci.portArray[i]? = some entry) (some_entry : entry ≠ 0) :
    (xhci.addPort major i = some xhci ∨
      entry = 3 ∧ xhci.addPort major i = some (xhci.decUsb3Ports.setPort i duplicateEntry) ∨
      isUsb2 entry = true ∧ xhci.addPort major i = some (xhci.decUsb2Ports.setPort i duplicateEntry)) := by
  rw [Xhci.addPort, here]
  dsimp only
  rw [if_pos some_entry]
  by_cases differs : entry ≠ major ∧ entry ≠ duplicateEntry
  · rw [if_pos differs]
    by_cases is_usb3 : entry = 3
    · rw [if_pos is_usb3]
      exact .inr (.inl ⟨is_usb3, rfl⟩)
    · rw [if_neg is_usb3]
      exact .inr (.inr ⟨isUsb2_iff.mpr ⟨some_entry, is_usb3, differs.2⟩, rfl⟩)
  · rw [if_neg differs]
    exact .inl rfl

theorem addPort_new (here : xhci.portArray[i]? = some 0) :
    xhci.addPort major i =
      some (if major = 3 then (xhci.setPort i major).incUsb3Ports else (xhci.setPort i major).incUsb2Ports) := by
  rw [Xhci.addPort, here]
  rfl

/-- What entering ports keeps, and which ports have an entry then. -/
structure Entered (xhci xhci' : Xhci) (major : BitVec 8) (ports : List Nat) : Prop where
  length : xhci'.portArray.length = xhci.portArray.length
  extCaps : xhci'.extCaps.length = xhci.extCaps.length
  named : ∀ j, xhci'.portArray.getD j 0 ≠ 0 ↔ xhci.portArray.getD j 0 ≠ 0 ∨ j ∈ ports ∧ major ≠ 0
  usb3 : Usb3Counted xhci → Usb3Counted xhci'
  counted : Counted xhci → (major = 0 → ∀ i ∈ ports, xhci.portArray.getD i 0 ≠ 0) → Counted xhci'
  strays : Counted xhci → major = 0 → (∃ i ∈ ports, xhci.portArray.getD i 0 = 0) → Strayed xhci'
  strayed : Strayed xhci → Strayed xhci'

theorem getD_set {l : List (BitVec 8)} (inside : i < l.length) (e : BitVec 8) (j : Nat) :
    (l.set i e).getD j 0 = if i = j then e else l.getD j 0 := by
  rw [List.getD_eq_getElem?_getD, List.getD_eq_getElem?_getD, List.getElem?_set]
  by_cases same : i = j
  · subst same
    simp [inside]
  · simp [same]

theorem getD_of_getElem? {l : List (BitVec 8)} (here : l[i]? = some entry) : l.getD i 0 = entry := by
  rw [List.getD_eq_getElem?_getD, here]
  rfl

/-- An entry becomes `DUPLICATE_ENTRY`, and one of the counts goes down. -/
theorem entered_duplicate {xhci' : Xhci} (here : xhci.portArray[i]? = some entry) (some_entry : entry ≠ 0)
    (portArray : xhci'.portArray = xhci.portArray.set i duplicateEntry) (extCaps : xhci'.extCaps.length = xhci.extCaps.length)
    (usb3 : Usb3Counted xhci → Usb3Counted xhci') (counted : Counted xhci → Counted xhci') (strayed : Strayed xhci → Strayed xhci') :
    Entered xhci xhci' major [i] := by
  have inside := (List.getElem?_eq_some_iff.mp here).1
  refine ⟨by rw [portArray, List.length_set], extCaps, ?_, usb3, fun before _ => counted before, ?_, strayed⟩
  · intro j
    rw [portArray, getD_set inside]
    by_cases same : i = j
    · subst same
      rw [if_pos rfl, getD_of_getElem? here]
      exact iff_of_true (by decide) (.inl some_entry)
    · rw [if_neg same]
      simp [Ne.symm same]
  · rintro _ _ ⟨j, member, empty⟩
    rw [List.mem_singleton.mp member, getD_of_getElem? here] at empty
    exact absurd empty some_entry

/-- A port of revision 3 is named with another one. -/
theorem entered_not_usb3 (here : xhci.portArray[i]? = some 3) :
    Entered xhci (xhci.decUsb3Ports.setPort i duplicateEntry) major [i] := by
  have less : (xhci.portArray.set i duplicateEntry).countP isUsb3 + 1 = xhci.portArray.countP isUsb3 :=
    countP_write (p := isUsb3) here duplicateEntry
  have same : (xhci.portArray.set i duplicateEntry).countP isUsb2 = xhci.portArray.countP isUsb2 :=
    countP_write (p := isUsb2) here duplicateEntry
  have some_port : Usb3Counted xhci → xhci.numUsb3Ports ≠ 0 := by
    intro usb3 zero
    rw [Usb3Counted, zero] at usb3
    exact absurd (usb3.trans less.symm) (Nat.succ_ne_zero _).symm
  have usb3 : Usb3Counted xhci → Usb3Counted (xhci.decUsb3Ports.setPort i duplicateEntry) := by
    intro usb3
    change (xhci.numUsb3Ports - 1).toNat = (xhci.portArray.set i duplicateEntry).countP isUsb3
    rw [toNat_dec (some_port usb3), usb3]
    omega
  refine entered_duplicate here (by decide) rfl rfl usb3 ?_ ?_
  · rintro ⟨count, usb2, unwrapped⟩
    refine ⟨usb3 count, usb2.trans same.symm, ?_⟩
    · change (xhci.wrapped || xhci.numUsb3Ports == 0) = false
      simpa [unwrapped] using some_port count
  · rintro (wrapped | more)
    · exact .inl (by simp [Xhci.decUsb3Ports, Xhci.setPort, wrapped])
    · exact .inr (same.trans_lt more)

/-- A port of the USB 2.0 hub is named with another revision. -/
theorem entered_not_usb2 (here : xhci.portArray[i]? = some entry) (is_usb2 : isUsb2 entry = true) :
    Entered xhci (xhci.decUsb2Ports.setPort i duplicateEntry) major [i] := by
  obtain ⟨some_entry, not_usb3, -⟩ := isUsb2_iff.mp is_usb2
  have same := countP_write (p := isUsb3) here duplicateEntry
  have less := countP_write (p := isUsb2) here duplicateEntry
  have not3 : isUsb3 entry = false := by simpa [isUsb3] using not_usb3
  rw [not3, show isUsb3 duplicateEntry = false from rfl] at same
  rw [is_usb2, show isUsb2 duplicateEntry = false from rfl] at less
  simp only [Bool.false_eq_true, if_false, if_true, Nat.add_zero] at same less
  refine entered_duplicate here some_entry rfl rfl (fun usb3 => usb3.trans same.symm) ?_ ?_
  · rintro ⟨usb3, usb2, unwrapped⟩
    have some_port : xhci.numUsb2Ports ≠ 0 := by
      intro zero
      have none_left : xhci.numUsb2Ports.toNat = 0 := by
        rw [zero]
        rfl
      omega
    refine ⟨usb3.trans same.symm, ?_, ?_⟩
    · change (xhci.numUsb2Ports - 1).toNat = (xhci.portArray.set i duplicateEntry).countP isUsb2
      rw [toNat_dec some_port]
      omega
    · change (xhci.wrapped || xhci.numUsb2Ports == 0) = false
      simpa [unwrapped] using some_port
  · rintro (wrapped | more)
    · exact .inl (by simp [Xhci.decUsb2Ports, Xhci.setPort, wrapped])
    · refine .inr ?_
      change (xhci.portArray.set i duplicateEntry).countP isUsb2 < (xhci.numUsb2Ports - 1).toNat
      have some_port : xhci.numUsb2Ports ≠ 0 := by
        intro zero
        have none_left : xhci.numUsb2Ports.toNat = 0 := by
          rw [zero]
          rfl
        omega
      rw [toNat_dec some_port]
      omega

/-- A port gets its first entry. -/
theorem entered_new {xhci' : Xhci} (here : xhci.portArray[i]? = some 0) (portArray : xhci'.portArray = xhci.portArray.set i major)
    (extCaps : xhci'.extCaps.length = xhci.extCaps.length) (usb3 : Usb3Counted xhci → Usb3Counted xhci')
    (counted : Counted xhci → major ≠ 0 → Counted xhci')
    (strays : Counted xhci → major = 0 → Strayed xhci') (strayed : Strayed xhci → Strayed xhci') : Entered xhci xhci' major [i] := by
  have inside := (List.getElem?_eq_some_iff.mp here).1
  refine ⟨by rw [portArray, List.length_set], extCaps, ?_, usb3, ?_, fun before is_zero _ => strays before is_zero, strayed⟩
  · intro j
    rw [portArray, getD_set inside]
    by_cases same : i = j
    · subst same
      rw [if_pos rfl, getD_of_getElem? here]
      simp
    · rw [if_neg same]
      simp [Ne.symm same]
  · intro before some_entry
    refine counted before fun is_zero => some_entry is_zero i List.mem_cons_self ?_
    rw [getD_of_getElem? here]

theorem entered_usb3 (here : xhci.portArray[i]? = some 0) (few : xhci.portArray.length < 2 ^ 32) :
    Entered xhci ((xhci.setPort i 3).incUsb3Ports) 3 [i] := by
  have more : (xhci.portArray.set i 3).countP isUsb3 = xhci.portArray.countP isUsb3 + 1 := countP_write (p := isUsb3) here 3
  have same : (xhci.portArray.set i 3).countP isUsb2 = xhci.portArray.countP isUsb2 := countP_write (p := isUsb2) here 3
  have bound : (xhci.portArray.set i 3).countP isUsb3 ≤ xhci.portArray.length :=
    List.countP_le_length.trans_eq List.length_set
  have room : Usb3Counted xhci → xhci.numUsb3Ports ≠ -1 := by
    intro usb3 full
    have last : xhci.numUsb3Ports.toNat = 2 ^ 32 - 1 := by
      rw [full]
      rfl
    rw [Usb3Counted] at usb3
    omega
  have usb3 : Usb3Counted xhci → Usb3Counted ((xhci.setPort i 3).incUsb3Ports) := by
    intro usb3
    change (xhci.numUsb3Ports + 1).toNat = (xhci.portArray.set i 3).countP isUsb3
    rw [toNat_inc (room usb3), usb3, more]
  refine entered_new here rfl rfl usb3 ?_ (fun _ is_zero => absurd is_zero (by decide)) ?_
  · rintro ⟨count, usb2, unwrapped⟩ -
    refine ⟨usb3 count, usb2.trans same.symm, ?_⟩
    · change (xhci.wrapped || xhci.numUsb3Ports == -1) = false
      simpa [unwrapped] using room count
  · rintro (wrapped | less)
    · exact .inl (by simp [Xhci.incUsb3Ports, Xhci.setPort, wrapped])
    · exact .inr (same.trans_lt less)

/-- The port is counted for the USB 2.0 hub, also if its entry stays 0. -/
theorem entered_usb2 (here : xhci.portArray[i]? = some 0) (few : xhci.portArray.length < 2 ^ 32) (known : ¬3 < major)
    (not_usb3 : major ≠ 3) : Entered xhci ((xhci.setPort i major).incUsb2Ports) major [i] := by
  have same := countP_write (p := isUsb3) here major
  have more := countP_write (p := isUsb2) here major
  have not3 : isUsb3 major = false := by simpa [isUsb3] using not_usb3
  have two : isUsb2 major = true ↔ major ≠ 0 := by
    refine isUsb2_iff.trans ⟨And.left, fun some_entry => ⟨some_entry, not_usb3, ?_⟩⟩
    rintro rfl
    exact known (by decide)
  rw [not3, show isUsb3 0 = false from rfl] at same
  rw [show isUsb2 0 = false from rfl] at more
  simp only [Bool.false_eq_true, if_false, Nat.add_zero] at same more
  -- What is counted once too often, or has made the count wrap, is not set right again.
  have after : ∀ {n : Nat}, (xhci.portArray.set i major).countP isUsb2 = n + (if isUsb2 major then 1 else 0) →
      (n < xhci.numUsb2Ports.toNat ∨ n = xhci.numUsb2Ports.toNat ∧ major = 0) → Strayed ((xhci.setPort i major).incUsb2Ports) := by
    intro n is_count less
    by_cases full : xhci.numUsb2Ports = -1
    · exact .inl (by simp [Xhci.incUsb2Ports, Xhci.setPort, full])
    · refine .inr ?_
      change (xhci.portArray.set i major).countP isUsb2 < (xhci.numUsb2Ports + 1).toNat
      rw [toNat_inc full, is_count]
      rcases less with less | ⟨same, is_zero⟩
      · split_ifs <;> omega
      · rw [if_neg fun is_usb2 => two.mp is_usb2 is_zero]
        omega
  refine entered_new here rfl rfl (fun usb3 => usb3.trans same.symm) ?_ ?_ ?_
  · rintro ⟨usb3, usb2, unwrapped⟩ some_entry
    rw [if_pos (two.mpr some_entry)] at more
    have bound : (xhci.portArray.set i major).countP isUsb2 ≤ xhci.portArray.length :=
      List.countP_le_length.trans_eq List.length_set
    have room : xhci.numUsb2Ports ≠ -1 := by
      intro full
      have last : xhci.numUsb2Ports.toNat = 2 ^ 32 - 1 := by
        rw [full]
        rfl
      omega
    refine ⟨usb3.trans same.symm, ?_, ?_⟩
    · change (xhci.numUsb2Ports + 1).toNat = (xhci.portArray.set i major).countP isUsb2
      rw [toNat_inc room, usb2, more]
    · change (xhci.wrapped || xhci.numUsb2Ports == -1) = false
      simpa [unwrapped] using room
  · exact fun counted is_zero => after more (.inr ⟨counted.usb2.symm, is_zero⟩)
  · rintro (wrapped | less)
    · exact .inl (by simp [Xhci.incUsb2Ports, Xhci.setPort, wrapped])
    · exact after more (.inl less)

/-- A port is entered. It is inside of `port_array`, whose length is a number of 32 bits. -/
theorem addPort_entered (inside : i < xhci.portArray.length) (few : xhci.portArray.length < 2 ^ 32) (known : ¬3 < major) :
    ∃ xhci', xhci.addPort major i = some xhci' ∧ Entered xhci xhci' major [i] := by
  have here := List.getElem?_eq_getElem inside
  generalize xhci.portArray[i] = entry at here
  by_cases some_entry : entry = 0
  · subst some_entry
    refine ⟨_, addPort_new here, ?_⟩
    by_cases is_usb3 : major = 3
    · subst is_usb3
      rw [if_pos rfl]
      exact entered_usb3 here few
    · rw [if_neg is_usb3]
      exact entered_usb2 here few known is_usb3
  · rcases addPort_named here some_entry with same | ⟨rfl, done⟩ | ⟨is_usb2, done⟩
    · refine ⟨xhci, same, rfl, rfl, ?_, id, fun counted _ => counted, ?_, id⟩
      · intro j
        constructor
        · exact .inl
        · rintro (before | ⟨member, _⟩)
          · exact before
          · rw [List.mem_singleton.mp member, getD_of_getElem? here]
            exact some_entry
      · rintro _ _ ⟨j, member, empty⟩
        rw [List.mem_singleton.mp member, getD_of_getElem? here] at empty
        exact absurd empty some_entry
    · exact ⟨_, done, entered_not_usb3 here⟩
    · exact ⟨_, done, entered_not_usb2 here is_usb2⟩

/-! ### One capability -/

theorem Entered.append {xhci' xhci'' : Xhci} {ps qs : List Nat} (first : Entered xhci xhci' major ps)
    (second : Entered xhci' xhci'' major qs) : Entered xhci xhci'' major (ps ++ qs) where
  length := second.length.trans first.length
  extCaps := second.extCaps.trans first.extCaps
  named j := by
    rw [second.named, first.named, List.mem_append]
    tauto
  usb3 := second.usb3 ∘ first.usb3
  counted counted some_entry := by
    refine second.counted (first.counted counted fun is_zero i member => some_entry is_zero i (List.mem_append_left _ member)) ?_
    exact fun is_zero i member => (first.named i).mpr (.inl (some_entry is_zero i (List.mem_append_right _ member)))
  strays counted is_zero := by
    rintro ⟨i, member, empty⟩
    by_cases before : ∃ j ∈ ps, xhci.portArray.getD j 0 = 0
    · exact second.strayed (first.strays counted is_zero before)
    · push Not at before
      refine second.strays (first.counted counted fun _ => before) is_zero ⟨i, ?_, ?_⟩
      · exact (List.mem_append.mp member).resolve_left fun there => before i there empty
      · by_contra some_entry
        rcases (first.named i).mp some_entry with there | ⟨_, not_zero⟩
        · exact there empty
        · exact not_zero is_zero
  strayed := second.strayed ∘ first.strayed

theorem entered_nil (xhci : Xhci) : Entered xhci xhci major [] :=
  ⟨rfl, rfl, fun j => by simp, id, fun counted _ => counted, fun _ _ ⟨_, member, _⟩ => absurd member List.not_mem_nil, id⟩

theorem addPorts_entered (known : ¬3 < major) : ∀ (ports : List Nat) (xhci : Xhci), xhci.portArray.length < 2 ^ 32 →
    (∀ i ∈ ports, i < xhci.portArray.length) →
    ∃ xhci', ports.foldlM (Xhci.addPort major) xhci = some xhci' ∧ Entered xhci xhci' major ports := by
  intro ports
  induction ports with
  | nil => exact fun xhci _ _ => ⟨xhci, rfl, entered_nil xhci⟩
  | cons i ports ih =>
    intro xhci few inside
    obtain ⟨xhci', added, first⟩ := addPort_entered (inside i List.mem_cons_self) few known
    obtain ⟨xhci'', rest, second⟩ := ih xhci' (by rw [first.length]; exact few)
      fun j member => by rw [first.length]; exact inside j (List.mem_cons_of_mem i member)
    refine ⟨xhci'', ?_, first.append second⟩
    rw [List.foldlM_cons, added]
    exact rest

/-- There is room in `ext_caps` for every capability that is kept. -/
theorem cacheCap_some (xhci : Xhci) (c : Capability) : ∃ extCaps numExtCaps, xhci.cacheCap xhci.extCaps.length c = some { xhci with extCaps, numExtCaps } ∧
    extCaps.length = xhci.extCaps.length := by
  rw [Xhci.cacheCap]
  by_cases room : c.majorRevision < 3 ∧ xhci.numExtCaps < xhci.extCaps.length
  · rw [if_pos room, if_pos room.2]
    exact ⟨_, _, rfl, List.length_set⟩
  · rw [if_neg room]
    exact ⟨_, _, rfl, rfl⟩

theorem noteLpm_eq (hciVersion : BitVec 16) (c : Capability) (xhci : Xhci) :
    ∃ swLpmSupport hwLpmSupport, xhci.noteLpm hciVersion c = { xhci with swLpmSupport, hwLpmSupport } := by
  rw [Xhci.noteLpm]
  split_ifs <;> exact ⟨_, _, rfl⟩

theorem addInPort_rejected {hciVersion : BitVec 16} {numPorts : BitVec 32} {maxCaps : Nat} {c : Capability}
    (rejected : ¬c.Accepted numPorts) : addInPort hciVersion numPorts maxCaps xhci c = some xhci := by
  rw [addInPort]
  split_ifs with unknown unread absent
  · rfl
  · rfl
  · rfl
  · exact absurd ⟨unknown, unread, absent⟩ rejected

/-- All ports of an accepted capability are entered. -/
theorem addInPort_accepted (hciVersion : BitVec 16) {numPorts : BitVec 32} {c : Capability} (accepted : c.Accepted numPorts)
    (length : xhci.portArray.length = numPorts.toNat) :
    ∃ xhci', addInPort hciVersion numPorts xhci.extCaps.length xhci c = some xhci' ∧
      Entered xhci xhci' c.majorRevision c.ports := by
  obtain ⟨known, read, exist⟩ := accepted
  obtain ⟨extCaps, numExtCaps, cached, same⟩ := cacheCap_some xhci c
  obtain ⟨sw, hw, noted⟩ := noteLpm_eq hciVersion c { xhci with extCaps, numExtCaps }
  have inside : ∀ i ∈ c.ports, i < xhci.portArray.length := by
    intro i member
    obtain ⟨_, above⟩ := List.mem_range'_1.mp member
    omega
  have few : xhci.portArray.length < 2 ^ 32 := by
    rw [length]
    exact numPorts.isLt
  obtain ⟨xhci', added, entered⟩ := addPorts_entered known c.ports
    { xhci with extCaps, numExtCaps, swLpmSupport := sw, hwLpmSupport := hw } few inside
  refine ⟨xhci', ?_, ?_⟩
  · rw [addInPort, if_neg known, if_neg read, if_neg exist, cached]
    dsimp only [Option.bind]
    rw [noted]
    exact added
  · exact ⟨entered.length, entered.extCaps.trans same, entered.named, fun usb3 => entered.usb3 usb3, fun counted => entered.counted ⟨counted.1, counted.2, counted.3⟩,
      fun counted => entered.strays ⟨counted.1, counted.2, counted.3⟩, fun strayed => entered.strayed strayed⟩

end

/-! ### All capabilities -/

theorem named_append {numPorts : BitVec 32} {caps : List Capability} {c : Capability} : Named numPorts (caps ++ [c]) ↔
    Named numPorts caps ∧ (c.Accepted numPorts → c.majorRevision = 0 →
      ∀ i ∈ c.ports, ∃ c' ∈ caps, c'.Accepted numPorts ∧ c'.majorRevision ≠ 0 ∧ i ∈ c'.ports) := by
  constructor
  · intro named
    refine ⟨fun before c' after is_caps => named before c' (after ++ [c]) (by simp [is_caps]), named caps c [] rfl⟩
  · rintro ⟨named, last⟩ before c' after is_caps
    rcases List.eq_nil_or_concat after with rfl | ⟨after', c'', rfl⟩
    · obtain ⟨rfl, is_last⟩ := List.append_inj' is_caps rfl
      cases is_last
      exact last
    · have same : caps ++ [c] = (before ++ c' :: after') ++ [c''] := by simpa using is_caps
      obtain ⟨is_caps, -⟩ := List.append_inj' same rfl
      exact named before c' after' is_caps

/-- What the capabilities have made of the ports. -/
theorem addInPorts_run (hciVersion : BitVec 16) (numPorts : BitVec 32) (maxCaps : Nat) (caps : List Capability) :
    ∃ xhci, addInPorts hciVersion numPorts maxCaps caps (newXhci numPorts maxCaps) = some xhci ∧
      xhci.portArray.length = numPorts.toNat ∧ xhci.extCaps.length = maxCaps ∧ Usb3Counted xhci ∧
      (∀ j, xhci.portArray.getD j 0 ≠ 0 ↔ ∃ c ∈ caps, c.Accepted numPorts ∧ c.majorRevision ≠ 0 ∧ j ∈ c.ports) ∧
      (Named numPorts caps → Counted xhci) ∧ (¬Named numPorts caps → Strayed xhci) := by
  induction caps using List.reverseRecOn with
  | nil =>
    have usb3 : Usb3Counted (newXhci numPorts maxCaps) := by
      simp [Usb3Counted, newXhci, isUsb3, List.countP_replicate]
    refine ⟨_, rfl, by simp [newXhci], by simp [newXhci], usb3, ?_, fun _ => ⟨usb3, ?_, rfl⟩, fun unnamed => absurd ?_ unnamed⟩
    · intro j
      simp [newXhci, List.getD_eq_getElem?_getD, List.getElem?_replicate]
      split_ifs <;> simp
    · simp [newXhci, isUsb2, List.countP_replicate]
    · exact fun before c after is_caps => absurd is_caps (by simp)
  | append_singleton caps c ih =>
    obtain ⟨xhci, run, length, extCaps, usb3, entries, counted, strayed⟩ := ih
    have next : addInPorts hciVersion numPorts maxCaps (caps ++ [c]) (newXhci numPorts maxCaps) =
        addInPort hciVersion numPorts maxCaps xhci c := by
      rw [addInPorts, List.foldlM_append]
      rw [addInPorts] at run
      rw [run]
      simp
    rw [next, named_append]
    by_cases accepted : c.Accepted numPorts
    · obtain ⟨xhci', added, entered⟩ := addInPort_accepted hciVersion accepted length
      rw [extCaps] at added
      refine ⟨xhci', added, entered.length.trans length, entered.extCaps.trans extCaps, entered.usb3 usb3, ?_, ?_, ?_⟩
      · intro j
        rw [entered.named, entries]
        simp only [List.mem_append, List.mem_singleton]
        constructor
        · rintro (⟨c', member, rest⟩ | ⟨here, not_zero⟩)
          · exact ⟨c', .inl member, rest⟩
          · exact ⟨c, .inr rfl, accepted, not_zero, here⟩
        · rintro ⟨c', member | rfl, rest⟩
          · exact .inl ⟨c', member, rest⟩
          · exact .inr ⟨rest.2.2, rest.2.1⟩
      · rintro ⟨named, last⟩
        exact entered.counted (counted named) fun is_zero i member => (entries i).mpr (last accepted is_zero i member)
      · intro unnamed
        by_cases named : Named numPorts caps
        · simp only [named, true_and, accepted, forall_const, not_forall] at unnamed
          obtain ⟨is_zero, i, member, nowhere⟩ := unnamed
          refine entered.strays (counted named) is_zero ⟨i, member, ?_⟩
          by_contra some_entry
          exact nowhere ((entries i).mp some_entry)
        · exact entered.strayed (strayed named)
    · refine ⟨xhci, addInPort_rejected accepted, length, extCaps, usb3, ?_, ?_, ?_⟩
      · intro j
        rw [entries]
        simp only [List.mem_append, List.mem_singleton]
        constructor
        · exact fun ⟨c', member, rest⟩ => ⟨c', .inl member, rest⟩
        · rintro ⟨c', member | rfl, rest⟩
          · exact ⟨c', member, rest⟩
          · exact absurd rest.1 accepted
      · exact fun both => counted both.1
      · exact fun unnamed => strayed fun named => unnamed ⟨named, fun here => absurd here accepted⟩

/-- The counts are those of the entries exactly if the capabilities of revision 0 only name
    ports that have been named before. No array is accessed outside in any case. -/
theorem addInPorts_counted (hciVersion : BitVec 16) (numPorts : BitVec 32) (maxCaps : Nat) (caps : List Capability) :
    (∃ xhci, addInPorts hciVersion numPorts maxCaps caps (newXhci numPorts maxCaps) = some xhci ∧ Counted xhci) ↔
      Named numPorts caps := by
  obtain ⟨xhci, run, -, -, -, -, counted, strayed⟩ := addInPorts_run hciVersion numPorts maxCaps caps
  rw [run]
  constructor
  · rintro ⟨_, is_xhci, usb3, usb2, unwrapped⟩
    cases is_xhci
    by_contra unnamed
    rcases strayed unnamed with wrapped | more
    · rw [unwrapped] at wrapped
      exact absurd wrapped Bool.false_ne_true
    · exact more.ne usb2.symm
  · exact fun named => ⟨xhci, rfl, counted named⟩

/-- One port, for which there is a capability of revision 0: it is counted, but has no
    entry. -/
theorem not_addInPorts_counted : ¬∀ hciVersion numPorts maxCaps caps, ∃ xhci,
    addInPorts hciVersion numPorts maxCaps caps (newXhci numPorts maxCaps) = some xhci ∧ Counted xhci := by
  intro counted
  obtain ⟨xhci, run, -, usb2, -⟩ := counted 0x96 1 1 [⟨0, 0x101⟩]
  have shown : addInPorts 0x96 1 1 [⟨0, 0x101⟩] (newXhci 1 1) = some ⟨[0], 1, 0, [0x101], 1, false, false, false⟩ := by decide +kernel
  rw [shown] at run
  cases run
  exact absurd usb2 (by decide)

end Ehub.RootHub
