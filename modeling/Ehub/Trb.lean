import Mathlib

/-!
A transfer request block: four words, of which the last one, the control word,
holds the cycle bit, the chain bit and the type, and in a link TRB also the bit
that makes a consumer flip its cycle. The functions here are the edits the driver
makes to a control word, each with what it leaves alone.
-/
namespace Ehub

/-- `struct xhci_generic_trb`; `union xhci_trb` overlays it with the link TRB. -/
structure Trb where
  field0 : BitVec 32
  field1 : BitVec 32
  field2 : BitVec 32
  field3 : BitVec 32
deriving DecidableEq

namespace Trb

def trbCycle : BitVec 32 := 1
def linkToggle : BitVec 32 := 1 <<< 1
def trbChain : BitVec 32 := 1 <<< 4
def trbTypeBitmask : BitVec 32 := 0xfc00
def trbType (type : BitVec 32) : BitVec 32 := type <<< 10
def trbLink : BitVec 32 := 6
def trbTrNoop : BitVec 32 := 8

/-- A TRB of a segment fresh from the pool. -/
def zero : Trb := ⟨0, 0, 0, 0⟩

/-- `TRB_CYCLE` of the control word. -/
def cycle (t : Trb) : Bool := t.field3.getLsbD 0

/-- `LINK_TOGGLE` of the control word. -/
def toggle (t : Trb) : Bool := t.field3.getLsbD 1

/-- `TRB_CHAIN` of the control word. -/
def chain (t : Trb) : Bool := t.field3.getLsbD 4

/-- `TRB_TYPE_LINK_LE32`. -/
def isLink (t : Trb) : Bool := t.field3 &&& trbTypeBitmask == trbType trbLink

/-- `TRB_TYPE_NOOP_LE32`. -/
def isNoop (t : Trb) : Bool := t.field3 &&& trbTypeBitmask == trbType trbTrNoop

/-- `link.segment_ptr`, the 64 bits that overlay the first two words. -/
def segmentPtr (t : Trb) : BitVec 64 := t.field1 ++ t.field0

def setSegmentPtr (t : Trb) (ptr : BitVec 64) : Trb :=
  { t with field0 := ptr.extractLsb' 0 32, field1 := ptr.extractLsb' 32 32 }

/-- `control ^= TRB_CYCLE`. -/
def flipCycle (t : Trb) : Trb := { t with field3 := t.field3 ^^^ trbCycle }

/-- `control |= TRB_CYCLE` or `control &= ~TRB_CYCLE`. -/
def setCycle (t : Trb) (c : Bool) : Trb :=
  { t with field3 := if c then t.field3 ||| trbCycle else t.field3 &&& ~~~trbCycle }

/-- `control |= TRB_CHAIN` or `control &= ~TRB_CHAIN`. -/
def setChain (t : Trb) (c : Bool) : Trb :=
  { t with field3 := if c then t.field3 ||| trbChain else t.field3 &&& ~~~trbChain }

/-- `control |= LINK_TOGGLE` or `control &= ~LINK_TOGGLE`. -/
def setToggle (t : Trb) (c : Bool) : Trb :=
  { t with field3 := if c then t.field3 ||| linkToggle else t.field3 &&& ~~~linkToggle }

/-- The type of the control word becomes `TRB_LINK`. -/
def setLinkType (t : Trb) : Trb :=
  { t with field3 := (t.field3 &&& ~~~trbTypeBitmask) ||| trbType trbLink }

/-- What `td_to_noop` makes of a TRB that is no link: only the cycle bit stays. -/
def toNoop (t : Trb) : Trb := ⟨0, 0, 0, (t.field3 &&& trbCycle) ||| trbType trbTrNoop⟩

/-! ### Bits outside a mask stay -/

theorem xor_and_of_disjoint {x b m : BitVec 32} (disjoint : b &&& m = 0) : (x ^^^ b) &&& m = x &&& m := by
  ext i inside
  have bit : (b &&& m)[i] = false := by rw [disjoint]; simp
  rw [BitVec.getElem_and] at bit
  simp only [BitVec.getElem_and, BitVec.getElem_xor]
  cases hb : b[i] <;> cases hm : m[i] <;> simp_all

theorem or_and_of_disjoint {x b m : BitVec 32} (disjoint : b &&& m = 0) : (x ||| b) &&& m = x &&& m := by
  rw [BitVec.and_or_distrib_right, disjoint]
  simp

theorem andNot_and_of_disjoint {x b m : BitVec 32} (disjoint : b &&& m = 0) : (x &&& ~~~b) &&& m = x &&& m := by
  ext i inside
  have bit : (b &&& m)[i] = false := by rw [disjoint]; simp
  rw [BitVec.getElem_and] at bit
  simp only [BitVec.getElem_and, BitVec.getElem_not]
  cases hb : b[i] <;> cases hm : m[i] <;> simp_all

section
variable (t : Trb) (c : Bool)

@[simp] theorem cycle_flipCycle : t.flipCycle.cycle = !t.cycle := by simp [flipCycle, cycle, trbCycle]
@[simp] theorem toggle_flipCycle : t.flipCycle.toggle = t.toggle := by simp [flipCycle, toggle, trbCycle]
@[simp] theorem chain_flipCycle : t.flipCycle.chain = t.chain := by simp [flipCycle, chain, trbCycle]
@[simp] theorem segmentPtr_flipCycle : t.flipCycle.segmentPtr = t.segmentPtr := rfl
@[simp] theorem isLink_flipCycle : t.flipCycle.isLink = t.isLink := by
  simp only [flipCycle, isLink, xor_and_of_disjoint (show trbCycle &&& trbTypeBitmask = 0 from rfl)]

@[simp] theorem cycle_setCycle : (t.setCycle c).cycle = c := by cases c <;> simp [setCycle, cycle, trbCycle]
@[simp] theorem toggle_setCycle : (t.setCycle c).toggle = t.toggle := by
  cases c <;> simp [setCycle, toggle, trbCycle]
@[simp] theorem chain_setCycle : (t.setCycle c).chain = t.chain := by cases c <;> simp [setCycle, chain, trbCycle]
@[simp] theorem segmentPtr_setCycle : (t.setCycle c).segmentPtr = t.segmentPtr := rfl
@[simp] theorem isLink_setCycle : (t.setCycle c).isLink = t.isLink := by
  cases c
  · simp [setCycle, isLink, andNot_and_of_disjoint (show trbCycle &&& trbTypeBitmask = 0 from rfl)]
  · simp [setCycle, isLink, or_and_of_disjoint (show trbCycle &&& trbTypeBitmask = 0 from rfl)]

@[simp] theorem setCycle_setCycle (c' : Bool) : (t.setCycle c').setCycle c = t.setCycle c := by
  have bits : ∀ x : BitVec 32, (x &&& ~~~trbCycle) ||| trbCycle = x ||| trbCycle ∧
      (x ||| trbCycle) &&& ~~~trbCycle = x &&& ~~~trbCycle := by
    intro x
    constructor
    · ext i inside
      simp only [BitVec.getElem_or, BitVec.getElem_and, BitVec.getElem_not]
      cases x[i] <;> cases trbCycle[i] <;> rfl
    · ext i inside
      simp only [BitVec.getElem_or, BitVec.getElem_and, BitVec.getElem_not]
      cases x[i] <;> cases trbCycle[i] <;> rfl
  cases c <;> cases c' <;> simp [setCycle, bits, BitVec.or_assoc, BitVec.and_assoc]

@[simp] theorem cycle_setChain : (t.setChain c).cycle = t.cycle := by cases c <;> simp [setChain, cycle, trbChain]
@[simp] theorem toggle_setChain : (t.setChain c).toggle = t.toggle := by
  cases c <;> simp [setChain, toggle, trbChain]
@[simp] theorem segmentPtr_setChain : (t.setChain c).segmentPtr = t.segmentPtr := rfl
@[simp] theorem isLink_setChain : (t.setChain c).isLink = t.isLink := by
  cases c
  · simp [setChain, isLink, andNot_and_of_disjoint (show trbChain &&& trbTypeBitmask = 0 from rfl)]
  · simp [setChain, isLink, or_and_of_disjoint (show trbChain &&& trbTypeBitmask = 0 from rfl)]

@[simp] theorem cycle_setToggle : (t.setToggle c).cycle = t.cycle := by
  cases c <;> simp [setToggle, cycle, linkToggle]
@[simp] theorem toggle_setToggle : (t.setToggle c).toggle = c := by cases c <;> simp [setToggle, toggle, linkToggle]
@[simp] theorem segmentPtr_setToggle : (t.setToggle c).segmentPtr = t.segmentPtr := rfl
@[simp] theorem isLink_setToggle : (t.setToggle c).isLink = t.isLink := by
  cases c
  · simp [setToggle, isLink, andNot_and_of_disjoint (show linkToggle &&& trbTypeBitmask = 0 from rfl)]
  · simp [setToggle, isLink, or_and_of_disjoint (show linkToggle &&& trbTypeBitmask = 0 from rfl)]

@[simp] theorem cycle_setLinkType : t.setLinkType.cycle = t.cycle := by
  simp [setLinkType, cycle, trbTypeBitmask, trbType, trbLink]
@[simp] theorem toggle_setLinkType : t.setLinkType.toggle = t.toggle := by
  simp [setLinkType, toggle, trbTypeBitmask, trbType, trbLink]
@[simp] theorem segmentPtr_setLinkType : t.setLinkType.segmentPtr = t.segmentPtr := rfl
@[simp] theorem isLink_setLinkType : t.setLinkType.isLink = true := by
  have cleared : (t.field3 &&& ~~~trbTypeBitmask) &&& trbTypeBitmask = 0 := by
    rw [BitVec.and_assoc]
    simp
  simp only [setLinkType, isLink, BitVec.and_or_distrib_right, cleared]
  decide

@[simp] theorem cycle_setSegmentPtr (ptr : BitVec 64) : (t.setSegmentPtr ptr).cycle = t.cycle := rfl
@[simp] theorem toggle_setSegmentPtr (ptr : BitVec 64) : (t.setSegmentPtr ptr).toggle = t.toggle := rfl
@[simp] theorem isLink_setSegmentPtr (ptr : BitVec 64) : (t.setSegmentPtr ptr).isLink = t.isLink := rfl
@[simp] theorem segmentPtr_setSegmentPtr (ptr : BitVec 64) : (t.setSegmentPtr ptr).segmentPtr = ptr := by
  simp only [setSegmentPtr, segmentPtr]
  exact BitVec.extractLsb'_append_extractLsb'

@[simp] theorem cycle_toNoop : t.toNoop.cycle = t.cycle := by
  simp [toNoop, cycle, trbCycle, trbType, trbTrNoop]
@[simp] theorem isLink_toNoop : t.toNoop.isLink = false := by
  have cleared : (t.field3 &&& trbCycle) &&& trbTypeBitmask = 0 := by
    rw [BitVec.and_assoc]
    simp [trbCycle, trbTypeBitmask]
  simp only [toNoop, isLink, BitVec.and_or_distrib_right, cleared]
  decide
@[simp] theorem isNoop_toNoop : t.toNoop.isNoop = true := by
  have cleared : (t.field3 &&& trbCycle) &&& trbTypeBitmask = 0 := by
    rw [BitVec.and_assoc]
    simp [trbCycle, trbTypeBitmask]
  simp only [toNoop, isNoop, BitVec.and_or_distrib_right, cleared]
  decide

end

end Trb

end Ehub
