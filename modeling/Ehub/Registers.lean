import Mathlib

/-!
Programs that read and write registers. What a register is read as is up to the hardware:
each register has a stream of values, and a program takes the next one whenever it reads.
A write is kept together with the value that the register was last read as and with a
label that says what the write is for.

`wp` computes whether all writes of a program satisfy a predicate; for a program made of
others it is made of theirs.

The bits of a register are of two kinds (`Layout`): some hold what is written to them, and
a one written to others has an effect. A write is clean if it keeps the first and leaves the
others zero, apart from what it is meant to change and to trigger.
-/
namespace Ehub.Registers

variable {ρ ι ν α β : Type} [DecidableEq ρ]

/-- A program over registers `ρ` that hold `ν`, with labels `ι` on its writes. -/
inductive Prog (ρ ι ν α : Type)
  | ret (a : α)
  | read (reg : ρ) (next : ν → Prog ρ ι ν α)
  | write (purpose : ι) (reg : ρ) (value : ν) (next : Prog ρ ι ν α)

structure Write (ρ ι ν : Type) where
  purpose : ι
  reg : ρ
  raw : Option ν
  value : ν
  deriving DecidableEq

namespace Prog

def bind : Prog ρ ι ν α → (α → Prog ρ ι ν β) → Prog ρ ι ν β
  | .ret a, k => k a
  | .read reg next, k => .read reg fun v => (next v).bind k
  | .write purpose reg value next, k => .write purpose reg value (next.bind k)

instance instMonad : Monad (Prog ρ ι ν) where
  pure := .ret
  bind := bind

omit [DecidableEq ρ] in
theorem bind_ret (p : Prog ρ ι ν α) : p >>= pure = p := by
  show p.bind .ret = p
  induction p with
  | ret a => rfl
  | read reg next ih => exact congrArg (Prog.read reg) (funext ih)
  | write purpose reg value next ih => exact congrArg (Prog.write purpose reg value) ih

omit [DecidableEq ρ] in
/-- A program behind two others. -/
theorem bind_bind {γ : Type} (p : Prog ρ ι ν α) (f : α → Prog ρ ι ν β) (g : β → Prog ρ ι ν γ) :
    p >>= f >>= g = p >>= fun a => f a >>= g := by
  show (p.bind f).bind g = p.bind fun a => (f a).bind g
  induction p with
  | ret a => rfl
  | read reg next ih => exact congrArg (Prog.read reg) (funext ih)
  | write purpose reg value next ih => exact congrArg (Prog.write purpose reg value) ih

def readl (reg : ρ) : Prog ρ ι ν ν := .read reg .ret

def writel (purpose : ι) (reg : ρ) (value : ν) : Prog ρ ι ν Unit := .write purpose reg value (.ret ())

/-- How often each register has been read, after one more read of `reg`. -/
def bump (seen : ρ → Nat) (reg : ρ) : ρ → Nat := Function.update seen reg (seen reg + 1)

/-- The value that a register was last read as. -/
def last (reads : ρ → Nat → ν) (seen : ρ → Nat) (reg : ρ) : Option ν :=
  match seen reg with
  | 0 => none
  | n + 1 => some (reads reg n)

/-- The result of a program, how often each register has then been read, and the writes. -/
def run (reads : ρ → Nat → ν) : Prog ρ ι ν α → (ρ → Nat) → α × (ρ → Nat) × List (Write ρ ι ν)
  | .ret a, seen => (a, seen, [])
  | .read reg next, seen => run reads (next (reads reg (seen reg))) (bump seen reg)
  | .write purpose reg value next, seen =>
    let r := run reads next seen
    (r.1, r.2.1, ⟨purpose, reg, last reads seen reg, value⟩ :: r.2.2)

/-- The writes of a program that is the first to read the registers. -/
def writes (reads : ρ → Nat → ν) (p : Prog ρ ι ν α) : List (Write ρ ι ν) := (p.run reads fun _ => 0).2.2

/-- All writes of the program satisfy `P`, and it ends with `Q`. -/
def wp (reads : ρ → Nat → ν) (P : Write ρ ι ν → Prop) : Prog ρ ι ν α → (ρ → Nat) → (α → (ρ → Nat) → Prop) → Prop
  | .ret a, seen, Q => Q a seen
  | .read reg next, seen, Q => wp reads P (next (reads reg (seen reg))) (bump seen reg) Q
  | .write purpose reg value next, seen, Q => P ⟨purpose, reg, last reads seen reg, value⟩ ∧ wp reads P next seen Q

variable {reads : ρ → Nat → ν} {P : Write ρ ι ν → Prop} {seen : ρ → Nat}

@[simp] theorem bump_self (reg : ρ) : bump seen reg reg = seen reg + 1 := by simp [bump]

@[simp] theorem bump_other {reg other : ρ} (ne : other ≠ reg) : bump seen reg other = seen other := by simp [bump, ne]

@[simp] theorem last_bump (reg : ρ) : last reads (bump seen reg) reg = some (reads reg (seen reg)) := by simp [last]

theorem wp_iff (p : Prog ρ ι ν α) (seen : ρ → Nat) (Q : α → (ρ → Nat) → Prop) :
    wp reads P p seen Q ↔ (∀ w ∈ (p.run reads seen).2.2, P w) ∧ Q (p.run reads seen).1 (p.run reads seen).2.1 := by
  induction p generalizing seen with
  | ret a => simp [wp, run]
  | read reg next ih => exact ih (reads reg (seen reg)) (bump seen reg)
  | write purpose reg value next ih =>
    rw [wp, run, ih]
    simp [and_assoc]

/-- What all writes satisfy. -/
theorem writes_iff (p : Prog ρ ι ν α) : (∀ w ∈ p.writes reads, P w) ↔ wp reads P p (fun _ => 0) fun _ _ => True := by
  rw [wp_iff, and_true, writes]

@[simp] theorem wp_pure (a : α) (Q : α → (ρ → Nat) → Prop) :
    wp reads P (pure a : Prog ρ ι ν α) seen Q ↔ Q a seen := Iff.rfl

@[simp] theorem wp_readl (reg : ρ) (Q : ν → (ρ → Nat) → Prop) :
    wp reads P (readl reg) seen Q ↔ Q (reads reg (seen reg)) (bump seen reg) := Iff.rfl

@[simp] theorem wp_writel (purpose : ι) (reg : ρ) (value : ν) (Q : Unit → (ρ → Nat) → Prop) :
    wp reads P (writel purpose reg value) seen Q ↔ P ⟨purpose, reg, last reads seen reg, value⟩ ∧ Q () seen := Iff.rfl

@[simp] theorem wp_bind (p : Prog ρ ι ν α) (k : α → Prog ρ ι ν β) (Q : β → (ρ → Nat) → Prop) :
    wp reads P (p >>= k) seen Q ↔ wp reads P p seen fun a seen => wp reads P (k a) seen Q := by
  show wp reads P (p.bind k) seen Q ↔ _
  induction p generalizing seen with
  | ret a => rfl
  | read reg next ih => exact ih (reads reg (seen reg))
  | write purpose reg value next ih => exact and_congr_right fun _ => ih

@[simp] theorem wp_ite (c : Prop) [Decidable c] (p q : Prog ρ ι ν α) (Q : α → (ρ → Nat) → Prop) :
    wp reads P (if c then p else q) seen Q ↔ if c then wp reads P p seen Q else wp reads P q seen Q := by
  split_ifs <;> rfl

/-- Both branches satisfy what is asked for. -/
theorem wp_branch {c : Prop} [Decidable c] {p q : Prog ρ ι ν α} {Q : α → (ρ → Nat) → Prop} (yes : c → wp reads P p seen Q)
    (no : ¬c → wp reads P q seen Q) : wp reads P (if c then p else q) seen Q := by
  split_ifs with holds
  · exact yes holds
  · exact no holds

end Prog

/-! ### Writes that do what they are meant to -/

structure Layout (n : Nat) where
  kept : BitVec n
  effects : BitVec n

/-- The bits a write is meant to change, and those it is meant to trigger. -/
structure Effect (n : Nat) where
  change : BitVec n
  trigger : BitVec n

namespace Layout

variable {n : Nat} {l : Layout n} {e : Effect n} {raw value : BitVec n}

structure Clean (l : Layout n) (e : Effect n) (raw value : BitVec n) : Prop where
  keeps : value &&& (l.kept &&& ~~~e.change) = raw &&& (l.kept &&& ~~~e.change)
  triggers : value &&& (l.effects &&& ~~~e.trigger) = 0#n

/-- Clearing bits changes nothing among others. -/
theorem and_not_of_disjoint {bits mask : BitVec n} (disjoint : bits &&& mask = 0#n) : mask &&& ~~~bits = mask := by
  ext i inside
  have zero : (bits[i] && mask[i]) = false := by simpa using congrArg (·[i]) disjoint
  cases bit : bits[i] <;> simp_all

/-- The bits that hold what is written to them, read and written back. -/
theorem clean_kept (disjoint : l.kept &&& l.effects = 0#n) : l.Clean e raw (raw &&& l.kept) := by
  constructor
  · rw [BitVec.and_assoc, ← BitVec.and_assoc l.kept, BitVec.and_self]
  · rw [BitVec.and_assoc, ← BitVec.and_assoc l.kept, disjoint, BitVec.zero_and, BitVec.and_zero]

/-- Bits that the write is meant to change or to trigger are set. -/
theorem Clean.or (clean : l.Clean e raw value) {bits : BitVec n} (changed : bits &&& (l.kept &&& ~~~e.change) = 0#n)
    (triggered : bits &&& (l.effects &&& ~~~e.trigger) = 0#n) : l.Clean e raw (value ||| bits) := by
  constructor
  · rw [BitVec.and_or_distrib_right, changed, BitVec.or_zero, clean.keeps]
  · rw [BitVec.and_or_distrib_right, triggered, BitVec.or_zero, clean.triggers]

/-- Bits that the write is meant to change are cleared. -/
theorem Clean.andNot (clean : l.Clean e raw value) (bits : BitVec n) (changed : bits &&& (l.kept &&& ~~~e.change) = 0#n) :
    l.Clean e raw (value &&& ~~~bits) := by
  constructor
  · rw [BitVec.and_assoc, BitVec.and_comm (~~~bits), and_not_of_disjoint changed, clean.keeps]
  · rw [BitVec.and_assoc, BitVec.and_comm (~~~bits), ← BitVec.and_assoc, clean.triggers, BitVec.zero_and]

end Layout

end Ehub.Registers
