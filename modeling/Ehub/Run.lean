import Mathlib

/-!
Runs. A system takes one operation after the other; it begins in one of its first
states, and an operation is only taken in a state that allows it. What holds in the
first states and is kept by every allowed operation holds in every state reached
(`Reachable.invariant`), and a list of operations that are allowed one after the other
leads from one reachable state to another (`Reachable.all`).
-/
namespace Ehub.Run

section
variable {σ ω : Type*}

inductive Reachable (first : σ → Prop) (allowed : σ → ω → Prop) (step : σ → ω → σ) : σ → Prop
  | first {s : σ} (new : first s) : Reachable first allowed step s
  | step {s : σ} (op : ω) (before : Reachable first allowed step s) (ok : allowed s op) :
      Reachable first allowed step (step s op)

/-- The operations of a list are allowed, each in the state that those before it lead
    to. -/
def Allows (allowed : σ → ω → Prop) (step : σ → ω → σ) : σ → List ω → Prop
  | _, [] => True
  | s, op :: ops => allowed s op ∧ Allows allowed step (step s op) ops

variable {first : σ → Prop} {allowed : σ → ω → Prop} {step : σ → ω → σ}

instance decidableAllows [∀ s op, Decidable (allowed s op)] : (s : σ) → (ops : List ω) → Decidable (Allows allowed step s ops)
  | _, [] => .isTrue trivial
  | s, op :: ops =>
    have := decidableAllows (step s op) ops
    inferInstanceAs (Decidable (_ ∧ _))

theorem Reachable.invariant {P : σ → Prop} (begins : ∀ s, first s → P s)
    (keeps : ∀ s op, P s → allowed s op → P (step s op)) {s : σ} (reachable : Reachable first allowed step s) : P s := by
  induction reachable with
  | first new => exact begins _ new
  | step op _ ok ih => exact keeps _ op ih ok

theorem Reachable.all : ∀ {ops : List ω} {s : σ}, Reachable first allowed step s → Allows allowed step s ops →
    Reachable first allowed step (ops.foldl step s) := by
  intro ops
  induction ops with
  | nil => exact fun before _ => before
  | cons op ops ih => exact fun before allows => ih (.step op before allows.1) allows.2

end

end Ehub.Run
