import Mathlib

/-!
Cutting a stretch of memory at the multiples of a size. A stretch begins at an address
and has a length; `cuts` lists the lengths of its parts when it is cut wherever it comes
to a multiple of `M`, and `windows` says how many there are. The parts lie one behind
the other (`bytes_parts`), none is empty, and none lies across a multiple of `M`
(`parts_inside`).

The addresses may be of any type in which one can go on by a number of places; what
matters of an address is where it lies between two multiples of `M`.
-/
namespace Ehub.Cuts

/-- The parts of `n` places from `a` on, cut at the multiples of `M`. -/
def cuts (M a n : Nat) : List Nat :=
  if _proper : 0 < n ∧ 0 < M then
    min (M - a % M) n :: cuts M (a + min (M - a % M) n) (n - min (M - a % M) n)
  else []
termination_by n
decreasing_by
  have := Nat.mod_lt a _proper.2
  omega

/-- How many multiples of `M`, taken as the beginnings of windows, the places reach. -/
def windows (M a n : Nat) : Nat := if n = 0 then 0 else (a % M + n - 1) / M + 1

section
variable {M a b n : Nat}

@[simp] theorem cuts_zero : cuts M a 0 = [] := by
  rw [cuts, dif_neg (by omega)]

theorem cuts_pos (size : 0 < M) (some_length : 0 < n) :
    cuts M a n = min (M - a % M) n :: cuts M (a + min (M - a % M) n) (n - min (M - a % M) n) := by
  rw [cuts, dif_pos ⟨some_length, size⟩]

/-- Where the stretch lies between two multiples is all that matters. -/
theorem cuts_mod (size : 0 < M) : ∀ {a b : Nat}, a % M = b % M → cuts M a n = cuts M b n := by
  induction n using Nat.strong_induction_on with
  | _ n ih =>
    intro a b same
    rcases Nat.eq_zero_or_pos n with rfl | some_length
    · simp
    · have := Nat.mod_lt b size
      rw [cuts_pos size some_length, cuts_pos size some_length, same,
        ih _ (by omega) (Nat.ModEq.add_right (min (M - b % M) n) (show a ≡ b [MOD M] from same))]

theorem sum_cuts (size : 0 < M) : ∀ a, (cuts M a n).sum = n := by
  induction n using Nat.strong_induction_on with
  | _ n ih =>
    intro a
    rcases Nat.eq_zero_or_pos n with rfl | some_length
    · simp
    · have := Nat.mod_lt a size
      rw [cuts_pos size some_length, List.sum_cons, ih _ (by omega)]
      omega

theorem pos_of_mem_cuts (size : 0 < M) : ∀ {a : Nat}, ∀ k ∈ cuts M a n, 0 < k := by
  induction n using Nat.strong_induction_on with
  | _ n ih =>
    intro a k member
    rcases Nat.eq_zero_or_pos n with rfl | some_length
    · simp at member
    · have := Nat.mod_lt a size
      rw [cuts_pos size some_length, List.mem_cons] at member
      rcases member with rfl | later
      · omega
      · exact ih _ (by omega) k later

theorem le_of_mem_cuts (size : 0 < M) : ∀ {a : Nat}, ∀ k ∈ cuts M a n, k ≤ M := by
  induction n using Nat.strong_induction_on with
  | _ n ih =>
    intro a k member
    rcases Nat.eq_zero_or_pos n with rfl | some_length
    · simp at member
    · have := Nat.mod_lt a size
      rw [cuts_pos size some_length, List.mem_cons] at member
      rcases member with rfl | later
      · omega
      · exact ih _ (by omega) k later

/-- A stretch that ends in the window where it begins is not cut. -/
theorem windows_one (size : 0 < M) (some_length : 0 < n) (short : a % M + n ≤ M) : windows M a n = 1 := by
  rw [windows, if_neg (by omega), Nat.div_eq_of_lt (by omega)]

/-- Behind the first part the stretch begins with a window. -/
theorem windows_next (size : 0 < M) (long : M < a % M + n) :
    windows M a n = windows M (a + (M - a % M)) (n - (M - a % M)) + 1 := by
  have offset := Nat.mod_lt a size
  have aligned : (a + (M - a % M)) % M = 0 := by
    have whole := Nat.mod_add_div a M
    rw [show a + (M - a % M) = M * (a / M) + M by omega, Nat.add_mod_right, Nat.mul_mod_right]
  rw [windows, windows, if_neg (by omega), if_neg (by omega), aligned,
    show a % M + n - 1 = (0 + (n - (M - a % M)) - 1) + M by omega, Nat.add_div_right _ size]

theorem length_cuts (size : 0 < M) : ∀ a, (cuts M a n).length = windows M a n := by
  induction n using Nat.strong_induction_on with
  | _ n ih =>
    intro a
    rcases Nat.eq_zero_or_pos n with rfl | some_length
    · simp [windows]
    · have offset := Nat.mod_lt a size
      rw [cuts_pos size some_length, List.length_cons, ih _ (by omega)]
      by_cases long : M < a % M + n
      · rw [show min (M - a % M) n = M - a % M by omega, ← windows_next size long]
      · rw [show min (M - a % M) n = n by omega, Nat.sub_self, windows_one size some_length (by omega)]
        simp [windows]

theorem windows_pos (some_length : 0 < n) : 0 < windows M a n := by
  rw [windows, if_neg (by omega)]
  exact Nat.succ_pos _

/-- The windows are counted from the first multiple at or behind `a`: what lies before it
    takes one, and so does each multiple that is reached. -/
theorem windows_rounds (size : 0 < M) (some_length : 0 < n) : windows M a n =
    (if (M - a % M) % M = 0 then 0 else 1) + (n - (M - a % M) % M + (M - 1)) / M := by
  have offset := Nat.mod_lt a size
  rw [windows, if_neg (by omega)]
  by_cases aligned : a % M = 0
  · rw [aligned, Nat.sub_zero, Nat.mod_self, if_pos rfl, Nat.sub_zero, Nat.zero_add, Nat.zero_add,
      show n + (M - 1) = n - 1 + M by omega, Nat.add_div_right _ size]
  · rw [Nat.mod_eq_of_lt (show M - a % M < M by omega), if_neg (by omega), Nat.add_comm 1]
    congr 1
    by_cases long : M < a % M + n
    · rw [show a % M + n - 1 = n - (M - a % M) + (M - 1) by omega]
    · rw [Nat.div_eq_of_lt (by omega), show n - (M - a % M) = 0 by omega, Nat.div_eq_of_lt (by omega)]

end

/-! ### Where one part ends and the next begins -/

/-- A part ends `b` places from the beginning, and it is not the last one. -/
def Inner (ks : List Nat) (b : Nat) : Prop :=
  ∃ front back, ks = front ++ back ∧ front ≠ [] ∧ back ≠ [] ∧ front.sum = b

section
variable {k b : Nat} {ks ls : List Nat}

theorem not_inner_nil : ¬Inner [] b := by
  rintro ⟨front, back, split, some_front, _⟩
  exact some_front (List.append_eq_nil_iff.mp split.symm).1

theorem inner_cons : Inner (k :: ks) b ↔ ks ≠ [] ∧ (b = k ∨ ∃ b', Inner ks b' ∧ b = k + b') := by
  constructor
  · rintro ⟨front, back, split, some_front, some_back, rfl⟩
    cases front with
    | nil => exact absurd rfl some_front
    | cons k' front =>
      obtain ⟨rfl, rfl⟩ := List.cons.inj split
      refine ⟨by simp [some_back], ?_⟩
      cases front with
      | nil => exact .inl (by simp)
      | cons l front => exact .inr ⟨_, ⟨l :: front, back, rfl, by simp, some_back, rfl⟩, by simp⟩
  · rintro ⟨more, rfl | ⟨b', ⟨front, back, rfl, some_front, some_back, rfl⟩, rfl⟩⟩
    · exact ⟨[b], ks, rfl, by simp, more, by simp⟩
    · exact ⟨k :: front, back, rfl, by simp, some_back, by simp⟩

/-- Where two rows of parts are joined, a part of the first one ends. -/
theorem inner_append (some_part : ks ≠ []) :
    Inner (ks ++ ls) b ↔ Inner ks b ∨ (ls ≠ [] ∧ (b = ks.sum ∨ ∃ b', Inner ls b' ∧ b = ks.sum + b')) := by
  induction ks generalizing b with
  | nil => exact absurd rfl some_part
  | cons k ks ih =>
    rw [List.cons_append, inner_cons, inner_cons, List.sum_cons]
    rcases eq_or_ne ks [] with rfl | more
    · simp
    · have joined : ks ++ ls ≠ [] := by simp [more]
      simp only [ih more, joined, more, ne_eq, not_false_eq_true, true_and]
      constructor
      · rintro (rfl | ⟨b', inFirst | ⟨some_ls, rfl | ⟨b'', inSecond, rfl⟩⟩, rfl⟩)
        · exact .inl (.inl rfl)
        · exact .inl (.inr ⟨b', inFirst, rfl⟩)
        · exact .inr ⟨some_ls, .inl rfl⟩
        · exact .inr ⟨some_ls, .inr ⟨b'', inSecond, by omega⟩⟩
      · rintro ((rfl | ⟨b', inFirst, rfl⟩) | ⟨some_ls, rfl | ⟨b', inSecond, rfl⟩⟩)
        · exact .inl rfl
        · exact .inr ⟨b', .inl inFirst, rfl⟩
        · exact .inr ⟨ks.sum, .inr ⟨some_ls, .inl rfl⟩, rfl⟩
        · exact .inr ⟨ks.sum + b', .inr ⟨some_ls, .inr ⟨b', inSecond, rfl⟩⟩, by omega⟩

theorem Inner.first_le (inner : Inner (k :: ks) b) : k ≤ b := by
  rcases (inner_cons.mp inner).2 with rfl | ⟨b', _, rfl⟩
  · exact le_rfl
  · exact Nat.le_add_right _ _

theorem Inner.le_sum (inner : Inner ks b) : b ≤ ks.sum := by
  obtain ⟨front, back, rfl, _, _, rfl⟩ := inner
  rw [List.sum_append]
  exact Nat.le_add_right _ _

end

theorem cuts_ne_nil {M a n : Nat} (size : 0 < M) (some_length : 0 < n) : cuts M a n ≠ [] := by
  rw [cuts_pos size some_length]
  simp

/-- The parts meet at the multiples of `M`. -/
theorem inner_cuts {M n : Nat} (size : 0 < M) : ∀ {a b : Nat}, Inner (cuts M a n) b ↔ 0 < b ∧ b < n ∧ (a + b) % M = 0 := by
  induction n using Nat.strong_induction_on with
  | _ n ih =>
    intro a b
    rcases Nat.eq_zero_or_pos n with rfl | some_length
    · simp [not_inner_nil]
    · have offset := Nat.mod_lt a size
      have whole := Nat.mod_add_div a M
      rw [cuts_pos size some_length, inner_cons]
      by_cases long : M - a % M < n
      · have behind : (a + (M - a % M)) % M = 0 := by
          rw [show a + (M - a % M) = M * (a / M) + M by omega, Nat.add_mod_right, Nat.mul_mod_right]
        rw [show min (M - a % M) n = M - a % M by omega]
        refine ⟨?_, ?_⟩
        · rintro ⟨_, rfl | ⟨b', inner, rfl⟩⟩
          · exact ⟨by omega, long, behind⟩
          · obtain ⟨positive, within, aligned⟩ := (ih _ (by omega)).mp inner
            exact ⟨by omega, by omega, by rw [← Nat.add_assoc]; exact aligned⟩
        · rintro ⟨positive, within, aligned⟩
          refine ⟨cuts_ne_nil size (by omega), ?_⟩
          -- Nothing is aligned before the first multiple.
          have beyond : M - a % M ≤ b := by
            by_contra before
            have small : (a % M + b) % M = a % M + b := Nat.mod_eq_of_lt (by omega)
            rw [Nat.add_mod, Nat.mod_eq_of_lt (show b < M by omega), small] at aligned
            omega
          rcases Nat.eq_or_lt_of_le beyond with here | later
          · exact .inl here.symm
          · refine .inr ⟨b - (M - a % M), (ih _ (by omega)).mpr ⟨by omega, by omega, ?_⟩, by omega⟩
            rw [Nat.add_assoc, Nat.add_sub_cancel' beyond]
            exact aligned
      · rw [show min (M - a % M) n = n by omega, Nat.sub_self, cuts_zero]
        refine ⟨fun both => absurd rfl both.1, ?_⟩
        rintro ⟨positive, within, aligned⟩
        have small : (a % M + b) % M = a % M + b := Nat.mod_eq_of_lt (by omega)
        rw [Nat.add_mod, Nat.mod_eq_of_lt (show b < M by omega), small] at aligned
        omega

/-! ### The parts in place -/

section
variable {A : Type*} [AddMonoidWithOne A]

/-- The places of a stretch, in order. -/
def bytes (a : A) (n : Nat) : List A := (List.range n).map fun i : Nat => a + (i : A)

/-- Parts of the given lengths, one behind the other from `a` on. -/
def placed : A → List Nat → List (A × Nat)
  | _, [] => []
  | a, n :: ns => (a, n) :: placed (a + (n : A)) ns

theorem bytes_add (a : A) (n m : Nat) : bytes a (n + m) = bytes a n ++ bytes (a + (n : A)) m := by
  rw [bytes, List.range_add, List.map_append, bytes, bytes, List.map_map]
  congr 1
  refine List.map_congr_left fun i _ => ?_
  rw [Function.comp_apply, Nat.cast_add, add_assoc]

@[simp] theorem length_bytes (a : A) (n : Nat) : (bytes a n).length = n := by simp [bytes]

@[simp] theorem length_placed : ∀ (ns : List Nat) (a : A), (placed a ns).length = ns.length := by
  intro ns
  induction ns with
  | nil => exact fun _ => rfl
  | cons n ns ih => exact fun a => by rw [placed, List.length_cons, ih, List.length_cons]

theorem snd_placed : ∀ (ns : List Nat) (a : A), (placed a ns).map Prod.snd = ns := by
  intro ns
  induction ns with
  | nil => exact fun _ => rfl
  | cons n ns ih => exact fun a => by rw [placed, List.map_cons, ih]

theorem bytes_placed : ∀ (ns : List Nat) (a : A), ((placed a ns).flatMap fun p => bytes p.1 p.2) = bytes a ns.sum := by
  intro ns
  induction ns with
  | nil => exact fun _ => rfl
  | cons n ns ih => exact fun a => by rw [placed, List.flatMap_cons, ih, List.sum_cons, bytes_add]

/-- A stretch of `n` places at `a`, cut at the multiples of `M`. -/
def parts (off : A → Nat) (M : Nat) (a : A) (n : Nat) : List (A × Nat) := placed a (cuts M (off a) n)

variable {off : A → Nat} {M : Nat}

theorem bytes_parts (size : 0 < M) (a : A) (n : Nat) :
    ((parts off M a n).flatMap fun p => bytes p.1 p.2) = bytes a n := by
  rw [parts, bytes_placed, sum_cuts size]

theorem length_parts (size : 0 < M) (a : A) (n : Nat) : (parts off M a n).length = windows M (off a) n := by
  rw [parts, length_placed, length_cuts size]

@[simp] theorem parts_zero (a : A) : parts off M a 0 = [] := by rw [parts, cuts_zero, placed]

/-- The first part, and the parts of what is left. -/
theorem parts_pos (size : 0 < M) (goesOn : ∀ (a : A) (n : Nat), off (a + (n : A)) % M = (off a + n) % M) {a : A} {n : Nat}
    (some_length : 0 < n) : parts off M a n = (a, min (M - off a % M) n) ::
      parts off M (a + (min (M - off a % M) n : Nat)) (n - min (M - off a % M) n) := by
  rw [parts, cuts_pos size some_length, placed, parts, cuts_mod size (goesOn a _).symm]

theorem parts_inside (size : 0 < M) (goesOn : ∀ (a : A) (n : Nat), off (a + (n : A)) % M = (off a + n) % M) {n : Nat} :
    ∀ {a : A}, ∀ p ∈ parts off M a n, 0 < p.2 ∧ off p.1 % M + p.2 ≤ M := by
  induction n using Nat.strong_induction_on with
  | _ n ih =>
    intro a p member
    rcases Nat.eq_zero_or_pos n with rfl | some_length
    · simp at member
    · have offset := Nat.mod_lt (off a) size
      rw [parts_pos size goesOn some_length, List.mem_cons] at member
      rcases member with rfl | later
      · show 0 < min (M - off a % M) n ∧ off a % M + min (M - off a % M) n ≤ M
        omega
      · exact ih _ (by omega) p later

end

end Ehub.Cuts
