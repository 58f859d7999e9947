import Mathlib

/-!
Places on a closed track. A function `next` leads from place to place, and a lap
lists the places it runs through, each once, before it is back at the first.
A lap may be read from any of its places (`IsLap.swap`), it may be extended by new
places behind one of them (`IsLap.insert`), and walking from one place to another
collects what lies between them (`walk_eq`).

Every place carries a mark and may flip the phase of a reader. A stretch is in phase
when a reader that starts with phase `c` meets its own phase on every mark
(`InPhase`); a reader that goes on while the marks agree with its phase stops right
behind the stretch (`consume_eq`). This is how two parties hand places to each other
around the track without any other communication.
-/
namespace Ehub.Lap

section
variable {α : Type*}

/-- `lap` lists the places that `next` runs through, each once, back to the first. -/
def IsLap (next : α → α) (lap : List α) : Prop :=
  lap.Nodup ∧ (lap : Cycle α).Chain (fun p q => next p = q)

instance [DecidableEq α] (next : α → α) : (lap : List α) → Decidable (IsLap next lap)
  | [] => isTrue ⟨List.nodup_nil, Cycle.Chain.nil _⟩
  | p :: rest =>
    decidable_of_iff ((p :: rest).Nodup ∧ List.IsChain (fun p q => next p = q) (p :: (rest ++ [p])))
      (by rw [IsLap, Cycle.chain_coe_cons])

variable {next next' : α → α} {a b : List α} {p q : α}

/-- A lap may be read from any of its places. -/
theorem IsLap.swap (lap : IsLap next (a ++ b)) : IsLap next (b ++ a) := by
  have turned : ((b ++ a : List α) : Cycle α) = ((a ++ b : List α) : Cycle α) :=
    Cycle.coe_eq_coe.mpr List.isRotated_append
  refine ⟨?_, ?_⟩
  · exact List.nodup_append_comm.mp lap.1
  · rw [turned]
    exact lap.2

theorem isLap_chain (lap : IsLap next (a ++ p :: b)) : List.IsChain (fun p q => next p = q) (p :: (b ++ a ++ [p])) := by
  have turned := lap.swap.2
  rw [List.cons_append, Cycle.chain_coe_cons] at turned
  exact turned

/-- The place behind `p` on a lap is the next one of the list, or the first one. -/
theorem IsLap.next_eq (lap : IsLap next (a ++ p :: b)) : (b ++ a ++ [p]).head? = some (next p) := by
  have chain := isLap_chain lap
  cases rest : b ++ a ++ [p] with
  | nil => simp at rest
  | cons q rest' =>
    rw [rest] at chain
    simp [(List.isChain_cons_cons.mp chain).1]

theorem IsLap.next_mem (lap : IsLap next (a ++ p :: b)) : next p ∈ a ++ p :: b := by
  have member := List.mem_of_mem_head? (Option.mem_def.mpr lap.next_eq)
  simp only [List.mem_append, List.mem_cons] at member ⊢
  tauto

/-- A lap up to one of its places. -/
theorem IsLap.chain_upTo (lap : IsLap next (a ++ p :: b)) : List.IsChain (fun p q => next p = q) (a ++ [p]) := by
  cases a with
  | nil => simp
  | cons x a =>
    have around := isLap_chain (show IsLap next ([] ++ x :: (a ++ p :: b)) from lap)
    have split : x :: (a ++ p :: b ++ [] ++ [x]) = (x :: a ++ [p]) ++ (b ++ [x]) := by simp
    rw [split] at around
    exact around.left_of_append

/-- Only the values of `next` on the lap matter. -/
theorem IsLap.congr {lap : List α} (isLap : IsLap next lap) (same : ∀ p ∈ lap, next' p = next p) :
    IsLap next' lap := by
  refine ⟨isLap.1, ?_⟩
  have chain := isLap.2
  cases lap with
  | nil => exact Cycle.Chain.nil _
  | cons p rest =>
    rw [Cycle.chain_coe_cons] at chain ⊢
    have around : ∀ q ∈ p :: (rest ++ [p]), next' q = next q := by
      intro q member
      apply same
      simp only [List.mem_cons, List.mem_append, List.not_mem_nil, or_false] at member ⊢
      tauto
    exact chain.imp_of_mem_imp fun q r inside _ step => (around q inside).trans step

/-- New places join a lap behind `p`: `p` leads to the first of them and the last
    of them to where `p` led before. -/
theorem IsLap.insert {m : List α} (lap : IsLap next (a ++ p :: b)) (distinct : (a ++ p :: (m ++ b)).Nodup)
    (outside : ∀ q ∈ a ++ b, next' q = next q)
    (inside : List.IsChain (fun p q => next' p = q) (p :: (m ++ [next p]))) :
    IsLap next' (a ++ p :: (m ++ b)) := by
  have around := isLap_chain lap
  have closed : List.IsChain (fun p q => next' p = q) (p :: (m ++ (b ++ a ++ [p]))) := by
    cases rest : b ++ a ++ [p] with
    | nil => simp at rest
    | cons q rest' =>
      have first : next p = q := by
        rw [rest] at around
        exact (List.isChain_cons_cons.mp around).1
      -- What follows the new places is a stretch of the old lap that `p` only ends.
      have last : q :: rest' = (b ++ a) ++ [p] := rest.symm
      have tail : List.IsChain (fun p q => next' p = q) (q :: rest') := by
        have old : List.IsChain (fun p q => next p = q) (b ++ a ++ [p]) := by
          rw [rest]
          rw [rest] at around
          exact (List.isChain_cons_cons.mp around).2
        rw [last]
        refine List.isChain_append.mpr ⟨?_, List.isChain_singleton p, ?_⟩
        · refine (List.isChain_append.mp old).1.imp_of_mem_imp fun r s member _ step => ?_
          exact (outside r (by simpa [or_comm] using member)).trans step
        · intro r member s member'
          have step := (List.isChain_append.mp old).2.2 r member s member'
          have inB : r ∈ b ++ a := List.mem_of_getLast? member
          exact (outside r (by simpa [or_comm] using inB)).trans step
      rw [first] at inside
      rw [← List.cons_append] at inside ⊢
      refine List.isChain_append.mpr ⟨(List.isChain_append.mp inside).1, tail, ?_⟩
      intro r member s member'
      have := (List.isChain_append.mp inside).2.2 r member
      simp only [List.head?_cons, Option.mem_def, Option.some.injEq] at this member'
      exact this s member'
  have turned : ((a ++ p :: (m ++ b) : List α) : Cycle α) = ((p :: (m ++ b ++ a) : List α) : Cycle α) := by
    rw [← List.cons_append]
    exact Cycle.coe_eq_coe.mpr List.isRotated_append
  refine ⟨distinct, ?_⟩
  rw [turned, Cycle.chain_coe_cons]
  simpa [List.append_assoc] using closed

/-- A row of places entered from `p` and left to `z`, where only its last place leads
    elsewhere than before. -/
theorem chain_opened {l : List α} {first last z : α} (distinct : l.Nodup) (first_eq : l.head? = some first)
    (last_eq : l.getLast? = some last) (chain : List.IsChain (fun p q => next p = q) l) (entered : next' p = first)
    (left : next' last = z) (same : ∀ q ∈ l, q ≠ last → next' q = next q) :
    List.IsChain (fun p q => next' p = q) (p :: (l ++ [z])) := by
  obtain ⟨front, is_front⟩ := List.getLast?_eq_some_iff.mp last_eq
  have before : ∀ q ∈ front, next' q = next q := by
    intro q member
    refine same q (by simp [is_front, member]) ?_
    rintro rfl
    rw [is_front, List.nodup_append] at distinct
    exact distinct.2.2 q member q (by simp) rfl
  have row : List.IsChain (fun p q => next' p = q) l := by
    rw [is_front] at chain ⊢
    refine List.isChain_append.mpr ⟨?_, List.isChain_singleton _, ?_⟩
    · refine (List.isChain_append.mp chain).1.imp_of_mem_imp fun a b inFront _ step => ?_
      exact (before a inFront).trans step
    · intro a member b member'
      exact (before a (List.mem_of_getLast? member)).trans ((List.isChain_append.mp chain).2.2 a member b member')
  have out : List.IsChain (fun p q => next' p = q) (l ++ [z]) := by
    refine List.isChain_append.mpr ⟨row, List.isChain_singleton _, ?_⟩
    intro a member b member'
    rw [last_eq] at member
    simp only [Option.mem_def, Option.some.injEq, List.head?_cons] at member member'
    rw [← member, ← member', left]
  obtain ⟨more, is_more⟩ := List.head?_eq_some_iff.mp first_eq
  rw [is_more] at out ⊢
  exact List.isChain_cons_cons.mpr ⟨entered, out⟩

/-- The places from `p` on, up to and without `stop`; at most `fuel` of them. -/
def walk [DecidableEq α] (next : α → α) (stop : α) : Nat → α → List α
  | 0, _ => []
  | fuel + 1, p => if p = stop then [] else p :: walk next stop fuel (next p)

/-- Walking from the first place of a lap collects what lies before `stop`. -/
theorem walk_eq [DecidableEq α] {stop : α} : ∀ {a b : List α} {p : α} {fuel : Nat}, IsLap next (a ++ stop :: b) →
    (a ++ stop :: b).head? = some p → a.length < fuel → walk next stop fuel p = a := by
  intro a b p fuel lap
  -- The stretch walked so far has moved behind `stop`.
  suffices turned : ∀ (a front : List α) (p : α) (fuel : Nat), IsLap next (front ++ (a ++ stop :: b)) →
      (a ++ stop :: b).head? = some p → a.length < fuel → walk next stop fuel p = a from turned a [] p fuel lap
  intro a
  induction a with
  | nil =>
    intro front p fuel _ first room
    obtain ⟨n, rfl⟩ : ∃ n, fuel = n + 1 := ⟨fuel - 1, by simp at room; omega⟩
    simp at first
    simp [walk, first]
  | cons x a ih =>
    intro front p fuel lap first room
    obtain ⟨n, rfl⟩ : ∃ n, fuel = n + 1 := ⟨fuel - 1, by simp at room; omega⟩
    simp at first
    subst first
    have different : x ≠ stop := by
      have distinct := lap.1
      simp only [List.cons_append, List.nodup_append, List.nodup_cons, List.mem_append, List.mem_cons] at distinct
      rintro rfl
      exact distinct.2.1.1 (by simp)
    have step : (a ++ stop :: b).head? = some (next x) := by
      have := lap.next_eq
      cases a <;> simpa using this
    have := ih (front ++ [x]) (next x) n (by simpa using lap) step (by simpa using room)
    simp [walk, different, this]

/-- Every place of a lap is reached from its first one. -/
theorem IsLap.iterate_eq : ∀ {a b front : List α} {p q : α}, IsLap next (front ++ (a ++ q :: b)) →
    (a ++ q :: b).head? = some p → next^[a.length] p = q := by
  intro a
  induction a with
  | nil =>
    intro b front p q _ first
    simpa using first.symm
  | cons x a ih =>
    intro b front p q lap first
    have is_x : x = p := by simpa using first
    have step : (a ++ q :: b).head? = some (next x) := by
      have := lap.next_eq
      cases a <;> simpa using this
    have turned : IsLap next ((front ++ [x]) ++ (a ++ q :: b)) := by simpa using lap
    rw [List.length_cons, Function.iterate_succ_apply, ← is_x]
    exact ih turned step

/-- The places of a lap, by their numbers in the list. -/
theorem IsLap.iterate_getElem {lap : List α} {p y : α} {k : Nat} (isLap : IsLap next lap) (first : lap.head? = some p)
    (here : lap[k]? = some y) : next^[k] p = y := by
  obtain ⟨inside, is_y⟩ := List.getElem?_eq_some_iff.mp here
  have split : lap.take k ++ y :: lap.drop (k + 1) = lap := by
    rw [← is_y, ← List.drop_eq_getElem_cons inside, List.take_append_drop]
  have turned : IsLap next ([] ++ (lap.take k ++ y :: lap.drop (k + 1))) := by rwa [List.nil_append, split]
  have reached := turned.iterate_eq (by rwa [split])
  rwa [List.length_take, Nat.min_eq_left inside.le] at reached

/-- A set that `next` does not leave holds the whole lap, if it holds one of its places. -/
theorem IsLap.subset_of_closed {lap : List α} (isLap : IsLap next lap) (held : Set α) (closed : ∀ x ∈ held, next x ∈ held)
    (member : p ∈ lap) (here : p ∈ held) (there : q ∈ lap) : q ∈ held := by
  have kept : ∀ n, next^[n] p ∈ held := by
    intro n
    induction n with
    | zero => exact here
    | succ n ih =>
      rw [Function.iterate_succ_apply']
      exact closed _ ih
  obtain ⟨a, b, rfl⟩ := List.append_of_mem member
  have turned := isLap.swap
  have inTurned : q ∈ p :: b ++ a := by
    rcases List.mem_append.mp there with inA | inB
    · exact List.mem_append_right _ inA
    · exact List.mem_append_left _ inB
  obtain ⟨k, inside, is_q⟩ := List.getElem_of_mem inTurned
  have reached := turned.iterate_getElem rfl (List.getElem?_eq_getElem inside)
  rw [is_q] at reached
  exact reached ▸ kept k

theorem IsLap.next_getElem {lap : List α} (isLap : IsLap next lap) {k : Nat} (inside : k + 1 < lap.length) :
    next lap[k] = lap[k + 1] := by
  have split : lap.take k ++ lap[k] :: lap.drop (k + 1) = lap := by
    rw [← List.drop_eq_getElem_cons, List.take_append_drop]
  have head := (show IsLap next (lap.take k ++ lap[k] :: lap.drop (k + 1)) by rwa [split]).next_eq
  rw [List.drop_eq_getElem_cons inside, List.cons_append, List.cons_append, List.head?_cons] at head
  exact (Option.some.inj head).symm

/-- The last place of a lap leads back to the first one. -/
theorem IsLap.next_last {lap : List α} {p : α} (isLap : IsLap next lap) (first : lap.head? = some p) {k : Nat}
    (inside : k < lap.length) (last : lap.length = k + 1) : next lap[k] = p := by
  have split : lap.take k ++ lap[k] :: lap.drop (k + 1) = lap := by
    rw [← List.drop_eq_getElem_cons, List.take_append_drop]
  have head := (show IsLap next (lap.take k ++ lap[k] :: lap.drop (k + 1)) by rwa [split]).next_eq
  have whole : lap.take k ++ [lap[k]] = lap := by
    rw [← List.take_succ_eq_append_getElem inside, ← last, List.take_length]
  rw [← last, List.drop_length, List.nil_append, whole, first] at head
  exact (Option.some.inj head).symm

end

section
variable {α : Type*} {mark flips : α → Bool}

/-- The phase of a reader that started with `c`, behind a stretch. -/
def phase (flips : α → Bool) (c : Bool) (l : List α) : Bool :=
  l.foldl (fun c p => c ^^ flips p) c

/-- A reader that starts with phase `c` meets its own phase on every mark. -/
def InPhase (mark flips : α → Bool) : Bool → List α → Prop
  | _, [] => True
  | c, p :: l => mark p = c ∧ InPhase mark flips (c ^^ flips p) l

instance decidableInPhase : (c : Bool) → (l : List α) → Decidable (InPhase mark flips c l)
  | _, [] => isTrue trivial
  | c, p :: l =>
    have := decidableInPhase (c ^^ flips p) l
    inferInstanceAs (Decidable (_ ∧ _))

@[simp] theorem phase_nil (c : Bool) : phase flips c [] = c := rfl

@[simp] theorem phase_cons (c : Bool) (p : α) (l : List α) : phase flips c (p :: l) = phase flips (c ^^ flips p) l := rfl

@[simp] theorem phase_append (c : Bool) (l m : List α) :
    phase flips c (l ++ m) = phase flips (phase flips c l) m := by
  simp [phase]

theorem phase_not (c : Bool) (l : List α) : phase flips (!c) l = !phase flips c l := by
  induction l generalizing c with
  | nil => rfl
  | cons p l ih => rw [phase_cons, phase_cons, ← ih]; simp

/-- Over a stretch with no flip the phase stays. -/
theorem phase_still (c : Bool) {l : List α} (still : ∀ p ∈ l, flips p = false) : phase flips c l = c := by
  induction l generalizing c with
  | nil => rfl
  | cons p l ih =>
    simp only [List.forall_mem_cons] at still
    rw [phase_cons, still.1, Bool.xor_false, ih c still.2]

/-- Over a stretch with one flip the phase changes. -/
theorem phase_once (c : Bool) {l : List α} {p : α} (distinct : l.Nodup) (member : p ∈ l)
    (once : ∀ q ∈ l, flips q = true ↔ q = p) : phase flips c l = !c := by
  obtain ⟨a, b, rfl⟩ := List.append_of_mem member
  have others : ∀ q ∈ a ++ b, flips q = false := by
    intro q inside
    have different : q ≠ p := by
      rintro rfl
      exact (List.nodup_cons.mp (List.nodup_middle.mp distinct)).1 inside
    have inLap : q ∈ a ++ p :: b := by
      simp only [List.mem_append, List.mem_cons] at inside ⊢
      exact inside.imp id .inr
    simpa [different] using mt (once q inLap).mp different
  rw [phase_append, phase_cons, phase_still c fun q inA => others q (List.mem_append_left _ inA),
    (once p member).mpr rfl, phase_still _ fun q inB => others q (List.mem_append_right _ inB)]
  simp

@[simp] theorem inPhase_nil (c : Bool) : InPhase mark flips c [] := trivial

@[simp] theorem inPhase_cons (c : Bool) (p : α) (l : List α) :
    InPhase mark flips c (p :: l) ↔ mark p = c ∧ InPhase mark flips (c ^^ flips p) l := Iff.rfl

@[simp] theorem inPhase_append (c : Bool) (l m : List α) :
    InPhase mark flips c (l ++ m) ↔ InPhase mark flips c l ∧ InPhase mark flips (phase flips c l) m := by
  induction l generalizing c with
  | nil => simp
  | cons p l ih => simp [ih, and_assoc]

/-- A stretch with one mark and no flip. -/
theorem inPhase_still {c : Bool} {l : List α} (marks : ∀ p ∈ l, mark p = c) (still : ∀ p ∈ l, flips p = false) :
    InPhase mark flips c l := by
  induction l with
  | nil => trivial
  | cons p l ih =>
    simp only [List.forall_mem_cons] at marks still
    refine ⟨marks.1, ?_⟩
    rw [still.1, Bool.xor_false]
    exact ih marks.2 still.2

/-- Only the marks and flips of the stretch matter. -/
theorem InPhase.congr {mark' flips' : α → Bool} {c : Bool} {l : List α} (inPhase : InPhase mark flips c l)
    (marks : ∀ p ∈ l, mark' p = mark p) (flip : ∀ p ∈ l, flips' p = flips p) : InPhase mark' flips' c l := by
  induction l generalizing c with
  | nil => trivial
  | cons p l ih =>
    simp only [List.forall_mem_cons] at marks flip
    refine ⟨marks.1.trans inPhase.1, ?_⟩
    rw [flip.1]
    exact ih inPhase.2 marks.2 flip.2

/-- Readers of opposite phases agree on no mark. -/
theorem InPhase.opposite {mark' : α → Bool} {c : Bool} {l : List α} (inPhase : InPhase mark flips c l)
    (other : InPhase mark' flips (!c) l) : ∀ p ∈ l, mark p = !mark' p := by
  induction l generalizing c with
  | nil => simp
  | cons p l ih =>
    intro q member
    rcases List.mem_cons.mp member with rfl | inside
    · rw [inPhase.1, other.1, Bool.not_not]
    · refine ih inPhase.2 ?_ q inside
      simpa using other.2

/-- A stretch whose marks are all flipped belongs to a reader of the opposite phase. -/
theorem InPhase.flip {mark' : α → Bool} {c : Bool} {l : List α} (inPhase : InPhase mark flips (!c) l)
    (flipped : ∀ p ∈ l, mark' p = !mark p) : InPhase mark' flips c l := by
  induction l generalizing c with
  | nil => trivial
  | cons p l ih =>
    simp only [List.forall_mem_cons] at flipped
    refine ⟨by rw [flipped.1, inPhase.1, Bool.not_not], ih ?_ flipped.2⟩
    simpa using inPhase.2

theorem phase_congr {flips' : α → Bool} (c : Bool) {l : List α} (flip : ∀ p ∈ l, flips' p = flips p) :
    phase flips' c l = phase flips c l := by
  induction l generalizing c with
  | nil => rfl
  | cons p l ih =>
    simp only [List.forall_mem_cons] at flip
    rw [phase_cons, phase_cons, flip.1, ih _ flip.2]

/-- The phase between two places, one further. -/
theorem phase_upTo (c : Bool) (l : List α) {i k : Nat} (inside : k < l.length) :
    phase flips c ((l.take (k + 1)).drop i) = (phase flips c ((l.take k).drop i) ^^ (decide (i ≤ k) && flips l[k])) := by
  rw [List.take_succ_eq_append_getElem inside]
  by_cases before : i ≤ k
  · rw [List.drop_append_of_le_length (by rw [List.length_take]; omega), phase_append]
    simp [before]
  · have none : ∀ m : List α, m.length ≤ i → m.drop i = [] := fun m => List.drop_eq_nil_of_le
    rw [none _ (by simp; omega), none _ (by simp; omega)]
    simp [before]

/-- A reader at `p` with phase `c` takes places while their mark is its phase. It
    returns the places taken and where it stopped, or nothing when `fuel` runs out. -/
def consume (next : α → α) (mark flips : α → Bool) : Nat → α → Bool → Option (List α × α)
  | 0, _, _ => none
  | fuel + 1, p, c =>
    if mark p = c then
      (consume next mark flips fuel (next p) (c ^^ flips p)).map fun taken => (p :: taken.1, taken.2)
    else some ([], p)

/-- A reader takes exactly the stretch in phase with it and stops behind it. -/
theorem consume_chain {next : α → α} {stop : α} : ∀ {a : List α} {p : α} {c : Bool} {fuel : Nat},
    List.IsChain (fun p q => next p = q) (a ++ [stop]) → (a ++ [stop]).head? = some p → InPhase mark flips c a →
    mark stop = !phase flips c a → a.length < fuel → consume next mark flips fuel p c = some (a, stop) := by
  intro a
  induction a with
  | nil =>
    intro p c fuel _ first _ ends room
    obtain ⟨n, rfl⟩ : ∃ n, fuel = n + 1 := ⟨fuel - 1, by simp at room; omega⟩
    simp at first ends
    subst first
    simp [consume, ends]
  | cons x a ih =>
    intro p c fuel chain first inPhase ends room
    obtain ⟨n, rfl⟩ : ∃ n, fuel = n + 1 := ⟨fuel - 1, by simp at room; omega⟩
    simp at first
    subst first
    have step : (a ++ [stop]).head? = some (next x) := by
      cases a <;> simpa using (List.isChain_cons_cons.mp chain).1.symm
    have rest := ih chain.tail step inPhase.2 ends (by simpa using room)
    simp [consume, inPhase.1, rest]

theorem consume_eq {next : α → α} {stop : α} {a b : List α} {p : α} {c : Bool} {fuel : Nat}
    (lap : IsLap next (a ++ stop :: b)) (first : (a ++ stop :: b).head? = some p) (inPhase : InPhase mark flips c a)
    (ends : mark stop = !phase flips c a) (room : a.length < fuel) :
    consume next mark flips fuel p c = some (a, stop) := by
  refine consume_chain (lap.chain_upTo) ?_ inPhase ends room
  rw [← first]
  cases a <;> rfl

end

end Ehub.Lap
