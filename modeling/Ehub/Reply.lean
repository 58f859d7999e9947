import Mathlib
import Ehub.Run
import Ehub.Message

/-!
Replies to the device's memory reads
(`MESSAGE_HandleMessage_EMBEDDED_MEMORY_READ_COMPLETION`). The device asks for bytes of
host memory; the handler copies the header of the request and the bytes into the buffer
of a reply URB and submits it. There are eight reply URBs, used in turn. The handler
does not ask whether the URB whose turn it is has come back, nor whether the bytes fit
into its buffer.

Handlers of any number of requests run at once, one step at a time, between the
completions of the reply URBs.
-/
namespace Ehub.Reply
open Ehub.Message

/-- `NUMBER_OF_MESSAGE_BULK`. -/
abbrev numberOfMessageBulk : Nat := 8
/-- `MESSAGE_DATA_BUFFER_SIZE_BULK`. -/
def messageDataBufferSizeBulk : Nat := 8 * 0x400

/-- A reply URB: its buffer (and what lies behind it), the number of bytes it sends, how
    often it was submitted, and the request whose reply it carries while it is in flight. -/
structure Urb where
  dataBuffer : Memory
  transferBufferLength : Nat
  submissions : Nat
  inFlight : Option Nat

/-- Where the handler of a request is, with the URB it has. -/
inductive Phase where
  | new
  | picked (urb : Fin numberOfMessageBulk)
  | sized (urb : Fin numberOfMessageBulk)
  | headed (urb : Fin numberOfMessageBulk)
  | filled (urb : Fin numberOfMessageBulk)
  | done
deriving DecidableEq

/-- The URB the handler works on. -/
def Phase.urb : Phase → Option (Fin numberOfMessageBulk)
  | .picked i | .sized i | .headed i | .filled i => some i
  | .new | .done => none

/-- Requests are numbered; `header` and `data` are what a request asked for and the bytes
    that were read for it. -/
structure State where
  currentIndex : Fin numberOfMessageBulk
  urbs : Fin numberOfMessageBulk → Urb
  phase : Nat → Phase
  header : Nat → Option Dword
  data : Nat → List Byte

/-- After `MODULE_UsbInterfaceConnect`; the buffers hold anything. -/
def State.initial (buffers : Fin numberOfMessageBulk → Memory) : State :=
  ⟨0, fun i => ⟨buffers i, messageDataBufferSizeBulk, 0, none⟩, fun _ => .new, fun _ => none, fun _ => []⟩

/-- Bytes copied to an offset. -/
def copy (mem : Memory) (base : Nat) (bytes : List Byte) : Memory :=
  fun i => if base ≤ i ∧ i < base + bytes.length then bytes.getD (i - base) 0 else mem i

namespace State

def goto (s : State) (k : Nat) (phase : Phase) : State := { s with phase := Function.update s.phase k phase }

def setUrb (s : State) (i : Fin numberOfMessageBulk) (urb : Urb) : State := { s with urbs := Function.update s.urbs i urb }

/-- The handler begins: it checks the error flags and takes the URB whose turn it is. The
    mutex around the index makes this one step. -/
def pick (s : State) (k : Nat) (header : Dword) (error present : Bool) : State :=
  match s.phase k with
  | .new =>
    if error then s.goto k .done
    -- Addition wraps around at `NUMBER_OF_MESSAGE_BULK`.
    else if present then
      { s.goto k (.picked s.currentIndex) with
        currentIndex := s.currentIndex + 1
        header := Function.update s.header k (some header) }
    else { s.goto k .done with currentIndex := s.currentIndex + 1 }
  | _ => s

/-- The next step of a handler. `bytes` is what `probe_kernel_read` copies; `ok` is the
    outcome of that call, or of `usb_submit_urb`. -/
def run (s : State) (k : Nat) (bytes : List Byte) (ok : Bool) : State :=
  match s.phase k, s.header k with
  | .picked i, some header =>
    (s.goto k (.sized i)).setUrb i { s.urbs i with transferBufferLength := sizeofMemoryCommand + length header }
  | .sized i, some header =>
    (s.goto k (.headed i)).setUrb i { s.urbs i with dataBuffer := copy (s.urbs i).dataBuffer 0 (wordBytes header) }
  | .headed i, some _ =>
    { (s.goto k (if ok then .filled i else .done)).setUrb i
        { s.urbs i with dataBuffer := copy (s.urbs i).dataBuffer sizeofMemoryCommand bytes } with
      data := Function.update s.data k bytes }
  | .filled i, some _ =>
    (s.goto k .done).setUrb i
      { s.urbs i with
        submissions := (s.urbs i).submissions + 1
        inFlight := if ok then some k else (s.urbs i).inFlight }
  | _, _ => s

def complete (s : State) (i : Fin numberOfMessageBulk) : State := s.setUrb i { s.urbs i with inFlight := none }

end State

inductive Op where
  | pick (k : Nat) (header : Dword) (error present : Bool)
  | run (k : Nat) (bytes : List Byte) (ok : Bool)
  | complete (i : Fin numberOfMessageBulk)

def State.step (s : State) : Op → State
  | .pick k header error present => s.pick k header error present
  | .run k bytes ok => s.run k bytes ok
  | .complete i => s.complete i

/-- `probe_kernel_read` copies all bytes or fails after some of them. -/
def Copied (bytes : List Byte) (ok : Bool) : Phase → Option Dword → Prop
  | .headed _, some header => bytes.length ≤ length header ∧ (ok = true → bytes.length = length header)
  | _, _ => True

instance (bytes : List Byte) (ok : Bool) : (phase : Phase) → (header : Option Dword) → Decidable (Copied bytes ok phase header)
  | .headed _, some _ => inferInstanceAs (Decidable (_ ∧ _))
  | .headed _, none => .isTrue trivial
  | .new, _ | .picked _, _ | .sized _, _ | .filled _, _ | .done, _ => .isTrue trivial

def Op.Allowed (s : State) : Op → Prop
  | .run k bytes ok => Copied bytes ok (s.phase k) (s.header k)
  | _ => True

instance (s : State) : (op : Op) → Decidable (op.Allowed s)
  | .run k bytes ok => inferInstanceAs (Decidable (Copied bytes ok (s.phase k) (s.header k)))
  | .pick .. | .complete _ => .isTrue trivial

/-- Whenever a handler takes a URB, that URB is not in flight and no other handler works on
    it, and the reply fits into its buffer. -/
def Roomy (s : State) : Op → Prop
  | .pick k header false true => s.phase k = .new →
    (s.urbs s.currentIndex).inFlight = none ∧ (∀ j, (s.phase j).urb ≠ some s.currentIndex) ∧
      sizeofMemoryCommand + length header ≤ messageDataBufferSizeBulk
  | _ => True

def Reachable (condition : State → Op → Prop) (s : State) : Prop :=
  Run.Reachable (fun s => ∃ buffers, s = State.initial buffers) (fun s op => op.Allowed s ∧ condition s op) State.step s

/-- The URB sends the header of the request and the bytes that were read for it. -/
def Carries (s : State) (urb : Urb) (k : Nat) : Prop :=
  ∃ header, s.header k = some header ∧ (s.data k).length = length header ∧
    urb.transferBufferLength = sizeofMemoryCommand + length header ∧ Holds urb.dataBuffer 0 (wordBytes header ++ s.data k)

/-- Every URB in flight carries the reply to its request, every reply fits into the buffer,
    and an allowed step that is not its completion leaves a URB in flight alone. -/
structure Intact (condition : State → Op → Prop) (s : State) : Prop where
  carries : ∀ i k, (s.urbs i).inFlight = some k → Carries s (s.urbs i) k
  fits : ∀ k header, s.header k = some header → sizeofMemoryCommand + length header ≤ messageDataBufferSizeBulk
  alone : ∀ op, op.Allowed s ∧ condition s op → ∀ i, (s.urbs i).inFlight ≠ none → op ≠ .complete i → (s.step op).urbs i = s.urbs i

/-! ### One handler for each URB -/

theorem holds_copy (mem : Memory) (base : Nat) (bytes : List Byte) : Holds (copy mem base bytes) base bytes := by
  intro i inside
  have here : base ≤ base + i ∧ base + i < base + bytes.length := ⟨by omega, by omega⟩
  rw [copy, if_pos here, Nat.add_sub_cancel_left, List.getD_eq_getElem _ _ inside]

/-- Bytes copied behind what a buffer holds. -/
theorem Holds.copy_behind {mem : Memory} {left right : List Byte} (holds : Holds mem 0 left) :
    Holds (copy mem left.length right) 0 (left ++ right) := by
  intro i inside
  rw [Nat.zero_add]
  rw [List.length_append] at inside
  by_cases old : i < left.length
  · have before : ¬(left.length ≤ i ∧ i < left.length + right.length) := by omega
    rw [copy, if_neg before, List.getElem_append_left old, ← holds i old, Nat.zero_add]
  · have here : left.length ≤ i ∧ i < left.length + right.length := by omega
    rw [copy, if_pos here, List.getElem_append_right (by omega), List.getD_eq_getElem _ _ (by omega)]

/-- What a handler has done to its URB so far. -/
def Phase.Ok (urb : Urb) (header : Dword) (data : List Byte) : Phase → Prop
  | .sized _ => urb.transferBufferLength = sizeofMemoryCommand + length header
  | .headed _ => urb.transferBufferLength = sizeofMemoryCommand + length header ∧ Holds urb.dataBuffer 0 (wordBytes header)
  | .filled _ => data.length = length header ∧ urb.transferBufferLength = sizeofMemoryCommand + length header ∧
      Holds urb.dataBuffer 0 (wordBytes header ++ data)
  | _ => True

structure Inv (s : State) : Prop where
  fits : ∀ k header, s.header k = some header → sizeofMemoryCommand + length header ≤ messageDataBufferSizeBulk
  unread : ∀ k, s.phase k = .new → s.header k = none
  one : ∀ j k i, (s.phase j).urb = some i → (s.phase k).urb = some i → j = k
  free : ∀ k i, (s.phase k).urb = some i → (s.urbs i).inFlight = none
  working : ∀ k i, (s.phase k).urb = some i → ∃ header, s.header k = some header ∧ (s.phase k).Ok (s.urbs i) header (s.data k)
  carries : ∀ i k, (s.urbs i).inFlight = some k → s.phase k = .done ∧ Carries s (s.urbs i) k

theorem inv_initial (buffers : Fin numberOfMessageBulk → Memory) : Inv (State.initial buffers) := by
  constructor <;> simp [State.initial, Phase.urb]

section
variable {s : State} {k : Nat} {i : Fin numberOfMessageBulk}

/-- A handler does something to its URB. -/
theorem Inv.handle (inv : Inv s) (has : (s.phase k).urb = some i) {phase : Phase} {urb : Urb} {data : Nat → List Byte}
    (same : phase.urb = some i ∧ urb.inFlight = none ∨ phase = .done)
    (others : ∀ j, j ≠ k → data j = s.data j)
    (ok : ∀ header, s.header k = some header → (s.phase k).Ok (s.urbs i) header (s.data k) → phase.Ok urb header (data k))
    (sends : ∀ j, urb.inFlight = some j → j = k ∧ phase = .done ∧
      Carries { (s.goto k phase).setUrb i urb with data := data } urb k) :
    Inv { (s.goto k phase).setUrb i urb with data := data } := by
  have was : ∀ j i', (Function.update s.phase k phase j).urb = some i' → (s.phase j).urb = some i' := by
    intro j i' has'
    by_cases here : j = k
    · subst here
      rw [Function.update_self] at has'
      rcases same with ⟨keeps, _⟩ | rfl
      · rwa [has, ← keeps]
      · simp [Phase.urb] at has'
    · rwa [Function.update_of_ne here] at has'
  -- A URB of another handler is another URB.
  have apart : ∀ j i', j ≠ k → (Function.update s.phase k phase j).urb = some i' → i' ≠ i := by
    rintro j i' other has' rfl
    exact other (inv.one j k i' (was j i' has') has)
  constructor
  · exact inv.fits
  · intro j new
    by_cases here : j = k
    · subst here
      simp only [State.goto, State.setUrb, Function.update_self] at new
      rcases same with ⟨keeps, _⟩ | rfl
      · simp [new, Phase.urb] at keeps
      · simp at new
    · simp only [State.goto, State.setUrb, Function.update_of_ne here] at new
      exact inv.unread j new
  · intro j j' i' has1 has2
    exact inv.one j j' i' (was j i' has1) (was j' i' has2)
  · intro j i' has'
    simp only [State.goto, State.setUrb] at has' ⊢
    by_cases here : j = k
    · subst here
      have is_i : i' = i := Option.some.inj ((was j i' has').symm.trans has)
      subst is_i
      rw [Function.update_self] at has' ⊢
      rcases same with ⟨_, idle⟩ | rfl
      · exact idle
      · simp [Phase.urb] at has'
    · rw [Function.update_of_ne (apart j i' here has')]
      exact inv.free j i' (was j i' has')
  · intro j i' has'
    obtain ⟨header, is_header, before⟩ := inv.working j i' (was j i' has')
    refine ⟨header, is_header, ?_⟩
    simp only [State.goto, State.setUrb] at has' ⊢
    by_cases here : j = k
    · subst here
      have is_i : i' = i := Option.some.inj ((was j i' has').symm.trans has)
      subst is_i
      rw [Function.update_self, Function.update_self]
      exact ok header is_header before
    · rw [Function.update_of_ne (apart j i' here has'), Function.update_of_ne here, others j here]
      exact before
  · intro i' j flies
    simp only [State.setUrb] at flies ⊢
    by_cases here : i' = i
    · subst here
      rw [Function.update_self] at flies ⊢
      obtain ⟨rfl, done, carries⟩ := sends j flies
      exact ⟨by simp [State.goto, done], carries⟩
    · rw [Function.update_of_ne here] at flies ⊢
      obtain ⟨done, header, reply⟩ := inv.carries i' j flies
      have other : j ≠ k := by
        rintro rfl
        simp [done, Phase.urb] at has
      refine ⟨by simp [State.goto, other, done], header, ?_⟩
      rw [← others j other] at reply
      exact reply

theorem Inv.run (inv : Inv s) {bytes : List Byte} {ok : Bool} (allowed : (Op.run k bytes ok).Allowed s) :
    Inv (s.run k bytes ok) := by
  have kept : ∀ j, j ≠ k → Function.update s.data k bytes j = s.data j := fun j other => Function.update_of_ne other ..
  unfold State.run
  split
  · rename_i i header at_k is_header
    have has : (s.phase k).urb = some i := by rw [at_k]; rfl
    have idle := inv.free k i has
    refine inv.handle has (.inl ⟨rfl, idle⟩) (fun _ _ => rfl) ?_ (by simp [idle])
    intro header' is_header' _
    rw [is_header, Option.some.injEq] at is_header'
    rw [is_header']
    rfl
  · rename_i i header at_k is_header
    have has : (s.phase k).urb = some i := by rw [at_k]; rfl
    have idle := inv.free k i has
    refine inv.handle has (.inl ⟨rfl, idle⟩) (fun _ _ => rfl) ?_ (by simp [idle])
    intro header' is_header' before
    rw [is_header, Option.some.injEq] at is_header'
    subst is_header'
    rw [at_k] at before
    exact ⟨before, holds_copy _ _ _⟩
  · rename_i i header at_k is_header
    have has : (s.phase k).urb = some i := by rw [at_k]; rfl
    have idle := inv.free k i has
    rw [Op.Allowed, at_k, is_header] at allowed
    refine inv.handle has ?_ kept ?_ (by simp [idle])
    · cases ok with
      | false => exact .inr rfl
      | true => exact .inl ⟨rfl, idle⟩
    · intro header' is_header' before
      rw [is_header, Option.some.injEq] at is_header'
      subst is_header'
      rw [at_k] at before
      cases ok with
      | false => trivial
      | true =>
        simp only [if_true, Function.update_self]
        exact ⟨allowed.2 rfl, before.1, Holds.copy_behind before.2⟩
  · rename_i i header at_k is_header
    have has : (s.phase k).urb = some i := by rw [at_k]; rfl
    have idle := inv.free k i has
    obtain ⟨header', is_header', before⟩ := inv.working k i has
    rw [at_k] at before
    refine inv.handle has (.inr rfl) (fun _ _ => rfl) (fun _ _ _ => trivial) ?_
    intro j flies
    cases ok with
    | false => simp [idle] at flies
    | true =>
      simp only [if_true, Option.some.injEq] at flies
      exact ⟨flies.symm, rfl, ⟨header', is_header', before⟩⟩
  · exact inv

/-- A handler begins. If it takes a URB, nobody else has it. -/
theorem Inv.begins (inv : Inv s) (new : s.phase k = .new) {phase : Phase} {index : Fin numberOfMessageBulk}
    {header : Nat → Option Dword} (begun : phase ≠ .new) (others : ∀ j, j ≠ k → header j = s.header j)
    (fits : ∀ h, header k = some h → sizeofMemoryCommand + length h ≤ messageDataBufferSizeBulk)
    (room : ∀ i, phase.urb = some i → (s.urbs i).inFlight = none ∧ (∀ j, (s.phase j).urb ≠ some i) ∧
      ∃ h, header k = some h ∧ phase.Ok (s.urbs i) h (s.data k)) :
    Inv { s.goto k phase with currentIndex := index, header := header } := by
  have phase_of : ∀ j, j ≠ k → Function.update s.phase k phase j = s.phase j := fun j other => Function.update_of_ne other ..
  constructor
  · intro j h is_h
    by_cases here : j = k
    · exact fits h (here ▸ is_h)
    · exact inv.fits j h ((others j here).symm.trans is_h)
  · intro j still
    simp only [State.goto] at still ⊢
    by_cases here : j = k
    · subst here
      rw [Function.update_self] at still
      exact absurd still begun
    · rw [phase_of j here] at still
      rw [others j here]
      exact inv.unread j still
  · intro j j' i has has'
    simp only [State.goto] at has has'
    by_cases here : j = k <;> by_cases here' : j' = k
    · rw [here, here']
    · rw [here, Function.update_self] at has
      rw [phase_of j' here'] at has'
      exact absurd has' ((room i has).2.1 j')
    · rw [here', Function.update_self] at has'
      rw [phase_of j here] at has
      exact absurd has ((room i has').2.1 j)
    · rw [phase_of j here] at has
      rw [phase_of j' here'] at has'
      exact inv.one j j' i has has'
  · intro j i has
    simp only [State.goto] at has ⊢
    by_cases here : j = k
    · rw [here, Function.update_self] at has
      exact (room i has).1
    · rw [phase_of j here] at has
      exact inv.free j i has
  · intro j i has
    simp only [State.goto] at has ⊢
    by_cases here : j = k
    · subst here
      rw [Function.update_self] at has ⊢
      exact (room i has).2.2
    · rw [phase_of j here] at has ⊢
      rw [others j here]
      exact inv.working j i has
  · intro i j flies
    obtain ⟨done, h, reply⟩ := inv.carries i j flies
    have other : j ≠ k := by
      rintro rfl
      exact absurd (new.symm.trans done) (by simp)
    refine ⟨(phase_of j other).trans done, h, ?_⟩
    rw [← others j other] at reply
    exact reply

theorem Inv.pick (inv : Inv s) {header : Dword} {error present : Bool} (roomy : Roomy s (.pick k header error present)) :
    Inv (s.pick k header error present) := by
  unfold State.pick
  split
  · rename_i new
    have ends : ∀ index, Inv { s.goto k .done with currentIndex := index } := by
      intro index
      refine inv.begins new (by simp) (fun _ _ => rfl) (inv.fits k) ?_
      intro i has
      simp [Phase.urb] at has
    split_ifs with is_error is_present
    · exact ends s.currentIndex
    · obtain rfl : error = false := Bool.eq_false_iff.mpr is_error
      subst is_present
      obtain ⟨idle, nobody, small⟩ := roomy new
      refine inv.begins new (by simp) (fun j other => Function.update_of_ne other ..) ?_ ?_
      · intro h is_h
        rw [Function.update_self, Option.some.injEq] at is_h
        rwa [← is_h]
      · intro i has
        obtain rfl : s.currentIndex = i := by simpa [Phase.urb] using has
        exact ⟨idle, nobody, header, Function.update_self .., trivial⟩
    · exact ends (s.currentIndex + 1)
  · exact inv

theorem Inv.complete (inv : Inv s) (i : Fin numberOfMessageBulk) : Inv (s.complete i) := by
  have was : ∀ i' j, (Function.update s.urbs i { s.urbs i with inFlight := none } i').inFlight = some j →
      i' ≠ i ∧ (s.urbs i').inFlight = some j := by
    intro i' j flies
    by_cases here : i' = i
    · simp [here] at flies
    · exact ⟨here, by rwa [Function.update_of_ne here] at flies⟩
  constructor
  · exact inv.fits
  · exact inv.unread
  · exact inv.one
  · intro k i' has
    by_cases here : i' = i
    · simp [State.complete, State.setUrb, here]
    · simpa [State.complete, State.setUrb, here] using inv.free k i' has
  · intro k i' has
    obtain ⟨header, is_header, ok⟩ := inv.working k i' has
    refine ⟨header, is_header, ?_⟩
    by_cases here : i' = i
    · subst here
      simp only [State.complete, State.setUrb, Function.update_self]
      -- What a handler has done does not mention the flight.
      cases at_k : s.phase k <;> rw [at_k] at ok <;> exact ok
    · simpa [State.complete, State.setUrb, here] using ok
  · intro i' k flies
    obtain ⟨other, before⟩ := was i' k flies
    obtain ⟨done, carries⟩ := inv.carries i' k before
    refine ⟨done, ?_⟩
    simp only [State.complete, State.setUrb, Function.update_of_ne other]
    exact carries

theorem Inv.step (inv : Inv s) {op : Op} (allowed : op.Allowed s) (roomy : Roomy s op) : Inv (s.step op) := by
  cases op with
  | pick k header error present => exact inv.pick roomy
  | run k bytes ok => exact inv.run allowed
  | complete i => exact inv.complete i

/-- A handler only touches the URB it has, which is not in flight. -/
theorem Inv.alone (inv : Inv s) (op : Op) (flies : (s.urbs i).inFlight ≠ none) (other : op ≠ .complete i) :
    (s.step op).urbs i = s.urbs i := by
  have apart : ∀ {k i'}, (s.phase k).urb = some i' → i ≠ i' := by
    rintro k i' has rfl
    exact flies (inv.free k i has)
  cases op with
  | pick k header error present =>
    simp only [State.step, State.pick]
    split
    · split_ifs <;> rfl
    · rfl
  | run k bytes ok =>
    simp only [State.step, State.run]
    split
    · exact Function.update_of_ne (apart (k := k) (by simp [*, Phase.urb])) ..
    · exact Function.update_of_ne (apart (k := k) (by simp [*, Phase.urb])) ..
    · exact Function.update_of_ne (apart (k := k) (by simp [*, Phase.urb])) ..
    · exact Function.update_of_ne (apart (k := k) (by simp [*, Phase.urb])) ..
    · rfl
  | complete i' =>
    refine Function.update_of_ne ?_ ..
    rintro rfl
    exact other rfl

/-- Replies are intact in every run in which each handler finds its URB unused and its reply
    fits. -/
theorem replies_intact (reachable : Reachable Roomy s) : Intact Roomy s := by
  have inv : Inv s := by
    refine reachable.invariant ?_ ?_
    · rintro s ⟨buffers, rfl⟩
      exact inv_initial buffers
    · rintro s op inv ⟨allowed, roomy⟩
      exact inv.step allowed roomy
  refine ⟨fun i k flies => (inv.carries i k flies).2, inv.fits, ?_⟩
  intro op _ i flies other
  exact inv.alone op flies other

end

/-- The device asks for the bytes 5 and 6; the reply is submitted. -/
theorem replies_intact_two :
    let s := [Op.pick 0 0x00000201 false true, .run 0 [] true, .run 0 [] true, .run 0 [5, 6] true, .run 0 [] true].foldl
      State.step (State.initial fun _ _ => 0)
    Reachable Roomy s ∧ (s.urbs 0).inFlight = some 0 ∧ Intact Roomy s := by
  intro s
  have reachable : Reachable Roomy s := by
    refine (Run.Reachable.first ⟨fun _ _ => 0, rfl⟩).all ?_
    refine ⟨⟨trivial, fun _ => ⟨rfl, fun _ => by simp [State.initial, Phase.urb], by decide⟩⟩, ⟨trivial, trivial⟩,
      ⟨trivial, trivial⟩, ⟨⟨by decide, fun _ => by decide⟩, trivial⟩, ⟨trivial, trivial⟩, trivial⟩
  exact ⟨reachable, rfl, replies_intact reachable⟩

/-- The requests 0 to 7 are handled, each with a header that says its number, and ask for
    nothing. -/
def eightReplies : List Op :=
  (List.range 8).flatMap fun k =>
    [Op.pick k (BitVec.ofNat 32 (k <<< 24 + 1)) false true, .run k [] true, .run k [] true, .run k [] true, .run k [] true]

/-- No reply has come back when the ninth request is handled: the URB that carries the first
    reply gets the header of the ninth. -/
theorem not_replies_intact : ¬∀ s, Reachable (fun _ _ => True) s → Intact (fun _ _ => True) s := by
  intro intact
  let s := (eightReplies ++ [Op.pick 8 0x08000001 false true, .run 8 [] true]).foldl State.step (State.initial fun _ _ => 0)
  have reachable : Reachable (fun _ _ => True) s := by
    refine (Run.Reachable.first ⟨fun _ _ => 0, rfl⟩).all ?_
    decide +kernel
  have same := (intact s reachable).alone (.run 8 [] true) ⟨trivial, trivial⟩ 0 (by decide) (by simp)
  have byte : ((s.step (.run 8 [] true)).urbs 0).dataBuffer 3 = (s.urbs 0).dataBuffer 3 := by rw [same]
  exact absurd byte (by decide)

end Ehub.Reply
