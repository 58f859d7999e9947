import Mathlib
import Ehub.Giveback
import Ehub.Lengths

/-!
The lengths with which URBs are given back, over runs of transfer events. The length of a
URB is checked against that of its buffer whenever one of its TDs is finished, so it is
never too large in the end (`total_bounded`). The length of a frame is not checked: it is
what the controller's residual makes of the TRBs between the ring's dequeue pointer and the
TRB of the event, and a residual that is larger than these makes it a number near 2^32.

A stopped TD stays where it is and is completed later, but what it had transferred when it
was stopped has already been added to the URB's length and is added once more then.
-/
namespace Ehub.Reported
open Ehub.Lap Ehub.Ring Ehub.Segments Ehub.Cancel Ehub.Giveback Ehub.Lengths
open Ehub.Transfer hiding State

/-! ### The bytes of TRBs -/

/-- The TRBs with data before that of an event, and that TRB. -/
def passed (r : Ring) (eventTrb : TrbPtr) : List TrbPtr :=
  (walk r.nextTrb eventTrb (trbsPerSegment * r.numSegs) r.dequeue).filter (isWork r) ++ [eventTrb]

def bytes (r : Ring) (ps : List TrbPtr) : Nat := (ps.map fun p => (lenAt r p).toNat).sum

section
variable {r r' : Ring}

theorem bytes_cons (r : Ring) (p : TrbPtr) (ps : List TrbPtr) : bytes r (p :: ps) = (lenAt r p).toNat + bytes r ps := rfl

theorem lenLoop_eq (r : Ring) (eventTrb : TrbPtr) : ∀ (fuel : Nat) (p : TrbPtr) (len : BitVec 32),
    lenLoop r eventTrb fuel p len = len + BitVec.ofNat 32 (bytes r ((walk r.nextTrb eventTrb fuel p).filter (isWork r))) := by
  intro fuel
  induction fuel with
  | zero =>
    intro p len
    simp [lenLoop, walk, bytes]
  | succ fuel ih =>
    intro p len
    rw [lenLoop, walk]
    by_cases here : p = eventTrb
    · rw [if_pos here, if_pos here]
      simp [bytes]
    · rw [if_neg here, if_neg here, ih]
      by_cases counts : isWork r p = true
      · rw [if_pos counts, List.filter_cons_of_pos counts, bytes_cons, BitVec.ofNat_add, BitVec.ofNat_toNat,
          BitVec.setWidth_eq, BitVec.add_assoc]
      · rw [if_neg counts, List.filter_cons_of_neg counts]

theorem bytes_append (r : Ring) (l m : List TrbPtr) : bytes r (l ++ m) = bytes r l + bytes r m := by
  simp [bytes]

theorem bytes_sublist (r : Ring) {l m : List TrbPtr} (sublist : l.Sublist m) : bytes r l ≤ bytes r m :=
  (sublist.map _).sum_le_sum fun _ _ => Nat.zero_le _

/-- What `process_isoc_td` works out, when the residual is not too large. -/
theorem len_toNat {eventTrb : TrbPtr} {event : Event} (fits : bytes r (passed r eventTrb) < 2 ^ 32)
    (residual : (eventTrbLen event).toNat ≤ bytes r (passed r eventTrb)) :
    (lenBefore r eventTrb + (lenAt r eventTrb - eventTrbLen event)).toNat =
      bytes r (passed r eventTrb) - (eventTrbLen event).toNat := by
  have split : bytes r (passed r eventTrb) =
      bytes r ((walk r.nextTrb eventTrb (trbsPerSegment * r.numSegs) r.dequeue).filter (isWork r)) +
        (lenAt r eventTrb).toNat := by
    rw [passed, bytes_append]
    simp [bytes]
  rw [split] at fits residual ⊢
  rw [lenBefore, lenLoop_eq, show ∀ x : BitVec 32, 0 + x = x from zero_add, BitVec.toNat_add, BitVec.toNat_sub, BitVec.toNat_ofNat]
  have := (eventTrbLen event).isLt
  omega

/-- The rings have the same TRBs in the same segments. -/
structure SameTrbs (r r' : Ring) : Prop where
  segments : r'.toSegments = r.toSegments
  numSegs : r'.numSegs = r.numSegs
  type : r'.type = r.type

theorem SameTrbs.trans {r'' : Ring} (first : SameTrbs r r') (second : SameTrbs r' r'') : SameTrbs r r'' :=
  ⟨second.segments.trans first.segments, second.numSegs.trans first.numSegs, second.type.trans first.type⟩

theorem SameTrbs.incDeqLoop : ∀ (fuel : Nat) {r r' : Ring}, SameTrbs r r' → SameTrbs r (incDeqLoop fuel r') := by
  intro fuel
  induction fuel with
  | zero => exact fun same => same
  | succ fuel ih =>
    intro r r' same
    have moved : ∀ (d : TrbPtr) (c : Bool), SameTrbs r { r' with dequeue := d, cycleState := c } :=
      fun _ _ => ⟨same.segments, same.numSegs, same.type⟩
    rw [Ring.incDeqLoop]
    dsimp only
    split_ifs
    · exact ih (moved _ _)
    · exact moved _ _
    · exact ih (moved _ _)
    · exact moved _ _
    · exact ih (moved _ _)
    · exact moved _ _

theorem sameTrbs_incDeq (r : Ring) : SameTrbs r r.incDeq := by
  rw [Ring.incDeq]
  apply SameTrbs.incDeqLoop
  split_ifs
  · exact ⟨rfl, rfl, rfl⟩
  · exact ⟨rfl, rfl, rfl⟩

theorem sameTrbs_advance (r : Ring) (lastTrb : TrbPtr) : SameTrbs r (advance r lastTrb) := by
  have loop : ∀ (fuel : Nat) (r : Ring), SameTrbs r (advanceLoop lastTrb fuel r) := by
    intro fuel
    induction fuel with
    | zero => exact fun r => ⟨rfl, rfl, rfl⟩
    | succ fuel ih =>
      intro r
      rw [advanceLoop]
      split_ifs
      · exact ⟨rfl, rfl, rfl⟩
      · exact (sameTrbs_incDeq r).trans (ih _)
  exact (loop _ r).trans (sameTrbs_incDeq _)

theorem SameTrbs.nextTrb (same : SameTrbs r r') (p : TrbPtr) : r'.nextTrb p = r.nextTrb p := by
  rw [Ring.nextTrb, Ring.nextTrb, Ring.lastTrb, Ring.lastTrb, same.segments, same.type]

theorem SameTrbs.trbsOf (same : SameTrbs r r') (td : Td) : trbsOf r' td = trbsOf r td := by
  rw [Cancel.trbsOf, Cancel.trbsOf, funext same.nextTrb, same.numSegs]

theorem SameTrbs.bytes (same : SameTrbs r r') (ps : List TrbPtr) : bytes r' ps = bytes r ps := by
  simp only [Reported.bytes, lenAt, same.segments]

end

/-! ### The frames of a URB -/

section
variable {u : Urb} {idx : Nat}

theorem map_modify {α β : Type*} (f : α → β) {g : α → α} (same : ∀ x, f (g x) = f x) : ∀ (l : List α) (i : Nat),
    (l.modify i g).map f = l.map f := by
  intro l
  induction l with
  | nil => simp
  | cons x l ih =>
    intro i
    cases i with
    | zero => simp [same]
    | succ i => simp [ih]

/-- A sum in which one summand was 0 before. -/
theorem sum_modify {α : Type*} {f : α → Nat} {g : α → α} {n : Nat} : ∀ {l : List α} {i : Nat},
    (∀ x, l[i]? = some x → f x = 0 ∧ f (g x) = n) → (l[i]? = none → n = 0) →
      ((l.modify i g).map f).sum = (l.map f).sum + n := by
  intro l
  induction l with
  | nil =>
    intro i _ beyond
    simp [beyond]
  | cons x l ih =>
    intro i here beyond
    cases i with
    | zero =>
      obtain ⟨zero, now⟩ := here x rfl
      simp [zero, now, Nat.add_comm]
    | succ i =>
      have rest := ih here beyond
      simp only [List.modify_succ_cons, List.map_cons, List.sum_cons, rest]
      omega

theorem mem_modify {α : Type*} {g : α → α} {l : List α} {i : Nat} {y : α} (member : y ∈ l.modify i g) :
    y ∈ l ∨ ∃ x, l[i]? = some x ∧ y = g x := by
  obtain ⟨k, inside, rfl⟩ := List.getElem_of_mem member
  rw [List.length_modify] at inside
  rw [List.getElem_modify]
  by_cases same : i = k
  · subst same
    rw [if_pos rfl]
    exact .inr ⟨_, List.getElem?_eq_getElem inside, rfl⟩
  · rw [if_neg same]
    exact .inl (List.getElem_mem inside)

theorem frameLength_of_lengths {u' : Urb} (same : u'.isoFrameDesc.map Frame.length = u.isoFrameDesc.map Frame.length) (idx : Nat) :
    u'.frameLength idx = u.frameLength idx := by
  rw [Urb.frameLength, Urb.frameLength, ← List.getElem?_map, ← List.getElem?_map, same]

/-- The lengths that the frames ask for are never written. -/
theorem lengths_setFrameStatus (u : Urb) (idx : Nat) (status : Int) :
    (u.setFrameStatus idx status).isoFrameDesc.map Frame.length = u.isoFrameDesc.map Frame.length := by
  apply map_modify
  exact fun _ => rfl

theorem lengths_addFrame (u : Urb) (idx : Nat) (len : BitVec 32) :
    (u.addFrame idx len).isoFrameDesc.map Frame.length = u.isoFrameDesc.map Frame.length := by
  apply map_modify
  exact fun _ => rfl

theorem frameLength_some {f : Frame} (here : u.isoFrameDesc[idx]? = some f) : u.frameLength idx = f.length := by
  rw [Urb.frameLength, here]
  rfl

/-- No frame has got more than it asked for. -/
def InFrame (u : Urb) : Prop := ∀ f ∈ u.isoFrameDesc, f.actualLength ≤ f.length

theorem InFrame.setFrameStatus (inFrame : InFrame u) (status : Int) : InFrame (u.setFrameStatus idx status) := by
  intro f member
  rcases mem_modify member with before | ⟨g, here, rfl⟩
  · exact inFrame f before
  · exact inFrame g (List.mem_of_getElem? here)

theorem InFrame.addFrame (inFrame : InFrame u) {len : BitVec 32} (fits : len ≤ u.frameLength idx) :
    InFrame (u.addFrame idx len) := by
  intro f member
  rcases mem_modify member with before | ⟨g, here, rfl⟩
  · exact inFrame f before
  · rw [frameLength_some here] at fits
    exact fits

end

/-- The length of a frame is worked out from the ring. -/
def Counted (event : Event) (trustTxLength : Bool) : Prop :=
  wholeFrame event trustTxLength = false ∧ event.code ≠ compStopInval

instance instDecidableCounted (event : Event) (trustTxLength : Bool) : Decidable (Counted event trustTxLength) :=
  inferInstanceAs (Decidable (_ ∧ _))

/-- An event sets the status of a frame, and at most once its length. -/
theorem processIsocTd_cases (trust : Bool) (r : Ring) (td : Td) (eventTrb : TrbPtr) (event : Event) (idx : Nat) (u : Urb) :
    ∃ status,
      ((processIsocTd trust r td eventTrb event idx u).1 = u.setFrameStatus idx status ∧
        ((processIsocTd trust r td eventTrb event idx u).2 = true → event.code = compStopInval)) ∨
      ∃ len, processIsocTd trust r td eventTrb event idx u = ((u.setFrameStatus idx status).addFrame idx len, true) ∧
        (len = u.frameLength idx ∧ ¬(event.code = compStopInval ∨ event.code = compStop) ∨ Counted event trust ∧
          len = lenBefore r eventTrb + (lenAt r eventTrb - eventTrbLen event)) := by
  refine ⟨isocStatus u event (u.frameStatus idx), ?_⟩
  unfold processIsocTd
  dsimp only
  by_cases waits : event.code = compTxErr ∧ eventTrb ≠ td.lastTrb
  · rw [if_pos waits]
    exact .inl ⟨rfl, fun finish => absurd finish (by simp)⟩
  rw [if_neg waits]
  by_cases whole : wholeFrame event trust = true
  · rw [if_pos whole]
    refine .inr ⟨_, rfl, .inl ⟨?_, ?_⟩⟩
    · exact frameLength_of_lengths (lengths_setFrameStatus _ _ _) idx
    · intro stopped
      rcases stopped with is_code | is_code <;>
        simp [wholeFrame, skipTd, is_code, compStop, compStopInval, compSuccess, compBwOver, compBuffOver, compBabble, compDevErr,
          compStall, compTxErr] at whole
  rw [if_neg whole]
  by_cases inval : event.code = compStopInval
  · rw [if_pos inval]
    exact .inl ⟨rfl, fun _ => inval⟩
  · rw [if_neg inval]
    exact .inr ⟨_, rfl, .inr ⟨⟨by simpa using whole, inval⟩, rfl⟩⟩

/-! ### Runs -/

/-- What happens to an endpoint: a URB is queued, a transfer event comes, the ring's pointers
    are moved by a command or its TRBs by anything else, a URB leaves the lists. -/
inductive Op where
  | enqueue (e : EpId) (urb : Nat) (data : Urb) (ring : Ring) (tds : List (TrbPtr × TrbPtr)) (submitted : Bool)
  | txEvent (e : EpId) (event : Event) (env : TxEnv)
  | moveRing (e : EpId) (ring : Ring)
  | remove (e : EpId) (urb : Nat)

def queueUrb (s : State) (e : EpId) (urb : Nat) (data : Urb) (ring : Ring) (tds : List (TrbPtr × TrbPtr)) (submitted : Bool) : State :=
  if s.dying then s
  else
    { s.setUrb urb data with
      toState := s.toState.enqueue e urb ring tds submitted
      urbLengthSet := Function.update s.urbLengthSet urb false }.noteFrames urb data.isoFrameDesc

def step (s : State) : Op → State
  | .enqueue e urb data ring tds submitted => queueUrb s e urb data ring tds submitted
  | .txEvent e event env => s.handleTxEvent e event env
  | .moveRing e ring => s.setEp e { s.ep e with ring }
  | .remove e urb =>
    s.setEp e { s.ep e with
      tdList := others (s.ep e).tdList urb
      cancelledTdList := others (s.ep e).cancelledTdList urb }

/-- The TRBs of an isochronous TD have as many bytes as its frame. -/
def Measured (s : State) (e : EpId) : Prop :=
  (s.ep e).pipe = .isoc → ∀ td ∈ (s.ep e).tdList,
    bytes (s.ep e).ring (trbsOf (s.ep e).ring td) = ((s.urbs td.urb).frameLength td.index).toNat

/-- Nothing of the URB has been transferred. -/
def Unused (u : Urb) : Prop := u.actualLength = 0 ∧ ∀ f ∈ u.isoFrameDesc, f.actualLength = 0

/-- URBs are queued once, with nothing transferred; the TRBs on the ring are those of the
    frames. -/
def Op.Allowed (s : State) : Op → Prop
  | .enqueue e urb data ring tds submitted => (∀ e', (e', urb) ∉ s.linked) ∧ Unused data ∧
    Measured (queueUrb s e urb data ring tds submitted) e
  | .moveRing e ring => Measured (s.setEp e { s.ep e with ring }) e
  | _ => True

/-- The TRBs up to that of the event are all of its TD, and have the bytes that the event
    says were not transferred. -/
def Fits (event : Event) : Td × Ring × TrbPtr → Prop
  | (td, r, p) =>
    (r.trb p).isNoop = true ∨ ((passed r p).Sublist (trbsOf r td) ∧ (eventTrbLen event).toNat ≤ bytes r (passed r p))

/-- An event for which the length of a frame is worked out from the ring fits it. -/
def Honest (s : State) : Op → Prop
  | .txEvent e event env => (s.ep e).pipe = .isoc → Counted event env.trustTxLength →
      ∀ found ∈ eventTrb (s.ep e) event.buffer, Fits event found
  | _ => True

def New (s : State) : Prop := Transfer.New s.toState ∧ s.reports = []

def Reachable (condition : State → Op → Prop) (s : State) : Prop :=
  Run.Reachable New (fun s op => op.Allowed s ∧ condition s op) step s

/-- A URB that is given back has got no more than its buffer holds, and its frames no more
    than they asked for. -/
structure Bounded (u : Urb) : Prop where
  total : u.actualLength ≤ u.transferBufferLength
  frames : InFrame u

/-! ### What an event leaves of the lists -/

/-- The endpoint `e` has these TDs and the URBs these counts; the rest of the lists and of
    what the rings hold is as it was. -/
structure Moves (s s' : Transfer.State) (e : EpId) (tdList : List Td) (urbPriv : Nat → UrbPriv) : Prop where
  tdList : (s'.ep e).tdList = tdList
  trbs : SameTrbs (s.ep e).ring (s'.ep e).ring
  pipe : (s'.ep e).pipe = (s.ep e).pipe
  others : ∀ e', e' ≠ e → s'.ep e' = s.ep e'
  urbPriv : s'.urbPriv = urbPriv
  linked : s'.linked = s.linked

/-- The counts when one more TD of the URB is done. -/
def countDone (urbPriv : Nat → UrbPriv) (urb : Nat) : Nat → UrbPriv :=
  Function.update urbPriv urb { urbPriv urb with tdCnt := (urbPriv urb).tdCnt + 1 }

section
variable {s : Transfer.State} {e : EpId} {td : Td} {rest : List Td} {event : Event} {env : TxEnv}

theorem moves_cleanup {s' : Transfer.State} {tdList : List Td} {urbPriv : Nat → UrbPriv} (moves : Moves s s' e tdList urbPriv)
    (ret : Bool) : Moves s (s'.cleanup ret (some td)) e tdList urbPriv := by
  cases ret with
  | false => exact moves
  | true => exact ⟨moves.tdList, moves.trbs, moves.pipe, moves.others, moves.urbPriv, moves.linked⟩

theorem moves_removeTd (is_list : (s.ep e).tdList = td :: rest) :
    Moves s (s.removeTd e td).1 e rest (countDone s.urbPriv td.urb) where
  tdList := by simp [Transfer.State.removeTd, Transfer.State.tdDone, is_list]
  trbs := by simpa [Transfer.State.removeTd, Transfer.State.tdDone] using ⟨rfl, rfl, rfl⟩
  pipe := by simp [Transfer.State.removeTd, Transfer.State.tdDone]
  others e' other := (framed_removeTd td).others e' other
  urbPriv := rfl
  linked := rfl

theorem Moves.after {s' s'' : Transfer.State} {tdList : List Td} {urbPriv : Nat → UrbPriv}
    (first : Moves s s' e (s.ep e).tdList s.urbPriv) (second : Moves s' s'' e tdList urbPriv) : Moves s s'' e tdList urbPriv where
  tdList := second.tdList
  trbs := first.trbs.trans second.trbs
  pipe := second.pipe.trans first.pipe
  others e' other := (second.others e' other).trans (first.others e' other)
  urbPriv := second.urbPriv
  linked := second.linked.trans first.linked

theorem moves_setRing {r : Ring} (same : SameTrbs (s.ep e).ring r) :
    Moves s (s.setEp e { s.ep e with ring := r }) e (s.ep e).tdList s.urbPriv where
  tdList := by simp
  trbs := by simpa using same
  pipe := by simp
  others _ other := Transfer.State.ep_setEp_other _ other
  urbPriv := rfl
  linked := rfl

theorem ring_cleanupStalledRing (s : Transfer.State) (e : EpId) (td : Td) (env : Env) :
    ((s.cleanupStalledRing e td env).ep e).ring = (s.ep e).ring ∧ ((s.cleanupStalledRing e td env).ep e).pipe = (s.ep e).pipe := by
  rw [Transfer.State.cleanupStalledRing]
  split
  · exact ⟨rfl, rfl⟩
  · rename_i deqState _
    rcases queueNewDequeueState_cases (s.ep e).toEndpoint deqState (s.queueEnv env) with ⟨p, eq, _⟩ | ⟨_, eq⟩
    · rw [eq]
      simp
    · rw [eq]
      simp

theorem moves_cleanupHaltedEndpoint (td : Td) : Moves s (s.cleanupHaltedEndpoint e td env) e (s.ep e).tdList s.urbPriv := by
  have still : Still s (s.cleanupHaltedEndpoint e td env) := still_cleanupHaltedEndpoint td env
  have framed : Framed e s (s.cleanupHaltedEndpoint e td env) := framed_cleanupHaltedEndpoint td env
  have kept : ((s.cleanupHaltedEndpoint e td env).ep e).ring = (s.ep e).ring ∧
      ((s.cleanupHaltedEndpoint e td env).ep e).pipe = (s.ep e).pipe := by
    rw [Transfer.State.cleanupHaltedEndpoint]
    split_ifs
    · exact ⟨rfl, rfl⟩
    · obtain ⟨ring, pipe⟩ := ring_cleanupStalledRing
        ((s.setEp e { s.ep e with halted := true }).queueCommand env.resetQueue (.resetEp e)) e td env.env
      rw [ring, pipe]
      simp
  exact ⟨(still.lists e).1, ⟨by rw [kept.1], by rw [kept.1], by rw [kept.1]⟩, kept.2, framed.others, still.urbPriv, framed.linked⟩

/-- A TD that is finished is the first of the list, and is counted; if it has only been
    stopped nothing moves. -/
theorem moves_finishTd (event : Event) (env : TxEnv) (is_list : (s.ep e).tdList = td :: rest) (skip : Bool) :
    if !skip ∧ (event.code = compStopInval ∨ event.code = compStop) then
      (s.finishTd e td skip event env).2 = false ∧ Moves s (s.finishTd e td skip event env).1 e (s.ep e).tdList s.urbPriv
    else Moves s (s.finishTd e td skip event env).1 e rest (countDone s.urbPriv td.urb) := by
  cases skip with
  | true => exact moves_removeTd is_list
  | false =>
    rw [Transfer.State.finishTd]
    simp only [Bool.false_eq_true, if_false, Bool.not_false, true_and]
    by_cases stopped : event.code = compStopInval ∨ event.code = compStop
    · rw [if_pos stopped, if_pos stopped]
      refine ⟨rfl, ⟨by simp, ?_, by simp, fun _ other => Transfer.State.ep_setEp_other _ other, rfl, rfl⟩⟩
      simpa using ⟨rfl, rfl, rfl⟩
    rw [if_neg stopped, if_neg stopped]
    split_ifs
    · have halted : Moves s (s.cleanupHaltedEndpoint e td env) e (s.ep e).tdList s.urbPriv := moves_cleanupHaltedEndpoint td
      have removed := moves_removeTd (halted.tdList.trans is_list)
      rw [halted.urbPriv] at removed
      exact halted.after removed
    · have advanced : Moves s (s.setEp e { s.ep e with ring := advance (s.ep e).ring td.lastTrb }) e (s.ep e).tdList s.urbPriv :=
        moves_setRing (sameTrbs_advance _ _)
      exact advanced.after (moves_removeTd (advanced.tdList.trans is_list))

end

/-! ### What holds of the lists -/

/-- The TDs of a URB are on their list in order, from `td_cnt` on; every URB is of one
    endpoint, and its TDs have the TRBs that its frames ask for. -/
structure Base (s : State) : Prop where
  aligned : ∀ e urb, (own (s.ep e).tdList urb).map Td.index =
    List.range' (s.urbPriv urb).tdCnt (own (s.ep e).tdList urb).length
  listed : ∀ {e td}, td ∈ (s.ep e).tdList → (e, td.urb) ∈ s.linked
  one : ∀ {e e' urb}, (e, urb) ∈ s.linked → (e', urb) ∈ s.linked → e = e'
  measured : ∀ e, Measured s e

/-- What the frames of the URBs ask for does not change. -/
def SameLengths (s s' : State) : Prop :=
  ∀ urb, (s'.urbs urb).isoFrameDesc.map Frame.length = (s.urbs urb).isoFrameDesc.map Frame.length

section
variable {s s' : State} {e : EpId} {td : Td} {rest : List Td} {event : Event} {env : TxEnv}

/-- The first TD of a list is the next one of its URB. -/
theorem Base.index (base : Base s) (is_list : (s.ep e).tdList = td :: rest) : td.index = (s.urbPriv td.urb).tdCnt := by
  have aligned := base.aligned e td.urb
  rw [is_list, own_cons, if_pos rfl, List.map_cons, List.length_cons, List.range'_succ, List.cons.injEq] at aligned
  exact aligned.1

theorem Base.measured_moves (base : Base s) {tdList : List Td} {urbPriv : Nat → UrbPriv}
    (moves : Moves s.toState s'.toState e tdList urbPriv) (fewer : ∀ td ∈ tdList, td ∈ (s.ep e).tdList)
    (lengths : SameLengths s s') (e' : EpId) : Measured s' e' := by
  intro isoc td' member
  rw [frameLength_of_lengths (lengths td'.urb)]
  by_cases here : e' = e
  · subst here
    rw [moves.tdList] at member
    rw [moves.pipe] at isoc
    rw [moves.trbs.trbsOf, moves.trbs.bytes]
    exact base.measured e' isoc td' (fewer td' member)
  · rw [moves.others e' here] at isoc member ⊢
    exact base.measured e' isoc td' member

/-- Nothing on the lists changes. -/
theorem Base.kept (base : Base s) (moves : Moves s.toState s'.toState e (s.ep e).tdList s.urbPriv) (lengths : SameLengths s s') :
    Base s' := by
  have same : ∀ e', (s'.ep e').tdList = (s.ep e').tdList := by
    intro e'
    by_cases here : e' = e
    · subst here
      exact moves.tdList
    · rw [moves.others e' here]
  refine ⟨?_, ?_, ?_, base.measured_moves moves (fun _ member => member) lengths⟩
  · intro e' urb
    rw [same, moves.urbPriv]
    exact base.aligned e' urb
  · intro e' td' member
    rw [same] at member
    rw [moves.linked]
    exact base.listed member
  · rw [moves.linked]
    exact base.one

/-- The first TD of an endpoint is done. -/
theorem Base.popped (base : Base s) (is_list : (s.ep e).tdList = td :: rest)
    (moves : Moves s.toState s'.toState e rest (countDone s.urbPriv td.urb)) (lengths : SameLengths s s') : Base s' := by
  have fewer : ∀ td' ∈ rest, td' ∈ (s.ep e).tdList := fun td' member => by
    rw [is_list]
    exact List.mem_cons_of_mem _ member
  have first : (e, td.urb) ∈ s.linked := base.listed (by rw [is_list]; exact List.mem_cons_self)
  refine ⟨?_, ?_, ?_, base.measured_moves moves fewer lengths⟩
  · intro e' urb
    have before := base.aligned e' urb
    rw [moves.urbPriv, countDone]
    by_cases here : e' = e
    · subst here
      rw [moves.tdList]
      rw [is_list, own_cons] at before
      by_cases mine : td.urb = urb
      · subst mine
        rw [if_pos rfl, List.map_cons, List.length_cons, List.range'_succ, List.cons.injEq] at before
        rw [Function.update_self]
        exact before.2
      · rw [if_neg mine] at before
        rw [Function.update_of_ne (Ne.symm mine)]
        exact before
    · rw [moves.others e' here]
      by_cases mine : urb = td.urb
      · -- The URB has no TD on the list of another endpoint.
        subst mine
        have none_there : own (s.ep e').tdList td.urb = [] := by
          refine own_eq_nil.mpr fun td' member same => here ?_
          exact base.one (same ▸ base.listed member) first
        rw [none_there]
        rfl
      · rw [Function.update_of_ne mine]
        exact before
  · intro e' td' member
    rw [moves.linked]
    by_cases here : e' = e
    · subst here
      rw [moves.tdList] at member
      exact base.listed (fewer td' member)
    · rw [moves.others e' here] at member
      exact base.listed member
  · rw [moves.linked]
    exact base.one

/-! ### What an event writes down -/

/-- The data of one URB is written, and it is reported as it is then, or not. -/
structure Books (s s' : State) (urb : Nat) (data : Urb) (frames : List Frame) (reported : Bool) : Prop where
  urbs : s'.urbs = Function.update s.urbs urb data
  tdFrames : s'.tdFrames = Function.update s.tdFrames urb frames
  reports : ∃ status, s'.reports = s.reports ++ if reported then [⟨urb, status, data, frames⟩] else []

theorem books_cleanup {data : Urb} {frames : List Frame} (books : Books s s' td.urb data frames false) (ret : Bool) (status : Int) :
    Books s (s'.cleanup e ret td status).1 td.urb data frames ret := by
  obtain ⟨_, reports⟩ := books.reports
  cases ret with
  | false => exact books
  | true =>
    refine ⟨books.urbs, books.tdFrames, if (s'.ep e).pipe = .isoc then 0 else status, ?_⟩
    simp only [Lengths.State.cleanup, if_true, reports, books.urbs, books.tdFrames, Function.update_self]
    rw [if_neg Bool.false_ne_true, List.append_nil]

/-- The end of `finish_td` writes the checked length. -/
theorem books_finishTd (e : EpId) (event : Event) (env : TxEnv) {data : Urb} {frames : List Frame} (books : Books s s' td.urb data frames false) (skip : Bool) (status : Int) :
    Books s (s'.finishTd e td skip event env status).1 td.urb
      (if !skip ∧ (event.code = compStopInval ∨ event.code = compStop) then data else (checkLength data status).1) frames false := by
  have here : s'.urbs td.urb = data := by rw [books.urbs, Function.update_self]
  simp only [Lengths.State.finishTd]
  split_ifs
  · exact ⟨books.urbs, books.tdFrames, books.reports⟩
  · refine ⟨?_, books.tdFrames, books.reports⟩
    rw [here]
    simp only [State.setUrb, books.urbs, Function.update_idem]

theorem passMissed_step (event : Event) (env : TxEnv) (is_list : (s.ep e).tdList = td :: rest) (status : Int) :
    ∃ status',
      Moves s.toState (s.passMissed e td event env status).1.toState e rest (countDone s.urbPriv td.urb) ∧
      Books s (s.passMissed e td event env status).1 td.urb
        (checkLength { s.urbs td.urb with
          isoFrameDesc := Lengths.State.missed (s.urbPriv td.urb).tdCnt (s.urbs td.urb).isoFrameDesc } status').1
        (Lengths.State.missed td.index (s.tdFrames td.urb)) (s.passMissed e td event env status).2.1 := by
  refine ⟨status, ?_, ?_⟩
  · rw [(toState_passMissed status).1]
    apply moves_cleanup
    have advanced : Moves s.toState (s.toState.setEp e { s.ep e with ring := advance (s.ep e).ring td.lastTrb }) e
        (s.ep e).tdList s.urbPriv := moves_setRing (sameTrbs_advance _ _)
    exact advanced.after (moves_removeTd (advanced.tdList.trans is_list))
  · have books : Books s (((s.setUrb td.urb { s.urbs td.urb with
        isoFrameDesc := Lengths.State.missed (s.urbPriv td.urb).tdCnt (s.urbs td.urb).isoFrameDesc }).noteFrames td.urb
        (Lengths.State.missed td.index (s.tdFrames td.urb))).setEp e { s.ep e with ring := advance (s.ep e).ring td.lastTrb })
        td.urb { s.urbs td.urb with
          isoFrameDesc := Lengths.State.missed (s.urbPriv td.urb).tdCnt (s.urbs td.urb).isoFrameDesc }
        (Lengths.State.missed td.index (s.tdFrames td.urb)) false :=
      ⟨rfl, rfl, 0, by simp [State.setUrb, State.noteFrames, Lengths.State.setEp]⟩
    have written := books_finishTd e event env books true status
    exact books_cleanup written _ _

/-- An event either leaves the TD where it is, or finishes it. -/
theorem complete_step (is_list : (s.ep e).tdList = td :: rest) (eventTrb : TrbPtr) (status : Int) {Q : State → Prop}
    (waits : ∀ s', Moves s.toState s'.toState e (s.ep e).tdList s.urbPriv →
      Books s s' td.urb (s.processTd e td eventTrb event env status).urb (s.notedFrames e td eventTrb event env) false →
      ((s.processTd e td eventTrb event env status).finish = true → event.code = compStopInval ∨ event.code = compStop) → Q s')
    (ends : ∀ s' ret status', Moves s.toState s'.toState e rest (countDone s.urbPriv td.urb) →
      Books s s' td.urb (checkLength (s.processTd e td eventTrb event env status).urb status').1
        (s.notedFrames e td eventTrb event env) ret →
      ¬(event.code = compStopInval ∨ event.code = compStop) →
      (s.processTd e td eventTrb event env status).finish = true → Q s') :
    Q (s.complete e td eventTrb event env status) := by
  have kept : Moves s.toState (s.process e td eventTrb event env status).1.toState e (s.ep e).tdList s.urbPriv :=
    ⟨rfl, ⟨rfl, rfl, rfl⟩, rfl, fun _ _ => rfl, rfl, rfl⟩
  have books : Books s (s.process e td eventTrb event env status).1 td.urb (s.processTd e td eventTrb event env status).urb
      (s.notedFrames e td eventTrb event env) false :=
    ⟨rfl, rfl, 0, by simp [State.process, State.setUrb, State.noteFrames]⟩
  have shown : (s.process e td eventTrb event env status).2.1 = (s.processTd e td eventTrb event env status).finish := rfl
  rw [Lengths.State.complete]
  dsimp only
  rw [shown]
  by_cases finish : (s.processTd e td eventTrb event env status).finish = true
  · rw [if_pos finish]
    have moves := moves_finishTd event env is_list false
    have written := books_finishTd e event env books false (s.process e td eventTrb event env status).2.2
    have removed := toState_finishTd (s.process e td eventTrb event env status).1 e td event env false
      (s.process e td eventTrb event env status).2.2
    rw [toState_process] at removed
    by_cases stopped : event.code = compStopInval ∨ event.code = compStop
    · rw [if_pos ⟨rfl, stopped⟩] at moves written
      refine waits _ ?_ ?_ fun _ => stopped
      · rw [toState_cleanup, removed.1]
        exact moves_cleanup moves.2 _
      · rw [removed.2, moves.1]
        exact books_cleanup written false _
    · rw [if_neg fun both => stopped both.2] at moves written
      refine ends _ _ _ ?_ (books_cleanup written _ _) stopped finish
      rw [toState_cleanup, removed.1]
      exact moves_cleanup moves _
  · rw [if_neg finish]
    exact waits _ kept books fun done => absurd done finish

theorem moves_setEp {ep : Ep} (tdList : ep.tdList = (s.ep e).tdList) (ring : ep.ring = (s.ep e).ring) (pipe : ep.pipe = (s.ep e).pipe) :
    Moves s.toState (s.toState.setEp e ep) e (s.ep e).tdList s.urbPriv where
  tdList := by simpa using tdList
  trbs := by
    rw [Transfer.State.ep_setEp, ring]
    exact ⟨rfl, rfl, rfl⟩
  pipe := by simpa using pipe
  others _ other := Transfer.State.ep_setEp_other _ other
  urbPriv := rfl
  linked := rfl

theorem moves_noted : Moves s.toState (noted s e event).toState e (s.ep e).tdList s.urbPriv := by
  rw [noted, Transfer.State.noteStall]
  split_ifs
  · exact moves_setEp rfl rfl rfl
  · exact ⟨rfl, ⟨rfl, rfl, rfl⟩, rfl, fun _ _ => rfl, rfl, rfl⟩

theorem checkLength_frames (u : Urb) (status : Int) : (checkLength u status).1.isoFrameDesc = u.isoFrameDesc := by
  rw [checkLength]
  split_ifs <;> rfl

theorem checkLength_within (u : Urb) (status : Int) :
    (checkLength u status).1.actualLength ≤ (checkLength u status).1.transferBufferLength := by
  rw [checkLength]
  split_ifs with large
  · exact BitVec.le_def.mpr (Nat.zero_le _)
  · exact BitVec.not_lt.mp large

theorem Books.sameLengths {urb : Nat} {data : Urb} {frames : List Frame} {reported : Bool} (books : Books s s' urb data frames reported)
    (lengths : data.isoFrameDesc.map Frame.length = (s.urbs urb).isoFrameDesc.map Frame.length) : SameLengths s s' := by
  intro urb'
  rw [books.urbs]
  by_cases same : urb' = urb
  · subst same
    rw [Function.update_self]
    exact lengths
  · rw [Function.update_of_ne same]

theorem lengths_missed (idx : Nat) (frames : List Frame) : (Lengths.State.missed idx frames).map Frame.length = frames.map Frame.length := by
  apply map_modify
  exact fun _ => rfl

/-- The length of a frame that is worked out from the ring is at most what the frame asked
    for. -/
theorem Base.counted_le (base : Base s) (event : Event) (is_list : (s.ep e).tdList = td :: rest) (isoc : (s.ep e).pipe = .isoc) {eventTrb : TrbPtr}
    (own : (passed (s.ep e).ring eventTrb).Sublist (trbsOf (s.ep e).ring td))
    (residual : (eventTrbLen event).toNat ≤ bytes (s.ep e).ring (passed (s.ep e).ring eventTrb)) :
    (lenBefore (s.ep e).ring eventTrb + (lenAt (s.ep e).ring eventTrb - eventTrbLen event)).toNat =
        bytes (s.ep e).ring (passed (s.ep e).ring eventTrb) - (eventTrbLen event).toNat ∧
      lenBefore (s.ep e).ring eventTrb + (lenAt (s.ep e).ring eventTrb - eventTrbLen event) ≤
        (s.urbs td.urb).frameLength (s.urbPriv td.urb).tdCnt := by
  have measured := base.measured e isoc td (by rw [is_list]; exact List.mem_cons_self)
  have fewer := bytes_sublist (s.ep e).ring own
  rw [measured, base.index is_list] at fewer
  have := ((s.urbs td.urb).frameLength (s.urbPriv td.urb).tdCnt).isLt
  have len := len_toNat (by omega) residual
  refine ⟨len, ?_⟩
  rw [BitVec.le_def, len]
  omega

end

/-! ### What events keep of every URB -/

def Within (u : Urb) : Prop := u.actualLength ≤ u.transferBufferLength

/-- What holds of every URB while `P` is kept by the events: `P` speaks of the type of its
    endpoint, its data, the frames of its TDs and `td_cnt`. The length of a URB may be too
    large between the events for one of its TDs, the first of its list; but when this is
    finished it is checked. -/
structure Inv (P : Pipe → Urb → List Frame → Nat → Prop) (s : State) : Prop where
  base : Base s
  each : ∀ {e urb}, (e, urb) ∈ s.linked → P (s.ep e).pipe (s.urbs urb) (s.tdFrames urb) (s.urbPriv urb).tdCnt
  ahead : ∀ {e td rest}, (s.ep e).tdList = td :: rest → ∀ td' ∈ rest, td'.urb ≠ td.urb → Within (s.urbs td'.urb)
  reports : ∀ r ∈ s.reports, Within r.given ∧ ∃ e tdCnt, (e, r.urb) ∈ s.linked ∧ P (s.ep e).pipe r.given r.tdFrames tdCnt

section
variable {P : Pipe → Urb → List Frame → Nat → Prop} {s s' : State} {e : EpId} {td : Td} {rest : List Td} {event : Event} {env : TxEnv}
  {data : Urb} {frames : List Frame}

/-- The TDs of other endpoints are of other URBs. -/
theorem Base.apart (base : Base s) {e' : EpId} (other : e' ≠ e) (member : td ∈ (s.ep e).tdList) {td' : Td}
    (there : td' ∈ (s.ep e').tdList) : td'.urb ≠ td.urb :=
  fun same => other (base.one (same ▸ base.listed there) (base.listed member))

theorem Moves.pipes {s s' : Transfer.State} {tdList : List Td} {urbPriv : Nat → UrbPriv} (moves : Moves s s' e tdList urbPriv)
    (e' : EpId) : (s'.ep e').pipe = (s.ep e').pipe := by
  by_cases here : e' = e
  · rw [here, moves.pipe]
  · rw [moves.others e' here]

/-- Only flags of an endpoint change. -/
theorem Inv.still (inv : Inv P s) (moves : Moves s.toState s'.toState e (s.ep e).tdList s.urbPriv) (urbs : s'.urbs = s.urbs)
    (tdFrames : s'.tdFrames = s.tdFrames) (reports : s'.reports = s.reports) : Inv P s' := by
  refine ⟨inv.base.kept moves fun _ => by rw [urbs], ?_, ?_, ?_⟩
  · intro e' urb linked
    rw [moves.linked] at linked
    rw [moves.pipes, urbs, tdFrames, moves.urbPriv]
    exact inv.each linked
  · intro e' first others there
    have there' : (s.ep e').tdList = first :: others := by
      by_cases here : e' = e
      · subst here
        exact moves.tdList.symm.trans there
      · rw [← moves.others e' here, there]
    rw [urbs]
    exact inv.ahead there'
  · rw [reports, moves.linked]
    intro r member
    obtain ⟨within, e', tdCnt, linked, holds⟩ := inv.reports r member
    exact ⟨within, e', tdCnt, linked, by rwa [moves.pipes]⟩

/-- An event is noted in the URB of the first TD, which stays where it is. -/
theorem Inv.kept (inv : Inv P s) (is_list : (s.ep e).tdList = td :: rest)
    (moves : Moves s.toState s'.toState e (s.ep e).tdList s.urbPriv) (books : Books s s' td.urb data frames false)
    (lengths : data.isoFrameDesc.map Frame.length = (s.urbs td.urb).isoFrameDesc.map Frame.length)
    (holds : P (s.ep e).pipe data frames (s.urbPriv td.urb).tdCnt) : Inv P s' := by
  have member : td ∈ (s.ep e).tdList := by
    rw [is_list]
    exact List.mem_cons_self
  refine ⟨inv.base.kept moves (books.sameLengths lengths), ?_, ?_, ?_⟩
  · intro e' urb linked
    rw [moves.linked] at linked
    rw [moves.pipes, books.urbs, books.tdFrames, moves.urbPriv]
    by_cases same : urb = td.urb
    · subst same
      rw [Function.update_self, Function.update_self, inv.base.one linked (inv.base.listed member)]
      exact holds
    · rw [Function.update_of_ne same, Function.update_of_ne same]
      exact inv.each linked
  · intro e' first others there td' later different
    rw [books.urbs]
    by_cases here : e' = e
    · subst here
      rw [moves.tdList, is_list, List.cons.injEq] at there
      obtain ⟨rfl, rfl⟩ := there
      rw [Function.update_of_ne different]
      exact inv.ahead is_list td' later different
    · rw [moves.others e' here] at there
      have elsewhere : td'.urb ≠ td.urb := inv.base.apart here member (by rw [there]; exact List.mem_cons_of_mem _ later)
      rw [Function.update_of_ne elsewhere]
      exact inv.ahead there td' later different
  · obtain ⟨status, reports⟩ := books.reports
    rw [reports, if_neg Bool.false_ne_true, List.append_nil, moves.linked]
    intro r before
    obtain ⟨within, e', tdCnt, linked, given⟩ := inv.reports r before
    exact ⟨within, e', tdCnt, linked, by rwa [moves.pipes]⟩

/-- The first TD is finished, and the length of its URB has been checked. -/
theorem Inv.popped (inv : Inv P s) (is_list : (s.ep e).tdList = td :: rest)
    (moves : Moves s.toState s'.toState e rest (countDone s.urbPriv td.urb)) {reported : Bool}
    (books : Books s s' td.urb data frames reported)
    (lengths : data.isoFrameDesc.map Frame.length = (s.urbs td.urb).isoFrameDesc.map Frame.length) (checked : Within data)
    (holds : P (s.ep e).pipe data frames ((s.urbPriv td.urb).tdCnt + 1)) :
    Inv P s' ∧ ∀ td' ∈ (s'.ep e).tdList, Within (s'.urbs td'.urb) := by
  have member : td ∈ (s.ep e).tdList := by
    rw [is_list]
    exact List.mem_cons_self
  have all : ∀ td' ∈ rest, Within (s'.urbs td'.urb) := by
    intro td' later
    rw [books.urbs]
    by_cases same : td'.urb = td.urb
    · rw [same, Function.update_self]
      exact checked
    · rw [Function.update_of_ne same]
      exact inv.ahead is_list td' later same
  refine ⟨⟨inv.base.popped is_list moves (books.sameLengths lengths), ?_, ?_, ?_⟩, ?_⟩
  · intro e' urb linked
    rw [moves.linked] at linked
    rw [moves.pipes, books.urbs, books.tdFrames, moves.urbPriv, countDone]
    by_cases same : urb = td.urb
    · subst same
      rw [Function.update_self, Function.update_self, Function.update_self, inv.base.one linked (inv.base.listed member)]
      exact holds
    · rw [Function.update_of_ne same, Function.update_of_ne same, Function.update_of_ne same]
      exact inv.each linked
  · intro e' first others there td' later different
    by_cases here : e' = e
    · subst here
      rw [moves.tdList] at there
      exact all td' (by rw [there]; exact List.mem_cons_of_mem _ later)
    · rw [moves.others e' here] at there
      have elsewhere : td'.urb ≠ td.urb := inv.base.apart here member (by rw [there]; exact List.mem_cons_of_mem _ later)
      rw [books.urbs, Function.update_of_ne elsewhere]
      exact inv.ahead there td' later different
  · obtain ⟨status, reports⟩ := books.reports
    rw [reports, moves.linked]
    intro r there
    rcases List.mem_append.mp there with before | now
    · obtain ⟨within, e', tdCnt, linked, given⟩ := inv.reports r before
      exact ⟨within, e', tdCnt, linked, by rwa [moves.pipes]⟩
    · cases reported with
      | false => exact absurd now (by simp)
      | true =>
        rw [if_pos rfl, List.mem_singleton] at now
        rw [now]
        exact ⟨checked, e, _, inv.base.listed member, by rwa [moves.pipes]⟩
  · rw [moves.tdList]
    exact all

/-- A URB some TD of which is still on the list is given back. -/
theorem Inv.reportAgain (inv : Inv P s) (member : td ∈ (s.ep e).tdList) (checked : Within (s.urbs td.urb)) (ret : Bool) (status : Int) :
    Inv P (s.cleanup e ret td status).1 := by
  cases ret with
  | false => exact inv
  | true =>
    refine ⟨⟨inv.base.aligned, inv.base.listed, inv.base.one, inv.base.measured⟩, inv.each, inv.ahead, ?_⟩
    intro r there
    rcases List.mem_append.mp there with before | now
    · exact inv.reports r before
    · rw [List.mem_singleton.mp now]
      exact ⟨checked, e, _, inv.base.listed member, inv.each (inv.base.listed member)⟩

/-! ### Events -/

theorem frames_processCtrlTd {r : Ring} {eventTrb : TrbPtr} {epState : Nat} {lengthSet : Bool} {u : Urb} {status : Int} :
    (processCtrlTd r td eventTrb event epState lengthSet u status).urb.isoFrameDesc = u.isoFrameDesc := by
  unfold processCtrlTd
  dsimp only
  split_ifs <;> rfl

theorem frames_processBulkIntrTd {r : Ring} {eventTrb : TrbPtr} {u : Urb} {status : Int} :
    (processBulkIntrTd r td eventTrb event u status).1.isoFrameDesc = u.isoFrameDesc := by
  unfold processBulkIntrTd
  dsimp only
  split_ifs <;> rfl

theorem lengths_processIsocTd {trust : Bool} {r : Ring} {eventTrb : TrbPtr} {idx : Nat} {u : Urb} :
    (processIsocTd trust r td eventTrb event idx u).1.isoFrameDesc.map Frame.length = u.isoFrameDesc.map Frame.length := by
  obtain ⟨status, ⟨eq, -⟩ | ⟨len, eq, -⟩⟩ := processIsocTd_cases trust r td eventTrb event idx u
  · rw [eq, lengths_setFrameStatus]
  · rw [eq, lengths_addFrame, lengths_setFrameStatus]

/-- Only isochronous TDs have frames. -/
theorem frames_processTd (others : (s.ep e).pipe ≠ .isoc) (eventTrb : TrbPtr) (status : Int) :
    (s.processTd e td eventTrb event env status).urb.isoFrameDesc = (s.urbs td.urb).isoFrameDesc ∧
      s.notedFrames e td eventTrb event env = s.tdFrames td.urb := by
  rw [State.processTd, State.notedFrames]
  cases is_pipe : (s.ep e).pipe with
  | control => exact ⟨frames_processCtrlTd, rfl⟩
  | isoc => exact absurd is_pipe others
  | bulkIntr => exact ⟨frames_processBulkIntrTd, rfl⟩

theorem processTd_isoc (td : Td) (event : Event) (env : TxEnv) (isoc : (s.ep e).pipe = .isoc) (eventTrb : TrbPtr) (status : Int) :
    ((s.processTd e td eventTrb event env status).urb, (s.processTd e td eventTrb event env status).finish) =
      processIsocTd env.trustTxLength (s.ep e).ring td eventTrb event (s.urbPriv td.urb).tdCnt (s.urbs td.urb) := by
  rw [State.processTd, isoc]

theorem lengths_processTd (td : Td) (eventTrb : TrbPtr) (event : Event) (env : TxEnv) (status : Int) :
    (s.processTd e td eventTrb event env status).urb.isoFrameDesc.map Frame.length = (s.urbs td.urb).isoFrameDesc.map Frame.length := by
  by_cases isoc : (s.ep e).pipe = .isoc
  · have eq := congrArg Prod.fst (processTd_isoc td event env isoc eventTrb status)
    rw [show (s.processTd e td eventTrb event env status).urb = _ from eq]
    exact lengths_processIsocTd
  · rw [(frames_processTd isoc eventTrb status).1]

/-- What an event has to keep of `P`, when it comes while the endpoint is `ep`: it may pass
    TDs, and be noted in a TD, which waits for more or is finished. -/
structure Keeps (P : Pipe → Urb → List Frame → Nat → Prop) (ep : Ep) (e : EpId) (event : Event) (env : TxEnv) : Prop where
  missed : ∀ {u frames idx} status, P .isoc u frames idx →
    P .isoc (checkLength { u with isoFrameDesc := Lengths.State.missed idx u.isoFrameDesc } status).1
      (Lengths.State.missed idx frames) (idx + 1)
  found : ∀ {s : State} {td rest eventTrb} status, Base s → (s.ep e).tdList = td :: rest → (s.ep e).pipe = ep.pipe →
    Transfer.eventTrb ep event.buffer = some (td, (s.ep e).ring, eventTrb) → ((s.ep e).ring.trb eventTrb).isNoop = false →
    P ep.pipe (s.urbs td.urb) (s.tdFrames td.urb) (s.urbPriv td.urb).tdCnt →
      (((s.processTd e td eventTrb event env status).finish = true → event.code = compStopInval ∨ event.code = compStop) →
        P ep.pipe (s.processTd e td eventTrb event env status).urb (s.notedFrames e td eventTrb event env) (s.urbPriv td.urb).tdCnt) ∧
      (¬(event.code = compStopInval ∨ event.code = compStop) → (s.processTd e td eventTrb event env status).finish = true →
        ∀ status', P ep.pipe (checkLength (s.processTd e td eventTrb event env status).urb status').1
          (s.notedFrames e td eventTrb event env) ((s.urbPriv td.urb).tdCnt + 1))

/-- What holds in the loop of an event that has come while the endpoint was `ep`. -/
structure Looping (P : Pipe → Urb → List Frame → Nat → Prop) (ep : Ep) (e : EpId) (event : Event) (ret : Bool) (s : State) : Prop where
  inv : Inv P s
  checked : ret = true → ∀ td ∈ (s.ep e).tdList, Within (s.urbs td.urb)
  pipe : (s.ep e).pipe = ep.pipe
  same : ∀ {found}, eventTrb (s.ep e) event.buffer = some found → eventTrb ep event.buffer = some found

theorem Inv.complete (inv : Inv P s) {ep : Ep} (keeps : Keeps P ep e event env) (is_list : (s.ep e).tdList = td :: rest)
    (pipe : (s.ep e).pipe = ep.pipe) {eventTrb : TrbPtr}
    (is_trb : Transfer.eventTrb ep event.buffer = some (td, (s.ep e).ring, eventTrb))
    (work : ((s.ep e).ring.trb eventTrb).isNoop = false) (status : Int) : Inv P (s.complete e td eventTrb event env status) := by
  have linked := inv.base.listed (show td ∈ (s.ep e).tdList by rw [is_list]; exact List.mem_cons_self)
  have before := inv.each linked
  have lengths := lengths_processTd (s := s) (e := e) td eventTrb event env status
  rw [pipe] at before
  obtain ⟨waits, ends⟩ := keeps.found status inv.base is_list pipe is_trb work before
  refine complete_step is_list eventTrb status ?_ ?_
  · intro s' moves books stays
    exact inv.kept is_list moves books lengths (pipe ▸ waits stays)
  · intro s' ret status' moves books going finish
    refine (inv.popped is_list moves books ?_ (checkLength_within _ _) (pipe ▸ ends going finish status')).1
    rw [checkLength_frames, lengths]

/-- A TD is passed. -/
theorem Looping.passMissed {ep : Ep} {ret : Bool} (looping : Looping P ep e event ret s) (keeps : Keeps P ep e event env)
    (is_list : (s.ep e).tdList = td :: rest) (skip : (s.ep e).skip = true) (isoc : (s.ep e).pipe = .isoc)
    (missed : trbInTd (s.ep e).ring td.lastTrb event.buffer = none) (status : Int) :
    Looping P ep e event (s.passMissed e td event env status).2.1 (s.passMissed e td event env status).1 := by
  obtain ⟨status', moves, books⟩ := passMissed_step event env is_list status
  have inv := looping.inv
  have linked := inv.base.listed (show td ∈ (s.ep e).tdList by rw [is_list]; exact List.mem_cons_self)
  have before := inv.each linked
  rw [isoc] at before
  obtain ⟨after, checked⟩ := inv.popped is_list moves books (by rw [checkLength_frames, lengths_missed])
    (checkLength_within _ _) (by rw [isoc, inv.base.index is_list]; exact keeps.missed status' before)
  refine ⟨after, fun _ => checked, moves.pipe.trans looping.pipe, ?_⟩
  intro found is_trb
  rw [(toState_passMissed status).1, ep_skipIsocTd, is_list, List.erase_cons_head, eventTrb_passed is_list ⟨skip, isoc⟩ missed]
    at is_trb
  exact looping.same is_trb

theorem Inv.txLoop (inv : Inv P s) {ep : Ep} (keeps : Keeps P ep e event env) (pipe : (s.ep e).pipe = ep.pipe)
    (same : eventTrb (s.ep e) event.buffer = eventTrb ep event.buffer) (code fuel tdNum : Nat) (status : Int) :
    Inv P (s.txLoop e event code env fuel tdNum false status) := by
  refine txLoop_carries (Looping P ep e event) (Inv P) ?_ ?_ ?_ ?_ ?_ ?_ fuel tdNum false status s ?_
  · exact fun _ _ looping => looping.inv
  · exact fun ret s looping => ⟨looping.inv, fun set => absurd set Bool.false_ne_true, looping.pipe, looping.same⟩
  · intro ret s skip short looping less
    have moves : Moves s.toState (s.setEp e { s.ep e with skip := skip, lastTdWasShort := short }).toState e (s.ep e).tdList s.urbPriv :=
      moves_setEp rfl rfl rfl
    refine ⟨looping.inv.still moves rfl rfl rfl, ?_, moves.pipe.trans looping.pipe, ?_⟩
    · intro set
      rw [moves.tdList]
      exact looping.checked set
    · intro found is_trb
      rw [toState_setEp, Transfer.State.ep_setEp] at is_trb
      exact looping.same (eventTrb_of_skip less is_trb)
  · exact fun ret s td rest status looping is_list skip isoc missed => looping.passMissed keeps is_list skip isoc missed status
  · exact fun ret s td rest eventTrb status looping is_list found work _ =>
      looping.inv.complete keeps is_list looping.pipe (looping.same (eventTrb_first is_list found)) work status
  · intro ret s td rest eventTrb status looping is_list found _
    have member : td ∈ (s.ep e).tdList := by
      rw [is_list]
      exact List.mem_cons_self
    cases ret with
    | false => exact looping.inv
    | true => exact looping.inv.reportAgain member (looping.checked rfl td member) true status
  · exact ⟨inv, fun set => absurd set Bool.false_ne_true, pipe, fun is_trb => same ▸ is_trb⟩

theorem Inv.handleTxEvent (inv : Inv P s) (keeps : Keeps P (s.ep e) e event env) : Inv P (s.handleTxEvent e event env) := by
  have stall : Inv P (noted s e event) := inv.still moves_noted rfl rfl rfl
  have same : eventTrb ((noted s e event).ep e) event.buffer = eventTrb (s.ep e) event.buffer := by
    rw [noted, Transfer.State.noteStall]
    split_ifs
    · rw [Transfer.State.ep_setEp]
      rfl
    · rfl
  rcases handleTxEvent_cases s e event env with is_state | is_state | is_state | ⟨code, tdNum, status, is_state⟩
  · rw [is_state]
    exact inv
  · rw [is_state]
    exact stall
  · rw [is_state]
    exact stall.still (moves_setEp rfl rfl rfl) rfl rfl rfl
  · rw [is_state]
    exact stall.txLoop keeps moves_noted.pipe same code _ tdNum status

/-! ### The other operations -/

/-- What queueing a URB changes. -/
structure Queued (s s' : State) (e : EpId) (urb : Nat) (data : Urb) (tds : List (TrbPtr × TrbPtr)) : Prop where
  lists : ∃ ring, s'.ep = (s.toState.setEp e { s.ep e with ring, tdList := (s.ep e).tdList ++ newTds urb tds }).ep
  urbPriv : s'.urbPriv = Function.update s.urbPriv urb ⟨0, tds.length⟩
  linked : s'.linked = s.linked ++ [(e, urb)]
  urbs : s'.urbs = Function.update s.urbs urb data
  tdFrames : s'.tdFrames = Function.update s.tdFrames urb data.isoFrameDesc
  reports : s'.reports = s.reports

theorem queueUrb_cases (s : State) (e : EpId) (urb : Nat) (data : Urb) (ring : Ring) (tds : List (TrbPtr × TrbPtr)) (submitted : Bool) :
    queueUrb s e urb data ring tds submitted = s ∨ Queued s (queueUrb s e urb data ring tds submitted) e urb data tds := by
  rw [Reported.queueUrb]
  by_cases dying : s.dying = true
  · rw [if_pos dying]
    exact .inl rfl
  · rw [if_neg dying, Transfer.State.enqueue, if_neg dying]
    exact .inr ⟨⟨ring, rfl⟩, rfl, rfl, rfl, rfl, rfl⟩

section
variable {urb : Nat} {tds : List (TrbPtr × TrbPtr)}

theorem Queued.pipes (queued : Queued s s' e urb data tds) (e' : EpId) : (s'.ep e').pipe = (s.ep e').pipe := by
  obtain ⟨ring, eps⟩ := queued.lists
  rw [eps]
  by_cases here : e' = e
  · rw [here, Transfer.State.ep_setEp]
  · rw [Transfer.State.ep_setEp_other _ here]

theorem Queued.others (queued : Queued s s' e urb data tds) {e' : EpId} (other : e' ≠ e) : s'.ep e' = s.ep e' := by
  obtain ⟨ring, eps⟩ := queued.lists
  rw [eps, Transfer.State.ep_setEp_other _ other]

theorem Queued.tdList (queued : Queued s s' e urb data tds) : (s'.ep e).tdList = (s.ep e).tdList ++ newTds urb tds := by
  obtain ⟨ring, eps⟩ := queued.lists
  rw [eps, Transfer.State.ep_setEp]

/-- The lists when a URB is queued. -/
theorem Base.queued (base : Base s) (queued : Queued s s' e urb data tds) (new : ∀ e', (e', urb) ∉ s.linked)
    (measured : Measured s' e) : Base s' := by
  have unlisted : ∀ e', own (s.ep e').tdList urb = [] :=
    fun e' => own_eq_nil.mpr fun td member mine => new e' (mine ▸ base.listed member)
  have lists : ∀ e' urb', own (s'.ep e').tdList urb' = if e' = e ∧ urb' = urb then newTds urb tds else own (s.ep e').tdList urb' := by
    obtain ⟨ring, eps⟩ := queued.lists
    rw [eps]
    exact fun e' urb' => (lists_queued unlisted e ring tds e' urb').1
  refine ⟨?_, ?_, ?_, ?_⟩
  · intro e' urb'
    rw [lists, queued.urbPriv]
    by_cases both : e' = e ∧ urb' = urb
    · rw [if_pos both, both.2, Function.update_self, index_newTds]
      simp [newTds]
    · rw [if_neg both]
      by_cases mine : urb' = urb
      · rw [mine, unlisted]
        rfl
      · rw [Function.update_of_ne mine]
        exact base.aligned e' urb'
  · intro e' td member
    have mine : td ∈ own (s'.ep e').tdList td.urb := mem_own.mpr ⟨member, rfl⟩
    rw [lists] at mine
    rw [queued.linked]
    by_cases both : e' = e ∧ td.urb = urb
    · rw [both.1, both.2]
      exact List.mem_append_right _ (List.mem_singleton.mpr rfl)
    · rw [if_neg both] at mine
      exact List.mem_append_left _ (base.listed (mem_own.mp mine).1)
  · intro e₁ e₂ urb' there there'
    rw [queued.linked, List.mem_append, List.mem_singleton, Prod.mk.injEq] at there there'
    rcases there with before | ⟨here, mine⟩
    · rcases there' with before' | ⟨_, mine⟩
      · exact base.one before before'
      · exact absurd (mine ▸ before) (new e₁)
    · rcases there' with before' | ⟨here', _⟩
      · exact absurd (mine ▸ before') (new e₂)
      · rw [here, here']
  · intro e'
    by_cases here : e' = e
    · rw [here]
      exact measured
    · intro isoc td member
      rw [queued.others here] at isoc member ⊢
      have notNew : td.urb ≠ urb := fun mine => new e' (mine ▸ base.listed member)
      rw [queued.urbs, Function.update_of_ne notNew]
      exact base.measured e' isoc td member

theorem Inv.queued (inv : Inv P s) (queued : Queued s s' e urb data tds) (new : ∀ e', (e', urb) ∉ s.linked) (unused : Unused data)
    (measured : Measured s' e) (begins : P (s.ep e).pipe data data.isoFrameDesc 0) : Inv P s' := by
  have known : ∀ {e' urb'}, (e', urb') ∈ s.linked → urb' ≠ urb := by
    rintro e' _ there rfl
    exact new e' there
  refine ⟨inv.base.queued queued new measured, ?_, ?_, ?_⟩
  · intro e' urb' there
    rw [queued.pipes, queued.urbs, queued.tdFrames, queued.urbPriv]
    rw [queued.linked, List.mem_append, List.mem_singleton, Prod.mk.injEq] at there
    rcases there with before | ⟨rfl, rfl⟩
    · rw [Function.update_of_ne (known before), Function.update_of_ne (known before), Function.update_of_ne (known before)]
      exact inv.each before
    · rw [Function.update_self, Function.update_self, Function.update_self]
      exact begins
  · intro e' first others there td later different
    rw [queued.urbs]
    by_cases mine : td.urb = urb
    · rw [mine, Function.update_self, Within, unused.1]
      exact BitVec.le_def.mpr (Nat.zero_le _)
    rw [Function.update_of_ne mine]
    by_cases here : e' = e
    · subst here
      have notNew : td ∉ newTds urb tds := fun member => mine (urb_newTds member)
      rw [queued.tdList] at there
      cases is_list : (s.ep e').tdList with
      | nil =>
        rw [is_list, List.nil_append] at there
        exact absurd (show td ∈ newTds urb tds by rw [there]; exact List.mem_cons_of_mem _ later) notNew
      | cons first' others' =>
        rw [is_list, List.cons_append, List.cons.injEq] at there
        obtain ⟨rfl, rfl⟩ := there
        exact inv.ahead is_list td ((List.mem_append.mp later).resolve_right notNew) different
    · rw [queued.others here] at there
      exact inv.ahead there td later different
  · rw [queued.reports, queued.linked]
    intro r member
    obtain ⟨within, e', tdCnt, linked, given⟩ := inv.reports r member
    exact ⟨within, e', tdCnt, List.mem_append_left _ linked, by rwa [queued.pipes]⟩

end

/-- The ring is another one, or has been written to. -/
theorem Inv.moveRing (inv : Inv P s) {ring : Ring} (measured : Measured (s.setEp e { s.ep e with ring }) e) :
    Inv P (s.setEp e { s.ep e with ring }) := by
  have same : ∀ e', ((s.setEp e { s.ep e with ring }).ep e').tdList = (s.ep e').tdList ∧
      ((s.setEp e { s.ep e with ring }).ep e').pipe = (s.ep e').pipe := by
    intro e'
    rw [toState_setEp]
    by_cases here : e' = e
    · rw [here, Transfer.State.ep_setEp]
      exact ⟨rfl, rfl⟩
    · rw [Transfer.State.ep_setEp_other _ here]
      exact ⟨rfl, rfl⟩
  refine ⟨⟨?_, ?_, inv.base.one, ?_⟩, ?_, ?_, ?_⟩
  · intro e' urb
    rw [(same e').1]
    exact inv.base.aligned e' urb
  · intro e' td member
    rw [(same e').1] at member
    exact inv.base.listed member
  · intro e'
    by_cases here : e' = e
    · rw [here]
      exact measured
    · intro isoc td member
      rw [toState_setEp, Transfer.State.ep_setEp_other _ here] at isoc member ⊢
      exact inv.base.measured e' isoc td member
  · intro e' urb linked
    rw [(same e').2]
    exact inv.each linked
  · intro e' first others there
    rw [(same e').1] at there
    exact inv.ahead there
  · intro r member
    obtain ⟨within, e', tdCnt, linked, given⟩ := inv.reports r member
    exact ⟨within, e', tdCnt, linked, by rwa [(same e').2]⟩

/-- The TDs of a URB leave the lists. -/
theorem Inv.remove (inv : Inv P s) (urb : Nat) (cancelled : List Td) :
    Inv P (s.setEp e { s.ep e with tdList := others (s.ep e).tdList urb, cancelledTdList := cancelled }) := by
  set s' := s.setEp e { s.ep e with tdList := others (s.ep e).tdList urb, cancelledTdList := cancelled } with is_state
  have here : s'.ep e = { s.ep e with tdList := others (s.ep e).tdList urb, cancelledTdList := cancelled } := by
    rw [is_state, toState_setEp, Transfer.State.ep_setEp]
  have elsewhere : ∀ {e'}, e' ≠ e → s'.ep e' = s.ep e' := fun other => by
    rw [is_state, toState_setEp, Transfer.State.ep_setEp_other _ other]
  have fewer : ∀ {td}, td ∈ others (s.ep e).tdList urb → td ∈ (s.ep e).tdList := fun member => (List.mem_filter.mp member).1
  have pipes : ∀ e', (s'.ep e').pipe = (s.ep e').pipe := by
    intro e'
    by_cases same : e' = e
    · rw [same, here]
    · rw [elsewhere same]
  refine ⟨⟨?_, ?_, inv.base.one, ?_⟩, ?_, ?_, ?_⟩
  · intro e' urb'
    by_cases same : e' = e
    · rw [same, here]
      dsimp only
      rw [own_others]
      split_ifs
      · rfl
      · exact inv.base.aligned e urb'
    · rw [elsewhere same]
      exact inv.base.aligned e' urb'
  · intro e' td member
    by_cases same : e' = e
    · rw [same, here] at member
      rw [same]
      exact inv.base.listed (fewer member)
    · rw [elsewhere same] at member
      exact inv.base.listed member
  · intro e' isoc td member
    by_cases same : e' = e
    · rw [same, here] at isoc member ⊢
      exact inv.base.measured e isoc td (fewer member)
    · rw [elsewhere same] at isoc member ⊢
      exact inv.base.measured e' isoc td member
  · intro e' urb' linked
    rw [pipes]
    exact inv.each linked
  · intro e' first rest there td later different
    by_cases same : e' = e
    · subst same
      rw [here] at there
      dsimp only at there
      have stays : ∀ {td}, td ∈ first :: rest → td ∈ (s.ep e').tdList ∧ td.urb ≠ urb := by
        intro td member
        rw [← there] at member
        have kept := List.mem_filter.mp member
        exact ⟨kept.1, by simpa using kept.2⟩
      obtain ⟨member, notMine⟩ := stays (List.mem_cons_of_mem _ later)
      cases is_list : (s.ep e').tdList with
      | nil => exact absurd (is_list ▸ member) List.not_mem_nil
      | cons first' rest' =>
        -- The first TD either stays the first one, or is one of the URB that leaves.
        by_cases leaves : first'.urb = urb
        · rw [is_list] at member
          rcases List.mem_cons.mp member with rfl | behind
          · exact absurd leaves notMine
          · exact inv.ahead is_list td behind fun of_first => notMine (of_first.trans leaves)
        · rw [is_list, others, List.filter_cons_of_pos (by simpa using leaves), List.cons.injEq] at there
          obtain ⟨rfl, is_rest⟩ := there
          exact inv.ahead is_list td (List.mem_filter.mp (is_rest ▸ later)).1 different
    · rw [elsewhere same] at there
      exact inv.ahead there td later different
  · intro r member
    obtain ⟨within, e', tdCnt, linked, given⟩ := inv.reports r member
    exact ⟨within, e', tdCnt, linked, by rwa [pipes]⟩

/-! ### Runs -/

theorem inv_new (new : New s) : Inv P s := by
  obtain ⟨⟨idle, -, linked, -⟩, reports⟩ := new
  have empty := fun e => (idle e).1
  refine ⟨⟨?_, ?_, ?_, ?_⟩, ?_, ?_, ?_⟩
  · intro e urb
    rw [empty]
    rfl
  · intro e td member
    rw [empty] at member
    exact absurd member List.not_mem_nil
  · intro e e' urb there
    rw [linked] at there
    exact absurd there List.not_mem_nil
  · intro e _ td member
    rw [empty] at member
    exact absurd member List.not_mem_nil
  · intro e urb there
    rw [linked] at there
    exact absurd there List.not_mem_nil
  · intro e td rest is_list
    rw [empty] at is_list
    exact absurd is_list (by simp)
  · intro r member
    rw [reports] at member
    exact absurd member List.not_mem_nil

/-- An operation keeps what it begins with for a new URB and its events keep. -/
theorem Inv.step (inv : Inv P s) {op : Op} (allowed : op.Allowed s)
    (begins : ∀ {e urb data ring tds submitted}, op = .enqueue e urb data ring tds submitted → P (s.ep e).pipe data data.isoFrameDesc 0)
    (keeps : ∀ {e event env}, op = .txEvent e event env → Keeps P (s.ep e) e event env) : Inv P (step s op) := by
  cases op with
  | enqueue e urb data ring tds submitted =>
    obtain ⟨new, unused, measured⟩ := allowed
    rw [Reported.step]
    rcases queueUrb_cases s e urb data ring tds submitted with same | queued
    · rw [same]
      exact inv
    · exact inv.queued queued new unused measured (begins rfl)
  | txEvent e event env => exact inv.handleTxEvent (keeps rfl)
  | moveRing e ring => exact inv.moveRing allowed
  | remove e urb => exact inv.remove urb _

theorem Reachable.invariant {condition : State → Op → Prop} (reachable : Reachable condition s)
    (begins : ∀ {s e urb data ring tds submitted}, Op.Allowed s (.enqueue e urb data ring tds submitted) →
      condition s (.enqueue e urb data ring tds submitted) → P (s.ep e).pipe data data.isoFrameDesc 0)
    (keeps : ∀ {s e event env}, condition s (.txEvent e event env) → Keeps P (s.ep e) e event env) : Inv P s := by
  refine Run.Reachable.invariant (P := Inv P) (fun _ new => inv_new new) ?_ reachable
  rintro s op inv ⟨allowed, holds⟩
  refine inv.step allowed ?_ ?_
  · rintro e urb data ring tds submitted rfl
    exact begins allowed holds
  · rintro e event env rfl
    exact keeps holds

/-- No URB is given back longer than its buffer, whatever the events say. -/
theorem total_bounded {condition : State → Op → Prop} (reachable : Reachable condition s) : ∀ r ∈ s.reports, Within r.given := by
  have inv : Inv (fun _ _ _ _ => True) s := by
    refine reachable.invariant (fun _ _ => trivial) fun _ => ⟨fun _ _ => trivial, ?_⟩
    exact fun _ _ _ _ _ _ _ => ⟨fun _ => trivial, fun _ _ _ => trivial⟩
  exact fun r member => (inv.reports r member).1

/-! ### Lengths that the events fit -/

theorem InFrame.congr {u u' : Urb} (inFrame : InFrame u) (same : u'.isoFrameDesc = u.isoFrameDesc) : InFrame u' := by
  rw [InFrame, same]
  exact inFrame

theorem InFrame.missed {u : Urb} (inFrame : InFrame u) (idx : Nat) :
    InFrame { u with isoFrameDesc := Lengths.State.missed idx u.isoFrameDesc } := by
  intro f member
  rcases mem_modify member with before | ⟨g, _, rfl⟩
  · exact inFrame f before
  · exact BitVec.le_def.mpr (Nat.zero_le _)

theorem keeps_inFrame (honest : Honest s (.txEvent e event env)) : Keeps (fun _ u _ _ => InFrame u) (s.ep e) e event env := by
  refine ⟨fun status inFrame => (inFrame.missed _).congr (checkLength_frames _ status), ?_⟩
  intro s' td rest p status base is_list pipe is_trb work inFrame
  have kept : InFrame (s'.processTd e td p event env status).urb := by
    by_cases isoc : (s'.ep e).pipe = .isoc
    · have eq := processTd_isoc td event env isoc p status
      obtain ⟨frameStatus, ⟨is_urb, -⟩ | ⟨len, is_urb, is_len⟩⟩ := processIsocTd_cases env.trustTxLength (s'.ep e).ring td p event
        (s'.urbPriv td.urb).tdCnt (s'.urbs td.urb)
      · rw [← eq] at is_urb
        rw [show (s'.processTd e td p event env status).urb = _ from is_urb]
        exact inFrame.setFrameStatus _
      · rw [← eq] at is_urb
        rw [(Prod.mk.inj is_urb).1]
        refine (inFrame.setFrameStatus _).addFrame ?_
        rw [frameLength_of_lengths (lengths_setFrameStatus _ _ _)]
        rcases is_len with ⟨rfl, -⟩ | ⟨counted, rfl⟩
        · exact BitVec.le_refl _
        · rcases honest (pipe.symm.trans isoc) counted _ is_trb with isNoop | ⟨own, residual⟩
          · rw [work] at isNoop
            exact absurd isNoop Bool.false_ne_true
          · exact (base.counted_le event is_list isoc own residual).2
    · exact inFrame.congr (frames_processTd isoc p status).1
  exact ⟨fun _ => kept, fun _ _ status' => kept.congr (checkLength_frames _ status')⟩

/-- A URB is given back no longer than its buffer and its frames no longer than they asked for,
    in every run whose events fit the TRBs on the ring. -/
theorem reports_bounded (reachable : Reachable Honest s) : ∀ r ∈ s.reports, Bounded r.given := by
  have inv : Inv (fun _ u _ _ => InFrame u) s := by
    refine reachable.invariant (fun allowed _ f member => ?_) fun honest => keeps_inFrame honest
    rw [allowed.2.1.2 f member]
    exact BitVec.le_def.mpr (Nat.zero_le _)
  intro r member
  obtain ⟨checked, _, _, _, inFrame⟩ := inv.reports r member
  exact ⟨checked, inFrame⟩

end

/-! ### A URB of one frame -/

def idleFrames : State := ⟨idleIsoc, fun _ => ⟨0, 0, false, []⟩, fun _ => false, fun _ => [], []⟩

theorem idleFrames_new : New idleFrames := ⟨idleIsoc_new, rfl⟩

/-- A TD of one TRB for a frame of 100 bytes. -/
def oneFrame (transferBufferLength : BitVec 32) : Op :=
  .enqueue (1, 2) 7 ⟨transferBufferLength, 0, false, [⟨100, 0, 0⟩]⟩ (Isoc.isocRing.queueTd ⟨false, false⟩ ⟨0, 0, 100, 0x1420⟩ [] fun _ => .accepted)
    [(⟨0x1000, 0⟩, ⟨0x1000, 0⟩)] true

def frameEvent (code trbLen : Nat) : Op := .txEvent (1, 2) ⟨code, 0x1000, trbLen⟩ ⟨1, false, false, true, 0, ⟨0x1000, true, true, 0⟩⟩

instance instDecidableMeasured (s : State) (e : EpId) : Decidable (Measured s e) := inferInstanceAs (Decidable (_ → _))

instance instDecidableUnused (u : Urb) : Decidable (Unused u) := inferInstanceAs (Decidable (_ ∧ _))

instance instDecidableAllowed (s : State) : (op : Op) → Decidable (op.Allowed s)
  | .enqueue _ urb _ _ _ _ =>
    decidable_of_iff (urb ∉ s.linked.map Prod.snd ∧ _ ∧ _) <| and_congr_left fun _ =>
      ⟨fun new _ there => new (List.mem_map_of_mem there), fun new listed => by
        obtain ⟨⟨e, _⟩, there, rfl⟩ := List.mem_map.mp listed
        exact new e there⟩
  | .moveRing .. => inferInstanceAs (Decidable (Measured _ _))
  | .txEvent .. | .remove .. => .isTrue trivial

instance instDecidableFits (event : Event) : (found : Td × Ring × TrbPtr) → Decidable (Fits event found)
  | (_, _, _) => inferInstanceAs (Decidable (_ ∨ _ ∧ _))

instance instDecidableHonest (s : State) : (op : Op) → Decidable (Honest s op)
  | .txEvent e event _ => inferInstanceAs (Decidable (_ → _ → ∀ found ∈ eventTrb (s.ep e) event.buffer, Fits event found))
  | .enqueue .. | .moveRing .. | .remove .. => .isTrue trivial

/-- The controller says that 40 of the 100 bytes are missing. -/
theorem reports_bounded_short :
    (([oneFrame 100, frameEvent compShortTx 40].foldl step idleFrames).reports.map fun r => r.given) =
        [⟨100, 60, false, [⟨100, 60, 0⟩]⟩] ∧
      ∀ r ∈ ([oneFrame 100, frameEvent compShortTx 40].foldl step idleFrames).reports, Bounded r.given := by
  have reachable : Reachable Honest ([oneFrame 100, frameEvent compShortTx 40].foldl step idleFrames) :=
    (Run.Reachable.first idleFrames_new).all (by decide +kernel)
  exact ⟨by decide +kernel, reports_bounded reachable⟩

/-- The controller says that 200 of the 100 bytes are missing. -/
theorem not_reports_bounded : ¬∀ s, Reachable (fun _ _ => True) s → ∀ r ∈ s.reports, Bounded r.given := by
  intro bounded
  have reachable : Reachable (fun _ _ => True) ([oneFrame 100, frameEvent compShortTx 200].foldl step idleFrames) :=
    (Run.Reachable.first idleFrames_new).all (by decide +kernel)
  have given : (([oneFrame 100, frameEvent compShortTx 200].foldl step idleFrames).reports.map Report.given) =
      [⟨100, 0, false, [⟨100, 4294967196, 0⟩]⟩] := by decide +kernel
  have mem : (⟨100, 0, false, [⟨100, 4294967196, 0⟩]⟩ : Urb) ∈
      ([oneFrame 100, frameEvent compShortTx 200].foldl step idleFrames).reports.map Report.given := by
    rw [given]
    exact List.mem_cons_self
  obtain ⟨r, member, is_given⟩ := List.mem_map.mp mem
  have inFrame := (bounded _ reachable r member).frames ⟨100, 4294967196, 0⟩ (by rw [is_given]; exact List.mem_cons_self)
  exact absurd inFrame (by decide)

end Ehub.Reported
