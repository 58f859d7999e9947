import Mathlib
import Ehub.Reported

/-!
The length of an isochronous URB and the lengths of its frames. Every event that is noted
in a frame adds the frame's length to that of the URB, and sets that of the frame: as long
as the length of the frame was 0 before, the length of the URB stays the sum of those of
its frames (`Accounts`). A TD is finished by one event, so this holds but for TDs that are
stopped and completed later: what a stopped TD had transferred is added twice.

The frame is the one that `td_cnt` says, which is that of the first TD on the list
(`Base.index`).
-/
namespace Ehub.FrameAccount
open Ehub.Ring Ehub.Segments Ehub.Cancel Ehub.Giveback Ehub.Lengths Ehub.Reported
open Ehub.Transfer hiding State Op New Reachable

/-- The bytes that the frames have got. -/
def gotten (frames : List Frame) : Nat := (frames.map fun f => f.actualLength.toNat).sum

/-- The bytes that the frames ask for. -/
def asked (frames : List Frame) : Nat := (frames.map fun f => f.length.toNat).sum

/-- The frames of the TDs that are not done have got nothing. -/
structure Accounts (u : Urb) (frames : List Frame) (tdCnt : Nat) : Prop where
  total : u.actualLength.toNat = gotten u.isoFrameDesc
  own : u.isoFrameDesc = frames
  left : ∀ {i f}, tdCnt ≤ i → u.isoFrameDesc[i]? = some f → f.actualLength = 0
  inFrame : InFrame u
  fits : asked u.isoFrameDesc ≤ u.transferBufferLength.toNat

/-- The condition that frames of an isochronous URB fit its buffer, and that events are for
    TDs in the order of the ring, with residuals that are not larger than their TRBs. -/
def InOrder (s : State) : Op → Prop
  | .enqueue e _ data _ _ _ => (s.ep e).pipe = .isoc → asked data.isoFrameDesc ≤ data.transferBufferLength.toNat
  | .txEvent e event env => (s.ep e).pipe = .isoc → Counted event env.trustTxLength →
      ∀ found ∈ eventTrb (s.ep e) event.buffer, (found.2.1.trb found.2.2).isNoop = true ∨
        ((passed found.2.1 found.2.2).Sublist (trbsOf found.2.1 found.1) ∧
          (eventTrbLen event).toNat ≤ (lenAt found.2.1 found.2.2).toNat)
  | _ => True

/-- An isochronous TD is only stopped while nothing of it has been transferred. -/
def StoppedUnused (s : State) : Op → Prop
  | .txEvent e event _ => (s.ep e).pipe = .isoc → event.code = compStop →
      ∀ found ∈ eventTrb (s.ep e) event.buffer, (found.2.1.trb found.2.2).isNoop = true ∨
        (eventTrbLen event).toNat = bytes found.2.1 (passed found.2.1 found.2.2)
  | _ => True

/-- The length of a URB that is given back is the sum of those of its frames, each of which
    is as the events for its TD have left it. -/
structure Accounted (r : Report) : Prop where
  total : r.given.actualLength.toNat = gotten r.given.isoFrameDesc
  own : r.given.isoFrameDesc = r.tdFrames

section
variable {u : Urb} {frames : List Frame} {idx : Nat}

theorem gotten_le (inFrame : InFrame u) : gotten u.isoFrameDesc ≤ asked u.isoFrameDesc :=
  List.sum_le_sum fun f member => BitVec.le_def.mp (inFrame f member)

theorem Accounts.within (accounts : Accounts u frames idx) : Within u := by
  have := gotten_le accounts.inFrame
  have := accounts.total
  have := accounts.fits
  exact BitVec.le_def.mpr (by omega)

/-- The length that `finish_td` checks needs no correction. -/
theorem Accounts.checkLength (accounts : Accounts u frames idx) (status : Int) : (checkLength u status).1 = u := by
  rw [Lengths.checkLength, if_neg (BitVec.not_lt.mpr accounts.within)]

/-- A length is written to the next frame, and added to that of the URB. -/
theorem Accounts.write (accounts : Accounts u frames idx) (g : Frame → Frame) (same : ∀ f, (g f).length = f.length)
    (len : BitVec 32) (writes : ∀ f, u.isoFrameDesc[idx]? = some f → (g f).actualLength = len) (le : len ≤ u.frameLength idx)
    {next : Nat} (is_next : next = idx + 1 ∨ next = idx ∧ len = 0) :
    Accounts { u with isoFrameDesc := u.isoFrameDesc.modify idx g, actualLength := u.actualLength + len }
      (u.isoFrameDesc.modify idx g) next := by
  have inFrame : ∀ f ∈ u.isoFrameDesc.modify idx g, f.actualLength ≤ f.length := by
    intro f member
    rcases mem_modify member with before | ⟨f', here, rfl⟩
    · exact accounts.inFrame f before
    · rw [writes f' here, same, ← frameLength_some here]
      exact le
  have sum : gotten (u.isoFrameDesc.modify idx g) = gotten u.isoFrameDesc + len.toNat := by
    apply sum_modify
    · intro f here
      rw [accounts.left le_rfl here, writes f here]
      exact ⟨rfl, rfl⟩
    · intro beyond
      rw [Urb.frameLength, beyond] at le
      exact Nat.le_zero.mp (BitVec.le_def.mp le)
  have lengths : asked (u.isoFrameDesc.modify idx g) = asked u.isoFrameDesc := by
    rw [asked, map_modify (fun f : Frame => f.length.toNat) fun f => by rw [same]]
    rfl
  refine ⟨?_, rfl, ?_, inFrame, ?_⟩
  · have bound : gotten (u.isoFrameDesc.modify idx g) ≤ asked (u.isoFrameDesc.modify idx g) :=
      gotten_le (u := { u with isoFrameDesc := u.isoFrameDesc.modify idx g }) inFrame
    have := accounts.fits
    have := accounts.total
    have := u.transferBufferLength.isLt
    rw [BitVec.toNat_add, Nat.mod_eq_of_lt (by omega), accounts.total]
    exact sum.symm
  · intro i f le_i here
    rw [List.getElem?_modify] at here
    obtain ⟨f', before, rfl⟩ := Option.map_eq_some_iff.mp here
    by_cases this_one : idx = i
    · subst this_one
      rcases is_next with is_next | ⟨-, zero⟩
      · omega
      · rw [if_pos rfl, writes f' before, zero]
    · rw [if_neg this_one]
      exact accounts.left (by omega) before
  · rw [lengths]
    exact accounts.fits

theorem Accounts.setFrameStatus (accounts : Accounts u frames idx) (status : Int) :
    Accounts (u.setFrameStatus idx status) (u.setFrameStatus idx status).isoFrameDesc idx := by
  have written := accounts.write (fun frame => { frame with status }) (fun _ => rfl) 0
    (fun f here => show f.actualLength = 0 from accounts.left le_rfl here) (BitVec.le_def.mpr (Nat.zero_le _)) (.inr ⟨rfl, rfl⟩)
  rw [show u.actualLength + 0 = u.actualLength from add_zero _] at written
  exact written

theorem Accounts.addFrame (accounts : Accounts u frames idx) {len : BitVec 32} (le : len ≤ u.frameLength idx) {next : Nat}
    (is_next : next = idx + 1 ∨ next = idx ∧ len = 0) : Accounts (u.addFrame idx len) (u.addFrame idx len).isoFrameDesc next :=
  accounts.write (fun frame => { frame with actualLength := len }) (fun _ => rfl) len (fun _ _ => rfl) le is_next

theorem Accounts.missed (accounts : Accounts u frames idx) :
    Accounts { u with isoFrameDesc := Lengths.State.missed idx u.isoFrameDesc } (Lengths.State.missed idx frames) (idx + 1) := by
  have written := accounts.write (fun frame => { frame with status := -eXDEV, actualLength := 0 }) (fun _ => rfl) 0
    (fun _ _ => rfl) (BitVec.le_def.mpr (Nat.zero_le _)) (.inl rfl)
  rw [show u.actualLength + 0 = u.actualLength from add_zero _] at written
  rw [← accounts.own]
  exact written

end

section
variable {s : State} {e : EpId} {event : Event} {env : TxEnv}

/-- An event for a frame keeps the account: it writes the frame once, and only when it
    finishes the TD can the length not be 0. -/
theorem keeps_accounts (inOrder : InOrder s (.txEvent e event env)) (unused : StoppedUnused s (.txEvent e event env)) :
    Keeps (fun pipe u frames tdCnt => pipe = .isoc → Accounts u frames tdCnt) (s.ep e) e event env := by
  constructor
  · intro u frames idx status accounts isoc
    have missed := (accounts isoc).missed
    rw [missed.checkLength]
    exact missed
  intro s' td rest p status base is_list pipe is_trb work accounts
  by_cases isoc : (s'.ep e).pipe = .isoc
  swap
  · exact ⟨fun _ here => absurd (pipe.trans here) isoc, fun _ _ _ here => absurd (pipe.trans here) isoc⟩
  have before := accounts (pipe.symm.trans isoc)
  have eq := processTd_isoc td event env isoc p status
  -- Both are noted in the same frame.
  have noted : s'.notedFrames e td p event env = (s'.processTd e td p event env status).urb.isoFrameDesc := by
    rw [State.notedFrames, isoc]
    dsimp only
    rw [← before.own, base.index is_list, ← eq]
  rw [noted]
  obtain ⟨frameStatus, ⟨is_urb, stays⟩ | ⟨len, is_urb, is_len⟩⟩ := processIsocTd_cases env.trustTxLength (s'.ep e).ring td p event
    (s'.urbPriv td.urb).tdCnt (s'.urbs td.urb)
  · rw [← eq] at is_urb stays
    rw [show (s'.processTd e td p event env status).urb = _ from is_urb]
    exact ⟨fun _ _ => before.setFrameStatus frameStatus, fun going finish => absurd (.inl (stays finish)) going⟩
  rw [← eq] at is_urb
  obtain ⟨is_urb, finish⟩ := Prod.mk.inj is_urb
  rw [is_urb]
  have noted := before.setFrameStatus frameStatus
  have fits : len ≤ ((s'.urbs td.urb).setFrameStatus (s'.urbPriv td.urb).tdCnt frameStatus).frameLength (s'.urbPriv td.urb).tdCnt ∧
      (event.code = compStop → len = 0) := by
    rw [frameLength_of_lengths (lengths_setFrameStatus _ _ _)]
    rcases is_len with ⟨rfl, going⟩ | ⟨counted, rfl⟩
    · exact ⟨BitVec.le_refl _, fun stop => absurd (.inr stop) going⟩
    · rcases inOrder (pipe.symm.trans isoc) counted _ is_trb with isNoop | ⟨own, residual⟩
      · rw [work] at isNoop
        exact absurd isNoop Bool.false_ne_true
      · have trb : (lenAt (s'.ep e).ring p).toNat ≤ bytes (s'.ep e).ring (passed (s'.ep e).ring p) := by
          rw [passed, bytes_append]
          simp [bytes]
        obtain ⟨is_len, le⟩ := base.counted_le event is_list isoc own (residual.trans trb)
        refine ⟨le, fun stop => ?_⟩
        rcases unused (pipe.symm.trans isoc) stop _ is_trb with isNoop | all
        · rw [work] at isNoop
          exact absurd isNoop Bool.false_ne_true
        · apply BitVec.eq_of_toNat_eq
          rw [is_len, all, Nat.sub_self]
          rfl
  constructor
  · intro stays _
    rcases stays finish with inval | stop
    · rcases is_len with ⟨-, going⟩ | ⟨counted, -⟩
      · exact absurd (.inl inval) going
      · exact absurd inval counted.2
    · exact noted.addFrame fits.1 (.inr ⟨rfl, fits.2 stop⟩)
  · intro _ _ status' _
    have added := noted.addFrame fits.1 (.inl rfl)
    rw [added.checkLength]
    exact added

/-- The length of an isochronous URB that is given back is the sum of those of its frames, and
    these are as their own TDs' events say, in every run in which no TD is stopped after something of
    it has been transferred. -/
theorem reports_accounted (reachable : Reachable (fun s op => InOrder s op ∧ StoppedUnused s op) s) :
    ∀ r ∈ s.reports, ∀ e, (e, r.urb) ∈ s.linked → (s.ep e).pipe = .isoc → Accounted r := by
  have inv : Inv (fun pipe u frames tdCnt => pipe = .isoc → Accounts u frames tdCnt) s := by
    refine reachable.invariant ?_ fun holds => keeps_accounts holds.1 holds.2
    intro s e urb data ring tds submitted allowed holds isoc
    obtain ⟨-, ⟨zero, frames⟩, -⟩ := allowed
    refine ⟨?_, rfl, ?_, ?_, holds.1 isoc⟩
    · rw [zero]
      refine (List.sum_eq_zero fun n member => ?_).symm
      obtain ⟨f, there, rfl⟩ := List.mem_map.mp member
      rw [frames f there]
      rfl
    · exact fun _ here => frames _ (List.mem_of_getElem? here)
    · intro f member
      rw [frames f member]
      exact BitVec.le_def.mpr (Nat.zero_le _)
  intro r member e linked isoc
  obtain ⟨-, e', tdCnt, linked', accounts⟩ := inv.reports r member
  rw [inv.base.one linked' linked] at accounts
  exact ⟨(accounts isoc).total, (accounts isoc).own⟩

end

instance instDecidableInOrder (s : State) : (op : Op) → Decidable (InOrder s op)
  | .enqueue .. => inferInstanceAs (Decidable (_ → _))
  | .txEvent e event _ => inferInstanceAs (Decidable (_ → _ → ∀ found ∈ eventTrb (s.ep e) event.buffer, _ ∨ _ ∧ _))
  | .moveRing .. | .remove .. => .isTrue trivial

instance instDecidableStoppedUnused (s : State) : (op : Op) → Decidable (StoppedUnused s op)
  | .txEvent e event _ => inferInstanceAs (Decidable (_ → _ → ∀ found ∈ eventTrb (s.ep e) event.buffer, _ ∨ _))
  | .enqueue .. | .moveRing .. | .remove .. => .isTrue trivial

/-- The TD of a frame of 100 bytes in a buffer of 200 is stopped before it has begun, and
    completed later. -/
def stoppedBefore : State :=
  [oneFrame 200, frameEvent compStop 100, frameEvent compShortTx 10].foldl step idleFrames

/-- It is stopped when 60 bytes have been transferred. -/
def stoppedAmid : State :=
  [oneFrame 200, frameEvent compStop 40, frameEvent compSuccess 0].foldl step idleFrames

theorem reports_accounted_stopped : stoppedBefore.reports = [⟨7, 0, ⟨200, 90, false, [⟨100, 90, 0⟩]⟩, [⟨100, 90, 0⟩]⟩] ∧
    ∀ r ∈ stoppedBefore.reports, ∀ e, (e, r.urb) ∈ stoppedBefore.linked → (stoppedBefore.ep e).pipe = .isoc → Accounted r := by
  have reachable : Reachable (fun s op => InOrder s op ∧ StoppedUnused s op) stoppedBefore :=
    (Run.Reachable.first idleFrames_new).all (by decide +kernel)
  exact ⟨by decide +kernel, reports_accounted reachable⟩

/-- The URB is given back with 160 bytes, and its frame with 100. -/
theorem not_reports_accounted : ¬∀ s, Reachable InOrder s → ∀ r ∈ s.reports, ∀ e, (e, r.urb) ∈ s.linked →
    (s.ep e).pipe = .isoc → Accounted r := by
  intro accounted
  have reachable : Reachable InOrder stoppedAmid := (Run.Reachable.first idleFrames_new).all (by decide +kernel)
  have given : stoppedAmid.reports = [⟨7, 0, ⟨200, 160, false, [⟨100, 100, 0⟩]⟩, [⟨100, 100, 0⟩]⟩] := by decide +kernel
  have total := (accounted _ reachable _ (by rw [given]; exact List.mem_cons_self) (1, 2) (by decide +kernel) (by decide +kernel)).total
  exact absurd total (by decide)

end Ehub.FrameAccount
