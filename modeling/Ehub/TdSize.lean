import Mathlib
import Ehub.IsocSplit

/-!
The TD size that the controller finds in a TRB (`xhci_v1_0_td_remainder`): how many packets
of the TD are left behind this TRB. The callers count the packets of the whole TD, and
the function those up to the TRB. For bulk and interrupt transfers the first number is
made with all of `wMaxPacketSize` and the second with its low bits only; where the high
bits are set the two differ, unless both are large enough for the field to be full.
-/
namespace Ehub.TdSize
open Ehub.Cuts Ehub.Bulk Ehub.IsocSplit

/-- The total packet count of a frame. -/
def totalPackets (tdLen : BitVec 32) (maxp : BitVec 16) : BitVec 32 :=
  let count := (tdLen + getMaxPacket maxp - 1).sdiv (getMaxPacket maxp)
  if count = 0 then count + 1 else count

/-- The length words of the TRBs of a TD, of which `runningTotal` bytes are queued. -/
def lengthFields (hciVersion : BitVec 16) (maxp : BitVec 16) (tdLen totalPacketCount : BitVec 32) :
    BitVec 32 → List (BitVec 32) → List (BitVec 32)
  | _, [] => []
  | runningTotal, len :: lens =>
    let remainder :=
      if hciVersion < 0x100 then tdRemainder (tdLen - runningTotal)
      else v10TdRemainder runningTotal len totalPacketCount maxp (BitVec.ofNat 32 lens.length)
    (trbLen len ||| remainder) :: lengthFields hciVersion maxp tdLen totalPacketCount (runningTotal + len) lens

/-- What is queued: a bulk or interrupt transfer, or a frame of an isochronous URB. -/
inductive Job where
  | bulk (urb : Bulk.Urb)
  | isoc (urb : IsocSplit.Urb) (frame : Frame) (isocOut : Bool) (maxp : BitVec 16)

namespace Job

/-- `wMaxPacketSize` of the endpoint. -/
def maxp : Job → BitVec 16
  | bulk urb => urb.maxp
  | isoc _ _ _ maxp => maxp

/-- The bytes of the TD. -/
def tdLen : Job → BitVec 32
  | bulk urb => urb.transferBufferLength
  | isoc _ frame _ _ => frame.length

/-- The length words of the TRBs that are queued; nothing when there is an error.
    `ehub_xhci_queue_bulk_tx` leaves an URB with a scatter-gather list to
    `queue_bulk_sg_tx`. -/
def queued (q : Quirks) (hciVersion : BitVec 16) (env : Isoc.Env) (r : Ring) : Job → Option (List (BitVec 32))
  | bulk urb =>
    ((if urb.sg.isEmpty then queueBulkTx q hciVersion urb env r else queueBulkSgTx q hciVersion urb env r).filter
      (·.status == 0)).map fun out => out.queued.map (·.2.field2)
  | isoc urb frame isocOut maxp =>
    some (lengthFields hciVersion maxp frame.length (totalPackets frame.length maxp) 0
      ((splitFrame urb frame (maxBufferSize isocOut)).map Prod.snd))

/-- The lengths are as the USB core hands them over, as `int` values, and a scatter-gather
    list has no empty entry and enough for the transfer. -/
def Proper : Job → Prop
  | bulk urb => urb.transferBufferLength.toNat < 2 ^ 31 ∧ ProperSgs urb.sg ∧
      (urb.sg ≠ [] → urb.transferBufferLength.toNat ≤ sgLength urb.sg)
  | isoc _ frame _ _ => frame.length.toNat < 2 ^ 31 - 2 ^ 11

end Job

/-- Bits 10:0 of `wMaxPacketSize`. -/
def packetSize (maxp : BitVec 16) : Nat := maxp.toNat % 2 ^ 11

/-- The TD size, bits 21:17 of the length word. -/
def tdSize (field : BitVec 32) : Nat := (field >>> 17 &&& 0x1f).toNat

/-- The bytes of the TRBs with these length words. -/
def bytesOf (fields : List (BitVec 32)) : Nat := (fields.map fun f => (trbLen f).toNat).sum

/-- The packets of a TD of `n` bytes that are not complete after `b` bytes, as far as the
    field can say. -/
def packetsLeft (size n b : Nat) : Nat := min 31 ((n + size - 1) / size - b / size)

/-- Every TRB but the last says how many packets are left, and the last one zero. -/
def Exact (size n : Nat) (fields : List (BitVec 32)) : Prop :=
  ∀ front f back, fields = front ++ f :: back →
    tdSize f = if back = [] then 0 else packetsLeft size n (bytesOf (front ++ [f]))

/-- Counted with all of `wMaxPacketSize`, the packets that are left after `b` bytes are as
    many as there are, or too many for the field either way. -/
def Agrees (maxp : BitVec 16) (n b : Nat) : Prop :=
  let total := (n + packetSize maxp - 1) / packetSize maxp
  let counted := (n + maxp.toNat - 1) / maxp.toNat
  let sent := b / packetSize maxp
  if sent ≤ counted then counted = total ∨ sent + 31 ≤ counted else sent + 31 ≤ total

/-- A TRB ends after `b` bytes of the list, at a boundary or at the end of an entry. -/
def SgCut : List Sg → Nat → Prop
  | [], _ => False
  | sg :: sgs, b =>
    if b < sg.dmaLength.toNat then b = 0 ∨ (sg.dmaAddress.toNat + b) % 65536 = 0 else SgCut sgs (b - sg.dmaLength.toNat)

/-- A TRB that is not the last one ends after `b` bytes of the transfer. -/
def CutAt (urb : Bulk.Urb) (b : Nat) : Prop :=
  0 < b ∧ b < urb.transferBufferLength.toNat ∧
    if urb.sg = [] then (urb.transferBuffer.toNat + b) % 65536 = 0 else SgCut urb.sg b

/-- Where TRBs of a bulk transfer meet, the two packet sizes agree. -/
def Job.Agreeing : Job → Prop
  | .bulk urb => ∀ b, CutAt urb b → Agrees urb.maxp urb.transferBufferLength.toNat b
  | .isoc .. => True

/-! ### One TRB -/

section
variable {maxp : BitVec 16} {hciVersion : BitVec 16} {tdLen totalPacketCount : BitVec 32}

theorem getMaxPacket_toNat (maxp : BitVec 16) : (getMaxPacket maxp).toNat = packetSize maxp := by
  rw [getMaxPacket, BitVec.toNat_and, BitVec.toNat_setWidth, Nat.mod_eq_of_lt (by omega)]
  exact Nat.and_two_pow_sub_one_eq_mod _ 11

theorem sdiv_toNat {a b : BitVec 32} (small : a.toNat < 2 ^ 31) (small' : b.toNat < 2 ^ 31) :
    (a.sdiv b).toNat = a.toNat / b.toNat := by
  have positive : a.msb = false := by
    rw [BitVec.msb_eq_decide]
    exact decide_eq_false (by omega)
  have positive' : b.msb = false := by
    rw [BitVec.msb_eq_decide]
    exact decide_eq_false (by omega)
  rw [BitVec.toNat_sdiv, positive, positive']
  exact BitVec.toNat_udiv

/-- The size that is written when `counted` packets have been counted for the TD and `sent` up
    to the TRB: when the difference wraps around it is too large for the field. -/
def written (counted sent : Nat) : Nat := if sent ≤ counted then min 31 (counted - sent) else 31

theorem tdSize_field {v : Nat} (fits : v ≤ 31) (len : BitVec 32) : tdSize (trbLen len ||| BitVec.ofNat 32 v <<< 17) = v := by
  have low : (trbLen len) >>> 17 = 0#32 := by
    apply BitVec.eq_of_toNat_eq
    rw [trbLen, BitVec.toNat_ushiftRight, BitVec.toNat_and, Nat.shiftRight_eq_div_pow]
    have below : len.toNat &&& (0x1ffff : BitVec 32).toNat < 2 ^ 17 :=
      (Nat.and_two_pow_sub_one_eq_mod len.toNat 17).trans_lt (Nat.mod_lt _ (by decide))
    rw [Nat.div_eq_of_lt below]
    rfl
  have high : (BitVec.ofNat 32 v <<< 17) >>> 17 = BitVec.ofNat 32 v := by
    apply BitVec.eq_of_toNat_eq
    rw [BitVec.toNat_ushiftRight, BitVec.toNat_shiftLeft, Nat.shiftLeft_eq, Nat.shiftRight_eq_div_pow]
    simp
    omega
  have masked : (BitVec.ofNat 32 v &&& 0x1f).toNat = v := by
    rw [BitVec.toNat_and]
    refine (Nat.and_two_pow_sub_one_eq_mod _ 5).trans ?_
    simp
    omega
  rw [tdSize, BitVec.ushiftRight_or_distrib, low, high, BitVec.zero_or, masked]

/-- The last TRB of a TD. -/
theorem v10TdRemainder_last (runningTotal len : BitVec 32) : v10TdRemainder runningTotal len totalPacketCount maxp 0 = 0 :=
  if_pos (.inl rfl)

theorem v10TdRemainder_eq {runningTotal len left : BitVec 32} (more : left ≠ 0)
    (small : runningTotal.toNat + len.toNat < 2 ^ 31) (begun : 0 < runningTotal.toNat + len.toNat) :
    v10TdRemainder runningTotal len totalPacketCount maxp left = BitVec.ofNat 32
      (written totalPacketCount.toNat ((runningTotal.toNat + len.toNat) / packetSize maxp)) <<< 17 := by
  have some_data : ¬(left = 0 ∨ (runningTotal = 0 ∧ len = 0)) := by
    rintro (none | ⟨none, empty⟩)
    · exact more none
    · rw [none, empty] at begun
      exact absurd begun (by decide)
  have bounded : (getMaxPacket maxp).toNat < 2 ^ 11 := by
    rw [getMaxPacket_toNat]
    exact Nat.mod_lt _ (by decide)
  have sum : (runningTotal + len).toNat = runningTotal.toNat + len.toNat := by
    rw [BitVec.toNat_add]
    omega
  have sent : ((runningTotal + len).sdiv (getMaxPacket maxp)).toNat =
      (runningTotal.toNat + len.toNat) / packetSize maxp := by
    rw [sdiv_toNat (by omega) (by omega), sum, getMaxPacket_toNat]
  have few : (runningTotal.toNat + len.toNat) / packetSize maxp ≤ runningTotal.toNat + len.toNat := Nat.div_le_self _ _
  rw [v10TdRemainder, if_neg some_data, written]
  simp only
  rw [← sent] at few ⊢
  generalize (runningTotal + len).sdiv (getMaxPacket maxp) = packets at few ⊢
  by_cases enough : packets.toNat ≤ totalPacketCount.toNat
  · have difference : (totalPacketCount - packets).toNat = totalPacketCount.toNat - packets.toNat :=
      BitVec.toNat_sub_of_le enough
    rw [if_pos enough]
    by_cases many : 31 < totalPacketCount.toNat - packets.toNat
    · rw [if_pos (by rw [BitVec.lt_def, difference]; exact many), show min 31 _ = 31 by omega]
      rfl
    · rw [if_neg (by rw [BitVec.lt_def, difference]; exact many),
        show min 31 (totalPacketCount.toNat - packets.toNat) = (totalPacketCount - packets).toNat by omega,
        BitVec.ofNat_toNat, BitVec.setWidth_eq]
  · have wraps : 31 < (totalPacketCount - packets).toNat := by
      rw [BitVec.toNat_sub]
      omega
    rw [if_neg enough, if_pos (by rw [BitVec.lt_def]; exact wraps)]
    rfl

end

/-! ### All TRBs of a TD -/

/-- `Exact` for the TRBs behind the first `done` bytes. -/
def ExactFrom (size n done : Nat) (fields : List (BitVec 32)) : Prop :=
  ∀ front f back, fields = front ++ f :: back →
    tdSize f = if back = [] then 0 else packetsLeft size n (done + bytesOf (front ++ [f]))

section
variable {size n done : Nat} {f : BitVec 32} {fields : List (BitVec 32)}

theorem exactFrom_nil : ExactFrom size n done [] := by
  intro front f back split
  simp at split

theorem exactFrom_cons : ExactFrom size n done (f :: fields) ↔
    tdSize f = (if fields = [] then 0 else packetsLeft size n (done + (trbLen f).toNat)) ∧
      ExactFrom size n (done + (trbLen f).toNat) fields := by
  constructor
  · intro exact
    refine ⟨by simpa [bytesOf] using exact [] f fields rfl, ?_⟩
    intro front g back split
    have here := exact (f :: front) g back (by rw [split]; rfl)
    rwa [List.cons_append, bytesOf, List.map_cons, List.sum_cons, ← Nat.add_assoc] at here
  · rintro ⟨first, rest⟩ front g back split
    cases front with
    | nil =>
      obtain ⟨rfl, rfl⟩ := List.cons.inj split
      simpa [bytesOf] using first
    | cons f' front =>
      obtain ⟨rfl, behind⟩ := List.cons.inj split
      have here := rest front g back behind
      rwa [List.cons_append, bytesOf, List.map_cons, List.sum_cons, ← Nat.add_assoc]

variable {maxp : BitVec 16} {hciVersion : BitVec 16} {tdLen totalPacketCount : BitVec 32}

theorem lengthFields_eq_nil {total : BitVec 32} {lens : List (BitVec 32)} :
    lengthFields hciVersion maxp tdLen totalPacketCount total lens = [] ↔ lens = [] := by
  cases lens <;> simp [lengthFields]

/-- The TD sizes are right when they are where one TRB ends and the next begins. -/
theorem exactFrom_lengthFields (v10 : ¬hciVersion < 0x100) : ∀ {lens : List Nat} {total : BitVec 32},
    (∀ k ∈ lens, k ≤ 65536) → lens.length < 2 ^ 32 → total.toNat + lens.sum < 2 ^ 31 →
    (∀ b, Inner lens b → 0 < total.toNat + b) →
    (ExactFrom size n total.toNat
        (lengthFields hciVersion maxp tdLen totalPacketCount total (lens.map (BitVec.ofNat 32))) ↔
      ∀ b, Inner lens b → written totalPacketCount.toNat ((total.toNat + b) / packetSize maxp) =
        packetsLeft size n (total.toNat + b)) := by
  intro lens
  induction lens with
  | nil => exact fun _ _ _ _ => ⟨fun _ b inner => absurd inner not_inner_nil, fun _ => exactFrom_nil⟩
  | cons k lens ih =>
    intro total short few small begun
    have shortK := short k (by simp)
    rw [List.sum_cons] at small
    rw [List.length_cons] at few
    have value : (BitVec.ofNat 32 k).toNat = k := by
      rw [BitVec.toNat_ofNat, Nat.mod_eq_of_lt (by omega)]
    have next : (total + BitVec.ofNat 32 k).toNat = total.toNat + k := by
      rw [BitVec.toNat_add, value]
      omega
    rw [List.map_cons, lengthFields, if_neg v10, List.length_map, exactFrom_cons]
    rcases eq_or_ne lens [] with rfl | more
    · -- The last TRB.
      have none : BitVec.ofNat 32 ([] : List Nat).length = 0 := rfl
      rw [none, v10TdRemainder_last]
      have zero : tdSize (trbLen (BitVec.ofNat 32 k) ||| 0) = 0 := tdSize_field (v := 0) (by decide) _
      refine ⟨fun _ b inner => absurd rfl (inner_cons.mp inner).1, fun _ => ⟨zero, exactFrom_nil⟩⟩
    · have some_left : BitVec.ofNat 32 lens.length ≠ 0 := by
        intro none
        have := congrArg BitVec.toNat none
        rw [BitVec.toNat_ofNat, Nat.mod_eq_of_lt (by omega)] at this
        exact more (List.length_eq_zero_iff.mp this)
      have begun' := begun k (inner_cons.mpr ⟨more, .inl rfl⟩)
      rw [v10TdRemainder_eq some_left (by rw [value]; omega) (by rw [value]; exact begun'), value]
      have fits : ∀ a b, written a b ≤ 31 := by
        intro a b
        rw [written]
        split_ifs <;> omega
      rw [tdSize_field (fits _ _), trbLen_or shortK (shifted_and _), if_neg (by simpa [lengthFields_eq_nil] using more),
        ← next, ih (fun k member => short k (List.mem_cons_of_mem _ member)) (by omega) (by omega) ?_]
      · simp only [inner_cons, more, ne_eq, not_false_eq_true, true_and, next, Nat.add_assoc]
        constructor
        · rintro ⟨here, later⟩ b (rfl | ⟨b', inner, rfl⟩)
          · exact here
          · exact later b' inner
        · exact fun all => ⟨all k (.inl rfl), fun b inner => all (k + b) (.inr ⟨b, inner, rfl⟩)⟩
      · intro b inner
        omega

end

/-! ### The two counts of packets -/

section
variable {maxp : BitVec 16} {n b : Nat}

theorem packetSize_le (maxp : BitVec 16) : packetSize maxp ≤ maxp.toNat := Nat.mod_le _ _

/-- Larger packets are no more than smaller ones. -/
theorem packets_le {small large : Nat} (positive : 0 < small) (le : small ≤ large) :
    (n + large - 1) / large ≤ (n + small - 1) / small := by
  have enough : n ≤ small * ((n + small - 1) / small) := by
    have := Nat.mod_add_div (n + small - 1) small
    have := Nat.mod_lt (n + small - 1) positive
    omega
  have enough' : n ≤ large * ((n + small - 1) / small) := enough.trans (Nat.mul_le_mul_right _ le)
  refine Nat.le_of_lt_succ ((Nat.div_lt_iff_lt_mul (by omega)).mpr ?_)
  rw [Nat.succ_mul, Nat.mul_comm]
  omega

theorem sent_le (size : Nat) (within : b ≤ n) (positive : 0 < size) : b / size ≤ (n + size - 1) / size :=
  Nat.div_le_div_right (by omega)

theorem written_iff (packet : 0 < packetSize maxp) (within : b ≤ n) :
    written ((n + maxp.toNat - 1) / maxp.toNat) (b / packetSize maxp) = packetsLeft (packetSize maxp) n b ↔
      Agrees maxp n b := by
  have fewer := packets_le (n := n) packet (packetSize_le maxp)
  have sent := sent_le (packetSize maxp) within packet
  rw [written, packetsLeft, Agrees]
  split_ifs <;> omega

end

/-! ### Where the TRBs of a transfer meet -/

theorem sgCut_zero {sgs : List Sg} (proper : ProperSgs sgs) (some_entry : sgs ≠ []) : SgCut sgs 0 := by
  cases sgs with
  | nil => exact absurd rfl some_entry
  | cons sg sgs =>
    rw [SgCut, if_pos (proper sg (by simp)).1]
    exact .inl rfl

theorem inner_sgPieces : ∀ {sgs : List Sg} {n b : Nat}, ProperSgs sgs → n ≤ sgLength sgs →
    (Inner ((sgPieces n sgs).map Prod.snd) b ↔ 0 < b ∧ b < n ∧ SgCut sgs b) := by
  intro sgs
  induction sgs with
  | nil =>
    intro n b _ _
    simp [sgPieces, not_inner_nil, SgCut]
  | cons sg sgs ih =>
    intro n b proper enough
    rcases Nat.eq_zero_or_pos n with rfl | some_left
    · simp [not_inner_nil]
    · obtain ⟨some_length, fits⟩ := proper sg (by simp)
      have proper' : ProperSgs sgs := fun e member => proper e (List.mem_cons_of_mem _ member)
      have enough' : n - min sg.dmaLength.toNat n ≤ sgLength sgs := by
        have : sgLength (sg :: sgs) = sg.dmaLength.toNat + sgLength sgs := by simp [sgLength]
        omega
      rw [sgPieces, List.map_append, pieces, parts, snd_placed, inner_append (cuts_ne_nil (by decide) (by omega)),
        inner_cuts (by decide), sum_cuts (by decide), SgCut]
      simp only [ih proper' enough']
      by_cases within : n ≤ sg.dmaLength.toNat
      · -- The transfer ends in this entry.
        rw [show min sg.dmaLength.toNat n = n by omega, Nat.sub_self, sgPieces_zero]
        constructor
        · rintro (⟨positive, below, aligned⟩ | ⟨none, _⟩)
          · exact ⟨positive, below, by rw [if_pos (by omega)]; exact .inr aligned⟩
          · simp at none
        · rintro ⟨positive, below, cut⟩
          rw [if_pos (by omega)] at cut
          exact .inl ⟨positive, below, cut.resolve_left (by omega)⟩
      · have more : sgs ≠ [] := by
          rintro rfl
          simp [sgLength] at enough'
          omega
        have some_piece : (sgPieces (n - sg.dmaLength.toNat) sgs).map Prod.snd ≠ [] := by
          rw [ne_eq, List.map_eq_nil_iff]
          exact sgPieces_ne_nil proper' (by omega) more
        rw [show min sg.dmaLength.toNat n = sg.dmaLength.toNat by omega]
        constructor
        · rintro (⟨positive, below, aligned⟩ | ⟨_, rfl | ⟨b', ⟨positive, below, cut⟩, rfl⟩⟩)
          · exact ⟨positive, by omega, by rw [if_pos below]; exact .inr aligned⟩
          · exact ⟨some_length, by omega, by rw [if_neg (by omega), Nat.sub_self]; exact sgCut_zero proper' more⟩
          · exact ⟨by omega, by omega, by rw [if_neg (by omega), Nat.add_sub_cancel_left]; exact cut⟩
        · rintro ⟨positive, below, cut⟩
          split_ifs at cut with inEntry
          · exact .inl ⟨positive, inEntry, cut.resolve_left (by omega)⟩
          · rcases Nat.eq_or_lt_of_le (Nat.not_lt.mp inEntry) with here | beyond
            · exact .inr ⟨some_piece, .inl here.symm⟩
            · exact .inr ⟨some_piece, .inr ⟨_, ⟨by omega, by omega, cut⟩, by omega⟩⟩

theorem inner_bulkPieces {urb : Bulk.Urb} {b : Nat} : Inner ((bulkPieces urb).map Prod.snd) b ↔
    0 < b ∧ b < urb.transferBufferLength.toNat ∧ (urb.transferBuffer.toNat + b) % 65536 = 0 := by
  rw [bulkPieces]
  split_ifs with empty
  · rw [empty]
    simp [inner_cons]
  · rw [pieces, parts, snd_placed, inner_cuts (by decide)]

/-! ### The TRBs of each function -/

section
variable {q : Quirks} {hciVersion : BitVec 16} {env : Isoc.Env} {r : Ring}

theorem fields_trbsOf (s : Setup) : ∀ (ps : List (BitVec 64 × Nat)) (total : BitVec 32),
    (trbsOf s total ps).map (·.field2) = lengthFields s.hciVersion s.urb.maxp s.urb.transferBufferLength s.totalPacketCount
      total ((ps.map Prod.snd).map (BitVec.ofNat 32)) := by
  intro ps
  induction ps with
  | nil => exact fun _ => rfl
  | cons p ps ih =>
    intro total
    have fewer : BitVec.ofNat 32 (ps.length + 1) - 1 = BitVec.ofNat 32 ps.length := by
      rw [BitVec.ofNat_add]
      exact BitVec.add_sub_cancel _ _
    rw [trbsOf, List.map_cons, ih, List.map_cons, List.map_cons, lengthFields, List.length_map, List.length_map,
      Setup.remainder, fewer]

theorem divRoundUp_toNat {n : BitVec 32} {d : BitVec 16} (small : n.toNat < 2 ^ 31) (positive : 0 < d.toNat) :
    (divRoundUp n (d.setWidth 32)).toNat = (n.toNat + d.toNat - 1) / d.toNat := by
  have value : (d.setWidth 32).toNat = d.toNat := by
    rw [BitVec.toNat_setWidth, Nat.mod_eq_of_lt (by omega)]
  have sum : (n + d.setWidth 32).toNat = n.toNat + d.toNat := by
    rw [BitVec.toNat_add, value]
    omega
  have whole : (n + d.setWidth 32 - 1).toNat = n.toNat + d.toNat - 1 :=
    (BitVec.toNat_sub_of_le (by rw [BitVec.le_def, sum]; exact le_trans positive (Nat.le_add_left _ _))).trans (by rw [sum]; rfl)
  rw [divRoundUp, BitVec.toNat_udiv, whole, value]

/-- The TRBs for the pieces of a transfer say the right TD size when the two packet sizes
    agree wherever pieces meet. -/
theorem exact_pieced {urb : Bulk.Urb} {ps : List (BitVec 64 × Nat)} {out : Outcome} (v10 : ¬hciVersion < 0x100)
    (packet : 0 < packetSize urb.maxp) (small : urb.transferBufferLength.toNat < 2 ^ 31) (pieced : Pieced hciVersion urb ps out)
    (short : ∀ p ∈ ps, p.2 ≤ 65536) (whole : (ps.map Prod.snd).sum = urb.transferBufferLength.toNat)
    (few : ps.length < 2 ^ 31) (begun : ∀ b, Inner (ps.map Prod.snd) b → 0 < b) :
    Exact (packetSize urb.maxp) urb.transferBufferLength.toNat (out.queued.map (·.2.field2)) ↔
      ∀ b, Inner (ps.map Prod.snd) b → Agrees urb.maxp urb.transferBufferLength.toNat b := by
  obtain ⟨s, rfl, rfl, packets, trbs⟩ := pieced
  have fields : out.queued.map (·.2.field2) = (out.queued.map (·.2.setCycle false)).map (·.field2) := by
    rw [List.map_map]
    rfl
  have zero : (0 : BitVec 32).toNat = 0 := rfl
  have counted : s.totalPacketCount.toNat =
      (s.urb.transferBufferLength.toNat + s.urb.maxp.toNat - 1) / s.urb.maxp.toNat := by
    rw [packets, divRoundUp_toNat small (packet.trans_le (packetSize_le _))]
  have same : ∀ fs, Exact (packetSize s.urb.maxp) s.urb.transferBufferLength.toNat fs ↔
      ExactFrom (packetSize s.urb.maxp) s.urb.transferBufferLength.toNat (0 : BitVec 32).toNat fs := by
    intro fs
    simp only [Exact, ExactFrom, zero, Nat.zero_add]
  rw [fields, trbs, fields_trbsOf, same]
  refine (exactFrom_lengthFields v10 ?_ ?_ ?_ ?_).trans ?_
  · simpa using fun k a member => short (a, k) member
  · rw [List.length_map]
    omega
  · rw [zero, whole]
    omega
  · intro b inner
    rw [zero, Nat.zero_add]
    exact begun b inner
  · refine forall₂_congr fun b inner => ?_
    rw [zero, Nat.zero_add, counted, written_iff packet (whole ▸ inner.le_sum)]

/-- The call has queued its TRBs, so the ring had been prepared. -/
theorem prepared_of_status {numTrbs : BitVec 32} {out : Outcome} {f : Ring → Option Outcome}
    (failed : ∀ r' error, Isoc.prepareTransfer q r numTrbs.toNat 0 env = (error, r') → error ≠ 0 →
      f r = some ⟨error, r', none, [], true⟩) (called : f r = some out) (ok : out.status = 0) :
    ∃ r', Isoc.prepareTransfer q r numTrbs.toNat 0 env = (0, r') := by
  rcases result : Isoc.prepareTransfer q r numTrbs.toNat 0 env with ⟨error, r'⟩
  by_cases zero : error = 0
  · exact ⟨r', by rw [zero]⟩
  · rw [failed r' error result zero, Option.some.injEq] at called
    rw [← called] at ok
    exact absurd ok zero

theorem exact_bulk {urb : Bulk.Urb} {out : Outcome} (v10 : ¬hciVersion < 0x100) (packet : 0 < packetSize urb.maxp)
    (small : urb.transferBufferLength.toNat < 2 ^ 31) (called : queueBulkTx q hciVersion urb env r = some out)
    (ok : out.status = 0) :
    Exact (packetSize urb.maxp) urb.transferBufferLength.toNat (out.queued.map (·.2.field2)) ↔
      ∀ b, 0 < b ∧ b < urb.transferBufferLength.toNat ∧ (urb.transferBuffer.toNat + b) % 65536 = 0 →
        Agrees urb.maxp urb.transferBufferLength.toNat b := by
  obtain ⟨inside, _, whole, _, few⟩ := bulkPieces_inside urb
  have counted := countTrbsNeeded_pieces small
  obtain ⟨r', prepared⟩ := prepared_of_status (f := queueBulkTx q hciVersion urb env)
    (fun r' error prepared failed => by rw [queueBulkTx, counted]; exact queueTx_error prepared failed) called ok
  rw [bulkPieces_value small] at prepared
  obtain ⟨out', result, _, pieced⟩ := queueBulkTx_pieces hciVersion small prepared
  rw [called, Option.some.injEq] at result
  subst result
  rw [exact_pieced v10 packet small pieced (fun p member => by have := inside p member; omega) whole (by omega)
    fun b inner => (inner_bulkPieces.mp inner).1]
  simp only [inner_bulkPieces]

theorem exact_sg {urb : Bulk.Urb} {out : Outcome} (v10 : ¬hciVersion < 0x100) (packet : 0 < packetSize urb.maxp)
    (transfer : SgTransfer urb) (called : queueBulkSgTx q hciVersion urb env r = some out) (ok : out.status = 0) :
    Exact (packetSize urb.maxp) urb.transferBufferLength.toNat (out.queued.map (·.2.field2)) ↔
      ∀ b, 0 < b ∧ b < urb.transferBufferLength.toNat ∧ SgCut urb.sg b →
        Agrees urb.maxp urb.transferBufferLength.toNat b := by
  have few := transfer.few
  have small := transfer.small
  obtain ⟨r', prepared⟩ := prepared_of_status (f := queueBulkSgTx q hciVersion urb env)
    (fun r' error prepared failed => transfer.fails prepared failed) called ok
  rw [transfer.value] at prepared
  obtain ⟨out', result, _, pieced⟩ := transfer.queues hciVersion prepared
  rw [called, Option.some.injEq] at result
  subst result
  rw [exact_pieced v10 packet small pieced (fun p member => by have := sgPieces_inside p member; omega)
    (sum_sgPieces transfer.enough) (by omega) fun b inner => ((inner_sgPieces transfer.proper transfer.enough).mp inner).1]
  simp only [inner_sgPieces transfer.proper transfer.enough]

theorem exact_iff_from {size n : Nat} {fs : List (BitVec 32)} : Exact size n fs ↔ ExactFrom size n 0 fs := by
  simp only [Exact, ExactFrom, Nat.zero_add]

/-- The loop queues one TRB for an empty transfer. -/
theorem queueLoop_empty {s : Setup} {x x' : Tx} {fuel : Nat} (isSg : s.next = sgNext s.urb)
    (empty : s.urb.transferBufferLength = 0) (begun : x.runningTotal = 0) (len : x.trbBuffLen = 0)
    (some_length : x.thisSgLen ≠ 0) (result : queueLoop s (fuel + 1) x = some x') : Steady (queuePiece s x) x' := by
  have entryMore : ¬x.thisSgLen - x.trbBuffLen = 0 := by
    rw [len]
    simpa using some_length
  have next : ∃ x1, s.next (queuePiece s x) = some x1 ∧ Steady (queuePiece s x) x1 := by
    rw [isSg, sgNext]
    rw [if_neg (show ¬(queuePiece s x).thisSgLen - (queuePiece s x).trbBuffLen = 0 from entryMore)]
    exact ⟨_, rfl, rfl, rfl, rfl, rfl, rfl, rfl⟩
  obtain ⟨x1, goesOn, steady⟩ := next
  have total : x1.runningTotal = 0 := by
    rw [steady.runningTotal]
    show x.runningTotal + x.trbBuffLen = 0
    rw [begun, len]
    rfl
  rw [queueLoop] at result
  simp only [goesOn, total, empty] at result
  rw [if_neg (by decide), Option.some.injEq] at result
  rw [← result]
  exact steady

/-- What `queue_bulk_sg_tx` leaves of an empty transfer is what the first round of the loop does. -/
theorem queueBulkSgTx_empty {urb : Bulk.Urb} {out : Outcome} (empty : urb.transferBufferLength = 0) (proper : ProperSgs urb.sg)
    (called : queueBulkSgTx q hciVersion urb env r = some out) (ok : out.status = 0) :
    ∃ (s : Setup) (x : Tx), s.hciVersion = hciVersion ∧ s.moreThanOne = (fun n => (1 : BitVec 32).ult n) ∧
      countSgTrbsNeeded urb = some x.numTrbs ∧ (x.runningTotal = 0 ∧ x.trbBuffLen = 0 ∧ x.queued = []) ∧
      out.queued = (queuePiece s x).queued ∧ out.lastTrb = (queuePiece s x).lastTrb := by
  rw [queueBulkSgTx] at called
  cases list : urb.sg with
  | nil => simp [list] at called
  | cons sg sgs =>
    cases counted : countSgTrbsNeeded urb with
    | none => simp [list, counted] at called
    | some numTrbs =>
      rw [list, counted] at called
      dsimp only at called
      obtain ⟨r', prepared⟩ := prepared_of_status (fun r' error prepared failed => queueTx_error prepared failed) called ok
      rw [queueTx, prepared] at called
      obtain ⟨some_length, fits⟩ := proper sg (by rw [list]; simp)
      have some_entry : sg.dmaLength ≠ 0 := by
        intro none
        rw [none] at some_length
        exact absurd some_length (by decide)
      have len : sgBuffLen urb sg.dmaAddress sg.dmaLength 0 = 0 := by
        apply BitVec.eq_of_toNat_eq
        rw [sgBuffLen_toNat _ (by rw [empty]; decide) (by simp) fits, empty]
        simp
      simp only at called
      cases result : queueLoop _ (urb.transferBufferLength.toNat + urb.sg.length + 1) _ with
      | none => rw [result] at called; simp at called
      | some x' =>
        rw [result, Option.some.injEq] at called
        have steady := queueLoop_empty rfl empty rfl len some_entry result
        rw [← called]
        exact ⟨_, _, rfl, rfl, rfl, ⟨rfl, len, rfl⟩, steady.queued, steady.lastTrb⟩

/-- An empty transfer has one TRB, which says that nothing is left. -/
theorem exact_sg_empty {urb : Bulk.Urb} {out : Outcome} (v10 : ¬hciVersion < 0x100)
    (empty : urb.transferBufferLength = 0) (proper : ProperSgs urb.sg)
    (called : queueBulkSgTx q hciVersion urb env r = some out) (ok : out.status = 0) :
    Exact (packetSize urb.maxp) urb.transferBufferLength.toNat (out.queued.map (·.2.field2)) := by
  obtain ⟨s, x, rfl, _, _, ⟨total, len, nothing⟩, queued, _⟩ := queueBulkSgTx_empty empty proper called ok
  obtain ⟨t, trbs, field⟩ : ∃ t : Trb, (queuePiece s x).queued = x.queued ++ [(x.ring.enqueue, t)] ∧
    t.field2 = trbLen x.trbBuffLen ||| s.remainder x.runningTotal x.trbBuffLen x.numTrbs := ⟨_, rfl, rfl⟩
  have zero : tdSize t.field2 = 0 := by
    rw [field, total, len, Setup.remainder, if_neg v10, v10TdRemainder, if_pos (.inr ⟨rfl, rfl⟩)]
    rfl
  rw [queued, trbs, nothing, exact_iff_from]
  refine exactFrom_cons.mpr ⟨?_, exactFrom_nil⟩
  show tdSize t.field2 = _
  rw [zero]
  exact (if_pos rfl).symm

theorem totalPackets_toNat {len : BitVec 32} {maxp : BitVec 16} (packet : 0 < packetSize maxp)
    (small : len.toNat < 2 ^ 31 - 2 ^ 11) (some_data : 0 < len.toNat) :
    (totalPackets len maxp).toNat = (len.toNat + packetSize maxp - 1) / packetSize maxp := by
  have bounded : packetSize maxp < 2 ^ 11 := Nat.mod_lt _ (by decide)
  have sum : (len + getMaxPacket maxp).toNat = len.toNat + packetSize maxp := by
    rw [BitVec.toNat_add, getMaxPacket_toNat]
    omega
  have whole : (len + getMaxPacket maxp - 1).toNat = len.toNat + packetSize maxp - 1 :=
    (BitVec.toNat_sub_of_le (by rw [BitVec.le_def, sum]; exact le_trans packet (Nat.le_add_left _ _))).trans (by rw [sum]; rfl)
  have count : ((len + getMaxPacket maxp - 1).sdiv (getMaxPacket maxp)).toNat =
      (len.toNat + packetSize maxp - 1) / packetSize maxp := by
    rw [sdiv_toNat (by omega) (by rw [getMaxPacket_toNat]; omega), whole, getMaxPacket_toNat]
  have positive : 0 < (len.toNat + packetSize maxp - 1) / packetSize maxp := Nat.div_pos (by omega) packet
  rw [totalPackets, if_neg, count]
  intro none
  rw [none] at count
  exact absurd count.symm positive.ne'

theorem exact_isoc {urb : IsocSplit.Urb} {frame : Frame} {isocOut : Bool} {maxp : BitVec 16} (v10 : ¬hciVersion < 0x100)
    (packet : 0 < packetSize maxp) (small : frame.length.toNat < 2 ^ 31 - 2 ^ 11) :
    Exact (packetSize maxp) frame.length.toNat (lengthFields hciVersion maxp frame.length (totalPackets frame.length maxp) 0
      ((splitFrame urb frame (maxBufferSize isocOut)).map Prod.snd)) := by
  obtain ⟨positive, bounded, _⟩ := size_facts isocOut
  have lengths := lengths_splitFrame urb isocOut (show frame.length.toNat < 2 ^ 31 by omega)
  obtain ⟨n, count⟩ : ∃ n, (countIsocTrbsNeeded urb frame (maxBufferSize isocOut)).toNat = n + 1 := by
    refine Nat.exists_eq_succ_of_ne_zero ?_
    rw [countIsocTrbsNeeded_toNat]
    split_ifs with none
    · decide
    · exact (windows_pos (Nat.pos_of_ne_zero none)).ne'
  have fits := (countIsocTrbsNeeded urb frame (maxBufferSize isocOut)).isLt
  rw [count] at lengths fits
  set a := (urb.transferBuffer + frame.offset.setWidth 64).toNat
  have words : (splitFrame urb frame (maxBufferSize isocOut)).map Prod.snd =
      (firstParts (maxBufferSize isocOut).toNat (n + 1) a frame.length.toNat).map (BitVec.ofNat 32) := by
    rw [← lengths, List.map_map]
    exact List.map_congr_left fun c _ => by simp
  have whole : (firstParts (maxBufferSize isocOut).toNat (n + 1) a frame.length.toNat).sum ≤ frame.length.toNat := by
    rw [firstParts]
    refine ((List.take_sublist _ _).sum_le_sum (by simp)).trans ?_
    rw [List.sum_append, sum_cuts positive, List.sum_replicate, smul_zero, Nat.add_zero]
  have begun : ∀ b, Inner (firstParts (maxBufferSize isocOut).toNat (n + 1) a frame.length.toNat) b → 0 < b := by
    intro b inner
    rw [firstParts_succ positive] at inner
    have first := inner.first_le
    have below := Nat.mod_lt a positive
    rcases Nat.eq_zero_or_pos frame.length.toNat with none | some_data
    · -- An empty frame has one TRB.
      rw [countIsocTrbsNeeded_toNat, if_pos none] at count
      obtain rfl : n = 0 := by omega
      exact absurd rfl (inner_cons.mp inner).1
    · omega
  have zero : (0 : BitVec 32).toNat = 0 := rfl
  rw [exact_iff_from, words]
  refine (exactFrom_lengthFields v10 ?_ ?_ ?_ ?_).mpr ?_
  · intro k member
    rw [firstParts] at member
    rcases List.mem_append.mp (List.mem_of_mem_take member) with part | empty
    · exact (le_of_mem_cuts positive k part).trans bounded
    · rw [(List.mem_replicate.mp empty).2]
      exact Nat.zero_le _
  · rw [firstParts, List.length_take]
    omega
  · rw [zero]
    omega
  · intro b inner
    rw [zero, Nat.zero_add]
    exact begun b inner
  · intro b inner
    have within := inner.le_sum.trans whole
    have some_data := begun b inner
    rw [zero, Nat.zero_add, totalPackets_toNat packet small (by omega), written,
      if_pos (sent_le (packetSize maxp) within packet), packetsLeft]

/-- A TRB of a bulk or interrupt transfer says the right TD size if and only if the packets
    are counted alike wherever two TRBs meet; one of an isochronous transfer always does. -/
theorem tdSizes_exact_iff {job : Job} {fields : List (BitVec 32)} (v10 : 0x100 ≤ hciVersion) (packet : 0 < packetSize job.maxp)
    (proper : job.Proper) (queued : job.queued q hciVersion env r = some fields) :
    Exact (packetSize job.maxp) job.tdLen.toNat fields ↔ job.Agreeing := by
  have v10' : ¬hciVersion < 0x100 := BitVec.not_lt.mpr v10
  cases job with
  | isoc urb frame isocOut maxp =>
    rw [Job.queued, Option.some.injEq] at queued
    rw [← queued]
    exact iff_of_true (exact_isoc v10' packet proper) trivial
  | bulk urb =>
    obtain ⟨small, proper, enough⟩ := proper
    rw [Job.queued, Option.map_eq_some_iff] at queued
    obtain ⟨out, called, rfl⟩ := queued
    obtain ⟨called, ok⟩ := Option.filter_eq_some_iff.mp called
    have ok := eq_of_beq ok
    have called : (if urb.sg.isEmpty then queueBulkTx q hciVersion urb env r else queueBulkSgTx q hciVersion urb env r) =
      some out := called
    show Exact _ _ _ ↔ ∀ b, CutAt urb b → _
    simp only [CutAt]
    by_cases contiguous : urb.sg = []
    · rw [if_pos (by rw [contiguous]; rfl)] at called
      simp only [if_pos contiguous]
      exact exact_bulk v10' packet small called ok
    · rw [if_neg (by simpa using contiguous)] at called
      simp only [if_neg contiguous]
      by_cases empty : urb.transferBufferLength = 0
      · refine iff_of_true (exact_sg_empty v10' empty proper called ok) ?_
        rintro b ⟨_, below, _⟩
        rw [empty] at below
        exact absurd below (Nat.not_lt_zero b)
      · have some_length : 0 < urb.transferBufferLength.toNat :=
          Nat.pos_of_ne_zero fun none => empty (BitVec.eq_of_toNat_eq none)
        exact exact_sg v10' packet ⟨proper, enough contiguous, some_length, small⟩ called ok

/-- Without the high bits there is only one packet size. -/
theorem agreeing_of_low {urb : Bulk.Urb} (low : urb.maxp.toNat < 2 ^ 11) : (Job.bulk urb).Agreeing := by
  intro b cut
  have size : packetSize urb.maxp = urb.maxp.toNat := Nat.mod_eq_of_lt low
  have sent : b / urb.maxp.toNat ≤ (urb.transferBufferLength.toNat + urb.maxp.toNat - 1) / urb.maxp.toNat := by
    rcases Nat.eq_zero_or_pos urb.maxp.toNat with none | positive
    · simp [none]
    · exact sent_le _ cut.2.1.le positive
  rw [Agrees, size, if_pos sent]
  exact .inl rfl

/-- A transfer of 3072 bytes, the first 1024 of them before a boundary. -/
def crossing (maxp : BitVec 16) : Bulk.Urb := ⟨0xfc00, 3072, [], true, maxp⟩

theorem tdSizes_exact_crossing : ∃ fields, (Job.bulk (crossing 512)).queued ⟨false, false⟩ 0x100 quietEnv RingAccount.bulkRing =
    some fields ∧ Exact 512 3072 fields := by
  have queued : (Job.bulk (crossing 512)).queued ⟨false, false⟩ 0x100 quietEnv RingAccount.bulkRing =
      some [0x80400, 0x800] := by decide +kernel
  have proper : (Job.bulk (crossing 512)).Proper := ⟨by decide, by simp [crossing, ProperSgs], by simp [crossing]⟩
  exact ⟨_, queued, (tdSizes_exact_iff (by decide) (by decide) proper queued).mpr (agreeing_of_low (by decide))⟩

/-- With three packets of 1024 bytes in a microframe the TD is counted as one packet of 5120
    bytes. -/
theorem not_tdSizes_exact : ¬∀ (q : Quirks) (hciVersion : BitVec 16) (env : Isoc.Env) (r : Ring) (job : Job)
    (fields : List (BitVec 32)), 0x100 ≤ hciVersion → 0 < packetSize job.maxp → job.Proper →
    job.queued q hciVersion env r = some fields → Exact (packetSize job.maxp) job.tdLen.toNat fields := by
  intro always
  have queued : (Job.bulk (crossing 0x1400)).queued ⟨false, false⟩ 0x100 quietEnv RingAccount.bulkRing =
      some [0x400, 0x800] := by decide +kernel
  have proper : (Job.bulk (crossing 0x1400)).Proper := ⟨by decide, by simp [crossing, ProperSgs], by simp [crossing]⟩
  have exact := always _ _ _ _ _ _ (by decide) (by decide) proper queued [] 0x400 [0x800] rfl
  revert exact
  decide +kernel

end

end Ehub.TdSize
