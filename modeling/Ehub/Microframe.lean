import Mathlib

/-!
The clock of the microframes (`ehub_xhci_get_microframe`). The device counts microframes of
125 microseconds in MFINDEX. When the register is read, the handler of the answer keeps its
value and the time (`MESSAGE_HandleMessage_EMBEDDED_REGISTER_READ_COMPLETION`); between two
reads the time tells how far the device's count has come.

The reader of the clock leaves out the value that has been kept: it is right only as long
as the device has always reported 0. It returns an `int`, which is negative after 2^31
microframes without a read.

Times are in nanoseconds, as `ktime_get` returns them, and do not decrease.
-/
namespace Ehub.Microframe

/-- `EMBEDDED_HOST_MFINDEX_REG_ADDRESS`. -/
def mfindexRegAddress : BitVec 32 := 0x2000

/-- What the device context keeps of the answers to register reads. -/
structure Clock where
  dataEmbeddedRegisterRead : BitVec 32
  pendingUframeTime : Nat
  lastUframeTime : Nat
  lastUframeCnt : BitVec 32
deriving DecidableEq

/-- The context as it is allocated. -/
def newClock : Clock := ⟨0, 0, 0, 0⟩

/-- `MESSAGE_HandleMessage_EMBEDDED_REGISTER_READ_COMPLETION`. -/
def registerReadCompletion (clock : Clock) (address data : BitVec 32) (ktime : Nat) : Clock :=
  let clock := { clock with dataEmbeddedRegisterRead := data }
  if address = mfindexRegAddress then { clock with pendingUframeTime := ktime, lastUframeTime := ktime, lastUframeCnt := data }
  else clock

/-- `ktime_us_delta`. -/
def ktimeUsDelta (later earlier : Nat) : Nat := (later - earlier) / 1000

/-- `ehub_xhci_get_microframe`, an `int`. -/
def getMicroframe (clock : Clock) (ktime : Nat) : BitVec 32 := BitVec.ofNat 32 (ktimeUsDelta ktime clock.lastUframeTime / 125)

/-- `ehub_xhci_get_frame`. -/
def getFrame (clock : Clock) (ktime : Nat) : BitVec 32 := (getMicroframe clock ktime).sshiftRight 3

/-- The start frame of an isochronous URB, in microframes or, for a low speed or full speed
    device, in frames. -/
def startFrame (clock : Clock) (ktime : Nat) (lowOrFull : Bool) : BitVec 32 :=
  let startFrame := getMicroframe clock ktime &&& 0x3fff
  if lowOrFull then startFrame.sshiftRight 3 else startFrame

/-- A read of MFINDEX: what it returned and when. -/
structure Read where
  data : BitVec 32
  time : Nat

def readMfindex (clock : Clock) (r : Read) : Clock := registerReadCompletion clock mfindexRegAddress r.data r.time

def readAll (reads : List Read) : Clock := reads.foldl readMfindex newClock

/-- The microframes between two times. -/
def elapsed (r : Read) (ktime : Nat) : Nat := (ktime - r.time) / 125000

/-- The reads are in order and before a last time to look at, and the device has counted one for
    every 125 microseconds since some time before. -/
structure Timed (phase : Nat) (reads : List Read) (now : Nat) : Prop where
  ordered : reads.Pairwise fun r r' => r.time ≤ r'.time
  later : ∀ r ∈ reads, r.time ≤ now
  counts : ∀ r ∈ reads, r.data.toNat % 2 ^ 14 = (r.time + phase) / 125000 % 2 ^ 14

/-- The time of the next read, or the last time. -/
def till (after : List Read) (now : Nat) : Nat := (after.head?.map Read.time).getD now

/-- The clock is that of the device since a read. -/
structure Follows (clock : Clock) (r : Read) (ktime : Nat) : Prop where
  count : (getMicroframe clock ktime).toNat % 2 ^ 14 = (r.data.toNat + elapsed r ktime) % 2 ^ 14
  nonneg : 0 ≤ (getMicroframe clock ktime).toInt

/-- The clock follows the device from every read to the next one, and a read does not make the start
    frame go back. -/
structure Right (reads : List Read) (now : Nat) : Prop where
  follows : ∀ {before r after}, reads = before ++ r :: after → ∀ ktime, r.time ≤ ktime → ktime ≤ till after now →
    Follows (readAll (before ++ [r])) r ktime
  forward : ∀ {before r r' after}, reads = before ++ r :: r' :: after →
    (startFrame (readAll (before ++ [r, r'])) r'.time false - startFrame (readAll (before ++ [r])) r'.time false) &&& 0x3fff < 0x2000

/-- The device has always reported 0, and no time between reads is too long for an `int`. -/
structure Short (reads : List Read) (now : Nat) : Prop where
  zero : ∀ r ∈ reads, r.data.toNat % 2 ^ 14 = 0
  short : ∀ {before r after}, reads = before ++ r :: after → elapsed r (till after now) < 2 ^ 31

section
variable {reads before : List Read} {r r' : Read} {now ktime phase : Nat}

theorem readAll_last (before : List Read) (r : Read) : (readAll (before ++ [r])).lastUframeTime = r.time := by
  rw [readAll, List.foldl_append]
  simp [readMfindex, registerReadCompletion]

theorem getMicroframe_last (before : List Read) (r : Read) (ktime : Nat) :
    (getMicroframe (readAll (before ++ [r])) ktime).toNat = elapsed r ktime % 2 ^ 32 := by
  rw [getMicroframe, readAll_last, BitVec.toNat_ofNat, ktimeUsDelta, elapsed, Nat.div_div_eq_div_mul]

/-- After a read, the clock follows the device exactly if this has reported 0 and the time is
    not too long. -/
theorem follows_iff (before : List Read) (r : Read) (ktime : Nat) : Follows (readAll (before ++ [r])) r ktime ↔
    r.data.toNat % 2 ^ 14 = 0 ∧ elapsed r ktime % 2 ^ 32 < 2 ^ 31 := by
  have units := getMicroframe_last before r ktime
  have sign : 0 ≤ (getMicroframe (readAll (before ++ [r])) ktime).toInt ↔ elapsed r ktime % 2 ^ 32 < 2 ^ 31 := by
    rw [BitVec.toInt_eq_toNat_cond, units]
    split_ifs <;> omega
  constructor
  · rintro ⟨count, nonneg⟩
    rw [units] at count
    exact ⟨by omega, sign.mp nonneg⟩
  · rintro ⟨zero, short⟩
    refine ⟨?_, sign.mpr short⟩
    rw [units]
    omega

theorem elapsed_mono {t t' : Nat} (le : t ≤ t') : elapsed r t ≤ elapsed r t' :=
  Nat.div_le_div_right (Nat.sub_le_sub_right le _)

theorem Timed.till (timed : Timed phase reads now) {after : List Read} (is_reads : reads = before ++ r :: after) :
    r.time ≤ till after now := by
  cases after with
  | nil => exact timed.later r (by simp [is_reads])
  | cons r' after =>
    have ordered := timed.ordered
    rw [is_reads, List.pairwise_append, List.pairwise_cons] at ordered
    exact ordered.2.1.1 r' List.mem_cons_self

/-- A mask of 14 bits. -/
theorem toNat_mask (x : BitVec 32) : (x &&& 0x3fff).toNat = x.toNat % 2 ^ 14 := by
  rw [BitVec.toNat_and, ← Nat.and_two_pow_sub_one_eq_mod]
  rfl

/-- Between two reads of 0 the device has counted to 0 again: the time says so, or that one
    microframe is missing. -/
theorem Timed.elapsed (timed : Timed phase reads now) {after : List Read} (is_reads : reads = before ++ r :: r' :: after)
    (zero : ∀ r ∈ reads, r.data.toNat % 2 ^ 14 = 0) :
    elapsed r r'.time % 2 ^ 14 = 0 ∨ elapsed r r'.time % 2 ^ 14 = 2 ^ 14 - 1 := by
  have first : r ∈ reads := by simp [is_reads]
  have second : r' ∈ reads := by simp [is_reads]
  have le : r.time ≤ r'.time := timed.till is_reads
  have count := (timed.counts r first).symm.trans (zero r first)
  have count' := (timed.counts r' second).symm.trans (zero r' second)
  rw [Microframe.elapsed]
  omega

/-- A read of 0 sets the start frame to 0, where it would have been 0 or the last one before. -/
theorem forward_of_zero (timed : Timed phase reads now) {after : List Read} (is_reads : reads = before ++ r :: r' :: after)
    (zero : ∀ r ∈ reads, r.data.toNat % 2 ^ 14 = 0) :
    (startFrame (readAll (before ++ [r, r'])) r'.time false - startFrame (readAll (before ++ [r])) r'.time false) &&& 0x3fff < 0x2000 := by
  have units := getMicroframe_last before r r'.time
  have none_since : (getMicroframe (readAll (before ++ [r, r'])) r'.time).toNat = 0 := by
    rw [show before ++ [r, r'] = (before ++ [r]) ++ [r'] by simp, getMicroframe_last, Microframe.elapsed, Nat.sub_self]
    rfl
  have now_zero : startFrame (readAll (before ++ [r, r'])) r'.time false = 0 := by
    apply BitVec.eq_of_toNat_eq
    rw [startFrame]
    simp only [Bool.false_eq_true, if_false]
    rw [toNat_mask, none_since]
    rfl
  have was : (startFrame (readAll (before ++ [r])) r'.time false).toNat = elapsed r r'.time % 2 ^ 14 := by
    rw [startFrame]
    simp only [Bool.false_eq_true, if_false]
    rw [toNat_mask, units]
    omega
  rw [BitVec.lt_def, toNat_mask, now_zero, BitVec.toNat_sub, was]
  rcases timed.elapsed is_reads zero with same | same
  · rw [same]
    decide
  · rw [same]
    decide

/-- The clock is right in a run exactly if the device has reported 0 with every read, and no time
    without a read is too long for an `int`. -/
theorem right_iff (timed : Timed phase reads now) : Right reads now ↔ Short reads now := by
  constructor
  · rintro ⟨follows, -⟩
    constructor
    · intro r member
      obtain ⟨before, after, is_reads⟩ := List.append_of_mem member
      exact ((follows_iff before r r.time).mp (follows is_reads r.time le_rfl (timed.till is_reads))).1
    · intro before r after is_reads
      by_contra long
      rw [not_lt, elapsed, Nat.le_div_iff_mul_le (by decide)] at long
      have le := timed.till is_reads
      obtain ⟨half, is_half⟩ : ∃ half, half = 2 ^ 31 * 125000 := ⟨_, rfl⟩
      have at_half : elapsed r (r.time + half) = 2 ^ 31 := by
        rw [elapsed, Nat.add_sub_cancel_left, is_half, Nat.mul_div_cancel _ (by decide)]
      have negative := ((follows_iff before r (r.time + half)).mp (follows is_reads _ (Nat.le_add_right _ _) (by omega))).2
      rw [at_half] at negative
      omega
  · rintro ⟨zero, short⟩
    constructor
    · intro before r after is_reads ktime _ le
      have bound := (elapsed_mono (r := r) le).trans_lt (short is_reads)
      refine (follows_iff before r ktime).mpr ⟨zero r (by simp [is_reads]), ?_⟩
      rw [Nat.mod_eq_of_lt (by omega)]
      exact bound
    · exact fun is_reads => forward_of_zero timed is_reads zero

end

/-- MFINDEX has wrapped between two reads. -/
theorem right_iff_wrapped : Right [⟨0, 0⟩, ⟨0, 2048000000⟩] 2048125000 := by
  have timed : Timed 0 [⟨0, 0⟩, ⟨0, 2048000000⟩] 2048125000 := ⟨by decide, by decide, by decide⟩
  refine (right_iff timed).mpr ⟨by decide, ?_⟩
  intro before r after is_reads
  rcases before with _ | ⟨_, _ | ⟨_, before⟩⟩
  · obtain ⟨rfl, rfl⟩ := List.cons.inj is_reads
    decide
  · obtain ⟨rfl, rfl⟩ := List.cons.inj (List.cons.inj is_reads).2
    decide
  · exact absurd (List.cons.inj (List.cons.inj is_reads).2).2 (by simp)

/-- The device reports 5 and the clock says 0. -/
theorem not_right : ¬∀ phase reads now, Timed phase reads now → Right reads now := by
  intro right
  have timed : Timed 625000 [⟨5, 0⟩] 0 := ⟨by decide, by decide, by decide⟩
  have follows : Follows (readAll ([] ++ [⟨5, 0⟩])) ⟨5, 0⟩ 0 := (right _ _ _ timed).follows rfl 0 le_rfl le_rfl
  exact absurd follows.count (by decide)

end Ehub.Microframe
