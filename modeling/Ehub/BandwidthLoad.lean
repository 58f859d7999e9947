import Mathlib
import Ehub.Reservation

/-!
What the estimate is worth (`xhci_check_bw_table`). The loop over the intervals is a
schedule whose rounds double in length, so that the estimate covers what the endpoints of
the table send (`load_le_total`), an interval of 2^i microframes being reckoned as twice
as many.
-/
namespace Ehub.Bandwidth
open Ehub.EndpointContext
open Ehub.Cascade

/-! ### The estimate is a schedule -/

def Estimate.schedule (e : Estimate) : Schedule := ⟨e.packetsRemaining, e.packetSize, e.overhead, e.bwUsed⟩

/-- The packets of an interval: all of them are taken to be as large as the first. -/
def BwTable.level (t : BwTable) (size : EpId → ℕ) (blockSize i : ℕ) : Level where
  count := (t.intervalBw i).numPackets
  size := t.largestMps size blockSize i
  overhead := getLargestOverhead (t.intervalBw i)

/-- What the packets of an interval cost. -/
def BwTable.weight (t : BwTable) (size : EpId → ℕ) (blockSize i : ℕ) : ℕ :=
  (t.level size blockSize i).count * ((t.level size blockSize i).size + (t.level size blockSize i).overhead)

section Estimate
variable {t : BwTable} {size : EpId → ℕ} {blockSize max : ℕ}

theorem ite_eq_max (a b : ℕ) : (if a > b then a else b) = Max.max b a := by
  split <;> omega

theorem interval_eq_round (e : Estimate) (i : ℕ) :
    (e.interval t size blockSize i).schedule = e.schedule.round (2 ^ (i + 1)) (t.level size blockSize i) := by
  unfold Estimate.interval Estimate.schedule Schedule.round BwTable.level
  simp only [ite_eq_max, gt_iff_lt]

/-- The intervals from `k` on double what came before and add their own. -/
theorem covers_intervals : ∀ (n k cost : ℕ) (e e' : Estimate), Covers (2 ^ k) cost e.schedule →
    Estimate.intervals t size blockSize max (List.range' k n) e = some e' →
    Covers (2 ^ (k + n)) (2 ^ n * cost + ∑ j ∈ Finset.range n, 2 ^ (n - 1 - j) * t.weight size blockSize (k + j)) e'.schedule := by
  intro n
  induction n with
  | zero =>
    intro k cost e e' covers done
    obtain rfl : e = e' := Option.some.inj done
    simpa using covers
  | succ n ih =>
    intro k cost e e' covers done
    rw [List.range'_succ, Estimate.intervals] at done
    split at done
    · cases done
    · have next := covers.round (t.level size blockSize k)
      rw [← pow_succ', ← interval_eq_round] at next
      have rest := ih (k + 1) _ _ _ next done
      have slots : k + 1 + n = k + (n + 1) := by omega
      rw [slots] at rest
      convert rest using 1
      rw [Finset.sum_range_succ', Nat.mul_add, pow_succ, mul_assoc, add_assoc]
      congr 1
      rw [add_comm]
      congr 1
      apply Finset.sum_congr rfl
      intro j _
      rw [show k + (j + 1) = k + 1 + j by omega, show n + 1 - 1 - (j + 1) = n - 1 - j by omega]

theorem getLargestOverhead_le (bw : IntervalBw) : getLargestOverhead bw ≤ 128 := by
  unfold getLargestOverhead overheadOf
  split_ifs <;> decide

/-- An estimate that the loop comes to is a small number. -/
theorem intervals_small {largest : ℕ} (sizes : ∀ i, t.largestMps size blockSize i ≤ largest) : ∀ (is : List ℕ) (e e' : Estimate),
    e.packetSize ≤ largest → e.overhead ≤ 128 → e.bwUsed ≤ max ∨ is ≠ [] → Estimate.intervals t size blockSize max is e = some e' →
    e'.bwUsed ≤ max ∧ e'.packetSize ≤ largest ∧ e'.overhead ≤ 128 := by
  intro is
  induction is with
  | nil =>
    intro e e' packet overhead few done
    obtain rfl : e = e' := Option.some.inj done
    exact ⟨few.resolve_right fun other => other rfl, packet, overhead⟩
  | cons i is ih =>
    intro e e' packet overhead _ done
    rw [Estimate.intervals] at done
    split at done
    · cases done
    · next few =>
      have first := sizes i
      have second := getLargestOverhead_le (t.intervalBw i)
      apply ih _ e' _ _ (.inl (not_lt.mp few)) done
      · unfold Estimate.interval
        dsimp only
        split_ifs <;> omega
      · unfold Estimate.interval
        dsimp only
        split_ifs <;> omega

theorem total_small {largest : ℕ} (sizes : ∀ i, t.largestMps size blockSize i ≤ largest) {e : Estimate}
    (done : Estimate.intervals t size blockSize max (List.range' 1 15) (Estimate.start t blockSize) = some e) :
    e.total ≤ max + (128 + largest) := by
  obtain ⟨used, packet, overhead⟩ := intervals_small sizes _ _ e (Nat.zero_le _) (Nat.zero_le _) (.inr (by decide)) done
  unfold Estimate.total
  split_ifs <;> omega

theorem largestMps_small {bound : ℕ} (sizes : ∀ id, size id ≤ bound) (positive : 0 < blockSize) (i : ℕ) :
    t.largestMps size blockSize i ≤ bound := by
  unfold BwTable.largestMps
  split
  · exact Nat.zero_le _
  · next first _ _ =>
    have whole : divRoundUp (size first) blockSize ≤ size first := by
      unfold divRoundUp
      rw [Nat.div_le_iff_le_mul_add_pred positive]
      have grows := Nat.mul_le_mul_right (size first) (show 1 ≤ blockSize from positive)
      omega
    exact whole.trans (sizes first)

end Estimate

/-! ### The load of a domain -/

/-- What an endpoint sends in 2^16 microframes or frames, in bytes, when its interval is
    reckoned as twice as long: the payload of interval 0, or packets of the full size, and
    the overhead of each packet. -/
def loadOf (info : BwInfo) (speed : Speed) : ℕ :=
  let i := normalizedInterval speed info.epInterval
  let overhead := getBlockSize speed * overheadOf speed
  if i = 0 then 2 ^ 16 * (info.maxEsitPayload + overhead * info.numPackets)
  else 2 ^ (15 - i) * (info.numPackets * (info.maxPacketSize + overhead))

theorem loadOf_zero {info : BwInfo} {speed : Speed} (first : normalizedInterval speed info.epInterval = 0) :
    loadOf info speed = 2 ^ 16 * (info.maxEsitPayload + getBlockSize speed * overheadOf speed * info.numPackets) := if_pos first

theorem loadOf_pos {info : BwInfo} {speed : Speed} {i : ℕ} (later : i ≠ 0) (at_ : normalizedInterval speed info.epInterval = i) :
    loadOf info speed = 2 ^ (15 - i) * (info.numPackets * (info.maxPacketSize + getBlockSize speed * overheadOf speed)) := by
  subst at_
  exact if_neg later

theorem le_divRoundUp (n : ℕ) {d : ℕ} (positive : 0 < d) : n ≤ d * divRoundUp n d := by
  have split := Nat.div_add_mod (n + d - 1) d
  have small := Nat.mod_lt (n + d - 1) positive
  unfold divRoundUp
  omega

section Load
variable {info : EpId → BwInfo} {speed : EpId → Speed} {t : BwTable} {here : Finset EpId} {s : Speed} {id : EpId}

/-- The devices of a domain are all of high speed or all of full and low speed. -/
def Alike (speed : EpId → Speed) (here : Finset EpId) (s : Speed) : Prop :=
  ∀ id ∈ here, speed id ≠ .super ∧ (speed id = .high ↔ s = .high)

theorem block_of_alike (alike : Alike speed here s) (notSuper : s ≠ .super) (listed : id ∈ here) :
    getBlockSize (speed id) = getBlockSize s := by
  obtain ⟨other, same⟩ := alike id listed
  cases hs : s <;> cases hid : speed id <;> simp_all [getBlockSize]

theorem largestMps_le (tally : t.Tally info speed here) (positive : 0 < getBlockSize s) (listed : id ∈ here) :
    (info id).maxPacketSize ≤
      getBlockSize s * t.largestMps (fun id => (info id).maxPacketSize) (getBlockSize s) (place info speed id) := by
  have inList : id ∈ (t.intervalBw (place info speed id)).endpoints := (tally.mem _ id).mpr ⟨listed, rfl⟩
  have sorted := tally.sorted (place info speed id)
  unfold BwTable.largestMps
  cases list : (t.intervalBw (place info speed id)).endpoints with
  | nil =>
    rw [list] at inList
    cases inList
  | cons first rest =>
    rw [list] at inList sorted
    have largest : (info id).maxPacketSize ≤ (info first).maxPacketSize := by
      rcases List.mem_cons.mp inList with rfl | later
      · exact le_rfl
      · exact (List.pairwise_cons.mp sorted).1 id later
    exact largest.trans (le_divRoundUp _ positive)

theorem overhead_pos (tally : t.Tally info speed here) (listed : id ∈ here) :
    (t.intervalBw (place info speed id)).overhead (speed id) ≠ 0 := by
  rw [tally.overhead]
  have member : id ∈ {j ∈ here | place info speed j = place info speed id} := Finset.mem_filter.mpr ⟨listed, rfl⟩
  have one := Finset.single_le_sum (f := fun j => if speed j = speed id then 1 else 0) (fun _ _ => Nat.zero_le _) member
  simp only [if_pos] at one
  omega

theorem overhead_zero (tally : t.Tally info speed here) (none : ∀ id ∈ here, speed id ≠ s) (i : ℕ) :
    (t.intervalBw i).overhead s = 0 := by
  rw [tally.overhead]
  apply Finset.sum_eq_zero
  intro id listed
  exact if_neg (none id (Finset.mem_of_mem_filter _ listed))

theorem overhead_le (tally : t.Tally info speed here) (alike : Alike speed here s) (listed : id ∈ here) :
    overheadOf (speed id) ≤ getLargestOverhead (t.intervalBw (place info speed id)) := by
  obtain ⟨other, same⟩ := alike id listed
  have positive := overhead_pos tally listed
  unfold getLargestOverhead
  cases own : speed id with
  | low =>
    rw [own] at positive
    rw [if_pos positive]
  | full =>
    rw [own] at positive
    rw [if_pos positive]
    split <;> decide
  | high =>
    have high : s = .high := same.mp own
    have none : ∀ s', s' ≠ .high → ∀ j ∈ here, speed j ≠ s' := by
      intro s' ne j inHere eq
      exact ne (eq.symm.trans ((alike j inHere).2.mpr high))
    rw [overhead_zero tally (none .low (by decide)), overhead_zero tally (none .full (by decide))]
    decide
  | super => exact absurd own other

/-- The endpoints of one interval send no more than is charged for it. -/
theorem load_place (tally : t.Tally info speed here) (alike : Alike speed here s) (notSuper : s ≠ .super) {i : ℕ} (later : i ≠ 0) :
    ∑ id ∈ here with place info speed id = i, loadOf (info id) (speed id) ≤
      2 ^ (15 - i) * (getBlockSize s * t.weight (fun id => (info id).maxPacketSize) (getBlockSize s) i) := by
  have positive : 0 < getBlockSize s := by cases s <;> decide
  have each : ∀ id ∈ {id ∈ here | place info speed id = i}, loadOf (info id) (speed id) ≤
      2 ^ (15 - i) * (getBlockSize s * ((info id).numPackets *
        (t.largestMps (fun id => (info id).maxPacketSize) (getBlockSize s) i + getLargestOverhead (t.intervalBw i)))) := by
    intro id listed
    obtain ⟨inHere, rfl⟩ := Finset.mem_filter.mp listed
    have size := largestMps_le tally positive inHere
    have overhead := Nat.mul_le_mul_left (getBlockSize s) (overhead_le tally alike inHere)
    rw [loadOf_pos later rfl, block_of_alike alike notSuper inHere]
    apply Nat.mul_le_mul_left
    calc (info id).numPackets * ((info id).maxPacketSize + getBlockSize s * overheadOf (speed id))
        ≤ (info id).numPackets * (getBlockSize s * t.largestMps (fun id => (info id).maxPacketSize) (getBlockSize s)
            (place info speed id) + getBlockSize s * getLargestOverhead (t.intervalBw (place info speed id))) :=
          Nat.mul_le_mul_left _ (Nat.add_le_add size overhead)
      _ = _ := by ring
  refine (Finset.sum_le_sum each).trans (le_of_eq ?_)
  rw [← Finset.mul_sum, ← Finset.mul_sum, ← Finset.sum_mul, ← tally.packets]
  rfl

/-- So do those of interval 0. -/
theorem load_start (tally : t.Tally info speed here) (alike : Alike speed here s) (notSuper : s ≠ .super) :
    ∑ id ∈ here with place info speed id = 0, loadOf (info id) (speed id) ≤
      2 ^ 16 * (getBlockSize s * (Estimate.start t (getBlockSize s)).bwUsed) := by
  have positive : 0 < getBlockSize s := by cases s <;> decide
  have each : ∀ id ∈ {id ∈ here | place info speed id = 0}, loadOf (info id) (speed id) ≤
      2 ^ 16 * ((info id).maxEsitPayload + getBlockSize s * getLargestOverhead (t.intervalBw 0) * (info id).numPackets) := by
    intro id listed
    obtain ⟨inHere, first⟩ := Finset.mem_filter.mp listed
    have overhead := Nat.mul_le_mul_left (getBlockSize s) (overhead_le tally alike inHere)
    rw [first] at overhead
    rw [loadOf_zero first, block_of_alike alike notSuper inHere]
    exact Nat.mul_le_mul_left _ (Nat.add_le_add_left (Nat.mul_le_mul_right _ overhead) _)
  refine (Finset.sum_le_sum each).trans ?_
  rw [← Finset.mul_sum, Finset.sum_add_distrib, ← Finset.mul_sum, ← tally.packets, ← tally.payload]
  apply Nat.mul_le_mul_left
  have payload := le_divRoundUp t.interval0EsitPayload positive
  unfold Estimate.start
  calc t.interval0EsitPayload + getBlockSize s * getLargestOverhead (t.intervalBw 0) * (t.intervalBw 0).numPackets
      ≤ getBlockSize s * divRoundUp t.interval0EsitPayload (getBlockSize s) +
          getBlockSize s * getLargestOverhead (t.intervalBw 0) * (t.intervalBw 0).numPackets := Nat.add_le_add_right payload _
    _ = _ := by ring

/-- The estimate covers the load of the endpoints in the table. -/
theorem load_le_total (tally : t.Tally info speed here) (alike : Alike speed here s) (notSuper : s ≠ .super)
    (inside : ∀ id ∈ here, place info speed id < 16) {max : ℕ} {e : Estimate}
    (done : Estimate.intervals t (fun id => (info id).maxPacketSize) (getBlockSize s) max (List.range' 1 15)
      (Estimate.start t (getBlockSize s)) = some e) :
    ∑ id ∈ here, loadOf (info id) (speed id) ≤ 2 ^ 16 * (getBlockSize s * e.total) := by
  have begins : Covers (2 ^ 1) (2 * (Estimate.start t (getBlockSize s)).bwUsed) (Estimate.start t (getBlockSize s)).schedule := by
    refine ⟨Nat.two_pow_pos 1, ?_⟩
    change 2 * (Estimate.start t (getBlockSize s)).bwUsed ≤ (Estimate.start t (getBlockSize s)).bwUsed * 2 ^ 1 + 0 * _
    omega
  have covered := (covers_intervals 15 1 _ _ _ begins done).total
  have total : (e.schedule.used + if 0 < e.schedule.left then e.schedule.overhead + e.schedule.size else 0) = e.total := rfl
  rw [total] at covered
  have places : ∑ id ∈ here, loadOf (info id) (speed id) =
      ∑ i ∈ Finset.range 16, ∑ id ∈ here with place info speed id = i, loadOf (info id) (speed id) :=
    (Finset.sum_fiberwise_of_maps_to (fun id listed => Finset.mem_range.mpr (inside id listed)) _).symm
  rw [places, Finset.sum_range_succ']
  have later : ∀ j ∈ Finset.range 15, ∑ id ∈ here with place info speed id = j + 1, loadOf (info id) (speed id) ≤
      getBlockSize s * (2 ^ (15 - 1 - j) * t.weight (fun id => (info id).maxPacketSize) (getBlockSize s) (1 + j)) := by
    intro j _
    have bound := load_place tally alike notSuper (Nat.succ_ne_zero j)
    rw [show 15 - 1 - j = 15 - (j + 1) by omega, add_comm 1 j]
    linarith
  have first := load_start tally alike notSuper
  have rounds := Nat.mul_le_mul_left (getBlockSize s) covered
  have sums := Finset.sum_le_sum later
  rw [← Finset.mul_sum] at sums
  refine (Nat.add_le_add sums first).trans ?_
  calc _ = getBlockSize s * (2 ^ 15 * (2 * (Estimate.start t (getBlockSize s)).bwUsed) + _) := by
        rw [Nat.mul_add, add_comm]
        ring
    _ ≤ getBlockSize s * (e.total * 2 ^ (1 + 15)) := rounds
    _ = _ := by ring

end Load

end Ehub.Bandwidth
