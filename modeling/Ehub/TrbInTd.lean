import Mathlib
import Ehub.Cancel
import Ehub.Transfer

/-!
Which segment of a TD an address lies in (`ehub_trb_in_td`). The driver goes through the
ring from the segment where the TD starts and compares the address with the device
addresses of the first and the last TRB that can belong to the TD there. The search ends
in the segment of the last TRB, or when it is back at the beginning.
-/
namespace Ehub.TrbInTd
open Ehub.Lap Ehub.Segments Ehub.Ring Ehub.Cancel

/-- The loop of `ehub_trb_in_td`; nothing when it has not come to its end. -/
def trbInTdRun (r : Ring) (startSeg : Addr) (endTrb : TrbPtr) (suspect : BitVec 64) :
    Nat → Addr → BitVec 64 → Option (Option Addr)
  | 0, _, _ => none
  | fuel + 1, seg, start =>
    if start = 0 then some none
    else
      let endSeg := trbVirtToDma (link seg)
      let endDma := if endTrb.seg = seg then trbVirtToDma endTrb else 0
      if 0 < endDma then
        if start ≤ endDma then if start ≤ suspect ∧ suspect ≤ endDma then some (some seg) else some none
        else if (start ≤ suspect ∧ suspect ≤ endSeg) ∨ (seg ≤ suspect ∧ suspect ≤ endDma) then some (some seg)
        else some none
      else if start ≤ suspect ∧ suspect ≤ endSeg then some (some seg)
      else if r.next seg = startSeg then some none
      else trbInTdRun r startSeg endTrb suspect fuel (r.next seg) (trbVirtToDma ⟨r.next seg, 0⟩)

/-- Where the loop has come to its end, the events are handled with its result. -/
theorem trbInTdLoop_of_run {r : Ring} {startSeg : Addr} {endTrb : TrbPtr} {suspect : BitVec 64} : ∀ {fuel : Nat}
    {seg : Addr} {start : BitVec 64} {found : Option Addr},
    trbInTdRun r startSeg endTrb suspect fuel seg start = some found →
    Transfer.trbInTdLoop r startSeg endTrb suspect fuel seg start = found := by
  intro fuel
  induction fuel with
  | zero =>
    intro seg start found result
    simp [trbInTdRun] at result
  | succ fuel ih =>
    intro seg start found result
    rw [trbInTdRun] at result
    rw [Transfer.trbInTdLoop]
    by_cases unmapped : start = 0
    · rw [if_pos unmapped] at result ⊢
      exact Option.some.inj result
    rw [if_neg unmapped] at result ⊢
    generalize (if endTrb.seg = seg then trbVirtToDma endTrb else 0) = endDma at result ⊢
    dsimp only at result ⊢
    by_cases ends : 0 < endDma
    · rw [if_pos ends] at result ⊢
      split_ifs at result ⊢ <;> exact Option.some.inj result
    rw [if_neg ends] at result ⊢
    by_cases here : start ≤ suspect ∧ suspect ≤ trbVirtToDma (link seg)
    · rw [if_pos here] at result ⊢
      exact Option.some.inj result
    rw [if_neg here] at result ⊢
    by_cases back : r.next seg = startSeg
    · rw [if_pos back] at result ⊢
      exact Option.some.inj result
    · rw [if_neg back] at result ⊢
      exact ih result

/-- The segments of a ring from `start` on, with disjoint ranges of device addresses. -/
structure Segs (r : Ring) (start : Addr) (rest : List Addr) : Prop where
  isLap : IsLap r.next (start :: rest)
  mapped : ∀ s ∈ start :: rest, 0 < s.toNat ∧ s.toNat + 1024 ≤ 2 ^ 64
  disjoint : ∀ s ∈ start :: rest, ∀ t ∈ start :: rest, s ≠ t → s.toNat + 1024 ≤ t.toNat ∨ t.toNat + 1024 ≤ s.toNat

/-- The address lies between two TRBs of a segment. -/
def Between (s : Addr) (first last : Nat) (dma : BitVec 64) : Prop :=
  s.toNat + 16 * first ≤ dma.toNat ∧ dma.toNat ≤ s.toNat + 16 * last

instance instDecidableBetween (s : Addr) (first last : Nat) (dma : BitVec 64) : Decidable (Between s first last dma) :=
  inferInstanceAs (Decidable (_ ∧ _))

/-- The first TRB of `s` that a TD starting at `startTrb` can cover. -/
def firstIn (startTrb : TrbPtr) (s : Addr) : Nat := if s = startTrb.seg then startTrb.idx else 0

/-- The last TRB of `s` that a TD ending at `endTrb` can cover. -/
def lastIn (endTrb : TrbPtr) (s : Addr) : Nat := if s = endTrb.seg then endTrb.idx else 63

/-- The address lies in the part of `s` that a TD covers. A TD that ends before its start has
    gone around the only segment of its ring. -/
def Covered (startTrb endTrb : TrbPtr) (s : Addr) (dma : BitVec 64) : Prop :=
  if s = endTrb.seg ∧ endTrb.idx < firstIn startTrb s then
    Between s (firstIn startTrb s) 63 dma ∨ Between s 0 endTrb.idx dma
  else Between s (firstIn startTrb s) (lastIn endTrb s) dma

/-- The segments from the first one to that of the end TRB. -/
def tdSegs (endSeg : Addr) (segs : List Addr) : List Addr := segs.takeWhile (· ≠ endSeg) ++ [endSeg]

theorem tdSegs_here (endSeg : Addr) (segs : List Addr) : tdSegs endSeg (endSeg :: segs) = [endSeg] := by simp [tdSegs]

theorem tdSegs_beyond {seg endSeg : Addr} (beyond : endSeg ≠ seg) (segs : List Addr) :
    tdSegs endSeg (seg :: segs) = seg :: tdSegs endSeg segs := by
  simp [tdSegs, beyond.symm]

theorem mem_of_mem_tdSegs {endSeg s : Addr} {segs : List Addr} (inside : endSeg ∈ segs) (member : s ∈ tdSegs endSeg segs) :
    s ∈ segs := by
  rcases List.mem_append.mp member with before | last
  · exact List.takeWhile_subset _ before
  · rwa [List.mem_singleton.mp last]

/-- The device address of a TRB in a segment whose addresses do not wrap. -/
theorem trbVirtToDma_toNat {p : TrbPtr} (range : p.seg.toNat + 1024 ≤ 2 ^ 64) (index : p.idx < 64) :
    (trbVirtToDma p).toNat = p.seg.toNat + 16 * p.idx := by
  have := p.seg.isLt
  simp only [trbVirtToDma, BitVec.toNat_add, BitVec.toNat_ofNat]
  omega

theorem firstIn_lt {startTrb : TrbPtr} (index : startTrb.idx < 64) (s : Addr) : firstIn startTrb s < 64 := by
  rw [firstIn]
  split <;> omega

theorem lastIn_lt {endTrb : TrbPtr} (index : endTrb.idx < 64) (s : Addr) : lastIn endTrb s < 64 := by
  rw [lastIn]
  split <;> omega

/-- An address that a TD covers in a segment is an address of this segment. -/
theorem Covered.inside {startTrb endTrb : TrbPtr} {s : Addr} {dma : BitVec 64} (covered : Covered startTrb endTrb s dma)
    (index : endTrb.idx < 64) : s.toNat ≤ dma.toNat ∧ dma.toNat < s.toNat + 1024 := by
  have last := lastIn_lt index s
  rw [Covered] at covered
  split at covered
  · rcases covered with high | low
    · have := high.1
      have := high.2
      omega
    · have := low.1
      have := low.2
      omega
  · have := covered.1
    have := covered.2
    omega

/-- No address is covered in two segments. -/
theorem Covered.unique {r : Ring} {start : Addr} {rest : List Addr} (segs : Segs r start rest) {startTrb endTrb : TrbPtr}
    (index : endTrb.idx < 64) {s t : Addr} {dma : BitVec 64} (s_mem : s ∈ start :: rest) (t_mem : t ∈ start :: rest)
    (first : Covered startTrb endTrb s dma) (second : Covered startTrb endTrb t dma) : s = t := by
  by_contra apart
  have := first.inside index
  have := second.inside index
  have := segs.disjoint s s_mem t t_mem apart
  omega

/-- A comparison with the device addresses of two TRBs of a segment. -/
theorem between_iff {s : Addr} (range : s.toNat + 1024 ≤ 2 ^ 64) {first last : Nat} (low : first < 64) (high : last < 64)
    (dma : BitVec 64) :
    (trbVirtToDma ⟨s, first⟩ ≤ dma ∧ dma ≤ trbVirtToDma ⟨s, last⟩) ↔ Between s first last dma := by
  rw [BitVec.le_def, BitVec.le_def, trbVirtToDma_toNat range low, trbVirtToDma_toNat range high]
  exact Iff.rfl

section
variable {r : Ring} {startTrb endTrb : TrbPtr} {suspect : BitVec 64} {rest : List Addr}

theorem trbVirtToDma_ne {p : TrbPtr} (range : 0 < p.seg.toNat ∧ p.seg.toNat + 1024 ≤ 2 ^ 64) (index : p.idx < 64) :
    0 < (trbVirtToDma p).toNat := by
  rw [trbVirtToDma_toNat range.2 index]
  exact Nat.lt_of_lt_of_le range.1 (Nat.le_add_right _ _)

/-- A search that decides in one segment returns it exactly when the address is covered there. -/
theorem found_iff {seg : Addr} {test : Prop} [Decidable test] (covered : Covered startTrb endTrb seg suspect ↔ test) :
    ∃ found, (if test then some (some seg) else some none) = some found ∧
      ∀ s, found = some s ↔ s = seg ∧ Covered startTrb endTrb s suspect := by
  by_cases member : test
  · refine ⟨some seg, if_pos member, fun s => ⟨fun found => ?_, fun found => by rw [found.1]⟩⟩
    cases found
    exact ⟨rfl, covered.mpr member⟩
  · refine ⟨none, if_neg member, fun s => ⟨fun found => by simp at found, fun found => ?_⟩⟩
    cases found.1
    exact absurd (covered.mp found.2) member

/-- In the segment of the end TRB the search ends, with the segment when the address is
    covered there. -/
theorem run_ends (startSeg : Addr) (suspect : BitVec 64) (range : 0 < endTrb.seg.toNat ∧ endTrb.seg.toNat + 1024 ≤ 2 ^ 64)
    (startIn : startTrb.idx < 64) (endIn : endTrb.idx < 64) (fuel : Nat) :
    ∃ found, trbInTdRun r startSeg endTrb suspect (fuel + 1) endTrb.seg
        (trbVirtToDma ⟨endTrb.seg, firstIn startTrb endTrb.seg⟩) = some found ∧
      ∀ s, found = some s ↔ s = endTrb.seg ∧ Covered startTrb endTrb s suspect := by
  have firstBelow := firstIn_lt startIn endTrb.seg
  have start_ne : trbVirtToDma ⟨endTrb.seg, firstIn startTrb endTrb.seg⟩ ≠ 0 := fun zero =>
    absurd (trbVirtToDma_ne (p := ⟨endTrb.seg, firstIn startTrb endTrb.seg⟩) range firstBelow) (by rw [zero]; decide)
  have end_pos : 0 < trbVirtToDma endTrb := by
    rw [BitVec.lt_def]
    exact trbVirtToDma_ne range endIn
  have order : trbVirtToDma ⟨endTrb.seg, firstIn startTrb endTrb.seg⟩ ≤ trbVirtToDma endTrb ↔
      ¬endTrb.idx < firstIn startTrb endTrb.seg := by
    rw [BitVec.le_def, trbVirtToDma_toNat (p := endTrb) range.2 endIn,
      trbVirtToDma_toNat (p := ⟨endTrb.seg, firstIn startTrb endTrb.seg⟩) range.2 firstBelow]
    dsimp only
    omega
  have bottom : endTrb.seg ≤ suspect ↔ trbVirtToDma ⟨endTrb.seg, 0⟩ ≤ suspect := by simp [trbVirtToDma]
  have same : trbVirtToDma endTrb = trbVirtToDma ⟨endTrb.seg, endTrb.idx⟩ := rfl
  rw [trbInTdRun, if_neg start_ne, if_pos rfl]
  dsimp only
  rw [if_pos end_pos]
  by_cases wrapped : endTrb.idx < firstIn startTrb endTrb.seg
  · rw [if_neg (fun ordered => order.mp ordered wrapped)]
    apply found_iff
    rw [bottom, same, link, between_iff range.2 firstBelow (show trbsPerSegment - 1 < 64 by decide),
      between_iff range.2 (show 0 < 64 by decide) endIn, Covered, if_pos ⟨rfl, wrapped⟩]
    rfl
  · rw [if_pos (order.mpr wrapped)]
    apply found_iff
    rw [same, between_iff range.2 firstBelow endIn, Covered, if_neg (fun both => wrapped both.2), lastIn, if_pos rfl]

/-- In another segment the search ends if the address is covered there, or if it is the last
    segment, and otherwise goes on behind it. -/
theorem run_passes {startSeg seg : Addr} (range : 0 < seg.toNat ∧ seg.toNat + 1024 ≤ 2 ^ 64) (startIn : startTrb.idx < 64)
    (elsewhere : endTrb.seg ≠ seg) (fuel : Nat) :
    trbInTdRun r startSeg endTrb suspect (fuel + 1) seg (trbVirtToDma ⟨seg, firstIn startTrb seg⟩) =
      if Between seg (firstIn startTrb seg) 63 suspect then some (some seg)
      else if r.next seg = startSeg then some none
      else trbInTdRun r startSeg endTrb suspect fuel (r.next seg) (trbVirtToDma ⟨r.next seg, 0⟩) := by
  have firstBelow := firstIn_lt startIn seg
  have start_ne : trbVirtToDma ⟨seg, firstIn startTrb seg⟩ ≠ 0 := fun zero =>
    absurd (trbVirtToDma_ne (p := ⟨seg, firstIn startTrb seg⟩) range firstBelow) (by rw [zero]; decide)
  have test := between_iff range.2 firstBelow (show trbsPerSegment - 1 < 64 by decide) suspect
  rw [trbInTdRun, if_neg start_ne, if_neg elsewhere]
  dsimp only
  rw [if_neg (show ¬(0 : BitVec 64) < 0 by decide)]
  by_cases member : Between seg (firstIn startTrb seg) 63 suspect
  · rw [if_pos member, link, if_pos (test.mpr member)]
  · rw [if_neg member, link, if_neg (fun both => member (test.mp both))]

/-- In a segment before that of the end TRB everything behind the start is covered. -/
theorem covered_iff {seg : Addr} (elsewhere : endTrb.seg ≠ seg) :
    Covered startTrb endTrb seg suspect ↔ Between seg (firstIn startTrb seg) 63 suspect := by
  rw [Covered, if_neg (fun both => elsewhere both.1.symm), lastIn, if_neg elsewhere.symm]

/-- The search from a segment of the ring on, with the segments behind it up to the one where
    it began. -/
theorem run_from (startTrb endTrb : TrbPtr) (suspect : BitVec 64) (segs : Segs r startTrb.seg rest) (startIn : startTrb.idx < 64) (endIn : endTrb.idx < 64) :
    ∀ {behind : List Addr} (before : List Addr) {seg : Addr} {fuel : Nat}, before ++ seg :: behind = startTrb.seg :: rest →
      behind.length < fuel →
      ∃ found, trbInTdRun r startTrb.seg endTrb suspect fuel seg (trbVirtToDma ⟨seg, firstIn startTrb seg⟩) = some found ∧
        (endTrb.seg ∈ seg :: behind →
          ∀ s, found = some s ↔ s ∈ tdSegs endTrb.seg (seg :: behind) ∧ Covered startTrb endTrb s suspect) := by
  intro behind
  induction behind with
  | nil =>
    intro before seg fuel split enough
    obtain ⟨fuel, rfl⟩ := Nat.exists_eq_succ_of_ne_zero (Nat.ne_of_gt enough)
    have range := segs.mapped seg (by rw [← split]; simp)
    by_cases here : endTrb.seg = seg
    · subst here
      obtain ⟨found, run, spec⟩ := run_ends startTrb.seg suspect range startIn endIn fuel
      refine ⟨found, run, fun _ s => ?_⟩
      rw [spec, tdSegs_here, List.mem_singleton]
    · have lap := segs.isLap
      rw [← split] at lap
      have back : r.next seg = startTrb.seg := by
        have head := lap.next_eq
        cases before with
        | nil =>
          have := List.head_eq_of_cons_eq split
          simpa [this] using head.symm
        | cons first before =>
          have := List.head_eq_of_cons_eq split
          simpa [this] using head.symm
      rw [run_passes range startIn here, if_pos back]
      have absent : endTrb.seg ∉ [seg] := by simpa using here
      split
      · exact ⟨_, rfl, fun member => absurd member absent⟩
      · exact ⟨_, rfl, fun member => absurd member absent⟩
  | cons next behind ih =>
    intro before seg fuel split enough
    obtain ⟨fuel, rfl⟩ := Nat.exists_eq_succ_of_ne_zero (Nat.ne_of_gt (Nat.zero_lt_of_lt enough))
    have mem_ring : ∀ s ∈ seg :: next :: behind, s ∈ startTrb.seg :: rest := by
      intro s member
      rw [← split]
      exact List.mem_append_right _ member
    have range := segs.mapped seg (mem_ring seg (by simp))
    by_cases here : endTrb.seg = seg
    · subst here
      obtain ⟨found, run, spec⟩ := run_ends startTrb.seg suspect range startIn endIn fuel
      refine ⟨found, run, fun _ s => ?_⟩
      rw [spec, tdSegs_here, List.mem_singleton]
    · have lap := segs.isLap
      rw [← split] at lap
      have follows : r.next seg = next := by simpa using lap.next_eq.symm
      have nodup : (startTrb.seg :: rest).Nodup := segs.isLap.1
      have apart : next ≠ startTrb.seg := by
        intro equal
        rw [← split] at nodup
        cases before with
        | nil =>
          have first : seg = startTrb.seg := List.head_eq_of_cons_eq split
          exact (List.nodup_cons.mp nodup).1 (by rw [first, ← equal]; exact List.mem_cons_self)
        | cons first before =>
          have first_eq : first = startTrb.seg := List.head_eq_of_cons_eq split
          exact (List.nodup_cons.mp nodup).1 (by rw [first_eq, ← equal]; simp)
      rw [run_passes range startIn here, follows, if_neg apart, tdSegs_beyond here]
      have start_zero : firstIn startTrb next = 0 := if_neg apart
      obtain ⟨found, run, spec⟩ := ih (before ++ [seg]) (by simpa using split)
        (Nat.lt_of_succ_lt_succ enough)
      rw [start_zero] at run
      by_cases member : Between seg (firstIn startTrb seg) 63 suspect
      · rw [if_pos member]
        refine ⟨_, rfl, fun inside s => ⟨fun found => ?_, fun both => ?_⟩⟩
        · cases found
          exact ⟨List.mem_cons_self, (covered_iff here).mpr member⟩
        · have beyond : endTrb.seg ∈ next :: behind := (List.mem_cons.mp inside).resolve_left here
          have s_mem : s ∈ seg :: next :: behind := by
            rcases List.mem_cons.mp both.1 with rfl | later
            · exact List.mem_cons_self
            · exact List.mem_cons_of_mem _ (mem_of_mem_tdSegs beyond later)
          rw [both.2.unique segs endIn (mem_ring s s_mem) (mem_ring seg (by simp)) ((covered_iff here).mpr member)]
      · rw [if_neg member]
        refine ⟨found, run, fun inside s => ?_⟩
        rw [spec ((List.mem_cons.mp inside).resolve_left here) s]
        constructor
        · exact fun both => ⟨List.mem_cons_of_mem _ both.1, both.2⟩
        · rintro ⟨inTd, covered⟩
          rcases List.mem_cons.mp inTd with rfl | later
          · exact absurd ((covered_iff here).mp covered) member
          · exact ⟨later, covered⟩

theorem start_eq (startTrb : TrbPtr) : startTrb = ⟨startTrb.seg, firstIn startTrb startTrb.seg⟩ := by
  rw [firstIn, if_pos rfl]

/-- An event is for a TD of the ring exactly when its address lies in a part of a segment that
    the TRBs from `dequeue` to the end of the TD cover. -/
theorem eventSeg_iff (segs : Segs r r.dequeue.seg rest) (startIn : r.dequeue.idx < 64) (endIn : endTrb.idx < 64)
    (inside : endTrb.seg ∈ r.dequeue.seg :: rest) (counted : rest.length < r.numSegs + 1) (s : Addr) :
    (∃ p, Transfer.trbInTd r endTrb suspect = some p ∧ p.seg = s) ↔
      s ∈ tdSegs endTrb.seg (r.dequeue.seg :: rest) ∧ Covered r.dequeue endTrb s suspect := by
  obtain ⟨found, run, spec⟩ := run_from r.dequeue endTrb suspect segs startIn endIn [] rfl counted
  rw [← start_eq] at run
  rw [← spec inside s, Transfer.trbInTd, trbInTdLoop_of_run run]
  cases found with
  | none => simp
  | some seg => simp

/-- The search ends. It gives a segment exactly when the address lies in the part of it that
    the TD covers, if the TD ends in the ring. -/
theorem trbInTd_finds (startTrb endTrb : TrbPtr) (suspect : BitVec 64) (segs : Segs r startTrb.seg rest) (startIn : startTrb.idx < 64) (endIn : endTrb.idx < 64) {fuel : Nat}
    (enough : rest.length < fuel) :
    ∃ found, trbInTdRun r startTrb.seg endTrb suspect fuel startTrb.seg (trbVirtToDma startTrb) = some found ∧
      (endTrb.seg ∈ startTrb.seg :: rest →
        ∀ s, found = some s ↔ s ∈ tdSegs endTrb.seg (startTrb.seg :: rest) ∧ Covered startTrb endTrb s suspect) := by
  have start := start_eq startTrb
  obtain ⟨found, run, spec⟩ := run_from startTrb endTrb suspect segs startIn endIn [] rfl enough
  rw [← start] at run
  exact ⟨found, run, spec⟩

end

/-- Two segments that follow each other in a circle. -/
def twoSegs : Ring where
  trbs := fun _ _ => .zero
  next := fun s => if s = 0x1000 then 0x2000 else 0x1000
  cache := fun _ _ => .zero
  firstSeg := 0x1000
  lastSeg := 0x2000
  enqueue := ⟨0x1000, 0⟩
  dequeue := ⟨0x1000, 0⟩
  cacheEnqueue := ⟨0x1000, 0⟩
  cycleState := true
  numSegs := 2
  numTrbsFree := 0
  type := .bulk

theorem twoSegs_segs : Segs twoSegs 0x1000 [0x2000] where
  isLap := by decide
  mapped := by simp
  disjoint := by simp

/-- A TD from the end of one segment to the beginning of the next one holds the first TRB of
    the second segment. -/
theorem trbInTd_finds_next : ∃ found,
    trbInTdRun twoSegs 0x1000 ⟨0x2000, 1⟩ 0x2000 2 0x1000 (trbVirtToDma ⟨0x1000, 60⟩) = some found ∧
      ∀ s, found = some s ↔ s ∈ tdSegs 0x2000 [0x1000, 0x2000] ∧ Covered ⟨0x1000, 60⟩ ⟨0x2000, 1⟩ s 0x2000 := by
  obtain ⟨found, run, spec⟩ := trbInTd_finds ⟨0x1000, 60⟩ ⟨0x2000, 1⟩ 0x2000 twoSegs_segs (by decide) (by decide)
    (Nat.one_lt_two)
  exact ⟨found, run, spec (by simp)⟩

end Ehub.TrbInTd
