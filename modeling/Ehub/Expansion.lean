import Mathlib
import Ehub.RingAccount

/-!
What an expansion leaves of a ring (`ehub_xhci_ring_expansion`), whether it succeeds or
not. Until the new segments are there the ring is not touched. Then `xhci_link_rings`
makes two links, and gives up behind either of them when the error of the cache writes
is set: behind the first one the segment of `enqueue` leads into the new segments, which
lead nowhere else; behind the second one the ring is closed again, but the new segments
have not been counted. The caller is told that the expansion has succeeded.
-/
namespace Ehub.Expansion
open Ehub.Lap Ehub.Segments Ehub.Ring Ehub.RingShape

/-- `ehub_xhci_ring_expansion` with its return value. `mapping` is what
    `xhci_update_stream_segment_mapping` says of the new segments of a stream ring. -/
def ringExpansionStatus (q : Quirks) (r : Ring) (numTrbs : Nat) (answers : Answers) (mapping : Int) : Int × Ring :=
  let numSegs := r.expansionSegs numTrbs
  if answers.segs.length < numSegs then (-eNOMEM, r)
  else
    match allocSegmentsForRing q r.type r.cycleState answers.write (answers.segs.take numSegs) r.toSegments with
    | none => (-eNOMEM, r)
    | some (m, first, last) =>
      if r.type = .stream ∧ mapping ≠ 0 then (mapping, r)
      else
        (0, linkRings q { r with toSegments := m } first last numSegs (answers.write numSegs) (answers.write (numSegs + 1)))

/-- The loop of `xhci_free_segments_for_ring`, with the segments in the order in which they are
    freed; nothing when it has not come to its end. -/
def freeLoop (next : Addr → Addr) (first : Addr) : Nat → Addr → Option (List Addr)
  | 0, _ => none
  | fuel + 1, seg => if seg = first then some [first] else (freeLoop next first fuel (next seg)).map (seg :: ·)

/-- `xhci_free_segments_for_ring`. -/
def freeSegmentsForRing (r : Ring) (fuel : Nat) : Option (List Addr) := freeLoop r.next r.firstSeg fuel (r.next r.firstSeg)

/-- On a ring without stream mappings the expansion is that of `prepare_ring`. -/
theorem ringExpansion_eq (q : Quirks) {r : Ring} (numTrbs : Nat) (answers : Answers) {mapping : Int}
    (mapped : r.type = .stream → mapping = 0) :
    ringExpansion q r numTrbs answers = if (ringExpansionStatus q r numTrbs answers mapping).1 = 0 then
      some (ringExpansionStatus q r numTrbs answers mapping).2 else none := by
  rw [ringExpansion, ringExpansionStatus]
  by_cases short : answers.segs.length < r.expansionSegs numTrbs
  · simp [short, eNOMEM]
  · have present : ¬(r.type = .stream ∧ mapping ≠ 0) := fun both => both.2 (mapped both.1)
    simp only [if_neg short]
    cases allocSegmentsForRing q r.type r.cycleState answers.write (answers.segs.take (r.expansionSegs numTrbs)) r.toSegments with
    | none => simp [eNOMEM]
    | some made =>
      obtain ⟨m, first, last⟩ := made
      simp only [if_neg present, if_true]

/-- The segments of a ring, read once around from `first_seg`, and their number. -/
structure SegLap (r : Ring) (segs : List Addr) : Prop where
  isLap : IsLap r.next segs
  first : segs.head? = some r.firstSeg
  count : segs.length = r.numSegs

/-- What an expansion of `r`, with the segments `segs`, should leave: one circle with all of them,
    as many as are counted, 63 more free TRBs for each new one, and every segment is freed once
    when the ring is. -/
def Usable (r : Ring) (segs : List Addr) (r' : Ring) : Prop :=
  ∃ segs', SegLap r' segs' ∧ (∀ s ∈ segs, s ∈ segs') ∧ r'.numTrbsFree = r.numTrbsFree + 63 * (r'.numSegs - r.numSegs : Int) ∧
    ∃ fuel freed, freeSegmentsForRing r' fuel = some freed ∧ freed.Perm segs'

/-- The new segments cannot be had: there are not enough, the error is set behind one of the links
    between them, or a stream ring's new segments cannot be mapped. -/
def Unobtainable (r : Ring) (numTrbs : Nat) (answers : Answers) (mapping : Int) : Prop :=
  answers.segs.length < r.expansionSegs numTrbs ∨ (∃ i, i + 1 < r.expansionSegs numTrbs ∧ answers.write i = .error) ∨
    (r.type = .stream ∧ mapping ≠ 0)

/-! ### Freeing a ring -/

section
variable {r : Ring} {segs : List Addr}

theorem freeLoop_chain {next : Addr → Addr} {first : Addr} : ∀ {l : List Addr} {seg : Addr} {fuel : Nat},
    List.IsChain (fun a b => next a = b) (l ++ [first]) → (l ++ [first]).head? = some seg → first ∉ l → l.length < fuel →
    freeLoop next first fuel seg = some (l ++ [first]) := by
  intro l
  induction l with
  | nil =>
    intro seg fuel _ start _ room
    obtain ⟨n, rfl⟩ : ∃ n, fuel = n + 1 := ⟨fuel - 1, by simp at room; omega⟩
    have is_seg : first = seg := by simpa using start
    rw [freeLoop, if_pos is_seg.symm, List.nil_append]
  | cons x l ih =>
    intro seg fuel chain start other room
    obtain ⟨n, rfl⟩ : ∃ n, fuel = n + 1 := ⟨fuel - 1, by simp at room; omega⟩
    have is_x : x = seg := by simpa using start
    subst is_x
    obtain ⟨notFirst, other'⟩ := not_or.mp (mt List.mem_cons.mpr other)
    have step : (l ++ [first]).head? = some (next x) := by
      cases l <;> simpa using (List.isChain_cons_cons.mp chain).1.symm
    rw [freeLoop, if_neg (Ne.symm notFirst), ih chain.tail step other' (by simpa using room)]
    rfl

/-- From segments that lead nowhere else the loop does not come back to the first one. -/
theorem freeLoop_forever {next : Addr → Addr} {first : Addr} (held : Set Addr) (closed : ∀ s ∈ held, next s ∈ held)
    (outside : first ∉ held) : ∀ (fuel : Nat) {seg : Addr}, seg ∈ held → freeLoop next first fuel seg = none := by
  intro fuel
  induction fuel with
  | zero => exact fun _ => rfl
  | succ fuel ih =>
    intro seg inside
    have other : seg ≠ first := fun same => outside (same ▸ inside)
    rw [freeLoop, if_neg other, ih (closed seg inside)]
    rfl

/-- On a circle every segment is freed once. -/
theorem SegLap.frees (lap : SegLap r segs) : ∃ fuel freed, freeSegmentsForRing r fuel = some freed ∧ freed.Perm segs := by
  obtain ⟨rest, rfl⟩ := List.head?_eq_some_iff.mp lap.first
  have around := isLap_chain (show IsLap r.next ([] ++ r.firstSeg :: rest) from lap.isLap)
  have start : (rest ++ [r.firstSeg]).head? = some (r.next r.firstSeg) := by
    have := IsLap.next_eq (show IsLap r.next ([] ++ r.firstSeg :: rest) from lap.isLap)
    rwa [List.append_nil] at this
  have other : r.firstSeg ∉ rest := (List.nodup_cons.mp lap.isLap.1).1
  rw [List.append_nil] at around
  refine ⟨rest.length + 1, rest ++ [r.firstSeg], ?_, ?_⟩
  · exact freeLoop_chain around.tail start other (Nat.lt_succ_self _)
  · exact List.perm_append_comm

/-- A ring that is left alone stays usable. -/
theorem SegLap.usable (lap : SegLap r segs) : Usable r segs r :=
  ⟨segs, lap, fun _ member => member, by ring, lap.frees⟩

end

/-! ### What becomes of the new segments -/

section
variable {q : Quirks} {type : RingType} {cycleState : Bool} {write : Nat → CacheWrite} {m m' : Segments}
  {segs news : List Addr} {first last enq : Addr}

theorem allocRest_eq_none (q : Quirks) (type : RingType) (cycleState : Bool) (write : Nat → CacheWrite) :
    ∀ (segs : List Addr) (i : Nat) (prev : Addr) (m : Segments), allocRest q type cycleState write i prev segs m = none ↔ ∃ j < segs.length, write (i + j) = .error := by
  intro segs
  induction segs with
  | nil =>
    intro i prev m
    simp [allocRest]
  | cons next segs ih =>
    intro i prev m
    rw [allocRest]
    by_cases failed : write i = .error
    · simp only [failed, if_true, true_iff]
      exact ⟨0, by simp, by simpa using failed⟩
    · simp only [failed, if_false]
      rw [ih]
      constructor
      · rintro ⟨j, inside, error⟩
        exact ⟨j + 1, by simpa using inside, by rw [← error]; congr 1; omega⟩
      · rintro ⟨j, inside, error⟩
        cases j with
        | zero => exact absurd (by simpa using error) failed
        | succ j => exact ⟨j, by simpa using inside, by rw [← error]; congr 1; omega⟩

/-- Segments cannot be had when the error is set behind one of the links between them. -/
theorem allocSegments_eq_none (q : Quirks) (type : RingType) (cycleState : Bool) (write : Nat → CacheWrite) (m : Segments)
    (some_segs : segs ≠ []) :
    allocSegmentsForRing q type cycleState write segs m = none ↔ ∃ i, i + 1 < segs.length ∧ write i = .error := by
  obtain ⟨s, segs, rfl⟩ := List.exists_cons_of_ne_nil some_segs
  have rest := allocRest_eq_none q type cycleState write segs 0 s (m.segmentAlloc type cycleState s)
  rw [allocSegmentsForRing]
  constructor
  · intro result
    cases alloc : allocRest q type cycleState write 0 s segs (m.segmentAlloc type cycleState s) with
    | none =>
      obtain ⟨j, inside, error⟩ := rest.mp alloc
      exact ⟨j, by simpa using inside, by simpa using error⟩
    | some made => simp [alloc] at result
  · rintro ⟨i, inside, error⟩
    rw [rest.mpr ⟨i, by simpa using inside, by simpa using error⟩]

/-- The new segments alone are a circle. -/
theorem news_isLap (circle : Circle m m' cycleState news first last) (distinct : news.Nodup) : IsLap m'.next news := by
  obtain ⟨rest, rfl⟩ := List.head?_eq_some_iff.mp circle.first_eq
  refine ⟨distinct, ?_⟩
  rw [Cycle.chain_coe_cons]
  exact circle.chain

/-- Behind the first link alone the new segments are never left again. -/
theorem news_trapped (circle : Circle m m' cycleState news first last) (distinct : news.Nodup) (enq_old : enq ∉ news) :
    ∀ s ∈ news, (fun s => if s = enq then first else m'.next s) s ∈ news := by
  intro s member
  have other : s ≠ enq := fun same => enq_old (same ▸ member)
  obtain ⟨a, b, split⟩ := List.append_of_mem member
  have isLap := news_isLap circle distinct
  rw [split] at isLap
  dsimp only
  rw [if_neg other, split]
  exact isLap.next_mem

/-- Behind both links they are part of the circle. -/
theorem news_join (circle : Circle m m' cycleState news first last) (distinct : news.Nodup) (isLap : IsLap m.next segs)
    (enq_mem : enq ∈ segs) (fresh : ∀ s ∈ segs, s ∉ news) :
    ∃ segs', IsLap (fun s => if s = last then m'.next enq else if s = enq then first else m'.next s) segs' ∧
      segs'.head? = segs.head? ∧ (∀ s ∈ segs, s ∈ segs') ∧ segs'.length = segs.length + news.length := by
  obtain ⟨a, b, rfl⟩ := List.append_of_mem enq_mem
  have lastIn : last ∈ news := List.mem_of_getLast? circle.last_eq
  have enq_last : enq ≠ last := fun same => fresh enq enq_mem (same ▸ lastIn)
  have old : ∀ s ∈ a ++ enq :: b, m'.next s = m.next s := fun s member => (circle.others s (fresh s member)).2.1
  have apart : ∀ s ∈ a ++ b, s ≠ enq := by
    rintro s member rfl
    exact (List.nodup_cons.mp (List.nodup_middle.mp isLap.1)).1 member
  refine ⟨a ++ enq :: (news ++ b), isLap.insert ?_ ?_ ?_, ?_, ?_, ?_⟩
  · have perm : (a ++ enq :: (news ++ b)).Perm (news ++ (a ++ enq :: b)) := by
      have := (List.perm_append_comm_assoc news (a ++ [enq]) b).symm
      simpa using this
    rw [perm.nodup_iff]
    exact List.nodup_append.mpr ⟨distinct, isLap.1, fun x inNew y inOld same => fresh y inOld (same ▸ inNew)⟩
  · intro s member
    have inSegs : s ∈ a ++ enq :: b := by
      simp only [List.mem_append, List.mem_cons] at member ⊢
      tauto
    have other : s ≠ last := fun same => fresh s inSegs (same ▸ lastIn)
    rw [if_neg other, if_neg (apart s member), old s inSegs]
  · refine chain_opened distinct circle.first_eq circle.last_eq (List.isChain_append.mp circle.chain).1 ?_ ?_ ?_
    · simp [enq_last]
    · simp [old enq enq_mem]
    · intro s member notLast
      have notEnq : s ≠ enq := fun same => fresh enq enq_mem (same ▸ member)
      simp [notLast, notEnq]
  · cases a <;> rfl
  · intro s member
    simp only [List.mem_append, List.mem_cons] at member ⊢
    tauto
  · simp only [List.length_append, List.length_cons]
    omega

end

/-! ### The two links -/

section
variable {r : Ring} {segs news : List Addr} {first last : Addr} {write1 write2 : CacheWrite}

theorem firstSeg_linkRings (q : Quirks) (r : Ring) (first last : Addr) (n : Nat) (write1 write2 : CacheWrite) :
    (linkRings q r first last n write1 write2).firstSeg = r.firstSeg := by
  simp only [linkRings]
  split_ifs <;> rfl

theorem next_linkRings_half (q : Quirks) (r : Ring) (first last : Addr) (n : Nat) (write2 : CacheWrite) :
    (linkRings q r first last n .error write2).next = fun s => if s = r.enqueue.seg then first else r.next s := by
  rw [linkRings, if_pos rfl]
  exact linkSegments_next q r.type r.toSegments r.enqueue.seg first .error

theorem next_linkRings (q : Quirks) (r : Ring) (first last : Addr) (n : Nat) (write2 : CacheWrite) (written : write1 ≠ .error) :
    (linkRings q r first last n write1 write2).next =
      fun s => if s = last then r.next r.enqueue.seg else if s = r.enqueue.seg then first else r.next s := by
  have twice : (linkSegments q r.type (linkSegments q r.type r.toSegments r.enqueue.seg first write1) last
      (r.next r.enqueue.seg) write2).next =
      fun s => if s = last then r.next r.enqueue.seg else if s = r.enqueue.seg then first else r.next s := by
    rw [linkSegments_next, linkSegments_next]
  simp only [linkRings, if_neg written]
  split_ifs <;> exact twice

theorem pointers_linkRings (q : Quirks) (r : Ring) (first last : Addr) (n : Nat) (write1 write2 : CacheWrite) :
    (linkRings q r first last n write1 write2).type = r.type ∧
      (linkRings q r first last n write1 write2).dequeue = r.dequeue := by
  simp only [linkRings]
  split_ifs <;> exact ⟨rfl, rfl⟩

theorem counts_linkRings_error (q : Quirks) (r : Ring) (first last : Addr) (n : Nat) (failed : write1 = .error ∨ write2 = .error) :
    (linkRings q r first last n write1 write2).numSegs = r.numSegs ∧
      (linkRings q r first last n write1 write2).numTrbsFree = r.numTrbsFree := by
  simp only [linkRings]
  by_cases half : write1 = .error
  · rw [if_pos half]
    exact ⟨rfl, rfl⟩
  · rw [if_neg half, if_pos (failed.resolve_left half)]
    exact ⟨rfl, rfl⟩

theorem counts_linkRings (q : Quirks) (r : Ring) (first last : Addr) (n : Nat) (written : write1 ≠ .error ∧ write2 ≠ .error) :
    (linkRings q r first last n write1 write2).numSegs = r.numSegs + n ∧
      (linkRings q r first last n write1 write2).numTrbsFree = r.numTrbsFree + 63 * n := by
  simp only [linkRings, if_neg written.1, if_neg written.2]
  split_ifs <;> exact ⟨rfl, rfl⟩

/-- The two links leave a usable ring exactly when the error is set behind neither of them. -/
theorem linkRings_usable_iff (q : Quirks) {m : Segments} {cycleState : Bool} (lap : SegLap r segs) (enq_mem : r.enqueue.seg ∈ segs)
    (circle : Circle r.toSegments m cycleState news first last) (distinct : news.Nodup) (fresh : ∀ s ∈ segs, s ∉ news)
    (some_new : 0 < news.length) (write1 write2 : CacheWrite) :
    Usable r segs (linkRings q { r with toSegments := m } first last news.length write1 write2) ↔
      write1 ≠ .error ∧ write2 ≠ .error := by
  have first_mem : r.firstSeg ∈ segs := List.mem_of_mem_head? lap.first
  have new_first : first ∈ news := List.mem_of_mem_head? circle.first_eq
  obtain ⟨joined, joinedLap, joinedFirst, old, joinedCount⟩ := news_join circle distinct lap.isLap enq_mem fresh
  constructor
  · rintro ⟨segs', lap', holds, -, -⟩
    by_contra failed
    have failed' : write1 = .error ∨ write2 = .error := by
      by_contra neither
      exact failed (not_or.mp neither)
    by_cases half : write1 = .error
    · -- The walk from the first segment ends up among the new ones.
      subst half
      have isLap := lap'.isLap
      rw [next_linkRings_half] at isLap
      have enters : first ∈ segs' := by
        obtain ⟨a, b, split⟩ := List.append_of_mem (holds _ enq_mem)
        rw [split] at isLap ⊢
        have inside := isLap.next_mem
        simpa using inside
      have back := isLap.subset_of_closed { s | s ∈ news } (news_trapped circle distinct (fresh _ enq_mem)) enters new_first
        (holds _ first_mem)
      exact fresh _ first_mem back
    · -- The circle has the new segments, which are not counted.
      have isLap := lap'.isLap
      rw [next_linkRings q _ first last _ write2 half] at isLap
      have within : ∀ s ∈ joined, s ∈ segs' := fun s member =>
        joinedLap.subset_of_closed { s | s ∈ segs' }
          (fun x inside => by
            obtain ⟨a, b, split⟩ := List.append_of_mem inside
            have turned := isLap
            rw [split] at turned
            have := turned.next_mem
            rwa [← split] at this)
          (old _ first_mem) (holds _ first_mem) member
      have few := (List.subperm_of_subset joinedLap.1 within).length_le
      have count := lap'.count
      rw [(counts_linkRings_error q _ first last _ failed').1] at count
      have := lap.count
      dsimp only at count
      omega
  · intro written
    obtain ⟨counted, free⟩ := counts_linkRings q { r with toSegments := m } first last news.length written
    have lap' : SegLap (linkRings q { r with toSegments := m } first last news.length write1 write2) joined := by
      refine ⟨?_, ?_, ?_⟩
      · rw [next_linkRings q _ first last _ write2 written.1]
        exact joinedLap
      · rw [joinedFirst, lap.first, firstSeg_linkRings]
      · rw [joinedCount, lap.count, counted]
    refine ⟨joined, lap', old, ?_, lap'.frees⟩
    rw [counted, free]
    push_cast
    ring

end

/-- An expansion leaves a usable ring exactly when the new segments cannot be had, or the error of
    the cache writes is set behind neither of the links that `xhci_link_rings` makes. -/
theorem ringExpansion_usable_iff (q : Quirks) {r : Ring} {segs : List Addr} (notEvent : r.type ≠ .event) (lap : SegLap r segs)
    (enq_mem : r.enqueue.seg ∈ segs) (numTrbs : Nat) (answers : Answers) (distinct : answers.segs.Nodup)
    (fresh : ∀ s ∈ segs, s ∉ answers.segs) (mapping : Int) :
    Usable r segs (ringExpansionStatus q r numTrbs answers mapping).2 ↔
      Unobtainable r numTrbs answers mapping ∨
        (answers.write (r.expansionSegs numTrbs) ≠ .error ∧ answers.write (r.expansionSegs numTrbs + 1) ≠ .error) := by
  have positive : 0 < r.expansionSegs numTrbs := by
    have := lap.count
    have := List.length_pos_of_mem enq_mem
    rw [expansionSegs]
    split_ifs <;> omega
  rw [ringExpansionStatus]
  by_cases short : answers.segs.length < r.expansionSegs numTrbs
  · rw [if_pos short]
    exact ⟨fun _ => .inl (.inl short), fun _ => lap.usable⟩
  rw [if_neg short]
  set news := answers.segs.take (r.expansionSegs numTrbs) with is_news
  have many : news.length = r.expansionSegs numTrbs := by
    rw [is_news, List.length_take]
    omega
  have some_news : news ≠ [] := List.ne_nil_of_length_pos (by omega)
  have distinct' : news.Nodup := distinct.sublist (List.take_sublist _ _)
  have fresh' : ∀ s ∈ segs, s ∉ news := fun s member inNew => fresh s member (List.mem_of_mem_take inNew)
  have refused := allocSegments_eq_none q r.type r.cycleState answers.write r.toSegments some_news
  rw [many] at refused
  cases alloc : allocSegmentsForRing q r.type r.cycleState answers.write news r.toSegments with
  | none => exact ⟨fun _ => .inl (.inr (.inl (refused.mp alloc))), fun _ => lap.usable⟩
  | some made =>
    obtain ⟨m, first, last⟩ := made
    dsimp only
    by_cases unmapped : r.type = .stream ∧ mapping ≠ 0
    · rw [if_pos unmapped]
      exact ⟨fun _ => .inl (.inr (.inr unmapped)), fun _ => lap.usable⟩
    rw [if_neg unmapped]
    have obtained : ¬Unobtainable r numTrbs answers mapping := by
      rintro (few | error | notMapped)
      · exact short few
      · rw [refused.mpr error] at alloc
        exact absurd alloc (by simp)
      · exact unmapped notMapped
    have circle := allocSegments_circle notEvent distinct' alloc
    have links := linkRings_usable_iff q lap enq_mem circle distinct' fresh' (by omega)
      (answers.write (r.expansionSegs numTrbs)) (answers.write (r.expansionSegs numTrbs + 1))
    rw [many] at links
    rw [links]
    exact ⟨.inr, fun either => either.resolve_left obtained⟩

/-- Two more segments for the bulk ring. -/
def moreSegs (write : Nat → CacheWrite) : Answers := ⟨[0x1800, 0x1c00], write⟩

theorem bulkRing_segLap : SegLap RingAccount.bulkRing [0x1000, 0x1400] :=
  ⟨by decide +kernel, by decide +kernel, by decide +kernel⟩

theorem ringExpansion_usable_bulkRing :
    Usable RingAccount.bulkRing [0x1000, 0x1400]
      (ringExpansionStatus ⟨false, false⟩ RingAccount.bulkRing 126 (moreSegs fun _ => .accepted) 0).2 :=
  (ringExpansion_usable_iff ⟨false, false⟩ (by decide +kernel) bulkRing_segLap (by decide +kernel) 126
    (moreSegs fun _ => .accepted) (by simp [moreSegs]) (by simp [moreSegs]) 0).mpr (.inr ⟨by simp [moreSegs], by simp [moreSegs]⟩)

/-- The error is set behind the first link. -/
def halfLinked : Int × Ring :=
  ringExpansionStatus ⟨false, false⟩ RingAccount.bulkRing 126 (moreSegs fun i => if 2 ≤ i then .error else .accepted) 0

/-- The error is set behind the second link. -/
def uncounted : Int × Ring :=
  ringExpansionStatus ⟨false, false⟩ RingAccount.bulkRing 126 (moreSegs fun i => if 3 ≤ i then .error else .accepted) 0

/-- Both expansions say that they have succeeded. The first ring is never freed to its end, the
    second one has four segments and counts two. -/
theorem ringExpansion_unusable :
    halfLinked.1 = 0 ∧ (∀ fuel, freeSegmentsForRing halfLinked.2 fuel = none) ∧
      ¬Usable RingAccount.bulkRing [0x1000, 0x1400] halfLinked.2 ∧ uncounted.1 = 0 ∧ uncounted.2.numSegs = 2 ∧
      freeSegmentsForRing uncounted.2 4 = some [0x1800, 0x1c00, 0x1400, 0x1000] := by
  have closed : ∀ s ∈ ({ s | s = 0x1800 ∨ s = 0x1c00 } : Set Addr), halfLinked.2.next s ∈ ({ s | s = 0x1800 ∨ s = 0x1c00 } : Set Addr) := by
    rintro s (rfl | rfl)
    · exact .inr (by decide +kernel)
    · exact .inl (by decide +kernel)
  have forever : ∀ fuel, freeSegmentsForRing halfLinked.2 fuel = none := by
    intro fuel
    have outside : ¬(halfLinked.2.firstSeg = 0x1800 ∨ halfLinked.2.firstSeg = 0x1c00) := by decide +kernel
    have enters : halfLinked.2.next halfLinked.2.firstSeg = 0x1800 := by decide +kernel
    exact freeLoop_forever _ closed outside fuel (.inl enters)
  refine ⟨by decide +kernel, forever, ?_, by decide +kernel, by decide +kernel, by decide +kernel⟩
  rintro ⟨_, _, _, _, fuel, freed, result, _⟩
  rw [forever] at result
  exact absurd result (by simp)

end Ehub.Expansion
