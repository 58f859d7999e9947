import Mathlib
import Ehub.MakeRoom
import Ehub.Reported
import Ehub.TdSize

/-!
The length of a bulk or interrupt transfer (`process_bulk_intr_td`). When the controller
has come to the last TRB of a TD, the driver takes the length of the whole transfer, less
the residual, to be the one of the URB. For any other TRB it walks from the ring's dequeue
pointer to that TRB and adds up the lengths on the way. Both are the same for the last TRB of
the first TD of the list: its TRBs make up the transfer, and what is in front of it are no-ops
and links.
-/
namespace Ehub.FastPath
open Ehub.Lap Ehub.Ring Ehub.RingShape Ehub.Segments Ehub.Bulk Ehub.TdSize Ehub.Reported Ehub.Lengths
open Ehub.Transfer (Event compSuccess compShortTx compStopInval)

/-- The length that the slow path works out. -/
def slowLength (r : Ring) (eventTrb : TrbPtr) (event : Event) : BitVec 32 :=
  let actualLength := lenBefore r eventTrb
  if event.code ≠ compStopInval then actualLength + (lenAt r eventTrb - eventTrbLen event) else actualLength

/-- `out` is what one of the two functions has left when it has queued the transfer. The
    lengths are as the USB core hands them over. -/
structure Submitted (q : Quirks) (hciVersion : BitVec 16) (env : Isoc.Env) (r : Ring) (urb : Bulk.Urb) (out : Outcome) : Prop where
  called : (if urb.sg.isEmpty then queueBulkTx q hciVersion urb env r else queueBulkSgTx q hciVersion urb env r) = some out
  status : out.status = 0
  proper : (Job.bulk urb).Proper

/-- The TRBs `queued` lie on the ring behind `gap`, with links between them. -/
structure Lies (r : Ring) (queued : List (TrbPtr × Trb)) (gap body rest : List TrbPtr) : Prop where
  shape : Shape r (gap ++ (body ++ rest))
  dequeue : (gap ++ (body ++ rest)).head? = some r.dequeue
  spots : body.filter (fun p => p.idx ≠ 63) = queued.map Prod.fst
  trbs : ∀ c ∈ queued, (r.trb c.1).setCycle false = c.2.setCycle false

/-- The slow path is taken for any TRB but the last one of the TD. -/
theorem slow_path {r : Ring} {td : Td} {eventTrb : TrbPtr} {event : Event} {urb : Lengths.Urb} {status : Int}
    (inner : eventTrb ≠ td.lastTrb) : (processBulkIntrTd r td eventTrb event urb status).1.actualLength = slowLength r eventTrb event := by
  rw [processBulkIntrTd, if_neg inner]
  rfl

/-! ### The TRBs of a transfer -/

section
variable {q : Quirks} {hciVersion : BitVec 16} {env : Isoc.Env} {r r' : Ring} {urb : Bulk.Urb} {out : Outcome}

/-- The TRBs that are counted. -/
def trbsNeeded (urb : Bulk.Urb) : Option (BitVec 32) :=
  if urb.sg.isEmpty then countTrbsNeeded urb else countSgTrbsNeeded urb

/-- The TRBs have the data of the transfer, the last of them is noted in the TD, and there are
    as many as have been counted. -/
structure Whole (urb : Bulk.Urb) (out : Outcome) : Prop where
  count : out.queued.length = 1 ∨
    (out.queued.length < 2 ^ 31 ∧ trbsNeeded urb = some (BitVec.ofNat 32 out.queued.length))
  work : ∀ c ∈ out.queued, c.2.isNoop = false ∧ c.2.isLink = false
  total : (out.queued.map fun c => (trbLen c.2.field2).toNat).sum = urb.transferBufferLength.toNat
  lastTrb : out.lastTrb = out.queued.getLast?.map Prod.fst

/-- What a successful call has done: the ring had been prepared, and then the loop ran. -/
structure Ran (q : Quirks) (env : Isoc.Env) (r : Ring) (out : Outcome) (s : Setup) (numTrbs : BitVec 32) (r' x : Ring) : Prop where
  prepared : Isoc.prepareTransfer q r numTrbs.toNat 0 env = (0, r')
  follows : Follows s numTrbs r' out.queued x
  nonempty : out.queued ≠ []
  ring : out.ring = x.givebackFirstTrb r'.cycleState r'.enqueue env.write
  quirks : s.q = q
  moreThanOne : ∀ n < 2 ^ 31, s.moreThanOne (BitVec.ofNat 32 n) = decide (1 < n)

theorem queueTx_ran {numTrbs : BitVec 32} {moreThanOne : BitVec 32 → Bool} {next : Tx → Option Tx} {begin : Ring → Tx}
    (called : queueTx q hciVersion urb numTrbs moreThanOne next begin env r = some out) (ok : out.status = 0)
    (steady : ∀ x x', next x = some x' → Steady x x')
    (begins : ∀ r, (begin r).ring = r ∧ (begin r).numTrbs = numTrbs ∧ (begin r).queued = [])
    (few : ∀ n < 2 ^ 31, moreThanOne (BitVec.ofNat 32 n) = decide (1 < n)) :
    ∃ s r' x, Ran q env r out s numTrbs r' x := by
  obtain ⟨r', prepared⟩ := prepared_of_status (f := queueTx q hciVersion urb numTrbs moreThanOne next begin env)
    (fun r' error prepared failed => queueTx_error prepared failed) called ok
  rw [queueTx, prepared] at called
  simp only at called
  split at called
  · simp at called
  · rename_i x result
    rw [Option.some.injEq] at called
    subst called
    obtain ⟨ring, number, nothing⟩ := begins r'
    obtain ⟨c, cs, calls, follows⟩ := queueLoop_follows steady result
    rw [nothing, List.nil_append] at calls
    rw [number, ring] at follows
    exact ⟨_, r', x.ring, prepared, by rw [calls]; exact follows, by rw [calls]; simp, rfl, rfl, few⟩

theorem Submitted.ran (submitted : Submitted q hciVersion env r urb out) :
    ∃ s numTrbs r' x, Ran q env r out s numTrbs r' x ∧ trbsNeeded urb = some numTrbs := by
  obtain ⟨called, ok, -⟩ := submitted
  rw [trbsNeeded]
  split_ifs at called with contiguous
  · rw [queueBulkTx] at called
    rw [if_pos contiguous]
    split at called
    · rename_i numTrbs counted
      obtain ⟨s, r', x, ran⟩ := queueTx_ran called ok (fun _ _ => steady_bulkNext) (fun _ => ⟨rfl, rfl, rfl⟩) moreThanOne_signed
      exact ⟨s, numTrbs, r', x, ran, counted⟩
    · simp at called
  · rw [queueBulkSgTx] at called
    rw [if_neg contiguous]
    split at called
    · rename_i sg sgs numTrbs _ counted
      obtain ⟨s, r', x, ran⟩ := queueTx_ran called ok (fun _ _ => steady_sgNext) (fun _ => ⟨rfl, rfl, rfl⟩) moreThanOne_unsigned
      exact ⟨s, numTrbs, r', x, ran, counted⟩
    · simp at called

/-- The lengths of the TRBs add up to that of the transfer. -/
theorem queues_total {whole : List (BitVec 64)} {n : Nat} (queues : Queues q env r urb whole n out) :
    (out.queued.map fun c => (trbLen c.2.field2).toNat).sum = whole.length := by
  rw [← queues.bytes, List.length_flatMap]
  simp only [Cuts.length_bytes]
  rfl

/-- Everything about an empty scatter-gather transfer is counted with at most one TRB. -/
theorem countSg_empty {numTrbs : BitVec 32} (empty : urb.transferBufferLength = 0) (proper : ProperSgs urb.sg)
    (counted : countSgTrbsNeeded urb = some numTrbs) : (1 : BitVec 32).ult numTrbs = false := by
  rw [countSgTrbsNeeded, empty] at counted
  cases list : urb.sg with
  | nil =>
    rw [list, countSgLoop, Option.some.injEq] at counted
    rw [← counted]
    rfl
  | cons sg sgs =>
    obtain ⟨_, fits⟩ := proper sg (by rw [list]; simp)
    have left : (0 : BitVec 32) - minInt sg.dmaLength 0 = 0 := by
      rw [minInt, slt_toNat fits (by decide), if_neg (by simp)]
      rfl
    have stops : (toBoundary sg.dmaAddress &&& (trbMaxBuffSize - 1)).slt 0 = false := by
      rw [slt_toNat (by rw [toBoundary_and]; omega) (by decide)]
      simp
    rw [list, countSgLoop, countEntry] at counted
    have once (numTrbs : BitVec 32) : countLoop (fun t => t.ult sg.dmaLength && t.slt 0) countFuel
        (toBoundary sg.dmaAddress &&& (trbMaxBuffSize - 1)) numTrbs = some numTrbs := by
      rw [countFuel, countLoop, stops, Bool.and_false, if_neg Bool.false_ne_true]
    simp only [once, Option.bind_some, left, if_true, Option.some.injEq] at counted
    rw [← counted]
    split_ifs <;> rfl

theorem length_sgBytes (sgs : List Sg) : (sgBytes sgs).length = sgLength sgs := by
  simp [sgBytes, sgLength, List.length_flatMap]

/-- Both functions queue the whole transfer. -/
theorem Submitted.whole (submitted : Submitted q hciVersion env r urb out) : Whole urb out := by
  obtain ⟨s, numTrbs, r0, x, ran, _⟩ := submitted.ran
  have work := ran.follows.work
  obtain ⟨called, ok, small, proper, enough⟩ := submitted
  by_cases contiguous : urb.sg = []
  · rw [if_pos (by rw [contiguous]; rfl)] at called
    obtain ⟨r', prepared⟩ := prepared_of_status (f := queueBulkTx q hciVersion urb env)
      (fun r' error prepared failed => by rw [queueBulkTx, countTrbsNeeded_pieces small]; exact queueTx_error prepared failed)
      called ok
    rw [bulkPieces_value small] at prepared
    obtain ⟨out', result, queues, _⟩ := queueBulkTx_pieces hciVersion small prepared
    rw [called, Option.some.injEq] at result
    subst result
    have few := (bulkPieces_inside urb).2.2.2.2
    refine ⟨.inr ⟨?_, ?_⟩, work, by rw [queues_total queues, Cuts.length_bytes], queues.lastTrb⟩
    · rw [queues.count]
      omega
    · rw [trbsNeeded, if_pos (by rw [contiguous]; rfl), countTrbsNeeded_pieces small, queues.count]
  rw [if_neg (by simpa using contiguous)] at called
  by_cases empty : urb.transferBufferLength = 0
  · obtain ⟨s, x, _, moreThanOne, counted, ⟨_, len, nothing⟩, queued, lastTrb⟩ := queueBulkSgTx_empty empty proper called ok
    have last : s.moreThanOne x.numTrbs = false := by
      rw [moreThanOne]
      exact countSg_empty empty proper counted
    obtain ⟨t, trbs, field⟩ : ∃ t : Trb, (queuePiece s x).queued = x.queued ++ [(x.ring.enqueue, t)] ∧
      t.field2 = trbLen x.trbBuffLen ||| s.remainder x.runningTotal x.trbBuffLen x.numTrbs := ⟨_, rfl, rfl⟩
    refine ⟨.inl (by rw [queued, trbs, nothing]; rfl), work, ?_, ?_⟩
    · rw [queued, trbs, nothing, empty, len] at *
      have none := trbLen_or (n := 0) (by decide) (remainder_and s x.runningTotal 0 x.numTrbs)
      simpa [field] using none
    · rw [lastTrb, queued, trbs, nothing]
      simp [queuePiece, last]
  · have transfer : SgTransfer urb :=
      ⟨proper, enough contiguous, Nat.pos_of_ne_zero fun none => empty (BitVec.eq_of_toNat_eq none), small⟩
    obtain ⟨r', prepared⟩ := prepared_of_status (f := queueBulkSgTx q hciVersion urb env)
      (fun r' error prepared failed => transfer.fails prepared failed) called ok
    rw [transfer.value] at prepared
    obtain ⟨out', result, queues, _⟩ := transfer.queues hciVersion prepared
    rw [called, Option.some.injEq] at result
    subst result
    have few := transfer.few
    refine ⟨.inr ⟨?_, ?_⟩, work, ?_, queues.lastTrb⟩
    · rw [queues.count]
      omega
    · rw [trbsNeeded, if_neg (by simpa using contiguous), transfer.count, queues.count]
    · rw [queues_total queues, List.length_take, length_sgBytes]
      exact Nat.min_eq_left (enough contiguous)

end

/-! ### Where the TRBs are -/

section
variable {q : Quirks} {r r' : Ring} {busy idle : List TrbPtr}

/-- Once they are queued, the TRBs of a transfer lie behind those that were already there. -/
theorem Submitted.lies {hciVersion : BitVec 16} {env : Isoc.Env} {urb : Bulk.Urb} {out : Outcome} {numTrbs : BitVec 32}
    (submitted : Submitted q hciVersion env r urb out) (counted : trbsNeeded urb = some numTrbs)
    (prepared : Isoc.prepareTransfer q r numTrbs.toNat 0 env = (0, r')) (queue : Queue r' busy idle)
    (inner : r'.enqueue.idx ≠ 63) (room : out.queued.length + 1 ≤ nonlinks idle) :
    ∃ body rest, Lies out.ring out.queued busy body rest := by
  obtain ⟨s, numTrbs', r'', x, ran, counted'⟩ := submitted.ran
  obtain ⟨count, _, _, _⟩ := submitted.whole
  obtain rfl := Option.some.inj (counted.symm.trans counted')
  obtain rfl : r' = r'' := (Prod.ext_iff.mp (prepared.symm.trans ran.prepared)).2
  have goesOn (k : Nat) (below : k + 1 < out.queued.length) : s.moreThanOne (numTrbs - BitVec.ofNat 32 k) = true := by
    rcases count with one | ⟨few, number⟩
    · omega
    · obtain rfl := Option.some.inj (counted.symm.trans number)
      exact more_left ran.moreThanOne few below
  obtain ⟨body, rest, rfl, queue', spots, trbs, kept⟩ := ran.follows.placed queue (fun _ => inner) goesOn room
  obtain ⟨cache, cacheEnqueue, ring⟩ := givebackFirstTrb_eq x r'.cycleState r'.enqueue env.write
  have read (p : TrbPtr) : out.ring.trb p = if p = r'.enqueue then (x.trb p).setCycle r'.cycleState else x.trb p := by
    rw [ran.ring, ring]
    have flipped := trb_modifyTrb x r'.enqueue p (·.setCycle r'.cycleState)
    split_ifs with same
    · rw [if_pos same] at flipped
      rw [same] at flipped ⊢
      exact flipped
    · rw [if_neg same] at flipped
      exact flipped
  refine ⟨body, rest, ?_, ?_, spots, ?_⟩
  · rw [← List.append_assoc]
    apply queue'.shape.edit
    · rw [ran.ring, ring]
      rfl
    · rw [ran.ring, ring]
      rfl
    · rw [ran.ring, ring]
      rfl
    · rw [ran.ring, ring]
      rfl
    · intro p _
      rw [read]
      split_ifs <;> simp
    · intro p _ _
      rw [read]
      split_ifs <;> simp
  · have dequeue : out.ring.dequeue = r'.dequeue := by
      rw [ran.ring, ring]
      exact kept.dequeue
    rw [dequeue]
    rcases queue.dequeue with first | ⟨_, onLink, _⟩
    · exact first
    · exact absurd onLink inner
  · intro c member
    rw [ran.ring, setCycle_givebackFirstTrb, trbs c member]

theorem isNoop_flipCycle (t : Trb) : t.flipCycle.isNoop = t.isNoop := by
  simp only [Trb.flipCycle, Trb.isNoop, Trb.xor_and_of_disjoint (show Trb.trbCycle &&& Trb.trbTypeBitmask = 0 from rfl)]

/-- What `td_to_noop` leaves has no work in it. -/
theorem noopTrb_idle (flipCycle : Bool) (first last p : TrbPtr) (t : Trb) :
    (!(noopTrb flipCycle first last p t).isNoop && !(noopTrb flipCycle first last p t).isLink) = false := by
  rw [isLink_noopTrb]
  cases isLink : t.isLink with
  | true => simp
  | false =>
    rw [noopTrb, if_neg (by simp [isLink])]
    split_ifs <;> simp [isNoop_flipCycle]

/-- A TD in front that is cancelled loses its work and stays where it is. -/
theorem Lies.cancelled {queued : List (TrbPtr × Trb)} (front mid back : List TrbPtr) {body rest : List TrbPtr} {first last : TrbPtr}
    (lies : Lies r queued (front ++ (mid ++ last :: back)) body rest) (start : (mid ++ last :: back).head? = some first)
    (flipCycle : Bool) : Lies (r.tdToNoop first last flipCycle) queued (front ++ (mid ++ last :: back)) body rest ∧
      (∀ p ∈ mid ++ [last], isWork (r.tdToNoop first last flipCycle) p = false) ∧
      ∀ p, isWork r p = false → isWork (r.tdToNoop first last flipCycle) p = false := by
  have shape := lies.shape
  have path : front ++ (mid ++ last :: back) ++ (body ++ rest) = front ++ (mid ++ last :: (back ++ (body ++ rest))) := by simp
  have distinct := shape.isLap.1
  rw [path] at shape
  have begins : (mid ++ last :: (back ++ (body ++ rest))).head? = some first := by
    cases mid with
    | nil => simpa using start
    | cons p mid => simpa using start
  obtain ⟨trbs, eq, shape', read⟩ := tdToNoop_eq flipCycle shape begins
  rw [← path] at shape'
  have now (p : TrbPtr) : isWork (r.tdToNoop first last flipCycle) p = if p ∈ mid ++ [last] then false else isWork r p := by
    rw [isWork, read]
    split_ifs
    · exact noopTrb_idle flipCycle first last p (r.trb p)
    · rfl
  refine ⟨⟨shape', by rw [eq]; exact lies.dequeue, lies.spots, ?_⟩, ?_, ?_⟩
  · intro c member
    have behind : c.1 ∈ body := by
      have spot : c.1 ∈ body.filter fun p => p.idx ≠ 63 := by
        rw [lies.spots]
        exact List.mem_map_of_mem member
      exact List.mem_of_mem_filter spot
    have apart : c.1 ∉ mid ++ [last] := by
      intro cancelled
      refine List.disjoint_of_nodup_append distinct ?_ (List.mem_append_left rest behind)
      rw [List.mem_append, List.mem_singleton] at cancelled
      simp [or_assoc.symm, cancelled]
    rw [read, if_neg apart]
    exact lies.trbs c member
  · intro p member
    rw [now, if_pos member]
  · intro p idle
    rw [now, idle, ite_self]

end

/-! ### Both paths -/

theorem isNoop_setCycle (t : Trb) (c : Bool) : (t.setCycle c).isNoop = t.isNoop := by
  cases c
  · simp [Trb.setCycle, Trb.isNoop, Trb.andNot_and_of_disjoint (show Trb.trbCycle &&& Trb.trbTypeBitmask = 0 from rfl)]
  · simp [Trb.setCycle, Trb.isNoop, Trb.or_and_of_disjoint (show Trb.trbCycle &&& Trb.trbTypeBitmask = 0 from rfl)]

section
variable {r : Ring} {queued init : List (TrbPtr × Trb)} {last : TrbPtr × Trb} {gap body rest : List TrbPtr}

theorem Lies.lenAt_eq (lies : Lies r queued gap body rest) {c : TrbPtr × Trb} (member : c ∈ queued) :
    lenAt r c.1 = trbLen c.2.field2 := by
  have same : ((r.trb c.1).setCycle false).field2 = (c.2.setCycle false).field2 := by rw [lies.trbs c member]
  rw [lenAt]
  exact congrArg trbLen same

/-- The work of the TD are its TRBs, and no links. -/
theorem Lies.isWork_eq (lies : Lies r queued gap body rest) (work : ∀ c ∈ queued, c.2.isNoop = false ∧ c.2.isLink = false)
    {p : TrbPtr} (member : p ∈ body) : isWork r p = decide (p.idx ≠ 63) := by
  have links := lies.shape.links p (by simp [member])
  by_cases inner : p.idx ≠ 63
  · obtain ⟨c, here, rfl⟩ : ∃ c ∈ queued, c.1 = p := by
      have spot : p ∈ body.filter fun p => p.idx ≠ 63 := List.mem_filter.mpr ⟨member, by simpa using inner⟩
      rw [lies.spots] at spot
      exact List.mem_map.mp spot
    have noNoop : ((r.trb c.1).setCycle false).isNoop = (c.2.setCycle false).isNoop := by rw [lies.trbs c here]
    rw [isNoop_setCycle, isNoop_setCycle] at noNoop
    rw [isWork, noNoop, (work c here).1, Bool.eq_false_iff.mpr (mt links.mp inner), decide_eq_true inner]
    rfl
  · rw [isWork, links.mpr (not_not.mp inner), decide_eq_false inner]
    simp

/-- Where the last TRB is, and what is in front of it. -/
theorem Lies.split (lies : Lies r (init ++ [last]) gap body rest) : ∃ front back, body = front ++ last.1 :: back ∧
    front.filter (fun p => p.idx ≠ 63) = init.map Prod.fst := by
  have spots := lies.spots
  rw [List.map_append, List.map_singleton] at spots
  obtain ⟨front, tail, split, before, behind⟩ := List.filter_eq_append_iff.mp spots
  obtain ⟨links, back, rfl, none, _, _⟩ := List.filter_eq_cons_iff.mp behind
  refine ⟨front ++ links, back, by rw [split, List.append_assoc], ?_⟩
  rw [List.filter_append, before, List.filter_eq_nil_iff.mpr none, List.append_nil]

/-- The slow path adds up the TRBs in front of the last one. -/
theorem Lies.lenBefore_eq (lies : Lies r (init ++ [last]) gap body rest)
    (work : ∀ c ∈ init ++ [last], c.2.isNoop = false ∧ c.2.isLink = false) (idle : ∀ p ∈ gap, isWork r p = false) :
    lenBefore r last.1 = BitVec.ofNat 32 (init.map fun c => (trbLen c.2.field2).toNat).sum := by
  obtain ⟨front, back, rfl, before⟩ := lies.split
  have shape := lies.shape
  have first := lies.dequeue
  have path : gap ++ (front ++ last.1 :: back ++ rest) = (gap ++ front) ++ last.1 :: (back ++ rest) := by simp
  rw [path] at shape first
  have walked : walk r.nextTrb last.1 (trbsPerSegment * r.numSegs) r.dequeue = gap ++ front := RingAccount.span_eq shape first
  have passed : (gap ++ front).filter (isWork r) = init.map Prod.fst := by
    rw [List.filter_append, List.filter_eq_nil_iff.mpr (fun p member => by simp [idle p member]), List.nil_append, ← before]
    exact List.filter_congr fun p member => lies.isWork_eq work (by simp [member])
  have lengths : bytes r (init.map Prod.fst) = (init.map fun c => (trbLen c.2.field2).toNat).sum := by
    rw [bytes, List.map_map]
    congr 1
    apply List.map_congr_left
    intro c member
    rw [Function.comp_apply, lies.lenAt_eq (by simp [member])]
  rw [lenBefore, lenLoop_eq, walked, passed, lengths]
  exact BitVec.zero_add _

end

/-- The fast path takes what is left of the transfer, since the residual is not too large. -/
theorem fast_path {r : Ring} {td : Td} {event : Event} {urb : Lengths.Urb} {status : Int}
    (residual : eventTrbLen event ≤ urb.transferBufferLength) :
    (processBulkIntrTd r td td.lastTrb event urb status).1.actualLength = urb.transferBufferLength - eventTrbLen event := by
  have less : urb.transferBufferLength - eventTrbLen event ≤ urb.transferBufferLength := by
    rw [BitVec.le_def, BitVec.toNat_sub_of_le residual]
    exact Nat.sub_le _ _
  rw [processBulkIntrTd, if_pos rfl]
  by_cases short : eventTrbLen event ≠ 0
  · rw [if_pos short]
    dsimp only
    rw [if_neg (BitVec.not_lt.mpr less)]
  · rw [if_neg short, not_not.mp short]
    exact (BitVec.sub_zero _).symm

/-- The fast path has the same length as the slow one for the last TRB of the first TD of the
    list, if the TRBs in front of it have no work in them. -/
theorem fastPath_eq_slowPath {q : Quirks} {hciVersion : BitVec 16} {env : Isoc.Env} {r r' : Ring} {urb : Bulk.Urb} {out : Outcome}
    {gap body rest : List TrbPtr} {td : Td} {event : Event} {data : Lengths.Urb}
    (submitted : Submitted q hciVersion env r urb out) (isLast : out.lastTrb = some td.lastTrb)
    (lies : Lies r' out.queued gap body rest) (idle : ∀ p ∈ gap, isWork r' p = false)
    (own : data.transferBufferLength = urb.transferBufferLength) (code : event.code = compSuccess ∨ event.code = compShortTx)
    (residual : eventTrbLen event ≤ lenAt r' td.lastTrb) (status : Int) :
    (processBulkIntrTd r' td td.lastTrb event data status).1.actualLength = slowLength r' td.lastTrb event := by
  obtain ⟨_, work, total, lastTrb⟩ := submitted.whole
  obtain ⟨last, ends, is_last⟩ := Option.map_eq_some_iff.mp (lastTrb.symm.trans isLast)
  obtain ⟨init, all⟩ := List.getLast?_eq_some_iff.mp ends
  rw [all] at lies work total
  rw [← is_last] at residual
  have len : lenAt r' last.1 = trbLen last.2.field2 := lies.lenAt_eq (by simp)
  have whole : (init.map fun c => (trbLen c.2.field2).toNat).sum + (lenAt r' last.1).toNat = urb.transferBufferLength.toNat := by
    rw [List.map_append, List.sum_append] at total
    rw [len, ← total]
    simp
  have sum : data.transferBufferLength =
      BitVec.ofNat 32 (init.map fun c => (trbLen c.2.field2).toNat).sum + lenAt r' last.1 := by
    rw [own]
    apply BitVec.eq_of_toNat_eq
    rw [BitVec.toNat_add, BitVec.toNat_ofNat, Nat.mod_add_mod, whole, Nat.mod_eq_of_lt urb.transferBufferLength.isLt]
  have fits : eventTrbLen event ≤ data.transferBufferLength := by
    rw [own, BitVec.le_def]
    rw [BitVec.le_def] at residual
    omega
  have goesOn : event.code ≠ compStopInval := by
    rcases code with success | short
    · rw [success]
      decide
    · rw [short]
      decide
  rw [fast_path fits, slowLength, if_pos goesOn, ← is_last, lies.lenBefore_eq work idle, sum]
  exact add_sub_assoc _ _ _

/-- The bulk ring with a TD of one TRB in front, two TRBs before the first link. -/
def lateRing : Ring :=
  { RingAccount.bulkRing with dequeue := ⟨0x1000, 60⟩, enqueue := ⟨0x1000, 61⟩, numTrbsFree := 124 }

def lateLap : List TrbPtr := run 0x1000 60 4 ++ (run 0x1400 0 64 ++ run 0x1000 0 60)

theorem lateRing_shape : Shape lateRing lateLap :=
  ⟨by decide, by decide +kernel, by decide +kernel, by decide +kernel, by decide +kernel, by decide +kernel, by decide +kernel,
    by decide +kernel, by decide +kernel⟩

theorem lateRing_prepared : Isoc.prepareTransfer ⟨false, false⟩ lateRing 3 0 quietEnv = (0, lateRing) := by
  have prepared : lateRing.prepareRing ⟨false, false⟩ 1 3 [] 0 = (0, lateRing) := by
    rw [Ring.prepareRing, if_neg (by decide), RingAccount.makeRoom_of_enough _ (by decide +kernel)]
    exact if_neg (by decide +kernel)
  rw [Isoc.prepareTransfer, show quietEnv.epState 0 = 1 from rfl, show quietEnv.answers 0 = [] from rfl,
    show quietEnv.status 0 = 0 from rfl, prepared]
  rfl

theorem late_some : (queueBulkTx ⟨false, false⟩ 0x100 unaligned quietEnv lateRing).isSome = true := by decide +kernel

def lateOut : Outcome := Option.get _ late_some

theorem lateOut_submitted : Submitted ⟨false, false⟩ 0x100 quietEnv lateRing unaligned lateOut := by
  refine ⟨(Option.some_get late_some).symm, by decide +kernel, by decide, ?_, by simp [unaligned]⟩
  intro sg member
  simp [unaligned] at member

/-- The TD in front is cancelled, and of a TD around the link all but 100 bytes have been
    transferred. -/
theorem fastPath_eq_slowPath_late :
    let r := lateOut.ring.tdToNoop ⟨0x1000, 60⟩ ⟨0x1000, 60⟩ false
    (processBulkIntrTd r ⟨7, 0, ⟨0x1000, 61⟩, ⟨0x1400, 0⟩⟩ ⟨0x1400, 0⟩ ⟨compShortTx, 0x1400, 100⟩ ⟨131072, 0, false, []⟩
      0).1.actualLength = slowLength r ⟨0x1400, 0⟩ ⟨compShortTx, 0x1400, 100⟩ := by
  have queue : Queue lateRing [⟨0x1000, 60⟩] (run 0x1000 61 3 ++ (run 0x1400 0 64 ++ run 0x1000 0 60)) :=
    ⟨lateRing_shape, rfl, .inl rfl, by decide +kernel⟩
  have counted : trbsNeeded unaligned = some 3 := by decide +kernel
  obtain ⟨body, rest, lies⟩ := lateOut_submitted.lies counted lateRing_prepared queue (by decide) (by decide +kernel)
  obtain ⟨lies', idle, _⟩ := Lies.cancelled [] [] [] lies rfl false
  exact fastPath_eq_slowPath lateOut_submitted (by decide +kernel) lies' idle rfl (.inr rfl) (by decide +kernel) 0

end Ehub.FastPath
