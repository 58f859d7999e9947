import Mathlib
import Ehub.Td

/-!
Isochronous URBs (`xhci_queue_isoc_tx`). Every packet of the URB is a TD of its own.
The TDs are queued one after the other, and when one of them cannot be queued the
driver takes back those before it: it turns what it has queued into no-ops that the
controller does not own and sets the ring back to where it began.
-/
namespace Ehub.Isoc
open Ehub.Lap Ehub.Segments Ehub.Ring Ehub.RingShape Ehub.RingAccount Ehub.RingFifo

/-- `struct usb_iso_packet_descriptor`. -/
structure Packet where
  offset : Nat
  length : Nat

/-- An isochronous URB, with what the driver works out for its TRBs: the burst count and
    the residue of each packet, the address of the data and the length word of each
    TRB, and whether the controller takes the BEI bit. -/
structure Urb where
  id : Nat
  transferBuffer : Nat
  transferDma : Nat
  dirIn : Bool
  packets : List Packet
  burstCount : Nat → BitVec 32
  residue : Nat → BitVec 32
  dataAddr : Nat → Nat → BitVec 64
  lengthField : Nat → Nat → BitVec 32
  bei : Bool

/-- What happens around the call: the endpoint's state, the answers of the allocators and
    the status of the link's cache write at each `prepare_transfer`, the error number
    of `usb_hcd_link_urb_to_ep` (0 for success), and the cache writes at the end. -/
structure Env where
  epState : Nat → Nat
  answers : Nat → List Answers
  status : Nat → Int
  linkUrb : Nat
  write : Nat → CacheWrite

/-- `count_isoc_trbs_needed`. -/
def countIsocTrbsNeeded (urb : Urb) (p : Packet) (maxBufferSize : Nat) : Nat :=
  let addr := urb.transferDma + p.offset
  let numTrbs := (p.length + (addr &&& (maxBufferSize - 1)) + maxBufferSize - 1) / maxBufferSize
  if numTrbs = 0 then numTrbs + 1 else numTrbs

/-- The lengths of the buffers of a TD of `n` TRBs. -/
def bufferLengths (maxBufferSize : Nat) : Nat → Nat → Nat → List Nat
  | 0, _, _ => []
  | n + 1, addr, remain =>
    let len := min (maxBufferSize - (addr &&& (maxBufferSize - 1))) remain
    len :: bufferLengths maxBufferSize n (addr + len) (remain - len)

def trbIsoc : BitVec 32 := 5
def trbNormal : BitVec 32 := 1
def trbIsp : BitVec 32 := 1 <<< 2
def trbIoc : BitVec 32 := 1 <<< 5
def trbBei : BitVec 32 := 1 <<< 9
def trbSia : BitVec 32 := 1 <<< 31
def trbTbc (p : BitVec 32) : BitVec 32 := (p &&& 0x3) <<< 7
def trbTlbpc (p : BitVec 32) : BitVec 32 := (p &&& 0xf) <<< 16

/-- The control word of a TRB of TD `i`, but for the cycle bit. -/
def controlField (urb : Urb) (i : Nat) (isFirst isLast : Bool) : BitVec 32 :=
  (if isFirst then trbTbc (urb.burstCount i) ||| trbTlbpc (urb.residue i) ||| Trb.trbType trbIsoc ||| trbSia
   else Trb.trbType trbNormal) |||
  (if urb.dirIn then trbIsp else 0) |||
  (if isLast then trbIoc ||| (if urb.bei ∧ i + 1 < urb.packets.length then trbBei else 0) else Trb.trbChain)

/-- The TRBs of TD `i`, but for their cycle bits. -/
def tdTrbs (urb : Urb) (i : Nat) : Bool → Nat → List Nat → List Trb
  | _, _, [] => []
  | isFirst, addr, len :: lens =>
    let data := urb.dataAddr addr len
    ⟨data.extractLsb' 0 32, data.extractLsb' 32 32, urb.lengthField i addr, controlField urb i isFirst lens.isEmpty⟩ ::
      tdTrbs urb i false (addr + len) lens

/-- The buffers of packet `p`. -/
def packetLengths (urb : Urb) (maxBufferSize : Nat) (p : Packet) : List Nat :=
  bufferLengths maxBufferSize (countIsocTrbsNeeded urb p maxBufferSize) (urb.transferBuffer + p.offset) p.length

def packetTrbs (urb : Urb) (maxBufferSize i : Nat) (p : Packet) : List Trb :=
  tdTrbs urb i true (urb.transferBuffer + p.offset) (packetLengths urb maxBufferSize p)

/-- The TDs of the URB, whatever the cycle bits of their TRBs. -/
def urbTds (urb : Urb) (maxBufferSize : Nat) : List (List Trb) :=
  urb.packets.mapIdx fun i p => (packetTrbs urb maxBufferSize i p).map (·.setCycle false)

/-- `prepare_transfer`: the TD joins `td_list` when the ring is prepared. -/
def prepareTransfer (q : Quirks) (r : Ring) (numTrbs i : Nat) (env : Env) : Int × Ring :=
  match r.prepareRing q (env.epState i) numTrbs (env.answers i) (env.status i) with
  | (0, r) => if i = 0 ∧ env.linkUrb ≠ 0 then (-env.linkUrb, r) else (0, r)
  | (error, r) => (error, r)

/-- The TRBs of a TD are queued; the very first one of the URB is held back by its cycle
    bit. -/
def queuePacket (q : Quirks) (startCycle : Bool) (i : Nat) (ts : List Trb) (r : Ring) : Ring :=
  match i, ts with
  | 0, t :: ts => queueRest q ts (r.queueTrb q (!ts.isEmpty) (t.setCycle (!startCycle)))
  | _, ts => queueRest q ts r

/-- Where the last of the TRBs goes. -/
def lastTrbOf (q : Quirks) : List Trb → Ring → TrbPtr
  | t :: t' :: ts, r => lastTrbOf q (t' :: ts) (r.queueTrb q true (t.setCycle r.cycleState))
  | _, r => r.enqueue

/-- `list_del_init` of the TDs before the `i`-th. -/
def removeTds (urb : Nat) : Nat → List Td → List Td
  | 0, tds => tds
  | i + 1, tds => removeTds urb i (tds.eraseP fun td => td.urb = urb ∧ td.index = i)

/-- What the cleanup of `xhci_queue_isoc_tx` needs to know of the beginning. -/
structure Start where
  firstTrb : TrbPtr
  cycle : Bool
  numTrbsFreeTemp : Int

/-- The cleanup of `xhci_queue_isoc_tx`, for the TDs before the `i`-th. -/
def cleanup (r : Ring) (tds : List Td) (urb i : Nat) (start : Start) : Ring × List Td :=
  ({ r.tdToNoop start.firstTrb r.enqueue true with
      enqueue := start.firstTrb
      cycleState := start.cycle
      numTrbsFree := start.numTrbsFreeTemp }, removeTds urb i tds)

/-- The loop of `xhci_queue_isoc_tx`, with the packets from the `i`-th on. -/
def queueIsocLoop (q : Quirks) (urb : Urb) (maxBufferSize : Nat) (env : Env) (startTrb : TrbPtr) :
    Nat → List Packet → Start → Ring → List Td → Int × Ring × List Td
  | _, [], start, r, tds => (0, r.givebackFirstTrb start.cycle startTrb env.write, tds)
  | i, p :: ps, start, r, tds =>
    let ts := packetTrbs urb maxBufferSize i p
    match prepareTransfer q r (countIsocTrbsNeeded urb p maxBufferSize) i env with
    | (0, r) =>
      let start := if i = 0 then { start with firstTrb := r.enqueue } else start
      let tds := tds ++ [⟨urb.id, i, r.enqueue, lastTrbOf q ts r⟩]
      let r := queuePacket q start.cycle i ts r
      if (packetLengths urb maxBufferSize p).sum ≠ p.length then (-eINVAL, cleanup r tds urb.id i start)
      else queueIsocLoop q urb maxBufferSize env startTrb (i + 1) ps start r tds
    | (error, r) => if i = 0 then (error, r, tds) else (error, cleanup r tds urb.id i start)

/-- `xhci_queue_isoc_tx`, on a ring with the given `td_list`. -/
def queueIsocTx (q : Quirks) (r : Ring) (tds : List Td) (urb : Urb) (maxBufferSize : Nat) (env : Env) :
    Int × Ring × List Td :=
  if urb.packets.length < 1 then (-eINVAL, r, tds)
  else
    queueIsocLoop q urb maxBufferSize env r.enqueue 0 urb.packets ⟨r.enqueue, r.cycleState, r.numTrbsFree⟩ r tds

/-- The TRBs that the packets before the `i`-th take. -/
def trbsBefore (urb : Urb) (maxBufferSize i : Nat) : Nat :=
  ((urb.packets.take i).map (countIsocTrbsNeeded urb · maxBufferSize)).sum

/-- The ring when the loop comes to packet `i`, as long as nothing fails. -/
def ringAt (q : Quirks) (r : Ring) (urb : Urb) (maxBufferSize : Nat) (env : Env) : Nat → Ring
  | 0 => r
  | i + 1 =>
    match urb.packets[i]? with
    | none => ringAt q r urb maxBufferSize env i
    | some p =>
      queuePacket q r.cycleState i (packetTrbs urb maxBufferSize i p)
        (prepareTransfer q (ringAt q r urb maxBufferSize env i) (countIsocTrbsNeeded urb p maxBufferSize) i env).2

/-- `ehub_xhci_queue_isoc_tx_prepare`, with the outcome of
    `ehub_xhci_cache_block_allocate_urb` for an endpoint that caches its data. -/
def queueIsocTxPrepare (q : Quirks) (r : Ring) (tds : List Td) (urb : Urb) (maxBufferSize : Nat)
    (epState : Nat) (answers : List Answers) (status : Int) (blocks : Int) (env : Env) : Int × Ring × List Td :=
  match r.prepareRing q epState (trbsBefore urb maxBufferSize urb.packets.length) answers status with
  | (0, r) => if blocks ≠ 0 then (blocks, r, tds) else queueIsocTx q r tds urb maxBufferSize env
  | (error, r) => (error, r, tds)

/-! ### The TRBs of a packet -/

theorem isLink_of_type {t : Trb} (bit : t.field3.getLsbD 10 = true) : t.isLink = false := by
  rw [Trb.isLink, beq_eq_false_iff_ne]
  intro same
  have clear : (t.field3 &&& Trb.trbTypeBitmask).getLsbD 10 = false := by
    rw [same]
    decide
  rw [BitVec.getLsbD_and, bit] at clear
  simp [Trb.trbTypeBitmask] at clear

theorem controlField_type (urb : Urb) (i : Nat) (isFirst isLast : Bool) :
    (controlField urb i isFirst isLast).getLsbD 10 = true := by
  cases isFirst <;> simp [controlField, Trb.trbType, trbIsoc, trbNormal]

theorem controlField_last (urb : Urb) (i : Nat) (isFirst : Bool) :
    (controlField urb i isFirst true).getLsbD 4 = false := by
  rw [controlField, if_pos rfl]
  split_ifs <;>
    simp [Trb.trbType, trbIsoc, trbNormal, trbIsp, trbIoc, trbBei, trbSia, trbTbc, trbTlbpc]

theorem length_bufferLengths (maxBufferSize : Nat) : ∀ n addr remain,
    (bufferLengths maxBufferSize n addr remain).length = n := by
  intro n
  induction n with
  | zero => exact fun _ _ => rfl
  | succ n ih => exact fun addr remain => by rw [bufferLengths, List.length_cons, ih]

theorem tdTrbs_length (urb : Urb) (i : Nat) : ∀ lens isFirst addr, (tdTrbs urb i isFirst addr lens).length = lens.length := by
  intro lens
  induction lens with
  | nil => exact fun _ _ => rfl
  | cons len lens ih => exact fun isFirst addr => by rw [tdTrbs, List.length_cons, ih, List.length_cons]

theorem tdTrbs_plain (urb : Urb) (i : Nat) : ∀ lens isFirst addr, ∀ t ∈ tdTrbs urb i isFirst addr lens, t.isLink = false := by
  intro lens
  induction lens with
  | nil => simp [tdTrbs]
  | cons len lens ih =>
    intro isFirst addr t member
    rcases List.mem_cons.mp member with rfl | inRest
    · exact isLink_of_type (controlField_type urb i isFirst _)
    · exact ih false _ t inRest

theorem tdTrbs_last (urb : Urb) (i : Nat) : ∀ lens isFirst addr t, (tdTrbs urb i isFirst addr lens).getLast? = some t →
    t.chain = false := by
  intro lens
  induction lens with
  | nil => simp [tdTrbs]
  | cons len lens ih =>
    intro isFirst addr t isLast
    cases lens with
    | nil =>
      simp only [tdTrbs, List.getLast?_singleton, Option.some.injEq] at isLast
      rw [← isLast]
      exact controlField_last urb i isFirst
    | cons len' lens =>
      refine ih false (addr + len) t ?_
      rw [← isLast, tdTrbs, tdTrbs, tdTrbs, List.getLast?_cons_cons]

theorem countIsocTrbsNeeded_pos (urb : Urb) (p : Packet) (maxBufferSize : Nat) :
    0 < countIsocTrbsNeeded urb p maxBufferSize := by
  simp only [countIsocTrbsNeeded]
  split_ifs with none
  · omega
  · exact Nat.pos_of_ne_zero none

theorem length_packetTrbs (urb : Urb) (maxBufferSize i : Nat) (p : Packet) :
    (packetTrbs urb maxBufferSize i p).length = countIsocTrbsNeeded urb p maxBufferSize := by
  rw [packetTrbs, tdTrbs_length, packetLengths, length_bufferLengths]

/-! ### Filling the ring -/

/-- The TRBs of `done` have been queued on `r`: they have changed hands, but for the
    first one. -/
structure Filling (r r' : Ring) (busy done idle : List TrbPtr) : Prop where
  queue : Queue r' (busy ++ done) idle
  kept : Kept r r' done
  cycleState : r'.cycleState = phase (flipsAt r) r.cycleState done
  taken : ∀ p ∈ done, p ≠ r.enqueue → cycleAt r' p = !cycleAt r p
  first : cycleAt r' r.enqueue = cycleAt r r.enqueue

section
variable {r r' : Ring} {busy done idle : List TrbPtr} {c : Bool}

theorem filling_start (queue : Queue r busy idle) : Filling r r busy [] idle := by
  refine ⟨by simpa using queue, ⟨fun _ _ => rfl, rfl, rfl, rfl, rfl, rfl, rfl⟩, rfl, ?_, rfl⟩
  intro p member
  simp at member

/-- The cycle bit of a TRB that is still free. -/
theorem Filling.next_free (filling : Filling r r' busy done idle) (phased : Phased r busy (done ++ idle) c) :
    cycleAt r r'.enqueue = !r'.cycleState := by
  obtain ⟨rest, rfl⟩ := filling.queue.idle_eq
  have free := (inPhase_append _ _ _).mp phased.free
  rw [filling.cycleState, ← phase_not]
  exact free.2.1

/-- One more TRB changes hands. -/
theorem Filling.forward {r'' : Ring} {rest : List TrbPtr} (filling : Filling r r' busy done (r'.enqueue :: rest))
    (queue : Queue r'' (busy ++ done ++ [r'.enqueue]) rest) (kept : Kept r' r'' [r'.enqueue])
    (cycleState : r''.cycleState = (r'.cycleState ^^ flipsAt r r'.enqueue))
    (cycle : cycleAt r'' r'.enqueue = (!cycleAt r r'.enqueue ^^ decide (r'.enqueue = r.enqueue))) :
    Filling r r'' busy (done ++ [r'.enqueue]) rest := by
  have notDone : r'.enqueue ∉ done := by
    intro member
    have distinct := filling.queue.shape.isLap.1
    exact (List.nodup_append.mp distinct).2.2 _ (List.mem_append_right _ member) _ (by simp) rfl
  have before : ∀ p ∈ done, cycleAt r'' p = cycleAt r' p := by
    intro p member
    rw [cycleAt, cycleAt, kept.trb p]
    rintro inside
    rw [List.mem_singleton.mp inside] at member
    exact notDone member
  refine ⟨by simpa using queue, filling.kept.trans kept, ?_, ?_, ?_⟩
  · rw [cycleState, filling.cycleState, phase_append, phase_cons, phase_nil]
  · intro p member other
    rcases List.mem_append.mp member with inDone | here
    · rw [before p inDone, filling.taken p inDone other]
    · rw [List.mem_singleton.mp here] at other ⊢
      rw [cycle, decide_eq_false other, Bool.xor_false]
  · by_cases here : r'.enqueue = r.enqueue
    · rw [← here, cycle, decide_eq_true here]
      simp
    · rw [cycleAt, kept.trb r.enqueue (by simpa using fun same => here same.symm)]
      exact filling.first

theorem Filling.notDone (filling : Filling r r' busy done idle) : r'.enqueue ∉ done := by
  obtain ⟨rest, rfl⟩ := filling.queue.idle_eq
  intro member
  have distinct := filling.queue.shape.isLap.1
  exact (List.nodup_append.mp distinct).2.2 _ (List.mem_append_right _ member) _ (by simp) rfl

/-- The flips are where they were on the ring as it was. -/
theorem Filling.flipsAt_eq (filling : Filling r r' busy done idle) (shape : Shape r (busy ++ done ++ idle)) {p : TrbPtr}
    (member : p ∈ busy ++ done ++ idle) : flipsAt r' p = flipsAt r p := by
  rw [Bool.eq_iff_iff, flipsAt_iff filling.queue.shape member, flipsAt_iff shape member, filling.kept.lastSeg]

theorem Filling.linkGiven {rest : List TrbPtr} {t : Trb} (filling : Filling r r' busy done (r'.enqueue :: rest))
    (shape : Shape r (busy ++ done ++ r'.enqueue :: rest)) (start : r.enqueue.idx ≠ 63) (onLink : r'.enqueue.idx = 63)
    (same : SameLink (r'.trb r'.enqueue) t) (flipped : t.cycle = !(r'.trb r'.enqueue).cycle)
    (queue : Queue (RingShape.linkGiven r' t) (busy ++ done ++ [r'.enqueue]) rest) :
    Filling r (RingShape.linkGiven r' t) busy (done ++ [r'.enqueue]) rest := by
  have isLink := (filling.queue.shape.links _ filling.queue.enqueue_mem).mpr onLink
  refine filling.forward queue (kept_linkGiven r' t) ?_ ?_
  · rw [← filling.flipsAt_eq shape (by simp), ← toggle_sameLink same isLink]
    rfl
  · have other : r'.enqueue ≠ r.enqueue := by
      intro here
      rw [here] at onLink
      exact start onLink
    have here : cycleAt (RingShape.linkGiven r' t) r'.enqueue = t.cycle := by
      rw [cycleAt]
      exact congrArg Trb.cycle (trb_setTrb_same r' r'.enqueue t)
    rw [here, flipped, decide_eq_false other, Bool.xor_false, filling.kept.trb _ filling.notDone]
    rfl

/-- `queue_trb` takes a free TRB, and the link behind it if the TD goes on. -/
theorem Filling.queueTrb (q : Quirks) (filling : Filling r r' busy done idle) (queue : Queue r busy (done ++ idle))
    (phased : Phased r busy (done ++ idle) c) (start : r.enqueue.idx ≠ 63) (inner : r'.enqueue.idx ≠ 63) (more : Bool)
    {t : Trb} (plain : t.isLink = false) (cycle : t.cycle = (r'.cycleState ^^ decide (r'.enqueue = r.enqueue)))
    (room : 2 ≤ nonlinks idle) :
    ∃ links idle', idle = r'.enqueue :: links ++ idle' ∧ (∀ p ∈ links, p.idx = 63) ∧
      Filling r (r'.queueTrb q more t) busy (done ++ r'.enqueue :: links) idle' ∧
      contents (r'.queueTrb q more t) (done ++ r'.enqueue :: links) = contents r' done ++ [t.setCycle false] ∧
      (more = true → (r'.queueTrb q more t).enqueue.idx ≠ 63) ∧
      (more = false → t.chain = false → (r'.queueTrb q more t).enqueue.idx ≠ 0) := by
  have free := filling.next_free phased
  obtain ⟨rest, rfl⟩ := filling.queue.idle_eq
  have shape : Shape r (busy ++ done ++ r'.enqueue :: rest) := by simpa using queue.shape
  have put : Queue (stored r' t) (busy ++ done ++ [r'.enqueue]) rest →
      Filling r (stored r' t) busy (done ++ [r'.enqueue]) rest := by
    intro queue'
    refine filling.forward queue' (kept_stored r' t) ?_ ?_
    · rw [flipsAt_inner shape (by simp) inner, Bool.xor_false]
      rfl
    · have here : cycleAt (stored r' t) r'.enqueue = t.cycle :=
        congrArg Trb.cycle (trb_setTrb_same r' r'.enqueue t)
      rw [here, cycle, free, Bool.not_not]
  have written : (stored r' t).trb r'.enqueue = t := trb_setTrb_same r' r'.enqueue t
  have apart : ∀ links, (∀ p ∈ links, p ∈ rest) → ∀ p ∈ done, p ∉ r'.enqueue :: links := by
    intro links inRest p inDone inLinks
    refine (List.nodup_append.mp filling.queue.shape.isLap.1).2.2 p (List.mem_append_right _ inDone) p ?_ rfl
    exact (List.mem_cons.mp inLinks).elim (fun same => by simp [same]) fun later => by simp [inRest p later]
  rw [nonlinks_cons, if_pos inner] at room
  rcases filling.queue.queueTrb_cases q inner more plain (by omega) with
    ⟨eq, queue', goesOn⟩ | ⟨rest', rfl, onLink, eq, queue1, queue'⟩
  · refine ⟨[], rest, by simp, by simp, ?_, ?_, ?_, ?_⟩
    · rw [eq]
      exact put queue'
    · rw [eq]
      exact contents_join (kept_stored r' t) (apart [] (by simp)) written plain (by simp)
    · rwa [eq]
    · intro _ _
      rw [eq]
      simp [stored]
  · refine ⟨[(stored r' t).enqueue], rest', by simp, by simpa using onLink, ?_, ?_, ?_, ?_⟩
    · have shape' : Shape r (busy ++ (done ++ [r'.enqueue]) ++ (stored r' t).enqueue :: rest') := by simpa using shape
      have given := (put queue1).linkGiven shape' start onLink (sameLink_carried q r'.type t.chain _) (by
        simp only [carried]
        split_ifs <;> simp) (by rw [← eq]; simpa using queue')
      rw [eq]
      simpa using given
    · have kept : Kept r' (r'.queueTrb q more t) [r'.enqueue, (stored r' t).enqueue] := by
        rw [eq]
        exact (kept_stored r' t).trans (kept_linkGiven _ _)
      have isLink : ((r'.queueTrb q more t).trb (stored r' t).enqueue).isLink = true :=
        (queue'.shape.links _ (by simp)).mpr onLink
      have other : r'.enqueue ≠ (stored r' t).enqueue := by
        intro same
        rw [← same] at onLink
        exact inner onLink
      have written' : (r'.queueTrb q more t).trb r'.enqueue = t := by
        rw [eq, (kept_linkGiven _ _).trb _ (by simpa using other)]
        exact written
      exact contents_join kept (apart _ (by simp)) written' plain (by simpa using isLink)
    · intro _
      rw [eq]
      simp [RingShape.linkGiven]
    · -- The link is passed only for more TRBs or a chained one.
      intro last unchained
      have passes := queueTrb_eq q filling.queue.shape filling.queue.enqueue_mem inner plain more
      rw [if_neg (by simp [last, unchained])] at passes
      rw [passes]
      simp [stored]

/-- The TRBs of a TD behind the first one of the URB. -/
theorem Filling.queueRest (q : Quirks) (start : r.enqueue.idx ≠ 63) : ∀ {ts : List Trb} {r' : Ring} {done idle : List TrbPtr},
    Filling r r' busy done idle → Queue r busy (done ++ idle) → Phased r busy (done ++ idle) c → r.enqueue ∈ done →
    (ts ≠ [] → r'.enqueue.idx ≠ 63) → (∀ t ∈ ts, t.isLink = false) → ts.length + 1 ≤ nonlinks idle →
    ∃ td idle', idle = td ++ idle' ∧ nonlinks td = ts.length ∧
      Filling r (Ring.queueRest q ts r') busy (done ++ td) idle' ∧
      contents (Ring.queueRest q ts r') (done ++ td) = contents r' done ++ ts.map (·.setCycle false) ∧
      (∀ t, ts.getLast? = some t → t.chain = false → (Ring.queueRest q ts r').enqueue.idx ≠ 0) := by
  intro ts
  induction ts with
  | nil =>
    intro r' done idle filling _ _ _ _ _ _
    refine ⟨[], idle, rfl, rfl, by simpa [Ring.queueRest] using filling, by simp [Ring.queueRest], by simp⟩
  | cons t ts ih =>
    intro r' done idle filling queue phased begun inner plain room
    rw [List.length_cons] at room
    have other : r'.enqueue ≠ r.enqueue := by
      intro here
      rw [← here] at begun
      exact filling.notDone begun
    obtain ⟨links, idle', rfl, areLinks, filling', joins, goesOn, ends⟩ := filling.queueTrb q queue phased start (inner (by simp))
      (!ts.isEmpty) (t := t.setCycle r'.cycleState) (by simpa using plain t (by simp)) (by simp [other]) (by omega)
    have noLinks := nonlinks_links areLinks
    rw [List.cons_append, nonlinks_cons, if_pos (inner (by simp)), nonlinks_append] at room
    obtain ⟨td, idle'', rfl, counted, filling'', joins', ends'⟩ := ih filling' (by simpa using queue) (by simpa using phased)
      (by simp [begun]) (fun some_left => goesOn (by simpa using some_left))
      (fun t member => plain t (List.mem_cons_of_mem _ member)) (by omega)
    refine ⟨r'.enqueue :: links ++ td, idle'', by simp, ?_, ?_, ?_, ?_⟩
    · rw [List.cons_append, nonlinks_cons, if_pos (inner (by simp)), nonlinks_append, noLinks, counted, List.length_cons]
      omega
    · simpa [Ring.queueRest] using filling''
    · rw [Ring.queueRest, ← List.append_assoc, joins', joins, Trb.setCycle_setCycle]
      simp
    · intro last isLast unchained
      rw [Ring.queueRest]
      cases ts with
      | nil =>
        have is_t : t = last := by simpa using isLast
        exact ends rfl (by simpa [is_t] using unchained)
      | cons t' ts => exact ends' last (by simpa using isLast) unchained

/-! ### The link on which `enqueue` rests -/

theorem Filling.inOrder (filling : Filling r r' busy done idle) (begun : r.enqueue ∈ done) :
    (busy ++ done ++ idle).head? = some r'.dequeue := by
  rcases filling.queue.dequeue with inOrder | ⟨nothing, _⟩
  · exact inOrder
  · rw [List.append_eq_nil_iff] at nothing
    simp [nothing.2] at begun

theorem Filling.handedOver (q : Quirks) (filling : Filling r r' busy done idle) (queue : Queue r busy (done ++ idle))
    (start : r.enqueue.idx ≠ 63) (begun : r.enqueue ∈ done) (onLink : r'.enqueue.idx = 63) (room : 1 ≤ nonlinks idle) :
    ∃ rest, idle = r'.enqueue :: rest ∧ Filling r (handedOver q r') busy (done ++ [r'.enqueue]) rest ∧
      contents (handedOver q r') (done ++ [r'.enqueue]) = contents r' done := by
  have inOrder := filling.inOrder begun
  obtain ⟨rest, rfl⟩ := filling.queue.idle_eq
  have some_left : rest ≠ [] := by
    rintro rfl
    simp [nonlinks_cons, onLink] at room
  have shape : Shape r (busy ++ done ++ r'.enqueue :: rest) := by simpa using queue.shape
  have same := sameLink_handed q r'.type (r'.trb r'.enqueue)
  have given := filling.linkGiven shape start onLink same (by simp [handed])
    (filling.queue.linkGiven onLink inOrder some_left same)
  have queue' := (filling.queue.handedOver q onLink some_left).1 inOrder
  refine ⟨rest, rfl, ⟨by simpa using queue', ?_, ?_, ?_, ?_⟩, ?_⟩
  · have kept := given.kept
    refine ⟨?_, ?_, ?_, ?_, ?_, ?_, ?_⟩
    · intro p outside
      rw [trb_handedOver, kept.trb p outside]
    · rw [← kept.next, RingShape.handedOver]
      split_ifs <;> rfl
    · rw [← kept.lastSeg, RingShape.handedOver]
      split_ifs <;> rfl
    · rw [← kept.dequeue, RingShape.handedOver]
      split_ifs <;> rfl
    · rw [← kept.cacheEnqueue, RingShape.handedOver]
      split_ifs <;> rfl
    · rw [← kept.numSegs, RingShape.handedOver]
      split_ifs <;> rfl
    · rw [← kept.type, RingShape.handedOver]
      split_ifs <;> rfl
  · rw [cycleState_handedOver, given.cycleState]
  · intro p member other
    rw [cycleAt, trb_handedOver]
    exact given.taken p member other
  · rw [cycleAt, trb_handedOver]
    exact given.first
  · have isLink : ((RingShape.handedOver q r').trb r'.enqueue).isLink = true := (queue'.shape.links _ (by simp)).mpr onLink
    rw [contents_append, contents_link isLink, List.append_nil]
    refine contents_edit fun p member => ?_
    rw [trb_handedOver]
    refine (kept_linkGiven r' _).trb p ?_
    rintro inside
    rw [List.mem_singleton.mp inside] at member
    exact filling.notDone member

/-- What `prepare_transfer` does on a ring with room: it looks at the endpoint, hands over
    a link at `enqueue`, and links the URB to the endpoint. -/
theorem prepareTransfer_eq (q : Quirks) {lap : List TrbPtr} (shape : Shape r' lap) (member : r'.enqueue ∈ lap)
    (cached : ehubCacheRing r'.type = true) {n : Nat} (enough : r'.numTrbsNeeded n < 1) (i : Nat) (env : Env) :
    prepareTransfer q r' n i env =
      if epStateError (env.epState i) ≠ 0 then (epStateError (env.epState i), r')
      else if r'.enqueue.idx = 63 ∧ env.status i < 0 then (env.status i, handOverFailed q r')
      else (if i = 0 ∧ env.linkUrb ≠ 0 then -env.linkUrb else 0, if r'.enqueue.idx = 63 then handedOver q r' else r') := by
  rw [prepareTransfer, Ring.prepareRing]
  by_cases state : epStateError (env.epState i) = 0
  · rw [if_neg (by simpa using state), if_neg (by simpa using state), makeRoom_of_enough q enough]
    by_cases onLink : r'.enqueue.idx = 63
    · have isLink := (shape.links _ member).mpr onLink
      simp only [isLink, if_true]
      rw [handOver_eq q _ shape member onLink]
      by_cases failed : env.status i < 0
      · simp only [cached, failed, onLink, and_self, if_true]
        split
        · next same =>
          simp only [Prod.mk.injEq] at same
          omega
        · next same =>
          simp only [Prod.mk.injEq] at same
          rw [← same.1, ← same.2]
      · simp only [cached, failed, onLink, and_false, if_false, if_true]
        split_ifs <;> rfl
    · have plain : (r'.trb r'.enqueue).isLink = false := by simpa using mt (shape.links _ member).mp onLink
      simp only [plain, onLink, false_and, if_false, Bool.false_eq_true]
      split_ifs <;> rfl
  · rw [if_pos state, if_pos state]
    split
    · next same =>
      simp only [Prod.mk.injEq] at same
      exact absurd same.1 state
    · next same =>
      simp only [Prod.mk.injEq] at same
      rw [← same.1, ← same.2]

/-- The TRBs of a packet are queued on a prepared ring. -/
theorem Filling.queuePacket (q : Quirks) (filling : Filling r r' busy done idle) (queue : Queue r busy (done ++ idle))
    (phased : Phased r busy (done ++ idle) c) (start : r.enqueue.idx ≠ 63) (inner : r'.enqueue.idx ≠ 63) {i : Nat}
    (begun : 0 < i → r.enqueue ∈ done) (fresh : i = 0 → done = [] ∧ r' = r) (urb : Urb) (maxBufferSize : Nat) (p : Packet)
    (room : countIsocTrbsNeeded urb p maxBufferSize + 1 ≤ nonlinks idle) :
    ∃ td idle', idle = td ++ idle' ∧ nonlinks td = countIsocTrbsNeeded urb p maxBufferSize ∧
      Filling r (Isoc.queuePacket q r.cycleState i (packetTrbs urb maxBufferSize i p) r') busy (done ++ td) idle' ∧
      contents (Isoc.queuePacket q r.cycleState i (packetTrbs urb maxBufferSize i p) r') (done ++ td) =
        contents r' done ++ (packetTrbs urb maxBufferSize i p).map (·.setCycle false) ∧
      r.enqueue ∈ done ++ td ∧
      (Isoc.queuePacket q r.cycleState i (packetTrbs urb maxBufferSize i p) r').enqueue.idx ≠ 0 := by
  have size := length_packetTrbs urb maxBufferSize i p
  have plain : ∀ t ∈ packetTrbs urb maxBufferSize i p, t.isLink = false := tdTrbs_plain urb i _ _ _
  have ends : ∀ t, (packetTrbs urb maxBufferSize i p).getLast? = some t → t.chain = false := tdTrbs_last urb i _ _ _
  have some_trbs := countIsocTrbsNeeded_pos urb p maxBufferSize
  obtain ⟨t, ts, is_ts⟩ : ∃ t ts, packetTrbs urb maxBufferSize i p = t :: ts := by
    cases list : packetTrbs urb maxBufferSize i p with
    | nil =>
      rw [list] at size
      simp at size
      omega
    | cons t ts => exact ⟨t, ts, rfl⟩
  rw [is_ts] at size plain ends ⊢
  cases i with
  | zero =>
    obtain ⟨rfl, rfl⟩ := fresh rfl
    rw [List.length_cons] at size
    rw [Isoc.queuePacket]
    obtain ⟨links, idle', rfl, areLinks, filling', joins, goesOn, stops⟩ := filling.queueTrb q queue phased start start
      (!ts.isEmpty) (t := t.setCycle (!r'.cycleState)) (by simpa using plain t (by simp)) (by simp) (by omega)
    have noLinks := nonlinks_links areLinks
    rw [List.cons_append, nonlinks_cons, if_pos start, nonlinks_append] at room
    obtain ⟨td, idle'', rfl, counted, filling'', joins', stops'⟩ := filling'.queueRest q start (by simpa using queue)
      (by simpa using phased) (by simp) (fun some_left => goesOn (by simpa using some_left))
      (fun t member => plain t (List.mem_cons_of_mem _ member)) (by omega)
    refine ⟨r'.enqueue :: links ++ td, idle'', by simp, ?_, by simpa using filling'', ?_, by simp, ?_⟩
    · rw [List.cons_append, nonlinks_cons, if_pos start, nonlinks_append, noLinks, counted]
      omega
    · rw [← List.append_assoc, joins', joins, Trb.setCycle_setCycle]
      simp
    · cases ts with
      | nil => exact stops rfl (by simpa using ends t rfl)
      | cons t' ts =>
        obtain ⟨last, isLast⟩ : ∃ last, (t' :: ts).getLast? = some last := ⟨_, List.getLast?_eq_some_getLast (by simp)⟩
        exact stops' last isLast (ends last (by rw [List.getLast?_cons_cons]; exact isLast))
  | succ i =>
    have begun := begun (by omega)
    obtain ⟨td, idle', rfl, counted, filling', joins, stops⟩ := filling.queueRest q start queue phased begun (fun _ => inner)
      plain (by omega)
    refine ⟨td, idle', rfl, by omega, filling', joins, by simp [begun], ?_⟩
    obtain ⟨last, isLast⟩ : ∃ last, (t :: ts).getLast? = some last := ⟨_, List.getLast?_eq_some_getLast (by simp)⟩
    exact stops last isLast (ends last isLast)

/-! ### Taking it back -/

/-- The ring in the middle of a URB. The link on which `enqueue` may rest may have been
    changed already. -/
structure Interrupted (r x : Ring) (busy done rest : List TrbPtr) : Prop where
  shape : Shape x (busy ++ (done ++ x.enqueue :: rest))
  kept : Kept r x (done ++ [x.enqueue])
  taken : ∀ p ∈ done, p ≠ r.enqueue → cycleAt x p = !cycleAt r p
  first : cycleAt x r.enqueue = cycleAt r r.enqueue

theorem Filling.interrupted {rest : List TrbPtr} (filling : Filling r r' busy done (r'.enqueue :: rest)) :
    Interrupted r r' busy done rest :=
  ⟨by simpa using filling.queue.shape, filling.kept.mono fun _ member => List.mem_append_left _ member, filling.taken,
    filling.first⟩

theorem Filling.handOverFailed {rest : List TrbPtr} (q : Quirks) (filling : Filling r r' busy done (r'.enqueue :: rest))
    (begun : r.enqueue ∈ done) : Interrupted r (handOverFailed q r') busy done rest := by
  have kept : Kept r' (RingShape.handOverFailed q r') [r'.enqueue] := by
    have given := kept_linkGiven r' (handed q r'.type (r'.trb r'.enqueue))
    exact ⟨given.trb, given.next, given.lastSeg, given.dequeue, given.cacheEnqueue, given.numSegs, given.type⟩
  have same : ∀ p ∈ done, cycleAt (RingShape.handOverFailed q r') p = cycleAt r' p := by
    intro p member
    rw [cycleAt, cycleAt, kept.trb p]
    intro inside
    rw [List.mem_singleton.mp inside] at member
    exact filling.notDone member
  refine ⟨?_, filling.kept.trans kept, ?_, ?_⟩
  · have shape := (filling.queue.handOverFailed q).shape
    rw [List.append_assoc] at shape
    exact shape
  · exact fun p member other => (same p member).trans (filling.taken p member other)
  · exact (same _ begun).trans filling.first

/-- The cleanup gives every TRB its cycle bit back, but for a link at `enqueue`. -/
theorem Interrupted.cycleAt_noop {rest : List TrbPtr} {x : Ring} (interrupted : Interrupted r x busy done rest)
    (start : r.enqueue.idx ≠ 63) (first : (done ++ x.enqueue :: rest).head? = some r.enqueue) :
    ∃ trbs, x.tdToNoop r.enqueue x.enqueue true = { x with trbs := trbs } ∧
      Shape (x.tdToNoop r.enqueue x.enqueue true) (busy ++ (done ++ x.enqueue :: rest)) ∧
      (∀ p ∉ done ++ [x.enqueue], (x.tdToNoop r.enqueue x.enqueue true).trb p = r.trb p) ∧
      ∀ p, cycleAt (x.tdToNoop r.enqueue x.enqueue true) p =
        if p = x.enqueue then (cycleAt x p ^^ decide (p.idx = 63)) else cycleAt r p := by
  obtain ⟨trbs, eq, shape, read⟩ := tdToNoop_eq true interrupted.shape first
  have links : ∀ p ∈ done ++ [x.enqueue], (x.trb p).isLink = decide (p.idx = 63) := by
    intro p member
    have inLap : p ∈ busy ++ (done ++ x.enqueue :: rest) := by
      simp only [List.mem_append, List.mem_cons, List.not_mem_nil, or_false] at member ⊢
      exact .inr (member.imp_right .inl)
    have := interrupted.shape.links p inLap
    by_cases onLink : p.idx = 63
    · simp [onLink, this.mpr onLink]
    · simpa [onLink] using mt this.mp onLink
  refine ⟨trbs, eq, shape, ?_, ?_⟩
  · intro p outside
    rw [read, if_neg outside, interrupted.kept.trb p outside]
  · intro p
    rw [cycleAt, read]
    by_cases here : p = x.enqueue
    · subst here
      rw [if_pos (by simp), if_pos rfl, cycle_noopTrb, links _ (by simp)]
      simp [cycleAt]
    · rw [if_neg here]
      by_cases member : p ∈ done
      · rw [if_pos (by simp [member]), cycle_noopTrb, links p (by simp [member])]
        by_cases isFirst : p = r.enqueue
        · simp only [isFirst, start, decide_false, ne_eq, not_true_eq_false, Bool.false_and, Bool.or_self, Bool.and_false,
            Bool.xor_false]
          exact interrupted.first
        · have taken := interrupted.taken p member isFirst
          rw [cycleAt, cycleAt] at taken
          simp [isFirst, here, taken, cycleAt]
      · have outside : p ∉ done ++ [x.enqueue] := by simp [member, here]
        rw [if_neg outside, interrupted.kept.trb p outside]
        rfl

end

/-- The URB has left no trace: `td_list`, the pointers of the producer and the owner of
    every TRB are as they were, and so is what a consumer takes and where it stops. -/
structure Atomic (r : Ring) (tds : List Td) (urb : Nat) (result : Int × Ring × List Td) : Prop where
  tdList : result.2.2 = tds
  noTd : ∀ td ∈ result.2.2, td.urb ≠ urb
  enqueue : result.2.1.enqueue = r.enqueue
  cycleState : result.2.1.cycleState = r.cycleState
  numTrbsFree : result.2.1.numTrbsFree = r.numTrbsFree
  ownership : ∀ p, cycleAt result.2.1 p = cycleAt r p
  consumer : ∀ fuel c, consumer result.2.1 fuel c = consumer r fuel c

/-- Where the cleanup puts things right. -/
theorem Interrupted.atomic {r x : Ring} {busy done rest : List TrbPtr} (interrupted : Interrupted r x busy done rest)
    (queue : Queue r busy (done ++ x.enqueue :: rest)) (start : r.enqueue.idx ≠ 63)
    {tds tds' : List Td} {urb i : Nat} (new : ∀ td ∈ tds, td.urb ≠ urb) (removed : removeTds urb i tds' = tds) (error : Int) :
    Atomic r tds urb (error, cleanup x tds' urb i ⟨r.enqueue, r.cycleState, r.numTrbsFree⟩) ↔
      (cycleAt x x.enqueue ^^ decide (x.enqueue.idx = 63)) = cycleAt r x.enqueue := by
  obtain ⟨trbs, eq, shape, outside, cycles⟩ := interrupted.cycleAt_noop start queue.enqueue
  have kept := interrupted.kept
  constructor
  · intro atomic
    have here := atomic.ownership x.enqueue
    rw [← here]
    exact (if_pos rfl).symm.trans (cycles x.enqueue).symm
  · intro same
    have cycles' : ∀ p, cycleAt (x.tdToNoop r.enqueue x.enqueue true) p = cycleAt r p := by
      intro p
      rw [cycles]
      split_ifs with here
      · rw [here, same]
      · rfl
    refine ⟨removed, ?_, rfl, rfl, rfl, cycles', ?_⟩
    · simp only [cleanup, removed]
      exact new
    · intro fuel c
      have shape' : Shape (cleanup x tds' urb i ⟨r.enqueue, r.cycleState, r.numTrbsFree⟩).1
          (busy ++ (done ++ x.enqueue :: rest)) :=
        shape.edit rfl rfl rfl rfl (fun _ _ => rfl) fun _ _ _ => ⟨rfl, rfl⟩
      refine consumer_congr queue.shape shape' cycles' ?_ ?_ ?_ ?_ fuel c
      · simp only [cleanup, eq]
        exact kept.next
      · simp only [cleanup, eq]
        exact kept.lastSeg
      · simp only [cleanup, eq]
        exact kept.dequeue
      · intro p notInLap
        refine outside p fun member => notInLap ?_
        simp only [List.mem_append, List.mem_cons, List.not_mem_nil, or_false] at member ⊢
        exact .inr (member.imp_right .inl)

theorem mem_removeTds {urb : Nat} {td : Td} : ∀ {i : Nat} {tds : List Td}, td ∈ tds → i ≤ td.index →
    td ∈ removeTds urb i tds := by
  intro i
  induction i with
  | zero => exact fun member _ => member
  | succ i ih =>
    intro tds member later
    refine ih ((List.mem_eraseP_of_neg ?_).mpr member) (by omega)
    simp only [decide_eq_true_eq, not_and]
    omega

/-- The TDs of a URB, in the order of their numbers. -/
def Numbered (urb : Nat) (own : List Td) : Prop :=
  ∀ (k : Nat) (td : Td), own[k]? = some td → td.urb = urb ∧ td.index = k

theorem Numbered.concat {urb : Nat} {own : List Td} (numbered : Numbered urb own) {td : Td} (same : td.urb = urb)
    (next : td.index = own.length) : Numbered urb (own ++ [td]) := by
  intro k td' here
  by_cases inside : k < own.length
  · rw [List.getElem?_append_left inside] at here
    exact numbered k td' here
  · rw [List.getElem?_append_right (by omega), List.getElem?_singleton] at here
    split_ifs at here with zero
    rw [← Option.some.inj here]
    exact ⟨same, by omega⟩

theorem removeTds_own {urb : Nat} {tds : List Td} (new : ∀ td ∈ tds, td.urb ≠ urb) : ∀ {i : Nat} {own : List Td},
    own.length = i → Numbered urb own → removeTds urb i (tds ++ own) = tds := by
  intro i
  induction i with
  | zero =>
    intro own none _
    rw [List.length_eq_zero_iff.mp none, removeTds, List.append_nil]
  | succ i ih =>
    intro own many numbered
    obtain ⟨front, last, rfl⟩ := List.eq_nil_or_concat own |>.resolve_left (by rintro rfl; simp at many)
    rw [List.concat_eq_append] at many numbered ⊢
    have size : front.length = i := by simpa using many
    have isLast := numbered i last (by simp [← size])
    have before : ∀ td ∈ tds ++ front, ¬(decide (td.urb = urb ∧ td.index = i) = true) := by
      intro td member
      rw [decide_eq_true_eq]
      rintro ⟨same, index⟩
      rcases List.mem_append.mp member with old | inFront
      · exact new td old same
      · obtain ⟨k, inside, is_td⟩ := List.getElem_of_mem inFront
        have := (numbered k td (by rw [List.getElem?_append_left inside, List.getElem?_eq_getElem inside, is_td])).2
        omega
    rw [removeTds, ← List.append_assoc, List.eraseP_append_right _ before, List.eraseP_cons_of_pos (by simp [isLast]),
      List.append_nil]
    refine ih size ?_
    intro k td here
    have inside : k < front.length := (List.getElem?_eq_some_iff.mp here).1
    exact numbered k td (by rw [List.getElem?_append_left inside, here])

/-! ### The packets, one after the other -/

/-- `enqueue` rests on a link before TD `i` is queued. -/
def OnLink (r : Ring) (urb : Urb) (maxBufferSize i : Nat) : Prop :=
  0 < i ∧ (r.enqueue.idx + trbsBefore urb maxBufferSize i) % 63 = 0

/-- `prepare_transfer` fails for TD `i`: the endpoint is in no state for it, the URB
    cannot be linked to it, or the cache write of the link is refused. -/
def PrepareFails (r : Ring) (urb : Urb) (maxBufferSize : Nat) (env : Env) (i : Nat) : Prop :=
  epStateError (env.epState i) ≠ 0 ∨ (i = 0 ∧ env.linkUrb ≠ 0) ∨ (OnLink r urb maxBufferSize i ∧ env.status i < 0)

/-- The buffers of TD `i` do not make up the length of its packet. -/
def LengthFails (urb : Urb) (maxBufferSize i : Nat) : Prop :=
  ∃ p, urb.packets[i]? = some p ∧ (packetLengths urb maxBufferSize p).sum ≠ p.length

/-- The TDs before the `i`-th have been queued. Of these TRBs only links may have been
    written to the cache. -/
structure Looping (r : Ring) (tds : List Td) (urb : Urb) (maxBufferSize : Nat) (busy idle0 : List TrbPtr) (i : Nat)
    (r' : Ring) (tds' : List Td) (done idle : List TrbPtr) : Prop where
  split : idle0 = done ++ idle
  filling : Filling r r' busy done idle
  fresh : i = 0 → done = [] ∧ r' = r
  begun : 0 < i → r.enqueue ∈ done ∧ r'.enqueue.idx ≠ 0
  counted : nonlinks done = trbsBefore urb maxBufferSize i
  own : ∃ own, tds' = tds ++ own ∧ own.length = i ∧ Numbered urb.id own
  contains : contents r' done = ((urbTds urb maxBufferSize).take i).flatten
  copied : ∀ p, r'.cache p.seg p.idx = r.cache p.seg p.idx ∨
    (p ∈ done ∧ p.idx = 63 ∧ SameLink (r.trb p) (r'.cache p.seg p.idx))

theorem urbTds_succ {urb : Urb} {maxBufferSize i : Nat} {p : Packet} (here : urb.packets[i]? = some p) :
    ((urbTds urb maxBufferSize).take (i + 1)).flatten =
      ((urbTds urb maxBufferSize).take i).flatten ++ (packetTrbs urb maxBufferSize i p).map (·.setCycle false) := by
  rw [List.take_add_one, urbTds, List.getElem?_mapIdx, here]
  simp

theorem cache_queuePacket (q : Quirks) (startCycle : Bool) (i : Nat) (ts : List Trb) (r : Ring) :
    (queuePacket q startCycle i ts r).cache = r.cache := by
  rw [queuePacket.eq_def]
  split
  · rw [cache_queueRest, cache_queueTrb]
  · exact cache_queueRest q _ r

theorem trbsBefore_succ {urb : Urb} {maxBufferSize i : Nat} {p : Packet} (here : urb.packets[i]? = some p) :
    trbsBefore urb maxBufferSize (i + 1) =
      trbsBefore urb maxBufferSize i + countIsocTrbsNeeded urb p maxBufferSize := by
  rw [trbsBefore, trbsBefore, List.take_add_one, here]
  simp

theorem trbsBefore_le (urb : Urb) (maxBufferSize i : Nat) :
    trbsBefore urb maxBufferSize i ≤ trbsBefore urb maxBufferSize urb.packets.length := by
  rw [trbsBefore, trbsBefore, List.take_length]
  exact ((List.take_sublist i urb.packets).map _).sum_le_sum fun _ _ => Nat.zero_le _

section
variable {q : Quirks} {r r' : Ring} {tds tds' : List Td} {urb : Urb} {maxBufferSize i : Nat} {busy idle0 done idle : List TrbPtr}
  {c : Bool} {env : Env} {p : Packet}

theorem Looping.room (looping : Looping r tds urb maxBufferSize busy idle0 i r' tds' done idle)
    (checked : trbsBefore urb maxBufferSize urb.packets.length + slack r + 1 ≤ nonlinks idle0)
    (here : urb.packets[i]? = some p) : countIsocTrbsNeeded urb p maxBufferSize + slack r + 1 ≤ nonlinks idle := by
  have more := trbsBefore_le urb maxBufferSize (i + 1)
  rw [trbsBefore_succ here] at more
  rw [looping.split, nonlinks_append, looping.counted] at checked
  omega

theorem Looping.enough (looping : Looping r tds urb maxBufferSize busy idle0 i r' tds' done idle)
    (checked : trbsBefore urb maxBufferSize urb.packets.length + slack r + 1 ≤ nonlinks idle0)
    (here : urb.packets[i]? = some p) : r'.numTrbsNeeded (countIsocTrbsNeeded urb p maxBufferSize) < 1 := by
  have room := looping.room checked here
  have count := looping.filling.queue.idle_count
  have same : slack r' = slack r := by rw [slack, slack, looping.filling.kept.type, looping.filling.kept.dequeue]
  rw [numTrbsNeeded_lt looping.filling.queue.shape.notEvent, same]
  omega

theorem Looping.onLink_iff (looping : Looping r tds urb maxBufferSize busy idle0 i r' tds' done idle)
    (queue : Queue r busy idle0) (start : r.enqueue.idx ≠ 63) :
    r'.enqueue.idx = 63 ↔ OnLink r urb maxBufferSize i := by
  by_cases begins : i = 0
  · obtain ⟨_, rfl⟩ := looping.fresh begins
    simp [OnLink, begins, start]
  · obtain ⟨_, notFirst⟩ := looping.begun (by omega)
    have isLap := queue.shape.isLap
    have first := queue.enqueue
    obtain ⟨rest, is_idle⟩ := looping.filling.queue.idle_eq
    rw [looping.split, is_idle] at isLap first
    have counted := idx_mod isLap first
    have inside : r'.enqueue.idx < 64 := looping.filling.queue.shape.inside _ looping.filling.queue.enqueue_mem
    rw [looping.counted] at counted
    rw [OnLink, ← counted]
    omega

/-- What `prepare_transfer` does for TD `i`. -/
theorem Looping.prepareTransfer (looping : Looping r tds urb maxBufferSize busy idle0 i r' tds' done idle)
    (isoc : r.type = .isoc)
    (checked : trbsBefore urb maxBufferSize urb.packets.length + slack r + 1 ≤ nonlinks idle0)
    (here : urb.packets[i]? = some p) :
    Isoc.prepareTransfer q r' (countIsocTrbsNeeded urb p maxBufferSize) i env =
      if epStateError (env.epState i) ≠ 0 then (epStateError (env.epState i), r')
      else if r'.enqueue.idx = 63 ∧ env.status i < 0 then (env.status i, handOverFailed q r')
      else (if i = 0 ∧ env.linkUrb ≠ 0 then -env.linkUrb else 0, if r'.enqueue.idx = 63 then handedOver q r' else r') := by
  have cached : ehubCacheRing r'.type = true := by rw [looping.filling.kept.type, isoc]; rfl
  exact prepareTransfer_eq q looping.filling.queue.shape looping.filling.queue.enqueue_mem cached
    (looping.enough checked here) i env

/-- The ring prepared for TD `i`, with the TRBs of the TD queued. -/
theorem Looping.queued (looping : Looping r tds urb maxBufferSize busy idle0 i r' tds' done idle)
    (queue : Queue r busy idle0) (phased : Phased r busy idle0 c) (start : r.enqueue.idx ≠ 63) (isoc : r.type = .isoc)
    (checked : trbsBefore urb maxBufferSize urb.packets.length + slack r + 1 ≤ nonlinks idle0)
    (here : urb.packets[i]? = some p) (prepared : ¬PrepareFails r urb maxBufferSize env i) :
    ∃ x done' idle', Isoc.prepareTransfer q r' (countIsocTrbsNeeded urb p maxBufferSize) i env = (0, x) ∧
      (i = 0 → x.enqueue = r.enqueue) ∧
      Looping r tds urb maxBufferSize busy idle0 (i + 1)
        (queuePacket q r.cycleState i (packetTrbs urb maxBufferSize i p) x)
        (tds' ++ [⟨urb.id, i, x.enqueue, lastTrbOf q (packetTrbs urb maxBufferSize i p) x⟩]) done' idle' := by
  have room := looping.room checked here
  have onLink_iff := looping.onLink_iff queue start
  obtain ⟨own, rfl, many, numbered⟩ := looping.own
  simp only [PrepareFails, not_or, not_and, not_not] at prepared
  obtain ⟨state, linked, written⟩ := prepared
  have split := looping.split
  -- A link at `enqueue` is handed over; then the packet is queued.
  obtain ⟨x, done1, idle1, split1, result, filling1, inner, begun, fresh, counted1, room1, same1, copied1⟩ : ∃ x done1 idle1,
      idle0 = done1 ++ idle1 ∧ Isoc.prepareTransfer q r' (countIsocTrbsNeeded urb p maxBufferSize) i env = (0, x) ∧
      Filling r x busy done1 idle1 ∧ x.enqueue.idx ≠ 63 ∧ (0 < i → r.enqueue ∈ done1) ∧
      (i = 0 → done1 = [] ∧ x = r) ∧ nonlinks done1 = trbsBefore urb maxBufferSize i ∧
      nonlinks idle1 = nonlinks idle ∧ contents x done1 = contents r' done ∧
      ∀ p, x.cache p.seg p.idx = r.cache p.seg p.idx ∨
        (p ∈ done1 ∧ p.idx = 63 ∧ SameLink (r.trb p) (x.cache p.seg p.idx)) := by
    have result : Isoc.prepareTransfer q r' (countIsocTrbsNeeded urb p maxBufferSize) i env = _ :=
      looping.prepareTransfer isoc checked here
    rw [if_neg (by simpa using state)] at result
    have linked' : ¬(i = 0 ∧ env.linkUrb ≠ 0) := by
      rintro ⟨zero, failed⟩
      exact failed (linked zero)
    by_cases onLink : r'.enqueue.idx = 63
    · have accepted : ¬(r'.enqueue.idx = 63 ∧ env.status i < 0) := by
        rintro ⟨_, failed⟩
        exact written (onLink_iff.mp onLink) failed
      have positive : 0 < i := (onLink_iff.mp onLink).1
      have begun := (looping.begun positive).1
      rw [if_neg accepted, if_neg linked', if_pos onLink] at result
      obtain ⟨rest, rfl, filling, same⟩ := looping.filling.handedOver q (by rwa [← split]) start begun onLink (by omega)
      refine ⟨_, _, rest, by simp [split], result, filling, ?_, fun _ => by simp [begun], ?_, ?_, ?_, same, ?_⟩
      · have atStart : (handedOver q r').enqueue.idx = 0 := by
          rw [handedOver]
          split_ifs <;> rfl
        rw [atStart]
        decide
      · intro zero
        omega
      · rw [nonlinks_append, nonlinks_cons, if_neg (by simp [onLink]), looping.counted]
        simp
      · rw [nonlinks_cons, if_neg (by simp [onLink]), Nat.add_zero]
      · -- The link is the only thing written.
        intro p
        have isCached : ehubCacheRing r'.type = true := by rw [looping.filling.kept.type, isoc]; rfl
        by_cases here : p = r'.enqueue
        · subst here
          have written : (handedOver q r').cache r'.enqueue.seg r'.enqueue.idx =
              handed q r'.type (r'.trb r'.enqueue) := by
            rw [handedOver, if_pos isCached]
            exact (if_pos ⟨rfl, rfl⟩).trans (trb_setTrb_same r' r'.enqueue _)
          rw [written, looping.filling.kept.trb _ looping.filling.notDone]
          exact .inr ⟨by simp, onLink, sameLink_handed q r'.type _⟩
        · have untouched : (handedOver q r').cache p.seg p.idx = r'.cache p.seg p.idx := by
            rw [handedOver, if_pos isCached]
            refine if_neg ?_
            rintro ⟨seg, idx⟩
            exact here (congrArg₂ TrbPtr.mk seg idx)
          rw [untouched]
          refine (looping.copied p).imp_right ?_
          rintro ⟨inDone, last, same⟩
          exact ⟨by simp [inDone], last, same⟩
    · rw [if_neg (fun both => onLink both.1), if_neg linked', if_neg onLink] at result
      exact ⟨r', done, idle, split, result, looping.filling, onLink, fun positive => (looping.begun positive).1,
        looping.fresh, looping.counted, rfl, rfl, looping.copied⟩
  obtain ⟨td, idle2, rfl, counted2, filling2, joins, begun2, notFirst⟩ := filling1.queuePacket q (by rwa [← split1])
    (by rwa [← split1]) start inner begun fresh urb maxBufferSize p (by omega)
  refine ⟨x, done1 ++ td, idle2, result, fun zero => by rw [(fresh zero).2], by simp [split1], filling2,
    by simp, fun _ => ⟨begun2, notFirst⟩, ?_, ?_, ?_, ?_⟩
  · rw [nonlinks_append, counted1, counted2, trbsBefore_succ here]
  · exact ⟨own ++ [⟨urb.id, i, x.enqueue, lastTrbOf q (packetTrbs urb maxBufferSize i p) x⟩], by simp, by simp [many],
      numbered.concat rfl many.symm⟩
  · rw [joins, same1, looping.contains, urbTds_succ here]
  · intro p
    rw [cache_queuePacket]
    refine (copied1 p).imp_right ?_
    rintro ⟨inDone, last, same⟩
    exact ⟨by simp [inDone], last, same⟩

theorem queueIsocLoop_error {x : Ring} {error : Int} {ps : List Packet} {startTrb : TrbPtr} {start : Start}
    (prepared : Isoc.prepareTransfer q r' (countIsocTrbsNeeded urb p maxBufferSize) i env = (error, x)) (failed : error ≠ 0) :
    queueIsocLoop q urb maxBufferSize env startTrb i (p :: ps) start r' tds' =
      if i = 0 then (error, x, tds') else (error, cleanup x tds' urb.id i start) := by
  rw [queueIsocLoop, prepared]
  split
  · next same =>
    simp only [Prod.mk.injEq] at same
    exact absurd same.1 failed
  · next same =>
    simp only [Prod.mk.injEq] at same
    rw [← same.1, ← same.2]

theorem queueIsocLoop_ok {x : Ring} {ps : List Packet} {startTrb : TrbPtr} {start : Start}
    (prepared : Isoc.prepareTransfer q r' (countIsocTrbsNeeded urb p maxBufferSize) i env = (0, x))
    (first : i = 0 → x.enqueue = start.firstTrb) :
    queueIsocLoop q urb maxBufferSize env startTrb i (p :: ps) start r' tds' =
      if (packetLengths urb maxBufferSize p).sum ≠ p.length then
        (-eINVAL, cleanup (queuePacket q start.cycle i (packetTrbs urb maxBufferSize i p) x)
          (tds' ++ [⟨urb.id, i, x.enqueue, lastTrbOf q (packetTrbs urb maxBufferSize i p) x⟩]) urb.id i start)
      else
        queueIsocLoop q urb maxBufferSize env startTrb (i + 1) ps start
          (queuePacket q start.cycle i (packetTrbs urb maxBufferSize i p) x)
          (tds' ++ [⟨urb.id, i, x.enqueue, lastTrbOf q (packetTrbs urb maxBufferSize i p) x⟩]) := by
  have same : (if i = 0 then { start with firstTrb := x.enqueue } else start) = start := by
    split_ifs with zero
    · rw [first zero]
    · rfl
  rw [queueIsocLoop, prepared]
  simp only [same]

/-- As long as nothing fails the TDs are queued one after the other. -/
theorem looping_at (queue : Queue r busy idle0) (phased : Phased r busy idle0 c) (start : r.enqueue.idx ≠ 63)
    (isoc : r.type = .isoc)
    (checked : trbsBefore urb maxBufferSize urb.packets.length + slack r + 1 ≤ nonlinks idle0) : ∀ i,
    i ≤ urb.packets.length → (∀ k < i, ¬PrepareFails r urb maxBufferSize env k ∧ ¬LengthFails urb maxBufferSize k) →
    ∃ tds' done idle, Looping r tds urb maxBufferSize busy idle0 i (ringAt q r urb maxBufferSize env i) tds' done idle ∧
      queueIsocLoop q urb maxBufferSize env r.enqueue 0 urb.packets ⟨r.enqueue, r.cycleState, r.numTrbsFree⟩ r tds =
        queueIsocLoop q urb maxBufferSize env r.enqueue i (urb.packets.drop i)
          ⟨r.enqueue, r.cycleState, r.numTrbsFree⟩ (ringAt q r urb maxBufferSize env i) tds' := by
  intro i
  induction i with
  | zero =>
    intro _ _
    refine ⟨tds, [], idle0, ⟨rfl, filling_start queue, fun _ => ⟨rfl, rfl⟩, by simp, by simp [trbsBefore],
      ⟨[], by simp, rfl, ?_⟩, by simp [contents], fun _ => .inl rfl⟩, rfl⟩
    intro k td here
    simp at here
  | succ i ih =>
    intro inside passes
    obtain ⟨tds', done, idle, looping, reached⟩ := ih (by omega) fun k before => passes k (by omega)
    obtain ⟨prepared, measured⟩ := passes i (by omega)
    have here : urb.packets[i]? = some urb.packets[i] := List.getElem?_eq_getElem (by omega)
    obtain ⟨x, done', idle', result, first, looping'⟩ := looping.queued (q := q) queue phased start isoc checked here prepared
    have further : ringAt q r urb maxBufferSize env (i + 1) =
        queuePacket q r.cycleState i (packetTrbs urb maxBufferSize i urb.packets[i]) x := by
      rw [ringAt, here]
      simp only [result]
    rw [further]
    refine ⟨_, done', idle', looping', ?_⟩
    have fits : ¬(packetLengths urb maxBufferSize urb.packets[i]).sum ≠ urb.packets[i].length := by
      intro short
      exact measured ⟨_, here, short⟩
    rw [reached, List.drop_eq_getElem_cons (by omega), queueIsocLoop_ok result first, if_neg fits]

/-- `prepare_transfer` fails for the first TD: the ring has not been touched. -/
theorem Looping.fails_first (looping : Looping r tds urb maxBufferSize busy idle0 0 r' tds' done idle)
    (start : r.enqueue.idx ≠ 63) (isoc : r.type = .isoc)
    (checked : trbsBefore urb maxBufferSize urb.packets.length + slack r + 1 ≤ nonlinks idle0)
    (here : urb.packets[0]? = some p) (fails : PrepareFails r urb maxBufferSize env 0) (ps : List Packet) (startTrb : TrbPtr)
    (begin : Start) :
    ∃ error, error ≠ 0 ∧ queueIsocLoop q urb maxBufferSize env startTrb 0 (p :: ps) begin r' tds' = (error, r, tds) := by
  obtain ⟨_, rfl⟩ := looping.fresh rfl
  obtain ⟨own, rfl, none, _⟩ := looping.own
  rw [List.length_eq_zero_iff.mp none, List.append_nil]
  have result : Isoc.prepareTransfer q r' (countIsocTrbsNeeded urb p maxBufferSize) 0 env = _ :=
    looping.prepareTransfer isoc checked here
  rcases fails with state | ⟨_, refused⟩ | ⟨⟨positive, _⟩, _⟩
  · rw [if_pos state] at result
    exact ⟨_, state, (queueIsocLoop_error result state).trans (if_pos rfl)⟩
  · by_cases state : epStateError (env.epState 0) = 0
    · rw [if_neg (by simpa using state), if_neg (fun both => start both.1), if_pos ⟨rfl, refused⟩, if_neg start] at result
      have failed : -(env.linkUrb : Int) ≠ 0 := by simpa using refused
      exact ⟨_, failed, (queueIsocLoop_error result failed).trans (if_pos rfl)⟩
    · rw [if_pos state] at result
      exact ⟨_, state, (queueIsocLoop_error result state).trans (if_pos rfl)⟩
  · omega

/-- `prepare_transfer` fails for a later TD. The cleanup finds the cycle bit of a link at
    `enqueue` as it needs it unless the endpoint was refused before the link was
    touched. -/
theorem Looping.fails_later (looping : Looping r tds urb maxBufferSize busy idle0 i r' tds' done idle)
    (queue : Queue r busy idle0) (start : r.enqueue.idx ≠ 63) (isoc : r.type = .isoc)
    (checked : trbsBefore urb maxBufferSize urb.packets.length + slack r + 1 ≤ nonlinks idle0)
    (here : urb.packets[i]? = some p) (positive : 0 < i) (fails : PrepareFails r urb maxBufferSize env i)
    (ps : List Packet) (startTrb : TrbPtr) :
    ∃ error x rest, error ≠ 0 ∧
      queueIsocLoop q urb maxBufferSize env startTrb i (p :: ps) ⟨r.enqueue, r.cycleState, r.numTrbsFree⟩ r' tds' =
        (error, cleanup x tds' urb.id i ⟨r.enqueue, r.cycleState, r.numTrbsFree⟩) ∧
      idle = x.enqueue :: rest ∧ Interrupted r x busy done rest ∧ x.cache = r'.cache ∧
      ((cycleAt x x.enqueue ^^ decide (x.enqueue.idx = 63)) = cycleAt r x.enqueue ↔
        (OnLink r urb maxBufferSize i → epStateError (env.epState i) = 0)) := by
  have onLink_iff := looping.onLink_iff queue start
  obtain ⟨begun, _⟩ := looping.begun positive
  have filling := looping.filling
  obtain ⟨rest, rfl⟩ := filling.queue.idle_eq
  have result : Isoc.prepareTransfer q r' (countIsocTrbsNeeded urb p maxBufferSize) i env = _ :=
    looping.prepareTransfer isoc checked here
  have sameLink : cycleAt r' r'.enqueue = cycleAt r r'.enqueue := by
    rw [cycleAt, cycleAt, filling.kept.trb _ filling.notDone]
  by_cases state : epStateError (env.epState i) = 0
  · -- The write of the link failed, when its cycle bit had been flipped.
    obtain ⟨onLink, failed⟩ : OnLink r urb maxBufferSize i ∧ env.status i < 0 := by
      rcases fails with refused | ⟨zero, _⟩ | written
      · exact absurd state refused
      · omega
      · exact written
    have last := onLink_iff.mpr onLink
    rw [if_neg (by simpa using state), if_pos ⟨last, failed⟩] at result
    have flipped : cycleAt (handOverFailed q r') r'.enqueue = !cycleAt r' r'.enqueue := by
      have written : (handOverFailed q r').trb r'.enqueue = handed q r'.type (r'.trb r'.enqueue) :=
        trb_setTrb_same r' r'.enqueue _
      rw [cycleAt, written]
      simp [handed, cycleAt]
    refine ⟨_, handOverFailed q r', rest, by omega, (queueIsocLoop_error result (by omega)).trans (if_neg (by omega)), rfl,
      filling.handOverFailed q begun, rfl, ?_⟩
    show (cycleAt (handOverFailed q r') r'.enqueue ^^ decide (r'.enqueue.idx = 63)) = cycleAt r r'.enqueue ↔ _
    rw [flipped, sameLink, decide_eq_true last]
    simp [state]
  · rw [if_pos state] at result
    refine ⟨_, r', rest, state, (queueIsocLoop_error result state).trans (if_neg (by omega)), rfl, filling.interrupted,
      rfl, ?_⟩
    rw [sameLink, ← onLink_iff]
    by_cases last : r'.enqueue.idx = 63
    · simp [last, state]
    · simp [last]

end

/-- After the room check has succeeded, a URB whose TD `i` is the first that cannot be
    queued leaves no trace if and only if it was `prepare_transfer` that failed, and it
    did not give up in front of a link on which `enqueue` rests. -/
theorem queueIsocTxPrepare_atomic_iff {q : Quirks} {r0 r : Ring} {tds : List Td} {urb : Urb} {maxBufferSize i : Nat}
    {epState : Nat} {answers : List Answers} {status : Int} {env : Env} (isoc : r.type = .isoc)
    (checked : r0.prepareRing q epState (trbsBefore urb maxBufferSize urb.packets.length) answers status = (0, r))
    (consistent : Consistent r) (new : ∀ td ∈ tds, td.urb ≠ urb.id) (inside : i < urb.packets.length)
    (passes : ∀ k < i, ¬PrepareFails r urb maxBufferSize env k ∧ ¬LengthFails urb maxBufferSize k)
    (fails : PrepareFails r urb maxBufferSize env i ∨ LengthFails urb maxBufferSize i) :
    Atomic r tds urb.id (queueIsocTxPrepare q r0 tds urb maxBufferSize epState answers status 0 env) ↔
      PrepareFails r urb maxBufferSize env i ∧ (OnLink r urb maxBufferSize i → epStateError (env.epState i) = 0) := by
  obtain ⟨busy, idle0, c, queue, phased⟩ := consistent
  obtain ⟨enough, start⟩ := prepareRing_done checked queue
  have room := room_made queue enough
  obtain ⟨tds', done, idle, looping, reached⟩ := looping_at (q := q) (r := r) queue phased start isoc room i inside.le passes
  set r' := ringAt q r urb maxBufferSize env i
  have here : urb.packets[i]? = some urb.packets[i] := List.getElem?_eq_getElem inside
  have called : queueIsocTxPrepare q r0 tds urb maxBufferSize epState answers status 0 env =
      queueIsocLoop q urb maxBufferSize env r.enqueue i (urb.packets[i] :: urb.packets.drop (i + 1))
        ⟨r.enqueue, r.cycleState, r.numTrbsFree⟩ r' tds' := by
    rw [queueIsocTxPrepare, checked]
    simp only [ne_eq, not_true_eq_false, if_false]
    rw [queueIsocTx, if_neg (by omega), reached, List.drop_eq_getElem_cons inside]
  rw [called]
  by_cases prepare : PrepareFails r urb maxBufferSize env i
  · rw [and_iff_right prepare]
    by_cases zero : i = 0
    · subst zero
      obtain ⟨error, _, result⟩ := looping.fails_first (q := q) start isoc room here prepare (urb.packets.drop 1) r.enqueue
        ⟨r.enqueue, r.cycleState, r.numTrbsFree⟩
      rw [result]
      refine ⟨fun _ onLink => absurd onLink.1 (by omega), fun _ => ?_⟩
      exact ⟨rfl, new, rfl, rfl, rfl, fun _ => rfl, fun _ _ => rfl⟩
    · obtain ⟨error, x, rest, _, result, rfl, interrupted, _, same⟩ := looping.fails_later (q := q) queue start isoc room here
        (by omega) prepare (urb.packets.drop (i + 1)) r.enqueue
      obtain ⟨own, rfl, many, numbered⟩ := looping.own
      have split := looping.split
      rw [split] at queue
      rw [result, ← same]
      exact interrupted.atomic queue start new (removeTds_own new many numbered) error
  · -- The TD whose length does not fit stays on `td_list`.
    obtain ⟨p, is_p, short⟩ := fails.resolve_left prepare
    rw [here, Option.some.injEq] at is_p
    subst is_p
    obtain ⟨x, done', idle', result, first, _⟩ := looping.queued (q := q) queue phased start isoc room here prepare
    rw [queueIsocLoop_ok result first, if_pos short]
    refine ⟨fun atomic => ?_, fun both => absurd both.1 prepare⟩
    refine absurd rfl (atomic.noTd ⟨urb.id, i, x.enqueue, lastTrbOf q (packetTrbs urb maxBufferSize i urb.packets[i]) x⟩ ?_)
    exact mem_removeTds (by simp) le_rfl

/-- An isochronous ring of two segments, as the driver allocates it. -/
def isocRing : Ring :=
  (ringAlloc ⟨false, false⟩ 2 true .isoc ⟨[0x1000, 0x1400], fun _ => .accepted⟩).get (by decide +kernel)

theorem isocRing_made : ringAlloc ⟨false, false⟩ 2 true .isoc ⟨[0x1000, 0x1400], fun _ => .accepted⟩ = some isocRing :=
  (Option.some_get _).symm

theorem isocRing_consistent : Consistent isocRing := by
  have new : New ⟨false, false⟩ ⟨isocRing, 0, [], true⟩ := ⟨2, .isoc, _, by decide, by decide, isocRing_made, rfl, rfl⟩
  exact consistent_reachable (s := ⟨isocRing, 0, [], true⟩) (.first new)

theorem isocRing_prepared {n : Nat} (room : isocRing.numTrbsNeeded n < 1) :
    isocRing.prepareRing ⟨false, false⟩ 1 n [] 0 = (0, isocRing) := by
  rw [Ring.prepareRing, if_neg (by decide), makeRoom_of_enough _ room]
  exact if_neg (by decide +kernel)

/-- A URB with a buffer at this address and packets of these lengths. -/
def someUrb (transferBuffer : Nat) (packets : List Packet) : Urb :=
  ⟨7, transferBuffer, 0, true, packets, fun _ => 0, fun _ => 0, fun addr _ => BitVec.ofNat 64 addr, fun _ _ => 0, false⟩

/-- The second packet finds the endpoint in the error state. -/
def errorEnv : Env := ⟨fun i => if i = 1 then 4 else 1, fun _ => [], fun _ => 0, 0, fun _ => .accepted⟩

/-- Two packets of one TRB each. -/
def twoPackets : Urb := someUrb 0 [⟨0, 100⟩, ⟨100, 100⟩]

theorem queueIsocTxPrepare_atomic_twoPackets :
    Atomic isocRing [] twoPackets.id (queueIsocTxPrepare ⟨false, false⟩ isocRing [] twoPackets 1024 1 [] 0 0 errorEnv) := by
  have passes : ∀ k < 1, ¬PrepareFails isocRing twoPackets 1024 errorEnv k ∧ ¬LengthFails twoPackets 1024 k := by
    intro k before
    have zero : k = 0 := by omega
    subst zero
    refine ⟨?_, ?_⟩
    · rintro (state | ⟨_, refused⟩ | ⟨⟨positive, _⟩, _⟩)
      · exact state (by decide)
      · exact refused rfl
      · omega
    · rintro ⟨p, here, short⟩
      have is_p : p = ⟨0, 100⟩ := by simpa [twoPackets, someUrb] using here.symm
      subst is_p
      exact short (by decide)
  have fails : PrepareFails isocRing twoPackets 1024 errorEnv 1 := .inl (by decide)
  have inner : ¬OnLink isocRing twoPackets 1024 1 := by
    rintro ⟨_, atLink⟩
    revert atLink
    decide +kernel
  have new : ∀ td ∈ ([] : List Td), td.urb ≠ twoPackets.id := by simp
  have result := queueIsocTxPrepare_atomic_iff (by decide +kernel) (isocRing_prepared (by decide +kernel))
    isocRing_consistent new (by decide) passes (.inl fails)
  exact result.mpr ⟨fails, fun onLink => absurd onLink inner⟩

/-- The buffer of the packet is not aligned as its DMA address is, which makes one TRB too
    few for it. -/
theorem queueIsocTxPrepare_not_atomic : ¬∀ (q : Quirks) (r0 r : Ring) (tds : List Td) (urb : Urb) (maxBufferSize i epState : Nat)
    (answers : List Answers) (status : Int) (env : Env), r.type = .isoc →
    r0.prepareRing q epState (trbsBefore urb maxBufferSize urb.packets.length) answers status = (0, r) → Consistent r →
    (∀ td ∈ tds, td.urb ≠ urb.id) → i < urb.packets.length →
    (∀ k < i, ¬PrepareFails r urb maxBufferSize env k ∧ ¬LengthFails urb maxBufferSize k) →
    PrepareFails r urb maxBufferSize env i ∨ LengthFails urb maxBufferSize i →
    Atomic r tds urb.id (queueIsocTxPrepare q r0 tds urb maxBufferSize epState answers status 0 env) := by
  intro always
  have atomic := always ⟨false, false⟩ isocRing isocRing [] (someUrb 1000 [⟨0, 1024⟩]) 1024 0 1 [] 0 errorEnv
    (by decide +kernel) (isocRing_prepared (by decide +kernel)) isocRing_consistent (by simp) (by decide) (by simp)
    (.inr ⟨⟨0, 1024⟩, rfl, by decide⟩)
  have left : (queueIsocTxPrepare ⟨false, false⟩ isocRing [] (someUrb 1000 [⟨0, 1024⟩]) 1024 1 [] 0 0 errorEnv).2.2.length = 1 := by
    decide +kernel
  rw [atomic.tdList] at left
  simp at left

end Ehub.Isoc
