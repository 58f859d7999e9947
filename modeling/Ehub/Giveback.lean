import Mathlib
import Ehub.Isoc
import Ehub.Transfer

/-!
Giving URBs back. A URB has its TDs on `td_list`, and on `cancelled_td_list` once it has
been unlinked; `td_cnt` counts those that are done, and when it reaches `length` the URB is
given back and its `urb_priv` freed. Four places do so: the end of `finish_td`,
`xhci_giveback_urb_in_irq` for cancelled TDs and for those of a host that is given up, and
`ehub_xhci_urb_dequeue` itself when the device is gone.

The loop of `ehub_handle_tx_event` keeps `ret` from one iteration to the next. After a
missed TD that ends its URB it is set, and an event that is then found to be for a no-op
gives back the URB of the first TD left, which is not done. Where this does not happen every
URB is given back once, and none of its TDs is on a list then (`givenBack_once`).
-/
namespace Ehub.Giveback
open Ehub.Ring Ehub.Transfer Ehub.Cancel

/-- What is promised: a URB is given back once, its `urb_priv` is freed once, and its TDs
    have left the lists. -/
structure Once (s : State) : Prop where
  givenBack : s.givenBack.Nodup
  freed : s.freed.Nodup
  removed : ∀ e td, td ∈ (s.ep e).tdList ∨ td ∈ (s.ep e).cancelledTdList → td.urb ∉ s.givenBack

/-- The search of a transfer event for its TRB, with the TD that is passed last. -/
def passedTd (dma : BitVec 64) : Option Td → Ring → List Td → Option (Option Td × Ring × TrbPtr)
  | _, _, [] => none
  | passed, r, td :: tds =>
    match trbInTd r td.lastTrb dma with
    | some p => some (passed, r, p)
    | none => passedTd dma (some td) (advance r td.lastTrb) tds

/-- When the search ends at a no-op, the TD passed before it is not the last one of its
    URB. -/
def Leads (s : State) (dma : BitVec 64) (passed : Option Td) (r : Ring) (tds : List Td) : Prop :=
  ∀ td r' p, passedTd dma passed r tds = some (some td, r', p) → (r'.trb p).isNoop = true → td.index + 1 ≠ (s.urbPriv td.urb).length

/-- Missed isoc TDs are passed by this event. -/
def Passes (s : State) (e : EpId) (event : Event) (env : TxEnv) : Prop :=
  env.epState ≠ 0 ∧ event.code ∉ [compStop, compStopInval, compMissedInt] ∧ (s.ep e).skip = true ∧ (s.ep e).pipe = .isoc

/-- An event that passes missed TDs up to a no-op ends no URB with the last of them. -/
def Careful (s : State) : Op → Prop
  | .txEvent e event env => Passes s e event env → Leads s event.buffer none (s.ep e).ring (s.ep e).tdList
  | _ => True

instance (s : State) (dma : BitVec 64) (passed : Option Td) (r : Ring) (tds : List Td) : Decidable (Leads s dma passed r tds) :=
  match h : passedTd dma passed r tds with
  | none => .isTrue fun td r' p found => by rw [h] at found; cases found
  | some (none, r', p) => .isTrue fun td r' p found => by rw [h] at found; cases found
  | some (some td, r', p) =>
    decidable_of_iff ((r'.trb p).isNoop = true → td.index + 1 ≠ (s.urbPriv td.urb).length)
      ⟨fun ends td' r'' p' found => by rw [h] at found; cases found; exact ends, fun leads => leads td r' p h⟩

instance (s : State) : (op : Op) → Decidable (Careful s op)
  | .txEvent e event _ => inferInstanceAs (Decidable (_ ∧ _ ∧ _ ∧ _ → Leads s event.buffer none (s.ep e).ring (s.ep e).tdList))
  | .enqueue .. | .urbDequeue _ | .cmdCompletion .. | .cacheComplete | .watchdog _ | .queueOther _ | .raise | .die => .isTrue trivial

/-! ### The TDs of a URB -/

section
variable {l : List Td} {td : Td} {urb : Nat}

def own (l : List Td) (urb : Nat) : List Td := l.filter (·.urb == urb)

@[simp] theorem own_nil : own [] urb = [] := rfl

@[simp] theorem own_append (l l' : List Td) : own (l ++ l') urb = own l urb ++ own l' urb := List.filter_append ..

theorem own_cons (td : Td) (l : List Td) : own (td :: l) urb = if td.urb = urb then td :: own l urb else own l urb := by
  unfold own
  rw [List.filter_cons]
  simp

theorem mem_own : td ∈ own l urb ↔ td ∈ l ∧ td.urb = urb := by
  unfold own
  simp

theorem own_eq_nil : own l urb = [] ↔ ∀ td ∈ l, td.urb ≠ urb := by
  unfold own
  simp

theorem own_erase (l : List Td) (td : Td) : own (l.erase td) urb = if td.urb = urb then (own l urb).erase td else own l urb := by
  by_cases mine : td.urb = urb
  · rw [if_pos mine]
    exact List.erase_filter.symm
  · rw [if_neg mine]
    induction l with
    | nil => rfl
    | cons first rest ih =>
      by_cases same : first = td
      · subst same
        rw [List.erase_cons_head, own_cons, if_neg mine]
      · rw [List.erase_cons_tail (by simpa using same), own_cons, own_cons, ih]

/-- What is left of the TDs of a URB when others are taken out. -/
theorem own_diff : ∀ (taken l : List Td), own (taken.foldl List.erase l) urb = (own taken urb).foldl List.erase (own l urb) := by
  intro taken
  induction taken with
  | nil => exact fun _ => rfl
  | cons td taken ih =>
    intro l
    rw [List.foldl_cons, ih, own_erase, own_cons]
    by_cases mine : td.urb = urb
    · rw [if_pos mine, if_pos mine, List.foldl_cons]
    · rw [if_neg mine, if_neg mine]

theorem diff_self : ∀ l : List Td, l.foldl List.erase l = [] := by
  intro l
  induction l with
  | nil => rfl
  | cons td l ih => rw [List.foldl_cons, List.erase_cons_head, ih]

end

/-- The TDs of `pending` have left the lists and are not counted yet. The others of a URB
    that is not given back are on `td_list` in their order, from `td_cnt` on. -/
structure Inv (pending : List Td) (s : State) : Prop where
  left : ∀ {e urb}, (e, urb) ∈ s.linked → urb ∉ s.givenBack → (s.urbPriv urb).tdCnt < (s.urbPriv urb).length ∧
    (own (pending ++ (s.ep e).tdList) urb).map Td.index =
      List.range' (s.urbPriv urb).tdCnt ((s.urbPriv urb).length - (s.urbPriv urb).tdCnt)
  listed : ∀ {e td}, td ∈ (s.ep e).tdList → (e, td.urb) ∈ s.linked ∧ td.urb ∉ s.givenBack
  waiting : ∀ {td}, td ∈ pending → (∃ e, (e, td.urb) ∈ s.linked) ∧ td.urb ∉ s.givenBack
  cancelled : ∀ e urb, own (s.ep e).cancelledTdList urb = [] ∨ own (s.ep e).cancelledTdList urb = own (s.ep e).tdList urb
  fresh : ∀ {urb}, urb ∉ s.unlinked → ∀ e, own (s.ep e).cancelledTdList urb = []
  one : ∀ {e e' urb}, (e, urb) ∈ s.linked → (e', urb) ∈ s.linked → e = e'
  once : s.givenBack.Nodup
  known : ∀ {urb}, urb ∈ s.givenBack → ∃ e, (e, urb) ∈ s.linked
  freed : s.freed = s.givenBack

section
variable {s s' : State} {pending : List Td} {e : EpId} {td : Td}

/-- A cancelled TD is on `td_list`. -/
theorem Inv.mem_tdList (inv : Inv pending s) (member : td ∈ (s.ep e).cancelledTdList) : td ∈ (s.ep e).tdList := by
  have mine : td ∈ own (s.ep e).cancelledTdList td.urb := mem_own.mpr ⟨member, rfl⟩
  rcases inv.cancelled e td.urb with none_of_it | same
  · rw [none_of_it] at mine
    exact absurd mine List.not_mem_nil
  · rw [same] at mine
    exact (mem_own.mp mine).1

theorem Inv.holds_once (inv : Inv [] s) : Once s where
  givenBack := inv.once
  freed := inv.freed ▸ inv.once
  removed e td member := by
    rcases member with listed | cancelled
    · exact (inv.listed listed).2
    · exact (inv.listed (inv.mem_tdList cancelled)).2

/-- What the invariant is about stays as it is. -/
structure Still (s s' : State) : Prop where
  lists : ∀ e, (s'.ep e).tdList = (s.ep e).tdList ∧ (s'.ep e).cancelledTdList = (s.ep e).cancelledTdList
  urbPriv : s'.urbPriv = s.urbPriv
  linked : s'.linked = s.linked
  unlinked : s'.unlinked = s.unlinked
  givenBack : s'.givenBack = s.givenBack
  freed : s'.freed = s.freed

theorem Still.refl (s : State) : Still s s := ⟨fun _ => ⟨rfl, rfl⟩, rfl, rfl, rfl, rfl, rfl⟩

theorem Still.trans {s'' : State} (first : Still s s') (second : Still s' s'') : Still s s'' where
  lists e := ⟨(second.lists e).1.trans (first.lists e).1, (second.lists e).2.trans (first.lists e).2⟩
  urbPriv := second.urbPriv.trans first.urbPriv
  linked := second.linked.trans first.linked
  unlinked := second.unlinked.trans first.unlinked
  givenBack := second.givenBack.trans first.givenBack
  freed := second.freed.trans first.freed

theorem Inv.still (inv : Inv pending s) (still : Still s s') : Inv pending s' := by
  obtain ⟨lists, urbPriv, linked, unlinked, givenBack, freed⟩ := still
  constructor
  · intro e urb
    rw [linked, givenBack, urbPriv, (lists e).1]
    exact inv.left
  · intro e td
    rw [linked, givenBack, (lists e).1]
    exact inv.listed
  · rw [linked, givenBack]
    exact inv.waiting
  · intro e urb
    rw [(lists e).1, (lists e).2]
    exact inv.cancelled e urb
  · intro urb new e
    rw [unlinked] at new
    rw [(lists e).2]
    exact inv.fresh new e
  · rw [linked]
    exact inv.one
  · rw [givenBack]
    exact inv.once
  · rw [linked, givenBack]
    exact inv.known
  · rw [freed, givenBack]
    exact inv.freed

theorem still_setEp {ep : Ep} (tdList : ep.tdList = (s.ep e).tdList) (cancelled : ep.cancelledTdList = (s.ep e).cancelledTdList) :
    Still s (s.setEp e ep) := by
  refine ⟨fun e' => ?_, rfl, rfl, rfl, rfl, rfl⟩
  by_cases here : e' = e
  · subst here
    rw [State.ep_setEp]
    exact ⟨tdList, cancelled⟩
  · rw [State.ep_setEp_other _ here]
    exact ⟨rfl, rfl⟩

theorem still_queueCommand (ret : Int) (cmd : Cmd) : Still s (s.queueCommand ret cmd) := by
  unfold State.queueCommand
  split_ifs
  · exact .refl s
  · exact ⟨fun _ => ⟨rfl, rfl⟩, rfl, rfl, rfl, rfl, rfl⟩

theorem still_withSetDeq (queued : Option (TrbPtr × Bool)) : Still s (s.withSetDeq e queued) := by
  cases queued with
  | none => exact .refl s
  | some _ => exact ⟨fun _ => ⟨rfl, rfl⟩, rfl, rfl, rfl, rfl, rfl⟩

theorem still_markIf (was : Bool) (m : Mark) : Still s (s.markIf e was m) := by
  cases was with
  | false => exact .refl s
  | true => exact ⟨fun _ => ⟨rfl, rfl⟩, rfl, rfl, rfl, rfl, rfl⟩

theorem still_cleanupStalledRing (td : Td) (env : Env) : Still s (s.cleanupStalledRing e td env) := by
  unfold State.cleanupStalledRing
  split
  · exact .refl s
  · rename_i deqState _
    rcases queueNewDequeueState_cases (s.ep e).toEndpoint deqState (s.queueEnv env) with ⟨p, eq, _⟩ | ⟨_, eq⟩
    · rw [eq]
      refine Still.trans ?_ (still_withSetDeq _)
      exact still_setEp rfl rfl
    · rw [eq]
      refine Still.trans ?_ (still_withSetDeq _)
      exact still_setEp rfl rfl

theorem still_cleanupHaltedEndpoint (td : Td) (env : TxEnv) : Still s (s.cleanupHaltedEndpoint e td env) := by
  unfold State.cleanupHaltedEndpoint
  split_ifs
  · exact .refl s
  · refine Still.trans ?_ (still_cleanupStalledRing td env.env)
    refine Still.trans ?_ (still_queueCommand _ _)
    exact still_setEp rfl rfl

/-! ### A TD is done -/

/-- A URB whose TDs are waiting is one of an endpoint, and its TDs are there. -/
theorem Inv.next (inv : Inv (td :: pending) s) : ∃ e, (e, td.urb) ∈ s.linked ∧ td.urb ∉ s.givenBack ∧
    td.index = (s.urbPriv td.urb).tdCnt ∧ (s.urbPriv td.urb).tdCnt < (s.urbPriv td.urb).length ∧
    (own (pending ++ (s.ep e).tdList) td.urb).map Td.index =
      List.range' ((s.urbPriv td.urb).tdCnt + 1) ((s.urbPriv td.urb).length - ((s.urbPriv td.urb).tdCnt + 1)) := by
  obtain ⟨⟨e, linked⟩, open_⟩ := inv.waiting List.mem_cons_self
  obtain ⟨below, indices⟩ := inv.left linked open_
  obtain ⟨more, count⟩ : ∃ more, (s.urbPriv td.urb).length - (s.urbPriv td.urb).tdCnt = more + 1 :=
    ⟨_, (Nat.succ_pred_eq_of_pos (Nat.sub_pos_of_lt below)).symm⟩
  rw [count, List.cons_append, own_cons, if_pos rfl, List.map_cons, List.range'_succ, List.cons.injEq] at indices
  refine ⟨e, linked, open_, indices.1, below, ?_⟩
  rw [indices.2]
  congr 1
  omega

/-- The next TD is counted, and its URB given back if it was the last. -/
theorem Inv.complete (inv : Inv (td :: pending) s) : Inv pending (s.givebackUrbInIrq td) := by
  obtain ⟨e, linked, open_, index, below, indices⟩ := inv.next
  have other : ∀ {urb}, urb ≠ td.urb → (s.tdDone td.urb).urbPriv urb = s.urbPriv urb := fun different => Function.update_of_ne different ..
  have self : (s.tdDone td.urb).urbPriv td.urb = ⟨(s.urbPriv td.urb).tdCnt + 1, (s.urbPriv td.urb).length⟩ := Function.update_self ..
  have rest : ∀ {e urb}, urb ≠ td.urb → own (td :: pending ++ (s.ep e).tdList) urb = own (pending ++ (s.ep e).tdList) urb := by
    intro e urb different
    rw [List.cons_append, own_cons, if_neg (Ne.symm different)]
  unfold State.givebackUrbInIrq
  dsimp only
  by_cases done : (s.tdDone td.urb).allDone td.urb = true
  · rw [if_pos done]
    have last : (s.urbPriv td.urb).tdCnt + 1 = (s.urbPriv td.urb).length := by
      unfold State.allDone at done
      rw [self] at done
      exact beq_iff_eq.mp done
    have none_left : own (pending ++ (s.ep e).tdList) td.urb = [] := by
      rw [last, Nat.sub_self] at indices
      exact List.map_eq_nil_iff.mp indices
    have notListed : ∀ {e' td'}, td' ∈ (s.ep e').tdList → td'.urb ≠ td.urb := by
      intro e' td' member same
      have here := (inv.listed member).1
      rw [same] at here
      rw [inv.one here linked] at member
      exact own_eq_nil.mp none_left td' (List.mem_append_right _ member) same
    constructor
    · intro e' urb there free
      obtain ⟨free, different⟩ := not_or.mp (fun given => free (List.mem_append.mpr given))
      rw [List.mem_singleton] at different
      have before := inv.left there free
      rw [rest different] at before
      have same : ((s.tdDone td.urb).giveback td.urb).urbPriv urb = s.urbPriv urb := other different
      rw [same]
      exact before
    · intro e' td' member
      obtain ⟨there, free⟩ := inv.listed member
      refine ⟨there, fun given => ?_⟩
      rcases List.mem_append.mp given with before | now
      · exact free before
      · exact notListed member (List.mem_singleton.mp now)
    · intro td' member
      obtain ⟨there, free⟩ := inv.waiting (List.mem_cons_of_mem _ member)
      refine ⟨there, fun given => ?_⟩
      rcases List.mem_append.mp given with before | now
      · exact free before
      · exact own_eq_nil.mp none_left td' (List.mem_append_left _ member) (List.mem_singleton.mp now)
    · exact inv.cancelled
    · exact inv.fresh
    · exact inv.one
    · exact List.nodup_append.mpr ⟨inv.once, List.nodup_singleton _, by
        intro urb before urb' now same
        rw [List.mem_singleton.mp now] at same
        exact open_ (same ▸ before)⟩
    · intro urb given
      rcases List.mem_append.mp given with before | now
      · exact inv.known before
      · exact ⟨e, List.mem_singleton.mp now ▸ linked⟩
    · change s.freed ++ [td.urb] = s.givenBack ++ [td.urb]
      rw [inv.freed]
  · rw [if_neg done]
    have more : (s.urbPriv td.urb).tdCnt + 1 < (s.urbPriv td.urb).length := by
      unfold State.allDone at done
      rw [self] at done
      have different : (s.urbPriv td.urb).tdCnt + 1 ≠ (s.urbPriv td.urb).length := fun same => done (beq_iff_eq.mpr same)
      omega
    constructor
    · intro e' urb there free
      by_cases mine : urb = td.urb
      · subst mine
        rw [inv.one there linked, self]
        exact ⟨more, indices⟩
      · have before := inv.left there free
        rw [rest mine] at before
        rw [other mine]
        exact before
    · exact inv.listed
    · exact fun member => inv.waiting (List.mem_cons_of_mem _ member)
    · exact inv.cancelled
    · exact inv.fresh
    · exact inv.one
    · exact inv.once
    · exact inv.known
    · exact inv.freed

theorem Inv.completes : ∀ {pending : List Td} {s : State}, Inv pending s → Inv [] (pending.foldl State.givebackUrbInIrq s) := by
  intro pending
  induction pending with
  | nil => exact fun inv => inv
  | cons td pending ih => exact fun inv => ih inv.complete

/-! ### TDs leave the lists -/

/-- Some TDs of an endpoint are taken from its lists: they and what is left are what was
    there, URB by URB. -/
structure Taken (ep ep' : Ep) (pending : List Td) : Prop where
  split : ∀ urb, own (pending ++ ep'.tdList) urb = own ep.tdList urb
  cancelled : ∀ urb, own ep'.cancelledTdList urb = [] ∨ own ep'.cancelledTdList urb = own ep'.tdList urb
  fewer : ∀ urb, own ep.cancelledTdList urb = [] → own ep'.cancelledTdList urb = []

theorem Taken.mem {ep ep' : Ep} (taken : Taken ep ep' pending) (member : td ∈ pending ++ ep'.tdList) : td ∈ ep.tdList := by
  have mine : td ∈ own (pending ++ ep'.tdList) td.urb := mem_own.mpr ⟨member, rfl⟩
  rw [taken.split] at mine
  exact (mem_own.mp mine).1

theorem Inv.take (inv : Inv [] s) {ep' : Ep} (taken : Taken (s.ep e) ep' pending) : Inv pending (s.setEp e ep') := by
  have here : ∀ {td}, td ∈ pending → (e, td.urb) ∈ s.linked ∧ td.urb ∉ s.givenBack :=
    fun member => inv.listed (taken.mem (List.mem_append_left _ member))
  constructor
  · intro e' urb there free
    obtain ⟨below, indices⟩ := inv.left there free
    refine ⟨below, ?_⟩
    by_cases same : e' = e
    · subst same
      rw [State.ep_setEp, taken.split]
      exact indices
    · rw [State.ep_setEp_other _ same, own_append]
      have elsewhere : own pending urb = [] := by
        refine own_eq_nil.mpr (fun td member mine => same ?_)
        exact inv.one there (mine ▸ (here member).1)
      rw [elsewhere]
      exact indices
  · intro e' td member
    by_cases same : e' = e
    · subst same
      rw [State.ep_setEp] at member
      exact inv.listed (taken.mem (List.mem_append_right _ member))
    · rw [State.ep_setEp_other _ same] at member
      exact inv.listed member
  · exact fun member => ⟨⟨e, (here member).1⟩, (here member).2⟩
  · intro e' urb
    by_cases same : e' = e
    · subst same
      rw [State.ep_setEp]
      exact taken.cancelled urb
    · rw [State.ep_setEp_other _ same]
      exact inv.cancelled e' urb
  · intro urb new e'
    by_cases same : e' = e
    · subst same
      rw [State.ep_setEp]
      exact taken.fewer urb (inv.fresh new e')
    · rw [State.ep_setEp_other _ same]
      exact inv.fresh new e'
  · exact inv.one
  · exact inv.once
  · exact inv.known
  · exact inv.freed

/-- `finish_td` takes the first TD. -/
theorem taken_first {ep ep' : Ep} {rest : List Td} (is_list : ep.tdList = td :: rest)
    (cancelled : ∀ urb, own ep.cancelledTdList urb = [] ∨ own ep.cancelledTdList urb = own ep.tdList urb)
    (tdList : ep'.tdList = ep.tdList.erase td) (others : ep'.cancelledTdList = ep.cancelledTdList.erase td) : Taken ep ep' [td] := by
  have left : ep'.tdList = rest := by rw [tdList, is_list, List.erase_cons_head]
  have fewer : ∀ urb, own ep.cancelledTdList urb = [] → own ep'.cancelledTdList urb = [] := by
    intro urb nothing
    rw [others, own_erase, nothing]
    split_ifs <;> rfl
  refine ⟨fun urb => by rw [left, is_list]; rfl, fun urb => ?_, fewer⟩
  rcases cancelled urb with nothing | same
  · exact .inl (fewer urb nothing)
  · right
    rw [others, own_erase, same, left, is_list, own_cons]
    by_cases mine : td.urb = urb
    · rw [if_pos mine, if_pos mine, List.erase_cons_head]
    · rw [if_neg mine, if_neg mine]

/-- `xhci_handle_cmd_stop_ep` takes the cancelled TDs. -/
theorem taken_cancelled {ep ep' : Ep}
    (cancelled : ∀ urb, own ep.cancelledTdList urb = [] ∨ own ep.cancelledTdList urb = own ep.tdList urb)
    (tdList : ep'.tdList = ep.cancelledTdList.foldl List.erase ep.tdList) (others : ep'.cancelledTdList = []) :
    Taken ep ep' ep.cancelledTdList := by
  refine ⟨fun urb => ?_, fun urb => .inl (by rw [others]; rfl), fun urb _ => by rw [others]; rfl⟩
  rw [own_append, tdList, own_diff]
  rcases cancelled urb with nothing | same
  · rw [nothing]
    rfl
  · rw [same, diff_self, List.append_nil]

/-- `xhci_kill_endpoint_urbs` takes them all. -/
theorem taken_all {ep ep' : Ep} (tdList : ep'.tdList = []) (others : ep'.cancelledTdList = []) : Taken ep ep' ep.tdList :=
  ⟨fun urb => by rw [tdList, List.append_nil], fun urb => .inl (by rw [others]; rfl), fun urb _ => by rw [others]; rfl⟩

/-- The end of `finish_td`, with the giveback that follows it. -/
theorem removeTd_cleanup (s : State) (e : EpId) (td : Td) : (s.removeTd e td).1.cleanup (s.removeTd e td).2 (some td) =
    (s.setEp e { s.ep e with tdList := (s.ep e).tdList.erase td, cancelledTdList := (s.ep e).cancelledTdList.erase td }).givebackUrbInIrq td := by
  unfold State.removeTd State.givebackUrbInIrq
  dsimp only
  cases done : ((s.setEp e _).tdDone td.urb).allDone td.urb
  · rfl
  · rfl

theorem Inv.removeTd (inv : Inv [] s) {rest : List Td} (is_list : (s.ep e).tdList = td :: rest) :
    Inv [] ((s.removeTd e td).1.cleanup (s.removeTd e td).2 (some td)) := by
  rw [removeTd_cleanup]
  exact (inv.take (taken_first is_list (inv.cancelled e) rfl rfl)).complete

theorem Inv.finishTd (inv : Inv [] s) {rest : List Td} (is_list : (s.ep e).tdList = td :: rest) (skip : Bool) (event : Event)
    (env : TxEnv) : Inv [] ((s.finishTd e td skip event env).1.cleanup (s.finishTd e td skip event env).2 (some td)) := by
  have after : ∀ {s' : State}, Still s s' → Inv [] ((s'.removeTd e td).1.cleanup (s'.removeTd e td).2 (some td)) :=
    fun still => (inv.still still).removeTd ((still.lists e).1.trans is_list)
  unfold State.finishTd
  split_ifs
  · exact inv.removeTd is_list
  · exact inv.still (still_setEp rfl rfl)
  · exact after (still_cleanupHaltedEndpoint td env)
  · exact after (still_setEp rfl rfl)

theorem Inv.skipIsocTd (inv : Inv [] s) {rest : List Td} (is_list : (s.ep e).tdList = td :: rest) (event : Event) (env : TxEnv) :
    Inv [] ((s.skipIsocTd e td event env).1.cleanup (s.skipIsocTd e td event env).2 (some td)) := by
  have moved : Inv [] (s.setEp e { s.ep e with ring := advance (s.ep e).ring td.lastTrb }) := inv.still (still_setEp rfl rfl)
  exact moved.finishTd (by rw [State.ep_setEp]; exact is_list) true event env

/-! ### Transfer events -/

/-- What holds in the loop of an event that began in `s`: `ret` is set only when the TD
    passed last was the last one of its URB, and then no no-op follows. -/
structure Looping (s : State) (e : EpId) (event : Event) (stopped : Prop) (ret : Bool) (s' : State) : Prop where
  inv : Inv [] s'
  length : ∀ urb, (s'.urbPriv urb).length = (s.urbPriv urb).length
  skip : (s'.ep e).skip = true → (s.ep e).skip = true
  pipe : (s'.ep e).pipe = (s.ep e).pipe
  passed : ∃ passed, (ret = true → (s.ep e).skip = true ∧ (s.ep e).pipe = .isoc ∧ ¬stopped ∧
      ∃ td, passed = some td ∧ td.index + 1 = (s.urbPriv td.urb).length) ∧
    ((s.ep e).skip = true → (s.ep e).pipe = .isoc → ¬stopped → Leads s event.buffer passed (s'.ep e).ring (s'.ep e).tdList)

theorem Looping.mark {event : Event} {stopped : Prop} {ret skip short : Bool} (looping : Looping s e event stopped ret s')
    (less : skip = true → (s'.ep e).skip = true) :
    Looping s e event stopped ret (s'.setEp e { s'.ep e with skip := skip, lastTdWasShort := short }) := by
  constructor
  · exact looping.inv.still (still_setEp rfl rfl)
  · exact looping.length
  · rw [State.ep_setEp]
    exact fun set => looping.skip (less set)
  · rw [State.ep_setEp]
    exact looping.pipe
  · rw [State.ep_setEp]
    exact looping.passed

theorem length_skipIsocTd (event : Event) (env : TxEnv) (ret : Bool) (urb : Nat) :
    (((s.skipIsocTd e td event env).1.cleanup ret (some td)).urbPriv urb).length = (s.urbPriv urb).length := by
  have counted : ((s.skipIsocTd e td event env).1.urbPriv urb).length = (s.urbPriv urb).length := by
    change (Function.update s.urbPriv td.urb ⟨(s.urbPriv td.urb).tdCnt + 1, (s.urbPriv td.urb).length⟩ urb).length = _
    by_cases mine : urb = td.urb
    · rw [mine, Function.update_self]
    · rw [Function.update_of_ne mine]
  cases ret
  · exact counted
  · exact counted

/-- `skip_isoc_td` returns 1 for the last TD of its URB. -/
theorem Inv.last_skipIsocTd (inv : Inv [] s) {rest : List Td} (is_list : (s.ep e).tdList = td :: rest) {event : Event} {env : TxEnv}
    (ends : (s.skipIsocTd e td event env).2 = true) : td.index + 1 = (s.urbPriv td.urb).length := by
  have taken : Taken (s.ep e) { s.ep e with
      tdList := (s.ep e).tdList.erase td, cancelledTdList := (s.ep e).cancelledTdList.erase td } [td] :=
    taken_first is_list (inv.cancelled e) rfl rfl
  obtain ⟨_, _, _, index, _, _⟩ := (inv.take taken).next
  change td.index = (s.urbPriv td.urb).tdCnt at index
  have counted : ((s.skipIsocTd e td event env).1.urbPriv td.urb) = ⟨(s.urbPriv td.urb).tdCnt + 1, (s.urbPriv td.urb).length⟩ :=
    Function.update_self ..
  have done : (s.skipIsocTd e td event env).1.allDone td.urb = true := ends
  unfold State.allDone at done
  rw [counted, beq_iff_eq] at done
  rw [index]
  exact done

theorem Looping.pass {event : Event} {env : TxEnv} {stopped : Prop} {ret : Bool} {rest : List Td} (looping : Looping s e event stopped ret s')
    (is_list : (s'.ep e).tdList = td :: rest) (skip : (s'.ep e).skip = true) (isoc : (s'.ep e).pipe = .isoc)
    (missed : trbInTd (s'.ep e).ring td.lastTrb event.buffer = none) (going : ¬stopped) :
    Looping s e event stopped (s'.skipIsocTd e td event env).2
      ((s'.skipIsocTd e td event env).1.cleanup (s'.skipIsocTd e td event env).2 (some td)) := by
  have same := ep_skipIsocTd (s := s') (e := e) td event env (s'.skipIsocTd e td event env).2
  have skip₀ := looping.skip skip
  have isoc₀ := looping.pipe.symm.trans isoc
  constructor
  · exact looping.inv.skipIsocTd is_list event env
  · exact fun urb => (length_skipIsocTd event env _ urb).trans (looping.length urb)
  · exact fun _ => skip₀
  · rw [same]
    exact looping.pipe
  · refine ⟨some td, fun ends => ⟨skip₀, isoc₀, going, td, rfl, ?_⟩, fun _ _ _ => ?_⟩
    · rw [← looping.length]
      exact looping.inv.last_skipIsocTd is_list ends
    · obtain ⟨passed, -, leads⟩ := looping.passed
      have before := leads skip₀ isoc₀ going
      rw [same]
      intro td' r' p found
      refine before td' r' p ?_
      rw [is_list, passedTd, missed]
      rw [is_list, List.erase_cons_head] at found
      exact found

theorem Inv.txLoop (inv : Inv [] s) {event : Event} {env : TxEnv} {code : Nat}
    (leads : (s.ep e).skip = true → (s.ep e).pipe = .isoc → ¬(code = compStop ∨ code = compStopInval) →
      Leads s event.buffer none (s.ep e).ring (s.ep e).tdList) (fuel tdNum : Nat) :
    Inv [] (s.txLoop e event code env fuel tdNum false) := by
  refine txLoop_carries (Looping s e event (code = compStop ∨ code = compStopInval)) (Inv []) ?_ ?_ ?_ ?_ ?_ ?_ fuel tdNum false s ?_
  · exact fun _ _ looping => looping.inv
  · rintro ret s' ⟨inv, length, skip, pipe, passed, -, leads⟩
    exact ⟨inv, length, skip, pipe, passed, by simp, leads⟩
  · exact fun _ _ _ _ looping less => looping.mark less
  · exact fun _ _ _ _ looping is_list skip isoc missed going => looping.pass is_list skip isoc missed going
  · exact fun _ _ _ _ _ looping is_list _ _ _ _ => looping.inv.finishTd is_list false event env
  · intro ret s' td rest p looping is_list found isNoop
    cases ret with
    | false => exact looping.inv
    | true =>
      obtain ⟨passed, ends, leads⟩ := looping.passed
      obtain ⟨skip, isoc, going, last, rfl, is_last⟩ := ends rfl
      refine absurd is_last (leads skip isoc going last _ p ?_ isNoop)
      rw [is_list, passedTd, found]
  · exact ⟨inv, fun _ => rfl, fun set => set, rfl, none, by simp, leads⟩

theorem Inv.handleTxEvent (inv : Inv [] s) {event : Event} {env : TxEnv} (careful : Careful s (.txEvent e event env)) :
    Inv [] (s.handleTxEvent e event env) := by
  rcases handleTxEvent_cases s e event env with ⟨_, eq⟩ | ⟨enabled, ⟨code, tdNum, eq, ⟨sameCode, notMissed⟩, _⟩ | ⟨_, eq | eq⟩⟩
  · rw [eq]
    exact inv
  · rw [eq]
    have noted : Still s (s.noteStall e event) ∧ ((s.noteStall e event).ep e).skip = (s.ep e).skip ∧
        ((s.noteStall e event).ep e).pipe = (s.ep e).pipe ∧ ((s.noteStall e event).ep e).ring = (s.ep e).ring := by
      unfold State.noteStall
      split_ifs
      · exact ⟨still_setEp rfl rfl, by rw [State.ep_setEp], by rw [State.ep_setEp], by rw [State.ep_setEp]⟩
      · exact ⟨.refl s, rfl, rfl, rfl⟩
    obtain ⟨still, skip, pipe, ring⟩ := noted
    refine (inv.still still).txLoop ?_ _ _
    rw [skip, pipe, ring, (still.lists e).1]
    intro set isoc going
    have codes : event.code ∉ [compStop, compStopInval, compMissedInt] := by
      intro listed
      rcases List.mem_cons.mp listed with stop | listed
      · exact going (.inl ((sameCode (by rw [stop]; decide)).trans stop))
      rcases List.mem_cons.mp listed with stop | listed
      · exact going (.inr ((sameCode (by rw [stop]; decide)).trans stop))
      · exact notMissed (List.mem_singleton.mp listed)
    have leads := careful ⟨enabled, codes, set, isoc⟩
    intro td r p found isNoop
    rw [still.urbPriv]
    exact leads td r p found isNoop
  · rw [eq]
    exact inv
  · rw [eq]
    exact inv.still (still_setEp rfl rfl)

/-! ### URBs are unlinked -/

theorem own_own (l : List Td) (urb urb' : Nat) : own (own l urb) urb' = if urb' = urb then own l urb else [] := by
  by_cases same : urb' = urb
  · rw [if_pos same, same]
    exact List.filter_filter.trans (by simp only [Bool.and_self]; rfl)
  · rw [if_neg same]
    exact own_eq_nil.mpr (fun td member mine => same (mine.symm.trans (mem_own.mp member).2))

/-- The TDs of other URBs. -/
def others (l : List Td) (urb : Nat) : List Td := l.filter (·.urb != urb)

theorem own_others (l : List Td) (urb urb' : Nat) : own (others l urb) urb' = if urb' = urb then [] else own l urb' := by
  by_cases same : urb' = urb
  · rw [if_pos same, same]
    refine own_eq_nil.mpr (fun td member => ?_)
    simpa using (List.mem_filter.mp member).2
  · rw [if_neg same]
    refine List.filter_filter.trans (List.filter_congr fun td _ => ?_)
    by_cases mine : td.urb = urb'
    · simp [mine, same]
    · simp [mine]

/-- The TDs of a URB that are on `td_list` are those that are left. -/
theorem Inv.isLeft (inv : Inv [] s) (member : td ∈ (s.ep e).tdList) (urb : Nat) : s.isLeft urb td = (td.urb == urb) := by
  unfold State.isLeft
  by_cases mine : td.urb = urb
  · subst mine
    obtain ⟨linked, open_⟩ := inv.listed member
    have index : td.index ∈ (own ([] ++ (s.ep e).tdList) td.urb).map Td.index :=
      List.mem_map_of_mem (mem_own.mpr ⟨member, rfl⟩)
    rw [(inv.left linked open_).2, List.mem_range'_1] at index
    simp [index.1]
  · simp [mine]

theorem Inv.drop (inv : Inv [] s) {urb : Nat} (linked : (e, urb) ∈ s.linked) (open_ : urb ∉ s.givenBack) :
    Inv [] ((s.dropTds e urb).giveback urb) := by
  have dropped : s.dropTds e urb = s.setEp e { s.ep e with
      tdList := others (s.ep e).tdList urb, cancelledTdList := others (s.ep e).cancelledTdList urb } := by
    have listed : (s.ep e).tdList.filter (!s.isLeft urb ·) = others (s.ep e).tdList urb :=
      List.filter_congr fun td member => by rw [inv.isLeft member]; rfl
    have cancelled : (s.ep e).cancelledTdList.filter (!s.isLeft urb ·) = others (s.ep e).cancelledTdList urb :=
      List.filter_congr fun td member => by rw [inv.isLeft (inv.mem_tdList member)]; rfl
    unfold State.dropTds
    rw [listed, cancelled]
  rw [dropped]
  constructor
  · intro e' urb' there free
    obtain ⟨free, different⟩ := not_or.mp (fun given => free (List.mem_append.mpr given))
    rw [List.mem_singleton] at different
    obtain ⟨below, indices⟩ := inv.left there free
    refine ⟨below, ?_⟩
    change (own ([] ++ ((s.setEp e _).ep e').tdList) urb').map Td.index = _
    by_cases same : e' = e
    · subst same
      rw [State.ep_setEp, List.nil_append, own_others, if_neg different]
      exact indices
    · rw [State.ep_setEp_other _ same]
      exact indices
  · intro e' td member
    change td ∈ ((s.setEp e _).ep e').tdList at member
    have still : td ∈ (s.ep e').tdList ∧ td.urb ≠ urb := by
      by_cases same : e' = e
      · subst same
        rw [State.ep_setEp] at member
        exact ⟨(List.mem_filter.mp member).1, by simpa using (List.mem_filter.mp member).2⟩
      · rw [State.ep_setEp_other _ same] at member
        exact ⟨member, fun mine => same (inv.one (mine ▸ (inv.listed member).1) linked)⟩
    obtain ⟨there, free⟩ := inv.listed still.1
    refine ⟨there, fun given => ?_⟩
    rcases List.mem_append.mp given with before | now
    · exact free before
    · exact still.2 (List.mem_singleton.mp now)
  · exact fun member => absurd member List.not_mem_nil
  · intro e' urb'
    change own ((s.setEp e _).ep e').cancelledTdList urb' = [] ∨
      own ((s.setEp e _).ep e').cancelledTdList urb' = own ((s.setEp e _).ep e').tdList urb'
    by_cases same : e' = e
    · subst same
      rw [State.ep_setEp, own_others, own_others]
      by_cases mine : urb' = urb
      · exact .inl (if_pos mine)
      · rw [if_neg mine, if_neg mine]
        exact inv.cancelled e' urb'
    · rw [State.ep_setEp_other _ same]
      exact inv.cancelled e' urb'
  · intro urb' new e'
    change own ((s.setEp e _).ep e').cancelledTdList urb' = []
    by_cases same : e' = e
    · subst same
      rw [State.ep_setEp, own_others, inv.fresh new e']
      split_ifs <;> rfl
    · rw [State.ep_setEp_other _ same]
      exact inv.fresh new e'
  · exact inv.one
  · exact List.nodup_append.mpr ⟨inv.once, List.nodup_singleton _, by
      intro urb' before now isNow same
      rw [List.mem_singleton.mp isNow] at same
      exact open_ (same ▸ before)⟩
  · intro urb' given
    rcases List.mem_append.mp given with before | now
    · exact inv.known before
    · exact ⟨e, List.mem_singleton.mp now ▸ linked⟩
  · change s.freed ++ [urb] = s.givenBack ++ [urb]
    rw [inv.freed]

theorem Inv.noteUnlinked (inv : Inv [] s) (urb : Nat) : Inv [] (s.noteUnlinked urb) :=
  ⟨inv.left, inv.listed, inv.waiting, inv.cancelled, fun new => inv.fresh fun before => new (List.mem_append_left _ before), inv.one,
    inv.once, inv.known, inv.freed⟩

/-- The TDs of a URB that was not unlinked before join the other list. -/
theorem Inv.cancel (inv : Inv [] s) {urb : Nat} (new : urb ∉ s.unlinked) : Inv [] ((s.noteUnlinked urb).cancelTds e urb) := by
  have joined : (s.noteUnlinked urb).cancelTds e urb =
      (s.noteUnlinked urb).setEp e { s.ep e with cancelledTdList := (s.ep e).cancelledTdList ++ own (s.ep e).tdList urb } := by
    have left : (s.ep e).tdList.filter ((s.noteUnlinked urb).isLeft urb) = own (s.ep e).tdList urb :=
      List.filter_congr fun td member => inv.isLeft member urb
    unfold State.cancelTds
    exact congrArg (fun tds => (s.noteUnlinked urb).setEp e { s.ep e with cancelledTdList := (s.ep e).cancelledTdList ++ tds }) left
  have lists : ∀ e', (((s.noteUnlinked urb).cancelTds e urb).ep e').tdList = (s.ep e').tdList ∧ ∀ urb',
      own (((s.noteUnlinked urb).cancelTds e urb).ep e').cancelledTdList urb' =
        if e' = e ∧ urb' = urb then own (s.ep e).tdList urb else own (s.ep e').cancelledTdList urb' := by
    intro e'
    rw [joined]
    by_cases same : e' = e
    · subst same
      rw [State.ep_setEp]
      refine ⟨rfl, fun urb' => ?_⟩
      rw [own_append, own_own]
      by_cases mine : urb' = urb
      · subst mine
        rw [if_pos rfl, if_pos ⟨rfl, rfl⟩, inv.fresh new e', List.nil_append]
      · rw [if_neg mine, if_neg (fun both => mine both.2), List.append_nil]
    · rw [State.ep_setEp_other _ same]
      exact ⟨rfl, fun urb' => (if_neg fun both => same both.1).symm⟩
  constructor
  · intro e' urb' there free
    rw [(lists e').1]
    exact inv.left there free
  · intro e' td member
    rw [(lists e').1] at member
    exact inv.listed member
  · exact fun member => absurd member List.not_mem_nil
  · intro e' urb'
    rw [(lists e').1, (lists e').2]
    by_cases mine : e' = e ∧ urb' = urb
    · rw [if_pos mine, mine.1, mine.2]
      exact .inr rfl
    · rw [if_neg mine]
      exact inv.cancelled e' urb'
  · intro urb' later e'
    obtain ⟨before, different⟩ := not_or.mp (fun listed => later (List.mem_append.mpr listed))
    rw [(lists e').2, if_neg (fun both => different (List.mem_singleton.mpr both.2))]
    exact inv.fresh before e'
  · exact inv.one
  · exact inv.once
  · exact inv.known
  · exact inv.freed

theorem still_stopEndpoint (ret : Int) : Still s (s.stopEndpoint e ret) := by
  refine Still.trans ?_ (still_queueCommand _ _)
  exact still_setEp rfl rfl

theorem Inv.urbDequeue (inv : Inv [] s) (u : Unlink) : Inv [] (s.urbDequeue u) := by
  rcases urbDequeue_cases s u with eq | ⟨⟨linked, new, open_⟩, eq | ⟨_, eq⟩ | ⟨_, eq⟩ | ⟨_, eq⟩⟩
  · rw [eq]
    exact inv
  · rw [eq]
    exact (inv.noteUnlinked u.urb).drop linked open_
  · rw [eq]
    exact inv.noteUnlinked u.urb
  · rw [eq]
    exact inv.cancel new
  · rw [eq]
    exact (inv.cancel new).still (still_stopEndpoint u.ret)

theorem Inv.urbDequeues : ∀ (unlinks : List Unlink) {s : State}, Inv [] s → Inv [] (unlinks.foldl State.urbDequeue s) := by
  intro unlinks
  induction unlinks with
  | nil => exact fun inv => inv
  | cons u unlinks ih => exact fun inv => ih (inv.urbDequeue u)

/-! ### Commands complete and the host is given up -/

theorem Inv.handleCmdStopEp (inv : Inv [] s) (env : Env) (unlinks : List Unlink) : Inv [] (s.handleCmdStopEp e env unlinks) := by
  have spec := stopEp_spec (s.ep e).toEndpoint (s.queueEnv env)
  unfold State.handleCmdStopEp
  dsimp only
  refine Inv.urbDequeues unlinks ?_
  rw [spec.finished]
  refine Inv.completes (Inv.still ?_ (still_markIf ..))
  refine Inv.still ?_ (still_withSetDeq ..)
  refine Inv.still ?_ (still_markIf ..)
  exact inv.take (taken_cancelled (inv.cancelled e) spec.tdList spec.cancelled)

theorem still_handleCmdSetDeq (code : Nat) (deq : BitVec 64) : Still s (s.handleCmdSetDeq e code deq) := by
  unfold State.handleCmdSetDeq
  refine Still.trans ?_ (still_markIf ..)
  refine Still.trans ?_ (still_markIf ..)
  exact still_setEp rfl rfl

theorem still_handleCmdResetEp : Still s (s.handleCmdResetEp e) := by
  unfold State.handleCmdResetEp
  refine Still.trans ?_ (still_markIf ..)
  exact still_setEp rfl rfl

theorem Inv.handleCmdCompletion (inv : Inv [] s) (slot code : Nat) (deq : BitVec 64) (env : Env) (unlinks : List Unlink) :
    Inv [] (s.handleCmdCompletion slot code deq env unlinks) := by
  have advance : ∀ {s' : State}, Inv [] s' → Inv [] { s' with cmdList := s'.cmdList.tail } :=
    fun inv => inv.still ⟨fun _ => ⟨rfl, rfl⟩, rfl, rfl, rfl, rfl, rfl⟩
  unfold State.handleCmdCompletion
  split
  · exact inv
  · rename_i cmd _ _
    split_ifs
    · exact inv
    · cases cmd with
      | stopEp e => exact advance (inv.handleCmdStopEp env unlinks)
      | setDeq e => exact advance (inv.still (still_handleCmdSetDeq code deq))
      | resetEp e => exact advance (inv.still still_handleCmdResetEp)
      | other => exact advance inv

theorem Inv.killEndpointUrbs (inv : Inv [] s) (e : EpId) : Inv [] (s.killEndpointUrbs e) := by
  have killed : (s.ep e).tdList ++ (s.ep e).cancelledTdList.filter (· ∉ (s.ep e).tdList) = (s.ep e).tdList := by
    have nothing : (s.ep e).cancelledTdList.filter (· ∉ (s.ep e).tdList) = [] := by
      rw [List.filter_eq_nil_iff]
      intro td member
      simpa using inv.mem_tdList member
    rw [nothing, List.append_nil]
  unfold State.killEndpointUrbs
  dsimp only
  rw [killed]
  exact Inv.completes (inv.take (taken_all rfl rfl))

theorem Inv.watchdog (inv : Inv [] s) (endpoints : List EpId) : Inv [] (s.watchdog endpoints) := by
  have kills : ∀ (endpoints : List EpId) {s : State}, Inv [] s → Inv [] (endpoints.foldl State.killEndpointUrbs s) := by
    intro endpoints
    induction endpoints with
    | nil => exact fun inv => inv
    | cons e endpoints ih => exact fun inv => ih (inv.killEndpointUrbs e)
  unfold State.watchdog
  split_ifs
  · exact inv
  · exact kills endpoints (inv.still ⟨fun _ => ⟨rfl, rfl⟩, rfl, rfl, rfl, rfl, rfl⟩)

/-! ### A URB is queued -/

/-- The TDs of a new URB. -/
def newTds (urb : Nat) (tds : List (TrbPtr × TrbPtr)) : List Td := tds.mapIdx fun i td => ⟨urb, i, td.1, td.2⟩

theorem urb_newTds {urb : Nat} {tds : List (TrbPtr × TrbPtr)} (member : td ∈ newTds urb tds) : td.urb = urb := by
  obtain ⟨i, _, rfl⟩ := List.mem_mapIdx.mp member
  rfl

theorem own_newTds (urb urb' : Nat) (tds : List (TrbPtr × TrbPtr)) :
    own (newTds urb tds) urb' = if urb' = urb then newTds urb tds else [] := by
  by_cases mine : urb' = urb
  · rw [if_pos mine, mine]
    exact List.filter_eq_self.mpr fun td member => beq_iff_eq.mpr (urb_newTds member)
  · rw [if_neg mine]
    exact own_eq_nil.mpr fun td member same => mine (same.symm.trans (urb_newTds member))

theorem index_newTds (urb : Nat) (tds : List (TrbPtr × TrbPtr)) : (newTds urb tds).map Td.index = List.range' 0 tds.length := by
  refine List.ext_getElem (by simp [newTds]) (fun i _ _ => ?_)
  simp [newTds]

/-- The lists when a URB with no TD on them is queued. -/
theorem lists_queued {urb : Nat} (unlisted : ∀ e', own (s.ep e').tdList urb = []) (e : EpId) (ring : Ring)
    (tds : List (TrbPtr × TrbPtr)) (e' : EpId) (urb' : Nat) :
    own ((s.setEp e { s.ep e with ring, tdList := (s.ep e).tdList ++ newTds urb tds }).ep e').tdList urb' =
      (if e' = e ∧ urb' = urb then newTds urb tds else own (s.ep e').tdList urb') ∧
    ((s.setEp e { s.ep e with ring, tdList := (s.ep e).tdList ++ newTds urb tds }).ep e').cancelledTdList =
      (s.ep e').cancelledTdList := by
  by_cases same : e' = e
  · subst same
    rw [State.ep_setEp, own_append, own_newTds]
    by_cases mine : urb' = urb
    · subst mine
      rw [if_pos rfl, if_pos ⟨rfl, rfl⟩, unlisted]
      exact ⟨rfl, rfl⟩
    · rw [if_neg mine, if_neg (fun both => mine both.2), List.append_nil]
      exact ⟨rfl, rfl⟩
  · rw [State.ep_setEp_other _ same, if_neg (fun both => same both.1)]
    exact ⟨rfl, rfl⟩

theorem Inv.enqueue (inv : Inv [] s) {urb : Nat} {tds : List (TrbPtr × TrbPtr)} (new : ∀ e, (e, urb) ∉ s.linked) (some_td : tds ≠ [])
    (e : EpId) (ring : Ring) (submitted : Bool) : Inv [] (s.enqueue e urb ring tds submitted) := by
  unfold State.enqueue
  by_cases dying : s.dying = true
  · rw [if_pos dying]
    exact inv
  rw [if_neg dying]
  have unlisted : ∀ e', own (s.ep e').tdList urb = [] :=
    fun e' => own_eq_nil.mpr fun td member mine => new e' (mine ▸ (inv.listed member).1)
  have uncancelled : ∀ e', own (s.ep e').cancelledTdList urb = [] :=
    fun e' => own_eq_nil.mpr fun td member mine => new e' (mine ▸ (inv.listed (inv.mem_tdList member)).1)
  have notGiven : urb ∉ s.givenBack := fun given => (inv.known given).elim new
  have linked : ∀ {e' urb'}, (e', urb') ∈ s.linked ++ [(e, urb)] → (e', urb') ∈ s.linked ∧ urb' ≠ urb ∨ e' = e ∧ urb' = urb := by
    intro e' urb' there
    rcases List.mem_append.mp there with before | now
    · exact .inl ⟨before, fun mine => new e' (mine ▸ before)⟩
    · exact .inr (Prod.mk.inj (List.mem_singleton.mp now))
  have lists := lists_queued unlisted e ring tds
  change Inv [] { s with
    ep := (s.setEp e { s.ep e with ring, tdList := (s.ep e).tdList ++ newTds urb tds }).ep
    urbPriv := Function.update s.urbPriv urb ⟨0, tds.length⟩
    linked := s.linked ++ [(e, urb)]
    writes := if submitted then s.writes ++ [(e, urb)] else s.writes }
  generalize (s.setEp e { s.ep e with ring, tdList := (s.ep e).tdList ++ newTds urb tds }).ep = eps at lists ⊢
  constructor
  · intro e' urb' there free
    dsimp only [List.nil_append]
    rw [(lists e' urb').1]
    rcases linked there with ⟨before, different⟩ | ⟨rfl, rfl⟩
    · rw [if_neg (fun both => different both.2), Function.update_of_ne different]
      exact inv.left before free
    · rw [if_pos ⟨rfl, rfl⟩, Function.update_self, index_newTds]
      exact ⟨List.length_pos_of_ne_nil some_td, rfl⟩
  · intro e' td member
    have mine : td ∈ own (eps e').tdList td.urb := mem_own.mpr ⟨member, rfl⟩
    rw [(lists e' td.urb).1] at mine
    by_cases both : e' = e ∧ td.urb = urb
    · rw [both.1, both.2]
      exact ⟨List.mem_append_right _ (List.mem_singleton.mpr rfl), notGiven⟩
    · rw [if_neg both] at mine
      obtain ⟨there, free⟩ := inv.listed (mem_own.mp mine).1
      exact ⟨List.mem_append_left _ there, free⟩
  · exact fun member => absurd member List.not_mem_nil
  · intro e' urb'
    dsimp only
    rw [(lists e' urb').1, (lists e' urb').2]
    by_cases both : e' = e ∧ urb' = urb
    · rw [both.2]
      exact .inl (uncancelled e')
    · rw [if_neg both]
      exact inv.cancelled e' urb'
  · intro urb' unseen e'
    dsimp only
    rw [(lists e' urb').2]
    exact inv.fresh unseen e'
  · intro e₁ e₂ urb' there there'
    rcases linked there with ⟨before, different⟩ | ⟨rfl, rfl⟩
    · rcases linked there' with ⟨before', _⟩ | ⟨_, mine⟩
      · exact inv.one before before'
      · exact absurd mine different
    · rcases linked there' with ⟨_, different⟩ | ⟨here, _⟩
      · exact absurd rfl different
      · exact here.symm
  · exact inv.once
  · intro urb' given
    obtain ⟨e', there⟩ := inv.known given
    exact ⟨e', List.mem_append_left _ there⟩
  · exact inv.freed

theorem still_cacheComplete : Still s s.cacheComplete := by
  have marked : ∀ writes (e : EpId) (m : Mark), Still s (State.mark { s with writes } e m) :=
    fun _ _ _ => ⟨fun _ => ⟨rfl, rfl⟩, rfl, rfl, rfl, rfl, rfl⟩
  unfold State.cacheComplete
  split
  · exact .refl s
  · dsimp only
    split_ifs
    · exact marked _ _ _
    · exact (marked _ _ _).trans (still_markIf ..)

/-! ### Runs -/

theorem Inv.step (inv : Inv [] s) {op : Op} (allowed : op.Allowed s) (careful : Careful s op) : Inv [] (s.step op) := by
  cases op with
  | enqueue e urb ring tds submitted => exact inv.enqueue allowed.1 allowed.2 e ring submitted
  | urbDequeue u => exact inv.urbDequeue u
  | txEvent e event env => exact inv.handleTxEvent careful
  | cmdCompletion slot code deq env unlinks => exact inv.handleCmdCompletion slot code deq env unlinks
  | cacheComplete => exact inv.still still_cacheComplete
  | watchdog endpoints => exact inv.watchdog endpoints
  | queueOther ret => exact inv.still (still_queueCommand ..)
  | raise => exact inv.still ⟨fun _ => ⟨rfl, rfl⟩, rfl, rfl, rfl, rfl, rfl⟩
  | die => exact inv.still ⟨fun _ => ⟨rfl, rfl⟩, rfl, rfl, rfl, rfl, rfl⟩

theorem inv_new (new : New s) : Inv [] s := by
  obtain ⟨idle, -, linked, unlinked, -, givenBack, freed, -⟩ := new
  constructor
  · intro e urb there
    rw [linked] at there
    exact absurd there List.not_mem_nil
  · intro e td member
    rw [(idle e).1] at member
    exact absurd member List.not_mem_nil
  · exact fun member => absurd member List.not_mem_nil
  · intro e urb
    rw [(idle e).2.1]
    exact .inl rfl
  · intro urb _ e
    rw [(idle e).2.1]
    rfl
  · intro e e' urb there
    rw [linked] at there
    exact absurd there List.not_mem_nil
  · rw [givenBack]
    exact List.nodup_nil
  · intro urb given
    rw [givenBack] at given
    exact absurd given List.not_mem_nil
  · rw [freed, givenBack]

/-- Every URB is given back at most once, and none of its TDs is on a list then, in every
    run in which no event passes the last TD of a URB and then finds a no-op. -/
theorem givenBack_once (reachable : Reachable Careful s) : Once s :=
  (Run.Reachable.invariant (P := Inv []) (fun _ new => inv_new new) (fun _ _ inv ok => inv.step ok.1 ok.2) reachable).holds_once

end

/-- Isochronous endpoints with new rings. -/
def idleIsoc : State :=
  { idleState with ep := fun _ => ⟨⟨Isoc.isocRing, [], [], none, false, false, false, none⟩, .isoc, false, false⟩ }

theorem idleIsoc_new : New idleIsoc := ⟨fun _ => ⟨rfl, rfl, rfl, rfl, rfl⟩, rfl, rfl, rfl, rfl, rfl, rfl, rfl⟩

/-- The isochronous ring with a number of TDs of one TRB. -/
def isocTds : Nat → Ring
  | 0 => Isoc.isocRing
  | n + 1 => (isocTds n).queueTd ⟨false, false⟩ ⟨0, 0, 0, 0x1420⟩ [] fun _ => .accepted

/-- The n-th TRB of the first segment is queued for a URB. -/
def isocUrb (n : Nat) : Op := .enqueue (1, 2) (n + 7) (isocTds (n + 1)) [(⟨0x1000, n⟩, ⟨0x1000, n⟩)] true

def isocEvent (code : Nat) (dma : BitVec 64) : Op := .txEvent (1, 2) ⟨code, dma, 0⟩ ⟨1, false, false, true, 0, ⟨0x1000, true, true, 0⟩⟩

/-- Three URBs are queued and the second one is taken out. -/
def oneCancelled : List Op :=
  [isocUrb 0, isocUrb 1, isocUrb 2, .urbDequeue ⟨(1, 2), 8, false, true, 0⟩,
    .cmdCompletion 1 compSuccess 0 ⟨0x1000, true, true, 0⟩ []]

instance (s : State) : (op : Op) → Decidable (op.Allowed s)
  | .enqueue _ urb _ tds _ =>
    decidable_of_iff (urb ∉ s.linked.map Prod.snd ∧ tds ≠ [])
      ⟨fun new => ⟨fun _ there => new.1 (List.mem_map_of_mem there), new.2⟩, fun new => ⟨fun listed => by
        obtain ⟨⟨e, _⟩, there, rfl⟩ := List.mem_map.mp listed
        exact new.1 e there, new.2⟩⟩
  | .urbDequeue _ | .txEvent .. | .cmdCompletion .. | .cacheComplete | .watchdog _ | .queueOther _ | .raise | .die => .isTrue trivial

/-- The controller has missed the first URB and completes the third. -/
def passedOne : List Op := oneCancelled ++ [isocEvent compMissedInt 0, isocEvent compSuccess 0x1020]

/-- The controller has missed the first URB and reports the no-op. -/
def reportedNoop : List Op := oneCancelled ++ [isocEvent compMissedInt 0, isocEvent compSuccess 0x1010]

theorem givenBack_once_passedOne : (passedOne.foldl State.step idleIsoc).givenBack = [8, 7, 9] ∧
    Reachable Careful (passedOne.foldl State.step idleIsoc) ∧ Once (passedOne.foldl State.step idleIsoc) := by
  have reachable : Reachable Careful (passedOne.foldl State.step idleIsoc) :=
    (Run.Reachable.first idleIsoc_new).all (by decide +kernel)
  exact ⟨by decide +kernel, reachable, givenBack_once reachable⟩

/-- The third URB is given back with its TD on `td_list`. -/
theorem not_givenBack_once : ¬∀ s, Reachable (fun _ _ => True) s → Once s := by
  intro once
  have reachable : Reachable (fun _ _ => True) (reportedNoop.foldl State.step idleIsoc) :=
    (Run.Reachable.first idleIsoc_new).all (by decide +kernel)
  have removed := (once _ reachable).removed (1, 2) ⟨9, 0, ⟨0x1000, 2⟩, ⟨0x1000, 2⟩⟩ (.inl (by decide +kernel))
  exact removed (by decide +kernel)

end Ehub.Giveback
