import Mathlib
import Ehub.Transfer

/-!
Blocked endpoints. A flag that keeps an endpoint from being used is taken back when a
command completes, so as long as the flag is set the command has to be on `cmd_list`:
a Stop Endpoint command for `EP_HALT_PENDING` and for cancelled TDs, a Set TR Dequeue
Pointer command for `SET_DEQ_PENDING`, a Reset Endpoint command for `EP_HALTED`.

The driver sets `EP_HALTED` for every stall that is reported, and queues the Reset
Endpoint command when it finds the TD; it sets `EP_HALT_PENDING` and fills the list of
cancelled TDs whether or not the Stop Endpoint command can be queued.
-/
namespace Ehub.Blocked
open Ehub.Transfer Ehub.Cancel

/-- What blocks the endpoint has a command that will unblock it. -/
structure Unblocking (s : State) (e : EpId) : Prop where
  stop : (s.ep e).haltPending = true ∨ (s.ep e).cancelledTdList ≠ [] → .stopEp e ∈ s.cmdList
  setDeq : (s.ep e).setDeqPending = true → .setDeq e ∈ s.cmdList ∧ (s.ep e).queuedDeqPtr ≠ none
  reset : (s.ep e).halted = true → .resetEp e ∈ s.cmdList

/-- The event is for a TRB of a queued TD that has not been turned into a no-op. -/
def HasTd (ep : Ep) (dma : BitVec 64) : Prop := ∃ td r p, eventTrb ep dma = some (td, r, p) ∧ (r.trb p).isNoop = false

def CanStop (u : Unlink) : Prop := u.alloc = true ∧ 0 ≤ u.ret

/-- Stop and Reset Endpoint commands can be allocated and queued whenever one is needed, a
    stall is reported for a TD that is queued, and a command completes for its own slot. -/
def Answered (s : State) : Op → Prop
  | .urbDequeue u => CanStop u
  | .txEvent e event env =>
    (env.resetAlloc = true → 0 ≤ env.resetQueue) ∧
    (event.code = compStall → env.epState ≠ 0 → (s.ep e).halted = false →
      env.resetAlloc = true ∧ HasTd (s.ep e) event.buffer)
  | .cmdCompletion slot _ _ _ unlinks =>
    (∀ cmd ∈ s.cmdList.head?, ∀ e, cmd = .stopEp e ∨ cmd = .setDeq e ∨ cmd = .resetEp e → e.1 = slot) ∧
    ∀ u ∈ unlinks, CanStop u
  | _ => True

/-! ### Commands and flags -/

/-- The endpoint has its commands, but for a Reset Endpoint command that is owed. -/
structure Kept (owed : Prop) (ep : Ep) (e : EpId) (cmdList : List Cmd) : Prop where
  stop : ep.haltPending = true ∨ ep.cancelledTdList ≠ [] → .stopEp e ∈ cmdList
  setDeq : ep.setDeqPending = true → .setDeq e ∈ cmdList ∧ ep.queuedDeqPtr ≠ none
  reset : ¬owed → ep.halted = true → .resetEp e ∈ cmdList

/-- Every endpoint has its commands; `owes` may owe a Reset Endpoint command. -/
def Owing (owes : Option EpId) (s : State) : Prop := ∀ e, Kept (owes = some e) (s.ep e) e s.cmdList

/-- No flag is set in `ep'` that is not set in `ep`. -/
structure Eased (ep ep' : Ep) : Prop where
  halt : ep'.haltPending = true → ep.haltPending = true
  cancelled : ep'.cancelledTdList ≠ [] → ep.cancelledTdList ≠ []
  setDeq : ep'.setDeqPending = true → ep.setDeqPending = true ∧ ep'.queuedDeqPtr = ep.queuedDeqPtr
  halted : ep'.halted = true → ep.halted = true

section
variable {s s' : State} {e : EpId} {owes : Option EpId} {owed : Prop} {ep ep' : Ep} {l l' : List Cmd}

theorem Kept.eases (kept : Kept owed ep e l) (eased : Eased ep ep') : Kept owed ep' e l := by
  refine ⟨fun blocked => ?_, fun set => ?_, fun paid set => ?_⟩
  · exact kept.stop (blocked.imp eased.halt eased.cancelled)
  · obtain ⟨before, same⟩ := eased.setDeq set
    rw [same]
    exact kept.setDeq before
  · exact kept.reset paid (eased.halted set)

theorem Kept.more (kept : Kept owed ep e l) (commands : ∀ cmd ∈ l, cmd ∈ l') : Kept owed ep e l' :=
  ⟨fun blocked => commands _ (kept.stop blocked), fun set => ⟨commands _ (kept.setDeq set).1, (kept.setDeq set).2⟩,
    fun paid set => commands _ (kept.reset paid set)⟩

theorem Kept.halt (kept : Kept owed ep e l) : Kept True { ep with halted := true } e l :=
  ⟨kept.stop, kept.setDeq, fun paid => absurd trivial paid⟩

theorem Owing.owe (owing : Owing none s) (e : EpId) : Owing (some e) s := by
  intro e'
  obtain ⟨stop, setDeq, reset⟩ := owing e'
  exact ⟨stop, setDeq, fun _ => reset (by simp)⟩

/-- One endpoint changes. -/
theorem Owing.setEp (owing : Owing owes s) (kept : Kept (owes = some e) ep e s.cmdList) : Owing owes (s.setEp e ep) := by
  intro e'
  by_cases here : e' = e
  · rw [here, State.ep_setEp]
    exact kept
  · rw [State.ep_setEp_other _ here]
    exact owing e'

theorem Owing.eases (owing : Owing owes s) (eased : Eased (s.ep e) ep) : Owing owes (s.setEp e ep) :=
  owing.setEp ((owing e).eases eased)

/-- Commands are appended. -/
theorem Owing.more (owing : Owing owes s) (same : s'.ep = s.ep) (commands : ∀ cmd ∈ s.cmdList, cmd ∈ s'.cmdList) :
    Owing owes s' := by
  intro e
  rw [same]
  exact (owing e).more commands

theorem Owing.halt (owing : Owing (some e) s) : Owing (some e) (s.setEp e { s.ep e with halted := true }) := by
  refine owing.setEp ?_
  obtain ⟨stop, setDeq, _⟩ := (owing e).halt
  exact ⟨stop, setDeq, fun paid => absurd rfl paid⟩

/-- The Reset Endpoint command that was owed. -/
theorem Owing.pay (owing : Owing (some e) s) (queued : .resetEp e ∈ s.cmdList) : Owing none s := by
  intro e'
  obtain ⟨stop, setDeq, reset⟩ := owing e'
  refine ⟨stop, setDeq, fun _ set => ?_⟩
  by_cases here : e' = e
  · rwa [here]
  · exact reset (by simpa using Ne.symm here) set

theorem queued_queueCommand {cmd : Cmd} {ret : Int} (alive : s.dying = false) (ok : 0 ≤ ret) :
    cmd ∈ (s.queueCommand ret cmd).cmdList := by
  rw [State.queueCommand, if_neg (by simp [alive, ok])]
  simp

theorem Owing.cleanupStalledRing (owing : Owing owes s) (td : Td) (env : Env) :
    Owing owes (s.cleanupStalledRing e td env) := by
  rw [State.cleanupStalledRing]
  split
  · exact owing
  · rename_i deqState _
    rcases queueNewDequeueState_cases (s.ep e).toEndpoint deqState (s.queueEnv env) with ⟨p, eq, same⟩ | ⟨_, eq⟩
    · rw [eq]
      exact owing.eases ⟨id, id, fun set => ⟨set, same set⟩, id⟩
    · rw [eq]
      have more : Owing owes (s.withSetDeq e (some deqState)) := owing.more rfl fun _ => mem_withSetDeq _
      refine (more.setEp (e := e) ?_ :)
      obtain ⟨stop, _, reset⟩ := more e
      exact ⟨stop, fun _ => ⟨by simp [State.withSetDeq], by simp⟩, reset⟩

/-- A halted endpoint gets its Reset Endpoint command. -/
theorem Owing.cleanupHalted (owing : Owing (some e) s) (alive : s.dying = false) (td : Td) {env : TxEnv}
    (alloc : env.resetAlloc = true) (ok : 0 ≤ env.resetQueue) : Owing none (s.cleanupHaltedEndpoint e td env) := by
  rw [State.cleanupHaltedEndpoint, if_neg (by simp [alloc])]
  have queued : Owing none ((s.setEp e { s.ep e with halted := true }).queueCommand env.resetQueue (.resetEp e)) := by
    refine Owing.pay ?_ (queued_queueCommand alive ok)
    exact owing.halt.more (State.ep_queueCommand ..) fun _ => mem_queueCommand _
  exact queued.cleanupStalledRing td env.env

theorem Owing.cleanupHaltedEndpoint (owing : Owing none s) (alive : s.dying = false) (td : Td) {env : TxEnv}
    (ok : env.resetAlloc = true → 0 ≤ env.resetQueue) : Owing none (s.cleanupHaltedEndpoint e td env) := by
  by_cases alloc : env.resetAlloc = true
  · exact (owing.owe e).cleanupHalted alive td alloc (ok alloc)
  · rw [State.cleanupHaltedEndpoint, if_pos (by simpa using alloc)]
    exact owing

theorem Owing.removeTd (owing : Owing owes s) (td : Td) : Owing owes (s.removeTd e td).1 := by
  have eased : Owing owes (s.setEp e { s.ep e with
      tdList := (s.ep e).tdList.erase td, cancelledTdList := (s.ep e).cancelledTdList.erase td }) := by
    refine owing.eases ⟨id, ?_, fun set => ⟨set, rfl⟩, id⟩
    intro some_left nothing
    simp [nothing] at some_left
  exact eased.more rfl fun _ member => member

theorem Owing.cleanup (owing : Owing owes s) (ret : Bool) (td : Option Td) : Owing owes (s.cleanup ret td) := by
  refine owing.more ?_ ?_
  · cases ret <;> cases td <;> rfl
  · cases ret <;> cases td <;> exact fun _ member => member

theorem Owing.ring (owing : Owing owes s) (r : Ring) : Owing owes (s.setEp e { s.ep e with ring := r }) :=
  owing.eases ⟨id, id, fun set => ⟨set, rfl⟩, id⟩

theorem Owing.finishTd (owing : Owing none s) (alive : s.dying = false) (td : Td) (skip : Bool) (event : Event) {env : TxEnv}
    (ok : env.resetAlloc = true → 0 ≤ env.resetQueue) : Owing none (s.finishTd e td skip event env).1 := by
  rw [State.finishTd]
  split_ifs
  · exact owing.removeTd td
  · exact owing.eases ⟨id, id, fun set => ⟨set, rfl⟩, id⟩
  · exact (owing.cleanupHaltedEndpoint alive td ok).removeTd td
  · exact (owing.ring _).removeTd td

theorem Owing.skipIsocTd (owing : Owing owes s) (td : Td) (event : Event) (env : TxEnv) :
    Owing owes (s.skipIsocTd e td event env).1 :=
  (owing.ring _).removeTd td

/-! ### Transfer events -/

/-- A stall finds its TD, and the Reset Endpoint command is queued. -/
theorem txLoop_stall (target : Td) {event : Event} {env : TxEnv} {r : Ring} {p : TrbPtr} (stall : event.code = compStall)
    (alloc : env.resetAlloc = true) (ok : 0 ≤ env.resetQueue) (work : (r.trb p).isNoop = false) :
    ∀ {tds : List Td} {s : State} {fuel tdNum : Nat} {ret : Bool}, (s.ep e).tdList = tds → eventTrb (s.ep e) event.buffer = some (target, r, p) →
    0 < fuel → ((s.ep e).skip = true → tdNum = tds.length ∧ tds.length < fuel) → s.dying = false → Owing (some e) s →
    Owing none (s.txLoop e event compStall env fuel tdNum ret) := by
  intro tds
  induction tds with
  | nil =>
    intro s fuel tdNum ret is_list found
    simp [eventTrb, is_list, findTrb] at found
  | cons td rest ih =>
    intro s fuel tdNum ret is_list found room counted alive owing
    obtain ⟨n, rfl⟩ : ∃ n, fuel = n + 1 := ⟨fuel - 1, by omega⟩
    rw [List.length_cons] at counted
    have goesOn : ¬((s.ep e).skip = true ∧ tdNum = 0) := by
      rintro ⟨skips, none_left⟩
      have := counted skips
      omega
    rw [State.txLoop, is_list]
    simp only
    rw [if_neg goesOn]
    cases here : trbInTd (s.ep e).ring td.lastTrb event.buffer with
    | none =>
      -- Only missed isoc TDs are passed.
      have passes : (s.ep e).skip = true ∧ (s.ep e).pipe = .isoc := by
        by_contra not_skipped
        simp [eventTrb, not_skipped, is_list, findTrb, here] at found
      have isIsoc : ¬((!(s.ep e).skip) = true ∨ (s.ep e).pipe ≠ .isoc) := by simp [passes]
      simp only
      rw [if_neg (by decide), if_neg isIsoc]
      have same := ep_skipIsocTd (s := s) (e := e) td event env (s.skipIsocTd e td event env).2
      have left := counted passes.1
      refine ih ?_ ?_ (by omega) ?_ ?_ ((owing.skipIsocTd td event env).cleanup _ _)
      · rw [same]
        simp [is_list]
      · rw [eventTrb, if_pos passes, is_list, findTrb, here] at found
        rw [same, eventTrb, if_pos passes]
        simpa [is_list] using found
      · intro _
        rw [if_pos passes.1]
        omega
      · rw [(framed_cleanup (e := e) _ _).dying, (framed_skipIsocTd td event env).dying, alive]
    | some q =>
      have is_first : r = (s.ep e).ring ∧ p = q := by
        rw [eventTrb, is_list] at found
        split_ifs at found <;> simp [findTrb, here] at found <;> exact ⟨found.2.1.symm, found.2.2.symm⟩
      obtain ⟨rfl, rfl⟩ := is_first
      have finishing : finishes (s.ep e) td p event env.epState = true := by
        cases pipe : (s.ep e).pipe <;> simp [finishes, pipe, stall, compStall, compTxErr]
      simp only
      rw [if_neg (by simp [work]), if_pos finishing]
      rw [State.finishTd, if_neg (by simp), if_neg (by rw [stall]; decide), if_pos (.inl stall)]
      have marked : Owing (some e) (s.setEp e { s.ep e with lastTdWasShort := decide (compStall = compShortTx), skip := false }) :=
        owing.eases ⟨id, id, fun set => ⟨set, rfl⟩, id⟩
      exact ((marked.cleanupHalted alive td alloc ok).removeTd td).cleanup _ _

theorem Owing.txLoop (owing : Owing none s) (alive : s.dying = false) {event : Event} {code : Nat} {env : TxEnv}
    (ok : env.resetAlloc = true → 0 ≤ env.resetQueue) (fuel tdNum : Nat) (ret : Bool) :
    Owing none (s.txLoop e event code env fuel tdNum ret) := by
  refine txLoop_rule (fun s => Owing none s ∧ s.dying = false) (Owing none) (fun _ kept => kept.1) ?_ ?_ ?_ ?_ fuel tdNum ret s
    ⟨owing, alive⟩
  · rintro s skip short ⟨owing, alive⟩ _
    exact ⟨owing.eases ⟨id, id, fun set => ⟨set, rfl⟩, id⟩, alive⟩
  · rintro s td rest ⟨owing, alive⟩ _ _ _ _
    refine ⟨(owing.skipIsocTd td event env).cleanup _ _, ?_⟩
    rw [(framed_cleanup (e := e) _ _).dying, (framed_skipIsocTd td event env).dying, alive]
  · rintro s td rest eventTrb ⟨owing, alive⟩ _ _ _ _ _
    exact (owing.finishTd alive td false event ok).cleanup _ _
  · rintro s td rest eventTrb ret ⟨owing, _⟩ _ _ _
    exact owing.cleanup _ _

theorem Owing.handleTxEvent (owing : Owing none s) (alive : s.dying = false) {event : Event} {env : TxEnv}
    (answered : Answered s (.txEvent e event env)) : Owing none (s.handleTxEvent e event env) := by
  obtain ⟨ok, found⟩ := answered
  rcases handleTxEvent_cases s e event env with ⟨_, eq⟩ | ⟨enabled, ⟨code, tdNum, eq, ⟨sameCode, _⟩, counted⟩ | ⟨_, eq | eq⟩⟩
  · rwa [eq]
  · rw [eq]
    by_cases stall : event.code = compStall
    · have isStall : code = compStall := (sameCode (by rw [stall]; decide)).trans stall
      rw [State.noteStall, if_pos stall, isStall]
      by_cases halted : (s.ep e).halted = true
      · -- The endpoint is halted already.
        have same : Owing none (s.setEp e { s.ep e with halted := true }) :=
          owing.eases ⟨id, id, fun set => ⟨set, rfl⟩, fun _ => halted⟩
        exact same.txLoop alive ok _ _ _
      · obtain ⟨alloc, target, r, p, is_trb, work⟩ := found stall enabled (by simpa using halted)
        refine txLoop_stall target stall alloc (ok alloc) work rfl ?_ (by omega) ?_ alive (owing.owe e).halt
        · rw [State.ep_setEp]
          exact is_trb
        · rw [State.ep_setEp]
          intro skips
          have length : tdNum = (s.ep e).tdList.length := by rw [counted]; exact if_pos skips
          exact ⟨length, show (s.ep e).tdList.length < tdNum + 2 by omega⟩
    · rw [State.noteStall, if_neg stall]
      exact owing.txLoop alive ok _ _ _
  · rwa [eq]
  · rw [eq]
    exact owing.eases ⟨id, id, fun set => ⟨set, rfl⟩, id⟩

/-! ### Unlinked URBs -/

/-- The TDs are cancelled when a Stop Endpoint command is on its way. -/
theorem Owing.cancelTds (owing : Owing owes s) (pending : .stopEp e ∈ s.cmdList) (urb : Nat) :
    Owing owes (s.cancelTds e urb) := by
  refine owing.setEp ?_
  obtain ⟨stop, setDeq, reset⟩ := owing e
  exact ⟨fun _ => pending, setDeq, reset⟩

theorem Owing.stopEndpoint (owing : Owing owes s) (alive : s.dying = false) {ret : Int} (ok : 0 ≤ ret) (urb : Nat) :
    Owing owes ((s.cancelTds e urb).stopEndpoint e ret) := by
  have commands : ∀ cmd ∈ s.cmdList, cmd ∈ ((s.cancelTds e urb).stopEndpoint e ret).cmdList :=
    fun _ member => mem_queueCommand (s := (s.cancelTds e urb).setEp e _) ret member
  have queued : .stopEp e ∈ ((s.cancelTds e urb).stopEndpoint e ret).cmdList := queued_queueCommand alive ok
  intro e'
  have more := (owing e').more commands
  have same : ((s.cancelTds e urb).stopEndpoint e ret).ep =
      ((s.cancelTds e urb).setEp e { (s.cancelTds e urb).ep e with haltPending := true }).ep := State.ep_queueCommand ..
  rw [same]
  by_cases here : e' = e
  · subst here
    obtain ⟨_, setDeq, reset⟩ := more
    rw [State.ep_setEp, State.cancelTds, State.ep_setEp]
    exact ⟨fun _ => queued, setDeq, reset⟩
  · rw [State.ep_setEp_other _ here, State.cancelTds, State.ep_setEp_other _ here]
    exact more

theorem Owing.urbDequeue (owing : Owing none s) (alive : s.dying = false) {u : Unlink} (canStop : CanStop u) :
    Owing none (s.urbDequeue u) := by
  have noted : Owing none (s.noteUnlinked u.urb) := owing
  rcases urbDequeue_cases s u with eq | ⟨_, eq | ⟨dying, _⟩ | ⟨pending, eq⟩ | ⟨_, eq⟩⟩
  · rwa [eq]
  · rw [eq]
    have dropped : Owing none ((s.noteUnlinked u.urb).dropTds u.e u.urb) := by
      refine noted.eases ⟨id, ?_, fun set => ⟨set, rfl⟩, id⟩
      intro some_left nothing
      simp [nothing] at some_left
    exact dropped.more rfl fun _ member => member
  · simp [alive] at dying
  · rw [eq]
    rcases pending with pending | failed
    · exact noted.cancelTds ((owing u.e).stop (.inl pending)) u.urb
    · simp [canStop.1] at failed
  · rw [eq]
    exact noted.stopEndpoint alive canStop.2 u.urb

/-! ### Commands complete -/

theorem Owing.urbDequeues : ∀ {unlinks : List Unlink} {s : State}, Owing none s → s.dying = false →
    (∀ u ∈ unlinks, CanStop u) → Owing none (unlinks.foldl State.urbDequeue s) := by
  intro unlinks
  induction unlinks with
  | nil => exact fun owing _ _ => owing
  | cons u unlinks ih =>
    intro s owing alive canStop
    refine ih (owing.urbDequeue alive (canStop u (by simp))) ?_ fun u' member => canStop u' (by simp [member])
    rw [dying_urbDequeue, alive]

/-- The obligations of the other endpoints, and those of this one that the first command
    does not meet, are met behind it. -/
theorem Owing.behind {cmd : Cmd} {rest : List Cmd} (owing : Owing none s) (is_list : s.cmdList = cmd :: rest) (e : EpId)
    (stop : cmd = .stopEp e → (s.ep e).haltPending = false ∧ (s.ep e).cancelledTdList = [])
    (setDeq : cmd = .setDeq e → (s.ep e).setDeqPending = false) (reset : cmd = .resetEp e → (s.ep e).halted = false) :
    Kept (none = some e) (s.ep e) e rest := by
  have kept := owing e
  rw [is_list] at kept
  refine ⟨fun blocked => ?_, fun set => ?_, fun paid set => ?_⟩
  · refine (List.mem_cons.mp (kept.stop blocked)).resolve_left fun here => ?_
    obtain ⟨clear, nothing⟩ := stop here.symm
    simp [clear, nothing] at blocked
  · refine ⟨(List.mem_cons.mp (kept.setDeq set).1).resolve_left fun here => ?_, (kept.setDeq set).2⟩
    simp [setDeq here.symm] at set
  · refine (List.mem_cons.mp (kept.reset paid set)).resolve_left fun here => ?_
    simp [reset here.symm] at set

theorem Owing.handleCmdStopEp {rest : List Cmd} (owing : Owing none s) (alive : s.dying = false)
    (is_list : s.cmdList = .stopEp e :: rest) (env : Env) {unlinks : List Unlink} (canStop : ∀ u ∈ unlinks, CanStop u) :
    Owing none (dropHead (s.handleCmdStopEp e env unlinks)) := by
  obtain ⟨halt, cancelled, halted, _, _, command, _, _, _⟩ := stopEp_spec (s.ep e).toEndpoint (s.queueEnv env)
  rw [State.handleCmdStopEp]
  set outcome := Cancel.handleCmdStopEp (s.ep e).toEndpoint (s.queueEnv env)
  set s1 := ((((s.setEp e { s.ep e with toEndpoint := outcome.ep }).markIf e (s.ep e).haltPending .cleared).withSetDeq e
    outcome.setDeq).markIf e outcome.doorbell .doorbell) with is_s1
  have ep1 : s1.ep = (s.setEp e { s.ep e with toEndpoint := outcome.ep }).ep := by simp [is_s1]
  have list1 : ∃ more, s1.cmdList = .stopEp e :: (rest ++ more) ∧ (outcome.setDeq ≠ none → .setDeq e ∈ more) := by
    cases queued : outcome.setDeq with
    | none => exact ⟨[], by simp [is_s1, queued, State.withSetDeq, is_list], by simp⟩
    | some _ => exact ⟨[.setDeq e], by simp [is_s1, queued, State.withSetDeq, is_list], by simp⟩
  obtain ⟨more, list1, queued⟩ := list1
  obtain ⟨ep2, list2, framed⟩ := givebacks_frame e outcome.finished s1
  rw [dropHead_urbDequeues unlinks (by rw [list2, list1]; simp)]
  refine Owing.urbDequeues ?_ ?_ canStop
  · intro e'
    show Kept _ ((outcome.finished.foldl State.givebackUrbInIrq s1).ep e') e' (List.tail _)
    rw [ep2, ep1, list2, list1, List.tail_cons]
    by_cases here : e' = e
    · subst here
      rw [State.ep_setEp]
      have kept := owing e'
      rw [is_list] at kept
      refine ⟨?_, ?_, ?_⟩
      · rintro (set | some_left)
        · simp [halt] at set
        · simp [cancelled] at some_left
      · intro set
        rcases command with ⟨_, same, target⟩ | ⟨_, sent, _, target⟩
        · have before := same.symm.trans set
          obtain ⟨on_list, not_null⟩ := kept.setDeq before
          exact ⟨List.mem_append_left _ (by simpa using on_list), by rw [target before]; exact not_null⟩
        · exact ⟨List.mem_append_right _ (queued sent), target⟩
      · intro paid set
        have on_list := kept.reset paid (halted.symm.trans set)
        exact List.mem_append_left _ (by simpa using on_list)
    · rw [State.ep_setEp_other _ here]
      have other : ¬Cmd.stopEp e = Cmd.stopEp e' := by simpa using Ne.symm here
      have kept := owing.behind is_list e' (fun same => absurd same other) (by simp) (by simp)
      exact kept.more fun _ member => List.mem_append_left _ member
  · show (outcome.finished.foldl State.givebackUrbInIrq s1).dying = false
    rw [framed.dying, is_s1]
    simpa using alive

/-- A handler changes its endpoint and queues nothing. -/
theorem Owing.handled {cmd : Cmd} {rest : List Cmd} {ep : Ep} (owing : Owing none s) (is_list : s.cmdList = cmd :: rest)
    (eps : s'.ep = (s.setEp e ep).ep) (commands : s'.cmdList = s.cmdList) (kept : Kept (none = some e) ep e rest)
    (others : ∀ e', e' ≠ e → cmd ≠ .stopEp e' ∧ cmd ≠ .setDeq e' ∧ cmd ≠ .resetEp e') : Owing none (dropHead s') := by
  intro e'
  show Kept _ (s'.ep e') e' s'.cmdList.tail
  rw [eps, commands, is_list, List.tail_cons]
  by_cases here : e' = e
  · rw [here, State.ep_setEp]
    exact kept
  · rw [State.ep_setEp_other _ here]
    obtain ⟨noStop, noSetDeq, noReset⟩ := others e' here
    exact owing.behind is_list e' (fun is_stop => absurd is_stop noStop) (fun is_set => absurd is_set noSetDeq)
      (fun is_reset => absurd is_reset noReset)

theorem Owing.handleCmdCompletion (owing : Owing none s) (alive : s.dying = false) {slot code : Nat} {deq : BitVec 64}
    {env : Env} {unlinks : List Unlink} (answered : Answered s (.cmdCompletion slot code deq env unlinks)) :
    Owing none (s.handleCmdCompletion slot code deq env unlinks) := by
  obtain ⟨own, canStop⟩ := answered
  rw [State.handleCmdCompletion]
  split
  · exact owing
  · rename_i cmd rest is_list
    have own := own cmd (by simp [is_list])
    by_cases stopped : code = compCmdStop
    · rwa [if_pos stopped]
    rw [if_neg stopped]
    cases cmd with
    | stopEp e =>
      have is_e : (slot, e.2) = e := by rw [← own e (.inl rfl)]
      simp only [is_e]
      exact owing.handleCmdStopEp alive is_list env canStop
    | setDeq e =>
      have is_e : (slot, e.2) = e := by rw [← own e (.inr (.inl rfl))]
      simp only [is_e]
      obtain ⟨stop, _, reset⟩ := owing e
      rw [is_list] at stop reset
      refine owing.handled (e := e) is_list (State.ep_markIf ..|>.trans (State.ep_markIf ..)) (by simp [State.handleCmdSetDeq]) ?_ ?_
      · refine ⟨fun blocked => ?_, by simp, fun paid set => ?_⟩
        · exact (List.mem_cons.mp (stop blocked)).resolve_left (by simp)
        · exact (List.mem_cons.mp (reset paid set)).resolve_left (by simp)
      · exact fun e' other => ⟨by simp, by simpa using Ne.symm other, by simp⟩
    | resetEp e =>
      have is_e : (slot, e.2) = e := by rw [← own e (.inr (.inr rfl))]
      simp only [is_e]
      obtain ⟨stop, setDeq, _⟩ := owing e
      rw [is_list] at stop setDeq
      refine owing.handled (e := e) is_list (State.ep_markIf ..) (by simp [State.handleCmdResetEp]) ?_ ?_
      · refine ⟨fun blocked => ?_, fun set => ?_, by simp⟩
        · exact (List.mem_cons.mp (stop blocked)).resolve_left (by simp)
        · exact ⟨(List.mem_cons.mp (setDeq set).1).resolve_left (by simp), (setDeq set).2⟩
      · exact fun e' other => ⟨by simp, by simp, by simpa using Ne.symm other⟩
    | other =>
      intro e
      have kept := owing.behind is_list e (by simp) (by simp) (by simp)
      simpa [is_list] using kept

theorem Owing.step (owing : Owing none s) {op : Op} (answered : Answered s op) :
    (s.step op).dying = true ∨ Owing none (s.step op) := by
  by_cases dying : s.dying = true
  · exact .inl (dying_step op dying)
  have alive : s.dying = false := by simpa using dying
  cases op with
  | enqueue e urb ring tds submitted =>
    right
    simp only [State.step, State.enqueue]
    rw [if_neg dying]
    have eased : Owing none (s.setEp e { s.ep e with
        ring, tdList := (s.ep e).tdList ++ tds.mapIdx fun i td => ⟨urb, i, td.1, td.2⟩ }) :=
      owing.eases ⟨id, id, fun set => ⟨set, rfl⟩, id⟩
    exact eased.more rfl fun _ member => member
  | urbDequeue u => exact .inr (owing.urbDequeue alive answered)
  | txEvent e event env => exact .inr (owing.handleTxEvent alive answered)
  | cmdCompletion slot code deq env unlinks => exact .inr (owing.handleCmdCompletion alive answered)
  | cacheComplete =>
    right
    simp only [State.step, State.cacheComplete]
    split
    · exact owing
    · split_ifs
      · exact owing
      · exact owing.more (State.ep_markIf ..) fun _ member => by simpa [State.mark] using member
  | watchdog endpoints => exact .inl (dying_watchdog endpoints)
  | queueOther ret => exact .inr (owing.more (State.ep_queueCommand ..) fun _ => mem_queueCommand _)
  | raise => exact .inr owing
  | die => exact .inl rfl

/-- Unless the host is dying, every blocked endpoint has its command, in every run in which
    commands can be queued, stalls are reported for TDs that are queued and commands
    complete for their slots. -/
theorem endpoints_unblocking (reachable : Reachable Answered s) (alive : s.dying = false) (e : EpId) : Unblocking s e := by
  have inv : s.dying = true ∨ Owing none s := by
    refine reachable.invariant (P := fun s => s.dying = true ∨ Owing none s) ?_ ?_
    · intro s new
      right
      intro e
      obtain ⟨_, nothing, _, _, free⟩ := new.idle e
      simp only [Ep.blocked, Bool.or_eq_false_iff] at free
      obtain ⟨⟨noHalt, noSetDeq⟩, noReset⟩ := free
      exact ⟨by simp [noHalt, nothing], by simp [noSetDeq], by simp [noReset]⟩
    · rintro s op (dying | owing) ⟨_, answered⟩
      · exact .inl (dying_step op dying)
      · exact owing.step answered
  rcases inv with dying | owing
  · simp [alive] at dying
  · obtain ⟨stop, setDeq, reset⟩ := owing e
    exact ⟨stop, setDeq, reset (by simp)⟩

end

/-- A stall of the TRB at `buffer`; commands can be queued. -/
def stallAt (buffer : BitVec 64) : Op :=
  .txEvent (1, 2) ⟨compStall, buffer, 0⟩ ⟨1, false, false, true, 0, ⟨0x1000, true, true, 0⟩⟩

/-- The TD of the stall is found, and the Reset Endpoint command queued. -/
theorem endpoints_unblocking_stall :
    let s := [oneTrb, stallAt 0x1000].foldl State.step idleState
    Reachable Answered s ∧ (s.ep (1, 2)).halted = true ∧ Unblocking s (1, 2) := by
  intro s
  have reachable : Reachable Answered s := by
    refine (Run.Reachable.first idleState_new).all ⟨⟨⟨?_, ?_⟩, trivial⟩, ⟨trivial, ?_, ?_⟩, trivial⟩
    · exact fun _ => by simp [idleState]
    · simp
    · exact fun _ => by decide
    · exact fun _ _ _ => ⟨rfl, _, _, ⟨0x1000, 0⟩, rfl, by decide +kernel⟩
  exact ⟨reachable, by decide +kernel, endpoints_unblocking reachable (by decide +kernel) (1, 2)⟩

/-- A stall is reported when no TD is queued: `EP_HALTED` stays set. -/
theorem not_endpoints_unblocking : ¬∀ s, Reachable (fun _ _ => True) s → s.dying = false → ∀ e, Unblocking s e := by
  intro unblocking
  have reachable : Reachable (fun _ _ => True) (idleState.step (stallAt 0x1000)) :=
    .step _ (.first idleState_new) ⟨trivial, trivial⟩
  have queued := (unblocking _ reachable rfl (1, 2)).reset (by decide +kernel)
  exact absurd queued (by decide +kernel)

end Ehub.Blocked
