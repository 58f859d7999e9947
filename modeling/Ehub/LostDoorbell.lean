import Mathlib
import Ehub.Transfer

/-!
Doorbells that are not lost. The doorbell of an endpoint is rung when a URB's TRBs have
been written to the device, but not while one of the flags `EP_HALT_PENDING`,
`SET_DEQ_PENDING` and `EP_HALTED` is set. It has to be made up for when the last flag is
cleared. The handlers of Stop Endpoint and of Set TR Dequeue Pointer do so; the handler of
Reset Endpoint does not: it relies on the Set TR Dequeue Pointer command that is queued
behind every Reset Endpoint command, and so does the handler of Stop Endpoint when the
controller has to be sent past a TD.
-/
namespace Ehub.LostDoorbell
open Ehub.Ring Ehub.Segments Ehub.Transfer Ehub.Cancel

/-- If the endpoint has TDs, all of them written to the device, and nothing keeps it from
    being used, its doorbell has been written since the last of them was and since the last
    flag was cleared. -/
def Served (s : State) (e : EpId) : Prop :=
  (s.ep e).tdList ≠ [] → (∀ td ∈ (s.ep e).tdList, (e, .written td.urb) ∈ s.log) → s.error = false → s.dying = false →
    (s.ep e).blocked = false →
    ∃ before after, s.log = before ++ (e, .doorbell) :: after ∧ (e, .cleared) ∉ after ∧
      ∀ td ∈ (s.ep e).tdList, (e, .written td.urb) ∉ after

/-- The Set TR Dequeue Pointer command for `deqState` can be queued. -/
def CanSend (deqState : TrbPtr × Bool) (env : Env) : Prop :=
  trbVirtToDma deqState.1 ≠ 0 ∧ env.alloc = true ∧ 0 ≤ env.queueCommand

/-- The event halts the endpoint, and its Reset Endpoint command is queued. -/
def Halts (event : Event) (env : TxEnv) : Prop :=
  (event.code = compStall ∨ requiresManualHaltCleanup env.epState event.code = true) ∧
    env.resetAlloc = true ∧ 0 ≤ env.resetQueue

/-- Set TR Dequeue Pointer commands can be queued whenever one is needed, none is pending
    when an endpoint halts, and a command completes for its own slot. -/
def Resumes (s : State) : Op → Prop
  | .txEvent e event env => Halts event env → ∀ td r p, eventTrb (s.ep e) event.buffer = some (td, r, p) →
      (s.ep e).setDeqPending = false ∧ ∃ deqState, findNewDequeueState r td env.env = some deqState ∧ CanSend deqState env.env
  | .cmdCompletion slot _ _ env _ => ∀ cmd ∈ s.cmdList.head?,
      (∀ e, cmd = .stopEp e ∨ cmd = .setDeq e ∨ cmd = .resetEp e → e.1 = slot) ∧
      ∀ e, cmd = .stopEp e → ∀ deqState, newDequeue (s.ep e).toEndpoint env = some deqState →
        (s.ep e).setDeqPending = true ∨ CanSend deqState env
  | _ => True

/-! ### The order of commands -/

/-- Behind every Reset Endpoint command is a Set TR Dequeue Pointer command. -/
def Followed : List Cmd → Prop
  | [] => True
  | cmd :: l => (∀ e, cmd = .resetEp e → .setDeq e ∈ l) ∧ Followed l

theorem Followed.append : ∀ {l l' : List Cmd}, Followed l → Followed l' → Followed (l ++ l') := by
  intro l l'
  induction l with
  | nil => exact fun _ followed => followed
  | cons cmd l ih =>
    rintro ⟨behind, followed⟩ followed'
    exact ⟨fun e reset => List.mem_append_left _ (behind e reset), ih followed followed'⟩

/-- The commands on the list are in order, and a Set TR Dequeue Pointer command is on it
    only when it is pending. -/
structure Orderly (s : State) : Prop where
  followed : Followed s.cmdList
  sent : ∀ e, .setDeq e ∈ s.cmdList → (s.ep e).setDeqPending = true
  once : ∀ e, s.cmdList.count (.setDeq e) ≤ 1

section
variable {s s' : State} {e : EpId}

theorem Orderly.same (orderly : Orderly s) (commands : s'.cmdList = s.cmdList)
    (pending : ∀ e, (s.ep e).setDeqPending = true → (s'.ep e).setDeqPending = true) : Orderly s' := by
  obtain ⟨followed, sent, once⟩ := orderly
  exact ⟨by rwa [commands], fun e member => pending e (sent e (by rwa [← commands])), by rwa [commands]⟩

theorem Orderly.setEp (orderly : Orderly s) {ep : Ep} (pending : (s.ep e).setDeqPending = true → ep.setDeqPending = true) :
    Orderly (s.setEp e ep) := by
  refine orderly.same rfl fun e' set => ?_
  by_cases here : e' = e
  · subst here
    rw [State.ep_setEp]
    exact pending set
  · rwa [State.ep_setEp_other _ here]

/-- Another command is queued. -/
theorem Orderly.queueCommand (orderly : Orderly s) (ret : Int) {cmd : Cmd} (notReset : ∀ e, cmd ≠ .resetEp e)
    (notSetDeq : ∀ e, cmd ≠ .setDeq e) : Orderly (s.queueCommand ret cmd) := by
  obtain ⟨followed, sent, once⟩ := orderly
  rw [State.queueCommand]
  split_ifs
  · exact ⟨followed, sent, once⟩
  · refine ⟨followed.append ⟨fun e reset => absurd reset (notReset e), trivial⟩, ?_, ?_⟩
    · intro e member
      rcases List.mem_append.mp member with before | new
      · exact sent e before
      · exact absurd (by simpa using Eq.symm (List.mem_singleton.mp new)) (notSetDeq e)
    · intro e
      have fresh : [cmd].count (.setDeq e) = 0 := List.count_eq_zero.mpr (by simpa using Ne.symm (notSetDeq e))
      have before := once e
      simp only [List.count_append]
      omega

/-- A Set TR Dequeue Pointer command is queued, the last of some commands. -/
theorem Orderly.push (orderly : Orderly s) (commands : List Cmd) (clear : (s.ep e).setDeqPending = false)
    (others : ∀ e', e' ≠ e → s'.ep e' = s.ep e') (set : (s'.ep e).setDeqPending = true)
    (lists : s'.cmdList = s.cmdList ++ (commands ++ [.setDeq e])) (only : ∀ cmd ∈ commands, cmd = .resetEp e) : Orderly s' := by
  obtain ⟨followed, sent, once⟩ := orderly
  have absent : .setDeq e ∉ s.cmdList := fun member => by simp [sent e member] at clear
  have not_there : ∀ e', .setDeq e' ∉ commands := fun e' member => by simpa using only _ member
  have behind : ∀ l : List Cmd, (∀ cmd ∈ l, cmd = .resetEp e) → Followed (l ++ [.setDeq e]) := by
    intro l
    induction l with
    | nil => exact fun _ => ⟨by simp, trivial⟩
    | cons cmd l ih =>
      intro only
      refine ⟨fun e' reset => ?_, ih fun cmd member => only cmd (by simp [member])⟩
      have same : Cmd.resetEp e' = .resetEp e := reset.symm.trans (only cmd (by simp))
      simp only [Cmd.resetEp.injEq] at same
      simp [same]
  refine ⟨?_, ?_, ?_⟩
  · rw [lists]
    exact followed.append (behind commands only)
  · intro e' member
    by_cases here : e' = e
    · rw [here, set]
    · rw [others e' here]
      refine sent e' ?_
      simpa [lists, not_there e', here] using member
  · intro e'
    have none_there : commands.count (.setDeq e') = 0 := List.count_eq_zero.mpr (not_there e')
    rw [lists, List.count_append, List.count_append, none_there, List.count_singleton]
    by_cases here : e' = e
    · have none_before : s.cmdList.count (.setDeq e') = 0 := List.count_eq_zero.mpr (by rwa [here])
      rw [none_before]
      split_ifs <;> omega
    · rw [if_neg (by simpa using Ne.symm here)]
      exact once e'

theorem Orderly.dropHead (orderly : Orderly s) : Orderly (dropHead s) := by
  obtain ⟨followed, sent, once⟩ := orderly
  refine ⟨?_, fun e member => sent e (List.mem_of_mem_tail member), fun e => ?_⟩
  · show Followed s.cmdList.tail
    cases list : s.cmdList with
    | nil => trivial
    | cons cmd l =>
      rw [list] at followed
      exact followed.2
  · exact (List.Sublist.count_le _ (List.tail_sublist _)).trans (once e)

/-! ### Halted endpoints -/

theorem Orderly.cleanupStalledRing (orderly : Orderly s) (td : Td) (env : Env) : Orderly (s.cleanupStalledRing e td env) := by
  have others := (framed_cleanupStalledRing (s := s) (e := e) td env).others
  revert others
  rw [State.cleanupStalledRing]
  split
  · exact fun _ => orderly
  · rename_i deqState _
    rcases queueNewDequeueState_cases (s.ep e).toEndpoint deqState (s.queueEnv env) with ⟨p, eq, _⟩ | ⟨clear, eq⟩
    · rw [eq]
      exact fun _ => orderly.setEp id
    · rw [eq]
      exact fun others => orderly.push [] clear others (by simp) rfl (by simp)

theorem cleanupStalledRing_sends {td : Td} {env : Env} {deqState : TrbPtr × Bool} (alive : s.dying = false)
    (clear : (s.ep e).setDeqPending = false) (found : findNewDequeueState (s.ep e).ring td env = some deqState)
    (can : CanSend deqState env) : ((s.cleanupStalledRing e td env).ep e).setDeqPending = true ∧
      (s.cleanupStalledRing e td env).cmdList = s.cmdList ++ [.setDeq e] := by
  obtain ⟨mapped, alloc, ok⟩ := can
  have sends : queueNewDequeueState (s.ep e).toEndpoint deqState (s.queueEnv env) = _ :=
    queueNewDequeueState_sends clear mapped alloc (by simpa [State.queueEnv, alive] using ok)
  rw [State.cleanupStalledRing, found]
  simp only [sends]
  exact ⟨by simp, rfl⟩

/-- The Reset Endpoint command is followed by its Set TR Dequeue Pointer command. -/
theorem Orderly.cleanupHaltedEndpoint (orderly : Orderly s) (alive : s.dying = false) (td : Td) {env : TxEnv}
    (resumes : env.resetAlloc = true → 0 ≤ env.resetQueue → (s.ep e).setDeqPending = false ∧
      ∃ deqState, findNewDequeueState (s.ep e).ring td env.env = some deqState ∧ CanSend deqState env.env) :
    Orderly (s.cleanupHaltedEndpoint e td env) := by
  have others := (framed_cleanupHaltedEndpoint (s := s) (e := e) td env).others
  revert others
  rw [State.cleanupHaltedEndpoint]
  by_cases alloc : env.resetAlloc = true
  · rw [if_neg (by simp [alloc])]
    by_cases ok : 0 ≤ env.resetQueue
    · obtain ⟨clear, deqState, found, can⟩ := resumes alloc ok
      set halted := (s.setEp e { s.ep e with halted := true }).queueCommand env.resetQueue (.resetEp e) with is_halted
      have queued : halted.cmdList = s.cmdList ++ [.resetEp e] := by
        rw [is_halted, State.queueCommand, if_neg (by simp [alive, ok])]
        rfl
      have ep : halted.ep e = { s.ep e with halted := true } := by rw [is_halted, State.ep_queueCommand, State.ep_setEp]
      obtain ⟨set, commands⟩ := cleanupStalledRing_sends (s := halted) (e := e) (by rw [is_halted]; simpa using alive)
        (by rw [ep]; exact clear) (by rw [ep]; exact found) can
      intro others
      refine orderly.push [.resetEp e] clear others set ?_ (by simp)
      rw [commands, queued, List.append_assoc]
    · rw [State.queueCommand, if_pos (by right; omega)]
      have halted : Orderly (s.setEp e { s.ep e with halted := true }) := orderly.setEp id
      exact fun _ => halted.cleanupStalledRing td env.env
  · rw [if_pos (by simpa using alloc)]
    exact fun _ => orderly

/-- The endpoint is blocked as before and has no more TDs. -/
structure Calmer (ep ep' : Ep) : Prop where
  blocks : ep'.blocked = false → ep.blocked = false
  fewer : ∀ td ∈ ep'.tdList, td ∈ ep.tdList

theorem Calmer.refl (ep : Ep) : Calmer ep ep := ⟨id, fun _ => id⟩

theorem Calmer.trans {ep ep' ep'' : Ep} (first : Calmer ep ep') (second : Calmer ep' ep'') : Calmer ep ep'' :=
  ⟨fun free => first.blocks (second.blocks free), fun td member => first.fewer td (second.fewer td member)⟩

theorem calmer_cleanupStalledRing (td : Td) (env : Env) : Calmer (s.ep e) ((s.cleanupStalledRing e td env).ep e) := by
  rw [State.cleanupStalledRing]
  split
  · exact .refl _
  · rename_i deqState _
    rcases queueNewDequeueState_cases (s.ep e).toEndpoint deqState (s.queueEnv env) with ⟨p, eq, _⟩ | ⟨_, eq⟩
    · rw [eq, State.ep_withSetDeq, State.ep_setEp]
      exact ⟨id, fun _ => id⟩
    · rw [eq, State.ep_withSetDeq, State.ep_setEp]
      exact ⟨by simp [Ep.blocked], fun _ => id⟩

theorem calmer_cleanupHaltedEndpoint (td : Td) (env : TxEnv) : Calmer (s.ep e) ((s.cleanupHaltedEndpoint e td env).ep e) := by
  rw [State.cleanupHaltedEndpoint]
  split_ifs
  · exact .refl _
  · refine Calmer.trans ?_ (calmer_cleanupStalledRing td env.env)
    rw [State.ep_queueCommand, State.ep_setEp]
    exact ⟨by simp [Ep.blocked], fun _ => id⟩

theorem calmer_removeTd (td : Td) : Calmer (s.ep e) ((s.removeTd e td).1.ep e) := by
  have removed : (s.removeTd e td).1.ep e =
      { s.ep e with tdList := (s.ep e).tdList.erase td, cancelledTdList := (s.ep e).cancelledTdList.erase td } := State.ep_setEp _
  rw [removed]
  exact ⟨id, fun _ => List.mem_of_mem_erase⟩

theorem calmer_finishTd (td : Td) (skip : Bool) (event : Event) (env : TxEnv) :
    Calmer (s.ep e) ((s.finishTd e td skip event env).1.ep e) := by
  have moved : ∀ r, Calmer (s.ep e) ((s.setEp e { s.ep e with ring := r }).ep e) := by
    intro r
    rw [State.ep_setEp]
    exact ⟨id, fun _ => id⟩
  rw [State.finishTd]
  split_ifs
  · exact calmer_removeTd td
  · rw [State.ep_setEp]
    exact ⟨id, fun _ => id⟩
  · exact (calmer_cleanupHaltedEndpoint td env).trans (calmer_removeTd td)
  · exact (moved _).trans (calmer_removeTd td)

theorem Orderly.removeTd (orderly : Orderly s) (td : Td) : Orderly (s.removeTd e td).1 := by
  have removed : Orderly (s.setEp e { s.ep e with
      tdList := (s.ep e).tdList.erase td, cancelledTdList := (s.ep e).cancelledTdList.erase td }) := orderly.setEp id
  exact removed.same rfl fun _ => id

theorem Orderly.ring (orderly : Orderly s) (r : Ring) : Orderly (s.setEp e { s.ep e with ring := r }) := orderly.setEp id

theorem Orderly.skipIsocTd (orderly : Orderly s) (td : Td) (event : Event) (env : TxEnv) :
    Orderly (s.skipIsocTd e td event env).1 :=
  (orderly.ring _).removeTd td

theorem Orderly.cleanup (orderly : Orderly s) (ret : Bool) (td : Option Td) : Orderly (s.cleanup ret td) := by
  refine orderly.same ?_ ?_
  · cases ret <;> cases td <;> rfl
  · cases ret <;> cases td <;> exact fun _ => id

theorem ep_cleanup (ret : Bool) (td : Option Td) : (s.cleanup ret td).ep = s.ep := by cases ret <;> cases td <;> rfl

theorem Orderly.txLoop (orderly : Orderly s) (alive : s.dying = false) {event : Event} {env : TxEnv}
    (resumes : Resumes s (.txEvent e event env)) (code fuel tdNum : Nat) (ret : Bool) :
    Orderly (s.txLoop e event code env fuel tdNum ret) ∧ Calmer (s.ep e) ((s.txLoop e event code env fuel tdNum ret).ep e) := by
  -- `Resumes` is about the TD that is found, so it is kept while missed TDs are passed.
  refine txLoop_rule (fun s' => (Orderly s' ∧ Calmer (s.ep e) (s'.ep e)) ∧ s'.dying = false ∧ Resumes s' (.txEvent e event env))
    (fun s' => Orderly s' ∧ Calmer (s.ep e) (s'.ep e)) (fun _ kept => kept.1) ?_ ?_ ?_ ?_ fuel tdNum ret s
    ⟨⟨orderly, .refl _⟩, alive, resumes⟩
  · rintro s' skip short ⟨⟨orderly, calmer⟩, alive, resumes⟩ less
    refine ⟨⟨orderly.setEp id, ?_⟩, alive, ?_⟩
    · rw [State.ep_setEp]
      exact calmer.trans ⟨id, fun _ => id⟩
    · intro halts td r p is_trb
      rw [State.ep_setEp] at is_trb ⊢
      exact resumes halts td r p (eventTrb_of_skip less is_trb)
  · rintro s' td rest ⟨⟨orderly, calmer⟩, alive, resumes⟩ is_list skips isoc missed
    have same := ep_skipIsocTd (s := s') (e := e) td event env (s'.skipIsocTd e td event env).2
    refine ⟨⟨?_, ?_⟩, ?_, ?_⟩
    · exact (orderly.skipIsocTd td event env).cleanup _ _
    · rw [same]
      exact calmer.trans ⟨id, fun _ => List.mem_of_mem_erase⟩
    · rw [(framed_cleanup (e := e) _ _).dying, (framed_skipIsocTd td event env).dying, alive]
    · intro halts td' r p is_trb
      rw [same] at is_trb ⊢
      rw [is_list, List.erase_cons_head, eventTrb_passed is_list ⟨skips, isoc⟩ missed] at is_trb
      exact resumes halts td' r p is_trb
  · rintro s' td rest p ⟨⟨orderly, calmer⟩, alive, resumes⟩ is_list found _ _ _
    refine ⟨Orderly.cleanup ?_ _ _, ?_⟩
    · rw [State.finishTd, if_neg (by simp)]
      split_ifs with stopped halting
      · exact orderly.setEp id
      · refine (orderly.cleanupHaltedEndpoint alive td fun alloc ok => ?_).removeTd td
        exact resumes ⟨halting, alloc, ok⟩ td _ p (eventTrb_first is_list found)
      · exact (orderly.ring _).removeTd td
    · rw [ep_cleanup]
      exact calmer.trans (calmer_finishTd td false event env)
  · rintro s' td rest p ret ⟨⟨orderly, calmer⟩, _, _⟩ _ _ _
    exact ⟨orderly.cleanup _ _, by rwa [ep_cleanup]⟩

theorem Orderly.handleTxEvent (orderly : Orderly s) (alive : s.dying = false) {event : Event} {env : TxEnv}
    (resumes : Resumes s (.txEvent e event env)) :
    Orderly (s.handleTxEvent e event env) ∧ Calmer (s.ep e) ((s.handleTxEvent e event env).ep e) := by
  rcases handleTxEvent_cases s e event env with ⟨_, eq⟩ | ⟨_, ⟨code, tdNum, eq, _, _⟩ | ⟨_, eq | eq⟩⟩
  · rw [eq]
    exact ⟨orderly, .refl _⟩
  · rw [eq]
    by_cases stall : event.code = compStall
    · rw [State.noteStall, if_pos stall]
      have noted : Calmer (s.ep e) ((s.setEp e { s.ep e with halted := true }).ep e) := by
        rw [State.ep_setEp]
        exact ⟨by simp [Ep.blocked], fun _ => id⟩
      have halted : Orderly (s.setEp e { s.ep e with halted := true }) := orderly.setEp id
      have still : Resumes (s.setEp e { s.ep e with halted := true }) (.txEvent e event env) := by
        rw [Resumes, State.ep_setEp]
        exact resumes
      obtain ⟨orderly, calmer⟩ := halted.txLoop alive still code (tdNum + 2) tdNum false
      exact ⟨orderly, noted.trans calmer⟩
    · rw [State.noteStall, if_neg stall]
      exact orderly.txLoop alive resumes _ _ _ _
  · rw [eq]
    exact ⟨orderly, .refl _⟩
  · rw [eq, State.ep_setEp]
    exact ⟨orderly.setEp id, id, fun _ => id⟩

/-! ### Doorbells -/

/-- The last that happened for the endpoint's doorbell is that it was rung. -/
def RungLast (e : EpId) (log : List (EpId × Mark)) : Prop :=
  ∃ before after, log = before ++ (e, .doorbell) :: after ∧ ∀ m, (e, m) ∉ after

/-- An endpoint that can be used has been rung, or none of its TDs has been written. -/
def Quiet (ep : Ep) (e : EpId) (error : Bool) (log : List (EpId × Mark)) : Prop :=
  ep.blocked = false → error = false → RungLast e log ∨ ∀ td ∈ ep.tdList, (e, .written td.urb) ∉ log

theorem rungLast_append (e : EpId) (log : List (EpId × Mark)) : RungLast e (log ++ [(e, .doorbell)]) :=
  ⟨log, [], rfl, by simp⟩

theorem Quiet.other {ep : Ep} {error : Bool} {log : List (EpId × Mark)} {e' : EpId} (quiet : Quiet ep e error log)
    (other : e ≠ e') (m : Mark) : Quiet ep e error (log ++ [(e', m)]) := by
  intro free ok
  rcases quiet free ok with ⟨before, after, is_log, silent⟩ | unwritten
  · refine .inl ⟨before, after ++ [(e', m)], by simp [is_log], ?_⟩
    simpa [other] using silent
  · exact .inr fun td member => by simpa [other] using unwritten td member

theorem Quiet.calmer {ep ep' : Ep} {error : Bool} {log : List (EpId × Mark)} (quiet : Quiet ep e error log)
    (calmer : Calmer ep ep') : Quiet ep' e error log := by
  intro free ok
  exact (quiet (calmer.blocks free) ok).imp_right fun unwritten td member => unwritten td (calmer.fewer td member)

structure Prompt (s : State) : Prop where
  quiet : ∀ e, Quiet (s.ep e) e s.error s.log
  known : ∀ e urb, (e, .written urb) ∈ s.log ∨ (e, urb) ∈ s.writes → (e, urb) ∈ s.linked
  orderly : Orderly s

/-- What leaves the endpoints blocked as they were and with no more TDs. -/
theorem Prompt.calmer (prompt : Prompt s) (log : s'.log = s.log) (error : s'.error = s.error) (linked : s'.linked = s.linked)
    (writes : s'.writes = s.writes) (calmer : ∀ e, Calmer (s.ep e) (s'.ep e)) (orderly : Orderly s') : Prompt s' := by
  refine ⟨fun e => ?_, ?_, orderly⟩
  · rw [log, error]
    exact (prompt.quiet e).calmer (calmer e)
  · rw [log, linked, writes]
    exact prompt.known

theorem calmer_setEp {ep : Ep} (calmer : Calmer (s.ep e) ep) (e' : EpId) : Calmer (s.ep e') ((s.setEp e ep).ep e') := by
  by_cases here : e' = e
  · rw [here, State.ep_setEp]
    exact calmer
  · rw [State.ep_setEp_other _ here]
    exact .refl _

theorem Prompt.handleTxEvent (prompt : Prompt s) (alive : s.dying = false) {event : Event} {env : TxEnv}
    (resumes : Resumes s (.txEvent e event env)) : Prompt (s.handleTxEvent e event env) := by
  obtain ⟨orderly, calmer⟩ := prompt.orderly.handleTxEvent alive resumes
  have framed : Framed e s (s.handleTxEvent e event env) := framed_handleTxEvent event env
  refine prompt.calmer framed.log framed.error framed.linked framed.writes ?_ orderly
  intro e'
  by_cases here : e' = e
  · rwa [here]
  · rw [framed.others e' here]
    exact .refl _

theorem Prompt.queueCommand (prompt : Prompt s) (ret : Int) {cmd : Cmd} (notReset : ∀ e, cmd ≠ .resetEp e)
    (notSetDeq : ∀ e, cmd ≠ .setDeq e) : Prompt (s.queueCommand ret cmd) := by
  have framed : Framed (0, 0) s (s.queueCommand ret cmd) := framed_queueCommand ret cmd
  refine prompt.calmer framed.log framed.error framed.linked framed.writes ?_ (prompt.orderly.queueCommand ret notReset notSetDeq)
  intro e
  rw [State.ep_queueCommand]
  exact .refl _

theorem Prompt.urbDequeue (prompt : Prompt s) (u : Unlink) : Prompt (s.urbDequeue u) := by
  have noted : Prompt (s.noteUnlinked u.urb) := ⟨prompt.quiet, prompt.known, prompt.orderly.same rfl fun _ => id⟩
  have cancelled : Prompt ((s.noteUnlinked u.urb).cancelTds u.e u.urb) :=
    noted.calmer rfl rfl rfl rfl (calmer_setEp ⟨id, fun _ => id⟩) (noted.orderly.setEp id)
  rcases urbDequeue_cases s u with eq | ⟨_, eq | ⟨_, eq⟩ | ⟨_, eq⟩ | ⟨_, eq⟩⟩
  · rwa [eq]
  · rw [eq]
    have dropped : Prompt ((s.noteUnlinked u.urb).dropTds u.e u.urb) :=
      noted.calmer rfl rfl rfl rfl (calmer_setEp ⟨id, fun _ => List.mem_of_mem_filter⟩) (noted.orderly.setEp id)
    exact ⟨dropped.quiet, dropped.known, dropped.orderly.same rfl fun _ => id⟩
  · rwa [eq]
  · rwa [eq]
  · rw [eq]
    refine Prompt.queueCommand ?_ u.ret (by simp) (by simp)
    exact cancelled.calmer rfl rfl rfl rfl (calmer_setEp ⟨by simp [Ep.blocked], fun _ => id⟩) (cancelled.orderly.setEp id)

theorem Prompt.urbDequeues : ∀ {unlinks : List Unlink} {s : State}, Prompt s → Prompt (unlinks.foldl State.urbDequeue s) := by
  intro unlinks
  induction unlinks with
  | nil => exact fun prompt => prompt
  | cons u unlinks ih => exact fun prompt => ih (prompt.urbDequeue u)

/-- A handler changes its endpoint and rings its doorbell if it can be used and has TDs. -/
theorem Prompt.handled (prompt : Prompt s) (marks : List Mark) (others : ∀ e', e' ≠ e → s'.ep e' = s.ep e') (error : s'.error = s.error)
    (linked : s'.linked = s.linked) (writes : s'.writes = s.writes)
    (log : s'.log = s.log ++ marks.map (e, ·)) (unwritten : ∀ urb, .written urb ∉ marks)
    (rung : (s'.ep e).blocked = false → (s'.ep e).tdList ≠ [] → RungLast e s'.log) (orderly : Orderly s') : Prompt s' := by
  have elsewhere : ∀ (marks : List Mark) (log : List (EpId × Mark)) {ep : Ep} {e' : EpId}, e' ≠ e → Quiet ep e' s.error log →
      Quiet ep e' s.error (log ++ marks.map (e, ·)) := by
    intro marks
    induction marks with
    | nil =>
      intro log ep e' _ quiet
      simpa using quiet
    | cons m marks ih =>
      intro log ep e' other quiet
      simpa using ih _ other (quiet.other other m)
  refine ⟨fun e' => ?_, ?_, orderly⟩
  · by_cases here : e' = e
    · subst here
      intro free _
      by_cases nothing : (s'.ep e').tdList = []
      · exact .inr (by simp [nothing])
      · exact .inl (rung free nothing)
    · rw [others e' here, error, log]
      exact elsewhere marks s.log here (prompt.quiet e')
  · intro e' urb
    rw [log, linked, writes]
    rintro (written | inFlight)
    · refine prompt.known e' urb (.inl ?_)
      rcases List.mem_append.mp written with before | new
      · exact before
      · simp [unwritten urb] at new
    · exact prompt.known e' urb (.inr inFlight)

/-! ### Commands complete -/

theorem log_markIf (was : Bool) (m : Mark) : (s.markIf e was m).log = s.log ++ (if was then [m] else []).map (e, ·) := by
  cases was
  · simp [State.markIf]
  · simp [State.markIf, State.mark]

/-- What marks leave alone. -/
theorem framed_markIf (was : Bool) (m : Mark) : (s.markIf e was m).error = s.error ∧ (s.markIf e was m).linked = s.linked ∧
    (s.markIf e was m).writes = s.writes := by
  cases was <;> exact ⟨rfl, rfl, rfl⟩

theorem queueEnv_alive (alive : s.dying = false) (env : Env) : s.queueEnv env = env := by simp [State.queueEnv, alive]

theorem rings_iff (ep : Ep) : ringDoorbellForActiveRings ep.toEndpoint = true ↔ ep.blocked = false ∧ ep.tdList ≠ [] := by
  simp only [ringDoorbellForActiveRings, Ep.blocked, Bool.and_eq_true, Bool.not_eq_true', Bool.or_eq_false_iff,
    List.isEmpty_eq_false_iff]
  tauto

theorem Prompt.handleCmdSetDeq {rest : List Cmd} (prompt : Prompt s) (is_list : s.cmdList = .setDeq e :: rest) (code : Nat)
    (deq : BitVec 64) : Prompt (dropHead (s.handleCmdSetDeq e code deq)) := by
  obtain ⟨followed, sent, once⟩ := prompt.orderly
  rw [is_list] at followed sent once
  have gone : .setDeq e ∉ rest := by
    have one := once e
    rw [List.count_cons_self] at one
    exact List.count_eq_zero.mp (by omega)
  rw [State.handleCmdSetDeq]
  set ep' : Ep := { s.ep e with ring := _, setDeqPending := false, queuedDeqPtr := none }
  have eps : ∀ e', ((((s.setEp e ep').markIf e (s.ep e).setDeqPending .cleared).markIf e
      (ringDoorbellForActiveRings ep'.toEndpoint) .doorbell).ep e') = (s.setEp e ep').ep e' := by simp
  refine prompt.handled (e := e)
    ((if (s.ep e).setDeqPending then [.cleared] else []) ++ if ringDoorbellForActiveRings ep'.toEndpoint then [.doorbell] else [])
    ?_ ?_ ?_ ?_ ?_ ?_ ?_ ?_
  · exact fun e' other => (eps e').trans (State.ep_setEp_other _ other)
  · exact (framed_markIf ..).1.trans (framed_markIf ..).1
  · exact (framed_markIf ..).2.1.trans (framed_markIf ..).2.1
  · exact (framed_markIf ..).2.2.trans (framed_markIf ..).2.2
  · show (State.markIf ..).log = _
    rw [log_markIf, log_markIf, List.map_append, List.append_assoc]
    rfl
  · intro urb
    split_ifs <;> simp
  · intro free some_td
    rw [show (dropHead _).ep e = ep' from (eps e).trans (State.ep_setEp _)] at free some_td
    show RungLast e (State.markIf ..).log
    rw [log_markIf, (rings_iff ep').mpr ⟨free, some_td⟩]
    exact rungLast_append e _
  · have lists : (dropHead (((s.setEp e ep').markIf e (s.ep e).setDeqPending .cleared).markIf e
        (ringDoorbellForActiveRings ep'.toEndpoint) .doorbell)).cmdList = rest := by simp [dropHead, is_list]
    refine ⟨by rw [lists]; exact followed.2, fun e' member => ?_, fun e' => ?_⟩
    · rw [lists] at member
      have other : e' ≠ e := fun here => gone (here ▸ member)
      rw [show (dropHead _).ep e' = s.ep e' from (eps e').trans (State.ep_setEp_other _ other)]
      exact sent e' (List.mem_cons_of_mem _ member)
    · rw [lists]
      exact (List.Sublist.count_le _ (List.sublist_cons_self _ _)).trans (once e')

/-- The endpoint stays blocked, since a Set TR Dequeue Pointer command is behind the Reset
    Endpoint command. -/
theorem Prompt.handleCmdResetEp {rest : List Cmd} (prompt : Prompt s) (is_list : s.cmdList = .resetEp e :: rest) :
    Prompt (dropHead (s.handleCmdResetEp e)) := by
  have pending : (s.ep e).setDeqPending = true := by
    have followed := prompt.orderly.followed
    rw [is_list] at followed
    exact prompt.orderly.sent e (by rw [is_list]; exact List.mem_cons_of_mem _ (followed.1 e rfl))
  rw [State.handleCmdResetEp]
  have eps : ∀ e', (((s.setEp e { s.ep e with halted := false }).markIf e (s.ep e).halted .cleared).ep e') =
      (s.setEp e { s.ep e with halted := false }).ep e' := by simp
  refine prompt.handled (e := e) (if (s.ep e).halted then [.cleared] else []) ?_ ?_ ?_ ?_ ?_ ?_ ?_ ?_
  · exact fun e' other => (eps e').trans (State.ep_setEp_other _ other)
  · exact (framed_markIf ..).1
  · exact (framed_markIf ..).2.1
  · exact (framed_markIf ..).2.2
  · exact log_markIf ..
  · intro urb
    split_ifs <;> simp
  · intro free
    rw [show (dropHead _).ep e = { s.ep e with halted := false } from (eps e).trans (State.ep_setEp _)] at free
    simp [Ep.blocked, pending] at free
  · refine Orderly.dropHead (prompt.orderly.same (by simp) fun e' set => ?_)
    rw [eps e']
    by_cases here : e' = e
    · rw [here, State.ep_setEp]
      exact pending
    · rwa [State.ep_setEp_other _ here]

theorem Prompt.handleCmdStopEp {rest : List Cmd} (prompt : Prompt s) (alive : s.dying = false)
    (is_list : s.cmdList = .stopEp e :: rest) (env : Env) (unlinks : List Unlink)
    (resumes : ∀ deqState, newDequeue (s.ep e).toEndpoint env = some deqState → (s.ep e).setDeqPending = true ∨ CanSend deqState env) :
    Prompt (dropHead (s.handleCmdStopEp e env unlinks)) := by
  rw [State.handleCmdStopEp, queueEnv_alive alive]
  obtain ⟨_, _, _, _, _, command, sent, doorbell, _⟩ := stopEp_spec (s.ep e).toEndpoint env
  set outcome := Cancel.handleCmdStopEp (s.ep e).toEndpoint env
  set s1 := (((s.setEp e { s.ep e with toEndpoint := outcome.ep }).markIf e (s.ep e).haltPending .cleared).withSetDeq e
    outcome.setDeq).markIf e outcome.doorbell .doorbell with is_s1
  have eps : s1.ep = (s.setEp e { s.ep e with toEndpoint := outcome.ep }).ep := by simp [is_s1]
  have log1 : s1.log = s.log ++
      ((if (s.ep e).haltPending then [Mark.cleared] else []) ++ if outcome.doorbell then [Mark.doorbell] else []).map (e, ·) := by
    rw [is_s1, log_markIf, (framed_withSetDeq _).log, log_markIf, List.map_append, List.append_assoc]
    rfl
  have frame : s1.error = s.error ∧ s1.linked = s.linked ∧ s1.writes = s.writes := by
    have marked := framed_markIf (s := s.setEp e { s.ep e with toEndpoint := outcome.ep }) (e := e) (s.ep e).haltPending .cleared
    have sent := framed_withSetDeq (e := e)
      (s := (s.setEp e { s.ep e with toEndpoint := outcome.ep }).markIf e (s.ep e).haltPending .cleared) outcome.setDeq
    rw [is_s1, (framed_markIf ..).1, (framed_markIf ..).2.1, (framed_markIf ..).2.2, sent.error, sent.linked, sent.writes]
    exact marked
  have orderly : Orderly s1 := by
    have others : ∀ e', e' ≠ e → s1.ep e' = s.ep e' := by
      intro e' other
      rw [eps, State.ep_setEp_other _ other]
    rcases command with ⟨nothing, same, _⟩ | ⟨clear, something, set, _⟩
    · refine prompt.orderly.same (by simp [is_s1, nothing, State.withSetDeq]) fun e' set => ?_
      by_cases here : e' = e
      · subst here
        rw [eps, State.ep_setEp]
        exact same.trans set
      · rwa [others e' here]
    · refine prompt.orderly.push [] clear others ?_ ?_ (by simp)
      · rw [eps, State.ep_setEp]
        exact set
      · obtain ⟨deqState, is_some⟩ := Option.ne_none_iff_exists'.mp something
        simp [is_s1, is_some, State.withSetDeq]
  obtain ⟨ep2, list2, framed⟩ := givebacks_frame e outcome.finished s1
  have some_cmd : s1.cmdList ≠ [] := by
    refine List.ne_nil_of_mem (a := .stopEp e) ?_
    rw [is_s1, State.cmdList_markIf]
    exact mem_withSetDeq _ (by simp [is_list])
  rw [dropHead_urbDequeues unlinks (by rwa [list2])]
  refine Prompt.urbDequeues (prompt.handled (e := e) _ ?_ (framed.error.trans frame.1) (framed.linked.trans frame.2.1)
    (framed.writes.trans frame.2.2) (framed.log.trans log1) ?_ ?_ ?_)
  · intro e' other
    show (outcome.finished.foldl State.givebackUrbInIrq s1).ep e' = s.ep e'
    rw [ep2, eps, State.ep_setEp_other _ other]
  · intro urb
    split_ifs <;> simp
  · intro free some_td
    have here : (dropHead (outcome.finished.foldl State.givebackUrbInIrq s1)).ep e = { s.ep e with toEndpoint := outcome.ep } := by
      show (outcome.finished.foldl State.givebackUrbInIrq s1).ep e = _
      rw [ep2, eps, State.ep_setEp]
    rw [here] at free some_td
    -- A dequeue pointer that has to be moved leaves the endpoint blocked.
    have stays : newDequeue (s.ep e).toEndpoint env = none := by
      cases needed : newDequeue (s.ep e).toEndpoint env with
      | none => rfl
      | some deqState =>
        have pending := sent deqState needed (resumes deqState needed)
        simp [Ep.blocked, pending] at free
    have rung : outcome.doorbell = true :=
      (doorbell stays).trans ((rings_iff { s.ep e with toEndpoint := outcome.ep }).mpr ⟨free, some_td⟩)
    show RungLast e (outcome.finished.foldl State.givebackUrbInIrq s1).log
    rw [framed.log, log1, rung, List.map_append, ← List.append_assoc]
    exact rungLast_append e _
  · exact (orderly.same list2 fun e' => by rw [ep2]; exact id).dropHead

theorem Prompt.handleCmdCompletion (prompt : Prompt s) (alive : s.dying = false) {slot code : Nat} {deq : BitVec 64}
    {env : Env} {unlinks : List Unlink} (resumes : Resumes s (.cmdCompletion slot code deq env unlinks)) :
    Prompt (s.handleCmdCompletion slot code deq env unlinks) := by
  rw [State.handleCmdCompletion]
  split
  · exact prompt
  · rename_i cmd rest is_list
    obtain ⟨own, stops⟩ := resumes cmd (by simp [is_list])
    by_cases stopped : code = compCmdStop
    · rwa [if_pos stopped]
    rw [if_neg stopped]
    cases cmd with
    | stopEp e =>
      have is_e : (slot, e.2) = e := by rw [← own e (.inl rfl)]
      simp only [is_e]
      exact prompt.handleCmdStopEp alive is_list env unlinks (stops e rfl)
    | setDeq e =>
      have is_e : (slot, e.2) = e := by rw [← own e (.inr (.inl rfl))]
      simp only [is_e]
      exact prompt.handleCmdSetDeq is_list code deq
    | resetEp e =>
      have is_e : (slot, e.2) = e := by rw [← own e (.inr (.inr rfl))]
      simp only [is_e]
      exact prompt.handleCmdResetEp is_list
    | other => exact ⟨prompt.quiet, prompt.known, prompt.orderly.dropHead⟩

theorem cacheComplete_eq {urb : Nat} {writes : List (EpId × Nat)} (is_writes : s.writes = (e, urb) :: writes) :
    s.cacheComplete = { s with
      writes
      log := s.log ++ (e, .written urb) :: if s.error ∨ s.dying ∨ (s.ep e).blocked then [] else [(e, .doorbell)] } := by
  rw [State.cacheComplete, is_writes]
  by_cases failed : s.error = true ∨ s.dying = true
  · have : s.error = true ∨ s.dying = true ∨ (s.ep e).blocked = true := by tauto
    simp [State.mark, failed, this]
  · rw [not_or] at failed
    cases blocked : (s.ep e).blocked <;> simp [State.markIf, State.mark, failed, blocked]

/-- The TRBs of a URB have been written, and its doorbell is rung. -/
theorem Prompt.cacheComplete (prompt : Prompt s) (alive : s.dying = false) : Prompt s.cacheComplete := by
  cases is_writes : s.writes with
  | nil =>
    rw [State.cacheComplete, is_writes]
    exact prompt
  | cons write writes =>
    obtain ⟨e, urb⟩ := write
    have linked : (e, urb) ∈ s.linked := prompt.known e urb (.inr (by simp [is_writes]))
    rw [cacheComplete_eq is_writes]
    refine ⟨fun e' free ok => ?_, ?_, prompt.orderly.same rfl fun _ => id⟩
    · change (s.ep e').blocked = false at free
      change s.error = false at ok
      by_cases here : e' = e
      · subst here
        left
        have rung := rungLast_append e' (s.log ++ [(e', .written urb)])
        rw [List.append_assoc] at rung
        simpa [free, ok, alive] using rung
      · have written := (prompt.quiet e').other here (.written urb)
        split_ifs
        · exact written free ok
        · simpa using written.other here .doorbell free ok
    · rintro e' urb' (written | inFlight)
      · rcases List.mem_append.mp written with before | new
        · exact prompt.known e' urb' (.inl before)
        · obtain ⟨rfl, rfl⟩ : e' = e ∧ urb' = urb := by
            split_ifs at new <;> simpa using new
          exact linked
      · exact prompt.known e' urb' (.inr (by simp [is_writes, show (e', urb') ∈ writes from inFlight]))

theorem Prompt.enqueue (prompt : Prompt s) {urb : Nat} (fresh : ∀ e, (e, urb) ∉ s.linked) (ring : Ring)
    (tds : List (TrbPtr × TrbPtr)) (submitted : Bool) : Prompt (s.enqueue e urb ring tds submitted) := by
  rw [State.enqueue]
  by_cases dying : s.dying = true
  · rwa [if_pos dying]
  · rw [if_neg dying]
    have unwritten : (e, .written urb) ∉ s.log := fun written => fresh e (prompt.known e urb (.inl written))
    refine ⟨fun e' => ?_, ?_, ?_⟩
    · by_cases here : e' = e
      · subst here
        intro free ok
        rw [State.ep_setEp] at free
        refine (prompt.quiet e' free ok).imp_right fun nothing td member => ?_
        rw [State.ep_setEp] at member
        rcases List.mem_append.mp member with before | new
        · exact nothing td before
        · obtain ⟨i, _, rfl⟩ := List.mem_mapIdx.mp new
          exact unwritten
      · simp only [State.ep_setEp_other _ here]
        exact prompt.quiet e'
    · rintro e' urb' (written | inFlight)
      · exact List.mem_append_left _ (prompt.known e' urb' (.inl written))
      · show (e', urb') ∈ s.linked ++ [(e, urb)]
        by_cases before : (e', urb') ∈ s.writes
        · exact List.mem_append_left _ (prompt.known e' urb' (.inr before))
        · have new : (e', urb') = (e, urb) := by
            cases submitted
            · exact absurd inFlight before
            · simpa [before] using inFlight
          simp [new]
    · have queued : Orderly (s.setEp e { s.ep e with
          ring, tdList := (s.ep e).tdList ++ tds.mapIdx fun i td => ⟨urb, i, td.1, td.2⟩ }) := prompt.orderly.setEp id
      exact queued.same rfl fun _ => id

theorem Prompt.step (prompt : Prompt s) {op : Op} (allowed : op.Allowed s) (resumes : Resumes s op) :
    (s.step op).dying = true ∨ Prompt (s.step op) := by
  by_cases dying : s.dying = true
  · exact .inl (dying_step op dying)
  have alive : s.dying = false := by simpa using dying
  cases op with
  | enqueue e urb ring tds submitted => exact .inr (prompt.enqueue allowed.1 ring tds submitted)
  | urbDequeue u => exact .inr (prompt.urbDequeue u)
  | txEvent e event env => exact .inr (prompt.handleTxEvent alive resumes)
  | cmdCompletion slot code deq env unlinks => exact .inr (prompt.handleCmdCompletion alive resumes)
  | cacheComplete => exact .inr (prompt.cacheComplete alive)
  | watchdog endpoints => exact .inl (dying_watchdog endpoints)
  | queueOther ret => exact .inr (prompt.queueCommand ret (by simp) (by simp))
  | raise => exact .inr ⟨fun e _ ok => by simp [State.step] at ok, prompt.known, prompt.orderly.same rfl fun _ => id⟩
  | die => exact .inl rfl

theorem New.prompt (new : New s) : Prompt s := by
  obtain ⟨noCmd, _, _, noWrite, _, _, noLog⟩ := new.empty
  refine ⟨fun e _ _ => .inr (by simp [noLog]), by simp [noLog, noWrite], ?_, ?_, ?_⟩
  · rw [noCmd]
    trivial
  · simp [noCmd]
  · simp [noCmd]

/-- No doorbell is lost, in every run in which Set TR Dequeue Pointer commands can be queued
    when they are needed and commands complete for their slots. -/
theorem doorbells_not_lost (reachable : Reachable Resumes s) (e : EpId) : Served s e := by
  have inv : s.dying = true ∨ Prompt s := by
    refine reachable.invariant (P := fun s => s.dying = true ∨ Prompt s) (fun s new => .inr (New.prompt new)) ?_
    rintro s op (dying | prompt) ⟨allowed, resumes⟩
    · exact .inl (dying_step op dying)
    · exact prompt.step allowed resumes
  intro some_td written ok alive free
  rcases inv with dying | prompt
  · simp [alive] at dying
  rcases prompt.quiet e free ok with ⟨before, after, is_log, silent⟩ | unwritten
  · exact ⟨before, after, is_log, silent _, fun td _ => silent _⟩
  · obtain ⟨td, member⟩ := List.exists_mem_of_ne_nil _ some_td
    exact absurd (written td member) (unwritten td member)

end

/-- The ring with the TRBs of a URB and then of another one. -/
def twoTrbs : Ring :=
  (RingAccount.bulkRing.queueTd ⟨false, false⟩ RingAccount.normalTrb [] fun _ => .accepted).queueTd ⟨false, false⟩
    RingAccount.normalTrb [] fun _ => .accepted

/-- Two URBs are queued and written to the device; the first one stalls, and the Set TR
    Dequeue Pointer command may not be allocated. -/
def stallOfTwo (alloc : Bool) : List Op :=
  [oneTrb, .enqueue (1, 2) 8 twoTrbs [(⟨0x1000, 1⟩, ⟨0x1000, 1⟩)] true, .cacheComplete, .cacheComplete,
    .txEvent (1, 2) ⟨compStall, 0x1000, 0⟩ ⟨1, false, false, true, 0, ⟨0x1000, true, alloc, 0⟩⟩,
    .cmdCompletion 1 compSuccess 0 ⟨0x1000, true, true, 0⟩ []]

/-- The Set TR Dequeue Pointer command completes. -/
def resumed : Op := .cmdCompletion 1 compSuccess 0 ⟨0x1000, true, true, 0⟩ []

/-- The second TD is served once the controller has been sent past the first one. -/
theorem doorbells_not_lost_stall :
    let s := (stallOfTwo true ++ [resumed]).foldl State.step idleState
    Reachable Resumes s ∧ (s.ep (1, 2)).tdList.map (·.urb) = [8] ∧ (s.ep (1, 2)).blocked = false ∧ Served s (1, 2) := by
  intro s
  have reachable : Reachable Resumes s := by
    refine (Run.Reachable.first idleState_new).all ⟨⟨⟨?_, by simp⟩, trivial⟩, ⟨⟨?_, by simp⟩, trivial⟩, ⟨trivial, trivial⟩,
      ⟨trivial, trivial⟩, ⟨trivial, ?_⟩, ⟨trivial, ?_⟩, ⟨trivial, ?_⟩, trivial⟩
    · exact fun _ => by simp [idleState]
    · exact fun e => by simp [State.step, oneTrb, State.enqueue, idleState]
    · intro _ td r p is_trb
      obtain ⟨rfl, rfl, rfl⟩ : _ = td ∧ _ = r ∧ _ = p := by simpa using Option.some.inj is_trb
      exact ⟨rfl, _, rfl, by decide +kernel, rfl, by decide⟩
    · intro cmd is_cmd
      obtain rfl : Cmd.resetEp (1, 2) = cmd := Option.some.inj is_cmd
      exact ⟨by simp, by simp⟩
    · intro cmd is_cmd
      obtain rfl : Cmd.setDeq (1, 2) = cmd := Option.some.inj is_cmd
      exact ⟨by simp, by simp⟩
  exact ⟨reachable, by decide +kernel, by decide +kernel, doorbells_not_lost reachable (1, 2)⟩

/-- The Set TR Dequeue Pointer command cannot be allocated: nobody rings the doorbell for the
    second TD after the Reset Endpoint command. -/
theorem not_doorbells_not_lost : ¬∀ s, Reachable (fun _ _ => True) s → ∀ e, Served s e := by
  intro served
  set s := (stallOfTwo false).foldl State.step idleState with is_s
  have reachable : Reachable (fun _ _ => True) s := by
    refine (Run.Reachable.first idleState_new).all ⟨⟨⟨?_, by simp⟩, trivial⟩, ⟨⟨?_, by simp⟩, trivial⟩, ⟨trivial, trivial⟩,
      ⟨trivial, trivial⟩, ⟨trivial, trivial⟩, ⟨trivial, trivial⟩, trivial⟩
    · exact fun _ => by simp [idleState]
    · exact fun e => by simp [State.step, oneTrb, State.enqueue, idleState]
  have log : s.log = [((1, 2), .written 7), ((1, 2), .doorbell), ((1, 2), .written 8), ((1, 2), .doorbell)] ++
      [((1, 2), .cleared)] := by decide +kernel
  obtain ⟨before, after, is_log, uncleared, _⟩ := served s reachable (1, 2) (by decide +kernel) (by decide +kernel)
    (by decide +kernel) (by decide +kernel) (by decide +kernel)
  -- The last entry of the log is a flag that is cleared, so it stands behind every doorbell.
  rw [log] at is_log
  cases after using List.reverseRecOn with
  | nil => simpa using List.append_inj_right' is_log rfl
  | append_singleton after last _ =>
    rw [← List.cons_append, ← List.append_assoc] at is_log
    have is_last := List.append_inj_right' is_log rfl
    simp at is_last
    simp [← is_last] at uncleared

end Ehub.LostDoorbell
