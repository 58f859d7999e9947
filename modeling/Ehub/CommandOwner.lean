import Mathlib

/-!
Who owns an `xhci_command`. An operation allocates a command and hands it over to the
command ring with `queue_command`; when that fails the command is still the operation's
and has to be freed. The operations are programs of the few actions that matter
(`Proc`), run against whatever the allocator, `queue_command` and the controller answer
(`run`); `wp` gives the states from which a program stops well for all answers.

Where all commands are handed over, or the one that is not comes from a place that looks
at what `queue_command` returns, every command is accounted for whenever the operation
returns or waits. In the other places a rejected command is leaked, or waited for.
-/
namespace Ehub.CommandOwner

/-- `sent` is on `cmd_list`, or has been completed since; `woken` has been waited for. -/
inductive Place
  | held
  | sent
  | woken
  deriving DecidableEq

/-- A command with its `completion` and how often it has been freed here. -/
structure Command where
  place : Place
  completion : Bool
  frees : Nat

/-- The places that call `queue_command`. -/
inductive Site
  | urbDequeue
  | cleanupHaltedEndpoint
  | newDequeueState
  | stopDeviceEndpoint
  | stopDeviceLast
  | resetDevice
  | freeDev
  | enableSlot
  | allocDevDisableSlot
  | setupDevice
  | configureEndpoint
  | resetEpQuirk
  | necFirmware
  deriving DecidableEq

/-- What `queue_command` returns. -/
inductive Outcome
  | accepted
  | shutdown
  | noMemory

def Outcome.ret : Outcome → Int
  | .accepted => 0
  | .shutdown => -108
  | .noMemory => -12

/-- A program that works on commands. A choice stands for conditions on anything else. -/
inductive Proc
  | ret
  | alloc (completion : Bool) (next : Option Nat → Proc)
  | setCompletion (command : Nat) (completion : Bool) (next : Proc)
  | queue (site : Site) (command : Nat) (next : Outcome → Proc)
  | wait (command : Nat) (next : Nat → Proc)
  | free (command : Nat) (next : Proc)
  | choose (next : Bool → Proc)

/-- The commands of an operation, by number, and the places where one was rejected. -/
structure State where
  count : Nat
  command : Nat → Command
  rejected : List Site

namespace State

def initial : State := ⟨0, fun _ => ⟨.held, false, 0⟩, []⟩

def set (s : State) (c : Nat) (cmd : Command) : State := { s with command := Function.update s.command c cmd }

def add (s : State) (completion : Bool) : State := { s.set s.count ⟨.held, completion, 0⟩ with count := s.count + 1 }

def move (s : State) (c : Nat) (place : Place) : State := s.set c { s.command c with place }

def free (s : State) (c : Nat) : State := s.set c { s.command c with frees := (s.command c).frees + 1 }

/-- `queue_command` takes the command or leaves it. -/
def queue (s : State) (site : Site) (c : Nat) : Outcome → State
  | .accepted => s.move c .sent
  | _ => { s with rejected := s.rejected ++ [site] }

end State

/-- What the allocator, `queue_command`, the controller and everything else answer to the
    action with the given number; nothing for a command that does not complete. -/
structure Env where
  alloc : Nat → Bool
  queue : Nat → Outcome
  complete : Nat → Option Nat
  choice : Nat → Bool

/-- The program up to where it returns or waits, and for which command. A command that is
    not on the ring is waited for in vain. -/
def run (env : Env) : Proc → Nat → State → State × Option Nat
  | .ret, _, s => (s, none)
  | .alloc completion next, n, s =>
    if env.alloc n then run env (next (some s.count)) (n + 1) (s.add completion) else run env (next none) (n + 1) s
  | .setCompletion c completion next, n, s => run env next (n + 1) (s.set c { s.command c with completion })
  | .queue site c next, n, s => run env (next (env.queue n)) (n + 1) (s.queue site c (env.queue n))
  | .wait c next, n, s =>
    match env.complete n with
    | none => (s, some c)
    | some status => if (s.command c).place = .sent then run env (next status) (n + 1) (s.move c .woken) else (s, some c)
  | .free c next, n, s => run env next (n + 1) (s.free c)
  | .choose next, n, s => run env (next (env.choice n)) (n + 1) s

/-- From the state the program stops with `Q`, whatever is answered. -/
def wp (Q : State → Option Nat → Prop) : Proc → State → Prop
  | .ret, s => Q s none
  | .alloc completion next, s => wp Q (next none) s ∧ wp Q (next (some s.count)) (s.add completion)
  | .setCompletion c completion next, s => wp Q next (s.set c { s.command c with completion })
  | .queue site c next, s => ∀ outcome, wp Q (next outcome) (s.queue site c outcome)
  | .wait c next, s => Q s (some c) ∧ ((s.command c).place = .sent → ∀ status, wp Q (next status) (s.move c .woken))
  | .free c next, s => wp Q next (s.free c)
  | .choose next, s => ∀ choice, wp Q (next choice) s

theorem wp_run (env : Env) {Q : State → Option Nat → Prop} : ∀ (p : Proc) (n : Nat) (s : State), wp Q p s →
    Q (run env p n s).1 (run env p n s).2 := by
  intro p
  induction p with
  | ret => exact fun _ _ holds => holds
  | alloc completion next ih =>
    intro n s holds
    unfold run
    split_ifs
    · exact ih (some s.count) (n + 1) (s.add completion) holds.2
    · exact ih none (n + 1) s holds.1
  | setCompletion c completion next ih => exact fun n s holds => ih (n + 1) _ holds
  | queue site c next ih => exact fun n s holds => ih (env.queue n) (n + 1) _ (holds (env.queue n))
  | wait c next ih =>
    intro n s holds
    unfold run
    cases env.complete n with
    | none => exact holds.1
    | some status =>
      dsimp only
      split_ifs with sent
      · exact ih status (n + 1) _ (holds.2 sent status)
      · exact holds.1
  | free c next ih => exact fun n s holds => ih (n + 1) _ holds
  | choose next ih => exact fun n s holds => ih (env.choice n) (n + 1) s (holds (env.choice n))

/-! ### The operations -/

/-- `ehub_xhci_urb_dequeue`: not every cancellation comes to queueing a command. -/
def urbDequeue : Proc :=
  .choose fun first =>
    if !first then .ret
    else .alloc false fun
      | none => .ret
      | some command => .queue .urbDequeue command fun _ => .ret

/-- `ehub_xhci_queue_new_dequeue_state`. -/
def queueNewDequeueState : Proc :=
  .choose fun possible =>
    if !possible then .ret
    else .alloc false fun
      | none => .ret
      | some cmd => .queue .newDequeueState cmd fun outcome => if outcome.ret < 0 then .free cmd .ret else .ret

/-- `xhci_cleanup_halted_endpoint`, with `ehub_xhci_cleanup_stalled_ring` in it. -/
def cleanupHaltedEndpoint : Proc :=
  .alloc false fun
    | none => .ret
    | some command => .queue .cleanupHaltedEndpoint command fun _ =>
      .choose fun found => if !found then .ret else queueNewDequeueState

/-- The loop of `xhci_stop_device` over the endpoints that have a ring. -/
def stopEndpoints (cmd : Nat) (last : Proc) : Nat → Proc
  | 0 => last
  | i + 1 => .choose fun ring =>
    if !ring then stopEndpoints cmd last i
    else .alloc false fun
      | none => .free cmd .ret
      | some command => .queue .stopDeviceEndpoint command fun _ => stopEndpoints cmd last i

/-- `xhci_stop_device`. -/
def stopDevice : Proc :=
  .alloc true fun
    | none => .ret
    | some cmd => stopEndpoints cmd (.queue .stopDeviceLast cmd fun _ => .wait cmd fun _ => .free cmd .ret) 30

/-- `ehub_xhci_alloc_dev`. -/
def allocDev : Proc :=
  .alloc false fun
    | none => .ret
    | some command => .setCompletion command true <| .queue .enableSlot command fun outcome =>
      if outcome.ret ≠ 0 then .free command .ret
      else .wait command fun status => .choose fun slot =>
        if !slot ∨ status ≠ 1 then .free command .ret
        else .choose fun room =>
          if !room then .setCompletion command false (.queue .allocDevDisableSlot command fun _ => .ret)
          else .free command .ret

/-- `ehub_xhci_discover_or_reset_device`. -/
def discoverOrResetDevice : Proc :=
  .choose fun valid =>
    if !valid then .ret
    else .choose fun known =>
      if !known then allocDev
      else .choose fun enabled =>
        if !enabled then .ret
        else .alloc true fun
          | none => .ret
          | some cmd => .queue .resetDevice cmd fun outcome =>
            if outcome.ret ≠ 0 then .free cmd .ret else .wait cmd fun _ => .free cmd .ret

/-- `ehub_xhci_free_dev`. -/
def freeDev : Proc :=
  .alloc false fun
    | none => .ret
    | some command => .choose fun valid =>
      if !valid then .free command .ret
      else .choose fun dead =>
        if dead then .free command .ret
        else .queue .freeDev command fun _ => .ret

/-- `xhci_setup_device`. -/
def setupDevice : Proc :=
  .choose fun needed =>
    if !needed then .ret
    else .alloc false fun
      | none => .ret
      | some command => .setCompletion command true <| .choose fun context =>
        if !context then .free command .ret
        else .queue .setupDevice command fun outcome =>
          if outcome.ret ≠ 0 then .free command .ret else .wait command fun _ => .free command .ret

/-- `xhci_configure_endpoint`; the callers free the command. -/
def configureEndpoint (command : Nat) (next : Proc) : Proc :=
  .choose fun room =>
    if !room then next
    else .queue .configureEndpoint command fun outcome => if outcome.ret < 0 then next else .wait command fun _ => next

/-- A command for `xhci_configure_endpoint` that is freed afterwards. -/
def withConfigure : Proc :=
  .choose fun needed =>
    if !needed then .ret
    else .alloc true fun
      | none => .ret
      | some command => .choose fun ready =>
        if !ready then .free command .ret else configureEndpoint command (.free command .ret)

/-- `ehub_xhci_check_bandwidth`. -/
def checkBandwidth : Proc := withConfigure

/-- `xhci_check_maxpacket`. -/
def checkMaxpacket : Proc := withConfigure

/-- `ehub_xhci_update_hub_device`. -/
def updateHubDevice : Proc := withConfigure

/-- `xhci_handle_cmd_reset_ep` for hardware with the reset endpoint quirk. -/
def handleCmdResetEp : Proc :=
  .choose fun quirk =>
    if !quirk then .ret
    else .alloc false fun
      | none => .ret
      | some command => .queue .resetEpQuirk command fun _ => .ret

/-- `ehub_xhci_run`, which asks a NEC host for its firmware version. -/
def runHost : Proc :=
  .choose fun nec =>
    if !nec then .ret
    else .alloc false fun
      | none => .ret
      | some command => .queue .necFirmware command fun _ => .ret

inductive Operation
  | urbDequeue
  | cleanupHaltedEndpoint
  | queueNewDequeueState
  | stopDevice
  | discoverOrResetDevice
  | freeDev
  | allocDev
  | setupDevice
  | checkBandwidth
  | checkMaxpacket
  | updateHubDevice
  | handleCmdResetEp
  | runHost

def Operation.proc : Operation → Proc
  | .urbDequeue => CommandOwner.urbDequeue
  | .cleanupHaltedEndpoint => CommandOwner.cleanupHaltedEndpoint
  | .queueNewDequeueState => CommandOwner.queueNewDequeueState
  | .stopDevice => CommandOwner.stopDevice
  | .discoverOrResetDevice => CommandOwner.discoverOrResetDevice
  | .freeDev => CommandOwner.freeDev
  | .allocDev => CommandOwner.allocDev
  | .setupDevice => CommandOwner.setupDevice
  | .checkBandwidth => CommandOwner.checkBandwidth
  | .checkMaxpacket => CommandOwner.checkMaxpacket
  | .updateHubDevice => CommandOwner.updateHubDevice
  | .handleCmdResetEp => CommandOwner.handleCmdResetEp
  | .runHost => CommandOwner.runHost

/-- The command is on the ring and has not been freed, or it is not and has been freed
    once. -/
def Command.Owned (cmd : Command) : Prop :=
  match cmd.place with
  | .held => cmd.frees = 1
  | .sent => cmd.frees = 0
  | .woken => cmd.frees = 1

/-- Every command is accounted for where the operation has stopped, and the one it waits
    for is on the ring. -/
structure Kept (s : State) (waits : Option Nat) : Prop where
  owned : ∀ c < s.count, (s.command c).Owned
  waits : ∀ c, waits = some c → (s.command c).place = .sent

/-- The places that free a command which `queue_command` has rejected. -/
def Site.Frees : Site → Prop
  | .newDequeueState | .resetDevice | .enableSlot | .setupDevice | .configureEndpoint => True
  | _ => False

instance : DecidablePred Site.Frees := fun site => by cases site <;> unfold Site.Frees <;> infer_instance

/-- The commands are accounted for if and only if those rejected are freed. -/
def Exact (s : State) (waits : Option Nat) : Prop := Kept s waits ↔ ∀ site ∈ s.rejected, site.Frees

theorem kept_iff {s : State} {waits : Option Nat} :
    Kept s waits ↔ (∀ c < s.count, (s.command c).Owned) ∧ ∀ c, waits = some c → (s.command c).place = .sent :=
  ⟨fun kept => ⟨kept.owned, kept.waits⟩, fun ⟨owned, waits⟩ => ⟨owned, waits⟩⟩

attribute [local simp] Exact kept_iff State.initial State.set State.add State.move State.free State.queue Outcome.ret
  Command.Owned Site.Frees wp

theorem wp_urbDequeue : wp Exact urbDequeue .initial := by
  rintro (_ | _)
  · simp
  · refine ⟨by simp, fun outcome => ?_⟩
    cases outcome <;> simp

theorem wp_queueNewDequeueState : wp Exact queueNewDequeueState .initial := by
  rintro (_ | _)
  · simp
  · refine ⟨by simp, fun outcome => ?_⟩
    cases outcome <;> simp

theorem wp_allocDev : wp Exact allocDev .initial := by
  refine ⟨by simp, fun outcome => ?_⟩
  cases outcome with
  | accepted =>
    refine ⟨by simp, fun _ status => ?_⟩
    rintro (_ | _)
    · simp
    · by_cases ok : status = 1
      · simp only [ok]
        rintro (_ | _)
        · intro outcome
          cases outcome <;> simp
        · simp
      · simp [ok]
  | shutdown => simp
  | noMemory => simp

theorem exact_two {s : State} (two : s.count = 2)
    (both : (s.command 0).Owned ∧ (s.command 1).Owned ↔ ∀ site ∈ s.rejected, site.Frees) : Exact s none := by
  refine Iff.trans ⟨fun kept => ⟨kept.owned 0 (by omega), kept.owned 1 (by omega)⟩, ?_⟩ both
  rintro ⟨first, second⟩
  refine ⟨fun c small => ?_, by rintro c ⟨⟩⟩
  rcases (show c = 0 ∨ c = 1 by omega) with rfl | rfl
  · exact first
  · exact second

/-- When the Reset Endpoint command has been rejected, the other one does not help. -/
theorem wp_cleanupHaltedEndpoint : wp Exact cleanupHaltedEndpoint .initial := by
  refine ⟨by simp, fun outcome => ?_⟩
  rintro (_ | _)
  · cases outcome <;> simp
  · rintro (_ | _)
    · cases outcome <;> simp
    · refine ⟨by cases outcome <;> simp, fun second => ?_⟩
      cases outcome <;> cases second <;> exact exact_two rfl (by simp)

theorem wp_discoverOrResetDevice : wp Exact discoverOrResetDevice .initial := by
  rintro (_ | _)
  · simp
  · rintro (_ | _)
    · exact wp_allocDev
    · rintro (_ | _)
      · simp
      · refine ⟨by simp, fun outcome => ?_⟩
        cases outcome <;> simp

theorem wp_freeDev : wp Exact freeDev .initial := by
  refine ⟨by simp, ?_⟩
  rintro (_ | _)
  · simp
  · rintro (_ | _)
    · intro outcome
      cases outcome <;> simp
    · simp

theorem wp_setupDevice : wp Exact setupDevice .initial := by
  rintro (_ | _)
  · simp
  · refine ⟨by simp, ?_⟩
    rintro (_ | _)
    · simp
    · intro outcome
      cases outcome <;> simp

theorem wp_withConfigure : wp Exact withConfigure .initial := by
  rintro (_ | _)
  · simp
  · refine ⟨by simp, ?_⟩
    rintro (_ | _)
    · simp
    · rintro (_ | _)
      · simp
      · intro outcome
        cases outcome <;> simp

theorem wp_handleCmdResetEp : wp Exact handleCmdResetEp .initial := by
  rintro (_ | _)
  · simp
  · refine ⟨by simp, fun outcome => ?_⟩
    cases outcome <;> simp

theorem wp_runHost : wp Exact runHost .initial := by
  rintro (_ | _)
  · simp
  · refine ⟨by simp, fun outcome => ?_⟩
    cases outcome <;> simp

/-! ### Stopping a device -/

/-- In the loop: the last command is held, and those before it have been handed over
    unless one was rejected, which is lost. -/
structure Stopping (s : State) : Prop where
  some_command : 0 < s.count
  last : (s.command 0).place = .held ∧ (s.command 0).frees = 0
  lost : ∀ site ∈ s.rejected, ¬site.Frees
  others : s.rejected = [] → ∀ c < s.count, c ≠ 0 → (s.command c).place = .sent ∧ (s.command c).frees = 0
  leaked : s.rejected ≠ [] → ∃ c < s.count, c ≠ 0 ∧ (s.command c).place = .held ∧ (s.command c).frees = 0

theorem Command.owned_sent {cmd : Command} (sent : cmd.place = .sent ∧ cmd.frees = 0) : cmd.Owned := by
  unfold Command.Owned
  rw [sent.1]
  exact sent.2

theorem Command.not_owned_held {cmd : Command} (held : cmd.place = .held ∧ cmd.frees = 0) : ¬cmd.Owned := by
  unfold Command.Owned
  rw [held.1, held.2]
  exact Nat.zero_ne_one

/-- The commands are then accounted for if nothing was rejected and the last one is. -/
theorem Stopping.exact {s : State} (stopping : Stopping s) (s' : State) (count : s'.count = s.count) (rejected : s'.rejected = s.rejected)
    (same : ∀ c ≠ 0, s'.command c = s.command c) (waits : Option Nat) (last : (s'.command 0).Owned)
    (waited : ∀ c, waits = some c → (s'.command c).place = .sent) : Exact s' waits := by
  unfold Exact
  rw [rejected]
  constructor
  · intro kept site member
    obtain ⟨c, small, notLast, held⟩ := stopping.leaked (List.ne_nil_of_mem member)
    have owned := kept.owned c (count ▸ small)
    rw [same c notLast] at owned
    exact absurd owned (Command.not_owned_held held)
  · intro frees
    have none_rejected : s.rejected = [] := by
      by_contra some_rejected
      obtain ⟨site, member⟩ := List.exists_mem_of_ne_nil _ some_rejected
      exact stopping.lost site member (frees site member)
    refine ⟨fun c small => ?_, waited⟩
    by_cases isLast : c = 0
    · rw [isLast]
      exact last
    · rw [same c isLast]
      exact Command.owned_sent (stopping.others none_rejected c (count ▸ small) isLast)

theorem Stopping.send {s : State} (stopping : Stopping s) (outcome : Outcome) :
    Stopping ((s.add false).queue .stopDeviceEndpoint s.count outcome) := by
  have new : s.count ≠ 0 := Nat.ne_of_gt stopping.some_command
  have old : ∀ c < s.count, (s.add false).command c = s.command c := fun c small =>
    Function.update_of_ne (Nat.ne_of_lt small) _ _
  have added : (s.add false).command s.count = ⟨.held, false, 0⟩ := Function.update_self ..
  have kept : ∀ c < s.count, ((s.add false).move s.count .sent).command c = s.command c := fun c small =>
    (Function.update_of_ne (Nat.ne_of_lt small) _ _).trans (old c small)
  have moved : ((s.add false).move s.count .sent).command s.count = ⟨.sent, false, 0⟩ := by
    show Function.update _ s.count _ s.count = _
    rw [Function.update_self, added]
  cases outcome with
  | accepted =>
    show Stopping ((s.add false).move s.count .sent)
    refine ⟨Nat.succ_pos _, ?_, stopping.lost, ?_, ?_⟩
    · rw [kept 0 stopping.some_command]
      exact stopping.last
    · intro none_rejected c small notLast
      rcases Nat.lt_succ_iff_lt_or_eq.mp small with before | rfl
      · rw [kept c before]
        exact stopping.others none_rejected c before notLast
      · rw [moved]
        exact ⟨rfl, rfl⟩
    · intro some_rejected
      obtain ⟨c, small, notLast, held⟩ := stopping.leaked some_rejected
      refine ⟨c, Nat.lt_succ_of_lt small, notLast, ?_⟩
      rw [kept c small]
      exact held
  | shutdown | noMemory =>
    show Stopping { s.add false with rejected := s.rejected ++ [.stopDeviceEndpoint] }
    refine ⟨Nat.succ_pos _, ?_, ?_, fun none_rejected => absurd none_rejected (by simp), fun _ => ?_⟩
    · rw [old 0 stopping.some_command]
      exact stopping.last
    · intro site member
      rcases List.mem_append.mp member with before | now
      · exact stopping.lost site before
      · cases List.mem_singleton.mp now
        exact id
    · refine ⟨s.count, Nat.lt_succ_self _, new, ?_⟩
      rw [added]
      exact ⟨rfl, rfl⟩

/-- The last command is rejected: it is waited for all the same. -/
theorem Stopping.waits {s : State} (stopping : Stopping s) :
    Exact { s with rejected := s.rejected ++ [.stopDeviceLast] } (some 0) := by
  constructor
  · intro kept
    have sent : (s.command 0).place = .sent := kept.waits 0 rfl
    rw [stopping.last.1] at sent
    cases sent
  · intro frees
    exact (frees .stopDeviceLast (by simp)).elim

theorem Stopping.loop : ∀ (i : Nat) {s : State}, Stopping s →
    wp Exact (stopEndpoints 0 (.queue .stopDeviceLast 0 fun _ => .wait 0 fun _ => .free 0 .ret) i) s := by
  intro i
  induction i with
  | zero =>
    intro s stopping outcome
    cases outcome with
    | accepted =>
      constructor
      · refine stopping.exact (s.move 0 .sent) rfl rfl (fun c notLast => Function.update_of_ne notLast _ _) _ ?_ ?_
        · exact Command.owned_sent (by simp [stopping.last.2])
        · rintro c ⟨⟩
          simp
      · intro _ status
        refine stopping.exact (((s.move 0 .sent).move 0 .woken).free 0) rfl rfl (fun c notLast => ?_) _ ?_ ?_
        · simp [notLast]
        · simp [stopping.last.2]
        · rintro c ⟨⟩
    | shutdown | noMemory =>
      refine ⟨stopping.waits, fun sent => ?_⟩
      exact absurd (stopping.last.1.symm.trans sent) (by decide)
  | succ i ih =>
    rintro s stopping (_ | _)
    · exact ih stopping
    · refine ⟨?_, fun outcome => ih (stopping.send outcome)⟩
      -- There is no memory for the next command, and the last one is freed.
      refine stopping.exact (s.free 0) rfl rfl (fun c notLast => Function.update_of_ne notLast _ _) _ ?_ ?_
      · simp [stopping.last.1, stopping.last.2]
      · rintro c ⟨⟩

theorem wp_stopDevice : wp Exact stopDevice .initial := by
  refine ⟨by simp, Stopping.loop 30 ?_⟩
  refine ⟨Nat.one_pos, ⟨rfl, rfl⟩, ?_, ?_, fun some_rejected => absurd rfl some_rejected⟩
  · rintro site ⟨⟩
  · intro _ c small notLast
    exact absurd (Nat.lt_one_iff.mp small) notLast

/-- For every operation and all answers: where it has stopped, every command is on the
    ring or was freed once, and it waits for none that is not, if and only if no command
    was rejected in one of the places that do not free it. -/
theorem commands_owned_iff (op : Operation) (env : Env) :
    Kept (run env op.proc 0 .initial).1 (run env op.proc 0 .initial).2 ↔
      ∀ site ∈ (run env op.proc 0 .initial).1.rejected, site.Frees := by
  refine wp_run (Q := Exact) env op.proc 0 .initial ?_
  cases op with
  | urbDequeue => exact wp_urbDequeue
  | cleanupHaltedEndpoint => exact wp_cleanupHaltedEndpoint
  | queueNewDequeueState => exact wp_queueNewDequeueState
  | stopDevice => exact wp_stopDevice
  | discoverOrResetDevice => exact wp_discoverOrResetDevice
  | freeDev => exact wp_freeDev
  | allocDev => exact wp_allocDev
  | setupDevice => exact wp_setupDevice
  | checkBandwidth => exact wp_withConfigure
  | checkMaxpacket => exact wp_withConfigure
  | updateHubDevice => exact wp_withConfigure
  | handleCmdResetEp => exact wp_handleCmdResetEp
  | runHost => exact wp_runHost

/-- A device without further endpoints is stopped while the host is dying. -/
def dyingHost : Env := ⟨fun _ => true, fun _ => .shutdown, fun _ => some 1, fun _ => false⟩

theorem not_commands_owned : ¬∀ op env, Kept (run env (Operation.proc op) 0 .initial).1 (run env op.proc 0 .initial).2 := by
  intro always
  have sent := (always .stopDevice dyingHost).waits 0 (by decide +kernel)
  revert sent
  decide +kernel

end Ehub.CommandOwner
