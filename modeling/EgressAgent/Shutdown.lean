import Mathlib.Logic.Function.Basic
import EgressAgent.Lib.System
import EgressAgent.BackendClient

/-!
# The graceful shutdown

`_trigger_graceful_shutdown` and the signal handler that
`register_signal_handlers` installs. A call that wins the try-lock runs the
cleanup, which is `notify_shutdown` followed by `stop()`; what it does is
recorded as a list of events. Calls are made by any thread and, on the main
thread, by signal handlers that may interrupt one another. Calls of the main
thread are on a stack, of which only the top one moves; the other calls move
freely, also after the main thread has left. The lock is never released. The
`stop()` of a component is taken not to raise.

1. `cleanupAt_step`: the events of one cleanup, control point by control point.
2. `shutdown_before_exit`: the shutdown is entered at most once and the handler
   exits after a complete cleanup, in every run in which no handler loses the
   try-lock to a cleanup that is not finished. `losing_handler_exits`: one that
   does exits before the cleanup is finished.
-/

namespace EgressAgent

open Py Transition
open BackendClient (Attempt)

namespace Shutdown

/-! ## The cleanup -/

/-- What `stop()` stops, before the logs service. -/
inductive Component
  | opsRunner
  | resultsPublisher
  | operationsPoller
  | metricsTimer
  | eventsClient
  | logsSender
deriving DecidableEq

/-- The configuration that decides what `stop()` does. `logsService` is `none`
where there is none, and otherwise whether the service supports drain. -/
structure ShutdownConfig where
  metricsTimer : Bool
  sseEnabled : Bool
  logsSender : Bool
  logsService : Option Bool

/-- The components, in the order of `stop()`. -/
def ShutdownConfig.components (cfg : ShutdownConfig) : List Component :=
  [.opsRunner, .resultsPublisher, .operationsPoller] ++
    (if cfg.metricsTimer then [.metricsTimer] else []) ++
    (if cfg.sseEnabled then [.eventsClient] else []) ++
    if cfg.logsSender then [.logsSender] else []

inductive CleanupEvent
  | notifyEntered
  | notifyReturned (a : Attempt)
  | stopEntered
  | stopped (c : Component)
  | drained (logs : Except PyExc (List PyVal))
  | closed (r : Except PyExc Unit)
  | posted (logs : List PyVal) (a : Attempt)

/-- The control points of `_trigger_graceful_shutdown` once it holds the lock,
with those of `stop()` and `_stop_logs_service`. -/
inductive CleanupPc
  | notify
  /-- inside `notify_shutdown` -/
  | notifying
  | stop
  /-- inside `stop()`, before the components `rest` -/
  | stopping (rest : List Component)
  | drainLogs
  | closeLogs (pendingLogs : List PyVal)
  | postLogs (pendingLogs : List PyVal)
  /-- `os.kill` -/
  | kill
  | finished

/-- The outcome of a call that the cleanup makes. -/
inductive CleanupInput
  | go
  | notified (a : Attempt)
  | drained (logs : Except PyExc (List PyVal))
  | closed (r : Except PyExc Unit)
  | posted (a : Attempt)

/-- The start of `_stop_logs_service`. -/
def stopLogsService (cfg : ShutdownConfig) : CleanupPc :=
  match cfg.logsService with
  | none => .kill
  | some supportsDrain => if supportsDrain then .drainLogs else .closeLogs []

/-- A drain that raises leaves no logs to post. -/
def drainedLogs : Except PyExc (List PyVal) → List PyVal
  | .ok logs => logs
  | .error _ => []

/-- After `close()`, whatever its outcome. -/
def afterClose (pendingLogs : List PyVal) : CleanupPc :=
  if pendingLogs.isEmpty then .kill else .postLogs pendingLogs

/-- One step of the cleanup, with the events it records. An exception of
`notify_shutdown`, `drain`, `close` or the POST is logged and goes no further. -/
def cleanupStep (cfg : ShutdownConfig) : CleanupPc → CleanupInput → Option (CleanupPc × List CleanupEvent)
  | .notify, .go => some (.notifying, [.notifyEntered])
  | .notifying, .notified a => some (.stop, [.notifyReturned a])
  | .stop, .go => some (.stopping cfg.components, [.stopEntered])
  | .stopping (c :: rest), .go => some (.stopping rest, [.stopped c])
  | .stopping [], .go => some (stopLogsService cfg, [])
  | .drainLogs, .drained logs => some (.closeLogs (drainedLogs logs), [.drained logs])
  | .closeLogs pendingLogs, .closed r => some (afterClose pendingLogs, [.closed r])
  | .postLogs pendingLogs, .posted a => some (.kill, [.posted pendingLogs a])
  -- The signal that `os.kill` sends is an action of its own.
  | .kill, .go => some (.finished, [])
  | _, _ => none

/-- The notification was attempted, every component stopped and the logs
drained, closed and posted. -/
def CleanupPc.cleaned : CleanupPc → Bool
  | .kill => true
  | .finished => true
  | _ => false

/-! ## The calls -/

/-- The control points of a call of `_trigger_graceful_shutdown`. -/
inductive CallPc
  /-- `self._shutdown_lock.acquire(blocking=False)` -/
  | acquire
  | cleaning (pc : CleanupPc)
  /-- the lock was taken and the call has returned -/
  | lost

/-- The call has returned. -/
def CallPc.returned : CallPc → Bool
  | .lost => true
  | .cleaning .finished => true
  | _ => false

structure State where
  /-- `_shutdown_lock` is held -/
  locked : Bool
  calls : Nat → Option CallPc
  nextCall : Nat
  /-- The calls on the stack of the main thread, innermost first, each with
  whether a signal handler made it. -/
  main : List (Nat × Bool)
  /-- a signal handler has executed `sys.exit(0)` -/
  exited : Bool
  log : List CleanupEvent

inductive Action
  /-- a goodbye event or a direct call on a thread other than the main thread -/
  | triggerElsewhere
  /-- a direct call on the main thread -/
  | triggerOnMain
  /-- SIGTERM or SIGINT reaches the main thread -/
  | signal
  | call (k : Nat) (i : CleanupInput)
  /-- the innermost call of the main thread has returned: its handler exits, a
  direct call is over -/
  | mainReturns

namespace State

def setCall (s : State) (k : Nat) (pc : CallPc) : State :=
  { s with calls := Function.update s.calls k (some pc) }

theorem setCall_self {s : State} {k : Nat} {pc : CallPc} : (s.setCall k pc).calls k = some pc :=
  Function.update_self ..

theorem setCall_of_ne {s : State} {k k' : Nat} {pc : CallPc} (h : k' ≠ k) :
    (s.setCall k pc).calls k' = s.calls k' :=
  Function.update_of_ne h _ _

/-- A new call, before its try-lock. -/
def newCall (s : State) : State := { s.setCall s.nextCall .acquire with nextCall := s.nextCall + 1 }

/-- The call `k` can move: it belongs to another thread, or it is the innermost
one of a main thread that has not left. -/
def canMove (s : State) (k : Nat) : Bool :=
  if (s.main.map Prod.fst).contains k then !s.exited && (s.main.head?.map Prod.fst == some k) else true

end State

/-- One step of a call. -/
def callStep (cfg : ShutdownConfig) (s : State) (k : Nat) : CallPc → CleanupInput → Option State
  -- The try-lock says nothing about the cleanup of the call that holds it.
  | .acquire, .go =>
      if s.locked then some (s.setCall k .lost)
      else some ({ s with locked := true }.setCall k (.cleaning .notify))
  | .cleaning pc, i =>
      (cleanupStep cfg pc i).map fun (pc', events) =>
        { s with log := s.log ++ events }.setCall k (.cleaning pc')
  | _, _ => none

def step (cfg : ShutdownConfig) (s : State) : Action → Option State
  | .triggerElsewhere => some s.newCall
  | .triggerOnMain =>
      if s.main.isEmpty && !s.exited then some { s.newCall with main := [(s.nextCall, false)] }
      else none
  | .signal =>
      if s.exited then none else some { s.newCall with main := (s.nextCall, true) :: s.main }
  | .call k i =>
      if s.canMove k then (s.calls k).bind fun pc => callStep cfg s k pc i else none
  | .mainReturns =>
      match s.exited, s.main with
      | false, (k, fromHandler) :: rest =>
          if (s.calls k).any CallPc.returned then
            some (if fromHandler then { s with exited := true } else { s with main := rest })
          else none
      | _, _ => none

/-- The service with its signal handlers registered. -/
def shutdown (cfg : ShutdownConfig) : System State Action where
  init :=
    { locked := false, calls := fun _ => none, nextCall := 0, main := [], exited := false, log := [] }
  step := step cfg

end Shutdown

open Shutdown

/-! ## 1. The events of one cleanup -/

/-- What the calls of a cleanup return or raise. -/
structure CleanupOutcomes where
  notify : Attempt
  drain : Except PyExc (List PyVal)
  close : Except PyExc Unit
  post : Attempt

section Trace

variable (cfg : ShutdownConfig) (o : CleanupOutcomes)

/-- The notification and the stop of every component. -/
def stopTrace : List CleanupEvent :=
  .notifyEntered :: .notifyReturned o.notify :: .stopEntered :: cfg.components.map .stopped

def drainTrace : List CleanupEvent :=
  if cfg.logsService = some true then [.drained o.drain] else []

def pendingLogs : List PyVal :=
  if cfg.logsService = some true then drainedLogs o.drain else []

def postTrace : List CleanupEvent :=
  if (pendingLogs cfg o).isEmpty then [] else [.posted (pendingLogs cfg o) o.post]

/-- The events of a cleanup that has run to its end: the shutdown notification,
every component, and the drain, close and POST of the logs. -/
def cleanupTrace : List CleanupEvent :=
  stopTrace cfg o ++
    if cfg.logsService.isSome then drainTrace cfg o ++ .closed o.close :: postTrace cfg o else []

/-- The events of a cleanup that has come to a control point. -/
inductive CleanupAt : CleanupPc → List CleanupEvent → Prop
  | notify : CleanupAt .notify []
  | notifying : CleanupAt .notifying [.notifyEntered]
  | stop : CleanupAt .stop [.notifyEntered, .notifyReturned o.notify]
  | stopping {done rest : List Component} : done ++ rest = cfg.components →
      CleanupAt (.stopping rest)
        (.notifyEntered :: .notifyReturned o.notify :: .stopEntered :: done.map .stopped)
  | drainLogs : cfg.logsService = some true → CleanupAt .drainLogs (stopTrace cfg o)
  | closeLogs : cfg.logsService.isSome = true →
      CleanupAt (.closeLogs (pendingLogs cfg o)) (stopTrace cfg o ++ drainTrace cfg o)
  | postLogs : cfg.logsService.isSome = true → (pendingLogs cfg o).isEmpty = false →
      CleanupAt (.postLogs (pendingLogs cfg o))
        (stopTrace cfg o ++ (drainTrace cfg o ++ [.closed o.close]))
  | kill : CleanupAt .kill (cleanupTrace cfg o)
  | finished : CleanupAt .finished (cleanupTrace cfg o)

end Trace

namespace ShutdownLemmas

variable {cfg : ShutdownConfig} {o : CleanupOutcomes} {log : List CleanupEvent}

/-- The cleanup after the last component. -/
theorem cleanupAt_stopLogsService (o : CleanupOutcomes) :
    CleanupAt cfg o (stopLogsService cfg) (stopTrace cfg o) := by
  cases hl : cfg.logsService with
  | none =>
    have hend : stopTrace cfg o = cleanupTrace cfg o := by simp [cleanupTrace, hl]
    rw [stopLogsService, hl, hend]
    exact .kill
  | some supportsDrain =>
    cases supportsDrain with
    | true =>
      rw [stopLogsService, hl]
      exact .drainLogs hl
    | false =>
      have hclose : CleanupAt cfg o _ _ := .closeLogs (by simp [hl])
      simpa [stopLogsService, hl, pendingLogs, drainTrace] using hclose

/-- The cleanup after the logs service was closed. -/
theorem cleanupAt_afterClose (hl : cfg.logsService.isSome = true) :
    CleanupAt cfg o (afterClose (pendingLogs cfg o))
      (stopTrace cfg o ++ (drainTrace cfg o ++ [.closed o.close])) := by
  cases he : (pendingLogs cfg o).isEmpty with
  | true =>
    have hend : stopTrace cfg o ++ (drainTrace cfg o ++ [.closed o.close]) = cleanupTrace cfg o := by
      simp [cleanupTrace, hl, postTrace, he]
    rw [afterClose, he, hend]
    exact .kill
  | false =>
    rw [afterClose, he]
    exact .postLogs hl he

end ShutdownLemmas

open ShutdownLemmas

/-- A step of the cleanup keeps its events those of the control point. What a
call returns is known once it has returned. -/
theorem cleanupAt_step {cfg : ShutdownConfig} {o : CleanupOutcomes} {pc pc' : CleanupPc}
    {i : CleanupInput} {log events : List CleanupEvent} (h : CleanupAt cfg o pc log)
    (hs : cleanupStep cfg pc i = some (pc', events)) :
    ∃ o', CleanupAt cfg o' pc' (log ++ events) := by
  cases h with
  | notify =>
    cases i <;> cases hs
    exact ⟨o, .notifying⟩
  | notifying =>
    cases i <;> cases hs
    next a => exact ⟨{ o with notify := a }, .stop⟩
  | stop =>
    cases i <;> cases hs
    exact ⟨o, @CleanupAt.stopping cfg o [] _ rfl⟩
  | @stopping done rest hd =>
    cases rest with
    | nil =>
      cases i <;> cases hs
      rw [List.append_nil] at hd
      rw [List.append_nil, hd]
      exact ⟨o, cleanupAt_stopLogsService o⟩
    | cons c rest =>
      cases i <;> cases hs
      have hdone := @CleanupAt.stopping cfg o (done ++ [c]) rest (by simpa using hd)
      exact ⟨o, by simpa using hdone⟩
  | drainLogs hl =>
    cases i <;> cases hs
    next logs =>
      have hclose : CleanupAt cfg { o with drain := logs } _ _ := .closeLogs (by simp [hl])
      exact ⟨{ o with drain := logs }, by simpa [pendingLogs, drainTrace, hl, stopTrace] using hclose⟩
  | closeLogs hl =>
    cases i <;> cases hs
    next r =>
      rw [List.append_assoc]
      exact ⟨{ o with close := r }, cleanupAt_afterClose hl⟩
  | postLogs hl he =>
    cases i <;> cases hs
    next a =>
      have hpost : postTrace cfg { o with post := a } = [.posted (pendingLogs cfg o) a] := by
        have hp : pendingLogs cfg { o with post := a } = pendingLogs cfg o := rfl
        simp [postTrace, hp, he]
      have hend : stopTrace cfg o ++ (drainTrace cfg o ++ [.closed o.close]) ++
          [.posted (pendingLogs cfg o) a] = cleanupTrace cfg { o with post := a } := by
        rw [cleanupTrace, if_pos hl, hpost, List.append_assoc, List.append_assoc]
        rfl
      rw [hend]
      exact ⟨_, .kill⟩
  | kill =>
    cases i <;> cases hs
    rw [List.append_nil]
    exact ⟨o, .finished⟩
  | finished => cases i <;> cases hs

/-! ## 2. The handler exits after the cleanup -/

/-- What a step can do. -/
inductive Shutdown.Move (cfg : ShutdownConfig) (s : State) : Action → State → Prop
  | elsewhere : Move cfg s .triggerElsewhere s.newCall
  | onMain : s.main = [] → s.exited = false →
      Move cfg s .triggerOnMain { s.newCall with main := [(s.nextCall, false)] }
  | signal : s.exited = false →
      Move cfg s .signal { s.newCall with main := (s.nextCall, true) :: s.main }
  | lose {k : Nat} : s.calls k = some .acquire → s.locked = true →
      Move cfg s (.call k .go) (s.setCall k .lost)
  | win {k : Nat} : s.calls k = some .acquire → s.locked = false →
      Move cfg s (.call k .go) ({ s with locked := true }.setCall k (.cleaning .notify))
  | clean {k : Nat} {i : CleanupInput} {pc pc' : CleanupPc} {events : List CleanupEvent} :
      s.calls k = some (.cleaning pc) → cleanupStep cfg pc i = some (pc', events) →
      Move cfg s (.call k i) ({ s with log := s.log ++ events }.setCall k (.cleaning pc'))
  | exits {k : Nat} {pc : CallPc} {rest : List (Nat × Bool)} : s.exited = false →
      s.main = (k, true) :: rest → s.calls k = some pc → pc.returned = true →
      Move cfg s .mainReturns { s with exited := true }
  | resumes {k : Nat} {rest : List (Nat × Bool)} : s.exited = false →
      s.main = (k, false) :: rest → Move cfg s .mainReturns { s with main := rest }

/-- Some call has run the cleanup to its end. -/
def CleanedUp (s : State) : Prop :=
  ∃ k pc, s.calls k = some (.cleaning pc) ∧ pc.cleaned = true

/-- No signal handler loses the try-lock while the cleanup is not finished. -/
def WaitsForCleanup (s : State) (a : Action) : Prop :=
  ∀ k, a = .call k .go → s.calls k = some .acquire → (k, true) ∈ s.main → s.locked = true →
    CleanedUp s

namespace ShutdownLemmas

variable {cfg : ShutdownConfig} {s s' : State} {a : Action}

theorem step_move (hs : step cfg s a = some s') : Move cfg s a s' := by
  cases a with
  | triggerElsewhere =>
    cases hs
    exact .elsewhere
  | triggerOnMain =>
    simp only [step, Bool.and_eq_true, List.isEmpty_iff, Bool.not_eq_true',
      Option.ite_none_right_eq_some, Option.some.injEq] at hs
    obtain ⟨⟨hm, he⟩, rfl⟩ := hs
    exact .onMain hm he
  | signal =>
    simp only [step, Option.ite_none_left_eq_some, Option.some.injEq, Bool.not_eq_true] at hs
    obtain ⟨he, rfl⟩ := hs
    exact .signal he
  | call k i =>
    simp only [step, Option.ite_none_right_eq_some] at hs
    obtain ⟨_, hs⟩ := hs
    obtain ⟨pc, hpc, hs⟩ := Option.bind_eq_some_iff.mp hs
    unfold callStep at hs
    split at hs
    · split at hs <;> cases hs
      · next hl => exact .lose hpc hl
      · next hl => exact .win hpc (by simpa using hl)
    · obtain ⟨⟨pc', events⟩, hc, rfl⟩ := Option.map_eq_some_iff.mp hs
      exact .clean hpc hc
    · cases hs
  | mainReturns =>
    simp only [step] at hs
    split at hs
    · next k fromHandler rest he hm =>
      simp only [Option.ite_none_right_eq_some, Option.some.injEq] at hs
      obtain ⟨hr, rfl⟩ := hs
      obtain ⟨pc, hpc, hret⟩ := (Option.any_eq_true ..).mp hr
      cases fromHandler
      · exact .resumes he hm
      · exact .exits he hm hpc hret
    · cases hs

/-- A call that does not run the cleanup moves to a control point outside it. -/
theorem cleaning_setCall {k k' : Nat} {pc : CallPc} {c : CleanupPc}
    (hk : ∀ c, s.calls k ≠ some (.cleaning c)) (hpc : ∀ c, pc ≠ .cleaning c) :
    (s.setCall k pc).calls k' = some (.cleaning c) ↔ s.calls k' = some (.cleaning c) := by
  by_cases h : k' = k
  · subst h
    rw [State.setCall_self]
    exact ⟨fun h => absurd (Option.some.inj h) (hpc c), fun h => absurd h (hk c)⟩
  · rw [State.setCall_of_ne h]

/-- Whose cleanup it is: while the lock is free nothing was done, afterwards one
call is in the cleanup and the events are its own. -/
structure LockInv (cfg : ShutdownConfig) (s : State) : Prop where
  fresh : ∀ k pc, s.calls k = some pc → k < s.nextCall
  free : s.locked = false → s.log = [] ∧ ∀ k c, s.calls k ≠ some (.cleaning c)
  held : s.locked = true → ∃ k c o, s.calls k = some (.cleaning c) ∧ CleanupAt cfg o c s.log ∧
    ∀ k' c', s.calls k' = some (.cleaning c') → k' = k

theorem LockInv.new_not_cleaning (hi : LockInv cfg s) (c : CleanupPc) :
    s.calls s.nextCall ≠ some (.cleaning c) :=
  fun h => Nat.lt_irrefl _ (hi.fresh _ _ h)

/-- A step that leaves the lock, the events and the cleanup alone. -/
theorem LockInv.congr (hi : LockInv cfg s) (hfresh : ∀ k pc, s'.calls k = some pc → k < s'.nextCall)
    (hlocked : s'.locked = s.locked) (hlog : s'.log = s.log)
    (hcalls : ∀ k c, s'.calls k = some (.cleaning c) ↔ s.calls k = some (.cleaning c)) :
    LockInv cfg s' where
  fresh := hfresh
  free h := by
    obtain ⟨hl, hc⟩ := hi.free (hlocked ▸ h)
    exact ⟨hlog.trans hl, fun k c hk => hc k c ((hcalls k c).mp hk)⟩
  held h := by
    obtain ⟨k, c, o, hk, hat, huniq⟩ := hi.held (hlocked ▸ h)
    exact ⟨k, c, o, (hcalls k c).mpr hk, hlog ▸ hat, fun k' c' h' => huniq k' c' ((hcalls _ _).mp h')⟩

theorem LockInv.cleaning_newCall (hi : LockInv cfg s) (k : Nat) (c : CleanupPc) :
    s.newCall.calls k = some (.cleaning c) ↔ s.calls k = some (.cleaning c) := by
  have hnew : ∀ c, CallPc.acquire ≠ .cleaning c := by simp
  exact cleaning_setCall hi.new_not_cleaning hnew

theorem cleaning_lost {k : Nat} (hk : s.calls k = some .acquire) (k' : Nat) (c : CleanupPc) :
    (s.setCall k .lost).calls k' = some (.cleaning c) ↔ s.calls k' = some (.cleaning c) := by
  have hold : ∀ c, s.calls k ≠ some (.cleaning c) := by simp [hk]
  have hnew : ∀ c, CallPc.lost ≠ .cleaning c := by simp
  exact cleaning_setCall hold hnew

theorem LockInv.newCall (hi : LockInv cfg s) : LockInv cfg s.newCall :=
  hi.congr (update_thread (fun k pc h => Nat.lt_succ_of_lt (hi.fresh k pc h)) (Nat.lt_succ_self _)) rfl rfl
    hi.cleaning_newCall

theorem lockInv_step (hi : LockInv cfg s) (hs : Move cfg s a s') : LockInv cfg s' := by
  cases hs with
  | elsewhere => exact hi.newCall
  | onMain => exact ⟨hi.newCall.fresh, hi.newCall.free, hi.newCall.held⟩
  | signal => exact ⟨hi.newCall.fresh, hi.newCall.free, hi.newCall.held⟩
  | @lose k hk =>
    exact hi.congr (update_thread hi.fresh (hi.fresh _ _ hk)) rfl rfl (cleaning_lost hk)
  | @win k hk hfree =>
    obtain ⟨hlog, hnone⟩ := hi.free hfree
    refine ⟨update_thread hi.fresh (hi.fresh _ _ hk), nofun, fun _ => ?_⟩
    refine ⟨k, .notify, ⟨.otherError ⟨"", ""⟩, .ok [], .ok (), .otherError ⟨"", ""⟩⟩,
      Function.update_self .., ?_, fun k' c' h' => ?_⟩
    · exact hlog ▸ .notify
    · by_contra hne
      exact hnone k' c' ((State.setCall_of_ne hne).symm.trans h')
  | @clean k i pc pc' events hk hc =>
    have hheld : s.locked = true := by
      by_contra hfree
      exact (hi.free (by simpa using hfree)).2 k pc hk
    obtain ⟨k₀, c, o, hk₀, hat, huniq⟩ := hi.held hheld
    have hkk : k = k₀ := huniq k pc hk
    subst hkk
    rw [hk, Option.some.injEq, CallPc.cleaning.injEq] at hk₀
    subst hk₀
    obtain ⟨o', hat'⟩ := cleanupAt_step hat hc
    have hstill : ({ s with log := s.log ++ events }.setCall k (.cleaning pc')).locked ≠ false :=
      fun h => Bool.false_ne_true (h.symm.trans hheld)
    refine ⟨update_thread hi.fresh (hi.fresh _ _ hk), fun h => absurd h hstill, fun _ => ?_⟩
    refine ⟨k, pc', o', Function.update_self .., hat', fun k' c' h' => ?_⟩
    by_contra hne
    exact hne (huniq k' c' ((State.setCall_of_ne hne).symm.trans h'))
  | exits => exact ⟨hi.fresh, hi.free, hi.held⟩
  | resumes => exact ⟨hi.fresh, hi.free, hi.held⟩

theorem lockInv {ok : State → Action → Prop} (h : (shutdown cfg).ReachableWhere ok s) :
    LockInv cfg s := by
  refine h.invariant ?_ ?_
  · exact ⟨nofun, fun _ => ⟨rfl, nofun⟩, nofun⟩
  · exact fun s a s' hi _ hs => lockInv_step hi (step_move hs)

theorem cleaned_step {pc pc' : CleanupPc} {i : CleanupInput} {events : List CleanupEvent}
    (hs : cleanupStep cfg pc i = some (pc', events)) (hc : pc.cleaned = true) :
    pc'.cleaned = true := by
  cases pc <;> cases hc <;> cases i <;> cases hs
  rfl

/-- A finished cleanup stays finished. -/
theorem cleanedUp_step (hi : LockInv cfg s) (hc : CleanedUp s) (hs : Move cfg s a s') :
    CleanedUp s' := by
  obtain ⟨k₀, c, hk₀, hcleaned⟩ := hc
  have hnew : CleanedUp s.newCall :=
    ⟨k₀, c, (hi.cleaning_newCall k₀ c).mpr hk₀, hcleaned⟩
  cases hs with
  | elsewhere => exact hnew
  | onMain => exact hnew
  | signal => exact hnew
  | lose hk => exact ⟨k₀, c, (cleaning_lost hk k₀ c).mpr hk₀, hcleaned⟩
  | win _ hfree => exact absurd hk₀ ((hi.free hfree).2 k₀ c)
  | @clean k _ pc pc' _ hk hstep =>
    by_cases h : k₀ = k
    · subst h
      rw [hk, Option.some.injEq, CallPc.cleaning.injEq] at hk₀
      exact ⟨k₀, pc', Function.update_self .., cleaned_step hstep (hk₀ ▸ hcleaned)⟩
    · exact ⟨k₀, c, (State.setCall_of_ne h).trans hk₀, hcleaned⟩
  | exits => exact ⟨k₀, c, hk₀, hcleaned⟩
  | resumes => exact ⟨k₀, c, hk₀, hcleaned⟩

/-- Handlers return only to a finished cleanup. -/
structure HandlerInv (s : State) : Prop where
  handlers : ∀ k pc, (k, true) ∈ s.main → s.calls k = some pc → pc.returned = true → CleanedUp s
  exited : s.exited = true → CleanedUp s

theorem newCall_returned {k : Nat} {pc : CallPc} (h : s.newCall.calls k = some pc)
    (hr : pc.returned = true) : k ≠ s.nextCall ∧ s.calls k = some pc := by
  by_cases hk : k = s.nextCall
  · subst hk
    have hnew : s.newCall.calls s.nextCall = some .acquire := Function.update_self ..
    rw [hnew, Option.some.injEq] at h
    subst h
    cases hr
  · exact ⟨hk, (State.setCall_of_ne hk).symm.trans h⟩

theorem handlerInv_step (hl : LockInv cfg s) (hi : HandlerInv s) (hok : WaitsForCleanup s a)
    (hs : Move cfg s a s') : HandlerInv s' := by
  have hkeep : CleanedUp s → CleanedUp s' := fun h => cleanedUp_step hl h hs
  cases hs with
  | elsewhere =>
    refine ⟨fun k pc hm hk hr => hkeep ?_, fun he => hkeep (hi.exited he)⟩
    exact hi.handlers k pc hm (newCall_returned hk hr).2 hr
  | onMain => exact ⟨fun k pc hm => by simp at hm, fun he => hkeep (hi.exited he)⟩
  | signal =>
    refine ⟨fun k pc hm hk hr => hkeep ?_, fun he => hkeep (hi.exited he)⟩
    obtain ⟨hne, hk⟩ := newCall_returned hk hr
    have hold : (k, true) ∈ s.main := by simpa [hne] using hm
    exact hi.handlers k pc hold hk hr
  | @lose k₀ hk₀ hlocked =>
    refine ⟨fun k pc hm hk hr => hkeep ?_, fun he => hkeep (hi.exited he)⟩
    by_cases h : k = k₀
    · subst h
      exact hok k rfl hk₀ hm hlocked
    · exact hi.handlers k pc hm ((State.setCall_of_ne h).symm.trans hk) hr
  | @win k₀ _ _ =>
    refine ⟨fun k pc hm hk hr => hkeep ?_, fun he => hkeep (hi.exited he)⟩
    by_cases h : k = k₀
    · subst h
      obtain rfl : CallPc.cleaning .notify = pc := Option.some.inj (State.setCall_self.symm.trans hk)
      cases hr
    · exact hi.handlers k pc hm ((State.setCall_of_ne h).symm.trans hk) hr
  | @clean k₀ _ pc₀ pc' _ _ _ =>
    refine ⟨fun k pc hm hk hr => ?_, fun he => hkeep (hi.exited he)⟩
    by_cases h : k = k₀
    · subst h
      refine ⟨k, pc', Function.update_self .., ?_⟩
      obtain rfl : CallPc.cleaning pc' = pc := Option.some.inj (State.setCall_self.symm.trans hk)
      cases pc' <;> first | rfl | cases hr
    · exact hkeep (hi.handlers k pc hm ((State.setCall_of_ne h).symm.trans hk) hr)
  | @exits k pc rest _ hm hk hr =>
    have hclean : CleanedUp s := hi.handlers k pc (by simp [hm]) hk hr
    exact ⟨fun _ _ _ _ _ => hkeep hclean, fun _ => hkeep hclean⟩
  | @resumes k rest _ hm =>
    refine ⟨fun k pc hm' hk hr => hkeep ?_, fun he => hkeep (hi.exited he)⟩
    exact hi.handlers k pc (by simp_all) hk hr

end ShutdownLemmas

open ShutdownLemmas

def Shutdown.CleanupEvent.entersNotify : CleanupEvent → Bool
  | .notifyEntered => true
  | _ => false

def Shutdown.CleanupEvent.entersStop : CleanupEvent → Bool
  | .stopEntered => true
  | _ => false

/-- `notify_shutdown` and `stop()` were entered at most once each. -/
structure EnteredOnce (log : List CleanupEvent) : Prop where
  notify : log.countP CleanupEvent.entersNotify ≤ 1
  stop : log.countP CleanupEvent.entersStop ≤ 1

namespace ShutdownLemmas

/-- Events after the entries. -/
def Quiet (log : List CleanupEvent) : Prop :=
  ∀ e ∈ log, e.entersNotify = false ∧ e.entersStop = false

theorem EnteredOnce.append_quiet {l₁ l₂ : List CleanupEvent} (h : EnteredOnce l₁) (hq : Quiet l₂) :
    EnteredOnce (l₁ ++ l₂) := by
  have hn : l₂.countP CleanupEvent.entersNotify = 0 :=
    List.countP_eq_zero.mpr fun e he => by simp [(hq e he).1]
  have hs : l₂.countP CleanupEvent.entersStop = 0 :=
    List.countP_eq_zero.mpr fun e he => by simp [(hq e he).2]
  exact ⟨by simpa [hn] using h.notify, by simpa [hs] using h.stop⟩

theorem quiet_nil : Quiet [] := nofun

theorem quiet_stopped (l : List Component) : Quiet (l.map .stopped) := by
  intro e he
  obtain ⟨c, _, rfl⟩ := List.mem_map.mp he
  exact ⟨rfl, rfl⟩

theorem quiet_drainTrace (cfg : ShutdownConfig) (o : CleanupOutcomes) : Quiet (drainTrace cfg o) := by
  unfold drainTrace
  split <;> simp [Quiet, CleanupEvent.entersNotify, CleanupEvent.entersStop]

theorem quiet_postTrace (cfg : ShutdownConfig) (o : CleanupOutcomes) : Quiet (postTrace cfg o) := by
  unfold postTrace
  split <;> simp [Quiet, CleanupEvent.entersNotify, CleanupEvent.entersStop]

theorem Quiet.append {l₁ l₂ : List CleanupEvent} (h₁ : Quiet l₁) (h₂ : Quiet l₂) :
    Quiet (l₁ ++ l₂) := fun e he => (List.mem_append.mp he).elim (h₁ e) (h₂ e)

theorem Quiet.closed {l : List CleanupEvent} (h : Quiet l) (r : Except PyExc Unit) :
    Quiet (.closed r :: l) := List.forall_mem_cons.mpr ⟨⟨rfl, rfl⟩, h⟩

theorem enteredOnce_stopping (a : Attempt) (l : List Component) :
    EnteredOnce (.notifyEntered :: .notifyReturned a :: .stopEntered :: l.map .stopped) := by
  have hhead : EnteredOnce [.notifyEntered, .notifyReturned a, .stopEntered] :=
    ⟨le_of_eq rfl, le_of_eq rfl⟩
  exact EnteredOnce.append_quiet hhead (quiet_stopped l)

theorem enteredOnce_cleanupTrace (cfg : ShutdownConfig) (o : CleanupOutcomes) :
    EnteredOnce (cleanupTrace cfg o) := by
  refine EnteredOnce.append_quiet (enteredOnce_stopping o.notify cfg.components) ?_
  split
  · exact (quiet_drainTrace cfg o).append ((quiet_postTrace cfg o).closed _)
  · exact nofun

theorem CleanupAt.enteredOnce {cfg : ShutdownConfig} {o : CleanupOutcomes} {pc : CleanupPc}
    {log : List CleanupEvent} (h : CleanupAt cfg o pc log) : EnteredOnce log := by
  cases h with
  | notify => exact ⟨Nat.zero_le _, Nat.zero_le _⟩
  | notifying => exact ⟨le_of_eq rfl, Nat.zero_le _⟩
  | stop => exact ⟨le_of_eq rfl, Nat.zero_le _⟩
  | stopping => exact enteredOnce_stopping _ _
  | drainLogs => exact enteredOnce_stopping _ _
  | closeLogs => exact EnteredOnce.append_quiet (enteredOnce_stopping _ _) (quiet_drainTrace cfg o)
  | postLogs =>
    exact EnteredOnce.append_quiet (enteredOnce_stopping _ _)
      ((quiet_drainTrace cfg o).append (quiet_nil.closed _))
  | kill => exact enteredOnce_cleanupTrace cfg o
  | finished => exact enteredOnce_cleanupTrace cfg o

theorem cleanupAt_cleaned {cfg : ShutdownConfig} {o : CleanupOutcomes} {pc : CleanupPc}
    {log : List CleanupEvent} (h : CleanupAt cfg o pc log) (hc : pc.cleaned = true) :
    log = cleanupTrace cfg o := by
  cases h <;> first | rfl | cases hc

end ShutdownLemmas

/-- Whatever the interleaving, the shutdown is entered at most once. -/
theorem entered_once (cfg : ShutdownConfig) {s : State} (h : (shutdown cfg).Reachable s) :
    EnteredOnce s.log := by
  have hi := lockInv h
  cases hl : s.locked with
  | false =>
    rw [(hi.free hl).1]
    exact ⟨Nat.zero_le _, Nat.zero_le _⟩
  | true =>
    obtain ⟨_, _, _, _, hat, _⟩ := hi.held hl
    exact CleanupAt.enteredOnce hat

/-- `notify_shutdown` and `stop()` are entered at most once, and when a signal
handler has executed `sys.exit(0)` the cleanup has run to its end, in every run
in which no signal handler loses the try-lock while the cleanup is not
finished. -/
theorem shutdown_before_exit (cfg : ShutdownConfig) {s : State}
    (h : (shutdown cfg).ReachableWhere WaitsForCleanup s) :
    EnteredOnce s.log ∧ (s.exited = true → ∃ o, s.log = cleanupTrace cfg o) := by
  refine ⟨entered_once cfg h.reachable, fun he => ?_⟩
  have hh : HandlerInv s := by
    refine h.invariant_with (fun _ => lockInv) ?_ ?_
    · exact ⟨nofun, nofun⟩
    · exact fun s a s' hl hi hok hs => handlerInv_step hl hi hok (step_move hs)
  have hi := lockInv h
  obtain ⟨k, c, hk, hcleaned⟩ := hh.exited he
  have hlocked : s.locked = true := by
    by_contra hfree
    exact (hi.free (by simpa using hfree)).2 k c hk
  obtain ⟨k₀, c₀, o, hk₀, hat, huniq⟩ := hi.held hlocked
  obtain rfl : k = k₀ := huniq k c hk
  obtain rfl : c = c₀ := by simpa [hk] using hk₀
  exact ⟨o, cleanupAt_cleaned hat hcleaned⟩

namespace ShutdownLemmas

variable {cfg : ShutdownConfig} {s s' : State} {a : Action}

/-- The calls of the main thread are different calls. -/
structure MainInv (s : State) : Prop where
  fresh : ∀ c ∈ s.main, c.1 < s.nextCall
  nodup : (s.main.map Prod.fst).Nodup

theorem mainInv_step (hi : MainInv s) (hs : Move cfg s a s') : MainInv s' := by
  have hfresh : ∀ c ∈ s.main, c.1 < s.nextCall + 1 :=
    fun c hc => Nat.lt_succ_of_lt (hi.fresh c hc)
  cases hs with
  | elsewhere => exact ⟨hfresh, hi.nodup⟩
  | onMain => exact ⟨by simp [State.newCall], by simp⟩
  | signal =>
    refine ⟨List.forall_mem_cons.mpr ⟨Nat.lt_succ_self _, hfresh⟩, ?_⟩
    refine List.nodup_cons.mpr ⟨fun hmem => ?_, hi.nodup⟩
    obtain ⟨c, hc, heq⟩ := List.mem_map.mp hmem
    exact Nat.lt_irrefl _ (heq ▸ hi.fresh c hc)
  | lose => exact ⟨hi.fresh, hi.nodup⟩
  | win => exact ⟨hi.fresh, hi.nodup⟩
  | clean => exact ⟨hi.fresh, hi.nodup⟩
  | exits => exact ⟨hi.fresh, hi.nodup⟩
  | resumes _ hm =>
    obtain ⟨hfresh, hnodup⟩ := hi
    rw [hm] at hfresh hnodup
    exact ⟨fun c hc => hfresh c (List.mem_cons_of_mem _ hc), (List.nodup_cons.mp hnodup).2⟩

theorem mainInv (h : (shutdown cfg).Reachable s) : MainInv s := by
  refine h.invariant ?_ ?_
  · exact ⟨nofun, List.nodup_nil⟩
  · exact fun s a s' hi _ hs => mainInv_step hi (step_move hs)

/-- A handler whose call moves is the innermost one of a main thread that has
not left. -/
theorem innermost_of_canMove (hi : MainInv s) {k : Nat} (hm : (k, true) ∈ s.main)
    (hmove : s.canMove k = true) : s.exited = false ∧ ∃ rest, s.main = (k, true) :: rest := by
  have hmem : (s.main.map Prod.fst).contains k = true := by
    simpa using Or.inr hm
  simp only [State.canMove, hmem, if_true, Bool.and_eq_true, Bool.not_eq_true', beq_iff_eq] at hmove
  obtain ⟨hexited, hhead⟩ := hmove
  refine ⟨hexited, ?_⟩
  have hnodup := hi.nodup
  cases hmain : s.main with
  | nil => simp [hmain] at hm
  | cons c rest =>
    rw [hmain] at hm hhead hnodup
    obtain ⟨k', fromHandler⟩ := c
    obtain rfl : k' = k := by simpa using hhead
    rcases List.mem_cons.mp hm with heq | hrest
    · exact ⟨rest, by rw [heq]⟩
    · exact absurd (List.mem_map_of_mem hrest) (List.nodup_cons.mp hnodup).1

end ShutdownLemmas

/-- The condition cannot be dropped: a handler that loses the try-lock to an
unfinished cleanup exits in its next step. -/
theorem losing_handler_exits {cfg : ShutdownConfig} {s s' : State} {a : Action}
    (h : (shutdown cfg).Reachable s) (hs : step cfg s a = some s') (hok : ¬ WaitsForCleanup s a) :
    ∃ s'', step cfg s' .mainReturns = some s'' ∧ s''.exited = true ∧ ¬ CleanedUp s'' := by
  simp only [WaitsForCleanup, not_forall] at hok
  obtain ⟨k, rfl, hk, hm, hlocked, hunfinished⟩ := hok
  simp only [step, Option.ite_none_right_eq_some] at hs
  obtain ⟨hmove, hs⟩ := hs
  obtain ⟨hexited, rest, hmain⟩ := innermost_of_canMove (mainInv h) hm hmove
  have hlost : s.setCall k .lost = s' := by
    simpa [hk, callStep, hlocked] using hs
  subst hlost
  refine ⟨{ s.setCall k .lost with exited := true }, ?_, rfl, ?_⟩
  · have hreturned : ((s.setCall k .lost).calls k).any CallPc.returned = true := by
      rw [State.setCall_self]
      rfl
    have hexited' : (s.setCall k .lost).exited = false := hexited
    have hmain' : (s.setCall k .lost).main = (k, true) :: rest := hmain
    simp only [step, hexited', hmain', hreturned, if_true]
  · rintro ⟨k', c, hk', hcleaned⟩
    exact hunfinished ⟨k', c, (cleaning_lost hk k' c).mp hk', hcleaned⟩

def Shutdown.CallPc.cleaned : CallPc → Bool
  | .cleaning pc => pc.cleaned
  | _ => false

/-- A test for the condition. -/
def Shutdown.handlersWait (s : State) : Action → Bool
  | .call k .go =>
    match s.calls k with
    | some .acquire =>
      !(s.locked && s.main.contains (k, true)) ||
        (List.range s.nextCall).any fun k' => (s.calls k').any CallPc.cleaned
    | _ => true
  | _ => true

theorem ShutdownLemmas.handlersWait_sound (s : State) (a : Action) (h : handlersWait s a = true) :
    WaitsForCleanup s a := by
  rintro k rfl hk hm hlocked
  have hany : ∃ k' < s.nextCall, (s.calls k').any CallPc.cleaned = true := by
    simpa [handlersWait, hk, hm, hlocked] using h
  obtain ⟨k', -, hcleaned⟩ := hany
  obtain ⟨pc, hpc, hpc'⟩ := (Option.any_eq_true ..).mp hcleaned
  cases pc with
  | cleaning c => exact ⟨k', c, hpc, hpc'⟩
  | _ => cases hpc'

/-- A service with neither metrics timer nor events client nor logs. -/
def bareConfig : ShutdownConfig where
  metricsTimer := false
  sseEnabled := false
  logsSender := false
  logsService := none

/-- A goodbye event is handled to its end, and then the handler of the SIGTERM that
this sends loses the try-lock. -/
def goodbyeRun : List Action :=
  [.triggerElsewhere, .call 0 .go, .call 0 .go,
    .call 0 (.notified (.response ⟨200, "OK", "", .ok .none⟩)), .call 0 .go, .call 0 .go,
    .call 0 .go, .call 0 .go, .call 0 .go, .call 0 .go, .signal, .call 1 .go, .mainReturns]

/-- The rule in that run. -/
theorem shutdown_before_exit_goodbye :
    ∃ s, (shutdown bareConfig).execWhile handlersWait (shutdown bareConfig).init goodbyeRun =
        some s ∧
      s.exited = true ∧ s.calls 1 = some .lost ∧ EnteredOnce s.log ∧
      ∃ o, s.log = cleanupTrace bareConfig o := by
  have hrun : (shutdown bareConfig).execWhile handlersWait (shutdown bareConfig).init goodbyeRun =
      some _ := rfl
  obtain ⟨honce, hdone⟩ := shutdown_before_exit bareConfig
    (System.reachableWhere_of_execWhile handlersWait_sound hrun)
  exact ⟨_, hrun, rfl, rfl, honce, hdone rfl⟩

/-- SIGTERM while a goodbye event is being handled: the handler loses the
try-lock and exits while `notify_shutdown` is under way. -/
theorem sigterm_exits_during_cleanup :
    ∃ s, (shutdown bareConfig).Reachable s ∧ s.exited = true ∧
      ¬ ∃ o, s.log = cleanupTrace bareConfig o := by
  refine ⟨_, System.reachable_of_exec (l := [.triggerElsewhere, .call 0 .go, .call 0 .go, .signal,
    .call 1 .go, .mainReturns]) rfl, rfl, ?_⟩
  rintro ⟨o, ho⟩
  have hlog : [.notifyEntered] = cleanupTrace bareConfig o := ho
  simp [cleanupTrace, stopTrace] at hlog

end EgressAgent
