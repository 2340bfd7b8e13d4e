import Mathlib.Logic.Function.Basic
import EgressAgent.Lib.System

/-!
# The timer service

`TimerService` under any calls of `start()` and `stop()`. A step is one read or
write of an attribute, one section under the lock, the start of a thread or one
call of the handler. A thread that waits on the condition may stop waiting by
the notification of a `stop()`, or by the timeout or spuriously at any time.

`stop_wakes_iff`: between a `stop()` and the next `start()` no thread waits
without a pending notification, or comes to do so, in every run in which no
`stop()` finds a thread between its test of `_running` and its wait, and only in
these. `stop_slept_through`: such a thread waits for a whole interval.
-/

namespace EgressAgent

open Transition

namespace TimerService

/-- The control points of `_run`. -/
inductive TimerPc
  /-- the thread is not started yet -/
  | created
  /-- `while self._running` -/
  | loopTest
  /-- before the section under the lock -/
  | enterWait
  /-- `self._condition.wait(self._interval)` -/
  | waiting (notified : Bool)
  /-- `if not self._running` -/
  | retest
  /-- `if not self._handler` -/
  | handlerTest
  | handling
  | returned
deriving DecidableEq

/-- What a step of a thread gets from outside. -/
inductive TimerInput
  | go
  /-- the timeout of the wait, or a spurious wake-up -/
  | timeout
  /-- the handler returns or raises an `Exception`, or another exception leaves
  it -/
  | handled (exited : Bool)

structure TimerState where
  /-- `_handler` is defined -/
  handler : Bool
  /-- `_running` -/
  running : Bool
  threads : Nat → Option TimerPc
  nextThread : Nat

inductive TimerAction
  /-- `start()`: `_handler` -/
  | setHandler (defined : Bool)
  /-- `start()`: `_running`, and the new thread -/
  | setRunning
  | stop
  | thread (t : Nat) (i : TimerInput)

/-- `notify_all` -/
def TimerPc.notifyAll : TimerPc → TimerPc
  | .waiting _ => .waiting true
  | pc => pc

/-- One step of a thread, which changes nothing that is shared. -/
def threadStep (s : TimerState) : TimerPc → TimerInput → Option TimerPc
  | .created, .go => some .loopTest
  | .loopTest, .go => some (if s.running then .enterWait else .returned)
  | .enterWait, .go => some (.waiting false)
  | .waiting true, .go => some .retest
  | .waiting _, .timeout => some .retest
  | .retest, .go => some (if s.running then .handlerTest else .returned)
  | .handlerTest, .go => some (if s.handler then .handling else .returned)
  | .handling, .handled exited => some (if exited then .returned else .loopTest)
  | _, _ => none

def timerStep (s : TimerState) : TimerAction → Option TimerState
  | .setHandler defined => some { s with handler := defined }
  | .setRunning =>
      some { s with
        running := true
        threads := Function.update s.threads s.nextThread (some .created)
        nextThread := s.nextThread + 1 }
  | .stop =>
      some { s with running := false, threads := fun t => (s.threads t).map TimerPc.notifyAll }
  | .thread t i =>
      (s.threads t).bind fun pc => (threadStep s pc i).map fun pc' =>
        { s with threads := Function.update s.threads t (some pc') }

/-- The service after its constructor. -/
def timerService : System TimerState TimerAction where
  init := { handler := false, running := false, threads := fun _ => none, nextThread := 0 }
  step := timerStep

/-- No thread waits without a pending notification. -/
def NoneAsleep (s : TimerState) : Prop := ∀ t, s.threads t ≠ some (.waiting false)

/-- While the service is stopped, no thread waits without a pending notification,
and none comes to do so before the next `start()`. -/
def StopWakes (s : TimerState) : Prop :=
  s.running = false → ∀ l s', .setRunning ∉ l → timerService.exec s l = some s' → NoneAsleep s'

/-- A `stop()` finds no thread between its test of `_running` and its wait. -/
def NoneEntering (s : TimerState) (a : TimerAction) : Prop :=
  a = .stop → ∀ t, s.threads t ≠ some .enterWait

end TimerService

open TimerService

namespace TimerServiceLemmas

variable {s s' : TimerState} {a : TimerAction}

/-- The thread may come to wait without reading `_running` again. -/
def asleep : TimerPc → Bool
  | .enterWait => true
  | .waiting false => true
  | _ => false

/-- While the service is stopped, every thread that waits was notified, and none
is about to wait. -/
def Awake (s : TimerState) : Prop :=
  s.running = false → ∀ t pc, s.threads t = some pc → asleep pc = false

/-- Only a test that finds the service running leads into the wait. -/
theorem asleep_threadStep {pc pc' : TimerPc} {i : TimerInput} (hstopped : s.running = false)
    (hpc : asleep pc = false) (hs : threadStep s pc i = some pc') : asleep pc' = false := by
  unfold threadStep at hs
  split at hs <;> cases hs
  · rfl
  · rw [hstopped]
    rfl
  · cases hpc
  · rfl
  · rfl
  · rw [hstopped]
    rfl
  · split <;> rfl
  · split <;> rfl

theorem asleep_notifyAll {pc : TimerPc} (h : pc ≠ .enterWait) : asleep pc.notifyAll = false := by
  cases pc with
  | enterWait => exact absurd rfl h
  | _ => rfl

theorem awake_step (hi : Awake s) (hok : NoneEntering s a) (hs : timerStep s a = some s') :
    Awake s' := by
  intro hstopped
  cases a with
  | setHandler defined =>
    cases hs
    exact hi hstopped
  | setRunning =>
    cases hs
    cases hstopped
  | stop =>
    cases hs
    intro t pc hpc
    obtain ⟨pc₀, hpc₀, rfl⟩ := Option.map_eq_some_iff.mp hpc
    exact asleep_notifyAll fun h => hok rfl t (hpc₀.trans (congrArg some h))
  | thread t i =>
    obtain ⟨pc, hpc, hs⟩ := Option.bind_eq_some_iff.mp hs
    obtain ⟨pc', hpc', rfl⟩ := Option.map_eq_some_iff.mp hs
    exact update_thread (hi hstopped) (asleep_threadStep hstopped (hi hstopped t pc hpc) hpc')

theorem noneAsleep_of_awake (hi : Awake s) (hstopped : s.running = false) : NoneAsleep s := by
  intro t ht
  cases hi hstopped t _ ht

/-- The service stays stopped until the next `start()`. -/
theorem stopped_step (hstopped : s.running = false) (ha : a ≠ .setRunning)
    (hs : timerStep s a = some s') : s'.running = false := by
  cases a with
  | setRunning => exact absurd rfl ha
  | thread t i =>
    obtain ⟨pc, hpc, hs⟩ := Option.bind_eq_some_iff.mp hs
    obtain ⟨pc', hpc', rfl⟩ := Option.map_eq_some_iff.mp hs
    exact hstopped
  | setHandler defined =>
    cases hs
    exact hstopped
  | stop =>
    cases hs
    rfl

/-- A `stop()` of a service that is stopped finds no thread that is about to
wait. -/
theorem noneEntering_of_awake (hi : Awake s) (hstopped : s.running = false) :
    NoneEntering s a := by
  rintro - t ht
  cases hi hstopped t _ ht

theorem stopWakes_of_awake (hi : Awake s) : StopWakes s := by
  intro hstopped l s' hl hrun
  have hquiet : timerService.Along (fun _ a => a ≠ .setRunning) s l := by
    refine System.along_of_forall (fun a ha s => ?_) s
    rintro rfl
    exact hl ha
  obtain ⟨hi', hstopped'⟩ := System.exec_invariant
    (I := fun s => Awake s ∧ s.running = false) (fun s a s' h ha hs =>
      ⟨awake_step h.1 (noneEntering_of_awake h.1 h.2) hs, stopped_step h.2 ha hs⟩)
    ⟨hi, hstopped⟩ hquiet hrun
  exact noneAsleep_of_awake hi' hstopped'

/-- A thread that is about to wait takes no notice of a `stop()` any more. -/
theorem not_stopWakes_of_entering {t : Nat} (hstopped : s.running = false)
    (ht : s.threads t = some .enterWait) : ¬ StopWakes s := by
  intro hwakes
  have hrun : timerService.exec s [.thread t .go] =
      some { s with threads := Function.update s.threads t (some (.waiting false)) } := by
    simp [timerService, timerStep, ht, threadStep]
  exact hwakes hstopped _ _ (by simp) hrun t (Function.update_self ..)

theorem not_stopWakes (hok : ¬ NoneEntering s a) (hs : timerStep s a = some s') :
    ¬ StopWakes s' := by
  obtain ⟨rfl, hentering⟩ := Classical.not_imp.mp hok
  obtain ⟨t, ht⟩ := not_forall_not.mp hentering
  cases hs
  refine not_stopWakes_of_entering (t := t) rfl ?_
  show (s.threads t).map TimerPc.notifyAll = some .enterWait
  rw [ht]
  rfl

end TimerServiceLemmas

open TimerServiceLemmas

/-- In every state of a run, while the service is stopped no thread waits without
a pending notification or comes to do so before the next `start()`, if and only
if, along the run, no `stop()` finds a thread between its test of `_running` and
its wait. -/
theorem stop_wakes_iff {l : List TimerAction} {s : TimerState}
    (h : timerService.exec timerService.init l = some s) :
    timerService.Throughout StopWakes timerService.init l ↔
      timerService.Along NoneEntering timerService.init l := by
  refine System.throughout_iff_along (J := Awake) ?_ ?_ ?_ ?_ h
  · exact fun s hi => stopWakes_of_awake hi
  · exact fun s a s' hi hok hs => awake_step hi hok hs
  · exact fun s a s' _ hok hs => not_stopWakes hok hs
  · exact fun _ _ _ hpc => by cases hpc

/-- A thread that is started and waits. -/
def waitingRun : List TimerAction :=
  [.setHandler true, .setRunning, .thread 0 .go, .thread 0 .go, .thread 0 .go]

/-- The rule at a `stop()` that finds the thread in its wait. -/
theorem stop_wakes_iff_waiting :
    timerService.Throughout StopWakes timerService.init (waitingRun ++ [.stop]) := by
  refine (stop_wakes_iff (l := waitingRun ++ [.stop]) rfl).mpr ?_
  refine (System.along_append (l := waitingRun) rfl).mpr ⟨?_, ?_, fun _ _ => trivial⟩
  · refine System.along_of_forall (fun a ha s => ?_) _
    rintro rfl
    simp [waitingRun] at ha
  · rintro - t
    cases t <;> nofun

/-- A thread that is about to wait when `stop()` comes. -/
def sleptThroughRun : List TimerAction :=
  [.setHandler true, .setRunning, .thread 0 .go, .thread 0 .go, .stop, .thread 0 .go]

/-- It waits, without a notification, until the interval is over. -/
theorem stop_slept_through :
    ∃ s, timerService.Reachable s ∧ s.running = false ∧ s.threads 0 = some (.waiting false) :=
  ⟨_, System.reachable_of_exec (l := sleptThroughRun) rfl, rfl, rfl⟩

end EgressAgent
