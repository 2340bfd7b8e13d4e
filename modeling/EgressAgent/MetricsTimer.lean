import Mathlib.Logic.Function.Basic
import Mathlib.Logic.Relation
import EgressAgent.Lib.System

/-!
# The metrics timer

`MetricsTimer` under any calls of `start()` and `stop()`, of which those of
`start()` follow one another. A step is one reading or writing of the stop event,
the start of a thread or one call of the handler. The event is tested under its
lock before a wait begins, and a wait that was notified returns `True` even if the
event is cleared before the thread runs again.

1. `stop_never_slept_through`: no thread sleeps through a `stop()`, in any run.
   A thread that is in its wait then never pushes again, whatever is called
   later, and while nothing is started a thread pushes at most once more, and
   only if its wait had timed out before.
2. `pushes_from_one_thread_iff`: over any calls, at most one thread can go on to
   push after it has tested the event again, and none that was stopped, if and
   only if every `start()` finds each earlier thread ended or notified.
   `stopped_thread_pushes_on`: a thread that is inside the handler is neither.
-/

namespace EgressAgent

open Transition

namespace MetricsTimer

/-- The control points of `_run_loop`. -/
inductive MetricsPc
  /-- the thread is not started yet -/
  | created
  /-- `while not self._stop_event.is_set()` -/
  | loopTest
  /-- `self._stop_event.wait(...)`, before the lock of the event is taken -/
  | enterWait
  /-- in the wait -/
  | waiting (notified : Bool)
  /-- the wait has timed out, which makes it return `False` -/
  | calling
  /-- inside the handler -/
  | handling
  | returned
deriving DecidableEq

/-- What a step of a thread gets from outside. -/
inductive MetricsInput
  | go
  | timeout
  /-- the call of the handler -/
  | call
  /-- the handler returns or raises an `Exception`, or another exception leaves
  it -/
  | handled (exited : Bool)
deriving DecidableEq

structure MetricsState where
  /-- the flag of `_stop_event` -/
  stopFlag : Bool
  /-- a `start()` has cleared the event and not started its thread yet -/
  starting : Bool
  threads : Nat → Option MetricsPc
  nextThread : Nat
  /-- the number of threads whose `stop()` was called, which are the first ones -/
  stoppedThreads : Nat

inductive MetricsAction
  /-- `start()`: `self._stop_event.clear()` -/
  | clear
  /-- `start()`: the new thread -/
  | spawn
  | stop
  | thread (t : Nat) (i : MetricsInput)
deriving DecidableEq

/-- `notify_all` on the condition of the event. -/
def MetricsPc.notifyAll : MetricsPc → MetricsPc
  | .waiting _ => .waiting true
  | pc => pc

/-- One step of a thread, which changes nothing that is shared. -/
def threadStep (stopFlag : Bool) : MetricsPc → MetricsInput → Option MetricsPc
  | .created, .go => some .loopTest
  | .loopTest, .go => some (if stopFlag then .returned else .enterWait)
  -- `wait` does not sleep if the flag is set, and its `True` ends the loop.
  | .enterWait, .go => some (if stopFlag then .returned else .waiting false)
  | .waiting true, .go => some .returned
  | .waiting false, .timeout => some .calling
  | .calling, .call => some .handling
  | .handling, .handled exited => some (if exited then .returned else .loopTest)
  | _, _ => none

def metricsStep (s : MetricsState) : MetricsAction → Option MetricsState
  | .clear => if s.starting then none else some { s with stopFlag := false, starting := true }
  | .spawn =>
      if s.starting then
        some { s with
          starting := false
          threads := Function.update s.threads s.nextThread (some .created)
          nextThread := s.nextThread + 1 }
      else none
  | .stop =>
      some { s with
        stopFlag := true
        threads := fun t => (s.threads t).map MetricsPc.notifyAll
        stoppedThreads := s.nextThread }
  | .thread t i =>
      (s.threads t).bind fun pc => (threadStep s.stopFlag pc i).map fun pc' =>
        { s with threads := Function.update s.threads t (some pc') }

/-- The timer after its constructor. -/
def metricsTimer : System MetricsState MetricsAction where
  init :=
    { stopFlag := false, starting := false, threads := fun _ => none, nextThread := 0,
      stoppedThreads := 0 }
  step := metricsStep

/-- The action is a call of the handler by the thread `t`. -/
def MetricsAction.isCallOf (t : Nat) (a : MetricsAction) : Bool := a == .thread t .call

/-- No thread waits without a pending notification. -/
def NoneAsleep (s : MetricsState) : Prop := ∀ t, s.threads t ≠ some (.waiting false)

end MetricsTimer

open MetricsTimer

namespace MetricsTimerLemmas

variable {s s' : MetricsState} {a : MetricsAction} {stopFlag : Bool}

/-- The moves of a thread. -/
inductive ThreadMove (stopFlag : Bool) : MetricsPc → MetricsInput → MetricsPc → Prop
  | begins : ThreadMove stopFlag .created .go .loopTest
  | goesOn : stopFlag = false → ThreadMove stopFlag .loopTest .go .enterWait
  | leaves : stopFlag = true → ThreadMove stopFlag .loopTest .go .returned
  | sleeps : stopFlag = false → ThreadMove stopFlag .enterWait .go (.waiting false)
  | breaks : stopFlag = true → ThreadMove stopFlag .enterWait .go .returned
  | woken : ThreadMove stopFlag (.waiting true) .go .returned
  | timesOut : ThreadMove stopFlag (.waiting false) .timeout .calling
  | calls : ThreadMove stopFlag .calling .call .handling
  | handled : ThreadMove stopFlag .handling (.handled false) .loopTest
  | exits : ThreadMove stopFlag .handling (.handled true) .returned

theorem threadStep_move {pc pc' : MetricsPc} {i : MetricsInput}
    (h : threadStep stopFlag pc i = some pc') : ThreadMove stopFlag pc i pc' := by
  unfold threadStep at h
  split at h
  · cases h
    exact .begins
  · cases stopFlag <;> cases h
    · exact .goesOn rfl
    · exact .leaves rfl
  · cases stopFlag <;> cases h
    · exact .sleeps rfl
    · exact .breaks rfl
  · cases h
    exact .woken
  · cases h
    exact .timesOut
  · cases h
    exact .calls
  · next exited =>
    cases exited <;> cases h
    · exact .handled
    · exact .exits
  · cases h

/-- The moves of the timer. -/
inductive MetricsMove (s : MetricsState) : MetricsAction → MetricsState → Prop
  | clear : s.starting = false →
      MetricsMove s .clear { s with stopFlag := false, starting := true }
  | spawn : s.starting = true → MetricsMove s .spawn { s with
      starting := false
      threads := Function.update s.threads s.nextThread (some .created)
      nextThread := s.nextThread + 1 }
  | stop : MetricsMove s .stop { s with
      stopFlag := true
      threads := fun t => (s.threads t).map MetricsPc.notifyAll
      stoppedThreads := s.nextThread }
  | thread {t : Nat} {i : MetricsInput} {pc pc' : MetricsPc} : s.threads t = some pc →
      ThreadMove s.stopFlag pc i pc' →
      MetricsMove s (.thread t i) { s with threads := Function.update s.threads t (some pc') }

theorem metricsStep_move (hs : metricsStep s a = some s') : MetricsMove s a s' := by
  cases a with
  | clear =>
    obtain ⟨hstarting, hs⟩ := Option.ite_none_left_eq_some.mp hs
    cases hs
    exact .clear (Bool.not_eq_true _ ▸ hstarting)
  | spawn =>
    obtain ⟨hstarting, hs⟩ := Option.ite_none_right_eq_some.mp hs
    cases hs
    exact .spawn hstarting
  | stop =>
    cases hs
    exact .stop
  | thread t i =>
    obtain ⟨pc, hpc, hs⟩ := Option.bind_eq_some_iff.mp hs
    obtain ⟨pc', hpc', rfl⟩ := Option.map_eq_some_iff.mp hs
    exact .thread hpc (threadStep_move hpc')

/-- The threads in the table have the numbers below the next one. -/
def Numbered (s : MetricsState) : Prop := ∀ t pc, s.threads t = some pc → t < s.nextThread

theorem numbered_step (hi : Numbered s) (hs : metricsStep s a = some s') : Numbered s' := by
  cases metricsStep_move hs with
  | clear => exact hi
  | spawn =>
    refine update_thread (fun t pc h => Nat.lt_succ_of_lt (hi t pc h)) ?_
    exact Nat.lt_succ_self _
  | stop =>
    intro t pc hpc
    obtain ⟨pc₀, hpc₀, rfl⟩ := Option.map_eq_some_iff.mp hpc
    exact hi t pc₀ hpc₀
  | thread hpc => exact update_thread hi (hi _ _ hpc)

theorem numbered (h : metricsTimer.Reachable s) : Numbered s :=
  h.invariant (I := Numbered) (fun _ _ h => by cases h) fun _ _ _ hi _ hs => numbered_step hi hs

/-! ## 1. A stop is never slept through -/

/-- The stop event is set, and every thread that waits was notified. -/
structure Stopped (s : MetricsState) : Prop where
  flag : s.stopFlag = true
  awake : ∀ t pc, s.threads t = some pc → pc ≠ .waiting false

theorem stopped_of_stop (hs : metricsStep s .stop = some s') : Stopped s' := by
  cases hs
  refine ⟨rfl, fun t pc hpc => ?_⟩
  obtain ⟨pc₀, -, rfl⟩ := Option.map_eq_some_iff.mp hpc
  cases pc₀ <;> simp [MetricsPc.notifyAll]

theorem stopped_step (hi : Stopped s) (ha : a ≠ .clear) (hs : metricsStep s a = some s') :
    Stopped s' := by
  cases metricsStep_move hs with
  | clear => exact absurd rfl ha
  | spawn => exact ⟨hi.flag, update_thread hi.awake (by simp)⟩
  | stop => exact stopped_of_stop hs
  | thread hpc hmove =>
    refine ⟨hi.flag, update_thread hi.awake ?_⟩
    cases hmove with
    | sleeps hflag => exact absurd (hflag.symm.trans hi.flag) (by simp)
    | _ => simp

/-- How often the thread can push while the event is set. -/
def pushesLeft : Option MetricsPc → Nat
  | some .calling => 1
  | _ => 0

theorem pushesLeft_le (o : Option MetricsPc) : pushesLeft o ≤ 1 := by
  unfold pushesLeft
  split <;> simp

theorem eq_calling_of_pushesLeft {o : Option MetricsPc} (h : pushesLeft o ≠ 0) :
    o = some .calling := by
  unfold pushesLeft at h
  split at h
  · rfl
  · exact absurd rfl h

theorem pushesLeft_notifyAll (o : Option MetricsPc) :
    pushesLeft (o.map MetricsPc.notifyAll) = pushesLeft o := by
  rcases o with _ | pc
  · rfl
  · cases pc <;> rfl

theorem pays_step {t : Nat} (hi : Stopped s) (ha : a ≠ .clear)
    (hs : metricsStep s a = some s') :
    (if a.isCallOf t then 1 else 0) + pushesLeft (s'.threads t) ≤ pushesLeft (s.threads t) := by
  cases metricsStep_move hs with
  | clear => exact absurd rfl ha
  | spawn =>
    by_cases ht : t = s.nextThread
    · subst ht
      simp [MetricsAction.isCallOf, pushesLeft]
    · simp [MetricsAction.isCallOf, Function.update_of_ne ht]
  | stop => simp [MetricsAction.isCallOf, pushesLeft_notifyAll]
  | @thread t₁ i pc pc' hpc hmove =>
    by_cases ht : t = t₁
    · subst ht
      simp only [Function.update_self, hpc]
      cases hmove with
      | timesOut => exact absurd rfl (hi.awake t _ hpc)
      | _ => simp [MetricsAction.isCallOf, pushesLeft]
    · simp [MetricsAction.isCallOf, Function.update_of_ne ht, Ne.symm ht]

/-- A thread that has ended, or will end as soon as it runs again. -/
def Over : MetricsPc → Prop
  | .returned => True
  | .waiting true => True
  | _ => False

theorem over_move {pc pc' : MetricsPc} {i : MetricsInput} (hpc : Over pc)
    (hmove : ThreadMove stopFlag pc i pc') : Over pc' ∧ i ≠ .call := by
  cases hmove with
  | woken => exact ⟨trivial, nofun⟩
  | _ => cases hpc

theorem over_notifyAll {pc : MetricsPc} (hpc : Over pc) : Over pc.notifyAll := by
  cases pc with
  | waiting notified => trivial
  | _ => exact hpc

/-- The thread has a number and is over. -/
def OverAt (t : Nat) (s : MetricsState) : Prop :=
  Numbered s ∧ ∃ pc, s.threads t = some pc ∧ Over pc

theorem overAt_step {t : Nat} (hi : OverAt t s) (hs : metricsStep s a = some s') :
    OverAt t s' := by
  obtain ⟨hnumbered, pc, hpc, hover⟩ := hi
  refine ⟨numbered_step hnumbered hs, ?_⟩
  cases metricsStep_move hs with
  | clear => exact ⟨pc, hpc, hover⟩
  | spawn =>
    have ht := Nat.ne_of_lt (hnumbered t pc hpc)
    exact ⟨pc, (Function.update_of_ne ht ..).trans hpc, hover⟩
  | stop => exact ⟨pc.notifyAll, by simp [hpc], over_notifyAll hover⟩
  | @thread t₁ i pc₁ pc₁' hpc₁ hmove =>
    by_cases ht : t = t₁
    · subst ht
      cases hpc.symm.trans hpc₁
      exact ⟨pc₁', Function.update_self .., (over_move hover hmove).1⟩
    · exact ⟨pc, (Function.update_of_ne ht ..).trans hpc, hover⟩

theorem not_isCallOf_of_overAt {t : Nat} (hi : OverAt t s) (hs : metricsStep s a = some s') :
    a.isCallOf t = false := by
  obtain ⟨-, pc, hpc, hover⟩ := hi
  cases metricsStep_move hs with
  | @thread t₁ i pc₁ pc₁' hpc₁ hmove =>
    by_cases ht : t = t₁
    · subst ht
      cases hpc.symm.trans hpc₁
      simp [MetricsAction.isCallOf, (over_move hover hmove).2]
    · simp [MetricsAction.isCallOf, Ne.symm ht]
  | _ => rfl

end MetricsTimerLemmas

open MetricsTimerLemmas

/-- After a `stop()` in any run, as long as no `start()` clears the event, no
thread waits without a pending notification, and a thread calls the handler at
most once, and that only if its wait had timed out before the `stop()`. A thread
that was in its wait never calls the handler again, whatever is called after the
`stop()`. -/
theorem stop_never_slept_through {s s' : MetricsState} {l : List MetricsAction}
    (hs : metricsTimer.Reachable s) (h : metricsTimer.exec s (.stop :: l) = some s') :
    (.clear ∉ l → NoneAsleep s' ∧ ∀ t,
      l.countP (MetricsAction.isCallOf t) ≤ 1 ∧
        (l.countP (MetricsAction.isCallOf t) ≠ 0 → s.threads t = some .calling)) ∧
    ∀ t notified, s.threads t = some (.waiting notified) →
      l.countP (MetricsAction.isCallOf t) = 0 := by
  obtain ⟨s₁, h₁, h₂⟩ : ∃ s₁, metricsStep s .stop = some s₁ ∧ metricsTimer.exec s₁ l = some s' := by
    rw [System.exec_cons, Option.bind_eq_some_iff] at h
    exact h
  constructor
  · intro hl
    have hquiet : metricsTimer.Along (fun _ a => a ≠ .clear) s₁ l := by
      refine System.along_of_forall (fun a ha s => ?_) s₁
      rintro rfl
      exact hl ha
    have hstopped := stopped_of_stop h₁
    constructor
    · have hstopped' := System.exec_invariant (I := Stopped)
        (fun _ _ _ hi ha hs => stopped_step hi ha hs) hstopped hquiet h₂
      intro t ht
      exact hstopped'.awake t _ ht rfl
    · intro t
      have hcount := System.exec_countP_le (I := Stopped) (p := MetricsAction.isCallOf t)
        (b := fun s => pushesLeft (s.threads t))
        (fun _ _ _ hi ha hs => ⟨stopped_step hi ha hs, pays_step hi ha hs⟩) hstopped hquiet h₂
      have hkept : pushesLeft (s₁.threads t) = pushesLeft (s.threads t) := by
        cases h₁
        exact pushesLeft_notifyAll _
      rw [hkept] at hcount
      refine ⟨Nat.le_trans hcount (pushesLeft_le _), fun hcalled => ?_⟩
      exact eq_calling_of_pushesLeft (Nat.ne_of_gt
        (Nat.lt_of_lt_of_le (Nat.pos_of_ne_zero hcalled) hcount))
  · intro t notified hpc
    have hover : OverAt t s₁ := by
      refine ⟨numbered_step (numbered hs) h₁, .waiting true, ?_, trivial⟩
      cases h₁
      simp [hpc, MetricsPc.notifyAll]
    have hall : metricsTimer.Along (fun _ _ => True) s₁ l :=
      System.along_of_forall (fun _ _ _ => trivial) s₁
    have hcount := System.exec_countP_le (I := OverAt t) (p := MetricsAction.isCallOf t)
      (b := fun _ => 0)
      (fun _ _ _ hi _ hs => ⟨overAt_step hi hs, by simp [not_isCallOf_of_overAt hi hs]⟩) hover
      hall h₂
    exact Nat.le_zero.mp hcount

/-- Two threads, of which the first is in its wait at the `stop()` and the second
has just timed out. -/
def stopRun : List MetricsAction :=
  [.clear, .spawn, .clear, .spawn, .thread 0 .go, .thread 0 .go, .thread 0 .go, .thread 1 .go,
    .thread 1 .go, .thread 1 .go, .thread 1 .timeout]

/-- The rule at that `stop()`: the second thread pushes once more. -/
theorem stop_never_slept_through_run :
    ∃ s s', metricsTimer.exec metricsTimer.init stopRun = some s ∧
      metricsTimer.exec s [.stop, .thread 1 .call] = some s' ∧ NoneAsleep s' ∧
      s.threads 1 = some .calling := by
  have hrun : (metricsTimer.exec metricsTimer.init
      (stopRun ++ [.stop, .thread 1 .call])).isSome = true := by decide
  obtain ⟨s', h⟩ := Option.isSome_iff_exists.mp hrun
  rw [System.exec_append, Option.bind_eq_some_iff] at h
  obtain ⟨s, hs, h⟩ := h
  obtain ⟨hquiet, -⟩ := stop_never_slept_through (System.reachable_of_exec hs) h
  obtain ⟨hawake, hcalls⟩ := hquiet (by decide)
  exact ⟨s, s', hs, h, hawake, (hcalls 1).2 (by decide)⟩

/-! ## 2. One thread at a time -/

namespace MetricsTimer

/-- The steps of one thread. -/
abbrev ThreadRun (stopFlag : Bool) : MetricsPc → MetricsPc → Prop :=
  Relation.ReflTransGen fun pc pc' => ∃ i, threadStep stopFlag pc i = some pc'

/-- The next step is a test of the event. -/
def testsEvent : MetricsPc → Bool
  | .loopTest => true
  | .enterWait => true
  | _ => false

/-- The thread can come to a test of the event and from there on to a call of the
handler. -/
def CanPush (stopFlag : Bool) (pc : MetricsPc) : Prop :=
  ∃ pc₁, ThreadRun stopFlag pc pc₁ ∧ testsEvent pc₁ = true ∧ ThreadRun stopFlag pc₁ .calling

/-- The thread `t` can go on to push after it has tested the event again. -/
def Pushes (s : MetricsState) (t : Nat) : Prop :=
  ∃ pc, s.threads t = some pc ∧ CanPush s.stopFlag pc

/-- At most one thread can, none that was stopped, and none while a `start()` is
about to start its thread. -/
structure OneThread (s : MetricsState) : Prop where
  one : ∀ t₁ t₂, Pushes s t₁ → Pushes s t₂ → t₁ = t₂
  stopped : ∀ t < s.stoppedThreads, ¬ Pushes s t
  starting : s.starting = true → ∀ t, ¬ Pushes s t

/-- A `start()` finds every earlier thread over. -/
def EarlierOver (s : MetricsState) (a : MetricsAction) : Prop :=
  a = .clear → ∀ t pc, s.threads t = some pc → Over pc

end MetricsTimer

namespace MetricsTimerLemmas

variable {s s' : MetricsState} {a : MetricsAction} {stopFlag : Bool} {pc pc' : MetricsPc}

theorem run_invariant {P : MetricsPc → Prop}
    (hstep : ∀ pc pc' i, P pc → ThreadMove stopFlag pc i pc' → P pc') (hpc : P pc)
    (hrun : ThreadRun stopFlag pc pc') : P pc' := by
  induction hrun with
  | refl => exact hpc
  | tail _ hs ih =>
    obtain ⟨i, hs⟩ := hs
    exact hstep _ _ i ih (threadStep_move hs)

/-- Where a thread is from a test of an event that is set on. -/
def ending : MetricsPc → Bool
  | .loopTest => true
  | .enterWait => true
  | .returned => true
  | _ => false

theorem ending_move {i : MetricsInput} (hpc : ending pc = true)
    (hmove : ThreadMove true pc i pc') : ending pc' = true := by
  cases hmove with
  | goesOn hflag => cases hflag
  | sleeps hflag => cases hflag
  | leaves _ => rfl
  | breaks _ => rfl
  | _ => cases hpc

theorem not_canPush_of_set : ¬ CanPush true pc := by
  rintro ⟨pc₁, -, htest, hrun⟩
  have hending : ending pc₁ = true := by
    cases pc₁ <;> first | rfl | cases htest
  have hcalling := run_invariant (P := fun pc => ending pc = true)
    (fun _ _ _ hpc hmove => ending_move hpc hmove) hending hrun
  cases hcalling

theorem not_canPush_of_over (hpc : Over pc) : ¬ CanPush stopFlag pc := by
  rintro ⟨pc₁, hrun, htest, -⟩
  have hover : Over pc₁ :=
    run_invariant (fun _ _ _ hpc hmove => (over_move hpc hmove).1) hpc hrun
  cases pc₁ with
  | loopTest => exact hover
  | enterWait => exact hover
  | _ => cases htest

theorem run_of_step {i : MetricsInput} (h : threadStep stopFlag pc i = some pc') :
    ThreadRun stopFlag pc pc' :=
  .single ⟨i, h⟩

/-- While the event is clear, a thread that is not over comes to the head of the
loop. -/
theorem run_of_not_over (h : ¬ Over pc) : ThreadRun false pc .loopTest := by
  have hhandling : ThreadRun false .handling .loopTest := run_of_step (i := .handled false) rfl
  have hcalling : ThreadRun false .calling .loopTest :=
    (run_of_step (i := .call) rfl).trans hhandling
  have hwaiting : ThreadRun false (.waiting false) .loopTest :=
    (run_of_step (i := .timeout) rfl).trans hcalling
  cases pc with
  | created => exact run_of_step (i := .go) rfl
  | loopTest => exact .refl
  | enterWait => exact (run_of_step (i := .go) rfl).trans hwaiting
  | waiting notified =>
    cases notified with
    | false => exact hwaiting
    | true => exact absurd trivial h
  | calling => exact hcalling
  | handling => exact hhandling
  | returned => exact absurd trivial h

end MetricsTimerLemmas

/-- A thread can go on to push after it has tested the event again if and only if
the event is clear and the thread is not over. -/
theorem canPush_iff {stopFlag : Bool} {pc : MetricsPc} :
    CanPush stopFlag pc ↔ stopFlag = false ∧ ¬ Over pc := by
  cases stopFlag with
  | true => simp [not_canPush_of_set]
  | false =>
    refine ⟨fun h => ⟨rfl, fun hover => not_canPush_of_over hover h⟩, fun ⟨_, h⟩ => ?_⟩
    refine ⟨.loopTest, run_of_not_over h, rfl, ?_⟩
    have henter : ThreadRun false .loopTest .enterWait := run_of_step (i := .go) rfl
    have hwait : ThreadRun false .enterWait (.waiting false) := run_of_step (i := .go) rfl
    have hcall : ThreadRun false (.waiting false) .calling := run_of_step (i := .timeout) rfl
    exact henter.trans (hwait.trans hcall)

namespace MetricsTimerLemmas

variable {s s' : MetricsState} {a : MetricsAction}

/-- While the event is clear, every thread is over but the one that the latest
`start()` has started. -/
structure LatestInv (s : MetricsState) : Prop where
  numbered : Numbered s
  stopped_le : s.stoppedThreads ≤ s.nextThread
  starting : s.stopFlag = false → s.starting = true → ∀ t pc, s.threads t = some pc → Over pc
  latest : s.stopFlag = false → ∀ t pc, s.threads t = some pc → t + 1 < s.nextThread → Over pc
  fresh : s.stopFlag = false → s.starting = false → s.nextThread = 0 ∨
    s.stoppedThreads < s.nextThread

theorem latestInv_step (hi : LatestInv s) (hok : EarlierOver s a)
    (hs : metricsStep s a = some s') : LatestInv s' := by
  have hnumbered := numbered_step hi.numbered hs
  cases metricsStep_move hs with
  | clear => exact ⟨hnumbered, hi.stopped_le, fun _ _ => hok rfl, fun _ t pc hpc _ => hok rfl t pc hpc,
      nofun⟩
  | spawn hstarting =>
    refine ⟨hnumbered, Nat.le_succ_of_le hi.stopped_le, nofun, fun hflag => ?_, fun _ _ => ?_⟩
    · refine update_thread (fun t pc hpc _ => hi.starting hflag hstarting t pc hpc) fun hlt => ?_
      exact absurd hlt (Nat.lt_irrefl _)
    · exact .inr (Nat.lt_succ_of_le hi.stopped_le)
  | stop => exact ⟨hnumbered, Nat.le_refl _, nofun, nofun, nofun⟩
  | @thread t i pc pc' hpc hmove =>
    refine ⟨hnumbered, hi.stopped_le, fun hflag hstarting => ?_, fun hflag => ?_, hi.fresh⟩
    · refine update_thread (hi.starting hflag hstarting) ?_
      exact (over_move (hi.starting hflag hstarting t pc hpc) hmove).1
    · refine update_thread (hi.latest hflag) fun hlt => ?_
      exact (over_move (hi.latest hflag t pc hpc hlt) hmove).1

theorem oneThread_of_inv (hi : LatestInv s) : OneThread s := by
  -- Only the thread with the last number can push, and only once it is started.
  have last {t : Nat} (h : Pushes s t) : s.starting = false ∧ t + 1 = s.nextThread ∧
      s.stoppedThreads < s.nextThread := by
    obtain ⟨pc, hpc, hpush⟩ := h
    obtain ⟨hflag, hover⟩ := canPush_iff.mp hpush
    have hlt := hi.numbered t pc hpc
    have hstarting : s.starting = false := by
      cases hstarting : s.starting with
      | false => rfl
      | true => exact absurd (hi.starting hflag hstarting t pc hpc) hover
    have hlast : ¬ t + 1 < s.nextThread := fun h => hover (hi.latest hflag t pc hpc h)
    have hfresh := hi.fresh hflag hstarting
    refine ⟨hstarting, ?_, ?_⟩ <;> omega
  refine ⟨fun t₁ t₂ h₁ h₂ => ?_, fun t hlt h => ?_, fun hstarting t h => ?_⟩
  · have hlast := (last h₁).2.1.trans (last h₂).2.1.symm
    exact Nat.succ.inj hlast
  · obtain ⟨-, hlast, hfresh⟩ := last h
    omega
  · exact Bool.false_ne_true ((last h).1.symm.trans hstarting)

/-- A thread that is not over at a `start()` can push after it. -/
theorem not_oneThread (hok : ¬ EarlierOver s a) (hs : metricsStep s a = some s') :
    ¬ OneThread s' := by
  unfold EarlierOver at hok
  push Not at hok
  obtain ⟨rfl, t, pc, hpc, hover⟩ := hok
  cases metricsStep_move hs with
  | clear =>
    intro hone
    exact hone.starting rfl t ⟨pc, hpc, canPush_iff.mpr ⟨rfl, hover⟩⟩

end MetricsTimerLemmas

/-- In every state of a run, whatever the order of the calls, at most one thread
can go on to push after it has tested the event again, none whose `stop()` was
called, and none while a `start()` is about to start its thread, if and only if,
along the run, every `start()` finds that each earlier thread has ended or is in
a wait that was notified. -/
theorem pushes_from_one_thread_iff {l : List MetricsAction} {s : MetricsState}
    (h : metricsTimer.exec metricsTimer.init l = some s) :
    metricsTimer.Throughout OneThread metricsTimer.init l ↔
      metricsTimer.Along EarlierOver metricsTimer.init l := by
  refine System.throughout_iff_along (J := LatestInv) ?_ ?_ ?_ ?_ h
  · exact fun s hi => oneThread_of_inv hi
  · exact fun s a s' hi hok hs => latestInv_step hi hok hs
  · exact fun s a s' _ hok hs => not_oneThread hok hs
  · exact ⟨nofun, Nat.le_refl _, nofun, nofun, fun _ _ => .inl rfl⟩

/-- The first thread, up to a `stop()` that finds it in its wait. -/
def notifiedRun : List MetricsAction :=
  [.spawn, .thread 0 .go, .thread 0 .go, .thread 0 .go, .stop]

/-- The rule at a `start()` before which the thread has not run again. -/
theorem pushes_from_one_thread_iff_restarted :
    metricsTimer.Throughout OneThread metricsTimer.init ([.clear] ++ (notifiedRun ++ [.clear])) := by
  refine (pushes_from_one_thread_iff (l := [.clear] ++ (notifiedRun ++ [.clear])) rfl).mpr ?_
  refine (System.along_append (l := [MetricsAction.clear]) rfl).mpr ⟨⟨?_, fun _ _ => trivial⟩, ?_⟩
  · rintro - t pc hpc
    cases hpc
  refine (System.along_append (l := notifiedRun) rfl).mpr ⟨?_, ?_, fun _ _ => trivial⟩
  · refine System.along_of_forall (fun a ha s => ?_) _
    rintro rfl
    simp [notifiedRun] at ha
  · rintro - t pc hpc
    cases t with
    | zero =>
      cases hpc
      trivial
    | succ t => cases hpc

/-- A thread that is stopped and started again while it is inside the handler. -/
def handlingRun : List MetricsAction :=
  [.clear, .spawn, .thread 0 .go, .thread 0 .go, .thread 0 .go, .thread 0 .timeout,
    .thread 0 .call, .stop, .clear, .spawn]

/-- It pushes on, beside the new thread. -/
theorem stopped_thread_pushes_on :
    ∃ s, metricsTimer.Reachable s ∧ 0 < s.stoppedThreads ∧ Pushes s 0 ∧ Pushes s 1 := by
  refine ⟨_, System.reachable_of_exec (l := handlingRun) rfl, Nat.one_pos, ?_, ?_⟩
  · exact ⟨_, rfl, canPush_iff.mpr ⟨rfl, fun hover => hover⟩⟩
  · exact ⟨_, rfl, canPush_iff.mpr ⟨rfl, fun hover => hover⟩⟩

end EgressAgent
