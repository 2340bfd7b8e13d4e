import Mathlib.Algebra.Order.Field.Rat
import Mathlib.Logic.Function.Basic
import Mathlib.Tactic.Linarith
import EgressAgent.EventStream

/-!
# The heartbeat checker

`HeartbeatChecker` in rational time, under any calls of `start()`, `stop()` and
`heartbeat_received()` and with any handler. A step is one read or write of an
attribute, one section under the lock, the start of a thread or one call of the
handler, and takes no time. Time passes only while no call is in progress and
every thread that has not ended waits and has not been notified, at most up to
half the inactivity timeout after the first of these waits began. A wait may also
end sooner. The loops are named by their ids, which come from a counter that
stands for `uuid4`.

1. The threads. `checkStep_loop`: those of the event stream run in these steps.
2. `heartbeat_detection`: a loop calls the handler only if, when it read the
   elapsed time, which was at the same moment, the latest `start()` or
   `heartbeat_received()` lay more than the timeout before; and the current loop
   has called it as soon as more than three halves of the timeout have passed,
   unless a call of the handler has raised. `alarm_after_heartbeat`: a heartbeat
   may come between the reading and the call, and a loop whose handler has raised
   misses the next outage.
3. `time_goes_on`: in every state, so that the bounds of 2 are met by runs that
   go on.
-/

namespace EgressAgent

open Transition

namespace HeartbeatChecker

/-! ## 1. The threads -/

/-- The control points of `_run_heartbeat_checker`. -/
inductive CheckPc
  /-- the thread is not started yet -/
  | created
  /-- `while self._is_current_loop(loop_id)` -/
  | loopTest
  /-- before the section under the lock -/
  | enterWait
  /-- `self._condition.wait(...)`, since the moment -/
  | waiting (since : ℚ) (notified : Bool)
  /-- the tests after the wait -/
  | retest (elapsedTime : ℚ)
  /-- before the call of the handler -/
  | alarm
  /-- inside the handler -/
  | handling
  /-- the handler has raised, which ends the thread -/
  | raised
  | done
deriving DecidableEq

/-- What a step gets from outside. -/
inductive CheckInput
  | go
  | handlerReturns
  | handlerRaises
deriving DecidableEq

structure CheckLoop where
  pc : CheckPc
  /-- it has called the handler since the latest `start()` or
  `heartbeat_received()` -/
  alerted : Bool
deriving DecidableEq

def CheckLoop.goto (lp : CheckLoop) (pc : CheckPc) : CheckLoop := { lp with pc }

/-- One step of the thread of the loop `t`. It writes nothing that is shared. -/
def loopStep (inactivityTimeout now lastHeartbeat : ℚ) (current : Option Nat) (t : Nat)
    (lp : CheckLoop) : CheckInput → Option CheckLoop
  | .go =>
      match lp.pc with
      | .created => some (lp.goto .loopTest)
      | .loopTest => some (lp.goto (if current = some t then .enterWait else .done))
      | .enterWait => some (lp.goto (.waiting now false))
      -- The wait ends, and the elapsed time is read before the lock is released.
      | .waiting _ _ => some (lp.goto (.retest (now - lastHeartbeat)))
      | .retest elapsedTime =>
          some (lp.goto
            (if current ≠ some t then .done
            else if elapsedTime > inactivityTimeout then .alarm
            else .loopTest))
      | .alarm => some { pc := .handling, alerted := true }
      | _ => none
  | .handlerReturns => if lp.pc = .handling then some (lp.goto .loopTest) else none
  | .handlerRaises => if lp.pc = .handling then some (lp.goto .raised) else none

/-- The control points of the threads of the event stream, whose handler is
`_reconnect`. -/
def ofCheckPc : EventStream.CheckPc → CheckPc
  | .loopTest => .loopTest
  | .waiting => .enterWait
  | .retest elapsedTime => .retest elapsedTime
  | .restartClear => .alarm
  | .restartSet => .handling
  | .restartSpawn _ => .handling
  | .done => .done

/-- The steps here that one step there consists of. -/
def inputsOf : EventStream.CheckPc → List CheckInput
  | .waiting => [.go, .go]
  | .restartSet => []
  | .restartSpawn _ => [.handlerReturns]
  | _ => [.go]

/-- A step of a heartbeat thread of the event stream is a few steps of the
thread here, where the clock has not gone back behind the last heartbeat. -/
theorem checkStep_loop {inactivityTimeout : Nat} {s s' : EventStream.State} {t : Nat}
    {pc pc' : EventStream.CheckPc} {lp : CheckLoop} (hclock : s.lastHeartbeat ≤ s.now)
    (hs : EventStream.checkStep inactivityTimeout s t pc = some s')
    (hpc' : s'.checkers t = some pc') (hlp : lp.pc = ofCheckPc pc) :
    ∃ lp', (inputsOf pc).foldlM
        (loopStep inactivityTimeout s.now s.lastHeartbeat s.checkerLoop t) lp = some lp' ∧
      lp'.pc = ofCheckPc pc' := by
  obtain ⟨pc₀, alerted⟩ := lp
  subst hlp
  cases pc <;> cases hs <;> simp only [EventStream.State.setChecker_checkers,
    Function.update_self, Option.some.injEq] at hpc' <;> subst hpc'
  case loopTest => exact ⟨_, rfl, by simp only [CheckLoop.goto]; split_ifs <;> rfl⟩
  case waiting => exact ⟨_, rfl, by simp [CheckLoop.goto, ofCheckPc, Nat.cast_sub hclock]⟩
  case retest elapsedTime =>
    refine ⟨_, rfl, ?_⟩
    simp only [CheckLoop.goto, gt_iff_lt, Nat.cast_lt]
    split_ifs <;> rfl
  case restartClear => exact ⟨_, rfl, rfl⟩
  case restartSet => exact ⟨_, rfl, rfl⟩
  case restartSpawn loopId => exact ⟨_, rfl, rfl⟩

/-! ## 2. Heartbeats in time -/

structure HeartbeatState where
  /-- what `datetime.now()` shows -/
  now : ℚ
  lastHeartbeat : ℚ
  currentLoopId : Option Nat
  /-- when `start()` or `heartbeat_received()` was last called, and before the
  first of these calls, when the checker was made -/
  latestCall : ℚ
  /-- the calls of `start()` that have not set the loop id yet -/
  starting : Nat
  /-- the calls of `stop()` that have not called `heartbeat_received()` yet -/
  stopping : Nat
  nextId : Nat
  loops : Nat → Option CheckLoop

inductive HeartbeatAction
  /-- `start()`: `_last_heartbeat` -/
  | startTouch
  /-- `start()`: `_current_loop_id` -/
  | startSet
  /-- `stop()`: `_current_loop_id` -/
  | stopClear
  /-- `heartbeat_received()`, called by a `stop()` or not -/
  | heartbeatReceived (byStop : Bool)
  | loop (t : Nat) (i : CheckInput)
  /-- time passes up to a moment -/
  | advance (moment : ℚ)

/-- A call of `start()` or `heartbeat_received()`. -/
def HeartbeatAction.isCall : HeartbeatAction → Bool
  | .startTouch => true
  | .heartbeatReceived _ => true
  | _ => false

/-- `notify_all()`, for one thread. -/
def CheckPc.notified : CheckPc → CheckPc
  | .waiting since _ => .waiting since true
  | pc => pc

/-- The thread can stay where it is up to the moment. -/
def CheckPc.staysUntil (inactivityTimeout moment : ℚ) : CheckPc → Bool
  | .waiting since notified => !notified && decide (moment ≤ since + inactivityTimeout / 2)
  | .raised => true
  | .done => true
  | _ => false

namespace HeartbeatState

/-- `self._last_heartbeat = datetime.datetime.now()` -/
def touch (s : HeartbeatState) : HeartbeatState :=
  { s with
    lastHeartbeat := s.now
    latestCall := s.now
    loops := fun t => (s.loops t).map fun lp => { lp with alerted := false } }

/-- `self._condition.notify_all()` -/
def notifyAll (s : HeartbeatState) : HeartbeatState :=
  { s with loops := fun t => (s.loops t).map fun lp => lp.goto lp.pc.notified }

end HeartbeatState

def heartbeatStep (inactivityTimeout : ℚ) (s : HeartbeatState) :
    HeartbeatAction → Option HeartbeatState
  | .startTouch => some { s.touch with starting := s.starting + 1 }
  | .startSet =>
      if 0 < s.starting then
        some { s with
          starting := s.starting - 1
          currentLoopId := some s.nextId
          nextId := s.nextId + 1
          loops := Function.update s.loops s.nextId (some ⟨.created, false⟩) }
      else none
  | .stopClear => some { s with currentLoopId := none, stopping := s.stopping + 1 }
  | .heartbeatReceived true =>
      if 0 < s.stopping then some { s.touch.notifyAll with stopping := s.stopping - 1 } else none
  | .heartbeatReceived false => some s.touch.notifyAll
  | .loop t i =>
      (s.loops t).bind fun lp =>
        (loopStep inactivityTimeout s.now s.lastHeartbeat s.currentLoopId t lp i).map fun lp' =>
          { s with loops := Function.update s.loops t (some lp') }
  -- All else takes no time, so it passes where only waits are going on.
  | .advance moment =>
      if s.now ≤ moment ∧ s.starting = 0 ∧ s.stopping = 0 ∧
          ∀ t < s.nextId, (s.loops t).all fun lp => lp.pc.staysUntil inactivityTimeout moment then
        some { s with now := moment }
      else none

/-- The checker after its constructor, which was called at the moment `made`. -/
def heartbeatChecker (inactivityTimeout made : ℚ) : System HeartbeatState HeartbeatAction where
  init :=
    { now := made, lastHeartbeat := made, currentLoopId := none, latestCall := made,
      starting := 0, stopping := 0, nextId := 0, loops := fun _ => none }
  step := heartbeatStep inactivityTimeout

/-- The next step of the loop `t` ends its wait and reads the elapsed time. -/
def HeartbeatState.Reads (s : HeartbeatState) (t : Nat) : Prop :=
  ∃ lp since notified, s.loops t = some lp ∧ lp.pc = .waiting since notified

/-- The next step of the loop `t` calls the handler. -/
def HeartbeatState.Calls (s : HeartbeatState) (t : Nat) : Prop :=
  ∃ lp, s.loops t = some lp ∧ lp.pc = .alarm

end HeartbeatChecker

open HeartbeatChecker

namespace HeartbeatCheckerLemmas

variable {inactivityTimeout made : ℚ} {s s' : HeartbeatState} {a : HeartbeatAction}

/-- The moves of the checker, one constructor for each branch of `heartbeatStep`
that goes on, with the two kinds of `heartbeat_received()` in one. -/
inductive HeartbeatMove (inactivityTimeout : ℚ) (s : HeartbeatState) :
    HeartbeatAction → HeartbeatState → Prop
  | startTouch : HeartbeatMove inactivityTimeout s .startTouch
      { s.touch with starting := s.starting + 1 }
  | startSet : 0 < s.starting → HeartbeatMove inactivityTimeout s .startSet
      { s with
        starting := s.starting - 1
        currentLoopId := some s.nextId
        nextId := s.nextId + 1
        loops := Function.update s.loops s.nextId (some ⟨.created, false⟩) }
  | stopClear : HeartbeatMove inactivityTimeout s .stopClear
      { s with currentLoopId := none, stopping := s.stopping + 1 }
  | heartbeatReceived (byStop : Bool) (stopping : Nat) :
      HeartbeatMove inactivityTimeout s (.heartbeatReceived byStop)
        { s.touch.notifyAll with stopping }
  | loop {t : Nat} {i : CheckInput} {lp lp' : CheckLoop} : s.loops t = some lp →
      loopStep inactivityTimeout s.now s.lastHeartbeat s.currentLoopId t lp i = some lp' →
      HeartbeatMove inactivityTimeout s (.loop t i)
        { s with loops := Function.update s.loops t (some lp') }
  | advance {moment : ℚ} : s.now ≤ moment → s.starting = 0 →
      (∀ t < s.nextId, ∀ lp, s.loops t = some lp →
        lp.pc.staysUntil inactivityTimeout moment = true) →
      HeartbeatMove inactivityTimeout s (.advance moment) { s with now := moment }

theorem heartbeatStep_move (hs : heartbeatStep inactivityTimeout s a = some s') :
    HeartbeatMove inactivityTimeout s a s' := by
  cases a with
  | startTouch =>
    cases hs
    exact .startTouch
  | startSet =>
    obtain ⟨hstarting, hs⟩ := Option.ite_none_right_eq_some.mp hs
    cases hs
    exact .startSet hstarting
  | stopClear =>
    cases hs
    exact .stopClear
  | heartbeatReceived byStop =>
    cases byStop with
    | true =>
      obtain ⟨-, hs⟩ := Option.ite_none_right_eq_some.mp hs
      cases hs
      exact .heartbeatReceived true _
    | false =>
      cases hs
      exact .heartbeatReceived false s.stopping
  | loop t i =>
    obtain ⟨lp, hl, hs⟩ := Option.bind_eq_some_iff.mp hs
    obtain ⟨lp', hstep, rfl⟩ := Option.map_eq_some_iff.mp hs
    exact .loop hl hstep
  | advance moment =>
    obtain ⟨⟨hmoment, hstarting, -, hstays⟩, hs⟩ := Option.ite_none_right_eq_some.mp hs
    cases hs
    refine .advance hmoment hstarting fun t ht lp hl => ?_
    simpa [hl] using hstays t ht

/-- The moves of a thread. -/
inductive LoopMove (inactivityTimeout now lastHeartbeat : ℚ) (current : Option Nat) (t : Nat)
    (lp : CheckLoop) : CheckInput → CheckLoop → Prop
  | begins : lp.pc = .created →
      LoopMove inactivityTimeout now lastHeartbeat current t lp .go (lp.goto .loopTest)
  | enters : lp.pc = .loopTest → current = some t →
      LoopMove inactivityTimeout now lastHeartbeat current t lp .go (lp.goto .enterWait)
  | waits : lp.pc = .enterWait →
      LoopMove inactivityTimeout now lastHeartbeat current t lp .go (lp.goto (.waiting now false))
  | reads {since : ℚ} {notified : Bool} : lp.pc = .waiting since notified →
      LoopMove inactivityTimeout now lastHeartbeat current t lp .go
        (lp.goto (.retest (now - lastHeartbeat)))
  | alive {elapsedTime : ℚ} : lp.pc = .retest elapsedTime → elapsedTime ≤ inactivityTimeout →
      LoopMove inactivityTimeout now lastHeartbeat current t lp .go (lp.goto .loopTest)
  | late {elapsedTime : ℚ} : lp.pc = .retest elapsedTime → inactivityTimeout < elapsedTime →
      LoopMove inactivityTimeout now lastHeartbeat current t lp .go (lp.goto .alarm)
  | calls : lp.pc = .alarm →
      LoopMove inactivityTimeout now lastHeartbeat current t lp .go ⟨.handling, true⟩
  | returns : lp.pc = .handling →
      LoopMove inactivityTimeout now lastHeartbeat current t lp .handlerReturns (lp.goto .loopTest)
  | raises : lp.pc = .handling →
      LoopMove inactivityTimeout now lastHeartbeat current t lp .handlerRaises (lp.goto .raised)
  | ends : current ≠ some t →
      LoopMove inactivityTimeout now lastHeartbeat current t lp .go (lp.goto .done)

theorem loopStep_move {now lastHeartbeat : ℚ} {current : Option Nat} {t : Nat} {lp lp' : CheckLoop}
    {i : CheckInput}
    (hs : loopStep inactivityTimeout now lastHeartbeat current t lp i = some lp') :
    LoopMove inactivityTimeout now lastHeartbeat current t lp i lp' := by
  cases i with
  | go =>
    unfold loopStep at hs
    cases hpc : lp.pc with
    | created =>
      simp only [hpc, Option.some.injEq] at hs
      exact hs ▸ .begins hpc
    | loopTest =>
      simp only [hpc, Option.some.injEq] at hs
      subst hs
      split_ifs with hcurrent
      · exact .enters hpc hcurrent
      · exact .ends hcurrent
    | enterWait =>
      simp only [hpc, Option.some.injEq] at hs
      exact hs ▸ .waits hpc
    | waiting since notified =>
      simp only [hpc, Option.some.injEq] at hs
      exact hs ▸ .reads hpc
    | retest elapsedTime =>
      simp only [hpc, Option.some.injEq] at hs
      subst hs
      split_ifs with hcurrent hlate
      · exact .ends hcurrent
      · exact .late hpc hlate
      · exact .alive hpc (not_lt.mp hlate)
    | alarm =>
      simp only [hpc, Option.some.injEq] at hs
      exact hs ▸ .calls hpc
    | _ => simp [hpc] at hs
  | handlerReturns =>
    obtain ⟨hpc, hs⟩ := Option.ite_none_right_eq_some.mp hs
    cases hs
    exact .returns hpc
  | handlerRaises =>
    obtain ⟨hpc, hs⟩ := Option.ite_none_right_eq_some.mp hs
    cases hs
    exact .raises hpc

/-- A thread that waits does so for half the timeout at most. -/
def Timed (inactivityTimeout now : ℚ) : CheckPc → Prop
  | .waiting since _ => since ≤ now ∧ now ≤ since + inactivityTimeout / 2
  | _ => True

/-- How late it can be at each control point of a loop that has not called the
handler since the moment `latest`. -/
def OnTime (inactivityTimeout now latest : ℚ) : CheckPc → Prop
  | .waiting since _ => since ≤ latest + inactivityTimeout
  | .retest elapsedTime =>
      now ≤ latest + 3 * inactivityTimeout / 2 ∧
        (elapsedTime ≤ inactivityTimeout → now ≤ latest + inactivityTimeout)
  | .alarm => now ≤ latest + 3 * inactivityTimeout / 2
  | .raised => True
  | _ => now ≤ latest + inactivityTimeout

/-- Every wait is timely, and the current loop goes on and is on time unless it
has called the handler. -/
structure DetectionInv (inactivityTimeout : ℚ) (s : HeartbeatState) : Prop where
  touched : s.lastHeartbeat = s.latestCall
  past : s.latestCall ≤ s.now
  starting : 0 < s.starting → s.latestCall = s.now
  fresh : ∀ t lp, s.loops t = some lp → t < s.nextId
  timed : ∀ t lp, s.loops t = some lp → Timed inactivityTimeout s.now lp.pc
  current : ∀ t, s.currentLoopId = some t → ∃ lp, s.loops t = some lp ∧ lp.pc ≠ .done ∧
    (lp.alerted = false → OnTime inactivityTimeout s.now s.latestCall lp.pc)

/-- A loop is on time at the moment of a call. -/
theorem onTime_now (hT : 0 < inactivityTimeout) {now : ℚ} {pc : CheckPc}
    (h : Timed inactivityTimeout now pc) : OnTime inactivityTimeout now now pc := by
  cases pc with
  | waiting since notified =>
    have hsince : since ≤ now := h.1
    show since ≤ now + inactivityTimeout
    linarith
  | retest elapsedTime =>
    constructor
    · linarith
    · intro _
      linarith
  | alarm =>
    show now ≤ now + 3 * inactivityTimeout / 2
    linarith
  | raised => trivial
  | _ =>
    show now ≤ now + inactivityTimeout
    linarith

/-- A loop that is on time calls the handler before three halves of the timeout
have passed. -/
theorem OnTime.bound (hT : 0 < inactivityTimeout) {now latest : ℚ} {pc : CheckPc}
    (hpc : pc ≠ .raised) (htimed : Timed inactivityTimeout now pc)
    (h : OnTime inactivityTimeout now latest pc) : now ≤ latest + 3 * inactivityTimeout / 2 := by
  cases pc with
  | waiting since notified =>
    have hsince : since ≤ latest + inactivityTimeout := h
    have hnow : now ≤ since + inactivityTimeout / 2 := htimed.2
    linarith
  | retest elapsedTime => exact h.1
  | alarm => exact h
  | raised => exact absurd rfl hpc
  | _ =>
    have hnow : now ≤ latest + inactivityTimeout := h
    linarith

/-- A move of the current loop. -/
theorem onTime_move (hT : 0 < inactivityTimeout) {now latest : ℚ} {t : Nat} {lp lp' : CheckLoop}
    {i : CheckInput} (hm : LoopMove inactivityTimeout now latest (some t) t lp i lp')
    (htimed : Timed inactivityTimeout now lp.pc)
    (hlp : lp.alerted = false → OnTime inactivityTimeout now latest lp.pc) :
    lp'.pc ≠ .done ∧ (lp'.alerted = false → OnTime inactivityTimeout now latest lp'.pc) := by
  cases hm with
  | begins hpc =>
    rw [hpc] at hlp
    exact ⟨nofun, hlp⟩
  | enters hpc _ =>
    rw [hpc] at hlp
    exact ⟨nofun, hlp⟩
  | waits hpc =>
    rw [hpc] at hlp
    exact ⟨nofun, hlp⟩
  | reads hpc =>
    rw [hpc] at hlp htimed
    refine ⟨nofun, fun hquiet => ⟨(hlp hquiet).bound hT (by simp) htimed, fun helapsed => ?_⟩⟩
    linarith
  | alive hpc halive =>
    rw [hpc] at hlp
    exact ⟨nofun, fun hquiet => (hlp hquiet).2 halive⟩
  | late hpc _ =>
    rw [hpc] at hlp
    exact ⟨nofun, fun hquiet => (hlp hquiet).1⟩
  | calls hpc => exact ⟨nofun, nofun⟩
  | returns hpc =>
    rw [hpc] at hlp
    exact ⟨nofun, hlp⟩
  | raises hpc => exact ⟨nofun, fun _ => trivial⟩
  | ends hcurrent => exact absurd rfl hcurrent

theorem timed_move (hT : 0 < inactivityTimeout) {now lastHeartbeat : ℚ} {current : Option Nat}
    {t : Nat} {lp lp' : CheckLoop} {i : CheckInput}
    (hm : LoopMove inactivityTimeout now lastHeartbeat current t lp i lp') :
    Timed inactivityTimeout now lp'.pc := by
  cases hm with
  | waits hpc =>
    refine ⟨le_rfl, ?_⟩
    linarith
  | _ => trivial

theorem timed_notified {now : ℚ} {pc : CheckPc} :
    Timed inactivityTimeout now pc.notified ↔ Timed inactivityTimeout now pc := by
  cases pc <;> rfl

theorem onTime_notified {now latest : ℚ} {pc : CheckPc} :
    OnTime inactivityTimeout now latest pc.notified ↔ OnTime inactivityTimeout now latest pc := by
  cases pc <;> rfl

theorem notified_eq_done {pc : CheckPc} : pc.notified = .done ↔ pc = .done := by
  cases pc <;> simp [CheckPc.notified]

/-- Time that passes is what remains of a wait. -/
theorem timed_of_stays {now moment : ℚ} {pc : CheckPc} (hmoment : now ≤ moment)
    (hstays : pc.staysUntil inactivityTimeout moment = true)
    (h : Timed inactivityTimeout now pc) : Timed inactivityTimeout moment pc := by
  cases pc with
  | waiting since notified =>
    rw [CheckPc.staysUntil, Bool.and_eq_true, decide_eq_true_eq] at hstays
    exact ⟨h.1.trans hmoment, hstays.2⟩
  | _ => trivial

theorem onTime_of_stays {now latest moment : ℚ} {pc : CheckPc} (hdone : pc ≠ .done)
    (hstays : pc.staysUntil inactivityTimeout moment = true)
    (h : OnTime inactivityTimeout now latest pc) : OnTime inactivityTimeout moment latest pc := by
  cases pc with
  | waiting since notified => exact h
  | raised => trivial
  | done => exact absurd rfl hdone
  | _ => cases hstays

/-- What a call of `start()` or `heartbeat_received()` keeps. -/
theorem DetectionInv.touch (hT : 0 < inactivityTimeout) (hi : DetectionInv inactivityTimeout s)
    (starting stopping : Nat) :
    DetectionInv inactivityTimeout { s.touch with starting, stopping } := by
  refine ⟨rfl, le_rfl, fun _ => rfl, fun t lp hl => ?_, fun t lp hl => ?_, fun t hcurrent => ?_⟩
  · obtain ⟨lp₀, hl₀, rfl⟩ := Option.map_eq_some_iff.mp hl
    exact hi.fresh t lp₀ hl₀
  · obtain ⟨lp₀, hl₀, rfl⟩ := Option.map_eq_some_iff.mp hl
    exact hi.timed t lp₀ hl₀
  · obtain ⟨lp, hl, hdone, -⟩ := hi.current t hcurrent
    exact ⟨{ lp with alerted := false }, by simp [HeartbeatState.touch, hl], hdone,
      fun _ => onTime_now hT (hi.timed t lp hl)⟩

theorem DetectionInv.notifyAll (hi : DetectionInv inactivityTimeout s) :
    DetectionInv inactivityTimeout s.notifyAll := by
  refine ⟨hi.touched, hi.past, hi.starting, fun t lp hl => ?_, fun t lp hl => ?_,
    fun t hcurrent => ?_⟩
  · obtain ⟨lp₀, hl₀, rfl⟩ := Option.map_eq_some_iff.mp hl
    exact hi.fresh t lp₀ hl₀
  · obtain ⟨lp₀, hl₀, rfl⟩ := Option.map_eq_some_iff.mp hl
    exact timed_notified.mpr (hi.timed t lp₀ hl₀)
  · obtain ⟨lp, hl, hdone, htime⟩ := hi.current t hcurrent
    exact ⟨lp.goto lp.pc.notified, by simp [HeartbeatState.notifyAll, hl],
      mt notified_eq_done.mp hdone, fun hquiet => onTime_notified.mpr (htime hquiet)⟩

theorem detectionInv_step (hT : 0 < inactivityTimeout) (hi : DetectionInv inactivityTimeout s)
    (hs : heartbeatStep inactivityTimeout s a = some s') : DetectionInv inactivityTimeout s' := by
  cases heartbeatStep_move hs with
  | startTouch => exact hi.touch hT _ s.stopping
  | startSet hstarting =>
    -- No time has passed since the call of `start()` that goes on here.
    have hnow := hi.starting hstarting
    refine ⟨hi.touched, hi.past, fun _ => hnow, ?_, ?_, fun t hcurrent => ?_⟩
    · exact update_thread_of_ne (fun t _ lp hl => Nat.lt_succ_of_lt (hi.fresh t lp hl))
        (Nat.lt_succ_self _)
    · exact update_thread_of_ne (fun t _ lp hl => hi.timed t lp hl) trivial
    · cases hcurrent
      refine ⟨_, Function.update_self .., nofun, fun _ => ?_⟩
      show s.now ≤ s.latestCall + inactivityTimeout
      linarith
  | stopClear => exact ⟨hi.touched, hi.past, hi.starting, hi.fresh, hi.timed, nofun⟩
  | heartbeatReceived byStop stopping => exact (hi.touch hT s.starting stopping).notifyAll
  | @loop t i lp lp' hl hstep =>
    have hm := loopStep_move hstep
    refine ⟨hi.touched, hi.past, hi.starting, ?_, ?_, fun t₁ hcurrent => ?_⟩
    · exact update_thread hi.fresh (hi.fresh t lp hl)
    · exact update_thread hi.timed (timed_move hT hm)
    · -- The thread that moves may be that of a replaced loop.
      by_cases ht : t₁ = t
      · subst ht
        obtain ⟨lp₀, hl₀, -, htime⟩ := hi.current t₁ hcurrent
        obtain rfl : lp₀ = lp := Option.some.inj (hl₀.symm.trans hl)
        rw [hcurrent, hi.touched] at hm
        exact ⟨lp', Function.update_self .., onTime_move hT hm (hi.timed t₁ lp₀ hl) htime⟩
      · obtain ⟨lp₀, hl₀, hlp₀⟩ := hi.current t₁ hcurrent
        exact ⟨lp₀, (Function.update_of_ne ht ..).trans hl₀, hlp₀⟩
  | advance hmoment hstarting hstays =>
    refine ⟨hi.touched, hi.past.trans hmoment, fun h => absurd hstarting h.ne', hi.fresh,
      fun t lp hl => ?_, fun t hcurrent => ?_⟩
    · exact timed_of_stays hmoment (hstays t (hi.fresh t lp hl) lp hl) (hi.timed t lp hl)
    · obtain ⟨lp, hl, hdone, htime⟩ := hi.current t hcurrent
      have hstay := hstays t (hi.fresh t lp hl) lp hl
      exact ⟨lp, hl, hdone, fun hquiet => onTime_of_stays hdone hstay (htime hquiet)⟩

theorem detectionInv (hT : 0 < inactivityTimeout)
    (h : (heartbeatChecker inactivityTimeout made).Reachable s) :
    DetectionInv inactivityTimeout s := by
  refine h.invariant (I := DetectionInv inactivityTimeout) ?_
    fun _ _ _ hi _ hs => detectionInv_step hT hi hs
  exact ⟨rfl, le_rfl, fun _ => rfl, nofun, nofun, nofun⟩

/-- A thread that has read an elapsed time beyond the timeout, up to its call of
the handler. -/
def Late (inactivityTimeout : ℚ) : CheckPc → Prop
  | .retest elapsedTime => inactivityTimeout < elapsedTime
  | .alarm => True
  | _ => False

def LateAt (inactivityTimeout : ℚ) (t : Nat) (s : HeartbeatState) : Prop :=
  ∃ lp, s.loops t = some lp ∧ Late inactivityTimeout lp.pc

theorem late_notified {pc : CheckPc} :
    Late inactivityTimeout pc.notified ↔ Late inactivityTimeout pc := by
  cases pc <;> rfl

/-- A thread becomes late by what it reads. -/
theorem reads_of_late {t : Nat} (hs : heartbeatStep inactivityTimeout s a = some s')
    (h : ¬ LateAt inactivityTimeout t s) (h' : LateAt inactivityTimeout t s') :
    a = .loop t .go ∧ s.Reads t ∧ inactivityTimeout < s.now - s.lastHeartbeat := by
  obtain ⟨lp', hl', hlate⟩ := h'
  cases heartbeatStep_move hs with
  | startTouch =>
    obtain ⟨lp, hl, rfl⟩ := Option.map_eq_some_iff.mp hl'
    exact absurd ⟨lp, hl, hlate⟩ h
  | startSet _ =>
    by_cases ht : t = s.nextId
    · subst ht
      cases (Function.update_self ..).symm.trans hl'
      exact hlate.elim
    · exact absurd ⟨lp', (Function.update_of_ne ht ..).symm.trans hl', hlate⟩ h
  | stopClear => exact absurd ⟨lp', hl', hlate⟩ h
  | heartbeatReceived byStop stopping =>
    obtain ⟨lp₁, hl₁, rfl⟩ := Option.map_eq_some_iff.mp hl'
    obtain ⟨lp, hl, rfl⟩ := Option.map_eq_some_iff.mp hl₁
    exact absurd ⟨lp, hl, late_notified.mp hlate⟩ h
  | @loop t₁ i lp lp₁ hl hstep =>
    by_cases ht : t = t₁
    · subst ht
      obtain rfl : lp₁ = lp' := by simpa using hl'
      cases loopStep_move hstep with
      | reads hpc => exact ⟨rfl, ⟨lp, _, _, hl, hpc⟩, hlate⟩
      | late hpc hbeyond =>
        refine absurd ⟨lp, hl, ?_⟩ h
        rw [hpc]
        exact hbeyond
      | _ => exact hlate.elim
    · exact absurd ⟨lp', (Function.update_of_ne ht ..).symm.trans hl', hlate⟩ h
  | advance _ _ _ => exact absurd ⟨lp', hl', hlate⟩ h

/-- No time passes while a thread is late. -/
theorem now_of_late {t : Nat} (hi : DetectionInv inactivityTimeout s)
    (h : LateAt inactivityTimeout t s) (hs : heartbeatStep inactivityTimeout s a = some s') :
    s'.now = s.now := by
  obtain ⟨lp, hl, hlate⟩ := h
  cases heartbeatStep_move hs with
  | advance _ _ hstays =>
    have hstay := hstays t (hi.fresh t lp hl) lp hl
    cases hpc : lp.pc with
    | retest elapsedTime =>
      rw [hpc] at hstay
      cases hstay
    | alarm =>
      rw [hpc] at hstay
      cases hstay
    | _ =>
      rw [hpc] at hlate
      exact hlate.elim
  | _ => rfl

theorem latestCall_of_step (hcall : a.isCall = false)
    (hs : heartbeatStep inactivityTimeout s a = some s') : s'.latestCall = s.latestCall := by
  cases heartbeatStep_move hs with
  | startTouch => cases hcall
  | heartbeatReceived => cases hcall
  | _ => rfl

/-- A step of a thread changes neither the moment nor the latest call. -/
theorem frame_of_loop {t : Nat} {i : CheckInput}
    (hs : heartbeatStep inactivityTimeout s (.loop t i) = some s') :
    s'.now = s.now ∧ s'.latestCall = s.latestCall := by
  cases heartbeatStep_move hs
  exact ⟨rfl, rfl⟩

theorem now_of_late_run (hT : 0 < inactivityTimeout) {t : Nat} {l : List HeartbeatAction}
    (hi : DetectionInv inactivityTimeout s)
    (hall : (heartbeatChecker inactivityTimeout made).Along
      (fun s _ => LateAt inactivityTimeout t s) s l)
    (h : (heartbeatChecker inactivityTimeout made).exec s l = some s') : s'.now = s.now := by
  refine (System.exec_invariant
    (I := fun s₁ => DetectionInv inactivityTimeout s₁ ∧ s₁.now = s.now) ?_ ⟨hi, rfl⟩ hall h).2
  exact fun s₁ a s₂ hi hlate hs =>
    ⟨detectionInv_step hT hi.1 hs, (now_of_late hi.1 hlate hs).trans hi.2⟩

theorem latestCall_of_run {l : List HeartbeatAction} (hquiet : ∀ a ∈ l, a.isCall = false)
    (h : (heartbeatChecker inactivityTimeout made).exec s l = some s') :
    s'.latestCall = s.latestCall := by
  refine System.exec_invariant (I := fun s₁ => s₁.latestCall = s.latestCall) ?_ rfl
    (System.along_of_forall (fun a ha _ => hquiet a ha) s) h
  exact fun s₁ a s₂ hi hcall hs => (latestCall_of_step hcall hs).trans hi

end HeartbeatCheckerLemmas

open HeartbeatCheckerLemmas

/-- A loop calls the handler only if it has read the elapsed time at the same
moment and then the latest `start()` or `heartbeat_received()` lay more than the
timeout before; so this holds at the call too, unless another one came between.
The current loop, if no call of the handler by it has raised, has called it
since the latest of these as soon as more than three halves of the timeout have
passed. -/
theorem heartbeat_detection {inactivityTimeout : ℚ} (hT : 0 < inactivityTimeout) (made : ℚ)
    {l : List HeartbeatAction} {s : HeartbeatState}
    (h : (heartbeatChecker inactivityTimeout made).exec
      (heartbeatChecker inactivityTimeout made).init l = some s) (t : Nat) :
    (s.Calls t → ∃ l₁ l₂ s₁, l = l₁ ++ .loop t .go :: l₂ ∧
      (heartbeatChecker inactivityTimeout made).exec
        (heartbeatChecker inactivityTimeout made).init l₁ = some s₁ ∧
      s₁.Reads t ∧ s₁.now = s.now ∧ s₁.latestCall + inactivityTimeout < s.now ∧
      ((∀ a ∈ l₂, a.isCall = false) → s.latestCall + inactivityTimeout < s.now)) ∧
    (s.currentLoopId = some t → ∀ lp, s.loops t = some lp → lp.pc ≠ .raised →
      s.latestCall + 3 * inactivityTimeout / 2 < s.now → lp.alerted = true) := by
  constructor
  · rintro ⟨lp, hl, hpc⟩
    have hlate : LateAt inactivityTimeout t s := ⟨lp, hl, by rw [hpc]; trivial⟩
    -- The step after which the thread is late for good is its reading.
    obtain ⟨l₁, a, l₂, s₁, s₂, rfl, h₁, hearly, hread, hlate₂, h₂, hall⟩ :=
      System.exec_last_entry (fun ⟨_, hnone, _⟩ => by cases hnone) h hlate
    have hi₁ := detectionInv hT (System.reachable_of_exec h₁)
    have hstep : heartbeatStep inactivityTimeout s₁ a = some s₂ := hread
    have hi₂ := detectionInv_step hT hi₁ hstep
    obtain ⟨rfl, hreads, hbeyond⟩ := reads_of_late hstep hearly hlate₂
    obtain ⟨hsame, hkept⟩ := frame_of_loop hstep
    rw [hi₁.touched] at hbeyond
    have hnow : s.now = s₁.now := (now_of_late_run hT hi₂ hall h₂).trans hsame
    have hbefore : s₁.latestCall + inactivityTimeout < s.now := by
      rw [hnow]
      linarith
    refine ⟨l₁, l₂, s₁, rfl, h₁, hreads, hnow.symm, hbefore, fun hquiet => ?_⟩
    rw [latestCall_of_run hquiet h₂, hkept]
    exact hbefore
  · intro hcurrent lp hl hraised hbeyond
    have hi := detectionInv hT (System.reachable_of_exec h)
    obtain ⟨lp₀, hl₀, -, htime⟩ := hi.current t hcurrent
    obtain rfl : lp₀ = lp := Option.some.inj (hl₀.symm.trans hl)
    by_contra hquiet
    rw [Bool.not_eq_true] at hquiet
    exact absurd ((htime hquiet).bound hT hraised (hi.timed t lp₀ hl)) (not_le_of_gt hbeyond)

/-- The state as far as the runs below are read off. -/
def HeartbeatState.summary (s : HeartbeatState) : ℚ × ℚ × Option Nat × Option CheckLoop :=
  (s.now, s.latestCall, s.currentLoopId, s.loops 0)

theorem HeartbeatCheckerLemmas.exists_of_summary {l : List HeartbeatAction} {now latest : ℚ}
    {lp : CheckLoop}
    (h : ((heartbeatChecker 2 0).exec (heartbeatChecker 2 0).init l).map HeartbeatState.summary =
      some (now, latest, some 0, some lp)) :
    ∃ s, (heartbeatChecker 2 0).exec (heartbeatChecker 2 0).init l = some s ∧ s.now = now ∧
      s.latestCall = latest ∧ s.currentLoopId = some 0 ∧ s.loops 0 = some lp := by
  obtain ⟨s, hs, hsummary⟩ := Option.map_eq_some_iff.mp h
  simp only [HeartbeatState.summary, Prod.mk.injEq] at hsummary
  exact ⟨s, hs, hsummary⟩

/-- A whole wait of the first loop, which ends at the moment, and the beginning
of the next one. -/
def waitRun (moment : ℚ) : List HeartbeatAction :=
  [.advance moment, .loop 0 .go, .loop 0 .go, .loop 0 .go, .loop 0 .go]

/-- Three waits without a heartbeat, for a timeout of 2. At the end of the second
one the elapsed time is the timeout. -/
def silentRun : List HeartbeatAction :=
  [.startTouch, .startSet, .loop 0 .go, .loop 0 .go, .loop 0 .go] ++ waitRun 1 ++ waitRun 2 ++
    [.advance 3, .loop 0 .go, .loop 0 .go]

/-- The call of the handler and the next wait. -/
def alertedRun : List HeartbeatAction :=
  silentRun ++ [.loop 0 .go, .loop 0 .handlerReturns, .loop 0 .go, .loop 0 .go, .advance 4]

/-- The rule at a silent server: the handler is called at the moment 3, and at 4
it has been called. -/
theorem heartbeat_detection_silent :
    (∃ s, (heartbeatChecker 2 0).exec (heartbeatChecker 2 0).init silentRun = some s ∧ s.now = 3 ∧
      ∃ s₁, (heartbeatChecker 2 0).Reachable s₁ ∧ s₁.Reads 0 ∧ s₁.now = 3 ∧
        s₁.latestCall + 2 < 3) ∧
    ∃ s lp, (heartbeatChecker 2 0).exec (heartbeatChecker 2 0).init alertedRun = some s ∧
      s.now = 4 ∧ s.loops 0 = some lp ∧ lp.alerted = true := by
  constructor
  · have hrun : ((heartbeatChecker 2 0).exec (heartbeatChecker 2 0).init silentRun).map
        HeartbeatState.summary = some (3, 0, some 0, some ⟨.alarm, false⟩) := by decide +kernel
    obtain ⟨s, hs, hnow, -, -, hl⟩ := exists_of_summary hrun
    obtain ⟨l₁, l₂, s₁, -, h₁, hreads, hmoment, hbeyond, -⟩ :=
      (heartbeat_detection two_pos 0 hs 0).1 ⟨_, hl, rfl⟩
    rw [hnow] at hmoment hbeyond
    exact ⟨s, hs, hnow, s₁, System.reachable_of_exec h₁, hreads, hmoment, hbeyond⟩
  · have hrun : ((heartbeatChecker 2 0).exec (heartbeatChecker 2 0).init alertedRun).map
        HeartbeatState.summary = some (4, 0, some 0, some ⟨.waiting 3 false, true⟩) := by
      decide +kernel
    obtain ⟨s, hs, hnow, hlatest, hcurrent, hl⟩ := exists_of_summary hrun
    refine ⟨s, _, hs, hnow, hl, (heartbeat_detection two_pos 0 hs 0).2 hcurrent _ hl (by simp) ?_⟩
    rw [hnow, hlatest]
    norm_num

/-- The reading at the moment 3, and a heartbeat before the call. -/
def overtakenRun : List HeartbeatAction := silentRun ++ [.heartbeatReceived false]

/-- The handler raises, a heartbeat comes at the moment 4, and then no more. -/
def raisedRun : List HeartbeatAction :=
  silentRun ++ [.loop 0 .go, .loop 0 .handlerRaises, .advance 4, .heartbeatReceived false,
    .advance 8]

/-- The handler is called right after a heartbeat; and after a call of it that
has raised, an outage is not noticed. -/
theorem alarm_after_heartbeat :
    (∃ s, (heartbeatChecker 2 0).Reachable s ∧ s.currentLoopId = some 0 ∧ s.Calls 0 ∧
      s.latestCall = s.now) ∧
    ∃ s lp, (heartbeatChecker 2 0).Reachable s ∧ s.currentLoopId = some 0 ∧
      s.loops 0 = some lp ∧ s.latestCall + 3 * 2 / 2 < s.now ∧ lp.alerted = false := by
  constructor
  · have hrun : ((heartbeatChecker 2 0).exec (heartbeatChecker 2 0).init overtakenRun).map
        HeartbeatState.summary = some (3, 3, some 0, some ⟨.alarm, false⟩) := by decide +kernel
    obtain ⟨s, hs, hnow, hlatest, hcurrent, hl⟩ := exists_of_summary hrun
    exact ⟨s, System.reachable_of_exec hs, hcurrent, ⟨_, hl, rfl⟩, hlatest.trans hnow.symm⟩
  · have hrun : ((heartbeatChecker 2 0).exec (heartbeatChecker 2 0).init raisedRun).map
        HeartbeatState.summary = some (8, 4, some 0, some ⟨.raised, false⟩) := by decide +kernel
    obtain ⟨s, hs, hnow, hlatest, hcurrent, hl⟩ := exists_of_summary hrun
    refine ⟨s, _, System.reachable_of_exec hs, hcurrent, hl, ?_, rfl⟩
    rw [hnow, hlatest]
    norm_num

/-! ## 3. Time goes on -/

namespace HeartbeatCheckerLemmas

variable {inactivityTimeout now lastHeartbeat : ℚ} {current : Option Nat} {t : Nat}

/-- The thread has just begun to wait, or has ended. -/
def Rests (now : ℚ) (pc : CheckPc) : Prop := pc = .waiting now false ∨ pc = .raised ∨ pc = .done

/-- The thread can go on until it rests. -/
def Settles (inactivityTimeout now lastHeartbeat : ℚ) (current : Option Nat) (t : Nat)
    (lp : CheckLoop) : Prop :=
  ∃ (l : List CheckInput) (lp' : CheckLoop),
    l.foldlM (loopStep inactivityTimeout now lastHeartbeat current t) lp = some lp' ∧
      Rests now lp'.pc

theorem settles_of_step {lp lp' : CheckLoop} {i : CheckInput}
    (hs : loopStep inactivityTimeout now lastHeartbeat current t lp i = some lp')
    (h : Settles inactivityTimeout now lastHeartbeat current t lp') :
    Settles inactivityTimeout now lastHeartbeat current t lp := by
  obtain ⟨l, lp₁, hl, hrests⟩ := h
  exact ⟨i :: l, lp₁, by rw [List.foldlM_cons, hs]; exact hl, hrests⟩

theorem settles_of_rests {lp : CheckLoop} (h : Rests now lp.pc) :
    Settles inactivityTimeout now lastHeartbeat current t lp :=
  ⟨[], lp, rfl, h⟩

theorem settles_loopTest (alerted : Bool) :
    Settles inactivityTimeout now lastHeartbeat current t ⟨.loopTest, alerted⟩ := by
  refine settles_of_step (i := .go) rfl ?_
  split_ifs
  · exact settles_of_step (i := .go) rfl (settles_of_rests (.inl rfl))
  · exact settles_of_rests (.inr (.inr rfl))

theorem settles_alarm (alerted : Bool) :
    Settles inactivityTimeout now lastHeartbeat current t ⟨.alarm, alerted⟩ :=
  settles_of_step (i := .go) rfl (settles_of_step (i := .handlerReturns) rfl (settles_loopTest true))

theorem settles_retest (elapsedTime : ℚ) (alerted : Bool) :
    Settles inactivityTimeout now lastHeartbeat current t ⟨.retest elapsedTime, alerted⟩ := by
  refine settles_of_step (i := .go) rfl ?_
  split_ifs
  · exact settles_of_rests (.inr (.inr rfl))
  · exact settles_alarm alerted
  · exact settles_loopTest alerted

/-- A thread whose handler returns can always go on until it rests. -/
theorem settles (lp : CheckLoop) :
    Settles inactivityTimeout now lastHeartbeat current t lp := by
  obtain ⟨pc, alerted⟩ := lp
  cases pc with
  | created => exact settles_of_step (i := .go) rfl (settles_loopTest alerted)
  | loopTest => exact settles_loopTest alerted
  | enterWait => exact settles_of_step (i := .go) rfl (settles_of_rests (.inl rfl))
  | waiting since notified => exact settles_of_step (i := .go) rfl (settles_retest _ alerted)
  | retest elapsedTime => exact settles_retest elapsedTime alerted
  | alarm => exact settles_alarm alerted
  | handling => exact settles_of_step (i := .handlerReturns) rfl (settles_loopTest alerted)
  | raised => exact settles_of_rests (.inr (.inl rfl))
  | done => exact settles_of_rests (.inr (.inr rfl))

variable (inactivityTimeout made : ℚ)

/-- Steps of one thread, as steps of the checker. -/
theorem exec_loop {s : HeartbeatState} {l : List CheckInput} {lp lp' : CheckLoop}
    (hl : s.loops t = some lp)
    (hrun : l.foldlM (loopStep inactivityTimeout s.now s.lastHeartbeat s.currentLoopId t) lp =
      some lp') :
    (heartbeatChecker inactivityTimeout made).exec s (l.map (.loop t)) =
      some { s with loops := Function.update s.loops t (some lp') } := by
  induction l generalizing s lp with
  | nil =>
    cases hrun
    rw [← hl, Function.update_eq_self]
    rfl
  | cons i l ih =>
    rw [List.foldlM_cons] at hrun
    obtain ⟨lp₁, hstep, hrest⟩ := Option.bind_eq_some_iff.mp hrun
    have hs : (heartbeatChecker inactivityTimeout made).step s (.loop t i) =
        some { s with loops := Function.update s.loops t (some lp₁) } := by
      simp [heartbeatChecker, heartbeatStep, hl, hstep]
    rw [List.map_cons, System.exec_cons, hs, Option.bind_some,
      ih (s := { s with loops := Function.update s.loops t (some lp₁) }) (Function.update_self ..)
        hrest, Function.update_idem]

/-- The first `n` loops can go on until they rest. -/
theorem exec_settle (s : HeartbeatState) (n : Nat) :
    ∃ l loops, (heartbeatChecker inactivityTimeout made).exec s l = some { s with loops } ∧
      ∀ t < n, ∀ lp, loops t = some lp → Rests s.now lp.pc := by
  induction n with
  | zero => exact ⟨[], s.loops, rfl, fun t ht => absurd ht (Nat.not_lt_zero t)⟩
  | succ n ih =>
    obtain ⟨l, loops, hrun, hrests⟩ := ih
    cases hn : loops n with
    | none =>
      refine ⟨l, loops, hrun, fun t ht lp hl => ?_⟩
      rcases Nat.lt_succ_iff_lt_or_eq.mp ht with hlt | rfl
      · exact hrests t hlt lp hl
      · rw [hn] at hl
        cases hl
    | some lp =>
      have hsettles : Settles inactivityTimeout s.now s.lastHeartbeat s.currentLoopId n lp := settles lp
      obtain ⟨l', lp', hsettle, hrests'⟩ := hsettles
      refine ⟨l ++ l'.map (.loop n), Function.update loops n (some lp'), ?_, ?_⟩
      · rw [System.exec_append, hrun, Option.bind_some]
        exact exec_loop _ _ hn hsettle
      · have hall := update_thread_of_ne (t := n) (f := loops)
          (P := fun t lp => t < n + 1 → Rests s.now lp.pc)
          (fun t hne lp hl ht => hrests t (by omega) lp hl) fun _ => hrests'
        exact fun t ht lp hl => hall t lp hl ht

/-- The calls that are in progress come to their ends. -/
theorem exec_calls (n : Nat) (s : HeartbeatState) (hn : s.starting + s.stopping = n) :
    ∃ l s', (heartbeatChecker inactivityTimeout made).exec s l = some s' ∧ s'.now = s.now ∧
      s'.starting = 0 ∧ s'.stopping = 0 := by
  induction n generalizing s with
  | zero => exact ⟨[], s, rfl, rfl, by omega, by omega⟩
  | succ n ih =>
    have hstep : ∃ a s₁, (heartbeatChecker inactivityTimeout made).step s a = some s₁ ∧
        s₁.now = s.now ∧ s₁.starting + s₁.stopping = n := by
      by_cases hstarting : 0 < s.starting
      · refine ⟨.startSet, _, if_pos hstarting, rfl, ?_⟩
        show s.starting - 1 + s.stopping = n
        omega
      · refine ⟨.heartbeatReceived true, _, if_pos (by omega), rfl, ?_⟩
        show s.starting + (s.stopping - 1) = n
        omega
    obtain ⟨a, s₁, hs, hnow, hn₁⟩ := hstep
    obtain ⟨l, s', hrun, hnow', hcalls⟩ := ih s₁ hn₁
    exact ⟨a :: l, s', by rw [System.exec_cons, hs]; exact hrun, hnow'.trans hnow, hcalls⟩

end HeartbeatCheckerLemmas

/-- From every state the checker can go on so that half of the timeout passes. -/
theorem time_goes_on {inactivityTimeout : ℚ} (hT : 0 < inactivityTimeout) (made : ℚ)
    (s : HeartbeatState) :
    ∃ l s', (heartbeatChecker inactivityTimeout made).exec s l = some s' ∧
      s'.now = s.now + inactivityTimeout / 2 := by
  obtain ⟨l₁, s₁, h₁, hnow, hstarting, hstopping⟩ := exec_calls inactivityTimeout made _ s rfl
  obtain ⟨l₂, loops, h₂, hrests⟩ := exec_settle inactivityTimeout made s₁ s₁.nextId
  have hlater : s₁.now ≤ s₁.now + inactivityTimeout / 2 := by linarith
  have hstays : ∀ t < s₁.nextId, (loops t).all fun lp =>
      lp.pc.staysUntil inactivityTimeout (s₁.now + inactivityTimeout / 2) := by
    intro t ht
    cases hl : loops t with
    | none => rfl
    | some lp =>
      show lp.pc.staysUntil inactivityTimeout (s₁.now + inactivityTimeout / 2) = true
      rcases hrests t ht lp hl with hpc | hpc | hpc <;> simp [hpc, CheckPc.staysUntil]
  have h₃ : (heartbeatChecker inactivityTimeout made).step { s₁ with loops }
      (.advance (s₁.now + inactivityTimeout / 2)) =
        some { s₁ with loops, now := s₁.now + inactivityTimeout / 2 } :=
    if_pos ⟨hlater, hstarting, hstopping, hstays⟩
  refine ⟨l₁ ++ (l₂ ++ [.advance (s₁.now + inactivityTimeout / 2)]),
    { s₁ with loops, now := s₁.now + inactivityTimeout / 2 }, ?_, ?_⟩
  · rw [System.exec_append, h₁, Option.bind_some, System.exec_append, h₂, Option.bind_some,
      System.exec_cons, h₃]
    rfl
  · rw [← hnow]

end EgressAgent
