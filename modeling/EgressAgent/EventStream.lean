import Mathlib.Logic.Function.Basic
import EgressAgent.Lib.System
import EgressAgent.Lib.PyVal

/-!
# The event stream

`EventsClient`, `SSEClientReceiver` and `HeartbeatChecker` as one transition
system. Its threads are the receiver threads and the heartbeat threads, named by
their loop ids, and the caller of `start()` and `stop()`. A step is one read or
write of a shared attribute, one section under the checker's lock or one thread
start. Ids come from a counter, which stands for `uuid4`.

A receiver thread that waits for the network may stay where it is for ever. A
heartbeat thread that waits on the condition may wake at any time: by a
notification, by the timeout or spuriously. The handlers are set by `start()`
before the first receiver thread exists and are never unset in the receiver, so
the tests of them are left out. `work_available` and `goodbye` are handed to
code outside this system; a goodbye handler that calls `stop()` is the caller
moving while the receiver thread stays at `handling`.

1. `stopped_stays_stopped`: after `stop()` no receiver loop is current, in every
   run in which no heartbeat thread is inside `_reconnect` when `stop()` clears
   the loop id and none times out while the client is stopped.
   `disturbed_stop_undone`: otherwise a receiver loop may follow.
2. `stream_monitored`: a current receiver thread that consumes events has a
   heartbeat checker, and no other thread switches it off, in every run in which
   the current receiver thread starts its checker while no thread is between the
   test of its `finally` block and `HeartbeatChecker.stop`.
   `contested_stream_unmonitored`: otherwise such a thread leaves it without a
   checker.
-/

namespace EgressAgent

open Py Transition

namespace EventStream

/-! ## The events -/

def attrNameEventType : String := "type"

def eventTypeHeartbeat : String := "heartbeat"
def eventTypeWelcome : String := "welcome"
def eventTypeWorkAvailable : String := "work_available"
def eventTypeGoodbye : String := "goodbye"

/-- The branches of `_event_received`. -/
inductive EventKind
  | heartbeat
  | welcome
  | workAvailable
  | goodbye
  | unexpected
deriving DecidableEq

/-- `_event_received`, up to the branch it takes. -/
def eventReceived (event : PyVal) : Except PyExc EventKind := do
  let eventType ← event.get attrNameEventType .none
  if eventType.isStr eventTypeHeartbeat then
    return .heartbeat
  if eventType.isStr eventTypeWelcome then
    return .welcome
  if eventType.isStr eventTypeWorkAvailable then
    return .workAvailable
  if eventType.isStr eventTypeGoodbye then
    return .goodbye
  return .unexpected

/-- What `json.loads` makes of the text of an event. -/
abbrev EventData := Except PyExc PyVal

/-- The event reaches `heartbeat_received()`. A text that does not parse and an
event that the handler raises on are only logged. -/
def isHeartbeat (data : EventData) : Bool :=
  match data with
  | .error _ => false
  | .ok event =>
    match eventReceived event with
    | .ok kind => kind = .heartbeat
    | .error _ => false

/-! ## The threads -/

/-- The control points of `_run_receiver`. `failed` says that the `finally`
block is left by `SSEConnectionFailed`, after which the retry decorator calls
`_connect_and_consume_events` again. -/
inductive RecvPc
  /-- `while self._is_current_loop(loop_id)` -/
  | loopTest
  /-- the token is read and the connection made -/
  | connecting
  /-- `HeartbeatChecker.start`: `_last_heartbeat` -/
  | checkerTouch
  /-- `HeartbeatChecker.start`: `_current_loop_id` -/
  | checkerSet
  /-- `HeartbeatChecker.start`: the thread -/
  | checkerSpawn (loopId : Nat)
  /-- the next event is awaited -/
  | awaiting
  /-- `if not self._is_current_loop(loop_id)` -/
  | eventTest (data : EventData)
  | handling (data : EventData)
  /-- the test in the `except` clause -/
  | exceptTest
  /-- the test in the `finally` block -/
  | finallyTest (failed : Bool)
  /-- `HeartbeatChecker.stop`: `_current_loop_id` -/
  | checkerClear (failed : Bool)
  /-- `HeartbeatChecker.stop`: `heartbeat_received()` -/
  | checkerWake (failed : Bool)
  /-- the delay of the retry decorator -/
  | sleeping
  | done

/-- The control points of `_run_heartbeat_checker`. -/
inductive CheckPc
  | loopTest
  /-- `self._condition.wait(...)` -/
  | waiting
  /-- the tests after the wait -/
  | retest (elapsedTime : Nat)
  /-- `restart()`: `stop()` -/
  | restartClear
  /-- `restart()`: the new loop id -/
  | restartSet
  /-- `restart()`: the new thread -/
  | restartSpawn (loopId : Nat)
  | done
deriving DecidableEq

/-- The control points of the caller of `start()` and `stop()`. -/
inductive CallerPc
  | idle
  | startSet
  | startSpawn (loopId : Nat)
  | stopClear
deriving DecidableEq

/-- The new loop id is about to be written by `restart()`. -/
def CheckPc.reconnecting : CheckPc → Bool
  | .restartClear => true
  | .restartSet => true
  | _ => false

/-- The thread has set the id of its checker's loop in this connection and has
not left the loop over the events. -/
def RecvPc.monitored : RecvPc → Bool
  | .checkerSpawn _ => true
  | .awaiting => true
  | .eventTest _ => true
  | .handling _ => true
  | _ => false

/-- The connected handler has returned and the thread consumes events. -/
def RecvPc.consuming : RecvPc → Bool
  | .awaiting => true
  | .eventTest _ => true
  | .handling _ => true
  | _ => false

/-- The thread has passed the test of its `finally` block and not yet cleared the
checker's loop id. -/
def RecvPc.clearing : RecvPc → Bool
  | .checkerClear _ => true
  | _ => false

theorem RecvPc.monitored_of_consuming {pc : RecvPc} (h : pc.consuming = true) :
    pc.monitored = true := by
  cases pc <;> simp_all [consuming, monitored]

/-! ## The system -/

structure State where
  /-- `SSEClientReceiver._current_loop_id` -/
  receiverLoop : Option Nat
  /-- `HeartbeatChecker._current_loop_id` -/
  checkerLoop : Option Nat
  /-- `HeartbeatChecker._last_heartbeat` -/
  lastHeartbeat : Nat
  /-- what `datetime.now()` shows -/
  now : Nat
  nextId : Nat
  /-- `EventsClient._stopped` -/
  stopped : Bool
  /-- `stop()` has returned and `start()` has not been called since -/
  stopReturned : Bool
  caller : CallerPc
  receivers : Nat → Option RecvPc
  checkers : Nat → Option CheckPc

namespace State

def setReceiver (s : State) (t : Nat) (pc : RecvPc) : State :=
  { s with receivers := Function.update s.receivers t (some pc) }

def setChecker (s : State) (h : Nat) (pc : CheckPc) : State :=
  { s with checkers := Function.update s.checkers h (some pc) }

section Fields

variable (s : State) (t : Nat) (pc : RecvPc) (h : Nat) (cpc : CheckPc)

@[simp] theorem setReceiver_receiverLoop : (s.setReceiver t pc).receiverLoop = s.receiverLoop := rfl
@[simp] theorem setReceiver_checkerLoop : (s.setReceiver t pc).checkerLoop = s.checkerLoop := rfl
@[simp] theorem setReceiver_nextId : (s.setReceiver t pc).nextId = s.nextId := rfl
@[simp] theorem setReceiver_stopReturned : (s.setReceiver t pc).stopReturned = s.stopReturned := rfl
@[simp] theorem setReceiver_caller : (s.setReceiver t pc).caller = s.caller := rfl
@[simp] theorem setReceiver_checkers : (s.setReceiver t pc).checkers = s.checkers := rfl
@[simp] theorem setReceiver_receivers :
    (s.setReceiver t pc).receivers = Function.update s.receivers t (some pc) := rfl

@[simp] theorem setChecker_receiverLoop : (s.setChecker h cpc).receiverLoop = s.receiverLoop := rfl
@[simp] theorem setChecker_checkerLoop : (s.setChecker h cpc).checkerLoop = s.checkerLoop := rfl
@[simp] theorem setChecker_nextId : (s.setChecker h cpc).nextId = s.nextId := rfl
@[simp] theorem setChecker_stopReturned : (s.setChecker h cpc).stopReturned = s.stopReturned := rfl
@[simp] theorem setChecker_caller : (s.setChecker h cpc).caller = s.caller := rfl
@[simp] theorem setChecker_receivers : (s.setChecker h cpc).receivers = s.receivers := rfl
@[simp] theorem setChecker_checkers :
    (s.setChecker h cpc).checkers = Function.update s.checkers h (some cpc) := rfl

end Fields

end State

/-- What the network does to a receiver thread that waits for it. -/
inductive RecvInput
  | go
  | connected
  | event (data : EventData)
  /-- the iterator over the events ends -/
  | ended
  /-- the token provider, the connection or the iterator raises -/
  | fails

inductive Action
  | start
  | stop
  /-- the next step of the call in progress -/
  | caller
  | receiver (t : Nat) (i : RecvInput)
  | checker (h : Nat)
  | clock (now : Nat)

/-- After the `finally` block: the retry of the decorator or the loop of
`_run_receiver`. -/
def afterFinally (failed : Bool) : RecvPc := if failed then .sleeping else .loopTest

/-- One step of the receiver thread `t`. -/
def recvStep (s : State) (t : Nat) : RecvPc → RecvInput → Option State
  | .loopTest, .go =>
      some (s.setReceiver t (if s.receiverLoop = some t then .connecting else .done))
  | .connecting, .connected => some (s.setReceiver t .checkerTouch)
  | .connecting, .fails => some (s.setReceiver t .exceptTest)
  | .checkerTouch, .go => some ({ s with lastHeartbeat := s.now }.setReceiver t .checkerSet)
  | .checkerSet, .go =>
      some ({ s with checkerLoop := some s.nextId, nextId := s.nextId + 1 }.setReceiver t
        (.checkerSpawn s.nextId))
  | .checkerSpawn loopId, .go => some ((s.setChecker loopId .loopTest).setReceiver t .awaiting)
  | .awaiting, .event data => some (s.setReceiver t (.eventTest data))
  | .awaiting, .ended => some (s.setReceiver t (.finallyTest false))
  | .awaiting, .fails => some (s.setReceiver t .exceptTest)
  -- A replaced loop is left without its event.
  | .eventTest data, .go =>
      some (s.setReceiver t (if s.receiverLoop = some t then .handling data else .finallyTest false))
  | .handling data, .go =>
      some ({ s with lastHeartbeat := if isHeartbeat data then s.now else s.lastHeartbeat }.setReceiver
        t .awaiting)
  -- What ended a replaced loop is not raised again.
  | .exceptTest, .go => some (s.setReceiver t (.finallyTest (decide (s.receiverLoop = some t))))
  -- A loop replaced by `restart()` is told by its id; `None` is a stop.
  | .finallyTest failed, .go =>
      some (s.setReceiver t
        (if s.receiverLoop = some t ∨ s.receiverLoop = none then .checkerClear failed
        else afterFinally failed))
  | .checkerClear failed, .go =>
      some ({ s with checkerLoop := none }.setReceiver t (.checkerWake failed))
  | .checkerWake failed, .go =>
      some ({ s with lastHeartbeat := s.now }.setReceiver t (afterFinally failed))
  | .sleeping, .go => some (s.setReceiver t .connecting)
  | _, _ => none

/-- One step of the heartbeat thread `h`. -/
def checkStep (inactivityTimeout : Nat) (s : State) (h : Nat) : CheckPc → Option State
  | .loopTest => some (s.setChecker h (if s.checkerLoop = some h then .waiting else .done))
  -- The clock and the last heartbeat are read under one lock.
  | .waiting => some (s.setChecker h (.retest (s.now - s.lastHeartbeat)))
  | .retest elapsedTime =>
      some (s.setChecker h
        (if s.checkerLoop ≠ some h then .done
        else if elapsedTime > inactivityTimeout then .restartClear
        else .loopTest))
  | .restartClear => some ({ s with receiverLoop := none }.setChecker h .restartSet)
  | .restartSet =>
      some ({ s with receiverLoop := some s.nextId, nextId := s.nextId + 1 }.setChecker h
        (.restartSpawn s.nextId))
  | .restartSpawn loopId => some ((s.setReceiver loopId .loopTest).setChecker h .loopTest)
  | .done => none

/-- The next step of `start()` or `stop()`. -/
def callerStep (s : State) : Option State :=
  match s.caller with
  | .idle => none
  | .startSet =>
      some { s with receiverLoop := some s.nextId, nextId := s.nextId + 1,
                    caller := .startSpawn s.nextId }
  | .startSpawn loopId => some { s.setReceiver loopId .loopTest with caller := .idle }
  | .stopClear => some { s with receiverLoop := none, stopReturned := true, caller := .idle }

def step (inactivityTimeout : Nat) (s : State) : Action → Option State
  | .start =>
      if s.caller = .idle then
        some { s with stopped := false, stopReturned := false, caller := .startSet }
      else none
  | .stop => if s.caller = .idle then some { s with stopped := true, caller := .stopClear } else none
  | .caller => callerStep s
  | .receiver t i => (s.receivers t).bind fun pc => recvStep s t pc i
  | .checker h => (s.checkers h).bind fun pc => checkStep inactivityTimeout s h pc
  | .clock now => some { s with now }

/-- The client after its constructor. -/
def eventStream (inactivityTimeout : Nat) : System State Action where
  init :=
    { receiverLoop := none, checkerLoop := none, lastHeartbeat := 0, now := 0, nextId := 0,
      stopped := true, stopReturned := false, caller := .idle, receivers := fun _ => none,
      checkers := fun _ => none }
  step := step inactivityTimeout

/-- What a step can do. The moves of a receiver thread that touch neither loop
id start no checker, and lead to the write of `HeartbeatChecker.stop` only past
the test of the `finally` block; the moves of a heartbeat thread that touch no
loop id lead into `restart()` only by a timeout. -/
inductive Move (inactivityTimeout : Nat) (s : State) : Action → State → Prop
  | start : s.caller = .idle →
      Move inactivityTimeout s .start
        { s with stopped := false, stopReturned := false, caller := .startSet }
  | stop : s.caller = .idle →
      Move inactivityTimeout s .stop { s with stopped := true, caller := .stopClear }
  | startSet : s.caller = .startSet →
      Move inactivityTimeout s .caller
        { s with receiverLoop := some s.nextId, nextId := s.nextId + 1,
                 caller := .startSpawn s.nextId }
  | startSpawn {loopId : Nat} : s.caller = .startSpawn loopId →
      Move inactivityTimeout s .caller { s.setReceiver loopId .loopTest with caller := .idle }
  | stopClear : s.caller = .stopClear →
      Move inactivityTimeout s .caller
        { s with receiverLoop := none, stopReturned := true, caller := .idle }
  | receiver {t : Nat} {i : RecvInput} {pc : RecvPc} (pc' : RecvPc) (lastHeartbeat : Nat) :
      s.receivers t = some pc → (pc'.monitored = true → pc.monitored = true) →
      (pc'.clearing = true → s.receiverLoop = some t ∨ s.receiverLoop = none) →
      Move inactivityTimeout s (.receiver t i) ({ s with lastHeartbeat }.setReceiver t pc')
  | checkerSet {t : Nat} : s.receivers t = some .checkerSet →
      Move inactivityTimeout s (.receiver t .go)
        ({ s with checkerLoop := some s.nextId, nextId := s.nextId + 1 }.setReceiver t
          (.checkerSpawn s.nextId))
  | checkerSpawn {t loopId : Nat} : s.receivers t = some (.checkerSpawn loopId) →
      Move inactivityTimeout s (.receiver t .go)
        ((s.setChecker loopId .loopTest).setReceiver t .awaiting)
  | checkerClear {t : Nat} {failed : Bool} : s.receivers t = some (.checkerClear failed) →
      Move inactivityTimeout s (.receiver t .go)
        ({ s with checkerLoop := none }.setReceiver t (.checkerWake failed))
  | checker {h : Nat} {pc : CheckPc} (pc' : CheckPc) :
      s.checkers h = some pc → pc'.reconnecting = false → (∀ loopId, pc' ≠ .restartSpawn loopId) →
      Move inactivityTimeout s (.checker h) (s.setChecker h pc')
  | timeout {h elapsedTime : Nat} :
      s.checkers h = some (.retest elapsedTime) → s.checkerLoop = some h →
      inactivityTimeout < elapsedTime →
      Move inactivityTimeout s (.checker h) (s.setChecker h .restartClear)
  | restartClear {h : Nat} : s.checkers h = some .restartClear →
      Move inactivityTimeout s (.checker h) ({ s with receiverLoop := none }.setChecker h .restartSet)
  | restartSet {h : Nat} : s.checkers h = some .restartSet →
      Move inactivityTimeout s (.checker h)
        ({ s with receiverLoop := some s.nextId, nextId := s.nextId + 1 }.setChecker h
          (.restartSpawn s.nextId))
  | restartSpawn {h loopId : Nat} : s.checkers h = some (.restartSpawn loopId) →
      Move inactivityTimeout s (.checker h) ((s.setReceiver loopId .loopTest).setChecker h .loopTest)
  | clock (now : Nat) : Move inactivityTimeout s (.clock now) { s with now }

end EventStream

open EventStream

namespace EventStreamLemmas

variable {inactivityTimeout : Nat} {s s' : State} {t h : Nat}

theorem recvStep_move {pc : RecvPc} {i : RecvInput} (hpc : s.receivers t = some pc)
    (hs : recvStep s t pc i = some s') : Move inactivityTimeout s (.receiver t i) s' := by
  -- A move that starts no checker and touches no loop id.
  have plain (pc' : RecvPc) (lastHeartbeat : Nat)
      (hm : pc'.monitored = true → pc.monitored = true)
      (hc : pc'.clearing = true → s.receiverLoop = some t ∨ s.receiverLoop = none)
      (heq : { s with lastHeartbeat }.setReceiver t pc' = s') :
      Move inactivityTimeout s (.receiver t i) s' :=
    heq ▸ .receiver pc' lastHeartbeat hpc hm hc
  unfold recvStep at hs
  split at hs <;> simp only [Option.some.injEq, reduceCtorEq] at hs
  · refine plain _ s.lastHeartbeat ?_ ?_ hs <;> split_ifs <;> simp [RecvPc.monitored, RecvPc.clearing]
  · exact plain _ s.lastHeartbeat (by simp [RecvPc.monitored]) (by simp [RecvPc.clearing]) hs
  · exact plain _ s.lastHeartbeat (by simp [RecvPc.monitored]) (by simp [RecvPc.clearing]) hs
  · exact plain _ s.now (by simp [RecvPc.monitored]) (by simp [RecvPc.clearing]) hs
  · exact hs ▸ .checkerSet hpc
  · exact hs ▸ .checkerSpawn hpc
  · exact plain _ s.lastHeartbeat (by simp [RecvPc.monitored]) (by simp [RecvPc.clearing]) hs
  · exact plain _ s.lastHeartbeat (by simp [RecvPc.monitored]) (by simp [RecvPc.clearing]) hs
  · exact plain _ s.lastHeartbeat (by simp [RecvPc.monitored]) (by simp [RecvPc.clearing]) hs
  · refine plain _ s.lastHeartbeat (fun _ => rfl) ?_ hs
    split_ifs <;> simp [RecvPc.clearing]
  · exact plain _ _ (by simp [RecvPc.monitored]) (by simp [RecvPc.clearing]) hs
  · exact plain _ s.lastHeartbeat (by simp [RecvPc.monitored]) (by simp [RecvPc.clearing]) hs
  · next failed =>
    refine plain _ s.lastHeartbeat ?_ ?_ hs
    · unfold afterFinally
      split_ifs <;> simp [RecvPc.monitored]
    · -- The guard of the `finally` block.
      split_ifs with hguard
      · exact fun _ => hguard
      · unfold afterFinally
        split_ifs <;> simp [RecvPc.clearing]
  · exact hs ▸ .checkerClear hpc
  · refine plain _ s.now ?_ ?_ hs <;> unfold afterFinally <;> split_ifs <;>
      simp [RecvPc.monitored, RecvPc.clearing]
  · exact plain _ s.lastHeartbeat (by simp [RecvPc.monitored]) (by simp [RecvPc.clearing]) hs

theorem checkStep_move {pc : CheckPc} (hpc : s.checkers h = some pc)
    (hs : checkStep inactivityTimeout s h pc = some s') :
    Move inactivityTimeout s (.checker h) s' := by
  cases pc with
  | loopTest =>
    cases hs
    split_ifs <;> exact .checker _ hpc rfl (by simp)
  | waiting =>
    cases hs
    exact .checker _ hpc rfl (by simp)
  | retest elapsedTime =>
    cases hs
    split_ifs with hloop htime
    · exact .checker _ hpc rfl (by simp)
    · exact .timeout hpc (not_not.mp hloop) htime
    · exact .checker _ hpc rfl (by simp)
  | restartClear =>
    cases hs
    exact .restartClear hpc
  | restartSet =>
    cases hs
    exact .restartSet hpc
  | restartSpawn loopId =>
    cases hs
    exact .restartSpawn hpc
  | done => cases hs

theorem step_move {a : Action} (hs : step inactivityTimeout s a = some s') :
    Move inactivityTimeout s a s' := by
  cases a with
  | start =>
    simp only [step, Option.ite_none_right_eq_some, Option.some.injEq] at hs
    obtain ⟨hc, rfl⟩ := hs
    exact .start hc
  | stop =>
    simp only [step, Option.ite_none_right_eq_some, Option.some.injEq] at hs
    obtain ⟨hc, rfl⟩ := hs
    exact .stop hc
  | caller =>
    simp only [step, callerStep] at hs
    split at hs
    · cases hs
    · next hc => cases hs; exact .startSet hc
    · next hc => cases hs; exact .startSpawn hc
    · next hc => cases hs; exact .stopClear hc
  | receiver t i =>
    obtain ⟨pc, hpc, hs⟩ := Option.bind_eq_some_iff.mp hs
    exact recvStep_move hpc hs
  | checker h =>
    obtain ⟨pc, hpc, hs⟩ := Option.bind_eq_some_iff.mp hs
    exact checkStep_move hpc hs
  | clock now =>
    cases hs
    exact .clock now

end EventStreamLemmas

open EventStreamLemmas

/-! ## 1. A stopped client stays stopped -/

/-- No heartbeat thread gets in the way of `stop()`: none is inside
`_reconnect` before the write of the new loop id when `stop()` clears the loop
id, and while the client is stopped the current heartbeat loop does not find
the last heartbeat too long ago. -/
structure StopUndisturbed (inactivityTimeout : Nat) (s : State) (a : Action) : Prop where
  clear : a = .caller → s.caller = .stopClear →
    ∀ h pc, s.checkers h = some pc → pc.reconnecting = false
  timely : s.stopReturned = true → ∀ h elapsedTime, a = .checker h →
    s.checkers h = some (.retest elapsedTime) → s.checkerLoop = some h →
    elapsedTime ≤ inactivityTimeout

namespace EventStreamLemmas

variable {inactivityTimeout : Nat}

/-- While the client is stopped nothing that would write a new loop id is under
way. -/
structure StoppedInv (s : State) : Prop where
  loop : s.stopReturned = true → s.receiverLoop = none
  caller : s.stopReturned = true → s.caller ≠ .startSet
  checkers : s.stopReturned = true →
    ∀ h pc, s.checkers h = some pc → pc.reconnecting = false

theorem stoppedInv_step {s s' : State} {a : Action} (hi : StoppedInv s)
    (hok : StopUndisturbed inactivityTimeout s a) (hs : Move inactivityTimeout s a s') :
    StoppedInv s' := by
  cases hs with
  | start => exact ⟨fun h => by simp at h, fun h => by simp at h, fun h => by simp at h⟩
  | stop => exact ⟨hi.loop, fun _ => by simp, hi.checkers⟩
  | startSet hc => exact ⟨fun h => absurd hc (hi.caller h), fun _ => by simp, hi.checkers⟩
  | startSpawn => exact ⟨hi.loop, fun _ => by simp, hi.checkers⟩
  | stopClear hc => exact ⟨fun _ => rfl, fun _ => by simp, fun _ => hok.clear rfl hc⟩
  | receiver => exact ⟨hi.loop, hi.caller, hi.checkers⟩
  | checkerSet => exact ⟨hi.loop, hi.caller, hi.checkers⟩
  | checkerSpawn => exact ⟨hi.loop, hi.caller, fun h => update_thread (hi.checkers h) rfl⟩
  | checkerClear => exact ⟨hi.loop, hi.caller, hi.checkers⟩
  | checker _ _ hpc => exact ⟨hi.loop, hi.caller, fun h => update_thread (hi.checkers h) hpc⟩
  | timeout hpc hloop htime =>
    -- A timeout while the client is stopped is what the condition excludes.
    have hrunning : s.stopReturned ≠ true := fun h =>
      absurd (hok.timely h _ _ rfl hpc hloop) (Nat.not_le_of_lt htime)
    exact ⟨hi.loop, hi.caller, fun h => absurd h hrunning⟩
  | restartClear hpc =>
    have hrunning : s.stopReturned ≠ true := fun h => nomatch hi.checkers h _ _ hpc
    exact ⟨fun _ => rfl, hi.caller, fun h => absurd h hrunning⟩
  | restartSet hpc =>
    have hrunning : s.stopReturned ≠ true := fun h => nomatch hi.checkers h _ _ hpc
    exact ⟨fun h => absurd h hrunning, hi.caller, fun h => absurd h hrunning⟩
  | restartSpawn => exact ⟨hi.loop, hi.caller, fun h => update_thread (hi.checkers h) rfl⟩
  | clock => exact ⟨hi.loop, hi.caller, hi.checkers⟩

/-- A heartbeat thread before the write of the new loop id goes on to make it. -/
theorem reconnecting_restarts {s : State} {h : Nat} {pc : CheckPc} (hr : s.stopReturned = true)
    (hpc : s.checkers h = some pc) (hpc' : pc.reconnecting = true) :
    ∃ h n s'', (eventStream inactivityTimeout).exec s (List.replicate n (.checker h)) = some s'' ∧
      s''.stopReturned = true ∧ s''.receiverLoop ≠ none := by
  cases pc with
  | restartClear =>
    refine ⟨h, 2, ?_⟩
    simp [List.replicate_succ, eventStream, step, hpc, checkStep, hr]
  | restartSet =>
    refine ⟨h, 1, ?_⟩
    simp [eventStream, step, hpc, checkStep, hr]
  | _ => cases hpc'

end EventStreamLemmas

/-- Once `stop()` has returned, and until `start()` is called, no receiver loop
is current, in every state of every run in which no heartbeat thread gets in the
way of `stop()`. -/
theorem stopped_stays_stopped (inactivityTimeout : Nat) {s : State}
    (h : (eventStream inactivityTimeout).ReachableWhere (StopUndisturbed inactivityTimeout) s)
    (hstop : s.stopReturned = true) : s.receiverLoop = none := by
  refine StoppedInv.loop (h.invariant ?_ ?_) hstop
  · exact ⟨fun _ => rfl, fun _ => by simp [eventStream], fun _ h pc hpc => by simp [eventStream] at hpc⟩
  · exact fun s a s' hi hok hs => stoppedInv_step hi hok (step_move hs)

/-- The condition cannot be dropped: a step that breaks it leaves a heartbeat
thread whose own next steps start a receiver loop on the stopped client. -/
theorem disturbed_stop_undone {inactivityTimeout : Nat} {s s' : State} {a : Action}
    (hs : step inactivityTimeout s a = some s') (hok : ¬ StopUndisturbed inactivityTimeout s a) :
    ∃ h n s'', (eventStream inactivityTimeout).exec s' (List.replicate n (.checker h)) = some s'' ∧
      s''.stopReturned = true ∧ s''.receiverLoop ≠ none := by
  by_cases hclear : a = .caller ∧ s.caller = .stopClear
  · obtain ⟨rfl, hc⟩ := hclear
    simp only [step, callerStep, hc, Option.some.injEq] at hs
    subst hs
    have hbusy : ∃ h pc, s.checkers h = some pc ∧ pc.reconnecting = true := by
      by_contra hno
      refine hok ⟨fun _ _ h pc hpc => ?_, fun _ h e ha => nomatch ha⟩
      rw [← Bool.not_eq_true]
      exact fun hr => hno ⟨h, pc, hpc, hr⟩
    obtain ⟨h, pc, hpc, hr⟩ := hbusy
    exact reconnecting_restarts rfl hpc hr
  · have hlate : ∃ h elapsedTime, a = .checker h ∧ s.stopReturned = true ∧
        s.checkers h = some (.retest elapsedTime) ∧ s.checkerLoop = some h ∧
        inactivityTimeout < elapsedTime := by
      by_contra hno
      refine hok ⟨fun ha hc => absurd ⟨ha, hc⟩ hclear, fun hr h e ha hpc hloop => ?_⟩
      exact Nat.le_of_not_lt fun ht => hno ⟨h, e, ha, hr, hpc, hloop, ht⟩
    obtain ⟨h, elapsedTime, rfl, hr, hpc, hloop, ht⟩ := hlate
    simp only [step, hpc, Option.bind_some, checkStep, hloop, ne_eq, not_true_eq_false, if_false,
      gt_iff_lt, ht, if_true, Option.some.injEq] at hs
    subst hs
    exact reconnecting_restarts hr (Function.update_self ..) rfl

/-- `start()`, a connection and its heartbeat thread. -/
def connectRun : List Action :=
  [.start, .caller, .caller, .receiver 0 .go, .receiver 0 .connected, .receiver 0 .go,
    .receiver 0 .go, .receiver 0 .go, .checker 1]

/-- A test for the condition at the steps other than the write of `stop()`. -/
def EventStream.undisturbed (inactivityTimeout : Nat) (s : State) : Action → Bool
  | .caller => s.caller ≠ .stopClear
  | .checker h =>
    match s.checkers h with
    | some (.retest elapsedTime) =>
      !s.stopReturned || s.checkerLoop ≠ some h || elapsedTime ≤ inactivityTimeout
    | _ => true
  | _ => true

theorem EventStreamLemmas.undisturbed_sound (inactivityTimeout : Nat) (s : State) (a : Action)
    (h : undisturbed inactivityTimeout s a = true) : StopUndisturbed inactivityTimeout s a := by
  constructor
  · rintro rfl hc
    simp [undisturbed, hc] at h
  · rintro hr k elapsedTime rfl hpc hloop
    simpa [undisturbed, hpc, hr, hloop] using h

/-- After `stop()` the heartbeat thread of the connection finds that the last
heartbeat is not too long ago, and waits again. -/
def wakesInTimeRun : List Action :=
  [.clock 60100000, .checker 1, .checker 1, .checker 1]

/-- The rule at a connected client that is stopped, while its heartbeat thread goes
on. -/
theorem stopped_stays_stopped_connected :
    ∃ s, (eventStream 120000000).exec (eventStream 120000000).init
        (connectRun ++ [.stop] ++ (.caller :: wakesInTimeRun)) = some s ∧
      s.stopReturned = true ∧ s.checkerLoop = some 1 ∧ s.checkers 1 = some .waiting ∧
      s.receiverLoop = none := by
  refine ⟨_, rfl, rfl, rfl, rfl, stopped_stays_stopped 120000000 ?_ rfl⟩
  refine System.reachableWhere_iff_exec.mpr
    ⟨connectRun ++ [.stop] ++ (.caller :: wakesInTimeRun), rfl, ?_⟩
  have hstopping : (eventStream 120000000).Along (StopUndisturbed 120000000)
      (eventStream 120000000).init (connectRun ++ [.stop]) :=
    (System.exec_along_of_execWhile (undisturbed_sound 120000000) rfl).2
  refine (System.along_append (S := eventStream 120000000) rfl).mpr ⟨hstopping, ?_, ?_⟩
  · -- The heartbeat thread is in its wait when `stop()` clears the loop id.
    exact ⟨fun _ _ => update_thread (update_thread nofun rfl) rfl, nofun⟩
  · rintro _ ⟨⟩
    exact (System.exec_along_of_execWhile (undisturbed_sound 120000000) rfl).2

/-- On a silent connection the heartbeat thread outlives `stop()`, times out and
starts a new receiver loop. -/
theorem timeout_restarts_stopped_client :
    ∃ s, (eventStream 120000000).Reachable s ∧ s.stopReturned = true ∧ s.receiverLoop = some 2 := by
  refine ⟨_, System.reachable_of_exec (l := connectRun ++ [.stop, .caller, .clock 60100000,
    .checker 1, .checker 1, .checker 1, .clock 120200000, .checker 1, .checker 1, .checker 1,
    .checker 1]) rfl, rfl, rfl⟩

/-! ## 2. A live stream is monitored -/

/-- `HeartbeatChecker.stop` does not clear the loop id of the checker under
another receiver thread, the current one, that has set it. -/
def ClearsNoOther (s : State) (a : Action) : Prop :=
  ∀ t failed, a = .receiver t .go → s.receivers t = some (.checkerClear failed) →
    ∀ t' pc, s.receiverLoop = some t' → s.receivers t' = some pc → pc.monitored = false

/-- The current receiver thread does not write its checker's loop id while another
thread is between the test of its `finally` block and the write of
`HeartbeatChecker.stop`. -/
def ConnectsAlone (s : State) (a : Action) : Prop :=
  ∀ t, a = .receiver t .go → s.receiverLoop = some t → s.receivers t = some .checkerSet →
    ∀ t' pc, s.receivers t' = some pc → pc.clearing = false

namespace EventStreamLemmas

variable {inactivityTimeout : Nat}

/-- Loop ids are handed out once. -/
structure FreshInv (s : State) : Prop where
  receivers : ∀ t pc, s.receivers t = some pc → t < s.nextId
  caller : ∀ loopId, s.caller = .startSpawn loopId → loopId < s.nextId
  checkers : ∀ h loopId, s.checkers h = some (.restartSpawn loopId) → loopId < s.nextId

/-- The current receiver thread is monitored from the write of the checker's
loop id to the end of its loop over the events. -/
def MonitoredInv (s : State) : Prop :=
  ∀ t pc, s.receiverLoop = some t → s.receivers t = some pc → pc.monitored = true →
    s.checkerLoop ≠ none

theorem FreshInv.bump {s : State} (hi : FreshInv s) :
    (∀ t pc, s.receivers t = some pc → t < s.nextId + 1) ∧
      (∀ loopId, s.caller = .startSpawn loopId → loopId < s.nextId + 1) ∧
      ∀ h loopId, s.checkers h = some (.restartSpawn loopId) → loopId < s.nextId + 1 :=
  ⟨fun t pc h => Nat.lt_succ_of_lt (hi.receivers t pc h),
    fun l h => Nat.lt_succ_of_lt (hi.caller l h),
    fun c l h => Nat.lt_succ_of_lt (hi.checkers c l h)⟩

theorem spawns_update {f : Nat → Option CheckPc} {n h : Nat} {pc' : CheckPc}
    (hf : ∀ h loopId, f h = some (.restartSpawn loopId) → loopId < n)
    (hpc : ∀ loopId, pc' = .restartSpawn loopId → loopId < n) (h₁ loopId : Nat)
    (heq : Function.update f h (some pc') h₁ = some (.restartSpawn loopId)) : loopId < n := by
  have hspawns : ∀ h pc, f h = some pc → ∀ loopId, pc = .restartSpawn loopId → loopId < n := by
    rintro h _ hpc loopId rfl
    exact hf h loopId hpc
  exact update_thread hspawns hpc h₁ _ heq loopId rfl

theorem freshInv_step {s s' : State} {a : Action} (hi : FreshInv s)
    (hs : Move inactivityTimeout s a s') : FreshInv s' := by
  obtain ⟨hrecv, hcaller, hcheck⟩ := hi.bump
  cases hs with
  | start => exact ⟨hi.receivers, nofun, hi.checkers⟩
  | stop => exact ⟨hi.receivers, nofun, hi.checkers⟩
  | startSet =>
    exact ⟨hrecv, fun l h => by cases h; exact Nat.lt_succ_self _, hcheck⟩
  | startSpawn hc =>
    exact ⟨update_thread hi.receivers (hi.caller _ hc), nofun, hi.checkers⟩
  | stopClear => exact ⟨hi.receivers, nofun, hi.checkers⟩
  | receiver _ _ hpc =>
    exact ⟨update_thread hi.receivers (hi.receivers _ _ hpc), hi.caller, hi.checkers⟩
  | checkerSet hpc =>
    exact ⟨update_thread hrecv (hrecv _ _ hpc), hcaller, hcheck⟩
  | checkerSpawn hpc =>
    exact ⟨update_thread hi.receivers (hi.receivers _ _ hpc), hi.caller,
      spawns_update hi.checkers nofun⟩
  | checkerClear hpc =>
    exact ⟨update_thread hi.receivers (hi.receivers _ _ hpc), hi.caller, hi.checkers⟩
  | checker _ _ _ hpc =>
    exact ⟨hi.receivers, hi.caller, spawns_update hi.checkers (fun l h => absurd h (hpc l))⟩
  | timeout => exact ⟨hi.receivers, hi.caller, spawns_update hi.checkers nofun⟩
  | restartClear => exact ⟨hi.receivers, hi.caller, spawns_update hi.checkers nofun⟩
  | restartSet =>
    exact ⟨hrecv, hcaller, spawns_update hcheck (fun l h => by cases h; exact Nat.lt_succ_self _)⟩
  | restartSpawn hpc =>
    exact ⟨update_thread hi.receivers (hi.checkers _ _ hpc), hi.caller,
      spawns_update hi.checkers nofun⟩
  | clock => exact ⟨hi.receivers, hi.caller, hi.checkers⟩

theorem freshInv {ok : State → Action → Prop} {s : State}
    (h : (eventStream inactivityTimeout).ReachableWhere ok s) : FreshInv s := by
  refine h.invariant ?_ ?_
  · exact ⟨nofun, nofun, nofun⟩
  · exact fun s a s' hi _ hs => freshInv_step hi (step_move hs)

/-- A move of one receiver thread that starts no monitoring: what is monitored was. -/
theorem monitored_of_setReceiver {s : State} {t t₁ : Nat} {pc' pc₁ : RecvPc}
    (hpc : pc'.monitored = true → ∃ pc, s.receivers t = some pc ∧ pc.monitored = true)
    (hrecv : (s.setReceiver t pc').receivers t₁ = some pc₁) (hm : pc₁.monitored = true) :
    ∃ pc, s.receivers t₁ = some pc ∧ pc.monitored = true := by
  by_cases ht : t₁ = t
  · subst ht
    rw [State.setReceiver_receivers, Function.update_self, Option.some.injEq] at hrecv
    subst hrecv
    exact hpc hm
  · rw [State.setReceiver_receivers, Function.update_of_ne ht] at hrecv
    exact ⟨pc₁, hrecv, hm⟩

theorem monitoredInv_setReceiver {s : State} {t : Nat} {pc' : RecvPc} (hi : MonitoredInv s)
    (hpc : pc'.monitored = true → ∃ pc, s.receivers t = some pc ∧ pc.monitored = true) :
    MonitoredInv (s.setReceiver t pc') := by
  intro t₁ pc₁ hloop hrecv hm
  obtain ⟨pc, hpc₁, hm₁⟩ := monitored_of_setReceiver hpc hrecv hm
  exact hi t₁ pc hloop hpc₁ hm₁

/-- A loop id that no thread has yet may become current. -/
theorem not_monitored_nextId {s : State} (hf : FreshInv s) {pc : RecvPc} :
    s.receivers s.nextId ≠ some pc :=
  fun h => Nat.lt_irrefl _ (hf.receivers _ _ h)

/-- No thread is about to switch off the checker of the current one. -/
def ApartInv (s : State) : Prop :=
  ∀ t pc, s.receiverLoop = some t → s.receivers t = some pc → pc.monitored = true →
    ∀ t' pc', s.receivers t' = some pc' → pc'.clearing = false

/-- A move of one receiver thread that starts no monitoring, and passes the guard
of the `finally` block as the current one or with no loop current. -/
theorem apartInv_setReceiver {s : State} {t : Nat} {pc' : RecvPc} (hi : ApartInv s)
    (hm : pc'.monitored = true → ∃ pc, s.receivers t = some pc ∧ pc.monitored = true)
    (hc : pc'.clearing = true → s.receiverLoop = some t ∨ s.receiverLoop = none) :
    ApartInv (s.setReceiver t pc') := by
  intro t₁ pc₁ hloop h₁ hm₁
  obtain ⟨pc, hpc, hmonitored⟩ := monitored_of_setReceiver hm h₁ hm₁
  refine update_thread (fun _ _ h => hi t₁ pc hloop hpc hmonitored _ _ h) ?_
  rw [← Bool.not_eq_true]
  intro hclearing
  have hloop₁ : s.receiverLoop = some t₁ := hloop
  rcases hc hclearing with hself | hnone
  · obtain rfl : t = t₁ := Option.some.inj (hself.symm.trans hloop₁)
    rw [State.setReceiver_receivers, Function.update_self, Option.some.injEq] at h₁
    subst h₁
    cases pc' with
    | checkerClear => cases hm₁
    | _ => cases hclearing
  · cases hnone.symm.trans hloop₁

theorem apartInv_step {s s' : State} {a : Action} (hf : FreshInv s) (hi : ApartInv s)
    (hok : ConnectsAlone s a) (hs : Move inactivityTimeout s a s') : ApartInv s' := by
  cases hs with
  | start => exact hi
  | stop => exact hi
  | startSet =>
    rintro t pc ⟨⟩ hrecv
    exact absurd hrecv (not_monitored_nextId hf)
  | startSpawn => exact apartInv_setReceiver hi nofun nofun
  | stopClear => exact fun t pc hloop => nomatch hloop
  | receiver pc' lastHeartbeat hpc hm hc =>
    exact apartInv_setReceiver (s := { s with lastHeartbeat }) hi (fun h => ⟨_, hpc, hm h⟩) hc
  | @checkerSet t hpc =>
    intro t₁ pc hloop hrecv hm
    by_cases ht : t₁ = t
    · subst ht
      exact update_thread (fun _ _ h => hok t₁ rfl hloop hpc _ _ h) rfl
    · have hrecv₁ : s.receivers t₁ = some pc := (Function.update_of_ne ht ..).symm.trans hrecv
      exact update_thread (fun _ _ h => hi t₁ pc hloop hrecv₁ hm _ _ h) rfl
  | checkerSpawn hpc => exact apartInv_setReceiver hi (fun _ => ⟨_, hpc, rfl⟩) nofun
  | checkerClear => exact apartInv_setReceiver (s := { s with checkerLoop := none }) hi nofun nofun
  | checker => exact hi
  | timeout => exact hi
  | restartClear => exact fun t pc hloop => nomatch hloop
  | restartSet =>
    rintro t pc ⟨⟩ hrecv
    exact absurd hrecv (not_monitored_nextId hf)
  | restartSpawn => exact apartInv_setReceiver hi nofun nofun
  | clock => exact hi

theorem apartInv {s : State} (h : (eventStream inactivityTimeout).ReachableWhere ConnectsAlone s) :
    ApartInv s := by
  refine h.invariant_with (fun _ => freshInv) ?_ ?_
  · exact fun t pc hloop => nomatch hloop
  · exact fun s a s' hf hi hok hs => apartInv_step hf hi hok (step_move hs)

theorem ApartInv.clearsNoOther {s : State} (hi : ApartInv s) (a : Action) : ClearsNoOther s a := by
  intro t failed _ hpc t' pc hloop hrecv
  rw [← Bool.not_eq_true]
  intro hm
  cases hi t' pc hloop hrecv hm t _ hpc

theorem monitoredInv_step {s s' : State} {a : Action} (hf : FreshInv s) (hi : MonitoredInv s)
    (hok : ClearsNoOther s a) (hs : Move inactivityTimeout s a s') : MonitoredInv s' := by
  cases hs with
  | start => exact hi
  | stop => exact hi
  | startSet =>
    rintro t pc ⟨⟩ hrecv
    exact absurd hrecv (not_monitored_nextId hf)
  | startSpawn => exact monitoredInv_setReceiver hi nofun
  | stopClear => exact fun t pc hloop => nomatch hloop
  | receiver pc' lastHeartbeat hpc hm =>
    exact monitoredInv_setReceiver (s := { s with lastHeartbeat }) hi (fun h => ⟨_, hpc, hm h⟩)
  | checkerSet => exact fun t pc _ _ _ => by simp
  | checkerSpawn hpc => exact monitoredInv_setReceiver hi (fun _ => ⟨_, hpc, rfl⟩)
  | @checkerClear t failed hpc =>
    -- The thread itself has left its loop; the condition speaks for the others.
    intro t₁ pc hloop hrecv hm
    by_cases ht : t₁ = t
    · subst ht
      rw [State.setReceiver_receivers, Function.update_self, Option.some.injEq] at hrecv
      subst hrecv
      cases hm
    · rw [State.setReceiver_receivers, Function.update_of_ne ht] at hrecv
      rw [hok t failed rfl hpc t₁ pc hloop hrecv] at hm
      cases hm
  | checker => exact hi
  | timeout => exact hi
  | restartClear => exact fun t pc hloop => nomatch hloop
  | restartSet =>
    rintro t pc ⟨⟩ hrecv
    exact absurd hrecv (not_monitored_nextId hf)
  | restartSpawn => exact monitoredInv_setReceiver hi nofun
  | clock => exact hi

end EventStreamLemmas

/-- While the current receiver thread consumes events, the heartbeat checker has
a current loop, and no replaced thread switches it off, in every state of every
run in which the current receiver thread starts its checker only while no thread
is between the test of its `finally` block and `HeartbeatChecker.stop`. Whether
the client was stopped in between makes no difference. -/
theorem stream_monitored (inactivityTimeout : Nat) {s : State}
    (h : (eventStream inactivityTimeout).ReachableWhere ConnectsAlone s) :
    (∀ t pc, s.receiverLoop = some t → s.receivers t = some pc → pc.consuming = true →
      s.checkerLoop ≠ none) ∧ ∀ a, ClearsNoOther s a := by
  have hinv : MonitoredInv s := by
    refine h.invariant_with (J := fun s => FreshInv s ∧ ApartInv s)
      (fun _ h => ⟨freshInv h, apartInv h⟩) ?_ ?_
    · exact fun t pc hloop => nomatch hloop
    · exact fun s a s' hj hi _ hs =>
        monitoredInv_step hj.1 hi (hj.2.clearsNoOther a) (step_move hs)
  refine ⟨fun t pc hloop hpc hconsuming => ?_, (apartInv h).clearsNoOther⟩
  exact hinv t pc hloop hpc (RecvPc.monitored_of_consuming hconsuming)

namespace EventStreamLemmas

variable {inactivityTimeout : Nat} {s : State} {t : Nat}

theorem clears {failed : Bool} (hpc : s.receivers t = some (.checkerClear failed)) :
    ∃ s', (eventStream inactivityTimeout).step s (.receiver t .go) = some s' ∧
      s'.receiverLoop = s.receiverLoop ∧ s'.checkerLoop = none ∧
      ∀ t', t' ≠ t → s'.receivers t' = s.receivers t' := by
  refine ⟨{ s with checkerLoop := none }.setReceiver t (.checkerWake failed), ?_, rfl, rfl, ?_⟩
  · simp only [eventStream, step, hpc, Option.bind_some, recvStep]
  · exact fun t' hne => Function.update_of_ne hne ..

theorem spawns {loopId : Nat} (hpc : s.receivers t = some (.checkerSpawn loopId)) :
    ∃ s', (eventStream inactivityTimeout).step s (.receiver t .go) = some s' ∧
      s'.receiverLoop = s.receiverLoop ∧ s'.checkerLoop = s.checkerLoop ∧
      s'.receivers t = some .awaiting := by
  refine ⟨(s.setChecker loopId .loopTest).setReceiver t .awaiting, ?_, rfl, rfl, ?_⟩
  · simp only [eventStream, step, hpc, Option.bind_some, recvStep]
  · exact Function.update_self ..

end EventStreamLemmas

/-- The condition cannot be dropped: after a step that breaks it, the next steps of
the two threads leave a current receiver thread that consumes events without a
heartbeat checker. -/
theorem contested_stream_unmonitored {inactivityTimeout : Nat} {s s' : State} {a : Action}
    (hs : step inactivityTimeout s a = some s') (hok : ¬ ConnectsAlone s a) :
    ∃ t t' s'', (eventStream inactivityTimeout).exec s' [.receiver t' .go, .receiver t .go] =
        some s'' ∧ s''.receiverLoop = some t ∧ s''.receivers t = some .awaiting ∧
      s''.checkerLoop = none := by
  simp only [ConnectsAlone, not_forall, Bool.not_eq_false] at hok
  obtain ⟨t, rfl, hloop, hpc, t', pc, hpc', hclearing⟩ := hok
  cases pc with
  | checkerClear failed =>
    have hne : t' ≠ t := by
      rintro rfl
      cases hpc.symm.trans hpc'
    simp only [step, hpc, Option.bind_some, recvStep, Option.some.injEq] at hs
    have hclearer : s'.receivers t' = some (.checkerClear failed) := by
      rw [← hs]
      exact (Function.update_of_ne hne ..).trans hpc'
    obtain ⟨s₁, h₁, hloop₁, hcleared, hothers⟩ := clears hclearer
    have hspawner : s₁.receivers t = some (.checkerSpawn s.nextId) := by
      rw [hothers t hne.symm, ← hs]
      exact Function.update_self ..
    obtain ⟨s₂, h₂, hloop₂, hchecker, hawaiting⟩ := spawns hspawner
    refine ⟨t, t', s₂, ?_, ?_, hawaiting, hchecker.trans hcleared⟩
    · rw [System.exec_cons, h₁, Option.bind_some, System.exec_cons, h₂, Option.bind_some,
        System.exec_nil]
    · rw [hloop₂, hloop₁, ← hs]
      exact hloop
  | _ => cases hclearing

/-- A test for the condition, for states whose loop ids are handed out once. -/
def EventStream.connectsAlone (s : State) : Action → Bool
  | .receiver t .go =>
    match s.receivers t with
    | some .checkerSet =>
      s.receiverLoop ≠ some t ||
        (List.range s.nextId).all fun t' => !(s.receivers t').any RecvPc.clearing
    | _ => true
  | _ => true

theorem EventStreamLemmas.connectsAlone_sound (s : State) (a : Action) (hf : FreshInv s)
    (h : connectsAlone s a = true) : ConnectsAlone s a := by
  rintro t rfl hloop hpc t' pc hpc'
  have hall : ∀ t' < s.nextId, (s.receivers t').any RecvPc.clearing = false := by
    simpa [connectsAlone, hpc, hloop] using h
  simpa [hpc'] using hall t' (hf.receivers t' pc hpc')

/-- The connection of thread 0 goes silent, its heartbeat thread restarts the
receiver and thread 2 connects. The failed connection of thread 0 then comes to
the guard of its `finally` block. -/
def replacedRun : List Action :=
  connectRun ++ [.clock 60100000, .checker 1, .checker 1, .checker 1, .clock 120200000, .checker 1,
    .checker 1, .checker 1, .checker 1, .checker 1, .receiver 0 .fails, .receiver 0 .go,
    .receiver 2 .go, .receiver 2 .connected, .receiver 2 .go, .receiver 2 .go, .receiver 2 .go,
    .receiver 0 .go, .receiver 0 .go]

/-- The rule at a thread that is replaced and does not switch off the checker. -/
theorem stream_monitored_replaced :
    ∃ s, (eventStream 120000000).execWhile connectsAlone (eventStream 120000000).init
        replacedRun = some s ∧
      s.receiverLoop = some 2 ∧ (s.receivers 2).any RecvPc.consuming = true ∧
      s.checkerLoop ≠ none := by
  have hrun : ((eventStream 120000000).execWhile connectsAlone (eventStream 120000000).init
      replacedRun).map (fun s => (s.receiverLoop, (s.receivers 2).any RecvPc.consuming)) =
        some (some 2, true) := by
    decide +kernel
  obtain ⟨s, hs, hends⟩ := Option.map_eq_some_iff.mp hrun
  obtain ⟨hloop, hconsuming⟩ := Prod.mk.inj hends
  obtain ⟨pc, hpc, hpc'⟩ := (Option.any_eq_true ..).mp hconsuming
  obtain ⟨hexec, hok⟩ := System.exec_along_of_execWhile_with
    (fun s a s' hf hs => freshInv_step hf (step_move hs)) connectsAlone_sound
    (freshInv (.init : (eventStream 120000000).Reachable _)) hs
  have hreach := System.reachableWhere_iff_exec.mpr ⟨_, hexec, hok⟩
  exact ⟨s, hs, hloop, hconsuming, (stream_monitored 120000000 hreach).1 2 pc hloop hpc hpc'⟩

/-- A receiver thread passes the test of its `finally` block just before it is
replaced, and then switches off the checker of the thread that replaced it. -/
theorem replaced_receiver_clears_checker :
    ∃ s, (eventStream 120000000).Reachable s ∧ s.stopped = false ∧ s.receiverLoop = some 2 ∧
      s.receivers 2 = some .awaiting ∧ s.checkerLoop = none := by
  refine ⟨_, System.reachable_of_exec (l := connectRun ++
    [.clock 60100000, .checker 1, .checker 1, .checker 1, .clock 120200000, .checker 1, .checker 1,
      .receiver 0 .fails, .receiver 0 .go, .receiver 0 .go,
      .checker 1, .checker 1, .checker 1,
      .receiver 2 .go, .receiver 2 .connected, .receiver 2 .go, .receiver 2 .go, .receiver 2 .go,
      .receiver 0 .go]) rfl, rfl, rfl, rfl, rfl⟩

end EgressAgent
