import EgressAgent.Poller
import EgressAgent.Publishing
import EgressAgent.Shutdown

/-!
# What is taken during a shutdown

The cleanup of a graceful shutdown beside the polling thread and the threads of
the results publisher. The cleanup is that of the call that got the lock, from
its `notify_shutdown` on; the other threads may have moved before. A taking is a
GET /operation or a `next_operation` that is handed to `_execute_operation`, and
each is recorded with whether `notify_shutdown` had returned successfully. What
a GET brings was taken when it was sent.

1. The publisher threads. `handlePushResponse_ignored` and
   `handlePushResponse_accepted`: `nextOperation?` is what an answer hands on.
   `publisher_runs_pushResults`: the steps of a thread with one result are
   `_push_results`.
2. `taken_before_stop`: once a thread is stopped it takes nothing but what it was
   at when it was stopped.
3. `nothing_taken_after_notice`: every taking precedes the notification, in
   every run in which none is under way when the notification returns and none
   is begun between it and the stops or by what is in flight at the stops.
   `loud_notice_overtaken`: otherwise one may follow.
-/

namespace EgressAgent

open Py Effect Transition
open BackendClient (Attempt)
open OperationsPoller Shutdown

/-! ## 1. The publisher threads -/

namespace ShutdownOrder

/-- The control points of a thread of the results publisher, in
`QueueAsyncProcessor._run` and its handler `_push_results`. -/
inductive PublishPc
  /-- `while self._running` -/
  | loopTest
  /-- the section under the lock, entered or woken up in -/
  | takeItem
  /-- `self._condition.wait()` -/
  | waiting
  /-- `_push_results`, before the call of `push_results` -/
  | holding (result : AgentOperationResult)
  /-- the PUT is under way -/
  | pushing (operationId : PyVal) (result : Dict)
  /-- `push_results` has returned -/
  | answered (response : PyVal)
  | returned

/-- What a step of a publisher thread gets from outside. -/
inductive PublishInput
  | go
  | pushed (attempts : Nat → Attempt)
  | received (downloads : Nat → Attempt)

section Thread

variable (str : PyVal → String) (names : AttributeNames) (p : ResultsProcessor)

/-- `_push_results` up to the call of `push_results`: the dictionary to push, or
`none` where there is none. -/
def beginPush (result : AgentOperationResult) : Agent (Option Dict) :=
  if (result.queryId.any fun queryId => queryId ≠ "") && result.operationAttrs.isSome then do
    pushResultsForQuery
    return none
  else
    match result.result with
    | some dict => do
      let dict ← preparePush names p dict result.operationAttrs
      return some dict
    | none => return none

/-- One step of a publisher thread. `_invoke_handler` catches what the handler
raises. -/
def publishStep (running : Bool) (w : World) : PublishPc → PublishInput → Option (PublishPc × World)
  | .loopTest, .go => some (if running then .takeItem else .returned, w)
  | .takeItem, .go =>
      if !running then some (.returned, w)
      else match w.resultsQueue with
        | [] => some (.waiting, w)
        | result :: rest => some (.holding result, { w with resultsQueue := rest })
  | .waiting, .go => some (.takeItem, w)
  | .holding result, .go =>
      match beginPush names p result w with
      | .ok (some dict) w' => some (.pushing result.operationId dict, w')
      | .ok none w' => some (.loopTest, w')
      | .error _ w' => some (.loopTest, w')
  | .pushing operationId result, .pushed attempts =>
      some (.answered (BackendClient.pushResults attempts),
        after (pushToBackend attempts operationId result) w)
  | .answered response, .received downloads =>
      some (.loopTest, after (handlePushResponse str downloads response) w)
  | _, _ => none

end Thread

/-- The moves of a publisher thread, one constructor for each way out of a control
point. -/
inductive PublishMove (str : PyVal → String) (names : AttributeNames) (p : ResultsProcessor)
    (w : World) : PublishPc → PublishInput → PublishPc → World → Prop
  | enter : PublishMove str names p w .loopTest .go .takeItem w
  | finish : PublishMove str names p w .loopTest .go .returned w
  | leave : PublishMove str names p w .takeItem .go .returned w
  | wait : PublishMove str names p w .takeItem .go .waiting w
  | take {result : AgentOperationResult} {rest : List AgentOperationResult} :
      w.resultsQueue = result :: rest →
      PublishMove str names p w .takeItem .go (.holding result) { w with resultsQueue := rest }
  | wake : PublishMove str names p w .waiting .go .takeItem w
  | begin {result : AgentOperationResult} {dict : Dict} {w' : World} :
      beginPush names p result w = .ok (some dict) w' →
      PublishMove str names p w (.holding result) .go (.pushing result.operationId dict) w'
  | refuse {result : AgentOperationResult} :
      (∀ dict w', beginPush names p result w ≠ .ok (some dict) w') →
      PublishMove str names p w (.holding result) .go .loopTest
        (after (beginPush names p result) w)
  | push (operationId : PyVal) (result : Dict) (attempts : Nat → Attempt) :
      PublishMove str names p w (.pushing operationId result) (.pushed attempts)
        (.answered (BackendClient.pushResults attempts))
        { w with pushes := w.pushes ++ [(operationId, result)] }
  | receive (response : PyVal) (downloads : Nat → Attempt) :
      PublishMove str names p w (.answered response) (.received downloads) .loopTest
        (after (handlePushResponse str downloads response) w)

/-- The `next_operation` of an answer that is handed to `_execute_operation`. -/
def nextOperation? : PyVal → Option Dict
  | .dict response =>
    match response.lookup attrNameNextOperation with
    | some (.dict op) => if (pathOf op).truthy && (idOf op).truthy then some op else none
    | _ => none
  | _ => none

end ShutdownOrder

open ShutdownOrder

namespace ShutdownOrderLemmas

variable {str : PyVal → String} {names : AttributeNames} {p : ResultsProcessor}
  {attempts downloads : Nat → Attempt} {w : World}

theorem publishStep_move {running : Bool} {w' : World} {pc pc' : PublishPc} {i : PublishInput}
    (hs : publishStep str names p running w pc i = some (pc', w')) :
    PublishMove str names p w pc i pc' w' := by
  unfold publishStep at hs
  split at hs
  · cases running <;> cases hs
    · exact .finish
    · exact .enter
  · cases running with
    | false =>
      cases hs
      exact .leave
    | true =>
      simp only [Bool.not_true, Bool.false_eq_true, if_false] at hs
      split at hs <;> cases hs
      · exact .wait
      · next hq => exact .take hq
  · cases hs
    exact .wake
  · split at hs <;> cases hs
    · next hrun => exact .begin hrun
    · next hrun => exact after_of_ok hrun ▸ .refuse (by simp [hrun])
    · next hrun => exact after_of_error hrun ▸ .refuse (by simp [hrun])
  · cases hs
    exact .push _ _ _
  · cases hs
    exact .receive _ _
  · cases hs

/-- An answer without an acceptable operation leaves the agent alone. -/
theorem handlePushResponse_ignored {response : PyVal} (h : nextOperation? response = none) :
    after (handlePushResponse str downloads response) w = w := by
  cases ht : response.truthy with
  | false => simp [after, handlePushResponse, ht]
  | true =>
    cases hd : response.isDict with
    | false => simp [after, handlePushResponse, ht, bind_run, PyVal.get_of_not_isDict hd]
    | true =>
      obtain ⟨kvs, rfl⟩ := PyVal.isDict_iff.mp hd
      cases hn : ((kvs.lookup attrNameNextOperation).getD .none).truthy with
      | false => simp [after, handlePushResponse, ht, bind_run, hn]
      | true =>
        cases hl : kvs.lookup attrNameNextOperation with
        | none => simp [hl] at hn
        | some nextOp =>
          have hrun : handlePushResponse str downloads (.dict kvs) w =
              handOver (executeOperation str downloads) nextOp w := by
            simp only [hl, Option.getD_some] at hn
            simp [handlePushResponse, ht, bind_run, hl, hn, handlePiggybackedOperation]
          cases hdict : nextOp.isDict with
          | false =>
            simp [after, hrun, handOver, bind_run, PyVal.get_of_not_isDict hdict]
          | true =>
            obtain ⟨op, rfl⟩ := PyVal.isDict_iff.mp hdict
            refine after_of_ok (hrun.trans (IntakeLemmas.handOver_ignored ?_))
            simpa [nextOperation?, hl] using h

/-- An acceptable operation is executed. -/
theorem handlePushResponse_accepted {response : PyVal} {op : Dict}
    (h : nextOperation? response = some op) :
    handlePushResponse str downloads response w =
      executeOperation str downloads (pathOf op) (idOf op) (.dict op) w := by
  unfold nextOperation? at h
  split at h
  · next kvs =>
    split at h
    · next op' hop =>
      simp only [Bool.and_eq_true, Option.ite_none_right_eq_some, Option.some.injEq] at h
      obtain ⟨⟨hpath, hid⟩, rfl⟩ := h
      have hb : (Route.piggybacked kvs).Brings op' := hop
      exact IntakeLemmas.receive_run hb hpath hid
    · cases h
  · cases h

/-- The steps of a publisher thread with one result are those of
`_push_results`. -/
theorem publisher_runs_pushResults (running : Bool) (result : AgentOperationResult) :
    let final := after (pushResults str names p attempts downloads result) w
    publishStep str names p running w (.holding result) .go = some (.loopTest, final) ∨
      ∃ operationId dict response w₁ w₂,
        publishStep str names p running w (.holding result) .go =
          some (.pushing operationId dict, w₁) ∧
        publishStep str names p running w₁ (.pushing operationId dict) (.pushed attempts) =
          some (.answered response, w₂) ∧
        publishStep str names p running w₂ (.answered response) (.received downloads) =
          some (.loopTest, final) := by
  intro final
  by_cases hq : ((result.queryId.any fun queryId => queryId ≠ "") &&
      result.operationAttrs.isSome) = true
  · have hfinal : final = w := by simp only [final, pushResults, hq, if_true]; rfl
    have hbegin : beginPush names p result w = .error ⟨"NotImplementedError", ""⟩ w := by
      simp only [beginPush, hq, if_true]
      rfl
    exact .inl (by simp only [publishStep, hbegin, hfinal])
  · cases hd : result.result with
    | none =>
      have hfinal : final = w := by
        simp only [final, pushResults, hq, hd, if_false, Bool.false_eq_true]
        rfl
      have hbegin : beginPush names p result w = .ok none w := by
        simp only [beginPush, hq, hd, if_false, Bool.false_eq_true]
        rfl
      exact .inl (by simp only [publishStep, hbegin, hfinal])
    | some dict =>
      have hfinal : final = after (pushBackendResults str names p attempts downloads
          result.operationId dict result.operationAttrs) w := by
        simp only [final, pushResults, hq, hd, if_false, Bool.false_eq_true]
      have hbegin : beginPush names p result w =
          (do let dict ← preparePush names p dict result.operationAttrs; return some dict) w := by
        simp only [beginPush, hq, hd, if_false, Bool.false_eq_true]
      cases hrun : preparePush names p dict result.operationAttrs w with
      | error e w₁ =>
        rw [bind_run_error hrun] at hbegin
        have hend : final = w₁ := by
          rw [hfinal]
          exact after_of_error (bind_run_error hrun)
        exact .inl (by simp only [publishStep, hbegin, hend])
      | ok d w₁ =>
        rw [bind_run_ok hrun] at hbegin
        have hend : final = after (handlePushResponse str downloads
            (BackendClient.pushResults attempts))
            (after (pushToBackend attempts result.operationId d) w₁) := by
          rw [hfinal, after, pushBackendResults, bind_run_ok hrun]
          rfl
        refine .inr ⟨result.operationId, d, BackendClient.pushResults attempts, w₁, _, ?_, rfl, ?_⟩
        · simp only [publishStep, hbegin, pure_run]
        · simp only [publishStep, hend]

end ShutdownOrderLemmas

open ShutdownOrderLemmas

/-! ## 2. What a stopped thread takes -/

namespace ShutdownOrder

inductive Taking
  /-- a GET /operation, with the answer that it gets -/
  | get (a : Attempt)
  | nextOperation (op : Dict)

/-- The operation that a taking brings to the agent. -/
def Taking.operation? : Taking → Option Dict
  | .get a => acceptable? (fetchOperation a)
  | .nextOperation op => some op

structure ServiceState where
  cleanup : CleanupPc
  /-- `notify_shutdown` has returned successfully -/
  notified : Bool
  /-- `OperationsPoller._running` -/
  polling : Bool
  poller : PollPc
  /-- `ResultsPublisher._running` -/
  publishing : Bool
  publishers : Nat → PublishPc
  world : World
  /-- The polling thread was past its last test of `_running` before a GET when
  `operations_poller.stop()` ran, and has not sent it yet. -/
  roundAtStop : Bool
  /-- The publisher thread had a result in hand when `results_publisher.stop()` ran,
  and is not through with it. -/
  resultAtStop : Nat → Bool
  /-- The takings, each with whether the notification had returned. -/
  takings : List (Taking × Bool)
  /-- The operations that were handed to `_execute_operation`. -/
  handed : List Dict

inductive ServiceAction
  | cleanup (i : CleanupInput)
  | poller (i : PollInput)
  | publisher (n : Nat) (i : PublishInput)
  /-- other threads change the queues -/
  | others (w : World)

/-- `notify_shutdown` returned without an exception. -/
def succeeded (a : Attempt) : Bool :=
  match BackendClient.notifyShutdown a with
  | .ok () => true
  | .error _ => false

end ShutdownOrder

/-- The polling thread is about to send a GET. -/
def OperationsPoller.PollPc.aboutToGet : PollPc → Bool
  | .issueGet => true
  | _ => false

/-- The polling thread may send a GET before it tests `_running` again. -/
def OperationsPoller.PollPc.mayGet : PollPc → Bool
  | .acceptOuter => true
  | .issueGet => true
  | .submit _ => true
  | .acceptInner => true
  | _ => false

/-- What the polling thread got by its last GET and has not submitted yet. -/
def OperationsPoller.PollPc.fetched? : PollPc → Option PyVal
  | .fetching a => some (fetchOperation a)
  | .innerTest operation => some operation
  | .submit operation => some operation
  | _ => none

@[simp] theorem OperationsPoller.PollPc.aboutToGet_notifyAll (pc : PollPc) :
    pc.notifyAll.aboutToGet = pc.aboutToGet := by
  cases pc <;> rfl

@[simp] theorem OperationsPoller.PollPc.mayGet_notifyAll (pc : PollPc) :
    pc.notifyAll.mayGet = pc.mayGet := by
  cases pc <;> rfl

@[simp] theorem OperationsPoller.PollPc.fetched?_notifyAll (pc : PollPc) :
    pc.notifyAll.fetched? = pc.fetched? := by
  cases pc <;> rfl

namespace ShutdownOrder

/-- A publisher thread is about to hand on an operation. -/
def PublishPc.aboutToTake : PublishPc → Bool
  | .answered response => (nextOperation? response).isSome
  | _ => false

/-- A publisher thread has a result in hand. -/
def PublishPc.hasResult : PublishPc → Bool
  | .holding _ => true
  | .pushing _ _ => true
  | .answered _ => true
  | _ => false

/-- The cleanup has not stopped the component yet. -/
def isToStop (c : Component) : CleanupPc → Bool
  | .notify => true
  | .notifying => true
  | .stop => true
  | .stopping rest => rest.contains c
  | _ => false

/-- What a part of the cleanup does to the threads. -/
def applyEvent (s : ServiceState) : CleanupEvent → ServiceState
  | .notifyReturned a => { s with notified := s.notified || succeeded a }
  | .stopped .operationsPoller =>
      { s with polling := false, poller := s.poller.notifyAll, roundAtStop := s.poller.mayGet }
  | .stopped .resultsPublisher =>
      { s with publishing := false, resultAtStop := fun n => (s.publishers n).hasResult }
  | _ => s

/-- The taking of a step of the polling thread. -/
def pollTaking (notified : Bool) : PollInput → List (Taking × Bool)
  | .get a => [(.get a, notified)]
  | _ => []

/-- What a step of the polling thread hands to `_execute_operation`. -/
def pollHanded : PollPc → PollInput → List Dict
  | .submit operation, .submit _ => (acceptable? operation).toList
  | _, _ => []

/-- What a step of a publisher thread hands to `_execute_operation`. -/
def publishHanded : PublishPc → List Dict
  | .answered response => (nextOperation? response).toList
  | _ => []

/-- The taking of a step of a publisher thread. -/
def publishTaking (notified : Bool) (pc : PublishPc) : List (Taking × Bool) :=
  (publishHanded pc).map fun op => (.nextOperation op, notified)

section Service

variable (cfg : ShutdownConfig) (str : PyVal → String) (names : AttributeNames)
  (p : ResultsProcessor)

def serviceStep (s : ServiceState) : ServiceAction → Option ServiceState
  | .cleanup i =>
      (cleanupStep cfg s.cleanup i).map fun (pc, events) =>
        events.foldl applyEvent { s with cleanup := pc }
  | .poller i =>
      (pollStep str s.polling s.world s.poller i).map fun (pc, w) =>
        { s with poller := pc, world := w, roundAtStop := s.roundAtStop && pc.mayGet,
                 takings := s.takings ++ pollTaking s.notified i,
                 handed := s.handed ++ pollHanded s.poller i }
  | .publisher n i =>
      (publishStep str names p s.publishing s.world (s.publishers n) i).map fun (pc, w) =>
        { s with publishers := Function.update s.publishers n pc, world := w,
                 resultAtStop := Function.update s.resultAtStop n (s.resultAtStop n && pc.hasResult),
                 takings := s.takings ++ publishTaking s.notified (s.publishers n),
                 handed := s.handed ++ publishHanded (s.publishers n) }
  | .others w => some { s with world := w }

/-- The running service when the call that got the lock begins its cleanup. -/
def service : System ServiceState ServiceAction where
  init :=
    { cleanup := .notify, notified := false, polling := true, poller := .loopTest,
      publishing := true, publishers := fun _ => .loopTest, world := {}, roundAtStop := false,
      resultAtStop := fun _ => false, takings := [], handed := [] }
  step := serviceStep cfg str names p

end Service

end ShutdownOrder

namespace ShutdownOrderLemmas

variable {cfg : ShutdownConfig} {str : PyVal → String} {names : AttributeNames}
  {p : ResultsProcessor} {w w' : World} {downloads : Nat → Attempt}

/-! ### The parts of a step -/

/-- A GET is reached by a check for capacity only. -/
theorem aboutToGet_of_move {running : Bool} {pc pc' : PollPc} {i : PollInput}
    (hs : PollMove str running w pc i pc' w') (h : pc'.aboutToGet = true) : i = .canAccept true := by
  cases hs <;> first | rfl | cases h

theorem mayGet_of_aboutToGet {pc : PollPc} (h : pc.aboutToGet = true) : pc.mayGet = true := by
  cases pc <;> first | rfl | cases h

theorem hasResult_of_aboutToTake {pc : PublishPc} (h : pc.aboutToTake = true) :
    pc.hasResult = true := by
  cases pc <;> first | rfl | cases h

/-- A check for capacity that answers yes leads to a GET, in a round of its own. -/
theorem mayGet_of_accept {running : Bool} {pc pc' : PollPc}
    (hs : PollMove str running w pc (.canAccept true) pc' w') :
    pc.mayGet = true ∧ pc'.aboutToGet = true := by
  cases hs <;> exact ⟨rfl, rfl⟩

/-- A GET is sent from its control point. -/
theorem aboutToGet_of_taking {running : Bool} {pc pc' : PollPc} {i : PollInput}
    {b : Bool} (hs : PollMove str running w pc i pc' w') (h : pollTaking b i ≠ []) :
    pc.aboutToGet = true := by
  cases hs <;> first | rfl | exact absurd rfl h

/-- A stopped poller begins no round in which it may send a GET: both of its loops
test `_running`. -/
theorem mayGet_of_stopped {pc pc' : PollPc} {i : PollInput}
    (hs : PollMove str false w pc i pc' w') (h : pc'.mayGet = true) : pc.mayGet = true := by
  cases hs with
  | enter hrunning => cases hrunning
  | take _ hrunning => cases hrunning
  | _ => first | rfl | cases h

/-- A stopped publisher thread takes no result out of the queue. -/
theorem hasResult_of_stopped {pc pc' : PublishPc} {i : PublishInput}
    (hs : publishStep str names p false w pc i = some (pc', w')) (h : pc'.hasResult = true) :
    pc.hasResult = true := by
  unfold publishStep at hs
  split at hs
  · cases hs
    cases h
  · cases hs
    cases h
  · cases hs
    cases h
  · rfl
  · rfl
  · rfl
  · cases hs

theorem flag_of_mem_pollTaking {b : Bool} {i : PollInput} {t : Taking × Bool}
    (h : t ∈ pollTaking b i) : t.2 = b := by
  cases i <;> simp_all [pollTaking]

theorem flag_of_mem_publishTaking {b : Bool} {pc : PublishPc} {t : Taking × Bool}
    (h : t ∈ publishTaking b pc) : t.2 = b := by
  obtain ⟨op, -, rfl⟩ := List.mem_map.mp h
  rfl

theorem publishTaking_eq_nil {b : Bool} {pc : PublishPc} (h : pc.aboutToTake = false) :
    publishTaking b pc = [] := by
  cases pc <;> simp_all [publishTaking, publishHanded, PublishPc.aboutToTake]

/-- An operation to hand on comes with the answer of a push. -/
theorem aboutToTake_of_step {running : Bool} {pc pc' : PublishPc}
    {i : PublishInput} (hs : publishStep str names p running w pc i = some (pc', w'))
    (h : pc'.aboutToTake = true) :
    pc.hasResult = true ∧ ∃ attempts, i = .pushed attempts ∧
      (nextOperation? (BackendClient.pushResults attempts)).isSome = true := by
  cases publishStep_move hs with
  | push _ _ attempts => exact ⟨rfl, attempts, rfl, h⟩
  | _ => cases h

theorem answered_of_pushed {running : Bool} {pc pc' : PublishPc} {attempts : Nat → Attempt}
    (hs : publishStep str names p running w pc (.pushed attempts) = some (pc', w')) :
    pc' = .answered (BackendClient.pushResults attempts) := by
  cases pc <;> cases hs
  rfl

/-! ### The cleanup -/

theorem cleanupStep_notified {pc pc' : CleanupPc} {a : Attempt} {events : List CleanupEvent}
    (hs : cleanupStep cfg pc (.notified a) = some (pc', events)) :
    events = [.notifyReturned a] := by
  cases pc with
  | notifying =>
    cases hs
    rfl
  | stopping rest => cases rest <;> cases hs
  | _ => cases hs

/-- What a step of the cleanup does to the threads. -/
inductive CleanupChange (s : ServiceState) : CleanupInput → ServiceState → Prop
  | notified {pc : CleanupPc} (a : Attempt) :
      (∀ c, c = .operationsPoller ∨ c = .resultsPublisher → isToStop c pc = isToStop c s.cleanup) →
      CleanupChange s (.notified a)
        { s with cleanup := pc, notified := s.notified || succeeded a }
  | poller {i : CleanupInput} {rest : List Component} :
      s.cleanup = .stopping (.operationsPoller :: rest) →
      CleanupChange s i { s with cleanup := .stopping rest, polling := false,
                                 poller := s.poller.notifyAll, roundAtStop := s.poller.mayGet }
  | publisher {i : CleanupInput} {rest : List Component} :
      s.cleanup = .stopping (.resultsPublisher :: rest) →
      CleanupChange s i { s with cleanup := .stopping rest, publishing := false,
                                 resultAtStop := fun n => (s.publishers n).hasResult }
  | quiet {i : CleanupInput} {pc : CleanupPc} :
      (∀ c, c = .operationsPoller ∨ c = .resultsPublisher → isToStop c pc = isToStop c s.cleanup) →
      CleanupChange s i { s with cleanup := pc }

theorem isToStop_components {c : Component}
    (hc : c = .operationsPoller ∨ c = .resultsPublisher) : cfg.components.contains c = true := by
  rcases hc with rfl | rfl <;> simp [ShutdownConfig.components]

theorem cleanup_change {s s' : ServiceState} {i : CleanupInput}
    (hs : serviceStep cfg str names p s (.cleanup i) = some s') : CleanupChange s i s' := by
  obtain ⟨⟨pc, events⟩, hc, rfl⟩ := Option.map_eq_some_iff.mp hs
  unfold cleanupStep at hc
  split at hc <;> try cases hc
  · next hpc => exact .quiet fun c _ => by rw [hpc]; rfl
  · next hpc => exact .notified _ fun c _ => by rw [hpc]; rfl
  · next hpc =>
    refine .quiet fun c hcomponent => ?_
    rw [hpc]
    exact isToStop_components hcomponent
  · next c rest hpc =>
    cases c with
    | operationsPoller => exact .poller hpc
    | resultsPublisher => exact .publisher hpc
    | _ =>
      refine .quiet fun c hcomponent => ?_
      rw [hpc]
      rcases hcomponent with rfl | rfl <;> rfl
  · next hpc =>
    refine .quiet fun c _ => ?_
    rw [hpc]
    unfold stopLogsService
    split
    · rfl
    · split_ifs <;> rfl
  · next hpc => exact .quiet fun c _ => by rw [hpc]; rfl
  · next hpc =>
    refine .quiet fun c _ => ?_
    rw [hpc]
    unfold afterClose
    split_ifs <;> rfl
  · next hpc => exact .quiet fun c _ => by rw [hpc]; rfl
  · next hpc => exact .quiet fun c _ => by rw [hpc]; rfl

/-! ### The stopped threads -/

/-- A stopped component does not run, and its threads are in the round that they
were in when it was stopped. -/
structure StopInv (s : ServiceState) : Prop where
  poller : isToStop .operationsPoller s.cleanup = false →
    s.polling = false ∧ (s.poller.mayGet = true → s.roundAtStop = true)
  publishers : isToStop .resultsPublisher s.cleanup = false →
    s.publishing = false ∧ ∀ n, (s.publishers n).hasResult = true → s.resultAtStop n = true

/-- A step of the cleanup that stops neither component. -/
theorem StopInv.goto {s : ServiceState} {pc : CleanupPc} {notified : Bool} (hi : StopInv s)
    (hsame : ∀ c, c = .operationsPoller ∨ c = .resultsPublisher →
      isToStop c pc = isToStop c s.cleanup) :
    StopInv { s with cleanup := pc, notified } := by
  constructor
  · intro h
    rw [hsame _ (.inl rfl)] at h
    exact hi.poller h
  · intro h
    rw [hsame _ (.inr rfl)] at h
    exact hi.publishers h

theorem stopInv_cleanup {s s' : ServiceState} {i : CleanupInput} (hi : StopInv s)
    (hc : CleanupChange s i s') : StopInv s' := by
  cases hc with
  | notified a hsame => exact hi.goto hsame
  | @poller i rest hpc =>
    refine ⟨fun _ => ⟨rfl, fun h => by simpa using h⟩, fun h => ?_⟩
    have hsame : isToStop .resultsPublisher s.cleanup = rest.contains .resultsPublisher := by
      rw [hpc]
      rfl
    exact hi.publishers (hsame.trans h)
  | @publisher i rest hpc =>
    refine ⟨fun h => ?_, fun _ => ⟨rfl, fun n h => h⟩⟩
    have hsame : isToStop .operationsPoller s.cleanup = rest.contains .operationsPoller := by
      rw [hpc]
      rfl
    exact hi.poller (hsame.trans h)
  | quiet hsame => exact hi.goto hsame

theorem stopInv_step {s s' : ServiceState} {a : ServiceAction} (hi : StopInv s)
    (hs : serviceStep cfg str names p s a = some s') : StopInv s' := by
  cases a with
  | cleanup i => exact stopInv_cleanup hi (cleanup_change hs)
  | poller i =>
    obtain ⟨⟨pc, w⟩, hp, rfl⟩ := Option.map_eq_some_iff.mp hs
    refine ⟨fun h => ?_, hi.publishers⟩
    obtain ⟨hpolling, hround⟩ := hi.poller h
    refine ⟨hpolling, fun hmay => ?_⟩
    rw [hpolling] at hp
    exact Bool.and_eq_true_iff.mpr ⟨hround (mayGet_of_stopped (pollStep_move hp) hmay), hmay⟩
  | publisher n i =>
    obtain ⟨⟨pc, w⟩, hp, rfl⟩ := Option.map_eq_some_iff.mp hs
    refine ⟨hi.poller, fun h => ?_⟩
    obtain ⟨hpublishing, hresults⟩ := hi.publishers h
    refine ⟨hpublishing, fun m hresult => ?_⟩
    by_cases hm : m = n
    · subst hm
      simp only [Function.update_self] at hresult ⊢
      rw [hpublishing] at hp
      exact Bool.and_eq_true_iff.mpr ⟨hresults m (hasResult_of_stopped hp hresult), hresult⟩
    · simp only [Function.update_of_ne hm] at hresult ⊢
      exact hresults m hresult
  | others w =>
    cases hs
    exact ⟨hi.poller, hi.publishers⟩

theorem stopInv {ok : ServiceState → ServiceAction → Prop} {s : ServiceState}
    (h : (service cfg str names p).ReachableWhere ok s) : StopInv s := by
  refine h.invariant ?_ ?_
  · exact ⟨nofun, nofun⟩
  · exact fun s a s' hi _ hs => stopInv_step hi hs

end ShutdownOrderLemmas

/-- In every run: once `operations_poller.stop()` has run, the polling thread sends a
GET only in the round of its loop that it was in at that moment, and once
`results_publisher.stop()` has run, a publisher thread hands on an operation only
from the answer to a result that it had in hand at that moment. -/
theorem taken_before_stop {cfg : ShutdownConfig} {str : PyVal → String} {names : AttributeNames}
    {p : ResultsProcessor} {s s' : ServiceState} (h : (service cfg str names p).Reachable s) :
    (∀ attempt, (service cfg str names p).step s (.poller (.get attempt)) = some s' →
      isToStop .operationsPoller s.cleanup = true ∨ s.roundAtStop = true) ∧
    ∀ n i, (service cfg str names p).step s (.publisher n i) = some s' →
      (s.publishers n).aboutToTake = true →
      isToStop .resultsPublisher s.cleanup = true ∨ s.resultAtStop n = true := by
  have hi := stopInv h
  refine ⟨fun attempt hs => or_iff_not_imp_left.mpr fun hstopped => ?_,
    fun n i _ htake => or_iff_not_imp_left.mpr fun hstopped => ?_⟩
  · obtain ⟨⟨pc, w⟩, hp, -⟩ := Option.map_eq_some_iff.mp hs
    have habout : s.poller.aboutToGet = true :=
      aboutToGet_of_taking (b := false) (pollStep_move hp) (List.cons_ne_nil _ _)
    exact (hi.poller (Bool.not_eq_true _ ▸ hstopped)).2 (mayGet_of_aboutToGet habout)
  · exact (hi.publishers (Bool.not_eq_true _ ▸ hstopped)).2 n (hasResult_of_aboutToTake htake)

/-! ## 3. Nothing is taken after the notification -/

/-- No taking is under way when `notify_shutdown` returns successfully, and none is
begun between it and the stops, or after these by what is in flight at them: the
polling thread finds no capacity before `operations_poller.stop()`, nor in the
round of its loop that it is in at that moment, and no push brings an operation
with a path and an id before `results_publisher.stop()`, nor one whose result a
publisher thread has in hand at that moment. -/
structure QuietUntilStopped (s : ServiceState) (a : ServiceAction) : Prop where
  poller : ∀ attempt, a = .cleanup (.notified attempt) → succeeded attempt = true →
    s.poller.aboutToGet = false
  publishers : ∀ attempt, a = .cleanup (.notified attempt) → succeeded attempt = true →
    ∀ n, (s.publishers n).aboutToTake = false
  capacity : s.notified = true →
    isToStop .operationsPoller s.cleanup = true ∨ s.roundAtStop = true →
    a ≠ .poller (.canAccept true)
  answers : s.notified = true → ∀ n,
    isToStop .resultsPublisher s.cleanup = true ∨ s.resultAtStop n = true →
    ∀ attempts, a = .publisher n (.pushed attempts) →
      nextOperation? (BackendClient.pushResults attempts) = none

namespace ShutdownOrderLemmas

variable {cfg : ShutdownConfig} {str : PyVal → String} {names : AttributeNames}
  {p : ResultsProcessor}

/-- The notification precedes every taking. -/
structure NoticeInv (s : ServiceState) : Prop where
  takings : ∀ t ∈ s.takings, t.2 = false
  poller : s.notified = true → s.poller.aboutToGet = false
  publishers : s.notified = true → ∀ n, (s.publishers n).aboutToTake = false

theorem noticeInv_cleanup {s s' : ServiceState} {i : CleanupInput} (hi : NoticeInv s)
    (hok : QuietUntilStopped s (.cleanup i)) (hc : CleanupChange s i s') : NoticeInv s' := by
  cases hc with
  | notified a _ =>
    refine ⟨hi.takings, fun hn => ?_, fun hn n => ?_⟩
    · rcases Bool.or_eq_true_iff.mp hn with hn | ha
      · exact hi.poller hn
      · exact hok.poller a rfl ha
    · rcases Bool.or_eq_true_iff.mp hn with hn | ha
      · exact hi.publishers hn n
      · exact hok.publishers a rfl ha n
  | poller _ => exact ⟨hi.takings, fun hn => by simpa using hi.poller hn, hi.publishers⟩
  | publisher _ => exact ⟨hi.takings, hi.poller, hi.publishers⟩
  | quiet _ => exact ⟨hi.takings, hi.poller, hi.publishers⟩

theorem noticeInv_step {s s' : ServiceState} {a : ServiceAction} (hj : StopInv s)
    (hi : NoticeInv s) (hok : QuietUntilStopped s a)
    (hs : serviceStep cfg str names p s a = some s') : NoticeInv s' := by
  cases a with
  | cleanup i => exact noticeInv_cleanup hi hok (cleanup_change hs)
  | poller i =>
    obtain ⟨⟨pc, w⟩, hp, rfl⟩ := Option.map_eq_some_iff.mp hs
    have hmove := pollStep_move hp
    refine ⟨fun t ht => ?_, fun hn => ?_, hi.publishers⟩
    · rcases List.mem_append.mp ht with ht | ht
      · exact hi.takings t ht
      · cases hn : s.notified with
        | false => rw [flag_of_mem_pollTaking ht, hn]
        | true =>
          have hget := aboutToGet_of_taking hmove (List.ne_nil_of_mem ht)
          rw [hi.poller hn] at hget
          cases hget
    · rw [← Bool.not_eq_true]
      intro hget
      have hyes := aboutToGet_of_move hmove hget
      subst hyes
      -- A poller that is stopped checks its capacity in its last round only.
      refine hok.capacity hn (or_iff_not_imp_left.mpr fun hstopped => ?_) rfl
      exact (hj.poller (Bool.not_eq_true _ ▸ hstopped)).2 (mayGet_of_accept hmove).1
  | publisher n i =>
    obtain ⟨⟨pc, w⟩, hp, rfl⟩ := Option.map_eq_some_iff.mp hs
    refine ⟨fun t ht => ?_, hi.poller, fun hn m => ?_⟩
    · rcases List.mem_append.mp ht with ht | ht
      · exact hi.takings t ht
      · cases hn : s.notified with
        | false => rw [flag_of_mem_publishTaking ht, hn]
        | true =>
          rw [publishTaking_eq_nil (hi.publishers hn n)] at ht
          cases ht
    · by_cases hm : m = n
      · subst hm
        simp only [Function.update_self]
        rw [← Bool.not_eq_true]
        intro htake
        obtain ⟨hresult, attempts, rfl, hsome⟩ := aboutToTake_of_step hp htake
        have hflight : isToStop .resultsPublisher s.cleanup = true ∨ s.resultAtStop m = true :=
          or_iff_not_imp_left.mpr fun hstopped =>
            (hj.publishers (Bool.not_eq_true _ ▸ hstopped)).2 m hresult
        rw [hok.answers hn m hflight attempts rfl] at hsome
        cases hsome
      · simpa only [Function.update_of_ne hm] using hi.publishers hn m
  | others w =>
    cases hs
    exact ⟨hi.takings, hi.poller, hi.publishers⟩

/-- Every operation that is handed on, or was fetched and may be, was taken. -/
structure TakenInv (s : ServiceState) : Prop where
  fetched : ∀ operation, s.poller.fetched? = some operation →
    ∃ t ∈ s.takings, t.1.operation? = acceptable? operation
  handed : ∀ op ∈ s.handed, ∃ t ∈ s.takings, t.1.operation? = some op

theorem takenInv_cleanup {s s' : ServiceState} {i : CleanupInput} (hi : TakenInv s)
    (hc : CleanupChange s i s') : TakenInv s' := by
  cases hc with
  | poller _ => exact ⟨fun operation h => hi.fetched operation (by simpa using h), hi.handed⟩
  | _ => exact ⟨hi.fetched, hi.handed⟩

theorem takenInv_poll {s : ServiceState} {running : Bool} {i : PollInput} {pc' : PollPc}
    {w w' : World} (hi : TakenInv s) (hs : PollMove str running w s.poller i pc' w') :
    (∀ operation, pc'.fetched? = some operation →
      ∃ t ∈ s.takings ++ pollTaking s.notified i, t.1.operation? = acceptable? operation) ∧
    ∀ op ∈ pollHanded s.poller i, ∃ t ∈ s.takings, t.1.operation? = some op := by
  have hkept {operation : PyVal} (h : s.poller.fetched? = some operation) :
      ∃ t ∈ s.takings ++ pollTaking s.notified i,
        t.1.operation? = acceptable? operation := by
    obtain ⟨t, ht, hop⟩ := hi.fetched operation h
    exact ⟨t, List.mem_append_left _ ht, hop⟩
  have hgiven {operation : PyVal} (h : s.poller.fetched? = some operation) :
      ∀ op ∈ (acceptable? operation).toList, ∃ t ∈ s.takings, t.1.operation? = some op := by
    intro op hop
    obtain ⟨t, ht, htaken⟩ := hi.fetched operation h
    exact ⟨t, ht, htaken.trans (Option.mem_toList.mp hop)⟩
  generalize s.poller = pc at hs hkept hgiven ⊢
  cases hs with
  | send a =>
    refine ⟨?_, nofun⟩
    rintro _ ⟨⟩
    exact ⟨(.get a, s.notified), List.mem_append_right _ (List.mem_singleton_self _), rfl⟩
  | answer a =>
    refine ⟨?_, nofun⟩
    rintro _ ⟨⟩
    exact hkept rfl
  | take =>
    refine ⟨?_, nofun⟩
    rintro _ ⟨⟩
    exact hkept rfl
  | submitted => exact ⟨nofun, hgiven rfl⟩
  | raised => exact ⟨nofun, hgiven rfl⟩
  | _ => exact ⟨nofun, nofun⟩

theorem takenInv_step {s s' : ServiceState} {a : ServiceAction} (hi : TakenInv s)
    (hs : serviceStep cfg str names p s a = some s') : TakenInv s' := by
  cases a with
  | cleanup i => exact takenInv_cleanup hi (cleanup_change hs)
  | poller i =>
    obtain ⟨⟨pc, w⟩, hp, rfl⟩ := Option.map_eq_some_iff.mp hs
    obtain ⟨hfetched, hhanded⟩ := takenInv_poll hi (pollStep_move hp)
    refine ⟨hfetched, fun op hop => ?_⟩
    obtain ⟨t, ht, htaken⟩ := (List.mem_append.mp hop).elim (hi.handed op) (hhanded op)
    exact ⟨t, List.mem_append_left _ ht, htaken⟩
  | publisher n i =>
    obtain ⟨⟨pc, w⟩, hp, rfl⟩ := Option.map_eq_some_iff.mp hs
    refine ⟨fun operation h => ?_, fun op hop => ?_⟩
    · obtain ⟨t, ht, htaken⟩ := hi.fetched operation h
      exact ⟨t, List.mem_append_left _ ht, htaken⟩
    · rcases List.mem_append.mp hop with hop | hop
      · obtain ⟨t, ht, htaken⟩ := hi.handed op hop
        exact ⟨t, List.mem_append_left _ ht, htaken⟩
      · refine ⟨(.nextOperation op, s.notified), List.mem_append_right _ ?_, rfl⟩
        exact List.mem_map_of_mem hop
  | others w =>
    cases hs
    exact ⟨hi.fetched, hi.handed⟩

theorem takenInv {ok : ServiceState → ServiceAction → Prop} {s : ServiceState}
    (h : (service cfg str names p).ReachableWhere ok s) : TakenInv s := by
  refine h.invariant ?_ ?_
  · exact ⟨nofun, nofun⟩
  · exact fun s a s' hi _ hs => takenInv_step hi hs

end ShutdownOrderLemmas

/-- Every GET /operation and every accepted `next_operation` precedes the
successful return of `notify_shutdown`, and so every operation that is handed to
`_execute_operation` was taken before it, in every run in which no taking is
under way at this moment and none is begun between it and the stops or by what
is in flight at the stops. -/
theorem nothing_taken_after_notice (cfg : ShutdownConfig) (str : PyVal → String)
    (names : AttributeNames) (p : ResultsProcessor) {s : ServiceState}
    (h : (service cfg str names p).ReachableWhere QuietUntilStopped s) :
    (∀ t ∈ s.takings, t.2 = false) ∧
      ∀ op ∈ s.handed, ∃ t ∈ s.takings, t.1.operation? = some op ∧ t.2 = false := by
  have hi : NoticeInv s := by
    refine h.invariant_with (fun _ => stopInv) ?_ ?_
    · exact ⟨nofun, nofun, nofun⟩
    · exact fun s a s' hj hi hok hs => noticeInv_step hj hi hok hs
  refine ⟨hi.takings, fun op hop => ?_⟩
  obtain ⟨t, ht, htaken⟩ := (takenInv h).handed op hop
  exact ⟨t, ht, htaken, hi.takings t ht⟩

namespace ShutdownOrderLemmas

variable {cfg : ShutdownConfig} {str : PyVal → String} {names : AttributeNames}
  {p : ResultsProcessor} {s s' : ServiceState}

theorem get_follows (hn : s.notified = true) (hg : s.poller.aboutToGet = true) :
    ∃ b s'', serviceStep cfg str names p s b = some s'' ∧ ∃ t ∈ s''.takings, t.2 = true := by
  cases hpc : s.poller with
  | issueGet =>
    refine ⟨.poller (.get (okAnswer .none)), _, by simp only [serviceStep, hpc, pollStep]; rfl, ?_⟩
    exact ⟨(.get (okAnswer .none), true), by simp [pollTaking, hn], rfl⟩
  | _ => rw [hpc] at hg; cases hg

theorem taking_follows {n : Nat} (hn : s.notified = true)
    (ht : (s.publishers n).aboutToTake = true) :
    ∃ b s'', serviceStep cfg str names p s b = some s'' ∧ ∃ t ∈ s''.takings, t.2 = true := by
  cases hpc : s.publishers n with
  | answered response =>
    rw [hpc] at ht
    obtain ⟨op, hop⟩ := Option.isSome_iff_exists.mp ht
    refine ⟨.publisher n (.received fun _ => okAnswer .none), _,
      by simp only [serviceStep, hpc, publishStep]; rfl, ?_⟩
    exact ⟨(.nextOperation op, true), by simp [publishTaking, publishHanded, hop, hn], rfl⟩
  | _ => rw [hpc] at ht; cases ht

end ShutdownOrderLemmas

/-- The condition cannot be dropped: after a step that breaks it, the next step
of the thread in question may be a taking after the notification. -/
theorem loud_notice_overtaken {cfg : ShutdownConfig} {str : PyVal → String} {names : AttributeNames}
    {p : ResultsProcessor} {s s' : ServiceState} {a : ServiceAction}
    (hs : serviceStep cfg str names p s a = some s') (hok : ¬ QuietUntilStopped s a) :
    ∃ b s'', serviceStep cfg str names p s' b = some s'' ∧ ∃ t ∈ s''.takings, t.2 = true := by
  by_contra hno
  refine hok ⟨?_, ?_, ?_, ?_⟩
  · rintro attempt rfl ha
    obtain ⟨⟨pc, events⟩, hc, rfl⟩ := Option.map_eq_some_iff.mp hs
    rw [cleanupStep_notified hc] at hno
    rw [← Bool.not_eq_true]
    exact fun hg => hno (get_follows (by simp [applyEvent, ha]) hg)
  · rintro attempt rfl ha n
    obtain ⟨⟨pc, events⟩, hc, rfl⟩ := Option.map_eq_some_iff.mp hs
    rw [cleanupStep_notified hc] at hno
    rw [← Bool.not_eq_true]
    exact fun ht => hno (@taking_follows cfg str names p _ n (by simp [applyEvent, ha]) ht)
  · rintro hn - rfl
    obtain ⟨⟨pc, w⟩, hp, rfl⟩ := Option.map_eq_some_iff.mp hs
    exact hno (get_follows hn (mayGet_of_accept (pollStep_move hp)).2)
  · rintro hn n - attempts rfl
    obtain ⟨⟨pc, w⟩, hp, rfl⟩ := Option.map_eq_some_iff.mp hs
    rw [Option.eq_none_iff_forall_ne_some]
    intro op hop
    have ht : pc.aboutToTake = true := by
      rw [answered_of_pushed hp, PublishPc.aboutToTake, hop]
      rfl
    refine hno (@taking_follows cfg str names p _ n hn ?_)
    simpa only [Function.update_self] using ht

/-- A storage service that is not there. -/
def emptyStorage : StorageService where
  write := fun _ _ => .error ⟨"NotImplementedError", "Not implemented"⟩
  generatePresignedUrl := fun _ _ => .error ⟨"NotImplementedError", "Not implemented"⟩

/-- A results processor that offloads nothing. -/
def plainProcessor : ResultsProcessor where
  storage := emptyStorage
  enablePreSignedUrls := false
  int := fun _ => .error ⟨"ValueError", "invalid literal for int()"⟩
  expirationSetting := none
  serialize := fun _ => ""
  compress := id

/-- A service without logs and without pre-signed urls. -/
def bareService : System ServiceState ServiceAction :=
  service bareConfig (fun _ => "") mcdNames plainProcessor

/-- A test for the condition at the steps other than the return of
`notify_shutdown`. -/
def ShutdownOrder.quietUntilStopped (s : ServiceState) : ServiceAction → Bool
  | .cleanup (.notified _) => false
  | .poller (.canAccept true) =>
    !s.notified || !(isToStop .operationsPoller s.cleanup || s.roundAtStop)
  | .publisher n (.pushed attempts) =>
    !s.notified || !(isToStop .resultsPublisher s.cleanup || s.resultAtStop n) ||
      (nextOperation? (BackendClient.pushResults attempts)).isNone
  | _ => true

theorem ShutdownOrderLemmas.quietUntilStopped_sound (s : ServiceState) (a : ServiceAction)
    (h : quietUntilStopped s a = true) : QuietUntilStopped s a := by
  refine ⟨?_, ?_, ?_, ?_⟩
  · rintro attempt rfl
    cases h
  · rintro attempt rfl
    cases h
  · rintro hn hflight rfl
    rcases hflight with hflight | hflight <;> simp [quietUntilStopped, hn, hflight] at h
  · rintro hn n hflight attempts rfl
    rcases hflight with hflight | hflight <;> simpa [quietUntilStopped, hn, hflight] using h

/-- A GET and a push are sent, and then the notification. -/
def sentBeforeRun : List ServiceAction :=
  [.others { resultsQueue := [⟨.str "op-1", some [], none, none⟩] }, .publisher 0 .go,
    .publisher 0 .go, .publisher 0 .go, .poller .go, .poller (.canAccept true),
    .poller (.get (okAnswer (.dict (operationWith (.dict []))))), .cleanup .go]

/-- The publisher and the poller are stopped. The push is answered without an
operation, and what the GET brought is dropped. -/
def stopsRun : List ServiceAction :=
  [.cleanup .go, .cleanup .go, .cleanup .go, .publisher 0 (.pushed fun _ => okAnswer .none),
    .publisher 0 (.received fun _ => okAnswer .none), .publisher 0 .go, .cleanup .go, .poller .go,
    .poller .go, .poller .go, .poller .go, .poller .go]

/-- The rule at a notification that returns while a GET and a push are under way. -/
theorem nothing_taken_after_notice_stopped :
    ∃ s, bareService.exec bareService.init
        (sentBeforeRun ++ .cleanup (.notified (okAnswer .none)) :: stopsRun) = some s ∧
      s.notified = true ∧ s.polling = false ∧ s.publishing = false ∧ s.poller.left = true ∧
      s.takings.length = 1 ∧ ∀ t ∈ s.takings, t.2 = false := by
  let l := sentBeforeRun ++ .cleanup (.notified (okAnswer .none)) :: stopsRun
  refine ⟨_, rfl, rfl, rfl, rfl, rfl, rfl, ?_⟩
  refine (nothing_taken_after_notice bareConfig (fun _ => "") mcdNames plainProcessor
    (System.reachableWhere_iff_exec.mpr ⟨l, rfl, ?_⟩)).1
  have hsent : bareService.Along QuietUntilStopped bareService.init sentBeforeRun :=
    (System.exec_along_of_execWhile quietUntilStopped_sound rfl).2
  refine (System.along_append (S := bareService) rfl).mpr ⟨hsent, ?_, ?_⟩
  · refine ⟨fun _ _ _ => rfl, fun _ _ _ n => ?_, nofun, nofun⟩
    cases n <;> rfl
  · rintro _ ⟨⟩
    exact (System.exec_along_of_execWhile quietUntilStopped_sound rfl).2

/-- `notify_shutdown` returns while the polling thread is about to send a GET,
which it then sends. -/
theorem get_after_notice :
    ∃ s, bareService.Reachable s ∧ ∃ t ∈ s.takings, t.2 = true := by
  refine ⟨_, System.reachable_of_exec (l := [.poller .go, .poller (.canAccept true), .cleanup .go,
    .cleanup (.notified (okAnswer .none)), .poller (.get (okAnswer .none))]) rfl, (.get (okAnswer .none), true), ?_, rfl⟩
  exact List.mem_singleton_self _

end EgressAgent
