import EgressAgent.Lib.Ledger
import EgressAgent.Dispatch
import EgressAgent.ShutdownOrder

/-!
# The pipeline

The polling thread, the workers of `ops_runner`, the threads of
`results_publisher` and the timers, which share the two queues. A publisher
thread closes the circle: the answer to a push may carry an operation, which it
puts in the queue of the workers. Every thread may be stopped at any moment, the
storage service, the backend and the agent's own handler answer as they like in
every step.

The code that runs an operation, prepares a push or hands on an operation
touches the queues once, at its end, and is one step.

Beside the threads a ledger follows the operations. A token is issued when the
backend delivers an operation with a path and an id, and when a timer schedules
one; it moves on with the operation and then with its result. Where a step
takes it depends on what the code of the step did to the queues and whether it
raised.

1. The workers, the timers and the ledger of a step.
2. The system, and what a step of each thread can do.
3. `submit_run`, `runs_operation` and `receives_next`: what the code of a step
   does to the queues. `unanswered_silent`: which operations end without a
   result and without an exception.
-/

namespace EgressAgent

open Py Effect Transition
open BackendClient (Attempt)
open OperationsPoller Shutdown ShutdownOrder
open ShutdownOrderLemmas

/-- The service with these answers of its logs service, if it has one. -/
def ServiceArgs.withLogs (args : ServiceArgs) (logs : LogsService) : ServiceArgs :=
  { args with logsService := args.logsService.map fun _ => logs }

/-! ## 1. The parts -/

namespace Pipeline

/-- The control points of a worker, in `QueueAsyncProcessor._run` and its handler
`_execute_scheduled_operation`. -/
inductive RunnerPc
  /-- `while self._running` -/
  | loopTest
  /-- the section under the lock, entered or woken up in -/
  | takeItem
  /-- `self._condition.wait()` -/
  | waiting
  /-- inside `_execute_scheduled_operation` -/
  | holding (op : Operation)
  | returned

/-- What a step of a worker gets from outside: the answers of what the method of
the operation calls. -/
inductive RunnerInput
  | go
  | executed (env : Env) (logs : LogsService)

/-- One step of a worker. `_invoke_handler` catches what the handler raises. -/
def runStep (names : AttributeNames) (args : ServiceArgs) (running : Bool) (w : World) :
    RunnerPc → RunnerInput → Option (RunnerPc × World)
  | .loopTest, .go => some (if running then .takeItem else .returned, w)
  | .takeItem, .go =>
      if !running then some (.returned, w)
      else match w.opsQueue with
        | [] => some (.waiting, w)
        | op :: rest => some (.holding op, { w with opsQueue := rest })
  | .waiting, .go => some (.takeItem, w)
  | .holding op, .executed env logs =>
      some (.loopTest, after (executeScheduledOperation names env (args.withLogs logs).build op) w)
  | _, _ => none

/-- `_push_metrics` and `_push_logs`. -/
def pushOperation (path : String) : Agent Unit :=
  scheduleOperation (.str path) (.dict [(attrNamePath, .str path)])

inductive Timer
  | metrics
  | logs

def Timer.path : Timer → String
  | .metrics => pathPushMetrics
  | .logs => pathPushLogs

/-! ### The ledger -/

/-- Where an operation came from. -/
inductive Source
  | polled
  | piggybacked
  | timer
deriving DecidableEq

structure Tag where
  source : Source
  operationId : PyVal

/-- Why an operation or its result went no further. -/
inductive Discard
  /-- the step that had it raised -/
  | raised (e : PyExc)
  /-- `while operation and self._running` in a stopped poller -/
  | stopped
  /-- the method that ran it schedules no result -/
  | unanswered
  /-- `_push_results` had nothing to push -/
  | rejected
  /-- it was not valid -/
  | ignored
deriving DecidableEq

/-- Where an operation, or later its result, can be. -/
inductive Place (n m : Nat)
  /-- the polling thread has it from GET /operation -/
  | polling
  /-- a publisher thread has it from the answer to a push -/
  | delivering (j : Fin m)
  | opsQueue
  | worker (k : Fin n)
  | resultsQueue
  /-- a publisher thread has its result -/
  | publisher (j : Fin m)
  /-- `push_results` was called for it -/
  | pushed
  | discarded (why : Discard)
deriving DecidableEq

/-- It is still in the pipeline or was pushed. -/
def Place.kept {n m : Nat} : Place n m → Bool
  | .discarded _ => false
  | _ => true

theorem Place.not_kept_discarded {n m : Nat} (why : Discard) :
    ¬ (Place.discarded why : Place n m).kept = true :=
  Bool.false_ne_true

section Ledger

variable {n m : Nat}

/-- Where a step takes its token: to `next` if the step put something in the
queue, and otherwise out of the pipeline. -/
def destination {α β : Type} (queue : World → List α) (next : Place n m) (silent : Discard)
    (w : World) : EStateM.Result PyExc World β → Place n m
  | .ok _ w' => if (queue w).length < (queue w').length then next else .discarded silent
  | .error e w' => if (queue w).length < (queue w').length then next else .discarded (.raised e)

/-- Where a step takes an operation that it was to schedule. -/
def scheduledTo (w : World) (r : EStateM.Result PyExc World Unit) : Place n m :=
  destination World.opsQueue .opsQueue .ignored w r

/-- Where a worker takes an operation that it ran. -/
def executedTo (w : World) (r : EStateM.Result PyExc World Unit) : Place n m :=
  destination World.resultsQueue .resultsQueue .unanswered w r

/-- Why a result is not pushed. -/
def refusal : EStateM.Result PyExc World (Option Dict) → Discard
  | .ok _ _ => .rejected
  | .error e _ => .raised e

/-- The ledger after a step of the polling thread. -/
def pollLedger (str : PyVal → String) (w : World) (L : Ledger (Place n m) Tag) :
    PollPc → PollInput → PollPc → Ledger (Place n m) Tag
  | .fetching _, .go, .innerTest operation =>
    match acceptable? operation with
    | some op => L.issue .polling ⟨.polled, idOf op⟩
    | none => L
  | .innerTest _, .go, .enterWait .stopped => L.advance .polling (.discarded .stopped)
  | .submit operation, .submit downloads, _ =>
    L.advance .polling
      (scheduledTo w (submitOperation (handlePolledOperation str downloads) operation w))
  | _, _, _ => L

/-- The ledger after a step of the worker `k`. -/
def runLedger (names : AttributeNames) (args : ServiceArgs) (k : Fin n) (w : World)
    (L : Ledger (Place n m) Tag) : RunnerPc → RunnerInput → RunnerPc → Ledger (Place n m) Tag
  | .takeItem, .go, .holding _ => L.advance .opsQueue (.worker k)
  | .holding op, .executed env logs, _ =>
    L.advance (.worker k)
      (executedTo w (executeScheduledOperation names env (args.withLogs logs).build op w))
  | _, _, _ => L

/-- The ledger after a step of the publisher thread `j`. -/
def publishLedger (str : PyVal → String) (names : AttributeNames) (p : ResultsProcessor)
    (j : Fin m) (w : World) (L : Ledger (Place n m) Tag) :
    PublishPc → PublishInput → PublishPc → Ledger (Place n m) Tag
  | .takeItem, .go, .holding _ => L.advance .resultsQueue (.publisher j)
  | .holding result, .go, .loopTest =>
    L.advance (.publisher j) (.discarded (refusal (beginPush names p result w)))
  | .pushing _ _, .pushed _, .answered response =>
    let L := L.advance (.publisher j) .pushed
    match nextOperation? response with
    | some op => L.issue (.delivering j) ⟨.piggybacked, idOf op⟩
    | none => L
  | .answered response, .received downloads, _ =>
    L.advance (.delivering j) (scheduledTo w (handlePushResponse str downloads response w))
  | _, _, _ => L

end Ledger

/-! ## 2. The system -/

structure PipelineState (n m : Nat) where
  /-- `OperationsPoller._running` -/
  polling : Bool
  /-- `OperationsRunner._running` -/
  running : Bool
  /-- `ResultsPublisher._running` -/
  publishing : Bool
  poller : PollPc
  workers : Fin n → RunnerPc
  publishers : Fin m → PublishPc
  world : World
  ledger : Ledger (Place n m) Tag
  /-- the tokens of the operations that were given to
  `_execute_scheduled_operation`, in order -/
  executed : List Nat
  /-- `_can_accept_work` has found room since the last submission -/
  observed : Bool
  /-- `observed` at the GETs, in order -/
  gets : List Bool

inductive PipelineAction (n m : Nat)
  | poller (i : PollInput)
  | worker (k : Fin n) (i : RunnerInput)
  /-- a step of a publisher thread, with the storage service as it answers then -/
  | publisher (j : Fin m) (p : ResultsProcessor) (i : PublishInput)
  | timer (t : Timer)
  | notifyWorkAvailable
  | stop (c : Component)

/-- `_can_accept_work`: an answer to the polling thread is that of the queue and
the number of the workers. -/
def answersFor (n : Nat) (w : World) : PollInput → Bool
  | .canAccept b => b == decide (w.opsQueue.length < n)
  | _ => true

/-- `observed` after a step of the polling thread. -/
def observes (observed : Bool) : PollInput → Bool
  | .canAccept b => observed || b
  | .submit _ => false
  | _ => observed

/-- The GETs after a step of the polling thread. -/
def recordGet (observed : Bool) (gets : List Bool) : PollInput → List Bool
  | .get _ => gets ++ [observed]
  | _ => gets

/-- The tokens executed after a step of the worker `k`. -/
def recordExecution {n m : Nat} (k : Fin n) (L : Ledger (Place n m) Tag) (executed : List Nat) :
    RunnerInput → List Nat
  | .executed _ _ => executed ++ (L.held (.worker k)).map Token.number
  | .go => executed

/-- The `stop()` of a component. Its `notify_all` makes no difference to the
workers and the publisher threads, which may wake at any time. -/
def applyStop {n m : Nat} (s : PipelineState n m) : Component → PipelineState n m
  | .opsRunner => { s with running := false }
  | .resultsPublisher => { s with publishing := false }
  | .operationsPoller => { s with polling := false, poller := s.poller.notifyAll }
  | _ => s

section System

variable (str : PyVal → String) (names : AttributeNames) (args : ServiceArgs) {n m : Nat}

def pipelineStep (s : PipelineState n m) : PipelineAction n m → Option (PipelineState n m)
  | .poller i =>
      if answersFor n s.world i then
        (pollStep str s.polling s.world s.poller i).map fun (pc, w) =>
          { s with poller := pc, world := w,
                   ledger := pollLedger str s.world s.ledger s.poller i pc,
                   observed := observes s.observed i,
                   gets := recordGet s.observed s.gets i }
      else none
  | .worker k i =>
      (runStep names args s.running s.world (s.workers k) i).map fun (pc, w) =>
        { s with workers := Function.update s.workers k pc, world := w,
                 ledger := runLedger names args k s.world s.ledger (s.workers k) i pc,
                 executed := recordExecution k s.ledger s.executed i }
  | .publisher j p i =>
      (publishStep str names p s.publishing s.world (s.publishers j) i).map fun (pc, w) =>
        { s with publishers := Function.update s.publishers j pc, world := w,
                 ledger := publishLedger str names p j s.world s.ledger (s.publishers j) i pc }
  | .timer t =>
      some { s with world := after (pushOperation t.path) s.world,
                    ledger := s.ledger.issue .opsQueue ⟨.timer, .str t.path⟩ }
  | .notifyWorkAvailable => some { s with poller := s.poller.notifyAll }
  | .stop c => some (applyStop s c)

/-- The pipeline with `n` workers and `m` publisher threads, when all are
started. -/
def pipeline (n m : Nat) : System (PipelineState n m) (PipelineAction n m) where
  init :=
    { polling := true, running := true, publishing := true, poller := .loopTest,
      workers := fun _ => .loopTest, publishers := fun _ => .loopTest, world := {},
      ledger := .empty, executed := [], observed := false, gets := [] }
  step := pipelineStep str names args

end System

/-- The moves of a worker, one constructor for each way out of a control
point. -/
inductive RunMove (names : AttributeNames) (args : ServiceArgs) (w : World) :
    RunnerPc → RunnerInput → RunnerPc → World → Prop
  | enter : RunMove names args w .loopTest .go .takeItem w
  | finish : RunMove names args w .loopTest .go .returned w
  | leave : RunMove names args w .takeItem .go .returned w
  | wait : RunMove names args w .takeItem .go .waiting w
  | take {op : Operation} {rest : List Operation} : w.opsQueue = op :: rest →
      RunMove names args w .takeItem .go (.holding op) { w with opsQueue := rest }
  | wake : RunMove names args w .waiting .go .takeItem w
  | execute (op : Operation) (env : Env) (logs : LogsService) :
      RunMove names args w (.holding op) (.executed env logs) .loopTest
        (after (executeScheduledOperation names env (args.withLogs logs).build op) w)

/-- The moves of the pipeline, in terms of those of its threads. -/
inductive PipelineMove (str : PyVal → String) (names : AttributeNames) (args : ServiceArgs)
    {n m : Nat} (s : PipelineState n m) : PipelineAction n m → PipelineState n m → Prop
  | poll {i : PollInput} {pc : PollPc} {w : World} : answersFor n s.world i = true →
      PollMove str s.polling s.world s.poller i pc w →
      PipelineMove str names args s (.poller i)
        { s with poller := pc, world := w,
                 ledger := pollLedger str s.world s.ledger s.poller i pc,
                 observed := observes s.observed i,
                 gets := recordGet s.observed s.gets i }
  | run {k : Fin n} {i : RunnerInput} {pc : RunnerPc} {w : World} :
      RunMove names args s.world (s.workers k) i pc w →
      PipelineMove str names args s (.worker k i)
        { s with workers := Function.update s.workers k pc, world := w,
                 ledger := runLedger names args k s.world s.ledger (s.workers k) i pc,
                 executed := recordExecution k s.ledger s.executed i }
  | publish {j : Fin m} {p : ResultsProcessor} {i : PublishInput} {pc : PublishPc} {w : World} :
      PublishMove str names p s.world (s.publishers j) i pc w →
      PipelineMove str names args s (.publisher j p i)
        { s with publishers := Function.update s.publishers j pc, world := w,
                 ledger := publishLedger str names p j s.world s.ledger (s.publishers j) i pc }
  | timer (t : Timer) : PipelineMove str names args s (.timer t)
      { s with world := after (pushOperation t.path) s.world,
               ledger := s.ledger.issue .opsQueue ⟨.timer, .str t.path⟩ }
  | notify : PipelineMove str names args s .notifyWorkAvailable
      { s with poller := s.poller.notifyAll }
  | stop (c : Component) : PipelineMove str names args s (.stop c) (applyStop s c)

/-- The operation or result goes to `next` or is discarded. -/
def Place.LeadsTo {n m : Nat} (next : Place n m) (place : Place n m) : Prop :=
  place = next ∨ ∃ why, place = .discarded why

/-- What a step does to the ledger. `submits` tells the steps in which the
polling thread submits an operation. -/
inductive LedgerMove {n m : Nat} (L : Ledger (Place n m) Tag) :
    (submits : Bool) → Ledger (Place n m) Tag → Prop
  | idle : LedgerMove L false L
  | poll (operationId : PyVal) : LedgerMove L false (L.issue .polling ⟨.polled, operationId⟩)
  | drop : LedgerMove L false (L.advance .polling (.discarded .stopped))
  | submit {place : Place n m} : Place.opsQueue.LeadsTo place →
      LedgerMove L true (L.advance .polling place)
  | takeOperation (k : Fin n) : LedgerMove L false (L.advance .opsQueue (.worker k))
  | execute (k : Fin n) {place : Place n m} : Place.resultsQueue.LeadsTo place →
      LedgerMove L false (L.advance (.worker k) place)
  | takeResult (j : Fin m) : LedgerMove L false (L.advance .resultsQueue (.publisher j))
  | refuse (j : Fin m) (why : Discard) :
      LedgerMove L false (L.advance (.publisher j) (.discarded why))
  | push (j : Fin m) : LedgerMove L false (L.advance (.publisher j) .pushed)
  | pushAnswered (j : Fin m) (operationId : PyVal) :
      LedgerMove L false
        ((L.advance (.publisher j) .pushed).issue (.delivering j) ⟨.piggybacked, operationId⟩)
  | handOn (j : Fin m) {place : Place n m} : Place.opsQueue.LeadsTo place →
      LedgerMove L false (L.advance (.delivering j) place)
  | schedule (operationId : PyVal) : LedgerMove L false (L.issue .opsQueue ⟨.timer, operationId⟩)

/-- The action is a submission. -/
def PipelineAction.submits {n m : Nat} : PipelineAction n m → Bool
  | .poller (.submit _) => true
  | _ => false

end Pipeline

open Pipeline

namespace PipelineLemmas

variable {str : PyVal → String} {names : AttributeNames} {args : ServiceArgs}
  {p : ResultsProcessor} {running : Bool} {w w' : World}

theorem runStep_move {pc pc' : RunnerPc} {i : RunnerInput}
    (hs : runStep names args running w pc i = some (pc', w')) : RunMove names args w pc i pc' w' := by
  unfold runStep at hs
  split at hs
  · cases running <;> cases hs
    · exact .finish
    · exact .enter
  · cases running with
    | false =>
      cases hs
      exact .leave
    | true =>
      simp only [Bool.not_true, Bool.false_eq_true, if_false] at hs
      split at hs <;> cases hs
      · exact .wait
      · next hq => exact .take hq
  · cases hs
    exact .wake
  · cases hs
    exact .execute _ _ _
  · cases hs

theorem pipelineStep_move {n m : Nat} {s s' : PipelineState n m} {a : PipelineAction n m}
    (hs : pipelineStep str names args s a = some s') : PipelineMove str names args s a s' := by
  cases a with
  | poller i =>
    simp only [pipelineStep, Option.ite_none_right_eq_some, Option.map_eq_some_iff] at hs
    obtain ⟨hanswer, ⟨pc, w⟩, hmove, rfl⟩ := hs
    exact .poll hanswer (pollStep_move hmove)
  | worker k i =>
    obtain ⟨⟨pc, w⟩, hmove, rfl⟩ := Option.map_eq_some_iff.mp hs
    exact .run (runStep_move hmove)
  | publisher j p i =>
    obtain ⟨⟨pc, w⟩, hmove, rfl⟩ := Option.map_eq_some_iff.mp hs
    exact .publish (publishStep_move hmove)
  | timer t =>
    cases hs
    exact .timer t
  | notifyWorkAvailable =>
    cases hs
    exact .notify
  | stop c =>
    cases hs
    exact .stop c

section Ledger

variable {n m : Nat} {L : Ledger (Place n m) Tag} {s s' : PipelineState n m}

theorem destination_leadsTo {α β : Type} (queue : World → List α) (next : Place n m)
    (silent : Discard) (w : World) (r : EStateM.Result PyExc World β) :
    next.LeadsTo (destination queue next silent w r) := by
  cases r <;> simp only [destination] <;> split <;> simp [Place.LeadsTo]

theorem pollLedger_move {pc pc' : PollPc} {i : PollInput} (hs : PollMove str running w pc i pc' w') :
    LedgerMove L (PipelineAction.poller i : PipelineAction n m).submits
      (pollLedger str w L pc i pc') := by
  cases hs with
  | answer a =>
    simp only [pollLedger]
    split
    · exact .poll _
    · exact .idle
  | drop => exact .drop
  | submitted => exact .submit (destination_leadsTo _ _ _ _ _)
  | raised => exact .submit (destination_leadsTo _ _ _ _ _)
  | _ => exact .idle

theorem runLedger_move {k : Fin n} {pc pc' : RunnerPc} {i : RunnerInput}
    (hs : RunMove names args w pc i pc' w') :
    LedgerMove L false (runLedger names args k w L pc i pc') := by
  cases hs with
  | take => exact .takeOperation k
  | execute => exact .execute k (destination_leadsTo _ _ _ _ _)
  | _ => exact .idle

theorem publishLedger_move {j : Fin m} {pc pc' : PublishPc} {i : PublishInput}
    (hs : PublishMove str names p w pc i pc' w') :
    LedgerMove L false (publishLedger str names p j w L pc i pc') := by
  cases hs with
  | take => exact .takeResult j
  | refuse => exact .refuse j _
  | push =>
    simp only [publishLedger]
    split
    · exact .pushAnswered j _
    · exact .push j
  | receive => exact .handOn j (destination_leadsTo _ _ _ _ _)
  | _ => exact .idle

theorem ledgerMove {a : PipelineAction n m} (hs : PipelineMove str names args s a s') :
    LedgerMove s.ledger a.submits s'.ledger := by
  cases hs with
  | poll _ hmove => exact pollLedger_move hmove
  | run hmove => exact runLedger_move hmove
  | publish hmove => exact publishLedger_move hmove
  | timer t => exact .schedule _
  | notify => exact .idle
  | stop c => cases c <;> exact .idle

end Ledger

end PipelineLemmas

/-! ## 3. What the code of a step does to the queues -/

/-- An operation that is handed on was queued with this id, or something was
raised, and nothing else happened. -/
inductive Scheduling (operationId : PyVal) (w : World) : EStateM.Result PyExc World Unit → Prop
  | queued (event : PyVal) : Scheduling operationId w
      (.ok () { w with opsQueue := w.opsQueue ++ [⟨operationId, event⟩] })
  | raised (e : PyExc) : Scheduling operationId w (.error e w)

/-- The execution of an operation queues at most one result, under the id of the
operation, and leaves the other queue and the pushes alone. -/
structure Answers (operationId : PyVal) (w w' : World) : Prop where
  opsQueue : w'.opsQueue = w.opsQueue
  pushes : w'.pushes = w.pushes
  resultsQueue : w'.resultsQueue = w.resultsQueue ∨
    ∃ r, w'.resultsQueue = w.resultsQueue ++ [r] ∧ r.operationId = operationId

/-- The code answers an operation at most once, in any state. -/
def AnswersOnce (operationId : PyVal) {β : Type} (x : Agent β) : Prop :=
  ∀ w, Answers operationId w (after x w)

namespace PipelineLemmas

variable {str : PyVal → String} {names : AttributeNames} {p : ResultsProcessor}
  {downloads : Nat → Attempt} {w : World}

/-! ### Handing an operation on -/

theorem executeOperation_run (path operationId : PyVal) (op : Dict) :
    Scheduling operationId w (executeOperation str downloads path operationId (.dict op) w) := by
  by_cases h : Deliverable downloads op
  · obtain ⟨event, _, hrun⟩ := @IntakeLemmas.execute_deliverable str downloads op w path operationId h
    rw [hrun]
    exact .queued event
  · rcases @IntakeLemmas.execute_not_deliverable str downloads op w path operationId h with
      ⟨e, hrun⟩ | ⟨_, _, event, hrun⟩
    · rw [hrun]
      exact .raised e
    · rw [hrun]
      exact .queued event

/-- A valid operation is scheduled, or something is raised. -/
theorem submit_run {operation : PyVal} {op : Dict} (h : acceptable? operation = some op) :
    Scheduling (idOf op) w
      (submitOperation (handlePolledOperation str downloads) operation w) := by
  rw [IntakeLemmas.submit_accepted h]
  exact executeOperation_run _ _ _

/-- The operation in the answer to a push is scheduled, or something is
raised. -/
theorem receives_next {response : PyVal} {op : Dict} (h : nextOperation? response = some op) :
    Scheduling (idOf op) w (handlePushResponse str downloads response w) := by
  rw [handlePushResponse_accepted h]
  exact executeOperation_run _ _ _

/-- A timer's operation has the path for its id. -/
theorem pushOperation_after (path : String) :
    after (pushOperation path) w =
      { w with opsQueue := w.opsQueue ++ [⟨.str path, .dict [(attrNamePath, .str path)]⟩] } :=
  rfl

/-! ### Running an operation -/

theorem answers_self (operationId : PyVal) (w : World) : Answers operationId w w :=
  ⟨rfl, rfl, .inl rfl⟩

theorem answersOnce_pure {operationId : PyVal} {β : Type} (a : β) :
    AnswersOnce operationId (pure a : Agent β) :=
  answers_self operationId

theorem answersOnce_bind {operationId : PyVal} {β γ : Type} {x : Agent β} {f : β → Agent γ}
    (hx : Keeps id x) (hf : ∀ a, AnswersOnce operationId (f a)) : AnswersOnce operationId (x >>= f) := by
  intro w
  have hsame : after x w = w := hx w
  cases hrun : x w with
  | ok a w' =>
    rw [after_of_ok hrun] at hsame
    subst hsame
    rw [after, bind_run_ok hrun]
    exact hf a w'
  | error e w' =>
    rw [after_of_error hrun] at hsame
    subst hsame
    rw [after_of_error (bind_run_error hrun)]
    exact answers_self operationId w'

theorem answersOnce_schedule (operationId : PyVal) (result : Dict) :
    AnswersOnce operationId (schedulePushResults operationId result none) :=
  fun _ => ⟨rfl, rfl, .inr ⟨_, rfl, rfl⟩⟩

theorem answersOnce_post {operationId : PyVal} (path : String) (body : PyVal) :
    AnswersOnce operationId (post path body) :=
  fun _ => ⟨rfl, rfl, .inl rfl⟩

theorem answersOnce_answerWith (operationId : PyVal) (x : Except PyExc Dict) :
    AnswersOnce operationId (answerWith names operationId x) := by
  obtain ⟨result, hschedule⟩ := DispatchLemmas.answerWith_eq_schedule names operationId x
  rw [hschedule]
  exact answersOnce_schedule operationId result

theorem answersOnce_flushLogs {operationId : PyVal} (env : Env) (service : Service) (event : PyVal) :
    AnswersOnce operationId (flushLogs env service event) := by
  have htail (logs : List PyVal) : AnswersOnce operationId
      (if logs.isEmpty then return else post pathLogs (.dict [("logs", .list logs)])) := by
    split
    · exact answersOnce_pure _
    · exact answersOnce_post _ _
  unfold flushLogs
  split
  · exact answersOnce_pure _
  · dsimp only
    split
    · exact answersOnce_bind (keeps_call _) htail
    · exact answersOnce_bind (keeps_call _) fun _ => answersOnce_bind (keeps_call _) fun _ =>
        answersOnce_bind (keeps_call _) htail

theorem answersOnce_runMethod (env : Env) (service : Service) (operationId event : PyVal)
    (method : OperationMethod) :
    AnswersOnce operationId (runMethod names env service operationId event method) := by
  cases method with
  | executeAgentOperation => exact answersOnce_answerWith _ _
  | executeHealth => exact answersOnce_answerWith _ _
  | executeGetMetrics =>
    exact answersOnce_bind (keeps_call _) fun _ => answersOnce_bind (keeps_call _) fun _ =>
      answersOnce_answerWith _ _
  | executePushMetrics => exact answersOnce_bind (keeps_call _) fun _ => answersOnce_post _ _
  | executeGetLogs =>
    show AnswersOnce operationId (executeGetLogs names service operationId event)
    unfold executeGetLogs
    split
    · exact answersOnce_pure _
    · exact answersOnce_bind (keeps_call _) fun _ => answersOnce_bind (keeps_call _) fun _ =>
        answersOnce_bind (keeps_call _) fun _ => answersOnce_answerWith _ _
  | executePushLogs => exact answersOnce_flushLogs env service event

/-- The execution of an operation, whatever its method answers. -/
theorem runs_operation (env : Env) (service : Service) (op : Operation) :
    AnswersOnce op.operationId (executeScheduledOperation names env service op) := by
  refine answersOnce_bind (keeps_call _) fun path => answersOnce_bind (keeps_call _) fun method => ?_
  split
  · exact answersOnce_runMethod env service _ _ _
  · exact answersOnce_bind (keeps_call _) fun path => answersOnce_schedule _ _

end PipelineLemmas

/-- The methods that end without a result. -/
def Silent (service : Service) : OperationMethod → Prop
  | .executePushMetrics => True
  | .executePushLogs => True
  | .executeGetLogs => service.logsService = none
  | _ => False

/-- Where the code returns, it has queued something for publishing. -/
def Replies (x : Agent Unit) : Prop :=
  ∀ w w', x w = .ok () w' → w'.resultsQueue ≠ w.resultsQueue

namespace PipelineLemmas

variable {names : AttributeNames} {env : Env} {service : Service} {operationId event : PyVal}

theorem replies_bind {β : Type} {x : Agent β} {f : β → Agent Unit} (hx : Keeps id x)
    (hf : ∀ a, Replies (f a)) : Replies (x >>= f) := by
  intro w w' hrun
  have hsame : after x w = w := hx w
  cases hx' : x w with
  | ok a w₁ =>
    rw [after_of_ok hx'] at hsame
    subst hsame
    rw [bind_run_ok hx'] at hrun
    exact hf a w₁ w' hrun
  | error e w₁ =>
    rw [bind_run_error hx'] at hrun
    cases hrun

theorem replies_of_repliedOnce {x : Agent Unit}
    (h : ∀ w, RepliedOnce operationId w (after x w)) : Replies x := by
  intro w w' hrun hsame
  obtain ⟨r, hr, _⟩ := h w
  rw [after_of_ok hrun, hsame] at hr
  simp at hr

theorem replies_answerWith (x : Except PyExc Dict) : Replies (answerWith names operationId x) :=
  replies_of_repliedOnce fun _ => DispatchLemmas.repliedOnce_answerWith x

theorem replies_runMethod {method : OperationMethod} (h : ¬ Silent service method) :
    Replies (runMethod names env service operationId event method) := by
  cases method with
  | executeAgentOperation => exact replies_answerWith _
  | executeHealth => exact replies_answerWith _
  | executeGetMetrics =>
    exact replies_bind (keeps_call _) fun _ => replies_bind (keeps_call _) fun _ =>
      replies_answerWith _
  | executePushMetrics => exact absurd trivial h
  | executeGetLogs =>
    show Replies (executeGetLogs names service operationId event)
    unfold executeGetLogs
    split
    · next hnone => exact absurd hnone h
    · exact replies_bind (keeps_call _) fun _ => replies_bind (keeps_call _) fun _ =>
        replies_bind (keeps_call _) fun _ => replies_answerWith _
  | executePushLogs => exact absurd trivial h

end PipelineLemmas

open PipelineLemmas

/-- An operation whose execution returns and queues no result was run by a
method that answers nothing: one of the two that push for the timers, or that
for the logs in a service without a logs service. -/
theorem unanswered_silent {names : AttributeNames} {env : Env} {service : Service} {op : Operation}
    {w w' : World} (hrun : executeScheduledOperation names env service op w = .ok () w')
    (hnone : w'.resultsQueue = w.resultsQueue) :
    ∃ path method, op.event.get attrNamePath (.str "") = .ok path ∧
      resolveOperationMethod path service.operationsMapping = .ok (some method) ∧
      Silent service method := by
  unfold executeScheduledOperation at hrun
  cases hpath : op.event.get attrNamePath (.str "") with
  | error e => simp [hpath, bind_run] at hrun
  | ok path =>
    cases hmethod : resolveOperationMethod path service.operationsMapping with
    | error e => simp [hpath, hmethod, bind_run] at hrun
    | ok method =>
      simp only [hpath, hmethod, bind_run, call_ok] at hrun
      cases method with
      | some method =>
        refine ⟨path, method, rfl, hmethod, ?_⟩
        by_contra hsilent
        exact replies_runMethod hsilent w w' hrun hnone
      | none =>
        refine absurd hnone (replies_bind (keeps_call _) (fun path => ?_) w w' hrun)
        exact replies_of_repliedOnce fun _ => DispatchLemmas.repliedOnce_schedule

end EgressAgent
