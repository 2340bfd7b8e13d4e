import EgressAgent.Intake

/-!
# How an operation is executed

`_execute_scheduled_operation` looks the path of an operation up in the mapping
that the constructor built and runs the method found there. What the methods
call outside the service (the agent's own handler, the metrics and logs
services, health information) returns or raises as `Env` says.

1. The methods, one by one, and the dispatch.
2. `executeScheduledOperation_answers_iff`: a dispatched operation is answered
   exactly once, except for a request of the logs where the service was built
   without a logs service and without `skip_logs`.
-/

namespace EgressAgent

open Py Effect
open BackendClient (Attempt)

def attrNameLimit : String := "limit"
def attrNameEvents : String := "events"

def pathPushMetrics : String := "push_metrics"
def pathPushLogs : String := "push_logs"
def pathLogs : String := "/api/v1/agent/logs"
def pathMetrics : String := "/api/v1/agent/metrics"

/-! ## The service and what it calls -/

/-- `BaseLogsService`. -/
structure LogsService where
  getLogs : PyVal → Except PyExc (List PyVal)
  supportsDrain : Bool
  drain : Except PyExc (List PyVal)

/-- The answers of everything that the methods call outside the service. -/
structure Env where
  /-- `str(value)` -/
  str : PyVal → String
  /-- `int(value)` -/
  int : PyVal → Except PyExc Int
  decodeDictionary : PyVal → Except PyExc PyVal
  internalExecuteAgentOperation : PyVal → Except PyExc Dict
  /-- `self.health_information(trace_id)` -/
  healthInformation : PyVal → Except PyExc Dict
  fetchMetrics : Except PyExc PyVal

inductive OperationMatchingType
  | equals
  | startsWith

/-- The methods that the mapping refers to. -/
inductive OperationMethod
  | executeAgentOperation
  | executeHealth
  | executeGetMetrics
  | executePushMetrics
  | executeGetLogs
  | executePushLogs

structure OperationMapping where
  path : String
  method : OperationMethod
  matchingType : OperationMatchingType := .equals

/-- The arguments of the constructor that decide about logs. -/
structure ServiceArgs where
  skipLogs : Bool
  logsService : Option LogsService

structure Service where
  logsService : Option LogsService
  operationsMapping : List OperationMapping

/-- `BaseEgressAgentService.__init__`. -/
def ServiceArgs.build (args : ServiceArgs) : Service where
  logsService := if args.skipLogs then none else args.logsService
  operationsMapping :=
    [{ path := "/api/v1/agent/execute/", matchingType := .startsWith,
       method := .executeAgentOperation },
     { path := "/api/v1/test/health", method := .executeHealth },
     { path := pathMetrics, method := .executeGetMetrics },
     { path := pathPushMetrics, method := .executePushMetrics }] ++
    if args.skipLogs then []
    else [{ path := pathLogs, method := .executeGetLogs },
          { path := pathPushLogs, method := .executePushLogs }]

/-! ## 1. The methods -/

section Methods

variable (names : AttributeNames) (env : Env) (service : Service)

/-- `_result_for_exception`. -/
def resultForException (ex : PyExc) : Dict :=
  [(names.error, .str (if ex.text ≠ "" then ex.text else s!"Unknown error: {ex.typeName}"))]

/-- `ResultUtils.result_for_error_message`. -/
def resultForErrorMessage (errorMessage : String) : Dict := [(names.error, .str errorMessage)]

/-- The `try` block of four methods: the result of `x`, or the error it raises,
is scheduled for publishing. -/
def answerWith (operationId : PyVal) (x : Except PyExc Dict) : Agent Unit :=
  tryCatch
    (do let result ← call x
        schedulePushResults operationId result none)
    fun ex => schedulePushResults operationId (resultForException names ex) none

/-- `_execute_agent_operation`. -/
def executeAgentOperation (operationId event : PyVal) : Agent Unit :=
  answerWith names operationId do
    let decoded ← env.decodeDictionary event
    env.internalExecuteAgentOperation decoded

/-- `_execute_health`. -/
def executeHealth (operationId event : PyVal) : Agent Unit :=
  answerWith names operationId do
    let operation ← event.get attrNameOperation (.dict [])
    let traceId ← operation.get attrNameTraceId operationId
    env.healthInformation traceId

/-- `_execute_get_metrics`. -/
def executeGetMetrics (operationId event : PyVal) : Agent Unit := do
  -- The two lookups are outside the `try` block.
  let operation ← call (event.get attrNameOperation (.dict []))
  let traceId ← call (operation.get attrNameTraceId operationId)
  answerWith names operationId do
    let metrics ← env.fetchMetrics
    return [(names.result, metrics), (names.traceId, traceId)]

/-- `_execute_get_logs`. -/
def executeGetLogs (operationId event : PyVal) : Agent Unit :=
  match service.logsService with
  | none => return
  | some logs => do
    let operation ← call (event.get attrNameOperation (.dict []))
    let traceId ← call (operation.get attrNameTraceId operationId)
    let limit ← call (operation.get attrNameLimit .none)
    let limit := if limit.truthy then limit else .int 1000
    answerWith names operationId do
      let events ← logs.getLogs limit
      return [(names.result, .dict [(attrNameEvents, .list events)]), (names.traceId, traceId)]

/-- `self._backend_client.execute_operation(path, "POST", body)`; both callers
ignore what it returns. -/
def post (path : String) (body : PyVal) : Agent Unit :=
  modify fun w => { w with posts := w.posts ++ [(path, body)] }

/-- `_execute_push_metrics`. -/
def executePushMetrics (_operationId _event : PyVal) : Agent Unit := do
  let metrics ← call env.fetchMetrics
  post pathMetrics (.dict [("format", .str "prometheus"), ("metrics", metrics)])

/-- `_flush_logs`. -/
def flushLogs (event : PyVal) : Agent Unit :=
  match service.logsService with
  | none => return
  | some service => do
    let logs ←
      if service.supportsDrain then call service.drain
      else do
        let limit ← call (event.get attrNameLimit (.int 1000))
        let limit ← call (env.int limit)
        call (service.getLogs (.int limit))
    if logs.isEmpty then
      return
    post pathLogs (.dict [("logs", .list logs)])

/-- `_execute_push_logs`. -/
def executePushLogs (_operationId event : PyVal) : Agent Unit := flushLogs env service event

/-- A call of a mapped method. -/
def runMethod (operationId event : PyVal) : OperationMethod → Agent Unit
  | .executeAgentOperation => executeAgentOperation names env operationId event
  | .executeHealth => executeHealth names env operationId event
  | .executeGetMetrics => executeGetMetrics names env operationId event
  | .executePushMetrics => executePushMetrics env operationId event
  | .executeGetLogs => executeGetLogs names service operationId event
  | .executePushLogs => executePushLogs env service operationId event

/-- `_resolve_operation_method`: the first entry that matches. -/
def resolveOperationMethod (path : PyVal) :
    List OperationMapping → Except PyExc (Option OperationMethod)
  | [] => .ok none
  | op :: mapping =>
    match op.matchingType with
    | .equals => if path.isStr op.path then .ok (some op.method) else resolveOperationMethod path mapping
    | .startsWith => do
      if ← path.startswith op.path then
        return some op.method
      resolveOperationMethod path mapping

/-- `_execute_scheduled_operation`. -/
def executeScheduledOperation (op : Operation) : Agent Unit := do
  let path ← call (op.event.get attrNamePath (.str ""))
  let method ← call (resolveOperationMethod path service.operationsMapping)
  match method with
  | some method => runMethod names env service op.operationId op.event method
  | none =>
    let path ← call (op.event.get attrNamePath .none)
    schedulePushResults op.operationId
      (resultForErrorMessage names s!"Unsupported operation path: {env.str path}") none

end Methods

/-! ## 2. Every dispatched operation is answered once -/

/-- Exactly one result was queued for publishing, for this id and with a
result. -/
def RepliedOnce (operationId : PyVal) (w w' : World) : Prop :=
  ∃ r, w'.resultsQueue = w.resultsQueue ++ [r] ∧ r.operationId = operationId ∧
    r.result.isSome = true

namespace DispatchLemmas

variable {names : AttributeNames} {env : Env} {service : Service} {operationId : PyVal}
  {event : Dict} {w : World}

theorem repliedOnce_schedule {result : Dict} :
    RepliedOnce operationId w (after (schedulePushResults operationId result none) w) :=
  ⟨_, rfl, rfl, rfl⟩

/-- The `try` block schedules one result, whatever its body does. -/
theorem answerWith_eq_schedule (names : AttributeNames) (operationId : PyVal)
    (x : Except PyExc Dict) :
    ∃ result, answerWith names operationId x = schedulePushResults operationId result none := by
  cases x with
  | ok result =>
    refine ⟨result, funext fun w => ?_⟩
    simp [answerWith, tryCatch_run, bind_run]
  | error ex =>
    refine ⟨resultForException names ex, funext fun w => ?_⟩
    simp [answerWith, tryCatch_run, bind_run]

theorem repliedOnce_answerWith (x : Except PyExc Dict) :
    RepliedOnce operationId w (after (answerWith names operationId x) w) := by
  obtain ⟨result, hschedule⟩ := answerWith_eq_schedule names operationId x
  rw [hschedule]
  exact repliedOnce_schedule

/-- The two fields that `_execute_get_metrics` and `_execute_get_logs` read
outside their `try` block are there to be read. -/
theorem field_run (key : String) (default : PyVal) (hf : operationFieldOk event = true) :
    ∃ v, (((event.lookup attrNameOperation).getD (.dict [])).get key default) = .ok v := by
  obtain ⟨kvs, hkvs⟩ := PyVal.isDict_iff.mp hf
  exact ⟨_, by rw [hkvs]; rfl⟩

theorem repliedOnce_getMetrics (hf : operationFieldOk event = true) :
    RepliedOnce operationId w (after (executeGetMetrics names env operationId (.dict event)) w) := by
  obtain ⟨traceId, ht⟩ := field_run attrNameTraceId operationId hf
  have hrun : executeGetMetrics names env operationId (.dict event) w =
      answerWith names operationId (do
        let metrics ← env.fetchMetrics
        return [(names.result, metrics), (names.traceId, traceId)]) w := by
    simp [executeGetMetrics, bind_run, ht]
  rw [after, hrun]
  exact repliedOnce_answerWith _

theorem repliedOnce_getLogs (hf : operationFieldOk event = true) {logs : LogsService}
    (hlogs : service.logsService = some logs) :
    RepliedOnce operationId w (after (executeGetLogs names service operationId (.dict event)) w) := by
  obtain ⟨traceId, ht⟩ := field_run attrNameTraceId operationId hf
  obtain ⟨limit, hl⟩ := field_run attrNameLimit .none hf
  have hrun : executeGetLogs names service operationId (.dict event) w =
      answerWith names operationId (do
        let events ← logs.getLogs (if limit.truthy then limit else .int 1000)
        return [(names.result, .dict [(attrNameEvents, .list events)]), (names.traceId, traceId)])
        w := by
    simp [executeGetLogs, hlogs, bind_run, ht, hl]
  rw [after, hrun]
  exact repliedOnce_answerWith _

theorem not_repliedOnce_self : ¬ RepliedOnce operationId w w := by
  rintro ⟨r, hq, _⟩
  simp at hq

@[simp] theorem resolve_nil (path : PyVal) : resolveOperationMethod path [] = .ok none := rfl

@[simp] theorem resolve_equals (path p : String) (method : OperationMethod)
    (mapping : List OperationMapping) :
    resolveOperationMethod (.str path) (⟨p, method, .equals⟩ :: mapping) =
      if path = p then .ok (some method) else resolveOperationMethod (.str path) mapping := by
  simp [resolveOperationMethod, PyVal.isStr]

@[simp] theorem resolve_startsWith (path p : String) (method : OperationMethod)
    (mapping : List OperationMapping) :
    resolveOperationMethod (.str path) (⟨p, method, .startsWith⟩ :: mapping) =
      if path.startsWith p then .ok (some method) else resolveOperationMethod (.str path) mapping := by
  cases hs : path.startsWith p <;>
    simp [resolveOperationMethod, PyVal.startswith, hs, bind, Except.bind, pure, Except.pure]

/-- Where the mapping sends a path. -/
theorem resolve_build (args : ServiceArgs) (path : String) :
    resolveOperationMethod (.str path) args.build.operationsMapping =
      .ok (if path.startsWith "/api/v1/agent/execute/" then some .executeAgentOperation
        else if path = "/api/v1/test/health" then some .executeHealth
        else if path = pathMetrics then some .executeGetMetrics
        else if path = pathPushMetrics then some .executePushMetrics
        else if args.skipLogs then none
        else if path = pathLogs then some .executeGetLogs
        else if path = pathPushLogs then some .executePushLogs
        else none) := by
  obtain ⟨skipLogs, logsService⟩ := args
  cases skipLogs <;>
    simp only [ServiceArgs.build, List.cons_append, List.nil_append, List.append_nil,
      resolve_startsWith, resolve_equals, resolve_nil, Bool.false_eq_true, if_false, if_true] <;>
    split_ifs <;> rfl

/-- The method that the path of an event resolves to is run. -/
theorem executeScheduled_run {args : ServiceArgs} {op : Operation} {path : String}
    {method : OperationMethod} (hevent : op.event = .dict event)
    (hpath : (event.lookup attrNamePath).getD (.str "") = .str path)
    (hm : resolveOperationMethod (.str path) args.build.operationsMapping = .ok (some method)) :
    executeScheduledOperation names env args.build op w =
      runMethod names env args.build op.operationId (.dict event) method w := by
  simp [executeScheduledOperation, bind_run, hevent, hpath, hm]

/-- A path other than that of the logs is answered if its method answers. -/
theorem answers_of_method {args : ServiceArgs} {op : Operation} {path : String}
    {method : OperationMethod} (hevent : op.event = .dict event)
    (hpath : (event.lookup attrNamePath).getD (.str "") = .str path)
    (hm : resolveOperationMethod (.str path) args.build.operationsMapping = .ok (some method))
    (hne : path ≠ pathLogs)
    (hrun : RepliedOnce op.operationId w
      (after (runMethod names env args.build op.operationId (.dict event) method) w)) :
    RepliedOnce op.operationId w (after (executeScheduledOperation names env args.build op) w) ↔
      ¬ (path = pathLogs ∧ args.skipLogs = false ∧ args.logsService = none) := by
  rw [after, executeScheduled_run hevent hpath hm]
  exact iff_of_true hrun (fun h => hne h.1)

/-- A path that is not mapped is answered with an error. -/
theorem repliedOnce_unsupported {args : ServiceArgs} {op : Operation} {path : String}
    (hevent : op.event = .dict event)
    (hpath : (event.lookup attrNamePath).getD (.str "") = .str path)
    (hm : resolveOperationMethod (.str path) args.build.operationsMapping = .ok none) :
    RepliedOnce op.operationId w (after (executeScheduledOperation names env args.build op) w) := by
  have hrun : executeScheduledOperation names env args.build op w =
      schedulePushResults op.operationId (resultForErrorMessage names
        s!"Unsupported operation path: {env.str ((event.lookup attrNamePath).getD .none)}") none
        w := by
    simp [executeScheduledOperation, bind_run, hevent, hpath, hm]
  rw [after, hrun]
  exact repliedOnce_schedule

end DispatchLemmas

open DispatchLemmas

/-- An operation whose path is a string other than the two timer paths and
whose `operation` field is absent or a dictionary is answered exactly once, in
every state and whatever is raised on the way, if and only if it is not a
request of the logs to a service built without `skip_logs` and without a logs
service. -/
theorem executeScheduledOperation_answers_iff (names : AttributeNames) (env : Env)
    (args : ServiceArgs) (op : Operation) (event : Dict) (path : String)
    (hevent : op.event = .dict event)
    (hpath : (event.lookup attrNamePath).getD (.str "") = .str path)
    (hmetrics : path ≠ pathPushMetrics) (hlogs : path ≠ pathPushLogs)
    (hfield : operationFieldOk event = true) (w : World) :
    RepliedOnce op.operationId w (after (executeScheduledOperation names env args.build op) w) ↔
      ¬ (path = pathLogs ∧ args.skipLogs = false ∧ args.logsService = none) := by
  have hm := resolve_build args path
  rw [if_neg hmetrics, if_neg hlogs] at hm
  split_ifs at hm with hexec hhealth hmet hskip hget
  · have hne : path ≠ pathLogs := by
      rintro rfl
      exact absurd hexec (by decide)
    exact answers_of_method hevent hpath hm hne (repliedOnce_answerWith _)
  · have hne : path ≠ pathLogs := by
      rw [hhealth]
      decide
    exact answers_of_method hevent hpath hm hne (repliedOnce_answerWith _)
  · have hne : path ≠ pathLogs := by
      rw [hmet]
      decide
    exact answers_of_method hevent hpath hm hne (repliedOnce_getMetrics hfield)
  · exact iff_of_true (repliedOnce_unsupported hevent hpath hm) (fun h => by simp [hskip] at h)
  · -- The one method with an early return.
    rw [after, executeScheduled_run hevent hpath hm]
    simp only [Bool.not_eq_true] at hskip
    cases hservice : args.logsService with
    | none =>
      have hrun : executeGetLogs names args.build op.operationId (.dict event) w = .ok () w := by
        simp [executeGetLogs, ServiceArgs.build, hskip, hservice]
      rw [runMethod, hrun]
      exact iff_of_false not_repliedOnce_self (fun h => h ⟨hget, hskip, rfl⟩)
    | some logs =>
      have hlogs : args.build.logsService = some logs := by
        simp [ServiceArgs.build, hskip, hservice]
      exact iff_of_true (repliedOnce_getLogs hfield hlogs) (fun h => by simp at h)
  · exact iff_of_true (repliedOnce_unsupported hevent hpath hm) (fun h => hget h.1)

/-- A request of the logs. -/
def logsRequest : Operation where
  operationId := .str "op-1"
  event := .dict [(attrNamePath, .str pathLogs)]

/-- An environment in which everything fails. -/
def failingEnv : Env where
  str := fun _ => ""
  int := fun _ => .error ⟨"ValueError", "no"⟩
  decodeDictionary := fun _ => .error ⟨"ValueError", "no"⟩
  internalExecuteAgentOperation := fun _ => .error ⟨"RuntimeError", "no"⟩
  healthInformation := fun _ => .error ⟨"RuntimeError", "no"⟩
  fetchMetrics := .error ⟨"RuntimeError", "no"⟩

/-- The rule at a logs service that raises. -/
theorem executeScheduledOperation_answers_iff_logs :
    let logs : LogsService := ⟨fun _ => .error ⟨"OSError", ""⟩, false, .error ⟨"OSError", ""⟩⟩
    let args : ServiceArgs := { skipLogs := false, logsService := some logs }
    RepliedOnce logsRequest.operationId {}
      (after (executeScheduledOperation mcdNames failingEnv args.build logsRequest) {}) := by
  intro logs args
  exact (executeScheduledOperation_answers_iff mcdNames failingEnv args logsRequest
    [(attrNamePath, .str pathLogs)] pathLogs rfl rfl (by decide) (by decide) (by decide) {}).mpr
    (fun h => nomatch h.2.2)

/-- A service built with neither `skip_logs` nor a logs service drops a request
of the logs: nothing is queued for publishing. -/
theorem logs_request_unanswered :
    let args : ServiceArgs := { skipLogs := false, logsService := none }
    after (executeScheduledOperation mcdNames failingEnv args.build logsRequest) {} = {} ∧
      ¬ RepliedOnce logsRequest.operationId {}
        (after (executeScheduledOperation mcdNames failingEnv args.build logsRequest) {}) := by
  intro args
  have hrun : after (executeScheduledOperation mcdNames failingEnv args.build logsRequest) {} = {} :=
    rfl
  rw [hrun]
  exact ⟨rfl, not_repliedOnce_self⟩

end EgressAgent
