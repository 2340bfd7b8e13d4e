import EgressAgent.Lib.PyVal
import EgressAgent.Lib.Effect

/-!
# What the agent's threads share

The two queues of the agent, `ops_runner` and `results_publisher`, and the
calls that leave a trace outside: `BackendClient.push_results`, the POSTs of
`BackendClient.execute_operation` and the writes to the storage service.
`Agent` is the meaning of the agent's methods: they change this state and may
raise.
-/

namespace EgressAgent

open Py Effect

/-- The attribute names that the agent-base package defines. They are pairwise
different and none of them is a name this package defines itself. -/
structure AttributeNames where
  result : String
  traceId : String
  error : String
  result_ne_traceId : result ≠ traceId
  result_ne_error : result ≠ error
  traceId_ne_error : traceId ≠ error
  result_not_own : result ∉ ["trace_id", "__mcd_result_location__", "__mcd_result_compressed__"]
  traceId_not_own : traceId ∉ ["trace_id", "__mcd_result_location__", "__mcd_result_compressed__"]

/-- Names in the spelling of the package's own attributes. -/
def mcdNames : AttributeNames where
  result := "__mcd_result__"
  traceId := "__mcd_trace_id__"
  error := "__mcd_error__"
  result_ne_traceId := by decide
  result_ne_error := by decide
  traceId_ne_error := by decide
  result_not_own := by decide
  traceId_not_own := by decide

/-- An operation in the `ops_runner` queue. -/
structure Operation where
  operationId : PyVal
  event : PyVal

structure OperationAttributes where
  operationId : String
  traceId : String
  compressResponseFile : Bool
  responseSizeLimitBytes : Int

/-- A result in the `results_publisher` queue. -/
structure AgentOperationResult where
  operationId : PyVal
  result : Option Dict := none
  queryId : Option String := none
  operationAttrs : Option OperationAttributes := none

/-- What `BaseStorageService.write` is given. -/
inductive Contents
  | text (s : String)
  | bytes (b : ByteArray)

structure World where
  opsQueue : List Operation := []
  resultsQueue : List AgentOperationResult := []
  /-- The calls of `BackendClient.push_results`, in order. -/
  pushes : List (PyVal × Dict) := []
  /-- The POSTs of `BackendClient.execute_operation`: path and body, in order. -/
  posts : List (String × PyVal) := []
  /-- The writes to the storage service, in order. -/
  stored : List (String × Contents) := []

/-- A method of the agent. -/
abbrev Agent := EStateM PyExc World

/-- `OperationsRunner.schedule`. -/
def OperationsRunner.schedule (o : Operation) : Agent Unit :=
  modify fun w => { w with opsQueue := w.opsQueue ++ [o] }

/-- `ResultsPublisher.schedule_push_results`. -/
def ResultsPublisher.schedulePushResults (operationId : PyVal) (result : Dict)
    (operationAttrs : Option OperationAttributes) : Agent Unit :=
  modify fun w => { w with
    resultsQueue := w.resultsQueue ++
      [{ operationId, result := some result, operationAttrs }] }

/-- `_schedule_operation`. -/
def scheduleOperation (operationId event : PyVal) : Agent Unit :=
  OperationsRunner.schedule ⟨operationId, event⟩

/-- `_schedule_push_results`. -/
def schedulePushResults (operationId : PyVal) (result : Dict)
    (operationAttrs : Option OperationAttributes) : Agent Unit :=
  ResultsPublisher.schedulePushResults operationId result operationAttrs

@[simp] theorem scheduleOperation_run (operationId event : PyVal) (w : World) :
    scheduleOperation operationId event w =
      .ok () { w with opsQueue := w.opsQueue ++ [⟨operationId, event⟩] } := rfl

@[simp] theorem schedulePushResults_run (operationId : PyVal) (result : Dict)
    (operationAttrs : Option OperationAttributes) (w : World) :
    schedulePushResults operationId result operationAttrs w =
      .ok () { w with
        resultsQueue := w.resultsQueue ++
          [{ operationId, result := some result, operationAttrs }] } := rfl

end EgressAgent
