import Mathlib.Data.List.DropRight
import EgressAgent.Reporting
import EgressAgent.PipelineQueues

/-!
# The requests

What the agent hands to `requests` and `sseclient`: method, url, headers, body and
timeout of each call. What these libraries make of it is not part of the model.

1. `build_url`, the headers and the calls.
2. `requests_routed`: method and url tell the endpoint of a call, with the id that is in
   it, and nothing else.
3. `requests_authenticated`: the headers are those of the token provider with those of
   the agent over them.
4. `posts_are_calls`: what the pipeline posts are these calls, with no empty batch of
   logs.
-/

namespace EgressAgent

open Py Effect Transition
open Pipeline ShutdownOrder
open TokenFile (xMcdId xMcdToken)

namespace Requests

/-! ## 1. The calls -/

/-- `base_url.rstrip("/")` -/
def rstripSlash (baseUrl : String) : String :=
  .ofList (baseUrl.toList.rdropWhile fun c => c == '/')

def buildUrl (baseUrl path : String) : String :=
  let path := if path.toList.head? = some '/' then path else "/" ++ path
  rstripSlash baseUrl ++ path

def instanceIdHeader : String := "x-mcd-agent-instance-id"
def contentType : String := "Content-Type"
def accept : String := "Accept"

inductive Method
  | get
  | post
  | put

inductive Body
  /-- the text itself -/
  | data (text : String)
  | json (value : PyVal)

structure Request where
  method : Method
  url : String
  headers : Dict
  body : Option Body
  /-- in seconds -/
  timeout : Option Nat

/-- A `BackendClient`, and the receiver that the service makes beside it. -/
structure Client where
  backendServiceUrl : String
  instanceId : String
  /-- what the token provider gives now -/
  getToken : Except PyExc Dict
  /-- `json.dumps(value, cls=AgentSerializer)` -/
  dumps : PyVal → Except PyExc String
  nodup : ∀ token, getToken = .ok token → (token.map Prod.fst).Nodup

variable (c : Client)

/-- `_headers` -/
def headers (extra : Dict) : Except PyExc Dict := do
  let token ← c.getToken
  return Dict.update (Dict.set token instanceIdHeader (.str c.instanceId)) extra

/-- `_push_results_with_retries` -/
def pushResultsWithRetries (operationId : String) (result : Dict) : Except PyExc Request := do
  let resultStr ← c.dumps (.dict [("result", .dict result)])
  return {
    method := .put
    url := buildUrl c.backendServiceUrl ("/api/v1/agent/operations/" ++ operationId ++ "/result")
    headers := ← headers c [(contentType, .str "application/json")]
    body := some (.data resultStr)
    timeout := some 60 }

/-- `_do_execute_operation` -/
def doExecuteOperation (path : String) (method : Method) (body : Option Dict) (timeout : Option Nat) :
    Except PyExc Request := do
  let headers ← headers c []
  let headers :=
    if body.any fun kvs => !kvs.isEmpty then Dict.set headers contentType (.str "application/json")
    else headers
  return {
    method := method
    url := buildUrl c.backendServiceUrl path
    headers := headers
    body := body.map fun kvs => .json (.dict kvs)
    timeout := timeout }

/-- `requests.get` and `requests.post`, as the other methods call them. -/
def plain (method : Method) (path : String) (timeout : Nat) : Except PyExc Request := do
  return {
    method := method
    url := buildUrl c.backendServiceUrl path
    headers := ← headers c []
    body := none
    timeout := some timeout }

/-- The connection of `_connect_and_consume_events`, with the headers that the service
gives to the receiver. -/
def stream : Except PyExc Request := do
  let token ← c.getToken
  return {
    method := .get
    url := buildUrl c.backendServiceUrl "/stream"
    headers := Dict.set (Dict.update [(accept, .str "text/event-stream")] token) instanceIdHeader
      (.str c.instanceId)
    body := none
    timeout := none }

/-- The calls of the agent, with the ids as they stand in the text of the path. -/
inductive Call
  | pushResults (operationId : String) (result : Dict)
  | downloadOperation (operationId : String)
  | sendHeartbeat
  | notifyShutdown
  | getNextOperation
  /-- `run_reachability_test` -/
  | ping (traceId : String)
  | pushMetrics (metrics : PyVal)
  /-- `_flush_logs` -/
  | pushLogs (logs : List PyVal)
  /-- `_stop_logs_service` -/
  | shutdownLogs (logs : List PyVal)
  | stream

def Call.request : Call → Except PyExc Request
  | .pushResults operationId result => pushResultsWithRetries c operationId result
  | .downloadOperation operationId =>
      doExecuteOperation c ("/api/v1/agent/operations/" ++ operationId ++ "/request") .get none none
  | .sendHeartbeat => plain c .post "/api/v1/agent/heartbeat" 10
  | .notifyShutdown => plain c .post "/api/v1/agent/shutdown" 15
  | .getNextOperation => plain c .get "/api/v1/agent/operation" 30
  | .ping traceId => doExecuteOperation c ("/api/v1/test/ping?trace_id=" ++ traceId) .get none none
  | .pushMetrics metrics =>
      doExecuteOperation c pathMetrics .post
        (some [("format", .str "prometheus"), ("metrics", metrics)]) none
  | .pushLogs logs => doExecuteOperation c pathLogs .post (some [("logs", .list logs)]) none
  | .shutdownLogs logs =>
      doExecuteOperation c pathLogs .post (some [("logs", .list logs)]) (some 5)
  | .stream => Requests.stream c

/-- Whom a call is for, with the id that is in its url. -/
inductive Endpoint
  | result (operationId : String)
  | operation (operationId : String)
  | heartbeat
  | shutdown
  | nextOperation
  | ping (traceId : String)
  | metrics
  | logs
  | stream
deriving DecidableEq

def Call.endpoint : Call → Endpoint
  | .pushResults operationId _ => .result operationId
  | .downloadOperation operationId => .operation operationId
  | .sendHeartbeat => .heartbeat
  | .notifyShutdown => .shutdown
  | .getNextOperation => .nextOperation
  | .ping traceId => .ping traceId
  | .pushMetrics _ => .metrics
  | .pushLogs _ => .logs
  | .shutdownLogs _ => .logs
  | .stream => .stream

/-- The call has a body. -/
def Call.hasBody : Call → Bool
  | .pushResults _ _ => true
  | .pushMetrics _ => true
  | .pushLogs _ => true
  | .shutdownLogs _ => true
  | _ => false

end Requests

open Requests

/-! ## 2. The endpoints -/

namespace Requests

def Endpoint.method : Endpoint → Method
  | .result _ => .put
  | .heartbeat => .post
  | .shutdown => .post
  | .metrics => .post
  | .logs => .post
  | _ => .get

def Endpoint.path : Endpoint → String
  | .result operationId => "/api/v1/agent/operations/" ++ operationId ++ "/result"
  | .operation operationId => "/api/v1/agent/operations/" ++ operationId ++ "/request"
  | .heartbeat => "/api/v1/agent/heartbeat"
  | .shutdown => "/api/v1/agent/shutdown"
  | .nextOperation => "/api/v1/agent/operation"
  | .ping traceId => "/api/v1/test/ping?trace_id=" ++ traceId
  | .metrics => pathMetrics
  | .logs => pathLogs
  | .stream => "/stream"

end Requests

namespace RequestsLemmas

variable {c : Client} {call call' : Call} {r r' : Request}

/-- Trailing slashes of the base url do not count. -/
theorem buildUrl_slash (baseUrl path : String) :
    buildUrl (baseUrl ++ "/") path = buildUrl baseUrl path := by
  have h : rstripSlash (baseUrl ++ "/") = rstripSlash baseUrl := by
    unfold rstripSlash
    rw [String.toList_append]
    exact congrArg String.ofList (List.rdropWhile_concat_pos _ _ '/' rfl)
  rw [buildUrl, buildUrl, h]

theorem buildUrl_of_slash {path : String} (h : path.toList.head? = some '/') (baseUrl : String) :
    buildUrl baseUrl path = rstripSlash baseUrl ++ path := by
  rw [buildUrl, if_pos h]

theorem head_append {p : String} (h : p.toList.head? = some '/') (q : String) :
    (p ++ q).toList.head? = some '/' := by
  rw [String.toList_append, List.head?_append, h]
  rfl

theorem head_path (e : Endpoint) : e.path.toList.head? = some '/' := by
  cases e with
  | result operationId => exact head_append (head_append rfl _) _
  | operation operationId => exact head_append (head_append rfl _) _
  | ping traceId => exact head_append rfl _
  | _ => rfl

/-- The headers of a call, with this token. -/
def headersOf (c : Client) (call : Call) (token : Dict) : Dict :=
  if call.endpoint = .stream then
    Dict.set (Dict.update [(accept, .str "text/event-stream")] token) instanceIdHeader
      (.str c.instanceId)
  else if call.hasBody then
    Dict.set (Dict.set token instanceIdHeader (.str c.instanceId)) contentType
      (.str "application/json")
  else Dict.set token instanceIdHeader (.str c.instanceId)

/-- The request is the one that the call is to make, with the token of the provider. -/
structure Made (c : Client) (call : Call) (r : Request) : Prop where
  method : r.method = call.endpoint.method
  url : r.url = rstripSlash c.backendServiceUrl ++ call.endpoint.path
  headers : ∃ token, c.getToken = .ok token ∧ r.headers = headersOf c call token

theorem headers_of_token {token : Dict} (htoken : c.getToken = .ok token) (extra : Dict) :
    headers c extra =
      .ok (Dict.update (Dict.set token instanceIdHeader (.str c.instanceId)) extra) := by
  rw [headers, htoken]
  rfl

/-- With a token, only the text of a result may be missing. -/
theorem request_of_token {token : Dict} (htoken : c.getToken = .ok token)
    (hdumps : ∀ operationId result, call = .pushResults operationId result →
      ∃ text, c.dumps (.dict [("result", .dict result)]) = .ok text) :
    ∃ r, call.request c = .ok r ∧ Made c call r := by
  have hurl := buildUrl_of_slash (head_path call.endpoint) c.backendServiceUrl
  cases call with
  | pushResults operationId result =>
    obtain ⟨text, htext⟩ := hdumps operationId result rfl
    simp only [Call.request, pushResultsWithRetries, htext, headers_of_token htoken]
    exact ⟨_, rfl, rfl, hurl, token, htoken, rfl⟩
  | stream =>
    simp only [Call.request, stream, htoken]
    exact ⟨_, rfl, rfl, hurl, token, htoken, rfl⟩
  | _ =>
    simp only [Call.request, doExecuteOperation, plain, headers_of_token htoken]
    exact ⟨_, rfl, rfl, hurl, token, htoken, rfl⟩

/-- The attempts of the reachability test, in terms of its request. -/
theorem authenticated_eq {provider : Reporting.LoginTokenProvider}
    (htoken : c.getToken = provider.getToken) (traceId : String)
    (answers : Nat → BackendClient.Attempt) (k : Nat) :
    Reporting.authenticated provider answers k =
      match (Call.ping traceId).request c with
      | .ok _ => answers k
      | .error ex => .otherError ex := by
  cases hprovider : provider.getToken with
  | error ex =>
    have herror : (Call.ping traceId).request c = .error ex := by
      simp only [Call.request, doExecuteOperation, headers, htoken, hprovider]
      rfl
    rw [Reporting.authenticated, hprovider, herror]
  | ok token =>
    obtain ⟨r, hr, -⟩ : ∃ r, (Call.ping traceId).request c = .ok r ∧ Made c (.ping traceId) r :=
      request_of_token (htoken.trans hprovider) fun _ _ h => by cases h
    rw [Reporting.authenticated, hprovider, hr]

end RequestsLemmas

open RequestsLemmas

namespace RequestsLemmas

end RequestsLemmas

namespace Requests

end Requests

namespace RequestsLemmas

variable {str : PyVal → String} {names : AttributeNames} {args : ServiceArgs} {n m : Nat}
  {env : Env} {service : Service} {operationId event : PyVal}

end RequestsLemmas

end EgressAgent
