import EgressAgent.Agent
import EgressAgent.BackendClient

/-!
# How an operation enters the agent

An operation arrives by one of two routes: the polling thread got it from GET
/operation, or a publisher thread found it as `next_operation` in the answer
to a `push_results`. Both test its path and id and call `_execute_operation`,
which downloads an oversized operation and puts it in the `ops_runner` queue.

1. `executeOperation_bad_field`, `executeOperation_unmarked` and
   `executeOperation_marked`: what `_execute_operation` does.
2. `submit_accepted` and `submit_ignored`: which operations are handed on.
   `receive_answers_iff`: an operation that arrives by either route leaves
   exactly one trace in the two queues if and only if it is `Deliverable`.
-/

namespace EgressAgent

open Py Effect
open BackendClient (Attempt downloadOperation getNextOperation decidingAttempt)

def attrNameOperation : String := "operation"
def attrNameOperationId : String := "operation_id"
def attrNamePath : String := "path"
def attrNameTraceId : String := "trace_id"
def attrNameSizeExceeded : String := "__mcd_size_exceeded__"
def attrNameNextOperation : String := "next_operation"

/-! ## The two routes -/

section Routes

/-! `str` is Python's `str()`, `downloads` the attempts of the follow-up
request that `download_operation` makes. -/
variable (str : PyVal → String) (downloads : Nat → Attempt)

/-- `_execute_operation`. -/
def executeOperation (_path operationId event : PyVal) : Agent Unit := do
  let operation ← call (event.get attrNameOperation (.dict []))
  let sizeExceeded ← call (operation.get attrNameSizeExceeded (.bool false))
  if sizeExceeded.truthy then
    let body ← call (downloadOperation str downloads operationId)
    let event ← call (event.setItem attrNameOperation body)
    scheduleOperation operationId event
  else
    scheduleOperation operationId event

/-- `_handle_polled_operation`. -/
def handlePolledOperation (path operationId operation : PyVal) : Agent Unit :=
  executeOperation str downloads path operationId operation

/-- The test of path and id that both routes make before they hand an operation
on; an operation without them is ignored. -/
def handOver (handler : PyVal → PyVal → PyVal → Agent Unit) (operation : PyVal) : Agent Unit := do
  let path ← call (operation.get attrNamePath (.str ""))
  let operationId ← call (operation.get attrNameOperationId .none)
  if !path.truthy || !operationId.truthy then
    return
  handler path operationId operation

/-- `OperationsPoller._submit_operation`. -/
def submitOperation (operationHandler : PyVal → PyVal → PyVal → Agent Unit) (operation : PyVal) :
    Agent Unit :=
  handOver operationHandler operation

/-- `_handle_piggybacked_operation`. -/
def handlePiggybackedOperation (operation : PyVal) : Agent Unit :=
  handOver (executeOperation str downloads) operation

/-- The end of `_push_backend_results`: the answer of the backend may carry an
operation. -/
def handlePushResponse (response : PyVal) : Agent Unit := do
  if response.truthy then
    let nextOp ← call (response.get attrNameNextOperation .none)
    if nextOp.truthy then
      handlePiggybackedOperation str downloads nextOp

/-- `OperationsPoller._fetch_operation`: `None` when there is no operation or on
any exception, the one of the logged `operation.get` included. -/
def fetchOperation (a : Attempt) : PyVal :=
  match getNextOperation a with
  | .error _ => .none
  | .ok operation =>
      if operation.truthy then
        match operation.get attrNameOperationId .none with
        | .ok _ => operation
        | .error _ => .none
      else operation

end Routes

/-! ## 1. What `_execute_operation` does -/

/-- The `operation` field of an event is absent or a dictionary. -/
def operationFieldOk (event : Dict) : Bool :=
  ((event.lookup attrNameOperation).getD (.dict [])).isDict

/-- The `operation` field carries the size-exceeded marker. -/
def carriesMarker (event : Dict) : Bool :=
  match (event.lookup attrNameOperation).getD (.dict []) with
  | .dict kvs => ((kvs.lookup attrNameSizeExceeded).getD (.bool false)).truthy
  | _ => false

/-- The event with the downloaded body in place of its `operation` field. -/
def withBody (event : Dict) (body : PyVal) : PyVal :=
  .dict (Dict.set event attrNameOperation body)

section Execute

variable {str : PyVal → String} {downloads : Nat → Attempt} {path operationId : PyVal}
  {event : Dict} {w : World}

/-- A field that is not a dictionary raises before anything is scheduled. -/
theorem executeOperation_bad_field (h : operationFieldOk event = false) :
    ∃ e, executeOperation str downloads path operationId (.dict event) w = .error e w := by
  obtain ⟨e, he⟩ : ∃ e, ((event.lookup attrNameOperation).getD (.dict [])).get
      attrNameSizeExceeded (.bool false) = .error e := ⟨_, PyVal.get_of_not_isDict h _ _⟩
  exact ⟨e, by simp [executeOperation, bind_run, he]⟩

/-- Without the marker the event itself is scheduled. -/
theorem executeOperation_unmarked (h : operationFieldOk event = true)
    (hm : carriesMarker event = false) :
    executeOperation str downloads path operationId (.dict event) w =
      .ok () { w with opsQueue := w.opsQueue ++ [⟨operationId, .dict event⟩] } := by
  obtain ⟨kvs, hkvs⟩ := PyVal.isDict_iff.mp h
  rw [carriesMarker, hkvs] at hm
  simp [executeOperation, bind_run, hkvs, hm]

/-- With the marker everything depends on the download. -/
theorem executeOperation_marked (hm : carriesMarker event = true) :
    executeOperation str downloads path operationId (.dict event) w =
      match downloadOperation str downloads operationId with
      | .ok body => .ok () { w with opsQueue := w.opsQueue ++ [⟨operationId, withBody event body⟩] }
      | .error e => .error e w := by
  unfold carriesMarker at hm
  split at hm
  · next kvs hkvs =>
    cases hd : downloadOperation str downloads operationId with
    | ok body => simp [executeOperation, bind_run, hkvs, hm, hd, withBody]
    | error e => simp [executeOperation, bind_run, hkvs, hm, hd]
  · simp at hm

end Execute

/-! ## 2. Exactly one trace -/

/-- How an operation reaches the agent: as the answer to a GET /operation, or
as `next_operation` of the answer to a `push_results`. -/
inductive Route
  | polled (answer : Attempt)
  | piggybacked (response : Dict)

/-- The route carries the operation `op`. -/
def Route.Brings (op : Dict) : Route → Prop
  | .polled answer => getNextOperation answer = .ok (.dict op)
  | .piggybacked response => response.lookup attrNameNextOperation = some (.dict op)

/-- What the receiving thread runs with what it was given. -/
def Route.receive (str : PyVal → String) (downloads : Nat → Attempt) : Route → Agent Unit
  | .polled answer =>
      submitOperation (handlePolledOperation str downloads) (fetchOperation answer)
  | .piggybacked response => handlePushResponse str downloads (.dict response)

def pathOf (op : Dict) : PyVal := (op.lookup attrNamePath).getD (.str "")

def idOf (op : Dict) : PyVal := (op.lookup attrNameOperationId).getD .none

/-- An operation with a path and an id. -/
def acceptable? : PyVal → Option Dict
  | .dict op => if (pathOf op).truthy && (idOf op).truthy then some op else none
  | _ => none

/-- The event that is to be executed for `op`: the one received, with the body
that the backend sent in place of a marked `operation` field. -/
def IntendedEvent (downloads : Nat → Attempt) (op : Dict) (event : PyVal) : Prop :=
  if carriesMarker op then
    ∃ body, (decidingAttempt downloads).body? = some body ∧ event = withBody op body
  else event = .dict op

/-- One operation was queued for execution, and no result. -/
def QueuedOnce (downloads : Nat → Attempt) (op : Dict) (w w' : World) : Prop :=
  ∃ event, IntendedEvent downloads op event ∧
    w'.opsQueue = w.opsQueue ++ [⟨idOf op, event⟩] ∧ w'.resultsQueue = w.resultsQueue

/-- One error result was queued for publishing, and no operation. -/
def FailedOnce (names : AttributeNames) (op : Dict) (w w' : World) : Prop :=
  w'.opsQueue = w.opsQueue ∧
    ∃ r kvs, w'.resultsQueue = w.resultsQueue ++ [r] ∧ r.operationId = idOf op ∧
      r.result = some kvs ∧ Dict.contains kvs names.error = true

/-- Exactly one of the two happened. -/
def AnsweredOnce (names : AttributeNames) (downloads : Nat → Attempt) (op : Dict) (w w' : World) :
    Prop :=
  Xor (QueuedOnce downloads op w w') (FailedOnce names op w w')

/-- The operation can be queued: its `operation` field is absent or an object,
and where it carries the marker the download is answered with an operation. -/
def Deliverable (downloads : Nat → Attempt) (op : Dict) : Prop :=
  operationFieldOk op = true ∧
    (carriesMarker op = true → (decidingAttempt downloads).operation?.isSome = true)

instance (downloads : Nat → Attempt) (op : Dict) : Decidable (Deliverable downloads op) :=
  inferInstanceAs (Decidable (_ ∧ _))

namespace IntakeLemmas

variable {str : PyVal → String} {downloads : Nat → Attempt} {op : Dict} {w : World}

theorem dict_truthy_of_lookup {kvs : Dict} {key : String} {v : PyVal}
    (h : kvs.lookup key = some v) : (PyVal.dict kvs).truthy = true := by
  cases kvs with
  | nil => simp at h
  | cons _ _ => rfl

theorem lookup_of_path (h : (pathOf op).truthy = true) : ∃ v, op.lookup attrNamePath = some v := by
  cases hl : op.lookup attrNamePath with
  | none => simp [pathOf, hl, PyVal.truthy] at h
  | some v => exact ⟨v, rfl⟩

theorem handOver_run {handler : PyVal → PyVal → PyVal → Agent Unit}
    (hpath : (pathOf op).truthy = true) (hid : (idOf op).truthy = true) :
    handOver handler (.dict op) w = handler (pathOf op) (idOf op) (.dict op) w := by
  unfold pathOf at hpath
  unfold idOf at hid
  simp [handOver, bind_run, hpath, hid, pathOf, idOf]

/-- An operation without a path or an id is dropped. -/
theorem handOver_ignored {handler : PyVal → PyVal → PyVal → Agent Unit}
    (h : ((pathOf op).truthy && (idOf op).truthy) = false) :
    handOver handler (.dict op) w = .ok () w := by
  unfold pathOf idOf at h
  cases hpath : ((op.lookup attrNamePath).getD (.str "")).truthy <;>
    cases hid : ((op.lookup attrNameOperationId).getD .none).truthy <;>
    simp_all [handOver, bind_run]

theorem acceptable?_eq_some {operation : PyVal} (h : acceptable? operation = some op) :
    operation = .dict op ∧ (pathOf op).truthy = true ∧ (idOf op).truthy = true := by
  unfold acceptable? at h
  split at h
  · simp only [Bool.and_eq_true, Option.ite_none_right_eq_some, Option.some.injEq] at h
    obtain ⟨⟨hpath, hid⟩, rfl⟩ := h
    exact ⟨rfl, hpath, hid⟩
  · cases h

/-- `_submit_operation` hands on what is acceptable. -/
theorem submit_accepted {operation : PyVal} (h : acceptable? operation = some op) :
    submitOperation (handlePolledOperation str downloads) operation w =
      executeOperation str downloads (pathOf op) (idOf op) (.dict op) w := by
  obtain ⟨rfl, hpath, hid⟩ := acceptable?_eq_some h
  exact handOver_run hpath hid

/-- It leaves the agent alone with any other operation. -/
theorem submit_ignored {operation : PyVal} (h : acceptable? operation = none) :
    after (submitOperation (handlePolledOperation str downloads) operation) w = w := by
  cases hd : operation.isDict with
  | false => simp [after, submitOperation, handOver, bind_run, PyVal.get_of_not_isDict hd]
  | true =>
    obtain ⟨op, rfl⟩ := PyVal.isDict_iff.mp hd
    exact after_of_ok (handOver_ignored (by simpa [acceptable?] using h))

/-- Both routes end in `_execute_operation`. -/
theorem receive_run {route : Route} (hb : route.Brings op) (hpath : (pathOf op).truthy = true)
    (hid : (idOf op).truthy = true) :
    route.receive str downloads w =
      executeOperation str downloads (pathOf op) (idOf op) (.dict op) w := by
  obtain ⟨v, hv⟩ := lookup_of_path hpath
  have htrue := dict_truthy_of_lookup hv
  cases route with
  | polled answer =>
    have hfetch : fetchOperation answer = .dict op := by
      simp only [Route.Brings] at hb
      simp [fetchOperation, hb, htrue]
    simp only [Route.receive, hfetch, submitOperation, handOver_run hpath hid]
    rfl
  | piggybacked response =>
    simp only [Route.Brings] at hb
    simp [Route.receive, handlePushResponse, bind_run, dict_truthy_of_lookup hb, hb, htrue,
      handlePiggybackedOperation, handOver_run hpath hid]

/-- A deliverable operation is queued with its intended event. -/
theorem execute_deliverable {path operationId : PyVal} (h : Deliverable downloads op) :
    ∃ event, IntendedEvent downloads op event ∧
      executeOperation str downloads path operationId (.dict op) w =
        .ok () { w with opsQueue := w.opsQueue ++ [⟨operationId, event⟩] } := by
  cases hm : carriesMarker op with
  | false => exact ⟨.dict op, by simp [IntendedEvent, hm], executeOperation_unmarked h.1 hm⟩
  | true =>
    obtain ⟨kvs, hkvs⟩ := Option.isSome_iff_exists.mp (h.2 hm)
    have hd : downloadOperation str downloads operationId = .ok (.dict kvs) :=
      (BackendClient.downloadOperation_eq_ok_iff ..).mpr (.inl ⟨kvs, hkvs, rfl⟩)
    refine ⟨withBody op (.dict kvs), ?_, by simp [executeOperation_marked hm, hd]⟩
    simp only [IntendedEvent, hm, if_true]
    exact ⟨.dict kvs, (BackendClient.Lemmas.operation?_eq_some.mp hkvs).1, rfl⟩

/-- Any other operation raises and leaves the state as it was, or is queued
with the report of a failed download in place of its body. -/
theorem execute_not_deliverable {path operationId : PyVal} (h : ¬ Deliverable downloads op) :
    (∃ e, executeOperation str downloads path operationId (.dict op) w = .error e w) ∨
    (carriesMarker op = true ∧ (decidingAttempt downloads).body? = none ∧
      ∃ event, executeOperation str downloads path operationId (.dict op) w =
        .ok () { w with opsQueue := w.opsQueue ++ [⟨operationId, event⟩] }) := by
  cases hf : operationFieldOk op with
  | false => exact .inl (executeOperation_bad_field hf)
  | true =>
    have hm : carriesMarker op = true := by
      by_contra hm
      exact h ⟨hf, fun hm' => absurd hm' hm⟩
    rw [executeOperation_marked hm]
    cases hd : downloadOperation str downloads operationId with
    | error e => exact .inl ⟨e, rfl⟩
    | ok body =>
      rcases (BackendClient.downloadOperation_eq_ok_iff ..).mp hd with
        ⟨kvs, hkvs, _⟩ | ⟨e, hfail, _, _⟩
      · exact absurd ⟨hf, fun _ => by simp [hkvs]⟩ h
      · refine .inr ⟨hm, ?_, withBody op body, rfl⟩
        rcases BackendClient.Lemmas.failure_or_body (decidingAttempt downloads) with
          ⟨_, _, hb⟩ | ⟨_, hf', _⟩
        · exact hb
        · rw [hfail] at hf'
          cases hf'

theorem not_failedOnce_of_queued {names : AttributeNames} {w' : World} {o : Operation}
    (h : w'.opsQueue = w.opsQueue ++ [o]) : ¬ FailedOnce names op w w' := by
  rintro ⟨hq, _⟩
  rw [h] at hq
  simp at hq

/-- What is not deliverable is neither queued with its intended event nor
answered with an error. -/
theorem lost_of_not_deliverable {names : AttributeNames} {route : Route} (hb : route.Brings op)
    (hpath : (pathOf op).truthy = true) (hid : (idOf op).truthy = true)
    (h : ¬ Deliverable downloads op) :
    ¬ QueuedOnce downloads op w (after (route.receive str downloads) w) ∧
      ¬ FailedOnce names op w (after (route.receive str downloads) w) := by
  rcases @execute_not_deliverable str downloads op w (pathOf op) (idOf op) h with ⟨e, he⟩ | ⟨hm, hbody, event, he⟩
  · have hafter : after (route.receive str downloads) w = w :=
      after_of_error ((receive_run hb hpath hid).trans he)
    rw [hafter]
    refine ⟨?_, ?_⟩
    · rintro ⟨_, _, hq, _⟩
      simp at hq
    · rintro ⟨_, _, _, hq, _⟩
      simp at hq
  · rw [after_of_ok ((receive_run hb hpath hid).trans he)]
    refine ⟨?_, not_failedOnce_of_queued rfl⟩
    rintro ⟨_, hev, _⟩
    simp only [IntendedEvent, hm, if_true, hbody] at hev
    obtain ⟨_, h', _⟩ := hev
    cases h'

end IntakeLemmas

open IntakeLemmas

/-- An operation with a path and an id, arriving by either route in any state,
leaves exactly one trace, a queued operation or an error result, if and only if
it is deliverable. -/
theorem receive_answers_iff (str : PyVal → String) (names : AttributeNames)
    (downloads : Nat → Attempt) (route : Route) (op : Dict) (hb : route.Brings op)
    (hpath : (pathOf op).truthy = true) (hid : (idOf op).truthy = true) (w : World) :
    AnsweredOnce names downloads op w (after (route.receive str downloads) w) ↔
      Deliverable downloads op := by
  constructor
  · intro hx
    by_contra hd
    obtain ⟨hq, hf⟩ := @lost_of_not_deliverable str downloads op w names route hb hpath hid hd
    rcases hx with ⟨h, _⟩ | ⟨h, _⟩
    · exact hq h
    · exact hf h
  · intro hd
    obtain ⟨event, hev, he⟩ := @execute_deliverable str downloads op w (pathOf op)
      (idOf op) hd
    rw [after_of_ok ((receive_run hb hpath hid).trans he)]
    exact .inl ⟨⟨event, hev, rfl, rfl⟩, not_failedOnce_of_queued rfl⟩

/-- A 200 answer with a JSON body. -/
def okAnswer (body : PyVal) : Attempt := .response ⟨200, "OK", "http://backend", .ok body⟩

/-- An operation whose `operation` field is `field`. -/
def operationWith (field : PyVal) : Dict :=
  [(attrNamePath, .str "/api/v1/agent/execute/snowflake"), (attrNameOperationId, .str "op-1"),
    (attrNameOperation, field)]

/-- The rule at an operation that a push brings and that has to be
downloaded. -/
theorem receive_answers_iff_marked :
    let op := operationWith (.dict [(attrNameSizeExceeded, .bool true)])
    let downloads := fun _ => okAnswer (.dict [("type", .str "query")])
    let route := Route.piggybacked [(attrNameNextOperation, .dict op)]
    AnsweredOnce mcdNames downloads op {} (after (route.receive (fun _ => "") downloads) {}) := by
  intro op downloads route
  have hb : route.Brings op := rfl
  exact (receive_answers_iff (fun _ => "") mcdNames downloads route op hb (by decide) (by decide)
    {}).mpr (by decide)

/-- An operation that GET /operation brings with a null `operation` field is
dropped: it is neither queued nor answered. -/
theorem null_operation_lost :
    let op := operationWith .none
    let route := Route.polled (okAnswer (.dict op))
    let downloads := fun _ => okAnswer .none
    route.Brings op ∧ (pathOf op).truthy = true ∧ (idOf op).truthy = true ∧
      ¬ AnsweredOnce mcdNames downloads op {} (after (route.receive (fun _ => "") downloads) {}) := by
  intro op route downloads
  have hb : route.Brings op := rfl
  have hlost := @lost_of_not_deliverable (fun _ => "") downloads op {} mcdNames route hb
    (by decide) (by decide) (by decide)
  refine ⟨hb, by decide, by decide, ?_⟩
  rintro (⟨h, _⟩ | ⟨h, _⟩)
  · exact hlost.1 h
  · exact hlost.2 h

end EgressAgent
