import Mathlib.Order.Bounds.Basic
import EgressAgent.Lib.PyVal
import EgressAgent.Lib.Retry

/-!
# The backend client

`BackendClient` as a function of the answers to its HTTP requests. One attempt
of a request is an `Attempt`; a call that may retry takes the stream of its
attempts, the first one being `attempts 0`. The request itself (url, headers,
body, timeout) has no other effect on the client than the answer it gets, and
a token provider that raises is an attempt that raises.

Results:
1. `executeOperation_eq`: what `execute_operation` returns is one function
   `replyTo` of the attempt that decided the call.
2. `downloadOperation_eq_ok_iff`: which deciding attempts make
   `download_operation` return, and what it returns for them.
3. `downloadOperation_raises_iff`: the requests for which it raises.
4. `pushResults_not_resent_iff`: when `push_results` sends nothing after an
   answer with a 2xx status. An attempt of `push_results` is a PUT.
5. `executeOperation_retry_law`: how many requests `execute_operation` sends, and
   that its value is the reply to the last of them, with retries and without.
-/

namespace EgressAgent.BackendClient

open Py

/-! ## One HTTP attempt -/

/-- An answer to an HTTP request. `json` is what `response.json()` returns or
raises. -/
structure Response where
  status : Nat
  reason : String
  url : String
  json : Except PyExc PyVal

/-- The outcome of one attempt: `requests.ConnectionError` or
`requests.Timeout`, any other exception, or an answer. -/
inductive Attempt
  | transportError (e : PyExc)
  | otherError (e : PyExc)
  | response (r : Response)

/-- The classes of exceptions that the client tells apart.
`retryableHttp` is `_RetryableHTTPError`. -/
inductive RequestError
  | transport (e : PyExc)
  | http (status : Nat) (e : PyExc)
  | retryableHttp (e : PyExc)
  | other (e : PyExc)

def RequestError.exc : RequestError → PyExc
  | .transport e => e
  | .http _ e => e
  | .retryableHttp e => e
  | .other e => e

/-- The status is one that `raise_for_status` raises for. -/
def Response.isError (r : Response) : Bool := decide (400 ≤ r.status ∧ r.status < 600)

/-- The `HTTPError` of an answer. -/
def Response.httpError (r : Response) : PyExc :=
  let kind := if r.status < 500 then "Client" else "Server"
  ⟨"HTTPError", s!"{r.status} {kind} Error: {r.reason} for url: {r.url}"⟩

/-- `response.raise_for_status()`. -/
def Response.raiseForStatus (r : Response) : Except RequestError Unit :=
  if r.isError then .error (.http r.status r.httpError) else .ok ()

/-- `response.json()`. -/
def Response.parse (r : Response) : Except RequestError PyVal :=
  match r.json with
  | .ok body => .ok body
  | .error e => .error (.other e)

/-- `requests.request(...)`. -/
def Attempt.send : Attempt → Except RequestError Response
  | .transportError e => .error (.transport e)
  | .otherError e => .error (.other e)
  | .response r => .ok r

/-! ## `execute_operation` -/

def attrNameError : String := "error"

/-- The dictionary that reports a failed request. -/
def errorReply (text : String) : PyVal := .dict [(attrNameError, .str text)]

/-- `_do_execute_operation`: a single attempt. -/
def doExecuteOperation (a : Attempt) : Except RequestError PyVal := do
  let response ← a.send
  response.raiseForStatus
  let body ← response.parse
  return if body.truthy then body else errorReply "empty response"

/-- The exceptions listed in the retry decorator of
`_execute_operation_with_retries`. -/
def RequestError.retryable : RequestError → Bool
  | .transport _ => true
  | .retryableHttp _ => true
  | .http _ _ => false
  | .other _ => false

/-- The body of `_execute_operation_with_retries`: a 5xx answer is raised again
as `_RetryableHTTPError`. -/
def executeOnce (a : Attempt) : Except RequestError PyVal :=
  match doExecuteOperation a with
  | .error (.http status e) =>
      if 500 ≤ status then .error (.retryableHttp ⟨"_RetryableHTTPError", e.text⟩)
      else .error (.http status e)
  | outcome => outcome

def executeOperationWithRetries (attempts : Nat → Attempt) : Except RequestError PyVal :=
  Retry.retry RequestError.retryable 3 fun k => executeOnce (attempts k)

/-- `execute_operation`: an exception becomes an `error` entry. -/
def executeOperation (skipRetries : Bool) (attempts : Nat → Attempt) : PyVal :=
  let outcome := if skipRetries then doExecuteOperation (attempts 0)
    else executeOperationWithRetries attempts
  match outcome with
  | .ok body => body
  | .error e => errorReply e.exc.text

/-- `download_operation`. `str` is Python's `str()`, used in the error text. -/
def downloadOperation (str : PyVal → String) (attempts : Nat → Attempt) (operationId : PyVal) :
    Except PyExc PyVal := do
  let operation := executeOperation false attempts
  let errorMessage ← operation.get attrNameError .none
  if errorMessage.truthy then
    throw ⟨"Exception",
      s!"Failed to download operation {str operationId}: {str errorMessage}"⟩
  return operation

/-! ## The other calls -/

/-- The body of `_push_results_with_retries`. -/
def pushOnce (a : Attempt) : Except RequestError PyVal := do
  let response ← a.send
  response.raiseForStatus
  response.parse

/-- `push_results`: three tries after any exception, `None` when all failed. -/
def pushResults (attempts : Nat → Attempt) : PyVal :=
  match Retry.retry (fun _ => true) 3 fun k => pushOnce (attempts k) with
  | .ok body => body
  | .error _ => .none

/-- `send_heartbeat` and `notify_shutdown`: a POST whose answer is only checked
for its status. -/
def postAndCheck (a : Attempt) : Except RequestError Unit := do
  let response ← a.send
  response.raiseForStatus

def sendHeartbeat (a : Attempt) : Except RequestError Unit := postAndCheck a

def notifyShutdown (a : Attempt) : Except RequestError Unit := postAndCheck a

/-- `get_next_operation`. -/
def getNextOperation (a : Attempt) : Except RequestError PyVal := do
  let response ← a.send
  if response.status = 204 then
    return .none
  response.raiseForStatus
  response.parse

/-! ## 1. The deciding attempt -/

/-- The last attempt of a call with retries. -/
def decidingAttempt (attempts : Nat → Attempt) : Attempt :=
  attempts (Retry.lastAttempt RequestError.retryable 3 fun k => executeOnce (attempts k))

/-- It is one of the first three, and every attempt before it failed with an
exception that the decorator retries. -/
theorem decidingAttempt_spec (attempts : Nat → Attempt) :
    ∃ k < 3, decidingAttempt attempts = attempts k ∧
      ∀ j < k, Retry.retryableOutcome RequestError.retryable (executeOnce (attempts j)) = true := by
  refine ⟨_, Retry.lastAttempt_lt (by decide), rfl, ?_⟩
  intro j hj
  exact Retry.retryable_of_lt_lastAttempt hj

/-- The exception that an attempt of `execute_operation` ends with. -/
def Attempt.failure? : Attempt → Option PyExc
  | .transportError e => some e
  | .otherError e => some e
  | .response r =>
      if r.isError then some r.httpError
      else match r.json with
        | .ok _ => none
        | .error e => some e

/-- The JSON body of an answer that no exception was raised for. -/
def Attempt.body? : Attempt → Option PyVal
  | .response r =>
      if r.isError then none
      else match r.json with
        | .ok body => some body
        | .error _ => none
  | _ => none

/-- What `execute_operation` returns when `a` is the attempt that decides. -/
def replyTo (a : Attempt) : PyVal :=
  match a.failure?, a.body? with
  | some e, _ => errorReply e.text
  | none, some body => if body.truthy then body else errorReply "empty response"
  | none, none => errorReply ""

/-- What `execute_operation` makes of the outcome of its request. -/
def reported : Except RequestError PyVal → PyVal
  | .ok body => body
  | .error e => errorReply e.exc.text

namespace Lemmas

/-- An attempt either fails or has a body. -/
theorem failure_or_body (a : Attempt) :
    (∃ e, a.failure? = some e ∧ a.body? = none) ∨
      (∃ body, a.failure? = none ∧ a.body? = some body) := by
  cases a with
  | transportError e => exact .inl ⟨e, rfl, rfl⟩
  | otherError e => exact .inl ⟨e, rfl, rfl⟩
  | response r =>
    cases hs : r.isError with
    | true => exact .inl ⟨r.httpError, by simp [Attempt.failure?, hs], by simp [Attempt.body?, hs]⟩
    | false =>
      cases hj : r.json with
      | ok body => exact .inr ⟨body, by simp [Attempt.failure?, hs, hj], by simp [Attempt.body?, hs, hj]⟩
      | error e => exact .inl ⟨e, by simp [Attempt.failure?, hs, hj], by simp [Attempt.body?, hs, hj]⟩

theorem doExecute_of_failure {a : Attempt} {e : PyExc} (h : a.failure? = some e) :
    ∃ re, doExecuteOperation a = .error re ∧ re.exc = e := by
  cases a with
  | transportError e' =>
    simp only [Attempt.failure?, Option.some.injEq] at h
    exact ⟨.transport e', rfl, h⟩
  | otherError e' =>
    simp only [Attempt.failure?, Option.some.injEq] at h
    exact ⟨.other e', rfl, h⟩
  | response r =>
    cases hs : r.isError with
    | true =>
      refine ⟨.http r.status r.httpError, ?_, by simpa [RequestError.exc, Attempt.failure?, hs] using h⟩
      simp [doExecuteOperation, Attempt.send, Response.raiseForStatus, hs, bind, Except.bind]
    | false =>
      cases hj : r.json with
      | ok body => simp [Attempt.failure?, hs, hj] at h
      | error e' =>
        refine ⟨.other e', ?_, by simpa [RequestError.exc, Attempt.failure?, hs, hj] using h⟩
        simp [doExecuteOperation, Attempt.send, Response.raiseForStatus, Response.parse, hs, hj,
          bind, Except.bind]

theorem doExecute_of_body {a : Attempt} {body : PyVal} (h : a.body? = some body) :
    doExecuteOperation a = .ok (if body.truthy then body else errorReply "empty response") := by
  cases a with
  | transportError _ => simp [Attempt.body?] at h
  | otherError _ => simp [Attempt.body?] at h
  | response r =>
    cases hs : r.isError with
    | true => simp [Attempt.body?, hs] at h
    | false =>
      cases hj : r.json with
      | ok b =>
        simp only [Attempt.body?, hs, hj, Bool.false_eq_true, if_false, Option.some.injEq] at h
        subst h
        simp [doExecuteOperation, Attempt.send, Response.raiseForStatus, Response.parse, hs, hj,
          bind, Except.bind, pure, Except.pure]
      | error _ => simp [Attempt.body?, hs, hj] at h

/-- The second wrapping of a 5xx answer keeps the text. -/
theorem executeOnce_of_failure {a : Attempt} {e : PyExc} (h : a.failure? = some e) :
    ∃ re, executeOnce a = .error re ∧ re.exc.text = e.text := by
  obtain ⟨re, hre, rfl⟩ := doExecute_of_failure h
  unfold executeOnce
  rw [hre]
  cases re with
  | http status e' =>
    by_cases hs : 500 ≤ status
    · exact ⟨.retryableHttp ⟨"_RetryableHTTPError", e'.text⟩, by simp [hs], rfl⟩
    · exact ⟨.http status e', by simp [hs], rfl⟩
  | transport e' => exact ⟨_, rfl, rfl⟩
  | retryableHttp e' => exact ⟨_, rfl, rfl⟩
  | other e' => exact ⟨_, rfl, rfl⟩

theorem executeOnce_of_body {a : Attempt} {body : PyVal} (h : a.body? = some body) :
    executeOnce a = .ok (if body.truthy then body else errorReply "empty response") := by
  unfold executeOnce
  rw [doExecute_of_body h]

theorem executeOperation_eq_reported (skipRetries : Bool) (attempts : Nat → Attempt) :
    executeOperation skipRetries attempts =
      reported (if skipRetries then doExecuteOperation (attempts 0)
        else executeOperationWithRetries attempts) :=
  rfl

/-- An outcome that tells how the attempt ended is reported as the reply to it. -/
theorem reported_eq_replyTo {outcome : Except RequestError PyVal} {a : Attempt}
    (hfailure : ∀ e, a.failure? = some e → ∃ re, outcome = .error re ∧ re.exc.text = e.text)
    (hbody : ∀ body, a.body? = some body →
      outcome = .ok (if body.truthy then body else errorReply "empty response")) :
    reported outcome = replyTo a := by
  rcases failure_or_body a with ⟨e, hf, _⟩ | ⟨body, hf, hb⟩
  · obtain ⟨re, rfl, htext⟩ := hfailure e hf
    simp [reported, htext, replyTo, hf]
  · rw [hbody body hb]
    simp [reported, replyTo, hf, hb]

end Lemmas

open Lemmas

/-- With retries, `execute_operation` returns the reply to its deciding
attempt. -/
theorem executeOperation_eq (attempts : Nat → Attempt) :
    executeOperation false attempts = replyTo (decidingAttempt attempts) := by
  have hlast : executeOperationWithRetries attempts = executeOnce (decidingAttempt attempts) :=
    Retry.retry_eq_last 3
  simp only [executeOperation_eq_reported, Bool.false_eq_true, if_false, hlast]
  exact reported_eq_replyTo (fun _ => executeOnce_of_failure) fun _ => executeOnce_of_body

/-- Without retries, it returns the reply to its only attempt. -/
theorem executeOperation_single_eq (attempts : Nat → Attempt) :
    executeOperation true attempts = replyTo (attempts 0) := by
  simp only [executeOperation_eq_reported, if_true]
  refine reported_eq_replyTo (fun e he => ?_) fun _ => doExecute_of_body
  obtain ⟨re, hre, hexc⟩ := doExecute_of_failure he
  exact ⟨re, hre, by rw [hexc]⟩

/-- The backend accepts the request: the deciding attempt is answered, and not
with an error status. That is so as well where the answer has a body of which
`execute_operation` makes an error. -/
def accepts (attempts : Nat → Attempt) : Bool :=
  match decidingAttempt attempts with
  | .response r => !r.isError
  | _ => false

/-- A request that is not accepted makes `execute_operation` return an error. -/
theorem error_of_not_accepts {attempts : Nat → Attempt} (h : accepts attempts = false) :
    ∃ text, executeOperation false attempts = errorReply text := by
  have hfail : ∃ e, (decidingAttempt attempts).failure? = some e := by
    unfold accepts at h
    cases hd : decidingAttempt attempts with
    | transportError e => exact ⟨e, rfl⟩
    | otherError e => exact ⟨e, rfl⟩
    | response r =>
      have he : r.isError = true := by simpa [hd] using h
      exact ⟨r.httpError, by simp [Attempt.failure?, he]⟩
  obtain ⟨e, he⟩ := hfail
  exact ⟨e.text, by simp [executeOperation_eq, replyTo, he]⟩

/-! ## 2. When a download returns -/

/-- The answer carries an operation: a non-empty JSON object whose `error`
entry, if it has one, is false in a condition. -/
def Attempt.operation? (a : Attempt) : Option Dict :=
  match a.body? with
  | some (.dict kvs) =>
      if kvs.isEmpty || ((kvs.lookup attrNameError).getD .none).truthy then none else some kvs
  | _ => none

namespace Lemmas

/-- The error entry decides: a reply without a `get`, or with an error entry
that is true, raises. -/
theorem downloadOperation_of_reply {str : PyVal → String} {attempts : Nat → Attempt}
    {operationId operation body : PyVal} (h : executeOperation false attempts = operation) :
    downloadOperation str attempts operationId = .ok body ↔
      ∃ kvs, operation = .dict kvs ∧ ((kvs.lookup attrNameError).getD .none).truthy = false ∧
        body = .dict kvs := by
  unfold downloadOperation
  rw [h]
  cases hd : operation.isDict with
  | false =>
    have hno : ∀ kvs, operation ≠ .dict kvs := by
      rintro kvs rfl
      simp [PyVal.isDict] at hd
    simp [PyVal.get_of_not_isDict hd, hno, bind, Except.bind]
  | true =>
    obtain ⟨kvs, rfl⟩ := PyVal.isDict_iff.mp hd
    cases ht : ((kvs.lookup attrNameError).getD .none).truthy with
    | true => simp [ht, bind, Except.bind, throw, throwThe, MonadExceptOf.throw]
    | false =>
      simp only [PyVal.get_dict, ht, bind, Except.bind, Bool.false_eq_true, if_false, pure,
        Except.pure, Except.ok.injEq]
      constructor
      · rintro rfl
        exact ⟨kvs, rfl, ht, rfl⟩
      · rintro ⟨kvs', hkvs, _, rfl⟩
        rw [hkvs]

theorem errorReply_truthy (text : String) :
    ((([(attrNameError, PyVal.str text)] : Dict).lookup attrNameError).getD .none).truthy =
      (text != "") := by
  simp [attrNameError, PyVal.truthy]

theorem operation?_eq_some {a : Attempt} {kvs : Dict} :
    a.operation? = some kvs ↔ a.body? = some (.dict kvs) ∧ kvs ≠ [] ∧
      ((kvs.lookup attrNameError).getD .none).truthy = false := by
  unfold Attempt.operation?
  split
  · next kvs' h =>
    simp only [h, Bool.or_eq_true, List.isEmpty_iff, Option.ite_none_left_eq_some,
      Option.some.injEq, PyVal.dict.injEq, not_or]
    constructor
    · rintro ⟨⟨h₁, h₂⟩, rfl⟩
      exact ⟨rfl, h₁, by simpa using h₂⟩
    · rintro ⟨rfl, h₁, h₂⟩
      exact ⟨⟨h₁, by simp [h₂]⟩, rfl⟩
  · next h => simpa using fun hb => absurd hb (h kvs)

end Lemmas

/-- `download_operation` returns the object that the backend sent, or, after a
failure whose text is empty, the dictionary that reports the failure. -/
theorem downloadOperation_eq_ok_iff (str : PyVal → String) (attempts : Nat → Attempt)
    (operationId body : PyVal) :
    downloadOperation str attempts operationId = .ok body ↔
      (∃ kvs, (decidingAttempt attempts).operation? = some kvs ∧ body = .dict kvs) ∨
      (∃ e, (decidingAttempt attempts).failure? = some e ∧ e.text = "" ∧ body = errorReply "") := by
  rw [downloadOperation_of_reply (executeOperation_eq attempts)]
  simp only [operation?_eq_some]
  rcases failure_or_body (decidingAttempt attempts) with ⟨e, hf, hb⟩ | ⟨b, hf, hb⟩
  · have hreply : replyTo (decidingAttempt attempts) = errorReply e.text := by simp [replyTo, hf]
    rw [hreply]
    simp only [hb, hf, errorReply]
    constructor
    · rintro ⟨kvs, hkvs, hfalse, rfl⟩
      cases hkvs
      rw [errorReply_truthy] at hfalse
      have htext : e.text = "" := by simpa using hfalse
      exact .inr ⟨e, rfl, htext, by rw [htext]⟩
    · rintro (⟨kvs, ⟨h, _⟩, _⟩ | ⟨e', he, htext, rfl⟩)
      · simp at h
      · simp only [Option.some.injEq] at he
        subst he
        exact ⟨_, rfl, by rw [errorReply_truthy]; simp [htext], by rw [htext]⟩
  · cases ht : b.truthy with
    | false =>
      -- An empty body is replaced by the "empty response" error.
      have hreply : replyTo (decidingAttempt attempts) = errorReply "empty response" := by
        simp [replyTo, hf, hb, ht]
      rw [hreply]
      simp only [hb, hf, errorReply]
      constructor
      · rintro ⟨kvs, hkvs, hfalse, _⟩
        cases hkvs
        rw [errorReply_truthy] at hfalse
        simp at hfalse
      · rintro (⟨kvs, ⟨h, hne, _⟩, _⟩ | ⟨_, he, _⟩)
        · simp only [Option.some.injEq] at h
          subst h
          simp [PyVal.truthy, hne] at ht
        · simp at he
    | true =>
      have hreply : replyTo (decidingAttempt attempts) = b := by simp [replyTo, hf, hb, ht]
      rw [hreply]
      simp only [hb, hf, Option.some.injEq]
      constructor
      · rintro ⟨kvs, rfl, hfalse, rfl⟩
        exact .inl ⟨kvs, ⟨rfl, by simpa [PyVal.truthy] using ht, hfalse⟩, rfl⟩
      · rintro (⟨kvs, ⟨rfl, _, hfalse⟩, rfl⟩ | ⟨_, he, _⟩)
        · exact ⟨kvs, rfl, hfalse, rfl⟩
        · simp at he

/-! ## 3. Failed and successful downloads -/

/-- The request returned an empty body: one that is false in a condition. -/
def Attempt.emptyBody (a : Attempt) : Bool := a.body?.any fun body => !body.truthy

/-- The body reports an error of its own or is no object. -/
def Attempt.rejectedBody (a : Attempt) : Bool :=
  match a.body? with
  | some (.dict kvs) => ((kvs.lookup attrNameError).getD .none).truthy
  | some _ => true
  | none => false

namespace Lemmas

theorem not_ok_iff_error {ε α : Type} (x : Except ε α) : (∃ e, x = .error e) ↔ ∀ a, x ≠ .ok a := by
  cases x <;> simp

/-- What a body of an operation is not. -/
theorem operation?_eq_none_iff {a : Attempt} :
    a.operation? = none ↔ a.failure? ≠ none ∨ a.emptyBody = true ∨ a.rejectedBody = true := by
  rcases failure_or_body a with ⟨e, hf, hb⟩ | ⟨body, hf, hb⟩
  · simp [Attempt.operation?, hf, hb]
  · simp only [Attempt.operation?, Attempt.emptyBody, Attempt.rejectedBody, hf, hb]
    cases body with
    | dict kvs =>
      cases ht : ((kvs.lookup attrNameError).getD .none).truthy <;> simp [ht]
    | _ => simp

end Lemmas

/-- `download_operation` raises exactly when the request finally failed or was
answered with an empty body, with a body that is no object or with one whose
`error` entry is true in a condition, and returns the object that the backend
sent otherwise. A failure whose exception has an empty text is left out. -/
theorem downloadOperation_raises_iff (str : PyVal → String) (attempts : Nat → Attempt)
    (operationId : PyVal)
    (htext : ∀ e, (decidingAttempt attempts).failure? = some e → e.text ≠ "") :
    ((∃ e, downloadOperation str attempts operationId = .error e) ↔
      (decidingAttempt attempts).failure? ≠ none ∨ (decidingAttempt attempts).emptyBody = true ∨
        (decidingAttempt attempts).rejectedBody = true) ∧
    ∀ operation, downloadOperation str attempts operationId = .ok operation →
      operation.isDict = true ∧ (decidingAttempt attempts).body? = some operation := by
  have hok : ∀ body, downloadOperation str attempts operationId = .ok body ↔
      ∃ kvs, (decidingAttempt attempts).operation? = some kvs ∧ body = .dict kvs := by
    intro body
    rw [downloadOperation_eq_ok_iff, or_iff_left]
    rintro ⟨e, he, hempty, _⟩
    exact htext e he hempty
  constructor
  · rw [not_ok_iff_error, ← operation?_eq_none_iff, Option.eq_none_iff_forall_ne_some]
    constructor
    · exact fun h kvs hkvs => h (.dict kvs) ((hok _).mpr ⟨kvs, hkvs, rfl⟩)
    · rintro h body hbody
      obtain ⟨kvs, hkvs, _⟩ := (hok body).mp hbody
      exact h kvs hkvs
  · intro operation hoperation
    obtain ⟨kvs, hkvs, rfl⟩ := (hok operation).mp hoperation
    exact ⟨rfl, (operation?_eq_some.mp hkvs).1⟩

/-- The rule at a request that the backend answers with an operation. -/
theorem downloadOperation_raises_iff_answered :
    let body : PyVal := .dict [("type", .str "query")]
    let attempts : Nat → Attempt := fun _ => .response ⟨200, "OK", "http://backend", .ok body⟩
    (¬ ∃ e, downloadOperation (fun _ => "") attempts (.str "op-1") = .error e) ∧
      ∀ operation, downloadOperation (fun _ => "") attempts (.str "op-1") = .ok operation →
        operation.isDict = true ∧ some body = some operation := by
  intro body attempts
  obtain ⟨hraises, hreturns⟩ :=
    downloadOperation_raises_iff (fun _ => "") attempts (.str "op-1") nofun
  refine ⟨fun h => ?_, hreturns⟩
  rcases hraises.mp h with h | h | h
  · exact h rfl
  · cases h
  · cases h

/-- An operation with an `error` entry is taken for a failed download: the
request succeeds with a body that is not empty, and `download_operation`
raises. -/
theorem error_entry_raises :
    let body : PyVal := .dict [("type", .str "query"), ("error", .str "on_error: skip")]
    let attempts : Nat → Attempt := fun _ => .response ⟨200, "OK", "http://backend", .ok body⟩
    (decidingAttempt attempts).failure? = none ∧ (decidingAttempt attempts).body? = some body ∧
      body.truthy = true ∧
      ∃ e, downloadOperation (fun _ => "") attempts (.str "op-1") = .error e :=
  ⟨rfl, rfl, rfl, _, rfl⟩

/-! ## 4. An accepted result -/

/-- The attempt is answered with a 2xx status. -/
def Attempt.succeeded : Attempt → Bool
  | .response r => decide (200 ≤ r.status ∧ r.status < 300)
  | _ => false

/-- The number of the last PUT that `push_results` makes. -/
def lastPut (attempts : Nat → Attempt) : Nat :=
  Retry.lastAttempt (fun _ => true) 3 fun k => pushOnce (attempts k)

/-- No PUT is made after one that was answered with a 2xx status. -/
def NotResent (attempts : Nat → Attempt) : Prop :=
  ∀ i j, i < j → j ≤ lastPut attempts → (attempts i).succeeded = false

namespace Lemmas

/-- An attempt of `push_results` raises exactly when it has no JSON body. -/
theorem pushOnce_raises_iff (a : Attempt) :
    Retry.retryableOutcome (fun _ => true) (pushOnce a) = true ↔ a.failure? ≠ none := by
  cases a with
  | transportError e => exact iff_of_true rfl nofun
  | otherError e => exact iff_of_true rfl nofun
  | response r =>
    cases hs : r.isError with
    | true =>
      simp [pushOnce, Attempt.send, Response.raiseForStatus, hs, Attempt.failure?, bind, Except.bind,
        Retry.retryableOutcome]
    | false =>
      cases hj : r.json <;>
        simp [pushOnce, Attempt.send, Response.raiseForStatus, Response.parse, hs, hj,
          Attempt.failure?, bind, Except.bind, Retry.retryableOutcome]

theorem le_lastPut_iff {attempts : Nat → Attempt} {j : Nat} :
    j ≤ lastPut attempts ↔ j < 3 ∧ ∀ i < j, (attempts i).failure? ≠ none := by
  simp only [lastPut, Retry.le_lastAttempt_iff (by decide : 0 < 3), pushOnce_raises_iff]

end Lemmas

/-- `push_results` makes no PUT after one that was answered with a 2xx status if
and only if, of the first two PUTs, every one that is made and answered so has a
JSON body. -/
theorem pushResults_not_resent_iff (attempts : Nat → Attempt) :
    NotResent attempts ↔
      ∀ i < 2, (∀ k < i, (attempts k).failure? ≠ none) → (attempts i).succeeded = true →
        (attempts i).body? ≠ none := by
  constructor
  · intro h i hi hmade hsucceeded hbody
    have hfail : (attempts i).failure? ≠ none := by
      rcases failure_or_body (attempts i) with ⟨e, hf, _⟩ | ⟨body, _, hb⟩
      · simp [hf]
      · rw [hb] at hbody
        cases hbody
    have hnext : i + 1 ≤ lastPut attempts := by
      refine le_lastPut_iff.mpr ⟨by omega, fun k hk => ?_⟩
      rcases Nat.lt_succ_iff_lt_or_eq.mp hk with hlt | rfl
      · exact hmade k hlt
      · exact hfail
    rw [h i (i + 1) (Nat.lt_succ_self i) hnext] at hsucceeded
    cases hsucceeded
  · intro h i j hij hj
    obtain ⟨hlt, hfail⟩ := le_lastPut_iff.mp hj
    by_contra hsucceeded
    have hbody : (attempts i).body? ≠ none :=
      h i (by omega) (fun k hk => hfail k (hk.trans hij)) (by simpa using hsucceeded)
    rcases failure_or_body (attempts i) with ⟨e, _, hb⟩ | ⟨body, hf, _⟩
    · exact hbody hb
    · exact hfail i hij hf

/-- A PUT answered with 200 and an empty body is made three times. -/
theorem empty_answer_resent :
    let attempts : Nat → Attempt := fun _ => .response ⟨200, "OK", "http://backend",
      .error ⟨"JSONDecodeError", "Expecting value: line 1 column 1 (char 0)"⟩⟩
    lastPut attempts = 2 ∧ ¬ NotResent attempts := by
  intro attempts
  have hlast : lastPut attempts = 2 := rfl
  refine ⟨hlast, fun h => ?_⟩
  have hfirst := h 0 1 (by decide) (by rw [hlast]; decide)
  cases hfirst

/-! ## 5. The retry law -/

/-- A call that sends the next request, which `attempts` answers by its number. -/
def sending (once : Attempt → Except RequestError PyVal) (attempts : Nat → Attempt) (sent : Nat) :
    Except RequestError PyVal × Nat :=
  (once (attempts sent), sent + 1)

/-- `execute_operation`, with the number of requests that it sends. -/
def executeOperationRun (skipRetries : Bool) (attempts : Nat → Attempt) : PyVal × Nat :=
  let (outcome, sent) := if skipRetries then sending doExecuteOperation attempts 0
    else Retry.retryRun RequestError.retryable 3 (sending executeOnce attempts) 0
  (reported outcome, sent)

/-- A transport error, or an answer with a 5xx status. -/
def Attempt.retried : Attempt → Bool
  | .transportError _ => true
  | .otherError _ => false
  | .response r => decide (500 ≤ r.status ∧ r.status < 600)

namespace Lemmas

/-- The decorator retries after a transport error and after a 5xx answer. -/
theorem executeOnce_retryable (a : Attempt) :
    Retry.retryableOutcome RequestError.retryable (executeOnce a) = a.retried := by
  cases a with
  | transportError e => rfl
  | otherError e => rfl
  | response r =>
    cases hs : r.isError with
    | true =>
      have hrange : 400 ≤ r.status ∧ r.status < 600 := of_decide_eq_true hs
      have hdo : doExecuteOperation (.response r) = .error (.http r.status r.httpError) := by
        simp [doExecuteOperation, Attempt.send, Response.raiseForStatus, hs, bind, Except.bind]
      by_cases hserver : 500 ≤ r.status
      · simp [executeOnce, hdo, hserver, hrange.2, Attempt.retried, Retry.retryableOutcome,
          RequestError.retryable]
      · simp [executeOnce, hdo, hserver, Attempt.retried, Retry.retryableOutcome,
          RequestError.retryable]
    | false =>
      have hrange : ¬ (400 ≤ r.status ∧ r.status < 600) := of_decide_eq_false hs
      have hretried : (Attempt.response r).retried = false := decide_eq_false (by omega)
      rw [hretried]
      cases hj : r.json <;>
        simp [executeOnce, doExecuteOperation, Attempt.send, Response.raiseForStatus,
          Response.parse, hs, hj, bind, Except.bind, pure, Except.pure, Retry.retryableOutcome,
          RequestError.retryable]

/-- The number of the last attempt that `execute_operation` makes, with
retries. -/
theorem le_last_iff {attempts : Nat → Attempt} {j : Nat} :
    j ≤ Retry.lastAttempt RequestError.retryable 3 (fun k => executeOnce (attempts k)) ↔
      j < 3 ∧ ∀ i < j, (attempts i).retried = true := by
  simp only [Retry.le_lastAttempt_iff (by decide : 0 < 3), executeOnce_retryable]

theorem executeOperationRun_single (attempts : Nat → Attempt) :
    executeOperationRun true attempts = (executeOperation true attempts, 1) :=
  rfl

theorem executeOperationRun_retries (attempts : Nat → Attempt) :
    executeOperationRun false attempts = (executeOperation false attempts,
      Retry.lastAttempt RequestError.retryable 3 (fun k => executeOnce (attempts k)) + 1) := by
  have hrun : Retry.retryRun RequestError.retryable 3 (sending executeOnce attempts) 0 =
      (executeOperationWithRetries attempts,
        Retry.lastAttempt RequestError.retryable 3 (fun k => executeOnce (attempts k)) + 1) :=
    Retry.retryRun_numbered 3
  simp only [executeOperationRun, executeOperation_eq_reported, Bool.false_eq_true, if_false, hrun]

end Lemmas

/-- With retries, `execute_operation` sends the least number `k ≤ 3` of requests
such that the last of them is not to be retried, or 3; without, it sends one. In
both cases its value is the reply to the last one. So the two agree on a first
request that is not to be retried, and requests that run out of tries are
reported as the last of them would be without retries. -/
theorem executeOperation_retry_law (attempts : Nat → Attempt) :
    IsLeast {k | 1 ≤ k ∧ k ≤ 3 ∧ ((attempts (k - 1)).retried = false ∨ k = 3)}
        (executeOperationRun false attempts).2 ∧
      (executeOperationRun true attempts).2 = 1 ∧
      (∀ skipRetries, (executeOperationRun skipRetries attempts).1 =
        replyTo (attempts ((executeOperationRun skipRetries attempts).2 - 1))) ∧
      ((attempts 0).retried = false →
        executeOperationRun false attempts = executeOperationRun true attempts) ∧
      ((∀ k < 3, (attempts k).retried = true) →
        (executeOperationRun false attempts).1 =
          (executeOperationRun true fun k => attempts (k + 2)).1) := by
  let n := Retry.lastAttempt RequestError.retryable 3 fun k => executeOnce (attempts k)
  have hruns : executeOperationRun false attempts = (replyTo (attempts n), n + 1) := by
    rw [executeOperationRun_retries, executeOperation_eq]
    rfl
  have hsingle (attempts : Nat → Attempt) :
      executeOperationRun true attempts = (replyTo (attempts 0), 1) := by
    rw [executeOperationRun_single, executeOperation_single_eq]
  obtain ⟨hlt, hbefore⟩ : n < 3 ∧ ∀ i < n, (attempts i).retried = true :=
    le_last_iff.mp (Nat.le_refl n)
  have hlast (h : n + 1 < 3) : (attempts n).retried = false := by
    refine Bool.eq_false_iff.mpr fun hretried => Nat.not_succ_le_self n (le_last_iff.mpr ⟨h, ?_⟩)
    exact Nat.forall_lt_succ_right.mpr ⟨hbefore, hretried⟩
  rw [hruns, hsingle]
  refine ⟨⟨⟨by omega, by omega, ?_⟩, fun k hk => ?_⟩, rfl, fun skipRetries => ?_, fun hfirst => ?_,
    fun hall => ?_⟩
  · rcases Nat.lt_or_ge (n + 1) 3 with h | h
    · exact .inl (hlast h)
    · exact .inr (Nat.le_antisymm hlt h)
  · obtain ⟨hpos, -, hstop | rfl⟩ := hk
    · by_contra hlarge
      rw [hbefore (k - 1) (by omega)] at hstop
      cases hstop
    · exact hlt
  · cases skipRetries with
    | false => rw [hruns, Nat.add_sub_cancel]
    | true =>
      rw [hsingle]
      rfl
  · -- A first request that is not to be retried is the last one.
    have hzero : n = 0 := by
      by_contra hpos
      rw [hbefore 0 (Nat.pos_of_ne_zero hpos)] at hfirst
      cases hfirst
    rw [hzero]
  · have htwo : n = 2 := by
      have hle : 2 ≤ n := le_last_iff.mpr ⟨by decide, fun i hi => hall i (by omega)⟩
      omega
    rw [hsingle, htwo]

/-- An answer without a body. -/
def emptyAnswer (status : Nat) (reason : String) : Attempt :=
  .response ⟨status, reason, "http://backend", .ok .none⟩

/-- The law at a backend that answers 404, which is not retried, and at one that
answers 503 to every request. -/
theorem executeOperation_retry_law_failed :
    executeOperationRun false (fun _ => emptyAnswer 404 "Not Found") =
        executeOperationRun true (fun _ => emptyAnswer 404 "Not Found") ∧
      (executeOperationRun false fun _ => emptyAnswer 503 "Service Unavailable").1 =
        (executeOperationRun true fun _ => emptyAnswer 503 "Service Unavailable").1 :=
  ⟨(executeOperation_retry_law fun _ => emptyAnswer 404 "Not Found").2.2.2.1 rfl,
    (executeOperation_retry_law fun _ => emptyAnswer 503 "Service Unavailable").2.2.2.2
      fun _ _ => rfl⟩

end EgressAgent.BackendClient
