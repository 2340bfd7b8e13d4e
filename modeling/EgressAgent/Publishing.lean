import EgressAgent.Intake

/-!
# How a result is published

A publisher thread runs `_push_results` for every result it takes from its
queue. With operation attributes the result goes through
`ResultsProcessor.process_result` first, which may move it to the storage
service. Dictionaries are passed on as values, since nothing reads a queued
result again once its handler has it. A result serialises, and `serialize` is
its serialisation.

1. The results processor and the publisher's handler.
2. `pushResults_once_iff`: a result with a dictionary and no query id is pushed
   exactly once if and only if it is not offloaded or its offload succeeds and
   it has a result entry to replace.
-/

namespace EgressAgent

open Py Effect
open BackendClient (Attempt)

def attrNameResultLocation : String := "__mcd_result_location__"
def attrNameResultCompressed : String := "__mcd_result_compressed__"

/-! ## 1. The results processor and its caller -/

/-- `BaseStorageService`. -/
structure StorageService where
  write : String → Contents → Except PyExc Unit
  generatePresignedUrl : String → Int → Except PyExc String

/-- `ConfigurationManager.get_int_value`, for the value that the configuration
holds. `int` is Python's `int()` on a string. -/
def getIntValue (int : String → Except PyExc Int) (value : Option String) (default : Int) :
    Except PyExc Int :=
  match value with
  | none => .ok default
  | some value => if value ≠ "" then int value else .ok default

def defaultPreSignedUrlResponseExpirationSeconds : Int := 60 * 60 * 1

structure ResultsProcessor where
  storage : StorageService
  enablePreSignedUrls : Bool
  int : String → Except PyExc Int
  /-- the configured expiration of a pre-signed url -/
  expirationSetting : Option String
  /-- `json.dumps(result, cls=AgentSerializer)` -/
  serialize : Dict → String
  /-- `gzip.compress` -/
  compress : ByteArray → ByteArray

namespace ResultsProcessor

variable (p : ResultsProcessor)

/-- `_calculate_result_size`. -/
def calculateResultSize (result : Dict) : Nat := (p.serialize result).toUTF8.size

/-- `_must_use_pre_signed_url`. -/
def mustUsePreSignedUrl (operationAttrs : OperationAttributes) (size : Nat) : Bool :=
  p.enablePreSignedUrls &&
    decide (0 < operationAttrs.responseSizeLimitBytes ∧ operationAttrs.responseSizeLimitBytes < size)

/-- What is written to the storage service. -/
def fileContents (operationAttrs : OperationAttributes) (result : Dict) : Contents :=
  if operationAttrs.compressResponseFile then .bytes (p.compress (p.serialize result).toUTF8)
  else .text (p.serialize result)

def storageKey (operationAttrs : OperationAttributes) : String :=
  s!"responses/{operationAttrs.traceId}"

/-- `self._storage.write(...)`. -/
def write (key : String) (contents : Contents) : Agent Unit := do
  call (p.storage.write key contents)
  modify fun w => { w with stored := w.stored ++ [(key, contents)] }

/-- The lookup of the expiration. -/
def expirationSeconds : Except PyExc Int :=
  getIntValue p.int p.expirationSetting defaultPreSignedUrlResponseExpirationSeconds

/-- `process_result`. -/
def processResult (names : AttributeNames) (result : Dict) (operationAttrs : OperationAttributes) :
    Agent Dict := do
  let size := p.calculateResultSize result
  if p.mustUsePreSignedUrl operationAttrs size then
    let key := storageKey operationAttrs
    p.write key (p.fileContents operationAttrs result)
    let expirationSeconds ← call p.expirationSeconds
    let url ← call (p.storage.generatePresignedUrl key expirationSeconds)
    let result := Dict.set result attrNameResultLocation (.str url)
    let result := Dict.set result attrNameResultCompressed (.bool operationAttrs.compressResponseFile)
    -- `del` raises for an error result, which has no result entry.
    call (Dict.del result names.result)
  else
    return result

end ResultsProcessor

section Publisher

variable (str : PyVal → String) (names : AttributeNames) (p : ResultsProcessor)

/-- The patch of the trace id in `_push_backend_results`. -/
def withTraceId (result : Dict) (operationAttrs : OperationAttributes) : Dict :=
  if Dict.contains result attrNameTraceId then result
  else Dict.set result names.traceId (.str operationAttrs.traceId)

/-- `_push_backend_results`, up to the call of `push_results`. -/
def preparePush (result : Dict) (operationAttrs : Option OperationAttributes) : Agent Dict :=
  match operationAttrs with
  | none => return result
  | some operationAttrs =>
    p.processResult names (withTraceId names result operationAttrs) operationAttrs

/-- `self._backend_client.push_results(...)`. -/
def pushToBackend (attempts : Nat → Attempt) (operationId : PyVal) (result : Dict) : Agent PyVal := do
  modify fun w => { w with pushes := w.pushes ++ [(operationId, result)] }
  return BackendClient.pushResults attempts

/-- `_push_backend_results`. `attempts` are those of the push, `downloads` those
of the download that an operation in its answer may need. -/
def pushBackendResults (attempts downloads : Nat → Attempt) (operationId : PyVal) (result : Dict)
    (operationAttrs : Option OperationAttributes) : Agent Unit := do
  let result ← preparePush names p result operationAttrs
  let response ← pushToBackend attempts operationId result
  handlePushResponse str downloads response

/-- `_push_results_for_query`, which the base class does not implement. -/
def pushResultsForQuery : Agent Unit := throw ⟨"NotImplementedError", ""⟩

/-- `_push_results`. A result without a dictionary is only logged. -/
def pushResults (attempts downloads : Nat → Attempt) (result : AgentOperationResult) : Agent Unit :=
  if (result.queryId.any fun queryId => queryId ≠ "") && result.operationAttrs.isSome then
    pushResultsForQuery
  else
    match result.result with
    | some dict => pushBackendResults str names p attempts downloads result.operationId dict
        result.operationAttrs
    | none => return

end Publisher

/-! ## 2. One push for every result -/

/-- Exactly one call of `push_results` was made, for this id. -/
def PushedOnce (operationId : PyVal) (w w' : World) : Prop :=
  ∃ result, w'.pushes = w.pushes ++ [(operationId, result)]

/-- The storage service takes the result, the expiration is configured as a
number and a url is generated. -/
def OffloadSucceeds (p : ResultsProcessor) (operationAttrs : OperationAttributes) (result : Dict) :
    Prop :=
  p.storage.write (ResultsProcessor.storageKey operationAttrs) (p.fileContents operationAttrs result) =
    .ok () ∧
  ∃ expiration url, p.expirationSeconds = .ok expiration ∧
    p.storage.generatePresignedUrl (ResultsProcessor.storageKey operationAttrs) expiration = .ok url

/-- The dictionary gets through the results processor: it is not offloaded, or
the storage service does its part and there is a result entry to replace. -/
def GetsThrough (names : AttributeNames) (p : ResultsProcessor) (dict : Dict) :
    Option OperationAttributes → Prop
  | none => True
  | some operationAttrs =>
    p.mustUsePreSignedUrl operationAttrs
        (p.calculateResultSize (withTraceId names dict operationAttrs)) = true →
      OffloadSucceeds p operationAttrs (withTraceId names dict operationAttrs) ∧
        Dict.contains dict names.result = true

namespace PublishingLemmas

variable {str : PyVal → String} {names : AttributeNames} {p : ResultsProcessor}
  {attempts downloads : Nat → Attempt} {operationId : PyVal} {w : World}

theorem keeps_executeOperation {path operationId event : PyVal} :
    Keeps World.pushes (executeOperation str downloads path operationId event) := by
  unfold executeOperation
  refine keeps_bind (keeps_call _) fun operation => keeps_bind (keeps_call _) fun marker => ?_
  split
  · refine keeps_bind (keeps_call _) fun body => keeps_bind (keeps_call _) fun event => ?_
    exact fun _ => rfl
  · exact fun _ => rfl

/-- What the answer of a push brings makes no further push. -/
theorem keeps_handlePushResponse {response : PyVal} :
    Keeps World.pushes (handlePushResponse str downloads response) := by
  unfold handlePushResponse
  split
  · refine keeps_bind (keeps_call _) fun nextOp => ?_
    split
    · unfold handlePiggybackedOperation handOver
      refine keeps_bind (keeps_call _) fun path => keeps_bind (keeps_call _) fun operationId => ?_
      split
      · exact keeps_pure _
      · exact keeps_executeOperation
    · exact keeps_pure _
  · exact keeps_pure _

/-- The results processor changes nothing but what is stored. -/
theorem keeps_write {τ : Type} {f : World → τ} (hf : ∀ w stored, f { w with stored } = f w)
    {key : String} {contents : Contents} : Keeps f (p.write key contents) :=
  keeps_bind (keeps_call _) fun _ => keeps_modify fun w => hf w _

theorem keeps_preparePush {τ : Type} {f : World → τ} (hf : ∀ w stored, f { w with stored } = f w)
    {dict : Dict} {operationAttrs : Option OperationAttributes} :
    Keeps f (preparePush names p dict operationAttrs) := by
  unfold preparePush
  split
  · exact keeps_pure _
  · unfold ResultsProcessor.processResult
    dsimp only
    split
    · refine keeps_bind (keeps_write hf) fun _ => keeps_bind (keeps_call _) fun expiration => ?_
      exact keeps_bind (keeps_call _) fun url => keeps_call _
    · exact keeps_pure _

theorem contains_withTraceId {dict : Dict} {operationAttrs : OperationAttributes} :
    Dict.contains (withTraceId names dict operationAttrs) names.result =
      Dict.contains dict names.result := by
  unfold withTraceId
  split
  · rfl
  · exact Dict.contains_set_ne _ names.result_ne_traceId _

/-- The two entries of an offloaded result are not its result entry. -/
theorem contains_located {dict : Dict} {location compressed : PyVal} :
    Dict.contains (Dict.set (Dict.set dict attrNameResultLocation location) attrNameResultCompressed
      compressed) names.result = Dict.contains dict names.result := by
  have hown := names.result_not_own
  simp only [List.mem_cons, not_or] at hown
  have hlocation : names.result ≠ attrNameResultLocation := hown.2.1
  have hcompressed : names.result ≠ attrNameResultCompressed := hown.2.2.1
  rw [Dict.contains_set_ne _ hcompressed, Dict.contains_set_ne _ hlocation]

/-- An offloaded result comes back exactly when each call succeeds and the
result entry is there to be deleted. -/
theorem processResult_returns_iff {dict : Dict} {operationAttrs : OperationAttributes}
    (h : p.mustUsePreSignedUrl operationAttrs (p.calculateResultSize dict) = true) :
    (∃ d w', p.processResult names dict operationAttrs w = .ok d w') ↔
      OffloadSucceeds p operationAttrs dict ∧ Dict.contains dict names.result = true := by
  simp only [ResultsProcessor.processResult, h, if_true, ResultsProcessor.write, bind_run,
    OffloadSucceeds]
  cases hw : p.storage.write (ResultsProcessor.storageKey operationAttrs)
    (p.fileContents operationAttrs dict) with
  | error e => simp
  | ok _ =>
    cases he : p.expirationSeconds with
    | error e => simp
    | ok expiration =>
      cases hu : p.storage.generatePresignedUrl (ResultsProcessor.storageKey operationAttrs)
        expiration with
      | error e => simp [hu]
      | ok url =>
        simp [hu, call_returns_iff, Dict.del_isOk_iff, contains_located]

/-- The results processor returns exactly for what gets through. -/
theorem preparePush_returns_iff {dict : Dict} {operationAttrs : Option OperationAttributes} :
    (∃ d w', preparePush names p dict operationAttrs w = .ok d w') ↔
      GetsThrough names p dict operationAttrs := by
  cases operationAttrs with
  | none => exact iff_of_true ⟨dict, w, rfl⟩ trivial
  | some attrs =>
    simp only [preparePush, GetsThrough]
    cases h : p.mustUsePreSignedUrl attrs
      (p.calculateResultSize (withTraceId names dict attrs)) with
    | false =>
      refine iff_of_true ⟨withTraceId names dict attrs, w, ?_⟩ (fun h => nomatch h)
      simp [ResultsProcessor.processResult, h]
    | true =>
      rw [processResult_returns_iff h, contains_withTraceId]
      simp

/-- What the results processor returns is pushed, and nothing else. -/
theorem pushBackendResults_pushes {dict : Dict} {operationAttrs : Option OperationAttributes} :
    (after (pushBackendResults str names p attempts downloads operationId dict operationAttrs)
        w).pushes =
      match preparePush names p dict operationAttrs w with
      | .ok d _ => w.pushes ++ [(operationId, d)]
      | .error _ _ => w.pushes := by
  have hkeep : (after (preparePush names p dict operationAttrs) w).pushes = w.pushes :=
    keeps_preparePush (fun _ _ => rfl) w
  cases hrun : preparePush names p dict operationAttrs w with
  | ok d w' =>
    rw [after_of_ok hrun] at hkeep
    have hpush : pushToBackend attempts operationId d w' =
        .ok (BackendClient.pushResults attempts)
          { w' with pushes := w'.pushes ++ [(operationId, d)] } := rfl
    have hwhole : after (pushBackendResults str names p attempts downloads operationId dict
        operationAttrs) w = after (handlePushResponse str downloads
          (BackendClient.pushResults attempts))
        { w' with pushes := w'.pushes ++ [(operationId, d)] } := by
      unfold after
      rw [pushBackendResults, bind_run_ok hrun, bind_run_ok hpush]
    rw [hwhole, keeps_handlePushResponse, hkeep]
  | error e w' =>
    rw [after_of_error hrun] at hkeep
    have hwhole : after (pushBackendResults str names p attempts downloads operationId dict
        operationAttrs) w = w' := after_of_error (bind_run_error hrun)
    rw [hwhole, hkeep]

theorem pushedOnce_iff_returns {dict : Dict} {operationAttrs : Option OperationAttributes} :
    PushedOnce operationId w
        (after (pushBackendResults str names p attempts downloads operationId dict operationAttrs) w) ↔
      ∃ d w', preparePush names p dict operationAttrs w = .ok d w' := by
  unfold PushedOnce
  rw [pushBackendResults_pushes]
  cases hrun : preparePush names p dict operationAttrs w with
  | ok d w' => exact iff_of_true ⟨d, rfl⟩ ⟨d, w', rfl⟩
  | error e w' => simp

end PublishingLemmas

open PublishingLemmas

/-- A result with a dictionary and no query id is pushed exactly once, in every
state and whatever the storage service and the backend do, if and only if it
gets through the results processor. -/
theorem pushResults_once_iff (str : PyVal → String) (names : AttributeNames) (p : ResultsProcessor)
    (attempts downloads : Nat → Attempt) (result : AgentOperationResult) (dict : Dict)
    (hdict : result.result = some dict) (hquery : result.queryId = none) (w : World) :
    PushedOnce result.operationId w (after (pushResults str names p attempts downloads result) w) ↔
      GetsThrough names p dict result.operationAttrs := by
  have hrun : pushResults str names p attempts downloads result =
      pushBackendResults str names p attempts downloads result.operationId dict
        result.operationAttrs := by
    simp [pushResults, hdict, hquery]
  rw [hrun, pushedOnce_iff_returns, preparePush_returns_iff]

/-- A result of an operation that allows ten bytes. -/
def largeResult : AgentOperationResult where
  operationId := .str "op-1"
  result := some [("__mcd_result__", .int 1)]
  operationAttrs := some
    { operationId := "op-1", traceId := "trace-1", compressResponseFile := false,
      responseSizeLimitBytes := 10 }

/-- A processor with pre-signed urls enabled and the default expiration. -/
def offloadingProcessor (storage : StorageService) : ResultsProcessor where
  storage := storage
  enablePreSignedUrls := true
  int := fun _ => .error ⟨"ValueError", "invalid literal for int()"⟩
  expirationSetting := none
  serialize := fun _ => "\x7b\"__mcd_result__\": 1, \"__mcd_trace_id__\": \"trace-1\"\x7d"
  compress := id

/-- The rule at a result that is offloaded. -/
theorem pushResults_once_iff_offloaded :
    let storage : StorageService := ⟨fun _ _ => .ok (), fun key _ => .ok s!"https://storage/{key}"⟩
    let attempts : Nat → Attempt := fun _ => okAnswer (.dict [])
    PushedOnce largeResult.operationId {} (after (pushResults (fun _ => "") mcdNames
      (offloadingProcessor storage) attempts attempts largeResult) {}) := by
  intro storage attempts
  exact (pushResults_once_iff (fun _ => "") mcdNames (offloadingProcessor storage) attempts attempts
    largeResult [("__mcd_result__", .int 1)] rfl rfl {}).mpr
    fun _ => ⟨⟨rfl, 3600, _, rfl, rfl⟩, by decide⟩

/-- A storage service that raises keeps the result from the backend: nothing is
pushed. -/
theorem failed_offload_not_pushed :
    let storage : StorageService :=
      ⟨fun _ _ => .error ⟨"NotImplementedError", "Not implemented"⟩,
        fun _ _ => .error ⟨"NotImplementedError", "Not implemented"⟩⟩
    let attempts : Nat → Attempt := fun _ => okAnswer (.dict [])
    (after (pushResults (fun _ => "") mcdNames (offloadingProcessor storage) attempts attempts
      largeResult) {}).pushes = [] ∧
    ¬ PushedOnce largeResult.operationId {} (after (pushResults (fun _ => "") mcdNames
      (offloadingProcessor storage) attempts attempts largeResult) {}) := by
  intro storage attempts
  have hrun : (after (pushResults (fun _ => "") mcdNames (offloadingProcessor storage) attempts
      attempts largeResult) {}).pushes = [] := rfl
  refine ⟨hrun, ?_⟩
  rintro ⟨result, hpush⟩
  rw [hrun] at hpush
  cases hpush

end EgressAgent
