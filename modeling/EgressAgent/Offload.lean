import EgressAgent.Lib.System
import EgressAgent.Publishing

/-!
# Offloaded results

A result that is too large for a push goes to the storage service, and the push
carries a pre-signed url to it. A receiver follows the url, which yields the
object that was last written at its key.

`process_result` changes the dictionary of its caller. `processResultInPlace`
is `process_result` on that dictionary, `processResult_inPlace` compares it with
the one that passes values.

1. `processResult_lossless`: which results are offloaded, that a receiver gets
   the original dictionary back, and that a failure leaves it alone.
2. `pushed_result_kept_iff`: what is pushed is the result of the handler, with
   its own trace id or else that of the operation, if and only if the test of
   `_push_backend_results` for a trace id gives the answer for the right key.
3. `offloaded_results_own_iff`: of results offloaded at the same time, each
   location refers to its own result if and only if those that share a trace id
   share their contents.
-/

namespace EgressAgent

open Py Effect Transition
open BackendClient (Attempt)
open PublishingLemmas

/-! ## 1. One offload -/

namespace ResultsProcessor

/-- The agent and the dictionary that a caller of `process_result` keeps. -/
structure Caller where
  world : World
  result : Dict

/-- A method that may change the dictionary of its caller. -/
abbrev InPlace := EStateM PyExc Caller

def onWorld {β : Type} (x : Agent β) : InPlace β := fun c =>
  match x c.world with
  | .ok a w => .ok a { c with world := w }
  | .error e w => .error e { c with world := w }

/-- `result[key] = value` -/
def setEntry (key : String) (value : PyVal) : InPlace Unit :=
  modify fun c => { c with result := Dict.set c.result key value }

/-- `del result[key]` -/
def delEntry (key : String) : InPlace Unit := fun c =>
  match Dict.del c.result key with
  | .ok result => .ok () { c with result }
  | .error e => .error e c

variable (p : ResultsProcessor) (names : AttributeNames) (operationAttrs : OperationAttributes)

/-- `process_result`. It returns the dictionary that it was given. -/
def processResultInPlace : InPlace Unit := do
  let original := (← get).result
  let size := p.calculateResultSize original
  if p.mustUsePreSignedUrl operationAttrs size then
    let key := storageKey operationAttrs
    onWorld (p.write key (p.fileContents operationAttrs original))
    let expirationSeconds ← onWorld (call p.expirationSeconds)
    let url ← onWorld (call (p.storage.generatePresignedUrl key expirationSeconds))
    setEntry attrNameResultLocation (.str url)
    setEntry attrNameResultCompressed (.bool operationAttrs.compressResponseFile)
    delEntry names.result

/-- The upload of `process_result`. -/
def upload (result : Dict) : Agent Unit :=
  p.write (storageKey operationAttrs) (p.fileContents operationAttrs result)

/-- What follows the upload in `process_result`. -/
def locate (result : Dict) : Except PyExc Dict := do
  let expirationSeconds ← p.expirationSeconds
  let url ← p.storage.generatePresignedUrl (storageKey operationAttrs) expirationSeconds
  let result := Dict.set result attrNameResultLocation (.str url)
  let result := Dict.set result attrNameResultCompressed (.bool operationAttrs.compressResponseFile)
  Dict.del result names.result

/-- The calls of `process_result` that may fail, up to the url. -/
def offload (result : Dict) : Except PyExc String := do
  p.storage.write (storageKey operationAttrs) (p.fileContents operationAttrs result)
  let expirationSeconds ← p.expirationSeconds
  p.storage.generatePresignedUrl (storageKey operationAttrs) expirationSeconds

end ResultsProcessor

/-- The bytes of an object. -/
def Contents.toBytes : Contents → ByteArray
  | .text s => s.toUTF8
  | .bytes b => b

/-- The object that was last written at a key. -/
def objectAt (stored : List (String × Contents)) (key : String) : Option Contents :=
  stored.reverse.lookup key

/-- The other end of a push. -/
structure Receiver where
  /-- the key whose object a url yields -/
  locate : String → String
  gunzip : ByteArray → ByteArray
  deserialize : ByteArray → Option Dict

namespace Receiver

variable (r : Receiver)

/-- The serialisation in an object. -/
def payload (compressed : Bool) (contents : Contents) : ByteArray :=
  if compressed then r.gunzip contents.toBytes else contents.toBytes

/-- The dictionary that an offloaded result stands for. -/
def receive (stored : List (String × Contents)) (result : Dict) : Option Dict :=
  match result.lookup attrNameResultLocation, result.lookup attrNameResultCompressed with
  | some (.str url), some (.bool compressed) =>
    (objectAt stored (r.locate url)).bind fun contents =>
      r.deserialize (r.payload compressed contents)
  | _, _ => none

end Receiver

/-- The result is small enough to be pushed itself, or has to be. -/
def Stays (p : ResultsProcessor) (operationAttrs : OperationAttributes) (dict : Dict) : Prop :=
  p.enablePreSignedUrls = false ∨ operationAttrs.responseSizeLimitBytes ≤ 0 ∨
    ((p.serialize dict).toUTF8.size : Int) ≤ operationAttrs.responseSizeLimitBytes

/-- `d` is `dict` with the location of its serialisation in place of its result
entry. -/
structure Located (names : AttributeNames) (operationAttrs : OperationAttributes) (url : String)
    (dict d : Dict) : Prop where
  location : d.lookup attrNameResultLocation = some (.str url)
  compressed : d.lookup attrNameResultCompressed = some (.bool operationAttrs.compressResponseFile)
  result : Dict.contains d names.result = false
  others : ∀ key, key ≠ attrNameResultLocation → key ≠ attrNameResultCompressed →
    key ≠ names.result → d.lookup key = dict.lookup key

namespace OffloadLemmas

variable {p : ResultsProcessor} {names : AttributeNames} {operationAttrs : OperationAttributes}
  {dict d : Dict} {url : String} {w : World}

theorem result_ne_location (names : AttributeNames) : names.result ≠ attrNameResultLocation := by
  intro h
  exact names.result_not_own (by simp [h, attrNameResultLocation])

theorem result_ne_compressed (names : AttributeNames) : names.result ≠ attrNameResultCompressed := by
  intro h
  exact names.result_not_own (by simp [h, attrNameResultCompressed])

theorem location_ne_compressed : attrNameResultLocation ≠ attrNameResultCompressed := by decide

/-- The end of `process_result` puts the location in place of the result. -/
theorem located_of_del
    (h : Dict.del (Dict.set (Dict.set dict attrNameResultLocation (.str url))
      attrNameResultCompressed (.bool operationAttrs.compressResponseFile)) names.result = .ok d) :
    Located names operationAttrs url dict d := by
  refine ⟨?_, ?_, ?_, fun key hlocation hcompressed hresult => ?_⟩
  · rw [Dict.lookup_del_ne h (result_ne_location names).symm,
      Dict.lookup_set_ne _ location_ne_compressed, Dict.lookup_set_self]
  · rw [Dict.lookup_del_ne h (result_ne_compressed names).symm, Dict.lookup_set_self]
  · rw [Dict.contains, Dict.lookup_del_self h, Option.isSome_none]
  · rw [Dict.lookup_del_ne h hresult, Dict.lookup_set_ne _ hcompressed,
      Dict.lookup_set_ne _ hlocation]

theorem locate_eq_ok (h : p.locate names operationAttrs dict = .ok d) :
    ∃ expirationSeconds url,
      p.storage.generatePresignedUrl (ResultsProcessor.storageKey operationAttrs)
        expirationSeconds = .ok url ∧ Located names operationAttrs url dict d := by
  unfold ResultsProcessor.locate at h
  cases he : p.expirationSeconds with
  | error e => simp [he, bind, Except.bind] at h
  | ok expirationSeconds =>
    cases hu : p.storage.generatePresignedUrl (ResultsProcessor.storageKey operationAttrs)
        expirationSeconds with
    | error e => simp [he, hu, bind, Except.bind] at h
    | ok url =>
      simp only [he, hu, bind, Except.bind] at h
      exact ⟨expirationSeconds, url, hu, located_of_del h⟩

theorem processResult_small
    (h : p.mustUsePreSignedUrl operationAttrs (p.calculateResultSize dict) = false) :
    p.processResult names dict operationAttrs w = .ok dict w := by
  simp [ResultsProcessor.processResult, h]

/-- The two halves of an offload. -/
theorem processResult_large
    (h : p.mustUsePreSignedUrl operationAttrs (p.calculateResultSize dict) = true) :
    p.processResult names dict operationAttrs w =
      (do p.upload operationAttrs dict
          call (p.locate names operationAttrs dict)) w := by
  simp only [ResultsProcessor.processResult, h, if_true, ResultsProcessor.upload,
    ResultsProcessor.locate, bind_run]
  cases p.write (ResultsProcessor.storageKey operationAttrs) (p.fileContents operationAttrs dict) w with
  | error e w' => rfl
  | ok _ w' =>
    cases p.expirationSeconds with
    | error e => rfl
    | ok expirationSeconds =>
      cases hu : p.storage.generatePresignedUrl (ResultsProcessor.storageKey operationAttrs)
        expirationSeconds <;> simp [hu, bind, Except.bind]

@[simp] theorem onWorld_run {β : Type} (x : Agent β) (c : ResultsProcessor.Caller) :
    ResultsProcessor.onWorld x c =
      match x c.world with
      | .ok a w => .ok a { c with world := w }
      | .error e w => .error e { c with world := w } := rfl

/-- `process_result` on the dictionary of its caller, which becomes what is
returned and which an exception leaves as it was, if it has a result entry. -/
theorem processResult_inPlace (hresult : Dict.contains dict names.result = true) :
    p.processResultInPlace names operationAttrs ⟨w, dict⟩ =
      match p.processResult names dict operationAttrs w with
      | .ok d w' => .ok () ⟨w', d⟩
      | .error e w' => .error e ⟨w', dict⟩ := by
  simp only [ResultsProcessor.processResultInPlace, ResultsProcessor.processResult, bind_run, get_run]
  cases p.mustUsePreSignedUrl operationAttrs (p.calculateResultSize dict) with
  | false => rfl
  | true =>
    simp only [if_true, bind_run, onWorld_run]
    cases p.write (ResultsProcessor.storageKey operationAttrs) (p.fileContents operationAttrs dict)
        w with
    | error e w' => rfl
    | ok _ w' =>
      cases p.expirationSeconds with
      | error e => rfl
      | ok expirationSeconds =>
        cases hu : p.storage.generatePresignedUrl (ResultsProcessor.storageKey operationAttrs)
            expirationSeconds with
        | error e => simp [hu]
        | ok url =>
          obtain ⟨d, hd⟩ := (Dict.del_isOk_iff _ _).mpr
            ((@contains_located names dict (.str url) (.bool operationAttrs.compressResponseFile)).trans
              hresult)
          simp [ResultsProcessor.setEntry, ResultsProcessor.delEntry, hu, hd]

theorem stays_iff :
    p.mustUsePreSignedUrl operationAttrs (p.calculateResultSize dict) = false ↔
      Stays p operationAttrs dict := by
  unfold ResultsProcessor.mustUsePreSignedUrl ResultsProcessor.calculateResultSize Stays
  rw [Bool.and_eq_false_iff, decide_eq_false_iff_not, not_and_or, Int.not_lt, Int.not_lt]

theorem offload_eq_ok (h : p.offload operationAttrs dict = .ok url) :
    p.storage.write (ResultsProcessor.storageKey operationAttrs)
        (p.fileContents operationAttrs dict) = .ok () ∧
      ∃ expirationSeconds, p.expirationSeconds = .ok expirationSeconds ∧
        p.storage.generatePresignedUrl (ResultsProcessor.storageKey operationAttrs)
          expirationSeconds = .ok url := by
  unfold ResultsProcessor.offload at h
  cases hw : p.storage.write (ResultsProcessor.storageKey operationAttrs)
      (p.fileContents operationAttrs dict) with
  | error e => simp [hw, bind, Except.bind] at h
  | ok _ =>
    cases he : p.expirationSeconds with
    | error e => simp [hw, he, bind, Except.bind] at h
    | ok expirationSeconds =>
      simp only [hw, he, bind, Except.bind] at h
      exact ⟨rfl, expirationSeconds, rfl, h⟩

/-- The state after the object is written. -/
def withObject (p : ResultsProcessor) (operationAttrs : OperationAttributes) (dict : Dict)
    (w : World) : World :=
  { w with stored := w.stored ++
      [(ResultsProcessor.storageKey operationAttrs, p.fileContents operationAttrs dict)] }

theorem upload_ok
    (h : p.storage.write (ResultsProcessor.storageKey operationAttrs)
      (p.fileContents operationAttrs dict) = .ok ()) :
    p.upload operationAttrs dict w = .ok () (withObject p operationAttrs dict w) := by
  rw [ResultsProcessor.upload, ResultsProcessor.write, h]
  rfl

theorem upload_error {e : PyExc}
    (h : p.storage.write (ResultsProcessor.storageKey operationAttrs)
      (p.fileContents operationAttrs dict) = .error e) :
    p.upload operationAttrs dict w = .error e w := by
  rw [ResultsProcessor.upload, ResultsProcessor.write, h]
  rfl

theorem processResult_offloaded
    (hsize : p.mustUsePreSignedUrl operationAttrs (p.calculateResultSize dict) = true)
    (hresult : Dict.contains dict names.result = true)
    (hurl : p.offload operationAttrs dict = .ok url) :
    ∃ d, p.processResult names dict operationAttrs w =
        .ok d (withObject p operationAttrs dict w) ∧ Located names operationAttrs url dict d := by
  obtain ⟨hw, expirationSeconds, he, hu⟩ := offload_eq_ok hurl
  obtain ⟨d, hd⟩ := (Dict.del_isOk_iff _ _).mpr
    ((@contains_located names dict (.str url) (.bool operationAttrs.compressResponseFile)).trans
      hresult)
  have hlocate : p.locate names operationAttrs dict = .ok d := by
    simp only [ResultsProcessor.locate, he, hu, bind, Except.bind]
    exact hd
  refine ⟨d, ?_, located_of_del hd⟩
  rw [processResult_large hsize, bind_run_ok (upload_ok hw), hlocate, call_ok]

theorem processResult_failed {e : PyExc}
    (hsize : p.mustUsePreSignedUrl operationAttrs (p.calculateResultSize dict) = true)
    (hfail : p.offload operationAttrs dict = .error e) :
    ∃ w', p.processResult names dict operationAttrs w = .error e w' := by
  rw [processResult_large hsize]
  unfold ResultsProcessor.offload at hfail
  cases hw : p.storage.write (ResultsProcessor.storageKey operationAttrs)
      (p.fileContents operationAttrs dict) with
  | error e' =>
    rw [hw] at hfail
    cases hfail
    exact ⟨w, bind_run_error (upload_error hw)⟩
  | ok _ =>
    rw [hw] at hfail
    have hlocate : p.locate names operationAttrs dict = .error e := by
      cases he : p.expirationSeconds with
      | error e' =>
        simp only [he, bind, Except.bind] at hfail
        simp only [ResultsProcessor.locate, he, bind, Except.bind]
        cases hfail
        rfl
      | ok expirationSeconds =>
        simp only [he, bind, Except.bind] at hfail
        simp only [ResultsProcessor.locate, he, bind, Except.bind, hfail]
    exact ⟨withObject p operationAttrs dict w, by
      rw [bind_run_ok (upload_ok hw), hlocate, call_error]⟩

theorem objectAt_append_self (stored : List (String × Contents)) (key : String)
    (contents : Contents) : objectAt (stored ++ [(key, contents)]) key = some contents := by
  simp [objectAt]

theorem objectAt_append_ne (stored : List (String × Contents)) {key other : String}
    (h : other ≠ key) (contents : Contents) :
    objectAt (stored ++ [(key, contents)]) other = objectAt stored other := by
  have hne : (other == key) = false := by simpa using h
  simp [objectAt, List.lookup_cons, hne]

/-- The serialisation in the object of a result. -/
theorem payload_fileContents {r : Receiver} (hgunzip : ∀ b, r.gunzip (p.compress b) = b) :
    r.payload operationAttrs.compressResponseFile (p.fileContents operationAttrs dict) =
      (p.serialize dict).toUTF8 := by
  unfold Receiver.payload ResultsProcessor.fileContents
  split
  · exact hgunzip _
  · rfl

end OffloadLemmas

open OffloadLemmas

/-- `process_result` on a dictionary with a result entry. It writes nothing and
leaves the dictionary alone exactly where the result stays. Otherwise, if no
call fails, it writes one object, which carries the serialisation of the
dictionary, compressed as the flag says, and replaces the result entry by the
location, from which a receiver gets the original dictionary; and what a call
raises is raised, with the dictionary as it was. -/
theorem processResult_lossless (names : AttributeNames) (p : ResultsProcessor) (r : Receiver)
    (operationAttrs : OperationAttributes) (dict : Dict)
    (hresult : Dict.contains dict names.result = true)
    (hgunzip : ∀ b, r.gunzip (p.compress b) = b)
    (hdeserialize : r.deserialize (p.serialize dict).toUTF8 = some dict)
    (hlocate : ∀ key expirationSeconds url,
      p.storage.generatePresignedUrl key expirationSeconds = .ok url → r.locate url = key)
    (w : World) :
    let run := p.processResultInPlace names operationAttrs ⟨w, dict⟩
    (run = .ok () ⟨w, dict⟩ ↔ Stays p operationAttrs dict) ∧
    (¬ Stays p operationAttrs dict →
      (∀ url, p.offload operationAttrs dict = .ok url → ∃ d contents,
        let stored := w.stored ++ [(ResultsProcessor.storageKey operationAttrs, contents)]
        run = .ok () ⟨{ w with stored }, d⟩ ∧ Located names operationAttrs url dict d ∧
          r.payload operationAttrs.compressResponseFile contents = (p.serialize dict).toUTF8 ∧
          r.receive stored d = some dict) ∧
      ∀ e, p.offload operationAttrs dict = .error e → ∃ w', run = .error e ⟨w', dict⟩) := by
  intro run
  have hrun : run = _ := processResult_inPlace hresult
  have hlarge (h : ¬ Stays p operationAttrs dict) :
      p.mustUsePreSignedUrl operationAttrs (p.calculateResultSize dict) = true := by
    rw [← stays_iff, Bool.not_eq_false] at h
    exact h
  have hoffloaded (h : ¬ Stays p operationAttrs dict) (url : String)
      (hurl : p.offload operationAttrs dict = .ok url) :
      ∃ d, run = .ok () ⟨withObject p operationAttrs dict w, d⟩ ∧
        Located names operationAttrs url dict d := by
    obtain ⟨d, hd, hlocated⟩ := @processResult_offloaded p names operationAttrs dict url w
      (hlarge h) hresult hurl
    exact ⟨d, by rw [hrun, hd], hlocated⟩
  have hfailed (h : ¬ Stays p operationAttrs dict) (e : PyExc)
      (he : p.offload operationAttrs dict = .error e) : ∃ w', run = .error e ⟨w', dict⟩ := by
    obtain ⟨w', hw'⟩ := @processResult_failed p names operationAttrs dict w e (hlarge h) he
    exact ⟨w', by rw [hrun, hw']⟩
  refine ⟨⟨fun hsame => ?_, fun h => ?_⟩, fun h => ⟨fun url hurl => ?_, hfailed h⟩⟩
  · -- An offload leaves a longer list of objects, or raises.
    by_contra h
    cases hurl : p.offload operationAttrs dict with
    | ok url =>
      obtain ⟨d, hd, _⟩ := hoffloaded h url hurl
      rw [hd] at hsame
      injection hsame with _ hcaller
      have hstored : w.stored ++ [_] = w.stored :=
        congrArg (fun c : ResultsProcessor.Caller => c.world.stored) hcaller
      simp at hstored
    | error e =>
      obtain ⟨w', hw'⟩ := hfailed h e hurl
      rw [hw'] at hsame
      cases hsame
  · rw [hrun, processResult_small (stays_iff.mpr h)]
  · obtain ⟨d, hd, hlocated⟩ := hoffloaded h url hurl
    obtain ⟨_, expirationSeconds, _, hu⟩ := offload_eq_ok hurl
    refine ⟨d, p.fileContents operationAttrs dict, hd, hlocated, payload_fileContents hgunzip, ?_⟩
    simp only [Receiver.receive, hlocated.location, hlocated.compressed, hlocate _ _ _ hu,
      objectAt_append_self, Option.bind_some, payload_fileContents hgunzip, hdeserialize]

/-- Attributes of an operation that allows ten bytes. -/
def smallLimit (operationId traceId : String) : OperationAttributes where
  operationId := operationId
  traceId := traceId
  compressResponseFile := false
  responseSizeLimitBytes := 10

/-- A storage service with a url for the results of two operations. -/
def twoUrls : StorageService where
  write := fun _ _ => .ok ()
  generatePresignedUrl := fun key _ =>
    if key = "responses/trace-1" then .ok "https://storage/responses/trace-1"
    else if key = "responses/trace-2" then .ok "https://storage/responses/trace-2"
    else .error ⟨"KeyError", key⟩

/-- A receiver that knows the urls. -/
def urlReceiver (dict : Dict) : Receiver where
  locate := fun url =>
    if url = "https://storage/responses/trace-1" then "responses/trace-1" else "responses/trace-2"
  gunzip := id
  deserialize := fun _ => some dict

theorem OffloadLemmas.urlReceiver_locate {dict : Dict} (key : String) (expirationSeconds : Int)
    (url : String) (h : twoUrls.generatePresignedUrl key expirationSeconds = .ok url) :
    (urlReceiver dict).locate url = key := by
  simp only [twoUrls] at h
  split_ifs at h with h₁ h₂
  · cases h
    exact h₁.symm
  · cases h
    exact h₂.symm

/-- The rule at a result that is offloaded. -/
theorem processResult_lossless_offloaded :
    let p := offloadingProcessor twoUrls
    let attrs := smallLimit "op-1" "trace-1"
    let dict : Dict := [("__mcd_result__", .int 1), ("__mcd_trace_id__", .str "trace-1")]
    ∃ d stored, p.processResultInPlace mcdNames attrs ⟨{}, dict⟩ = .ok () ⟨{ stored }, d⟩ ∧
      d.lookup attrNameResultLocation = some (.str "https://storage/responses/trace-1") ∧
      (urlReceiver dict).receive stored d = some dict := by
  intro p attrs dict
  have hstays : ¬ Stays p attrs dict := by
    unfold Stays
    decide
  obtain ⟨d, contents, hrun, hlocated, _, hreceive⟩ := ((processResult_lossless mcdNames p
    (urlReceiver dict) attrs dict (by decide) (fun _ => rfl) rfl urlReceiver_locate {}).2
      hstays).1 _ rfl
  exact ⟨d, _, hrun, hlocated.location, hreceive⟩

/-! ## 2. What a push carries -/

/-- `pushed` is the result of the handler: its trace id is the result's own or
else that of the operation, and the other entries are those of the result, up
to the location that replaces the result entry of an offloaded result. -/
structure ResultKept (names : AttributeNames) (p : ResultsProcessor)
    (operationAttrs : OperationAttributes) (dict pushed : Dict) : Prop where
  traceId : pushed.lookup names.traceId =
    some ((dict.lookup names.traceId).getD (.str operationAttrs.traceId))
  stayed : Stays p operationAttrs (withTraceId names dict operationAttrs) →
    ∀ key, key ≠ names.traceId → pushed.lookup key = dict.lookup key
  offloaded : ¬ Stays p operationAttrs (withTraceId names dict operationAttrs) →
    (∃ url, pushed.lookup attrNameResultLocation = some (.str url)) ∧
      pushed.lookup attrNameResultCompressed = some (.bool operationAttrs.compressResponseFile) ∧
      Dict.contains pushed names.result = false ∧
      ∀ key, key ≠ names.traceId → key ≠ attrNameResultLocation →
        key ≠ attrNameResultCompressed → key ≠ names.result →
        pushed.lookup key = dict.lookup key

/-- The result has an entry for `ATTR_NAME_TRACE_ID`, which is tested, exactly
when it has one for `ATTRIBUTE_NAME_TRACE_ID`, which is written, or the write
would not change it. -/
def TraceIdSeen (names : AttributeNames) (operationAttrs : OperationAttributes) (dict : Dict) :
    Prop :=
  Dict.contains dict attrNameTraceId = Dict.contains dict names.traceId ∨
    dict.lookup names.traceId = some (.str operationAttrs.traceId)

namespace OffloadLemmas

variable {str : PyVal → String} {names : AttributeNames} {p : ResultsProcessor}
  {attempts downloads : Nat → Attempt} {operationId : PyVal} {operationAttrs : OperationAttributes}
  {dict pushed : Dict} {w : World}

theorem traceId_ne_location (names : AttributeNames) : names.traceId ≠ attrNameResultLocation := by
  intro h
  exact names.traceId_not_own (by simp [h, attrNameResultLocation])

theorem traceId_ne_compressed (names : AttributeNames) :
    names.traceId ≠ attrNameResultCompressed := by
  intro h
  exact names.traceId_not_own (by simp [h, attrNameResultCompressed])

theorem processResult_returned {d : Dict} {w' : World}
    (h : p.processResult names dict operationAttrs w = .ok d w') :
    (Stays p operationAttrs dict ∧ d = dict) ∨
      (¬ Stays p operationAttrs dict ∧ ∃ url, Located names operationAttrs url dict d) := by
  cases hsize : p.mustUsePreSignedUrl operationAttrs (p.calculateResultSize dict) with
  | false =>
    rw [processResult_small hsize] at h
    cases h
    exact .inl ⟨stays_iff.mp hsize, rfl⟩
  | true =>
    refine .inr ⟨fun hstays => ?_, ?_⟩
    · rw [stays_iff.mpr hstays] at hsize
      cases hsize
    · rw [processResult_large hsize] at h
      cases hw : p.storage.write (ResultsProcessor.storageKey operationAttrs)
          (p.fileContents operationAttrs dict) with
      | error e =>
        rw [bind_run_error (upload_error hw)] at h
        cases h
      | ok _ =>
        rw [bind_run_ok (upload_ok hw)] at h
        cases hl : p.locate names operationAttrs dict with
        | error e =>
          rw [hl] at h
          cases h
        | ok d' =>
          rw [hl] at h
          cases h
          obtain ⟨_, url, _, hlocated⟩ := locate_eq_ok hl
          exact ⟨url, hlocated⟩

theorem preparePush_of_pushes {operationAttrs : Option OperationAttributes}
    (h : (after (pushBackendResults str names p attempts downloads operationId dict operationAttrs)
      w).pushes = w.pushes ++ [(operationId, pushed)]) :
    ∃ w', preparePush names p dict operationAttrs w = .ok pushed w' := by
  rw [pushBackendResults_pushes] at h
  cases hrun : preparePush names p dict operationAttrs w with
  | ok d w' =>
    rw [hrun] at h
    simp only [List.append_cancel_left_eq, List.cons.injEq, Prod.mk.injEq, true_and, and_true] at h
    exact ⟨w', by rw [h]⟩
  | error e w' =>
    rw [hrun] at h
    simp at h

theorem lookup_withTraceId_ne {key : String} (h : key ≠ names.traceId) :
    (withTraceId names dict operationAttrs).lookup key = dict.lookup key := by
  unfold withTraceId
  split
  · rfl
  · exact Dict.lookup_set_ne _ h _

/-- The patch leaves the right trace id where its test sees what is there. -/
theorem lookup_withTraceId_iff :
    (withTraceId names dict operationAttrs).lookup names.traceId =
        some ((dict.lookup names.traceId).getD (.str operationAttrs.traceId)) ↔
      TraceIdSeen names operationAttrs dict := by
  unfold withTraceId TraceIdSeen
  cases htested : Dict.contains dict attrNameTraceId with
  | true =>
    -- Nothing is written, so the entry has to be there.
    cases hown : dict.lookup names.traceId <;> simp [Dict.contains, hown]
  | false =>
    cases hown : dict.lookup names.traceId with
    | none => simp [Dict.contains, hown]
    | some v => simp [Dict.contains, hown, eq_comm]

/-- Only the trace id decides. -/
theorem resultKept_iff {w' : World}
    (h : preparePush names p dict (some operationAttrs) w = .ok pushed w') :
    ResultKept names p operationAttrs dict pushed ↔
      (withTraceId names dict operationAttrs).lookup names.traceId =
        some ((dict.lookup names.traceId).getD (.str operationAttrs.traceId)) := by
  rcases processResult_returned h with ⟨hstays, rfl⟩ | ⟨hlarge, url, hlocated⟩
  · refine ⟨ResultKept.traceId, fun htrace => ⟨htrace, fun _ key hkey => ?_, fun h => ?_⟩⟩
    · exact lookup_withTraceId_ne hkey
    · exact absurd hstays h
  · have hsame := hlocated.others names.traceId (traceId_ne_location names)
      (traceId_ne_compressed names) names.result_ne_traceId.symm
    rw [← hsame]
    refine ⟨ResultKept.traceId, fun htrace => ⟨htrace, fun h => absurd h hlarge, fun _ => ?_⟩⟩
    refine ⟨⟨url, hlocated.location⟩, hlocated.compressed, hlocated.result, ?_⟩
    intro key hkey hlocation hcompressed hresult
    rw [hlocated.others key hlocation hcompressed hresult, lookup_withTraceId_ne hkey]

end OffloadLemmas

/-- A result that is pushed with attributes is pushed as the handler gave it,
with its own trace id or else that of the operation, if and only if the test for
a trace id sees what is there or the operation's trace id is the result's. -/
theorem pushed_result_kept_iff (str : PyVal → String) (names : AttributeNames)
    (p : ResultsProcessor) (attempts downloads : Nat → Attempt) (operationId : PyVal)
    (operationAttrs : OperationAttributes) (dict pushed : Dict) (w : World)
    (hpush : (after (pushBackendResults str names p attempts downloads operationId dict
      (some operationAttrs)) w).pushes = w.pushes ++ [(operationId, pushed)]) :
    ResultKept names p operationAttrs dict pushed ↔ TraceIdSeen names operationAttrs dict := by
  obtain ⟨w', hrun⟩ := preparePush_of_pushes hpush
  rw [resultKept_iff hrun, lookup_withTraceId_iff]

/-- A result with both trace ids, too large for its push. -/
def tracedResult : Dict :=
  [("__mcd_result__", .int 1), ("__mcd_trace_id__", .str "own"), ("trace_id", .str "own")]

/-- The rule at this result. -/
theorem pushed_result_kept_iff_traced :
    let p := offloadingProcessor twoUrls
    let attempts : Nat → Attempt := fun _ => okAnswer (.dict [])
    let attrs := smallLimit "op-1" "trace-1"
    ∃ pushed, (after (pushBackendResults (fun _ => "") mcdNames p attempts attempts (.str "op-1")
        tracedResult (some attrs)) {}).pushes = [(.str "op-1", pushed)] ∧
      ResultKept mcdNames p attrs tracedResult pushed := by
  intro p attempts attrs
  refine ⟨_, rfl, ?_⟩
  exact (pushed_result_kept_iff (fun _ => "") mcdNames p attempts attempts (.str "op-1") attrs
    tracedResult _ {} rfl).mpr (.inl rfl)

/-- A result with a trace id of its own and no `trace_id` is pushed with the
trace id of the operation. -/
theorem own_trace_id_overwritten :
    let p := offloadingProcessor twoUrls
    let attempts : Nat → Attempt := fun _ => okAnswer (.dict [])
    let attrs : OperationAttributes :=
      { operationId := "op-1", traceId := "trace-1", compressResponseFile := false,
        responseSizeLimitBytes := 0 }
    let dict : Dict := [("__mcd_result__", .int 1), ("__mcd_trace_id__", .str "own")]
    let pushed : Dict := [("__mcd_result__", .int 1), ("__mcd_trace_id__", .str "trace-1")]
    (after (pushBackendResults (fun _ => "") mcdNames p attempts attempts (.str "op-1") dict
        (some attrs)) {}).pushes = [(.str "op-1", pushed)] ∧
      ¬ ResultKept mcdNames p attrs dict pushed := by
  intro p attempts attrs dict pushed
  refine ⟨rfl, fun hkept => ?_⟩
  have hother : some (PyVal.str "trace-1") = some (PyVal.str "own") := hkept.traceId
  simp at hother

/-! ## 3. Offloads at the same time -/

namespace Offload

/-- The arguments of a call of `process_result`. -/
structure Job where
  result : Dict
  attrs : OperationAttributes

/-- The control points of a call. -/
inductive OffloadPc
  | start
  /-- the object is written -/
  | uploaded
  | returned (result : Dict)
  | raised (e : PyExc)

/-- The object of the call is written and the call has not failed. -/
def OffloadPc.written : OffloadPc → Bool
  | .uploaded => true
  | .returned _ => true
  | _ => false

/-- How a call ends. -/
def ended : EStateM.Result PyExc World Dict → OffloadPc × World
  | .ok result w => (.returned result, w)
  | .error e w => (.raised e, w)

structure OffloadState (n : Nat) where
  world : World
  calls : Fin n → OffloadPc

section Steps

variable (names : AttributeNames) (p : ResultsProcessor)

/-- One step of a call. The storage service is touched by the write only. -/
def offloadStep (job : Job) (w : World) : OffloadPc → Option (OffloadPc × World)
  | .start =>
    if p.mustUsePreSignedUrl job.attrs (p.calculateResultSize job.result) then
      match p.upload job.attrs job.result w with
      | .ok _ w' => some (.uploaded, w')
      | .error e w' => some (.raised e, w')
    else some (.returned job.result, w)
  | .uploaded =>
    match p.locate names job.attrs job.result with
    | .ok result => some (.returned result, w)
    | .error e => some (.raised e, w)
  | _ => none

/-- The calls for `jobs`, each by a thread of its own. A thread that makes several
calls, one after the other, is one way of interleaving them. -/
def offloads {n : Nat} (jobs : Fin n → Job) (w : World) : System (OffloadState n) (Fin n) where
  init := { world := w, calls := fun _ => .start }
  step s i :=
    (offloadStep names p (jobs i) s.world (s.calls i)).map fun (pc, w) =>
      { world := w, calls := Function.update s.calls i pc }

end Steps

/-- The location in the result of the call `i` refers to an object with the
call's own result, compressed as the flag in the result says. -/
def RefersToOwn {n : Nat} (p : ResultsProcessor) (r : Receiver) (jobs : Fin n → Job)
    (s : OffloadState n) (i : Fin n) : Prop :=
  ∃ d url compressed, s.calls i = .returned d ∧
    d.lookup attrNameResultLocation = some (.str url) ∧
    d.lookup attrNameResultCompressed = some (.bool compressed) ∧
    objectAt s.world.stored (r.locate url) = some
      (if compressed then .bytes (p.compress (p.serialize (jobs i).result).toUTF8)
        else .text (p.serialize (jobs i).result))

/-- The contents that the call `i` writes. -/
def contentsOf {n : Nat} (p : ResultsProcessor) (jobs : Fin n → Job) (i : Fin n) : Contents :=
  p.fileContents (jobs i).attrs (jobs i).result

end Offload

open Offload

namespace OffloadLemmas

variable {names : AttributeNames} {p : ResultsProcessor} {r : Receiver} {n : Nat}
  {jobs : Fin n → Job} {w : World}

/-- The steps of a call in a row are `process_result`. -/
theorem offload_runs_processResult (job : Job) :
    let final := ended (p.processResult names job.result job.attrs w)
    offloadStep names p job w .start = some final ∨
      ∃ w', offloadStep names p job w .start = some (.uploaded, w') ∧
        offloadStep names p job w' .uploaded = some final := by
  intro final
  cases hsize : p.mustUsePreSignedUrl job.attrs (p.calculateResultSize job.result) with
  | false => exact .inl (by simp [offloadStep, hsize, final, processResult_small hsize, ended])
  | true =>
    simp only [final, processResult_large hsize]
    cases hu : p.upload job.attrs job.result w with
    | error e w' => exact .inl (by simp [offloadStep, hsize, hu, bind_run, ended])
    | ok _ w' =>
      refine .inr ⟨w', by simp [offloadStep, hsize, hu], ?_⟩
      rw [bind_run_ok hu]
      cases hl : p.locate names job.attrs job.result <;> simp [offloadStep, hl, ended]

theorem storageKey_inj {a b : OperationAttributes} :
    ResultsProcessor.storageKey a = ResultsProcessor.storageKey b ↔ a.traceId = b.traceId := by
  have hstr (s : String) : toString s = s := rfl
  simp [ResultsProcessor.storageKey, hstr]

/-- The object at the key of a call that has written is that of a call with
this key, and what is returned has a url of the key. -/
structure WriterInv (names : AttributeNames) (p : ResultsProcessor) (jobs : Fin n → Job)
    (s : OffloadState n) : Prop where
  object : ∀ i, (s.calls i).written = true →
    ∃ j, ResultsProcessor.storageKey (jobs j).attrs = ResultsProcessor.storageKey (jobs i).attrs ∧
      objectAt s.world.stored (ResultsProcessor.storageKey (jobs i).attrs) =
        some (contentsOf p jobs j)
  located : ∀ i d, s.calls i = .returned d → ∃ expirationSeconds url,
    p.storage.generatePresignedUrl (ResultsProcessor.storageKey (jobs i).attrs)
      expirationSeconds = .ok url ∧ Located names (jobs i).attrs url (jobs i).result d

/-- What a step of a call can do, for a result that does not stay. -/
inductive OffloadMove (names : AttributeNames) (p : ResultsProcessor) (job : Job) (w : World) :
    OffloadPc → OffloadPc → World → Prop
  | write : OffloadMove names p job w .start .uploaded (withObject p job.attrs job.result w)
  | refuse (e : PyExc) : OffloadMove names p job w .start (.raised e) w
  | locate {d : Dict} : p.locate names job.attrs job.result = .ok d →
      OffloadMove names p job w .uploaded (.returned d) w
  | fail (e : PyExc) : OffloadMove names p job w .uploaded (.raised e) w

theorem offloadStep_move {job : Job} {pc pc' : OffloadPc} {w' : World}
    (hlarge : ¬ Stays p job.attrs job.result)
    (hs : offloadStep names p job w pc = some (pc', w')) :
    OffloadMove names p job w pc pc' w' := by
  unfold offloadStep at hs
  split at hs
  · rw [if_pos (by rwa [← stays_iff, Bool.not_eq_false] at hlarge)] at hs
    cases hw : p.storage.write (ResultsProcessor.storageKey job.attrs)
        (p.fileContents job.attrs job.result) with
    | ok _ =>
      rw [upload_ok hw] at hs
      cases hs
      exact .write
    | error e =>
      rw [upload_error hw] at hs
      cases hs
      exact .refuse e
  · cases hl : p.locate names job.attrs job.result with
    | ok d =>
      rw [hl] at hs
      cases hs
      exact .locate hl
    | error e =>
      rw [hl] at hs
      cases hs
      exact .fail e
  · cases hs

/-- A step that writes nothing. -/
theorem WriterInv.move {s : OffloadState n} (hi : WriterInv names p jobs s) {i : Fin n}
    {pc : OffloadPc} (hwritten : pc.written = true → (s.calls i).written = true)
    (hlocated : ∀ d, pc = .returned d → ∃ expirationSeconds url,
      p.storage.generatePresignedUrl (ResultsProcessor.storageKey (jobs i).attrs)
        expirationSeconds = .ok url ∧ Located names (jobs i).attrs url (jobs i).result d) :
    WriterInv names p jobs { s with calls := Function.update s.calls i pc } := by
  refine ⟨?_, ?_⟩
  · refine (Function.forall_update_iff s.calls fun t pc => pc.written = true → ∃ j,
      ResultsProcessor.storageKey (jobs j).attrs = ResultsProcessor.storageKey (jobs t).attrs ∧
        objectAt s.world.stored (ResultsProcessor.storageKey (jobs t).attrs) =
          some (contentsOf p jobs j)).mpr ⟨?_, fun t _ => hi.object t⟩
    exact fun h => hi.object i (hwritten h)
  · exact (Function.forall_update_iff s.calls fun t pc => ∀ d, pc = .returned d →
      ∃ expirationSeconds url,
        p.storage.generatePresignedUrl (ResultsProcessor.storageKey (jobs t).attrs)
          expirationSeconds = .ok url ∧ Located names (jobs t).attrs url (jobs t).result d).mpr
      ⟨hlocated, fun t _ => hi.located t⟩

/-- A write: the calls with its key now share its object. -/
theorem WriterInv.write {s : OffloadState n} (hi : WriterInv names p jobs s) (i : Fin n) :
    WriterInv names p jobs
      { world := withObject p (jobs i).attrs (jobs i).result s.world,
        calls := Function.update s.calls i .uploaded } := by
  refine ⟨fun t ht => ?_, fun t d ht => ?_⟩
  · by_cases hkey : ResultsProcessor.storageKey (jobs t).attrs =
        ResultsProcessor.storageKey (jobs i).attrs
    · refine ⟨i, hkey.symm, ?_⟩
      rw [hkey]
      exact objectAt_append_self _ _ _
    · have hne : t ≠ i := fun h => hkey (by rw [h])
      change (Function.update s.calls i .uploaded t).written = true at ht
      rw [Function.update_of_ne hne] at ht
      obtain ⟨j, hj, hobject⟩ := hi.object t ht
      exact ⟨j, hj, (objectAt_append_ne _ hkey _).trans hobject⟩
  · change Function.update s.calls i .uploaded t = .returned d at ht
    by_cases hne : t = i
    · subst hne
      rw [Function.update_self] at ht
      cases ht
    · rw [Function.update_of_ne hne] at ht
      exact hi.located t d ht

theorem writerInv_step {s : OffloadState n} {i : Fin n} {pc' : OffloadPc} {w' : World}
    (hi : WriterInv names p jobs s)
    (hs : OffloadMove names p (jobs i) s.world (s.calls i) pc' w') :
    WriterInv names p jobs { world := w', calls := Function.update s.calls i pc' } := by
  generalize hpc : s.calls i = pc at hs
  cases hs with
  | write => exact hi.write i
  | refuse e => exact hi.move nofun nofun
  | locate hl =>
    refine hi.move (fun _ => by rw [hpc]; rfl) ?_
    rintro d ⟨⟩
    exact locate_eq_ok hl
  | fail e => exact hi.move nofun nofun

end OffloadLemmas

/-- A state of any interleaving of the calls in which all have returned: every
location refers to the call's own result if and only if calls that share a trace
id share the contents of their objects. -/
theorem offloaded_results_own_iff (names : AttributeNames) (p : ResultsProcessor) (r : Receiver)
    {n : Nat} (jobs : Fin n → Job) (w : World)
    (hlocate : ∀ key expirationSeconds url,
      p.storage.generatePresignedUrl key expirationSeconds = .ok url → r.locate url = key)
    (hlarge : ∀ i, ¬ Stays p (jobs i).attrs (jobs i).result) {s : OffloadState n}
    (h : (offloads names p jobs w).Reachable s) (hreturned : ∀ i, ∃ d, s.calls i = .returned d) :
    (∀ i, RefersToOwn p r jobs s i) ↔
      ∀ i j, (jobs i).attrs.traceId = (jobs j).attrs.traceId →
        contentsOf p jobs i = contentsOf p jobs j := by
  have hi : WriterInv names p jobs s := by
    refine h.invariant ⟨nofun, nofun⟩ fun s i s' hi _ hs => ?_
    obtain ⟨⟨pc', w'⟩, hstep, rfl⟩ := Option.map_eq_some_iff.mp hs
    exact writerInv_step hi (offloadStep_move (hlarge i) hstep)
  have hobject (i : Fin n) : ∃ j, (jobs j).attrs.traceId = (jobs i).attrs.traceId ∧
      objectAt s.world.stored (ResultsProcessor.storageKey (jobs i).attrs) =
        some (contentsOf p jobs j) := by
    obtain ⟨d, hd⟩ := hreturned i
    obtain ⟨j, hj, hobj⟩ := hi.object i (by rw [hd]; rfl)
    exact ⟨j, storageKey_inj.mp hj, hobj⟩
  -- The object of the call `i` is its own exactly if the location refers to it.
  have hown (i : Fin n) : RefersToOwn p r jobs s i ↔
      objectAt s.world.stored (ResultsProcessor.storageKey (jobs i).attrs) =
        some (contentsOf p jobs i) := by
    obtain ⟨d, hd⟩ := hreturned i
    obtain ⟨_, url, hurl, hlocated⟩ := hi.located i d hd
    constructor
    · rintro ⟨d', url', compressed, hd', hurl', hcompressed, hobj⟩
      rw [hd, OffloadPc.returned.injEq] at hd'
      subst hd'
      rw [hlocated.location, Option.some.injEq, PyVal.str.injEq] at hurl'
      rw [hlocated.compressed, Option.some.injEq, PyVal.bool.injEq] at hcompressed
      subst hurl' hcompressed
      rwa [hlocate _ _ _ hurl] at hobj
    · intro hobj
      refine ⟨d, url, _, hd, hlocated.location, hlocated.compressed, ?_⟩
      rw [hlocate _ _ _ hurl]
      exact hobj
  simp only [hown]
  constructor
  · intro hall i j hij
    have hi' := hall i
    rw [storageKey_inj.mpr hij, hall j, Option.some.injEq] at hi'
    exact hi'.symm
  · intro hshared i
    obtain ⟨j, hj, hobj⟩ := hobject i
    rw [hobj, hshared j i hj]

/-- The texts of two results. -/
def twoTexts : Dict → String
  | [(_, .int 1)] => "\x7b\"__mcd_result__\": 1\x7d"
  | _ => "\x7b\"__mcd_result__\": 2\x7d"

/-- Two results, of operations with the given trace ids. -/
def twoJobs (first second : String) : Fin 2 → Job
  | 0 => ⟨[("__mcd_result__", .int 1)], smallLimit "op-1" first⟩
  | 1 => ⟨[("__mcd_result__", .int 2)], smallLimit "op-2" second⟩

/-- The rule at two results with trace ids of their own. -/
theorem offloaded_results_own_iff_distinct :
    let p := { offloadingProcessor twoUrls with serialize := twoTexts }
    let jobs := twoJobs "trace-1" "trace-2"
    ∃ s, (offloads mcdNames p jobs {}).exec (offloads mcdNames p jobs {}).init [0, 1, 0, 1] = some s ∧
      ∀ i, RefersToOwn p (urlReceiver []) jobs s i := by
  intro p jobs
  have hlarge : ∀ i, ¬ Stays p (jobs i).attrs (jobs i).result := by
    unfold Stays
    decide
  refine ⟨_, rfl, ?_⟩
  refine (offloaded_results_own_iff mcdNames p (urlReceiver []) jobs {} urlReceiver_locate hlarge
    (System.reachable_of_exec (l := [0, 1, 0, 1]) rfl) ?_).mpr ?_
  · exact Fin.forall_fin_two.mpr ⟨⟨_, rfl⟩, ⟨_, rfl⟩⟩
  · exact Fin.forall_fin_two.mpr
      ⟨Fin.forall_fin_two.mpr ⟨fun _ => rfl, fun h => absurd h (by decide)⟩,
        Fin.forall_fin_two.mpr ⟨fun h => absurd h (by decide), fun _ => rfl⟩⟩

/-- Two operations with one trace id: the location in the result of the first
refers to the result of the second. -/
theorem shared_trace_id_crosses :
    let p := { offloadingProcessor twoUrls with serialize := twoTexts }
    let jobs := twoJobs "trace-1" "trace-1"
    (jobs 0).attrs.operationId ≠ (jobs 1).attrs.operationId ∧
      ∃ s, (offloads mcdNames p jobs {}).Reachable s ∧ (∀ i, ∃ d, s.calls i = .returned d) ∧
        objectAt s.world.stored "responses/trace-1" = some (contentsOf p jobs 1) ∧
        ¬ RefersToOwn p (urlReceiver []) jobs s 0 := by
  intro p jobs
  refine ⟨by decide, _, System.reachable_of_exec (l := [0, 1, 0, 1]) rfl,
    Fin.forall_fin_two.mpr ⟨⟨_, rfl⟩, ⟨_, rfl⟩⟩, rfl, ?_⟩
  rintro ⟨d, url, compressed, ⟨⟩, hurl, hcompressed, hobj⟩
  cases hurl
  cases hcompressed
  have htext : "\x7b\"__mcd_result__\": 2\x7d" = "\x7b\"__mcd_result__\": 1\x7d" :=
    Contents.text.inj (Option.some.inj hobj)
  exact absurd htext (by decide)

end EgressAgent
