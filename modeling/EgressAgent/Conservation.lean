import EgressAgent.Pipeline

/-!
# Operations are neither lost nor doubled

`operations_conserved`: in every run of the pipeline the ledger is true to the
threads and the queues, so that an operation that was delivered is in one place,
was pushed, or was discarded; it is executed once at most and its result pushed
once at most. `Discards` are the steps that discard one.

One lemma for each kind of thread shows that its steps change the ledger as they
change the rest: `accounted_poll`, `accounted_run` and `accounted_publish`. What
the polling thread and the publisher threads hand on is one argument,
`accounts_handOn`.
-/

namespace EgressAgent

open Py Effect Transition
open BackendClient (Attempt)
open OperationsPoller Shutdown ShutdownOrder Pipeline
open ShutdownOrderLemmas PipelineLemmas

/-! ## What is where -/

namespace Pipeline

/-- The operation that the polling thread has to hand on. -/
def pollIds : PollPc → List PyVal
  | .innerTest operation => ((acceptable? operation).map idOf).toList
  | .submit operation => ((acceptable? operation).map idOf).toList
  | _ => []

/-- The operation that a worker runs. -/
def runIds : RunnerPc → List PyVal
  | .holding op => [op.operationId]
  | _ => []

@[simp] theorem runIds_loopTest : runIds .loopTest = [] := rfl

@[simp] theorem runIds_holding (op : Operation) : runIds (.holding op) = [op.operationId] := rfl

/-- The result that a publisher thread has to push. -/
def resultIds : PublishPc → List PyVal
  | .holding result => [result.operationId]
  | .pushing operationId _ => [operationId]
  | _ => []

@[simp] theorem resultIds_loopTest : resultIds .loopTest = [] := rfl

@[simp] theorem resultIds_holding (result : AgentOperationResult) :
    resultIds (.holding result) = [result.operationId] := rfl

@[simp] theorem resultIds_pushing (operationId : PyVal) (result : Dict) :
    resultIds (.pushing operationId result) = [operationId] := rfl

@[simp] theorem resultIds_answered (response : PyVal) : resultIds (.answered response) = [] := rfl

/-- The operation that a publisher thread has to hand on. -/
def nextIds : PublishPc → List PyVal
  | .answered response => ((nextOperation? response).map idOf).toList
  | _ => []

@[simp] theorem nextIds_loopTest : nextIds .loopTest = [] := rfl

@[simp] theorem nextIds_holding (result : AgentOperationResult) : nextIds (.holding result) = [] := rfl

@[simp] theorem nextIds_pushing (operationId : PyVal) (result : Dict) :
    nextIds (.pushing operationId result) = [] := rfl

@[simp] theorem nextIds_answered (response : PyVal) :
    nextIds (.answered response) = ((nextOperation? response).map idOf).toList := rfl

/-- The ids of the operations and results at a place. -/
def PipelineState.idsAt {n m : Nat} (s : PipelineState n m) : Place n m → List PyVal
  | .polling => pollIds s.poller
  | .delivering j => nextIds (s.publishers j)
  | .opsQueue => s.world.opsQueue.map Operation.operationId
  | .worker k => runIds (s.workers k)
  | .resultsQueue => s.world.resultsQueue.map AgentOperationResult.operationId
  | .publisher j => resultIds (s.publishers j)
  | .pushed => s.world.pushes.map Prod.fst
  | .discarded _ => []

/-- The ledger accounts for the threads, the queues and the pushes. -/
def Accounted {n m : Nat} (s : PipelineState n m) : Prop :=
  s.ledger.Accounts Tag.operationId (fun r => r.kept = true) s.idsAt

/-- The places of the operations that are still to be executed. -/
def Place.ahead {n m : Nat} : Place n m → Bool
  | .polling => true
  | .delivering _ => true
  | .opsQueue => true
  | .worker _ => true
  | _ => false

/-- What is on the record as executed was executed once. -/
def ExecutedOnce {n m : Nat} (s : PipelineState n m) : Prop :=
  Ledger.Done (fun r => r.ahead = true) s.ledger s.executed

/-- The steps that take an operation or its result out of the pipeline without a
push: the code raised, the polling thread was stopped, the method of the
operation schedules no result or the result that reached `_push_results` has no
dictionary to push. -/
inductive Discards (str : PyVal → String) (names : AttributeNames) (args : ServiceArgs) {n m : Nat}
    (s : PipelineState n m) : PipelineAction n m → Discard → Prop
  | submit {operation : PyVal} {downloads : Nat → Attempt} {e : PyExc} {w' : World} :
      s.poller = .submit operation →
      submitOperation (handlePolledOperation str downloads) operation s.world = .error e w' →
      Discards str names args s (.poller (.submit downloads)) (.raised e)
  | stopped {operation : PyVal} : s.poller = .innerTest operation → s.polling = false →
      Discards str names args s (.poller .go) .stopped
  | execute {k : Fin n} {op : Operation} {env : Env} {logs : LogsService} {e : PyExc} {w' : World} :
      s.workers k = .holding op →
      executeScheduledOperation names env (args.withLogs logs).build op s.world = .error e w' →
      Discards str names args s (.worker k (.executed env logs)) (.raised e)
  | unanswered {k : Fin n} {op : Operation} {env : Env} {logs : LogsService} {w' : World}
      {path : PyVal} {method : OperationMethod} :
      s.workers k = .holding op →
      executeScheduledOperation names env (args.withLogs logs).build op s.world = .ok () w' →
      op.event.get attrNamePath (.str "") = .ok path →
      resolveOperationMethod path (args.withLogs logs).build.operationsMapping = .ok (some method) →
      Silent (args.withLogs logs).build method →
      Discards str names args s (.worker k (.executed env logs)) .unanswered
  | prepare {j : Fin m} {p : ResultsProcessor} {result : AgentOperationResult} {e : PyExc}
      {w' : World} :
      s.publishers j = .holding result → beginPush names p result s.world = .error e w' →
      Discards str names args s (.publisher j p .go) (.raised e)
  | reject {j : Fin m} {p : ResultsProcessor} {result : AgentOperationResult} {w' : World} :
      s.publishers j = .holding result → result.result = none →
      beginPush names p result s.world = .ok none w' →
      Discards str names args s (.publisher j p .go) .rejected
  | receive {j : Fin m} {p : ResultsProcessor} {response : PyVal} {downloads : Nat → Attempt}
      {e : PyExc} {w' : World} :
      s.publishers j = .answered response →
      handlePushResponse str downloads response s.world = .error e w' →
      Discards str names args s (.publisher j p (.received downloads)) (.raised e)

end Pipeline

namespace PipelineLemmas

variable {str : PyVal → String} {names : AttributeNames} {args : ServiceArgs}
  {p : ResultsProcessor} {n m : Nat} {s s' : PipelineState n m}

/-- The move of an operation that a step was to schedule. -/
theorem scheduledTo_cases {operationId : PyVal} {w : World}
    {r : EStateM.Result PyExc World Unit} (h : Scheduling operationId w r) :
    (∃ event, r = .ok () { w with opsQueue := w.opsQueue ++ [⟨operationId, event⟩] } ∧
      (scheduledTo w r : Place n m) = .opsQueue) ∨
    ∃ e, r = .error e w ∧ (scheduledTo w r : Place n m) = .discarded (.raised e) := by
  cases h with
  | queued event => exact .inl ⟨event, rfl, by simp [scheduledTo, destination]⟩
  | raised e => exact .inr ⟨e, rfl, by simp [scheduledTo, destination]⟩

/-- A thread hands on the operation that it has at the place `source`, if it has
one. -/
theorem accounts_handOn {L : Ledger (Place n m) Tag} {f : Place n m → List PyVal}
    (h : L.Accounts Tag.operationId (fun r => r.kept = true) f) (source : Place n m)
    (hkept : source.kept = true) (hne : .opsQueue ≠ source) {op? : Option Dict}
    (hids : f source = (op?.map idOf).toList) {x : Agent Unit} {w : World}
    (hsome : ∀ op, op? = some op → Scheduling (idOf op) w (x w))
    (hnone : op? = none → after x w = w) :
    ∃ queued : List Operation, after x w = { w with opsQueue := w.opsQueue ++ queued } ∧
      (L.advance source (scheduledTo w (x w))).Accounts Tag.operationId (fun r => r.kept = true)
        (Function.update (Function.update f source []) .opsQueue
          (f .opsQueue ++ queued.map Operation.operationId)) := by
  cases op? with
  | none =>
    refine ⟨[], by rw [hnone rfl, List.append_nil], ?_⟩
    refine (Ledger.accounts_advance_nil h hkept hids _).congr fun r _ => ?_
    have hsame : Function.update f source [] = f := Function.update_eq_iff.mpr ⟨hids.symm, fun _ _ => rfl⟩
    simp [hsame]
  | some op =>
    rcases scheduledTo_cases (hsome op rfl) with ⟨event, hrun, hto⟩ | ⟨e, hrun, hto⟩
    · refine ⟨[⟨idOf op, event⟩], after_of_ok hrun, ?_⟩
      rw [hto]
      exact Ledger.accounts_advance h hkept hids hne
    · refine ⟨[], by rw [after_of_error hrun, List.append_nil], ?_⟩
      rw [hto]
      have hops : Function.update f source [] .opsQueue = f .opsQueue := Function.update_of_ne hne _ _
      refine (Ledger.accounts_discard h hkept (Place.not_kept_discarded _)).congr fun r _ => ?_
      rw [hids, List.map_nil, List.append_nil, ← hops, Function.update_eq_self]
      rfl

/-! ## The polling thread -/

theorem acceptable?_of_falsy {operation : PyVal} (h : operation.truthy = false) :
    acceptable? operation = none := by
  cases ha : acceptable? operation with
  | none => rfl
  | some op =>
    obtain ⟨rfl, hpath, _⟩ := IntakeLemmas.acceptable?_eq_some ha
    obtain ⟨_, hlookup⟩ := IntakeLemmas.lookup_of_path hpath
    rw [IntakeLemmas.dict_truthy_of_lookup hlookup] at h
    cases h

/-- A step of the polling thread that changes nothing else. -/
theorem accounted_pollPc (h : Accounted s) {pc : PollPc} {observed : Bool} {gets : List Bool}
    (hids : pollIds pc = pollIds s.poller) : Accounted { s with poller := pc, observed, gets } := by
  refine Ledger.Accounts.congr h fun r _ => ?_
  cases r <;> first | rfl | exact hids.symm

/-- The polling thread hands its operation on. -/
theorem accounted_submit (h : Accounted s) {operation : PyVal} {downloads : Nat → Attempt}
    {pc : PollPc} {observed : Bool} {gets : List Bool} (hpc : s.poller = .submit operation)
    (hids : pollIds pc = []) :
    Accounted { s with
      poller := pc
      world := after (submitOperation (handlePolledOperation str downloads) operation) s.world
      ledger := s.ledger.advance .polling (scheduledTo s.world
        (submitOperation (handlePolledOperation str downloads) operation s.world))
      observed, gets } := by
  obtain ⟨queued, hw, hacc⟩ := accounts_handOn h .polling rfl nofun
    (by rw [PipelineState.idsAt, hpc, pollIds])
    (fun op ha => @submit_run str downloads s.world operation op ha) IntakeLemmas.submit_ignored
  rw [hw]
  refine hacc.congr fun r _ => ?_
  cases r <;> simp [PipelineState.idsAt, hids]

theorem accounted_poll (h : Accounted s) {i : PollInput} {pc' : PollPc} {w' : World}
    {observed : Bool} {gets : List Bool}
    (hs : PollMove str s.polling s.world s.poller i pc' w') :
    Accounted { s with
      poller := pc', world := w', ledger := pollLedger str s.world s.ledger s.poller i pc',
      observed, gets } := by
  generalize hpc : s.poller = pc at hs
  cases hs with
  | answer a =>
    cases ha : acceptable? (fetchOperation a) with
    | none =>
      simp only [pollLedger, ha]
      exact accounted_pollPc h (by simp [hpc, pollIds, ha])
    | some op =>
      simp only [pollLedger, ha]
      refine (Ledger.accounts_issue h .polling ⟨.polled, idOf op⟩).congr fun r _ => ?_
      cases r <;> simp [PipelineState.idsAt, hpc, pollIds, ha]
  | empty ht => exact accounted_pollPc h (by simp [hpc, pollIds, acceptable?_of_falsy ht])
  | take => exact accounted_pollPc h (by rw [hpc]; rfl)
  | @drop operation =>
    have htail : (pollIds (.innerTest operation)).tail = [] := by
      cases ha : acceptable? operation <;> simp [pollIds, ha]
    refine (Ledger.accounts_discard h rfl (Place.not_kept_discarded .stopped)).congr fun r _ => ?_
    cases r <;> simp [PipelineState.idsAt, hpc, htail]
    rfl
  | submitted hrun => exact after_of_ok hrun ▸ accounted_submit h hpc rfl
  | raised hrun => exact after_of_error hrun ▸ accounted_submit h hpc rfl
  | _ => exact accounted_pollPc h (by rw [hpc]; rfl)

/-! ## The workers -/

/-- A step of a worker that changes nothing else. -/
theorem accounted_runPc (h : Accounted s) {k : Fin n} {pc : RunnerPc} {executed : List Nat}
    (hids : runIds pc = runIds (s.workers k)) :
    Accounted { s with workers := Function.update s.workers k pc, executed } := by
  refine Ledger.Accounts.congr h fun r _ => ?_
  cases r with
  | worker k' => exact (apply_update_of_eq runIds hids k').symm
  | _ => rfl

/-- Where a worker takes an operation that it ran. -/
theorem executedTo_cases {operationId : PyVal} {x : Agent Unit} (h : AnswersOnce operationId x)
    (w : World) :
    (∃ r, (after x w).resultsQueue = w.resultsQueue ++ [r] ∧ r.operationId = operationId ∧
      (executedTo w (x w) : Place n m) = .resultsQueue) ∨
    (after x w).resultsQueue = w.resultsQueue ∧
      ∃ why, (executedTo w (x w) : Place n m) = .discarded why := by
  have hqueue := (h w).resultsQueue
  unfold after at hqueue ⊢
  cases hrun : x w with
  | ok a w' =>
    rw [hrun] at hqueue
    rcases hqueue with hsame | ⟨r, hr, hid⟩
    · exact .inr ⟨hsame, .unanswered, by simp [executedTo, destination, hsame]⟩
    · exact .inl ⟨r, hr, hid, by simp [executedTo, destination, hr]⟩
  | error e w' =>
    rw [hrun] at hqueue
    rcases hqueue with hsame | ⟨r, hr, hid⟩
    · exact .inr ⟨hsame, .raised e, by simp [executedTo, destination, hsame]⟩
    · exact .inl ⟨r, hr, hid, by simp [executedTo, destination, hr]⟩

/-- A worker runs its operation. -/
theorem accounted_execute (h : Accounted s) {k : Fin n} {op : Operation} {x : Agent Unit}
    {executed : List Nat} (hpc : s.workers k = .holding op) (hx : AnswersOnce op.operationId x) :
    Accounted { s with
      workers := Function.update s.workers k .loopTest
      world := after x s.world
      ledger := s.ledger.advance (.worker k) (executedTo s.world (x s.world))
      executed } := by
  have hhead : s.idsAt (.worker k) = [op.operationId] := by simp [PipelineState.idsAt, hpc, runIds]
  have hops := (hx s.world).opsQueue
  have hpushes := (hx s.world).pushes
  rcases executedTo_cases (n := n) (m := m) hx s.world with ⟨r, hr, hid, hto⟩ | ⟨hr, why, hto⟩
  · rw [hto]
    refine (Ledger.accounts_advance (q := .resultsQueue) h rfl hhead nofun).congr fun r _ => ?_
    cases r <;> simp [PipelineState.idsAt, Function.update_apply, apply_ite runIds, hops,
      hpushes, hr, hid]
  · rw [hto]
    have hout := Ledger.accounts_discard (p := .worker k) h rfl (Place.not_kept_discarded why)
    rw [hhead] at hout
    refine hout.congr fun r _ => ?_
    cases r <;> simp [PipelineState.idsAt, Function.update_apply, apply_ite runIds, hops,
      hpushes, hr]

theorem accounted_run (h : Accounted s) (executed : List Nat) {k : Fin n} {i : RunnerInput}
    {pc' : RunnerPc} {w' : World} (hs : RunMove names args s.world (s.workers k) i pc' w') :
    Accounted { s with
      workers := Function.update s.workers k pc', world := w'
      ledger := runLedger names args k s.world s.ledger (s.workers k) i pc', executed } := by
  generalize hpc : s.workers k = pc at hs
  cases hs with
  | @take op rest hq =>
    have hhead : s.idsAt .opsQueue = op.operationId :: rest.map Operation.operationId := by
      simp [PipelineState.idsAt, hq]
    have hidle : s.idsAt (.worker k) = [] := by simp [PipelineState.idsAt, hpc, runIds]
    refine (Ledger.accounts_advance (q := .worker k) h rfl hhead nofun).congr fun r _ => ?_
    rw [hidle]
    cases r <;> simp [PipelineState.idsAt, Function.update_apply, apply_ite runIds]
  | execute op env logs => exact accounted_execute h hpc (runs_operation _ _ op)
  | _ => exact accounted_runPc h (by rw [hpc]; rfl)

/-! ## The publisher threads -/

/-- A step of a publisher thread that leaves the queues and the pushes alone. -/
theorem accounted_publishPc (h : Accounted s) {j : Fin m} {pc : PublishPc} {w' : World}
    (hresult : resultIds pc = resultIds (s.publishers j))
    (hnext : nextIds pc = nextIds (s.publishers j)) (hops : w'.opsQueue = s.world.opsQueue)
    (hresults : w'.resultsQueue = s.world.resultsQueue) (hpushes : w'.pushes = s.world.pushes) :
    Accounted { s with publishers := Function.update s.publishers j pc, world := w' } := by
  refine Ledger.Accounts.congr h fun r _ => ?_
  cases r with
  | publisher j' => exact (apply_update_of_eq resultIds hresult j').symm
  | delivering j' => exact (apply_update_of_eq nextIds hnext j').symm
  | opsQueue => simp [PipelineState.idsAt, hops]
  | resultsQueue => simp [PipelineState.idsAt, hresults]
  | pushed => simp [PipelineState.idsAt, hpushes]
  | _ => rfl

theorem keeps_beginPush {τ : Type} {f : World → τ} (hf : ∀ w stored, f { w with stored } = f w)
    (result : AgentOperationResult) : Keeps f (beginPush names p result) := by
  unfold beginPush
  split
  · exact keeps_bind (fun _ => rfl) fun _ => keeps_pure _
  · split
    · exact keeps_bind (PublishingLemmas.keeps_preparePush hf) fun _ => keeps_pure _
    · exact keeps_pure _

/-- A publisher thread has nothing to push. -/
theorem accounted_refuse (h : Accounted s) {j : Fin m} {result : AgentOperationResult}
    {why : Discard} (hpc : s.publishers j = .holding result) :
    Accounted { s with
      publishers := Function.update s.publishers j .loopTest
      world := after (beginPush names p result) s.world
      ledger := s.ledger.advance (.publisher j) (.discarded why) } := by
  have hkeeps {τ : Type} {f : World → τ} (hf : ∀ w stored, f { w with stored } = f w) :
      f (after (beginPush names p result) s.world) = f s.world :=
    keeps_beginPush hf result s.world
  have hhead : s.idsAt (.publisher j) = [result.operationId] := by simp [PipelineState.idsAt, hpc]
  have hout := Ledger.accounts_discard (p := .publisher j) h rfl (Place.not_kept_discarded why)
  rw [hhead] at hout
  refine hout.congr fun r _ => ?_
  cases r with
  | delivering j' =>
    have hnext : nextIds .loopTest = nextIds (s.publishers j) := by rw [hpc]; rfl
    simp [PipelineState.idsAt, apply_update_of_eq nextIds hnext]
  | opsQueue => simp [PipelineState.idsAt, hkeeps (f := World.opsQueue) fun _ _ => rfl]
  | resultsQueue => simp [PipelineState.idsAt, hkeeps (f := World.resultsQueue) fun _ _ => rfl]
  | pushed => simp [PipelineState.idsAt, hkeeps (f := World.pushes) fun _ _ => rfl]
  | _ => simp [PipelineState.idsAt, Function.update_apply, apply_ite resultIds]

/-- A publisher thread calls `push_results`. The answer may bring an operation. -/
theorem accounted_push (h : Accounted s) {j : Fin m} {operationId : PyVal} {result : Dict}
    {response : PyVal} (hpc : s.publishers j = .pushing operationId result) :
    let L := s.ledger.advance (.publisher j) .pushed
    Accounted { s with
      publishers := Function.update s.publishers j (.answered response)
      world := { s.world with pushes := s.world.pushes ++ [(operationId, result)] }
      ledger := match nextOperation? response with
        | some op => L.issue (.delivering j) ⟨.piggybacked, idOf op⟩
        | none => L } := by
  have hhead : s.idsAt (.publisher j) = [operationId] := by simp [PipelineState.idsAt, hpc]
  have hnone : s.idsAt (.delivering j) = [] := by simp [PipelineState.idsAt, hpc]
  have hpushed := Ledger.accounts_advance (q := .pushed) h rfl hhead nofun
  cases hn : nextOperation? response with
  | none =>
    refine hpushed.congr fun r _ => ?_
    cases r with
    | delivering j' =>
      by_cases hj : j' = j
      · subst hj
        simp [PipelineState.idsAt, hpc, hn]
      · simp [PipelineState.idsAt, hj]
    | _ => simp [PipelineState.idsAt, Function.update_apply, apply_ite resultIds]
  | some op =>
    refine (Ledger.accounts_issue hpushed (.delivering j) ⟨.piggybacked, idOf op⟩).congr fun r _ => ?_
    cases r with
    | delivering j' =>
      by_cases hj : j' = j
      · subst hj
        simp [PipelineState.idsAt, hpc, hn]
      · simp [PipelineState.idsAt, hj]
    | _ => simp [PipelineState.idsAt, Function.update_apply, apply_ite resultIds]

/-- A publisher thread hands on the operation that its push brought. -/
theorem accounted_receive (h : Accounted s) {j : Fin m} {response : PyVal}
    {downloads : Nat → Attempt} (hpc : s.publishers j = .answered response) :
    Accounted { s with
      publishers := Function.update s.publishers j .loopTest
      world := after (handlePushResponse str downloads response) s.world
      ledger := s.ledger.advance (.delivering j)
        (scheduledTo s.world (handlePushResponse str downloads response s.world)) } := by
  obtain ⟨queued, hw, hacc⟩ := accounts_handOn h (.delivering j) rfl nofun
    (by rw [PipelineState.idsAt, hpc, nextIds])
    (fun op hn => @receives_next str downloads s.world response op hn) handlePushResponse_ignored
  rw [hw]
  refine hacc.congr fun r _ => ?_
  cases r with
  | publisher j' =>
    have hresult : resultIds .loopTest = resultIds (s.publishers j) := by rw [hpc]; rfl
    simp [PipelineState.idsAt, apply_update_of_eq resultIds hresult]
  | _ => simp [PipelineState.idsAt, Function.update_apply, apply_ite nextIds]

theorem accounted_publish (h : Accounted s) {j : Fin m} {i : PublishInput} {pc' : PublishPc}
    {w' : World} (hs : PublishMove str names p s.world (s.publishers j) i pc' w') :
    Accounted { s with
      publishers := Function.update s.publishers j pc', world := w'
      ledger := publishLedger str names p j s.world s.ledger (s.publishers j) i pc' } := by
  generalize hpc : s.publishers j = pc at hs
  cases hs with
  | @take result rest hq =>
    have hhead : s.idsAt .resultsQueue =
        result.operationId :: rest.map AgentOperationResult.operationId := by
      simp [PipelineState.idsAt, hq]
    have hidle : s.idsAt (.publisher j) = [] := by
      rw [PipelineState.idsAt, hpc]
      rfl
    refine (Ledger.accounts_advance (q := .publisher j) h rfl hhead nofun).congr fun r _ => ?_
    rw [hidle]
    cases r with
    | delivering j' =>
      have hnext : nextIds (.holding result) = nextIds (s.publishers j) := by rw [hpc]; rfl
      simp [PipelineState.idsAt, apply_update_of_eq nextIds hnext]
    | _ => simp [PipelineState.idsAt, Function.update_apply, apply_ite resultIds]
  | @begin result dict w' hrun =>
    have hkeeps {τ : Type} {f : World → τ} (hf : ∀ w stored, f { w with stored } = f w) :
        f w' = f s.world := after_of_ok hrun ▸ keeps_beginPush hf result s.world
    exact accounted_publishPc h (by rw [hpc]; rfl) (by rw [hpc]; rfl) (hkeeps fun _ _ => rfl)
      (hkeeps fun _ _ => rfl) (hkeeps fun _ _ => rfl)
  | refuse => exact accounted_refuse h hpc
  | push => exact accounted_push h hpc
  | receive => exact accounted_receive h hpc
  | _ => exact accounted_publishPc h (by rw [hpc]; rfl) (by rw [hpc]; rfl) rfl rfl rfl

/-! ## The pipeline -/

/-- A timer schedules its operation. -/
theorem accounted_timer (h : Accounted s) (t : Timer) :
    Accounted { s with
      world := after (pushOperation t.path) s.world
      ledger := s.ledger.issue .opsQueue ⟨.timer, .str t.path⟩ } := by
  rw [pushOperation_after]
  refine (Ledger.accounts_issue h .opsQueue ⟨.timer, .str t.path⟩).congr fun r _ => ?_
  cases r <;> simp [PipelineState.idsAt]

theorem pollIds_notifyAll (pc : PollPc) : pollIds pc.notifyAll = pollIds pc := by
  cases pc <;> rfl

theorem accounted_step {a : PipelineAction n m} (h : Accounted s)
    (hs : PipelineMove str names args s a s') : Accounted s' := by
  cases hs with
  | poll _ hmove => exact accounted_poll h hmove
  | run hmove => exact accounted_run h _ hmove
  | publish hmove => exact accounted_publish h hmove
  | timer t => exact accounted_timer h t
  | notify => exact accounted_pollPc h (pollIds_notifyAll s.poller)
  | stop c =>
    cases c with
    | operationsPoller =>
      refine Ledger.Accounts.congr h fun r _ => ?_
      cases r <;> first | rfl | exact (pollIds_notifyAll s.poller).symm
    | _ => exact h

/-! ### Executed once -/

theorem noReturn_of_move {L L' : Ledger (Place n m) Tag} {submits : Bool}
    (h : LedgerMove L submits L') : Ledger.NoReturn (fun r => r.ahead = true) L L' := by
  cases h with
  | idle => exact Ledger.noReturn_refl
  | poll => exact Ledger.noReturn_issue
  | schedule => exact Ledger.noReturn_issue
  | pushAnswered j =>
    have hpushed : Ledger.NoReturn (fun r => r.ahead = true) L (L.advance (.publisher j) .pushed) :=
      Ledger.noReturn_advance nofun
    exact hpushed.trans Ledger.noReturn_issue
  | takeResult => exact Ledger.noReturn_advance nofun
  | refuse => exact Ledger.noReturn_advance nofun
  | push => exact Ledger.noReturn_advance nofun
  | _ => exact Ledger.noReturn_advance fun _ => rfl

/-- What a worker takes an operation to is behind the execution. -/
theorem executedTo_behind (w : World) (r : EStateM.Result PyExc World Unit) :
    ¬ (executedTo w r : Place n m).ahead = true := by
  unfold executedTo destination
  split <;> split <;> nofun

theorem executedOnce_run (hacc : Accounted s) (h : ExecutedOnce s) {k : Fin n} {i : RunnerInput}
    {pc' : RunnerPc} {w' : World} (hs : RunMove names args s.world (s.workers k) i pc' w') :
    ExecutedOnce { s with
      workers := Function.update s.workers k pc', world := w'
      ledger := runLedger names args k s.world s.ledger (s.workers k) i pc'
      executed := recordExecution k s.ledger s.executed i } := by
  have hacc' := accounted_run hacc (recordExecution k s.ledger s.executed i) hs
  generalize hpc : s.workers k = pc at hs hacc'
  cases hs with
  | take => exact Ledger.Done.noReturn h (Ledger.noReturn_advance fun _ => rfl)
  | execute op env logs =>
    have hempty := hacc' (.worker k) rfl
    simp only [PipelineState.idsAt, Function.update_self, runIds_loopTest, Ledger.labels,
      List.map_eq_nil_iff] at hempty
    exact Ledger.Done.advance h rfl (executedTo_behind _ _) hempty
  | _ => exact h

theorem executedOnce_step {a : PipelineAction n m} (hacc : Accounted s) (h : ExecutedOnce s)
    (hs : PipelineMove str names args s a s') : ExecutedOnce s' := by
  have hledger := noReturn_of_move (ledgerMove hs)
  cases hs with
  | run hmove => exact executedOnce_run hacc h hmove
  | stop c => cases c <;> exact h
  | _ => exact Ledger.Done.noReturn h hledger

/-! ### Why something is discarded -/

theorem discarded_of_advance {L : Ledger (Place n m) Tag} {a b : Place n m} {why : Discard}
    {t : Token Tag} (hb : b.kept = true) (ht : t ∈ (L.advance a b).held (.discarded why)) :
    t ∈ L.held (.discarded why) := by
  rcases Ledger.mem_advance ht with hold | ⟨rfl, _⟩
  · exact hold
  · cases hb

theorem discarded_of_issue {L : Ledger (Place n m) Tag} {a : Place n m} {tag : Tag} {why : Discard}
    {t : Token Tag} (ha : a.kept = true) (ht : t ∈ (L.issue a tag).held (.discarded why)) :
    t ∈ L.held (.discarded why) := by
  rcases Ledger.mem_issue ht with hold | ⟨rfl, _⟩
  · exact hold
  · cases ha

/-- What a thread cannot hand on raised. -/
theorem discarded_handOn {L : Ledger (Place n m) Tag} {source : Place n m} {op? : Option Dict}
    {x : Agent Unit} {w : World} {why : Discard} {t : Token Tag}
    (hids : (L.labels source).map Tag.operationId = (op?.map idOf).toList)
    (hsome : ∀ op, op? = some op → Scheduling (idOf op) w (x w))
    (ht : t ∈ (L.advance source (scheduledTo w (x w))).held (.discarded why)) :
    t ∈ L.held (.discarded why) ∨ ∃ e, x w = .error e w ∧ why = .raised e := by
  rcases Ledger.mem_advance ht with hold | ⟨hto, hsource⟩
  · exact .inl hold
  · cases op? with
    | none =>
      have hnil : L.held source = [] := by simpa [Ledger.labels] using hids
      rw [hnil] at hsource
      cases hsource
    | some op =>
      cases scheduledTo_cases (n := n) (m := m) (hsome op rfl) with
      | inl hqueued =>
        obtain ⟨event, _, hqueue⟩ := hqueued
        rw [hqueue] at hto
        cases hto
      | inr hraised =>
        obtain ⟨e, hrun, hout⟩ := hraised
        rw [hout] at hto
        cases hto
        exact .inr ⟨e, hrun, rfl⟩

/-- A discarded operation of a worker raised, or was run by a method that
answers nothing. -/
theorem discarded_executed {k : Fin n} {op : Operation} {env : Env} {logs : LogsService}
    {why : Discard} (hpc : s.workers k = .holding op)
    (hto : (.discarded why : Place n m) = executedTo s.world
      (executeScheduledOperation names env (args.withLogs logs).build op s.world)) :
    Discards str names args s (.worker k (.executed env logs)) why := by
  have honce : Answers op.operationId s.world
      (after (executeScheduledOperation names env (args.withLogs logs).build op) s.world) :=
    runs_operation env _ op s.world
  cases hrun : executeScheduledOperation names env (args.withLogs logs).build op s.world with
  | ok a w' =>
    rw [hrun, executedTo, destination] at hto
    rw [after_of_ok hrun] at honce
    split at hto
    · cases hto
    · next hlength =>
      cases hto
      have hnone : w'.resultsQueue = s.world.resultsQueue := by
        rcases honce.resultsQueue with hsame | ⟨r, hr, _⟩
        · exact hsame
        · simp [hr] at hlength
      obtain ⟨path, method, hpath, hmethod, hsilent⟩ := unanswered_silent hrun hnone
      exact .unanswered hpc hrun hpath hmethod hsilent
  | error e w' =>
    rw [hrun, executedTo, destination] at hto
    split at hto <;> cases hto
    exact .execute hpc hrun

theorem discards_poll {i : PollInput} {pc' : PollPc} {w' : World} {why : Discard} {t : Token Tag}
    (hacc : Accounted s) (hs : PollMove str s.polling s.world s.poller i pc' w')
    (ht : t ∈ (pollLedger str s.world s.ledger s.poller i pc').held (.discarded why)) :
    t ∈ s.ledger.held (.discarded why) ∨ Discards str names args s (.poller i) why := by
  generalize hpc : s.poller = pc at hs ht
  have hsubmit {operation : PyVal} {downloads : Nat → Attempt}
      (hpc : s.poller = .submit operation)
      (ht : t ∈ (s.ledger.advance .polling (scheduledTo s.world (submitOperation
        (handlePolledOperation str downloads) operation s.world))).held (.discarded why)) :
      t ∈ s.ledger.held (.discarded why) ∨
        Discards str names args s (.poller (.submit downloads)) why := by
    have hids := hacc .polling rfl
    rw [PipelineState.idsAt, hpc, pollIds] at hids
    refine (discarded_handOn hids (fun op => submit_run) ht).imp id ?_
    rintro ⟨e, hrun, rfl⟩
    exact .submit hpc hrun
  cases hs with
  | answer a =>
    simp only [pollLedger] at ht
    split at ht
    · exact .inl (discarded_of_issue rfl ht)
    · exact .inl ht
  | drop _ hr =>
    cases Ledger.mem_advance ht with
    | inl hold => exact .inl hold
    | inr hmoved =>
      cases hmoved.1
      exact .inr (.stopped hpc hr)
  | submitted => exact hsubmit hpc ht
  | raised => exact hsubmit hpc ht
  | _ => exact .inl ht

theorem discards_run {k : Fin n} {i : RunnerInput} {pc' : RunnerPc} {w' : World} {why : Discard}
    {t : Token Tag} (hs : RunMove names args s.world (s.workers k) i pc' w')
    (ht : t ∈ (runLedger names args k s.world s.ledger (s.workers k) i pc').held (.discarded why)) :
    t ∈ s.ledger.held (.discarded why) ∨ Discards str names args s (.worker k i) why := by
  generalize hpc : s.workers k = pc at hs ht
  cases hs with
  | take => exact .inl (discarded_of_advance rfl ht)
  | execute =>
    cases Ledger.mem_advance ht with
    | inl hold => exact .inl hold
    | inr hmoved => exact .inr (discarded_executed hpc hmoved.1)
  | _ => exact .inl ht

/-- Without a dictionary there is nothing to push. -/
theorem result_eq_none_of_beginPush {result : AgentOperationResult} {w w' : World}
    (h : beginPush names p result w = .ok none w') : result.result = none := by
  cases hresult : result.result with
  | none => rfl
  | some dict =>
    simp only [beginPush, hresult] at h
    split at h
    · cases h
    · cases hrun : preparePush names p dict result.operationAttrs w with
      | ok dict' w₁ =>
        rw [bind_run_ok hrun] at h
        cases h
      | error e w₁ =>
        rw [bind_run_error hrun] at h
        cases h

theorem discards_publish {j : Fin m} {i : PublishInput} {pc' : PublishPc} {w' : World}
    {why : Discard} {t : Token Tag} (hacc : Accounted s)
    (hs : PublishMove str names p s.world (s.publishers j) i pc' w')
    (ht : t ∈ (publishLedger str names p j s.world s.ledger (s.publishers j) i pc').held
      (.discarded why)) :
    t ∈ s.ledger.held (.discarded why) ∨ Discards str names args s (.publisher j p i) why := by
  generalize hpc : s.publishers j = pc at hs ht
  cases hs with
  | take => exact .inl (discarded_of_advance rfl ht)
  | @refuse result hnone =>
    cases Ledger.mem_advance ht with
    | inl hold => exact .inl hold
    | inr hmoved =>
      cases hrun : beginPush names p result s.world with
      | ok dict? w' =>
        cases dict? with
        | none =>
          rw [hrun] at hmoved
          cases hmoved.1
          exact .inr (.reject hpc (result_eq_none_of_beginPush hrun) hrun)
        | some dict => exact absurd hrun (hnone dict w')
      | error e w' =>
        rw [hrun] at hmoved
        cases hmoved.1
        exact .inr (.prepare hpc hrun)
  | push =>
    simp only [publishLedger] at ht
    split at ht
    · exact .inl (discarded_of_advance rfl (discarded_of_issue rfl ht))
    · exact .inl (discarded_of_advance rfl ht)
  | receive response downloads =>
    have hids := hacc (.delivering j) rfl
    rw [PipelineState.idsAt, hpc, nextIds_answered] at hids
    refine (discarded_handOn hids (fun op => receives_next) ht).imp id ?_
    rintro ⟨e, hrun, rfl⟩
    exact .receive hpc hrun
  | _ => exact .inl ht

theorem discards_step {a : PipelineAction n m} {why : Discard} {t : Token Tag} (hacc : Accounted s)
    (hs : PipelineMove str names args s a s') (ht : t ∈ s'.ledger.held (.discarded why)) :
    t ∈ s.ledger.held (.discarded why) ∨ Discards str names args s a why := by
  cases hs with
  | poll _ hmove => exact discards_poll hacc hmove ht
  | run hmove => exact discards_run hmove ht
  | publish hmove => exact discards_publish hacc hmove ht
  | timer => exact .inl (discarded_of_issue rfl ht)
  | notify => exact .inl ht
  | stop c => cases c <;> exact .inl ht

/-! ### Every run -/

theorem accounted_of_reachable (h : (pipeline str names args n m).Reachable s) : Accounted s := by
  refine h.invariant ?_ ?_
  · intro r _
    cases r <;> rfl
  · exact fun s a s' hi _ hs => accounted_step hi (pipelineStep_move hs)

theorem executedOnce_of_reachable (h : (pipeline str names args n m).Reachable s) :
    ExecutedOnce s := by
  refine h.invariant_with (fun _ => accounted_of_reachable) Ledger.done_nil ?_
  exact fun s a s' hacc hi _ hs => executedOnce_step hacc hi (pipelineStep_move hs)

end PipelineLemmas

/-- What is true of the operations that were delivered. -/
structure Pipeline.Conserved {n m : Nat} (s : PipelineState n m) : Prop where
  /-- The operations in the threads and in the queue of the workers, the results
  in the threads and in the queue of the publisher threads, and the pushes, are
  those whose tokens are there. -/
  accounted : Accounted s
  /-- A token is at one place. -/
  place : ∀ k < s.ledger.issued, ∃! r, ∃ t ∈ s.ledger.held r, t.number = k
  /-- It is there once. -/
  once : ∀ r, ((s.ledger.held r).map Token.number).Nodup
  /-- Its operation was executed once at most. -/
  executed : s.executed.Nodup

/-- In every run of the pipeline, with any number of workers and publisher
threads, an operation that was delivered is at one place in the pipeline, was
pushed once or was discarded, its result was pushed once at most, and it was
executed once at most. A step that discards it raised, was that of a stopped
poller, ran a method that schedules no result or had nothing to push. -/
theorem operations_conserved (str : PyVal → String) (names : AttributeNames) (args : ServiceArgs)
    {n m : Nat} {s : PipelineState n m} (h : (pipeline str names args n m).Reachable s) :
    Conserved s ∧
      ∀ a s', (pipeline str names args n m).step s a = some s' →
        ∀ why, ∀ t ∈ s'.ledger.held (.discarded why),
          t ∈ s.ledger.held (.discarded why) ∨ Discards str names args s a why := by
  have hacc := accounted_of_reachable h
  refine ⟨⟨hacc, fun k hk => ?_, s.ledger.nodup, (executedOnce_of_reachable h).nodup⟩, ?_⟩
  · obtain ⟨r, t, ht, hnumber⟩ := s.ledger.complete hk
    refine ⟨r, ⟨t, ht, hnumber⟩, ?_⟩
    rintro q ⟨u, hu, hnumber'⟩
    exact s.ledger.unique hu ht (hnumber'.trans hnumber.symm)
  · exact fun a s' hs why t ht => discards_step hacc (pipelineStep_move hs) ht

/-- The operation of a GET is executed and its result pushed. The answer brings
an operation with the same id. -/
def piggybackRun : List (PipelineAction 1 1) :=
  let operation := PyVal.dict
    [(attrNamePath, .str "/api/v1/test/health"), (attrNameOperationId, .str "op-1")]
  let next := PyVal.dict [(attrNameNextOperation, operation)]
  [.poller .go, .poller (.canAccept true), .poller (.get (okAnswer operation)), .poller .go,
    .poller .go, .poller (.submit fun _ => okAnswer .none), .worker 0 .go, .worker 0 .go,
    .worker 0 (.executed failingEnv ⟨fun _ => .ok [], false, .ok []⟩),
    .publisher 0 plainProcessor .go, .publisher 0 plainProcessor .go,
    .publisher 0 plainProcessor .go, .publisher 0 plainProcessor (.pushed fun _ => okAnswer next),
    .publisher 0 plainProcessor (.received fun _ => okAnswer .none)]

/-- The two operations with one id are two tokens: the first was executed and
pushed, the second waits in the queue. -/
theorem operations_conserved_piggyback :
    let args : ServiceArgs := { skipLogs := false, logsService := none }
    let S := pipeline (fun _ => "") mcdNames args 1 1
    ∃ s, S.exec S.init piggybackRun = some s ∧ s.world.pushes.length = 1 ∧ s.executed = [0] ∧
      (s.ledger.labels .pushed).map Tag.source = [.polled] ∧
      (s.ledger.labels .opsQueue).map Tag.source = [.piggybacked] ∧ Conserved s := by
  intro args S
  have hrun : (S.exec S.init piggybackRun).map (fun s => (s.world.pushes.length, s.executed,
      (s.ledger.labels .pushed).map Tag.source, (s.ledger.labels .opsQueue).map Tag.source)) =
      some (1, [0], [.polled], [.piggybacked]) := by decide +kernel
  obtain ⟨s, hs, hends⟩ := Option.map_eq_some_iff.mp hrun
  simp only [Prod.mk.injEq] at hends
  obtain ⟨hpushes, hexecuted, hpushed, hqueued⟩ := hends
  refine ⟨s, hs, hpushes, hexecuted, hpushed, hqueued, ?_⟩
  exact (operations_conserved (fun _ => "") mcdNames args (System.reachable_of_exec hs)).1

end EgressAgent
