import EgressAgent.Lib.Simulation
import EgressAgent.Conservation
import EgressAgent.QueueProcessor

/-!
# The queues of the pipeline

The pipeline and the queue processor embed the same `QueueAsyncProcessor._run`, the
one with what the handlers do and the other with the lock and the notifications. Seen
from either of its queues, every run of the pipeline is a run of the queue processor.

1. `Seen` relates a queue and its threads to a processor. What the threads, the
   additions to the queue and `stop()` do to them are steps of the processor.
2. `pipeline_runs_processors`: the workers are a processor of operations, and the
   publisher threads are one of results, with the same items scheduled and taken.
3. `queues_in_order`: what the threads of a queue took in a run and what is still
   queued is what was added, in order.
-/

namespace EgressAgent

open Py Effect Transition
open BackendClient (Attempt)
open OperationsPoller QueueProcessor Shutdown Pipeline ShutdownOrder
open ShutdownOrderLemmas PipelineLemmas

namespace PipelineQueues

/-! ## 1. A queue and its threads -/

/-- The control points of a thread that takes from a queue. -/
inductive QueuePc (T : Type)
  | loopTest
  /-- the section under the lock, entered or woken up in -/
  | enter
  | waiting
  /-- before the call of the handler -/
  | holding (value : T)
  /-- inside the handler -/
  | handling
  | returned

/-- The worker of the processor stands where the thread does. -/
def Stands {T : Type} : QueuePc T → Option (WorkerPc T) → Prop
  | .loopTest, o => o = some .loopTest
  | .enter, o => o = some .enter
  | .waiting, o => ∃ notified since, o = some (.waiting notified since)
  | .holding value, o => ∃ number, o = some (.holding ⟨number, value⟩)
  | .handling, o => ∃ x, o = some (.handling x)
  | .returned, o => o = some .returned

/-- A queue, its threads, and what was added to it and taken from it so far. -/
structure QueueView (T : Type) (threads : Nat) where
  running : Bool
  queue : List T
  pcs : Fin threads → QueuePc T
  scheduled : List T
  taken : List (Nat × T)

/-- An item that a worker took, without its number. -/
def takenValue {T : Type} (x : Nat × Item T) : Nat × T := (x.1, x.2.value)

/-- A queue and its threads, seen as a processor that is between two sections under
its lock. -/
structure Seen {T : Type} {threads : Nat} (v : QueueView T threads) (t : ProcessorState T) :
    Prop where
  running : t.running = v.running
  lock : t.lock = none
  queue : t.queue.map Item.value = v.queue
  spawning : t.spawning = 0
  starts : t.starts = 1
  scheduled : t.scheduled.map Item.value = v.scheduled
  taken : t.taken.map takenValue = v.taken
  workers : ∀ k : Fin threads, Stands (v.pcs k) (t.workers k)

/-- The moves of a thread, with what they leave in the queue and what they take. -/
inductive QueueMove {T : Type} (running : Bool) (queue : List T) :
    QueuePc T → List T → List T → QueuePc T → Prop
  | stays (pc : QueuePc T) : QueueMove running queue pc queue [] pc
  | enters : running = true → QueueMove running queue .loopTest queue [] .enter
  | finishes : running = false → QueueMove running queue .loopTest queue [] .returned
  | leaves : running = false → QueueMove running queue .enter queue [] .returned
  | waits : running = true → queue = [] → QueueMove running queue .enter queue [] .waiting
  | takes {value : T} {rest : List T} : running = true → queue = value :: rest →
      QueueMove running queue .enter rest [value] (.holding value)
  | wakes : QueueMove running queue .waiting queue [] .enter
  | calls (value : T) : QueueMove running queue (.holding value) queue [] .handling
  /-- the handler is called and returns, or raises -/
  | handles (value : T) : QueueMove running queue (.holding value) queue [] .loopTest
  | returns : QueueMove running queue .handling queue [] .loopTest

/-- What a step does to a queue and its threads. -/
inductive QueueChange {T : Type} {threads : Nat} (v : QueueView T threads) :
    QueueView T threads → Prop
  | move (k : Fin threads) {queue taken : List T} {pc : QueuePc T} :
      QueueMove v.running v.queue (v.pcs k) queue taken pc →
      QueueChange v { v with
        queue, pcs := Function.update v.pcs k pc, taken := v.taken ++ taken.map fun x => (k.val, x) }
  | adds (added : List T) : QueueChange v { v with
      queue := v.queue ++ added, scheduled := v.scheduled ++ added }
  | stops : QueueChange v { v with running := false }

end PipelineQueues

open PipelineQueues

namespace PipelineQueuesLemmas

variable {T : Type} {threads : Nat} {v : QueueView T threads} {t t' : ProcessorState T}
  {k : Fin threads} {pc : QueuePc T}

/-- A move of one thread, after which the processor is between two sections again. -/
theorem seen_of_workers (h : Seen v t) {wpc : WorkerPc T} {queue : List T} {taken : List (Nat × T)}
    (hworkers : t'.workers = Function.update t.workers k (some wpc))
    (hstands : Stands pc (some wpc)) (hrunning : t'.running = t.running) (hlock : t'.lock = none)
    (hqueue : t'.queue.map Item.value = queue) (hspawning : t'.spawning = t.spawning)
    (hstarts : t'.starts = t.starts) (hscheduled : t'.scheduled = t.scheduled)
    (htaken : t'.taken.map takenValue = taken) :
    Seen { v with queue, pcs := Function.update v.pcs k pc, taken } t' where
  running := hrunning.trans h.running
  lock := hlock
  queue := hqueue
  spawning := hspawning.trans h.spawning
  starts := hstarts.trans h.starts
  scheduled := hscheduled ▸ h.scheduled
  taken := htaken
  workers k' := by
    show Stands (Function.update v.pcs k pc k') _
    rw [hworkers]
    by_cases hk : k' = k
    · rw [hk, Function.update_self, Function.update_self]
      exact hstands
    · rw [Function.update_of_ne hk, Function.update_of_ne fun h => hk (Fin.ext h)]
      exact h.workers k'

theorem leads_worker {wpc : WorkerPc T} {i : WorkerInput} (hk : t.workers k = some wpc)
    (hs : workerStep t k wpc i = some t') : (processor T threads).Leads StartsOnce t t' := by
  have hstep : (processor T threads).step t (.worker k i) = some t' := by
    show (t.workers k).bind _ = some t'
    rw [hk]
    exact hs
  exact .single (fun h => by cases h) hstep

/-- A step of a thread that leaves the lock and the queue alone. -/
theorem seen_single (h : Seen v t) {wpc wpc' : WorkerPc T} {i : WorkerInput}
    (hk : t.workers k = some wpc) (hs : workerStep t k wpc i = some (t.setWorker k wpc'))
    (hstands : Stands pc (some wpc')) :
    ∃ t', (processor T threads).Leads StartsOnce t t' ∧
      Seen { v with pcs := Function.update v.pcs k pc } t' :=
  ⟨_, leads_worker hk hs, seen_of_workers h rfl hstands rfl h.lock h.queue rfl rfl rfl h.taken⟩

/-- The section under the lock, where there is something to do. -/
theorem leads_locked (h : Seen v t) (hk : t.workers k = some .enter)
    (hwork : (t.queue.isEmpty && t.running) = false)
    (hs : workerStep ({ t with lock := some k.val }.setWorker k .locked) k .locked .go = some t') :
    (processor T threads).Leads StartsOnce t t' := by
  have henter : workerStep t k .enter .go =
      some ({ t with lock := some k.val }.setWorker k .locked) := by
    simp [workerStep, h.lock, hwork]
  have hlocked : ({ t with lock := some k.val }.setWorker k .locked).workers k = some .locked :=
    Function.update_self ..
  exact (leads_worker hk henter).trans (leads_worker hlocked hs)

theorem stands_notifyAll {o : Option (WorkerPc T)} (h : Stands pc o) :
    Stands pc (o.map WorkerPc.notifyAll) := by
  cases pc with
  | waiting =>
    obtain ⟨notified, since, rfl⟩ := h
    exact ⟨true, since, rfl⟩
  | holding value =>
    obtain ⟨number, rfl⟩ := h
    exact ⟨number, rfl⟩
  | handling =>
    obtain ⟨x, rfl⟩ := h
    exact ⟨x, rfl⟩
  | _ =>
    have h : o = some _ := h
    rw [h]
    rfl

/-- The call of the handler. -/
theorem seen_calls {number : Nat} {value : T} (h : Seen v t)
    (hk : t.workers k = some (.holding ⟨number, value⟩)) :
    ∃ t', (processor T threads).Leads StartsOnce t t' ∧
      Seen { v with pcs := Function.update v.pcs k .handling } t' ∧
      t'.workers k = some (.handling ⟨number, value⟩) :=
  ⟨_, leads_worker (i := .go) hk rfl,
    seen_of_workers h rfl ⟨_, rfl⟩ rfl h.lock h.queue rfl rfl rfl h.taken, Function.update_self ..⟩

theorem seen_move (h : Seen v t) {queue taken : List T}
    (hmove : QueueMove v.running v.queue (v.pcs k) queue taken pc) :
    ∃ t', (processor T threads).Leads StartsOnce t t' ∧
      Seen { v with
        queue, pcs := Function.update v.pcs k pc
        taken := v.taken ++ taken.map fun x => (k.val, x) } t' := by
  have hstands := h.workers k
  have hrunning := h.running
  generalize hpc : v.pcs k = pc₀ at hmove hstands
  cases hmove with
  | stays =>
    rw [← hpc, Function.update_eq_self, List.map_nil, List.append_nil]
    exact ⟨t, .refl t, h⟩
  | takes hr hq =>
    obtain ⟨x, rest, hqueue, hvalue, hrest⟩ := List.map_eq_cons_iff.mp (h.queue.trans hq)
    have hs : workerStep ({ t with lock := some k.val }.setWorker k .locked) k .locked .go =
        some ({ t with
          lock := none
          queue := rest
          taken := t.taken ++ [(k.val, x)] }.setWorker k (.holding x)) := by
      simp [workerStep, ProcessorState.setWorker, hrunning, hr, hqueue, Function.update_idem]
    refine ⟨_, leads_locked h hstands (by simp [hqueue]) hs,
      seen_of_workers h rfl ⟨x.number, ?_⟩ rfl rfl hrest rfl rfl rfl ?_⟩
    · rw [← hvalue]
    · show (t.taken ++ [(k.val, x)]).map takenValue = _
      rw [List.map_append, h.taken, ← hvalue]
      rfl
  | leaves hr =>
    rw [List.map_nil, List.append_nil]
    have hs : workerStep ({ t with lock := some k.val }.setWorker k .locked) k .locked .go =
        some ({ t with lock := none }.setWorker k .returned) := by
      simp [workerStep, ProcessorState.setWorker, hrunning, hr, Function.update_idem]
    exact ⟨_, leads_locked h hstands (by simp [hrunning, hr]) hs,
      seen_of_workers h rfl rfl rfl rfl h.queue rfl rfl rfl h.taken⟩
  | waits hr hq =>
    rw [List.map_nil, List.append_nil]
    have hempty : t.queue = [] := List.map_eq_nil_iff.mp (h.queue.trans hq)
    have hs : workerStep t k .enter .go = some (t.setWorker k (.waiting false t.stops)) := by
      simp [workerStep, h.lock, hempty, hrunning, hr]
    exact seen_single h hstands hs ⟨_, _, rfl⟩
  | enters hr =>
    rw [List.map_nil, List.append_nil]
    have hs : workerStep t k .loopTest .go = some (t.setWorker k .enter) := by
      simp [workerStep, hrunning, hr]
    exact seen_single h hstands hs rfl
  | finishes hr =>
    rw [List.map_nil, List.append_nil]
    have hs : workerStep t k .loopTest .go = some (t.setWorker k .returned) := by
      simp [workerStep, hrunning, hr]
    exact seen_single h hstands hs rfl
  | wakes =>
    rw [List.map_nil, List.append_nil]
    obtain ⟨notified, since, hk⟩ := hstands
    have hs : workerStep t k (.waiting notified since) .go = some (t.setWorker k .enter) := rfl
    exact seen_single h hk hs rfl
  | calls value =>
    rw [List.map_nil, List.append_nil]
    obtain ⟨number, hk⟩ := hstands
    obtain ⟨t', hleads, hseen, -⟩ := seen_calls h hk
    exact ⟨t', hleads, hseen⟩
  | handles value =>
    rw [List.map_nil, List.append_nil]
    obtain ⟨number, hk⟩ := hstands
    obtain ⟨t₁, hleads, hseen, hk₁⟩ := seen_calls h hk
    have hs : workerStep t₁ k (.handling ⟨number, value⟩) (.handled (.ok ())) =
        some (t₁.setWorker k .loopTest) := rfl
    obtain ⟨t', hleads', hseen'⟩ := seen_single hseen hk₁ hs (show Stands .loopTest _ from rfl)
    rw [Function.update_idem] at hseen'
    exact ⟨t', hleads.trans hleads', hseen'⟩
  | returns =>
    rw [List.map_nil, List.append_nil]
    obtain ⟨x, hk⟩ := hstands
    have hs : workerStep t k (.handling x) (.handled (.ok ())) = some (t.setWorker k .loopTest) :=
      rfl
    exact seen_single h hk hs rfl

/-- `schedule()`, which notifies the waiting threads. -/
theorem seen_schedule (h : Seen v t) (value : T) :
    ∃ t', (processor T threads).Leads StartsOnce t t' ∧
      Seen { v with queue := v.queue ++ [value], scheduled := v.scheduled ++ [value] } t' := by
  have hs : (processor T threads).step t (.schedule value) = some { t.notifyAll with
      queue := t.queue ++ [⟨t.scheduled.length, value⟩]
      scheduled := t.scheduled ++ [⟨t.scheduled.length, value⟩] } := by
    simp [processor, processorStep, h.lock]
  refine ⟨_, .single (fun h => by cases h) hs, h.running, h.lock, ?_, h.spawning, h.starts, ?_,
    h.taken, fun k => stands_notifyAll (h.workers k)⟩
  · rw [List.map_append, h.queue, List.map_singleton]
  · rw [List.map_append, h.scheduled, List.map_singleton]

theorem seen_adds (h : Seen v t) (added : List T) :
    ∃ t', (processor T threads).Leads StartsOnce t t' ∧
      Seen { v with queue := v.queue ++ added, scheduled := v.scheduled ++ added } t' := by
  induction added generalizing v t with
  | nil =>
    rw [List.append_nil, List.append_nil]
    exact ⟨t, .refl t, h⟩
  | cons value added ih =>
    obtain ⟨t₁, hleads, hseen⟩ := seen_schedule h value
    obtain ⟨t', hleads', hseen'⟩ := ih hseen
    rw [List.append_assoc, List.append_assoc, List.singleton_append] at hseen'
    exact ⟨t', hleads.trans hleads', hseen'⟩

theorem seen_stop (h : Seen v t) :
    ∃ t', (processor T threads).Leads StartsOnce t t' ∧ Seen { v with running := false } t' := by
  have hs : (processor T threads).step t .stop =
      some { t.notifyAll with running := false, stops := t.stops + 1, stopReturned := true } := by
    simp [processor, processorStep, h.lock]
  exact ⟨_, .single (fun h => by cases h) hs, rfl, h.lock, h.queue, h.spawning, h.starts,
    h.scheduled, h.taken, fun k => stands_notifyAll (h.workers k)⟩

theorem seen_change (h : Seen v t) {v' : QueueView T threads} (hs : QueueChange v v') :
    ∃ t', (processor T threads).Leads StartsOnce t t' ∧ Seen v' t' := by
  cases hs with
  | move k hmove => exact seen_move h hmove
  | adds added => exact seen_adds h added
  | stops => exact seen_stop h

/-- A call of `start()` that has started some of its threads. -/
structure Starting (threads started : Nat) (t : ProcessorState T) : Prop where
  running : t.running = true
  lock : t.lock = none
  queue : t.queue = []
  spawning : t.spawning = threads - started
  starts : t.starts = 1
  scheduled : t.scheduled = []
  taken : t.taken = []
  nextWorker : t.nextWorker = started
  workers : ∀ k < started, t.workers k = some .loopTest

theorem exists_starting {started : Nat} (hle : started ≤ threads) :
    ∃ t : ProcessorState T, (processor T threads).Leads StartsOnce (processor T threads).init t ∧
      Starting threads started t := by
  induction started with
  | zero =>
    refine ⟨_, .single (a := .start) (fun _ => rfl) rfl, rfl, rfl, rfl, ?_, rfl, rfl, rfl, rfl, ?_⟩
    · exact Nat.zero_add threads
    · exact fun k hk => absurd hk (Nat.not_lt_zero k)
  | succ started ih =>
    obtain ⟨t, hleads, h⟩ := ih (Nat.le_of_succ_le hle)
    have hspawning : t.spawning ≠ 0 := by
      rw [h.spawning]
      omega
    have hs : (processor T threads).step t .spawn = some { t.setWorker t.nextWorker .loopTest with
        spawning := t.spawning - 1, nextWorker := t.nextWorker + 1 } := if_neg hspawning
    refine ⟨_, hleads.trans (.single (fun h => by cases h) hs), h.running, h.lock, h.queue, ?_,
      h.starts, h.scheduled, h.taken, ?_, fun k hk => ?_⟩
    · show t.spawning - 1 = threads - (started + 1)
      rw [h.spawning, Nat.sub_sub]
    · show t.nextWorker + 1 = started + 1
      rw [h.nextWorker]
    · show Function.update t.workers t.nextWorker (some .loopTest) k = some .loopTest
      rw [h.nextWorker]
      rcases Nat.lt_succ_iff_lt_or_eq.mp hk with hlt | rfl
      · rw [Function.update_of_ne hlt.ne]
        exact h.workers k hlt
      · exact Function.update_self ..

theorem seen_started : ∃ t : ProcessorState T,
    (processor T threads).Leads StartsOnce (processor T threads).init t ∧
      Seen (⟨true, [], fun _ => .loopTest, [], []⟩ : QueueView T threads) t := by
  obtain ⟨t, hleads, h⟩ := exists_starting (T := T) (Nat.le_refl threads)
  refine ⟨t, hleads, h.running, h.lock, ?_, ?_, h.starts, ?_, ?_, fun k => h.workers k k.isLt⟩
  · rw [h.queue, List.map_nil]
  · rw [h.spawning, Nat.sub_self]
  · rw [h.scheduled, List.map_nil]
  · rw [h.taken, List.map_nil]

end PipelineQueuesLemmas

/-! ## 2. The two queues of the pipeline -/

namespace PipelineQueues

def runnerPc : RunnerPc → QueuePc Operation
  | .loopTest => .loopTest
  | .takeItem => .enter
  | .waiting => .waiting
  | .holding op => .holding op
  | .returned => .returned

def publisherPc : PublishPc → QueuePc AgentOperationResult
  | .loopTest => .loopTest
  | .takeItem => .enter
  | .waiting => .waiting
  | .holding result => .holding result
  | .pushing _ _ => .handling
  | .answered _ => .handling
  | .returned => .returned

section Shown

variable {n m : Nat}

/-- What a step adds to a queue. -/
def added {T : Type} (queue : World → List T) (s : PipelineState n m) (_ : PipelineAction n m)
    (s' : PipelineState n m) : List T :=
  (queue s'.world).drop (queue s.world).length

/-- What a worker takes. -/
def runTaken : RunnerInput → RunnerPc → List Operation
  | .go, .holding op => [op]
  | _, _ => []

/-- What a publisher thread takes. -/
def publishTaken : PublishPc → PublishPc → List AgentOperationResult
  | .takeItem, .holding result => [result]
  | _, _ => []

/-- The operation that a step takes from its queue, with the worker. -/
def operationTaken (_ : PipelineState n m) (a : PipelineAction n m) (s' : PipelineState n m) :
    List (Nat × Operation) :=
  match a with
  | .worker k i => (runTaken i (s'.workers k)).map fun op => (k.val, op)
  | _ => []

/-- The result that a step takes from its queue, with the publisher thread. -/
def resultTaken (s : PipelineState n m) (a : PipelineAction n m) (s' : PipelineState n m) :
    List (Nat × AgentOperationResult) :=
  match a with
  | .publisher j _ _ => (publishTaken (s.publishers j) (s'.publishers j)).map fun r => (j.val, r)
  | _ => []

def opsView (s : PipelineState n m) (scheduled : List Operation) (taken : List (Nat × Operation)) :
    QueueView Operation n :=
  ⟨s.running, s.world.opsQueue, runnerPc ∘ s.workers, scheduled, taken⟩

def resultsView (s : PipelineState n m) (scheduled : List AgentOperationResult)
    (taken : List (Nat × AgentOperationResult)) : QueueView AgentOperationResult m :=
  ⟨s.publishing, s.world.resultsQueue, publisherPc ∘ s.publishers, scheduled, taken⟩

end Shown

end PipelineQueues

namespace PipelineQueuesLemmas

variable {str : PyVal → String} {names : AttributeNames} {args : ServiceArgs} {n m : Nat}
  {s s' : PipelineState n m} {a : PipelineAction n m} {w w' : World}
  {operations : List Operation} {takenOperations : List (Nat × Operation)}
  {results : List AgentOperationResult} {takenResults : List (Nat × AgentOperationResult)}

/-! ### The operations -/

theorem length_of_queueMove {T : Type} {running : Bool} {queue queue' taken : List T}
    {pc pc' : QueuePc T} (hs : QueueMove running queue pc queue' taken pc') :
    queue'.length ≤ queue.length := by
  cases hs with
  | takes _ hqueue =>
    rw [hqueue]
    exact Nat.le_succ _
  | _ => exact Nat.le_refl _

/-- A step that at most adds to the queue. -/
theorem opsChange_adds {queued : List Operation} (hrunning : s'.running = s.running)
    (hworkers : s'.workers = s.workers)
    (hqueue : s'.world.opsQueue = s.world.opsQueue ++ queued) (htaken : operationTaken s a s' = []) :
    QueueChange (opsView s operations takenOperations)
      (opsView s' (operations ++ added World.opsQueue s a s')
        (takenOperations ++ operationTaken s a s')) := by
  have hadded : added World.opsQueue s a s' = queued := by
    rw [added, hqueue, List.drop_left]
  simp only [opsView, htaken, hadded, hrunning, hworkers, hqueue, List.append_nil]
  exact .adds queued

/-- A step of a worker. -/
theorem opsChange_move {k : Fin n} {pc : RunnerPc} {taken : List Operation}
    (hs : QueueMove s.running s.world.opsQueue (runnerPc (s.workers k)) s'.world.opsQueue taken
      (runnerPc pc))
    (hrunning : s'.running = s.running) (hworkers : s'.workers = Function.update s.workers k pc)
    (htaken : operationTaken s a s' = taken.map fun op => (k.val, op)) :
    QueueChange (opsView s operations takenOperations)
      (opsView s' (operations ++ added World.opsQueue s a s')
        (takenOperations ++ operationTaken s a s')) := by
  have hadded : added World.opsQueue s a s' = [] :=
    List.drop_of_length_le (length_of_queueMove hs)
  simp only [opsView, htaken, hadded, hrunning, hworkers, List.append_nil, Function.comp_update]
  exact .move k hs

theorem scheduling_adds {operationId : PyVal} {x : Agent Unit} (h : Scheduling operationId w (x w)) :
    ∃ queued, after x w = { w with opsQueue := w.opsQueue ++ queued } := by
  unfold after
  generalize x w = r at h
  cases h with
  | queued event => exact ⟨_, rfl⟩
  | raised e => exact ⟨[], by rw [List.append_nil]⟩

theorem adds_nothing (w : World) : w = { w with opsQueue := w.opsQueue ++ [] } := by
  rw [List.append_nil]

theorem submit_adds (operation : PyVal) (downloads : Nat → Attempt) (w : World) :
    ∃ queued, after (submitOperation (handlePolledOperation str downloads) operation) w =
      { w with opsQueue := w.opsQueue ++ queued } := by
  cases h : acceptable? operation with
  | none =>
    rw [IntakeLemmas.submit_ignored h]
    exact ⟨[], adds_nothing w⟩
  | some op => exact scheduling_adds (submit_run h)

theorem receive_adds (str : PyVal → String) (response : PyVal) (downloads : Nat → Attempt)
    (w : World) :
    ∃ queued, after (handlePushResponse str downloads response) w =
      { w with opsQueue := w.opsQueue ++ queued } := by
  cases h : nextOperation? response with
  | none =>
    rw [handlePushResponse_ignored h]
    exact ⟨[], adds_nothing w⟩
  | some op => exact scheduling_adds (receives_next h)

/-- The polling thread only adds to the queue of the operations. -/
theorem pollMove_adds {running : Bool} {pc pc' : PollPc} {i : PollInput}
    (hs : PollMove str running w pc i pc' w') :
    ∃ queued, w' = { w with opsQueue := w.opsQueue ++ queued } := by
  cases hs with
  | @submitted operation downloads _ hrun => exact after_of_ok hrun ▸ submit_adds operation downloads w
  | @raised operation downloads _ _ hrun =>
    exact after_of_error hrun ▸ submit_adds operation downloads w
  | _ => exact ⟨[], adds_nothing w⟩

/-- So do the publisher threads. -/
theorem publishMove_adds {p : ResultsProcessor} {pc pc' : PublishPc} {i : PublishInput}
    (hs : PublishMove str names p w pc i pc' w') :
    ∃ queued, w'.opsQueue = w.opsQueue ++ queued := by
  cases hs with
  | receive response downloads =>
    obtain ⟨queued, hw⟩ := receive_adds str response downloads w
    exact ⟨queued, hw ▸ rfl⟩
  | @begin result _ _ hrun =>
    have hsame : w'.opsQueue = w.opsQueue :=
      after_of_ok hrun ▸ keeps_beginPush (f := World.opsQueue) (fun _ _ => rfl) result w
    exact ⟨[], hsame.trans (List.append_nil _).symm⟩
  | @refuse result _ =>
    have hsame : (after (beginPush names p result) w).opsQueue = w.opsQueue :=
      keeps_beginPush (fun _ _ => rfl) result w
    exact ⟨[], hsame.trans (List.append_nil _).symm⟩
  | _ => exact ⟨[], (List.append_nil _).symm⟩

theorem runStep_queueMove {running : Bool} {pc pc' : RunnerPc} {i : RunnerInput}
    (hs : runStep names args running w pc i = some (pc', w')) :
    QueueMove running w.opsQueue (runnerPc pc) w'.opsQueue (runTaken i pc') (runnerPc pc') := by
  unfold runStep at hs
  split at hs
  · cases running <;> cases hs
    · exact .finishes rfl
    · exact .enters rfl
  · cases running with
    | false =>
      cases hs
      exact .leaves rfl
    | true =>
      simp only [Bool.not_true, Bool.false_eq_true, if_false] at hs
      split at hs <;> cases hs
      · next hq => exact .waits rfl hq
      · next hq => exact .takes rfl hq
  · cases hs
    exact .wakes
  · next op env logs =>
    cases hs
    have hanswers : AnswersOnce op.operationId
        (executeScheduledOperation names env (args.withLogs logs).build op) :=
      runs_operation _ _ op
    rw [(hanswers w).opsQueue]
    exact .handles op
  · cases hs

theorem ops_change (hs : pipelineStep str names args s a = some s') :
    QueueChange (opsView s operations takenOperations)
      (opsView s' (operations ++ added World.opsQueue s a s')
        (takenOperations ++ operationTaken s a s')) := by
  cases a with
  | poller i =>
    simp only [pipelineStep, Option.ite_none_right_eq_some, Option.map_eq_some_iff] at hs
    obtain ⟨-, ⟨pc, w⟩, hmove, rfl⟩ := hs
    obtain ⟨queued, hw⟩ := pollMove_adds (pollStep_move hmove)
    exact opsChange_adds rfl rfl (congrArg World.opsQueue hw) rfl
  | worker k i =>
    obtain ⟨⟨pc, w⟩, hmove, rfl⟩ := Option.map_eq_some_iff.mp hs
    refine opsChange_move (runStep_queueMove hmove) rfl rfl ?_
    simp only [operationTaken, Function.update_self]
  | publisher j p i =>
    obtain ⟨⟨pc, w⟩, hmove, rfl⟩ := Option.map_eq_some_iff.mp hs
    obtain ⟨queued, hqueue⟩ := publishMove_adds (publishStep_move hmove)
    exact opsChange_adds rfl rfl hqueue rfl
  | timer t =>
    cases hs
    exact opsChange_adds rfl rfl (congrArg World.opsQueue (pushOperation_after t.path)) rfl
  | notifyWorkAvailable =>
    cases hs
    exact opsChange_adds rfl rfl (List.append_nil _).symm rfl
  | stop c =>
    cases hs
    cases c with
    | opsRunner =>
      have hadded : added World.opsQueue s (.stop .opsRunner) (applyStop s .opsRunner) = [] :=
        List.drop_length
      have htaken : operationTaken s (.stop .opsRunner) (applyStop s .opsRunner) = [] := rfl
      rw [hadded, htaken, List.append_nil, List.append_nil]
      exact .stops
    | _ => exact opsChange_adds rfl rfl (List.append_nil _).symm rfl

/-! ### The results -/

/-- A step that at most adds to the queue. -/
theorem resultsChange_adds {queued : List AgentOperationResult}
    (hpublishing : s'.publishing = s.publishing) (hpublishers : s'.publishers = s.publishers)
    (hqueue : s'.world.resultsQueue = s.world.resultsQueue ++ queued)
    (htaken : resultTaken s a s' = []) :
    QueueChange (resultsView s results takenResults)
      (resultsView s' (results ++ added World.resultsQueue s a s')
        (takenResults ++ resultTaken s a s')) := by
  have hadded : added World.resultsQueue s a s' = queued := by
    rw [added, hqueue, List.drop_left]
  simp only [resultsView, htaken, hadded, hpublishing, hpublishers, hqueue, List.append_nil]
  exact .adds queued

/-- A step of a publisher thread. -/
theorem resultsChange_move {j : Fin m} {pc : PublishPc} {taken : List AgentOperationResult}
    (hs : QueueMove s.publishing s.world.resultsQueue (publisherPc (s.publishers j))
      s'.world.resultsQueue taken (publisherPc pc))
    (hpublishing : s'.publishing = s.publishing)
    (hpublishers : s'.publishers = Function.update s.publishers j pc)
    (htaken : resultTaken s a s' = taken.map fun r => (j.val, r)) :
    QueueChange (resultsView s results takenResults)
      (resultsView s' (results ++ added World.resultsQueue s a s')
        (takenResults ++ resultTaken s a s')) := by
  have hadded : added World.resultsQueue s a s' = [] :=
    List.drop_of_length_le (length_of_queueMove hs)
  simp only [resultsView, htaken, hadded, hpublishing, hpublishers, List.append_nil,
    Function.comp_update]
  exact .move j hs

/-- A worker only adds to the queue of the results. -/
theorem runMove_adds {pc pc' : RunnerPc} {i : RunnerInput}
    (hs : RunMove names args w pc i pc' w') :
    ∃ queued, w'.resultsQueue = w.resultsQueue ++ queued := by
  cases hs with
  | execute op env logs =>
    have hanswers : AnswersOnce op.operationId
        (executeScheduledOperation names env (args.withLogs logs).build op) :=
      runs_operation _ _ op
    rcases (hanswers w).resultsQueue with hsame | ⟨r, hr, -⟩
    · exact ⟨[], hsame.trans (List.append_nil _).symm⟩
    · exact ⟨[r], hr⟩
  | _ => exact ⟨[], (List.append_nil _).symm⟩

theorem publishStep_queueMove {p : ResultsProcessor} {publishing : Bool} {pc pc' : PublishPc}
    {i : PublishInput} (hs : publishStep str names p publishing w pc i = some (pc', w')) :
    QueueMove publishing w.resultsQueue (publisherPc pc) w'.resultsQueue (publishTaken pc pc')
      (publisherPc pc') := by
  have hbegin (result : AgentOperationResult) :
      (after (beginPush names p result) w).resultsQueue = w.resultsQueue :=
    keeps_beginPush (fun _ _ => rfl) result w
  unfold publishStep at hs
  split at hs
  · cases publishing <;> cases hs
    · exact .finishes rfl
    · exact .enters rfl
  · cases publishing with
    | false =>
      cases hs
      exact .leaves rfl
    | true =>
      simp only [Bool.not_true, Bool.false_eq_true, if_false] at hs
      split at hs <;> cases hs
      · next hq => exact .waits rfl hq
      · next hq => exact .takes rfl hq
  · cases hs
    exact .wakes
  · next result =>
    split at hs <;> cases hs
    · next hrun =>
      rw [← after_of_ok hrun, hbegin]
      exact .calls result
    · next hrun =>
      rw [← after_of_ok hrun, hbegin]
      exact .handles result
    · next hrun =>
      rw [← after_of_error hrun, hbegin]
      exact .handles result
  · cases hs
    exact .stays .handling
  · next response downloads =>
    cases hs
    obtain ⟨queued, hw⟩ := receive_adds str response downloads w
    rw [hw]
    exact .returns
  · cases hs

theorem results_change (hs : pipelineStep str names args s a = some s') :
    QueueChange (resultsView s results takenResults)
      (resultsView s' (results ++ added World.resultsQueue s a s')
        (takenResults ++ resultTaken s a s')) := by
  cases a with
  | poller i =>
    simp only [pipelineStep, Option.ite_none_right_eq_some, Option.map_eq_some_iff] at hs
    obtain ⟨-, ⟨pc, w⟩, hmove, rfl⟩ := hs
    obtain ⟨queued, hw⟩ := pollMove_adds (pollStep_move hmove)
    have hsame : w.resultsQueue = s.world.resultsQueue := hw ▸ rfl
    exact resultsChange_adds rfl rfl (hsame.trans (List.append_nil _).symm) rfl
  | worker k i =>
    obtain ⟨⟨pc, w⟩, hmove, rfl⟩ := Option.map_eq_some_iff.mp hs
    obtain ⟨queued, hqueue⟩ := runMove_adds (runStep_move hmove)
    exact resultsChange_adds rfl rfl hqueue rfl
  | publisher j p i =>
    obtain ⟨⟨pc, w⟩, hmove, rfl⟩ := Option.map_eq_some_iff.mp hs
    refine resultsChange_move (publishStep_queueMove hmove) rfl rfl ?_
    simp only [resultTaken, Function.update_self]
  | timer t =>
    cases hs
    exact resultsChange_adds rfl rfl (List.append_nil _).symm rfl
  | notifyWorkAvailable =>
    cases hs
    exact resultsChange_adds rfl rfl (List.append_nil _).symm rfl
  | stop c =>
    cases hs
    cases c with
    | resultsPublisher =>
      have hadded :
          added World.resultsQueue s (.stop .resultsPublisher) (applyStop s .resultsPublisher) = [] :=
        List.drop_length
      have htaken : resultTaken s (.stop .resultsPublisher) (applyStop s .resultsPublisher) = [] :=
        rfl
      rw [hadded, htaken, List.append_nil, List.append_nil]
      exact .stops
    | _ => exact resultsChange_adds rfl rfl (List.append_nil _).symm rfl

end PipelineQueuesLemmas

/-! ### The simulations -/

namespace PipelineQueues

open PipelineQueuesLemmas

variable (str : PyVal → String) (names : AttributeNames) (args : ServiceArgs) {n m : Nat}

/-- The workers and their queue after a run, with what it added and took. -/
def opsSeen (l : List (PipelineAction n m)) (s : PipelineState n m) : QueueView Operation n :=
  let S := pipeline str names args n m
  opsView s (S.trace (added World.opsQueue) S.init l) (S.trace operationTaken S.init l)

/-- The publisher threads and their queue after a run, with what it added and took. -/
def resultsSeen (l : List (PipelineAction n m)) (s : PipelineState n m) :
    QueueView AgentOperationResult m :=
  let S := pipeline str names args n m
  resultsView s (S.trace (added World.resultsQueue) S.init l) (S.trace resultTaken S.init l)

def opsSimulation (n m : Nat) :
    Simulation (pipeline str names args n m) (processor Operation n) StartsOnce where
  rel l s t := Seen (opsSeen str names args l s) t
  init := seen_started
  step h hseen hs := by
    rw [opsSeen, System.trace_concat h hs, System.trace_concat h hs]
    exact seen_change hseen (ops_change hs)

def resultsSimulation (n m : Nat) :
    Simulation (pipeline str names args n m) (processor AgentOperationResult m) StartsOnce where
  rel l s t := Seen (resultsSeen str names args l s) t
  init := seen_started
  step h hseen hs := by
    rw [resultsSeen, System.trace_concat h hs, System.trace_concat h hs]
    exact seen_change hseen (results_change hs)

end PipelineQueues

/-- Every run of the pipeline is, seen from the queue of the operations, a run of a
queue processor with the workers for its threads, and seen from the queue of the
results one with the publisher threads. -/
theorem pipeline_runs_processors (str : PyVal → String) (names : AttributeNames)
    (args : ServiceArgs) (n m : Nat) {l : List (PipelineAction n m)} {s : PipelineState n m}
    (h : (pipeline str names args n m).exec (pipeline str names args n m).init l = some s) :
    (∃ t, (processor Operation n).ReachableWhere StartsOnce t ∧
      Seen (opsSeen str names args l s) t) ∧
    ∃ t, (processor AgentOperationResult m).ReachableWhere StartsOnce t ∧
      Seen (resultsSeen str names args l s) t :=
  ⟨(opsSimulation str names args n m).exists_rel h,
    (resultsSimulation str names args n m).exists_rel h⟩

/-- The metrics timer adds an operation, and the one worker takes it. -/
theorem pipeline_runs_processors_timer :
    let args : ServiceArgs := { skipLogs := false, logsService := none }
    let S := pipeline (fun _ => "") mcdNames args 1 1
    let l : List (PipelineAction 1 1) := [.timer .metrics, .worker 0 .go, .worker 0 .go]
    ∃ s, S.exec S.init l = some s ∧
      (opsSeen (fun _ => "") mcdNames args l s).taken.map Prod.fst = [0] ∧
      s.world.opsQueue = [] ∧
      (∃ t, (processor Operation 1).ReachableWhere StartsOnce t ∧
        Seen (opsSeen (fun _ => "") mcdNames args l s) t) ∧
      ∃ t, (processor AgentOperationResult 1).ReachableWhere StartsOnce t ∧
        Seen (resultsSeen (fun _ => "") mcdNames args l s) t := by
  intro args S l
  exact ⟨_, rfl, rfl, rfl, pipeline_runs_processors (fun _ => "") mcdNames args 1 1 (l := l) rfl⟩

/-! ## 3. The order of the items -/

namespace PipelineQueuesLemmas

/-- What is seen of a processor was taken in the order in which it was scheduled. -/
theorem seen_in_order {T : Type} {threads : Nat} {v : QueueView T threads} {t : ProcessorState T}
    (h : (processor T threads).ReachableWhere StartsOnce t) (hseen : Seen v t) :
    v.taken.map Prod.snd ++ v.queue = v.scheduled := by
  have horder := (QueueProcessorLemmas.runInv h).1.order
  rw [← hseen.taken, ← hseen.queue, ← hseen.scheduled, ← horder, List.map_append, List.map_map,
    List.map_map]
  rfl

end PipelineQueuesLemmas

/-- In every run, what the threads of a queue took and then what is still queued is what
was added to the queue, in order: nothing is lost, doubled or overtaken in it. -/
theorem queues_in_order (str : PyVal → String) (names : AttributeNames) (args : ServiceArgs)
    (n m : Nat) {l : List (PipelineAction n m)} {s : PipelineState n m}
    (h : (pipeline str names args n m).exec (pipeline str names args n m).init l = some s) :
    let S := pipeline str names args n m
    (S.trace operationTaken S.init l).map Prod.snd ++ s.world.opsQueue =
      S.trace (added World.opsQueue) S.init l ∧
    (S.trace resultTaken S.init l).map Prod.snd ++ s.world.resultsQueue =
      S.trace (added World.resultsQueue) S.init l := by
  intro S
  obtain ⟨t, ht, hops⟩ := (opsSimulation str names args n m).exists_rel h
  obtain ⟨t', ht', hresults⟩ := (resultsSimulation str names args n m).exists_rel h
  exact ⟨PipelineQueuesLemmas.seen_in_order ht hops,
    PipelineQueuesLemmas.seen_in_order ht' hresults⟩

/-- The operation of a GET is taken, executed and its result pushed. The operation that
comes with the answer is still queued. -/
theorem queues_in_order_piggyback :
    let args : ServiceArgs := { skipLogs := false, logsService := none }
    let S := pipeline (fun _ => "") mcdNames args 1 1
    ∃ s, S.exec S.init piggybackRun = some s ∧ s.world.opsQueue.length = 1 ∧
      (S.trace (added World.opsQueue) S.init piggybackRun).length = 2 ∧
      (S.trace operationTaken S.init piggybackRun).map Prod.snd ++ s.world.opsQueue =
        S.trace (added World.opsQueue) S.init piggybackRun ∧
      (S.trace resultTaken S.init piggybackRun).map Prod.snd ++ s.world.resultsQueue =
        S.trace (added World.resultsQueue) S.init piggybackRun := by
  intro args S
  exact ⟨_, rfl, rfl, rfl, queues_in_order (fun _ => "") mcdNames args 1 1 (l := piggybackRun) rfl⟩

end EgressAgent
