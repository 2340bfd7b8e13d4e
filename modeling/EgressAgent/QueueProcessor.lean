import Mathlib.Data.List.Nodup
import EgressAgent.Lib.System
import EgressAgent.Lib.PyVal

/-!
# The queue processor

`QueueAsyncProcessor` as a transition system over any type of items. Its
threads are the workers. `start()`, `stop()` and `schedule()` may be called by
any thread at any time, by a handler too, since a worker calls it outside the
lock.

`stop()` and `schedule()` are one step each, the section of `_run` under the
lock is two: `start()` writes `_running` without the lock, so that its write may
fall between the two tests of the flag there. A worker that waits may wake at
any time, by a notification or spuriously. The `_describe_param` of a subclass
is taken not to raise.

1. `processor_conserves`: with `start()` called once, items are taken in the
   order in which they were scheduled, each by one worker that hands it to the
   handler once, none after a `stop()` of the started processor, and no worker
   leaves its loop before it. `stop_before_start`: an earlier `stop()` does not
   count.
2. `no_sleep_on_work`: whatever the calls, a worker that waits and was not
   notified finds an empty queue and no `stop()` since it began to wait.
-/

namespace EgressAgent

open Py Transition

namespace QueueProcessor

/-! ## The processor -/

/-- A scheduled item. Its number in the order of the `schedule` calls tells it
from equal items. -/
structure Item (T : Type) where
  number : Nat
  value : T

/-- The control points of a worker, in `_run` and `_invoke_handler`. -/
inductive WorkerPc (T : Type)
  /-- `while self._running` -/
  | loopTest
  /-- before the lock is taken, at first or on the return of `wait()` -/
  | enter
  /-- `self._condition.wait()`; `since` is the number of `stop()` calls that had
  returned when it began -/
  | waiting (notified : Bool) (since : Nat)
  /-- past the inner `while`, the lock held -/
  | locked
  /-- `_invoke_handler`, before the call of the handler -/
  | holding (x : Item T)
  | handling (x : Item T)
  | returned
  /-- an exception left `_run` -/
  | crashed

/-- What a step of a worker gets from outside. -/
inductive WorkerInput
  | go
  | handled (outcome : Except PyExc Unit)

/-- The worker has not left `_run`. -/
def WorkerPc.inLoop {T : Type} : WorkerPc T → Bool
  | .returned => false
  | .crashed => false
  | _ => true

/-- `notify_all` on the condition that the worker may be waiting on. -/
def WorkerPc.notifyAll {T : Type} : WorkerPc T → WorkerPc T
  | .waiting _ since => .waiting true since
  | pc => pc

structure ProcessorState (T : Type) where
  running : Bool
  /-- the worker that holds the lock inside the section of `_run` -/
  lock : Option Nat
  queue : List (Item T)
  /-- the threads that calls of `start()` have not started yet -/
  spawning : Nat
  workers : Nat → Option (WorkerPc T)
  nextWorker : Nat
  /-- the calls of `start()` -/
  starts : Nat
  /-- the calls of `stop()` that have returned -/
  stops : Nat
  /-- a `stop()` has returned and `start()` has not been called since -/
  stopReturned : Bool
  /-- the items scheduled, in order -/
  scheduled : List (Item T)
  /-- the items taken, in order, each with its worker -/
  taken : List (Nat × Item T)
  /-- the calls of the handler, in order -/
  invoked : List (Nat × Item T)

inductive ProcessorAction (T : Type)
  /-- `start()`, up to the loop that starts the threads -/
  | start
  /-- a call of `start()` starts a thread -/
  | spawn
  | stop
  | schedule (o : T)
  | worker (k : Nat) (i : WorkerInput)

section Steps

variable {T : Type}

def ProcessorState.setWorker (s : ProcessorState T) (k : Nat) (pc : WorkerPc T) :
    ProcessorState T :=
  { s with workers := Function.update s.workers k (some pc) }

def ProcessorState.notifyAll (s : ProcessorState T) : ProcessorState T :=
  { s with workers := fun k => (s.workers k).map WorkerPc.notifyAll }

/-- One step of the worker `k`. -/
def workerStep (s : ProcessorState T) (k : Nat) :
    WorkerPc T → WorkerInput → Option (ProcessorState T)
  | .loopTest, .go => some (s.setWorker k (if s.running then .enter else .returned))
  | .enter, .go =>
      if s.lock.isSome then none
      else if s.queue.isEmpty && s.running then some (s.setWorker k (.waiting false s.stops))
      else some ({ s with lock := some k }.setWorker k .locked)
  | .waiting _ _, .go => some (s.setWorker k .enter)
  | .locked, .go =>
      if !s.running then some ({ s with lock := none }.setWorker k .returned)
      else match s.queue with
        -- `pop(0)` raises, and nothing catches it.
        | [] => some ({ s with lock := none }.setWorker k .crashed)
        | x :: rest =>
          some ({ s with lock := none, queue := rest, taken := s.taken ++ [(k, x)] }.setWorker k
            (.holding x))
  | .holding x, .go => some ({ s with invoked := s.invoked ++ [(k, x)] }.setWorker k (.handling x))
  -- What the handler raises is logged.
  | .handling _, .handled _ => some (s.setWorker k .loopTest)
  | _, _ => none

def processorStep (threads : Nat) (s : ProcessorState T) :
    ProcessorAction T → Option (ProcessorState T)
  | .start =>
      some { s with running := true, spawning := s.spawning + threads, starts := s.starts + 1,
                    stopReturned := false }
  | .spawn =>
      if s.spawning = 0 then none
      else some { s.setWorker s.nextWorker .loopTest with
        spawning := s.spawning - 1, nextWorker := s.nextWorker + 1 }
  | .stop =>
      if s.lock.isSome then none
      else some { s.notifyAll with running := false, stops := s.stops + 1, stopReturned := true }
  | .schedule o =>
      let x : Item T := ⟨s.scheduled.length, o⟩
      if s.lock.isSome then none
      else some { s.notifyAll with queue := s.queue ++ [x], scheduled := s.scheduled ++ [x] }
  | .worker k i => (s.workers k).bind fun pc => workerStep s k pc i

/-- A processor with `threads` workers, after its constructor, which makes them
one at least. -/
def processor (T : Type) (threads : Nat) : System (ProcessorState T) (ProcessorAction T) where
  init :=
    { running := false, lock := none, queue := [], spawning := 0, workers := fun _ => none,
      nextWorker := 0, starts := 0, stops := 0, stopReturned := false, scheduled := [],
      taken := [], invoked := [] }
  step := processorStep threads

/-- What a step can do. The moves of a worker that change nothing but its
control point lead out of the loop only when the flag is down. -/
inductive Move (threads : Nat) (s : ProcessorState T) :
    ProcessorAction T → ProcessorState T → Prop
  | start : Move threads s .start
      { s with running := true, spawning := s.spawning + threads, starts := s.starts + 1,
               stopReturned := false }
  | spawn : s.spawning ≠ 0 → Move threads s .spawn
      { s.setWorker s.nextWorker .loopTest with
        spawning := s.spawning - 1, nextWorker := s.nextWorker + 1 }
  | stop : s.lock = none → Move threads s .stop
      { s.notifyAll with running := false, stops := s.stops + 1, stopReturned := true }
  | schedule (o : T) : s.lock = none → Move threads s (.schedule o)
      { s.notifyAll with queue := s.queue ++ [⟨s.scheduled.length, o⟩],
                         scheduled := s.scheduled ++ [⟨s.scheduled.length, o⟩] }
  | enter {k : Nat} : s.workers k = some .loopTest → s.running = true →
      Move threads s (.worker k .go) (s.setWorker k .enter)
  | finish {k : Nat} : s.workers k = some .loopTest → s.running = false →
      Move threads s (.worker k .go) (s.setWorker k .returned)
  | wait {k : Nat} : s.workers k = some .enter → s.queue = [] → s.running = true →
      Move threads s (.worker k .go) (s.setWorker k (.waiting false s.stops))
  | lock {k : Nat} : s.workers k = some .enter → s.lock = none →
      s.queue ≠ [] ∨ s.running = false →
      Move threads s (.worker k .go) ({ s with lock := some k }.setWorker k .locked)
  | wake {k : Nat} {notified : Bool} {since : Nat} :
      s.workers k = some (.waiting notified since) →
      Move threads s (.worker k .go) (s.setWorker k .enter)
  | leave {k : Nat} : s.workers k = some .locked → s.running = false →
      Move threads s (.worker k .go) ({ s with lock := none }.setWorker k .returned)
  | crash {k : Nat} : s.workers k = some .locked → s.running = true → s.queue = [] →
      Move threads s (.worker k .go) ({ s with lock := none }.setWorker k .crashed)
  | take {k : Nat} {x : Item T} {rest : List (Item T)} : s.workers k = some .locked →
      s.running = true → s.queue = x :: rest →
      Move threads s (.worker k .go)
        ({ s with lock := none, queue := rest, taken := s.taken ++ [(k, x)] }.setWorker k
          (.holding x))
  | invoke {k : Nat} {x : Item T} : s.workers k = some (.holding x) →
      Move threads s (.worker k .go)
        ({ s with invoked := s.invoked ++ [(k, x)] }.setWorker k (.handling x))
  | handled {k : Nat} {x : Item T} (outcome : Except PyExc Unit) :
      s.workers k = some (.handling x) →
      Move threads s (.worker k (.handled outcome)) (s.setWorker k .loopTest)

end Steps

end QueueProcessor

open QueueProcessor

namespace QueueProcessorLemmas

variable {T : Type} {threads : Nat} {s s' : ProcessorState T} {a : ProcessorAction T}

theorem workerStep_move {k : Nat} {pc : WorkerPc T} {i : WorkerInput}
    (hpc : s.workers k = some pc) (hs : workerStep s k pc i = some s') :
    Move threads s (.worker k i) s' := by
  unfold workerStep at hs
  split at hs
  · cases hr : s.running with
    | false =>
      rw [hr] at hs
      cases hs
      exact .finish hpc hr
    | true =>
      rw [hr] at hs
      cases hs
      exact .enter hpc hr
  · simp only [Option.ite_none_left_eq_some, Option.not_isSome_iff_eq_none] at hs
    obtain ⟨hlock, hs⟩ := hs
    split at hs <;> cases hs
    · next hwait =>
      simp only [Bool.and_eq_true, List.isEmpty_iff] at hwait
      exact .wait hpc hwait.1 hwait.2
    · next hwork =>
      refine .lock hpc hlock ?_
      by_cases hq : s.queue = []
      · exact .inr (by simpa [hq] using hwork)
      · exact .inl hq
  · cases hs
    exact .wake hpc
  · split at hs
    · next hr =>
      cases hs
      exact .leave hpc (by simpa using hr)
    · next hr =>
      split at hs <;> cases hs
      · next hq => exact .crash hpc (by simpa using hr) hq
      · next hq => exact .take hpc (by simpa using hr) hq
  · cases hs
    exact .invoke hpc
  · cases hs
    exact .handled _ hpc
  · cases hs

theorem step_move (hs : processorStep threads s a = some s') : Move threads s a s' := by
  cases a with
  | start =>
    cases hs
    exact .start
  | spawn =>
    simp only [processorStep, Option.ite_none_left_eq_some, Option.some.injEq] at hs
    obtain ⟨hspawning, rfl⟩ := hs
    exact .spawn hspawning
  | stop =>
    simp only [processorStep, Option.ite_none_left_eq_some, Option.not_isSome_iff_eq_none,
      Option.some.injEq] at hs
    obtain ⟨hlock, rfl⟩ := hs
    exact .stop hlock
  | schedule o =>
    simp only [processorStep, Option.ite_none_left_eq_some, Option.not_isSome_iff_eq_none,
      Option.some.injEq] at hs
    obtain ⟨hlock, rfl⟩ := hs
    exact .schedule o hlock
  | worker k i =>
    obtain ⟨pc, hpc, hs⟩ := Option.bind_eq_some_iff.mp hs
    exact workerStep_move hpc hs

/-- A property of the control points that `notify_all` keeps. -/
theorem forall_notifyAll {P : Nat → WorkerPc T → Prop}
    (hP : ∀ k pc, P k pc → P k pc.notifyAll) (h : ∀ k pc, s.workers k = some pc → P k pc) :
    ∀ k pc, s.notifyAll.workers k = some pc → P k pc := by
  intro k pc hpc
  obtain ⟨pc₀, hpc₀, rfl⟩ := Option.map_eq_some_iff.mp hpc
  exact hP k pc₀ (h k pc₀ hpc₀)

end QueueProcessorLemmas

open QueueProcessorLemmas

/-! ## 1. Conservation and order -/

/-- The processor's `start()` is called once. -/
def StartsOnce {T : Type} (s : ProcessorState T) (a : ProcessorAction T) : Prop :=
  a = .start → s.starts = 0

/-- The worker has taken `x` and not come back from the handler. -/
def QueueProcessor.ProcessorState.Holds {T : Type} (s : ProcessorState T) (k : Nat) (x : Item T) :
    Prop :=
  s.workers k = some (.holding x) ∨ s.workers k = some (.handling x)

/-- What became of the scheduled items, and which workers are in their loop. -/
structure Processed {T : Type} (threads : Nat) (s : ProcessorState T) : Prop where
  /-- nothing is lost, doubled or overtaken -/
  order : s.taken.map Prod.snd ++ s.queue = s.scheduled
  /-- an item is taken once -/
  nodup : (s.taken.map Prod.snd).Nodup
  /-- a worker holds what it has taken -/
  held : ∀ k x, s.Holds k x → (k, x) ∈ s.taken
  /-- an item that was taken is about to be handed to the handler, or it was -/
  handed : ∀ k x, (k, x) ∈ s.taken →
    Xor (s.workers k = some (.holding x)) ((k, x) ∈ s.invoked)
  /-- the handler gets nothing else, and nothing twice -/
  invoked : s.invoked.Nodup ∧ s.invoked ⊆ s.taken
  /-- a stopped processor takes nothing -/
  stopped : s.stopReturned = true →
    ∀ a s', processorStep threads s a = some s' → s'.taken = s.taken
  /-- no worker leaves its loop before a `stop()` -/
  inLoop : s.stopReturned = false → ∀ k pc, s.workers k = some pc → pc.inLoop = true

namespace QueueProcessorLemmas

variable {T : Type} {threads : Nat} {s s' : ProcessorState T} {a : ProcessorAction T}

/-- The items scheduled are numbered. -/
structure OrderInv (s : ProcessorState T) : Prop where
  order : s.taken.map Prod.snd ++ s.queue = s.scheduled
  fresh : ∀ x ∈ s.scheduled, x.number < s.scheduled.length
  nodup : s.scheduled.Nodup

theorem orderInv_step (hi : OrderInv s) (hs : Move threads s a s') : OrderInv s' := by
  cases hs with
  | schedule o =>
    refine ⟨?_, ?_, ?_⟩
    · rw [← List.append_assoc]
      exact congrArg (· ++ _) hi.order
    · intro x hx
      rw [List.length_append, List.length_singleton]
      rcases List.mem_append.mp hx with hx | hx
      · exact Nat.lt_succ_of_lt (hi.fresh x hx)
      · rw [List.mem_singleton.mp hx]
        exact Nat.lt_succ_self _
    · refine List.nodup_append.mpr ⟨hi.nodup, List.nodup_singleton _, ?_⟩
      rintro x hx y hy rfl
      rw [List.mem_singleton.mp hy] at hx
      exact Nat.lt_irrefl _ (hi.fresh _ hx)
  | @take k x rest _ _ hq =>
    refine ⟨?_, hi.fresh, hi.nodup⟩
    have horder := hi.order
    rw [hq] at horder
    simpa [ProcessorState.setWorker] using horder
  | _ => exact ⟨hi.order, hi.fresh, hi.nodup⟩

theorem OrderInv.nodup_taken (hi : OrderInv s) : (s.taken.map Prod.snd).Nodup := by
  have hnodup := hi.nodup
  rw [← hi.order] at hnodup
  exact (List.nodup_append.mp hnodup).1

/-- The item at the head of the queue was not taken before. -/
theorem OrderInv.not_taken (hi : OrderInv s) {x : Item T} {rest : List (Item T)}
    (hq : s.queue = x :: rest) (k : Nat) : (k, x) ∉ s.taken := by
  intro hmem
  have hnodup := hi.nodup
  rw [← hi.order, hq] at hnodup
  have htaken : x ∈ s.taken.map Prod.snd := List.mem_map.mpr ⟨(k, x), hmem, rfl⟩
  exact (List.nodup_append.mp hnodup).2.2 x htaken x (List.mem_cons_self ..) rfl

/-- How the items that were taken stand with the workers and the handler. -/
structure HandInv (workers : Nat → Option (WorkerPc T)) (taken invoked : List (Nat × Item T)) :
    Prop where
  holding : ∀ k pc, workers k = some pc → ∀ x, pc = .holding x ∨ pc = .handling x → (k, x) ∈ taken
  handed : ∀ k x, (k, x) ∈ taken → Xor (workers k = some (.holding x)) ((k, x) ∈ invoked)
  nodup : invoked.Nodup
  subset : invoked ⊆ taken

variable {workers : Nat → Option (WorkerPc T)} {taken invoked : List (Nat × Item T)}

/-- A move of a worker that holds no item before and none after. -/
theorem HandInv.move (hi : HandInv workers taken invoked) {k : Nat} {pc : WorkerPc T}
    (hk : ∀ x, workers k ≠ some (.holding x)) (hpc : ∀ x, pc ≠ .holding x ∧ pc ≠ .handling x) :
    HandInv (Function.update workers k (some pc)) taken invoked := by
  refine ⟨update_thread hi.holding ?_, fun k' x hx => ?_, hi.nodup, hi.subset⟩
  · rintro x (h | h)
    · exact absurd h (hpc x).1
    · exact absurd h (hpc x).2
  · by_cases hkk : k' = k
    · subst hkk
      have hinvoked : (k', x) ∈ invoked := by
        rcases hi.handed k' x hx with ⟨h, _⟩ | ⟨h, _⟩
        · exact absurd h (hk x)
        · exact h
      rw [Function.update_self, Option.some.injEq]
      exact .inr ⟨hinvoked, (hpc x).1⟩
    · rw [Function.update_of_ne hkk]
      exact hi.handed k' x hx

theorem HandInv.notifyAll (hi : HandInv s.workers s.taken s.invoked) :
    HandInv s.notifyAll.workers s.taken s.invoked := by
  refine ⟨forall_notifyAll ?_ hi.holding, fun k x hx => ?_, hi.nodup, hi.subset⟩
  · intro k pc hpc x hx
    cases pc <;> first | exact hpc x hx | simp [WorkerPc.notifyAll] at hx
  · have hsame : s.notifyAll.workers k = some (.holding x) ↔ s.workers k = some (.holding x) := by
      simp only [ProcessorState.notifyAll, Option.map_eq_some_iff]
      constructor
      · rintro ⟨pc, hpc, h⟩
        cases pc <;> simp_all [WorkerPc.notifyAll]
      · exact fun h => ⟨_, h, rfl⟩
    rw [hsame]
    exact hi.handed k x hx

/-- A worker takes an item that was not taken before. -/
theorem HandInv.take (hi : HandInv workers taken invoked) {k : Nat} {x : Item T}
    (hk : ∀ x, workers k ≠ some (.holding x)) (hx : ∀ k, (k, x) ∉ taken) :
    HandInv (Function.update workers k (some (.holding x))) (taken ++ [(k, x)]) invoked := by
  refine ⟨?_, fun k' y hy => ?_, hi.nodup, List.Subset.trans hi.subset (List.subset_append_left _ _)⟩
  · refine update_thread (fun k' pc hpc y hy => ?_) ?_
    · exact List.mem_append_left _ (hi.holding k' pc hpc y hy)
    · rintro y (h | h)
      · cases h
        exact List.mem_append_right _ (List.mem_singleton_self _)
      · cases h
  · rcases List.mem_append.mp hy with hold | hnew
    · by_cases hkk : k' = k
      · subst hkk
        have hinvoked : (k', y) ∈ invoked := by
          rcases hi.handed k' y hold with ⟨h, _⟩ | ⟨h, _⟩
          · exact absurd h (hk y)
          · exact h
        rw [Function.update_self]
        refine .inr ⟨hinvoked, fun h => ?_⟩
        cases h
        exact hx k' hold
      · rw [Function.update_of_ne hkk]
        exact hi.handed k' y hold
    · obtain ⟨rfl, rfl⟩ := Prod.mk.inj (List.mem_singleton.mp hnew)
      exact .inl ⟨Function.update_self .., fun h => hx _ (hi.subset h)⟩

/-- A worker hands the item it holds to the handler. -/
theorem HandInv.invoke (hi : HandInv workers taken invoked) {k : Nat} {x : Item T}
    (hk : workers k = some (.holding x)) :
    HandInv (Function.update workers k (some (.handling x))) taken (invoked ++ [(k, x)]) := by
  have hx : (k, x) ∈ taken := hi.holding k _ hk x (.inl rfl)
  have hnew : (k, x) ∉ invoked := by
    rcases hi.handed k x hx with ⟨_, h⟩ | ⟨_, h⟩
    · exact h
    · exact absurd hk h
  refine ⟨update_thread hi.holding ?_, fun k' y hy => ?_, ?_, ?_⟩
  · rintro y (h | h)
    · cases h
    · cases h
      exact hx
  · by_cases hkk : k' = k
    · subst hkk
      rw [Function.update_self]
      refine .inr ⟨?_, nofun⟩
      rcases hi.handed k' y hy with ⟨h, _⟩ | ⟨h, _⟩
      · rw [hk] at h
        cases h
        exact List.mem_append_right _ (List.mem_singleton_self _)
      · exact List.mem_append_left _ h
    · rw [Function.update_of_ne hkk]
      have hsame : (k', y) ∈ invoked ++ [(k, x)] ↔ (k', y) ∈ invoked := by simp [hkk]
      rw [hsame]
      exact hi.handed k' y hy
  · refine List.nodup_append.mpr ⟨hi.nodup, List.nodup_singleton _, ?_⟩
    rintro p hp q hq rfl
    rw [List.mem_singleton.mp hq] at hp
    exact hnew hp
  · refine List.append_subset.mpr ⟨hi.subset, ?_⟩
    rintro p hp
    rwa [List.mem_singleton.mp hp]

/-- Worker numbers are handed out once, and a stopped processor does not run. -/
structure FlagInv (s : ProcessorState T) : Prop where
  fresh : ∀ k pc, s.workers k = some pc → k < s.nextWorker
  stopped : s.stopReturned = true → s.running = false

theorem flagInv_step (hi : FlagInv s) (hs : Move threads s a s') : FlagInv s' := by
  have move {k : Nat} {pc pc' : WorkerPc T} (hk : s.workers k = some pc) (k' : Nat)
      (pc₁ : WorkerPc T) (h : Function.update s.workers k (some pc') k' = some pc₁) :
      k' < s.nextWorker :=
    update_thread (P := fun k _ => k < s.nextWorker) hi.fresh (hi.fresh k pc hk) k' pc₁ h
  cases hs with
  | start => exact ⟨hi.fresh, nofun⟩
  | spawn =>
    refine ⟨update_thread (fun k pc h => ?_) (Nat.lt_succ_self _), hi.stopped⟩
    exact Nat.lt_succ_of_lt (hi.fresh k pc h)
  | stop => exact ⟨forall_notifyAll (fun _ _ h => h) hi.fresh, fun _ => rfl⟩
  | schedule => exact ⟨forall_notifyAll (fun _ _ h => h) hi.fresh, hi.stopped⟩
  | enter hk => exact ⟨move hk, hi.stopped⟩
  | finish hk => exact ⟨move hk, hi.stopped⟩
  | wait hk => exact ⟨move hk, hi.stopped⟩
  | lock hk => exact ⟨move hk, hi.stopped⟩
  | wake hk => exact ⟨move hk, hi.stopped⟩
  | leave hk => exact ⟨move hk, hi.stopped⟩
  | crash hk => exact ⟨move hk, hi.stopped⟩
  | take hk => exact ⟨move hk, hi.stopped⟩
  | invoke hk => exact ⟨move hk, hi.stopped⟩
  | handled _ hk => exact ⟨move hk, hi.stopped⟩

theorem handInv_step (ho : OrderInv s) (hf : FlagInv s) (hi : HandInv s.workers s.taken s.invoked)
    (hs : Move threads s a s') : HandInv s'.workers s'.taken s'.invoked := by
  cases hs with
  | start => exact hi
  | spawn =>
    refine hi.move (fun x h => ?_) (by simp)
    exact Nat.lt_irrefl _ (hf.fresh _ _ h)
  | stop => exact hi.notifyAll
  | schedule => exact hi.notifyAll
  | enter hk => exact hi.move (by simp [hk]) (by simp)
  | finish hk => exact hi.move (by simp [hk]) (by simp)
  | wait hk => exact hi.move (by simp [hk]) (by simp)
  | lock hk => exact hi.move (by simp [hk]) (by simp)
  | wake hk => exact hi.move (by simp [hk]) (by simp)
  | leave hk => exact hi.move (by simp [hk]) (by simp)
  | crash hk => exact hi.move (by simp [hk]) (by simp)
  | take hk _ hq => exact hi.take (by simp [hk]) (ho.not_taken hq)
  | invoke hk => exact hi.invoke hk
  | handled _ hk => exact hi.move (by simp [hk]) (by simp)

/-- With `start()` called once, the workers are in their loop while the flag is
up, and what the holder of the lock has tested stays true. -/
structure LoopInv (s : ProcessorState T) : Prop where
  spawning : s.spawning ≠ 0 → s.starts ≠ 0
  started : ∀ k pc, s.workers k = some pc → s.starts ≠ 0
  running : s.starts ≠ 0 → s.stopReturned = false → s.running = true
  locked : ∀ k pc, s.workers k = some pc → pc = .locked →
    s.lock = some k ∧ (s.queue ≠ [] ∨ s.running = false)
  inLoop : s.running = true → ∀ k pc, s.workers k = some pc → pc.inLoop = true

/-- While the lock is free no worker is past its tests. -/
theorem LoopInv.not_locked (hi : LoopInv s) (hlock : s.lock = none) {k : Nat} {pc : WorkerPc T}
    (hk : s.workers k = some pc) : pc ≠ .locked := by
  rintro rfl
  have := (hi.locked k _ hk rfl).1
  rw [hlock] at this
  cases this

/-- Only the holder of the lock is past its tests. -/
theorem LoopInv.locked_unique (hi : LoopInv s) {k k' : Nat} {pc : WorkerPc T}
    (hk : s.workers k = some .locked) (hne : k' ≠ k) (hk' : s.workers k' = some pc) :
    pc ≠ .locked := by
  rintro rfl
  have hlock := (hi.locked k' _ hk' rfl).1
  rw [(hi.locked k _ hk rfl).1, Option.some.injEq] at hlock
  exact hne hlock.symm

theorem notifyAll_inLoop (pc : WorkerPc T) : pc.notifyAll.inLoop = pc.inLoop := by
  cases pc <;> rfl

theorem notifyAll_eq_locked {pc : WorkerPc T} (h : pc.notifyAll = .locked) : pc = .locked := by
  cases pc <;> simp_all [WorkerPc.notifyAll]

/-- A move of a worker that leaves the flag, the lock and the queue alone. -/
theorem LoopInv.move (hi : LoopInv s) {k : Nat} {pc pc' : WorkerPc T}
    (hk : s.workers k = some pc) (hlocked : pc' ≠ .locked)
    (hloop : s.running = true → pc'.inLoop = true) : LoopInv (s.setWorker k pc') where
  spawning := hi.spawning
  started := update_thread hi.started (hi.started k pc hk)
  running := hi.running
  locked := update_thread hi.locked (fun h => absurd h hlocked)
  inLoop hr := update_thread (hi.inLoop hr) (hloop hr)

/-- The holder of the lock leaves the section. -/
theorem LoopInv.release (hi : LoopInv s) {k : Nat} {pc : WorkerPc T} {queue : List (Item T)}
    {taken : List (Nat × Item T)} (hk : s.workers k = some .locked) (hlocked : pc ≠ .locked)
    (hloop : s.running = true → pc.inLoop = true) :
    LoopInv ({ s with lock := none, queue, taken }.setWorker k pc) where
  spawning := hi.spawning
  started := update_thread hi.started (hi.started k _ hk)
  running := hi.running
  locked := update_thread_of_ne (fun _ hne _ hpc h => absurd h (hi.locked_unique hk hne hpc))
    (fun h => absurd h hlocked)
  inLoop hr := update_thread (hi.inLoop hr) (hloop hr)

theorem loopInv_step (hi : LoopInv s) (hok : StartsOnce s a) (hs : Move threads s a s') :
    LoopInv s' := by
  cases hs with
  | start =>
    have hnone : ∀ k pc, s.workers k ≠ some pc := fun k pc h => hi.started k pc h (hok rfl)
    exact ⟨fun _ => Nat.succ_ne_zero _, fun _ _ _ => Nat.succ_ne_zero _, fun _ _ => rfl,
      fun k pc h => absurd h (hnone k pc), fun _ k pc h => absurd h (hnone k pc)⟩
  | spawn hspawning =>
    exact ⟨fun _ => hi.spawning hspawning, fun _ _ _ => hi.spawning hspawning, hi.running,
      update_thread hi.locked nofun, fun hr => update_thread (hi.inLoop hr) rfl⟩
  | stop hlock =>
    refine ⟨hi.spawning, forall_notifyAll (fun _ _ h => h) hi.started, fun _ => nofun, ?_, nofun⟩
    refine forall_notifyAll (fun _ pc h hpc => h (notifyAll_eq_locked hpc)) (fun k pc hk hpc => ?_)
    exact absurd hpc (hi.not_locked hlock hk)
  | schedule o hlock =>
    refine ⟨hi.spawning, forall_notifyAll (fun _ _ h => h) hi.started, hi.running, ?_, fun hr => ?_⟩
    · refine forall_notifyAll (fun _ pc h hpc => h (notifyAll_eq_locked hpc)) (fun k pc hk hpc => ?_)
      exact absurd hpc (hi.not_locked hlock hk)
    · exact forall_notifyAll (fun _ pc h => (notifyAll_inLoop pc).trans h) (hi.inLoop hr)
  | enter hk => exact hi.move hk nofun (fun _ => rfl)
  | finish hk hr => exact hi.move hk nofun (fun h => by rw [hr] at h; cases h)
  | wait hk => exact hi.move hk nofun (fun _ => rfl)
  | lock hk hlock hwork =>
    refine ⟨hi.spawning, update_thread hi.started (hi.started _ _ hk), hi.running, ?_,
      fun hr => update_thread (hi.inLoop hr) rfl⟩
    refine update_thread (fun k pc hk h => ?_) (fun _ => ⟨rfl, hwork⟩)
    exact absurd h (hi.not_locked hlock hk)
  | wake hk => exact hi.move hk nofun (fun _ => rfl)
  | leave hk hr => exact hi.release hk nofun (fun h => by rw [hr] at h; cases h)
  | crash hk hr hq =>
    rcases (hi.locked _ _ hk rfl).2 with h | h
    · exact absurd hq h
    · rw [hr] at h
      cases h
  | take hk => exact hi.release hk nofun (fun _ => rfl)
  | @invoke k x hk =>
    have hmove : LoopInv (s.setWorker k (.handling x)) := hi.move hk nofun (fun _ => rfl)
    exact ⟨hmove.spawning, hmove.started, hmove.running, hmove.locked, hmove.inLoop⟩
  | handled _ hk => exact hi.move hk nofun (fun _ => rfl)

/-- What holds in every run, however often `start()` is called. -/
theorem runInv {ok : ProcessorState T → ProcessorAction T → Prop}
    (h : (processor T threads).ReachableWhere ok s) :
    OrderInv s ∧ FlagInv s ∧ HandInv s.workers s.taken s.invoked := by
  refine h.invariant (I := fun s => OrderInv s ∧ FlagInv s ∧ HandInv s.workers s.taken s.invoked)
    ?_ ?_
  · exact ⟨⟨rfl, nofun, List.nodup_nil⟩, ⟨nofun, nofun⟩, ⟨nofun, nofun, List.nodup_nil,
      List.nil_subset _⟩⟩
  · rintro s a s' ⟨ho, hf, hh⟩ _ hs
    have hmove := step_move hs
    exact ⟨orderInv_step ho hmove, flagInv_step hf hmove, handInv_step ho hf hh hmove⟩

theorem loopInv (h : (processor T threads).ReachableWhere StartsOnce s) : LoopInv s := by
  refine h.invariant ?_ ?_
  · exact ⟨nofun, nofun, fun h => absurd rfl h, nofun, nofun⟩
  · exact fun s a s' hi hok hs => loopInv_step hi hok (step_move hs)

/-- Only a running processor takes an item. -/
theorem taken_of_not_running (hr : s.running = false) (hs : Move threads s a s') :
    s'.taken = s.taken := by
  cases hs with
  | take _ hrunning =>
    rw [hr] at hrunning
    cases hrunning
  | _ => rfl

end QueueProcessorLemmas

/-- In every run of a processor whose `start()` is called once, the items taken,
followed by the queue, are the items scheduled; each item that was taken is held
by one worker and goes to the handler once; after a `stop()` of the started
processor no item is taken, and before it every worker is in its loop. -/
theorem processor_conserves (T : Type) (threads : Nat) {s : ProcessorState T}
    (h : (processor T threads).ReachableWhere StartsOnce s) : Processed threads s := by
  obtain ⟨ho, hf, hh⟩ := runInv h
  have hl := loopInv h
  refine ⟨ho.order, ho.nodup_taken, ?_, hh.handed, ⟨hh.nodup, hh.subset⟩, ?_, ?_⟩
  · rintro k x (hk | hk)
    · exact hh.holding k _ hk x (.inl rfl)
    · exact hh.holding k _ hk x (.inr rfl)
  · exact fun hstop a s' hs => taken_of_not_running (hf.stopped hstop) (step_move hs)
  · exact fun hstop k pc hk => hl.inLoop (hl.running (hl.started k pc hk) hstop) k pc hk

/-- A test for the condition. -/
def QueueProcessor.startsOnce {T : Type} (s : ProcessorState T) : ProcessorAction T → Bool
  | .start => s.starts == 0
  | _ => true

theorem QueueProcessorLemmas.startsOnce_sound {T : Type} (s : ProcessorState T)
    (a : ProcessorAction T) (h : startsOnce s a = true) : StartsOnce s a := by
  rintro rfl
  simpa [startsOnce] using h

/-- An item scheduled before `start()`: the first of two workers takes it and
gives it to the handler, which raises. -/
def failedItemRun : List (ProcessorAction Nat) :=
  [.schedule 7, .start, .spawn, .spawn, .worker 0 .go, .worker 0 .go, .worker 0 .go, .worker 0 .go,
    .worker 0 (.handled (.error ⟨"ValueError", "boom"⟩)), .stop]

/-- The rule at one item whose handler raises. -/
theorem processor_conserves_failedItem :
    ∃ s, (processor Nat 2).execWhile startsOnce (processor Nat 2).init failedItemRun = some s ∧
      s.taken = [(0, ⟨0, 7⟩)] ∧ s.stopReturned = true ∧ Processed 2 s := by
  refine ⟨_, rfl, rfl, rfl, ?_⟩
  exact processor_conserves Nat 2 (System.reachableWhere_of_execWhile (l := failedItemRun)
    startsOnce_sound rfl)

/-- A `stop()` that has returned before `start()` is called does not keep the
workers from taking items. -/
theorem stop_before_start :
    ∃ s s', (processor Nat 1).ReachableWhere StartsOnce s ∧ s.stops = 1 ∧
      processorStep 1 s (.worker 0 .go) = some s' ∧ s.taken = [] ∧ s'.taken = [(0, ⟨0, 7⟩)] :=
  ⟨_, _, System.reachableWhere_of_execWhile (l := [.stop, .start, .spawn, .schedule 7,
    .worker 0 .go, .worker 0 .go]) startsOnce_sound rfl, rfl, rfl, rfl, rfl⟩

/-! ## 2. No worker sleeps on work -/

namespace QueueProcessorLemmas

variable {T : Type} {threads : Nat} {s s' : ProcessorState T} {a : ProcessorAction T}

/-- What a worker that waits without a notification has found is still so. -/
def SleepInv (s : ProcessorState T) : Prop :=
  ∀ k pc, s.workers k = some pc → ∀ since, pc = .waiting false since →
    s.queue = [] ∧ s.running = true ∧ s.stops = since

theorem notifyAll_ne_asleep (pc : WorkerPc T) (since : Nat) :
    pc.notifyAll ≠ .waiting false since := by
  cases pc <;> simp [WorkerPc.notifyAll]

theorem sleepInv_step (hi : SleepInv s) (hs : Move threads s a s') : SleepInv s' := by
  cases hs with
  | start => exact fun k pc hk since h => ⟨(hi k pc hk since h).1, rfl, (hi k pc hk since h).2.2⟩
  | spawn => exact update_thread hi nofun
  | stop =>
    -- After `notify_all` no worker waits without a notification.
    intro k pc hk since h
    obtain ⟨pc₀, _, rfl⟩ := Option.map_eq_some_iff.mp hk
    exact absurd h (notifyAll_ne_asleep pc₀ since)
  | schedule =>
    intro k pc hk since h
    obtain ⟨pc₀, _, rfl⟩ := Option.map_eq_some_iff.mp hk
    exact absurd h (notifyAll_ne_asleep pc₀ since)
  | enter => exact update_thread hi nofun
  | finish => exact update_thread hi nofun
  | wait _ hq hr =>
    refine update_thread hi fun since h => ?_
    cases h
    exact ⟨hq, hr, rfl⟩
  | lock => exact update_thread hi nofun
  | wake => exact update_thread hi nofun
  | leave => exact update_thread hi nofun
  | crash => exact update_thread hi nofun
  | take _ _ hq =>
    refine update_thread (fun k pc hk since h => ?_) nofun
    have hempty := (hi k pc hk since h).1
    rw [hq] at hempty
    cases hempty
  | invoke => exact update_thread hi nofun
  | handled => exact update_thread hi nofun

end QueueProcessorLemmas

/-- In every run, with any calls of `start()`, `schedule()` and `stop()`, a
worker that waits and was not notified since it began to wait finds the queue
empty and the flag up, and no `stop()` has returned since then. -/
theorem no_sleep_on_work (T : Type) (threads : Nat) {s : ProcessorState T}
    (h : (processor T threads).Reachable s) {k since : Nat}
    (hk : s.workers k = some (.waiting false since)) :
    s.queue = [] ∧ s.running = true ∧ s.stops = since := by
  have hi : SleepInv s := by
    refine h.invariant ?_ ?_
    · exact fun k pc hk => nomatch hk
    · exact fun s a s' hi _ hs => sleepInv_step hi (step_move hs)
  exact hi k _ hk since rfl

/-- A worker waits, an item is scheduled, and the worker takes it, hands it to the
handler and waits again. -/
def waitsAgainRun : List (ProcessorAction Nat) :=
  [.start, .spawn, .worker 0 .go, .worker 0 .go, .schedule 7, .worker 0 .go, .worker 0 .go,
    .worker 0 .go, .worker 0 .go, .worker 0 (.handled (.ok ())), .worker 0 .go, .worker 0 .go]

/-- The rule at a worker that waits for its second item. -/
theorem no_sleep_on_work_again :
    ∃ s, (processor Nat 1).exec (processor Nat 1).init waitsAgainRun = some s ∧
      s.workers 0 = some (.waiting false 0) ∧ s.scheduled.length = 1 ∧ s.queue = [] ∧
      s.running = true ∧ s.stops = 0 := by
  refine ⟨_, rfl, rfl, rfl, ?_⟩
  exact no_sleep_on_work Nat 1 (k := 0) (System.reachable_of_exec (l := waitsAgainRun) rfl) rfl

end EgressAgent
