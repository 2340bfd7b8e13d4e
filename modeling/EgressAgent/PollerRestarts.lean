import Mathlib.Logic.Relation
import EgressAgent.Poller

/-!
# The poller over restarts

`OperationsPoller` under `start()` and `stop()` calls in turn, with the threads
that they create. The threads share `_running` and the condition, and each is at
a control point of its own; the world is what the operations of all threads have
done. Other parts of the agent may change it at any time.

1. `canFetch_iff`: which threads can go on to a GET after they have tested
   `_running` again.
2. `single_threaded_iff`: of all threads at most one can, and none whose `stop()`
   was called, in every run in which each `start()` finds that all earlier
   threads are over, and only in these. `stopped_thread_resumes`: one that is
   fetching at the next `start()` fetches on.
-/

namespace EgressAgent

open Py Effect Transition
open BackendClient (Attempt)
open OperationsPoller

namespace PollerRestarts

/-! ## 1. What a thread can still do -/

variable (str : PyVal → String)

/-- A step of one thread, in any world. -/
def ThreadStep (running : Bool) (i : PollInput) (pc pc' : PollPc) : Prop :=
  ∃ w w', pollStep str running w pc i = some (pc', w')

/-- The steps of one thread. -/
abbrev ThreadRun (running : Bool) : PollPc → PollPc → Prop :=
  Relation.ReflTransGen fun pc pc' => ∃ i, ThreadStep str running i pc pc'

/-- The next step is a test of `_running`. -/
def testsRunning : PollPc → Bool
  | .loopTest => true
  | .innerTest _ => true
  | _ => false

/-- The thread can come to a test of `_running` and from there on to a GET. -/
def CanFetch (running : Bool) (pc : PollPc) : Prop :=
  ∃ pc₁ pc₂ pc₃ a, ThreadRun str running pc pc₁ ∧ testsRunning pc₁ = true ∧
    ThreadRun str running pc₁ pc₂ ∧ ThreadStep str running (.get a) pc₂ pc₃

/-- Every submission of the operation raises. -/
def Doomed (operation : PyVal) : Prop :=
  ∀ downloads w w', submitOperation (handlePolledOperation str downloads) operation w ≠ .ok () w'

/-- The thread has left `_run_loop`, or holds an operation whose submission will
end it. -/
def Over : PollPc → Prop
  | .returned => True
  | .crashed _ => True
  | .fetching a => (fetchOperation a).truthy = true ∧ Doomed str (fetchOperation a)
  | .innerTest operation => operation.truthy = true ∧ Doomed str operation
  | .submit operation => Doomed str operation
  | _ => False

end PollerRestarts

open PollerRestarts

namespace PollerRestartsLemmas

variable {str : PyVal → String} {running : Bool} {pc pc' : PollPc} {i : PollInput}

theorem threadStep_move (h : ThreadStep str running i pc pc') :
    ∃ w w', PollMove str running w pc i pc' w' := by
  obtain ⟨w, w', hs⟩ := h
  exact ⟨w, w', pollStep_move hs⟩

/-- Where a thread is between a test of `_running` that fails and its end. -/
def stopping : PollPc → Bool
  | .loopTest => true
  | .innerTest _ => true
  | .enterWait _ => true
  | .waiting _ _ => true
  | .returned => true
  | .crashed _ => true
  | _ => false

theorem stopping_step (hpc : stopping pc = true) (h : ThreadStep str false i pc pc') :
    stopping pc' = true ∧ ∀ a, i ≠ .get a := by
  obtain ⟨w, w', hm⟩ := threadStep_move h
  cases hm <;> simp_all [stopping]

theorem over_step (hpc : Over str pc) (h : ThreadStep str true i pc pc') :
    Over str pc' ∧ ∀ a, i ≠ .get a := by
  obtain ⟨w, w', hm⟩ := threadStep_move h
  cases hm with
  | answer a => exact ⟨hpc, nofun⟩
  | empty hempty => exact absurd (hempty.symm.trans hpc.1) Bool.false_ne_true
  | take => exact ⟨hpc.2, nofun⟩
  | drop _ hstopped => cases hstopped
  | submitted hok => exact absurd hok (hpc _ _ _)
  | raised => exact ⟨trivial, nofun⟩
  | _ => cases hpc

/-- What every step of a thread keeps holds after many. -/
theorem run_invariant {P : PollPc → Prop}
    (hstep : ∀ pc pc' i, P pc → ThreadStep str running i pc pc' → P pc') (hpc : P pc)
    (hrun : ThreadRun str running pc pc') : P pc' := by
  induction hrun with
  | refl => exact hpc
  | tail _ hs ih =>
    obtain ⟨i, hs⟩ := hs
    exact hstep _ _ i ih hs

/-- A thread that stays among control points without a GET sends none. -/
theorem not_canFetch {P : PollPc → Prop} (hpc : ∀ pc₁, ThreadRun str running pc pc₁ →
      testsRunning pc₁ = true → P pc₁)
    (hstep : ∀ pc pc' i, P pc → ThreadStep str running i pc pc' → P pc' ∧ ∀ a, i ≠ .get a) :
    ¬ CanFetch str running pc := by
  rintro ⟨pc₁, pc₂, pc₃, a, hrun, htest, hrun', hget⟩
  have hpc₂ : P pc₂ :=
    run_invariant (fun pc pc' i h hs => (hstep pc pc' i h hs).1) (hpc pc₁ hrun htest) hrun'
  exact (hstep pc₂ pc₃ _ hpc₂ hget).2 a rfl

theorem not_canFetch_of_stopped : ¬ CanFetch str false pc := by
  refine not_canFetch (P := fun pc => stopping pc = true) (fun pc₁ _ htest => ?_)
    fun pc pc' i hpc hs => stopping_step hpc hs
  cases pc₁ <;> simp_all [testsRunning, stopping]

theorem not_canFetch_of_over (hpc : Over str pc) : ¬ CanFetch str true pc := by
  refine not_canFetch (P := Over str) (fun pc₁ hrun _ => ?_) fun pc pc' i hpc hs => over_step hpc hs
  exact run_invariant (fun pc pc' i h hs => (over_step h hs).1) hpc hrun

theorem run_of_step {p q : PollPc} {w v : World} (h : pollStep str running w p i = some (q, v)) :
    ThreadRun str running p q :=
  .single ⟨i, w, v, h⟩

/-- A thread that waits comes to test `_running` at the head of the loop. -/
theorem run_enterWait (why : WaitReason) : ThreadRun str running (.enterWait why) .loopTest :=
  (run_of_step (w := {}) (i := .go) rfl).trans
    (run_of_step (p := .waiting why false) (w := {}) (i := .go) rfl)

theorem run_innerTest {operation : PyVal} (h : operation.truthy = false) :
    ThreadRun str running (.innerTest operation) .loopTest := by
  refine (run_of_step (w := {}) (v := {}) (i := .go) ?_).trans (run_enterWait .emptyFetch)
  simp [pollStep, h]

theorem run_acceptInner : ThreadRun str running .acceptInner .loopTest :=
  (run_of_step (w := {}) (i := .canAccept false) rfl).trans (run_enterWait .backpressure)

/-- A submission that need not raise is followed by the next round. -/
theorem run_submit {operation : PyVal} (h : ¬ Doomed str operation) :
    ThreadRun str running (.submit operation) .loopTest := by
  unfold Doomed at h
  push Not at h
  obtain ⟨downloads, w, w', hok⟩ := h
  refine (run_of_step (w := w) (v := w') (i := .submit downloads) ?_).trans run_acceptInner
  simp [pollStep, hok]

theorem run_innerTest_of_not_over {operation : PyVal} (h : ¬ Over str (.innerTest operation)) :
    ThreadRun str true (.innerTest operation) .loopTest := by
  cases ht : operation.truthy with
  | false => exact run_innerTest ht
  | true =>
    refine (run_of_step (w := {}) (v := {}) (i := .go) ?_).trans
      (run_submit fun hd => h ⟨ht, hd⟩)
    simp [pollStep, ht]

theorem run_heartbeat : ThreadRun str running .heartbeat .loopTest :=
  (run_of_step (w := {}) (i := .heartbeat (.otherError ⟨"", ""⟩)) rfl).trans
    (run_enterWait .backpressure)

/-- A thread that is not over comes to test `_running` at the head of the
loop. -/
theorem run_of_not_over (h : ¬ Over str pc) : ThreadRun str true pc .loopTest := by
  cases pc with
  | loopTest => exact .refl
  | acceptOuter => exact (run_of_step (w := {}) (i := .canAccept false) rfl).trans run_heartbeat
  | heartbeat => exact run_heartbeat
  | issueGet =>
    -- The GET fails, and the thread waits.
    refine (run_of_step (w := {}) (i := .get (.otherError ⟨"", ""⟩)) rfl).trans ?_
    exact (run_of_step (w := {}) (i := .go) rfl).trans (run_innerTest rfl)
  | fetching a =>
    refine (run_of_step (w := {}) (i := .go) rfl).trans ?_
    exact run_innerTest_of_not_over h
  | innerTest operation => exact run_innerTest_of_not_over h
  | submit operation => exact run_submit h
  | acceptInner => exact run_acceptInner
  | enterWait why => exact run_enterWait why
  | waiting why notified => exact run_of_step (w := {}) (i := .go) rfl
  | returned => exact absurd trivial h
  | crashed e => exact absurd trivial h

end PollerRestartsLemmas

open PollerRestartsLemmas

/-- A thread can go on to a GET after it has tested `_running` again if and only
if the poller is running and the thread is not over. -/
theorem canFetch_iff {str : PyVal → String} {running : Bool} {pc : PollPc} :
    CanFetch str running pc ↔ running = true ∧ ¬ Over str pc := by
  cases running with
  | false => simp [not_canFetch_of_stopped]
  | true =>
    refine ⟨fun h => ⟨rfl, fun hover => not_canFetch_of_over hover h⟩, fun ⟨_, h⟩ => ?_⟩
    refine ⟨.loopTest, .issueGet, .fetching (.otherError ⟨"", ""⟩), _, run_of_not_over h, rfl, ?_,
      {}, {}, rfl⟩
    exact (run_of_step (w := {}) (i := .go) rfl).trans
      (run_of_step (p := .acceptOuter) (w := {}) (i := .canAccept true) rfl)

/-! ## 2. One thread at a time -/

namespace PollerRestarts

structure RestartState where
  running : Bool
  /-- `start()` has set `_running` and not started its thread yet -/
  starting : Bool
  threads : Nat → Option PollPc
  nextThread : Nat
  /-- the number of threads whose `stop()` was called, which are the first ones -/
  stoppedThreads : Nat
  world : World

inductive RestartAction
  /-- `start()`: `_running` -/
  | start
  /-- `start()`: the thread -/
  | spawn
  | stop
  | notifyWorkAvailable
  /-- other parts of the agent change the queues -/
  | others (w : World)
  | thread (t : Nat) (i : PollInput)

def RestartState.notifyAll (s : RestartState) : RestartState :=
  { s with threads := fun t => (s.threads t).map PollPc.notifyAll }

/-- `start()` and `stop()` are called in turn. -/
def restartStep (str : PyVal → String) (s : RestartState) : RestartAction → Option RestartState
  | .start => if s.running then none else some { s with running := true, starting := true }
  | .spawn =>
      if s.starting then
        some { s with
          starting := false
          threads := Function.update s.threads s.nextThread (some .loopTest)
          nextThread := s.nextThread + 1 }
      else none
  | .stop =>
      if s.running && !s.starting then
        some { s.notifyAll with running := false, stoppedThreads := s.nextThread }
      else none
  | .notifyWorkAvailable => some s.notifyAll
  | .others w => some { s with world := w }
  | .thread t i =>
      (s.threads t).bind fun pc => (pollStep str s.running s.world pc i).map fun (pc', w) =>
        { s with threads := Function.update s.threads t (some pc'), world := w }

/-- The poller after its constructor. -/
def restarts (str : PyVal → String) : System RestartState RestartAction where
  init :=
    { running := false, starting := false, threads := fun _ => none, nextThread := 0,
      stoppedThreads := 0, world := {} }
  step := restartStep str

/-- The thread can go on to a GET after it has tested `_running` again. -/
def Fetches (str : PyVal → String) (s : RestartState) (t : Nat) : Prop :=
  ∃ pc, s.threads t = some pc ∧ CanFetch str s.running pc

/-- At most one thread can, and none whose `stop()` was called. -/
structure SingleThreaded (str : PyVal → String) (s : RestartState) : Prop where
  one : ∀ t₁ t₂, Fetches str s t₁ → Fetches str s t₂ → t₁ = t₂
  stopped : ∀ t < s.stoppedThreads, ¬ Fetches str s t

/-- At a `start()` every earlier thread is over. -/
def EarlierOver (str : PyVal → String) (s : RestartState) (a : RestartAction) : Prop :=
  a = .start → ∀ t pc, s.threads t = some pc → Over str pc

end PollerRestarts

namespace PollerRestartsLemmas

variable {str : PyVal → String} {s s' : RestartState} {a : RestartAction}

/-- The moves of the restarted poller, one constructor for each way out of
`restartStep`. -/
inductive RestartMove (str : PyVal → String) (s : RestartState) : RestartAction → RestartState → Prop
  | start : s.running = false → RestartMove str s .start { s with running := true, starting := true }
  | spawn : s.starting = true → RestartMove str s .spawn { s with
      starting := false
      threads := Function.update s.threads s.nextThread (some .loopTest)
      nextThread := s.nextThread + 1 }
  | stop : s.running = true → s.starting = false → RestartMove str s .stop
      { s.notifyAll with running := false, stoppedThreads := s.nextThread }
  | notify : RestartMove str s .notifyWorkAvailable s.notifyAll
  | others (w : World) : RestartMove str s (.others w) { s with world := w }
  | thread {t : Nat} {i : PollInput} {pc pc' : PollPc} {w : World} : s.threads t = some pc →
      pollStep str s.running s.world pc i = some (pc', w) →
      RestartMove str s (.thread t i)
        { s with threads := Function.update s.threads t (some pc'), world := w }

theorem restartStep_move (hs : restartStep str s a = some s') : RestartMove str s a s' := by
  cases a with
  | start =>
    obtain ⟨hrunning, hs⟩ := Option.ite_none_left_eq_some.mp hs
    cases hs
    exact .start (Bool.not_eq_true _ ▸ hrunning)
  | spawn =>
    obtain ⟨hstarting, hs⟩ := Option.ite_none_right_eq_some.mp hs
    cases hs
    exact .spawn hstarting
  | stop =>
    obtain ⟨hrunning, hs⟩ := Option.ite_none_right_eq_some.mp hs
    cases hs
    rw [Bool.and_eq_true, Bool.not_eq_true'] at hrunning
    exact .stop hrunning.1 hrunning.2
  | notifyWorkAvailable =>
    cases hs
    exact .notify
  | others w =>
    cases hs
    exact .others w
  | thread t i =>
    obtain ⟨pc, hpc, hs⟩ := Option.bind_eq_some_iff.mp hs
    obtain ⟨⟨pc', w⟩, hstep, rfl⟩ := Option.map_eq_some_iff.mp hs
    exact .thread hpc hstep

/-- One thread at most has not been stopped, and while the poller is running the
others are over. -/
structure RestartInv (str : PyVal → String) (s : RestartState) : Prop where
  fresh : ∀ t pc, s.threads t = some pc → t < s.nextThread
  count : s.nextThread ≤ s.stoppedThreads + 1
  starting : s.starting = true → s.running = true ∧ s.nextThread = s.stoppedThreads
  idle : s.running = false → s.nextThread = s.stoppedThreads
  earlier : s.running = true → ∀ t pc, s.threads t = some pc → t < s.stoppedThreads → Over str pc

theorem over_notifyAll {pc : PollPc} (h : Over str pc) : Over str pc.notifyAll := by
  cases pc <;> exact h

theorem restartInv_step (hi : RestartInv str s) (hok : EarlierOver str s a)
    (hs : restartStep str s a = some s') : RestartInv str s' := by
  cases restartStep_move hs with
  | start hstopped =>
    refine ⟨hi.fresh, hi.count, fun _ => ⟨rfl, hi.idle hstopped⟩, nofun, fun _ t pc hpc _ => ?_⟩
    exact hok rfl t pc hpc
  | spawn hstarting =>
    obtain ⟨hrunning, heq⟩ := hi.starting hstarting
    refine ⟨?_, Nat.succ_le_succ (Nat.le_of_eq heq), nofun, ?_, fun _ => ?_⟩
    · refine update_thread (fun t pc h => Nat.lt_succ_of_lt (hi.fresh t pc h)) ?_
      exact Nat.lt_succ_self _
    · exact fun hstopped => absurd (hrunning.symm.trans hstopped) (by simp)
    · refine update_thread (fun t pc h => hi.earlier hrunning t pc h) fun hlt => ?_
      exact absurd (heq ▸ hlt) (Nat.lt_irrefl _)
  | stop hrunning hstarting =>
    refine ⟨fun t pc hpc => ?_, Nat.le_succ _, ?_, fun _ => rfl, nofun⟩
    · obtain ⟨pc₀, hpc₀, rfl⟩ := Option.map_eq_some_iff.mp hpc
      exact hi.fresh t pc₀ hpc₀
    · exact fun h => absurd (hstarting.symm.trans h) (by simp)
  | notify =>
    refine ⟨fun t pc hpc => ?_, hi.count, hi.starting, hi.idle, fun hrunning t pc hpc hlt => ?_⟩
    · obtain ⟨pc₀, hpc₀, rfl⟩ := Option.map_eq_some_iff.mp hpc
      exact hi.fresh t pc₀ hpc₀
    · obtain ⟨pc₀, hpc₀, rfl⟩ := Option.map_eq_some_iff.mp hpc
      exact over_notifyAll (hi.earlier hrunning t pc₀ hpc₀ hlt)
  | others w => exact ⟨hi.fresh, hi.count, hi.starting, hi.idle, hi.earlier⟩
  | thread hpc hstep =>
    refine ⟨update_thread hi.fresh (hi.fresh _ _ hpc), hi.count, hi.starting, hi.idle, ?_⟩
    intro hrunning
    refine update_thread (hi.earlier hrunning) fun hlt => ?_
    rw [hrunning] at hstep
    exact (over_step (hi.earlier hrunning _ _ hpc hlt) ⟨_, _, hstep⟩).1

theorem singleThreaded_of_inv (hi : RestartInv str s) : SingleThreaded str s := by
  have unstopped {t : Nat} (h : Fetches str s t) : s.stoppedThreads ≤ t := by
    obtain ⟨pc, hpc, hfetch⟩ := h
    obtain ⟨hrunning, hover⟩ := canFetch_iff.mp hfetch
    exact Nat.le_of_not_lt fun hlt => hover (hi.earlier hrunning t pc hpc hlt)
  refine ⟨fun t₁ t₂ h₁ h₂ => ?_, fun t hlt h => Nat.not_le_of_lt hlt (unstopped h)⟩
  have hlow₁ := unstopped h₁
  have hlow₂ := unstopped h₂
  obtain ⟨pc₁, hpc₁, -⟩ := h₁
  obtain ⟨pc₂, hpc₂, -⟩ := h₂
  have hfresh₁ := hi.fresh t₁ pc₁ hpc₁
  have hfresh₂ := hi.fresh t₂ pc₂ hpc₂
  have hcount := hi.count
  omega

/-- A thread that is not over at a `start()` can fetch after it. -/
theorem not_singleThreaded (hi : RestartInv str s) (hok : ¬ EarlierOver str s a)
    (hs : restartStep str s a = some s') : ¬ SingleThreaded str s' := by
  unfold EarlierOver at hok
  push Not at hok
  obtain ⟨rfl, t, pc, hpc, hover⟩ := hok
  cases restartStep_move hs with
  | start hstopped =>
    intro hsingle
    refine hsingle.stopped t ?_ ⟨pc, hpc, canFetch_iff.mpr ⟨rfl, hover⟩⟩
    exact hi.idle hstopped ▸ hi.fresh t pc hpc

end PollerRestartsLemmas

/-- In every state of a run at most one thread can go on to a GET after it has
tested `_running` again, and none whose `stop()` was called, if and only if,
along the run, every `start()` finds that each earlier thread has left the loop
or holds an operation whose submission will end it. -/
theorem single_threaded_iff (str : PyVal → String) {l : List RestartAction} {s : RestartState}
    (h : (restarts str).exec (restarts str).init l = some s) :
    (restarts str).Throughout (SingleThreaded str) (restarts str).init l ↔
      (restarts str).Along (EarlierOver str) (restarts str).init l := by
  refine System.throughout_iff_along (J := RestartInv str) ?_ ?_ ?_ ?_ h
  · exact fun s hi => singleThreaded_of_inv hi
  · exact fun s a s' hi hok hs => restartInv_step hi hok hs
  · exact fun s a s' hi hok hs => not_singleThreaded hi hok hs
  · exact ⟨nofun, Nat.zero_le _, nofun, fun _ => rfl, nofun⟩

/-- The first thread, from its start to its end after a `stop()`. -/
def stoppedRun : List RestartAction := [.spawn, .stop, .thread 0 .go]

/-- The rule at a restart that follows the end of the first thread. -/
theorem single_threaded_iff_restarted :
    (restarts fun _ => "").Throughout (SingleThreaded fun _ => "") (restarts fun _ => "").init
      ([.start] ++ (stoppedRun ++ [.start, .spawn])) := by
  refine (single_threaded_iff _ (l := [.start] ++ (stoppedRun ++ [.start, .spawn])) rfl).mpr ?_
  refine (System.along_append (l := [RestartAction.start]) rfl).mpr ⟨⟨?_, fun _ _ => trivial⟩, ?_⟩
  · rintro - t pc hpc
    cases hpc
  refine (System.along_append (l := stoppedRun) rfl).mpr ⟨?_, ?_, fun _ _ => ⟨nofun, ?_⟩⟩
  · refine System.along_of_forall (fun a ha s => ?_) _
    rintro rfl
    simp [stoppedRun] at ha
  · rintro - t pc hpc
    cases t with
    | zero =>
      cases hpc
      trivial
    | succ t => cases hpc
  · exact fun _ _ => trivial

/-- A thread that is stopped and started again while its GET is under way. -/
def fetchingRun : List RestartAction :=
  [.start, .spawn, .thread 0 .go, .thread 0 (.canAccept true),
    .thread 0 (.get (.response ⟨204, "No Content", "http://backend", .ok .none⟩)), .stop, .start,
    .spawn]

/-- It fetches on, beside the new thread. -/
theorem stopped_thread_resumes :
    ∃ s, (restarts fun _ => "").Reachable s ∧ 0 < s.stoppedThreads ∧
      Fetches (fun _ => "") s 0 ∧ Fetches (fun _ => "") s 1 := by
  refine ⟨_, System.reachable_of_exec (l := fetchingRun) rfl, Nat.one_pos, ?_, ?_⟩
  · exact ⟨_, rfl, canFetch_iff.mpr ⟨rfl, fun hover => Bool.false_ne_true hover.1⟩⟩
  · exact ⟨_, rfl, canFetch_iff.mpr ⟨rfl, fun hover => hover⟩⟩

end EgressAgent
