import Mathlib.Data.List.Perm.Subperm
import EgressAgent.QueueProcessor

/-!
# The handlers of a queue processor

`QueueAsyncProcessor` with any calls of `start()`, also of one that was stopped
before, whose old workers go on if they have not seen it.

`handlers_bounded`: no item is lost, doubled or overtaken over restarts, and at most
as many items are in the hands of workers as the calls of `start()` have made; with
one worker in all the handler is called in the order of the queue.
`restarted_processor_doubles`: a processor of one thread that is stopped and started
again may run two handlers at once.
-/

namespace EgressAgent

open Py Transition
open QueueProcessor QueueProcessorLemmas

namespace HandlerConcurrencyLemmas

variable {T : Type} {threads : Nat} {s s' : ProcessorState T} {a : ProcessorAction T}

/-- The threads are those that the calls of `start()` have started or are still to
start. -/
theorem spawned_step (hi : s.nextWorker + s.spawning = s.starts * threads)
    (hs : Move threads s a s') : s'.nextWorker + s'.spawning = s'.starts * threads := by
  cases hs with
  | start =>
    show s.nextWorker + (s.spawning + threads) = (s.starts + 1) * threads
    rw [← Nat.add_assoc, hi, Nat.succ_mul]
  | spawn hspawning =>
    show s.nextWorker + 1 + (s.spawning - 1) = s.starts * threads
    omega
  | _ => exact hi

theorem nextWorker_le (h : (processor T threads).Reachable s) :
    s.nextWorker ≤ s.starts * threads := by
  have hspawned : s.nextWorker + s.spawning = s.starts * threads := by
    refine h.invariant (I := fun s => s.nextWorker + s.spawning = s.starts * threads) ?_ ?_
    · exact (Nat.zero_mul threads).symm
    · exact fun s a s' hi _ hs => spawned_step hi (step_move hs)
  exact Nat.le.intro hspawned

def isHolding : WorkerPc T → Bool
  | .holding _ => true
  | _ => false

/-- The item that the worker 0 has taken and not handed to the handler. -/
def heldFirst (workers : Nat → Option (WorkerPc T)) : List (Nat × Item T) :=
  match workers 0 with
  | some (.holding x) => [(0, x)]
  | _ => []

theorem heldFirst_nil {workers : Nat → Option (WorkerPc T)} {pc : WorkerPc T}
    (h : workers 0 = some pc) (hpc : isHolding pc = false) : heldFirst workers = [] := by
  unfold heldFirst
  rw [h]
  cases pc <;> first | rfl | cases hpc

theorem heldFirst_notifyAll (s : ProcessorState T) :
    heldFirst s.notifyAll.workers = heldFirst s.workers := by
  unfold heldFirst ProcessorState.notifyAll
  cases hpc : s.workers 0 with
  | none => simp [hpc]
  | some pc => cases pc <;> simp [hpc, WorkerPc.notifyAll]

/-- Without a second worker, the items that were taken are those that were handed to
the handler and the one that is held. -/
def Sequential (s : ProcessorState T) : Prop :=
  s.nextWorker ≤ 1 → s.taken = s.invoked ++ heldFirst s.workers

/-- The only worker. -/
theorem eq_zero_of_worker (hf : FlagInv s) (hone : s.nextWorker ≤ 1) {k : Nat} {pc : WorkerPc T}
    (hk : s.workers k = some pc) : k = 0 :=
  Nat.lt_one_iff.mp (Nat.lt_of_lt_of_le (hf.fresh k pc hk) hone)

/-- A move of a worker that holds no item before and none after. -/
theorem sequential_move (hf : FlagInv s) (hi : Sequential s) {k : Nat} {pc pc' : WorkerPc T}
    (hk : s.workers k = some pc) (hpc : isHolding pc = false) (hpc' : isHolding pc' = false)
    (hone : s.nextWorker ≤ 1) :
    s.taken = s.invoked ++ heldFirst (Function.update s.workers k (some pc')) := by
  obtain rfl := eq_zero_of_worker hf hone hk
  rw [heldFirst_nil (Function.update_self ..) hpc', hi hone, heldFirst_nil hk hpc]

theorem sequential_step (hf : FlagInv s) (hi : Sequential s) (hs : Move threads s a s') :
    Sequential s' := by
  cases hs with
  | start => exact hi
  | spawn =>
    intro hone
    have hzero : s.nextWorker = 0 := Nat.le_zero.mp (Nat.le_of_succ_le_succ hone)
    have hnone : heldFirst s.workers = [] := by
      unfold heldFirst
      split
      · next x hx => exact absurd (hf.fresh 0 _ hx) (by omega)
      · rfl
    show s.taken = s.invoked ++ heldFirst (Function.update s.workers s.nextWorker (some .loopTest))
    rw [hi (by omega), hnone, hzero, heldFirst_nil (Function.update_self ..) rfl]
  | stop => exact fun hone => (hi hone).trans (by rw [← heldFirst_notifyAll s]; rfl)
  | schedule => exact fun hone => (hi hone).trans (by rw [← heldFirst_notifyAll s]; rfl)
  | enter hk => exact sequential_move hf hi hk rfl rfl
  | finish hk => exact sequential_move hf hi hk rfl rfl
  | wait hk => exact sequential_move hf hi hk rfl rfl
  | lock hk => exact sequential_move hf hi hk rfl rfl
  | wake hk => exact sequential_move hf hi hk rfl rfl
  | leave hk => exact sequential_move hf hi hk rfl rfl
  | crash hk => exact sequential_move hf hi hk rfl rfl
  | handled _ hk => exact sequential_move hf hi hk rfl rfl
  | @take k x rest hk =>
    intro hone
    obtain rfl := eq_zero_of_worker hf hone hk
    have hbefore := hi hone
    rw [heldFirst_nil hk rfl, List.append_nil] at hbefore
    have hafter : heldFirst (Function.update s.workers 0 (some (.holding x))) = [(0, x)] := by
      rw [heldFirst, Function.update_self]
    show s.taken ++ [(0, x)] = s.invoked ++ heldFirst (Function.update s.workers 0 (some (.holding x)))
    rw [hafter, hbefore]
  | @invoke k x hk =>
    intro hone
    obtain rfl := eq_zero_of_worker hf hone hk
    have hbefore : heldFirst s.workers = [(0, x)] := by
      rw [heldFirst, hk]
    show s.taken = s.invoked ++ [(0, x)] ++
      heldFirst (Function.update s.workers 0 (some (.handling x)))
    rw [heldFirst_nil (Function.update_self ..) rfl, List.append_nil, hi hone, hbefore]

theorem sequential (h : (processor T threads).Reachable s) : Sequential s := by
  refine h.invariant_with (J := fun s => FlagInv s) (fun _ hr => (runInv hr).2.1) ?_ ?_
  · exact fun _ => rfl
  · exact fun s a s' hf hi _ hs => sequential_step hf hi (step_move hs)

end HandlerConcurrencyLemmas

open HandlerConcurrencyLemmas

/-- In every run of a queue processor, however often it is stopped and started
again, the items that were taken and then the queue are the items scheduled, each
that was taken is about to be handed to the handler or was handed to it once, and no
more workers have an item in hand than the calls of `start()` have made. If these
made one worker at most, the handler is called in the order in which the items were
scheduled. -/
theorem handlers_bounded (T : Type) (threads : Nat) {s : ProcessorState T}
    (h : (processor T threads).Reachable s) :
    s.taken.map Prod.snd ++ s.queue = s.scheduled ∧
      (∀ k x, (k, x) ∈ s.taken → Xor (s.workers k = some (.holding x)) ((k, x) ∈ s.invoked)) ∧
      s.invoked.Nodup ∧
      (∀ ks : List Nat, ks.Nodup → (∀ k ∈ ks, ∃ x, s.Holds k x) →
        ks.length ≤ s.starts * threads) ∧
      (s.starts * threads ≤ 1 → ∃ waiting, waiting.length ≤ 1 ∧
        s.invoked.map Prod.snd ++ waiting ++ s.queue = s.scheduled) := by
  obtain ⟨ho, hf, hh⟩ := runInv h
  have hnext := nextWorker_le h
  refine ⟨ho.order, hh.handed, hh.nodup, fun ks hnodup hks => ?_, fun hone => ?_⟩
  · have hrange : ks ⊆ List.range s.nextWorker := by
      intro k hk
      obtain ⟨x, hx | hx⟩ := hks k hk
      · exact List.mem_range.mpr (hf.fresh k _ hx)
      · exact List.mem_range.mpr (hf.fresh k _ hx)
    have hlength := (hnodup.subperm hrange).length_le
    rw [List.length_range] at hlength
    exact Nat.le_trans hlength hnext
  · refine ⟨(heldFirst s.workers).map Prod.snd, ?_, ?_⟩
    · unfold heldFirst
      split <;> simp
    · rw [← List.map_append, ← sequential h (Nat.le_trans hnext hone)]
      exact ho.order

/-- A processor of one thread whose worker is in the handler when it is stopped and
started again: the new worker takes the next item. -/
def restartedRun : List (ProcessorAction Nat) :=
  [.schedule 7, .schedule 8, .start, .spawn, .worker 0 .go, .worker 0 .go, .worker 0 .go,
    .worker 0 .go, .stop, .start, .spawn, .worker 1 .go, .worker 1 .go, .worker 1 .go, .worker 1 .go]

/-- The item that a worker handles. -/
def handled? : Option (WorkerPc Nat) → Option (Nat × Nat)
  | some (.handling x) => some (x.number, x.value)
  | _ => none

theorem HandlerConcurrencyLemmas.exists_of_handled? {s : ProcessorState Nat} {k : Nat}
    {item : Nat × Nat} (h : handled? (s.workers k) = some item) : ∃ x, s.Holds k x := by
  unfold handled? at h
  split at h
  · next x hx => exact ⟨x, .inr hx⟩
  · cases h

/-- The rule where the bound is reached: two handlers run at once, though the
processor is one of one thread. -/
theorem handlers_bounded_restarted :
    ∃ s, (processor Nat 1).exec (processor Nat 1).init restartedRun = some s ∧ s.starts = 2 ∧
      handled? (s.workers 0) = some (0, 7) ∧ handled? (s.workers 1) = some (1, 8) ∧
      [0, 1].length ≤ s.starts * 1 := by
  have hrun : ((processor Nat 1).exec (processor Nat 1).init restartedRun).map
      (fun s => (s.starts, handled? (s.workers 0), handled? (s.workers 1))) =
      some (2, some (0, 7), some (1, 8)) := by decide +kernel
  obtain ⟨s, hs, hends⟩ := Option.map_eq_some_iff.mp hrun
  simp only [Prod.mk.injEq] at hends
  obtain ⟨hstarts, hfirst, hsecond⟩ := hends
  refine ⟨s, hs, hstarts, hfirst, hsecond, ?_⟩
  refine (handlers_bounded Nat 1 (System.reachable_of_exec hs)).2.2.2.1 [0, 1] (by decide) ?_
  intro k hk
  rcases List.mem_cons.mp hk with rfl | hk
  · exact exists_of_handled? hfirst
  · rw [List.mem_singleton.mp hk]
    exact exists_of_handled? hsecond

end EgressAgent
