import EgressAgent.Lib.Timed
import EgressAgent.QueueProcessor

/-!
# The queue processor in time

One worker of `QueueAsyncProcessor` in rational time, beside any other workers and
any calls of `start()`, `stop()` and `schedule()`. A call of the handler takes up to
a given time and every other step of the worker up to a latency, with the time that
it takes to get the lock.

1. `scheduled_items_taken`: an item that is scheduled behind `n` others has been
   taken after `n + 1` rounds of this worker, however the others fare.
2. `stopped_workers_end`: a worker has left its loop after the call that it is in
   and three latencies, once the processor is stopped.
-/

namespace EgressAgent

open Py Transition
open QueueProcessor

namespace QueueDelays

/-- How long the steps of a worker take at most. -/
structure WorkDurations where
  handler : ℚ
  latency : ℚ
  handler_nonneg : 0 ≤ handler
  latency_nonneg : 0 ≤ latency

/-- A control point of a worker without the item that it holds there. -/
inductive Stage
  | loopTest
  | enter
  | waiting (notified : Bool)
  | locked
  | holding
  | handling
  /-- the worker has left its loop -/
  | left
deriving DecidableEq

def stage {T : Type} : WorkerPc T → Stage
  | .loopTest => .loopTest
  | .enter => .enter
  | .waiting notified _ => .waiting notified
  | .locked => .locked
  | .holding _ => .holding
  | .handling _ => .handling
  | .returned => .left
  | .crashed => .left

/-- The number of items before the item number `j`, if it is in the queue. -/
def rank {T : Type} (j : Nat) : List (Item T) → Option Nat
  | [] => none
  | x :: rest => if x.number = j then some 0 else (rank j rest).map (· + 1)

/-- Where the worker `k` is while the item number `j` is in the queue, and how many
items are before it. -/
def turn {T : Type} (k j : Nat) (s : ProcessorState T) : Option (Stage × Nat) :=
  (s.workers k).bind fun pc => (rank j s.queue).map fun n => (stage pc, n)

namespace WorkDurations

variable (d : WorkDurations)

/-- How long the worker may stay at a control point. It waits for a notification as
long as it takes. -/
def most : Stage → Option ℚ
  | .left => none
  | .waiting false => none
  | .handling => some d.handler
  | _ => some d.latency

/-- One round of a worker. -/
def round : ℚ := d.handler + 4 * d.latency

/-- At most how long the worker takes until it takes the next item. -/
def untilTake : Stage → ℚ
  | .locked => d.latency
  | .enter => 2 * d.latency
  | .loopTest => 3 * d.latency
  | .waiting _ => 3 * d.latency
  | .handling => d.handler + 3 * d.latency
  | .holding => d.round
  | .left => 0

/-- At most how long a stopped worker takes until it has left its loop. -/
def untilLeft : Stage → ℚ
  | .loopTest => d.latency
  | .locked => d.latency
  | .enter => 2 * d.latency
  | .waiting _ => 3 * d.latency
  | .handling => d.handler + d.latency
  | .holding => d.handler + 2 * d.latency
  | .left => 0

theorem most_nonneg {b : Stage} {m : ℚ} (h : d.most b = some m) : 0 ≤ m := by
  unfold most at h
  split at h <;> cases h
  · exact d.handler_nonneg
  · exact d.latency_nonneg

theorem most_le_round {b : Stage} {m : ℚ} (h : d.most b = some m) : m ≤ d.round := by
  have hhandler := d.handler_nonneg
  have hlatency := d.latency_nonneg
  unfold most at h
  split at h <;> cases h <;> unfold round <;> linarith

/-- The timing of the worker `k` while the item number `j` is in the queue. -/
def itemTiming {T : Type} (k j : Nat) :
    Timing (ProcessorState T) (ProcessorAction T) (Option (Stage × Nat)) where
  place := turn k j
  least _ _ := 0
  most o := o.bind fun b => d.most b.1
  most_nonneg h := by
    obtain ⟨b, -, hb⟩ := Option.bind_eq_some_iff.mp h
    exact d.most_nonneg hb

/-- The timing of the worker `k`. -/
def workerTiming {T : Type} (k : Nat) :
    Timing (ProcessorState T) (ProcessorAction T) (Option Stage) where
  place s := (s.workers k).map stage
  least _ _ := 0
  most o := o.bind d.most
  most_nonneg h := by
    obtain ⟨b, -, hb⟩ := Option.bind_eq_some_iff.mp h
    exact d.most_nonneg hb

end WorkDurations

end QueueDelays

open QueueDelays

/-! ## 1. The items in the queue -/

namespace QueueDelaysLemmas

open QueueProcessorLemmas

variable {T : Type} {threads k j n : Nat} {d : WorkDurations} {s s' : ProcessorState T}
  {a : ProcessorAction T} {pc pc' : WorkerPc T}

theorem rank_append {queue : List (Item T)} (h : rank j queue = some n) (queue' : List (Item T)) :
    rank j (queue ++ queue') = some n := by
  induction queue generalizing n with
  | nil => cases h
  | cons x rest ih =>
    rw [List.cons_append]
    unfold rank at h ⊢
    split_ifs at h ⊢ with hx
    · exact h
    · obtain ⟨n', hn', rfl⟩ := Option.map_eq_some_iff.mp h
      rw [ih hn']
      rfl

theorem rank_eq_none {queue : List (Item T)} :
    rank j queue = none ↔ ∀ x ∈ queue, x.number ≠ j := by
  induction queue with
  | nil => simp [rank]
  | cons x rest ih =>
    unfold rank
    split_ifs with hx <;> simp [hx, ih]

/-- The last item of a queue in which no other has its number. -/
theorem rank_concat {queue : List (Item T)} {x : Item T} (h : rank x.number queue = none) :
    rank x.number (queue ++ [x]) = some queue.length := by
  induction queue with
  | nil => simp [rank]
  | cons y rest ih =>
    have hnone := rank_eq_none.mp h
    have hy : y.number ≠ x.number := hnone y List.mem_cons_self
    have hrest : rank x.number rest = none :=
      rank_eq_none.mpr fun z hz => hnone z (List.mem_cons_of_mem _ hz)
    rw [List.cons_append, rank, if_neg hy, ih hrest]
    rfl

theorem ne_nil_of_rank {queue : List (Item T)} (h : rank j queue = some n) : queue ≠ [] := by
  rintro rfl
  cases h

/-- What a step does to the queue and to a worker, be it a step of this worker, one
of another that takes an item, or a call that adds items and notifies. -/
inductive WorkerMove (s : ProcessorState T) : WorkerPc T → List (Item T) → WorkerPc T → Prop
  | rests {pc : WorkerPc T} : WorkerMove s pc s.queue pc
  | overtaken {pc : WorkerPc T} {x : Item T} {rest : List (Item T)} : s.queue = x :: rest →
      WorkerMove s pc rest pc
  | notified {pc : WorkerPc T} {queue : List (Item T)} :
      (∀ x ∈ queue, x.number = s.scheduled.length) → WorkerMove s pc (s.queue ++ queue) pc.notifyAll
  | enters : s.running = true → WorkerMove s .loopTest s.queue .enter
  | finishes : s.running = false → WorkerMove s .loopTest s.queue .returned
  | waits (since : Nat) : s.queue = [] → s.running = true →
      WorkerMove s .enter s.queue (.waiting false since)
  | locks : WorkerMove s .enter s.queue .locked
  | wakes (notified : Bool) (since : Nat) : WorkerMove s (.waiting notified since) s.queue .enter
  | leaves : s.running = false → WorkerMove s .locked s.queue .returned
  | crashes : s.running = true → s.queue = [] → WorkerMove s .locked s.queue .crashed
  | takes {x : Item T} {rest : List (Item T)} : s.running = true → s.queue = x :: rest →
      WorkerMove s .locked rest (.holding x)
  | calls (x : Item T) : WorkerMove s (.holding x) s.queue (.handling x)
  | returns (x : Item T) : WorkerMove s (.handling x) s.queue .loopTest

theorem worker_move (hf : FlagInv s) (hk : s.workers k = some pc) (hs : Move threads s a s') :
    ∃ pc', s'.workers k = some pc' ∧ WorkerMove s pc s'.queue pc' := by
  have own {k₁ : Nat} {pc₁ pc₂ : WorkerPc T} (hk₁ : s.workers k₁ = some pc₁)
      (hmove : WorkerMove s pc₁ s.queue pc₂) :
      ∃ pc', Function.update s.workers k₁ (some pc₂) k = some pc' ∧ WorkerMove s pc s.queue pc' := by
    by_cases hne : k = k₁
    · subst hne
      cases hk.symm.trans hk₁
      exact ⟨pc₂, Function.update_self .., hmove⟩
    · exact ⟨pc, (Function.update_of_ne hne ..).trans hk, .rests⟩
  cases hs with
  | start => exact ⟨pc, hk, .rests⟩
  | spawn =>
    have hne : k ≠ s.nextWorker := (hf.fresh k pc hk).ne
    exact ⟨pc, (Function.update_of_ne hne ..).trans hk, .rests⟩
  | stop =>
    have hmove : WorkerMove s pc (s.queue ++ []) pc.notifyAll :=
      .notified fun x hx => absurd hx List.not_mem_nil
    rw [List.append_nil] at hmove
    exact ⟨pc.notifyAll, by simp [ProcessorState.notifyAll, hk], hmove⟩
  | schedule o =>
    refine ⟨pc.notifyAll, by simp [ProcessorState.notifyAll, hk], .notified fun x hx => ?_⟩
    rw [List.mem_singleton.mp hx]
  | enter hk₁ hrunning => exact own hk₁ (.enters hrunning)
  | finish hk₁ hrunning => exact own hk₁ (.finishes hrunning)
  | wait hk₁ hq hrunning => exact own hk₁ (.waits s.stops hq hrunning)
  | lock hk₁ => exact own hk₁ .locks
  | wake hk₁ => exact own hk₁ (.wakes ..)
  | leave hk₁ hrunning => exact own hk₁ (.leaves hrunning)
  | crash hk₁ hrunning hq => exact own hk₁ (.crashes hrunning hq)
  | @take k₁ x rest hk₁ hrunning hq =>
    by_cases hne : k = k₁
    · subst hne
      cases hk.symm.trans hk₁
      exact ⟨.holding x, Function.update_self .., .takes hrunning hq⟩
    · exact ⟨pc, (Function.update_of_ne hne ..).trans hk, .overtaken hq⟩
  | invoke hk₁ => exact own hk₁ (.calls _)
  | handled _ hk₁ => exact own hk₁ (.returns _)

theorem stays_running (hrunning : s.running = true) (ha : a ≠ .stop) (hs : Move threads s a s') :
    s'.running = true := by
  cases hs with
  | start => rfl
  | stop => exact absurd rfl ha
  | _ => exact hrunning

theorem stays_stopped (hstopped : s.running = false) (ha : a ≠ .start) (hs : Move threads s a s') :
    s'.running = false := by
  cases hs with
  | start => exact absurd rfl ha
  | stop => rfl
  | _ => exact hstopped

theorem scheduled_le (hs : Move threads s a s') : s.scheduled.length ≤ s'.scheduled.length := by
  cases hs with
  | schedule o =>
    show s.scheduled.length ≤ (s.scheduled ++ [_]).length
    rw [List.length_append]
    exact Nat.le_add_right _ _
  | _ => exact Nat.le_refl _

/-- An item that is not in the queue is not put into it later. -/
theorem rank_of_move {queue : List (Item T)} (hj : j < s.scheduled.length)
    (hmove : WorkerMove s pc queue pc') (h : rank j s.queue = none) : rank j queue = none := by
  rw [rank_eq_none] at h ⊢
  cases hmove with
  | overtaken hq => exact fun y hy => h y (hq ▸ List.mem_cons_of_mem _ hy)
  | takes _ hq => exact fun y hy => h y (hq ▸ List.mem_cons_of_mem _ hy)
  | notified hnew =>
    intro y hy
    rcases List.mem_append.mp hy with hold | hadded
    · exact h y hold
    · rw [hnew y hadded]
      exact Nat.ne_of_gt hj
  | _ => exact h

/-- The items in the queue have their numbers for themselves. -/
def Numbered (s : ProcessorState T) : Prop := (s.queue.map Item.number).Nodup

theorem numbered_step (ho : OrderInv s) (hi : Numbered s) (hs : Move threads s a s') :
    Numbered s' := by
  cases hs with
  | schedule o =>
    show ((s.queue ++ [_]).map Item.number).Nodup
    rw [List.map_append]
    refine List.nodup_append.mpr ⟨hi, List.nodup_singleton _, ?_⟩
    rintro m hm m' hm' rfl
    obtain ⟨x, hx, hnumber⟩ := List.mem_map.mp hm
    have hfresh : x.number < s.scheduled.length := by
      refine ho.fresh x ?_
      rw [← ho.order]
      exact List.mem_append_right _ hx
    rw [List.map_singleton, List.mem_singleton] at hm'
    exact absurd (hnumber.trans hm') hfresh.ne
  | take _ _ hq =>
    have hnumbers : (s.queue.map Item.number).Nodup := hi
    rw [hq, List.map_cons] at hnumbers
    exact (List.nodup_cons.mp hnumbers).2
  | _ => exact hi

/-- The processor runs, and the worker is in its loop while the item is in the
queue. -/
structure Serving (k j : Nat) (s : ProcessorState T) : Prop where
  running : s.running = true
  order : OrderInv s
  numbered : Numbered s
  flag : FlagInv s
  awake : SleepInv s
  scheduled : j < s.scheduled.length
  worker : ∃ pc, s.workers k = some pc ∧ (rank j s.queue ≠ none → pc.inLoop = true)

theorem serving_step (hi : Serving k j s) (ha : a ≠ .stop) (hs : Move threads s a s') :
    Serving k j s' := by
  obtain ⟨pc, hk, hloop⟩ := hi.worker
  obtain ⟨pc', hk', hmove⟩ := worker_move hi.flag hk hs
  refine ⟨stays_running hi.running ha hs, orderInv_step hi.order hs,
    numbered_step hi.order hi.numbered hs, flagInv_step hi.flag hs, sleepInv_step hi.awake hs,
    Nat.lt_of_lt_of_le hi.scheduled (scheduled_le hs), pc', hk', fun hqueued => ?_⟩
  have hqueued₀ : rank j s.queue ≠ none := fun h => hqueued (rank_of_move hi.scheduled hmove h)
  have hin := hloop hqueued₀
  generalize s'.queue = queue at hmove
  cases hmove with
  | finishes hstopped => exact absurd (hi.running.symm.trans hstopped) (by simp)
  | leaves hstopped => exact absurd (hi.running.symm.trans hstopped) (by simp)
  | crashes _ hq =>
    rw [hq] at hqueued₀
    exact absurd rfl hqueued₀
  | notified => exact (notifyAll_inLoop pc).trans hin
  | rests => exact hin
  | overtaken => exact hin
  | _ => rfl

/-- What the steps do to the turn of an item that stays in the queue: it comes nearer
when a worker takes the first one. -/
inductive Advance : Stage → Nat → Stage → Nat → Prop
  | stays (b : Stage) (n : Nat) : Advance b n b n
  | overtaken (b : Stage) (n : Nat) : Advance b (n + 1) b n
  | enters (n : Nat) : Advance .loopTest n .enter n
  | locks (n : Nat) : Advance .enter n .locked n
  | wakes (n : Nat) : Advance (.waiting true) n .enter n
  | takes (n : Nat) : Advance .locked (n + 1) .holding n
  | calls (n : Nat) : Advance .holding n .handling n
  | returns (n : Nat) : Advance .handling n .loopTest n

/-- The first item of the queue goes, and the others move up. -/
theorem rank_tail (hi : Numbered s) {x : Item T} {rest : List (Item T)} {n' : Nat}
    (hq : s.queue = x :: rest) (h : rank j s.queue = some n) (h' : rank j rest = some n') :
    n = n' + 1 := by
  have hnumbers : (s.queue.map Item.number).Nodup := hi
  rw [hq, List.map_cons] at hnumbers
  have hx : x.number ≠ j := by
    rintro rfl
    have hnone : rank x.number rest = none := by
      refine rank_eq_none.mpr fun y hy heq => (List.nodup_cons.mp hnumbers).1 ?_
      exact List.mem_map.mpr ⟨y, hy, heq⟩
    cases hnone.symm.trans h'
  rw [hq, rank, if_neg hx, h'] at h
  exact (Option.some.inj h).symm

theorem turn_eq_some {b : Stage} (hk : s.workers k = some pc) (h : turn k j s = some (b, n)) :
    stage pc = b ∧ rank j s.queue = some n := by
  rw [turn, hk, Option.bind_some, Option.map_eq_some_iff] at h
  obtain ⟨n', hn', heq⟩ := h
  cases heq
  exact ⟨rfl, hn'⟩

theorem advance_of_step {b b' : Stage} {n' : Nat} (hi : Serving k j s) (hs : Move threads s a s')
    (h : turn k j s = some (b, n)) (h' : turn k j s' = some (b', n')) : Advance b n b' n' := by
  obtain ⟨pc, hk, -⟩ := hi.worker
  obtain ⟨pc', hk', hmove⟩ := worker_move hi.flag hk hs
  obtain ⟨rfl, hrank⟩ := turn_eq_some hk h
  obtain ⟨rfl, hrank'⟩ := turn_eq_some hk' h'
  have hqueue := ne_nil_of_rank hrank
  have hawake := hi.awake k pc hk
  have hrunning := hi.running
  have same (hq : s'.queue = s.queue) : n' = n := by
    rw [hq, hrank] at hrank'
    exact (Option.some.inj hrank').symm
  generalize hq' : s'.queue = queue at hmove hrank'
  cases hmove with
  | rests =>
    rw [same hq']
    exact .stays ..
  | overtaken hq =>
    rw [rank_tail hi.numbered hq hrank hrank']
    exact .overtaken ..
  | @notified _ added hnew =>
    rw [rank_append hrank added] at hrank'
    cases hrank'
    cases pc with
    | waiting notified since =>
      cases notified with
      | true => exact .stays ..
      | false => exact absurd (hawake since rfl).1 hqueue
    | _ => exact .stays ..
  | takes _ hq =>
    rw [rank_tail hi.numbered hq hrank hrank']
    exact .takes n'
  | wakes notified since =>
    rw [same hq']
    cases notified with
    | true => exact .wakes n
    | false => exact absurd (hawake since rfl).1 hqueue
  | finishes hstopped => cases hrunning.symm.trans hstopped
  | leaves hstopped => cases hrunning.symm.trans hstopped
  | waits since hq => exact absurd hq hqueue
  | crashes _ hq => exact absurd hq hqueue
  | enters =>
    rw [same hq']
    exact .enters n
  | locks =>
    rw [same hq']
    exact .locks n
  | calls x =>
    rw [same hq']
    exact .calls n
  | returns x =>
    rw [same hq']
    exact .returns n

/-- At most how long it takes until an item with that turn is taken. -/
def untilTaken (d : WorkDurations) (o : Option (Stage × Nat)) : ℚ :=
  (o.map fun b => d.untilTake b.1 + b.2 * d.round).getD 0

theorem untilTaken_advance {b b' : Stage} {n' : Nat} {m : ℚ} (h : Advance b n b' n')
    (hne : (b', n') ≠ (b, n)) (hm : d.most b = some m) :
    m + (d.untilTake b' + n' * d.round) ≤ d.untilTake b + n * d.round := by
  have hround := d.most_le_round hm
  cases h with
  | stays => exact absurd rfl hne
  | overtaken =>
    push_cast
    linarith
  | takes =>
    cases hm
    push_cast
    simp only [WorkDurations.untilTake]
    linarith
  | calls =>
    cases hm
    simp only [WorkDurations.untilTake, WorkDurations.round]
    linarith
  | _ =>
    cases hm
    simp only [WorkDurations.untilTake]
    linarith

theorem most_le_untilTake {b : Stage} {m : ℚ} (hm : d.most b = some m) : m ≤ d.untilTake b := by
  have hhandler := d.handler_nonneg
  have hlatency := d.latency_nonneg
  unfold WorkDurations.most at hm
  split at hm <;> cases hm
  · simp only [WorkDurations.untilTake]
    linarith
  · unfold WorkDurations.untilTake WorkDurations.round
    split <;> first | linarith | simp_all

/-- While the item is in the queue, the worker is at a control point with a bound. -/
theorem exists_most_turn (hi : Serving k j s) (h : rank j s.queue ≠ none) :
    ∃ m, (turn k j s).bind (fun b => d.most b.1) = some m := by
  obtain ⟨pc, hk, hloop⟩ := hi.worker
  obtain ⟨n, hn⟩ := Option.ne_none_iff_exists'.mp h
  have hin := hloop h
  rw [turn, hk, Option.bind_some, hn, Option.map_some, Option.bind_some]
  cases pc with
  | waiting notified since =>
    cases notified with
    | true => exact ⟨d.latency, rfl⟩
    | false => exact absurd (hi.awake k _ hk since rfl).1 (ne_nil_of_rank hn)
  | returned => cases hin
  | crashed => cases hin
  | handling x => exact ⟨d.handler, rfl⟩
  | _ => exact ⟨d.latency, rfl⟩

theorem rank_of_most (hi : Serving k j s) (h : (turn k j s).bind (fun b => d.most b.1) = none) :
    rank j s.queue = none := by
  by_contra hqueued
  obtain ⟨m, hm⟩ := exists_most_turn (d := d) hi hqueued
  cases h.symm.trans hm

/-- The deadline for the taking of an item. -/
def takenDeadline (d : WorkDurations) (T : Type) (threads k j : Nat) :
    Deadline (processor T threads) (d.itemTiming k j) (· ≠ .stop) where
  inv := Serving k j
  budget := untilTaken d
  most_le {o m} hm := by
    obtain ⟨⟨b, n⟩, rfl, hb⟩ := Option.bind_eq_some_iff.mp hm
    have hround : 0 ≤ d.round := le_trans (d.most_nonneg hb) (d.most_le_round hb)
    have hrounds : 0 ≤ n * d.round := mul_nonneg (Nat.cast_nonneg n) hround
    have hle := most_le_untilTake hb
    show m ≤ d.untilTake b + n * d.round
    linarith
  keeps hi ha hs := serving_step hi ha (step_move hs)
  left {s a s'} hi ha hs hnone := by
    obtain ⟨pc, hk, -⟩ := hi.worker
    obtain ⟨pc', hk', hmove⟩ := worker_move hi.flag hk (step_move hs)
    have hrank := rank_of_move hi.scheduled hmove (rank_of_most hi hnone)
    show (turn k j s').bind (fun b => d.most b.1) = none
    rw [turn, hk', Option.bind_some, hrank]
    rfl
  moves {s a s' m m'} hi _ hs hne hm hm' := by
    obtain ⟨⟨b, n⟩, hb, hmost⟩ := Option.bind_eq_some_iff.mp hm
    obtain ⟨⟨b', n'⟩, hb', -⟩ := Option.bind_eq_some_iff.mp hm'
    have hb : turn k j s = some (b, n) := hb
    have hb' : turn k j s' = some (b', n') := hb'
    have hne : turn k j s' ≠ turn k j s := hne
    have hadvance := advance_of_step hi (step_move hs) hb hb'
    rw [hb, hb', Ne, Option.some.injEq] at hne
    show m + untilTaken d (turn k j s') ≤ untilTaken d (turn k j s)
    rw [hb, hb']
    exact untilTaken_advance hadvance hne hmost

theorem numbered (h : (processor T threads).Reachable s) : Numbered s := by
  refine h.invariant_with (J := OrderInv) (I := Numbered) (fun _ h => (runInv h).1)
    List.nodup_nil ?_
  exact fun s a s' ho hi _ hs => numbered_step ho hi (step_move hs)

theorem sleepInv (h : (processor T threads).Reachable s) : SleepInv s := by
  refine h.invariant (I := SleepInv) ?_ fun s a s' hi _ hs => sleepInv_step hi (step_move hs)
  intro k pc hk
  cases hk

/-- An item that is scheduled is the last one in the queue. -/
theorem serving_schedule {o : T} (hr : (processor T threads).Reachable s)
    (hrunning : s.running = true) (hk : ∃ pc, s.workers k = some pc ∧ pc.inLoop = true)
    (hs : Move threads s (.schedule o) s') :
    Serving k s.scheduled.length s' ∧ rank s.scheduled.length s'.queue = some s.queue.length := by
  obtain ⟨ho, hf, -⟩ := runInv hr
  obtain ⟨pc, hk, hin⟩ := hk
  have hnumbered := numbered_step ho (numbered hr) hs
  have horder := orderInv_step ho hs
  have hflag := flagInv_step hf hs
  have hawake := sleepInv_step (sleepInv hr) hs
  have hnone : rank s.scheduled.length s.queue = none := by
    refine rank_eq_none.mpr fun x hx => (ho.fresh x ?_).ne
    rw [← ho.order]
    exact List.mem_append_right _ hx
  cases hs with
  | schedule =>
    refine ⟨⟨hrunning, horder, hnumbered, hflag, hawake, ?_, pc.notifyAll, ?_, fun _ => ?_⟩, ?_⟩
    · show s.scheduled.length < (s.scheduled ++ [_]).length
      simp
    · simp [ProcessorState.notifyAll, hk]
    · exact (notifyAll_inLoop pc).trans hin
    · exact rank_concat (x := ⟨s.scheduled.length, o⟩) hnone

theorem untilTake_le_round (b : Stage) : d.untilTake b ≤ d.round := by
  have hhandler := d.handler_nonneg
  have hlatency := d.latency_nonneg
  unfold WorkDurations.untilTake
  split <;> simp only [WorkDurations.round] <;> linarith

end QueueDelaysLemmas

open QueueProcessorLemmas QueueDelaysLemmas

/-- An item that is scheduled while the processor runs has been taken after one round
of any worker in its loop and one more for each item that was in the queue, unless the
processor is stopped. -/
theorem scheduled_items_taken (d : WorkDurations) (T : Type) (threads k j : Nat)
    {s s' : TimedState (ProcessorState T)} {o : T} {l : List (TimedAction (ProcessorAction T))}
    (hs : ((processor T threads).timed (d.itemTiming k j)).Reachable s)
    (h : ((processor T threads).timed (d.itemTiming k j)).exec s (.act (.schedule o) :: l) = some s')
    (hj : s.state.scheduled.length = j) (hrunning : s.state.running = true)
    (hk : ∃ pc, s.state.workers k = some pc ∧ pc.inLoop = true) (hl : .act .stop ∉ l)
    (hqueued : ⟨j, o⟩ ∈ s'.state.queue) :
    s'.now ≤ s.now + (s.state.queue.length + 1) * (d.handler + 4 * d.latency) := by
  subst hj
  obtain ⟨s₁, h₁, h₂⟩ := Option.bind_eq_some_iff.mp (System.exec_cons .. ▸ h)
  obtain ⟨hs₁, hnow, -⟩ := Timing.act_eq h₁
  have hi := Timing.inTime_step (Timing.inTime hs) h₁
  obtain ⟨hserving, hrank⟩ :=
    serving_schedule (Timing.reachable_untimed hs) hrunning hk (step_move hs₁)
  have hok : ∀ a, .act a ∈ l → a ≠ .stop := by
    rintro a ha rfl
    exact hl ha
  have hserving' := (takenDeadline d T threads k s.state.scheduled.length).inv_exec hserving hok h₂
  obtain ⟨m, hm⟩ := exists_most_turn (d := d) hserving' fun hnone =>
    rank_eq_none.mp hnone _ hqueued rfl
  have hlate := (takenDeadline d T threads k s.state.scheduled.length).now_le hi hserving hok h₂ hm
  obtain ⟨pc, hpc, -⟩ := hserving.worker
  have hturn : turn k s.state.scheduled.length s₁.state = some (stage pc, s.state.queue.length) := by
    rw [turn, hpc, Option.bind_some, hrank]
    rfl
  have hbudget : s'.now ≤
      s₁.since + (d.untilTake (stage pc) + s.state.queue.length * d.round) := by
    have hlate : s'.now ≤ s₁.since + untilTaken d (turn k s.state.scheduled.length s₁.state) := hlate
    rw [hturn] at hlate
    exact hlate
  have hfirst := untilTake_le_round (d := d) (stage pc)
  have hbegun := hi.since_le
  have hround : d.round = d.handler + 4 * d.latency := rfl
  rw [hnow] at hbegun
  rw [← hround, add_mul, one_mul]
  linarith

/-- A handler of twelve units of time. -/
def workDurations : WorkDurations where
  handler := 12
  latency := 3
  handler_nonneg := by norm_num
  latency_nonneg := by norm_num

/-- One worker, and an item that it has not seen yet. -/
def queuedRun : List (TimedAction (ProcessorAction Nat)) :=
  [.act .start, .act .spawn, .act (.schedule 5)]

/-- The worker takes the first item, and the handler returns. -/
def firstItemRun : List (TimedAction (ProcessorAction Nat)) :=
  [.act (.worker 0 .go), .pass 1, .act (.worker 0 .go), .act (.worker 0 .go), .act (.worker 0 .go),
    .pass 11, .act (.worker 0 (.handled (.ok ())))]

/-- The rule at an item behind another one. -/
theorem scheduled_items_taken_second :
    ∃ s s', ((processor Nat 1).timed (workDurations.itemTiming 0 1)).exec
        ((processor Nat 1).timed (workDurations.itemTiming 0 1)).init queuedRun = some s ∧
      ((processor Nat 1).timed (workDurations.itemTiming 0 1)).exec s
        (.act (.schedule 7) :: firstItemRun) = some s' ∧
      s'.now ≤ s.now + (s.state.queue.length + 1) * (12 + 4 * 3) := by
  have hrun : (((processor Nat 1).timed (workDurations.itemTiming 0 1)).exec
      ((processor Nat 1).timed (workDurations.itemTiming 0 1)).init queuedRun).map (fun s =>
        (s.state.scheduled.length, s.state.running, (s.state.workers 0).map WorkerPc.inLoop)) =
      some (1, true, some true) := by decide +kernel
  obtain ⟨s, hs, hsummary⟩ := Option.map_eq_some_iff.mp hrun
  simp only [Prod.mk.injEq] at hsummary
  obtain ⟨hj, hrunning, hworker⟩ := hsummary
  have hrest : (((processor Nat 1).timed (workDurations.itemTiming 0 1)).exec
      ((processor Nat 1).timed (workDurations.itemTiming 0 1)).init
      (queuedRun ++ .act (.schedule 7) :: firstItemRun)).map
        (fun s => s.state.queue.map fun x => (x.number, x.value)) = some [(1, 7)] := by
    decide +kernel
  rw [System.exec_append, hs, Option.bind_some] at hrest
  obtain ⟨s', hs', hqueue⟩ := Option.map_eq_some_iff.mp hrest
  have hqueued : (⟨1, 7⟩ : Item Nat) ∈ s'.state.queue := by
    obtain ⟨⟨_, _⟩, hx, heq⟩ := List.mem_map.mp (hqueue.symm ▸ List.mem_singleton_self (1, 7))
    cases heq
    exact hx
  refine ⟨s, s', hs, hs', ?_⟩
  exact scheduled_items_taken workDurations Nat 1 0 1 (System.reachable_of_exec hs) hs' hj hrunning
    (Option.map_eq_some_iff.mp hworker) (by simp [firstItemRun]) hqueued

/-! ## 2. The end of the workers -/

namespace QueueDelaysLemmas

variable {T : Type} {threads k : Nat} {d : WorkDurations} {s s' : ProcessorState T}
  {a : ProcessorAction T} {pc pc' : WorkerPc T}

/-- The processor is stopped, and the worker is there. -/
structure Stopping (k : Nat) (s : ProcessorState T) : Prop where
  running : s.running = false
  flag : FlagInv s
  awake : SleepInv s
  worker : ∃ pc, s.workers k = some pc

theorem stopping_step (hi : Stopping k s) (ha : a ≠ .start) (hs : Move threads s a s') :
    Stopping k s' := by
  obtain ⟨pc, hk⟩ := hi.worker
  obtain ⟨pc', hk', -⟩ := worker_move hi.flag hk hs
  exact ⟨stays_stopped hi.running ha hs, flagInv_step hi.flag hs, sleepInv_step hi.awake hs,
    pc', hk'⟩

/-- The way of a stopped worker to its end. -/
inductive Winding : Stage → Stage → Prop
  | stays (b : Stage) : Winding b b
  | ends (b : Stage) : Winding b .left
  | wakes : Winding (.waiting true) .enter
  | locks : Winding .enter .locked
  | calls : Winding .holding .handling
  | returns : Winding .handling .loopTest

theorem winding_of_move {queue : List (Item T)} (hi : Stopping k s) (hk : s.workers k = some pc)
    (hmove : WorkerMove s pc queue pc') : Winding (stage pc) (stage pc') := by
  have hstopped := hi.running
  have hawake := hi.awake k pc hk
  cases hmove with
  | notified =>
    cases pc with
    | waiting notified since =>
      cases notified with
      | true => exact .stays _
      | false => cases hstopped.symm.trans (hawake since rfl).2.1
    | _ => exact .stays _
  | wakes notified since =>
    cases notified with
    | true => exact .wakes
    | false => cases hstopped.symm.trans (hawake since rfl).2.1
  | enters hrunning => cases hstopped.symm.trans hrunning
  | waits _ _ hrunning => cases hstopped.symm.trans hrunning
  | takes hrunning => cases hstopped.symm.trans hrunning
  | rests => exact .stays _
  | overtaken => exact .stays _
  | finishes => exact .ends _
  | leaves => exact .ends _
  | crashes => exact .ends _
  | locks => exact .locks
  | calls => exact .calls
  | returns => exact .returns

theorem most_eq_none {b : Stage} : d.most b = none ↔ b = .left ∨ b = .waiting false := by
  cases b with
  | waiting notified => cases notified <;> simp [WorkDurations.most]
  | _ => simp [WorkDurations.most]

/-- A stopped worker does not wait without a notification. -/
theorem stage_of_most (hi : Stopping k s) (hk : s.workers k = some pc)
    (h : d.most (stage pc) = none) : stage pc = .left := by
  rcases most_eq_none.mp h with hleft | hwaiting
  · exact hleft
  · cases pc with
    | waiting notified since =>
      cases hwaiting
      cases hi.running.symm.trans (hi.awake k _ hk since rfl).2.1
    | _ => cases hwaiting

theorem most_le_untilLeft {b : Stage} {m : ℚ} (hm : d.most b = some m) : m ≤ d.untilLeft b := by
  have hhandler := d.handler_nonneg
  have hlatency := d.latency_nonneg
  unfold WorkDurations.most at hm
  split at hm <;> cases hm
  · simp only [WorkDurations.untilLeft]
    linarith
  · unfold WorkDurations.untilLeft
    split <;> first | linarith | simp_all

theorem untilLeft_winding {b b' : Stage} {m m' : ℚ} (h : Winding b b') (hne : b' ≠ b)
    (hm : d.most b = some m) (hm' : d.most b' = some m') :
    m + d.untilLeft b' ≤ d.untilLeft b := by
  cases h with
  | stays => exact absurd rfl hne
  | ends => cases hm'
  | _ =>
    cases hm
    simp only [WorkDurations.untilLeft]
    linarith

/-- The deadline for the end of a stopped worker. -/
def endDeadline (d : WorkDurations) (T : Type) (threads k : Nat) :
    Deadline (processor T threads) (d.workerTiming k) (· ≠ .start) where
  inv := Stopping k
  budget o := (o.map d.untilLeft).getD 0
  most_le {o m} hm := by
    obtain ⟨b, rfl, hb⟩ := Option.bind_eq_some_iff.mp hm
    exact most_le_untilLeft hb
  keeps hi ha hs := stopping_step hi ha (step_move hs)
  left {s a s'} hi ha hs hnone := by
    obtain ⟨pc, hk⟩ := hi.worker
    obtain ⟨pc', hk', hmove⟩ := worker_move hi.flag hk (step_move hs)
    have hnone : ((s.workers k).map stage).bind d.most = none := hnone
    rw [hk] at hnone
    have hwinding := winding_of_move hi hk hmove
    rw [stage_of_most hi hk hnone] at hwinding
    show ((s'.workers k).map stage).bind d.most = none
    rw [hk', Option.map_some, Option.bind_some]
    generalize stage pc' = b' at hwinding
    cases hwinding <;> rfl
  moves {s a s' m m'} hi _ hs hne hm hm' := by
    obtain ⟨pc, hk⟩ := hi.worker
    obtain ⟨pc', hk', hmove⟩ := worker_move hi.flag hk (step_move hs)
    have hne : (s'.workers k).map stage ≠ (s.workers k).map stage := hne
    have hm : ((s.workers k).map stage).bind d.most = some m := hm
    have hm' : ((s'.workers k).map stage).bind d.most = some m' := hm'
    show m + (((s'.workers k).map stage).map d.untilLeft).getD 0 ≤
      (((s.workers k).map stage).map d.untilLeft).getD 0
    rw [hk, hk'] at hne
    rw [hk] at hm ⊢
    rw [hk'] at hm' ⊢
    exact untilLeft_winding (winding_of_move hi hk hmove) (fun h => hne (congrArg some h)) hm hm'

theorem untilLeft_le (b : Stage) : d.untilLeft b ≤ d.handler + 3 * d.latency := by
  have hhandler := d.handler_nonneg
  have hlatency := d.latency_nonneg
  unfold WorkDurations.untilLeft
  split <;> linarith

end QueueDelaysLemmas

/-- After a `stop()`, as long as no `start()` comes, no more time passes than one call
of the handler and three latencies, until a worker has left its loop. -/
theorem stopped_workers_end (d : WorkDurations) (T : Type) (threads k : Nat)
    {s s' : TimedState (ProcessorState T)} {l : List (TimedAction (ProcessorAction T))}
    (hs : ((processor T threads).timed (d.workerTiming k)).Reachable s)
    (h : ((processor T threads).timed (d.workerTiming k)).exec s (.act .stop :: l) = some s')
    (hk : ∃ pc, s.state.workers k = some pc) (hl : .act .start ∉ l)
    (hloop : ∃ pc, s'.state.workers k = some pc ∧ pc.inLoop = true) :
    s'.now ≤ s.now + (d.handler + 3 * d.latency) := by
  obtain ⟨s₁, h₁, h₂⟩ := Option.bind_eq_some_iff.mp (System.exec_cons .. ▸ h)
  obtain ⟨hs₁, hnow, -⟩ := Timing.act_eq h₁
  have hi := Timing.inTime_step (Timing.inTime hs) h₁
  have hr := Timing.reachable_untimed hs
  have hmove : Move threads s.state .stop s₁.state := step_move hs₁
  have hstopping : Stopping k s₁.state := by
    obtain ⟨pc, hpc⟩ := hk
    obtain ⟨pc₁, hpc₁, -⟩ := worker_move (runInv hr).2.1 hpc hmove
    refine ⟨?_, flagInv_step (runInv hr).2.1 hmove, sleepInv_step (sleepInv hr) hmove, pc₁, hpc₁⟩
    generalize s₁.state = state at hmove
    cases hmove with
    | stop => rfl
  have hok : ∀ a, .act a ∈ l → a ≠ .start := by
    rintro a ha rfl
    exact hl ha
  have hstopping' := (endDeadline d T threads k).inv_exec hstopping hok h₂
  obtain ⟨pc', hpc', hin⟩ := hloop
  obtain ⟨m, hm⟩ : ∃ m, d.most (stage pc') = some m := by
    refine Option.ne_none_iff_exists'.mp fun hnone => ?_
    have hleft := stage_of_most hstopping' hpc' hnone
    cases pc' with
    | returned => cases hin
    | crashed => cases hin
    | _ => cases hleft
  have hplace : ((s'.state.workers k).map stage).bind d.most = some m := by
    rw [hpc']
    exact hm
  have hlate := (endDeadline d T threads k).now_le hi hstopping hok h₂ hplace
  obtain ⟨pc₁, hpc₁⟩ := hstopping.worker
  have hlate : s'.now ≤ s₁.since + (((s₁.state.workers k).map stage).map d.untilLeft).getD 0 := hlate
  rw [hpc₁] at hlate
  have hlate : s'.now ≤ s₁.since + d.untilLeft (stage pc₁) := hlate
  have hbudget := untilLeft_le (d := d) (stage pc₁)
  have hbegun := hi.since_le
  rw [hnow] at hbegun
  linarith

/-- A worker whose handler is at work. -/
def workingRun : List (TimedAction (ProcessorAction Nat)) :=
  queuedRun ++ [.act (.worker 0 .go), .act (.worker 0 .go), .act (.worker 0 .go),
    .act (.worker 0 .go)]

/-- The rule while the handler returns after the `stop()`. -/
theorem stopped_workers_end_working :
    ∃ s s', ((processor Nat 1).timed (workDurations.workerTiming 0)).exec
        ((processor Nat 1).timed (workDurations.workerTiming 0)).init workingRun = some s ∧
      ((processor Nat 1).timed (workDurations.workerTiming 0)).exec s
        [.act .stop, .pass 10, .act (.worker 0 (.handled (.ok ())))] = some s' ∧
      s'.now ≤ s.now + (12 + 3 * 3) := by
  have hrun : (((processor Nat 1).timed (workDurations.workerTiming 0)).exec
      ((processor Nat 1).timed (workDurations.workerTiming 0)).init workingRun).map
        (fun s => (s.state.workers 0).isSome) = some true := by decide +kernel
  obtain ⟨s, hs, hworker⟩ := Option.map_eq_some_iff.mp hrun
  have hrest : (((processor Nat 1).timed (workDurations.workerTiming 0)).exec
      ((processor Nat 1).timed (workDurations.workerTiming 0)).init
      (workingRun ++ [.act .stop, .pass 10, .act (.worker 0 (.handled (.ok ())))])).map
        (fun s => (s.state.workers 0).map WorkerPc.inLoop) = some (some true) := by decide +kernel
  rw [System.exec_append, hs, Option.bind_some] at hrest
  obtain ⟨s', hs', hloop⟩ := Option.map_eq_some_iff.mp hrest
  refine ⟨s, s', hs, hs', ?_⟩
  exact stopped_workers_end workDurations Nat 1 0 (System.reachable_of_exec hs) hs'
    (Option.isSome_iff_exists.mp hworker) (by simp) (Option.map_eq_some_iff.mp hloop)

end EgressAgent
