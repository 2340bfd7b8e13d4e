import Mathlib.Logic.Function.Basic
import EgressAgent.EventStream

/-!
# A replaced receiver loop

`SSEClientReceiver` by itself, with any callers of `start()`, `stop()` and
`restart()` and with any handlers. A step is one read or write of
`_current_loop_id`, the start of a thread, or one call: of the token provider,
of the connection, of the iterator over the events or of a handler. The loops
are named by their ids, which come from a counter that stands for `uuid4`.

1. The threads. `recvStep_loop`: those of the event stream run in these steps,
   with its handlers. `loopStep_move` lists the moves of a thread.
2. `replaced_loop_bounded`: a loop that is not current never is again, and since
   then connects and delivers at most once in all, unless the disconnected
   handler raises `SSEConnectionFailed`. `failing_handler_reconnects`: if it
   does, the loop connects again.
-/

namespace EgressAgent

open Py Transition
open EventStream (EventData)

namespace ReceiverLoop

/-! ## 1. The threads -/

/-- How a call ends. -/
inductive CallOutcome
  | returned
  | raised
  | raisedSSEConnectionFailed
  /-- an exception that is not an `Exception`, such as `SystemExit` -/
  | exited
deriving DecidableEq

/-- How `_connect_and_consume_events` is left, once the `finally` block is
through. -/
inductive Exit
  | normal
  | sseConnectionFailed
  | otherException
deriving DecidableEq

/-- The control points of `_run_receiver`. -/
inductive LoopPc
  /-- the thread is not started yet -/
  | created
  /-- `while self._is_current_loop(loop_id)` -/
  | loopTest
  /-- the token provider is asked -/
  | token
  /-- `sseclient.SSEClient(url, headers=headers)` -/
  | connecting
  /-- the connected handler -/
  | connected
  /-- the next event is awaited -/
  | awaiting
  /-- `if not self._is_current_loop(loop_id)` -/
  | eventTest (data : EventData)
  /-- `json.loads(event_data)` -/
  | parsing (data : EventData)
  /-- before the call of the event handler -/
  | delivering (event : PyVal)
  /-- inside the event handler -/
  | handling
  /-- the test in the `except` clause -/
  | exceptTest
  /-- the test in the `finally` block -/
  | finallyTest (exit : Exit)
  /-- inside the disconnected handler -/
  | disconnecting (exit : Exit)
  /-- the delay of the retry decorator -/
  | sleeping
  | done

/-- What a step gets from outside. -/
inductive LoopInput
  | go
  | call (outcome : CallOutcome)
  | event (data : EventData)
  /-- the iterator over the events ends -/
  | ended

/-- A thread, with what it has done while its loop was not the current one. -/
structure Loop where
  pc : LoopPc
  /-- connection attempts -/
  attempts : Nat
  /-- events delivered to the event handler -/
  deliveries : Nat
  /-- calls of the disconnected handler that raised `SSEConnectionFailed` -/
  handlerFailures : Nat

def Loop.goto (lp : Loop) (pc : LoopPc) : Loop := { lp with pc }

/-- After the `finally` block: the loop of `_run_receiver`, the retry of the
decorator, or the end of the thread. -/
def Exit.next : Exit → LoopPc
  | .normal => .loopTest
  | .sseConnectionFailed => .sleeping
  | .otherException => .done

/-- After a call in the `try` block, which is followed by `pc` if it returns. -/
def afterCall (pc : LoopPc) : CallOutcome → LoopPc
  | .returned => pc
  | .exited => .finallyTest .otherException
  | _ => .exceptTest

/-- What leaves the `finally` block after a call of the disconnected handler: its
exception takes the place of the one that is being raised. -/
def afterHandler (exit : Exit) : CallOutcome → Exit
  | .returned => exit
  | .raisedSSEConnectionFailed => .sseConnectionFailed
  | _ => .otherException

/-- The number of actions to count, which are those of a loop that is not the
current one. -/
def counted (current : Option Nat) (t : Nat) : Nat := if current = some t then 0 else 1

/-- One step of the thread of the loop `t`. It writes nothing that is shared. -/
def loopStep (current : Option Nat) (t : Nat) (lp : Loop) : LoopInput → Option Loop
  | .go =>
      match lp.pc with
      | .created => some (lp.goto .loopTest)
      | .loopTest => some (lp.goto (if current = some t then .token else .done))
      | .eventTest data =>
          some (lp.goto (if current = some t then .parsing data else .finallyTest .normal))
      | .parsing (.ok event) => some (lp.goto (.delivering event))
      -- A text that does not parse is only logged.
      | .parsing (.error _) => some (lp.goto .awaiting)
      | .delivering _ =>
          some ({ lp with deliveries := lp.deliveries + counted current t }.goto .handling)
      | .exceptTest =>
          some (lp.goto (.finallyTest (if current = some t then .sseConnectionFailed else .normal)))
      | .finallyTest exit =>
          some (lp.goto
            (if current = some t ∨ current = none then .disconnecting exit else exit.next))
      | .sleeping => some (lp.goto .token)
      | _ => none
  | .call outcome =>
      match lp.pc with
      | .token => some (lp.goto (afterCall .connecting outcome))
      | .connecting =>
          some ({ lp with attempts := lp.attempts + counted current t }.goto
            (afterCall .connected outcome))
      | .connected => some (lp.goto (afterCall .awaiting outcome))
      -- The iterator raises.
      | .awaiting => if outcome = .returned then none else some (lp.goto (afterCall .awaiting outcome))
      -- What the event handler raises is only logged.
      | .handling =>
          some (lp.goto (if outcome = .exited then .finallyTest .otherException else .awaiting))
      | .disconnecting exit =>
          some ({ lp with
            handlerFailures := lp.handlerFailures +
              if outcome = CallOutcome.raisedSSEConnectionFailed then counted current t else 0 }.goto
            (afterHandler exit outcome).next)
      | _ => none
  | .event data =>
      match lp.pc with
      | .awaiting => some (lp.goto (.eventTest data))
      | _ => none
  | .ended =>
      match lp.pc with
      | .awaiting => some (lp.goto (.finallyTest .normal))
      | _ => none

/-- What leaves the `finally` block of a thread of the event stream. -/
def exitOf (failed : Bool) : Exit := if failed then .sseConnectionFailed else .normal

/-- The control point of a thread of the event stream, whose handlers are those
of `EventsClient`: the connected handler starts a heartbeat checker, and the
disconnected handler stops it. -/
def ofRecvPc : EventStream.RecvPc → LoopPc
  | .loopTest => .loopTest
  | .connecting => .token
  | .checkerTouch => .connected
  | .checkerSet => .connected
  | .checkerSpawn _ => .connected
  | .awaiting => .awaiting
  | .eventTest data => .eventTest data
  | .handling data => .parsing data
  | .exceptTest => .exceptTest
  | .finallyTest failed => .finallyTest (exitOf failed)
  | .checkerClear failed => .disconnecting (exitOf failed)
  | .checkerWake failed => .disconnecting (exitOf failed)
  | .sleeping => .sleeping
  | .done => .done

/-- The steps that a thread takes for one of the event stream. -/
def inputsOf : EventStream.RecvPc → EventStream.RecvInput → List LoopInput
  | .connecting, .connected => [.call .returned, .call .returned]
  | .connecting, _ => [.call .raised]
  | .checkerTouch, _ => []
  | .checkerSet, _ => []
  | .checkerSpawn _, _ => [.call .returned]
  | .awaiting, .event data => [.event data]
  | .awaiting, .ended => [.ended]
  | .awaiting, _ => [.call .raised]
  | .handling (.ok _), _ => [.go, .go, .call .returned]
  | .checkerClear _, _ => []
  | .checkerWake _, _ => [.call .returned]
  | _, _ => [.go]

structure ReceiverState where
  /-- `_current_loop_id` -/
  current : Option Nat
  nextId : Nat
  loops : Nat → Option Loop

/-- The callers of `start()`, `stop()` and `restart()` are any threads, so the
steps of these calls are actions of their own: `restart()` is `clear`, `replace`
and the start of the new thread. -/
inductive ReceiverAction
  /-- the write of `stop()` -/
  | clear
  /-- the write of `_start_receiver_thread` -/
  | replace
  | loop (t : Nat) (i : LoopInput)

def receiverStep (s : ReceiverState) : ReceiverAction → Option ReceiverState
  | .clear => some { s with current := none }
  | .replace =>
      some {
        current := some s.nextId
        nextId := s.nextId + 1
        loops := Function.update s.loops s.nextId (some ⟨.created, 0, 0, 0⟩) }
  | .loop t i =>
      (s.loops t).bind fun lp => (loopStep s.current t lp i).map fun lp' =>
        { s with loops := Function.update s.loops t (some lp') }

/-- How many connections and deliveries a loop that is replaced at the control
point can still make. -/
def LoopPc.budget : LoopPc → Nat
  | .token => 1
  | .connecting => 1
  | .parsing _ => 1
  | .delivering _ => 1
  | .finallyTest .sseConnectionFailed => 1
  | .disconnecting .sseConnectionFailed => 1
  | .sleeping => 1
  | _ => 0

/-- How far a loop that is replaced at the control point is from its end. -/
def LoopPc.rank : LoopPc → Nat
  | .finallyTest .sseConnectionFailed => 11
  | .disconnecting .sseConnectionFailed => 10
  | .sleeping => 9
  | .token => 8
  | .parsing _ => 8
  | .connecting => 7
  | .delivering _ => 7
  | .connected => 6
  | .handling => 6
  | .awaiting => 5
  | .eventTest _ => 4
  | .exceptTest => 4
  | .finallyTest _ => 3
  | .disconnecting _ => 2
  | .created => 2
  | .loopTest => 1
  | .done => 0

/-- The moves of a thread: an attempt, a delivery, a disconnected handler that
raises `SSEConnectionFailed`, and the others, which bring a replaced loop nearer
to its end. -/
inductive LoopMove (current : Option Nat) (t : Nat) (lp : Loop) : LoopInput → Loop → Prop
  | connect {outcome : CallOutcome} : lp.pc = .connecting →
      LoopMove current t lp (.call outcome)
        ({ lp with attempts := lp.attempts + counted current t }.goto (afterCall .connected outcome))
  | deliver {event : PyVal} : lp.pc = .delivering event →
      LoopMove current t lp .go
        ({ lp with deliveries := lp.deliveries + counted current t }.goto .handling)
  | handlerFails {exit : Exit} : lp.pc = .disconnecting exit →
      LoopMove current t lp (.call .raisedSSEConnectionFailed)
        ({ lp with handlerFailures := lp.handlerFailures + counted current t }.goto .sleeping)
  | other {i : LoopInput} {pc : LoopPc} :
      (current ≠ some t → pc.budget ≤ lp.pc.budget ∧ pc.rank < lp.pc.rank) →
      (∀ exit, lp.pc = .disconnecting exit → i ≠ .call .raisedSSEConnectionFailed) →
      LoopMove current t lp i (lp.goto pc)

/-- The receiver after its constructor. -/
def receiver : System ReceiverState ReceiverAction where
  init := { current := none, nextId := 0, loops := fun _ => none }
  step := receiverStep

end ReceiverLoop

open ReceiverLoop

namespace ReceiverLoopLemmas

variable {current : Option Nat} {t : Nat} {lp lp' : Loop} {i : LoopInput}

theorem loopStep_go (hs : loopStep current t lp .go = some lp') : LoopMove current t lp .go lp' := by
  have plain {pc : LoopPc}
      (h : current ≠ some t → pc.budget ≤ lp.pc.budget ∧ pc.rank < lp.pc.rank)
      (heq : some (lp.goto pc) = some lp') : LoopMove current t lp .go lp' := by
    cases heq
    exact .other h fun _ _ => by simp
  cases hpc : lp.pc with
  | created =>
    simp only [loopStep, hpc] at hs
    exact plain (by simp [hpc, LoopPc.budget, LoopPc.rank]) hs
  | loopTest =>
    simp only [loopStep, hpc] at hs
    exact plain (fun h => by simp [hpc, h, LoopPc.budget, LoopPc.rank]) hs
  | eventTest data =>
    simp only [loopStep, hpc] at hs
    exact plain (fun h => by simp [hpc, h, LoopPc.budget, LoopPc.rank]) hs
  | parsing data =>
    cases data <;> simp only [loopStep, hpc] at hs
    all_goals exact plain (by simp [hpc, LoopPc.budget, LoopPc.rank]) hs
  | delivering event =>
    simp only [loopStep, hpc, Option.some.injEq] at hs
    exact hs ▸ .deliver hpc
  | exceptTest =>
    simp only [loopStep, hpc] at hs
    exact plain (fun h => by simp [hpc, h, LoopPc.budget, LoopPc.rank]) hs
  | finallyTest exit =>
    simp only [loopStep, hpc] at hs
    refine plain (fun h => ?_) hs
    cases exit <;> split_ifs <;> simp [hpc, LoopPc.budget, LoopPc.rank, Exit.next]
  | sleeping =>
    simp only [loopStep, hpc] at hs
    exact plain (by simp [hpc, LoopPc.budget, LoopPc.rank]) hs
  | _ => simp [loopStep, hpc] at hs

theorem loopStep_call {outcome : CallOutcome} (hs : loopStep current t lp (.call outcome) = some lp') :
    LoopMove current t lp (.call outcome) lp' := by
  have plain {pc : LoopPc} (h : pc.budget ≤ lp.pc.budget ∧ pc.rank < lp.pc.rank)
      (hne : ∀ exit, lp.pc ≠ .disconnecting exit) (heq : some (lp.goto pc) = some lp') :
      LoopMove current t lp (.call outcome) lp' := by
    cases heq
    exact .other (fun _ => h) fun exit hpc => absurd hpc (hne exit)
  cases hpc : lp.pc with
  | token =>
    simp only [loopStep, hpc] at hs
    refine plain ?_ (by simp [hpc]) hs
    cases outcome <;> simp [hpc, afterCall, LoopPc.budget, LoopPc.rank]
  | connecting =>
    simp only [loopStep, hpc, Option.some.injEq] at hs
    exact hs ▸ .connect hpc
  | connected =>
    simp only [loopStep, hpc] at hs
    refine plain ?_ (by simp [hpc]) hs
    cases outcome <;> simp [hpc, afterCall, LoopPc.budget, LoopPc.rank]
  | awaiting =>
    simp only [loopStep, hpc, Option.ite_none_left_eq_some] at hs
    refine plain ?_ (by simp [hpc]) hs.2
    cases outcome <;> simp_all [afterCall, LoopPc.budget, LoopPc.rank]
  | handling =>
    simp only [loopStep, hpc] at hs
    refine plain ?_ (by simp [hpc]) hs
    cases outcome <;> simp [hpc, LoopPc.budget, LoopPc.rank]
  | disconnecting exit =>
    cases outcome with
    | raisedSSEConnectionFailed =>
      simp only [loopStep, hpc, Option.some.injEq] at hs
      exact hs ▸ .handlerFails hpc
    | _ =>
      simp only [loopStep, hpc, Option.some.injEq] at hs
      subst hs
      refine LoopMove.other (fun _ => ?_) (by simp)
      cases exit <;> simp [hpc, afterHandler, Exit.next, LoopPc.budget, LoopPc.rank]
  | _ => simp [loopStep, hpc] at hs

theorem loopStep_move (hs : loopStep current t lp i = some lp') : LoopMove current t lp i lp' := by
  cases i with
  | go => exact loopStep_go hs
  | call outcome => exact loopStep_call hs
  | event data =>
    cases hpc : lp.pc with
    | awaiting =>
      simp only [loopStep, hpc, Option.some.injEq] at hs
      exact hs ▸ .other (fun _ => by simp [hpc, LoopPc.budget, LoopPc.rank]) (by simp)
    | _ => simp [loopStep, hpc] at hs
  | ended =>
    cases hpc : lp.pc with
    | awaiting =>
      simp only [loopStep, hpc, Option.some.injEq] at hs
      exact hs ▸ .other (fun _ => by simp [hpc, LoopPc.budget, LoopPc.rank]) (by simp)
    | _ => simp [loopStep, hpc] at hs

theorem exitOf_next (failed : Bool) :
    (exitOf failed).next = ofRecvPc (EventStream.afterFinally failed) := by
  cases failed <;> rfl

end ReceiverLoopLemmas

open ReceiverLoopLemmas

/-- A step of a receiver thread of the event stream is a few steps of the thread
here. -/
theorem recvStep_loop {s s' : EventStream.State} {t : Nat} {pc pc' : EventStream.RecvPc}
    {i : EventStream.RecvInput} {lp : Loop} (hs : EventStream.recvStep s t pc i = some s')
    (hpc' : s'.receivers t = some pc') (hlp : lp.pc = ofRecvPc pc) :
    ∃ lp', (inputsOf pc i).foldlM (loopStep s.receiverLoop t) lp = some lp' ∧
      lp'.pc = ofRecvPc pc' := by
  obtain ⟨pc₀, attempts, deliveries, handlerFailures⟩ := lp
  subst hlp
  unfold EventStream.recvStep at hs
  split at hs <;> cases hs <;> simp only [EventStream.State.setReceiver_receivers,
    Function.update_self, Option.some.injEq] at hpc' <;> subst hpc'
  -- In the order of the branches of `recvStep`.
  · exact ⟨_, rfl, by simp only [ofRecvPc, Loop.goto]; split_ifs <;> rfl⟩
  · exact ⟨_, rfl, rfl⟩
  · exact ⟨_, rfl, rfl⟩
  · exact ⟨_, rfl, rfl⟩
  · exact ⟨_, rfl, rfl⟩
  · exact ⟨_, rfl, rfl⟩
  · exact ⟨_, rfl, rfl⟩
  · exact ⟨_, rfl, rfl⟩
  · exact ⟨_, rfl, rfl⟩
  · exact ⟨_, rfl, by simp only [Loop.goto]; split_ifs <;> rfl⟩
  · next data => cases data <;> exact ⟨_, rfl, rfl⟩
  · exact ⟨_, rfl, by simp only [Loop.goto, ofRecvPc, exitOf, decide_eq_true_eq]⟩
  · next failed => exact ⟨_, rfl, by simp only [Loop.goto, exitOf_next]; split_ifs <;> rfl⟩
  · exact ⟨_, rfl, rfl⟩
  · next failed => exact ⟨_, rfl, exitOf_next failed⟩
  · exact ⟨_, rfl, rfl⟩

namespace ReceiverLoopLemmas

variable {current : Option Nat} {t : Nat} {lp lp' : Loop} {i : LoopInput}

/-- The account of the thread of the loop `t`. -/
structure LoopInv (current : Option Nat) (t : Nat) (lp : Loop) : Prop where
  /-- a loop that is current has never been replaced -/
  idle : current = some t → lp.attempts = 0 ∧ lp.deliveries = 0
  bound : lp.attempts + lp.deliveries + lp.pc.budget ≤ 1 + lp.handlerFailures

theorem budget_le_one (pc : LoopPc) : pc.budget ≤ 1 := by
  unfold LoopPc.budget
  split <;> simp

/-- A move of a current loop counts nothing. -/
theorem loopInv_current (hi : LoopInv current t lp) (hc : current = some t)
    (hm : LoopMove current t lp i lp') : LoopInv current t lp' := by
  have hcounted : counted current t = 0 := if_pos hc
  obtain ⟨hattempts, hdeliveries⟩ := hi.idle hc
  have hzero : lp'.attempts = 0 ∧ lp'.deliveries = 0 := by
    cases hm <;> simp [Loop.goto, hcounted, hattempts, hdeliveries]
  refine ⟨fun _ => hzero, ?_⟩
  have hbudget := budget_le_one lp'.pc
  omega

/-- An attempt or a delivery of a replaced loop takes up its budget. -/
theorem loopInv_replaced (hi : LoopInv current t lp) (hc : current ≠ some t)
    (hm : LoopMove current t lp i lp') : LoopInv current t lp' := by
  have hcounted : counted current t = 1 := if_neg hc
  have hbound := hi.bound
  refine ⟨fun h => absurd h hc, ?_⟩
  cases hm with
  | @connect outcome hpc =>
    have hspent : (afterCall .connected outcome).budget = 0 := by cases outcome <;> rfl
    have hleft : lp.pc.budget = 1 := by rw [hpc]; rfl
    simp only [Loop.goto, hcounted, hspent]
    omega
  | deliver hpc =>
    have hspent : LoopPc.handling.budget = 0 := rfl
    have hleft : lp.pc.budget = 1 := by rw [hpc]; rfl
    simp only [Loop.goto, hcounted, hspent]
    omega
  | handlerFails hpc =>
    have hgiven : LoopPc.sleeping.budget = 1 := rfl
    simp only [Loop.goto, hcounted, hgiven]
    omega
  | other hbudget =>
    have hle := (hbudget hc).1
    simp only [Loop.goto]
    omega

theorem loopInv_move (hi : LoopInv current t lp) (hm : LoopMove current t lp i lp') :
    LoopInv current t lp' := by
  by_cases hc : current = some t
  · exact loopInv_current hi hc hm
  · exact loopInv_replaced hi hc hm

structure ReceiverInv (s : ReceiverState) : Prop where
  loops : ∀ t lp, s.loops t = some lp → LoopInv s.current t lp
  fresh : ∀ t lp, s.loops t = some lp → t < s.nextId

theorem receiverInv_step {s s' : ReceiverState} {a : ReceiverAction} (hi : ReceiverInv s)
    (hs : receiverStep s a = some s') : ReceiverInv s' := by
  cases a with
  | clear =>
    cases hs
    exact ⟨fun t lp h => ⟨fun hc => (by cases hc), (hi.loops t lp h).bound⟩, hi.fresh⟩
  | replace =>
    cases hs
    constructor
    · refine update_thread_of_ne (fun t ht lp h => ⟨fun hc => ?_, (hi.loops t lp h).bound⟩) ?_
      · exact absurd (Option.some.inj hc).symm ht
      · exact ⟨fun _ => ⟨rfl, rfl⟩, Nat.zero_le _⟩
    · refine update_thread (fun t lp h => Nat.lt_succ_of_lt (hi.fresh t lp h)) ?_
      exact Nat.lt_succ_self _
  | loop t i =>
    obtain ⟨lp, hl, hs⟩ := Option.bind_eq_some_iff.mp hs
    obtain ⟨lp', hl', rfl⟩ := Option.map_eq_some_iff.mp hs
    refine ⟨update_thread hi.loops ?_, update_thread hi.fresh (hi.fresh t lp hl)⟩
    exact loopInv_move (hi.loops t lp hl) (loopStep_move hl')

theorem receiverInv {s : ReceiverState} (h : receiver.Reachable s) : ReceiverInv s := by
  refine h.invariant (I := ReceiverInv) ?_ fun s a s' hi _ hs => receiverInv_step hi hs
  exact ⟨fun _ _ h => (by cases h), fun _ _ h => (by cases h)⟩

/-- A replaced loop comes nearer to its end. -/
theorem rank_lt_of_move (hc : current ≠ some t)
    (hne : ∀ exit, lp.pc = .disconnecting exit → i ≠ .call .raisedSSEConnectionFailed)
    (hm : LoopMove current t lp i lp') : lp'.pc.rank < lp.pc.rank := by
  cases hm with
  | @connect outcome hpc =>
    rw [hpc]
    cases outcome <;> simp [Loop.goto, afterCall, LoopPc.rank]
  | deliver hpc =>
    rw [hpc]
    exact Nat.lt_succ_self 6
  | handlerFails hpc => exact absurd rfl (hne _ hpc)
  | other hrank => exact (hrank hc).2

/-- The id of a replaced loop is not written again. -/
theorem replaced_step {s s' : ReceiverState} {a : ReceiverAction} {t : Nat}
    (h : t < s.nextId ∧ s.current ≠ some t) (hs : receiverStep s a = some s') :
    t < s'.nextId ∧ s'.current ≠ some t := by
  cases a with
  | clear =>
    cases hs
    exact ⟨h.1, nofun⟩
  | replace =>
    cases hs
    exact ⟨Nat.lt_succ_of_lt h.1, fun hc => absurd (Option.some.inj hc) (Nat.ne_of_gt h.1)⟩
  | loop t₁ i =>
    obtain ⟨lp, hl, hs⟩ := Option.bind_eq_some_iff.mp hs
    obtain ⟨lp', hl', rfl⟩ := Option.map_eq_some_iff.mp hs
    exact h

end ReceiverLoopLemmas

/-- A loop that is not the current one is never current again. Since it was
replaced it has connected and delivered at most once in all, and once more for
each call of the disconnected handler that raised `SSEConnectionFailed`; any
other step of its thread brings it nearer to its end. -/
theorem replaced_loop_bounded {s : ReceiverState} (h : receiver.Reachable s) {t : Nat} {lp : Loop}
    (hl : s.loops t = some lp) (hreplaced : s.current ≠ some t) :
    (∀ l s', receiver.exec s l = some s' → s'.current ≠ some t) ∧
      lp.attempts + lp.deliveries ≤ 1 + lp.handlerFailures ∧
      ∀ i s', receiver.step s (.loop t i) = some s' →
        (∀ exit, lp.pc = .disconnecting exit → i ≠ .call .raisedSSEConnectionFailed) →
        ∃ lp', s'.loops t = some lp' ∧ lp'.pc.rank < lp.pc.rank := by
  have hi := receiverInv h
  refine ⟨fun l s' hrun => ?_, Nat.le_of_add_right_le (hi.loops t lp hl).bound, fun i s' hs hne => ?_⟩
  · have hall : receiver.Along (fun _ _ => True) s l := System.along_of_forall (fun _ _ _ => trivial) s
    refine (System.exec_invariant (I := fun s => t < s.nextId ∧ s.current ≠ some t) ?_ ?_ hall hrun).2
    · exact fun s a s' h _ hs => replaced_step h hs
    · exact ⟨hi.fresh t lp hl, hreplaced⟩
  · obtain ⟨lp₁, hl₁, hs⟩ := Option.bind_eq_some_iff.mp hs
    obtain ⟨lp', hl', rfl⟩ := Option.map_eq_some_iff.mp hs
    obtain rfl : lp₁ = lp := Option.some.inj (hl₁.symm.trans hl)
    refine ⟨lp', Function.update_self .., ?_⟩
    exact rank_lt_of_move hreplaced hne (loopStep_move hl')

/-- The current loop, with the attempts, the deliveries and the failures that
are counted for the first one. -/
def ReceiverState.summary (s : ReceiverState) : Option Nat × Option (Nat × Nat × Nat) :=
  (s.current, (s.loops 0).map fun lp => (lp.attempts, lp.deliveries, lp.handlerFailures))

theorem ReceiverLoopLemmas.exists_of_summary {l : List ReceiverAction} {current : Option Nat}
    {attempts deliveries handlerFailures : Nat}
    (h : (receiver.exec receiver.init l).map ReceiverState.summary =
      some (current, some (attempts, deliveries, handlerFailures))) :
    ∃ s pc, receiver.exec receiver.init l = some s ∧ s.current = current ∧
      s.loops 0 = some ⟨pc, attempts, deliveries, handlerFailures⟩ := by
  obtain ⟨s, hs, hsummary⟩ := Option.map_eq_some_iff.mp h
  obtain ⟨hcurrent, hloop⟩ := Prod.mk.inj hsummary
  obtain ⟨lp, hl, ⟨⟩⟩ := Option.map_eq_some_iff.mp hloop
  exact ⟨s, lp.pc, hs, hcurrent, hl⟩

/-- A loop that is restarted between the test of an event and its delivery. -/
def restartRun : List ReceiverAction :=
  [.replace, .loop 0 .go, .loop 0 .go, .loop 0 (.call .returned), .loop 0 (.call .returned),
    .loop 0 (.call .returned), .loop 0 (.event (.ok (.dict []))), .loop 0 .go, .clear, .replace,
    .loop 0 .go, .loop 0 .go]

/-- The rule at that loop, which delivers the event. -/
theorem replaced_loop_bounded_restart :
    ∃ s lp, receiver.exec receiver.init restartRun = some s ∧ s.loops 0 = some lp ∧
      lp.deliveries = 1 ∧ lp.attempts + lp.deliveries ≤ 1 + lp.handlerFailures := by
  obtain ⟨s, pc, hs, hcurrent, hl⟩ := exists_of_summary (l := restartRun)
    (show _ = some (some 1, some (0, 1, 0)) by decide +kernel)
  have hreplaced : s.current ≠ some 0 := by simp [hcurrent]
  have hbound := (replaced_loop_bounded (System.reachable_of_exec hs) hl hreplaced).2.1
  exact ⟨s, _, hs, hl, rfl, hbound⟩

/-- A connection fails, the client is stopped before the `finally` block, and
the disconnected handler raises `SSEConnectionFailed` twice. -/
def failingHandlerRun : List ReceiverAction :=
  [.replace, .loop 0 .go, .loop 0 .go, .loop 0 (.call .returned), .loop 0 (.call .raised),
    .loop 0 .go, .clear, .loop 0 .go, .loop 0 (.call .raisedSSEConnectionFailed), .loop 0 .go,
    .loop 0 (.call .returned), .loop 0 (.call .raised), .loop 0 .go, .loop 0 .go,
    .loop 0 (.call .raisedSSEConnectionFailed), .loop 0 .go, .loop 0 (.call .returned),
    .loop 0 (.call .returned)]

/-- The retry decorator takes the exception of the handler for a failed
connection, so that the loop connects again and again after it was stopped. -/
theorem failing_handler_reconnects :
    ∃ s lp, receiver.Reachable s ∧ s.current ≠ some 0 ∧ s.loops 0 = some lp ∧ lp.attempts = 2 := by
  obtain ⟨s, pc, hs, hcurrent, hl⟩ := exists_of_summary (l := failingHandlerRun)
    (show _ = some (none, some (2, 0, 2)) by decide +kernel)
  exact ⟨s, _, System.reachable_of_exec hs, by simp [hcurrent], hl, rfl⟩

end EgressAgent
