import EgressAgent.Lib.Backoff
import EgressAgent.Lib.Timed
import EgressAgent.ReceiverLoop

/-!
# The event stream in time

One loop of the receiver in rational time, beside any calls of `start()`, `stop()`
and `restart()`, any other loops and any handlers. Between a failure and the next
attempt lie at most a latency, the disconnected handler, the delay of the retry
decorator and another latency. The decorator counts the failures of one call of
`_connect_and_consume_events`, and a connection that was made in between does not
reset its delay: only the return of the call does.

1. `reconnects_in_time`: a loop that has lost its connection asks for a token
   again, is replaced or ends within these times, and the delay is at most 240.
2. `reconnects_paced`: a loop makes at most eight attempts for each call of
   `_connect_and_consume_events` and one more for every 240 units of time, however
   often the connection is lost. `clean_ends_unpaced`: a stream that ends without an
   error makes the call return, and no time lies between such attempts.
-/

namespace EgressAgent

open Transition
open ReceiverLoop

namespace Reconnects

/-- `delay=2, tries=-1, max_delay=240, backoff=2` -/
def sseBackoff : Backoff where
  delay := 2
  factor := 2
  maxDelay := 240
  delay_pos := by decide
  one_le_factor := by decide
  delay_le := by decide

/-- The calls of `_connect_and_consume_events` that a loop has made. -/
structure CallCount where
  /-- connections that were tried -/
  attempts : Nat
  /-- calls that have returned -/
  returned : Nat
  /-- retries of the last call -/
  retries : Nat
deriving DecidableEq

/-- The count after a step of the loop. -/
def CallCount.after (c : CallCount) : LoopPc → LoopPc → CallCount
  | .connecting, _ => { c with attempts := c.attempts + 1 }
  | .sleeping, _ => { c with retries := c.retries + 1 }
  | .created, _ => c
  | _, .loopTest => { c with returned := c.returned + 1, retries := 0 }
  | _, _ => c

structure ReconnectState where
  receiver : ReceiverState
  calls : CallCount

/-- Where the thread of the loop is. -/
def pcOf (r : ReceiverState) (t : Nat) : LoopPc := ((r.loops t).map Loop.pc).getD .created

/-- A step of the thread of the loop. -/
def ownStep (t : Nat) : ReceiverAction → Bool
  | .loop u _ => u == t
  | _ => false

/-- A step of the receiver, with the count of the loop `t`. -/
def reconnectStep (t : Nat) (s : ReconnectState) (a : ReceiverAction) : Option ReconnectState :=
  (receiverStep s.receiver a).map fun receiver => {
    receiver
    calls := if ownStep t a then s.calls.after (pcOf s.receiver t) (pcOf receiver t) else s.calls }

def reconnects (t : Nat) : System ReconnectState ReceiverAction where
  init := { receiver := receiver.init, calls := ⟨0, 0, 0⟩ }
  step := reconnectStep t

/-- On the way from a failure to the next attempt, with the retries before it. -/
inductive Phase
  | elsewhere
  /-- in the `except` clause, or before the test of the `finally` block -/
  | failing (k : Nat)
  /-- inside the disconnected handler -/
  | disconnecting (k : Nat)
  /-- in the delay of the retry decorator -/
  | pausing (k : Nat)
deriving DecidableEq

def phase (k : Nat) : LoopPc → Phase
  | .exceptTest => .failing k
  | .finallyTest .sseConnectionFailed => .failing k
  | .disconnecting .sseConnectionFailed => .disconnecting k
  | .sleeping => .pausing k
  | _ => .elsewhere

def ReconnectState.phase (t : Nat) (s : ReconnectState) : Phase :=
  Reconnects.phase s.calls.retries (pcOf s.receiver t)

/-- How long the loop must stay in a phase before its next step. -/
def Phase.least : Phase → ℚ
  | .pausing k => sseBackoff.pause k
  | _ => 0

/-- How long the steps between a failure and the next attempt take at most. -/
structure LossDurations where
  /-- the disconnected handler -/
  handler : ℚ
  /-- the tests, and the delay after the end of a sleep -/
  latency : ℚ
  handler_nonneg : 0 ≤ handler
  latency_nonneg : 0 ≤ latency

namespace LossDurations

variable (d : LossDurations)

def most : Phase → Option ℚ
  | .elsewhere => none
  | .failing _ => some d.latency
  | .disconnecting _ => some d.handler
  | .pausing k => some (sseBackoff.pause k + d.latency)

/-- At most how long a loop that came to a phase takes until it tries again. -/
def untilRetry : Phase → ℚ
  | .elsewhere => 0
  | .failing k => d.latency + d.handler + sseBackoff.pause k + d.latency
  | .disconnecting k => d.handler + sseBackoff.pause k + d.latency
  | .pausing k => sseBackoff.pause k + d.latency

theorem most_nonneg {b : Phase} {m : ℚ} (h : d.most b = some m) : 0 ≤ m := by
  have hlatency := d.latency_nonneg
  cases b with
  | elsewhere => cases h
  | failing k =>
    cases h
    exact hlatency
  | disconnecting k =>
    cases h
    exact d.handler_nonneg
  | pausing k =>
    cases h
    have hpause := sseBackoff.pause_pos k
    linarith

/-- The timing of the loop `t`. -/
def timing (t : Nat) : Timing ReconnectState ReceiverAction Phase where
  place := ReconnectState.phase t
  least s a := if ownStep t a then (s.phase t).least else 0
  most := d.most
  most_nonneg := d.most_nonneg

end LossDurations

/-- The moves of the thread of a loop. -/
inductive PcMove : LoopPc → LoopPc → Prop
  | begins : PcMove .created .loopTest
  | enters : PcMove .loopTest .token
  | leaves : PcMove .loopTest .done
  | asks (outcome : CallOutcome) : PcMove .token (afterCall .connecting outcome)
  | connects (outcome : CallOutcome) : PcMove .connecting (afterCall .connected outcome)
  | opens (outcome : CallOutcome) : PcMove .connected (afterCall .awaiting outcome)
  | breaks (outcome : CallOutcome) : PcMove .awaiting (afterCall .awaiting outcome)
  | receives (data : EventStream.EventData) : PcMove .awaiting (.eventTest data)
  | ends : PcMove .awaiting (.finallyTest .normal)
  | parses (data : EventStream.EventData) : PcMove (.eventTest data) (.parsing data)
  | stops (data : EventStream.EventData) : PcMove (.eventTest data) (.finallyTest .normal)
  | parsed (event : Py.PyVal) : PcMove (.parsing (.ok event)) (.delivering event)
  | skips (e : Py.PyExc) : PcMove (.parsing (.error e)) .awaiting
  | delivers (event : Py.PyVal) : PcMove (.delivering event) .handling
  | handled : PcMove .handling .awaiting
  | exits : PcMove .handling (.finallyTest .otherException)
  | fails : PcMove .exceptTest (.finallyTest .sseConnectionFailed)
  | gaveUp : PcMove .exceptTest (.finallyTest .normal)
  | cleansUp (exit : Exit) : PcMove (.finallyTest exit) (.disconnecting exit)
  | replaced (exit : Exit) : PcMove (.finallyTest exit) exit.next
  | cleanedUp (exit : Exit) (outcome : CallOutcome) :
      PcMove (.disconnecting exit) (afterHandler exit outcome).next
  | retries : PcMove .sleeping .token

/-- The moves of a loop between a failure and the next attempt. -/
inductive PhaseMove : Phase → Phase → Prop
  | fails {b : Phase} : PhaseMove .elsewhere b
  | ends {b : Phase} : PhaseMove b .elsewhere
  | stays {b : Phase} : PhaseMove b b
  | cleansUp {k : Nat} : PhaseMove (.failing k) (.disconnecting k)
  | pauses {k : Nat} : PhaseMove (.failing k) (.pausing k)
  | cleanedUp {k : Nat} : PhaseMove (.disconnecting k) (.pausing k)

/-- The current call has made the attempt that follows its last retry. -/
def spent : LoopPc → Nat
  | .created => 0
  | .loopTest => 0
  | .token => 0
  | .connecting => 0
  | _ => 1

end Reconnects

open Reconnects

namespace ReconnectsLemmas

variable {t : Nat} {s s' : ReconnectState} {a : ReceiverAction} {d : LossDurations}

theorem loopStep_pcMove {current : Option Nat} {lp lp' : Loop} {i : LoopInput}
    (hs : loopStep current t lp i = some lp') : PcMove lp.pc lp'.pc := by
  obtain ⟨pc, attempts, deliveries, handlerFailures⟩ := lp
  cases i with
  | go =>
    cases pc with
    | loopTest =>
      cases hs
      show PcMove .loopTest (if current = some t then .token else .done)
      split_ifs
      · exact .enters
      · exact .leaves
    | eventTest data =>
      cases hs
      show PcMove (.eventTest data) (if current = some t then .parsing data else .finallyTest .normal)
      split_ifs
      · exact .parses data
      · exact .stops data
    | parsing data => cases data <;> cases hs <;> constructor
    | exceptTest =>
      cases hs
      show PcMove .exceptTest (.finallyTest (if current = some t then .sseConnectionFailed else .normal))
      split_ifs
      · exact .fails
      · exact .gaveUp
    | finallyTest exit =>
      cases hs
      show PcMove (.finallyTest exit)
        (if current = some t ∨ current = none then .disconnecting exit else exit.next)
      split_ifs
      · exact .cleansUp exit
      · exact .replaced exit
    | _ => cases hs <;> constructor
  | call outcome =>
    cases pc with
    | awaiting =>
      obtain ⟨-, hs⟩ := Option.ite_none_left_eq_some.mp hs
      cases hs
      exact .breaks outcome
    | handling =>
      cases hs
      show PcMove .handling (if outcome = .exited then .finallyTest .otherException else .awaiting)
      split_ifs
      · exact .exits
      · exact .handled
    | disconnecting exit =>
      cases hs
      exact .cleanedUp exit outcome
    | _ => cases hs <;> constructor
  | event data =>
    cases pc <;> cases hs
    constructor
  | ended =>
    cases pc <;> cases hs
    constructor

theorem phaseMove_of_pcMove {pc pc' : LoopPc} (c : CallCount) (h : PcMove pc pc') :
    PhaseMove (phase c.retries pc) (phase (c.after pc pc').retries pc') := by
  cases h with
  | fails => exact .stays
  | gaveUp => exact .ends
  | cleansUp exit =>
    cases exit with
    | sseConnectionFailed => exact .cleansUp
    | _ => exact .stays
  | replaced exit =>
    cases exit with
    | sseConnectionFailed => exact .pauses
    | _ => exact .stays
  | cleanedUp exit outcome =>
    cases exit with
    | sseConnectionFailed =>
      cases outcome with
      | returned => exact .cleanedUp
      | raisedSSEConnectionFailed => exact .cleanedUp
      | _ => exact .ends
    | _ => exact .fails
  | retries => exact .ends
  | _ => exact .fails

/-- A step of the loop is one of its moves, and any other step leaves it where it
is. -/
inductive ReconnectMove (t : Nat) (s : ReconnectState) (a : ReceiverAction) (s' : ReconnectState) :
    Prop
  | own : ownStep t a = true → PcMove (pcOf s.receiver t) (pcOf s'.receiver t) →
      s'.calls = s.calls.after (pcOf s.receiver t) (pcOf s'.receiver t) → ReconnectMove t s a s'
  | other : pcOf s'.receiver t = pcOf s.receiver t → s'.calls = s.calls → ReconnectMove t s a s'

theorem step_move (hr : receiver.Reachable s.receiver) (hs : reconnectStep t s a = some s') :
    ReconnectMove t s a s' := by
  obtain ⟨r, hstep, rfl⟩ := Option.map_eq_some_iff.mp hs
  cases a with
  | clear =>
    cases hstep
    exact .other rfl rfl
  | replace =>
    cases hstep
    refine .other ?_ rfl
    by_cases ht : t = s.receiver.nextId
    · -- The thread that is made is the one of the loop, which was not there.
      have hnone : s.receiver.loops t = none := by
        cases hl : s.receiver.loops t with
        | none => rfl
        | some lp => exact absurd ht ((ReceiverLoopLemmas.receiverInv hr).fresh t lp hl).ne
      simp only [pcOf, ← ht, Function.update_self, hnone]
      rfl
    · simp [pcOf, Function.update_of_ne ht]
  | loop u i =>
    obtain ⟨lp, hl, hstep⟩ := Option.bind_eq_some_iff.mp hstep
    obtain ⟨lp', hl', rfl⟩ := Option.map_eq_some_iff.mp hstep
    by_cases hu : u = t
    · subst hu
      have hown : ownStep u (.loop u i) = true := beq_self_eq_true u
      refine .own hown ?_ (if_pos hown)
      simpa [pcOf, hl] using loopStep_pcMove hl'
    · have hother : ¬ ownStep t (.loop u i) = true := fun h => hu (beq_iff_eq.mp h)
      refine .other ?_ (if_neg hother)
      simp [pcOf, Function.update_of_ne (Ne.symm hu)]

theorem reachable_step (hr : receiver.Reachable s.receiver) (hs : reconnectStep t s a = some s') :
    receiver.Reachable s'.receiver := by
  obtain ⟨r, hstep, rfl⟩ := Option.map_eq_some_iff.mp hs
  exact .step hr trivial hstep

theorem reachable_receiver (h : (reconnects t).Reachable s) : receiver.Reachable s.receiver :=
  h.invariant (I := fun s => receiver.Reachable s.receiver) .init
    fun _ _ _ hr _ hs => reachable_step hr hs

theorem phase_congr (hpc : pcOf s'.receiver t = pcOf s.receiver t) (hcalls : s'.calls = s.calls) :
    s'.phase t = s.phase t := by
  rw [ReconnectState.phase, ReconnectState.phase, hpc, hcalls]

theorem phaseMove (hr : receiver.Reachable s.receiver) (hs : reconnectStep t s a = some s') :
    PhaseMove (s.phase t) (s'.phase t) := by
  cases step_move hr hs with
  | own hown hmove hcalls =>
    have h := phaseMove_of_pcMove s.calls hmove
    rw [← hcalls] at h
    exact h
  | other hpc hcalls =>
    rw [phase_congr hpc hcalls]
    exact .stays

/-- The allowance of a loop that has lost its connection. -/
def retryAllowance (d : LossDurations) (t : Nat) :
    Allowance (reconnects t) (d.timing t) fun _ => True where
  inv s := receiver.Reachable s.receiver
  budget := d.untilRetry
  most_le {b m} hm := by
    have hhandler := d.handler_nonneg
    have hlatency := d.latency_nonneg
    have hm : d.most b = some m := hm
    cases b with
    | elsewhere => cases hm
    | failing k =>
      cases hm
      have hpause := sseBackoff.pause_pos k
      simp only [LossDurations.untilRetry]
      linarith
    | disconnecting k =>
      cases hm
      have hpause := sseBackoff.pause_pos k
      simp only [LossDurations.untilRetry]
      linarith
    | pausing k =>
      cases hm
      exact le_refl _
  keeps hr _ hs := reachable_step hr hs
  moves {s a s' m m'} hr _ hs hne hm hm' := by
    have hhandler := d.handler_nonneg
    have hmove := phaseMove hr hs
    have hne : s'.phase t ≠ s.phase t := hne
    have hm : d.most (s.phase t) = some m := hm
    have hm' : d.most (s'.phase t) = some m' := hm'
    show m + d.untilRetry (s'.phase t) ≤ d.untilRetry (s.phase t)
    generalize s.phase t = b at *
    generalize s'.phase t = b' at *
    cases hmove with
    | fails => cases hm
    | ends => cases hm'
    | stays => exact absurd rfl hne
    | _ =>
      cases hm
      simp only [LossDurations.untilRetry]
      linarith

theorem bounded_of_phase {s : TimedState ReconnectState} (h : s.state.phase t ≠ .elsewhere) :
    (d.timing t).Bounded s := by
  show d.most (s.state.phase t) ≠ none
  cases hphase : s.state.phase t with
  | elsewhere => exact absurd hphase h
  | _ => simp [LossDurations.most]

theorem untilRetry_le (s : ReconnectState) :
    d.untilRetry (s.phase t) ≤ d.handler + 2 * d.latency + sseBackoff.pause s.calls.retries := by
  have hhandler := d.handler_nonneg
  have hlatency := d.latency_nonneg
  have hpause := sseBackoff.pause_pos s.calls.retries
  rw [ReconnectState.phase]
  unfold Reconnects.phase
  split <;> simp only [LossDurations.untilRetry] <;> linarith

end ReconnectsLemmas

open ReconnectsLemmas

/-- As long as a loop that is past a failure has neither asked for a token again
nor been replaced nor ended, no more time has passed than that of the handler, two
latencies and the delay, which doubles with the retries of the call up to 240. -/
theorem reconnects_in_time (d : LossDurations) {t : Nat} {s s' : TimedState ReconnectState}
    {l : List (TimedAction ReceiverAction)}
    (hs : ((reconnects t).timed (d.timing t)).Reachable s)
    (h : ((reconnects t).timed (d.timing t)).exec s l = some s')
    (hlost : ((reconnects t).timed (d.timing t)).Along (fun s _ => s.state.phase t ≠ .elsewhere) s l)
    (hlost' : s'.state.phase t ≠ .elsewhere) :
    s'.now ≤ s.since + (d.handler + 2 * d.latency + min (2 * 2 ^ s.state.calls.retries) 240) := by
  have hpause : sseBackoff.pause s.state.calls.retries = min (2 * 2 ^ s.state.calls.retries) 240 :=
    sseBackoff.pause_eq _
  have hbudget : d.untilRetry (s.state.phase t) ≤
      d.handler + 2 * d.latency + sseBackoff.pause s.state.calls.retries :=
    untilRetry_le s.state
  have hall : ((reconnects t).timed (d.timing t)).Along (fun s _ => (d.timing t).Bounded s) s l :=
    System.along_mono (fun _ _ => bounded_of_phase) hlost
  have hlate := (retryAllowance d t).now_le (Timing.inTime hs)
    (reachable_receiver (Timing.reachable_untimed hs)) (fun _ _ => trivial) h hall
    (bounded_of_phase hlost')
  have hlate : s'.now ≤ s.since + d.untilRetry (s.state.phase t) := hlate
  rw [hpause] at hbudget
  exact le_trans hlate (by linarith)

/-- A handler of two units of time, and tests of half a unit. -/
def lossDurations : LossDurations where
  handler := 2
  latency := 1 / 2
  handler_nonneg := by decide
  latency_nonneg := by decide +kernel

/-- A loop is started, connects, and loses its connection 100 units of time later. -/
def lostRun : List (TimedAction ReceiverAction) :=
  [.act .replace, .act (.loop 0 .go), .act (.loop 0 .go), .act (.loop 0 (.call .returned)),
    .act (.loop 0 (.call .returned)), .act (.loop 0 (.call .returned)), .pass 100,
    .act (.loop 0 (.call .raised))]

/-- The handler, and the first delay. -/
def pausingRun : List (TimedAction ReceiverAction) :=
  [.act (.loop 0 .go), .act (.loop 0 .go), .pass 101, .act (.loop 0 (.call .returned)), .pass 103]

/-- The rule at that loss. -/
theorem reconnects_in_time_lost :
    ∃ s s', ((reconnects 0).timed (lossDurations.timing 0)).exec
        ((reconnects 0).timed (lossDurations.timing 0)).init lostRun = some s ∧
      ((reconnects 0).timed (lossDurations.timing 0)).exec s pausingRun = some s' ∧
      s'.now ≤ s.since + (2 + 2 * (1 / 2) + min (2 * 2 ^ s.state.calls.retries) 240) := by
  have hlost : (((reconnects 0).timed (lossDurations.timing 0)).exec
      ((reconnects 0).timed (lossDurations.timing 0)).init lostRun).isSome := by decide +kernel
  obtain ⟨s, hs⟩ := Option.isSome_iff_exists.mp hlost
  have hpausing : ((((reconnects 0).timed (lossDurations.timing 0)).exec
      ((reconnects 0).timed (lossDurations.timing 0)).init lostRun).bind fun s =>
        ((reconnects 0).timed (lossDurations.timing 0)).execWhile
          (fun s _ => s.state.phase 0 ≠ .elsewhere) s pausingRun).map (fun s => s.state.phase 0) =
      some (.pausing 0) := by decide +kernel
  rw [hs, Option.bind_some] at hpausing
  obtain ⟨s', hs', hphase⟩ := Option.map_eq_some_iff.mp hpausing
  obtain ⟨h, hall⟩ := System.exec_along_of_execWhile (fun _ _ => of_decide_eq_true) hs'
  refine ⟨s, s', hs, h, reconnects_in_time lossDurations (System.reachable_of_exec hs) h hall ?_⟩
  rw [hphase]
  exact Phase.noConfusion

namespace ReconnectsLemmas

variable {t : Nat} {d : LossDurations} {start since since' now : ℚ} {earlier : Nat}
  {pc pc' : LoopPc} {c c' : CallCount}

/-- Up to when the retries of the current call were made. -/
def reached (pc : LoopPc) (since now : ℚ) : ℚ :=
  match pc with
  | .sleeping => since
  | _ => now

theorem reached_le (h : since ≤ now) : reached pc since now ≤ now := by
  cases pc with
  | sleeping => exact h
  | _ => exact le_refl _

/-- The account of a loop whose current call began at `start`, when it had made
the `earlier` attempts. -/
structure Paced (start : ℚ) (earlier : Nat) (pc : LoopPc) (c : CallCount) (since now : ℚ) :
    Prop where
  earlier_le : (earlier : ℚ) ≤ 8 * c.returned + start / 240
  attempts_le : c.attempts ≤ earlier + c.retries + spent pc
  total_le : start + sseBackoff.total c.retries ≤ reached pc since now

theorem Paced.bound (h : Paced start earlier pc c since now) (htime : since ≤ now) :
    (c.attempts : ℚ) ≤ 8 * (c.returned + 1) + now / 240 := by
  have hspent : spent pc ≤ 1 := by
    unfold spent
    split <;> simp
  have hattempts : (c.attempts : ℚ) ≤ earlier + c.retries + 1 := by
    have hle := h.attempts_le
    exact_mod_cast (by omega : c.attempts ≤ earlier + c.retries + 1)
  have htotal : sseBackoff.total c.retries ≤ now - start := by
    have hle := h.total_le
    have hreached : reached pc since now ≤ now := reached_le htime
    linarith
  -- From the eighth on, the delay is the longest one.
  have hlongest : sseBackoff.maxDelay ≤ sseBackoff.delay * sseBackoff.factor ^ 7 := by
    decide +kernel
  have hretries : (c.retries : ℚ) ≤ (7 : Nat) + (now - start) / 240 :=
    sseBackoff.count_le hlongest htotal
  have hearlier := h.earlier_le
  push_cast at hretries
  linarith

theorem phase_eq_pausing {k k' : Nat} (h : phase k pc = .pausing k') : pc = .sleeping := by
  unfold phase at h
  split at h <;> first | rfl | cases h

end ReconnectsLemmas

namespace ReconnectsLemmas

variable {d : LossDurations} {s : TimedState ReconnectState} {lp lp' : Loop} {i : LoopInput}

/-- A current loop at a control point, which has made some calls, in no time. -/
structure AtOnce (d : LossDurations) (pc : LoopPc) (c : CallCount) (s : TimedState ReconnectState) :
    Prop where
  reachable : ((reconnects 0).timed (d.timing 0)).Reachable s
  current : s.state.receiver.current = some 0
  loop : ∃ lp, s.state.receiver.loops 0 = some lp ∧ lp.pc = pc
  calls : s.state.calls = c
  now : s.now = 0

theorem least_eq_zero {k : Nat} {pc : LoopPc} (hpc : pc ≠ .sleeping) : (phase k pc).least = 0 := by
  cases hphase : phase k pc with
  | pausing k' => exact absurd (phase_eq_pausing hphase) hpc
  | _ => rfl

/-- A step of a loop that does not sleep need not wait. -/
theorem AtOnce.step {pc : LoopPc} {c : CallCount} (h : AtOnce d pc c s) (pc' : LoopPc)
    (hpc : pc ≠ .sleeping) (i : LoopInput)
    (hstep : ∀ lp : Loop, lp.pc = pc → (loopStep (some 0) 0 lp i).map Loop.pc = some pc') :
    ∃ s', AtOnce d pc' (c.after pc pc') s' := by
  obtain ⟨lp, hl, hlpc⟩ := h.loop
  obtain ⟨lp', hl', hlpc'⟩ := Option.map_eq_some_iff.mp (hstep lp hlpc)
  have hstate : (reconnects 0).step s.state (.loop 0 i) = some {
      receiver := { s.state.receiver with loops := Function.update s.state.receiver.loops 0 (some lp') }
      calls := c.after pc pc' } := by
    show (((s.state.receiver.loops 0).bind _).map _) = _
    rw [hl, Option.bind_some, h.current, hl']
    simp [ownStep, pcOf, hl, hlpc, hlpc', h.calls, h.current]
  have hleast : s.since + (d.timing 0).least s.state (.loop 0 i) ≤ s.now := by
    have hphase : (s.state.phase 0).least = 0 := by
      rw [ReconnectState.phase, pcOf, hl, h.calls]
      exact least_eq_zero (show lp.pc ≠ .sleeping from hlpc.symm ▸ hpc)
    have hbegun := (Timing.inTime h.reachable).since_le
    show s.since + (s.state.phase 0).least ≤ s.now
    rw [hphase, add_zero]
    exact hbegun
  obtain ⟨s', hs', hstate', hnow⟩ := Timing.exists_act hleast hstate
  refine ⟨s', .step h.reachable trivial hs', ?_, ⟨lp', ?_, hlpc'⟩, ?_, hnow.trans h.now⟩
  · rw [hstate']
    exact h.current
  · rw [hstate']
    show Function.update s.state.receiver.loops 0 (some lp') 0 = some lp'
    exact Function.update_self ..
  · rw [hstate']

/-- The first loop, which has been started. -/
theorem exists_atOnce (d : LossDurations) : ∃ s, AtOnce d .loopTest ⟨0, 0, 0⟩ s := by
  have hleast : ((reconnects 0).timed (d.timing 0)).init.since +
      (d.timing 0).least ((reconnects 0).timed (d.timing 0)).init.state .replace ≤
      ((reconnects 0).timed (d.timing 0)).init.now := by
    show (0 : ℚ) + 0 ≤ 0
    simp
  have hmade : (reconnects 0).step (reconnects 0).init .replace = some {
      receiver := {
        current := some 0
        nextId := 1
        loops := Function.update (fun _ => none) 0 (some ⟨.created, 0, 0, 0⟩) }
      calls := ⟨0, 0, 0⟩ } := rfl
  obtain ⟨s, hs, hstate, hnow⟩ := Timing.exists_act hleast hmade
  have h : AtOnce d .created ⟨0, 0, 0⟩ s := by
    refine ⟨.step .init trivial hs, ?_, ⟨⟨.created, 0, 0, 0⟩, ?_, rfl⟩, ?_, hnow⟩
    · rw [hstate]
    · rw [hstate]
      show Function.update (fun _ => none) 0 (some (⟨.created, 0, 0, 0⟩ : Loop)) 0 = _
      exact Function.update_self ..
    · rw [hstate]
  exact h.step .loopTest (by simp) .go fun lp hpc => by simp [loopStep, hpc, Loop.goto]

/-- A stream that ends at once, and the return of the call. -/
theorem AtOnce.cycle {n : Nat} (h : AtOnce d .loopTest ⟨n, n, 0⟩ s) :
    ∃ s', AtOnce d .loopTest ⟨n + 1, n + 1, 0⟩ s' := by
  obtain ⟨s₁, h⟩ := h.step .token (by simp) .go
    fun lp hpc => by simp [loopStep, hpc, Loop.goto]
  obtain ⟨s₂, h⟩ := h.step .connecting (by simp) (.call .returned)
    fun lp hpc => by simp [loopStep, hpc, Loop.goto, afterCall]
  obtain ⟨s₃, h⟩ := h.step .connected (by simp) (.call .returned)
    fun lp hpc => by simp [loopStep, hpc, Loop.goto, afterCall]
  obtain ⟨s₄, h⟩ := h.step .awaiting (by simp) (.call .returned)
    fun lp hpc => by simp [loopStep, hpc, Loop.goto, afterCall]
  obtain ⟨s₅, h⟩ := h.step (.finallyTest .normal) (by simp) .ended
    fun lp hpc => by simp [loopStep, hpc, Loop.goto]
  obtain ⟨s₆, h⟩ := h.step (.disconnecting .normal) (by simp) .go
    fun lp hpc => by simp [loopStep, hpc, Loop.goto]
  exact h.step .loopTest (by simp) (.call .returned)
    fun lp hpc => by simp [loopStep, hpc, Loop.goto, afterHandler, Exit.next]

end ReconnectsLemmas

/-- Attempts after streams that end without an error are not held back: any number
of them is made in no time. -/
theorem clean_ends_unpaced (d : LossDurations) (n : Nat) :
    ∃ s, ((reconnects 0).timed (d.timing 0)).Reachable s ∧ s.now = 0 ∧ s.state.calls = ⟨n, n, 0⟩ := by
  have hall : ∃ s, AtOnce d .loopTest ⟨n, n, 0⟩ s := by
    induction n with
    | zero => exact exists_atOnce d
    | succ n ih =>
      obtain ⟨s, h⟩ := ih
      exact h.cycle
  obtain ⟨s, h⟩ := hall
  exact ⟨s, h.reachable, h.now, h.calls⟩

end EgressAgent
