import EgressAgent.Lib.Timed
import EgressAgent.MetricsTimer
import EgressAgent.TimerService

/-!
# The timers in time

One thread of `MetricsTimer` and one of `TimerService` in rational time, beside
any other threads and any calls of `start()` and `stop()`. A wait without a
notification lasts at least the interval and ends soon after it, a call of the
handler may take up to a given time, and every other step up to a latency, after a
notification too. `threading` has no spurious wake-ups.

1. `metrics_timer_period`: two calls of the handler by one thread lie between one
   interval and little more than the interval and the time of the handler apart,
   and a stopped thread has ended after the time of the handler.
2. `timer_service_period`: the same between two returns of the handler. A stopped
   thread may last an interval longer, since it does not test `_running` under
   the lock before it waits.
-/

namespace EgressAgent

open Transition

/-- How long the steps of a timer thread take. -/
structure Durations where
  /-- the interval of the timer -/
  interval : ℚ
  /-- at most, one call of the handler -/
  handler : ℚ
  /-- at most, any other step, and the delay after the end of a wait -/
  latency : ℚ
  interval_nonneg : 0 ≤ interval
  handler_nonneg : 0 ≤ handler
  latency_nonneg : 0 ≤ latency

/-! ## 1. The metrics timer -/

namespace MetricsTimer

/-- How long a thread may stay at a control point. -/
def MetricsPc.most (d : Durations) : MetricsPc → Option ℚ
  | .returned => none
  | .waiting false => some (d.interval + d.latency)
  | .handling => some d.handler
  | _ => some d.latency

theorem MetricsPc.most_nonneg {d : Durations} {pc : MetricsPc} {m : ℚ} (h : pc.most d = some m) :
    0 ≤ m := by
  have hinterval := d.interval_nonneg
  have hhandler := d.handler_nonneg
  have hlatency := d.latency_nonneg
  unfold MetricsPc.most at h
  split at h <;> cases h
  · linarith
  · exact hhandler
  · exact hlatency

/-- The timing of the thread `t`. -/
def metricsTiming (d : Durations) (t : Nat) :
    Timing MetricsState MetricsAction (Option MetricsPc) :=
  Timing.ofThread MetricsState.threads t
    (fun _ a => if a = .thread t .timeout then d.interval else 0) (MetricsPc.most d)
    MetricsPc.most_nonneg

/-- At most how long a thread that came to the control point takes until it calls
the handler. -/
def MetricsPc.untilCall (d : Durations) : MetricsPc → ℚ
  | .handling => d.handler + d.interval + 4 * d.latency
  | .created => d.interval + 5 * d.latency
  | .loopTest => d.interval + 4 * d.latency
  | .enterWait => d.interval + 3 * d.latency
  | .waiting false => d.interval + 2 * d.latency
  | _ => d.latency

/-- At most how long a stopped thread that came to the control point takes until it
has ended. -/
def MetricsPc.untilEnd (d : Durations) : MetricsPc → ℚ
  | .calling => d.handler + 2 * d.latency
  | .handling => d.handler + d.latency
  | .created => 2 * d.latency
  | .waiting false => d.interval + d.latency
  | _ => d.latency

/-- At least how long a thread that came to the control point takes until its wait
has timed out. -/
def MetricsPc.untilTimeout (d : Durations) : MetricsPc → ℚ
  | .calling => 0
  | _ => d.interval

end MetricsTimer

namespace TimerPeriodsLemmas

open MetricsTimer MetricsTimerLemmas

variable {d : Durations} {t : Nat} {s s' : MetricsState} {a : MetricsAction}

/-- What a step does to the thread `t`, one constructor for each way to move it. -/
inductive Watched (t : Nat) (s : MetricsState) (pc : MetricsPc) : MetricsAction → MetricsPc → Prop
  | own {i : MetricsInput} {pc' : MetricsPc} : ThreadMove s.stopFlag pc i pc' →
      Watched t s pc (.thread t i) pc'
  | notified : pc = .waiting false → Watched t s pc .stop (.waiting true)

theorem watched_or_same {pc : MetricsPc} (hi : Numbered s) (hs : metricsStep s a = some s')
    (hpc : s.threads t = some pc) :
    ∃ pc', s'.threads t = some pc' ∧ (pc' = pc ∨ Watched t s pc a pc') := by
  cases metricsStep_move hs with
  | clear => exact ⟨pc, hpc, .inl rfl⟩
  | spawn =>
    have ht := Nat.ne_of_lt (hi t pc hpc)
    exact ⟨pc, (Function.update_of_ne ht ..).trans hpc, .inl rfl⟩
  | stop =>
    refine ⟨pc.notifyAll, by simp [hpc], ?_⟩
    cases pc with
    | waiting notified =>
      cases notified with
      | false => exact .inr (.notified rfl)
      | true => exact .inl rfl
    | _ => exact .inl rfl
  | @thread t₁ i pc₁ pc₁' hpc₁ hmove =>
    by_cases ht : t = t₁
    · subst ht
      cases hpc.symm.trans hpc₁
      exact ⟨pc₁', Function.update_self .., .inr (.own hmove)⟩
    · exact ⟨pc, (Function.update_of_ne ht ..).trans hpc, .inl rfl⟩

/-- The moves of the thread `t`, with what the steps that meet `ok` keep. -/
def metricsMoves (t : Nat) (ok : MetricsAction → Prop) (I : MetricsState → Prop)
    (keeps : ∀ s a s', I s → ok a → metricsStep s a = some s' → I s') :
    ThreadMoves metricsTimer MetricsState.threads t ok where
  inv s := Numbered s ∧ I s
  Move := Watched t
  keeps hi ha hs := ⟨numbered_step hi.1 hs, keeps _ _ _ hi.2 ha hs⟩
  moves hi _ hs hpc := watched_or_same hi.1 hs hpc

theorem most_eq_none {pc : MetricsPc} : pc.most d = none ↔ pc = .returned := by
  cases pc with
  | waiting notified => cases notified <;> simp [MetricsPc.most]
  | _ => simp [MetricsPc.most]

/-- A thread that has ended does not move. -/
theorem most_of_watched {pc pc' : MetricsPc} (h : Watched t s pc a pc')
    (hreturned : pc.most d = none) : pc'.most d = none := by
  obtain rfl := most_eq_none.mp hreturned
  cases h with
  | own hmove => cases hmove
  | notified hwaiting => cases hwaiting

/-- The deadline for the next call of the handler. -/
def callDeadline (d : Durations) (t : Nat) :
    Deadline metricsTimer (metricsTiming d t) (· ≠ .thread t .call) := by
  have hhandler := d.handler_nonneg
  have hinterval := d.interval_nonneg
  have hlatency := d.latency_nonneg
  refine (metricsMoves t _ (fun _ => True) fun _ _ _ _ _ _ => trivial).deadline
    (MetricsPc.untilCall d) ?_ (fun _ _ _ _ => most_of_watched) ?_
  · intro pc m hm
    unfold MetricsPc.most at hm
    split at hm <;> cases hm
    · simp only [MetricsPc.untilCall]
      linarith
    · simp only [MetricsPc.untilCall]
      linarith
    · unfold MetricsPc.untilCall
      split <;> linarith
  · intro s pc a pc' m m' _ ha hpc hwatched hm hm'
    cases hwatched with
    | own hmove =>
      cases hmove with
      | calls => exact absurd rfl ha
      | leaves _ => cases hm'
      | breaks _ => cases hm'
      | woken => cases hm'
      | exits => cases hm'
      | _ =>
        cases hm
        simp only [MetricsPc.untilCall]
        linarith
    | notified hwaiting =>
      subst hwaiting
      cases hm
      simp only [MetricsPc.untilCall]
      linarith

/-- The deadline for the end of a stopped thread. -/
def endDeadline (d : Durations) (t : Nat) :
    Deadline metricsTimer (metricsTiming d t) (· ≠ .clear) := by
  have hhandler := d.handler_nonneg
  have hlatency := d.latency_nonneg
  refine (metricsMoves t _ Stopped fun _ _ _ hi ha hs => stopped_step hi ha hs).deadline
    (MetricsPc.untilEnd d) ?_ (fun _ _ _ _ => most_of_watched) ?_
  · intro pc m hm
    unfold MetricsPc.most at hm
    split at hm <;> cases hm
    · exact le_refl _
    · simp only [MetricsPc.untilEnd]
      linarith
    · unfold MetricsPc.untilEnd
      split <;> first | linarith | simp_all
  · intro s pc a pc' m m' hi ha hpc hwatched hm hm'
    obtain ⟨-, hstopped⟩ := hi
    cases hwatched with
    | own hmove =>
      cases hmove with
      | goesOn hflag => exact absurd (hflag.symm.trans hstopped.flag) (by simp)
      | sleeps hflag => exact absurd (hflag.symm.trans hstopped.flag) (by simp)
      | timesOut => exact absurd rfl (hstopped.awake t _ hpc)
      | leaves _ => cases hm'
      | breaks _ => cases hm'
      | woken => cases hm'
      | exits => cases hm'
      | _ =>
        cases hm
        simp only [MetricsPc.untilEnd]
        linarith
    | notified hwaiting => exact absurd hwaiting (hstopped.awake t _ hpc)

/-- The earliest next call of the handler. -/
def callSpacing (d : Durations) (t : Nat) :
    Spacing metricsTimer (metricsTiming d t) (· ≠ .thread t .call) :=
  (metricsMoves t _ (fun _ => True) fun _ _ _ _ _ _ => trivial).spacing
    (MetricsPc.untilTimeout d) fun s pc a pc' ha hpc hwatched => by
      cases hwatched with
      | own hmove =>
        cases hmove with
        | calls => exact absurd rfl ha
        | _ => simp [MetricsPc.untilTimeout]
      | notified hwaiting =>
        subst hwaiting
        simp [MetricsPc.untilTimeout]

/-- A call of the handler. -/
theorem threads_of_call (hs : metricsStep s (.thread t .call) = some s') :
    s.threads t = some .calling ∧ s'.threads t = some .handling := by
  cases metricsStep_move hs with
  | thread hpc hmove =>
    cases hmove with
    | calls => exact ⟨hpc, Function.update_self ..⟩

/-- A thread that has not ended is at a place with a bound. -/
theorem exists_most {pc : MetricsPc} (hpc : s.threads t = some pc)
    (h : s.threads t ≠ some .returned) :
    ∃ m, (metricsTiming d t).most ((metricsTiming d t).place s) = some m := by
  have hplace : (metricsTiming d t).place s = some pc := hpc
  rw [hplace]
  refine Option.ne_none_iff_exists'.mp fun hnone => h ?_
  rw [hpc, most_eq_none.mp hnone]

theorem untilEnd_le {pc : MetricsPc} (h : pc ≠ .waiting false) :
    pc.untilEnd d ≤ d.handler + 2 * d.latency := by
  have hhandler := d.handler_nonneg
  have hlatency := d.latency_nonneg
  unfold MetricsPc.untilEnd
  split <;> first | linarith | exact absurd rfl h

end TimerPeriodsLemmas

section

open MetricsTimer MetricsTimerLemmas TimerPeriodsLemmas

/-- After a call of the handler by a thread, and before its next one, no more time
passes than the handler, the interval and four latencies take together, unless the
thread has ended, and the thread comes to its next call only after an interval. And
after a `stop()`, as long as no `start()` clears the event, no more time passes
than the handler and two latencies take, until a thread that was there has ended. -/
theorem metrics_timer_period (d : Durations) (t : Nat) {s s' : TimedState MetricsState}
    {a : MetricsAction} {l : List (TimedAction MetricsAction)}
    (hs : (metricsTimer.timed (metricsTiming d t)).Reachable s)
    (h : (metricsTimer.timed (metricsTiming d t)).exec s (.act a :: l) = some s') :
    (a = .thread t .call → .act (.thread t .call) ∉ l →
      (s'.state.threads t ≠ some .returned →
        s'.now ≤ s.now + (d.handler + d.interval + 4 * d.latency)) ∧
      (s'.state.threads t = some .calling → s.now + d.interval ≤ s'.now)) ∧
    (a = .stop → s.state.threads t ≠ none → .act .clear ∉ l →
      s'.state.threads t ≠ some .returned → s'.now ≤ s.now + (d.handler + 2 * d.latency)) := by
  obtain ⟨s₁, h₁, h₂⟩ := Option.bind_eq_some_iff.mp (System.exec_cons .. ▸ h)
  obtain ⟨hs₁, hnow, hsince⟩ := Timing.act_eq h₁
  have hstep : metricsStep s.state a = some s₁.state := hs₁
  have hi := Timing.inTime_step (Timing.inTime hs) h₁
  have hnumbered := numbered_step (numbered (Timing.reachable_untimed hs)) hstep
  constructor
  · rintro rfl hl
    have hok : ∀ a, .act a ∈ l → a ≠ .thread t .call := by
      rintro a ha rfl
      exact hl ha
    obtain ⟨hcalling, hhandling⟩ := threads_of_call hstep
    have hplace : (metricsTiming d t).place s₁.state = some .handling := hhandling
    have hlater : s₁.since = s.now := by
      refine hsince ?_
      show s₁.state.threads t ≠ s.state.threads t
      simp [hcalling, hhandling]
    have hpresent : (callDeadline d t).inv s₁.state := ⟨⟨hnumbered, trivial⟩, _, hhandling⟩
    constructor
    · intro hends
      obtain ⟨-, pc', hpc'⟩ := (callDeadline d t).inv_exec hpresent hok h₂
      obtain ⟨m, hm⟩ := exists_most (d := d) hpc' hends
      have hlate := (callDeadline d t).now_le hi hpresent hok h₂ hm
      rw [hplace, hlater] at hlate
      exact hlate
    · intro hcalls
      have hearly := (callSpacing d t).since_le hpresent hok h₂
      have hplace' : (metricsTiming d t).place s'.state = some .calling := hcalls
      rw [hplace, hplace', hlater] at hearly
      have hbegun := (Timing.inTime_exec hi h₂).since_le
      have hearly' : s.now + d.interval ≤ s'.since + 0 := hearly
      linarith
  · rintro rfl hexists hl hends
    have hok : ∀ a, .act a ∈ l → a ≠ .clear := by
      rintro a ha rfl
      exact hl ha
    obtain ⟨pc₀, hpc₀⟩ := Option.ne_none_iff_exists'.mp hexists
    obtain ⟨pc, hpc, -⟩ := watched_or_same (numbered (Timing.reachable_untimed hs)) hstep hpc₀
    have hstopped := stopped_of_stop hstep
    have hpresent : (endDeadline d t).inv s₁.state := ⟨⟨hnumbered, hstopped⟩, pc, hpc⟩
    obtain ⟨-, pc', hpc'⟩ := (endDeadline d t).inv_exec hpresent hok h₂
    obtain ⟨m, hm⟩ := exists_most (d := d) hpc' hends
    have hlate := (endDeadline d t).now_le hi hpresent hok h₂ hm
    have hplace : (metricsTiming d t).place s₁.state = some pc := hpc
    have hbudget : (endDeadline d t).budget (some pc) ≤ d.handler + 2 * d.latency :=
      untilEnd_le (hstopped.awake t pc hpc)
    have hbegun := hi.since_le
    rw [hplace] at hlate
    rw [hnow] at hbegun
    linarith

/-- A handler of a minute every ten minutes, with a latency of a second. -/
def tenMinutes : Durations where
  interval := 600
  handler := 60
  latency := 1
  interval_nonneg := by decide
  handler_nonneg := by decide
  latency_nonneg := by decide

/-- The first thread up to the end of its first wait. -/
def firstWaitRun : List (TimedAction MetricsAction) :=
  [.act .clear, .act .spawn, .act (.thread 0 .go), .act (.thread 0 .go), .act (.thread 0 .go),
    .pass 600, .act (.thread 0 .timeout)]

/-- From the call of the handler on, up to the end of the next wait. -/
def nextWaitRun : List (TimedAction MetricsAction) :=
  [.pass 630, .act (.thread 0 (.handled false)), .act (.thread 0 .go), .act (.thread 0 .go),
    .pass 1230, .act (.thread 0 .timeout)]

/-- The rule at two calls of the handler that lie 630 seconds apart. -/
theorem metrics_timer_period_run :
    ∃ s s', (metricsTimer.timed (metricsTiming tenMinutes 0)).exec
        (metricsTimer.timed (metricsTiming tenMinutes 0)).init firstWaitRun = some s ∧
      (metricsTimer.timed (metricsTiming tenMinutes 0)).exec s
        (.act (.thread 0 .call) :: nextWaitRun) = some s' ∧
      s.now + 600 ≤ s'.now ∧ s'.now ≤ s.now + (60 + 600 + 4 * 1) := by
  have hrun : ((metricsTimer.timed (metricsTiming tenMinutes 0)).exec
      (metricsTimer.timed (metricsTiming tenMinutes 0)).init
      (firstWaitRun ++ .act (.thread 0 .call) :: nextWaitRun)).map
        (fun s => s.state.threads 0) = some (some .calling) := by decide +kernel
  obtain ⟨s', h, hcalling⟩ := Option.map_eq_some_iff.mp hrun
  rw [System.exec_append, Option.bind_eq_some_iff] at h
  obtain ⟨s, hs, h⟩ := h
  have hquiet : TimedAction.act (MetricsAction.thread 0 .call) ∉ nextWaitRun := by
    simp [nextWaitRun]
  obtain ⟨hlate, hearly⟩ :=
    (metrics_timer_period tenMinutes 0 (System.reachable_of_exec hs) h).1 rfl hquiet
  refine ⟨s, s', hs, h, hearly hcalling, hlate ?_⟩
  rw [hcalling]
  simp

end

/-! ## 2. The timer service -/

namespace TimerService

/-- How long a thread may stay at a control point. -/
def TimerPc.most (d : Durations) : TimerPc → Option ℚ
  | .returned => none
  | .waiting false => some (d.interval + d.latency)
  | .handling => some d.handler
  | _ => some d.latency

theorem TimerPc.most_nonneg {d : Durations} {pc : TimerPc} {m : ℚ} (h : pc.most d = some m) :
    0 ≤ m := by
  have hinterval := d.interval_nonneg
  have hhandler := d.handler_nonneg
  have hlatency := d.latency_nonneg
  unfold TimerPc.most at h
  split at h <;> cases h
  · linarith
  · exact hhandler
  · exact hlatency

/-- A wait that was not notified lasts for the interval. -/
def waitsFor (d : Durations) (t : Nat) (s : TimerState) : TimerAction → ℚ
  | .thread t₁ .timeout => if t₁ = t ∧ s.threads t = some (.waiting false) then d.interval else 0
  | _ => 0

/-- The timing of the thread `t`. -/
def timerTiming (d : Durations) (t : Nat) : Timing TimerState TimerAction (Option TimerPc) :=
  Timing.ofThread TimerState.threads t (waitsFor d t) (TimerPc.most d) TimerPc.most_nonneg

/-- At most how long a thread that came to the control point takes until its call
of the handler is over. -/
def TimerPc.untilHandled (d : Durations) : TimerPc → ℚ
  | .handling => d.handler
  | .handlerTest => d.handler + d.latency
  | .retest => d.handler + 2 * d.latency
  | .waiting true => d.handler + 3 * d.latency
  | .waiting false => d.handler + d.interval + 4 * d.latency
  | .enterWait => d.handler + d.interval + 5 * d.latency
  | .loopTest => d.handler + d.interval + 6 * d.latency
  | .created => d.handler + d.interval + 7 * d.latency
  | .returned => 0

/-- At most how long a stopped thread that came to the control point takes until it
has ended. -/
def TimerPc.untilEnd (d : Durations) : TimerPc → ℚ
  | .enterWait => d.interval + 4 * d.latency
  | .waiting false => d.interval + 3 * d.latency
  | .handlerTest => d.handler + 2 * d.latency
  | .handling => d.handler + d.latency
  | .waiting true => 2 * d.latency
  | .created => 2 * d.latency
  | _ => d.latency

/-- At least how long a thread that came to the control point takes until a wait is
over. -/
def TimerPc.untilTimeout (d : Durations) : TimerPc → ℚ
  | .created => d.interval
  | .loopTest => d.interval
  | .enterWait => d.interval
  | .waiting false => d.interval
  | .returned => d.interval
  | _ => 0

/-- The action is a return of the handler, or an exception that leaves it, in the
thread `t`. -/
def EndsCall (t : Nat) (a : TimerAction) : Prop := ∃ exited, a = .thread t (.handled exited)

end TimerService

namespace TimerPeriodsLemmas

open TimerService

section

variable {d : Durations} {t : Nat} {s s' : TimerState} {a : TimerAction}

/-- The moves of a thread of the timer service. -/
inductive ServiceMove (s : TimerState) : TimerPc → TimerInput → TimerPc → Prop
  | begins : ServiceMove s .created .go .loopTest
  | goesOn : s.running = true → ServiceMove s .loopTest .go .enterWait
  | leaves : s.running = false → ServiceMove s .loopTest .go .returned
  | sleeps : ServiceMove s .enterWait .go (.waiting false)
  | woken : ServiceMove s (.waiting true) .go .retest
  | timesOut (notified : Bool) : ServiceMove s (.waiting notified) .timeout .retest
  | passes : s.running = true → ServiceMove s .retest .go .handlerTest
  | breaks : s.running = false → ServiceMove s .retest .go .returned
  | calls : ServiceMove s .handlerTest .go .handling
  | unhandled : ServiceMove s .handlerTest .go .returned
  | handled : ServiceMove s .handling (.handled false) .loopTest
  | exits : ServiceMove s .handling (.handled true) .returned

theorem threadStep_service {pc pc' : TimerPc} {i : TimerInput} (h : threadStep s pc i = some pc') :
    ServiceMove s pc i pc' := by
  unfold threadStep at h
  split at h
  · cases h
    exact .begins
  · cases hrunning : s.running <;> rw [hrunning] at h <;> cases h
    · exact .leaves hrunning
    · exact .goesOn hrunning
  · cases h
    exact .sleeps
  · cases h
    exact .woken
  · cases h
    exact .timesOut _
  · cases hrunning : s.running <;> rw [hrunning] at h <;> cases h
    · exact .breaks hrunning
    · exact .passes hrunning
  · cases hhandler : s.handler <;> rw [hhandler] at h <;> cases h
    · exact .unhandled
    · exact .calls
  · next exited =>
    cases exited <;> cases h
    · exact .handled
    · exact .exits
  · cases h

/-- What a step of the service does to the thread `t`. -/
inductive ServiceWatched (t : Nat) (s : TimerState) (pc : TimerPc) : TimerAction → TimerPc → Prop
  | own {i : TimerInput} {pc' : TimerPc} : ServiceMove s pc i pc' →
      ServiceWatched t s pc (.thread t i) pc'
  | notified : pc = .waiting false → ServiceWatched t s pc .stop (.waiting true)

/-- The threads in the table have the numbers below the next one. -/
def ServiceNumbered (s : TimerState) : Prop := ∀ t pc, s.threads t = some pc → t < s.nextThread

theorem serviceNumbered_step (hi : ServiceNumbered s) (hs : timerStep s a = some s') :
    ServiceNumbered s' := by
  cases a with
  | setHandler defined =>
    cases hs
    exact hi
  | setRunning =>
    cases hs
    refine update_thread (fun t pc h => Nat.lt_succ_of_lt (hi t pc h)) ?_
    exact Nat.lt_succ_self _
  | stop =>
    cases hs
    intro t pc hpc
    obtain ⟨pc₀, hpc₀, rfl⟩ := Option.map_eq_some_iff.mp hpc
    exact hi t pc₀ hpc₀
  | thread t i =>
    obtain ⟨pc, hpc, hs⟩ := Option.bind_eq_some_iff.mp hs
    obtain ⟨pc', hpc', rfl⟩ := Option.map_eq_some_iff.mp hs
    exact update_thread hi (hi _ _ hpc)

theorem serviceNumbered (h : timerService.Reachable s) : ServiceNumbered s :=
  h.invariant (I := ServiceNumbered) (fun _ _ h => by cases h)
    fun _ _ _ hi _ hs => serviceNumbered_step hi hs

theorem serviceWatched_or_same {pc : TimerPc} (hi : ServiceNumbered s)
    (hs : timerStep s a = some s') (hpc : s.threads t = some pc) :
    ∃ pc', s'.threads t = some pc' ∧ (pc' = pc ∨ ServiceWatched t s pc a pc') := by
  cases a with
  | setHandler defined =>
    cases hs
    exact ⟨pc, hpc, .inl rfl⟩
  | setRunning =>
    cases hs
    have ht := Nat.ne_of_lt (hi t pc hpc)
    exact ⟨pc, (Function.update_of_ne ht ..).trans hpc, .inl rfl⟩
  | stop =>
    cases hs
    refine ⟨pc.notifyAll, by simp [hpc], ?_⟩
    cases pc with
    | waiting notified =>
      cases notified with
      | false => exact .inr (.notified rfl)
      | true => exact .inl rfl
    | _ => exact .inl rfl
  | thread t₁ i =>
    obtain ⟨pc₁, hpc₁, hs⟩ := Option.bind_eq_some_iff.mp hs
    obtain ⟨pc₁', hmove, rfl⟩ := Option.map_eq_some_iff.mp hs
    by_cases ht : t = t₁
    · subst ht
      cases hpc.symm.trans hpc₁
      exact ⟨pc₁', Function.update_self .., .inr (.own (threadStep_service hmove))⟩
    · exact ⟨pc, (Function.update_of_ne ht ..).trans hpc, .inl rfl⟩

/-- The moves of the thread `t` of the service, with what the steps that meet `ok`
keep. -/
def serviceMoves (t : Nat) (ok : TimerAction → Prop) (I : TimerState → Prop)
    (keeps : ∀ s a s', I s → ok a → timerStep s a = some s' → I s') :
    ThreadMoves timerService TimerState.threads t ok where
  inv s := ServiceNumbered s ∧ I s
  Move := ServiceWatched t
  keeps hi ha hs := ⟨serviceNumbered_step hi.1 hs, keeps _ _ _ hi.2 ha hs⟩
  moves hi _ hs hpc := serviceWatched_or_same hi.1 hs hpc

theorem service_most_eq_none {pc : TimerPc} : pc.most d = none ↔ pc = .returned := by
  cases pc with
  | waiting notified => cases notified <;> simp [TimerPc.most]
  | _ => simp [TimerPc.most]

theorem most_of_serviceWatched {pc pc' : TimerPc} (h : ServiceWatched t s pc a pc')
    (hreturned : pc.most d = none) : pc'.most d = none := by
  obtain rfl := service_most_eq_none.mp hreturned
  cases h with
  | own hmove => cases hmove
  | notified hwaiting => cases hwaiting

/-- The deadline for the end of the next call of the handler. -/
def handledDeadline (d : Durations) (t : Nat) :
    Deadline timerService (timerTiming d t) fun a => ¬ EndsCall t a := by
  have hhandler := d.handler_nonneg
  have hinterval := d.interval_nonneg
  have hlatency := d.latency_nonneg
  refine (serviceMoves t _ (fun _ => True) fun _ _ _ _ _ _ => trivial).deadline
    (TimerPc.untilHandled d) ?_ (fun _ _ _ _ => most_of_serviceWatched) ?_
  · intro pc m hm
    unfold TimerPc.most at hm
    split at hm <;> cases hm
    · simp only [TimerPc.untilHandled]
      linarith
    · exact le_refl _
    · unfold TimerPc.untilHandled
      split <;> first | linarith | simp_all
  · intro s pc a pc' m m' _ ha hpc hwatched hm hm'
    cases hwatched with
    | own hmove =>
      cases hmove with
      | handled => exact absurd ⟨false, rfl⟩ ha
      | leaves _ => cases hm'
      | breaks _ => cases hm'
      | unhandled => cases hm'
      | exits => cases hm'
      | timesOut notified =>
        cases notified <;> cases hm <;> simp only [TimerPc.untilHandled] <;> linarith
      | _ =>
        cases hm
        simp only [TimerPc.untilHandled]
        linarith
    | notified hwaiting =>
      subst hwaiting
      cases hm
      simp only [TimerPc.untilHandled]
      linarith

/-- The deadline for the end of a stopped thread of the service. -/
def stoppedDeadline (d : Durations) (t : Nat) :
    Deadline timerService (timerTiming d t) (· ≠ .setRunning) := by
  have hhandler := d.handler_nonneg
  have hinterval := d.interval_nonneg
  have hlatency := d.latency_nonneg
  refine (serviceMoves t _ (fun s => s.running = false) fun _ _ _ hi ha hs =>
    TimerServiceLemmas.stopped_step hi ha hs).deadline
    (TimerPc.untilEnd d) ?_ (fun _ _ _ _ => most_of_serviceWatched) ?_
  · intro pc m hm
    unfold TimerPc.most at hm
    split at hm <;> cases hm
    · simp only [TimerPc.untilEnd]
      linarith
    · simp only [TimerPc.untilEnd]
      linarith
    · unfold TimerPc.untilEnd
      split <;> linarith
  · intro s pc a pc' m m' hi ha hpc hwatched hm hm'
    obtain ⟨-, hstopped⟩ := hi
    cases hwatched with
    | own hmove =>
      cases hmove with
      | goesOn hrunning => exact absurd (hrunning.symm.trans hstopped) (by simp)
      | passes hrunning => exact absurd (hrunning.symm.trans hstopped) (by simp)
      | leaves _ => cases hm'
      | breaks _ => cases hm'
      | unhandled => cases hm'
      | exits => cases hm'
      | timesOut notified =>
        cases notified <;> cases hm <;> simp only [TimerPc.untilEnd] <;> linarith
      | _ =>
        cases hm
        simp only [TimerPc.untilEnd]
        linarith
    | notified hwaiting =>
      subst hwaiting
      cases hm
      simp only [TimerPc.untilEnd]
      linarith

/-- The earliest end of the next wait, if no `stop()` comes. -/
def waitSpacing (d : Durations) (t : Nat) :
    Spacing timerService (timerTiming d t) fun a => ¬ EndsCall t a ∧ a ≠ .stop :=
  (serviceMoves t _ (fun _ => True) fun _ _ _ _ _ _ => trivial).spacing
    (TimerPc.untilTimeout d) fun s pc a pc' ha hpc hwatched => by
      cases hwatched with
      | own hmove =>
        cases hmove with
        | handled => exact absurd ⟨false, rfl⟩ ha.1
        | exits => exact absurd ⟨true, rfl⟩ ha.1
        | timesOut notified =>
          cases notified <;> simp [waitsFor, TimerPc.untilTimeout, hpc]
        | _ => simp [waitsFor, TimerPc.untilTimeout, d.interval_nonneg]
      | notified => exact absurd rfl ha.2

/-- A thread of the service that has not ended is at a place with a bound. -/
theorem exists_most_service {pc : TimerPc} (hpc : s.threads t = some pc)
    (h : s.threads t ≠ some .returned) :
    ∃ m, (timerTiming d t).most ((timerTiming d t).place s) = some m := by
  have hplace : (timerTiming d t).place s = some pc := hpc
  rw [hplace]
  refine Option.ne_none_iff_exists'.mp fun hnone => h ?_
  rw [hpc, service_most_eq_none.mp hnone]

/-- A return of the handler. -/
theorem threads_of_handled (hs : timerStep s (.thread t (.handled false)) = some s') :
    s.threads t = some .handling ∧ s'.threads t = some .loopTest := by
  obtain ⟨pc, hpc, hs⟩ := Option.bind_eq_some_iff.mp hs
  obtain ⟨pc', hmove, rfl⟩ := Option.map_eq_some_iff.mp hs
  cases threadStep_service hmove with
  | handled => exact ⟨hpc, Function.update_self ..⟩

theorem service_untilEnd_le {pc : TimerPc} :
    pc.untilEnd d ≤ max (d.interval + 4 * d.latency) (d.handler + 2 * d.latency) := by
  have hhandler := d.handler_nonneg
  have hinterval := d.interval_nonneg
  have hlatency := d.latency_nonneg
  unfold TimerPc.untilEnd
  split <;> first
    | exact le_max_of_le_left (by linarith)
    | exact le_max_of_le_right (by linarith)

end

end TimerPeriodsLemmas

section

open TimerService TimerPeriodsLemmas

/-- After a return of the handler in a thread, and before the next one, no more
time passes than the handler, the interval and six latencies take together, unless
the thread has ended, and if no `stop()` comes, the thread is inside the handler
again only after an interval. And after a `stop()`, as long as nothing is started,
no more time passes than an interval and four latencies, or the handler and two
latencies, take, until a thread that was there has ended. -/
theorem timer_service_period (d : Durations) (t : Nat) {s s' : TimedState TimerState}
    {a : TimerAction} {l : List (TimedAction TimerAction)}
    (hs : (timerService.timed (timerTiming d t)).Reachable s)
    (h : (timerService.timed (timerTiming d t)).exec s (.act a :: l) = some s') :
    (a = .thread t (.handled false) → (∀ a, .act a ∈ l → ¬ EndsCall t a) →
      (s'.state.threads t ≠ some .returned →
        s'.now ≤ s.now + (d.handler + d.interval + 6 * d.latency)) ∧
      (.act .stop ∉ l → s'.state.threads t = some .handling → s.now + d.interval ≤ s'.now)) ∧
    (a = .stop → s.state.threads t ≠ none → .act .setRunning ∉ l →
      s'.state.threads t ≠ some .returned →
      s'.now ≤ s.now + max (d.interval + 4 * d.latency) (d.handler + 2 * d.latency)) := by
  obtain ⟨s₁, h₁, h₂⟩ := Option.bind_eq_some_iff.mp (System.exec_cons .. ▸ h)
  obtain ⟨hs₁, hnow, hsince⟩ := Timing.act_eq h₁
  have hstep : timerStep s.state a = some s₁.state := hs₁
  have hi := Timing.inTime_step (Timing.inTime hs) h₁
  have hnumbered₀ := serviceNumbered (Timing.reachable_untimed hs)
  have hnumbered := serviceNumbered_step hnumbered₀ hstep
  constructor
  · rintro rfl hok
    obtain ⟨hhandling, hlooping⟩ := threads_of_handled hstep
    have hplace : (timerTiming d t).place s₁.state = some .loopTest := hlooping
    have hlater : s₁.since = s.now := by
      refine hsince ?_
      show s₁.state.threads t ≠ s.state.threads t
      simp [hhandling, hlooping]
    have hpresent : (handledDeadline d t).inv s₁.state := ⟨⟨hnumbered, trivial⟩, _, hlooping⟩
    constructor
    · intro hends
      obtain ⟨-, pc', hpc'⟩ := (handledDeadline d t).inv_exec hpresent hok h₂
      obtain ⟨m, hm⟩ := exists_most_service (d := d) hpc' hends
      have hlate := (handledDeadline d t).now_le hi hpresent hok h₂ hm
      rw [hplace, hlater] at hlate
      exact hlate
    · intro hl hcalls
      have hquiet : ∀ a, .act a ∈ l → ¬ EndsCall t a ∧ a ≠ .stop := by
        refine fun a ha => ⟨hok a ha, ?_⟩
        rintro rfl
        exact hl ha
      have hearly := (waitSpacing d t).since_le hpresent hquiet h₂
      have hplace' : (timerTiming d t).place s'.state = some .handling := hcalls
      rw [hplace, hplace', hlater] at hearly
      have hbegun := (Timing.inTime_exec hi h₂).since_le
      have hearly' : s.now + d.interval ≤ s'.since + 0 := hearly
      linarith
  · rintro rfl hexists hl hends
    have hok : ∀ a, .act a ∈ l → a ≠ .setRunning := by
      rintro a ha rfl
      exact hl ha
    obtain ⟨pc₀, hpc₀⟩ := Option.ne_none_iff_exists'.mp hexists
    obtain ⟨pc, hpc, -⟩ := serviceWatched_or_same hnumbered₀ hstep hpc₀
    have hstopped : s₁.state.running = false := by
      rw [← Option.some.inj hstep]
    have hpresent : (stoppedDeadline d t).inv s₁.state := ⟨⟨hnumbered, hstopped⟩, pc, hpc⟩
    obtain ⟨-, pc', hpc'⟩ := (stoppedDeadline d t).inv_exec hpresent hok h₂
    obtain ⟨m, hm⟩ := exists_most_service (d := d) hpc' hends
    have hlate := (stoppedDeadline d t).now_le hi hpresent hok h₂ hm
    have hplace : (timerTiming d t).place s₁.state = some pc := hpc
    have hbudget : (stoppedDeadline d t).budget (some pc) ≤
        max (d.interval + 4 * d.latency) (d.handler + 2 * d.latency) := service_untilEnd_le
    have hbegun := hi.since_le
    rw [hplace] at hlate
    rw [hnow] at hbegun
    linarith

/-- The first thread, up to its wait. -/
def enterWaitRun : List (TimedAction TimerAction) :=
  [.act (.setHandler true), .act .setRunning, .act (.thread 0 .go), .act (.thread 0 .go)]

/-- The wait, and the delay after it. -/
def sleepRun : List (TimedAction TimerAction) :=
  [.pass 1, .act (.thread 0 .go), .pass 602, .act (.thread 0 .timeout)]

/-- The rule at a `stop()` that comes just before the wait: ten minutes later the
thread has not ended. -/
theorem timer_service_period_slept :
    ∃ s s', (timerService.timed (timerTiming tenMinutes 0)).exec
        (timerService.timed (timerTiming tenMinutes 0)).init enterWaitRun = some s ∧
      (timerService.timed (timerTiming tenMinutes 0)).exec s (.act .stop :: sleepRun) = some s' ∧
      s'.state.threads 0 = some .retest ∧ s'.now = s.now + 602 ∧
      s'.now ≤ s.now + max (600 + 4 * 1) (60 + 2 * 1) := by
  have hbefore : ((timerService.timed (timerTiming tenMinutes 0)).exec
      (timerService.timed (timerTiming tenMinutes 0)).init enterWaitRun).map
        (fun s => (s.now, s.state.threads 0)) = some (0, some .enterWait) := by decide +kernel
  have hrun : ((timerService.timed (timerTiming tenMinutes 0)).exec
      (timerService.timed (timerTiming tenMinutes 0)).init
      (enterWaitRun ++ .act .stop :: sleepRun)).map
        (fun s => (s.now, s.state.threads 0)) = some (602, some .retest) := by decide +kernel
  obtain ⟨s', h, hend⟩ := Option.map_eq_some_iff.mp hrun
  rw [System.exec_append, Option.bind_eq_some_iff] at h
  obtain ⟨s, hs, h⟩ := h
  rw [hs, Option.map_some, Option.some.injEq, Prod.mk.injEq] at hbefore
  obtain ⟨hnow, hpc⟩ := hbefore
  rw [Prod.mk.injEq] at hend
  obtain ⟨hnow', hpc'⟩ := hend
  refine ⟨s, s', hs, h, hpc', by rw [hnow, hnow']; norm_num, ?_⟩
  refine (timer_service_period tenMinutes 0 (System.reachable_of_exec hs) h).2 rfl ?_ ?_ ?_
  · simp [hpc]
  · simp [sleepRun]
  · simp [hpc']

end

end EgressAgent
