import EgressAgent.HeartbeatChecker

/-!
# A replaced heartbeat loop

`replaced_checker_ends`: once a loop of the heartbeat checker is not the current
one, by a `stop()` or by a later `start()`, it never is again. The only call of the
handler that it may still make is its very next step, if it had read its elapsed
time and tested its id before, and it has ended half of the timeout later at the
latest, with whatever calls of `start()`, `stop()` and `heartbeat_received()`
follow. `stopped_loop_calls`: such a call comes after `stop()` has returned.
-/

namespace EgressAgent

open Transition
open HeartbeatChecker

namespace ReplacedCheckersLemmas

open HeartbeatCheckerLemmas

variable {inactivityTimeout made now lastHeartbeat moment : ℚ} {current : Option Nat} {t : Nat}
  {lp lp' : CheckLoop} {i : CheckInput} {s s' : HeartbeatState} {a : HeartbeatAction}

/-- Where a loop that is not current since the moment is on its way to its end. -/
def Winding (inactivityTimeout moment now : ℚ) : CheckPc → Prop
  | .waiting since _ => since ≤ moment
  | .enterWait => now = moment
  | .alarm => now = moment
  | .raised => True
  | .done => True
  | _ => now ≤ moment + inactivityTimeout / 2

/-- The moves of a loop that is not current: it ends at its next test. -/
inductive LastMove (now : ℚ) : CheckPc → CheckPc → Prop
  | begins : LastMove now .created .loopTest
  | leaves : LastMove now .loopTest .done
  | waits : LastMove now .enterWait (.waiting now false)
  | reads (since : ℚ) (notified : Bool) (elapsedTime : ℚ) :
      LastMove now (.waiting since notified) (.retest elapsedTime)
  | ends (elapsedTime : ℚ) : LastMove now (.retest elapsedTime) .done
  | calls : LastMove now .alarm .handling
  | returns : LastMove now .handling .loopTest
  | raises : LastMove now .handling .raised

theorem loopStep_lastMove (hcurrent : current ≠ some t)
    (hs : loopStep inactivityTimeout now lastHeartbeat current t lp i = some lp') :
    LastMove now lp.pc lp'.pc := by
  obtain ⟨pc, alerted⟩ := lp
  cases i with
  | go =>
    cases pc with
    | loopTest =>
      simp only [loopStep, hcurrent, if_false, Option.some.injEq] at hs
      exact hs ▸ .leaves
    | retest elapsedTime =>
      simp only [loopStep, ne_eq, hcurrent, not_false_eq_true, if_true, Option.some.injEq] at hs
      exact hs ▸ .ends elapsedTime
    | created => cases hs; exact .begins
    | enterWait => cases hs; exact .waits
    | waiting since notified => cases hs; exact .reads ..
    | alarm => cases hs; exact .calls
    | _ => cases hs
  | handlerReturns =>
    obtain ⟨hpc, hs⟩ := Option.ite_none_right_eq_some.mp hs
    cases hs
    rw [hpc]
    exact .returns
  | handlerRaises =>
    obtain ⟨hpc, hs⟩ := Option.ite_none_right_eq_some.mp hs
    cases hs
    rw [hpc]
    exact .raises

theorem winding_move (hT : 0 < inactivityTimeout) {pc pc' : CheckPc}
    (htimed : Timed inactivityTimeout now pc) (h : Winding inactivityTimeout moment now pc)
    (hmove : LastMove now pc pc') : Winding inactivityTimeout moment now pc' := by
  cases hmove with
  | waits =>
    have hnow : now = moment := h
    show now ≤ moment
    exact hnow.le
  | reads since notified elapsedTime =>
    have hsince : since ≤ moment := h
    show now ≤ moment + inactivityTimeout / 2
    linarith [htimed.2]
  | calls =>
    have hnow : now = moment := h
    show now ≤ moment + inactivityTimeout / 2
    linarith
  | begins => exact h
  | returns => exact h
  | _ => trivial

theorem winding_notified {pc : CheckPc} :
    Winding inactivityTimeout moment now pc.notified ↔ Winding inactivityTimeout moment now pc := by
  cases pc <;> rfl

theorem notified_eq_alarm {pc : CheckPc} : pc.notified = .alarm ↔ pc = .alarm := by
  cases pc <;> simp [CheckPc.notified]

/-- While time passes, a loop on its way to its end waits or has ended. -/
theorem winding_of_stays {later : ℚ} {pc : CheckPc}
    (hstays : pc.staysUntil inactivityTimeout later = true)
    (h : Winding inactivityTimeout moment now pc) :
    Winding inactivityTimeout moment later pc := by
  cases pc with
  | waiting since notified => exact h
  | raised => trivial
  | done => trivial
  | _ => cases hstays

/-- The loop `t` has not been current since the moment. -/
structure Retired (inactivityTimeout moment : ℚ) (t : Nat) (s : HeartbeatState) : Prop where
  inv : DetectionInv inactivityTimeout s
  replaced : s.currentLoopId ≠ some t
  winding : ∃ lp, s.loops t = some lp ∧ Winding inactivityTimeout moment s.now lp.pc

theorem retired_step (hT : 0 < inactivityTimeout) (hi : Retired inactivityTimeout moment t s)
    (hs : heartbeatStep inactivityTimeout s a = some s') :
    Retired inactivityTimeout moment t s' := by
  have hinv := detectionInv_step hT hi.inv hs
  obtain ⟨lp, hl, hwinding⟩ := hi.winding
  cases heartbeatStep_move hs with
  | startTouch =>
    exact ⟨hinv, hi.replaced, { lp with alerted := false }, by simp [HeartbeatState.touch, hl],
      hwinding⟩
  | startSet =>
    have ht := (hi.inv.fresh t lp hl).ne
    refine ⟨hinv, fun hcurrent => ht (Option.some.inj hcurrent).symm, lp, ?_, hwinding⟩
    exact (Function.update_of_ne ht ..).trans hl
  | stopClear => exact ⟨hinv, (Option.some_ne_none t).symm, lp, hl, hwinding⟩
  | heartbeatReceived byStop stopping =>
    refine ⟨hinv, hi.replaced, CheckLoop.goto { lp with alerted := false } lp.pc.notified, ?_, ?_⟩
    · simp [HeartbeatState.touch, HeartbeatState.notifyAll, hl]
    · exact winding_notified.mpr hwinding
  | @loop t₁ i lp₁ lp₁' hl₁ hstep =>
    by_cases ht : t = t₁
    · subst ht
      cases hl.symm.trans hl₁
      have hmove := loopStep_lastMove hi.replaced hstep
      exact ⟨hinv, hi.replaced, lp₁', Function.update_self ..,
        winding_move hT (hi.inv.timed t lp hl) hwinding hmove⟩
    · exact ⟨hinv, hi.replaced, lp, (Function.update_of_ne ht ..).trans hl, hwinding⟩
  | advance _ _ hstays =>
    have hstay := hstays t (hi.inv.fresh t lp hl) lp hl
    exact ⟨hinv, hi.replaced, lp, hl, winding_of_stays hstay hwinding⟩

/-- The loop comes to no call of the handler, and a step of its own is the call. -/
theorem calls_of_step (hi : Retired inactivityTimeout moment t s)
    (hs : heartbeatStep inactivityTimeout s a = some s') (hcalls : s'.Calls t) :
    s.Calls t ∧ ∀ i, a ≠ .loop t i := by
  obtain ⟨lp', hl', halarm⟩ := hcalls
  cases heartbeatStep_move hs with
  | startTouch =>
    obtain ⟨lp, hl, rfl⟩ := Option.map_eq_some_iff.mp hl'
    exact ⟨⟨lp, hl, halarm⟩, nofun⟩
  | startSet =>
    obtain ⟨lp, hl, -⟩ := hi.winding
    have ht := (hi.inv.fresh t lp hl).ne
    exact ⟨⟨lp', (Function.update_of_ne ht ..).symm.trans hl', halarm⟩, nofun⟩
  | stopClear => exact ⟨⟨lp', hl', halarm⟩, nofun⟩
  | heartbeatReceived byStop stopping =>
    obtain ⟨lp₁, hl₁, rfl⟩ := Option.map_eq_some_iff.mp hl'
    obtain ⟨lp, hl, rfl⟩ := Option.map_eq_some_iff.mp hl₁
    exact ⟨⟨lp, hl, notified_eq_alarm.mp halarm⟩, nofun⟩
  | @loop t₁ i lp₁ lp₁' hl₁ hstep =>
    by_cases ht : t = t₁
    · subst ht
      cases (Function.update_self ..).symm.trans hl'
      have hmove := loopStep_lastMove hi.replaced hstep
      rw [halarm] at hmove
      generalize lp₁.pc = pc at hmove
      cases hmove
    · refine ⟨⟨lp', (Function.update_of_ne ht ..).symm.trans hl', halarm⟩, fun j hj => ?_⟩
      cases hj
      exact ht rfl
  | advance => exact ⟨⟨lp', hl', halarm⟩, nofun⟩

theorem calls_of_run (hT : 0 < inactivityTimeout) {l : List HeartbeatAction}
    (hi : Retired inactivityTimeout moment t s)
    (h : (heartbeatChecker inactivityTimeout made).exec s l = some s') (hcalls : s'.Calls t) :
    s.Calls t ∧ ∀ i, .loop t i ∉ l := by
  induction l generalizing s with
  | nil =>
    cases h
    exact ⟨hcalls, fun _ => List.not_mem_nil⟩
  | cons a l ih =>
    rw [System.exec_cons] at h
    obtain ⟨s₁, hs, h⟩ := Option.bind_eq_some_iff.mp h
    have hstep : heartbeatStep inactivityTimeout s a = some s₁ := hs
    obtain ⟨hcalls₁, hquiet⟩ := ih (retired_step hT hi hstep) h
    obtain ⟨hcalls₀, hother⟩ := calls_of_step hi hstep hcalls₁
    refine ⟨hcalls₀, fun i hmem => ?_⟩
    rcases List.mem_cons.mp hmem with heq | htail
    · exact hother i heq.symm
    · exact hquiet i htail

/-- A loop that has just been replaced. -/
theorem winding_now (hT : 0 < inactivityTimeout) {pc : CheckPc}
    (htimed : Timed inactivityTimeout now pc) : Winding inactivityTimeout now now pc := by
  cases pc with
  | waiting since notified => exact htimed.1
  | enterWait => rfl
  | alarm => rfl
  | raised => trivial
  | done => trivial
  | _ =>
    show now ≤ now + inactivityTimeout / 2
    linarith

theorem Winding.bound (hT : 0 < inactivityTimeout) {pc : CheckPc}
    (htimed : Timed inactivityTimeout now pc) (h : Winding inactivityTimeout moment now pc) :
    pc = .done ∨ pc = .raised ∨ now ≤ moment + inactivityTimeout / 2 := by
  cases pc with
  | waiting since notified =>
    have hsince : since ≤ moment := h
    exact .inr (.inr (by linarith [htimed.2]))
  | enterWait =>
    have hnow : now = moment := h
    exact .inr (.inr (by linarith))
  | alarm =>
    have hnow : now = moment := h
    exact .inr (.inr (by linarith))
  | raised => exact .inr (.inl rfl)
  | done => exact .inl rfl
  | _ => exact .inr (.inr h)

end ReplacedCheckersLemmas

open HeartbeatCheckerLemmas ReplacedCheckersLemmas

/-- A loop that is not current in some state never is again. It makes a call of the
handler only if it stood before it in that state and has made no step since, and it
has ended, or its handler has raised, unless at most half of the timeout has
passed. -/
theorem replaced_checker_ends {inactivityTimeout : ℚ} (hT : 0 < inactivityTimeout) (made : ℚ)
    {s s' : HeartbeatState} {l : List HeartbeatAction} {t : Nat} {lp : CheckLoop}
    (hs : (heartbeatChecker inactivityTimeout made).Reachable s)
    (h : (heartbeatChecker inactivityTimeout made).exec s l = some s')
    (hl : s.loops t = some lp) (hreplaced : s.currentLoopId ≠ some t) :
    s'.currentLoopId ≠ some t ∧ (s'.Calls t → s.Calls t ∧ ∀ i, .loop t i ∉ l) ∧
      ∃ lp', s'.loops t = some lp' ∧
        (lp'.pc = .done ∨ lp'.pc = .raised ∨ s'.now ≤ s.now + inactivityTimeout / 2) := by
  have hi : Retired inactivityTimeout s.now t s := by
    have hinv := detectionInv hT hs
    exact ⟨hinv, hreplaced, lp, hl, winding_now hT (hinv.timed t lp hl)⟩
  have hi' : Retired inactivityTimeout s.now t s' := by
    have hall : (heartbeatChecker inactivityTimeout made).Along (fun _ _ => True) s l :=
      System.along_of_forall (fun _ _ _ => trivial) s
    exact System.exec_invariant (I := Retired inactivityTimeout s.now t)
      (fun s₁ a s₂ hi _ hs => retired_step hT hi hs) hi hall h
  obtain ⟨lp', hl', hwinding⟩ := hi'.winding
  exact ⟨hi'.replaced, calls_of_run hT hi h, lp', hl', hwinding.bound hT (hi'.inv.timed t lp' hl')⟩

/-- Three waits without a heartbeat, for a timeout of 2, and a `stop()` before the
call of the handler. -/
def stoppedAtAlarmRun : List HeartbeatAction :=
  [.startTouch, .startSet, .loop 0 .go, .loop 0 .go, .loop 0 .go,
    .advance 1, .loop 0 .go, .loop 0 .go, .loop 0 .go, .loop 0 .go,
    .advance 2, .loop 0 .go, .loop 0 .go, .loop 0 .go, .loop 0 .go,
    .advance 3, .loop 0 .go, .loop 0 .go, .stopClear, .heartbeatReceived true]

/-- The call of the handler, the end of the loop and two more units of time. -/
def lastCallRun : List HeartbeatAction :=
  [.loop 0 .go, .loop 0 .handlerReturns, .loop 0 .go, .advance 5]

theorem ReplacedCheckersLemmas.exec_stoppedAtAlarmRun :
    ∃ s lp, (heartbeatChecker 2 0).exec (heartbeatChecker 2 0).init stoppedAtAlarmRun = some s ∧
      s.now = 3 ∧ s.currentLoopId = none ∧ s.loops 0 = some lp ∧ lp.pc = .alarm := by
  have hrun : ((heartbeatChecker 2 0).exec (heartbeatChecker 2 0).init stoppedAtAlarmRun).map
      (fun s => (s.now, s.currentLoopId, s.loops 0)) = some (3, none, some ⟨.alarm, false⟩) := by
    decide +kernel
  obtain ⟨s, hs, hsummary⟩ := Option.map_eq_some_iff.mp hrun
  simp only [Prod.mk.injEq] at hsummary
  exact ⟨s, _, hs, hsummary.1, hsummary.2.1, hsummary.2.2, rfl⟩

/-- The rule at that `stop()`: two units of time later the loop has ended. -/
theorem replaced_checker_ends_stopped :
    ∃ s s' lp', (heartbeatChecker 2 0).exec (heartbeatChecker 2 0).init stoppedAtAlarmRun = some s ∧
      (heartbeatChecker 2 0).exec s lastCallRun = some s' ∧ s'.loops 0 = some lp' ∧
      (lp'.pc = .done ∨ lp'.pc = .raised) := by
  obtain ⟨s, lp, hs, hnow, hcurrent, hl, -⟩ := exec_stoppedAtAlarmRun
  have hrun : ((heartbeatChecker 2 0).exec (heartbeatChecker 2 0).init
      (stoppedAtAlarmRun ++ lastCallRun)).map (fun s => s.now) = some 5 := by decide +kernel
  rw [System.exec_append, hs, Option.bind_some] at hrun
  obtain ⟨s', hs', hnow'⟩ := Option.map_eq_some_iff.mp hrun
  obtain ⟨-, -, lp', hl', hend⟩ := replaced_checker_ends two_pos 0 (System.reachable_of_exec hs) hs'
    hl (by rw [hcurrent]; simp)
  refine ⟨s, s', lp', hs, hs', hl', ?_⟩
  rcases hend with hdone | hraised | hearly
  · exact .inl hdone
  · exact .inr hraised
  · rw [hnow, hnow'] at hearly
    norm_num at hearly

/-- The handler is called after `stop()` has returned. -/
theorem stopped_loop_calls :
    ∃ s, (heartbeatChecker 2 0).Reachable s ∧ s.currentLoopId = none ∧ s.stopping = 0 ∧
      s.Calls 0 := by
  obtain ⟨s, lp, hs, -, hcurrent, hl, hpc⟩ := exec_stoppedAtAlarmRun
  refine ⟨s, System.reachable_of_exec hs, hcurrent, ?_, lp, hl, hpc⟩
  have hrun : ((heartbeatChecker 2 0).exec (heartbeatChecker 2 0).init stoppedAtAlarmRun).map
      (fun s => s.stopping) = some 0 := by decide +kernel
  rw [hs] at hrun
  exact Option.some.inj hrun

end EgressAgent
