import EgressAgent.Lib.Simulation
import EgressAgent.ReceiverLoop

/-!
# The loops of the event stream

The event stream and the receiver by itself embed the same `SSEClientReceiver`, the
one with the client and the heartbeat threads around it. With the ids of its loops
numbered in order, every run of the event stream is a run of the receiver.

1. `SeenLoops` relates the two. `LoopChange` lists what a step does to the loops.
2. `replaced_streams_quiet`: in the whole of a run, a thread whose loop is not the
   current one connects or hands on an event once at most.
-/

namespace EgressAgent

open Py Transition
open EventStream ReceiverLoop

namespace StreamLoops

/-! ## 1. The loops -/

/-- What a thread does that the backend or the handlers can see. -/
inductive Late
  | connected
  | handled (event : PyVal)

def lateOf : RecvPc → RecvInput → List Late
  | .connecting, .connected => [.connected]
  | .handling (.ok event), .go => [.handled event]
  | _, _ => []

/-- What the thread of the loop does in a step, if its loop is not the current one. -/
def late (id : Nat) (s : State) (a : Action) (_ : State) : List Late :=
  match a with
  | .receiver t i =>
    if t = id ∧ s.receiverLoop ≠ some id then (s.receivers id).elim [] fun pc => lateOf pc i else []
  | _ => []

/-- The loop whose thread is about to be started, by the caller or by a heartbeat
thread. -/
def starting (s : State) : Option Nat → Option Nat
  | none =>
    match s.caller with
    | .startSpawn id => some id
    | _ => none
  | some h =>
    match s.checkers h with
    | some (.restartSpawn id) => some id
    | _ => none

/-- The control point of the thread of a loop, which may not be started yet. -/
def threadPc : Option RecvPc → LoopPc
  | none => .created
  | some pc => ofRecvPc pc

/-- The thread of a loop and what it did late. -/
structure SeenLoop (pc : Option RecvPc) (lates : Nat) (lp : Loop) : Prop where
  pc : lp.pc = threadPc pc
  lates : lp.attempts + lp.deliveries = lates
  handlerFailures : lp.handlerFailures = 0

/-- The event stream seen as a receiver. The loops are numbered in the order in which
they became current. -/
structure SeenLoops (number : Nat → Option Nat) (lates : Nat → Nat) (s : State)
    (t : ReceiverState) : Prop where
  fresh : ∀ id j, number id = some j → id < s.nextId ∧ j < t.nextId
  inj : ∀ id id' j, number id = some j → number id' = some j → id = id'
  current : t.current = s.receiverLoop.bind number
  known : ∀ id, s.receiverLoop = some id → number id ≠ none
  idle : ∀ id, number id = none → lates id = 0
  loops : ∀ id j, number id = some j →
    ∃ lp, t.loops j = some lp ∧ SeenLoop (s.receivers id) (lates id) lp
  receivers : ∀ id pc, s.receivers id = some pc → number id ≠ none
  starting : ∀ w id, starting s w = some id → number id ≠ none ∧ s.receivers id = none
  once : ∀ w w' id, StreamLoops.starting s w = some id → StreamLoops.starting s w' = some id → w = w'

/-- What a step does to the loops. -/
inductive LoopChange (s : State) (a : Action) (s' : State) : Prop
  | quiet : s'.receiverLoop = s.receiverLoop → s'.receivers = s.receivers → s'.nextId = s.nextId →
      (∀ w id, starting s' w = some id → starting s w = some id) →
      (∀ t i, a ≠ .receiver t i) → LoopChange s a s'
  | clears : s'.receiverLoop = none → s'.receivers = s.receivers → s'.nextId = s.nextId →
      (∀ w id, starting s' w = some id → starting s w = some id) →
      (∀ t i, a ≠ .receiver t i) → LoopChange s a s'
  | sets (w : Option Nat) : s'.receiverLoop = some s.nextId → s'.receivers = s.receivers →
      s'.nextId = s.nextId + 1 → starting s' w = some s.nextId →
      (∀ w', w' ≠ w → ∀ id, starting s' w' = some id → starting s w' = some id) →
      (∀ t i, a ≠ .receiver t i) → LoopChange s a s'
  | spawns (w : Option Nat) (id : Nat) : starting s w = some id →
      s'.receiverLoop = s.receiverLoop →
      s'.receivers = Function.update s.receivers id (some .loopTest) → s'.nextId = s.nextId →
      starting s' w = none →
      (∀ w', w' ≠ w → ∀ id, starting s' w' = some id → starting s w' = some id) →
      (∀ t i, a ≠ .receiver t i) → LoopChange s a s'
  | moves {t : Nat} {i : RecvInput} {pc : RecvPc} (pc' : RecvPc) : a = .receiver t i →
      s.receivers t = some pc → recvStep s t pc i = some s' →
      s'.receiverLoop = s.receiverLoop → s'.receivers = Function.update s.receivers t (some pc') →
      s.nextId ≤ s'.nextId → (∀ w id, starting s' w = some id → starting s w = some id) →
      LoopChange s a s'

end StreamLoops

open StreamLoops

namespace StreamLoopsLemmas

/-! ### What a step of the stream does -/

variable {inactivityTimeout : Nat} {s s' : State} {a : Action}

/-- A heartbeat thread that does not come to start a loop. -/
theorem starting_setChecker {h : Nat} {pc : CheckPc} (hpc : ∀ id, pc ≠ .restartSpawn id)
    {w : Option Nat} {id : Nat} (hw : starting (s.setChecker h pc) w = some id) :
    starting s w = some id ∧ w ≠ some h := by
  cases w with
  | none => exact ⟨hw, fun h => by cases h⟩
  | some h' =>
    by_cases hh : h' = h
    · subst hh
      simp only [starting, State.setChecker_checkers, Function.update_self] at hw
      split at hw
      · next heq => exact absurd (Option.some.inj heq) (hpc _)
      · cases hw
    · simp only [starting, State.setChecker_checkers, Function.update_of_ne hh] at hw
      exact ⟨hw, fun h => hh (Option.some.inj h)⟩

theorem recvStep_change {t : Nat} {pc : RecvPc} {i : RecvInput} (hpc : s.receivers t = some pc)
    (hs : recvStep s t pc i = some s') : LoopChange s (.receiver t i) s' := by
  have hstep := hs
  unfold recvStep at hs
  split at hs <;> cases hs
  -- In the order of the branches of `recvStep`.
  · exact .moves _ rfl hpc hstep rfl rfl (le_refl _) fun _ _ h => h
  · exact .moves _ rfl hpc hstep rfl rfl (le_refl _) fun _ _ h => h
  · exact .moves _ rfl hpc hstep rfl rfl (le_refl _) fun _ _ h => h
  · exact .moves _ rfl hpc hstep rfl rfl (le_refl _) fun _ _ h => h
  · exact .moves _ rfl hpc hstep rfl rfl (Nat.le_succ _) fun _ _ h => h
  · next loopId =>
    refine .moves _ rfl hpc hstep rfl rfl (le_refl _) fun w id h => ?_
    have h : starting (s.setChecker loopId .loopTest) w = some id := h
    exact (starting_setChecker (fun id h => by cases h) h).1
  · exact .moves _ rfl hpc hstep rfl rfl (le_refl _) fun _ _ h => h
  · exact .moves _ rfl hpc hstep rfl rfl (le_refl _) fun _ _ h => h
  · exact .moves _ rfl hpc hstep rfl rfl (le_refl _) fun _ _ h => h
  · exact .moves _ rfl hpc hstep rfl rfl (le_refl _) fun _ _ h => h
  · exact .moves _ rfl hpc hstep rfl rfl (le_refl _) fun _ _ h => h
  · exact .moves _ rfl hpc hstep rfl rfl (le_refl _) fun _ _ h => h
  · exact .moves _ rfl hpc hstep rfl rfl (le_refl _) fun _ _ h => h
  · exact .moves _ rfl hpc hstep rfl rfl (le_refl _) fun _ _ h => h
  · exact .moves _ rfl hpc hstep rfl rfl (le_refl _) fun _ _ h => h
  · exact .moves _ rfl hpc hstep rfl rfl (le_refl _) fun _ _ h => h

/-- The caller of `start()` or `stop()` at another control point. -/
theorem starting_caller {caller : CallerPc} (hcaller : ∀ id, caller ≠ .startSpawn id)
    {w : Option Nat} {id : Nat} (hw : starting { s with caller } w = some id) :
    starting s w = some id ∧ w ≠ none := by
  cases w with
  | none =>
    simp only [starting] at hw
    cases hw
  | some h => exact ⟨hw, fun h => by cases h⟩

theorem checkStep_change {h : Nat} {pc : CheckPc} (hpc : s.checkers h = some pc)
    (hs : checkStep inactivityTimeout s h pc = some s') : LoopChange s (.checker h) s' := by
  cases pc with
  | loopTest =>
    cases hs
    refine .quiet rfl rfl rfl (fun w id hw => (starting_setChecker ?_ hw).1) fun _ _ h => by cases h
    split_ifs <;> exact fun id h => by cases h
  | waiting =>
    cases hs
    exact .quiet rfl rfl rfl (fun w id hw => (starting_setChecker (fun id h => by cases h) hw).1)
      fun _ _ h => by cases h
  | retest elapsedTime =>
    cases hs
    refine .quiet rfl rfl rfl (fun w id hw => (starting_setChecker ?_ hw).1) fun _ _ h => by cases h
    split_ifs <;> exact fun id h => by cases h
  | restartClear =>
    cases hs
    refine .clears rfl rfl rfl (fun w id hw => ?_) fun _ _ h => by cases h
    have hw : starting (s.setChecker h .restartSet) w = some id := hw
    exact (starting_setChecker (fun id h => by cases h) hw).1
  | restartSet =>
    cases hs
    refine .sets (some h) rfl rfl rfl ?_ (fun w hne id hw => ?_) fun _ _ h => by cases h
    · simp [starting]
    · cases w with
      | none => exact hw
      | some h' =>
        have hh : h' ≠ h := fun heq => hne (congrArg some heq)
        simpa [starting, Function.update_of_ne hh] using hw
  | restartSpawn loopId =>
    cases hs
    refine .spawns (some h) loopId ?_ rfl rfl rfl ?_ (fun w hne id hw => ?_) fun _ _ h => by cases h
    · simp [starting, hpc]
    · simp [starting]
    · have hw : starting (s.setChecker h .loopTest) w = some id := hw
      exact (starting_setChecker (fun id h => by cases h) hw).1
  | done => cases hs

theorem step_change (hs : step inactivityTimeout s a = some s') : LoopChange s a s' := by
  cases a with
  | start =>
    simp only [step, Option.ite_none_right_eq_some, Option.some.injEq] at hs
    obtain ⟨-, rfl⟩ := hs
    refine .quiet rfl rfl rfl (fun w id hw => ?_) fun _ _ h => by cases h
    have hw : starting { s with caller := .startSet } w = some id := hw
    exact (starting_caller (fun id h => by cases h) hw).1
  | stop =>
    simp only [step, Option.ite_none_right_eq_some, Option.some.injEq] at hs
    obtain ⟨-, rfl⟩ := hs
    refine .quiet rfl rfl rfl (fun w id hw => ?_) fun _ _ h => by cases h
    have hw : starting { s with caller := .stopClear } w = some id := hw
    exact (starting_caller (fun id h => by cases h) hw).1
  | caller =>
    simp only [step, callerStep] at hs
    split at hs
    · cases hs
    · cases hs
      refine .sets none rfl rfl rfl rfl (fun w hne id hw => ?_) fun _ _ h => by cases h
      cases w with
      | none => exact absurd rfl hne
      | some h => exact hw
    · next loopId hc =>
      cases hs
      refine .spawns none loopId ?_ rfl rfl rfl rfl (fun w hne id hw => ?_) fun _ _ h => by cases h
      · simp [starting, hc]
      · have hw : starting { s with caller := .idle } w = some id := hw
        exact (starting_caller (fun id h => by cases h) hw).1
    · cases hs
      refine .clears rfl rfl rfl (fun w id hw => ?_) fun _ _ h => by cases h
      have hw : starting { s with caller := .idle } w = some id := hw
      exact (starting_caller (fun id h => by cases h) hw).1
  | receiver t i =>
    obtain ⟨pc, hpc, hs⟩ := Option.bind_eq_some_iff.mp hs
    exact recvStep_change hpc hs
  | checker h =>
    obtain ⟨pc, hpc, hs⟩ := Option.bind_eq_some_iff.mp hs
    exact checkStep_change hpc hs
  | clock now =>
    cases hs
    exact .quiet rfl rfl rfl (fun _ _ hw => hw) fun _ _ h => by cases h

/-! ### What the receiver does for it -/

section Threads

variable {current current' : Option Nat} {t t' : Nat} {lp lp' : Loop}

/-- A thread goes by whether its loop is the current one and whether there is one. -/
theorem loopStep_congr (h : current = some t ↔ current' = some t')
    (hnone : current = none ↔ current' = none) : loopStep current t = loopStep current' t' := by
  funext lp i
  unfold loopStep counted
  simp only [h, hnone]

/-- What the steps of a thread for one of the stream add to its account. -/
theorem recvStep_count {s s' : State} {id : Nat} {pc : RecvPc} {i : RecvInput}
    (hs : recvStep s id pc i = some s') (hpc : lp.pc = ofRecvPc pc)
    (h : (inputsOf pc i).foldlM (loopStep current t) lp = some lp') :
    lp'.attempts + lp'.deliveries =
        lp.attempts + lp.deliveries + counted current t * (lateOf pc i).length ∧
      lp'.handlerFailures = lp.handlerFailures := by
  obtain ⟨pc₀, attempts, deliveries, handlerFailures⟩ := lp
  subst hpc
  have hkept {pc' : LoopPc} (h : (some ⟨pc', attempts, deliveries, handlerFailures⟩ : Option Loop) =
      some lp') : lp'.attempts + lp'.deliveries = attempts + deliveries ∧
        lp'.handlerFailures = handlerFailures := by
    cases h
    exact ⟨rfl, rfl⟩
  unfold recvStep at hs
  split at hs <;> cases hs
  -- In the order of the branches of `recvStep`.
  · exact hkept h
  · cases h
    exact ⟨by simp only [Loop.goto, lateOf, List.length_singleton]; omega, rfl⟩
  · exact hkept h
  · exact hkept h
  · exact hkept h
  · exact hkept h
  · exact hkept h
  · exact hkept h
  · exact hkept h
  · exact hkept h
  · next data =>
    cases data with
    | error ex => exact hkept h
    | ok event =>
      cases h
      exact ⟨by simp only [Loop.goto, lateOf, List.length_singleton]; omega, rfl⟩
  · exact hkept h
  · exact hkept h
  · exact hkept h
  · exact hkept h
  · exact hkept h

theorem leads_inputs {r : ReceiverState} {j : Nat} {l : List LoopInput} (hj : r.loops j = some lp)
    (h : l.foldlM (loopStep r.current j) lp = some lp') :
    receiver.Leads (fun _ _ => True) r { r with loops := Function.update r.loops j (some lp') } := by
  induction l generalizing r lp with
  | nil =>
    simp only [List.foldlM_nil, Option.pure_def, Option.some.injEq] at h
    have hsame : Function.update r.loops j (some lp') = r.loops := by
      rw [← h, ← hj, Function.update_eq_self]
    rw [hsame]
    exact .refl r
  | cons i l ih =>
    rw [List.foldlM_cons, Option.bind_eq_bind, Option.bind_eq_some_iff] at h
    obtain ⟨lp₁, hi, hl⟩ := h
    have hs : receiver.step r (.loop j i) =
        some { r with loops := Function.update r.loops j (some lp₁) } := by
      show (r.loops j).bind _ = _
      rw [hj, Option.bind_some, hi]
      rfl
    have hrest := ih (r := { r with loops := Function.update r.loops j (some lp₁) })
      (Function.update_self ..) hl
    rw [Function.update_idem] at hrest
    exact .step trivial hs hrest

end Threads

/-! ### The two together -/

variable {number : Nat → Option Nat} {lates : Nat → Nat} {r r' : ReceiverState}

theorem not_issued (h : SeenLoops number lates s r) : number s.nextId = none := by
  cases hnumber : number s.nextId with
  | none => rfl
  | some j => exact absurd (h.fresh _ j hnumber).1 (Nat.lt_irrefl _)

/-- The current loop is the current one of the receiver. -/
theorem seen_current_iff (h : SeenLoops number lates s r) {id j : Nat}
    (hj : number id = some j) : s.receiverLoop = some id ↔ r.current = some j := by
  rw [h.current]
  constructor
  · intro hid
    rw [hid, Option.bind_some, hj]
  · intro hbind
    obtain ⟨id', hid', hj'⟩ := Option.bind_eq_some_iff.mp hbind
    rw [hid', h.inj id' id j hj' hj]

theorem seen_current_none_iff (h : SeenLoops number lates s r) :
    s.receiverLoop = none ↔ r.current = none := by
  rw [h.current]
  cases hloop : s.receiverLoop with
  | none => simp
  | some id => simp [h.known id hloop]

/-- Where the threads stay, a loop id may be cleared. -/
theorem seen_frame (h : SeenLoops number lates s r) (hreceivers : s'.receivers = s.receivers)
    (hnext : s'.nextId = s.nextId)
    (hstarting : ∀ w id, StreamLoops.starting s' w = some id → StreamLoops.starting s w = some id)
    (hloops : r'.loops = r.loops) (hnext' : r'.nextId = r.nextId)
    (hcurrent : r'.current = s'.receiverLoop.bind number)
    (hknown : ∀ id, s'.receiverLoop = some id → number id ≠ none) :
    SeenLoops number lates s' r' where
  fresh id j hj := by
    rw [hnext, hnext']
    exact h.fresh id j hj
  inj := h.inj
  current := hcurrent
  known := hknown
  idle := h.idle
  loops id j hj := by
    rw [hloops, hreceivers]
    exact h.loops id j hj
  receivers id pc hpc := h.receivers id pc (hreceivers ▸ hpc)
  starting w id hw := by
    rw [hreceivers]
    exact h.starting w id (hstarting w id hw)
  once w w' id hw hw' := h.once w w' id (hstarting w id hw) (hstarting w' id hw')

theorem update_eq_some {n m id j : Nat} (h : Function.update number n (some m) id = some j) :
    id = n ∧ j = m ∨ id ≠ n ∧ number id = some j := by
  by_cases hid : id = n
  · rw [hid, Function.update_self, Option.some.injEq] at h
    exact .inl ⟨hid, h.symm⟩
  · rw [Function.update_of_ne hid] at h
    exact .inr ⟨hid, h⟩

theorem update_ne_none {n m id : Nat} (h : number id ≠ none) :
    Function.update number n (some m) id ≠ none := by
  by_cases hid : id = n
  · rw [hid, Function.update_self]
    exact Option.some_ne_none m
  · rw [Function.update_of_ne hid]
    exact h

/-- A new loop becomes the current one. -/
theorem seen_sets (h : SeenLoops number lates s r) {w : Option Nat}
    (hloop : s'.receiverLoop = some s.nextId) (hreceivers : s'.receivers = s.receivers)
    (hnext : s'.nextId = s.nextId + 1) (hw : StreamLoops.starting s' w = some s.nextId)
    (hothers : ∀ w', w' ≠ w → ∀ id, StreamLoops.starting s' w' = some id →
      StreamLoops.starting s w' = some id) :
    SeenLoops (Function.update number s.nextId (some r.nextId)) lates s'
      { current := some r.nextId, nextId := r.nextId + 1
        loops := Function.update r.loops r.nextId (some ⟨.created, 0, 0, 0⟩) } where
  fresh id j hj := by
    rw [hnext]
    rcases update_eq_some hj with ⟨rfl, rfl⟩ | ⟨-, hold⟩
    · exact ⟨Nat.lt_succ_self _, Nat.lt_succ_self _⟩
    · obtain ⟨hid, hj⟩ := h.fresh id j hold
      exact ⟨Nat.lt_succ_of_lt hid, Nat.lt_succ_of_lt hj⟩
  inj id id' j hj hj' := by
    rcases update_eq_some hj with ⟨hid, hnew⟩ | ⟨-, hold⟩ <;>
      rcases update_eq_some hj' with ⟨hid', hnew'⟩ | ⟨-, hold'⟩
    · rw [hid, hid']
    · exact absurd (h.fresh id' j hold').2 (hnew ▸ Nat.lt_irrefl _)
    · exact absurd (h.fresh id j hold).2 (hnew' ▸ Nat.lt_irrefl _)
    · exact h.inj id id' j hold hold'
  current := by
    rw [hloop, Option.bind_some, Function.update_self]
  known id hid := by
    cases hloop.symm.trans hid
    rw [Function.update_self]
    exact Option.some_ne_none _
  idle id hid := by
    refine h.idle id (by_contra fun hne => ?_)
    exact update_ne_none hne hid
  loops id j hj := by
    rw [hreceivers]
    rcases update_eq_some hj with ⟨rfl, rfl⟩ | ⟨-, hold⟩
    · have hnone : s.receivers s.nextId = none :=
        Option.eq_none_iff_forall_ne_some.mpr fun pc hpc => h.receivers _ pc hpc (not_issued h)
      rw [hnone, h.idle _ (not_issued h)]
      exact ⟨_, Function.update_self .., rfl, rfl, rfl⟩
    · obtain ⟨lp, hlp, hseen⟩ := h.loops id j hold
      have hne : j ≠ r.nextId := (h.fresh id j hold).2.ne
      exact ⟨lp, (Function.update_of_ne hne ..).trans hlp, hseen⟩
  receivers id pc hpc := update_ne_none (h.receivers id pc (hreceivers ▸ hpc))
  starting w' id hid := by
    rw [hreceivers]
    by_cases hww : w' = w
    · subst hww
      cases hw.symm.trans hid
      refine ⟨?_, Option.eq_none_iff_forall_ne_some.mpr fun pc hpc => ?_⟩
      · rw [Function.update_self]
        exact Option.some_ne_none _
      · exact h.receivers _ pc hpc (not_issued h)
    · obtain ⟨hknown, hnone⟩ := h.starting w' id (hothers w' hww id hid)
      exact ⟨update_ne_none hknown, hnone⟩
  once w₁ w₂ id h₁ h₂ := by
    -- The id of the new loop is not that of a loop that is about to be started.
    have hother {w' : Option Nat} (hne : w' ≠ w) (hid : StreamLoops.starting s' w' = some s.nextId) :
        False :=
      (h.starting w' _ (hothers w' hne _ hid)).1 (not_issued h)
    by_cases hw₁ : w₁ = w
    · by_cases hw₂ : w₂ = w
      · rw [hw₁, hw₂]
      · rw [hw₁] at h₁
        cases hw.symm.trans h₁
        exact (hother hw₂ h₂).elim
    · by_cases hw₂ : w₂ = w
      · rw [hw₂] at h₂
        cases hw.symm.trans h₂
        exact (hother hw₁ h₁).elim
      · exact h.once w₁ w₂ id (hothers w₁ hw₁ id h₁) (hothers w₂ hw₂ id h₂)

/-- The thread of a loop is at another control point. -/
theorem seen_thread (h : SeenLoops number lates s r) {id j : Nat} (hj : number id = some j)
    {pc : RecvPc} {lates' : Nat → Nat} {lp : Loop}
    (hloop : s'.receiverLoop = s.receiverLoop)
    (hreceivers : s'.receivers = Function.update s.receivers id (some pc))
    (hnext : s.nextId ≤ s'.nextId)
    (hstarting : ∀ w id', StreamLoops.starting s' w = some id' →
      StreamLoops.starting s w = some id' ∧ id' ≠ id)
    (hlp : SeenLoop (some pc) (lates' id) lp) (hlates : ∀ id', id' ≠ id → lates' id' = lates id') :
    SeenLoops number lates' s' { r with loops := Function.update r.loops j (some lp) } where
  fresh id' j' hj' := by
    obtain ⟨hid, hlt⟩ := h.fresh id' j' hj'
    exact ⟨Nat.lt_of_lt_of_le hid hnext, hlt⟩
  inj := h.inj
  current := by
    rw [hloop]
    exact h.current
  known id' hid' := h.known id' (hloop ▸ hid')
  idle id' hnone := by
    have hne : id' ≠ id := by
      rintro rfl
      rw [hj] at hnone
      cases hnone
    rw [hlates id' hne]
    exact h.idle id' hnone
  loops id' j' hj' := by
    rw [hreceivers]
    by_cases hid : id' = id
    · subst hid
      cases hj.symm.trans hj'
      exact ⟨lp, Function.update_self .., by rw [Function.update_self]; exact hlp⟩
    · have hne : j' ≠ j := by
        rintro rfl
        exact hid (h.inj id' id j' hj' hj)
      obtain ⟨lp', hlp', hseen⟩ := h.loops id' j' hj'
      rw [Function.update_of_ne hid, hlates id' hid]
      exact ⟨lp', (Function.update_of_ne hne ..).trans hlp', hseen⟩
  receivers id' pc' hpc' := by
    by_cases hid : id' = id
    · rw [hid, hj]
      exact Option.some_ne_none j
    · rw [hreceivers, Function.update_of_ne hid] at hpc'
      exact h.receivers id' pc' hpc'
  starting w id' hw := by
    obtain ⟨hold, hne⟩ := hstarting w id' hw
    rw [hreceivers, Function.update_of_ne hne]
    exact h.starting w id' hold
  once w w' id' hw hw' := h.once w w' id' (hstarting w id' hw).1 (hstarting w' id' hw').1

theorem starting_of_ne {w : Option Nat} (hw : starting s' w = none)
    (hothers : ∀ w', w' ≠ w → ∀ id, starting s' w' = some id → starting s w' = some id)
    {w' : Option Nat} {id : Nat} (hid : starting s' w' = some id) :
    w' ≠ w ∧ starting s w' = some id := by
  have hne : w' ≠ w := by
    rintro rfl
    cases hw.symm.trans hid
  exact ⟨hne, hothers w' hne id hid⟩

theorem late_of_not_receiver (ha : ∀ t i, a ≠ .receiver t i) (id : Nat) :
    late id s a s' = [] := by
  cases a with
  | receiver t i => exact absurd rfl (ha t i)
  | _ => rfl

theorem late_of_ne {t id : Nat} (hne : id ≠ t) (i : RecvInput) :
    late id s (.receiver t i) s' = [] :=
  if_neg fun h => hne h.1.symm

theorem late_count {t : Nat} {pc : RecvPc} (hpc : s.receivers t = some pc) (i : RecvInput) :
    (late t s (.receiver t i) s').length = counted s.receiverLoop t * (lateOf pc i).length := by
  simp only [late, counted]
  by_cases hcurrent : s.receiverLoop = some t
  · simp [hcurrent]
  · simp [hcurrent, hpc]

/-- A step of a receiver thread is a few steps of the thread of its loop. -/
theorem seen_moves (h : SeenLoops number lates s r) {t : Nat} {i : RecvInput} {pc pc' : RecvPc}
    (hpc : s.receivers t = some pc) (hs : recvStep s t pc i = some s')
    (hloop : s'.receiverLoop = s.receiverLoop)
    (hreceivers : s'.receivers = Function.update s.receivers t (some pc'))
    (hnext : s.nextId ≤ s'.nextId)
    (hstarting : ∀ w id, StreamLoops.starting s' w = some id → StreamLoops.starting s w = some id) :
    ∃ r', receiver.Leads (fun _ _ => True) r r' ∧
      SeenLoops number (fun id => lates id + (late id s (.receiver t i) s').length) s' r' := by
  obtain ⟨j, hj⟩ := Option.ne_none_iff_exists'.mp (h.receivers t pc hpc)
  obtain ⟨lp, hlp, hseen⟩ := h.loops t j hj
  rw [hpc] at hseen
  have hpc' : s'.receivers t = some pc' := by rw [hreceivers, Function.update_self]
  obtain ⟨lp', hinputs, hlp'⟩ := recvStep_loop hs hpc' hseen.pc
  rw [loopStep_congr (seen_current_iff h hj) (seen_current_none_iff h)] at hinputs
  obtain ⟨hcount, hfailures⟩ := recvStep_count hs hseen.pc hinputs
  refine ⟨_, leads_inputs hlp hinputs, ?_⟩
  refine seen_thread h hj hloop hreceivers hnext (fun w id hw => ?_) ⟨hlp', ?_, ?_⟩ fun id hne => ?_
  · have hold := hstarting w id hw
    refine ⟨hold, ?_⟩
    rintro rfl
    cases hpc.symm.trans (h.starting w id hold).2
  · have hsame : counted r.current j = counted s.receiverLoop t := by
      simp only [counted, seen_current_iff h hj]
    rw [hcount, hseen.lates, late_count hpc, hsame]
  · rw [hfailures, hseen.handlerFailures]
  · rw [late_of_ne hne]
    rfl

/-- What the receiver does for a step of the stream. -/
theorem seen_change (h : SeenLoops number lates s r) (hchange : LoopChange s a s') :
    ∃ number' r', receiver.Leads (fun _ _ => True) r r' ∧
      SeenLoops number' (fun id => lates id + (late id s a s').length) s' r' := by
  -- Only the receiver threads do what is counted.
  have hkept (ha : ∀ t i, a ≠ .receiver t i) :
      (fun id => lates id + (late id s a s').length) = lates := by
    funext id
    rw [late_of_not_receiver ha id]
    rfl
  cases hchange with
  | quiet hloop hreceivers hnext hstarting ha =>
    rw [hkept ha]
    refine ⟨number, r, .refl r, seen_frame h hreceivers hnext hstarting rfl rfl ?_ ?_⟩
    · rw [hloop]
      exact h.current
    · rw [hloop]
      exact h.known
  | clears hloop hreceivers hnext hstarting ha =>
    rw [hkept ha]
    refine ⟨number, { r with current := none }, .single (a := .clear) trivial rfl, ?_⟩
    refine seen_frame h hreceivers hnext hstarting rfl rfl ?_ fun id hid => ?_
    · rw [hloop]
      rfl
    · rw [hloop] at hid
      cases hid
  | sets w hloop hreceivers hnext hw hothers ha =>
    rw [hkept ha]
    exact ⟨_, _, .single (a := .replace) trivial rfl, seen_sets h hloop hreceivers hnext hw hothers⟩
  | spawns w id hid hloop hreceivers hnext hw hothers ha =>
    rw [hkept ha]
    obtain ⟨hknown, hnone⟩ := h.starting w id hid
    obtain ⟨j, hj⟩ := Option.ne_none_iff_exists'.mp hknown
    obtain ⟨lp, hlp, hseen⟩ := h.loops id j hj
    rw [hnone] at hseen
    have hs : receiver.step r (.loop j .go) =
        some { r with loops := Function.update r.loops j (some (lp.goto .loopTest)) } := by
      show (r.loops j).bind _ = _
      simp only [hlp, Option.bind_some, loopStep, hseen.pc, threadPc, Option.map_some]
    refine ⟨number, _, .single trivial hs, ?_⟩
    refine seen_thread h hj hloop hreceivers hnext.ge (fun w' id' hid' => ?_) ?_ fun _ _ => rfl
    · obtain ⟨hne, hold⟩ := starting_of_ne hw hothers hid'
      refine ⟨hold, ?_⟩
      rintro rfl
      exact hne (h.once w' w id' hold hid)
    · exact ⟨rfl, hseen.lates, hseen.handlerFailures⟩
  | @moves t i pc pc' ha hpc hs hloop hreceivers hnext hstarting =>
    subst ha
    obtain ⟨r', hleads, hseen⟩ := seen_moves h hpc hs hloop hreceivers hnext hstarting
    exact ⟨number, r', hleads, hseen⟩

/-- The event stream seen as a receiver. -/
def seenReceiver (inactivityTimeout : Nat) :
    Simulation (eventStream inactivityTimeout) receiver fun _ _ => True where
  rel l s r := ∃ number, SeenLoops number
    (fun id => ((eventStream inactivityTimeout).trace (late id) (eventStream inactivityTimeout).init
      l).length) s r
  init := by
    refine ⟨receiver.init, .refl _, fun _ => none, ?_⟩
    constructor
    · exact fun _ _ h => by cases h
    · exact fun _ _ _ h => by cases h
    · rfl
    · exact fun _ h => by cases h
    · exact fun _ _ => rfl
    · exact fun _ _ h => by cases h
    · exact fun _ _ h => by cases h
    · exact fun w _ h => by cases w <;> cases h
    · exact fun w _ _ h => by cases w <;> cases h
  step := by
    rintro l s s' r a hl ⟨number, hseen⟩ hs
    obtain ⟨number', r', hleads, hseen'⟩ := seen_change hseen (step_change hs)
    refine ⟨r', hleads, number', ?_⟩
    simp only [System.trace_concat hl hs, List.length_append]
    exact hseen'

end StreamLoopsLemmas

open StreamLoopsLemmas

/-- In the whole of a run of the event stream the thread of a loop connects or
hands on an event once at most while its loop is not the current one. -/
theorem replaced_streams_quiet {inactivityTimeout : Nat} {l : List Action} {s : State}
    (h : (eventStream inactivityTimeout).exec (eventStream inactivityTimeout).init l = some s)
    (id : Nat) :
    ((eventStream inactivityTimeout).trace (late id) (eventStream inactivityTimeout).init
      l).length ≤ 1 := by
  obtain ⟨r, hr, number, hseen⟩ := (seenReceiver inactivityTimeout).exists_rel h
  cases hnumber : number id with
  | none => exact (hseen.idle id hnumber).trans_le (Nat.zero_le 1)
  | some j =>
    obtain ⟨lp, hlp, hthread⟩ := hseen.loops id j hnumber
    have hbound := ((ReceiverLoopLemmas.receiverInv hr).loops j lp hlp).bound
    rw [hthread.lates, hthread.handlerFailures] at hbound
    exact Nat.le_of_add_right_le hbound

/-- A heartbeat thread starts a new loop while the thread of the first one is about to
handle an event. -/
def restartedStreamRun : List Action :=
  [.start, .caller, .caller, .receiver 0 .go, .receiver 0 .connected, .receiver 0 .go,
    .receiver 0 .go, .receiver 0 .go, .checker 1, .receiver 0 (.event (.ok (.dict []))),
    .receiver 0 .go, .clock 31, .checker 1, .checker 1, .checker 1, .checker 1, .checker 1,
    .receiver 0 .go, .receiver 0 (.event (.ok (.dict []))), .receiver 0 .go]

/-- The rule in that run, in which the thread hands on the event. -/
theorem replaced_streams_quiet_restarted :
    ∃ s, (eventStream 30).exec (eventStream 30).init restartedStreamRun = some s ∧
      s.receiverLoop = some 2 ∧
      ((eventStream 30).trace (late 0) (eventStream 30).init restartedStreamRun).length = 1 ∧
      ((eventStream 30).trace (late 0) (eventStream 30).init restartedStreamRun).length ≤ 1 := by
  have hrun : ((eventStream 30).exec (eventStream 30).init restartedStreamRun).map
      (fun s => s.receiverLoop) = some (some 2) := by decide +kernel
  obtain ⟨s, hs, hloop⟩ := Option.map_eq_some_iff.mp hrun
  exact ⟨s, hs, hloop, by decide +kernel, replaced_streams_quiet hs 0⟩

end EgressAgent
