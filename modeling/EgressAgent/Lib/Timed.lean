import Mathlib.Algebra.Order.Field.Rat
import Mathlib.Tactic.Linarith
import EgressAgent.Lib.System

/-!
# Transition systems in time

A `Timing` watches one process of a transition system: the place where it is in a
state, how long it must have been there before a step, and how long it may stay
there. `System.timed` is the system under that timing, in rational time. Its steps
are those of the system, which take no time, and the passing of time, which ends
where the process may not stay longer. The other processes go as fast or slow as
they like, so what is shown of a timed run holds for any timing of theirs.

* `exec_untimed`: a timed run is a run of the system, so what is known of the
  untimed system holds of the timed one.
* `Allowance` bounds the time that the process still spends at places with a bound,
  as a function of the place, and `Allowance.now_le` says how long it is at most
  until it leaves them. `Deadline` is the case of a process that never comes back.
* `Spacing` bounds from below the time until the process comes to a place where
  nothing lies ahead, and `Spacing.since_le` says that it does not come earlier.
-/

namespace Transition

variable {σ α β : Type}

/-- How long a process of a system stays where it is. -/
structure Timing (σ α β : Type) where
  /-- where the process is -/
  place : σ → β
  /-- how long it must have been there before the step -/
  least : σ → α → ℚ
  /-- how long it may stay there, if there is a bound -/
  most : β → Option ℚ
  most_nonneg : ∀ {b m}, most b = some m → 0 ≤ m

/-- A state, with the moment and since when the process is where it is. -/
structure TimedState (σ : Type) where
  state : σ
  now : ℚ
  since : ℚ

inductive TimedAction (α : Type)
  | act (a : α)
  /-- time passes up to a moment -/
  | pass (moment : ℚ)

/-- The step of the system, if it is one. -/
def TimedAction.act? : TimedAction α → Option α
  | act a => some a
  | pass _ => none

/-- The steps of a timed run that are steps of the system. -/
def untimed (l : List (TimedAction α)) : List α := l.filterMap TimedAction.act?

@[simp] theorem untimed_concat_act (l : List (TimedAction α)) (a : α) :
    untimed (l ++ [.act a]) = untimed l ++ [a] := by
  simp [untimed, TimedAction.act?]

@[simp] theorem untimed_concat_pass (l : List (TimedAction α)) (moment : ℚ) :
    untimed (l ++ [.pass moment]) = untimed l := by
  simp [untimed, TimedAction.act?]

variable [DecidableEq β] {S : System σ α} {T : Timing σ α β}

/-- The system in time, from the moment 0. -/
def System.timed (S : System σ α) (T : Timing σ α β) : System (TimedState σ) (TimedAction α) where
  init := { state := S.init, now := 0, since := 0 }
  step s
    | .act a =>
        if s.since + T.least s.state a ≤ s.now then
          (S.step s.state a).map fun state =>
            { s with state, since := if T.place state = T.place s.state then s.since else s.now }
        else none
    | .pass moment =>
        if s.now ≤ moment ∧ (T.most (T.place s.state)).all fun m => decide (moment ≤ s.since + m) then
          some { s with now := moment }
        else none

namespace Timing

variable {s s' : TimedState σ} {a : TimedAction α} {l : List (TimedAction α)}

/-- The moves of a timed system. -/
inductive Move (S : System σ α) (T : Timing σ α β) (s : TimedState σ) :
    TimedAction α → TimedState σ → Prop
  | moves {a : α} {state : σ} : s.since + T.least s.state a ≤ s.now →
      S.step s.state a = some state → T.place state ≠ T.place s.state →
      Move S T s (.act a) { s with state, since := s.now }
  | stays {a : α} {state : σ} : S.step s.state a = some state →
      T.place state = T.place s.state → Move S T s (.act a) { s with state }
  | pass {moment : ℚ} : s.now ≤ moment →
      (∀ m, T.most (T.place s.state) = some m → moment ≤ s.since + m) →
      Move S T s (.pass moment) { s with now := moment }

theorem step_move (h : (S.timed T).step s a = some s') : Move S T s a s' := by
  cases a with
  | act a =>
    obtain ⟨hleast, h⟩ := Option.ite_none_right_eq_some.mp h
    obtain ⟨state, hstep, rfl⟩ := Option.map_eq_some_iff.mp h
    split_ifs with hplace
    · exact .stays hstep hplace
    · exact .moves hleast hstep hplace
  | pass moment =>
    obtain ⟨⟨hnow, hmost⟩, h⟩ := Option.ite_none_right_eq_some.mp h
    cases h
    refine .pass hnow fun m hm => ?_
    simpa [hm] using hmost

/-- A step of the system does not come before the process has stayed long
enough. -/
theorem least_le {a : α} (h : (S.timed T).step s (.act a) = some s') :
    s.since + T.least s.state a ≤ s.now := by
  obtain ⟨hleast, -⟩ := Option.ite_none_right_eq_some.mp h
  exact hleast

/-- A step of the system takes no time. -/
theorem act_eq {a : α} (h : (S.timed T).step s (.act a) = some s') :
    S.step s.state a = some s'.state ∧ s'.now = s.now ∧
      (T.place s'.state ≠ T.place s.state → s'.since = s.now) := by
  cases step_move h with
  | moves hleast hstep hplace => exact ⟨hstep, rfl, fun _ => rfl⟩
  | stays hstep hplace => exact ⟨hstep, rfl, fun hne => absurd hplace hne⟩

/-- A step of the system can be taken once the process has stayed long enough. -/
theorem exists_act {a : α} {state : σ} (hleast : s.since + T.least s.state a ≤ s.now)
    (h : S.step s.state a = some state) :
    ∃ s', (S.timed T).step s (.act a) = some s' ∧ s'.state = state ∧ s'.now = s.now := by
  refine ⟨{ s with state, since := if T.place state = T.place s.state then s.since else s.now },
    ?_, rfl, rfl⟩
  show (if s.since + T.least s.state a ≤ s.now then _ else none) = _
  rw [if_pos hleast, h]
  rfl

/-- A timed run is a run of the system. -/
theorem exec_untimed (h : (S.timed T).exec s l = some s') :
    S.exec s.state (untimed l) = some s'.state := by
  induction l generalizing s with
  | nil =>
    cases h
    rfl
  | cons a l ih =>
    rw [System.exec_cons] at h
    obtain ⟨s₁, hs, h⟩ := Option.bind_eq_some_iff.mp h
    have hrest := ih h
    cases step_move hs with
    | pass => exact hrest
    | moves hleast hstep hplace =>
      show S.exec s.state (_ :: untimed l) = some s'.state
      rw [System.exec_cons, hstep]
      exact hrest
    | stays hstep hplace =>
      show S.exec s.state (_ :: untimed l) = some s'.state
      rw [System.exec_cons, hstep]
      exact hrest

theorem reachable_untimed (h : (S.timed T).Reachable s) : S.Reachable s.state := by
  obtain ⟨l, hl, -⟩ := System.reachableWhere_iff_exec.mp h
  exact System.reachable_of_exec (exec_untimed hl)

/-- The process has not stayed longer than it may. -/
structure InTime (T : Timing σ α β) (s : TimedState σ) : Prop where
  since_le : s.since ≤ s.now
  now_le : ∀ m, T.most (T.place s.state) = some m → s.now ≤ s.since + m

theorem inTime_step (hi : T.InTime s) (h : (S.timed T).step s a = some s') : T.InTime s' := by
  cases step_move h with
  | moves hleast hstep hplace =>
    refine ⟨le_refl _, fun m hm => ?_⟩
    have hm₀ := T.most_nonneg hm
    show s.now ≤ s.now + m
    linarith
  | stays hstep hplace =>
    refine ⟨hi.since_le, fun m hm => hi.now_le m ?_⟩
    rw [← hplace]
    exact hm
  | pass hnow hmost => exact ⟨le_trans hi.since_le hnow, hmost⟩

theorem inTime_exec (hi : T.InTime s) (h : (S.timed T).exec s l = some s') : T.InTime s' := by
  have hall : (S.timed T).Along (fun _ _ => True) s l :=
    System.along_of_forall (fun _ _ _ => trivial) s
  exact System.exec_invariant (fun s a s' hi _ hs => inTime_step hi hs) hi hall h

theorem inTime (h : (S.timed T).Reachable s) : T.InTime s := by
  obtain ⟨l, hl, -⟩ := System.reachableWhere_iff_exec.mp h
  refine inTime_exec ⟨le_refl _, fun m hm => ?_⟩ hl
  have hm₀ := T.most_nonneg hm
  show (0 : ℚ) ≤ 0 + m
  linarith

/-- What the steps of the system that meet `ok` keep holds after a timed run of
such steps. -/
theorem state_invariant {ok : α → Prop} {I : σ → Prop}
    (hstep : ∀ s a s', I s → ok a → S.step s a = some s' → I s') (hs : I s.state)
    (hok : ∀ a, .act a ∈ l → ok a) (h : (S.timed T).exec s l = some s') : I s'.state := by
  have hall : S.Along (fun _ a => ok a) s.state (l.filterMap TimedAction.act?) := by
    refine System.along_of_forall (fun a ha _ => hok a ?_) s.state
    obtain ⟨b, hb, hact⟩ := List.mem_filterMap.mp ha
    cases b <;> cases hact
    exact hb
  exact System.exec_invariant hstep hs hall (exec_untimed h)

end Timing

/-! ## Upper bounds -/

/-- At most how long it takes from the moment that the process came to where it
is until it comes to a place without a bound, if only steps that meet `ok` are
taken. -/
structure Allowance (S : System σ α) (T : Timing σ α β) (ok : α → Prop) where
  /-- what is known of the states -/
  inv : σ → Prop
  budget : β → ℚ
  most_le : ∀ {b m}, T.most b = some m → m ≤ budget b
  keeps : ∀ {s a s'}, inv s → ok a → S.step s a = some s' → inv s'
  moves : ∀ {s a s' m m'}, inv s → ok a → S.step s a = some s' → T.place s' ≠ T.place s →
    T.most (T.place s) = some m → T.most (T.place s') = some m' →
    m + budget (T.place s') ≤ budget (T.place s)

/-- The same for a process that does not come back to a place with a bound. -/
structure Deadline (S : System σ α) (T : Timing σ α β) (ok : α → Prop) extends
    Allowance S T ok where
  left : ∀ {s a s'}, inv s → ok a → S.step s a = some s' → T.most (T.place s) = none →
    T.most (T.place s') = none

variable {ok : α → Prop} {s s' : TimedState σ} {l : List (TimedAction α)} {m : ℚ}

/-- The process is at a place with a bound. -/
def Timing.Bounded (T : Timing σ α β) (s : TimedState σ) : Prop := T.most (T.place s.state) ≠ none

namespace Allowance

theorem inv_exec (D : Allowance S T ok) (hs : D.inv s.state) (hok : ∀ a, .act a ∈ l → ok a)
    (h : (S.timed T).exec s l = some s') : D.inv s'.state :=
  Timing.state_invariant (fun _ _ _ => D.keeps) hs hok h

/-- While the process is at places with a bound, the moment at which its time is
over does not move away. -/
theorem since_le (D : Allowance S T ok) (hi : T.InTime s) (hs : D.inv s.state)
    (hok : ∀ a, .act a ∈ l → ok a) (h : (S.timed T).exec s l = some s')
    (hbounded : (S.timed T).Along (fun s _ => T.Bounded s) s l) (hbounded' : T.Bounded s') :
    s'.since + D.budget (T.place s'.state) ≤ s.since + D.budget (T.place s.state) := by
  induction l using List.reverseRecOn generalizing s' with
  | nil =>
    cases h
    exact le_refl _
  | append_singleton l a ih =>
    obtain ⟨s₁, h₁, hstep⟩ := System.exec_concat h
    have hok₁ : ∀ b, .act b ∈ l → ok b := fun b hb => hok b (List.mem_append_left _ hb)
    obtain ⟨hbounded₁, hlast, -⟩ := (System.along_append h₁).mp hbounded
    have hearlier := ih hok₁ h₁ hbounded₁ hlast
    cases Timing.step_move hstep with
    | pass hnow hmost => exact hearlier
    | @moves a state hleast hst hplace =>
      obtain ⟨m, hm⟩ := Option.ne_none_iff_exists'.mp hlast
      obtain ⟨m', hm'⟩ := Option.ne_none_iff_exists'.mp hbounded'
      have hmost := (Timing.inTime_exec hi h₁).now_le m hm
      have hmove := D.moves (D.inv_exec hs hok₁ h₁) (hok a (by simp)) hst hplace hm hm'
      show s₁.now + D.budget (T.place state) ≤ s.since + D.budget (T.place s.state)
      linarith
    | @stays a state hst hplace =>
      show s₁.since + D.budget (T.place state) ≤ s.since + D.budget (T.place s.state)
      rw [hplace]
      exact hearlier

/-- As long as the process stays at places with a bound, no more time has passed
than the budget. -/
theorem now_le (D : Allowance S T ok) (hi : T.InTime s) (hs : D.inv s.state)
    (hok : ∀ a, .act a ∈ l → ok a) (h : (S.timed T).exec s l = some s')
    (hbounded : (S.timed T).Along (fun s _ => T.Bounded s) s l) (hbounded' : T.Bounded s') :
    s'.now ≤ s.since + D.budget (T.place s.state) := by
  obtain ⟨m, hm⟩ := Option.ne_none_iff_exists'.mp hbounded'
  have hdeadline := D.since_le hi hs hok h hbounded hbounded'
  have hmost := (Timing.inTime_exec hi h).now_le m hm
  have hle := D.most_le hm
  linarith

end Allowance

namespace Deadline

/-- A run that ends at a place with a bound was at such places all along. -/
theorem along_bounded (D : Deadline S T ok) (hs : D.inv s.state) (hok : ∀ a, .act a ∈ l → ok a)
    (h : (S.timed T).exec s l = some s') (hbounded' : T.Bounded s') :
    (S.timed T).Along (fun s _ => T.Bounded s) s l := by
  induction l using List.reverseRecOn generalizing s' with
  | nil => trivial
  | append_singleton l a ih =>
    obtain ⟨s₁, h₁, hstep⟩ := System.exec_concat h
    have hok₁ : ∀ b, .act b ∈ l → ok b := fun b hb => hok b (List.mem_append_left _ hb)
    have hbounded₁ : T.Bounded s₁ := by
      intro hnone
      have hinv := D.inv_exec hs hok₁ h₁
      cases Timing.step_move hstep with
      | pass => exact hbounded' hnone
      | moves _ hst _ => exact hbounded' (D.left hinv (hok _ (by simp)) hst hnone)
      | stays hst _ => exact hbounded' (D.left hinv (hok _ (by simp)) hst hnone)
    exact (System.along_append h₁).mpr ⟨ih hok₁ h₁ hbounded₁, hbounded₁, fun _ _ => trivial⟩

/-- As long as the process has not left the places with a bound, no more time
has passed than the budget. -/
theorem now_le (D : Deadline S T ok) (hi : T.InTime s) (hs : D.inv s.state)
    (hok : ∀ a, .act a ∈ l → ok a) (h : (S.timed T).exec s l = some s')
    (hm : T.most (T.place s'.state) = some m) :
    s'.now ≤ s.since + D.budget (T.place s.state) := by
  have hbounded' : T.Bounded s' := Option.ne_none_iff_exists'.mpr ⟨m, hm⟩
  exact D.toAllowance.now_le hi hs hok h (D.along_bounded hs hok h hbounded') hbounded'

end Deadline

/-! ## Lower bounds -/

/-- At least how long it takes from the moment that the process came to where it
is until it comes to where nothing lies ahead, if only steps that meet `ok` are
taken. -/
structure Spacing (S : System σ α) (T : Timing σ α β) (ok : α → Prop) where
  /-- what is known of the states -/
  inv : σ → Prop
  ahead : β → ℚ
  keeps : ∀ {s a s'}, inv s → ok a → S.step s a = some s' → inv s'
  moves : ∀ {s a s'}, inv s → ok a → S.step s a = some s' → T.place s' ≠ T.place s →
    ahead (T.place s) ≤ T.least s a + ahead (T.place s')

/-- The earliest moment at which the process comes to where nothing lies ahead
does not come closer. -/
theorem Spacing.since_le {ok : α → Prop} {s s' : TimedState σ} {l : List (TimedAction α)}
    (D : Spacing S T ok) (hs : D.inv s.state) (hok : ∀ a, .act a ∈ l → ok a)
    (h : (S.timed T).exec s l = some s') :
    s.since + D.ahead (T.place s.state) ≤ s'.since + D.ahead (T.place s'.state) := by
  induction l using List.reverseRecOn generalizing s' with
  | nil =>
    cases h
    exact le_refl _
  | append_singleton l a ih =>
    obtain ⟨s₁, h₁, hstep⟩ := System.exec_concat h
    have hok₁ : ∀ b, .act b ∈ l → ok b := fun b hb => hok b (List.mem_append_left _ hb)
    have hinv := Timing.state_invariant (fun _ _ _ => D.keeps) hs hok₁ h₁
    have hearliest := ih hok₁ h₁
    cases Timing.step_move hstep with
    | pass hnow hmost => exact hearliest
    | @moves a state hleast hst hplace =>
      have hmove := D.moves hinv (hok a (by simp)) hst hplace
      show s.since + D.ahead (T.place s.state) ≤ s₁.now + D.ahead (T.place state)
      linarith
    | @stays a state hst hplace =>
      show s.since + D.ahead (T.place s.state) ≤ s₁.since + D.ahead (T.place state)
      rw [hplace]
      exact hearliest

/-! ## Rates -/

/-- How often actions with a cost can be taken, where each step pays for them out of
a balance. Actions that earn add to it, and so does a step that leaves the places of
rest after the interval. -/
structure Pacing (S : System σ α) (T : Timing σ α β) (interval : ℚ) where
  costs : α → Bool
  earns : α → Bool
  balance : σ → Nat
  resting : β → Bool
  pays : ∀ {s a s'}, S.step s a = some s' →
    (if costs a then 1 else 0) + balance s' ≤ balance s + (if earns a then 1 else 0) ∨
      (resting (T.place s) = true ∧ resting (T.place s') = false ∧ interval ≤ T.least s a ∧
        (if costs a then 1 else 0) + balance s' ≤ balance s + 1)

namespace Pacing

variable {interval : ℚ} {s s' : TimedState σ} {a : α} {l : List (TimedAction α)}

/-- Up to when the rests were made. -/
def reached (P : Pacing S T interval) (s : TimedState σ) : ℚ :=
  if P.resting (T.place s.state) then s.since else s.now

theorem reached_act (P : Pacing S T interval) (hi : T.InTime s)
    (h : (S.timed T).step s (.act a) = some s') : P.reached s ≤ P.reached s' := by
  unfold reached
  cases Timing.step_move h with
  | moves hleast hst hplace =>
    have hnow : (if P.resting (T.place s.state) then s.since else s.now) ≤ s.now := by
      split_ifs
      · exact hi.since_le
      · exact le_refl _
    refine le_trans hnow ?_
    split_ifs <;> exact le_refl _
  | stays hst hplace => rw [hplace]

/-- A run takes no more actions with a cost than its balance, what was earned and
the rests that fit into its time. -/
theorem count_le (P : Pacing S T interval) (h : (S.timed T).exec (S.timed T).init l = some s) :
    ∃ rests : Nat, (untimed l).countP P.costs + P.balance s.state ≤
        P.balance S.init + (untimed l).countP P.earns + rests ∧ rests * interval ≤ P.reached s := by
  induction l using List.reverseRecOn generalizing s with
  | nil =>
    cases h
    refine ⟨0, Nat.le_of_eq (by simp [untimed, System.timed]), ?_⟩
    rw [Nat.cast_zero, zero_mul]
    unfold reached
    split_ifs <;> exact le_refl _
  | append_singleton l a ih =>
    obtain ⟨s₁, h₁, hstep⟩ := System.exec_concat h
    obtain ⟨rests, hcount, htime⟩ := ih h₁
    have hi := Timing.inTime (System.reachable_of_exec h₁)
    cases a with
    | pass moment =>
      rw [untimed_concat_pass]
      cases Timing.step_move hstep with
      | pass hnow hmost =>
        refine ⟨rests, hcount, le_trans htime ?_⟩
        unfold reached
        split_ifs
        · exact le_refl _
        · exact hnow
    | act a =>
      obtain ⟨hst, hnow, -⟩ := Timing.act_eq hstep
      rw [untimed_concat_act, List.countP_append, List.countP_append, List.countP_singleton,
        List.countP_singleton]
      rcases P.pays hst with hpays | ⟨hresting, hrested, hinterval, hpays⟩
      · exact ⟨rests, by omega, le_trans htime (P.reached_act hi hstep)⟩
      · have hleast := Timing.least_le hstep
        have hsince : P.reached s₁ = s₁.since := if_pos hresting
        have hnow' : P.reached s = s₁.now := by
          rw [← hnow]
          exact if_neg (Bool.eq_false_iff.mp hrested)
        refine ⟨rests + 1, by omega, ?_⟩
        rw [hsince] at htime
        rw [hnow']
        push_cast
        linarith

end Pacing

/-! ## A thread of a table -/

section Threads

variable {ι γ : Type}

/-- The timing of the thread `t` of a table of threads. -/
def Timing.ofThread (threads : σ → ι → Option γ) (t : ι) (least : σ → α → ℚ)
    (most : γ → Option ℚ) (most_nonneg : ∀ {pc m}, most pc = some m → 0 ≤ m) :
    Timing σ α (Option γ) where
  place s := threads s t
  least := least
  most o := o.bind most
  most_nonneg h := by
    obtain ⟨pc, -, hpc⟩ := Option.bind_eq_some_iff.mp h
    exact most_nonneg hpc

/-- What the steps that meet `ok` do to the thread `t` of a table: they leave it
where it is, or move it in one of the given ways. -/
structure ThreadMoves (S : System σ α) (threads : σ → ι → Option γ) (t : ι) (ok : α → Prop) where
  /-- what is known of the states -/
  inv : σ → Prop
  Move : σ → γ → α → γ → Prop
  keeps : ∀ {s a s'}, inv s → ok a → S.step s a = some s' → inv s'
  moves : ∀ {s a s' pc}, inv s → ok a → S.step s a = some s' → threads s t = some pc →
    ∃ pc', threads s' t = some pc' ∧ (pc' = pc ∨ Move s pc a pc')

namespace ThreadMoves

variable {threads : σ → ι → Option γ} {t : ι} {ok : α → Prop} {least : σ → α → ℚ}
  {most : γ → Option ℚ} {most_nonneg : ∀ {pc m}, most pc = some m → 0 ≤ m} {s s' : σ} {a : α}

/-- The thread is in the table of a state that is known. -/
def Present (M : ThreadMoves S threads t ok) (s : σ) : Prop :=
  M.inv s ∧ ∃ pc, threads s t = some pc

theorem present_step (M : ThreadMoves S threads t ok) (hi : M.Present s) (ha : ok a)
    (hs : S.step s a = some s') : M.Present s' := by
  obtain ⟨hinv, pc, hpc⟩ := hi
  obtain ⟨pc', hpc', -⟩ := M.moves hinv ha hs hpc
  exact ⟨M.keeps hinv ha hs, pc', hpc'⟩

/-- A step that moves the thread. -/
theorem move_of_ne (M : ThreadMoves S threads t ok) (hi : M.Present s) (ha : ok a)
    (hs : S.step s a = some s') (hne : threads s' t ≠ threads s t) :
    ∃ pc pc', threads s t = some pc ∧ threads s' t = some pc' ∧ M.Move s pc a pc' := by
  obtain ⟨hinv, pc, hpc⟩ := hi
  obtain ⟨pc', hpc', hsame | hmove⟩ := M.moves hinv ha hs hpc
  · exact absurd (by rw [hpc', hpc, hsame]) hne
  · exact ⟨pc, pc', hpc, hpc', hmove⟩

variable [DecidableEq γ]

/-- A budget of the control points that pays for every move of the thread. -/
def deadline (M : ThreadMoves S threads t ok) (budget : γ → ℚ)
    (most_le : ∀ pc m, most pc = some m → m ≤ budget pc)
    (left : ∀ s pc a pc', M.Move s pc a pc' → most pc = none → most pc' = none)
    (moves : ∀ s pc a pc' m m', M.inv s → ok a → threads s t = some pc → M.Move s pc a pc' →
      most pc = some m → most pc' = some m' → m + budget pc' ≤ budget pc) :
    Deadline S (Timing.ofThread threads t least most most_nonneg) ok where
  inv := M.Present
  budget o := (o.map budget).getD 0
  most_le h := by
    obtain ⟨pc, rfl, hm⟩ := Option.bind_eq_some_iff.mp h
    exact most_le pc _ hm
  keeps := M.present_step
  left {s a s'} hi ha hs hleft := by
    simp only [Timing.ofThread] at hleft ⊢
    by_cases hne : threads s' t = threads s t
    · rw [hne]
      exact hleft
    · obtain ⟨pc, pc', hpc, hpc', hmove⟩ := M.move_of_ne hi ha hs hne
      rw [hpc] at hleft
      rw [hpc']
      exact left s pc a pc' hmove hleft
  moves {s a s' m m'} hi ha hs hne hm hm' := by
    simp only [Timing.ofThread] at hne hm hm' ⊢
    obtain ⟨pc, pc', hpc, hpc', hmove⟩ := M.move_of_ne hi ha hs hne
    rw [hpc] at hm ⊢
    rw [hpc'] at hm' ⊢
    exact moves s pc a pc' m m' hi.1 ha hpc hmove hm hm'

/-- The least time ahead at the control points, which no move of the thread
shortens but by waiting. -/
def spacing (M : ThreadMoves S threads t ok) (ahead : γ → ℚ)
    (moves : ∀ s pc a pc', ok a → threads s t = some pc → M.Move s pc a pc' →
      ahead pc ≤ least s a + ahead pc') :
    Spacing S (Timing.ofThread threads t least most most_nonneg) ok where
  inv := M.Present
  ahead o := (o.map ahead).getD 0
  keeps := M.present_step
  moves {s a s'} hi ha hs hne := by
    simp only [Timing.ofThread] at hne ⊢
    obtain ⟨pc, pc', hpc, hpc', hmove⟩ := M.move_of_ne hi ha hs hne
    rw [hpc, hpc']
    exact moves s pc a pc' ha hpc hmove

end ThreadMoves

end Threads

end Transition
