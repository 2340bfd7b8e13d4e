import Mathlib.Data.List.Basic
import Mathlib.Data.List.Induction
import Mathlib.Logic.Function.Basic

/-!
# Transition systems with executable steps

A system has one initial state and a partial step function: `step s a` is the
state after the action `a`, or `none` where `a` is not enabled in `s`. All
nondeterminism (which thread moves, what the outside world answers) is in the
choice of the actions.

* `exec` runs a list of actions.
* `ReachableWhere ok` are the states reached by the runs whose steps all meet
  the condition `ok` on the state before the step and the action. `Reachable`
  is the case without a condition.
* `Along ok` says the same of one run, given as a list of actions, and
  `Throughout P` that `P` holds in every state of it.

`throughout_iff_along` shows that a condition on the steps is exact: a run
keeps a property throughout if and only if all its steps meet the condition.
`along_iff_of_step` is the rule for a property that is never regained, which is
read at the end of the run only. `exec_last_entry` finds the step after which a
property is never left, and `exec_countP_le` bounds how often a run takes some of
the actions.
The invariant rules `ReachableWhere.invariant`, `ReachableWhere.invariant_with`
and `exec_invariant` carry what the steps of a run keep, and `exec_history` what
they keep together with the actions that were taken. A replayed
list of actions gives a reachable state by `reachable_of_exec`, and by
`exec_along_of_execWhile` and `reachableWhere_of_execWhile` where the condition
on the steps can be tested.
`update_thread` and `apply_update_of_eq` are the frame rules for a table of threads
of which one moves.
-/

namespace Transition

/-- A transition system over the states `σ` and the actions `α`. -/
structure System (σ α : Type) where
  init : σ
  step : σ → α → Option σ

namespace System

variable {σ α : Type} (S : System σ α)

/-- The state after the actions `l`, or `none` where one of them is not
enabled. -/
def exec (s : σ) (l : List α) : Option σ := l.foldlM S.step s

/-- `ReachableWhere ok s`: a run from `init` whose every step meets `ok` ends
in `s`. -/
inductive ReachableWhere (ok : σ → α → Prop) : σ → Prop
  | init : ReachableWhere ok S.init
  | step {s s' : σ} {a : α} :
      ReachableWhere ok s → ok s a → S.step s a = some s' → ReachableWhere ok s'

/-- The states of all runs. -/
abbrev Reachable : σ → Prop := S.ReachableWhere fun _ _ => True

/-- Every step of the run `l` from `s` meets `ok`. -/
def Along (ok : σ → α → Prop) : σ → List α → Prop
  | _, [] => True
  | s, a :: l => ok s a ∧ ∀ s', S.step s a = some s' → Along ok s' l

/-- `P` holds in every state of the run `l` from `s`, both ends included. -/
def Throughout (P : σ → Prop) : σ → List α → Prop
  | s, [] => P s
  | s, a :: l => P s ∧ ∀ s', S.step s a = some s' → Throughout P s' l

variable {S}

/-! ## Runs as lists -/

@[simp] theorem exec_nil (s : σ) : S.exec s [] = some s := rfl

@[simp] theorem exec_cons (s : σ) (a : α) (l : List α) :
    S.exec s (a :: l) = (S.step s a).bind fun s' => S.exec s' l := by
  simp [exec, List.foldlM_cons]

theorem exec_append (s : σ) (l₁ l₂ : List α) :
    S.exec s (l₁ ++ l₂) = (S.exec s l₁).bind fun s' => S.exec s' l₂ := by
  simp [exec, List.foldlM_append]

theorem exec_concat {s s' : σ} {l : List α} {a : α} (h : S.exec s (l ++ [a]) = some s') :
    ∃ s₁, S.exec s l = some s₁ ∧ S.step s₁ a = some s' := by
  rw [exec_append, Option.bind_eq_some_iff] at h
  obtain ⟨s₁, h₁, h₂⟩ := h
  refine ⟨s₁, h₁, ?_⟩
  simpa using h₂

theorem along_append {ok : σ → α → Prop} {s s₁ : σ} {l k : List α} (h : S.exec s l = some s₁) :
    S.Along ok s (l ++ k) ↔ S.Along ok s l ∧ S.Along ok s₁ k := by
  induction l generalizing s with
  | nil =>
    simp only [exec_nil, Option.some.injEq] at h
    subst h
    simp [Along]
  | cons a l ih =>
    rw [exec_cons, Option.bind_eq_some_iff] at h
    obtain ⟨s₂, h₁, h₂⟩ := h
    simp [Along, h₁, ih h₂, and_assoc]

theorem along_mono {ok ok' : σ → α → Prop} (hok : ∀ s a, ok s a → ok' s a) {s : σ} {l : List α}
    (h : S.Along ok s l) : S.Along ok' s l := by
  induction l generalizing s with
  | nil => trivial
  | cons a l ih => exact ⟨hok s a h.1, fun s' hs => ih (h.2 s' hs)⟩

/-! ## Reachable states -/

theorem ReachableWhere.mono {ok ok' : σ → α → Prop} (hok : ∀ s a, ok s a → ok' s a) {s : σ}
    (h : S.ReachableWhere ok s) : S.ReachableWhere ok' s := by
  induction h with
  | init => exact .init
  | step _ ha hs ih => exact .step ih (hok _ _ ha) hs

theorem ReachableWhere.reachable {ok : σ → α → Prop} {s : σ} (h : S.ReachableWhere ok s) :
    S.Reachable s :=
  h.mono fun _ _ _ => trivial

/-- The states of the runs that meet `ok` are the ends of the lists of actions
that meet it. -/
theorem reachableWhere_iff_exec {ok : σ → α → Prop} {s : σ} :
    S.ReachableWhere ok s ↔ ∃ l, S.exec S.init l = some s ∧ S.Along ok S.init l := by
  constructor
  · intro h
    induction h with
    | init => exact ⟨[], rfl, trivial⟩
    | @step s s' a _ ha hs ih =>
      obtain ⟨l, hl, hok⟩ := ih
      refine ⟨l ++ [a], by simp [exec_append, hl, hs], ?_⟩
      exact (along_append hl).mpr ⟨hok, ha, fun _ _ => trivial⟩
  · rintro ⟨l, hl, hok⟩
    induction l using List.reverseRecOn generalizing s with
    | nil =>
      simp only [exec_nil, Option.some.injEq] at hl
      exact hl ▸ .init
    | append_singleton l a ih =>
      obtain ⟨s₁, h₁, h₂⟩ := exec_concat hl
      obtain ⟨hok₁, ha, _⟩ := (along_append h₁).mp hok
      exact .step (ih h₁ hok₁) ha h₂

/-- A condition that the actions of a run meet in every state. -/
theorem along_of_forall {ok : σ → α → Prop} {l : List α} (h : ∀ a ∈ l, ∀ s, ok s a) (s : σ) :
    S.Along ok s l := by
  induction l generalizing s with
  | nil => trivial
  | cons a l ih =>
    refine ⟨h a (by simp) s, fun s' _ => ih (fun b hb => h b ?_) s'⟩
    exact List.mem_cons_of_mem a hb

theorem reachable_of_exec {s : σ} {l : List α} (h : S.exec S.init l = some s) : S.Reachable s :=
  reachableWhere_iff_exec.mpr ⟨l, h, along_of_forall (fun _ _ _ => trivial) _⟩

/-- The run `l`, given up at the first step that fails the test `p`. -/
def execWhile (p : σ → α → Bool) (s : σ) (l : List α) : Option σ :=
  l.foldlM (fun s a => if p s a then S.step s a else none) s

/-- A replayed run whose steps pass a test is a run whose steps meet the condition
`ok`, where the test is one for `ok` in the states that have `J`. -/
theorem exec_along_of_execWhile_with {ok : σ → α → Prop} {J : σ → Prop} {p : σ → α → Bool}
    (hJ : ∀ s a s', J s → S.step s a = some s' → J s')
    (hp : ∀ s a, J s → p s a = true → ok s a) {s s' : σ} {l : List α} (hs : J s)
    (h : S.execWhile p s l = some s') : S.exec s l = some s' ∧ S.Along ok s l := by
  induction l generalizing s with
  | nil => exact ⟨h, trivial⟩
  | cons a l ih =>
    simp only [execWhile, List.foldlM_cons, Option.bind_eq_bind, Option.bind_eq_some_iff,
      Option.ite_none_right_eq_some] at h
    obtain ⟨s₁, ⟨ha, hstep⟩, hl⟩ := h
    obtain ⟨hexec, hok⟩ := ih (hJ s a s₁ hs hstep) hl
    refine ⟨by rw [exec_cons, hstep, Option.bind_some, hexec], hp s a hs ha, fun s₂ hs₂ => ?_⟩
    rw [hstep, Option.some.injEq] at hs₂
    exact hs₂ ▸ hok

theorem exec_along_of_execWhile {ok : σ → α → Prop} {p : σ → α → Bool}
    (hp : ∀ s a, p s a = true → ok s a) {s s' : σ} {l : List α}
    (h : S.execWhile p s l = some s') : S.exec s l = some s' ∧ S.Along ok s l :=
  exec_along_of_execWhile_with (J := fun _ => True) (fun _ _ _ _ _ => trivial)
    (fun s a _ => hp s a) trivial h

theorem reachableWhere_of_execWhile {ok : σ → α → Prop} {p : σ → α → Bool}
    (hp : ∀ s a, p s a = true → ok s a) {s : σ} {l : List α}
    (h : S.execWhile p S.init l = some s) : S.ReachableWhere ok s :=
  reachableWhere_iff_exec.mpr ⟨l, exec_along_of_execWhile hp h⟩

/-! ## Invariant rules -/

/-- What holds initially and is kept by every step that meets `ok` holds along
the runs that meet `ok`. -/
theorem ReachableWhere.invariant {ok : σ → α → Prop} {I : σ → Prop} (h₀ : I S.init)
    (hstep : ∀ s a s', I s → ok s a → S.step s a = some s' → I s') {s : σ}
    (h : S.ReachableWhere ok s) : I s := by
  induction h with
  | init => exact h₀
  | step _ ha hs ih => exact hstep _ _ _ ih ha hs

/-- The same, where the step may use an invariant `J` that is already known. -/
theorem ReachableWhere.invariant_with {ok : σ → α → Prop} {J I : σ → Prop}
    (hJ : ∀ s, S.ReachableWhere ok s → J s) (h₀ : I S.init)
    (hstep : ∀ s a s', J s → I s → ok s a → S.step s a = some s' → I s') {s : σ}
    (h : S.ReachableWhere ok s) : I s := by
  induction h with
  | init => exact h₀
  | step hr ha hs ih => exact hstep _ _ _ (hJ _ hr) ih ha hs

/-- What every step that meets `ok` keeps holds at the end of a run that meets
`ok`, from any state. -/
theorem exec_invariant {ok : σ → α → Prop} {I : σ → Prop}
    (hstep : ∀ s a s', I s → ok s a → S.step s a = some s' → I s') {s s' : σ} {l : List α}
    (h₀ : I s) (hok : S.Along ok s l) (h : S.exec s l = some s') : I s' := by
  induction l generalizing s with
  | nil =>
    simp only [exec_nil, Option.some.injEq] at h
    exact h ▸ h₀
  | cons a l ih =>
    rw [exec_cons, Option.bind_eq_some_iff] at h
    obtain ⟨s₁, h₁, h₂⟩ := h
    exact ih (hstep s a s₁ h₀ hok.1 h₁) (hok.2 s₁ h₁) h₂

/-- Where every step pays for the actions that `p` picks out of a budget, a run
has no more of them than its first state can pay for. -/
theorem exec_countP_le {ok : σ → α → Prop} {I : σ → Prop} {p : α → Bool} {b : σ → Nat}
    (hstep : ∀ s a s', I s → ok s a → S.step s a = some s' →
      I s' ∧ (if p a then 1 else 0) + b s' ≤ b s) {s s' : σ} {l : List α}
    (h₀ : I s) (hok : S.Along ok s l) (h : S.exec s l = some s') : l.countP p ≤ b s := by
  induction l generalizing s with
  | nil => exact Nat.zero_le _
  | cons a l ih =>
    rw [exec_cons, Option.bind_eq_some_iff] at h
    obtain ⟨s₁, h₁, h₂⟩ := h
    obtain ⟨hI, hpay⟩ := hstep s a s₁ h₀ hok.1 h₁
    have hrest := ih hI (hok.2 s₁ h₁) h₂
    rw [List.countP_cons]
    omega

/-- The condition `ok` is exact for `P`: it keeps an invariant that gives `P`,
and a step that breaks it breaks `P`. -/
theorem throughout_iff_along {ok : σ → α → Prop} {J P : σ → Prop} (hJP : ∀ s, J s → P s)
    (hstep : ∀ s a s', J s → ok s a → S.step s a = some s' → J s')
    (hbad : ∀ s a s', J s → ¬ ok s a → S.step s a = some s' → ¬ P s') :
    ∀ {s s' : σ} {l : List α}, J s → S.exec s l = some s' →
      (S.Throughout P s l ↔ S.Along ok s l)
  | s, _, [], hJ, _ => by simpa [Throughout, Along] using hJP s hJ
  | s, s', a :: l, hJ, hl => by
    rw [exec_cons, Option.bind_eq_some_iff] at hl
    obtain ⟨s₁, h₁, h₂⟩ := hl
    have first : S.Throughout P s₁ l → P s₁ := by
      cases l with
      | nil => exact id
      | cons _ _ => exact And.left
    simp only [Throughout, Along, h₁, Option.some.injEq, forall_eq']
    constructor
    · rintro ⟨_, hP⟩
      have hok : ok s a := by
        by_contra hok
        exact hbad s a s₁ hJ hok h₁ (first hP)
      exact ⟨hok, (throughout_iff_along hJP hstep hbad (hstep s a s₁ hJ hok h₁) h₂).mp hP⟩
    · rintro ⟨hok, hA⟩
      exact ⟨hJP s hJ,
        (throughout_iff_along hJP hstep hbad (hstep s a s₁ hJ hok h₁) h₂).mpr hA⟩

/-- The condition `ok` is exact for a property that is never regained: a step
leaves `Q` if and only if `Q` held before it and the step meets `ok`. -/
theorem along_iff_of_step {ok : σ → α → Prop} {J Q : σ → Prop}
    (hJ : ∀ s a s', J s → S.step s a = some s' → J s')
    (hstep : ∀ s a s', J s → S.step s a = some s' → (Q s' ↔ Q s ∧ ok s a)) {s s' : σ} {l : List α}
    (hs : J s) (hQ : Q s) (h : S.exec s l = some s') : Q s' ↔ S.Along ok s l := by
  have run : ∀ {s : σ} (l : List α), J s → S.exec s l = some s' →
      (Q s' ↔ Q s ∧ S.Along ok s l) := by
    intro s l hs h
    induction l generalizing s with
    | nil =>
      simp only [exec_nil, Option.some.injEq] at h
      simp [Along, h]
    | cons a l ih =>
      rw [exec_cons, Option.bind_eq_some_iff] at h
      obtain ⟨s₁, h₁, h₂⟩ := h
      rw [ih (hJ s a s₁ hs h₁) h₂, hstep s a s₁ hs h₁]
      simp [Along, h₁, and_assoc]
  rw [run l hs h]
  exact and_iff_right hQ

/-- The last entry into a property: a run that ends in it, and did not begin in
it, has a step that leads into it and after which it is never left. -/
theorem exec_last_entry {Q : σ → Prop} {s₀ s : σ} {l : List α} (h₀ : ¬ Q s₀)
    (h : S.exec s₀ l = some s) (hQ : Q s) :
    ∃ l₁ a l₂ s₁ s₂, l = l₁ ++ a :: l₂ ∧ S.exec s₀ l₁ = some s₁ ∧ ¬ Q s₁ ∧
      S.step s₁ a = some s₂ ∧ Q s₂ ∧ S.exec s₂ l₂ = some s ∧ S.Along (fun s _ => Q s) s₂ l₂ := by
  induction l using List.reverseRecOn generalizing s with
  | nil =>
    simp only [exec_nil, Option.some.injEq] at h
    exact absurd (h ▸ hQ) h₀
  | append_singleton l a ih =>
    obtain ⟨s', hl, ha⟩ := exec_concat h
    by_cases hQ' : Q s'
    · obtain ⟨l₁, b, l₂, s₁, s₂, rfl, h₁, hs₁, hb, hs₂, h₂, hall⟩ := ih hl hQ'
      refine ⟨l₁, b, l₂ ++ [a], s₁, s₂, by simp, h₁, hs₁, hb, hs₂, ?_, ?_⟩
      · simpa [exec_append, h₂] using ha
      · exact (along_append h₂).mpr ⟨hall, hQ', fun _ _ => trivial⟩
    · exact ⟨l, a, [], s', s, rfl, hl, hQ', ha, hQ, rfl, trivial⟩

end System

/-! ## Tables of threads -/

section Table

variable {ι β : Type} [DecidableEq ι] {f : ι → Option β} {P : ι → β → Prop} {t : ι} {pc' : β}

/-- A move of the thread `t`: what holds of the control points of the other
threads and of the one that it moves to holds of all. -/
theorem update_thread_of_ne (hf : ∀ t₁, t₁ ≠ t → ∀ pc, f t₁ = some pc → P t₁ pc) (hpc : P t pc') :
    ∀ t₁ pc, Function.update f t (some pc') t₁ = some pc → P t₁ pc := by
  refine (Function.forall_update_iff f fun t₁ o => ∀ pc, o = some pc → P t₁ pc).mpr ⟨?_, hf⟩
  rintro pc ⟨⟩
  exact hpc

/-- What holds of the control points of all threads in a table is kept by the
move of one thread to a control point for which it holds. -/
theorem update_thread (hf : ∀ t pc, f t = some pc → P t pc) (hpc : P t pc') :
    ∀ t₁ pc, Function.update f t (some pc') t₁ = some pc → P t₁ pc :=
  update_thread_of_ne (fun t₁ _ => hf t₁) hpc

/-- The move of the thread `t` is not seen in a part of the control points that
it leaves alone. -/
theorem apply_update_of_eq {β γ : Type} {g : ι → β} {pc' : β} (f : β → γ) (h : f pc' = f (g t))
    (t₁ : ι) : f (Function.update g t pc' t₁) = f (g t₁) := by
  by_cases ht : t₁ = t
  · rw [ht, Function.update_self, h]
  · rw [Function.update_of_ne ht]

end Table

end Transition
