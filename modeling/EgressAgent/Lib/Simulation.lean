import EgressAgent.Lib.System

/-!
# Simulations

`S.Leads ok s s'` says that a run whose steps all meet the condition `ok` leads from
`s` to `s'`, and `S.trace shows` is what the steps of a run show.

A `Simulation` sees a system as another one: a relation between a run of the first
and a state of the second that each step keeps if the second takes a few steps, and
these meet a condition. `Simulation.exists_rel` carries it to whole runs, so that what
is known of the second system, in the runs that meet the condition, holds of the first
as far as the relation tells.
-/

namespace Transition

variable {σ α τ β : Type}

namespace System

variable {S : System σ α} {ok : σ → α → Prop} {s s₁ s' : σ} {a : α}

/-- Steps that meet `ok` lead from `s` to `s'`. -/
def Leads (S : System σ α) (ok : σ → α → Prop) (s s' : σ) : Prop :=
  ∃ l, S.exec s l = some s' ∧ S.Along ok s l

namespace Leads

theorem refl (s : σ) : S.Leads ok s s := ⟨[], rfl, trivial⟩

theorem trans (h : S.Leads ok s s₁) (h' : S.Leads ok s₁ s') : S.Leads ok s s' := by
  obtain ⟨l, hl, hok⟩ := h
  obtain ⟨l', hl', hok'⟩ := h'
  refine ⟨l ++ l', ?_, (along_append hl).mpr ⟨hok, hok'⟩⟩
  rw [exec_append, hl, Option.bind_some, hl']

theorem single (ha : ok s a) (hs : S.step s a = some s') : S.Leads ok s s' :=
  ⟨[a], by rw [exec_cons, hs, Option.bind_some, exec_nil], ha, fun _ _ => trivial⟩

theorem step (ha : ok s a) (hs : S.step s a = some s₁) (h : S.Leads ok s₁ s') :
    S.Leads ok s s' :=
  (single ha hs).trans h

end Leads

theorem ReachableWhere.leads (h : S.ReachableWhere ok s) (h' : S.Leads ok s s') :
    S.ReachableWhere ok s' := by
  obtain ⟨l, hl, hok⟩ := reachableWhere_iff_exec.mp h
  obtain ⟨l', hl', hok'⟩ := h'
  refine reachableWhere_iff_exec.mpr ⟨l ++ l', ?_, (along_append hl).mpr ⟨hok, hok'⟩⟩
  rw [exec_append, hl, Option.bind_some, hl']

end System

/-- What the steps of a run show, in order. -/
def System.trace {ω : Type} (S : System σ α) (shows : σ → α → σ → List ω) (s : σ) :
    List α → List ω
  | [] => []
  | a :: l =>
    match S.step s a with
    | none => []
    | some s' => shows s a s' ++ S.trace shows s' l

theorem System.trace_concat {ω : Type} {S : System σ α} {shows : σ → α → σ → List ω}
    {s s₁ s' : σ} {l : List α} {a : α} (h : S.exec s l = some s₁) (ha : S.step s₁ a = some s') :
    S.trace shows s (l ++ [a]) = S.trace shows s l ++ shows s₁ a s' := by
  induction l generalizing s with
  | nil =>
    simp only [System.exec_nil, Option.some.injEq] at h
    subst h
    simp [System.trace, ha]
  | cons b l ih =>
    rw [System.exec_cons, Option.bind_eq_some_iff] at h
    obtain ⟨s₂, hb, hl⟩ := h
    simp [System.trace, hb, ih hl]

/-- The system `S`, with the actions that it has taken, seen as `S'`, whose steps
meet `ok`. -/
structure Simulation (S : System σ α) (S' : System τ β) (ok : τ → β → Prop) where
  rel : List α → σ → τ → Prop
  init : ∃ t, S'.Leads ok S'.init t ∧ rel [] S.init t
  step : ∀ {l s s' t a}, S.exec S.init l = some s → rel l s t → S.step s a = some s' →
    ∃ t', S'.Leads ok t t' ∧ rel (l ++ [a]) s' t'

/-- Every run of the first system is seen as a run of the second. -/
theorem Simulation.exists_rel {S : System σ α} {S' : System τ β} {ok : τ → β → Prop}
    (R : Simulation S S' ok) {l : List α} {s : σ} (h : S.exec S.init l = some s) :
    ∃ t, S'.ReachableWhere ok t ∧ R.rel l s t := by
  induction l using List.reverseRecOn generalizing s with
  | nil =>
    obtain ⟨t, hleads, hrel⟩ := R.init
    simp only [System.exec_nil, Option.some.injEq] at h
    exact ⟨t, System.ReachableWhere.init.leads hleads, h ▸ hrel⟩
  | append_singleton l a ih =>
    obtain ⟨s₁, h₁, ha⟩ := System.exec_concat h
    obtain ⟨t, ht, hrel⟩ := ih h₁
    obtain ⟨t', hleads, hrel'⟩ := R.step h₁ hrel ha
    exact ⟨t', ht.leads hleads, hrel'⟩

end Transition
