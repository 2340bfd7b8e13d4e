import Mathlib.Data.List.Nodup
import Mathlib.Logic.Function.Basic

/-!
# Ledgers of tokens

A token follows one thing through a system: it is issued at a place and moves
from place to place with it. The places are queues, from which the oldest token
moves on. A thing that leaves the system moves to a place that is never left.

A `Ledger` says which tokens are where. That a token is never lost and never
copied is not an invariant to prove of its use but part of it: every token that
was issued is at one place, once (`once`), and no other token is anywhere
(`fresh`). `Ledger.Accounts` says that the things at the places of a system are
those that the labels of the tokens name. A step of the system keeps the ledger
true by `accounts_issue`, `accounts_advance` and `accounts_discard`, if the ledger
is changed as the system is. `Done` is for what happens once to a token: it is
done when the token leaves a set of places that no token comes back to.
-/

/-- The token of one thing. `label` is what is known of the thing. -/
structure Token (τ : Type) where
  number : Nat
  label : τ

namespace Token

variable {τ : Type}

/-- How often the token number `k` is in a list. -/
def occurrences (l : List (Token τ)) (k : Nat) : Nat := (l.map Token.number).count k

@[simp] theorem occurrences_append (l l' : List (Token τ)) (k : Nat) :
    occurrences (l ++ l') k = occurrences l k + occurrences l' k := by
  simp [occurrences]

theorem occurrences_cons (t : Token τ) (l : List (Token τ)) (k : Nat) :
    occurrences (t :: l) k = occurrences l k + if t.number = k then 1 else 0 := by
  simp [occurrences, List.count_cons]

theorem occurrences_singleton (t : Token τ) (k : Nat) :
    occurrences [t] k = if t.number = k then 1 else 0 := by
  rw [occurrences_cons]
  exact Nat.zero_add _

theorem occurrences_pos {l : List (Token τ)} {t : Token τ} (h : t ∈ l) :
    0 < occurrences l t.number :=
  List.count_pos_iff.mpr (List.mem_map_of_mem h)

end Token

open Token

/-- Which tokens are at which place. -/
structure Ledger (ι τ : Type) where
  /-- the number of tokens issued, which is the number of the next one -/
  issued : Nat
  held : ι → List (Token τ)
  once : ∀ k < issued, ∃ p, occurrences (held p) k = 1 ∧ ∀ q, q ≠ p → occurrences (held q) k = 0
  fresh : ∀ k, issued ≤ k → ∀ p, occurrences (held p) k = 0

namespace Ledger

variable {ι τ : Type}

def empty : Ledger ι τ where
  issued := 0
  held _ := []
  once := nofun
  fresh _ _ _ := rfl

/-- What the tokens at a place are the tokens of. -/
def labels (L : Ledger ι τ) (p : ι) : List τ := (L.held p).map Token.label

/-! ## What a ledger says -/

section Facts

variable (L : Ledger ι τ)

theorem number_lt {p : ι} {t : Token τ} (h : t ∈ L.held p) : t.number < L.issued := by
  by_contra hlt
  have hpos := occurrences_pos h
  rw [L.fresh _ (Nat.le_of_not_lt hlt) p] at hpos
  exact Nat.lt_irrefl 0 hpos

/-- A token is at one place. -/
theorem unique {p q : ι} {t u : Token τ} (ht : t ∈ L.held p) (hu : u ∈ L.held q)
    (h : t.number = u.number) : p = q := by
  obtain ⟨p₀, _, hother⟩ := L.once t.number (L.number_lt ht)
  have hp : p = p₀ := by
    by_contra hne
    exact Nat.ne_of_gt (occurrences_pos ht) (hother p hne)
  have hq : q = p₀ := by
    by_contra hne
    exact Nat.ne_of_gt (occurrences_pos hu) (h ▸ hother q hne)
  rw [hp, hq]

/-- It is there once. -/
theorem nodup (p : ι) : ((L.held p).map Token.number).Nodup := by
  refine List.nodup_iff_count_le_one.mpr fun k => ?_
  show occurrences (L.held p) k ≤ 1
  by_cases hk : k < L.issued
  · obtain ⟨p₀, hone, hother⟩ := L.once k hk
    by_cases hp : p = p₀
    · subst hp
      exact Nat.le_of_eq hone
    · rw [hother p hp]
      exact Nat.zero_le 1
  · rw [L.fresh k (Nat.le_of_not_lt hk) p]
    exact Nat.zero_le 1

/-- A token that was issued is somewhere. -/
theorem complete {k : Nat} (hk : k < L.issued) : ∃ p, ∃ t ∈ L.held p, t.number = k := by
  obtain ⟨p, hone, _⟩ := L.once k hk
  have hmem : k ∈ (L.held p).map Token.number :=
    List.count_pos_iff.mp (Nat.lt_of_lt_of_eq Nat.zero_lt_one hone.symm)
  obtain ⟨t, ht, hnumber⟩ := List.mem_map.mp hmem
  exact ⟨p, t, ht, hnumber⟩

end Facts

/-! ## Issuing and moving tokens -/

section Moves

variable [DecidableEq ι]

theorem occurrences_issued (held : ι → List (Token τ)) (p q : ι) (t : Token τ) (k : Nat) :
    occurrences (Function.update held p (held p ++ [t]) q) k =
      occurrences (held q) k + if q = p ∧ t.number = k then 1 else 0 := by
  by_cases hq : q = p
  · subst hq
    simp [occurrences_singleton]
  · simp [hq]

/-- A new token, at the place `p`. -/
def issue (L : Ledger ι τ) (p : ι) (x : τ) : Ledger ι τ where
  issued := L.issued + 1
  held := Function.update L.held p (L.held p ++ [⟨L.issued, x⟩])
  once k hk := by
    simp only [occurrences_issued]
    by_cases hnew : k = L.issued
    · subst hnew
      have hzero := L.fresh L.issued (Nat.le_refl _)
      exact ⟨p, by simp [hzero], fun q hq => by simp [hzero, hq]⟩
    · have hne : L.issued ≠ k := fun h => hnew h.symm
      obtain ⟨p₀, hone, hother⟩ := L.once k (by omega)
      exact ⟨p₀, by simp [hone, hne], fun q hq => by simp [hother q hq, hne]⟩
  fresh k hk q := by
    have hne : L.issued ≠ k := by omega
    rw [occurrences_issued, L.fresh k (by omega)]
    simp [hne]

/-- The token `t`, the oldest at `p`, moves to `q`. -/
def shift (held : ι → List (Token τ)) (p q : ι) (t : Token τ) (rest : List (Token τ)) :
    ι → List (Token τ) :=
  let without := Function.update held p rest
  Function.update without q (without q ++ [t])

theorem occurrences_shift {held : ι → List (Token τ)} {p : ι} {t : Token τ}
    {rest : List (Token τ)} (h : held p = t :: rest) (q r : ι) (k : Nat) :
    occurrences (shift held p q t rest r) k + (if r = p ∧ t.number = k then 1 else 0) =
      occurrences (held r) k + if r = q ∧ t.number = k then 1 else 0 := by
  have hwithout : occurrences (Function.update held p rest r) k +
      (if r = p ∧ t.number = k then 1 else 0) = occurrences (held r) k := by
    by_cases hr : r = p
    · subst hr
      simp [h, occurrences_cons]
    · simp [hr]
  rw [shift, occurrences_issued, ← hwithout]
  omega

/-- The oldest token at `p`, if there is one, moves to `q`. -/
def advance (L : Ledger ι τ) (p q : ι) : Ledger ι τ :=
  match h : L.held p with
  | [] => L
  | t :: rest =>
    { issued := L.issued
      held := shift L.held p q t rest
      once := by
        intro k hk
        obtain ⟨p₀, hone, hother⟩ := L.once k hk
        have hshift := fun r => occurrences_shift h q r k
        by_cases ht : t.number = k
        · -- The token was at `p` and is at `q`.
          have hp : p = p₀ := by
            by_contra hne
            have hzero := hother p hne
            rw [h, occurrences_cons, if_pos ht] at hzero
            omega
          subst hp
          refine ⟨q, ?_, fun r hr => ?_⟩
          · have hq := hshift q
            by_cases hqp : q = p
            · subst hqp
              simp only [ht, and_self, if_true, hone] at hq
              omega
            · simpa [hqp, ht, hother q hqp] using hq
          · have hr' := hshift r
            by_cases hrp : r = p
            · subst hrp
              simpa [ht, hr, hone] using hr'
            · simpa [hr, hrp, hother r hrp] using hr'
        · refine ⟨p₀, ?_, fun r hr => ?_⟩
          · simpa [ht, hone] using hshift p₀
          · simpa [ht, hother r hr] using hshift r
      fresh := by
        intro k hk r
        have ht : t.number ≠ k := by
          have hlt := L.number_lt (h ▸ List.mem_cons_self : t ∈ L.held p)
          omega
        simpa [ht, L.fresh k hk r] using occurrences_shift h q r k }

theorem advance_of_nil {L : Ledger ι τ} {p : ι} (h : L.held p = []) (q : ι) : L.advance p q = L := by
  unfold advance
  split
  · rfl
  · next h' =>
    rw [h] at h'
    cases h'

theorem held_advance {L : Ledger ι τ} {p : ι} {t : Token τ} {rest : List (Token τ)}
    (h : L.held p = t :: rest) (q : ι) : (L.advance p q).held = shift L.held p q t rest := by
  unfold advance
  split
  · next h' =>
    rw [h] at h'
    cases h'
  · next h' =>
    rw [h, List.cons.injEq] at h'
    obtain ⟨rfl, rfl⟩ := h'
    rfl

@[simp] theorem issued_advance (L : Ledger ι τ) (p q : ι) : (L.advance p q).issued = L.issued := by
  unfold advance
  split <;> rfl

theorem mem_issue {L : Ledger ι τ} {p r : ι} {x : τ} {u : Token τ}
    (h : u ∈ (L.issue p x).held r) : u ∈ L.held r ∨ r = p ∧ u = ⟨L.issued, x⟩ := by
  change u ∈ Function.update L.held p (L.held p ++ [⟨L.issued, x⟩]) r at h
  by_cases hr : r = p
  · subst hr
    rw [Function.update_self, List.mem_append, List.mem_singleton] at h
    exact h.imp id fun hu => ⟨rfl, hu⟩
  · rw [Function.update_of_ne hr] at h
    exact .inl h

theorem mem_advance {L : Ledger ι τ} {p q r : ι} {u : Token τ}
    (h : u ∈ (L.advance p q).held r) : u ∈ L.held r ∨ r = q ∧ u ∈ L.held p := by
  cases hp : L.held p with
  | nil =>
    rw [advance_of_nil hp] at h
    exact .inl h
  | cons t rest =>
    have hwithout (r : ι) (hr : u ∈ Function.update L.held p rest r) : u ∈ L.held r := by
      by_cases hrp : r = p
      · subst hrp
        rw [Function.update_self] at hr
        rw [hp]
        exact List.mem_cons_of_mem t hr
      · rwa [Function.update_of_ne hrp] at hr
    rw [held_advance hp, shift] at h
    by_cases hr : r = q
    · subst hr
      rw [Function.update_self, List.mem_append, List.mem_singleton] at h
      rcases h with h | rfl
      · exact .inl (hwithout r h)
      · exact .inr ⟨rfl, List.mem_cons_self⟩
    · rw [Function.update_of_ne hr] at h
      exact .inl (hwithout r h)

/-! ### Labels -/

theorem labels_issue (L : Ledger ι τ) (p r : ι) (x : τ) :
    (L.issue p x).labels r = if r = p then L.labels p ++ [x] else L.labels r := by
  unfold labels issue
  by_cases hr : r = p
  · subst hr
    simp
  · simp [hr]

theorem advance_of_labels_nil {L : Ledger ι τ} {p : ι} (h : L.labels p = []) (q : ι) :
    L.advance p q = L :=
  advance_of_nil (List.map_eq_nil_iff.mp h) q

theorem labels_advance {L : Ledger ι τ} {p q : ι} {x : τ} {rest : List τ}
    (h : L.labels p = x :: rest) (hne : q ≠ p) (r : ι) :
    (L.advance p q).labels r =
      if r = p then rest else if r = q then L.labels q ++ [x] else L.labels r := by
  obtain ⟨t, ts, hp, rfl, rfl⟩ := List.map_eq_cons_iff.mp h
  unfold labels
  rw [held_advance hp, shift]
  by_cases hr : r = q
  · subst hr
    simp [hne]
  · by_cases hrp : r = p
    · subst hrp
      simp [hr]
    · simp [hr, hrp]

theorem labels_issue_of_ne (L : Ledger ι τ) {p r : ι} (h : r ≠ p) (x : τ) :
    (L.issue p x).labels r = L.labels r := by
  rw [labels_issue, if_neg h]

theorem labels_advance_of_ne (L : Ledger ι τ) {p q r : ι} (hp : r ≠ p) (hq : r ≠ q) :
    (L.advance p q).labels r = L.labels r := by
  by_cases hqp : q = p
  · subst hqp
    cases h : L.held q with
    | nil => rw [advance_of_nil h]
    | cons t rest => simp [labels, held_advance h, shift, hq]
  · cases h : L.labels p with
    | nil => rw [advance_of_labels_nil h]
    | cons x rest => rw [labels_advance h hqp, if_neg hp, if_neg hq]

/-- The place that a token leaves. -/
theorem labels_advance_source (L : Ledger ι τ) {p q : ι} (hne : q ≠ p) :
    (L.advance p q).labels p = (L.labels p).tail := by
  cases h : L.labels p with
  | nil => rw [advance_of_labels_nil h, h, List.tail_nil]
  | cons x rest => rw [labels_advance h hne, if_pos rfl, List.tail_cons]

/-- The place that it comes to. -/
theorem labels_advance_target (L : Ledger ι τ) {p q : ι} (hne : q ≠ p) :
    (L.advance p q).labels q = L.labels q ++ (L.labels p).take 1 := by
  cases h : L.labels p with
  | nil => rw [advance_of_labels_nil h, List.take_nil, List.append_nil]
  | cons x rest => rw [labels_advance h hne, if_neg hne, if_pos rfl, List.take_succ_cons, List.take_zero]

/-! ### Ledgers that tell the truth -/

variable {κ : Type} {key : τ → κ} {P : ι → Prop} {L : Ledger ι τ} {f g : ι → List κ}

/-- At the places in `P` the tokens are those of the things in `f`, which `key`
tells from the labels. -/
def Accounts (key : τ → κ) (P : ι → Prop) (L : Ledger ι τ) (f : ι → List κ) : Prop :=
  ∀ p, P p → (L.labels p).map key = f p

omit [DecidableEq ι] in
theorem Accounts.congr (h : L.Accounts key P f) (hfg : ∀ p, P p → f p = g p) :
    L.Accounts key P g :=
  fun p hp => (h p hp).trans (hfg p hp)

theorem accounts_issue (h : L.Accounts key P f) (p : ι) (x : τ) :
    (L.issue p x).Accounts key P (Function.update f p (f p ++ [key x])) := by
  intro r hr
  rw [labels_issue]
  by_cases hrp : r = p
  · subst hrp
    simp [h r hr]
  · simp [hrp, h r hr]

/-- The thing at the head of the place `p` moves to `q`. -/
theorem accounts_advance (h : L.Accounts key P f) {p q : ι} {x : κ} {rest : List κ} (hp : P p)
    (hx : f p = x :: rest) (hne : q ≠ p) :
    (L.advance p q).Accounts key P (Function.update (Function.update f p rest) q (f q ++ [x])) := by
  obtain ⟨y, ys, hlabels, rfl, rfl⟩ := List.map_eq_cons_iff.mp ((h p hp).trans hx)
  intro r hr
  rw [labels_advance hlabels hne]
  by_cases hrq : r = q
  · subst hrq
    simp [hne, h r hr]
  · by_cases hrp : r = p
    · subst hrp
      simp [hrq]
    · simp [hrq, hrp, h r hr]

/-- There is nothing to move. -/
theorem accounts_advance_nil (h : L.Accounts key P f) {p : ι} (hp : P p) (hnil : f p = []) (q : ι) :
    (L.advance p q).Accounts key P f := by
  rw [advance_of_labels_nil (List.map_eq_nil_iff.mp ((h p hp).trans hnil))]
  exact h

/-- The thing at the head of the place `p`, if there is one, leaves the places
in `P`. -/
theorem accounts_discard (h : L.Accounts key P f) {p q : ι} (hp : P p) (hq : ¬ P q) :
    (L.advance p q).Accounts key P (Function.update f p (f p).tail) := by
  cases hf : f p with
  | nil =>
    refine (accounts_advance_nil h hp hf q).congr fun r _ => ?_
    rw [List.tail_nil, ← hf, Function.update_eq_self]
  | cons x rest =>
    have hne : q ≠ p := fun e => hq (e ▸ hp)
    refine (accounts_advance h hp hf hne).congr fun r hr => ?_
    have hrq : r ≠ q := fun e => hq (e ▸ hr)
    rw [Function.update_of_ne hrq, List.tail_cons]

end Moves

/-! ## Places that are not returned to -/

/-- No token came into the places `A` from outside: what is there was there
before, or is new. -/
structure NoReturn (A : ι → Prop) (L L' : Ledger ι τ) : Prop where
  issued : L.issued ≤ L'.issued
  before : ∀ r u, A r → u ∈ L'.held r → L.issued ≤ u.number ∨ ∃ p, A p ∧ u ∈ L.held p

section NoReturn

variable {A : ι → Prop} {L L' L'' : Ledger ι τ} {p q : ι} {x : τ}

theorem noReturn_refl : NoReturn A L L :=
  ⟨Nat.le_refl _, fun r _ hr hu => .inr ⟨r, hr, hu⟩⟩

theorem NoReturn.trans (h : NoReturn A L L') (h' : NoReturn A L' L'') : NoReturn A L L'' := by
  refine ⟨Nat.le_trans h.issued h'.issued, fun r u hr hu => ?_⟩
  rcases h'.before r u hr hu with hnew | ⟨p, hp, hup⟩
  · exact .inl (Nat.le_trans h.issued hnew)
  · exact h.before p u hp hup

theorem noReturn_issue [DecidableEq ι] : NoReturn A L (L.issue p x) := by
  refine ⟨Nat.le_succ _, fun r u hr hu => ?_⟩
  rcases mem_issue hu with hold | ⟨_, rfl⟩
  · exact .inr ⟨r, hr, hold⟩
  · exact .inl (Nat.le_refl _)

theorem noReturn_advance [DecidableEq ι] (h : A q → A p) : NoReturn A L (L.advance p q) := by
  refine ⟨Nat.le_of_eq (issued_advance L p q).symm, fun r u hr hu => ?_⟩
  rcases mem_advance hu with hold | ⟨rfl, hup⟩
  · exact .inr ⟨r, hr, hold⟩
  · exact .inr ⟨p, h hr, hup⟩

/-- `done` are tokens that are no longer in `A`, each of them once. -/
structure Done (A : ι → Prop) (L : Ledger ι τ) (done : List Nat) : Prop where
  nodup : done.Nodup
  issued : ∀ k ∈ done, k < L.issued
  left : ∀ r u, A r → u ∈ L.held r → u.number ∉ done

theorem done_nil : Done A L [] :=
  ⟨List.nodup_nil, nofun, nofun⟩

theorem Done.noReturn {done : List Nat} (h : Done A L done) (hL : NoReturn A L L') :
    Done A L' done := by
  refine ⟨h.nodup, fun k hk => Nat.lt_of_lt_of_le (h.issued k hk) hL.issued, fun r u hr hu hk => ?_⟩
  rcases hL.before r u hr hu with hnew | ⟨p, hp, hup⟩
  · exact Nat.not_lt.mpr hnew (h.issued u.number hk)
  · exact h.left p u hp hup hk

/-- The one token at the last of the places `A` leaves them. -/
theorem Done.advance [DecidableEq ι] {done : List Nat} (h : Done A L done) (hp : A p) (hq : ¬ A q)
    (hnil : (L.advance p q).held p = []) :
    Done A (L.advance p q) (done ++ (L.held p).map Token.number) := by
  refine ⟨List.nodup_append'.mpr ⟨h.nodup, L.nodup p, ?_⟩, fun k hk => ?_, fun r u hr hu hk => ?_⟩
  · rintro k hk hmem
    obtain ⟨t, ht, rfl⟩ := List.mem_map.mp hmem
    exact h.left p t hp ht hk
  · rw [issued_advance]
    cases List.mem_append.mp hk with
    | inl hdone => exact h.issued k hdone
    | inr hmem =>
      obtain ⟨t, ht, rfl⟩ := List.mem_map.mp hmem
      exact L.number_lt ht
  · have hold : u ∈ L.held r := by
      cases mem_advance hu with
      | inl hold => exact hold
      | inr hmoved => exact absurd (hmoved.1 ▸ hr) hq
    cases List.mem_append.mp hk with
    | inl hdone => exact h.left r u hr hold hdone
    | inr hmem =>
      obtain ⟨t, ht, hnumber⟩ := List.mem_map.mp hmem
      have hrp : r = p := L.unique hold ht hnumber.symm
      rw [hrp, hnil] at hu
      cases hu

end NoReturn

end Ledger
