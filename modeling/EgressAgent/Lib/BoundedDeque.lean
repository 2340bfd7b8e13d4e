import Mathlib.Data.List.Basic

/-!
# Queues that forget their oldest items

`BoundedDeque α` is a queue of at most `maxlen` items, `collections.deque` with
a `maxlen` as far as it is appended to on one side and emptied as a whole. An
`append` to a full queue evicts the item at the other end, which for
`maxlen = 0` is the new item itself.

`evicted_append` is the law of one `append`: what it evicts followed by what it
keeps are the items before it followed by the new one. `append_newest` is that
of many: the queue holds the newest of the items appended, as many as it can.
-/

/-- At most `maxlen` items, the oldest first. -/
structure BoundedDeque (α : Type) where
  maxlen : Nat
  items : List α
  length_le : items.length ≤ maxlen

namespace BoundedDeque

variable {α : Type}

def empty (maxlen : Nat) : BoundedDeque α := ⟨maxlen, [], Nat.zero_le _⟩

/-- `len(d) == d.maxlen` -/
def isFull (d : BoundedDeque α) : Bool := d.items.length == d.maxlen

/-- The items that an `append` of `x` pushes out. -/
def evicted (d : BoundedDeque α) (x : α) : List α :=
  (d.items ++ [x]).take (d.items.length + 1 - d.maxlen)

/-- `d.append(x)` -/
def append (d : BoundedDeque α) (x : α) : BoundedDeque α where
  maxlen := d.maxlen
  items := (d.items ++ [x]).drop (d.items.length + 1 - d.maxlen)
  length_le := by
    rw [List.length_drop, List.length_append, List.length_singleton]
    omega

/-- `d.clear()` -/
def clear (d : BoundedDeque α) : BoundedDeque α := empty d.maxlen

@[simp] theorem clear_items (d : BoundedDeque α) : d.clear.items = [] := rfl

/-- Nothing is lost or reordered by an `append`. -/
theorem evicted_append (d : BoundedDeque α) (x : α) :
    d.evicted x ++ (d.append x).items = d.items ++ [x] :=
  List.take_append_drop _ _

/-- One item is evicted exactly when the queue is full. -/
theorem length_evicted (d : BoundedDeque α) (x : α) :
    (d.evicted x).length = if d.isFull then 1 else 0 := by
  have hle := d.length_le
  rw [evicted, List.length_take, List.length_append, List.length_singleton, isFull]
  by_cases h : d.items.length = d.maxlen
  · simp [h]
  · rw [if_neg (by simpa using h)]
    omega

/-- The queue holds the newest of the items `l`. -/
def HoldsNewest (d : BoundedDeque α) (l : List α) : Prop :=
  d.items = l.drop (l.length - d.maxlen)

theorem empty_newest (maxlen : Nat) : (empty maxlen : BoundedDeque α).HoldsNewest [] :=
  List.drop_nil.symm

theorem HoldsNewest.length {d : BoundedDeque α} {l : List α} (h : d.HoldsNewest l) :
    d.items.length = min d.maxlen l.length := by
  rw [h, List.length_drop]
  omega

/-- An `append` keeps to the newest items. -/
theorem append_newest {d : BoundedDeque α} {l : List α} (h : d.HoldsNewest l) (x : α) :
    (d.append x).HoldsNewest (l ++ [x]) := by
  have hlength := h.length
  unfold HoldsNewest at h ⊢
  have hdrop : l.drop (l.length - d.maxlen) ++ [x] = (l ++ [x]).drop (l.length - d.maxlen) :=
    (List.drop_append_of_le_length (Nat.sub_le _ _)).symm
  simp only [append, hlength, List.length_append, List.length_singleton]
  rw [h, hdrop, List.drop_drop]
  congr 1
  omega

/-- The queue is full once as many items as it can hold were appended. -/
theorem HoldsNewest.isFull_iff {d : BoundedDeque α} {l : List α} (h : d.HoldsNewest l) :
    d.isFull = true ↔ d.maxlen ≤ l.length := by
  rw [isFull, beq_iff_eq, h.length]
  omega

end BoundedDeque
