import EgressAgent.Lib.PyVal

/-!
# Strict JSON

`encodable writable v`: a JSON encoder that follows the standard,
`json.dumps(v, allow_nan=False)`, accepts the value `v`. It takes neither NaN nor
an infinity, and no object that is not of a JSON type. `writable` are the
integers that the interpreter writes out, which may be limited in size.

`Leaf v keys x`: the value `x`, which is no list and no dictionary, is in `v`,
and `keys` are the keys of the dictionaries on the way to it. `encodable_iff`: a
value is accepted if and only if its leaves are.
-/

namespace Py

def PyFloat.isFinite : PyFloat → Bool
  | .finite _ => true
  | .infinite _ => false
  | .nan => false

namespace PyVal

/-- What is proved for a list from its items, and for a dictionary from its
values, holds of every value. -/
@[elab_as_elim]
theorem nested_induction {P : PyVal → Prop} (none : P .none) (bool : ∀ b, P (.bool b))
    (int : ∀ n, P (.int n)) (float : ∀ x, P (.float x)) (str : ∀ s, P (.str s))
    (list : ∀ xs, (∀ x ∈ xs, P x) → P (.list xs))
    (dict : ∀ kvs : Dict, (∀ kv ∈ kvs, P kv.2) → P (.dict kvs)) (obj : ∀ id, P (.obj id)) :
    ∀ v, P v
  | .none => none
  | .bool b => bool b
  | .int n => int n
  | .float x => float x
  | .str s => str s
  | .list xs => list xs fun x _ => nested_induction none bool int float str list dict obj x
  | .dict kvs => dict kvs fun kv _ => nested_induction none bool int float str list dict obj kv.2
  | .obj id => obj id
termination_by v => sizeOf v
decreasing_by
  · have := List.sizeOf_lt_of_mem ‹x ∈ xs›
    simp only [PyVal.list.sizeOf_spec]
    omega
  · have := List.sizeOf_lt_of_mem ‹kv ∈ kvs›
    have hsnd : sizeOf kv.2 < sizeOf kv := by
      obtain ⟨k, v⟩ := kv
      simp only [Prod.mk.sizeOf_spec]
      omega
    simp only [PyVal.dict.sizeOf_spec]
    omega

mutual

def encodable (writable : Int → Bool) : PyVal → Bool
  | .none => true
  | .bool _ => true
  | .int n => writable n
  | .float x => x.isFinite
  | .str _ => true
  | .list xs => encodableItems writable xs
  | .dict kvs => encodableValues writable kvs
  | .obj _ => false

def encodableItems (writable : Int → Bool) : List PyVal → Bool
  | [] => true
  | x :: xs => encodable writable x && encodableItems writable xs

def encodableValues (writable : Int → Bool) : List (String × PyVal) → Bool
  | [] => true
  | (_, v) :: kvs => encodable writable v && encodableValues writable kvs

end

/-- The value is neither a list nor a dictionary. -/
def isScalar : PyVal → Bool
  | .list _ => false
  | .dict _ => false
  | _ => true

inductive Leaf : PyVal → List String → PyVal → Prop
  | self {x : PyVal} : x.isScalar = true → Leaf x [] x
  | item {xs : List PyVal} {v x : PyVal} {keys : List String} :
      v ∈ xs → Leaf v keys x → Leaf (.list xs) keys x
  | entry {kvs : Dict} {key : String} {v x : PyVal} {keys : List String} :
      (key, v) ∈ kvs → Leaf v keys x → Leaf (.dict kvs) (key :: keys) x

variable {writable : Int → Bool}

theorem encodable_list (xs : List PyVal) :
    (PyVal.list xs).encodable writable = true ↔ ∀ x ∈ xs, x.encodable writable = true := by
  show encodableItems writable xs = true ↔ _
  induction xs with
  | nil => simp [encodableItems]
  | cons x xs ih => simp [encodableItems, ih]

theorem encodable_dict (kvs : Dict) :
    (PyVal.dict kvs).encodable writable = true ↔ ∀ kv ∈ kvs, kv.2.encodable writable = true := by
  show encodableValues writable kvs = true ↔ _
  induction kvs with
  | nil => simp [encodableValues]
  | cons kv kvs ih => simp [encodableValues, ih]

theorem leaf_scalar {v x : PyVal} {keys : List String} (hv : v.isScalar = true) :
    Leaf v keys x ↔ keys = [] ∧ x = v := by
  constructor
  · intro h
    cases h with
    | self => exact ⟨rfl, rfl⟩
    | item => cases hv
    | entry => cases hv
  · rintro ⟨rfl, rfl⟩
    exact .self hv

theorem leaf_list {xs : List PyVal} {x : PyVal} {keys : List String} :
    Leaf (.list xs) keys x ↔ ∃ v ∈ xs, Leaf v keys x := by
  constructor
  · intro h
    cases h with
    | self hx => cases hx
    | item hv h => exact ⟨_, hv, h⟩
  · rintro ⟨v, hv, h⟩
    exact .item hv h

theorem leaf_dict {kvs : Dict} {x : PyVal} {keys : List String} :
    Leaf (.dict kvs) keys x ↔ ∃ key v rest, (key, v) ∈ kvs ∧ keys = key :: rest ∧ Leaf v rest x := by
  constructor
  · intro h
    cases h with
    | self hx => cases hx
    | entry hv h => exact ⟨_, _, _, hv, rfl, h⟩
  · rintro ⟨key, v, rest, hv, rfl, h⟩
    exact .entry hv h

/-- A value is accepted if and only if its leaves are. -/
theorem encodable_iff (v : PyVal) :
    v.encodable writable = true ↔ ∀ keys x, Leaf v keys x → x.encodable writable = true := by
  have scalar (v : PyVal) (hv : v.isScalar = true) :
      v.encodable writable = true ↔ ∀ keys x, Leaf v keys x → x.encodable writable = true := by
    simp only [leaf_scalar hv]
    exact ⟨fun h _ _ hx => hx.2 ▸ h, fun h => h [] v ⟨rfl, rfl⟩⟩
  induction v using nested_induction with
  | none => exact scalar _ rfl
  | bool b => exact scalar _ rfl
  | int n => exact scalar _ rfl
  | float x => exact scalar _ rfl
  | str s => exact scalar _ rfl
  | obj id => exact scalar _ rfl
  | list xs ih =>
    rw [encodable_list]
    constructor
    · rintro h keys x hleaf
      obtain ⟨v, hv, hleaf⟩ := leaf_list.mp hleaf
      exact (ih v hv).mp (h v hv) keys x hleaf
    · exact fun h v hv => (ih v hv).mpr fun keys x hleaf => h keys x (.item hv hleaf)
  | dict kvs ih =>
    rw [encodable_dict]
    constructor
    · rintro h keys x hleaf
      obtain ⟨key, v, rest, hv, rfl, hbelow⟩ := leaf_dict.mp hleaf
      exact (ih (key, v) hv).mp (h (key, v) hv) rest x hbelow
    · exact fun h kv hkv => (ih kv hkv).mpr fun keys x hleaf => h (kv.1 :: keys) x (.entry hkv hleaf)

end PyVal

end Py
