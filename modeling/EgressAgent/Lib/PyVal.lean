import Mathlib.Data.List.Basic
import Mathlib.Data.Rat.Defs

/-!
# Python values and dictionaries

The values that JSON text parses to, with the operations on them that a Python
program relies on: the truth of a value in a condition, `d.get(k, default)`,
`k in d`, `d[k]`, `d.keys()`, `d[k] = v` and `del d[k]`. A dictionary with string
keys is the list of its entries in insertion order.

`obj` is any other object of a program (a date, a decimal, ...), known by an
identity only: it is true in a condition and has no `get`.
-/

namespace Py

/-- A raised exception: the name of its class and what `str(ex)` gives. -/
structure PyExc where
  typeName : String
  text : String
deriving DecidableEq, Repr

/-- A float. The two zeros are one value here: no operation below tells them
apart. -/
inductive PyFloat
  | finite (q : ℚ)
  | infinite (negative : Bool)
  | nan
deriving DecidableEq

inductive PyVal
  | none
  | bool (b : Bool)
  | int (n : Int)
  | float (x : PyFloat)
  | str (s : String)
  | list (xs : List PyVal)
  | dict (kvs : List (String × PyVal))
  | obj (id : Nat)

/-- A dictionary with string keys, in insertion order. -/
abbrev Dict := List (String × PyVal)

/-! ## Values -/

def PyFloat.truthy : PyFloat → Bool
  | .finite q => q != 0
  | .infinite _ => true
  | .nan => true

/-- `x < 0` -/
def PyFloat.negative : PyFloat → Bool
  | .finite q => q < 0
  | .infinite negative => negative
  | .nan => false

/-- The truth of a value in an `if`. -/
def PyVal.truthy : PyVal → Bool
  | .none => false
  | .bool b => b
  | .int n => n != 0
  | .float x => x.truthy
  | .str s => s != ""
  | .list xs => !xs.isEmpty
  | .dict kvs => !kvs.isEmpty
  | .obj _ => true

@[simp] theorem PyVal.truthy_none : PyVal.none.truthy = false := rfl
@[simp] theorem PyVal.truthy_bool (b : Bool) : (PyVal.bool b).truthy = b := rfl
@[simp] theorem PyVal.truthy_str (s : String) : (PyVal.str s).truthy = (s != "") := rfl
@[simp] theorem PyVal.truthy_dict (kvs : Dict) : (PyVal.dict kvs).truthy = !kvs.isEmpty := rfl

/-- The class name that an error message shows. -/
def PyVal.typeName : PyVal → String
  | .none => "NoneType"
  | .bool _ => "bool"
  | .int _ => "int"
  | .float _ => "float"
  | .str _ => "str"
  | .list _ => "list"
  | .dict _ => "dict"
  | .obj _ => "object"

/-- `value.get(key, default)`: only a dictionary has a `get`. -/
def PyVal.get (value : PyVal) (key : String) (default : PyVal) : Except PyExc PyVal :=
  match value with
  | .dict kvs => .ok ((kvs.lookup key).getD default)
  | v => .error ⟨"AttributeError", s!"'{v.typeName}' object has no attribute 'get'"⟩

/-- `value.startswith(start)`. -/
def PyVal.startswith (value : PyVal) (start : String) : Except PyExc Bool :=
  match value with
  | .str s => .ok (s.startsWith start)
  | v => .error ⟨"AttributeError", s!"'{v.typeName}' object has no attribute 'startswith'"⟩

/-- `value == text` for a string `text`. -/
def PyVal.isStr (value : PyVal) (text : String) : Bool :=
  match value with
  | .str s => s == text
  | _ => false

/-- The value is a dictionary. -/
def PyVal.isDict : PyVal → Bool
  | .dict _ => true
  | _ => false

@[simp] theorem PyVal.get_dict (kvs : Dict) (key : String) (default : PyVal) :
    (PyVal.dict kvs).get key default = .ok ((kvs.lookup key).getD default) := rfl

theorem PyVal.isDict_iff {v : PyVal} : v.isDict = true ↔ ∃ kvs, v = .dict kvs := by
  cases v <;> simp [PyVal.isDict]

/-- A value without a `get` raises, whatever the key and the default. -/
theorem PyVal.get_of_not_isDict {v : PyVal} (h : v.isDict = false) (key : String)
    (default : PyVal) :
    v.get key default =
      .error ⟨"AttributeError", s!"'{v.typeName}' object has no attribute 'get'"⟩ := by
  cases v <;> simp_all [PyVal.isDict, PyVal.get]

/-! ## Dictionaries -/

namespace Dict

/-- `key in d`. -/
def contains (d : Dict) (key : String) : Bool := (d.lookup key).isSome

/-- `d[key] = value`: the entry keeps its place when the key is there and goes
to the end otherwise. -/
def set : Dict → String → PyVal → Dict
  | [], key, value => [(key, value)]
  | (k, v) :: d, key, value =>
      if key == k then (k, value) :: d else (k, v) :: set d key value

/-- `del d[key]`. -/
def del (d : Dict) (key : String) : Except PyExc Dict :=
  if contains d key then .ok (d.filter fun kv => !(key == kv.1))
  else .error ⟨"KeyError", s!"'{key}'"⟩

@[simp] theorem lookup_set_self (d : Dict) (key : String) (value : PyVal) :
    (set d key value).lookup key = some value := by
  induction d with
  | nil => simp [set]
  | cons kv d ih =>
    obtain ⟨k, v⟩ := kv
    by_cases h : key = k
    · simp [set, h]
    · have h' : (key == k) = false := by simpa using h
      simp only [set, h', Bool.false_eq_true, if_false, List.lookup_cons, ih]

theorem lookup_set_ne (d : Dict) {key other : String} (h : other ≠ key) (value : PyVal) :
    (set d key value).lookup other = d.lookup other := by
  have hne : (other == key) = false := by simpa using h
  induction d with
  | nil => simp only [set, List.lookup_cons, hne, List.lookup_nil]
  | cons kv d ih =>
    obtain ⟨k, v⟩ := kv
    by_cases hk : key = k
    · subst hk
      simp only [set, beq_self_eq_true, if_true, List.lookup_cons, hne]
    · have hk' : (key == k) = false := by simpa using hk
      simp only [set, hk', Bool.false_eq_true, if_false, List.lookup_cons, ih]

@[simp] theorem contains_set_self (d : Dict) (key : String) (value : PyVal) :
    contains (set d key value) key = true := by
  simp [contains]

theorem contains_set_ne (d : Dict) {key other : String} (h : other ≠ key) (value : PyVal) :
    contains (set d key value) other = contains d other := by
  simp [contains, lookup_set_ne d h]

/-- `del` raises exactly when the key is not there. -/
theorem del_isOk_iff (d : Dict) (key : String) :
    (∃ d', del d key = .ok d') ↔ contains d key = true := by
  unfold del
  split <;> simp_all

theorem lookup_del_self {d d' : Dict} {key : String} (h : del d key = .ok d') :
    d'.lookup key = none := by
  unfold del at h
  split at h
  · cases h
    rw [List.lookup_eq_none_iff]
    rintro kv hkv
    simpa using (List.mem_filter.mp hkv).2
  · cases h

theorem lookup_del_ne {d d' : Dict} {key other : String} (h : del d key = .ok d')
    (hne : other ≠ key) : d'.lookup other = d.lookup other := by
  unfold del at h
  split at h
  · cases h
    clear * - hne
    induction d with
    | nil => rfl
    | cons kv d ih =>
      obtain ⟨k, v⟩ := kv
      by_cases hk : key = k
      · subst hk
        have hother : (other == key) = false := by simpa using hne
        simp only [List.filter_cons, beq_self_eq_true, Bool.not_true, Bool.false_eq_true, if_false,
          ih, List.lookup_cons, hother]
      · have hk' : (key == k) = false := by simpa using hk
        simp only [List.filter_cons, hk', Bool.not_false, if_true, List.lookup_cons, ih]
  · cases h

/-- `d.update(items)` -/
def update (d : Dict) (items : List (String × PyVal)) : Dict :=
  items.foldl (fun d kv => set d kv.1 kv.2) d

/-- A dictionary comprehension over `items`. -/
def ofItems (items : List (String × PyVal)) : Dict := update [] items

theorem set_of_not_mem {d : Dict} {key : String} (h : key ∉ d.map Prod.fst) (value : PyVal) :
    set d key value = d ++ [(key, value)] := by
  induction d with
  | nil => rfl
  | cons kv d ih =>
    obtain ⟨k, v⟩ := kv
    rw [List.map_cons, List.mem_cons, not_or] at h
    have hk : (key == k) = false := by simpa using h.1
    simp only [set, hk, Bool.false_eq_true, if_false, ih h.2, List.cons_append]

theorem keys_set (d : Dict) (key : String) (value : PyVal) :
    (set d key value).map Prod.fst =
      if key ∈ d.map Prod.fst then d.map Prod.fst else d.map Prod.fst ++ [key] := by
  induction d with
  | nil => rfl
  | cons kv d ih =>
    obtain ⟨k, v⟩ := kv
    by_cases hk : key = k
    · simp [set, hk]
    · have hk' : (key == k) = false := by simpa using hk
      simp only [set, hk', Bool.false_eq_true, if_false, List.map_cons, ih, List.mem_cons, hk,
        false_or]
      split <;> rfl

/-- No operation gives a dictionary one key twice. -/
theorem nodup_set {d : Dict} (h : (d.map Prod.fst).Nodup) (key : String) (value : PyVal) :
    ((set d key value).map Prod.fst).Nodup := by
  rw [keys_set]
  split
  · exact h
  · next hnew =>
    refine List.nodup_append.mpr ⟨h, by simp, ?_⟩
    rintro k hk _ hkey rfl
    exact hnew (List.mem_singleton.mp hkey ▸ hk)

theorem nodup_update {d : Dict} (h : (d.map Prod.fst).Nodup) (items : List (String × PyVal)) :
    ((update d items).map Prod.fst).Nodup := by
  induction items generalizing d with
  | nil => exact h
  | cons kv items ih => exact ih (nodup_set h kv.1 kv.2)

/-- Of the entries with one key, the last one counts. -/
theorem lookup_update (d : Dict) (items : List (String × PyVal)) (key : String) :
    (update d items).lookup key = (items.reverse.lookup key).or (d.lookup key) := by
  induction items generalizing d with
  | nil => rfl
  | cons kv items ih =>
    obtain ⟨k, v⟩ := kv
    rw [List.reverse_cons, List.lookup_append, Option.or_assoc]
    refine (ih (set d k v)).trans ?_
    congr 1
    by_cases hk : key = k
    · rw [hk, lookup_set_self, List.lookup_cons, beq_self_eq_true]
      rfl
    · have hk' : (key == k) = false := by simpa using hk
      rw [lookup_set_ne d hk, List.lookup_cons, hk']
      rfl

theorem nodup_ofItems (items : List (String × PyVal)) : ((ofItems items).map Prod.fst).Nodup :=
  nodup_update (d := []) List.nodup_nil items

theorem lookup_ofItems (items : List (String × PyVal)) (key : String) :
    (ofItems items).lookup key = items.reverse.lookup key := by
  rw [ofItems, lookup_update, List.lookup_nil, Option.or_none]

/-- New entries go to the end, in their order. -/
theorem update_of_disjoint {d : Dict} {items : List (String × PyVal)}
    (hnodup : (items.map Prod.fst).Nodup) (hnew : ∀ kv ∈ items, kv.1 ∉ d.map Prod.fst) :
    update d items = d ++ items := by
  induction items generalizing d with
  | nil => exact (List.append_nil d).symm
  | cons kv items ih =>
    obtain ⟨hkey, hnodup⟩ := List.nodup_cons.mp hnodup
    have hset := set_of_not_mem (hnew kv List.mem_cons_self) kv.2
    refine (ih (d := set d kv.1 kv.2) hnodup fun kv' hkv' => ?_).trans ?_
    · rw [hset, List.map_append, List.mem_append, not_or]
      refine ⟨hnew kv' (List.mem_cons_of_mem _ hkv'), fun heq => hkey ?_⟩
      rw [← List.mem_singleton.mp heq]
      exact List.mem_map_of_mem hkv'
    · rw [hset, List.append_assoc]
      rfl

/-- An entry of a dictionary is the one that its key is looked up to. -/
theorem mem_iff_lookup {d : Dict} (h : (d.map Prod.fst).Nodup) {key : String} {value : PyVal} :
    (key, value) ∈ d ↔ d.lookup key = some value := by
  induction d with
  | nil => simp
  | cons kv d ih =>
    obtain ⟨k, v⟩ := kv
    obtain ⟨hkey, hnodup⟩ := List.nodup_cons.mp h
    by_cases hk : key = k
    · subst hk
      have hnot : (key, value) ∉ d := fun hmem => hkey (List.mem_map.mpr ⟨_, hmem, rfl⟩)
      simp [hnot, eq_comm]
    · have hk' : (key == k) = false := by simpa using hk
      simp [List.lookup_cons, hk', hk, ih hnodup]

end Dict

/-! ## Values as containers -/

/-- `key in value`: a key of a dictionary, an element of a list or a part of a
text. -/
def PyVal.contains (value : PyVal) (key : String) : Except PyExc Bool :=
  match value with
  | .dict kvs => .ok (Dict.contains kvs key)
  | .list xs => .ok (xs.any fun x => x.isStr key)
  | .str s => .ok (s.toList.tails.any fun rest => key.toList.isPrefixOf rest)
  | v => .error ⟨"TypeError", s!"argument of type '{v.typeName}' is not iterable"⟩

/-- `value[key]`. -/
def PyVal.getItem (value : PyVal) (key : String) : Except PyExc PyVal :=
  match value with
  | .dict kvs =>
    match kvs.lookup key with
    | some item => .ok item
    | .none => .error ⟨"KeyError", s!"'{key}'"⟩
  | .list _ => .error ⟨"TypeError", "list indices must be integers or slices, not str"⟩
  | .str _ => .error ⟨"TypeError", "string indices must be integers, not 'str'"⟩
  | v => .error ⟨"TypeError", s!"'{v.typeName}' object is not subscriptable"⟩

/-- `value.keys()`: only a dictionary has keys. -/
def PyVal.keys (value : PyVal) : Except PyExc (List String) :=
  match value with
  | .dict kvs => .ok (kvs.map Prod.fst)
  | v => .error ⟨"AttributeError", s!"'{v.typeName}' object has no attribute 'keys'"⟩

theorem PyVal.keys_of_not_isDict {v : PyVal} (h : v.isDict = false) :
    v.keys = .error ⟨"AttributeError", s!"'{v.typeName}' object has no attribute 'keys'"⟩ := by
  cases v <;> simp_all [PyVal.isDict, PyVal.keys]

theorem PyVal.getItem_dict {kvs : Dict} {key : String} {item : PyVal}
    (h : kvs.lookup key = some item) : (PyVal.dict kvs).getItem key = .ok item := by
  simp only [getItem, h]

/-- `container[key] = value`. -/
def PyVal.setItem (container : PyVal) (key : String) (value : PyVal) : Except PyExc PyVal :=
  match container with
  | .dict kvs => .ok (.dict (Dict.set kvs key value))
  | v => .error ⟨"TypeError", s!"'{v.typeName}' object does not support item assignment"⟩

@[simp] theorem PyVal.setItem_dict (kvs : Dict) (key : String) (value : PyVal) :
    (PyVal.dict kvs).setItem key value = .ok (.dict (Dict.set kvs key value)) := rfl

end Py
