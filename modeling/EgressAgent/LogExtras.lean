import EgressAgent.Lib.StrictJson
import EgressAgent.LogBuffer

/-!
# The extras of a log record

What `InProcessLogShippingHandler.emit` ships with `include_extra`, and whether
the backend client can send it. A logged value is any value that a caller puts
into `extra=`. `str` is Python's `str()`; the redactor is not part of this
repository.

1. The model, from `_to_jsonable` to the JSON encoder of the request.
2. `shipped_encodable_iff`: the encoder accepts a shipped record if and only if
   no float among its extras is NaN or infinite, apart from those that are
   masked, overwritten or reserved. `logsBody_encodable_iff`: it accepts a batch
   only as a whole. `nan_loses_batch`: a NaN keeps the other records from being
   sent.
-/

namespace EgressAgent

open Py
open BackendClient (Attempt)
open LogBuffer

namespace LogExtras

/-! ## 1. The model -/

/-- A logged value. The elements of a set are in the order in which it is
iterated over, and `other` is any other object, known by an identity. -/
inductive Logged
  | none
  | bool (b : Bool)
  | int (n : Int)
  | float (x : PyFloat)
  | str (s : String)
  | bytes (data : List UInt8)
  | dict (items : List (Logged × Logged))
  | list (xs : List Logged)
  | tuple (xs : List Logged)
  | set (xs : List Logged)
  | frozenset (xs : List Logged)
  | other (id : Nat)

/-- `str(value)`, which is the string itself for a string. -/
def Logged.text (str : Logged → String) : Logged → String
  | .str s => s
  | v => str v

/-- The elements of a list, a tuple or a set. -/
def Logged.elements : Logged → List Logged
  | .list xs => xs
  | .tuple xs => xs
  | .set xs => xs
  | .frozenset xs => xs
  | _ => []

section Conversion

variable (str : Logged → String)

mutual

/-- `_to_jsonable` -/
def toJsonable : Logged → PyVal
  | .none => .none
  | .str s => .str s
  | .int n => .int n
  | .float x => .float x
  | .bool b => .bool b
  | .dict items => .dict (Dict.ofItems (itemsToJsonable items))
  | .list xs => .list (elementsToJsonable xs)
  | .tuple xs => .list (elementsToJsonable xs)
  | .set xs => .list (elementsToJsonable xs)
  | .frozenset xs => .list (elementsToJsonable xs)
  | .bytes data => .str (str (.bytes data))
  | .other id => .str (str (.other id))

def elementsToJsonable : List Logged → List PyVal
  | [] => []
  | x :: xs => toJsonable x :: elementsToJsonable xs

def itemsToJsonable : List (Logged × Logged) → List (String × PyVal)
  | [] => []
  | (k, v) :: items => (k.text str, toJsonable v) :: itemsToJsonable items

end

end Conversion

/-- `_STANDARD_LOG_RECORD_ATTRIBUTES` -/
def standardLogRecordAttributes : List String :=
  ["name", "msg", "args", "levelname", "levelno", "pathname", "filename", "module", "exc_info",
    "exc_text", "stack_info", "lineno", "funcName", "created", "msecs", "relativeCreated",
    "thread", "threadName", "processName", "process", "taskName", "message", "asctime"]

/-- `_RESERVED_RECORD_KEYS` -/
def reservedRecordKeys : List String :=
  ["timestamp", "message", "agent_id", "instance_id", "log_type", "host", "status", "service",
    "source", "ddsource", "ddtags"]

/-- `record.__dict__` -/
structure RecordAttributes where
  items : List (String × Logged)
  nodup : (items.map Prod.fst).Nodup

/-- `AgentRedactUtilities.standard_redact` on a dictionary, with the keys that it
takes for sensitive. It puts text in the place of the values of these keys and of
texts that look like credentials, and leaves every other value as it is. -/
structure Redactor where
  standardRedact : Dict → Dict
  sensitive : String → Bool
  nodup : ∀ d : Dict, (d.map Prod.fst).Nodup → ((standardRedact d).map Prod.fst).Nodup
  leaf_iff : ∀ (d : Dict) (keys : List String) (x : PyVal), (∀ s, x ≠ .str s) →
    ((PyVal.dict (standardRedact d)).Leaf keys x ↔
      (PyVal.dict d).Leaf keys x ∧ ∀ key ∈ keys, sensitive key = false)

/-- `get_log_record_extra` -/
def getLogRecordExtra (str : Logged → String) (redactor : Redactor) (record : RecordAttributes) :
    Dict :=
  let extra := Dict.ofItems ((record.items.filter fun kv =>
    !standardLogRecordAttributes.contains kv.1).map fun kv => (kv.1, toJsonable str kv.2))
  if extra.isEmpty then [] else redactor.standardRedact extra

/-- The dictionary `shipped` of `emit`, for the results of `_format_timestamp` and
`self.format`. -/
def shipped (str : Logged → String) (redactor : Redactor) (includeExtra : Bool)
    (timestamp message : String) (record : RecordAttributes) : Dict :=
  let shipped := [("timestamp", .str timestamp), ("message", .str message)]
  if includeExtra then
    Dict.update shipped ((getLogRecordExtra str redactor record).filter fun kv =>
      !reservedRecordKeys.contains kv.1)
  else shipped

/-- `requests.request(json=body)`: the body is encoded before anything is sent,
and `encodingError` is raised where it cannot be. -/
def requestJson (writable : Int → Bool) (encodingError : PyExc) (body : PyVal)
    (answers : Nat → Attempt) (k : Nat) : Attempt :=
  if body.encodable writable then answers k else .otherError encodingError

/-! ## 2. What can be sent -/

/-- The value holds a float or an integer that the encoder does not take, at a
place that is neither overwritten nor masked: of the entries of a dictionary
whose keys have one text the last one counts. -/
inductive Poisoned (str : Logged → String) (sensitive : String → Bool) (writable : Int → Bool) :
    Logged → Prop
  | float {x : PyFloat} : x.isFinite = false → Poisoned str sensitive writable (.float x)
  | int {n : Int} : writable n = false → Poisoned str sensitive writable (.int n)
  | element {v x : Logged} : x ∈ v.elements → Poisoned str sensitive writable x →
      Poisoned str sensitive writable v
  | entry {items : List (Logged × Logged)} {key : String} {v : Logged} :
      (items.map fun kv => (kv.1.text str, kv.2)).reverse.lookup key = some v →
      sensitive key = false → Poisoned str sensitive writable v →
      Poisoned str sensitive writable (.dict items)

/-- The record has a poisoned extra that is shipped as it is: its name is not one
of a standard attribute, nor reserved, nor sensitive. -/
def PoisonedRecord (str : Logged → String) (redactor : Redactor) (writable : Int → Bool)
    (record : RecordAttributes) : Prop :=
  ∃ name value, (name, value) ∈ record.items ∧ name ∉ standardLogRecordAttributes ∧
    name ∉ reservedRecordKeys ∧ redactor.sensitive name = false ∧
    Poisoned str redactor.sensitive writable value

/-- The value has a leaf that the encoder does not take, under no sensitive key. -/
def Exposed (sensitive : String → Bool) (writable : Int → Bool) (v : PyVal) : Prop :=
  ∃ keys x, v.Leaf keys x ∧ x.encodable writable = false ∧ ∀ key ∈ keys, sensitive key = false

end LogExtras

open LogExtras

namespace LogExtrasLemmas

theorem sizeOf_element {x v : Logged} (h : x ∈ v.elements) : sizeOf x < sizeOf v := by
  cases v <;> simp only [Logged.elements, List.not_mem_nil] at h
  all_goals
    have hlt := List.sizeOf_lt_of_mem h
    simp
    omega

theorem sizeOf_value {kv : Logged × Logged} {items : List (Logged × Logged)} (h : kv ∈ items) :
    sizeOf kv.2 < sizeOf (Logged.dict items) := by
  have hlt := List.sizeOf_lt_of_mem h
  obtain ⟨k, v⟩ := kv
  simp only [Prod.mk.sizeOf_spec] at hlt
  simp
  omega

/-- What is proved for a value from its elements and from the values of its
entries holds of every logged value. -/
theorem logged_induction {P : Logged → Prop}
    (node : ∀ v : Logged, (∀ x ∈ v.elements, P x) →
      (∀ items, v = .dict items → ∀ kv ∈ items, P kv.2) → P v) (v : Logged) : P v := by
  refine node v (fun x hx => ?_) fun items hv kv hkv => ?_
  · exact logged_induction node x
  · exact logged_induction node kv.2
termination_by sizeOf v
decreasing_by
  · exact sizeOf_element hx
  · exact hv ▸ sizeOf_value hkv

section Exposed

variable {sensitive : String → Bool} {writable : Int → Bool}

theorem exposed_scalar {v : PyVal} (hv : v.isScalar = true) :
    Exposed sensitive writable v ↔ v.encodable writable = false := by
  constructor
  · rintro ⟨keys, x, hleaf, hx, -⟩
    obtain ⟨rfl, rfl⟩ := (PyVal.leaf_scalar hv).mp hleaf
    exact hx
  · exact fun h => ⟨[], v, .self hv, h, by simp⟩

theorem exposed_list {xs : List PyVal} :
    Exposed sensitive writable (.list xs) ↔ ∃ v ∈ xs, Exposed sensitive writable v := by
  constructor
  · rintro ⟨keys, x, hleaf, hx, hkeys⟩
    obtain ⟨v, hv, hbelow⟩ := PyVal.leaf_list.mp hleaf
    exact ⟨v, hv, keys, x, hbelow, hx, hkeys⟩
  · rintro ⟨v, hv, keys, x, hleaf, hx, hkeys⟩
    exact ⟨keys, x, .item hv hleaf, hx, hkeys⟩

theorem exposed_dict {kvs : Dict} :
    Exposed sensitive writable (.dict kvs) ↔
      ∃ key v, (key, v) ∈ kvs ∧ sensitive key = false ∧ Exposed sensitive writable v := by
  constructor
  · rintro ⟨keys, x, hleaf, hx, hkeys⟩
    obtain ⟨key, v, rest, hv, rfl, hbelow⟩ := PyVal.leaf_dict.mp hleaf
    obtain ⟨hkey, hrest⟩ := List.forall_mem_cons.mp hkeys
    exact ⟨key, v, hv, hkey, rest, x, hbelow, hx, hrest⟩
  · rintro ⟨key, v, hv, hkey, rest, x, hleaf, hx, hrest⟩
    exact ⟨key :: rest, x, .entry hv hleaf, hx, List.forall_mem_cons.mpr ⟨hkey, hrest⟩⟩

end Exposed

section Poisoned

variable {str : Logged → String} {sensitive : String → Bool} {writable : Int → Bool}

theorem elementsToJsonable_eq (xs : List Logged) :
    elementsToJsonable str xs = xs.map (toJsonable str) := by
  induction xs with
  | nil => rfl
  | cons x xs ih => rw [elementsToJsonable, ih, List.map_cons]

theorem itemsToJsonable_eq (items : List (Logged × Logged)) :
    itemsToJsonable str items = items.map fun kv => (kv.1.text str, toJsonable str kv.2) := by
  induction items with
  | nil => rfl
  | cons kv items ih => rw [itemsToJsonable, ih, List.map_cons]

theorem lookup_map_snd {α β γ : Type} [BEq α] (f : β → γ) (l : List (α × β)) (key : α) :
    (l.map fun kv => (kv.1, f kv.2)).lookup key = (l.lookup key).map f := by
  induction l with
  | nil => rfl
  | cons kv l ih =>
    rw [List.map_cons, List.lookup_cons, List.lookup_cons, ih]
    split <;> rfl

/-- The entries of a converted dictionary. -/
theorem mem_itemsToJsonable {items : List (Logged × Logged)} {key : String} {w : PyVal} :
    (key, w) ∈ Dict.ofItems (itemsToJsonable str items) ↔
      ∃ v, (items.map fun kv => (kv.1.text str, kv.2)).reverse.lookup key = some v ∧
        toJsonable str v = w := by
  have hmap : (itemsToJsonable str items).reverse =
      (items.map fun kv => (kv.1.text str, kv.2)).reverse.map fun kv => (kv.1, toJsonable str kv.2) := by
    rw [itemsToJsonable_eq, List.map_reverse, List.map_map]
    rfl
  rw [Dict.mem_iff_lookup (Dict.nodup_ofItems _), Dict.lookup_ofItems, hmap, lookup_map_snd,
    Option.map_eq_some_iff]

/-- The value that is left for a key is the value of one of the entries. -/
theorem exists_of_lookup {items : List (Logged × Logged)} {key : String} {v : Logged}
    (h : (items.map fun kv => (kv.1.text str, kv.2)).reverse.lookup key = some v) :
    ∃ kv ∈ items, kv.2 = v := by
  obtain ⟨before, after, heq, -⟩ := List.lookup_eq_some_iff.mp h
  have hmem : (key, v) ∈ (items.map fun kv => (kv.1.text str, kv.2)).reverse := by
    rw [heq]
    exact List.mem_append_right _ List.mem_cons_self
  obtain ⟨kv, hkv, hpair⟩ := List.mem_map.mp (List.mem_reverse.mp hmem)
  exact ⟨kv, hkv, (Prod.mk.inj hpair).2⟩

theorem poisoned_scalar {v : Logged} (hv : (toJsonable str v).isScalar = true) :
    Poisoned str sensitive writable v ↔ (toJsonable str v).encodable writable = false := by
  constructor
  · intro h
    cases h with
    | float hx => exact hx
    | int hn => exact hn
    | entry => cases hv
    | @element _ x hx =>
      have hnone : v.elements = [] := by cases v <;> first | rfl | cases hv
      rw [hnone] at hx
      cases hx
  · intro h
    cases v with
    | float x => exact .float h
    | int n => exact .int h
    | dict items => cases hv
    | list xs => cases hv
    | tuple xs => cases hv
    | set xs => cases hv
    | frozenset xs => cases hv
    | _ => cases h

/-- The conversion leaves what the encoder does not take where it is. -/
theorem exposed_toJsonable_iff (v : Logged) :
    Exposed sensitive writable (toJsonable str v) ↔ Poisoned str sensitive writable v := by
  induction v using logged_induction with
  | node v elements entries =>
    have sequence (xs : List Logged) (hxs : v.elements = xs)
        (hlist : toJsonable str v = .list (elementsToJsonable str xs))
        (hdict : ∀ items, v ≠ .dict items) (hfloat : ∀ x, v ≠ .float x) (hint : ∀ n, v ≠ .int n) :
        Exposed sensitive writable (toJsonable str v) ↔ Poisoned str sensitive writable v := by
      rw [hlist, elementsToJsonable_eq, exposed_list]
      constructor
      · rintro ⟨w, hw, hexposed⟩
        obtain ⟨x, hx, rfl⟩ := List.mem_map.mp hw
        rw [← hxs] at hx
        exact .element hx ((elements x hx).mp hexposed)
      · intro h
        cases h with
        | float => exact absurd rfl (hfloat _)
        | int => exact absurd rfl (hint _)
        | entry => exact absurd rfl (hdict _)
        | @element _ x hx hpoisoned =>
          exact ⟨_, List.mem_map_of_mem (hxs ▸ hx), (elements x hx).mpr hpoisoned⟩
    cases v with
    | list xs => exact sequence xs rfl rfl nofun nofun nofun
    | tuple xs => exact sequence xs rfl rfl nofun nofun nofun
    | set xs => exact sequence xs rfl rfl nofun nofun nofun
    | frozenset xs => exact sequence xs rfl rfl nofun nofun nofun
    | dict items =>
      rw [toJsonable, exposed_dict]
      constructor
      · rintro ⟨key, w, hmem, hkey, hexposed⟩
        obtain ⟨v, hv, rfl⟩ := mem_itemsToJsonable.mp hmem
        obtain ⟨kv, hkv, rfl⟩ := exists_of_lookup hv
        exact .entry hv hkey ((entries items rfl kv hkv).mp hexposed)
      · intro h
        cases h with
        | element hx => cases hx
        | @entry _ key v hv hkey hpoisoned =>
          obtain ⟨kv, hkv, rfl⟩ := exists_of_lookup hv
          exact ⟨key, _, mem_itemsToJsonable.mpr ⟨_, hv, rfl⟩, hkey,
            (entries items rfl kv hkv).mpr hpoisoned⟩
    | _ => exact (exposed_scalar rfl).trans (poisoned_scalar rfl).symm

end Poisoned

/-- The extras before the redaction. -/
def convertedExtra (str : Logged → String) (record : RecordAttributes) : Dict :=
  (record.items.filter fun kv => !standardLogRecordAttributes.contains kv.1).map
    fun kv => (kv.1, toJsonable str kv.2)

section Record

variable {str : Logged → String} {redactor : Redactor} {writable : Int → Bool}
  {record : RecordAttributes}

theorem mem_convertedExtra {name : String} {w : PyVal} :
    (name, w) ∈ convertedExtra str record ↔
      ∃ value, (name, value) ∈ record.items ∧ name ∉ standardLogRecordAttributes ∧
        toJsonable str value = w := by
  simp [convertedExtra, and_assoc]

theorem convertedExtra_eq :
    Dict.ofItems (convertedExtra str record) = convertedExtra str record := by
  have hnodup : ((convertedExtra str record).map Prod.fst).Nodup := by
    have hsub : ((record.items.filter fun kv =>
        !standardLogRecordAttributes.contains kv.1).map Prod.fst).Sublist
        (record.items.map Prod.fst) := List.filter_sublist.map _
    rw [convertedExtra, List.map_map]
    exact record.nodup.sublist hsub
  exact Dict.update_of_disjoint (d := []) hnodup fun _ _ => List.not_mem_nil

theorem getLogRecordExtra_eq : getLogRecordExtra str redactor record =
    if (convertedExtra str record).isEmpty then []
    else redactor.standardRedact (convertedExtra str record) := by
  rw [← convertedExtra_eq]
  rfl

/-- Where the leaves of the extras other than texts come from. -/
theorem leaf_getLogRecordExtra {keys : List String} {x : PyVal} (hx : ∀ s, x ≠ .str s) :
    (PyVal.dict (getLogRecordExtra str redactor record)).Leaf keys x ↔
      (PyVal.dict (convertedExtra str record)).Leaf keys x ∧
        ∀ key ∈ keys, redactor.sensitive key = false := by
  rw [getLogRecordExtra_eq]
  split
  · next hempty =>
    rw [List.isEmpty_iff.mp hempty]
    simp [PyVal.leaf_dict]
  · exact redactor.leaf_iff _ keys x hx

theorem nodup_getLogRecordExtra :
    ((getLogRecordExtra str redactor record).map Prod.fst).Nodup := by
  rw [getLogRecordExtra_eq]
  split
  · exact List.nodup_nil
  · have hnodup : ((convertedExtra str record).map Prod.fst).Nodup := by
      rw [← convertedExtra_eq]
      exact Dict.nodup_ofItems _
    exact redactor.nodup _ hnodup

/-- The two entries of every record, followed by the extras whose keys are not
reserved. -/
theorem shipped_eq (timestamp message : String) :
    shipped str redactor true timestamp message record =
      [("timestamp", .str timestamp), ("message", .str message)] ++
        (getLogRecordExtra str redactor record).filter fun kv =>
          !reservedRecordKeys.contains kv.1 := by
  refine Dict.update_of_disjoint ?_ fun kv hkv => ?_
  · exact nodup_getLogRecordExtra.sublist (List.filter_sublist.map _)
  · have hreserved := (List.mem_filter.mp hkv).2
    intro hbase
    have hkey : kv.1 = "timestamp" ∨ kv.1 = "message" := by simpa using hbase
    rcases hkey with hkey | hkey <;> simp [hkey, reservedRecordKeys] at hreserved

/-- A shipped record has a leaf that the encoder does not take if and only if it
is one of its extras. -/
theorem not_encodable_shipped {timestamp message : String} :
    (PyVal.dict (shipped str redactor true timestamp message record)).encodable writable = false ↔
      ∃ name w keys x, (name, w) ∈ getLogRecordExtra str redactor record ∧
        name ∉ reservedRecordKeys ∧ w.Leaf keys x ∧ x.encodable writable = false := by
  rw [← Bool.not_eq_true, PyVal.encodable_dict, shipped_eq, not_forall]
  constructor
  · rintro ⟨⟨name, w⟩, h⟩
    obtain ⟨hmem, hw⟩ := Classical.not_imp.mp h
    rcases List.mem_append.mp hmem with hbase | hextra
    · -- The time and the message are texts.
      have htext : ∃ s, w = .str s := by
        simp only [List.mem_cons, List.not_mem_nil, or_false, Prod.mk.injEq] at hbase
        rcases hbase with ⟨-, rfl⟩ | ⟨-, rfl⟩ <;> exact ⟨_, rfl⟩
      obtain ⟨s, rfl⟩ := htext
      exact absurd rfl hw
    · obtain ⟨hextra, hname⟩ := List.mem_filter.mp hextra
      rw [PyVal.encodable_iff, not_forall] at hw
      obtain ⟨keys, hw⟩ := hw
      rw [not_forall] at hw
      obtain ⟨x, hw⟩ := hw
      obtain ⟨hleaf, hx⟩ := Classical.not_imp.mp hw
      exact ⟨name, w, keys, x, hextra, by simpa using hname, hleaf, Bool.not_eq_true _ ▸ hx⟩
  · rintro ⟨name, w, keys, x, hmem, hname, hleaf, hx⟩
    refine ⟨(name, w), fun h => ?_⟩
    have hw := h (List.mem_append_right _ (List.mem_filter.mpr ⟨hmem, by simpa using hname⟩))
    rw [(PyVal.encodable_iff w).mp hw keys x hleaf] at hx
    cases hx

end Record

end LogExtrasLemmas

open LogExtrasLemmas

/-- The encoder of the request accepts the record that `emit` appends if and only
if the record has no poisoned extra: none with a float that is NaN or infinite, or
an integer that is not written out, at a place that is neither overwritten, nor
masked, nor left out. -/
theorem shipped_encodable_iff (str : Logged → String) (redactor : Redactor)
    (writable : Int → Bool) (timestamp message : String) (record : RecordAttributes) :
    (PyVal.dict (shipped str redactor true timestamp message record)).encodable writable = true ↔
      ¬ PoisonedRecord str redactor writable record := by
  rw [← not_iff_not, not_not, Bool.not_eq_true, not_encodable_shipped]
  have nontext {x : PyVal} (hx : x.encodable writable = false) (s : String) : x ≠ .str s := by
    rintro rfl
    cases hx
  constructor
  · rintro ⟨name, w, keys, x, hmem, hname, hleaf, hx⟩
    obtain ⟨hconverted, hkeys⟩ := (leaf_getLogRecordExtra (nontext hx)).mp (.entry hmem hleaf)
    obtain ⟨_, w', _, hmem', ⟨⟩, hleaf'⟩ := PyVal.leaf_dict.mp hconverted
    obtain ⟨value, hvalue, hstandard, rfl⟩ := mem_convertedExtra.mp hmem'
    obtain ⟨hsensitive, hrest⟩ := List.forall_mem_cons.mp hkeys
    exact ⟨name, value, hvalue, hstandard, hname, hsensitive,
      (exposed_toJsonable_iff value).mp ⟨keys, x, hleaf', hx, hrest⟩⟩
  · rintro ⟨name, value, hvalue, hstandard, hname, hsensitive, hpoisoned⟩
    obtain ⟨keys, x, hleaf, hx, hrest⟩ := (exposed_toJsonable_iff value).mpr hpoisoned
    have hconverted : (PyVal.dict (convertedExtra str record)).Leaf (name :: keys) x :=
      .entry (mem_convertedExtra.mpr ⟨value, hvalue, hstandard, rfl⟩) hleaf
    have hredacted := (leaf_getLogRecordExtra (nontext hx)).mpr
      ⟨hconverted, List.forall_mem_cons.mpr ⟨hsensitive, hrest⟩⟩
    obtain ⟨_, w, _, hmem, ⟨⟩, hleaf'⟩ := PyVal.leaf_dict.mp hredacted
    exact ⟨name, w, keys, x, hmem, hname, hleaf', hx⟩

/-- A redactor where nothing looks like a credential. -/
def plainRedactor : Redactor where
  standardRedact d := d
  sensitive _ := false
  nodup _ h := h
  leaf_iff _ _ _ _ := by simp

/-- A record that is logged with a count and a ratio. -/
def measuredRecord (ratio : PyFloat) : RecordAttributes where
  items := [("msg", .str "measured"), ("count", .int 3), ("ratio", .float ratio)]
  nodup := by simp

/-- The rule at a record whose numbers are finite. -/
theorem shipped_encodable_iff_measured :
    (PyVal.dict (shipped (fun _ => "") plainRedactor true "now" "measured"
      (measuredRecord (.finite (1 / 2))))).encodable (fun _ => true) = true := by
  refine (shipped_encodable_iff _ _ _ _ _ _).mpr ?_
  rintro ⟨name, value, hmem, -, -, -, hpoisoned⟩
  simp only [measuredRecord, List.mem_cons, List.not_mem_nil, or_false, Prod.mk.injEq] at hmem
  rcases hmem with ⟨-, rfl⟩ | ⟨-, rfl⟩ | ⟨-, rfl⟩
  · cases (poisoned_scalar rfl).mp hpoisoned
  · cases (poisoned_scalar rfl).mp hpoisoned
  · cases (poisoned_scalar rfl).mp hpoisoned

/-- The body of a flush is accepted if and only if each of its records is. -/
theorem logsBody_encodable_iff {writable : Int → Bool} {logs : List LogEntry} :
    (logsBody logs).encodable writable = true ↔
      ∀ entry ∈ logs, (PyVal.dict entry.toDict).encodable writable = true := by
  simp [logsBody, PyVal.encodable_dict, PyVal.encodable_list]

/-- A drained batch, of which one record has a ratio that is NaN. -/
def nanBatch : List LogEntry :=
  [.shipped ⟨0, [("timestamp", .str "now"), ("message", .str "polling")]⟩,
    .shipped ⟨1, shipped (fun _ => "") plainRedactor true "now" "measured" (measuredRecord .nan)⟩]

/-- The record is shipped, the encoder does not take it, and the backend, which
answers every request, gets none of the batch. -/
theorem nan_loses_batch :
    let error : PyExc := ⟨"InvalidJSONError", "Out of range float values are not JSON compliant"⟩
    (PyVal.dict (shipped (fun _ => "") plainRedactor true "now" "measured"
        (measuredRecord .nan))).encodable (fun _ => true) = false ∧
      BackendClient.executeOperation false (requestJson (fun _ => true) error (logsBody nanBatch)
          fun _ => .response ⟨200, "OK", "http://backend", .ok (.dict [("ok", .bool true)])⟩) =
        BackendClient.errorReply error.text :=
  ⟨rfl, rfl⟩

end EgressAgent
