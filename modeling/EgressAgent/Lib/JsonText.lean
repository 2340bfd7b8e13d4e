import Mathlib.Data.List.Basic
import Mathlib.Data.Char

/-!
# JSON texts

JSON in plain ASCII, as `json.dumps` writes it by default: every character
outside printable ASCII is escaped, in UTF-16 code units of four hexadecimal
digits, and a space follows each comma and colon. A value is a tree whose words
(`null`, `true`, `false` and the numbers) stand for themselves.

* `write` writes a tree and `read` reads one back; `read_write` is the round trip.
* `all_isPrintable_write`: what is written is printable ASCII, so it is one
  line.
* `lines_unlines`: texts without a line break, each followed by one, are found
  again in their concatenation.
-/

namespace JsonText

/-! ## Trees -/

/-- A character that a word may have. -/
def isWordChar (c : Char) : Bool :=
  decide ('0'.toNat ≤ c.toNat ∧ c.toNat ≤ '9'.toNat) ||
    decide ('A'.toNat ≤ c.toNat ∧ c.toNat ≤ 'Z'.toNat) ||
    decide ('a'.toNat ≤ c.toNat ∧ c.toNat ≤ 'z'.toNat) || c == '+' || c == '-' || c == '.'

/-- `null`, `true`, `false` or a number. -/
structure Word where
  text : List Char
  nonempty : text ≠ []
  chars : ∀ c ∈ text, isWordChar c = true

def Word.ofText? (text : List Char) : Option Word :=
  if h : text.isEmpty = false ∧ text.all isWordChar = true then
    some ⟨text, List.isEmpty_eq_false_iff.mp h.1, List.all_eq_true.mp h.2⟩
  else none

inductive Json
  | word (w : Word)
  | str (s : List Char)
  | arr (xs : List Json)
  | obj (kvs : List (List Char × Json))

/-! ## Characters -/

/-- Printable ASCII. -/
def isPrintable (c : Char) : Bool := decide (32 ≤ c.toNat ∧ c.toNat ≤ 126)

def isSpace (c : Char) : Bool := c == ' ' || c == '\t' || c == '\n' || c == '\r'

/-- A digit below 16. -/
def hexDigit (d : Nat) : Char := if d < 10 then Char.ofNat (48 + d) else Char.ofNat (87 + d)

def hexValue (c : Char) : Option Nat :=
  if 48 ≤ c.toNat ∧ c.toNat ≤ 57 then some (c.toNat - 48)
  else if 97 ≤ c.toNat ∧ c.toNat ≤ 102 then some (c.toNat - 87)
  else if 65 ≤ c.toNat ∧ c.toNat ≤ 70 then some (c.toNat - 55)
  else none

/-- The UTF-16 code units of a character. -/
def units (c : Char) : List Nat :=
  if c.toNat < 0x10000 then [c.toNat]
  else [0xd800 + (c.toNat - 0x10000) / 0x400, 0xdc00 + (c.toNat - 0x10000) % 0x400]

/-- The character with a code point. -/
def ofCodePoint (n : Nat) : Option Char := if n.isValidChar then some (Char.ofNat n) else none

/-- The text of a sequence of code units, if it is well formed. -/
def decode : List Nat → Option (List Char)
  | [] => some []
  | [u] => (ofCodePoint u).map fun c => [c]
  | u :: v :: us =>
      if 0xd800 ≤ u ∧ u < 0xdc00 then
        if 0xdc00 ≤ v ∧ v < 0xe000 then do
          let c ← ofCodePoint (0x10000 + (u - 0xd800) * 0x400 + (v - 0xdc00))
          (decode us).map (c :: ·)
        else none
      else do
        let c ← ofCodePoint u
        (decode (v :: us)).map (c :: ·)

/-! ## Writing -/

/-- A code unit inside a string. -/
def escapeUnit (u : Nat) : List Char :=
  if u = 34 then ['\\', '"']
  else if u = 92 then ['\\', '\\']
  else if u = 10 then ['\\', 'n']
  else if u = 13 then ['\\', 'r']
  else if u = 9 then ['\\', 't']
  else if u = 12 then ['\\', 'f']
  else if u = 8 then ['\\', 'b']
  else if 32 ≤ u ∧ u ≤ 126 then [Char.ofNat u]
  else ['\\', 'u', hexDigit (u / 4096 % 16), hexDigit (u / 256 % 16), hexDigit (u / 16 % 16),
    hexDigit (u % 16)]

def writeStr (s : List Char) : List Char := '"' :: ((s.flatMap units).flatMap escapeUnit ++ ['"'])

mutual

def write : Json → List Char
  | .word w => w.text
  | .str s => writeStr s
  | .arr [] => ['[', ']']
  | .arr (x :: xs) => '[' :: (write x ++ writeItems xs)
  | .obj [] => ['{', '}']
  | .obj ((k, v) :: kvs) => '{' :: (writeStr k ++ ':' :: ' ' :: write v ++ writeEntries kvs)

/-- The items after the first one, and the end of the list. -/
def writeItems : List Json → List Char
  | [] => [']']
  | x :: xs => ',' :: ' ' :: (write x ++ writeItems xs)

/-- The entries after the first one, and the end of the object. -/
def writeEntries : List (List Char × Json) → List Char
  | [] => ['}']
  | (k, v) :: kvs => ',' :: ' ' :: (writeStr k ++ ':' :: ' ' :: write v ++ writeEntries kvs)

end

/-! ## Reading -/

def skipSpaces (cs : List Char) : List Char := cs.dropWhile isSpace

/-- The character that follows a backslash, but for `u`. -/
def unescape (c : Char) : Option Nat :=
  if c = '"' then some 34
  else if c = '\\' then some 92
  else if c = '/' then some 47
  else if c = 'n' then some 10
  else if c = 'r' then some 13
  else if c = 't' then some 9
  else if c = 'f' then some 12
  else if c = 'b' then some 8
  else none

/-- The code units of a string, behind its first quote, and what follows it. -/
def readUnits : List Char → Option (List Nat × List Char)
  | [] => none
  | '"' :: cs => some ([], cs)
  | '\\' :: 'u' :: a :: b :: c :: d :: cs => do
      let a ← hexValue a
      let b ← hexValue b
      let c ← hexValue c
      let d ← hexValue d
      (readUnits cs).map (·.map ((4096 * a + 256 * b + 16 * c + d) :: ·) id)
  | '\\' :: c :: cs => do
      let u ← unescape c
      (readUnits cs).map (·.map (u :: ·) id)
  | c :: cs =>
      if c.toNat < 32 then none else (readUnits cs).map (·.map (units c ++ ·) id)

/-- A string, behind its first quote. -/
def readStr (cs : List Char) : Option (List Char × List Char) := do
  let (us, cs) ← readUnits cs
  let s ← decode us
  return (s, cs)

mutual

/-- The value at the start of a text, and what follows it. The number bounds the
depth of the calls. -/
def readValue : Nat → List Char → Option (Json × List Char)
  | 0, _ => none
  | n + 1, cs =>
      match cs with
      | '"' :: cs => (readStr cs).map fun (s, cs) => (.str s, cs)
      | '[' :: cs =>
          match skipSpaces cs with
          | ']' :: cs => some (.arr [], cs)
          | cs => do
              let (x, cs) ← readValue n cs
              let (xs, cs) ← readItems n cs
              return (.arr (x :: xs), cs)
      | '{' :: cs =>
          match skipSpaces cs with
          | '}' :: cs => some (.obj [], cs)
          | cs => do
              let (kv, cs) ← readEntry n cs
              let (kvs, cs) ← readEntries n cs
              return (.obj (kv :: kvs), cs)
      | cs => (Word.ofText? (cs.takeWhile isWordChar)).map fun w =>
          (.word w, cs.dropWhile isWordChar)

/-- The items after the first one, up to the end of the list. -/
def readItems : Nat → List Char → Option (List Json × List Char)
  | 0, _ => none
  | n + 1, cs =>
      match skipSpaces cs with
      | ']' :: cs => some ([], cs)
      | ',' :: cs => do
          let (x, cs) ← readValue n (skipSpaces cs)
          let (xs, cs) ← readItems n cs
          return (x :: xs, cs)
      | _ => none

def readEntry : Nat → List Char → Option ((List Char × Json) × List Char)
  | 0, _ => none
  | n + 1, cs =>
      match cs with
      | '"' :: cs => do
          let (k, cs) ← readStr cs
          match skipSpaces cs with
          | ':' :: cs => do
              let (v, cs) ← readValue n (skipSpaces cs)
              return ((k, v), cs)
          | _ => none
      | _ => none

/-- The entries after the first one, up to the end of the object. -/
def readEntries : Nat → List Char → Option (List (List Char × Json) × List Char)
  | 0, _ => none
  | n + 1, cs =>
      match skipSpaces cs with
      | '}' :: cs => some ([], cs)
      | ',' :: cs => do
          let (kv, cs) ← readEntry n (skipSpaces cs)
          let (kvs, cs) ← readEntries n cs
          return (kv :: kvs, cs)
      | _ => none

end

/-- The value that is the whole text. -/
def read (cs : List Char) : Option Json :=
  match readValue cs.length cs with
  | some (v, []) => some v
  | _ => none

/-! ## Strings are read back -/

theorem hexValue_hexDigit {d : Nat} (h : d < 16) : hexValue (hexDigit d) = some d := by
  have hall : ∀ d < 16, hexValue (hexDigit d) = some d := by decide
  exact hall d h

theorem readUnits_cons {c : Char} (hquote : c ≠ '"') (hslash : c ≠ '\\') (h : ¬ c.toNat < 32)
    (cs : List Char) :
    readUnits (c :: cs) = (readUnits cs).map (·.map (units c ++ ·) id) := by
  rw [readUnits]
  · rw [if_neg h]
  · exact hquote
  · exact fun _ _ _ _ _ hc => absurd hc hslash
  · exact fun _ _ hc => absurd hc hslash

theorem toNat_ofNat_of_ascii {u : Nat} (h : u ≤ 126) : (Char.ofNat u).toNat = u := by
  have hvalid : u.isValidChar := Or.inl (by omega)
  rw [Char.ofNat, dif_pos hvalid]
  rfl

theorem readUnits_escapeUnit {u : Nat} (h : u < 0x10000) (cs : List Char) :
    readUnits (escapeUnit u ++ cs) = (readUnits cs).map (·.map (u :: ·) id) := by
  unfold escapeUnit
  split_ifs with h34 h92 h10 h13 h9 h12 h8 hascii
  · subst h34; rfl
  · subst h92; rfl
  · subst h10; rfl
  · subst h13; rfl
  · subst h9; rfl
  · subst h12; rfl
  · subst h8; rfl
  · have hu : (Char.ofNat u).toNat = u := toNat_ofNat_of_ascii hascii.2
    have hunits : units (Char.ofNat u) = [u] := by
      rw [units, hu, if_pos h]
    rw [List.singleton_append, readUnits_cons, hunits]
    · rfl
    · exact fun hc => h34 (by rw [← hu, hc]; rfl)
    · exact fun hc => h92 (by rw [← hu, hc]; rfl)
    · omega
  · have hvalue : 4096 * (u / 4096 % 16) + 256 * (u / 256 % 16) + 16 * (u / 16 % 16) + u % 16 = u := by
      omega
    have hlt : ∀ n, n % 16 < 16 := fun n => Nat.mod_lt n (by decide)
    simp [readUnits, hexValue_hexDigit (hlt _), hvalue]

theorem readUnits_flatMap_escapeUnit {us : List Nat} (h : ∀ u ∈ us, u < 0x10000)
    (cs : List Char) : readUnits (us.flatMap escapeUnit ++ '"' :: cs) = some (us, cs) := by
  induction us with
  | nil => rfl
  | cons u us ih =>
    have hrest := ih fun v hv => h v (List.mem_cons_of_mem u hv)
    rw [List.flatMap_cons, List.append_assoc, readUnits_escapeUnit (h u List.mem_cons_self), hrest]
    rfl

theorem toNat_isValidChar (c : Char) :
    c.toNat < 0xd800 ∨ 0xdfff < c.toNat ∧ c.toNat < 0x110000 :=
  c.valid

theorem lt_of_mem_units {c : Char} {u : Nat} (h : u ∈ units c) : u < 0x10000 := by
  have hvalid := toNat_isValidChar c
  unfold units at h
  split_ifs at h with hc <;> simp only [List.mem_cons, List.not_mem_nil, or_false] at h <;> omega

theorem ofCodePoint_toNat (c : Char) : ofCodePoint c.toNat = some c := by
  have hvalid : c.toNat.isValidChar := c.valid
  rw [ofCodePoint, if_pos hvalid, Char.ofNat_toNat]

theorem decode_units_append (c : Char) (us : List Nat) :
    decode (units c ++ us) = (decode us).map (c :: ·) := by
  have hc := ofCodePoint_toNat c
  have hvalid := toNat_isValidChar c
  rw [units]
  split_ifs with hsmall
  · have hlow : ¬ (0xd800 ≤ c.toNat ∧ c.toNat < 0xdc00) := by omega
    cases us with
    | nil =>
      show decode [c.toNat] = some [c]
      rw [decode, hc]
      rfl
    | cons u us =>
      rw [List.singleton_append, decode, if_neg hlow, hc]
      rfl
  · generalize hn : c.toNat = n at hc hvalid hsmall ⊢
    have hhigh : 0xd800 ≤ 0xd800 + (n - 0x10000) / 0x400 ∧
        0xd800 + (n - 0x10000) / 0x400 < 0xdc00 := by omega
    have hlow : 0xdc00 ≤ 0xdc00 + (n - 0x10000) % 0x400 ∧
        0xdc00 + (n - 0x10000) % 0x400 < 0xe000 := by omega
    have hpoint : 0x10000 + (0xd800 + (n - 0x10000) / 0x400 - 0xd800) * 0x400 +
        (0xdc00 + (n - 0x10000) % 0x400 - 0xdc00) = n := by omega
    show decode (_ :: _ :: us) = _
    rw [decode, if_pos hhigh, if_pos hlow, hpoint, hc]
    rfl

theorem decode_flatMap_units (s : List Char) : decode (s.flatMap units) = some s := by
  induction s with
  | nil => rfl
  | cons c s ih => rw [List.flatMap_cons, decode_units_append, ih]; rfl

/-- A string is read back, whatever follows it. -/
theorem readStr_writeStr (s : List Char) (cs : List Char) :
    readStr ((s.flatMap units).flatMap escapeUnit ++ '"' :: cs) = some (s, cs) := by
  have hlt : ∀ u ∈ s.flatMap units, u < 0x10000 := by
    intro u hu
    obtain ⟨c, -, hc⟩ := List.mem_flatMap.mp hu
    exact lt_of_mem_units hc
  simp [readStr, readUnits_flatMap_escapeUnit hlt, decode_flatMap_units]

/-! ## Trees are read back -/

/-- A word can end here. -/
def EndsWord (cs : List Char) : Prop := ∀ c ∈ cs.head?, isWordChar c = false

theorem isWordChar_of_isSpace {c : Char} (h : isSpace c = true) : isWordChar c = false := by
  simp only [isSpace, Bool.or_eq_true, beq_iff_eq] at h
  rcases h with ((rfl | rfl) | rfl) | rfl <;> rfl

theorem head_write (v : Json) :
    ∃ c cs, write v = c :: cs ∧ isSpace c = false ∧ c ≠ ']' := by
  cases v with
  | word w =>
    obtain ⟨c, cs, hw⟩ := List.exists_cons_of_ne_nil w.nonempty
    have hc : isWordChar c = true := w.chars c (hw ▸ List.mem_cons_self)
    refine ⟨c, cs, by rw [write, hw], ?_, ?_⟩
    · exact Bool.eq_false_iff.mpr fun h => absurd hc (by rw [isWordChar_of_isSpace h]; decide)
    · rintro rfl
      exact absurd hc (by decide)
  | str s => exact ⟨'"', _, by rw [write, writeStr], rfl, by decide⟩
  | arr xs =>
    cases xs with
    | nil => exact ⟨'[', _, by rw [write], rfl, by decide⟩
    | cons x xs => exact ⟨'[', _, by rw [write], rfl, by decide⟩
  | obj kvs =>
    cases kvs with
    | nil => exact ⟨'{', _, by rw [write], rfl, by decide⟩
    | cons kv kvs => exact ⟨'{', _, by rw [write], rfl, by decide⟩

theorem skipSpaces_cons {c : Char} (h : isSpace c = false) (cs : List Char) :
    skipSpaces (c :: cs) = c :: cs := by
  rw [skipSpaces, List.dropWhile_cons, h]
  rfl

theorem skipSpaces_write (v : Json) (cs : List Char) :
    skipSpaces (write v ++ cs) = write v ++ cs := by
  obtain ⟨c, vs, hv, hspace, -⟩ := head_write v
  rw [hv, List.cons_append, skipSpaces_cons hspace]

theorem readValue_word (w : Word) (n : Nat) {cs : List Char} (h : EndsWord cs) :
    readValue (n + 1) (w.text ++ cs) = some (.word w, cs) := by
  have htake : (w.text ++ cs).takeWhile isWordChar = w.text := by
    rw [List.takeWhile_append_of_pos w.chars]
    cases cs with
    | nil => exact List.append_nil _
    | cons c cs => rw [List.takeWhile_cons, h c rfl]; exact List.append_nil _
  have hdrop : (w.text ++ cs).dropWhile isWordChar = cs := by
    rw [List.dropWhile_append_of_pos w.chars]
    cases cs with
    | nil => rfl
    | cons c cs => rw [List.dropWhile_cons, h c rfl]; rfl
  have hword : Word.ofText? w.text = some w := 
    dif_pos ⟨List.isEmpty_eq_false_iff.mpr w.nonempty, List.all_eq_true.mpr w.chars⟩
  obtain ⟨c, ws, hw⟩ := List.exists_cons_of_ne_nil w.nonempty
  have hc : isWordChar c = true := w.chars c (hw ▸ List.mem_cons_self)
  have hquote : c ≠ '"' := by rintro rfl; exact absurd hc (by decide)
  have hbracket : c ≠ '[' := by rintro rfl; exact absurd hc (by decide)
  have hbrace : c ≠ '{' := by rintro rfl; exact absurd hc (by decide)
  have hcons : w.text ++ cs = c :: (ws ++ cs) := by rw [hw, List.cons_append]
  rw [hcons] at htake hdrop ⊢
  simp [readValue, hquote, hbracket, hbrace, htake, hdrop, hword]

theorem readValue_str (s : List Char) (n : Nat) (cs : List Char) :
    readValue (n + 1) (writeStr s ++ cs) = some (.str s, cs) := by
  simp [readValue, writeStr, readStr_writeStr]

theorem readValue_arr {x : Json} {xs : List Json} {n : Nat} {ds cs : List Char}
    (hx : readValue n (write x ++ ds) = some (x, ds)) (hxs : readItems n ds = some (xs, cs)) :
    readValue (n + 1) ('[' :: (write x ++ ds)) = some (.arr (x :: xs), cs) := by
  obtain ⟨c, vs, hv, hspace, hne⟩ := head_write x
  rw [hv, List.cons_append] at hx ⊢
  simp [readValue, skipSpaces_cons hspace, hne, hx, hxs]

theorem readItems_cons {x : Json} {xs : List Json} {n : Nat} {ds cs : List Char}
    (hx : readValue n (write x ++ ds) = some (x, ds)) (hxs : readItems n ds = some (xs, cs)) :
    readItems (n + 1) (',' :: ' ' :: (write x ++ ds)) = some (x :: xs, cs) := by
  have hcomma : ∀ es, skipSpaces (',' :: es) = ',' :: es := fun _ => rfl
  have hspace : skipSpaces (' ' :: (write x ++ ds)) = write x ++ ds := skipSpaces_write x ds
  simp [readItems, hcomma, hspace, hx, hxs]

theorem readEntry_write {k : List Char} {v : Json} {n : Nat} {cs : List Char}
    (hv : readValue n (write v ++ cs) = some (v, cs)) :
    readEntry (n + 1) (writeStr k ++ ':' :: ' ' :: (write v ++ cs)) = some ((k, v), cs) := by
  have hcolon : ∀ ds, skipSpaces (':' :: ds) = ':' :: ds := fun _ => rfl
  have hspace : skipSpaces (' ' :: (write v ++ cs)) = write v ++ cs := skipSpaces_write v cs
  simp [readEntry, writeStr, readStr_writeStr, hcolon, hspace, hv]

theorem readValue_obj {kv : List Char × Json} {kvs : List (List Char × Json)} {n : Nat}
    {k es ds cs : List Char} (hkv : readEntry n (writeStr k ++ es) = some (kv, ds))
    (hkvs : readEntries n ds = some (kvs, cs)) :
    readValue (n + 1) ('{' :: (writeStr k ++ es)) = some (.obj (kv :: kvs), cs) := by
  have hquote : ∀ fs, skipSpaces ('"' :: fs) = '"' :: fs := fun _ => rfl
  rw [writeStr, List.cons_append] at hkv ⊢
  generalize (k.flatMap units).flatMap escapeUnit ++ ['"'] ++ es = fs at hkv ⊢
  simp [readValue, hquote, hkv, hkvs]

theorem readEntries_cons {kv : List Char × Json} {kvs : List (List Char × Json)} {n : Nat}
    {k es ds cs : List Char} (hkv : readEntry n (writeStr k ++ es) = some (kv, ds))
    (hkvs : readEntries n ds = some (kvs, cs)) :
    readEntries (n + 1) (',' :: ' ' :: (writeStr k ++ es)) = some (kv :: kvs, cs) := by
  have hcomma : ∀ fs, skipSpaces (',' :: fs) = ',' :: fs := fun _ => rfl
  have hspace : skipSpaces (' ' :: (writeStr k ++ es)) = writeStr k ++ es := rfl
  simp only [readEntries, hcomma, hspace, hkv, Option.bind_eq_bind, Option.bind_some, hkvs]
  rfl

theorem endsWord_writeItems (xs : List Json) (cs : List Char) :
    EndsWord (writeItems xs ++ cs) := by
  cases xs <;> (rw [writeItems]; rintro c ⟨⟩; rfl)

theorem endsWord_writeEntries (kvs : List (List Char × Json)) (cs : List Char) :
    EndsWord (writeEntries kvs ++ cs) := by
  cases kvs <;> (rw [writeEntries]; rintro c ⟨⟩; rfl)

theorem length_write_pos (v : Json) : 0 < (write v).length := by
  obtain ⟨c, cs, hv, -⟩ := head_write v
  rw [hv]
  exact Nat.succ_pos _

mutual

theorem readValue_write (v : Json) (n : Nat) (cs : List Char) (hn : (write v).length ≤ n)
    (h : EndsWord cs) : readValue n (write v ++ cs) = some (v, cs) := by
  obtain ⟨m, rfl⟩ : ∃ m, n = m + 1 :=
    Nat.exists_eq_add_one.mpr (Nat.lt_of_lt_of_le (length_write_pos v) hn)
  match v with
  | .word w => rw [write]; exact readValue_word w m h
  | .str s => rw [write]; exact readValue_str s m cs
  | .arr [] => rfl
  | .arr (x :: xs) =>
    simp only [write, List.length_cons, List.length_append] at hn
    rw [write, List.cons_append, List.append_assoc]
    have hx := readValue_write x m (writeItems xs ++ cs) (by omega) (endsWord_writeItems xs cs)
    exact readValue_arr hx (readItems_writeItems xs m cs (by omega))
  | .obj [] => rfl
  | .obj ((k, v) :: kvs) =>
    simp only [write, List.length_cons, List.length_append] at hn
    obtain ⟨m, rfl⟩ : ∃ i, m = i + 1 := Nat.exists_eq_add_one.mpr (by omega)
    simp only [write, List.cons_append, List.append_assoc]
    have hv := readValue_write v m (writeEntries kvs ++ cs) (by omega)
      (endsWord_writeEntries kvs cs)
    exact readValue_obj (readEntry_write hv)
      (readEntries_writeEntries kvs (m + 1) cs (by omega))

theorem readItems_writeItems (xs : List Json) (n : Nat) (cs : List Char)
    (hn : (writeItems xs).length ≤ n) : readItems n (writeItems xs ++ cs) = some (xs, cs) := by
  match xs with
  | [] =>
    obtain ⟨m, rfl⟩ : ∃ m, n = m + 1 := Nat.exists_eq_add_one.mpr hn
    rfl
  | x :: xs =>
    simp only [writeItems, List.length_cons, List.length_append] at hn
    obtain ⟨m, rfl⟩ : ∃ m, n = m + 1 := Nat.exists_eq_add_one.mpr (by omega)
    simp only [writeItems, List.cons_append, List.append_assoc]
    have hx := readValue_write x m (writeItems xs ++ cs) (by omega) (endsWord_writeItems xs cs)
    exact readItems_cons hx (readItems_writeItems xs m cs (by omega))

theorem readEntries_writeEntries (kvs : List (List Char × Json)) (n : Nat) (cs : List Char)
    (hn : (writeEntries kvs).length ≤ n) :
    readEntries n (writeEntries kvs ++ cs) = some (kvs, cs) := by
  match kvs with
  | [] =>
    obtain ⟨m, rfl⟩ : ∃ m, n = m + 1 := Nat.exists_eq_add_one.mpr hn
    rfl
  | (k, v) :: kvs =>
    simp only [writeEntries, List.length_cons, List.length_append] at hn
    obtain ⟨m, rfl⟩ : ∃ m, n = m + 2 := ⟨n - 2, by omega⟩
    simp only [writeEntries, List.cons_append, List.append_assoc]
    have hv := readValue_write v m (writeEntries kvs ++ cs) (by omega)
      (endsWord_writeEntries kvs cs)
    exact readEntries_cons (readEntry_write hv)
      (readEntries_writeEntries kvs (m + 1) cs (by omega))

end

/-- What is written is read back. -/
theorem read_write (v : Json) : read (write v) = some v := by
  have h := readValue_write v (write v).length [] (Nat.le_refl _) (fun _ hc => nomatch hc)
  rw [List.append_nil] at h
  rw [read, h]

/-! ## One line of printable ASCII -/

theorem isPrintable_of_isWordChar {c : Char} (h : isWordChar c = true) : isPrintable c = true := by
  simp only [isWordChar, Bool.or_eq_true, decide_eq_true_eq, beq_iff_eq] at h
  have hnat : 32 ≤ c.toNat ∧ c.toNat ≤ 126 := by
    rcases h with ((((h | h) | h) | rfl) | rfl) | rfl
    · exact ⟨Nat.le_trans (by decide) h.1, Nat.le_trans h.2 (by decide)⟩
    · exact ⟨Nat.le_trans (by decide) h.1, Nat.le_trans h.2 (by decide)⟩
    · exact ⟨Nat.le_trans (by decide) h.1, Nat.le_trans h.2 (by decide)⟩
    · decide
    · decide
    · decide
  exact decide_eq_true hnat

theorem isPrintable_hexDigit (n : Nat) : isPrintable (hexDigit (n % 16)) = true := by
  have hall : ∀ d < 16, isPrintable (hexDigit d) = true := by decide
  exact hall _ (Nat.mod_lt n (by decide))

theorem all_isPrintable_escapeUnit (u : Nat) : (escapeUnit u).all isPrintable = true := by
  have hslash : isPrintable '\\' = true := rfl
  have hu : isPrintable 'u' = true := rfl
  unfold escapeUnit
  split_ifs with h34 h92 h10 h13 h9 h12 h8 hascii
  · rfl
  · rfl
  · rfl
  · rfl
  · rfl
  · rfl
  · rfl
  · have hnat := toNat_ofNat_of_ascii hascii.2
    simp [isPrintable, hnat, hascii]
  · simp [hslash, hu, isPrintable_hexDigit]

theorem all_isPrintable_writeStr (s : List Char) : (writeStr s).all isPrintable = true := by
  have hquote : isPrintable '"' = true := rfl
  simp [writeStr, List.all_flatMap, all_isPrintable_escapeUnit, hquote]

mutual

/-- What is written is printable ASCII. -/
theorem all_isPrintable_write (v : Json) : (write v).all isPrintable = true := by
  match v with
  | .word w =>
    rw [write, List.all_eq_true]
    exact fun c hc => isPrintable_of_isWordChar (w.chars c hc)
  | .str s => rw [write, all_isPrintable_writeStr]
  | .arr [] => rfl
  | .arr (x :: xs) =>
    rw [write, List.all_cons, List.all_append, all_isPrintable_write x,
      all_isPrintable_writeItems xs]
    rfl
  | .obj [] => rfl
  | .obj ((k, v) :: kvs) =>
    simp only [write, List.all_cons, List.all_append, all_isPrintable_writeStr k,
      all_isPrintable_write v, all_isPrintable_writeEntries kvs]
    rfl

theorem all_isPrintable_writeItems (xs : List Json) :
    (writeItems xs).all isPrintable = true := by
  match xs with
  | [] => rfl
  | x :: xs =>
    simp only [writeItems, List.all_cons, List.all_append, all_isPrintable_write x,
      all_isPrintable_writeItems xs]
    rfl

theorem all_isPrintable_writeEntries (kvs : List (List Char × Json)) :
    (writeEntries kvs).all isPrintable = true := by
  match kvs with
  | [] => rfl
  | (k, v) :: kvs =>
    simp only [writeEntries, List.all_cons, List.all_append, all_isPrintable_writeStr k,
      all_isPrintable_write v, all_isPrintable_writeEntries kvs]
    rfl

end

/-! ## Lines -/

/-- The texts, each followed by a line break. -/
def unlines (ts : List (List Char)) : List Char := ts.flatMap (· ++ ['\n'])

/-- The texts that are followed by a line break. -/
def lines (cs : List Char) : List (List Char) := (cs.splitOn '\n').dropLast

theorem splitOn_unlines {ts : List (List Char)} (h : ∀ t ∈ ts, '\n' ∉ t) :
    (unlines ts).splitOn '\n' = ts ++ [[]] := by
  induction ts with
  | nil => rfl
  | cons t ts ih =>
    have hrest := ih fun t' ht => h t' (List.mem_cons_of_mem t ht)
    rw [unlines, List.flatMap_cons, List.append_assoc, List.singleton_append,
      List.splitOn_append_cons_self_of_not_mem (h t List.mem_cons_self)]
    exact congrArg (t :: ·) hrest

/-- Texts without a line break are found again in their concatenation. -/
theorem lines_unlines {ts : List (List Char)} (h : ∀ t ∈ ts, '\n' ∉ t) :
    lines (unlines ts) = ts := by
  rw [lines, splitOn_unlines h, List.dropLast_concat]

theorem newline_not_mem_write (v : Json) : '\n' ∉ write v :=
  fun h => absurd (List.all_eq_true.mp (all_isPrintable_write v) _ h) (by decide)

/-- Values written one on a line are read back line by line. -/
theorem mapM_read_lines (vs : List Json) :
    (lines (unlines (vs.map write))).mapM read = some vs := by
  have hlines : ∀ t ∈ vs.map write, '\n' ∉ t := by
    intro t ht
    obtain ⟨v, -, rfl⟩ := List.mem_map.mp ht
    exact newline_not_mem_write v
  rw [lines_unlines hlines]
  clear hlines
  induction vs with
  | nil => rfl
  | cons v vs ih => simp [read_write, ih]

end JsonText
