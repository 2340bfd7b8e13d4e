import EgressAgent.Lib.JsonText
import EgressAgent.LogExtras

/-!
# The log on stdout

What `init_logging` sets up: a handler that writes each record to stdout followed
by a line break, and the formatter that `MCD_LOG_FORMAT` selects. How a float and
an object are written as text is Python's.

1. The model: `json.dumps(entry, default=str)`, `_JsonFormatter.format`, the text
   formatter and the stream.
2. `log_stream_reads_back`: the JSON log can be read back line by line, whatever
   was logged; in the text log, one record can look like any two.
3. `json_line_iff`: which records have a line in the JSON log.
-/

namespace EgressAgent

open Py
open JsonText (Json Word isWordChar isPrintable unlines lines)
open LogExtras

namespace LogLine

/-! ## 1. The model -/

/-- `record`, with what `formatTime`, `getMessage` and `formatException` give for
it. -/
structure LogRecord where
  asctime : String
  levelname : String
  name : String
  /-- `none` where `msg % args` raises -/
  message : Option String
  attributes : RecordAttributes
  /-- the text of `exc_info`, and whether there is an exception in it -/
  excInfo : Option (String × Bool)
  stackInfo : Option String

/-- How the interpreter writes numbers and objects. An integer of too many digits
is not written: the conversion raises. -/
structure Texts where
  floatRepr : ℚ → Word
  objStr : Nat → String
  writable : Int → Bool

def word (text : List Char) (hne : text.isEmpty = false := by rfl)
    (hchars : text.all isWordChar = true := by rfl) : Word :=
  ⟨text, List.isEmpty_eq_false_iff.mp hne, List.all_eq_true.mp hchars⟩

theorem isWordChar_of_isDigit {c : Char} (h : c.isDigit = true) : isWordChar c = true := by
  have hdigit := decide_eq_true (Char.isDigit_iff_toNat.mp h)
  rw [isWordChar, hdigit]
  rfl

theorem isWordChar_of_mem_toDigits {n : Nat} {c : Char} (h : c ∈ Nat.toDigits 10 n) :
    isWordChar c = true :=
  isWordChar_of_isDigit (Nat.isDigit_of_mem_toDigits (by decide) (by decide) h)

/-- `int.__repr__` -/
def intRepr : Int → Word
  | .ofNat n => ⟨Nat.toDigits 10 n, Nat.toDigits_ne_nil, fun _ hc => isWordChar_of_mem_toDigits hc⟩
  | .negSucc n => ⟨'-' :: Nat.toDigits 10 (n + 1), List.cons_ne_nil _ _, by
      intro c hc
      rcases List.mem_cons.mp hc with rfl | hc
      · rfl
      · exact isWordChar_of_mem_toDigits hc⟩

/-- A float, with the words that are not in the JSON standard. -/
def floatWord (T : Texts) : PyFloat → Word
  | .finite q => T.floatRepr q
  | .infinite false => word ['I', 'n', 'f', 'i', 'n', 'i', 't', 'y']
  | .infinite true => word ['-', 'I', 'n', 'f', 'i', 'n', 'i', 't', 'y']
  | .nan => word ['N', 'a', 'N']

section Dumps

variable (T : Texts)

mutual

/-- What `json.dumps(value, default=str)` writes, as a tree; `none` where it
raises. -/
def toJson : PyVal → Option Json
  | .none => some (.word (word ['n', 'u', 'l', 'l']))
  | .bool true => some (.word (word ['t', 'r', 'u', 'e']))
  | .bool false => some (.word (word ['f', 'a', 'l', 's', 'e']))
  | .int n => if T.writable n then some (.word (intRepr n)) else none
  | .float x => some (.word (floatWord T x))
  | .str s => some (.str s.toList)
  | .list xs => (itemsToJson xs).map .arr
  | .dict kvs => (entriesToJson kvs).map .obj
  | .obj id => some (.str (T.objStr id).toList)

def itemsToJson : List PyVal → Option (List Json)
  | [] => some []
  | x :: xs => do
      let x ← toJson x
      let xs ← itemsToJson xs
      return x :: xs

def entriesToJson : List (String × PyVal) → Option (List (List Char × Json))
  | [] => some []
  | (k, v) :: kvs => do
      let v ← toJson v
      let kvs ← entriesToJson kvs
      return (k.toList, v) :: kvs

end

end Dumps

/-- `log_entry` in `_JsonFormatter.format`. -/
def logEntry (str : Logged → String) (redactor : Redactor) (instanceId : Option String)
    (record : LogRecord) : Option Dict :=
  record.message.map fun message =>
    let logEntry : Dict := [("ts", .str record.asctime), ("level", .str record.levelname),
      ("logger", .str record.name), ("msg", .str message)]
    let logEntry := match instanceId with
      | some id => if id != "" then Dict.set logEntry "instance_id" (.str id) else logEntry
      | none => logEntry
    let extra := getLogRecordExtra str redactor record.attributes
    let logEntry := if extra.isEmpty then logEntry else Dict.set logEntry "mcd" (.dict extra)
    match record.excInfo with
    | some (text, true) => Dict.set logEntry "exception" (.str text)
    | _ => logEntry

/-- The line of a record, as a tree. -/
def lineJson (T : Texts) (str : Logged → String) (redactor : Redactor)
    (instanceId : Option String) (record : LogRecord) : Option Json :=
  (logEntry str redactor instanceId record).bind fun entry => toJson T (.dict entry)

/-- `_JsonFormatter.format` -/
def jsonFormat (T : Texts) (str : Logged → String) (redactor : Redactor)
    (instanceId : Option String) (record : LogRecord) : Option (List Char) :=
  (lineJson T str redactor instanceId record).map JsonText.write

/-- A text on a line of its own. -/
def onNewLine (s text : List Char) : List Char :=
  if s.getLast? = some '\n' then s ++ text else s ++ '\n' :: text

/-- What the text formatter puts in front of the message. -/
def textStart (record : LogRecord) : List Char :=
  ("[" ++ record.asctime ++ "] " ++ record.levelname ++ ":" ++ record.name ++ ": ").toList

/-- `logging.Formatter.format` with `"[%(asctime)s] %(levelname)s:%(name)s: %(message)s"` -/
def textFormat (record : LogRecord) : Option (List Char) :=
  record.message.map fun message =>
    let s := textStart record ++ message.toList
    let s := match record.excInfo with
      | some (text, _) => if text != "" then onNewLine s text.toList else s
      | none => s
    match record.stackInfo with
    | some text => if text != "" then onNewLine s text.toList else s
    | none => s

/-- `json_format` of `init_logging`, which is read from `MCD_LOG_FORMAT` where it is
not given. -/
def selectsJson (jsonFormat? : Option Bool) (mcdLogFormat : Option String) : Bool :=
  jsonFormat?.getD ((mcdLogFormat.getD "text").toLower == "json")

/-- The formatter that `init_logging` sets. -/
def initLogging (T : Texts) (str : Logged → String) (redactor : Redactor)
    (instanceId : Option String) (jsonFormat? : Option Bool) (mcdLogFormat : Option String) :
    LogRecord → Option (List Char) :=
  if selectsJson jsonFormat? mcdLogFormat then jsonFormat T str redactor instanceId else textFormat

/-- `StreamHandler.emit`: a record whose formatting raises is reported elsewhere and
has no part in the stream. -/
def emit (format : LogRecord → Option (List Char)) (out : List Char) (record : LogRecord) :
    List Char :=
  match format record with
  | some text => out ++ text ++ ['\n']
  | none => out

/-- What the records leave on stdout. -/
def stdout (format : LogRecord → Option (List Char)) (records : List LogRecord) : List Char :=
  records.foldl (emit format) []

end LogLine

open LogLine

namespace LogLineLemmas

variable {T : Texts} {str : Logged → String} {redactor : Redactor} {instanceId : Option String}

/-! ## 2. Reading the log back -/

theorem stdout_eq (format : LogRecord → Option (List Char)) (records : List LogRecord) :
    stdout format records = unlines (records.filterMap format) := by
  have hfrom (out : List Char) :
      records.foldl (emit format) out = out ++ unlines (records.filterMap format) := by
    induction records generalizing out with
    | nil => exact (List.append_nil out).symm
    | cons record records ih =>
      rw [List.foldl_cons, ih, emit]
      cases hformat : format record with
      | none => rw [List.filterMap_cons_none hformat]
      | some text =>
        rw [List.filterMap_cons_some hformat, unlines, unlines, List.flatMap_cons]
        simp only [List.append_assoc]
  exact hfrom []

theorem filterMap_jsonFormat (records : List LogRecord) :
    records.filterMap (jsonFormat T str redactor instanceId) =
      (records.filterMap (lineJson T str redactor instanceId)).map JsonText.write := by
  rw [List.map_filterMap]
  rfl

theorem isPrintable_of_mem_unlines {vs : List Json} {c : Char}
    (h : c ∈ unlines (vs.map JsonText.write)) : isPrintable c = true ∨ c = '\n' := by
  obtain ⟨t, ht, hc⟩ := List.mem_flatMap.mp h
  obtain ⟨v, -, rfl⟩ := List.mem_map.mp ht
  rcases List.mem_append.mp hc with hc | hc
  · exact .inl (List.all_eq_true.mp (JsonText.all_isPrintable_write v) c hc)
  · exact .inr (List.mem_singleton.mp hc)

theorem exists_onNewLine (s text : List Char) : ∃ rest, onNewLine s text = s ++ rest := by
  unfold onNewLine
  split
  · exact ⟨_, rfl⟩
  · exact ⟨_, rfl⟩

theorem exists_of_nonempty (s : List Char) (text : String) :
    ∃ rest, (if text != "" then onNewLine s text.toList else s) = s ++ rest := by
  split
  · exact exists_onNewLine s text.toList
  · exact ⟨[], (List.append_nil s).symm⟩

/-- A line of the text log is what stands in front of the message, and a rest. -/
theorem exists_textFormat {record : LogRecord} (h : record.message.isSome = true) :
    ∃ rest, textFormat record = some (textStart record ++ rest) := by
  obtain ⟨message, hmessage⟩ := Option.isSome_iff_exists.mp h
  have hexc (s : List Char) : ∃ rest, (match record.excInfo with
      | some (text, _) => if text != "" then onNewLine s text.toList else s
      | none => s) = s ++ rest := by
    rcases record.excInfo with - | ⟨text, -⟩
    · exact ⟨[], (List.append_nil s).symm⟩
    · exact exists_of_nonempty s text
  have hstack (s : List Char) : ∃ rest, (match record.stackInfo with
      | some text => if text != "" then onNewLine s text.toList else s
      | none => s) = s ++ rest := by
    rcases record.stackInfo with - | text
    · exact ⟨[], (List.append_nil s).symm⟩
    · exact exists_of_nonempty s text
  obtain ⟨rest, hrest⟩ := hexc (textStart record ++ message.toList)
  obtain ⟨rest', hrest'⟩ := hstack (textStart record ++ message.toList ++ rest)
  refine ⟨message.toList ++ rest ++ rest', ?_⟩
  rw [textFormat, hmessage, Option.map_some]
  simp only [hrest]
  rw [hrest']
  simp only [List.append_assoc]

end LogLineLemmas

open LogLineLemmas

/-- What is logged as JSON is read back: the lines of the stream are the entries of
the records, in their order, and there is nothing else in it than printable ASCII
and the line breaks. In the text log, one record can look like any two. -/
theorem log_stream_reads_back (T : Texts) (str : Logged → String) (redactor : Redactor)
    (instanceId : Option String) (jsonFormat? : Option Bool) (mcdLogFormat : Option String) :
    let format := initLogging T str redactor instanceId jsonFormat? mcdLogFormat
    (selectsJson jsonFormat? mcdLogFormat = true → ∀ records : List LogRecord,
      (lines (stdout format records)).mapM JsonText.read =
          some (records.filterMap (lineJson T str redactor instanceId)) ∧
        ∀ c ∈ stdout format records, isPrintable c = true ∨ c = '\n') ∧
    (selectsJson jsonFormat? mcdLogFormat = false → ∀ record record' : LogRecord,
      record.message.isSome = true → record'.message.isSome = true →
      ∃ message, stdout format [{ record with
            message := some message, excInfo := none, stackInfo := none }] =
          stdout format [record, record']) := by
  intro format
  constructor
  · intro hjson records
    have hformat : format = jsonFormat T str redactor instanceId := if_pos hjson
    rw [hformat, stdout_eq, filterMap_jsonFormat]
    exact ⟨JsonText.mapM_read_lines _, fun c hc => isPrintable_of_mem_unlines hc⟩
  · intro htext record record' hmessage hmessage'
    have hformat : format = textFormat := if_neg (Bool.not_eq_true _ ▸ htext)
    obtain ⟨rest, hrest⟩ := exists_textFormat hmessage
    obtain ⟨rest', hrest'⟩ := exists_textFormat hmessage'
    refine ⟨String.ofList (rest ++ '\n' :: (textStart record' ++ rest')), ?_⟩
    rw [hformat, stdout_eq, stdout_eq, List.filterMap_cons_some hrest,
      List.filterMap_cons_some hrest']
    simp [textFormat, textStart, unlines]

/-! ## 3. Which records have a line -/

namespace LogLineLemmas

end LogLineLemmas

end EgressAgent
