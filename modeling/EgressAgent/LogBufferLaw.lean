import EgressAgent.LogBuffer

/-!
# What the log buffer returns

`InProcessLogShippingHandler` under any calls of `emit`, `drain` and `peek`, in
the order in which they take its lock. The buffer evicts without a count and the
count is kept beside it; `HandlerInv` says how the two belong together.

`buffer_law`: a drain returns the newest of the records appended since the last
one, as many as the buffer can hold, after a report of how many there were
before them, and each record is shipped or counted by one drain. A `peek`
returns the first of these records if and only if its limit is at most
`sys.maxsize`. `peek_beyond_maxsize`: for a larger limit it raises.
-/

namespace EgressAgent

open Py Transition
open LogBuffer LogBufferLemmas

namespace LogBuffer

/-- A completed `drain`. -/
structure Drain where
  timestamp : String
  /-- the records appended since the drain before -/
  segment : List LogRecord
  output : List LogEntry

structure LawState where
  handler : LogHandler
  nextIdent : Nat
  /-- the records appended since the last drain -/
  sinceDrain : List LogRecord
  drains : List Drain
  /-- every record that reached the buffer, in order -/
  captured : List LogRecord

inductive LawAction
  /-- `emit`: whether it is re-entered, and the dictionary it builds or the
  exception that building it raises -/
  | emit (inEmit : Bool) (shipped : Except PyExc Dict)
  | peek (limit : Int)
  | drain (timestamp : String)

def lawStep (s : LawState) : LawAction → Option LawState
  | .emit inEmit shipped =>
      if inEmit then some s
      else match shipped with
        | .ok fields =>
          let r : LogRecord := ⟨s.nextIdent, fields⟩
          some { s with
            handler := s.handler.capture r
            nextIdent := s.nextIdent + 1
            sinceDrain := s.sinceDrain ++ [r]
            captured := s.captured ++ [r] }
        | .error _ => some s
  -- `peek` returns or raises, and leaves the handler as it is.
  | .peek _ => some s
  | .drain timestamp =>
      some { s with
        handler := s.handler.afterDrain
        sinceDrain := []
        drains := s.drains ++ [⟨timestamp, s.sinceDrain, s.handler.drained timestamp⟩] }

/-- A handler with a buffer of the given size and its callers. -/
def sharedLog (bufferSize : Nat) : System LawState LawAction where
  init :=
    { handler := .new bufferSize, nextIdent := 0, sinceDrain := [], drains := [], captured := [] }
  step := lawStep

/-- The last `min(bufferSize, k)` of `k` records. -/
def newest (bufferSize : Nat) (segment : List LogRecord) : List LogRecord :=
  segment.drop (segment.length - min bufferSize segment.length)

/-- The records before them. -/
def overflowed (bufferSize : Nat) (segment : List LogRecord) : List LogRecord :=
  segment.take (segment.length - min bufferSize segment.length)

/-- The newest records of the segment, after a report of the number of the
others where there are any. -/
def drainOf (bufferSize : Nat) (timestamp : String) (segment : List LogRecord) : List LogEntry :=
  (if bufferSize < segment.length then
    [.overflow timestamp (segment.length - min bufferSize segment.length)] else []) ++
    (newest bufferSize segment).map .shipped

/-- What the calls of the handler return in a state, and have returned. -/
structure BufferLaw (bufferSize : Nat) (s : LawState) : Prop where
  /-- the buffer is never larger than its size -/
  bound : s.handler.buffer.items.length ≤ bufferSize
  drain : ∀ timestamp, s.handler.drained timestamp = drainOf bufferSize timestamp s.sinceDrain
  /-- a drain leaves an empty buffer and no count -/
  emptied : s.handler.afterDrain = .new bufferSize
  /-- a `peek` returns the first of the newest records for the limits that
  `itertools.islice` takes, and for no others -/
  peek : ∀ limit : Int,
    s.handler.peek limit = .ok ((newest bufferSize s.sinceDrain).take (max limit 0).toNat) ↔
      limit ≤ sysMaxsize
  /-- a `peek` changes nothing -/
  peeked : ∀ limit, lawStep s (.peek limit) = some s
  /-- the records, in order, by the drain that follows them -/
  captured : s.captured = s.drains.flatMap Drain.segment ++ s.sinceDrain
  nodup : s.captured.Nodup
  /-- a drain ships or counts each record of its segment -/
  drains : ∀ d ∈ s.drains, d.output = drainOf bufferSize d.timestamp d.segment ∧
    overflowed bufferSize d.segment ++ records d.output = d.segment

end LogBuffer

namespace LogBufferLemmas

variable {bufferSize : Nat} {s s' : LawState} {a : LawAction}

/-- The buffer holds the newest records since the last drain, and the count is
the number of the others. -/
structure HandlerInv (bufferSize : Nat) (s : LawState) : Prop where
  maxlen : s.handler.buffer.maxlen = bufferSize
  buffer : s.handler.buffer.HoldsNewest s.sinceDrain
  count : s.handler.droppedCount = s.sinceDrain.length - bufferSize

theorem handlerInv_capture (hi : HandlerInv bufferSize s) (r : LogRecord) :
    HandlerInv bufferSize { s with
      handler := s.handler.capture r, sinceDrain := s.sinceDrain ++ [r] } := by
  refine ⟨hi.maxlen, BoundedDeque.append_newest hi.buffer r, ?_⟩
  have hfull := hi.buffer.isFull_iff
  rw [hi.maxlen] at hfull
  simp only [LogHandler.capture, hi.count, hfull, List.length_append, List.length_singleton]
  split <;> omega

theorem handlerInv_step (hi : HandlerInv bufferSize s) (hs : lawStep s a = some s') :
    HandlerInv bufferSize s' := by
  cases a with
  | emit inEmit shipped =>
    cases inEmit with
    | true =>
      cases hs
      exact hi
    | false =>
      cases shipped with
      | error e =>
        cases hs
        exact hi
      | ok fields =>
        cases hs
        have hnew := handlerInv_capture hi ⟨s.nextIdent, fields⟩
        exact ⟨hnew.maxlen, hnew.buffer, hnew.count⟩
  | peek limit =>
    cases hs
    exact hi
  | drain timestamp =>
    cases hs
    exact ⟨hi.maxlen, BoundedDeque.empty_newest _, (Nat.zero_sub _).symm⟩

theorem newest_eq (bufferSize : Nat) (segment : List LogRecord) :
    newest bufferSize segment = segment.drop (segment.length - bufferSize) := by
  unfold newest
  congr 1
  omega

theorem HandlerInv.items (hi : HandlerInv bufferSize s) :
    s.handler.buffer.items = newest bufferSize s.sinceDrain := by
  rw [newest_eq, ← hi.maxlen]
  exact hi.buffer

theorem HandlerInv.drained (hi : HandlerInv bufferSize s) (timestamp : String) :
    s.handler.drained timestamp = drainOf bufferSize timestamp s.sinceDrain := by
  have hcount : s.handler.droppedCount =
      s.sinceDrain.length - min bufferSize s.sinceDrain.length := by
    rw [hi.count]
    omega
  have hiff : 0 < s.handler.droppedCount ↔ bufferSize < s.sinceDrain.length := by
    rw [hi.count]
    omega
  unfold LogHandler.drained drainOf
  simp only [hi.items, hiff]
  rw [hcount]

theorem HandlerInv.peek_iff (hi : HandlerInv bufferSize s) (limit : Int) :
    s.handler.peek limit = .ok ((newest bufferSize s.sinceDrain).take (max limit 0).toNat) ↔
      limit ≤ sysMaxsize := by
  have hzero : (0 : Int) ≤ sysMaxsize := by decide
  by_cases hlimit : limit ≤ sysMaxsize
  · have hstop : max limit 0 ≤ sysMaxsize := max_le hlimit hzero
    simp only [LogHandler.peek, hstop, if_true, hi.items, hlimit]
  · have hstop : ¬ max limit 0 ≤ sysMaxsize := fun h => hlimit ((le_max_left limit 0).trans h)
    simp only [LogHandler.peek, hstop, if_false, hlimit, reduceCtorEq]

theorem records_drainOf (timestamp : String) (segment : List LogRecord) :
    records (drainOf bufferSize timestamp segment) = newest bufferSize segment :=
  records_shipped _ (by split <;> rfl) _

/-- The records, in order, by the drain that follows them. -/
structure SegmentInv (bufferSize : Nat) (s : LawState) : Prop where
  captured : s.captured = s.drains.flatMap Drain.segment ++ s.sinceDrain
  fresh : ∀ r ∈ s.captured, r.ident < s.nextIdent
  nodup : s.captured.Nodup
  drains : ∀ d ∈ s.drains, d.output = drainOf bufferSize d.timestamp d.segment

theorem handlerInv_init : HandlerInv bufferSize (sharedLog bufferSize).init :=
  ⟨rfl, BoundedDeque.empty_newest _, (Nat.zero_sub _).symm⟩

theorem segmentInv_init : SegmentInv bufferSize (sharedLog bufferSize).init :=
  ⟨rfl, List.forall_mem_nil _, List.nodup_nil, List.forall_mem_nil _⟩

theorem segmentInv_step (hh : HandlerInv bufferSize s) (hi : SegmentInv bufferSize s)
    (hs : lawStep s a = some s') : SegmentInv bufferSize s' := by
  cases a with
  | emit inEmit shipped =>
    cases inEmit with
    | true =>
      cases hs
      exact hi
    | false =>
      cases shipped with
      | error e =>
        cases hs
        exact hi
      | ok fields =>
        cases hs
        obtain ⟨hfresh, hnodup⟩ := fresh_append hi.fresh hi.nodup fields
        refine ⟨?_, hfresh, hnodup, hi.drains⟩
        rw [hi.captured, List.append_assoc]
  | peek limit =>
    cases hs
    exact hi
  | drain timestamp =>
    cases hs
    refine ⟨?_, hi.fresh, hi.nodup, fun d hd => ?_⟩
    · rw [List.flatMap_append, List.flatMap_singleton, List.append_nil]
      exact hi.captured
    · rcases List.mem_append.mp hd with hd | hd
      · exact hi.drains d hd
      · rw [List.mem_singleton.mp hd]
        exact hh.drained timestamp

end LogBufferLemmas

/-- In every run of any callers, for every size of the buffer: a drain returns
the newest of the records since the last drain, preceded by a report of the
number of the others exactly if there are others, and leaves nothing behind; a
`peek` changes nothing, and returns the first of the newest if and only if its
limit is at most `sys.maxsize`; and every captured record is in the segment of one drain, which ships
or counts it, or was captured since the last drain. -/
theorem buffer_law (bufferSize : Nat) {s : LawState} (h : (sharedLog bufferSize).Reachable s) :
    BufferLaw bufferSize s := by
  have hi : HandlerInv bufferSize s ∧ SegmentInv bufferSize s := by
    refine h.invariant (I := fun s => HandlerInv bufferSize s ∧ SegmentInv bufferSize s) ?_ ?_
    · exact ⟨handlerInv_init, segmentInv_init⟩
    · exact fun s a s' hi _ hs => ⟨handlerInv_step hi.1 hs, segmentInv_step hi.1 hi.2 hs⟩
  obtain ⟨hh, hsegments⟩ := hi
  refine ⟨?_, hh.drained, ?_, hh.peek_iff, fun _ => rfl, hsegments.captured, hsegments.nodup,
    fun d hd => ⟨hsegments.drains d hd, ?_⟩⟩
  · exact hh.maxlen ▸ s.handler.buffer.length_le
  · rw [LogHandler.afterDrain, BoundedDeque.clear, hh.maxlen]
    rfl
  · rw [hsegments.drains d hd, records_drainOf]
    exact List.take_append_drop _ _

/-- Two records in a buffer for one. -/
def overflowRun : List LawAction :=
  [.emit false (.ok [("message", .str "first")]), .peek (-1), .emit false (.ok [("message", .str "second")])]

/-- The rule at a buffer for one record, to which two were appended. -/
theorem buffer_law_overflow :
    ∃ s, (sharedLog 1).exec (sharedLog 1).init overflowRun = some s ∧
      s.handler.drained "now" = [.overflow "now" 1, .shipped ⟨1, [("message", .str "second")]⟩] :=
  ⟨_, rfl, (buffer_law 1 (System.reachable_of_exec (l := overflowRun) rfl)).drain "now"⟩

/-- For a limit beyond `sys.maxsize` a `peek` of one record raises. -/
theorem peek_beyond_maxsize :
    ∃ s, (sharedLog 1).Reachable s ∧ s.sinceDrain.length = 1 ∧
      s.handler.peek (2 ^ 63) = .error sliceBoundError :=
  ⟨_, System.reachable_of_exec (l := [.emit false (.ok [("message", .str "first")])]) rfl, rfl, rfl⟩

end EgressAgent
