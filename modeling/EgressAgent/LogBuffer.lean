import Mathlib.Algebra.Order.Group.Multiset
import Mathlib.Data.List.Perm.Basic
import Mathlib.Data.Multiset.UnionInter
import Mathlib.Tactic.Abel
import EgressAgent.Lib.BoundedDeque
import EgressAgent.Lib.System
import EgressAgent.Dispatch

/-!
# The log buffer and its flushes

`InProcessLogShippingHandler` under the periodic `_flush_logs`. Every `emit`
that gets as far as the buffer makes one new dictionary, so that captured
records are told apart by their identity, whatever they hold.

1. The handler, and `flushLogs_posts_drained`: a flush posts what it drained.
2. `conserved`: every captured record is in exactly one place, among them the
   bodies of the POSTs that failed.
3. `no_record_lost_iff`: no captured record is lost throughout a run if and only
   if every POST that carries one is accepted.
-/

namespace EgressAgent

open Py Effect Transition
open BackendClient (Attempt decidingAttempt)

namespace LogBuffer

/-! ## 1. The handler -/

/-- The dictionary `shipped` of one `emit`. -/
structure LogRecord where
  ident : Nat
  fields : Dict

/-- An element of a drained list: the overflow warning or a captured record. -/
inductive LogEntry
  | overflow (timestamp : String) (droppedCount : Nat)
  | shipped (r : LogRecord)

def LogEntry.toDict : LogEntry → Dict
  | .overflow timestamp droppedCount =>
      [("timestamp", .str timestamp),
        ("message", .str s!"In-process log buffer overflow: {droppedCount} oldest records dropped")]
  | .shipped r => r.fields

def LogEntry.record? : LogEntry → Option LogRecord
  | .overflow _ _ => none
  | .shipped r => some r

/-- `InProcessLogShippingHandler`. -/
structure LogHandler where
  buffer : BoundedDeque LogRecord
  droppedCount : Nat

def LogHandler.new (bufferSize : Nat) : LogHandler := ⟨.empty bufferSize, 0⟩

/-- The section of `emit` under the lock. -/
def LogHandler.capture (h : LogHandler) (r : LogRecord) : LogHandler where
  droppedCount := if h.buffer.isFull then h.droppedCount + 1 else h.droppedCount
  buffer := h.buffer.append r

/-- What `drain` returns. -/
def LogHandler.drained (timestamp : String) (h : LogHandler) : List LogEntry :=
  (if 0 < h.droppedCount then [.overflow timestamp h.droppedCount] else []) ++
    h.buffer.items.map .shipped

/-- What `drain` leaves. -/
def LogHandler.afterDrain (h : LogHandler) : LogHandler := ⟨h.buffer.clear, 0⟩

/-- `sys.maxsize` -/
def sysMaxsize : Int := 2 ^ 63 - 1

/-- What `itertools.islice` raises for a bound that it cannot take. -/
def sliceBoundError : PyExc :=
  ⟨"ValueError",
    "Stop argument for islice() must be None or an integer: 0 <= x <= sys.maxsize."⟩

/-- `peek`. -/
def LogHandler.peek (h : LogHandler) (limit : Int) : Except PyExc (List LogRecord) :=
  let stop := max limit 0
  if stop ≤ sysMaxsize then .ok (h.buffer.items.take stop.toNat) else .error sliceBoundError

/-- The limit of `peek`, for a value that need not be a number: `max` compares
it with 0, and `islice` takes integers only. -/
def peekLimit : PyVal → Except PyExc Int
  | .int limit => .ok limit
  | .bool b => .ok (if b then 1 else 0)
  | .float x => if x.negative then .ok 0 else .error sliceBoundError
  | v => .error ⟨"TypeError", s!"'>' not supported between instances of 'int' and '{v.typeName}'"⟩

/-- `InProcessLogsService` on a handler. -/
def inProcessLogsService (timestamp : String) (h : LogHandler) : LogsService where
  getLogs limit := do
    let limit ← peekLimit limit
    let records ← h.peek limit
    return records.map fun r => .dict r.fields
  supportsDrain := true
  drain := .ok ((h.drained timestamp).map fun entry => .dict entry.toDict)

/-- The body of the POST of a flush. -/
def logsBody (logs : List LogEntry) : PyVal :=
  .dict [("logs", .list (logs.map fun entry => .dict entry.toDict))]

/-- The count of the overflow warning goes up by what the buffer bound pushes
out. -/
theorem capture_droppedCount (h : LogHandler) (r : LogRecord) :
    (h.capture r).droppedCount = h.droppedCount + (h.buffer.evicted r).length := by
  rw [BoundedDeque.length_evicted, LogHandler.capture]
  split <;> rfl

/-- A flush posts what it drained, and nothing where there was nothing. -/
theorem flushLogs_posts_drained (env : Env) (service : Service) (h : LogHandler)
    (timestamp : String) (event : PyVal) (w : World)
    (hs : service.logsService = some (inProcessLogsService timestamp h)) :
    (after (flushLogs env service event) w).posts =
      if (h.drained timestamp).isEmpty then w.posts
      else w.posts ++ [(pathLogs, logsBody (h.drained timestamp))] := by
  cases hd : h.drained timestamp with
  | nil => simp [after, flushLogs, hs, inProcessLogsService, hd, bind_run]
  | cons entry rest =>
    simp [after, flushLogs, hs, inProcessLogsService, hd, bind_run, post, logsBody]

/-! ## 2. Where the records are -/

structure BufferState where
  handler : LogHandler
  nextIdent : Nat
  /-- The lists that flushes in progress have drained and not posted yet. -/
  flushes : List (List LogEntry)
  /-- The bodies that the backend has accepted. -/
  accepted : List (List LogEntry)
  /-- Every record that reached the buffer, in order. -/
  captured : List LogRecord
  /-- The records that the buffer bound pushed out. -/
  evicted : List LogRecord
  /-- The records in the bodies of failed POSTs. -/
  lost : List LogRecord

inductive BufferAction
  /-- `emit`: whether it is re-entered, and the dictionary it builds or the
  exception that building it raises -/
  | emit (inEmit : Bool) (shipped : Except PyExc Dict)
  /-- `_flush_logs`, the drain -/
  | flush (timestamp : String)
  /-- the POST of the flush number `i` -/
  | post (i : Nat) (attempts : Nat → Attempt)

def records (logs : List LogEntry) : List LogRecord := logs.filterMap LogEntry.record?

def emitStep (s : BufferState) (fields : Dict) : BufferState :=
  let r : LogRecord := ⟨s.nextIdent, fields⟩
  { s with
    handler := s.handler.capture r
    nextIdent := s.nextIdent + 1
    captured := s.captured ++ [r]
    evicted := s.evicted ++ s.handler.buffer.evicted r }

/-- The drain of `_flush_logs`, which returns at once where it got nothing. -/
def flushStep (s : BufferState) (timestamp : String) : BufferState :=
  let logs := s.handler.drained timestamp
  { s with
    handler := s.handler.afterDrain
    flushes := if logs.isEmpty then s.flushes else s.flushes ++ [logs] }

/-- The end of `_flush_logs`, which ignores what `execute_operation` returns. -/
def postStep (s : BufferState) (i : Nat) (logs : List LogEntry) (attempts : Nat → Attempt) :
    BufferState :=
  if BackendClient.accepts attempts then
    { s with flushes := s.flushes.eraseIdx i, accepted := s.accepted ++ [logs] }
  else { s with flushes := s.flushes.eraseIdx i, lost := s.lost ++ records logs }

def bufferStep (s : BufferState) : BufferAction → Option BufferState
  | .emit inEmit shipped =>
      if inEmit then some s
      else match shipped with
        | .ok fields => some (emitStep s fields)
        -- `handleError` drops the record before it reaches the buffer.
        | .error _ => some s
  | .flush timestamp => some (flushStep s timestamp)
  | .post i attempts => s.flushes[i]?.map fun logs => postStep s i logs attempts

/-- A handler with a buffer of the given size, before the first record. -/
def logBuffer (bufferSize : Nat) : System BufferState BufferAction where
  init :=
    { handler := .new bufferSize, nextIdent := 0, flushes := [], accepted := [], captured := [],
      evicted := [], lost := [] }
  step := bufferStep

/-- The places a captured record may be in. -/
def places (s : BufferState) : Multiset LogRecord :=
  ↑s.evicted + ↑s.handler.buffer.items + ↑(s.flushes.flatMap records) +
    ↑(s.accepted.flatMap records) + ↑s.lost

/-- Every captured record is in exactly one place. -/
structure Conserved (s : BufferState) : Prop where
  places : (s.captured : Multiset LogRecord) = places s
  fresh : ∀ r ∈ s.captured, r.ident < s.nextIdent
  nodup : s.captured.Nodup

end LogBuffer

open LogBuffer

namespace LogBufferLemmas

/-- The records of a drained list, whether or not a report precedes them. -/
theorem records_shipped (overflow : List LogEntry) (h : overflow.filterMap LogEntry.record? = [])
    (l : List LogRecord) : records (overflow ++ l.map .shipped) = l := by
  rw [records, List.filterMap_append, h, List.nil_append]
  induction l with
  | nil => rfl
  | cons r l ih => simp [LogEntry.record?, ih]

theorem records_drained (h : LogHandler) (timestamp : String) :
    records (h.drained timestamp) = h.buffer.items :=
  records_shipped _ (by split <;> rfl) _

/-- A new record keeps the captured ones apart. -/
theorem fresh_append {captured : List LogRecord} {nextIdent : Nat}
    (hfresh : ∀ r ∈ captured, r.ident < nextIdent) (hnodup : captured.Nodup) (fields : Dict) :
    (∀ r ∈ captured ++ [LogRecord.mk nextIdent fields], r.ident < nextIdent + 1) ∧
      (captured ++ [LogRecord.mk nextIdent fields]).Nodup := by
  refine ⟨fun r hr => ?_, List.nodup_append.mpr ⟨hnodup, List.nodup_singleton _, ?_⟩⟩
  · rcases List.mem_append.mp hr with h | h
    · exact Nat.lt_succ_of_lt (hfresh r h)
    · rw [List.mem_singleton.mp h]
      exact Nat.lt_succ_self _
  · rintro r₁ h₁ r₂ h₂ rfl
    rw [List.mem_singleton.mp h₂] at h₁
    exact Nat.lt_irrefl _ (hfresh _ h₁)

theorem conserved_emit {s : BufferState} (hi : Conserved s) (fields : Dict) :
    Conserved (emitStep s fields) := by
  let r : LogRecord := ⟨s.nextIdent, fields⟩
  have hlaw : ((s.handler.buffer.evicted r : List LogRecord) : Multiset LogRecord) +
      ↑(s.handler.buffer.append r).items = ↑s.handler.buffer.items + ↑[r] := by
    rw [Multiset.coe_add, Multiset.coe_add, BoundedDeque.evicted_append]
  obtain ⟨hfresh, hnodup⟩ := fresh_append hi.fresh hi.nodup fields
  refine ⟨?_, hfresh, hnodup⟩
  · have hplaces := hi.places
    simp only [places, emitStep, LogHandler.capture, ← Multiset.coe_add] at hplaces ⊢
    rw [hplaces]
    calc _ = (s.evicted : Multiset LogRecord) + (↑s.handler.buffer.items + ↑[r]) +
          ↑(s.flushes.flatMap records) + ↑(s.accepted.flatMap records) + ↑s.lost := by abel
      _ = _ := by
        rw [← hlaw]
        abel

theorem conserved_flush {s : BufferState} (hi : Conserved s) (timestamp : String) :
    Conserved (flushStep s timestamp) := by
  have hheld : ((flushStep s timestamp).flushes.flatMap records : Multiset LogRecord) =
      ↑(s.flushes.flatMap records) + ↑s.handler.buffer.items := by
    have hd := records_drained s.handler timestamp
    cases hl : s.handler.drained timestamp with
    | nil =>
      rw [hl] at hd
      simp [flushStep, hl, ← hd, records]
    | cons entry rest =>
      rw [← hd]
      simp [flushStep, hl, ← Multiset.coe_add]
  refine ⟨?_, hi.fresh, hi.nodup⟩
  have hplaces := hi.places
  simp only [places, hheld] at hplaces ⊢
  simp only [flushStep, LogHandler.afterDrain, BoundedDeque.clear_items, Multiset.coe_nil, add_zero]
  rw [hplaces]
  abel

theorem conserved_post {s : BufferState} (hi : Conserved s) {i : Nat} {logs : List LogEntry}
    (hl : s.flushes[i]? = some logs) (attempts : Nat → Attempt) :
    Conserved (postStep s i logs attempts) := by
  have hheld : ((s.flushes.flatMap records : List LogRecord) : Multiset LogRecord) =
      ↑(records logs) + ↑((s.flushes.eraseIdx i).flatMap records) := by
    obtain ⟨hlt, rfl⟩ := List.getElem?_eq_some_iff.mp hl
    rw [Multiset.coe_add, ← List.flatMap_cons, Multiset.coe_eq_coe]
    exact ((List.getElem_cons_eraseIdx_perm hlt).flatMap_right records).symm
  have hplaces := hi.places
  simp only [places, hheld] at hplaces
  unfold postStep
  split
  · refine ⟨?_, hi.fresh, hi.nodup⟩
    simp only [places, List.flatMap_append, List.flatMap_singleton, ← Multiset.coe_add]
    rw [hplaces]
    abel
  · refine ⟨?_, hi.fresh, hi.nodup⟩
    simp only [places, ← Multiset.coe_add]
    rw [hplaces]
    abel

end LogBufferLemmas

open LogBufferLemmas

/-- A step leaves every captured record in exactly one place. -/
theorem conserved_step {s s' : BufferState} {a : BufferAction} (hi : Conserved s)
    (hs : bufferStep s a = some s') : Conserved s' := by
  cases a with
  | emit inEmit shipped =>
    cases inEmit with
    | true =>
      cases hs
      exact hi
    | false =>
      cases shipped with
      | ok fields =>
        cases hs
        exact conserved_emit hi fields
      | error e =>
        cases hs
        exact hi
  | flush timestamp =>
    cases hs
    exact conserved_flush hi timestamp
  | post i attempts =>
    obtain ⟨logs, hl, rfl⟩ := Option.map_eq_some_iff.mp hs
    exact conserved_post hi hl attempts

theorem conserved (bufferSize : Nat) {s : BufferState} (h : (logBuffer bufferSize).Reachable s) :
    Conserved s := by
  refine h.invariant ?_ ?_
  · exact ⟨rfl, nofun, List.nodup_nil⟩
  · exact fun s a s' hi _ hs => conserved_step hi hs

/-! ## 3. Which records are lost -/

/-- Every captured record that the buffer bound did not push out is in the
buffer, held by a flush in progress, or in a body that the backend accepted. -/
def NoneLost (s : BufferState) : Prop :=
  ∀ r ∈ s.captured, r ∈ s.evicted ∨ r ∈ s.handler.buffer.items ∨
    (∃ logs ∈ s.flushes, r ∈ records logs) ∨ ∃ logs ∈ s.accepted, r ∈ records logs

/-- A POST whose body carries a captured record is accepted. -/
def CarriedAccepted (s : BufferState) (a : BufferAction) : Prop :=
  ∀ i attempts logs, a = .post i attempts → s.flushes[i]? = some logs → records logs ≠ [] →
    BackendClient.accepts attempts = true

namespace LogBufferLemmas

/-- The places other than the failed POSTs. -/
theorem mem_kept {s : BufferState} {r : LogRecord} :
    r ∈ (↑s.evicted + ↑s.handler.buffer.items + ↑(s.flushes.flatMap records) +
      ↑(s.accepted.flatMap records) : Multiset LogRecord) ↔
      r ∈ s.evicted ∨ r ∈ s.handler.buffer.items ∨
        (∃ logs ∈ s.flushes, r ∈ records logs) ∨ ∃ logs ∈ s.accepted, r ∈ records logs := by
  simp only [Multiset.mem_add, Multiset.mem_coe, List.mem_flatMap, or_assoc]

/-- A record in the body of a failed POST is nowhere else. -/
theorem noneLost_iff {s : BufferState} (hi : Conserved s) : NoneLost s ↔ s.lost = [] := by
  have hmem (r : LogRecord) : r ∈ s.captured ↔ r ∈ places s := by
    rw [← hi.places, Multiset.mem_coe]
  constructor
  · intro hnone
    have hnodup : (places s).Nodup := hi.places ▸ Multiset.coe_nodup.mpr hi.nodup
    -- `lost` is the last of the places, so it meets none of the others.
    have hdisjoint := Multiset.disjoint_of_nodup_add hnodup
    refine List.eq_nil_iff_forall_not_mem.mpr fun r hr => ?_
    have hcaptured : r ∈ s.captured := (hmem r).mpr (Multiset.mem_add.mpr (.inr hr))
    exact Multiset.disjoint_left.mp hdisjoint (mem_kept.mpr (hnone r hcaptured)) hr
  · intro hlost r hr
    rcases Multiset.mem_add.mp ((hmem r).mp hr) with h | h
    · exact mem_kept.mp h
    · rw [hlost] at h
      cases h

/-- Only a POST that is not accepted loses records. -/
theorem lost_step {s s' : BufferState} {a : BufferAction} (hs : bufferStep s a = some s') :
    (CarriedAccepted s a → s'.lost = s.lost) ∧ (¬ CarriedAccepted s a → s'.lost ≠ []) := by
  cases a with
  | emit inEmit shipped =>
    have hok : CarriedAccepted s (.emit inEmit shipped) := nofun
    refine ⟨fun _ => ?_, fun h => absurd hok h⟩
    cases inEmit <;> cases shipped <;> cases hs <;> rfl
  | flush timestamp =>
    have hok : CarriedAccepted s (.flush timestamp) := nofun
    refine ⟨fun _ => ?_, fun h => absurd hok h⟩
    cases hs
    rfl
  | post i attempts =>
    obtain ⟨logs, hl, rfl⟩ := Option.map_eq_some_iff.mp hs
    cases ha : BackendClient.accepts attempts with
    | true =>
      refine ⟨fun _ => by simp [postStep, ha], fun h => absurd ?_ h⟩
      rintro _ _ _ ⟨⟩ _ _
      exact ha
    | false =>
      simp only [postStep, ha, Bool.false_eq_true, if_false]
      constructor
      · intro hok
        have hnone : records logs = [] := by
          by_contra hne
          rw [hok i attempts logs rfl hl hne] at ha
          cases ha
        rw [hnone, List.append_nil]
      · intro hbad hlost
        refine hbad ?_
        rintro _ _ logs' ⟨⟩ hl' hne
        rw [hl, Option.some.injEq] at hl'
        subst hl'
        exact absurd (List.append_eq_nil_iff.mp hlost).2 hne

end LogBufferLemmas

/-- No captured record is lost in any state of a run if and only if, along the
run, every POST whose body carries a captured record is accepted. -/
theorem no_record_lost_iff (bufferSize : Nat) {l : List BufferAction} {s : BufferState}
    (h : (logBuffer bufferSize).exec (logBuffer bufferSize).init l = some s) :
    (logBuffer bufferSize).Throughout NoneLost (logBuffer bufferSize).init l ↔
      (logBuffer bufferSize).Along CarriedAccepted (logBuffer bufferSize).init l := by
  refine System.throughout_iff_along (J := fun s => Conserved s ∧ s.lost = []) ?_ ?_ ?_ ?_ h
  · exact fun s hi => (noneLost_iff hi.1).mpr hi.2
  · exact fun s a s' hi hok hs => ⟨conserved_step hi.1 hs, ((lost_step hs).1 hok).trans hi.2⟩
  · exact fun s a s' hi hbad hs hnone =>
      (lost_step hs).2 hbad ((noneLost_iff (conserved_step hi.1 hs)).mp hnone)
  · exact ⟨⟨rfl, nofun, List.nodup_nil⟩, rfl⟩

/-- A record, a flush and its POST. -/
def flushRun (attempts : Nat → Attempt) : List BufferAction :=
  [.emit false (.ok [("message", .str "connected")]), .flush "", .post 0 attempts]

/-- The rule at a flush that the backend accepts. -/
theorem no_record_lost_iff_accepted :
    (logBuffer 10000).Throughout NoneLost (logBuffer 10000).init
      (flushRun fun _ => okAnswer (.dict [("ok", .bool true)])) := by
  refine (no_record_lost_iff 10000 rfl).mpr ?_
  refine ⟨nofun, fun _ _ => ⟨nofun, fun _ _ => ⟨?_, fun _ _ => trivial⟩⟩⟩
  rintro i attempts logs ⟨⟩ _ _
  rfl

/-- A backend that answers 503 to every attempt: the drained record is neither
in the buffer nor accepted, and no flush holds it any more. -/
theorem failed_post_loses_record :
    ∃ s, (logBuffer 10000).Reachable s ∧ s.evicted = [] ∧ s.handler.buffer.items = [] ∧
      s.flushes = [] ∧ s.accepted = [] ∧ ¬ NoneLost s := by
  refine ⟨_, System.reachable_of_exec (l := flushRun fun _ =>
    .response ⟨503, "Service Unavailable", "http://backend", .ok .none⟩) rfl, rfl, rfl, rfl, rfl, ?_⟩
  intro hnone
  rcases hnone ⟨0, [("message", .str "connected")]⟩ (List.mem_singleton_self _) with
    h | h | ⟨_, h, _⟩ | ⟨_, h, _⟩
  all_goals cases h

end EgressAgent
