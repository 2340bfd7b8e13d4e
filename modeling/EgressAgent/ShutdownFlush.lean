import Mathlib.Data.List.Pairwise
import EgressAgent.LogBufferLaw
import EgressAgent.Shutdown

/-!
# The flush at shutdown

`_stop_logs_service` on an `InProcessLogsService` whose calls all succeed: it
drains the handler, detaches it from the root logger and posts what it drained.
Other threads go on logging between any two of its steps, and may drain the
handler as well.

1. `stopStep_cleanup`: the steps are those of the cleanup.
2. `flush_strands_none_iff`: the flush strands no record if and only if, before
   the detachment, no record is accepted by a full buffer, and at the detachment
   none has been accepted since the last drain.
   `record_between_drain_and_close`: one that comes between the drain and the
   detachment is stranded.
-/

namespace EgressAgent

open Py Transition
open LogBuffer LogBufferLemmas

namespace ShutdownFlush

/-! ## 1. The steps -/

/-- The control points of `_stop_logs_service`. -/
inductive StopPc
  | draining
  | closing (pendingLogs : List LogEntry)
  | posting (pendingLogs : List LogEntry)
  /-- it has returned after a POST of the logs, or without one where there are
  none -/
  | returned (pendingLogs : List LogEntry)

/-- `pending_logs` -/
def StopPc.pendingLogs : StopPc → List LogEntry
  | .draining => []
  | .closing pendingLogs => pendingLogs
  | .posting pendingLogs => pendingLogs
  | .returned pendingLogs => pendingLogs

def StopPc.hasReturned : StopPc → Bool
  | .returned _ => true
  | _ => false

/-- `close()` has not detached the handler. -/
def StopPc.beforeDetachment : StopPc → Bool
  | .draining => true
  | .closing _ => true
  | _ => false

structure FlushState where
  /-- the handler, the records it accepted and the drains of all callers -/
  log : LawState
  /-- the logging calls that have found the handler among those of the root
  logger and are not past its `emit` -/
  emitting : Nat
  stopper : StopPc
  /-- the handler as it was when `close()` detached it -/
  detached : Option LawState
  /-- what the drains of the other callers returned before the detachment -/
  earlier : List (List LogEntry)

inductive FlushAction
  /-- a logging call finds the handler -/
  | callHandlers
  /-- the `emit` of such a call -/
  | emit (inEmit : Bool) (shipped : Except PyExc Dict)
  /-- a drain by another caller, such as a flush that is still under way -/
  | drain (timestamp : String)
  | stopDrain (timestamp : String)
  | stopClose
  | stopPost

/-- The handler up to its detachment. -/
def FlushState.untilDetached (s : FlushState) : LawState := s.detached.getD s.log

/-- The list of a drain by another caller, as far as it is before the
detachment. -/
def FlushState.recordDrain (s : FlushState) (timestamp : String) : List (List LogEntry) :=
  match s.detached with
  | none => s.earlier ++ [s.log.handler.drained timestamp]
  | some _ => s.earlier

def shutdownFlushStep (s : FlushState) : FlushAction → Option FlushState
  | .callHandlers => if s.detached.isNone then some { s with emitting := s.emitting + 1 } else none
  | .emit inEmit shipped =>
      if s.emitting = 0 then none
      else (lawStep s.log (.emit inEmit shipped)).map fun log =>
        { s with log := log, emitting := s.emitting - 1 }
  | .drain timestamp =>
      (lawStep s.log (.drain timestamp)).map fun log =>
        { s with log := log, earlier := s.recordDrain timestamp }
  | .stopDrain timestamp =>
      match s.stopper with
      | .draining =>
          (lawStep s.log (.drain timestamp)).map fun log =>
            { s with log := log, stopper := .closing (s.log.handler.drained timestamp) }
      | _ => none
  | .stopClose =>
      match s.stopper with
      | .closing pendingLogs =>
          some { s with
            detached := some s.log
            stopper := if pendingLogs.isEmpty then .returned [] else .posting pendingLogs }
      | _ => none
  | .stopPost =>
      match s.stopper with
      | .posting pendingLogs => some { s with stopper := .returned pendingLogs }
      | _ => none

/-- The moves of the shutdown: one constructor for each way out of
`shutdownFlushStep`. -/
inductive FlushMove (s : FlushState) : FlushAction → FlushState → Prop
  | callHandlers : s.detached = none →
      FlushMove s .callHandlers { s with emitting := s.emitting + 1 }
  | emit {inEmit : Bool} {shipped : Except PyExc Dict} {log : LawState} :
      lawStep s.log (.emit inEmit shipped) = some log →
      FlushMove s (.emit inEmit shipped) { s with log := log, emitting := s.emitting - 1 }
  | drain {timestamp : String} {log : LawState} : lawStep s.log (.drain timestamp) = some log →
      FlushMove s (.drain timestamp) { s with log := log, earlier := s.recordDrain timestamp }
  | stopDrain {timestamp : String} {log : LawState} : s.stopper = .draining →
      lawStep s.log (.drain timestamp) = some log →
      FlushMove s (.stopDrain timestamp)
        { s with log := log, stopper := .closing (s.log.handler.drained timestamp) }
  | stopClose {pendingLogs : List LogEntry} : s.stopper = .closing pendingLogs →
      FlushMove s .stopClose { s with
        detached := some s.log
        stopper := if pendingLogs.isEmpty then .returned [] else .posting pendingLogs }
  | stopPost {pendingLogs : List LogEntry} : s.stopper = .posting pendingLogs →
      FlushMove s .stopPost { s with stopper := .returned pendingLogs }

/-- A handler with a buffer of the given size at the call of
`_stop_logs_service`, whose callers may have come before. -/
def shutdownFlush (bufferSize : Nat) : System FlushState FlushAction where
  init :=
    { log := (sharedLog bufferSize).init, emitting := 0, stopper := .draining, detached := none,
      earlier := [] }
  step := shutdownFlushStep

/-- The control point in the cleanup. -/
def StopPc.toCleanup : StopPc → Shutdown.CleanupPc
  | .draining => .drainLogs
  | .closing pendingLogs => .closeLogs (pendingLogs.map fun entry => .dict entry.toDict)
  | .posting pendingLogs => .postLogs (pendingLogs.map fun entry => .dict entry.toDict)
  | .returned _ => .kill

/-- What the cleanup gets from the handler and the backend. -/
def FlushAction.toInput (s : FlushState) (attempt : BackendClient.Attempt) :
    FlushAction → Option Shutdown.CleanupInput
  | .stopDrain timestamp => some (.drained (inProcessLogsService timestamp s.log.handler).drain)
  | .stopClose => some (.closed (.ok ()))
  | .stopPost => some (.posted attempt)
  | _ => none

/-! ## 2. What is stranded -/

/-- The record is in the body that `_stop_logs_service` posts or in a list that
an earlier drain returned. -/
def Returned (s : FlushState) (r : LogRecord) : Prop :=
  r ∈ records s.stopper.pendingLogs ∨ ∃ logs ∈ s.earlier, r ∈ records logs

/-- Every record that the handler accepted before its detachment was returned,
and none is in its buffer. -/
def NoneStranded (s : FlushState) : Prop :=
  ∀ r ∈ s.untilDetached.captured, Returned s r ∧ r ∉ s.log.handler.buffer.items

/-- Before the detachment a record is accepted only where fewer than the size of
the buffer were since the last drain, and at the detachment none was. -/
structure NothingBetween (bufferSize : Nat) (s : FlushState) (a : FlushAction) : Prop where
  emit : ∀ fields, a = .emit false (.ok fields) → s.detached = none →
    s.log.sinceDrain.length < bufferSize
  close : a = .stopClose → s.log.sinceDrain = []

end ShutdownFlush

open ShutdownFlush

namespace ShutdownFlushLemmas

theorem shutdownFlushStep_move {s s' : FlushState} {a : FlushAction}
    (hs : shutdownFlushStep s a = some s') : FlushMove s a s' := by
  cases a with
  | callHandlers =>
    obtain ⟨hnone, hs⟩ := Option.ite_none_right_eq_some.mp hs
    cases hs
    exact .callHandlers (Option.isNone_iff_eq_none.mp hnone)
  | emit inEmit shipped =>
    obtain ⟨-, hs⟩ := Option.ite_none_left_eq_some.mp hs
    obtain ⟨log, hlog, rfl⟩ := Option.map_eq_some_iff.mp hs
    exact .emit hlog
  | drain timestamp =>
    cases hs
    exact .drain rfl
  | stopDrain timestamp =>
    cases hpc : s.stopper with
    | draining =>
      rw [shutdownFlushStep, hpc] at hs
      obtain ⟨log, hlog, rfl⟩ := Option.map_eq_some_iff.mp hs
      exact .stopDrain hpc hlog
    | _ => simp [shutdownFlushStep, hpc] at hs
  | stopClose =>
    cases hpc : s.stopper with
    | closing pendingLogs =>
      rw [shutdownFlushStep, hpc] at hs
      cases hs
      exact .stopClose hpc
    | _ => simp [shutdownFlushStep, hpc] at hs
  | stopPost =>
    cases hpc : s.stopper with
    | posting pendingLogs =>
      rw [shutdownFlushStep, hpc] at hs
      cases hs
      exact .stopPost hpc
    | _ => simp [shutdownFlushStep, hpc] at hs

end ShutdownFlushLemmas

open ShutdownFlushLemmas

/-- The steps of `_stop_logs_service` are those of the cleanup, with the drain
of the handler, and no other step moves it. -/
theorem stopStep_cleanup (cfg : Shutdown.ShutdownConfig) (attempt : BackendClient.Attempt)
    {s s' : FlushState} {a : FlushAction} (hs : shutdownFlushStep s a = some s') :
    match a.toInput s attempt with
    | some i => (Shutdown.cleanupStep cfg s.stopper.toCleanup i).map Prod.fst =
        some s'.stopper.toCleanup
    | none => s'.stopper = s.stopper := by
  cases shutdownFlushStep_move hs with
  | callHandlers => rfl
  | emit => rfl
  | drain => rfl
  | stopDrain hpc =>
    rw [hpc]
    rfl
  | @stopClose pendingLogs hpc =>
    rw [hpc]
    cases pendingLogs <;> rfl
  | stopPost hpc =>
    rw [hpc]
    rfl

namespace ShutdownFlushLemmas

variable {bufferSize : Nat} {s s' : FlushState} {a : FlushAction}

/-- The handler follows the law of the buffer, now and as it was detached, and
the lists that were returned are those of its drains. -/
structure FlushInv (bufferSize : Nat) (s : FlushState) : Prop where
  handler : HandlerInv bufferSize s.log
  segments : SegmentInv bufferSize s.log
  before : SegmentInv bufferSize s.untilDetached
  drains : s.untilDetached.drains ⊆ s.log.drains
  returned : ∀ r, Returned s r ↔ ∃ d ∈ s.untilDetached.drains, r ∈ records d.output
  attached : s.detached = none ↔ s.stopper.beforeDetachment = true

theorem untilDetached_of_none (h : s.detached = none) : s.untilDetached = s.log := by
  rw [FlushState.untilDetached, h, Option.getD_none]

theorem untilDetached_of_some {d : LawState} (h : s.detached = some d) : s.untilDetached = d := by
  rw [FlushState.untilDetached, h, Option.getD_some]

/-- An `emit` leaves the drains as they are. -/
theorem drains_emit {log log' : LawState} {inEmit : Bool} {shipped : Except PyExc Dict}
    (hs : lawStep log (.emit inEmit shipped) = some log') : log'.drains = log.drains := by
  cases inEmit <;> cases shipped <;> cases hs <;> rfl

theorem drains_subset {log log' : LawState} {a : LawAction} (hs : lawStep log a = some log') :
    log.drains ⊆ log'.drains := by
  cases a with
  | emit inEmit shipped => exact (drains_emit hs).symm ▸ List.Subset.refl _
  | peek limit =>
    cases hs
    exact List.Subset.refl _
  | drain timestamp =>
    cases hs
    exact List.subset_append_left _ _

/-- The records of one more drain. -/
theorem mem_drains_append {drains : List Drain} {d : Drain} {r : LogRecord} :
    (∃ d₁ ∈ drains ++ [d], r ∈ records d₁.output) ↔
      (∃ d₁ ∈ drains, r ∈ records d₁.output) ∨ r ∈ records d.output := by
  simp [or_and_right, exists_or]

/-- A step of the handler keeps the invariant, where it keeps the account of
what was returned. -/
theorem flushInv_of_lawStep {a : LawAction} (hi : FlushInv bufferSize s)
    (hlog : lawStep s.log a = some s'.log) (hdetached : s'.detached = s.detached)
    (hpc : s'.stopper.beforeDetachment = s.stopper.beforeDetachment)
    (hreturned : ∀ r, Returned s' r ↔ ∃ d ∈ s'.untilDetached.drains, r ∈ records d.output) :
    FlushInv bufferSize s' := by
  have hsegments := segmentInv_step hi.handler hi.segments hlog
  refine ⟨handlerInv_step hi.handler hlog, hsegments, ?_, ?_, hreturned, ?_⟩
  · cases hd : s.detached with
    | none => exact (untilDetached_of_none (hdetached.trans hd)).symm ▸ hsegments
    | some d =>
      rw [untilDetached_of_some (hdetached.trans hd), ← untilDetached_of_some hd]
      exact hi.before
  · cases hd : s.detached with
    | none => exact (untilDetached_of_none (hdetached.trans hd)).symm ▸ List.Subset.refl _
    | some d =>
      rw [untilDetached_of_some (hdetached.trans hd), ← untilDetached_of_some hd]
      exact List.Subset.trans hi.drains (drains_subset hlog)
  · rw [hdetached, hpc]
    exact hi.attached

theorem flushInv_step (hi : FlushInv bufferSize s) (hs : shutdownFlushStep s a = some s') :
    FlushInv bufferSize s' := by
  cases shutdownFlushStep_move hs with
  | callHandlers => exact ⟨hi.handler, hi.segments, hi.before, hi.drains, hi.returned, hi.attached⟩
  | emit hlog =>
    refine flushInv_of_lawStep hi hlog rfl rfl fun r => (hi.returned r).trans ?_
    cases hd : s.detached <;> simp [FlushState.untilDetached, hd, drains_emit hlog]
  | @drain timestamp log hlog =>
    refine flushInv_of_lawStep hi hlog rfl rfl fun r => ?_
    have hbefore := hi.returned r
    cases hlog
    cases hd : s.detached with
    | none =>
      simp only [FlushState.untilDetached, hd, Option.getD_none] at hbefore ⊢
      rw [mem_drains_append, ← hbefore]
      simp [Returned, FlushState.recordDrain, hd, or_and_right, exists_or, or_assoc]
    | some d =>
      simp only [FlushState.untilDetached, hd, Option.getD_some] at hbefore ⊢
      rw [← hbefore]
      simp [Returned, FlushState.recordDrain, hd]
  | @stopDrain timestamp log hpc hlog =>
    refine flushInv_of_lawStep hi hlog rfl (by rw [hpc]; rfl) fun r => ?_
    have hbefore := hi.returned r
    have hd : s.detached = none := hi.attached.mpr (by rw [hpc]; rfl)
    cases hlog
    simp only [FlushState.untilDetached, hd, Option.getD_none] at hbefore ⊢
    rw [mem_drains_append, ← hbefore]
    -- Before its drain `_stop_logs_service` has no pending logs.
    simp [Returned, hpc, StopPc.pendingLogs, records, or_comm]
  | @stopClose pendingLogs hpc =>
    have hd : s.detached = none := hi.attached.mpr (by rw [hpc]; rfl)
    refine ⟨hi.handler, hi.segments, hi.segments, List.Subset.refl _, fun r => ?_, ?_⟩
    · have hbefore := hi.returned r
      simp only [FlushState.untilDetached, hd, Option.getD_none, Option.getD_some] at hbefore ⊢
      rw [← hbefore]
      cases pendingLogs <;> simp [Returned, hpc, StopPc.pendingLogs]
    · cases pendingLogs <;> simp [StopPc.beforeDetachment]
  | stopPost hpc =>
    refine ⟨hi.handler, hi.segments, hi.before, hi.drains, fun r => ?_, ?_⟩
    · have hbefore := hi.returned r
      rw [Returned, hpc] at hbefore
      exact hbefore
    · have hattached := hi.attached
      rw [hpc] at hattached
      exact hattached

/-- No drain before the detachment had more records to return than the buffer
can hold, and none was left for later. -/
structure Kept (bufferSize : Nat) (s : FlushState) : Prop where
  segments : ∀ d ∈ s.untilDetached.drains, d.segment.length ≤ bufferSize
  rest : s.untilDetached.sinceDrain.length ≤ if s.detached.isNone then bufferSize else 0

theorem kept_attached (hd : s.detached = none) : Kept bufferSize s ↔
    (∀ d ∈ s.log.drains, d.segment.length ≤ bufferSize) ∧
      s.log.sinceDrain.length ≤ bufferSize := by
  rw [← untilDetached_of_none hd]
  exact ⟨fun h => ⟨h.segments, by simpa [hd] using h.rest⟩, fun h => ⟨h.1, by simpa [hd] using h.2⟩⟩

theorem kept_detached {log : LawState} (hd : s.detached = some log) : Kept bufferSize s ↔
    (∀ d ∈ log.drains, d.segment.length ≤ bufferSize) ∧ log.sinceDrain = [] := by
  rw [← untilDetached_of_some hd]
  exact ⟨fun h => ⟨h.segments, by simpa [hd] using h.rest⟩, fun h => ⟨h.1, by simp [hd, h.2]⟩⟩

/-- An `emit` keeps every record if and only if the buffer has room for it. -/
theorem kept_emit {inEmit : Bool} {shipped : Except PyExc Dict} {log : LawState}
    (hd : s.detached = none) (hlog : lawStep s.log (.emit inEmit shipped) = some log) :
    Kept bufferSize { s with log := log, emitting := s.emitting - 1 } ↔
      Kept bufferSize s ∧ NothingBetween bufferSize s (.emit inEmit shipped) := by
  have hclose : FlushAction.emit inEmit shipped ≠ .stopClose := nofun
  rw [kept_attached hd, kept_attached (s := { s with log := log, emitting := s.emitting - 1 }) hd]
  cases inEmit with
  | true =>
    cases hlog
    exact (and_iff_left ⟨nofun, fun h => absurd h hclose⟩).symm
  | false =>
    cases shipped with
    | error e =>
      cases hlog
      exact (and_iff_left ⟨nofun, fun h => absurd h hclose⟩).symm
    | ok fields =>
      cases hlog
      have hok : NothingBetween bufferSize s (.emit false (.ok fields)) ↔
          s.log.sinceDrain.length < bufferSize :=
        ⟨fun h => h.emit fields rfl hd, fun h => ⟨fun _ _ _ => h, fun h => absurd h hclose⟩⟩
      rw [hok, and_assoc, List.length_append, List.length_singleton]
      exact and_congr_right fun _ => by omega

/-- A drain keeps every record. -/
theorem kept_drain {timestamp : String} {log : LawState} (hd : s.detached = none)
    (hlog : lawStep s.log (.drain timestamp) = some log) (hlog' : s'.log = log)
    (hd' : s'.detached = none) : Kept bufferSize s' ↔ Kept bufferSize s := by
  rw [kept_attached hd, kept_attached hd', hlog']
  cases hlog
  simp [or_imp, forall_and]

theorem kept_step (hi : FlushInv bufferSize s) (hs : shutdownFlushStep s a = some s') :
    Kept bufferSize s' ↔ Kept bufferSize s ∧ NothingBetween bufferSize s a := by
  cases shutdownFlushStep_move hs with
  | callHandlers hnone =>
    rw [and_iff_left ⟨nofun, nofun⟩]
    exact ⟨fun h => ⟨h.segments, h.rest⟩, fun h => ⟨h.segments, h.rest⟩⟩
  | @emit inEmit shipped log hlog =>
    cases hd : s.detached with
    | none => simpa only [hd] using kept_emit hd hlog
    | some log₀ =>
      have hok : NothingBetween bufferSize s (.emit inEmit shipped) :=
        ⟨fun _ _ hnone => absurd (hd.symm.trans hnone) (Option.some_ne_none log₀), nofun⟩
      rw [and_iff_left hok, kept_detached hd]
      exact kept_detached rfl
  | @drain timestamp log hlog =>
    rw [and_iff_left ⟨nofun, nofun⟩]
    cases hd : s.detached with
    | none => exact kept_drain hd hlog rfl rfl
    | some log₀ =>
      rw [kept_detached hd]
      exact kept_detached rfl
  | stopDrain hpc hlog =>
    have hd : s.detached = none := hi.attached.mpr (by rw [hpc]; rfl)
    rw [and_iff_left ⟨nofun, nofun⟩]
    exact kept_drain hd hlog rfl hd
  | stopClose hpc =>
    have hd : s.detached = none := hi.attached.mpr (by rw [hpc]; rfl)
    have hok : NothingBetween bufferSize s .stopClose ↔ s.log.sinceDrain = [] :=
      ⟨fun h => h.close rfl, fun h => ⟨nofun, fun _ => h⟩⟩
    rw [hok, kept_attached hd, kept_detached rfl, and_assoc]
    refine and_congr_right fun _ => ⟨fun h => ⟨?_, h⟩, And.right⟩
    rw [h]
    exact Nat.zero_le _
  | stopPost hpc =>
    rw [and_iff_left ⟨nofun, nofun⟩]
    exact ⟨fun h => ⟨h.segments, h.rest⟩, fun h => ⟨h.segments, h.rest⟩⟩

theorem SegmentInv.records_output {log : LawState} (h : SegmentInv bufferSize log) {d : Drain}
    (hd : d ∈ log.drains) : records d.output = d.segment.drop (d.segment.length - bufferSize) := by
  rw [h.drains d hd, records_drainOf, newest_eq]

/-- A record of one drain is not of another, and not one since the last. -/
theorem SegmentInv.disjoint {log : LawState} (h : SegmentInv bufferSize log) :
    (∀ d ∈ log.drains, d.segment.Nodup ∧ d.segment.Disjoint log.sinceDrain) ∧
      ∀ d₁ ∈ log.drains, ∀ d₂ ∈ log.drains, d₁ ≠ d₂ → d₁.segment.Disjoint d₂.segment := by
  have hnodup := h.nodup
  rw [h.captured, List.nodup_append'] at hnodup
  obtain ⟨hsegments, -, hrest⟩ := hnodup
  obtain ⟨hone, hpairs⟩ := List.nodup_flatMap.mp hsegments
  refine ⟨fun d hd => ⟨hone d hd, fun r hr => ?_⟩, fun d₁ h₁ d₂ h₂ hne => ?_⟩
  · exact hrest (List.mem_flatMap.mpr ⟨d, hd, hr⟩)
  · have : Std.Symm (Function.onFun List.Disjoint Drain.segment) := ⟨fun _ _ h => h.symm⟩
    exact hpairs.forall h₁ h₂ hne

/-- The oldest of more records than the buffer can hold is not among those that
it holds. -/
theorem exists_dropped {segment : List LogRecord} (hnodup : segment.Nodup)
    (hlong : bufferSize < segment.length) :
    ∃ r ∈ segment, r ∉ segment.drop (segment.length - bufferSize) := by
  cases segment with
  | nil => exact absurd hlong (Nat.not_lt_zero _)
  | cons r rest =>
    refine ⟨r, List.mem_cons_self, fun hmem => (List.nodup_cons.mp hnodup).1 ?_⟩
    rw [List.length_cons, Nat.succ_sub (Nat.lt_succ_iff.mp hlong), List.drop_succ_cons] at hmem
    exact List.mem_of_mem_drop hmem

/-- The drains return every record if and only if none had more than the buffer
can hold and none was left for later. -/
theorem all_returned_iff {log : LawState} (h : SegmentInv bufferSize log) :
    (∀ r ∈ log.captured, ∃ d ∈ log.drains, r ∈ records d.output) ↔
      (∀ d ∈ log.drains, d.segment.length ≤ bufferSize) ∧ log.sinceDrain = [] := by
  obtain ⟨hone, hpairs⟩ := SegmentInv.disjoint h
  rw [h.captured]
  constructor
  · intro hall
    refine ⟨fun d hd => ?_, List.eq_nil_iff_forall_not_mem.mpr fun r hr => ?_⟩
    · by_contra hlong
      obtain ⟨r, hr, hdropped⟩ := exists_dropped (hone d hd).1 (Nat.lt_of_not_ge hlong)
      obtain ⟨d', hd', hout⟩ := hall r (List.mem_append_left _ (List.mem_flatMap.mpr ⟨d, hd, hr⟩))
      rw [SegmentInv.records_output h hd'] at hout
      rcases eq_or_ne d' d with rfl | hne
      · exact hdropped hout
      · exact hpairs d' hd' d hd hne (List.mem_of_mem_drop hout) hr
    · obtain ⟨d, hd, hout⟩ := hall r (List.mem_append_right _ hr)
      rw [SegmentInv.records_output h hd] at hout
      exact (hone d hd).2 (List.mem_of_mem_drop hout) hr
  · rintro ⟨hshort, hrest⟩ r hr
    rw [hrest, List.append_nil] at hr
    obtain ⟨d, hd, hr⟩ := List.mem_flatMap.mp hr
    refine ⟨d, hd, ?_⟩
    rw [SegmentInv.records_output h hd, Nat.sub_eq_zero_of_le (hshort d hd)]
    exact hr

theorem noneStranded_iff_kept (hi : FlushInv bufferSize s) (hend : s.stopper.hasReturned = true) :
    NoneStranded s ↔ Kept bufferSize s := by
  obtain ⟨log, hd⟩ : ∃ log, s.detached = some log := by
    refine Option.ne_none_iff_exists'.mp fun hnone => ?_
    have hbefore := hi.attached.mp hnone
    cases hpc : s.stopper <;> simp_all [StopPc.hasReturned, StopPc.beforeDetachment]
  have hbefore := hi.before
  rw [untilDetached_of_some hd] at hbefore
  rw [kept_detached hd, ← all_returned_iff hbefore]
  unfold NoneStranded
  simp only [hi.returned, untilDetached_of_some hd]
  refine ⟨fun h r hr => (h r hr).1, fun h r hr => ⟨h r hr, fun hleft => ?_⟩⟩
  -- A record that a drain returned is not among those since the last one.
  obtain ⟨d, hdrain, hout⟩ := h r hr
  rw [SegmentInv.records_output hbefore hdrain] at hout
  rw [hi.handler.items, newest_eq] at hleft
  have hdrains := hi.drains
  rw [untilDetached_of_some hd] at hdrains
  exact ((SegmentInv.disjoint hi.segments).1 d (hdrains hdrain)).2 (List.mem_of_mem_drop hout)
    (List.mem_of_mem_drop hleft)

theorem flushInv_init : FlushInv bufferSize (shutdownFlush bufferSize).init := by
  refine ⟨handlerInv_init, segmentInv_init, segmentInv_init, List.Subset.refl _, fun r => ?_,
    iff_of_true rfl rfl⟩
  simp [Returned, shutdownFlush, StopPc.pendingLogs, records, FlushState.untilDetached, sharedLog]

theorem kept_init : Kept bufferSize (shutdownFlush bufferSize).init :=
  ⟨List.forall_mem_nil _, Nat.zero_le _⟩

end ShutdownFlushLemmas

/-- A finished flush strands no record, neither by returning it to nobody nor by
leaving it in the detached buffer, if and only if, along its run, before the
detachment no record was accepted by a buffer that held as many as it can, and
at the detachment none had been accepted since the last drain. -/
theorem flush_strands_none_iff (bufferSize : Nat) {l : List FlushAction} {s : FlushState}
    (h : (shutdownFlush bufferSize).exec (shutdownFlush bufferSize).init l = some s)
    (hend : s.stopper.hasReturned = true) :
    NoneStranded s ↔
      (shutdownFlush bufferSize).Along (NothingBetween bufferSize)
        (shutdownFlush bufferSize).init l := by
  have hi : FlushInv bufferSize s :=
    (System.reachable_of_exec h).invariant flushInv_init fun _ _ _ hi _ hs => flushInv_step hi hs
  rw [noneStranded_iff_kept hi hend]
  refine System.along_iff_of_step (J := FlushInv bufferSize) ?_ ?_ flushInv_init kept_init h
  · exact fun s a s' hi hs => flushInv_step hi hs
  · exact fun s a s' hi hs => kept_step hi hs

/-- The condition, where it can be tested. -/
def nothingBetweenTest (bufferSize : Nat) (s : FlushState) : FlushAction → Bool
  | .emit _ _ => s.log.sinceDrain.length < bufferSize
  | .stopClose => s.log.sinceDrain.isEmpty
  | _ => true

theorem ShutdownFlushLemmas.nothingBetween_of_test {bufferSize : Nat} {s : FlushState}
    {a : FlushAction} (h : nothingBetweenTest bufferSize s a = true) :
    NothingBetween bufferSize s a := by
  constructor
  · rintro fields rfl -
    exact of_decide_eq_true h
  · rintro rfl
    exact List.isEmpty_iff.mp h

/-- A record that an earlier flush drains, one that `_stop_logs_service` drains,
and the shutdown. -/
def quietRun : List FlushAction :=
  [.callHandlers, .emit false (.ok [("message", .str "polling")]), .drain "", .callHandlers,
    .emit false (.ok [("message", .str "stopping")]), .stopDrain "", .stopClose, .stopPost]

/-- The rule at a shutdown in which nothing is logged after the drain. -/
theorem flush_strands_none_iff_quiet :
    ∃ s, (shutdownFlush 10000).exec (shutdownFlush 10000).init quietRun = some s ∧
      NoneStranded s := by
  refine ⟨_, rfl, (flush_strands_none_iff 10000 (l := quietRun) rfl rfl).mpr ?_⟩
  exact (System.exec_along_of_execWhile (fun _ _ => nothingBetween_of_test) rfl).2

/-- A record that an abandoned operation logs after the drain. -/
def lateRun : List FlushAction :=
  [.stopDrain "", .callHandlers, .emit false (.ok [("message", .str "operation done")]),
    .stopClose]

/-- A record that comes between the drain and the detachment stays in the
detached buffer. -/
theorem record_between_drain_and_close :
    ∃ s log, (shutdownFlush 10000).Reachable s ∧ s.stopper = .returned [] ∧
      s.detached = some log ∧ log.captured = [⟨0, [("message", .str "operation done")]⟩] ∧
      s.log.handler.buffer.items = log.captured ∧ s.earlier = [] ∧ ¬ NoneStranded s := by
  refine ⟨_, _, System.reachable_of_exec (l := lateRun) rfl, rfl, rfl, rfl, rfl, rfl, ?_⟩
  intro hnone
  exact (hnone ⟨0, [("message", .str "operation done")]⟩ (List.mem_singleton_self _)).2
    (List.mem_singleton_self _)

end EgressAgent
