import EgressAgent.Lib.System
import EgressAgent.Intake

/-!
# The operations poller

`OperationsPoller._run_loop` as a thread that moves from one control point to
the next, with the handler that the service installs
(`_handle_polled_operation`) run inside `_submit_operation`. What a step of the
thread gets from outside is in its `PollInput`. The system `poller` puts one
polling thread, started and not restarted, beside any number of `stop()` and
`notify_work_available()` calls.

A poller built without `can_accept_work` behaves as one whose check always
answers yes, and log lines are left out, so `_waiting`, which only a log line
reads, is left out too.

1. `poll_loop_survives_iff`: the thread leaves the loop only after `stop()`,
   throughout a run, if and only if every operation submitted while the poller
   is running is `Submittable`.
2. `no_lost_wakeup`: a poller that waits after an empty fetch has missed no
   notification, in every run in which none falls between the GET of that
   fetch and the wait. `late_notice_missed`: one that does is missed.
-/

namespace EgressAgent

open Py Effect Transition
open BackendClient (Attempt downloadOperation getNextOperation decidingAttempt)

namespace OperationsPoller

/-! ## The polling thread -/

/-- Which exit of the loop led to `_wait_for_work`. -/
inductive WaitReason
  | backpressure
  | emptyFetch
  | stopped
deriving DecidableEq

/-- The control points of `_run_loop`. -/
inductive PollPc
  /-- `while self._running` -/
  | loopTest
  /-- the check of `_can_accept_work` before the first fetch -/
  | acceptOuter
  /-- `_send_heartbeat` -/
  | heartbeat
  /-- `_fetch_operation`, before the GET is sent -/
  | issueGet
  /-- the GET is under way; its answer will be `a` -/
  | fetching (a : Attempt)
  /-- `while operation and self._running` -/
  | innerTest (operation : PyVal)
  /-- `_submit_operation` -/
  | submit (operation : PyVal)
  /-- the check of `_can_accept_work` before the next fetch -/
  | acceptInner
  /-- `_wait_for_work`, before the lock is taken -/
  | enterWait (why : WaitReason)
  /-- `self._condition.wait(...)` -/
  | waiting (why : WaitReason) (notified : Bool)
  /-- `_run_loop` has returned -/
  | returned
  /-- an exception left `_run_loop` -/
  | crashed (e : PyExc)

/-- What a step of the thread gets from outside. The answer of a GET is fixed
when it is sent; the thread learns it when the call returns. -/
inductive PollInput
  | go
  | canAccept (b : Bool)
  | heartbeat (a : Attempt)
  | get (a : Attempt)
  | submit (downloads : Nat → Attempt)

/-- `_send_heartbeat` catches every exception. -/
def afterHeartbeat (a : Attempt) : PollPc :=
  match BackendClient.sendHeartbeat a with
  | .ok () => .enterWait .backpressure
  | .error _ => .enterWait .backpressure

/-- One step of the thread. `running` is `self._running`, `w` what
`_submit_operation` may change. -/
def pollStep (str : PyVal → String) (running : Bool) (w : World) :
    PollPc → PollInput → Option (PollPc × World)
  | .loopTest, .go => some (if running then .acceptOuter else .returned, w)
  | .acceptOuter, .canAccept b => some (if b then .issueGet else .heartbeat, w)
  | .heartbeat, .heartbeat a => some (afterHeartbeat a, w)
  | .issueGet, .get a => some (.fetching a, w)
  | .fetching a, .go => some (.innerTest (fetchOperation a), w)
  | .innerTest operation, .go =>
      if !operation.truthy then some (.enterWait .emptyFetch, w)
      else some (if running then .submit operation else .enterWait .stopped, w)
  -- No `try` stands around this call, so what it raises ends the thread.
  | .submit operation, .submit downloads =>
      match submitOperation (handlePolledOperation str downloads) operation w with
      | .ok _ w' => some (.acceptInner, w')
      | .error e w' => some (.crashed e, w')
  | .acceptInner, .canAccept b => some (if b then .issueGet else .enterWait .backpressure, w)
  | .enterWait why, .go => some (.waiting why false, w)
  -- The wait ends by a notification, by the poll interval or spuriously.
  | .waiting _ _, .go => some (.loopTest, w)
  | _, _ => none

/-- A GET starts a new period for the notifications. -/
def PollInput.startsFetch : PollInput → Bool
  | .get _ => true
  | _ => false

/-- `notify_all` on the condition that the thread may be waiting on. -/
def PollPc.notifyAll : PollPc → PollPc
  | .waiting why _ => .waiting why true
  | pc => pc

/-- The thread is no longer in the loop. -/
def PollPc.left : PollPc → Bool
  | .returned => true
  | .crashed _ => true
  | _ => false

@[simp] theorem PollPc.left_notifyAll (pc : PollPc) : pc.notifyAll.left = pc.left := by
  cases pc <;> rfl

@[simp] theorem PollPc.notifyAll_eq_innerTest {pc : PollPc} {operation : PyVal} :
    pc.notifyAll = .innerTest operation ↔ pc = .innerTest operation := by
  cases pc <;> simp [notifyAll]

@[simp] theorem PollPc.notifyAll_eq_submit {pc : PollPc} {operation : PyVal} :
    pc.notifyAll = .submit operation ↔ pc = .submit operation := by
  cases pc <;> simp [notifyAll]

/-- After `notify_all` no thread sleeps without a notification. -/
@[simp] theorem PollPc.notifyAll_ne_asleep (pc : PollPc) (why : WaitReason) :
    pc.notifyAll ≠ .waiting why false := by
  cases pc <;> simp [notifyAll]

/-- The moves of the thread, one constructor for each way out of a control
point. `pollStep_move` reads them off `pollStep`. -/
inductive PollMove (str : PyVal → String) (running : Bool) (w : World) :
    PollPc → PollInput → PollPc → World → Prop
  | enter : running = true → PollMove str running w .loopTest .go .acceptOuter w
  | leave : running = false → PollMove str running w .loopTest .go .returned w
  | accepted : PollMove str running w .acceptOuter (.canAccept true) .issueGet w
  | refused : PollMove str running w .acceptOuter (.canAccept false) .heartbeat w
  | beat (a : Attempt) :
      PollMove str running w .heartbeat (.heartbeat a) (.enterWait .backpressure) w
  | send (a : Attempt) : PollMove str running w .issueGet (.get a) (.fetching a) w
  | answer (a : Attempt) :
      PollMove str running w (.fetching a) .go (.innerTest (fetchOperation a)) w
  | empty {operation : PyVal} : operation.truthy = false →
      PollMove str running w (.innerTest operation) .go (.enterWait .emptyFetch) w
  | take {operation : PyVal} : operation.truthy = true → running = true →
      PollMove str running w (.innerTest operation) .go (.submit operation) w
  | drop {operation : PyVal} : operation.truthy = true → running = false →
      PollMove str running w (.innerTest operation) .go (.enterWait .stopped) w
  | submitted {operation : PyVal} {downloads : Nat → Attempt} {w' : World} :
      submitOperation (handlePolledOperation str downloads) operation w = .ok () w' →
      PollMove str running w (.submit operation) (.submit downloads) .acceptInner w'
  | raised {operation : PyVal} {downloads : Nat → Attempt} {e : PyExc} {w' : World} :
      submitOperation (handlePolledOperation str downloads) operation w = .error e w' →
      PollMove str running w (.submit operation) (.submit downloads) (.crashed e) w'
  | more : PollMove str running w .acceptInner (.canAccept true) .issueGet w
  | full : PollMove str running w .acceptInner (.canAccept false) (.enterWait .backpressure) w
  | block (why : WaitReason) :
      PollMove str running w (.enterWait why) .go (.waiting why false) w
  | wake (why : WaitReason) (notified : Bool) :
      PollMove str running w (.waiting why notified) .go .loopTest w

theorem pollStep_move {str : PyVal → String} {running : Bool} {w w' : World} {pc pc' : PollPc}
    {i : PollInput} (h : pollStep str running w pc i = some (pc', w')) :
    PollMove str running w pc i pc' w' := by
  unfold pollStep at h
  split at h
  · cases running <;> cases h
    · exact .leave rfl
    · exact .enter rfl
  · next b => cases b <;> cases h <;> constructor
  · next a =>
    have hbeat : afterHeartbeat a = .enterWait .backpressure := by
      unfold afterHeartbeat
      split <;> rfl
    rw [hbeat] at h
    cases h
    exact .beat a
  · cases h; exact .send _
  · cases h; exact .answer _
  · next operation =>
    cases ht : operation.truthy with
    | false =>
      simp only [ht, Bool.not_false, if_true, Option.some.injEq, Prod.mk.injEq] at h
      obtain ⟨rfl, rfl⟩ := h
      exact .empty ht
    | true =>
      simp only [ht, Bool.not_true, Bool.false_eq_true, if_false] at h
      cases running <;> cases h
      · exact .drop ht rfl
      · exact .take ht rfl
  · split at h <;> cases h
    · next hs => exact .submitted hs
    · next hs => exact .raised hs
  · next b => cases b <;> cases h <;> constructor
  · cases h; exact .block _
  · cases h; exact .wake _ _
  · cases h

end OperationsPoller

open OperationsPoller

/-! ## The poller with its callers -/

structure PollerState where
  running : Bool
  pc : PollPc
  world : World
  /-- A `notify_work_available()` has completed since the last GET was sent. -/
  notifiedSinceGet : Bool

inductive PollerAction
  | thread (i : PollInput)
  | stop
  | notifyWorkAvailable
  /-- other threads change the queues -/
  | others (w : World)

def pollerStep (str : PyVal → String) (s : PollerState) : PollerAction → Option PollerState
  | .thread i =>
      (pollStep str s.running s.world s.pc i).map fun (pc, w) =>
        { s with pc, world := w, notifiedSinceGet := s.notifiedSinceGet && !i.startsFetch }
  | .stop => some { s with running := false, pc := s.pc.notifyAll }
  | .notifyWorkAvailable => some { s with pc := s.pc.notifyAll, notifiedSinceGet := true }
  | .others w => some { s with world := w }

/-- The poller after `start()`. -/
def poller (str : PyVal → String) : System PollerState PollerAction where
  init := { running := true, pc := .loopTest, world := {}, notifiedSinceGet := false }
  step := pollerStep str

/-! ## 1. The loop survives -/

/-- `download_operation` returns for these attempts. -/
def DownloadReturns (downloads : Nat → Attempt) : Prop :=
  (decidingAttempt downloads).operation?.isSome = true ∨
    ∃ e, (decidingAttempt downloads).failure? = some e ∧ e.text = ""

/-- Submitting the operation raises nothing: its `operation` field is absent or
an object, and where it carries the marker the download returns. -/
def Submittable (downloads : Nat → Attempt) (op : Dict) : Prop :=
  operationFieldOk op = true ∧ (carriesMarker op = true → DownloadReturns downloads)

/-- While the poller is running, an operation with a path and an id is
submitted only if it is `Submittable`. -/
def SubmitsSafely (s : PollerState) (a : PollerAction) : Prop :=
  s.running = true → ∀ op downloads, s.pc = .submit (.dict op) →
    a = .thread (.submit downloads) → (pathOf op).truthy = true → (idOf op).truthy = true →
    Submittable downloads op

namespace PollerLemmas

variable {str : PyVal → String} {downloads : Nat → Attempt} {op : Dict} {w : World}

/-- What `_fetch_operation` returns is false in a condition or has a `get`. -/
theorem fetchOperation_isDict {a : Attempt} (h : (fetchOperation a).truthy = true) :
    (fetchOperation a).isDict = true := by
  cases hn : getNextOperation a with
  | error e => simp [fetchOperation, hn] at h
  | ok operation =>
    cases hd : operation.isDict with
    | true =>
      obtain ⟨kvs, rfl⟩ := PyVal.isDict_iff.mp hd
      cases ht : (PyVal.dict kvs).truthy <;> simp [fetchOperation, hn, ht, PyVal.isDict]
    | false =>
      cases ht : operation.truthy <;>
        simp [fetchOperation, hn, ht, PyVal.get_of_not_isDict hd] at h

theorem downloadReturns_iff {operationId : PyVal} :
    DownloadReturns downloads ↔ ∃ body, downloadOperation str downloads operationId = .ok body := by
  constructor
  · rintro (h | ⟨e, he, ht⟩)
    · obtain ⟨kvs, hkvs⟩ := Option.isSome_iff_exists.mp h
      exact ⟨_, (BackendClient.downloadOperation_eq_ok_iff ..).mpr (.inl ⟨kvs, hkvs, rfl⟩)⟩
    · exact ⟨_, (BackendClient.downloadOperation_eq_ok_iff ..).mpr (.inr ⟨e, he, ht, rfl⟩)⟩
  · rintro ⟨body, hb⟩
    rcases (BackendClient.downloadOperation_eq_ok_iff ..).mp hb with ⟨kvs, hkvs, _⟩ | ⟨e, he, ht, _⟩
    · exact .inl (by simp [hkvs])
    · exact .inr ⟨e, he, ht⟩

/-- `_execute_operation` raises exactly for what is not `Submittable`. -/
theorem execute_raises_iff {path operationId : PyVal} :
    (∃ e w', executeOperation str downloads path operationId (.dict op) w = .error e w') ↔
      ¬ Submittable downloads op := by
  cases hf : operationFieldOk op with
  | false =>
    obtain ⟨e, he⟩ := @executeOperation_bad_field str downloads path operationId op w hf
    simp [he, Submittable, hf]
  | true =>
    cases hm : carriesMarker op with
    | false => simp [executeOperation_unmarked hf hm, Submittable, hf, hm]
    | true =>
      rw [executeOperation_marked hm]
      cases hd : downloadOperation str downloads operationId <;>
        simp [Submittable, hf, hm, @downloadReturns_iff str downloads operationId, hd]

/-- So does `_submit_operation`, for an operation with a path and an id; any
other operation is ignored. -/
theorem submit_raises_iff :
    (∃ e w', submitOperation (handlePolledOperation str downloads) (.dict op) w = .error e w') ↔
      (pathOf op).truthy = true ∧ (idOf op).truthy = true ∧ ¬ Submittable downloads op := by
  by_cases hp : (pathOf op).truthy = true ∧ (idOf op).truthy = true
  · obtain ⟨hpath, hid⟩ := hp
    rw [submitOperation, IntakeLemmas.handOver_run hpath hid]
    simp only [hpath, hid, true_and]
    exact execute_raises_iff
  · have hmissing : ((pathOf op).truthy && (idOf op).truthy) = false := by
      rw [← Bool.not_eq_true, Bool.and_eq_true]
      exact hp
    rw [submitOperation, IntakeLemmas.handOver_ignored hmissing]
    simp only [reduceCtorEq, exists_false, false_iff]
    rintro ⟨hpath, hid, _⟩
    exact hp ⟨hpath, hid⟩

/-- The thread is in the loop or stopped, and what it holds to submit has a
`get`. -/
structure LoopInv (s : PollerState) : Prop where
  left_stopped : s.pc.left = true → s.running = false
  testing : ∀ operation, s.pc = .innerTest operation → operation.truthy = true →
    operation.isDict = true
  submitting : ∀ operation, s.pc = .submit operation → operation.isDict = true

theorem loopInv_init : LoopInv (poller str).init :=
  ⟨nofun, nofun, nofun⟩

theorem loopInv_step (s : PollerState) (a : PollerAction) (s' : PollerState) (h : LoopInv s)
    (hok : SubmitsSafely s a) (hs : (poller str).step s a = some s') : LoopInv s' := by
  cases a with
  | stop =>
    cases hs
    exact ⟨fun _ => rfl, by simpa using h.testing, by simpa using h.submitting⟩
  | notifyWorkAvailable =>
    cases hs
    exact ⟨by simpa using h.left_stopped, by simpa using h.testing, by simpa using h.submitting⟩
  | others w =>
    cases hs
    exact ⟨h.left_stopped, h.testing, h.submitting⟩
  | thread i =>
    simp only [poller, pollerStep, Option.map_eq_some_iff, Prod.exists] at hs
    obtain ⟨pc', w', hpc, rfl⟩ := hs
    obtain ⟨running, pc, w, n⟩ := s
    cases pollStep_move hpc with
    | leave hr => exact ⟨fun _ => hr, nofun, nofun⟩
    | answer a =>
      refine ⟨nofun, fun operation ho ht => ?_, nofun⟩
      cases ho
      exact fetchOperation_isDict ht
    | take ht _ =>
      refine ⟨nofun, nofun, fun operation ho => ?_⟩
      cases ho
      exact h.testing _ rfl ht
    | raised hr =>
      -- What is submitted is a dictionary, so only a stopped poller submits what raises.
      refine ⟨fun _ => ?_, nofun, nofun⟩
      obtain ⟨op, rfl⟩ := PyVal.isDict_iff.mp (h.submitting _ rfl)
      obtain ⟨hpath, hid, hns⟩ := submit_raises_iff.mp ⟨_, _, hr⟩
      cases running with
      | false => rfl
      | true => exact absurd (hok rfl op _ rfl rfl hpath hid) hns
    | _ => exact ⟨nofun, nofun, nofun⟩

end PollerLemmas

open PollerLemmas

/-- In a run of the poller the thread leaves `_run_loop` only after `stop()`,
in every state of the run, if and only if every operation with a path and an id
that it submits while it is running is `Submittable`. -/
theorem poll_loop_survives_iff (str : PyVal → String) (l : List PollerAction)
    (hl : ((poller str).exec (poller str).init l).isSome = true) :
    (poller str).Throughout (fun s => s.pc.left = true → s.running = false) (poller str).init l ↔
      (poller str).Along SubmitsSafely (poller str).init l := by
  obtain ⟨s', hs'⟩ := Option.isSome_iff_exists.mp hl
  refine System.throughout_iff_along (J := LoopInv) (fun _ h => h.left_stopped) loopInv_step ?_
    loopInv_init hs'
  intro s a s₁ _ hbad hs hsafe
  -- A step that breaks the condition submits what raises, while running.
  simp only [SubmitsSafely, not_forall] at hbad
  obtain ⟨hrun, op, downloads, hpc, rfl, hpath, hid, hns⟩ := hbad
  obtain ⟨e, w', hr⟩ := (@submit_raises_iff str downloads op s.world).mpr ⟨hpath, hid, hns⟩
  have hcrash : s₁.pc = .crashed e ∧ s₁.running = true := by
    simp only [poller, pollerStep, hpc, pollStep, hr, Option.map_some, Option.some.injEq] at hs
    subst hs
    exact ⟨rfl, hrun⟩
  have hstopped : s₁.running = false := hsafe (by rw [hcrash.1]; rfl)
  rw [hcrash.2] at hstopped
  cases hstopped

/-- One fetch that brings `op`, and its submission. -/
def submitRun (op : Dict) : List PollerAction :=
  [.thread .go, .thread (.canAccept true), .thread (.get (okAnswer (.dict op))), .thread .go,
    .thread .go, .thread (.submit fun _ => okAnswer .none)]

/-- The rule at the run that submits one operation without a marker. -/
theorem poll_loop_survives_iff_submitRun :
    (poller fun _ => "").Throughout (fun s => s.pc.left = true → s.running = false)
      (poller fun _ => "").init (submitRun (operationWith (.dict []))) := by
  refine (poll_loop_survives_iff (fun _ => "") _ rfl).mpr ?_
  -- The last step alone submits, and its operation carries no marker.
  refine (System.along_append (l := (submitRun (operationWith (.dict []))).take 5) rfl).mpr
    ⟨System.along_of_forall (fun a ha s _ op downloads _ hsubmit => ?_) _, ?_, fun _ _ => trivial⟩
  · subst hsubmit
    simp [submitRun] at ha
  · rintro _ op downloads ⟨⟩ ⟨⟩ _ _
    exact ⟨rfl, nofun⟩

/-- An operation with a null `operation` field ends the polling thread while
the poller is running. -/
theorem null_operation_ends_polling :
    ∃ s, (poller fun _ => "").Reachable s ∧ s.pc.left = true ∧ s.running = true :=
  ⟨_, System.reachable_of_exec (l := submitRun (operationWith .none)) rfl, rfl, rfl⟩

/-! ## 2. No lost wake-up -/

/-- The thread is on its way from a GET that brings no operation to the wait
that follows. -/
def OperationsPoller.PollPc.headedForEmptyWait : PollPc → Bool
  | .fetching a => !(fetchOperation a).truthy
  | .innerTest operation => !operation.truthy
  | .enterWait .emptyFetch => true
  | _ => false

/-- No notification falls between a GET that brings no operation and the wait
that follows. -/
def NotifiesInTime (s : PollerState) (a : PollerAction) : Prop :=
  a = .notifyWorkAvailable → s.pc.headedForEmptyWait = false

@[simp] theorem OperationsPoller.PollPc.headed_notifyAll (pc : PollPc) :
    pc.notifyAll.headedForEmptyWait = pc.headedForEmptyWait := by
  cases pc <;> rfl

namespace PollerLemmas

variable {str : PyVal → String}

/-- On its way to the wait, and in it without a notification, the thread has
missed none. -/
structure WakeInv (s : PollerState) : Prop where
  headed : s.pc.headedForEmptyWait = true → s.notifiedSinceGet = false
  asleep : s.pc = .waiting .emptyFetch false → s.notifiedSinceGet = false

theorem wakeInv_init : WakeInv (poller str).init :=
  ⟨nofun, nofun⟩

theorem wakeInv_step (s : PollerState) (a : PollerAction) (s' : PollerState) (h : WakeInv s)
    (hok : NotifiesInTime s a) (hs : (poller str).step s a = some s') : WakeInv s' := by
  cases a with
  | others w => cases hs; exact ⟨h.headed, h.asleep⟩
  | stop => cases hs; exact ⟨by simpa using h.headed, by simp⟩
  | notifyWorkAvailable => cases hs; exact ⟨by simp [hok rfl], by simp⟩
  | thread i =>
    simp only [poller, pollerStep, Option.map_eq_some_iff, Prod.exists] at hs
    obtain ⟨pc', w', hpc, rfl⟩ := hs
    obtain ⟨running, pc, w, n⟩ := s
    cases pollStep_move hpc with
    | send a => exact ⟨fun _ => by simp [PollInput.startsFetch], nofun⟩
    | answer a =>
      refine ⟨fun hheaded => ?_, nofun⟩
      have hn : n = false := h.headed hheaded
      simp [hn]
    | empty ht =>
      have hn : n = false := h.headed (by simp [PollPc.headedForEmptyWait, ht])
      exact ⟨fun _ => by simp [hn], nofun⟩
    | block why =>
      refine ⟨nofun, fun hwait => ?_⟩
      cases hwait
      have hn : n = false := h.headed rfl
      simp [hn]
    | _ => exact ⟨nofun, nofun⟩

end PollerLemmas

/-- In every run in which no notification falls between a GET that brings no
operation and the wait after it, a poller that is blocked in the wait after an
empty fetch, without a pending notification, has missed none since that fetch
was issued. -/
theorem no_lost_wakeup (str : PyVal → String) {s : PollerState}
    (h : (poller str).ReachableWhere NotifiesInTime s) (hpc : s.pc = .waiting .emptyFetch false) :
    s.notifiedSinceGet = false :=
  (h.invariant wakeInv_init wakeInv_step).asleep hpc

/-- The condition cannot be dropped: after a notification that breaks it, the
thread's own next steps lead into a wait that has missed it. -/
theorem late_notice_missed {str : PyVal → String} {s s' : PollerState} {a : PollerAction}
    (hs : pollerStep str s a = some s') (hok : ¬ NotifiesInTime s a) :
    ∃ n s'', (poller str).exec s' (List.replicate n (.thread .go)) = some s'' ∧
      s''.pc = .waiting .emptyFetch false ∧ s''.notifiedSinceGet = true := by
  obtain ⟨rfl, hheaded⟩ : a = .notifyWorkAvailable ∧ s.pc.headedForEmptyWait = true := by
    simpa [NotifiesInTime] using hok
  cases hs
  cases hpc : s.pc with
  | fetching answer =>
    have hempty : (fetchOperation answer).truthy = false := by
      simpa [hpc, PollPc.headedForEmptyWait] using hheaded
    refine ⟨3, ?_⟩
    simp [List.replicate_succ, poller, pollerStep, pollStep, PollPc.notifyAll, hempty,
      PollInput.startsFetch]
  | innerTest operation =>
    have hempty : operation.truthy = false := by
      simpa [hpc, PollPc.headedForEmptyWait] using hheaded
    refine ⟨2, ?_⟩
    simp [List.replicate_succ, poller, pollerStep, pollStep, PollPc.notifyAll, hempty,
      PollInput.startsFetch]
  | enterWait why =>
    cases why with
    | emptyFetch =>
      refine ⟨1, ?_⟩
      simp [poller, pollerStep, pollStep, PollPc.notifyAll, PollInput.startsFetch]
    | _ => simp [hpc, PollPc.headedForEmptyWait] at hheaded
  | _ => simp [hpc, PollPc.headedForEmptyWait] at hheaded

/-- A test for the condition. -/
def OperationsPoller.notifiesInTime (s : PollerState) : PollerAction → Bool
  | .notifyWorkAvailable => !s.pc.headedForEmptyWait
  | _ => true

theorem PollerLemmas.notifiesInTime_sound (s : PollerState) (a : PollerAction)
    (h : notifiesInTime s a = true) : NotifiesInTime s a := by
  rintro rfl
  simpa [notifiesInTime] using h

/-- A GET answered with 204, then the wait. -/
def emptyFetchRun : List PollerAction :=
  [.thread .go, .thread (.canAccept true), .thread (.get (.response ⟨204, "", "", .ok .none⟩)),
    .thread .go, .thread .go, .thread .go]

/-- A notification that wakes the poller up from that wait, one that comes before
the next GET is sent, and the wait after this GET. -/
def notifiedFetchRun : List PollerAction :=
  emptyFetchRun ++ [.notifyWorkAvailable, .thread .go, .thread .go, .thread (.canAccept true),
    .notifyWorkAvailable, .thread (.get (.response ⟨204, "", "", .ok .none⟩)), .thread .go,
    .thread .go, .thread .go]

/-- The rule at the wait after two notifications. -/
theorem no_lost_wakeup_notified :
    ∃ s, (poller fun _ => "").execWhile notifiesInTime (poller fun _ => "").init
        notifiedFetchRun = some s ∧
      s.pc = .waiting .emptyFetch false ∧ s.notifiedSinceGet = false := by
  refine ⟨_, rfl, rfl, no_lost_wakeup (fun _ => "") ?_ rfl⟩
  exact System.reachableWhere_of_execWhile notifiesInTime_sound
    (show (poller fun _ => "").execWhile notifiesInTime _ notifiedFetchRun = some _ from rfl)

/-- A notification that arrives while the GET is under way is lost: the poller
goes on to wait for the whole poll interval. -/
theorem notification_during_fetch_lost :
    ∃ s, (poller fun _ => "").Reachable s ∧ s.pc = .waiting .emptyFetch false ∧
      s.notifiedSinceGet = true := by
  refine ⟨_, System.reachable_of_exec (l := [.thread .go, .thread (.canAccept true),
    .thread (.get (.response ⟨204, "", "", .ok .none⟩)), .notifyWorkAvailable,
    .thread .go, .thread .go, .thread .go]) rfl, rfl, rfl⟩

end EgressAgent
