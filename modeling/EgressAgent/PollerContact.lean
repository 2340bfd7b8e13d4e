import EgressAgent.Lib.Timed
import EgressAgent.Poller

/-!
# The poller in time

The polling thread in rational time, beside any `stop()` and
`notify_work_available()` calls and any other threads. A GET, a heartbeat and the
submission of an operation take up to given times, a wait without a notification
lasts the poll interval and ends soon after it, and every other step takes up to a
latency. `threading` has no spurious wake-ups.

* `poller_contact`: the orchestrator hears from the agent, by a GET or by a
  heartbeat, again and again. Between two contacts lies at most the time of one GET,
  one submission, one poll interval and one heartbeat with seven latencies, after a
  heartbeat only that of one interval and the next request, unless the thread has
  left the loop; and after a `stop()` it has left it in about one interval.
* `notified_contact`: a notification during a wait is followed by the next request at
  once.
* `polls_paced`: the agent does not spin. For each request but the first there was
  an operation that a GET brought, a notification, or a wait of the whole interval.
-/

namespace EgressAgent

open Py Transition
open BackendClient (Attempt)
open OperationsPoller

namespace OperationsPoller

/-- How long the steps of the polling thread take at most. -/
structure PollDurations where
  get : ℚ
  heartbeat : ℚ
  /-- `_submit_operation`, with the download -/
  submit : ℚ
  /-- `_poll_interval` -/
  interval : ℚ
  /-- any other step, and the delay after the end of a wait -/
  latency : ℚ
  get_nonneg : 0 ≤ get
  heartbeat_nonneg : 0 ≤ heartbeat
  submit_nonneg : 0 ≤ submit
  interval_nonneg : 0 ≤ interval
  latency_nonneg : 0 ≤ latency

/-- A control point of the loop without the data that the thread holds there. -/
inductive PollPlace
  | loopTest
  | acceptOuter
  | heartbeat
  | issueGet
  | fetching
  | innerTest
  | submit
  | acceptInner
  | enterWait
  | waiting (notified : Bool)
  /-- the thread has left the loop -/
  | left
deriving DecidableEq

def PollPc.place : PollPc → PollPlace
  | .loopTest => .loopTest
  | .acceptOuter => .acceptOuter
  | .heartbeat => .heartbeat
  | .issueGet => .issueGet
  | .fetching _ => .fetching
  | .innerTest _ => .innerTest
  | .submit _ => .submit
  | .acceptInner => .acceptInner
  | .enterWait _ => .enterWait
  | .waiting _ notified => .waiting notified
  | .returned => .left
  | .crashed _ => .left

/-- A step of the polling thread. -/
def isThread : PollerAction → Bool
  | .thread _ => true
  | _ => false

namespace PollDurations

variable (d : PollDurations)

/-- The time of the request that follows a test of `_running`. -/
def request : ℚ := max d.heartbeat d.latency

/-- How long the thread may stay at a place. -/
def most : PollPlace → Option ℚ
  | .left => none
  | .heartbeat => some d.heartbeat
  | .fetching => some d.get
  | .submit => some d.submit
  | .waiting false => some (d.interval + d.latency)
  | _ => some d.latency

/-- At most how long a thread that came to the place takes until the next request
is made. -/
def untilContact : PollPlace → ℚ
  | .heartbeat => d.heartbeat
  | .issueGet => d.latency
  | .acceptOuter => d.latency + d.request
  | .loopTest => 2 * d.latency + d.request
  | .waiting true => 3 * d.latency + d.request
  | .waiting false => d.interval + 4 * d.latency + d.request
  | .enterWait => d.interval + 5 * d.latency + d.request
  | .acceptInner => d.interval + 6 * d.latency + d.request
  | .submit => d.submit + d.interval + 6 * d.latency + d.request
  | .innerTest => d.submit + d.interval + 7 * d.latency + d.request
  | .fetching => d.get + d.submit + d.interval + 7 * d.latency + d.request
  | .left => 0

/-- At most how long a stopped thread that came to the place takes until it has
left the loop. -/
def untilLeft : PollPlace → ℚ
  | .loopTest => d.latency
  | .waiting true => 2 * d.latency
  | .waiting false => d.interval + 3 * d.latency
  | .enterWait => d.interval + 4 * d.latency
  | .heartbeat => d.heartbeat + d.interval + 4 * d.latency
  | .innerTest => d.interval + 5 * d.latency
  | .fetching => d.get + d.interval + 5 * d.latency
  | .issueGet => d.get + d.interval + 6 * d.latency
  | .acceptInner => d.get + d.interval + 7 * d.latency
  | .acceptOuter => max (d.get + 2 * d.latency) d.heartbeat + d.interval + 5 * d.latency
  | .submit => d.submit + d.get + d.interval + 7 * d.latency
  | .left => 0

theorem most_nonneg {b : PollPlace} {m : ℚ} (h : d.most b = some m) : 0 ≤ m := by
  have hinterval := d.interval_nonneg
  have hlatency := d.latency_nonneg
  unfold most at h
  split at h <;> cases h
  · exact d.heartbeat_nonneg
  · exact d.get_nonneg
  · exact d.submit_nonneg
  · linarith
  · exact hlatency

/-- The timing of the polling thread. -/
def timing : Timing PollerState PollerAction PollPlace where
  place s := s.pc.place
  least s a := if isThread a && s.pc.place == .waiting false then d.interval else 0
  most := d.most
  most_nonneg := d.most_nonneg

end PollDurations

/-- A request to the orchestrator: a GET that is sent, or a heartbeat that is over. -/
def isContact : PollerAction → Bool
  | .thread (.get _) => true
  | .thread (.heartbeat _) => true
  | _ => false

/-- A GET that brings an operation, or a notification. -/
def isReason : PollerAction → Bool
  | .thread (.get a) => (fetchOperation a).truthy
  | .notifyWorkAvailable => true
  | _ => false

end OperationsPoller

namespace PollerContactLemmas

variable {d : PollDurations} {str : PyVal → String} {s s' : PollerState} {a : PollerAction}

/-- A step that moves the polling thread: a step of its own, or a notification. -/
theorem move_of_ne (hs : pollerStep str s a = some s') (hne : s'.pc.place ≠ s.pc.place) :
    (∃ i w, a = .thread i ∧ PollMove str s.running s.world s.pc i s'.pc w) ∨
      (s.pc.place = .waiting false ∧ s'.pc.place = .waiting true) := by
  cases a with
  | thread i =>
    obtain ⟨⟨pc', w⟩, hstep, rfl⟩ := Option.map_eq_some_iff.mp hs
    exact .inl ⟨i, w, rfl, pollStep_move hstep⟩
  | others w =>
    cases hs
    exact absurd rfl hne
  | stop =>
    cases hs
    cases hpc : s.pc with
    | waiting why notified => cases notified <;> simp_all [PollPc.notifyAll, PollPc.place]
    | _ => simp_all [PollPc.notifyAll]
  | notifyWorkAvailable =>
    cases hs
    cases hpc : s.pc with
    | waiting why notified => cases notified <;> simp_all [PollPc.notifyAll, PollPc.place]
    | _ => simp_all [PollPc.notifyAll]

theorem most_eq_none {b : PollPlace} : d.most b = none ↔ b = .left := by
  cases b with
  | waiting notified => cases notified <;> simp [PollDurations.most]
  | _ => simp [PollDurations.most]

theorem left_move {running : Bool} {w w' : World} {pc pc' : PollPc} {i : PollInput}
    (hmove : PollMove str running w pc i pc' w') (hleft : pc.place = .left) : False := by
  cases hmove <;> cases hleft

/-- A thread that has left the loop stays out of it. -/
theorem left_step (hs : pollerStep str s a = some s') (hleft : d.most s.pc.place = none) :
    d.most s'.pc.place = none := by
  by_cases hne : s'.pc.place = s.pc.place
  · rw [hne]
    exact hleft
  · have hplace := most_eq_none.mp hleft
    rcases move_of_ne hs hne with ⟨i, w, -, hmove⟩ | ⟨hwaiting, -⟩
    · exact absurd hplace (left_move hmove)
    · cases hwaiting.symm.trans hplace

theorem stays_stopped (hstopped : s.running = false) (hs : (poller str).step s a = some s') :
    s'.running = false := by
  cases a with
  | thread i =>
    obtain ⟨⟨pc', w⟩, -, rfl⟩ := Option.map_eq_some_iff.mp hs
    exact hstopped
  | stop =>
    cases hs
    rfl
  | _ =>
    cases hs
    exact hstopped

/-- The deadline for the next request. -/
def contactDeadline (d : PollDurations) (str : PyVal → String) :
    Deadline (poller str) d.timing fun a => ¬ isContact a = true where
  inv _ := True
  budget := d.untilContact
  keeps _ _ _ := trivial
  left _ _ hs hleft := left_step hs hleft
  most_le {b m} hm := by
    have hget := d.get_nonneg
    have hsubmit := d.submit_nonneg
    have hinterval := d.interval_nonneg
    have hlatency := d.latency_nonneg
    have hrequest : d.latency ≤ d.request := le_max_right ..
    have hm : d.most b = some m := hm
    unfold PollDurations.most at hm
    split at hm <;> cases hm
    · exact le_refl _
    · simp only [PollDurations.untilContact]
      linarith
    · simp only [PollDurations.untilContact]
      linarith
    · simp only [PollDurations.untilContact]
      linarith
    · unfold PollDurations.untilContact
      split <;> first | linarith | simp_all
  moves {s a s' m m'} _ ha hs hne hm hm' := by
    have hinterval := d.interval_nonneg
    have hlatency := d.latency_nonneg
    have hsubmit := d.submit_nonneg
    have hheartbeat : d.heartbeat ≤ d.request := le_max_left ..
    have hlatency' : d.latency ≤ d.request := le_max_right ..
    obtain ⟨running, pc, world, n⟩ := s
    obtain ⟨running', pc', world', n'⟩ := s'
    have hm : d.most pc.place = some m := hm
    have hm' : d.most pc'.place = some m' := hm'
    show m + d.untilContact pc'.place ≤ d.untilContact pc.place
    rcases move_of_ne hs hne with ⟨i, w, rfl, hmove⟩ | ⟨hwaiting, hnotified⟩
    · cases hmove with
      | beat answer => exact absurd rfl ha
      | send answer => exact absurd rfl ha
      | leave => cases hm'
      | raised => cases hm'
      | wake why notified =>
        cases notified <;> cases hm <;>
          simp only [PollPc.place, PollDurations.untilContact] <;> linarith
      | _ =>
        cases hm
        simp only [PollPc.place, PollDurations.untilContact]
        linarith
    · have hplace : pc.place = .waiting false := hwaiting
      have hplace' : pc'.place = .waiting true := hnotified
      rw [hplace] at hm ⊢
      rw [hplace']
      cases hm
      simp only [PollDurations.untilContact]
      linarith

/-- The deadline for the end of a stopped thread. -/
def leftDeadline (d : PollDurations) (str : PyVal → String) :
    Deadline (poller str) d.timing fun _ => True where
  inv s := s.running = false
  budget := d.untilLeft
  keeps {s a s'} hi _ hs := stays_stopped hi hs
  left _ _ hs hleft := left_step hs hleft
  most_le {b m} hm := by
    have hget := d.get_nonneg
    have hsubmit := d.submit_nonneg
    have hheartbeat := d.heartbeat_nonneg
    have hinterval := d.interval_nonneg
    have hlatency := d.latency_nonneg
    have hrequest : d.heartbeat ≤ max (d.get + 2 * d.latency) d.heartbeat := le_max_right ..
    have hm : d.most b = some m := hm
    unfold PollDurations.most at hm
    split at hm <;> cases hm
    · simp only [PollDurations.untilLeft]
      linarith
    · simp only [PollDurations.untilLeft]
      linarith
    · simp only [PollDurations.untilLeft]
      linarith
    · simp only [PollDurations.untilLeft]
      linarith
    · unfold PollDurations.untilLeft
      split <;> first | linarith | simp_all
  moves {s a s' m m'} hstopped ha hs hne hm hm' := by
    have hget := d.get_nonneg
    have hinterval := d.interval_nonneg
    have hlatency := d.latency_nonneg
    have hlonger : d.get + 2 * d.latency ≤ max (d.get + 2 * d.latency) d.heartbeat := le_max_left ..
    have hlonger' : d.heartbeat ≤ max (d.get + 2 * d.latency) d.heartbeat := le_max_right ..
    obtain ⟨running, pc, world, n⟩ := s
    obtain ⟨running', pc', world', n'⟩ := s'
    have hm : d.most pc.place = some m := hm
    have hm' : d.most pc'.place = some m' := hm'
    show m + d.untilLeft pc'.place ≤ d.untilLeft pc.place
    rcases move_of_ne hs hne with ⟨i, w, rfl, hmove⟩ | ⟨hwaiting, hnotified⟩
    · cases hmove with
      | enter hrunning => exact absurd (hrunning.symm.trans hstopped) (by simp)
      | take _ hrunning => exact absurd (hrunning.symm.trans hstopped) (by simp)
      | leave => cases hm'
      | raised => cases hm'
      | wake why notified =>
        cases notified <;> cases hm <;>
          simp only [PollPc.place, PollDurations.untilLeft] <;> linarith
      | _ =>
        cases hm
        simp only [PollPc.place, PollDurations.untilLeft]
        linarith
    · have hplace : pc.place = .waiting false := hwaiting
      have hplace' : pc'.place = .waiting true := hnotified
      rw [hplace] at hm ⊢
      rw [hplace']
      cases hm
      simp only [PollDurations.untilLeft]
      linarith

theorem exists_answer (ha : isContact a = true) :
    (∃ answer, a = .thread (.get answer)) ∨ ∃ answer, a = .thread (.heartbeat answer) := by
  unfold isContact at ha
  split at ha
  · exact .inl ⟨_, rfl⟩
  · exact .inr ⟨_, rfl⟩
  · cases ha

/-- Where a thread is after a request: a GET is under way, or the wait follows. -/
theorem place_of_contact (ha : isContact a = true) (hs : pollerStep str s a = some s') :
    s'.pc.place = .fetching ∧ (∃ answer, a = .thread (.get answer)) ∨ s'.pc.place = .enterWait := by
  obtain ⟨answer, rfl⟩ | ⟨answer, rfl⟩ := exists_answer ha
  · obtain ⟨⟨pc', w⟩, hstep, rfl⟩ := Option.map_eq_some_iff.mp hs
    refine .inl ⟨?_, answer, rfl⟩
    show pc'.place = .fetching
    have hmove := pollStep_move hstep
    generalize s.pc = pc at hmove
    cases hmove with
    | send => rfl
  · obtain ⟨⟨pc', w⟩, hstep, rfl⟩ := Option.map_eq_some_iff.mp hs
    refine .inr ?_
    show pc'.place = .enterWait
    have hmove := pollStep_move hstep
    generalize s.pc = pc at hmove
    cases hmove with
    | beat => rfl

theorem untilLeft_le (b : PollPlace) :
    d.untilLeft b ≤ d.interval + 7 * d.latency + max (d.submit + d.get) d.heartbeat := by
  have hget := d.get_nonneg
  have hsubmit := d.submit_nonneg
  have hinterval := d.interval_nonneg
  have hlatency := d.latency_nonneg
  have hget' : d.submit + d.get ≤ max (d.submit + d.get) d.heartbeat := le_max_left ..
  have hheartbeat' : d.heartbeat ≤ max (d.submit + d.get) d.heartbeat := le_max_right ..
  cases b with
  | acceptOuter =>
    have hlonger : max (d.get + 2 * d.latency) d.heartbeat ≤
        max (d.submit + d.get) d.heartbeat + 2 * d.latency :=
      max_le (by linarith) (by linarith)
    simp only [PollDurations.untilLeft]
    linarith
  | waiting notified => cases notified <;> simp only [PollDurations.untilLeft] <;> linarith
  | _ =>
    simp only [PollDurations.untilLeft]
    linarith

/-- A thread in the loop is at a place with a bound. -/
theorem exists_most {pc : PollPc} (h : pc.left = false) : ∃ m, d.most pc.place = some m := by
  refine Option.ne_none_iff_exists'.mp fun hnone => ?_
  have hplace := most_eq_none.mp hnone
  cases pc with
  | returned => cases h
  | crashed e => cases h
  | _ => cases hplace

theorem place_of_notify {notified : Bool} (hs : pollerStep str s .notifyWorkAvailable = some s')
    (hwaiting : s.pc.place = .waiting notified) : s'.pc.place = .waiting true := by
  cases hs
  show s.pc.notifyAll.place = .waiting true
  cases hpc : s.pc with
  | waiting why notified => rfl
  | _ =>
    rw [hpc] at hwaiting
    cases hwaiting

end PollerContactLemmas

open PollerContactLemmas

/-- As long as the polling thread is in the loop: after a request to the
orchestrator the next one comes, and goes out, within the time of one GET, one
submission, one poll interval, one heartbeat and seven latencies, and after a
heartbeat within that of the interval, the next request and five latencies. After
a `stop()` the thread leaves the loop within one interval, seven latencies and what
it was doing, be it a submission and a GET or a heartbeat. -/
theorem poller_contact (d : PollDurations) (str : PyVal → String) {s s' : TimedState PollerState}
    {a : PollerAction} {l : List (TimedAction PollerAction)}
    (hs : ((poller str).timed d.timing).Reachable s)
    (h : ((poller str).timed d.timing).exec s (.act a :: l) = some s')
    (hloop : s'.state.pc.left = false) :
    (isContact a = true → (∀ b, .act b ∈ l → ¬ isContact b = true) →
      s'.now ≤ s.now + (d.get + d.submit + d.interval + d.request + 7 * d.latency) ∧
      ((∃ answer, a = .thread (.heartbeat answer)) →
        s'.now ≤ s.now + (d.interval + d.request + 5 * d.latency))) ∧
    (a = .stop →
      s'.now ≤ s.now + (d.interval + 7 * d.latency + max (d.submit + d.get) d.heartbeat)) := by
  obtain ⟨s₁, h₁, h₂⟩ := Option.bind_eq_some_iff.mp (System.exec_cons .. ▸ h)
  obtain ⟨hs₁, hnow, -⟩ := Timing.act_eq h₁
  have hstep : pollerStep str s.state a = some s₁.state := hs₁
  have hi := Timing.inTime_step (Timing.inTime hs) h₁
  have hbegun := hi.since_le
  rw [hnow] at hbegun
  obtain ⟨m, hm⟩ := exists_most (d := d) hloop
  constructor
  · intro ha hok
    have hlate := (contactDeadline d str).now_le hi trivial hok h₂ hm
    have hnext : s'.now ≤ s₁.since + d.untilContact s₁.state.pc.place := hlate
    have hget := d.get_nonneg
    have hsubmit := d.submit_nonneg
    have hlatency := d.latency_nonneg
    rcases place_of_contact ha hstep with ⟨hplace, answer, rfl⟩ | hplace
    · rw [hplace] at hnext
      simp only [PollDurations.untilContact] at hnext
      refine ⟨by linarith, ?_⟩
      rintro ⟨answer', hother⟩
      cases hother
    · rw [hplace] at hnext
      simp only [PollDurations.untilContact] at hnext
      exact ⟨by linarith, fun _ => by linarith⟩
  · rintro rfl
    have hstopped : s₁.state.running = false := by
      rw [← Option.some.inj hstep]
    have hlate := (leftDeadline d str).now_le hi hstopped (fun _ _ => trivial) h₂ hm
    have hend : s'.now ≤ s₁.since + d.untilLeft s₁.state.pc.place := hlate
    have hbudget := untilLeft_le (d := d) s₁.state.pc.place
    linarith

/-- A GET of at most half a minute and a poll interval of a minute. -/
def pollDurations : PollDurations where
  get := 30
  heartbeat := 10
  submit := 5
  interval := 60
  latency := 1
  get_nonneg := by norm_num
  heartbeat_nonneg := by norm_num
  submit_nonneg := by norm_num
  interval_nonneg := by norm_num
  latency_nonneg := by norm_num

/-- A GET that is answered with 204 at its limit, and the wait after it. -/
def idleRun : List (TimedAction PollerAction) :=
  [.pass 30, .act (.thread .go), .act (.thread .go), .act (.thread .go), .pass 91,
    .act (.thread .go), .act (.thread .go), .pass 92]

/-- The rule at the first GET: 92 seconds later the thread is at the next check of
the queue. -/
theorem poller_contact_idle :
    ∃ s s', ((poller fun _ => "").timed pollDurations.timing).exec
        ((poller fun _ => "").timed pollDurations.timing).init
        [.act (.thread .go), .act (.thread (.canAccept true))] = some s ∧
      ((poller fun _ => "").timed pollDurations.timing).exec s
        (.act (.thread (.get (.response ⟨204, "", "", .ok .none⟩))) :: idleRun) = some s' ∧
      s'.now ≤ s.now + (30 + 5 + 60 + max 10 1 + 7 * 1) := by
  have hrun : (((poller fun _ => "").timed pollDurations.timing).exec
      ((poller fun _ => "").timed pollDurations.timing).init
      ([.act (.thread .go), .act (.thread (.canAccept true))] ++
        .act (.thread (.get (.response ⟨204, "", "", .ok .none⟩))) :: idleRun)).map
        (fun s => s.state.pc.left) = some false := by decide +kernel
  obtain ⟨s', h, hloop⟩ := Option.map_eq_some_iff.mp hrun
  rw [System.exec_append, Option.bind_eq_some_iff] at h
  obtain ⟨s, hs, h⟩ := h
  refine ⟨s, s', hs, h, ?_⟩
  refine ((poller_contact pollDurations (fun _ => "") (System.reachable_of_exec hs) h hloop).1
    rfl ?_).1
  intro b hb hcontact
  simp only [idleRun, List.mem_cons, TimedAction.act.injEq, reduceCtorEq, false_or,
    List.not_mem_nil, or_false, or_self] at hb
  subst hb
  cases hcontact

/-- A notification that finds the polling thread in its wait is followed by the next
request within three latencies and the time of that request, as long as the thread is
in the loop. -/
theorem notified_contact (d : PollDurations) (str : PyVal → String)
    {s s' : TimedState PollerState} {l : List (TimedAction PollerAction)} {notified : Bool}
    (hs : ((poller str).timed d.timing).Reachable s)
    (hwaiting : s.state.pc.place = .waiting notified)
    (h : ((poller str).timed d.timing).exec s (.act .notifyWorkAvailable :: l) = some s')
    (hloop : s'.state.pc.left = false) (hok : ∀ b, .act b ∈ l → ¬ isContact b = true) :
    s'.now ≤ s.now + (3 * d.latency + d.request) := by
  obtain ⟨s₁, h₁, h₂⟩ := Option.bind_eq_some_iff.mp (System.exec_cons .. ▸ h)
  obtain ⟨hs₁, hnow, -⟩ := Timing.act_eq h₁
  have hi := Timing.inTime_step (Timing.inTime hs) h₁
  have hbegun := hi.since_le
  rw [hnow] at hbegun
  obtain ⟨m, hm⟩ := exists_most (d := d) hloop
  have hlate := (contactDeadline d str).now_le hi trivial hok h₂ hm
  have hnext : s'.now ≤ s₁.since + d.untilContact s₁.state.pc.place := hlate
  have hstep : pollerStep str s.state .notifyWorkAvailable = some s₁.state := hs₁
  rw [place_of_notify hstep hwaiting] at hnext
  simp only [PollDurations.untilContact] at hnext
  linarith

/-- The wait after an idle GET. -/
def idleWorkRun : List (TimedAction PollerAction) :=
  [.act (.thread .go), .act (.thread (.canAccept true)),
    .act (.thread (.get (.response ⟨204, "", "", .ok .none⟩))), .act (.thread .go),
    .act (.thread .go), .act (.thread .go), .pass 20]

/-- What follows a notification, up to the next check of the queue. -/
def workSignalRun : List (TimedAction PollerAction) :=
  [.pass 21, .act (.thread .go), .pass 22, .act (.thread .go), .pass 23]

/-- The rule where the notification comes after 20 seconds of the wait. -/
theorem notified_contact_idle :
    ∃ s s', ((poller fun _ => "").timed pollDurations.timing).exec
        ((poller fun _ => "").timed pollDurations.timing).init idleWorkRun = some s ∧
      ((poller fun _ => "").timed pollDurations.timing).exec s
        (.act .notifyWorkAvailable :: workSignalRun) = some s' ∧
      s'.now ≤ s.now + (3 * 1 + max 10 1) := by
  let S := (poller fun _ => "").timed pollDurations.timing
  have hrun : (S.exec S.init idleWorkRun).map (fun s => (s.state.pc.place,
      (S.exec s (.act .notifyWorkAvailable :: workSignalRun)).map fun s' => s'.state.pc.left)) =
      some (.waiting false, some false) := by
    decide +kernel
  obtain ⟨s, hs, hends⟩ := Option.map_eq_some_iff.mp hrun
  obtain ⟨hwaiting, hnotified⟩ := Prod.mk.inj hends
  obtain ⟨s', h, hloop⟩ := Option.map_eq_some_iff.mp hnotified
  refine ⟨s, s', hs, h, ?_⟩
  refine notified_contact pollDurations (fun _ => "") (System.reachable_of_exec hs) hwaiting h hloop ?_
  intro b hb hcontact
  simp only [workSignalRun, List.mem_cons, TimedAction.act.injEq, reduceCtorEq, false_or,
    List.not_mem_nil, or_false, or_self] at hb
  subst hb
  cases hcontact

namespace PollerContactLemmas

variable {d : PollDurations} {str : PyVal → String} {s s' : PollerState} {a : PollerAction}

/-- The requests that the thread can still make without a further reason or wait. -/
def requestsLeft (running : Bool) : PollPc → Nat
  | .loopTest => if running then 1 else 0
  | .fetching a => if (fetchOperation a).truthy then 1 else 0
  | .innerTest operation => if operation.truthy then 1 else 0
  | .waiting _ notified => if notified && running then 1 else 0
  | .enterWait _ => 0
  | .returned => 0
  | .crashed _ => 0
  | _ => 1

theorem requestsLeft_notifyAll (running : Bool) (pc : PollPc) :
    requestsLeft running pc.notifyAll ≤ requestsLeft running pc + 1 := by
  cases pc with
  | waiting why notified =>
    show (if true && running then 1 else 0) ≤ _
    split_ifs <;> omega
  | _ => exact Nat.le_succ _

theorem requestsLeft_stopped (running : Bool) (pc : PollPc) :
    requestsLeft false pc.notifyAll ≤ requestsLeft running pc := by
  cases pc <;> simp [PollPc.notifyAll, requestsLeft]

/-- Every move of the thread is paid, and a wait without a notification by the
interval. -/
theorem pays_move {running : Bool} {w w' : World} {pc pc' : PollPc} {i : PollInput}
    (hmove : PollMove str running w pc i pc' w') :
    (if isContact (.thread i) then 1 else 0) + requestsLeft running pc' ≤
        requestsLeft running pc + (if isReason (.thread i) then 1 else 0) ∨
      pc.place = .waiting false ∧ pc'.place = .loopTest ∧
        (if isContact (.thread i) then 1 else 0) + requestsLeft running pc' ≤
          requestsLeft running pc + 1 := by
  cases hmove with
  | wake why notified =>
    cases notified with
    | true => exact .inl (by simp [isContact, isReason, requestsLeft])
    | false => exact .inr ⟨rfl, rfl, by cases running <;> simp [isContact, requestsLeft]⟩
  | enter hrunning => exact .inl (by simp [isContact, isReason, requestsLeft, hrunning])
  | empty hempty => exact .inl (by simp [isContact, isReason, requestsLeft])
  | take htake => exact .inl (by simp [isContact, isReason, requestsLeft, htake])
  | send a =>
    refine .inl ?_
    show 1 + requestsLeft running (.fetching a) ≤ 1 + (if (fetchOperation a).truthy then 1 else 0)
    exact le_refl _
  | _ => exact .inl (by simp [isContact, isReason, requestsLeft])

theorem pays_step (hs : pollerStep str s a = some s') :
    (if isContact a then 1 else 0) + requestsLeft s'.running s'.pc ≤
        requestsLeft s.running s.pc + (if isReason a then 1 else 0) ∨
      (s.pc.place == .waiting false) = true ∧ (s'.pc.place == .waiting false) = false ∧
        d.interval ≤ d.timing.least s a ∧
        (if isContact a then 1 else 0) + requestsLeft s'.running s'.pc ≤
          requestsLeft s.running s.pc + 1 := by
  cases a with
  | thread i =>
    obtain ⟨⟨pc', w⟩, hstep, rfl⟩ := Option.map_eq_some_iff.mp hs
    rcases pays_move (pollStep_move hstep) with hpays | ⟨hwaiting, hawake, hpays⟩
    · exact .inl hpays
    · have hleast : d.timing.least s (.thread i) = d.interval := by
        show (if isThread (.thread i) && s.pc.place == .waiting false then d.interval else 0) = _
        rw [hwaiting]
        rfl
      have hawake : pc'.place = .loopTest := hawake
      refine .inr ⟨beq_iff_eq.mpr hwaiting, ?_, hleast.symm.le, hpays⟩
      show (pc'.place == .waiting false) = false
      rw [hawake]
      rfl
  | stop =>
    cases hs
    refine .inl ?_
    show 0 + requestsLeft false s.pc.notifyAll ≤ requestsLeft s.running s.pc + 0
    rw [Nat.zero_add]
    exact requestsLeft_stopped s.running s.pc
  | notifyWorkAvailable =>
    cases hs
    refine .inl ?_
    show 0 + requestsLeft s.running s.pc.notifyAll ≤ requestsLeft s.running s.pc + 1
    rw [Nat.zero_add]
    exact requestsLeft_notifyAll s.running s.pc
  | others w =>
    cases hs
    exact .inl (Nat.le_of_eq (Nat.zero_add _))

/-- The requests of the polling thread, paid by reasons and by waits. -/
def requestPacing (d : PollDurations) (str : PyVal → String) :
    Pacing (poller str) d.timing d.interval where
  costs := isContact
  earns := isReason
  balance s := requestsLeft s.running s.pc
  resting b := b == .waiting false
  pays := pays_step

end PollerContactLemmas

/-- The poller does not spin: it makes no more requests, GETs and heartbeats together,
than one, one for each operation that a GET brings, one for each notification, and
one for each poll interval. -/
theorem polls_paced (d : PollDurations) (str : PyVal → String) {s : TimedState PollerState}
    {l : List (TimedAction PollerAction)}
    (h : ((poller str).timed d.timing).exec ((poller str).timed d.timing).init l = some s) :
    ∃ waits : Nat, (untimed l).countP isContact ≤ 1 + (untimed l).countP isReason + waits ∧
      waits * d.interval ≤ s.now := by
  obtain ⟨waits, hcount, htime⟩ := (requestPacing d str).count_le h
  have hi := Timing.inTime (System.reachable_of_exec h)
  refine ⟨waits, ?_, le_trans htime ?_⟩
  · have hfirst : (requestPacing d str).balance (poller str).init = 1 := rfl
    rw [hfirst] at hcount
    exact Nat.le_of_add_right_le hcount
  · unfold Pacing.reached
    split_ifs
    · exact hi.since_le
    · exact le_refl _

/-- A run up to the second GET, which finds nothing either. -/
def twoPollsRun : List (TimedAction PollerAction) :=
  [.act (.thread .go), .act (.thread (.canAccept true)),
    .act (.thread (.get (.response ⟨204, "", "", .ok .none⟩)))] ++ idleRun ++
    [.act (.thread (.canAccept true)), .act (.thread (.get (.response ⟨204, "", "", .ok .none⟩)))]

/-- The rule after the second GET, which is paid by the wait. -/
theorem polls_paced_idle :
    ∃ s, ∃ waits : Nat, ((poller fun _ => "").timed pollDurations.timing).exec
        ((poller fun _ => "").timed pollDurations.timing).init twoPollsRun = some s ∧
      2 ≤ 1 + 0 + waits ∧ (waits : ℚ) * 60 ≤ s.now := by
  have hrun : (((poller fun _ => "").timed pollDurations.timing).exec
      ((poller fun _ => "").timed pollDurations.timing).init twoPollsRun).isSome := by
    decide +kernel
  obtain ⟨s, hs⟩ := Option.isSome_iff_exists.mp hrun
  obtain ⟨waits, hcount, htime⟩ := polls_paced pollDurations (fun _ => "") hs
  exact ⟨s, waits, hs, hcount, htime⟩

end EgressAgent
