import EgressAgent.Conservation

/-!
# The bound on the polled operations

The polling thread asks `_can_accept_work` for room and puts an operation in the
queue of the workers much later; in between the workers take from the queue and
the publisher threads and the timers add to it. The room that was found is for
one polled operation, and nobody else adds one, so it is still there when the
operation is submitted (`Bounded`).

`backpressure_bound`: in every run each GET is preceded by an observation of room
since the last submission, and at most as many polled operations wait in the
queue as there are workers.
-/

namespace EgressAgent

open Py Effect Transition
open BackendClient (Attempt)
open OperationsPoller Shutdown ShutdownOrder Pipeline
open ShutdownOrderLemmas PipelineLemmas

namespace Pipeline

/-- The polling thread has found room and has not submitted an operation
since. -/
def committed : PollPc → Bool
  | .issueGet => true
  | .fetching _ => true
  | .innerTest _ => true
  | .submit _ => true
  | _ => false

@[simp] theorem committed_notifyAll (pc : PollPc) : committed pc.notifyAll = committed pc := by
  cases pc <;> rfl

section Waiting

variable {n m : Nat}

/-- How many polled operations wait in the queue of the workers. -/
def polledWaiting (L : Ledger (Place n m) Tag) : Nat :=
  (L.labels .opsQueue).countP fun tag => tag.source = .polled

/-- What a publisher thread has to hand on came with the answer to a push. -/
def Piggybacked (L : Ledger (Place n m) Tag) : Prop :=
  ∀ j, ∀ t ∈ L.held (.delivering j), t.label.source = .piggybacked

/-- There is no more than the workers have room for, and less while the polling
thread is to submit an operation. -/
structure Bounded (s : PipelineState n m) : Prop where
  waiting : polledWaiting s.ledger ≤ n
  room : committed s.poller = true → polledWaiting s.ledger < n

/-- A GET is under way only when room was observed. -/
structure Observed (s : PipelineState n m) : Prop where
  next : s.poller = .issueGet → s.observed = true
  gets : ∀ b ∈ s.gets, b = true

end Waiting

end Pipeline

namespace PipelineLemmas

variable {str : PyVal → String} {names : AttributeNames} {args : ServiceArgs}
  {p : ResultsProcessor} {n m : Nat} {L : Ledger (Place n m) Tag} {s s' : PipelineState n m}

/-! ## Who adds to the queue -/

/-- A token that does not come to the queue does not count. -/
theorem polledWaiting_advance_of_ne {a b : Place n m} (hb : .opsQueue ≠ b) :
    polledWaiting (L.advance a b) ≤ polledWaiting L := by
  unfold polledWaiting
  by_cases ha : .opsQueue = a
  · subst ha
    rw [Ledger.labels_advance_source L (Ne.symm hb)]
    exact (List.tail_sublist _).countP_le
  · rw [Ledger.labels_advance_of_ne L ha hb]

/-- Of those that come to it the polled ones count. -/
theorem polledWaiting_advance {a : Place n m} (ha : .opsQueue ≠ a) :
    polledWaiting (L.advance a .opsQueue) =
      polledWaiting L + ((L.labels a).take 1).countP fun tag => tag.source = .polled := by
  unfold polledWaiting
  rw [Ledger.labels_advance_target L ha, List.countP_append]

theorem polledWaiting_advance_piggybacked (h : Piggybacked L) (j : Fin m) (b : Place n m) :
    polledWaiting (L.advance (.delivering j) b) ≤ polledWaiting L := by
  by_cases hb : .opsQueue = b
  · subst hb
    have hnone : ((L.labels (.delivering j)).take 1).countP (fun tag => tag.source = .polled) = 0 := by
      refine List.countP_eq_zero.mpr fun tag htag => ?_
      obtain ⟨t, ht, rfl⟩ := List.mem_map.mp (List.mem_of_mem_take htag)
      simp [h j t ht]
    rw [polledWaiting_advance (a := .delivering j) nofun, hnone]
    exact Nat.le_refl _
  · exact polledWaiting_advance_of_ne hb

/-- A submission adds one operation at most. -/
theorem polledWaiting_submit (b : Place n m) :
    polledWaiting (L.advance .polling b) ≤ polledWaiting L + 1 := by
  by_cases hb : .opsQueue = b
  · subst hb
    have hone := List.countP_le_length (p := fun tag : Tag => decide (tag.source = .polled))
      (l := (L.labels .polling).take 1)
    have htake := List.length_take_le 1 (L.labels .polling)
    rw [polledWaiting_advance (a := .polling) nofun]
    omega
  · exact Nat.le_succ_of_le (polledWaiting_advance_of_ne hb)

theorem polledWaiting_issue {a : Place n m} {tag : Tag} (h : .opsQueue = a → tag.source ≠ .polled) :
    polledWaiting (L.issue a tag) = polledWaiting L := by
  unfold polledWaiting
  by_cases ha : .opsQueue = a
  · subst ha
    rw [Ledger.labels_issue, if_pos rfl, List.countP_append]
    simp [h rfl]
  · rw [Ledger.labels_issue_of_ne L ha]

theorem ne_of_leadsTo {a next place : Place n m} (h : next.LeadsTo place) (hnext : a ≠ next)
    (hkept : a.kept = true) : a ≠ place := by
  rintro rfl
  rcases h with hto | ⟨why, rfl⟩
  · exact hnext hto
  · cases hkept

/-- Only a submission adds a polled operation, and only one. -/
theorem polledWaiting_of_move {L' : Ledger (Place n m) Tag} {submits : Bool} (hpig : Piggybacked L)
    (h : LedgerMove L submits L') : polledWaiting L' ≤ polledWaiting L + submits.toNat := by
  cases h with
  | idle => exact Nat.le_refl _
  | submit => exact polledWaiting_submit _
  | handOn j => exact polledWaiting_advance_piggybacked hpig j _
  | poll => exact Nat.le_of_eq (polledWaiting_issue nofun)
  | schedule => exact Nat.le_of_eq (polledWaiting_issue nofun)
  | pushAnswered j =>
    have hpushed : polledWaiting (L.advance (.publisher j) .pushed) ≤ polledWaiting L :=
      polledWaiting_advance_of_ne nofun
    exact Nat.le_trans (Nat.le_of_eq (polledWaiting_issue nofun)) hpushed
  | execute k hto => exact polledWaiting_advance_of_ne (ne_of_leadsTo hto nofun rfl)
  | _ => exact polledWaiting_advance_of_ne nofun

/-! ### What the publisher threads have to hand on -/

theorem piggybacked_advance (h : Piggybacked L) {a b : Place n m} (hb : ∀ j, .delivering j ≠ b) :
    Piggybacked (L.advance a b) := by
  intro j t ht
  cases Ledger.mem_advance ht with
  | inl hold => exact h j t hold
  | inr hmoved => exact absurd hmoved.1 (hb j)

theorem piggybacked_issue (h : Piggybacked L) {a : Place n m} {tag : Tag}
    (htag : ∀ j, .delivering j = a → tag.source = .piggybacked) : Piggybacked (L.issue a tag) := by
  intro j t ht
  rcases Ledger.mem_issue ht with hold | ⟨ha, rfl⟩
  · exact h j t hold
  · exact htag j ha

theorem piggybacked_of_move {L' : Ledger (Place n m) Tag} {submits : Bool} (hpig : Piggybacked L)
    (h : LedgerMove L submits L') : Piggybacked L' := by
  cases h with
  | idle => exact hpig
  | poll => exact piggybacked_issue hpig nofun
  | schedule => exact piggybacked_issue hpig nofun
  | pushAnswered j =>
    have hpushed : Piggybacked (L.advance (.publisher j) .pushed) := piggybacked_advance hpig nofun
    exact piggybacked_issue hpushed fun _ _ => rfl
  | submit hto => exact piggybacked_advance hpig fun j => ne_of_leadsTo hto nofun rfl
  | execute k hto => exact piggybacked_advance hpig fun j => ne_of_leadsTo hto nofun rfl
  | handOn j hto => exact piggybacked_advance hpig fun j => ne_of_leadsTo hto nofun rfl
  | _ => exact piggybacked_advance hpig nofun

/-! ## Room for one -/

/-- A step that adds no polled operation. -/
theorem bounded_of_le (h : Bounded s) (hpoller : committed s'.poller = true → committed s.poller = true)
    (hle : polledWaiting s'.ledger ≤ polledWaiting s.ledger) : Bounded s' :=
  ⟨Nat.le_trans hle h.waiting, fun hc => Nat.lt_of_le_of_lt hle (h.room (hpoller hc))⟩

/-- What `_can_accept_work` sees. -/
theorem polledWaiting_le_queue (h : Accounted s) :
    polledWaiting s.ledger ≤ s.world.opsQueue.length := by
  have hlength := congrArg List.length (h .opsQueue rfl)
  simp only [List.length_map, PipelineState.idsAt] at hlength
  rw [← hlength]
  exact List.countP_le_length

/-- There is room after `_can_accept_work` has found it. -/
theorem bounded_of_room (hacc : Accounted s) (hanswer : answersFor n s.world (.canAccept true) = true)
    (hledger : s'.ledger = s.ledger) : Bounded s' := by
  have hroom : s.world.opsQueue.length < n := by simpa [answersFor] using hanswer
  have hlt : polledWaiting s'.ledger < n := by
    rw [hledger]
    exact Nat.lt_of_le_of_lt (polledWaiting_le_queue hacc) hroom
  exact ⟨Nat.le_of_lt hlt, fun _ => hlt⟩

theorem bounded_step {a : PipelineAction n m} (hacc : Accounted s) (hpig : Piggybacked s.ledger)
    (h : Bounded s) (hs : PipelineMove str names args s a s') : Bounded s' := by
  have hle := polledWaiting_of_move hpig (ledgerMove hs)
  cases hs with
  | @poll i pc w hanswer hmove =>
    generalize hpc : s.poller = pc₀ at hmove hle
    cases hmove with
    | accepted => exact bounded_of_room hacc hanswer rfl
    | more => exact bounded_of_room hacc hanswer rfl
    | submitted =>
      -- The room was for this one.
      have hroom := h.room (by rw [hpc]; rfl)
      exact ⟨Nat.le_trans hle hroom, nofun⟩
    | raised =>
      have hroom := h.room (by rw [hpc]; rfl)
      exact ⟨Nat.le_trans hle hroom, nofun⟩
    | send => exact bounded_of_le h (fun _ => by rw [hpc]; rfl) hle
    | answer => exact bounded_of_le h (fun _ => by rw [hpc]; rfl) hle
    | take => exact bounded_of_le h (fun _ => by rw [hpc]; rfl) hle
    | _ => exact bounded_of_le h nofun hle
  | notify => exact bounded_of_le h (fun hc => committed_notifyAll _ ▸ hc) hle
  | stop c =>
    cases c with
    | operationsPoller => exact bounded_of_le h (fun hc => committed_notifyAll _ ▸ hc) hle
    | _ => exact ⟨h.waiting, h.room⟩
  | _ => exact bounded_of_le h id hle

/-! ## The GETs -/

theorem notifyAll_eq_issueGet {pc : PollPc} (h : pc.notifyAll = .issueGet) : pc = .issueGet := by
  cases pc <;> first | rfl | cases h

theorem observed_step {a : PipelineAction n m} (h : Observed s)
    (hs : PipelineMove str names args s a s') : Observed s' := by
  cases hs with
  | @poll i pc w _ hmove =>
    generalize hpc : s.poller = pc₀ at hmove
    cases hmove with
    | accepted => exact ⟨fun _ => Bool.or_true _, h.gets⟩
    | more => exact ⟨fun _ => Bool.or_true _, h.gets⟩
    | send =>
      refine ⟨nofun, fun b hb => ?_⟩
      cases List.mem_append.mp hb with
      | inl hold => exact h.gets b hold
      | inr hnew => exact (List.mem_singleton.mp hnew).trans (h.next hpc)
    | _ => exact ⟨nofun, h.gets⟩
  | notify => exact ⟨fun hpc => h.next (notifyAll_eq_issueGet hpc), h.gets⟩
  | stop c =>
    cases c with
    | operationsPoller => exact ⟨fun hpc => h.next (notifyAll_eq_issueGet hpc), h.gets⟩
    | _ => exact ⟨h.next, h.gets⟩
  | _ => exact ⟨h.next, h.gets⟩

/-! ## Every run -/

theorem piggybacked_of_reachable (h : (pipeline str names args n m).Reachable s) :
    Piggybacked s.ledger := by
  refine h.invariant (I := fun s => Piggybacked s.ledger) (fun _ _ ht => ?_) ?_
  · cases ht
  · exact fun s a s' hi _ hs => piggybacked_of_move hi (ledgerMove (pipelineStep_move hs))

theorem bounded_of_reachable (h : (pipeline str names args n m).Reachable s) : Bounded s := by
  refine h.invariant_with (J := fun s => Accounted s ∧ Piggybacked s.ledger) ?_ ?_ ?_
  · exact fun s hs => ⟨accounted_of_reachable hs, piggybacked_of_reachable hs⟩
  · exact ⟨Nat.zero_le n, nofun⟩
  · exact fun s a s' hJ hi _ hs => bounded_step hJ.1 hJ.2 hi (pipelineStep_move hs)

theorem observed_of_reachable (h : (pipeline str names args n m).Reachable s) : Observed s := by
  refine h.invariant ⟨nofun, nofun⟩ ?_
  exact fun s a s' hi _ hs => observed_step hi (pipelineStep_move hs)

end PipelineLemmas

/-- In every run of the pipeline with `n` workers, every GET is sent after
`_can_accept_work` has found less than `n` operations in the queue, with no
submission in between, and at most `n` of the operations in the queue were
polled. The labels are those of the operations in the queue. -/
theorem backpressure_bound (str : PyVal → String) (names : AttributeNames) (args : ServiceArgs)
    {n m : Nat} {s : PipelineState n m} (h : (pipeline str names args n m).Reachable s) :
    (∀ b ∈ s.gets, b = true) ∧
      (s.ledger.labels .opsQueue).map Tag.operationId =
        s.world.opsQueue.map Operation.operationId ∧
      polledWaiting s.ledger ≤ n :=
  ⟨(observed_of_reachable h).gets, accounted_of_reachable h .opsQueue rfl,
    (bounded_of_reachable h).waiting⟩

/-- The polling thread finds room for one operation. Before it submits it a timer
adds one, and after that there is no room for another GET. -/
def crowdedRun : List (PipelineAction 1 1) :=
  let operation := PyVal.dict (operationWith (.dict []))
  [.poller .go, .poller (.canAccept true), .poller (.get (okAnswer operation)), .poller .go,
    .poller .go, .timer .metrics, .poller (.submit fun _ => okAnswer .none),
    .poller (.canAccept false)]

/-- The bound at the run in which a timer gets in between: the queue is longer
than the number of workers, but one of the operations in it was polled. -/
theorem backpressure_bound_crowded :
    let args : ServiceArgs := { skipLogs := false, logsService := none }
    let S := pipeline (fun _ => "") mcdNames args 1 1
    ∃ s, S.exec S.init crowdedRun = some s ∧ s.gets = [true] ∧ s.world.opsQueue.length = 2 ∧
      (∀ b ∈ s.gets, b = true) ∧
      (s.ledger.labels .opsQueue).map Tag.operationId =
        s.world.opsQueue.map Operation.operationId ∧
      polledWaiting s.ledger ≤ 1 := by
  intro args S
  have hrun : (S.exec S.init crowdedRun).map (fun s => (s.gets, s.world.opsQueue.length)) =
      some ([true], 2) := by decide +kernel
  obtain ⟨s, hs, hends⟩ := Option.map_eq_some_iff.mp hrun
  simp only [Prod.mk.injEq] at hends
  obtain ⟨hgets, hlength⟩ := hends
  refine ⟨s, hs, hgets, hlength, ?_⟩
  exact backpressure_bound (fun _ => "") mcdNames args (System.reachable_of_exec hs)

end EgressAgent
