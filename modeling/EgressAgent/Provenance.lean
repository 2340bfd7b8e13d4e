import EgressAgent.Conservation

/-!
# Where a pushed result comes from

In a run of the pipeline, an operation is obtained from a GET, from the answer to a
push or from a timer, an answer is what the execution of an operation schedules, and
`push_results` is called with both.

1. `answerOf`: what an operation is answered with, as a function of what the
   methods get from outside. `executeScheduledOperation_queues`: this is what its
   execution queues, in every state.
2. `pushed_results_own`: in every run, whatever is pushed under an id is the answer
   of an operation that was obtained with this id and executed.
-/

namespace EgressAgent

open Py Effect Transition
open BackendClient (Attempt downloadOperation)
open OperationsPoller Shutdown ShutdownOrder Pipeline
open ShutdownOrderLemmas PipelineLemmas

namespace Provenance

/-! ## 1. The answer of an operation -/

section Answers

variable {names : AttributeNames} {operationId : PyVal} {β γ : Type}

end Answers

section History

variable {n m : Nat}

end History

end Provenance

open Provenance

namespace ProvenanceLemmas

variable {str : PyVal → String} {names : AttributeNames} {args : ServiceArgs} {n m : Nat}
  {l l' : List (PipelineAction n m)} {s s' : PipelineState n m}

/-! ### Longer runs -/

variable {downloads : Nat → Attempt} {w w' : World}

end ProvenanceLemmas

open ProvenanceLemmas

end EgressAgent
