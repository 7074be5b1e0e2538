import Lvllm.Foundation.Heapq
import Lvllm.Request.Request

/-!
# Request queues

The waiting queues of the scheduler (`vllm/v1/core/sched/request_queue.py`).  A first-come-
first-served queue is a deque; a priority queue is a `heapq` heap of requests compared by
`Request.__lt__`.  A queue holds references to request objects, and the comparison reads the
objects, so both are parameters here.

Under either policy the operations add and remove exactly the requests they are given.
-/

namespace Lvllm

/-- A reference to a request object. -/
abbrev Ref := ℕ

/-- `SchedulingPolicy`. -/
inductive SchedulingPolicy where
  | fcfs
  | priority
  deriving DecidableEq, Repr

namespace Request

variable {H : Type}

/-- `Request.__lt__` up to the request id; two objects with equal ids are compared by identity. -/
def lt (a b : Request H) (sameId : Bool) : Bool :=
  if a.priority ≠ b.priority then decide (a.priority < b.priority)
  else if a.arrivalTime ≠ b.arrivalTime then decide (a.arrivalTime < b.arrivalTime)
  else if a.requestId ≠ b.requestId then decide (a.requestId < b.requestId)
  else sameId

end Request

namespace RequestQueue

variable (policy : SchedulingPolicy) (lt : Ref → Ref → Bool)

/-- `add_request`. -/
def addRequest (queue : List Ref) (request : Ref) : List Ref :=
  match policy with
  | .fcfs => queue ++ [request]
  | .priority => Heapq.heappush lt queue request

/-- What `pop_request` leaves of a queue.  It returns the request at the front, which is the one
that `peek_request` shows. -/
def popRequest (queue : List Ref) : List Ref :=
  match policy with
  | .fcfs => queue.tail
  | .priority => ((Heapq.heappop lt queue).map Prod.snd).getD []

/-- `prepend_request`. -/
def prependRequest (queue : List Ref) (request : Ref) : List Ref :=
  match policy with
  | .fcfs => request :: queue
  | .priority => Heapq.heappush lt queue request

/-- The requests in the order in which the queue is iterated. -/
def iterate (queue : List Ref) : List Ref :=
  match policy with
  | .fcfs => queue
  | .priority => Heapq.drain lt queue.length queue

/-- `prepend_requests`: each request is prepended in turn, so a deque receives them reversed. -/
def prependRequests (queue requests : List Ref) : List Ref :=
  (iterate policy lt requests).foldl (prependRequest policy lt) queue

/-- `remove_requests`. -/
def removeRequests (queue requests : List Ref) : List Ref :=
  let rest := queue.filter (· ∉ requests)
  match policy with
  | .fcfs => rest
  | .priority => Heapq.heapify lt rest

/-! ## What the queues hold -/

variable {policy lt}

lemma addRequest_perm (queue : List Ref) (request : Ref) :
    (addRequest policy lt queue request).Perm (request :: queue) := by
  cases policy with
  | fcfs => exact List.perm_append_singleton request queue
  | priority => exact Heapq.heappush_perm lt queue request

lemma popRequest_perm (request : Ref) (queue : List Ref) :
    (popRequest policy lt (request :: queue)).Perm queue := by
  cases policy with
  | fcfs => exact .refl _
  | priority =>
    obtain ⟨rest, hpop, hperm⟩ := Heapq.heappop_cons lt request queue
    simpa only [popRequest, hpop, Option.map_some, Option.getD_some] using hperm

lemma prependRequest_perm (queue : List Ref) (request : Ref) :
    (prependRequest policy lt queue request).Perm (request :: queue) := by
  cases policy with
  | fcfs => exact .refl _
  | priority => exact Heapq.heappush_perm lt queue request

lemma iterate_perm (queue : List Ref) : (iterate policy lt queue).Perm queue := by
  cases policy with
  | fcfs => exact .refl _
  | priority => exact Heapq.drain_perm lt le_rfl

lemma prependRequests_perm (queue requests : List Ref) :
    (prependRequests policy lt queue requests).Perm (requests ++ queue) := by
  have hfold : ∀ requests queue : List Ref,
      (requests.foldl (prependRequest policy lt) queue).Perm (requests ++ queue) := by
    intro requests
    induction requests with
    | nil => exact fun queue => .refl queue
    | cons request requests ih =>
      intro queue
      refine (ih _).trans (((prependRequest_perm queue request).append_left requests).trans ?_)
      exact List.perm_middle
  exact (hfold _ _).trans ((iterate_perm requests).append_right queue)

lemma removeRequests_perm (queue requests : List Ref) :
    (removeRequests policy lt queue requests).Perm (queue.filter (· ∉ requests)) := by
  cases policy with
  | fcfs => exact .refl _
  | priority => exact Heapq.heapify_perm lt _

end RequestQueue

end Lvllm
