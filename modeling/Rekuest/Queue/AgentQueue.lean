import Rekuest.Task.Row

/-!
# The per-agent queue

`consumers/agent_queue.rs`: the two redis lists of one agent, the queue its
producers push to and the list of frames that were popped and not yet acked.
Each command is atomic.
-/

namespace Rekuest.Queue

/-- What the drain reads of a queued message. -/
inductive Message
  | command (message : ToAgent)
  /-- A probe's Assign: it carries no task row. -/
  | probe
  | other
  deriving DecidableEq, Repr

/-- A serialized frame.  `id` is minted by the push; `priority` is how it was
pushed. -/
structure Frame where
  id : Nat
  message : Message
  priority : Bool
  deriving DecidableEq, Repr

/-- The two lists: `queue` from its right end, where it is popped, and
`processing` from its left end, where a popped frame is put. -/
structure AgentQueue where
  queue : List Frame := []
  processing : List Frame := []
  deriving DecidableEq, Repr

namespace AgentQueue

/-- Queue a frame; `priority` jumps the backlog (`LPUSH`, or `RPUSH`). -/
def push (q : AgentQueue) (frame : Frame) : AgentQueue :=
  if frame.priority then { q with queue := frame :: q.queue }
  else { q with queue := q.queue ++ [frame] }

/-- Move the next frame to in-flight (`BLMOVE queue processing RIGHT LEFT`). -/
def pop (q : AgentQueue) : Option Frame × AgentQueue :=
  match q.queue with
  | [] => (none, q)
  | frame :: rest => (some frame, { queue := rest, processing := frame :: q.processing })

/-- A popped frame was delivered (`LREM processing 0`). -/
def ack (q : AgentQueue) (frame : Frame) : AgentQueue :=
  { q with processing := q.processing.filter (· ≠ frame) }

/-- One round of `recover` (`LMOVE processing queue LEFT RIGHT`); whether a
frame was moved. -/
def recover (q : AgentQueue) : Bool × AgentQueue :=
  match q.processing with
  | [] => (false, q)
  | frame :: rest => (true, { queue := frame :: q.queue, processing := rest })

/-- Hand a popped frame back, to be popped next (the script of `requeue`). -/
def requeue (q : AgentQueue) (frame : Frame) : AgentQueue :=
  if frame ∈ q.processing then
    { queue := frame :: q.queue, processing := q.processing.erase frame }
  else q

/-- Whether a frame is in one of the lists. -/
def Holds (q : AgentQueue) (frame : Frame) : Prop :=
  frame ∈ q.queue ∨ frame ∈ q.processing

/-- Every frame of the lists, in the order in which a recover would have them
popped. -/
def waiting (q : AgentQueue) : List Frame := q.processing.reverse ++ q.queue

variable {q : AgentQueue} {f g : Frame} {rest : List Frame}

theorem mem_waiting : f ∈ q.waiting ↔ q.Holds f := by
  simp [waiting, Holds, or_comm]

theorem holds_push : (q.push g).Holds f ↔ f = g ∨ q.Holds f := by
  unfold push Holds
  split <;> simp [or_assoc, or_comm]

theorem processing_push : (q.push g).processing = q.processing := by
  unfold push
  split <;> rfl

/-! ## The moves between the lists -/

theorem holds_pop (h : q.Holds f) : q.pop.2.Holds f := by
  unfold pop
  cases hQueue : q.queue with
  | nil => exact h
  | cons g rest => simpa [Holds, hQueue, or_assoc, or_comm, or_left_comm] using h

theorem holds_recover (h : q.Holds f) : q.recover.2.Holds f := by
  unfold recover
  cases hProcessing : q.processing with
  | nil => exact h
  | cons g rest => simpa [Holds, hProcessing, or_assoc, or_comm, or_left_comm] using h

theorem stays_recover (h : f ∈ q.processing) :
    f ∈ q.recover.2.processing ∨ f ∈ q.recover.2.queue :=
  (holds_recover (.inr h)).symm

theorem mem_pop_processing (h : f ∈ q.processing) : f ∈ q.pop.2.processing := by
  unfold pop
  cases q.queue with
  | nil => exact h
  | cons g rest => exact List.mem_cons_of_mem _ h

theorem holds_ack (h : q.Holds f) : (q.ack g).Holds f ∨ (f = g ∧ f ∈ q.processing) := by
  rcases h with hQueue | hProcessing
  · exact .inl (.inl hQueue)
  · by_cases hEq : f = g
    · exact .inr ⟨hEq, hProcessing⟩
    · exact .inl (.inr (by simp [ack, hProcessing, hEq]))

theorem mem_processing_ack : f ∈ (q.ack g).processing ↔ f ∈ q.processing ∧ f ≠ g := by
  simp [ack]

theorem holds_requeue : (q.requeue g).Holds f ↔ q.Holds f := by
  unfold requeue
  split
  case isFalse => rfl
  case isTrue hMem =>
    by_cases hEq : f = g
    · subst hEq
      simp [Holds, hMem]
    · simp [Holds, List.mem_erase_of_ne hEq, hEq]

theorem stays_requeue (h : f ∈ q.processing) :
    f ∈ (q.requeue g).processing ∨ f ∈ (q.requeue g).queue :=
  (holds_requeue.mpr (.inr h)).symm

/-- A pop and a round of recover keep the order. -/
theorem waiting_pop : waiting { queue := rest, processing := f :: q.processing } =
    waiting { q with queue := f :: rest } := by
  simp [waiting]

theorem waiting_recover : waiting { queue := f :: q.queue, processing := rest } =
    waiting { q with processing := f :: rest } := by
  simp [waiting]

end AgentQueue

end Rekuest.Queue
