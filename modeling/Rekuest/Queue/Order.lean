import Mathlib.Data.List.Basic
import Rekuest.Queue.Delivery

/-!
# The order of commands

Popping, recovering and queueing keep the frames in the order they were pushed,
and so does handing a frame back while it is the only one out.  A drain checks
its lease after it popped: where only the lease holder pops, and no frame is
lost on the way to the socket, every command reaches the agent after those
pushed before it.
-/

namespace Rekuest.Queue

open Concurrent

/-- A pop that takes a frame is the lease holder's. -/
def holderPops (s : State) : Action → Bool
  | .drain c reply => (s.connections[c]?).all fun conn => match conn.drain with
      | .popping => reply == .refused || s.lists.queue.isEmpty ||
          Leases.holdsLease s.lease c
      | _ => true
  | _ => true

/-- The steps that keep the order: only the lease holder pops, and no frame is
lost. -/
def KeepsOrder (s : State) (a : Action) : Prop :=
  holderPops s a = true ∧ DeliversFirst s a

instance (s : State) (a : Action) : Decidable (KeepsOrder s a) :=
  inferInstanceAs (Decidable (_ ∧ _))

/-- The frame a step writes to a socket. -/
def State.writes (s : State) : Action → Option Frame
  | .write c true => (s.connections[c]?).bind fun conn =>
      match conn.writing, conn.unsent with
      | true, .text frame :: _ => some frame
      | _, _ => none
  | _ => none

namespace Shared

/-- A command that is still to be written. -/
def outstanding (b : Shared) (f : Frame) : Bool :=
  !f.priority && !b.written.contains f && !b.dropped.contains f

/-- The commands still to be written, in the order they are popped in. -/
def backlog (b : Shared) : List Frame := b.lists.waiting.filter b.outstanding

/-- Every command pushed before this one was written or dropped. -/
structure Ready (b : Shared) (g : Frame) : Prop where
  pushed : g.id < b.pushed.length
  before : ∀ f ∈ b.pushed, f.priority = false → f.id < g.id →
    f ∈ b.written ∨ f ∈ b.dropped

/-- The commands go out in the order they were pushed. -/
structure InOrder (b : Shared) : Prop where
  ids : ∀ (i : Nat) f, b.pushed[i]? = some f → f.id = i
  known : ∀ f, b.lists.Holds f → f.id < b.pushed.length
  sorted : b.backlog.Pairwise (·.id < ·.id)
  /-- At most one command is popped and still to be written. -/
  single : ∀ f ∈ b.lists.processing, ∀ g ∈ b.lists.processing,
    b.outstanding f = true → b.outstanding g = true → f = g
  written : ∀ g ∈ b.written, g.priority = false → b.Ready g
  dropped : ∀ g ∈ b.dropped, g.priority = false → b.Ready g

/-- What was pushed, written and dropped since. -/
structure Later (b b' : Shared) : Prop where
  pushed : ∀ f ∈ b'.pushed, f ∈ b.pushed ∨ b.pushed.length ≤ f.id
  length : b.pushed.length ≤ b'.pushed.length
  written : ∀ f ∈ b.written, f ∈ b'.written
  dropped : ∀ f ∈ b.dropped, f ∈ b'.dropped

end Shared

/-- The frame has left the queue: a drain has it, or its writer. -/
def Connection.Has (conn : Connection) (g : Frame) : Prop :=
  conn.drain.frame = some g ∨ .text g ∈ conn.unsent

/-- What one connection keeps to: the lease holder comes to a pop with nothing
out, and otherwise only its own frame is. -/
structure Connection.InOrder (b : Shared) (c : Nat) (conn : Connection) : Prop where
  ready : ∀ g, conn.Has g → g.priority = false → b.Ready g
  popping : Leases.holdsLease b.lease c = true → conn.drain = .popping →
    ∀ f ∈ b.lists.processing, b.outstanding f = false
  holding : Leases.holdsLease b.lease c = true → ∀ g, conn.drain.frame = some g →
    ∀ f ∈ b.lists.processing, b.outstanding f = true → f = g

/-- Order in every part, but for one connection. -/
structure InOrderBut (c : Nat) (s : State) : Prop where
  shared : s.toShared.InOrder
  holder : ∀ i, Leases.holdsLease s.lease i = true → i < s.connections.length
  others : ∀ (i : Nat) conn, i ≠ c → s.connections[i]? = some conn →
    conn.InOrder s.toShared i

structure InOrder (s : State) : Prop where
  shared : s.toShared.InOrder
  holder : ∀ i, Leases.holdsLease s.lease i = true → i < s.connections.length
  connections : ∀ (i : Nat) conn, s.connections[i]? = some conn → conn.InOrder s.toShared i

/-! ## The lists and the frames -/

namespace Shared

variable {b b' : Shared} {f g : Frame} {rest : List Frame}

theorem outstanding_iff : b.outstanding f = true ↔
    f.priority = false ∧ f ∉ b.written ∧ f ∉ b.dropped := by
  simp [outstanding, and_assoc]

theorem Later.refl (b : Shared) : b.Later b :=
  ⟨fun _ => .inl, Nat.le_refl _, fun _ h => h, fun _ h => h⟩

theorem Later.of_same (hPushed : b'.pushed = b.pushed) (hWritten : b'.written = b.written)
    (hDropped : b'.dropped = b.dropped) : b.Later b' where
  pushed := fun f hf => .inl (hPushed ▸ hf)
  length := Nat.le_of_eq (by rw [hPushed])
  written := fun f hf => hWritten ▸ hf
  dropped := fun f hf => hDropped ▸ hf

theorem Later.outstanding (h : b.Later b') (hOut : b'.outstanding f = true) :
    b.outstanding f = true := by
  rw [outstanding_iff] at hOut ⊢
  exact ⟨hOut.1, fun hW => hOut.2.1 (h.written f hW), fun hD => hOut.2.2 (h.dropped f hD)⟩

theorem Ready.later (hReady : b.Ready g) (h : b.Later b') : b'.Ready g where
  pushed := Nat.lt_of_lt_of_le hReady.pushed h.length
  before := by
    intro f hf hPriority hId
    rcases h.pushed f hf with hOld | hNew
    · exact (hReady.before f hOld hPriority hId).imp (h.written f) (h.dropped f)
    · have hPushed := hReady.pushed
      omega

/-- The frame that comes out of the queue when nothing else is out. -/
theorem InOrder.ready (h : b.InOrder)
    (hFrames : ∀ f ∈ b.pushed, b.lists.Holds f ∨ f ∈ b.written ∨ f ∈ b.dropped)
    (hQueue : b.lists.queue = g :: rest)
    (hNone : ∀ f ∈ b.lists.processing, b.outstanding f = false)
    (hCommand : g.priority = false) : b.Ready g := by
  by_cases hOut : b.outstanding g = true
  case neg =>
    rw [outstanding_iff] at hOut
    by_cases hWritten : g ∈ b.written
    · exact h.written g hWritten hCommand
    · by_cases hDropped : g ∈ b.dropped
      · exact h.dropped g hDropped hCommand
      · exact absurd ⟨hCommand, hWritten, hDropped⟩ hOut
  case pos =>
    refine ⟨h.known g (.inl (by simp [hQueue])), fun f hf hPriority hId => ?_⟩
    rcases hFrames f hf with hHolds | hGone
    case inr => exact hGone
    by_cases hf' : b.outstanding f = true
    case neg =>
      rw [outstanding_iff] at hf'
      by_cases hWritten : f ∈ b.written
      · exact .inl hWritten
      · by_cases hDropped : f ∈ b.dropped
        · exact .inr hDropped
        · exact absurd ⟨hPriority, hWritten, hDropped⟩ hf'
    case pos =>
      have hRest : f ∈ rest := by
        rcases hHolds with hIn | hIn
        · rw [hQueue, List.mem_cons] at hIn
          rcases hIn with rfl | hIn
          · omega
          · exact hIn
        · rw [hNone f hIn] at hf'
          cases hf'
      have hSorted := h.sorted
      rw [backlog, AgentQueue.waiting, hQueue, List.filter_append, List.filter_cons,
        if_pos hOut, List.pairwise_append, List.pairwise_cons] at hSorted
      have hLater := hSorted.2.1.1 f (List.mem_filter.mpr ⟨hRest, hf'⟩)
      omega

/-! ### What keeps the shared part in order -/

theorem backlog_sublist (hLater : b.Later b')
    (hWaiting : b'.lists.waiting.Sublist b.lists.waiting) : b'.backlog.Sublist b.backlog :=
  (hWaiting.filter _).trans (List.monotone_filter_right _ fun _ => hLater.outstanding)

/-- Nothing is pushed, and what is still to be written stays in order. -/
theorem InOrder.step (h : b.InOrder) (hLater : b.Later b') (hPushed : b'.pushed = b.pushed)
    (hKnown : ∀ f, b'.lists.Holds f → b.lists.Holds f)
    (hBacklog : b'.backlog.Sublist b.backlog)
    (hSingle : ∀ f ∈ b'.lists.processing, ∀ g ∈ b'.lists.processing,
      b'.outstanding f = true → b'.outstanding g = true → f = g)
    (hWritten : ∀ g ∈ b'.written, g.priority = false → b.Ready g)
    (hDropped : ∀ g ∈ b'.dropped, g.priority = false → b.Ready g) : b'.InOrder where
  ids := by
    rw [hPushed]
    exact h.ids
  known := by
    rw [hPushed]
    exact fun f hf => h.known f (hKnown f hf)
  sorted := h.sorted.sublist hBacklog
  single := hSingle
  written := fun g hg hCommand => (hWritten g hg hCommand).later hLater
  dropped := fun g hg hCommand => (hDropped g hg hCommand).later hLater

/-- Frames move between the lists. -/
theorem InOrder.move {lists : AgentQueue} (h : b.InOrder)
    (hKnown : ∀ f, lists.Holds f → b.lists.Holds f)
    (hBacklog : (lists.waiting.filter b.outstanding).Sublist b.backlog)
    (hSingle : ∀ f ∈ lists.processing, ∀ g ∈ lists.processing,
      b.outstanding f = true → b.outstanding g = true → f = g) :
    InOrder { b with lists := lists } :=
  h.step (.of_same rfl rfl rfl) rfl hKnown hBacklog hSingle h.written h.dropped

theorem InOrder.recover (h : b.InOrder) : InOrder { b with lists := b.lists.recover.2 } := by
  unfold AgentQueue.recover
  cases hProcessing : b.lists.processing with
  | nil => exact h
  | cons f rest =>
      have hOld : b.lists = { queue := b.lists.queue, processing := f :: rest } := by
        rw [← hProcessing]
      have hSame : AgentQueue.waiting { queue := f :: b.lists.queue, processing := rest } =
          b.lists.waiting := by
        rw [AgentQueue.waiting_recover, ← hOld]
      have hFewer (g : Frame) (hg : g ∈ rest) : g ∈ b.lists.processing := by
        rw [hProcessing]
        exact List.mem_cons_of_mem f hg
      refine h.move (fun g hg => ?_) ?_ fun g hg g' hg' => ?_
      · exact AgentQueue.mem_waiting.mp (hSame ▸ AgentQueue.mem_waiting.mpr hg)
      · rw [hSame]
        exact List.Sublist.refl _
      · exact h.single g (hFewer g hg) g' (hFewer g' hg')

theorem InOrder.pop (h : b.InOrder)
    (hNone : b.lists.queue ≠ [] → ∀ f ∈ b.lists.processing, b.outstanding f = false) :
    InOrder { b with lists := b.lists.pop.2 } := by
  unfold AgentQueue.pop
  cases hQueue : b.lists.queue with
  | nil => exact h
  | cons f rest =>
      have hOld : b.lists = { queue := f :: rest, processing := b.lists.processing } := by
        rw [← hQueue]
      have hSame : AgentQueue.waiting
          { queue := rest, processing := f :: b.lists.processing } = b.lists.waiting := by
        rw [AgentQueue.waiting_pop, ← hOld]
      have hOnly (g : Frame) (hg : g ∈ f :: b.lists.processing)
          (hOut : b.outstanding g = true) : g = f := by
        rcases List.mem_cons.mp hg with hEq | hIn
        · exact hEq
        · rw [hNone (by simp [hQueue]) g hIn] at hOut
          cases hOut
      refine h.move (fun g hg => ?_) ?_ fun g hg g' hg' hOut hOut' => ?_
      · exact AgentQueue.mem_waiting.mp (hSame ▸ AgentQueue.mem_waiting.mpr hg)
      · rw [hSame]
        exact List.Sublist.refl _
      · exact (hOnly g hg hOut).trans (hOnly g' hg' hOut').symm

/-- A frame that is handed back is the only one out, so it goes back to its
place. -/
theorem InOrder.requeue (h : b.InOrder) (f : Frame) :
    InOrder { b with lists := b.lists.requeue f } := by
  by_cases hMem : f ∈ b.lists.processing
  case neg =>
    rw [show b.lists.requeue f = b.lists by simp [AgentQueue.requeue, hMem]]
    exact h
  case pos =>
    obtain ⟨newer, older, hNot, hProcessing, hErase⟩ := List.exists_erase_eq hMem
    have hFewer (g : Frame) (hg : g ∈ newer ++ older) : g ∈ b.lists.processing := by
      rw [hProcessing]
      simp only [List.mem_append, List.mem_cons] at hg ⊢
      exact hg.imp_right .inr
    have hSame : (AgentQueue.waiting
        { queue := f :: b.lists.queue, processing := newer ++ older }).filter b.outstanding =
        b.backlog := by
      rw [backlog, AgentQueue.waiting, AgentQueue.waiting, hProcessing]
      by_cases hOut : b.outstanding f = true
      · have hNewer : newer.filter b.outstanding = [] := by
          rw [List.filter_eq_nil_iff]
          intro g hg hOut'
          have hEq := h.single g (hFewer g (List.mem_append_left _ hg)) f hMem hOut' hOut
          exact hNot (hEq ▸ hg)
        simp [List.filter_append, List.filter_reverse, hOut, hNewer]
      · simp [List.filter_append, List.filter_reverse, hOut]
    rw [AgentQueue.requeue, if_pos hMem, hErase]
    refine h.move (fun g hg => ?_) (hSame ▸ List.Sublist.refl _) fun g hg g' hg' => ?_
    · rcases hg with hQueue | hIn
      · rcases List.mem_cons.mp hQueue with rfl | hQueue
        · exact .inr hMem
        · exact .inl hQueue
      · exact .inr (hFewer g hIn)
    · exact h.single g (hFewer g hg) g' (hFewer g' hg')

theorem waiting_ack (f : Frame) : (b.lists.ack f).waiting.Sublist b.lists.waiting :=
  (List.filter_sublist.reverse).append (List.Sublist.refl _)

/-- A frame is acked. -/
theorem InOrder.ack (h : b.InOrder) (f : Frame) :
    InOrder { b with lists := b.lists.ack f } := by
  have hFewer (g : Frame) (hg : g ∈ (b.lists.ack f).processing) : g ∈ b.lists.processing :=
    (AgentQueue.mem_processing_ack.mp hg).1
  refine h.move (fun g hg => ?_) ((waiting_ack f).filter _) fun g hg g' hg' => ?_
  · exact AgentQueue.mem_waiting.mp ((waiting_ack f).subset (AgentQueue.mem_waiting.mpr hg))
  · exact h.single g (hFewer g hg) g' (hFewer g' hg')

/-- A frame reaches a socket after all those before it. -/
theorem InOrder.write (h : b.InOrder) (hReady : f.priority = false → b.Ready f) :
    InOrder { b with written := b.written ++ [f] } := by
  have hLater : b.Later { b with written := b.written ++ [f] } :=
    ⟨fun _ => .inl, Nat.le_refl _, fun _ => List.mem_append_left _, fun _ hf => hf⟩
  refine h.step hLater rfl (fun _ hg => hg) (backlog_sublist hLater (List.Sublist.refl _)) ?_ ?_
    h.dropped
  · intro g hg g' hg' hOut hOut'
    exact h.single g hg g' hg' (hLater.outstanding hOut) (hLater.outstanding hOut')
  · intro g hg hCommand
    rcases List.mem_append.mp hg with hOld | hNew
    · exact h.written g hOld hCommand
    · rw [List.mem_singleton] at hNew
      exact hNew ▸ hReady (hNew ▸ hCommand)

/-- A frame is dropped after all those before it. -/
theorem InOrder.drop (h : b.InOrder) (hReady : f.priority = false → b.Ready f) :
    InOrder { b with dropped := b.dropped ++ [f] } := by
  have hLater : b.Later { b with dropped := b.dropped ++ [f] } :=
    ⟨fun _ => .inl, Nat.le_refl _, fun _ hf => hf, fun _ => List.mem_append_left _⟩
  refine h.step hLater rfl (fun _ hg => hg) (backlog_sublist hLater (List.Sublist.refl _)) ?_
    h.written ?_
  · intro g hg g' hg' hOut hOut'
    exact h.single g hg g' hg' (hLater.outstanding hOut) (hLater.outstanding hOut')
  · intro g hg hCommand
    rcases List.mem_append.mp hg with hOld | hNew
    · exact h.dropped g hOld hCommand
    · rw [List.mem_singleton] at hNew
      exact hNew ▸ hReady (hNew ▸ hCommand)

theorem later_push (f : Frame) (hId : f.id = b.pushed.length) (lists : AgentQueue) :
    b.Later { b with lists := lists, pushed := b.pushed ++ [f] } where
  pushed := by
    intro g hg
    rcases List.mem_append.mp hg with hOld | hNew
    · exact .inl hOld
    · rw [List.mem_singleton] at hNew
      exact .inr (Nat.le_of_eq (hNew ▸ hId.symm))
  length := by simp
  written := fun _ hf => hf
  dropped := fun _ hf => hf

/-- A new frame comes after all the others. -/
theorem InOrder.push (h : b.InOrder) (f : Frame) (hId : f.id = b.pushed.length) :
    InOrder { b with lists := b.lists.push f, pushed := b.pushed ++ [f] } := by
  have hLater := later_push f hId (b.lists.push f)
  constructor
  · intro i g hg
    rcases Nat.lt_or_ge i b.pushed.length with hLt | hGe
    · rw [List.getElem?_append_left hLt] at hg
      exact h.ids i g hg
    · rw [List.getElem?_append_right hGe, List.getElem?_singleton] at hg
      split at hg
      · cases hg
        omega
      · cases hg
  · intro g hg
    simp only [List.length_append, List.length_singleton]
    rcases AgentQueue.holds_push.mp hg with rfl | hOld
    · omega
    · have hKnown := h.known g hOld
      omega
  · show List.Pairwise _ ((b.lists.push f).waiting.filter b.outstanding)
    have hSorted := h.sorted
    simp only [backlog, AgentQueue.waiting] at hSorted
    by_cases hPriority : f.priority = true
    · have hOut : b.outstanding f = false := by simp [outstanding, hPriority]
      simpa [AgentQueue.push, AgentQueue.waiting, hPriority, List.filter_append, hOut]
        using hSorted
    · simp only [AgentQueue.push, AgentQueue.waiting, hPriority, Bool.false_eq_true, if_false,
        ← List.append_assoc]
      rw [List.filter_append, List.pairwise_append]
      refine ⟨hSorted, List.Pairwise.sublist List.filter_sublist (List.pairwise_singleton _ _),
        fun g hg g' hg' => ?_⟩
      have hKnown := h.known g (AgentQueue.mem_waiting.mp (List.mem_filter.mp hg).1)
      rw [List.mem_singleton.mp (List.mem_filter.mp hg').1]
      omega
  · rw [AgentQueue.processing_push]
    exact h.single
  · exact fun g hg hCommand => (h.written g hg hCommand).later hLater
  · exact fun g hg hCommand => (h.dropped g hg hCommand).later hLater

end Shared

/-! ## The connections -/

section

variable {s s' after : State} {b b' : Shared} {c i : Nat} {conn conn' : Connection}
variable {reply : Reply} {drain : Drain} {f g : Frame} {settings : Settings} {a : Action}

/-- What the other steps leave of a connection's order. -/
theorem Connection.InOrder.later (h : conn.InOrder b c) (hLater : b.Later b')
    (hHolder : Leases.holdsLease b'.lease c = true → Leases.holdsLease b.lease c = true)
    (hOut : Leases.holdsLease b'.lease c = true → ∀ f ∈ b'.lists.processing,
      b'.outstanding f = true → f ∈ b.lists.processing) : conn.InOrder b' c where
  ready := fun g hHas hCommand => (h.ready g hHas hCommand).later hLater
  popping := by
    intro hHolds hDrain f hf
    rw [← Bool.not_eq_true]
    intro hOut'
    have hNone := h.popping (hHolder hHolds) hDrain f (hOut hHolds f hf hOut')
    rw [hLater.outstanding hOut'] at hNone
    cases hNone
  holding := fun hHolds g hFrame f hf hOut' =>
    h.holding (hHolder hHolds) g hFrame f (hOut hHolds f hf hOut') (hLater.outstanding hOut')

/-- A drain that neither pops nor has a frame. -/
theorem Connection.InOrder.free (h : conn.InOrder b c) (hLater : b.Later b')
    (hFrame : conn'.drain.frame = none) (hDrain : conn'.drain ≠ .popping)
    (hUnsent : ∀ g, .text g ∈ conn'.unsent → .text g ∈ conn.unsent) : conn'.InOrder b' c where
  ready := by
    intro g hHas hCommand
    rcases hHas with hIs | hText
    · rw [hFrame] at hIs
      cases hIs
    · exact (h.ready g (.inr (hUnsent g hText)) hCommand).later hLater
  popping := fun _ hIs => absurd hIs hDrain
  holding := by
    intro _ g hIs
    rw [hFrame] at hIs
    cases hIs

/-- A drain that goes on with its frame. -/
theorem Connection.InOrder.goOn (h : conn.InOrder b c) (hFrame : conn.drain.frame = some f)
    (hSame : conn'.drain.frame = some f)
    (hUnsent : ∀ g, .text g ∈ conn'.unsent → .text g ∈ conn.unsent ∨ g = f) :
    conn'.InOrder b c where
  ready := by
    intro g hHas hCommand
    rcases hHas with hIs | hText
    · exact h.ready g (.inl (hFrame.trans (hSame.symm.trans hIs))) hCommand
    · rcases hUnsent g hText with hOld | rfl
      · exact h.ready g (.inr hOld) hCommand
      · exact h.ready g (.inl hFrame) hCommand
  popping := by
    intro _ hIs
    rw [hIs] at hSame
    cases hSame
  holding := fun hHolds g hIs => h.holding hHolds g (hFrame.trans (hSame.symm.trans hIs))

/-- A drain that is done with its frame comes to its next pop. -/
theorem Connection.InOrder.done (h : conn.InOrder b c) (hFrame : conn.drain.frame = some f)
    (hLater : b.Later b') (hLease : b'.lease = b.lease) (hLists : b'.lists = b.lists.ack f) :
    ({ conn with drain := .popping } : Connection).InOrder b' c where
  ready := by
    intro g hHas hCommand
    rcases hHas with hIs | hText
    · cases hIs
    · exact (h.ready g (.inr hText) hCommand).later hLater
  popping := by
    intro hHolds _ g hg
    rw [← Bool.not_eq_true]
    intro hOut
    rw [hLists, AgentQueue.mem_processing_ack] at hg
    rw [hLease] at hHolds
    exact hg.2 (h.holding hHolds f hFrame g hg.1 (hLater.outstanding hOut))
  holding := fun _ g hIs => by cases hIs

theorem InOrder.but (h : InOrder s) : InOrderBut c s :=
  ⟨h.shared, h.holder, fun i conn _ hConn => h.connections i conn hConn⟩

theorem InOrderBut.set (h : InOrderBut c s) (hConn : conn'.InOrder s.toShared c) :
    InOrder (s.setConnection c conn') where
  shared := h.shared
  holder := by
    intro i hHolds
    simpa [State.setConnection] using h.holder i hHolds
  connections := by
    intro i conn hGet
    simp only [State.setConnection, List.getElem?_set] at hGet
    split at hGet
    case isTrue hEq =>
      split at hGet
      · cases hGet
        exact hEq ▸ hConn
      · cases hGet
    case isFalse hNe => exact h.others i conn (Ne.symm hNe) hGet

/-- A command of a drain. -/
theorem inOrder_command (h : InOrder s) (hConn : s.connections[c]? = some conn)
    (hAfter : reply ≠ .refused → s.Later after.toShared ∧ InOrderBut c after)
    (hUnsent : ∀ g, .text g ∈ conn'.unsent → .text g ∈ conn.unsent)
    (hDrain : reply = .answered →
      ({ conn' with drain := drain } : Connection).InOrder after.toShared c) :
    InOrder (s.command c conn' reply after drain) := by
  have hOld := h.connections c conn hConn
  have hFrame : ({ conn' with drain := .recovering } : Connection).drain.frame = none := rfl
  cases reply with
  | refused =>
      exact h.but.set (hOld.free (.refl _) hFrame (by simp) hUnsent)
  | unanswered =>
      obtain ⟨hLater, hBut⟩ := hAfter (by simp)
      exact hBut.set (hOld.free hLater hFrame (by simp) hUnsent)
  | answered =>
      obtain ⟨-, hBut⟩ := hAfter (by simp)
      exact hBut.set (hDrain rfl)

theorem Connection.text_tell {outbound : Outbound}
    (h : .text g ∈ (conn.tell outbound).unsent) :
    .text g ∈ conn.unsent ∨ outbound = .text g := by
  unfold Connection.tell at h
  split at h
  · rcases List.mem_append.mp h with hOld | hNew
    · exact .inl hOld
    · exact .inr (List.mem_singleton.mp hNew).symm
  · exact .inl h

/-- A pop of the lease holder finds nothing else out. -/
theorem popped_alone (h : InOrder s) (hConn : s.connections[c]? = some conn)
    (hPop : conn.drain = .popping) (hCond : KeepsOrder s (.drain c reply))
    (hReply : reply ≠ .refused) (hQueue : s.lists.queue ≠ []) :
    Leases.holdsLease s.lease c = true ∧
      ∀ f ∈ s.lists.processing, s.outstanding f = false := by
  have hHolds : Leases.holdsLease s.lease c = true := by
    have hHolder := hCond.1
    simpa [holderPops, hConn, hPop, hReply, hQueue] using hHolder
  exact ⟨hHolds, (h.connections c conn hConn).popping hHolds hPop⟩

/-- The lists change under the connections' eyes. -/
theorem InOrder.lists {lists : AgentQueue} (h : InOrder s)
    (hShared : Shared.InOrder { s.toShared with lists := lists })
    (hOut : ∀ i, i ≠ c → Leases.holdsLease s.lease i = true → ∀ f ∈ lists.processing,
      f ∈ s.lists.processing) : InOrderBut c { s with lists := lists } where
  shared := hShared
  holder := h.holder
  others := fun i conn hNe hConn => (h.connections i conn hConn).later
    (.of_same rfl rfl rfl) (fun hHolds => hHolds) fun hHolds f hf _ => hOut i hNe hHolds f hf

theorem mem_processing_recover (h : f ∈ s.lists.recover.2.processing) :
    f ∈ s.lists.processing := by
  unfold AgentQueue.recover at h
  split at h
  case h_1 => exact h
  case h_2 hProcessing =>
    rw [hProcessing]
    exact List.mem_cons_of_mem _ h

theorem mem_processing_requeue (h : f ∈ (s.lists.requeue g).processing) :
    f ∈ s.lists.processing := by
  unfold AgentQueue.requeue at h
  split at h
  · exact List.mem_of_mem_erase h
  · exact h

theorem recover_none (h : s.lists.recover.1 = false) : s.lists.recover.2.processing = [] := by
  unfold AgentQueue.recover at h ⊢
  split at h
  case h_1 hProcessing => rw [hProcessing]
  case h_2 => cases h

/-- **Step lemma** for a drain at a pop. -/
theorem inOrder_pop (h : InOrder s) (hKept : Kept s) (hConn : s.connections[c]? = some conn)
    (hPop : conn.drain = .popping) (hCond : KeepsOrder s (.drain c reply)) :
    InOrder (s.command c conn reply { s with lists := s.lists.pop.2 }
      (match s.lists.pop.1 with
      | none => .recovering
      | some frame => .checking frame)) := by
  have hOld := h.connections c conn hConn
  refine inOrder_command h hConn (fun hReply => ⟨.of_same rfl rfl rfl, ?_⟩) (fun _ hg => hg) ?_
  · refine h.lists (h.shared.pop fun hQueue =>
      (popped_alone h hConn hPop hCond hReply hQueue).2) fun i hNe hHolds f hf => ?_
    unfold AgentQueue.pop at hf
    split at hf
    case h_1 => exact hf
    case h_2 hQueue =>
      have hMine := (popped_alone h hConn hPop hCond hReply (by simp [hQueue])).1
      exact absurd (Leases.holdsLease_unique hHolds hMine) hNe
  · rintro rfl
    cases hQueue : s.lists.queue with
    | nil =>
        have hEmpty : s.lists.pop = (none, s.lists) := by simp [AgentQueue.pop, hQueue]
        rw [hEmpty]
        exact hOld.free (.of_same rfl rfl rfl) rfl (by simp) (fun _ hg => hg)
    | cons g rest =>
        have hTaken : s.lists.pop = (some g,
            { queue := rest, processing := g :: s.lists.processing }) := by
          simp [AgentQueue.pop, hQueue]
        have hAlone := popped_alone h hConn hPop hCond (by simp) (by simp [hQueue])
        have hSame : s.Later { s with lists := s.lists.pop.2 }.toShared := .of_same rfl rfl rfl
        rw [hTaken] at hSame ⊢
        refine ⟨fun f hHas hCommand => ?_, fun _ hIs => (by cases hIs),
          fun _ f hIs f' hf' hOut => ?_⟩
        · rcases hHas with hIs | hText
          · cases hIs
            exact (h.shared.ready hKept.frames hQueue hAlone.2 hCommand).later hSame
          · exact (hOld.ready f (.inr hText) hCommand).later hSame
        · cases hIs
          rcases List.mem_cons.mp hf' with hEq | hIn
          · exact hEq
          · have hNone := hAlone.2 f' hIn
            rw [hSame.outstanding hOut] at hNone
            cases hNone

/-- **Step lemma** for a drain. -/
theorem inOrder_drain (h : InOrder s) (hKept : Kept s) (hConn : s.connections[c]? = some conn)
    (hCond : KeepsOrder s (.drain c reply)) (hNext : s.drainOnce c conn reply = some s') :
    InOrder s' := by
  have hOld := h.connections c conn hConn
  unfold State.drainOnce at hNext
  split at hNext
  case h_1 => cases hNext
  case h_2 =>
    cases hNext
    refine inOrder_command h hConn (fun _ => ⟨.of_same rfl rfl rfl, ?_⟩) (fun _ hg => hg) ?_
    · exact h.lists h.shared.recover fun _ _ _ f => mem_processing_recover
    · intro _
      cases hMoved : s.lists.recover.1 with
      | true => exact hOld.free (.of_same rfl rfl rfl) rfl (by simp) (fun _ hg => hg)
      | false =>
          refine ⟨fun g hHas hCommand => ?_, fun _ _ f hf => ?_, fun _ g hIs => by cases hIs⟩
          · rcases hHas with hIs | hText
            · cases hIs
            · exact (hOld.ready g (.inr hText) hCommand).later (.of_same rfl rfl rfl)
          · have hNone : f ∈ s.lists.recover.2.processing := hf
            rw [recover_none hMoved] at hNone
            cases hNone
  case h_3 hPop =>
    cases hNext
    exact inOrder_pop h hKept hConn hPop hCond
  case h_4 frame hDrain =>
    cases hNext
    have hFrame : conn.drain.frame = some frame := by rw [hDrain]; rfl
    refine inOrder_command h hConn (fun _ => ⟨.refl _, h.but⟩) (fun _ hg => hg) fun _ => ?_
    refine hOld.goOn hFrame ?_ fun _ hg => .inl hg
    dsimp only
    split <;> rfl
  case h_5 frame hDrain =>
    cases hNext
    have hUnsent (g : Frame) (hg : .text g ∈
        (if reply = .answered then conn.tell .close else conn).unsent) :
        .text g ∈ conn.unsent := by
      split at hg
      · exact (Connection.text_tell hg).resolve_right (by simp)
      · exact hg
    refine inOrder_command h hConn (fun _ => ⟨.of_same rfl rfl rfl, ?_⟩) hUnsent fun _ => ?_
    · exact h.lists (h.shared.requeue frame) fun _ _ _ f => mem_processing_requeue
    · exact hOld.free (.of_same rfl rfl rfl) rfl (by simp) hUnsent
  case h_6 frame hDrain =>
    cases hNext
    have hFrame : conn.drain.frame = some frame := by rw [hDrain]; rfl
    refine h.but.set (hOld.goOn hFrame ?_ fun _ hg => .inl hg)
    dsimp only
    split <;> rfl
  case h_7 frame hDrain =>
    cases hNext
    have hFrame : conn.drain.frame = some frame := by rw [hDrain]; rfl
    have hLater : s.Later { s.toShared with
        lists := s.lists.ack frame, dropped := s.dropped ++ [frame] } :=
      ⟨fun _ => .inl, Nat.le_refl _, fun _ hf => hf, fun _ => List.mem_append_left _⟩
    refine inOrder_command h hConn (fun _ => ⟨hLater, ?_, h.holder, ?_⟩) (fun _ hg => hg) ?_
    · refine (h.shared.ack frame).drop fun hCommand => ?_
      exact (hOld.ready frame (.inl hFrame) hCommand).later (.of_same rfl rfl rfl)
    · intro i other _ hOther
      refine (h.connections i other hOther).later hLater (fun hHolds => hHolds) ?_
      exact fun _ f hf _ => (AgentQueue.mem_processing_ack.mp hf).1
    · exact fun _ => hOld.done hFrame hLater rfl rfl
  case h_8 frame hDrain =>
    cases hNext
    have hFrame : conn.drain.frame = some frame := by rw [hDrain]; rfl
    refine h.but.set ?_
    split
    · refine hOld.goOn hFrame rfl fun g hg => ?_
      rcases Connection.text_tell hg with hText | hNew
      · exact .inl hText
      · cases hNew
        exact .inr rfl
    · exact hOld.free (.refl _) rfl (by simp) (fun _ hg => hg)
  case h_9 frame hDrain =>
    cases hNext
    have hFrame : conn.drain.frame = some frame := by rw [hDrain]; rfl
    refine inOrder_command h hConn (fun _ => ⟨.of_same rfl rfl rfl, ?_⟩) (fun _ hg => hg) ?_
    · refine h.lists (h.shared.ack frame) fun _ _ _ f hf => ?_
      exact (AgentQueue.mem_processing_ack.mp hf).1
    · exact fun _ => hOld.done hFrame (.of_same rfl rfl rfl) rfl rfl

/-- **Step lemma** for a writer. -/
theorem inOrder_write {taken : Bool} (h : InOrder s) (hConn : s.connections[c]? = some conn)
    (hNext : s.writeOne c conn taken = some s') : InOrder s' := by
  have hOld := h.connections c conn hConn
  have hStop : ({ conn with writing := false } : Connection).InOrder s.toShared c :=
    ⟨hOld.ready, hOld.popping, hOld.holding⟩
  unfold State.writeOne at hNext
  split at hNext
  · cases hNext
  · split at hNext
    case h_1 => cases hNext
    case h_2 =>
      cases hNext
      exact h.but.set hStop
    case h_3 rest hUnsent =>
      cases hNext
      refine h.but.set ?_
      split
      · refine ⟨fun g hHas => hOld.ready g (hHas.imp_right fun hText => ?_), hOld.popping,
          hOld.holding⟩
        rw [hUnsent]
        exact List.mem_cons_of_mem _ hText
      · exact hStop
    case h_4 frame rest hUnsent =>
      split at hNext
      case isFalse =>
        cases hNext
        exact h.but.set hStop
      case isTrue =>
        cases hNext
        have hLater : s.Later { s.toShared with written := s.written ++ [frame] } :=
          ⟨fun _ => .inl, Nat.le_refl _, fun _ => List.mem_append_left _, fun _ hf => hf⟩
        have hFrame : Outbound.text frame ∈ conn.unsent := by
          rw [hUnsent]
          exact List.mem_cons_self
        have hBut : InOrderBut c { s with written := s.written ++ [frame] } := by
          refine ⟨h.shared.write fun hCommand => hOld.ready frame (.inr hFrame) hCommand,
            h.holder, fun i other _ hOther => ?_⟩
          exact (h.connections i other hOther).later hLater (fun hHolds => hHolds)
            fun _ f hf _ => hf
        have hNew := hOld.later hLater (fun hHolds => hHolds) fun _ f hf _ => hf
        refine hBut.set ⟨fun g hHas => hNew.ready g (hHas.imp_right fun hText => ?_),
          hNew.popping, hNew.holding⟩
        rw [hUnsent]
        exact List.mem_cons_of_mem _ hText

/-- No other connection comes to hold the lease. -/
theorem InOrder.lease {lease : Leases.AgentLease} (h : InOrder s)
    (hHolder : ∀ i, Leases.holdsLease lease i = true → Leases.holdsLease s.lease i = true) :
    InOrder { s with lease := lease } where
  shared := ⟨h.shared.ids, h.shared.known, h.shared.sorted, h.shared.single,
    fun g hg hCommand => (h.shared.written g hg hCommand).later (.of_same rfl rfl rfl),
    fun g hg hCommand => (h.shared.dropped g hg hCommand).later (.of_same rfl rfl rfl)⟩
  holder := fun i hHolds => h.holder i (hHolder i hHolds)
  connections := fun i conn hConn => (h.connections i conn hConn).later (.of_same rfl rfl rfl)
    (hHolder i) fun _ _ hf _ => hf

/-- A connection that claims the lease starts by recovering. -/
theorem inOrder_connect {session : Option Nat} {force : Bool} {checked stamped : Int}
    (h : InOrder s)
    (hNext : s.next settings (.connect session force checked stamped) = some s') :
    InOrder s' := by
  cases hNext
  have hNew (lease : Leases.AgentLease) (b : Bool) :
      (if b then { drain := .recovering, unsent := [.reply] }
        else { drain := .stopped, unsent := [.reply, .close] } : Connection).InOrder
          { s.toShared with lease := lease } s.connections.length := by
    cases b <;> exact ⟨fun g hHas => by rcases hHas with hIs | hText <;> simp_all [Drain.frame],
      fun _ hIs => (by cases hIs), fun _ g hIs => (by cases hIs)⟩
  have hHolder (i : Nat) (hHolds : Leases.holdsLease (Leases.claimLease settings s.lease
      s.connections.length session force checked stamped).2 i = true) :
      i = s.connections.length ∨ Leases.holdsLease s.lease i = true := by
    rcases Leases.claimLease_cases settings s.lease s.connections.length session force checked
      stamped with ⟨-, hSame⟩ | ⟨-, hWon⟩
    · rw [hSame] at hHolds
      exact .inr hHolds
    · rw [hWon, Leases.holdsLease_iff] at hHolds
      exact .inl (Option.some.inj hHolds.1).symm
  refine ⟨⟨h.shared.ids, h.shared.known, h.shared.sorted, h.shared.single,
    fun g hg hCommand => (h.shared.written g hg hCommand).later (.of_same rfl rfl rfl),
    fun g hg hCommand => (h.shared.dropped g hg hCommand).later (.of_same rfl rfl rfl)⟩, ?_, ?_⟩
  · intro i hHolds
    simp only [List.length_append, List.length_singleton]
    rcases hHolder i hHolds with hEq | hOld
    · omega
    · have hLt := h.holder i hOld
      omega
  · intro i conn hConn
    rcases Nat.lt_or_ge i s.connections.length with hLt | hGe
    · rw [List.getElem?_append_left hLt] at hConn
      refine (h.connections i conn hConn).later (.of_same rfl rfl rfl) (fun hHolds => ?_)
        fun _ f hf _ => hf
      exact (hHolder i hHolds).resolve_left (by omega)
    · rw [List.getElem?_append_right hGe, List.getElem?_singleton] at hConn
      split at hConn
      · cases hConn
        obtain rfl : i = s.connections.length := by omega
        exact hNew _ _
      · cases hConn

/-- **Step lemma** -/
theorem inOrder_step (h : InOrder s) (hKept : Kept s) (hCond : KeepsOrder s a)
    (hNext : s.next settings a = some s') : InOrder s' := by
  cases a with
  | push message priority =>
      cases hNext
      have hLater := Shared.later_push (b := s.toShared)
        { id := s.pushed.length, message, priority } rfl
        (s.lists.push { id := s.pushed.length, message, priority })
      refine ⟨h.shared.push _ rfl, h.holder, fun i conn hConn => ?_⟩
      refine (h.connections i conn hConn).later hLater (fun hHolds => hHolds) fun _ _ hf _ => ?_
      rwa [AgentQueue.processing_push] at hf
  | connect => exact inOrder_connect h hNext
  | renew c now =>
      cases hNext
      refine h.lease fun i hHolds => ?_
      rcases Leases.renewAgentLease_cases s.lease c now with ⟨-, hEq⟩ | ⟨-, hEq⟩
      · rwa [hEq] at hHolds
      · rw [hEq, Leases.holdsLease_iff] at hHolds
        exact Leases.holdsLease_iff.mpr hHolds
  | release c now =>
      cases hNext
      refine h.lease fun i hHolds => ?_
      rcases Leases.releaseLease_cases s.lease c now with ⟨-, hEq⟩ | ⟨-, hEq⟩
      · rwa [hEq] at hHolds
      · rw [hEq, Leases.holdsLease_iff] at hHolds
        cases hHolds.2
  | revoke now =>
      cases hNext
      refine h.lease fun i hHolds => ?_
      rcases Leases.revokeLease_cases settings s.lease now with hEq | ⟨-, -, hEq⟩
      · rwa [hEq] at hHolds
      · rw [hEq, Leases.holdsLease_iff] at hHolds
        cases hHolds.2
  | drain c reply =>
      obtain ⟨conn, hConn, hDrain⟩ := Option.bind_eq_some_iff.mp hNext
      exact inOrder_drain h hKept hConn hCond hDrain
  | write c taken =>
      obtain ⟨conn, hConn, hWrite⟩ := Option.bind_eq_some_iff.mp hNext
      exact inOrder_write h hConn hWrite
  | send c outbound =>
      simp only [State.next] at hNext
      split at hNext
      case h_1 => cases hNext
      case h_2 hText =>
        obtain ⟨conn, hConn, rfl⟩ := Option.map_eq_some_iff.mp hNext
        have hOld := h.connections c conn hConn
        have hSame : (conn.tell outbound).drain = conn.drain := by
          unfold Connection.tell
          split <;> rfl
        refine h.but.set ⟨fun g hHas => hOld.ready g ?_, ?_, ?_⟩
        · rcases hHas with hIs | hTold
          · exact .inl (hSame ▸ hIs)
          · exact .inr ((Connection.text_tell hTold).resolve_right (hText g))
        · rw [hSame]
          exact hOld.popping
        · rw [hSame]
          exact hOld.holding
  | abort c | die c =>
      obtain ⟨conn, hConn, rfl⟩ := Option.map_eq_some_iff.mp hNext
      exact h.but.set ((h.connections c conn hConn).free (.refl _) rfl (by simp)
        fun _ hg => hg)
  | finalize task =>
      cases hNext
      refine ⟨⟨h.shared.ids, h.shared.known, h.shared.sorted, h.shared.single,
        fun g hg hCommand => (h.shared.written g hg hCommand).later (.of_same rfl rfl rfl),
        fun g hg hCommand => (h.shared.dropped g hg hCommand).later (.of_same rfl rfl rfl)⟩,
        h.holder, fun i conn hConn => ?_⟩
      exact (h.connections i conn hConn).later (.of_same rfl rfl rfl) (fun hHolds => hHolds)
        fun _ f hf _ => hf

/-- **Run lemma** -/
theorem inOrder_run (hRun : (drains settings).Run KeepsOrder {} s) : Kept s ∧ InOrder s := by
  have hStart : (drains settings).Run DeliversFirst {} {} := .refl
  refine hRun.invariant (I := fun s => Kept s ∧ InOrder s) ⟨kept_run hStart, ?_⟩ ?_
  · refine ⟨⟨?_, ?_, List.Pairwise.nil, ?_, ?_, ?_⟩, ?_, ?_⟩ <;>
      simp [AgentQueue.Holds, Leases.holdsLease]
  · intro s a s' hBoth hCond hNext
    obtain ⟨hKept, hOrder⟩ := hBoth
    exact ⟨kept_step hKept hCond.2 hNext, inOrder_step hOrder hKept hCond hNext⟩

/-- **Commands keep their order**: when a command is written to a socket, every
command pushed before it was written to one, or dropped as a stale Assign. -/
theorem commands_in_order (hRun : (drains settings).Run KeepsOrder {} s)
    (hWrites : s.writes a = some g) {j : Nat} (hf : s.pushed[i]? = some f)
    (hg : s.pushed[j]? = some g) (hBefore : i < j) (hCommand : f.priority = false)
    (hCommand' : g.priority = false) :
    f ∈ s.written ∨ (f ∈ s.dropped ∧ isStaleAssign s.finalized f = true) := by
  obtain ⟨hKept, hOrder⟩ := inOrder_run hRun
  have hReady : s.Ready g := by
    unfold State.writes at hWrites
    split at hWrites
    case h_1 c =>
      obtain ⟨conn, hConn, hHead⟩ := Option.bind_eq_some_iff.mp hWrites
      split at hHead
      case h_1 frame rest _ hUnsent =>
        cases hHead
        refine (hOrder.connections c conn hConn).ready g (.inr ?_) hCommand'
        rw [hUnsent]
        exact List.mem_cons_self
      case h_2 => cases hHead
    case h_2 => cases hWrites
  have hId : f.id < g.id := by
    rw [hOrder.shared.ids i f hf, hOrder.shared.ids j g hg]
    exact hBefore
  exact (hReady.before f (List.mem_of_getElem? hf) hCommand hId).imp_right fun hDropped =>
    ⟨hDropped, hKept.stale f hDropped⟩

end

/-- Two commands are written in the order they were pushed. -/
theorem commands_in_order_twice : ∃ s, (drains {}).Run KeepsOrder {} s ∧
    ∃ f g, s.pushed = [f, g] ∧ s.writes (.write 0 true) = some g ∧
      (f ∈ s.written ∨ (f ∈ s.dropped ∧ isStaleAssign s.finalized f = true)) := by
  obtain ⟨s, hRun, hCheck⟩ := System.run_of_play_any (drains {}) KeepsOrder {}
    (takeFirst ++ [.write 0 true, .write 0 true, .drain 0 .answered, .push .other false] ++
      List.replicate 4 (.drain 0 .answered))
    (fun s => s.pushed == [⟨0, .other, false⟩, ⟨1, .other, false⟩] &&
      s.writes (.write 0 true) == some ⟨1, .other, false⟩) (by decide)
  rw [Bool.and_eq_true, beq_iff_eq, beq_iff_eq] at hCheck
  obtain ⟨hPushed, hWrites⟩ := hCheck
  refine ⟨s, hRun, _, _, hPushed, hWrites, ?_⟩
  exact commands_in_order (i := 0) (j := 1) hRun hWrites (by simp [hPushed])
    (by simp [hPushed]) (by decide) rfl rfl

/-- A displaced connection pops the Assign after its successor recovered, and
the successor writes the cancel. -/
theorem cancel_overtakes : ∃ s, (drains {}).Run System.anyStep {} s ∧
    ∃ f g, s.pushed = [f, g] ∧ f.message = .command (.assign { task := 0, reference := "" }) ∧
      g.message = .command (.cancel 0) ∧ f.priority = false ∧ g.priority = false ∧
      s.writes (.write 1 true) = some g ∧ f ∉ s.written ∧ f ∉ s.dropped := by
  obtain ⟨s, hRun, hCheck⟩ := System.run_of_play_any (drains {}) System.anyStep {}
    ([.push (.command (.assign { task := 0, reference := "" })) false,
      .push (.command (.cancel 0)) false, .connect none false 0 0, .drain 0 .answered,
      .connect none true 0 0, .drain 1 .answered, .drain 0 .answered] ++
      List.replicate 4 (.drain 1 .answered) ++ [.write 1 true])
    (fun s => s.pushed == [⟨0, .command (.assign { task := 0, reference := "" }), false⟩,
        ⟨1, .command (.cancel 0), false⟩] &&
      s.writes (.write 1 true) == some ⟨1, .command (.cancel 0), false⟩ &&
      s.written == [] && s.dropped == []) (by decide)
  simp only [Bool.and_eq_true, beq_iff_eq] at hCheck
  obtain ⟨⟨⟨hPushed, hWrites⟩, hWritten⟩, hDropped⟩ := hCheck
  exact ⟨s, hRun, _, _, hPushed, rfl, rfl, rfl, rfl, hWrites, by simp [hWritten],
    by simp [hDropped]⟩

end Rekuest.Queue
