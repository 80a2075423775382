import Rekuest.Queue.Drain

/-!
# At-least-once delivery

A frame leaves the processing list for good when it is acked, and it is acked
once it is in the channel to the writer.  Where the writer is done with it by
then, no frame is lost.
-/

namespace Rekuest.Queue

open Concurrent

/-- An ack that removes a frame finds it gone from the channel to the writer. -/
def deliversFirst (s : State) : Action → Bool
  | .drain c reply => (s.connections[c]?).all fun conn => match conn.drain with
      | .acking frame => reply == .refused || !s.lists.processing.contains frame ||
          !conn.unsent.contains (.text frame)
      | _ => true
  | _ => true

def DeliversFirst (s : State) (a : Action) : Prop := deliversFirst s a = true

instance (s : State) (a : Action) : Decidable (DeliversFirst s a) :=
  inferInstanceAs (Decidable (_ = true))

/-- What an ack is about to remove was given to the writer; what is about to be
dropped is stale. -/
structure Connection.Kept (written : List Frame) (finalized : List Nat) (conn : Connection) :
    Prop where
  acking : ∀ f, conn.drain = .acking f → .text f ∈ conn.unsent ∨ f ∈ written
  dropping : ∀ f, conn.drain = .dropping f → isStaleAssign finalized f = true

/-- No frame is lost. -/
structure Kept (s : State) : Prop where
  frames : ∀ f ∈ s.pushed, s.lists.Holds f ∨ f ∈ s.written ∨ f ∈ s.dropped
  stale : ∀ f ∈ s.dropped, isStaleAssign s.finalized f = true
  connections : ∀ (i : Nat) conn, s.connections[i]? = some conn →
    conn.Kept s.written s.finalized

section

variable {s s' after : State} {c : Nat} {conn conn' : Connection} {reply : Reply}
variable {drain : Drain} {f : Frame} {settings : Settings} {a : Action}
variable {written : List Frame} {finalized : List Nat}

theorem State.connections_set {P : Nat → Connection → Prop}
    (hOld : ∀ (i : Nat) conn, s.connections[i]? = some conn → P i conn) (hNew : P c conn') :
    ∀ (i : Nat) conn, (s.setConnection c conn').connections[i]? = some conn → P i conn := by
  intro i conn hConn
  simp only [setConnection, List.getElem?_set] at hConn
  split at hConn
  case isTrue hEq =>
    split at hConn
    · cases hConn
      exact hEq ▸ hNew
    · cases hConn
  case isFalse => exact hOld i conn hConn

theorem isStaleAssign_mono {task : Nat} (h : isStaleAssign finalized f = true) :
    isStaleAssign (task :: finalized) f = true := by
  unfold isStaleAssign at h ⊢
  split at h
  · simp_all
  · cases h

/-- A drain that neither acks nor drops has nothing to keep. -/
theorem kept_free (hAck : ∀ f, conn.drain ≠ .acking f) (hDrop : ∀ f, conn.drain ≠ .dropping f) :
    conn.Kept written finalized :=
  ⟨fun f h => absurd h (hAck f), fun f h => absurd h (hDrop f)⟩

theorem Connection.Kept.tell {outbound : Outbound} (h : conn.Kept written finalized) :
    (conn.tell outbound).Kept written finalized := by
  unfold Connection.tell
  split
  case isTrue =>
    refine ⟨fun f hDrain => ?_, h.dropping⟩
    exact (h.acking f hDrain).imp_left (List.mem_append_left _)
  case isFalse => exact h

theorem Connection.Kept.stopped (h : conn.Kept written finalized) :
    ({ conn with writing := false } : Connection).Kept written finalized :=
  ⟨h.acking, h.dropping⟩

theorem kept_set (h : Kept s) (hConn : conn'.Kept s.written s.finalized) :
    Kept (s.setConnection c conn') where
  frames := h.frames
  stale := h.stale
  connections := State.connections_set h.connections hConn

theorem kept_command (h : Kept s) (hAfter : reply ≠ .refused → Kept after)
    (hConn : ∀ written finalized,
      ({ conn with drain := drain } : Connection).Kept written finalized) :
    Kept (s.command c conn reply after drain) := by
  have hRetry (written : List Frame) (finalized : List Nat) :
      ({ conn with drain := .recovering } : Connection).Kept written finalized :=
    kept_free (fun _ => by simp) (fun _ => by simp)
  cases reply with
  | refused => exact kept_set h (hRetry _ _)
  | unanswered => exact kept_set (hAfter (by simp)) (hRetry _ _)
  | answered => exact kept_set (hAfter (by simp)) (hConn _ _)

/-- Moves between the lists lose nothing. -/
theorem kept_lists {lists : AgentQueue} (h : Kept s)
    (hHolds : ∀ f, s.lists.Holds f → lists.Holds f) : Kept { s with lists := lists } where
  frames := fun f hf => (h.frames f hf).imp_left (hHolds f)
  stale := h.stale
  connections := h.connections

/-- An ack that the condition allows removes a written frame. -/
theorem acked_written (h : Kept s) (hConn : s.connections[c]? = some conn)
    (hDrain : conn.drain = .acking f) (hCond : DeliversFirst s (.drain c reply))
    (hReply : reply ≠ .refused) (hMem : f ∈ s.lists.processing) : f ∈ s.written := by
  have hGone : .text f ∉ conn.unsent := by
    simpa [DeliversFirst, deliversFirst, hConn, hDrain, hReply, hMem] using hCond
  exact ((h.connections c conn hConn).acking f hDrain).resolve_left hGone

/-- **Step lemma** for a drain. -/
theorem kept_drain (h : Kept s) (hConn : s.connections[c]? = some conn)
    (hCond : DeliversFirst s (.drain c reply))
    (hNext : s.drainOnce c conn reply = some s') : Kept s' := by
  have hOld := h.connections c conn hConn
  unfold State.drainOnce at hNext
  split at hNext
  case h_1 => cases hNext
  case h_2 =>
    cases hNext
    refine kept_command h (fun _ => kept_lists h fun f => AgentQueue.holds_recover) ?_
    intro written finalized
    exact kept_free (fun _ => by dsimp only; split <;> simp) (fun _ => by dsimp only; split <;> simp)
  case h_3 =>
    cases hNext
    refine kept_command h (fun _ => kept_lists h fun f => AgentQueue.holds_pop) ?_
    intro written finalized
    exact kept_free (fun _ => by dsimp only; split <;> simp) (fun _ => by dsimp only; split <;> simp)
  case h_4 frame hDrain =>
    cases hNext
    refine kept_command h (fun _ => h) ?_
    intro written finalized
    exact kept_free (fun _ => by dsimp only; split <;> simp) (fun _ => by dsimp only; split <;> simp)
  case h_5 frame hDrain =>
    cases hNext
    refine kept_command h (fun _ => kept_lists h fun f => AgentQueue.holds_requeue.mpr) ?_
    intro written finalized
    exact kept_free (fun _ => by simp) (fun _ => by simp)
  case h_6 frame hDrain =>
    cases hNext
    refine kept_set h ⟨fun f hAck => ?_, fun f hDrop => ?_⟩
    · dsimp only at hAck
      split at hAck <;> cases hAck
    · dsimp only at hDrop
      split at hDrop
      case isTrue hStale =>
        cases hDrop
        simp only [Bool.and_eq_true, decide_eq_true_eq] at hStale
        exact hStale.2
      case isFalse => cases hDrop
  case h_7 frame hDrain =>
    cases hNext
    refine kept_command h (fun _ => ?_) ?_
    · refine ⟨fun f hf => ?_, fun f hf => ?_, h.connections⟩
      · rcases h.frames f hf with hHolds | hWritten | hDropped
        · rcases AgentQueue.holds_ack (g := frame) hHolds with hStays | ⟨rfl, -⟩
          · exact .inl hStays
          · exact .inr (.inr (by simp))
        · exact .inr (.inl hWritten)
        · exact .inr (.inr (List.mem_append_left _ hDropped))
      · rcases List.mem_append.mp hf with hDropped | hNew
        · exact h.stale f hDropped
        · rw [List.mem_singleton] at hNew
          exact hNew ▸ hOld.dropping frame hDrain
    · intro written finalized
      exact kept_free (fun _ => by simp) (fun _ => by simp)
  case h_8 frame hDrain =>
    cases hNext
    refine kept_set h ?_
    split
    case isTrue hWriting =>
      refine ⟨fun f hAck => ?_, fun f hDrop => by cases hDrop⟩
      cases hAck
      exact .inl (by simp [Connection.tell, hWriting])
    case isFalse => exact kept_free (fun _ => by simp) (fun _ => by simp)
  case h_9 frame hDrain =>
    cases hNext
    refine kept_command h (fun hReply => ⟨fun f hf => ?_, h.stale, h.connections⟩) ?_
    · rcases h.frames f hf with hHolds | hGone
      · rcases AgentQueue.holds_ack (g := frame) hHolds with hStays | ⟨rfl, hMem⟩
        · exact .inl hStays
        · have hWritten : f ∈ s.written := acked_written h hConn hDrain hCond hReply hMem
          exact .inr (.inl hWritten)
      · exact .inr hGone
    · intro written finalized
      exact kept_free (fun _ => by simp) (fun _ => by simp)

/-- **Step lemma** for a writer. -/
theorem kept_write {taken : Bool} (h : Kept s) (hConn : s.connections[c]? = some conn)
    (hNext : s.writeOne c conn taken = some s') : Kept s' := by
  have hOld := h.connections c conn hConn
  unfold State.writeOne at hNext
  split at hNext
  · cases hNext
  · split at hNext
    case h_1 => cases hNext
    case h_2 =>
      cases hNext
      exact kept_set h hOld.stopped
    case h_3 rest hUnsent =>
      cases hNext
      refine kept_set h ?_
      split
      · refine ⟨fun f hDrain => ?_, hOld.dropping⟩
        simpa [hUnsent] using hOld.acking f hDrain
      · exact hOld.stopped
    case h_4 frame rest hUnsent =>
      split at hNext
      case isTrue =>
        cases hNext
        have hMore (f : Frame) (hf : f ∈ s.written) : f ∈ s.written ++ [frame] :=
          List.mem_append_left _ hf
        refine ⟨fun f hf => ?_, h.stale, State.connections_set (fun i other hOther => ?_) ?_⟩
        · exact (h.frames f hf).imp_right (.imp_left (hMore f))
        · have hKept := h.connections i other hOther
          exact ⟨fun f hDrain => (hKept.acking f hDrain).imp_right (hMore f), hKept.dropping⟩
        · refine ⟨fun f hDrain => ?_, hOld.dropping⟩
          rcases hOld.acking f hDrain with hWaits | hWritten
          · rw [hUnsent, List.mem_cons] at hWaits
            rcases hWaits with hHead | hRest
            · cases hHead
              exact .inr (List.mem_append_right _ (List.mem_singleton_self _))
            · exact .inl hRest
          · exact .inr (hMore f hWritten)
      case isFalse =>
        cases hNext
        exact kept_set h hOld.stopped

/-- **Step lemma** -/
theorem kept_step (h : Kept s) (hCond : DeliversFirst s a)
    (hNext : s.next settings a = some s') : Kept s' := by
  cases a with
  | push message priority =>
      cases hNext
      refine ⟨fun f hf => ?_, h.stale, h.connections⟩
      rcases List.mem_append.mp hf with hOld | hNew
      · exact (h.frames f hOld).imp_left fun hHolds => AgentQueue.holds_push.mpr (.inr hHolds)
      · rw [List.mem_singleton] at hNew
        exact .inl (AgentQueue.holds_push.mpr (.inl hNew))
  | connect session force checked stamped =>
      cases hNext
      refine ⟨h.frames, h.stale, fun i conn hConn => ?_⟩
      rcases Nat.lt_or_ge i s.connections.length with hLt | hGe
      · rw [List.getElem?_append_left hLt] at hConn
        exact h.connections i conn hConn
      · rw [List.getElem?_append_right hGe, List.getElem?_singleton] at hConn
        split at hConn
        · cases hConn
          exact kept_free (fun _ => by split <;> simp) (fun _ => by split <;> simp)
        · cases hConn
  | renew | release | revoke =>
      cases hNext
      exact ⟨h.frames, h.stale, h.connections⟩
  | drain c reply =>
      obtain ⟨conn, hConn, hDrain⟩ := Option.bind_eq_some_iff.mp hNext
      exact kept_drain h hConn hCond hDrain
  | write c taken =>
      obtain ⟨conn, hConn, hWrite⟩ := Option.bind_eq_some_iff.mp hNext
      exact kept_write h hConn hWrite
  | send c outbound =>
      simp only [State.next] at hNext
      split at hNext
      · cases hNext
      · obtain ⟨conn, hConn, rfl⟩ := Option.map_eq_some_iff.mp hNext
        exact kept_set h (h.connections c conn hConn).tell
  | abort c | die c =>
      obtain ⟨conn, hConn, rfl⟩ := Option.map_eq_some_iff.mp hNext
      exact kept_set h (kept_free (fun _ => by simp) fun _ => by simp)
  | finalize task =>
      cases hNext
      refine ⟨h.frames, fun f hf => isStaleAssign_mono (h.stale f hf), fun i conn hConn => ?_⟩
      have hKept := h.connections i conn hConn
      exact ⟨hKept.acking, fun f hDrop => isStaleAssign_mono (hKept.dropping f hDrop)⟩

/-- **Run lemma** -/
theorem kept_run (hRun : (drains settings).Run DeliversFirst {} s) : Kept s := by
  refine hRun.invariant (I := Kept) ⟨?_, ?_, ?_⟩ fun _ _ _ => kept_step
  · exact fun f hf => by cases hf
  · exact fun f hf => by cases hf
  · exact fun i conn hConn => by simp at hConn

/-- A frame that leaves the processing list goes back to the queue, or was
written, or is stale. -/
theorem leaves_processing (h : Kept s) (hCond : DeliversFirst s a)
    (hNext : s.next settings a = some s') (hMem : f ∈ s.lists.processing) :
    f ∈ s'.lists.processing ∨ f ∈ s'.lists.queue ∨ f ∈ s.written ∨
      isStaleAssign s.finalized f = true := by
  have hMove := lists_next hNext
  generalize s'.lists = lists at hMove ⊢
  cases hMove with
  | same => exact .inl hMem
  | pushed =>
      rw [AgentQueue.processing_push]
      exact .inl hMem
  | recovered => exact (AgentQueue.stays_recover hMem).imp_right .inl
  | popped => exact .inl (AgentQueue.mem_pop_processing hMem)
  | requeued => exact (AgentQueue.stays_requeue hMem).imp_right .inl
  | acked c reply conn frame hConn hDrain hReply =>
      by_cases hEq : f = frame
      · subst hEq
        rcases hDrain with hDrop | hAck
        · exact .inr (.inr (.inr ((h.connections c conn hConn).dropping f hDrop)))
        · exact .inr (.inr (.inl (acked_written h hConn hAck hCond hReply hMem)))
      · exact .inl (AgentQueue.mem_processing_ack.mpr ⟨hMem, hEq⟩)

/-- **At-least-once**: every pushed frame is in one of the lists, or was written
to a socket, or was dropped as an Assign of a closed task; and no step takes
another frame out of the processing list for good. -/
theorem no_frame_lost (hRun : (drains settings).Run DeliversFirst {} s) :
    (∀ f ∈ s.pushed, f ∈ s.lists.queue ∨ f ∈ s.lists.processing ∨ f ∈ s.written ∨
      (f ∈ s.dropped ∧ isStaleAssign s.finalized f = true)) ∧
    ∀ a s', DeliversFirst s a → s.next settings a = some s' → ∀ f ∈ s.lists.processing,
      f ∈ s'.lists.processing ∨ f ∈ s'.lists.queue ∨ f ∈ s.written ∨
        isStaleAssign s.finalized f = true := by
  have hKept := kept_run hRun
  refine ⟨fun f hf => ?_, fun a s' hCond hNext f => leaves_processing hKept hCond hNext⟩
  rcases hKept.frames f hf with (hQueue | hProcessing) | hWritten | hDropped
  · exact .inl hQueue
  · exact .inr (.inl hProcessing)
  · exact .inr (.inr (.inl hWritten))
  · exact .inr (.inr (.inr ⟨hDropped, hKept.stale f hDropped⟩))

end

/-- A frame is pushed, and a first connection takes it. -/
def takeFirst : List Action :=
  [.push .other false, .connect none false 0 0] ++ List.replicate 5 (.drain 0 .answered)

/-- The writer is done with the frame before it is acked. -/
theorem no_frame_lost_written : ∃ s, (drains {}).Run DeliversFirst {} s ∧
    s.written.length = 1 ∧ s.lists = {} ∧
    (∀ f ∈ s.pushed, f ∈ s.lists.queue ∨ f ∈ s.lists.processing ∨ f ∈ s.written ∨
      (f ∈ s.dropped ∧ isStaleAssign s.finalized f = true)) ∧
    ∀ a s', DeliversFirst s a → s.next {} a = some s' → ∀ f ∈ s.lists.processing,
      f ∈ s'.lists.processing ∨ f ∈ s'.lists.queue ∨ f ∈ s.written ∨
        isStaleAssign s.finalized f = true := by
  obtain ⟨s, hRun, hCheck⟩ := System.run_of_play_any (drains {}) DeliversFirst {}
    (takeFirst ++ [.write 0 true, .write 0 true, .drain 0 .answered])
    (fun s => s.written.length == 1 && s.lists == {}) (by decide)
  rw [Bool.and_eq_true, beq_iff_eq, beq_iff_eq] at hCheck
  exact ⟨s, hRun, hCheck.1, hCheck.2, no_frame_lost hRun⟩

/-- The frame is acked while it waits behind a close in the channel. -/
theorem frame_lost : ∃ s, (drains {}).Run System.anyStep {} s ∧
    ∃ f ∈ s.pushed, f ∉ s.lists.queue ∧ f ∉ s.lists.processing ∧ f ∉ s.written ∧
      isStaleAssign s.finalized f = false ∧
      ∀ conn ∈ s.connections, conn.writing = false := by
  obtain ⟨s, hRun, hCheck⟩ := System.run_of_play_any (drains {}) System.anyStep {}
    (takeFirst.dropLast ++ [.send 0 .close, .drain 0 .answered, .drain 0 .answered,
      .write 0 true, .write 0 true])
    (fun s => s.pushed.any fun f => f ∉ s.lists.queue ∧ f ∉ s.lists.processing ∧
      f ∉ s.written ∧ isStaleAssign s.finalized f = false ∧
      ∀ conn ∈ s.connections, conn.writing = false) (by decide)
  obtain ⟨f, hf, hLost⟩ := List.any_eq_true.mp hCheck
  exact ⟨s, hRun, f, hf, by simpa using hLost⟩

end Rekuest.Queue
