import Mathlib.Order.Lattice
import Rekuest.Positions.Session

/-!
# The watermark covers handled positions only

Every connection sends a session's frames in order: its first position is at
most one above what was acknowledged, and no later one skips ahead of the
position before it.  Under that proviso, for any number of workers, takeovers
and crashes, the row stays one claim ahead of its watermark at most, the
watermark never falls, and every position at or below it was projected
successfully.  Clocks play no part: a worker's clock may read anything.
-/

namespace Rekuest.Positions

open Concurrent

/-- A connection offers the session's positions in order. -/
def InOrder (s : State) : Action → Prop
  | .move w (.offer pos) =>
      ∀ k ∈ s.workers[w]?,
        pos ≤ match k.last with
          | none => s.acked + 1
          | some last => last + 1
  | _ => True

instance (s : State) (a : Action) : Decidable (InOrder s a) :=
  match a with
  | .move w (.offer pos) =>
      inferInstanceAs (Decidable (∀ k ∈ s.workers[w]?,
        pos ≤ match k.last with
          | none => s.acked + 1
          | some last => last + 1))
  | .move _ .read | .move _ (.judge _) | .move _ .update
  | .move _ (.project _) | .move _ .confirm | .move _ .release
  | .connect | .crash _ | .flushAck | .tick _ => isTrue trivial

/-- Every position from `1` to `pos` was projected successfully. -/
def Covered (handled : List Int) (pos : Int) : Prop :=
  ∀ p, 1 ≤ p → p ≤ pos → p ∈ handled

theorem Covered.mono {handled : List Int} {p q : Int}
    (h : Covered handled q) (hle : p ≤ q) : Covered handled p :=
  fun r hOne hr => h r hOne (by omega)

theorem Covered.cons {handled : List Int} {q : Int}
    (h : Covered handled q) (p : Int) : Covered (p :: handled) q :=
  fun r hOne hr => List.mem_cons_of_mem _ (h r hOne hr)

/-- Handling the position above a covered one covers it too. -/
theorem Covered.succ {handled : List Int} {p : Int}
    (h : Covered handled (p - 1)) : Covered (p :: handled) p := by
  intro r hOne hr
  by_cases hEq : r = p
  · subst hEq
    exact List.mem_cons_self
  · exact List.mem_cons_of_mem _ (h r hOne (by omega))

/-- What a worker knows of the positions below the one it works on. -/
structure WorkerCovered (handled : List Int) (k : Worker) : Prop where
  last : ∀ q, k.last = some q → Covered handled q
  before : ∀ p, k.phase.pos? = some p → Covered handled (p - 1)
  seen : ∀ p row, k.phase = .judging p row → Covered handled row.projectedPos
  done : ∀ p claimedAt, k.phase = .projected p claimedAt → Covered handled p

/-- The inductive invariant that ties each worker's progress to the row. -/
structure Watermark (s : State) : Prop extends Bounded s where
  covered : Covered s.handled s.row.projectedPos
  acked_le : s.acked ≤ s.row.projectedPos
  worker : ∀ (w : Nat) (k : Worker), s.workers[w]? = some k →
    WorkerCovered s.handled k

private theorem WorkerCovered.cons {handled : List Int} {k : Worker}
    (h : WorkerCovered handled k) (p : Int) : WorkerCovered (p :: handled) k where
  last q hq := (h.last q hq).cons p
  before q hq := (h.before q hq).cons p
  seen q row hq := (h.seen q row hq).cons p
  done q claimedAt hq := (h.done q claimedAt hq).cons p

/-- A worker that goes on to a phase in which it has read nothing and
projected nothing. -/
private theorem WorkerCovered.goOn {handled : List Int} {k : Worker}
    {phase : Phase} (h : WorkerCovered handled k)
    (hPos : ∀ p, phase.pos? = some p → Covered handled (p - 1))
    (hSeen : ∀ p row, phase ≠ .judging p row)
    (hDone : ∀ p claimedAt, phase ≠ .projected p claimedAt) :
    WorkerCovered handled { k with phase } where
  last := h.last
  before := hPos
  seen p row hp := absurd hp (hSeen p row)
  done p claimedAt hp := absurd hp (hDone p claimedAt)

/-- A worker back between two frames, done with position `q`. -/
private theorem WorkerCovered.rest {handled : List Int} {k : Worker} {q : Int}
    (h : Covered handled q) :
    WorkerCovered handled { k with phase := .waiting, last := some q } where
  last r hr := by cases hr; exact h
  before p hp := by cases hp
  seen p row hp := by cases hp
  done p claimedAt hp := by cases hp

/-- **Step of one worker**: its statement keeps the watermark on handled
positions and leaves the worker with what its next phase relies on. -/
private theorem advance_covered {s s' : State} {k k' : Worker} {m : Move}
    (hCov : Covered s.handled s.row.projectedPos)
    (hk : WorkerCovered s.handled k)
    (hOffer : ∀ pos, m = .offer pos → Covered s.handled (pos - 1))
    (h : Advance s k m s' k') :
    Covered s'.handled s'.row.projectedPos ∧ WorkerCovered s'.handled k' ∧
      ∀ j, WorkerCovered s.handled j → WorkerCovered s'.handled j := by
  have hBefore : ∀ p, k.phase.pos? = some p →
      ∀ q, some p = some q → Covered s.handled (q - 1) := by
    rintro p hp q ⟨⟩
    exact hk.before p hp
  cases h with
  | @offer pos hPhase =>
      refine ⟨hCov, hk.goOn ?_ (by simp) (by simp), fun _ hj => hj⟩
      rintro p ⟨⟩
      exact hOffer pos rfl
  | @read pos hPhase =>
      refine ⟨hCov, ⟨hk.last, ?_, ?_, by simp⟩, fun _ hj => hj⟩
      · exact hBefore pos (by simp [hPhase, Phase.pos?])
      · intro p row hp
        cases hp
        exact hCov
  | @duplicate pos seen now hPhase hPos =>
      exact ⟨hCov, .rest ((hk.seen pos seen hPhase).mono hPos), fun _ hj => hj⟩
  | @sleep pos seen now hPhase =>
      exact ⟨hCov, hk.goOn (hBefore pos (by simp [hPhase, Phase.pos?]))
        (by simp) (by simp), fun _ hj => hj⟩
  | @attempt pos seen now hPhase hPos hFree =>
      exact ⟨hCov, hk.goOn (hBefore pos (by simp [hPhase, Phase.pos?]))
        (by simp) (by simp), fun _ hj => hj⟩
  | @claim pos now hPhase =>
      -- the watermark moves to `pos - 1`: everything up to there is handled,
      -- because this worker's connection sent those frames before this one
      have hPos : k.phase.pos? = some pos := by simp [hPhase, Phase.pos?]
      exact ⟨hk.before pos hPos, hk.goOn (hBefore pos hPos) (by simp) (by simp),
        fun _ hj => hj⟩
  | @lose pos seen now hPhase =>
      exact ⟨hCov, hk.goOn (hBefore pos (by simp [hPhase, Phase.pos?]))
        (by simp) (by simp), fun _ hj => hj⟩
  | @succeed pos claimedAt hPhase =>
      have hPos : k.phase.pos? = some pos := by simp [hPhase, Phase.pos?]
      refine ⟨hCov.cons pos, ⟨?_, ?_, by simp, ?_⟩, fun _ hj => hj.cons pos⟩
      · intro q hq
        exact (hk.last q hq).cons pos
      · intro p hp
        exact (hBefore pos hPos p hp).cons pos
      · intro p claimedAt hp
        cases hp
        exact (hk.before pos hPos).succ
  | @fail pos claimedAt hPhase =>
      exact ⟨hCov, hk.goOn (hBefore pos (by simp [hPhase, Phase.pos?]))
        (by simp) (by simp), fun _ hj => hj⟩
  | @confirm pos claimedAt hPhase =>
      have hDone := hk.done pos claimedAt hPhase
      simp only [Session.confirmPosition]
      split
      case isTrue hMatch =>
        exact ⟨hDone.mono (by simp only; omega), .rest hDone, fun _ hj => hj⟩
      case isFalse => exact ⟨hCov, .rest hDone, fun _ hj => hj⟩
  | @release pos claimedAt hPhase =>
      have hClosed : WorkerCovered s.handled { k with phase := .closed } :=
        hk.goOn (by simp [Phase.pos?]) (by simp) (by simp)
      simp only [Session.releasePosition]
      split
      case isTrue => exact ⟨hCov, hClosed, fun _ hj => hj⟩
      case isFalse => exact ⟨hCov, hClosed, fun _ hj => hj⟩

/-- In order, the position a connection offers has only handled positions
below it. -/
private theorem offer_covered {s : State} {w : Nat} {k : Worker} {pos : Int}
    (hInv : Watermark s) (hk : s.workers[w]? = some k)
    (hOrder : InOrder s (.move w (.offer pos))) :
    Covered s.handled (pos - 1) := by
  have hPos := hOrder k hk
  cases hLast : k.last with
  | none =>
      have hAcked := hInv.acked_le
      simp only [hLast] at hPos
      exact hInv.covered.mono (by omega)
  | some last =>
      simp only [hLast] at hPos
      exact ((hInv.worker w k hk).last last hLast).mono (by omega)

/-- **Step lemma**: a step in order keeps the invariant. -/
theorem watermark_step {s s' : State} {a : Action} (hInv : Watermark s)
    (hOrder : InOrder s a) (h : next s a = some s') : Watermark s' := by
  obtain ⟨hBounded, hMono⟩ := bounded_step hInv.toBounded h
  have hAcked := hInv.acked_le
  cases a with
  | connect =>
      cases h
      refine { hBounded with
        covered := hInv.covered, acked_le := hAcked, worker := ?_ }
      intro w k hw
      rcases worker_append hw with hOld | rfl
      · exact hInv.worker w k hOld
      · constructor <;> simp [Phase.pos?]
  | move w m =>
      obtain ⟨k, s₁, k', hk, -, hAdv, rfl⟩ := move_cases h
      have hAdv := advance_cases hAdv
      obtain ⟨hCov, hk', hFrame⟩ := advance_covered hInv.covered
        (hInv.worker w k hk)
        (fun pos hm => offer_covered hInv hk (hm ▸ hOrder)) hAdv
      refine { hBounded with covered := hCov, acked_le := ?_, worker := ?_ }
      · simp only [(advance_frame hAdv).1]
        exact hAcked.trans hMono
      · intro v j hj
        rcases worker_set hj with ⟨-, rfl⟩ | ⟨-, hOld⟩
        · exact hk'
        · exact hFrame j (hInv.worker v j hOld)
  | crash w =>
      obtain ⟨k, hk, rfl⟩ := crash_cases h
      refine { hBounded with
        covered := hInv.covered, acked_le := hAcked, worker := ?_ }
      intro v j hj
      rcases worker_set hj with ⟨-, rfl⟩ | ⟨-, hOld⟩
      · exact { hInv.worker w k hk with }
      · exact hInv.worker v j hOld
  | flushAck =>
      cases h
      exact { hBounded with
        covered := hInv.covered, acked_le := max_le hAcked le_rfl,
        worker := hInv.worker }
  | tick elapsed =>
      cases h
      exact { hBounded with
        covered := hInv.covered, acked_le := hAcked, worker := hInv.worker }

theorem watermark_initial (now : Int) : Watermark (initial now) where
  toBounded := bounded_initial now
  covered p hOne hp := by simp only [initial] at hp; omega
  acked_le := le_rfl
  worker w k hk := by simp [initial] at hk

theorem watermark_run {now : Int} {s : State}
    (h : system.Run InOrder (initial now) s) : Watermark s :=
  h.invariant (watermark_initial now) fun _ _ _ => watermark_step

/--
**Watermark safety.**  Along every run in which the connections offer their
positions in order: the row is at most one claim ahead of its watermark, every
position at or below the watermark, and so every position a `JOURNAL_ACK`
covered, was projected successfully, and no continuation of the run lowers the
watermark.
-/
theorem watermark_safe {now : Int} {s : State}
    (h : system.Run InOrder (initial now) s) :
    s.row.projectedPos ≤ s.row.claimedPos ∧
    s.row.claimedPos ≤ s.row.projectedPos + 1 ∧
    (∀ p, 1 ≤ p → p ≤ s.row.projectedPos → p ∈ s.handled) ∧
    (∀ p, 1 ≤ p → p ≤ s.acked → p ∈ s.handled) ∧
    (∀ s', system.Run InOrder s s' →
      s.row.projectedPos ≤ s'.row.projectedPos) := by
  have hInv := watermark_run h
  exact ⟨hInv.le_claimed, hInv.claimed_le, hInv.covered,
    hInv.covered.mono hInv.acked_le,
    fun _ hRun => projectedPos_mono hInv.toBounded hRun⟩

/-- Two connections of one session: the first backend crashes while it
projects position 1, the second takes the claim over and confirms it. -/
def takeover : List Action :=
  [.connect, .move 0 (.offer 1), .move 0 .read, .move 0 (.judge 0),
   .move 0 .update, .crash 0, .connect, .move 1 (.offer 1), .move 1 .read,
   .move 1 (.judge 31000000), .move 1 .update, .move 1 (.project true),
   .move 1 .confirm, .flushAck, .move 1 (.offer 2)]

theorem watermark_safe_takeover :
    ∃ s, system.Run InOrder (initial 0) s ∧ s.row.projectedPos = 1 ∧
      s.acked = 1 ∧ 1 ∈ s.handled := by
  obtain ⟨s, hRun, hEnd⟩ := system.run_of_play_any InOrder (initial 0) takeover
    (fun s => s.row.projectedPos == 1 && s.acked == 1) (by decide)
  have hEnd : s.row.projectedPos = 1 ∧ s.acked = 1 := by simpa using hEnd
  obtain ⟨-, -, hHandled, -, -⟩ := watermark_safe hRun
  exact ⟨s, hRun, hEnd.1, hEnd.2, hHandled 1 le_rfl (by omega)⟩

end Rekuest.Positions
