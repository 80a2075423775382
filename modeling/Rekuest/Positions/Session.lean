import Mathlib.Order.Lattice
import Rekuest.Concurrent.System

/-!
# Session positions: the row and the backends that move it

`persist/positions.rs` handles one numbered frame as claim, project, confirm.
The row is only ever read by a plain `SELECT` and written by single
conditional `UPDATE`s, so each of these statements is one step here, and what
a backend holds between two of them (the row it read, the clock it compared)
is its phase.  Positions are `i64` in the source; none of the arithmetic on
them leaves that range, so they are integers here.  Times are
microseconds of the application clock, the resolution the column keeps.
-/

namespace Rekuest.Positions

open Concurrent

/-- How long a claim may stay unconfirmed before another backend takes the
frame over (`CLAIM_TIMEOUT`). -/
def claimTimeout : Int := 30 * 1000000

/-- The columns of `facade_session` that positions read and write. -/
structure Session where
  projectedPos : Int := 0
  claimedPos : Int := 0
  claimedAt : Option Int := none
  deriving DecidableEq, Repr

/-- `claimed_at.is_none_or(|at| now - at > CLAIM_TIMEOUT)`: a difference below
zero counts as zero, which is not above the timeout either. -/
def Session.stale (row : Session) (now : Int) : Bool :=
  match row.claimedAt with
  | none => true
  | some claimedAt => decide (claimTimeout < now - claimedAt)

/-- No frame is in flight: `claimed <= projected`. -/
def Session.idle (row : Session) : Bool :=
  decide (row.claimedPos ≤ row.projectedPos)

/-- The row `claim_position`'s conditional `UPDATE` writes. -/
def Session.claim (pos : Int) (now : Int) : Session :=
  { projectedPos := pos - 1, claimedPos := pos, claimedAt := some now }

/-- `confirm_position`: matches the claim by its position alone. -/
def Session.confirmPosition (row : Session) (pos : Int) : Session :=
  if row.claimedPos = pos then { row with projectedPos := row.claimedPos }
  else row

/-- `release_position`: matches the claim by its position alone. -/
def Session.releasePosition (row : Session) (pos : Int) : Session :=
  if row.claimedPos = pos then
    { row with claimedPos := row.projectedPos, claimedAt := none }
  else row

/-- Where a connection's worker stands in `route` for the frame it handles. -/
inductive Phase
  /-- Between two frames. -/
  | waiting
  /-- In `claim_position`'s loop, about to read the row. -/
  | claiming (pos : Int)
  /-- Has read the row, about to look at the clock. -/
  | judging (pos : Int) (seen : Session)
  /-- Found the claim free or stale, about to run the conditional `UPDATE`. -/
  | attempting (pos : Int) (seen : Session) (now : Int)
  /-- `claim_position` returned `Project`; the claim it wrote is of `claimedAt`. -/
  | projecting (pos : Int) (claimedAt : Int)
  /-- The projection succeeded; `confirm_position` is next. -/
  | projected (pos : Int) (claimedAt : Int)
  /-- The projection failed; `release_position` is next. -/
  | failed (pos : Int) (claimedAt : Int)
  /-- The connection was closed after a failed projection. -/
  | closed
  deriving DecidableEq, Repr

/-- The position a phase is about. -/
def Phase.pos? : Phase → Option Int
  | .waiting | .closed => none
  | .claiming pos | .judging pos _ | .attempting pos _ _ | .projecting pos _
  | .projected pos _ | .failed pos _ => some pos

/-- The claim a phase holds: it was written to the row and its holder has
neither confirmed nor released it. -/
def Phase.claim? : Phase → Option (Int × Int)
  | .projecting pos claimedAt | .projected pos claimedAt
  | .failed pos claimedAt => some (pos, claimedAt)
  | _ => none

/-- One connection's worker, in whatever backend it runs. -/
structure Worker where
  phase : Phase := .waiting
  /-- The last position it is done with: projected by itself, or a duplicate. -/
  last : Option Int := none
  crashed : Bool := false
  deriving DecidableEq, Repr

/-- One session's row, the workers that serve it, and what the proofs follow:
the positions whose projection succeeded and the highest `JOURNAL_ACK` sent. -/
structure State where
  row : Session := {}
  workers : List Worker := []
  handled : List Int := []
  acked : Int := 0
  now : Int := 0
  deriving DecidableEq, Repr

/-- What a worker that is not crashed does next. -/
inductive Move
  /-- Its connection hands it the frame of this position. -/
  | offer (pos : Int)
  | read
  /-- It compares what it read with its clock, which reads `now`. -/
  | judge (now : Int)
  | update
  /-- The projection ends, and whether it succeeded. -/
  | project (ok : Bool)
  | confirm
  | release
  deriving DecidableEq, Repr

inductive Action
  /-- A connection opens and gets its worker. -/
  | connect
  | move (worker : Nat) (move : Move)
  | crash (worker : Nat)
  /-- `flush_journal_acks` reads the watermark and acknowledges it. -/
  | flushAck
  | tick (elapsed : Nat)
  deriving DecidableEq, Repr

/-- One statement of `route` by the worker `k`, and the state and worker
after it.  The worker list is left to the caller. -/
def advance (s : State) (k : Worker) : Move → Option (State × Worker)
  | .offer pos =>
      match k.phase with
      | .waiting => some (s, { k with phase := .claiming pos })
      | _ => none
  | .read =>
      match k.phase with
      | .claiming pos => some (s, { k with phase := .judging pos s.row })
      | _ => none
  | .judge now =>
      match k.phase with
      | .judging pos seen =>
          if pos ≤ seen.projectedPos then
            -- `Position::Duplicate`: the frame is skipped
            some (s, { k with phase := .waiting, last := some pos })
          else if !seen.idle && !seen.stale now then
            -- another backend is projecting; sleep and read again
            some (s, { k with phase := .claiming pos })
          else some (s, { k with phase := .attempting pos seen now })
      | _ => none
  | .update =>
      match k.phase with
      | .attempting pos seen now =>
          if s.row = seen then
            some ({ s with row := Session.claim pos now },
              { k with phase := .projecting pos now })
          else some (s, { k with phase := .claiming pos })
      | _ => none
  | .project ok =>
      match k.phase with
      | .projecting pos claimedAt =>
          if ok then
            some ({ s with handled := pos :: s.handled },
              { k with phase := .projected pos claimedAt })
          else some (s, { k with phase := .failed pos claimedAt })
      | _ => none
  | .confirm =>
      match k.phase with
      | .projected pos _ =>
          some ({ s with row := s.row.confirmPosition pos },
            { k with phase := .waiting, last := some pos })
      | _ => none
  | .release =>
      match k.phase with
      | .failed pos _ =>
          some ({ s with row := s.row.releasePosition pos },
            { k with phase := .closed })
      | _ => none

/-- The interleaving: any worker takes its next statement, any backend
crashes, connections open, acknowledgements go out and time passes. -/
def next (s : State) : Action → Option State
  | .connect => some { s with workers := s.workers ++ [{}] }
  | .move w move =>
      match s.workers[w]? with
      | some k =>
          if k.crashed then none
          else (advance s k move).map fun (s', k') =>
            { s' with workers := s.workers.set w k' }
      | none => none
  | .crash w =>
      match s.workers[w]? with
      | some k =>
          some { s with workers := s.workers.set w { k with crashed := true } }
      | none => none
  | .flushAck => some { s with acked := max s.acked s.row.projectedPos }
  | .tick elapsed => some { s with now := s.now + elapsed }

/-- The session protocol as a transition system. -/
def system : System State Action := { next }

/-- A session row as it is inserted, before any connection. -/
def initial (now : Int) : State := { now }

/-! ## What one step does -/

/-- A worker's move goes through `advance` and replaces that worker only. -/
theorem move_cases {s s' : State} {w : Nat} {m : Move}
    (h : next s (.move w m) = some s') :
    ∃ k s₁ k', s.workers[w]? = some k ∧ k.crashed = false ∧
      advance s k m = some (s₁, k') ∧
      s' = { s₁ with workers := s.workers.set w k' } := by
  simp only [next] at h
  split at h
  case h_1 k hk =>
    split at h
    case isTrue => cases h
    case isFalse hCrashed =>
      obtain ⟨⟨s₁, k'⟩, hAdv, rfl⟩ := Option.map_eq_some_iff.mp h
      exact ⟨k, s₁, k', hk, by simpa using hCrashed, hAdv, rfl⟩
  case h_2 => cases h

/-- The statements of `route`, each with the phase it runs in and what it
writes. -/
inductive Advance (s : State) (k : Worker) : Move → State → Worker → Prop
  | offer {pos : Int} (hPhase : k.phase = .waiting) :
      Advance s k (.offer pos) s { k with phase := .claiming pos }
  | read {pos : Int} (hPhase : k.phase = .claiming pos) :
      Advance s k .read s { k with phase := .judging pos s.row }
  | duplicate {pos : Int} {seen : Session} {now : Int}
      (hPhase : k.phase = .judging pos seen) (hPos : pos ≤ seen.projectedPos) :
      Advance s k (.judge now) s { k with phase := .waiting, last := some pos }
  | sleep {pos : Int} {seen : Session} {now : Int}
      (hPhase : k.phase = .judging pos seen) :
      Advance s k (.judge now) s { k with phase := .claiming pos }
  | attempt {pos : Int} {seen : Session} {now : Int}
      (hPhase : k.phase = .judging pos seen) (hPos : seen.projectedPos < pos)
      (hFree : seen.idle = true ∨ seen.stale now = true) :
      Advance s k (.judge now) s { k with phase := .attempting pos seen now }
  | claim {pos : Int} {now : Int}
      (hPhase : k.phase = .attempting pos s.row now) :
      Advance s k .update { s with row := Session.claim pos now }
        { k with phase := .projecting pos now }
  | lose {pos : Int} {seen : Session} {now : Int}
      (hPhase : k.phase = .attempting pos seen now) :
      Advance s k .update s { k with phase := .claiming pos }
  | succeed {pos : Int} {claimedAt : Int}
      (hPhase : k.phase = .projecting pos claimedAt) :
      Advance s k (.project true) { s with handled := pos :: s.handled }
        { k with phase := .projected pos claimedAt }
  | fail {pos : Int} {claimedAt : Int}
      (hPhase : k.phase = .projecting pos claimedAt) :
      Advance s k (.project false) s { k with phase := .failed pos claimedAt }
  | confirm {pos : Int} {claimedAt : Int}
      (hPhase : k.phase = .projected pos claimedAt) :
      Advance s k .confirm { s with row := s.row.confirmPosition pos }
        { k with phase := .waiting, last := some pos }
  | release {pos : Int} {claimedAt : Int}
      (hPhase : k.phase = .failed pos claimedAt) :
      Advance s k .release { s with row := s.row.releasePosition pos }
        { k with phase := .closed }

/-- `advance` does nothing else. -/
theorem advance_cases {s s' : State} {k k' : Worker} {m : Move}
    (h : advance s k m = some (s', k')) : Advance s k m s' k' := by
  cases m with
  | offer pos =>
      simp only [advance] at h
      split at h
      case h_1 hPhase => cases h; exact .offer hPhase
      case h_2 => cases h
  | read =>
      simp only [advance] at h
      split at h
      case h_1 pos hPhase => cases h; exact .read hPhase
      case h_2 => cases h
  | judge now =>
      simp only [advance] at h
      split at h
      case h_1 pos seen hPhase =>
        split at h
        case isTrue hPos => cases h; exact .duplicate hPhase hPos
        case isFalse hPos =>
          split at h
          case isTrue => cases h; exact .sleep hPhase
          case isFalse hBusy =>
            cases h
            refine .attempt hPhase (by omega) ?_
            cases hIdle : seen.idle with
            | true => exact .inl rfl
            | false => exact .inr (by simpa [hIdle] using hBusy)
      case h_2 => cases h
  | update =>
      simp only [advance] at h
      split at h
      case h_1 pos seen now hPhase =>
        split at h
        case isTrue hRow => cases h; subst hRow; exact .claim hPhase
        case isFalse => cases h; exact .lose hPhase
      case h_2 => cases h
  | project ok =>
      simp only [advance] at h
      split at h
      case h_1 pos claimedAt hPhase =>
        cases ok with
        | true => cases h; exact .succeed hPhase
        | false => cases h; exact .fail hPhase
      case h_2 => cases h
  | confirm =>
      simp only [advance] at h
      split at h
      case h_1 pos claimedAt hPhase => cases h; exact .confirm hPhase
      case h_2 => cases h
  | release =>
      simp only [advance] at h
      split at h
      case h_1 pos claimedAt hPhase => cases h; exact .release hPhase
      case h_2 => cases h

/-- Reading a worker after one was replaced. -/
theorem worker_set {workers : List Worker} {w v : Nat} {k k' : Worker}
    (h : (workers.set w k')[v]? = some k) :
    (v = w ∧ k = k') ∨ (v ≠ w ∧ workers[v]? = some k) := by
  rw [List.getElem?_set] at h
  split at h
  case isTrue hEq =>
    split at h
    case isTrue => exact .inl ⟨hEq.symm, (Option.some.inj h).symm⟩
    case isFalse => cases h
  case isFalse hNe => exact .inr ⟨Ne.symm hNe, h⟩

/-- Reading a worker after a connection opened. -/
theorem worker_append {workers : List Worker} {w : Nat} {k : Worker}
    (h : (workers ++ [({} : Worker)])[w]? = some k) :
    workers[w]? = some k ∨ k = {} := by
  rw [List.getElem?_append] at h
  split at h
  case isTrue => exact .inl h
  case isFalse =>
    have hMem := List.mem_of_getElem? h
    exact .inr (List.mem_singleton.mp hMem)

theorem crash_cases {s s' : State} {w : Nat} (h : next s (.crash w) = some s') :
    ∃ k, s.workers[w]? = some k ∧
      s' = { s with workers := s.workers.set w { k with crashed := true } } := by
  simp only [next] at h
  split at h
  case h_1 k hk => cases h; exact ⟨k, hk, rfl⟩
  case h_2 => cases h

/-! ## The bounds of the row, in any run -/

/-- A worker about to claim a position read a watermark below it. -/
def Worker.Ahead (k : Worker) : Prop :=
  ∀ p seen now, k.phase = .attempting p seen now → seen.projectedPos < p

/-- The row is at most one claim ahead of its watermark. -/
structure Bounded (s : State) : Prop where
  le_claimed : s.row.projectedPos ≤ s.row.claimedPos
  claimed_le : s.row.claimedPos ≤ s.row.projectedPos + 1
  ahead : ∀ (w : Nat) (k : Worker), s.workers[w]? = some k → k.Ahead

private theorem advance_bounded {s s' : State} {k k' : Worker} {m : Move}
    (hInv : Bounded s) (hk : k.Ahead) (h : Advance s k m s' k') :
    s'.row.projectedPos ≤ s'.row.claimedPos ∧
    s'.row.claimedPos ≤ s'.row.projectedPos + 1 ∧
    s.row.projectedPos ≤ s'.row.projectedPos ∧ k'.Ahead := by
  have hLe := hInv.le_claimed
  have hClaimed := hInv.claimed_le
  cases h with
  | @attempt pos seen now hPhase hPos hFree =>
      refine ⟨hLe, hClaimed, le_rfl, ?_⟩
      intro p row now hp
      cases hp
      exact hPos
  | @claim pos now hPhase =>
      have hAhead := hk pos s.row now hPhase
      simp only [Session.claim]
      refine ⟨by omega, by omega, by omega, ?_⟩
      intro p row now hp
      cases hp
  | @confirm pos claimedAt hPhase =>
      have hAhead : ({ k with phase := .waiting, last := some pos } : Worker).Ahead := by
        intro p row now hp
        cases hp
      simp only [Session.confirmPosition]
      split
      case isTrue => exact ⟨le_rfl, by simp only; omega, hLe, hAhead⟩
      case isFalse => exact ⟨hLe, hClaimed, le_rfl, hAhead⟩
  | @release pos claimedAt hPhase =>
      have hAhead : ({ k with phase := .closed } : Worker).Ahead := by
        intro p row now hp
        cases hp
      simp only [Session.releasePosition]
      split
      case isTrue => exact ⟨le_rfl, by simp only; omega, le_rfl, hAhead⟩
      case isFalse => exact ⟨hLe, hClaimed, le_rfl, hAhead⟩
  | _ =>
      refine ⟨hLe, hClaimed, le_rfl, ?_⟩
      intro p row now hp
      cases hp

theorem advance_frame {s s' : State} {k k' : Worker} {m : Move}
    (h : Advance s k m s' k') : s'.acked = s.acked ∧ s'.now = s.now := by
  cases h <;> exact ⟨rfl, rfl⟩

/-- **Step lemma**: every step keeps the bounds and never lowers the
watermark. -/
theorem bounded_step {s s' : State} {a : Action} (hInv : Bounded s)
    (h : next s a = some s') :
    Bounded s' ∧ s.row.projectedPos ≤ s'.row.projectedPos := by
  cases a with
  | connect =>
      cases h
      refine ⟨{ hInv with ahead := ?_ }, le_rfl⟩
      intro w k hw
      rcases worker_append hw with hOld | rfl
      · exact hInv.ahead w k hOld
      · intro p row now hp
        cases hp
  | move w m =>
      obtain ⟨k, s₁, k', hk, -, hAdv, rfl⟩ := move_cases h
      obtain ⟨hLe, hClaimed, hMono, hk'⟩ :=
        advance_bounded hInv (hInv.ahead w k hk) (advance_cases hAdv)
      refine ⟨⟨hLe, hClaimed, ?_⟩, hMono⟩
      intro v j hj
      rcases worker_set hj with ⟨-, rfl⟩ | ⟨-, hOld⟩
      · exact hk'
      · exact hInv.ahead v j hOld
  | crash w =>
      obtain ⟨k, hk, rfl⟩ := crash_cases h
      refine ⟨{ hInv with ahead := ?_ }, le_rfl⟩
      intro v j hj
      rcases worker_set hj with ⟨-, rfl⟩ | ⟨-, hOld⟩
      · exact hInv.ahead w k hk
      · exact hInv.ahead v j hOld
  | flushAck =>
      cases h
      exact ⟨{ hInv with }, le_rfl⟩
  | tick elapsed =>
      cases h
      exact ⟨{ hInv with }, le_rfl⟩

theorem bounded_initial (now : Int) : Bounded (initial now) where
  le_claimed := le_rfl
  claimed_le := by simp [initial]
  ahead w k hk := by simp [initial] at hk

theorem projectedPos_mono {C : State → Action → Prop} {s s' : State}
    (hInv : Bounded s) (h : system.Run C s s') :
    s.row.projectedPos ≤ s'.row.projectedPos :=
  h.history (fun a b => a.row.projectedPos ≤ b.row.projectedPos) hInv
    (fun _ _ _ hI _ hNext => (bounded_step hI hNext).1)
    (fun _ => le_rfl) (fun _ _ _ => le_trans)
    (fun _ _ _ hI _ hNext => (bounded_step hI hNext).2)

end Rekuest.Positions
