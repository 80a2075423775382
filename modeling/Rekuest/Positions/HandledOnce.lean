import Rekuest.Positions.Session

/-!
# When a position is handled once

`confirm_position` and `release_position` find their claim by its position
only.  A backend whose claim was taken over can therefore release the claim of
the backend that took it over, and then neither holder's work counts: the
position goes out to a third one.  Below, the two ways this happens, and the
condition on releases under which it cannot.

The age of a claim is measured on one clock here: a worker's clock reads the
state's time when it judges a claim.
-/

namespace Rekuest.Positions

open Concurrent

/-- Whether a worker still means to confirm position `pos`. -/
def Worker.relies (k : Worker) (pos : Int) : Bool :=
  !k.crashed && match k.phase with
    | .projecting p _ | .projected p _ => p == pos
    | _ => false

/-- Whether a worker holds a claim on `pos` inside `CLAIM_TIMEOUT`; a crashed
one holds it still. -/
def Worker.holdsYoung (k : Worker) (pos : Int) (now : Int) : Bool :=
  match k.phase.claim? with
  | some (p, claimedAt) => p == pos && decide (now - claimedAt ≤ claimTimeout)
  | none => false

/-- No worker but `w` relies on the row's claim or holds a young claim on its
position. -/
def ClaimIsOf (s : State) (w : Nat) : Prop :=
  ∀ v < s.workers.length, v ≠ w → ∀ k ∈ s.workers[v]?,
    k.relies s.row.claimedPos = false ∧
    k.holdsYoung s.row.claimedPos s.now = false

instance (s : State) (w : Nat) : Decidable (ClaimIsOf s w) :=
  inferInstanceAs (Decidable (∀ v < s.workers.length, v ≠ w →
    ∀ k ∈ s.workers[v]?, k.relies s.row.claimedPos = false ∧
      k.holdsYoung s.row.claimedPos s.now = false))

/-- Workers read one clock. -/
def OneClock (s : State) : Action → Prop
  | .move _ (.judge now) => now = s.now
  | _ => True

/-- Workers read one clock, and a release that matches the row releases no
other worker's claim. -/
def ReleasesOwn (s : State) : Action → Prop
  | .move w .release => ∀ k ∈ s.workers[w]?,
      k.phase.pos? = some s.row.claimedPos → ClaimIsOf s w
  | a => OneClock s a

instance (s : State) (a : Action) : Decidable (OneClock s a) :=
  match a with
  | .move _ (.judge now) => inferInstanceAs (Decidable (now = s.now))
  | .move _ (.offer _) | .move _ .read | .move _ .update
  | .move _ (.project _) | .move _ .confirm | .move _ .release
  | .connect | .crash _ | .flushAck | .tick _ => isTrue trivial

instance (s : State) (a : Action) : Decidable (ReleasesOwn s a) :=
  match a with
  | .move w .release =>
      inferInstanceAs (Decidable (∀ k ∈ s.workers[w]?,
        k.phase.pos? = some s.row.claimedPos → ClaimIsOf s w))
  | .move _ (.judge now) => inferInstanceAs (Decidable (now = s.now))
  | .move _ (.offer _) | .move _ .read | .move _ .update
  | .move _ (.project _) | .move _ .confirm
  | .connect | .crash _ | .flushAck | .tick _ => isTrue trivial

theorem ReleasesOwn.oneClock {s : State} {w : Nat} {now : Int}
    (h : ReleasesOwn s (.move w (.judge now))) : now = s.now := h

theorem relies_iff {k : Worker} {pos : Int} :
    k.relies pos = true ↔ k.crashed = false ∧
      ((∃ claimedAt, k.phase = .projecting pos claimedAt) ∨
        ∃ claimedAt, k.phase = .projected pos claimedAt) := by
  cases hPhase : k.phase <;> simp [Worker.relies, hPhase]

theorem holdsYoung_iff {k : Worker} {pos : Int} {now : Int} :
    k.holdsYoung pos now = true ↔
      ∃ claimedAt, k.phase.claim? = some (pos, claimedAt) ∧
        now - claimedAt ≤ claimTimeout := by
  simp only [Worker.holdsYoung]
  cases hClaim : k.phase.claim? with
  | none => simp
  | some claim =>
      obtain ⟨p, claimedAt⟩ := claim
      simp only [Bool.and_eq_true, beq_iff_eq, decide_eq_true_eq,
        Option.some.injEq, Prod.mk.injEq]
      constructor
      · rintro ⟨rfl, hAge⟩
        exact ⟨claimedAt, ⟨rfl, rfl⟩, hAge⟩
      · rintro ⟨at', ⟨rfl, rfl⟩, hAge⟩
        exact ⟨rfl, hAge⟩

/-- A claim of position `pos` is safe in the row: the watermark covers it, or
the row's claim is on it. -/
def Standing (row : Session) (pos : Int) : Prop :=
  pos ≤ row.projectedPos ∨ row.claimedPos = pos

/-- A young claim is safe and, while it is not covered, dated in the row. -/
def Dated (row : Session) (pos : Int) (claimedAt : Int) : Prop :=
  pos ≤ row.projectedPos ∨
    (row.claimedPos = pos ∧ row.claimedAt = some claimedAt)

/-- What is true of a worker's claim and of its last look at the clock. -/
structure ClaimKept (s : State) (k : Worker) : Prop where
  relied : ∀ p, k.relies p = true → Standing s.row p
  young : ∀ p claimedAt, k.phase.claim? = some (p, claimedAt) →
    s.now - claimedAt ≤ claimTimeout → Dated s.row p claimedAt
  judged : ∀ p seen now, k.phase = .attempting p seen now →
    now ≤ s.now ∧ (seen.idle = true ∨ seen.stale now = true)

/-- The inductive invariant: every claim a worker holds stands in the row. -/
structure ClaimsKept (s : State) : Prop extends Bounded s where
  worker : ∀ (w : Nat) (k : Worker), s.workers[w]? = some k → ClaimKept s k

private theorem Dated.not_free {row : Session} {p : Int} {claimedAt now : Int}
    (h : Dated row p claimedAt) (hNow : now - claimedAt ≤ claimTimeout)
    (hFree : row.idle = true ∨ row.stale now = true) :
    p ≤ row.projectedPos := by
  rcases h with hCovered | ⟨rfl, hAt⟩
  · exact hCovered
  · rcases hFree with hIdle | hStale
    · simpa [Session.idle] using hIdle
    · simp only [Session.stale, hAt, decide_eq_true_eq] at hStale
      omega

private theorem Standing.claim {row : Session} {p pos : Int} {now : Int}
    (h : Standing row p) (hClaimed : row.claimedPos ≤ row.projectedPos + 1)
    (hAhead : row.projectedPos < pos) : Standing (Session.claim pos now) p := by
  simp only [Standing, Session.claim] at h ⊢
  omega

private theorem Standing.confirm {row : Session} {p : Int} (h : Standing row p)
    (hLe : row.projectedPos ≤ row.claimedPos) (pos : Int) :
    Standing (row.confirmPosition pos) p := by
  simp only [Session.confirmPosition]
  split
  case isTrue =>
    refine .inl ?_
    rcases h with hCovered | hClaim
    · exact hCovered.trans hLe
    · exact hClaim.ge
  case isFalse => exact h

private theorem Dated.confirm {row : Session} {p : Int} {claimedAt : Int}
    (h : Dated row p claimedAt) (hLe : row.projectedPos ≤ row.claimedPos)
    (pos : Int) : Dated (row.confirmPosition pos) p claimedAt := by
  simp only [Session.confirmPosition]
  split
  case isTrue =>
    refine .inl ?_
    rcases h with hCovered | ⟨hClaim, -⟩
    · exact hCovered.trans hLe
    · exact hClaim.ge
  case isFalse => exact h

/-- A release that matches another position, or none, keeps the claim on
`p`. -/
private theorem Standing.release {row : Session} {p : Int} (h : Standing row p)
    (pos : Int) (hOwn : row.claimedPos = pos → pos ≠ p) :
    Standing (row.releasePosition pos) p := by
  simp only [Session.releasePosition]
  split
  case isTrue hMatch =>
    rcases h with hCovered | hClaim
    · exact .inl hCovered
    · exact absurd (hMatch.symm.trans hClaim) (hOwn hMatch)
  case isFalse => exact h

private theorem Dated.release {row : Session} {p : Int} {claimedAt : Int}
    (h : Dated row p claimedAt) (pos : Int)
    (hOwn : row.claimedPos = pos → pos ≠ p) :
    Dated (row.releasePosition pos) p claimedAt := by
  simp only [Session.releasePosition]
  split
  case isTrue hMatch =>
    rcases h with hCovered | ⟨hClaim, -⟩
    · exact .inl hCovered
    · exact absurd (hMatch.symm.trans hClaim) (hOwn hMatch)
  case isFalse => exact h

/-- Another worker's statement keeps `j`'s claim: the condition on releases is
used here, and the clock where the row is claimed anew. -/
private theorem advance_other {s s' : State} {k k' j : Worker} {m : Move}
    (hInv : Bounded s) (hAhead : k.Ahead) (hk : ClaimKept s k)
    (hj : ClaimKept s j)
    (hRelease : ∀ pos claimedAt, m = .release → k.phase = .failed pos claimedAt →
      s.row.claimedPos = pos →
        j.relies pos = false ∧ j.holdsYoung pos s.now = false)
    (h : Advance s k m s' k') : ClaimKept s' j := by
  cases h with
  | @claim pos now hPhase =>
      have hPos := hAhead pos s.row now hPhase
      obtain ⟨hNow, hFree⟩ := hk.judged pos s.row now hPhase
      refine ⟨fun p hp => ?_, fun p claimedAt hp hAge => ?_, hj.judged⟩
      · exact (hj.relied p hp).claim hInv.claimed_le hPos
      · have hCovered : p ≤ s.row.projectedPos :=
          (hj.young p claimedAt hp hAge).not_free (by simp only at hAge; omega) hFree
        refine .inl ?_
        simp only [Session.claim]
        omega
  | @confirm pos claimedAt hPhase =>
      exact ⟨fun p hp => (hj.relied p hp).confirm hInv.le_claimed pos,
        fun p at' hp hAge => (hj.young p at' hp hAge).confirm hInv.le_claimed pos,
        hj.judged⟩
  | @release pos claimedAt hPhase =>
      have hNot := hRelease pos claimedAt rfl hPhase
      refine ⟨fun p hp => (hj.relied p hp).release pos ?_,
        fun p at' hp hAge => (hj.young p at' hp hAge).release pos ?_, hj.judged⟩
      · rintro hMatch rfl
        exact absurd hp (by simp [(hNot hMatch).1])
      · rintro hMatch rfl
        have hYoung := holdsYoung_iff.mpr ⟨at', hp, hAge⟩
        exact absurd hYoung (by simp [(hNot hMatch).2])
  | _ => exact { hj with }

/-- The worker's own statement leaves it a claim that stands. -/
private theorem advance_self {s s' : State} {k k' : Worker} {m : Move}
    (hk : ClaimKept s k)
    (hClock : ∀ now, m = .judge now → now = s.now)
    (h : Advance s k m s' k') : ClaimKept s' k' := by
  cases h with
  | @attempt pos seen now hPhase hPos hFree =>
      refine ⟨by simp [Worker.relies], by simp [Phase.claim?], ?_⟩
      intro p row now' hp
      cases hp
      exact ⟨(hClock now rfl).le, hFree⟩
  | @claim pos now hPhase =>
      refine ⟨?_, ?_, by simp⟩
      · intro p hp
        have hp : p = pos := by
          simp only [Worker.relies, Bool.and_eq_true, beq_iff_eq] at hp
          exact hp.2.symm
        exact .inr hp.symm
      · intro p claimedAt hp hAge
        cases hp
        exact .inr ⟨rfl, rfl⟩
  | @succeed pos claimedAt hPhase =>
      refine ⟨?_, ?_, by simp⟩
      · intro p hp
        refine hk.relied p ?_
        simp only [Worker.relies, hPhase] at hp ⊢
        exact hp
      · intro p at' hp hAge
        exact hk.young p at' (by simpa [hPhase, Phase.claim?] using hp) hAge
  | @fail pos claimedAt hPhase =>
      refine ⟨by simp [Worker.relies], ?_, by simp⟩
      intro p at' hp hAge
      exact hk.young p at' (by simpa [hPhase, Phase.claim?] using hp) hAge
  | _ => exact ⟨by simp [Worker.relies], by simp [Phase.claim?], by simp⟩

private theorem ClaimKept.later {s s' : State} {k : Worker}
    (h : ClaimKept s k) (hRow : s'.row = s.row) (hNow : s.now ≤ s'.now) :
    ClaimKept s' k where
  relied p hp := hRow ▸ h.relied p hp
  young p claimedAt hp hAge := hRow ▸ h.young p claimedAt hp (by omega)
  judged p seen now hp := by
    obtain ⟨hLe, hFree⟩ := h.judged p seen now hp
    exact ⟨by omega, hFree⟩

/-- **Step lemma**: a step that releases no other worker's claim keeps every
claim standing. -/
theorem claimsKept_step {s s' : State} {a : Action} (hInv : ClaimsKept s)
    (hC : ReleasesOwn s a) (h : next s a = some s') : ClaimsKept s' := by
  obtain ⟨hBounded, -⟩ := bounded_step hInv.toBounded h
  refine { hBounded with worker := ?_ }
  cases a with
  | connect =>
      cases h
      intro w k hw
      rcases worker_append hw with hOld | rfl
      · exact (hInv.worker w k hOld).later rfl le_rfl
      · exact ⟨by simp [Worker.relies], by simp [Phase.claim?], by simp⟩
  | move w m =>
      obtain ⟨k, s₁, k', hk, -, hAdv, rfl⟩ := move_cases h
      have hAdv := advance_cases hAdv
      have hKept := hInv.worker w k hk
      intro v j hj
      rcases worker_set hj with ⟨-, rfl⟩ | ⟨hNe, hOld⟩
      · refine (advance_self hKept ?_ hAdv).later rfl le_rfl
        rintro now rfl
        exact hC.oneClock
      · refine (advance_other hInv.toBounded (hInv.ahead w k hk) hKept
          (hInv.worker v j hOld) ?_ hAdv).later rfl le_rfl
        rintro pos claimedAt rfl hPhase rfl
        have hOwn : ClaimIsOf s w := hC k hk (by simp [hPhase, Phase.pos?])
        have hLt : v < s.workers.length := (List.getElem?_eq_some_iff.mp hOld).1
        exact hOwn v hLt hNe j hOld
  | crash w =>
      obtain ⟨k, hk, rfl⟩ := crash_cases h
      intro v j hj
      rcases worker_set hj with ⟨-, rfl⟩ | ⟨-, hOld⟩
      · have hKept := hInv.worker w k hk
        exact ⟨by simp [Worker.relies], hKept.young, hKept.judged⟩
      · exact (hInv.worker v j hOld).later rfl le_rfl
  | flushAck =>
      cases h
      exact fun w k hk => (hInv.worker w k hk).later rfl le_rfl
  | tick elapsed =>
      cases h
      exact fun w k hk => (hInv.worker w k hk).later rfl (by simp only; omega)

theorem claimsKept_run {now : Int} {s : State}
    (h : system.Run ReleasesOwn (initial now) s) : ClaimsKept s :=
  h.invariant { bounded_initial now with
    worker := fun w k hk => by simp [initial] at hk }
    fun _ _ _ => claimsKept_step

/-! ## The two promises -/

/-- `claim_position(pos)` of worker `w` returns `Project` in this step. -/
def Claims (s : State) (w : Nat) (pos : Int) (s' : State) : Prop :=
  next s (.move w .update) = some s' ∧
    ∃ k claimedAt, s'.workers[w]? = some k ∧ k.phase = .projecting pos claimedAt

/-- Worker `w` projected `pos` successfully, and its `confirm_position(pos)`
returns in this step. -/
def Confirms (s : State) (w : Nat) (pos : Int) (s' : State) : Prop :=
  next s (.move w .confirm) = some s' ∧
    ∃ k claimedAt, s.workers[w]? = some k ∧ k.phase = .projected pos claimedAt

/-- After a confirm of `pos` from `s`, no `claim_position(pos)` returns
`Project` any more. -/
def NeverAgain (C : State → Action → Prop) (s : State) : Prop :=
  ∀ w pos s₁, Confirms s w pos s₁ → ∀ s₂, system.Run C s₁ s₂ →
    ∀ v s₃, ¬ Claims s₂ v pos s₃

/-- While a worker's claim of `pos` is inside `CLAIM_TIMEOUT` and neither
confirmed nor released by itself, no other worker starts projecting `pos`. -/
def YoungClaimKept (s : State) : Prop :=
  ∀ w pos claimedAt, (∃ k, s.workers[w]? = some k ∧
      k.phase.claim? = some (pos, claimedAt)) →
    s.now - claimedAt ≤ claimTimeout → ∀ v s', v ≠ w → ¬ Claims s v pos s'

/-- A claim that wins was judged free and lies above the watermark. -/
private theorem claims_cases {s s' : State} {v : Nat} {pos : Int}
    (h : Claims s v pos s') :
    ∃ k now, s.workers[v]? = some k ∧ k.phase = .attempting pos s.row now := by
  obtain ⟨hNext, j, claimedAt, hj, hProjecting⟩ := h
  obtain ⟨k, s₁, k', hk, -, hAdv, rfl⟩ := move_cases hNext
  obtain ⟨-, rfl⟩ : v = v ∧ j = k' := by
    rcases worker_set hj with hSelf | ⟨hNe, -⟩
    · exact hSelf
    · exact absurd rfl hNe
  cases advance_cases hAdv with
  | claim hAttempt => cases hProjecting; exact ⟨k, _, hk, hAttempt⟩
  | lose => cases hProjecting

/-- After a confirm of a standing claim the watermark covers it. -/
private theorem confirms_covered {s s' : State} {w : Nat} {pos : Int}
    (hInv : ClaimsKept s) (h : Confirms s w pos s') :
    pos ≤ s'.row.projectedPos := by
  obtain ⟨hNext, k, claimedAt, hk, hPhase⟩ := h
  obtain ⟨j, s₁, k', hj, hLive, hAdv, rfl⟩ := move_cases hNext
  obtain rfl : k = j := by simpa using hk.symm.trans hj
  have hStanding := (hInv.worker w k hk).relied pos
    (relies_iff.mpr ⟨hLive, .inr ⟨claimedAt, hPhase⟩⟩)
  cases advance_cases hAdv with
  | @confirm pos' claimedAt' hPhase' =>
      obtain ⟨rfl, -⟩ : pos' = pos ∧ claimedAt' = claimedAt := by
        simpa using hPhase'.symm.trans hPhase
      simp only [Session.confirmPosition]
      split
      case isTrue hMatch => exact hMatch.ge
      case isFalse hOther => exact hStanding.resolve_right hOther

/--
**A handled position is never handled again**, in every run in which no
release that matches the row releases another worker's claim: after a
successful projection was confirmed no claim of its position succeeds, and a
young claim is not lost to another worker's.
-/
theorem handled_once {now : Int} {s : State}
    (h : system.Run ReleasesOwn (initial now) s) :
    NeverAgain ReleasesOwn s ∧ YoungClaimKept s := by
  have hInv := claimsKept_run h
  constructor
  · intro w pos s₁ hConfirm s₂ hRun v s₃ hClaim
    have hCovered := confirms_covered hInv hConfirm
    have hBounded := (bounded_step hInv.toBounded hConfirm.1).1
    have hMono := projectedPos_mono hBounded hRun
    have hBounded₂ : Bounded s₂ := hRun.invariant hBounded
      fun _ _ _ hI _ hNext => (bounded_step hI hNext).1
    obtain ⟨k, now', hk, hAttempt⟩ := claims_cases hClaim
    have hAhead := hBounded₂.ahead v k hk pos s₂.row now' hAttempt
    omega
  · rintro w pos claimedAt ⟨k, hk, hHeld⟩ hAge v s' hNe hClaim
    obtain ⟨j, now', hj, hAttempt⟩ := claims_cases hClaim
    obtain ⟨hNow, hFree⟩ := (hInv.worker v j hj).judged pos s.row now' hAttempt
    have hDated := (hInv.worker w k hk).young pos claimedAt hHeld hAge
    have hCovered := hDated.not_free (by omega) hFree
    have hAhead := hInv.ahead v j hj pos s.row now' hAttempt
    omega

/-! ## A takeover, with and without a release -/

/-- The first worker stalls for 31 seconds with its claim of position 1, and
the second takes the claim over. -/
def stalledTakeover : List Action :=
  [.connect, .move 0 (.offer 1), .move 0 .read, .move 0 (.judge 0),
   .move 0 .update, .tick 31000000, .connect, .move 1 (.offer 1),
   .move 1 .read, .move 1 (.judge 31000000), .move 1 .update]

/-- Nobody releases: what the second worker confirms stays handled. -/
theorem handled_once_takeover :
    ∃ s s₁, system.Run ReleasesOwn (initial 0) s ∧ Confirms s 1 1 s₁ ∧
      ∀ s₂ v s₃, system.Run ReleasesOwn s₁ s₂ → ¬ Claims s₂ v 1 s₃ := by
  have hPlay : system.play ReleasesOwn (initial 0)
      (stalledTakeover ++ [.move 1 (.project true)]) = some
        { row := ⟨0, 1, some 31000000⟩
          workers := [{ phase := .projecting 1 0 },
            { phase := .projected 1 31000000 }]
          handled := [1]
          now := 31000000 } := by decide
  have hRun := System.run_of_play hPlay
  refine ⟨_, _, hRun, ⟨rfl, _, 31000000, rfl, rfl⟩, ?_⟩
  intro s₂ v s₃ hLater
  exact (handled_once hRun).1 1 1 _ ⟨rfl, _, 31000000, rfl, rfl⟩ s₂ hLater v s₃

/-- The third worker comes with the resend of position 1 and finds the claim
released. -/
private def resend : List Action :=
  [.connect, .move 2 (.offer 1), .move 2 .read, .move 2 (.judge 31000000)]

/--
Both promises fail without the condition.  First, the second worker fails and
releases; the stalled worker then confirms a claim that is gone, and position 1
is projected again.  Second, the stalled worker fails and releases the second
worker's claim, which is 0 seconds old, and a third worker starts on the
position.
-/
theorem handled_twice :
    (∃ s, system.Run OneClock (initial 0) s ∧ ¬ NeverAgain OneClock s) ∧
    (∃ s, system.Run OneClock (initial 0) s ∧ ¬ YoungClaimKept s) := by
  constructor
  · have hPlay : system.play OneClock (initial 0)
        (stalledTakeover ++ [.move 1 (.project false), .move 1 .release,
          .move 0 (.project true)]) = some
          { row := ⟨0, 0, none⟩
            workers := [{ phase := .projected 1 0 }, { phase := .closed }]
            handled := [1]
            now := 31000000 } := by decide
    have hResend : system.play OneClock
        { row := ⟨0, 0, none⟩
          workers := [{ last := some 1 }, { phase := .closed }]
          handled := [1]
          now := 31000000 } resend = some
        { row := ⟨0, 0, none⟩
          workers := [{ last := some 1 }, { phase := .closed },
            { phase := .attempting 1 ⟨0, 0, none⟩ 31000000 }]
          handled := [1]
          now := 31000000 } := by decide
    refine ⟨_, System.run_of_play hPlay, ?_⟩
    intro hNever
    exact hNever 0 1 _ ⟨rfl, _, 0, rfl, rfl⟩ _ (System.run_of_play hResend) 2 _
      ⟨rfl, _, 31000000, rfl, rfl⟩
  · have hPlay : system.play OneClock (initial 0)
        (stalledTakeover ++ [.move 0 (.project false), .move 0 .release] ++
          resend) = some
          { row := ⟨0, 0, none⟩
            workers := [{ phase := .closed }, { phase := .projecting 1 31000000 },
              { phase := .attempting 1 ⟨0, 0, none⟩ 31000000 }]
            now := 31000000 } := by decide
    refine ⟨_, System.run_of_play hPlay, ?_⟩
    intro hKept
    exact hKept 1 1 31000000 ⟨_, rfl, rfl⟩ (by decide) 2 _ (by decide)
      ⟨rfl, _, 31000000, rfl, rfl⟩

end Rekuest.Positions
