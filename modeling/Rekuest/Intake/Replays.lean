import Mathlib.Algebra.Order.Ring.Rat
import Mathlib.Data.Rat.Floor
import Rekuest.Intake.Hooks

/-!
# What a replay meets

A claim that outlives every second in which its request authenticates stops every
replay.  Neither lifetime is chosen so: the last second of a window is read whole,
and a service token's window does not depend on the setting the claim lives by.
-/

namespace Rekuest.Intake

open Concurrent

variable {R : Type} [Field R] [LinearOrder R] [IsStrictOrderedRing R] [FloorRing R]
variable {request : Request} {lag : R} {s s' : HookState R}

/-! ## The law -/

/-- Whether a delivery took the claim and has not given it back. -/
def Delivery.holds : Delivery R → Bool
  | .routing claimed _ | .erred claimed => claimed
  | .answered (.routed claimed) | .answered (.refusal claimed) => claimed
  | .crashed _ claimed => claimed
  | _ => false

/-- Whether a delivery took the claim and was processed without error. -/
def Delivery.processed : Delivery R → Bool
  | .answered (.routed claimed) | .answered (.refusal claimed) => claimed
  | _ => false

/-- Whether a delivery was routed, without its route having erred. -/
def Delivery.routed : Delivery R → Bool
  | .routing _ _ | .answered (.routed _) | .answered (.refusal _) => true
  | .crashed routed _ => routed
  | _ => false

/-- An instant at which a delivery that authenticates may be at the guard. -/
def Request.Arrives (request : Request) (lag r : R) : Prop :=
  ∃ a ≤ r, r ≤ a + lag ∧ request.signed.authenticates request.hookMaxSkew ⌊a⌋ = true

/-- No replay passes: once a delivery took the claim and was processed without error,
every later one finds it standing, and of a frame that is not routed twice on purpose
one delivery at most is routed. -/
structure NeverPasses (request : Request) (lag : R) (s : HookState R) : Prop where
  stands : ∀ (i : Nat) (d : Delivery R), s.deliveries[i]? = some d → d.processed = true →
    ∀ r ≥ s.now, request.Arrives lag r → ∃ e, s.claim = some e ∧ r < e
  once : replyForDuplicate request.frame ≠ none →
    ∀ (i j : Nat) (d d' : Delivery R), s.deliveries[i]? = some d → s.deliveries[j]? = some d' →
      d.routed = true → d'.routed = true → i = j

/-! ## The condition -/

/-- A claim outlives its request: every second in which the request authenticates is
over before the claim expires, and whoever authenticated in it is past the guard. -/
def Request.Outlives (request : Request) (lag expires : R) : Prop :=
  ∀ second : Int, request.signed.authenticates request.hookMaxSkew second = true →
    (second : R) + 1 + lag ≤ expires

/-- When a step keeps replays out: a claim is taken that outlives its request, by a
delivery that authenticated not longer ago than the lag, and the claim is not given
back by a delivery that did not take it. -/
def KeepsOut (request : Request) (lag : R) (s : HookState R) : Action R → Prop
  | .guard i _ => ∀ at_, s.deliveries[i]? = some (.received at_) → s.now ≤ at_ + lag ∧
      (s.stands = false → request.Outlives lag
        (s.now + request.signed.ttl request.hookMaxSkew ⌊s.now⌋))
  | .release i _ => s.deliveries[i]? ≠ some (.erred false)
  | _ => True

omit [FloorRing R] in
/-- A claim outlives a request whose last second is known. -/
theorem Request.outlives_iff {last : Int} {expires : R}
    (h : request.signed.authenticates request.hookMaxSkew last = true ∧
      ∀ second, request.signed.authenticates request.hookMaxSkew second = true → second ≤ last) :
    request.Outlives lag expires ↔ (last : R) + 1 + lag ≤ expires := by
  constructor
  · intro hOutlives
    exact hOutlives last h.1
  · intro hLast second hSecond
    have hLe : (second : R) ≤ last := Int.cast_le.2 (h.2 second hSecond)
    linarith

omit [FloorRing R] in
/-- A V1 signature is outlived by what stands a second beyond its skew. -/
theorem Request.outlives_v1 {timestamp : Int} {expires : R}
    (hSigned : request.signed = .v1 timestamp) (hSkew : 0 ≤ request.hookMaxSkew)
    (hTimestamp : -2 ^ 62 < timestamp ∧ timestamp < 2 ^ 62)
    (hLast : readable (timestamp + request.hookMaxSkew) = true) :
    request.Outlives lag expires ↔
      ((timestamp + request.hookMaxSkew : Int) : R) + 1 + lag ≤ expires := by
  apply Request.outlives_iff
  rw [hSigned]
  exact authenticates_v1 hSkew hTimestamp hLast

/-! ## The invariant -/

structure Kept (request : Request) (lag : R) (s : HookState R) : Prop where
  /-- A delivery authenticated when it came in. -/
  received : ∀ (i : Nat) (at_ : R), s.deliveries[i]? = some (Delivery.received at_) →
    at_ ≤ s.now ∧ request.signed.authenticates request.hookMaxSkew ⌊at_⌋ = true
  /-- One delivery at most holds the claim, which outlives the request. -/
  holder : ∀ (i j : Nat) (d d' : Delivery R), s.deliveries[i]? = some d →
    s.deliveries[j]? = some d' → d.holds = true → d'.holds = true → i = j
  claim : ∀ (i : Nat) (d : Delivery R), s.deliveries[i]? = some d → d.holds = true →
    ∃ e, s.claim = some e ∧ request.Outlives lag e
  /-- Only what is routed twice on purpose is routed without the claim. -/
  guarded : replyForDuplicate request.frame ≠ none →
    ∀ (i : Nat) (d : Delivery R), s.deliveries[i]? = some d → d.routed = true → d.holds = true

theorem lt_of_arrives {r e : R} (hOutlives : request.Outlives lag e)
    (hArrives : request.Arrives lag r) : r < e := by
  obtain ⟨a, -, hLag, hAuthenticates⟩ := hArrives
  have hSecond := hOutlives ⌊a⌋ hAuthenticates
  have hFloor := Int.lt_floor_add_one a
  calc r ≤ a + lag := hLag
    _ < (⌊a⌋ : R) + 1 + lag := by linarith
    _ ≤ e := hSecond

theorem neverPasses_of_kept (h : Kept request lag s) : NeverPasses request lag s := by
  constructor
  · intro i d hAt hProcessed r _ hArrives
    have hHolds : d.holds = true := by
      cases d with
      | answered answer => cases answer <;> exact hProcessed
      | received | routing | erred | crashed => cases hProcessed
    obtain ⟨e, hClaim, hOutlives⟩ := h.claim i d hAt hHolds
    exact ⟨e, hClaim, lt_of_arrives hOutlives hArrives⟩
  · intro hGuarded i j d d' hi hj hRouted hRouted'
    exact h.holder i j d d' hi hj (h.guarded hGuarded i d hi hRouted)
      (h.guarded hGuarded j d' hj hRouted')

/-! ## The steps -/

omit [IsStrictOrderedRing R] in
/-- A step of one delivery that takes no claim. -/
theorem Kept.put {i : Nat} {d d' : Delivery R} {effect : Bool} (h : Kept request lag s)
    (hAt : s.deliveries[i]? = some d) (hReceived : ∀ at_, d' ≠ .received at_)
    (hHolds : d'.holds = true → d.holds = true)
    (hRouted : replyForDuplicate request.frame ≠ none → d'.routed = true → d'.holds = true) :
    Kept request lag { s.put i d' with effect := effect } := by
  -- a holder afterwards was one before, at the same place
  have hBefore : ∀ (j : Nat) (x : Delivery R), (s.put i d').deliveries[j]? = some x →
      x.holds = true → ∃ x', s.deliveries[j]? = some x' ∧ x'.holds = true := by
    intro j x hj hx
    rcases at_set hj with ⟨rfl, rfl⟩ | hOld
    · exact ⟨d, hAt, hHolds hx⟩
    · exact ⟨x, hOld, hx⟩
  constructor
  · intro j at_ hj
    rcases at_set hj with ⟨-, hEq⟩ | hOld
    · exact absurd hEq.symm (hReceived at_)
    · exact h.received j at_ hOld
  · intro j k x y hj hk hx hy
    obtain ⟨x', hj', hx'⟩ := hBefore j x hj hx
    obtain ⟨y', hk', hy'⟩ := hBefore k y hk hy
    exact h.holder j k x' y' hj' hk' hx' hy'
  · intro j x hj hx
    obtain ⟨x', hj', hx'⟩ := hBefore j x hj hx
    exact h.claim j x' hj' hx'
  · intro hGuarded j x hj hx
    rcases at_set hj with ⟨-, rfl⟩ | hOld
    · exact hRouted hGuarded hx
    · exact h.guarded hGuarded j x hOld hx

omit [IsStrictOrderedRing R] in
/-- A delivery that comes in. -/
theorem Kept.arrive {d : Delivery R} (h : Kept request lag s) (hHolds : d.holds = false)
    (hRouted : d.routed = false) (hReceived : ∀ at_, d = .received at_ → at_ ≤ s.now ∧
      request.signed.authenticates request.hookMaxSkew ⌊at_⌋ = true) :
    Kept request lag { s with deliveries := s.deliveries ++ [d] } := by
  have hBefore : ∀ (j : Nat) (x : Delivery R), (s.deliveries ++ [d])[j]? = some x →
      x.holds = true → s.deliveries[j]? = some x := by
    intro j x hj hx
    rcases at_append hj with rfl | hOld
    · rw [hHolds] at hx
      cases hx
    · exact hOld
  constructor
  · intro j at_ hj
    rcases at_append hj with hEq | hOld
    · exact hReceived at_ hEq.symm
    · exact h.received j at_ hOld
  · intro j k x y hj hk hx hy
    exact h.holder j k x y (hBefore j x hj hx) (hBefore k y hk hy) hx hy
  · intro j x hj hx
    exact h.claim j x (hBefore j x hj hx) hx
  · intro hGuarded j x hj hx
    rcases at_append hj with rfl | hOld
    · rw [hRouted] at hx
      cases hx
    · exact h.guarded hGuarded j x hOld hx

omit [IsStrictOrderedRing R] in
/-- The holder gives the claim back. -/
theorem Kept.release {i : Nat} {claim : Option R} (h : Kept request lag s)
    (hAt : s.deliveries[i]? = some (.erred true)) :
    Kept request lag { s.put i (.answered .failed) with claim := claim } := by
  have hNone : ∀ (j : Nat) (x : Delivery R),
      (s.put i (.answered .failed)).deliveries[j]? = some x → x.holds = false := by
    intro j x hj
    rcases at_set hj with ⟨-, rfl⟩ | hOld
    · rfl
    · by_contra hHolds
      have hSame := h.holder j i x _ hOld hAt (by simpa using hHolds) rfl
      subst hSame
      rw [HookState.put, List.getElem?_set_self (List.getElem?_eq_some_iff.1 hAt).1] at hj
      cases hj
      exact hHolds rfl
  constructor
  · intro j at_ hj
    rcases at_set hj with ⟨-, hEq⟩ | hOld
    · cases hEq
    · exact h.received j at_ hOld
  · intro j k x y hj hk hx hy
    rw [hNone j x hj] at hx
    cases hx
  · intro j x hj hx
    rw [hNone j x hj] at hx
    cases hx
  · intro hGuarded j x hj hx
    rcases at_set hj with ⟨-, rfl⟩ | hOld
    · cases hx
    · exact h.guarded hGuarded j x hOld hx

/-- While a delivery is at the guard in time, a holder's claim stands. -/
theorem Kept.stands_of_holder {i j : Nat} {at_ : R} {d : Delivery R} (h : Kept request lag s)
    (hAt : s.deliveries[i]? = some (.received at_)) (hLag : s.now ≤ at_ + lag)
    (hHolder : s.deliveries[j]? = some d) (hHolds : d.holds = true) : s.stands = true := by
  obtain ⟨hBefore, hAuthenticates⟩ := h.received i at_ hAt
  obtain ⟨e, hClaim, hOutlives⟩ := h.claim j d hHolder hHolds
  have hLt := lt_of_arrives hOutlives ⟨at_, hBefore, hLag, hAuthenticates⟩
  unfold HookState.stands
  rw [hClaim, Option.any_some]
  exact decide_eq_true hLt

/-- Taking the claim. -/
theorem Kept.take {i : Nat} {at_ : R} (h : Kept request lag s)
    (hAt : s.deliveries[i]? = some (.received at_)) (hStands : s.stands = false)
    (hLag : s.now ≤ at_ + lag)
    (hOutlives : request.Outlives lag (s.now + request.signed.ttl request.hookMaxSkew ⌊s.now⌋)) :
    Kept request lag { routeOn s i true request.writes with
      claim := some (s.now + request.signed.ttl request.hookMaxSkew ⌊s.now⌋) } := by
  have hNone : ∀ (j : Nat) (d : Delivery R), s.deliveries[j]? = some d → d.holds = false := by
    intro j d hj
    by_contra hHolds
    have hStanding := h.stands_of_holder hAt hLag hj (by simpa using hHolds)
    rw [hStands] at hStanding
    cases hStanding
  -- the taker is the only holder
  have hOnly : ∀ (j : Nat) (d : Delivery R),
      (s.put i (.routing true request.writes)).deliveries[j]? = some d → d.holds = true → j = i := by
    intro j d hj hHolds
    rcases at_set hj with ⟨hEq, -⟩ | hOld
    · exact hEq
    · rw [hNone j d hOld] at hHolds
      cases hHolds
  constructor
  · intro j at' hj
    rcases at_set hj with ⟨-, hEq⟩ | hOld
    · cases hEq
    · exact h.received j at' hOld
  · intro j k x y hj hk hx hy
    rw [hOnly j x hj hx, hOnly k y hk hy]
  · intro j x _ _
    exact ⟨_, rfl, hOutlives⟩
  · intro hGuarded j x hj hx
    rcases at_set hj with ⟨-, rfl⟩ | hOld
    · rfl
    · exact h.guarded hGuarded j x hOld hx

theorem Kept.guard {i : Nat} {at_ : R} {answers : Bool} (h : Kept request lag s)
    (hAt : s.deliveries[i]? = some (.received at_))
    (hKeeps : KeepsOut request lag s (.guard i answers)) :
    Kept request lag (guardStep request s i answers) := by
  obtain ⟨hLag, hOutlives⟩ := hKeeps at_ hAt
  unfold guardStep
  by_cases hAnswers : answers = true
  · rw [if_neg (by simp [hAnswers])]
    by_cases hStands : s.stands = true
    · rw [if_pos hStands]
      split
      · next answer hReply =>
          apply h.put hAt
          · intro at' hEq
            cases hEq
          · intro hHolds
            rcases duplicate_or_replayed hReply with rfl | rfl <;> cases hHolds
          · intro _ hRouted
            rcases duplicate_or_replayed hReply with rfl | rfl <;> cases hRouted
      · next hReply =>
          apply h.put hAt
          · intro at' hEq
            cases hEq
          · intro hHolds
            cases hHolds
          · intro hGuarded
            exact absurd hReply hGuarded
    · rw [if_neg hStands]
      have hStands : s.stands = false := by simpa using hStands
      exact h.take hAt hStands hLag (hOutlives hStands)
  · rw [if_pos (by simpa using hAnswers)]
    apply h.put hAt
    · intro at' hEq
      cases hEq
    · intro hHolds
      cases hHolds
    · intro _ hRouted
      cases hRouted

/-- **Step lemma** -/
theorem kept_step {a : Action R} (h : Kept request lag s) (hKeeps : KeepsOut request lag s a)
    (hNext : (hookIntake R request).next s a = some s') : Kept request lag s' := by
  change next request s a = some s' at hNext
  cases a with
  | wait until_ =>
      simp only [next] at hNext
      split at hNext
      · next hLe =>
          cases hNext
          refine ⟨fun i at_ hAt => ?_, h.holder, h.claim, h.guarded⟩
          obtain ⟨hBefore, hAuthenticates⟩ := h.received i at_ hAt
          exact ⟨le_trans hBefore hLe, hAuthenticates⟩
      · cases hNext
  | arrive =>
      cases hNext
      apply h.arrive
      · split
        · rfl
        · split
          · rfl
          · rfl
      · split
        · rfl
        · split
          · rfl
          · rfl
      · intro at_ hEq
        split at hEq
        · cases hEq
        · next hAuthenticates =>
            split at hEq
            · cases hEq
            · cases hEq
              exact ⟨le_refl _, by simpa using hAuthenticates⟩
  | guard i answers =>
      simp only [next] at hNext
      split at hNext
      · next at_ hAt =>
          cases hNext
          exact h.guard hAt hKeeps
      · cases hNext
  | write i =>
      simp only [next] at hNext
      split at hNext
      · next claimed left hAt =>
          cases hNext
          apply h.put hAt
          · intro at_ hEq
            cases hEq
          · exact id
          · intro hGuarded _
            have hClaimed : claimed = true := h.guarded hGuarded i _ hAt rfl
            exact hClaimed
      · cases hNext
  | finish i how =>
      simp only [next] at hNext
      split at hNext
      · next claimed left hAt =>
          have hGuarded : replyForDuplicate request.frame ≠ none → claimed = true :=
            fun hReply => h.guarded hReply i _ hAt rfl
          cases how with
          | ok =>
              dsimp only at hNext
              split at hNext
              · cases hNext
                exact h.put hAt (fun at_ hEq => by cases hEq) id fun hReply _ => hGuarded hReply
              · cases hNext
          | refusal =>
              dsimp only at hNext
              split at hNext
              · cases hNext
                exact h.put hAt (fun at_ hEq => by cases hEq) id fun hReply _ => hGuarded hReply
              · cases hNext
          | error =>
              cases hNext
              exact h.put hAt (fun at_ hEq => by cases hEq) id fun _ hRouted => by cases hRouted
      · cases hNext
  | release i answers =>
      simp only [next] at hNext
      split at hNext
      · next claimed hAt =>
          cases hNext
          cases claimed with
          | false => exact absurd hAt hKeeps
          | true => exact h.release hAt
      · cases hNext
  | crash i =>
      simp only [next] at hNext
      split at hNext
      · next hAt =>
          cases hNext
          exact h.put hAt (fun at_ hEq => by cases hEq) id fun _ hRouted => by cases hRouted
      · next claimed left hAt =>
          cases hNext
          have hClaimed : replyForDuplicate request.frame ≠ none → claimed = true :=
            fun hReply => h.guarded hReply i _ hAt rfl
          exact h.put hAt (fun at_ hEq => by cases hEq) id fun hReply _ => hClaimed hReply
      · next claimed hAt =>
          cases hNext
          exact h.put hAt (fun at_ hEq => by cases hEq) id fun _ hRouted => by cases hRouted
      · cases hNext

/-- A completion, signed at 1000 and taken while the skew is 300 seconds. -/
def completion : Request where
  hookMaxSkew := 300
  signed := .v1 1000
  frame := .completed
  writes := 1

end Rekuest.Intake
