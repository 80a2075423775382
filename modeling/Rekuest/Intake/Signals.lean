import Mathlib.Algebra.Order.Ring.Rat
import Mathlib.Data.Rat.Floor
import Rekuest.Intake.Acks

/-!
# The intake of signals

Every delivery of one signal, each under the token it was signed with: `signal_intake`
takes the claim of the token, `store` inserts the row and then `remember_descriptors`
writes what the signal says of its object, each statement a transaction of its own.
-/

namespace Rekuest.Intake

open Concurrent

/-- A signal, and the setting it meets: whether `remember_descriptors` writes anything. -/
structure Signal where
  hookMaxSkew : Int
  describes : Bool

inductive SignalAnswer
  /-- 401, 400 -/
  | invalid
  /-- 503: redis did not answer. -/
  | unavailable
  /-- 202: the claim was found standing. -/
  | duplicate
  /-- 202, with the row's id and whether it was created. -/
  | stored (created : Bool)
  /-- 202, told that the signal was dropped: its organization is not known here. -/
  | dropped
  /-- 500 -/
  | failed
  deriving DecidableEq

/-- Whether the sender is told that the signal is stored. -/
def SignalAnswer.isSuccess : SignalAnswer → Bool
  | .duplicate | .stored _ => true
  | _ => false

/-- Where a delivery of a signal stands. -/
inductive SignalStage
  | received
  /-- Before the organization and the row are looked up. -/
  | looking
  /-- Before the insert. -/
  | inserting
  /-- The insert met a row. -/
  | conflicted
  /-- The row is inserted, what it says is not remembered. -/
  | remembering
  /-- A statement failed, and the claim is to be released. -/
  | erred
  | answered (answer : SignalAnswer)
  | crashed
  deriving DecidableEq

structure SignalDelivery where
  jti : Nat
  stage : SignalStage
  deriving DecidableEq

structure SignalState (R : Type) where
  now : R
  /-- Whether the signal's organization is known here. -/
  known : Bool := true
  /-- Until when each token's claim stands. -/
  claims : Nat → Option R := fun _ => none
  row : Bool := false
  remembered : Bool := false
  deliveries : List SignalDelivery := []

def SignalState.put {R : Type} (s : SignalState R) (i jti : Nat) (stage : SignalStage) :
    SignalState R :=
  { s with deliveries := s.deliveries.set i { jti, stage } }

inductive SignalAction (R : Type)
  | wait (until_ : R)
  /-- The organization becomes known. -/
  | learn
  /-- A delivery comes in under a token, authenticated and well formed or not. -/
  | arrive (jti : Nat) (valid : Bool)
  /-- `claim_request`; redis answers or not. -/
  | guard (i : Nat) (answers : Bool)
  /-- The organization and the existing row; the statements succeed or not. -/
  | look (i : Nat) (succeeds : Bool)
  /-- `INSERT … ON CONFLICT DO NOTHING` -/
  | insert (i : Nat) (succeeds : Bool)
  /-- The row a concurrent resend inserted. -/
  | existing (i : Nat) (succeeds : Bool)
  /-- `remember_descriptors` -/
  | remember (i : Nat) (succeeds : Bool)
  /-- `release_request` -/
  | release (i : Nat) (answers : Bool)
  | crash (i : Nat)

section

variable {R : Type} [Field R] [LinearOrder R] [FloorRing R]

def SignalState.stands (s : SignalState R) (jti : Nat) : Bool :=
  (s.claims jti).any fun expires => decide (s.now < expires)

/-- Whether the signal is stored and what it says of its object remembered. -/
def SignalState.done (signal : Signal) (s : SignalState R) : Bool :=
  s.row && (!signal.describes || s.remembered)

def nextSignal (signal : Signal) (s : SignalState R) : SignalAction R → Option (SignalState R)
  | .wait until_ => if s.now ≤ until_ then some { s with now := until_ } else none
  | .learn => some { s with known := true }
  | .arrive jti valid =>
      let stage := if valid then .received else .answered .invalid
      some { s with deliveries := s.deliveries ++ [{ jti, stage }] }
  | .guard i answers =>
      match s.deliveries[i]? with
      | some ⟨jti, .received⟩ =>
          if !answers then some (s.put i jti (.answered .unavailable))
          else if s.stands jti then some (s.put i jti (.answered .duplicate))
          else
            let expires := s.now + (max (i64 (signal.hookMaxSkew * 2)) 1 : Int)
            some { s.put i jti .looking with
              claims := fun k => if k = jti then some expires else s.claims k }
      | _ => none
  | .look i succeeds =>
      match s.deliveries[i]? with
      | some ⟨jti, .looking⟩ =>
          if !succeeds then some (s.put i jti .erred)
          else if !s.known then some (s.put i jti (.answered .dropped))
          else if s.row then some (s.put i jti (.answered (.stored false)))
          else some (s.put i jti .inserting)
      | _ => none
  | .insert i succeeds =>
      match s.deliveries[i]? with
      | some ⟨jti, .inserting⟩ =>
          if !succeeds then some (s.put i jti .erred)
          else if s.row then some (s.put i jti .conflicted)
          else some { s.put i jti .remembering with row := true }
      | _ => none
  | .existing i succeeds =>
      match s.deliveries[i]? with
      | some ⟨jti, .conflicted⟩ =>
          if !succeeds then some (s.put i jti .erred)
          else if s.row then some (s.put i jti (.answered (.stored false)))
          else some (s.put i jti (.answered .dropped))
      | _ => none
  | .remember i succeeds =>
      match s.deliveries[i]? with
      | some ⟨jti, .remembering⟩ =>
          -- a signal that says nothing runs no statement
          if signal.describes && !succeeds then some (s.put i jti .erred)
          else some { s.put i jti (.answered (.stored true)) with
            remembered := s.remembered || signal.describes }
      | _ => none
  | .release i answers =>
      match s.deliveries[i]? with
      | some ⟨jti, .erred⟩ =>
          some { s.put i jti (.answered .failed) with
            claims := fun k => if k = jti ∧ answers then none else s.claims k }
      | _ => none
  | .crash i =>
      match s.deliveries[i]? with
      | some ⟨_, .answered _⟩ | some ⟨_, .crashed⟩ | none => none
      | some ⟨jti, _⟩ => some (s.put i jti .crashed)

end

/-- The deliveries of a signal. -/
def signalIntake (R : Type) [Field R] [LinearOrder R] [FloorRing R] (signal : Signal) :
    System (SignalState R) (SignalAction R) where
  next := nextSignal signal

/-! ## The law -/

/-- Whether a delivery is between the guard and its answer. -/
def SignalDelivery.atWork (d : SignalDelivery) : Bool :=
  match d.stage with
  | .looking | .inserting | .conflicted | .remembering | .erred => true
  | _ => false

/-- Whether a delivery may still insert the row. -/
def SignalDelivery.mayInsert (d : SignalDelivery) : Bool :=
  match d.stage with
  | .looking | .inserting => true
  | _ => false

def SignalDelivery.isRemembering (d : SignalDelivery) : Bool := d.stage == .remembering

def SignalDelivery.isAck (d : SignalDelivery) : Bool :=
  match d.stage with
  | .answered answer => answer.isSuccess
  | _ => false

def SignalDelivery.wasDropped (d : SignalDelivery) : Bool := d.stage == .answered .dropped

/-- Whether a delivery at work took the claim of a token. -/
def SignalDelivery.owes (jti : Nat) (d : SignalDelivery) : Bool := d.jti == jti && d.atWork

variable {R : Type} [LinearOrder R]
variable {signal : Signal} {s s' : SignalState R}

/-- With nobody at work, whoever was answered with a success was told the truth; and a
signal that is not done left no claim, unless of a token it was dropped under, and no
row that would be taken for it. -/
structure KeepsSignal (signal : Signal) (s : SignalState R) : Prop where
  acknowledged : ¬ Has s.deliveries SignalDelivery.atWork →
    Has s.deliveries SignalDelivery.isAck → s.done signal = true
  retriable : ¬ Has s.deliveries SignalDelivery.atWork → s.done signal = false →
    s.row = false ∧ ∀ jti, s.stands jti = true →
      Has s.deliveries fun d => d.jti == jti && d.wasDropped

/-! ## The condition -/

/-- The holder of a standing claim may leave it behind only for another holder. -/
def LeavesNoToken (s : SignalState R) (i : Nat) : Prop :=
  ∀ d, s.deliveries[i]? = some d → s.row = false → s.stands d.jti = true →
    HasBeside s.deliveries (SignalDelivery.owes d.jti) i

/-- Once a success was answered, who may insert the row fails to only beside another. -/
def LosesNoRow (s : SignalState R) (i : Nat) : Prop :=
  s.row = false → Has s.deliveries SignalDelivery.isAck →
    HasBeside s.deliveries SignalDelivery.mayInsert i

/-- When a step keeps the word: a duplicate is acknowledged only of a row that is there
or that another delivery may insert; after that the insert does not fail; what the row
says is remembered; and no holder crashes, or does not reach redis, while its claim
stands without the effect. -/
def KeepsTrack (signal : Signal) (s : SignalState R) : SignalAction R → Prop
  | .guard i answers => ∀ jti, s.deliveries[i]? = some ⟨jti, .received⟩ → answers = true →
      s.stands jti = true → s.row = true ∨ Has s.deliveries SignalDelivery.mayInsert
  | .look i succeeds => succeeds = false ∨ s.known = false → LosesNoRow s i
  | .insert i succeeds => succeeds = false → LosesNoRow s i
  | .remember _ succeeds => signal.describes = true → succeeds = true
  | .release i answers => answers = false → LeavesNoToken s i
  | .crash i => LosesNoRow s i ∧ LeavesNoToken s i ∧
      (s.done signal = false → ∀ jti, s.deliveries[i]? ≠ some ⟨jti, .remembering⟩)
  | _ => True

/-! ## The invariant -/

structure Storing (signal : Signal) (s : SignalState R) : Prop where
  /-- A row that is not done is being remembered. -/
  begun : s.row = true → s.done signal = false → Has s.deliveries SignalDelivery.isRemembering
  /-- A success is of a row that is there or may be inserted. -/
  carried : Has s.deliveries SignalDelivery.isAck →
    s.row = true ∨ Has s.deliveries SignalDelivery.mayInsert
  /-- Before the row a standing claim is owed by who took it, or the signal was dropped
  under it. -/
  owed : ∀ jti, s.row = false → s.stands jti = true →
    Has s.deliveries (SignalDelivery.owes jti) ∨
      Has s.deliveries fun d => d.jti == jti && d.wasDropped
  inserted : ∀ (i jti : Nat) (stage : SignalStage), s.deliveries[i]? = some ⟨jti, stage⟩ →
    stage = .conflicted ∨ stage = .remembering → s.row = true

theorem keepsSignal_of_storing (h : Storing signal s) : KeepsSignal signal s := by
  -- who is to remember a row is at work
  have hDone : ¬ Has s.deliveries SignalDelivery.atWork → s.row = true → s.done signal = true := by
    intro hQuiet hRow
    by_contra hNot
    apply hQuiet
    apply (h.begun hRow (by simpa using hNot)).mono
    intro d hd
    have hStage : d.stage = .remembering := by simpa [SignalDelivery.isRemembering] using hd
    simp [SignalDelivery.atWork, hStage]
  constructor
  · intro hQuiet hAck
    rcases h.carried hAck with hRow | hMay
    · exact hDone hQuiet hRow
    · refine absurd (hMay.mono ?_) hQuiet
      intro d hd
      unfold SignalDelivery.mayInsert at hd
      unfold SignalDelivery.atWork
      split at hd <;> simp_all
  · intro hQuiet hNot
    have hRow : s.row = false := by
      by_contra hRow
      rw [hDone hQuiet (by simpa using hRow)] at hNot
      cases hNot
    constructor
    · exact hRow
    · intro jti hStands
      rcases h.owed jti hRow hStands with hOwes | hDropped
      · refine absurd (hOwes.mono ?_) hQuiet
        intro d hd
        exact (Bool.and_eq_true_iff.1 hd).2
      · exact hDropped

/-! ## The steps -/

/-- A standing claim stays owed when a delivery that took it goes on. -/
theorem Storing.owed_put {i jti : Nat} {stage stage' : SignalStage} (h : Storing signal s)
    (hAt : s.deliveries[i]? = some ⟨jti, stage⟩) (hOpen : stage ≠ .answered .dropped)
    (hOwes : SignalDelivery.atWork ⟨jti, stage⟩ = true →
      SignalDelivery.atWork ⟨jti, stage'⟩ = true ∨ stage' = .answered .dropped ∨
        LeavesNoToken s i) (k : Nat)
    (hRow : s.row = false) (hStands : s.stands k = true) :
    Has (s.put i jti stage').deliveries (SignalDelivery.owes k) ∨
      Has (s.put i jti stage').deliveries fun d => d.jti == k && d.wasDropped := by
  rcases h.owed k hRow hStands with hHolder | hDropped
  · by_cases hSelf : SignalDelivery.owes k ⟨jti, stage⟩ = true
    · obtain ⟨hJti, hWork⟩ := Bool.and_eq_true_iff.1 hSelf
      have hEq : jti = k := by simpa using hJti
      subst hEq
      rcases hOwes hWork with hWork' | hDropped | hLeft
      · exact .inl (Has.set_self hAt (by simpa [SignalDelivery.owes] using hWork'))
      · exact .inr (Has.set_self hAt (by simp [SignalDelivery.wasDropped, hDropped]))
      · exact .inl (hLeft _ hAt hRow hStands).set
    · exact .inl (hHolder.beside hAt (by simpa using hSelf)).set
  · exact .inr (hDropped.beside hAt (by simp [SignalDelivery.wasDropped, hOpen])).set

/-- A delivery goes on, and nothing is written. -/
theorem Storing.move {i jti : Nat} {stage stage' : SignalStage} (h : Storing signal s)
    (hAt : s.deliveries[i]? = some ⟨jti, stage⟩) (hOpen : stage ≠ .answered .dropped)
    (hRemembering : s.done signal = false → stage ≠ .remembering)
    (hAck : SignalDelivery.isAck ⟨jti, stage'⟩ = true →
      s.row = true ∨ HasBeside s.deliveries SignalDelivery.mayInsert i)
    (hMay : SignalDelivery.mayInsert ⟨jti, stage⟩ = true →
      SignalDelivery.mayInsert ⟨jti, stage'⟩ = true ∨ LosesNoRow s i)
    (hOwes : s.row = false → SignalDelivery.atWork ⟨jti, stage⟩ = true →
      SignalDelivery.atWork ⟨jti, stage'⟩ = true ∨ stage' = .answered .dropped ∨
        LeavesNoToken s i)
    (hInserted : stage' = .conflicted ∨ stage' = .remembering → s.row = true) :
    Storing signal (s.put i jti stage') := by
  constructor
  · intro hRow hDone
    apply ((h.begun hRow hDone).beside hAt _).set
    simpa [SignalDelivery.isRemembering] using hRemembering hDone
  · intro hAcked
    by_cases hRow : s.row = true
    · exact .inl hRow
    · right
      have hRow : s.row = false := by simpa using hRow
      rcases Has.of_set hAcked with hIs | hHas
      · rcases hAck hIs with hTrue | hBeside
        · rw [hRow] at hTrue
          cases hTrue
        · exact hBeside.set
      · have hCarrier : Has s.deliveries SignalDelivery.mayInsert := by
          rcases h.carried hHas with hTrue | hCarrier
          · rw [hRow] at hTrue
            cases hTrue
          · exact hCarrier
        by_cases hSelf : SignalDelivery.mayInsert ⟨jti, stage⟩ = true
        · rcases hMay hSelf with hMay' | hLoses
          · exact Has.set_self hAt hMay'
          · exact (hLoses hRow hHas).set
        · exact (hCarrier.beside hAt (by simpa using hSelf)).set
  · intro k hRow hStands
    exact h.owed_put hAt hOpen (hOwes hRow) k hRow hStands
  · intro j k stage'' hj hStage
    rcases at_set hj with ⟨-, hEq⟩ | hOld
    · cases hEq
      exact hInserted hStage
    · exact h.inserted j k stage'' hOld hStage

/-- Taking a token's claim. -/
theorem Storing.take {i jti : Nat} {expires : R} (h : Storing signal s)
    (hAt : s.deliveries[i]? = some ⟨jti, .received⟩) :
    Storing signal { s.put i jti .looking with
      claims := fun k => if k = jti then some expires else s.claims k } := by
  have hMoved : Storing signal (s.put i jti .looking) := by
    apply h.move hAt <;> simp [SignalDelivery.isAck, SignalDelivery.mayInsert,
      SignalDelivery.atWork]
  refine ⟨hMoved.begun, hMoved.carried, ?_, hMoved.inserted⟩
  intro k hRow hStands
  by_cases hk : k = jti
  · subst hk
    exact .inl (Has.set_self hAt (by simp [SignalDelivery.owes, SignalDelivery.atWork]))
  · apply hMoved.owed k hRow
    have hClaim : (if k = jti then some expires else s.claims k) = s.claims k := if_neg hk
    unfold SignalState.stands at hStands
    dsimp only at hStands
    rw [hClaim] at hStands
    exact hStands

/-- A delivery that found the row ends. -/
theorem Storing.end_stored {i jti : Nat} {stage : SignalStage} (h : Storing signal s)
    (hAt : s.deliveries[i]? = some ⟨jti, stage⟩)
    (hStage : stage = .looking ∨ stage = .conflicted) (hRow : s.row = true) :
    Storing signal (s.put i jti (.answered (.stored false))) := by
  apply h.move hAt
  · rcases hStage with rfl | rfl <;> simp
  · rcases hStage with rfl | rfl <;> simp
  · intro _
    exact .inl hRow
  · intro _
    right
    intro hNone
    rw [hRow] at hNone
    cases hNone
  · intro hNone
    rw [hRow] at hNone
    cases hNone
  · simp

/-- The row is inserted. -/
theorem Storing.store {i jti : Nat}
    (hAt : s.deliveries[i]? = some ⟨jti, .inserting⟩) :
    Storing signal { s.put i jti .remembering with row := true } := by
  constructor
  · intro _ _
    exact Has.set_self hAt (by simp [SignalDelivery.isRemembering])
  · intro _
    exact .inl rfl
  · intro _ hRow
    cases hRow
  · intro _ _ _ _ _
    rfl

/-- What the row says is remembered. -/
theorem Storing.remember {i jti : Nat} (h : Storing signal s)
    (hAt : s.deliveries[i]? = some ⟨jti, .remembering⟩) :
    Storing signal { s.put i jti (.answered (.stored true)) with
      remembered := s.remembered || signal.describes } := by
  have hRow : s.row = true := h.inserted i jti _ hAt (.inr rfl)
  have hDone : SignalState.done signal { s.put i jti (.answered (.stored true)) with
      remembered := s.remembered || signal.describes } = true := by
    show (s.row && (!signal.describes || (s.remembered || signal.describes))) = true
    rw [hRow]
    cases signal.describes <;> simp
  constructor
  · intro _ hNot
    rw [hDone] at hNot
    cases hNot
  · intro _
    exact .inl hRow
  · intro k hNone
    rw [show s.row = false from hNone] at hRow
    cases hRow
  · intro _ _ _ _ _
    exact hRow

/-- A claim is deleted. -/
theorem Storing.delete (h : Storing signal s) (jti : Nat) (answers : Bool) :
    Storing signal { s with
      claims := fun k => if k = jti ∧ answers then none else s.claims k } := by
  refine ⟨h.begun, h.carried, ?_, h.inserted⟩
  intro k hRow hStands
  apply h.owed k hRow
  unfold SignalState.stands at hStands ⊢
  dsimp only at hStands
  split at hStands
  · cases hStands
  · exact hStands

/-- Whoever does not reach redis leaves its claim to another holder. -/
theorem leavesNoToken_of_release {i jti : Nat} {answers : Bool}
    (hAt : s.deliveries[i]? = some ⟨jti, .erred⟩)
    (hLeaves : answers = false → LeavesNoToken s i) :
    LeavesNoToken { s with
      claims := fun k => if k = jti ∧ answers then none else s.claims k } i := by
  intro d hd hRow hStands
  rw [show s.deliveries[i]? = some d from hd] at hAt
  cases hAt
  cases answers with
  | false =>
      apply hLeaves rfl _ hd hRow
      simpa [SignalState.stands] using hStands
  | true => simp [SignalState.stands] at hStands

section

variable [Field R] [FloorRing R]

/-- **Step lemma** -/
theorem storing_step {a : SignalAction R} (h : Storing signal s) (hTrack : KeepsTrack signal s a)
    (hNext : (signalIntake R signal).next s a = some s') : Storing signal s' := by
  change nextSignal signal s a = some s' at hNext
  cases a with
  | wait until_ =>
      simp only [nextSignal] at hNext
      split at hNext
      · next hLe =>
          cases hNext
          refine ⟨h.begun, h.carried, ?_, h.inserted⟩
          intro k hRow hStands
          apply h.owed k hRow
          -- what stands later stood before
          unfold SignalState.stands at hStands ⊢
          obtain ⟨e, hClaim, hLt⟩ := (Option.any_eq_true _ _).1 hStands
          rw [show s.claims k = some e from hClaim, Option.any_some]
          exact decide_eq_true (lt_of_le_of_lt hLe (of_decide_eq_true hLt))
      · cases hNext
  | learn =>
      cases hNext
      exact ⟨h.begun, h.carried, h.owed, h.inserted⟩
  | arrive jti valid =>
      cases hNext
      constructor
      · intro hRow hDone
        exact (h.begun hRow hDone).append
      · intro hAcked
        rcases hAcked.of_append with hIs | hHas
        · cases valid <;> simp [SignalDelivery.isAck, SignalAnswer.isSuccess] at hIs
        · rcases h.carried hHas with hRow | hMay
          · exact .inl hRow
          · exact .inr hMay.append
      · intro k hRow hStands
        rcases h.owed k hRow hStands with hHolder | hDropped
        · exact .inl hHolder.append
        · exact .inr hDropped.append
      · intro i k stage hi hStage
        rcases at_append hi with hEq | hOld
        · cases hEq
          cases valid <;> simp at hStage
        · exact h.inserted i k stage hOld hStage
  | guard i answers =>
      simp only [nextSignal] at hNext
      split at hNext
      · next jti hAt =>
          split at hNext
          · cases hNext
            apply h.move hAt <;> simp [SignalDelivery.isAck, SignalDelivery.mayInsert,
              SignalDelivery.atWork, SignalAnswer.isSuccess]
          · next hAnswers =>
              split at hNext
              · next hStands =>
                  cases hNext
                  have hWord := hTrack jti hAt (by simpa using hAnswers) hStands
                  apply h.move hAt
                  · simp
                  · simp
                  · intro _
                    rcases hWord with hRow | hMay
                    · exact .inl hRow
                    · exact .inr (hMay.beside hAt rfl)
                  · simp [SignalDelivery.mayInsert]
                  · simp [SignalDelivery.atWork]
                  · simp
              · cases hNext
                exact h.take hAt
      · cases hNext
  | look i succeeds =>
      simp only [nextSignal] at hNext
      split at hNext
      · next jti hAt =>
          split at hNext
          · next hFails =>
              cases hNext
              have hLoses : LosesNoRow s i := hTrack (.inl (by simpa using hFails))
              apply h.move hAt <;> simp [SignalDelivery.isAck, SignalDelivery.atWork, hLoses]
          · split at hNext
            · next hUnknown =>
                cases hNext
                have hLoses : LosesNoRow s i := hTrack (.inr (by simpa using hUnknown))
                apply h.move hAt <;> simp [SignalDelivery.isAck, SignalAnswer.isSuccess, hLoses]
            · split at hNext
              · next hRow =>
                  cases hNext
                  exact h.end_stored hAt (.inl rfl) hRow
              · cases hNext
                apply h.move hAt <;> simp [SignalDelivery.isAck, SignalDelivery.atWork,
                  SignalDelivery.mayInsert]
      · cases hNext
  | insert i succeeds =>
      simp only [nextSignal] at hNext
      split at hNext
      · next jti hAt =>
          split at hNext
          · next hFails =>
              cases hNext
              have hLoses : LosesNoRow s i := hTrack (by simpa using hFails)
              apply h.move hAt <;> simp [SignalDelivery.isAck, SignalDelivery.atWork, hLoses]
          · split at hNext
            · next hRow =>
                cases hNext
                have hLoses : LosesNoRow s i := fun hNone => by simp [hRow] at hNone
                apply h.move hAt <;> simp [SignalDelivery.isAck, SignalDelivery.atWork, hRow, hLoses]
            · cases hNext
              exact Storing.store hAt
      · cases hNext
  | existing i succeeds =>
      simp only [nextSignal] at hNext
      split at hNext
      · next jti hAt =>
          have hRow : s.row = true := h.inserted i jti _ hAt (.inl rfl)
          split at hNext
          · cases hNext
            apply h.move hAt <;> simp [SignalDelivery.isAck, SignalDelivery.atWork,
              SignalDelivery.mayInsert]
          · cases hNext
            exact h.end_stored hAt (.inr rfl) hRow
      · cases hNext
  | remember i succeeds =>
      simp only [nextSignal] at hNext
      split at hNext
      · next jti hAt =>
          split at hNext
          · next hFails =>
              obtain ⟨hDescribes, hNot⟩ := Bool.and_eq_true_iff.1 hFails
              rw [hTrack hDescribes] at hNot
              cases hNot
          · cases hNext
            exact h.remember hAt
      · cases hNext
  | release i answers =>
      simp only [nextSignal] at hNext
      split at hNext
      · next jti hAt =>
          cases hNext
          apply (h.delete jti answers).move hAt
          · simp
          · simp
          · simp [SignalDelivery.isAck, SignalAnswer.isSuccess]
          · simp [SignalDelivery.mayInsert]
          · intro _ _
            exact .inr (.inr (leavesNoToken_of_release hAt hTrack))
          · simp
      · cases hNext
  | crash i =>
      obtain ⟨hLoses, hLeaves, hRemembers⟩ := hTrack
      simp only [nextSignal] at hNext
      split at hNext
      · cases hNext
      · cases hNext
      · cases hNext
      · next jti stage hAnswered _ hAt =>
          cases hNext
          apply h.move hAt
          · intro hEq
            subst hEq
            exact hAnswered _ rfl
          · intro hDone hEq
            subst hEq
            exact hRemembers hDone jti hAt
          · simp [SignalDelivery.isAck]
          · intro _
            exact .inr hLoses
          · intro _ _
            exact .inr (.inr hLeaves)
          · simp

/-- **Acknowledged signals are stored** in any run that keeps track of its claims. -/
theorem signal_keeps_word (signal : Signal) (start : R) (known : Bool)
    (hRun : (signalIntake R signal).Run (KeepsTrack signal) { now := start, known } s) :
    KeepsSignal signal s := by
  refine keepsSignal_of_storing (hRun.invariant (I := Storing signal) ?_ ?_)
  · constructor <;> simp [Has, SignalState.stands]
  · intro s a s' h hTrack hNext
    exact storing_step h hTrack hNext

end

/-! ## Both intakes -/

/-- **An acknowledged request took effect**: hook requests and signals, in runs whose
holders see them through. -/
theorem acknowledged_took_effect [Field R] [IsStrictOrderedRing R] [FloorRing R]
    (request : Request) (signal : Signal) (start : R) (known : Bool) :
    (∀ s, (hookIntake R request).Run (SeesThrough request) { now := start } s →
      KeepsWord request s) ∧
    ∀ s, (signalIntake R signal).Run (KeepsTrack signal) { now := start, known } s →
      KeepsSignal signal s := by
  constructor
  · intro s hRun
    exact hook_keeps_word request start hRun
  · intro s hRun
    exact signal_keeps_word signal start known hRun

/-- A report whose route makes two writes, signed at 1000. -/
def report : Request where
  hookMaxSkew := 300
  signed := .v1 1000
  frame := .completed
  writes := 2

/-- A signal that says something of its object. -/
def described : Signal where
  hookMaxSkew := 300
  describes := true

/-- A report routed to its end and delivered again, and a signal stored and remembered:
every success they were answered with is of what is done. -/
theorem retries_are_acknowledged :
    (∃ s : HookState ℚ, s.deliveries = [.answered (.routed true), .answered .duplicate] ∧
      KeepsWord report s) ∧
    ∃ s : SignalState ℚ, s.deliveries = [⟨1, .answered (.stored true)⟩] ∧
      KeepsSignal described s := by
  obtain ⟨hHook, hSignal⟩ := acknowledged_took_effect (R := ℚ) report described 1000 true
  constructor
  · let Reached := (hookIntake ℚ report).Run (SeesThrough report) { now := 1000 }
    let taken (effect : Bool) (deliveries : List (Delivery ℚ)) : HookState ℚ :=
      { now := 1000, claim := some 1600, effect, deliveries }
    have hArrived : Reached { now := 1000, deliveries := [.received 1000] } :=
      .step .refl (a := .arrive) trivial (by decide +kernel)
    have hTaken : Reached (taken false [.routing true 2]) :=
      hArrived.step (a := .guard 0 true) (fun _ hStands => by cases hStands) (by decide +kernel)
    have hBegun : Reached (taken false [.routing true 1]) :=
      hTaken.step (a := .write 0) trivial (by decide +kernel)
    have hWritten : Reached (taken true [.routing true 0]) :=
      hBegun.step (a := .write 0) trivial (by decide +kernel)
    have hRouted : Reached (taken true [.answered (.routed true)]) :=
      hWritten.step (a := .finish 0 .ok) trivial (by decide +kernel)
    have hAgain : Reached (taken true [.answered (.routed true), .received 1000]) :=
      hRouted.step (a := .arrive) trivial (by decide +kernel)
    have hTold : Reached (taken true [.answered (.routed true), .answered .duplicate]) :=
      hAgain.step (a := .guard 1 true) (fun _ _ _ hEffect => by cases hEffect) (by decide +kernel)
    exact ⟨_, rfl, hHook _ hTold⟩
  · let Reached := (signalIntake ℚ described).Run (KeepsTrack described)
      { now := 1000, known := true }
    let taken (row remembered : Bool) (stage : SignalStage) : SignalState ℚ :=
      { now := 1000, row, remembered, deliveries := [⟨1, stage⟩]
        claims := fun k => if k = 1 then some (1000 + (max (i64 (300 * 2)) 1 : Int)) else none }
    have hArrived : Reached { now := 1000, deliveries := [⟨1, .received⟩] } :=
      .step .refl (a := .arrive 1 true) trivial rfl
    have hTaken : Reached (taken false false .looking) :=
      hArrived.step (a := .guard 0 true) (fun _ _ _ hStands => by cases hStands) rfl
    have hLooked : Reached (taken false false .inserting) :=
      hTaken.step (a := .look 0 true) (fun hFails => by rcases hFails with h | h <;> cases h) rfl
    have hInserted : Reached (taken true false .remembering) :=
      hLooked.step (a := .insert 0 true) (fun hFails => by cases hFails) rfl
    have hStored : Reached (taken true true (.answered (.stored true))) :=
      hInserted.step (a := .remember 0 true) (fun _ => rfl) rfl
    exact ⟨_, rfl, hSignal _ hStored⟩

/-- The duplicate of a report is acknowledged while the first is being routed, whose
route then errs; and a signal whose descriptors could not be written is answered as
stored when it is sent again, and they are never remembered. -/
theorem acknowledged_without_effect :
    (∃ s, (hookIntake ℚ report).Run System.anyStep { now := 1000 } s ∧ ¬ KeepsWord report s) ∧
      ∃ s, (signalIntake ℚ described).Run System.anyStep { now := 1000 } s ∧
        ¬ KeepsSignal described s := by
  constructor
  · obtain ⟨s, hRun, hCheck⟩ := System.run_of_play_any (hookIntake ℚ report) System.anyStep
      { now := 1000 }
      [.arrive, .guard 0 true, .write 0, .arrive, .guard 1 true, .finish 0 .error, .release 0 true]
      (fun s => s.deliveries == [.answered .failed, .answered .duplicate] && !s.effect)
      (by decide +kernel)
    refine ⟨s, hRun, ?_⟩
    intro hKeeps
    obtain ⟨hDeliveries, hEffect⟩ := Bool.and_eq_true_iff.1 hCheck
    have hDeliveries := eq_of_beq hDeliveries
    have hTrue : s.effect = true := by
      apply hKeeps.acknowledged
      · rw [hDeliveries]
        rintro ⟨i, d, hAt, hWork⟩
        have hMem := List.mem_of_getElem? hAt
        simp only [List.mem_cons, List.not_mem_nil, or_false] at hMem
        rcases hMem with rfl | rfl <;> cases hWork
      · rw [hDeliveries]
        exact ⟨1, _, rfl, rfl⟩
    rw [hTrue] at hEffect
    cases hEffect
  · obtain ⟨s, hRun, hCheck⟩ := System.run_of_play_any (signalIntake ℚ described) System.anyStep
      { now := 1000 }
      [.arrive 1 true, .guard 0 true, .look 0 true, .insert 0 true, .remember 0 false,
        .release 0 true, .arrive 1 true, .guard 1 true, .look 1 true]
      (fun s => s.deliveries == [⟨1, .answered .failed⟩, ⟨1, .answered (.stored false)⟩] &&
        !s.remembered)
      (by decide +kernel)
    refine ⟨s, hRun, ?_⟩
    intro hKeeps
    obtain ⟨hDeliveries, hRemembered⟩ := Bool.and_eq_true_iff.1 hCheck
    have hDeliveries := eq_of_beq hDeliveries
    have hDone : s.done described = true := by
      apply hKeeps.acknowledged
      · rw [hDeliveries]
        rintro ⟨i, d, hAt, hWork⟩
        have hMem := List.mem_of_getElem? hAt
        simp only [List.mem_cons, List.not_mem_nil, or_false] at hMem
        rcases hMem with rfl | rfl <;> cases hWork
      · rw [hDeliveries]
        exact ⟨1, _, rfl, rfl⟩
    simp [SignalState.done, described] at hDone hRemembered
    rw [hDone.2] at hRemembered
    cases hRemembered

end Rekuest.Intake
