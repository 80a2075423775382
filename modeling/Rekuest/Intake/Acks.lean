import Rekuest.Intake.Hooks

/-!
# What an acknowledgement promises

A success answer is kept when the effect is there once nobody is at work on the
request any more.  The claim stands in for the effect before there is one: whoever
finds it standing is told of a success that the holder can still lose.
-/

namespace Rekuest.Intake

open Concurrent

variable {R : Type} [LinearOrder R]
variable {request : Request} {s s' : HookState R}

/-! ## The law -/

/-- Whether a delivery is being routed. -/
def Delivery.isRouting : Delivery R → Bool
  | .routing _ _ => true
  | _ => false

/-- Whether a delivery is between the guard and its answer. -/
def Delivery.atWork : Delivery R → Bool
  | .routing _ _ | .erred _ => true
  | _ => false

/-- Whether a delivery at work took the claim. -/
def Delivery.owes : Delivery R → Bool
  | .routing claimed _ | .erred claimed => claimed
  | _ => false

/-- Whether a delivery was answered with a success. -/
def Delivery.isAck : Delivery R → Bool
  | .answered answer => answer.isSuccess
  | _ => false

/-- Whether the request was refused: that is its outcome, told in the reply. -/
def Delivery.isRefused : Delivery R → Bool
  | .answered (.refusal _) => true
  | _ => false

/-- With nobody at work, whoever was answered with a success was told the truth, and
a request that failed, without having been refused, finds no claim when it is sent
again, unless it is routed anyway. -/
structure KeepsWord (request : Request) (s : HookState R) : Prop where
  acknowledged : ¬ Has s.deliveries Delivery.atWork → Has s.deliveries Delivery.isAck → s.effect = true
  retriable : ¬ Has s.deliveries Delivery.atWork → s.effect = false → ¬ Has s.deliveries Delivery.isRefused →
    replyForDuplicate request.frame ≠ none → s.stands = false

/-! ## The condition -/

/-- The holder of a standing claim may leave it behind only for another holder. -/
def LeavesNoClaim (request : Request) (s : HookState R) (i : Nat) : Prop :=
  s.effect = false → s.stands = true → replyForDuplicate request.frame ≠ none →
    HasBeside s.deliveries Delivery.owes i

/-- Once a success was answered, a route may be lost only for another. -/
def LosesNoAck (s : HookState R) (i : Nat) : Prop :=
  s.effect = false → Has s.deliveries Delivery.isAck → HasBeside s.deliveries Delivery.isRouting i

/-- When a step keeps the word: a duplicate is acknowledged only of an effect that is
there or a delivery being routed; after that the route does not fail; and no holder
crashes, or does not reach redis, while its claim stands without the effect. -/
def SeesThrough (request : Request) (s : HookState R) : Action R → Prop
  | .guard _ answers => answers = true → s.stands = true →
      replyForDuplicate request.frame = some .duplicate → s.effect = false →
        Has s.deliveries Delivery.isRouting
  | .finish _ .ok => True
  | .finish i _ => LosesNoAck s i
  | .release i answers => answers = false → LeavesNoClaim request s i
  | .crash i => LosesNoAck s i ∧ LeavesNoClaim request s i
  | _ => True

/-! ## The invariant -/

structure Owing (request : Request) (s : HookState R) : Prop where
  /-- A route that made its writes took effect. -/
  done : ∀ (i : Nat) (claimed : Bool), s.deliveries[i]? = some (.routing claimed 0) →
    s.effect = true
  /-- Before the effect a success is owed by a delivery being routed. -/
  carried : s.effect = false → Has s.deliveries Delivery.isAck → Has s.deliveries Delivery.isRouting
  /-- Before the effect a standing claim is owed by who took it. -/
  owed : replyForDuplicate request.frame ≠ none → s.effect = false → s.stands = true →
    Has s.deliveries Delivery.owes ∨ Has s.deliveries Delivery.isRefused

theorem keepsWord_of_owing (h : Owing request s) : KeepsWord request s := by
  constructor
  · intro hQuiet hAck
    by_contra hEffect
    apply hQuiet
    apply (h.carried (by simpa using hEffect) hAck).mono
    intro d hd
    cases d <;> first | rfl | cases hd
  · intro hQuiet hEffect hRefused hGuarded
    by_contra hStands
    rcases h.owed hGuarded hEffect (by simpa using hStands) with hOwes | hWas
    · apply hQuiet
      apply hOwes.mono
      intro d hd
      cases d <;> first | rfl | cases hd
    · exact hRefused hWas

/-! ## The steps -/

/-- A step of one delivery. -/
theorem Owing.put {i : Nat} {d d' : Delivery R} {effect : Bool} (h : Owing request s)
    (hAt : s.deliveries[i]? = some d) (hEffect : s.effect = true → effect = true)
    (hDone : ∀ claimed, d' = .routing claimed 0 → effect = true)
    (hCarried : effect = false → d'.isAck = true ∨ Has s.deliveries Delivery.isAck →
      d'.isRouting = true ∨ HasBeside s.deliveries Delivery.isRouting i)
    (hRefused : d.isRefused = false)
    (hOwed : replyForDuplicate request.frame ≠ none → effect = false → s.stands = true →
      d.owes = true → d'.owes = true ∨ d'.isRefused = true ∨ HasBeside s.deliveries Delivery.owes i) :
    Owing request { s.put i d' with effect := effect } := by
  have hBefore : effect = false → s.effect = false := by
    intro hFalse
    by_contra hTrue
    rw [hEffect (by simpa using hTrue)] at hFalse
    cases hFalse
  constructor
  · intro j claimed hj
    rcases at_set hj with ⟨-, hEq⟩ | hOld
    · exact hDone claimed hEq.symm
    · exact hEffect (h.done j claimed hOld)
  · intro hFalse hAck
    rcases hCarried hFalse (Has.of_set hAck) with hRouting | hBeside
    · exact Has.set_self hAt hRouting
    · exact hBeside.set
  · intro hGuarded hFalse hStands
    rcases h.owed hGuarded (hBefore hFalse) hStands with hOwes | hWas
    · by_cases hd : d.owes = true
      · rcases hOwed hGuarded hFalse hStands hd with hOwes' | hRefused' | hBeside
        · exact .inl (Has.set_self hAt hOwes')
        · exact .inr (Has.set_self hAt hRefused')
        · exact .inl hBeside.set
      · exact .inl (hOwes.beside hAt (by simpa using hd)).set
    · exact .inr (hWas.beside hAt hRefused).set

/-- A delivery that comes in answered with no success, or is to be guarded. -/
theorem Owing.arrive {d : Delivery R} (h : Owing request s) (hAck : d.isAck = false)
    (hRouting : d.isRouting = false) :
    Owing request { s with deliveries := s.deliveries ++ [d] } := by
  constructor
  · intro j claimed hj
    rcases at_append hj with rfl | hOld
    · cases hRouting
    · exact h.done j claimed hOld
  · intro hEffect hAcked
    rcases hAcked.of_append with hIs | hHas
    · rw [hAck] at hIs
      cases hIs
    · exact (h.carried hEffect hHas).append
  · intro hGuarded hEffect hStands
    rcases h.owed hGuarded hEffect hStands with hOwes | hWas
    · exact .inl hOwes.append
    · exact .inr hWas.append

/-- Without a claim none is owed. -/
theorem Owing.delete (h : Owing request s) : Owing request { s with claim := none } := by
  refine ⟨h.done, h.carried, ?_⟩
  intro _ _ hStands
  cases hStands

/-- A route goes on. -/
theorem Owing.routeOn {i : Nat} {d : Delivery R} {claimed : Bool} {left : Nat}
    (h : Owing request s) (hAt : s.deliveries[i]? = some d) (hRefused : d.isRefused = false)
    (hOwes : d.owes = true → claimed = true) : Owing request (routeOn s i claimed left) := by
  apply h.put hAt
  · intro hEffect
    rw [hEffect, Bool.true_or]
  · intro claimed' hEq
    cases hEq
    simp
  · intro _ _
    exact .inl rfl
  · exact hRefused
  · intro _ _ _ hd
    exact .inl (hOwes hd)

/-- A delivery ends without its route's effect. -/
theorem Owing.close {i : Nat} {d d' : Delivery R} (h : Owing request s)
    (hAt : s.deliveries[i]? = some d) (hRefused : d.isRefused = false)
    (hAck : d'.isAck = false) (hRouting : d'.isRouting = false)
    (hLoses : d.isRouting = true → LosesNoAck s i)
    (hLeaves : d.owes = true → d'.owes = true ∨ d'.isRefused = true ∨
      LeavesNoClaim request s i) : Owing request (s.put i d') := by
  apply h.put hAt id
  · intro claimed hEq
    rw [hEq] at hRouting
    cases hRouting
  · intro hEffect hSome
    right
    have hAcked : Has s.deliveries Delivery.isAck := by
      rcases hSome with hIs | hHas
      · rw [hAck] at hIs
        cases hIs
      · exact hHas
    by_cases hd : d.isRouting = true
    · exact hLoses hd hEffect hAcked
    · exact (h.carried hEffect hAcked).beside hAt (by simpa using hd)
  · exact hRefused
  · intro hGuarded hEffect hStands hd
    rcases hLeaves hd with hOwes | hWas | hLeft
    · exact .inl hOwes
    · exact .inr (.inl hWas)
    · exact .inr (.inr (hLeft hEffect hStands hGuarded))

/-- Taking the claim. -/
theorem Owing.take {i : Nat} {at_ : R} {claim : Option R} (h : Owing request s)
    (hAt : s.deliveries[i]? = some (.received at_)) :
    Owing request { Intake.routeOn s i true request.writes with claim := claim } := by
  have hOn : Owing request (Intake.routeOn s i true request.writes) :=
    h.routeOn hAt rfl fun hOwes => by cases hOwes
  refine ⟨hOn.done, hOn.carried, ?_⟩
  intro _ _ _
  exact .inl (Has.set_self hAt rfl)

section

variable [Field R] [FloorRing R]

theorem Owing.guard {i : Nat} {at_ : R} {answers : Bool} (h : Owing request s)
    (hAt : s.deliveries[i]? = some (.received at_))
    (hSees : SeesThrough request s (.guard i answers)) :
    Owing request (guardStep request s i answers) := by
  unfold guardStep
  by_cases hAnswers : answers = true
  · rw [if_neg (by simp [hAnswers])]
    by_cases hStands : s.stands = true
    · rw [if_pos hStands]
      split
      · next answer hReply =>
          apply h.put hAt id
          · intro claimed hEq
            cases hEq
          · intro hEffect hSome
            right
            -- the duplicate's word is the route's, as any earlier one
            have hRouting : Has s.deliveries Delivery.isRouting := by
              rcases hSome with hAck | hAcked
              · have hDuplicate : answer = .duplicate := by
                  rcases duplicate_or_replayed hReply with hEq | hEq
                  · exact hEq
                  · rw [hEq] at hAck
                    cases hAck
                rw [hDuplicate] at hReply
                exact hSees hAnswers hStands hReply hEffect
              · exact h.carried hEffect hAcked
            exact hRouting.beside hAt rfl
          · rfl
          · intro _ _ _ hOwes
            cases hOwes
      · exact h.routeOn hAt rfl fun hOwes => by cases hOwes
    · rw [if_neg hStands]
      exact h.take hAt
  · rw [if_pos (by simpa using hAnswers)]
    exact h.close hAt rfl rfl rfl (fun hRouting => by cases hRouting) fun hOwes => by cases hOwes

variable [IsStrictOrderedRing R]

/-- **Step lemma** -/
theorem owing_step {a : Action R} (h : Owing request s) (hSees : SeesThrough request s a)
    (hNext : (hookIntake R request).next s a = some s') : Owing request s' := by
  change next request s a = some s' at hNext
  cases a with
  | wait until_ =>
      simp only [next] at hNext
      split at hNext
      · next hLe =>
          cases hNext
          refine ⟨h.done, h.carried, ?_⟩
          intro hGuarded hEffect hStands
          apply h.owed hGuarded hEffect
          -- what stands later stood before
          unfold HookState.stands at hStands ⊢
          obtain ⟨e, hClaim, hLt⟩ := (Option.any_eq_true _ _).1 hStands
          rw [show s.claim = some e from hClaim, Option.any_some]
          exact decide_eq_true (lt_of_le_of_lt hLe (of_decide_eq_true hLt))
      · cases hNext
  | arrive =>
      cases hNext
      apply h.arrive
      · split
        · rfl
        · split
          · rfl
          · rfl
      · split
        · rfl
        · split
          · rfl
          · rfl
  | guard i answers =>
      simp only [next] at hNext
      split at hNext
      · next at_ hAt =>
          cases hNext
          exact h.guard hAt hSees
      · cases hNext
  | write i =>
      simp only [next] at hNext
      split at hNext
      · next claimed left hAt =>
          cases hNext
          exact h.routeOn hAt rfl id
      · cases hNext
  | finish i how =>
      simp only [next] at hNext
      split at hNext
      · next claimed left hAt =>
          cases how with
          | ok =>
              dsimp only at hNext
              split at hNext
              · next hLeft =>
                  cases hNext
                  subst hLeft
                  have hEffect := h.done i claimed hAt
                  apply h.put hAt id
                  · intro claimed' hEq
                    cases hEq
                  · intro hFalse
                    rw [hEffect] at hFalse
                    cases hFalse
                  · rfl
                  · intro _ hFalse
                    rw [hEffect] at hFalse
                    cases hFalse
              · cases hNext
          | refusal =>
              dsimp only at hNext
              split at hNext
              · cases hNext
                exact h.close hAt rfl rfl rfl (fun _ => hSees) fun _ => .inr (.inl rfl)
              · cases hNext
          | error =>
              cases hNext
              exact h.close hAt rfl rfl rfl (fun _ => hSees) fun hOwes => .inl hOwes
      · cases hNext
  | release i answers =>
      simp only [next] at hNext
      split at hNext
      · next claimed hAt =>
          cases hNext
          cases answers with
          | true =>
              exact h.delete.close hAt rfl rfl rfl (fun hRouting => by cases hRouting)
                fun _ => .inr (.inr fun _ hStands => by cases hStands)
          | false =>
              exact h.close hAt rfl rfl rfl (fun hRouting => by cases hRouting)
                fun _ => .inr (.inr (hSees rfl))
      · cases hNext
  | crash i =>
      obtain ⟨hLoses, hLeaves⟩ := hSees
      simp only [next] at hNext
      split at hNext
      · next hAt =>
          cases hNext
          exact h.close hAt rfl rfl rfl (fun _ => hLoses) fun _ => .inr (.inr hLeaves)
      · next claimed left hAt =>
          cases hNext
          exact h.close hAt rfl rfl rfl (fun _ => hLoses) fun _ => .inr (.inr hLeaves)
      · next claimed hAt =>
          cases hNext
          exact h.close hAt rfl rfl rfl (fun _ => hLoses) fun _ => .inr (.inr hLeaves)
      · cases hNext

/-- **Acknowledged hook requests took effect** in any run whose holders see their
requests through. -/
theorem hook_keeps_word (request : Request) (start : R)
    (hRun : (hookIntake R request).Run (SeesThrough request) { now := start } s) :
    KeepsWord request s := by
  refine keepsWord_of_owing (hRun.invariant (I := Owing request) ?_ ?_)
  · constructor <;> simp [Has, HookState.stands]
  · intro s a s' h hSees hNext
    exact owing_step h hSees hNext

end

end Rekuest.Intake
