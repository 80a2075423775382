import Mathlib.Algebra.Order.Floor.Ring
import Rekuest.Concurrent.Parties
import Rekuest.Concurrent.System

/-!
# The windows of a signed request

`verify_v1`, `check_request_claims` and the lifetimes of the replay claims.  The
checks read whole seconds in `i64`, without overflow checks; a redis key expires in
real time.
-/

namespace Rekuest.Intake

/-- An `i64`, wrapped. -/
def i64 (x : Int) : Int := (x + 2 ^ 63) % 2 ^ 64 - 2 ^ 63

/-- `i64::abs`: the least `i64` is its own. -/
def absI64 (x : Int) : Int := i64 (if x < 0 then -x else x)

/-- `LIFETIME_SECONDS` -/
def lifetimeSeconds : Int := 60

/-- `MAX_SKEW_SECONDS` -/
def maxSkewSeconds : Int := 30

/-- The clock of `verify_v1`: not outside `max_skew`, either way. -/
def verifyV1 (maxSkew timestamp now : Int) : Bool :=
  !(absI64 (i64 (now - timestamp)) > maxSkew)

/-- The clock of `check_request_claims`. -/
def checkRequestClaims (iat exp now : Int) : Bool :=
  !(exp < i64 (now - maxSkewSeconds) || iat > i64 (now + maxSkewSeconds) ||
    i64 (exp - iat) > lifetimeSeconds + maxSkewSeconds)

/-- How a request is signed, and which claim guards it. -/
inductive Signed
  /-- A V1 signature, at `hook_intake`. -/
  | v1 (timestamp : Int)
  /-- A service token, at `hook_intake` or `signal_intake`. -/
  | token (iat exp : Int)
  /-- A service token, guarded by `service_trust::claim`. -/
  | service (iat exp : Int)

/-- The seconds `Utc::now` can read: within some 262,000 years of now. -/
def readable (second : Int) : Bool := -2 ^ 43 < second && second < 2 ^ 43

/-- Whether the clock lets a request through. -/
def Signed.inTime (maxSkew : Int) : Signed → Int → Bool
  | .v1 timestamp, now => verifyV1 maxSkew timestamp now
  | .token iat exp, now => checkRequestClaims iat exp now
  | .service iat exp, now => checkRequestClaims iat exp now

/-- Whether a request authenticates in a second. -/
def Signed.authenticates (maxSkew : Int) (signed : Signed) (now : Int) : Bool :=
  readable now && signed.inTime maxSkew now

/-- How long a claim taken in a second stands: `claim_request`, `service_trust::claim`. -/
def Signed.ttl (maxSkew : Int) : Signed → Int → Int
  | .v1 _, _ => max (i64 (maxSkew * 2)) 1
  | .token _ _, _ => max (i64 (maxSkew * 2)) 1
  | .service _ exp, now => max (i64 (i64 (exp + maxSkewSeconds) - now)) 1

/-! ## The last second -/

theorem i64_of_range {x : Int} (h : -2 ^ 63 ≤ x ∧ x < 2 ^ 63) : i64 x = x := by
  unfold i64
  omega

theorem absI64_of_range {x : Int} (h : -2 ^ 63 < x ∧ x < 2 ^ 63) : absI64 x = |x| := by
  unfold absI64
  rw [i64_of_range (by split <;> omega)]
  by_cases hNeg : x < 0
  · rw [if_pos hNeg, abs_of_neg hNeg]
  · rw [if_neg hNeg, abs_of_nonneg (by omega)]

/-- A V1 signature passes around its timestamp. -/
theorem verifyV1_iff {maxSkew timestamp now : Int}
    (hRange : -2 ^ 63 < now - timestamp ∧ now - timestamp < 2 ^ 63) :
    verifyV1 maxSkew timestamp now = true ↔
      timestamp - maxSkew ≤ now ∧ now ≤ timestamp + maxSkew := by
  unfold verifyV1
  rw [i64_of_range (by omega), absI64_of_range hRange, Bool.not_eq_true', decide_eq_false_iff_not,
    not_lt, abs_le]
  constructor
  · intro h
    omega
  · intro h
    omega

/-- A V1 signature authenticates in no second after its timestamp's and the skew, and in
that one. -/
theorem authenticates_v1 {maxSkew timestamp : Int} (hSkew : 0 ≤ maxSkew)
    (hTimestamp : -2 ^ 62 < timestamp ∧ timestamp < 2 ^ 62)
    (hLast : readable (timestamp + maxSkew) = true) :
    (Signed.v1 timestamp).authenticates maxSkew (timestamp + maxSkew) = true ∧
      ∀ second, (Signed.v1 timestamp).authenticates maxSkew second = true →
        second ≤ timestamp + maxSkew := by
  have hRead : ∀ second, readable second = true → -2 ^ 43 < second ∧ second < 2 ^ 43 := by
    intro second hSecond
    simpa [readable] using hSecond
  constructor
  · have hRange := hRead _ hLast
    rw [Signed.authenticates, hLast, Bool.true_and, Signed.inTime, verifyV1_iff (by omega)]
    omega
  · intro second hSecond
    rw [Signed.authenticates, Bool.and_eq_true] at hSecond
    obtain ⟨hReadable, hInTime⟩ := hSecond
    have hRange := hRead _ hReadable
    rw [Signed.inTime, verifyV1_iff (by omega)] at hInTime
    exact hInTime.2

end Rekuest.Intake

/-!
## The intake of signed hook requests

Every delivery of one signed request, on any replica: it authenticates, takes the
replay claim or finds it standing, and is routed.  The claim is a redis key that
expires; a delivery whose route erred deletes it.  A crash ends a delivery anywhere.
-/

namespace Rekuest.Intake

/-- What an agent sends (`FromAgent`). -/
inductive FromAgent
  | register | heartbeatAnswer
  | assignRequest | shelve | unshelve
  | cancelRequest | interruptRequest | pauseRequest | resumeRequest
  | stateRevisionRequest | probeRequest
  | started | log | progress | yielded | completed | failed | critical | cancelled | interrupted
  | paused | held | inform | resumed | effect
  | statePatch | stateSnapshot | sessionInit | lock | unlock
  deriving DecidableEq

/-- The answer a delivery gets. -/
inductive Answer
  /-- 401 -/
  | invalidSignature
  /-- 400, before the guard: a frame that needs a session. -/
  | unhandled
  /-- 503: redis did not answer. -/
  | unavailable
  /-- 200: the claim was found standing. -/
  | duplicate
  /-- 409: a control request that was replayed. -/
  | replayed
  /-- 200: routed, having taken the claim or not. -/
  | routed (claimed : Bool)
  /-- 200 with an error in the reply: a request that was refused or failed. -/
  | refusal (claimed : Bool)
  /-- 400: the route erred. -/
  | failed
  deriving DecidableEq

/-- Whether the sender is told that the request took effect. -/
def Answer.isSuccess : Answer → Bool
  | .duplicate => true
  | .routed _ => true
  | _ => false

/-- `reply_for_duplicate`: how a request the guard has seen is answered, or that it
is routed anyway. -/
def replyForDuplicate : FromAgent → Option Answer
  | .assignRequest | .shelve | .unshelve => none
  | .cancelRequest | .interruptRequest | .pauseRequest | .resumeRequest => some .replayed
  | _ => some .duplicate

theorem duplicate_or_replayed {frame : FromAgent} {answer : Answer}
    (h : replyForDuplicate frame = some answer) : answer = .duplicate ∨ answer = .replayed := by
  cases frame <;> cases h
  all_goals first
    | exact .inl rfl
    | exact .inr rfl

/-- The requests, whose refusal is the reply's error. -/
def FromAgent.isRequest : FromAgent → Bool
  | .assignRequest | .cancelRequest | .interruptRequest | .pauseRequest | .resumeRequest
  | .stateRevisionRequest | .probeRequest => true
  | _ => false

/-- A signed request: the setting it meets, its signature, its frame, and how many
writes its route makes. -/
structure Request where
  hookMaxSkew : Int
  signed : Signed
  frame : FromAgent
  writes : Nat

/-- Where a delivery stands. -/
inductive Delivery (R : Type)
  /-- Authenticated at an instant. -/
  | received (at_ : R)
  /-- Being routed: whether it took the claim, and the writes it has left. -/
  | routing (claimed : Bool) (left : Nat)
  /-- Its route erred, and the claim is to be released. -/
  | erred (claimed : Bool)
  | answered (answer : Answer)
  /-- The replica crashed: whether the delivery was being routed, and had the claim. -/
  | crashed (routed claimed : Bool)
  deriving DecidableEq

structure HookState (R : Type) where
  now : R
  /-- Until when the claim stands. -/
  claim : Option R := none
  /-- Whether a route made all its writes. -/
  effect : Bool := false
  deliveries : List (Delivery R) := []
  deriving DecidableEq

def HookState.put {R : Type} (s : HookState R) (i : Nat) (d : Delivery R) : HookState R :=
  { s with deliveries := s.deliveries.set i d }

/-- How a route ends. -/
inductive RouteEnd
  | ok
  /-- A request's error is its reply. -/
  | refusal
  | error

inductive Action (R : Type)
  | wait (until_ : R)
  /-- A delivery comes in and authenticates, or does not. -/
  | arrive
  /-- `claim_request`; redis answers or not. -/
  | guard (i : Nat) (answers : Bool)
  /-- The next write of a route. -/
  | write (i : Nat)
  | finish (i : Nat) (how : RouteEnd)
  /-- `release_request` -/
  | release (i : Nat) (answers : Bool)
  | crash (i : Nat)

section

variable {R : Type} [Field R] [LinearOrder R] [IsStrictOrderedRing R] [FloorRing R]

/-- Whether the claim stands now. -/
def HookState.stands (s : HookState R) : Bool := s.claim.any fun expires => decide (s.now < expires)
/-- A delivery with so many writes of its route left; with none left it took effect. -/
def routeOn (s : HookState R) (i : Nat) (claimed : Bool) (left : Nat) : HookState R :=
  { s.put i (.routing claimed left) with effect := s.effect || left == 0 }

/-- What the guard makes of a delivery. -/
def guardStep (request : Request) (s : HookState R) (i : Nat) (answers : Bool) : HookState R :=
  if !answers then s.put i (.answered .unavailable)
  else if s.stands then
    match replyForDuplicate request.frame with
    | some answer => s.put i (.answered answer)
    | none => routeOn s i false request.writes
  else
    let ttl := request.signed.ttl request.hookMaxSkew ⌊s.now⌋
    { routeOn s i true request.writes with claim := some (s.now + ttl) }

def next (request : Request) (s : HookState R) : Action R → Option (HookState R)
  | .wait until_ => if s.now ≤ until_ then some { s with now := until_ } else none
  | .arrive =>
      let d : Delivery R :=
        if !request.signed.authenticates request.hookMaxSkew ⌊s.now⌋ then
          .answered .invalidSignature
        else if request.frame = .register ∨ request.frame = .heartbeatAnswer then
          .answered .unhandled
        else .received s.now
      some { s with deliveries := s.deliveries ++ [d] }
  | .guard i answers =>
      match s.deliveries[i]? with
      | some (.received _) => some (guardStep request s i answers)
      | _ => none
  | .write i =>
      match s.deliveries[i]? with
      | some (.routing claimed (left + 1)) => some (routeOn s i claimed left)
      | _ => none
  | .finish i how =>
      match s.deliveries[i]? with
      | some (.routing claimed left) =>
          match how with
          | .ok => if left = 0 then some (s.put i (.answered (.routed claimed))) else none
          | .refusal =>
              if request.frame.isRequest then some (s.put i (.answered (.refusal claimed)))
              else none
          | .error => some (s.put i (.erred claimed))
      | _ => none
  | .release i answers =>
      match s.deliveries[i]? with
      | some (.erred _) =>
          -- whoever took the claim, it is deleted
          some { s.put i (.answered .failed) with claim := if answers then none else s.claim }
      | _ => none
  | .crash i =>
      match s.deliveries[i]? with
      | some (.received _) => some (s.put i (.crashed false false))
      | some (.routing claimed _) => some (s.put i (.crashed true claimed))
      | some (.erred claimed) => some (s.put i (.crashed false claimed))
      | _ => none

end

/-- The deliveries of a request. -/
def hookIntake (R : Type) [Field R] [LinearOrder R] [IsStrictOrderedRing R] [FloorRing R]
    (request : Request) : Concurrent.System (HookState R) (Action R) where
  next := next request

end Rekuest.Intake
