import Mathlib.Algebra.Ring.Int.Defs
import Mathlib.Order.Bounds.Basic
import Mathlib.Order.Monotone.Basic
import Mathlib.Data.Int.Order.Basic
import Mathlib.Order.Lattice

/-!
# The slots of a timing

An instant is a whole number of nanoseconds since 1970 that chrono can hold.  The slots of
an interval lie on the grid that starts at the schedule's creation; those of a cron line
are croner's.  What the code computes in `i64` and `i32` is computed so here: a duration
that is too long and an instant out of range end the call.
-/

namespace Rekuest.Schedules

/-- `DateTime::<Utc>::MIN_UTC` -/
def min_utc : Int := -8334601228800 * 10 ^ 9

/-- `DateTime::<Utc>::MAX_UTC` -/
def max_utc : Int := 8210266876799 * 10 ^ 9 + 999999999

@[ext]
structure DateTime where
  nanos : Int
  range : min_utc ≤ nanos ∧ nanos ≤ max_utc
  deriving DecidableEq

instance : LinearOrder DateTime :=
  @LinearOrder.lift' DateTime Int Int.instLinearOrder DateTime.nanos fun _ _ h => DateTime.ext h

/-- How a call fails: with a message for its caller, or altogether. -/
inductive Failure
  | refused (message : String)
  | panicked
  deriving DecidableEq, Repr

/-- A schedule's timing: an interval or a cron line, and the zone the line is read in. -/
structure Timing where
  interval_seconds : Option Int := none
  cron : Option String := none
  timezone : String := "UTC"

/-- What reads cron lines and zones: `parse`, `zone`, `cron_slot`, and `{:?}` of a text. -/
structure Croner where
  parses : String → Bool
  zone : String → Bool
  cron_slot : String → String → DateTime → Except String DateTime
  debug : String → String

def i32_max : Int := 2 ^ 31 - 1

def i64_max : Int := 2 ^ 63 - 1

/-- `DateTime + TimeDelta`. -/
def date (nanos : Int) : Except Failure DateTime :=
  if h : min_utc ≤ nanos ∧ nanos ≤ max_utc then .ok ⟨nanos, h⟩ else .error .panicked

/-- `Duration::seconds`: no more milliseconds than an `i64` holds. -/
def duration (seconds : Int) : Except Failure Int :=
  if seconds ≤ i64_max / 1000 then .ok seconds else .error .panicked

/-- `num_microseconds().unwrap_or(i64::MAX)`, of a length that is not negative. -/
def microseconds (nanos : Int) : Int :=
  if nanos / 1000 ≤ i64_max then nanos / 1000 else i64_max

/-- `TimeDelta * i32`, of whole seconds. -/
def times (seconds n : Int) : Except Failure Int :=
  if -2 ^ 63 < seconds * n ∧ seconds * n < i64_max then .ok (seconds * n) else .error .panicked

section NextSlot

variable (croner : Croner)

-- Whether the build checks its integers for overflow; it wraps them where it does not.
variable (overflow_checks : Bool)

/-- `n + 1` in `i32`. -/
def succ_i32 (n : Int) : Except Failure Int :=
  if n < i32_max then .ok (n + 1)
  else if overflow_checks then .error .panicked
  else .ok (-2 ^ 31)

def parse (line : String) : Except Failure Unit :=
  if croner.parses line then .ok ()
  else .error (.refused ("Not a valid cron line: " ++ croner.debug line))

def zone (name : String) : Except Failure Unit :=
  if croner.zone name then .ok ()
  else .error (.refused ("Unknown timezone: " ++ croner.debug name))

namespace Timing

def validate (timing : Timing) : Except Failure Unit := do
  if timing.interval_seconds.isNone = timing.cron.isNone then
    .error (.refused "A schedule needs exactly one of interval_seconds or cron")
  else if timing.interval_seconds.any (· < 1) then
    .error (.refused "interval_seconds must be at least 1")
  else
    match timing.cron with
    | some line => do
        parse croner line
        zone croner timing.timezone
    | none => zone croner timing.timezone

/-- The first slot after an instant. -/
def next_slot (timing : Timing) (created_at after : DateTime) : Except Failure DateTime :=
  match timing.cron with
  | some line => do
      parse croner line
      zone croner timing.timezone
      match croner.cron_slot line timing.timezone after with
      | .ok slot => .ok slot
      | .error e =>
          .error (.refused ("The cron line " ++ croner.debug line ++ " has no next slot: " ++ e))
  | none =>
      match timing.interval_seconds.filter (1 ≤ ·) with
      | none => .error (.refused "A schedule needs exactly one of interval_seconds or cron")
      | some seconds =>
          if after < created_at then .ok created_at
          else do
            let interval ← duration seconds
            let elapsed := microseconds (after.1 - created_at.1) / microseconds (interval * 10 ^ 9)
            let n ← succ_i32 overflow_checks (if elapsed ≤ i32_max then elapsed else i32_max - 1)
            let offset ← times interval n
            date (created_at.1 + offset * 10 ^ 9)

end Timing

/-! ## The grid of an interval -/

/-- The instants an interval's slots lie on, in nanoseconds. -/
def Grid (created_at seconds : Int) : Set Int :=
  { t | ∃ k : Int, 0 ≤ k ∧ t = created_at + k * (seconds * 10 ^ 9) }

/-- The least instant of the grid after another one. -/
def IsNextSlot (created_at seconds after slot : Int) : Prop :=
  IsLeast { t | t ∈ Grid created_at seconds ∧ after < t } slot

/-- The whole intervals that passed since the creation. -/
def passed (created_at seconds after : Int) : Int := (after - created_at) / (seconds * 10 ^ 9)

/-- What keeps the arithmetic in its bounds: the instant is before the creation; or chrono holds a
duration as long as the interval, fewer than `i32::MAX` intervals passed, their number is the same when
both lengths are cut at `i64::MAX` microseconds, and chrono holds the slot that follows them. -/
def InBounds (created_at seconds after : Int) : Prop :=
  after < created_at ∨
    (seconds ≤ i64_max / 1000 ∧ passed created_at seconds after < i32_max ∧
      microseconds (after - created_at) / microseconds (seconds * 10 ^ 9) =
        passed created_at seconds after ∧
      created_at + (passed created_at seconds after + 1) * (seconds * 10 ^ 9) ≤ max_utc)

theorem isNextSlot_created {created_at seconds after : Int} (hSeconds : 1 ≤ seconds)
    (hBefore : after < created_at) : IsNextSlot created_at seconds after created_at := by
  constructor
  · exact ⟨⟨0, le_refl 0, by omega⟩, hBefore⟩
  · intro t hMem
    obtain ⟨⟨k, hk, rfl⟩, -⟩ := hMem
    have hOffset : 0 ≤ k * (seconds * 10 ^ 9) := Int.mul_nonneg hk (by omega)
    omega

/-- After the creation, an instant of the grid is the next one when it follows the intervals that passed. -/
theorem isNextSlot_iff {created_at seconds after n : Int} (hSeconds : 1 ≤ seconds)
    (hAfter : created_at ≤ after) :
    IsNextSlot created_at seconds after (created_at + n * (seconds * 10 ^ 9)) ↔
      n = passed created_at seconds after + 1 := by
  have hPos : 0 < seconds * 10 ^ 9 := by omega
  have hPassed : 0 ≤ passed created_at seconds after := Int.ediv_nonneg (by omega) (by omega)
  have hLater : ∀ k : Int, after < created_at + k * (seconds * 10 ^ 9) ↔
      passed created_at seconds after < k := by
    intro k
    show after < created_at + k * (seconds * 10 ^ 9) ↔ (after - created_at) / (seconds * 10 ^ 9) < k
    rw [Int.ediv_lt_iff_lt_mul hPos]
    omega
  constructor
  · intro h
    obtain ⟨⟨-, hIn⟩, hLeast⟩ := h
    have hLow : passed created_at seconds after < n := (hLater n).1 hIn
    have hHigh := hLeast (a := created_at + (passed created_at seconds after + 1) * (seconds * 10 ^ 9))
      ⟨⟨_, by omega, rfl⟩, (hLater _).2 (by omega)⟩
    have hLe : n * (seconds * 10 ^ 9) ≤ (passed created_at seconds after + 1) * (seconds * 10 ^ 9) := by
      omega
    have := Int.le_of_mul_le_mul_right hLe hPos
    omega
  · intro h
    subst h
    constructor
    · exact ⟨⟨_, by omega, rfl⟩, (hLater _).2 (by omega)⟩
    · intro t hMem
      obtain ⟨⟨k, hk, rfl⟩, hIn⟩ := hMem
      have hLow : passed created_at seconds after + 1 ≤ k := (hLater k).1 hIn
      have := Int.mul_le_mul_of_nonneg_right hLow (by omega : 0 ≤ seconds * 10 ^ 9)
      omega

/-- Cut lengths never count more intervals than passed, once they count one beyond the first. -/
theorem counted_le {created_at seconds after : Int} (hSeconds : 1 ≤ seconds)
    (hMany : 1 < microseconds (after - created_at) / microseconds (seconds * 10 ^ 9)) :
    microseconds (after - created_at) / microseconds (seconds * 10 ^ 9) ≤
      passed created_at seconds after := by
  have hInterval : seconds * 10 ^ 9 / 1000 = seconds * 10 ^ 6 := by omega
  have hShort : seconds * 10 ^ 6 ≤ i64_max := by
    by_contra hLong
    have hCut : microseconds (seconds * 10 ^ 9) = i64_max := by
      unfold microseconds
      omega
    have hLe : microseconds (after - created_at) ≤ i64_max := min_le_right _ _
    rw [hCut] at hMany
    have : microseconds (after - created_at) / i64_max ≤ i64_max / i64_max :=
      Int.ediv_le_ediv (by decide) hLe
    have hOne : i64_max / i64_max = 1 := by decide
    omega
  have hWhole : microseconds (seconds * 10 ^ 9) = seconds * 10 ^ 6 := by
    unfold microseconds
    omega
  have hPassed : passed created_at seconds after = (after - created_at) / 1000 / (seconds * 10 ^ 6) := by
    unfold passed
    rw [Int.ediv_ediv_of_nonneg (by decide : (0 : Int) ≤ 1000)]
    congr 1
    omega
  rw [hWhole, hPassed]
  exact Int.ediv_le_ediv (by omega) (min_le_left _ _)

/-! ## The slot of an interval -/

/-- A valid timing with an interval has no cron line, and the interval is at least a second. -/
theorem valid_interval {timing : Timing} {seconds : Int} (hValid : timing.validate croner = .ok ())
    (hInterval : timing.interval_seconds = some seconds) : timing.cron = none ∧ 1 ≤ seconds := by
  unfold Timing.validate at hValid
  rw [hInterval] at hValid
  cases hCron : timing.cron with
  | some line =>
      rw [hCron] at hValid
      simp at hValid
  | none =>
      rw [hCron] at hValid
      by_cases hShort : seconds < 1
      · simp [hShort] at hValid
      · exact ⟨rfl, by omega⟩

/-- Before the creation, the slot is the creation. -/
theorem next_slot_before {timing : Timing} {seconds : Int} {created_at after : DateTime}
    (hCron : timing.cron = none) (hInterval : timing.interval_seconds = some seconds)
    (hSeconds : 1 ≤ seconds) (hBefore : after < created_at) :
    timing.next_slot croner overflow_checks created_at after = .ok created_at := by
  have hFilter : timing.interval_seconds.filter (1 ≤ ·) = some seconds := by
    rw [hInterval]
    simp [Option.filter, hSeconds]
  simp only [Timing.next_slot, hCron, hFilter, if_pos hBefore]

/-- From the creation on, the slot is so many intervals later. -/
theorem next_slot_after {timing : Timing} {seconds : Int} {created_at after : DateTime}
    (hCron : timing.cron = none) (hInterval : timing.interval_seconds = some seconds)
    (hSeconds : 1 ≤ seconds) (hAfter : ¬ after < created_at) {elapsed : Int}
    (hElapsed : microseconds (after.1 - created_at.1) / microseconds (seconds * 10 ^ 9) = elapsed) :
    timing.next_slot croner overflow_checks created_at after = (do
      let interval ← duration seconds
      let n ← succ_i32 overflow_checks (if elapsed ≤ i32_max then elapsed else i32_max - 1)
      let offset ← times interval n
      date (created_at.1 + offset * 10 ^ 9)) := by
  have hFilter : timing.interval_seconds.filter (1 ≤ ·) = some seconds := by
    rw [hInterval]
    simp [Option.filter, hSeconds]
  subst hElapsed
  simp only [Timing.next_slot, hCron, hFilter, if_neg hAfter]
  by_cases hLong : seconds ≤ i64_max / 1000
  · have hDuration : duration seconds = .ok seconds := if_pos hLong
    rw [hDuration]
    rfl
  · have hDuration : duration seconds = .error .panicked := if_neg hLong
    rw [hDuration]
    rfl

/-- So many intervals after the creation, where chrono holds the instant. -/
theorem date_times {created_at : DateTime} {seconds n : Int} (hSeconds : 1 ≤ seconds) (hn : 0 ≤ n) :
    (∃ slot : DateTime, (do let offset ← times seconds n; date (created_at.1 + offset * 10 ^ 9)) =
        .ok slot ∧ slot.1 = created_at.1 + n * (seconds * 10 ^ 9)) ↔
      created_at.1 + n * (seconds * 10 ^ 9) ≤ max_utc := by
  have hOffset : seconds * n * 10 ^ 9 = n * (seconds * 10 ^ 9) := by
    rw [Int.mul_comm seconds n, Int.mul_assoc]
  have hNonneg : 0 ≤ seconds * n := Int.mul_nonneg (by omega) hn
  have hLow := created_at.2.1
  constructor
  · intro h
    obtain ⟨slot, -, hSlot⟩ := h
    have := slot.2.2
    omega
  · intro h
    have hRange : min_utc ≤ created_at.1 + seconds * n * 10 ^ 9 ∧
        created_at.1 + seconds * n * 10 ^ 9 ≤ max_utc := by omega
    have hTimes : times seconds n = .ok (seconds * n) := by
      apply if_pos
      unfold max_utc at hRange
      unfold min_utc at hLow
      unfold i64_max
      omega
    have hDate : date (created_at.1 + seconds * n * 10 ^ 9) = .ok ⟨_, hRange⟩ := dif_pos hRange
    refine ⟨⟨_, hRange⟩, ?_, ?_⟩
    · rw [hTimes]
      exact hDate
    · show created_at.1 + seconds * n * 10 ^ 9 = _
      omega

/-- A slot before the creation, or none: the index wrapped. -/
theorem slot_of_times {created_at slot : DateTime} {seconds n : Int}
    (h : (do let offset ← times seconds n; date (created_at.1 + offset * 10 ^ 9)) = .ok slot) :
    slot.1 = created_at.1 + n * (seconds * 10 ^ 9) := by
  by_cases hTimes : -2 ^ 63 < seconds * n ∧ seconds * n < i64_max
  · have hOffset : times seconds n = .ok (seconds * n) := if_pos hTimes
    rw [hOffset] at h
    change date (created_at.1 + seconds * n * 10 ^ 9) = .ok slot at h
    unfold date at h
    split at h
    · have hSlot := Except.ok.inj h
      rw [← hSlot]
      show created_at.1 + seconds * n * 10 ^ 9 = _
      rw [Int.mul_comm seconds n, Int.mul_assoc]
    · cases h
  · have hOffset : times seconds n = .error .panicked := if_neg hTimes
    rw [hOffset] at h
    cases h

/-- An interval's slot is the next one of its grid exactly when the arithmetic keeps its bounds. -/
theorem next_slot_iff {timing : Timing} {seconds : Int} {created_at after : DateTime}
    (hCron : timing.cron = none) (hInterval : timing.interval_seconds = some seconds)
    (hSeconds : 1 ≤ seconds) :
    (∃ slot, timing.next_slot croner overflow_checks created_at after = .ok slot ∧
        IsNextSlot created_at.1 seconds after.1 slot.1) ↔
      InBounds created_at.1 seconds after.1 := by
  by_cases hBefore : after < created_at
  · have hSlot := next_slot_before croner overflow_checks hCron hInterval hSeconds hBefore
    have hLess : after.1 < created_at.1 := hBefore
    constructor
    · intro _
      exact .inl hLess
    · intro _
      exact ⟨created_at, hSlot, isNextSlot_created hSeconds hLess⟩
  have hAfter : created_at.1 ≤ after.1 := not_lt.1 hBefore
  have hNotBefore : ¬ after.1 < created_at.1 := not_lt.2 hAfter
  obtain ⟨elapsed, hElapsed⟩ : ∃ elapsed, microseconds (after.1 - created_at.1) /
    microseconds (seconds * 10 ^ 9) = elapsed := ⟨_, rfl⟩
  have hStep := next_slot_after croner overflow_checks hCron hInterval hSeconds hBefore hElapsed
  have hPassed : 0 ≤ passed created_at.1 seconds after.1 := Int.ediv_nonneg (by omega) (by omega)
  have hElapsedPos : 0 ≤ elapsed := by
    rw [← hElapsed]
    unfold microseconds
    exact Int.ediv_nonneg (by unfold i64_max; omega) (by unfold i64_max; omega)
  by_cases hLong : seconds ≤ i64_max / 1000
  swap
  · have hDuration : duration seconds = .error .panicked := if_neg hLong
    rw [hDuration] at hStep
    constructor
    · intro h
      obtain ⟨slot, hSlot, -⟩ := h
      rw [hStep] at hSlot
      cases hSlot
    · intro h
      rcases h with h | ⟨h, -⟩
      · exact absurd h hNotBefore
      · exact absurd h hLong
  have hDuration : duration seconds = .ok seconds := if_pos hLong
  rw [hDuration] at hStep
  change _ = (do
    let n ← succ_i32 overflow_checks (if elapsed ≤ i32_max then elapsed else i32_max - 1)
    let offset ← times seconds n
    date (created_at.1 + offset * 10 ^ 9)) at hStep
  -- The index is the next one, wrapped, or stuck at the largest.
  rcases lt_trichotomy elapsed i32_max with hFew | hWrap | hStuck
  · have hIndex : succ_i32 overflow_checks (if elapsed ≤ i32_max then elapsed else i32_max - 1) =
        .ok (elapsed + 1) := by
      rw [if_pos (le_of_lt hFew)]
      exact if_pos hFew
    rw [hIndex] at hStep
    change _ = (do let offset ← times seconds (elapsed + 1); date (created_at.1 + offset * 10 ^ 9)) at hStep
    constructor
    · intro h
      obtain ⟨slot, hSlot, hNext⟩ := h
      rw [hStep] at hSlot
      have hAt := slot_of_times hSlot
      rw [hAt, isNextSlot_iff hSeconds hAfter] at hNext
      have hSame : elapsed = passed created_at.1 seconds after.1 := by omega
      refine .inr ⟨hLong, by omega, hElapsed.trans hSame, ?_⟩
      rw [← hSame, ← hAt]
      exact slot.2.2
    · intro h
      rcases h with h | ⟨-, -, hSame, hHeld⟩
      · exact absurd h hNotBefore
      · have hCount : elapsed = passed created_at.1 seconds after.1 := hElapsed.symm.trans hSame
        rw [← hCount] at hHeld
        obtain ⟨slot, hSlot, hAt⟩ := (date_times (n := elapsed + 1) hSeconds (by omega)).2 hHeld
        refine ⟨slot, hStep.trans hSlot, ?_⟩
        rw [hAt, isNextSlot_iff hSeconds hAfter, hCount]
  · constructor
    · intro h
      obtain ⟨slot, hSlot, hNext⟩ := h
      rw [hStep, hWrap, if_pos (le_refl _)] at hSlot
      unfold succ_i32 at hSlot
      rw [if_neg (lt_irrefl _)] at hSlot
      cases overflow_checks with
      | true => cases hSlot
      | false =>
          have hAt := slot_of_times (n := -2 ^ 31) hSlot
          rw [hAt, isNextSlot_iff hSeconds hAfter] at hNext
          omega
    · intro h
      rcases h with h | ⟨-, hFew, hSame, -⟩
      · exact absurd h hNotBefore
      · omega
  · have hIndex : succ_i32 overflow_checks (if elapsed ≤ i32_max then elapsed else i32_max - 1) =
        .ok i32_max := by
      rw [if_neg (not_le.2 hStuck)]
      exact if_pos (by decide)
    rw [hIndex] at hStep
    change _ = (do let offset ← times seconds i32_max; date (created_at.1 + offset * 10 ^ 9)) at hStep
    have hMany : elapsed ≤ passed created_at.1 seconds after.1 := by
      rw [← hElapsed]
      apply counted_le hSeconds
      rw [hElapsed]
      unfold i32_max at hStuck
      omega
    constructor
    · intro h
      obtain ⟨slot, hSlot, hNext⟩ := h
      rw [hStep] at hSlot
      rw [slot_of_times hSlot, isNextSlot_iff hSeconds hAfter] at hNext
      omega
    · intro h
      rcases h with h | ⟨-, hFew, hSame, -⟩
      · exact absurd h hNotBefore
      · omega

/-! ## Slots in a row -/

/-- Each of the instants is the slot after the one before it. -/
def Chain (next : DateTime → Except Failure DateTime) : DateTime → List DateTime → Prop
  | _, [] => True
  | after, slot :: rest => next after = .ok slot ∧ Chain next slot rest

/-- Slots that each come later than the instant they were asked for come one after another. -/
theorem Chain.increasing {next : DateTime → Except Failure DateTime} {after : DateTime}
    {slots : List DateTime} (h : Chain next after slots)
    (hLater : ∀ t ∈ (after :: slots).dropLast, ∀ slot, next t = .ok slot → t < slot) :
    (after :: slots).Pairwise (· < ·) := by
  induction slots generalizing after with
  | nil => exact List.pairwise_singleton _ _
  | cons slot rest ih =>
      obtain ⟨hNext, hRest⟩ := h
      have hFirst : after < slot := hLater after (by simp) slot hNext
      have hTail := ih hRest fun t hMem => hLater t (by simp [List.dropLast, hMem])
      rw [List.pairwise_cons]
      refine ⟨?_, hTail⟩
      intro t hMem
      rcases List.mem_cons.1 hMem with rfl | hIn
      · exact hFirst
      · exact lt_trans hFirst ((List.pairwise_cons.1 hTail).1 t hIn)

/-- The slots of a valid interval are the next instants of its grid exactly within the bounds of the
arithmetic; in a row within them, each is later than the one before. -/
theorem interval_slots_iff {timing : Timing} {seconds : Int} (hValid : timing.validate croner = .ok ())
    (hInterval : timing.interval_seconds = some seconds) :
    (∀ created_at after : DateTime,
      (∃ slot, timing.next_slot croner overflow_checks created_at after = .ok slot ∧
          IsNextSlot created_at.1 seconds after.1 slot.1) ↔
        InBounds created_at.1 seconds after.1) ∧
    ∀ (created_at after : DateTime) (slots : List DateTime),
      Chain (timing.next_slot croner overflow_checks created_at) after slots →
        (∀ t ∈ (after :: slots).dropLast, InBounds created_at.1 seconds t.1) →
          (after :: slots).Pairwise (· < ·) := by
  obtain ⟨hCron, hSeconds⟩ := valid_interval croner hValid hInterval
  constructor
  · intro created_at after
    exact next_slot_iff croner overflow_checks hCron hInterval hSeconds
  · intro created_at after slots hChain hBounds
    apply hChain.increasing
    intro t hMem slot hNext
    obtain ⟨slot', hNext', hLeast⟩ :=
      (next_slot_iff croner overflow_checks hCron hInterval hSeconds).2 (hBounds t hMem)
    have hSame : slot' = slot := Except.ok.inj (hNext'.symm.trans hNext)
    rw [← hSame]
    exact hLeast.1.2

end NextSlot

/-- No cron line, and the zone of every schedule that names none. -/
def utc_only : Croner where
  parses _ := false
  zone name := name = "UTC"
  cron_slot _ _ _ := .error "CronError"
  debug line := line

/-- So many seconds after 1970 began. -/
def second (n : Nat) (h : n ≤ 8000000000000 := by decide) : DateTime :=
  ⟨n * 10 ^ 9, by unfold min_utc max_utc; omega⟩

/-- When 1970 began, and half a minute later. -/
def first_instant : DateTime := second 0

def half_minute : DateTime := second 30

theorem first_instant_whole : 1000 ∣ first_instant.1 := by decide

/-- Every ten minutes from 1970 on: the slot after 17:42 is 20:00. -/
theorem every_ten_minutes :
    (∃ slot, Timing.next_slot utc_only true { interval_seconds := some 600 } (second 0) (second 1062) =
        .ok slot ∧ IsNextSlot (second 0).1 600 (second 1062).1 slot.1) ∧
      [second 0, second 600, second 1200].Pairwise (· < ·) := by
  have hBoth := @interval_slots_iff utc_only true { interval_seconds := some 600 } 600 rfl rfl
  constructor
  · exact (hBoth.1 (second 0) (second 1062)).2 (.inr (by decide +kernel))
  · exact hBoth.2 (second 0) (second 0) [second 600, second 1200] ⟨by decide +kernel, by decide +kernel, trivial⟩
      (by
        intro t hMem
        simp only [List.dropLast_cons_cons, List.dropLast_singleton, List.mem_cons, List.not_mem_nil,
          or_false] at hMem
        rcases hMem with rfl | rfl <;> exact .inr (by decide +kernel))

/-- Every second from 1970 on: 2³¹ - 1 seconds later the index leaves `i32`. -/
theorem index_leaves_i32 :
    (¬ ∃ slot, Timing.next_slot utc_only true { interval_seconds := some 1 } (second 0)
        (second 2147483647) = .ok slot ∧ IsNextSlot (second 0).1 1 (second 2147483647).1 slot.1) ∧
    ¬ ∃ slot, Timing.next_slot utc_only false { interval_seconds := some 1 } (second 0)
        (second 2147483647) = .ok slot ∧ IsNextSlot (second 0).1 1 (second 2147483647).1 slot.1 := by
  have hOut : ¬ InBounds (second 0).1 1 (second 2147483647).1 := by
    intro h
    rcases h with h | ⟨-, h, -⟩
    · exact absurd h (by decide)
    · exact absurd h (by decide)
  constructor
  · exact fun h => hOut ((next_slot_iff utc_only true rfl rfl (by decide)).1 h)
  · exact fun h => hOut ((next_slot_iff utc_only false rfl rfl (by decide)).1 h)

end Rekuest.Schedules
