import Mathlib.Data.List.Forall2
import Mathlib.Data.List.Infix
import Mathlib.Data.List.Sort
import Rekuest.Ports.Value
import Rekuest.Schedules.Timing

/-!
# Planning the next run of a schedule

A schedule that is due a run gets it for the first free slot after where its search starts:
now, or the slot planned last while it catches up.  The runs stand in the order they were
created.  What assigns a run, what reads cron lines and how chrono prints an instant are
parameters.
-/

namespace Rekuest.Schedules

open Rekuest.Ports (Value)

/-! ## Rows -/

/-- What the runs of a schedule are assigned. -/
structure Target where
  action_id : Int
  agent_id : Option Int := none
  interface : Option String := none
  args : Value := .object []
  policy : String := "ASK"

structure AssignInput where
  args : List (String × Value)
  reference : String
  not_before : Option DateTime
  policy : String
  agent : Option String := none
  interface : Option String := none
  action : Option String := none

/-- A schedule; its creation is stored to the microsecond. -/
structure Schedule where
  id : Int
  enabled : Bool := true
  target : Target
  timing : Timing
  created_at : DateTime
  refill_after : Option DateTime := none
  consecutive_failures : Int := 0
  last_error : Option String := none
  ends_at : Option DateTime := none
  max_runs : Option Int := none
  run_count : Int := 0
  overlap : String := "SKIP"
  catch_up : Bool := false
  last_slot_at : Option DateTime := none
  created_whole : 1000 ∣ created_at.1 := by decide

/-- A task of the schedule, with the message of the event it ended with. -/
structure Run where
  id : Int
  reference : String
  not_before : Option DateTime
  dispatch_attempts : Int
  is_done : Bool := false
  latest_event_kind : String := "QUEUED"
  message : Option String := none
  finished_at : Option DateTime := none

structure State where
  schedule : Schedule
  runs : List Run

/-- What the planner calls: croner, chrono's printing, the loading of the caller and the assign
path, which refuses a target or a reference that names another assignment. -/
structure Env where
  croner : Croner
  overflow_checks : Bool
  format : String → DateTime → String
  principal : Option String := none
  refusal : AssignInput → Option String
  reused : Run → AssignInput → Option String

/-! ## The search -/

/-- Slots whose reference exists are skipped, no more than these. -/
def MAX_SLOT_SKIPS : Nat := 5

/-- How many missed slots are run late. -/
def MAX_CATCH_UP : Nat := 100

/-- Creating a run failed: retry no sooner than this. -/
def REFILL_RETRY_SECONDS : Int := 60

section Planning

variable (env : Env)

namespace Schedule

def next_slot (s : Schedule) (after : DateTime) : Except Failure DateTime :=
  s.timing.next_slot env.croner env.overflow_checks s.created_at after

def allows_overlap (s : Schedule) : Bool := s.overlap = "ALLOW"

/-- Its end passed, or it created its last allowed run. -/
def ended (s : Schedule) (now : DateTime) : Bool :=
  s.ends_at.any (· ≤ now) || s.max_runs.any (· ≤ s.run_count)

end Schedule

/-- Whether a slot after now comes within so many steps. -/
def passes (next : DateTime → Except Failure DateTime) (now : DateTime) :
    Nat → DateTime → Except Failure Bool
  | 0, _ => .ok false
  | n + 1, slot => do
      let slot ← next slot
      if now < slot then .ok true else passes next now n slot

/-- Where the search for the next slot starts. -/
def Schedule.search_from (s : Schedule) (now : DateTime) : Except Failure DateTime :=
  match s.last_slot_at.filter fun last => s.catch_up && last < now with
  | none => .ok now
  | some last => do
      let caught ← passes (s.next_slot env) now MAX_CATCH_UP last
      if caught then .ok last else .ok now

/-! ## References and the assign path -/

/-- The instant as a reference names it: its fraction only where it has one. -/
def stamp (slot : DateTime) : String :=
  if slot.1 / 1000 % 10 ^ 6 = 0 then env.format "%Y-%m-%dT%H:%M:%S+00:00" slot
  else env.format "%Y-%m-%dT%H:%M:%S%.6f+00:00" slot

def slot_reference (schedule : Int) (slot : DateTime) : String :=
  "schedule:" ++ toString schedule ++ ":" ++ stamp env slot

def Schedule.assign_input (s : Schedule) (reference : String) (not_before : Option DateTime) :
    AssignInput :=
  let args := match s.target.args with
    | .object fields => fields
    | _ => []
  match s.target.agent_id with
  | some agent =>
      { args, reference, not_before, policy := s.target.policy, agent := some (toString agent),
        interface := s.target.interface }
  | none =>
      { args, reference, not_before, policy := s.target.policy,
        action := some (toString s.target.action_id) }

/-- The run of an accepted assign: delayed while its time is to come, else handed over. -/
def assigned (now : DateTime) (id : Int) (input : AssignInput) : Run :=
  match input.not_before.filter (now < ·) with
  | some due => { id, reference := input.reference, not_before := some due, dispatch_attempts := 0 }
  | none => { id, reference := input.reference, not_before := none, dispatch_attempts := 1 }

/-- `assign_with_status`: whether it created the run, and the runs after it. -/
def assign_with_status (now : DateTime) (runs : List Run) (input : AssignInput) :
    Except Failure (Bool × List Run) :=
  match runs.find? (·.reference = input.reference) with
  | some run =>
      match env.reused run input with
      | some e => .error (.refused e)
      | none => .ok (false, runs)
  | none =>
      match env.refusal input with
      | some e => .error (.refused e)
      | none => .ok (true, runs ++ [assigned now (runs.length + 1) input])

def slot_has_run (runs : List Run) (reference : String) : Bool := runs.any (·.reference = reference)

/-! ## The next run -/

/-- The loop of `plan_next`: the slot that got a run, if any did before the end. -/
def plan_slots (s : Schedule) (now : DateTime) :
    Nat → DateTime → List Run → Except Failure (Option DateTime × List Run)
  | 0, _, _ =>
      .error (.refused (toString MAX_SLOT_SKIPS ++ " consecutive slots already had a run"))
  | n + 1, after, runs => do
      let slot ← s.next_slot env after
      if s.ends_at.any (· < slot) then .ok (none, runs)
      else if slot_has_run runs (slot_reference env s.id slot) then plan_slots s now n slot runs
      else do
        let outcome ← assign_with_status env now runs
          (s.assign_input (slot_reference env s.id slot) (some slot))
        if outcome.1 then .ok (some slot, outcome.2) else plan_slots s now n slot runs

def plan_next (s : Schedule) (now : DateTime) (runs : List Run) :
    Except Failure (Option DateTime × List Run) :=
  match env.principal with
  | some e => .error (.refused e)
  | none => do
      let after ← s.search_from env now
      plan_slots env s now MAX_SLOT_SKIPS after runs

def failed (kind : String) : Bool := kind = "FAILED" || kind = "CRITICAL"

def run_error (run : Run) : String :=
  match run.message.filter (· ≠ "") with
  | some message => "Run " ++ toString run.id ++ " ended " ++ run.latest_event_kind ++ ": " ++ message
  | none => "Run " ++ toString run.id ++ " ended " ++ run.latest_event_kind

/-- `ORDER BY finished_at DESC NULLS LAST, id DESC`. -/
def finished_later (a b : Run) : Prop :=
  match a.finished_at, b.finished_at with
  | some at_a, some at_b => at_b < at_a ∨ at_a = at_b ∧ b.id ≤ a.id
  | some _, none => True
  | none, some _ => False
  | none, none => b.id ≤ a.id

instance : DecidableRel finished_later := fun a b => by
  unfold finished_later
  cases a.finished_at <;> cases b.finished_at <;> infer_instance

/-- How many of the most recent finished runs failed in a row, and why the newest did. -/
def failure_streak (runs : List Run) : Int × Option String :=
  let recent := ((runs.filter (·.is_done)).insertionSort finished_later).take 50
  ((recent.takeWhile fun run => failed run.latest_event_kind).length,
    match recent.head? with
    | some run => if failed run.latest_event_kind then some (run_error run) else none
    | none => none)

/-- The streak and its reason once the next run exists. -/
def judged (s : Schedule) (last : Option Run) (runs : List Run) : Int × Option String :=
  if s.allows_overlap then failure_streak runs
  else
    match last with
    | some run =>
        if failed run.latest_event_kind then (s.consecutive_failures + 1, some (run_error run)) else (0, none)
    | none => (s.consecutive_failures, none)

/-- The schedule once a run was planned for a slot. -/
def Schedule.planned (s : Schedule) (last : Option Run) (runs : List Run) (slot : DateTime) : Schedule :=
  let told := last.isSome || s.allows_overlap
  { s with
    consecutive_failures := if told then (judged s last runs).1 else s.consecutive_failures
    last_error := if told then (judged s last runs).2 else s.last_error
    refill_after := none
    run_count := s.run_count + 1
    last_slot_at := some slot }

/-- A run that keeps the schedule from its next one. -/
def has_blocking_run (s : Schedule) (runs : List Run) : Bool :=
  runs.any fun run => !run.is_done && (s.overlap ≠ "ALLOW" || run.dispatch_attempts = 0)

/-- `refill_one`: whether a run was created, and what is then; nothing when it panics. -/
def refill_one (now : DateTime) (state : State) : Option (Bool × State) :=
  let s := state.schedule
  if !s.enabled || (s.ended now || has_blocking_run s state.runs || s.refill_after.any (now < ·)) then
    some (false, state)
  else
    match plan_next env s now state.runs with
    | .ok (some slot, runs) => some (true, ⟨s.planned state.runs.getLast? runs slot, runs⟩)
    | .ok (none, runs) => some (false, ⟨s, runs⟩)
    | .error (.refused e) =>
        match date (now.1 + REFILL_RETRY_SECONDS * 10 ^ 9) with
        | .ok later =>
            some (false, ⟨{ s with
              last_error := some ("Could not create the next run: " ++ e)
              refill_after := some later }, state.runs⟩)
        | .error _ => none
    | .error .panicked => none

/-! ## Replans -/

/-- `request_control` with a cancel: a run that waits is settled, another is told to wind down. -/
def cancelled (now : DateTime) (run : Run) : Run :=
  if run.is_done then run
  else if run.dispatch_attempts = 0 && run.not_before.isSome then
    { run with is_done := true, latest_event_kind := "CANCELLED", finished_at := some now }
  else { run with latest_event_kind := "CANCELLING" }

/-- A run that was not handed over. -/
def waiting (run : Run) : Bool := !run.is_done && run.dispatch_attempts = 0

/-- `GREATEST(run_count - 1, 0)` -/
def less_one (run_count : Int) : Int := if 0 < run_count then run_count - 1 else 0

theorem less_one_of_pos {run_count : Int} (h : 0 < run_count) : less_one run_count = run_count - 1 :=
  if_pos h

/-- The first waiting run is cancelled, and is not counted any more. -/
def cancel_waiting_run (now : DateTime) (state : State) : State :=
  match state.runs.findIdx? waiting with
  | some i =>
      { schedule := { state.schedule with run_count := less_one state.schedule.run_count }
        runs := state.runs.modify i (cancelled now) }
  | none => state

/-- `plan`: a replan cancels the waiting run first, and forgets the backoff. -/
def plan (replan : Bool) (now : DateTime) (state : State) : Option (Bool × State) :=
  let state := if replan then cancel_waiting_run now state else state
  refill_one env now { state with schedule := { state.schedule with refill_after := none } }

end Planning

end Rekuest.Schedules
