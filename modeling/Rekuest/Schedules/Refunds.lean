import Mathlib.Data.List.Nodup
import Mathlib.Data.List.Perm.Subperm
import Rekuest.Concurrent.System
import Rekuest.Schedules.Planning

/-!
# Refunds of cancelled runs

`cancel_waiting_run` reads the waiting run without a lock, cancels it through the control
path, and takes it off the count in a third statement: calls of any number of replicas,
the planners, the dispatcher and users step between.  A refill and a trigger hold the
schedule's row from before they create a run until they have counted it, so the count is
never changed meanwhile.
-/

namespace Rekuest.Schedules

open Concurrent

/-! ## Steps -/

/-- How far a call of `cancel_waiting_run` has come. -/
inductive Call
  | started
  | found (run : Nat)
  /-- The control path saw the run open. -/
  | checked (run : Nat)
  /-- The control path is through, and whether it settled the run. -/
  | controlled (settled : Bool)
  /-- Returned, and whether it lowered the count. -/
  | finished (lowered : Bool)
  deriving DecidableEq

/-- Who holds the schedule's row. -/
inductive Planner
  | refill
  | trigger
  /-- Its run is there, and not counted yet. -/
  | created
  deriving DecidableEq

structure Store where
  schedule : Schedule
  runs : List Run := []
  lock : Option Planner := none
  calls : List Call := []
  /-- No column: which call settled which run while it waited. -/
  settled : List (Nat × Nat) := []

inductive Label
  | call
  | read (c : Nat)
  | check (c : Nat) (permitted : Bool)
  | control (c : Nat) (now : DateTime)
  | lower (c : Nat)
  | refill_lock (now : DateTime)
  | trigger_lock
  /-- Nothing to plan, or it could not be. -/
  | unlock
  | create (now : DateTime) (input : AssignInput)
  | count
  /-- The waiting run is moved to now. -/
  | move (now : DateTime)
  | claim_due (run : Nat) (now : DateTime)
  /-- Due, but its assign cannot be built. -/
  | finalize (run : Nat) (now : DateTime)
  | finish (run : Nat) (kind : String) (now : DateTime)
  | cancel (run : Nat) (now : DateTime)

namespace Store

def call_to (s : Store) (c : Nat) (call : Call) : Store := { s with calls := s.calls.set c call }

def run_to (s : Store) (r : Nat) (run : Run) : Store := { s with runs := s.runs.set r run }

/-- The first of the runs that are not handed over: `ORDER BY id LIMIT 1`. -/
def read (s : Store) (c : Nat) : Option Store :=
  match s.calls[c]? with
  | some .started =>
      match s.runs.findIdx? waiting with
      | some r => some (s.call_to c (.found r))
      | none => some (s.call_to c (.finished false))
  | _ => none

/-- `request_control` refuses a run that is over, and a caller of another organization. -/
def check (s : Store) (c : Nat) (permitted : Bool) : Option Store :=
  match s.calls[c]? with
  | some (.found r) =>
      (s.runs[r]?).map fun run =>
        if permitted && !run.is_done then s.call_to c (.checked r) else s.call_to c (.finished false)
  | _ => none

/-- `request_control` under the run's lock: a waiting run is settled, an ended one skipped, another
told to wind down. -/
def control (s : Store) (c : Nat) (now : DateTime) : Option Store :=
  match s.calls[c]? with
  | some (.checked r) =>
      (s.runs[r]?).map fun run =>
        let settles := waiting run && run.not_before.isSome
        { (s.run_to r (cancelled now run)).call_to c (.controlled settles) with
          settled := if settles then (c, r) :: s.settled else s.settled }
  | _ => none

/-- The count is lowered, once nobody holds the row. -/
def lower (s : Store) (c : Nat) : Option Store :=
  match s.calls[c]?, s.lock with
  | some (.controlled _), none =>
      some { s.call_to c (.finished (0 < s.schedule.run_count : Bool)) with
        schedule := { s.schedule with run_count := less_one s.schedule.run_count } }
  | _, _ => none

/-- `refill_one`, until it plans. -/
def refill_lock (s : Store) (now : DateTime) : Option Store :=
  if s.lock = none ∧ s.schedule.enabled ∧ s.schedule.ended now = false ∧
      has_blocking_run s.schedule s.runs = false ∧ s.schedule.refill_after.any (now < ·) = false then
    some { s with lock := some .refill }
  else none

def trigger_lock (s : Store) : Option Store :=
  if s.lock = none then some { s with lock := some .trigger } else none

def unlock (s : Store) : Option Store :=
  match s.lock with
  | some .refill | some .trigger => some { s with lock := none }
  | _ => none

/-- The run of a slot, or a one-off run where none waits and none executes in its way. -/
def create (s : Store) (now : DateTime) (input : AssignInput) : Option Store :=
  let run := assigned now (s.runs.length + 1) input
  match s.lock with
  | some .refill => some { s with runs := s.runs ++ [run], lock := some .created }
  | some .trigger =>
      if input.not_before = none ∧ s.runs.any waiting = false ∧
          (s.schedule.allows_overlap ∨ s.runs.all (·.is_done)) then
        some { s with runs := s.runs ++ [run], lock := some .created }
      else none
  | _ => none

def count (s : Store) : Option Store :=
  match s.lock with
  | some .created =>
      some { s with
        schedule := { s.schedule with run_count := s.schedule.run_count + 1 }
        lock := none }
  | _ => none

def move (s : Store) (now : DateTime) : Option Store :=
  match s.lock, s.runs.findIdx? waiting with
  | some .trigger, some r =>
      (s.runs[r]?).map fun run => { s.run_to r { run with not_before := some now } with lock := none }
  | _, _ => none

/-- A step on a run that is open. -/
def open_step (s : Store) (r : Nat) (may : Run → Bool) (step : Run → Run) : Option Store :=
  match s.runs[r]? with
  | some run => if !run.is_done && may run then some (s.run_to r (step run)) else none
  | none => none

/-- A delayed run that is due is handed over. -/
def claim_due (s : Store) (r : Nat) (now : DateTime) : Option Store :=
  s.open_step r (fun run => run.dispatch_attempts = 0 && run.not_before.any (· ≤ now))
    fun run => { run with dispatch_attempts := 1 }

def finalize (s : Store) (r : Nat) (now : DateTime) : Option Store :=
  s.open_step r (fun run => run.dispatch_attempts = 0 && run.not_before.any (· ≤ now))
    fun run => { run with is_done := true, latest_event_kind := "CRITICAL", finished_at := some now }

/-- The report that ends a run an agent has. -/
def finish (s : Store) (r : Nat) (kind : String) (now : DateTime) : Option Store :=
  s.open_step r (fun run => run.dispatch_attempts ≠ 0)
    fun run => { run with is_done := true, latest_event_kind := kind, finished_at := some now }

/-- A user's cancel. -/
def cancel (s : Store) (r : Nat) (now : DateTime) : Option Store :=
  s.open_step r (fun _ => true) (cancelled now)

end Store

def next (s : Store) : Label → Option Store
  | .call => some { s with calls := s.calls ++ [.started] }
  | .read c => s.read c
  | .check c permitted => s.check c permitted
  | .control c now => s.control c now
  | .lower c => s.lower c
  | .refill_lock now => s.refill_lock now
  | .trigger_lock => s.trigger_lock
  | .unlock => s.unlock
  | .create now input => s.create now input
  | .count => s.count
  | .move now => s.move now
  | .claim_due r now => s.claim_due r now
  | .finalize r now => s.finalize r now
  | .finish r kind now => s.finish r kind now
  | .cancel r now => s.cancel r now

/-- The calls, planners, dispatchers, agents and users of one schedule. -/
def refunds : System Store Label := ⟨next⟩

/-- A schedule as it is created. -/
def fresh (schedule : Schedule) : Store := { schedule := { schedule with run_count := 0 } }

/-- A call's control finds the run it read as it read it: open, and not handed over. -/
def Untouched (s : Store) : Label → Prop
  | .control c _ => ∀ r, s.calls[c]? = some (.checked r) → (s.runs[r]?).any waiting = true
  | _ => True

/-! ## What is kept -/

/-- The calls that settled a run. -/
def settles : Call → Bool
  | .controlled settled => settled
  | .finished lowered => lowered
  | _ => false

/-- The calls that lowered the count. -/
def lowered : Call → Bool
  | .finished lowered => lowered
  | _ => false

/-- The run that is there and not counted yet. -/
def uncounted (s : Store) : Nat := if s.lock = some .created then 1 else 0

/-- A count is short of the runs by those that calls took off it, each of which settled a run of
its own that was never handed over. -/
structure Balanced (s : Store) : Prop where
  counted : s.schedule.run_count + s.calls.countP lowered + uncounted s = s.runs.length
  calls : s.calls.countP settles = s.settled.length
  settled : ∀ c, (∃ call, s.calls[c]? = some call ∧ settles call = true) ↔ c ∈ s.settled.map (·.1)
  distinct : (s.settled.map (·.2)).Nodup
  waited : ∀ r ∈ s.settled.map (·.2), ∃ run, s.runs[r]? = some run ∧ run.is_done = true ∧ run.dispatch_attempts = 0
  delayed : ∀ run ∈ s.runs, run.dispatch_attempts = 0 → run.not_before.isSome = true
  sure : Call.controlled false ∉ s.calls

theorem lowered_of_settles {call : Call} (h : settles call = false) : lowered call = false := by
  cases call with
  | finished b => exact h
  | _ => rfl

theorem fresh_balanced (schedule : Schedule) : Balanced (fresh schedule) where
  counted := rfl
  calls := rfl
  settled := by
    intro c
    simp [fresh]
  distinct := List.nodup_nil
  waited := by
    intro r hMem
    cases hMem
  delayed := by
    intro run hMem
    cases hMem
  sure := by
    intro hMem
    cases hMem

theorem countP_call_to {calls : List Call} {c : Nat} {call : Call} (hCall : calls[c]? = some call)
    (call' : Call) (p : Call → Bool) :
    (calls.set c call').countP p + (if p call then 1 else 0) =
      calls.countP p + (if p call' then 1 else 0) := by
  obtain ⟨hc, hAt⟩ := List.getElem?_eq_some_iff.1 hCall
  have hIn : p call = true → 0 < calls.countP p := by
    intro hp
    rw [List.countP_pos_iff]
    exact ⟨call, hAt ▸ List.getElem_mem hc, hp⟩
  rw [List.countP_set hc, hAt]
  by_cases hp : p call = true
  · have := hIn hp
    simp only [hp, if_true]
    omega
  · simp [hp]

namespace Balanced

variable {s : Store} {c r : Nat} {call call' : Call} {run run' : Run}

/-- A settled run is over. -/
theorem not_settled (h : Balanced s) (hRun : s.runs[r]? = some run) (hOpen : run.is_done = false) :
    r ∉ s.settled.map (·.2) := by
  intro hMem
  obtain ⟨run', hRun', hDone, -⟩ := h.waited r hMem
  rw [hRun] at hRun'
  rw [Option.some.inj hRun', hDone] at hOpen
  cases hOpen

/-- What happens to an open run leaves the count alone. -/
theorem run_to (h : Balanced s) (hRun : s.runs[r]? = some run) (hOpen : run.is_done = false)
    (hDelayed : run'.dispatch_attempts = 0 → run'.not_before.isSome = true) :
    Balanced (s.run_to r run') := by
  have hOther := h.not_settled hRun hOpen
  constructor
  · show _ = ((s.runs.set r run').length : Int)
    rw [List.length_set]
    exact h.counted
  · exact h.calls
  · exact h.settled
  · exact h.distinct
  · intro r' hMem
    obtain ⟨run₀, hRun₀, hBoth⟩ := h.waited r' hMem
    refine ⟨run₀, ?_, hBoth⟩
    show (s.runs.set r run')[r']? = some run₀
    have hNe : r ≠ r' := by
      intro hSame
      exact hOther (hSame ▸ hMem)
    rw [List.getElem?_set_ne hNe]
    exact hRun₀
  · intro run₀ hMem
    rcases List.mem_or_eq_of_mem_set hMem with hIn | hSame
    · exact h.delayed run₀ hIn
    · rw [hSame]
      exact hDelayed
  · exact h.sure

/-- A call that steps on without having settled anything. -/
theorem call_to (h : Balanced s) (hCall : s.calls[c]? = some call) (hBefore : settles call = false)
    (hAfter : settles call' = false) (hSure : call' ≠ .controlled false) :
    Balanced (s.call_to c call') := by
  have hSettles := countP_call_to hCall call' settles
  have hLowered := countP_call_to hCall call' lowered
  rw [hBefore, hAfter] at hSettles
  rw [lowered_of_settles hBefore, lowered_of_settles hAfter] at hLowered
  simp only [Bool.false_eq_true, if_false, Nat.add_zero] at hSettles hLowered
  constructor
  · show s.schedule.run_count + ((s.calls.set c call').countP lowered : Nat) + uncounted s = _
    rw [hLowered]
    exact h.counted
  · show (s.calls.set c call').countP settles = _
    rw [hSettles]
    exact h.calls
  · intro c'
    show (∃ call, (s.calls.set c call')[c']? = some call ∧ _) ↔ c' ∈ s.settled.map (·.1)
    rw [← h.settled c']
    by_cases hSame : c = c'
    · subst hSame
      have hc : c < s.calls.length := (List.getElem?_eq_some_iff.1 hCall).1
      rw [List.getElem?_set_self hc, hCall]
      simp [hBefore, hAfter]
    · rw [List.getElem?_set_ne hSame]
  · exact h.distinct
  · exact h.waited
  · exact h.delayed
  · intro hMem
    rcases List.mem_or_eq_of_mem_set hMem with hIn | hEq
    · exact h.sure hIn
    · exact hSure hEq.symm

/-- A new call. -/
theorem call_started (h : Balanced s) : Balanced { s with calls := s.calls ++ [.started] } := by
  constructor
  · show s.schedule.run_count + ((s.calls ++ [Call.started]).countP lowered : Nat) + uncounted s = _
    rw [List.countP_append]
    exact h.counted
  · show (s.calls ++ [Call.started]).countP settles = _
    rw [List.countP_append]
    exact h.calls
  · intro c'
    rw [← h.settled c']
    show (∃ call, (s.calls ++ [Call.started])[c']? = some call ∧ _) ↔ _
    by_cases hIn : c' < s.calls.length
    · rw [List.getElem?_append_left hIn]
    · rw [List.getElem?_append_right (not_lt.1 hIn), List.getElem?_eq_none (not_lt.1 hIn)]
      constructor
      · intro hNew
        obtain ⟨call, hAt, hSettles⟩ := hNew
        rw [List.mem_singleton.1 (List.mem_of_getElem? hAt)] at hSettles
        cases hSettles
      · intro hNone
        obtain ⟨call, hAt, -⟩ := hNone
        cases hAt
  · exact h.distinct
  · exact h.waited
  · exact h.delayed
  · intro hMem
    rcases List.mem_append.1 hMem with hIn | hNew
    · exact h.sure hIn
    · cases List.mem_singleton.1 hNew

/-- The row changes hands, and no run is left uncounted by that. -/
theorem with_lock (h : Balanced s) {lock : Option Planner} (hBefore : s.lock ≠ some .created)
    (hAfter : lock ≠ some .created) : Balanced { s with lock } := by
  have hSame : uncounted { s with lock } = uncounted s := by
    unfold uncounted
    rw [if_neg hBefore]
    exact if_neg hAfter
  constructor
  · show s.schedule.run_count + (s.calls.countP lowered : Nat) + uncounted { s with lock } = _
    rw [hSame]
    exact h.counted
  · exact h.calls
  · exact h.settled
  · exact h.distinct
  · exact h.waited
  · exact h.delayed
  · exact h.sure

/-- A run is created by who holds the row, and will be counted by it. -/
theorem created (h : Balanced s) (hLock : s.lock ≠ some .created)
    (hDelayed : run.dispatch_attempts = 0 → run.not_before.isSome = true) :
    Balanced { s with runs := s.runs ++ [run], lock := some .created } := by
  have hNone : uncounted s = 0 := if_neg hLock
  constructor
  · show s.schedule.run_count + (s.calls.countP lowered : Nat) + (1 : Nat) = ((s.runs ++ [run]).length : Nat)
    have := h.counted
    rw [List.length_append]
    simp only [List.length_singleton]
    omega
  · exact h.calls
  · exact h.settled
  · exact h.distinct
  · intro r hMem
    obtain ⟨run₀, hRun₀, hBoth⟩ := h.waited r hMem
    refine ⟨run₀, ?_, hBoth⟩
    show (s.runs ++ [run])[r]? = some run₀
    rw [List.getElem?_append_left (List.getElem?_eq_some_iff.1 hRun₀).1]
    exact hRun₀
  · intro run₀ hMem
    rcases List.mem_append.1 hMem with hIn | hNew
    · exact h.delayed run₀ hIn
    · rw [List.mem_singleton.1 hNew]
      exact hDelayed
  · exact h.sure

/-- And is counted. -/
theorem count (h : Balanced s) (hLock : s.lock = some .created) :
    Balanced { s with
      schedule := { s.schedule with run_count := s.schedule.run_count + 1 }
      lock := none } := by
  have hOne : uncounted s = 1 := if_pos hLock
  constructor
  · show s.schedule.run_count + 1 + (s.calls.countP lowered : Nat) + (0 : Nat) = (s.runs.length : Nat)
    have := h.counted
    omega
  · exact h.calls
  · exact h.settled
  · exact h.distinct
  · exact h.waited
  · exact h.delayed
  · exact h.sure

/-- A call settles the run it read, which waits. -/
theorem control (h : Balanced s) (hCall : s.calls[c]? = some (.checked r)) (hRun : s.runs[r]? = some run)
    (hOpen : run.is_done = false) (hRun' : run'.is_done = true ∧ run'.dispatch_attempts = 0)
    (hDelayed : run'.not_before.isSome = true) :
    Balanced { (s.run_to r run').call_to c (.controlled true) with settled := (c, r) :: s.settled } := by
  have hSettles := countP_call_to hCall (.controlled true) settles
  have hLowered := countP_call_to hCall (.controlled true) lowered
  simp only [settles, lowered, Bool.false_eq_true, if_false, if_true, Nat.add_zero] at hSettles hLowered
  have hr : r < s.runs.length := (List.getElem?_eq_some_iff.1 hRun).1
  have hc : c < s.calls.length := (List.getElem?_eq_some_iff.1 hCall).1
  constructor
  · show s.schedule.run_count + ((s.calls.set c (.controlled true)).countP lowered : Nat) + uncounted s =
      ((s.runs.set r run').length : Nat)
    rw [hLowered, List.length_set]
    exact h.counted
  · show (s.calls.set c (.controlled true)).countP settles = s.settled.length + 1
    rw [hSettles, h.calls]
  · intro c'
    show (∃ call, (s.calls.set c (.controlled true))[c']? = some call ∧ _) ↔ c' ∈ c :: s.settled.map (·.1)
    by_cases hSame : c = c'
    · subst hSame
      rw [List.getElem?_set_self hc]
      simp [settles]
    · have hNe : ¬ c' = c := fun hEq => hSame hEq.symm
      rw [List.getElem?_set_ne hSame, List.mem_cons, h.settled c']
      simp [hNe]
  · show (r :: s.settled.map (·.2)).Nodup
    exact List.nodup_cons.2 ⟨h.not_settled hRun hOpen, h.distinct⟩
  · intro r' hMem
    show ∃ run₀, (s.runs.set r run')[r']? = some run₀ ∧ _
    by_cases hSame : r = r'
    · subst hSame
      exact ⟨run', List.getElem?_set_self hr, hRun'⟩
    · rcases List.mem_cons.1 hMem with hEq | hIn
      · exact absurd hEq.symm hSame
      · obtain ⟨run₀, hRun₀, hBoth⟩ := h.waited r' hIn
        exact ⟨run₀, by rw [List.getElem?_set_ne hSame]; exact hRun₀, hBoth⟩
  · intro run₀ hMem
    rcases List.mem_or_eq_of_mem_set hMem with hIn | hEq
    · exact h.delayed run₀ hIn
    · rw [hEq]
      intro _
      exact hDelayed
  · intro hMem
    rcases List.mem_or_eq_of_mem_set hMem with hIn | hEq
    · exact h.sure hIn
    · cases hEq

/-- Each settled run is another run. -/
theorem settled_le (h : Balanced s) : s.settled.length ≤ s.runs.length := by
  have hSub : s.settled.map (·.2) ⊆ List.range s.runs.length := by
    intro r hMem
    obtain ⟨run, hRun, -⟩ := h.waited r hMem
    exact List.mem_range.2 (List.getElem?_eq_some_iff.1 hRun).1
  have := (h.distinct.subperm hSub).length_le
  rwa [List.length_map, List.length_range] at this

/-- The count still holds the run of a call that has yet to lower it. -/
theorem positive (h : Balanced s) (hCall : s.calls[c]? = some (.controlled true)) (hLock : s.lock = none) :
    0 < s.schedule.run_count := by
  have hLess : s.calls.countP lowered < s.calls.countP settles := by
    obtain ⟨hc, hAt⟩ := List.getElem?_eq_some_iff.1 hCall
    have hSet := countP_call_to hCall (.finished true) lowered
    have hSame := countP_call_to hCall (.finished true) settles
    simp only [settles, lowered, Bool.false_eq_true, if_false, if_true, Nat.add_zero] at hSet hSame
    have hLe : (s.calls.set c (.finished true)).countP lowered ≤
        (s.calls.set c (.finished true)).countP settles := by
      apply List.countP_mono_left
      intro call _ hLowered
      cases call with
      | finished b => exact hLowered
      | _ => cases hLowered
    omega
  have hCounted := h.counted
  have hNone : uncounted s = 0 := if_neg (by rw [hLock]; nofun)
  have hLe := h.settled_le
  have hCalls := h.calls
  omega

/-- A call lowers the count by the run it settled. -/
theorem lower (h : Balanced s) (hCall : s.calls[c]? = some (.controlled true)) (hLock : s.lock = none) :
    Balanced { s.call_to c (.finished (0 < s.schedule.run_count : Bool)) with
      schedule := { s.schedule with run_count := less_one s.schedule.run_count } } := by
  have hPos := h.positive hCall hLock
  rw [decide_eq_true hPos]
  have hSettles := countP_call_to hCall (.finished true) settles
  have hLowered := countP_call_to hCall (.finished true) lowered
  simp only [settles, lowered, Bool.false_eq_true, if_false, if_true, Nat.add_zero] at hSettles hLowered
  have hc : c < s.calls.length := (List.getElem?_eq_some_iff.1 hCall).1
  constructor
  · show less_one s.schedule.run_count + ((s.calls.set c (.finished true)).countP lowered : Nat) +
      uncounted s = (s.runs.length : Nat)
    rw [less_one_of_pos hPos]
    have := h.counted
    omega
  · show (s.calls.set c (.finished true)).countP settles = s.settled.length
    rw [← h.calls]
    omega
  · intro c'
    show (∃ call, (s.calls.set c (.finished true))[c']? = some call ∧ _) ↔ c' ∈ s.settled.map (·.1)
    rw [← h.settled c']
    by_cases hSame : c = c'
    · subst hSame
      rw [List.getElem?_set_self hc, hCall]
      simp [settles]
    · rw [List.getElem?_set_ne hSame]
  · exact h.distinct
  · exact h.waited
  · exact h.delayed
  · intro hMem
    rcases List.mem_or_eq_of_mem_set hMem with hIn | hEq
    · exact h.sure hIn
    · cases hEq

end Balanced

/-! ## Every step -/

theorem assigned_delayed (now : DateTime) (id : Int) (input : AssignInput) :
    (assigned now id input).dispatch_attempts = 0 → (assigned now id input).not_before.isSome = true := by
  unfold assigned
  split
  · intro _
    rfl
  · intro h
    cases h

theorem cancelled_delayed {now : DateTime} {run : Run}
    (h : run.dispatch_attempts = 0 → run.not_before.isSome = true) :
    (cancelled now run).dispatch_attempts = 0 → (cancelled now run).not_before.isSome = true := by
  unfold cancelled
  split
  · exact h
  · split <;> exact h

/-- A step on an open run. -/
theorem open_step_balanced {s s' : Store} {r : Nat} {may : Run → Bool} {step : Run → Run} (h : Balanced s)
    (hStep : s.open_step r may step = some s')
    (hDelayed : ∀ run, may run = true → (run.dispatch_attempts = 0 → run.not_before.isSome = true) →
      (step run).dispatch_attempts = 0 → (step run).not_before.isSome = true) : Balanced s' := by
  unfold Store.open_step at hStep
  cases hRun : s.runs[r]? with
  | none =>
      rw [hRun] at hStep
      cases hStep
  | some run =>
      rw [hRun] at hStep
      by_cases hMay : (!run.is_done && may run) = true
      · have hSame := Option.some.inj ((if_pos hMay).symm.trans hStep)
        obtain ⟨hOpen, hMay'⟩ := Bool.and_eq_true_iff.1 hMay
        rw [← hSame]
        exact h.run_to hRun (by simpa using hOpen)
          (hDelayed run hMay' (h.delayed run (List.mem_of_getElem? hRun)))
      · have hNone : s.open_step r may step = none := by
          unfold Store.open_step
          rw [hRun]
          exact if_neg hMay
        unfold Store.open_step at hNone
        rw [hRun, hStep] at hNone
        cases hNone

/-- What a step of a call does, its control aside. -/
theorem call_balanced {s s' : Store} {c : Nat} (h : Balanced s)
    (hStep : s.read c = some s' ∨ (∃ permitted, s.check c permitted = some s') ∨ s.lower c = some s') :
    Balanced s' := by
  rcases hStep with hRead | ⟨permitted, hCheck⟩ | hLower
  · unfold Store.read at hRead
    cases hCall : s.calls[c]? with
    | none =>
        rw [hCall] at hRead
        cases hRead
    | some call =>
        rw [hCall] at hRead
        cases call with
        | started =>
            dsimp only at hRead
            split at hRead
            · cases hRead
              exact h.call_to hCall rfl rfl nofun
            · cases hRead
              exact h.call_to hCall rfl rfl nofun
        | _ => cases hRead
  · unfold Store.check at hCheck
    cases hCall : s.calls[c]? with
    | none =>
        rw [hCall] at hCheck
        cases hCheck
    | some call =>
        rw [hCall] at hCheck
        cases call with
        | found r =>
            dsimp only at hCheck
            cases hRun : s.runs[r]? with
            | none =>
                rw [hRun] at hCheck
                cases hCheck
            | some run =>
                rw [hRun] at hCheck
                have hSame := Option.some.inj hCheck
                rw [← hSame]
                dsimp only
                split
                · exact h.call_to hCall rfl rfl nofun
                · exact h.call_to hCall rfl rfl nofun
        | _ => cases hCheck
  · unfold Store.lower at hLower
    cases hCall : s.calls[c]? with
    | none =>
        rw [hCall] at hLower
        cases hLower
    | some call =>
        rw [hCall] at hLower
        cases call with
        | controlled settled =>
            cases hLock : s.lock with
            | some planner =>
                rw [hLock] at hLower
                cases hLower
            | none =>
                rw [hLock] at hLower
                cases settled with
                | false => exact absurd (List.mem_of_getElem? hCall) h.sure
                | true =>
                    cases hLower
                    exact h.lower hCall hLock
        | _ => cases hLower

/-- A control that finds the run as it was read settles it. -/
theorem control_balanced {s s' : Store} {c : Nat} {now : DateTime} (h : Balanced s)
    (hUntouched : Untouched s (.control c now)) (hStep : s.control c now = some s') : Balanced s' := by
  unfold Store.control at hStep
  cases hCall : s.calls[c]? with
  | none =>
      rw [hCall] at hStep
      cases hStep
  | some call =>
      rw [hCall] at hStep
      cases call with
      | checked r =>
          dsimp only at hStep
          have hWaiting := hUntouched r hCall
          cases hRun : s.runs[r]? with
          | none =>
              rw [hRun] at hWaiting
              cases hWaiting
          | some run =>
              rw [hRun] at hStep hWaiting
              have hWaits : waiting run = true := hWaiting
              obtain ⟨hOpen, hAttempts⟩ := Bool.and_eq_true_iff.1 hWaits
              have hNone : run.is_done = false := by simpa using hOpen
              have hZero : run.dispatch_attempts = 0 := by simpa using hAttempts
              have hDue := h.delayed run (List.mem_of_getElem? hRun) hZero
              have hSettles : (waiting run && run.not_before.isSome) = true := by rw [hWaits, hDue]; rfl
              have hSame := Option.some.inj hStep
              rw [← hSame]
              simp only [hSettles, if_true]
              have hCancelled : cancelled now run =
                  { run with is_done := true, latest_event_kind := "CANCELLED", finished_at := some now } := by
                simp [cancelled, hNone, hZero, hDue]
              exact h.control hCall hRun hNone (by rw [hCancelled]; exact ⟨rfl, hZero⟩) (by
                rw [hCancelled]
                exact hDue)
      | _ => cases hStep

/-- What holds or gives up the row. -/
theorem planner_balanced {s s' : Store} (h : Balanced s)
    (hStep : (∃ now, s.refill_lock now = some s') ∨ s.trigger_lock = some s' ∨ s.unlock = some s' ∨
      (∃ now input, s.create now input = some s') ∨ s.count = some s' ∨ ∃ now, s.move now = some s') :
    Balanced s' := by
  rcases hStep with ⟨now, hStep⟩ | hStep | hStep | ⟨now, input, hStep⟩ | hStep | ⟨now, hStep⟩
  · unfold Store.refill_lock at hStep
    split at hStep
    case isTrue hFree =>
      cases hStep
      exact h.with_lock (by rw [hFree.1]; nofun) nofun
    case isFalse => cases hStep
  · unfold Store.trigger_lock at hStep
    split at hStep
    case isTrue hFree =>
      cases hStep
      exact h.with_lock (by rw [hFree]; nofun) nofun
    case isFalse => cases hStep
  · unfold Store.unlock at hStep
    split at hStep
    case h_1 hLock =>
      cases hStep
      exact h.with_lock (by rw [hLock]; nofun) nofun
    case h_2 hLock =>
      cases hStep
      exact h.with_lock (by rw [hLock]; nofun) nofun
    case h_3 => cases hStep
  · unfold Store.create at hStep
    dsimp only at hStep
    split at hStep
    case h_1 hLock =>
      cases hStep
      exact h.created (by rw [hLock]; nofun) (assigned_delayed _ _ _)
    case h_2 hLock =>
      split at hStep
      case isTrue =>
        cases hStep
        exact h.created (by rw [hLock]; nofun) (assigned_delayed _ _ _)
      case isFalse => cases hStep
    case h_3 => cases hStep
  · unfold Store.count at hStep
    split at hStep
    case h_1 hLock =>
      cases hStep
      exact h.count hLock
    case h_2 => cases hStep
  · unfold Store.move at hStep
    split at hStep
    case h_1 r hLock hFirst =>
      have hWaiting := (List.findIdx?_eq_some_iff_getElem.1 hFirst)
      obtain ⟨hr, hOpen, -⟩ := hWaiting
      have hRun : s.runs[r]? = some s.runs[r] := List.getElem?_eq_getElem hr
      rw [hRun] at hStep
      have hSame := Option.some.inj hStep
      rw [← hSame]
      have hNone : s.runs[r].is_done = false := by
        simpa using (Bool.and_eq_true_iff.1 hOpen).1
      have hMoved : Balanced (s.run_to r { s.runs[r] with not_before := some now }) :=
        h.run_to hRun hNone fun _ => rfl
      apply hMoved.with_lock
      · show s.lock ≠ _
        rw [hLock]
        nofun
      · nofun
    case h_2 => cases hStep

/-- The count stays right where every control finds its run as it was read. -/
theorem next_balanced {s s' : Store} {a : Label} (h : Balanced s) (hUntouched : Untouched s a)
    (hStep : next s a = some s') : Balanced s' := by
  cases a with
  | call =>
      cases hStep
      exact h.call_started
  | read c => exact call_balanced h (.inl hStep)
  | check c permitted => exact call_balanced h (.inr (.inl ⟨permitted, hStep⟩))
  | control c now => exact control_balanced h hUntouched hStep
  | lower c => exact call_balanced h (.inr (.inr hStep))
  | refill_lock now => exact planner_balanced h (.inl ⟨now, hStep⟩)
  | trigger_lock => exact planner_balanced h (.inr (.inl hStep))
  | unlock => exact planner_balanced h (.inr (.inr (.inl hStep)))
  | create now input => exact planner_balanced h (.inr (.inr (.inr (.inl ⟨now, input, hStep⟩))))
  | count => exact planner_balanced h (.inr (.inr (.inr (.inr (.inl hStep)))))
  | move now => exact planner_balanced h (.inr (.inr (.inr (.inr (.inr ⟨now, hStep⟩)))))
  | claim_due r now =>
      apply open_step_balanced h hStep
      intro run _ _ hZero
      cases hZero
  | finalize r now =>
      apply open_step_balanced h hStep
      intro run _ hDelayed
      exact hDelayed
  | finish r kind now =>
      apply open_step_balanced h hStep
      intro run _ hDelayed
      exact hDelayed
  | cancel r now =>
      apply open_step_balanced h hStep
      intro run _ hDelayed
      exact cancelled_delayed hDelayed

/-! ## What the count says -/

/-- What is asked of the count: a call that returned lowered it exactly when it settled a run; what a
call settled was never handed over; and at rest the count is of the runs less those. -/
structure CountsWhatRan (s : Store) : Prop where
  each : ∀ c lowered, s.calls[c]? = some (.finished lowered) → (lowered = true ↔ c ∈ s.settled.map (·.1))
  waited : ∀ pair ∈ s.settled, ∃ run, s.runs[pair.2]? = some run ∧ run.is_done = true ∧
    run.dispatch_attempts = 0
  distinct : (s.settled.map (·.2)).Nodup
  at_rest : s.lock = none → (∀ call ∈ s.calls, ∃ lowered, call = .finished lowered) →
    s.schedule.run_count = (s.runs.length : Int) - (s.settled.length : Int)

/-- In every run in which each control finds the waiting run as its call read it, the count is of what
ran. -/
theorem run_count_counts {schedule : Schedule} {s : Store} (hRun : refunds.Run Untouched (fresh schedule) s) :
    CountsWhatRan s := by
  have hBalanced : Balanced s :=
    hRun.invariant (fresh_balanced schedule) fun _ _ _ h hUntouched hStep => next_balanced h hUntouched hStep
  constructor
  · intro c lowered hCall
    rw [← hBalanced.settled c, hCall]
    cases lowered <;> simp [settles]
  · intro pair hMem
    exact hBalanced.waited pair.2 (List.mem_map_of_mem hMem)
  · exact hBalanced.distinct
  · intro hLock hRest
    have hSame : s.calls.countP lowered = s.calls.countP settles := by
      apply List.countP_congr
      intro call hMem
      obtain ⟨b, rfl⟩ := hRest call hMem
      exact Iff.rfl
    have hNone : uncounted s = 0 := if_neg (by rw [hLock]; nofun)
    have hCounted := hBalanced.counted
    have hCalls := hBalanced.calls
    omega

/-! ## Plays -/

instance : ∀ (s : Store) (a : Label), Decidable (Untouched s a)
  | s, .control c _ =>
      match hCall : s.calls[c]? with
      | some (.checked r) =>
          decidable_of_iff ((s.runs[r]?).any waiting = true) (by
            constructor
            · intro h r' hr'
              have hSame : r = r' := by
                rw [hCall] at hr'
                cases hr'
                rfl
              rw [← hSame]
              exact h
            · intro h
              exact h r hCall)
      | none => isTrue (by intro r hr; rw [hCall] at hr; cases hr)
      | some .started => isTrue (by intro r hr; rw [hCall] at hr; cases hr)
      | some (.found _) => isTrue (by intro r hr; rw [hCall] at hr; cases hr)
      | some (.controlled _) => isTrue (by intro r hr; rw [hCall] at hr; cases hr)
      | some (.finished _) => isTrue (by intro r hr; rw [hCall] at hr; cases hr)
  | _, .call | _, .read _ | _, .check _ _ | _, .lower _ | _, .refill_lock _ | _, .trigger_lock | _, .unlock
  | _, .create _ _ | _, .count | _, .move _ | _, .claim_due _ _ | _, .finalize _ _ | _, .finish _ _ _
  | _, .cancel _ _ => isTrue trivial

instance (s : Store) (a : Label) : Decidable (System.anyStep s a) := isTrue trivial

/-- A schedule of every minute. -/
def every_minute : Schedule where
  id := 7
  target := { action_id := 1 }
  timing := { interval_seconds := some 60 }
  created_at := first_instant
  created_whole := first_instant_whole

/-- The assign of its first slot. -/
def first_slot : AssignInput :=
  every_minute.assign_input "schedule:7:1970-01-01T00:01:00+00:00" (some (second 60))

/-- A run is planned at half a minute, and a call reads it. -/
def planned_and_read : List Label :=
  [.refill_lock half_minute, .create half_minute first_slot, .count, .call, .read 0, .check 0 true]

def settled_in_time : List Label := planned_and_read ++ [.control 0 (second 31), .lower 0]

def dispatched_meanwhile : List Label :=
  planned_and_read ++ [.claim_due 0 (second 60), .control 0 (second 60), .lower 0]

/-- The call settles the run and takes it off the count. -/
theorem replanned :
    ∃ s, refunds.Run Untouched (fresh every_minute) s ∧ CountsWhatRan s ∧
      (s.calls = [.finished true] ∧ s.settled = [(0, 0)] ∧ s.schedule.run_count = 0) := by
  obtain ⟨s, hRun, hCheck⟩ := refunds.run_of_play_any Untouched (fresh every_minute) settled_in_time
    (fun s => s.calls = [.finished true] ∧ s.settled = [(0, 0)] ∧ s.schedule.run_count = 0) (by decide +kernel)
  exact ⟨s, hRun, run_count_counts hRun, by simpa using hCheck⟩

/-- The run is due between the call's read and its control, and is handed over: it is taken off the
count, and it runs. -/
theorem handed_over_and_refunded :
    ∃ s, refunds.Run System.anyStep (fresh every_minute) s ∧ ¬ CountsWhatRan s ∧
      (s.runs.map (·.dispatch_attempts) = [1] ∧ s.calls = [.finished true] ∧ s.settled = [] ∧
        s.schedule.run_count = 0) := by
  obtain ⟨s, hRun, hCheck⟩ := refunds.run_of_play_any System.anyStep (fresh every_minute) dispatched_meanwhile
    (fun s => s.runs.map (·.dispatch_attempts) = [1] ∧ s.calls = [.finished true] ∧ s.settled = [] ∧
      s.schedule.run_count = 0) (by decide +kernel)
  have hEnd : s.runs.map (·.dispatch_attempts) = [1] ∧ s.calls = [.finished true] ∧ s.settled = [] ∧
      s.schedule.run_count = 0 := by simpa using hCheck
  refine ⟨s, hRun, ?_, hEnd⟩
  intro h
  have hSettled := (h.each 0 true (by rw [hEnd.2.1]; rfl)).1 rfl
  rw [hEnd.2.2.1] at hSettled
  cases hSettled

end Rekuest.Schedules
