import Rekuest.Schedules.Planning

/-!
# Which slots are run

A schedule that catches up searches from the slot it planned last while fewer slots were
missed than its limit: at the limit itself it resumes from now.  A refill finds the first
slot that has no run among the first five.
-/

namespace Rekuest.Schedules

section Slots

variable {next : DateTime → Except Failure DateTime} {now last ahead : DateTime}

/-! ## Missed slots -/

/-- The slots after one instant and up to another, in order, and the one that follows them. -/
def Missed (next : DateTime → Except Failure DateTime) (now : DateTime) :
    DateTime → List DateTime → DateTime → Prop
  | last, [], ahead => next last = .ok ahead ∧ now < ahead
  | last, slot :: rest, ahead => next last = .ok slot ∧ slot ≤ now ∧ Missed next now slot rest ahead

/-- A timing whose slots increase from one instant to another. -/
def Increasing (next : DateTime → Except Failure DateTime) (last now : DateTime) : Prop :=
  ∀ t, last ≤ t → t ≤ now → ∃ slot, next t = .ok slot ∧ t < slot

/-- Slots that increase leave finitely many behind. -/
theorem exists_missed (hIncreasing : Increasing next last now) (hLast : last ≤ now) :
    ∃ slots ahead, Missed next now last slots ahead := by
  obtain ⟨gap, hGap⟩ : ∃ gap : Nat, (now.1 - last.1).toNat = gap := ⟨_, rfl⟩
  induction gap using Nat.strong_induction_on generalizing last with
  | _ gap ih =>
      obtain ⟨slot, hNext, hLater⟩ := hIncreasing last (le_refl _) hLast
      by_cases hPast : slot ≤ now
      · have hLess : (now.1 - slot.1).toNat < gap := by
          have h1 : last.1 < slot.1 := hLater
          have h2 : slot.1 ≤ now.1 := hPast
          omega
        have hRest : Increasing next slot now := by
          intro t hLow hHigh
          exact hIncreasing t (le_trans (le_of_lt hLater) hLow) hHigh
        obtain ⟨slots, ahead, hMissed⟩ := ih _ hLess hRest hPast rfl
        exact ⟨slot :: slots, ahead, hNext, hPast, hMissed⟩
      · exact ⟨[], slot, hNext, not_le.1 hPast⟩

/-- The search meets a slot after now when it steps further than the missed ones reach. -/
theorem passes_of_missed {slots : List DateTime} (hMissed : Missed next now last slots ahead)
    (n : Nat) : passes next now n last = .ok (slots.length < n : Bool) := by
  induction n generalizing last slots with
  | zero => simp [passes]
  | succ n ih =>
      cases slots with
      | nil =>
          obtain ⟨hNext, hAhead⟩ := hMissed
          unfold passes
          rw [hNext]
          show (if now < ahead then Except.ok true else _) = _
          rw [if_pos hAhead]
          simp
      | cons slot rest =>
          obtain ⟨hNext, hPast, hRest⟩ := hMissed
          unfold passes
          rw [hNext]
          show (if now < slot then Except.ok true else passes next now n slot) = _
          rw [if_neg (not_lt.2 hPast), ih hRest]
          simp

/-- What was missed at one instant was missed until the slot that follows. -/
theorem Missed.until {later : DateTime} {slots : List DateTime} (hMissed : Missed next now last slots ahead)
    (hLater : now ≤ later) (hAhead : later < ahead) : Missed next later last slots ahead := by
  induction slots generalizing last with
  | nil =>
      obtain ⟨hNext, -⟩ := hMissed
      exact ⟨hNext, hAhead⟩
  | cons slot rest ih =>
      obtain ⟨hNext, hPast, hRest⟩ := hMissed
      exact ⟨hNext, le_trans hPast hLater, ih hRest⟩

/-- The missed slots come one after another. -/
theorem Missed.increasing {slots : List DateTime} (hMissed : Missed next now last slots ahead)
    (hIncreasing : Increasing next last now) (hLast : last ≤ now) :
    (last :: slots).Pairwise (· < ·) := by
  induction slots generalizing last with
  | nil => exact List.pairwise_singleton _ _
  | cons slot rest ih =>
      obtain ⟨hNext, hPast, hRest⟩ := hMissed
      obtain ⟨slot', hNext', hLater⟩ := hIncreasing last (le_refl _) hLast
      have hSame : slot' = slot := Except.ok.inj (hNext'.symm.trans hNext)
      subst hSame
      have hTail := ih hRest (fun t hLow hHigh => hIncreasing t (le_trans (le_of_lt hLater) hLow) hHigh) hPast
      rw [List.pairwise_cons]
      refine ⟨?_, hTail⟩
      intro t hMem
      rcases List.mem_cons.1 hMem with rfl | hIn
      · exact hLater
      · exact lt_trans hLater ((List.pairwise_cons.1 hTail).1 t hIn)

end Slots

section Refill

variable {env : Env}

/-! ## References -/

/-- What chrono's printing and croner are documented to do: instants of different microseconds print
differently, and a cron line names whole minutes. -/
structure Documented (env : Env) : Prop where
  stamps : ∀ a b : DateTime, 1000 ∣ a.1 → 1000 ∣ b.1 → stamp env a = stamp env b → a = b
  slots : ∀ line zone after slot, env.croner.cron_slot line zone after = .ok slot → 1000 ∣ slot.1

/-- The slots of a schedule are whole microseconds. -/
theorem next_slot_whole (hDocumented : Documented env) {s : Schedule} {after slot : DateTime}
    (h : s.next_slot env after = .ok slot) : 1000 ∣ slot.1 := by
  unfold Schedule.next_slot Timing.next_slot at h
  cases hCron : s.timing.cron with
  | some line =>
      simp only [hCron] at h
      by_cases hParses : env.croner.parses line = true
      · by_cases hZone : env.croner.zone s.timing.timezone = true
        · simp only [parse, hParses, if_true, zone, hZone] at h
          cases hSlot : env.croner.cron_slot line s.timing.timezone after with
          | ok slot' =>
              rw [hSlot] at h
              have hSame := Except.ok.inj h
              exact hSame ▸ hDocumented.slots _ _ _ _ hSlot
          | error e =>
              rw [hSlot] at h
              cases h
        · simp only [parse, hParses, if_true, zone, hZone] at h
          cases h
      · simp only [parse, hParses] at h
        cases h
  | none =>
      simp only [hCron] at h
      cases hFilter : s.timing.interval_seconds.filter (1 ≤ ·) with
      | none =>
          rw [hFilter] at h
          cases h
      | some seconds =>
          simp only [hFilter] at h
          by_cases hBefore : after < s.created_at
          · rw [if_pos hBefore] at h
            have hSame := Except.ok.inj h
            exact hSame ▸ s.created_whole
          · rw [if_neg hBefore] at h
            by_cases hLong : seconds ≤ i64_max / 1000
            · have hDuration : duration seconds = .ok seconds := if_pos hLong
              rw [hDuration] at h
              change (do
                let n ← succ_i32 env.overflow_checks _
                let offset ← times seconds n
                date (s.created_at.1 + offset * 10 ^ 9)) = _ at h
              generalize succ_i32 env.overflow_checks _ = index at h
              cases index with
              | error e => cases h
              | ok n =>
                  have hAt := slot_of_times (n := n) h
                  have hWhole := s.created_whole
                  rw [← Int.mul_assoc] at hAt
                  omega
            · have hDuration : duration seconds = .error .panicked := if_neg hLong
              rw [hDuration] at h
              cases h

/-- Slots of one schedule that are named alike are one. -/
theorem slot_reference_inj (hDocumented : Documented env) {schedule : Int} {a b : DateTime}
    (ha : 1000 ∣ a.1) (hb : 1000 ∣ b.1)
    (h : slot_reference env schedule a = slot_reference env schedule b) : a = b := by
  unfold slot_reference at h
  have hStamps := congrArg String.toList h
  simp only [String.toList_append, List.append_assoc, List.append_cancel_left_eq] at hStamps
  exact hDocumented.stamps a b ha hb (String.toList_injective hStamps)

/-! ## A refill -/

/-- The run a slot gets. -/
def run_of (env : Env) (s : Schedule) (now : DateTime) (runs : List Run) (slot : DateTime) : Run :=
  assigned now (runs.length + 1) (s.assign_input (slot_reference env s.id slot) (some slot))

theorem assign_input_reference (s : Schedule) (reference : String) (not_before : Option DateTime) :
    (s.assign_input reference not_before).reference = reference := by
  unfold Schedule.assign_input
  cases s.target.agent_id <;> rfl

theorem assigned_reference (now : DateTime) (id : Int) (input : AssignInput) :
    (assigned now id input).reference = input.reference := by
  unfold assigned
  split <;> rfl

theorem assigned_open (now : DateTime) (id : Int) (input : AssignInput) :
    (assigned now id input).is_done = false := by
  unfold assigned
  split <;> rfl

theorem run_of_reference (s : Schedule) (now : DateTime) (runs : List Run) (slot : DateTime) :
    (run_of env s now runs slot).reference = slot_reference env s.id slot := by
  unfold run_of
  rw [assigned_reference, assign_input_reference]

/-- The caller is loaded, and the target takes every new assign. -/
structure Accepts (env : Env) (s : Schedule) : Prop where
  principal : env.principal = none
  assign : ∀ reference not_before, env.refusal (s.assign_input reference not_before) = none

/-- Whether a slot has its run. -/
def taken (env : Env) (state : State) (slot : DateTime) : Bool :=
  slot_has_run state.runs (slot_reference env state.schedule.id slot)

/-- The first slot after an instant that has no run yet, and the ones before it. -/
def FirstFree (next : DateTime → Except Failure DateTime) (has_run : DateTime → Bool) :
    DateTime → List DateTime → DateTime → Prop
  | after, [], slot => next after = .ok slot ∧ has_run slot = false
  | after, first :: rest, slot =>
      next after = .ok first ∧ has_run first = true ∧ FirstFree next has_run first rest slot

/-- A free slot's reference names a new run. -/
theorem assign_of_free {s : Schedule} {runs : List Run} {slot : DateTime} (hAccepts : Accepts env s)
    (hFree : slot_has_run runs (slot_reference env s.id slot) = false) (now : DateTime) :
    assign_with_status env now runs (s.assign_input (slot_reference env s.id slot) (some slot)) =
      .ok (true, runs ++ [run_of env s now runs slot]) := by
  have hFind : runs.find? (·.reference =
      (s.assign_input (slot_reference env s.id slot) (some slot)).reference) = none := by
    rw [assign_input_reference, List.find?_eq_none]
    intro run hMem hSame
    have hAny : slot_has_run runs (slot_reference env s.id slot) = true :=
      List.any_eq_true.2 ⟨run, hMem, hSame⟩
    rw [hFree] at hAny
    cases hAny
  unfold assign_with_status
  rw [hFind]
  dsimp only
  rw [hAccepts.assign]
  rfl

/-- The loop past a slot that has its run. -/
theorem plan_slots_taken {s : Schedule} {now after slot : DateTime} {runs : List Run} {n : Nat}
    (hNext : s.next_slot env after = .ok slot) (hEnd : s.ends_at.any (· < slot) = false)
    (hTaken : slot_has_run runs (slot_reference env s.id slot) = true) :
    plan_slots env s now (n + 1) after runs = plan_slots env s now n slot runs := by
  show (do
    let slot ← s.next_slot env after
    if s.ends_at.any (· < slot) then Except.ok (none, runs) else _) = _
  rw [hNext]
  show (if s.ends_at.any (· < slot) then Except.ok (none, runs) else _) = _
  rw [if_neg (by simp [hEnd]), if_pos hTaken]

/-- The loop at a free slot. -/
theorem plan_slots_free {s : Schedule} {now after slot : DateTime} {runs : List Run} {n : Nat}
    (hAccepts : Accepts env s) (hNext : s.next_slot env after = .ok slot)
    (hEnd : s.ends_at.any (· < slot) = false)
    (hFree : slot_has_run runs (slot_reference env s.id slot) = false) :
    plan_slots env s now (n + 1) after runs = .ok (some slot, runs ++ [run_of env s now runs slot]) := by
  show (do
    let slot ← s.next_slot env after
    if s.ends_at.any (· < slot) then Except.ok (none, runs) else _) = _
  rw [hNext]
  show (if s.ends_at.any (· < slot) then Except.ok (none, runs) else _) = _
  rw [if_neg (by simp [hEnd]), if_neg (by simp [hFree]), assign_of_free hAccepts hFree]
  rfl

/-- Past the end nothing is planned. -/
theorem plan_slots_ended {s : Schedule} {now after slot : DateTime} {runs : List Run} {n : Nat}
    (hNext : s.next_slot env after = .ok slot) (hEnd : s.ends_at.any (· < slot) = true) :
    plan_slots env s now (n + 1) after runs = .ok (none, runs) := by
  show (do
    let slot ← s.next_slot env after
    if s.ends_at.any (· < slot) then Except.ok (none, runs) else _) = _
  rw [hNext]
  show (if s.ends_at.any (· < slot) then Except.ok (none, runs) else _) = _
  rw [if_pos hEnd]

/-- The loop reaches the first free slot within its steps and before the end. -/
theorem plan_slots_of_firstFree {s : Schedule} {now slot : DateTime} {runs : List Run}
    (hAccepts : Accepts env s) {before : List DateTime} {n : Nat} {after : DateTime}
    (hFree : FirstFree (s.next_slot env)
      (fun slot => slot_has_run runs (slot_reference env s.id slot)) after before slot)
    (hSteps : before.length < n) (hEnd : s.ends_at.any (· < slot) = false)
    (hEarlier : ∀ t ∈ before, s.ends_at.any (· < t) = false) :
    plan_slots env s now n after runs = .ok (some slot, runs ++ [run_of env s now runs slot]) := by
  induction before generalizing n after with
  | nil =>
      obtain ⟨hNext, hNone⟩ := hFree
      cases n with
      | zero => cases hSteps
      | succ n => exact plan_slots_free hAccepts hNext hEnd hNone
  | cons first rest ih =>
      obtain ⟨hNext, hTaken, hRest⟩ := hFree
      cases n with
      | zero => cases hSteps
      | succ n =>
          rw [plan_slots_taken hNext (hEarlier first (by simp)) hTaken]
          exact ih hRest (by simpa using hSteps) fun t hMem => hEarlier t (by simp [hMem])

/-- Only so a run is planned. -/
theorem firstFree_of_plan_slots {s : Schedule} {now slot planned : DateTime} {runs later : List Run}
    {before : List DateTime} {n : Nat} {after : DateTime}
    (hFree : FirstFree (s.next_slot env)
      (fun slot => slot_has_run runs (slot_reference env s.id slot)) after before slot)
    (h : plan_slots env s now n after runs = .ok (some planned, later)) :
    before.length < n ∧ s.ends_at.any (· < slot) = false := by
  induction before generalizing n after with
  | nil =>
      obtain ⟨hNext, hNone⟩ := hFree
      cases n with
      | zero => cases h
      | succ n =>
          by_cases hEnd : s.ends_at.any (· < slot) = true
          · rw [plan_slots_ended hNext hEnd] at h
            cases h
          · exact ⟨by simp, by simpa using hEnd⟩
  | cons first rest ih =>
      obtain ⟨hNext, hTaken, hRest⟩ := hFree
      cases n with
      | zero => cases h
      | succ n =>
          by_cases hEnd : s.ends_at.any (· < first) = true
          · rw [plan_slots_ended hNext hEnd] at h
            cases h
          · rw [plan_slots_taken hNext (by simpa using hEnd) hTaken] at h
            have hBoth := ih hRest h
            exact ⟨by simpa using hBoth.1, hBoth.2⟩

/-- A schedule that is due a run. -/
structure Due (env : Env) (state : State) (now : DateTime) : Prop where
  enabled : state.schedule.enabled = true
  running : state.schedule.ended now = false
  unblocked : has_blocking_run state.schedule state.runs = false
  ready : state.schedule.refill_after.any (now < ·) = false
  accepts : Accepts env state.schedule

/-- A refill of a schedule that is due comes down to its loop. -/
theorem refill_of_due {state : State} {now after : DateTime} (hDue : Due env state now)
    (hSearch : state.schedule.search_from env now = .ok after)
    {slot : DateTime} {runs : List Run}
    (hPlan : plan_slots env state.schedule now MAX_SLOT_SKIPS after state.runs = .ok (some slot, runs)) :
    refill_one env now state =
      some (true, ⟨state.schedule.planned state.runs.getLast? runs slot, runs⟩) := by
  have hNext : plan_next env state.schedule now state.runs = .ok (some slot, runs) := by
    unfold plan_next
    rw [hDue.accepts.principal]
    show (do
      let after ← state.schedule.search_from env now
      plan_slots env state.schedule now MAX_SLOT_SKIPS after state.runs) = _
    rw [hSearch]
    exact hPlan
  unfold refill_one
  simp only [hDue.enabled, hDue.running, hDue.unblocked, hDue.ready, Bool.not_true, Bool.or_self,
    Bool.false_eq_true, if_false, hNext]

/-- A run was created by the loop. -/
theorem plan_of_refill {state later : State} {now after : DateTime} (hDue : Due env state now)
    (hSearch : state.schedule.search_from env now = .ok after)
    (h : refill_one env now state = some (true, later)) :
    ∃ slot runs, plan_slots env state.schedule now MAX_SLOT_SKIPS after state.runs =
      .ok (some slot, runs) := by
  have hNext : plan_next env state.schedule now state.runs =
      plan_slots env state.schedule now MAX_SLOT_SKIPS after state.runs := by
    unfold plan_next
    rw [hDue.accepts.principal]
    show (do
      let after ← state.schedule.search_from env now
      plan_slots env state.schedule now MAX_SLOT_SKIPS after state.runs) = _
    rw [hSearch]
    rfl
  unfold refill_one at h
  simp only [hDue.enabled, hDue.running, hDue.unblocked, hDue.ready, Bool.not_true, Bool.or_self,
    Bool.false_eq_true, if_false, hNext] at h
  generalize plan_slots env state.schedule now MAX_SLOT_SKIPS after state.runs = outcome at h ⊢
  cases outcome with
  | ok pair =>
      obtain ⟨planned, runs⟩ := pair
      cases planned with
      | some slot => exact ⟨slot, runs, rfl⟩
      | none => cases h
  | error failure =>
      cases failure with
      | panicked => cases h
      | refused e =>
          dsimp only at h
          split at h <;> cases h

end Refill

end Rekuest.Schedules
