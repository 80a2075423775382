import Rekuest.Schedules.Slots

/-!
# Catching up, and edits

What repeated refills do with the slots that were missed, and what is left to plan after a
schedule was edited again and again before its first slot came: each edit leaves a cancelled
run that keeps its slot.
-/

namespace Rekuest.Schedules

section Runs

variable {env : Env}

/-! ## Catching up -/

/-- Where the search of a schedule starts that was last planned before now and catches up. -/
theorem search_from_of_missed {s : Schedule} {now last ahead : DateTime} {slots : List DateTime}
    (hCatch : s.catch_up = true) (hLast : s.last_slot_at = some last) (hPast : last < now)
    (hMissed : Missed (s.next_slot env) now last slots ahead) :
    s.search_from env now = .ok (if slots.length < MAX_CATCH_UP then last else now) := by
  have hFilter : s.last_slot_at.filter (fun last => s.catch_up && last < now) = some last := by
    rw [hLast]
    simp [Option.filter, hCatch, hPast]
  unfold Schedule.search_from
  rw [hFilter]
  show (do
    let caught ← passes (s.next_slot env) now MAX_CATCH_UP last
    if caught then Except.ok last else Except.ok now) = _
  rw [passes_of_missed hMissed]
  by_cases hFew : slots.length < MAX_CATCH_UP <;> simp [hFew] <;> rfl

/-- The runs of a state ended, as they may. -/
def Settled (before after : State) : Prop :=
  after.schedule = before.schedule ∧
    List.Forall₂ (fun run run' => run'.reference = run.reference ∧ run'.is_done = true)
      before.runs after.runs

/-- Refills at some instants, each once the run before has ended, create one run for each of some
slots, in their order. -/
def RunInOrder (env : Env) : List DateTime → List DateTime → State → Prop
  | [], _, _ => True
  | _, [], _ => True
  | now :: times, slot :: slots, state =>
      ∃ later run, refill_one env now state = some (true, later) ∧
        later.runs = state.runs ++ [run] ∧
        run.reference = slot_reference env state.schedule.id slot ∧
        later.schedule.last_slot_at = some slot ∧
        ∀ settled, Settled later settled → RunInOrder env times slots settled

/-- A schedule between two runs that has some slots left to run: none of them has its run, and
`max_runs` leaves room for them. -/
structure Waits (env : Env) (state : State) (now : DateTime) (slots : List DateTime) : Prop where
  enabled : state.schedule.enabled = true
  catch_up : state.schedule.catch_up = true
  done : ∀ run ∈ state.runs, run.is_done = true
  free : ∀ slot ∈ slots, taken env state slot = false
  room : ∀ most, state.schedule.max_runs = some most → state.schedule.run_count + slots.length ≤ most
  ready : state.schedule.refill_after.any (now < ·) = false
  accepts : Accepts env state.schedule

/-- What is asked of a schedule that catches up: it resumes from its last slot and runs each
missed slot once, in order, or it resumes from now. -/
def CatchesUp (env : Env) (state : State) (last now : DateTime) (slots : List DateTime)
    (ahead : DateTime) : Prop :=
  (slots.length ≤ MAX_CATCH_UP →
    state.schedule.search_from env now = .ok last ∧
      (Waits env state now slots → ∀ times : List DateTime,
        (∀ t ∈ times, now ≤ t ∧ t < ahead ∧ ∀ limit, state.schedule.ends_at = some limit → t < limit) →
          RunInOrder env times slots state)) ∧
    (MAX_CATCH_UP < slots.length → state.schedule.search_from env now = .ok now)

theorem has_blocking_run_of_done {s : Schedule} {runs : List Run}
    (h : ∀ run ∈ runs, run.is_done = true) : has_blocking_run s runs = false := by
  unfold has_blocking_run
  rw [List.any_eq_false]
  intro run hMem
  simp [h run hMem]

/-- Ended runs keep their references. -/
theorem slot_has_run_of_settled {runs runs' : List Run} {reference : String}
    (h : List.Forall₂ (fun run run' => run'.reference = run.reference ∧ run'.is_done = true) runs runs') :
    slot_has_run runs' reference = slot_has_run runs reference := by
  induction h with
  | nil => rfl
  | cons hHead _ ih =>
      unfold slot_has_run at ih ⊢
      rw [List.any_cons, List.any_cons, hHead.1, ih]

theorem done_of_settled {runs runs' : List Run}
    (h : List.Forall₂ (fun run run' => run'.reference = run.reference ∧ run'.is_done = true) runs runs') :
    ∀ run ∈ runs', run.is_done = true := by
  induction h with
  | nil =>
      intro run hMem
      cases hMem
  | cons hHead _ ih =>
      intro run hMem
      rcases List.mem_cons.1 hMem with rfl | hIn
      · exact hHead.2
      · exact ih run hIn

/-- The missed slots are whole microseconds. -/
theorem missed_whole (hDocumented : Documented env) {s : Schedule} {now last ahead : DateTime}
    {slots : List DateTime} (hMissed : Missed (s.next_slot env) now last slots ahead) :
    ∀ slot ∈ slots, 1000 ∣ slot.1 := by
  induction slots generalizing last with
  | nil =>
      intro slot hMem
      cases hMem
  | cons first rest ih =>
      obtain ⟨hNext, -, hRest⟩ := hMissed
      intro slot hMem
      rcases List.mem_cons.1 hMem with rfl | hIn
      · exact next_slot_whole hDocumented hNext
      · exact ih hRest slot hIn

/-- A schedule that missed few slots resumes from the one it planned last, be it this very instant. -/
theorem search_from_resumes {s : Schedule} {now last ahead : DateTime} {slots : List DateTime}
    (hCatch : s.catch_up = true) (hLast : s.last_slot_at = some last) (hPast : last ≤ now)
    (hMissed : Missed (s.next_slot env) now last slots ahead) (hFew : slots.length < MAX_CATCH_UP) :
    s.search_from env now = .ok last := by
  by_cases hNow : last < now
  · rw [search_from_of_missed hCatch hLast hNow hMissed, if_pos hFew]
  · have hSame : last = now := le_antisymm hPast (not_lt.1 hNow)
    have hFilter : s.last_slot_at.filter (fun last => s.catch_up && last < now) = none := by
      rw [hLast]
      simp [Option.filter, hNow]
    unfold Schedule.search_from
    rw [hFilter, hSame]

/-- The refill of a schedule that waits plans the oldest missed slot, and it waits for the rest. -/
theorem refill_oldest (hDocumented : Documented env) {state : State} {now t last ahead slot : DateTime}
    {rest : List DateTime} (hWaits : Waits env state now (slot :: rest))
    (hLast : state.schedule.last_slot_at = some last) (hPast : last ≤ now)
    (hMissed : Missed (state.schedule.next_slot env) now last (slot :: rest) ahead)
    (hOrder : (slot :: rest).Pairwise (· < ·)) (hFew : (slot :: rest).length < MAX_CATCH_UP)
    (hNow : now ≤ t) (hAhead : t < ahead)
    (hEnd : ∀ limit, state.schedule.ends_at = some limit → t < limit) :
    ∃ later run, refill_one env t state = some (true, later) ∧ later.runs = state.runs ++ [run] ∧
      run.reference = slot_reference env state.schedule.id slot ∧
      later.schedule = state.schedule.planned state.runs.getLast? later.runs slot ∧
      ∀ settled, Settled later settled → Waits env settled now rest := by
  obtain ⟨hNext, hIn, -⟩ := id hMissed
  have hRoom : ∀ most, state.schedule.max_runs = some most → ¬ most ≤ state.schedule.run_count := by
    intro most hMost
    have := hWaits.room most hMost
    rw [List.length_cons] at this
    omega
  have hDue : Due env state t := by
    constructor
    · exact hWaits.enabled
    · unfold Schedule.ended
      rw [Bool.or_eq_false_iff]
      constructor
      · rw [Option.any_eq_false]
        intro limit hLimit
        simpa using hEnd limit hLimit
      · rw [Option.any_eq_false]
        intro most hMost
        simpa using hRoom most hMost
    · exact has_blocking_run_of_done hWaits.done
    · rw [Option.any_eq_false]
      intro ready hReady
      have hBefore := (Option.any_eq_false _ _).1 hWaits.ready ready hReady
      have hLe : ready ≤ now := by simpa using hBefore
      simpa using le_trans hLe hNow
    · exact hWaits.accepts
  have hSearch : state.schedule.search_from env t = .ok last :=
    search_from_resumes hWaits.catch_up hLast (le_trans hPast hNow) (hMissed.until hNow hAhead) hFew
  have hOpen : state.schedule.ends_at.any (· < slot) = false := by
    rw [Option.any_eq_false]
    intro limit hLimit
    have hBefore := hEnd limit hLimit
    simpa using le_of_lt (lt_of_le_of_lt (le_trans hIn hNow) hBefore)
  have hPlan : plan_slots env state.schedule t MAX_SLOT_SKIPS last state.runs =
      .ok (some slot, state.runs ++ [run_of env state.schedule t state.runs slot]) :=
    plan_slots_free hWaits.accepts hNext hOpen (hWaits.free slot (by simp))
  refine ⟨_, run_of env state.schedule t state.runs slot, refill_of_due hDue hSearch hPlan, rfl,
    run_of_reference _ _ _ _, rfl, ?_⟩
  intro settled hSettled
  obtain ⟨hSchedule, hRuns⟩ := hSettled
  constructor
  · rw [hSchedule]
    exact hWaits.enabled
  · rw [hSchedule]
    exact hWaits.catch_up
  · exact done_of_settled hRuns
  · intro other hMem
    have hNe : slot_reference env state.schedule.id slot ≠ slot_reference env state.schedule.id other := by
      intro hSame
      have hWhole := missed_whole hDocumented hMissed
      have hEq := slot_reference_inj hDocumented (hWhole slot (by simp)) (hWhole other (by simp [hMem])) hSame
      have hLess := (List.pairwise_cons.1 hOrder).1 other hMem
      rw [hEq] at hLess
      exact lt_irrefl _ hLess
    have hFree := hWaits.free other (by simp [hMem])
    unfold taken at hFree ⊢
    rw [hSchedule, slot_has_run_of_settled hRuns]
    show slot_has_run (state.runs ++ [_]) (slot_reference env state.schedule.id other) = false
    unfold slot_has_run at hFree ⊢
    rw [List.any_append, hFree, List.any_cons, run_of_reference]
    simp [hNe]
  · rw [hSchedule]
    intro most hMost
    have hLess := hWaits.room most hMost
    rw [List.length_cons] at hLess
    show state.schedule.run_count + 1 + rest.length ≤ most
    omega
  · rw [hSchedule]
    rfl
  · rw [hSchedule]
    exact ⟨hWaits.accepts.principal, hWaits.accepts.assign⟩

/-- Refills before the next slot comes run what was missed, in order. -/
theorem runInOrder_of_missed (hDocumented : Documented env) {now last ahead : DateTime}
    {times slots : List DateTime} {state : State} (hWaits : Waits env state now slots)
    (hLast : state.schedule.last_slot_at = some last) (hPast : last ≤ now)
    (hMissed : Missed (state.schedule.next_slot env) now last slots ahead)
    (hOrder : slots.Pairwise (· < ·)) (hFew : slots.length < MAX_CATCH_UP)
    (hTimes : ∀ t ∈ times, now ≤ t ∧ t < ahead ∧
      ∀ limit, state.schedule.ends_at = some limit → t < limit) :
    RunInOrder env times slots state := by
  induction times generalizing slots last state with
  | nil => trivial
  | cons t times ih =>
      cases slots with
      | nil => trivial
      | cons slot rest =>
          obtain ⟨hNow, hAhead, hEnd⟩ := hTimes t (by simp)
          obtain ⟨later, run, hRefill, hRuns, hReference, hLater, hThen⟩ :=
            refill_oldest hDocumented hWaits hLast hPast hMissed hOrder hFew hNow hAhead hEnd
          refine ⟨later, run, hRefill, hRuns, hReference, by rw [hLater]; rfl, ?_⟩
          intro settled hSettled
          obtain ⟨-, hIn, hRest⟩ := hMissed
          have hSchedule : settled.schedule = state.schedule.planned state.runs.getLast? later.runs slot :=
            hSettled.1.trans hLater
          have hNext : settled.schedule.next_slot env = state.schedule.next_slot env := by
            rw [hSchedule]
            rfl
          have hLast' : settled.schedule.last_slot_at = some slot := by
            rw [hSchedule]
            rfl
          apply ih (hThen settled hSettled) hLast'
          · exact hIn
          · rw [hNext]
            exact hRest
          · exact (List.pairwise_cons.1 hOrder).2
          · rw [List.length_cons] at hFew
            omega
          · intro t' hMem
            rw [hSchedule]
            exact hTimes t' (by simp [hMem])

theorem FirstFree.earlier {next : DateTime → Except Failure DateTime} {has_run : DateTime → Bool}
    {after slot : DateTime} {before : List DateTime} (hFree : FirstFree next has_run after before slot)
    (hIncreasing : ∀ t ∈ after :: before, ∀ later, next t = .ok later → t < later) :
    ∀ t ∈ before, t < slot := by
  induction before generalizing after with
  | nil =>
      intro t hMem
      cases hMem
  | cons first rest ih =>
      obtain ⟨-, -, hRest⟩ := hFree
      have hTail := ih hRest fun t hMem => hIncreasing t (by simp [List.mem_cons.1 hMem])
      intro t hMem
      rcases List.mem_cons.1 hMem with rfl | hIn
      · cases rest with
        | nil => exact hIncreasing t (by simp) slot hRest.1
        | cons second rest =>
            exact lt_trans (hIncreasing t (by simp) second hRest.1) (hTail second (by simp))
      · exact hTail t hIn

/-- A schedule that is due gets the run of the first slot that has none, if that is among the first
five and not past its end. -/
theorem refill_creates {state : State} {now after slot : DateTime} {before : List DateTime}
    (hDue : Due env state now) (hSearch : state.schedule.search_from env now = .ok after)
    (hFree : FirstFree (state.schedule.next_slot env) (taken env state) after before slot)
    (hIncreasing : ∀ t ∈ after :: before, ∀ later, state.schedule.next_slot env t = .ok later → t < later)
    (hSteps : before.length < MAX_SLOT_SKIPS)
    (hEnd : ∀ limit, state.schedule.ends_at = some limit → slot ≤ limit) :
    refill_one env now state = some (true,
      ⟨state.schedule.planned state.runs.getLast?
          (state.runs ++ [run_of env state.schedule now state.runs slot]) slot,
        state.runs ++ [run_of env state.schedule now state.runs slot]⟩) := by
  have hOpen : ∀ t, t ≤ slot → state.schedule.ends_at.any (· < t) = false := by
    intro t hLe
    rw [Option.any_eq_false]
    intro limit hLimit
    simpa using le_trans hLe (hEnd limit hLimit)
  apply refill_of_due hDue hSearch
  apply plan_slots_of_firstFree hDue.accepts hFree hSteps (hOpen slot (le_refl _))
  intro t hMem
  exact hOpen t (le_of_lt (hFree.earlier hIncreasing t hMem))

/-! ## Edits before the first slot -/

/-- What planning leaves of a schedule. -/
structure Same (origin s : Schedule) : Prop where
  id : s.id = origin.id
  enabled : s.enabled = origin.enabled
  target : s.target = origin.target
  timing : s.timing = origin.timing
  created_at : s.created_at = origin.created_at
  ends_at : s.ends_at = origin.ends_at
  max_runs : s.max_runs = origin.max_runs

theorem Same.refl (s : Schedule) : Same s s := ⟨rfl, rfl, rfl, rfl, rfl, rfl, rfl⟩

theorem Same.next {origin s : Schedule} (h : Same origin s) : s.next_slot env = origin.next_slot env := by
  unfold Schedule.next_slot
  rw [h.timing, h.created_at]

theorem Same.accepts {origin s : Schedule} (h : Same origin s) (hAccepts : Accepts env origin) :
    Accepts env s := by
  constructor
  · exact hAccepts.principal
  · intro reference not_before
    have hInput : s.assign_input reference not_before = origin.assign_input reference not_before := by
      unfold Schedule.assign_input
      rw [h.target]
    rw [hInput]
    exact hAccepts.assign reference not_before

/-- A schedule whose edits took the first so many slots, without a waiting run. -/
structure Closed (env : Env) (origin : Schedule) (slots : List DateTime) (k : Nat) (state : State) :
    Prop where
  same : Same origin state.schedule
  done : ∀ run ∈ state.runs, run.is_done = true
  held : ∀ i slot, slots[i]? = some slot → taken env state slot = (i < k : Bool)
  planned : ∀ last, state.schedule.last_slot_at = some last → ∀ first ∈ slots.head?, first ≤ last
  counted : 0 ≤ state.schedule.run_count
  room : ∀ most, origin.max_runs = some most → state.schedule.run_count < most

/-- The same, with the run of the last one waiting. -/
structure Planned (env : Env) (origin : Schedule) (slots : List DateTime) (k : Nat) (state : State) :
    Prop where
  same : Same origin state.schedule
  last : ∃ done run, state.runs = done ++ [run] ∧ (∀ run ∈ done, run.is_done = true) ∧
    run.is_done = false ∧ run.dispatch_attempts = 0 ∧ run.not_before.isSome = true
  held : ∀ i slot, slots[i]? = some slot → taken env state slot = (i < k : Bool)
  planned : ∀ last, state.schedule.last_slot_at = some last → ∀ first ∈ slots.head?, first ≤ last
  counted : 0 < state.schedule.run_count
  room : ∀ most, origin.max_runs = some most → state.schedule.run_count ≤ most

/-- Without a waiting run there is nothing to cancel. -/
theorem cancel_of_done {now : DateTime} {state : State} (h : ∀ run ∈ state.runs, run.is_done = true) :
    cancel_waiting_run now state = state := by
  have hNone : state.runs.findIdx? waiting = none := by
    rw [List.findIdx?_eq_none_iff]
    intro run hMem
    simp [waiting, h run hMem]
  unfold cancel_waiting_run
  rw [hNone]

/-- Cancelling the waiting run leaves it its slot. -/
theorem Planned.cancel {origin : Schedule} {slots : List DateTime} {k : Nat} {state : State}
    (h : Planned env origin slots k state) (now : DateTime) :
    Closed env origin slots k (cancel_waiting_run now state) := by
  obtain ⟨done, run, hRuns, hDone, hOpen, hAttempts, hDue⟩ := h.last
  have hIndex : state.runs.findIdx? waiting = some done.length := by
    have hNone : done.findIdx? waiting = none := by
      rw [List.findIdx?_eq_none_iff]
      intro run hMem
      simp [waiting, hDone run hMem]
    have hWaiting : waiting run = true := by simp [waiting, hOpen, hAttempts]
    rw [hRuns, List.findIdx?_append, hNone, List.findIdx?_cons, hWaiting]
    simp
  have hState : cancel_waiting_run now state =
      { schedule := { state.schedule with run_count := less_one state.schedule.run_count }
        runs := done ++ [cancelled now run] } := by
    unfold cancel_waiting_run
    rw [hIndex, hRuns]
    show State.mk _ ((done ++ [run]).modify done.length (cancelled now)) = _
    rw [List.modify_eq_take_cons_drop (by simp)]
    simp
  have hCancelled : cancelled now run =
      { run with is_done := true, latest_event_kind := "CANCELLED", finished_at := some now } := by
    simp [cancelled, hOpen, hAttempts, hDue]
  rw [hState]
  constructor
  · exact ⟨h.same.id, h.same.enabled, h.same.target, h.same.timing, h.same.created_at, h.same.ends_at,
      h.same.max_runs⟩
  · intro other hMem
    rcases List.mem_append.1 hMem with hIn | hLast
    · exact hDone other hIn
    · rw [List.mem_singleton.1 hLast, hCancelled]
  · intro i slot hSlot
    have hTaken := h.held i slot hSlot
    unfold taken slot_has_run at hTaken ⊢
    rw [hRuns] at hTaken
    rw [← hTaken, hCancelled]
    simp
  · exact h.planned
  · show 0 ≤ less_one state.schedule.run_count
    rw [less_one_of_pos h.counted]
    have := h.counted
    omega
  · intro most hMost
    have hRoom := h.room most hMost
    have hCounted := h.counted
    show less_one state.schedule.run_count < most
    rw [less_one_of_pos hCounted]
    omega

theorem firstFree_of_chain {next : DateTime → Except Failure DateTime} {has_run : DateTime → Bool}
    {after slot : DateTime} {slots : List DateTime} {k : Nat} (hChain : Chain next after slots)
    (hSlot : slots[k]? = some slot)
    (hTaken : ∀ i slot, slots[i]? = some slot → has_run slot = (i < k : Bool)) :
    FirstFree next has_run after (slots.take k) slot := by
  induction slots generalizing after k with
  | nil => simp at hSlot
  | cons first rest ih =>
      obtain ⟨hNext, hRest⟩ := hChain
      cases k with
      | zero =>
          have hSame : first = slot := by simpa using hSlot
          subst hSame
          exact ⟨hNext, by simpa using hTaken 0 first rfl⟩
      | succ k =>
          refine ⟨hNext, by simpa using hTaken 0 first rfl, ih hRest (by simpa using hSlot) ?_⟩
          intro i other hOther
          have := hTaken (i + 1) other (by simpa using hOther)
          simpa using this

/-- The loop gives up when all slots it looks at have their runs. -/
theorem plan_slots_full {s : Schedule} {now after : DateTime} {runs : List Run} {slots : List DateTime}
    (hChain : Chain (s.next_slot env) after slots)
    (hTaken : ∀ slot ∈ slots, slot_has_run runs (slot_reference env s.id slot) = true)
    (hEnd : ∀ slot ∈ slots, s.ends_at.any (· < slot) = false) :
    plan_slots env s now slots.length after runs =
      .error (.refused (toString MAX_SLOT_SKIPS ++ " consecutive slots already had a run")) := by
  induction slots generalizing after with
  | nil => rfl
  | cons slot rest ih =>
      obtain ⟨hNext, hRest⟩ := hChain
      rw [List.length_cons, plan_slots_taken hNext (hEnd slot (by simp)) (hTaken slot (by simp))]
      exact ih hRest (fun t hMem => hTaken t (by simp [hMem])) fun t hMem => hEnd t (by simp [hMem])

/-- A schedule that is edited before the first of its next slots, which all lie before its end. -/
structure Edited (env : Env) (origin : Schedule) (slots : List DateTime) (now : DateTime) : Prop where
  enabled : origin.enabled = true
  accepts : Accepts env origin
  chain : Chain (origin.next_slot env) now slots
  whole : ∀ slot ∈ slots, 1000 ∣ slot.1
  order : (now :: slots).Pairwise (· < ·)
  limit : ∀ limit, origin.ends_at = some limit → ∀ slot ∈ slots, slot ≤ limit
  length : slots.length = MAX_SLOT_SKIPS
  /-- The clock is a minute from its last instant. -/
  clock : now.1 + REFILL_RETRY_SECONDS * 10 ^ 9 ≤ max_utc

section Edit

variable {origin : Schedule} {slots : List DateTime} {now : DateTime}

theorem Edited.first (hEdited : Edited env origin slots now) : ∃ first ∈ slots.head?, now < first := by
  have hLength := hEdited.length
  have hOrder := hEdited.order
  cases slots with
  | nil => simp [MAX_SLOT_SKIPS] at hLength
  | cons first rest =>
      exact ⟨first, rfl, (List.pairwise_cons.1 hOrder).1 first (by simp)⟩

/-- Between edits the search starts now: what was planned last lies ahead. -/
theorem Closed.search_from {k : Nat} {state : State} (hClosed : Closed env origin slots k state)
    (hEdited : Edited env origin slots now) : state.schedule.search_from env now = .ok now := by
  obtain ⟨first, hFirst, hAhead⟩ := hEdited.first
  have hFilter : state.schedule.last_slot_at.filter
      (fun last => state.schedule.catch_up && last < now) = none := by
    cases hLast : state.schedule.last_slot_at with
    | none => rfl
    | some last =>
        have hLe := hClosed.planned last hLast first hFirst
        have hNot : ¬ last < now := not_lt.2 (le_of_lt (lt_of_lt_of_le hAhead hLe))
        simp [Option.filter, hNot]
  unfold Schedule.search_from
  rw [hFilter]

theorem Closed.due {k : Nat} {state : State} (hClosed : Closed env origin slots k state)
    (hEdited : Edited env origin slots now) (hReady : state.schedule.refill_after = none) :
    Due env state now := by
  obtain ⟨first, hFirst, hAhead⟩ := hEdited.first
  constructor
  · rw [hClosed.same.enabled]
    exact hEdited.enabled
  · unfold Schedule.ended
    rw [Bool.or_eq_false_iff, hClosed.same.ends_at, hClosed.same.max_runs]
    constructor
    · rw [Option.any_eq_false]
      intro limit hLimit
      have hLe := hEdited.limit limit hLimit first (List.mem_of_mem_head? hFirst)
      simpa using lt_of_lt_of_le hAhead hLe
    · rw [Option.any_eq_false]
      intro most hMost
      simpa using hClosed.room most hMost
  · exact has_blocking_run_of_done hClosed.done
  · rw [hReady]
    rfl
  · exact hClosed.same.accepts hEdited.accepts

/-- What a state looks like when its backoff is forgotten. -/
theorem Closed.forget {k : Nat} {state : State} (hClosed : Closed env origin slots k state) :
    Closed env origin slots k { state with schedule := { state.schedule with refill_after := none } } :=
  ⟨⟨hClosed.same.id, hClosed.same.enabled, hClosed.same.target, hClosed.same.timing,
    hClosed.same.created_at, hClosed.same.ends_at, hClosed.same.max_runs⟩, hClosed.done, hClosed.held,
    hClosed.planned, hClosed.counted, hClosed.room⟩

/-- One of the first five edits plans the next of the slots. -/
theorem Closed.refill (hDocumented : Documented env) {k : Nat} {state : State}
    (hClosed : Closed env origin slots k state) (hEdited : Edited env origin slots now)
    (hReady : state.schedule.refill_after = none) (hk : k < MAX_SLOT_SKIPS) :
    ∃ later, refill_one env now state = some (true, later) ∧ Planned env origin slots (k + 1) later := by
  have hIn : k < slots.length := by
    rw [hEdited.length]
    exact hk
  have hSlot : slots[k]? = some slots[k] := List.getElem?_eq_getElem hIn
  have hMem : slots[k] ∈ slots := List.getElem_mem hIn
  have hNext : state.schedule.next_slot env = origin.next_slot env := hClosed.same.next
  have hFree : FirstFree (state.schedule.next_slot env) (taken env state) now (slots.take k) slots[k] := by
    rw [hNext]
    exact firstFree_of_chain hEdited.chain hSlot hClosed.held
  have hSteps : (slots.take k).length < MAX_SLOT_SKIPS := by
    rw [List.length_take]
    omega
  have hAhead : now < slots[k] := (List.pairwise_cons.1 hEdited.order).1 _ hMem
  have hOpen : ∀ t ∈ slots, state.schedule.ends_at.any (· < t) = false := by
    intro t hIn
    rw [hClosed.same.ends_at, Option.any_eq_false]
    intro limit hLimit
    simpa using hEdited.limit limit hLimit t hIn
  have hPlan : plan_slots env state.schedule now MAX_SLOT_SKIPS now state.runs =
      .ok (some slots[k], state.runs ++ [run_of env state.schedule now state.runs slots[k]]) :=
    plan_slots_of_firstFree (hClosed.same.accepts hEdited.accepts) hFree hSteps (hOpen _ hMem)
      fun t hTaken => hOpen t (List.mem_of_mem_take hTaken)
  refine ⟨_, refill_of_due (hClosed.due hEdited hReady) (hClosed.search_from hEdited) hPlan, ?_⟩
  have hRun : run_of env state.schedule now state.runs slots[k] =
      { id := state.runs.length + 1, reference := slot_reference env state.schedule.id slots[k],
        not_before := some slots[k], dispatch_attempts := 0 } := by
    unfold run_of assigned
    rw [assign_input_reference]
    have hDelayed : (state.schedule.assign_input (slot_reference env state.schedule.id slots[k])
        (some slots[k])).not_before.filter (now < ·) = some slots[k] := by
      unfold Schedule.assign_input
      cases state.schedule.target.agent_id <;> simp [Option.filter, hAhead]
    rw [hDelayed]
  constructor
  · exact ⟨hClosed.same.id, hClosed.same.enabled, hClosed.same.target, hClosed.same.timing,
      hClosed.same.created_at, hClosed.same.ends_at, hClosed.same.max_runs⟩
  · refine ⟨state.runs, _, rfl, hClosed.done, ?_, ?_, ?_⟩ <;> rw [hRun]
    rfl
  · intro i other hOther
    have hTaken := hClosed.held i other hOther
    unfold taken at hTaken ⊢
    show slot_has_run (state.runs ++ [_]) (slot_reference env state.schedule.id other) = _
    unfold slot_has_run at hTaken ⊢
    rw [List.any_append, hTaken, List.any_cons, hRun]
    by_cases hSame : i = k
    · subst hSame
      rw [hSlot] at hOther
      rw [Option.some.inj hOther]
      simp
    · have hNe : slot_reference env state.schedule.id slots[k] ≠ slot_reference env state.schedule.id other := by
        intro hReference
        have hEq := slot_reference_inj hDocumented (hEdited.whole _ hMem)
          (hEdited.whole other (List.mem_of_getElem? hOther)) hReference
        have hNodup : slots.Nodup := (List.pairwise_cons.1 hEdited.order).2.imp fun h => ne_of_lt h
        obtain ⟨hi, hAt⟩ := List.getElem?_eq_some_iff.1 hOther
        exact hSame ((hNodup.getElem_inj_iff).1 (hAt.trans hEq.symm))
      have hLess : (i < k : Bool) = (i < k + 1 : Bool) := by
        rw [decide_eq_decide]
        omega
      simp [hNe, hLess]
  · intro last hLast first hFirst
    have hSame : slots[k] = last := Option.some.inj hLast
    rw [← hSame]
    cases slots with
    | nil => cases hFirst
    | cons head rest =>
        have hHead : head = first := by simpa using hFirst
        subst hHead
        cases k with
        | zero => exact le_refl _
        | succ k =>
            have hTail := (List.pairwise_cons.1 (List.pairwise_cons.1 hEdited.order).2).1
            exact le_of_lt (hTail _ (List.getElem_mem _))
  · have := hClosed.counted
    show 0 < state.schedule.run_count + 1
    omega
  · intro most hMost
    have := hClosed.room most hMost
    show state.schedule.run_count + 1 ≤ most
    omega

/-- After five, nothing is left to plan before the first slot is over. -/
theorem Closed.stuck {state : State} (hClosed : Closed env origin slots MAX_SLOT_SKIPS state)
    (hEdited : Edited env origin slots now) (hReady : state.schedule.refill_after = none) :
    ∃ later, refill_one env now state = some (false, later) ∧
      Closed env origin slots MAX_SLOT_SKIPS later := by
  have hNext : state.schedule.next_slot env = origin.next_slot env := hClosed.same.next
  have hTaken : ∀ slot ∈ slots, slot_has_run state.runs (slot_reference env state.schedule.id slot) = true := by
    intro slot hMem
    obtain ⟨i, hAt⟩ := List.mem_iff_getElem?.1 hMem
    have hi : i < slots.length := (List.getElem?_eq_some_iff.1 hAt).1
    rw [hEdited.length] at hi
    have := hClosed.held i slot hAt
    unfold taken at this
    simpa [hi] using this
  have hOpen : ∀ t ∈ slots, state.schedule.ends_at.any (· < t) = false := by
    intro t hIn
    rw [hClosed.same.ends_at, Option.any_eq_false]
    intro limit hLimit
    simpa using hEdited.limit limit hLimit t hIn
  have hChain : Chain (state.schedule.next_slot env) now slots := by
    rw [hNext]
    exact hEdited.chain
  have hFull : plan_slots env state.schedule now slots.length now state.runs =
      .error (.refused (toString MAX_SLOT_SKIPS ++ " consecutive slots already had a run")) :=
    plan_slots_full hChain hTaken hOpen
  rw [hEdited.length] at hFull
  have hDue := hClosed.due hEdited hReady
  have hPlan : plan_next env state.schedule now state.runs =
      .error (.refused (toString MAX_SLOT_SKIPS ++ " consecutive slots already had a run")) := by
    unfold plan_next
    rw [hDue.accepts.principal]
    show (do
      let after ← state.schedule.search_from env now
      plan_slots env state.schedule now MAX_SLOT_SKIPS after state.runs) = _
    rw [hClosed.search_from hEdited]
    exact hFull
  have hRange : min_utc ≤ now.1 + REFILL_RETRY_SECONDS * 10 ^ 9 ∧
      now.1 + REFILL_RETRY_SECONDS * 10 ^ 9 ≤ max_utc := by
    constructor
    · have := now.2.1
      unfold REFILL_RETRY_SECONDS
      omega
    · exact hEdited.clock
  have hLater : date (now.1 + REFILL_RETRY_SECONDS * 10 ^ 9) = .ok ⟨_, hRange⟩ := dif_pos hRange
  refine ⟨⟨{ state.schedule with
    last_error := some ("Could not create the next run: " ++
      (toString MAX_SLOT_SKIPS ++ " consecutive slots already had a run"))
    refill_after := some ⟨_, hRange⟩ }, state.runs⟩, ?_, ?_⟩
  · unfold refill_one
    simp only [hDue.enabled, hDue.running, hDue.unblocked, hDue.ready, Bool.not_true, Bool.or_self,
      Bool.false_eq_true, if_false, hPlan, hLater]
  · exact ⟨⟨hClosed.same.id, hClosed.same.enabled, hClosed.same.target, hClosed.same.timing,
      hClosed.same.created_at, hClosed.same.ends_at, hClosed.same.max_runs⟩, hClosed.done, hClosed.held,
      hClosed.planned, hClosed.counted, hClosed.room⟩

end Edit

/-- Edits at some instants, one after another: which of them created a run, and what is then. -/
def edits (env : Env) : List DateTime → State → Option (List Bool × State)
  | [], state => some ([], state)
  | now :: rest, state => do
      let first ← plan env true now state
      let more ← edits env rest first.2
      some (first.1 :: more.1, more.2)

/-- One edit: the waiting run goes, and the next slot gets one while there is any left. -/
theorem edit_step (hDocumented : Documented env) {origin : Schedule} {slots : List DateTime}
    {now : DateTime} {k : Nat} {state : State} (hEdited : Edited env origin slots now)
    (h : Closed env origin slots k state ∨ Planned env origin slots k state) (hk : k ≤ MAX_SLOT_SKIPS) :
    ∃ later, plan env true now state = some ((k < MAX_SLOT_SKIPS : Bool), later) ∧
      (Closed env origin slots (min (k + 1) MAX_SLOT_SKIPS) later ∨
        Planned env origin slots (min (k + 1) MAX_SLOT_SKIPS) later) := by
  have hClosed : Closed env origin slots k (cancel_waiting_run now state) := by
    rcases h with hClosed | hPlanned
    · rw [cancel_of_done hClosed.done]
      exact hClosed
    · exact hPlanned.cancel now
  have hForget := hClosed.forget
  by_cases hMore : k < MAX_SLOT_SKIPS
  · obtain ⟨later, hRefill, hLater⟩ := hForget.refill hDocumented hEdited rfl hMore
    refine ⟨later, ?_, .inr ?_⟩
    · rw [decide_eq_true hMore]
      exact hRefill
    · rw [Nat.min_eq_left hMore]
      exact hLater
  · have hSame : k = MAX_SLOT_SKIPS := by omega
    subst hSame
    obtain ⟨later, hRefill, hLater⟩ := hForget.stuck hEdited rfl
    refine ⟨later, ?_, .inl ?_⟩
    · rw [decide_eq_false hMore]
      exact hRefill
    · rw [Nat.min_eq_right (by omega)]
      exact hLater

/-- Of the edits before the first slot, those create a run that still have a slot to look at. -/
theorem edits_outcome (hDocumented : Documented env) {origin : Schedule} {slots times : List DateTime}
    {k : Nat} {state : State} (hEdited : ∀ now ∈ times, Edited env origin slots now)
    (h : Closed env origin slots (min k MAX_SLOT_SKIPS) state ∨
      Planned env origin slots (min k MAX_SLOT_SKIPS) state) :
    ∃ later, edits env times state =
      some ((List.range' k times.length).map fun i => (i < MAX_SLOT_SKIPS : Bool), later) := by
  induction times generalizing k state with
  | nil => exact ⟨state, rfl⟩
  | cons now rest ih =>
      obtain ⟨first, hPlan, hFirst⟩ :=
        edit_step hDocumented (hEdited now (by simp)) h (Nat.min_le_right _ _)
      have hCount : min (min k MAX_SLOT_SKIPS + 1) MAX_SLOT_SKIPS = min (k + 1) MAX_SLOT_SKIPS := by omega
      rw [hCount] at hFirst
      obtain ⟨later, hRest⟩ := ih (fun t hMem => hEdited t (by simp [hMem])) hFirst
      have hTrue : (min k MAX_SLOT_SKIPS < MAX_SLOT_SKIPS : Bool) = (k < MAX_SLOT_SKIPS : Bool) := by
        rw [decide_eq_decide]
        omega
      refine ⟨later, ?_⟩
      show (do
        let first ← plan env true now state
        let more ← edits env rest first.2
        some (first.1 :: more.1, more.2)) = _
      rw [hPlan, hTrue]
      show (do
        let more ← edits env rest first
        some ((k < MAX_SLOT_SKIPS : Bool) :: more.1, more.2)) = _
      rw [hRest, List.length_cons, List.range'_succ]
      rfl

/-- A schedule that is due gets a run exactly when the first slot without one is among the first five
from where its search starts and not past its end, and the run is for that slot; and of any number of
edits before the first slot, the first five create a run. -/
theorem edited_keeps_running (hDocumented : Documented env) :
    (∀ (state : State) (now after slot : DateTime) (before : List DateTime), Due env state now →
      state.schedule.search_from env now = .ok after →
      FirstFree (state.schedule.next_slot env) (taken env state) after before slot →
      (∀ t ∈ after :: before, ∀ later, state.schedule.next_slot env t = .ok later → t < later) →
        ((∃ later, refill_one env now state = some (true, later)) ↔
          before.length < MAX_SLOT_SKIPS ∧ ∀ limit, state.schedule.ends_at = some limit → slot ≤ limit) ∧
        ∀ later, refill_one env now state = some (true, later) →
          ∃ run, later.runs = state.runs ++ [run] ∧
            run.reference = slot_reference env state.schedule.id slot ∧ run.is_done = false ∧
            later.schedule.last_slot_at = some slot) ∧
    ∀ (state : State) (slots times : List DateTime), Closed env state.schedule slots 0 state →
      (∀ now ∈ times, Edited env state.schedule slots now) →
        ∃ later, edits env times state =
          some ((List.range times.length).map fun i => (i < MAX_SLOT_SKIPS : Bool), later) := by
  constructor
  · intro state now after slot before hDue hSearch hFree hIncreasing
    have hOnly : ∀ later, refill_one env now state = some (true, later) →
        before.length < MAX_SLOT_SKIPS ∧ ∀ limit, state.schedule.ends_at = some limit → slot ≤ limit := by
      intro later hRefill
      obtain ⟨planned, runs, hPlan⟩ := plan_of_refill hDue hSearch hRefill
      obtain ⟨hSteps, hEnd⟩ := firstFree_of_plan_slots hFree hPlan
      refine ⟨hSteps, ?_⟩
      intro limit hLimit
      have := (Option.any_eq_false _ _).1 hEnd limit hLimit
      simpa using this
    constructor
    · constructor
      · intro h
        obtain ⟨later, hRefill⟩ := h
        exact hOnly later hRefill
      · intro h
        exact ⟨_, refill_creates hDue hSearch hFree hIncreasing h.1 h.2⟩
    · intro later hRefill
      obtain ⟨hSteps, hEnd⟩ := hOnly later hRefill
      rw [refill_creates hDue hSearch hFree hIncreasing hSteps hEnd] at hRefill
      have hLater := (Prod.mk.inj (Option.some.inj hRefill)).2
      rw [← hLater]
      exact ⟨_, rfl, run_of_reference _ _ _ _, assigned_open _ _ _, rfl⟩
  · intro state slots times hClosed hEdited
    rw [List.range_eq_range']
    exact edits_outcome hDocumented (k := 0) hEdited (.inl hClosed)

end Runs

/-! ## A day of runs -/

/-- The last decimal digit. -/
def digit (n : Int) : Char := Char.ofNat (48 + (n % 10).toNat)

def two (n : Int) : List Char := [digit (n / 10), digit n]

/-- A time of day. -/
def clock_text (second : Int) : List Char :=
  two (second / 3600) ++ ':' :: two (second / 60 % 60) ++ ':' :: two (second % 60)

/-- As chrono prints the whole seconds of 1970's first day; other instants are told apart. -/
def day_one (_ : String) (slot : DateTime) : String :=
  if 0 ≤ slot.1 ∧ slot.1 < 86400 * 10 ^ 9 ∧ slot.1 % 10 ^ 9 = 0 then
    String.ofList ("1970-01-01T".toList ++ clock_text (slot.1 / 10 ^ 9) ++ "+00:00".toList)
  else String.ofList ('@' :: List.replicate (slot.1 - min_utc).toNat '.')

def day : Env where
  croner := utc_only
  overflow_checks := true
  format := day_one
  refusal _ := none
  reused _ _ := none

theorem digit_inj {m n : Int} (h : digit m = digit n) : m % 10 = n % 10 := by
  have hAll : ∀ a b : Fin 10, Char.ofNat (48 + a) = Char.ofNat (48 + b) → a = b := by decide
  have hm : (m % 10).toNat < 10 := by omega
  have hn : (n % 10).toNat < 10 := by omega
  have hSame := congrArg Fin.val (hAll ⟨_, hm⟩ ⟨_, hn⟩ h)
  simp only at hSame
  omega

theorem two_inj {m n : Int} (hm : 0 ≤ m ∧ m < 100) (hn : 0 ≤ n ∧ n < 100) (h : two m = two n) : m = n := by
  obtain ⟨hTens, hRest⟩ := List.cons.inj h
  have hOnes := digit_inj (List.cons.inj hRest).1
  have := digit_inj hTens
  omega

theorem clock_text_inj {m n : Int} (hm : 0 ≤ m ∧ m < 86400) (hn : 0 ≤ n ∧ n < 86400)
    (h : clock_text m = clock_text n) : m = n := by
  unfold clock_text at h
  obtain ⟨hRest, hSeconds⟩ := List.append_inj' h rfl
  obtain ⟨hHours, hMinutes⟩ := List.append_inj hRest rfl
  have h1 := two_inj (by omega) (by omega) hHours
  have h2 := two_inj (by omega) (by omega) (List.cons.inj hMinutes).2
  have h3 := two_inj (by omega) (by omega) (List.cons.inj hSeconds).2
  omega

theorem day_documented : Documented day := by
  constructor
  · intro a b _ _ h
    have hText : day_one "" a = day_one "" b := by
      unfold stamp at h
      split at h <;> split at h <;> exact h
    unfold day_one at hText
    by_cases ha : 0 ≤ a.1 ∧ a.1 < 86400 * 10 ^ 9 ∧ a.1 % 10 ^ 9 = 0
    · by_cases hb : 0 ≤ b.1 ∧ b.1 < 86400 * 10 ^ 9 ∧ b.1 % 10 ^ 9 = 0
      · rw [if_pos ha, if_pos hb] at hText
        have hChars := String.ofList_injective hText
        rw [List.append_cancel_right_eq, List.append_cancel_left_eq] at hChars
        have := clock_text_inj (by omega) (by omega) hChars
        exact DateTime.ext (by omega)
      · rw [if_pos ha, if_neg hb] at hText
        have hChars := String.ofList_injective hText
        have hHead := congrArg List.head? hChars
        simp at hHead
    · by_cases hb : 0 ≤ b.1 ∧ b.1 < 86400 * 10 ^ 9 ∧ b.1 % 10 ^ 9 = 0
      · rw [if_neg ha, if_pos hb] at hText
        have hChars := String.ofList_injective hText
        have hHead := congrArg List.head? hChars
        simp at hHead
      · rw [if_neg ha, if_neg hb] at hText
        have hChars := String.ofList_injective hText
        have hLength := congrArg List.length hChars
        simp only [List.length_cons, List.length_replicate] at hLength
        have h1 := a.2.1
        have h2 := b.2.1
        exact DateTime.ext (by omega)
  · intro line zone after slot h
    cases h

/-- A schedule of every minute, last planned at some instant. -/
def minutely (last : Option DateTime) : State where
  schedule :=
    { id := 7
      target := { action_id := 1 }
      timing := { interval_seconds := some 60 }
      created_at := first_instant
      catch_up := true
      last_slot_at := last
      created_whole := first_instant_whole }
  runs := []

theorem minutely_accepts (last : Option DateTime) : Accepts day (minutely last).schedule :=
  ⟨rfl, fun _ _ => rfl⟩

/-- The slots of the first hours, one by one. -/
def minutes (count : Nat) (h : count ≤ 1000 := by decide) : List DateTime :=
  List.ofFn (n := count) fun i => second ((i + 1) * 60) (by omega)

/-- The slots of the minutes increase. -/
theorem minutely_increasing (last : Option DateTime) :
    Increasing ((minutely last).schedule.next_slot day) (second 0) (second 36000) := by
  intro t hLow hHigh
  have h0 : (0 : Int) ≤ t.1 := hLow
  have h1 : t.1 ≤ 36000 * 10 ^ 9 := hHigh
  have hBounds : InBounds (second 0).1 60 t.1 := by
    refine .inr ⟨by decide, ?_, ?_, ?_⟩
    · show (t.1 - 0) / (60 * 10 ^ 9) < 2 ^ 31 - 1
      omega
    · show min ((t.1 - 0) / 1000) (2 ^ 63 - 1) / 60000000 = (t.1 - 0) / (60 * 10 ^ 9)
      omega
    · show 0 + ((t.1 - 0) / (60 * 10 ^ 9) + 1) * (60 * 10 ^ 9) ≤ 8210266876799 * 10 ^ 9 + 999999999
      omega
  obtain ⟨slot, hSlot, hLeast⟩ :=
    (@next_slot_iff utc_only true (minutely last).schedule.timing 60 (second 0) t rfl rfl (by decide)).2 hBounds
  exact ⟨slot, hSlot, hLeast.1.2⟩

instance (next : DateTime → Except Failure DateTime) (now : DateTime) :
    ∀ last slots ahead, Decidable (Missed next now last slots ahead)
  | last, [], ahead => inferInstanceAs (Decidable (next last = .ok ahead ∧ now < ahead))
  | last, slot :: rest, ahead =>
      have := instDecidableMissed next now slot rest ahead
      inferInstanceAs (Decidable (next last = .ok slot ∧ slot ≤ now ∧ Missed next now slot rest ahead))

instance (next : DateTime → Except Failure DateTime) (has_run : DateTime → Bool) :
    ∀ after before slot, Decidable (FirstFree next has_run after before slot)
  | after, [], slot => inferInstanceAs (Decidable (next after = .ok slot ∧ has_run slot = false))
  | after, first :: rest, slot =>
      have := instDecidableFirstFree next has_run first rest slot
      inferInstanceAs (Decidable (next after = .ok first ∧ has_run first = true ∧
        FirstFree next has_run first rest slot))

/-- The five slots after half a minute, and edits then. -/
theorem edited_at_half_a_minute :
    Edited day (minutely none).schedule (minutes 5) (second 30) where
  enabled := rfl
  accepts := minutely_accepts none
  chain := by
    refine ⟨?_, ?_, ?_, ?_, ?_, trivial⟩ <;> decide +kernel
  whole := by decide +kernel
  order := by decide +kernel
  limit := by
    intro limit hLimit
    cases hLimit
  length := by decide +kernel
  clock := by decide +kernel

/-- It has no run yet. -/
theorem minutely_closed : Closed day (minutely none).schedule (minutes 5) 0 (minutely none) where
  same := Same.refl _
  done := by
    intro run hMem
    cases hMem
  held := by
    intro i slot _
    simp [taken, slot_has_run, minutely]
  planned := by
    intro last hLast
    cases hLast
  counted := le_refl _
  room := by
    intro most hMost
    cases hMost

/-- Five edits create a run each, the sixth does not. -/
theorem six_edits :
    (∃ later, refill_one day (second 30) (minutely none) = some (true, later)) ∧
      ∃ later, edits day (List.replicate 6 (second 30)) (minutely none) =
        some ([true, true, true, true, true, false], later) := by
  have hBoth := edited_keeps_running day_documented
  constructor
  · refine ((hBoth.1 (minutely none) (second 30) (second 30) (second 60) [] ?_ (by decide +kernel) ?_ ?_).1).2 ?_
    · exact ⟨rfl, by decide +kernel, by decide +kernel, rfl, minutely_accepts none⟩
    · exact ⟨by decide +kernel, by decide +kernel⟩
    · intro t hMem later hNext
      obtain ⟨slot, hSlot, hLater⟩ := minutely_increasing none t (by
        rw [List.mem_singleton.1 hMem]
        decide +kernel) (by
        rw [List.mem_singleton.1 hMem]
        decide +kernel)
      rw [hNext] at hSlot
      rw [Except.ok.inj hSlot]
      exact hLater
    · refine ⟨by decide, ?_⟩
      intro limit hLimit
      cases hLimit
  · have hEdits := hBoth.2 (minutely none) (minutes 5) (List.replicate 6 (second 30))
      minutely_closed
      (by
        intro now hMem
        rw [List.eq_of_mem_replicate hMem]
        exact edited_at_half_a_minute)
    exact hEdits

/-- The state after five edits, its waiting run cancelled. -/
def edited_five_times : Option State :=
  (edits day (List.replicate 5 half_minute) (minutely none)).map fun outcome =>
    cancel_waiting_run half_minute outcome.2

theorem edited_five_times_some : edited_five_times.isSome = true := by decide +kernel

/-- It is due a run, its target takes every assign, its slots never end, the sixth is free, and it
gets no run. -/
theorem fifth_edit_stalls :
    ∃ state, edited_five_times = some state ∧ Due day state (second 30) ∧
      state.schedule.search_from day (second 30) = .ok (second 30) ∧
      FirstFree (state.schedule.next_slot day) (taken day state) (second 30) (minutes 5) (second 360) ∧
      state.schedule.ends_at = none ∧
      ¬ ∃ later, refill_one day (second 30) state = some (true, later) := by
  refine ⟨edited_five_times.get edited_five_times_some, by simp, ?_, by decide +kernel, ?_, by decide +kernel, ?_⟩
  · have hDue : (edited_five_times.get edited_five_times_some).schedule.enabled = true ∧
        (edited_five_times.get edited_five_times_some).schedule.ended (second 30) = false ∧
        has_blocking_run (edited_five_times.get edited_five_times_some).schedule
          (edited_five_times.get edited_five_times_some).runs = false ∧
        (edited_five_times.get edited_five_times_some).schedule.refill_after.any (second 30 < ·) = false := by
      decide +kernel
    exact ⟨hDue.1, hDue.2.1, hDue.2.2.1, hDue.2.2.2, rfl, fun _ _ => rfl⟩
  · decide +kernel
  · intro h
    obtain ⟨later, hRefill⟩ := h
    have hNone : (refill_one day (second 30) (edited_five_times.get edited_five_times_some)).map (·.1) = some false := by
      decide +kernel
    rw [hRefill] at hNone
    cases hNone

end Rekuest.Schedules
