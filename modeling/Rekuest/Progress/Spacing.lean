import Rekuest.Progress.Runs

/-!
# Order, loss and spacing

Over every run of reports, timers and other events.
-/

namespace Rekuest.Progress

variable {fires : Gate → Timer → Prop} {trace : List Entry} {g : Gate}

/-! ## Steps -/

/-- What one call does. -/
theorem step_cases {g g' : Gate} {now : Nat} {call : Call} {entry : Entry}
    (hStep : step g now call = some (entry, g')) :
    g.now ≤ now ∧
      ((∃ task event, call = .progress task event ∧
          entry = .admitted task event (admit_event g.slots task event now).2 now ∧
          g' = ⟨(admit_event g.slots task event now).1,
            (admit_event g.slots task event now).2.arms task now ++ g.timers, now⟩) ∨
        (∃ timer, call = .fire timer ∧ timer ∈ g.timers ∧ timer.due ≤ now ∧
          entry = .released timer.task (release g.slots timer.task now).2 now ∧
          g' = ⟨(release g.slots timer.task now).1, g.timers.erase timer, now⟩) ∨
        ∃ task, call = .take task ∧ entry = .taken task (take_held g.slots task).2 now ∧
          g' = ⟨(take_held g.slots task).1, g.timers, now⟩) := by
  unfold step at hStep
  cases call with
  | progress task event =>
      dsimp only at hStep
      by_cases hBack : now < g.now
      · rw [if_pos hBack] at hStep
        cases hStep
      · rw [if_neg hBack] at hStep
        have hBoth := Option.some.inj hStep
        have hAdmitted := (congrArg Prod.fst hBoth).symm
        have hLeft := (congrArg Prod.snd hBoth).symm
        exact ⟨by omega, .inl ⟨task, event, rfl, hAdmitted, hLeft⟩⟩
  | fire timer =>
      dsimp only at hStep
      by_cases hBack : now < g.now ∨ timer ∉ g.timers ∨ now < timer.due
      · rw [if_pos hBack] at hStep
        cases hStep
      · rw [if_neg hBack] at hStep
        have hBoth := Option.some.inj hStep
        have hReleased := (congrArg Prod.fst hBoth).symm
        have hLeft := (congrArg Prod.snd hBoth).symm
        obtain ⟨hNow, hIn⟩ := not_or.1 hBack
        obtain ⟨hMem, hDue⟩ := not_or.1 hIn
        exact ⟨by omega, .inr (.inl ⟨timer, rfl, Decidable.not_not.1 hMem, by omega, hReleased, hLeft⟩)⟩
  | take task =>
      dsimp only at hStep
      by_cases hBack : now < g.now
      · rw [if_pos hBack] at hStep
        cases hStep
      · rw [if_neg hBack] at hStep
        have hBoth := Option.some.inj hStep
        have hTaken := (congrArg Prod.fst hBoth).symm
        have hLeft := (congrArg Prod.snd hBoth).symm
        exact ⟨by omega, .inr (.inr ⟨task, rfl, hTaken, hLeft⟩)⟩

theorem Run.held (hRun : Run fires trace g) : Held trace g := by
  induction hRun with
  | start =>
      constructor
      · intro task
        rfl
      · intro task slot hLookup
        cases hLookup
      · intro task slot hLookup
        cases hLookup
  | next _ _ hStep ih =>
      obtain ⟨-, ⟨task, event, -, hEntry, hLeft⟩ | ⟨timer, -, -, -, hEntry, hLeft⟩ | ⟨task, -, hEntry, hLeft⟩⟩ :=
        step_cases hStep
      · rw [hEntry, hLeft]
        exact ih.admitted task event _
      · rw [hEntry, hLeft]
        exact ih.released timer _
      · rw [hEntry, hLeft]
        exact ih.taken task _

/-- Every entry of a run was a call in the run before it. -/
theorem Run.before {earlier : List Entry} {entry : Entry} : ∀ {later : List Entry} {g : Gate},
    Run fires (later ++ entry :: earlier) g →
      ∃ g₀ g₁ now call, Run fires earlier g₀ ∧ (∀ timer, call = .fire timer → fires g₀ timer) ∧
        step g₀ now call = some (entry, g₁) := by
  intro later
  induction later with
  | nil =>
      intro g hRun
      cases hRun with
      | next hEarlier hFires hStep => exact ⟨_, _, _, _, hEarlier, hFires, hStep⟩
  | cons _ rest ih =>
      intro g hRun
      cases hRun with
      | next hEarlier _ _ => exact ih hEarlier

/-! ## Order and loss -/

/-- An entry of the trace is of the hold that is still the task's last call. -/
theorem holding_iff {task event : Int} : holding task trace = some event ↔
    ∃ (mid earlier : List Entry) (answer : Admit) (now : Nat),
      trace = mid ++ .admitted task event answer now :: earlier ∧
      answer ≠ .now ∧ ∀ entry ∈ mid, entry.task ≠ task := by
  induction trace with
  | nil =>
      constructor
      · intro hHolding
        cases hHolding
      · rintro ⟨mid, earlier, answer, now, hTrace, -⟩
        exact absurd hTrace.symm (List.append_ne_nil_of_right_ne_nil _ (List.cons_ne_nil _ _))
  | cons entry earlier ih =>
      unfold holding
      constructor
      · intro hHolding
        by_cases hOf : entry.task = task
        · rw [if_pos hOf] at hHolding
          cases entry with
          | admitted task' event' answer now =>
              change (if answer = .now then none else some event') = some event at hHolding
              by_cases hNow : answer = .now
              · rw [if_pos hNow] at hHolding
                cases hHolding
              · rw [if_neg hNow] at hHolding
                refine ⟨[], earlier, answer, now, ?_, hNow, by intro x hx; cases hx⟩
                rw [← Option.some.inj hHolding, ← hOf]
                rfl
          | released => cases hHolding
          | taken => cases hHolding
        · rw [if_neg hOf] at hHolding
          obtain ⟨mid, rest, answer, now, hTrace, hNow, hMid⟩ := ih.1 hHolding
          refine ⟨entry :: mid, rest, answer, now, congrArg (entry :: ·) hTrace, hNow, ?_⟩
          intro x hx
          rcases List.mem_cons.1 hx with hIs | hLater
          · rw [hIs]
            exact hOf
          · exact hMid x hLater
      · rintro ⟨mid, rest, answer, now, hTrace, hNow, hMid⟩
        cases mid with
        | nil =>
            obtain ⟨hEntry, -⟩ := List.cons.inj hTrace
            rw [hEntry, if_pos (show (Entry.admitted task event answer now).task = task from rfl)]
            show (if answer = .now then none else some event) = some event
            rw [if_neg hNow]
        | cons x mid =>
            obtain ⟨hEntry, hRest⟩ := List.cons.inj hTrace
            rw [hEntry, if_neg (hMid x List.mem_cons_self)]
            exact ih.2 ⟨mid, rest, answer, now, hRest, hNow, fun y hy => hMid y (List.mem_cons_of_mem x hy)⟩

/-- A timer answers with what is held. -/
theorem release_eq (slots : Slots) (task : Int) (now : Nat) :
    (release slots task now).2 = (slots.lookup task).bind (·.held) := by
  rcases (release_cases slots task now).2 with ⟨hNone, -, hIs⟩ | ⟨slot, hFound, hHeld, -, hIs⟩ |
    ⟨slot, event, hFound, hHeld, -, hIs⟩
  · rw [hIs, hNone]
    rfl
  · rw [hIs, hFound]
    exact hHeld.symm
  · rw [hIs, hFound]
    exact hHeld.symm

/-- What is sent by a timer, or handed out, is what the task's last call held: the newest report
of it, with no later event. -/
theorem sent_newest {later earlier : List Entry} {task event : Int} {now : Nat}
    (hRun : Run fires trace g)
    (hTrace : trace = later ++ .released task (some event) now :: earlier ∨
      trace = later ++ .taken task (some event) now :: earlier) :
    ∃ (mid rest : List Entry) (answer : Admit) (held : Nat),
      earlier = mid ++ .admitted task event answer held :: rest ∧ answer ≠ .now ∧
      ∀ entry ∈ mid, entry.task ≠ task := by
  apply holding_iff.1
  rcases hTrace with rfl | rfl
  · obtain ⟨g₀, g₁, now', call, hEarlier, -, hStep⟩ := hRun.before
    rw [← hEarlier.held.held task]
    obtain ⟨-, ⟨_, _, -, hEntry, -⟩ | ⟨timer, -, -, -, hEntry, -⟩ | ⟨_, -, hEntry, -⟩⟩ := step_cases hStep
    · cases hEntry
    · injection hEntry with hTask hSent _
      rw [release_eq, ← hTask] at hSent
      exact hSent.symm
    · cases hEntry
  · obtain ⟨g₀, g₁, now', call, hEarlier, -, hStep⟩ := hRun.before
    rw [← hEarlier.held.held task]
    obtain ⟨-, ⟨_, _, -, hEntry, -⟩ | ⟨timer, -, -, -, hEntry, -⟩ | ⟨task', -, hEntry, -⟩⟩ := step_cases hStep
    · cases hEntry
    · cases hEntry
    · injection hEntry with hTask hSent _
      rw [← hTask] at hSent
      exact hSent.symm

/-- The first entry of a task after another, if there is one. -/
theorem first_of (task : Int) : ∀ later : List Entry, (∀ entry ∈ later, entry.task ≠ task) ∨
    ∃ (after : List Entry) (next : Entry) (mid : List Entry), later = after ++ next :: mid ∧
      next.task = task ∧ ∀ entry ∈ mid, entry.task ≠ task := by
  intro later
  induction later with
  | nil => exact .inl nofun
  | cons entry rest ih =>
      rcases ih with hNone | ⟨after, next, mid, hRest, hOf, hMid⟩
      · by_cases hOf : entry.task = task
        · exact .inr ⟨[], entry, rest, rfl, hOf, hNone⟩
        · refine .inl ?_
          intro x hx
          rcases List.mem_cons.1 hx with hIs | hLater
          · rw [hIs]
            exact hOf
          · exact hNone x hLater
      · exact .inr ⟨entry :: after, next, mid, congrArg (entry :: ·) hRest, hOf, hMid⟩

/-- What was held is still held, and a timer is in flight for it, or the task's next call was
its end: a newer report, a timer that sent it, or an event it was handed out to. -/
theorem none_lost {later earlier : List Entry} {task event : Int} {answer : Admit} {now : Nat}
    (hRun : Run fires trace g) (hTrace : trace = later ++ .admitted task event answer now :: earlier)
    (hHeld : answer ≠ .now) :
    ((∃ slot, g.slots.lookup task = some slot ∧ slot.held = some event) ∧
        ∃ timer ∈ g.timers, timer.task = task) ∨
      ∃ (after : List Entry) (next : Entry) (mid : List Entry), later = after ++ next :: mid ∧
        (∀ entry ∈ mid, entry.task ≠ task) ∧
        ((∃ newer answer' now', next = .admitted task newer answer' now') ∨
          (∃ now', next = .released task (some event) now') ∨
          ∃ now', next = .taken task (some event) now') := by
  rcases first_of task later with hNone | ⟨after, next, mid, hLater, hOf, hMid⟩
  · left
    have hHolding : holding task trace = some event :=
      holding_iff.2 ⟨later, earlier, answer, now, hTrace, hHeld, hNone⟩
    rw [← hRun.held.held task] at hHolding
    obtain ⟨slot, hFound, hEvent⟩ := Option.bind_eq_some_iff.1 hHolding
    have hArmed := hRun.held.armed task slot hFound (by rw [hEvent]; rfl)
    exact ⟨⟨slot, hFound, hEvent⟩, hRun.held.timers task slot hFound hArmed⟩
  · right
    refine ⟨after, next, mid, hLater, hMid, ?_⟩
    rw [hTrace, hLater, List.append_assoc, List.cons_append] at hRun
    obtain ⟨g₀, g₁, now', call, hEarlier, -, hStep⟩ := hRun.before
    have hHolding : holding task (mid ++ .admitted task event answer now :: earlier) = some event :=
      holding_iff.2 ⟨mid, earlier, answer, now, rfl, hHeld, hMid⟩
    rw [← hEarlier.held.held task] at hHolding
    obtain ⟨-, ⟨task', newer, -, hEntry, -⟩ | ⟨timer, -, -, -, hEntry, -⟩ | ⟨task', -, hEntry, -⟩⟩ :=
      step_cases hStep
    · rw [hEntry] at hOf
      have hTask : task' = task := hOf
      rw [hTask] at hEntry
      exact .inl ⟨_, _, _, hEntry⟩
    · rw [hEntry] at hOf
      have hTask : timer.task = task := hOf
      rw [release_eq, hTask, hHolding] at hEntry
      exact .inr (.inl ⟨_, hEntry⟩)
    · rw [hEntry] at hOf
      have hTask : task' = task := hOf
      rw [hTask] at hEntry
      refine .inr (.inr ⟨now', ?_⟩)
      rw [hEntry, show (take_held g₀.slots task).2 = some event from hHolding]

/-! ## Spacing -/

instance (task : Int) (entry : Entry) : Decidable (entry.Sends task) :=
  match entry with
  | .admitted .. => inferInstanceAs (Decidable (_ ∧ _))
  | .released .. => inferInstanceAs (Decidable (_ ∧ _))
  | .taken .. => inferInstanceAs (Decidable False)

/-- The task starts over. -/
def Entry.Takes (task : Int) : Entry → Prop
  | .taken task' _ _ => task' = task
  | _ => False

instance (task : Int) (entry : Entry) : Decidable (entry.Takes task) :=
  match entry with
  | .admitted .. => inferInstanceAs (Decidable False)
  | .released .. => inferInstanceAs (Decidable False)
  | .taken .. => inferInstanceAs (Decidable (_ = _))

/-- A timer that finds something held was armed for no earlier a fan-out than the task's last. -/
def Timely (g : Gate) (timer : Timer) : Prop :=
  ∀ slot last, g.slots.lookup timer.task = some slot → slot.held.isSome = true →
    slot.last_sent = some last → last + INTERVAL ≤ timer.due

/-- When the task was last fanned out, since it started over. -/
def lastSent (task : Int) : List Entry → Option Nat
  | [] => none
  | entry :: earlier =>
      if entry.Sends task then some entry.time
      else if entry.Takes task then none else lastSent task earlier

/-- A fan-out is remembered, or it was long ago. -/
structure Remembered (trace : List Entry) (g : Gate) : Prop where
  last : ∀ task last, lastSent task trace = some last →
    g.slots.lookup task = none ∧ last + QUIET ≤ g.now ∨
      ∃ slot, g.slots.lookup task = some slot ∧ slot.last_sent = some last
  times : trace.Pairwise fun later earlier => earlier.time ≤ later.time
  past : ∀ entry ∈ trace, entry.time ≤ g.now

/-- An entry of another task changes nothing of when this one was fanned out. -/
theorem lastSent_other {task : Int} {entry : Entry} (hOther : entry.task ≠ task) (earlier : List Entry) :
    lastSent task (entry :: earlier) = lastSent task earlier := by
  have hNot : ¬ entry.Sends task := by
    intro hSends
    cases entry with
    | admitted => exact hOther hSends.1
    | released => exact hOther hSends.1
    | taken => exact hSends
  have hNor : ¬ entry.Takes task := by
    intro hTakes
    cases entry with
    | admitted => exact hTakes
    | released => exact hTakes
    | taken => exact hOther hTakes
  show (if entry.Sends task then _ else if entry.Takes task then _ else _) = _
  rw [if_neg hNot, if_neg hNor]

/-- What was remembered of a task is, when the gate is thinned. -/
theorem Remembered.thinned {g' : Gate} (hRemembered : Remembered trace g) {now : Nat} (hNow : g.now ≤ now)
    (hClock : g'.now = now) {task : Int} {last : Nat} (hLast : lastSent task trace = some last)
    (hThinned : Thinned now (g.slots.lookup task) (g'.slots.lookup task)) :
    g'.slots.lookup task = none ∧ last + QUIET ≤ g'.now ∨
      ∃ slot, g'.slots.lookup task = some slot ∧ slot.last_sent = some last := by
  rcases hThinned with hSame | ⟨hGone, slot, hWas, hKept⟩
  · rw [hSame]
    rcases hRemembered.last task last hLast with ⟨hNone, hLong⟩ | hKnown
    · exact .inl ⟨hNone, by omega⟩
    · exact .inr hKnown
  · refine .inl ⟨hGone, ?_⟩
    rcases hRemembered.last task last hLast with ⟨hNone, hLong⟩ | ⟨slot', hFound, hSent⟩
    · omega
    · rw [Option.some.inj (hWas.symm.trans hFound)] at hKept
      unfold Slot.kept at hKept
      rw [hSent] at hKept
      obtain ⟨-, hLong⟩ := Bool.or_eq_false_iff.1 hKept
      have hNotWithin : ¬ now - last < QUIET := of_decide_eq_false hLong
      rw [hClock]
      have hPositive : 0 < QUIET := by decide
      omega

/-- One call of a task and what is remembered of the others. -/
theorem Remembered.call {g' : Gate} {entry : Entry} (hRemembered : Remembered trace g)
    (hNow : g.now ≤ entry.time) (hClock : g'.now = entry.time)
    (hOthers : ∀ other, other ≠ entry.task →
      Thinned entry.time (g.slots.lookup other) (g'.slots.lookup other))
    (hOwn : ∀ last, lastSent entry.task (entry :: trace) = some last →
      g'.slots.lookup entry.task = none ∧ last + QUIET ≤ g'.now ∨
        ∃ slot, g'.slots.lookup entry.task = some slot ∧ slot.last_sent = some last) :
    Remembered (entry :: trace) g' := by
  constructor
  · intro task last hLast
    by_cases hOther : entry.task = task
    · rw [← hOther] at hLast ⊢
      exact hOwn last hLast
    · rw [lastSent_other hOther] at hLast
      exact hRemembered.thinned hNow hClock hLast (hOthers task fun hIs => hOther hIs.symm)
  · apply List.pairwise_cons.2
    refine ⟨?_, hRemembered.times⟩
    intro earlier hMem
    have hPast := hRemembered.past earlier hMem
    omega
  · intro x hx
    rw [hClock]
    rcases List.mem_cons.1 hx with hIs | hEarlier
    · rw [hIs]
    · have hPast := hRemembered.past x hEarlier
      omega

theorem Run.remembered (hRun : Run fires trace g) : Remembered trace g := by
  induction hRun with
  | start =>
      constructor
      · intro task last hLast
        cases hLast
      · exact List.Pairwise.nil
      · intro entry hMem
        cases hMem
  | @next trace g g' now call entry _ _ hStep ih =>
      obtain ⟨hNow, ⟨task, event, -, hEntry, hLeft⟩ | ⟨timer, -, -, -, hEntry, hLeft⟩ | ⟨task, -, hEntry, hLeft⟩⟩ :=
        step_cases hStep
      · obtain ⟨hOthers, found, hThinned, hOwn⟩ := admit_cases g.slots task event now
        rw [hEntry, hLeft]
        refine ih.call hNow rfl hOthers ?_
        intro last hLast
        right
        change (if task = task ∧ (admit_event g.slots task event now).2 = .now then some now else
          if False then none else lastSent task trace) = some last at hLast
        rcases hOwn with ⟨slot, last', hFound, hSent, -, hLookup, hAnswer⟩ | ⟨-, hLookup, hAnswer⟩
        · refine ⟨_, hLookup, ?_⟩
          have hNot : ¬ (task = task ∧ (admit_event g.slots task event now).2 = .now) := by
            rintro ⟨-, hIs⟩
            rw [hIs] at hAnswer
            by_cases hArmed : slot.armed = true
            · rw [if_pos hArmed] at hAnswer
              cases hAnswer
            · rw [if_neg hArmed] at hAnswer
              cases hAnswer
          rw [if_neg hNot, if_neg id] at hLast
          have hWas : g.slots.lookup task = some slot := by
            rcases hThinned with hSame | ⟨hNone, -⟩
            · rw [← hSame, hFound]
            · rw [hNone] at hFound
              cases hFound
          rcases ih.last task last hLast with ⟨hNone, -⟩ | ⟨slot', hFound', hSent'⟩
          · rw [hNone] at hWas
            cases hWas
          · rw [Option.some.inj (hWas.symm.trans hFound')]
            exact hSent'
        · rw [if_pos ⟨rfl, hAnswer⟩] at hLast
          exact ⟨_, hLookup, hLast⟩
      · obtain ⟨hOthers, hOwn⟩ := release_cases g.slots timer.task now
        rw [hEntry, hLeft]
        refine ih.call hNow rfl (fun other hOther => .inl (hOthers other hOther)) ?_
        intro last hLast
        change (if timer.task = timer.task ∧ (release g.slots timer.task now).2.isSome = true then some now else
          if False then none else lastSent timer.task trace) = some last at hLast
        rcases hOwn with ⟨hNone, hLookup, hAnswer⟩ | ⟨slot, hFound, -, hLookup, hAnswer⟩ |
          ⟨slot, event, -, -, hLookup, hAnswer⟩
        · rw [hAnswer, if_neg (fun hBoth => Bool.false_ne_true hBoth.2), if_neg id] at hLast
          rcases ih.last timer.task last hLast with ⟨-, hLong⟩ | ⟨slot', hFound', -⟩
          · exact .inl ⟨hLookup, Nat.le_trans hLong hNow⟩
          · rw [hNone] at hFound'
            cases hFound'
        · rw [hAnswer, if_neg (fun hBoth => Bool.false_ne_true hBoth.2), if_neg id] at hLast
          rcases ih.last timer.task last hLast with ⟨hNone, -⟩ | ⟨slot', hFound', hSent'⟩
          · rw [hNone] at hFound
            cases hFound
          · rw [← Option.some.inj (hFound.symm.trans hFound')] at hSent'
            exact .inr ⟨_, hLookup, hSent'⟩
        · rw [hAnswer, if_pos ⟨rfl, rfl⟩] at hLast
          exact .inr ⟨_, hLookup, hLast⟩
      · rw [hEntry, hLeft]
        refine ih.call hNow rfl (fun other hOther => .inl (AList.lookup_erase_ne hOther)) ?_
        intro last hLast
        change (if False then some now else if task = task then none else lastSent task trace) = some last at hLast
        rw [if_neg id, if_pos rfl] at hLast
        cases hLast

/-- A fan-out is no later than the last one, where the task did not start over since. -/
theorem lastSent_of_sends {task : Int} {sent : Entry} {earlier : List Entry} (hSends : sent.Sends task) :
    ∀ {mid : List Entry}, (∀ entry ∈ mid, ¬ entry.Takes task) →
      (mid ++ sent :: earlier).Pairwise (fun later earlier => earlier.time ≤ later.time) →
        ∃ last, lastSent task (mid ++ sent :: earlier) = some last ∧ sent.time ≤ last := by
  intro mid
  induction mid with
  | nil =>
      intro _ _
      refine ⟨sent.time, ?_, Nat.le_refl _⟩
      show (if sent.Sends task then _ else _) = _
      rw [if_pos hSends]
  | cons entry rest ih =>
      intro hNone hTimes
      obtain ⟨hFirst, hRest⟩ := List.pairwise_cons.1 hTimes
      by_cases hAlso : entry.Sends task
      · refine ⟨entry.time, ?_, ?_⟩
        · show (if entry.Sends task then _ else _) = _
          rw [if_pos hAlso]
        · exact hFirst sent (List.mem_append.2 (.inr List.mem_cons_self))
      · obtain ⟨last, hLast, hLe⟩ := ih (fun x hx => hNone x (List.mem_cons_of_mem entry hx)) hRest
        refine ⟨last, ?_, hLe⟩
        show (if entry.Sends task then _ else if entry.Takes task then _ else _) = _
        rw [if_neg hAlso, if_neg (hNone entry List.mem_cons_self)]
        exact hLast

/-- A fan-out comes an interval after the last one the task remembers. -/
theorem spaced_step {now : Nat} {call : Call} {entry : Entry} {g' : Gate} (hRemembered : Remembered trace g)
    (hTimely : ∀ timer, call = .fire timer → Timely g timer) (hStep : step g now call = some (entry, g'))
    {task : Int} (hSends : entry.Sends task) {last : Nat} (hLast : lastSent task trace = some last) :
    last + INTERVAL ≤ entry.time := by
  have hLong : INTERVAL ≤ QUIET := by decide
  have hPositive : 0 < INTERVAL := by decide
  obtain ⟨hNow, ⟨task', event, -, hEntry, -⟩ | ⟨timer, hCall, -, hDue, hEntry, -⟩ | ⟨_, -, hEntry, -⟩⟩ :=
    step_cases hStep
  · rw [hEntry] at hSends ⊢
    obtain ⟨hTask, hAnswer⟩ := hSends
    rw [← hTask] at hLast
    show last + INTERVAL ≤ now
    obtain ⟨-, found, hThinned, hOwn⟩ := admit_cases g.slots task' event now
    rcases hRemembered.last task' last hLast with ⟨-, hQuiet⟩ | ⟨slot, hFound, hSent⟩
    · omega
    · rcases hThinned with hSame | ⟨-, slot', hWas, hKept⟩
      · rcases hOwn with ⟨slot', last', hIs, -, -, -, hHeld⟩ | ⟨hPast, -, -⟩
        · rw [hAnswer] at hHeld
          by_cases hArmed : slot'.armed = true
          · rw [if_pos hArmed] at hHeld
            cases hHeld
          · rw [if_neg hArmed] at hHeld
            cases hHeld
        · have hAfter := hPast slot last (hSame.trans hFound) hSent
          omega
      · rw [Option.some.inj (hWas.symm.trans hFound)] at hKept
        unfold Slot.kept at hKept
        rw [hSent] at hKept
        have hNotWithin : ¬ now - last < QUIET := of_decide_eq_false (Bool.or_eq_false_iff.1 hKept).2
        omega
  · rw [hEntry] at hSends ⊢
    obtain ⟨hTask, hSome⟩ := hSends
    rw [← hTask] at hLast
    show last + INTERVAL ≤ now
    rw [release_eq] at hSome
    obtain ⟨event, hEvent⟩ := Option.isSome_iff_exists.1 hSome
    obtain ⟨slot, hFound, hHeld⟩ := Option.bind_eq_some_iff.1 hEvent
    rcases hRemembered.last timer.task last hLast with ⟨hNone, -⟩ | ⟨slot', hFound', hSent⟩
    · rw [hNone] at hFound
      cases hFound
    · rw [← Option.some.inj (hFound.symm.trans hFound')] at hSent
      have hInTime := hTimely timer hCall slot last hFound (by rw [hHeld]; rfl) hSent
      omega
  · rw [hEntry] at hSends
    cases hSends

/-- Where every timer is timely, two fan-outs of a task are an interval apart. -/
theorem spaced (hRun : Run Timely trace g) : ∀ (later : List Entry) (after : Entry) (mid : List Entry)
    (before : Entry) (earlier : List Entry) (task : Int),
    trace = later ++ after :: (mid ++ before :: earlier) → after.Sends task → before.Sends task →
      (∀ entry ∈ mid, ¬ entry.Takes task) → before.time + INTERVAL ≤ after.time := by
  intro later after mid before earlier task hTrace hAfter hBefore hMid
  rw [hTrace] at hRun
  obtain ⟨g₀, g₁, now, call, hEarlier, hTimely, hStep⟩ := hRun.before
  have hRemembered := hEarlier.remembered
  obtain ⟨last, hLast, hLe⟩ := lastSent_of_sends hBefore hMid hRemembered.times
  have hSpaced := spaced_step hRemembered hTimely hStep hAfter hLast
  omega

/-! ## The gate -/

/-- Calls one after the other, from an empty gate. -/
def play (calls : List (Nat × Call)) : Option (List Entry × Gate) :=
  calls.foldlM (fun (trace, g) (now, call) => (step g now call).map fun (entry, g') => (entry :: trace, g'))
    ([], {})

theorem run_of_steps : ∀ {calls : List (Nat × Call)} {trace trace' : List Entry} {g g' : Gate},
    Run (fun _ _ => True) trace g →
      calls.foldlM (fun (trace, g) (now, call) =>
        (step g now call).map fun (entry, g') => (entry :: trace, g')) (trace, g) = some (trace', g') →
      Run (fun _ _ => True) trace' g' := by
  intro calls
  induction calls with
  | nil =>
      intro trace trace' g g' hRun hPlayed
      have hBoth := Option.some.inj hPlayed
      rw [← show trace = trace' from congrArg Prod.fst hBoth, ← show g = g' from congrArg Prod.snd hBoth]
      exact hRun
  | cons call rest ih =>
      intro trace trace' g g' hRun hPlayed
      rw [List.foldlM_cons] at hPlayed
      obtain ⟨⟨trace₁, g₁⟩, hOne, hRest⟩ := Option.bind_eq_some_iff.1 hPlayed
      obtain ⟨⟨entry, g₂⟩, hStep, hIs⟩ := Option.map_eq_some_iff.1 hOne
      refine ih ?_ hRest
      rw [← show entry :: trace = trace₁ from congrArg Prod.fst hIs, ← show g₂ = g₁ from congrArg Prod.snd hIs]
      exact .next hRun (fun _ _ => trivial) hStep

end Rekuest.Progress
