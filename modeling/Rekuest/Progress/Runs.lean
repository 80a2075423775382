import Rekuest.Progress.Gate

/-!
# What the gate does

What is held of a task is what its last call held, and a timer is in flight for it.  So a hold is
sent by the task's next timer, handed out by its next other event, or replaced by its next report.
Two fan-outs are an interval apart where no timer finds what was held after a later fan-out than
the one it was armed for.
-/

namespace Rekuest.Progress

/-! ## One call -/

theorem lookup_retain (keep : Slot → Bool) (slots : Slots) (task : Int) :
    (retain keep slots).lookup task = (slots.lookup task).filter keep := by
  cases hFound : slots.lookup task with
  | none =>
      rw [AList.lookup_eq_none] at hFound
      apply AList.lookup_eq_none.2
      intro hMem
      obtain ⟨slot, hIn⟩ := List.exists_of_mem_keys hMem
      have hSlot : (⟨task, slot⟩ : Sigma fun _ : Int => Slot) ∈ slots.entries := (List.mem_filter.1 hIn).1
      exact hFound (List.mem_keys_of_mem hSlot)
  | some slot =>
      have hIn : (⟨task, slot⟩ : Sigma fun _ : Int => Slot) ∈ slots.entries := AList.mem_lookup_iff.1 hFound
      by_cases hKeep : keep slot = true
      · rw [Option.filter_some_pos hKeep]
        exact AList.mem_lookup_iff.2 (List.mem_filter.2 ⟨hIn, hKeep⟩)
      · rw [Option.filter_some_neg (Bool.eq_false_iff.2 hKeep)]
        cases hKept : (retain keep slots).lookup task with
        | none => rfl
        | some slot' =>
            obtain ⟨hIn', hKeep'⟩ := List.mem_filter.1 (AList.mem_lookup_iff.1 hKept)
            have hSame : some slot' = some slot := (AList.mem_lookup_iff.2 hIn').symm.trans hFound
            rw [Option.some.inj hSame] at hKeep'
            exact absurd hKeep' hKeep

/-- A slot that is there or, when the gate was full, is forgotten. -/
def Thinned (now : Nat) (before after : Option Slot) : Prop :=
  after = before ∨ after = none ∧ ∃ slot, before = some slot ∧ slot.kept now = false

theorem Thinned.of_filter (now : Nat) (before : Option Slot) :
    Thinned now before (before.filter (Slot.kept now)) := by
  cases before with
  | none => exact .inl rfl
  | some slot =>
      by_cases hKept : slot.kept now = true
      · exact .inl (Option.filter_some_pos hKept)
      · have hForgot : slot.kept now = false := Bool.eq_false_iff.2 hKept
        exact .inr ⟨Option.filter_some_neg hForgot, slot, rfl, hForgot⟩

/-- What a report does: it is held behind the last one that was sent, or sent. -/
theorem admit_cases (slots : Slots) (task event : Int) (now : Nat) :
    (∀ other, other ≠ task →
      Thinned now (slots.lookup other) ((admit_event slots task event now).1.lookup other)) ∧
    ∃ found, Thinned now (slots.lookup task) found ∧
      ((∃ slot last, found = some slot ∧ slot.last_sent = some last ∧ now - last < INTERVAL ∧
          (admit_event slots task event now).1.lookup task =
            some { slot with held := some event, armed := true } ∧
          (admit_event slots task event now).2 =
            if slot.armed then .held else .heldArm (INTERVAL - (now - last))) ∨
        ((∀ slot last, found = some slot → slot.last_sent = some last → INTERVAL ≤ now - last) ∧
          (admit_event slots task event now).1.lookup task = some ⟨some now, none, (found.getD {}).armed⟩ ∧
          (admit_event slots task event now).2 = .now)) := by
  have hThinned : ∀ other, Thinned now (slots.lookup other)
      ((if MAX_TRACKED ≤ slots.entries.length then retain (Slot.kept now) slots else slots).lookup other) := by
    intro other
    by_cases hFull : MAX_TRACKED ≤ slots.entries.length
    · rw [if_pos hFull, lookup_retain]
      exact Thinned.of_filter now _
    · rw [if_neg hFull]
      exact .inl rfl
  unfold admit_event
  dsimp only
  generalize (if MAX_TRACKED ≤ slots.entries.length then retain (Slot.kept now) slots else slots) = left
    at hThinned
  generalize hSlot : (left.lookup task).getD {} = slot
  cases hLast : slot.last_sent.filter fun last => now - last < INTERVAL with
  | some last =>
      obtain ⟨hSent, hWithin⟩ := Option.filter_eq_some_iff.1 hLast
      have hFound : left.lookup task = some slot := by
        cases hLeft : left.lookup task with
        | none =>
            rw [hLeft] at hSlot
            rw [← hSlot] at hSent
            cases hSent
        | some slot' =>
            rw [hLeft] at hSlot
            exact congrArg some hSlot
      dsimp only
      by_cases hArmed : slot.armed = true
      · rw [if_pos hArmed]
        refine ⟨?_, some slot, hFound ▸ hThinned task, .inl ⟨slot, last, rfl, hSent, of_decide_eq_true hWithin, ?_, ?_⟩⟩
        · intro other hOther
          rw [AList.lookup_insert_ne hOther]
          exact hThinned other
        · rw [AList.lookup_insert, ← hArmed]
        · rw [if_pos hArmed]
      · rw [if_neg hArmed]
        refine ⟨?_, some slot, hFound ▸ hThinned task, .inl ⟨slot, last, rfl, hSent, of_decide_eq_true hWithin, ?_, ?_⟩⟩
        · intro other hOther
          rw [AList.lookup_insert_ne hOther]
          exact hThinned other
        · rw [AList.lookup_insert]
        · rw [if_neg hArmed]
  | none =>
      refine ⟨?_, left.lookup task, hThinned task, .inr ⟨?_, ?_, rfl⟩⟩
      · intro other hOther
        rw [AList.lookup_insert_ne hOther]
        exact hThinned other
      · intro slot' last hFound hSent
        rw [hFound] at hSlot
        have hIs : slot' = slot := hSlot
        rw [hIs] at hSent
        rw [hSent] at hLast
        by_cases hWithin : now - last < INTERVAL
        · have hKept : (some last).filter (fun last => now - last < INTERVAL) = some last :=
            Option.filter_some_pos (decide_eq_true hWithin)
          rw [hKept] at hLast
          cases hLast
        · omega
      · rw [AList.lookup_insert, hSlot]

/-- What a timer does: it sends what is held. -/
theorem release_cases (slots : Slots) (task : Int) (now : Nat) :
    (∀ other, other ≠ task → (release slots task now).1.lookup other = slots.lookup other) ∧
    (slots.lookup task = none ∧ (release slots task now).1.lookup task = none ∧
        (release slots task now).2 = none ∨
      (∃ slot, slots.lookup task = some slot ∧ slot.held = none ∧
        (release slots task now).1.lookup task = some { slot with armed := false } ∧
        (release slots task now).2 = none) ∨
      ∃ slot event, slots.lookup task = some slot ∧ slot.held = some event ∧
        (release slots task now).1.lookup task = some ⟨some now, none, false⟩ ∧
        (release slots task now).2 = some event) := by
  unfold release
  cases hFound : slots.lookup task with
  | none => exact ⟨fun _ _ => rfl, .inl ⟨rfl, hFound, rfl⟩⟩
  | some slot =>
      dsimp only
      cases hHeld : slot.held with
      | none =>
          refine ⟨fun _ hOther => AList.lookup_insert_ne hOther, .inr (.inl ⟨slot, rfl, hHeld, ?_, rfl⟩)⟩
          rw [AList.lookup_insert, hHeld]
      | some event =>
          refine ⟨fun _ hOther => AList.lookup_insert_ne hOther, .inr (.inr ⟨slot, event, rfl, hHeld, ?_, rfl⟩)⟩
          exact AList.lookup_insert _

/-! ## What is held -/

/-- What a call leaves held of its task. -/
def Entry.holds : Entry → Option Int
  | .admitted _ event answer _ => if answer = .now then none else some event
  | _ => none

/-- What the last call of a task left held. -/
def holding (task : Int) : List Entry → Option Int
  | [] => none
  | entry :: earlier => if entry.task = task then entry.holds else holding task earlier

/-- What is held of a task is what the gate was left with, and is armed for; a timer is in
flight for what is armed. -/
structure Held (trace : List Entry) (g : Gate) : Prop where
  held : ∀ task, (g.slots.lookup task).bind (·.held) = holding task trace
  armed : ∀ task slot, g.slots.lookup task = some slot → slot.held.isSome = true → slot.armed = true
  timers : ∀ task slot, g.slots.lookup task = some slot → slot.armed = true →
    ∃ timer ∈ g.timers, timer.task = task

/-- Nothing is held of what is forgotten. -/
theorem Held.thinned {trace : List Entry} {g : Gate} (hHeld : Held trace g) {now : Nat} {task : Int}
    {after : Option Slot} (hThinned : Thinned now (g.slots.lookup task) after) :
    after.bind (·.held) = holding task trace ∧
      ∀ slot, after = some slot → g.slots.lookup task = some slot := by
  rcases hThinned with hSame | ⟨hGone, slot, hWas, hKept⟩
  · rw [hSame]
    exact ⟨hHeld.held task, fun _ hIs => hIs⟩
  · rw [hGone]
    refine ⟨?_, nofun⟩
    rw [← hHeld.held task, hWas]
    cases hSlot : slot.held with
    | none => exact hSlot.symm
    | some event =>
        have hArmed := hHeld.armed task slot hWas (by rw [hSlot]; rfl)
        unfold Slot.kept at hKept
        rw [hArmed] at hKept
        cases hKept

theorem Held.admitted {trace : List Entry} {g : Gate} (hHeld : Held trace g) (task event : Int) (now : Nat) :
    Held (.admitted task event (admit_event g.slots task event now).2 now :: trace)
      ⟨(admit_event g.slots task event now).1, (admit_event g.slots task event now).2.arms task now ++ g.timers, now⟩ := by
  obtain ⟨hOthers, found, hThinned, hOwn⟩ := admit_cases g.slots task event now
  obtain ⟨-, hWas⟩ := hHeld.thinned hThinned
  generalize admit_event g.slots task event now = outcome at hOthers hOwn ⊢
  obtain ⟨slots, answer⟩ := outcome
  dsimp only at hOthers hOwn ⊢
  have hKeeps : ∀ {timer : Timer}, timer ∈ g.timers → timer ∈ answer.arms task now ++ g.timers :=
    fun hMem => List.mem_append.2 (.inr hMem)
  constructor
  · intro other
    unfold holding
    show (slots.lookup other).bind (·.held) = if task = other then _ else _
    by_cases hOther : task = other
    · rw [if_pos hOther, ← hOther]
      rcases hOwn with ⟨slot, last, -, -, -, hLookup, hAnswer⟩ | ⟨-, hLookup, hAnswer⟩
      · rw [hLookup]
        show some event = if answer = .now then none else some event
        rw [if_neg]
        rw [hAnswer]
        by_cases hArmed : slot.armed = true
        · rw [if_pos hArmed]
          nofun
        · rw [if_neg hArmed]
          nofun
      · rw [hLookup, hAnswer]
        rfl
    · rw [if_neg hOther]
      exact (hHeld.thinned (hOthers other fun hIs => hOther hIs.symm)).1
  · intro other slot hLookup hSome
    dsimp only at hLookup
    by_cases hOther : other = task
    · rw [hOther] at hLookup
      rcases hOwn with ⟨slot', last, -, -, -, hIs, -⟩ | ⟨-, hIs, -⟩
      · rw [← Option.some.inj (hIs.symm.trans hLookup)]
      · rw [← Option.some.inj (hIs.symm.trans hLookup)] at hSome
        cases hSome
    · exact hHeld.armed other slot ((hHeld.thinned (hOthers other hOther)).2 slot hLookup) hSome
  · intro other slot hLookup hArmed
    dsimp only at hLookup ⊢
    by_cases hOther : other = task
    · rw [hOther] at hLookup ⊢
      rcases hOwn with ⟨slot', last, hFound, -, -, -, hAnswer⟩ | ⟨-, hIs, -⟩
      · by_cases hWasArmed : slot'.armed = true
        · obtain ⟨timer, hMem, hOf⟩ := hHeld.timers task slot' (hWas slot' hFound) hWasArmed
          exact ⟨timer, hKeeps hMem, hOf⟩
        · rw [if_neg hWasArmed] at hAnswer
          rw [hAnswer]
          exact ⟨⟨task, _⟩, List.mem_cons_self, rfl⟩
      · rw [← Option.some.inj (hIs.symm.trans hLookup)] at hArmed
        cases hFound : found with
        | none =>
            rw [hFound] at hArmed
            cases hArmed
        | some slot' =>
            rw [hFound] at hArmed
            obtain ⟨timer, hMem, hOf⟩ := hHeld.timers task slot' (hWas slot' hFound) hArmed
            exact ⟨timer, hKeeps hMem, hOf⟩
    · obtain ⟨timer, hMem, hOf⟩ := hHeld.timers other slot
        ((hHeld.thinned (hOthers other hOther)).2 slot hLookup) hArmed
      exact ⟨timer, hKeeps hMem, hOf⟩

theorem Held.released {trace : List Entry} {g : Gate} (hHeld : Held trace g) (timer : Timer) (now : Nat) :
    Held (.released timer.task (release g.slots timer.task now).2 now :: trace)
      ⟨(release g.slots timer.task now).1, g.timers.erase timer, now⟩ := by
  obtain ⟨hOthers, hOwn⟩ := release_cases g.slots timer.task now
  generalize release g.slots timer.task now = outcome at hOthers hOwn ⊢
  obtain ⟨slots, sent⟩ := outcome
  dsimp only at hOthers hOwn ⊢
  have hDisarmed : ∀ slot, slots.lookup timer.task = some slot → slot.armed = false ∧ slot.held = none := by
    intro slot hLookup
    rcases hOwn with ⟨-, hIs, -⟩ | ⟨slot', -, hNone, hIs, -⟩ | ⟨_, _, -, -, hIs, -⟩
    · rw [hIs] at hLookup
      cases hLookup
    · rw [← Option.some.inj (hIs.symm.trans hLookup)]
      exact ⟨rfl, hNone⟩
    · rw [← Option.some.inj (hIs.symm.trans hLookup)]
      exact ⟨rfl, rfl⟩
  constructor
  · intro other
    unfold holding
    show (slots.lookup other).bind (·.held) = if timer.task = other then none else _
    by_cases hOther : timer.task = other
    · rw [if_pos hOther, ← hOther]
      cases hLookup : slots.lookup timer.task with
      | none => rfl
      | some slot => exact (hDisarmed slot hLookup).2
    · rw [if_neg hOther, hOthers other fun hIs => hOther hIs.symm]
      exact hHeld.held other
  · intro other slot hLookup hSome
    dsimp only at hLookup
    by_cases hOther : other = timer.task
    · rw [hOther] at hLookup
      rw [(hDisarmed slot hLookup).2] at hSome
      cases hSome
    · rw [hOthers other hOther] at hLookup
      exact hHeld.armed other slot hLookup hSome
  · intro other slot hLookup hArmed
    dsimp only at hLookup ⊢
    by_cases hOther : other = timer.task
    · rw [hOther] at hLookup
      rw [(hDisarmed slot hLookup).1] at hArmed
      cases hArmed
    · rw [hOthers other hOther] at hLookup
      obtain ⟨timer', hMem, hOf⟩ := hHeld.timers other slot hLookup hArmed
      refine ⟨timer', ?_, hOf⟩
      have hNe : timer' ≠ timer := by
        intro hIs
        rw [← hOf, hIs] at hOther
        exact hOther rfl
      exact (List.mem_erase_of_ne hNe).2 hMem

theorem Held.taken {trace : List Entry} {g : Gate} (hHeld : Held trace g) (task : Int) (now : Nat) :
    Held (.taken task (take_held g.slots task).2 now :: trace) ⟨(take_held g.slots task).1, g.timers, now⟩ := by
  unfold take_held
  constructor
  · intro other
    unfold holding
    show ((g.slots.erase task).lookup other).bind (·.held) = if task = other then none else _
    by_cases hOther : task = other
    · rw [if_pos hOther, ← hOther, AList.lookup_erase]
      rfl
    · rw [if_neg hOther, AList.lookup_erase_ne fun hIs => hOther hIs.symm]
      exact hHeld.held other
  · intro other slot hLookup hSome
    dsimp only at hLookup
    by_cases hOther : other = task
    · rw [hOther, AList.lookup_erase] at hLookup
      cases hLookup
    · rw [AList.lookup_erase_ne hOther] at hLookup
      exact hHeld.armed other slot hLookup hSome
  · intro other slot hLookup hArmed
    dsimp only at hLookup
    by_cases hOther : other = task
    · rw [hOther, AList.lookup_erase] at hLookup
      cases hLookup
    · rw [AList.lookup_erase_ne hOther] at hLookup
      exact hHeld.timers other slot hLookup hArmed

end Rekuest.Progress
