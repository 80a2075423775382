import Rekuest.Server.Txn
import Rekuest.Task.Tree

/-!
# What one transaction does to one task

Every property of the tasks is checked against the transactions that write a
row.  `TaskStep` says once what each of them can do to a row and to the events
of its task; `taskStep` is the inversion every later proof uses, and `newTask`
the same for the rows a transaction inserts.
-/

namespace Rekuest

/-- The row a task ends with (`update_task_kind`, done). -/
def Task.ended (now : Int) (kind : TaskEventKind) (t : Task) : Task :=
  { t with
    latestEventKind := kind
    isDone := true
    finishedAt := some now
    revision := t.revision + 1 }

/-- The row of a target that a control settles. -/
def Task.settledBy (now : Int) (instruct : TaskInstructKind) (outcome : TaskEventKind)
    (t : Task) : Task :=
  { t.ended now outcome with latestInstructKind := instruct }

/-- The value of a copy: it names the held task it is about. -/
def EventValue.namesHeld : EventValue → Bool
  | .heldAssign _ _ _ _ _ held => held.isSome
  | .decision _ _ _ _ _ held => held.isSome
  | _ => false

/-- An event another task's hold or decision wrote on this one. -/
def TaskEvent.IsMirror (event : TaskEvent) : Prop :=
  event.kind = .decided ∨
    (event.kind = .held ∧ event.event.value.any (·.namesHeld) = true)

/-- What a clock or a deadline is set to in an open row that a statement
matches. -/
def Dates (e : Env) (x : Nat) (row : Task) (dispatchedAt interruptAt : Option Int) :
    Txn → Prop
  | .recordUndelivered task =>
      task = x ∧ row.isDone = false ∧ dispatchedAt = none ∧ interruptAt = row.interruptAt
  | .clearDeadline task deadline =>
      task = x ∧ row.isDone = false ∧ row.interruptAt = some deadline ∧
        dispatchedAt = row.dispatchedAt ∧ interruptAt = none
  | .setDeadline task at' =>
      task = x ∧ row.isDone = false ∧ dispatchedAt = row.dispatchedAt ∧
        interruptAt = some at'
  | .forgetDispatches agent =>
      row.agent = agent ∧ row.isDone = false ∧ row.pickedUpAt = none ∧
        dispatchedAt = none ∧ interruptAt = row.interruptAt
  | .restartPickupClock agent =>
      row.agent = agent ∧ row.isDone = false ∧ row.dispatchedAt.isSome = true ∧
        dispatchedAt = some e.now ∧ interruptAt = row.interruptAt
  | _ => False

/-- A held child's own `HELD` event. -/
def TaskEvent.IsAsk (event : TaskEvent) : Prop :=
  event.kind = .held ∧ ∃ prompt action agent parent callerAgent,
    event.event.value = some (.heldAssign prompt action agent parent callerAgent none)

inductive TaskStep (e : Env) (db : Db) (x : Nat) (row : Task) :
    Txn → Task → List TaskEvent → Prop
  /-- The row stays; at most copies of another task's hold arrive. -/
  | same (op : Txn) (events : List TaskEvent)
      (hMirror : ∀ event ∈ events, event.IsMirror) : TaskStep e db x row op row events
  | stamped : TaskStep e db x row (.stampPickup x)
      { row with pickedUpAt := some e.now } []
  /-- Deadlines and clocks: no transition. -/
  | dated (op : Txn) (dispatchedAt interruptAt : Option Int)
      (hDates : Dates e x row dispatchedAt interruptAt op) :
      TaskStep e db x row op
        { row with dispatchedAt := dispatchedAt, interruptAt := interruptAt } []
  | movedToNow (schedule : Nat) (allowsOverlap : Bool)
      (hSchedule : row.schedule = some schedule) :
      TaskStep e db x row (.moveRunToNow schedule allowsOverlap)
        { row with notBefore := some e.now, revision := row.revision + 1 } []
  | recorded (kind : TaskEventKind) (event : NewEvent) :
      TaskStep e db x row (.recordEvent x kind event) row
        [{ task := x, kind := kind, event := event }]
  | claimed (c : Claim) (hAdmits : c.admits row = true) :
      TaskStep e db x row (.claim x c) (c.move e.now row)
        (c.event.toList.map fun event =>
          { task := x, kind := c.toKind, event := event })
  | settledChild (p : Nat) (hParent : row.parent = some p)
      (hWaiting : row.isWaitingHeld = true) (hUnlocked : x ∉ e.locked)
      (event : NewEvent) (hEvent : event.agentPos = none) :
      TaskStep e db x row (.settleHeldChildren p) (row.ended e.now .cancelled)
        [{ task := x, kind := .cancelled, event := event }]
  /-- The lower child of a held child that is settled, unread. -/
  | settledLower (p wrapper : Nat) (hChild : wrapper ∈ heldChildren e.locked db p)
      (hLower : db.IsLower x wrapper) :
      TaskStep e db x row (.settleHeldChildren p) (row.ended e.now .cancelled) []
  | overridden (kind : TaskEventKind) (event : NewEvent) (last : TaskEvent)
      (hDone : row.isDone = true)
      (hLast : standingTerminal db x = some last)
      (hUnnumbered : last.event.agentPos = none) :
      TaskStep e db x row (.overrideServerOutcome x kind event)
        { row with
          latestEventKind := kind
          finishedAt := some e.now
          revision := row.revision + 1 }
        [{ task := x
           kind := kind
           event := { event with message := some (overrideMessage last event.message) }
           byOverride := true }]
  | approved (watchers : List Nat) (answer : Option String) (decided : EventValue)
      (hHeld : row.latestEventKind = .held) (hOpen : row.isDone = false)
      (dispatchedAt : Option Int) (attempts : Nat)
      (hAttempts : attempts = row.dispatchAttempts ∨ attempts = 1)
      (hRunner : runnerOf db x = x → attempts = 1)
      (event : NewEvent) (hValue : event.value = some decided) (sent : NewEvent)
      (copies : List TaskEvent) (hCopies : ∀ event ∈ copies, event.IsMirror) :
      TaskStep e db x row (.decideChild x watchers true answer decided)
        { row with
          undecided := false
          latestEventKind := .queued
          revision := row.revision + 1
          dispatchedAt := dispatchedAt
          dispatchAttempts := attempts }
        ({ task := x, kind := .decided, event := event } :: copies ++
          [{ task := x, kind := .queued, event := sent }])
  | denied (watchers : List Nat) (answer : Option String) (decided : EventValue)
      (hHeld : row.latestEventKind = .held) (hOpen : row.isDone = false)
      (event : NewEvent) (hValue : event.value = some decided)
      (outcome : NewEvent) (hOutcome : outcome.agentPos = none)
      (copies : List TaskEvent) (hCopies : ∀ event ∈ copies, event.IsMirror) :
      TaskStep e db x row (.decideChild x watchers false answer decided)
        ({ row with undecided := false }.ended e.now .denied)
        ({ task := x, kind := .decided, event := event } :: copies ++
          [{ task := x, kind := .denied, event := outcome }])
  /-- The lower child of an approved wrapper, unread. -/
  | lowerApproved (wrapper : Nat) (wrow : Task) (watchers : List Nat)
      (answer : Option String) (decided : EventValue) (hLower : db.IsLower x wrapper)
      (hWrapper : db.task? wrapper = some wrow)
      (hHeld : wrow.latestEventKind = .held) (hOpen : wrow.isDone = false)
      (copies : List TaskEvent) (hCopies : ∀ event ∈ copies, event.IsMirror) :
      TaskStep e db x row (.decideChild wrapper watchers true answer decided)
        { row with
          undecided := false
          latestEventKind := .queued
          revision := row.revision + 1
          dispatchedAt := some e.now
          dispatchAttempts := 1 } copies
  /-- The lower child of a denied wrapper, unread. -/
  | lowerDenied (wrapper : Nat) (wrow : Task) (watchers : List Nat)
      (answer : Option String) (decided : EventValue) (hLower : db.IsLower x wrapper)
      (hWrapper : db.task? wrapper = some wrow)
      (hHeld : wrow.latestEventKind = .held) (hOpen : wrow.isDone = false)
      (copies : List TaskEvent) (hCopies : ∀ event ∈ copies, event.IsMirror) :
      TaskStep e db x row (.decideChild wrapper watchers false answer decided)
        ({ row with undecided := false }.ended e.now .denied) copies
  | controlSettled (control : Control) (caller : Option Nat)
      (interruptAt : Option Int) (outcome : TaskEventKind)
      (hOutcome : control.waitingOutcome = some outcome)
      (hOpen : row.isDone = false) (hWaiting : row.stillWaiting = true)
      (event : NewEvent) (hEvent : event.agentPos = none) :
      TaskStep e db x row (.controlTarget x control caller interruptAt)
        (row.settledBy e.now control.instructKind outcome)
        [{ task := x, kind := outcome, event := event }]
  /-- The lower child of a held wrapper that a control settles, unread. -/
  | lowerSettled (wrapper : Nat) (wrow : Task) (control : Control)
      (caller : Option Nat) (interruptAt : Option Int) (outcome : TaskEventKind)
      (hOutcome : control.waitingOutcome = some outcome)
      (hLower : db.IsLower x wrapper) (hWrapper : db.task? wrapper = some wrow)
      (hOpen : wrow.isDone = false) (hHeld : wrow.latestEventKind = .held)
      (hWaiting : wrow.stillWaiting = true) :
      TaskStep e db x row (.controlTarget wrapper control caller interruptAt)
        (row.ended e.now outcome) []
  | instructed (control : Control) (caller : Option Nat) (interruptAt : Option Int)
      (hOpen : row.isDone = false)
      (hGiven : control.waitingOutcome = none ∨ row.stillWaiting = false) :
      TaskStep e db x row (.controlTarget x control caller interruptAt)
        { row with
          latestInstructKind := control.instructKind
          interruptAt := interruptAt
          revision := row.revision + 1 }
        [{ task := x, kind := control.ingingKind, event := {} }]
  | unpicked (cutoff : Int) (kind : TaskEventKind) (event : NewEvent)
      (hUnpicked : row.isUnpicked cutoff = true)
      (hKind : kind = .cancelled ∨ kind = .interrupted ∨ kind = .lost)
      (hEvent : event.agentPos = none) :
      TaskStep e db x row (.decideUnpicked x cutoff) (row.ended e.now kind)
        [{ task := x, kind := kind, event := event }]
  | redelivered (cutoff : Int) (event : NewEvent)
      (hUnpicked : row.isUnpicked cutoff = true) :
      TaskStep e db x row (.decideUnpicked x cutoff)
        { row with
          dispatchedAt := some e.now
          dispatchAttempts := row.dispatchAttempts + 1
          revision := row.revision + 1 }
        [{ task := x, kind := .queued, event := event }]
  | dueFinalized (hOpen : row.isDone = false) (hWaiting : row.isWaiting = true)
      (event : NewEvent) (hEvent : event.agentPos = none) :
      TaskStep e db x row (.claimDue x) (row.ended e.now .critical)
        [{ task := x, kind := .critical, event := event }]
  | dueDispatched (hOpen : row.isDone = false) (hWaiting : row.isWaiting = true) :
      TaskStep e db x row (.claimDue x)
        { row with
          dispatchedAt := some e.now
          dispatchAttempts := 1
          revision := row.revision + 1 } []

/-- The row and the further events of a task after a transaction. -/
def Db.Becomes (db db' : Db) (x : Nat) (row' : Task) (events : List TaskEvent) : Prop :=
  db'.task? x = some row' ∧ db'.eventsOf x = db.eventsOf x ++ events

/-! ## Rows and events of the compound writes -/

namespace Db

variable {db : Db} {x y : Nat} {f g : Task → Task}

theorem updateTaskKind_done (now : Int) (kind : TaskEventKind) :
    db.updateTaskKind now y kind true = db.modifyTask y (Task.ended now kind) := rfl

@[simp] theorem eventsOf_modifyTask : (db.modifyTask y f).eventsOf x = db.eventsOf x :=
  rfl

/-- The database with further events. -/
def addEvents (db : Db) (events : List TaskEvent) : Db :=
  { db with events := db.events ++ events }

@[simp] theorem task?_addEvents {events : List TaskEvent} :
    (db.addEvents events).task? x = db.task? x := rfl

@[simp] theorem tasks_addEvents {events : List TaskEvent} :
    (db.addEvents events).tasks = db.tasks := rfl

@[simp] theorem events_addEvents {events : List TaskEvent} :
    (db.addEvents events).events = db.events ++ events := rfl

@[simp] theorem eventsOf_addEvents {events : List TaskEvent} :
    (db.addEvents events).eventsOf x = db.eventsOf x ++ events.filter (·.task == x) := by
  simp [eventsOf]

@[simp] theorem eventsOf_insertEvent {kind : TaskEventKind} {event : NewEvent} :
    (db.insertEvent y kind event).eventsOf x = db.eventsOf x ++
      if y = x then [{ task := y, kind := kind, event := event }] else [] := by
  by_cases h : y = x <;> simp [eventsOf, h]

/-- Events written on one task after another. -/
theorem foldl_insertEvent (kind : TaskEventKind) (event : NewEvent)
    (watchers : List Nat) :
    watchers.foldl (fun db watcher => db.insertEvent watcher kind event) db =
      db.addEvents (watchers.map fun watcher =>
        { task := watcher, kind := kind, event := event }) := by
  induction watchers generalizing db with
  | nil => simp [addEvents]
  | cons w rest ih =>
      rw [List.foldl_cons, ih, insertEvent, List.map_cons, addEvents, addEvents,
        List.append_assoc]
      rfl

theorem becomes_modifyTask {row : Task} (hRow : db.task? x = some row) :
    db.Becomes (db.modifyTask y f) x (if y = x then f row else row) [] := by
  constructor
  · rw [task?_modifyTask, hRow]
    split <;> rfl
  · simp

/-- A write and its event. -/
theorem becomes_write {row : Task} (hRow : db.task? x = some row) {kind : TaskEventKind}
    {event : NewEvent} :
    db.Becomes ((db.modifyTask x f).insertEvent x kind event) x (f row)
      [{ task := x, kind := kind, event := event }] :=
  ⟨by simp [hRow], by simp⟩

theorem becomes_write_other {row : Task} (hRow : db.task? x = some row) (hNe : y ≠ x)
    {kind : TaskEventKind} {event : NewEvent} :
    db.Becomes ((db.modifyTask y f).insertEvent y kind event) x row [] :=
  ⟨by simp [task?_modifyTask, hNe, hRow], by simp [hNe]⟩

theorem becomes_same {db' : Db} {row : Task} (hRow : db.task? x = some row)
    (hTasks : db'.tasks = db.tasks) (hEvents : db'.events = db.events) :
    db.Becomes db' x row [] := by
  constructor
  · rw [← hRow, task?, task?, hTasks]
  · simp [eventsOf, hEvents]

end Db

/-! ## The transactions one by one -/

section

variable {e : Env} {db : Db} {x : Nat} {row : Task}

/-- The copies of an event on the watchers. -/
theorem mem_copies {watchers : List Nat} {event : NewEvent} {ev : TaskEvent}
    (h : ev ∈ (watchers.map fun watcher =>
      ({ task := watcher, kind := .decided, event := event } : TaskEvent)).filter
        (·.task == x)) : ev.IsMirror := by
  obtain ⟨w, -, rfl⟩ := List.mem_map.mp (List.mem_filter.mp h).1
  exact .inl rfl

/-- The tasks a decision moves: the held task and the lower child it runs. -/
theorem foldl_dictOf {α : Type} (f : α → Nat → α) (a : α) (task runner : Nat) :
    (dictOf task runner).foldl f a =
      if runner = task then f a task else f (f a task) runner := by
  unfold dictOf
  split <;> rfl

theorem decideChild_approved_row (e : Env) (hRow : db.task? x = some row) {task : Nat}
    (watchers : List Nat) (answer : Option String) (decided : EventValue)
    (hHeld : (db.task? task).any (fun t => t.latestEventKind == .held && !t.isDone) = true) :
    (decideChild e db task watchers true answer decided).2.task? x =
      some (if x = task ∨ x = runnerOf db task then
        { row with
          undecided := false
          latestEventKind := .queued
          revision := row.revision + 1
          dispatchedAt :=
            if x = runnerOf db task then some e.now else row.dispatchedAt
          dispatchAttempts :=
            if x = runnerOf db task then 1 else row.dispatchAttempts }
      else row) := by
  simp only [decideChild, hHeld, Bool.not_true, Bool.false_eq_true, if_false, if_true,
    answerHeld, foldl_dictOf, Db.foldl_insertEvent, Db.updateTaskKind]
  generalize runnerOf db task = runner
  rcases Decidable.em (runner = task) with rfl | hRunner
  · by_cases hx : runner = x
    · subst hx
      simp [hRow]
    · simp [Db.task?_modifyTask, hRow, hx, Ne.symm hx]
  · by_cases hx : task = x
    · subst hx
      simp [Db.task?_modifyTask, hRow, hRunner, Ne.symm hRunner]
    · by_cases hy : runner = x
      · subst hy
        simp [Db.task?_modifyTask, hRow, hRunner, Ne.symm hRunner]
      · simp [Db.task?_modifyTask, hRow, hRunner, hx, hy, Ne.symm hx, Ne.symm hy]

theorem decideChild_denied_row (e : Env) (hRow : db.task? x = some row) {task : Nat}
    (watchers : List Nat) (answer : Option String) (decided : EventValue)
    (hHeld : (db.task? task).any (fun t => t.latestEventKind == .held && !t.isDone) = true) :
    (decideChild e db task watchers false answer decided).2.task? x =
      some (if x = task ∨ x = runnerOf db task then
        { row with undecided := false }.ended e.now .denied
      else row) := by
  simp only [decideChild, hHeld, Bool.not_true, Bool.false_eq_true, if_false,
    answerHeld, foldl_dictOf, Db.foldl_insertEvent, Db.updateTaskKind_done]
  generalize runnerOf db task = runner
  rcases Decidable.em (runner = task) with rfl | hRunner
  · by_cases hx : runner = x
    · subst hx
      simp [hRow]
    · simp [Db.task?_modifyTask, hRow, hx, Ne.symm hx]
  · by_cases hx : task = x
    · subst hx
      simp [Db.task?_modifyTask, hRow, hRunner, Ne.symm hRunner]
    · by_cases hy : runner = x
      · subst hy
        simp [Db.task?_modifyTask, hRow, hRunner, Ne.symm hRunner]
      · simp [Db.task?_modifyTask, hRow, hRunner, hx, hy, Ne.symm hx, Ne.symm hy]

/-- The events of a decision: on the held task, on its watchers, and what the
held task becomes. -/
theorem decideChild_events (e : Env) {task : Nat} (watchers : List Nat) (approved : Bool)
    (answer : Option String) (decided : EventValue)
    (hHeld : (db.task? task).any (fun t => t.latestEventKind == .held && !t.isDone) = true) :
    ∃ event copy outcome : NewEvent, event.value = some decided ∧
      outcome.agentPos = none ∧
      (decideChild e db task watchers approved answer decided).2.events =
        db.events ++ ({ task := task, kind := .decided, event := event } ::
          (watchers.map fun watcher =>
            { task := watcher, kind := .decided, event := copy }) ++
          [{ task := task
             kind := if approved then .queued else .denied
             event := outcome }]) := by
  cases approved with
  | true =>
      refine ⟨{ message := some "Approved.", value := some decided },
        { message := some "Approved.", value := some (decided.withHeld task) },
        { message := some "Approved: handed to its agent." }, rfl, rfl, ?_⟩
      simp only [decideChild, hHeld, Bool.not_true, Bool.false_eq_true, if_false,
        if_true, answerHeld, foldl_dictOf, Db.foldl_insertEvent, Db.updateTaskKind]
      split <;> simp
  | false =>
      refine ⟨{ message := some "Denied.", value := some decided },
        { message := some "Denied.", value := some (decided.withHeld task) },
        { message := some "Denied: it never ran."
          value := some (.denied answer decided.user) }, rfl, rfl, ?_⟩
      simp only [decideChild, hHeld, Bool.not_true, Bool.false_eq_true, if_false,
        answerHeld, foldl_dictOf, Db.foldl_insertEvent, Db.updateTaskKind]
      split <;> simp

theorem filter_decided (x task : Nat) (watchers : List Nat) (event copy outcome : NewEvent)
    (kind : TaskEventKind) :
    ∃ copies : List TaskEvent, (∀ event ∈ copies, event.IsMirror) ∧
      ({ task := task, kind := .decided, event := event } ::
        (watchers.map fun watcher =>
          { task := watcher, kind := .decided, event := copy }) ++
        [{ task := task, kind := kind, event := outcome }] : List TaskEvent).filter
          (·.task == x) =
      if task = x then
        { task := x, kind := .decided, event := event } :: copies ++
          [{ task := x, kind := kind, event := outcome }]
      else copies := by
  refine ⟨(watchers.map fun watcher =>
    { task := watcher, kind := .decided, event := copy }).filter (·.task == x),
    fun _ => mem_copies, ?_⟩
  by_cases h : task = x
  · subst h
    simp
  · simp [h]

/-- What a decision does to a row: nothing unless it is the held task or the
lower child that runs it, and the task is still held. -/
theorem decideChild_steps (hRow : db.task? x = some row) (task : Nat)
    (watchers : List Nat) (approved : Bool) (answer : Option String)
    (decided : EventValue) :
    ∃ row' events, db.Becomes (decideChild e db task watchers approved answer decided).2
        x row' events ∧
      TaskStep e db x row (.decideChild task watchers approved answer decided) row'
        events := by
  by_cases hHeld : (db.task? task).any (fun t => t.latestEventKind == .held && !t.isDone)
  case neg =>
    simp only [decideChild, hHeld]
    exact ⟨row, [], ⟨hRow, by simp⟩, .same _ _ (by simp)⟩
  case pos =>
    obtain ⟨trow, hTask, hHeld'⟩ := Option.any_eq_true _ _ |>.mp hHeld
    simp only [Bool.and_eq_true, beq_iff_eq, Bool.not_eq_true'] at hHeld'
    obtain ⟨event, copy, outcome, hValue, hOutcome, hEvents⟩ :=
      decideChild_events e watchers approved answer decided hHeld
    obtain ⟨copies, hCopies, hFilter⟩ := filter_decided x task watchers event copy outcome
      (if approved then .queued else .denied)
    have hOf := congrArg (List.filter (·.task == x)) hEvents
    rw [List.filter_append, hFilter] at hOf
    cases approved with
    | true =>
        have hNew := decideChild_approved_row e hRow watchers answer decided hHeld
        by_cases hx : x = task
        · subst hx
          rw [hRow, Option.some.injEq] at hTask
          subst hTask
          rw [if_pos (.inl rfl)] at hNew
          rw [if_pos rfl] at hOf
          refine ⟨_, _, ⟨hNew, hOf⟩, .approved watchers answer decided hHeld'.1 hHeld'.2
            _ _ ?_ ?_ event hValue outcome copies hCopies⟩
          · split
            · exact .inr rfl
            · exact .inl rfl
          · intro h
            rw [if_pos h.symm]
        · rw [if_neg (Ne.symm hx)] at hOf
          by_cases hy : x = runnerOf db task
          · rw [if_pos (.inr hy), if_pos hy, if_pos hy] at hNew
            have hLower : db.IsLower x task :=
              hy ▸ Db.runnerOf_isLower (hy ▸ hx)
            exact ⟨_, _, ⟨hNew, hOf⟩, .lowerApproved task trow watchers answer decided
              hLower hTask hHeld'.1 hHeld'.2 copies hCopies⟩
          · rw [if_neg (by simp [hx, hy])] at hNew
            exact ⟨_, _, ⟨hNew, hOf⟩, .same _ _ hCopies⟩
    | false =>
        have hNew := decideChild_denied_row e hRow watchers answer decided hHeld
        by_cases hx : x = task
        · subst hx
          rw [hRow, Option.some.injEq] at hTask
          subst hTask
          rw [if_pos (.inl rfl)] at hNew
          rw [if_pos rfl] at hOf
          exact ⟨_, _, ⟨hNew, hOf⟩, .denied watchers answer decided hHeld'.1 hHeld'.2
            event hValue outcome hOutcome copies hCopies⟩
        · rw [if_neg (Ne.symm hx)] at hOf
          by_cases hy : x = runnerOf db task
          · rw [if_pos (.inr hy)] at hNew
            have hLower : db.IsLower x task :=
              hy ▸ Db.runnerOf_isLower (hy ▸ hx)
            exact ⟨_, _, ⟨hNew, hOf⟩, .lowerDenied task trow watchers answer decided
              hLower hTask hHeld'.1 hHeld'.2 copies hCopies⟩
          · rw [if_neg (by simp [hx, hy])] at hNew
            exact ⟨_, _, ⟨hNew, hOf⟩, .same _ _ hCopies⟩

/-! ### Settling the children of a task that ended -/

theorem ended_sameTree (now : Int) (kind : TaskEventKind) (y : Nat) :
    db.SameTree (db.modifyTask y (Task.ended now kind)) :=
  Db.sameTree_modifyTask fun _ => ⟨rfl, rfl, rfl, rfl, rfl, rfl, rfl⟩

theorem settleHeldChild_eq (db : Db) (now : Int) (y : Nat) :
    ∃ event : NewEvent, event.agentPos = none ∧
      settleHeldChild now db y =
        if runnerOf db y = y then
          (db.modifyTask y (Task.ended now .cancelled)).insertEvent y .cancelled event
        else
          ((db.modifyTask y (Task.ended now .cancelled)).insertEvent y .cancelled
            event).modifyTask (runnerOf db y) (Task.ended now .cancelled) := by
  refine ⟨{ message := some "Its parent ended while it was held — never dispatched." },
    rfl, ?_⟩
  have hRunner (event : NewEvent) : runnerOf ((db.modifyTask y (Task.ended now
      .cancelled)).insertEvent y .cancelled event) y = runnerOf db y :=
    ((ended_sameTree now .cancelled y).trans Db.sameTree_insertEvent).runnerOf
  simp only [settleHeldChild, settleHeldLower, Db.updateTaskKind_done, hRunner]

theorem settleHeldChild_sameTree (now : Int) (y : Nat) :
    db.SameTree (settleHeldChild now db y) := by
  obtain ⟨event, -, hEq⟩ := settleHeldChild_eq db now y
  rw [hEq]
  have hOne : db.SameTree ((db.modifyTask y (Task.ended now .cancelled)).insertEvent y
      .cancelled event) := (ended_sameTree now .cancelled y).trans Db.sameTree_insertEvent
  split
  · exact hOne
  · exact hOne.trans (ended_sameTree now .cancelled _)

theorem foldl_settleHeldChild_sameTree (db : Db) (now : Int) (children : List Nat) :
    db.SameTree (children.foldl (settleHeldChild now) db) := by
  induction children generalizing db with
  | nil => exact .refl db
  | cons y rest ih => exact (settleHeldChild_sameTree now y).trans (ih _)

/-- A task that is neither settled nor the lower child of one that is. -/
theorem foldl_settleHeldChild_other (db : Db) (now : Int) (children : List Nat)
    (hNot : x ∉ children) (hLower : ∀ y ∈ children, runnerOf db y ≠ x) :
    (children.foldl (settleHeldChild now) db).task? x = db.task? x ∧
      (children.foldl (settleHeldChild now) db).eventsOf x = db.eventsOf x := by
  induction children generalizing db with
  | nil => exact ⟨rfl, rfl⟩
  | cons y rest ih =>
      rw [List.mem_cons, not_or] at hNot
      have hRest := ih (settleHeldChild now db y) hNot.2 fun z hz => by
        rw [(settleHeldChild_sameTree now y).runnerOf]
        exact hLower z (List.mem_cons_of_mem _ hz)
      have hRunner := hLower y List.mem_cons_self
      obtain ⟨event, -, hEq⟩ := settleHeldChild_eq db now y
      rw [List.foldl_cons, hRest.1, hRest.2, hEq]
      split
      · simp [Db.task?_modifyTask, Ne.symm hNot.1]
      · simp [Db.task?_modifyTask, Ne.symm hNot.1, hRunner]

/-- One settled child among others that leave `x` alone. -/
theorem foldl_settleHeldChild_split (hRow : db.task? x = some row) (now : Int)
    {children : List Nat} {y : Nat} (hNodup : children.Nodup) (hy : y ∈ children)
    (hSelf : x ∈ children → x = y)
    (hOther : ∀ z ∈ children, z ≠ y → runnerOf db z ≠ x) :
    ∃ mid, db.SameTree mid ∧ mid.task? x = some row ∧ ∀ row' events,
      mid.Becomes (settleHeldChild now mid y) x row' events →
        db.Becomes (children.foldl (settleHeldChild now) db) x row' events := by
  obtain ⟨before, after, rfl⟩ := List.append_of_mem hy
  have hBefore : y ∉ before := fun h =>
    (List.nodup_append.mp hNodup).2.2 y h y List.mem_cons_self rfl
  have hAfter : y ∉ after :=
    (List.nodup_cons.mp (List.nodup_append.mp hNodup).2.1).1
  have hSame := foldl_settleHeldChild_sameTree db now before
  have hFirst := foldl_settleHeldChild_other db now before
    (fun h => hBefore (hSelf (List.mem_append_left _ h) ▸ h))
    fun z hz => hOther z (List.mem_append_left _ hz) fun h => hBefore (h ▸ hz)
  refine ⟨before.foldl (settleHeldChild now) db, hSame, hFirst.1.trans hRow, ?_⟩
  intro row' events hBecomes
  have hLast := foldl_settleHeldChild_other
    (settleHeldChild now (before.foldl (settleHeldChild now) db) y) now after
    (fun h => hAfter (hSelf (List.mem_append_right _ (List.mem_cons_of_mem _ h)) ▸ h))
    fun z hz => by
      rw [(hSame.trans (settleHeldChild_sameTree now y)).runnerOf]
      exact hOther z (List.mem_append_right _ (List.mem_cons_of_mem _ hz))
        fun h => hAfter (h ▸ hz)
  rw [List.foldl_append, List.foldl_cons]
  exact ⟨hLast.1.trans hBecomes.1,
    hLast.2.trans (hBecomes.2.trans (by rw [hFirst.2]))⟩

theorem settleHeldChild_self (hRow : db.task? x = some row) (now : Int) :
    ∃ event : NewEvent, event.agentPos = none ∧
      db.Becomes (settleHeldChild now db x) x (row.ended now .cancelled)
        [{ task := x, kind := .cancelled, event := event }] := by
  obtain ⟨event, hEvent, hEq⟩ := settleHeldChild_eq db now x
  refine ⟨event, hEvent, ?_⟩
  rw [hEq]
  split
  case isTrue => exact ⟨by simp [hRow], by simp⟩
  case isFalse hNe => exact ⟨by simp [Db.task?_modifyTask, hRow, hNe], by simp⟩

theorem settleHeldChild_lower (hRow : db.task? x = some row) (now : Int) {y : Nat}
    (hRunner : runnerOf db y = x) (hNe : y ≠ x) :
    db.Becomes (settleHeldChild now db y) x (row.ended now .cancelled) [] := by
  obtain ⟨event, -, hEq⟩ := settleHeldChild_eq db now y
  rw [hEq, hRunner, if_neg (Ne.symm hNe)]
  exact ⟨by simp [Db.task?_modifyTask, hRow, hNe], by simp [hNe]⟩

theorem mem_heldChildren {locked : List Nat} {p y : Nat} :
    y ∈ heldChildren locked db p ↔
      (∃ row, db.task? y = some row ∧ row.parent = some p ∧ row.isWaitingHeld = true) ∧
        y ∉ locked := by
  simp only [heldChildren, List.mem_filter, List.mem_range, Bool.and_eq_true,
    Option.any_eq_true, beq_iff_eq, Bool.not_eq_true', List.contains_eq_mem,
    decide_eq_false_iff_not]
  constructor
  · rintro ⟨-, h⟩
    exact h
  · rintro ⟨⟨row, hRow, h⟩, hLocked⟩
    exact ⟨Db.task?_lt hRow, ⟨row, hRow, h⟩, hLocked⟩

/-- Settled children are siblings: none runs another. -/
theorem heldChildren_siblings (hTree : db.Tree) {locked : List Nat} {p y z : Nat}
    (hy : y ∈ heldChildren locked db p) (hz : z ∈ heldChildren locked db p) (hNe : y ≠ z) :
    runnerOf db y ≠ z := by
  rintro rfl
  obtain ⟨⟨yrow, hYrow, hYParent, -⟩, -⟩ := mem_heldChildren.mp hy
  obtain ⟨⟨zrow, hZrow, hZParent, -⟩, -⟩ := mem_heldChildren.mp hz
  obtain ⟨lrow, hLrow, -, hLParent⟩ := Db.runnerOf_isLower (Ne.symm hNe)
  rw [hZrow, Option.some.injEq] at hLrow
  subst hLrow
  rw [hZParent, Option.some.injEq] at hLParent
  subst hLParent
  exact absurd (hTree.parent_lt hYrow hYParent) (Nat.lt_irrefl _)

theorem heldChildren_nodup {locked : List Nat} {p : Nat} :
    (heldChildren locked db p).Nodup :=
  List.nodup_range.sublist List.filter_sublist

theorem settleHeldChildren_child (hTree : db.Tree) (hRow : db.task? x = some row)
    {p : Nat} (hChild : x ∈ heldChildren e.locked db p) :
    ∃ event : NewEvent, event.agentPos = none ∧
      db.Becomes (settleHeldChildren e db p) x (row.ended e.now .cancelled)
        [{ task := x, kind := .cancelled, event := event }] := by
  obtain ⟨mid, -, hMid, hSettle⟩ := foldl_settleHeldChild_split hRow e.now
    heldChildren_nodup hChild (fun _ => rfl)
    fun z hz hNe => heldChildren_siblings hTree hz hChild hNe
  obtain ⟨event, hEvent, hBecomes⟩ := settleHeldChild_self hMid e.now
  exact ⟨event, hEvent, hSettle _ _ hBecomes⟩

/-- What settling the children of a task does to a row: nothing unless it is a
child still held that is not locked, or the lower child of one. -/
theorem settleHeldChildren_steps (hTree : db.Tree) (hRow : db.task? x = some row)
    (p : Nat) :
    ∃ row' events, db.Becomes (settleHeldChildren e db p) x row' events ∧
      TaskStep e db x row (.settleHeldChildren p) row' events := by
  by_cases hChild : x ∈ heldChildren e.locked db p
  case pos =>
    obtain ⟨⟨row₀, hRow₀, hParent, hWaiting⟩, hUnlocked⟩ := mem_heldChildren.mp hChild
    rw [hRow, Option.some.injEq] at hRow₀
    subst hRow₀
    obtain ⟨event, hEvent, hBecomes⟩ := settleHeldChildren_child hTree hRow hChild
    exact ⟨_, _, hBecomes, .settledChild p hParent hWaiting hUnlocked event hEvent⟩
  case neg =>
    by_cases hLower : ∃ y ∈ heldChildren e.locked db p, runnerOf db y = x
    case pos =>
      obtain ⟨y, hy, hRunner⟩ := hLower
      have hNe : y ≠ x := fun h => hChild (h ▸ hy)
      have hIsLower : db.IsLower x y := hRunner ▸ Db.runnerOf_isLower (hRunner ▸ Ne.symm hNe)
      obtain ⟨mid, hSame, hMid, hSettle⟩ := foldl_settleHeldChild_split hRow e.now
        heldChildren_nodup hy (fun h => absurd h hChild) fun z hz hNeZ hRun => by
          have hZ : z ≠ x := fun h => hChild (h ▸ hz)
          exact hNeZ ((hRun ▸ Db.runnerOf_isLower (hRun ▸ Ne.symm hZ) :
            db.IsLower x z).wrapper_unique hIsLower)
      have hBecomes := settleHeldChild_lower hMid e.now (hSame.runnerOf.trans hRunner) hNe
      exact ⟨_, _, hSettle _ _ hBecomes, .settledLower p y hy hIsLower⟩
    case neg =>
      have hSame := foldl_settleHeldChild_other db e.now
        (heldChildren e.locked db p) hChild fun y hy h => hLower ⟨y, hy, h⟩
      exact ⟨row, [], ⟨hSame.1.trans hRow, by rw [List.append_nil]; exact hSame.2⟩,
        .same _ _ (by simp)⟩

/-! ### Controls -/

@[simp] theorem Db.task?_insertInstruct {y : Nat} {kind : TaskInstructKind}
    {caller : Option Nat} : (db.insertInstruct y kind caller).task? x = db.task? x := rfl

@[simp] theorem Db.eventsOf_insertInstruct {y : Nat} {kind : TaskInstructKind}
    {caller : Option Nat} :
    (db.insertInstruct y kind caller).eventsOf x = db.eventsOf x := rfl

theorem settleHeldLower_becomes (hRow : db.task? x = some row) (now : Int)
    {y : Nat} (outcome : TaskEventKind) :
    db.Becomes (settleHeldLower now db y outcome) x
      (if x = runnerOf db y ∧ x ≠ y then row.ended now outcome else row) [] := by
  rw [settleHeldLower, Db.updateTaskKind_done]
  split
  case isTrue hEq =>
    rw [if_neg (by rintro ⟨h, hNe⟩; exact hNe (h.trans hEq))]
    exact ⟨hRow, by simp⟩
  case isFalse hNe =>
    by_cases hx : runnerOf db y = x
    · subst hx
      rw [if_pos ⟨rfl, hNe⟩]
      exact ⟨by simp [hRow], by simp⟩
    · rw [if_neg (by rintro ⟨h, -⟩; exact hx h.symm)]
      exact ⟨by simp [Db.task?_modifyTask, hx, hRow], by simp⟩

theorem settledBy_sameTree (now : Int) (instruct : TaskInstructKind)
    (outcome : TaskEventKind) (y : Nat) :
    db.SameTree (db.modifyTask y (Task.settledBy now instruct outcome)) :=
  Db.sameTree_modifyTask fun _ => ⟨rfl, rfl, rfl, rfl, rfl, rfl, rfl⟩

theorem settleTarget_eq (db : Db) (now : Int) (target : Nat) (trow : Task)
    (instruct : TaskInstructKind) (outcome : TaskEventKind) :
    ∃ event : NewEvent, event.agentPos = none ∧
      settleTarget now db target trow instruct outcome =
        if trow.latestEventKind = .held then
          settleHeldLower now ((db.modifyTask target (Task.settledBy now instruct
            outcome)).insertEvent target outcome event) target outcome
        else (db.modifyTask target (Task.settledBy now instruct outcome)).insertEvent
          target outcome event := by
  by_cases hHeld : trow.latestEventKind = .held
  · refine ⟨{ message := some "Settled while it was held — never dispatched." }, rfl, ?_⟩
    simp only [settleTarget, hHeld, beq_self_eq_true, if_true]
    rfl
  · refine ⟨{ message := some "Settled before it was due — never dispatched." }, rfl, ?_⟩
    simp only [settleTarget, hHeld, beq_eq_false_iff_ne.mpr hHeld, Bool.false_eq_true,
      if_false]
    rfl

/-- What settling a target does: it ends the target and, when that was held,
the lower child that would run it. -/
theorem settleTarget_becomes (hRow : db.task? x = some row) (now : Int) (target : Nat)
    (trow : Task) (instruct : TaskInstructKind) (outcome : TaskEventKind) :
    ∃ event : NewEvent, event.agentPos = none ∧
      db.Becomes (settleTarget now db target trow instruct outcome) x
        (if x = target then row.settledBy now instruct outcome
        else if trow.latestEventKind = .held ∧ x = runnerOf db target then
          row.ended now outcome
        else row)
        (if x = target then [{ task := x, kind := outcome, event := event }]
        else []) := by
  obtain ⟨event, hEvent, hEq⟩ := settleTarget_eq db now target trow instruct outcome
  refine ⟨event, hEvent, ?_⟩
  rw [hEq]
  have hSame : db.SameTree ((db.modifyTask target (Task.settledBy now instruct
      outcome)).insertEvent target outcome event) :=
    (settledBy_sameTree now instruct outcome target).trans Db.sameTree_insertEvent
  have hSettled : db.Becomes ((db.modifyTask target (Task.settledBy now instruct
      outcome)).insertEvent target outcome event) x
      (if x = target then row.settledBy now instruct outcome else row)
      (if x = target then [{ task := x, kind := outcome, event := event }] else []) := by
    by_cases hx : x = target
    · subst hx
      exact ⟨by simp [hRow], by simp⟩
    · exact ⟨by simp [Db.task?_modifyTask, Ne.symm hx, hx, hRow],
        by simp [hx, Ne.symm hx]⟩
  generalize (db.modifyTask target (Task.settledBy now instruct outcome)).insertEvent
    target outcome event = mid at hSame hSettled
  by_cases hHeld : trow.latestEventKind = .held
  · have hLower := settleHeldLower_becomes hSettled.1 now (y := target) outcome
    rw [hSame.runnerOf] at hLower
    rw [if_pos hHeld]
    refine ⟨hLower.1.trans ?_, hLower.2.trans (by rw [hSettled.2, List.append_nil])⟩
    by_cases hx : x = target
    · simp [hx]
    · by_cases hRun : x = runnerOf db target
      · rw [if_pos ⟨hRun, hx⟩, if_neg hx, if_neg hx, if_pos ⟨hHeld, hRun⟩]
      · simp [hx, hRun]
  · simpa [hHeld] using hSettled

theorem controlTarget_steps (hRow : db.task? x = some row)
    (target : Nat) (control : Control) (caller : Option Nat) (interruptAt : Option Int) :
    ∃ row' events, db.Becomes (controlTarget e db target control caller interruptAt).2
        x row' events ∧
      TaskStep e db x row (.controlTarget target control caller interruptAt) row'
        events := by
  cases hTarget : db.task? target with
  | none =>
      simp only [controlTarget, hTarget]
      exact ⟨row, [], ⟨hRow, by simp⟩, .same _ _ (by simp)⟩
  | some trow =>
      cases hOpen : trow.isDone with
      | true =>
          simp only [controlTarget, hTarget, hOpen, if_true]
          exact ⟨row, [], ⟨hRow, by simp⟩, .same _ _ (by simp)⟩
      | false =>
          simp only [controlTarget, hTarget, hOpen, Bool.false_eq_true, if_false]
          split
          case h_1 outcome hOutcome hWaiting =>
            obtain ⟨event, hEvent, hNew⟩ := settleTarget_becomes hRow e.now target trow
              control.instructKind outcome
            refine ⟨_, _, hNew, ?_⟩
            by_cases hx : x = target
            · subst hx
              rw [hRow, Option.some.injEq] at hTarget
              subst hTarget
              rw [if_pos rfl, if_pos rfl]
              exact .controlSettled control caller interruptAt outcome hOutcome hOpen
                hWaiting event hEvent
            · rw [if_neg hx, if_neg hx]
              split
              case isTrue hLower =>
                exact .lowerSettled target trow control caller interruptAt outcome
                  hOutcome (hLower.2 ▸ Db.runnerOf_isLower (hLower.2 ▸ hx)) hTarget
                  hOpen hLower.1 hWaiting
              case isFalse => exact .same _ _ (by simp)
          case h_2 hGiven =>
            by_cases hx : x = target
            · subst hx
              rw [hRow, Option.some.injEq] at hTarget
              subst hTarget
              refine ⟨_, _, ⟨?_, ?_⟩, .instructed control caller interruptAt hOpen ?_⟩
              · simp [hRow]
              · simp
              · cases hOutcome : control.waitingOutcome with
                | none => exact .inl rfl
                | some outcome =>
                    refine .inr ?_
                    cases hWaiting : row.stillWaiting with
                    | true => exact absurd hWaiting (hGiven outcome hOutcome)
                    | false => rfl
            · refine ⟨row, [], ⟨?_, ?_⟩, .same _ _ (by simp)⟩
              · simp [Db.task?_modifyTask, Ne.symm hx, hRow]
              · simp [Ne.symm hx]

/-! ### The sweeps -/

theorem finalizeLocked_becomes (hRow : db.task? x = some row) (now : Int)
    {kind : TaskEventKind} {message : String} {value : Option EventValue} :
    db.Becomes (finalizeLocked now db x kind message value) x (row.ended now kind)
      [{ task := x, kind := kind, event := { message := some message, value := value } }] := by
  simp only [finalizeLocked, Db.updateTaskKind_done]
  exact ⟨by simp [hRow], by simp⟩

theorem finalizeLocked_other {y : Nat} (hRow : db.task? x = some row) (hNe : y ≠ x)
    (now : Int) {kind : TaskEventKind} {message : String} {value : Option EventValue} :
    db.Becomes (finalizeLocked now db y kind message value) x row [] := by
  simp only [finalizeLocked, Db.updateTaskKind_done]
  exact ⟨by simp [Db.task?_modifyTask, hNe, hRow], by simp [hNe]⟩

theorem unpickedOutcome_kind {y : Nat} {kind : TaskEventKind} {message : String}
    (h : unpickedOutcome e db y row = .inl (kind, message)) :
    kind = .cancelled ∨ kind = .interrupted ∨ kind = .lost := by
  simp only [unpickedOutcome] at h
  split at h
  case h_1 => cases h; exact .inl rfl
  case h_2 => cases h; exact .inr (.inl rfl)
  case h_3 =>
    split at h
    case isTrue => cases h; exact .inr (.inr rfl)
    case isFalse =>
      split at h
      case h_1 => cases h; exact .inr (.inr rfl)
      case h_2 => cases h

theorem decideUnpicked_steps (hRow : db.task? x = some row) (task : Nat) (cutoff : Int) :
    ∃ row' events, db.Becomes (decideUnpicked e db task cutoff).2 x row' events ∧
      TaskStep e db x row (.decideUnpicked task cutoff) row' events := by
  cases hTask : db.task? task with
  | none =>
      simp only [decideUnpicked, hTask]
      exact ⟨row, [], ⟨hRow, by simp⟩, .same _ _ (by simp)⟩
  | some trow =>
      simp only [decideUnpicked, hTask]
      split
      case isTrue => exact ⟨row, [], ⟨hRow, by simp⟩, .same _ _ (by simp)⟩
      case isFalse hMine =>
        simp only [Bool.or_eq_true, Bool.not_eq_true', not_or, Bool.not_eq_false] at hMine
        by_cases hx : task = x
        case pos =>
          subst hx
          rw [hRow, Option.some.injEq] at hTask
          subst hTask
          split
          case h_1 kind message hOutcome =>
            exact ⟨_, _, finalizeLocked_becomes hRow e.now, .unpicked cutoff kind _
              hMine.2 (unpickedOutcome_kind hOutcome) rfl⟩
          case h_2 assign hOutcome =>
            exact ⟨_, _, Db.becomes_write hRow, .redelivered cutoff _ hMine.2⟩
        case neg =>
          split
          case h_1 kind message hOutcome =>
            exact ⟨row, [], finalizeLocked_other hRow hx e.now, .same _ _ (by simp)⟩
          case h_2 assign hOutcome =>
            exact ⟨row, [], Db.becomes_write_other hRow hx, .same _ _ (by simp)⟩

theorem claimDue_steps (hRow : db.task? x = some row) (task : Nat) :
    ∃ row' events, db.Becomes (claimDue e db task).2 x row' events ∧
      TaskStep e db x row (.claimDue task) row' events := by
  cases hTask : db.task? task with
  | none =>
      simp only [claimDue, hTask]
      exact ⟨row, [], ⟨hRow, by simp⟩, .same _ _ (by simp)⟩
  | some trow =>
      simp only [claimDue, hTask]
      split
      case isTrue => exact ⟨row, [], ⟨hRow, by simp⟩, .same _ _ (by simp)⟩
      case isFalse hMine =>
        simp only [Bool.or_eq_true, Bool.not_eq_true', not_or, Bool.not_eq_true,
          Bool.not_eq_false] at hMine
        by_cases hx : task = x
        case pos =>
          subst hx
          rw [hRow, Option.some.injEq] at hTask
          subst hTask
          split
          case h_1 =>
            exact ⟨_, _, finalizeLocked_becomes hRow e.now,
              .dueFinalized hMine.1.1.2 hMine.1.2 _ rfl⟩
          case h_2 =>
            exact ⟨_, _, ⟨by simp [hRow], by simp⟩,
              .dueDispatched hMine.1.1.2 hMine.1.2⟩
        case neg =>
          split
          case h_1 => exact ⟨row, [], finalizeLocked_other hRow hx e.now, .same _ _ (by simp)⟩
          case h_2 =>
            exact ⟨row, [], ⟨by simp [Db.task?_modifyTask, hx, hRow], by simp⟩,
              .same _ _ (by simp)⟩

/-! ### Reports and claims -/

theorem overrideServerOutcome_steps (hRow : db.task? x = some row) (task : Nat)
    (kind : TaskEventKind) (event : NewEvent) :
    ∃ row' events, db.Becomes (overrideServerOutcome e db task kind event).2 x row'
        events ∧
      TaskStep e db x row (.overrideServerOutcome task kind event) row' events := by
  have hSame : ∃ row' events, db.Becomes db x row' events ∧
      TaskStep e db x row (.overrideServerOutcome task kind event) row' events :=
    ⟨row, [], ⟨hRow, by simp⟩, .same _ _ (by simp)⟩
  simp only [overrideServerOutcome]
  split
  case isTrue => exact hSame
  case isFalse hDone =>
    split
    case h_1 => exact hSame
    case h_2 last hLast =>
      split
      case isTrue => exact hSame
      case isFalse hUnnumbered =>
        rw [Bool.not_eq_true, Option.isSome_eq_false_iff, Option.isNone_iff_eq_none]
          at hUnnumbered
        by_cases hx : task = x
        · subst hx
          refine ⟨_, _, ⟨?_, ?_⟩, .overridden kind event last ?_ hLast hUnnumbered⟩
          · exact (Db.becomes_modifyTask hRow).1.trans (by rw [if_pos rfl])
          · exact Db.eventsOf_addEvents.trans (by simp)
          · simpa [hRow] using hDone
        · refine ⟨row, [], ⟨?_, ?_⟩, .same _ _ (by simp)⟩
          · exact (Db.becomes_modifyTask hRow).1.trans (by rw [if_neg hx])
          · exact Db.eventsOf_addEvents.trans (by simp [hx])

theorem claim_steps (hRow : db.task? x = some row) (task : Nat) (c : Claim) :
    ∃ row' events, db.Becomes (claimTask e db task c).2 x row' events ∧
      TaskStep e db x row (.claim task c) row' events := by
  rcases claimTask_cases e db task c with hLost | ⟨trow, hTask, hAdmits, hWon⟩
  · rw [hLost]
    exact ⟨row, [], ⟨hRow, by simp⟩, .same _ _ (by simp)⟩
  · rw [hWon]
    by_cases hx : task = x
    · subst hx
      rw [hRow, Option.some.injEq] at hTask
      subst hTask
      refine ⟨_, _, ?_, .claimed c hAdmits⟩
      cases hEvent : c.event with
      | none => exact ⟨by simp [hRow], by simp⟩
      | some event => exact ⟨by simp [hRow], by simp⟩
    · refine ⟨row, [], ?_, .same _ _ (by simp)⟩
      cases hEvent : c.event with
      | none => exact ⟨by simp [Db.task?_modifyTask, hx, hRow], by simp⟩
      | some event => exact ⟨by simp [Db.task?_modifyTask, hx, hRow], by simp [hx]⟩

theorem recordEvent_steps (hRow : db.task? x = some row) (task : Nat)
    (kind : TaskEventKind) (event : NewEvent) :
    ∃ row' events, db.Becomes (recordEvent db task kind event).2 x row' events ∧
      TaskStep e db x row (.recordEvent task kind event) row' events := by
  simp only [recordEvent]
  split
  case isTrue => exact ⟨row, [], ⟨hRow, by simp⟩, .same _ _ (by simp)⟩
  case isFalse =>
    by_cases hx : task = x
    · subst hx
      exact ⟨row, _, ⟨hRow, by simp⟩, .recorded kind event⟩
    · exact ⟨row, [], ⟨hRow, by simp [hx]⟩, .same _ _ (by simp)⟩

/-- The events of a held child: its own, and copies on its watchers. -/
theorem recordHeldChild_eventsOf (x : Nat) (db : Db) (child : HeldChild) :
    ∃ copies : List TaskEvent, (∀ event ∈ copies, event.IsMirror) ∧
      (recordHeldChild db child).eventsOf x = db.eventsOf x ++
        ((if child.task = x then
          [{ task := child.task, kind := .held, event := heldEvent db child none }]
        else []) ++ copies) := by
  refine ⟨((watchers child.parent child.root).map fun watcher =>
    { task := watcher, kind := .held
      event := heldEvent db child (some child.task) }).filter (·.task == x), ?_, ?_⟩
  · intro event hEvent
    obtain ⟨w, -, rfl⟩ := List.mem_map.mp (List.mem_filter.mp hEvent).1
    exact .inr ⟨rfl, rfl⟩
  · simp only [recordHeldChild, Db.foldl_insertEvent, Db.eventsOf_addEvents,
      Db.eventsOf_insertEvent, List.append_assoc]

theorem task?_recordHeldChild (child : HeldChild) :
    (recordHeldChild db child).task? x = db.task? x := by
  simp [recordHeldChild, Db.foldl_insertEvent]

/-- Inserted rows leave the older ones, up to copies of their hold. -/
theorem recordHeld_steps (hRow : db.task? x = some row) (op : Txn) (new : NewTask)
    (ask : Ask) (rows : List Task) :
    ∃ row' events, db.Becomes
        (recordHeld { db with tasks := db.tasks ++ rows } db.tasks.length new ask) x row'
          events ∧
      TaskStep e db x row op row' events := by
  have hRow' : { db with tasks := db.tasks ++ rows : Db }.task? x = some row := by
    simpa [Db.task?] using List.getElem?_append_left (Db.task?_lt hRow) |>.trans hRow
  unfold recordHeld
  split
  case h_1 parent root _ _ _ =>
    obtain ⟨copies, hCopies, hEvents⟩ := recordHeldChild_eventsOf x
      { db with tasks := db.tasks ++ rows }
      { task := db.tasks.length
        parent := parent
        root := root
        action := ask.action
        agent := ask.agent
        prompt := ask.prompt }
    rw [if_neg (Nat.ne_of_gt (Db.task?_lt hRow))] at hEvents
    exact ⟨row, copies, ⟨(task?_recordHeldChild _).trans hRow', hEvents⟩,
      .same _ _ hCopies⟩
  case h_2 => exact ⟨row, [], ⟨hRow', by simp [Db.eventsOf]⟩, .same _ _ (by simp)⟩

theorem insertTask_steps (hRow : db.task? x = some row) (new : NewTask) (ask : Ask) :
    ∃ row' events, db.Becomes (insertTask e db new ask).2 x row' events ∧
      TaskStep e db x row (.insertTask new ask) row' events := by
  simp only [insertTask]
  split
  case isTrue => exact ⟨row, [], ⟨hRow, by simp⟩, .same _ _ (by simp)⟩
  case isFalse =>
    split
    case isTrue => exact ⟨row, [], ⟨hRow, by simp⟩, .same _ _ (by simp)⟩
    case isFalse => exact recordHeld_steps hRow _ new ask _

theorem insertHigherOrder_steps (hRow : db.task? x = some row) (wrapper lower : NewTask)
    (ask : Ask) :
    ∃ row' events, db.Becomes (insertHigherOrder e db wrapper lower ask).2 x row' events ∧
      TaskStep e db x row (.insertHigherOrder wrapper lower ask) row' events := by
  simp only [insertHigherOrder]
  split
  case isTrue => exact ⟨row, [], ⟨hRow, by simp⟩, .same _ _ (by simp)⟩
  case isFalse =>
    split
    case isTrue => exact ⟨row, [], ⟨hRow, by simp⟩, .same _ _ (by simp)⟩
    case isFalse => exact recordHeld_steps hRow _ wrapper ask _

/-! ### Clocks and deadlines -/

theorem stampPickup_steps (hRow : db.task? x = some row) (task : Nat) :
    ∃ row' events, db.Becomes (stampPickup e db task) x row' events ∧
      TaskStep e db x row (.stampPickup task) row' events := by
  refine ⟨_, _, Db.becomes_modifyTask hRow, ?_⟩
  split
  case isTrue hx =>
    subst hx
    split
    case isTrue => exact .stamped
    case isFalse => exact .same _ _ (by simp)
  case isFalse => exact .same _ _ (by simp)

/-- A statement on one row that moves a clock or a deadline, or nothing. -/
theorem dated_steps (hRow : db.task? x = some row) (op : Txn) (task : Nat)
    (f : Task → Task) (hf : task = x → f row = row ∨ ∃ dispatchedAt interruptAt, f row =
      { row with dispatchedAt := dispatchedAt, interruptAt := interruptAt } ∧
        Dates e x row dispatchedAt interruptAt op) :
    ∃ row' events, db.Becomes (db.modifyTask task f) x row' events ∧
      TaskStep e db x row op row' events := by
  refine ⟨_, _, Db.becomes_modifyTask hRow, ?_⟩
  split
  case isTrue hx =>
    rcases hf hx with hSame | ⟨dispatchedAt, interruptAt, hEq, hDates⟩
    · rw [hSame]
      exact .same _ _ (by simp)
    · rw [hEq]
      exact .dated op dispatchedAt interruptAt hDates
  case isFalse => exact .same _ _ (by simp)

theorem updateTasks_steps (hRow : db.task? x = some row) (op : Txn) (p : Task → Bool)
    (f : Task → Task)
    (hf : p row = true → ∃ dispatchedAt interruptAt, f row =
      { row with dispatchedAt := dispatchedAt, interruptAt := interruptAt } ∧
        Dates e x row dispatchedAt interruptAt op) :
    ∃ row' events, db.Becomes (db.updateTasks p f) x row' events ∧
      TaskStep e db x row op row' events := by
  have hNew : (db.updateTasks p f).task? x = some (if p row then f row else row) := by
    have hGet : db.tasks[x]? = some row := hRow
    simp [Db.updateTasks, Db.task?, List.getElem?_map, hGet]
  refine ⟨_, [], ⟨hNew, by simp [Db.updateTasks, Db.eventsOf]⟩, ?_⟩
  split
  case isTrue hMatch =>
    obtain ⟨dispatchedAt, interruptAt, hEq, hDates⟩ := hf hMatch
    rw [hEq]
    exact .dated op dispatchedAt interruptAt hDates
  case isFalse => exact .same _ _ (by simp)

theorem moveRunToNow_steps (hRow : db.task? x = some row) (schedule : Nat)
    (allowsOverlap : Bool) :
    ∃ row' events, db.Becomes (moveRunToNow e db schedule allowsOverlap).2 x row' events ∧
      TaskStep e db x row (.moveRunToNow schedule allowsOverlap) row' events := by
  simp only [moveRunToNow]
  split
  case h_1 moved hFind =>
    refine ⟨_, _, Db.becomes_modifyTask hRow, ?_⟩
    split
    case isTrue hx =>
      subst hx
      obtain ⟨hLt, hP, -⟩ := List.findIdx?_eq_some_iff_getElem.mp hFind
      have hGet : db.tasks[moved] = row :=
        Option.some.inj ((List.getElem?_eq_getElem hLt).symm.trans hRow)
      rw [hGet] at hP
      simp only [Bool.and_eq_true, beq_iff_eq] at hP
      exact .movedToNow schedule allowsOverlap hP.1.1
    case isFalse => exact .same _ _ (by simp)
  case h_2 =>
    split <;> exact ⟨row, [], ⟨hRow, by simp⟩, .same _ _ (by simp)⟩

theorem Db.onLease_tasks {α : Type} {agent : Nat} {default : α}
    {op : Leases.AgentLease → α × Leases.AgentLease} :
    (db.onLease agent default op).2.tasks = db.tasks := by
  unfold Db.onLease
  split <;> rfl

theorem Db.onLease_events {α : Type} {agent : Nat} {default : α}
    {op : Leases.AgentLease → α × Leases.AgentLease} :
    (db.onLease agent default op).2.events = db.events := by
  unfold Db.onLease
  split <;> rfl

/-- Operations on other tables. -/
theorem other_steps {db' : Db} (hRow : db.task? x = some row) (op : Txn)
    (hTasks : db'.tasks = db.tasks) (hEvents : db'.events = db.events) :
    ∃ row' events, db.Becomes db' x row' events ∧ TaskStep e db x row op row' events :=
  ⟨row, [], Db.becomes_same hRow hTasks hEvents, .same _ _ (by simp)⟩

/-- **Inversion**: every transaction leaves a task's row as one of `TaskStep`. -/
theorem taskStep (settings : Settings) (e : Env) (op : Txn) (hTree : db.Tree)
    (hRow : db.task? x = some row) :
    ∃ row' events, db.Becomes (Txn.exec settings e op db).2 x row' events ∧
      TaskStep e db x row op row' events := by
  cases op with
  | query α read => exact other_steps hRow _ rfl rfl
  | stampPickup task => exact stampPickup_steps hRow task
  | recordEvent task kind event => exact recordEvent_steps hRow task kind event
  | claim task c => exact claim_steps hRow task c
  | settleHeldChildren p => exact settleHeldChildren_steps hTree hRow p
  | overrideServerOutcome task kind event =>
      exact overrideServerOutcome_steps hRow task kind event
  | decideChild task watchers approved answer decided =>
      exact decideChild_steps hRow task watchers approved answer decided
  | controlTarget target control caller interruptAt =>
      exact controlTarget_steps hRow target control caller interruptAt
  | insertTask new ask => exact insertTask_steps hRow new ask
  | insertHigherOrder wrapper lower ask => exact insertHigherOrder_steps hRow wrapper lower ask
  | getCaller caller =>
      refine other_steps hRow _ ?_ ?_
      all_goals
        simp only [Txn.exec, getCaller]
        split <;> rfl
  | decideUnpicked task cutoff => exact decideUnpicked_steps hRow task cutoff
  | claimDue task => exact claimDue_steps hRow task
  | recordUndelivered task =>
      refine dated_steps hRow _ task _ fun hx => ?_
      split
      case isTrue => exact .inl rfl
      case isFalse hOpen =>
        exact .inr ⟨none, row.interruptAt, rfl, hx, by simpa using hOpen, rfl, rfl⟩
  | clearDeadline task deadline =>
      refine dated_steps hRow _ task _ fun hx => ?_
      split
      case isTrue hMatch =>
        simp only [Bool.and_eq_true, Bool.not_eq_true', beq_iff_eq] at hMatch
        exact .inr ⟨row.dispatchedAt, none, rfl, hx, hMatch.1, hMatch.2, rfl, rfl⟩
      case isFalse => exact .inl rfl
  | setDeadline task at' =>
      refine dated_steps hRow _ task _ fun hx => ?_
      split
      case isTrue => exact .inl rfl
      case isFalse hOpen =>
        exact .inr ⟨row.dispatchedAt, some at', rfl, hx, by simpa using hOpen, rfl, rfl⟩
  | forgetDispatches agent =>
      refine updateTasks_steps hRow _ _ _ fun hMatch => ?_
      simp only [Bool.and_eq_true, Bool.not_eq_true', beq_iff_eq,
        Option.isNone_iff_eq_none] at hMatch
      exact ⟨none, row.interruptAt, rfl, hMatch.1.1, hMatch.1.2, hMatch.2, rfl, rfl⟩
  | restartPickupClock agent =>
      refine updateTasks_steps hRow _ _ _ fun hMatch => ?_
      simp only [Bool.and_eq_true, Bool.not_eq_true', beq_iff_eq] at hMatch
      exact ⟨some e.now, row.interruptAt, rfl, hMatch.1.1.1.1, hMatch.1.1.1.2, hMatch.2,
        rfl, rfl⟩
  | moveRunToNow schedule allowsOverlap => exact moveRunToNow_steps hRow schedule allowsOverlap
  | claimLease agent connection session force =>
      exact other_steps hRow _ Db.onLease_tasks Db.onLease_events
  | releaseLease agent connection =>
      exact other_steps hRow _ Db.onLease_tasks Db.onLease_events
  | renewLease agent connection =>
      exact other_steps hRow _ Db.onLease_tasks Db.onLease_events
  | revokeLease agent => exact other_steps hRow _ Db.onLease_tasks Db.onLease_events
  | deliver agent frame =>
      refine other_steps hRow _ ?_ ?_
      all_goals
        simp only [Txn.exec]
        split <;> rfl

/-! ## The rows a transaction inserts -/

/-- A row a transaction inserts. -/
inductive NewRow (e : Env) (db : Db) (x : Nat) : Txn → Task → Prop
  | plain (new : NewTask) (ask : Ask) (hx : x = db.tasks.length) :
      NewRow e db x (.insertTask new ask) (new.row e.now)
  | wrapper (wrapper lower : NewTask) (ask : Ask) (hx : x = db.tasks.length) :
      NewRow e db x (.insertHigherOrder wrapper lower ask) (wrapper.row e.now)
  | lower (wrapper lower : NewTask) (ask : Ask) (hx : x = db.tasks.length + 1) :
      NewRow e db x (.insertHigherOrder wrapper lower ask)
        ((lowerChild lower wrapper.root db.tasks.length).row e.now)

theorem Db.tasks_insertInstruct {y : Nat} {kind : TaskInstructKind} {caller : Option Nat} :
    (db.insertInstruct y kind caller).tasks = db.tasks := rfl

theorem tasks_recordHeld (task : Nat) (new : NewTask) (ask : Ask) :
    (recordHeld db task new ask).tasks = db.tasks := by
  unfold recordHeld
  split
  · simp [recordHeldChild, Db.foldl_insertEvent]
  · rfl

theorem Db.length_updateTaskKind {now : Int} {y : Nat} {kind : TaskEventKind} {done : Bool} :
    (db.updateTaskKind now y kind done).tasks.length = db.tasks.length := by
  simp [Db.updateTaskKind]

theorem length_decideChild {task : Nat} {watchers : List Nat} {approved : Bool}
    {answer : Option String} {decided : EventValue} :
    (decideChild e db task watchers approved answer decided).2.tasks.length =
      db.tasks.length := by
  simp only [decideChild]
  split
  · rfl
  · simp only [answerHeld, foldl_dictOf, Db.foldl_insertEvent]
    cases approved <;> by_cases hRunner : runnerOf db task = task <;>
      simp [hRunner, Db.length_updateTaskKind]

theorem length_controlTarget {target : Nat} {control : Control} {caller : Option Nat}
    {interruptAt : Option Int} :
    (controlTarget e db target control caller interruptAt).2.tasks.length =
      db.tasks.length := by
  simp only [controlTarget]
  split
  · rfl
  · split
    · rfl
    · split
      · rw [Db.tasks_insertInstruct]
        obtain ⟨event, -, hEq⟩ := settleTarget_eq db e.now target _
          control.instructKind _
        rw [hEq]
        split
        · rw [settleHeldLower]
          split <;> simp [Db.length_updateTaskKind]
        · simp
      · simp [Db.tasks_insertInstruct]

theorem length_finalizeLocked {now : Int} {y : Nat} {kind : TaskEventKind}
    {message : String} {value : Option EventValue} :
    (finalizeLocked now db y kind message value).tasks.length = db.tasks.length := by
  simp [finalizeLocked, Db.length_updateTaskKind]

/-- Only an assign inserts rows. -/
theorem length_exec (e : Env) (db : Db) (settings : Settings) (op : Txn)
    (hTask : ∀ new ask, op ≠ .insertTask new ask)
    (hHigher : ∀ wrapper lower ask, op ≠ .insertHigherOrder wrapper lower ask) :
    (Txn.exec settings e op db).2.tasks.length = db.tasks.length := by
  cases op with
  | insertTask new ask => exact absurd rfl (hTask new ask)
  | insertHigherOrder wrapper lower ask => exact absurd rfl (hHigher wrapper lower ask)
  | query α read => rfl
  | stampPickup task => exact Db.tasks_length_modifyTask
  | recordEvent task kind event =>
      simp only [Txn.exec, recordEvent]
      split <;> rfl
  | claim task c =>
      simp only [Txn.exec]
      rcases claimTask_cases e db task c with hLost | ⟨row, -, -, hWon⟩
      · rw [hLost]
      · rw [hWon]
        cases c.event <;> simp
  | settleHeldChildren p => exact (foldl_settleHeldChild_sameTree _ e.now _).length
  | overrideServerOutcome task kind event =>
      simp only [Txn.exec, overrideServerOutcome]
      split
      · rfl
      · split
        · rfl
        · split
          · rfl
          · exact Db.tasks_length_modifyTask
  | decideChild task watchers approved answer decided => exact length_decideChild
  | controlTarget target control caller interruptAt => exact length_controlTarget
  | getCaller caller =>
      simp only [Txn.exec, getCaller]
      split <;> rfl
  | decideUnpicked task cutoff =>
      simp only [Txn.exec, decideUnpicked]
      split
      · rfl
      · split
        · rfl
        · split
          · exact length_finalizeLocked
          · simp
  | claimDue task =>
      simp only [Txn.exec, claimDue]
      split
      · rfl
      · split
        · rfl
        · split
          · exact length_finalizeLocked
          · exact Db.tasks_length_modifyTask
  | recordUndelivered task => exact Db.tasks_length_modifyTask
  | clearDeadline task deadline => exact Db.tasks_length_modifyTask
  | setDeadline task at' => exact Db.tasks_length_modifyTask
  | forgetDispatches agent => exact List.length_map _
  | restartPickupClock agent => exact List.length_map _
  | moveRunToNow schedule allowsOverlap =>
      simp only [Txn.exec, moveRunToNow]
      split
      · exact Db.tasks_length_modifyTask
      · split <;> rfl
  | claimLease agent connection session force => exact congrArg _ Db.onLease_tasks
  | releaseLease agent connection => exact congrArg _ Db.onLease_tasks
  | renewLease agent connection => exact congrArg _ Db.onLease_tasks
  | revokeLease agent => exact congrArg _ Db.onLease_tasks
  | deliver agent frame =>
      simp only [Txn.exec]
      split <;> rfl

/-- **Inversion** of a row that was not there before. -/
theorem newRow (settings : Settings) (e : Env) (op : Txn) {row' : Task}
    (hNone : db.task? x = none)
    (hRow : (Txn.exec settings e op db).2.task? x = some row') : NewRow e db x op row' := by
  have hGe : db.tasks.length ≤ x := List.getElem?_eq_none_iff.mp hNone
  have hLt := Db.task?_lt hRow
  have hAppend {rows : List Task} (hTasks : (Txn.exec settings e op db).2.tasks =
      db.tasks ++ rows) : rows[x - db.tasks.length]? = some row' := by
    rw [← List.getElem?_append_right hGe, ← hTasks]
    exact hRow
  by_cases hTask : ∃ new ask, op = .insertTask new ask
  case pos =>
    obtain ⟨new, ask, rfl⟩ := hTask
    simp only [Txn.exec, insertTask] at hLt hAppend
    split at hLt
    case isTrue => exact absurd hLt (Nat.not_lt.mpr hGe)
    case isFalse hFresh =>
      split at hLt
      case isTrue => exact absurd hLt (Nat.not_lt.mpr hGe)
      case isFalse hMints =>
        rw [if_neg hFresh, if_neg hMints] at hAppend
        have hGet := hAppend (tasks_recordHeld ..)
        obtain ⟨hZero, rfl⟩ : x - db.tasks.length = 0 ∧ new.row e.now = row' := by
          simpa [List.getElem?_singleton] using hGet
        exact .plain new ask (by omega)
  case neg =>
    by_cases hHigher : ∃ wrapper lower ask, op = .insertHigherOrder wrapper lower ask
    case pos =>
      obtain ⟨wrapper, lower, ask, rfl⟩ := hHigher
      simp only [Txn.exec, insertHigherOrder] at hLt hAppend
      split at hLt
      case isTrue => exact absurd hLt (Nat.not_lt.mpr hGe)
      case isFalse hFresh =>
        split at hLt
        case isTrue => exact absurd hLt (Nat.not_lt.mpr hGe)
        case isFalse hMints =>
          rw [if_neg hFresh, if_neg hMints] at hAppend
          have hGet := hAppend (tasks_recordHeld ..)
          match hIndex : x - db.tasks.length with
          | 0 =>
              rw [hIndex] at hGet
              cases hGet
              exact .wrapper wrapper lower ask (by omega)
          | 1 =>
              rw [hIndex] at hGet
              cases hGet
              exact .lower wrapper lower ask (by omega)
          | i + 2 =>
              rw [hIndex] at hGet
              cases hGet
    case neg =>
      have := length_exec e db settings op
        (fun new ask h => hTask ⟨new, ask, h⟩)
        fun wrapper lower ask h => hHigher ⟨wrapper, lower, ask, h⟩
      omega

end

end Rekuest
