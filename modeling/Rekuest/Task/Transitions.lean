import Rekuest.Task.Row

/-!
# The task transition primitive

`persist/transitions.rs`: whether a task is still open and may be moved is
decided under its row lock, in the transaction that writes the event.  A
transaction is one function of the database here; the programs that run it
are in `Rekuest.Server`.
-/

namespace Rekuest

/-- The columns a claim sets beside the kind (`Claim::extra`). -/
inductive ClaimExtra
  | none
  /-- `interrupt_at = NULL` -/
  | clearInterruptAt
  /-- A workflow sent again: `picked_up_at = NULL, dispatched_at = now,
  dispatch_attempts = 1, resumes = resumes + 1`. -/
  | resume
  deriving DecidableEq, Repr

def ClaimExtra.set (now : Int) (t : Task) : ClaimExtra → Task
  | .none => t
  | .clearInterruptAt => { t with interruptAt := .none }
  | .resume => { t with
      pickedUpAt := .none
      dispatchedAt := some now
      dispatchAttempts := 1
      resumes := t.resumes + 1 }

/-- A transition to take under the lock. -/
structure Claim where
  toKind : TaskEventKind
  markDone : Bool := false
  /-- Lose the claim when the task already reads this kind. -/
  skipIfKind : Option TaskEventKind := none
  /-- Lose the claim unless this holds for the locked row. -/
  onlyIf : Task → Bool := fun _ => true
  /-- The event to write in the same transaction; `none` writes none. -/
  event : Option NewEvent := some {}
  /-- Step over a row another backend holds instead of waiting for it. -/
  skipLocked : Bool := false
  extra : ClaimExtra := .none

/-- Whether the claim may move the locked row. -/
def Claim.admits (c : Claim) (row : Task) : Bool :=
  !row.isDone && c.skipIfKind != some row.latestEventKind && c.onlyIf row

/-- The row a won claim leaves. -/
def Claim.move (c : Claim) (now : Int) (row : Task) : Task :=
  c.extra.set now { row with
    latestEventKind := c.toKind
    isDone := if c.markDone then true else row.isDone
    finishedAt := if c.markDone then some now else row.finishedAt
    revision := row.revision + 1 }

/-- The transaction of `claim`; whether it won. -/
def claimTask (e : Env) (db : Db) (task : Nat) (c : Claim) : Bool × Db :=
  match db.task? task with
  | none => (false, db)
  | some row =>
      if c.skipLocked && e.locked.contains task then (false, db)
      else if !c.admits row then (false, db)
      else
        let moved := db.modifyTask task (c.move e.now)
        match c.event with
        | some event => (true, moved.insertEvent task c.toKind event)
        | none => (true, moved)

/-- End a locked task in the transaction that holds its lock
(`finalize_locked`): the claim's writes, without the claim. -/
def finalizeLocked (now : Int) (db : Db) (task : Nat) (kind : TaskEventKind)
    (message : String) (value : Option EventValue) : Db :=
  (db.updateTaskKind now task kind true).insertEvent task kind
    { message := some message, value }

/-- What is known about a lost task (`lost_details`). -/
def lostDetails (db : Db) (task : Nat) (started : Bool) (reason : String) :
    EventValue :=
  let events := db.eventsOf task
  let lastProgress := (events.filter (·.kind == .progress)).filterMap
    (·.event.progress) |>.getLast?
  let effects := ((db.task? task).bind db.implementation?).map (·.effects)
  -- a workflow sent again is "not picked up" again, but it did start once
  .lost (started || events.any (·.kind == .started)) lastProgress
    (effects.getD "UNKNOWN") reason

/-! ## What a claim does -/

/-- A claim loses and writes nothing, or wins on an open row. -/
theorem claimTask_cases (e : Env) (db : Db) (task : Nat) (c : Claim) :
    claimTask e db task c = (false, db) ∨
    ∃ row, db.task? task = some row ∧ c.admits row = true ∧
      claimTask e db task c = (true, match c.event with
        | some event =>
            (db.modifyTask task (c.move e.now)).insertEvent task c.toKind event
        | none => db.modifyTask task (c.move e.now)) := by
  cases hRow : db.task? task with
  | none => exact .inl (by simp [claimTask, hRow])
  | some row =>
      simp only [claimTask, hRow]
      split
      case isTrue => exact .inl rfl
      case isFalse =>
        split
        case isTrue => exact .inl rfl
        case isFalse hAdmits =>
          refine .inr ⟨row, rfl, by simpa using hAdmits, ?_⟩
          cases c.event <;> rfl

theorem Claim.admits_open {c : Claim} {row : Task} (h : c.admits row = true) :
    row.isDone = false ∧ c.onlyIf row = true := by
  simp only [Claim.admits, Bool.and_eq_true, Bool.not_eq_true'] at h
  exact ⟨h.1.1, h.2⟩

end Rekuest

/-!
# Reports: their transactions

`persist/reports.rs`: the statements behind an agent's report on a task.
-/

namespace Rekuest

/-- The first report of an open task stamps `picked_up_at` (`agent_task`). -/
def stampPickup (e : Env) (db : Db) (task : Nat) : Db :=
  db.modifyTask task fun t =>
    if t.pickedUpAt.isNone then { t with pickedUpAt := some e.now } else t

/-- Insert one event of a stream; an `EFFECT` whose key is recorded breaks the
unique constraint and is refused. -/
def recordEvent (db : Db) (task : Nat) (kind : TaskEventKind) (event : NewEvent) :
    Bool × Db :=
  if kind = .effect && event.key.isSome &&
      (db.eventsOf task).any (fun e => e.kind == .effect && e.event.key == event.key)
  then (false, db)
  else (true, db.insertEvent task kind event)

/-- A task's newest terminal event: the outcome that stands. -/
def standingTerminal (db : Db) (task : Nat) : Option TaskEvent :=
  (db.eventsOf task).filter (isTerminal ·.kind) |>.getLast?

/-- What the agent said, with a note of what it replaces. -/
def overrideMessage (last : TaskEvent) (message : Option String) : String :=
  let note := "Reported by the agent's previous session; replaces the server's "
    ++ last.kind.name ++ "."
  match message with
  | some message => if message.isEmpty then note else message ++ " (" ++ note ++ ")"
  | none => note

/-- Replace a done task's server-written terminal with the agent's
(`override_server_outcome`). -/
def overrideServerOutcome (e : Env) (db : Db) (task : Nat) (kind : TaskEventKind)
    (event : NewEvent) : Bool × Db :=
  if !(db.task? task).any (·.isDone) then (false, db)
  else match standingTerminal db task with
    | none => (false, db)
    | some last =>
        -- the agent already reported this task's outcome: that one stands
        if last.event.agentPos.isSome then (false, db)
        else
          let db := db.modifyTask task fun t => { t with
            latestEventKind := kind
            finishedAt := some e.now
            revision := t.revision + 1 }
          (true, { db with events := db.events ++
            [{ task, kind
               event := { event with message := some (overrideMessage last event.message) }
               byOverride := true }] })

/-- What the agent reported after the task was lost is kept next to it
(`record_late_report`). -/
def lateReport (kind : TaskEventKind) (event : NewEvent) : NewEvent :=
  let note := "The agent reported " ++ kind.name ++
    " after the task was lost; it stays LOST."
  let message := match event.message with
    | some message => if message.isEmpty then note else message ++ " (" ++ note ++ ")"
    | none => note
  { event with message := some message, value := some (.lateReport kind) }

end Rekuest
