import Rekuest.Task.Holds

/-!
# New tasks: the transactions of an assign

`backend.rs`: a row (for a higher-order assign the wrapper and its lower
child), its provenance token and, for a held child, its `HELD` events are one
transaction.
-/

namespace Rekuest

/-- The columns of a new task (`NewTask`); what it does not name takes its
default. -/
structure NewTask where
  action : Nat
  reference : String
  parent : Option Nat := none
  parentStep : Option Int := none
  callKey : Option String := none
  root : Option Nat := none
  agent : Nat
  implementation : Nat
  codeHash : Option String := none
  isHigherOrderChild : Bool := false
  caller : Nat
  dispatchedAt : Option Int := none
  dispatchAttempts : Nat := 0
  notBefore : Option Int := none
  schedule : Option Nat := none
  policy : Policy := .ask
  /-- Created `HELD`: never dispatched until approved. -/
  held : Bool := false
  deriving DecidableEq, Repr

/-- The row `NewTask::insert` writes. -/
def NewTask.row (new : NewTask) (now : Int) : Task where
  reference := new.reference
  caller := some new.caller
  agent := new.agent
  action := new.action
  implementation := some new.implementation
  codeHash := new.codeHash
  parent := new.parent
  parentStep := new.parentStep
  callKey := new.callKey
  root := new.root
  isHigherOrderChild := new.isHigherOrderChild
  policy := new.policy
  schedule := new.schedule
  notBefore := new.notBefore
  createdAt := now
  dispatchedAt := new.dispatchedAt
  dispatchAttempts := new.dispatchAttempts
  latestInstructKind := .assign
  latestEventKind := if new.held then .held else .queued
  revision := 1
  undecided := new.held

/-- Whether two rows break a unique constraint: one reference per caller, one
child per step and per call key of a parent; a missing value is distinct. -/
def conflicts (t new : Task) : Bool :=
  (new.caller.isSome && t.caller == new.caller && t.reference == new.reference) ||
  (new.parent.isSome && new.parentStep.isSome && t.parent == new.parent &&
    t.parentStep == new.parentStep) ||
  (new.parent.isSome && new.callKey.isSome && t.parent == new.parent &&
    t.callKey == new.callKey)

/-- What became of an insert. -/
inductive Inserted
  | created (task : Nat)
  /-- A unique constraint: another delivery of this assign created it. -/
  | duplicate
  /-- The transaction was rolled back for another reason. -/
  | refused
  deriving DecidableEq, Repr

/-- What a held assign asks, for the `HELD` events of its creation. -/
structure Ask where
  action : Nat
  agent : Nat
  prompt : Option AssignPrompt := none
  deriving DecidableEq, Repr

/-- The `HELD` events of a child inserted as `task`: written when it is held
and has a parent and a root. -/
def recordHeld (db : Db) (task : Nat) (new : NewTask) (ask : Ask) : Db :=
  match new.held, new.parent, new.root with
  | true, some parent, some root =>
      recordHeldChild db
        { task, parent, root
          action := ask.action
          agent := ask.agent
          prompt := ask.prompt }
  | _, _, _ => db

/-- The transaction of `assign_with_status`. -/
def insertTask (e : Env) (db : Db) (new : NewTask) (ask : Ask) : Inserted × Db :=
  let row := new.row e.now
  if db.tasks.any (conflicts · row) then (.duplicate, db)
  else if !e.mints then (.refused, db)
  else
    let task := db.tasks.length
    (.created task,
      recordHeld { db with tasks := db.tasks ++ [row] } task new ask)

/-- The lower child's columns, once its wrapper has the id `wrapper`. -/
def lowerChild (lower : NewTask) (root : Option Nat) (wrapper : Nat) : NewTask :=
  { lower with
    parent := some wrapper
    root := some (root.getD wrapper)
    isHigherOrderChild := true }

/-- The transaction of `assign_higher_order`: a wrapper without its child could
never be finished by anyone. -/
def insertHigherOrder (e : Env) (db : Db) (wrapper lower : NewTask) (ask : Ask) :
    Inserted × Db :=
  let higherRow := wrapper.row e.now
  if db.tasks.any (conflicts · higherRow) then (.duplicate, db)
  else
    let higherTask := db.tasks.length
    let lowerRow := (lowerChild lower wrapper.root higherTask).row e.now
    if (db.tasks ++ [higherRow]).any (conflicts · lowerRow) || !e.mints then
      (.refused, db)
    else
      (.created higherTask,
        recordHeld { db with tasks := db.tasks ++ [higherRow, lowerRow] }
          higherTask wrapper ask)

/-- The task an earlier delivery of this very assign created
(`existing_assign`): by call key, then by step, then by the caller's
reference. -/
def existingAssign (db : Db) (caller : Nat) (parent : Option Nat)
    (callKey : Option String) (parentStep : Option Int)
    (reference : Option String) : Option Nat :=
  let byCallKey := if parent.isSome && callKey.isSome then
    db.tasks.findIdx? fun t => t.parent == parent && t.callKey == callKey else none
  let byStep := if parent.isSome && parentStep.isSome then
    db.tasks.findIdx? fun t => t.parent == parent && t.parentStep == parentStep
    else none
  let byReference := if reference.isSome then
    db.tasks.findIdx? fun t => t.caller == some caller &&
      some t.reference == reference else none
  byCallKey <|> byStep <|> byReference

/-- The durable caller of an identity (`get_caller_for_context`), and the
table with it. -/
def getCaller (db : Db) (caller : Caller) : Nat × Db :=
  match db.callers.findIdx? (· == caller) with
  | some id => (id, db)
  | none => (db.callers.length, { db with callers := db.callers ++ [caller] })

end Rekuest

/-!
## The sweeps: their transactions

`persist/reconcile.rs`: what the pickup watchdog and the due sweep decide under
a row lock, and the Assign of a task that is sent again.
-/

namespace Rekuest

/-- The pickup watchdog's budget: the original dispatch plus one
redelivery. -/
def maxDispatchAttempts : Nat := 2

/-- How often a workflow is sent again after its agent died. -/
def maxResumes : Nat := 3

/-- What a workflow recorded: its effects by key, in the order recorded, and
the last step it took, counting the steps its calls were made at. -/
def journal (db : Db) (task : Nat) : Journal :=
  let steps := (db.eventsOf task).filterMap (·.event.step) ++
    (db.tasks.filter (·.parent == some task)).filterMap (·.parentStep)
  let effects := ((db.eventsOf task).filter (·.kind == .effect)).filterMap fun e =>
    e.event.key.map fun key =>
      { key, effect := e.event.effect.getD "", value := e.event.value }
  { lastStep := (steps.foldl max 0).toNat, effects }

/-- Rebuild the Assign of a task sent again, or `none`: when it lacks the
identity to send it as, or provenance refuses (`build_redispatch_assign`). -/
def buildRedispatchAssign (e : Env) (db : Db) (task : Nat) : Option Assign := do
  let t ← db.task? task
  let implementation ← t.implementation
  let i ← db.implementations[implementation]?
  let _ ← t.caller.bind (db.callers[·]?)
  if !e.mints then none
  else some {
    task, root := t.root, parent := t.parent, interface := i.interface
    reference := t.reference, implementation
    resume := if i.workflow then some (journal db task) else none }

/-- What the pickup watchdog decided for one task. -/
inductive Unpicked
  /-- No longer a candidate, or another backend holds it. -/
  | skip
  /-- Finalized here with this kind. -/
  | finalized (kind : TaskEventKind)
  /-- Stamped for redelivery; the Assign is pushed after the commit. -/
  | redeliver (assign : Assign) (agent : Nat)
  deriving DecidableEq, Repr

/-- The row of a task nobody picked up, if it is still the watchdog's. -/
def Task.isUnpicked (t : Task) (cutoff : Int) : Bool :=
  !t.isDone && t.pickedUpAt.isNone && t.latestEventKind == .queued &&
    !t.isWaiting && decide (t.pickupClock < cutoff)

/-- How an unpicked task ends, if it does not go out again. -/
def unpickedOutcome (e : Env) (db : Db) (task : Nat) (row : Task) :
    (TaskEventKind × String) ⊕ Assign :=
  match row.latestInstructKind with
  | .cancel => .inl (.cancelled, "Cancelled before any agent picked the task up.")
  | .interrupt =>
      .inl (.interrupted, "Interrupted before any agent picked the task up.")
  | _ =>
      if maxDispatchAttempts ≤ row.dispatchAttempts then
        .inl (.lost, "Never picked up: the agent did not report on this task after it was redelivered.")
      else match buildRedispatchAssign e db task with
        | none =>
            .inl (.lost, "Never picked up, and the Assign could not be rebuilt for redelivery.")
        | some assign => .inr assign

/-- Decide, under the row lock, what happens to one task nobody picked up. -/
def decideUnpicked (e : Env) (db : Db) (task : Nat) (cutoff : Int) :
    Unpicked × Db :=
  match db.task? task with
  | none => (.skip, db)
  | some row =>
      if e.locked.contains task || !row.isUnpicked cutoff then (.skip, db)
      else match unpickedOutcome e db task row with
        | .inl (kind, message) =>
            let value := if kind = .lost then
              some (lostDetails db task false message) else none
            (.finalized kind, finalizeLocked e.now db task kind message value)
        | .inr assign =>
            let db := db.modifyTask task fun t => { t with
              dispatchedAt := some e.now
              dispatchAttempts := t.dispatchAttempts + 1
              revision := t.revision + 1 }
            (.redeliver assign row.agent, db.insertEvent task .queued
              { message := some "No report from the agent within the pickup deadline — Assign redelivered." })

/-- What the due sweep decided for one delayed task. -/
inductive Due
  | skip
  | finalized
  | dispatch (assign : Assign) (agent : Nat)
  deriving DecidableEq, Repr

/-- Claim one due delayed task for its first dispatch, under the row lock. -/
def claimDue (e : Env) (db : Db) (task : Nat) : Due × Db :=
  match db.task? task with
  | none => (.skip, db)
  | some row =>
      if e.locked.contains task || row.isDone || !row.isWaiting ||
          !row.notBefore.any (fun due => decide (due ≤ e.now)) then (.skip, db)
      else match buildRedispatchAssign e db task with
        | none => (.finalized, finalizeLocked e.now db task .critical
            "Due, but the Assign could not be built (no caller identity, or the provenance policy refused)." none)
        | some assign =>
            (.dispatch assign row.agent, db.modifyTask task fun t => { t with
              dispatchedAt := some e.now
              dispatchAttempts := 1
              revision := t.revision + 1 })

end Rekuest
