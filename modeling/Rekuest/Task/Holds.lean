import Rekuest.Task.Transitions

/-!
# Held work: its transactions

`holds.rs`.  A child created `HELD` and its wrapper's lower child wait for a
person.  What settles or decides the held task moves the lower child with it,
by a plain `update_task_kind` that does not look at the lower child's row.
-/

namespace Rekuest

/-- The child an agent asked for, as the person deciding sees it. -/
structure HeldChild where
  task : Nat
  parent : Nat
  root : Nat
  action : Nat
  agent : Nat
  prompt : Option AssignPrompt := none
  deriving DecidableEq, Repr

/-- Who is told about a held child besides itself. -/
def watchers (parent root : Nat) : List Nat :=
  if root = parent then [parent] else [parent, root]

/-- An agent's name as people see it. -/
def agentName (db : Db) (agent : Nat) : String :=
  (db.agents[agent]?).elim "" (·.name)

/-- The `HELD` event of a held child; the copies for its parent and root name
the child as `held`. -/
def heldEvent (db : Db) (child : HeldChild) (held : Option Nat) : NewEvent :=
  let callerAgent := (db.task? child.parent).elim 0 (·.agent)
  let wants := agentName db callerAgent ++ " wants to run " ++
    (db.actions[child.action]?).elim "" (·.name)
  let message := match child.prompt with
    | some prompt => if prompt.title.trimAscii.isEmpty then wants else prompt.title
    | none => wants
  { message := some message
    value := some (.heldAssign child.prompt child.action child.agent child.parent
      callerAgent held) }

/-- Write the `HELD` events of a held child: on the child, its parent and its
root (`record_held_child`). -/
def recordHeldChild (db : Db) (child : HeldChild) : Db :=
  (watchers child.parent child.root).foldl
    (fun db' watcher =>
      db'.insertEvent watcher .held (heldEvent db child (some child.task)))
    (db.insertEvent child.task .held (heldEvent db child none))

/-- A wrapper's lower child, the first by id. -/
def lowerOf (db : Db) (task : Nat) : Option Nat :=
  db.tasks.findIdx? fun t => t.parent == some task && t.isHigherOrderChild

/-- The task an approved child's Assign goes to: the child itself or, for a
higher-order wrapper, the lower child that runs it. -/
def runnerOf (db : Db) (task : Nat) : Nat := (lowerOf db task).getD task

/-- The held task and, for a wrapper, its lower child (`dict_of`). -/
def dictOf (task runner : Nat) : List Nat :=
  if runner = task then [task] else [task, runner]

/-- The lower child of a held task that is settled goes with it
(`settle_held_lower`). -/
def settleHeldLower (now : Int) (db : Db) (task : Nat) (outcome : TaskEventKind) :
    Db :=
  if runnerOf db task = task then db
  else db.updateTaskKind now (runnerOf db task) outcome true

/-- The children `settle_held_children` finds and can lock. -/
def heldChildren (locked : List Nat) (db : Db) (parent : Nat) : List Nat :=
  (List.range db.tasks.length).filter fun id =>
    (db.task? id).any (fun t => t.parent == some parent && t.isWaitingHeld) &&
      !locked.contains id

/-- End one held child with its parent. -/
def settleHeldChild (now : Int) (db : Db) (task : Nat) : Db :=
  settleHeldLower now
    ((db.updateTaskKind now task .cancelled true).insertEvent task .cancelled
      { message := some "Its parent ended while it was held — never dispatched." })
    task .cancelled

/-- The transaction of `settle_held_children`. -/
def settleHeldChildren (e : Env) (db : Db) (parent : Nat) : Db :=
  (heldChildren e.locked db parent).foldl (settleHeldChild e.now) db

/-- `decided` as the watchers get it, naming the held task. -/
def EventValue.withHeld (task : Nat) : EventValue → EventValue
  | .decision approved answer auto user values _ =>
      .decision approved answer auto user values (some task)
  | value => value

/-- The user a decision names. -/
def EventValue.user : EventValue → Option String
  | .decision _ _ _ user _ _ => user
  | _ => none

/-- A decision answers the held task and the lower child that runs it. -/
def answerHeld (db : Db) (targets : List Nat) : Db :=
  targets.foldl
    (fun db target => db.modifyTask target fun t => { t with undecided := false }) db

/-- The transaction of `decide_child`: `none` when the task is no longer held,
otherwise the task its Assign goes to. -/
def decideChild (e : Env) (db : Db) (task : Nat) (watchers : List Nat)
    (approved : Bool) (answer : Option String) (decided : EventValue) :
    Option Nat × Db :=
  if !(db.task? task).any (fun t => t.latestEventKind == .held && !t.isDone) then
    (none, db)
  else
    let runner := runnerOf db task
    let decidedEvent : NewEvent :=
      { message := some (if approved then "Approved." else "Denied.")
        value := some decided }
    let db := answerHeld db (dictOf task runner)
    let db := db.insertEvent task .decided decidedEvent
    let db := watchers.foldl (fun db watcher => db.insertEvent watcher .decided
      { decidedEvent with value := some (decided.withHeld task) }) db
    if approved then
      let db := (dictOf task runner).foldl
        (fun db target => db.updateTaskKind e.now target .queued false) db
      let db := db.modifyTask runner fun t =>
        { t with dispatchedAt := some e.now, dispatchAttempts := 1 }
      (some runner, db.insertEvent task .queued
        { message := some "Approved: handed to its agent." })
    else
      let db := (dictOf task runner).foldl
        (fun db target => db.updateTaskKind e.now target .denied true) db
      (some runner, db.insertEvent task .denied
        { message := some "Denied: it never ran."
          value := some (.denied answer decided.user) })

end Rekuest

/-!
# Lifecycle controls: the transaction on one target

`backend.rs`, `request_control`: under the target's row lock either the control
is recorded for its agent, or a target nobody was ever given is settled at
once.
-/

namespace Rekuest

/-- What is instructed, the `-ING` event it records, and the frame it sends. -/
inductive Control
  | cancel
  | interrupt
  | pause
  /-- With `step`, stop again at the next pausepoint. -/
  | resume (step : Bool)
  deriving DecidableEq, Repr

def Control.instructKind : Control → TaskInstructKind
  | .cancel => .cancel
  | .interrupt => .interrupt
  | .pause => .pause
  | .resume _ => .resume

def Control.ingingKind : Control → TaskEventKind
  | .cancel => .cancelling
  | .interrupt => .interrupting
  | .pause => .pausing
  | .resume _ => .resuming

/-- What a cancel or interrupt of a still-delayed task settles it as. -/
def Control.waitingOutcome : Control → Option TaskEventKind
  | .cancel => some .cancelled
  | .interrupt => some .interrupted
  | _ => none

/-- Interrupt reaches every still-running descendant; the others only the
task. -/
def Control.propagates : Control → Bool
  | .interrupt => true
  | _ => false

def Control.message (task : Nat) : Control → ToAgent
  | .cancel => .cancel task
  | .interrupt => .interrupt task
  | .pause => .pause task
  | .resume step => .resume task step

/-- The deadline a cancel or interrupt arms (`control_deadline`). -/
def controlDeadline (settings : Settings) (now : Int) (control : Control) :
    Option Int :=
  if 0 < settings.controlDeadline && control.waitingOutcome.isSome then
    some (now + settings.controlDeadline)
  else none

/-- Never handed over: a delayed task not due yet, or a child still held for a
decision (`still_waiting`). -/
def Task.stillWaiting (t : Task) : Bool :=
  t.dispatchAttempts == 0 && t.pickedUpAt.isNone &&
    (t.notBefore.isSome || t.latestEventKind == .held)

/-- What a control did to one target. -/
inductive Controlled
  | skipped
  | settled
  | instructed
  deriving DecidableEq, Repr

/-- Settle a target no agent has. -/
def settleTarget (now : Int) (db : Db) (target : Nat) (row : Task)
    (instruct : TaskInstructKind) (outcome : TaskEventKind) : Db :=
  let held := row.latestEventKind == .held
  let db := db.modifyTask target fun t => { t with
    latestInstructKind := instruct
    latestEventKind := outcome
    isDone := true
    finishedAt := some now
    revision := t.revision + 1 }
  let db := db.insertEvent target outcome
    { message := some (if held then "Settled while it was held — never dispatched."
        else "Settled before it was due — never dispatched.") }
  if held then settleHeldLower now db target outcome else db

/-- `insert_instruct` -/
def Db.insertInstruct (db : Db) (task : Nat) (kind : TaskInstructKind)
    (caller : Option Nat) : Db :=
  { db with instructs := db.instructs ++ [{ task, kind, caller }] }

/-- The transaction of `request_control` on one target. -/
def controlTarget (e : Env) (db : Db) (target : Nat) (control : Control)
    (caller : Option Nat) (interruptAt : Option Int) : Controlled × Db :=
  match db.task? target with
  | none => (.skipped, db)
  | some row =>
      if row.isDone then (.skipped, db)
      else match control.waitingOutcome, row.stillWaiting with
        | some outcome, true =>
            (.settled, (settleTarget e.now db target row control.instructKind
              outcome).insertInstruct target control.instructKind caller)
        | _, _ =>
            let db := db.modifyTask target fun t => { t with
              latestInstructKind := control.instructKind
              interruptAt := interruptAt
              revision := t.revision + 1 }
            (.instructed, (db.insertEvent target control.ingingKind {}).insertInstruct
              target control.instructKind caller)

end Rekuest
