import Rekuest.Leases.Lease

/-!
# The rows

The columns of tasks, task events, agents, callers and implementations that the
task transitions read or write, and the database as a value.  A row's id is its
place in its table; rows are only ever added.  A task's payload (its arguments,
its returns, what it acts on) is left out: no transition looks at it.
-/

namespace Rekuest

/-- The kinds of `TaskEvent` takt writes; a task's `latest_event_kind` is the
one of its last transition. -/
inductive TaskEventKind
  | queued | started | progress | cancelling | cancelled | interrupting
  | interrupted | pausing | paused | resuming | resumed | held | decided
  | denied | failed | critical | lost | lateReport | yield | completed | log
  | effect | inform
  deriving DecidableEq, Repr

/-- The kind as the column and the messages spell it. -/
def TaskEventKind.name : TaskEventKind → String
  | .queued => "QUEUED"
  | .started => "STARTED"
  | .progress => "PROGRESS"
  | .cancelling => "CANCELLING"
  | .cancelled => "CANCELLED"
  | .interrupting => "INTERRUPTING"
  | .interrupted => "INTERRUPTED"
  | .pausing => "PAUSING"
  | .paused => "PAUSED"
  | .resuming => "RESUMING"
  | .resumed => "RESUMED"
  | .held => "HELD"
  | .decided => "DECIDED"
  | .denied => "DENIED"
  | .failed => "FAILED"
  | .critical => "CRITICAL"
  | .lost => "LOST"
  | .lateReport => "LATE_REPORT"
  | .yield => "YIELD"
  | .completed => "COMPLETED"
  | .log => "LOG"
  | .effect => "EFFECT"
  | .inform => "INFORM"

/-- The kinds that end a task (`TERMINAL_KINDS`). -/
def terminalKinds : List TaskEventKind :=
  [.completed, .cancelled, .interrupted, .failed, .critical, .lost, .denied]

def isTerminal (kind : TaskEventKind) : Bool := terminalKinds.contains kind

/-- `TaskInstructKind`, as far as takt writes it. -/
inductive TaskInstructKind
  | assign | cancel | interrupt | pause | resume
  deriving DecidableEq, Repr

/-- Whether an agent's children wait for a person (`ASK`) or nothing waits. -/
inductive Policy
  | ask | auto
  deriving DecidableEq, Repr

/-- The agent's own words about what it asks for. -/
structure AssignPrompt where
  title : String
  description : Option String := none
  deriving DecidableEq, Repr

/-- An event's JSON `value`, by what writes it. -/
inductive EventValue
  /-- `HELD` of a child: what waits.  The copies its parent and root get name
  the child as `held`. -/
  | heldAssign (prompt : Option AssignPrompt) (action agent callerTask callerAgent : Nat)
      (held : Option Nat)
  /-- `HELD` of a task by itself. -/
  | heldSelf (prompt : Option AssignPrompt) (details : Option String)
      (blok : Option Nat)
  /-- `DECIDED`; on the parent and root of a decided child with `held`. -/
  | decision (approved : Bool) (answer : Option String) (auto : Bool)
      (user : Option String) (values : Option String) (held : Option Nat)
  /-- `DENIED` -/
  | denied (answer user : Option String)
  /-- `LOST`: what is known of the task. -/
  | lost (started : Bool) (lastProgress : Option Int) (effects reason : String)
  /-- `LATE_REPORT`: the kind reported too late. -/
  | lateReport (kind : TaskEventKind)
  /-- A `FAILED` report's code. -/
  | code (code : String)
  /-- `INFORM`: the blok shown. -/
  | inform (blok : Nat)
  /-- The JSON of an `EFFECT` or of a `PAUSED` task's details. -/
  | recorded (json : String)
  deriving DecidableEq, Repr

/-- The fields of a `TaskEvent` besides its task and kind. -/
structure NewEvent where
  message : Option String := none
  progress : Option Int := none
  agentPos : Option Int := none
  step : Option Int := none
  effect : Option String := none
  key : Option String := none
  value : Option EventValue := none
  delegatedTo : Option Nat := none
  deriving DecidableEq, Repr

/-- A `facade_taskevent` row.  `byOverride` is not a column: the proofs tell
the events `override_server_outcome` wrote by it. -/
structure TaskEvent where
  task : Nat
  kind : TaskEventKind
  event : NewEvent
  byOverride : Bool := false
  deriving DecidableEq, Repr

/-- A `facade_taskinstruct` row. -/
structure TaskInstruct where
  task : Nat
  kind : TaskInstructKind
  caller : Option Nat
  deriving DecidableEq, Repr

/-- A `facade_task` row.  `undecided` is not a column: it holds of a child
created `HELD` until `decide_child` answers it (or the wrapper it runs). -/
structure Task where
  reference : String := ""
  caller : Option Nat := none
  agent : Nat := 0
  action : Nat := 0
  implementation : Option Nat := none
  codeHash : Option String := none
  parent : Option Nat := none
  parentStep : Option Int := none
  callKey : Option String := none
  root : Option Nat := none
  isHigherOrderChild : Bool := false
  policy : Policy := .ask
  schedule : Option Nat := none
  notBefore : Option Int := none
  createdAt : Int := 0
  dispatchedAt : Option Int := none
  dispatchAttempts : Nat := 0
  pickedUpAt : Option Int := none
  interruptAt : Option Int := none
  resumes : Nat := 0
  latestInstructKind : TaskInstructKind := .assign
  latestEventKind : TaskEventKind := .queued
  isDone : Bool := false
  finishedAt : Option Int := none
  revision : Nat := 1
  undecided : Bool := false
  deriving DecidableEq, Repr

/-- A delayed task nobody has handed over yet (`is_waiting`). -/
def Task.isWaiting (t : Task) : Bool :=
  t.notBefore.isSome && t.dispatchAttempts == 0

/-- When its pickup clock started: its last dispatch, or its creation. -/
def Task.pickupClock (t : Task) : Int := t.dispatchedAt.getD t.createdAt

/-- A child still held for a decision, which no agent has: the candidates of
`settle_held_children` and of a control's held children. -/
def Task.isWaitingHeld (t : Task) : Bool :=
  t.latestEventKind == .held && !t.isDone && t.dispatchAttempts == 0 &&
    t.pickedUpAt.isNone

/-- `AgentKind` -/
inductive AgentKind
  | websocket | webhook
  deriving DecidableEq, Repr

/-- A `facade_agent` row: its identity, its kind and its lease. -/
structure Agent where
  name : String := ""
  kind : AgentKind := .websocket
  client : Nat := 0
  user : Nat := 0
  organization : Nat := 0
  lease : Leases.AgentLease := {}
  deriving DecidableEq, Repr

/-- A `facade_caller` row: who assigns. -/
structure Caller where
  client : Nat
  user : Nat
  organization : Nat
  deriving DecidableEq, Repr

/-- A `facade_implementation` row. -/
structure Implementation where
  interface : String := ""
  action : Nat := 0
  agent : Nat := 0
  higherOrderFor : Option Nat := none
  codeHash : Option String := none
  /-- `execution = 'WORKFLOW'` -/
  workflow : Bool := false
  effects : String := "UNKNOWN"
  deriving DecidableEq, Repr

/-- A `facade_action` row, as far as a hold's message names it. -/
structure Action where
  name : String := ""
  deriving DecidableEq, Repr

/-- A recorded effect of a workflow, as its journal carries it. -/
structure RecordedEffect where
  key : String
  effect : String
  value : Option EventValue
  deriving DecidableEq, Repr

/-- What a workflow recorded, which its resumed run replays. -/
structure Journal where
  lastStep : Nat
  effects : List RecordedEffect
  deriving DecidableEq, Repr

/-- An `ASSIGN` frame. -/
structure Assign where
  task : Nat
  root : Option Nat := none
  parent : Option Nat := none
  interface : String := ""
  reference : String := ""
  implementation : Nat := 0
  message : Option String := none
  resume : Option Journal := none
  deriving DecidableEq, Repr

/-- The frames the server sends an agent about a task. -/
inductive ToAgent
  | assign (assign : Assign)
  | cancel (task : Nat)
  | interrupt (task : Nat)
  | pause (task : Nat)
  | resume (task : Nat) (step : Bool)
  | decide (task : Nat) (approved : Bool) (answer : Option String) (auto : Bool)
      (values : Option String)
  deriving DecidableEq, Repr

/-- The database, and the frames a transport accepted. -/
structure Db where
  tasks : List Task := []
  events : List TaskEvent := []
  instructs : List TaskInstruct := []
  callers : List Caller := []
  agents : List Agent := []
  implementations : List Implementation := []
  actions : List Action := []
  sent : List (Nat × ToAgent) := []
  deriving DecidableEq, Repr

/-- What the environment supplies to one transaction: the application clock,
the task rows other transactions hold locked (`SKIP LOCKED` steps over them),
whether a transport accepts the frame and whether provenance mints a token. -/
structure Env where
  now : Int := 0
  locked : List Nat := []
  delivered : Bool := true
  mints : Bool := true
  deriving DecidableEq, Repr

namespace Db

variable (db : Db)

def task? (id : Nat) : Option Task := db.tasks[id]?

def modifyTask (id : Nat) (f : Task → Task) : Db :=
  { db with tasks := db.tasks.modify id f }

/-- Insert a `TaskEvent`; every event is written here. -/
def insertEvent (task : Nat) (kind : TaskEventKind) (event : NewEvent) : Db :=
  { db with events := db.events ++ [{ task, kind, event }] }

/-- A task's events, oldest first. -/
def eventsOf (task : Nat) : List TaskEvent := db.events.filter (·.task == task)

def implementation? (t : Task) : Option Implementation :=
  t.implementation.bind (db.implementations[·]?)

/-- A virtual higher-order wrapper: never dispatched, its fate is its
child's. -/
def isHigherOrder (t : Task) : Bool :=
  (db.implementation? t).any (·.higherOrderFor.isSome)

/-- Whether an agent can receive work (`agent_is_available`): a live websocket
or any webhook. -/
def agentIsAvailable (settings : Settings) (now : Int) (agent : Nat) : Bool :=
  db.agents[agent]?.any fun a => a.kind == .webhook ||
    agentIsLive settings a.lease.connected a.lease.lastSeen now

/-- Move a task's `latest_event_kind` and, `done`, finish it
(`update_task_kind`). -/
def updateTaskKind (now : Int) (task : Nat) (kind : TaskEventKind)
    (done : Bool) : Db :=
  db.modifyTask task fun t => { t with
    latestEventKind := kind
    isDone := if done then true else t.isDone
    finishedAt := if done then some now else t.finishedAt
    revision := t.revision + 1 }

end Db

/-! ## Reading a row after a write -/

namespace Db

variable {db : Db} {i j : Nat} {f : Task → Task}

theorem task?_modifyTask : (db.modifyTask i f).task? j =
    if i = j then (db.task? j).map f else db.task? j := by
  simp only [task?, modifyTask, List.getElem?_modify]
  split <;> simp

@[simp] theorem task?_modifyTask_self :
    (db.modifyTask i f).task? i = (db.task? i).map f := by
  simp [task?_modifyTask]

theorem task?_modifyTask_ne (h : i ≠ j) :
    (db.modifyTask i f).task? j = db.task? j := by
  simp [task?_modifyTask, h]

@[simp] theorem task?_insertEvent {k : TaskEventKind} {e : NewEvent} :
    (db.insertEvent i k e).task? j = db.task? j := rfl

@[simp] theorem tasks_length_modifyTask :
    (db.modifyTask i f).tasks.length = db.tasks.length := by
  simp [modifyTask]

@[simp] theorem events_modifyTask : (db.modifyTask i f).events = db.events := rfl

@[simp] theorem instructs_modifyTask :
    (db.modifyTask i f).instructs = db.instructs := rfl

@[simp] theorem sent_modifyTask : (db.modifyTask i f).sent = db.sent := rfl

@[simp] theorem events_insertEvent {k : TaskEventKind} {e : NewEvent} :
    (db.insertEvent i k e).events = db.events ++ [{ task := i, kind := k, event := e }] :=
  rfl

@[simp] theorem tasks_insertEvent {k : TaskEventKind} {e : NewEvent} :
    (db.insertEvent i k e).tasks = db.tasks := rfl

theorem task?_lt {t : Task} (h : db.task? i = some t) : i < db.tasks.length :=
  (List.getElem?_eq_some_iff.mp h).1

end Db

end Rekuest
