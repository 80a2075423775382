import Rekuest.Concurrent.Pool
import Rekuest.Server.Assign
import Rekuest.Server.Sweeps
import Rekuest.Server.Transitions

/-!
# Reports of an executing agent

`persist/reports.rs` and the agent's half of `holds.rs`: every reported task is
resolved with the agent that reports it, and the first report stamps its
pickup.
-/

namespace Rekuest

open Concurrent

/-- An agent's report on a task. -/
inductive Report
  | started
  | paused (message details : Option String)
  | resumed
  /-- `blok`: the ask the frame names, if any, and the materialization
  `task_bloks::shown` makes of it unless it refuses. -/
  | held (message : Option String) (prompt : Option AssignPrompt)
      (details : Option String) (blok : Option (Option Nat))
  | inform (message : Option String) (shown : Option Nat)
  | completed
  | cancelled
  | interrupted
  | failed (error : String) (code : Option String)
  | critical (error : String)
  | log (message : String)
  | progress (progress : Option Int) (message : Option String)
  | yield
  | effect (effect : String) (value : String) (key : Option String)
  deriving DecidableEq, Repr

/-- A report frame: the task it names and its numbering. -/
structure ReportFrame where
  task : Nat
  report : Report
  pos : Option Int := none
  journalSession : Option Nat := none
  taskStep : Option Int := none
  deriving DecidableEq, Repr

/-- Whether a frame carries a session position. -/
def ReportFrame.isNumbered (frame : ReportFrame) : Bool :=
  frame.pos.isSome && frame.journalSession.isSome

/-- The position and step a projected row carries: empty without numbering. -/
def ReportFrame.stamped (frame : ReportFrame) : NewEvent :=
  if frame.isNumbered then { agentPos := frame.pos, step := frame.taskStep }
  else {}

/-- `Some` message that is not empty. -/
def nonempty (message : Option String) : Option String :=
  message.filter (!·.isEmpty)

/-- The task, if it is this agent's; the first report stamps
`picked_up_at`. -/
def agentTask (agent task : Nat) : Program (Option Task) := do
  match ← select fun db => (db.task? task).filter (·.agent == agent) with
  | none => return none
  | some row =>
      if row.pickedUpAt.isNone && !row.isDone then
        let now : Int ← run (.stampPickup task)
        return some { row with pickedUpAt := some now }
      else return some row

/-- Whether the frame's session is not the agent's active one. -/
def fromEarlierSession (agent journalSession : Nat) : Program Bool :=
  select fun db => (db.agents[agent]?.bind (·.lease.activeSessionId)).any
    (· != journalSession)

/-- Keep an outcome reported after the task was LOST; a resend of the same
report is recorded once. -/
def recordLateReport (task : Nat) (kind : TaskEventKind) (event : NewEvent) :
    Program Unit := do
  let seen ← match event.agentPos with
    | some pos => select fun db => (db.eventsOf task).any fun e =>
        e.kind == .lateReport && e.event.agentPos == some pos
    | none => pure false
  if !seen then
    let _ : Bool ← run (.recordEvent task .lateReport (lateReport kind event))

/-- Persist an agent-reported terminal.  The agent's outcome wins over one the
server wrote itself when the report comes from an earlier session; after LOST
it is a LATE_REPORT. -/
def finalizeFromAgent (agent : Nat) (frame : ReportFrame) (kind : TaskEventKind)
    (message : Option String) (code : Option String) : Program Unit := do
  match ← agentTask agent frame.task with
  | none => return
  | some row =>
      let event := { frame.stamped with message, value := code.map .code }
      if row.isDone then
        if row.latestEventKind = .lost then
          recordLateReport frame.task kind event
        else match frame.isNumbered, frame.journalSession with
          | true, some journalSession =>
              if ← fromEarlierSession agent journalSession then
                let won : Bool ← run (.overrideServerOutcome frame.task kind event)
                if won then
                  unfoldToHigherOrder frame.task kind message
                    (some row.isHigherOrderChild)
          | _, _ => return -- a resent terminal report
      else
        let won ← claim frame.task
          { toKind := kind, markDone := true, event := some event }
        if won then
          unfoldToHigherOrder frame.task kind message (some row.isHigherOrderChild)

/-- A non-terminal lifecycle confirmation: started, paused, resumed. -/
def nonterminalConfirm (agent task : Nat) (kind : TaskEventKind)
    (event : NewEvent) : Program Unit := do
  match ← agentTask agent task with
  | none => return
  | some row =>
      if !row.isDone then
        let _ ← claim task { toKind := kind, event := some event }

/-- Append a stream event to a task this agent owns; whether it was
recorded. -/
def recordStream (agent task : Nat) (kind : TaskEventKind) (event : NewEvent) :
    Program Bool := do
  match ← agentTask agent task with
  | none => return false
  | some row =>
      if row.isDone then
        if row.latestEventKind = .lost && kind = .yield then
          let _ : Bool ← run (.recordEvent task .lateReport { event with
            message := some "A result the agent reported after the task was lost." })
          return false
        else return false
      else
        let recorded : Bool ← run (.recordEvent task kind event)
        return recorded

/-- A value the task took from outside itself: the one already recorded under
a key stands. -/
def onAgentEffect (agent task : Nat) (effect value : String)
    (key : Option String) (event : NewEvent) : Program Unit := do
  let recorded ← match key with
    | some key => select fun db => (db.eventsOf task).any fun e =>
        e.kind == .effect && e.event.key == some key
    | none => pure false
  if !recorded then
    let _ ← recordStream agent task .effect
      { event with effect := some effect, value := some (.recorded value), key }

/-- A task's own hold.  Under `AUTO` the server approves it at once, unless it
asks through a blok, which only a person answers. -/
def onSelfHold (agent : Nat) (frame : ReportFrame) (message : Option String)
    (prompt : Option AssignPrompt) (details : Option String)
    (blok : Option (Option Nat)) : Program Unit := do
  match ← agentTask agent frame.task with
  | none => return
  | some row =>
      if row.isDone || blok == some none then
        return -- the ask was refused: the task is not held
      else
        let asked := blok.join
        let won ← claim frame.task {
          toKind := .held
          event := some { frame.stamped with
            message := nonempty message <|> prompt.map (·.title)
            value := some (.heldSelf prompt details asked) } }
        if won && asked.isNone then
          let policy ← select fun db => (db.task? frame.task).map (·.policy)
          if policy = some .auto then
            let decided ← claim frame.task {
              toKind := .decided
              onlyIf := fun row => row.latestEventKind == .held
              event := some {
                message := some "Approved by auto-mode."
                value := some (.decision true none true none none none) } }
            if decided then
              let _ : Bool ← run (.deliver agent (.decide frame.task true none true none))

/-- A blok shown while the task carries on. -/
def onInform (agent : Nat) (frame : ReportFrame) (message : Option String)
    (shown : Option Nat) : Program Unit := do
  match ← agentTask agent frame.task with
  | none => return
  | some row =>
      match row.isDone, shown with
      | false, some materialized =>
          let _ ← recordStream agent frame.task .inform { frame.stamped with
            message := nonempty message, value := some (.inform materialized) }
      | _, _ => return

/-- Route one of the agent's own reports to its handler. -/
def onReport (agent : Nat) (frame : ReportFrame) : Program Unit :=
  match frame.report with
  | .started => nonterminalConfirm agent frame.task .started frame.stamped
  | .paused message details =>
      nonterminalConfirm agent frame.task .paused { frame.stamped with
        message := nonempty message, value := details.map .recorded }
  | .resumed => nonterminalConfirm agent frame.task .resumed frame.stamped
  | .held message prompt details blok =>
      onSelfHold agent frame message prompt details blok
  | .inform message shown => onInform agent frame message shown
  | .completed => finalizeFromAgent agent frame .completed none none
  | .cancelled => finalizeFromAgent agent frame .cancelled none none
  | .interrupted => finalizeFromAgent agent frame .interrupted none none
  | .failed error code => finalizeFromAgent agent frame .failed (some error) code
  | .critical error => finalizeFromAgent agent frame .critical (some error) none
  | .log message => do
      let _ ← recordStream agent frame.task .log
        { frame.stamped with message := some message }
  | .progress progress message => do
      let _ ← recordStream agent frame.task .progress
        { frame.stamped with progress, message }
  | .yield => do
      if ← recordStream agent frame.task .yield frame.stamped then
        unfoldToHigherOrder frame.task .yield none none
  | .effect effect value key =>
      onAgentEffect agent frame.task effect value key frame.stamped

end Rekuest

/-!
## The server's requests

Everything that starts a thread: an agent's frames and its socket, a person's
requests, schedules and triggers, and the sweeps.  `machine` is the server: any
number of replicas running them, each between two transactions at a time.
-/

namespace Rekuest

open Concurrent

/-- The identity an agent assigns with (`caller_context`). -/
def agentPrincipal (db : Db) (agent : Nat) : Option Principal :=
  (db.agents[agent]?).map fun a =>
    { user := a.user, client := a.client, organization := some a.organization }

/-- Assign dependent work requested by an agent: only from one of its own tasks,
and as its token grants (`granted`).  An agent sets neither its children's
policy nor when they run. -/
def onCallerAssign (settings : Settings) (agent : Nat) (input : AssignInput)
    (granted : Bool) : Program Unit := do
  match ← select (agentPrincipal · agent) with
  | none => return
  | some principal =>
      let owned ← select fun db => input.parent.any fun parent =>
        (db.task? parent).any (·.agent == agent)
      if owned && granted then
        let _ ← assignWithStatus settings principal
          { input with notBefore := none, policy := none, unheld := false } none

/-- The durable caller of an agent's own identity. -/
def agentCaller (agent : Nat) : Program (Option Nat) := do
  match ← select fun db => (db.agents[agent]?).map fun a => (a.client, a.user, a.organization) with
  | none => return none
  | some (client, user, organization) =>
      let caller : Nat ← run (.getCaller { client, user, organization })
      return some caller

/-- Ownership-check, then run a control: a caller controls only the tasks it
assigned. -/
def callerControl (settings : Settings) (agent task : Nat) (control : Control) :
    Program Bool := do
  match ← agentCaller agent with
  | none => return false
  | some caller =>
      let owner ← select fun db => (db.task? task).bind (·.caller)
      if owner ≠ some caller then return false
      else requestControl settings task control (some caller)

/-- `CANCEL_REQUEST`: `autoInterrupt` is the escalation deadline it brings. -/
def onCallerCancel (settings : Settings) (agent task : Nat)
    (autoInterrupt : Option Int) : Program Unit := do
  if ← callerControl settings agent task .cancel then
    match autoInterrupt with
    | none => return
    | some span => do
        let now ← utcNow
        run (.setDeadline task (now + span))

/-- An agent registers: the lease, the pickup clock of what it never picked up,
and, of a fresh process, its predecessor's in-flight work. -/
def onAgentConnected (agent connection : Nat) (session : Option Nat)
    (force : Bool) : Program Unit := do
  let lease : Leases.LeaseClaim ← run (.claimLease agent connection session force)
  if lease.claimed then
    run (.restartPickupClock agent)
    let inFlight ← select (·.inFlight agent)
    if Leases.freshProcess lease.priorSession session then
      failAndCascadeInflight inFlight

/-- The lease is released if it is still ours; with no grace the agent's
in-flight work is failed at once. -/
def onAgentDisconnected (settings : Settings) (agent connection : Nat) :
    Program Unit := do
  let released : Bool ← run (.releaseLease agent connection)
  if released && settings.grace == 0 then
    reconcileOrphanedExecutorWork settings agent

/-- Run a schedule now: its waiting run is moved to now; with no open run, a
one-off run is created. -/
def triggerSchedule (settings : Settings) (schedule : Nat) (allowsOverlap : Bool)
    (principal : Principal) (input : AssignInput) : Program Unit := do
  let moved : Moved ← run (.moveRunToNow schedule allowsOverlap)
  match moved with
  | .executing | .moved _ => return
  | .noRun =>
      let _ ← assignWithStatus settings principal
        { input with parent := none, notBefore := none, unheld := false }
        (some schedule)

/-- Drop a schedule's run that has not been handed over yet. -/
def cancelWaitingRun (settings : Settings) (schedule : Nat) (caller : Option Nat) :
    Program Unit := do
  let waiting ← select fun db => ((db.rowsWhere fun t =>
    t.schedule == some schedule && !t.isDone && t.dispatchAttempts == 0).map
      (·.1)).head?
  match waiting with
  | none => return
  | some run => do
      let _ ← requestControl settings run .cancel caller

/-- The waiting run of a schedule that was deleted, unless it was handed over
meanwhile. -/
def cancelRunIfWaiting (settings : Settings) (task : Nat) (caller : Option Nat) :
    Program Unit := do
  let waiting ← select fun db => (db.task? task).any fun t =>
    !t.isDone && t.dispatchAttempts == 0
  if waiting then
    let _ ← requestControl settings task .cancel caller

/-- What starts a thread. -/
inductive Request
  /-- A person's assign. -/
  | assign (principal : Principal) (input : AssignInput)
  /-- A run a schedule is given: always a root. -/
  | scheduleRun (schedule : Nat) (principal : Principal) (input : AssignInput)
  /-- A run a signal fires: never held, also as the child of the task whose
  signal it was. -/
  | triggerRun (principal : Principal) (input : AssignInput)
  | triggerSchedule (schedule : Nat) (allowsOverlap : Bool)
      (principal : Principal) (input : AssignInput)
  | cancelWaitingRun (schedule : Nat) (caller : Option Nat)
  | cancelRunIfWaiting (task : Nat) (caller : Option Nat)
  /-- A person's control. -/
  | control (task : Nat) (control : Control) (caller : Option Nat)
  | decide (principal : Principal) (task : Nat) (approved : Bool)
      (answer values : Option String) (valuesFit : Bool)
  /-- An agent's frames. -/
  | report (agent : Nat) (frame : ReportFrame)
  | callerAssign (agent : Nat) (input : AssignInput) (granted : Bool)
  | callerControl (agent task : Nat) (control : Control)
  | callerCancel (agent task : Nat) (autoInterrupt : Option Int)
  /-- An agent's socket. -/
  | connected (agent connection : Nat) (session : Option Nat) (force : Bool)
  | disconnected (agent connection : Nat)
  | heartbeat (agent connection : Nat)
  | becameHook (agent : Nat)
  /-- The sweeps. -/
  | staleAgents
  | disconnectedAgents
  | dueTasks (limit : Nat)
  | unpickedTasks (limit : Nat)
  | dueControls (limit : Nat)
  | expiredTasks (limit : Nat)

/-- The program of a request. -/
def Request.handler (settings : Settings) : Request → Program Unit
  | .assign principal input => do
      let _ ← assignWithStatus settings principal { input with unheld := false } none
  | .scheduleRun schedule principal input => do
      let _ ← assignWithStatus settings principal
        { input with parent := none, unheld := false } (some schedule)
  | .triggerRun principal input => do
      let _ ← assignWithStatus settings principal
        { input with notBefore := none, unheld := true } none
  | .triggerSchedule schedule allowsOverlap principal input =>
      Rekuest.triggerSchedule settings schedule allowsOverlap principal input
  | .cancelWaitingRun schedule caller =>
      Rekuest.cancelWaitingRun settings schedule caller
  | .cancelRunIfWaiting task caller =>
      Rekuest.cancelRunIfWaiting settings task caller
  | .control task kind caller => do
      let _ ← requestControl settings task kind caller
  | .decide principal task approved answer values valuesFit =>
      Rekuest.decide principal task approved answer values valuesFit
  | .report agent frame => onReport agent frame
  | .callerAssign agent input granted => onCallerAssign settings agent input granted
  | .callerControl agent task kind => do
      let _ ← Rekuest.callerControl settings agent task kind
  | .callerCancel agent task autoInterrupt =>
      onCallerCancel settings agent task autoInterrupt
  | .connected agent connection session force =>
      onAgentConnected agent connection session force
  | .disconnected agent connection => onAgentDisconnected settings agent connection
  | .heartbeat agent connection => do
      let _ : Bool ← run (.renewLease agent connection)
  | .becameHook agent => run (.forgetDispatches agent)
  | .staleAgents => reconcileStaleAgents settings
  | .disconnectedAgents => reconcileDisconnectedAgents settings
  | .dueTasks limit => dispatchDueTasks limit
  | .unpickedTasks limit => reconcileUnpickedTasks settings limit
  | .dueControls limit => escalateDueControls settings limit
  | .expiredTasks limit => expireDisconnectedTasks settings limit

/-- The server: replicas, agents and people on one database. -/
def machine (settings : Settings) : Machine Env Request Db Txn.Res where
  exec := Txn.exec settings
  handler := Request.handler settings

end Rekuest
