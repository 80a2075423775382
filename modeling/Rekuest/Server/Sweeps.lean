import Rekuest.Server.Transitions

/-!
# The sweeps

`persist/reconcile.rs`: each sweep reads its candidates and then acts on them
one by one, each in transactions of its own that look at the row again.  The
deadlines are columns, so any number of backends may sweep at once.
-/

namespace Rekuest

open Concurrent

/-- A number of rows in an order, as `ORDER BY ... LIMIT` returns them. -/
def ordered (limit : Nat) (key : Task → Int) (rows : List (Nat × Task)) : List Nat :=
  ((rows.mergeSort fun a b => key a.2 ≤ key b.2).take limit).map (·.1)

namespace Db

/-- The tasks that meet a condition, with their ids, by id. -/
def rowsWhere (db : Db) (p : Task → Bool) : List (Nat × Task) :=
  (List.range db.tasks.length).filterMap fun id =>
    ((db.task? id).filter p).map fun t => (id, t)

/-- Open work the agent may hold (`IN_FLIGHT`): not done, not undelivered or
still held for a decision, not a virtual higher-order wrapper. -/
def isInFlight (db : Db) (t : Task) : Bool :=
  !t.isDone &&
    !((t.latestEventKind == .queued || t.latestEventKind == .held) &&
      t.pickedUpAt.isNone) && !db.isHigherOrder t

def inFlight (db : Db) (agent : Nat) : List Nat :=
  (db.rowsWhere fun t => t.agent == agent && db.isInFlight t).map (·.1)

/-- A genuinely live agent (`live_agent`). -/
def agentIsLive (settings : Settings) (db : Db) (now : Int) (agent : Nat) : Bool :=
  db.agents[agent]?.any fun a =>
    Rekuest.agentIsLive settings a.lease.connected a.lease.lastSeen now

def isWebhook (db : Db) (agent : Nat) : Bool :=
  db.agents[agent]?.any (·.kind == .webhook)

end Db

/-- Send a workflow whose agent died again, to be resumed; `false` leaves it to
the plain LOST. -/
def resumeWorkflow (task : Nat) : Program Bool := do
  let row ← select fun db => (db.task? task).map fun t =>
    (t.codeHash, (db.implementation? t).bind (·.codeHash), t.resumes, t.agent)
  match row with
  | none => return false
  | some (pinned, current, resumes, agent) =>
      if maxResumes ≤ resumes then
        let _ ← finalizeLost task ("Resumed " ++ toString resumes ++
          " times, and its agent died each time.") true (fun _ => true) false
        return true
      else if pinned ≠ current then
        let _ ← finalizeLost task
          "Its agent died, and the workflow's code changed since this run started, so it cannot be resumed."
          true (fun _ => true) false
        return true
      else
        let assign : Option Assign ←
          run (.query _ fun e db => buildRedispatchAssign e db task)
        match assign with
        | none => return false
        | some assign =>
            let won ← claim task {
              toKind := .queued
              skipIfKind := some .queued
              extra := .resume
              event := some {
                message := some "Its agent died: the workflow is sent again, to resume from what it recorded." } }
            if won then
              dispatch task agent assign
            return true

/-- End one orphaned task LOST, or send its workflow again; work its agent
never picked up is left alone. -/
def failInflight (task : Nat) : Program Unit := do
  let row ← select fun db => (db.task? task).map fun t =>
    (t.latestEventKind, t.pickedUpAt, (db.implementation? t).any (·.workflow))
  match row with
  | none => return
  | some (kind, pickedUpAt, workflow) =>
      if (kind = .queued || kind = .held) && pickedUpAt.isNone then
        return -- undelivered (or held, never sent), not orphaned
      else
        let resumed ← if workflow then resumeWorkflow task else pure false
        if !resumed then
          let _ ← finalizeLost task
            "Its agent died while it ran; how it ended is unknown." true
            (fun _ => true) false

/-- End orphaned in-flight work (`fail_and_cascade_inflight`). -/
def failAndCascadeInflight (tasks : List Nat) : Program Unit :=
  Prog.forEach tasks failInflight

/-- Fail an agent's in-flight work after a confirmed loss; a no-op while the
agent is live. -/
def reconcileOrphanedExecutorWork (settings : Settings) (agent : Nat) :
    Program Unit := do
  let live : Bool ← run (.query Bool fun e db => db.agentIsLive settings e.now agent)
  if !live then
    let inFlight ← select (·.inFlight agent)
    failAndCascadeInflight inFlight

/-- Fail the work of websocket agents that stayed gone past the grace. -/
def reconcileDisconnectedAgents (settings : Settings) : Program Unit := do
  let agents : List Nat ← run (.query (List Nat) fun e db =>
    (List.range db.agents.length).filter fun agent =>
      db.agents[agent]?.any (fun a => a.kind == .websocket && !a.lease.connected &&
        a.lease.lastSeen.all (· < e.now - settings.grace)) &&
      !(db.inFlight agent).isEmpty)
  Prog.forEach agents (reconcileOrphanedExecutorWork settings)

/-- Heal websocket agents whose `connected` is stuck: only the backend whose
revoke wins goes on. -/
def healAgent (settings : Settings) (agent : Nat) : Program Unit := do
  let revoked : Bool ← run (.revokeLease agent)
  if revoked then
    reconcileOrphanedExecutorWork settings agent

def reconcileStaleAgents (settings : Settings) : Program Unit := do
  let stale : List Nat ← run (.query (List Nat) fun e db =>
    (List.range db.agents.length).filter fun agent =>
      db.agents[agent]?.any fun a => a.kind == .websocket && a.lease.connected &&
        a.lease.lastSeen.all (· < e.now - settings.agentStaleAfter))
  Prog.forEach stale (healAgent settings)

/-- A cancel's deadline passed unconfirmed: interrupt the task instead. -/
def escalateToInterrupt (settings : Settings) (task : Nat) : Program Unit := do
  let isOpen ← select fun db => (db.task? task).any (!·.isDone)
  if isOpen then
    let _ ← interrupt settings task none

/-- Act on one control deadline that has passed, as the scan read it. -/
def escalateDue (settings : Settings) (due : Nat × Int × TaskInstructKind) :
    Program Unit := do
  let (task, deadline, instruct) := due
  if instruct = .interrupt then
    let _ ← finalizeTerminal task .interrupted
      "Interrupt was never confirmed by the agent — finalized by the server." none
      { onlyIf := fun row => row.interruptAt == some deadline
        extra := .clearInterruptAt
        skipLocked := true }
  else
    let cleared : Bool ← run (.clearDeadline task deadline)
    if cleared && instruct = .cancel then
      escalateToInterrupt settings task

def escalateDueControls (settings : Settings) (limit : Nat) : Program Unit := do
  let due : List (Nat × Int × TaskInstructKind) ←
    run (.query (List (Nat × Int × TaskInstructKind)) fun e db =>
      let rows := db.rowsWhere fun t => !t.isDone && t.interruptAt.any (· < e.now)
      (ordered limit (fun t => t.interruptAt.getD 0) rows).filterMap fun task => do
        let t ← db.task? task
        some (task, ← t.interruptAt, t.latestInstructKind))
  Prog.forEach due (escalateDue settings)

/-- Whether a task nobody picked up waited past a cutoff since it was sent, or
since it was created when it never left. -/
def Task.isUndelivered (t : Task) (cutoff : Int) : Bool :=
  !t.isDone && t.pickedUpAt.isNone && t.latestEventKind == .queued &&
    t.pickupClock < cutoff && !t.isWaiting

/-- Decide one task nobody picked up, and act on it. -/
def actOnUnpicked (cutoff : Int) (task : Nat) : Program Unit := do
  let decision : Unpicked ← run (.decideUnpicked task cutoff)
  match decision with
  | .skip => return
  | .redeliver assign agent => dispatch task agent assign
  | .finalized kind => unfoldToHigherOrder task kind none none

/-- The pickup watchdog: no task waits forever for an agent that looks
alive. -/
def reconcileUnpickedTasks (settings : Settings) (limit : Nat) : Program Unit := do
  if settings.pickupDeadline ≠ 0 then
    let now ← utcNow
    let cutoff := now - settings.pickupDeadline
    let candidates ← select fun db =>
      ordered limit (·.createdAt) <| db.rowsWhere fun t =>
        t.isUndelivered cutoff && !db.isHigherOrder t &&
          (db.isWebhook t.agent || db.agentIsLive settings now t.agent)
    Prog.forEach candidates (actOnUnpicked cutoff)

/-- Claim one due delayed task and hand it over. -/
def dispatchDue (task : Nat) : Program Unit := do
  let due : Due ← run (.claimDue task)
  match due with
  | .skip | .finalized => return
  | .dispatch assign agent => dispatch task agent assign

/-- Hand over delayed tasks whose `not_before` has passed. -/
def dispatchDueTasks (limit : Nat) : Program Unit := do
  let due : List Nat ← run (.query (List Nat) fun e db =>
    ordered limit (fun t => t.notBefore.getD 0) <| db.rowsWhere fun t =>
      !t.isDone && t.dispatchAttempts == 0 && t.notBefore.any (· ≤ e.now))
  Prog.forEach due dispatchDue

/-- End one task that waited past the disconnected expiry; nothing ran. -/
def expireTask (cutoff : Int) (task : Nat) : Program Unit := do
  let _ ← finalizeLost task "The agent never came back to pick this task up." false
    (fun row => row.pickedUpAt.isNone && row.latestEventKind == .queued &&
      !row.isWaiting && row.pickupClock < cutoff) true

/-- End work that waited past the disconnected expiry on an agent that never
came back. -/
def expireDisconnectedTasks (settings : Settings) (limit : Nat) : Program Unit := do
  if settings.disconnectedExpiry ≠ 0 then
    let now ← utcNow
    let cutoff := now - settings.disconnectedExpiry
    let undelivered ← select fun db =>
      ((db.rowsWhere fun t => t.isUndelivered cutoff && !db.isHigherOrder t &&
        db.agents[t.agent]?.any (·.kind == .websocket) &&
        !db.agentIsLive settings now t.agent).map (·.1)).take limit
    Prog.forEach undelivered (expireTask cutoff)

end Rekuest
