import Rekuest.Concurrent.System
import Rekuest.Backend.Created

/-!
# Sending again

`build_redispatch_assign` and the paths that use it: the decision on a held
child, the pickup watchdog, the dispatch of due tasks and the resume of a
workflow.  Together with the assign they are the steps of a server; a step of a
request is told apart from its next one where a transaction commits in between.
-/

namespace Rekuest.Backend

/-! ## The rebuilt Assign -/

/-- `CallerContext::load`: an identity by its rows. -/
def CallerContext.load (db : Database) (user client : Int) (organization : Option Int) :
    Option CallerContext := do
  let sub ← db.users.lookup user
  let row := organization.bind fun id => (db.organizations.lookup id).map (id, ·)
  pure {
    organization := row.map (·.1)
    organizationIdentifier := row.map (·.2)
    user := user
    userSub := sub
    client := client }

/-- The token of an Assign that is sent again, minted for the task's caller; a
task without an identity goes without. -/
def redispatchToken (env : Env) (db : Database) (t : TaskRow) : Except String (Option String) :=
  match t.implementation, t.caller.bind db.caller with
  | some implementation, some caller =>
      match CallerContext.load db caller.user caller.client (some caller.organization) with
      | some principal =>
          env.mint db ⟨toString t.id, t.parent, implementation, t.agent, t.args⟩ principal
      | none => .error "no rows returned by a query that expected to return at least one row"
  | _, _ => .ok none

/-- What a workflow recorded: its effects by key, and the last step it took,
counting the steps its calls were made at. -/
def journal (db : Database) (task : Int) : Journal :=
  let events := db.events.filter (·.task = task)
  let steps := events.filterMap (·.step)
  let calls := (db.tasks.filter (·.parent = some task)).filterMap (·.parentStep)
  { lastStep := (steps ++ calls).foldl max 0
    effects := events.filterMap fun e =>
      if e.kind = .effect then
        e.key.map fun key => ⟨key, e.effect.getD "", e.value.getD .null⟩
      else none }

/-- What the Assign of a task sent again is built from, where it has everything
to be sent with. -/
structure AssignSource where
  args : Args
  reference : String
  capture : Bool
  step : Bool
  resolution : Option Int
  parent : Option Int
  root : Option Int
  implementation : Int
  interface : String
  workflow : Bool
  actionHash : String
  user : String
  org : String
  stateRequires : Option (List StateRequirement)

def Database.source (db : Database) (t : TaskRow) : Option AssignSource := do
  let action ← db.registry.action t.action
  let implementation ← t.implementation
  let row ← db.registry.implementation implementation
  let caller ← t.caller.bind db.caller
  let user ← db.users.lookup caller.user
  let org ← db.organizations.lookup caller.organization
  pure {
    args := t.args
    reference := t.reference
    capture := t.capture
    step := t.step
    resolution := t.resolution
    parent := t.parent
    root := t.root
    implementation := implementation
    interface := row.interface
    workflow := row.workflow
    actionHash := action.hash
    user := user
    org := org
    stateRequires := t.stateRequires }

def AssignSource.assign (source : AssignSource) (task : Int) (assigner token : Option String)
    (resume : Option Journal) : Assign where
  interface := source.interface
  task := toString task
  root := source.root.map toString
  parent := source.parent.map toString
  resolution := source.resolution.map toString
  step := if source.step then some true else none
  capture := some source.capture
  reference := some source.reference
  args := source.args
  message := none
  user := source.user
  assigner := assigner
  org := source.org
  action := source.actionHash
  implementation := toString source.implementation
  token := token
  resume := resume
  stateRequires := source.stateRequires.getD []

/-- Rebuild the Assign of a task, or nothing where it lacks the identity to send
it as or provenance refuses. -/
def buildRedispatchAssign (env : Env) (db : Database) (task : Int) : Option Assign := do
  let t ← db.task task
  let source ← db.source t
  let assigner := assigner db source.parent source.user
  let token ← (redispatchToken env db t).toOption
  let resume := if source.workflow then some (journal db task) else none
  pure (source.assign task assigner token resume)

/-! ## The server -/

/-- What an event or a control writes of a task. -/
structure Lifecycle where
  latestEventKind : TaskEventKind
  isDone : Bool
  dispatched : Bool

def TaskRow.live (t : TaskRow) (l : Lifecycle) : TaskRow :=
  { t with latestEventKind := l.latestEventKind, isDone := l.isDone, dispatched := l.dispatched }

/-- Update the row of a task. -/
def Database.update (db : Database) (task : Int) (write : TaskRow → Lifecycle) : Database :=
  { db with tasks := db.tasks.map fun t => if t.id = task then t.live (write t) else t }

/-- What a request has left to do once its last transaction committed. -/
inductive Pending
  /-- An assign that passed its checks, before its insert. -/
  | insert (principal : CallerContext) (input : AssignInput) (caller : Int) (prepared : Prepared)
  /-- A decision that approved a task, before its Assign is sent. -/
  | handOver (runner : Int) (answer : Option String)

/-- The database and what was sent, the requests at work, and the approvals so
far: whose Assign they hand over, and with which answer. -/
structure Server where
  world : World
  pending : List Pending := []
  approved : List (Int × Option String) := []

inductive Action
  /-- An assign of a caller up to its checks. -/
  | ask (user client organization : Int) (input : AssignInput)
  /-- The next step of a request at work. -/
  | proceed (i : Nat)
  /-- A person approves a held child. -/
  | approve (task : Int) (answer : Option String)
  /-- The pickup watchdog sends a task again. -/
  | redeliver (task : Int)
  /-- A delayed task is due. -/
  | due (task : Int)
  /-- A workflow is sent again after its agent died. -/
  | resume (task : Int)
  /-- Reports, controls and sweeps write the tasks' lifecycle and their events. -/
  | live (write : TaskRow → Lifecycle) (recorded : List EventRow)

/-- An assign up to its checks. -/
def ask (env : Env) (principal : CallerContext) (input : AssignInput) (w : World) :
    Option (World × Option Pending) := do
  let organization ← principal.organization
  let resolution ← (resolutionOf w.db input).toOption
  let (caller, db) := getCaller w.db principal organization
  match existingAssign db caller input input.givenReference with
  | .ok none =>
      match prepare env db principal input organization caller resolution w.uuids with
      | .ok prepared =>
          pure ({ w with db := db, uuids := w.uuids + 2 },
            some (.insert principal input caller prepared))
      | .error _ => pure ({ w with db := db }, none)
  | _ => pure ({ w with db := db }, none)

/-- Insert what an assign prepared, and send it. -/
def insertPrepared (env : Env) (principal : CallerContext) (input : AssignInput) (caller : Int)
    (prepared : Prepared) (w : World) : World :=
  match prepared with
  | .plain new action implementation goesOut =>
      (assignPlain env principal input caller new action implementation goesOut w).2
  | .wrapper new child lower lowerAction held =>
      (assignHigherOrder env principal input caller new child lower lowerAction held w).2

/-- The task an approved child's Assign goes to: the child itself, or the lower
child that runs a wrapper. -/
def runnerOf (db : Database) (task : Int) : Int :=
  match db.tasks.find? fun t => t.parent = some task && t.isHigherOrderChild with
  | some lower => lower.id
  | none => task

/-- Send the rebuilt Assign of a task, with a message; what is written of its row
depends on whether the Assign can be built. -/
def sendAgain (env : Env) (task : Int) (message : Option String)
    (sent unsent : TaskRow → Lifecycle) (w : World) : Option World := do
  let t ← w.db.task task
  match buildRedispatchAssign env w.db task with
  | some assign =>
      pure (dispatch env task t.agent { assign with message := message }
        { w with db := w.db.update task sent })
  | none => pure { w with db := w.db.update task unsent }

/-- What is written of a task that was handed over: it is dispatched. -/
def handed (t : TaskRow) : Lifecycle := ⟨t.latestEventKind, t.isDone, true⟩

def unchanged (t : TaskRow) : Lifecycle := ⟨t.latestEventKind, t.isDone, t.dispatched⟩

/-- What is written of a task that ends, unless it ended before. -/
def ended (kind : TaskEventKind) (t : TaskRow) : Lifecycle :=
  if t.isDone then unchanged t else ⟨kind, true, t.dispatched⟩

/-- Whether a task runs as a workflow. -/
def Database.isWorkflow (db : Database) (t : TaskRow) : Bool :=
  (t.implementation.bind db.registry.implementation).any (·.workflow)

def next (env : Env) (s : Server) : Action → Option Server
  | .ask user client organization input => do
      let principal ← CallerContext.load s.world.db user client (some organization)
      let (world, left) ← ask env principal input s.world
      pure { s with world := world, pending := s.pending ++ left.toList }
  | .proceed i => do
      match ← s.pending[i]? with
      | .insert principal input caller prepared =>
          pure { s with
            world := insertPrepared env principal input caller prepared s.world
            pending := s.pending.eraseIdx i }
      | .handOver runner answer =>
          let world ← sendAgain env runner answer unchanged (ended .critical) s.world
          pure { s with world := world, pending := s.pending.eraseIdx i }
  | .approve task answer => do
      let t ← s.world.db.task task
      if t.latestEventKind = .held && !t.isDone then
        let runner := runnerOf s.world.db task
        let db := s.world.db.update task fun t => ⟨.queued, t.isDone, t.dispatched⟩
        pure {
          world := { s.world with db := db.update runner fun t => ⟨.queued, t.isDone, true⟩ }
          pending := s.pending ++ [.handOver runner answer]
          approved := s.approved ++ [(runner, answer)] }
      else none
  | .redeliver task => do
      let t ← s.world.db.task task
      if t.latestEventKind = .queued && !t.isDone then
        let world ← sendAgain env task none handed (ended .lost) s.world
        pure { s with world := world }
      else none
  | .due task => do
      let t ← s.world.db.task task
      if t.notBefore.any (· ≤ env.now) && !t.dispatched && !t.isDone then
        let world ← sendAgain env task none handed (ended .critical) s.world
        pure { s with world := world }
      else none
  | .resume task => do
      let t ← s.world.db.task task
      if s.world.db.isWorkflow t && t.latestEventKind ≠ .queued && !t.isDone then
        let world ← sendAgain env task none (fun t => ⟨.queued, t.isDone, true⟩) unchanged s.world
        pure { s with world := world }
      else none
  | .live write recorded =>
      pure { s with world := { s.world with db := { s.world.db with
        tasks := s.world.db.tasks.map fun t => t.live (write t)
        events := s.world.db.events ++ recorded } } }

def server (env : Env) : Concurrent.System Server Action where
  next := next env

end Rekuest.Backend
