import Rekuest.Backend.Existing
import Rekuest.Backend.Target

/-!
# Assigning

`assign_with_status` and `_assign_higher_order`: a request finds the task of an
earlier delivery, or is resolved, checked and inserted, and its Assign handed to
the agent.  `others` is what the other calls make of the database between the
lookup and the insert.
-/

namespace Rekuest.Backend

open Rekuest.Effects

def notAvailable : BackendError :=
  .refused "Agent is not available (not connected, and not a webhook agent)"

/-- A refusal that comes as a text. -/
def refusing {α : Type} (r : Except String α) : BackendResult α :=
  match r with
  | .ok a => .ok a
  | .error reason => .error (.refused reason)

/-- Refuse where a condition holds. -/
def refuseIf (condition : Bool) (e : BackendError) : BackendResult Unit :=
  if condition then .error e else .ok ()

/-! ## The target -/

section

variable (env : Env) (db : Database)

/-- The implementation a request names itself, with its action; a wrapper's
agent is checked by the higher-order path. -/
def namedImplementation (row : Option ImplementationRow) :
    BackendResult (ActionRow × ImplementationRow) := do
  let implementation ← get row "Implementation"
  refuseIf (implementation.higherOrderFor.isNone &&
    !(env.context db).available implementation.agentId) notAvailable
  let action ← get (db.registry.actionOf implementation) "Action"
  pure (action, implementation)

/-- From one of the direct forms: action, implementation, action hash, agent
and interface. -/
def resolveDirectTarget (input : AssignInput) (organization : Int) :
    BackendResult (ActionRow × ImplementationRow) := do
  match named input.action with
  | some action =>
      let id ← parseId action
      let action ← get (db.registry.action id) "Action"
      let implementation ← env.availableImplementation db action organization input.args
      pure (action, implementation)
  | none =>
  match named input.implementation with
  | some implementation =>
      let id ← parseId implementation
      namedImplementation env db (db.registry.implementation id)
  | none =>
  match named input.actionHash with
  | some hash =>
      let action ← get (db.registry.actions.find? fun action =>
        action.hash = hash && action.organization = organization) "Action"
      let implementation ← env.availableImplementation db action organization input.args
      pure (action, implementation)
  | none =>
  match named input.agent, named input.interface with
  | some agent, some interface =>
      let id ← parseId agent
      namedImplementation env db (db.registry.implementations.find? fun implementation =>
        implementation.agentId = id && implementation.interface = interface)
  | _, _ =>
      throw (.refused "You need to provide an action, action_hash, implementation, or agent+interface to create an assignment for an agent")

/-- The target of a request, with the dependencies a parent froze for it. -/
def resolveTarget (input : AssignInput) (organization : Int) :
    BackendResult (ActionRow × ImplementationRow × Option Tree) :=
  match named input.dependency with
  | some dependency => do
      let (action, implementation, nested) ← resolveDependencyTarget (env.context db)
        db.snapshotOf input.parent dependency input.method env.draw
      pure (action, implementation, some nested)
  | none => do
      let (action, implementation) ← resolveDirectTarget env db input organization
      pure (action, implementation, none)

/-! ## The other columns -/

/-- A root's policy as its assign gives it: `ASK` unless it says `AUTO`. -/
def rootPolicy (given : Option String) : BackendResult Policy :=
  match named given with
  | none => .ok .ask
  | some "ASK" => .ok .ask
  | some "AUTO" => .ok .auto
  | some other => .error (.refused ("Unknown policy " ++ debugStr other ++ ": it is ASK or AUTO."))

/-- A child's root and policy are its parent's; a child the server makes may
bring its own policy. -/
def rootAndPolicy (input : AssignInput) (parent : Option Int) :
    BackendResult (Option Int × Policy) := do
  match parent with
  | some parent =>
      let row ← get (db.task parent) "Task"
      let policy ← if input.unheld && input.policy.isSome then rootPolicy input.policy
        else pure row.policy
      pure (some (row.root.getD row.id), policy)
  | none =>
      let policy ← rootPolicy input.policy
      pure (none, policy)

/-- The space a root assign names has to be of the caller's organization. -/
def hintedSpace (organization : Int) (input : AssignInput) (parent : Option Int) :
    BackendResult Unit := do
  match named input.space with
  | none => pure ()
  | some space =>
      if parent.isSome then pure ()
      else do
        let id ← parseId space
        refuseIf ((id, organization) ∉ db.spaces)
          (.forbidden ("No Space " ++ space ++ " in this organization."))

/-- The resolution a request names. -/
def resolutionOf (input : AssignInput) : BackendResult (Option Int) :=
  match named input.resolution with
  | none => .ok none
  | some resolution => do
      let id ← parseId resolution
      if id ∈ db.resolutions then pure (some id) else throw (doesNotExist "Resolution")

/-- The durable caller of an identity. -/
def getCaller (principal : CallerContext) (organization : Int) : Int × Database :=
  match db.callers.find? (fun row => row.client = principal.client &&
      row.user = principal.user && row.organization = organization) with
  | some row => (row.id, db)
  | none => (db.nextCaller, { db with
      callers := db.callers ++
        [⟨db.nextCaller, principal.client, principal.user, organization⟩]
      nextCaller := db.nextCaller + 1 })

/-! ## Lineage -/

/-- The root of a tree, walking the parents up to a bound. -/
def resolveRoot : Nat → Int → Int
  | 0, current => current
  | left + 1, current =>
      match (db.task current).bind (·.parent) with
      | some next => resolveRoot left next
      | none => current

/-- `MAX_LINEAGE_DEPTH` -/
def maxLineageDepth : Nat := 256

/-- The user who called the root of a task's tree. -/
def rootCaller (parent : Int) : Option String := do
  let root ← db.task (resolveRoot db maxLineageDepth parent)
  let id ← root.caller
  let caller ← db.caller id
  db.users.lookup caller.user

/-- Who assigned a task: the user at the root of its tree. -/
def assigner (parent : Option Int) (callerSub : String) : Option String :=
  match parent with
  | none => some callerSub
  | some parent => rootCaller db parent

end

/-! ## New rows -/

/-- The columns of a new task. -/
structure NewTask where
  action : Int
  args : Args := []
  reference : String
  parent : Option Int := none
  parentStep : Option Int := none
  callKey : Option String := none
  root : Option Int := none
  agent : Int
  capture : Bool := false
  step : Bool := false
  implementation : Int
  dependency : Option String := none
  dependencyMethod : Option String := none
  resolution : Option Int := none
  isHigherOrderChild : Bool := false
  dependencies : Option Tree := none
  caller : Int
  dispatched : Bool := false
  notBefore : Option Int := none
  policy : Policy := .ask
  /-- Created `HELD`: never dispatched until approved. -/
  held : Bool := false
  stateRequires : List StateRequirement := []

/-- The row `NewTask::insert` writes. -/
def NewTask.row (env : Env) (new : NewTask) (id : Int) : TaskRow where
  id := id
  action := new.action
  args := new.args
  argsHash := some (env.argsHash new.args)
  reference := new.reference
  parent := new.parent
  parentStep := new.parentStep
  callKey := new.callKey
  root := new.root
  agent := new.agent
  capture := new.capture
  step := new.step
  implementation := some new.implementation
  dependency := new.dependency
  dependencyMethod := new.dependencyMethod
  resolution := new.resolution
  isHigherOrderChild := new.isHigherOrderChild
  dependencies := new.dependencies
  caller := some new.caller
  dispatched := new.dispatched
  notBefore := new.notBefore
  policy := new.policy
  latestEventKind := if new.held then .held else .queued
  isDone := false
  stateRequires := if new.stateRequires.isEmpty then none else some new.stateRequires

/-- Whether two rows break a unique constraint: one reference per caller, one
child per step and per call key of a parent; a missing value is distinct. -/
def conflicting (t new : TaskRow) : Bool :=
  (new.caller.isSome && t.caller = new.caller && t.reference = new.reference) ||
  (new.parent.isSome && new.parentStep.isSome && t.parent = new.parent &&
    t.parentStep = new.parentStep) ||
  (new.parent.isSome && new.callKey.isSome && t.parent = new.parent && t.callKey = new.callKey)

/-- Insert a row, unless a unique constraint is against it. -/
def insertTask (env : Env) (db : Database) (new : NewTask) : Option (Int × Database) :=
  let row := new.row env db.nextTask
  if db.tasks.any (conflicting · row) then none
  else some (db.nextTask,
    { db with tasks := db.tasks ++ [row], nextTask := db.nextTask + 1 })

/-! ## What is inserted -/

/-- A request that passed every check up to its insert. -/
inductive Prepared
  /-- A task of an agent: its row, and whether it goes out now. -/
  | plain (new : NewTask) (action : ActionRow) (implementation : ImplementationRow)
      (goesOut : Bool)
  /-- A wrapper and the child that runs it. -/
  | wrapper (new : NewTask) (child : NewTask) (lower : ImplementationRow) (lowerAction : ActionRow)
      (held : Bool)

/-- What the checks of a request leave: its target, and the columns that hang on
its parent and its time. -/
structure Admitted where
  action : ActionRow
  implementation : ImplementationRow
  frozen : Option Tree
  parent : Option Int
  root : Option Int
  policy : Policy
  held : Bool
  delayed : Bool

/-- The checks of an assign after its lookup. -/
def admission (env : Env) (db : Database) (input : AssignInput) (organization : Int) :
    BackendResult Admitted := do
  let (action, implementation, frozen) ← resolveTarget env db input organization
  -- The args must fit the action's ports.
  refusing (env.validateArgs db action input.args)
  let stateRequires := input.stateRequires.getD []
  refuseIf (!stateRequires.isEmpty && implementation.higherOrderFor.isSome)
    (.refused "A higher-order implementation cannot be assigned with state requirements: its wrapper runs on no agent that could test them")
  env.checkStates db implementation.agentId stateRequires
  let parent ← parseParent input
  let (root, policy) ← rootAndPolicy db input parent
  let held := parent.isSome && policy = .ask && !input.unheld
  hintedSpace db organization input parent
  let delayed := input.notBefore.any (env.now < ·)
  let hooks := input.hooks.getD []
  refuseIf (delayed && !hooks.isEmpty)
    (.refused "A delayed task (not_before in the future) cannot carry hooks")
  refuseIf (held && !hooks.isEmpty)
    (.refused "A held child (its run\x27s policy is ASK) cannot carry hooks: they would run before anyone approved it")
  pure ⟨action, implementation, frozen, parent, root, policy, held, delayed⟩

section

variable (env : Env) (input : AssignInput) (caller : Int) (uuids : Nat) (a : Admitted)

/-- The row of an agent's task. -/
def plainTask (resolution : Option Int) (dependencies : Tree) : NewTask where
  action := a.action.id
  args := input.args
  reference := input.givenReference.getD (env.uuid uuids)
  parent := a.parent
  parentStep := a.parent.bind fun _ => input.parentStep
  callKey := a.parent.bind fun _ => input.callKey
  root := a.root
  agent := a.implementation.agentId
  capture := input.capture.getD false
  step := input.step.getD false
  implementation := a.implementation.id
  dependency := input.dependency
  dependencyMethod := input.method
  resolution := resolution
  dependencies := some dependencies
  caller := caller
  dispatched := !a.delayed && !a.held
  notBefore := if a.delayed then input.notBefore else none
  policy := a.policy
  held := a.held
  stateRequires := input.stateRequires.getD []

/-- The row of a higher-order wrapper. -/
def wrapperTask (higherAction : ActionRow) (dependencies : Tree) : NewTask where
  action := higherAction.id
  args := input.args
  reference := input.givenReference.getD (env.uuid uuids)
  parent := a.parent
  parentStep := a.parent.bind fun _ => input.parentStep
  callKey := a.parent.bind fun _ => input.callKey
  root := a.root
  agent := a.implementation.agentId
  capture := input.capture.getD false
  implementation := a.implementation.id
  dependencies := some dependencies
  caller := caller
  policy := a.policy
  held := a.held

/-- The row of the child that runs a wrapper; its parent and root are the
wrapper's, once it has an id. -/
def lowerTask (lower : ImplementationRow) (lowerAction : ActionRow) (lowerArgs : Args)
    (dependencies : Tree) : NewTask where
  action := lowerAction.id
  args := lowerArgs
  reference := env.uuid (uuids + 1)
  isHigherOrderChild := true
  agent := lower.agentId
  step := input.step.getD false
  implementation := lower.id
  dependencies := some dependencies
  caller := caller
  dispatched := !a.held
  policy := a.policy
  held := a.held

/-- Everything of a higher-order assign before its transaction. -/
def prepareHigherOrder (db : Database) (principal : CallerContext) : BackendResult Prepared := do
  let higher := a.implementation
  let lower ← get (higher.higherOrderFor.bind db.registry.implementation) "Implementation"
  let lowerAction ← get (db.registry.actionOf lower) "Action"
  let higherAction ← get (db.registry.actionOf higher) "Action"
  refuseIf (!(env.context db).available lower.agentId)
    (.refused ("Agent for lower implementation " ++ lower.interface ++ " is not available"))
  let higherDependencies ← buildDependencyDict (env.context db) higher.id principal
    (input.dependencies.getD [])
  let lowerArgs ← refusing (env.lowerArgs higher input.args)
  let lowerDependencies ← refusing (env.lowerDependencies higher higherDependencies)
  pure (.wrapper (wrapperTask env input caller uuids a higherAction higherDependencies)
    (lowerTask env input caller uuids a lower lowerAction lowerArgs lowerDependencies)
    lower lowerAction a.held)

/-- The dependencies of an agent's task: frozen by its parent, or resolved now. -/
def dependenciesFor (db : Database) (principal : CallerContext) : BackendResult Tree :=
  match a.frozen with
  | some nested => .ok nested
  | none =>
      buildDependencyDict (env.context db) a.implementation.id principal
        (input.dependencies.getD [])

end

/-- Everything of an assign between its lookup and its insert. -/
def prepare (env : Env) (db : Database) (principal : CallerContext) (input : AssignInput)
    (organization caller : Int) (resolution : Option Int) (uuids : Nat) :
    BackendResult Prepared := do
  let a ← admission env db input organization
  if a.implementation.higherOrderFor.isSome then do
    refuseIf a.delayed
      (.refused "Higher-order implementations cannot be assigned with a future not_before")
    prepareHigherOrder env input caller uuids a db principal
  else do
    let dependencies ← dependenciesFor env input a db principal
    pure (.plain (plainTask env input caller uuids a resolution dependencies) a.action
      a.implementation (!a.delayed && !a.held))

/-! ## Sending -/

/-- Hand a committed task's Assign to its agent; a transport that fails is
recorded on the row. -/
def dispatch (env : Env) (task agent : Int) (assign : Assign) (w : World) : World :=
  if env.delivers agent assign then { w with pushed := w.pushed ++ [⟨task, agent, assign⟩] }
  else { w with db := { w.db with tasks := w.db.tasks.map fun t =>
    if t.id = task && !t.isDone then { t with dispatched := false } else t } }

/-- The first Assign of a row, from the request in memory: `step` as the request
has it, and the caller's own identity. -/
def firstAssign (principal : CallerContext) (input : AssignInput) (new : NewTask)
    (implementation : ImplementationRow) (action : ActionRow) (task : Int)
    (token assigner : Option String) : Assign where
  interface := implementation.interface
  task := toString task
  root := new.root.map toString
  parent := new.parent.map toString
  resolution := new.resolution.map toString
  step := input.step
  capture := some new.capture
  reference := some new.reference
  args := new.args
  message := none
  user := principal.userSub
  assigner := assigner
  org := principal.organizationIdentifier.getD ""
  action := action.hash
  implementation := toString implementation.id
  token := token
  resume := none
  stateRequires := new.stateRequires

/-- Row, token and commit of an agent's task, and its dispatch.  A token the
policy refuses rolls the row back. -/
def assignPlain (env : Env) (principal : CallerContext) (input : AssignInput) (caller : Int)
    (new : NewTask) (action : ActionRow) (implementation : ImplementationRow) (goesOut : Bool)
    (w : World) : BackendResult Assigned × World :=
  match insertTask env w.db new with
  | none => (lostReferenceRace env w.db caller input new.reference, w)
  | some (task, db) =>
      match env.mint db ⟨toString task, new.parent, implementation.id, implementation.agentId,
          new.args⟩ principal with
      | .error reason => (.error (.refused reason), w)
      | .ok token =>
          let assign := firstAssign principal input new implementation action task token
            (assigner db new.parent principal.userSub)
          (.ok ⟨task, new.reference, true⟩,
            if goesOut then dispatch env task implementation.agentId assign { w with db := db }
            else { w with db := db })

/-- A wrapper, its child and the child's token in one transaction, and the
child's dispatch. -/
def assignHigherOrder (env : Env) (principal : CallerContext) (input : AssignInput) (caller : Int)
    (new child : NewTask) (lower : ImplementationRow) (lowerAction : ActionRow) (held : Bool)
    (w : World) : BackendResult Assigned × World :=
  match insertTask env w.db new with
  | none => (lostReferenceRace env w.db caller input new.reference, w)
  | some (higherTask, db) =>
      let child := { child with
        parent := some higherTask
        root := some (new.root.getD higherTask) }
      match insertTask env db child with
      | none => (.error .uniqueViolation, w)
      | some (lowerTask, db) =>
          match env.mint db ⟨toString lowerTask, some higherTask, lower.id, lower.agentId,
              child.args⟩ principal with
          | .error reason => (.error (.refused reason), w)
          | .ok token =>
              let assign := firstAssign principal input child lower lowerAction lowerTask token
                (assigner db (some higherTask) principal.userSub)
              (.ok ⟨higherTask, new.reference, true⟩,
                if held then { w with db := db }
                else dispatch env lowerTask lower.agentId assign { w with db := db })

/-! ## The assign -/

/-- What an assign comes to before its hooks. -/
structure Outcome where
  answer : BackendResult Assigned
  world : World
  /-- Whether the task was created and sent, so that its hooks run. -/
  runsHooks : Bool := false

/-- `assign_with_status` up to the hooks. -/
def assignMain (env : Env) (others : Database → Database) (principal : CallerContext)
    (input : AssignInput) (w : World) : Outcome :=
  match principal.organization with
  | none => { answer := .error (.refused "Cannot assign without an organization"), world := w }
  | some organization =>
  match resolutionOf w.db input with
  | .error e => { answer := .error e, world := w }
  | .ok resolution =>
      let (caller, db) := getCaller w.db principal organization
      let w := { w with db := db }
      match existingAssign w.db caller input input.givenReference with
      | .error e => { answer := .error e, world := w }
      | .ok (some existing) => { answer := fastAnswer env input existing, world := w }
      | .ok none =>
          match prepare env w.db principal input organization caller resolution w.uuids with
          | .error e => { answer := .error e, world := w }
          | .ok (.plain new action implementation goesOut) =>
              let w := { w with db := others w.db, uuids := w.uuids + 2 }
              let (answer, world) :=
                assignPlain env principal input caller new action implementation goesOut w
              { answer := answer, world := world
                runsHooks := goesOut && (answer.toOption.any (·.created)) }
          | .ok (.wrapper new child lower lowerAction held) =>
              let w := { w with db := others w.db, uuids := w.uuids + 2 }
              let (answer, world) :=
                assignHigherOrder env principal input caller new child lower lowerAction held w
              { answer := answer, world := world }

/-- The world in which an assign inserts: the other calls had their turn, and its
references are drawn. -/
def World.atInsert (w : World) (others : Database → Database) (db : Database) : World :=
  { w with db := others db, uuids := w.uuids + 2 }

/-- How an assign may have gone, up to its hooks. -/
inductive Went (env : Env) (others : Database → Database) (principal : CallerContext)
    (input : AssignInput) (w : World) : Outcome → Prop
  /-- It was refused before it inserted anything. -/
  | refused {db : Database} (e : BackendError)
      (hCaller : db = w.db ∨ ∃ organization, db = (getCaller w.db principal organization).2) :
      Went env others principal input w { answer := .error e, world := { w with db := db } }
  /-- The lookup found a task. -/
  | found {organization caller : Int} {db : Database} {existing : ExistingRow}
      (hCaller : getCaller w.db principal organization = (caller, db))
      (hFound : existingAssign db caller input input.givenReference = .ok (some existing)) :
      Went env others principal input w
        { answer := fastAnswer env input existing, world := { w with db := db } }
  | plain {organization caller : Int} {db : Database} {resolution : Option Int} {new : NewTask}
      {action : ActionRow} {implementation : ImplementationRow} {goesOut : Bool}
      {answer : BackendResult Assigned} {world : World}
      (hCaller : getCaller w.db principal organization = (caller, db))
      (hNone : existingAssign db caller input input.givenReference = .ok none)
      (hPrepared : prepare env db principal input organization caller resolution w.uuids =
        .ok (.plain new action implementation goesOut))
      (hAssign : assignPlain env principal input caller new action implementation goesOut
        (w.atInsert others db) = (answer, world)) :
      Went env others principal input w
        { answer := answer, world := world
          runsHooks := goesOut && (answer.toOption.any (·.created)) }
  | wrapper {organization caller : Int} {db : Database} {resolution : Option Int}
      {new child : NewTask} {lower : ImplementationRow} {lowerAction : ActionRow} {held : Bool}
      {answer : BackendResult Assigned} {world : World}
      (hCaller : getCaller w.db principal organization = (caller, db))
      (hNone : existingAssign db caller input input.givenReference = .ok none)
      (hPrepared : prepare env db principal input organization caller resolution w.uuids =
        .ok (.wrapper new child lower lowerAction held))
      (hAssign : assignHigherOrder env principal input caller new child lower lowerAction held
        (w.atInsert others db) = (answer, world)) :
      Went env others principal input w { answer := answer, world := world }

theorem assignMain_went (env : Env) (others : Database → Database) (principal : CallerContext)
    (input : AssignInput) (w : World) :
    Went env others principal input w (assignMain env others principal input w) := by
  unfold assignMain
  cases principal.organization with
  | none => exact .refused _ (.inl rfl)
  | some organization =>
      dsimp only
      cases resolutionOf w.db input with
      | error e => exact .refused e (.inl rfl)
      | ok resolution =>
          rcases hCaller : getCaller w.db principal organization with ⟨caller, db⟩
          dsimp only
          cases hFound : existingAssign db caller input input.givenReference with
          | error e => exact .refused e (.inr ⟨organization, by rw [hCaller]⟩)
          | ok found =>
              cases found with
              | some existing => exact .found hCaller hFound
              | none =>
                  dsimp only
                  cases hPrepared : prepare env db principal input organization caller resolution
                      w.uuids with
                  | error e => exact .refused e (.inr ⟨organization, by rw [hCaller]⟩)
                  | ok prepared =>
                      cases prepared with
                      | plain new action implementation goesOut =>
                          exact .plain hCaller hFound hPrepared rfl
                      | wrapper new child lower lowerAction held =>
                          exact .wrapper hCaller hFound hPrepared rfl

/-- The request of an init hook.  The reference is scoped to the parent: a
constant one would dedupe across tasks' hooks. -/
def hookInput (task : Int) (hook : HookInput) : AssignInput where
  actionHash := some hook.hash
  parent := some (toString task)
  args := [("task", .string (toString task))]
  reference := some ("init_hook_0_" ++ toString task)
  unheld := true

/-- The init hooks of a request. -/
def AssignInput.initHooks (input : AssignInput) : List HookInput :=
  (input.hooks.getD []).filter (·.kind = .init)

/-- The init hooks of a task, one after the other, up to the first that fails.
A hook's own request has no hooks. -/
def runHooks (env : Env) (others : Database → Database) (principal : CallerContext) (task : Int) :
    List HookInput → World → BackendResult Unit × World
  | [], w => (.ok (), w)
  | hook :: rest, w =>
      let outcome := assignMain env others principal (hookInput task hook) w
      match outcome.answer with
      | .error e => (.error e, outcome.world)
      | .ok _ => runHooks env others principal task rest outcome.world

/-- Create (or find) the task of an assign, and run its init hooks. -/
def assignWithStatus (env : Env) (others : Database → Database) (principal : CallerContext)
    (input : AssignInput) (w : World) : BackendResult Assigned × World :=
  let outcome := assignMain env others principal input w
  match outcome.answer with
  | .error e => (.error e, outcome.world)
  | .ok assigned =>
      if outcome.runsHooks then
        match runHooks env others principal assigned.task input.initHooks outcome.world with
        | (.error e, world) => (.error e, world)
        | (.ok _, world) => (.ok assigned, world)
      else (.ok assigned, outcome.world)

end Rekuest.Backend
