import Rekuest.Task.Row
import Rekuest.Backend.DryRun

/-!
# The rows of the assign path

The columns of tasks, events and callers that an assign and a dispatch read or
write, what a request holds, and what is sent to an agent.  Ids are `i64`
columns; the texts of a request are kept as they came.
-/

namespace Rekuest.Backend

/-- A JSON value; a number by its text. -/
inductive Json
  | null
  | bool (value : Bool)
  | number (text : String)
  | string (text : String)
  | array (items : List Json)
  | object (members : List (String × Json))

abbrev Args := List (String × Json)

/-- What an agent's state must hold, as it is stored and sent. -/
abbrev StateRequirement := Json

/-! ## Requests and frames -/

inductive HookKind
  | init | cleanup
  deriving DecidableEq, Repr

/-- A hook of an assign. -/
structure HookInput where
  kind : HookKind
  hash : String
  deriving DecidableEq, Repr

/-- What an assign asks for (`AssignInputModel`). -/
structure AssignInput where
  action : Option String := none
  dependency : Option String := none
  resolution : Option String := none
  implementation : Option String := none
  agent : Option String := none
  actionHash : Option String := none
  method : Option String := none
  interface : Option String := none
  hooks : Option (List HookInput) := none
  args : Args := []
  reference : Option String := none
  parent : Option String := none
  parentStep : Option Int := none
  callKey : Option String := none
  capture : Option Bool := none
  dependencies : Option (List ResolvedDependencyInput) := none
  step : Option Bool := none
  notBefore : Option Int := none
  policy : Option String := none
  stateRequires : Option (List StateRequirement) := none
  space : Option String := none
  /-- A child the server makes itself: never held. -/
  unheld : Bool := false

/-- A field that is given and not empty. -/
def named (given : Option String) : Option String := given.filter (· ≠ "")

/-- The reference the caller gave; an empty one is none. -/
def AssignInput.givenReference (input : AssignInput) : Option String := named input.reference

/-- The task an assign created or found. -/
structure Assigned where
  task : Int
  reference : String
  /-- False for a resend: the task already existed. -/
  created : Bool
  deriving DecidableEq, Repr

structure RecordedEffect where
  key : String
  effect : String
  value : Json

/-- What a workflow recorded, which its resumed run replays. -/
structure Journal where
  lastStep : Int
  effects : List RecordedEffect

/-- `messages::Assign`; `id` is the frame's, given when it is queued, and no
task's Assign is a probe's. -/
structure Assign where
  interface : String
  task : String
  root : Option String
  parent : Option String
  resolution : Option String
  step : Option Bool
  capture : Option Bool
  reference : Option String
  args : Args
  message : Option String
  user : String
  assigner : Option String
  org : String
  action : String
  implementation : String
  token : Option String
  resume : Option Journal
  stateRequires : List StateRequirement

/-- What the mint reads of a task. -/
structure MintTask where
  id : String
  parentId : Option Int
  implementationId : Int
  agentId : Int
  args : Args

/-! ## Rows -/

structure CallerRow where
  id : Int
  client : Int
  user : Int
  organization : Int
  deriving DecidableEq, Repr

/-- `facade_task`. -/
structure TaskRow where
  id : Int
  action : Int
  args : Args
  argsHash : Option String
  reference : String
  parent : Option Int
  parentStep : Option Int
  callKey : Option String
  root : Option Int
  agent : Int
  capture : Bool
  step : Bool
  implementation : Option Int
  dependency : Option String
  dependencyMethod : Option String
  resolution : Option Int
  isHigherOrderChild : Bool
  dependencies : Option Tree
  caller : Option Int
  dispatched : Bool
  notBefore : Option Int
  policy : Policy
  latestEventKind : TaskEventKind
  isDone : Bool
  stateRequires : Option (List StateRequirement)

/-- `facade_taskevent`. -/
structure EventRow where
  task : Int
  kind : TaskEventKind
  step : Option Int := none
  key : Option String := none
  effect : Option String := none
  value : Option Json := none

structure Database where
  registry : Registry
  users : List (Int × String)
  organizations : List (Int × String)
  callers : List CallerRow := []
  resolutions : List Int := []
  spaces : List (Int × Int) := []
  tasks : List TaskRow := []
  events : List EventRow := []
  nextTask : Int := 1
  nextCaller : Int := 1

namespace Database

variable (db : Database)

def task (id : Int) : Option TaskRow := db.tasks.find? (·.id = id)

def caller (id : Int) : Option CallerRow := db.callers.find? (·.id = id)

/-- The column `dependencies` of the tasks. -/
def snapshotOf (id : Int) : Option (Option Tree) := (db.task id).map (·.dependencies)

end Database

/-- An Assign that was handed to a transport, and for which task. -/
structure Push where
  task : Int
  agent : Int
  assign : Assign

/-- What a call runs in: the database, the references drawn so far and what was
sent. -/
structure World where
  db : Database
  uuids : Nat := 0
  pushed : List Push := []

/-! ## What the assign path calls

The parts of the server that are not followed here, as it uses them. -/

structure Env where
  cutoff : Int := 0
  dependencyMaxDepth : Nat := 8
  now : Int := 0
  /-- The draw among the agents of a dependency. -/
  draw : Nat := 0
  /-- `Uuid::new_v4`. -/
  uuid : Nat → String
  /-- `canonical::args_hash` -/
  argsHash : Args → String
  /-- `available_implementation`: the one of an action that should take the args. -/
  availableImplementation : Database → ActionRow → Int → Args → BackendResult ImplementationRow
  /-- `validate_assignment_args`, against the action's ports -/
  validateArgs : Database → ActionRow → Args → Except String Unit
  /-- `state_requires::check` -/
  checkStates : Database → Int → List StateRequirement → BackendResult Unit
  /-- `build_lower_args`, by the wrapper's configuration -/
  lowerArgs : ImplementationRow → Args → Except String Args
  /-- `build_lower_dependencies` -/
  lowerDependencies : ImplementationRow → Tree → Except String Tree
  /-- `mint_token_for_task`: a token, none, or the refusal of the policy. -/
  mint : Database → MintTask → CallerContext → Except String (Option String)
  /-- Whether the transport of an agent takes a frame. -/
  delivers : Int → Assign → Bool
  uuid_nonempty : ∀ n, uuid n ≠ ""
  available_action : ∀ {db action organization args row},
    availableImplementation db action organization args = .ok row → row.actionId = action.id
  available_exists : ∀ {db action organization args row},
    availableImplementation db action organization args = .ok row →
      row ∈ db.registry.implementations

/-- What a resolve runs against. -/
def Env.context (env : Env) (db : Database) : Context where
  db := db.registry
  cutoff := env.cutoff
  dependencyMaxDepth := env.dependencyMaxDepth

end Rekuest.Backend
