import Rekuest.Backend.Database

/-!
# The task of an earlier delivery

`_existing_assign` and its checks: an assign finds the task an earlier delivery
of it created, by its place in its parent's run or by its reference, and the
request has to ask for the same thing.
-/

namespace Rekuest.Backend

/-- What is read of a task that was found. -/
structure ExistingRow where
  id : Int
  reference : String
  callKey : Option String
  actionId : Int
  implementationId : Option Int
  actionHash : String
  dependency : Option String
  dependencyMethod : Option String
  argsHash : Option String
  agentId : Int
  interface : Option String
  /-- Found by `(caller, reference)` alone, not by its place in a parent's run. -/
  byReference : Bool := false
  deriving DecidableEq, Repr

/-- `EXISTING`: a task with its action, and its implementation where it has one. -/
def Database.existing (db : Database) (t : TaskRow) : Option ExistingRow := do
  let action ← db.registry.action t.action
  pure {
    id := t.id
    reference := t.reference
    callKey := t.callKey
    actionId := t.action
    implementationId := t.implementation
    actionHash := action.hash
    dependency := t.dependency
    dependencyMethod := t.dependencyMethod
    argsHash := t.argsHash
    agentId := t.agent
    interface := (t.implementation.bind db.registry.implementation).map (·.interface) }

/-- The first task by id that a lookup is for. -/
def Database.firstExisting (db : Database) (wanted : TaskRow → Bool) : Option ExistingRow :=
  db.tasks.findSome? fun t => if wanted t then db.existing t else none

def parseParent (input : AssignInput) : BackendResult (Option Int) :=
  match input.parent with
  | none => .ok none
  | some parent => (parseId parent).map some

section

variable (db : Database) (caller : Int) (input : AssignInput)

def byCallKey (parent : Option Int) : Option ExistingRow :=
  match parent, input.callKey with
  | some parent, some callKey =>
      db.firstExisting fun t => t.parent = some parent && t.callKey = some callKey
  | _, _ => none

def byParentStep (parent : Option Int) : Option ExistingRow :=
  match parent, input.parentStep with
  | some parent, some step =>
      db.firstExisting fun t => t.parent = some parent && t.parentStep = some step
  | _, _ => none

def byReference (reference : Option String) : Option ExistingRow :=
  match reference with
  | some reference =>
      (db.firstExisting fun t => t.caller = some caller && t.reference = reference).map
        fun found => { found with byReference := true }
  | none => none

/-- By `(parent, call_key)`, then `(parent, parent_step)`, then `(caller, reference)`. -/
def existingAssign (reference : Option String) : BackendResult (Option ExistingRow) := do
  let parent ← parseParent input
  pure ((byCallKey db input parent).or ((byParentStep db input parent).or
    (byReference db caller reference)))

end

/-! ## The checks -/

/-- Whether a request names another target than a task found by reference has. -/
def anotherTarget (existing : ExistingRow) (input : AssignInput) : Bool :=
  (named input.action).any (toString existing.actionId ≠ ·) ||
  (named input.actionHash).any (existing.actionHash ≠ ·) ||
  (named input.implementation).any (existing.implementationId.map toString ≠ some ·) ||
  (named input.agent).any (toString existing.agentId ≠ ·) ||
  (named input.interface).any (existing.interface ≠ some ·) ||
  ((named input.dependency).isSome &&
    (existing.dependency, existing.dependencyMethod) ≠ (input.dependency, input.method))

def otherArgs (env : Env) (existing : ExistingRow) (input : AssignInput) : Bool :=
  existing.argsHash.any (· ≠ env.argsHash input.args)

/-- A reference found again is the same assign only if it asks for the same
thing, with the same arguments. -/
def checkTheReferenceNamesTheSameAssign (env : Env) (existing : ExistingRow)
    (input : AssignInput) : BackendResult Unit :=
  if !existing.byReference then .ok ()
  else if anotherTarget existing input || otherArgs env existing input then
    .error (.refused ("Reference " ++ reprStr existing.reference ++ " already names task " ++
      toString existing.id ++ ", which was assigned " ++
      (if anotherTarget existing input then "to something else" else "with other arguments") ++
      ". A reference names one assignment: use a new one for a new call."))
  else .ok ()

/-- Whether a request that bears the call key of a task names something else. -/
def differs (existing : ExistingRow) (input : AssignInput) : Bool :=
  input.action.any (toString existing.actionId ≠ ·) ||
  input.implementation.any ((existing.implementationId.map toString).getD "None" ≠ ·) ||
  input.actionHash.any (existing.actionHash ≠ ·) ||
  (input.dependency.isSome &&
    (existing.dependency, existing.dependencyMethod) ≠ (input.dependency, input.method))

/-- A call key found again must name the call it named before. -/
def checkItIsTheSameCall (existing : ExistingRow) (input : AssignInput) : BackendResult Unit :=
  match input.callKey with
  | none => .ok ()
  | some callKey =>
      if existing.callKey ≠ some callKey then .ok ()
      else if differs existing input then
        .error (.refused ("Nondeterministic workflow: call " ++ reprStr callKey ++ " of task " ++
          input.parent.getD "None" ++ " was made to action " ++ toString existing.actionId ++
          " before, and names something else now."))
      else .ok ()

/-! ## The two answers -/

/-- The answer that a task already existed. -/
def ExistingRow.answer (existing : ExistingRow) : Assigned :=
  ⟨existing.id, existing.reference, false⟩

/-- The answer of the lookup up front. -/
def fastAnswer (env : Env) (input : AssignInput) (existing : ExistingRow) :
    BackendResult Assigned := do
  checkItIsTheSameCall existing input
  checkTheReferenceNamesTheSameAssign env existing input
  pure existing.answer

/-- The answer to a request that lost the race of its insert. -/
def raceAnswer (env : Env) (input : AssignInput) (winner : ExistingRow) :
    BackendResult Assigned := do
  checkTheReferenceNamesTheSameAssign env winner input
  pure winner.answer

/-- The task another backend created for this very assign a moment ago, after
the insert hit a unique constraint. -/
def lostReferenceRace (env : Env) (db : Database) (caller : Int) (input : AssignInput)
    (reference : String) : BackendResult Assigned := do
  match ← existingAssign db caller input (some reference) with
  | some winner => raceAnswer env input winner
  | none => .error .uniqueViolation

end Rekuest.Backend
