import Rekuest.Server.Holds

/-!
# Assigning

`backend.rs`, `assign_with_status` and `assign_higher_order`.  Choosing the
target's implementation and the refusals that only look at the payload (its
ports, its state requirements, a reference reused for something else) are the
request's: `implementation` and `accepted`.
-/

namespace Rekuest

open Concurrent

/-- A hook of an assign; an `INIT` one is assigned as the task's child. -/
structure Hook where
  init : Bool := true
  implementation : Option Nat
  accepted : Bool := true
  freshLower : String := ""
  deriving DecidableEq, Repr

/-- What an assign asks for (`AssignInput`).  `fresh` and `freshLower` are the
UUIDs that stand in for references nobody gave. -/
structure AssignInput where
  implementation : Option Nat
  accepted : Bool := true
  reference : Option String := none
  parent : Option Nat := none
  parentStep : Option Int := none
  callKey : Option String := none
  notBefore : Option Int := none
  policy : Option Policy := none
  prompt : Option AssignPrompt := none
  hooks : List Hook := []
  unheld : Bool := false
  fresh : String
  freshLower : String
  deriving DecidableEq, Repr

/-- The task of an assign; `created` is false for a resend. -/
structure Assigned where
  task : Nat
  reference : String
  created : Bool
  deriving DecidableEq, Repr

/-- The reference a task is created under. -/
def AssignInput.referenceOr (input : AssignInput) : String :=
  input.reference.getD input.fresh

/-- The task the winner of a race created, as the loser answers it. -/
def existing (db : Db) (task : Nat) : Assigned where
  task := task
  reference := (db.task? task).elim "" (·.reference)
  created := false

/-- The root and the policy of a new task.  A root's policy is its assign's, a
child's its parent's; only a child the server makes itself may bring its own.
`none` when the parent is missing. -/
def rootAndPolicy (db : Db) (input : AssignInput) : Option (Option Nat × Policy) :=
  match input.parent with
  | none => some (none, input.policy.getD .ask)
  | some parent => (db.task? parent).map fun row =>
      (some (row.root.getD parent),
        if input.unheld && input.policy.isSome then input.policy.getD .ask
        else row.policy)

/-- Whether a child waits for a person before it is dispatched. -/
def AssignInput.held (input : AssignInput) (policy : Policy) : Bool :=
  input.parent.isSome && policy == .ask && !input.unheld

/-- The task another backend created for this very assign a moment ago
(`lost_reference_race`). -/
def lostReferenceRace (caller : Nat) (input : AssignInput) :
    Program (Option Assigned) :=
  select fun db => (existingAssign db caller input.parent input.callKey
    input.parentStep (some input.referenceOr)).map (existing db)

/-- The wrapper of a higher-order assign. -/
def wrapperTask (caller : Nat) (input : AssignInput) (id : Nat)
    (higher : Implementation) (root : Option Nat) (policy : Policy) : NewTask where
  action := higher.action
  reference := input.referenceOr
  parent := input.parent
  parentStep := input.parent.bind fun _ => input.parentStep
  callKey := input.parent.bind fun _ => input.callKey
  root := root
  agent := higher.agent
  implementation := id
  caller := caller
  policy := policy
  held := input.held policy

/-- The child that runs a wrapper, before it knows the wrapper's id. -/
def lowerTask (caller : Nat) (input : AssignInput) (id : Nat)
    (lower : Implementation) (policy : Policy) (now : Int) : NewTask where
  action := lower.action
  reference := input.freshLower
  agent := lower.agent
  implementation := id
  codeHash := lower.codeHash
  caller := caller
  -- a held wrapper's child waits with it: it is sent when the wrapper is approved
  dispatchedAt := if input.held policy then none else some now
  dispatchAttempts := if input.held policy then 0 else 1
  policy := policy
  held := input.held policy

/-- The lower child of the wrapper inserted as `higherTask`. -/
def lowerAssign (input : AssignInput) (lowerId : Nat) (lower : Implementation)
    (root : Option Nat) (higherTask : Nat) : Assign where
  task := higherTask + 1
  root := some (root.getD higherTask)
  parent := some higherTask
  interface := lower.interface
  reference := input.freshLower
  implementation := lowerId

/-- A higher-order task: a virtual wrapper that is never sent to an agent, and
a child on the lower implementation's agent that runs it. -/
def assignHigherOrder (settings : Settings) (caller : Nat) (input : AssignInput)
    (id : Nat) (higher : Implementation) (root : Option Nat) (policy : Policy) :
    Program (Option Assigned) := do
  let lower ← select fun db => higher.higherOrderFor.bind fun lowerId =>
    db.implementations[lowerId]?.map (lowerId, ·)
  match lower with
  | none => return none
  | some (lowerId, lower) =>
      let available : Bool ← run (.query Bool fun e db =>
        db.agentIsAvailable settings e.now lower.agent)
      if !available then return none
      else
        let now ← utcNow
        let inserted : Inserted ← run (.insertHigherOrder
          (wrapperTask caller input id higher root policy)
          (lowerTask caller input lowerId lower policy now)
          { action := higher.action, agent := higher.agent, prompt := input.prompt })
        match inserted with
        | .duplicate => lostReferenceRace caller input
        | .refused => return none
        | .created higherTask =>
            if !input.held policy then
              dispatch (higherTask + 1) lower.agent
                (lowerAssign input lowerId lower root higherTask)
            return some {
              task := higherTask
              reference := input.referenceOr
              created := true }

/-- The task of a plain assign. -/
def plainTask (caller : Nat) (input : AssignInput) (schedule : Option Nat)
    (id : Nat) (implementation : Implementation) (root : Option Nat)
    (policy : Policy) (delayed : Bool) (now : Int) : NewTask where
  action := implementation.action
  reference := input.referenceOr
  parent := input.parent
  parentStep := input.parent.bind fun _ => input.parentStep
  callKey := input.parent.bind fun _ => input.callKey
  root := root
  agent := implementation.agent
  implementation := id
  codeHash := implementation.codeHash
  caller := caller
  dispatchedAt := if delayed || input.held policy then none else some now
  dispatchAttempts := if delayed || input.held policy then 0 else 1
  notBefore := if delayed then input.notBefore else none
  schedule := schedule
  policy := policy
  held := input.held policy

/-- The Assign of a plain task's first dispatch. -/
def plainAssign (input : AssignInput) (id : Nat) (implementation : Implementation)
    (root : Option Nat) (task : Nat) : Assign where
  task := task
  root := root
  parent := input.parent
  interface := implementation.interface
  reference := input.referenceOr
  implementation := id

/-- A task on the agent of its implementation, and then its hooks. -/
def assignPlain (caller : Nat) (input : AssignInput) (schedule : Option Nat)
    (id : Nat) (implementation : Implementation) (root : Option Nat)
    (policy : Policy) (delayed : Bool) (hooks : Nat → Program Unit) :
    Program (Option Assigned) := do
  let now ← utcNow
  let inserted : Inserted ← run (.insertTask
    (plainTask caller input schedule id implementation root policy delayed now)
    { action := implementation.action
      agent := implementation.agent
      prompt := input.prompt })
  match inserted with
  | .duplicate => lostReferenceRace caller input
  | .refused => return none
  | .created task =>
      if !(delayed || input.held policy) then
        dispatch task implementation.agent
          (plainAssign input id implementation root task)
        hooks task
      return some { task, reference := input.referenceOr, created := true }

/-- An assign; `none` when it is refused.  `hooks` assigns the hooks of the task
created. -/
def assignWithHooks (settings : Settings) (principal : Principal)
    (input : AssignInput) (schedule : Option Nat) (hooks : Nat → Program Unit) :
    Program (Option Assigned) := do
  match principal.organization with
  | none => return none -- cannot assign without an organization
  | some organization =>
      let caller : Nat ← run (.getCaller
        { client := principal.client, user := principal.user, organization })
      let found ← select fun db => (existingAssign db caller input.parent
        input.callKey input.parentStep input.reference).map (existing db)
      match found with
      | some found => return if input.accepted then some found else none
      | none =>
          let target ← select fun db => input.implementation.bind fun id =>
            db.implementations[id]?.map (id, ·)
          match input.accepted, target with
          | true, some (id, implementation) =>
              match ← select (rootAndPolicy · input) with
              | none => return none
              | some (root, policy) =>
                  let now ← utcNow
                  let delayed := input.notBefore.any fun due => (now < due : Bool)
                  if (delayed || input.held policy) && !input.hooks.isEmpty then
                    return none
                  else if implementation.higherOrderFor.isNone then
                    assignPlain caller input schedule id implementation root
                      policy delayed hooks
                  else if delayed then
                    return none
                  else
                    assignHigherOrder settings caller input id implementation
                      root policy
          | _, _ => return none

/-- An `INIT` hook's assign: the server's own child, which nobody approves. -/
def Hook.input (hook : Hook) (task : Nat) : AssignInput where
  implementation := hook.implementation
  accepted := hook.accepted
  parent := some task
  -- scoped to the parent: a constant reference would dedupe across tasks' hooks
  reference := some ("init_hook_0_" ++ toString task)
  unheld := true
  fresh := ""
  freshLower := hook.freshLower

/-- Assign the hooks one after the other, up to the first refused; they carry
no hooks themselves. -/
def assignHooks (settings : Settings) (principal : Principal) (task : Nat) :
    List Hook → Program Unit
  | [] => return
  | hook :: rest => do
      match ← assignWithHooks settings principal (hook.input task) none
        fun _ => return with
      | some _ => assignHooks settings principal task rest
      | none => return

/-- Create (or find) the task of an assign. -/
def assignWithStatus (settings : Settings) (principal : Principal)
    (input : AssignInput) (schedule : Option Nat) : Program (Option Assigned) :=
  assignWithHooks settings principal input schedule fun task =>
    assignHooks settings principal task (input.hooks.filter (·.init))

end Rekuest
