import Rekuest.Server.Transitions

/-!
# Deciding held work

`holds.rs`: a person's answer to a held task.  Which of the two protocols
answers it is read off the newest `HELD` event on the task, whoever wrote it.
-/

namespace Rekuest

open Concurrent

/-- Who asks: a user of an organization, from a client. -/
structure Principal where
  user : Nat
  client : Nat
  organization : Option Nat
  userSub : String := ""
  deriving DecidableEq, Repr

/-- What `decide` reads of the task. -/
structure HeldRow where
  isDone : Bool
  latestEventKind : TaskEventKind
  agent : Nat
  parent : Option Nat
  root : Option Nat
  organization : Nat
  /-- The client the task was assigned from. -/
  callerClient : Option Nat
  /-- The task's own agent's client. -/
  agentClient : Nat
  /-- The user the run is for: its root's caller. -/
  rootUser : Option Nat
  /-- The newest `HELD` event's value: what waits. -/
  held : Option EventValue
  deriving DecidableEq, Repr

/-- A `HELD` event of the task's own hold. -/
def EventValue.isSelf : EventValue → Bool
  | .heldSelf .. => true
  | _ => false

/-- The materialization a self-hold asks through. -/
def EventValue.blok : EventValue → Option Nat
  | .heldSelf _ _ blok => blok
  | _ => none

/-- The value of the newest `HELD` event on a task. -/
def newestHeld (db : Db) (task : Nat) : Option EventValue :=
  ((db.eventsOf task).filter (·.kind == .held)).getLast?.bind (·.event.value)

def heldRow (db : Db) (task : Nat) : Option HeldRow := do
  let t ← db.task? task
  let a ← db.agents[t.agent]?
  let caller := t.caller.bind (db.callers[·]?)
  let root := (db.task? (t.root.getD task)).bind fun r =>
    r.caller.bind (db.callers[·]?)
  some {
    isDone := t.isDone, latestEventKind := t.latestEventKind, agent := t.agent
    parent := t.parent, root := t.root, organization := a.organization
    callerClient := caller.map (·.client), agentClient := a.client
    rootUser := root.map (·.user), held := newestHeld db task }

/-- Why a decision is refused before it writes anything.  `valuesFit` says
whether the values fit the blok's returns. -/
def decideRefused (row : HeldRow) (principal : Principal) (approved : Bool)
    (values : Option String) (valuesFit : Bool) : Bool :=
  let asking := if row.held.any (·.isSelf) then some row.agentClient
    else row.callerClient
  let unfit := match row.held.bind (·.blok), values with
    | some _, _ => if approved then !valuesFit else values.isSome
    | none, values => values.isSome
  principal.organization != some row.organization || row.isDone ||
    row.latestEventKind != .held || row.rootUser != some principal.user ||
    asking == some principal.client || unfit

/-- The answer to a task's own hold: `DECIDED`, and the `DECIDE` its agent
waits for. -/
def decideSelf (task agent : Nat) (approved : Bool) (answer values : Option String)
    (decided : EventValue) : Program Unit := do
  let won ← claim task {
    toKind := .decided
    onlyIf := fun row => row.latestEventKind == .held
    event := some {
      message := some (if approved then "Approved." else "Denied.")
      value := some decided } }
  if won then
    let _ : Bool ← run (.deliver agent (.decide task approved answer false values))

/-- The answer to a held child: approved, it is dispatched as any assign is;
denied, it ends `DENIED`, never having run. -/
def decideHeldChild (task : Nat) (watchers : List Nat) (approved : Bool)
    (answer : Option String) (decided : EventValue) : Program Unit := do
  let runner : Option Nat ←
    run (.decideChild task watchers approved answer decided)
  match runner with
  | none => return
  | some runner =>
      if approved then
        let agent ← select fun db => (db.task? runner).elim 0 (·.agent)
        let assign : Option Assign ←
          run (.query _ fun e db => buildRedispatchAssign e db runner)
        match assign with
        | some assign => dispatch runner agent { assign with message := answer }
        | none =>
            let _ ← finalizeTerminal runner .critical
              "Approved, but the Assign could not be built (no caller identity, or the provenance policy refused)."
              none {}

/-- A person's answer to a held task. -/
def decide (principal : Principal) (task : Nat) (approved : Bool)
    (answer values : Option String) (valuesFit : Bool) : Program Unit := do
  match ← select (heldRow · task) with
  | none => return
  | some row =>
      if decideRefused row principal approved values valuesFit then return
      else
        let decided := .decision approved answer false (some principal.userSub)
          values none
        if row.held.any (·.isSelf) then
          decideSelf task row.agent approved answer values decided
        else
          let watchers := match row.parent with
            | some parent => watchers parent (row.root.getD parent)
            | none => []
          decideHeldChild task watchers approved answer decided

end Rekuest
