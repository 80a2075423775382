import Rekuest.Server.Txn

/-!
# Transition programs

`persist/transitions.rs` and the two `dispatch` functions: what follows a won
claim, in transactions of its own.
-/

namespace Rekuest

open Concurrent

/-- Take a task transition; whether we won.  Whoever ends a task then settles
the children of it that are still held. -/
def claim (task : Nat) (c : Claim) : Program Bool := do
  let won : Bool ← run (.claim task c)
  if won && c.markDone then
    run (.settleHeldChildren task)
  return won

/-- The wrapper a child's events unfold onto: its parent, when that runs a
higher-order implementation. -/
def wrapperOf (db : Db) (child : Nat) : Option Nat := do
  let c ← db.task? child
  let parent ← c.parent
  let p ← db.task? parent
  if db.isHigherOrder p then some parent else none

/-- If `child` is the child of a higher-order wrapper, re-emit an event on the
wrapper.  The mapped returns of a `YIELD` are payload and left out. -/
def unfoldToHigherOrder (child : Nat) (kind : TaskEventKind)
    (message : Option String) (isHigherOrderChild : Option Bool) :
    Program Unit := do
  let flagged : Bool ← match isHigherOrderChild with
    | some flag => pure flag
    | none => select fun db => (db.task? child).any (·.isHigherOrderChild)
  if flagged then
    match ← select (wrapperOf · child) with
    | none => return
    | some parent =>
        let _ ← claim parent {
          toKind := kind
          markDone := isTerminal kind
          event := some { delegatedTo := some child, message } }

/-- How `finalize_terminal` may lose its claim, and what else it sets. -/
structure Guard where
  onlyIf : Task → Bool := fun _ => true
  extra : ClaimExtra := .none
  skipLocked : Bool := false

/-- Finalize a task the server decided is over, and project it onto any
wrapper.  Whether we won. -/
def finalizeTerminal (task : Nat) (kind : TaskEventKind) (message : String)
    (value : Option EventValue) (guard : Guard) : Program Bool := do
  let won ← claim task {
    toKind := kind
    markDone := true
    onlyIf := guard.onlyIf
    extra := guard.extra
    skipLocked := guard.skipLocked
    event := some { message := some message, value } }
  if won then
    unfoldToHigherOrder task kind (some message) none
  return won

/-- End a task LOST: its agent is gone, and so is any way of knowing how it
ended. -/
def finalizeLost (task : Nat) (reason : String) (started : Bool)
    (onlyIf : Task → Bool) (skipLocked : Bool) : Program Bool := do
  let details ← select fun db => lostDetails db task started reason
  finalizeTerminal task .lost reason (some details) { onlyIf, skipLocked }

/-- Hand a committed task's Assign to its agent; a failure is recorded as
"never left", which the pickup watchdog retries. -/
def dispatch (task agent : Nat) (assign : Assign) : Program Unit := do
  let delivered : Bool ← run (.deliver agent (.assign assign))
  if !delivered then
    run (.recordUndelivered task)

end Rekuest

/-!
# Requesting a control

`backend.rs`, `request_control`: the targets are chosen by plain reads; each is
then controlled in a transaction of its own.
-/

namespace Rekuest

open Concurrent

namespace Db

/-- The tasks that meet a condition, by id, each with its agent. -/
def targetsWhere (db : Db) (p : Nat → Task → Bool) : List (Nat × Nat) :=
  (List.range db.tasks.length).filterMap fun id =>
    ((db.task? id).filter (p id)).map fun t => (id, t.agent)

end Db

/-- What `request_control` reads of the task before anything else. -/
structure ControlRow where
  isDone : Bool
  organization : Nat
  kind : TaskEventKind
  deriving DecidableEq, Repr

def controlRow (db : Db) (task : Nat) : Option ControlRow := do
  let t ← db.task? task
  let a ← db.agents[t.agent]?
  some { isDone := t.isDone, organization := a.organization, kind := t.latestEventKind }

/-- Why a control is refused: the task is terminal, or it is held and only a
decision or an end can answer that. -/
def ControlRow.refuses (row : ControlRow) (control : Control) : Bool :=
  row.isDone || (row.kind == .held && control.waitingOutcome.isNone)

/-- The task, then for a propagating control every open task of its run, then
for a cancel or interrupt the task's children still held for a decision: such a
child has no agent to wind it down, so it ends with its parent's control. -/
def controlTargets (task : Nat) (control : Control) :
    Program (List (Nat × Nat)) := do
  let self ← select fun db => db.targetsWhere fun id _ => id == task
  let running ← if control.propagates then
      select fun db => db.targetsWhere fun _ t => t.root == some task && !t.isDone
    else pure []
  let held ← if control.waitingOutcome.isSome then
      select fun db => db.targetsWhere fun _ t =>
        t.parent == some task && t.isWaitingHeld
    else pure []
  return (self ++ running) ++ held.filter fun child =>
    !(self ++ running).contains child

/-- Control one target, and tell its agent what is instructed, best effort. -/
def controlOne (control : Control) (caller : Option Nat) (interruptAt : Option Int)
    (target : Nat × Nat) : Program Unit := do
  let controlled : Controlled ←
    run (.controlTarget target.1 control caller interruptAt)
  if controlled = .instructed then
    let _ : Bool ← run (.deliver target.2 (control.message target.1))

/-- The request phase of a lifecycle control; whether it was accepted.  `caller`
is `none` only on internal paths, which are trusted. -/
def requestControl (settings : Settings) (task : Nat) (control : Control)
    (caller : Option Nat) : Program Bool := do
  match ← select (controlRow · task) with
  | none => return false
  | some row =>
      let foreign ← match caller with
        | none => pure false
        | some caller => select fun db =>
            (db.callers[caller]?).map (·.organization) != some row.organization
      if foreign || row.refuses control then return false
      else
        let targets ← controlTargets task control
        let interruptAt : Option Int ← run (.query (Option Int) fun e _ =>
          controlDeadline settings e.now control)
        Prog.forEach targets (controlOne control caller interruptAt)
        return true

/-- Forceful: reaches every still-running descendant; each confirms on its
own. -/
def interrupt (settings : Settings) (task : Nat) (caller : Option Nat) :
    Program Bool :=
  requestControl settings task .interrupt caller

end Rekuest
