import Rekuest.Concurrent.Pool
import Rekuest.Task.Assign
import Rekuest.Task.Holds
import Rekuest.Task.Transitions

/-!
# The atomic steps of the server

Every handler is a sequence of committed transactions and single statements;
between two of them any other handler may run and the replica may crash.  This
is the list of them, with what each answers and what it does to the database.
-/

namespace Rekuest

open Concurrent

/-- What became of a schedule's open run when it is triggered. -/
inductive Moved
  | executing
  | moved (run : Nat)
  | noRun
  deriving DecidableEq, Repr

/-- One transaction or statement. -/
inductive Txn : Type 1
  /-- A `SELECT`, or a reading of the clock. -/
  | query (α : Type) (read : Env → Db → α)
  | stampPickup (task : Nat)
  | recordEvent (task : Nat) (kind : TaskEventKind) (event : NewEvent)
  | claim (task : Nat) (c : Claim)
  | settleHeldChildren (parent : Nat)
  | overrideServerOutcome (task : Nat) (kind : TaskEventKind) (event : NewEvent)
  | decideChild (task : Nat) (watchers : List Nat) (approved : Bool)
      (answer : Option String) (decided : EventValue)
  | controlTarget (target : Nat) (control : Control) (caller : Option Nat)
      (interruptAt : Option Int)
  | insertTask (new : NewTask) (ask : Ask)
  | insertHigherOrder (wrapper lower : NewTask) (ask : Ask)
  | getCaller (caller : Caller)
  | decideUnpicked (task : Nat) (cutoff : Int)
  | claimDue (task : Nat)
  /-- `dispatched_at = NULL` of an open task: its Assign never left. -/
  | recordUndelivered (task : Nat)
  /-- Clear a control deadline that is still the one read; whether it was. -/
  | clearDeadline (task : Nat) (deadline : Int)
  | setDeadline (task : Nat) (at' : Int)
  /-- The agent became a hook agent: what it never picked up never left. -/
  | forgetDispatches (agent : Nat)
  | restartPickupClock (agent : Nat)
  | moveRunToNow (schedule : Nat) (allowsOverlap : Bool)
  | claimLease (agent connection : Nat) (session : Option Nat) (force : Bool)
  | releaseLease (agent connection : Nat)
  | renewLease (agent connection : Nat)
  | revokeLease (agent : Nat)
  /-- Hand a frame to the agent's transport; whether it was accepted. -/
  | deliver (agent : Nat) (frame : ToAgent)

/-- What a transaction answers. -/
@[reducible]
def Txn.Res : Txn → Type
  | .query α _ => α
  | .stampPickup _ => Int
  | .recordEvent .. | .claim .. | .overrideServerOutcome .. | .clearDeadline ..
  | .releaseLease .. | .renewLease .. | .revokeLease _ | .deliver .. => Bool
  | .decideChild .. => Option Nat
  | .controlTarget .. => Controlled
  | .insertTask .. | .insertHigherOrder .. => Inserted
  | .getCaller _ => Nat
  | .decideUnpicked .. => Unpicked
  | .claimDue _ => Due
  | .moveRunToNow .. => Moved
  | .claimLease .. => Leases.LeaseClaim
  | .settleHeldChildren _ | .recordUndelivered _ | .setDeadline ..
  | .forgetDispatches _ | .restartPickupClock _ => Unit

/-- The programs of the server. -/
abbrev Program := Prog Txn.Res

namespace Db

/-- An `UPDATE` of every task row that meets a condition. -/
def updateTasks (db : Db) (p : Task → Bool) (f : Task → Task) : Db :=
  { db with tasks := db.tasks.map fun t => if p t then f t else t }

/-- An operation on one agent's lease. -/
def onLease {α : Type} (db : Db) (agent : Nat) (default : α)
    (op : Leases.AgentLease → α × Leases.AgentLease) : α × Db :=
  match db.agents[agent]? with
  | none => (default, db)
  | some a => ((op a.lease).1, { db with
      agents := db.agents.set agent { a with lease := (op a.lease).2 } })

end Db

/-- Move a schedule's waiting run to now (`schedules::trigger`).  An open run
that was handed over stands in the way unless the schedule allows overlap. -/
def moveRunToNow (e : Env) (db : Db) (schedule : Nat) (allowsOverlap : Bool) :
    Moved × Db :=
  let isOpen (t : Task) : Bool := t.schedule == some schedule && !t.isDone
  match db.tasks.findIdx? fun t => isOpen t && t.dispatchAttempts == 0 with
  | some run => (.moved run, db.modifyTask run fun t =>
      { t with notBefore := some e.now, revision := t.revision + 1 })
  | none =>
      if db.tasks.any isOpen && !allowsOverlap then (.executing, db)
      else (.noRun, db)

/-- What a transaction answers and the database it leaves. -/
def Txn.exec (settings : Settings) (e : Env) : (op : Txn) → Db → op.Res × Db
  | .query _ read, db => (read e db, db)
  | .stampPickup task, db => (e.now, Rekuest.stampPickup e db task)
  | .recordEvent task kind event, db => Rekuest.recordEvent db task kind event
  | .claim task c, db => claimTask e db task c
  | .settleHeldChildren parent, db => ((), Rekuest.settleHeldChildren e db parent)
  | .overrideServerOutcome task kind event, db =>
      Rekuest.overrideServerOutcome e db task kind event
  | .decideChild task watchers approved answer decided, db =>
      Rekuest.decideChild e db task watchers approved answer decided
  | .controlTarget target control caller interruptAt, db =>
      Rekuest.controlTarget e db target control caller interruptAt
  | .insertTask new ask, db => Rekuest.insertTask e db new ask
  | .insertHigherOrder wrapper lower ask, db =>
      Rekuest.insertHigherOrder e db wrapper lower ask
  | .getCaller caller, db => Rekuest.getCaller db caller
  | .decideUnpicked task cutoff, db => Rekuest.decideUnpicked e db task cutoff
  | .claimDue task, db => Rekuest.claimDue e db task
  | .recordUndelivered task, db => ((), db.modifyTask task fun t =>
      if t.isDone then t else { t with dispatchedAt := none })
  | .clearDeadline task deadline, db =>
      ((db.task? task).any fun t => !t.isDone && t.interruptAt == some deadline,
        db.modifyTask task fun t =>
          if !t.isDone && t.interruptAt == some deadline then
            { t with interruptAt := none }
          else t)
  | .setDeadline task at', db => ((), db.modifyTask task fun t =>
      if t.isDone then t else { t with interruptAt := some at' })
  | .forgetDispatches agent, db =>
      ((), db.updateTasks
        (fun t => t.agent == agent && !t.isDone && t.pickedUpAt.isNone)
        fun t => { t with dispatchedAt := none })
  | .restartPickupClock agent, db =>
      ((), db.updateTasks
        (fun t => t.agent == agent && !t.isDone && t.pickedUpAt.isNone &&
          t.latestEventKind == .queued && t.dispatchedAt.isSome)
        fun t => { t with dispatchedAt := some e.now })
  | .moveRunToNow schedule allowsOverlap, db =>
      Rekuest.moveRunToNow e db schedule allowsOverlap
  | .claimLease agent connection session force, db =>
      db.onLease agent {} fun lease =>
        Leases.claimLease settings lease connection session force e.now e.now
  | .releaseLease agent connection, db =>
      db.onLease agent false fun lease => Leases.releaseLease lease connection e.now
  | .renewLease agent connection, db =>
      db.onLease agent false fun lease =>
        Leases.renewAgentLease lease connection e.now
  | .revokeLease agent, db =>
      db.onLease agent false fun lease => Leases.revokeLease settings lease e.now
  | .deliver agent frame, db =>
      if e.delivered then (true, { db with sent := db.sent ++ [(agent, frame)] })
      else (false, db)

/-- One transaction as a program. -/
def run (op : Txn) : Program op.Res := Prog.perform op

/-- A `SELECT` as a program. -/
def select {α : Type} (read : Db → α) : Program α :=
  run (.query α fun _ db => read db)

/-- A reading of the application clock. -/
def utcNow : Program Int := run (.query Int fun e _ => e.now)

end Rekuest
