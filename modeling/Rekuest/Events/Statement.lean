import Rekuest.Concurrent.Locks
import Rekuest.Concurrent.System
import Rekuest.Task.Row

/-!
# The statement that writes an event

One statement inserts an event of a task and updates what the row of the task shows of its
events.  The insert draws the id of the event; the update that reads it waits for the lock of the
row, which a claim of the task holds from its beginning on.  A transaction's writes are seen by
nobody before it commits.
-/

namespace Rekuest.Events

open Concurrent (Tx Txs System)

/-- The fields of an event that the statement reads; `J` is JSON. -/
structure NewEvent (J : Type) where
  message : Option String := none
  returns : Option J := none
  progress : Option Int := none
  deriving DecidableEq

/-- A row of `facade_taskevent`. -/
structure TaskEvent (J : Type) extends NewEvent J where
  id : Nat
  task : Nat
  kind : TaskEventKind
  deriving DecidableEq

/-- What the row of a task shows of its events. -/
structure Report (J : Type) where
  latest_progress : Option Int := none
  latest_message : Option String := none
  latest_returns : Option J := none
  deriving DecidableEq

variable {J : Type}

/-- What the update sets, over what the row holds when it is locked. -/
def kept (event : TaskEvent J) (t : Report J) : Report J where
  latest_progress :=
    if event.kind = .progress ∧ event.progress.isSome then event.progress else t.latest_progress
  latest_message := event.message.or t.latest_message
  latest_returns := if event.kind = .yield then event.returns else t.latest_returns

/-- A row of a transaction's own: the event, and what the row of its task became by it. -/
structure Kept (J : Type) where
  event : TaskEvent J
  row : Report J
  deriving DecidableEq

/-- The committed tables, the last id the events drew, and the transactions; `waiting` are the
statements that inserted their event and wait to update the row. -/
structure Store (J : Type) where
  sequence : Nat := 0
  rows : Nat → Report J := fun _ => {}
  events : List (TaskEvent J) := []
  txs : Txs Nat (Kept J) := []
  waiting : Nat → Option (TaskEvent J) := fun _ => none

namespace Store

variable (s : Store J)

/-- The row of a task as a transaction with these writes reads it. -/
def view (writes : List (Kept J)) (task : Nat) : Report J :=
  ((writes.filter fun w => w.event.task = task).getLast?.map (·.row)).getD (s.rows task)

def setWaiting (x : Nat) (event : Option (TaskEvent J)) : Store J :=
  { s with waiting := fun y => if y = x then event else s.waiting y }

end Store

/-- What a transaction does to the events and the rows they are of: a lock of the row of a task
is any statement that takes it, a `SELECT … FOR UPDATE` or an update of other columns. -/
inductive Act (J : Type) where
  | start (x : Nat)
  | lock (x task : Nat)
  | insert (x task : Nat) (kind : TaskEventKind) (event : NewEvent J)
  | keep (x : Nat)
  | commit (x : Nat)
  | rollback (x : Nat)
  deriving DecidableEq

/-- The transaction that moves. -/
def Act.tx : Act J → Nat
  | start x | lock x _ | insert x _ _ _ | keep x | commit x | rollback x => x

/-- An act of the open transaction `x`. -/
def Store.within (s : Store J) (x : Nat) (f : Tx Nat (Kept J) → Option (Store J)) : Option (Store J) :=
  (s.txs.open? x).bind f

/-- The database; an act that has to wait for a lock is not enabled. -/
def database (J : Type) : System (Store J) (Act J) where
  next s
    | .start x => if x = s.txs.length then some { s with txs := (s.txs.start 0).2 } else none
    | .lock x task => s.within x fun _ =>
        if s.waiting x = none ∧ s.txs.lockedByOther x task = false then
          some { s with txs := s.txs.lock x task }
        else none
    | .insert x task kind event => s.within x fun _ =>
        match s.waiting x with
        | some _ => none
        | none =>
            let drawn := { s with sequence := s.sequence + 1 }
            some (drawn.setWaiting x (some { event with id := s.sequence + 1, task, kind }))
    | .keep x => s.within x fun tx =>
        match s.waiting x with
        | none => none
        | some event =>
            if s.txs.lockedByOther x event.task = false then
              let row := kept event (s.view tx.writes event.task)
              let locked := { s with txs := (s.txs.lock x event.task).write x { event, row } }
              some (locked.setWaiting x none)
            else none
    | .commit x => s.within x fun tx =>
        match s.waiting x with
        | some _ => none
        | none =>
            some { s with
              rows := s.view tx.writes
              events := s.events ++ tx.writes.map (·.event)
              txs := s.txs.close x }
    | .rollback x => s.within x fun _ =>
        let closed := { s with txs := s.txs.close x }
        some (closed.setWaiting x none)

/-! ## The transactions -/

/-- The statement: the insert, and the update that reads it. -/
def insert_event (x task : Nat) (kind : TaskEventKind) (event : NewEvent J) : List (Act J) :=
  [.insert x task kind event, .keep x]

/-- The statement by itself, a transaction of its own: a stream event, a late report, the event of
a held child, a decision. -/
def alone (x task : Nat) (kind : TaskEventKind) (event : NewEvent J) : List (Act J) :=
  .start x :: insert_event x task kind event ++ [.commit x]

/-- A task transition that is won: the row locked, moved, and its event written. -/
def claim (x task : Nat) (kind : TaskEventKind) (event : NewEvent J) : List (Act J) :=
  [.start x, .lock x task] ++ insert_event x task kind event ++ [.commit x]

/-- What a stream event of a task is recorded as, by what its row said: nothing once the task is
done, but for a result after it was lost. -/
def record_event (is_done : Bool) (latest_event_kind kind : TaskEventKind) (event : NewEvent J) :
    Option (TaskEventKind × NewEvent J) :=
  if is_done then
    if latest_event_kind = .lost ∧ kind = .yield then
      some (.lateReport,
        { event with message := some "A result the agent reported after the task was lost." })
    else none
  else some (kind, event)

end Rekuest.Events
