import Rekuest.Backend.Existing
import Rekuest.Concurrent.Locks

/-!
# The tables of triggers, signals and firings

The rows that `triggers.rs` reads and writes, and the statements it does so by.
A transaction's writes are seen by nobody before it commits; a row lock is held
until the transaction ends, and what needs it waits.
-/

namespace Rekuest.Triggers

open Concurrent

/-! ## Rows -/

inductive SignalKind
  | created | updated | deleted
  deriving DecidableEq, Repr

/-- One event a service announced (`facade_signal`). -/
structure SignalRow where
  kind : SignalKind
  identifier : String
  object : String
  descriptors : String
  organization : Nat
  causingTask : Option Nat := none
  processedAt : Option Int := none
  /-- No column: the task that caused it, also where the column was cleared. -/
  cause : Option Nat := none
  deriving DecidableEq, Repr

/-- An argument of a run: the signalled object, or any other JSON by its text. -/
inductive ArgValue
  | json (text : String)
  | object (identifier object : String)
  deriving DecidableEq, Repr

/-- A JSON object, by its keys in order. -/
abbrev Args := List (String × ArgValue)

/-- The columns of a trigger its owner edits. -/
structure Rule where
  enabled : Bool := true
  kind : SignalKind
  identifier : String
  compiledJsonpath : Option String := none
  action : Nat
  agent : Option Nat := none
  interface : Option String := none
  port : String
  args : Args := []
  endsAt : Option Int := none
  maxRuns : Option Nat := none
  debounceSeconds : Option Nat := none
  deriving DecidableEq, Repr

/-- `facade_trigger`, with its caller's organization. -/
structure TriggerRow where
  rule : Rule
  caller : Nat
  organization : Nat
  runCount : Nat := 0
  consecutiveFailures : Nat := 0
  lastError : Option String := none
  deriving DecidableEq, Repr

inductive FiringOutcome
  | fired | rejected | failed
  deriving DecidableEq, Repr

structure NewFiring where
  signal : Nat
  trigger : Nat
  outcome : FiringOutcome
  reason : Option String
  task : Option Nat
  replay : Bool
  deriving DecidableEq, Repr

/-- Whether a firing takes the place in the index of another
(`firing_unique_per_signal_trigger`). -/
def NewFiring.clashes (f g : NewFiring) : Bool :=
  !f.replay && !g.replay && f.signal == g.signal && f.trigger == g.trigger

/-- What became of one trigger for one signal (`facade_firing`). -/
structure FiringRow extends NewFiring where
  createdAt : Int
  deriving DecidableEq, Repr

/-- What the maker of a task says of it (`AssignOrigin`); that it is a replay it
does not say. -/
structure AssignOrigin where
  signal : Option Nat := none
  trigger : Option Nat := none
  triggerDepth : Nat := 0
  replay : Bool := false
  deriving DecidableEq, Repr

/-- `facade_task`, as triggers see it.  `origin` is no column: it is what the
task was made with, also where the row does not keep it. -/
structure TaskRow where
  caller : Nat
  reference : String
  action : Nat
  agent : Nat
  interface : String
  args : Args := []
  parent : Option Nat := none
  isHigherOrderChild : Bool := false
  signal : Option Nat := none
  trigger : Option Nat := none
  triggerDepth : Nat := 0
  deleted : Bool := false
  origin : AssignOrigin := {}
  deriving DecidableEq, Repr

/-- What a port of an action requires of its object (`facade_argport`). -/
structure ArgPort where
  action : Nat
  key : String
  compiledJsonpath : Option String
  deriving DecidableEq, Repr

/-- The rows that are locked here. -/
inductive Row
  | signal (id : Nat)
  | trigger (id : Nat)
  deriving DecidableEq, Repr

/-- What a transaction writes. -/
inductive Write
  | firing (row : FiringRow)
  /-- The bookkeeping of a trigger whose run was created. -/
  | fired (trigger : Nat)
  /-- The bookkeeping of a trigger whose run could not be created. -/
  | failed (trigger : Nat) (error : String)
  | processed (signal : Nat) (at' : Int)
  deriving DecidableEq, Repr

def Write.firing? : Write → Option FiringRow
  | .firing row => some row
  | .fired _ | .failed .. | .processed .. => none

/-- The firings of a list of writes. -/
def firingsIn (writes : List Write) : List FiringRow := writes.filterMap Write.firing?

structure Store where
  signals : List SignalRow := []
  triggers : List TriggerRow := []
  firings : List FiringRow := []
  tasks : List TaskRow := []
  ports : List ArgPort := []
  txs : Txs Row Write := []

structure Settings where
  triggerMaxDepth : Int := 3
  /-- `jsonb_path_match(descriptors, path) IS TRUE` -/
  pathMatch : String → String → Bool := fun _ _ => true

/-- A compiled path the descriptors match; none is always met. -/
def Settings.meets (settings : Settings) (descriptors : String) (path : Option String) : Bool :=
  path.all (settings.pathMatch descriptors)

/-! ## What is read -/

/-- A signal with its cause's depth. -/
structure Signal where
  id : Nat
  kind : SignalKind
  identifier : String
  object : String
  descriptors : String
  organization : Nat
  causingTask : Option Nat
  causingDepth : Option Nat
  deriving DecidableEq, Repr

/-- A trigger with whether a signal satisfies it. -/
structure Trigger where
  id : Nat
  row : TriggerRow
  /-- The signal's descriptors satisfy the trigger's own conditions, -/
  conditionsMet : Bool
  /-- and what the target port requires of its object. -/
  requiresMet : Bool
  deriving DecidableEq, Repr

namespace Store

/-- The row of a task that was not deleted. -/
def task? (s : Store) (x : Nat) : Option TaskRow := s.tasks[x]?.filter (!·.deleted)

/-- A task, or one below it in the tree; `n` bounds the way up. -/
def within (tasks : List TaskRow) : Nat → Nat → Nat → Bool
  | 0, y, x => y == x
  | n + 1, y, x => y == x || (tasks[y]?.bind (·.parent)).any fun p => within tasks n p x

def isBelow (s : Store) (y x : Nat) : Bool := within s.tasks s.tasks.length y x

def readSignal (s : Store) (id : Nat) (row : SignalRow) : Signal where
  id := id
  kind := row.kind
  identifier := row.identifier
  object := row.object
  descriptors := row.descriptors
  organization := row.organization
  causingTask := row.causingTask
  causingDepth := (row.causingTask.bind s.task?).map (·.triggerDepth)

/-- Whether an enabled trigger listens for a signal. -/
def listens (row : TriggerRow) (signal : Signal) : Bool :=
  row.rule.enabled && row.rule.kind == signal.kind &&
    row.rule.identifier == signal.identifier && row.organization == signal.organization

/-- A trigger's row, tested against a signal. -/
def readTrigger (settings : Settings) (s : Store) (signal : Signal) (id : Nat)
    (row : TriggerRow) : Trigger where
  id := id
  row := row
  conditionsMet := settings.meets signal.descriptors row.rule.compiledJsonpath
  requiresMet := settings.meets signal.descriptors
    ((s.ports.find? fun p => p.action == row.rule.action && p.key == row.rule.port).bind
      (·.compiledJsonpath))

/-- The row a transaction reads under its lock on the trigger. -/
def lockedTrigger (settings : Settings) (s : Store) (signal : Signal) (id : Nat) :
    Option Trigger :=
  (s.triggers[id]?.filter (listens · signal)).map (readTrigger settings s signal id)

/-- Whether a run of the trigger for this object lies within its window, another
signal's, at a transaction's `now()`. -/
def debounced (s : Store) (trigger : Trigger) (signal : Signal) (now : Int) : Bool :=
  trigger.row.rule.debounceSeconds.any fun (window : Nat) => s.firings.any fun f =>
    f.trigger == trigger.id && f.outcome == .fired &&
      s.signals[f.signal]?.any (·.object == signal.object) && f.signal != signal.id &&
      (now - window < f.createdAt : Bool)

end Store

/-- Whether a trigger stopped by itself: its end passed, or it created its last
allowed run. -/
def Trigger.ended (trigger : Trigger) (now : Int) : Bool :=
  trigger.row.rule.endsAt.any (· ≤ now : Int → Bool) ||
    trigger.row.rule.maxRuns.any (· ≤ trigger.row.runCount : Nat → Bool)

/-! ## What is written -/

namespace Store

def modifyTrigger (s : Store) (id : Nat) (f : TriggerRow → TriggerRow) : Store :=
  { s with triggers := s.triggers.modify id f }

def applyWrite (s : Store) : Write → Store
  | .firing row => { s with firings := s.firings ++ [row] }
  | .fired trigger => s.modifyTrigger trigger fun row => { row with
      consecutiveFailures := 0
      lastError := none
      runCount := row.runCount + 1 }
  | .failed trigger error => s.modifyTrigger trigger fun row => { row with
      consecutiveFailures := row.consecutiveFailures + 1
      lastError := some error }
  | .processed signal at' => { s with
      signals := s.signals.modify signal fun row => { row with processedAt := some at' } }

/-- The task of a firing is there when its transaction commits. -/
def refers (s : Store) : Write → Bool
  | .firing row => row.task.all fun x => (s.task? x).isSome
  | _ => true

/-- Commit a transaction, or roll it back where a firing's task is gone. -/
def commit (s : Store) (x : Nat) : Bool × Store :=
  match s.txs.open? x with
  | none => (false, s)
  | some tx =>
      if tx.writes.all s.refers then
        (true, { tx.writes.foldl applyWrite s with txs := s.txs.close x })
      else (false, { s with txs := s.txs.close x })

/-- Delete a task and everything below it; signals it caused and firings keep. -/
def deleteTask (s : Store) (x : Nat) : Store :=
  { s with
    signals := s.signals.map fun row =>
      { row with causingTask := row.causingTask.filter (!s.isBelow · x) }
    firings := s.firings.map fun row => { row with task := row.task.filter (!s.isBelow · x) }
    tasks := s.tasks.mapIdx fun y row =>
      if s.isBelow y x then { row with deleted := true } else row }

end Store

/-! ## Assigning -/

/-- What an assign asks for, as far as it is followed here. -/
structure AssignInput where
  caller : Nat
  reference : String
  action : Option Nat := none
  agent : Option Nat := none
  interface : Option String := none
  args : Args := []
  parent : Option Nat := none
  deriving DecidableEq, Repr

/-- The implementation an assign resolves to, or why there is none. -/
inductive Target
  | refused (reason : String)
  | plain (action agent : Nat) (interface : String)
  | wrapper (action agent : Nat) (interface : String)
      (lowerAction lowerAgent : Nat) (lowerInterface : String)
  deriving DecidableEq, Repr

/-- What the environment supplies: the clock, what an assign resolves to, and a
fresh reference for a wrapper's lower child. -/
structure Env where
  now : Int := 0
  target : Target := .plain 0 0 ""
  fresh : String := ""
  deriving DecidableEq, Repr

structure Assigned where
  task : Nat
  created : Bool
  deriving DecidableEq, Repr

/-- Whether a request names another target than a task has. -/
def anotherTarget (row : TaskRow) (input : AssignInput) : Bool :=
  input.action.any (row.action != ·) || input.agent.any (row.agent != ·) ||
    (Backend.named input.interface).any (row.interface != ·)

namespace Store

/-- The task of a caller's reference. -/
def named (s : Store) (caller : Nat) (reference : String) : Option Nat :=
  s.tasks.findIdx? fun row => !row.deleted && row.caller == caller && row.reference == reference

/-- A reference found again is the same assign only if it asks for the same
thing, with the same arguments. -/
def sameAssign (s : Store) (x : Nat) (input : AssignInput) : Except String Assigned :=
  match s.tasks[x]? with
  | none => .error "Task matching query does not exist."
  | some row =>
      if anotherTarget row input || row.args != input.args then
        .error ("Reference " ++ Backend.reprStr row.reference ++ " already names task " ++
          toString x ++ ", which was assigned " ++
          (if anotherTarget row input then "to something else" else "with other arguments") ++
          ". A reference names one assignment: use a new one for a new call.")
      else .ok { task := x, created := false }

/-- The row of an agent's task. -/
def plainTask (input : AssignInput) (origin : AssignOrigin) (action agent : Nat)
    (interface : String) : TaskRow where
  caller := input.caller
  reference := input.reference
  action := input.action.getD action
  agent := input.agent.getD agent
  interface := (Backend.named input.interface).getD interface
  args := input.args
  parent := input.parent
  signal := origin.signal
  trigger := origin.trigger
  triggerDepth := origin.triggerDepth
  origin := origin

/-- The row of a higher-order wrapper: it keeps nothing of its origin. -/
def wrapperTask (input : AssignInput) (origin : AssignOrigin) (action agent : Nat)
    (interface : String) : TaskRow where
  caller := input.caller
  reference := input.reference
  action := input.action.getD action
  agent := input.agent.getD agent
  interface := (Backend.named input.interface).getD interface
  args := input.args
  parent := input.parent
  origin := origin

/-- The child that runs a wrapper. -/
def lowerTask (input : AssignInput) (wrapper : Nat) (fresh : String) (action agent : Nat)
    (interface : String) : TaskRow where
  caller := input.caller
  reference := fresh
  action := action
  agent := agent
  interface := interface
  parent := some wrapper
  isHigherOrderChild := true

/-- `assign_with_status`, in a transaction of its own: a caller's reference names
one task. -/
def assignWithStatus (e : Env) (s : Store) (input : AssignInput) (origin : AssignOrigin) :
    Except String Assigned × Store :=
  match s.named input.caller input.reference with
  | some x => (s.sameAssign x input, s)
  | none =>
      if input.parent.any fun p => (s.task? p).isNone then
        (.error "Task matching query does not exist.", s)
      else
        match e.target with
        | .refused reason => (.error reason, s)
        | .plain action agent interface =>
            (.ok { task := s.tasks.length, created := true }, { s with
              tasks := s.tasks ++ [plainTask input origin action agent interface] })
        | .wrapper action agent interface lowerAction lowerAgent lowerInterface =>
            if e.fresh == input.reference || (s.named input.caller e.fresh).isSome then
              (.error "duplicate key value violates unique constraint", s)
            else (.ok { task := s.tasks.length, created := true }, { s with
              tasks := s.tasks ++ [wrapperTask input origin action agent interface,
                lowerTask input s.tasks.length e.fresh lowerAction lowerAgent
                  lowerInterface] })

end Store

/-! ## Statements -/

/-- One statement, or a transaction of its own. -/
inductive Op : Type 1
  | begin
  /-- An unprocessed signal, locked; none where another transaction has it. -/
  | claimSignal (tx signal : Nat)
  /-- The triggers that listen for a signal, as the statement that locks them
  finds them. -/
  | listening (tx : Nat) (signal : Signal)
  /-- Lock one of them, and read it again; none where it does not listen any more. -/
  | lockTrigger (tx : Nat) (signal : Signal) (trigger : Nat)
  /-- Whether a trigger has ended, by the application's clock. -/
  | ended (tx : Nat) (signal : Signal) (trigger : Trigger)
  | debounced (tx : Nat) (signal : Signal) (trigger : Trigger)
  /-- An assign, on another connection than the transaction it is made for. -/
  | assign (tx : Option Nat) (input : AssignInput) (origin : AssignOrigin)
  /-- `INSERT ... ON CONFLICT DO NOTHING`; whether the row was written. -/
  | insertFiring (tx : Nat) (row : NewFiring)
  | countFired (tx trigger : Nat)
  | countFailed (tx trigger : Nat) (error : String)
  | process (tx signal : Nat)
  | commit (tx : Nat)
  | rollback (tx : Nat)
  /-- A signal and a trigger, read for a replay. -/
  | readForReplay (tx organization signal : Nat)
  | lockForReplay (tx organization trigger : Nat)
  | pending (limit : Nat)
  | insertSignal (row : SignalRow)
  | insertTrigger (rule : Rule) (caller organization : Nat)
  | editTrigger (trigger : Nat) (rule : Rule)
  | setPorts (ports : List ArgPort)
  | deleteTask (task : Nat)

/-- What a statement answers. -/
@[reducible]
def Op.Res : Op → Type
  | .begin => Nat
  | .claimSignal .. | .readForReplay .. => Option Signal
  | .listening .. | .pending _ => List Nat
  | .lockTrigger .. | .lockForReplay .. => Option Trigger
  | .ended .. | .debounced .. | .insertFiring .. | .commit _ => Bool
  | .assign .. => Except String Assigned
  | .countFired .. | .countFailed .. | .process .. | .rollback _ | .insertSignal _
  | .insertTrigger .. | .editTrigger .. | .setPorts _ | .deleteTask _ => Unit

abbrev Program := Prog Op.Res

namespace Store

/-- A transaction writes. -/
def write (s : Store) (x : Nat) (w : Write) : Store := { s with txs := s.txs.write x w }

/-- The firings an open transaction wrote. -/
def firingsOf (s : Store) (x : Nat) : List FiringRow :=
  firingsIn (((s.txs.open? x).map (·.writes)).getD [])

/-- A signal as it arrives; a cause that is gone is none. -/
def announced (s : Store) (row : SignalRow) : SignalRow :=
  let cause := row.causingTask.filter fun x => (s.task? x).isSome
  { row with causingTask := cause, processedAt := none, cause }

/-- Insert a firing, unless one is there already.  `created_at` is a reading of
the database's clock no earlier than the transaction's start. -/
def insertFiring (e : Env) (s : Store) (x : Nat) (row : NewFiring) : Bool × Store :=
  if (s.firings ++ s.firingsOf x).any fun f => f.toNewFiring.clashes row then (false, s)
  else
    let started := ((s.txs.open? x).map (·.started)).getD e.now
    (true, s.write x (.firing { row with createdAt := max started e.now }))

end Store

/-- What a statement answers and the tables it leaves. -/
def Op.exec (settings : Settings) (e : Env) : (op : Op) → Store → op.Res × Store
  | .begin, s => ((s.txs.start e.now).1, { s with txs := (s.txs.start e.now).2 })
  | .claimSignal x id, s =>
      match s.signals[id]?.filter (·.processedAt.isNone) with
      | none => (none, s)
      | some row =>
          if s.txs.lockedByOther x (.signal id) then (none, s)
          else (some (s.readSignal id row), { s with txs := s.txs.lock x (.signal id) })
  | .listening _ signal, s =>
      ((List.range s.triggers.length).filter fun id =>
        s.triggers[id]?.any (Store.listens · signal), s)
  | .lockTrigger x signal id, s =>
      (s.lockedTrigger settings signal id, { s with txs := s.txs.lock x (.trigger id) })
  | .ended _ _ trigger, s => (trigger.ended e.now, s)
  | .debounced x signal trigger, s =>
      (s.debounced trigger signal (((s.txs.open? x).map (·.started)).getD e.now), s)
  | .assign _ input origin, s => s.assignWithStatus e input origin
  | .insertFiring x row, s => s.insertFiring e x row
  | .countFired x trigger, s => ((), s.write x (.fired trigger))
  | .countFailed x trigger error, s => ((), s.write x (.failed trigger error))
  | .process x signal, s =>
      ((), s.write x (.processed signal (((s.txs.open? x).map (·.started)).getD e.now)))
  | .commit x, s => s.commit x
  | .rollback x, s => ((), { s with txs := s.txs.close x })
  | .readForReplay _ organization id, s =>
      ((s.signals[id]?.filter (·.organization == organization)).map fun row =>
        s.readSignal id { row with causingTask := none }, s)
  | .lockForReplay x organization id, s =>
      match s.triggers[id]?.filter (·.organization == organization) with
      | none => (none, s)
      | some row =>
          (some { id, row, conditionsMet := true, requiresMet := true },
            { s with txs := s.txs.lock x (.trigger id) })
  | .pending limit, s =>
      (((List.range s.signals.length).filter fun id =>
        s.signals[id]?.any (·.processedAt.isNone)).take limit, s)
  | .insertSignal row, s => ((), { s with signals := s.signals ++ [s.announced row] })
  | .insertTrigger rule caller organization, s =>
      ((), { s with triggers := s.triggers ++ [{ rule, caller, organization }] })
  | .editTrigger id rule, s => ((), s.modifyTrigger id fun row => { row with rule })
  | .setPorts ports, s => ((), { s with ports })
  | .deleteTask x, s => ((), s.deleteTask x)

/-- What waits: a row another transaction holds or is about to insert, and a
transaction that has ended. -/
def Op.blocked : Op → Store → Bool
  | .claimSignal x _, s | .listening x _, s | .ended x _ _, s | .debounced x _ _, s
  | .countFired x _, s | .countFailed x _ _, s | .process x _, s | .commit x, s
  | .readForReplay x _ _, s => (s.txs.open? x).isNone
  | .lockTrigger x _ id, s | .lockForReplay x _ id, s =>
      (s.txs.open? x).isNone || s.txs.lockedByOther x (.trigger id)
  | .insertFiring x row, s =>
      (s.txs.open? x).isNone || (List.range s.txs.length).any fun y =>
        y != x && (s.firingsOf y).any fun f => f.toNewFiring.clashes row
  | .editTrigger id _, s => s.txs.locked (.trigger id)
  | .deleteTask x, s => (List.range s.signals.length).any fun id =>
      s.signals[id]?.any (fun row => row.causingTask.any (s.isBelow · x)) &&
        s.txs.locked (.signal id)
  | .begin, _ | .assign .., _ | .rollback _, _ | .pending _, _ | .insertSignal _, _
  | .insertTrigger .., _ | .setPorts _, _ => false

def run (op : Op) : Program op.Res := Prog.perform op

end Rekuest.Triggers
