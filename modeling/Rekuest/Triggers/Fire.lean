import Rekuest.Backend.Target
import Rekuest.Triggers.Store

/-!
# Matching signals to triggers and firing them

`triggers.rs`: a claimed signal is tried on every trigger that listens for it,
each under its row lock, and what became of it is logged.  Beside the sweeps run
replays, the intake of signals, the owners' edits, the assigns of people and
agents, and deletions; a transaction may be rolled back under its call.
-/

namespace Rekuest.Triggers

open Concurrent

/-! ## One trigger -/

/-- Set a key of a JSON object, which is kept by its keys in order. -/
def insertArg (key : String) (value : ArgValue) : Args → Args
  | [] => [(key, value)]
  | (key', value') :: rest =>
      if key < key' then (key, value) :: (key', value') :: rest
      else if key = key' then (key, value) :: rest
      else (key', value') :: insertArg key value rest

/-- The assign of a trigger's run for a signal. -/
def Trigger.assignInput (trigger : Trigger) (signal : Signal) (reference : String) :
    AssignInput where
  caller := trigger.row.caller
  reference := reference
  action := if trigger.row.rule.agent.isNone then some trigger.row.rule.action else none
  agent := trigger.row.rule.agent
  interface := if trigger.row.rule.agent.isNone then none else trigger.row.rule.interface
  args := insertArg trigger.row.rule.port (.object signal.identifier signal.object)
    trigger.row.rule.args
  parent := signal.causingTask

/-- The reference of the run of a trigger for a signal. -/
def runReference (trigger signal : Nat) : String :=
  "trigger:" ++ toString trigger ++ ":" ++ toString signal

def replayReference (trigger signal : Nat) (fresh : String) : String :=
  runReference trigger signal ++ ":replay:" ++ fresh

/-- Create the run for a signal as the trigger's owner. -/
def Trigger.assign (tx : Nat) (trigger : Trigger) (signal : Signal) (reference : String)
    (depth : Nat) (replay : Bool) : Program (Except String Assigned) :=
  run (.assign (some tx) (trigger.assignInput signal reference)
    { signal := some signal.id, trigger := some trigger.id, triggerDepth := depth, replay })

/-- What became of one trigger for one signal. -/
inductive Outcome
  | fired (task : Nat)
  /-- The trigger did not apply: nothing is wrong with it. -/
  | rejected (reason : String)
  /-- The trigger applied and its run could not be created. -/
  | failed (reason : String)
  deriving DecidableEq, Repr

def Outcome.column : Outcome → FiringOutcome
  | .fired _ => .fired
  | .rejected _ => .rejected
  | .failed _ => .failed

def Outcome.task : Outcome → Option Nat
  | .fired task => some task
  | .rejected _ | .failed _ => none

def Outcome.reason : Outcome → Option String
  | .fired _ => none
  | .rejected reason | .failed reason => some reason

/-- The reason a firing's row keeps. -/
def Outcome.logged (outcome : Outcome) (replay : Bool) : Option String :=
  match replay, outcome.reason with
  | true, none => some "Replayed by hand"
  | true, some reason => some ("Replayed by hand: " ++ reason)
  | false, reason => reason

/-- The row of a firing. -/
def Outcome.firing (outcome : Outcome) (signal trigger : Nat) (replay : Bool) : NewFiring where
  signal := signal
  trigger := trigger
  outcome := outcome.column
  reason := outcome.logged replay
  task := outcome.task
  replay := replay

/-- Write the firing row, and the trigger's bookkeeping for it.  True when the
trigger's row changed. -/
def log (tx signal trigger : Nat) (outcome : Outcome) (replay : Bool) : Program Bool := do
  let written : Bool ← run (.insertFiring tx (outcome.firing signal trigger replay))
  if !written then return false
  match outcome with
  | .rejected _ => return false
  | .fired _ =>
      run (.countFired tx trigger)
      return true
  | .failed error =>
      run (.countFailed tx trigger
        ("Could not run for signal " ++ toString signal ++ ": " ++ error))
      return true

/-- What becomes of a locked trigger. -/
def outcomeOf (settings : Settings) (tx : Nat) (signal : Signal) (depth : Nat)
    (trigger : Trigger) : Program Outcome := do
  if !trigger.conditionsMet then
    return .rejected "The signal does not satisfy the trigger\x27s conditions"
  if !trigger.requiresMet then
    return .rejected ("The signal does not satisfy what the action\x27s port " ++
      Backend.debugStr trigger.row.rule.port ++ " requires")
  let ended : Bool ← run (.ended tx signal trigger)
  if ended then return .rejected "The trigger has ended"
  -- not the signal's fault and not quite the trigger's
  if settings.triggerMaxDepth < depth then
    return .failed (toString depth ++ " triggers deep (limit " ++
      toString settings.triggerMaxDepth ++ ") — a trigger loop?")
  let debounced : Bool ← run (.debounced tx signal trigger)
  if debounced then
    return .rejected ("Debounced: it already fired for this object within " ++
      toString (trigger.row.rule.debounceSeconds.getD 0) ++ " s")
  let assigned ← trigger.assign tx signal (runReference trigger.id signal.id) depth false
  match assigned with
  | .ok assigned => return .fired assigned.task
  | .error error => return .failed error

/-- Try one locked trigger, and log what became of it. -/
def fireTrigger (settings : Settings) (tx : Nat) (signal : Signal) (depth : Nat)
    (trigger : Trigger) : Program Unit := do
  let outcome ← outcomeOf settings tx signal depth trigger
  let _ ← log tx signal.id trigger.id outcome false

/-- Lock the triggers found one after the other, by id. -/
def lockTriggers (tx : Nat) (signal : Signal) : List Nat → Program (List Trigger)
  | [] => return []
  | id :: rest => do
      let found : Option Trigger ← run (.lockTrigger tx signal id)
      let others ← lockTriggers tx signal rest
      return found.toList ++ others

/-- How deep in a chain of triggers the runs of a signal are. -/
def Signal.depth (signal : Signal) : Nat := signal.causingDepth.elim 1 (· + 1)

/-- Match and fire one unprocessed signal. -/
def fireOne (settings : Settings) (id : Nat) : Program Unit := do
  let tx : Nat ← run .begin
  let claimed : Option Signal ← run (.claimSignal tx id)
  match claimed with
  | none => run (.rollback tx)
  | some signal =>
      let ids : List Nat ← run (.listening tx signal)
      let triggers ← lockTriggers tx signal ids
      Prog.forEach triggers (fireTrigger settings tx signal signal.depth)
      run (.process tx signal.id)
      let _ : Bool ← run (.commit tx)

/-- One pass over the unprocessed signals, oldest first. -/
def fireTriggers (settings : Settings) (limit : Nat) : Program Unit := do
  let pending : List Nat ← run (.pending limit)
  Prog.forEach pending (fireOne settings)

/-- Fire a trigger on a stored signal by hand: whatever the signal and the
policies say, as a root run of the trigger's owner. -/
def replay (organization trigger signal : Nat) (fresh : String) : Program Unit := do
  let tx : Nat ← run .begin
  let found : Option Signal ← run (.readForReplay tx organization signal)
  match found with
  | none => run (.rollback tx)
  | some signal =>
      let found : Option Trigger ← run (.lockForReplay tx organization trigger)
      match found with
      | none => run (.rollback tx)
      | some trigger =>
          let assigned ← trigger.assign tx signal (replayReference trigger.id signal.id fresh)
            1 true
          let outcome : Outcome := match assigned with
            | .ok assigned => .fired assigned.task
            | .error error => .failed error
          let _ ← log tx signal.id trigger.id outcome true
          let _ : Bool ← run (.commit tx)

/-! ## Requests -/

/-- What starts a call. -/
inductive Request
  | fireTriggers (limit : Nat)
  | fireOne (signal : Nat)
  | replay (organization trigger signal : Nat) (fresh : String)
  /-- A service announces a signal. -/
  | intake (signal : SignalRow)
  | createTrigger (rule : Rule) (caller organization : Nat)
  | editTrigger (trigger : Nat) (rule : Rule)
  /-- An action is registered with other ports. -/
  | setPorts (ports : List ArgPort)
  /-- A person's assign, or an agent's for a child of one of its tasks. -/
  | assign (input : AssignInput)
  | deleteTask (task : Nat)
  /-- The connection of a transaction is lost. -/
  | abort (tx : Nat)

/-- The program of a request. -/
def Request.handler (settings : Settings) : Request → Program Unit
  | .fireTriggers limit => Triggers.fireTriggers settings limit
  | .fireOne signal => Triggers.fireOne settings signal
  | .replay organization trigger signal fresh =>
      Triggers.replay organization trigger signal fresh
  | .intake signal => run (.insertSignal signal)
  | .createTrigger rule caller organization => run (.insertTrigger rule caller organization)
  | .editTrigger trigger rule => run (.editTrigger trigger rule)
  | .setPorts ports => run (.setPorts ports)
  | .assign input => do
      let _ : Except String Assigned ← run (.assign none input {})
  | .deleteTask task => run (.deleteTask task)
  | .abort tx => run (.rollback tx)

def machine (settings : Settings) : Machine Env Request Store Op.Res where
  exec := Op.exec settings
  handler := Request.handler settings

/-- The tables and the calls under way. -/
abbrev TriggersConfig := Config Store Op.Res

/-- Any number of replicas on one database. -/
abbrev replicas (settings : Settings) : System TriggersConfig (Choice Env Request) :=
  (machine settings).waiting Op.blocked

/-- No signal came yet, and nothing was assigned. -/
structure Initial (c : TriggersConfig) : Prop where
  signals : c.state.signals = []
  triggers : c.state.triggers = []
  firings : c.state.firings = []
  tasks : c.state.tasks = []
  txs : c.state.txs = []
  idle : c.threads = []

end Rekuest.Triggers
