import Mathlib.Logic.Function.Basic
import Rekuest.Concurrent.Pool
import Rekuest.Task.Row

/-!
# The probes' state

`probes/store.rs`: a probe lives in redis alone, as a hash, with an index under
its agent and a counter of its caller's probes in flight.  Every redis command,
and every `MULTI` of several, is one operation here; between two of them any
other handler may run, or a key expire.  A probe's id is a fresh uuid, here its
place in the list of all probes there ever were.
-/

namespace Rekuest.Probes

open Concurrent

/-- Who fired a probe: a person, or an agent over its socket. -/
inductive Origin
  | graphql | agent
  deriving DecidableEq, Repr

/-- A probe's hash.  A field is missing where an expired probe was written to. -/
structure ProbeHash where
  agent : Option Nat := none
  caller : Option Nat := none
  origin : Option Origin := none
  kind : TaskEventKind := .queued
  seq : Int := 0
  done : Option TaskEventKind := none
  lastReturns : Option String := none
  err : Option String := none
  deriving DecidableEq, Repr

/-- What a probe is created with. -/
structure NewProbe where
  agent : Nat
  caller : Nat
  origin : Origin
  deriving DecidableEq, Repr

def NewProbe.hash (new : NewProbe) : ProbeHash where
  agent := some new.agent
  caller := some new.caller
  origin := some new.origin

/-- An event's fields besides its probe, kind and seq. -/
structure ProbeEvent where
  message : Option String := none
  progress : Option Int := none
  returns : Option String := none
  level : Option String := none
  deriving DecidableEq, Repr

/-- A broadcast event: whom it reaches is told by the caller and the origin. -/
structure Broadcast where
  probe : Nat
  kind : TaskEventKind
  seq : Int
  event : ProbeEvent
  caller : Option Nat
  origin : Origin
  deriving DecidableEq, Repr

/-- The probes' part of redis, and the events that were broadcast.  `fresh` and
`sentTo` are no keys: the ids from `fresh` on name no probe yet, and `sentTo`
keeps which agent each probe was created for. -/
structure Redis where
  probes : Nat → Option ProbeHash := fun _ => none
  fresh : Nat := 0
  sentTo : Nat → Option Nat := fun _ => none
  index : List (Nat × Nat) := []
  inflight : Nat → Int := fun _ => 0
  events : List Broadcast := []

/-- The frames a probe's agent is sent. -/
inductive ToProbe
  | assign (probe : Nat)
  | cancel (probe : Nat)
  | pause (probe : Nat)
  | resume (probe : Nat) (step : Bool)
  deriving DecidableEq, Repr

/-- What the environment supplies: whether provenance mints a token, and what
the agent's transport answers, `none` for an error. -/
structure Env where
  mints : Bool := true
  delivery : Option Bool := some true
  deriving DecidableEq, Repr

/-- One redis command or transaction, or another effect of a handler. -/
inductive Command : Type 1
  | incr (caller : Nat)
  | decr (caller : Nat)
  | mint
  /-- Write the hash of a new probe and index it under its agent. -/
  | create (new : NewProbe)
  /-- Hand a frame to the agent's transport, ahead of its queued backlog. -/
  | deliver (agent : Nat) (frame : ToProbe)
  | hgetall (probe : Nat)
  | hgetDone (probe : Nat)
  /-- `EXISTS` -/
  | isKey (probe : Nat)
  /-- The transaction of `record_nonterminal`. -/
  | record (probe : Nat) (kind : TaskEventKind) (returns : Option String)
  /-- `HSETNX done` -/
  | hsetnxDone (probe : Nat) (kind : TaskEventKind)
  /-- The transaction of `claim_terminal`. -/
  | finish (probe : Nat) (kind : TaskEventKind) (error : Option String)
  | srem (agent : Option Nat) (probes : List Nat)
  | smembers (agent : Nat)
  | publish (event : Broadcast)
  | expireProbe (probe : Nat)
  | expireSlots (caller : Nat)

/-- What a command answers. -/
@[reducible]
def Command.Res : Command → Type
  | .incr _ => Int
  | .mint | .isKey _ | .hsetnxDone .. => Bool
  | .create _ => Nat
  | .deliver .. => Option Bool
  | .hgetall _ => Option ProbeHash
  | .hgetDone _ => Option TaskEventKind
  | .record .. => Int × Option Nat × Origin
  | .finish .. => Int × ProbeHash
  | .smembers _ => List Nat
  | .decr _ | .srem .. | .publish _ | .expireProbe _ | .expireSlots _ => Unit

abbrev Program := Prog Command.Res

namespace Redis

/-- Write to a probe's key. -/
def set (r : Redis) (probe : Nat) (h : Option ProbeHash) : Redis :=
  { r with probes := Function.update r.probes probe h }

/-- Write to a probe's hash; a missing key begins with no fields. -/
def write (r : Redis) (probe : Nat) (f : ProbeHash → ProbeHash) : Redis :=
  r.set probe (some (f ((r.probes probe).getD {})))

theorem write_self (r : Redis) (probe : Nat) (f : ProbeHash → ProbeHash) :
    (r.write probe f).probes probe = some (f ((r.probes probe).getD {})) :=
  Function.update_self probe _ r.probes

theorem write_ne (r : Redis) {probe other : Nat} (f : ProbeHash → ProbeHash) (h : other ≠ probe) :
    (r.write probe f).probes other = r.probes other :=
  Function.update_of_ne h _ r.probes

def addSlots (r : Redis) (caller : Nat) (n : Int) : Redis :=
  { r with inflight := Function.update r.inflight caller (r.inflight caller + n) }

end Redis

/-- What a command answers and the state it leaves. -/
def Command.exec (e : Env) : (op : Command) → Redis → op.Res × Redis
  | .incr caller, r => (r.inflight caller + 1, r.addSlots caller 1)
  | .decr caller, r => ((), r.addSlots caller (-1))
  | .mint, r => (e.mints, r)
  | .create new, r => (r.fresh, { r.set r.fresh (some new.hash) with
      fresh := r.fresh + 1
      sentTo := Function.update r.sentTo r.fresh (some new.agent)
      index := r.index ++ [(new.agent, r.fresh)] })
  | .deliver .., r => (e.delivery, r)
  | .hgetall probe, r => (r.probes probe, r)
  | .hgetDone probe, r => ((r.probes probe).bind (·.done), r)
  | .isKey probe, r => ((r.probes probe).isSome, r)
  | .record probe kind returns, r =>
      let h := (r.probes probe).getD {}
      ((h.seq + 1, h.caller, h.origin.getD .graphql), r.write probe fun h => { h with
        seq := h.seq + 1
        kind
        lastReturns := returns <|> h.lastReturns })
  | .hsetnxDone probe kind, r =>
      if ((r.probes probe).bind (·.done)).isSome then (false, r)
      else (true, r.write probe fun h => { h with done := some kind })
  | .finish probe kind error, r =>
      let finished (h : ProbeHash) : ProbeHash :=
        { h with seq := h.seq + 1, kind, err := error <|> h.err }
      let h := finished ((r.probes probe).getD {})
      ((h.seq, h), r.write probe finished)
  | .srem agent probes, r => ((), { r with
      index := r.index.filter fun (a, p) => !(agent == some a && probes.contains p) })
  | .smembers agent, r =>
      (((r.index.filter (·.1 == agent)).map (·.2)).mergeSort, r)
  | .publish event, r => ((), { r with events := r.events ++ [event] })
  | .expireProbe probe, r => ((), r.set probe none)
  | .expireSlots caller, r =>
      ((), { r with inflight := Function.update r.inflight caller 0 })

def run (op : Command) : Program op.Res := Prog.perform op

/-! ## The functions of the store -/

/-- Take one in-flight slot for the caller, or refuse at the cap. -/
def tryAcquireSlot (maxInflight : Int) (caller : Nat) : Program Bool := do
  let count : Int ← run (.incr caller)
  if maxInflight < count then
    run (.decr caller)
    return false
  else return true

/-- Give the slot back when a create failed after acquiring it. -/
def releaseSlot (caller : Nat) : Program Unit := run (.decr caller)

/-- Record a non-terminal event, or `none` for an unknown, expired or already
finished probe. -/
def recordNonterminal (probe : Nat) (kind : TaskEventKind) (returns : Option String) :
    Program (Option (Int × Option Nat × Origin)) := do
  let done : Option TaskEventKind ← run (.hgetDone probe)
  if done.isSome then return none
  let found : Bool ← run (.isKey probe)
  if !found then return none
  let recorded : Int × Option Nat × Origin ← run (.record probe kind returns)
  return some recorded

/-- Claim the terminal transition: the state for the one winner, `none` for a
resent terminal report and for an unknown or expired probe. -/
def claimTerminal (probe : Nat) (kind : TaskEventKind) (error : Option String) :
    Program (Option (Int × ProbeHash)) := do
  let found : Bool ← run (.isKey probe)
  if !found then return none
  let won : Bool ← run (.hsetnxDone probe kind)
  if !won then return none
  let (seq, state) : Int × ProbeHash ← run (.finish probe kind error)
  run (.srem state.agent [probe])
  if let some caller := state.caller then
    run (.decr caller)
  return some (seq, state)

/-- The live probes of an agent, sorted. -/
def liveCallsForAgent (agent : Nat) : Program (List Nat) := run (.smembers agent)

/-- Remove exactly these ids from the agent's index. -/
def forgetAgentCalls (agent : Nat) (probes : List Nat) : Program Unit :=
  if probes.isEmpty then return else run (.srem (some agent) probes)

end Rekuest.Probes

/-!
## The probes' handlers

`probes/backend.rs`, `probes/persist.rs` and `route_probe`: a caller fires a
probe and controls it, its agent reports on it, and a dead agent's probes end at
once.
-/

namespace Rekuest.Probes

open Concurrent

/-- Whether a probe's events reach an agent's socket too is told by the origin;
a missing one reads as `graphql`. -/
def ProbeHash.firedBy (h : ProbeHash) : Origin := h.origin.getD .graphql

/-! ## Events of agents -/

/-- A non-terminal report: recorded and published; dropped for an unknown,
expired or finished probe. -/
def nonterminal (probe : Nat) (kind : TaskEventKind) (event : ProbeEvent) : Program Unit := do
  match ← recordNonterminal probe kind event.returns with
  | none => return
  | some (seq, caller, origin) => run (.publish { probe, kind, seq, event, caller, origin })

/-- A terminal report: only the claim's winner publishes. -/
def terminal (probe : Nat) (kind : TaskEventKind) (error : Option String) : Program Unit := do
  match ← claimTerminal probe kind error with
  | none => return
  | some (seq, state) => run (.publish {
      probe, kind, seq
      event := { message := error }
      caller := state.caller
      origin := state.firedBy })

/-- What an agent's frame says about the probe it names. -/
inductive ProbeReport
  | started | paused | resumed
  | cancelled | interrupted | completed
  | failed (error : String)
  | critical (error : String)
  | yield (returns : String)
  | log (message : String) (level : Option String)
  | progress (progress : Option Int) (message : Option String)
  /-- `CANCEL_REQUEST`, `INTERRUPT_REQUEST`, `PAUSE_REQUEST`, `RESUME_REQUEST` -/
  | controlRequest
  | lock (key : String)
  | effect
  /-- Any other frame that names a task, with its kind. -/
  | other (kind : String)
  deriving DecidableEq, Repr

/-- What the agent gets back. -/
inductive Routed
  | handled
  /-- A `CONTROL_RESPONSE` that does not accept. -/
  | notAccepted (error : String)
  | refused (reason : String)
  deriving DecidableEq, Repr

/-- A frame of a probe.  The agent whose connection it came on is not looked
at. -/
def routeProbe (_agent : Nat) (task : Nat) (report : ProbeReport) : Program Routed :=
  let handled (p : Program Unit) : Program Routed := p.bind fun _ => .ret .handled
  match report with
  | .started => handled (nonterminal task .started {})
  | .paused => handled (nonterminal task .paused {})
  | .resumed => handled (nonterminal task .resumed {})
  | .cancelled => handled (terminal task .cancelled none)
  | .interrupted => handled (terminal task .interrupted none)
  | .completed => handled (terminal task .completed none)
  | .failed error => handled (terminal task .failed (some error))
  | .critical error => handled (terminal task .critical (some error))
  | .yield returns => handled (nonterminal task .yield { returns := some returns })
  | .log message level => handled (nonterminal task .log { message := some message, level })
  | .progress progress message =>
      handled (nonterminal task .progress { progress, message })
  | .controlRequest => .ret (.notAccepted
      "Probes are controlled by their caller via GraphQL, not from an agent connection.")
  | .lock _ | .effect => .ret .handled
  | .other kind => .ret (.refused (kind ++ ": not a message a probe sends"))

/-- `CRITICAL` for every live probe of a dead agent. -/
def failAllForAgent (agent : Nat) : Program Unit := do
  let probes : List Nat ← liveCallsForAgent agent
  Prog.forEach probes fun probe => terminal probe .critical (some "Agent disconnected")
  forgetAgentCalls agent probes

/-! ## Callers -/

/-- The implementation a probe's input resolves to, as far as it is looked at. -/
structure ProbeTarget where
  actionName : String
  allowProbe : Bool
  isHigherOrder : Bool
  hasDependencies : Bool
  agent : Nat
  deriving DecidableEq, Repr

/-- What a probe cannot target. -/
def targetRefusal (target : ProbeTarget) : Option String :=
  if !target.allowProbe then
    some ("Action " ++ target.actionName ++
      " does not allow probes — its author must declare allow_probe. Use assign.")
  else if target.isHigherOrder then
    some "Probes cannot target higher-order implementations — their orchestration needs persisted tasks. Use assign."
  else if target.hasDependencies then
    some "Probes cannot target implementations with dependencies — sub-assignment needs a parent task. Use assign."
  else none

/-- Create and dispatch a probe: its id, or the refusal.  `target` is what the
input resolves to. -/
def probe (maxInflight : Int) (caller : Nat) (target : Except String ProbeTarget)
    (origin : Origin) : Program (Except String Nat) := do
  match target with
  | .error refusal => return .error refusal
  | .ok target =>
      if let some refusal := targetRefusal target then return .error refusal
      let acquired ← tryAcquireSlot maxInflight caller
      if !acquired then
        return .error "Too many in-flight probes for this caller — cancel or await some, or raise PROBE_MAX_INFLIGHT_PER_CALLER."
      let minted : Bool ← run .mint
      if !minted then
        releaseSlot caller
        return .error "provenance refused"
      let id : Nat ← run (.create { agent := target.agent, caller, origin })
      let delivery : Option Bool ← run (.deliver target.agent (.assign id))
      match delivery with
      | some _ => return .ok id
      | none =>
          releaseSlot caller
          return .error "the delivery failed"

/-- A probe control. -/
inductive ProbeControl
  | cancel | pause | resume
  deriving DecidableEq, Repr

/-- Its `-ING` kind. -/
def ProbeControl.inging : ProbeControl → TaskEventKind
  | .cancel => .cancelling
  | .pause => .pausing
  | .resume => .resuming

/-- Its frame. -/
def ProbeControl.frame (probe : Nat) : ProbeControl → ToProbe
  | .cancel => .cancel probe
  | .pause => .pause probe
  | .resume => .resume probe false

/-- The verb its refusal names. -/
def ProbeControl.verb : ProbeControl → String
  | .cancel => "cancel"
  | .pause => "pause"
  | .resume => "resume"

/-- The request phase of a probe control: the probe's state, or the refusal. -/
def control (caller probe : Nat) (control : ProbeControl) : Program (Except String ProbeHash) := do
  let state : Option ProbeHash ← run (.hgetall probe)
  match state with
  | none => return .error ("Unknown or expired probe " ++ toString probe)
  | some state =>
      if state.caller ≠ some caller then
        return .error ("Not authorized to " ++ control.verb ++ " this probe (not its caller).")
      if state.done.isSome then return .ok state
      nonterminal probe control.inging {}
      let delivery : Option Bool ←
        run (.deliver (state.agent.getD 0) (control.frame probe))
      match delivery with
      | none => return .error "the delivery failed"
      | some _ =>
          let later : Option ProbeHash ← run (.hgetall probe)
          return .ok (later.getD state)

/-! ## The machine -/

/-- What starts a thread.  The last two are the keys' expiry. -/
inductive Request
  | probe (caller : Nat) (target : Except String ProbeTarget) (origin : Origin)
  | control (caller probe : Nat) (control : ProbeControl)
  | frame (agent probe : Nat) (report : ProbeReport)
  | failAll (agent : Nat)
  | expireProbe (probe : Nat)
  | expireSlots (caller : Nat)

def Request.handler (maxInflight : Int) : Request → Program Unit
  | .probe caller target origin => do
      let _ ← Probes.probe maxInflight caller target origin
  | .control caller task kind => do
      let _ ← Probes.control caller task kind
  | .frame agent task report => do
      let _ ← routeProbe agent task report
  | .failAll agent => failAllForAgent agent
  | .expireProbe task => run (.expireProbe task)
  | .expireSlots caller => run (.expireSlots caller)

/-- Every handler of the probes on one redis. -/
def machine (maxInflight : Int) : Machine Env Request Redis Command.Res where
  exec := Command.exec
  handler := Request.handler maxInflight

abbrev ProbesConfig := Config Redis Command.Res

/-! ## A small site -/

/-- A probe of caller 7 for agent 0. -/
def demoTarget : ProbeTarget where
  actionName := "snap"
  allowProbe := true
  isHigherOrder := false
  hasDependencies := false
  agent := 0

end Rekuest.Probes
