import Mathlib.Algebra.Ring.Int.Defs
import Mathlib.Algebra.Ring.Nat
import Rekuest.Backend.Registry
import Rekuest.Documents.Pointer
import Rekuest.Server.Runs

/-!
# An agent's reported state

`persist/state.rs`: the patches and snapshots an agent reports of its states,
and the sessions they belong to.  None of it touches a task; a patch is linked
to the task that made it.  Patches and snapshots are kept here in one log, in
the order their rows were inserted; each table is a part of it.
-/

namespace Rekuest.States

open Concurrent Documents

/-- A JSON value that holds no other. -/
inductive Scalar
  | null
  | bool (b : Bool)
  | number (n : Int)
  | string (s : String)
  deriving DecidableEq, Repr

/-- A JSON value. -/
abbrev Json := Doc (List Char) Scalar

/-- A `facade_state` row. -/
structure StateRow where
  agent : Nat
  interface : String
  key : String := ""
  deriving DecidableEq, Repr

/-- A `facade_session` row, one for each session of an agent. -/
structure SessionRow where
  agent : Nat
  sessionId : Nat
  deriving DecidableEq, Repr

/-- A `facade_patch` row.  `rev` is the revision as the agent counts it. -/
structure PatchRow where
  state : Nat
  agent : Nat
  session : Nat
  interface : String
  op : String
  path : String
  value : Json
  task : Option Nat
  rev : Nat
  agentPos : Option Int
  step : Option Int

/-- A `facade_snapshot` row. -/
structure SnapshotRow where
  session : Nat
  state : Nat
  agent : Nat
  value : Json
  rev : Nat

/-- `global_rev as i32`: a revision's last 32 bits, as the columns keep it. -/
def globalRev (rev : Nat) : Int := (rev : Int).bmod (2 ^ 32)

/-- A row of one of the two tables. -/
inductive Entry
  | patch (row : PatchRow)
  | snapshot (row : SnapshotRow)

def Entry.patch? : Entry → Option PatchRow
  | .patch row => some row
  | .snapshot _ => none

def Entry.snapshot? : Entry → Option SnapshotRow
  | .patch _ => none
  | .snapshot row => some row

/-- The tables of the agents' states. -/
structure Store where
  states : List StateRow := []
  sessions : List SessionRow := []
  log : List Entry := []

namespace Store

def patches (store : Store) : List PatchRow := store.log.filterMap Entry.patch?

def snapshots (store : Store) : List SnapshotRow := store.log.filterMap Entry.snapshot?

end Store

/-- How a frame is numbered in its session. -/
structure Numbering where
  pos : Option Int := none
  journalSession : Option Nat := none
  taskStep : Option Int := none
  deriving DecidableEq, Repr

/-- Whether a frame carries a session position. -/
def Numbering.isNumbered (n : Numbering) : Bool := n.pos.isSome && n.journalSession.isSome

/-- One operation on a state, as the agent reports it. -/
structure StatePatch where
  sessionId : Nat
  globalRev : Nat
  stateName : String
  op : String
  path : String
  value : Json
  taskId : Option String := none
  numbering : Numbering := {}

/-- The frames of an agent that report its states.  A `SESSION_INIT` sets them
up at revision 0. -/
inductive StateFrame
  | patch (frame : StatePatch)
  | snapshot (sessionId globalRev : Nat) (snapshots : List (String × Json))
  | sessionInit (sessionId : Nat) (states : List (String × Json))

/-- The id of the agent's state of a name, or the refusal. -/
def stateId (store : Store) (agent : Nat) (interface : String) : Except String Nat :=
  match store.states.findIdx? fun s => s.agent == agent && s.interface == interface with
  | some id => .ok id
  | none => .error ("State matching query does not exist: " ++ interface)

/-- The session row of an agent, created if it does not exist. -/
def getOrCreateSession (store : Store) (agent sessionId : Nat) : Nat × Store :=
  match store.sessions.findIdx? (· == { agent, sessionId }) with
  | some id => (id, store)
  | none => (store.sessions.length,
      { store with sessions := store.sessions ++ [{ agent, sessionId }] })

/-- The ids of probes start with it (`PROBE_PREFIX`). -/
def isProbeTask (task : String) : Bool := ['p', '-'].isPrefixOf task.toList

/-- The task a patch is linked to: the one it names, if that is the agent's. -/
def linkedTask (db : Db) (agent : Nat) (taskId : Option String) : Option Nat := do
  let id ← (taskId.filter (!isProbeTask ·)).bind fun t => Backend.parseI64 t.toList
  let row ← if 0 ≤ id then db.task? id.toNat else none
  if row.agent = agent then some id.toNat else none

/-- Whether a revision is already recorded (`patch_unique_rev_per_session_state`). -/
def isDuplicate (store : Store) (session state rev : Nat) : Bool :=
  store.patches.any fun p =>
    p.session == session && globalRev p.rev == globalRev rev && p.state == state

/-- One RFC 6902 operation on a state; a resend of a recorded revision is
dropped. -/
def onAgentStatePatch (db : Db) (store : Store) (agent : Nat) (frame : StatePatch) :
    Except String Unit × Store :=
  match stateId store agent frame.stateName with
  | .error refusal => (.error refusal, store)
  | .ok state =>
      let (session, store) := getOrCreateSession store agent frame.sessionId
      if isDuplicate store session state frame.globalRev then (.ok (), store)
      else (.ok (), { store with log := store.log ++ [.patch {
        state, agent, session
        interface := frame.stateName
        op := frame.op
        path := frame.path
        value := frame.value
        task := linkedTask db agent frame.taskId
        rev := frame.globalRev
        agentPos := if frame.numbering.isNumbered then frame.numbering.pos else none
        step := if frame.numbering.isNumbered then frame.numbering.taskStep else none }] })

/-- Insert one snapshot after the other, up to a state that does not exist. -/
def insertSnapshots (agent session rev : Nat) :
    List (String × Json) → Store → Except String Unit × Store
  | [], store => (.ok (), store)
  | (name, value) :: rest, store =>
      match stateId store agent name with
      | .error refusal => (.error refusal, store)
      | .ok state => insertSnapshots agent session rev rest
          { store with log := store.log ++ [.snapshot { session, state, agent, value, rev }] }

/-- Snapshots of the agent's states at a revision. -/
def onAgentSnapshots (store : Store) (agent sessionId rev : Nat)
    (snapshots : List (String × Json)) : Except String Unit × Store :=
  let (session, store) := getOrCreateSession store agent sessionId
  insertSnapshots agent session rev snapshots store

/-- Route one of the agent's state reports. -/
def onState (db : Db) (store : Store) (agent : Nat) : StateFrame → Except String Unit × Store
  | .patch frame => onAgentStatePatch db store agent frame
  | .snapshot sessionId rev snapshots => onAgentSnapshots store agent sessionId rev snapshots
  | .sessionInit sessionId states => onAgentSnapshots store agent sessionId 0 states

/-- The server with the agents' states: next to its own steps, a state frame of
an agent is handled. -/
def recording (settings : Settings) :
    System (ServerConfig × Store) (Choice Env Request ⊕ (Nat × StateFrame)) where
  next
    | (c, store), .inl choice => ((server settings).next c choice).map fun c' => (c', store)
    | (c, store), .inr (agent, frame) => some (c, (onState c.state store agent frame).2)

/-- The server's own steps are steps of both. -/
theorem recording_run {settings : Settings} {c₀ c : ServerConfig} (store : Store)
    (h : (server settings).Run System.anyStep c₀ c) :
    (recording settings).Run System.anyStep (c₀, store) (c, store) := by
  induction h with
  | refl => exact .refl
  | @step s s' a _ _ hNext ih =>
      have hBoth : (recording settings).next (s, store) (.inl a) = some (s', store) := by
        simp [recording, hNext]
      exact ih.step trivial hBoth

/-! ## A small site -/

/-- One agent with a workflow. -/
def workflowSite : ServerConfig where
  state :=
    { agents := [{ client := 1, user := 1, lease := demoLease }]
      implementations := [{ workflow := true }] }

/-- Its one state. -/
def plateStore : Store := { states := [{ agent := 0, interface := "plate" }] }

/-- The person assigns the workflow, task 0. -/
def assignWorkflow : List (Choice Env Request) :=
  Request.alone (.assign person { implementation := some 0, fresh := "root", freshLower := "" }) 0 8

end Rekuest.States

/-!
## A workflow's guards

`guards.rs`: a workflow asks whether a state it depends on changed since it last
saw it.  Its own calls' patches are not news; an agent that set the state up
again is.
-/

namespace Rekuest.States

open Concurrent Documents
open Backend (BackendError BackendResult parseId)

/-- A `facade_dependency` row: of each state demand its key and the key it
demands of the state. -/
structure DependencyRow where
  implementation : Nat
  key : String
  stateDemands : List (String × Option String) := []
  deriving DecidableEq, Repr

/-- The columns a guard reads besides: the `dependencies` a task was resolved to
(under each key the agents of its entries), and the declared dependencies. -/
structure Resolved where
  dependencies : Nat → List (String × List (Option String)) := fun _ => []
  declared : List DependencyRow := []

/-- What a guard recorded: a session, `none` where it is null, and a revision. -/
structure Since where
  session : Option Nat
  globalRev : Option Int
  deriving DecidableEq, Repr

/-- The revision of an answer. -/
structure RevisionNow where
  session : Option Nat
  globalRev : Int
  deriving DecidableEq, Repr

/-- A guard's answer: the revision now, whether it changed since, and what
changed it. -/
structure Revision where
  revision : RevisionNow
  changed : Option Bool
  detail : Option String
  deriving DecidableEq, Repr

def taskRow (db : Db) (id : Int) : Option Task := if 0 ≤ id then db.task? id.toNat else none

/-- The agents a dependency was resolved to, each once. -/
def resolvedAgents (entries : List (Option String)) : List String :=
  (entries.filterMap fun agent => agent.filter (· != "")).eraseDups

/-- The key of the state behind a slot, as the dependency declares it. -/
def demandedState (resolved : Resolved) (implementation : Option Nat)
    (dependency slot : String) : String :=
  let declared := resolved.declared.find? fun d =>
    some d.implementation == implementation && d.key == dependency
  let demand := declared.bind fun d => d.stateDemands.find? (·.1 == slot)
  let demanded := demand.bind fun d => d.2.filter (· != "")
  demanded.getD slot

/-- The guarded state and its agent's active session. -/
def guardedState (db : Db) (resolved : Resolved) (store : Store) (root : Nat)
    (implementation : Option Nat) (dependency slot : String) :
    BackendResult (Nat × Option Nat) := do
  let entries := ((resolved.dependencies root).lookup dependency).getD []
  if entries.isEmpty then
    throw (.refused ("The workflow has no dependency " ++ Backend.reprStr dependency ++ " to guard."))
  match resolvedAgents entries with
  | [agent] =>
      let id ← parseId agent
      match if 0 ≤ id then db.agents[id.toNat]? else none with
      | none => throw (Backend.doesNotExist "Agent")
      | some row =>
          let identity := demandedState resolved implementation dependency slot
          let byKey := store.states.findIdx? fun s => s.agent == id.toNat && s.key == identity
          let byInterface :=
            store.states.findIdx? fun s => s.agent == id.toNat && s.interface == identity
          match byKey <|> byInterface with
          | none => throw (.refused ("The agent of " ++ Backend.reprStr dependency ++ " has no state " ++
              Backend.reprStr identity ++ " to guard."))
          | some state => return (state, row.lease.activeSessionId)
  | agents => throw (.refused ("A guard needs a dependency resolved to one agent; " ++
      Backend.reprStr dependency ++ " was resolved to " ++ toString agents.length ++ "."))

/-- Whether a row's session has this id; a null id is no row's. -/
def Store.inSession (store : Store) (row : Nat) (session : Option Nat) : Bool :=
  session.isSome && (store.sessions[row]?).map (·.sessionId) == session

/-- The highest revision of the state within the session. -/
def latestRev (store : Store) (state : Nat) (session : Option Nat) : Int :=
  let patches := store.patches.filter fun p =>
    p.state == state && store.inSession p.session session
  let snapshots := store.snapshots.filter fun n =>
    n.state == state && store.inSession n.session session
  ((patches.map (globalRev ·.rev)) ++ (snapshots.map (globalRev ·.rev))).max?.getD 0

/-- One round of `call_tree`: the tasks caused by those found so far. -/
def callTreeRound (db : Db) (tree : List Nat) : List Nat :=
  tree ++ (List.range db.tasks.length).filter fun id =>
    (db.task? id).any fun t => t.parent.any (tree.contains ·)

/-- The workflow and every task it caused, however deep. -/
def callTree (db : Db) (root : Nat) : List Nat :=
  Nat.repeat (callTreeRound db) db.tasks.length [root]

/-- `trim_matches('/')` -/
def trimSlashes (s : List Char) : List Char :=
  ((s.dropWhile (· == '/')).reverse.dropWhile (· == '/')).reverse

/-- The pointer of a watched path, which may be written with dots. -/
def watchedPointer (path : String) : List Char :=
  '/' :: (trimSlashes path.toList).map fun c => if c = '.' then '/' else c

/-- Whether a patch at `path` is at a watched pointer or below it. -/
def watches (pointer path : List Char) : Bool :=
  path == pointer || (pointer ++ ['/']).isPrefixOf path

/-- The first patch of the state after a revision, by none of these tasks and on
one of these pointers, or on any path where there are none. -/
def firstChange (store : Store) (state : Nat) (session : Option Nat) (since : Int)
    (tree : List Nat) (pointers : List (List Char)) : Option PatchRow :=
  let changes := store.patches.filter fun p =>
    p.state == state && store.inSession p.session session && since < globalRev p.rev &&
      !p.task.any (tree.contains ·) &&
      (pointers.isEmpty || pointers.any (watches · p.path.toList))
  (changes.mergeSort fun p q => globalRev p.rev ≤ globalRev q.rev).head?

/-- What changed a state, as the answer tells it. -/
def changeDetail (state : String) (p : PatchRow) : String :=
  let by' := match p.task with
    | some task => "task " ++ toString task
    | none => "the agent itself"
  Backend.reprStr state ++ " changed at " ++ p.path ++ " (by " ++ by' ++
    ") since the workflow last saw it."

/-- `STATE_REVISION_REQUEST` -/
def stateRevision (db : Db) (resolved : Resolved) (store : Store) (agent : Nat)
    (parent dependency state : String) (since : Option Since) (paths : List String) :
    BackendResult Revision := do
  let root ← parseId parent
  match taskRow db root with
  | none => throw (Backend.doesNotExist "Task")
  | some row =>
      if row.agent ≠ agent then
        throw (.forbidden "A guard is asked by the agent running the workflow.")
      let (stateId, session) ←
        guardedState db resolved store root.toNat row.implementation dependency state
      let revision := { session, globalRev := latestRev store stateId session }
      match since with
      | none => return { revision, changed := none, detail := none }
      | some since =>
          if since.session ≠ session then
            return {
              revision
              changed := some true
              detail := some (Backend.reprStr state ++ " was set up again: its agent restarted since.") }
          match firstChange store stateId session (since.globalRev.getD 0)
              (callTree db root.toNat) (paths.map watchedPointer) with
          | none => return { revision, changed := some false, detail := none }
          | some p => return {
              revision
              changed := some true
              detail := some (changeDetail state p) }

/-! ## The call tree -/

variable {db : Db} {root : Nat}

theorem mem_callTreeRound {tree : List Nat} {x : Nat} :
    x ∈ callTreeRound db tree ↔ x ∈ tree ∨
      ∃ row p, db.task? x = some row ∧ row.parent = some p ∧ p ∈ tree := by
  rw [callTreeRound, List.mem_append, List.mem_filter, List.mem_range]
  constructor
  case mp =>
    rintro (hOld | ⟨-, hParent⟩)
    · exact .inl hOld
    · obtain ⟨row, hRow, hIn⟩ := (Option.any_eq_true _ _).mp hParent
      obtain ⟨p, hP, hMem⟩ := (Option.any_eq_true _ _).mp hIn
      exact .inr ⟨row, p, hRow, hP, List.contains_iff_mem.mp hMem⟩
  case mpr =>
    rintro (hOld | ⟨row, p, hRow, hP, hMem⟩)
    · exact .inl hOld
    · exact .inr ⟨Db.task?_lt hRow, by simp [hRow, hP, hMem]⟩

theorem descends_of_mem_rounds {n x : Nat}
    (h : x ∈ Nat.repeat (callTreeRound db) n [root]) : db.Descends root x := by
  induction n generalizing x with
  | zero =>
      have hRoot : x = root := List.mem_singleton.mp h
      exact hRoot ▸ .refl
  | succ n ih =>
      rcases mem_callTreeRound.mp h with hOld | ⟨row, p, hRow, hP, hMem⟩
      · exact ih hOld
      · exact (ih hMem).tail ⟨row, hRow, hP⟩

theorem root_mem_rounds (n : Nat) : root ∈ Nat.repeat (callTreeRound db) n [root] := by
  induction n with
  | zero => exact List.mem_singleton_self root
  | succ n ih => exact mem_callTreeRound.mpr (.inl ih)

/-- A task is older than those it causes, so as many rounds as its id reach it. -/
theorem mem_rounds_of_descends (hTree : db.Tree) {n x : Nat} (h : db.Descends root x)
    (hLe : x ≤ n) : x ∈ Nat.repeat (callTreeRound db) n [root] := by
  induction n generalizing x with
  | zero =>
      cases h with
      | refl => exact root_mem_rounds 0
      | tail _ hChild =>
          obtain ⟨row, hRow, hP⟩ := hChild
          have := hTree.parent_lt hRow hP
          omega
  | succ n ih =>
      cases h with
      | refl => exact root_mem_rounds (n + 1)
      | tail hDesc hChild =>
          obtain ⟨row, hRow, hP⟩ := hChild
          have hLess := hTree.parent_lt hRow hP
          exact mem_callTreeRound.mpr (.inr ⟨row, _, hRow, hP, ih hDesc (by omega)⟩)

/-- The call tree is the workflow and every task it caused. -/
theorem mem_callTree (hTree : db.Tree) {x : Nat} :
    x ∈ callTree db root ↔ db.Descends root x := by
  constructor
  case mp => exact descends_of_mem_rounds
  case mpr =>
    intro h
    cases h with
    | refl => exact root_mem_rounds _
    | tail hDesc hChild =>
        obtain ⟨row, hRow, hP⟩ := hChild
        have hLt := Db.task?_lt hRow
        exact mem_rounds_of_descends hTree (hDesc.tail ⟨row, hRow, hP⟩) (by omega)

end Rekuest.States
