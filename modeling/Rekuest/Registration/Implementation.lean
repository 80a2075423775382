import Rekuest.Tables.Keyed

/-!
# Registering one implementation

`create_implementation` and what it calls, over the two tables it writes and the
`Prefetch` it reads them by.  What it does in the other tables, and what it computes
from a declaration alone, is a parameter: neither reads the prefetch.
-/

namespace Rekuest.Registration

variable {J ρ : Type}

/-! ## Rows and declarations -/

/-- `Effects` -/
inductive Effects
  | none | repeatable | unknown | irreversible
  deriving DecidableEq

/-- A declared action (`DefinitionInputModel`); ports and port groups as they dump. -/
structure Definition (J : Type) where
  key : String
  version : String
  name : String
  description : Option String := none
  args : List J := []
  returns : List J := []
  portGroups : J
  kind : String := "FUNCTION"
  pure : Bool := false
  idempotent : Bool := false
  stateful : Bool := false
  allowProbe : Bool := false
  isDev : Bool := false
  deriving DecidableEq

/-- A declared implementation (`ImplementationInputModel`); its dependencies, bloks, fits,
locks and the like as one value. -/
structure ImplementationInput (J : Type) where
  definition : Definition J
  interface : String
  params : Option J := none
  needsToken : Bool := true
  provenanceAudience : Option J := none
  effects : Effects := .unknown
  execution : String := "PLAIN"
  codeHash : Option String := none
  estimatedRuntime : Option J := none
  dynamicAsks : Option Bool := none
  dynamicCalls : Option Bool := none
  dynamicInforms : Option Bool := none
  others : J

/-- The columns synced on every registration. -/
structure Qualifiers (J : Type) where
  pure : Bool
  idempotent : Bool
  allowProbe : Bool
  isDev : Bool
  kind : String
  portGroups : J
  deriving DecidableEq

/-- An action row, as far as registration reads it. -/
structure ActionRow (J : Type) where
  id : Nat
  key : String
  version : String
  hash : String
  appId : Nat
  args : List J
  returns : List J
  qualifiers : Qualifiers J
  argCount : Nat
  returnCount : Nat
  deriving DecidableEq

/-- A row of `facade_action`. -/
structure Action (J : Type) where
  row : ActionRow J
  organizationId : Nat
  name : String
  description : String
  stateful : Bool
  scope : String
  deriving DecidableEq

/-- An implementation row, as far as registration reads it. -/
structure ImplementationRow (J : Type) where
  id : Nat
  interface : String
  actionId : Nat
  higherOrderConfig : J
  higherOrderFor : Option Nat
  createdAt : Int
  deriving DecidableEq

/-- What a declaration says of its implementation. -/
structure Declared (J : Type) where
  params : J
  diagnostics : J
  needsToken : Bool
  provenanceAudience : Option J
  effects : Effects
  execution : String
  codeHash : Option String
  estimatedRuntime : Option J
  estimatedRuntimePath : Option String
  estimatedRuntimePort : Option String
  deriving DecidableEq

/-- A row of `facade_implementation`. -/
structure Implementation (J : Type) where
  row : ImplementationRow J
  agentId : Nat
  declared : Declared J
  dynamicAsks : Bool := false
  dynamicCalls : Bool := false
  dynamicInforms : Bool := false
  deriving DecidableEq

/-- The two tables, their sequences and the other tables. -/
structure Tables (J ρ : Type) where
  actions : List (Action J) := []
  implementations : List (Implementation J) := []
  nextAction : Nat := 0
  nextImplementation : Nat := 0
  rest : ρ

/-- The registering agent. -/
structure AgentIdentity where
  id : Nat
  app : Nat
  user : Nat
  organization : Nat

inductive Refusal
  | invalid (message : String)
  /-- A query that should have found its row. -/
  | rowNotFound
  | uniqueViolation
  deriving DecidableEq

/-- What `create_implementation` computes from a declaration, and does in other tables. -/
structure Elsewhere (J ρ : Type) where
  /-- `unique_hash` -/
  uniqueHash : Definition J → String
  /-- `infer_action_scope` -/
  inferActionScope : Definition J → String
  /-- `now()`, the same in a whole transaction. -/
  now : Int
  emptyObject : J
  /-- `EstimatedRuntimeInputModel::compile` -/
  compileEstimate : J → Except Refusal String
  /-- `EstimatedRuntimeInputModel::port` -/
  estimatePort : J → Option String
  /-- `derive_from_action`, unless it is empty. -/
  deriveFromAction : List J → List J → Option J
  /-- `check_descriptor_keys`, `check_formula_descriptors` -/
  checkDescriptors : ρ → ImplementationInput J → Except Refusal Unit
  /-- `collect_diagnostics` -/
  collectDiagnostics : ρ → ImplementationInput J → Except Refusal J
  /-- The action's protocols and `sync_action_bloks`. -/
  syncActionRows : ρ → Nat → ImplementationInput J → Except Refusal ρ
  /-- Whether an action has rows in `facade_argport` and in `facade_returnport`. -/
  hasPorts : ρ → Nat → Bool × Bool
  /-- The rows of `rebuild_relational_ports`. -/
  rebuildPortRows : ρ → Nat → Definition J → Except Refusal ρ
  /-- The action's test targets, looked up among the actions, and its collections. -/
  linkAction : List (Action J) → ρ → Nat → Definition J → Except Refusal ρ
  /-- What `delete_actions` deletes and unlinks of other tables. -/
  deleteActionRows : ρ → Nat → List Nat → Except Refusal ρ
  /-- `sync_dependencies`, `sync_fits`, the interactions, locks and states. -/
  syncImplementationRows : ρ → Nat → ImplementationInput J → Except Refusal ρ

/-! ## The prefetch -/

/-- What identifies an action in its app and organization. -/
abbrev Lookup := String × String

def Definition.lookup (definition : Definition J) : Lookup := (definition.key, definition.version)

/-- `Prefetch` -/
structure Prefetch (J : Type) where
  actions : Lookup → Option (ActionRow J)
  implementations : String → Option (ImplementationRow J)

def Prefetch.insertAction (prefetch : Prefetch J) (lookup : Lookup) (action : ActionRow J) :
    Prefetch J :=
  { prefetch with actions := fun l => if l = lookup then some action else prefetch.actions l }

def Prefetch.insertImplementation (prefetch : Prefetch J) (row : ImplementationRow J) :
    Prefetch J :=
  { prefetch with implementations := fun i =>
      if i = row.interface then some row else prefetch.implementations i }

/-- What identifies an action: its app, its organization, its key and version. -/
def Action.place (action : Action J) : Nat × Nat × Lookup :=
  (action.row.appId, action.organizationId, action.row.key, action.row.version)

/-- What identifies an implementation: its agent and its interface. -/
def Implementation.place (implementation : Implementation J) : Nat × String :=
  (implementation.agentId, implementation.row.interface)

/-- The action of the agent's app and organization. -/
def Action.isOf (agent : AgentIdentity) (lookup : Lookup) (action : Action J) : Bool :=
  action.place == (agent.app, agent.organization, lookup)

def Implementation.isOf (agent : AgentIdentity) (interface : String)
    (implementation : Implementation J) : Bool := implementation.place == (agent.id, interface)

def Tables.findAction (db : Tables J ρ) (agent : AgentIdentity) (lookup : Lookup) :
    Option (Action J) := db.actions.find? (Action.isOf agent lookup)

def Tables.findImplementation (db : Tables J ρ) (agent : AgentIdentity) (interface : String) :
    Option (Implementation J) := db.implementations.find? (Implementation.isOf agent interface)

/-- `Prefetch::load`: keys and versions are bound apart. -/
def Prefetch.load (db : Tables J ρ) (agent : AgentIdentity) (wanted : List Lookup) : Prefetch J where
  actions lookup :=
    if lookup.1 ∈ wanted.map (·.1) ∧ lookup.2 ∈ wanted.map (·.2) then
      (db.findAction agent lookup).map (·.row)
    else none
  implementations interface := (db.findImplementation agent interface).map (·.row)

/-! ## Writing rows -/

def Tables.updateAction (db : Tables J ρ) (id : Nat) (f : Action J → Action J) : Tables J ρ :=
  { db with actions := Keyed.updateAt (·.row.id) id f db.actions }

def Tables.updateImplementation (db : Tables J ρ) (id : Nat)
    (f : Implementation J → Implementation J) : Tables J ρ :=
  { db with implementations := Keyed.updateAt (·.row.id) id f db.implementations }

/-- The two unique constraints of `facade_implementation`, for a row among the others. -/
def Tables.accepts (db : Tables J ρ) (implementation : Implementation J) : Bool :=
  db.implementations.all fun other => other.row.id == implementation.row.id ||
    other.agentId != implementation.agentId ||
      (other.row.interface != implementation.row.interface &&
        other.row.actionId != implementation.row.actionId)

/-- An `INSERT` or `UPDATE` of an implementation, checked. -/
def Tables.checked (db : Tables J ρ) (implementation : Implementation J) :
    Except Refusal Unit :=
  if db.accepts implementation then .ok () else .error .uniqueViolation

/-! ## The action -/

/-- `_validate_qualifiers`: the effective idempotence. -/
def validateQualifiers (definition : Definition J) (effects : Effects) : Except Refusal Bool :=
  if definition.pure ∧ effects = .irreversible then
    .error (.invalid s!"Action {definition.key} is declared pure but its implementation's effects are IRREVERSIBLE — a pure action cannot touch the real world.")
  else if definition.pure ∧ definition.stateful then
    .error (.invalid s!"Action {definition.key} is declared both pure and stateful — a pure action cannot depend on or change state.")
  else .ok (definition.idempotent || definition.pure)

/-- What a definition says of the qualifiers. -/
def Definition.qualifiers (definition : Definition J) (idempotent : Bool) : Qualifiers J where
  pure := definition.pure
  idempotent := idempotent
  allowProbe := definition.allowProbe
  isDev := definition.isDev
  kind := definition.kind
  portGroups := definition.portGroups

def Definition.shownDescription (definition : Definition J) : String :=
  match definition.description with
  | none => "No description"
  | some description => if description = "" then "No description" else description

/-- The columns an `UPDATE` of a changed definition writes. -/
def Action.redefine (definition : Definition J) (hash scope : String) (action : Action J) :
    Action J :=
  { action with
    row := { action.row with
      hash, args := definition.args, returns := definition.returns
      qualifiers := { action.row.qualifiers with
        kind := definition.kind, portGroups := definition.portGroups } }
    stateful := definition.stateful, scope, name := definition.name
    description := definition.shownDescription }

/-- The row an `INSERT` of a definition writes. -/
def Definition.newAction (definition : Definition J) (agent : AgentIdentity)
    (hash scope : String) (idempotent : Bool) (id : Nat) : Action J where
  row := {
    id, hash, key := definition.key, version := definition.version, appId := agent.app
    args := definition.args, returns := definition.returns
    qualifiers := definition.qualifiers idempotent, argCount := 0, returnCount := 0 }
  organizationId := agent.organization
  name := definition.name
  description := definition.shownDescription
  stateful := definition.stateful
  scope := scope

/-- `upsert_action`: the action, and whether its definition changed. -/
def upsertAction (e : Elsewhere J ρ) (agent : AgentIdentity) (definition : Definition J)
    (idempotent : Bool) (db : Tables J ρ) (prefetch : Prefetch J) :
    Except Refusal ((ActionRow J × Bool) × Tables J ρ × Prefetch J) :=
  let hash := e.uniqueHash definition
  let scope := e.inferActionScope definition
  match prefetch.actions definition.lookup with
  | some action =>
      if action.hash = hash then .ok ((action, false), db, prefetch)
      else if action.appId ≠ agent.app then
        .error (.invalid s!"Action with key {definition.key} and version {definition.version} already exists but has different hash and you are not the owner. Please update the version or key of your action definition.")
      else
        match db.actions.find? fun a => a.row.id == action.id with
        | none => .error .rowNotFound
        | some found =>
            let action := (found.redefine definition hash scope).row
            .ok ((action, true),
              db.updateAction action.id (Action.redefine definition hash scope),
              prefetch.insertAction definition.lookup action)
  | none =>
      -- ON CONFLICT (organization_id, app_id, key, version) DO NOTHING
      match db.findAction agent definition.lookup with
      | some found =>
          .ok ((found.row, true), { db with nextAction := db.nextAction + 1 },
            prefetch.insertAction definition.lookup found.row)
      | none =>
          let action := definition.newAction agent hash scope idempotent db.nextAction
          .ok ((action.row, true),
            { db with actions := db.actions ++ [action], nextAction := db.nextAction + 1 },
            prefetch.insertAction definition.lookup action.row)

/-- The qualifiers are not part of the hash: synced on every registration. -/
def syncQualifiers (declared : Qualifiers J) [DecidableEq J] (action : ActionRow J)
    (db : Tables J ρ) : ActionRow J × Tables J ρ :=
  if action.qualifiers ≠ declared then
    ({ action with qualifiers := declared },
      db.updateAction action.id fun a => { a with row := { a.row with qualifiers := declared } })
  else (action, db)

/-- `relational_state_is_current` -/
def relationalStateIsCurrent (e : Elsewhere J ρ) (rest : ρ) (action : ActionRow J)
    (definition : Definition J) : Bool :=
  let (hasArgs, hasReturns) := e.hasPorts rest action.id
  action.argCount == definition.args.length && action.returnCount == definition.returns.length &&
    (hasArgs || definition.args.isEmpty) && (hasReturns || definition.returns.isEmpty)

/-- `rebuild_relational_ports`, and what follows a changed definition. -/
def rebuildAction (e : Elsewhere J ρ) (definition : Definition J) (action : ActionRow J)
    (db : Tables J ρ) : Except Refusal (ActionRow J × Tables J ρ) := do
  let rest ← e.rebuildPortRows db.rest action.id definition
  let argCount := definition.args.length
  let returnCount := definition.returns.length
  let db := { db with rest }.updateAction action.id fun a =>
    { a with row := { a.row with argCount, returnCount } }
  let rest ← e.linkAction db.actions db.rest action.id definition
  return ({ action with argCount, returnCount }, { db with rest })

/-- The rest of the action's rows: the action as it is then, and whether it was rebuilt. -/
def settleAction [DecidableEq J] (e : Elsewhere J ρ) (input : ImplementationInput J)
    (idempotent definitionChanged : Bool) (action : ActionRow J) (db : Tables J ρ) :
    Except Refusal ((ActionRow J × Bool) × Tables J ρ) := do
  let definition := input.definition
  let (action, db) := syncQualifiers (definition.qualifiers idempotent) action db
  let rest ← e.syncActionRows db.rest action.id input
  let db := { db with rest }
  if definitionChanged || !relationalStateIsCurrent e db.rest action definition then
    let (action, db) ← rebuildAction e definition action db
    return ((action, true), db)
  else return ((action, false), db)

/-- A rebuilt action is cached as it is then. -/
def cacheSettled (rebuilt : Bool) (settled : ActionRow J) (prefetch : Prefetch J) : Prefetch J :=
  if rebuilt then prefetch.insertAction (settled.key, settled.version) settled else prefetch

/-! ## The implementation -/

/-- The action's rows that go with it, and with its implementations (`delete_actions`):
the implementations that were deleted. -/
def deleteAction (e : Elsewhere J ρ) (id : Nat) (db : Tables J ρ) :
    Except Refusal (List Nat × Tables J ρ) := do
  let deleted := (db.implementations.filter fun i => i.row.actionId = id).map (·.row.id)
  let rest ← e.deleteActionRows db.rest id deleted
  let kept := db.implementations.filter fun i => i.row.id ∉ deleted
  return (deleted, { db with
    actions := db.actions.filter fun a => a.row.id ≠ id
    -- SET_NULL
    implementations := kept.map fun i => { i with row := { i.row with
      higherOrderFor := i.row.higherOrderFor.filter (· ∉ deleted) } }
    rest })

/-- What a declaration writes into its implementation's row. -/
def declaredOf (e : Elsewhere J ρ) (input : ImplementationInput J) (diagnostics : J)
    (path : Option String) (action : ActionRow J) : Declared J where
  params := input.params.getD e.emptyObject
  diagnostics := diagnostics
  needsToken := input.needsToken
  provenanceAudience := input.provenanceAudience.or
    (e.deriveFromAction action.args action.returns)
  effects := input.effects
  execution := input.execution
  codeHash := input.codeHash
  estimatedRuntime := input.estimatedRuntime
  estimatedRuntimePath := path
  estimatedRuntimePort := input.estimatedRuntime.bind e.estimatePort

/-- Whether an implementation takes its old action with it: it was the last one of it. -/
def leavesAction (db : Tables J ρ) (existing : ImplementationRow J) (action : Nat) : Bool :=
  existing.actionId != action &&
    (db.implementations.countP fun i => i.row.actionId == existing.actionId) == 1

/-- The old action goes with its last implementation: the implementations deleted. -/
def leaveAction (e : Elsewhere J ρ) (existing : ImplementationRow J) (action : Nat)
    (db : Tables J ρ) : Except Refusal (List Nat × Tables J ρ) :=
  if leavesAction db existing action then deleteAction e existing.actionId db else .ok ([], db)

/-- `UPDATE facade_implementation … WHERE id`, checked. -/
def pointImplementation (id : Nat) (point : Implementation J → Implementation J)
    (db : Tables J ρ) : Except Refusal (Tables J ρ) :=
  match db.implementations.find? fun i => i.row.id == id with
  | some i => do
      db.checked (point i)
      return db.updateImplementation id point
  | none => .ok db

/-- The implementation found by its interface is pointed at the action, or made again
after its old action went, with it. -/
def repointImplementation (e : Elsewhere J ρ) (agent : AgentIdentity) (declared : Declared J)
    (existing : ImplementationRow J) (action : Nat) (db : Tables J ρ) :
    Except Refusal (Tables J ρ) := do
  let (deleted, db) ← leaveAction e existing action db
  if existing.id ∈ deleted then
    let made : Implementation J :=
      { row := { existing with actionId := action }, agentId := agent.id, declared }
    db.checked made
    return { db with implementations := db.implementations ++ [made] }
  else
    pointImplementation existing.id
      (fun i => { i with row := { i.row with actionId := action }, declared }) db

/-- The implementation is found or made. -/
def writeImplementation (e : Elsewhere J ρ) (agent : AgentIdentity) (interface : String)
    (declared : Declared J) (action : Nat) (db : Tables J ρ) (prefetch : Prefetch J) :
    Except Refusal (Nat × Tables J ρ × Prefetch J) :=
  match prefetch.implementations interface with
  | some existing => do
      let db ← repointImplementation e agent declared existing action db
      return (existing.id, db, prefetch.insertImplementation { existing with actionId := action })
  | none => do
      let row : ImplementationRow J :=
        { id := db.nextImplementation, interface, actionId := action
          higherOrderConfig := e.emptyObject, higherOrderFor := none, createdAt := e.now }
      let made : Implementation J := { row, agentId := agent.id, declared }
      db.checked made
      return (row.id,
        { db with implementations := db.implementations ++ [made]
                  nextImplementation := db.nextImplementation + 1 },
        prefetch.insertImplementation row)

/-- What follows the implementation's row: its flags, and its rows in other tables. -/
def finishImplementation (e : Elsewhere J ρ) (input : ImplementationInput J) (id : Nat)
    (db : Tables J ρ) : Except Refusal (Tables J ρ) := do
  let db := db.updateImplementation id fun i =>
    { i with
      dynamicAsks := input.dynamicAsks.getD false
      dynamicCalls := input.dynamicCalls.getD false
      dynamicInforms := input.dynamicInforms.getD false }
  let rest ← e.syncImplementationRows db.rest id input
  return { db with rest }

/-- `create_implementation`: the implementation's id. -/
def createImplementation [DecidableEq J] (e : Elsewhere J ρ) (agent : AgentIdentity)
    (input : ImplementationInput J) (db : Tables J ρ) (prefetch : Prefetch J) :
    Except Refusal (Nat × Tables J ρ × Prefetch J) := do
  let idempotent ← validateQualifiers input.definition input.effects
  e.checkDescriptors db.rest input
  let path ← input.estimatedRuntime.mapM e.compileEstimate
  let diagnostics ← e.collectDiagnostics db.rest input
  let ((action, definitionChanged), db, prefetch) ←
    upsertAction e agent input.definition idempotent db prefetch
  let ((action, rebuilt), db) ← settleAction e input idempotent definitionChanged action db
  let (id, db, prefetch) ← writeImplementation e agent input.interface
    (declaredOf e input diagnostics path action) action.id db
    (cacheSettled rebuilt action prefetch)
  let db ← finishImplementation e input id db
  return (id, db, prefetch)

/-- `implement_agent`'s loop: one prefetch for all. -/
def implementAgent [DecidableEq J] (e : Elsewhere J ρ) (agent : AgentIdentity)
    (declared : List (ImplementationInput J)) (db : Tables J ρ) (prefetch : Prefetch J) :
    Except Refusal (Tables J ρ) :=
  match declared with
  | [] => .ok db
  | input :: rest => do
      let (_, db, prefetch) ← createImplementation e agent input db prefetch
      implementAgent e agent rest db prefetch

/-- The prefetch of a batch. -/
def Prefetch.ofBatch (db : Tables J ρ) (agent : AgentIdentity)
    (declared : List (ImplementationInput J)) : Prefetch J :=
  .load db agent (declared.map (·.definition.lookup))

/-- Each in turn, with a prefetch loaded afresh. -/
def implementInTurn [DecidableEq J] (e : Elsewhere J ρ) (agent : AgentIdentity)
    (declared : List (ImplementationInput J)) (db : Tables J ρ) : Except Refusal (Tables J ρ) :=
  match declared with
  | [] => .ok db
  | input :: rest => do
      let fresh := Prefetch.load db agent [input.definition.lookup]
      let (_, db, _) ← createImplementation e agent input db fresh
      implementInTurn e agent rest db

end Rekuest.Registration
