import Rekuest.Effects.Tally
import Rekuest.Backend.Registry
import Rekuest.Backend.Snapshot

/-!
# Resolving a dependency tree

`Resolve` of `backend.rs`: from the assigned implementation down, what each
declared dependency binds.  An assign refuses at the first dependency that is
not met; a dry run (`collect`) notes it, counts it and goes on.
-/

namespace Rekuest.Backend

open Rekuest.Effects

/-! ## What a caller pins -/

mutual

/-- An agent a dependency is mapped to.  `dependencies` are the overwrites one
level down. -/
structure MappedAgentInput where
  agent : String
  dependencies : List ResolvedDependencyInput

/-- The caller's resolution of one dependency. -/
structure ResolvedDependencyInput where
  key : String
  mappedAgents : List MappedAgentInput
  autoResolve : Bool

end

/-- What the caller pinned below one agent: one level down, for whatever is
bound on it that declares the key. -/
def pinsFor (overwrite : Option ResolvedDependencyInput) (agent : Int) :
    List ResolvedDependencyInput :=
  match overwrite with
  | none => []
  | some overwrite =>
      if overwrite.autoResolve then []
      else match overwrite.mappedAgents.find?
          (fun mapped => trim mapped.agent.toList = (toString agent).toList) with
        | some mapped => mapped.dependencies
        | none => []

/-! ## The agents of a dependency -/

/-- The available agents of the dependency's app, and of its version when it
pins one (`*` or none is any). -/
def byApp (ctx : Context) (dependency : DependencyRow) (caller : CallerContext) :
    BackendResult (List Int) :=
  match dependency.appFilter.filter (· ≠ "") with
  | none =>
      -- Without an app there is nothing to resolve by: the dependency is unbound.
      if dependency.optional then .ok []
      else .error (.refused ("Dependency " ++ dependency.key ++ " is auto resolvable but names no app to resolve it by. Please provide a dependency overwrite for this dependency to ensure it can be resolved properly."))
  | some app =>
      let version (agent : AgentRow) : Bool :=
        match dependency.versionFilter with
        | none => true
        | some filter => filter = "" || filter = "*" || agent.version = filter
      let agents := ctx.db.agents.filter fun agent =>
        agent.app = app && caller.organization = some agent.organization &&
          agent.available ctx.cutoff && version agent
      .ok (agents.map (·.id))

/-- The full set of available agents matching one dependency, by id. -/
def resolveDependencyAgents (ctx : Context) (dependency : DependencyRow) (caller : CallerContext)
    (overwrite : Option ResolvedDependencyInput) : BackendResult (List Int) :=
  match overwrite with
  | some overwrite =>
      if overwrite.autoResolve then
        if dependency.autoResolvable then byApp ctx dependency caller
        else .error (.refused ("Dependency " ++ dependency.key ++ " is not auto resolvable, but was provided with an overwrite that has auto_resolve set to true. Please either set auto_resolve to false for this dependency overwrite, or make the dependency auto resolvable in the system."))
      else do
        let ids ← overwrite.mappedAgents.mapM fun mapped => parseId mapped.agent
        -- The caller's own organization's agents: an id from elsewhere binds nothing.
        let agents := ctx.db.agents.filter fun agent =>
          agent.id ∈ ids && caller.organization = some agent.organization &&
            agent.available ctx.cutoff
        pure (agents.map (·.id))
  | none =>
      if dependency.autoResolvable then byApp ctx dependency caller
      -- An optional dependency may be left unbound: the call runs without it.
      else if dependency.optional then .ok []
      else .error (.refused ("Dependency " ++ dependency.key ++ " was not provided with an overwrite, and is not auto resolvable. Please provide a dependency overwrite for this dependency to ensure it can be resolved properly."))

/-! ## The slots of a dependency -/

/-- The slot of a demand. -/
def ActionDemand.slot (demand : ActionDemand) : String := demand.key.getD ""

/-- The action a demand is for: the demand's key names it, and the slot stands
in for it when the demand pins none. -/
def ActionDemand.actionKey (demand : ActionDemand) : String :=
  (demand.demand.filter (· ≠ "")).getD demand.slot

/-- Action key → slot.  A later slot for the same action wins, as in the dict. -/
def DependencyRow.actionKeys (dependency : DependencyRow) : List (String × String) :=
  dependency.actionDemands.foldl
    (fun keys demand => insert demand.actionKey demand.slot keys) []

/-- A row of the query of `entries`. -/
structure Found where
  agent : Int
  actionKey : String
  implementation : Int
  nested : Bool
  wrapper : Bool
  deriving DecidableEq, Repr

/-- The implementations the agents have of the actions, by id. -/
def Registry.found (db : Registry) (agents : List Int) (keys : List String) : List Found :=
  db.implementations.filterMap fun row => do
    let action ← db.actionOf row
    if row.agentId ∈ agents ∧ action.key ∈ keys then
      pure {
        agent := row.agentId
        actionKey := action.key
        implementation := row.id
        nested := !(db.dependenciesOf row.id).isEmpty
        wrapper := row.higherOrderFor.isSome }
    else none

/-! ## The levels -/

/-- One level of a dependency tree, and a dry run's notes on it. -/
structure Level where
  dependencies : Tree := []
  notes : Notes := []

/-- A resolve: it refuses or answers, and counts what a dry run found unmet. -/
abbrev Resolving := Tally BackendError

/-- The resolve of the level below, of an implementation with its pins. -/
abbrev LevelBelow := Int → List ResolvedDependencyInput → Resolving Level

section

variable (ctx : Context) (caller : CallerContext) (collect : Bool)

/-- What one slot is bound to: the implementation found for it, and its own
level where it has dependencies. -/
def boundTo (level : LevelBelow) (dependency : DependencyRow) (slot : String)
    (pins : List ResolvedDependencyInput) (found : Found) : Resolving Bound :=
  if found.nested then
    -- A wrapper resolves its own dependencies when it is assigned, not from its
    -- parent's snapshot.
    if found.wrapper then
      throw (.refused ("Dependency " ++ dependency.key ++ ": " ++ slot ++ " on agent " ++
        toString found.agent ++ " is a higher-order implementation with dependencies of its own, which cannot be nested yet"))
    else do
      let below ← level found.implementation pins
      pure ⟨found.implementation, below.dependencies, if collect then some below.notes else none⟩
  else pure ⟨found.implementation, [], none⟩

/-- The slots of one agent. -/
def actionsOf (level : LevelBelow) (dependency : DependencyRow) (found : List Found)
    (overwrite : Option ResolvedDependencyInput) (agent : Int) :
    Resolving (List (String × Bound)) :=
  dependency.actionKeys.foldlM
    (fun actions demanded =>
      match found.reverse.find? (fun row => row.agent = agent ∧ row.actionKey = demanded.1) with
      | none => throw (.refused ("No implementation found for dependency demand " ++ demanded.2 ++
          " on agent " ++ toString agent))
      | some row => do
          let bound ← boundTo collect level dependency demanded.2 (pinsFor overwrite agent) row
          pure (insert demanded.2 bound actions))
    []

/-- The per-agent implementation maps of one dependency. -/
def entries (level : LevelBelow) (dependency : DependencyRow) (agents : List Int)
    (overwrite : Option ResolvedDependencyInput) : Resolving (List Entry) :=
  let keys := dependency.actionKeys.map (·.1)
  let found := if agents.isEmpty || keys.isEmpty then [] else ctx.db.found agents keys
  agents.mapM fun agent => do
    let actions ← actionsOf collect level dependency found overwrite agent
    pure ⟨agent, actions⟩

/-- Too few agents for a dependency.  The full match set is counted before it is
capped; an optional dependency nobody answers stays unbound. -/
def tooFew (dependency : DependencyRow) (agents : List Int) : Option Int :=
  (dependency.minViableInstances.filter fun _ => !(dependency.optional && agents.isEmpty)).filter
    fun min => (agents.length : Int) < min

/-- The agents bound to one dependency, each with what it implements of it. -/
def bind (level : LevelBelow) (dependency : DependencyRow)
    (overwrite : Option ResolvedDependencyInput) : Resolving (List Entry) := do
  let agents ← Tally.ofExcept (resolveDependencyAgents ctx dependency caller overwrite)
  match tooFew dependency agents with
  | some min => throw (.refused ("Not enough agents found for dependency " ++ dependency.key ++
      ". Required at least " ++ toString min ++ " but found only " ++ toString agents.length ++
      ". Please ensure that there are enough agents available to resolve this dependency."))
  | none =>
      let agents := match dependency.maxViableInstances with
        | some max => agents.take max.toNat
        | none => agents
      entries ctx collect level dependency agents overwrite

/-- A dependency that is refused: a dry run notes the reason on it, and an
assign hands the refusal on. -/
def orUnmet : BackendError → Resolving (List Entry × Option String)
  | .refused reason =>
      if collect then do
        Tally.note
        pure ([], some reason)
      else throw (.refused reason)
  | e => throw e

/-- One dependency of a level. -/
def addDependency (level : LevelBelow) (overwrites : List ResolvedDependencyInput) (above : Level)
    (dependency : DependencyRow) : Resolving Level := do
  let overwrite := overwrites.find? (·.key = dependency.key)
  let (entries, unmet) ← tryCatch
    (do
      let entries ← bind ctx caller collect level dependency overwrite
      pure (entries, none))
    (orUnmet collect)
  pure {
    dependencies := insert dependency.key entries above.dependencies
    notes :=
      if collect then insert dependency.key ⟨dependency.id, unmet⟩ above.notes
      else above.notes }

def dependenciesOf (level : LevelBelow) (implementation : Int)
    (overwrites : List ResolvedDependencyInput) : Resolving Level :=
  (ctx.db.dependenciesOf implementation).foldlM
    (addDependency ctx caller collect level overwrites) {}

/-- A path as the refusals show it. -/
def showPath (path : List Int) : String := String.intercalate " → " (path.map toString)

/-- `level`, with the number of levels that may still be entered. -/
def levelWithin : Nat → List Int → LevelBelow
  | left, path, implementation, overwrites =>
      -- A workflow that reaches itself would wait on itself.
      if implementation ∈ path then
        throw (.refused ("Dependency cycle: implementation " ++ toString implementation ++
          " depends on itself (" ++ showPath (path ++ [implementation]) ++ ")"))
      else match left with
        | 0 => throw (.refused ("Dependencies nest deeper than " ++
            toString ctx.dependencyMaxDepth ++ " levels (" ++
            showPath (path ++ [implementation]) ++ ")"))
        | left + 1 =>
            dependenciesOf ctx caller collect (levelWithin left (path ++ [implementation]))
              implementation overwrites

/-- The level of an implementation below `path`, the implementations from the
root down to it. -/
def level (path : List Int) : LevelBelow :=
  levelWithin ctx caller collect (ctx.dependencyMaxDepth + 1 - path.length) path

/-- `level` as the source writes it. -/
theorem level_eq (path : List Int) (implementation : Int)
    (overwrites : List ResolvedDependencyInput) :
    level ctx caller collect path implementation overwrites =
      if implementation ∈ path then
        throw (.refused ("Dependency cycle: implementation " ++ toString implementation ++
          " depends on itself (" ++ showPath (path ++ [implementation]) ++ ")"))
      else if ctx.dependencyMaxDepth < path.length then
        throw (.refused ("Dependencies nest deeper than " ++ toString ctx.dependencyMaxDepth ++
          " levels (" ++ showPath (path ++ [implementation]) ++ ")"))
      else
        dependenciesOf ctx caller collect (level ctx caller collect (path ++ [implementation]))
          implementation overwrites := by
  unfold level
  rw [List.length_append, List.length_singleton]
  cases hLeft : ctx.dependencyMaxDepth + 1 - path.length with
  | zero =>
      have hDeep : ctx.dependencyMaxDepth < path.length := by omega
      simp [levelWithin, hDeep]
  | succ left =>
      have hShallow : ¬ ctx.dependencyMaxDepth < path.length := by omega
      have hNext : ctx.dependencyMaxDepth + 1 - (path.length + 1) = left := by omega
      simp [levelWithin, hShallow, hNext]

end

/-! ## The two ways to resolve -/

/-- The dependency snapshot frozen onto a task: the whole tree below
`implementation`. -/
def buildDependencyDict (ctx : Context) (implementation : Int) (caller : CallerContext)
    (overwrites : List ResolvedDependencyInput) : BackendResult Tree :=
  ((level ctx caller false [] implementation overwrites).outcome 0).1.map (·.dependencies)

/-- What a dry run reports. -/
structure DryRun where
  dependencies : Tree
  notes : Notes
  satisfied : Bool

/-- The organization of the agent an implementation is on. -/
def Context.organizationOf (ctx : Context) (implementation : Int) : Option Int := do
  let row ← ctx.db.implementation implementation
  let agent ← ctx.db.agent row.agentId
  pure agent.organization

/-- What assigning `implementation` with these overwrites would bind, without
assigning. -/
def resolveDependencies (ctx : Context) (principal : CallerContext) (implementation : String)
    (overwrites : List ResolvedDependencyInput) : BackendResult DryRun := do
  let implementation ← parseId implementation
  let organization ← get (ctx.organizationOf implementation) "Implementation"
  if principal.organization ≠ some organization then
    .error (.forbidden ("Implementation " ++ toString implementation ++
      " is not in your organization."))
  else
    match (level ctx principal true [] implementation overwrites).outcome 0 with
    | (.ok level, unmet) => .ok ⟨level.dependencies, level.notes, unmet = 0⟩
    | (.error e, _) => .error e

end Rekuest.Backend
