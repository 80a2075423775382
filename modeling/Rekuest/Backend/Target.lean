import Rekuest.Backend.DryRun
import Rekuest.Backend.Frozen

/-!
# Calling a frozen dependency

`resolve_dependency_target`: a child that names a dependency and a slot is
assigned from its parent's snapshot, to an agent drawn among those that can
receive work right now.  What was frozen is found there, level by level.
-/

namespace Rekuest.Backend

open Rekuest.Effects

/-! ## The reader -/

/-- A string as `{:?}` prints it; beyond ASCII the character itself. -/
def debugStr (s : String) : String :=
  let shown (c : Char) : List Char :=
    if c = '\x22' ∨ c = '\x5c' then ['\x5c', c]
    else if c = '\n' then ['\x5c', 'n']
    else if c = '\r' then ['\x5c', 'r']
    else if c = '\t' then ['\x5c', 't']
    else if c.toNat = 0 then ['\x5c', '0']
    else if c.toNat < 32 ∨ c.toNat = 127 then
      ['\x5c', 'u', '\x7b'] ++ Nat.toDigits 16 c.toNat ++ ['\x7d']
    else [c]
  String.ofList ('\x22' :: s.toList.flatMap shown ++ ['\x22'])

/-- The keys of a snapshot in the order `jsonb` stores them. -/
def storedKeys (tree : Tree) : List String :=
  (tree.map (·.1)).mergeSort fun a b =>
    a.utf8ByteSize < b.utf8ByteSize || (a.utf8ByteSize = b.utf8ByteSize && a ≤ b)

/-- Whether an agent can receive work (`agent_is_available`). -/
def Context.available (ctx : Context) (agent : Int) : Bool :=
  (ctx.db.agent agent).any (·.available ctx.cutoff)

/-- `(action, implementation, dependencies)` from the parent's frozen snapshot.
`snapshotOf` is the column `dependencies` of the tasks, and `draw` is the draw
among the agents that are available. -/
def resolveDependencyTarget (ctx : Context) (snapshotOf : Int → Option (Option Tree))
    (parent : Option String) (dependency : String) (method : Option String) (draw : Nat) :
    BackendResult (ActionRow × ImplementationRow × Tree) :=
  match method.filter (· ≠ "") with
  | none => .error (.refused "Method key must be provided when assigning to a dependency")
  | some method =>
  match parent.filter (· ≠ "") with
  | none => .error (.refused "Dependency assignments must have a parent task")
  | some parent => do
      let task ← parseId parent
      let stored ← get (snapshotOf task) "Task"
      let dependencies := stored.getD []
      match dependencies.lookup dependency with
      | none => .error (.refused ("Dependency " ++ dependency ++
          " not found in parent task dependencies. It has [" ++
          String.intercalate ", " ((storedKeys dependencies).map debugStr) ++ "]"))
      | some entries =>
          let candidates := entries.filter fun entry => ctx.available entry.agent
          match candidates[draw % candidates.length]? with
          | none => .error (.refused ("No agent resolved for dependency " ++ dependency ++
              " is available right now"))
          | some chosen =>
              match chosen.actions.lookup method with
              | none => .error (.refused ("Method " ++ method ++ " not found in dependency " ++
                  dependency ++ " actions"))
              | some bound => do
                  let implementation ← get (ctx.db.implementation bound.implementation)
                    "Implementation"
                  let action ← get (ctx.db.actionOf implementation) "Action"
                  pure (action, implementation, bound.dependencies)

theorem parent_nonempty {parent : String} {task : Int} (h : parseId parent = .ok task) :
    parent ≠ "" := by
  rintro rfl
  cases h

/-- A call to a slot whose agents are all available goes through to what stands
under it. -/
theorem resolveDependencyTarget_eq {ctx : Context} {snapshotOf : Int → Option (Option Tree)}
    {parent key slot : String} {task : Int} {tree : Tree} {entries : List Entry} {draw : Nat}
    {entry : Entry} {bound : Bound} {row : ImplementationRow} {action : ActionRow}
    (hTask : parseId parent = .ok task) (hTree : snapshotOf task = some (some tree))
    (hKey : tree.lookup key = some entries)
    (hAvailable : ∀ entry ∈ entries, ctx.available entry.agent = true)
    (hDraw : entries[draw % entries.length]? = some entry) (hMethod : slot ≠ "")
    (hSlot : entry.actions.lookup slot = some bound)
    (hRow : ctx.db.implementation bound.implementation = some row)
    (hAction : ctx.db.actionOf row = some action) :
    resolveDependencyTarget ctx snapshotOf (some parent) key (some slot) draw =
      .ok (action, row, bound.dependencies) := by
  have hCandidates : entries.filter (fun entry => ctx.available entry.agent) = entries :=
    List.filter_eq_self.2 hAvailable
  have hNamed : (some slot).filter (· ≠ "") = some slot := by simp [Option.filter, hMethod]
  have hParent : (some parent).filter (· ≠ "") = some parent := by
    simp [Option.filter, parent_nonempty hTask]
  unfold resolveDependencyTarget
  rw [hNamed, hParent]
  simp [hTask, hTree, hKey, hCandidates, hDraw, hSlot, hRow, hAction, get, Bind.bind, Except.bind,
    Pure.pure, Except.pure]

/-! ## The levels of a frozen tree -/

/-- The levels of the tree frozen for `implementation`: the implementations
above, the one whose level it is, and the level. -/
inductive LevelOf (implementation : Int) (root : Tree) : List Int → Int → Tree → Prop
  | top : LevelOf implementation root [] implementation root
  | under {path : List Int} {holder : Int} {tree : Tree} {key slot : String}
      {entries : List Entry} {entry : Entry} {bound : Bound} :
      LevelOf implementation root path holder tree → tree.lookup key = some entries →
      entry ∈ entries → entry.actions.lookup slot = some bound →
      LevelOf implementation root (path ++ [holder]) bound.implementation bound.dependencies

variable {ctx : Context} {caller : CallerContext} {implementation : Int}
  {overwrites : List ResolvedDependencyInput} {root : Tree} {path : List Int} {holder : Int}
  {tree : Tree}

/-- What holds of every level: it is frozen, and the implementations above it
are distinct, have dependencies and are within the limit. -/
structure Standing (ctx : Context) (caller : CallerContext) (path : List Int) (holder : Int)
    (tree : Tree) : Prop where
  frozen : Frozen ctx caller path holder tree
  nodup : path.Nodup
  nested : ∀ i ∈ path, ctx.db.dependenciesOf i ≠ []
  bounded : path.length ≤ ctx.dependencyMaxDepth + 1

theorem dependenciesOf_ne_nil {db : Registry} {key : String} {dependency : DependencyRow}
    (h : db.declared holder key = some dependency) : db.dependenciesOf holder ≠ [] := by
  intro hNone
  simp [Registry.declared, hNone] at h

theorem LevelOf.standing
    (hBuild : buildDependencyDict ctx implementation caller overwrites = .ok root)
    (h : LevelOf implementation root path holder tree) : Standing ctx caller path holder tree := by
  induction h with
  | top => exact ⟨.inr (resolved_of_build hBuild), .nil, by simp, by simp⟩
  | under _ hKey hEntry hSlot ih =>
      obtain ⟨hResolved, dependency, hDeclared, hEntries⟩ := ih.frozen.declared hKey
      obtain ⟨hFresh, hShallow, -⟩ := hResolved.spec
      obtain ⟨actionKey, -, hBound⟩ := (hEntries _ hEntry).isBound hSlot
      constructor
      · exact hBound.frozen
      · simpa using ih.nodup.concat hFresh
      · intro i hi
        rcases List.mem_append.1 hi with hi | hi
        · exact ih.nested i hi
        · rw [List.mem_singleton.1 hi]
          exact dependenciesOf_ne_nil hDeclared
      · rw [List.length_append, List.length_singleton]
        omega

/-- An implementation is never below itself. -/
theorem Standing.fresh (h : Standing ctx caller path holder tree) : holder ∉ path := by
  rcases h.frozen with ⟨hLeaf, -⟩ | hResolved
  · intro hMem
    exact h.nested holder hMem hLeaf
  · exact hResolved.spec.1

/-- Only an implementation without dependencies stands below the last level. -/
theorem Standing.leaf (h : Standing ctx caller path holder tree)
    (hDeep : ctx.dependencyMaxDepth < path.length) : ctx.db.dependenciesOf holder = [] := by
  rcases h.frozen with ⟨hLeaf, -⟩ | hResolved
  · exact hLeaf
  · have hShallow := hResolved.spec.2.1
    omega

/-! ## What was resolved can be called -/

/-- The rows of a later moment that are as they were at the resolve. -/
structure Unchanged (ctx later : Context) : Prop where
  implementations : later.db.implementations = ctx.db.implementations
  actions : later.db.actions = ctx.db.actions

/-- What every call of a slot of a level finds, whichever agent is drawn: the
implementation of the demanded action on that agent, with the subtree frozen
under it. -/
def Callable (ctx : Context) (tree : Tree) (key : String) (entries : List Entry)
    (slot actionKey : String) : Prop :=
  ∀ (later : Context) (snapshotOf : Int → Option (Option Tree)) (parent : String) (task : Int)
    (draw : Nat) (entry : Entry), Unchanged ctx later → parseId parent = .ok task →
    snapshotOf task = some (some tree) →
    (∀ entry ∈ entries, later.available entry.agent = true) →
    entries[draw % entries.length]? = some entry →
    ∃ action row bound,
      resolveDependencyTarget later snapshotOf (some parent) key (some slot) draw =
        .ok (action, row, bound.dependencies) ∧
      entry.actions.lookup slot = some bound ∧ row.id = bound.implementation ∧
      row.agentId = entry.agent ∧ action.key = actionKey

theorem IsEntries.callable {level : LevelBelow} {dependency : DependencyRow}
    {key slot actionKey : String} {entries : List Entry}
    (h : IsEntries ctx.db level dependency entries) (hKey : tree.lookup key = some entries)
    (hMethod : slot ≠ "") (hStands : dependency.standsFor slot = some actionKey) :
    Callable ctx tree key entries slot actionKey := by
  intro later snapshotOf parent task draw entry hUnchanged hTask hTree hAvailable hDraw
  have hMem : entry ∈ entries := List.mem_of_getElem? hDraw
  obtain ⟨bound, hSlot, row, hRow, hId, hAgent, ⟨action, hAction, hActionKey⟩, -⟩ :=
    (h entry hMem).lookup hStands
  have hFound : later.db.implementation bound.implementation = some row := by
    rw [← hId]
    apply Registry.implementation_of_mem
    rw [hUnchanged.implementations]
    exact hRow
  have hActionOf : later.db.actionOf row = some action := by
    simpa [Registry.actionOf, Registry.action, hUnchanged.actions] using hAction
  exact ⟨action, row, bound, resolveDependencyTarget_eq hTask hTree hKey hAvailable hDraw hMethod
    hSlot hFound hActionOf, hSlot, hId, hAgent, hActionKey⟩

/-- **What was resolved can be called.**  On every level of a frozen tree the
implementations from the root down are distinct and at most two more than the
limit, the last of so many without dependencies; and under every key every slot
the snapshot keeps can be called on every agent bound to it. -/
theorem what_was_resolved_can_be_called
    (hBuild : buildDependencyDict ctx implementation caller overwrites = .ok root) :
    ∀ path holder tree, LevelOf implementation root path holder tree →
      (path ++ [holder]).Nodup ∧
      (path ++ [holder]).length ≤ ctx.dependencyMaxDepth + 2 ∧
      ((path ++ [holder]).length = ctx.dependencyMaxDepth + 2 →
        ctx.db.dependenciesOf holder = []) ∧
      ∀ key entries, tree.lookup key = some entries →
        ∃ dependency, ctx.db.declared holder key = some dependency ∧
          ∀ demand ∈ dependency.actionDemands, demand.slot ≠ "" →
            dependency.standsFor demand.slot = some demand.actionKey →
            Callable ctx tree key entries demand.slot demand.actionKey := by
  intro path holder tree hLevel
  have hStanding := hLevel.standing hBuild
  have hBounded := hStanding.bounded
  rw [List.length_append, List.length_singleton]
  refine ⟨?_, by omega, fun hLast => hStanding.leaf (by omega), ?_⟩
  · simpa using hStanding.nodup.concat hStanding.fresh
  · intro key entries hKey
    obtain ⟨-, dependency, hDeclared, hEntries⟩ := hStanding.frozen.declared hKey
    refine ⟨dependency, hDeclared, ?_⟩
    intro demand _ hMethod hStands
    exact hEntries.callable hKey hMethod hStands

/-! ### A crowded declaration -/

/-- An implementation that declares two slots for one action, one slot for two
actions, a slot without a name and two rows under one key. -/
def crowded : Context where
  db := {
    agents := twoAgents
    agents_ordered := twoAgents_ordered
    actions := chain.db.actions
    actions_ordered := chain.db.actions_ordered
    implementations := [{ id := 1, actionId := 1, agentId := 1 },
      { id := 2, actionId := 2, agentId := 2 }, { id := 3, actionId := 3, agentId := 2 }]
    dependencies := [
      { id := 1, implementation := 1, key := "peer",
        actionDemands := [⟨some "a", some "pass"⟩, ⟨some "b", some "pass"⟩] },
      { id := 2, implementation := 1, key := "tools",
        actionDemands := [⟨some "c", some "pass"⟩, ⟨some "c", some "end"⟩] },
      { id := 3, implementation := 1, key := "bare", actionDemands := [⟨none, some "pass"⟩] },
      { id := 4, implementation := 1, key := "twin", actionDemands := [⟨some "x", some "pass"⟩] },
      { id := 5, implementation := 1, key := "twin",
        actionDemands := [⟨some "y", some "pass"⟩] }] }
  dependencyMaxDepth := 0

def crowdedPins : List ResolvedDependencyInput :=
  ["peer", "tools", "bare", "twin"].map fun key => ⟨key, [⟨"2", []⟩], false⟩

def crowdedTree : Tree :=
  [("peer", [⟨2, [("b", ⟨2, [], none⟩)]⟩]), ("tools", [⟨2, [("c", ⟨3, [], none⟩)]⟩]),
    ("bare", [⟨2, [("", ⟨2, [], none⟩)]⟩]), ("twin", [⟨2, [("y", ⟨2, [], none⟩)]⟩])]

/-- A call from the task that holds the crowded tree. -/
def crowdedCall (key slot : String) : BackendResult (ActionRow × ImplementationRow × Tree) :=
  resolveDependencyTarget crowded (fun _ => some (some crowdedTree)) (some "1") key (some slot) 0

/-- The crowded declaration resolves, but only the last slot of an action, the
last action of a slot and the last row of a key can be called, no slot without
a name can, and with no level to nest its paths have two implementations. -/
theorem crowded_slots_are_merged :
    buildDependencyDict crowded 1 (member 1) crowdedPins = .ok crowdedTree ∧
    crowdedCall "peer" "a" =
      .error (.refused "Method a not found in dependency peer actions") ∧
    (crowdedCall "tools" "c").map (·.1.key) = .ok "end" ∧
    crowdedCall "bare" "" =
      .error (.refused "Method key must be provided when assigning to a dependency") ∧
    crowdedCall "twin" "x" =
      .error (.refused "Method x not found in dependency twin actions") ∧
    ¬ (∀ key entries, crowdedTree.lookup key = some entries →
      ∀ dependency ∈ crowded.db.dependenciesOf 1, dependency.key = key →
        ∀ demand ∈ dependency.actionDemands,
          Callable crowded crowdedTree key entries demand.slot demand.actionKey) ∧
    ¬ (∀ path holder tree, LevelOf 1 crowdedTree path holder tree →
      (path ++ [holder]).length ≤ crowded.dependencyMaxDepth + 1) := by
  refine ⟨rfl, rfl, rfl, rfl, rfl, ?_, ?_⟩
  · intro hAll
    have hFirst := hAll "peer" _ rfl _ (.head _) rfl _ (.head _) crowded
      (fun _ => some (some crowdedTree)) "1" 1 0 _ ⟨rfl, rfl⟩ rfl rfl
      (by intro entry hEntry; rw [List.mem_singleton.1 hEntry]; rfl) rfl
    obtain ⟨action, row, bound, hCall, -⟩ := hFirst
    cases hCall
  · intro hAll
    have hLevel : LevelOf 1 crowdedTree [1] 2 [] :=
      @LevelOf.under 1 crowdedTree [] 1 crowdedTree "peer" "b" _ _ ⟨2, [], none⟩
        .top rfl (.head _) rfl
    exact absurd (hAll [1] 2 [] hLevel) (by decide)

theorem crowded_peer_can_be_called :
    buildDependencyDict crowded 1 (member 1) crowdedPins = .ok crowdedTree ∧
      Callable crowded crowdedTree "peer" [⟨2, [("b", ⟨2, [], none⟩)]⟩] "b" "pass" := by
  refine ⟨rfl, ?_⟩
  have hLevel := what_was_resolved_can_be_called
    (show buildDependencyDict crowded 1 (member 1) crowdedPins = .ok crowdedTree from rfl)
    [] 1 crowdedTree .top
  obtain ⟨dependency, hDeclared, hDemands⟩ := hLevel.2.2.2 "peer" _ rfl
  cases hDeclared
  exact hDemands ⟨some "b", some "pass"⟩ (by simp) (by decide) rfl

end Rekuest.Backend
