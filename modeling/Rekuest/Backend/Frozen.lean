import Rekuest.Backend.Resolver

/-!
# What a resolve freezes

A resolve that goes through, read backwards: which declared dependency stands
behind a key of a level, which implementation behind a slot, and which levels
lie below.  From one level to the next it is an induction along the path.
-/

namespace Rekuest.Backend

open Rekuest.Effects Rekuest.Effects.Tally

variable {ctx : Context} {caller : CallerContext} {path : List Int}

/-- The row a level keeps under a key: the last one declared. -/
def Registry.declared (db : Registry) (implementation : Int) (key : String) :
    Option DependencyRow :=
  (db.dependenciesOf implementation).reverse.find? (·.key = key)

/-- The action a slot stands for in the snapshot. -/
def DependencyRow.standsFor (dependency : DependencyRow) (slot : String) : Option String :=
  (dependency.actionKeys.reverse.find? (·.2 = slot)).map (·.1)

/-! ## One level, from the slots up -/

/-- What the query of `entries` says of an implementation. -/
theorem mem_found {db : Registry} {agents : List Int} {keys : List String} {found : Found}
    (h : found ∈ db.found agents keys) :
    ∃ row ∈ db.implementations, row.id = found.implementation ∧ row.agentId = found.agent ∧
      (∃ action, db.actionOf row = some action ∧ action.key = found.actionKey) ∧
      found.nested = !(db.dependenciesOf found.implementation).isEmpty := by
  obtain ⟨row, hMem, hRow⟩ := List.mem_filterMap.1 h
  obtain ⟨action, hAction, hRow⟩ := Option.bind_eq_some_iff.1 hRow
  split at hRow
  · cases hRow
    exact ⟨row, hMem, rfl, rfl, ⟨action, hAction, rfl⟩, rfl⟩
  · cases hRow

/-- What stands under a slot: an implementation found for it, with no level of
its own or with the level resolved below. -/
def IsBound (db : Registry) (level : LevelBelow) (agent : Int) (actionKey : String)
    (bound : Bound) : Prop :=
  ∃ row ∈ db.implementations, row.id = bound.implementation ∧ row.agentId = agent ∧
    (∃ action, db.actionOf row = some action ∧ action.key = actionKey) ∧
    ((db.dependenciesOf bound.implementation = [] ∧ bound.dependencies = []) ∨
      ∃ pins below, Answers (level bound.implementation pins) below ∧
        bound.dependencies = below.dependencies)

section Slots

variable {level : LevelBelow} {dependency : DependencyRow}

theorem isBound_of_boundTo {agents : List Int} {keys : List String} {found : Found}
    {slot : String} {pins : List ResolvedDependencyInput} {bound : Bound}
    (hFound : found ∈ ctx.db.found agents keys)
    (h : Answers (boundTo false level dependency slot pins found) bound) :
    IsBound ctx.db level found.agent found.actionKey bound := by
  obtain ⟨row, hMem, hId, hAgent, hAction, hNested⟩ := mem_found hFound
  unfold boundTo at h
  by_cases hDeep : found.nested = true
  · rw [if_pos hDeep] at h
    by_cases hWrapper : found.wrapper = true
    · rw [if_pos hWrapper] at h
      exact absurd h not_answers_throw
    · rw [if_neg hWrapper] at h
      obtain ⟨below, hBelow, h⟩ := h.of_bind
      have hEq := answers_pure.1 h
      subst hEq
      exact ⟨row, hMem, hId, hAgent, hAction, .inr ⟨pins, below, hBelow, rfl⟩⟩
  · rw [if_neg hDeep] at h
    have hEq := answers_pure.1 h
    subst hEq
    have hNone : ctx.db.dependenciesOf found.implementation = [] := by
      simpa [hNested] using hDeep
    exact ⟨row, hMem, hId, hAgent, hAction, .inl ⟨hNone, rfl⟩⟩

/-- The slots of one agent: each that stands for an action is bound. -/
def SlotsBound (db : Registry) (level : LevelBelow) (agent : Int)
    (demanded : List (String × String)) (actions : List (String × Bound)) : Prop :=
  ∀ slot, match demanded.reverse.find? (·.2 = slot) with
    | none => actions.lookup slot = none
    | some (actionKey, _) =>
        ∃ bound, actions.lookup slot = some bound ∧ IsBound db level agent actionKey bound

theorem slotsBound_of_actionsOf {found : List Found}
    {overwrite : Option ResolvedDependencyInput} {agent : Int} {actions : List (String × Bound)}
    (hFound : ∀ row ∈ found, ∃ agents keys, row ∈ ctx.db.found agents keys)
    (h : Answers (actionsOf false level dependency found overwrite agent) actions) :
    SlotsBound ctx.db level agent dependency.actionKeys actions := by
  refine Answers.of_foldlM (SlotsBound ctx.db level agent) ?_ ?_ h
  · rintro done ⟨actionKey, slot⟩ before after - hBefore hStep
    cases hRow : found.reverse.find? (fun row => row.agent = agent ∧ row.actionKey = actionKey) with
    | none =>
        simp only [hRow] at hStep
        exact absurd hStep not_answers_throw
    | some row =>
        simp only [hRow] at hStep
        obtain ⟨bound, hBoundTo, hStep⟩ := hStep.of_bind
        have hEq := answers_pure.1 hStep
        subst hEq
        have hIs : row.agent = agent ∧ row.actionKey = actionKey := by
          simpa using List.find?_some hRow
        have hMem : row ∈ found := by simpa using List.mem_of_find?_eq_some hRow
        obtain ⟨agents, keys, hQuery⟩ := hFound row hMem
        have hBound := isBound_of_boundTo hQuery hBoundTo
        rw [hIs.1, hIs.2] at hBound
        intro slot'
        rw [List.reverse_append, List.reverse_singleton, List.singleton_append, List.find?_cons,
          lookup_insert]
        by_cases hSlot : slot' = slot
        · subst hSlot
          simpa using hBound
        · have hNe : ¬ slot = slot' := fun hEq => hSlot hEq.symm
          simpa [hSlot, hNe] using hBefore slot'
  · intro slot
    rfl

end Slots

/-- What stands under a key: agents, each with all slots of the declared row. -/
def IsEntries (db : Registry) (level : LevelBelow) (dependency : DependencyRow)
    (entries : List Entry) : Prop :=
  ∀ entry ∈ entries, SlotsBound db level entry.agent dependency.actionKeys entry.actions

theorem isEntries_of_entries {level : LevelBelow} {dependency : DependencyRow} {agents : List Int}
    {overwrite : Option ResolvedDependencyInput} {bound : List Entry}
    (h : Answers (entries ctx false level dependency agents overwrite) bound) :
    IsEntries ctx.db level dependency bound := by
  intro entry hMem
  obtain ⟨agent, -, hEntry⟩ := h.of_mapM entry hMem
  obtain ⟨actions, hActions, hEntry⟩ := hEntry.of_bind
  have hEq := answers_pure.1 hEntry
  subst hEq
  refine slotsBound_of_actionsOf ?_ hActions
  intro row hRow
  split at hRow
  · cases hRow
  · exact ⟨_, _, hRow⟩

theorem isEntries_of_bind {level : LevelBelow} {dependency : DependencyRow}
    {overwrite : Option ResolvedDependencyInput} {bound : List Entry}
    (h : Answers (bind ctx caller false level dependency overwrite) bound) :
    IsEntries ctx.db level dependency bound := by
  obtain ⟨agents, -, h⟩ := h.of_bind
  cases hFew : tooFew dependency agents with
  | some min =>
      simp only [hFew] at h
      exact absurd h not_answers_throw
  | none =>
      simp only [hFew] at h
      exact isEntries_of_entries h

/-- The keys of a level: each that is declared holds the entries of its row. -/
def KeysBound (db : Registry) (level : LevelBelow) (rows : List DependencyRow) (tree : Tree) :
    Prop :=
  ∀ key, match rows.reverse.find? (·.key = key) with
    | none => tree.lookup key = none
    | some dependency =>
        ∃ entries, tree.lookup key = some entries ∧ IsEntries db level dependency entries

theorem keysBound_of_dependenciesOf {level : LevelBelow} {implementation : Int}
    {overwrites : List ResolvedDependencyInput} {answer : Level}
    (h : Answers (dependenciesOf ctx caller false level implementation overwrites) answer) :
    KeysBound ctx.db level (ctx.db.dependenciesOf implementation) answer.dependencies := by
  refine Answers.of_foldlM (fun rows answer => KeysBound ctx.db level rows answer.dependencies)
    ?_ ?_ h
  · intro done dependency before after _ hBefore hStep
    obtain ⟨⟨entries, unmet⟩, hBind, hStep⟩ := hStep.of_bind
    have hEq := answers_pure.1 hStep
    subst hEq
    have hEntries : IsEntries ctx.db level dependency entries := by
      rcases hBind.of_tryCatch with hMet | ⟨e, hUnmet⟩
      · obtain ⟨entries', hEntries, hPair⟩ := hMet.of_bind
        have hEq := answers_pure.1 hPair
        cases hEq
        exact isEntries_of_bind hEntries
      · cases e with
        | refused reason => exact absurd hUnmet not_answers_throw
        | forbidden message => exact absurd hUnmet not_answers_throw
        | uniqueViolation => exact absurd hUnmet not_answers_throw
    intro key
    rw [List.reverse_append, List.reverse_singleton, List.singleton_append, List.find?_cons]
    dsimp only
    rw [lookup_insert]
    by_cases hKey : key = dependency.key
    · subst hKey
      simpa using hEntries
    · have hNe : ¬ dependency.key = key := fun hEq => hKey hEq.symm
      simpa [hKey, hNe] using hBefore key
  · intro key
    rfl

/-! ## From level to level -/

/-- A tree that a resolve froze for `implementation` below `path`. -/
def Resolved (ctx : Context) (caller : CallerContext) (path : List Int) (implementation : Int)
    (tree : Tree) : Prop :=
  ∃ overwrites answer, Answers (level ctx caller false path implementation overwrites) answer ∧
    answer.dependencies = tree

theorem resolved_of_build {implementation : Int} {overwrites : List ResolvedDependencyInput}
    {tree : Tree} (h : buildDependencyDict ctx implementation caller overwrites = .ok tree) :
    Resolved ctx caller [] implementation tree := by
  unfold buildDependencyDict at h
  rcases hRun : (level ctx caller false [] implementation overwrites).outcome 0 with ⟨e | answer, n⟩
  · simp [hRun, Except.map] at h
  · simp only [hRun, Except.map, Except.ok.injEq] at h
    exact ⟨overwrites, answer, ⟨0, n, hRun⟩, h⟩

/-- What one level of a resolve says: it is not on its own path, the path is
within the limit, and every key and slot is bound. -/
theorem Resolved.spec {implementation : Int} {tree : Tree}
    (h : Resolved ctx caller path implementation tree) :
    implementation ∉ path ∧ path.length ≤ ctx.dependencyMaxDepth ∧
      KeysBound ctx.db (level ctx caller false (path ++ [implementation]))
        (ctx.db.dependenciesOf implementation) tree := by
  obtain ⟨overwrites, answer, hRun, rfl⟩ := h
  rw [level_eq] at hRun
  by_cases hCycle : implementation ∈ path
  · rw [if_pos hCycle] at hRun
    exact absurd hRun not_answers_throw
  · rw [if_neg hCycle] at hRun
    by_cases hDeep : ctx.dependencyMaxDepth < path.length
    · rw [if_pos hDeep] at hRun
      exact absurd hRun not_answers_throw
    · rw [if_neg hDeep] at hRun
      exact ⟨hCycle, by omega, keysBound_of_dependenciesOf hRun⟩

/-- A level of the tree below `path`: of an implementation without dependencies,
or resolved. -/
def Frozen (ctx : Context) (caller : CallerContext) (path : List Int) (implementation : Int)
    (tree : Tree) : Prop :=
  (ctx.db.dependenciesOf implementation = [] ∧ tree = []) ∨
    Resolved ctx caller path implementation tree

variable {implementation : Int} {tree : Tree} {key slot : String} {entries : List Entry}
  {entry : Entry} {bound : Bound}

/-- A level that binds a key is a resolved one, and the key is declared. -/
theorem Frozen.declared (h : Frozen ctx caller path implementation tree)
    (hKey : tree.lookup key = some entries) :
    Resolved ctx caller path implementation tree ∧
      ∃ dependency, ctx.db.declared implementation key = some dependency ∧
        IsEntries ctx.db (level ctx caller false (path ++ [implementation])) dependency entries := by
  rcases h with ⟨-, rfl⟩ | hResolved
  · cases hKey
  · refine ⟨hResolved, ?_⟩
    have hSpec := hResolved.spec.2.2 key
    unfold Registry.declared
    cases hRow : (ctx.db.dependenciesOf implementation).reverse.find? (·.key = key) with
    | none =>
        rw [hRow] at hSpec
        rw [hSpec] at hKey
        cases hKey
    | some dependency =>
        rw [hRow] at hSpec
        obtain ⟨entries', hKey', hEntries⟩ := hSpec
        rw [hKey] at hKey'
        cases hKey'
        exact ⟨dependency, rfl, hEntries⟩

/-- What stands under a slot is frozen one level down. -/
theorem IsBound.frozen {agent : Int} {actionKey : String}
    (h : IsBound ctx.db (level ctx caller false path) agent actionKey bound) :
    Frozen ctx caller path bound.implementation bound.dependencies := by
  obtain ⟨-, -, -, -, -, hLeaf | ⟨pins, below, hBelow, hEq⟩⟩ := h
  · exact .inl hLeaf
  · exact .inr ⟨pins, below, hBelow, hEq.symm⟩

theorem SlotsBound.isBound {db : Registry} {level : LevelBelow} {agent : Int}
    {dependency : DependencyRow} {actions : List (String × Bound)}
    (h : SlotsBound db level agent dependency.actionKeys actions)
    (hSlot : actions.lookup slot = some bound) :
    ∃ actionKey, dependency.standsFor slot = some actionKey ∧
      IsBound db level agent actionKey bound := by
  have hSpec := h slot
  unfold DependencyRow.standsFor
  cases hDemand : dependency.actionKeys.reverse.find? (·.2 = slot) with
  | none =>
      rw [hDemand] at hSpec
      rw [hSpec] at hSlot
      cases hSlot
  | some demanded =>
      rw [hDemand] at hSpec
      obtain ⟨bound', hSlot', hBound⟩ := hSpec
      rw [hSlot] at hSlot'
      cases hSlot'
      exact ⟨demanded.1, rfl, hBound⟩

theorem SlotsBound.lookup {db : Registry} {level : LevelBelow} {agent : Int}
    {dependency : DependencyRow} {actions : List (String × Bound)} {actionKey : String}
    (h : SlotsBound db level agent dependency.actionKeys actions)
    (hStands : dependency.standsFor slot = some actionKey) :
    ∃ bound, actions.lookup slot = some bound ∧ IsBound db level agent actionKey bound := by
  have hSpec := h slot
  unfold DependencyRow.standsFor at hStands
  cases hDemand : dependency.actionKeys.reverse.find? (·.2 = slot) with
  | none =>
      rw [hDemand] at hStands
      cases hStands
  | some demanded =>
      rw [hDemand] at hSpec hStands
      cases hStands
      exact hSpec

end Rekuest.Backend
