import Rekuest.Backend.Created
import Rekuest.Backend.SameCall

/-!
# All or nothing

An assign that fails should leave nothing behind, and one that creates its task
should leave a child for each of its init hooks.  The row is committed and sent
before the hooks are assigned, all under one reference, and a higher-order
assign returns before them.
-/

namespace Rekuest.Backend

variable {env : Env} {principal : CallerContext} {input : AssignInput} {w : World}
  {reference : String} {task : Int}

/-- The children of a task, without the one that runs a wrapper. -/
def Database.children (db : Database) (task : Int) : List TaskRow :=
  db.tasks.filter fun t => t.parent = some task && !t.isHigherOrderChild

/-- Every hook has a child of its own under a task, with the action it names, and
the task has no others. -/
def HasChildren (db : Database) (task : Int) (hooks : List HookInput) : Prop :=
  ∃ rows, rows.Perm (db.children task) ∧
    List.Forall₂ (fun (hook : HookInput) (row : TaskRow) =>
      (db.registry.action row.action).map (·.hash) = some hook.hash) hooks rows

/-- The law of one assign with nobody else at work. -/
structure AllOrNothing (env : Env) (principal : CallerContext) (input : AssignInput)
    (w : World) : Prop where
  nothing : ∀ e w', assignWithStatus env id principal input w = (.error e, w') →
    w'.db.tasks = w.db.tasks ∧ w'.pushed = w.pushed
  all : ∀ a w', assignWithStatus env id principal input w = (.ok a, w') → a.created = true →
    HasChildren w'.db a.task input.initHooks
  retried : ∀ a w', assignWithStatus env id principal input w = (.ok a, w') → a.created = true →
    (assignWithStatus env id principal { input with reference := some a.reference } w').2 = w'

/-- When the code keeps the law: there are no init hooks, or the request is not
accepted, or it is accepted for an agent with a single init hook that is accepted
in its turn. -/
def GoesWell (env : Env) (principal : CallerContext) (input : AssignInput) (w : World) : Prop :=
  input.initHooks = [] ∨ accepts env principal input w = none ∨
  ∃ new action implementation goesOut hook,
    accepts env principal input w = some (.plain new action implementation goesOut) ∧
    input.initHooks = [hook] ∧
    (accepts env principal (hookInput w.db.nextTask hook)
      (assignMain env id principal input w).world).isSome

/-- Ids are drawn from a sequence, and a parent is a row. -/
structure Database.Sequenced (db : Database) : Prop where
  positive : 0 < db.nextTask
  ids : ∀ t ∈ db.tasks, t.id < db.nextTask
  parents : ∀ t ∈ db.tasks, ∀ p, t.parent = some p → p < db.nextTask

/-! ## Rows and what dispatches record -/

theorem core_mem {rows rows' : List TaskRow} (h : rows.map TaskRow.core = rows'.map TaskRow.core)
    {t : TaskRow} (ht : t ∈ rows) : ∃ t' ∈ rows', t'.core = t.core := by
  have hMem : t.core ∈ rows.map TaskRow.core := List.mem_map_of_mem ht
  rw [h] at hMem
  obtain ⟨t', ht', hCore⟩ := List.mem_map.1 hMem
  exact ⟨t', ht', hCore⟩

theorem action_of_core {t t' : TaskRow} (h : t.core = t'.core) : t.action = t'.action := by
  show t.core.action = t'.core.action
  rw [h]

theorem caller_of_core {t t' : TaskRow} (h : t.core = t'.core) : t.caller = t'.caller := by
  show t.core.caller = t'.core.caller
  rw [h]

theorem reference_of_core {t t' : TaskRow} (h : t.core = t'.core) :
    t.reference = t'.reference := by
  show t.core.reference = t'.core.reference
  rw [h]

theorem children_core {db : Database} {rows : List TaskRow}
    (h : db.tasks.map TaskRow.core = rows.map TaskRow.core) (task : Int) :
    (db.children task).map TaskRow.core =
      (rows.filter fun t => t.parent = some task && !t.isHigherOrderChild).map TaskRow.core := by
  have hFilter : ∀ l : List TaskRow,
      (l.filter fun t => t.parent = some task && !t.isHigherOrderChild).map TaskRow.core =
        (l.map TaskRow.core).filter fun t => t.parent = some task && !t.isHigherOrderChild := by
    intro l
    rw [List.filter_map]
    rfl
  unfold Database.children
  rw [hFilter, hFilter, h]

/-! ## A request under a known reference -/

/-- The caller has a task under a reference. -/
def Knows (principal : CallerContext) (w : World) (reference : String) : Prop :=
  ∃ organization caller t, principal.organization = some organization ∧
    getCaller w.db principal organization = (caller, w.db) ∧ t ∈ w.db.tasks ∧
    t.caller = some caller ∧ t.reference = reference ∧
    (w.db.registry.action t.action).isSome = true

theorem existingAssign_of_row (input : AssignInput) {db : Database} {caller : Int} {t : TaskRow}
    (ht : t ∈ db.tasks)
    (hCaller : t.caller = some caller) (hAction : (db.registry.action t.action).isSome = true) :
    existingAssign db caller input (some t.reference) ≠ .ok none := by
  intro h
  unfold existingAssign at h
  obtain ⟨parent, -, h⟩ := bind_eq_ok.1 h
  have hNone := pure_eq_ok.1 h
  have hReference : byReference db caller (some t.reference) = none := by
    cases hKey : byCallKey db input parent with
    | some found => simp [hKey] at hNone
    | none =>
        cases hStep : byParentStep db input parent with
        | some found => simp [hKey, hStep] at hNone
        | none => simpa [hKey, hStep] using hNone
  have hFirst := List.findSome?_eq_none_iff.1 (Option.map_eq_none_iff.1 hReference) t ht
  obtain ⟨action, hRow⟩ := Option.isSome_iff_exists.1 hAction
  simp [hCaller, Database.existing, hRow] at hFirst

/-- Under a known reference an assign changes nothing. -/
theorem Knows.idle (h : Knows principal w reference)
    (hReference : input.givenReference = some reference) (env : Env)
    (others : Database → Database) :
    (assignMain env others principal input w).world = w ∧
      (assignMain env others principal input w).runsHooks = false := by
  obtain ⟨organization, caller, t, hOrganization, hCaller, ht, hRow, rfl, hAction⟩ := h
  have hFound := existingAssign_of_row input ht hRow hAction
  unfold assignMain
  rw [hOrganization]
  dsimp only
  cases resolutionOf w.db input with
  | error e => exact ⟨rfl, rfl⟩
  | ok resolution =>
      rw [hCaller, hReference]
      dsimp only
      cases hExisting : existingAssign w.db caller input (some t.reference) with
      | error e => exact ⟨rfl, rfl⟩
      | ok found =>
          cases found with
          | some existing => exact ⟨rfl, rfl⟩
          | none => exact absurd hExisting hFound

theorem Knows.retry (h : Knows principal w reference)
    (hReference : input.givenReference = some reference) (env : Env) :
    (assignWithStatus env id principal input w).2 = w := by
  obtain ⟨hWorld, hRuns⟩ := h.idle hReference env id
  unfold assignWithStatus
  dsimp only
  rw [hRuns]
  cases (assignMain env id principal input w).answer with
  | error e => exact hWorld
  | ok assigned => exact hWorld

theorem knows_of_makes {new : NewTask} {brought : List TaskRow} {outcome : Outcome}
    (h : Makes env principal w new brought outcome)
    (hAction : (w.db.registry.action new.action).isSome = true) :
    Knows principal outcome.world new.reference := by
  obtain ⟨organization, hOrganization, hNew, hCallers⟩ := h.caller
  have hMem : new.row env w.db.nextTask ∈ w.db.tasks ++ new.row env w.db.nextTask :: brought := by
    simp
  obtain ⟨t, ht, hCore⟩ := core_mem h.tasks.symm hMem
  have hGot : getCaller w.db principal organization =
      (new.caller, (getCaller w.db principal organization).2) := by rw [hNew]
  refine ⟨organization, new.caller, t, hOrganization, ?_, ht, ?_, ?_, ?_⟩
  · exact (getCaller_spec hGot).2 _ hCallers
  · exact caller_of_core hCore
  · exact reference_of_core hCore
  · rw [h.registry, action_of_core hCore]
    exact hAction

theorem Knows.keep {new : NewTask} {brought : List TaskRow} {outcome : Outcome}
    (h : Knows principal w reference) (hMakes : Makes env principal w new brought outcome) :
    Knows principal outcome.world reference := by
  obtain ⟨organization, caller, t, hOrganization, hCaller, ht, hRow, hReference, hAction⟩ := h
  obtain ⟨organization', hOrganization', -, hCallers⟩ := hMakes.caller
  rw [hOrganization] at hOrganization'
  cases hOrganization'
  obtain ⟨t', ht', hCore⟩ := core_mem hMakes.tasks.symm (List.mem_append_left _ ht)
  refine ⟨organization, caller, t', hOrganization, ?_, ht', ?_, ?_, ?_⟩
  · exact (getCaller_spec hCaller).2 _ (by rw [hCallers, hCaller])
  · exact (caller_of_core hCore).trans hRow
  · exact (reference_of_core hCore).trans hReference
  · rw [hMakes.registry, action_of_core hCore]
    exact hAction

/-! ## Children -/

theorem children_fresh {db : Database} (h : db.Sequenced) : db.children db.nextTask = [] := by
  unfold Database.children
  rw [List.filter_eq_nil_iff]
  intro t ht hChild
  simp only [Bool.and_eq_true, decide_eq_true_eq] at hChild
  exact absurd (h.parents t ht _ hChild.1) (Int.lt_irrefl _)

/-- A new task has no children, but the one that runs a wrapper. -/
theorem children_of_makes {new : NewTask} {brought : List TaskRow} {outcome : Outcome}
    (hSequenced : w.db.Sequenced) (hFrom : MadeFrom env input w new)
    (hMakes : Makes env principal w new brought outcome)
    (hBrought : ∀ row ∈ brought, row.isHigherOrderChild = true) :
    outcome.world.db.children w.db.nextTask = [] := by
  have hCore := children_core hMakes.tasks w.db.nextTask
  have hOld : (w.db.tasks.filter fun t =>
      t.parent = some w.db.nextTask && !t.isHigherOrderChild) = [] := children_fresh hSequenced
  have hNew : new.parent ≠ some w.db.nextTask := by
    intro hParent
    obtain ⟨row, hRow⟩ := hFrom.parentExists _ hParent
    have hId : row.id = w.db.nextTask := by simpa using List.find?_some hRow
    have hLow := hSequenced.ids row (List.mem_of_find?_eq_some hRow)
    omega
  have hLower : (brought.filter fun t =>
      t.parent = some w.db.nextTask && !t.isHigherOrderChild) = [] := by
    rw [List.filter_eq_nil_iff]
    intro row hRow
    simp [hBrought row hRow]
  rw [List.filter_append, hOld, List.filter_cons_of_neg (by simp [NewTask.row, hNew]),
    hLower] at hCore
  exact List.map_eq_nil_iff.1 hCore

/-- One assign gives a task at most one child more. -/
theorem children_of_did {outcome : Outcome} (h : Did env principal input w outcome) (task : Int) :
    (outcome.world.db.children task).length ≤ (w.db.children task).length + 1 := by
  have hCount : ∀ {new : NewTask} {brought : List TaskRow},
      Makes env principal w new brought outcome →
      (∀ row ∈ brought, row.isHigherOrderChild = true) →
      (outcome.world.db.children task).length ≤ (w.db.children task).length + 1 := by
    intro new brought hMakes hBrought
    have hCore := congrArg List.length (children_core hMakes.tasks task)
    have hLower : (brought.filter fun t => t.parent = some task && !t.isHigherOrderChild) = [] := by
      rw [List.filter_eq_nil_iff]
      intro row hRow
      simp [hBrought row hRow]
    rw [List.length_map, List.length_map, List.filter_append, List.length_append,
      List.filter_cons, hLower] at hCore
    unfold Database.children at hCore ⊢
    rw [hCore]
    split <;> simp
  cases h with
  | nothing _ hIdle =>
      unfold Database.children
      rw [hIdle.tasks]
      omega
  | plain _ hMakes _ _ _ => exact hCount hMakes (by simp)
  | wrapper _ hMakes _ _ hLower _ _ => exact hCount hMakes (by simp [hLower])

theorem length_of_did {outcome : Outcome} (h : Did env principal input w outcome) :
    w.db.tasks.length ≤ outcome.world.db.tasks.length := by
  have hCount : ∀ {new : NewTask} {brought : List TaskRow},
      Makes env principal w new brought outcome →
      w.db.tasks.length ≤ outcome.world.db.tasks.length := by
    intro new brought hMakes
    have hLength := congrArg List.length hMakes.tasks
    rw [List.length_map, List.length_map, List.length_append] at hLength
    omega
  cases h with
  | nothing _ hIdle =>
      exact Nat.le_of_eq (by rw [hIdle.tasks])
  | plain _ hMakes _ _ _ => exact hCount hMakes
  | wrapper _ hMakes _ _ _ _ _ => exact hCount hMakes

/-! ## The hooks of a task -/

/-- The two ways of an assign. -/
theorem did_cases {outcome : Outcome} (h : Did env principal input w outcome) :
    (accepts env principal input w = none ∧ Idle w outcome) ∨
    ((accepts env principal input w).isSome = true ∧ ∃ new brought,
      Makes env principal w new brought outcome ∧ MadeFrom env input w new ∧
      ∀ row ∈ brought, row.isHigherOrderChild = true) := by
  cases h with
  | nothing hAccepts hIdle => exact .inl ⟨hAccepts, hIdle⟩
  | plain hAccepts hMakes hFrom _ _ =>
      exact .inr ⟨by rw [hAccepts]; rfl, _, _, hMakes, hFrom, by simp⟩
  | wrapper hAccepts hMakes hFrom _ hLower _ _ =>
      exact .inr ⟨by rw [hAccepts]; rfl, _, _, hMakes, hFrom, by simp [hLower]⟩

theorem MadeFrom.knows {new : NewTask} {brought : List TaskRow} {outcome : Outcome}
    (h : MadeFrom env input w new) (hMakes : Makes env principal w new brought outcome) :
    Knows principal outcome.world new.reference := by
  obtain ⟨action, hAction, -⟩ := h.action
  exact knows_of_makes hMakes (by rw [hAction]; rfl)

/-- The reference of all init hooks of a task. -/
theorem hookInput_reference (task : Int) (hook : HookInput) :
    (hookInput task hook).givenReference = some ("init_hook_0_" ++ toString task) := by
  have hNonempty : "init_hook_0_" ++ toString task ≠ "" := by
    intro h
    have hLength := congrArg String.length h
    rw [String.length_append] at hLength
    have hPrefix : "init_hook_0_".length = 12 := rfl
    have hEmpty : "".length = 0 := rfl
    omega
  show ((some ("init_hook_0_" ++ toString task)).filter (· ≠ "")) = _
  simp only [Option.filter, hNonempty, ne_eq, not_false_eq_true, decide_true, if_true]

/-- Once a hook of a task is known, its other hooks change nothing. -/
theorem runHooks_known {hooks : List HookInput}
    (h : Knows principal w ("init_hook_0_" ++ toString task)) :
    (runHooks env id principal task hooks w).2 = w := by
  induction hooks with
  | nil => rfl
  | cons hook rest ih =>
      have hIdle := (h.idle (hookInput_reference task hook) env id).1
      unfold runHooks
      dsimp only
      rw [hIdle]
      split
      · rfl
      · exact ih

/-- All the hooks of a task come to at most one child more, and no task less. -/
theorem runHooks_children (env : Env) (principal : CallerContext) (task : Int)
    (hooks : List HookInput) (w : World) :
    ((runHooks env id principal task hooks w).2.db.children task).length ≤
        (w.db.children task).length + 1 ∧
      w.db.tasks.length ≤ (runHooks env id principal task hooks w).2.db.tasks.length := by
  induction hooks generalizing w with
  | nil => exact ⟨Nat.le_succ _, Nat.le_refl _⟩
  | cons hook rest ih =>
      have hDid := assignMain_did env principal (hookInput task hook) w
      have hChildren := children_of_did hDid task
      have hLength := length_of_did hDid
      unfold runHooks
      dsimp only
      split
      · exact ⟨hChildren, hLength⟩
      · rcases did_cases hDid with ⟨-, hIdle⟩ | ⟨-, new, brought, hMakes, hFrom, -⟩
        · have hSame : (assignMain env id principal (hookInput task hook) w).world.db.children task =
              w.db.children task := by
            unfold Database.children
            rw [hIdle.tasks]
          have hRest := ih (assignMain env id principal (hookInput task hook) w).world
          rw [hSame, hIdle.tasks] at hRest
          exact hRest
        · have hKnows := hFrom.knows hMakes
          rw [hFrom.reference, hookInput_reference] at hKnows
          rw [runHooks_known hKnows]
          exact ⟨hChildren, hLength⟩

theorem runHooks_single (env : Env) (principal : CallerContext) (task : Int) (hook : HookInput)
    (w : World) : (runHooks env id principal task [hook] w).2 =
      (assignMain env id principal (hookInput task hook) w).world := by
  unfold runHooks
  dsimp only
  split
  · rfl
  · rfl

/-! ## The assign and its hooks -/

theorem assignWithStatus_of_hooks {assigned : Assigned}
    (hAnswer : (assignMain env id principal input w).answer = .ok assigned)
    (hRuns : (assignMain env id principal input w).runsHooks = true) :
    assignWithStatus env id principal input w =
      match runHooks env id principal assigned.task input.initHooks
          (assignMain env id principal input w).world with
      | (.error e, world) => (.error e, world)
      | (.ok _, world) => (.ok assigned, world) := by
  unfold assignWithStatus
  dsimp only
  rw [hAnswer, hRuns]
  rfl

theorem assignWithStatus_without_hooks (env : Env) (principal : CallerContext) (w : World)
    (h : (assignMain env id principal input w).runsHooks = false ∨ input.initHooks = []) :
    assignWithStatus env id principal input w =
      ((assignMain env id principal input w).answer, (assignMain env id principal input w).world) := by
  unfold assignWithStatus
  dsimp only
  cases (assignMain env id principal input w).answer with
  | error e => rfl
  | ok assigned =>
      rcases h with hRuns | hHooks
      · rw [hRuns]
        rfl
      · rw [hHooks]
        dsimp only
        cases (assignMain env id principal input w).runsHooks <;> rfl

/-- An assign that is not accepted keeps the law. -/
theorem allOrNothing_of_idle (h : Idle w (assignMain env id principal input w)) :
    AllOrNothing env principal input w := by
  have hWhole := assignWithStatus_without_hooks env principal w (.inl h.runsHooks)
  constructor
  · intro e w' hAnswer
    rw [hWhole] at hAnswer
    have hWorld : (assignMain env id principal input w).world = w' := congrArg Prod.snd hAnswer
    rw [← hWorld]
    exact ⟨h.tasks, h.pushed⟩
  · intro a w' hAnswer hCreated
    rw [hWhole] at hAnswer
    rw [h.notCreated a (congrArg Prod.fst hAnswer)] at hCreated
    cases hCreated
  · intro a w' hAnswer hCreated
    rw [hWhole] at hAnswer
    rw [h.notCreated a (congrArg Prod.fst hAnswer)] at hCreated
    cases hCreated

/-- A task whose reference is known in the end and whose hooks have their
children keeps the law. -/
theorem allOrNothing_of_created {reference : String} {world : World}
    (h : assignWithStatus env id principal input w = (.ok ⟨task, reference, true⟩, world))
    (hChildren : HasChildren world.db task input.initHooks)
    (hKnows : Knows principal world reference) (hNonempty : reference ≠ "") :
    AllOrNothing env principal input w := by
  constructor
  · intro e w' hAnswer
    rw [h] at hAnswer
    cases hAnswer
  · intro a w' hAnswer _
    rw [h] at hAnswer
    cases hAnswer
    exact hChildren
  · intro a w' hAnswer _
    rw [h] at hAnswer
    cases hAnswer
    have hGiven : AssignInput.givenReference { input with reference := some reference } =
        some reference := by
      show (some reference).filter (· ≠ "") = _
      simp only [Option.filter, hNonempty, ne_eq, not_false_eq_true, decide_true, if_true]
    exact hKnows.retry hGiven env

theorem MadeFrom.reference_nonempty {new : NewTask} (h : MadeFrom env input w new) :
    new.reference ≠ "" := by
  rw [h.reference]
  cases hGiven : input.givenReference with
  | none => exact env.uuid_nonempty _
  | some reference =>
      have hFilter := (Option.filter_eq_some_iff.1 hGiven).2
      simpa using hFilter

/-- A task that is created keeps the law if it has no init hooks. -/
theorem allOrNothing_without_hooks (hSequenced : w.db.Sequenced) (hHooks : input.initHooks = []) :
    AllOrNothing env principal input w := by
  rcases did_cases (assignMain_did env principal input w) with
    ⟨-, hIdle⟩ | ⟨-, new, brought, hMakes, hFrom, hBrought⟩
  · exact allOrNothing_of_idle hIdle
  · have hWhole := assignWithStatus_without_hooks env principal w (.inr hHooks)
    rw [hMakes.answer] at hWhole
    refine allOrNothing_of_created hWhole ?_ (hFrom.knows hMakes) hFrom.reference_nonempty
    rw [hHooks]
    refine ⟨[], ?_, .nil⟩
    rw [children_of_makes hSequenced hFrom hMakes hBrought]

/-- The child of a single hook. -/
theorem hasChildren_of_makes {child : NewTask} {lower : List TaskRow} {hook : HookInput}
    {action : ActionRow} {outcome : Outcome} (hNone : w.db.children task = [])
    (hMakes : Makes env principal w child lower outcome) (hParent : child.parent = some task)
    (hHigher : child.isHigherOrderChild = false)
    (hLower : ∀ row ∈ lower, row.isHigherOrderChild = true)
    (hAction : w.db.registry.action child.action = some action) (hHash : action.hash = hook.hash) :
    HasChildren outcome.world.db task [hook] := by
  have hCore := children_core hMakes.tasks task
  have hOld : (w.db.tasks.filter fun t => t.parent = some task && !t.isHigherOrderChild) = [] :=
    hNone
  have hRest : (lower.filter fun t => t.parent = some task && !t.isHigherOrderChild) = [] := by
    rw [List.filter_eq_nil_iff]
    intro row hRow
    simp [hLower row hRow]
  rw [List.filter_append, hOld, List.filter_cons_of_pos (by simp [NewTask.row, hParent, hHigher]),
    hRest] at hCore
  obtain ⟨row, hRow, hSame⟩ := List.map_eq_singleton_iff.1 hCore
  refine ⟨[row], by rw [hRow], .cons ?_ .nil⟩
  have hRowAction : row.action = (child.row env w.db.nextTask).action := action_of_core hSame
  change row.action = child.action at hRowAction
  rw [hMakes.registry, hRowAction, hAction, Option.map_some, hHash]

/-- A task whose only init hook is accepted keeps the law. -/
theorem allOrNothing_of_hook {new : NewTask} {brought : List TaskRow} {hook : HookInput}
    (hSequenced : w.db.Sequenced)
    (hMakes : Makes env principal w new brought (assignMain env id principal input w))
    (hFrom : MadeFrom env input w new) (hBrought : ∀ row ∈ brought, row.isHigherOrderChild = true)
    (hRuns : (assignMain env id principal input w).runsHooks = true)
    (hHooks : input.initHooks = [hook])
    (hAccepts : (accepts env principal (hookInput w.db.nextTask hook)
      (assignMain env id principal input w).world).isSome = true) :
    AllOrNothing env principal input w := by
  have hWhole := assignWithStatus_of_hooks hMakes.answer hRuns
  have hNone := children_of_makes hSequenced hFrom hMakes hBrought
  have hKnows := hFrom.knows hMakes
  generalize (assignMain env id principal input w).world = created at *
  rcases did_cases (assignMain_did env principal (hookInput w.db.nextTask hook) created) with
    ⟨hRefused, -⟩ | ⟨-, child, lower, hChildMakes, hChildFrom, hLower⟩
  · rw [hRefused] at hAccepts
    cases hAccepts
  · rw [hHooks] at hWhole
    unfold runHooks at hWhole
    dsimp only at hWhole
    rw [hChildMakes.answer] at hWhole
    dsimp only [runHooks] at hWhole
    refine allOrNothing_of_created hWhole ?_ (hKnows.keep hChildMakes) hFrom.reference_nonempty
    obtain ⟨action, hAction, hHash⟩ := hChildFrom.action
    have hParent : child.parent = some w.db.nextTask := by
      have hParsed := hChildFrom.parent
      unfold parseParent at hParsed
      dsimp only [hookInput] at hParsed
      cases hRead : parseId (toString w.db.nextTask) with
      | error e =>
          rw [hRead] at hParsed
          cases hParsed
      | ok p =>
          rw [hRead] at hParsed
          rw [← eq_of_parseId_toString (Int.le_of_lt hSequenced.positive) hRead]
          exact (Except.ok.inj hParsed).symm
    rw [hHooks]
    exact hasChildren_of_makes hNone hChildMakes hParent hChildFrom.higher hLower hAction
      (hHash rfl rfl rfl rfl _ rfl)

/-- A law-abiding assign that runs its hooks has run them all. -/
theorem hooks_of_allOrNothing {new : NewTask} {brought : List TaskRow}
    (h : AllOrNothing env principal input w)
    (hMakes : Makes env principal w new brought (assignMain env id principal input w))
    (hRuns : (assignMain env id principal input w).runsHooks = true) :
    (∃ u, (runHooks env id principal w.db.nextTask input.initHooks
        (assignMain env id principal input w).world).1 = .ok u) ∧
      ((runHooks env id principal w.db.nextTask input.initHooks
        (assignMain env id principal input w).world).2.db.children w.db.nextTask).length =
        input.initHooks.length := by
  have hWhole := assignWithStatus_of_hooks hMakes.answer hRuns
  have hLength := (runHooks_children env principal w.db.nextTask input.initHooks
    (assignMain env id principal input w).world).2
  have hGrown := congrArg List.length hMakes.tasks
  rw [List.length_map, List.length_map, List.length_append, List.length_cons] at hGrown
  dsimp only at hWhole
  rcases hRun : runHooks env id principal w.db.nextTask input.initHooks
    (assignMain env id principal input w).world with ⟨answer, world⟩
  rw [hRun] at hWhole hLength
  cases answer with
  | error e =>
      -- The row is there, whatever the hooks came to.
      have hNothing := (h.nothing e world hWhole).1
      rw [hNothing] at hLength
      omega
  | ok u =>
      obtain ⟨rows, hPerm, hRows⟩ := h.all _ world hWhole rfl
      refine ⟨⟨u, rfl⟩, ?_⟩
      rw [← hPerm.length_eq]
      exact hRows.length_eq.symm

theorem goesWell_of_allOrNothing (hSequenced : w.db.Sequenced)
    (h : AllOrNothing env principal input w) : GoesWell env principal input w := by
  have hDid := assignMain_did env principal input w
  generalize hOutcome : assignMain env id principal input w = outcome at hDid
  cases hDid with
  | nothing hAccepts _ => exact .inr (.inl hAccepts)
  | wrapper _ hMakes hFrom hRuns hLower _ _ =>
      -- The hooks of a higher-order assign never run.
      subst hOutcome
      have hWhole := assignWithStatus_without_hooks env principal w (.inl hRuns)
      rw [hMakes.answer] at hWhole
      obtain ⟨rows, hPerm, hRows⟩ := h.all _ _ hWhole rfl
      dsimp only at hPerm
      rw [children_of_makes hSequenced hFrom hMakes (by simp [hLower])] at hPerm
      rw [hPerm.eq_nil] at hRows
      cases hHooks : input.initHooks with
      | nil => exact .inl hHooks
      | cons hook rest =>
          rw [hHooks] at hRows
          cases hRows
  | @plain new action implementation goesOut _ hAccepts hMakes hFrom hRuns hWaits =>
      subst hOutcome
      cases hHooks : input.initHooks with
      | nil => exact .inl hHooks
      | cons hook rest =>
          cases hOut : goesOut with
          | false =>
              have hEmpty := hWaits hOut
              unfold AssignInput.initHooks at hHooks
              rw [hEmpty] at hHooks
              cases hHooks
          | true =>
              rw [hOut] at hRuns
              obtain ⟨⟨u, hOk⟩, hCount⟩ := hooks_of_allOrNothing h hMakes hRuns
              have hNone := children_of_makes hSequenced hFrom hMakes (by simp)
              have hAtMost := (runHooks_children env principal w.db.nextTask input.initHooks
                (assignMain env id principal input w).world).1
              rw [hNone, hCount, hHooks] at hAtMost
              simp only [List.length_cons, List.length_nil] at hAtMost
              have hRest : rest = [] := by
                apply List.eq_nil_of_length_eq_zero
                omega
              subst hRest
              refine .inr (.inr ⟨new, action, implementation, goesOut, hook, hAccepts, hHooks, ?_⟩)
              rcases did_cases (assignMain_did env principal (hookInput w.db.nextTask hook)
                (assignMain env id principal input w).world) with ⟨-, hIdle⟩ | ⟨hSome, -⟩
              · -- A hook that created nothing is no child.
                rw [hHooks, runHooks_single] at hCount
                unfold Database.children at hCount hNone
                rw [hIdle.tasks, hNone] at hCount
                cases hCount
              · exact hSome

/-! ## All or nothing -/

/-- **Assign is all or nothing** exactly when it has no init hooks, is not
accepted, or is accepted for an agent with a single init hook that is accepted
too. -/
theorem assign_all_or_nothing (env : Env) (principal : CallerContext) (input : AssignInput)
    (w : World) (hSequenced : w.db.Sequenced) :
    AllOrNothing env principal input w ↔ GoesWell env principal input w := by
  constructor
  · exact goesWell_of_allOrNothing hSequenced
  · intro h
    rcases h with hHooks | hNone | ⟨new, action, implementation, goesOut, hook, hAccepts, hHooks, hHook⟩
    · exact allOrNothing_without_hooks hSequenced hHooks
    · rcases did_cases (assignMain_did env principal input w) with ⟨-, hIdle⟩ | ⟨hSome, -⟩
      · exact allOrNothing_of_idle hIdle
      · rw [hNone] at hSome
        cases hSome
    · have hDid := assignMain_did env principal input w
      generalize hOutcome : assignMain env id principal input w = outcome at hDid
      cases hDid with
      | nothing hNone _ =>
          rw [hNone] at hAccepts
          cases hAccepts
      | wrapper hWrapper _ _ _ _ _ _ =>
          rw [hWrapper] at hAccepts
          cases hAccepts
      | @plain _ _ _ goesOut' _ _ hMakes hFrom hRuns hWaits =>
          subst hOutcome
          refine allOrNothing_of_hook hSequenced hMakes hFrom (by simp) ?_ hHooks hHook
          rw [hRuns]
          cases hOut : goesOut' with
          | true => rfl
          | false =>
              have hEmpty := hWaits hOut
              unfold AssignInput.initHooks at hHooks
              rw [hEmpty] at hHooks
              cases hHooks

/-! ### Hooks that are left out -/

/-- A registry with a wrapper of the first agent's action. -/
def wrapping : Registry where
  agents := pair.agents
  actions := pair.actions
  implementations := pair.implementations ++
    [{ id := 3, interface := "wrapped", actionId := 1, agentId := 1, higherOrderFor := some 1 }]
  dependencies := pair.dependencies
  dependencies_ordered := pair.dependencies_ordered

/-- The run's database, with the wrapper. -/
def beforeTheWrapper : World :=
  { beforeTheCall with db := { beforeTheCall.db with registry := wrapping } }

/-- A task of the first agent with one init hook. -/
def withHook (hash : String) : AssignInput :=
  { action := some "1", hooks := some [⟨.init, hash⟩] }

/-- A task of the first agent with two init hooks. -/
def withTwoHooks : AssignInput :=
  { action := some "1", hooks := some [⟨.init, "p"⟩, ⟨.init, "p"⟩] }

/-- A wrapper with an init hook. -/
def wrapperWithHook : AssignInput :=
  { implementation := some "3", hooks := some [⟨.init, "p"⟩] }

theorem beforeTheCall_sequenced : beforeTheCall.db.Sequenced :=
  ⟨by decide, by decide, by decide⟩

/-- With one init hook that is accepted, the law holds. -/
theorem one_hook_is_kept : AllOrNothing quiet anna (withHook "p") beforeTheCall :=
  (assign_all_or_nothing quiet anna (withHook "p") beforeTheCall beforeTheCall_sequenced).2
    (.inr (.inr ⟨_, _, _, _, _, rfl, rfl, rfl⟩))

/-- A refused hook leaves the created and sent task behind an error; of two hooks
one is made; a wrapper's hook is not made at all. -/
theorem hooks_are_left_out :
    (assignWithStatus quiet id anna (withHook "none") beforeTheCall).1 =
      .error (doesNotExist "Action") ∧
    (assignWithStatus quiet id anna (withHook "none") beforeTheCall).2.pushed.length = 1 ∧
    (assignWithStatus quiet id anna withTwoHooks beforeTheCall).1 =
      .ok ⟨2, "uuid-0", true⟩ ∧
    ((assignWithStatus quiet id anna withTwoHooks beforeTheCall).2.db.children 2).length = 1 ∧
    (assignWithStatus quiet id anna wrapperWithHook beforeTheWrapper).1 =
      .ok ⟨2, "uuid-0", true⟩ ∧
    (assignWithStatus quiet id anna wrapperWithHook beforeTheWrapper).2.db.children 2 = [] ∧
    ¬ AllOrNothing quiet anna (withHook "none") beforeTheCall ∧
    ¬ AllOrNothing quiet anna withTwoHooks beforeTheCall ∧
    ¬ AllOrNothing quiet anna wrapperWithHook beforeTheWrapper := by
  refine ⟨rfl, rfl, rfl, rfl, rfl, rfl, ?_, ?_, ?_⟩
  · intro h
    have hPushed := congrArg List.length (h.nothing _ _ rfl).2
    cases hPushed
  · intro h
    obtain ⟨rows, hPerm, hRows⟩ := h.all _ _ rfl rfl
    have hLength := hPerm.length_eq.symm.trans hRows.length_eq.symm
    cases hLength
  · intro h
    obtain ⟨rows, hPerm, hRows⟩ := h.all _ _ rfl rfl
    have hLength := hPerm.length_eq.symm.trans hRows.length_eq.symm
    cases hLength

end Rekuest.Backend
