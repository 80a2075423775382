import Rekuest.Backend.Resolver

/-!
# The dry run

`build_dependency_dict` and `resolve_dependencies` run one resolver in its two
modes.  The dry run tells what the assign would do: step by step it answers
alike and notes nothing unmet, or the assign refuses.
-/

namespace Rekuest.Backend

open Rekuest.Effects Rekuest.Effects.Tally

variable {ctx : Context} {caller : CallerContext}

/-- A level of a dry run is the level an assign freezes, once its notes are
removed. -/
def Level.Alike (strict lenient : Level) : Prop :=
  bareTree lenient.dependencies = strict.dependencies

/-! ## The tally of a dry run only grows -/

section Grows

variable {collect : Bool} {level : LevelBelow}

theorem grows_boundTo (hLevel : ∀ i pins, Grows (level i pins)) (dependency : DependencyRow)
    (slot : String) (pins : List ResolvedDependencyInput) (found : Found) :
    Grows (boundTo collect level dependency slot pins found) := by
  unfold boundTo
  split
  · split
    · exact grows_throw _
    · exact (hLevel _ _).bind fun _ => grows_pure _
  · exact grows_pure _

theorem grows_actionsOf (hLevel : ∀ i pins, Grows (level i pins)) (dependency : DependencyRow)
    (found : List Found) (overwrite : Option ResolvedDependencyInput) (agent : Int) :
    Grows (actionsOf collect level dependency found overwrite agent) := by
  apply Grows.foldlM
  intro actions demanded
  split
  · exact grows_throw _
  · exact (grows_boundTo hLevel _ _ _ _).bind fun _ => grows_pure _

theorem grows_bind (hLevel : ∀ i pins, Grows (level i pins)) (dependency : DependencyRow)
    (overwrite : Option ResolvedDependencyInput) :
    Grows (bind ctx caller collect level dependency overwrite) := by
  unfold bind
  refine (grows_ofExcept _).bind fun agents => ?_
  split
  · exact grows_throw _
  · exact Grows.mapM (fun agent => (grows_actionsOf hLevel _ _ _ agent).bind fun _ => grows_pure _) _

theorem grows_orUnmet (e : BackendError) : Grows (orUnmet collect e) := by
  cases e with
  | refused reason =>
      cases collect with
      | true => exact grows_note.bind fun _ => grows_pure _
      | false => exact grows_throw _
  | forbidden message => exact grows_throw _
  | uniqueViolation => exact grows_throw _

theorem grows_addDependency (hLevel : ∀ i pins, Grows (level i pins))
    (overwrites : List ResolvedDependencyInput) (above : Level) (dependency : DependencyRow) :
    Grows (addDependency ctx caller collect level overwrites above dependency) := by
  unfold addDependency
  refine Grows.bind (Grows.tryCatch ?_ grows_orUnmet) fun _ => grows_pure _
  exact (grows_bind hLevel _ _).bind fun _ => grows_pure _

theorem grows_levelWithin (left : Nat) (path : List Int) (implementation : Int)
    (overwrites : List ResolvedDependencyInput) :
    Grows (levelWithin ctx caller collect left path implementation overwrites) := by
  induction left generalizing path implementation overwrites with
  | zero =>
      unfold levelWithin
      split <;> exact grows_throw _
  | succ left ih =>
      unfold levelWithin
      split
      · exact grows_throw _
      · exact Grows.foldlM (grows_addDependency (ih (path ++ [implementation])) overwrites) _ _

end Grows

/-! ## What it tells -/

section Tells

variable {strict lenient : LevelBelow}

theorem tells_boundTo (hLevel : ∀ i pins, Tells Level.Alike (strict i pins) (lenient i pins))
    (dependency : DependencyRow) (slot : String) (pins : List ResolvedDependencyInput)
    (found : Found) :
    Tells (fun a b => b.bare = a) (boundTo false strict dependency slot pins found)
      (boundTo true lenient dependency slot pins found) := by
  unfold boundTo
  by_cases hNested : found.nested = true
  · by_cases hWrapper : found.wrapper = true
    · simp only [hNested, hWrapper, if_true]
      exact tells_throw _ _
    · simp only [hNested, hWrapper, if_true]
      refine (hLevel _ _).bind ?_ fun _ => grows_pure _
      intro below below' hAlike
      apply tells_pure
      have hTree : bareTree below'.dependencies = below.dependencies := hAlike
      simp [Bound.bare, hTree]
  · simp only [hNested]
    exact tells_pure (by simp [Bound.bare, bareTree])

theorem tells_actionsOf (hLevel : ∀ i pins, Tells Level.Alike (strict i pins) (lenient i pins))
    (hGrows : ∀ i pins, Grows (lenient i pins)) (dependency : DependencyRow) (found : List Found)
    (overwrite : Option ResolvedDependencyInput) (agent : Int) :
    Tells (fun a b => bareActions b = a) (actionsOf false strict dependency found overwrite agent)
      (actionsOf true lenient dependency found overwrite agent) := by
  apply Tells.foldlM
  · intro actions actions' demanded hAlike
    split
    · exact tells_throw _ _
    · refine (tells_boundTo hLevel _ _ _ _).bind ?_ fun _ => grows_pure _
      intro bound bound' hBound
      apply tells_pure
      rw [bareActions_insert, hBound, hAlike]
  · intro actions demanded
    split
    · exact grows_throw _
    · exact (grows_boundTo hGrows _ _ _ _).bind fun _ => grows_pure _
  · simp [bareActions]

theorem bareEntries_of_forall₂ {strictly leniently : List Entry}
    (h : List.Forall₂ (fun a b => b.bare = a) strictly leniently) :
    bareEntries leniently = strictly := by
  induction h with
  | nil => simp [bareEntries]
  | cons hEntry _ ih => simp [bareEntries, hEntry, ih]

theorem tells_entries (hLevel : ∀ i pins, Tells Level.Alike (strict i pins) (lenient i pins))
    (hGrows : ∀ i pins, Grows (lenient i pins)) (dependency : DependencyRow) (agents : List Int)
    (overwrite : Option ResolvedDependencyInput) :
    Tells (fun a b => bareEntries b = a) (entries ctx false strict dependency agents overwrite)
      (entries ctx true lenient dependency agents overwrite) := by
  refine Tells.mono (Tells.mapM (R := fun a b => b.bare = a) ?_ ?_ agents)
    fun _ _ => bareEntries_of_forall₂
  · intro agent
    refine (tells_actionsOf hLevel hGrows _ _ _ _).bind ?_ fun _ => grows_pure _
    intro actions actions' hActions
    exact tells_pure (by simp [Entry.bare, hActions])
  · intro agent
    exact (grows_actionsOf hGrows _ _ _ agent).bind fun _ => grows_pure _

theorem tells_bind (hLevel : ∀ i pins, Tells Level.Alike (strict i pins) (lenient i pins))
    (hGrows : ∀ i pins, Grows (lenient i pins)) (dependency : DependencyRow)
    (overwrite : Option ResolvedDependencyInput) :
    Tells (fun a b => bareEntries b = a) (bind ctx caller false strict dependency overwrite)
      (bind ctx caller true lenient dependency overwrite) := by
  unfold bind
  refine (tells_ofExcept _).bind ?_ ?_
  · rintro agents _ rfl
    cases tooFew dependency agents with
    | some min => exact tells_throw _ _
    | none => exact tells_entries hLevel hGrows dependency _ overwrite
  · intro agents
    cases tooFew dependency agents with
    | some min => exact grows_throw _
    | none =>
        exact Grows.mapM
          (fun agent => (grows_actionsOf hGrows _ _ _ agent).bind fun _ => grows_pure _) _

/-- The refusal an assign hands on is one a dry run pays for. -/
theorem misses_orUnmet (e : BackendError) : Misses (orUnmet true e) := by
  cases e with
  | refused reason => exact misses_note_bind (grows_pure _)
  | forbidden message => exact misses_throw _
  | uniqueViolation => exact misses_throw _

theorem not_answers_orUnmet (e : BackendError) (a : List Entry × Option String) :
    ¬ Answers (orUnmet false e) a := by
  cases e with
  | refused reason => exact not_answers_throw
  | forbidden message => exact not_answers_throw
  | uniqueViolation => exact not_answers_throw

theorem tells_addDependency (hLevel : ∀ i pins, Tells Level.Alike (strict i pins) (lenient i pins))
    (hGrows : ∀ i pins, Grows (lenient i pins)) (overwrites : List ResolvedDependencyInput)
    {above above' : Level} (hAbove : Level.Alike above above') (dependency : DependencyRow) :
    Tells Level.Alike (addDependency ctx caller false strict overwrites above dependency)
      (addDependency ctx caller true lenient overwrites above' dependency) := by
  have hBind : Tells (fun a b => bareEntries b = a)
      (bind ctx caller false strict dependency (overwrites.find? (·.key = dependency.key)))
      (bind ctx caller true lenient dependency (overwrites.find? (·.key = dependency.key))) :=
    tells_bind hLevel hGrows dependency _
  have hPair : ∀ a b : List Entry, bareEntries b = a →
      Tells (fun a b : List Entry × Option String => bareEntries b.1 = a.1)
        (pure (a, none) : Resolving _) (pure (b, none)) := fun _ _ h => tells_pure h
  have hBound := hBind.bind hPair fun _ => grows_pure _
  have hGrowsBound : Grows (bind ctx caller true lenient dependency
      (overwrites.find? (·.key = dependency.key)) >>=
        fun entries => pure (entries, (none : Option String))) :=
    (grows_bind hGrows dependency _).bind fun _ => grows_pure _
  have hAnswered := hBound.tryCatch hGrowsBound not_answers_orUnmet misses_orUnmet
  refine hAnswered.bind ?_ fun _ => grows_pure _
  intro bound bound' hEntries
  apply tells_pure
  have hTree : bareTree above'.dependencies = above.dependencies := hAbove
  show bareTree (insert _ _ _) = insert _ _ _
  rw [bareTree_insert, hEntries, hTree]

theorem tells_levelWithin (left : Nat) (path : List Int) (implementation : Int)
    (overwrites : List ResolvedDependencyInput) :
    Tells Level.Alike (levelWithin ctx caller false left path implementation overwrites)
      (levelWithin ctx caller true left path implementation overwrites) := by
  induction left generalizing path implementation overwrites with
  | zero =>
      unfold levelWithin
      split <;> exact tells_throw _ _
  | succ left ih =>
      unfold levelWithin
      split
      · exact tells_throw _ _
      · apply Tells.foldlM
        · intro above above' dependency hAbove
          exact tells_addDependency (ih _) (grows_levelWithin left _) overwrites hAbove dependency
        · exact grows_addDependency (grows_levelWithin left _) overwrites
        · simp [Level.Alike, bareTree]

end Tells

/-! ## The verdict -/

theorem buildDependencyDict_eq_ok {id : Int} {overwrites : List ResolvedDependencyInput}
    {tree : Tree} : buildDependencyDict ctx id caller overwrites = .ok tree ↔
      ∃ level', ((level ctx caller false [] id overwrites).outcome 0).1 = .ok level' ∧
        level'.dependencies = tree := by
  unfold buildDependencyDict
  cases ((level ctx caller false [] id overwrites).outcome 0).1 <;> simp [Except.map]

/-- A dry run is satisfied when its caller may ask, and nothing was unmet. -/
theorem resolveDependencies_satisfied {implementation : String} {id : Int}
    (hId : parseId implementation = .ok id) {overwrites : List ResolvedDependencyInput}
    {run : DryRun} :
    (resolveDependencies ctx caller implementation overwrites = .ok run ∧ run.satisfied = true) ↔
      (∃ organization, ctx.organizationOf id = some organization ∧
        caller.organization = some organization) ∧
      ∃ level', (level ctx caller true [] id overwrites).outcome 0 = (.ok level', 0) ∧
        run = ⟨level'.dependencies, level'.notes, true⟩ := by
  unfold resolveDependencies
  cases hOrganization : ctx.organizationOf id with
  | none => simp [hId, get, Bind.bind, Except.bind, hOrganization]
  | some organization =>
      by_cases hCaller : caller.organization = some organization
      · rcases hRun : (level ctx caller true [] id overwrites).outcome 0 with ⟨e | level', unmet⟩
        · simp [hId, get, Bind.bind, Except.bind, hOrganization, hCaller, hRun]
        · simp only [hId, get, Bind.bind, Except.bind, hOrganization, hCaller, hRun]
          constructor
          · rintro ⟨hEq, hSatisfied⟩
            simp at hEq
            subst hEq
            have hNone : unmet = 0 := by simpa using hSatisfied
            simp [hNone]
          · rintro ⟨-, level'', hEq, rfl⟩
            simp at hEq
            simp [hEq]
      · simp [hId, get, Bind.bind, Except.bind, hOrganization, hCaller]

/-- **The dry run tells the truth.**  For a caller of the implementation's
organization it reports satisfied exactly when an assign would freeze a tree,
and then the two trees are equal without the notes.  A caller of another
organization is told nothing. -/
theorem dry_run_tells_the_truth (ctx : Context) (caller : CallerContext) {implementation : String}
    {id : Int} (hId : parseId implementation = .ok id)
    (overwrites : List ResolvedDependencyInput) :
    ((∃ run, resolveDependencies ctx caller implementation overwrites = .ok run ∧
        run.satisfied = true) ↔
      (∃ organization, ctx.organizationOf id = some organization ∧
        caller.organization = some organization) ∧
      ∃ tree, buildDependencyDict ctx id caller overwrites = .ok tree) ∧
    ∀ run tree, resolveDependencies ctx caller implementation overwrites = .ok run →
      run.satisfied = true → buildDependencyDict ctx id caller overwrites = .ok tree →
      bareTree run.dependencies = tree := by
  have hTells : Tells Level.Alike (level ctx caller false [] id overwrites)
      (level ctx caller true [] id overwrites) := tells_levelWithin _ _ _ _
  obtain ⟨hVerdict, hAlike⟩ := hTells.verdict
  constructor
  · constructor
    · rintro ⟨run, hRun⟩
      obtain ⟨hCaller, level', hLenient, -⟩ := (resolveDependencies_satisfied hId).1 hRun
      obtain ⟨strict, hStrict⟩ := hVerdict.1 ⟨level', hLenient⟩
      exact ⟨hCaller, strict.dependencies, buildDependencyDict_eq_ok.2 ⟨strict, hStrict, rfl⟩⟩
    · rintro ⟨hCaller, tree, hBuild⟩
      obtain ⟨strict, hStrict, -⟩ := buildDependencyDict_eq_ok.1 hBuild
      obtain ⟨level', hLenient⟩ := hVerdict.2 ⟨strict, hStrict⟩
      exact ⟨_, (resolveDependencies_satisfied hId).2 ⟨hCaller, level', hLenient, rfl⟩⟩
  · intro run tree hRun hSatisfied hBuild
    obtain ⟨-, level', hLenient, rfl⟩ := (resolveDependencies_satisfied hId).1 ⟨hRun, hSatisfied⟩
    obtain ⟨strict, hStrict, rfl⟩ := buildDependencyDict_eq_ok.1 hBuild
    exact hAlike strict level' hStrict hLenient

/-- A workflow that calls a relay, which calls a leaf. -/
def chain : Context where
  db := {
    agents := [{ id := 1, organization := 1, webhook := true },
      { id := 2, organization := 1, webhook := true },
      { id := 3, organization := 1, webhook := true }]
    actions := [{ id := 1, key := "work" }, { id := 2, key := "pass" }, { id := 3, key := "end" }]
    implementations := [{ id := 1, actionId := 1, agentId := 1 },
      { id := 2, actionId := 2, agentId := 2 }, { id := 3, actionId := 3, agentId := 3 }]
    dependencies := [
      { id := 1, implementation := 1, key := "peer", actionDemands := [{ key := some "pass" }] },
      { id := 2, implementation := 2, key := "peer", actionDemands := [{ key := some "end" }] }] }

def twoAgents : List AgentRow :=
  [{ id := 1, organization := 1, webhook := true }, { id := 2, organization := 1, webhook := true }]

theorem twoAgents_ordered : (twoAgents.map (·.id)).Pairwise (· < ·) := by decide

/-- A caller of an organization. -/
def member (organization : Int) : CallerContext := { organization := some organization }

/-- What the chain's caller pins, level by level. -/
def chainPins : List ResolvedDependencyInput :=
  [⟨"peer", [⟨"2", [⟨"peer", [⟨"3", []⟩], false⟩]⟩], false⟩]

theorem dry_run_tells_the_truth_chain :
    ((∃ run, resolveDependencies chain (member 1) "1" chainPins = .ok run ∧
        run.satisfied = true) ↔
      (∃ organization, chain.organizationOf 1 = some organization ∧
        some 1 = some organization) ∧
      ∃ tree, buildDependencyDict chain 1 (member 1) chainPins = .ok tree) ∧
    ∃ tree, buildDependencyDict chain 1 (member 1) chainPins = .ok tree ∧ tree.length = 1 :=
  ⟨(dry_run_tells_the_truth chain (member 1) (show parseId "1" = .ok 1 by decide) chainPins).1,
    [("peer", [⟨2, [("pass", ⟨2, [("peer", [⟨3, [("end", ⟨3, [], none⟩)]⟩])], none⟩)]⟩])], rfl, rfl⟩

/-- The same leaf resolves for a caller of another organization, whose dry run
is refused. -/
theorem dry_run_of_another_organization :
    ¬ ((∃ run, resolveDependencies chain (member 2) "3" [] = .ok run ∧
        run.satisfied = true) ↔
      ∃ tree, buildDependencyDict chain 3 (member 2) [] = .ok tree) := by
  intro h
  obtain ⟨run, hRun, -⟩ := h.2 ⟨[], rfl⟩
  have hRefused : resolveDependencies chain (member 2) "3" [] =
      .error (.forbidden "Implementation 3 is not in your organization.") := rfl
  rw [hRefused] at hRun
  cases hRun

end Rekuest.Backend
