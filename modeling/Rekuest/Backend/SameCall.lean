import Rekuest.Backend.Assigning

/-!
# A found call is the same call

Whenever an assign answers with an earlier task, that task should be the one the
request asks for.  What is found by reference is checked; what is found by its
place in the parent's run is checked by its call key alone, and not after a
lost race.
-/

namespace Rekuest.Backend

variable {env : Env} {existing : ExistingRow} {input : AssignInput}

/-- A text names an id: it is its decimal, or the backend reads it as the id. -/
def Names (text : String) (id : Int) : Prop := text = toString id ∨ parseId text = .ok id

/-- A task has the target a request names, as far as the request names one. -/
structure SameTarget (existing : ExistingRow) (input : AssignInput) : Prop where
  action : ∀ a, named input.action = some a → Names a existing.actionId
  actionHash : ∀ h, named input.actionHash = some h → existing.actionHash = h
  implementation : ∀ i, named input.implementation = some i →
    ∃ id, existing.implementationId = some id ∧ Names i id
  agent : ∀ a, named input.agent = some a → Names a existing.agentId
  interface : ∀ i, named input.interface = some i → existing.interface = some i
  dependency : ∀ d, named input.dependency = some d →
    existing.dependency = some d ∧ existing.dependencyMethod = input.method

/-- A task is the one a request asks for: of the same target and, found by its
reference, with the same arguments. -/
def IsSame (env : Env) (existing : ExistingRow) (input : AssignInput) : Prop :=
  SameTarget existing input ∧
    (existing.byReference = true → existing.argsHash = some (env.argsHash input.args))

/-- The law of one request and one task that is found for it, on both paths. -/
structure FoundIsSame (env : Env) (existing : ExistingRow) (input : AssignInput) : Prop where
  fast : ∀ a, fastAnswer env input existing = .ok a → IsSame env existing input
  race : ∀ a, raceAnswer env input existing = .ok a → IsSame env existing input
  alike : (fastAnswer env input existing).toOption = (raceAnswer env input existing).toOption

/-- When the code keeps the law.  Found by reference: the arguments of the task
are on record, unless its target refuses the request anyway, and where the
reference check lets the request pass so does the call key's.  Found by its
place in the run: the request names the task's target, to the call key's check
as well. -/
structure FoundSoundly (env : Env) (existing : ExistingRow) (input : AssignInput) : Prop where
  recorded : existing.byReference = true → existing.argsHash = none →
    anotherTarget existing input = true
  keyed : existing.byReference = true → anotherTarget existing input = false →
    otherArgs env existing input = false → checkItIsTheSameCall existing input = .ok ()
  placed : existing.byReference = false →
    SameTarget existing input ∧ checkItIsTheSameCall existing input = .ok ()

theorem named_eq_some {given : Option String} {text : String} (h : named given = some text) :
    given = some text := by
  unfold named at h
  exact (Option.filter_eq_some_iff.1 h).1

/-- What the reference check lets pass has the same target. -/
theorem sameTarget_of_check (h : anotherTarget existing input = false) :
    SameTarget existing input := by
  unfold anotherTarget at h
  simp only [Bool.or_eq_false_iff] at h
  obtain ⟨⟨⟨⟨⟨hAction, hHash⟩, hImplementation⟩, hAgent⟩, hInterface⟩, hDependency⟩ := h
  constructor
  · intro a ha
    rw [ha] at hAction
    have hEq : toString existing.actionId = a := by simpa using hAction
    exact .inl hEq.symm
  · intro hash hh
    rw [hh] at hHash
    simpa using hHash
  · intro i hi
    rw [hi] at hImplementation
    cases hRow : existing.implementationId with
    | none => simp [hRow] at hImplementation
    | some id =>
        have hEq : toString id = i := by simpa [hRow] using hImplementation
        exact ⟨id, rfl, .inl hEq.symm⟩
  · intro a ha
    rw [ha] at hAgent
    have hEq : toString existing.agentId = a := by simpa using hAgent
    exact .inl hEq.symm
  · intro i hi
    rw [hi] at hInterface
    simpa using hInterface
  · intro d hd
    have hGiven := named_eq_some hd
    rw [hd] at hDependency
    have hPair : existing.dependency = input.dependency ∧
        existing.dependencyMethod = input.method := by simpa using hDependency
    exact ⟨hPair.1.trans hGiven, hPair.2⟩

/-! ## The two answers -/

theorem checkTheReference_of_place (h : existing.byReference = false) :
    checkTheReferenceNamesTheSameAssign env existing input = .ok () := by
  simp [checkTheReferenceNamesTheSameAssign, h]

theorem checkTheReference_ok_iff (env : Env) (h : existing.byReference = true) :
    checkTheReferenceNamesTheSameAssign env existing input = .ok () ↔
      anotherTarget existing input = false ∧ otherArgs env existing input = false := by
  unfold checkTheReferenceNamesTheSameAssign
  cases anotherTarget existing input <;> cases otherArgs env existing input <;> simp [h]

theorem raceAnswer_ok_iff {a : Assigned} :
    raceAnswer env input existing = .ok a ↔
      checkTheReferenceNamesTheSameAssign env existing input = .ok () ∧ existing.answer = a := by
  unfold raceAnswer
  cases checkTheReferenceNamesTheSameAssign env existing input with
  | error e => simp [Bind.bind, Except.bind]
  | ok checked => simp [Bind.bind, Except.bind, Pure.pure, Except.pure]

theorem fastAnswer_ok_iff {a : Assigned} :
    fastAnswer env input existing = .ok a ↔
      checkItIsTheSameCall existing input = .ok () ∧ raceAnswer env input existing = .ok a := by
  unfold fastAnswer raceAnswer
  cases checkItIsTheSameCall existing input with
  | error e => simp [Bind.bind, Except.bind]
  | ok checked => simp [Bind.bind, Except.bind]

theorem toOption_eq_iff {r s : BackendResult Assigned} :
    r.toOption = s.toOption ↔ ∀ a, r = .ok a ↔ s = .ok a := by
  cases r with
  | error e => cases s <;> simp [Except.toOption]
  | ok a =>
      cases s with
      | error e => simp [Except.toOption]
      | ok b =>
          simp only [Except.toOption, Option.some.injEq, Except.ok.injEq]
          constructor
          · rintro rfl a
            rfl
          · intro h
            exact ((h a).1 rfl).symm

/-- Where the arguments are on record, what the reference check lets pass is the
same assign. -/
theorem isSame_of_check (hReference : existing.byReference = true)
    (hRecorded : existing.argsHash = none → anotherTarget existing input = true)
    (h : checkTheReferenceNamesTheSameAssign env existing input = .ok ()) :
    IsSame env existing input := by
  obtain ⟨hTarget, hArgs⟩ := (checkTheReference_ok_iff env hReference).1 h
  refine ⟨sameTarget_of_check hTarget, fun _ => ?_⟩
  cases hHash : existing.argsHash with
  | none =>
      rw [hRecorded hHash] at hTarget
      cases hTarget
  | some hash =>
      have hEq : hash = env.argsHash input.args := by
        simpa [otherArgs, hHash] using hArgs
      rw [hEq]

theorem foundIsSame_of_soundly (h : FoundSoundly env existing input) :
    FoundIsSame env existing input := by
  have hRace : ∀ a, raceAnswer env input existing = .ok a → IsSame env existing input := by
    intro a hAnswer
    have hCheck := (raceAnswer_ok_iff.1 hAnswer).1
    cases hReference : existing.byReference with
    | false =>
        refine ⟨(h.placed hReference).1, fun hTrue => ?_⟩
        rw [hReference] at hTrue
        cases hTrue
    | true => exact isSame_of_check hReference (h.recorded hReference) hCheck
  refine ⟨fun a hAnswer => hRace a (fastAnswer_ok_iff.1 hAnswer).2, hRace, ?_⟩
  apply toOption_eq_iff.2
  intro a
  constructor
  · intro hAnswer
    exact (fastAnswer_ok_iff.1 hAnswer).2
  · intro hAnswer
    refine fastAnswer_ok_iff.2 ⟨?_, hAnswer⟩
    cases hReference : existing.byReference with
    | false => exact (h.placed hReference).2
    | true =>
        have hCheck := (checkTheReference_ok_iff env hReference).1 (raceAnswer_ok_iff.1 hAnswer).1
        exact h.keyed hReference hCheck.1 hCheck.2

theorem foundSoundly_of_same (h : FoundIsSame env existing input) :
    FoundSoundly env existing input := by
  have hAlike := toOption_eq_iff.1 h.alike
  constructor
  · intro hReference hNone
    cases hTarget : anotherTarget existing input with
    | true => rfl
    | false =>
        -- Nothing is on record that the arguments could differ from.
        have hCheck := (checkTheReference_ok_iff env hReference).2
          ⟨hTarget, by simp [otherArgs, hNone]⟩
        have hSame := h.race _ (raceAnswer_ok_iff.2 ⟨hCheck, rfl⟩)
        rw [hSame.2 hReference] at hNone
        cases hNone
  · intro hReference hTarget hArgs
    have hCheck := (checkTheReference_ok_iff env hReference).2 ⟨hTarget, hArgs⟩
    exact (fastAnswer_ok_iff.1 ((hAlike _).2 (raceAnswer_ok_iff.2 ⟨hCheck, rfl⟩))).1
  · intro hReference
    have hAnswer : raceAnswer env input existing = .ok existing.answer :=
      raceAnswer_ok_iff.2 ⟨checkTheReference_of_place hReference, rfl⟩
    exact ⟨(h.race _ hAnswer).1, (fastAnswer_ok_iff.1 ((hAlike _).2 hAnswer)).1⟩

/-! ## Where an answer comes from -/

theorem lostReferenceRace_ok {db : Database} {caller : Int} {reference : String} {a : Assigned}
    (h : lostReferenceRace env db caller input reference = .ok a) :
    ∃ existing, existingAssign db caller input (some reference) = .ok (some existing) ∧
      raceAnswer env input existing = .ok a := by
  unfold lostReferenceRace at h
  cases hFound : existingAssign db caller input (some reference) with
  | error e => simp [hFound, Bind.bind, Except.bind] at h
  | ok found =>
      cases found with
      | none => simp [hFound, Bind.bind, Except.bind] at h
      | some existing => exact ⟨existing, rfl, by simpa [hFound, Bind.bind, Except.bind] using h⟩

/-- An answer that nothing was created is one of the two, to a task found in the
database as it was at the lookup or at the insert. -/
def AnswersFound (env : Env) (others : Database → Database) (principal : CallerContext)
    (input : AssignInput) (w : World) (a : Assigned) : Prop :=
  ∃ organization db caller reference existing,
    (caller, db) = getCaller w.db principal organization ∧
    ((existingAssign db caller input reference = .ok (some existing) ∧
        fastAnswer env input existing = .ok a) ∨
      (existingAssign (others db) caller input reference = .ok (some existing) ∧
        raceAnswer env input existing = .ok a))

theorem found_of_assignMain {others : Database → Database} {principal : CallerContext} {w : World}
    {a : Assigned} (h : (assignMain env others principal input w).answer = .ok a)
    (hCreated : a.created = false) : AnswersFound env others principal input w a := by
  have hWent := assignMain_went env others principal input w
  generalize assignMain env others principal input w = outcome at h hWent
  cases hWent with
  | refused e _ => cases h
  | @found organization caller db existing hCaller hFound =>
      exact ⟨organization, db, caller, _, existing, hCaller.symm, .inl ⟨hFound, h⟩⟩
  | @plain organization caller db _ new _ _ _ answer world hCaller _ _ hAssign =>
      unfold assignPlain at hAssign
      split at hAssign
      · cases hAssign
        obtain ⟨existing, hFound, hRace⟩ := lostReferenceRace_ok h
        exact ⟨organization, db, caller, _, existing, hCaller.symm, .inr ⟨hFound, hRace⟩⟩
      · split at hAssign
        · cases hAssign
          cases h
        · cases hAssign
          cases h
          cases hCreated
  | @wrapper organization caller db _ new _ _ _ _ answer world hCaller _ _ hAssign =>
      unfold assignHigherOrder at hAssign
      split at hAssign
      · cases hAssign
        obtain ⟨existing, hFound, hRace⟩ := lostReferenceRace_ok h
        exact ⟨organization, db, caller, _, existing, hCaller.symm, .inr ⟨hFound, hRace⟩⟩
      · dsimp only at hAssign
        split at hAssign
        · cases hAssign
          cases h
        · split at hAssign
          · cases hAssign
            cases h
          · cases hAssign
            cases h
            cases hCreated

/-- The answer of an assign is the one it comes to before its hooks. -/
theorem assignMain_of_assign {others : Database → Database} {principal : CallerContext}
    {w w' : World} {a : Assigned}
    (h : assignWithStatus env others principal input w = (.ok a, w')) :
    (assignMain env others principal input w).answer = .ok a := by
  unfold assignWithStatus at h
  cases hAnswer : (assignMain env others principal input w).answer with
  | error e => simp [hAnswer] at h
  | ok assigned =>
      simp only [hAnswer] at h
      split at h
      · split at h
        · cases h
        · cases h
          rfl
      · cases h
        rfl

/-- A server whose checks and policies refuse nothing. -/
def quiet : Env where
  uuid n := "uuid-" ++ toString n
  argsHash args := String.join (args.map (·.1))
  availableImplementation db action _ _ :=
    match db.registry.implementations.find? (·.actionId = action.id) with
    | some row => .ok row
    | none => .error (.refused ("No active implementation found for action " ++ action.key))
  validateArgs _ _ _ := .ok ()
  checkStates _ _ _ := .ok ()
  lowerArgs _ args := .ok args
  lowerDependencies _ tree := .ok tree
  mint _ _ _ := .ok none
  delivers _ _ := true
  uuid_nonempty n h := by
    have hLength := congrArg String.length h
    simp at hLength
  available_action h := by
    split at h
    · next hFound =>
        cases h
        simpa using List.find?_some hFound
    · cases h
  available_exists h := by
    split at h
    · next hFound =>
        cases h
        exact List.mem_of_find?_eq_some hFound
    · cases h

/-- Two agents with an action each. -/
def pair : Registry where
  agents := twoAgents
  agents_ordered := twoAgents_ordered
  actions := [{ id := 1, key := "work", hash := "w" }, { id := 2, key := "pass", hash := "p" }]
  implementations := [{ id := 1, interface := "work", actionId := 1, agentId := 1 },
    { id := 2, interface := "pass", actionId := 2, agentId := 2 }]
  dependencies := []

/-- The user of the pair's first agent. -/
def anna : CallerContext where
  organization := some 1
  organizationIdentifier := some "lab"
  user := 1
  userSub := "anna"
  client := 1

/-- A run on the first agent. -/
def running : TaskRow :=
  ({ action := 1, reference := "run", agent := 1, implementation := 1, caller := 1,
     policy := .auto } : NewTask).row quiet 1

/-- The run's first call, to the first action. -/
def firstCall : TaskRow :=
  ({ action := 1, reference := "call", parent := some 1, parentStep := some 1,
     callKey := some "k", root := some 1, agent := 1, implementation := 1,
     caller := 1 } : NewTask).row quiet 2

def beforeTheCall : World where
  db := {
    registry := pair
    users := [(1, "anna")]
    organizations := [(1, "lab")]
    callers := [⟨1, 1, 1, 1⟩]
    tasks := [running]
    nextTask := 2
    nextCaller := 2 }

/-- The database once another backend created the first call. -/
def withTheCall (db : Database) : Database :=
  { db with tasks := db.tasks ++ [firstCall], nextTask := 3 }

/-- A call of another action at the same step. -/
def otherAtStep : AssignInput :=
  { action := some "2", parent := some "1", parentStep := some 1 }

/-- A call of another agent under the same key. -/
def otherAgent : AssignInput :=
  { agent := some "2", interface := some "pass", parent := some "1", callKey := some "k" }

/-- A call of another action under the same key. -/
def otherAtKey : AssignInput :=
  { action := some "2", parent := some "1", callKey := some "k" }

end Rekuest.Backend
