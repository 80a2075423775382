import Rekuest.Backend.Admission

/-!
# What an assign creates

One assign with nobody else at work: either it is not accepted and changes no
task and sends nothing, or it adds the task it answers with, for a higher-order
assign with its lower child, and nothing else.
-/

namespace Rekuest.Backend

variable {env : Env} {principal : CallerContext} {input : AssignInput} {w : World}

/-- A row without what its dispatch records. -/
def TaskRow.core (t : TaskRow) : TaskRow := { t with dispatched := false }

/-- Whether the transaction of a prepared assign commits: no unique constraint is
against it and provenance grants a token. -/
def commits (env : Env) (db : Database) (principal : CallerContext) : Prepared → Bool
  | .plain new _ implementation _ =>
      match insertTask env db new with
      | none => false
      | some (task, db) =>
          (env.mint db ⟨toString task, new.parent, implementation.id, implementation.agentId,
            new.args⟩ principal).isOk
  | .wrapper new child lower _ _ =>
      match insertTask env db new with
      | none => false
      | some (higherTask, db) =>
          let child := { child with
            parent := some higherTask
            root := some (new.root.getD higherTask) }
          match insertTask env db child with
          | none => false
          | some (lowerTask, db) =>
              (env.mint db ⟨toString lowerTask, some higherTask, lower.id, lower.agentId,
                child.args⟩ principal).isOk

/-- Whether a request is accepted as a new task, and as which: no earlier task
is found for it, it passes the checks, and its transaction commits. -/
def accepts (env : Env) (principal : CallerContext) (input : AssignInput) (w : World) :
    Option Prepared :=
  match principal.organization with
  | none => none
  | some organization =>
  match resolutionOf w.db input with
  | .error _ => none
  | .ok resolution =>
      let (caller, db) := getCaller w.db principal organization
      match existingAssign db caller input input.givenReference with
      | .ok none =>
          match prepare env db principal input organization caller resolution w.uuids with
          | .ok prepared => if commits env db principal prepared then some prepared else none
          | .error _ => none
      | _ => none

/-! ## Callers, inserts and dispatches -/

theorem getCaller_spec {db db' : Database} {organization caller : Int}
    (h : getCaller db principal organization = (caller, db')) :
    db' = { db with callers := db'.callers, nextCaller := db'.nextCaller } ∧
      ∀ later : Database, later.callers = db'.callers →
        getCaller later principal organization = (caller, later) := by
  unfold getCaller at h
  split at h
  · next row hFound =>
      cases h
      refine ⟨rfl, ?_⟩
      intro later hCallers
      simp only [getCaller, hCallers, hFound]
  · next hNone =>
      cases h
      refine ⟨rfl, ?_⟩
      intro later hCallers
      simp [getCaller, hCallers, List.find?_append, hNone]

theorem insertTask_eq_some {db db' : Database} {new : NewTask} {id : Int}
    (h : insertTask env db new = some (id, db')) :
    id = db.nextTask ∧ db' = { db with
      tasks := db.tasks ++ [new.row env db.nextTask], nextTask := db.nextTask + 1 } := by
  unfold insertTask at h
  dsimp only at h
  split at h
  · cases h
  · cases h
    exact ⟨rfl, rfl⟩

theorem dispatch_core (env : Env) (task agent : Int) (assign : Assign) (w : World) :
    (dispatch env task agent assign w).db.tasks.map TaskRow.core = w.db.tasks.map TaskRow.core := by
  unfold dispatch
  split
  · rfl
  · simp only [List.map_map]
    apply List.map_congr_left
    intro t _
    simp only [Function.comp_apply]
    split <;> rfl

theorem dispatch_db (env : Env) (task agent : Int) (assign : Assign) (w : World) :
    (dispatch env task agent assign w).db =
      { w.db with tasks := (dispatch env task agent assign w).db.tasks } := by
  unfold dispatch
  split <;> rfl

/-! ## What one assign does -/

/-- Nothing was created and nothing sent. -/
structure Idle (w : World) (outcome : Outcome) : Prop where
  tasks : outcome.world.db.tasks = w.db.tasks
  nextTask : outcome.world.db.nextTask = w.db.nextTask
  registry : outcome.world.db.registry = w.db.registry
  pushed : outcome.world.pushed = w.pushed
  runsHooks : outcome.runsHooks = false
  notCreated : ∀ a, outcome.answer = .ok a → a.created = false

/-- A task was created, with the rows it brings. -/
structure Makes (env : Env) (principal : CallerContext) (w : World) (new : NewTask)
    (brought : List TaskRow) (outcome : Outcome) : Prop where
  answer : outcome.answer = .ok ⟨w.db.nextTask, new.reference, true⟩
  tasks : outcome.world.db.tasks.map TaskRow.core =
    (w.db.tasks ++ new.row env w.db.nextTask :: brought).map TaskRow.core
  nextTask : outcome.world.db.nextTask = w.db.nextTask + 1 + brought.length
  registry : outcome.world.db.registry = w.db.registry
  caller : ∃ organization, principal.organization = some organization ∧
    new.caller = (getCaller w.db principal organization).1 ∧
    outcome.world.db.callers = (getCaller w.db principal organization).2.callers

/-- What holds of the task a request is made into. -/
structure MadeFrom (env : Env) (input : AssignInput) (w : World) (new : NewTask) : Prop where
  reference : new.reference = input.givenReference.getD (env.uuid w.uuids)
  parent : parseParent input = .ok new.parent
  parentExists : ∀ p, new.parent = some p → ∃ row, w.db.task p = some row
  higher : new.isHigherOrderChild = false
  action : ∃ action, w.db.registry.action new.action = some action ∧
    (input.dependency = none → input.action = none → input.implementation = none →
      input.agent = none → ∀ hash, input.actionHash = some hash → action.hash = hash)

/-- What an assign may have done. -/
inductive Did (env : Env) (principal : CallerContext) (input : AssignInput) (w : World) :
    Outcome → Prop
  | nothing {outcome : Outcome} (hAccepts : accepts env principal input w = none)
      (hIdle : Idle w outcome) : Did env principal input w outcome
  | plain {new : NewTask} {action : ActionRow} {implementation : ImplementationRow}
      {goesOut : Bool} {outcome : Outcome}
      (hAccepts : accepts env principal input w = some (.plain new action implementation goesOut))
      (hMakes : Makes env principal w new [] outcome) (hFrom : MadeFrom env input w new)
      (hRuns : outcome.runsHooks = goesOut)
      (hWaits : goesOut = false → input.hooks.getD [] = []) : Did env principal input w outcome
  | wrapper {new child : NewTask} {lower : ImplementationRow} {lowerAction : ActionRow}
      {held : Bool} {outcome : Outcome} {row : TaskRow}
      (hAccepts : accepts env principal input w = some (.wrapper new child lower lowerAction held))
      (hMakes : Makes env principal w new [row] outcome) (hFrom : MadeFrom env input w new)
      (hRuns : outcome.runsHooks = false) (hLower : row.isHigherOrderChild = true)
      (hId : row.id = w.db.nextTask + 1) (hParent : row.parent = some w.db.nextTask) :
      Did env principal input w outcome

theorem lostReferenceRace_notCreated {db : Database} {caller : Int} {reference : String}
    {a : Assigned} (h : lostReferenceRace env db caller input reference = .ok a) :
    a.created = false := by
  unfold lostReferenceRace at h
  obtain ⟨found, -, h⟩ := bind_eq_ok.1 h
  cases found with
  | none => cases h
  | some winner =>
      unfold raceAnswer at h
      obtain ⟨_, -, h⟩ := bind_eq_ok.1 h
      cases pure_eq_ok.1 h
      rfl

theorem fastAnswer_notCreated {existing : ExistingRow} {a : Assigned}
    (h : fastAnswer env input existing = .ok a) : a.created = false := by
  unfold fastAnswer at h
  obtain ⟨_, -, h⟩ := bind_eq_ok.1 h
  obtain ⟨_, -, h⟩ := bind_eq_ok.1 h
  cases pure_eq_ok.1 h
  rfl

/-- A world whose callers may have grown is idle with an answer that creates
nothing. -/
theorem idle_of_answer {db : Database} {uuids : Nat} {answer : BackendResult Assigned}
    (hDb : db = { w.db with callers := db.callers, nextCaller := db.nextCaller })
    (hAnswer : ∀ a, answer = .ok a → a.created = false) :
    Idle w { answer := answer, world := { w with db := db, uuids := uuids } } := by
  have hTasks : db.tasks = w.db.tasks := by rw [hDb]
  have hNext : db.nextTask = w.db.nextTask := by rw [hDb]
  have hRegistry : db.registry = w.db.registry := by rw [hDb]
  exact ⟨hTasks, hNext, hRegistry, rfl, rfl, hAnswer⟩

/-! ## The transactions -/

/-- A world with more rows, up to what dispatches record. -/
structure Adds (w : World) (rows : List TaskRow) (world : World) : Prop where
  tasks : world.db.tasks.map TaskRow.core = (w.db.tasks ++ rows).map TaskRow.core
  rest : world.db =
    { w.db with tasks := world.db.tasks, nextTask := w.db.nextTask + rows.length }

theorem Adds.dispatch {rows : List TaskRow} {world : World} (h : Adds w rows world)
    (env : Env) (task agent : Int) (assign : Assign) :
    Adds w rows (dispatch env task agent assign world) := by
  constructor
  · rw [dispatch_core]
    exact h.tasks
  · have hDb := dispatch_db env task agent assign world
    have hRest := h.rest
    rw [hDb]
    rw [hRest]

/-- The transaction of an agent's task, where it commits. -/
theorem assignPlain_commits (input : AssignInput) (caller : Int) (w : World) {new : NewTask} {action : ActionRow}
    {implementation : ImplementationRow} {goesOut : Bool}
    (h : commits env w.db principal (.plain new action implementation goesOut) = true) :
    ∃ world, assignPlain env principal input caller new action implementation goesOut w =
        (.ok ⟨w.db.nextTask, new.reference, true⟩, world) ∧
      Adds w [new.row env w.db.nextTask] world := by
  unfold commits at h
  unfold assignPlain
  dsimp only at h
  cases hInsert : insertTask env w.db new with
  | none => simp [hInsert] at h
  | some inserted =>
      obtain ⟨task, db⟩ := inserted
      obtain ⟨hTask, hDb⟩ := insertTask_eq_some hInsert
      simp only [hInsert] at h
      dsimp only
      cases hMint : env.mint db ⟨toString task, new.parent, implementation.id,
          implementation.agentId, new.args⟩ principal with
      | error reason =>
          rw [hMint] at h
          cases h
      | ok token =>
          dsimp only
          have hAdds : Adds w [new.row env w.db.nextTask] { w with db := db } := by
            rw [hDb]
            exact ⟨rfl, rfl⟩
          refine ⟨_, by rw [hTask], ?_⟩
          split
          · exact hAdds.dispatch ..
          · exact hAdds

/-- The transaction of an agent's task, where it does not commit. -/
theorem assignPlain_fails (input : AssignInput) (caller : Int) (w : World) {new : NewTask} {action : ActionRow}
    {implementation : ImplementationRow} {goesOut : Bool}
    (h : commits env w.db principal (.plain new action implementation goesOut) = false) :
    ∃ answer, assignPlain env principal input caller new action implementation goesOut w =
        (answer, w) ∧ ∀ a, answer = .ok a → a.created = false := by
  unfold commits at h
  unfold assignPlain
  dsimp only at h
  cases hInsert : insertTask env w.db new with
  | none => exact ⟨_, rfl, fun a ha => lostReferenceRace_notCreated ha⟩
  | some inserted =>
      obtain ⟨task, db⟩ := inserted
      simp only [hInsert] at h
      dsimp only
      cases hMint : env.mint db ⟨toString task, new.parent, implementation.id,
          implementation.agentId, new.args⟩ principal with
      | error reason => exact ⟨_, rfl, fun a ha => by cases ha⟩
      | ok token =>
          rw [hMint] at h
          cases h

/-- The transaction of a wrapper and its child, where it commits. -/
theorem assignHigherOrder_commits (input : AssignInput) (caller : Int) (w : World) {new child : NewTask}
    {lower : ImplementationRow} {lowerAction : ActionRow} {held : Bool}
    (h : commits env w.db principal (.wrapper new child lower lowerAction held) = true) :
    ∃ world, assignHigherOrder env principal input caller new child lower lowerAction held w =
        (.ok ⟨w.db.nextTask, new.reference, true⟩, world) ∧
      Adds w [new.row env w.db.nextTask,
        { child with
          parent := some w.db.nextTask
          root := some (new.root.getD w.db.nextTask) }.row env (w.db.nextTask + 1)] world := by
  unfold commits at h
  unfold assignHigherOrder
  dsimp only at h
  cases hInsert : insertTask env w.db new with
  | none => simp [hInsert] at h
  | some inserted =>
      obtain ⟨higherTask, db⟩ := inserted
      obtain ⟨rfl, hDb⟩ := insertTask_eq_some hInsert
      simp only [hInsert] at h
      dsimp only
      cases hLower : insertTask env db { child with
          parent := some w.db.nextTask
          root := some (new.root.getD w.db.nextTask) } with
      | none => simp [hLower] at h
      | some inserted =>
          obtain ⟨lowerTask, lowerDb⟩ := inserted
          obtain ⟨hLowerTask, hLowerDb⟩ := insertTask_eq_some hLower
          simp only [hLower] at h
          dsimp only
          cases hMint : env.mint lowerDb ⟨toString lowerTask, some w.db.nextTask, lower.id,
              lower.agentId, child.args⟩ principal with
          | error reason =>
              rw [hMint] at h
              cases h
          | ok token =>
              dsimp only
              have hAdds : Adds w [new.row env w.db.nextTask,
                  { child with
                    parent := some w.db.nextTask
                    root := some (new.root.getD w.db.nextTask) }.row env (w.db.nextTask + 1)]
                  { w with db := lowerDb } := by
                rw [hLowerDb, hDb]
                constructor
                · simp
                · simp [Int.add_assoc]
              refine ⟨_, rfl, ?_⟩
              split
              · exact hAdds
              · exact hAdds.dispatch ..

/-- The transaction of a wrapper and its child, where it does not commit. -/
theorem assignHigherOrder_fails (input : AssignInput) (caller : Int) (w : World) {new child : NewTask}
    {lower : ImplementationRow} {lowerAction : ActionRow} {held : Bool}
    (h : commits env w.db principal (.wrapper new child lower lowerAction held) = false) :
    ∃ answer, assignHigherOrder env principal input caller new child lower lowerAction held w =
        (answer, w) ∧ ∀ a, answer = .ok a → a.created = false := by
  unfold commits at h
  unfold assignHigherOrder
  dsimp only at h
  cases hInsert : insertTask env w.db new with
  | none => exact ⟨_, rfl, fun a ha => lostReferenceRace_notCreated ha⟩
  | some inserted =>
      obtain ⟨higherTask, db⟩ := inserted
      simp only [hInsert] at h
      dsimp only
      cases hLower : insertTask env db { child with
          parent := some higherTask
          root := some (new.root.getD higherTask) } with
      | none => exact ⟨_, rfl, fun a ha => by cases ha⟩
      | some inserted =>
          obtain ⟨lowerTask, lowerDb⟩ := inserted
          simp only [hLower] at h
          dsimp only
          cases hMint : env.mint lowerDb ⟨toString lowerTask, some higherTask, lower.id,
              lower.agentId, child.args⟩ principal with
          | error reason => exact ⟨_, rfl, fun a ha => by cases ha⟩
          | ok token =>
              rw [hMint] at h
              cases h

/-! ## The assign -/

theorem makes_of_adds {organization : Int} {db : Database} {uuids : Nat} {new : NewTask}
    {brought : List TaskRow} {outcome : Outcome}
    (hOrganization : principal.organization = some organization)
    (hCaller : getCaller w.db principal organization = (new.caller, db))
    (hAnswer : outcome.answer = .ok ⟨w.db.nextTask, new.reference, true⟩)
    (h : Adds { w with db := db, uuids := uuids }
      (new.row env w.db.nextTask :: brought) outcome.world) :
    Makes env principal w new brought outcome := by
  obtain ⟨hDb, -⟩ := getCaller_spec hCaller
  have hTasks : db.tasks = w.db.tasks := by rw [hDb]
  have hNext : db.nextTask = w.db.nextTask := by rw [hDb]
  have hRegistry : db.registry = w.db.registry := by rw [hDb]
  constructor
  · exact hAnswer
  · rw [h.tasks]
    dsimp only
    rw [hTasks]
  · rw [h.rest]
    dsimp only
    rw [hNext, List.length_cons]
    omega
  · rw [h.rest]
    exact hRegistry
  · refine ⟨organization, hOrganization, by rw [hCaller], ?_⟩
    rw [h.rest, hCaller]

theorem madeFrom_of_admits {db : Database} {a : Admitted} {new : NewTask}
    (h : Admits db input a) (hTasks : db.tasks = w.db.tasks)
    (hRegistry : db.registry = w.db.registry)
    (hReference : new.reference = input.givenReference.getD (env.uuid w.uuids))
    (hParent : new.parent = a.parent) (hHigher : new.isHigherOrderChild = false)
    (hAction : new.action = a.action.id) : MadeFrom env input w new := by
  constructor
  · exact hReference
  · rw [hParent]
    exact h.parent
  · intro p hp
    rw [hParent] at hp
    obtain ⟨row, hRow⟩ := h.parentExists p hp
    unfold Database.task at hRow ⊢
    rw [hTasks] at hRow
    exact ⟨row, hRow⟩
  · exact hHigher
  · rw [hAction, ← hRegistry]
    exact ⟨a.action, h.onRecord.actionRow, h.byHash⟩

/-- Every assign with nobody else at work does nothing or creates its task, and
which of the two is decided by its checks. -/
theorem assignMain_did (env : Env) (principal : CallerContext) (input : AssignInput) (w : World) :
    Did env principal input w (assignMain env id principal input w) := by
  unfold assignMain
  cases hOrganization : principal.organization with
  | none =>
      refine .nothing (by simp [accepts, hOrganization]) ⟨rfl, rfl, rfl, rfl, rfl, ?_⟩
      intro a ha
      cases ha
  | some organization =>
  dsimp only
  cases hResolution : resolutionOf w.db input with
  | error e =>
      refine .nothing (by simp [accepts, hOrganization, hResolution]) ⟨rfl, rfl, rfl, rfl, rfl, ?_⟩
      intro a ha
      cases ha
  | ok resolution =>
  rcases hCaller : getCaller w.db principal organization with ⟨caller, db⟩
  obtain ⟨hDb, -⟩ := getCaller_spec hCaller
  have hTasks : db.tasks = w.db.tasks := by rw [hDb]
  have hNext : db.nextTask = w.db.nextTask := by rw [hDb]
  have hRegistry : db.registry = w.db.registry := by rw [hDb]
  dsimp only
  cases hFound : existingAssign db caller input input.givenReference with
  | error e =>
      refine .nothing (by simp [accepts, hOrganization, hResolution, hCaller, hFound]) ?_
      exact idle_of_answer hDb (fun a ha => by cases ha)
  | ok found =>
  cases found with
  | some existing =>
      refine .nothing (by simp [accepts, hOrganization, hResolution, hCaller, hFound]) ?_
      exact idle_of_answer hDb (fun a ha => fastAnswer_notCreated ha)
  | none =>
  dsimp only
  cases hPrepared : prepare env db principal input organization caller resolution w.uuids with
  | error e =>
      refine .nothing (by simp [accepts, hOrganization, hResolution, hCaller, hFound, hPrepared]) ?_
      exact idle_of_answer hDb (fun a ha => by cases ha)
  | ok prepared =>
  cases hCommits : commits env db principal prepared with
  | false =>
      refine .nothing (by simp [accepts, hOrganization, hResolution, hCaller, hFound, hPrepared,
        hCommits]) ?_
      cases prepared with
      | plain new action implementation goesOut =>
          obtain ⟨answer, hAnswer, hNot⟩ := assignPlain_fails input caller
            { w with db := db, uuids := w.uuids + 2 } hCommits
          dsimp only [id]
          rw [hAnswer]
          have hIdle : Idle w ⟨answer, { w with db := db, uuids := w.uuids + 2 }, false⟩ :=
            idle_of_answer hDb hNot
          refine ⟨hIdle.tasks, hIdle.nextTask, hIdle.registry, rfl, ?_, hNot⟩
          cases answer with
          | error e => simp [Except.toOption]
          | ok a => simp [Except.toOption, hNot a rfl]
      | wrapper new child lower lowerAction held =>
          obtain ⟨answer, hAnswer, hNot⟩ := assignHigherOrder_fails input caller
            { w with db := db, uuids := w.uuids + 2 } hCommits
          dsimp only [id]
          rw [hAnswer]
          exact idle_of_answer hDb hNot
  | true =>
      have hAccepts : accepts env principal input w = some prepared := by
        simp [accepts, hOrganization, hResolution, hCaller, hFound, hPrepared, hCommits]
      cases prepared with
      | plain new action implementation goesOut =>
          obtain ⟨world, hAnswer, hAdds⟩ := assignPlain_commits input caller
            { w with db := db, uuids := w.uuids + 2 } hCommits
          obtain ⟨a, dependencies, hAdmits, rfl, rfl, rfl, rfl⟩ := prepare_plain hPrepared
          dsimp only [id]
          rw [hAnswer]
          dsimp only at hAdds ⊢
          rw [hNext] at hAdds ⊢
          refine .plain hAccepts (makes_of_adds hOrganization hCaller rfl hAdds)
            (madeFrom_of_admits hAdmits hTasks hRegistry rfl rfl rfl rfl) ?_ hAdmits.hooks
          simp [Except.toOption]
      | wrapper new child lower lowerAction held =>
          obtain ⟨world, hAnswer, hAdds⟩ := assignHigherOrder_commits input caller
            { w with db := db, uuids := w.uuids + 2 } hCommits
          obtain ⟨a, dependencies, lowerArgs, lowerDependencies, hAdmits, rfl, rfl, -, rfl, -⟩ :=
            prepare_wrapper hPrepared
          dsimp only [id]
          rw [hAnswer]
          dsimp only at hAdds ⊢
          rw [hNext] at hAdds ⊢
          exact .wrapper hAccepts (makes_of_adds hOrganization hCaller rfl hAdds)
            (madeFrom_of_admits hAdmits hTasks hRegistry rfl rfl rfl rfl) rfl rfl rfl rfl

end Rekuest.Backend
