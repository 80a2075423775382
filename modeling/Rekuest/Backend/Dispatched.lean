import Rekuest.Backend.Lasting

/-!
# Every dispatch says the same

The Assign of a task is built from the request in memory or from its row.  What
is sent again lacks the answer the task was approved with; the rest agrees in
every dispatch.
-/

namespace Rekuest.Backend

open Concurrent

variable {env : Env} {db db' : Database} {s s' : Server}

/-! ## The law -/

/-- The law of a server's dispatches: any two of a task agree, and they carry the
answer of every decision that approved it. -/
structure SaysTheSame (s : Server) : Prop where
  agree : ∀ p ∈ s.world.pushed, ∀ q ∈ s.world.pushed, p.task = q.task →
    p.assign.alike = q.assign.alike
  answered : ∀ p ∈ s.world.pushed, ∀ a ∈ s.approved, a.1 = p.task → p.assign.message = a.2

/-- When a step keeps the answer: nothing is sent again that was approved with
an answer, and what is approved was neither sent nor approved with another. -/
def KeepsAnswer (s : Server) : Action → Prop
  | .approve task answer =>
      (∀ p ∈ s.world.pushed, p.task = runnerOf s.world.db task → p.assign.message = answer) ∧
        ∀ a ∈ s.approved, a.1 = runnerOf s.world.db task → a.2 = answer
  | .redeliver task => ∀ a ∈ s.approved, a.1 = task → a.2 = none
  | .due task => ∀ a ∈ s.approved, a.1 = task → a.2 = none
  | .resume task => ∀ a ∈ s.approved, a.1 = task → a.2 = none
  | _ => True

instance : ∀ (s : Server) (a : Action), Decidable (KeepsAnswer s a)
  | _, .approve _ _ => inferInstanceAs (Decidable (_ ∧ _))
  | s, .redeliver task => inferInstanceAs (Decidable (∀ a ∈ s.approved, a.1 = task → a.2 = none))
  | s, .due task => inferInstanceAs (Decidable (∀ a ∈ s.approved, a.1 = task → a.2 = none))
  | s, .resume task => inferInstanceAs (Decidable (∀ a ∈ s.approved, a.1 = task → a.2 = none))
  | _, .ask _ _ _ _ => isTrue trivial
  | _, .proceed _ => isTrue trivial
  | _, .live _ _ => isTrue trivial

/-! ## The first Assign -/

/-- A new row is of the rows a request named, and of the request's caller. -/
structure Describes (db : Database) (principal : CallerContext) (input : AssignInput)
    (new : NewTask) (implementation : ImplementationRow) (action : ActionRow) : Prop where
  action : db.registry.action new.action = some action
  implementation : db.registry.implementation new.implementation = some implementation
  caller : ∃ row, db.caller new.caller = some row ∧
    db.users.lookup row.user = some principal.userSub ∧
    db.organizations.lookup row.organization = some (principal.organizationIdentifier.getD "")
  step : new.step = input.step.getD false

theorem Describes.later {principal : CallerContext} {input : AssignInput} {new : NewTask}
    {implementation : ImplementationRow} {action : ActionRow} (hLater : Later db db')
    (h : Describes db principal input new implementation action) :
    Describes db' principal input new implementation action := by
  obtain ⟨row, hRow, hUser, hOrganization⟩ := h.caller
  constructor
  · rw [hLater.registry]
    exact h.action
  · rw [hLater.registry]
    exact h.implementation
  · refine ⟨row, hLater.callers _ row hRow, ?_, ?_⟩
    · rw [hLater.users]
      exact hUser
    · rw [hLater.organizations]
      exact hOrganization
  · exact h.step

/-- The Assign from the request in memory says what the row says. -/
theorem firstAssign_base {principal : CallerContext} {input : AssignInput} {new : NewTask}
    {implementation : ImplementationRow} {action : ActionRow}
    (h : Describes db principal input new implementation action) (task : Int)
    (token : Option String) :
    db.baseOf (new.row env task) = some (firstAssign principal input new implementation action task
      token (assigner db new.parent principal.userSub)).base := by
  obtain ⟨row, hRow, hUser, hOrganization⟩ := h.caller
  have hId := (Registry.implementation_mem h.implementation).2
  have hStates : (if new.stateRequires.isEmpty then none else some new.stateRequires).getD [] =
      new.stateRequires := by
    cases new.stateRequires with
    | nil => rfl
    | cons first rest => rfl
  have hStep : (if new.step then some true else none).getD false = input.step.getD false := by
    rw [← h.step]
    cases new.step with
    | false => rfl
    | true => rfl
  have hSource : db.source (new.row env task) = some {
      args := new.args
      reference := new.reference
      capture := new.capture
      step := new.step
      resolution := new.resolution
      parent := new.parent
      root := new.root
      implementation := new.implementation
      interface := implementation.interface
      workflow := implementation.workflow
      actionHash := action.hash
      user := principal.userSub
      org := principal.organizationIdentifier.getD ""
      stateRequires := if new.stateRequires.isEmpty then none else some new.stateRequires } := by
    simp [Database.source, NewTask.row, h.action, h.implementation, hRow, hUser, hOrganization]
  unfold Database.baseOf
  rw [hSource, Option.map_some]
  congr 1
  simp only [AssignSource.assign, Assign.base, Assign.alike, firstAssign, NewTask.row, hStates,
    hStep, hId]

/-- A rebuilt Assign says what the row says. -/
theorem build_base {task : Int} {assign : Assign}
    (h : buildRedispatchAssign env db task = some assign) :
    ∃ t, db.task task = some t ∧ db.baseOf t = some assign.base ∧ assign.message = none := by
  unfold buildRedispatchAssign at h
  simp only [Option.bind_eq_bind, Option.bind_eq_some_iff, Option.pure_def,
    Option.some.injEq] at h
  obtain ⟨t, hRow, source, hSource, token, -, rfl⟩ := h
  refine ⟨t, hRow, ?_, rfl⟩
  unfold Database.baseOf
  rw [hSource, Option.map_some, (task_mem hRow).2]
  rfl

/-! ## The invariant -/

/-- The answer a task was first approved with. -/
def messageOf (approved : List (Int × Option String)) (task : Int) : Option String :=
  (approved.find? (·.1 = task)).bind (·.2)

/-- What a request at work may still insert or send. -/
def Pending.Ready (db : Database) (approved : List (Int × Option String)) : Pending → Prop
  | .insert principal input _ (.plain new action implementation _) =>
      Describes db principal input new implementation action ∧
        ∀ p, new.parent = some p → p < db.nextTask
  | .insert principal input _ (.wrapper new child lower lowerAction _) =>
      Describes db principal input child lower lowerAction ∧
        (∃ row, db.caller new.caller = some row) ∧ ∀ p, new.parent = some p → p < db.nextTask
  | .handOver runner answer => (runner, answer) ∈ approved

/-- What every Assign that was sent says: what its row says, with the answer the
task was approved with. -/
structure Faithful (s : Server) : Prop where
  sound : s.world.db.Sound
  said : ∀ p ∈ s.world.pushed, ∃ t, s.world.db.task p.task = some t ∧
    s.world.db.baseOf t = some p.assign.base
  message : ∀ p ∈ s.world.pushed, p.assign.message = messageOf s.approved p.task
  agreed : ∀ a ∈ s.approved, a.2 = messageOf s.approved a.1
  known : ∀ a ∈ s.approved, a.1 < s.world.db.nextTask
  ready : ∀ x ∈ s.pending, x.Ready s.world.db s.approved

theorem saysTheSame_of_faithful (h : Faithful s) : SaysTheSame s := by
  constructor
  · intro p hp q hq hTask
    obtain ⟨t, hRow, hBase⟩ := h.said p hp
    obtain ⟨t', hRow', hBase'⟩ := h.said q hq
    rw [hTask, hRow'] at hRow
    cases hRow
    rw [hBase'] at hBase
    rw [p.assign.alike_eq, q.assign.alike_eq, h.message p hp, h.message q hq, hTask,
      Option.some.inj hBase]
  · intro p hp a ha hTask
    rw [h.message p hp, h.agreed a ha, hTask]

theorem Pending.Ready.later {approved : List (Int × Option String)} {x : Pending}
    (hLater : Later db db') (h : x.Ready db approved) : x.Ready db' approved := by
  have hLow : ∀ {new : NewTask}, (∀ p, new.parent = some p → p < db.nextTask) →
      ∀ p, new.parent = some p → p < db'.nextTask := by
    intro new hParent p hp
    exact Int.lt_of_lt_of_le (hParent p hp) hLater.nextTask
  cases x with
  | handOver runner answer => exact h
  | insert principal input caller prepared =>
      cases prepared with
      | plain new action implementation goesOut => exact ⟨h.1.later hLater, hLow h.2⟩
      | wrapper new child lower lowerAction held =>
          obtain ⟨hDescribes, ⟨row, hRow⟩, hParent⟩ := h
          exact ⟨hDescribes.later hLater, ⟨row, hLater.callers _ row hRow⟩, hLow hParent⟩

/-- A step that writes only what does not last, and sends nothing. -/
theorem Faithful.write {world : World} {pending : List Pending} (h : Faithful s)
    (hLater : Later s.world.db world.db) (hSound : world.db.Sound)
    (hPushed : world.pushed = s.world.pushed)
    (hReady : ∀ x ∈ pending, x ∈ s.pending ∨ x.Ready world.db s.approved) :
    Faithful { s with world := world, pending := pending } := by
  constructor
  · exact hSound
  · intro p hp
    dsimp only at hp ⊢
    rw [hPushed] at hp
    obtain ⟨t, hRow, hBase⟩ := h.said p hp
    have hId : p.task < s.world.db.nextTask := by
      rw [← (task_mem hRow).2]
      exact h.sound.sequenced.ids t (task_mem hRow).1
    obtain ⟨t', hRow', hIdentity⟩ := hLater.task hId hRow
    exact ⟨t', hRow', (baseOf_later h.sound hLater (task_mem hRow).1 hIdentity).trans hBase⟩
  · intro p hp
    dsimp only at hp
    rw [hPushed] at hp
    exact h.message p hp
  · exact h.agreed
  · intro a ha
    exact Int.lt_of_lt_of_le (h.known a ha) hLater.nextTask
  · intro x hx
    rcases hReady x hx with hOld | hNew
    · exact (h.ready x hOld).later hLater
    · exact hNew

/-- A step that sends an Assign which says what its row says. -/
theorem Faithful.send {task agent : Int} {assign : Assign} {t : TaskRow} (h : Faithful s)
    (hRow : s.world.db.task task = some t) (hBase : s.world.db.baseOf t = some assign.base)
    (hMessage : assign.message = messageOf s.approved task) :
    Faithful { s with world := dispatch env task agent assign s.world } := by
  obtain ⟨hLater, hSound⟩ := dispatch_keeps env task agent assign s.world h.sound
  have hSaid : ∀ p t, s.world.db.task p = some t →
      ∃ t', (dispatch env task agent assign s.world).db.task p = some t' ∧
        (dispatch env task agent assign s.world).db.baseOf t' = s.world.db.baseOf t := by
    intro p t hRow
    have hId : p < s.world.db.nextTask := by
      rw [← (task_mem hRow).2]
      exact h.sound.sequenced.ids t (task_mem hRow).1
    obtain ⟨t', hRow', hIdentity⟩ := hLater.task hId hRow
    exact ⟨t', hRow', baseOf_later h.sound hLater (task_mem hRow).1 hIdentity⟩
  constructor
  · exact hSound
  · intro p hp
    rcases dispatch_pushed hp with hOld | rfl
    · obtain ⟨t, hRow, hBase⟩ := h.said p hOld
      obtain ⟨t', hRow', hSame⟩ := hSaid p.task t hRow
      exact ⟨t', hRow', hSame.trans hBase⟩
    · obtain ⟨t', hRow', hSame⟩ := hSaid task t hRow
      exact ⟨t', hRow', hSame.trans hBase⟩
  · intro p hp
    rcases dispatch_pushed hp with hOld | rfl
    · exact h.message p hOld
    · exact hMessage
  · exact h.agreed
  · intro a ha
    exact Int.lt_of_lt_of_le (h.known a ha) hLater.nextTask
  · intro x hx
    exact (h.ready x hx).later hLater

/-! ## The steps -/

/-- An identity that is loaded is that of its rows. -/
theorem load_ok {user client : Int} {organization : Option Int} {principal : CallerContext}
    (h : CallerContext.load db user client organization = some principal) :
    db.users.lookup principal.user = some principal.userSub ∧
      ∀ o, principal.organization = some o →
        db.organizations.lookup o = some (principal.organizationIdentifier.getD "") := by
  unfold CallerContext.load at h
  simp only [Option.bind_eq_bind, Option.bind_eq_some_iff, Option.pure_def,
    Option.some.injEq] at h
  obtain ⟨sub, hSub, rfl⟩ := h
  refine ⟨hSub, ?_⟩
  intro o ho
  dsimp only at ho ⊢
  cases organization with
  | none => cases ho
  | some id =>
      rw [Option.bind_some] at ho ⊢
      cases hRow : db.organizations.lookup id with
      | none =>
          rw [hRow] at ho
          cases ho
      | some identifier =>
          rw [hRow] at ho
          cases ho
          exact hRow

/-- What a request leaves of the checks of an assign is ready to insert. -/
theorem ask_ready (approved : List (Int × Option String)) {principal : CallerContext}
    {input : AssignInput} {w w' : World} {left : Option Pending} (hSound : w.db.Sound)
    (hUser : w.db.users.lookup principal.user = some principal.userSub)
    (hOrganization : ∀ o, principal.organization = some o →
      w.db.organizations.lookup o = some (principal.organizationIdentifier.getD ""))
    (h : ask env principal input w = some (w', left)) :
    Later w.db w'.db ∧ w'.db.Sound ∧ w'.pushed = w.pushed ∧
      ∀ x ∈ left.toList, x.Ready w'.db approved := by
  unfold ask at h
  simp only [Option.bind_eq_bind, Option.bind_eq_some_iff] at h
  obtain ⟨organization, hPrincipal, resolution, -, h⟩ := h
  rcases hCaller : getCaller w.db principal organization with ⟨caller, db⟩
  rw [hCaller] at h
  have hLater := later_of_getCaller hCaller
  have hSound' := hSound.getCaller hCaller
  have hIdle : ∀ {world : World} {left' : Option Pending},
      some (({ w with db := db } : World), (none : Option Pending)) = some (world, left') →
      Later w.db world.db ∧ world.db.Sound ∧ world.pushed = w.pushed ∧
        ∀ x ∈ left'.toList, x.Ready world.db approved := by
    intro world left' hEq
    cases hEq
    exact ⟨hLater, hSound', rfl, by simp⟩
  dsimp only at h
  split at h
  · split at h
    · next prepared hPrepared =>
        cases h
        refine ⟨hLater, hSound', rfl, ?_⟩
        intro x hx
        rw [Option.toList_some, List.mem_singleton] at hx
        subst hx
        obtain ⟨row, hRow, hRowUser, hRowOrganization⟩ := getCaller_row hSound hCaller
        have hIdentity : ∃ row, db.caller caller = some row ∧
            db.users.lookup row.user = some principal.userSub ∧
            db.organizations.lookup row.organization =
              some (principal.organizationIdentifier.getD "") := by
          refine ⟨row, hRow, ?_, ?_⟩
          · rw [hLater.users, hRowUser]
            exact hUser
          · rw [hLater.organizations, hRowOrganization]
            exact hOrganization organization hPrincipal
        have hParent : ∀ {a : Admitted}, Admits db input a → ∀ p, a.parent = some p →
            p < db.nextTask := by
          intro a hAdmits p hp
          obtain ⟨parentRow, hParentRow⟩ := hAdmits.parentExists p hp
          rw [← (task_mem hParentRow).2]
          exact hSound'.sequenced.ids parentRow (task_mem hParentRow).1
        cases prepared with
        | plain new action implementation goesOut =>
            obtain ⟨a, dependencies, hAdmits, rfl, rfl, rfl, -⟩ := prepare_plain hPrepared
            exact ⟨⟨hAdmits.onRecord.actionRow, hAdmits.onRecord.row, hIdentity, rfl⟩,
              hParent hAdmits⟩
        | wrapper new child lower lowerAction held =>
            obtain ⟨a, dependencies, lowerArgs, lowerDependencies, hAdmits, rfl, rfl, hOn, -, -⟩ :=
              prepare_wrapper hPrepared
            exact ⟨⟨hOn.actionRow, hOn.row, hIdentity, rfl⟩, ⟨row, hRow⟩, hParent hAdmits⟩
    · exact hIdle h
  · exact hIdle h

theorem messageOf_fresh {approved : List (Int × Option String)} {task : Int}
    (h : ∀ a ∈ approved, a.1 < task) : messageOf approved task = none := by
  have hNone : approved.find? (fun a => a.1 = task) = none := by
    rw [List.find?_eq_none]
    intro a ha
    have hLow := h a ha
    simp only [decide_eq_true_eq]
    omega
  unfold messageOf
  rw [hNone]
  rfl

/-- Inserting and sending an agent's task. -/
theorem Faithful.plain {principal : CallerContext} {input : AssignInput} {caller : Int}
    {new : NewTask} {action : ActionRow} {implementation : ImplementationRow} {goesOut : Bool}
    {pending : List Pending} (h : Faithful s)
    (hReady : Pending.Ready s.world.db s.approved
      (.insert principal input caller (.plain new action implementation goesOut)))
    (hPending : ∀ x ∈ pending, x ∈ s.pending) :
    Faithful { s with
      world := (assignPlain env principal input caller new action implementation goesOut s.world).2
      pending := pending } := by
  obtain ⟨hDescribes, hParent⟩ := hReady
  have hSame : Faithful { s with pending := pending } :=
    h.write (.refl _) h.sound rfl fun x hx => .inl (hPending x hx)
  unfold assignPlain
  cases hInsert : insertTask env s.world.db new with
  | none => exact hSame
  | some inserted =>
      obtain ⟨task, db⟩ := inserted
      obtain ⟨row, hRow, -⟩ := hDescribes.caller
      obtain ⟨hLater, hSound, hTask⟩ := insert_keeps h.sound hInsert hParent ⟨row, hRow⟩
      have hFresh : messageOf s.approved task = none := by
        rw [(insertTask_eq_some hInsert).1]
        exact messageOf_fresh h.known
      dsimp only
      cases env.mint db ⟨toString task, new.parent, implementation.id, implementation.agentId,
          new.args⟩ principal with
      | error reason => exact hSame
      | ok token =>
          have hInserted : Faithful { s with
              world := { s.world with db := db }, pending := pending } :=
            h.write hLater hSound rfl fun x hx => .inl (hPending x hx)
          dsimp only
          split
          · exact hInserted.send hTask (firstAssign_base (hDescribes.later hLater) task token)
              hFresh.symm
          · exact hInserted

/-- Inserting a wrapper with its lower child, and sending the child. -/
theorem Faithful.wrapper {principal : CallerContext} {input : AssignInput} {caller : Int}
    {new child : NewTask} {lower : ImplementationRow} {lowerAction : ActionRow} {held : Bool}
    {pending : List Pending} (h : Faithful s)
    (hReady : Pending.Ready s.world.db s.approved
      (.insert principal input caller (.wrapper new child lower lowerAction held)))
    (hPending : ∀ x ∈ pending, x ∈ s.pending) :
    Faithful { s with
      world := (assignHigherOrder env principal input caller new child lower lowerAction held
        s.world).2
      pending := pending } := by
  obtain ⟨hDescribes, hCaller, hParent⟩ := hReady
  have hSame : Faithful { s with pending := pending } :=
    h.write (.refl _) h.sound rfl fun x hx => .inl (hPending x hx)
  unfold assignHigherOrder
  cases hInsert : insertTask env s.world.db new with
  | none => exact hSame
  | some inserted =>
      obtain ⟨higherTask, db⟩ := inserted
      obtain ⟨hLater, hSound, hHigher⟩ := insert_keeps h.sound hInsert hParent hCaller
      dsimp only
      have hChild : Describes db principal input { child with
          parent := some higherTask
          root := some (new.root.getD higherTask) } lower lowerAction := by
        obtain ⟨hAction, hImplementation, hRow, hStep⟩ := hDescribes.later hLater
        exact ⟨hAction, hImplementation, hRow, hStep⟩
      cases hLower : insertTask env db { child with
          parent := some higherTask
          root := some (new.root.getD higherTask) } with
      | none => exact hSame
      | some inserted =>
          obtain ⟨lowerTask, lowerDb⟩ := inserted
          obtain ⟨row, hRow, -⟩ := hChild.caller
          have hLow : ∀ p, some higherTask = some p → p < db.nextTask := by
            intro p hp
            cases hp
            rw [← (task_mem hHigher).2]
            exact hSound.sequenced.ids _ (task_mem hHigher).1
          obtain ⟨hLater', hSound', hTask⟩ := insert_keeps hSound hLower hLow ⟨row, hRow⟩
          have hFresh : messageOf s.approved lowerTask = none := by
            rw [(insertTask_eq_some hLower).1]
            exact messageOf_fresh fun a ha =>
              Int.lt_of_lt_of_le (h.known a ha) hLater.nextTask
          dsimp only
          cases env.mint lowerDb ⟨toString lowerTask, some higherTask, lower.id, lower.agentId,
              child.args⟩ principal with
          | error reason => exact hSame
          | ok token =>
              have hInserted : Faithful { s with
                  world := { s.world with db := lowerDb }, pending := pending } :=
                h.write (hLater.trans hLater') hSound' rfl fun x hx => .inl (hPending x hx)
              dsimp only
              split
              · exact hInserted
              · exact hInserted.send hTask (firstAssign_base (hChild.later hLater') lowerTask token)
                  hFresh.symm

/-- Sending a task again with the answer it was approved with. -/
theorem Faithful.sendAgain {task : Int} {message : Option String}
    {sent unsent : TaskRow → Lifecycle} {world : World} {pending : List Pending} (h : Faithful s)
    (hSent : sendAgain env task message sent unsent s.world = some world)
    (hMessage : message = messageOf s.approved task) (hPending : ∀ x ∈ pending, x ∈ s.pending) :
    Faithful { s with world := world, pending := pending } := by
  unfold Backend.sendAgain at hSent
  simp only [Option.bind_eq_bind, Option.bind_eq_some_iff] at hSent
  obtain ⟨t, hRow, hSent⟩ := hSent
  have hWrite : ∀ write : TaskRow → Lifecycle, Faithful { s with
      world := { s.world with db := s.world.db.update task write }, pending := pending } :=
    fun write => h.write (later_of_update _ _ _) (h.sound.update _ _) rfl
      fun x hx => .inl (hPending x hx)
  split at hSent
  · next assign hBuild =>
      cases hSent
      obtain ⟨built, hBuilt, hBase, -⟩ := build_base hBuild
      have hId : task < s.world.db.nextTask := by
        rw [← (task_mem hBuilt).2]
        exact h.sound.sequenced.ids built (task_mem hBuilt).1
      have hLater := later_of_update s.world.db task sent
      obtain ⟨t', hRow', hIdentity⟩ := hLater.task hId hBuilt
      refine (hWrite sent).send hRow' ?_ hMessage
      exact (baseOf_later h.sound hLater (task_mem hBuilt).1 hIdentity).trans hBase
  · cases hSent
    exact hWrite unsent

theorem messageOf_append {approved : List (Int × Option String)} {runner : Int}
    {answer : Option String} (task : Int) :
    messageOf (approved ++ [(runner, answer)]) task =
      if ∃ a ∈ approved, a.1 = task then messageOf approved task
      else if runner = task then answer else none := by
  unfold messageOf
  rw [List.find?_append]
  split
  · next hKnown =>
      obtain ⟨a, ha, hTask⟩ := hKnown
      cases hFind : approved.find? (fun a => a.1 = task) with
      | none =>
          rw [List.find?_eq_none] at hFind
          exact absurd (decide_eq_true hTask) (hFind a ha)
      | some found => rfl
  · next hUnknown =>
      have hNone : approved.find? (fun a => a.1 = task) = none := by
        rw [List.find?_eq_none]
        intro a ha hTask
        exact hUnknown ⟨a, ha, of_decide_eq_true hTask⟩
      rw [hNone, Option.none_or]
      by_cases hRunner : runner = task
      · simp [hRunner]
      · simp [hRunner]

theorem runnerOf_known {task : Int} (hSequenced : db.Sequenced) (hTask : task < db.nextTask) :
    runnerOf db task < db.nextTask := by
  unfold runnerOf
  split
  · next lower hLower => exact hSequenced.ids lower (List.mem_of_find?_eq_some hLower)
  · exact hTask

/-- An approval with the answer of every Assign and approval before it. -/
theorem Faithful.approve {runner : Int} {answer : Option String} {db : Database} (h : Faithful s)
    (hLater : Later s.world.db db) (hSound : db.Sound) (hRunner : runner < s.world.db.nextTask)
    (hPushed : ∀ p ∈ s.world.pushed, p.task = runner → p.assign.message = answer)
    (hApproved : ∀ a ∈ s.approved, a.1 = runner → a.2 = answer) :
    Faithful {
      world := { s.world with db := db }
      pending := s.pending ++ [.handOver runner answer]
      approved := s.approved ++ [(runner, answer)] } := by
  have hWritten : Faithful { s with world := { s.world with db := db } } :=
    h.write hLater hSound rfl fun x hx => .inl hx
  constructor
  · exact hSound
  · exact hWritten.said
  · intro p hp
    rw [messageOf_append]
    have hMessage := h.message p hp
    split
    · exact hMessage
    · next hUnknown =>
        by_cases hTask : runner = p.task
        · rw [if_pos hTask]
          exact hPushed p hp hTask.symm
        · rw [if_neg hTask, hMessage]
          unfold messageOf
          have hNone : s.approved.find? (fun a => a.1 = p.task) = none := by
            rw [List.find?_eq_none]
            intro a ha hSame
            exact hUnknown ⟨a, ha, of_decide_eq_true hSame⟩
          rw [hNone]
          rfl
  · intro a ha
    rw [messageOf_append]
    rcases List.mem_append.1 ha with hOld | hNew
    · rw [if_pos ⟨a, hOld, rfl⟩]
      exact h.agreed a hOld
    · rw [List.mem_singleton] at hNew
      subst hNew
      split
      · next hKnown =>
          obtain ⟨a, ha, hTask⟩ := hKnown
          dsimp only at hTask ⊢
          rw [← hApproved a ha hTask, ← hTask]
          exact h.agreed a ha
      · rw [if_pos rfl]
  · intro a ha
    rcases List.mem_append.1 ha with hOld | hNew
    · exact hWritten.known a hOld
    · rw [List.mem_singleton] at hNew
      subst hNew
      exact Int.lt_of_lt_of_le hRunner hLater.nextTask
  · intro x hx
    rcases List.mem_append.1 hx with hOld | hNew
    · have hReady := hWritten.ready x hOld
      cases x with
      | insert principal input caller prepared => cases prepared <;> exact hReady
      | handOver runner' answer' => exact List.mem_append_left _ hReady
    · rw [List.mem_singleton] at hNew
      subst hNew
      exact List.mem_append_right _ (List.mem_singleton.2 rfl)

/-- What is sent again without an answer was approved with none. -/
theorem messageOf_unanswered {approved : List (Int × Option String)} {task : Int}
    (h : ∀ a ∈ approved, a.1 = task → a.2 = none) : none = messageOf approved task := by
  unfold messageOf
  cases hFind : approved.find? (fun a => a.1 = task) with
  | none => rfl
  | some a =>
      have hTask : a.1 = task := by simpa using List.find?_some hFind
      exact (h a (List.mem_of_find?_eq_some hFind) hTask).symm

/-- **Step lemma** -/
theorem faithful_step {a : Action} (h : Faithful s) (hKeeps : KeepsAnswer s a)
    (hNext : (server env).next s a = some s') : Faithful s' := by
  change next env s a = some s' at hNext
  cases a with
  | ask user client organization input =>
      simp only [next, Option.bind_eq_bind, Option.bind_eq_some_iff] at hNext
      obtain ⟨principal, hLoad, ⟨world, left⟩, hAsk, hNext⟩ := hNext
      cases hNext
      obtain ⟨hUser, hOrganization⟩ := load_ok hLoad
      obtain ⟨hLater, hSound, hPushed, hReady⟩ :=
        ask_ready s.approved h.sound hUser hOrganization hAsk
      refine h.write hLater hSound hPushed ?_
      intro x hx
      rcases List.mem_append.1 hx with hOld | hNew
      · exact .inl hOld
      · exact .inr (hReady x hNew)
  | proceed i =>
      simp only [next, Option.bind_eq_bind, Option.bind_eq_some_iff] at hNext
      obtain ⟨x, hAt, hNext⟩ := hNext
      have hReady := h.ready x (List.mem_of_getElem? hAt)
      have hRest : ∀ x ∈ s.pending.eraseIdx i, x ∈ s.pending :=
        fun x hx => List.mem_of_mem_eraseIdx hx
      cases x with
      | insert principal input caller prepared =>
          cases hNext
          cases prepared with
          | plain new action implementation goesOut => exact h.plain hReady hRest
          | wrapper new child lower lowerAction held => exact h.wrapper hReady hRest
      | handOver runner answer =>
          obtain ⟨world, hSent, hNext⟩ := Option.bind_eq_some_iff.1 hNext
          cases hNext
          exact h.sendAgain hSent (h.agreed _ hReady) hRest
  | approve task answer =>
      simp only [next, Option.bind_eq_bind, Option.bind_eq_some_iff] at hNext
      obtain ⟨t, hRow, hNext⟩ := hNext
      split at hNext
      · cases hNext
        have hTask : task < s.world.db.nextTask := by
          rw [← (task_mem hRow).2]
          exact h.sound.sequenced.ids t (task_mem hRow).1
        have hFirst := later_of_update s.world.db task fun t => ⟨.queued, t.isDone, t.dispatched⟩
        exact h.approve (hFirst.trans (later_of_update _ _ _)) ((h.sound.update _ _).update _ _)
          (runnerOf_known h.sound.sequenced hTask) hKeeps.1 hKeeps.2
      · cases hNext
  | redeliver task =>
      simp only [next, Option.bind_eq_bind, Option.bind_eq_some_iff] at hNext
      obtain ⟨t, -, hNext⟩ := hNext
      split at hNext
      · obtain ⟨world, hSent, hNext⟩ := Option.bind_eq_some_iff.1 hNext
        cases hNext
        exact h.sendAgain hSent (messageOf_unanswered hKeeps) fun x hx => hx
      · cases hNext
  | due task =>
      simp only [next, Option.bind_eq_bind, Option.bind_eq_some_iff] at hNext
      obtain ⟨t, -, hNext⟩ := hNext
      split at hNext
      · obtain ⟨world, hSent, hNext⟩ := Option.bind_eq_some_iff.1 hNext
        cases hNext
        exact h.sendAgain hSent (messageOf_unanswered hKeeps) fun x hx => hx
      · cases hNext
  | resume task =>
      simp only [next, Option.bind_eq_bind, Option.bind_eq_some_iff] at hNext
      obtain ⟨t, -, hNext⟩ := hNext
      split at hNext
      · obtain ⟨world, hSent, hNext⟩ := Option.bind_eq_some_iff.1 hNext
        cases hNext
        exact h.sendAgain hSent (messageOf_unanswered hKeeps) fun x hx => hx
      · cases hNext
  | live write recorded =>
      cases hNext
      exact h.write (later_of_map _ _ (fun t => live_identity t _) _)
        (h.sound.map _ (fun t => live_identity t _) _) rfl fun x hx => .inl hx

/-! ## The runs -/

/-- A server that has no tasks yet. -/
def starting (registry : Registry) (users organizations : List (Int × String))
    (resolutions : List Int) (spaces : List (Int × Int)) : Server where
  world := { db := {
    registry := registry
    users := users
    organizations := organizations
    resolutions := resolutions
    spaces := spaces } }

theorem faithful_starting (registry : Registry) (users organizations : List (Int × String))
    (resolutions : List Int) (spaces : List (Int × Int)) :
    Faithful (starting registry users organizations resolutions spaces) := by
  constructor
  · constructor
    · exact ⟨by simp [starting], by simp [starting], by simp [starting]⟩
    · simp [starting]
    · simp [starting]
    · simp [starting]
  all_goals simp [starting]

/-- **Run lemma** -/
theorem faithful_run {registry : Registry} {users organizations : List (Int × String)}
    {resolutions : List Int} {spaces : List (Int × Int)}
    (hRun : (server env).Run KeepsAnswer
      (starting registry users organizations resolutions spaces) s) : Faithful s :=
  hRun.invariant (I := Faithful)
    (faithful_starting registry users organizations resolutions spaces)
    fun _ _ _ h hKeeps hNext => faithful_step h hKeeps hNext

/-- The pair's server, without a task. -/
def pairServer : Server := starting pair [(1, "anna")] [(1, "lab")] [] []

/-- Anna calls the first agent, which calls the second; the call waits, and is
approved with an answer. -/
def approvedCall : List Action :=
  [.ask 1 1 1 { action := some "1" }, .proceed 0,
    .ask 1 1 1 { action := some "2", parent := some "1" }, .proceed 0,
    .approve 2 (some "the blue one"), .proceed 0]

/-- What was sent, by task and message. -/
def Server.messages (s : Server) : List (Int × Option String) :=
  s.world.pushed.map fun p => (p.task, p.assign.message)

end Rekuest.Backend
