import Rekuest.Backend.Dispatched

/-!
# Lineage

Every task an assign creates hands the root of its tree down: a root has no
`root_id`, a child has its parent's, or the parent.  The lower child of a wrapper
hangs on the wrapper in the transaction that inserts both.
-/

namespace Rekuest.Backend

open Concurrent

variable {env : Env} {db db' : Database} {s s' : Server}

/-- A parent and a root that fit: the root is the parent's, or the parent. -/
def Fits (db : Database) : Option Int → Option Int → Prop
  | none, root => root = none
  | some p, root => ∃ row, db.task p = some row ∧ root = some (row.root.getD p)

/-- The rows of a request that was checked fit. -/
def Pending.FitsIn (db : Database) : Pending → Prop
  | .insert _ _ _ (.plain new _ _ _) => Fits db new.parent new.root
  | .insert _ _ _ (.wrapper new _ _ _ _) => Fits db new.parent new.root
  | .handOver _ _ => True

/-- The trees as assigns build them: a parent is older than its child, and hands its
root down. -/
structure Lineage (db : Database) : Prop where
  sequenced : db.Sequenced
  fits : ∀ id t, db.task id = some t → Fits db t.parent t.root
  born : ∀ id t, db.task id = some t → 0 < id
  older : ∀ id t p, db.task id = some t → t.parent = some p → p < id

/-- What a step leaves of the trees and of the requests at work. -/
structure Traced (s : Server) : Prop where
  lineage : Lineage s.world.db
  pending : ∀ x ∈ s.pending, x.FitsIn s.world.db

theorem root_of_identity {t t' : TaskRow} (h : t'.identity = t.identity) : t'.root = t.root := by
  rw [eq_live_of_identity h]
  rfl

theorem Database.Sequenced.task_lt (h : db.Sequenced) {id : Int} {t : TaskRow}
    (hRow : db.task id = some t) : id < db.nextTask := by
  rw [← (task_mem hRow).2]
  exact h.ids t (task_mem hRow).1

theorem Fits.later {parent root : Option Int} (hSequenced : db.Sequenced) (hLater : Later db db')
    (h : Fits db parent root) : Fits db' parent root := by
  cases parent with
  | none => exact h
  | some p =>
      obtain ⟨row, hRow, hRoot⟩ := h
      obtain ⟨row', hRow', hIdentity⟩ := hLater.task (hSequenced.task_lt hRow) hRow
      exact ⟨row', hRow', by rw [root_of_identity hIdentity, hRoot]⟩

theorem Pending.FitsIn.later {x : Pending} (hSequenced : db.Sequenced) (hLater : Later db db')
    (h : x.FitsIn db) : x.FitsIn db' := by
  cases x with
  | handOver runner answer => trivial
  | insert principal input caller prepared =>
      cases prepared with
      | plain new action implementation goesOut => exact Fits.later hSequenced hLater h
      | wrapper new child lower lowerAction held => exact Fits.later hSequenced hLater h

/-- A write that adds no row. -/
structure Rewrites (db db' : Database) : Prop where
  later : Later db db'
  sequenced : db'.Sequenced
  nextTask : db'.nextTask = db.nextTask

theorem Rewrites.trans {db'' : Database} (h : Rewrites db db') (h' : Rewrites db' db'') :
    Rewrites db db'' where
  later := h.later.trans h'.later
  sequenced := h'.sequenced
  nextTask := h'.nextTask.trans h.nextTask

theorem rewrites_of_map (hSequenced : db.Sequenced) (write : TaskRow → TaskRow)
    (hWrite : ∀ t, (write t).identity = t.identity) (events : List EventRow) :
    Rewrites db { db with tasks := db.tasks.map write, events := events } := by
  refine ⟨later_of_map db write hWrite events, ⟨hSequenced.positive, ?_, ?_⟩, rfl⟩
  · intro row hRow
    obtain ⟨t, ht, rfl⟩ := List.mem_map.1 hRow
    rw [id_of_identity (hWrite t)]
    exact hSequenced.ids t ht
  · intro row hRow
    obtain ⟨t, ht, rfl⟩ := List.mem_map.1 hRow
    rw [parent_of_identity (hWrite t)]
    exact hSequenced.parents t ht

theorem rewrites_of_update (hSequenced : db.Sequenced) (task : Int) (write : TaskRow → Lifecycle) :
    Rewrites db (db.update task write) := by
  refine rewrites_of_map hSequenced (fun t => if t.id = task then t.live (write t) else t) ?_
    db.events
  intro t
  split
  · rfl
  · rfl

theorem rewrites_of_dispatch (env : Env) (task agent : Int) (assign : Assign) (w : World)
    (hSequenced : w.db.Sequenced) : Rewrites w.db (dispatch env task agent assign w).db := by
  unfold dispatch
  split
  · exact ⟨.refl _, hSequenced, rfl⟩
  · refine rewrites_of_map hSequenced _ ?_ w.db.events
    intro t
    split
    · rfl
    · rfl

theorem rewrites_of_getCaller {principal : CallerContext} {organization caller : Int}
    (hSequenced : db.Sequenced) (h : getCaller db principal organization = (caller, db')) :
    Rewrites db db' := by
  have hLater := later_of_getCaller h
  obtain ⟨hDb, -⟩ := getCaller_spec h
  have hTasks : db'.tasks = db.tasks := by rw [hDb]
  have hNext : db'.nextTask = db.nextTask := by rw [hDb]
  refine ⟨hLater, ⟨?_, ?_, ?_⟩, hNext⟩
  · rw [hNext]
    exact hSequenced.positive
  · rw [hTasks, hNext]
    exact hSequenced.ids
  · rw [hTasks, hNext]
    exact hSequenced.parents

theorem rewrites_of_sendAgain {task : Int} {message : Option String}
    {sent unsent : TaskRow → Lifecycle} {w world : World} (hSequenced : w.db.Sequenced)
    (hSent : sendAgain env task message sent unsent w = some world) :
    Rewrites w.db world.db := by
  unfold sendAgain at hSent
  simp only [Option.bind_eq_bind, Option.bind_eq_some_iff] at hSent
  obtain ⟨t, -, hSent⟩ := hSent
  split at hSent
  · cases hSent
    have hUpdate := rewrites_of_update hSequenced task sent
    exact hUpdate.trans (rewrites_of_dispatch env task t.agent _
      { w with db := w.db.update task sent } hUpdate.sequenced)
  · cases hSent
    exact rewrites_of_update hSequenced task unsent

theorem Lineage.rewrites (h : Lineage db) (hRewrites : Rewrites db db') : Lineage db' := by
  have hBefore : ∀ id t', db'.task id = some t' → ∃ t, db.task id = some t ∧
      t'.identity = t.identity := by
    intro id t' hRow
    have hLt := hRewrites.sequenced.task_lt hRow
    rw [hRewrites.nextTask] at hLt
    have hSame := hRewrites.later.tasks id hLt
    rw [hRow, Option.map_some] at hSame
    obtain ⟨t, hOld, hIdentity⟩ := Option.map_eq_some_iff.1 hSame.symm
    exact ⟨t, hOld, hIdentity.symm⟩
  constructor
  · exact hRewrites.sequenced
  · intro id t' hRow
    obtain ⟨t, hOld, hIdentity⟩ := hBefore id t' hRow
    rw [parent_of_identity hIdentity, root_of_identity hIdentity]
    exact (h.fits id t hOld).later h.sequenced hRewrites.later
  · intro id t' hRow
    obtain ⟨t, hOld, -⟩ := hBefore id t' hRow
    exact h.born id t hOld
  · intro id t' p hRow hParent
    obtain ⟨t, hOld, hIdentity⟩ := hBefore id t' hRow
    rw [parent_of_identity hIdentity] at hParent
    exact h.older id t p hOld hParent

/-- An insert of a row that fits keeps the trees. -/
theorem Lineage.insert {new : NewTask} {id : Int} (h : Lineage db)
    (hInsert : insertTask env db new = some (id, db')) (hFits : Fits db new.parent new.root) :
    Lineage db' ∧ Later db db' ∧ db'.task id = some (new.row env id) := by
  obtain ⟨rfl, hDb⟩ := insertTask_eq_some hInsert
  have hTasks : db'.tasks = db.tasks ++ [new.row env db.nextTask] := by rw [hDb]
  have hNext : db'.nextTask = db.nextTask + 1 := by rw [hDb]
  have hLater : Later db db' := by
    rw [hDb]
    exact later_of_append db [new.row env db.nextTask] (by simp [NewTask.row]) (db.nextTask + 1)
      (by omega)
  have hParent : ∀ p, new.parent = some p → p < db.nextTask := by
    intro p hp
    rw [hp] at hFits
    obtain ⟨row, hRow, -⟩ := hFits
    exact h.sequenced.task_lt hRow
  -- a row is one of before, or the new one
  have hTask : ∀ id, db'.task id =
      (db.task id).or (if id = db.nextTask then some (new.row env db.nextTask) else none) := by
    intro id
    unfold Database.task
    rw [hTasks, List.find?_append, List.find?_singleton]
    have hRowId : (new.row env db.nextTask).id = db.nextTask := rfl
    rw [hRowId]
    by_cases hId : id = db.nextTask
    · rw [if_pos hId, if_pos (decide_eq_true hId.symm)]
    · rw [if_neg hId, if_neg (by simpa using fun hEq => hId hEq.symm)]
  have hRows : ∀ id t, db'.task id = some t →
      db.task id = some t ∨ (id = db.nextTask ∧ t = new.row env db.nextTask) := by
    intro id t hRow
    rw [hTask, Option.or_eq_some_iff] at hRow
    rcases hRow with hOld | ⟨-, hNew⟩
    · exact .inl hOld
    · split at hNew
      · next hId => exact .inr ⟨hId, (Option.some.inj hNew).symm⟩
      · cases hNew
  have hNew : db'.task db.nextTask = some (new.row env db.nextTask) := by
    have hNone : db.task db.nextTask = none := by
      rw [Option.eq_none_iff_forall_ne_some]
      intro t hRow
      exact absurd (h.sequenced.task_lt hRow) (Int.lt_irrefl _)
    rw [hTask, hNone, Option.none_or, if_pos rfl]
  refine ⟨⟨⟨?_, ?_, ?_⟩, ?_, ?_, ?_⟩, hLater, hNew⟩
  · have hPositive := h.sequenced.positive
    omega
  · intro row hRow
    rw [hTasks] at hRow
    rcases List.mem_append.1 hRow with hOld | hRow
    · have hLow := h.sequenced.ids row hOld
      omega
    · rw [List.mem_singleton.1 hRow, hNext]
      show db.nextTask < db.nextTask + 1
      omega
  · intro row hRow p hp
    rw [hTasks] at hRow
    rcases List.mem_append.1 hRow with hOld | hRow
    · have hLow := h.sequenced.parents row hOld p hp
      omega
    · rw [List.mem_singleton.1 hRow] at hp
      have hLow := hParent p hp
      omega
  · intro id t hRow
    rcases hRows id t hRow with hOld | ⟨-, rfl⟩
    · exact (h.fits id t hOld).later h.sequenced hLater
    · exact Fits.later h.sequenced hLater hFits
  · intro id t hRow
    rcases hRows id t hRow with hOld | ⟨rfl, -⟩
    · exact h.born id t hOld
    · exact h.sequenced.positive
  · intro id t p hRow hp
    rcases hRows id t hRow with hOld | ⟨rfl, rfl⟩
    · exact h.older id t p hOld hp
    · exact hParent p hp

/-! ## Requests -/

theorem rootAndPolicy_fits {input : AssignInput} {parent root : Option Int} {policy : Policy}
    (h : rootAndPolicy db input parent = .ok (root, policy)) : Fits db parent root := by
  unfold rootAndPolicy at h
  cases parent with
  | none =>
      obtain ⟨_, -, h⟩ := bind_eq_ok.1 h
      cases pure_eq_ok.1 h
      rfl
  | some p =>
      obtain ⟨row, hRow, h⟩ := bind_eq_ok.1 h
      have hRow := get_eq_ok.1 hRow
      have hRoot : root = some (row.root.getD row.id) := by
        split at h
        · obtain ⟨_, -, h⟩ := bind_eq_ok.1 h
          cases pure_eq_ok.1 h
          rfl
        · obtain ⟨_, -, h⟩ := bind_eq_ok.1 h
          cases pure_eq_ok.1 h
          rfl
      exact ⟨row, hRow, by rw [hRoot, (task_mem hRow).2]⟩

theorem admission_fits {input : AssignInput} {organization : Int} {a : Admitted}
    (h : admission env db input organization = .ok a) : Fits db a.parent a.root := by
  unfold admission at h
  obtain ⟨_, -, h⟩ := bind_eq_ok.1 h
  obtain ⟨_, -, h⟩ := bind_eq_ok.1 h
  obtain ⟨_, -, h⟩ := bind_eq_ok.1 h
  obtain ⟨_, -, h⟩ := bind_eq_ok.1 h
  obtain ⟨parent, -, h⟩ := bind_eq_ok.1 h
  obtain ⟨⟨root, policy⟩, hRoot, h⟩ := bind_eq_ok.1 h
  obtain ⟨_, -, h⟩ := bind_eq_ok.1 h
  obtain ⟨_, -, h⟩ := bind_eq_ok.1 h
  obtain ⟨_, -, h⟩ := bind_eq_ok.1 h
  cases pure_eq_ok.1 h
  exact rootAndPolicy_fits hRoot

/-- What is inserted first of a request that was checked. -/
def Prepared.task : Prepared → NewTask
  | .plain new _ _ _ => new
  | .wrapper new _ _ _ _ => new

theorem prepare_fits {principal : CallerContext} {input : AssignInput}
    {organization caller : Int} {resolution : Option Int} {uuids : Nat} {prepared : Prepared}
    (h : prepare env db principal input organization caller resolution uuids = .ok prepared) :
    Fits db prepared.task.parent prepared.task.root := by
  unfold prepare at h
  obtain ⟨a, hAdmit, h⟩ := bind_eq_ok.1 h
  have hFits := admission_fits hAdmit
  split at h
  · obtain ⟨_, -, h⟩ := bind_eq_ok.1 h
    unfold prepareHigherOrder at h
    obtain ⟨_, -, h⟩ := bind_eq_ok.1 h
    obtain ⟨_, -, h⟩ := bind_eq_ok.1 h
    obtain ⟨_, -, h⟩ := bind_eq_ok.1 h
    obtain ⟨_, -, h⟩ := bind_eq_ok.1 h
    obtain ⟨_, -, h⟩ := bind_eq_ok.1 h
    obtain ⟨_, -, h⟩ := bind_eq_ok.1 h
    obtain ⟨_, -, h⟩ := bind_eq_ok.1 h
    cases pure_eq_ok.1 h
    exact hFits
  · obtain ⟨_, -, h⟩ := bind_eq_ok.1 h
    cases pure_eq_ok.1 h
    exact hFits

theorem traced_ask {principal : CallerContext} {input : AssignInput} {w w' : World}
    {left : Option Pending} (hSequenced : w.db.Sequenced)
    (h : ask env principal input w = some (w', left)) :
    Rewrites w.db w'.db ∧ ∀ x ∈ left.toList, x.FitsIn w'.db := by
  unfold ask at h
  simp only [Option.bind_eq_bind, Option.bind_eq_some_iff] at h
  obtain ⟨organization, -, resolution, -, h⟩ := h
  rcases hCaller : getCaller w.db principal organization with ⟨caller, db⟩
  rw [hCaller] at h
  have hRewrites := rewrites_of_getCaller hSequenced hCaller
  dsimp only at h
  split at h
  · split at h
    · next prepared hPrepared =>
        cases h
        refine ⟨hRewrites, ?_⟩
        intro x hx
        rw [Option.toList_some, List.mem_singleton] at hx
        subst hx
        have hFits := prepare_fits hPrepared
        cases prepared with
        | plain new action implementation goesOut => exact hFits
        | wrapper new child lower lowerAction held => exact hFits
    · cases h
      exact ⟨hRewrites, by simp⟩
  · cases h
    exact ⟨hRewrites, by simp⟩

/-! ## The steps -/

theorem Traced.rewrites {world : World} {pending : List Pending}
    {approved : List (Int × Option String)} (h : Traced s)
    (hRewrites : Rewrites s.world.db world.db)
    (hPending : ∀ x ∈ pending, x ∈ s.pending ∨ x.FitsIn world.db) :
    Traced { world := world, pending := pending, approved := approved } := by
  constructor
  · exact h.lineage.rewrites hRewrites
  · intro x hx
    rcases hPending x hx with hOld | hNew
    · exact (h.pending x hOld).later h.lineage.sequenced hRewrites.later
    · exact hNew

theorem lineage_plain {principal : CallerContext} {input : AssignInput} {caller : Int}
    {new : NewTask} {action : ActionRow} {implementation : ImplementationRow} {goesOut : Bool}
    {w : World} (h : Lineage w.db) (hFits : Fits w.db new.parent new.root) :
    Lineage (assignPlain env principal input caller new action implementation goesOut w).2.db ∧
      Later w.db (assignPlain env principal input caller new action implementation goesOut w).2.db := by
  unfold assignPlain
  cases hInsert : insertTask env w.db new with
  | none => exact ⟨h, .refl _⟩
  | some inserted =>
      obtain ⟨task, db⟩ := inserted
      obtain ⟨hLineage, hLater, -⟩ := h.insert hInsert hFits
      dsimp only
      cases env.mint db ⟨toString task, new.parent, implementation.id, implementation.agentId,
          new.args⟩ principal with
      | error reason => exact ⟨h, .refl _⟩
      | ok token =>
          dsimp only
          split
          · have hDispatch := fun assign : Assign => rewrites_of_dispatch env task
              implementation.agentId assign { w with db := db } hLineage.sequenced
            exact ⟨hLineage.rewrites (hDispatch _), hLater.trans (hDispatch _).later⟩
          · exact ⟨hLineage, hLater⟩

theorem lineage_wrapper {principal : CallerContext} {input : AssignInput} {caller : Int}
    {new child : NewTask} {lower : ImplementationRow} {lowerAction : ActionRow} {held : Bool}
    {w : World} (h : Lineage w.db) (hFits : Fits w.db new.parent new.root) :
    Lineage (assignHigherOrder env principal input caller new child lower lowerAction held w).2.db ∧
      Later w.db
        (assignHigherOrder env principal input caller new child lower lowerAction held w).2.db := by
  unfold assignHigherOrder
  cases hInsert : insertTask env w.db new with
  | none => exact ⟨h, .refl _⟩
  | some inserted =>
      obtain ⟨higherTask, db⟩ := inserted
      obtain ⟨hLineage, hLater, hHigher⟩ := h.insert hInsert hFits
      dsimp only
      cases hLower : insertTask env db { child with
          parent := some higherTask
          root := some (new.root.getD higherTask) } with
      | none => exact ⟨h, .refl _⟩
      | some inserted =>
          obtain ⟨lowerTask, lowerDb⟩ := inserted
          -- the lower child hangs on the wrapper that was just inserted
          have hFits' : Fits db (some higherTask) (some (new.root.getD higherTask)) :=
            ⟨new.row env higherTask, hHigher, rfl⟩
          obtain ⟨hLineage', hLater', -⟩ := hLineage.insert hLower hFits'
          dsimp only
          cases env.mint lowerDb ⟨toString lowerTask, some higherTask, lower.id, lower.agentId,
              child.args⟩ principal with
          | error reason => exact ⟨h, .refl _⟩
          | ok token =>
              dsimp only
              split
              · exact ⟨hLineage', hLater.trans hLater'⟩
              · have hDispatch := fun assign : Assign => rewrites_of_dispatch env lowerTask
                  lower.agentId assign { w with db := lowerDb } hLineage'.sequenced
                exact ⟨hLineage'.rewrites (hDispatch _),
                  (hLater.trans hLater').trans (hDispatch _).later⟩

/-- **Step lemma** -/
theorem traced_step {a : Action} (h : Traced s) (hNext : (server env).next s a = some s') :
    Traced s' := by
  change next env s a = some s' at hNext
  have hSequenced := h.lineage.sequenced
  cases a with
  | ask user client organization input =>
      simp only [next, Option.bind_eq_bind, Option.bind_eq_some_iff] at hNext
      obtain ⟨principal, -, ⟨world, left⟩, hAsk, hNext⟩ := hNext
      cases hNext
      obtain ⟨hRewrites, hLeft⟩ := traced_ask hSequenced hAsk
      refine h.rewrites hRewrites ?_
      intro x hx
      rcases List.mem_append.1 hx with hOld | hNew
      · exact .inl hOld
      · exact .inr (hLeft x hNew)
  | proceed i =>
      simp only [next, Option.bind_eq_bind, Option.bind_eq_some_iff] at hNext
      obtain ⟨x, hAt, hNext⟩ := hNext
      have hFits := h.pending x (List.mem_of_getElem? hAt)
      have hRest : ∀ x ∈ s.pending.eraseIdx i, x ∈ s.pending :=
        fun x hx => List.mem_of_mem_eraseIdx hx
      cases x with
      | insert principal input caller prepared =>
          cases hNext
          have hInserted : Lineage (insertPrepared env principal input caller prepared s.world).db ∧
              Later s.world.db (insertPrepared env principal input caller prepared s.world).db := by
            cases prepared with
            | plain new action implementation goesOut => exact lineage_plain h.lineage hFits
            | wrapper new child lower lowerAction held => exact lineage_wrapper h.lineage hFits
          refine ⟨hInserted.1, ?_⟩
          intro x hx
          exact (h.pending x (hRest x hx)).later hSequenced hInserted.2
      | handOver runner answer =>
          obtain ⟨world, hSent, hNext⟩ := Option.bind_eq_some_iff.1 hNext
          cases hNext
          exact h.rewrites (rewrites_of_sendAgain hSequenced hSent) fun x hx => .inl (hRest x hx)
  | approve task answer =>
      simp only [next, Option.bind_eq_bind, Option.bind_eq_some_iff] at hNext
      obtain ⟨t, -, hNext⟩ := hNext
      split at hNext
      · cases hNext
        have hFirst := rewrites_of_update hSequenced task fun t => ⟨.queued, t.isDone, t.dispatched⟩
        refine h.rewrites (hFirst.trans (rewrites_of_update hFirst.sequenced _ _)) ?_
        intro x hx
        rcases List.mem_append.1 hx with hOld | hNew
        · exact .inl hOld
        · rw [List.mem_singleton.1 hNew]
          exact .inr trivial
      · cases hNext
  | redeliver task | due task | resume task =>
      simp only [next, Option.bind_eq_bind, Option.bind_eq_some_iff] at hNext
      obtain ⟨t, -, hNext⟩ := hNext
      split at hNext
      · obtain ⟨world, hSent, hNext⟩ := Option.bind_eq_some_iff.1 hNext
        cases hNext
        exact h.rewrites (rewrites_of_sendAgain hSequenced hSent) fun x hx => .inl hx
      · cases hNext
  | live write recorded =>
      cases hNext
      exact h.rewrites (rewrites_of_map hSequenced _ (fun t => live_identity t _) _)
        fun x hx => .inl hx

theorem traced_starting (registry : Registry) (users organizations : List (Int × String))
    (resolutions : List Int) (spaces : List (Int × Int)) :
    Traced (starting registry users organizations resolutions spaces) := by
  constructor
  · constructor
    · exact ⟨by simp [starting], by simp [starting], by simp [starting]⟩
    · simp [starting, Database.task]
    · simp [starting, Database.task]
    · simp [starting, Database.task]
  · simp [starting]

/-- **Run lemma** -/
theorem traced_run {registry : Registry} {users organizations : List (Int × String)}
    {resolutions : List Int} {spaces : List (Int × Int)}
    (hRun : (server env).Run System.anyStep
      (starting registry users organizations resolutions spaces) s) : Traced s :=
  hRun.invariant (I := Traced) (traced_starting registry users organizations resolutions spaces)
    fun _ _ _ h _ hNext => traced_step h hNext

end Rekuest.Backend
