import Rekuest.Backend.Redispatch
import Rekuest.Backend.Hooks

/-!
# What lasts of a task

Reports, controls, sweeps and dispatches write a task's lifecycle, assigns add
rows; the columns an Assign is built from stay as they were inserted, and so
does the user at the root of its tree.
-/

namespace Rekuest.Backend

variable {env : Env} {db db' db'' : Database} {t t' : TaskRow}

/-! ## What lasts of a database -/

/-- A row without what its lifecycle writes. -/
def TaskRow.identity (t : TaskRow) : TaskRow := t.live ⟨.queued, false, false⟩

theorem eq_live_of_identity (h : t'.identity = t.identity) : t' = t.live (unchanged t') := by
  have hSame : t'.identity.live (unchanged t') = t.identity.live (unchanged t') := by rw [h]
  exact hSame

theorem id_of_identity (h : t'.identity = t.identity) : t'.id = t.id := by
  rw [eq_live_of_identity h]
  rfl

theorem parent_of_identity (h : t'.identity = t.identity) : t'.parent = t.parent := by
  rw [eq_live_of_identity h]
  rfl

theorem caller_of_identity (h : t'.identity = t.identity) : t'.caller = t.caller := by
  rw [eq_live_of_identity h]
  rfl

/-- What a database keeps, whatever is written. -/
structure Later (db db' : Database) : Prop where
  registry : db'.registry = db.registry
  users : db'.users = db.users
  organizations : db'.organizations = db.organizations
  callers : ∀ id row, db.caller id = some row → db'.caller id = some row
  tasks : ∀ id, id < db.nextTask →
    (db'.task id).map TaskRow.identity = (db.task id).map TaskRow.identity
  nextTask : db.nextTask ≤ db'.nextTask

theorem Later.refl (db : Database) : Later db db :=
  ⟨rfl, rfl, rfl, fun _ _ h => h, fun _ _ => rfl, Int.le_refl _⟩

theorem Later.trans (h : Later db db') (h' : Later db' db'') : Later db db'' := by
  constructor
  · exact h'.registry.trans h.registry
  · exact h'.users.trans h.users
  · exact h'.organizations.trans h.organizations
  · intro id row hRow
    exact h'.callers id row (h.callers id row hRow)
  · intro id hId
    rw [h'.tasks id (Int.lt_of_lt_of_le hId h.nextTask), h.tasks id hId]
  · exact Int.le_trans h.nextTask h'.nextTask

theorem Later.task {id : Int} (h : Later db db') (hId : id < db.nextTask)
    (hRow : db.task id = some t) : ∃ t', db'.task id = some t' ∧ t'.identity = t.identity := by
  have hSame := h.tasks id hId
  rw [hRow, Option.map_some] at hSame
  obtain ⟨t', hRow', hIdentity⟩ := Option.map_eq_some_iff.1 hSame
  exact ⟨t', hRow', hIdentity⟩

/-- Writing the lifecycle of rows keeps a database. -/
theorem later_of_map (db : Database) (write : TaskRow → TaskRow)
    (hWrite : ∀ t, (write t).identity = t.identity) (events : List EventRow) :
    Later db { db with tasks := db.tasks.map write, events := events } := by
  have hId : ∀ t, (write t).id = t.id := fun t => id_of_identity (hWrite t)
  refine ⟨rfl, rfl, rfl, fun _ _ h => h, fun id _ => ?_, Int.le_refl _⟩
  unfold Database.task
  dsimp only
  rw [List.find?_map, Option.map_map]
  have hSame : (fun t : TaskRow => decide (t.id = id)) ∘ write =
      fun t : TaskRow => decide (t.id = id) := by
    funext t
    simp only [Function.comp_apply, hId]
  rw [hSame]
  congr 1
  funext t
  exact hWrite t

theorem later_of_update (db : Database) (task : Int) (write : TaskRow → Lifecycle) :
    Later db (db.update task write) := by
  refine later_of_map db (fun t => if t.id = task then t.live (write t) else t) ?_ db.events
  intro t
  split
  · rfl
  · rfl

theorem later_of_append (db : Database) (rows : List TaskRow)
    (hRows : ∀ row ∈ rows, db.nextTask ≤ row.id) (next : Int) (hNext : db.nextTask ≤ next) :
    Later db { db with tasks := db.tasks ++ rows, nextTask := next } := by
  refine ⟨rfl, rfl, rfl, fun _ _ h => h, fun id hId => ?_, hNext⟩
  have hNew : rows.find? (fun t => t.id = id) = none := by
    rw [List.find?_eq_none]
    intro row hRow
    have hLow := hRows row hRow
    simp only [decide_eq_true_eq]
    omega
  unfold Database.task
  dsimp only
  rw [List.find?_append, hNew, Option.or_none]

theorem later_of_getCaller {principal : CallerContext} {organization caller : Int}
    (h : getCaller db principal organization = (caller, db')) : Later db db' := by
  unfold getCaller at h
  split at h
  · cases h
    exact .refl _
  · cases h
    refine ⟨rfl, rfl, rfl, fun id row hRow => ?_, fun _ _ => rfl, Int.le_refl _⟩
    unfold Database.caller at hRow ⊢
    dsimp only
    rw [List.find?_append, hRow, Option.some_or]

/-! ## The identity of a task -/

/-- A database as the steps keep it: ids are drawn from sequences, and a task's
caller is a row. -/
structure Database.Sound (db : Database) : Prop where
  sequenced : db.Sequenced
  callerIds : ∀ row ∈ db.callers, row.id < db.nextCaller
  callersOnce : (db.callers.map (·.id)).Nodup
  callerRows : ∀ t ∈ db.tasks, ∀ c, t.caller = some c → ∃ row, db.caller c = some row

theorem task_mem {id : Int} (h : db.task id = some t) : t ∈ db.tasks ∧ t.id = id :=
  ⟨List.mem_of_find?_eq_some h, by simpa using List.find?_some h⟩

/-- The walk to the root of a tree stays among the rows that were there. -/
theorem resolveRoot_later (hSequenced : db.Sequenced) (h : Later db db') (left : Nat) :
    ∀ current, current < db.nextTask →
      resolveRoot db' left current = resolveRoot db left current ∧
        resolveRoot db left current < db.nextTask := by
  induction left with
  | zero => exact fun current hCurrent => ⟨rfl, hCurrent⟩
  | succ left ih =>
      intro current hCurrent
      unfold resolveRoot
      cases hRow : db.task current with
      | none =>
          have hSame := h.tasks current hCurrent
          rw [hRow, Option.map_none, Option.map_eq_none_iff] at hSame
          rw [hSame]
          exact ⟨rfl, hCurrent⟩
      | some row =>
          obtain ⟨row', hRow', hIdentity⟩ := h.task hCurrent hRow
          rw [hRow', Option.bind_some, Option.bind_some, parent_of_identity hIdentity]
          cases hNext : row.parent with
          | none => exact ⟨rfl, hCurrent⟩
          | some next =>
              exact ih next (hSequenced.parents row (task_mem hRow).1 next hNext)

theorem assigner_later (hSound : db.Sound) (h : Later db db') (parent : Option Int) (sub : String)
    (hParent : ∀ p, parent = some p → p < db.nextTask) :
    assigner db' parent sub = assigner db parent sub := by
  unfold assigner
  cases parent with
  | none => rfl
  | some p =>
      obtain ⟨hRoot, hLow⟩ := resolveRoot_later hSound.sequenced h maxLineageDepth p (hParent p rfl)
      dsimp only
      unfold rootCaller
      rw [hRoot]
      cases hRow : db.task (resolveRoot db maxLineageDepth p) with
      | none =>
          have hSame := h.tasks _ hLow
          rw [hRow, Option.map_none, Option.map_eq_none_iff] at hSame
          rw [hSame]
          rfl
      | some row =>
          obtain ⟨row', hRow', hIdentity⟩ := h.task hLow hRow
          rw [hRow']
          simp only [Option.bind_eq_bind, Option.bind_some, caller_of_identity hIdentity]
          cases hId : row.caller with
          | none => rfl
          | some c =>
              obtain ⟨callerRow, hFound⟩ := hSound.callerRows row (task_mem hRow).1 c hId
              simp only [Option.bind_some, hFound, h.callers c callerRow hFound, h.users]

/-- An Assign but for its token and its journal; a step that is not given is no
step. -/
def Assign.alike (a : Assign) : Assign :=
  { a with step := some (a.step.getD false), token := none, resume := none }

/-- What every Assign of a task says, but for its message. -/
def Database.baseOf (db : Database) (t : TaskRow) : Option Assign :=
  (db.source t).map fun source =>
    (source.assign t.id (assigner db source.parent source.user) none none).alike

/-- An Assign but for its token, its journal and its message. -/
def Assign.base (a : Assign) : Assign := { a.alike with message := none }

theorem Assign.alike_eq (a : Assign) : a.alike = { a.base with message := a.message } := rfl

theorem source_later (hSound : db.Sound) (h : Later db db') (hMem : t ∈ db.tasks)
    (hIdentity : t'.identity = t.identity) : db'.source t' = db.source t := by
  have hSame : db'.source t' = db'.source t := by
    change db'.source t'.identity = db'.source t.identity
    rw [hIdentity]
  rw [hSame]
  unfold Database.source
  rw [h.registry, h.users, h.organizations]
  cases hId : t.caller with
  | none => rfl
  | some c =>
      obtain ⟨row, hRow⟩ := hSound.callerRows t hMem c hId
      rw [Option.bind_some, Option.bind_some, hRow, h.callers c row hRow]

theorem source_parent {source : AssignSource} (h : db.source t = some source) :
    source.parent = t.parent := by
  unfold Database.source at h
  simp only [Option.bind_eq_bind, Option.bind_eq_some_iff, Option.pure_def,
    Option.some.injEq] at h
  obtain ⟨_, _, _, _, _, _, _, _, _, _, _, _, rfl⟩ := h
  rfl

theorem baseOf_later (hSound : db.Sound) (h : Later db db') (hMem : t ∈ db.tasks)
    (hIdentity : t'.identity = t.identity) : db'.baseOf t' = db.baseOf t := by
  unfold Database.baseOf
  rw [source_later hSound h hMem hIdentity, id_of_identity hIdentity]
  cases hSource : db.source t with
  | none => rfl
  | some source =>
      rw [Option.map_some, Option.map_some,
        assigner_later hSound h source.parent source.user (fun p hp =>
          hSound.sequenced.parents t hMem p ((source_parent hSource).symm.trans hp))]

/-! ## What the steps keep -/

theorem Database.Sound.map (hSound : db.Sound) (write : TaskRow → TaskRow)
    (hWrite : ∀ t, (write t).identity = t.identity) (events : List EventRow) :
    Database.Sound { db with tasks := db.tasks.map write, events := events } := by
  obtain ⟨⟨hPositive, hIds, hParents⟩, hCallerIds, hOnce, hCallers⟩ := hSound
  refine ⟨⟨hPositive, ?_, ?_⟩, hCallerIds, hOnce, ?_⟩
  · intro row hRow
    obtain ⟨t, ht, rfl⟩ := List.mem_map.1 hRow
    rw [id_of_identity (hWrite t)]
    exact hIds t ht
  · intro row hRow
    obtain ⟨t, ht, rfl⟩ := List.mem_map.1 hRow
    rw [parent_of_identity (hWrite t)]
    exact hParents t ht
  · intro row hRow
    obtain ⟨t, ht, rfl⟩ := List.mem_map.1 hRow
    rw [caller_of_identity (hWrite t)]
    exact hCallers t ht

theorem live_identity (t : TaskRow) (l : Lifecycle) : (t.live l).identity = t.identity := rfl

theorem Database.Sound.update (hSound : db.Sound) (task : Int) (write : TaskRow → Lifecycle) :
    (db.update task write).Sound := by
  refine hSound.map (fun t => if t.id = task then t.live (write t) else t) ?_ db.events
  intro t
  split
  · rfl
  · rfl

/-- A dispatch writes at most that the transport failed. -/
theorem dispatch_keeps (env : Env) (task agent : Int) (assign : Assign) (w : World)
    (hSound : w.db.Sound) : Later w.db (dispatch env task agent assign w).db ∧
      (dispatch env task agent assign w).db.Sound := by
  unfold dispatch
  split
  · exact ⟨.refl _, hSound⟩
  · have hWrite : ∀ t : TaskRow,
        (if t.id = task && !t.isDone then { t with dispatched := false } else t).identity =
          t.identity := by
      intro t
      split
      · rfl
      · rfl
    exact ⟨later_of_map w.db _ hWrite w.db.events, hSound.map _ hWrite w.db.events⟩

theorem dispatch_pushed {task agent : Int} {assign : Assign} {w : World} {p : Push}
    (h : p ∈ (dispatch env task agent assign w).pushed) :
    p ∈ w.pushed ∨ p = ⟨task, agent, assign⟩ := by
  unfold dispatch at h
  split at h
  · rcases List.mem_append.1 h with hOld | hNew
    · exact .inl hOld
    · exact .inr (List.mem_singleton.1 hNew)
  · exact .inl h

/-- The caller of an identity is a row, and of that identity. -/
theorem getCaller_row {principal : CallerContext} {organization caller : Int}
    (hSound : db.Sound) (h : getCaller db principal organization = (caller, db')) :
    ∃ row, db'.caller caller = some row ∧ row.user = principal.user ∧
      row.organization = organization := by
  unfold getCaller at h
  split at h
  · next row hFound =>
      cases h
      have hMatches := List.find?_some hFound
      simp only [Bool.and_eq_true, decide_eq_true_eq] at hMatches
      exact ⟨row, Rekuest.Effects.find_of_nodup hSound.callersOnce
        (List.mem_of_find?_eq_some hFound), hMatches.1.2, hMatches.2⟩
  · cases h
    refine ⟨⟨db.nextCaller, principal.client, principal.user, organization⟩, ?_, rfl, rfl⟩
    have hOld : db.callers.find? (fun row => row.id = db.nextCaller) = none := by
      rw [List.find?_eq_none]
      intro row hRow
      have hLow := hSound.callerIds row hRow
      simp only [decide_eq_true_eq]
      omega
    unfold Database.caller
    dsimp only
    rw [List.find?_append, hOld]
    simp

theorem Database.Sound.getCaller {principal : CallerContext} {organization caller : Int}
    (hSound : db.Sound) (h : getCaller db principal organization = (caller, db')) : db'.Sound := by
  have hLater := later_of_getCaller h
  obtain ⟨⟨hPositive, hIds, hParents⟩, hCallerIds, hOnce, hCallers⟩ := hSound
  unfold Backend.getCaller at h
  split at h
  · cases h
    exact ⟨⟨hPositive, hIds, hParents⟩, hCallerIds, hOnce, hCallers⟩
  · cases h
    refine ⟨⟨hPositive, hIds, hParents⟩, ?_, ?_, ?_⟩
    · intro row hRow
      dsimp only at hRow ⊢
      rcases List.mem_append.1 hRow with hOld | hNew
      · have hLow := hCallerIds row hOld
        omega
      · rw [List.mem_singleton] at hNew
        rw [hNew]
        dsimp only
        omega
    · dsimp only
      rw [List.map_append, List.nodup_append]
      refine ⟨hOnce, by simp, ?_⟩
      intro id hId other hOther
      obtain ⟨row, hRow, rfl⟩ := List.mem_map.1 hId
      have hLow := hCallerIds row hRow
      simp only [List.map_cons, List.map_nil, List.mem_singleton] at hOther
      omega
    · intro t ht c hc
      obtain ⟨row, hRow⟩ := hCallers t ht c hc
      exact ⟨row, hLater.callers c row hRow⟩

/-- An insert keeps a database, and its row stands in it. -/
theorem insert_keeps {new : NewTask} {id : Int} (hSound : db.Sound)
    (h : insertTask env db new = some (id, db')) (hParent : ∀ p, new.parent = some p → p < db.nextTask)
    (hCaller : ∃ row, db.caller new.caller = some row) :
    Later db db' ∧ db'.Sound ∧ db'.task id = some (new.row env id) := by
  obtain ⟨rfl, rfl⟩ := insertTask_eq_some h
  have hLater := later_of_append db [new.row env db.nextTask]
    (by simp [NewTask.row]) (db.nextTask + 1) (by omega)
  obtain ⟨⟨hPositive, hIds, hParents⟩, hCallerIds, hOnce, hCallers⟩ := hSound
  refine ⟨hLater, ⟨⟨?_, ?_, ?_⟩, hCallerIds, hOnce, ?_⟩, ?_⟩
  · dsimp only
    omega
  · intro row hRow
    dsimp only at hRow ⊢
    rcases List.mem_append.1 hRow with hOld | hNew
    · have hLow := hIds row hOld
      omega
    · rw [List.mem_singleton] at hNew
      rw [hNew]
      show db.nextTask < db.nextTask + 1
      omega
  · intro row hRow p hp
    dsimp only at hRow ⊢
    rcases List.mem_append.1 hRow with hOld | hNew
    · have hLow := hParents row hOld p hp
      omega
    · rw [List.mem_singleton] at hNew
      rw [hNew] at hp
      have hLow := hParent p hp
      omega
  · intro row hRow c hc
    rcases List.mem_append.1 hRow with hOld | hNew
    · exact hCallers row hOld c hc
    · rw [List.mem_singleton] at hNew
      rw [hNew] at hc
      cases hc
      exact hCaller
  · have hOld : db.tasks.find? (fun t => t.id = db.nextTask) = none := by
      rw [List.find?_eq_none]
      intro t ht
      have hLow := hIds t ht
      simp only [decide_eq_true_eq]
      omega
    unfold Database.task
    dsimp only
    rw [List.find?_append, hOld, Option.none_or]
    simp [NewTask.row]

end Rekuest.Backend
