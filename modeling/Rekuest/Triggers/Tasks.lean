import Rekuest.Triggers.Firm

/-!
# The tasks of triggers

What an assign adds to the tasks and what a deletion leaves of them: tasks are
never removed here, a child is newer than its parent, and the reference of a run
tells its trigger and its signal.
-/

namespace Rekuest.Triggers

open Concurrent

variable {settings : Settings} {e : Env} {s : Store} {n : Notes} {x : Nat}

/-! ## The references of runs -/

/-- What follows `trigger:` in the reference of a run. -/
def runDigits (t σ : Nat) : List Char := Nat.toDigits 10 t ++ ':' :: Nat.toDigits 10 σ

theorem toList_runReference (t σ : Nat) :
    (runReference t σ).toList = "trigger:".toList ++ runDigits t σ := by
  simp [runReference, runDigits, String.toList_append]

theorem colon_notMem_toDigits (k : Nat) : ':' ∉ Nat.toDigits 10 k := fun hMem => by
  have hDigit := Nat.isDigit_of_mem_toDigits (by decide) (by decide) hMem
  revert hDigit
  decide

theorem toDigits_inj {k l : Nat} (h : Nat.toDigits 10 k = Nat.toDigits 10 l) : k = l := by
  have hRead := congrArg (Nat.ofDigitChars 10 · 0) h
  simpa only [Nat.ofDigitChars_ten_toDigits] using hRead

/-- Texts cut at their first colon. -/
theorem cut_at_colon {a a' b b' : List Char} (ha : ':' ∉ a) (ha' : ':' ∉ a')
    (h : a ++ ':' :: b = a' ++ ':' :: b') : a = a' ∧ b = b' := by
  induction a generalizing a' with
  | nil =>
      cases a' with
      | nil => exact ⟨rfl, (List.cons.inj h).2⟩
      | cons c rest => exact absurd ((List.cons.inj h).1 ▸ List.mem_cons_self) ha'
  | cons c rest ih =>
      cases a' with
      | nil => exact absurd ((List.cons.inj h).1 ▸ List.mem_cons_self) ha
      | cons c' rest' =>
          obtain ⟨rfl, hRest⟩ := List.cons.inj h
          obtain ⟨rfl, rfl⟩ := ih (fun hMem => ha (List.mem_cons_of_mem _ hMem))
            (fun hMem => ha' (List.mem_cons_of_mem _ hMem)) hRest
          exact ⟨rfl, rfl⟩

/-- A run's reference tells its trigger and its signal. -/
theorem runReference_inj {t t' σ σ' : Nat} (h : runReference t σ = runReference t' σ') :
    t = t' ∧ σ = σ' := by
  have hList := congrArg String.toList h
  rw [toList_runReference, toList_runReference] at hList
  obtain ⟨hT, hσ⟩ := cut_at_colon (colon_notMem_toDigits t) (colon_notMem_toDigits t')
    (List.append_cancel_left hList)
  exact ⟨toDigits_inj hT, toDigits_inj hσ⟩

/-- A replay's reference is no run's. -/
theorem replayReference_ne (t σ t' σ' : Nat) (fresh : String) :
    replayReference t σ fresh ≠ runReference t' σ' := by
  intro h
  have hList := congrArg String.toList h
  rw [replayReference, String.toList_append, String.toList_append, toList_runReference,
    toList_runReference, List.append_assoc, List.append_assoc] at hList
  have hCut := List.append_cancel_left hList
  rw [runDigits, runDigits, List.append_assoc, List.cons_append] at hCut
  obtain ⟨-, hσ⟩ := cut_at_colon (colon_notMem_toDigits t) (colon_notMem_toDigits t') hCut
  apply colon_notMem_toDigits σ'
  rw [← hσ]
  exact List.mem_append_right _ List.mem_cons_self

/-! ## What an assign adds -/

theorem Store.named_eq_some {caller : Nat} {reference : String}
    (h : s.named caller reference = some x) : ∃ row, s.tasks[x]? = some row ∧
      row.deleted = false ∧ row.caller = caller ∧ row.reference = reference := by
  obtain ⟨hLt, hRow, -⟩ := List.findIdx?_eq_some_iff_getElem.mp h
  simp only [Bool.and_eq_true, Bool.not_eq_true', beq_iff_eq] at hRow
  exact ⟨s.tasks[x], List.getElem?_eq_getElem hLt, hRow.1.1, hRow.1.2, hRow.2⟩

theorem Store.named_eq_none {caller : Nat} {reference : String}
    (h : s.named caller reference = none) {row : TaskRow} (hRow : s.tasks[x]? = some row)
    (hLive : row.deleted = false) (hCaller : row.caller = caller) :
    row.reference ≠ reference := by
  intro hReference
  have hNot := List.findIdx?_eq_none_iff.mp h row (List.mem_of_getElem? hRow)
  simp [hLive, hCaller, hReference] at hNot

/-- The row an assign makes for what it was asked for. -/
structure Makes (input : AssignInput) (origin : AssignOrigin) (row : TaskRow) : Prop where
  caller : row.caller = input.caller
  reference : row.reference = input.reference
  parent : row.parent = input.parent
  deleted : row.deleted = false
  depth : row.triggerDepth = origin.triggerDepth ∨ row.triggerDepth = 0
  origin : row.origin = origin

/-- The child of the wrapper `w`. -/
structure MakesLower (s : Store) (input : AssignInput) (w : Nat) (fresh : String)
    (row : TaskRow) : Prop where
  caller : row.caller = input.caller
  reference : row.reference = fresh
  other : fresh ≠ input.reference
  free : s.named input.caller fresh = none
  parent : row.parent = some w
  deleted : row.deleted = false
  origin : row.origin = {}
  depth : row.triggerDepth = 0

/-- A task was made, and its lower child if it is a wrapper. -/
structure Assigns (e : Env) (s : Store) (input : AssignInput) (origin : AssignOrigin)
    (row : TaskRow) (rest : List TaskRow) : Prop where
  free : s.named input.caller input.reference = none
  parent : ∀ p, input.parent = some p → (s.task? p).isSome = true
  made : Makes input origin row
  lower : ∀ l ∈ rest, MakesLower s input s.tasks.length e.fresh l
  length : rest.length ≤ 1
  result : (s.assignWithStatus e input origin).1 =
    .ok { task := s.tasks.length, created := true }
  state : (s.assignWithStatus e input origin).2 = { s with tasks := s.tasks ++ row :: rest }

/-- An assign found its reference, was refused, or made a task. -/
theorem assign_cases (e : Env) (s : Store) (input : AssignInput) (origin : AssignOrigin) :
    (s.assignWithStatus e input origin).2 = s ∧
        (∀ assigned, (s.assignWithStatus e input origin).1 = .ok assigned →
          s.named input.caller input.reference = some assigned.task) ∨
      ∃ row rest, Assigns e s input origin row rest := by
  rw [Store.assignWithStatus]
  cases hNamed : s.named input.caller input.reference with
  | some y =>
      refine .inl ⟨rfl, fun assigned hOk => ?_⟩
      simp only [Store.sameAssign] at hOk
      split at hOk
      · cases hOk
      · split at hOk
        · cases hOk
        · cases hOk
          rfl
  | none =>
      by_cases hOrphan : (input.parent.any fun p => (s.task? p).isNone) = true
      case pos => exact .inl ⟨by simp [hOrphan], fun _ hOk => by simp [hOrphan] at hOk⟩
      case neg =>
        have hParent : ∀ p, input.parent = some p → (s.task? p).isSome = true := by
          intro p hSome
          rw [hSome, Option.any_some, Option.isNone_iff_eq_none, ← ne_eq,
            Option.ne_none_iff_isSome] at hOrphan
          exact hOrphan
        cases hTarget : e.target with
        | refused reason =>
            exact .inl ⟨by simp [hOrphan], fun _ hOk => by simp [hOrphan] at hOk⟩
        | plain action agent interface =>
            refine .inr ⟨Store.plainTask input origin action agent interface, [], hNamed, hParent,
              ⟨rfl, rfl, rfl, rfl, .inl rfl, rfl⟩, (fun _ hl => by cases hl), by simp, ?_, ?_⟩
            · simp [Store.assignWithStatus, hNamed, hOrphan, hTarget]
            · simp only [Store.assignWithStatus, hNamed, hOrphan, hTarget, if_false,
                Bool.false_eq_true]
        | wrapper action agent interface lowerAction lowerAgent lowerInterface =>
            by_cases hTaken :
                (e.fresh == input.reference || (s.named input.caller e.fresh).isSome) = true
            case pos =>
              exact .inl ⟨by simp [hOrphan, hTaken], fun _ hOk => by simp [hOrphan, hTaken] at hOk⟩
            case neg =>
              have hFree := hTaken
              simp only [Bool.or_eq_true, beq_iff_eq, not_or, Bool.not_eq_true,
                Option.isSome_eq_false_iff, Option.isNone_iff_eq_none] at hFree
              refine .inr ⟨Store.wrapperTask input origin action agent interface,
                [Store.lowerTask input s.tasks.length e.fresh lowerAction lowerAgent lowerInterface],
                hNamed, hParent, ⟨rfl, rfl, rfl, rfl, .inr rfl, rfl⟩, fun l hl => ?_, by simp,
                ?_, ?_⟩
              · obtain rfl := List.mem_singleton.mp hl
                exact ⟨rfl, rfl, hFree.1, hFree.2, rfl, rfl, rfl, rfl⟩
              · simp [Store.assignWithStatus, hNamed, hOrphan, hTarget, hTaken]
              · simp only [Store.assignWithStatus, hNamed, hOrphan, hTarget, hTaken, if_false,
                  Bool.false_eq_true]

/-! ## How tasks change -/

/-- A task keeps everything, but may be deleted. -/
structure TaskRow.Keeps (row row' : TaskRow) : Prop where
  same : row' = { row with deleted := row'.deleted }
  live : row'.deleted = false → row.deleted = false

theorem TaskRow.Keeps.refl (row : TaskRow) : row.Keeps row := ⟨rfl, id⟩

section

variable {row row' : TaskRow}

theorem TaskRow.Keeps.caller (h : row.Keeps row') : row'.caller = row.caller := by rw [h.same]

theorem TaskRow.Keeps.reference (h : row.Keeps row') : row'.reference = row.reference := by
  rw [h.same]

theorem TaskRow.Keeps.parent (h : row.Keeps row') : row'.parent = row.parent := by rw [h.same]

theorem TaskRow.Keeps.origin (h : row.Keeps row') : row'.origin = row.origin := by rw [h.same]

theorem TaskRow.Keeps.depth (h : row.Keeps row') : row'.triggerDepth = row.triggerDepth := by
  rw [h.same]

end

/-- Tasks change by an assign and by a deletion. -/
theorem tasks_exec (settings : Settings) (e : Env) (s : Store) (op : Op) :
    (Op.exec settings e op s).2.tasks = s.tasks ∨ (∃ y, op = .deleteTask y) ∨
      ∃ by' input origin row rest, op = .assign by' input origin ∧
        Assigns e s input origin row rest := by
  have hChanges := changes_exec settings e s op
  generalize hAfter : (Op.exec settings e op s).2 = s' at hChanges
  cases hChanges with
  | delete y => exact .inr (.inl ⟨y, rfl⟩)
  | assign by' input origin tasks =>
      rcases assign_cases e s input origin with ⟨hSame, -⟩ | ⟨row, rest, hAssigns⟩
      · exact .inl (congrArg Store.tasks (hAfter.symm.trans hSame))
      · exact .inr (.inr ⟨by', input, origin, row, rest, rfl, hAssigns⟩)
  | commit => exact .inl Store.applyAll_tasks
  | txs | ports | signal | trigger | rule => exact .inl rfl

/-- The task of a number after a statement: it was there, or an assign made it. -/
theorem task_cases {op : Op} {y : Nat} {row' : TaskRow}
    (h : (Op.exec settings e op s).2.tasks[y]? = some row') :
    (∃ row, s.tasks[y]? = some row ∧ row.Keeps row') ∨
      ∃ by' input origin row rest, op = .assign by' input origin ∧
        Assigns e s input origin row rest ∧
        ((y = s.tasks.length ∧ row' = row) ∨ (y = s.tasks.length + 1 ∧ row' ∈ rest)) := by
  rcases tasks_exec settings e s op with hSame | ⟨z, rfl⟩ | ⟨by', input, origin, row, rest, rfl,
    hAssigns⟩
  · exact .inl ⟨row', hSame ▸ h, .refl row'⟩
  · simp only [Op.exec, Store.deleteTask, List.getElem?_mapIdx] at h
    obtain ⟨row, hRow, hEq⟩ := Option.map_eq_some_iff.mp h
    refine .inl ⟨row, hRow, ?_⟩
    split at hEq
    · subst hEq
      exact ⟨rfl, fun hLive => by cases hLive⟩
    · subst hEq
      exact .refl row
  · rw [show (Op.exec settings e (.assign by' input origin) s).2 = _ from hAssigns.state] at h
    by_cases hOld : y < s.tasks.length
    · exact .inl ⟨row', (List.getElem?_append_left hOld).symm.trans h, .refl row'⟩
    · have hLength := hAssigns.length
      rw [List.getElem?_append_right (by omega)] at h
      refine .inr ⟨by', input, origin, row, rest, rfl, hAssigns, ?_⟩
      cases hIndex : y - s.tasks.length with
      | zero =>
          rw [hIndex] at h
          exact .inl ⟨by omega, (Option.some.inj h).symm⟩
      | succ k =>
          rw [hIndex, List.getElem?_cons_succ] at h
          have hLt := (List.getElem?_eq_some_iff.mp h).1
          exact .inr ⟨by omega, List.mem_of_getElem? h⟩

/-- A task stays. -/
theorem task_kept (settings : Settings) (e : Env) (op : Op) {y : Nat} {row : TaskRow}
    (h : s.tasks[y]? = some row) :
    ∃ row', (Op.exec settings e op s).2.tasks[y]? = some row' ∧ row.Keeps row' := by
  rcases tasks_exec settings e s op with hSame | ⟨z, rfl⟩ | ⟨by', input, origin, row', rest, rfl,
    hAssigns⟩
  · exact ⟨row, hSame ▸ h, .refl row⟩
  · by_cases hBelow : s.isBelow y z = true
    · exact ⟨{ row with deleted := true }, by simp [Op.exec, Store.deleteTask, h, hBelow], rfl,
        fun hLive => by cases hLive⟩
    · exact ⟨row, by simp [Op.exec, Store.deleteTask, h, hBelow], .refl row⟩
  · refine ⟨row, ?_, .refl row⟩
    rw [show (Op.exec settings e (.assign by' input origin) s).2 = _ from hAssigns.state]
    exact (List.getElem?_append_left (List.getElem?_eq_some_iff.mp h).1).trans h

/-! ## What holds of the tasks -/

/-- The run a trigger fired for a signal. -/
def TaskRow.FiredFor (row : TaskRow) (t σ : Nat) : Prop :=
  row.origin.trigger = some t ∧ row.origin.signal = some σ ∧ row.origin.replay = false

structure Tree (s : Store) : Prop where
  /-- The index of the references. -/
  unique : ∀ {x y : Nat} {rx ry : TaskRow}, s.tasks[x]? = some rx → s.tasks[y]? = some ry →
    rx.deleted = false → ry.deleted = false → rx.caller = ry.caller →
      rx.reference = ry.reference → x = y
  older : ∀ {y p : Nat} {row : TaskRow}, s.tasks[y]? = some row → row.parent = some p → p < y
  fired : ∀ {y t σ : Nat} {row : TaskRow}, s.tasks[y]? = some row → row.FiredFor t σ →
    row.reference = runReference t σ ∧ σ < s.signals.length ∧
      ∃ trow, s.triggers[t]? = some trow ∧ trow.caller = row.caller

/-- A row made by an assign is not the row of another live task. -/
theorem Assigns.unique {input : AssignInput} {origin : AssignOrigin} {row : TaskRow}
    {rest : List TaskRow} (h : Assigns e s input origin row rest) {y : Nat} {old new : TaskRow}
    (hOld : s.tasks[y]? = some old) (hLive : old.deleted = false) (hNew : new = row ∨ new ∈ rest)
    (hCaller : old.caller = new.caller) : old.reference ≠ new.reference := by
  rcases hNew with rfl | hRest
  · rw [h.made.reference]
    exact Store.named_eq_none h.free hOld hLive (hCaller.trans h.made.caller)
  · have hLower := h.lower new hRest
    rw [hLower.reference]
    exact Store.named_eq_none hLower.free hOld hLive (hCaller.trans hLower.caller)

theorem unique_exec {op : Op} (h : Tree s) {y z : Nat} {ry rz : TaskRow}
    (hy : (Op.exec settings e op s).2.tasks[y]? = some ry)
    (hz : (Op.exec settings e op s).2.tasks[z]? = some rz) (hLiveY : ry.deleted = false)
    (hLiveZ : rz.deleted = false) (hCaller : ry.caller = rz.caller)
    (hReference : ry.reference = rz.reference) : y = z := by
  rcases task_cases hy with ⟨oy, hOldY, hKeepsY⟩ | ⟨by', input, origin, row, rest, rfl, hAssigns,
    hNewY⟩
  · rw [hKeepsY.caller] at hCaller
    rw [hKeepsY.reference] at hReference
    rcases task_cases hz with ⟨oz, hOldZ, hKeepsZ⟩ | ⟨by', input, origin, row, rest, rfl,
      hAssigns, hNewZ⟩
    · rw [hKeepsZ.caller] at hCaller
      rw [hKeepsZ.reference] at hReference
      exact h.unique hOldY hOldZ (hKeepsY.live hLiveY) (hKeepsZ.live hLiveZ) hCaller hReference
    · exact absurd hReference (hAssigns.unique hOldY (hKeepsY.live hLiveY)
        (hNewZ.imp And.right And.right) hCaller)
  · rcases task_cases hz with ⟨oz, hOldZ, hKeepsZ⟩ | ⟨_, _, _, row', rest', hOp,
      hAssigns', hNewZ⟩
    · rw [hKeepsZ.caller] at hCaller
      rw [hKeepsZ.reference] at hReference
      exact absurd hReference.symm (hAssigns.unique hOldZ (hKeepsZ.live hLiveZ)
        (hNewY.imp And.right And.right) hCaller.symm)
    · cases hOp
      rcases hNewY with ⟨rfl, rfl⟩ | ⟨rfl, hLowerY⟩
      · rcases hNewZ with ⟨rfl, -⟩ | ⟨rfl, hLowerZ⟩
        · rfl
        · have hLower := hAssigns'.lower rz hLowerZ
          rw [hAssigns.made.reference, hLower.reference] at hReference
          exact absurd hReference.symm hLower.other
      · rcases hNewZ with ⟨rfl, rfl⟩ | ⟨rfl, -⟩
        · have hLower := hAssigns.lower ry hLowerY
          rw [hAssigns'.made.reference, hLower.reference] at hReference
          exact absurd hReference hLower.other
        · rfl

/-- What the assign of a run was permitted for. -/
theorem Notes.PermitsRun.firedFor {input : AssignInput} {origin : AssignOrigin} {row : TaskRow}
    {t σ : Nat} (h : n.PermitsRun settings input origin) (hMade : Makes input origin row)
    (hFired : row.FiredFor t σ) : ∃ signal trigger, n.signal = some signal ∧
      trigger ∈ n.triggers ∧ σ = signal.id ∧ t = trigger.id ∧
      (signal.depth : Int) ≤ settings.triggerMaxDepth ∧
      input = trigger.assignInput signal (runReference t σ) ∧
      origin.triggerDepth = signal.depth := by
  obtain ⟨hTrigger, hSignal, hReplay⟩ := hFired
  rw [hMade.origin] at hTrigger hSignal hReplay
  simp only [Notes.PermitsRun, hReplay, Bool.false_eq_true, if_false] at h
  obtain ⟨signal, trigger, hNoted, hMem, -, -, -, hDepth, rfl, rfl⟩ := h
  cases hTrigger
  cases hSignal
  exact ⟨signal, trigger, hNoted, hMem, rfl, rfl, hDepth, rfl, rfl⟩

theorem tree_exec {op : Op} (h : Tree s) (hKnows : Knows s n) (hPermits : permits settings n op) :
    Tree (Op.exec settings e op s).2 where
  unique := unique_exec h
  older := by
    intro y p row' hy hParent
    rcases task_cases hy with ⟨row, hRow, hKeeps⟩ | ⟨by', input, origin, row, rest, rfl, hAssigns,
      hNew⟩
    · exact h.older hRow (hKeeps.parent ▸ hParent)
    · rcases hNew with ⟨rfl, rfl⟩ | ⟨rfl, hLower⟩
      · rw [hAssigns.made.parent] at hParent
        obtain ⟨prow, hSome⟩ := Option.isSome_iff_exists.mp (hAssigns.parent p hParent)
        exact (List.getElem?_eq_some_iff.mp (Option.filter_eq_some_iff.mp hSome).1).1
      · rw [(hAssigns.lower row' hLower).parent] at hParent
        cases hParent
        exact Nat.lt_succ_self _
  fired := by
    intro y t σ row' hy hFired
    have hGrown : Grown s (Op.exec settings e op s).2 := grown_exec op
    rcases task_cases hy with ⟨row, hRow, hKeeps⟩ | ⟨by', input, origin, row, rest, rfl, hAssigns,
      hNew⟩
    · rw [TaskRow.FiredFor, hKeeps.origin] at hFired
      obtain ⟨hReference, hSignal, trow, hTrigger, hCaller⟩ := h.fired hRow hFired
      obtain ⟨_, hSignal', -⟩ := hGrown.signal (List.getElem?_eq_getElem hSignal)
      obtain ⟨trow', hTrigger', hSame⟩ := hGrown.trigger hTrigger
      exact ⟨hKeeps.reference.trans hReference, (List.getElem?_eq_some_iff.mp hSignal').1, trow',
        hTrigger', (hSame.trans hCaller).trans hKeeps.caller.symm⟩
    · rcases hNew with ⟨rfl, rfl⟩ | ⟨rfl, hLower⟩
      · cases by' with
        | none =>
            obtain rfl : origin = {} := hPermits
            rw [TaskRow.FiredFor, hAssigns.made.origin] at hFired
            cases hFired.1
        | some x =>
            obtain ⟨signal, trigger, hSignal, hTrigger, rfl, rfl, -, rfl, -⟩ :=
              hPermits.2.firedFor hAssigns.made hFired
            obtain ⟨srow, hSrow, -⟩ := hKnows.signal signal hSignal
            obtain ⟨trow, hTrow, hCaller⟩ := hKnows.trigger trigger hTrigger
            obtain ⟨_, hSrow', -⟩ := hGrown.signal hSrow
            obtain ⟨trow', hTrow', hSame⟩ := hGrown.trigger hTrow
            exact ⟨hAssigns.made.reference, (List.getElem?_eq_some_iff.mp hSrow').1, trow', hTrow',
              (hSame.trans hCaller).trans hAssigns.made.caller.symm⟩
      · rw [TaskRow.FiredFor, (hAssigns.lower row' hLower).origin] at hFired
        cases hFired.1

end Rekuest.Triggers
