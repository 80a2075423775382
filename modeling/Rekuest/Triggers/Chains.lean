import Rekuest.Triggers.Policies

/-!
# Chains of triggers

A run that a trigger fired is one deeper than the task that caused its signal,
if that task's row says how deep it is.  The row of a fired run says so, unless
it is a wrapper; the row of any other task says zero, also inside the tree of a
fired run.  Where every signal out of such a tree is caused by a row that kept
its depth, a chain of signals and runs is no longer than the limit.
-/

namespace Rekuest.Triggers

open Concurrent

variable {settings : Settings} {e : Env} {s : Store} {n : Notes}

/-! ## Chains -/

/-- Task `y` is in the tree that `r` started. -/
inductive Below (tasks : List TaskRow) (r : Nat) : Nat → Prop
  | self {row : TaskRow} (hRow : tasks[r]? = some row) : Below tasks r r
  | child {y p : Nat} {row : TaskRow} (hRow : tasks[y]? = some row)
      (hParent : row.parent = some p) (hBelow : Below tasks r p) : Below tasks r y

namespace Store

/-- A trigger fired the run `r` for the signal `σ`. -/
def RunOf (s : Store) (σ r : Nat) : Prop :=
  ∃ row t, s.tasks[r]? = some row ∧ row.FiredFor t σ

/-- The signal `σ` was caused by a task in the tree of the run `r`. -/
def CausedIn (s : Store) (r σ : Nat) : Prop :=
  ∃ row τ, s.signals[σ]? = some row ∧ row.cause = some τ ∧ Below s.tasks r τ

/-- `s1, r1, s2, r2, ...`: each run was fired for its signal, and each further signal
was caused in the tree of the run before it. -/
def Chain (s : Store) (links : List (Nat × Nat)) : Prop :=
  (∀ link ∈ links, s.RunOf link.1 link.2) ∧
    links.IsChain fun link next => s.CausedIn link.2 next.1

/-- A task is inside the tree of some fired run. -/
def InRun (s : Store) (τ : Nat) : Prop := ∃ σ r, s.RunOf σ r ∧ Below s.tasks r τ

end Store

/-- A signal that was caused inside the tree of a fired run still names its cause
when it is matched, and the cause's row kept its depth. -/
def depthKept (_ : Env) (op : Op) (s : Store) : Prop :=
  match op with
  | .claimSignal _ σ => ∀ row τ, s.signals[σ]? = some row → row.cause = some τ → s.InRun τ →
      row.causingTask = some τ ∧ ∃ trow, s.task? τ = some trow ∧ 0 < trow.triggerDepth
  | _ => True

/-! ## What statements leave of a chain -/

/-- Tasks keep their place and their parent. -/
structure TasksKept (s s' : Store) : Prop where
  kept : ∀ {y : Nat} {row : TaskRow}, s.tasks[y]? = some row →
    ∃ row', s'.tasks[y]? = some row' ∧ row.Keeps row'

theorem TasksKept.back {s' : Store} (h : TasksKept s s') {y : Nat} {row' : TaskRow}
    (hLt : y < s.tasks.length) (hRow : s'.tasks[y]? = some row') :
    ∃ row, s.tasks[y]? = some row ∧ row.Keeps row' := by
  obtain ⟨row'', hSome, hKeeps⟩ := h.kept (List.getElem?_eq_getElem hLt)
  obtain rfl := Option.some.inj (hRow.symm.trans hSome)
  exact ⟨_, List.getElem?_eq_getElem hLt, hKeeps⟩

theorem Below.there {tasks : List TaskRow} {r y : Nat} (h : Below tasks r y) :
    ∃ row, tasks[r]? = some row := by
  induction h with
  | self hRow => exact ⟨_, hRow⟩
  | child _ _ _ ih => exact ih

/-- The tree above a task is as old as the task. -/
theorem Below.back {s' : Store} (hTree : Tree s) (hKept : TasksKept s s') {r y : Nat}
    (h : Below s'.tasks r y) (hLt : y < s.tasks.length) : Below s.tasks r y := by
  induction h with
  | self hRow' =>
      obtain ⟨row, hRow, -⟩ := hKept.back hLt hRow'
      exact .self hRow
  | child hRow' hParent _ ih =>
      obtain ⟨row, hRow, hKeeps⟩ := hKept.back hLt hRow'
      rw [hKeeps.parent] at hParent
      have hOlder := hTree.older hRow hParent
      exact .child hRow hParent (ih (by omega))

theorem Store.RunOf.back {s' : Store} (hKept : TasksKept s s') {σ r : Nat}
    (h : s'.RunOf σ r) (hLt : r < s.tasks.length) : s.RunOf σ r := by
  obtain ⟨row', t, hRow', hFired⟩ := h
  obtain ⟨row, hRow, hKeeps⟩ := hKept.back hLt hRow'
  rw [TaskRow.FiredFor, hKeeps.origin] at hFired
  exact ⟨row, t, hRow, hFired⟩

theorem Store.InRun.back {s' : Store} (hTree : Tree s) (hKept : TasksKept s s') {τ : Nat}
    (h : s'.InRun τ) (hLt : τ < s.tasks.length) : s.InRun τ := by
  obtain ⟨σ, r, hRun, hBelow⟩ := h
  have hOld := hBelow.back hTree hKept hLt
  obtain ⟨row, hRow⟩ := hOld.there
  exact ⟨σ, r, hRun.back hKept (List.getElem?_eq_some_iff.mp hRow).1, hOld⟩

/-! ## How deep a run is -/

/-- A run for the signal, made with this depth as the child of this parent, is one deeper
than what caused the signal. -/
def Store.Descends (s : Store) (σ : Nat) (parent : Option Nat) (depth : Nat) : Prop :=
  ∃ row, s.signals[σ]? = some row ∧ (∀ p, parent = some p → row.cause = some p) ∧
    ∀ τ, row.cause = some τ → s.InRun τ →
      ∃ trow, s.tasks[τ]? = some trow ∧ 0 < trow.triggerDepth ∧ depth = trow.triggerDepth + 1

/-- What caused a signal. -/
structure Causes (s : Store) : Prop where
  column : ∀ {σ p : Nat} {row : SignalRow}, s.signals[σ]? = some row →
    row.causingTask = some p → row.cause = some p
  there : ∀ {σ τ : Nat} {row : SignalRow}, s.signals[σ]? = some row → row.cause = some τ →
    τ < s.tasks.length

/-- What the rows of tasks say of their depth. -/
structure Depths (settings : Settings) (s : Store) : Prop where
  fired : ∀ {y t σ : Nat} {row : TaskRow}, s.tasks[y]? = some row → row.FiredFor t σ →
    1 ≤ row.origin.triggerDepth ∧ (row.origin.triggerDepth : Int) ≤ settings.triggerMaxDepth ∧
      (row.triggerDepth = row.origin.triggerDepth ∨ row.triggerDepth = 0) ∧
      s.Descends σ row.parent row.origin.triggerDepth
  positive : ∀ {y : Nat} {row : TaskRow}, s.tasks[y]? = some row → 0 < row.triggerDepth →
    (∃ t σ, row.FiredFor t σ) ∨ row.parent = none

/-- A fired run inside the tree of another is deeper. -/
theorem Depths.le {r y σ : Nat} {rrow yrow : TaskRow} (h : Depths settings s)
    (hBelow : Below s.tasks r y) (hRun : s.RunOf σ r) (hR : s.tasks[r]? = some rrow)
    (hY : s.tasks[y]? = some yrow) (hPositive : 0 < yrow.triggerDepth) :
    rrow.origin.triggerDepth ≤ yrow.triggerDepth := by
  induction hBelow generalizing yrow with
  | self _ =>
      obtain ⟨row, t, hRow, hFired⟩ := hRun
      obtain rfl := Option.some.inj (hR.symm.trans hRow)
      obtain rfl := Option.some.inj (hR.symm.trans hY)
      obtain ⟨-, -, hDepth, -⟩ := h.fired hRow hFired
      omega
  | @child y p row hRow hParent hBelow ih =>
      obtain rfl := Option.some.inj (hRow.symm.trans hY)
      rcases h.positive hRow hPositive with ⟨t, σ', hFired⟩ | hNone
      · obtain ⟨-, -, hDepth, srow, -, hCause, hDescends⟩ := h.fired hRow hFired
        obtain ⟨prow, hP, hAbove, hOne⟩ := hDescends p (hCause p hParent) ⟨σ, r, hRun, hBelow⟩
        have hLe := ih hP hAbove
        omega
      · rw [hParent] at hNone
        cases hNone

/-- Along a chain the runs get deeper. -/
theorem Depths.chain (h : Depths settings s) (link : Nat × Nat) (rest : List (Nat × Nat))
    (hChain : s.Chain (link :: rest)) {row : TaskRow} (hRow : s.tasks[link.2]? = some row) :
    (row.origin.triggerDepth + rest.length : Int) ≤ settings.triggerMaxDepth := by
  induction rest generalizing link row with
  | nil =>
      obtain ⟨row', t, hRow', hFired⟩ := hChain.1 link List.mem_cons_self
      obtain rfl := Option.some.inj (hRow.symm.trans hRow')
      obtain ⟨-, hDepth, -⟩ := h.fired hRow hFired
      simpa using hDepth
  | cons next rest ih =>
      obtain ⟨hRuns, hLinks⟩ := hChain
      rw [List.isChain_cons_cons] at hLinks
      obtain ⟨⟨srow, τ, hSignal, hCause, hBelow⟩, hRest⟩ := hLinks
      have hRun := hRuns link List.mem_cons_self
      obtain ⟨nrow, t, hNext, hFired⟩ := hRuns next (List.mem_cons_of_mem _ List.mem_cons_self)
      obtain ⟨-, -, -, srow', hSignal', -, hDescends⟩ := h.fired hNext hFired
      obtain rfl := Option.some.inj (hSignal.symm.trans hSignal')
      obtain ⟨trow, hTask, hPositive, hOne⟩ := hDescends τ hCause ⟨link.1, link.2, hRun, hBelow⟩
      have hAbove := h.le hBelow hRun hRow hTask hPositive
      have hFurther := ih next ⟨fun l hl => hRuns l (List.mem_cons_of_mem _ hl), hRest⟩ hNext
      rw [List.length_cons]
      omega

/-! ## What a statement keeps -/

theorem tasksKept_exec (op : Op) : TasksKept s (Op.exec settings e op s).2 :=
  ⟨task_kept settings e op⟩

/-- A signal's cause stays. -/
theorem cause_kept (settings : Settings) (e : Env) (op : Op) {σ : Nat} {row : SignalRow} (h : s.signals[σ]? = some row) :
    ∃ row', (Op.exec settings e op s).2.signals[σ]? = some row' ∧ row'.cause = row.cause := by
  have hChanges := changes_exec settings e s op
  generalize (Op.exec settings e op s).2 = s' at hChanges
  cases hChanges with
  | txs | assign | ports | trigger | rule => exact ⟨row, h, rfl⟩
  | signal new =>
      have hLt := (List.getElem?_eq_some_iff.mp h).1
      exact ⟨row, (List.getElem?_append_left hLt).trans h, rfl⟩
  | delete y =>
      exact ⟨{ row with causingTask := row.causingTask.filter (!s.isBelow · y) },
        by simp [Store.deleteTask, h], rfl⟩
  | commit x tx hOpen hRefers =>
      obtain ⟨at', hRow', -⟩ := Store.applyAll_signal tx.writes h
      exact ⟨_, hRow', rfl⟩

/-- The signal of a number after a statement: it was there, or it is announced. -/
theorem signal_cases {op : Op} {σ : Nat} {row' : SignalRow}
    (h : (Op.exec settings e op s).2.signals[σ]? = some row') :
    (∃ row, s.signals[σ]? = some row ∧ row'.cause = row.cause ∧
      ∀ p, row'.causingTask = some p → row.causingTask = some p) ∨
      ∃ new, row' = s.announced new := by
  have hChanges := changes_exec settings e s op
  generalize (Op.exec settings e op s).2 = s' at h hChanges
  cases hChanges with
  | txs | assign | ports | trigger | rule => exact .inl ⟨row', h, rfl, fun _ hp => hp⟩
  | signal new =>
      by_cases hLt : σ < s.signals.length
      · rw [show Store.signals { s with signals := s.signals ++ [s.announced new] } = _ from rfl,
          List.getElem?_append_left hLt] at h
        exact .inl ⟨row', h, rfl, fun _ hp => hp⟩
      · rw [show Store.signals { s with signals := s.signals ++ [s.announced new] } = _ from rfl,
          List.getElem?_append_right (by omega)] at h
        exact .inr ⟨new, List.mem_singleton.mp (List.mem_of_getElem? h)⟩
  | delete y =>
      simp only [Store.deleteTask, List.getElem?_map] at h
      obtain ⟨row, hRow, rfl⟩ := Option.map_eq_some_iff.mp h
      exact .inl ⟨row, hRow, rfl, fun p hp => (Option.filter_eq_some_iff.mp hp).1⟩
  | commit x tx hOpen hRefers =>
      have hLt := (List.getElem?_eq_some_iff.mp h).1
      rw [show List.length _ = _ from applyAll_signals_length] at hLt
      have hRow := List.getElem?_eq_getElem hLt
      obtain ⟨at', hRow', -⟩ := Store.applyAll_signal tx.writes hRow
      obtain rfl := Option.some.inj (h.symm.trans hRow')
      exact .inl ⟨_, hRow, rfl, fun _ hp => hp⟩

theorem causes_exec {op : Op} (h : Causes s) : Causes (Op.exec settings e op s).2 where
  column := by
    intro σ p row' hRow' hColumn
    rcases signal_cases hRow' with ⟨row, hRow, hCause, hOld⟩ | ⟨new, rfl⟩
    · exact hCause.trans (h.column hRow (hOld p hColumn))
    · exact hColumn
  there := by
    intro σ τ row' hRow' hSome
    have hThere : τ < s.tasks.length := by
      rcases signal_cases hRow' with ⟨row, hRow, hCause, -⟩ | ⟨new, rfl⟩
      · exact h.there hRow (hCause ▸ hSome)
      · obtain ⟨-, hLive⟩ := Option.filter_eq_some_iff.mp hSome
        obtain ⟨trow, hTask⟩ := Option.isSome_iff_exists.mp hLive
        exact (List.getElem?_eq_some_iff.mp (Option.filter_eq_some_iff.mp hTask).1).1
    obtain ⟨_, hKept, -⟩ := task_kept settings e op
      (List.getElem?_eq_getElem hThere)
    exact (List.getElem?_eq_some_iff.mp hKept).1

theorem descends_exec {op : Op} {σ depth : Nat} {parent : Option Nat} (hTree : Tree s)
    (hCauses : Causes s) (h : s.Descends σ parent depth) :
    (Op.exec settings e op s).2.Descends σ parent depth := by
  have hKept : TasksKept s (Op.exec settings e op s).2 := tasksKept_exec op
  obtain ⟨row, hRow, hParent, hDepth⟩ := h
  obtain ⟨row', hRow', hSame⟩ := cause_kept settings e op hRow
  refine ⟨row', hRow', fun p hp => hSame.trans (hParent p hp), fun τ hτ hIn => ?_⟩
  have hOld : row.cause = some τ := hSame ▸ hτ
  obtain ⟨trow, hTask, hPositive, hOne⟩ :=
    hDepth τ hOld (hIn.back hTree hKept (hCauses.there hRow hOld))
  obtain ⟨trow', hTask', hKeeps⟩ := hKept.kept hTask
  exact ⟨trow', hTask', hKeeps.depth ▸ hPositive, hKeeps.depth ▸ hOne⟩

/-- What a call read of its signal. -/
def Notes.Descends (n : Notes) (s : Store) : Prop :=
  ∀ signal, n.signal = some signal → s.Descends signal.id signal.causingTask signal.depth

theorem depths_exec {op : Op} (hTree : Tree s) (hCauses : Causes s) (h : Depths settings s)
    (hNotes : n.Descends s) (hPermits : permits settings n op) :
    Depths settings (Op.exec settings e op s).2 where
  fired := by
    intro y t σ row' hRow' hFired
    rcases task_cases hRow' with ⟨row, hRow, hKeeps⟩ | ⟨by', input, origin, row, rest, rfl,
      hAssigns, hNew⟩
    · rw [TaskRow.FiredFor, hKeeps.origin] at hFired
      rw [hKeeps.origin, hKeeps.depth, hKeeps.parent]
      obtain ⟨hOne, hLimit, hDepth, hDescends⟩ := h.fired hRow hFired
      exact ⟨hOne, hLimit, hDepth, descends_exec hTree hCauses hDescends⟩
    · rcases hNew with ⟨rfl, rfl⟩ | ⟨rfl, hLower⟩
      · cases by' with
        | none =>
            obtain rfl : origin = {} := hPermits
            rw [TaskRow.FiredFor, hAssigns.made.origin] at hFired
            cases hFired.1
        | some x =>
            obtain ⟨signal, trigger, hSignal, -, rfl, rfl, hLimit, rfl, hDepth⟩ :=
              hPermits.2.firedFor hAssigns.made hFired
            rw [hAssigns.made.origin, hAssigns.made.parent, hDepth]
            refine ⟨?_, hLimit, hDepth ▸ hAssigns.made.depth,
              descends_exec hTree hCauses (hNotes signal hSignal)⟩
            rw [Signal.depth]
            cases signal.causingDepth with
            | none => exact Nat.le_refl 1
            | some depth => exact Nat.le_add_left 1 depth
      · rw [TaskRow.FiredFor, (hAssigns.lower row' hLower).origin] at hFired
        cases hFired.1
  positive := by
    intro y row' hRow' hPositive
    rcases task_cases hRow' with ⟨row, hRow, hKeeps⟩ | ⟨by', input, origin, row, rest, rfl,
      hAssigns, hNew⟩
    · simp only [TaskRow.FiredFor, hKeeps.origin, hKeeps.parent]
      exact h.positive hRow (hKeeps.depth ▸ hPositive)
    · rcases hNew with ⟨rfl, rfl⟩ | ⟨rfl, hLower⟩
      · cases by' with
        | none =>
            obtain rfl : origin = {} := hPermits
            rcases hAssigns.made.depth with hZero | hZero
            · rw [hZero] at hPositive
              cases hPositive
            · omega
        | some x =>
            have hRun := hPermits.2
            rw [Notes.PermitsRun] at hRun
            split at hRun
            · exact .inr (hAssigns.made.parent.trans hRun.2.1)
            · obtain ⟨signal, trigger, -, -, -, -, -, -, -, rfl⟩ := hRun
              refine .inl ⟨trigger.id, signal.id, ?_⟩
              rw [TaskRow.FiredFor, hAssigns.made.origin]
              exact ⟨rfl, rfl, rfl⟩
      · have hZero := (hAssigns.lower row' hLower).depth
        omega

/-- What a call read of the signal it claims. -/
theorem descends_claimed {x id : Nat} {row : SignalRow} (hCauses : Causes s)
    (hKept : depthKept e (.claimSignal x id) s) (hRow : s.signals[id]? = some row) :
    s.Descends id (s.readSignal id row).causingTask (s.readSignal id row).depth := by
  refine ⟨row, hRow, fun p hp => hCauses.column hRow hp, fun τ hτ hIn => ?_⟩
  obtain ⟨hColumn, trow, hTask, hPositive⟩ := hKept row τ hRow hτ hIn
  refine ⟨trow, (Option.filter_eq_some_iff.mp hTask).1, hPositive, ?_⟩
  simp [Signal.depth, Store.readSignal, hColumn, hTask]

theorem Notes.Descends.next {op : Op} (h : n.Descends s) (hCauses : Causes s)
    (hKept : depthKept e op s) :
    (noted n op (Op.exec settings e op s).1).Descends s := by
  cases op with
  | begin => exact fun _ hSignal => by cases hSignal
  | claimSignal x id =>
      intro signal hSignal
      simp only [noted, Op.exec] at hSignal
      split at hSignal
      case h_1 => cases hSignal
      case h_2 row hSome =>
        split at hSignal
        case isTrue => cases hSignal
        case isFalse =>
          cases hSignal
          exact descends_claimed hCauses hKept (Option.filter_eq_some_iff.mp hSome).1
  | lockTrigger x signal t =>
      generalize (Op.exec settings e (.lockTrigger x signal t) s).1 = found
      cases (found : Option Trigger) <;> exact h
  | lockForReplay x organization t =>
      generalize (Op.exec settings e (.lockForReplay x organization t) s).1 = found
      cases (found : Option Trigger) <;> exact h
  | insertFiring x row =>
      generalize (Op.exec settings e (.insertFiring x row) s).1 = written
      cases (written : Bool) <;> exact h
  | assign by' input origin =>
      generalize (Op.exec settings e (.assign by' input origin) s).1 = assigned
      cases by' with
      | none => exact h
      | some x => cases (assigned : Except String Assigned) <;> exact h
  | listening | ended | debounced | countFired | countFailed | process | commit | rollback
  | readForReplay | pending | insertSignal | insertTrigger | editTrigger | setPorts
  | deleteTask => exact h

/-! ## Along a run -/

/-- What chains rest on: the tree of tasks, what caused the signals, and how deep the runs
and the signals that calls have claimed are. -/
structure Deep (settings : Settings) (s : Store) (ns : List Notes) : Prop where
  tree : Tree s
  causes : Causes s
  depths : Depths settings s
  notes : ∀ n ∈ ns, n.Descends s

theorem Deep.initial {c : TriggersConfig} (h : Initial c) : Deep settings c.state [] where
  tree := .initial h
  causes := ⟨fun hRow => by simp [h.signals] at hRow, fun hRow => by simp [h.signals] at hRow⟩
  depths := ⟨fun hRow => by simp [h.tasks] at hRow, fun hRow => by simp [h.tasks] at hRow⟩
  notes := fun _ hn => by cases hn

theorem deep_exec {op : Op} {ns : List Notes} {i : Nat} (hFirm : Firm s ns)
    (h : Deep settings s ns) (hGet : ns[i]? = some n) (hPermits : permits settings n op)
    (hKept : depthKept e op s) : Deep settings (Op.exec settings e op s).2
      (ns.set i (noted n op (Op.exec settings e op s).1)) where
  tree := tree_exec h.tree (hFirm.knows n (List.mem_of_getElem? hGet)) hPermits
  causes := causes_exec h.causes
  depths := depths_exec h.tree h.causes h.depths (h.notes n (List.mem_of_getElem? hGet)) hPermits
  notes := by
    intro m hm signal hSignal
    refine descends_exec h.tree h.causes ?_
    rcases List.mem_or_eq_of_mem_set hm with hOld | rfl
    · exact h.notes m hOld signal hSignal
    · exact (h.notes n (List.mem_of_getElem? hGet)).next h.causes hKept signal hSignal

/-- **Chains of triggers are bounded** in every run in which each signal out of a fired
run's tree is matched with the depth of its cause. -/
theorem chains_bounded {c₀ c : TriggersConfig} (h₀ : Initial c₀)
    (hRun : (replicas settings).Run (Machine.onStep depthKept) c₀ c)
    (links : List (Nat × Nat)) (hChain : c.state.Chain links) (hSome : links ≠ []) :
    (links.length : Int) ≤ settings.triggerMaxDepth := by
  have hStart : Sound settings (Deep settings) c₀ := .initial h₀ (.initial h₀)
  obtain ⟨ns, -, -, hDeep⟩ := hStart.run (fun _ _ h => h)
    (fun s ns h => ⟨h.tree, h.causes, h.depths, fun n hn => by
      rcases List.mem_append.mp hn with hOld | hLast
      · exact h.notes n hOld
      · rw [List.mem_singleton.mp hLast]
        exact fun _ hSignal => by cases hSignal⟩)
    (fun e op s i n ns hFirm hDeep hGet hPermits _ hKept =>
      deep_exec hFirm hDeep hGet hPermits hKept) hRun
  cases links with
  | nil => exact absurd rfl hSome
  | cons link rest =>
      obtain ⟨row, t, hRow, hFired⟩ := hChain.1 link List.mem_cons_self
      have hBound := hDeep.depths.chain link rest hChain hRow
      obtain ⟨hOne, -⟩ := hDeep.depths.fired hRow hFired
      rw [List.length_cons]
      omega

/-- Every signal with a cause is matched with the depth of its cause. -/
def depthRead (_ : Env) (op : Op) (s : Store) : Prop :=
  match op with
  | .claimSignal _ σ => (s.signals[σ]?.all fun row => row.cause.all fun τ =>
      row.causingTask == some τ && (s.task? τ).any (0 < ·.triggerDepth)) = true
  | _ => True

instance (e : Env) (op : Op) (s : Store) : Decidable (depthRead e op s) := by
  cases op <;> unfold depthRead <;> infer_instance

theorem depthKept_of_depthRead {op : Op} (h : depthRead e op s) : depthKept e op s := by
  cases op with
  | claimSignal x σ =>
      intro row τ hRow hCause _
      simp only [depthRead, hRow, Option.all_some, hCause, Bool.and_eq_true, beq_iff_eq] at h
      obtain ⟨trow, hTask, hPositive⟩ := (Option.any_eq_true _ _).mp h.2
      exact ⟨h.1, trow, hTask, of_decide_eq_true hPositive⟩
  | _ => trivial

/-- A trigger runs for every image that is announced. -/
def imageRule : Rule := { onceRule with maxRuns := none, debounceSeconds := none }

/-- A first image starts a run, and a task of its tree announces another. -/
def secondImage (between : List (Choice Env Request)) (cause next : Nat) :
    List (Choice Env Request) :=
  [.start (.createTrigger imageRule 0 0), .step 0 {}, .start (.intake (imageCreated "a")),
    .step 1 {}, .start (.fireOne 0)] ++ Choice.steps 2 11 ({} : Env) ++ between ++
  [.start (.intake { imageCreated "b" with causingTask := some cause }), .step next {},
    .start (.fireOne 1)] ++ Choice.steps (next + 1) 11 ({} : Env)

theorem exists_of_map {α β : Type} {f : α → β} {l : List α} {bs : List β} (h : l.map f = bs)
    {i : Nat} {b : β} (hb : bs[i]? = some b) : ∃ a, l[i]? = some a ∧ f a = b := by
  rw [← h, List.getElem?_map] at hb
  exact Option.map_eq_some_iff.mp hb

/-- The parents, what the tasks were made with, and the causes of the signals. -/
def lineage (c : TriggersConfig) : List (Option Nat × AssignOrigin) × List (Option Nat) :=
  (c.state.tasks.map fun row => (row.parent, row.origin), c.state.signals.map (·.cause))

/-- What a trigger made at some depth. -/
def fired (σ depth : Nat) : AssignOrigin :=
  { signal := some σ, trigger := some 0, triggerDepth := depth }

theorem runOf_of_lineage {c : TriggersConfig} {rows : List (Option Nat × AssignOrigin)}
    {causes : List (Option Nat)} (h : lineage c = (rows, causes)) {σ r depth : Nat}
    {parent : Option Nat} (hRow : rows[r]? = some (parent, fired σ depth)) :
    c.state.RunOf σ r := by
  obtain ⟨row, hRow, hEq⟩ := exists_of_map (Prod.mk.inj h).1 hRow
  refine ⟨row, 0, hRow, ?_⟩
  rw [TaskRow.FiredFor, (Prod.mk.inj hEq).2]
  exact ⟨rfl, rfl, rfl⟩

/-- The run itself announces the image, and the second run is one deeper. -/
theorem chains_bounded_of_two : ∃ c, (replicas { triggerMaxDepth := 2 }).Run
    (Machine.onStep depthKept) { state := {} } c ∧ c.state.Chain [(0, 0), (1, 1)] ∧
      ((2 : Nat) : Int) ≤ 2 := by
  obtain ⟨c, hRun, hCheck⟩ := System.run_of_play_any (replicas { triggerMaxDepth := 2 })
    (Machine.onStep depthRead) { state := {} } (secondImage [] 0 3)
    (fun c => lineage c = ([(none, fired 0 1), (some 0, fired 1 2)], [none, some 0]))
    (by decide +kernel)
  have hKept := hRun.mono fun c a h =>
    Machine.onStep_mono (fun _ _ _ => depthKept_of_depthRead) h
  have hLineage := of_decide_eq_true hCheck
  have hChain : c.state.Chain [(0, 0), (1, 1)] := by
    refine ⟨fun link hLink => ?_, ?_⟩
    · simp only [List.mem_cons, List.not_mem_nil, or_false] at hLink
      rcases hLink with rfl | rfl
      · exact runOf_of_lineage hLineage rfl
      · exact runOf_of_lineage hLineage rfl
    · obtain ⟨srow, hSignal, hCause⟩ :=
        exists_of_map (i := 1) (Prod.mk.inj hLineage).2 rfl
      obtain ⟨row, hRow, -⟩ := exists_of_map (i := 0) (Prod.mk.inj hLineage).1 rfl
      exact List.isChain_cons_cons.mpr ⟨⟨srow, 0, hSignal, hCause, .self hRow⟩, .singleton _⟩
  exact ⟨c, hKept, hChain,
    chains_bounded ⟨rfl, rfl, rfl, rfl, rfl, rfl⟩ hKept _ hChain (by decide)⟩

/-- An agent asks for a child of the run it carries out. -/
def agentsChild : List (Choice Env Request) :=
  [.start (.assign { caller := 5, reference := "child", parent := some 0 }), .step 3 {}]

/-- With a limit of one the signal of an agent's child starts a second run: the child's row
says nothing of the chain. -/
theorem chain_through_child : Initial { state := {} } ∧ ∃ c,
    (replicas { triggerMaxDepth := 1 }).Run System.anyStep { state := {} } c ∧
      c.state.Chain [(0, 0), (1, 2)] ∧ ¬ ((2 : Nat) : Int) ≤ 1 := by
  refine ⟨⟨rfl, rfl, rfl, rfl, rfl, rfl⟩, ?_⟩
  obtain ⟨c, hRun, hCheck⟩ := System.run_of_play_any (replicas { triggerMaxDepth := 1 })
    System.anyStep { state := {} } (secondImage agentsChild 1 4)
    (fun c => lineage c = ([(none, fired 0 1), (some 0, {}), (some 1, fired 1 1)],
      [none, some 1]))
    (by decide +kernel)
  have hLineage := of_decide_eq_true hCheck
  refine ⟨c, hRun, ⟨fun link hLink => ?_, ?_⟩, by decide⟩
  · simp only [List.mem_cons, List.not_mem_nil, or_false] at hLink
    rcases hLink with rfl | rfl
    · exact runOf_of_lineage hLineage rfl
    · exact runOf_of_lineage hLineage rfl
  · obtain ⟨srow, hSignal, hCause⟩ := exists_of_map (i := 1) (Prod.mk.inj hLineage).2 rfl
    obtain ⟨row, hRow, -⟩ := exists_of_map (i := 0) (Prod.mk.inj hLineage).1 rfl
    obtain ⟨child, hChild, hParent⟩ := exists_of_map (i := 1) (Prod.mk.inj hLineage).1 rfl
    have hBelow : Below c.state.tasks 0 1 :=
      .child hChild (Prod.mk.inj hParent).1 (.self hRow)
    exact List.isChain_cons_cons.mpr ⟨⟨srow, 1, hSignal, hCause, hBelow⟩, .singleton _⟩

end Rekuest.Triggers
