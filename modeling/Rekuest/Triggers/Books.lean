import Rekuest.Triggers.Notes

/-!
# What a call's notes say of the tables

While a transaction is open, the rows it locked are as it read them and what it
writes agrees with what its call has logged.  `Holding` is that; `Kept` is what
the other calls leave of it; `Books` is what every commit keeps of the tables.
-/

namespace Rekuest.Triggers

open Concurrent

/-! ## Applying the writes of a transaction -/

/-- The trigger whose row or firings a write changes. -/
def Write.trigger? : Write → Option Nat
  | .firing row => some row.trigger
  | .fired t | .failed t _ => some t
  | .processed .. => none

namespace Store

variable {s : Store} {writes : List Write}

@[simp] theorem applyWrite_tasks (w : Write) : (s.applyWrite w).tasks = s.tasks := by
  cases w <;> rfl

theorem applyAll_tasks : (writes.foldl applyWrite s).tasks = s.tasks := by
  induction writes generalizing s with
  | nil => rfl
  | cons w rest ih => rw [List.foldl_cons, ih, applyWrite_tasks]

theorem applyWrite_firings (w : Write) :
    (s.applyWrite w).firings = s.firings ++ firingsIn [w] := by
  cases w with
  | firing row => rfl
  | fired | failed | processed => exact (List.append_nil _).symm

theorem applyAll_firings :
    (writes.foldl applyWrite s).firings = s.firings ++ firingsIn writes := by
  induction writes generalizing s with
  | nil => exact (List.append_nil _).symm
  | cons w rest ih =>
      rw [List.foldl_cons, ih, applyWrite_firings, List.append_assoc, firingsIn, firingsIn,
        ← List.filterMap_append]
      rfl

/-- A trigger's row after one write. -/
theorem applyWrite_trigger {t : Nat} {row : TriggerRow} (w : Write)
    (hRow : s.triggers[t]? = some row) :
    ∃ row', (s.applyWrite w).triggers[t]? = some row' ∧ row'.rule = row.rule ∧
      row'.caller = row.caller ∧ row'.organization = row.organization ∧
      row'.runCount = row.runCount + (if w = .fired t then 1 else 0) ∧
      (w.trigger? ≠ some t → row' = row) := by
  cases w with
  | firing | processed => exact ⟨row, hRow, rfl, rfl, rfl, rfl, fun _ => rfl⟩
  | fired t' =>
      by_cases hEq : t' = t
      · subst hEq
        exact ⟨{ row with consecutiveFailures := 0, lastError := none,
                          runCount := row.runCount + 1 },
          by simp [applyWrite, modifyTrigger, hRow], rfl, rfl, rfl, by simp, fun h => absurd rfl h⟩
      · exact ⟨row, by simp [applyWrite, modifyTrigger, hEq, hRow], rfl,
          rfl, rfl, by simp [hEq], fun _ => rfl⟩
  | failed t' error =>
      by_cases hEq : t' = t
      · subst hEq
        exact ⟨{ row with consecutiveFailures := row.consecutiveFailures + 1,
                          lastError := some error },
          by simp [applyWrite, modifyTrigger, hRow], rfl, rfl, rfl, by simp, fun h => absurd rfl h⟩
      · exact ⟨row, by simp [applyWrite, modifyTrigger, hEq, hRow], rfl,
          rfl, rfl, by simp, fun _ => rfl⟩

/-- A trigger's row after some writes: its runs are counted. -/
theorem applyAll_trigger (writes : List Write) {t : Nat} {row : TriggerRow} (hRow : s.triggers[t]? = some row) :
    ∃ row', (writes.foldl applyWrite s).triggers[t]? = some row' ∧ row'.rule = row.rule ∧
      row'.caller = row.caller ∧ row'.organization = row.organization ∧
      row'.runCount = row.runCount + writes.count (.fired t) ∧
      ((∀ w ∈ writes, w.trigger? ≠ some t) → row' = row) := by
  induction writes generalizing s row with
  | nil => exact ⟨row, hRow, rfl, rfl, rfl, rfl, fun _ => rfl⟩
  | cons w rest ih =>
      obtain ⟨mid, hMid, hRule, hCaller, hOrg, hCount, hSame⟩ := applyWrite_trigger w hRow
      obtain ⟨row', hRow', hRule', hCaller', hOrg', hCount', hSame'⟩ := ih hMid
      refine ⟨row', hRow', hRule'.trans hRule, hCaller'.trans hCaller, hOrg'.trans hOrg, ?_,
        fun hOther => ?_⟩
      · rw [hCount', hCount, List.count_cons]
        simp only [beq_iff_eq]
        omega
      · rw [hSame' fun w' hw' => hOther w' (List.mem_cons_of_mem _ hw'),
          hSame (hOther w List.mem_cons_self)]

/-- A signal's row after one write. -/
theorem applyWrite_signal {σ : Nat} {row : SignalRow} (w : Write)
    (hRow : s.signals[σ]? = some row) :
    ∃ at', (s.applyWrite w).signals[σ]? = some { row with processedAt := at' } ∧
      (row.processedAt.isSome = true → at'.isSome = true) ∧
      ((∃ time, w = .processed σ time) → at'.isSome = true) ∧
      ((∀ time, w ≠ .processed σ time) → at' = row.processedAt) := by
  cases w with
  | firing | fired | failed =>
      exact ⟨row.processedAt, hRow, id, (fun ⟨_, h⟩ => by cases h), fun _ => rfl⟩
  | processed σ' time =>
      by_cases hEq : σ' = σ
      · subst hEq
        exact ⟨some time, by simp [applyWrite, hRow], fun _ => rfl, fun _ => rfl,
          fun h => absurd rfl (h time)⟩
      · refine ⟨row.processedAt, by simp [applyWrite, hEq, hRow], id, ?_,
          fun _ => rfl⟩
        rintro ⟨_, h⟩
        cases h
        exact absurd rfl hEq

/-- A signal's row after some writes. -/
theorem applyAll_signal (writes : List Write) {σ : Nat} {row : SignalRow} (hRow : s.signals[σ]? = some row) :
    ∃ at', (writes.foldl applyWrite s).signals[σ]? = some { row with processedAt := at' } ∧
      (row.processedAt.isSome = true → at'.isSome = true) ∧
      ((∃ time, .processed σ time ∈ writes) → at'.isSome = true) ∧
      ((∀ time, .processed σ time ∉ writes) → at' = row.processedAt) := by
  induction writes generalizing s row with
  | nil => exact ⟨row.processedAt, hRow, id, (fun ⟨_, h⟩ => by cases h), fun _ => rfl⟩
  | cons w rest ih =>
      obtain ⟨mid, hMid, hKept, hDone, hSame⟩ := applyWrite_signal w hRow
      obtain ⟨at', hRow', hKept', hDone', hSame'⟩ := ih hMid
      refine ⟨at', hRow', fun h => hKept' (hKept h), ?_, fun hNone => ?_⟩
      · rintro ⟨time, hTime⟩
        rcases List.mem_cons.mp hTime with hHead | hRest
        · exact hKept' (hDone ⟨time, hHead.symm⟩)
        · exact hDone' ⟨time, hRest⟩
      · rw [hSame' fun time hTime => hNone time (List.mem_cons_of_mem _ hTime),
          hSame fun time hEq => hNone time (hEq ▸ List.mem_cons_self)]

end Store

/-! ## The invariants -/

/-- A firing that created a run of the trigger. -/
def NewFiring.isRun (t : Nat) (f : NewFiring) : Bool := f.trigger == t && f.outcome == .fired

/-- The firing a trigger gets as the signal arrives. -/
def NewFiring.isFor (t σ : Nat) (f : NewFiring) : Bool :=
  !f.replay && f.trigger == t && f.signal == σ

/-- What every commit keeps of the tables. -/
structure Books (s : Store) : Prop where
  known : ∀ f ∈ s.firings, f.trigger < s.triggers.length
  counted : ∀ {t : Nat} {row : TriggerRow}, s.triggers[t]? = some row →
    row.runCount = s.firings.countP (·.isRun t)
  once : ∀ t σ, s.firings.countP (·.isFor t σ) ≤ 1
  processed : ∀ f ∈ s.firings, f.replay = false →
    ∃ row, s.signals[f.signal]? = some row ∧ row.processedAt.isSome = true
  exclusive : s.txs.Exclusive

/-- A trigger that may create another run. -/
def Trigger.Unended (trigger : Trigger) : Prop :=
  ∀ m, trigger.row.rule.maxRuns = some m → trigger.row.runCount < m

/-- No run of the trigger for this object, another signal's, lies in its window. -/
def Store.Clear (s : Store) (started : Int) (trigger : Trigger) (signal : Signal) : Prop :=
  ∀ window, trigger.row.rule.debounceSeconds = some window → ∀ f ∈ s.firings,
    f.replay = false → f.trigger = trigger.id → f.outcome = .fired → f.signal ≠ signal.id →
      (∃ row, s.signals[f.signal]? = some row ∧ row.object = signal.object) →
        f.createdAt + window ≤ started

/-- What a stage says of the trigger it is about. -/
def Stage.Says (s : Store) (started : Int) (trigger : Trigger) (signal : Signal) : Stage → Prop
  | .ended => True
  | .unended | .debounced => trigger.Unended
  | .clear | .ran _ | .refused => trigger.Unended ∧ s.Clear started trigger signal

/-- What is read never changes back. -/
structure Reads (s : Store) (n : Notes) : Prop where
  signal : ∀ signal, n.signal = some signal →
    ∃ row, s.signals[signal.id]? = some row ∧ row.object = signal.object
  trigger : ∀ trigger ∈ n.triggers,
    ∃ row, s.triggers[trigger.id]? = some row ∧ row.caller = trigger.row.caller
  logged : ∀ row ∈ n.logged, row.trigger < s.triggers.length

/-- A run that a transaction logged keeps to the trigger's policies. -/
def Notes.Paced (n : Notes) (s : Store) (started : Int) (row : FiringRow) : Prop :=
  started ≤ row.createdAt ∧ ∃ signal trigger, n.signal = some signal ∧
    row.signal = signal.id ∧ trigger ∈ n.triggers ∧ row.trigger = trigger.id ∧
    trigger.Unended ∧ s.Clear started trigger signal

/-- What a transaction wrote agrees with what its call logged, and is of rows it locked. -/
structure Ledger (locks : List Row) (writes : List Write) (signal : Option Signal)
    (logged : List NewFiring) (owes : Option Nat) (processed dropped : Bool) : Prop where
  agrees : (firingsIn writes).map (·.toNewFiring) = logged
  counts : ∀ t, writes.count (.fired t) + (if owes = some t then 1 else 0) =
    logged.countP (·.isRun t)
  done : processed = true → ∀ signal', signal = some signal' →
    ∃ time, .processed signal'.id time ∈ writes
  triggers : ∀ w ∈ writes, ∀ t, w.trigger? = some t → .trigger t ∈ locks
  signals : ∀ σ time, .processed σ time ∈ writes → .signal σ ∈ locks
  claims : ∀ σ time, .processed σ time ∈ writes → ∃ signal', signal = some signal' ∧ signal'.id = σ
  own : ∀ row ∈ logged, row.replay = false →
    ∃ signal', signal = some signal' ∧ row.signal = signal'.id
  once : ((logged.filter (!·.replay)).map (·.trigger)).Nodup
  kept : dropped = false

/-- What an open transaction holds, and what it wrote. -/
structure Holding (s : Store) (n : Notes) (tx : Tx Row Write) : Prop where
  locked : ∀ trigger ∈ n.triggers, .trigger trigger.id ∈ tx.locks ∧
    s.triggers[trigger.id]? = some trigger.row
  claimed : ∀ signal, n.signal = some signal → .signal signal.id ∈ tx.locks ∧
    ∃ row, s.signals[signal.id]? = some row ∧ row.processedAt = none
  stage : ∀ signal trigger stage, n.signal = some signal → trigger ∈ n.triggers →
    n.stage = some (trigger.id, stage) → stage.Says s tx.started trigger signal
  ledger : Ledger tx.locks tx.writes n.signal n.logged n.owes n.processed n.dropped
  paced : ∀ row ∈ firingsIn tx.writes, row.replay = false → row.outcome = .fired →
    n.Paced s tx.started row

/-- The order in which a call comes to its triggers. -/
structure Notes.Ordered (n : Notes) : Prop where
  nodup : (n.triggers.map (·.id)).Nodup
  found : n.signal.isSome = true → ∀ trigger ∈ n.triggers, trigger.id ∉ n.gone ∧
    ∃ ids, n.listening = some ids ∧ trigger.id ∈ ids
  stage : n.signal.isSome = true → ∀ t stage, n.stage = some (t, stage) →
    t ∉ n.logged.map (·.trigger)

structure Knows (s : Store) (n : Notes) : Prop extends Reads s n where
  ordered : n.Ordered
  holding : ∀ x, n.tx = some x → x < s.txs.length ∧
    ∀ tx, s.txs.open? x = some tx → Holding s n tx

/-! ## What others leave -/

/-- Signals and triggers stay. -/
structure Grown (s s' : Store) : Prop where
  signal : ∀ {σ : Nat} {row : SignalRow}, s.signals[σ]? = some row →
    ∃ row', s'.signals[σ]? = some row' ∧ row'.object = row.object
  trigger : ∀ {t : Nat} {row : TriggerRow}, s.triggers[t]? = some row →
    ∃ row', s'.triggers[t]? = some row' ∧ row'.caller = row.caller

/-- What transaction `x` relies on is kept. -/
structure Kept (s s' : Store) (x : Nat) : Prop where
  length : s.txs.length ≤ s'.txs.length
  isOpen : ∀ tx, s'.txs.open? x = some tx → s.txs.open? x = some tx
  signal : ∀ {σ : Nat} {row : SignalRow}, s.txs.Holds x (.signal σ) → s.signals[σ]? = some row →
    ∃ row', s'.signals[σ]? = some row' ∧ row'.processedAt = row.processedAt
  trigger : ∀ {t : Nat} {row : TriggerRow}, s.txs.Holds x (.trigger t) → s.triggers[t]? = some row →
    s'.triggers[t]? = some row
  firing : ∀ f ∈ s'.firings, s.txs.Holds x (.trigger f.trigger) → ∃ g ∈ s.firings,
    g.trigger = f.trigger ∧ g.signal = f.signal ∧ g.outcome = f.outcome ∧
      g.replay = f.replay ∧ g.createdAt = f.createdAt

section

variable {s s' : Store} {n : Notes} {x : Nat} {tx : Tx Row Write} {trigger : Trigger}
variable {signal : Signal} {started : Int}

theorem Store.Clear.kept (hBooks : Books s) (hGrown : Grown s s') (hKept : Kept s s' x)
    (hHolds : s.txs.Holds x (.trigger trigger.id)) (h : s.Clear started trigger signal) :
    s'.Clear started trigger signal := by
  intro window hWindow f hf hReplay hTrigger hFired hOther hObject
  obtain ⟨g, hg, hgTrigger, hgSignal, hgOutcome, hgReplay, hgCreated⟩ :=
    hKept.firing f hf (hTrigger ▸ hHolds)
  have hgReplay := hgReplay.trans hReplay
  obtain ⟨_, hRow, -⟩ := hBooks.processed g hg hgReplay
  obtain ⟨row', hRow', hSame⟩ := hGrown.signal hRow
  obtain ⟨row, hOld, hOldObject⟩ := hObject
  rw [← hgSignal, hRow', Option.some.injEq] at hOld
  subst hOld
  rw [← hgCreated]
  exact h window hWindow g hg hgReplay (hgTrigger.trans hTrigger) (hgOutcome.trans hFired)
    (hgSignal ▸ hOther) ⟨_, hRow, hSame.symm.trans hOldObject⟩

theorem Stage.Says.kept {stage : Stage} (hBooks : Books s) (hGrown : Grown s s')
    (hKept : Kept s s' x)
    (hHolds : s.txs.Holds x (.trigger trigger.id)) (h : stage.Says s started trigger signal) :
    stage.Says s' started trigger signal := by
  cases stage with
  | ended => trivial
  | unended | debounced => exact h
  | clear | ran | refused => exact ⟨h.1, h.2.kept hBooks hGrown hKept hHolds⟩

theorem Reads.grown (h : Reads s n) (hGrown : Grown s s') : Reads s' n where
  signal := by
    intro signal hSignal
    obtain ⟨row, hRow, hObject⟩ := h.signal signal hSignal
    obtain ⟨row', hRow', hSame⟩ := hGrown.signal hRow
    exact ⟨row', hRow', hSame.trans hObject⟩
  trigger := by
    intro trigger hTrigger
    obtain ⟨row, hRow, hCaller⟩ := h.trigger trigger hTrigger
    obtain ⟨row', hRow', hSame⟩ := hGrown.trigger hRow
    exact ⟨row', hRow', hSame.trans hCaller⟩
  logged := by
    intro row hRow
    obtain ⟨_, hRow', -⟩ := hGrown.trigger (List.getElem?_eq_getElem (h.logged row hRow))
    exact (List.getElem?_eq_some_iff.mp hRow').1

theorem Holding.kept (hBooks : Books s) (hOpen : s.txs.open? x = some tx)
    (h : Holding s n tx) (hGrown : Grown s s') (hKept : Kept s s' x) : Holding s' n tx where
  locked := by
    intro trigger hTrigger
    obtain ⟨hLock, hRow⟩ := h.locked trigger hTrigger
    exact ⟨hLock, hKept.trigger ⟨tx, hOpen, hLock⟩ hRow⟩
  claimed := by
    intro signal hSignal
    obtain ⟨hLock, row, hRow, hNone⟩ := h.claimed signal hSignal
    obtain ⟨row', hRow', hSame⟩ := hKept.signal ⟨tx, hOpen, hLock⟩ hRow
    exact ⟨hLock, row', hRow', hSame.trans hNone⟩
  stage := fun signal trigger stage hSignal hTrigger hStage =>
    (h.stage signal trigger stage hSignal hTrigger hStage).kept hBooks hGrown hKept
      ⟨tx, hOpen, (h.locked trigger hTrigger).1⟩
  ledger := h.ledger
  paced := by
    intro row hRow hReplay hFired
    obtain ⟨hStarted, signal, trigger, hSignal, hOwn, hTrigger, hId, hUnended, hClear⟩ :=
      h.paced row hRow hReplay hFired
    exact ⟨hStarted, signal, trigger, hSignal, hOwn, hTrigger, hId, hUnended,
      hClear.kept hBooks hGrown hKept ⟨tx, hOpen, (h.locked trigger hTrigger).1⟩⟩

/-- **Frame rule**: what a call knows survives a step that keeps its transaction. -/
theorem Knows.kept (hBooks : Books s) (h : Knows s n) (hGrown : Grown s s')
    (hKept : ∀ x, n.tx = some x → Kept s s' x) : Knows s' n where
  toReads := h.toReads.grown hGrown
  ordered := h.ordered
  holding := by
    intro x hTx
    obtain ⟨hLt, hHolding⟩ := h.holding x hTx
    have hMine := hKept x hTx
    refine ⟨Nat.lt_of_lt_of_le hLt hMine.length, fun tx hOpen => ?_⟩
    have hOld := hMine.isOpen tx hOpen
    exact (hHolding tx hOld).kept hBooks hOld hGrown hMine

end

/-! ## What a statement changes -/

/-- What a statement leaves of the tables. -/
inductive Changes (s : Store) : Op → Store → Prop
  | txs (op : Op) (txs : Txs Row Write) : Changes s op { s with txs }
  | assign (tx : Option Nat) (input : AssignInput) (origin : AssignOrigin)
      (tasks : List TaskRow) : Changes s (.assign tx input origin) { s with tasks }
  | ports (ports : List ArgPort) : Changes s (.setPorts ports) { s with ports }
  | signal (new : SignalRow) :
      Changes s (.insertSignal new) { s with signals := s.signals ++ [s.announced new] }
  | trigger (rule : Rule) (caller organization : Nat) :
      Changes s (.insertTrigger rule caller organization)
        { s with triggers := s.triggers ++ [{ rule, caller, organization }] }
  | rule (t : Nat) (rule : Rule) :
      Changes s (.editTrigger t rule) (s.modifyTrigger t fun row => { row with rule })
  | delete (y : Nat) : Changes s (.deleteTask y) (s.deleteTask y)
  | commit (x : Nat) (tx : Tx Row Write) (hOpen : s.txs.open? x = some tx)
      (hRefers : tx.writes.all s.refers = true) : Changes s (.commit x)
        { tx.writes.foldl Store.applyWrite s with txs := s.txs.close x }

section

variable {settings : Settings} {e : Env} {s : Store} {n : Notes} {x y : Nat}

/-- An assign adds tasks, and changes nothing else. -/
theorem assignWithStatus_tasks (input : AssignInput) (origin : AssignOrigin) :
    ∃ tasks, (s.assignWithStatus e input origin).2 = { s with tasks } := by
  rw [Store.assignWithStatus]
  split
  · exact ⟨s.tasks, rfl⟩
  · split
    · exact ⟨s.tasks, rfl⟩
    · split
      · exact ⟨s.tasks, rfl⟩
      · exact ⟨_, rfl⟩
      · split
        · exact ⟨s.tasks, rfl⟩
        · exact ⟨_, rfl⟩

/-- **Inversion**: every way a statement changes the tables. -/
theorem changes_exec (settings : Settings) (e : Env) (s : Store) (op : Op) :
    Changes s op (Op.exec settings e op s).2 := by
  have hNothing (op : Op) : Changes s op s := .txs op s.txs
  cases op with
  | begin | listening | lockTrigger | ended | debounced | countFired | countFailed | process
  | rollback | readForReplay | pending => exact .txs _ _
  | claimSignal x id =>
      simp only [Op.exec]
      split
      · exact hNothing _
      · split
        · exact hNothing _
        · exact .txs _ _
  | lockForReplay x organization id =>
      simp only [Op.exec]
      split
      · exact hNothing _
      · exact .txs _ _
  | insertFiring x row =>
      simp only [Op.exec, Store.insertFiring]
      split
      · exact hNothing _
      · exact .txs _ _
  | assign tx input origin =>
      obtain ⟨tasks, hTasks⟩ := assignWithStatus_tasks (s := s) (e := e) input origin
      simp only [Op.exec, hTasks]
      exact .assign tx input origin tasks
  | commit x =>
      simp only [Op.exec, Store.commit]
      split
      case h_1 => exact hNothing _
      case h_2 tx hOpen =>
        split
        case isTrue hRefers => exact .commit x tx hOpen hRefers
        case isFalse => exact .txs _ _
  | setPorts ports => exact .ports ports
  | insertSignal new => exact .signal new
  | insertTrigger rule caller organization => exact .trigger rule caller organization
  | editTrigger t rule => exact .rule t rule
  | deleteTask y => exact .delete y

theorem Grown.of_same {s' : Store} (hSignals : s'.signals = s.signals)
    (hTriggers : s'.triggers = s.triggers) : Grown s s' where
  signal := fun {_ row} hRow => ⟨row, by rw [hSignals, hRow], rfl⟩
  trigger := fun {_ row} hRow => ⟨row, by rw [hTriggers, hRow], rfl⟩

/-- Signals and triggers are never removed. -/
theorem grown_exec (op : Op) : Grown s (Op.exec settings e op s).2 := by
  have hChanges := changes_exec settings e s op
  generalize (Op.exec settings e op s).2 = s' at hChanges
  cases hChanges with
  | txs | assign | ports => exact .of_same rfl rfl
  | commit x tx hOpen hRefers =>
      refine ⟨fun hRow => ?_, fun hRow => ?_⟩
      · obtain ⟨at', hRow', -⟩ := Store.applyAll_signal tx.writes hRow
        exact ⟨_, hRow', rfl⟩
      · obtain ⟨row', hRow', -, hCaller, -⟩ := Store.applyAll_trigger tx.writes hRow
        exact ⟨row', hRow', hCaller⟩
  | signal new =>
      refine ⟨fun {σ row} hRow => ⟨row, ?_, rfl⟩, fun {_ row} hRow => ⟨row, hRow, rfl⟩⟩
      have hLt := (List.getElem?_eq_some_iff.mp hRow).1
      exact (List.getElem?_append_left hLt).trans hRow
  | trigger rule caller organization =>
      refine ⟨fun {_ row} hRow => ⟨row, hRow, rfl⟩, fun {t row} hRow => ⟨row, ?_, rfl⟩⟩
      have hLt := (List.getElem?_eq_some_iff.mp hRow).1
      exact (List.getElem?_append_left hLt).trans hRow
  | rule id rule =>
      refine ⟨fun {_ row} hRow => ⟨row, hRow, rfl⟩, fun {t row} hRow => ?_⟩
      by_cases hEq : id = t
      · subst hEq
        exact ⟨{ row with rule }, by simp [Store.modifyTrigger, hRow], rfl⟩
      · exact ⟨row, by simp [Store.modifyTrigger, hEq, hRow], rfl⟩
  | delete y =>
      refine ⟨fun {σ row} hRow => ?_, fun {_ row} hRow => ⟨row, hRow, rfl⟩⟩
      exact ⟨{ row with causingTask := row.causingTask.filter (!s.isBelow · y) },
        by simp [Store.deleteTask, hRow], rfl⟩

/-! ## What a statement leaves of the others -/

theorem Kept.of_same {s' : Store} (hSignals : s'.signals = s.signals)
    (hTriggers : s'.triggers = s.triggers) (hFirings : s'.firings = s.firings)
    (hLength : s.txs.length ≤ s'.txs.length)
    (hOpen : ∀ tx, s'.txs.open? y = some tx → s.txs.open? y = some tx) : Kept s s' y where
  length := hLength
  isOpen := hOpen
  signal := fun {_ row} _ hRow => ⟨row, by rw [hSignals, hRow], rfl⟩
  trigger := fun _ hRow => by rw [hTriggers, hRow]
  firing := fun f hf _ => ⟨f, by rwa [hFirings] at hf, rfl, rfl, rfl, rfl, rfl⟩

theorem kept_lock (row : Row) (hNe : y ≠ x) :
    Kept s { s with txs := s.txs.lock x row } y :=
  .of_same rfl rfl rfl (by simp) fun tx h => by rwa [Txs.open?_lock_ne row hNe] at h

theorem kept_write (w : Write) (hNe : y ≠ x) : Kept s (s.write x w) y :=
  .of_same rfl rfl rfl (by simp [Store.write]) fun tx h => by
    rwa [Store.write, Txs.open?_write_ne w hNe] at h

theorem kept_close : Kept s { s with txs := s.txs.close x } y := by
  refine .of_same rfl rfl rfl (by simp) fun tx h => ?_
  by_cases hEq : y = x
  · subst hEq
    rw [Txs.open?_close_self] at h
    cases h
  · rwa [Txs.open?_close_ne hEq] at h

/-- A commit keeps what another transaction holds. -/
theorem kept_commit (hBooks : Books s) (hKnows : Knows s n) (hTx : n.tx = some x) (hNe : y ≠ x) :
    Kept s (s.commit x).2 y := by
  rw [Store.commit]
  split
  case h_1 => exact .of_same rfl rfl rfl (Nat.le_refl _) fun _ h => h
  case h_2 tx hOpen =>
    have hHolding := (hKnows.holding x hTx).2 tx hOpen
    have hApart {row : Row} (hMine : row ∈ tx.locks) : ¬ s.txs.Holds y row := fun hOther =>
      hNe (hBooks.exclusive hOther ⟨tx, hOpen, hMine⟩)
    split
    case isFalse => exact kept_close
    case isTrue =>
      refine ⟨by simp, fun tx' h => ?_, fun hHolds hRow => ?_, fun hHolds hRow => ?_,
        fun f hf hHolds => ?_⟩
      · rwa [Txs.open?_close_ne hNe] at h
      · obtain ⟨at', hRow', -, -, hSame⟩ := Store.applyAll_signal tx.writes hRow
        exact ⟨_, hRow', hSame fun time hTime => hApart (hHolding.ledger.signals _ time hTime) hHolds⟩
      · obtain ⟨row', hRow', -, -, -, -, hSame⟩ := Store.applyAll_trigger tx.writes hRow
        have hEq := hSame fun w hw hTrigger => hApart (hHolding.ledger.triggers w hw _ hTrigger) hHolds
        exact hEq ▸ hRow'
      · have hf : f ∈ s.firings ++ firingsIn tx.writes := by
          rw [← Store.applyAll_firings]
          exact hf
        rcases List.mem_append.mp hf with hOld | hNew
        · exact ⟨f, hOld, rfl, rfl, rfl, rfl, rfl⟩
        · obtain ⟨w, hw, hFiring⟩ := List.mem_filterMap.mp hNew
          cases w with
          | firing row =>
              cases hFiring
              exact absurd hHolds (hApart (hHolding.ledger.triggers _ hw _ rfl))
          | fired | failed | processed => cases hFiring

/-- **What a statement of one call leaves of another's transaction** -/
theorem kept_exec {op : Op} (hBooks : Books s) (hKnows : Knows s n)
    (hPermits : permits settings n op) (hFree : op.blocked s = false)
    (hLt : y < s.txs.length) (hNe : n.tx ≠ some y) :
    Kept s (Op.exec settings e op s).2 y := by
  have hApart {x : Nat} (hTx : n.tx = some x) : y ≠ x := fun hEq => hNe (hEq ▸ hTx)
  have hNothing : Kept s s y := .of_same rfl rfl rfl (Nat.le_refl _) fun _ h => h
  cases op with
  | begin =>
      refine .of_same rfl rfl rfl (by simp [Op.exec]) fun tx h => ?_
      exact (Txs.open?_start_of_lt e.now hLt).symm.trans h
  | claimSignal x id =>
      simp only [Op.exec]
      split
      · exact hNothing
      · split
        · exact hNothing
        · exact kept_lock _ (hApart hPermits.1)
  | lockTrigger x signal id => exact kept_lock _ (hApart hPermits.1)
  | lockForReplay x organization id =>
      have hTx : n.tx = some x := by rw [show n = { tx := some x } from hPermits]
      simp only [Op.exec]
      split
      · exact hNothing
      · exact kept_lock _ (hApart hTx)
  | listening | ended | debounced | readForReplay | pending => exact hNothing
  | setPorts ports => exact .of_same rfl rfl rfl (Nat.le_refl _) fun _ h => h
  | assign tx input origin =>
      have hSame (tasks : List TaskRow) : Kept s { s with tasks } y :=
        .of_same rfl rfl rfl (Nat.le_refl _) fun _ h => h
      simp only [Op.exec, Store.assignWithStatus]
      split
      · exact hNothing
      · split
        · exact hNothing
        · split
          · exact hNothing
          · exact hSame _
          · split
            · exact hNothing
            · exact hSame _
  | insertFiring x row =>
      simp only [Op.exec, Store.insertFiring]
      split
      · exact hNothing
      · exact kept_write _ (hApart hPermits.1)
  | countFired x t => exact kept_write _ (hApart hPermits.1)
  | countFailed x t error => exact kept_write _ (hApart hPermits.1)
  | process x id => exact kept_write _ (hApart hPermits.1)
  | commit x => exact kept_commit hBooks hKnows hPermits.1 (hApart hPermits.1)
  | rollback x => exact kept_close
  | insertSignal new =>
      refine ⟨Nat.le_refl _, fun _ h => h, fun {σ row} _ hRow => ⟨row, ?_, rfl⟩,
        fun _ hRow => hRow, fun f hf _ => ⟨f, hf, rfl, rfl, rfl, rfl, rfl⟩⟩
      have hOld := (List.getElem?_eq_some_iff.mp hRow).1
      simpa [Op.exec, List.getElem?_append_left hOld] using hRow
  | insertTrigger rule caller organization =>
      refine ⟨Nat.le_refl _, fun _ h => h, fun {_ row} _ hRow => ⟨row, hRow, rfl⟩,
        fun {t row} _ hRow => ?_, fun f hf _ => ⟨f, hf, rfl, rfl, rfl, rfl, rfl⟩⟩
      have hOld := (List.getElem?_eq_some_iff.mp hRow).1
      simpa [Op.exec, List.getElem?_append_left hOld] using hRow
  | editTrigger id rule =>
      refine ⟨Nat.le_refl _, fun _ h => h, fun {_ row} _ hRow => ⟨row, hRow, rfl⟩,
        fun {t row} hHolds hRow => ?_, fun f hf _ => ⟨f, hf, rfl, rfl, rfl, rfl, rfl⟩⟩
      have hOther : id ≠ t := by
        rintro rfl
        exact Txs.not_holds_of_free hFree y hHolds
      simp [Op.exec, Store.modifyTrigger, hOther, hRow]
  | deleteTask z =>
      refine ⟨Nat.le_refl _, fun _ h => h, fun {σ row} _ hRow => ?_, fun _ hRow => hRow,
        fun f hf _ => ?_⟩
      · exact ⟨{ row with causingTask := row.causingTask.filter (!s.isBelow · z) },
          by simp [Op.exec, Store.deleteTask, hRow], rfl⟩
      · obtain ⟨g, hg, rfl⟩ := List.mem_map.mp hf
        exact ⟨g, hg, rfl, rfl, rfl, rfl, rfl⟩

end

end Rekuest.Triggers
