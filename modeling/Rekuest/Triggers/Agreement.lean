import Rekuest.Triggers.Cover

/-!
# The firing log agrees with the runs

Once a signal is processed, the runs that are there for it are those its firings
name.  The log is written in the transaction that processes the signal and the
runs are not, so this rests on what a call with the signal claimed still covers:
it holds in every run, crashes included, in which what is matched a second time
decides as it did the first time.
-/

namespace Rekuest.Triggers

open Concurrent

variable {settings : Settings} {e : Env} {s : Store} {n : Notes}

/-! ## What the call itself covers -/

/-- A statement that is no assign in a transaction makes no run. -/
theorem namedRun_back {op : Op} {t σ x : Nat} (hPermits : permits settings n op)
    (hAgain : firesAgain settings e op s) (hNo : ∀ y input origin, op ≠ .assign (some y) input origin)
    (h : (Op.exec settings e op s).2.NamedRun t σ x) : s.NamedRun t σ x := by
  rcases named_cases hPermits hAgain h with hOld | ⟨⟨y, input, origin, _, _, hOp, -⟩, -⟩
  · exact hOld
  · exact absurd hOp (hNo y input origin)

theorem covered_listening {signal : Signal} {x : Nat} (h : Covered settings s n signal)
    (hAgain : firesAgain settings e (.listening x signal) s) :
    Covered settings s { n with
      listening := some ((List.range s.triggers.length).filter fun id =>
        s.triggers[id]?.any (Store.listens · signal)) } signal := by
  refine ⟨h.deep, fun t y hNamed ids hIds => ?_, h.gone, h.met, h.stage, h.logged⟩
  have hListens := hAgain t y hNamed
  obtain ⟨row, hRow, -⟩ := (Option.any_eq_true _ _).mp hListens
  have hLt := (List.getElem?_eq_some_iff.mp hRow).1
  cases hIds
  exact List.mem_filter.mpr ⟨List.mem_range.mpr hLt, hListens⟩

/-- **Step lemma**: a call still covers the runs of its signal after its own statement. -/
theorem covers_own {op : Op} (hKnows : Knows s n) (hTree : Tree s) (hOwned : s.Owned)
    (h : n.Covers settings s) (hPermits : permits settings n op)
    (hAgain : firesAgain settings e op s) (hBooks : Books s) (hFree : op.blocked s = false) :
    (noted n op (Op.exec settings e op s).1).Covers settings (Op.exec settings e op s).2 := by
  intro y signal hTx hOpen hSignal
  -- what leaves the notes as they are
  have hSame (hNo : ∀ y input origin, op ≠ .assign (some y) input origin) (hTx : n.tx = some y)
      (hSignal : n.signal = some signal) : Covered settings (Op.exec settings e op s).2 n signal := by
    have hLt := (hKnows.holding y hTx).1
    exact (h y signal hTx (open_back hLt hOpen) hSignal).fewer fun t x hNamed =>
      namedRun_back hPermits hAgain hNo hNamed
  -- and what changes them in the open transaction of the claimed signal
  have hNow (hTx : n.tx = some y) (hSignal : n.signal = some signal) :
      Covered settings s n signal :=
    h y signal hTx (open_back (hKnows.holding y hTx).1 hOpen) hSignal
  cases op with
  | begin => cases hSignal
  | claimSignal x id =>
      obtain ⟨-, rfl⟩ := hPermits
      simp only [Op.exec] at hSignal ⊢
      split at hSignal
      case h_1 => cases hSignal
      case h_2 row hRow =>
        split at hSignal
        case isTrue => cases hSignal
        case isFalse hUnlocked =>
          cases hSignal
          have hRow : s.signals[id]? = some row := (Option.filter_eq_some_iff.mp hRow).1
          simp only [hUnlocked]
          have hClaimed : Covered settings s { tx := some x, signal := some (s.readSignal id row) }
              (s.readSignal id row) := covered_claimed hAgain hRow
          exact hClaimed.fewer fun _ _ hNamed => hNamed
  | listening x signal' =>
      obtain ⟨-, hSignal', -⟩ := hPermits
      obtain rfl := Option.some.inj (hSignal.symm.trans hSignal')
      exact covered_listening (hNow hTx hSignal) hAgain
  | lockTrigger x signal' t =>
      obtain ⟨hTx', hSignal', -, hStage, -⟩ := hPermits
      have hTxN : n.tx = some y := by
        generalize (Op.exec settings e (.lockTrigger x signal' t) s).1 = found at hTx
        cases (found : Option Trigger) <;> exact hTx
      have hSignalN : n.signal = some signal := by
        generalize (Op.exec settings e (.lockTrigger x signal' t) s).1 = found at hSignal
        cases (found : Option Trigger) <;> exact hSignal
      obtain rfl := Option.some.inj (hSignalN.symm.trans hSignal')
      exact (covered_lockTrigger (hNow hTxN hSignalN) hStage hAgain).fewer
        fun _ _ hNamed => hNamed
  | ended x signal' trigger =>
      obtain ⟨-, hSignal', -⟩ := hPermits
      obtain rfl := Option.some.inj (hSignal.symm.trans hSignal')
      refine (hNow hTx hSignal).at_stage fun z hNamed => ?_
      have hUnended := hAgain z hNamed
      simp only [Op.exec, hUnended]
      exact .inl rfl
  | debounced x signal' trigger =>
      obtain ⟨-, hSignal', -⟩ := hPermits
      obtain rfl := Option.some.inj (hSignal.symm.trans hSignal')
      refine (hNow hTx hSignal).at_stage fun z hNamed => ?_
      have hClear := hAgain z hNamed
      simp only [Op.exec, hClear]
      exact .inr (.inl rfl)
  | assign by' input origin =>
      cases by' with
      | none => exact hSame (fun _ _ _ hOp => by cases hOp) hTx hSignal
      | some x =>
          have hTxN : n.tx = some y := by
            generalize (Op.exec settings e (.assign (some x) input origin) s).1 = assigned at hTx
            cases (assigned : Except String Assigned) <;> exact hTx
          have hSignalN : n.signal = some signal := by
            generalize (Op.exec settings e (.assign (some x) input origin) s).1 = assigned
              at hSignal
            cases (assigned : Except String Assigned) <;> exact hSignal
          exact covered_assign hKnows hTree hOwned (hNow hTxN hSignalN) hSignalN hPermits hAgain
  | insertFiring x row =>
      have hTx' : n.tx = some x := hPermits.1
      cases hTxOpen : s.txs.open? x with
      | none =>
          simp [Op.blocked, hTxOpen] at hFree
      | some tx =>
          have hWritten := written_of_permits hBooks hKnows hPermits hTxOpen
          simp only [Op.exec, Store.insertFiring, hWritten] at hTx hSignal hOpen ⊢
          have hOpenS : (s.txs.open? y).isSome = true := by
            rw [show y = x from Option.some.inj (hTx.symm.trans hTx'), hTxOpen]
            rfl
          exact (covered_insertFiring (h y signal hTx hOpenS hSignal) hPermits hSignal).fewer
            fun _ _ hNamed => hNamed
  | commit x =>
      obtain rfl : x = y := Option.some.inj (hPermits.1.symm.trans hTx)
      rw [show (Op.exec settings e (.commit x) s).2.txs.open? x = none from open?_commit] at hOpen
      cases hOpen
  | lockForReplay x organization id =>
      obtain rfl : n = { tx := some x } := hPermits
      generalize (Op.exec settings e (.lockForReplay x organization id) s).1 = found at hSignal
      cases (found : Option Trigger) <;> cases hSignal
  | countFired | countFailed | process =>
      have hCovered := hSame (fun _ _ _ hOp => by cases hOp) hTx hSignal
      exact ⟨hCovered.deep, hCovered.listening, hCovered.gone, hCovered.met, hCovered.stage,
        hCovered.logged⟩
  | rollback | readForReplay | pending | insertSignal | insertTrigger | editTrigger | setPorts
  | deleteTask => exact hSame (fun _ _ _ hOp => by cases hOp) hTx hSignal

/-! ## What the call says it ran -/

/-- The task that an assign gives bears the name it was asked for. -/
theorem bearsName_assigned {input : AssignInput} {origin : AssignOrigin} {t σ : Nat}
    {assigned : Assigned} (hReference : input.reference = runReference t σ)
    (hOk : (s.assignWithStatus e input origin).1 = .ok assigned) :
    (s.assignWithStatus e input origin).2.BearsName t σ assigned.task := by
  rcases assign_cases e s input origin with ⟨hSame, hFound⟩ | ⟨row, rest, hAssigns⟩
  · obtain ⟨row, hRow, -, -, hNamed⟩ := Store.named_eq_some (hFound assigned hOk)
    exact ⟨row, by rw [hSame]; exact hRow, hNamed.trans hReference⟩
  · have hTask := hAssigns.result.symm.trans hOk
    cases hTask
    refine ⟨row, ?_, hAssigns.made.reference.trans hReference⟩
    rw [hAssigns.state]
    simp

theorem Notes.Names.exec {op : Op} (h : n.Names s) : n.Names (Op.exec settings e op s).2 where
  stage := fun signal t y hSignal hStage => (h.stage signal t y hSignal hStage).exec
  logged := by
    intro row hRow hReplay hFired
    obtain ⟨y, hTask, hBears⟩ := h.logged row hRow hReplay hFired
    exact ⟨y, hTask, hBears.exec⟩

/-- A stage other than a run names nothing. -/
theorem Notes.Names.at_stage {t : Nat} {stage' : Stage} (h : n.Names s)
    (hNot : ∀ y, stage' ≠ .ran y) : ({ n with stage := some (t, stage') } : Notes).Names s where
  stage := by
    intro signal t' y _ hStage
    cases hStage
    exact absurd rfl (hNot y)
  logged := h.logged

theorem names_assign {input : AssignInput} {origin : AssignOrigin} {x : Nat} (h : n.Names s)
    (hPermits : permits settings n (.assign (some x) input origin)) :
    (noted n (.assign (some x) input origin)
      (Op.exec settings e (.assign (some x) input origin) s).1).Names
        (Op.exec settings e (.assign (some x) input origin) s).2 := by
  have hLater : n.Names (Op.exec settings e (.assign (some x) input origin) s).2 := h.exec
  have hBears := fun t σ => @bearsName_assigned e s input origin t σ
  obtain ⟨-, hRun⟩ := hPermits
  rw [Notes.PermitsRun] at hRun
  simp only [Op.exec] at hLater ⊢
  generalize s.assignWithStatus e input origin = after at hLater hBears ⊢
  obtain ⟨assigned, s'⟩ := after
  cases (assigned : Except String Assigned) with
  | error error =>
      refine ⟨fun signal t y hSignal hStage => ?_, hLater.logged⟩
      obtain ⟨t', -, hEq⟩ := Option.map_eq_some_iff.mp hStage
      cases hEq
  | ok assigned =>
      refine ⟨fun signal t y hSignal hStage => ?_, hLater.logged⟩
      split at hRun
      case isTrue =>
        rw [show n.signal = some signal from hSignal] at hRun
        cases hRun.1
      case isFalse =>
        obtain ⟨signal', trigger, hSignal', -, -, -, -, -, rfl, rfl⟩ := hRun
        obtain rfl := Option.some.inj (hSignal.symm.trans hSignal')
        cases hStage
        exact hBears trigger.id signal.id rfl rfl

theorem names_insertFiring {row : NewFiring} {x : Nat} {s' : Store} (h : n.Names s)
    (hLater : n.Names s') (hSame : ∀ t σ y, s.BearsName t σ y → s'.BearsName t σ y)
    (hPermits : permits settings n (.insertFiring x row)) : (noted n (.insertFiring x row) true).Names s' where
  stage := fun signal t y _ hStage => by cases hStage
  logged := by
    intro row' hRow' hReplay hFired
    rcases List.mem_append.mp hRow' with hOld | hLast
    · exact hLater.logged row' hOld hReplay hFired
    · obtain rfl := List.mem_singleton.mp hLast
      obtain ⟨-, -, -, trigger, -, hId, hOwn⟩ := hPermits
      obtain ⟨-, signal, hSignal, hSame', hJust⟩ := hOwn hReplay
      simp only [Notes.Justifies, hFired] at hJust
      obtain ⟨y, hTask, hStage⟩ := hJust
      refine ⟨y, hTask, hSame _ _ _ ?_⟩
      rw [hId, hSame']
      exact h.stage signal trigger.id y hSignal hStage

theorem names_own {op : Op} (h : n.Names s) (hPermits : permits settings n op) :
    (noted n op (Op.exec settings e op s).1).Names (Op.exec settings e op s).2 := by
  have hLater : n.Names (Op.exec settings e op s).2 := h.exec
  cases op with
  | begin => exact ⟨fun _ _ _ hSignal => (by cases hSignal), fun _ hRow => by cases hRow⟩
  | claimSignal x id =>
      obtain ⟨-, rfl⟩ := hPermits
      exact ⟨fun _ _ _ _ hStage => (by cases hStage), fun _ hRow => by cases hRow⟩
  | ended x signal trigger =>
      refine hLater.at_stage fun y => ?_
      generalize (Op.exec settings e (.ended x signal trigger) s).1 = ended
      cases (ended : Bool) <;> exact Stage.noConfusion
  | debounced x signal trigger =>
      refine hLater.at_stage fun y => ?_
      generalize (Op.exec settings e (.debounced x signal trigger) s).1 = debounced
      cases (debounced : Bool) <;> exact Stage.noConfusion
  | assign by' input origin =>
      cases by' with
      | none => exact hLater
      | some x => exact names_assign h hPermits
  | insertFiring x row =>
      have hBears : ∀ t σ y, s.BearsName t σ y →
          (Op.exec settings e (.insertFiring x row) s).2.BearsName t σ y := fun _ _ _ => .exec
      generalize (Op.exec settings e (.insertFiring x row) s).1 = written
      cases (written : Bool) with
      | true => exact names_insertFiring h hLater hBears hPermits
      | false => exact ⟨hLater.stage, hLater.logged⟩
  | lockTrigger x signal t =>
      generalize (Op.exec settings e (.lockTrigger x signal t) s).1 = found
      cases (found : Option Trigger) <;> exact ⟨hLater.stage, hLater.logged⟩
  | lockForReplay x organization t =>
      generalize (Op.exec settings e (.lockForReplay x organization t) s).1 = found
      cases (found : Option Trigger) <;> exact ⟨hLater.stage, hLater.logged⟩
  | listening | countFired | countFailed | process | commit | rollback | readForReplay | pending
  | insertSignal | insertTrigger | editTrigger | setPorts | deleteTask =>
      exact ⟨hLater.stage, hLater.logged⟩

/-! ## What a commit leaves -/

/-- The run of a name is gone. -/
def Store.DeletedRun (s : Store) (t σ : Nat) : Prop :=
  ∃ (x : Nat) (row : TaskRow), s.tasks[x]? = some row ∧ row.deleted = true ∧
    row.reference = runReference t σ

/-- The run of a firing, which the firing names; none if the run was deleted. -/
def Store.NamesRun (s : Store) (f : FiringRow) : Prop :=
  (∃ x, f.task = some x ∧ s.NamedRun f.trigger f.signal x) ∨
    (f.task = none ∧ s.DeletedRun f.trigger f.signal)

/-- A firing of a trigger's own run for a signal. -/
def FiringRow.FiredFor (f : FiringRow) (t σ : Nat) : Prop :=
  f.replay = false ∧ f.outcome = .fired ∧ f.trigger = t ∧ f.signal = σ

def Store.Processed (s : Store) (σ : Nat) : Prop :=
  ∃ row, s.signals[σ]? = some row ∧ row.processedAt.isSome = true

/-- The log and the runs, of the signals that are processed. -/
structure Agreed (s : Store) : Prop where
  logged : ∀ t σ x, s.Processed σ → s.NamedRun t σ x →
    ∃ f ∈ s.firings, f.FiredFor t σ ∧ f.task = some x
  run : ∀ f ∈ s.firings, f.replay = false → f.outcome = .fired → s.NamesRun f

/-- A deleted run stays so. -/
theorem Store.DeletedRun.exec {op : Op} {t σ : Nat} (h : s.DeletedRun t σ) :
    (Op.exec settings e op s).2.DeletedRun t σ := by
  obtain ⟨x, row, hRow, hDeleted, hReference⟩ := h
  obtain ⟨row', hRow', hKeeps⟩ := task_kept settings e op hRow
  refine ⟨x, row', hRow', ?_, hKeeps.reference.trans hReference⟩
  cases hLive : row'.deleted with
  | true => rfl
  | false => exact absurd (hKeeps.live hLive) (by simp [hDeleted])

/-- A run stays but for a deletion. -/
theorem namedRun_exec {op : Op} {t σ x : Nat} (h : s.NamedRun t σ x)
    (hNo : ∀ y, op = .deleteTask y → s.isBelow x y = false) :
    (Op.exec settings e op s).2.NamedRun t σ x := by
  obtain ⟨row, hRow, hLive, hReference⟩ := h
  rcases tasks_exec settings e s op with hSame | ⟨y, rfl⟩ | ⟨by', input, origin, _, _, rfl,
    hAssigns⟩
  · exact ⟨row, by rw [hSame]; exact hRow, hLive, hReference⟩
  · exact ⟨row, by simp [Op.exec, Store.deleteTask, hRow, hNo y rfl], hLive, hReference⟩
  · refine ⟨row, ?_, hLive, hReference⟩
    rw [show (Op.exec settings e (.assign by' input origin) s).2 = _ from hAssigns.state]
    exact (List.getElem?_append_left (List.getElem?_eq_some_iff.mp hRow).1).trans hRow

/-- What becomes of a firing's run. -/
theorem namesRun_exec {op : Op} {f : FiringRow} (h : s.NamesRun f)
    (hNo : ∀ y, op ≠ .deleteTask y) : (Op.exec settings e op s).2.NamesRun f := by
  rcases h with ⟨x, hTask, hNamed⟩ | ⟨hNone, hDeleted⟩
  · exact .inl ⟨x, hTask, namedRun_exec hNamed fun y hOp => absurd hOp (hNo y)⟩
  · exact .inr ⟨hNone, hDeleted.exec⟩

/-- A deletion takes a run out of the log where it takes the run away. -/
theorem namesRun_delete {f : FiringRow} {y : Nat} (h : s.NamesRun f) :
    (s.deleteTask y).NamesRun { f with task := f.task.filter (!s.isBelow · y) } := by
  rcases h with ⟨x, hTask, hNamed⟩ | ⟨hNone, hDeleted⟩
  · have ⟨row, hRow, hLive, hReference⟩ := hNamed
    cases hBelow : s.isBelow x y with
    | true =>
        refine .inr ⟨by simp [hTask, hBelow], x, { row with deleted := true }, ?_, rfl, hReference⟩
        simp [Store.deleteTask, hRow, hBelow]
    | false =>
        refine .inl ⟨x, by simp [hTask, hBelow], row, ?_, hLive, hReference⟩
        simp [Store.deleteTask, hRow, hBelow]
  · refine .inr ⟨by simp [hNone], ?_⟩
    have hLater : (Op.exec {} {} (.deleteTask y) s).2.DeletedRun f.trigger f.signal :=
      hDeleted.exec
    exact hLater

/-- The signals that are processed after a statement: they were, or it commits the
transaction of a call that claimed them. -/
theorem processed_cases {op : Op} {σ : Nat} (hKnows : Knows s n)
    (hPermits : permits settings n op) (h : (Op.exec settings e op s).2.Processed σ) :
    s.Processed σ ∨ ∃ x tx signal, op = .commit x ∧ s.txs.open? x = some tx ∧
      tx.writes.all s.refers = true ∧ n.signal = some signal ∧ signal.id = σ ∧
      (Op.exec settings e op s).2 =
        { tx.writes.foldl Store.applyWrite s with txs := s.txs.close x } := by
  obtain ⟨row', hRow', hDone⟩ := h
  have hChanges := changes_exec settings e s op
  generalize (Op.exec settings e op s).2 = s' at hRow' hChanges
  cases hChanges with
  | txs | assign | ports | trigger | rule => exact .inl ⟨row', hRow', hDone⟩
  | signal new =>
      by_cases hLt : σ < s.signals.length
      · exact .inl ⟨row', (List.getElem?_append_left hLt).symm.trans hRow', hDone⟩
      · rw [List.getElem?_append_right (by omega)] at hRow'
        rw [List.mem_singleton.mp (List.mem_of_getElem? hRow')] at hDone
        cases hDone
  | delete y =>
      simp only [Store.deleteTask, List.getElem?_map] at hRow'
      obtain ⟨row, hRow, rfl⟩ := Option.map_eq_some_iff.mp hRow'
      exact .inl ⟨row, hRow, hDone⟩
  | commit x tx hOpen hRefers =>
      have hHolding := (hKnows.holding x hPermits.1).2 tx hOpen
      by_cases hWrites : ∃ time, .processed σ time ∈ tx.writes
      · obtain ⟨time, hWrite⟩ := hWrites
        obtain ⟨signal, hSignal, hSame⟩ := hHolding.ledger.claims σ time hWrite
        exact .inr ⟨x, tx, signal, rfl, hOpen, hRefers, hSignal, hSame, rfl⟩
      · refine .inl ?_
        have hLength : (tx.writes.foldl Store.applyWrite s).signals.length = s.signals.length :=
          applyAll_signals_length
        have hLt := (List.getElem?_eq_some_iff.mp hRow').1
        have hThere : σ < s.signals.length := hLength ▸ hLt
        obtain ⟨at', hNow, -, -, hSame⟩ :=
          Store.applyAll_signal tx.writes (List.getElem?_eq_getElem hThere)
        have hEq := Option.some.inj (hRow'.symm.trans hNow)
        refine ⟨_, List.getElem?_eq_getElem hThere, ?_⟩
        rw [hEq, hSame fun time hMem => hWrites ⟨time, hMem⟩] at hDone
        exact hDone

/-- **A commit logs every run of its signal.** -/
theorem logged_commit {x t y : Nat} {tx : Tx Row Write} {signal : Signal}
    (hCovers : n.Covers settings s) (hKnows : Knows s n)
    (hPermits : permits settings n (.commit x)) (hOpen : s.txs.open? x = some tx)
    (hSignal : n.signal = some signal) (hNamed : s.NamedRun t signal.id y) :
    ∃ f ∈ firingsIn tx.writes, f.FiredFor t signal.id ∧ f.task = some y := by
  obtain ⟨hTx, -, hAll⟩ := hPermits
  have hHolding := (hKnows.holding x hTx).2 tx hOpen
  have hCovered := hCovers x signal hTx (by rw [hOpen]; rfl) hSignal
  obtain ⟨-, ids, hListening, hHandled⟩ := hAll signal hSignal
  rcases hHandled t (hCovered.listening t y hNamed ids hListening) with hGone | hLogged | hDropped
  · exact absurd hGone (hCovered.gone t y hNamed)
  · obtain ⟨row, hRow, rfl⟩ := List.mem_map.mp hLogged
    obtain ⟨hReplay, hFired, hTask⟩ := hCovered.logged row hRow y hNamed
    obtain ⟨signal', hSignal', hSame⟩ := hHolding.ledger.own row hRow hReplay
    obtain rfl := Option.some.inj (hSignal.symm.trans hSignal')
    rw [← hHolding.ledger.agrees] at hRow
    obtain ⟨f, hf, rfl⟩ := List.mem_map.mp hRow
    exact ⟨f, hf, ⟨hReplay, hFired, rfl, hSame⟩, hTask⟩
  · rw [hHolding.ledger.kept] at hDropped
    cases hDropped

/-- **Step lemma** of the agreement. -/
theorem agreed_exec {op : Op} {ns : List Notes} {i : Nat} (hFirm : Firm s ns)
    (hGet : ns[i]? = some n) (hCovers : n.Covers settings s) (hNames : n.Names s)
    (h : Agreed s) (hPermits : permits settings n op) (hAgain : firesAgain settings e op s) :
    Agreed (Op.exec settings e op s).2 := by
  have hKnows := hFirm.knows n (List.mem_of_getElem? hGet)
  constructor
  · intro t σ y hProcessed hNamed
    have hBack : s.NamedRun t σ y ∨ ¬ s.Processed σ := by
      rcases named_cases hPermits hAgain hNamed with hOld | ⟨⟨x, _, _, _, _, -, hTx, hOpen, -⟩,
        signal, _, hSignal, rfl, -⟩
      · exact .inl hOld
      · -- a run is only made while its signal is claimed
        obtain ⟨tx, hTxOpen⟩ := Option.isSome_iff_exists.mp hOpen
        obtain ⟨row, hRow, hNot⟩ :=
          (((hKnows.holding x hTx).2 tx hTxOpen).claimed signal hSignal).2
        refine .inr fun ⟨row', hRow', hDone⟩ => ?_
        obtain rfl := Option.some.inj (hRow.symm.trans hRow')
        rw [hNot] at hDone
        cases hDone
    rcases processed_cases hKnows hPermits hProcessed with hWas | ⟨x, tx, signal, rfl, hOpen, -,
      hSignal, rfl, hState⟩
    · rcases hBack with hOld | hNot
      · obtain ⟨f, hf, hFired, hTask⟩ := h.logged t σ y hWas hOld
        rcases firings_exec settings e s op with ⟨z, rfl⟩ | hSame | ⟨x, tx, rfl, -, -, hState⟩
        · -- the run is there, so it is not below the one deleted
          have hAbove : s.isBelow y z = false := by
            obtain ⟨row', hRow', hLive, -⟩ := hNamed
            obtain ⟨row, hRow, -⟩ := hOld
            simp only [Op.exec, Store.deleteTask, List.getElem?_mapIdx, hRow,
              Option.map_some, Option.some.injEq] at hRow'
            cases hBelow : s.isBelow y z with
            | false => rfl
            | true =>
                rw [if_pos hBelow] at hRow'
                rw [← hRow'] at hLive
                cases hLive
          refine ⟨_, List.mem_map_of_mem hf, hFired, ?_⟩
          simp [hTask, hAbove]
        · exact ⟨f, by rw [hSame]; exact hf, hFired, hTask⟩
        · refine ⟨f, ?_, hFired, hTask⟩
          rw [hState, show Store.firings { tx.writes.foldl Store.applyWrite s with
            txs := s.txs.close x } = _ from Store.applyAll_firings]
          exact List.mem_append_left _ hf
      · exact absurd hWas hNot
    · have hOld : s.NamedRun t signal.id y := namedRun_back hPermits hAgain
        (fun _ _ _ hOp => by cases hOp) hNamed
      obtain ⟨f, hf, hFired, hTask⟩ := logged_commit hCovers hKnows hPermits hOpen hSignal hOld
      refine ⟨f, ?_, hFired, hTask⟩
      rw [hState, show Store.firings { tx.writes.foldl Store.applyWrite s with
        txs := s.txs.close x } = _ from Store.applyAll_firings]
      exact List.mem_append_right _ hf
  · intro f hf hReplay hFired
    rcases firings_exec settings e s op with ⟨z, rfl⟩ | hSame | ⟨x, tx, rfl, hOpen, hRefers, hState⟩
    · obtain ⟨g, hg, rfl⟩ := List.mem_map.mp hf
      exact namesRun_delete (h.run g hg hReplay hFired)
    · have hRun := h.run f (hSame ▸ hf) hReplay hFired
      by_cases hDelete : ∃ z, op = .deleteTask z
      · obtain ⟨z, rfl⟩ := hDelete
        obtain ⟨g, hg, rfl⟩ := List.mem_map.mp hf
        exact namesRun_delete (h.run g hg hReplay hFired)
      · exact namesRun_exec hRun fun y hOp => hDelete ⟨y, hOp⟩
    · rw [hState, show Store.firings { tx.writes.foldl Store.applyWrite s with
        txs := s.txs.close x } = _ from Store.applyAll_firings] at hf
      rcases List.mem_append.mp hf with hOld | hNew
      · exact namesRun_exec (h.run f hOld hReplay hFired) fun y hOp => by cases hOp
      · have hHolding := (hKnows.holding x hPermits.1).2 tx hOpen
        obtain ⟨hLogged, hWrite⟩ := hHolding.ledger.mem_firings hNew
        obtain ⟨y, hTask, row, hRow, hReference⟩ := hNames.logged _ hLogged hReplay hFired
        -- the run is there when the firing is committed
        have hThere : (s.task? y).isSome = true := by
          have hHolds := List.all_eq_true.mp hRefers _ hWrite
          simpa [Store.refers, hTask] using hHolds
        obtain ⟨row', hLive⟩ := Option.isSome_iff_exists.mp hThere
        obtain ⟨hRow', hNot⟩ := Option.filter_eq_some_iff.mp hLive
        obtain rfl := Option.some.inj (hRow.symm.trans hRow')
        have hNamed : s.NamedRun f.trigger f.signal y := ⟨row, hRow, by simpa using hNot, hReference⟩
        exact .inl ⟨y, hTask, namedRun_exec hNamed fun z hOp => by cases hOp⟩

/-! ## Along a run -/

/-- What the log of a processed signal rests on. -/
structure Covering (settings : Settings) (s : Store) (ns : List Notes) : Prop where
  tree : Tree s
  owned : s.Owned
  covers : ∀ n ∈ ns, n.Covers settings s
  names : ∀ n ∈ ns, n.Names s
  agreed : Agreed s

theorem Covering.initial {c : TriggersConfig} (h : Initial c) : Covering settings c.state [] where
  tree := .initial h
  owned := fun t σ x hNamed => by
    obtain ⟨row, hRow, -⟩ := hNamed
    simp [h.tasks] at hRow
  covers := fun _ hn => by cases hn
  names := fun _ hn => by cases hn
  agreed := by
    refine ⟨fun t σ x hProcessed => ?_, fun f hf => ?_⟩
    · obtain ⟨row, hRow, -⟩ := hProcessed
      simp [h.signals] at hRow
    · simp [h.firings] at hf

theorem Covering.start {ns : List Notes} (h : Covering settings s ns) :
    Covering settings s (ns ++ [({} : Notes)]) where
  tree := h.tree
  owned := h.owned
  covers := by
    intro n hn
    rcases List.mem_append.mp hn with hOld | hLast
    · exact h.covers n hOld
    · obtain rfl := List.mem_singleton.mp hLast
      intro y signal hTx
      cases hTx
  names := by
    intro n hn
    rcases List.mem_append.mp hn with hOld | hLast
    · exact h.names n hOld
    · obtain rfl := List.mem_singleton.mp hLast
      exact ⟨fun _ _ _ hSignal => (by cases hSignal), fun _ hRow => by cases hRow⟩
  agreed := h.agreed

theorem covering_exec {op : Op} {ns : List Notes} {i : Nat} (hFirm : Firm s ns)
    (h : Covering settings s ns) (hGet : ns[i]? = some n) (hPermits : permits settings n op)
    (hFree : op.blocked s = false) (hAgain : firesAgain settings e op s) :
    Covering settings (Op.exec settings e op s).2
      (ns.set i (noted n op (Op.exec settings e op s).1)) := by
  have hMine := List.mem_of_getElem? hGet
  have hKnows := hFirm.knows n hMine
  refine ⟨tree_exec h.tree hKnows hPermits, owned_exec h.owned hPermits hAgain, fun m hm => ?_,
    fun m hm => ?_, agreed_exec hFirm hGet (h.covers n hMine) (h.names n hMine) h.agreed hPermits
      hAgain⟩
  · obtain ⟨j, hj⟩ := List.mem_iff_getElem?.mp hm
    by_cases hEq : i = j
    · subst hEq
      rw [List.getElem?_set_self (List.getElem?_eq_some_iff.mp hGet).1] at hj
      obtain rfl := Option.some.inj hj
      exact covers_own hKnows h.tree h.owned (h.covers n hMine) hPermits hAgain hFirm.books hFree
    · rw [List.getElem?_set_ne hEq] at hj
      exact covers_other hFirm hGet hj (Ne.symm hEq) hPermits hAgain
        (h.covers m (List.mem_of_getElem? hj))
  · rcases List.mem_or_eq_of_mem_set hm with hOld | rfl
    · exact (h.names m hOld).exec
    · exact names_own (h.names n hMine) hPermits

/-- The log of a trigger and a signal agrees with the runs. -/
structure Store.LogAgrees (s : Store) (t σ : Nat) : Prop where
  logged : ∀ x, s.NamedRun t σ x → ∃ f ∈ s.firings, f.FiredFor t σ ∧ f.task = some x
  run : ∀ f ∈ s.firings, f.FiredFor t σ → s.NamesRun f
  once : s.firings.countP (·.isFor t σ) ≤ 1
  counted : ∀ row, s.triggers[t]? = some row →
    row.runCount = s.firings.countP (·.isRun t)

/-- **The log of a processed signal agrees with its runs** in every run in which
what is matched a second time decides as it did the first time. -/
theorem log_agrees_where_fires_again {c₀ c : TriggersConfig} (h₀ : Initial c₀)
    (hRun : (replicas settings).Run (Machine.onStep (firesAgain settings)) c₀ c) (t σ : Nat)
    (hProcessed : c.state.Processed σ) : c.state.LogAgrees t σ := by
  have hStart : Sound settings (Covering settings) c₀ := .initial h₀ (.initial h₀)
  obtain ⟨ns, -, hFirm, hCovering⟩ := hStart.run (fun _ _ h => h) (fun _ _ h => h.start)
    (fun e op s i n ns hFirm h hGet hPermits hFree hAgain =>
      covering_exec hFirm h hGet hPermits hFree hAgain) hRun
  refine ⟨fun x hNamed => hCovering.agreed.logged t σ x hProcessed hNamed,
    fun f hf hFired => ?_, hFirm.books.once t σ, fun row hRow => hFirm.books.counted hRow⟩
  obtain ⟨hReplay, hOutcome, -, -⟩ := hFired
  exact hCovering.agreed.run f hf hReplay hOutcome

/-! ## A crash between the run and its firing -/

/-- There is no run but that of the first trigger for the first signal, and it fires again. -/
def firstAgain (settings : Settings) (e : Env) (op : Op) (s : Store) : Prop :=
  (∀ row ∈ s.tasks, row.reference = runReference 0 0) ∧
  match op with
  | .claimSignal _ σ => s.signals[σ]?.all fun row =>
      ((s.readSignal σ row).depth : Int) ≤ settings.triggerMaxDepth
  | .listening _ signal => s.triggers[0]?.any (Store.listens · signal) = true
  | .lockTrigger _ signal t => (s.lockedTrigger settings signal t).any fun trigger =>
      trigger.conditionsMet && trigger.requiresMet
  | .ended _ _ trigger => trigger.ended e.now = false
  | .debounced tx signal trigger =>
      s.debounced trigger signal (((s.txs.open? tx).map (·.started)).getD e.now) = false
  | .assign (some tx) input _ => e.fresh = "" ∧ (s.txs.open? tx).isSome = true ∧
      (s.named input.caller input.reference).all fun x => (s.sameAssign x input).isOk
  | .assign none _ _ => False
  | _ => True

instance (e : Env) (op : Op) (s : Store) : Decidable (firstAgain settings e op s) :=
  match op with
  | .claimSignal .. | .listening .. | .lockTrigger .. | .ended .. | .debounced .. |
    .assign (some _) .. | .assign none .. | .begin | .insertFiring .. | .countFired .. |
    .countFailed .. | .process .. | .commit _ | .rollback _ | .readForReplay .. |
    .lockForReplay .. | .pending _ | .insertSignal _ | .insertTrigger .. | .editTrigger .. |
    .setPorts _ | .deleteTask _ => inferInstanceAs (Decidable (_ ∧ _))

theorem runReference_ne_empty (t σ : Nat) : "" ≠ runReference t σ := by
  intro hEq
  have hList := congrArg String.toList hEq
  rw [toList_runReference] at hList
  cases hList

theorem firesAgain_of_firstAgain {op : Op} (h : firstAgain settings e op s) :
    firesAgain settings e op s := by
  obtain ⟨hOnly, hOp⟩ := h
  cases op with
  | claimSignal x σ =>
      intro t y row _ hRow
      simpa [hRow] using hOp
  | listening x signal =>
      intro t y hNamed
      obtain ⟨row, hRow, -, hReference⟩ := hNamed
      have hFirst := hOnly row (List.mem_of_getElem? hRow)
      obtain ⟨rfl, -⟩ := runReference_inj (hReference.symm.trans hFirst)
      exact hOp
  | lockTrigger x signal t =>
      intro y _
      obtain ⟨trigger, hFound, hMet⟩ := (Option.any_eq_true _ _).mp hOp
      rw [Bool.and_eq_true] at hMet
      exact ⟨trigger, hFound, hMet⟩
  | ended x signal trigger => exact fun _ _ => hOp
  | debounced x signal trigger => exact fun _ _ => hOp
  | assign tx input origin =>
      cases tx with
      | none => exact hOp.elim
      | some tx =>
          obtain ⟨hFresh, hOpen, hSame⟩ := hOp
          refine ⟨fun t σ => hFresh ▸ runReference_ne_empty t σ, fun _ => ⟨hOpen, fun y hNamed => ?_⟩⟩
          rw [hNamed, Option.all_some] at hSame
          cases hAssign : s.sameAssign y input with
          | ok a => exact ⟨a, rfl⟩
          | error => simp [hAssign, Except.isOk, Except.toBool] at hSame
  | _ => trivial

/-- A call assigns the run of trigger 0 for signal 0, and crashes. -/
def crashAfterRun : List (Choice Env Request) :=
  [.start (.createTrigger onceRule 0 0), .step 0 {}, .start (.intake (imageCreated "a")),
    .step 1 {}, .start (.fireOne 0)] ++ Choice.steps 2 7 ({} : Env) ++
  [.crash 2, .start (.abort 0), .step 3 {}]

/-- The second pass logs the run that the first one left. -/
theorem log_agrees_after_crash : ∃ c, (replicas {}).Run (Machine.onStep (firesAgain {}))
      { state := {} } c ∧ c.state.tasks.length = 1 ∧
    c.state.firings.map (·.task) = [some 0] ∧ c.state.Processed 0 ∧ c.state.LogAgrees 0 0 := by
  obtain ⟨c, hRun, hCheck⟩ := System.run_of_play_any (replicas {})
    (Machine.onStep (firstAgain {})) { state := {} }
    (crashAfterRun ++ .start (.fireOne 0) :: Choice.steps 4 11 ({} : Env))
    (fun c => c.state.tasks.length = 1 ∧ c.state.firings.map (·.task) = [some 0] ∧
      (c.state.signals[0]?.any (·.processedAt.isSome)) = true)
    (by decide +kernel)
  obtain ⟨hLength, hTasks, hDone⟩ := of_decide_eq_true hCheck
  have hAgain := hRun.mono fun c a h =>
    Machine.onStep_mono (fun _ _ _ => firesAgain_of_firstAgain) h
  have hProcessed : c.state.Processed 0 := (Option.any_eq_true _ _).mp hDone
  exact ⟨c, hAgain, hLength, hTasks, hProcessed,
    log_agrees_where_fires_again ⟨rfl, rfl, rfl, rfl, rfl, rfl⟩ hAgain 0 0 hProcessed⟩

/-- Its owner switches the trigger off before the second pass: the run is there, and
no firing is. -/
theorem run_without_firing : Initial { state := {} } ∧ ∃ c,
    (replicas {}).Run System.anyStep { state := {} } c ∧ c.state.Processed 0 ∧
      c.state.NamedRun 0 0 0 ∧ c.state.firings = [] ∧ ¬ c.state.LogAgrees 0 0 := by
  refine ⟨⟨rfl, rfl, rfl, rfl, rfl, rfl⟩, ?_⟩
  obtain ⟨c, hRun, hCheck⟩ := System.run_of_play_any (replicas {}) System.anyStep
    { state := {} }
    (crashAfterRun ++ [.start (.editTrigger 0 { onceRule with enabled := false }), .step 4 {},
      .start (.fireOne 0)] ++ Choice.steps 5 5 ({} : Env))
    (fun c => c.state.tasks[0]?.any (fun row => !row.deleted && row.reference == runReference 0 0) ∧
      c.state.firings = [] ∧ (c.state.signals[0]?.any (·.processedAt.isSome)) = true)
    (by decide +kernel)
  obtain ⟨hTask, hNone, hDone⟩ := of_decide_eq_true hCheck
  obtain ⟨row, hRow, hIs⟩ := (Option.any_eq_true _ _).mp hTask
  rw [Bool.and_eq_true, Bool.not_eq_true', beq_iff_eq] at hIs
  have hNamed : c.state.NamedRun 0 0 0 := ⟨row, hRow, hIs⟩
  refine ⟨c, hRun, (Option.any_eq_true _ _).mp hDone, hNamed, hNone, fun hAgrees => ?_⟩
  obtain ⟨f, hf, -⟩ := hAgrees.logged 0 hNamed
  rw [hNone] at hf
  cases hf

end Rekuest.Triggers
