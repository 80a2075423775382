import Rekuest.Triggers.Chains

/-!
# The runs of a signal that is being matched

A run is committed before its firing is.  While a call has its signal claimed,
each run that is there for the signal, left by an earlier call or made by this
one, is on its way into the call's log: its trigger was found to listen, nothing
speaks against it, and once its turn came the logged row names it.  An earlier
run stays on its way only where the second pass decides as the first did.
-/

namespace Rekuest.Triggers

open Concurrent

variable {settings : Settings} {e : Env} {s : Store} {n : Notes}

/-- There is a run named `trigger:<t>:<σ>`. -/
def Store.NamedRun (s : Store) (t σ x : Nat) : Prop :=
  ∃ row, s.tasks[x]? = some row ∧ row.deleted = false ∧ row.reference = runReference t σ

/-- What is matched a second time decides as it did the first time: where a run is
there for a trigger and the signal, the trigger still listens, is met and not ended, the
chain is not too deep, nothing debounces it, and its assign is the one that made the run.
A run is only assigned in a transaction that is open, and nobody else uses its name. -/
def firesAgain (settings : Settings) (e : Env) (op : Op) (s : Store) : Prop :=
  match op with
  | .claimSignal _ σ => ∀ t x row, s.NamedRun t σ x → s.signals[σ]? = some row →
      ((s.readSignal σ row).depth : Int) ≤ settings.triggerMaxDepth
  | .listening _ signal => ∀ t x, s.NamedRun t signal.id x →
      s.triggers[t]?.any (Store.listens · signal) = true
  | .lockTrigger _ signal t => ∀ x, s.NamedRun t signal.id x →
      ∃ trigger, s.lockedTrigger settings signal t = some trigger ∧
        trigger.conditionsMet = true ∧ trigger.requiresMet = true
  | .ended _ signal trigger => ∀ x, s.NamedRun trigger.id signal.id x →
      trigger.ended e.now = false
  | .debounced tx signal trigger => ∀ x, s.NamedRun trigger.id signal.id x →
      s.debounced trigger signal (((s.txs.open? tx).map (·.started)).getD e.now) = false
  | .assign (some tx) input origin => (∀ t σ, e.fresh ≠ runReference t σ) ∧
      (origin.replay = false → (s.txs.open? tx).isSome = true ∧
        ∀ x, s.named input.caller input.reference = some x → ∃ a, s.sameAssign x input = .ok a)
  | .assign none input _ => (∀ t σ, e.fresh ≠ runReference t σ) ∧
      ∀ t σ, input.reference ≠ runReference t σ
  | _ => True

/-- The runs that are there for a signal that a call has claimed. -/
structure Covered (settings : Settings) (s : Store) (n : Notes) (signal : Signal) : Prop where
  deep : ∀ t x, s.NamedRun t signal.id x → (signal.depth : Int) ≤ settings.triggerMaxDepth
  listening : ∀ t x, s.NamedRun t signal.id x → ∀ ids, n.listening = some ids → t ∈ ids
  gone : ∀ t x, s.NamedRun t signal.id x → t ∉ n.gone
  met : ∀ trigger ∈ n.triggers, ∀ x, s.NamedRun trigger.id signal.id x →
    trigger.conditionsMet = true ∧ trigger.requiresMet = true
  stage : ∀ t x stage, s.NamedRun t signal.id x → n.stage = some (t, stage) →
    stage = .unended ∨ stage = .clear ∨ stage = .ran x
  logged : ∀ row ∈ n.logged, ∀ x, s.NamedRun row.trigger signal.id x →
    row.replay = false ∧ row.outcome = .fired ∧ row.task = some x

/-- While a call has its transaction. -/
def Notes.Covers (n : Notes) (settings : Settings) (s : Store) : Prop :=
  ∀ y signal, n.tx = some y → (s.txs.open? y).isSome = true → n.signal = some signal →
    Covered settings s n signal

/-- The task has the name of the run. -/
def Store.BearsName (s : Store) (t σ y : Nat) : Prop :=
  ∃ row, s.tasks[y]? = some row ∧ row.reference = runReference t σ

/-- What a call says it ran has the name of the run. -/
structure Notes.Names (n : Notes) (s : Store) : Prop where
  stage : ∀ signal t y, n.signal = some signal → n.stage = some (t, .ran y) →
    s.BearsName t signal.id y
  logged : ∀ row ∈ n.logged, row.replay = false → row.outcome = .fired →
    ∃ y, row.task = some y ∧ s.BearsName row.trigger row.signal y

/-! ## What gets the name of a run -/

theorem Store.BearsName.exec {op : Op} {t σ y : Nat} (h : s.BearsName t σ y) :
    (Op.exec settings e op s).2.BearsName t σ y := by
  obtain ⟨row, hRow, hReference⟩ := h
  obtain ⟨row', hRow', hKeeps⟩ := task_kept settings e op hRow
  exact ⟨row', hRow', hKeeps.reference.trans hReference⟩

/-- A call makes the run of a trigger it holds for the signal it claimed. -/
structure MakesRun (e : Env) (settings : Settings) (s : Store) (n : Notes) (op : Op)
    (t σ x : Nat) : Prop where
  made : ∃ y input origin row rest, op = .assign (some y) input origin ∧ n.tx = some y ∧
    (s.txs.open? y).isSome = true ∧ Assigns e s input origin row rest ∧ x = s.tasks.length ∧
    row.FiredFor t σ
  signal : ∃ signal trigger, n.signal = some signal ∧ signal.id = σ ∧ trigger ∈ n.triggers ∧
    trigger.id = t ∧ n.stage = some (t, .clear) ∧ trigger.conditionsMet = true ∧
    trigger.requiresMet = true ∧ (signal.depth : Int) ≤ settings.triggerMaxDepth

/-- The run of a name was there, or the call makes it. -/
theorem named_cases {op : Op} {t σ x : Nat} (hPermits : permits settings n op)
    (hAgain : firesAgain settings e op s) (h : (Op.exec settings e op s).2.NamedRun t σ x) :
    s.NamedRun t σ x ∨ MakesRun e settings s n op t σ x := by
  obtain ⟨row', hRow', hLive, hReference⟩ := h
  rcases task_cases hRow' with ⟨row, hRow, hKeeps⟩ | ⟨by', input, origin, row, rest, rfl, hAssigns,
    hNew⟩
  · exact .inl ⟨row, hRow, hKeeps.live hLive, hKeeps.reference.symm.trans hReference⟩
  · rcases hNew with ⟨rfl, rfl⟩ | ⟨rfl, hLower⟩
    · rw [hAssigns.made.reference] at hReference
      cases by' with
      | none => exact absurd hReference (hAgain.2 t σ)
      | some y =>
          obtain ⟨hTx, hRun⟩ := hPermits
          rw [Notes.PermitsRun] at hRun
          split at hRun
          case isTrue =>
            obtain ⟨-, -, -, t', σ', fresh, hReplay⟩ := hRun
            rw [hReplay] at hReference
            exact absurd hReference (replayReference_ne t' σ' t σ fresh)
          case isFalse hReplay =>
            obtain ⟨signal, trigger, hSignal, hTrigger, hStage, hConditions, hRequires, hDepth,
              rfl, rfl⟩ := hRun
            obtain ⟨rfl, rfl⟩ := runReference_inj hReference
            have hFired : row'.FiredFor trigger.id signal.id := by
              rw [TaskRow.FiredFor, hAssigns.made.origin]
              exact ⟨rfl, rfl, rfl⟩
            exact .inr ⟨⟨y, _, _, _, rest, rfl, hTx, (hAgain.2 rfl).1, hAssigns, rfl, hFired⟩,
              ⟨signal, trigger, hSignal, rfl, hTrigger, rfl, hStage, hConditions, hRequires,
                hDepth⟩⟩
    · rw [(hAssigns.lower row' hLower).reference] at hReference
      cases by' with
      | none => exact absurd hReference (hAgain.1 t σ)
      | some y => exact absurd hReference (hAgain.1 t σ)

/-- A run's name is only borne by the run of its trigger. -/
def Store.Owned (s : Store) : Prop :=
  ∀ t σ x, s.NamedRun t σ x → ∃ row, s.tasks[x]? = some row ∧ row.FiredFor t σ

theorem owned_exec {op : Op} (h : s.Owned) (hPermits : permits settings n op)
    (hAgain : firesAgain settings e op s) : (Op.exec settings e op s).2.Owned := by
  intro t σ x hNamed
  rcases named_cases hPermits hAgain hNamed with hOld | ⟨⟨y, input, origin, row, rest, rfl, -, -,
    hAssigns, rfl, hFired⟩, -⟩
  · obtain ⟨row, hRow, hFired⟩ := h t σ x hOld
    obtain ⟨row', hRow', hKeeps⟩ := task_kept settings e op hRow
    exact ⟨row', hRow', by rwa [TaskRow.FiredFor, hKeeps.origin]⟩
  · refine ⟨row, ?_, hFired⟩
    rw [show (Op.exec settings e (.assign (some y) input origin) s).2 = _ from hAssigns.state]
    simp

section

variable {t σ x : Nat}

/-- A run belongs to the owner of its trigger. -/
theorem Store.NamedRun.owner (h : s.NamedRun t σ x) (hTree : Tree s) (hOwned : s.Owned) :
    ∃ row trow, s.tasks[x]? = some row ∧ row.deleted = false ∧
      row.reference = runReference t σ ∧ s.triggers[t]? = some trow ∧
      trow.caller = row.caller := by
  obtain ⟨row, hRow, hFired⟩ := hOwned t σ x h
  obtain ⟨row', hRow', hLive, hReference⟩ := h
  obtain rfl := Option.some.inj (hRow.symm.trans hRow')
  obtain ⟨-, -, trow, hTrigger, hCaller⟩ := hTree.fired hRow hFired
  exact ⟨row, trow, hRow, hLive, hReference, hTrigger, hCaller⟩

theorem Store.NamedRun.unique {y : Nat} (hX : s.NamedRun t σ x) (hY : s.NamedRun t σ y)
    (hTree : Tree s) (hOwned : s.Owned) : x = y := by
  obtain ⟨rx, tx, hRx, hLiveX, hRefX, hTx, hCallerX⟩ := hX.owner hTree hOwned
  obtain ⟨ry, ty, hRy, hLiveY, hRefY, hTy, hCallerY⟩ := hY.owner hTree hOwned
  obtain rfl := Option.some.inj (hTx.symm.trans hTy)
  exact hTree.unique hRx hRy hLiveX hLiveY (hCallerX.symm.trans hCallerY)
    (hRefX.trans hRefY.symm)

end

/-- An assign of a trigger's run finds the run that is there. -/
theorem named_of_namedRun {t σ x : Nat} {trigger : Trigger} {caller : Nat} {reference : String}
    (h : s.NamedRun t σ x) (hTree : Tree s) (hOwned : s.Owned) (hKnows : Knows s n)
    (hTrigger : trigger ∈ n.triggers) (hId : trigger.id = t)
    (hCaller : caller = trigger.row.caller) (hReference : reference = runReference t σ) :
    s.named caller reference = some x := by
  obtain ⟨row, trow, hRow, hLive, hRef, hTrow, hOwner⟩ := h.owner hTree hOwned
  obtain ⟨trow', hTrow', hSame⟩ := hKnows.trigger trigger hTrigger
  rw [hId, hTrow, Option.some.injEq] at hTrow'
  subst hTrow'
  have hRowCaller : row.caller = caller := hOwner.symm.trans (hSame.trans hCaller.symm)
  cases hNamed : s.named caller reference with
  | none =>
      exact absurd (hRef.trans hReference.symm) (Store.named_eq_none hNamed hRow hLive hRowCaller)
  | some y =>
      obtain ⟨row', hRow', hLive', hCaller', hReference'⟩ := Store.named_eq_some hNamed
      rw [hTree.unique hRow hRow' hLive hLive' (hRowCaller.trans hCaller'.symm)
        (hRef.trans (hReference.symm.trans hReference'.symm))]

/-! ## What the others leave -/

/-- A transaction that has ended stays so. -/
theorem open_back {op : Op} {y : Nat} (hLt : y < s.txs.length)
    (h : ((Op.exec settings e op s).2.txs.open? y).isSome = true) :
    (s.txs.open? y).isSome = true := by
  have hLock {z : Nat} {row : Row} (h : ((s.txs.lock z row).open? y).isSome = true) :
      (s.txs.open? y).isSome = true := by
    by_cases hEq : y = z
    · subst hEq
      simpa [Txs.open?_lock_self] using h
    · rwa [Txs.open?_lock_ne row hEq] at h
  have hWrite {z : Nat} {w : Write} (h : ((s.txs.write z w).open? y).isSome = true) :
      (s.txs.open? y).isSome = true := by
    by_cases hEq : y = z
    · subst hEq
      simpa [Txs.open?_write_self] using h
    · rwa [Txs.open?_write_ne w hEq] at h
  have hClose {z : Nat} (h : ((s.txs.close z).open? y).isSome = true) :
      (s.txs.open? y).isSome = true := by
    by_cases hEq : y = z
    · subst hEq
      simp [Txs.open?_close_self] at h
    · rwa [Txs.open?_close_ne hEq] at h
  cases op with
  | begin =>
      rw [show (Op.exec settings e .begin s).2.txs.open? y = _ from
        Txs.open?_start_of_lt e.now hLt] at h
      exact h
  | claimSignal x id =>
      simp only [Op.exec] at h
      split at h
      · exact h
      · split at h
        · exact h
        · exact hLock h
  | lockTrigger x signal t => exact hLock h
  | lockForReplay x organization t =>
      simp only [Op.exec] at h
      split at h
      · exact h
      · exact hLock h
  | insertFiring x row =>
      simp only [Op.exec, Store.insertFiring] at h
      split at h
      · exact h
      · exact hWrite h
  | assign by' input origin =>
      obtain ⟨tasks, hTasks⟩ := assignWithStatus_tasks (s := s) (e := e) input origin
      simp only [Op.exec, hTasks] at h
      exact h
  | commit x =>
      simp only [Op.exec, Store.commit] at h
      split at h
      · exact h
      · split at h
        · exact hClose h
        · exact hClose h
  | rollback x => exact hClose h
  | countFired | countFailed | process => exact hWrite h
  | listening | ended | debounced | readForReplay | pending | insertSignal | insertTrigger
  | editTrigger | setPorts | deleteTask => exact h

theorem Covered.fewer {s' : Store} {signal : Signal} (h : Covered settings s n signal)
    (hFewer : ∀ t x, s'.NamedRun t signal.id x → s.NamedRun t signal.id x) :
    Covered settings s' n signal where
  deep := fun t x hNamed => h.deep t x (hFewer t x hNamed)
  listening := fun t x hNamed => h.listening t x (hFewer t x hNamed)
  gone := fun t x hNamed => h.gone t x (hFewer t x hNamed)
  met := fun trigger hTrigger x hNamed => h.met trigger hTrigger x (hFewer _ x hNamed)
  stage := fun t x stage hNamed => h.stage t x stage (hFewer t x hNamed)
  logged := fun row hRow x hNamed => h.logged row hRow x (hFewer _ x hNamed)

/-- A call with its transaction covers the runs of its signal whatever another call does. -/
theorem covers_other {op : Op} {ns : List Notes} {i j : Nat} {m : Notes} (hFirm : Firm s ns)
    (hGet : ns[i]? = some n) (hOther : ns[j]? = some m) (hNe : j ≠ i)
    (hPermits : permits settings n op) (hAgain : firesAgain settings e op s)
    (h : m.Covers settings s) : m.Covers settings (Op.exec settings e op s).2 := by
  intro y signal hTx hOpen hSignal
  have hKnows := hFirm.knows m (List.mem_of_getElem? hOther)
  have hMine := hFirm.knows n (List.mem_of_getElem? hGet)
  obtain ⟨hLt, hHolding⟩ := hKnows.holding y hTx
  have hWas := open_back hLt hOpen
  refine (h y signal hTx hWas hSignal).fewer fun t x hNamed => ?_
  rcases named_cases hPermits hAgain hNamed with hOld | ⟨⟨z, _, _, _, _, -, hTxN, hOpenN, -⟩,
    signal', _, hSignal', hSame, -⟩
  · exact hOld
  · -- both would hold the lock on the signal
    obtain ⟨txM, hTxM⟩ := Option.isSome_iff_exists.mp hWas
    obtain ⟨txN, hTxNOpen⟩ := Option.isSome_iff_exists.mp hOpenN
    have hLockM := ((hHolding txM hTxM).claimed signal hSignal).1
    have hLockN := (((hMine.holding z hTxN).2 txN hTxNOpen).claimed signal' hSignal').1
    rw [hSame] at hLockN
    obtain rfl := hFirm.books.exclusive ⟨txM, hTxM, hLockM⟩ ⟨txN, hTxNOpen, hLockN⟩
    exact absurd (hFirm.apart hOther hGet hTx hTxN) hNe

/-! ## What the call itself leaves -/

section

variable {signal : Signal} {x : Nat}

/-- The stage a call comes to with a trigger, where it decides as before. -/
theorem Covered.at_stage {trigger : Trigger} {stage' : Stage}
    (h : Covered settings s n signal)
    (hStage : ∀ x, s.NamedRun trigger.id signal.id x →
      stage' = .unended ∨ stage' = .clear ∨ stage' = .ran x) :
    Covered settings s { n with stage := some (trigger.id, stage') } signal :=
  { h with
    deep := h.deep
    listening := h.listening
    gone := h.gone
    met := h.met
    logged := h.logged
    stage := by
      intro t x stage hNamed hSome
      cases hSome
      exact hStage x hNamed }

/-- Before anything is found, only the depth speaks against a run. -/
theorem covered_claimed {id : Nat} {row : SignalRow}
    (hAgain : firesAgain settings e (.claimSignal x id) s) (hRow : s.signals[id]? = some row) :
    Covered settings s { tx := some x, signal := some (s.readSignal id row) }
      (s.readSignal id row) where
  deep := fun t y hNamed => hAgain t y row hNamed hRow
  listening := fun _ _ _ _ hIds => by cases hIds
  gone := fun _ _ _ hGone => by cases hGone
  met := fun _ hTrigger => by cases hTrigger
  stage := fun _ _ _ _ hStage => by cases hStage
  logged := fun _ hRow => by cases hRow

theorem covered_lockTrigger {t : Nat} (h : Covered settings s n signal)
    (hStage : n.stage = none) (hAgain : firesAgain settings e (.lockTrigger x signal t) s) :
    Covered settings s (noted n (.lockTrigger x signal t)
      (Op.exec settings e (.lockTrigger x signal t) s).1) signal := by
  have hNoStage {stage : Stage} {t' : Nat} (hSome : n.stage = some (t', stage)) : False := by
    rw [hStage] at hSome
    cases hSome
  simp only [Op.exec]
  cases hFound : s.lockedTrigger settings signal t with
  | none =>
      refine ⟨h.deep, h.listening, fun t' y hNamed hGone => ?_, h.met,
        fun _ _ _ _ hSome => (hNoStage hSome).elim, h.logged⟩
      rcases List.mem_cons.mp hGone with rfl | hOld
      · obtain ⟨_, hSome, -⟩ := hAgain y hNamed
        rw [hFound] at hSome
        cases hSome
      · exact h.gone t' y hNamed hOld
  | some trigger =>
      have hId : trigger.id = t := by
        obtain ⟨row, -, rfl⟩ := Option.map_eq_some_iff.mp hFound
        rfl
      refine ⟨h.deep, h.listening, h.gone, fun other hOther y hNamed => ?_,
        fun _ _ _ _ hSome => (hNoStage hSome).elim, h.logged⟩
      rcases List.mem_append.mp hOther with hOld | hLast
      · exact h.met other hOld y hNamed
      · obtain rfl := List.mem_singleton.mp hLast
        rw [hId] at hNamed
        obtain ⟨trigger', hSome, hMet⟩ := hAgain y hNamed
        rw [hFound, Option.some.injEq] at hSome
        exact hSome ▸ hMet

/-- A firing names the run that is there. -/
theorem covered_insertFiring {row : NewFiring} (h : Covered settings s n signal)
    (hPermits : permits settings n (.insertFiring x row)) (hSignal : n.signal = some signal) :
    Covered settings s { n with
      stage := none
      logged := n.logged ++ [row]
      owes := if row.outcome = .fired then some row.trigger else none } signal := by
  obtain ⟨-, -, hReplay, trigger, hTrigger, hId, hOwn⟩ := hPermits
  refine ⟨h.deep, h.listening, h.gone, h.met, fun _ _ _ _ hSome => (by cases hSome),
    fun row' hRow' y hNamed => ?_⟩
  rcases List.mem_append.mp hRow' with hOld | hLast
  · exact h.logged row' hOld y hNamed
  · obtain rfl := List.mem_singleton.mp hLast
    have hReplay : row'.replay = false := by
      cases hIs : row'.replay with
      | false => rfl
      | true =>
          rw [hReplay hIs] at hSignal
          cases hSignal
    obtain ⟨-, signal', hSignal', -, hJust⟩ := hOwn hReplay
    obtain rfl := Option.some.inj (hSignal.symm.trans hSignal')
    rw [hId] at hNamed
    obtain ⟨hConditions, hRequires⟩ := h.met trigger hTrigger y hNamed
    have hAt {stage : Stage} (hSome : n.stage = some (trigger.id, stage)) :=
      h.stage trigger.id y stage hNamed hSome
    rw [Notes.Justifies] at hJust
    cases hOutcome : row'.outcome with
    | fired =>
        simp only [hOutcome] at hJust
        obtain ⟨z, hTask, hRan⟩ := hJust
        rcases hAt hRan with hEq | hEq | hEq
        · cases hEq
        · cases hEq
        · cases hEq
          exact ⟨hReplay, rfl, hTask⟩
    | rejected =>
        simp only [hOutcome] at hJust
        rcases hJust with hNot | hNot | hEnded | hDebounced
        · rw [hConditions] at hNot
          cases hNot
        · rw [hRequires] at hNot
          cases hNot
        · rcases hAt hEnded with hEq | hEq | hEq <;> cases hEq
        · rcases hAt hDebounced with hEq | hEq | hEq <;> cases hEq
    | failed =>
        simp only [hOutcome] at hJust
        rcases hJust with hDeep | hRefused
        · have hLimit := h.deep trigger.id y hNamed
          omega
        · rcases hAt hRefused with hEq | hEq | hEq <;> cases hEq

/-- An assign of a run gives the run that then has its name. -/
theorem assigned_named {trigger : Trigger} {origin : AssignOrigin} {y z : Nat}
    (hKnows : Knows s n) (hTree : Tree s) (hOwned : s.Owned)
    (hTree' : Tree (Op.exec settings e (.assign (some y)
      (trigger.assignInput signal (runReference trigger.id signal.id)) origin) s).2)
    (hOwned' : (Op.exec settings e (.assign (some y)
      (trigger.assignInput signal (runReference trigger.id signal.id)) origin) s).2.Owned)
    (hTrigger : trigger ∈ n.triggers) (hReplay : origin.replay = false)
    (hAgain : firesAgain settings e (.assign (some y)
      (trigger.assignInput signal (runReference trigger.id signal.id)) origin) s)
    (hNamed : (Op.exec settings e (.assign (some y)
      (trigger.assignInput signal (runReference trigger.id signal.id)) origin) s).2.NamedRun
        trigger.id signal.id z) :
    ∃ a : Assigned, (Op.exec settings e (.assign (some y)
      (trigger.assignInput signal (runReference trigger.id signal.id)) origin) s).1 = .ok a ∧
        a.task = z := by
  generalize hInput : trigger.assignInput signal (runReference trigger.id signal.id) = input at *
  have hCaller : input.caller = trigger.row.caller := hInput ▸ rfl
  have hReference : input.reference = runReference trigger.id signal.id := hInput ▸ rfl
  rcases assign_cases e s input origin with ⟨hSame, hOk⟩ | ⟨row, rest, hAssigns⟩
  · -- the run was there, so the assign found it
    rw [show (Op.exec settings e (.assign (some y) input origin) s).2 = s from hSame] at hNamed
    have hFound := named_of_namedRun hNamed hTree hOwned hKnows hTrigger rfl hCaller hReference
    obtain ⟨a, hAssign⟩ := (hAgain.2 hReplay).2 z hFound
    have hResult : (s.assignWithStatus e input origin).1 = .ok a := by
      simp only [Store.assignWithStatus, hFound, hAssign]
    exact ⟨a, hResult, Option.some.inj ((hOk a hResult).symm.trans hFound)⟩
  · refine ⟨_, hAssigns.result, ?_⟩
    have hMade : (Op.exec settings e (.assign (some y) input origin) s).2.NamedRun
        trigger.id signal.id s.tasks.length := by
      refine ⟨row, ?_, hAssigns.made.deleted, hAssigns.made.reference.trans hReference⟩
      rw [show (Op.exec settings e (.assign (some y) input origin) s).2 = _ from hAssigns.state]
      simp
    exact hMade.unique hNamed hTree' hOwned'

/-- What the assign of a trigger's run leaves: the run of that name is the one it gave. -/
theorem Covered.assigned {trigger : Trigger} {s' : Store} {stage' : Stage}
    (h : Covered settings s n signal) (hOrdered : n.Ordered) (hSignal : n.signal = some signal)
    (hTrigger : trigger ∈ n.triggers) (hUnlogged : trigger.id ∉ n.logged.map (·.trigger))
    (hSame : ∀ other ∈ n.triggers, other.id = trigger.id → other = trigger)
    (hMet : trigger.conditionsMet = true ∧ trigger.requiresMet = true)
    (hDepth : (signal.depth : Int) ≤ settings.triggerMaxDepth)
    (hNew : ∀ t x, s'.NamedRun t signal.id x → s.NamedRun t signal.id x ∨ t = trigger.id)
    (hStage : ∀ x, s'.NamedRun trigger.id signal.id x → stage' = .ran x) :
    Covered settings s' { n with stage := some (trigger.id, stage') } signal := by
  have hIsSome : n.signal.isSome = true := by rw [hSignal]; rfl
  obtain ⟨hNotGone, ids, hListening, hMem⟩ := hOrdered.found hIsSome trigger hTrigger
  refine ⟨fun _ _ _ => hDepth, fun t x hNamed ids' hIds => ?_, fun t x hNamed => ?_,
    fun other hOther x hNamed => ?_, fun t x stage hNamed hSome => ?_,
    fun row hRow x hNamed => ?_⟩
  · rcases hNew t x hNamed with hOld | rfl
    · exact h.listening t x hOld ids' hIds
    · obtain rfl := Option.some.inj (hListening.symm.trans hIds)
      exact hMem
  · rcases hNew t x hNamed with hOld | rfl
    · exact h.gone t x hOld
    · exact hNotGone
  · rcases hNew _ x hNamed with hOld | hId
    · exact h.met other hOther x hOld
    · rw [hSame other hOther hId]
      exact hMet
  · cases hSome
    exact .inr (.inr (hStage x hNamed))
  · rcases hNew _ x hNamed with hOld | hId
    · exact h.logged row hRow x hOld
    · exact absurd (hId ▸ List.mem_map_of_mem hRow) hUnlogged

theorem covered_assign {input : AssignInput} {origin : AssignOrigin} {y : Nat}
    (hKnows : Knows s n) (hTree : Tree s) (hOwned : s.Owned) (h : Covered settings s n signal)
    (hSignal : n.signal = some signal)
    (hPermits : permits settings n (.assign (some y) input origin))
    (hAgain : firesAgain settings e (.assign (some y) input origin) s) :
    Covered settings (Op.exec settings e (.assign (some y) input origin) s).2
      (noted n (.assign (some y) input origin)
        (Op.exec settings e (.assign (some y) input origin) s).1) signal := by
  have hTree' : Tree (Op.exec settings e (.assign (some y) input origin) s).2 :=
    tree_exec hTree hKnows hPermits
  have hOwned' := owned_exec hOwned hPermits hAgain
  have hCases := fun t σ x => @named_cases settings e s n _ t σ x hPermits hAgain
  obtain ⟨-, hRun⟩ := hPermits
  rw [Notes.PermitsRun] at hRun
  split at hRun
  case isTrue =>
    rw [hRun.1] at hSignal
    cases hSignal
  case isFalse hReplay =>
    obtain ⟨signal', trigger, hSignal', hTrigger, hClear, hConditions, hRequires, hDepth, rfl,
      rfl⟩ := hRun
    obtain rfl := Option.some.inj (hSignal.symm.trans hSignal')
    have hIsSome : n.signal.isSome = true := by rw [hSignal]; rfl
    have hUnlogged := hKnows.ordered.stage hIsSome _ _ hClear
    have hGiven := fun z => @assigned_named settings e s n signal trigger _ y z hKnows hTree
      hOwned hTree' hOwned' hTrigger rfl hAgain
    generalize Op.exec settings e _ s = after at hCases hGiven ⊢
    have hNew : ∀ t x, Store.NamedRun after.2 t signal.id x →
        s.NamedRun t signal.id x ∨ t = trigger.id := by
      intro t x hNamed
      rcases hCases t signal.id x hNamed with hOld | ⟨-, _, _, -, -, -, -, hStage, -⟩
      · exact .inl hOld
      · rw [hClear] at hStage
        exact .inr (Prod.mk.inj (Option.some.inj hStage)).1.symm
    obtain ⟨assigned, s'⟩ := after
    have hAfter {stage' : Stage}
        (hStage : ∀ x, Store.NamedRun s' trigger.id signal.id x → stage' = .ran x) :
        Covered settings s' { n with stage := some (trigger.id, stage') } signal :=
      h.assigned hKnows.ordered hSignal hTrigger hUnlogged
        (fun other hOther hId => hKnows.same_trigger hOther hTrigger hId)
        ⟨hConditions, hRequires⟩ hDepth hNew hStage
    cases (assigned : Except String Assigned) with
    | ok assigned =>
        refine hAfter fun x hNamed => ?_
        obtain ⟨a, hOk, rfl⟩ := hGiven x hNamed
        cases hOk
        rfl
    | error error =>
        refine hAfter fun x hNamed => ?_
        obtain ⟨a, hOk, -⟩ := hGiven x hNamed
        cases hOk

end

end Rekuest.Triggers
