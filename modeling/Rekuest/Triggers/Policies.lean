import Rekuest.Triggers.Tasks

/-!
# The policies of a trigger

Every firing was logged under the lock of its trigger's row, so what was read of
the row (its limit, its window, how often it ran) still held as it was written.
-/

namespace Rekuest.Triggers

open Concurrent

variable {settings : Settings} {e : Env} {s : Store} {n : Notes}

/-! ## How firings change -/

/-- A firing keeps everything, but may lose its task. -/
def FiringRow.Keeps (f f' : FiringRow) : Prop := f' = { f with task := f'.task }

/-- Firings change by a deletion, which takes their tasks, and by a commit. -/
theorem firings_exec (settings : Settings) (e : Env) (s : Store) (op : Op) :
    (∃ y, op = .deleteTask y) ∨ (Op.exec settings e op s).2.firings = s.firings ∨
      ∃ x tx, op = .commit x ∧ s.txs.open? x = some tx ∧ tx.writes.all s.refers = true ∧
        (Op.exec settings e op s).2 =
          { tx.writes.foldl Store.applyWrite s with txs := s.txs.close x } := by
  have hChanges := changes_exec settings e s op
  generalize (Op.exec settings e op s).2 = s' at hChanges
  cases hChanges with
  | delete y => exact .inl ⟨y, rfl⟩
  | commit x tx hOpen hRefers => exact .inr (.inr ⟨x, tx, rfl, hOpen, hRefers, rfl⟩)
  | txs | assign | ports | signal | trigger | rule => exact .inr (.inl rfl)

/-- The firing of a number after a statement: it was there, or a commit wrote it. -/
theorem firing_cases {op : Op} {j : Nat} {f' : FiringRow}
    (h : (Op.exec settings e op s).2.firings[j]? = some f') :
    (∃ f, s.firings[j]? = some f ∧ f.Keeps f') ∨
      ∃ x tx, op = .commit x ∧ s.txs.open? x = some tx ∧ s.firings.length ≤ j ∧
        f' ∈ firingsIn tx.writes := by
  rcases firings_exec settings e s op with ⟨y, rfl⟩ | hSame | ⟨x, tx, rfl, hOpen, -, hState⟩
  · simp only [Op.exec, Store.deleteTask, List.getElem?_map] at h
    obtain ⟨f, hf, rfl⟩ := Option.map_eq_some_iff.mp h
    exact .inl ⟨f, hf, rfl⟩
  · exact .inl ⟨f', hSame ▸ h, rfl⟩
  · rw [hState, show Store.firings { tx.writes.foldl Store.applyWrite s with
      txs := s.txs.close x } = _ from Store.applyAll_firings] at h
    by_cases hOld : j < s.firings.length
    · exact .inl ⟨f', (List.getElem?_append_left hOld).symm.trans h, rfl⟩
    · rw [List.getElem?_append_right (by omega)] at h
      exact .inr ⟨x, tx, rfl, hOpen, by omega, List.mem_of_getElem? h⟩

/-- The firings of a kind after a statement. -/
theorem countP_exec (settings : Settings) (e : Env) (s : Store) (op : Op) (p : NewFiring → Bool)
    (hp : ∀ (f : NewFiring) task, p { f with task } = p f) :
    (Op.exec settings e op s).2.firings.countP (p ·.toNewFiring) =
        s.firings.countP (p ·.toNewFiring) ∨
      ∃ x tx, op = .commit x ∧ s.txs.open? x = some tx ∧
        (Op.exec settings e op s).2.firings.countP (p ·.toNewFiring) =
          s.firings.countP (p ·.toNewFiring) +
            (firingsIn tx.writes).countP (p ·.toNewFiring) := by
  rcases firings_exec settings e s op with ⟨y, rfl⟩ | hSame | ⟨x, tx, rfl, hOpen, -, hState⟩
  · refine .inl ?_
    simp only [Op.exec, Store.deleteTask, List.countP_map]
    exact List.countP_congr fun f _ => by simp [hp]
  · exact .inl (by rw [hSame])
  · refine .inr ⟨x, tx, rfl, hOpen, ?_⟩
    rw [hState, show Store.firings { tx.writes.foldl Store.applyWrite s with
      txs := s.txs.close x } = _ from Store.applyAll_firings, List.countP_append]

/-- The rule of a trigger changes by an edit. -/
theorem rule_exec (settings : Settings) (e : Env) (op : Op) {t : Nat} {row : TriggerRow}
    (h : s.triggers[t]? = some row) :
    ∃ row', (Op.exec settings e op s).2.triggers[t]? = some row' ∧
      (row'.rule = row.rule ∨ op = .editTrigger t row'.rule) := by
  have hChanges := changes_exec settings e s op
  generalize (Op.exec settings e op s).2 = s' at hChanges
  cases hChanges with
  | txs | assign | ports | signal | delete => exact ⟨row, h, .inl rfl⟩
  | commit x tx hOpen hRefers =>
      obtain ⟨row', hRow', hRule, -⟩ := Store.applyAll_trigger tx.writes h
      exact ⟨row', hRow', .inl hRule⟩
  | trigger rule caller organization =>
      have hLt := (List.getElem?_eq_some_iff.mp h).1
      exact ⟨row, (List.getElem?_append_left hLt).trans h, .inl rfl⟩
  | rule id rule =>
      by_cases hEq : id = t
      · subst hEq
        exact ⟨{ row with rule }, by simp [Store.modifyTrigger, h], .inr rfl⟩
      · exact ⟨row, by simp [Store.modifyTrigger, hEq, h], .inl rfl⟩

/-! ## The limit -/

/-- A firing that ran a trigger as its signal arrived. -/
def NewFiring.isFired (t : Nat) (f : NewFiring) : Bool := !f.replay && f.isRun t

/-- How often signals ran a trigger. -/
def Store.firedRuns (s : Store) (t : Nat) : Nat := s.firings.countP (·.isFired t)

/-- The rule an edit gives the trigger. -/
def Op.newRule? (t : Nat) : Op → Option Rule
  | .editTrigger t' rule => if t' = t then some rule else none
  | _ => none

/-- No step gives the trigger another limit. -/
def limitKept (t : Nat) (limit : Option Nat) (_ : Env) (op : Op) (_ : Store) : Prop :=
  ∀ rule ∈ op.newRule? t, rule.maxRuns = limit

instance (t : Nat) (limit : Option Nat) (e : Env) (op : Op) (s : Store) :
    Decidable (limitKept t limit e op s) :=
  inferInstanceAs (Decidable (∀ rule ∈ op.newRule? t, rule.maxRuns = limit))

/-- The trigger has a limit, which its runs do not pass by more than they did. -/
def Limited (t m k : Nat) (s : Store) : Prop :=
  (∃ row, s.triggers[t]? = some row ∧ row.rule.maxRuns = some m) ∧ s.firedRuns t ≤ max m k

/-- What a transaction logs for one trigger runs it once, and only below its limit. -/
theorem Holding.limited {t m x : Nat} {tx : Tx Row Write} {row : TriggerRow} (hBooks : Books s)
    (hKnows : Knows s n) (hTx : n.tx = some x) (hOpen : s.txs.open? x = some tx)
    (hRow : s.triggers[t]? = some row) (hMax : row.rule.maxRuns = some m)
    (hSome : (firingsIn tx.writes).countP (·.isFired t) ≠ 0) :
    s.firedRuns t < m ∧ (firingsIn tx.writes).countP (·.isFired t) ≤ 1 := by
  have hHolding := (hKnows.holding x hTx).2 tx hOpen
  have hLedger := hHolding.ledger
  obtain ⟨f, hf, hFired⟩ := List.countP_pos_iff.mp (Nat.pos_of_ne_zero hSome)
  simp only [NewFiring.isFired, NewFiring.isRun, Bool.and_eq_true, Bool.not_eq_true',
    beq_iff_eq] at hFired
  obtain ⟨hReplay, rfl, hRun⟩ := hFired
  constructor
  · obtain ⟨-, signal, trigger, -, -, hTrigger, hId, hUnended, -⟩ :=
      hHolding.paced f hf hReplay hRun
    have hLocked := (hHolding.locked trigger hTrigger).2
    rw [← hId, hRow, Option.some.injEq] at hLocked
    subst hLocked
    have hCount := hUnended m hMax
    rw [hBooks.counted hRow] at hCount
    refine Nat.lt_of_le_of_lt (List.countP_mono_left fun g _ hg => ?_) hCount
    rw [NewFiring.isFired, Bool.and_eq_true] at hg
    exact hg.2
  · obtain ⟨signal, hSignal, hSame⟩ := hLedger.own _ (hLedger.mem_firings hf).1 hReplay
    have hOne := hLedger.countP_isFor f.trigger signal.id
    rw [← hLedger.countP_firings (·.isFor f.trigger signal.id)] at hOne
    refine Nat.le_trans (List.countP_mono_left fun g hg hIs => ?_) hOne
    simp only [NewFiring.isFired, NewFiring.isRun, Bool.and_eq_true, Bool.not_eq_true',
      beq_iff_eq] at hIs
    obtain ⟨signal', hSignal', hSame'⟩ := hLedger.own _ (hLedger.mem_firings hg).1 hIs.1
    obtain rfl := Option.some.inj (hSignal.symm.trans hSignal')
    simp [NewFiring.isFor, hIs.1, hIs.2.1, hSame']

theorem limited_exec {op : Op} {t m k i : Nat} {ns : List Notes} (hFirm : Firm s ns)
    (h : Limited t m k s) (hGet : ns[i]? = some n) (hPermits : permits settings n op)
    (hKept : limitKept t (some m) e op s) : Limited t m k (Op.exec settings e op s).2 := by
  obtain ⟨⟨row, hRow, hMax⟩, hCount⟩ := h
  constructor
  · obtain ⟨row', hRow', hRule⟩ := rule_exec settings e op hRow
    refine ⟨row', hRow', ?_⟩
    rcases hRule with hSame | rfl
    · rw [hSame]
      exact hMax
    · exact hKept _ (by simp [Op.newRule?])
  · rcases countP_exec settings e s op (·.isFired t)
      (fun _ _ => rfl) with hSame | ⟨x, tx, rfl, hOpen, hMore⟩
    · rw [Store.firedRuns, hSame]
      exact hCount
    · have hKnows := hFirm.knows n (List.mem_of_getElem? hGet)
      by_cases hNone : (firingsIn tx.writes).countP (·.isFired t) = 0
      · rw [Store.firedRuns, hMore, hNone]
        exact hCount
      · obtain ⟨hBelow, hOne⟩ := Holding.limited hFirm.books hKnows hPermits.1 hOpen hRow hMax hNone
        rw [Store.firedRuns] at hBelow ⊢
        rw [hMore]
        omega

/-! ## The window -/

/-- No step gives the trigger another window. -/
def windowKept (t : Nat) (window : Option Nat) (_ : Env) (op : Op) (_ : Store) : Prop :=
  ∀ rule ∈ op.newRule? t, rule.debounceSeconds = window

/-- Two signals are for one object. -/
def Store.SameObject (s : Store) (σ τ : Nat) : Prop :=
  ∃ a b, s.signals[σ]? = some a ∧ s.signals[τ]? = some b ∧ a.object = b.object

/-- From the `k`-th firing on, each run of the trigger keeps its distance to those before it
for the same object. -/
def Spaced (t w k : Nat) (s : Store) : Prop :=
  (∃ row, s.triggers[t]? = some row ∧ row.rule.debounceSeconds = some w) ∧
    k ≤ s.firings.length ∧
    ∀ (i j : Nat) (f g : FiringRow), i < j → k ≤ j → s.firings[i]? = some f →
      s.firings[j]? = some g → f.isFired t = true → g.isFired t = true →
      f.signal ≠ g.signal → s.SameObject f.signal g.signal → f.createdAt + w ≤ g.createdAt

/-- What is for one object afterwards was so before. -/
theorem Store.SameObject.of_grown {s' : Store} {σ τ : Nat} (hGrown : Grown s s')
    (hσ : ∃ row, s.signals[σ]? = some row) (hτ : ∃ row, s.signals[τ]? = some row)
    (h : s'.SameObject σ τ) : s.SameObject σ τ := by
  obtain ⟨a', b', hA', hB', hSame⟩ := h
  obtain ⟨a, hA⟩ := hσ
  obtain ⟨b, hB⟩ := hτ
  obtain ⟨_, hGrownA, hObjectA⟩ := hGrown.signal hA
  obtain ⟨_, hGrownB, hObjectB⟩ := hGrown.signal hB
  obtain rfl := Option.some.inj (hA'.symm.trans hGrownA)
  obtain rfl := Option.some.inj (hB'.symm.trans hGrownB)
  exact ⟨a, b, hA, hB, hObjectA.symm.trans (hSame.trans hObjectB)⟩

theorem NewFiring.isFired_iff {t : Nat} {f : NewFiring} :
    f.isFired t = true ↔ f.replay = false ∧ f.trigger = t ∧ f.outcome = .fired := by
  simp [isFired, isRun]

/-- A run that is committed keeps its distance to the firings before it. -/
theorem Holding.spaced {t w : Nat} {tx : Tx Row Write} {row : TriggerRow} {f g : FiringRow}
    (hHolding : Holding s n tx) (hReads : Reads s n) (hRow : s.triggers[t]? = some row)
    (hWindow : row.rule.debounceSeconds = some w) (hg : g ∈ firingsIn tx.writes)
    (hf : f ∈ s.firings) (hFiredF : f.isFired t = true) (hFiredG : g.isFired t = true)
    (hOther : f.signal ≠ g.signal) (hObject : s.SameObject f.signal g.signal) :
    f.createdAt + w ≤ g.createdAt := by
  obtain ⟨hReplayF, hTriggerF, hRunF⟩ := NewFiring.isFired_iff.mp hFiredF
  obtain ⟨hReplayG, hTriggerG, hRunG⟩ := NewFiring.isFired_iff.mp hFiredG
  obtain ⟨hStarted, signal, trigger, hSignal, hSame, hTrigger, hId, -, hClear⟩ :=
    hHolding.paced g hg hReplayG hRunG
  have hLocked := (hHolding.locked trigger hTrigger).2
  rw [← hId, hTriggerG, hRow, Option.some.injEq] at hLocked
  obtain ⟨a, b, hA, hB, hEq⟩ := hObject
  obtain ⟨srow, hSrow, hRead⟩ := hReads.signal signal hSignal
  rw [hSame, hSrow, Option.some.injEq] at hB
  subst hB
  have hDistance := hClear w (hLocked ▸ hWindow) f hf hReplayF
    (hTriggerF.trans (hTriggerG.symm.trans hId)) hRunF (hSame ▸ hOther)
    ⟨a, hA, hEq.trans hRead⟩
  omega

theorem spaced_exec {op : Op} {t w k i : Nat} {ns : List Notes} (hFirm : Firm s ns)
    (h : Spaced t w k s) (hGet : ns[i]? = some n) (hPermits : permits settings n op)
    (hKept : windowKept t (some w) e op s) : Spaced t w k (Op.exec settings e op s).2 := by
  obtain ⟨⟨row, hRow, hWindow⟩, hLength, hSpaced⟩ := h
  have hGrown : Grown s (Op.exec settings e op s).2 := grown_exec op
  have hKnows := hFirm.knows n (List.mem_of_getElem? hGet)
  -- the signals of firings are there already
  have hThere {f : FiringRow} (hf : f ∈ s.firings) (hFired : f.isFired t = true) :
      ∃ row, s.signals[f.signal]? = some row := by
    obtain ⟨srow, hSrow, -⟩ :=
      hFirm.books.processed f hf (NewFiring.isFired_iff.mp hFired).1
    exact ⟨srow, hSrow⟩
  refine ⟨?_, ?_, fun i j f' g' hLt hFrom hf' hg' hFiredF hFiredG hOther hObject => ?_⟩
  · obtain ⟨row', hRow', hRule⟩ := rule_exec settings e op hRow
    refine ⟨row', hRow', ?_⟩
    rcases hRule with hSame | rfl
    · rw [hSame]
      exact hWindow
    · exact hKept _ (by simp [Op.newRule?])
  · refine Nat.le_trans hLength ?_
    rcases firings_exec settings e s op with ⟨y, rfl⟩ | hSame | ⟨x, tx, rfl, -, -, hState⟩
    · simp [Op.exec, Store.deleteTask]
    · exact Nat.le_of_eq (by rw [hSame])
    · have hGrown : Store.firings { tx.writes.foldl Store.applyWrite s with
          txs := s.txs.close x } = s.firings ++ firingsIn tx.writes := Store.applyAll_firings
      have hLonger : s.firings.length ≤ (s.firings ++ firingsIn tx.writes).length :=
        (List.sublist_append_left _ _).length_le
      rw [hState, hGrown]
      exact hLonger
  · rcases firing_cases hg' with ⟨g, hg, hKeepsG⟩ | ⟨x, tx, rfl, hOpen, hNew, hgMem⟩
    · -- both were there
      have hgLt := (List.getElem?_eq_some_iff.mp hg).1
      rcases firing_cases hf' with ⟨f, hf, hKeepsF⟩ | ⟨_, _, _, _, hNew, _⟩
      · rw [hKeepsF] at hFiredF hOther hObject ⊢
        rw [hKeepsG] at hFiredG hOther hObject ⊢
        have hSignalF := hThere (List.mem_of_getElem? hf) hFiredF
        have hSignalG := hThere (List.mem_of_getElem? hg) hFiredG
        exact hSpaced i j f g hLt hFrom hf hg hFiredF hFiredG hOther
          (hObject.of_grown hGrown hSignalF hSignalG)
      · omega
    · have hHolding := (hKnows.holding x hPermits.1).2 tx hOpen
      have hOwn {f : FiringRow} (hf : f ∈ firingsIn tx.writes) (hFired : f.isFired t = true) :=
        hHolding.ledger.own _ (hHolding.ledger.mem_firings hf).1
          (NewFiring.isFired_iff.mp hFired).1
      obtain ⟨signal, hSignal, hSameG⟩ := hOwn hgMem hFiredG
      rcases firing_cases hf' with ⟨f, hf, hKeepsF⟩ | ⟨_, tx', hOp, hOpen', -, hfMem⟩
      · rw [hKeepsF] at hFiredF hOther hObject ⊢
        have hSignalF := hThere (List.mem_of_getElem? hf) hFiredF
        obtain ⟨srow, hSrow, -⟩ := hKnows.signal signal hSignal
        exact hHolding.spaced (f := f) hKnows.toReads hRow hWindow hgMem
          (List.mem_of_getElem? hf) hFiredF
          hFiredG hOther (hObject.of_grown hGrown hSignalF ⟨srow, hSameG ▸ hSrow⟩)
      · -- one transaction is for one signal
        cases hOp
        obtain rfl := Option.some.inj (hOpen.symm.trans hOpen')
        obtain ⟨signal', hSignal', hSameF⟩ := hOwn hfMem hFiredF
        obtain rfl := Option.some.inj (hSignal.symm.trans hSignal')
        exact absurd (hSameF.trans hSameG.symm) hOther

/-! ## Along a run -/

theorem Tree.initial {c : TriggersConfig} (h : Initial c) : Tree c.state where
  unique := fun hx => by simp [h.tasks] at hx
  older := fun hy => by simp [h.tasks] at hy
  fired := fun hy => by simp [h.tasks] at hy

/-- What the tables hold of tasks holds along every run. -/
theorem sound_tree {c₀ c : TriggersConfig} (h₀ : Initial c₀)
    (hRun : (replicas settings).Run System.anyStep c₀ c) :
    Sound settings (fun s _ => Tree s) c := by
  refine Sound.run (D := fun _ _ _ => True) (fun c a _ => ?_) (fun _ _ h => h)
    (fun e op s i n ns hFirm hTree hGet hPermits _ _ => ?_) (.initial h₀ (.initial h₀)) hRun
  · cases a with
    | start | crash => trivial
    | step i e =>
        simp only [Machine.onStep]
        split <;> trivial
  · exact tree_exec hTree (hFirm.knows n (List.mem_of_getElem? hGet)) hPermits

/-- A trigger has one firing for a signal and one run, which its reference names. -/
structure Store.OncePerSignal (s : Store) (t : Nat) : Prop where
  firing : ∀ σ, s.firings.countP (·.isFor t σ) ≤ 1
  named : ∀ (x σ : Nat) (rx : TaskRow), s.tasks[x]? = some rx → rx.FiredFor t σ →
    rx.reference = runReference t σ ∧
      ∃ row, s.triggers[t]? = some row ∧ row.caller = rx.caller
  run : ∀ (x y σ : Nat) (rx ry : TaskRow), s.tasks[x]? = some rx → s.tasks[y]? = some ry →
    rx.deleted = false → ry.deleted = false → rx.caller = ry.caller →
    rx.reference = runReference t σ → ry.reference = runReference t σ → x = y

/-- **The policies of a trigger**, in every run of any number of replicas: one firing and one
run for each signal, a count of the runs, and where the limit or the window stays as it is,
no run beyond the limit and none inside the window. -/
theorem policies_hold {c₀ c : TriggersConfig} (h₀ : Initial c₀)
    (hRun : (replicas settings).Run System.anyStep c₀ c) (t : Nat) :
    c.state.OncePerSignal t ∧ ∀ row : TriggerRow, c.state.triggers[t]? = some row →
      row.runCount = c.state.firings.countP (·.isRun t) ∧
      (∀ m c', row.rule.maxRuns = some m →
        (replicas settings).Run (Machine.onStep (limitKept t (some m))) c c' →
          c'.state.firedRuns t ≤ max m (c.state.firedRuns t)) ∧
      (∀ w c', row.rule.debounceSeconds = some w →
        (replicas settings).Run (Machine.onStep (windowKept t (some w))) c c' →
          ∀ (i j : Nat) (f g : FiringRow), i < j → c.state.firings.length ≤ j →
            c'.state.firings[i]? = some f → c'.state.firings[j]? = some g →
            f.isFired t = true → g.isFired t = true → f.signal ≠ g.signal →
            c'.state.SameObject f.signal g.signal → f.createdAt + w ≤ g.createdAt) := by
  have ⟨ns, hWatches, hFirm, hTree⟩ := sound_tree h₀ hRun
  refine ⟨⟨hFirm.books.once t, fun x σ rx hx hFired => ?_,
      fun x y σ rx ry hx hy hLiveX hLiveY hCaller hX hY => ?_⟩,
    fun row hRow => ⟨hFirm.books.counted hRow, fun m c' hMax hSegment => ?_,
      fun w c' hWindow hSegment => ?_⟩⟩
  · obtain ⟨hReference, -, hOwner⟩ := hTree.fired hx hFired
    exact ⟨hReference, hOwner⟩
  · exact hTree.unique hx hy hLiveX hLiveY hCaller (hX.trans hY.symm)
  · have hStart : Sound settings (fun s _ => Limited t m (c.state.firedRuns t) s) c :=
      ⟨ns, hWatches, hFirm, ⟨row, hRow, hMax⟩, Nat.le_max_right _ _⟩
    obtain ⟨_, -, -, -, hCount⟩ := hStart.run (fun _ _ h => h) (fun _ _ h => h)
      (fun e op s i n ns hFirm hLimited hGet hPermits _ hKept =>
        limited_exec hFirm hLimited hGet hPermits hKept) hSegment
    exact hCount
  · have hStart : Sound settings (fun s _ => Spaced t w c.state.firings.length s) c := by
      refine ⟨ns, hWatches, hFirm, ⟨row, hRow, hWindow⟩, Nat.le_refl _,
        fun i j f g _ hFrom _ hg => ?_⟩
      have hLt := (List.getElem?_eq_some_iff.mp hg).1
      omega
    obtain ⟨_, -, -, -, -, hSpaced⟩ := hStart.run (fun _ _ h => h) (fun _ _ h => h)
      (fun e op s i n ns hFirm hSpaced hGet hPermits _ hKept =>
        spaced_exec hFirm hSpaced hGet hPermits hKept) hSegment
    exact hSpaced

/-- The plan of a trigger that may run once, with a window of a minute. -/
def onceRule : Rule where
  kind := .created
  identifier := "image"
  action := 0
  port := "image"
  maxRuns := some 1
  debounceSeconds := some 60

/-- A service announces an image. -/
def imageCreated (object : String) : SignalRow where
  kind := .created
  identifier := "image"
  object := object
  descriptors := ""
  organization := 0

/-- The second of two signals finds the trigger at its end. -/
theorem policies_hold_of_two_signals : ∃ c c',
    (replicas {}).Run System.anyStep { state := {} } c ∧
      (replicas {}).Run (Machine.onStep (limitKept 0 (some 1))) c c' ∧
      c'.state.firings.map (·.outcome) = [.fired, .rejected] ∧
      c.state.OncePerSignal 0 ∧ c'.state.firedRuns 0 ≤ max 1 (c.state.firedRuns 0) := by
  obtain ⟨c, hRun, hCheck⟩ := System.run_of_play_any (replicas {}) System.anyStep
    { state := {} }
    ([.start (.createTrigger onceRule 0 0), .step 0 {}, .start (.intake (imageCreated "a")),
      .step 1 {}, .start (.intake (imageCreated "a")), .step 2 {}, .start (.fireOne 0)] ++
      Choice.steps 3 11 ({} : Env))
    (fun c => ((replicas {}).play (Machine.onStep (limitKept 0 (some 1))) c
        (.start (.fireOne 1) :: Choice.steps 4 8 { now := 5 })).any
          (fun c' => c'.state.firings.map (·.outcome) = [.fired, .rejected]) &&
      c.state.triggers[0]?.any (·.rule.maxRuns = some 1))
    (by decide +kernel)
  rw [Bool.and_eq_true] at hCheck
  obtain ⟨c', hSegment, hOutcomes⟩ := System.run_of_play_any _ _ c _ _ hCheck.1
  obtain ⟨row, hRow, hMax⟩ := (Option.any_eq_true _ _).mp hCheck.2
  obtain ⟨hOnce, hPolicies⟩ := policies_hold ⟨rfl, rfl, rfl, rfl, rfl, rfl⟩ hRun 0
  exact ⟨c, c', hRun, hSegment, of_decide_eq_true hOutcomes, hOnce,
    (hPolicies row hRow).2.1 1 c' (of_decide_eq_true hMax) hSegment⟩

end Rekuest.Triggers
