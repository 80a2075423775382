import Rekuest.Triggers.Turns

/-!
# The books, along a run

A commit keeps the books, as everything it writes was logged under the locks of
its transaction.  With the frame rule for the other calls this holds along every
run, and so does whatever else the permitted statements keep beside it.
-/

namespace Rekuest.Triggers

open Concurrent

variable {settings : Settings} {e : Env} {s : Store} {n : Notes} {x : Nat}

/-! ## The books -/

theorem Books.of_same {s' : Store} (h : Books s) (hSignals : s'.signals = s.signals)
    (hTriggers : s'.triggers = s.triggers) (hFirings : s'.firings = s.firings)
    (hExclusive : s'.txs.Exclusive) : Books s' where
  known := by rw [hFirings, hTriggers]; exact h.known
  counted := by rw [hTriggers, hFirings]; exact h.counted
  once := by rw [hFirings]; exact h.once
  processed := by rw [hFirings, hSignals]; exact h.processed
  exclusive := hExclusive

theorem applyWrite_length (w : Write) : (s.applyWrite w).triggers.length = s.triggers.length := by
  cases w with
  | firing | processed => rfl
  | fired | failed => exact List.length_modify _ _ _

theorem applyAll_length {writes : List Write} :
    (writes.foldl Store.applyWrite s).triggers.length = s.triggers.length := by
  induction writes generalizing s with
  | nil => rfl
  | cons w rest ih => rw [List.foldl_cons, ih, applyWrite_length]

theorem applyAll_signals_length {writes : List Write} :
    (writes.foldl Store.applyWrite s).signals.length = s.signals.length := by
  induction writes generalizing s with
  | nil => rfl
  | cons w rest ih =>
      rw [List.foldl_cons, ih]
      cases w with
      | firing | fired | failed => rfl
      | processed => exact List.length_modify _ _ _

/-- The firings of a commit, by what its call logged. -/
theorem Ledger.countP_firings {locks : List Row} {writes : List Write} {signal? : Option Signal}
    {logged : List NewFiring} {owes : Option Nat} {processed dropped : Bool}
    (h : Ledger locks writes signal? logged owes processed dropped) (p : NewFiring → Bool) :
    (firingsIn writes).countP (p ·.toNewFiring) = logged.countP p := by
  rw [← h.agrees, List.countP_map]
  rfl

/-- At most one firing of a trigger is logged as its signal arrives. -/
theorem Ledger.countP_isFor {locks : List Row} {writes : List Write} {signal? : Option Signal}
    {logged : List NewFiring} {owes : Option Nat} {processed dropped : Bool}
    (h : Ledger locks writes signal? logged owes processed dropped) (t σ : Nat) :
    logged.countP (·.isFor t σ) ≤ 1 := by
  have hCount := List.nodup_iff_count_le_one.mp h.once t
  refine Nat.le_trans ?_ hCount
  rw [List.count, List.countP_map, List.countP_filter]
  refine List.countP_mono_left fun row _ hFor => ?_
  simp only [NewFiring.isFor, Bool.and_eq_true, Bool.not_eq_true', beq_iff_eq] at hFor
  simp [hFor.1.1, hFor.1.2]

theorem Ledger.mem_firings {locks : List Row} {writes : List Write} {signal? : Option Signal}
    {logged : List NewFiring} {owes : Option Nat} {processed dropped : Bool}
    (h : Ledger locks writes signal? logged owes processed dropped) {f : FiringRow}
    (hf : f ∈ firingsIn writes) : f.toNewFiring ∈ logged ∧ .firing f ∈ writes := by
  constructor
  · rw [← h.agrees]
    exact List.mem_map_of_mem hf
  · obtain ⟨w, hw, hFiring⟩ := List.mem_filterMap.mp hf
    cases w with
    | firing row => cases hFiring; exact hw
    | fired | failed | processed => cases hFiring

/-- Nothing was fired for a signal that is not processed. -/
theorem Books.nothing_for (h : Books s) {σ : Nat} {row : SignalRow} (t : Nat)
    (hRow : s.signals[σ]? = some row) (hNone : row.processedAt = none) :
    s.firings.countP (·.isFor t σ) = 0 := by
  rw [List.countP_eq_zero]
  intro f hf hFor
  simp only [NewFiring.isFor, Bool.and_eq_true, Bool.not_eq_true', beq_iff_eq] at hFor
  obtain ⟨⟨hReplay, -⟩, rfl⟩ := hFor
  obtain ⟨row', hRow', hDone⟩ := h.processed f hf hReplay
  obtain rfl := Option.some.inj (hRow.symm.trans hRow')
  rw [hNone] at hDone
  cases hDone

theorem books_commit (hBooks : Books s) (h : Knows s n)
    (hPermits : permits settings n (.commit x)) : Books (s.commit x).2 := by
  obtain ⟨hTx, hOwes, hDone⟩ := hPermits
  rw [Store.commit]
  split
  case h_1 => exact hBooks
  case h_2 tx hOpen =>
    have hClosed : (s.txs.close x).Exclusive :=
      Txs.Exclusive.of_holds hBooks.exclusive Txs.holds_close
    have hHolding := (h.holding x hTx).2 tx hOpen
    have hLedger := hHolding.ledger
    split
    case isFalse => exact hBooks.of_same rfl rfl rfl hClosed
    case isTrue =>
      have hFirings : (tx.writes.foldl Store.applyWrite s).firings =
          s.firings ++ firingsIn tx.writes := Store.applyAll_firings
      refine ⟨fun f hf => ?_, fun {t row'} hRow' => ?_, fun t σ => ?_, fun f hf hReplay => ?_,
        hClosed⟩
      · rw [hFirings] at hf
        rw [applyAll_length]
        rcases List.mem_append.mp hf with hOld | hNew
        · exact hBooks.known f hOld
        · exact h.logged _ (hLedger.mem_firings hNew).1
      · have hLt := (List.getElem?_eq_some_iff.mp hRow').1
        rw [applyAll_length] at hLt
        have hRow := List.getElem?_eq_getElem hLt
        obtain ⟨_, hSome, -, -, -, hCount, -⟩ :=
          Store.applyAll_trigger tx.writes hRow
        obtain rfl := Option.some.inj (hRow'.symm.trans hSome)
        have hCounts := hLedger.counts t
        rw [hOwes, ← hLedger.countP_firings] at hCounts
        rw [hCount, hBooks.counted hRow, hFirings, List.countP_append, ← hCounts]
        simp
      · rw [hFirings, List.countP_append, hLedger.countP_firings (·.isFor t σ)]
        by_cases hNew : n.logged.countP (·.isFor t σ) = 0
        · rw [hNew]
          exact hBooks.once t σ
        · -- its signal is unprocessed, so no other firing is for it
          have hZero : s.firings.countP (·.isFor t σ) = 0 := by
            obtain ⟨row, hRow, hFor⟩ := List.countP_pos_iff.mp (Nat.pos_of_ne_zero hNew)
            simp only [NewFiring.isFor, Bool.and_eq_true, Bool.not_eq_true', beq_iff_eq] at hFor
            obtain ⟨⟨hReplay, -⟩, rfl⟩ := hFor
            obtain ⟨signal, hSignal, hSame⟩ := hLedger.own row hRow hReplay
            obtain ⟨-, srow, hSome, hNone⟩ := hHolding.claimed signal hSignal
            exact hBooks.nothing_for t (hSame ▸ hSome) hNone
          rw [hZero]
          have hOne := hLedger.countP_isFor t σ
          omega
      · rw [hFirings] at hf
        rcases List.mem_append.mp hf with hOld | hNew
        · obtain ⟨row, hRow, hProcessed⟩ := hBooks.processed f hOld hReplay
          obtain ⟨at', hRow', hKept, -⟩ := Store.applyAll_signal tx.writes hRow
          exact ⟨_, hRow', hKept hProcessed⟩
        · obtain ⟨signal, hSignal, hSame⟩ :=
            hLedger.own _ (hLedger.mem_firings hNew).1 hReplay
          obtain ⟨-, row, hRow, -⟩ := hHolding.claimed signal hSignal
          obtain ⟨at', hRow', -, hNow, -⟩ := Store.applyAll_signal tx.writes hRow
          exact ⟨_, hSame ▸ hRow', hNow (hLedger.done (hDone signal hSignal).1 signal hSignal)⟩

/-- **Step lemma**: a statement keeps the books. -/
theorem books_exec {op : Op} (hBooks : Books s) (h : Knows s n) (hPermits : permits settings n op)
    (hFree : op.blocked s = false) : Books (Op.exec settings e op s).2 := by
  have hLock {row : Row} {x : Nat} (hNobody : ∀ y, s.txs.Holds y row → y = x) :
      Books { s with txs := s.txs.lock x row } :=
    hBooks.of_same rfl rfl rfl (Txs.Exclusive.lock hBooks.exclusive hNobody)
  have hWrite {w : Write} {x : Nat} : Books (s.write x w) :=
    hBooks.of_same rfl rfl rfl (Txs.Exclusive.of_holds hBooks.exclusive Txs.holds_write)
  cases op with
  | listening | ended | debounced | readForReplay | pending => exact hBooks
  | setPorts => exact hBooks.of_same rfl rfl rfl hBooks.exclusive
  | countFired | countFailed | process => exact hWrite
  | commit x => exact books_commit hBooks h hPermits
  | begin =>
      exact hBooks.of_same rfl rfl rfl (Txs.Exclusive.of_holds hBooks.exclusive Txs.holds_start)
  | rollback x =>
      exact hBooks.of_same rfl rfl rfl (Txs.Exclusive.of_holds hBooks.exclusive Txs.holds_close)
  | claimSignal x id =>
      simp only [Op.exec]
      split
      · exact hBooks
      · split
        case isTrue => exact hBooks
        case isFalse hOther =>
          rw [Bool.not_eq_true] at hOther
          exact hLock fun y hHolds => Txs.eq_of_holds_of_free hOther hHolds
  | lockTrigger x signal id =>
      rw [Op.blocked, Bool.or_eq_false_iff] at hFree
      exact hLock fun y hHolds => Txs.eq_of_holds_of_free hFree.2 hHolds
  | lockForReplay x organization id =>
      rw [Op.blocked, Bool.or_eq_false_iff] at hFree
      simp only [Op.exec]
      split
      · exact hBooks
      · exact hLock fun y hHolds => Txs.eq_of_holds_of_free hFree.2 hHolds
  | assign by' input origin =>
      obtain ⟨tasks, hTasks⟩ := assignWithStatus_tasks (s := s) (e := e) input origin
      simp only [Op.exec, hTasks]
      exact hBooks.of_same rfl rfl rfl hBooks.exclusive
  | insertFiring x row =>
      simp only [Op.exec, Store.insertFiring]
      split
      · exact hBooks
      · exact hWrite
  | insertSignal new =>
      refine ⟨hBooks.known, hBooks.counted, hBooks.once, fun f hf hReplay => ?_,
        hBooks.exclusive⟩
      obtain ⟨row, hRow, hDone⟩ := hBooks.processed f hf hReplay
      have hLt := (List.getElem?_eq_some_iff.mp hRow).1
      exact ⟨row, (List.getElem?_append_left hLt).trans hRow, hDone⟩
  | insertTrigger rule caller organization =>
      refine ⟨fun f hf => ?_, fun {t row} hRow => ?_, hBooks.once, hBooks.processed,
        hBooks.exclusive⟩
      · have hLt := hBooks.known f hf
        simp only [Op.exec, List.length_append, List.length_singleton]
        omega
      · by_cases hLt : t < s.triggers.length
        · exact hBooks.counted ((List.getElem?_append_left hLt).symm.trans hRow)
        · -- no firing is of a trigger that is not there yet
          have hRow := List.mem_of_getElem? ((List.getElem?_append_right (by omega)).symm.trans hRow)
          obtain rfl := List.mem_singleton.mp hRow
          refine (List.countP_eq_zero.mpr fun f hf hRun => ?_).symm
          have hKnown := hBooks.known f hf
          simp only [NewFiring.isRun, Bool.and_eq_true, beq_iff_eq] at hRun
          omega
  | editTrigger id rule =>
      refine ⟨fun f hf => ?_, fun {t row} hRow => ?_, hBooks.once, hBooks.processed,
        hBooks.exclusive⟩
      · simpa [Op.exec, Store.modifyTrigger] using hBooks.known f hf
      · simp only [Op.exec, Store.modifyTrigger, List.getElem?_modify] at hRow
        obtain ⟨old, hOld, rfl⟩ := Option.map_eq_some_iff.mp hRow
        have hCount := hBooks.counted hOld
        split <;> exact hCount
  | deleteTask y =>
      have hSame (p : NewFiring → Bool)
          (hp : ∀ f : FiringRow, p { f.toNewFiring with
            task := f.task.filter (!s.isBelow · y) } = p f.toNewFiring) :
          (s.deleteTask y).firings.countP (p ·.toNewFiring) =
            s.firings.countP (p ·.toNewFiring) := by
        simp only [Store.deleteTask, List.countP_map]
        exact List.countP_congr fun f _ => by simp [hp f]
      refine ⟨fun f hf => ?_, fun {t row} hRow => ?_, fun t σ => ?_, fun f hf hReplay => ?_,
        hBooks.exclusive⟩
      · obtain ⟨g, hg, rfl⟩ := List.mem_map.mp hf
        exact hBooks.known g hg
      · exact (hBooks.counted hRow).trans (hSame (·.isRun t) fun _ => rfl).symm
      · exact Nat.le_trans (Nat.le_of_eq (hSame (·.isFor t σ) fun _ => rfl)) (hBooks.once t σ)
      · obtain ⟨g, hg, rfl⟩ := List.mem_map.mp hf
        obtain ⟨row, hRow, hDone⟩ := hBooks.processed g hg hReplay
        exact ⟨{ row with causingTask := row.causingTask.filter (!s.isBelow · y) },
          by simp [Op.exec, Store.deleteTask, hRow], hDone⟩

/-! ## A whole run -/

/-- What holds in a run: the books, what each call knows, and that no two calls
have one transaction. -/
structure Firm (s : Store) (ns : List Notes) : Prop where
  books : Books s
  knows : ∀ n ∈ ns, Knows s n
  apart : ∀ {i j : Nat} {n m : Notes} {x : Nat}, ns[i]? = some n → ns[j]? = some m →
    n.tx = some x → m.tx = some x → i = j

theorem Firm.start {ns : List Notes} (h : Firm s ns) : Firm s (ns ++ [({} : Notes)]) where
  books := h.books
  knows := by
    intro n hn
    rcases List.mem_append.mp hn with hOld | hLast
    · exact h.knows n hOld
    · obtain rfl := List.mem_singleton.mp hLast
      exact .nothing
  apart := by
    have hOld {i : Nat} {n : Notes} {x : Nat} (hGet : (ns ++ [({} : Notes)])[i]? = some n)
        (hTx : n.tx = some x) : ns[i]? = some n := by
      by_cases hLt : i < ns.length
      · exact (List.getElem?_append_left hLt).symm.trans hGet
      · rw [List.getElem?_append_right (by omega)] at hGet
        rw [List.mem_singleton.mp (List.mem_of_getElem? hGet)] at hTx
        cases hTx
    intro i j n m x hi hj hn hm
    exact h.apart (hOld hi hn) (hOld hj hm) hn hm

/-- A call keeps its transaction, or begins one that is new. -/
theorem tx_noted {op : Op} {y : Nat}
    (hTx : (noted n op (Op.exec settings e op s).1).tx = some y) :
    n.tx = some y ∨ s.txs.length = y := by
  cases op with
  | begin => exact .inr (Option.some.inj hTx)
  | lockTrigger x signal t =>
      generalize (Op.exec settings e (.lockTrigger x signal t) s).1 = found at hTx
      cases (found : Option Trigger) <;> exact .inl hTx
  | lockForReplay x organization t =>
      generalize (Op.exec settings e (.lockForReplay x organization t) s).1 = found at hTx
      cases (found : Option Trigger) <;> exact .inl hTx
  | insertFiring x row =>
      generalize (Op.exec settings e (.insertFiring x row) s).1 = written at hTx
      cases (written : Bool) <;> exact .inl hTx
  | assign by' input origin =>
      generalize (Op.exec settings e (.assign by' input origin) s).1 = assigned at hTx
      cases by' with
      | none => exact .inl hTx
      | some x => cases (assigned : Except String Assigned) <;> exact .inl hTx
  | claimSignal | listening | ended | debounced | countFired | countFailed | process | commit
  | rollback | readForReplay | pending | insertSignal | insertTrigger | editTrigger | setPorts
  | deleteTask => exact .inl hTx

/-- **Step lemma**: a statement of one call leaves all calls what they know. -/
theorem firm_exec {op : Op} {ns : List Notes} {i : Nat} (h : Firm s ns) (hGet : ns[i]? = some n)
    (hPermits : permits settings n op) (hFree : op.blocked s = false) :
    Firm (Op.exec settings e op s).2 (ns.set i (noted n op (Op.exec settings e op s).1)) := by
  have hMine := h.knows n (List.mem_of_getElem? hGet)
  have hSelf {j : Nat} {m : Notes} (hj : (ns.set i (noted n op (Op.exec settings e op s).1))[j]? =
      some m) : (j = i ∧ m = noted n op (Op.exec settings e op s).1) ∨
        (j ≠ i ∧ ns[j]? = some m) := by
    by_cases hEq : i = j
    · subst hEq
      rw [List.getElem?_set_self (List.getElem?_eq_some_iff.mp hGet).1] at hj
      exact .inl ⟨rfl, (Option.some.inj hj).symm⟩
    · rw [List.getElem?_set_ne hEq] at hj
      exact .inr ⟨Ne.symm hEq, hj⟩
  -- another call's transaction is neither this one's nor new
  have hOther {j : Nat} {m : Notes} {y : Nat} (hNe : j ≠ i) (hj : ns[j]? = some m)
      (hTx : m.tx = some y) : n.tx ≠ some y ∧ y < s.txs.length :=
    ⟨fun hSame => hNe (h.apart hj hGet hTx hSame),
      ((h.knows m (List.mem_of_getElem? hj)).holding y hTx).1⟩
  have hFresh {j : Nat} {m : Notes} {y : Nat} (hNe : j ≠ i) (hj : ns[j]? = some m)
      (hTx : m.tx = some y) : (noted n op (Op.exec settings e op s).1).tx ≠ some y := by
    intro hNow
    obtain ⟨hApart, hLt⟩ := hOther hNe hj hTx
    rcases tx_noted hNow with hOld | hNew
    · exact hApart hOld
    · omega
  refine ⟨books_exec h.books hMine hPermits hFree, fun m hm => ?_, fun hi hj hn hm => ?_⟩
  · obtain ⟨j, hj⟩ := List.mem_iff_getElem?.mp hm
    rcases hSelf hj with ⟨-, rfl⟩ | ⟨hNe, hOld⟩
    · exact own_exec h.books hMine hPermits hFree
    · refine (h.knows m (List.mem_of_getElem? hOld)).kept h.books (grown_exec op) fun y hy => ?_
      obtain ⟨hApart, hLt⟩ := hOther hNe hOld hy
      exact kept_exec h.books hMine hPermits hFree hLt hApart
  · rcases hSelf hi with ⟨rfl, rfl⟩ | ⟨hNeI, hOldI⟩
    · rcases hSelf hj with ⟨rfl, -⟩ | ⟨hNeJ, hOldJ⟩
      · rfl
      · exact absurd hn (hFresh hNeJ hOldJ hm)
    · rcases hSelf hj with ⟨rfl, rfl⟩ | ⟨hNeJ, hOldJ⟩
      · exact absurd hm (hFresh hNeI hOldI hn)
      · exact h.apart hOldI hOldJ hn hm

/-- What holds of the tables beside what the calls know. -/
def Sound (settings : Settings) (J : Store → List Notes → Prop) (c : TriggersConfig) : Prop :=
  ∃ ns, Monitor.Watches (machine settings) (fun _ => True) (notes settings) c.threads ns ∧
    Firm c.state ns ∧ J c.state ns

variable {J : Store → List Notes → Prop} {c c' : TriggersConfig}

theorem Sound.initial (h : Initial c) (hJ : J c.state []) : Sound settings J c := by
  have hBooks : Books c.state := by
    refine ⟨fun f hf => ?_, fun hRow => ?_, fun t σ => ?_, fun f hf => ?_, ?_⟩
    · rw [h.firings] at hf
      cases hf
    · rw [h.triggers] at hRow
      cases hRow
    · rw [h.firings]
      exact Nat.zero_le _
    · rw [h.firings] at hf
      cases hf
    · rw [h.txs]
      exact Txs.exclusive_nil
  refine ⟨[], ⟨by simp [h.idle], fun i p n hp => ?_⟩, ⟨hBooks, fun _ hn => (by cases hn),
    fun hi => by cases hi⟩, hJ⟩
  rw [h.idle] at hp
  cases hp

/-- **Run lemma**: what every permitted statement that meets a condition keeps, beside
what the calls know, holds along a run of steps that meet it. -/
theorem Sound.run {C : TriggersConfig → Choice Env Request → Prop} {D : Env → Op → Store → Prop}
    (hC : ∀ c a, C c a → Machine.onStep D c a)
    (hStart : ∀ s ns, J s ns → J s (ns ++ [({} : Notes)]))
    (hStep : ∀ e op s i n ns, Firm s ns → J s ns → ns[i]? = some n → permits settings n op →
      op.blocked s = false → D e op s →
        J (Op.exec settings e op s).2 (ns.set i (noted n op (Op.exec settings e op s).1)))
    (h : Sound settings J c) (hRun : (replicas settings).Run C c c') : Sound settings J c' := by
  obtain ⟨ns, hWatches, hFirm, hJ⟩ := h
  have hPool := Machine.run_of_waiting hRun
  have hHandler (request : Request) : Follows settings (request.handler settings) {} :=
    follows_handler request
  refine Monitor.Watches.run (I := fun s ns => Firm s ns ∧ J s ns)
    (D := fun e op s => D e op s ∧ op.blocked s = false) hHandler (fun c a hBoth => ?_) (fun _ _ _ => trivial)
    (fun s ns hI => ⟨hI.1.start, hStart s ns hI.2⟩)
    (fun e op s i n ns hI hGet hPermits hMeets => ?_) hWatches ⟨hFirm, hJ⟩ hPool
  · exact Machine.onStep_and (hC c a hBoth.1) hBoth.2
  · exact ⟨firm_exec hI.1 hGet hPermits hMeets.2,
      hStep e op s i n ns hI.1 hI.2 hGet hPermits hMeets.2 hMeets.1⟩

end Rekuest.Triggers
