import Rekuest.Triggers.Books

/-!
# What a statement leaves of its own call

A permitted statement keeps what its call knows: first the order in which the
call comes to its triggers, then what its transaction holds and what it logged,
and from these, by cases on the statement, the whole.
-/

namespace Rekuest.Triggers

open Concurrent

variable {settings : Settings} {e : Env} {s : Store} {n : Notes} {x : Nat} {tx : Tx Row Write}

/-! ## The order of a call -/

theorem Notes.Ordered.start (x : Nat) (signal : Option Signal) :
    ({ tx := some x, signal } : Notes).Ordered where
  nodup := List.nodup_nil
  found := fun _ _ h => by cases h
  stage := fun _ _ _ h => by cases h

/-- A trigger is locked once, handled once, and its stage is left behind with its firing. -/
theorem Notes.Ordered.next {op : Op} (h : n.Ordered) (hPermits : permits settings n op) :
    (noted n op (Op.exec settings e op s).1).Ordered := by
  cases op with
  | begin => exact .start _ none
  | claimSignal x id =>
      obtain ⟨-, rfl⟩ := hPermits
      exact .start x _
  | listening x signal =>
      obtain ⟨-, -, hNone⟩ := hPermits
      refine ⟨h.nodup, fun hSignal trigger hTrigger => ?_, h.stage⟩
      obtain ⟨-, ids, hSome, -⟩ := h.found hSignal trigger hTrigger
      rw [hNone] at hSome
      cases hSome
  | lockTrigger x signal t =>
      obtain ⟨-, -, -, hStage, hGone, hNew, ids, hIds, hMem⟩ := hPermits
      have hId : ∀ trigger, (Op.exec settings e (.lockTrigger x signal t) s).1 = some trigger →
          trigger.id = t := by
        intro trigger hSome
        obtain ⟨row, -, rfl⟩ := Option.map_eq_some_iff.mp hSome
        rfl
      generalize (Op.exec settings e (.lockTrigger x signal t) s).1 = found at hId
      cases (found : Option Trigger) with
      | none =>
          refine ⟨h.nodup, fun hSignal trigger hTrigger => ?_, h.stage⟩
          obtain ⟨hOld, hListening⟩ := h.found hSignal trigger hTrigger
          refine ⟨List.not_mem_cons_of_ne_of_not_mem (fun hEq => hNew ?_) hOld, hListening⟩
          exact hEq ▸ List.mem_map_of_mem hTrigger
      | some trigger =>
          obtain rfl := hId trigger rfl
          refine ⟨?_, fun hSignal other hOther => ?_, fun _ _ _ hSome => ?_⟩
          · simp only [noted, List.map_append, List.map_singleton, List.nodup_append]
            refine ⟨h.nodup, List.nodup_singleton _, fun a ha b hb hEq => hNew ?_⟩
            rw [List.mem_singleton] at hb
            exact hb ▸ hEq ▸ ha
          · rcases List.mem_append.mp hOther with hOld | hLast
            · exact h.found hSignal other hOld
            · obtain rfl := List.mem_singleton.mp hLast
              exact ⟨hGone, ids, hIds, hMem⟩
          · rw [show n.stage = some _ from hSome] at hStage
            cases hStage
  | ended x signal trigger =>
      refine ⟨h.nodup, h.found, fun _ t stage hSome => ?_⟩
      cases hSome
      exact hPermits.2.2.2
  | debounced x signal trigger =>
      refine ⟨h.nodup, h.found, fun hSignal t stage hSome => ?_⟩
      cases hSome
      exact h.stage hSignal _ _ hPermits.2.2.2.1
  | assign by' input origin =>
      cases by' with
      | none => exact h
      | some x =>
          have hNew : n.signal.isSome = true → ∀ t, origin.trigger = some t →
              t ∉ n.logged.map (·.trigger) := by
            intro hSignal t hSome
            have hRun := hPermits.2
            rw [Notes.PermitsRun] at hRun
            split at hRun
            · rw [hRun.1] at hSignal
              cases hSignal
            · obtain ⟨_, _, -, -, hClear, -, -, -, -, rfl⟩ := hRun
              cases hSome
              exact h.stage hSignal _ _ hClear
          generalize (Op.exec settings e (.assign (some x) input origin) s).1 = assigned
          cases (assigned : Except String Assigned) with
          | ok assigned | error error =>
              refine ⟨h.nodup, h.found, fun hSignal t stage hSome => ?_⟩
              obtain ⟨t', hOrigin, hEq⟩ := Option.map_eq_some_iff.mp hSome
              cases hEq
              exact hNew hSignal t hOrigin
  | insertFiring x row =>
      generalize (Op.exec settings e (.insertFiring x row) s).1 = written
      cases (written : Bool) with
      | false => exact ⟨h.nodup, h.found, h.stage⟩
      | true => exact ⟨h.nodup, h.found, fun _ _ _ hSome => by cases hSome⟩
  | lockForReplay x organization id =>
      obtain rfl : n = { tx := some x } := hPermits
      generalize (Op.exec settings e (.lockForReplay x organization id) s).1 = found
      cases (found : Option Trigger) with
      | none => exact h
      | some trigger =>
          exact ⟨List.nodup_singleton _, fun hSignal => (by cases hSignal),
            fun hSignal => (by cases hSignal)⟩
  | countFired | process => exact ⟨h.nodup, h.found, h.stage⟩
  | countFailed | commit | rollback | readForReplay | pending | insertSignal | insertTrigger
  | editTrigger | setPorts | deleteTask => exact h

/-! ## What a call holds -/

theorem Ledger.start : Ledger [] [] none [] none false false where
  agrees := rfl
  counts := fun _ => rfl
  done := fun h => by cases h
  triggers := fun _ h => by cases h
  signals := fun _ _ h => by cases h
  claims := fun _ _ h => by cases h
  own := fun _ h => by cases h
  once := List.nodup_nil
  kept := rfl

theorem Holding.start (x : Nat) (now : Int) : Holding s { tx := some x } { started := now } where
  locked := fun _ h => by cases h
  claimed := fun _ h => by cases h
  stage := fun _ _ _ h => by cases h
  ledger := .start
  paced := fun _ h => by cases h

section

variable {locks : List Row} {writes : List Write} {signal? : Option Signal}
variable {logged : List NewFiring} {owes : Option Nat} {processed dropped : Bool}

theorem Ledger.lock (h : Ledger locks writes signal? logged owes processed dropped) (row : Row) :
    Ledger (row :: locks) writes signal? logged owes processed dropped :=
  { h with
    triggers := fun w hw t ht => List.mem_cons_of_mem _ (h.triggers w hw t ht)
    signals := fun σ time hTime => List.mem_cons_of_mem _ (h.signals σ time hTime) }

theorem Ledger.nothing (h : Ledger locks writes signal? [] owes processed dropped) :
    firingsIn writes = [] := List.map_eq_nil_iff.mp h.agrees

/-- The signal is claimed before anything is logged. -/
theorem Ledger.claim (h : Ledger locks writes none [] owes false dropped) (signal : Signal) :
    Ledger locks writes (some signal) [] owes false dropped :=
  { h with
    done := fun hDone => by cases hDone
    claims := fun σ time hTime => by
      obtain ⟨_, hNone, -⟩ := h.claims σ time hTime
      cases hNone
    own := fun _ hRow => by cases hRow }

/-- A trigger whose run is owed is locked. -/
theorem Ledger.owed {t : Nat}
    (h : Ledger locks writes signal? logged (some t) processed dropped) : .trigger t ∈ locks := by
  have hCount := h.counts t
  rw [if_pos rfl] at hCount
  have hPos : 0 < logged.countP (·.isRun t) := by omega
  obtain ⟨row, hRow, hRun⟩ := List.countP_pos_iff.mp hPos
  rw [← h.agrees] at hRow
  obtain ⟨f, hf, rfl⟩ := List.mem_map.mp hRow
  obtain ⟨w, hw, hFiring⟩ := List.mem_filterMap.mp hf
  cases w with
  | firing row =>
      cases hFiring
      rw [NewFiring.isRun, Bool.and_eq_true, beq_iff_eq] at hRun
      exact h.triggers _ hw t (congrArg some hRun.1)
  | fired | failed | processed => cases hFiring

end

theorem Knows.nothing : Knows s {} where
  signal := fun _ h => by cases h
  trigger := fun _ h => by cases h
  logged := fun _ h => by cases h
  ordered := ⟨List.nodup_nil, fun _ _ h => (by cases h), fun _ _ _ h => by cases h⟩
  holding := fun _ h => by cases h

/-- A step of a call changes its own transaction. -/
theorem Knows.step {s' : Store} {n' : Notes} {f : Tx Row Write → Tx Row Write}
    (h : Knows s n) (hTx : n.tx = some x) (hTx' : n'.tx = some x) (hReads : Reads s' n')
    (hOrdered : n'.Ordered) (hLength : s'.txs.length = s.txs.length)
    (hOpen : s'.txs.open? x = (s.txs.open? x).map f)
    (hHolding : ∀ tx, s.txs.open? x = some tx → Holding s n tx → Holding s' n' (f tx)) :
    Knows s' n' where
  toReads := hReads
  ordered := hOrdered
  holding := by
    intro y hy
    obtain rfl : x = y := Option.some.inj (hTx'.symm.trans hy)
    obtain ⟨hLt, hOld⟩ := h.holding x hTx
    refine ⟨hLength ▸ hLt, fun tx' hTx'' => ?_⟩
    rw [hOpen, Option.map_eq_some_iff] at hTx''
    obtain ⟨tx, hSome, rfl⟩ := hTx''
    exact hHolding tx hSome (hOld tx hSome)

/-- A step that only adds to what a call noted. -/
theorem Knows.note {n' : Notes} (h : Knows s n) (hTx : n.tx = some x) (hTx' : n'.tx = some x)
    (hReads : Reads s n') (hOrdered : n'.Ordered)
    (hHolding : ∀ tx, s.txs.open? x = some tx → Holding s n tx → Holding s n' tx) : Knows s n' :=
  h.step (f := id) hTx hTx' hReads hOrdered rfl (by simp) hHolding

/-- A trigger that was locked has one reading. -/
theorem Knows.same_trigger (h : Knows s n) {trigger trigger' : Trigger}
    (hMem : trigger ∈ n.triggers) (hMem' : trigger' ∈ n.triggers)
    (hId : trigger.id = trigger'.id) : trigger = trigger' :=
  List.inj_on_of_nodup_map h.ordered.nodup hMem hMem' hId

theorem Trigger.unended_of_ended {trigger : Trigger} {now : Int}
    (h : trigger.ended now = false) : trigger.Unended := by
  intro m hMax
  rw [Trigger.ended, Bool.or_eq_false_iff] at h
  have hCount := h.2
  rw [hMax, Option.any_some, decide_eq_false_iff_not] at hCount
  omega

theorem Store.clear_of_debounced {trigger : Trigger} {signal : Signal} {now : Int}
    (h : s.debounced trigger signal now = false) : s.Clear now trigger signal := by
  intro window hWindow f hf _ hTrigger hFired hOther hObject
  obtain ⟨row, hRow, hObject⟩ := hObject
  rw [Store.debounced, hWindow, Option.any_some, List.any_eq_false] at h
  have hNot := h f hf
  simp only [hTrigger, beq_self_eq_true, hFired, hRow, Option.any_some, hObject,
    bne_iff_ne.mpr hOther, Bool.and_true, Bool.true_and, decide_eq_true_eq] at hNot
  omega

/-- The stage a call comes to with a trigger. -/
theorem Holding.at_stage (h : Holding s n tx) {stage? : Option (Nat × Stage)}
    (hStage : ∀ signal trigger stage, n.signal = some signal → trigger ∈ n.triggers →
      stage? = some (trigger.id, stage) → stage.Says s tx.started trigger signal) :
    Holding s { n with stage := stage? } tx :=
  ⟨h.locked, h.claimed, hStage, h.ledger, h.paced⟩

theorem knows_claimSignal {id : Nat} (h : Knows s n)
    (hPermits : permits settings n (.claimSignal x id)) :
    Knows (Op.exec settings e (.claimSignal x id) s).2
      (noted n (.claimSignal x id) (Op.exec settings e (.claimSignal x id) s).1) := by
  obtain ⟨-, rfl⟩ := hPermits
  simp only [Op.exec]
  split
  case h_1 => exact h
  case h_2 row hSome =>
    obtain ⟨hRow, hNone⟩ := Option.filter_eq_some_iff.mp hSome
    rw [Option.isNone_iff_eq_none] at hNone
    split
    case isTrue => exact h
    case isFalse =>
      refine h.step rfl rfl ⟨fun signal hSignal => ?_, h.trigger, h.logged⟩ (.start x _) (by simp)
        (Txs.open?_lock_self _) fun tx _ hHolding => ⟨?_, ?_, ?_, ?_, ?_⟩
      · cases hSignal
        exact ⟨row, hRow, rfl⟩
      · exact fun _ hTrigger => by cases hTrigger
      · intro signal hSignal
        cases hSignal
        exact ⟨List.mem_cons_self, row, hRow, hNone⟩
      · exact fun _ _ _ _ hTrigger => by cases hTrigger
      · exact (hHolding.ledger.claim _).lock _
      · rw [hHolding.ledger.nothing]
        exact fun _ hf => by cases hf

theorem knows_lockTrigger {signal : Signal} {t : Nat} (h : Knows s n)
    (hPermits : permits settings n (.lockTrigger x signal t)) :
    Knows (Op.exec settings e (.lockTrigger x signal t) s).2
      (noted n (.lockTrigger x signal t) (Op.exec settings e (.lockTrigger x signal t) s).1) := by
  have hOrdered := h.ordered.next (s := s) (e := e) hPermits
  obtain ⟨hTx, -, hLogged, hStage, -⟩ := hPermits
  simp only [Op.exec] at hOrdered ⊢
  cases hFound : s.lockedTrigger settings signal t with
  | none =>
      rw [hFound] at hOrdered
      exact h.step hTx hTx ⟨h.signal, h.trigger, h.logged⟩ hOrdered (by simp) (Txs.open?_lock_self _)
        fun tx _ hHolding =>
          ⟨fun trigger hTrigger => (hHolding.locked trigger hTrigger).imp_left
              (List.mem_cons_of_mem _),
            fun signal hSignal => (hHolding.claimed signal hSignal).imp_left
              (List.mem_cons_of_mem _),
            hHolding.stage, hHolding.ledger.lock _, hHolding.paced⟩
  | some trigger =>
      rw [hFound] at hOrdered
      obtain ⟨row, hSome, rfl⟩ := Option.map_eq_some_iff.mp hFound
      obtain ⟨hRow, -⟩ := Option.filter_eq_some_iff.mp hSome
      refine h.step hTx hTx ⟨h.signal, fun trigger hTrigger => ?_, h.logged⟩ hOrdered (by simp)
        (Txs.open?_lock_self _) fun tx _ hHolding => ⟨?_, ?_, ?_, ?_, ?_⟩
      · rcases List.mem_append.mp hTrigger with hOld | hLast
        · exact h.trigger trigger hOld
        · obtain rfl := List.mem_singleton.mp hLast
          exact ⟨row, hRow, rfl⟩
      · intro trigger hTrigger
        rcases List.mem_append.mp hTrigger with hOld | hLast
        · exact (hHolding.locked trigger hOld).imp_left (List.mem_cons_of_mem _)
        · obtain rfl := List.mem_singleton.mp hLast
          exact ⟨List.mem_cons_self, hRow⟩
      · exact fun signal hSignal => (hHolding.claimed signal hSignal).imp_left
          (List.mem_cons_of_mem _)
      · intro _ _ _ _ _ hSome
        rw [show n.stage = some _ from hSome] at hStage
        cases hStage
      · exact hHolding.ledger.lock _
      · have hLedger := hHolding.ledger
        rw [hLogged] at hLedger
        rw [hLedger.nothing]
        exact fun _ hf => by cases hf

/-! ## The log of a call -/

theorem firingsIn_append (writes : List Write) (w : Write) :
    firingsIn (writes ++ [w]) = firingsIn writes ++ firingsIn [w] :=
  List.filterMap_append

theorem firingsIn_write (writes : List Write) {w : Write} (h : w.firing? = none) :
    firingsIn (writes ++ [w]) = firingsIn writes := by
  rw [firingsIn_append, firingsIn, firingsIn, List.filterMap_cons_none h]
  exact List.append_nil _

/-- The row of a call's firing is always written: no other is there for the signal it claimed. -/
theorem written_of_permits {row : NewFiring} (hBooks : Books s) (h : Knows s n)
    (hPermits : permits settings n (.insertFiring x row)) (hOpen : s.txs.open? x = some tx) :
    ((s.firings ++ s.firingsOf x).any fun f => f.toNewFiring.clashes row) = false := by
  obtain ⟨hTx, -, -, trigger, hTrigger, hId, hOwn⟩ := hPermits
  have hHolding := (h.holding x hTx).2 tx hOpen
  rw [List.any_eq_false]
  intro f hf hClash
  simp only [NewFiring.clashes, Bool.and_eq_true, Bool.not_eq_true', beq_iff_eq] at hClash
  obtain ⟨⟨⟨hReplay, hNew⟩, hSame⟩, hSameTrigger⟩ := hClash
  obtain ⟨hUnlogged, signal, hSignal, hRowSignal, -⟩ := hOwn hNew
  rcases List.mem_append.mp hf with hOld | hMine
  · obtain ⟨srow, hRow, hDone⟩ := hBooks.processed f hOld hReplay
    obtain ⟨-, srow', hRow', hNone⟩ := hHolding.claimed signal hSignal
    rw [hSame, hRowSignal, hRow', Option.some.injEq] at hRow
    subst hRow
    rw [hNone] at hDone
    cases hDone
  · rw [Store.firingsOf, hOpen] at hMine
    apply hUnlogged
    rw [← hHolding.ledger.agrees, ← hId, ← hSameTrigger]
    exact List.mem_map_of_mem (List.mem_map_of_mem hMine)

theorem Ledger.insert {locks : List Row} {writes : List Write} {signal? : Option Signal}
    {logged : List NewFiring} {processed dropped : Bool} {row : NewFiring} {time : Int}
    (h : Ledger locks writes signal? logged none processed dropped)
    (hLock : .trigger row.trigger ∈ locks)
    (hOwn : row.replay = false → row.trigger ∉ logged.map (·.trigger) ∧
      ∃ signal, signal? = some signal ∧ row.signal = signal.id) :
    Ledger locks (writes ++ [.firing { row with createdAt := time }]) signal? (logged ++ [row])
      (if row.outcome = .fired then some row.trigger else none) processed dropped where
  agrees := by
    rw [firingsIn_append, List.map_append, h.agrees]
    rfl
  counts := by
    intro t
    have hOld := h.counts t
    rw [List.count_append, List.countP_append, ← hOld]
    by_cases hFired : row.outcome = .fired
    · by_cases hEq : row.trigger = t
      · simp [hFired, hEq, NewFiring.isRun]
      · simp [hFired, hEq, NewFiring.isRun]
    · simp [hFired, NewFiring.isRun]
  done := fun hDone signal hSignal => by
    obtain ⟨time, hTime⟩ := h.done hDone signal hSignal
    exact ⟨time, List.mem_append_left _ hTime⟩
  triggers := by
    intro w hw t ht
    rcases List.mem_append.mp hw with hOld | hLast
    · exact h.triggers w hOld t ht
    · obtain rfl := List.mem_singleton.mp hLast
      cases ht
      exact hLock
  signals := by
    intro σ time hTime
    rcases List.mem_append.mp hTime with hOld | hLast
    · exact h.signals σ time hOld
    · cases List.mem_singleton.mp hLast
  claims := by
    intro σ time hTime
    rcases List.mem_append.mp hTime with hOld | hLast
    · exact h.claims σ time hOld
    · cases List.mem_singleton.mp hLast
  own := by
    intro row' hRow' hReplay
    rcases List.mem_append.mp hRow' with hOld | hLast
    · exact h.own row' hOld hReplay
    · obtain rfl := List.mem_singleton.mp hLast
      exact (hOwn hReplay).2
  once := by
    rw [List.filter_append, List.map_append]
    cases hReplay : row.replay with
    | true => simpa [hReplay] using h.once
    | false =>
        obtain ⟨hNew, -⟩ := hOwn hReplay
        simp only [hReplay, List.filter_cons_of_pos, List.filter_nil, Bool.not_false,
          List.map_singleton, List.nodup_append]
        refine ⟨h.once, List.nodup_singleton _, fun a ha b hb hEq => hNew ?_⟩
        rw [List.mem_singleton] at hb
        obtain ⟨row', hRow', rfl⟩ := List.mem_map.mp ha
        exact hb ▸ hEq ▸ List.mem_map_of_mem (List.mem_of_mem_filter hRow')
  kept := h.kept

/-- A write that is no firing, of a row that is locked. -/
theorem Ledger.write {locks : List Row} {writes : List Write} {signal? : Option Signal}
    {logged : List NewFiring} {owes owes' : Option Nat} {processed processed' dropped : Bool}
    {w : Write} (h : Ledger locks writes signal? logged owes processed dropped)
    (hFiring : w.firing? = none)
    (hTrigger : ∀ t, w.trigger? = some t → .trigger t ∈ locks)
    (hSignal : ∀ σ time, w = .processed σ time → .signal σ ∈ locks ∧
      ∃ signal, signal? = some signal ∧ signal.id = σ)
    (hOwes : ∀ t, (if w = .fired t then 1 else 0) + (if owes' = some t then 1 else 0) =
      if owes = some t then 1 else 0)
    (hDone : processed' = true → processed = true ∨ ∀ signal, signal? = some signal →
      ∃ time, w = .processed signal.id time) :
    Ledger locks (writes ++ [w]) signal? logged owes' processed' dropped where
  agrees := by
    rw [firingsIn_write writes hFiring]
    exact h.agrees
  counts := by
    intro t
    have hOld := h.counts t
    have hNew := hOwes t
    rw [List.count_append, List.count_singleton, ← hOld]
    simp only [beq_iff_eq]
    omega
  done := by
    intro hNow signal hSome
    rcases hDone hNow with hBefore | hWrite
    · obtain ⟨time, hTime⟩ := h.done hBefore signal hSome
      exact ⟨time, List.mem_append_left _ hTime⟩
    · obtain ⟨time, rfl⟩ := hWrite signal hSome
      exact ⟨time, List.mem_append_right _ List.mem_cons_self⟩
  triggers := by
    intro w' hw t ht
    rcases List.mem_append.mp hw with hOld | hLast
    · exact h.triggers w' hOld t ht
    · obtain rfl := List.mem_singleton.mp hLast
      exact hTrigger t ht
  signals := by
    intro σ time hTime
    rcases List.mem_append.mp hTime with hOld | hLast
    · exact h.signals σ time hOld
    · exact (hSignal σ time (List.mem_singleton.mp hLast).symm).1
  claims := by
    intro σ time hTime
    rcases List.mem_append.mp hTime with hOld | hLast
    · exact h.claims σ time hOld
    · exact (hSignal σ time (List.mem_singleton.mp hLast).symm).2
  own := h.own
  once := h.once
  kept := h.kept

/-- A call writes something else than a firing. -/
theorem Knows.write (o : Option Nat) (p : Bool) {w : Write} (h : Knows s n)
    (hTx : n.tx = some x) (hFiring : w.firing? = none)
    (hLedger : ∀ tx, Holding s n tx →
      Ledger tx.locks (tx.writes ++ [w]) n.signal n.logged o p n.dropped) :
    Knows (s.write x w) { n with owes := o, processed := p } := by
  refine h.step hTx hTx ⟨h.signal, h.trigger, h.logged⟩ ⟨h.ordered.nodup, h.ordered.found, h.ordered.stage⟩
    (by simp [Store.write]) (Txs.open?_write_self _) fun tx _ hHolding =>
      ⟨hHolding.locked, hHolding.claimed, hHolding.stage, hLedger tx hHolding, ?_⟩
  rw [firingsIn_write tx.writes hFiring]
  exact hHolding.paced

theorem knows_insertFiring {row : NewFiring} (hBooks : Books s) (h : Knows s n)
    (hPermits : permits settings n (.insertFiring x row))
    (hFree : (Op.insertFiring x row).blocked s = false) :
    Knows (Op.exec settings e (.insertFiring x row) s).2
      (noted n (.insertFiring x row) (Op.exec settings e (.insertFiring x row) s).1) := by
  rw [Op.blocked, Bool.or_eq_false_iff, Option.isNone_eq_false_iff] at hFree
  obtain ⟨tx, hOpen⟩ := Option.isSome_iff_exists.mp hFree.1
  have hWritten := written_of_permits hBooks h hPermits hOpen
  have hOrdered := h.ordered.next (s := s) (e := e) hPermits
  obtain ⟨hTx, hOwes, -, trigger, hTrigger, hId, hOwn⟩ := hPermits
  simp only [Op.exec, Store.insertFiring, hWritten, Bool.false_eq_true, if_false] at hOrdered ⊢
  have hLogged : ∀ row' ∈ n.logged ++ [row], row'.trigger < s.triggers.length := by
    intro row' hRow'
    rcases List.mem_append.mp hRow' with hOld | hLast
    · exact h.logged row' hOld
    · obtain rfl := List.mem_singleton.mp hLast
      obtain ⟨_, hSome, -⟩ := h.trigger trigger hTrigger
      exact hId ▸ (List.getElem?_eq_some_iff.mp hSome).1
  refine h.step hTx hTx ⟨h.signal, h.trigger, hLogged⟩ hOrdered (by simp [Store.write])
    (Txs.open?_write_self _) fun tx' hOpen' hHolding => ⟨hHolding.locked, hHolding.claimed,
      fun _ _ _ _ _ hStage => (by cases hStage), ?_, ?_⟩
  · have hLedger := hHolding.ledger
    rw [hOwes] at hLedger
    refine hLedger.insert (hId ▸ (hHolding.locked trigger hTrigger).1) fun hReplay => ?_
    obtain ⟨hNew, signal, hSignal, hSame, -⟩ := hOwn hReplay
    exact ⟨hId ▸ hNew, signal, hSignal, hSame⟩
  · intro f hf hReplay hFired
    rw [firingsIn_append] at hf
    rcases List.mem_append.mp hf with hOld | hLast
    · exact hHolding.paced f hOld hReplay hFired
    · obtain rfl : f = _ := List.mem_singleton.mp hLast
      obtain ⟨-, signal, hSignal, hSame, hJust⟩ := hOwn hReplay
      rw [Notes.Justifies, show row.outcome = .fired from hFired] at hJust
      obtain ⟨y, -, hRan⟩ := hJust
      obtain ⟨hUnended, hClear⟩ := hHolding.stage signal trigger _ hSignal hTrigger hRan
      rw [hOpen', Option.map_some, Option.getD_some]
      exact ⟨Int.le_max_left _ _, signal, trigger, hSignal, hSame, hTrigger, hId, hUnended,
        hClear⟩

/-- The stage after the assign of a run rests on the one before. -/
theorem Holding.assign {input : AssignInput} {origin : AssignOrigin} {stage : Stage}
    (h : Knows s n) (hHolding : Holding s n tx) (hRun : n.PermitsRun settings input origin)
    (hSays : ∀ started trigger signal, Stage.Says s started trigger signal .clear →
      stage.Says s started trigger signal) :
    Holding s { n with stage := origin.trigger.map (·, stage) } tx := by
  refine hHolding.at_stage fun signal trigger stage' hSignal hTrigger hStage => ?_
  rw [Notes.PermitsRun] at hRun
  split at hRun
  · rw [hRun.1] at hSignal
    cases hSignal
  · obtain ⟨signal', trigger', hSignal', hTrigger', hClear, -, -, -, -, rfl⟩ := hRun
    simp only [Option.map_some, Option.some.injEq, Prod.mk.injEq] at hStage
    obtain ⟨hId, rfl⟩ := hStage
    obtain rfl := h.same_trigger hTrigger' hTrigger hId
    exact hSays _ _ _ (hHolding.stage signal trigger' _ hSignal hTrigger' hClear)

theorem knows_assign {input : AssignInput} {origin : AssignOrigin} (h : Knows s n)
    (hPermits : permits settings n (.assign (some x) input origin)) :
    Knows (Op.exec settings e (.assign (some x) input origin) s).2
      (noted n (.assign (some x) input origin)
        (Op.exec settings e (.assign (some x) input origin) s).1) := by
  have hOrdered := h.ordered.next (s := s) (e := e) hPermits
  obtain ⟨hTx, hRun⟩ := hPermits
  obtain ⟨tasks, hTasks⟩ := assignWithStatus_tasks (s := s) (e := e) input origin
  simp only [Op.exec, hTasks] at hOrdered ⊢
  have hStage (stage : Stage) (hSays : ∀ started trigger signal,
      Stage.Says s started trigger signal .clear → stage.Says s started trigger signal)
      (hOrdered : ({ n with stage := origin.trigger.map (·, stage) } : Notes).Ordered) :
      Knows { s with tasks } { n with stage := origin.trigger.map (·, stage) } :=
    h.step (f := id) hTx hTx ⟨h.signal, h.trigger, h.logged⟩ hOrdered rfl (by simp)
      fun tx _ hHolding =>
        have hNew := hHolding.assign h hRun hSays
        ⟨hNew.locked, hNew.claimed, hNew.stage, hNew.ledger, hNew.paced⟩
  generalize (s.assignWithStatus e input origin).1 = assigned at hOrdered
  cases (assigned : Except String Assigned) with
  | ok assigned => exact hStage (.ran assigned.task) (fun _ _ _ hClear => hClear) hOrdered
  | error error => exact hStage .refused (fun _ _ _ hClear => hClear) hOrdered

theorem open?_commit : (s.commit x).2.txs.open? x = none := by
  rw [Store.commit]
  split
  case h_1 hNone => exact hNone
  case h_2 =>
    split
    · exact Txs.open?_close_self
    · exact Txs.open?_close_self

theorem length_commit : (s.commit x).2.txs.length = s.txs.length := by
  rw [Store.commit]
  split
  case h_1 => rfl
  case h_2 => split <;> exact Txs.length_close

theorem knows_lockForReplay {organization id : Nat} (h : Knows s n)
    (hPermits : permits settings n (.lockForReplay x organization id)) :
    Knows (Op.exec settings e (.lockForReplay x organization id) s).2
      (noted n (.lockForReplay x organization id)
        (Op.exec settings e (.lockForReplay x organization id) s).1) := by
  obtain rfl : n = { tx := some x } := hPermits
  simp only [Op.exec]
  split
  case h_1 => exact h
  case h_2 row hSome =>
    obtain ⟨hRow, -⟩ := Option.filter_eq_some_iff.mp hSome
    refine h.step rfl rfl ⟨h.signal, fun trigger hTrigger => ?_, h.logged⟩
      ⟨List.nodup_singleton _, fun hSignal => (by cases hSignal),
        fun hSignal => by cases hSignal⟩ (by simp)
      (Txs.open?_lock_self _) fun tx _ hHolding => ⟨fun trigger hTrigger => ?_,
        fun _ hSignal => (by cases hSignal), fun _ _ _ hSignal => (by cases hSignal),
        hHolding.ledger.lock _, ?_⟩
    · obtain rfl := List.mem_singleton.mp hTrigger
      exact ⟨row, hRow, rfl⟩
    · obtain rfl := List.mem_singleton.mp hTrigger
      exact ⟨List.mem_cons_self, hRow⟩
    · rw [hHolding.ledger.nothing]
      exact fun _ hf => by cases hf

/-- **Step lemma**: a statement keeps what its own call knows. -/
theorem own_exec {op : Op} (hBooks : Books s) (h : Knows s n) (hPermits : permits settings n op)
    (hFree : op.blocked s = false) :
    Knows (Op.exec settings e op s).2 (noted n op (Op.exec settings e op s).1) := by
  have hOrdered := h.ordered.next (s := s) (e := e) hPermits
  -- what is done in no transaction leaves the open ones
  have hOutside (hAny : permits settings {} op)
      (hSame : noted n op (Op.exec settings e op s).1 = n) :
      Knows (Op.exec settings e op s).2 (noted n op (Op.exec settings e op s).1) := by
    rw [hSame]
    refine h.kept hBooks (grown_exec op) fun x hTx => ?_
    exact kept_exec hBooks .nothing hAny hFree (h.holding x hTx).1 fun hNone => by cases hNone
  cases op with
  | begin =>
      refine ⟨⟨fun _ hNone => (by cases hNone), fun _ hNone => (by cases hNone),
        fun _ hNone => by cases hNone⟩, hOrdered,
        fun y hy => ?_⟩
      obtain rfl : s.txs.length = y := Option.some.inj hy
      refine ⟨by simp [Op.exec], fun tx hOpen => ?_⟩
      rw [show (Op.exec settings e .begin s).2.txs.open? _ = _ from
        Txs.open?_start_self e.now] at hOpen
      obtain rfl := Option.some.inj hOpen
      exact .start _ _
  | claimSignal x id => exact knows_claimSignal h hPermits
  | listening x signal =>
      exact h.note hPermits.1 hPermits.1 ⟨h.signal, h.trigger, h.logged⟩ hOrdered fun tx _ hHolding =>
        ⟨hHolding.locked, hHolding.claimed, hHolding.stage, hHolding.ledger, hHolding.paced⟩
  | lockTrigger x signal t => exact knows_lockTrigger h hPermits
  | ended x signal trigger =>
      obtain ⟨hTx, hSignal, hTrigger, -⟩ := hPermits
      refine h.note hTx hTx ⟨h.signal, h.trigger, h.logged⟩ hOrdered fun tx _ hHolding => ?_
      refine hHolding.at_stage fun _ trigger' stage _ hTrigger' hStage => ?_
      cases hEnded : trigger.ended e.now with
      | true =>
          simp only [Op.exec, hEnded, if_true, Option.some.injEq, Prod.mk.injEq] at hStage
          obtain ⟨-, rfl⟩ := hStage
          trivial
      | false =>
          simp only [Op.exec, hEnded, Bool.false_eq_true, if_false, Option.some.injEq,
            Prod.mk.injEq] at hStage
          obtain ⟨hId, rfl⟩ := hStage
          exact h.same_trigger hTrigger hTrigger' hId ▸ Trigger.unended_of_ended hEnded
  | debounced x signal trigger =>
      obtain ⟨hTx, hSignal, hTrigger, hStage, -⟩ := hPermits
      refine h.note hTx hTx ⟨h.signal, h.trigger, h.logged⟩ hOrdered fun tx hOpen hHolding => ?_
      have hUnended : trigger.Unended :=
        hHolding.stage signal trigger _ hSignal hTrigger hStage
      refine hHolding.at_stage fun signal' trigger' stage hSignal' hTrigger' hStage => ?_
      obtain rfl : signal = signal' := Option.some.inj (hSignal.symm.trans hSignal')
      cases hDebounced : s.debounced trigger signal
          (((s.txs.open? x).map (·.started)).getD e.now) with
      | true =>
          simp only [Op.exec, hDebounced, if_true, Option.some.injEq, Prod.mk.injEq] at hStage
          obtain ⟨hId, rfl⟩ := hStage
          exact h.same_trigger hTrigger hTrigger' hId ▸ hUnended
      | false =>
          simp only [Op.exec, hDebounced, Bool.false_eq_true, if_false, Option.some.injEq,
            Prod.mk.injEq] at hStage
          obtain ⟨hId, rfl⟩ := hStage
          obtain rfl := h.same_trigger hTrigger hTrigger' hId
          rw [hOpen, Option.map_some, Option.getD_some] at hDebounced
          exact ⟨hUnended, Store.clear_of_debounced hDebounced⟩
  | assign by' input origin =>
      cases by' with
      | none => exact hOutside hPermits rfl
      | some x => exact knows_assign h hPermits
  | insertFiring x row => exact knows_insertFiring hBooks h hPermits hFree
  | countFired x t =>
      obtain ⟨hTx, hOwes⟩ := hPermits
      refine h.write none n.processed hTx rfl fun tx hHolding => ?_
      have hLedger := hHolding.ledger
      rw [hOwes] at hLedger
      refine hLedger.write rfl (fun t' ht => ?_) (fun _ _ hEq => by cases hEq) (fun t' => ?_) .inl
      · cases ht
        exact hLedger.owed
      · simp
  | countFailed x t error =>
      obtain ⟨hTx, -, trigger, hTrigger, rfl⟩ := hPermits
      refine h.write n.owes n.processed hTx rfl fun tx hHolding => ?_
      refine hHolding.ledger.write rfl (fun t' ht => ?_) (fun _ _ hEq => by cases hEq)
        (fun t' => by simp) .inl
      cases ht
      exact (hHolding.locked trigger hTrigger).1
  | process x id =>
      obtain ⟨hTx, -, signal, hSignal, rfl⟩ := hPermits
      refine h.write n.owes true hTx rfl fun tx hHolding => ?_
      refine hHolding.ledger.write rfl (fun _ ht => by cases ht) (fun σ time hEq => ?_)
        (fun t' => by simp) fun _ => .inr fun signal' hSignal' => ?_
      · cases hEq
        exact ⟨(hHolding.claimed signal hSignal).1, signal, hSignal, rfl⟩
      · obtain rfl : signal = signal' := Option.some.inj (hSignal.symm.trans hSignal')
        exact ⟨_, rfl⟩
  | commit x =>
      refine ⟨h.toReads.grown (grown_exec (.commit x)), hOrdered, fun y hy => ?_⟩
      obtain rfl : x = y := Option.some.inj (hPermits.1.symm.trans hy)
      refine ⟨?_, fun tx hOpen => ?_⟩
      · rw [show (Op.exec settings e (.commit x) s).2.txs.length = _ from length_commit]
        exact (h.holding x hPermits.1).1
      · rw [show (Op.exec settings e (.commit x) s).2.txs.open? x = none from open?_commit] at hOpen
        cases hOpen
  | readForReplay x organization id => exact h
  | lockForReplay x organization id => exact knows_lockForReplay h hPermits
  | rollback | pending | insertSignal | insertTrigger | editTrigger | setPorts | deleteTask =>
      exact hOutside trivial rfl

end Rekuest.Triggers
