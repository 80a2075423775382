import Rekuest.Server.Finality

/-!
# No held child outlives its parent

Whoever ends a task by a claim settles its held children next, in a transaction
of its own.  A task that ends otherwise, a child inserted under a task that is
done, a row another transaction locks and a crash before the settling each leave
a held child behind, unless some other thread is about to settle it.
-/

namespace Rekuest

open Concurrent

/-- Some thread is about to settle the held children of the task. -/
def settling (c : ServerConfig) (p : Nat) : Bool :=
  c.threads.any fun thread => match thread with
    | .act (.settleHeldChildren q) _ => q == p
    | _ => false

/-- Some thread other than `i` is about to settle them. -/
def othersSettle (c : ServerConfig) (i p : Nat) : Bool :=
  settling { c with threads := c.threads.set i (.ret ()) } p

/-- The parent of a held task, when it is done. -/
def doneParent (db : Db) (new : NewTask) : List Nat :=
  if new.held then new.parent.toList.filter fun p => (db.task? p).any (·.isDone) else []

/-- The tasks that are done after a transaction, that its thread does not settle
next, and under which it leaves a held child. -/
def orphaning (e : Env) (op : Txn) (db : Db) : List Nat :=
  -- a task that ends alone, and one that takes its lower child with it
  let alone (x : Nat) : List Nat := if (heldChildren [] db x).isEmpty then [] else [x]
  let along (x : Nat) : List Nat :=
    if (heldChildren [] db x).all (· == runnerOf db x) then [] else [x]
  match op with
  | .settleHeldChildren p =>
      (if (heldChildren [] db p).all (!e.locked.contains ·) then [] else [p]) ++
        (heldChildren e.locked db p).flatMap fun x =>
          (dictOf x (runnerOf db x)).flatMap along
  | .decideChild task _ false _ _ =>
      if (db.task? task).any (fun t => t.latestEventKind == .held && !t.isDone) then
        (dictOf task (runnerOf db task)).flatMap along
      else []
  | .controlTarget target control _ _ =>
      match control.waitingOutcome, db.task? target with
      | some _, some row =>
          if row.isDone || !row.stillWaiting then []
          else if row.latestEventKind == .held then
            (dictOf target (runnerOf db target)).flatMap along
          else alone target
      | _, _ => []
  | .decideUnpicked task cutoff =>
      match (decideUnpicked e db task cutoff).1 with
      | .finalized _ => alone task
      | _ => []
  | .claimDue task => if (claimDue e db task).1 = .finalized then alone task else []
  | .insertTask new ask =>
      match (insertTask e db new ask).1 with
      | .created _ => doneParent db new
      | _ => []
  | .insertHigherOrder wrapper lower ask =>
      match (insertHigherOrder e db wrapper lower ask).1 with
      | .created _ => doneParent db wrapper
      | _ => []
  | _ => []

/-- A step leaves no held child behind: where a transaction would, and where a
thread stops that was about to settle children still held, another thread is
about to settle them. -/
def noneOrphaned (c : ServerConfig) : Choice Env Request → Bool
  | .start _ => true
  | .step i e => match c.threads[i]? with
      | some (.act op _) => (orphaning e op c.state).all (othersSettle c i)
      | _ => true
  | .crash i => match c.threads[i]? with
      | some (.act (.settleHeldChildren p) _) =>
          (heldChildren [] c.state p).isEmpty || othersSettle c i p
      | _ => true

/-- The steps that leave no held child behind. -/
def NoneOrphaned (c : ServerConfig) (a : Choice Env Request) : Prop := noneOrphaned c a = true

instance (c : ServerConfig) (a : Choice Env Request) : Decidable (NoneOrphaned c a) :=
  inferInstanceAs (Decidable (_ = true))

/-- A held child of a task that is done is about to be settled. -/
def HeldSettled (c : ServerConfig) : Prop :=
  ∀ x row p, c.state.task? x = some row → row.isWaitingHeld = true →
    row.parent = some p → c.state.Done p → settling c p = true

/-! ## Who settles -/

section

variable {c : ServerConfig} {i p : Nat}

theorem settling_iff : settling c p = true ↔
    ∃ (j : Nat) (k : Unit → Program Unit),
      c.threads[j]? = some (.act (.settleHeldChildren p) k) := by
  rw [settling, List.any_eq_true]
  constructor
  · rintro ⟨thread, hMem, hHead⟩
    obtain ⟨j, hj⟩ := List.mem_iff_getElem?.mp hMem
    split at hHead
    case h_1 q k =>
      rw [beq_iff_eq] at hHead
      subst hHead
      exact ⟨j, k, hj⟩
    case h_2 => cases hHead
  · rintro ⟨j, k, hj⟩
    exact ⟨_, List.mem_of_getElem? hj, by simp⟩

theorem settling_of_others {state : Db} {q : Program Unit}
    (h : othersSettle c i p = true) :
    settling { state := state, threads := c.threads.set i q } p = true := by
  obtain ⟨j, k, hj⟩ := settling_iff.mp h
  rcases thread_set hj with ⟨-, hRet⟩ | ⟨hNe, hOld⟩
  · cases hRet
  · refine settling_iff.mpr ⟨j, k, ?_⟩
    rw [List.getElem?_set_ne (Ne.symm hNe)]
    exact hOld

/-- Whoever settles is this thread or another. -/
theorem settling_split (h : settling c p = true) :
    othersSettle c i p = true ∨
      ∃ k : Unit → Program Unit, c.threads[i]? = some (.act (.settleHeldChildren p) k) := by
  obtain ⟨j, k, hj⟩ := settling_iff.mp h
  by_cases hEq : j = i
  · subst hEq
    exact .inr ⟨k, hj⟩
  · refine .inl (settling_iff.mpr ⟨j, k, ?_⟩)
    rw [List.getElem?_set_ne (Ne.symm hEq)]
    exact hj

end

/-! ## One transaction -/

section

variable {settings : Settings} {e : Env} {op : Txn} {k : op.Res → Program Unit}
variable {db : Db} {x p : Nat} {row row' prow prow' : Task} {events : List TaskEvent}

theorem isWaitingHeld_iff {t : Task} : t.isWaitingHeld = true ↔
    t.latestEventKind = .held ∧ t.isDone = false ∧ t.dispatchAttempts = 0 ∧
      t.pickedUpAt = none := by
  simp [Task.isWaitingHeld, and_assoc]

/-- No transaction makes a task of before wait for a decision. -/
theorem waitingHeld_step (hGuard : TxnGuard settings False op k db)
    (hRow : db.task? x = some row) (hStep : TaskStep e db x row op row' events)
    (hWaiting : row'.isWaitingHeld = true) : row.isWaitingHeld = true := by
  rw [isWaitingHeld_iff] at hWaiting
  obtain ⟨hKind, hOpen, hAttempts, hPicked⟩ := hWaiting
  cases hStep with
  | same | dated | movedToNow | recorded | instructed =>
      exact isWaitingHeld_iff.mpr ⟨hKind, hOpen, hAttempts, hPicked⟩
  | claimed c hAdmits =>
      rw [Claim.move_kind] at hKind
      obtain ⟨row'', hRow'', hReached⟩ := (hGuard.held hKind).1
      rw [hRow, Option.some.injEq] at hRow''
      subst hRow''
      have hFresh : c.extra = .resume ∨
          ((c.move e.now row).dispatchAttempts = row.dispatchAttempts ∧
            (c.move e.now row).pickedUpAt = row.pickedUpAt) := by
        unfold Claim.move
        cases c.extra <;> simp [ClaimExtra.set]
      rcases hFresh with hResume | ⟨hA, hP⟩
      · simp [Claim.move, hResume, ClaimExtra.set] at hAttempts
      · rw [hA] at hAttempts
        rw [hP] at hPicked
        simp [Task.reached, hAttempts, hPicked] at hReached
  | overridden kind event =>
      have hTerminal := hGuard.1
      rw [show kind = .held from hKind] at hTerminal
      cases hTerminal
  | controlSettled control _ _ outcome hOutcome => cases hOpen
  | lowerSettled _ _ control _ _ outcome hOutcome => cases hOpen
  | redelivered => cases hAttempts
  | stamped => cases hPicked
  | dueDispatched => cases hAttempts
  | approved | lowerApproved => cases hKind
  | denied | lowerDenied | settledChild | settledLower | dueFinalized | unpicked => cases hOpen

/-- A child that waits and is not the task's lower child. -/
theorem not_all_lower (hRow : db.task? x = some row) (hWaiting : row.isWaitingHeld = true)
    (hParent : row.parent = some p) (hOther : x ≠ runnerOf db p) :
    ((heldChildren [] db p).all (· == runnerOf db p)) = false := by
  rw [← Bool.not_eq_true, List.all_eq_true]
  intro hAll
  have hMem : x ∈ heldChildren [] db p :=
    mem_heldChildren.mpr ⟨⟨row, hRow, hParent, hWaiting⟩, List.not_mem_nil⟩
  exact hOther (beq_iff_eq.mp (hAll x hMem))

/-- A held task, like its lower child, that ends with its lower child and leaves
another child waiting. -/
theorem mem_along {xs : List Nat} {w y : Nat} (hy : y = w ∨ y = runnerOf db w)
    (hSub : ∀ z, z = w ∨ z = runnerOf db w → z ∈ xs)
    (hLeft : ((heldChildren [] db y).all (· == runnerOf db y)) = false) :
    y ∈ xs.flatMap fun z =>
      if (heldChildren [] db z).all (· == runnerOf db z) then [] else [z] :=
  List.mem_flatMap.mpr ⟨y, hSub y hy, by simp [hLeft]⟩

theorem mem_dictOf {w r z : Nat} : z ∈ dictOf w r ↔ z = w ∨ z = r := by
  unfold dictOf
  split
  case isTrue h => simp [h]
  case isFalse => simp

/-- A lower child has no lower child of its own. -/
theorem lower_other {w : Nat} (hTree : db.Tree) (hLower : db.IsLower p w)
    (hRow : db.task? x = some row) (hParent : row.parent = some p) : x ≠ runnerOf db p := by
  rw [hLower.runnerOf_self hTree]
  have hLt := hTree.parent_lt hRow hParent
  omega

/-- The lower child of a held child that is settled. -/
theorem settleHeldChildren_lower (hTree : db.Tree) (hRow : db.task? x = some row) {q y : Nat}
    (hy : y ∈ heldChildren e.locked db q) (hLower : db.IsLower x y) :
    (settleHeldChildren e db q).Done x := by
  obtain ⟨yrow, hYrow, hYParent, -⟩ := (mem_heldChildren.mp hy).1
  have hNot : x ∉ heldChildren e.locked db q := by
    intro hx
    have hLt := hLower.lt hTree
    refine heldChildren_siblings hTree hy hx (by omega) (hLower.runnerOf_eq hTree)
  have hOther : ∀ z ∈ heldChildren e.locked db q, z ≠ y → runnerOf db z ≠ x := by
    intro z hz hNe hRun
    have hZ : z ≠ x := fun h => hNot (h ▸ hz)
    have hLower' : db.IsLower x z := hRun ▸ Db.runnerOf_isLower (hRun ▸ Ne.symm hZ)
    exact hNe (hLower'.wrapper_unique hLower)
  obtain ⟨mid, hSame, hMid, hSettle⟩ := foldl_settleHeldChild_split hRow e.now
    heldChildren_nodup hy (fun h => absurd h hNot) hOther
  have hNe : y ≠ x := by
    have hLt := hLower.lt hTree
    omega
  have hRunner := hSame.runnerOf.trans (hLower.runnerOf_eq hTree)
  exact ⟨_, (hSettle _ _ (settleHeldChild_lower hMid e.now hRunner hNe)).1, rfl⟩

/-- The pickup watchdog ends a task only by finalizing it. -/
theorem decideUnpicked_ends {cutoff : Int} (hRow : db.task? x = some row)
    (hOpen : row.isDone = false) (hNew : (decideUnpicked e db x cutoff).2.task? x = some row')
    (hDone : row'.isDone = true) :
    ∃ kind, (decideUnpicked e db x cutoff).1 = .finalized kind := by
  rcases decideUnpicked_result (s := db) e x cutoff with hSkip | ⟨_, _, _, hResult⟩
  · have hSame : (decideUnpicked e db x cutoff).2 = db := by
      simp only [decideUnpicked, hRow] at hSkip ⊢
      split at hSkip
      case isTrue h => rw [if_pos h]
      case isFalse => split at hSkip <;> cases hSkip
    rw [hSame, hRow, Option.some.injEq] at hNew
    rw [← hNew, hOpen] at hDone
    cases hDone
  · rcases hResult with ⟨kind, hKind, -, -⟩ | ⟨assign, hSent, -⟩
    · exact ⟨kind, hKind⟩
    · simp only [decideUnpicked, hRow] at hSent hNew
      split at hSent
      case isTrue => cases hSent
      case isFalse hMine =>
        rw [if_neg hMine] at hNew
        split at hSent
        case h_1 => cases hSent
        case h_2 hOutcome =>
          simp only [hOutcome, Db.task?_insertEvent, Db.task?_modifyTask_self, hRow,
            Option.map_some, Option.some.injEq] at hNew
          rw [← hNew] at hDone
          exact absurd hDone (by simp [hOpen])

/-- The due sweep ends a task only by finalizing it. -/
theorem claimDue_ends (hRow : db.task? x = some row) (hOpen : row.isDone = false)
    (hNew : (claimDue e db x).2.task? x = some row') (hDone : row'.isDone = true) :
    (claimDue e db x).1 = .finalized := by
  simp only [claimDue, hRow] at hNew ⊢
  split
  case isTrue hSkip =>
    rw [if_pos hSkip, hRow, Option.some.injEq] at hNew
    rw [← hNew, hOpen] at hDone
    cases hDone
  case isFalse hMine =>
    rw [if_neg hMine] at hNew
    cases hAssign : buildRedispatchAssign e db x with
    | none => rfl
    | some assign =>
        simp only [hAssign, Db.task?_modifyTask_self, hRow, Option.map_some,
          Option.some.injEq] at hNew
        rw [← hNew] at hDone
        exact absurd hDone (by simp [hOpen])

/-- **Step lemma**: a task that ends, under which a child goes on waiting, was
ended by a claim, whose thread settles its children next, or is left so. -/
theorem end_leaves (hInv : db.Inv False) (hProw : db.task? p = some prow)
    (hOpen : prow.isDone = false)
    (hPNew : (Txn.exec settings e op db).2.task? p = some prow')
    (hDone : prow'.isDone = true) (hPStep : TaskStep e db p prow op prow' events)
    (hRow : db.task? x = some row) (hWaiting : row.isWaitingHeld = true)
    (hParent : row.parent = some p)
    (hNew : (Txn.exec settings e op db).2.task? x = some row')
    (hStill : row'.isDone = false) :
    (∃ c, op = .claim p c ∧ c.markDone = true ∧ (claimTask e db p c).1 = true) ∨
      p ∈ orphaning e op db := by
  have hTree := hInv.tree
  have hHere : x ∈ heldChildren [] db p :=
    mem_heldChildren.mpr ⟨⟨row, hRow, hParent, hWaiting⟩, List.not_mem_nil⟩
  have hSome : (heldChildren [] db p).isEmpty = false := by
    rw [List.isEmpty_eq_false_iff]
    exact List.ne_nil_of_mem hHere
  have hStillOpen (hEnds : (Txn.exec settings e op db).2.Done x) : False := by
    obtain ⟨row'', hRow'', hDone''⟩ := hEnds
    rw [hNew, Option.some.injEq] at hRow''
    subst hRow''
    rw [hStill] at hDone''
    cases hDone''
  cases hPStep with
  | same | stamped | dated | movedToNow | recorded | instructed | redelivered
  | dueDispatched | approved | lowerApproved => simp [hOpen] at hDone
  | overridden _ _ _ hAlready => simp [hOpen] at hAlready
  | claimed c hAdmits =>
      left
      have hMark : c.markDone = true := by simpa [hOpen] using hDone
      refine ⟨c, rfl, hMark, ?_⟩
      rcases claimTask_cases e db p c with hLost | ⟨_, _, _, hWon⟩
      · rw [Txn.exec, hLost] at hPNew
        rw [hProw, Option.some.injEq] at hPNew
        rw [← hPNew, hOpen] at hDone
        cases hDone
      · rw [hWon]
  | settledChild q hQParent hQWaiting hUnlocked =>
      right
      have hIn : p ∈ heldChildren e.locked db q :=
        mem_heldChildren.mpr ⟨⟨prow, hProw, hQParent, hQWaiting⟩, hUnlocked⟩
      have hOther : x ≠ runnerOf db p := by
        rintro rfl
        have hNe : runnerOf db p ≠ p := by
          have hLt := hTree.parent_lt hRow hParent
          omega
        exact hStillOpen (settleHeldChildren_lower hTree hRow hIn (Db.runnerOf_isLower hNe))
      refine List.mem_append_right _ (List.mem_flatMap.mpr ⟨p, hIn, ?_⟩)
      exact mem_along (.inl rfl) (fun z hz => mem_dictOf.mpr hz)
        (not_all_lower hRow hWaiting hParent hOther)
  | settledLower q w hChild hLower =>
      right
      refine List.mem_append_right _ (List.mem_flatMap.mpr ⟨w, hChild, ?_⟩)
      exact mem_along (.inr (hLower.runnerOf_eq hTree).symm) (fun z hz => mem_dictOf.mpr hz)
        (not_all_lower hRow hWaiting hParent (lower_other hTree hLower hRow hParent))
  | denied watchers answer decided hHeld hOpen' =>
      right
      have hAny : (db.task? p).any (fun t => t.latestEventKind == .held && !t.isDone) = true := by
        simp [hProw, hHeld, hOpen]
      have hOther : x ≠ runnerOf db p := by
        intro hRunner
        have hDenied := decideChild_denied_row e hRow watchers answer decided hAny
        rw [if_pos (.inr hRunner)] at hDenied
        exact hStillOpen ⟨_, hDenied, rfl⟩
      simp only [orphaning, hAny, if_true]
      exact mem_along (.inl rfl) (fun z hz => mem_dictOf.mpr hz)
        (not_all_lower hRow hWaiting hParent hOther)
  | lowerDenied w wrow watchers answer decided hLower hWrapper hHeld hOpen' =>
      right
      have hAny : (db.task? w).any (fun t => t.latestEventKind == .held && !t.isDone) = true := by
        simp [hWrapper, hHeld, hOpen']
      simp only [orphaning, hAny, if_true]
      exact mem_along (.inr (hLower.runnerOf_eq hTree).symm) (fun z hz => mem_dictOf.mpr hz)
        (not_all_lower hRow hWaiting hParent (lower_other hTree hLower hRow hParent))
  | controlSettled control caller interruptAt outcome hOutcome hOpen' hTarget =>
      right
      simp only [orphaning, hOutcome, hProw, hOpen, hTarget]
      by_cases hHeld : prow.latestEventKind = .held
      · have hOther : x ≠ runnerOf db p := by
          intro hRunner
          have hNe : x ≠ p := by
            have hLt := hTree.parent_lt hRow hParent
            omega
          obtain ⟨event, -, hBecomes⟩ := settleTarget_becomes hRow e.now p prow
            control.instructKind outcome
          rw [if_neg hNe, if_pos ⟨hHeld, hRunner⟩] at hBecomes
          have hEnded : (Txn.exec settings e (.controlTarget p control caller interruptAt)
              db).2.task? x = some (row.ended e.now outcome) := by
            simp only [Txn.exec, controlTarget, hProw, hOpen, hOutcome, hTarget]
            exact hBecomes.1
          exact hStillOpen ⟨_, hEnded, rfl⟩
        simp only [hHeld]
        exact mem_along (.inl rfl) (fun z hz => mem_dictOf.mpr hz)
          (not_all_lower hRow hWaiting hParent hOther)
      · simp [hHeld, hSome]
  | lowerSettled w wrow control caller interruptAt outcome hOutcome hLower hWrapper hWOpen
      hHeld hTarget =>
      right
      simp only [orphaning, hOutcome, hWrapper, hWOpen, hTarget, hHeld]
      exact mem_along (.inr (hLower.runnerOf_eq hTree).symm) (fun z hz => mem_dictOf.mpr hz)
        (not_all_lower hRow hWaiting hParent (lower_other hTree hLower hRow hParent))
  | unpicked cutoff kind event hUnpicked =>
      right
      obtain ⟨kind', hResult⟩ := decideUnpicked_ends hProw hOpen hPNew hDone
      simp [orphaning, hResult, hSome]
  | dueFinalized hOpen' hDue =>
      right
      have hResult := claimDue_ends hProw hOpen hPNew hDone
      simp [orphaning, hResult, hSome]

end

/-! ## Runs -/

section

variable {settings : Settings} {c c' c₀ : ServerConfig} {i : Nat} {e : Env} {op : Txn}
variable {k : op.Res → Program Unit}

/-- A transaction that may leave a child behind has others settle it. -/
theorem others_of_orphaning {p : Nat} (hHead : c.threads[i]? = some (.act op k))
    (hCond : NoneOrphaned c (.step i e)) (hLeft : p ∈ orphaning e op c.state) :
    othersSettle c i p = true := by
  have hAll : (orphaning e op c.state).all (othersSettle c i) = true := by
    simpa only [NoneOrphaned, noneOrphaned, hHead] using hCond
  exact List.all_eq_true.mp hAll p hLeft

end

section

variable {settings : Settings} {e : Env} {op : Txn} {k : op.Res → Program Unit}
variable {db : Db} {x p : Nat} {row row' : Task}

theorem insertTask_result (e : Env) (db : Db) (new : NewTask) (ask : Ask) :
    (insertTask e db new ask).2 = db ∨ ∃ task, (insertTask e db new ask).1 = .created task := by
  simp only [insertTask]
  split
  · exact .inl rfl
  · split
    · exact .inl rfl
    · exact .inr ⟨_, rfl⟩

theorem insertHigherOrder_result (e : Env) (db : Db) (wrapper lower : NewTask) (ask : Ask) :
    (insertHigherOrder e db wrapper lower ask).2 = db ∨
      ∃ task, (insertHigherOrder e db wrapper lower ask).1 = .created task := by
  simp only [insertHigherOrder]
  split
  · exact .inl rfl
  · split
    · exact .inl rfl
    · exact .inr ⟨_, rfl⟩

theorem NewTask.held_of_row {new : NewTask} {now : Int}
    (h : (new.row now).latestEventKind = .held) : new.held = true := by
  simp only [NewTask.row] at h
  split at h
  case isTrue hHeld => exact hHeld
  case isFalse => cases h

/-- Under a parent that is done after an insert, the parent was done before. -/
theorem mem_doneParent {new : NewTask} (hTree : db.Tree)
    (hOp : (∃ new ask, op = .insertTask new ask) ∨
      ∃ wrapper lower ask, op = .insertHigherOrder wrapper lower ask)
    (hPlaced : NewTaskGuard new db) (hParent : new.parent = some p) (hHeld : new.held = true)
    (hDone : (Txn.exec settings e op db).2.Done p) : p ∈ doneParent db new := by
  obtain ⟨prow, hProw, -⟩ := hPlaced.parent p hParent
  obtain ⟨prow', hProw', hPDone⟩ := hDone
  obtain ⟨prow'', events, hBecomes, hStep⟩ := taskStep settings e op hTree hProw
  have hSame : prow''.isDone = prow.isDone := by
    rcases hOp with ⟨_, _, rfl⟩ | ⟨_, _, _, rfl⟩ <;> cases hStep <;> rfl
  rw [hBecomes.1, Option.some.injEq] at hProw'
  subst hProw'
  rw [hSame] at hPDone
  simp [doneParent, hHeld, hParent, hProw, hPDone]

/-- **Step lemma**: a held child inserted under a task that is done is left
so. -/
theorem inserted_left (hInv : db.Inv False) (hGuard : TxnGuard settings False op k db)
    (hNone : db.task? x = none) (hNew : NewRow e db x op row')
    (hRow' : (Txn.exec settings e op db).2.task? x = some row')
    (hWaiting : row'.isWaitingHeld = true) (hParent : row'.parent = some p)
    (hDone : (Txn.exec settings e op db).2.Done p) : p ∈ orphaning e op db := by
  have hKind := (isWaitingHeld_iff.mp hWaiting).1
  have hNotSame : (Txn.exec settings e op db).2 ≠ db := by
    intro hSame
    rw [hSame, hNone] at hRow'
    cases hRow'
  cases hNew with
  | plain new ask hx =>
      have hMem := mem_doneParent hInv.tree (.inl ⟨_, _, rfl⟩) hGuard hParent
        (NewTask.held_of_row hKind) hDone
      obtain ⟨task, hCreated⟩ := (insertTask_result e db new ask).resolve_left hNotSame
      simpa only [orphaning, hCreated] using hMem
  | wrapper wrapper lower ask hx =>
      have hMem := mem_doneParent hInv.tree (.inr ⟨_, _, _, rfl⟩) hGuard.placed hParent
        (NewTask.held_of_row hKind) hDone
      obtain ⟨task, hCreated⟩ := (insertHigherOrder_result e db wrapper lower ask).resolve_left
        hNotSame
      simpa only [orphaning, hCreated] using hMem
  | lower wrapper lower ask hx =>
      -- its parent is the wrapper inserted with it, which is open
      obtain rfl : db.tasks.length = p := Option.some.inj hParent
      obtain ⟨wrow, hWrow, hWDone⟩ := hDone
      rw [wrapper_row hInv.tree hRow' hx, Option.some.injEq] at hWrow
      rw [← hWrow] at hWDone
      cases hWDone

end

section

variable {settings : Settings} {C : ServerConfig → Choice Env Request → Prop}
variable {c c' c₀ : ServerConfig} {a : Choice Env Request} {i : Nat} {e : Env} {op : Txn}
variable {k : op.Res → Program Unit}

/-- **Step lemma**: one transaction of a thread. -/
theorem heldSettled_step (hOk : (discipline settings False).Ok c) (hSettled : HeldSettled c)
    (hHead : c.threads[i]? = some (.act op k)) (hCond : NoneOrphaned c (.step i e)) :
    HeldSettled {
      state := (Txn.exec settings e op c.state).2
      threads := c.threads.set i (k (Txn.exec settings e op c.state).1) } := by
  intro x row' p hRow' hWaiting hParent hDone
  have hInv := hOk.inv
  have hGuard : TxnGuard settings False op k c.state := hOk.guard hHead
  have hLeft (h : p ∈ orphaning e op c.state) : settling {
      state := (Txn.exec settings e op c.state).2
      threads := c.threads.set i (k (Txn.exec settings e op c.state).1) } p = true :=
    settling_of_others (others_of_orphaning hHead hCond h)
  rcases row_exec hInv.tree hRow' with ⟨row, events, hRow, hEvents, hStep⟩ | ⟨hNone, hNew⟩
  · have hOldWaiting := waitingHeld_step hGuard hRow hStep hWaiting
    have hOldParent : row.parent = some p := hStep.identity.parent.symm.trans hParent
    have hStill := (isWaitingHeld_iff.mp hWaiting).2.1
    obtain ⟨-, prow, hProw, -⟩ := hInv.tree.parent hRow hOldParent
    obtain ⟨prow', pevents, hPBecomes, hPStep⟩ := taskStep settings e op hInv.tree hProw
    obtain ⟨prow'', hProw'', hPDone⟩ := hDone
    rw [hPBecomes.1, Option.some.injEq] at hProw''
    subst hProw''
    cases hPOld : prow.isDone with
    | true =>
        have hBefore := hSettled x row p hRow hOldWaiting hOldParent ⟨prow, hProw, hPOld⟩
        rcases settling_split (i := i) hBefore with hOthers | ⟨k', hSelf⟩
        · exact settling_of_others hOthers
        · -- this thread settles, but another transaction held the child locked
          rw [hHead, Option.some.injEq] at hSelf
          cases hSelf
          refine hLeft (List.mem_append_left _ ?_)
          have hLocked : x ∉ heldChildren e.locked c.state p := by
            intro hIn
            obtain ⟨event, -, hBecomes⟩ := settleHeldChildren_child hInv.tree hRow hIn
            have hEnds : (Txn.exec settings e (.settleHeldChildren p) c.state).2.task? x =
                some (row.ended e.now .cancelled) := hBecomes.1
            rw [hRow', Option.some.injEq] at hEnds
            rw [hEnds] at hStill
            cases hStill
          have hHere : x ∈ heldChildren [] c.state p :=
            mem_heldChildren.mpr ⟨⟨row, hRow, hOldParent, hOldWaiting⟩, List.not_mem_nil⟩
          have hLockedRow : x ∈ e.locked := Decidable.byContradiction fun hFree =>
            hLocked (mem_heldChildren.mpr ⟨⟨row, hRow, hOldParent, hOldWaiting⟩, hFree⟩)
          rw [if_neg]
          · exact List.mem_singleton_self p
          · intro hAll
            simpa [hLockedRow] using List.all_eq_true.mp hAll x hHere
    | false =>
        rcases end_leaves hInv hProw hPOld hPBecomes.1 hPDone hPStep hRow hOldWaiting hOldParent
          hRow' hStill with ⟨cl, rfl, hMark, hWon⟩ | hOrphaned
        · -- this thread won the claim and goes on to settle
          obtain ⟨k', hNext⟩ := hGuard.settles hMark
          refine settling_iff.mpr ⟨i, k', ?_⟩
          have hResult : (Txn.exec settings e (.claim p cl) c.state).1 = true := hWon
          rw [hResult, hNext]
          exact List.getElem?_set_self (List.getElem?_eq_some_iff.mp hHead).1
        · exact hLeft hOrphaned
  · exact hLeft (inserted_left hInv hGuard hNone hNew hRow' hWaiting hParent hDone)

/-- **Run lemma** -/
theorem heldSettled_run (hInit : Initial c₀)
    (hRun : (server settings).Run NoneOrphaned c₀ c) : HeldSettled c := by
  refine (ok_initial settings False hInit).invariant (discipline_sound settings False)
    (fun _ _ _ => allows_any) (fun x row p hRow => absurd hRow hInit.fresh.not_row) ?_ hRun
  intro c a c' hOk hSettled hCond hMove
  cases hMove with
  | start request =>
      intro x row p hRow hWaiting hParent hDone
      obtain ⟨j, k, hj⟩ := settling_iff.mp (hSettled x row p hRow hWaiting hParent hDone)
      refine settling_iff.mpr ⟨j, k, ?_⟩
      rw [List.getElem?_append_left (List.getElem?_eq_some_iff.mp hj).1]
      exact hj
  | step i e op k hHead => exact heldSettled_step hOk hSettled hHead hCond
  | crash i hLt =>
      intro x row p hRow hWaiting hParent hDone
      rcases settling_split (i := i) (hSettled x row p hRow hWaiting hParent hDone) with
        hOthers | ⟨k, hHead⟩
      · exact settling_of_others hOthers
      · have hHere : x ∈ heldChildren [] c.state p :=
          mem_heldChildren.mpr ⟨⟨row, hRow, hParent, hWaiting⟩, List.not_mem_nil⟩
        have hNotEmpty : (heldChildren [] c.state p).isEmpty = false := by
          rw [List.isEmpty_eq_false_iff]
          exact List.ne_nil_of_mem hHere
        have hOthers : othersSettle c i p = true := by
          simpa only [NoneOrphaned, noneOrphaned, hHead, hNotEmpty, Bool.false_or] using hCond
        exact settling_of_others hOthers

/-- **No held child outlives its parent**: when nothing is mid-flight, no child
that waits for its decision has a parent that is done. -/
theorem held_child_ends_with_parent (hInit : Initial c₀)
    (hRun : (server settings).Run NoneOrphaned c₀ c) (hQuiet : c.quiescent = true) :
    ∀ x row p, c.state.task? x = some row → row.isWaitingHeld = true →
      row.parent = some p → ¬ c.state.Done p := by
  intro x row p hRow hWaiting hParent hDone
  obtain ⟨j, k, hj⟩ := settling_iff.mp
    (heldSettled_run hInit hRun x row p hRow hWaiting hParent hDone)
  have hRet := List.all_eq_true.mp hQuiet _ (List.mem_of_getElem? hj)
  cases hRet

end

/-! ## Runs on the small site -/

/-- Agent 0 asks for a child of task 0 that agent 1 would run. -/
def askChild (thread : Nat) : List (Choice Env Request) :=
  Request.alone (.callerAssign 0 {
    implementation := some 1
    parent := some 0
    fresh := "child"
    freshLower := "" } true) thread 9

/-- Agent 0 completes task 0. -/
def completeRoot (thread n : Nat) : List (Choice Env Request) :=
  Request.alone (.report 0 { task := 0, report := .completed }) thread n

theorem held_child_ends_with_parent_completed : ∃ c,
    (server {}).Run NoneOrphaned demo c ∧ c.quiescent = true ∧
    ((c.state.task? 0).any (·.isDone) &&
      (c.state.task? 1).any (·.latestEventKind == .cancelled)) = true ∧
    ∀ x row p, c.state.task? x = some row → row.isWaitingHeld = true →
      row.parent = some p → ¬ c.state.Done p := by
  obtain ⟨c, hRun, hCheck⟩ := System.run_of_play_any (server {}) NoneOrphaned demo
    (assignRoot ++ askChild 1 ++ completeRoot 2 4)
    (fun c => c.quiescent && ((c.state.task? 0).any (·.isDone) &&
      (c.state.task? 1).any (·.latestEventKind == .cancelled))) (by decide)
  rw [Bool.and_eq_true] at hCheck
  exact ⟨c, hRun, hCheck.1, hCheck.2,
    held_child_ends_with_parent demo_initial hRun hCheck.1⟩

/-- Task 0 is done before agent 0 asks for a child of it. -/
theorem held_under_done_parent : ∃ c, (server {}).Run System.anyStep demo c ∧
    c.quiescent = true ∧ ∃ row, c.state.task? 1 = some row ∧ row.isWaitingHeld = true ∧
      row.parent = some 0 ∧ c.state.Done 0 := by
  obtain ⟨c, hRun, hCheck⟩ := System.run_of_play_any (server {}) System.anyStep demo
    (assignRoot ++ completeRoot 1 4 ++ askChild 2)
    (fun c => c.quiescent && (c.state.task? 0).any (·.isDone) &&
      (c.state.task? 1).any fun t => t.isWaitingHeld && t.parent == some 0) (by decide)
  simp only [Bool.and_eq_true] at hCheck
  obtain ⟨⟨hQuiet, hDone⟩, hChild⟩ := hCheck
  obtain ⟨prow, hProw, hPDone⟩ := Option.any_eq_true _ _ |>.mp hDone
  obtain ⟨row, hRow, hBoth⟩ := Option.any_eq_true _ _ |>.mp hChild
  rw [Bool.and_eq_true, beq_iff_eq] at hBoth
  exact ⟨c, hRun, hQuiet, row, hRow, hBoth.1, hBoth.2, prow, hProw, hPDone⟩

end Rekuest
