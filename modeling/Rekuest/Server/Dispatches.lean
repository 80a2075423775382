import Rekuest.Server.Finality
import Rekuest.Server.Pace

/-!
# How often a task is dispatched

Every push of a task's Assign is counted before it: by its attempts since it
was last resumed, and by its resumes.  Where an approval finds the task not yet
dispatched and a resume its budget not yet spent, that bounds the pushes; and
where a failed push is only recorded of a task no push of which was accepted,
`dispatched_at` reads NULL of no open task its agent may have.
-/

namespace Rekuest

open Concurrent

/-- Whether some transport accepted an Assign of the task. -/
def Db.accepted (db : Db) (x : Nat) : Bool :=
  db.sent.any fun sent => match sent.2 with
    | .assign assign => assign.task == x
    | _ => false

/-- What a transaction finds of the tasks it dispatches, or says were never
handed over. -/
def countsDispatches (e : Env) (op : Txn) (db : Db) : Bool :=
  match op with
  | .decideChild task _ true _ _ =>
      !(db.task? task).any (fun t => t.latestEventKind == .held && !t.isDone) ||
        (dictOf task (runnerOf db task)).all fun target =>
          (db.task? target).all (·.dispatchAttempts == 0)
  | .claim task c => (db.task? task).all fun row =>
      c.extra != .resume || !c.admits row || row.resumes < maxResumes
  | .recordUndelivered task =>
      (db.task? task).all (·.isDone) || !db.accepted task
  | .forgetDispatches agent => (List.range db.tasks.length).all fun task =>
      (db.task? task).all fun row =>
        row.agent != agent || row.isDone || row.pickedUpAt.isSome || !db.accepted task
  | .deliver _ (.assign assign) => !e.delivered ||
      (db.task? assign.task).all fun row => row.isDone || row.dispatchedAt.isSome
  | _ => true

/-- The steps that count every dispatch, and forget none. -/
def CountsDispatches : ServerConfig → Choice Env Request → Prop :=
  Machine.onStep fun e op db => countsDispatches e op db = true

instance (c : ServerConfig) (a : Choice Env Request) : Decidable (CountsDispatches c a) :=
  inferInstanceAs (Decidable (Machine.onStep _ c a))

/-- Whether a transaction pushes the task's Assign, accepted or not. -/
def pushed (x : Nat) : Txn → Nat
  | .deliver _ (.assign assign) => if assign.task = x then 1 else 0
  | _ => 0

/-- Whether a step pushes the task's Assign. -/
def pushes (x : Nat) (c : ServerConfig) : Choice Env Request → Nat
  | .step i _ => match c.threads[i]? with
      | some (.act op _) => pushed x op
      | _ => 0
  | _ => 0

/-- Whether a thread owes the push of the task's Assign. -/
def owes (x : Nat) (owed : Option Nat) : Nat := if owed = some x then 1 else 0

/-- The dispatches counted of a task. -/
def Task.dispatches (t : Task) : Nat := maxDispatchAttempts * t.resumes + t.dispatchAttempts

/-- The counters of a task within their bounds. -/
structure Task.InBudget (t : Task) : Prop where
  attempts : t.dispatchAttempts ≤ maxDispatchAttempts
  resumes : t.resumes ≤ maxResumes

/-- Whether a transaction may move the counters of a task that has a row. -/
def recounts : Txn → Bool
  | .claim .. | .decideChild _ _ true _ _ | .decideUnpicked .. | .claimDue _ => true
  | _ => false

section

variable {settings : Settings} {imps : List Implementation} {e : Env} {op : Txn} {db : Db}
variable {x : Nat} {row row' : Task} {events : List TaskEvent} {before : Option Nat}

theorem TaskStep.counters (hStep : TaskStep e db x row op row' events)
    (hOp : recounts op = false) :
    row'.dispatchAttempts = row.dispatchAttempts ∧ row'.resumes = row.resumes := by
  cases hStep with
  | claimed | approved | lowerApproved | unpicked | redelivered | dueFinalized
  | dueDispatched => cases hOp
  | _ => exact ⟨rfl, rfl⟩

/-- What one transaction counts of a task and what its thread owes after it. -/
structure Counted (settings : Settings) (e : Env) (db : Db) (x : Nat) (op : Txn)
    (before : Option Nat) (row row' : Task) : Prop where
  budget : row'.InBudget
  count : pushed x op + owes x (pending before op (Txn.exec settings e op db).1) +
    row.dispatches ≤ row'.dispatches + owes x before

theorem counted_of_same (hBudget : row.InBudget)
    (hSame : row'.dispatchAttempts = row.dispatchAttempts ∧ row'.resumes = row.resumes)
    (hOwes : pushed x op + owes x (pending before op (Txn.exec settings e op db).1) ≤
      owes x before) : Counted settings e db x op before row row' where
  budget := ⟨by rw [hSame.1]; exact hBudget.attempts, by rw [hSame.2]; exact hBudget.resumes⟩
  count := by
    simp only [Task.dispatches, hSame.1, hSame.2]
    omega

/-! ### The transactions that count -/

theorem counted_claim {task : Nat} {c : Claim} (hRow : db.task? x = some row)
    (hRow' : (Txn.exec settings e (.claim task c) db).2.task? x = some row')
    (hBudget : row.InBudget) (hCounts : countsDispatches e (.claim task c) db = true) :
    Counted settings e db x (.claim task c) before row row' := by
  simp only [Txn.exec] at hRow'
  rcases claimTask_cases e db task c with hLost | ⟨trow, hTask, hAdmits, hWon⟩
  · rw [hLost, hRow, Option.some.injEq] at hRow'
    subst hRow'
    refine counted_of_same hBudget ⟨rfl, rfl⟩ ?_
    simp [pushed, owes, pending, Txn.exec, hLost]
  · have hMoved : row' = if task = x then c.move e.now row else row := by
      rw [hWon] at hRow'
      cases hEvent : c.event <;>
        simp only [hEvent, Db.task?_insertEvent, Db.task?_modifyTask] at hRow' <;>
        split at hRow' <;> simp_all
    by_cases hx : task = x
    · subst hx
      rw [hRow, Option.some.injEq] at hTask
      subst hTask
      rw [if_pos rfl] at hMoved
      subst hMoved
      cases hExtra : c.extra with
      | resume =>
          have hLeft : row.resumes < maxResumes := by
            simpa [countsDispatches, hRow, hExtra, hAdmits] using hCounts
          have hA : (c.move e.now row).dispatchAttempts = 1 := by
            simp [Claim.move, hExtra, ClaimExtra.set]
          have hR : (c.move e.now row).resumes = row.resumes + 1 := by
            simp [Claim.move, hExtra, ClaimExtra.set]
          have hAttempts := hBudget.attempts
          refine ⟨⟨?_, ?_⟩, ?_⟩
          · rw [hA]
            decide
          · rw [hR]
            exact hLeft
          · simp only [Task.dispatches, hA, hR, pushed, owes, pending, Txn.exec, hWon, hExtra,
              if_true, maxDispatchAttempts] at hAttempts ⊢
            omega
      | none | clearInterruptAt =>
          refine counted_of_same hBudget ?_ ?_
          · simp [Claim.move, hExtra, ClaimExtra.set]
          · simp [pushed, owes, pending, Txn.exec, hWon, hExtra]
    · rw [if_neg hx] at hMoved
      subst hMoved
      refine counted_of_same hBudget ⟨rfl, rfl⟩ ?_
      simp only [pushed, owes, pending, Txn.exec, hWon]
      split <;> simp [hx]

/-- An approval finds the held task and the lower child that runs it not yet
dispatched. -/
theorem approval_undispatched {task : Nat} {watchers : List Nat} {answer : Option String}
    {decided : EventValue} (hRow : db.task? x = some row)
    (hHeld : (db.task? task).any (fun t => t.latestEventKind == .held && !t.isDone) = true)
    (hTarget : x = task ∨ x = runnerOf db task)
    (hCounts : countsDispatches e (.decideChild task watchers true answer decided) db = true) :
    row.dispatchAttempts = 0 := by
  simp only [countsDispatches, hHeld, Bool.not_true, Bool.false_or] at hCounts
  have hMem : x ∈ dictOf task (runnerOf db task) := by
    unfold dictOf
    split
    case isTrue hEq => simpa [hEq] using hTarget
    case isFalse => simpa using hTarget
  have hOne := List.all_eq_true.mp hCounts x hMem
  simpa [hRow] using hOne

theorem counted_approve {task : Nat} {watchers : List Nat} {answer : Option String}
    {decided : EventValue} (hRow : db.task? x = some row)
    (hRow' : (Txn.exec settings e (.decideChild task watchers true answer decided)
      db).2.task? x = some row') (hBudget : row.InBudget)
    (hCounts : countsDispatches e (.decideChild task watchers true answer decided) db = true) :
    Counted settings e db x (.decideChild task watchers true answer decided) before row
      row' := by
  simp only [Txn.exec] at hRow'
  by_cases hHeld : (db.task? task).any (fun t => t.latestEventKind == .held && !t.isDone)
  case neg =>
    have hRefused : decideChild e db task watchers true answer decided = (none, db) := by
      simp [decideChild, hHeld]
    rw [hRefused, hRow, Option.some.injEq] at hRow'
    subst hRow'
    refine counted_of_same hBudget ⟨rfl, rfl⟩ ?_
    simp [pushed, owes, pending, Txn.exec, hRefused]
  case pos =>
    have hResult : (decideChild e db task watchers true answer decided).1 =
        some (runnerOf db task) := by
      simp only [decideChild, hHeld, Bool.not_true, Bool.false_eq_true, if_false, if_true]
    rw [decideChild_approved_row e hRow watchers answer decided hHeld,
      Option.some.injEq] at hRow'
    by_cases hTarget : x = task ∨ x = runnerOf db task
    · have hZero := approval_undispatched hRow hHeld hTarget hCounts
      rw [if_pos hTarget] at hRow'
      subst hRow'
      by_cases hRunner : x = runnerOf db task
      · refine ⟨⟨?_, hBudget.resumes⟩, ?_⟩
        · simp [hRunner, maxDispatchAttempts]
        · simp only [Task.dispatches, hZero, pushed, owes, pending, Txn.exec,
            hResult, hRunner]
          omega
      · refine counted_of_same hBudget (by simp [hRunner]) ?_
        simp [pushed, owes, pending, Txn.exec, hResult, Ne.symm hRunner]
    · rw [if_neg hTarget] at hRow'
      subst hRow'
      refine counted_of_same hBudget ⟨rfl, rfl⟩ ?_
      have hRunner : runnerOf db task ≠ x := fun h => hTarget (.inr h.symm)
      simp [pushed, owes, pending, Txn.exec, hResult, hRunner]

/-- A redelivery counts itself. -/
theorem decideUnpicked_redeliver {task agent : Nat} {cutoff : Int} {assign : Assign}
    (h : (decideUnpicked e db task cutoff).1 = .redeliver assign agent) :
    assign.task = task ∧ ∃ row, db.task? task = some row ∧
      row.dispatchAttempts < maxDispatchAttempts ∧
      (decideUnpicked e db task cutoff).2.task? task = some { row with
        dispatchedAt := some e.now
        dispatchAttempts := row.dispatchAttempts + 1
        revision := row.revision + 1 } := by
  cases hRow : db.task? task with
  | none => simp [decideUnpicked, hRow] at h
  | some row =>
      simp only [decideUnpicked, hRow] at h ⊢
      split at h
      case isTrue => cases h
      case isFalse hMine =>
        rw [if_neg hMine]
        split at h
        case h_1 => cases h
        case h_2 built hOutcome =>
          cases h
          have hSent : row.dispatchAttempts < maxDispatchAttempts ∧ assign.task = task := by
            simp only [unpickedOutcome] at hOutcome
            split at hOutcome
            case h_1 | h_2 => cases hOutcome
            case h_3 =>
              split at hOutcome
              case isTrue => cases hOutcome
              case isFalse hLeft =>
                split at hOutcome
                case h_1 => cases hOutcome
                case h_2 hAssign =>
                  cases hOutcome
                  exact ⟨Nat.lt_of_not_le hLeft, buildRedispatchAssign_task hAssign⟩
          refine ⟨hSent.2, row, rfl, hSent.1, ?_⟩
          simp [hRow]

theorem counted_unpicked {task : Nat} {cutoff : Int} (hRow : db.task? x = some row)
    (hRow' : (Txn.exec settings e (.decideUnpicked task cutoff) db).2.task? x = some row')
    (hBudget : row.InBudget) :
    Counted settings e db x (.decideUnpicked task cutoff) before row row' := by
  have hResult (hNot : ∀ assign agent,
      (decideUnpicked e db task cutoff).1 = .redeliver assign agent → task ≠ x) :
      Counted settings e db x (.decideUnpicked task cutoff) before row row' := by
    have hSame : row'.dispatchAttempts = row.dispatchAttempts ∧ row'.resumes = row.resumes := by
      cases hTask : db.task? task with
      | none =>
          simp only [Txn.exec, decideUnpicked, hTask, hRow, Option.some.injEq] at hRow'
          simp [← hRow']
      | some trow =>
          simp only [Txn.exec, decideUnpicked, hTask] at hRow' hNot
          split at hRow'
          case isTrue =>
            rw [hRow, Option.some.injEq] at hRow'
            simp [← hRow']
          case isFalse hMine =>
            rw [if_neg hMine] at hNot
            split at hRow'
            case h_1 kind message _ =>
              by_cases hx : task = x
              · subst hx
                rw [(finalizeLocked_becomes hRow e.now).1, Option.some.injEq] at hRow'
                simp [← hRow', Task.ended]
              · rw [(finalizeLocked_other hRow hx e.now).1, Option.some.injEq] at hRow'
                simp [← hRow']
            case h_2 assign hOutcome =>
              have hx := hNot assign trow.agent (by rw [hOutcome])
              simp only [Db.task?_insertEvent, Db.task?_modifyTask_ne hx, hRow,
                Option.some.injEq] at hRow'
              simp [← hRow']
    refine counted_of_same hBudget hSame ?_
    cases hDecided : (decideUnpicked e db task cutoff).1 with
    | skip | finalized => simp [pushed, owes, pending, Txn.exec, hDecided]
    | redeliver assign agent =>
        have hx := hNot assign agent hDecided
        have hTask := (decideUnpicked_redeliver hDecided).1
        simp [pushed, owes, pending, Txn.exec, hDecided, hTask, hx]
  cases hDecided : (decideUnpicked e db task cutoff).1 with
  | skip | finalized => exact hResult fun assign agent h => by rw [hDecided] at h; cases h
  | redeliver assign agent =>
      obtain ⟨hTask, trow, hTrow, hLeft, hNew⟩ := decideUnpicked_redeliver hDecided
      by_cases hx : task = x
      · subst hx
        rw [hRow, Option.some.injEq] at hTrow
        subst hTrow
        simp only [Txn.exec] at hRow'
        rw [hNew, Option.some.injEq] at hRow'
        subst hRow'
        refine ⟨⟨hLeft, hBudget.resumes⟩, ?_⟩
        simp only [Task.dispatches, pushed, owes, pending, Txn.exec, hDecided, hTask, if_true]
        omega
      · exact hResult fun _ _ _ => hx

/-- The due sweep counts the first dispatch. -/
theorem counted_due {task : Nat} (hRow : db.task? x = some row)
    (hRow' : (Txn.exec settings e (.claimDue task) db).2.task? x = some row')
    (hBudget : row.InBudget) : Counted settings e db x (.claimDue task) before row row' := by
  simp only [Txn.exec] at hRow'
  by_cases hx : task = x
  case neg =>
    have hSame : row' = row := by
      obtain ⟨row'', events, hBecomes, hStep⟩ := claimDue_steps (e := e) hRow task
      rw [hBecomes.1, Option.some.injEq] at hRow'
      subst hRow'
      cases hStep with
      | dueFinalized | dueDispatched => exact absurd rfl hx
      | dated _ _ _ hDates => exact hDates.elim
      | same => rfl
    subst hSame
    refine counted_of_same hBudget ⟨rfl, rfl⟩ ?_
    cases hDue : (claimDue e db task).1 with
    | skip | finalized => simp [pushed, owes, pending, Txn.exec, hDue]
    | dispatch assign agent =>
        simp [pushed, owes, pending, Txn.exec, hDue, (claimDue_dispatch hDue).1, hx]
  case pos =>
    subst hx
    cases hDue : (claimDue e db task).1 with
    | skip | finalized =>
        refine counted_of_same hBudget ?_ (by simp [pushed, owes, pending, Txn.exec, hDue])
        simp only [claimDue, hRow] at hRow' hDue
        split at hRow'
        case isTrue =>
          rw [hRow, Option.some.injEq] at hRow'
          simp [← hRow']
        case isFalse hMine =>
          rw [if_neg hMine] at hDue
          cases hAssign : buildRedispatchAssign e db task with
          | none =>
              simp only [hAssign] at hRow'
              rw [(finalizeLocked_becomes hRow e.now).1, Option.some.injEq] at hRow'
              simp [← hRow', Task.ended]
          | some assign => simp [hAssign] at hDue
    | dispatch assign agent =>
        obtain ⟨hTask, wrow, hWrow, -, hWaiting⟩ := claimDue_dispatch hDue
        rw [hRow, Option.some.injEq] at hWrow
        subst hWrow
        have hZero : row.dispatchAttempts = 0 := by
          simp only [Task.isWaiting, Bool.and_eq_true, beq_iff_eq] at hWaiting
          exact hWaiting.2
        have hMoved : row'.dispatchAttempts = 1 ∧ row'.resumes = row.resumes := by
          simp only [claimDue, hRow] at hRow' hDue
          split at hRow'
          case isTrue hSkip =>
            rw [if_pos hSkip] at hDue
            cases hDue
          case isFalse hMine =>
            cases hAssign : buildRedispatchAssign e db task with
            | none =>
                rw [if_neg hMine, hAssign] at hDue
                cases hDue
            | some built =>
                simp only [hAssign, Db.task?_modifyTask_self, hRow, Option.map_some,
                  Option.some.injEq] at hRow'
                simp [← hRow']
        refine ⟨⟨?_, ?_⟩, ?_⟩
        · rw [hMoved.1]
          decide
        · rw [hMoved.2]
          exact hBudget.resumes
        · simp only [Task.dispatches, hMoved.1, hMoved.2, hZero, pushed, owes, pending, Txn.exec,
            hDue, hTask, if_true]
          omega

/-! ### Every transaction -/

theorem insertTask_id {new : NewTask} {ask : Ask} {task : Nat}
    (h : (insertTask e db new ask).1 = .created task) : task = db.tasks.length := by
  simp only [insertTask] at h
  split at h
  case isTrue => cases h
  case isFalse =>
    split at h
    case isTrue => cases h
    case isFalse =>
      cases h
      rfl

theorem insertHigherOrder_id {wrapper lower : NewTask} {ask : Ask} {task : Nat}
    (h : (insertHigherOrder e db wrapper lower ask).1 = .created task) :
    task = db.tasks.length := by
  simp only [insertHigherOrder] at h
  split at h
  case isTrue => cases h
  case isFalse =>
    split at h
    case isTrue => cases h
    case isFalse =>
      cases h
      rfl

/-- A task that is already there is not the one an assign inserts. -/
theorem owes_insertTask {new : NewTask} {ask : Ask} (hRow : db.task? x = some row) :
    owes x (pending before (.insertTask new ask)
      (Txn.exec settings e (.insertTask new ask) db).1) = 0 := by
  have hLt := Db.task?_lt hRow
  simp only [Txn.exec]
  cases hResult : (insertTask e db new ask).1 with
  | duplicate | refused => rfl
  | created task =>
      have hNew := insertTask_id hResult
      simp only [owes, pending]
      split
      · rfl
      · rw [if_neg]
        intro h
        rw [Option.some.injEq] at h
        omega

theorem owes_insertHigherOrder {wrapper lower : NewTask} {ask : Ask}
    (hRow : db.task? x = some row) :
    owes x (pending before (.insertHigherOrder wrapper lower ask)
      (Txn.exec settings e (.insertHigherOrder wrapper lower ask) db).1) = 0 := by
  have hLt := Db.task?_lt hRow
  simp only [Txn.exec]
  cases hResult : (insertHigherOrder e db wrapper lower ask).1 with
  | duplicate | refused => rfl
  | created task =>
      have hNew := insertHigherOrder_id hResult
      simp only [owes, pending]
      split
      · rfl
      · rw [if_neg]
        intro h
        rw [Option.some.injEq] at h
        omega

/-- **Step lemma**: what one transaction pushes and makes its thread owe, it
counts. -/
theorem counted_exec {imps : List Implementation} (hTree : db.Tree)
    (hPaced : permits settings imps before op)
    (hCounts : countsDispatches e op db = true) (hRow : db.task? x = some row)
    (hRow' : (Txn.exec settings e op db).2.task? x = some row') (hBudget : row.InBudget) :
    Counted settings e db x op before row row' := by
  have hKept (hOp : recounts op = false) :
      row'.dispatchAttempts = row.dispatchAttempts ∧ row'.resumes = row.resumes := by
    obtain ⟨row'', events, hBecomes, hStep⟩ := taskStep settings e op hTree hRow
    rw [hBecomes.1, Option.some.injEq] at hRow'
    subst hRow'
    exact hStep.counters hOp
  cases op with
  | claim task c => exact counted_claim hRow hRow' hBudget hCounts
  | decideUnpicked task cutoff => exact counted_unpicked hRow hRow' hBudget
  | claimDue task => exact counted_due hRow hRow' hBudget
  | decideChild task watchers approved answer decided =>
      cases approved with
      | true => exact counted_approve hRow hRow' hBudget hCounts
      | false => exact counted_of_same hBudget (hKept rfl) (by simp [pushed, owes, pending])
  | insertTask new ask =>
      refine counted_of_same hBudget (hKept rfl) ?_
      rw [owes_insertTask hRow]
      simp [pushed]
  | insertHigherOrder wrapper lower ask =>
      refine counted_of_same hBudget (hKept rfl) ?_
      rw [owes_insertHigherOrder hRow]
      simp [pushed]
  | query α read =>
      refine counted_of_same hBudget (hKept rfl) ?_
      show pushed x (.query α read) + owes x before ≤ owes x before
      simp [pushed]
  | deliver agent frame =>
      refine counted_of_same hBudget (hKept rfl) ?_
      cases frame with
      | assign assign =>
          have hOwed : before = some assign.task := hPaced
          simp [hOwed, pushed, owes, pending]
      | _ => simp [pushed, owes, pending]
  | _ => exact counted_of_same hBudget (hKept rfl) (by simp [pushed, owes, pending])

/-! ## What the column says -/

/-- An accepted Assign was accepted before, or is the transaction's. -/
theorem accepted_exec (hAccepted : (Txn.exec settings e op db).2.accepted x = true) :
    db.accepted x = true ∨ ∃ agent assign, op = .deliver agent (.assign assign) ∧
      assign.task = x ∧ e.delivered = true := by
  rcases sent_exec settings e op db with hSame | ⟨agent, frame, rfl, hSent⟩
  · exact .inl (by rwa [Db.accepted, hSame] at hAccepted)
  · rw [Db.accepted, hSent, List.any_append, Bool.or_eq_true] at hAccepted
    rcases hAccepted with hOld | hNew
    · exact .inl hOld
    · have hDelivered : e.delivered = true := by
        by_cases h : e.delivered = true
        · exact h
        · simp only [Txn.exec, h, Bool.false_eq_true, if_false] at hSent
          exact absurd hSent (by simp)
      cases frame with
      | assign assign =>
          refine .inr ⟨agent, assign, rfl, ?_, hDelivered⟩
          simpa using hNew
      | _ => simp at hNew

/-- An open row reads NULL where it did, or where a transaction records that no
Assign left. -/
theorem undispatched_step (hTree : db.Tree) (hCounts : countsDispatches e op db = true)
    (hRow : db.task? x = some row)
    (hRow' : (Txn.exec settings e op db).2.task? x = some row') (hOpen : row'.isDone = false)
    (hNull : row'.dispatchedAt = none) :
    db.accepted x = false ∨ (row.isDone = false ∧ row.dispatchedAt = none) := by
  obtain ⟨row'', events, hBecomes, hStep⟩ := taskStep settings e op hTree hRow
  have hNew := hBecomes.1
  rw [hRow', Option.some.injEq] at hNew
  subst hNew
  cases hStep with
  | same | stamped | movedToNow | recorded | instructed => exact .inr ⟨hOpen, hNull⟩
  | claimed c hAdmits =>
      refine .inr ⟨(Claim.admits_open hAdmits).1, ?_⟩
      cases hExtra : c.extra <;> simp_all [Claim.move, ClaimExtra.set]
  | dated op dispatchedAt interruptAt hDates =>
      cases op with
      | recordUndelivered task =>
          obtain ⟨rfl, hRowOpen, -, -⟩ := hDates
          refine .inl ?_
          simpa [countsDispatches, hRow, hRowOpen] using hCounts
      | forgetDispatches agent =>
          obtain ⟨hAgent, hRowOpen, hUnpicked, -, -⟩ := hDates
          refine .inl ?_
          simp only [countsDispatches, List.all_eq_true, List.mem_range] at hCounts
          have hOne := hCounts x (Db.task?_lt hRow)
          simpa [hRow, hAgent, hRowOpen, hUnpicked] using hOne
      | clearDeadline task deadline =>
          obtain ⟨-, hRowOpen, -, rfl, -⟩ := hDates
          exact .inr ⟨hRowOpen, hNull⟩
      | setDeadline task at' =>
          obtain ⟨-, hRowOpen, rfl, -⟩ := hDates
          exact .inr ⟨hRowOpen, hNull⟩
      | restartPickupClock agent =>
          obtain ⟨-, -, -, rfl, -⟩ := hDates
          cases hNull
      | _ => exact hDates.elim
  | approved watchers answer decided hHeld hRowOpen =>
      have hAny : (db.task? x).any (fun t => t.latestEventKind == .held && !t.isDone) = true := by
        simp [hRow, hHeld, hRowOpen]
      simp only [Txn.exec] at hRow'
      rw [decideChild_approved_row e hRow watchers answer decided hAny,
        Option.some.injEq] at hRow'
      rw [← hRow', if_pos (.inl rfl)] at hNull
      refine .inr ⟨hRowOpen, ?_⟩
      by_cases hRunner : x = runnerOf db x
      · simp only [← hRunner, if_true] at hNull
        cases hNull
      · simpa only [hRunner, if_false] using hNull
  | lowerApproved | redelivered | dueDispatched => cases hNull
  | overridden _ _ _ hDone =>
      have hStill : row.isDone = false := hOpen
      rw [hDone] at hStill
      cases hStill
  | settledChild | settledLower | denied | lowerDenied | controlSettled | lowerSettled
  | unpicked | dueFinalized => cases hOpen

/-- A thread that owes a push owes that of a task there is. -/
theorem pending_row (hTree : db.Tree)
    (hPending : pending before op (Txn.exec settings e op db).1 = some x) :
    before = some x ∨ ∃ row, (Txn.exec settings e op db).2.task? x = some row := by
  have hStays {row : Task} (hRow : db.task? x = some row) :
      before = some x ∨ ∃ row, (Txn.exec settings e op db).2.task? x = some row := by
    obtain ⟨row', _, hBecomes, -⟩ := taskStep settings e op hTree hRow
    exact .inr ⟨row', hBecomes.1⟩
  cases op with
  | query α read => exact .inl hPending
  | insertTask new ask =>
      simp only [Txn.exec] at hPending ⊢
      cases hResult : (insertTask e db new ask).1 with
      | duplicate | refused => simp [hResult, pending] at hPending
      | created task =>
          simp only [hResult, pending] at hPending
          split at hPending
          · cases hPending
          · cases hPending
            exact .inr ⟨_, insertTask_created hResult⟩
  | insertHigherOrder wrapper lower ask =>
      simp only [Txn.exec] at hPending ⊢
      cases hResult : (insertHigherOrder e db wrapper lower ask).1 with
      | duplicate | refused => simp [hResult, pending] at hPending
      | created task =>
          simp only [hResult, pending] at hPending
          split at hPending
          · cases hPending
          · cases hPending
            exact .inr ⟨_, insertHigherOrder_created hResult⟩
  | decideUnpicked task cutoff =>
      simp only [Txn.exec] at hPending
      cases hResult : (decideUnpicked e db task cutoff).1 with
      | skip | finalized => simp [hResult, pending] at hPending
      | redeliver assign agent =>
          simp only [hResult, pending, Option.some.injEq] at hPending
          obtain ⟨hTask, row, hRow, -⟩ := decideUnpicked_redeliver hResult
          rw [← hTask, hPending] at hRow
          exact hStays hRow
  | claimDue task =>
      simp only [Txn.exec] at hPending
      cases hResult : (claimDue e db task).1 with
      | skip | finalized => simp [hResult, pending] at hPending
      | dispatch assign agent =>
          simp only [hResult, pending, Option.some.injEq] at hPending
          obtain ⟨hTask, row, hRow, -⟩ := claimDue_dispatch hResult
          rw [← hTask, hPending] at hRow
          exact hStays hRow
  | claim task c =>
      simp only [Txn.exec] at hPending
      rcases claimTask_cases e db task c with hLost | ⟨row, hRow, -, hWon⟩
      · simp [hLost, pending] at hPending
      · simp only [hWon, pending] at hPending
        split at hPending
        · cases hPending
          exact hStays hRow
        · cases hPending
  | decideChild task watchers approved answer decided =>
      cases approved with
      | false => simp [pending] at hPending
      | true =>
          simp only [Txn.exec, decideChild] at hPending
          split at hPending
          case isTrue => simp [pending] at hPending
          case isFalse hHeld =>
            simp only [if_true, pending, Option.some.injEq] at hPending
            rw [Bool.not_eq_true', Bool.not_eq_false] at hHeld
            by_cases hRunner : runnerOf db task = task
            · obtain ⟨row, hRow, -⟩ := Option.any_eq_true _ _ |>.mp hHeld
              rw [← hRunner, hPending] at hRow
              exact hStays hRow
            · obtain ⟨row, hRow, -⟩ := Db.runnerOf_isLower hRunner
              rw [hPending] at hRow
              exact hStays hRow
  | _ => simp [pending] at hPending

/-- What a new row counts covers the push its thread owes. -/
theorem newRow_counted {imps : List Implementation} (hPaced : permits settings imps before op)
    (hNew : NewRow e db x op row') : row'.InBudget ∧
      pushed x op + owes x (pending before op (Txn.exec settings e op db).1) ≤
        row'.dispatches := by
  cases hNew with
  | plain new ask hx =>
      have hOnce : new.dispatchAttempts ≤ 1 := hPaced.1
      refine ⟨⟨Nat.le_trans hOnce (by decide), Nat.zero_le _⟩, ?_⟩
      simp only [Txn.exec]
      cases hResult : (insertTask e db new ask).1 with
      | duplicate | refused => simp [pushed, owes, pending]
      | created task =>
          simp only [pushed, owes, pending, Task.dispatches, NewTask.row]
          split
          · simp
          · split <;> omega
  | wrapper wrapper lower ask hx =>
      have hNone : wrapper.dispatchAttempts = 0 := hPaced.1
      refine ⟨⟨Nat.le_trans (Nat.le_of_eq hNone) (Nat.zero_le _), Nat.zero_le _⟩, ?_⟩
      simp only [Txn.exec]
      cases hResult : (insertHigherOrder e db wrapper lower ask).1 with
      | duplicate | refused => simp [pushed, owes, pending]
      | created task =>
          have hId := insertHigherOrder_id hResult
          have hNe : task + 1 ≠ x := by omega
          simp only [pushed, owes, pending]
          split <;> simp [hNe]
  | lower wrapper lower ask hx =>
      have hOnce : lower.dispatchAttempts ≤ 1 := hPaced.2.1
      refine ⟨⟨Nat.le_trans hOnce (by decide), Nat.zero_le _⟩, ?_⟩
      simp only [Txn.exec]
      cases hResult : (insertHigherOrder e db wrapper lower ask).1 with
      | duplicate | refused => simp [pushed, owes, pending]
      | created task =>
          simp only [pushed, owes, pending, Task.dispatches, NewTask.row, lowerChild]
          split
          · simp
          · split <;> omega

end

/-! ## Runs -/

/-- The pushes of a task so far against what its row counts and its threads owe,
and what its column says. -/
structure Dispatching (x : Nat) (owed : List (Option Nat)) (db : Db) (n : Nat) : Prop where
  absent : db.task? x = none → n = 0 ∧ owed.count (some x) = 0 ∧ db.accepted x = false
  counted : ∀ row, db.task? x = some row →
    row.InBudget ∧ n + owed.count (some x) ≤ row.dispatches
  honest : ∀ row, db.task? x = some row → row.isDone = false → row.dispatchedAt = none →
    db.accepted x = false

section

variable {settings : Settings} {imps : List Implementation} {e : Env} {op : Txn} {db : Db}
variable {x i n : Nat} {before : Option Nat} {owed : List (Option Nat)}

theorem owes_le_count (hBefore : owed[i]? = some before) :
    owes x before ≤ owed.count (some x) := by
  unfold owes
  split
  case isTrue h => exact List.one_le_count_iff.mpr (h ▸ List.mem_of_getElem? hBefore)
  case isFalse => exact Nat.zero_le _

/-- What the threads owe, when one of them went on. -/
theorem count_owed_set (hBefore : owed[i]? = some before) (after : Option Nat) :
    (owed.set i after).count (some x) + owes x before =
      owed.count (some x) + owes x after := by
  have hLe : owes x before ≤ owed.count (some x) := owes_le_count hBefore
  obtain ⟨hLt, hGet⟩ := List.getElem?_eq_some_iff.mp hBefore
  rw [List.count_set hLt, hGet]
  simp only [owes, beq_iff_eq] at hLe ⊢
  omega

/-- A new thread owes nothing. -/
theorem dispatching_start (h : Dispatching x owed db n) :
    Dispatching x (owed ++ [none]) db n := by
  have hCount : (owed ++ [none]).count (some x) = owed.count (some x) := by
    simp [List.count_append]
  exact ⟨by rw [hCount]; exact h.absent, by rw [hCount]; exact h.counted, h.honest⟩

/-- **Step lemma** -/
theorem dispatching_exec (hTree : db.Tree) (hPaced : permits settings imps before op)
    (hCounts : countsDispatches e op db = true) (hBefore : owed[i]? = some before)
    (h : Dispatching x owed db n) :
    Dispatching x (owed.set i (pending before op (Txn.exec settings e op db).1))
      (Txn.exec settings e op db).2 (n + pushed x op) := by
  have hCount := count_owed_set (x := x) hBefore
    (pending before op (Txn.exec settings e op db).1)
  have hOwes : owes x before ≤ owed.count (some x) := owes_le_count hBefore
  constructor
  · intro hNone'
    have hNone : db.task? x = none := by
      cases hRow : db.task? x with
      | none => rfl
      | some row =>
          obtain ⟨row', _, hBecomes, -⟩ := taskStep settings e op hTree hRow
          rw [hBecomes.1] at hNone'
          cases hNone'
    obtain ⟨hn, hOwed, hAccepted⟩ := h.absent hNone
    have hNotBefore : before ≠ some x := by
      intro hEq
      simp only [owes, hEq, if_true] at hOwes
      omega
    have hNotPending : owes x (pending before op (Txn.exec settings e op db).1) = 0 := by
      unfold owes
      rw [if_neg]
      intro hPending
      rcases pending_row hTree hPending with hEq | ⟨row, hRow⟩
      · exact hNotBefore hEq
      · rw [hNone'] at hRow
        cases hRow
    have hNotPushed (agent : Nat) (assign : Assign)
        (hEq : op = .deliver agent (.assign assign)) : assign.task ≠ x := by
      intro hTask
      subst hEq
      have hOwed : before = some assign.task := hPaced
      exact hNotBefore (hTask ▸ hOwed)
    refine ⟨?_, by omega, ?_⟩
    · have hZero : pushed x op = 0 := by
        unfold pushed
        split
        case h_1 agent assign => exact if_neg (hNotPushed agent assign rfl)
        case h_2 => rfl
      omega
    · rw [← Bool.not_eq_true]
      intro hNew
      rcases accepted_exec hNew with hOld | ⟨agent, assign, hEq, hTask, -⟩
      · rw [hAccepted] at hOld
        cases hOld
      · exact hNotPushed agent assign hEq hTask
  · intro row' hRow'
    rcases row_exec hTree hRow' with ⟨row, events, hRow, -, hStep⟩ | ⟨hNone, hNew⟩
    · obtain ⟨hBudget, hOld⟩ := h.counted row hRow
      have hCounted := counted_exec hTree hPaced hCounts hRow hRow' hBudget
      have hNow := hCounted.count
      exact ⟨hCounted.budget, by omega⟩
    · obtain ⟨hn, hOwed, -⟩ := h.absent hNone
      have hNow : row'.InBudget ∧
          pushed x op + owes x (pending before op (Txn.exec settings e op db).1) ≤
            row'.dispatches := newRow_counted hPaced hNew
      exact ⟨hNow.1, by omega⟩
  · intro row' hRow' hOpen hNull
    rw [← Bool.not_eq_true]
    intro hNew
    rcases row_exec hTree hRow' with ⟨row, events, hRow, -, hStep⟩ | ⟨hNone, hNewRow⟩
    · have hOld : db.accepted x = false := by
        rcases undispatched_step hTree hCounts hRow hRow' hOpen hNull with hOld | ⟨hO, hN⟩
        · exact hOld
        · exact h.honest row hRow hO hN
      rcases accepted_exec hNew with hAccepted | ⟨agent, assign, rfl, hTask, hDelivered⟩
      · rw [hOld] at hAccepted
        cases hAccepted
      · subst hTask
        have hSame : (Txn.exec settings e (.deliver agent (.assign assign)) db).2.task?
            assign.task = db.task? assign.task := by
          simp only [Txn.exec, hDelivered, if_true]
          rfl
        rw [hSame, hRow, Option.some.injEq] at hRow'
        subst hRow'
        simp [countsDispatches, hDelivered, hRow, hOpen, hNull] at hCounts
    · rcases accepted_exec hNew with hAccepted | ⟨agent, assign, rfl, hTask, hDelivered⟩
      · rw [(h.absent hNone).2.2] at hAccepted
        cases hAccepted
      · cases hNewRow

end

section

variable {settings : Settings} {c c₀ : ServerConfig} {x n : Nat}

/-- **Run lemma** -/
theorem dispatching_run (hInit : Initial c₀)
    (hRun : ((server settings).counted (pushes x)).Run (fun s a => CountsDispatches s.1 a)
      (c₀, 0) (c, n)) :
    ∃ owed, Owed settings c₀.state.implementations c.threads owed ∧
      Dispatching x owed c.state n := by
  have hEnd := hRun.invariant (I := fun s => (discipline settings False).Ok s.1 ∧
    s.1.state.implementations = c₀.state.implementations ∧
    ∃ owed, Owed settings c₀.state.implementations s.1.threads owed ∧
      Dispatching x owed s.1.state s.2) ?_ ?_
  · exact hEnd.2.2
  · refine ⟨ok_initial settings False hInit, rfl, [], ?_, ?_⟩
    · exact ⟨by simp [hInit.idle], fun i p t hp => by simp [hInit.idle] at hp⟩
    · refine ⟨fun _ => ⟨rfl, rfl, ?_⟩, fun row hRow => absurd hRow hInit.fresh.not_row,
        fun row hRow => absurd hRow hInit.fresh.not_row⟩
      simp [Db.accepted, hInit.fresh.sent]
  · rintro ⟨c, n⟩ a ⟨c', n'⟩ ⟨hOk, hImps, owed, hOwed, hDispatching⟩ hCond hCounted
    obtain ⟨hNext, hPushes⟩ := System.counted_next hCounted
    have hMove := Machine.moves_of_next hNext
    rw [hPushes]
    refine ⟨(hOk.step (discipline_sound settings False) allows_any hMove).1, ?_⟩
    cases hMove with
    | start request =>
        exact ⟨hImps, _, owed_start hOwed request, dispatching_start hDispatching⟩
    | step i e op k hHead =>
        obtain ⟨before, hBefore, hPaced, hSet⟩ := owed_step hOwed hImps hHead
        refine ⟨(implementations_exec settings e op c.state).trans hImps, _, hSet e, ?_⟩
        have hCounts := Machine.onStep_step hHead hCond
        have hPushed : pushes x c (.step i e) = pushed x op := by simp [pushes, hHead]
        rw [hPushed]
        exact dispatching_exec hOk.inv.tree hPaced hCounts hBefore hDispatching
    | crash i => exact ⟨hImps, owed, hOwed.crash, hDispatching⟩

end

/-- Past the pickup deadline. -/
def pickupDue : Env where
  now := 100000000

/-- Past the pickup deadline, while the transport refuses frames. -/
def unreachable : Env := { pickupDue with delivered := false }

/-- Task 0 of the small site, sent and not yet picked up. -/
def sentRow : Task where
  reference := "root"
  caller := some 0
  implementation := some 0
  dispatchedAt := some 0
  dispatchAttempts := 1

/-- The small site with task 0 sent, when its agent was last seen a moment
ago. -/
def demoSent : ServerConfig where
  state := { demo.state with
    agents := [
      { client := 1, user := 1, lease := { demoLease with lastSeen := some 100000000 } },
      { client := 2, user := 2, lease := demoLease }]
    tasks := [sentRow]
    callers := [{ client := 9, user := 7, organization := 0 }]
    sent := [(0, .assign { task := 0, reference := "root" })] }
  threads := [.ret (), .ret ()]

/-- The pickup watchdog has read that task 0 was not picked up. -/
def demoUnpicked : ServerConfig where
  state := demoSent.state
  threads := [.ret (), .ret (), Prog.forEach [0] (actOnUnpicked 40000000)]

theorem demo_sent : (server {}).Run System.anyStep demo demoSent :=
  have hPlay : (server {}).play System.anyStep demo
      (assignRoot ++ [.start (.heartbeat 0 0), .step 1 pickupDue]) = some demoSent := rfl
  System.run_of_play hPlay

theorem demo_unpicked : (server {}).Run System.anyStep demo demoUnpicked := by
  have hRows : (demoSent.state.rowsWhere fun t => t.isUndelivered 40000000 &&
      !demoSent.state.isHigherOrder t && (demoSent.state.isWebhook t.agent ||
        demoSent.state.agentIsLive {} 100000000 t.agent)) = [(0, sentRow)] := rfl
  have hOrdered : ordered 1 (·.createdAt) [(0, sentRow)] = [0] := by simp [ordered]
  refine ((demo_sent.step (a := .start (.unpickedTasks 1)) trivial rfl).step
    (a := .step 2 pickupDue) trivial rfl).step (a := .step 2 pickupDue) trivial ?_
  change some (Config.mk demoSent.state [.ret (), .ret (), Prog.forEach
    (ordered 1 (·.createdAt) (demoSent.state.rowsWhere fun t => t.isUndelivered 40000000 &&
      !demoSent.state.isHigherOrder t && (demoSent.state.isWebhook t.agent ||
        demoSent.state.agentIsLive {} 100000000 t.agent))) (actOnUnpicked 40000000)]) = some _
  rw [hRows, hOrdered]
  rfl

end Rekuest
