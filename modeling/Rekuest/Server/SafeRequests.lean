import Rekuest.Server.SafeReports

/-!
# The server follows the discipline

Controls, assigns, sweeps and what starts them are safe; with the step lemma of
the invariant this makes the discipline sound, so along every run every
transaction runs under its guard.
-/

namespace Rekuest

open Concurrent

section

variable {settings : Settings} {strict : Prop} {s : Db}

/-! ## Controls -/

theorem Db.mem_targetsWhere {p : Nat → Task → Bool} {target : Nat × Nat} :
    target ∈ s.targetsWhere p ↔
      ∃ row, s.task? target.1 = some row ∧ p target.1 row = true ∧ row.agent = target.2 := by
  obtain ⟨x, agent⟩ := target
  simp only [Db.targetsWhere, List.mem_filterMap, List.mem_range, Option.map_eq_some_iff,
    Option.filter_eq_some_iff, Prod.mk.injEq]
  constructor
  · rintro ⟨y, -, row, ⟨hRow, hP⟩, rfl, hAgent⟩
    exact ⟨row, hRow, hP, hAgent⟩
  · rintro ⟨row, hRow, hP, hAgent⟩
    exact ⟨x, Db.task?_lt hRow, row, ⟨hRow, hP⟩, rfl, hAgent⟩

/-- **Rule** for choosing the targets: only a cancel or an interrupt has more
than the task itself. -/
theorem safely_controlTargets {task : Nat} {control : Control}
    {f : List (Nat × Nat) → Program Unit}
    (h : ∀ s', s.Later s' → s'.Inv strict → ∀ targets,
      (control.waitingOutcome = none → ∀ target ∈ targets, target.1 = task) →
        Safely settings strict (f targets) s') :
    Safely settings strict ((controlTargets task control).bind f) s := by
  rw [controlTargets, Prog.bind_eq, Prog.bind_assoc]
  refine safely_select fun s₁ h₁ hInv₁ => ?_
  have hSelf : ∀ target ∈ s₁.targetsWhere fun id _ => id == task, target.1 = task := by
    intro target hTarget
    obtain ⟨_, -, hEq, -⟩ := Db.mem_targetsWhere.mp hTarget
    exact beq_iff_eq.mp hEq
  cases control with
  | cancel =>
      refine safely_select fun s₂ h₂ hInv₂ => ?_
      exact h s₂ (h₁.trans h₂) hInv₂ _ (fun hNone => by cases hNone)
  | interrupt =>
      refine safely_select fun s₂ h₂ hInv₂ => safely_select fun s₃ h₃ hInv₃ => ?_
      exact h s₃ (h₁.trans (h₂.trans h₃)) hInv₃ _ (fun hNone => by cases hNone)
  | pause =>
      refine h s₁ h₁ hInv₁ _ fun _ target hTarget => hSelf target ?_
      simpa using hTarget
  | resume step =>
      refine h s₁ h₁ hInv₁ _ fun _ target hTarget => hSelf target ?_
      simpa using hTarget

theorem safely_controlOne {control : Control} {caller : Option Nat} {interruptAt : Option Int}
    {target : Nat × Nat} {f : Unit → Program Unit}
    (hFreed : strict → control.waitingOutcome = none → s.Freed target.1)
    (h : ∀ s', s.Later s' → s'.Inv strict → Safely settings strict (f ()) s') :
    Safely settings strict ((controlOne control caller interruptAt target).bind f) s := by
  simp only [controlOne, run, Prog.bind_eq, Prog.perform_bind, Prog.act_bind]
  refine safely_act fun s' hLater _ =>
    ⟨fun hStrict hNone => hLater.freed (hFreed hStrict hNone), fun e _ hLater' hInv' => ?_⟩
  simp only [Prog.pure_eq, Prog.ite_bind, Prog.act_bind, Prog.ret_bind]
  split
  · refine safely_free (fun _ => ?_) fun t hT hTInv _ => h t (hLater'.trans hT) hTInv
    cases control <;> trivial
  · exact h _ hLater' hInv'

theorem controlRow_some {task : Nat} {row : ControlRow} (h : controlRow s task = some row) :
    ∃ t, s.task? task = some t ∧ row.isDone = t.isDone ∧ row.kind = t.latestEventKind := by
  simp only [controlRow, Option.bind_eq_bind, Option.bind_eq_some_iff] at h
  obtain ⟨t, hTask, _, -, h⟩ := h
  cases h
  exact ⟨t, hTask, rfl, rfl⟩

/-- A pause or a resume that is accepted is not of a child that waits. -/
theorem Db.HoldsStand.control_freed {task : Nat} {row : ControlRow} {control : Control}
    (hHolds : s.HoldsStand) (hRow : controlRow s task = some row)
    (hAccepted : row.refuses control = false) (hNone : control.waitingOutcome = none) :
    s.Freed task := by
  obtain ⟨t, hTask, hDone, hKind⟩ := controlRow_some hRow
  simp only [ControlRow.refuses, hDone, hKind, hNone, Option.isNone_none, Bool.and_true,
    Bool.or_eq_false_iff, beq_eq_false_iff_ne] at hAccepted
  refine ⟨t, hTask, .inl ?_⟩
  rw [← Bool.not_eq_true]
  intro hUndecided
  exact hAccepted.2 (hHolds.waiting hTask hUndecided hAccepted.1).kind

theorem safely_requestControl {task : Nat} {control : Control} {caller : Option Nat}
    {f : Bool → Program Unit}
    (h : ∀ s', s.Later s' → s'.Inv strict → ∀ accepted, Safely settings strict (f accepted) s') :
    Safely settings strict ((requestControl settings task control caller).bind f) s := by
  rw [requestControl, Prog.bind_eq, Prog.bind_assoc]
  refine safely_select fun s₁ h₁ hInv₁ => ?_
  cases hRow : controlRow s₁ task with
  | none => exact h s₁ h₁ hInv₁ false
  | some row =>
      have hGo {t : Db} (hT : s₁.Later t) (hTInv : t.Inv strict) (foreign : Bool) :
          Safely settings strict (Prog.bind (if foreign || row.refuses control then pure false
            else do
              let targets ← controlTargets task control
              let interruptAt : Option Int ← run (.query (Option Int) fun e _ =>
                controlDeadline settings e.now control)
              Prog.forEach targets (controlOne control caller interruptAt)
              return true) f) t := by
        split
        case isTrue => exact h t (h₁.trans hT) hTInv false
        case isFalse hAccepted =>
          rw [Bool.not_eq_true, Bool.or_eq_false_iff] at hAccepted
          rw [Prog.bind_eq, Prog.bind_assoc]
          refine safely_controlTargets fun u hU _ targets hTargets => ?_
          refine safely_query fun v hV hVInv e => ?_
          simp only [Prog.bind_eq, Prog.ret_bind, Prog.bind_assoc]
          refine safely_forEach (fun target hMem w hW _ g hg => ?_) hVInv fun w hW hWInv =>
            h w (h₁.trans (hT.trans (hU.trans (hV.trans hW)))) hWInv true
          refine safely_controlOne (fun hStrict hNone => ?_) hg
          rw [hTargets hNone target hMem]
          exact (hT.trans (hU.trans (hV.trans hW))).freed
            ((hInv₁.holds hStrict).control_freed hRow hAccepted.2 hNone)
      cases caller with
      | none => exact hGo (.refl s₁) hInv₁ false
      | some caller => exact safely_select fun t hT hTInv => hGo hT hTInv _

/-! ## Sweeps over in-flight work -/

theorem safely_resumeWorkflow {task : Nat} {f : Bool → Program Unit}
    (hFreed : strict → s.Freed task)
    (h : ∀ s', s.Later s' → s'.Inv strict → ∀ resumed, Safely settings strict (f resumed) s') :
    Safely settings strict ((resumeWorkflow task).bind f) s := by
  rw [resumeWorkflow, Prog.bind_eq, Prog.bind_assoc]
  refine safely_select fun s₁ h₁ hInv₁ => ?_
  have hFreed₁ (hStrict : strict) := h₁.freed (hFreed hStrict)
  split
  case h_1 => exact h s₁ h₁ hInv₁ false
  case h_2 pinned current resumes agent _ =>
    split
    case isTrue =>
      rw [Prog.bind_eq, Prog.bind_assoc]
      exact safely_finalizeLost hFreed₁ fun t hT hTInv _ => h t (h₁.trans hT) hTInv true
    case isFalse =>
      split
      case isTrue =>
        rw [Prog.bind_eq, Prog.bind_assoc]
        exact safely_finalizeLost hFreed₁ fun t hT hTInv _ => h t (h₁.trans hT) hTInv true
      case isFalse =>
        refine safely_query fun s₂ h₂ hInv₂ e => ?_
        simp only [Prog.ret_bind]
        split
        case h_1 => exact h s₂ (h₁.trans h₂) hInv₂ false
        case h_2 assign hAssign =>
          simp only [Prog.bind_eq, Prog.bind_assoc, Prog.pure_eq, Prog.ite_bind, Prog.ret_bind]
          refine safely_open rfl rfl ⟨_, rfl⟩ (fun hStrict => h₂.freed (hFreed₁ hStrict))
            (fun hKind => by cases hKind) (fun hKind => by cases hKind)
            (fun t hT hTInv => h t (h₁.trans (h₂.trans hT)) hTInv true) fun t hT hTInv hWon => ?_
          refine safely_dispatch (fun hStrict => ?_) fun u hU hUInv =>
            h u (h₁.trans (h₂.trans (hT.trans hU))) hUInv true
          rw [buildRedispatchAssign_task hAssign]
          exact hWon.answered hStrict

/-- A row that is not a held child's was answered. -/
theorem Db.HoldsStand.freed {task : Nat} {row : Task} (hHolds : s.HoldsStand)
    (hRow : s.task? task = some row)
    (hNot : ¬ (row.latestEventKind = .held ∧ row.pickedUpAt = none)) : s.Freed task := by
  refine ⟨row, hRow, ?_⟩
  cases hDone : row.isDone with
  | true => exact .inr rfl
  | false =>
      refine .inl ?_
      rw [← Bool.not_eq_true]
      intro hUndecided
      have hUntouched := hHolds.waiting hRow hUndecided hDone
      exact hNot ⟨hUntouched.kind, hUntouched.pickedUpAt⟩

theorem safely_failInflight {task : Nat} {f : Unit → Program Unit}
    (h : ∀ s', s.Later s' → s'.Inv strict → Safely settings strict (f ()) s') :
    Safely settings strict ((failInflight task).bind f) s := by
  rw [failInflight, Prog.bind_eq, Prog.bind_assoc]
  refine safely_select fun s₁ h₁ hInv₁ => ?_
  split
  case h_1 => exact h s₁ h₁ hInv₁
  case h_2 kind pickedUpAt workflow hRead =>
    obtain ⟨row, hRow, hRead⟩ := Option.map_eq_some_iff.mp hRead
    cases hRead
    split
    case isTrue => exact h s₁ h₁ hInv₁
    case isFalse hGiven =>
      have hFreed (hStrict : strict) : s₁.Freed task := by
        refine (hInv₁.holds hStrict).freed hRow fun hHeld => hGiven ?_
        simp [hHeld.1, hHeld.2]
      have hEnd {t : Db} (hT : s₁.Later t) (hTInv : t.Inv strict) (resumed : Bool) :
          Safely settings strict (Prog.bind (if !resumed then
            (finalizeLost task "Its agent died while it ran; how it ended is unknown." true
              (fun _ => true) false).bind fun _ => .ret () else .ret ()) f) t := by
        split
        · rw [Prog.bind_assoc]
          exact safely_finalizeLost (fun hStrict => hT.freed (hFreed hStrict))
            fun u hU hUInv _ => h u (h₁.trans (hT.trans hU)) hUInv
        · exact h t (h₁.trans hT) hTInv
      split
      · rw [Prog.bind_eq, Prog.bind_assoc]
        exact safely_resumeWorkflow hFreed fun t hT hTInv resumed => hEnd hT hTInv resumed
      · exact hEnd (.refl s₁) hInv₁ false

theorem safely_failAndCascadeInflight {tasks : List Nat} {f : Unit → Program Unit}
    (hInv : s.Inv strict)
    (h : ∀ s', s.Later s' → s'.Inv strict → Safely settings strict (f ()) s') :
    Safely settings strict ((failAndCascadeInflight tasks).bind f) s :=
  safely_forEach (fun _ _ _ _ _ _ hg => safely_failInflight hg) hInv h

theorem safely_reconcileOrphanedExecutorWork {agent : Nat} {f : Unit → Program Unit}
    (h : ∀ s', s.Later s' → s'.Inv strict → Safely settings strict (f ()) s') :
    Safely settings strict ((reconcileOrphanedExecutorWork settings agent).bind f) s := by
  refine safely_query fun s₁ h₁ hInv₁ e => ?_
  simp only [Prog.bind_eq, Prog.ret_bind, Prog.pure_eq, Prog.ite_bind, Prog.bind_assoc]
  split
  · refine safely_select fun s₂ h₂ hInv₂ => ?_
    exact safely_failAndCascadeInflight hInv₂ fun t hT => h t (h₁.trans (h₂.trans hT))
  · exact h s₁ h₁ hInv₁

theorem safely_reconcileDisconnectedAgents :
    Safely settings strict (reconcileDisconnectedAgents settings) s := by
  refine safely_query fun s₁ _ hInv₁ _ => safely_tail ?_
  exact safely_forEach (fun _ _ _ _ _ _ hg => safely_reconcileOrphanedExecutorWork hg) hInv₁
    fun _ _ _ => safely_ret

theorem safely_reconcileStaleAgents :
    Safely settings strict (reconcileStaleAgents settings) s := by
  refine safely_query fun s₁ _ hInv₁ _ => safely_tail ?_
  refine safely_forEach (fun agent _ t _ _ g hg => ?_) hInv₁ fun _ _ _ => safely_ret
  simp only [healAgent, run, Prog.bind_eq, Prog.perform_bind, Prog.act_bind, Prog.pure_eq,
    Prog.ite_bind, Prog.ret_bind]
  refine safely_free (fun _ => trivial) fun u hU hUInv revoked => ?_
  split
  · exact safely_reconcileOrphanedExecutorWork fun v hV => hg v (hU.trans hV)
  · exact hg u hU hUInv

/-! ## The sweeps over deadlines -/

/-- A control's end of a task that was instructed: an undecided child is
settled by the control itself, never instructed. -/
theorem Db.HoldsStand.instructed_freed {task : Nat} {row : Task} (hHolds : s.HoldsStand)
    (hRow : s.task? task = some row) (hInstruct : row.latestInstructKind ≠ .assign) :
    s.Freed task := by
  refine ⟨row, hRow, ?_⟩
  cases hDone : row.isDone with
  | true => exact .inr rfl
  | false =>
      refine .inl ?_
      rw [← Bool.not_eq_true]
      exact fun hUndecided => hInstruct (hHolds.waiting hRow hUndecided hDone).instruct

theorem Db.mem_rowsWhere {p : Task → Bool} {x : Nat} {row : Task} :
    (x, row) ∈ s.rowsWhere p ↔ s.task? x = some row ∧ p row = true := by
  simp only [Db.rowsWhere, List.mem_filterMap, List.mem_range, Option.map_eq_some_iff,
    Option.filter_eq_some_iff, Prod.mk.injEq]
  constructor
  · rintro ⟨y, -, t, ⟨hRow, hP⟩, rfl, rfl⟩
    exact ⟨hRow, hP⟩
  · rintro ⟨hRow, hP⟩
    exact ⟨x, Db.task?_lt hRow, row, ⟨hRow, hP⟩, rfl, rfl⟩

theorem safely_escalateDue {due : Nat × Int × TaskInstructKind} {f : Unit → Program Unit}
    (hFreed : strict → due.2.2 = .interrupt → s.Freed due.1)
    (h : ∀ s', s.Later s' → s'.Inv strict → Safely settings strict (f ()) s') :
    Safely settings strict ((escalateDue settings due).bind f) s := by
  obtain ⟨task, deadline, instruct⟩ := due
  simp only [escalateDue, run, Prog.bind_eq, Prog.pure_eq, Prog.ite_bind, Prog.bind_assoc,
    Prog.perform_bind, Prog.act_bind, Prog.ret_bind]
  split
  case isTrue hInterrupt =>
    exact safely_finalizeTerminal rfl (fun hStrict => hFreed hStrict hInterrupt)
      fun t hT hTInv _ => h t hT hTInv
  case isFalse =>
    refine safely_free (fun _ => trivial) fun s₁ h₁ hInv₁ cleared => ?_
    split
    · rw [escalateToInterrupt, Prog.bind_eq, Prog.bind_assoc]
      refine safely_select fun s₂ h₂ hInv₂ => ?_
      simp only [Prog.bind_eq, Prog.pure_eq, Prog.ite_bind, Prog.bind_assoc, Prog.ret_bind]
      split
      · exact safely_requestControl fun t hT hTInv _ => h t (h₁.trans (h₂.trans hT)) hTInv
      · exact h s₂ (h₁.trans h₂) hInv₂
    · exact h s₁ h₁ hInv₁

theorem safely_escalateDueControls {limit : Nat} :
    Safely settings strict (escalateDueControls settings limit) s := by
  refine safely_query fun s₁ _ hInv₁ e => safely_tail ?_
  refine safely_forEach (fun due hDue t hT _ g hg => ?_) hInv₁ fun _ _ _ => safely_ret
  refine safely_escalateDue (fun hStrict hInterrupt => ?_) hg
  simp only [List.mem_filterMap, Option.bind_eq_bind, Option.bind_eq_some_iff] at hDue
  obtain ⟨task, -, row, hRow, deadline, -, hEq⟩ := hDue
  cases hEq
  refine hT.freed ((hInv₁.holds hStrict).instructed_freed hRow ?_)
  have hKind : row.latestInstructKind = .interrupt := hInterrupt
  simp [hKind]

/-- What the pickup watchdog answers, and of which row. -/
theorem decideUnpicked_result (e : Env) (task : Nat) (cutoff : Int) :
    (decideUnpicked e s task cutoff).1 = .skip ∨
    (∃ row, s.task? task = some row ∧ row.isUnpicked cutoff = true ∧
      ((∃ kind, (decideUnpicked e s task cutoff).1 = .finalized kind ∧
        isTerminal kind = true ∧ (decideUnpicked e s task cutoff).2.EndedAs task kind) ∨
      ∃ assign, (decideUnpicked e s task cutoff).1 = .redeliver assign row.agent ∧
        assign.task = task)) := by
  cases hRow : s.task? task with
  | none => exact .inl (by simp only [decideUnpicked, hRow])
  | some row =>
      by_cases hMine : (e.locked.contains task || !row.isUnpicked cutoff) = true
      case pos =>
        left
        simp only [decideUnpicked, hRow, hMine, if_true]
      case neg =>
        refine .inr ⟨row, rfl, by simp at hMine; exact hMine.2, ?_⟩
        simp only [decideUnpicked, hRow, hMine]
        cases hOutcome : unpickedOutcome e s task row with
        | inl outcome =>
            obtain ⟨kind, message⟩ := outcome
            refine .inl ⟨kind, rfl, ?_, ?_⟩
            · rcases unpickedOutcome_kind hOutcome with rfl | rfl | rfl <;> rfl
            · exact ⟨_, (finalizeLocked_becomes hRow e.now).2 ▸
                List.mem_append_right _ (List.mem_singleton_self _), rfl⟩
        | inr assign =>
            refine .inr ⟨assign, rfl, ?_⟩
            simp only [unpickedOutcome] at hOutcome
            split at hOutcome
            · cases hOutcome
            · cases hOutcome
            · split at hOutcome
              · cases hOutcome
              · split at hOutcome
                · cases hOutcome
                · cases hOutcome
                  exact buildRedispatchAssign_task ‹_›

/-- An open row that is not held was answered. -/
theorem Db.HoldsStand.answered {task : Nat} {row : Task} (hHolds : s.HoldsStand)
    (hRow : s.task? task = some row) (hOpen : row.isDone = false)
    (hNot : ¬ row.Untouched) : s.Answered task := by
  refine ⟨row, hRow, ?_⟩
  rw [← Bool.not_eq_true]
  exact fun hUndecided => hNot (hHolds.waiting hRow hUndecided hOpen)

theorem safely_actOnUnpicked {cutoff : Int} {task : Nat} {f : Unit → Program Unit}
    (h : ∀ s', s.Later s' → s'.Inv strict → Safely settings strict (f ()) s') :
    Safely settings strict ((actOnUnpicked cutoff task).bind f) s := by
  refine safely_act fun s' hLater hInv => ⟨?_, fun e _ hLater' hInv' => ?_⟩
  · intro kind w hKind hLower
    exact owes_unfold hKind hLower (show (none : Option Bool) ≠ some false by simp)
  · change s.Later (decideUnpicked e s' task cutoff).2 at hLater'
    change (decideUnpicked e s' task cutoff).2.Inv strict at hInv'
    have hMoves : s'.Later (decideUnpicked e s' task cutoff).2 :=
      Db.later_exec settings e (.decideUnpicked task cutoff) hInv.tree fun _ _ _ h => by cases h
    rcases decideUnpicked_result e task cutoff with hSkip | ⟨row, hRow, hUnpicked, hResult⟩
    · have hOutcome : (Txn.exec settings e (.decideUnpicked task cutoff) s').1 = .skip := hSkip
      rw [hOutcome]
      exact h _ hLater' hInv'
    · have hAnswered (hStrict : strict) : (decideUnpicked e s' task cutoff).2.Answered task := by
        refine hMoves.answered ((hInv.holds hStrict).answered hRow ?_ fun hUntouched => ?_)
        · simp only [Task.isUnpicked, Bool.and_eq_true, Bool.not_eq_true'] at hUnpicked
          exact hUnpicked.1.1.1.1
        · rw [hUntouched.not_unpicked] at hUnpicked
          cases hUnpicked
      rcases hResult with ⟨kind, hEq, hKind, hEnded⟩ | ⟨assign, hEq, hTask⟩
      · have hOutcome : (Txn.exec settings e (.decideUnpicked task cutoff) s').1 =
            .finalized kind := hEq
        rw [hOutcome]
        have hUnflagged : (none : Option Bool) = some true →
            (decideUnpicked e s' task cutoff).2.Flagged task := by
          intro hFlag
          cases hFlag
        exact safely_unfold (.inl hKind) (fun hStrict => (hAnswered hStrict).unfoldable)
          (fun _ => hEnded) hUnflagged hInv' fun t hT => h t (hLater'.trans hT)
      · have hOutcome : (Txn.exec settings e (.decideUnpicked task cutoff) s').1 =
            .redeliver assign row.agent := hEq
        rw [hOutcome]
        exact safely_dispatch (fun hStrict => hTask ▸ hAnswered hStrict)
          fun t hT => h t (hLater'.trans hT)

theorem safely_reconcileUnpickedTasks {limit : Nat} :
    Safely settings strict (reconcileUnpickedTasks settings limit) s := by
  unfold reconcileUnpickedTasks
  split
  · refine safely_utcNow fun _ _ _ now => safely_select fun t _ hTInv => safely_tail ?_
    exact safely_forEach (fun _ _ _ _ _ _ hg => safely_actOnUnpicked hg) hTInv
      fun _ _ _ => safely_ret
  · exact safely_ret

/-- The Assign a due task is handed over with. -/
theorem claimDue_dispatch {e : Env} {task agent : Nat} {assign : Assign}
    (h : (claimDue e s task).1 = .dispatch assign agent) :
    assign.task = task ∧ ∃ row, s.task? task = some row ∧ row.isDone = false ∧
      row.isWaiting = true := by
  simp only [claimDue] at h
  split at h
  case h_1 => cases h
  case h_2 row hRow =>
    split at h
    case isTrue => cases h
    case isFalse hDue =>
      simp only [Bool.or_eq_true, not_or, Bool.not_eq_true] at hDue
      cases hAssign : buildRedispatchAssign e s task with
      | none => simp [hAssign] at h
      | some built =>
          simp only [hAssign, Due.dispatch.injEq] at h
          exact ⟨h.1 ▸ buildRedispatchAssign_task hAssign, row, hRow, hDue.1.1.2,
            by simpa using hDue.1.2⟩

theorem safely_dispatchDue {task : Nat} {f : Unit → Program Unit}
    (h : ∀ s', s.Later s' → s'.Inv strict → Safely settings strict (f ()) s') :
    Safely settings strict ((dispatchDue task).bind f) s := by
  refine safely_act fun s' hLater hInv => ⟨trivial, fun e _ hLater' hInv' => ?_⟩
  change s.Later (claimDue e s' task).2 at hLater'
  change (claimDue e s' task).2.Inv strict at hInv'
  have hMoves : s'.Later (claimDue e s' task).2 :=
    Db.later_exec settings e (.claimDue task) hInv.tree fun _ _ _ h => by cases h
  cases hResult : (Txn.exec settings e (.claimDue task) s').1 with
  | skip => exact h _ hLater' hInv'
  | finalized => exact h _ hLater' hInv'
  | dispatch assign agent =>
      obtain ⟨hTask, row, hRow, hOpen, hWaiting⟩ := claimDue_dispatch hResult
      refine safely_dispatch (fun hStrict => ?_) fun t hT => h t (hLater'.trans hT)
      rw [hTask]
      refine hMoves.answered ((hInv.holds hStrict).answered hRow hOpen fun hUntouched => ?_)
      rw [hUntouched.not_waiting] at hWaiting
      cases hWaiting

theorem safely_dispatchDueTasks {limit : Nat} :
    Safely settings strict (dispatchDueTasks limit) s := by
  refine safely_query fun s₁ _ hInv₁ _ => safely_tail ?_
  exact safely_forEach (fun _ _ _ _ _ _ hg => safely_dispatchDue hg) hInv₁
    fun _ _ _ => safely_ret

theorem safely_expireDisconnectedTasks {limit : Nat} :
    Safely settings strict (expireDisconnectedTasks settings limit) s := by
  unfold expireDisconnectedTasks
  split
  · refine safely_utcNow fun _ _ _ now => safely_select fun t _ hTInv => safely_tail ?_
    refine safely_forEach (fun task hTask u hU _ g hg => ?_) hTInv fun _ _ _ => safely_ret
    obtain ⟨⟨y, row⟩, hMem, rfl⟩ := List.mem_map.mp (List.mem_of_mem_take hTask)
    obtain ⟨hRow, hP⟩ := Db.mem_rowsWhere.mp hMem
    have hQueued : row.latestEventKind = .queued := by
      simp only [Task.isUndelivered, Bool.and_eq_true, beq_iff_eq] at hP
      exact hP.1.1.1.1.1.2
    rw [expireTask, Prog.bind_eq, Prog.bind_assoc]
    refine safely_finalizeLost (fun hStrict => hU.freed ?_) fun v hV hVInv _ => hg v hV hVInv
    exact (hTInv.holds hStrict).freed hRow fun hHeld => by rw [hQueued] at hHeld; cases hHeld.1
  · exact safely_ret

end

end Rekuest
