import Rekuest.Server.Finality
import Rekuest.Server.Pace

/-!
# Control deadlines

The escalation of a cancel clears the deadline in one transaction and arms that
of the interrupt in another.  In between only its thread knows that the task is
still to be interrupted: where no such thread stops, and nobody clears the
deadline of a cancel it did not read as one, no deadline is lost.
-/

namespace Rekuest

open Concurrent

/-- Being cancelled or interrupted without a deadline. -/
def Task.unarmed (t : Task) : Bool :=
  !t.isDone && (t.latestInstructKind == .cancel || t.latestInstructKind == .interrupt) &&
    t.interruptAt.isNone

/-- The transaction that interrupts the task, with a deadline. -/
def IsArm (x : Nat) (op : Txn) : Prop :=
  ∃ deadline, op = .controlTarget x .interrupt none (some deadline)

/-- The task is open, and its agent has a row. -/
def Db.Open (db : Db) (x : Nat) : Prop :=
  ∃ row, db.task? x = some row ∧ row.isDone = false ∧ row.agent < db.agents.length

/-- Unless the task ends, the thread interrupts it. -/
def Rearms (settings : Settings) (x : Nat) : Program Unit → Db → Prop :=
  Owes (machine settings) (Db.Open · x) Db.Later (IsArm x)

/-- The thread clears the deadline of a task that it read as cancelled. -/
def EscalatesCancel (settings : Settings) (x : Nat) (deadline : Int) (p : Program Unit) :
    Prop :=
  ∃ f : Unit → Program Unit, p = (escalateDue settings (x, deadline, .cancel)).bind f

/-- The steps that lose no deadline: no thread stops that alone is about to
interrupt a task, and a deadline that still stands on a cancel or an interrupt
is only cleared by a thread that read the task as cancelled. -/
def KeepsDeadlines (settings : Settings) (c : ServerConfig) : Choice Env Request → Prop
  | .start _ => True
  | .step i _ => ∀ x deadline (k : Bool → Program Unit),
      c.threads[i]? = some (.act (.clearDeadline x deadline) k) →
      (c.state.task? x).any (fun t => !t.isDone && t.interruptAt == some deadline &&
        (t.latestInstructKind == .cancel || t.latestInstructKind == .interrupt)) = true →
      EscalatesCancel settings x deadline (.act (.clearDeadline x deadline) k)
  | .crash i => ∀ x, (c.state.task? x).any (·.unarmed) = true →
      (∃ p, c.threads[i]? = some p ∧ Rearms settings x p c.state) →
      ∃ j p, j ≠ i ∧ c.threads[j]? = some p ∧ Rearms settings x p c.state

/-! ## The escalation arms the interrupt -/

section

variable {settings : Settings} {db : Db} {x : Nat} {row : Task}

theorem Db.targetsWhere_self (hRow : db.task? x = some row) :
    ∃ agent rest, db.targetsWhere (fun id _ => id == x) = (x, agent) :: rest := by
  have hMem : (x, row.agent) ∈ db.targetsWhere fun id _ => id == x :=
    Db.mem_targetsWhere.mpr ⟨row, hRow, beq_self_eq_true x, rfl⟩
  cases hTargets : db.targetsWhere fun id _ => id == x with
  | nil =>
      rw [hTargets] at hMem
      cases hMem
  | cons target rest =>
      have hHead : target ∈ db.targetsWhere fun id _ => id == x := by
        rw [hTargets]
        exact List.mem_cons_self
      obtain ⟨_, -, hEq, -⟩ := Db.mem_targetsWhere.mp hHead
      rw [beq_iff_eq] at hEq
      exact ⟨target.2, rest, by rw [← hEq]⟩

theorem Db.Open.controlRow (h : db.Open x) :
    ∃ crow, controlRow db x = some crow ∧ crow.refuses .interrupt = false := by
  obtain ⟨row, hRow, hOpen, hAgent⟩ := h
  refine ⟨{ isDone := row.isDone
            organization := db.agents[row.agent].organization
            kind := row.latestEventKind }, ?_, ?_⟩
  · simp [Rekuest.controlRow, hRow, List.getElem?_eq_getElem hAgent]
  · simp [ControlRow.refuses, hOpen, Control.waitingOutcome]

theorem rearms_query {α : Type} {read : Env → Db → α} {k : α → Program Unit} {s : Db}
    (h : ∀ s', s'.Open x → ∀ e, Rearms settings x (k (read e s')) s') :
    Rearms settings x (.act (.query α read) k) s :=
  .after _ _ s fun s' _ hOpen e => h s' hOpen e

/-- An accepted interrupt without a caller controls the task itself first. -/
theorem rearms_interrupt (hDeadline : 0 < settings.controlDeadline)
    (f : Bool → Program Unit) (s : Db) :
    Rearms settings x ((interrupt settings x none).bind f) s := by
  rw [interrupt, requestControl, Prog.bind_eq, Prog.bind_assoc]
  refine rearms_query fun s₁ hOpen₁ e₁ => ?_
  obtain ⟨crow, hRead, hAccepted⟩ := hOpen₁.controlRow
  simp only [hRead, Prog.pure_eq, Prog.bind_eq, Prog.ret_bind, hAccepted, Bool.or_false,
    Bool.false_eq_true, if_false, Prog.bind_assoc]
  rw [controlTargets, Prog.bind_eq, Prog.bind_assoc]
  refine rearms_query fun s₂ hOpen₂ e₂ => ?_
  obtain ⟨row, hRow, -⟩ := hOpen₂
  obtain ⟨agent, rest, hSelf⟩ := Db.targetsWhere_self hRow
  refine rearms_query fun s₃ _ e₃ => rearms_query fun s₄ _ e₄ => ?_
  simp only [hSelf, List.cons_append]
  refine rearms_query fun s₅ _ e₅ => ?_
  have hArm : controlDeadline settings e₅.now .interrupt =
      some (e₅.now + settings.controlDeadline) := by
    simp [controlDeadline, hDeadline, Control.waitingOutcome]
  exact .now _ _ s₅ ⟨_, by rw [hArm]⟩

theorem rearms_escalate (hDeadline : 0 < settings.controlDeadline) (f : Unit → Program Unit)
    (s : Db) : Rearms settings x ((escalateToInterrupt settings x).bind f) s := by
  rw [escalateToInterrupt, Prog.bind_eq, Prog.bind_assoc]
  refine rearms_query fun s₁ hOpen e => ?_
  obtain ⟨row, hRow, hRowOpen, -⟩ := hOpen
  have hIsOpen : (s₁.task? x).any (!·.isDone) = true := by simp [hRow, hRowOpen]
  simp only [hIsOpen, if_true, Prog.bind_eq, Prog.bind_assoc, Prog.pure_eq, Prog.ret_bind]
  exact rearms_interrupt hDeadline _ s₁

/-- A thread that read the task as cancelled goes on to interrupt it. -/
theorem EscalatesCancel.rearms {deadline : Int} {k : Bool → Program Unit}
    (hDeadline : 0 < settings.controlDeadline)
    (h : EscalatesCancel settings x deadline (.act (.clearDeadline x deadline) k)) (s : Db) :
    Rearms settings x (k true) s := by
  obtain ⟨f, hEq⟩ := h
  simp only [escalateDue, run, Prog.bind_eq, Prog.pure_eq, Prog.ite_bind,
    Prog.perform_bind, Prog.act_bind, Prog.ret_bind, reduceCtorEq, if_false,
    Prog.act.injEq, heq_eq_eq, true_and] at hEq
  rw [hEq]
  exact rearms_escalate hDeadline f s

theorem Rearms.step {op : Txn} {k : op.Res → Program Unit} (hOpen : db.Open x)
    (h : Rearms settings x (.act op k) db) (e : Env) :
    IsArm x op ∨ Rearms settings x (k (Txn.exec settings e op db).1)
      (Txn.exec settings e op db).2 := by
  unfold Rearms at h
  exact Owes.step (Db.Later.refl db) hOpen h e

/-! ## One transaction -/

section

variable {e : Env} {op : Txn} {k : op.Res → Program Unit} {row row' : Task}
variable {events : List TaskEvent}

theorem unarmed_iff {t : Task} : t.unarmed = true ↔ t.isDone = false ∧
    (t.latestInstructKind = .cancel ∨ t.latestInstructKind = .interrupt) ∧
    t.interruptAt = none := by
  simp [Task.unarmed, and_assoc]

/-- **Step lemma**: a task that was armed loses its deadline only when it is
cleared. -/
theorem unarmed_step {owed : Option Nat} {imps : List Implementation}
    (hDeadline : 0 < settings.controlDeadline) (hPaced : permits settings imps owed op)
    (hStep : TaskStep e db x row op row' events) (hUnarmed : row'.unarmed = true) :
    row.unarmed = true ∨ ∃ deadline, op = .clearDeadline x deadline ∧ row.isDone = false ∧
      row.interruptAt = some deadline ∧
        (row.latestInstructKind = .cancel ∨ row.latestInstructKind = .interrupt) := by
  rw [unarmed_iff] at hUnarmed
  obtain ⟨hOpen, hInstruct, hNone⟩ := hUnarmed
  cases hStep with
  | same | stamped | movedToNow | recorded | redelivered | dueDispatched | overridden
  | approved | lowerApproved => exact .inl (unarmed_iff.mpr ⟨hOpen, hInstruct, hNone⟩)
  | dated _ dispatchedAt interruptAt hDates =>
      cases op with
      | clearDeadline task deadline =>
          obtain ⟨rfl, -, hSet, -⟩ := hDates
          exact .inr ⟨deadline, rfl, hOpen, hSet, hInstruct⟩
      | setDeadline task at' =>
          obtain ⟨-, -, -, rfl⟩ := hDates
          cases hNone
      | recordUndelivered task =>
          obtain ⟨-, -, -, rfl⟩ := hDates
          exact .inl (unarmed_iff.mpr ⟨hOpen, hInstruct, hNone⟩)
      | forgetDispatches agent =>
          obtain ⟨-, -, -, -, rfl⟩ := hDates
          exact .inl (unarmed_iff.mpr ⟨hOpen, hInstruct, hNone⟩)
      | restartPickupClock agent =>
          obtain ⟨-, -, -, -, rfl⟩ := hDates
          exact .inl (unarmed_iff.mpr ⟨hOpen, hInstruct, hNone⟩)
      | _ => exact hDates.elim
  | claimed c hAdmits =>
      have hKept : (c.move e.now row).latestInstructKind = row.latestInstructKind := by
        unfold Claim.move
        cases c.extra <;> rfl
      rw [Claim.move_isDone] at hOpen
      have hExtra : c.extra ≠ .clearInterruptAt := by
        intro hClear
        rw [hPaced hClear] at hOpen
        cases hOpen
      have hAt : (c.move e.now row).interruptAt = row.interruptAt := by
        unfold Claim.move
        cases hEq : c.extra <;> first | rfl | exact absurd hEq hExtra
      rw [hKept] at hInstruct
      rw [hAt] at hNone
      exact .inl (unarmed_iff.mpr ⟨(Claim.admits_open hAdmits).1, hInstruct, hNone⟩)
  | instructed control caller interruptAt hOpen' =>
      have hSet : interruptAt.isSome =
          ((0 < settings.controlDeadline : Bool) && control.waitingOutcome.isSome) := hPaced
      have hNone : interruptAt = none := hNone
      rw [hNone] at hSet
      simp only [Option.isSome_none, hDeadline, decide_true, Bool.true_and] at hSet
      cases control with
      | cancel | interrupt => cases hSet
      | pause | resume => rcases hInstruct with h | h <;> cases h
  | settledChild | settledLower | denied | lowerDenied | controlSettled | lowerSettled
  | unpicked | dueFinalized => cases hOpen

/-- The interrupt's transaction leaves the task armed, or done. -/
theorem arm_exec (hArm : IsArm x op) (hRow : db.task? x = some row)
    (hRow' : (Txn.exec settings e op db).2.task? x = some row') : row'.unarmed = false := by
  obtain ⟨deadline, rfl⟩ := hArm
  rw [← Bool.not_eq_true, unarmed_iff]
  rintro ⟨hOpen, -, hNone⟩
  simp only [Txn.exec, controlTarget, hRow] at hRow'
  split at hRow'
  case isTrue hDone =>
    rw [hRow, Option.some.injEq] at hRow'
    rw [← hRow', hDone] at hOpen
    cases hOpen
  case isFalse =>
    split at hRow'
    case h_1 outcome _ _ =>
      obtain ⟨event, -, hSettled⟩ := settleTarget_becomes hRow e.now x row
        Control.interrupt.instructKind outcome
      rw [if_pos rfl] at hSettled
      rw [Db.task?_insertInstruct, hSettled.1, Option.some.injEq] at hRow'
      rw [← hRow'] at hOpen
      cases hOpen
    case h_2 =>
      simp only [Db.task?_insertInstruct, Db.task?_insertEvent, Db.task?_modifyTask_self, hRow,
        Option.map_some, Option.some.injEq] at hRow'
      rw [← hRow'] at hNone
      cases hNone

end

end

/-! ## Runs -/

/-- A task without a deadline that is being cancelled or interrupted has a
thread that is about to interrupt it. -/
structure Armed (settings : Settings) (c : ServerConfig) : Prop where
  agents : ∀ x row, c.state.task? x = some row → row.agent < c.state.agents.length
  armed : ∀ x row, c.state.task? x = some row → row.unarmed = true →
    ∃ (j : Nat) (p : Program Unit), c.threads[j]? = some p ∧ Rearms settings x p c.state

/-- Every implementation's agent has a row. -/
def Db.AgentsExist (db : Db) : Prop :=
  ∀ i ∈ db.implementations, i.agent < db.agents.length

section

variable {settings : Settings} {c c' c₀ : ServerConfig} {i : Nat} {e : Env} {op : Txn}
variable {k : op.Res → Program Unit} {imps : List Implementation} {owed : Option Nat}

/-- The agent of every row has a row. -/
theorem agents_step (hTree : c.state.Tree) (hPaced : permits settings imps owed op)
    (hExist : ∀ i ∈ imps, i.agent < c.state.agents.length)
    (hAgents : ∀ x row, c.state.task? x = some row → row.agent < c.state.agents.length) :
    ∀ x row, (Txn.exec settings e op c.state).2.task? x = some row →
      row.agent < (Txn.exec settings e op c.state).2.agents.length := by
  have hNamed {new : NewTask} (h : new.NamesAgent imps) :
      new.agent < c.state.agents.length := by
    obtain ⟨i, hImplementation, hAgent⟩ := h
    rw [hAgent]
    exact hExist i (List.mem_of_getElem? hImplementation)
  intro x row' hRow'
  rw [agents_exec]
  rcases row_exec hTree hRow' with ⟨row, events, hRow, -, hStep⟩ | ⟨-, hNew⟩
  · rw [hStep.identity.agent]
    exact hAgents x row hRow
  · cases hNew with
    | plain new ask => exact hNamed hPaced.2
    | wrapper wrapper lower ask => exact hNamed hPaced.2.2.1
    | lower wrapper lower ask =>
        have hLower : lower.agent < c.state.agents.length := hNamed hPaced.2.2.2
        exact hLower

/-- Along every run the agent of every row has a row. -/
theorem agents_run {C : ServerConfig → Choice Env Request → Prop} (hInit : Initial c₀)
    (hExist : c₀.state.AgentsExist) (hRun : (server settings).Run C c₀ c) :
    c.state.agents.length = c₀.state.agents.length ∧
      ∀ x row, c.state.task? x = some row → row.agent < c.state.agents.length := by
  induction hRun with
  | refl => exact ⟨rfl, fun x row hRow => absurd hRow hInit.fresh.not_row⟩
  | step hRun _ hNext ih =>
      cases Machine.moves_of_next hNext with
      | start => exact ih
      | crash => exact ih
      | step i e op k hHead =>
          obtain ⟨hImps, owed, hOwed⟩ := owed_run hInit hRun
          obtain ⟨_, -, hPaced, -⟩ := owed_step hOwed hImps hHead
          have hTree := (ok_run hInit hRun).inv.tree
          exact ⟨(agents_exec settings e op _).trans ih.1,
            agents_step hTree hPaced (by rw [ih.1]; exact hExist) ih.2⟩

/-- **Step lemma**: one transaction of a thread. -/
theorem armed_step (hDeadline : 0 < settings.controlDeadline)
    (hOk : (discipline settings False).Ok c) (hArmed : Armed settings c)
    (hPaced : permits settings imps owed op)
    (hExist : ∀ i ∈ imps, i.agent < c.state.agents.length)
    (hHead : c.threads[i]? = some (.act op k)) (hCond : KeepsDeadlines settings c (.step i e)) :
    Armed settings {
      state := (Txn.exec settings e op c.state).2
      threads := c.threads.set i (k (Txn.exec settings e op c.state).1) } where
  agents := agents_step hOk.inv.tree hPaced hExist hArmed.agents
  armed := by
    have hTree := hOk.inv.tree
    have hGuard : TxnGuard settings False op k c.state := hOk.guard hHead
    have hLater : c.state.Later (Txn.exec settings e op c.state).2 := hGuard.later hTree
    intro x row' hRow' hUnarmed
    rcases row_exec hTree hRow' with ⟨row, events, hRow, -, hStep⟩ | ⟨-, hNew⟩
    · rcases unarmed_step hDeadline hPaced hStep hUnarmed with
        hOld | ⟨deadline, rfl, hOpen, hSet, hInstruct⟩
      · obtain ⟨j, p, hj, hRearms⟩ := hArmed.armed x row hRow hOld
        by_cases hSelf : j = i
        · subst hSelf
          rw [hHead, Option.some.injEq] at hj
          subst hj
          have hOpen : c.state.Open x :=
            ⟨row, hRow, (unarmed_iff.mp hOld).1, hArmed.agents x row hRow⟩
          rcases hRearms.step hOpen e with hArm | hNext
          · rw [arm_exec hArm hRow hRow'] at hUnarmed
            cases hUnarmed
          · exact ⟨j, _, List.getElem?_set_self (List.getElem?_eq_some_iff.mp hHead).1, hNext⟩
        · refine ⟨j, p, ?_, hRearms.later_state Db.Later.trans hLater⟩
          rw [List.getElem?_set_ne (Ne.symm hSelf)]
          exact hj
      · -- the thread cleared the deadline of a task it read as cancelled
        have hStands : (c.state.task? x).any (fun t => !t.isDone &&
            t.interruptAt == some deadline && (t.latestInstructKind == .cancel ||
              t.latestInstructKind == .interrupt)) = true := by
          simp [hRow, hOpen, hSet, hInstruct]
        have hRearms := (hCond x deadline k hHead hStands).rearms hDeadline
          (Txn.exec settings e (.clearDeadline x deadline) c.state).2
        have hCleared : (Txn.exec settings e (.clearDeadline x deadline) c.state).1 = true := by
          simp [Txn.exec, hRow, hOpen, hSet]
        refine ⟨i, _, List.getElem?_set_self (List.getElem?_eq_some_iff.mp hHead).1, ?_⟩
        rw [hCleared]
        exact hRearms
    · rw [unarmed_iff] at hUnarmed
      cases hNew <;> rcases hUnarmed.2.1 with h | h <;> cases h

/-- **Run lemma** -/
theorem armed_run (hDeadline : 0 < settings.controlDeadline) (hInit : Initial c₀)
    (hExist : c₀.state.AgentsExist)
    (hRun : (server settings).Run (KeepsDeadlines settings) c₀ c) : Armed settings c := by
  have hEnd := (ok_initial settings False hInit).invariant (I := fun c =>
    (c.state.implementations = c₀.state.implementations ∧
      c.state.agents.length = c₀.state.agents.length ∧
      ∃ owed, Owed settings c₀.state.implementations c.threads owed) ∧ Armed settings c)
    (discipline_sound settings False) (fun _ _ _ => allows_any) ?_ ?_ hRun
  · exact hEnd.2
  · refine ⟨⟨rfl, rfl, [], ?_⟩, ?_⟩
    · exact ⟨by simp [hInit.idle], fun i p t hp => by simp [hInit.idle] at hp⟩
    · exact ⟨fun x row hRow => absurd hRow hInit.fresh.not_row,
        fun x row hRow => absurd hRow hInit.fresh.not_row⟩
  · rintro c a c' hOk ⟨⟨hImps, hLength, owed, hOwed⟩, hArmed⟩ hCond hMove
    cases hMove with
    | start request =>
        refine ⟨⟨hImps, hLength, _, owed_start hOwed request⟩, hArmed.agents, ?_⟩
        intro x row hRow hUnarmed
        obtain ⟨j, p, hj, hRearms⟩ := hArmed.armed x row hRow hUnarmed
        refine ⟨j, p, ?_, hRearms⟩
        rw [List.getElem?_append_left (List.getElem?_eq_some_iff.mp hj).1]
        exact hj
    | step i e op k hHead =>
        obtain ⟨before, -, hPaced, hSet⟩ := owed_step hOwed hImps hHead
        refine ⟨⟨(implementations_exec settings e op c.state).trans hImps,
          (agents_exec settings e op c.state).trans hLength, _, hSet e⟩, ?_⟩
        exact armed_step hDeadline hOk hArmed hPaced (by rw [hLength]; exact hExist) hHead hCond
    | crash i hLt =>
        refine ⟨⟨hImps, hLength, owed, hOwed.crash⟩, hArmed.agents, ?_⟩
        intro x row hRow hUnarmed
        obtain ⟨j, p, hj, hRearms⟩ := hArmed.armed x row hRow hUnarmed
        by_cases hSelf : j = i
        · subst hSelf
          have hAny : (c.state.task? x).any (·.unarmed) = true := by simp [hRow, hUnarmed]
          obtain ⟨j', p', hNe, hj', hRearms'⟩ := hCond x hAny ⟨p, hj, hRearms⟩
          refine ⟨j', p', ?_, hRearms'⟩
          rw [List.getElem?_set_ne (Ne.symm hNe)]
          exact hj'
        · refine ⟨j, p, ?_, hRearms⟩
          rw [List.getElem?_set_ne (Ne.symm hSelf)]
          exact hj

/-- **No control deadline is lost**: when nothing is mid-flight, every open task
that is being cancelled or interrupted has a deadline. -/
theorem no_deadline_lost (hDeadline : 0 < settings.controlDeadline) (hInit : Initial c₀)
    (hExist : c₀.state.AgentsExist)
    (hRun : (server settings).Run (KeepsDeadlines settings) c₀ c)
    (hQuiet : c.quiescent = true) :
    ∀ x row, c.state.task? x = some row → row.isDone = false →
      (row.latestInstructKind = .cancel ∨ row.latestInstructKind = .interrupt) →
      row.interruptAt.isSome = true := by
  intro x row hRow hOpen hInstruct
  cases hAt : row.interruptAt with
  | some deadline => rfl
  | none =>
      obtain ⟨j, p, hj, hRearms⟩ := (armed_run hDeadline hInit hExist hRun).armed x row hRow
        (unarmed_iff.mpr ⟨hOpen, hInstruct, hAt⟩)
      have hRet : p.isRet = true := List.all_eq_true.mp hQuiet _ (List.mem_of_getElem? hj)
      cases p with
      | ret => exact absurd hRearms (Owes.not_ret _)
      | act => cases hRet

end

/-! ## Runs on the small site -/

/-- The person cancels task 0. -/
def cancelRoot : List (Choice Env Request) :=
  Request.alone (.control 0 .cancel (some 0)) 1 7

/-- Task 0 of the small site, being cancelled. -/
def cancellingRow : Task where
  reference := "root"
  caller := some 0
  implementation := some 0
  dispatchedAt := some 0
  dispatchAttempts := 1
  interruptAt := some 60000000
  latestInstructKind := .cancel
  revision := 2

/-- The small site with task 0 being cancelled. -/
def demoCancelling : ServerConfig where
  state := { demo.state with
    tasks := [cancellingRow]
    events := [{ task := 0, kind := .cancelling, event := {} }]
    instructs := [{ task := 0, kind := .cancel, caller := some 0 }]
    callers := [{ client := 9, user := 7, organization := 0 }]
    sent := [(0, .assign { task := 0, reference := "root" }), (0, .cancel 0)] }
  threads := [.ret (), .ret ()]

/-- When the deadline has passed. -/
def overdue : Env where
  now := 100000000

/-- The sweep has read the passed deadline and is about to clear it. -/
def demoEscalating : ServerConfig where
  state := demoCancelling.state
  threads := [.ret (), .ret (),
    Prog.forEach [(0, 60000000, .cancel)] (escalateDue {})]

/-- The deadline is cleared, and the task is still to be interrupted. -/
def demoCleared : ServerConfig where
  state := { demoCancelling.state with tasks := [{ cancellingRow with interruptAt := none }] }
  threads := [.ret (), .ret (), (escalateToInterrupt {} 0).bind fun _ => .ret ()]

/-- No thread stops, and none clears a deadline. -/
def clearsNothing (c : ServerConfig) : Choice Env Request → Bool
  | .start _ => true
  | .step i _ => match c.threads[i]? with
      | some (.act (.clearDeadline ..) _) => false
      | _ => true
  | .crash _ => false

theorem clearsNothing_keeps (settings : Settings) (c : ServerConfig) (a : Choice Env Request)
    (h : clearsNothing c a = true) : KeepsDeadlines settings c a := by
  cases a with
  | start => trivial
  | step i e =>
      intro x deadline k hHead
      simp [clearsNothing, hHead] at h
  | crash i => cases h

theorem demo_cancelling : (server {}).Run (fun c a => clearsNothing c a = true) demo
    demoCancelling :=
  have hPlay : (server {}).play (fun c a => clearsNothing c a = true) demo
      (assignRoot ++ cancelRoot) = some demoCancelling := rfl
  System.run_of_play hPlay

theorem demo_escalating : (server {}).Run (fun c a => clearsNothing c a = true) demo
    demoEscalating := by
  have hRows : (demoCancelling.state.rowsWhere fun t =>
      !t.isDone && t.interruptAt.any (· < overdue.now)) = [(0, cancellingRow)] := rfl
  have hDue : ordered 1 (fun t => t.interruptAt.getD 0) [(0, cancellingRow)] = [0] := by
    simp [ordered]
  refine (demo_cancelling.step (a := .start (.dueControls 1)) rfl rfl).step
    (a := .step 2 overdue) rfl ?_
  change some (Config.mk demoCancelling.state [.ret (), .ret (), Prog.forEach
    ((ordered 1 (fun t => t.interruptAt.getD 0) (demoCancelling.state.rowsWhere fun t =>
      !t.isDone && t.interruptAt.any (· < overdue.now))).filterMap fun task => do
        let t ← demoCancelling.state.task? task
        some (task, ← t.interruptAt, t.latestInstructKind)) (escalateDue {})]) = some _
  rw [hRows, hDue]
  rfl

theorem no_deadline_lost_interrupted : ∃ c, (server {}).Run (KeepsDeadlines {}) demo c ∧
    (c.state.task? 0).any (fun t => t.latestInstructKind == .interrupt) = true ∧
    ∀ x row, c.state.task? x = some row → row.isDone = false →
      (row.latestInstructKind = .cancel ∨ row.latestInstructKind = .interrupt) →
      row.interruptAt.isSome = true := by
  have hBefore := demo_escalating.mono (clearsNothing_keeps {})
  have hCond : KeepsDeadlines {} demoEscalating (.step 2 overdue) := by
    intro x deadline k hHead _
    cases hHead
    exact ⟨fun _ => .ret (), rfl⟩
  have hNext : (server {}).next demoEscalating (.step 2 overdue) = some demoCleared := rfl
  have hClear := hBefore.step hCond hNext
  obtain ⟨c, hRun, hCheck⟩ := System.run_of_play_any (server {})
    (fun c a => clearsNothing c a = true) demoCleared (Choice.steps 2 8 overdue)
    (fun c => c.quiescent && (c.state.task? 0).any (·.latestInstructKind == .interrupt))
    (by decide)
  rw [Bool.and_eq_true] at hCheck
  have hAll := hClear.trans (hRun.mono (clearsNothing_keeps {}))
  have hExist : demo.state.AgentsExist := by
    simp [Db.AgentsExist, demo]
  exact ⟨c, hAll, hCheck.2,
    no_deadline_lost (by decide) demo_initial hExist hAll hCheck.1⟩

/-- The sweep stops between clearing the deadline and interrupting the task. -/
theorem deadline_lost : ∃ c, (server {}).Run System.anyStep demo c ∧
    c.quiescent = true ∧ ∃ row, c.state.task? 0 = some row ∧ row.isDone = false ∧
      row.latestInstructKind = .cancel ∧ row.interruptAt = none := by
  obtain ⟨c, hRun, hCheck⟩ := System.run_of_play_any (server {}) System.anyStep demoEscalating
    [.step 2 overdue, .crash 2]
    (fun c => c.quiescent && (c.state.task? 0).any fun t => !t.isDone &&
      t.latestInstructKind == .cancel && t.interruptAt == none) (by decide)
  rw [Bool.and_eq_true] at hCheck
  obtain ⟨row, hRow, hAll⟩ := Option.any_eq_true _ _ |>.mp hCheck.2
  simp only [Bool.and_eq_true, Bool.not_eq_true', beq_iff_eq] at hAll
  exact ⟨c, (demo_escalating.mono fun _ _ _ => trivial).trans hRun, hCheck.1, row, hRow,
    hAll.1.1, hAll.1.2, hAll.2⟩

end Rekuest
