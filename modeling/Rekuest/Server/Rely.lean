import Rekuest.Concurrent.Discipline
import Rekuest.Server.Events
import Rekuest.Server.Reports

/-!
# What a handler may rely on

Between two of its transactions a handler only knows that rows stay, that a few
of their columns never change, and that a few others only move one way: a task
that is done stays done, a task that was handed to an agent stays so, an
answered hold stays answered, and an outcome that is not LOST never becomes
LOST.
-/

namespace Rekuest

open Concurrent

/-- Whether an agent may have the task: it was picked up, or sent. -/
def Task.reached (t : Task) : Bool := t.pickedUpAt.isSome || t.dispatchAttempts != 0

structure Task.Later (t t' : Task) : Prop where
  identity : t.SameIdentity t'
  done : t.isDone = true → t'.isDone = true
  answered : t.undecided = false → t'.undecided = false
  reached : t.reached = true → t'.reached = true
  notLost : t.isDone = true → t.latestEventKind ≠ .lost → t'.latestEventKind ≠ .lost

theorem Task.Later.refl (t : Task) : t.Later t :=
  ⟨.refl t, id, id, id, fun _ => id⟩

theorem Task.Later.trans {t u v : Task} (h : t.Later u) (h' : u.Later v) : t.Later v where
  identity := h.identity.trans h'.identity
  done := h'.done ∘ h.done
  answered := h'.answered ∘ h.answered
  reached := h'.reached ∘ h.reached
  notLost := fun hDone hKind => h'.notLost (h.done hDone) (h.notLost hDone hKind)

namespace Db

structure Later (db db' : Db) : Prop where
  row : ∀ {x row}, db.task? x = some row →
    ∃ row', db'.task? x = some row' ∧ row.Later row'
  events : ∀ x, db.eventsOf x <+: db'.eventsOf x
  implementations : db'.implementations = db.implementations

theorem Later.refl (db : Db) : db.Later db :=
  ⟨fun h => ⟨_, h, .refl _⟩, fun _ => List.prefix_refl _, rfl⟩

theorem Later.trans {db db' db'' : Db} (h : db.Later db') (h' : db'.Later db'') :
    db.Later db'' where
  row := fun hRow =>
    have ⟨_, hRow', hLater⟩ := h.row hRow
    have ⟨_, hRow'', hLater'⟩ := h'.row hRow'
    ⟨_, hRow'', hLater.trans hLater'⟩
  events := fun x => (h.events x).trans (h'.events x)
  implementations := h'.implementations.trans h.implementations

/-! ## What stays true -/

variable {db db' : Db} {x : Nat}

/-- The task has a row. -/
def Exists (db : Db) (x : Nat) : Prop := ∃ row, db.task? x = some row

/-- The task is done. -/
def Done (db : Db) (x : Nat) : Prop := ∃ row, db.task? x = some row ∧ row.isDone = true

/-- An agent may have the task. -/
def Reached (db : Db) (x : Nat) : Prop := ∃ row, db.task? x = some row ∧ row.reached = true

/-- The task waits for no decision on whether it may run. -/
def Answered (db : Db) (x : Nat) : Prop :=
  ∃ row, db.task? x = some row ∧ row.undecided = false

/-- The task waits for no decision, or it ended. -/
def Freed (db : Db) (x : Nat) : Prop :=
  ∃ row, db.task? x = some row ∧ (row.undecided = false ∨ row.isDone = true)

/-- The task ended, and not LOST. -/
def Settled (db : Db) (x : Nat) : Prop :=
  ∃ row, db.task? x = some row ∧ row.isDone = true ∧ row.latestEventKind ≠ .lost

/-- The task is one of this agent's. -/
def OwnedBy (db : Db) (agent x : Nat) : Prop :=
  ∃ row, db.task? x = some row ∧ row.agent = agent

/-- The task is the lower child of some wrapper. -/
def Flagged (db : Db) (x : Nat) : Prop :=
  ∃ row, db.task? x = some row ∧ row.isHigherOrderChild = true

/-- The task waits for no decision, or it is no wrapper's lower child. -/
def Unfoldable (db : Db) (x : Nat) : Prop :=
  ∃ row, db.task? x = some row ∧ (row.undecided = false ∨ row.isHigherOrderChild = false)

/-- The task held itself at some point. -/
def SelfHeld (db : Db) (x : Nat) : Prop :=
  ∃ event ∈ db.eventsOf x, event.kind = .held ∧ event.event.value.any (·.isSelf) = true

/-- The task has an event that ended it as `kind`. -/
def EndedAs (db : Db) (x : Nat) (kind : TaskEventKind) : Prop :=
  ∃ event ∈ db.eventsOf x, event.kind = kind

theorem Later.exists (h : db.Later db') : db.Exists x → db'.Exists x
  | ⟨_, hRow⟩ => have ⟨_, hRow', _⟩ := h.row hRow; ⟨_, hRow'⟩

theorem Later.done (h : db.Later db') : db.Done x → db'.Done x
  | ⟨_, hRow, hDone⟩ => have ⟨_, hRow', hLater⟩ := h.row hRow; ⟨_, hRow', hLater.done hDone⟩

theorem Later.reached (h : db.Later db') : db.Reached x → db'.Reached x
  | ⟨_, hRow, hReached⟩ =>
    have ⟨_, hRow', hLater⟩ := h.row hRow; ⟨_, hRow', hLater.reached hReached⟩

theorem Later.answered (h : db.Later db') : db.Answered x → db'.Answered x
  | ⟨_, hRow, hAnswered⟩ =>
    have ⟨_, hRow', hLater⟩ := h.row hRow; ⟨_, hRow', hLater.answered hAnswered⟩

theorem Later.freed (h : db.Later db') : db.Freed x → db'.Freed x
  | ⟨_, hRow, hFreed⟩ =>
    have ⟨_, hRow', hLater⟩ := h.row hRow
    ⟨_, hRow', hFreed.imp hLater.answered hLater.done⟩

theorem Later.settled (h : db.Later db') : db.Settled x → db'.Settled x
  | ⟨_, hRow, hDone, hKind⟩ =>
    have ⟨_, hRow', hLater⟩ := h.row hRow
    ⟨_, hRow', hLater.done hDone, hLater.notLost hDone hKind⟩

theorem Later.ownedBy {agent : Nat} (h : db.Later db') :
    db.OwnedBy agent x → db'.OwnedBy agent x
  | ⟨_, hRow, hAgent⟩ =>
    have ⟨_, hRow', hLater⟩ := h.row hRow
    ⟨_, hRow', hLater.identity.agent.trans hAgent⟩

theorem Later.flagged (h : db.Later db') : db.Flagged x → db'.Flagged x
  | ⟨_, hRow, hFlag⟩ =>
    have ⟨_, hRow', hLater⟩ := h.row hRow
    ⟨_, hRow', hLater.identity.isHigherOrderChild.trans hFlag⟩

theorem Later.unfoldable (h : db.Later db') : db.Unfoldable x → db'.Unfoldable x
  | ⟨_, hRow, hFree⟩ =>
    have ⟨_, hRow', hLater⟩ := h.row hRow
    ⟨_, hRow', hFree.imp hLater.answered hLater.identity.isHigherOrderChild.trans⟩

theorem Answered.unfoldable (h : db.Answered x) : db.Unfoldable x :=
  have ⟨row, hRow, hAnswered⟩ := h
  ⟨row, hRow, .inl hAnswered⟩

/-- A lower child whose events unfold waits for no decision. -/
theorem Unfoldable.answered (h : db.Unfoldable x) (hFlagged : db.Flagged x) : db.Answered x := by
  obtain ⟨row, hRow, hFree⟩ := h
  obtain ⟨row', hRow', hFlag⟩ := hFlagged
  rw [hRow, Option.some.injEq] at hRow'
  subst hRow'
  exact ⟨row, hRow, hFree.resolve_right (by simp [hFlag])⟩

theorem Later.selfHeld (h : db.Later db') : db.SelfHeld x → db'.SelfHeld x
  | ⟨event, hEvent, hSelf⟩ => ⟨event, (h.events x).subset hEvent, hSelf⟩

theorem Later.endedAs {kind : TaskEventKind} (h : db.Later db') :
    db.EndedAs x kind → db'.EndedAs x kind
  | ⟨event, hEvent, hKind⟩ => ⟨event, (h.events x).subset hEvent, hKind⟩

theorem Later.isLower {w : Nat} (h : db.Later db') : db.IsLower x w → db'.IsLower x w
  | ⟨_, hRow, hFlag, hParent⟩ =>
    have ⟨_, hRow', hLater⟩ := h.row hRow
    ⟨_, hRow', hLater.identity.isHigherOrderChild.trans hFlag,
      hLater.identity.parent.trans hParent⟩

theorem Answered.freed (h : db.Answered x) : db.Freed x :=
  have ⟨row, hRow, hAnswered⟩ := h
  ⟨row, hRow, .inl hAnswered⟩

theorem Done.freed (h : db.Done x) : db.Freed x :=
  have ⟨row, hRow, hDone⟩ := h
  ⟨row, hRow, .inr hDone⟩

/-- A higher-order wrapper stays one. -/
theorem Later.isHigherOrder (h : db.Later db') {row row' : Task}
    (hRow : row.SameIdentity row') : db'.isHigherOrder row' = db.isHigherOrder row := by
  simp [Db.isHigherOrder, Db.implementation?, hRow.implementation, h.implementations]

end Db

/-! ## One transaction moves the state to a later one -/

theorem Claim.move_identity (c : Claim) (now : Int) (row : Task) :
    row.SameIdentity (c.move now row) := by
  unfold Claim.move
  cases c.extra <;> exact ⟨rfl, rfl, rfl, rfl, rfl, rfl, rfl⟩

theorem TaskStep.identity {e : Env} {db : Db} {x : Nat} {row row' : Task} {op : Txn}
    {events : List TaskEvent} (h : TaskStep e db x row op row' events) :
    row.SameIdentity row' := by
  cases h
  case claimed c _ => exact c.move_identity e.now row
  all_goals exact ⟨rfl, rfl, rfl, rfl, rfl, rfl, rfl⟩

theorem TaskStep.later {e : Env} {db : Db} {x : Nat} {row row' : Task} {op : Txn}
    {events : List TaskEvent} (h : TaskStep e db x row op row' events)
    (hOverride : ∀ kind event, op = .overrideServerOutcome x kind event → kind ≠ .lost) :
    row.Later row' where
  identity := h.identity
  done := by
    intro hDone
    cases h
    case claimed c hAdmits => exact absurd hDone (by simp [(Claim.admits_open hAdmits).1])
    all_goals first | exact hDone | rfl
  answered := by
    intro hAnswered
    cases h
    case claimed c _ =>
      unfold Claim.move
      cases c.extra <;> exact hAnswered
    all_goals first | exact hAnswered | rfl
  reached := by
    intro hReached
    cases h
    case claimed c _ =>
      unfold Claim.move
      cases c.extra <;> first | exact hReached | rfl
    case approved hAttempts _ _ _ _ _ _ =>
      rcases hAttempts with rfl | rfl
      · exact hReached
      · simp [Task.reached]
    all_goals first | exact hReached | simp [Task.reached]
  notLost := by
    intro hDone hKind
    cases h
    case claimed c hAdmits => exact absurd hDone (by simp [(Claim.admits_open hAdmits).1])
    case overridden kind event last _ _ _ => exact hOverride kind event rfl
    case controlSettled hOpen _ _ _ => exact absurd hDone (by simp [hOpen])
    case unpicked hUnpicked _ _ => simp [Task.isUnpicked, hDone] at hUnpicked
    case lowerSettled wrapper wrow control caller interruptAt outcome hOutcome _ _ _ _ _ =>
      cases control <;> cases hOutcome <;> simp [Task.ended]
    all_goals first | exact hKind | simp [Task.ended]

/-! ## The tables a transaction leaves alone -/

/-- Only tasks and events may differ (and what no handler reads again). -/
structure Db.Frame (db db' : Db) : Prop where
  instructs : db'.instructs = db.instructs
  implementations : db'.implementations = db.implementations
  sent : db'.sent = db.sent
  agents : db'.agents.length = db.agents.length

namespace Db.Frame

variable {db db' db'' : Db}

theorem refl (db : Db) : db.Frame db := ⟨rfl, rfl, rfl, rfl⟩

theorem trans (h : db.Frame db') (h' : db'.Frame db'') : db.Frame db'' :=
  ⟨h'.instructs.trans h.instructs, h'.implementations.trans h.implementations,
    h'.sent.trans h.sent, h'.agents.trans h.agents⟩

theorem foldl {f : Db → Nat → Db} (hf : ∀ (db : Db) x, db.Frame (f db x)) (xs : List Nat) :
    db.Frame (xs.foldl f db) := by
  induction xs generalizing db with
  | nil => exact refl db
  | cons x rest ih => exact (hf db x).trans ih

theorem ite {c : Prop} [Decidable c] (h : db.Frame db') (h' : db.Frame db'') :
    db.Frame (if c then db' else db'') := by
  split
  · exact h
  · exact h'

theorem updateTaskKind {now : Int} {x : Nat} {kind : TaskEventKind} {done : Bool} :
    db.Frame (db.updateTaskKind now x kind done) := ⟨rfl, rfl, rfl, rfl⟩

theorem settleHeldLower {now : Int} {x : Nat} {outcome : TaskEventKind} :
    db.Frame (settleHeldLower now db x outcome) :=
  ite (refl db) updateTaskKind

theorem settleHeldChild (now : Int) (db : Db) (x : Nat) :
    db.Frame (settleHeldChild now db x) :=
  have hEnded : db.Frame ((db.updateTaskKind now x .cancelled true).insertEvent x .cancelled
      { message := some "Its parent ended while it was held — never dispatched." }) :=
    ⟨rfl, rfl, rfl, rfl⟩
  hEnded.trans settleHeldLower

theorem inserted {rows : List Task} {task : Nat} {new : NewTask} {ask : Ask} :
    db.Frame (recordHeld { db with tasks := db.tasks ++ rows } task new ask) := by
  unfold recordHeld
  split
  · rw [recordHeldChild, Db.foldl_insertEvent]
    exact ⟨rfl, rfl, rfl, rfl⟩
  · exact ⟨rfl, rfl, rfl, rfl⟩

theorem decideChild {e : Env} {task : Nat} {watchers : List Nat} {approved : Bool}
    {answer : Option String} {decided : EventValue} :
    db.Frame (decideChild e db task watchers approved answer decided).2 := by
  simp only [Rekuest.decideChild]
  split
  · exact refl db
  · simp only [answerHeld, foldl_dictOf, Db.foldl_insertEvent]
    cases approved <;> by_cases hRunner : runnerOf db task = task <;>
      simp only [hRunner, if_true, if_false] <;> exact ⟨rfl, rfl, rfl, rfl⟩

theorem onLease {α : Type} {agent : Nat} {default : α}
    {op : Leases.AgentLease → α × Leases.AgentLease} :
    db.Frame (db.onLease agent default op).2 := by
  unfold Db.onLease
  split
  · exact refl db
  · exact ⟨rfl, rfl, rfl, List.length_set⟩

theorem settleTarget {now : Int} {target : Nat} {row : Task}
    {instruct : TaskInstructKind} {outcome : TaskEventKind} :
    db.Frame (settleTarget now db target row instruct outcome) := by
  obtain ⟨event, -, hEq⟩ := settleTarget_eq db now target row instruct outcome
  rw [hEq]
  have hEnded : db.Frame ((db.modifyTask target (Task.settledBy now instruct
      outcome)).insertEvent target outcome event) := ⟨rfl, rfl, rfl, rfl⟩
  exact ite (hEnded.trans settleHeldLower) hEnded

/-- Every transaction but an instruction and a delivery. -/
theorem exec (settings : Settings) (e : Env) (op : Txn)
    (hControl : ∀ target control caller interruptAt,
      op ≠ .controlTarget target control caller interruptAt)
    (hDeliver : ∀ agent frame, op ≠ .deliver agent frame) :
    db.Frame (Txn.exec settings e op db).2 := by
  cases op with
  | controlTarget target control caller interruptAt =>
      exact absurd rfl (hControl target control caller interruptAt)
  | deliver agent frame => exact absurd rfl (hDeliver agent frame)
  | recordEvent task kind event =>
      simp only [Txn.exec, recordEvent]
      split <;> exact ⟨rfl, rfl, rfl, rfl⟩
  | claim task c =>
      simp only [Txn.exec]
      rcases claimTask_cases e db task c with hLost | ⟨row, -, -, hWon⟩
      · rw [hLost]
        exact refl db
      · rw [hWon]
        cases c.event <;> exact ⟨rfl, rfl, rfl, rfl⟩
  | settleHeldChildren p => exact foldl (settleHeldChild e.now) _
  | overrideServerOutcome task kind event =>
      simp only [Txn.exec, overrideServerOutcome]
      split
      · exact refl db
      · split
        · exact refl db
        · split <;> exact ⟨rfl, rfl, rfl, rfl⟩
  | decideChild task watchers approved answer decided => exact decideChild
  | insertTask new ask =>
      simp only [Txn.exec, insertTask]
      split
      · exact refl db
      · split
        · exact refl db
        · exact inserted
  | insertHigherOrder wrapper lower ask =>
      simp only [Txn.exec, insertHigherOrder]
      split
      · exact refl db
      · split
        · exact refl db
        · exact inserted
  | getCaller caller =>
      simp only [Txn.exec, getCaller]
      split <;> exact ⟨rfl, rfl, rfl, rfl⟩
  | decideUnpicked task cutoff =>
      simp only [Txn.exec, decideUnpicked]
      split
      · exact refl db
      · split
        · exact refl db
        · split <;> exact ⟨rfl, rfl, rfl, rfl⟩
  | claimDue task =>
      simp only [Txn.exec, claimDue]
      split
      · exact refl db
      · split
        · exact refl db
        · split <;> exact ⟨rfl, rfl, rfl, rfl⟩
  | moveRunToNow schedule allowsOverlap =>
      simp only [Txn.exec, moveRunToNow]
      split
      · exact ⟨rfl, rfl, rfl, rfl⟩
      · split <;> exact refl db
  | claimLease agent connection session force => exact onLease
  | releaseLease agent connection => exact onLease
  | renewLease agent connection => exact onLease
  | revokeLease agent => exact onLease
  | _ => exact ⟨rfl, rfl, rfl, rfl⟩

end Db.Frame

/-- A control of an open task adds its instruct. -/
theorem controlTarget_instructs (e : Env) (db : Db) (target : Nat) (control : Control)
    (caller : Option Nat) (interruptAt : Option Int) :
    (controlTarget e db target control caller interruptAt).2.sent = db.sent ∧
    (controlTarget e db target control caller interruptAt).2.implementations =
      db.implementations ∧
    ((controlTarget e db target control caller interruptAt).2.instructs = db.instructs ∨
      ∃ row, db.task? target = some row ∧ row.isDone = false ∧
        (controlTarget e db target control caller interruptAt).2.instructs = db.instructs ++
          [{ task := target, kind := control.instructKind, caller := caller }]) := by
  simp only [controlTarget]
  split
  case h_1 => exact ⟨rfl, rfl, .inl rfl⟩
  case h_2 row hRow =>
    split
    case isTrue => exact ⟨rfl, rfl, .inl rfl⟩
    case isFalse hOpen =>
      rw [Bool.not_eq_true] at hOpen
      split
      case h_1 outcome _ _ =>
        have hFrame : db.Frame (settleTarget e.now db target row control.instructKind outcome) :=
          Db.Frame.settleTarget
        refine ⟨hFrame.sent, hFrame.implementations, .inr ⟨row, hRow, hOpen, ?_⟩⟩
        exact congrArg (· ++ _) hFrame.instructs
      case h_2 => exact ⟨rfl, rfl, .inr ⟨row, hRow, hOpen, rfl⟩⟩

/-- The instructs after a transaction: only a control of an open task adds one. -/
theorem instructs_exec (settings : Settings) (e : Env) (op : Txn) (db : Db) :
    (Txn.exec settings e op db).2.instructs = db.instructs ∨
    ∃ target control caller interruptAt row,
      op = .controlTarget target control caller interruptAt ∧
      db.task? target = some row ∧ row.isDone = false ∧
      (Txn.exec settings e op db).2.instructs = db.instructs ++
        [{ task := target, kind := control.instructKind, caller := caller }] := by
  by_cases hControl : ∃ target control caller interruptAt,
      op = .controlTarget target control caller interruptAt
  case pos =>
    obtain ⟨target, control, caller, interruptAt, rfl⟩ := hControl
    rcases (controlTarget_instructs e db target control caller interruptAt).2.2 with
      hSame | ⟨row, hRow, hOpen, hNew⟩
    · exact .inl hSame
    · exact .inr ⟨target, control, caller, interruptAt, row, rfl, hRow, hOpen, hNew⟩
  case neg =>
    by_cases hDeliver : ∃ agent frame, op = .deliver agent frame
    case pos =>
      obtain ⟨agent, frame, rfl⟩ := hDeliver
      refine .inl ?_
      simp only [Txn.exec]
      split <;> rfl
    case neg =>
      exact .inl (Db.Frame.exec settings e op
        (fun t c k a h => hControl ⟨t, c, k, a, h⟩) fun a f h => hDeliver ⟨a, f, h⟩).instructs

/-- The frames sent after a transaction. -/
theorem sent_exec (settings : Settings) (e : Env) (op : Txn) (db : Db) :
    (Txn.exec settings e op db).2.sent = db.sent ∨
    ∃ agent frame, op = .deliver agent frame ∧
      (Txn.exec settings e op db).2.sent = db.sent ++ [(agent, frame)] := by
  by_cases hDeliver : ∃ agent frame, op = .deliver agent frame
  case pos =>
    obtain ⟨agent, frame, rfl⟩ := hDeliver
    simp only [Txn.exec]
    split
    · exact .inr ⟨agent, frame, rfl, rfl⟩
    · exact .inl rfl
  case neg =>
    by_cases hControl : ∃ target control caller interruptAt,
        op = .controlTarget target control caller interruptAt
    case pos =>
      obtain ⟨target, control, caller, interruptAt, rfl⟩ := hControl
      exact .inl (controlTarget_instructs e db target control caller interruptAt).1
    case neg =>
      exact .inl (Db.Frame.exec settings e op
        (fun t c k a h => hControl ⟨t, c, k, a, h⟩) fun a f h => hDeliver ⟨a, f, h⟩).sent

theorem implementations_exec (settings : Settings) (e : Env) (op : Txn) (db : Db) :
    (Txn.exec settings e op db).2.implementations = db.implementations := by
  by_cases hDeliver : ∃ agent frame, op = .deliver agent frame
  case pos =>
    obtain ⟨agent, frame, rfl⟩ := hDeliver
    simp only [Txn.exec]
    split <;> rfl
  case neg =>
    by_cases hControl : ∃ target control caller interruptAt,
        op = .controlTarget target control caller interruptAt
    case pos =>
      obtain ⟨target, control, caller, interruptAt, rfl⟩ := hControl
      exact (controlTarget_instructs e db target control caller interruptAt).2.1
    case neg =>
      exact (Db.Frame.exec settings e op
        (fun t c k a h => hControl ⟨t, c, k, a, h⟩) fun a f h =>
          hDeliver ⟨a, f, h⟩).implementations

/-- No agent comes or goes. -/
theorem agents_exec (settings : Settings) (e : Env) (op : Txn) (db : Db) :
    (Txn.exec settings e op db).2.agents.length = db.agents.length := by
  by_cases hDeliver : ∃ agent frame, op = .deliver agent frame
  case pos =>
    obtain ⟨agent, frame, rfl⟩ := hDeliver
    simp only [Txn.exec]
    split <;> rfl
  case neg =>
    by_cases hControl : ∃ target control caller interruptAt,
        op = .controlTarget target control caller interruptAt
    case pos =>
      obtain ⟨target, control, caller, interruptAt, rfl⟩ := hControl
      simp only [Txn.exec, controlTarget]
      split
      case h_1 => rfl
      case h_2 row _ =>
        split
        case isTrue => rfl
        case isFalse =>
          split
          case h_1 outcome _ _ =>
            have hFrame : db.Frame (settleTarget e.now db target row control.instructKind
                outcome) := Db.Frame.settleTarget
            exact hFrame.agents
          case h_2 => rfl
    case neg =>
      exact (Db.Frame.exec settings e op
        (fun t c k a h => hControl ⟨t, c, k, a, h⟩) fun a f h => hDeliver ⟨a, f, h⟩).agents

/-- A transaction whose override, if it is one, does not write LOST moves the
database to a later one. -/
theorem Db.later_exec (settings : Settings) (e : Env) (op : Txn) {db : Db}
    (hTree : db.Tree) (hOverride : ∀ task kind event,
      op = .overrideServerOutcome task kind event → kind ≠ .lost) :
    db.Later (Txn.exec settings e op db).2 where
  row := fun hRow =>
    have ⟨row', _, hBecomes, hStep⟩ := taskStep settings e op hTree hRow
    ⟨row', hBecomes.1, hStep.later (hOverride _)⟩
  events := by
    intro x
    cases hRow : db.task? x with
    | some row =>
        obtain ⟨_, events, hBecomes, -⟩ := taskStep settings e op hTree hRow
        rw [hBecomes.2]
        exact List.prefix_append ..
    | none =>
        by_cases hRecord : ∃ kind event, op = .recordEvent x kind event
        case pos =>
          obtain ⟨kind, event, rfl⟩ := hRecord
          simp only [Txn.exec, recordEvent]
          split
          · exact List.prefix_refl _
          · rw [Db.eventsOf_insertEvent]
            exact List.prefix_append ..
        case neg =>
          obtain ⟨events, hEvents, -⟩ := absent_exec settings e op hRow
            fun kind event h => hRecord ⟨kind, event, h⟩
          rw [hEvents]
          exact List.prefix_append ..
  implementations := implementations_exec settings e op db

end Rekuest
