import Rekuest.Server.Sound

/-!
# Runs of the server

Where a run starts, and what the discipline gives for every state it reaches.
-/

namespace Rekuest

open Concurrent

/-- The database and the handlers under way. -/
abbrev ServerConfig := Config Db Txn.Res

/-- The server as a transition system: replicas, agents and people. -/
abbrev server (settings : Settings) : System ServerConfig (Choice Env Request) :=
  (machine settings).pool

/-- Agents and implementations are there, but nothing was ever assigned. -/
structure Db.Fresh (db : Db) : Prop where
  tasks : db.tasks = []
  events : db.events = []
  instructs : db.instructs = []
  sent : db.sent = []

/-- Where a run starts. -/
structure Initial (c : ServerConfig) : Prop where
  fresh : c.state.Fresh
  idle : c.threads = []

/-- The thread of a step runs this transaction. -/
def Runs (c : ServerConfig) (a : Choice Env Request) (op : Txn) : Prop :=
  ∃ i e k, a = .step i e ∧ c.threads[i]? = some (.act op k)

theorem Db.Fresh.task? {db : Db} (h : db.Fresh) (x : Nat) : db.task? x = none := by
  simp [Db.task?, h.tasks]

theorem Db.Fresh.not_row {db : Db} (h : db.Fresh) {x : Nat} {row : Task} :
    db.task? x ≠ some row := by
  simp [h.task?]

theorem Db.Fresh.eventsOf {db : Db} (h : db.Fresh) (x : Nat) : db.eventsOf x = [] := by
  simp [Db.eventsOf, h.events]

theorem Db.Fresh.inv {db : Db} (strict : Prop) (h : db.Fresh) : db.Inv strict where
  tree :=
    { rootless := fun hRow => absurd hRow h.not_row
      parent := fun hRow => absurd hRow h.not_row
      lower := fun hRow => absurd hRow h.not_row }
  absent := fun {x} _ event hEvent => by rw [h.eventsOf x] at hEvent; cases hEvent
  holds := fun _ =>
    { waiting := fun hRow => absurd hRow h.not_row
      unsent := fun hSent => by rw [h.sent] at hSent; cases hSent
      ended := fun hRow => absurd hRow h.not_row
      lower := fun ⟨_, hRow, _⟩ => absurd hRow h.not_row
      selfHeld := fun {x} ⟨_, hEvent, _⟩ => by rw [h.eventsOf x] at hEvent; cases hEvent }

theorem ok_initial (settings : Settings) (strict : Prop) {c : ServerConfig}
    (h : Initial c) : (discipline settings strict).Ok c where
  inv := h.fresh.inv strict
  safe := fun p hp => by rw [h.idle] at hp; cases hp

section

variable {settings : Settings} {C : ServerConfig → Choice Env Request → Prop}
variable {c₀ c c' : ServerConfig} {a : Choice Env Request}

theorem allows_any : (discipline settings False).Allows c a := by
  cases a with
  | step i e =>
      simp only [Discipline.Allows, Machine.onStep]
      split
      · exact fun h => h.elim
      · trivial
  | start | crash => trivial

/-- Every run is disciplined. -/
theorem ok_run (hInit : Initial c₀) (hRun : (server settings).Run C c₀ c) :
    (discipline settings False).Ok c :=
  (ok_initial settings False hInit).run (discipline_sound settings False)
    (fun _ _ _ => allows_any) hRun

/-- Along every run the database moves to later ones. -/
theorem later_run (hInit : Initial c₀) (hRun : (server settings).Run C c₀ c)
    {D : ServerConfig → Choice Env Request → Prop}
    (hOn : (server settings).Run D c c') : c.state.Later c'.state :=
  (ok_run hInit hRun).run_later (discipline_sound settings False)
    (fun _ _ _ => allows_any) hOn

theorem step_state {i : Nat} {e : Env} {op : Txn} {k : op.Res → Program Unit}
    (hMove : Machine.Moves (machine settings) c (.step i e) c')
    (hHead : c.threads[i]? = some (.act op k)) :
    c'.state = (Txn.exec settings e op c.state).2 := by
  cases hMove with
  | step _ _ op' k' hHead' =>
      rw [hHead, Option.some.injEq] at hHead'
      cases hHead'
      rfl

theorem step_thread {i : Nat} {e : Env} {op : Txn} {k : op.Res → Program Unit}
    (hMove : Machine.Moves (machine settings) c (.step i e) c')
    (hHead : c.threads[i]? = some (.act op k)) :
    c'.threads[i]? = some (k (Txn.exec settings e op c.state).1) := by
  cases hMove with
  | step _ _ op' k' hHead' =>
      rw [hHead, Option.some.injEq] at hHead'
      cases hHead'
      exact List.getElem?_set_self (List.getElem?_eq_some_iff.mp hHead).1

/-- What a move does to the database: one transaction under its guard, or
nothing. -/
theorem moves_state (hOk : (discipline settings False).Ok c)
    (hMove : Machine.Moves (machine settings) c a c') :
    c'.state = c.state ∨ ∃ i e op k, a = .step i e ∧ c.threads[i]? = some (.act op k) ∧
      TxnGuard settings False op k c.state ∧ c'.state = (Txn.exec settings e op c.state).2 := by
  cases hMove with
  | start => exact .inl rfl
  | crash => exact .inl rfl
  | step i e op k hHead => exact .inr ⟨i, e, op, k, rfl, hHead, hOk.guard hHead, rfl⟩

/-- **Invariant rule for the database**: what holds while nothing was assigned,
and is kept by every transaction under its guard that meets the condition, holds
along every run. -/
theorem state_run {I : Db → Prop} {D : Env → Txn → Db → Prop} (hInit : Initial c₀)
    (hC : ∀ c a, C c a → Machine.onStep D c a) (hRun : (server settings).Run C c₀ c)
    (hStart : ∀ db : Db, db.Fresh → I db)
    (hStep : ∀ e op k db, db.Inv False → TxnGuard settings False op k db → D e op db →
      I db → I (Txn.exec settings e op db).2) : I c.state := by
  refine (ok_initial settings False hInit).invariant (I := fun c => I c.state)
    (discipline_sound settings False) (fun _ _ _ => allows_any) (hStart _ hInit.fresh) ?_ hRun
  intro c a c' hOk hOld hCond hMove
  rcases moves_state hOk hMove with hSame | ⟨i, e, op, k, rfl, hHead, hGuard, hState⟩
  · rw [hSame]
    exact hOld
  · rw [hState]
    exact hStep e op k c.state hOk.inv hGuard (Machine.onStep_step hHead (hC _ _ hCond)) hOld

end

/-! ## A small site

Two agents, a plain implementation on each and one that wraps the second's; a
person assigns to the first agent, which asks for more. -/

def demoLease : Leases.AgentLease where
  connected := true
  lastSeen := some 0
  activeConnectionId := some 0
  activeSessionId := some 0

def demo : ServerConfig where
  state :=
    { agents := [
        { client := 1, user := 1, lease := demoLease },
        { client := 2, user := 2, lease := demoLease }]
      implementations := [{}, { agent := 1 }, { higherOrderFor := some 1 }] }

theorem demo_initial : Initial demo := ⟨⟨rfl, rfl, rfl, rfl⟩, rfl⟩

def person : Principal := { user := 7, client := 9, organization := some 0 }

/-- A request starts a thread, which runs its next operations undisturbed. -/
def Request.alone (request : Request) (thread n : Nat) : List (Choice Env Request) :=
  .start request :: Choice.steps thread n {}

/-- The person assigns task 0 to agent 0. -/
def assignRoot : List (Choice Env Request) :=
  Request.alone (.assign person { implementation := some 0, fresh := "root", freshLower := "" }) 0 8

/-- Agent 0 asks for a child of task 0: held task 1 of implementation 2, which
its lower child, task 2, would run on agent 1. -/
def askWrapper : List (Choice Env Request) :=
  Request.alone (.callerAssign 0 {
    implementation := some 2
    parent := some 0
    fresh := "wrapper"
    freshLower := "lower" } true) 1 11

end Rekuest

/-!
# Nothing runs past a hold

A child that waits for its decision stays as it was created until it is
decided, instructed or its parent ends, in every run in which no agent reports
on such a child, no wrapper's lower child is decided alone and no hold is
delayed.
-/

namespace Rekuest

open Concurrent

/-- The steps that respect the holds. -/
def RespectsHolds : ServerConfig → Choice Env Request → Prop :=
  Machine.onStep fun _ op db => respectsHolds op db = true

instance (c : ServerConfig) (a : Choice Env Request) : Decidable (RespectsHolds c a) :=
  inferInstanceAs (Decidable (Machine.onStep _ c a))

/-- Nobody cancelled or interrupted the task, and its parent runs on. -/
structure Unanswered (db : Db) (x : Nat) (row : Task) : Prop where
  undecided : row.undecided = true
  uninstructed : ∀ instruct ∈ db.instructs, instruct.task = x → ¬ instruct.kind.ends
  parent : ∀ p, row.parent = some p → ¬ db.Done p

section

variable {settings : Settings} {c₀ c : ServerConfig}

/-- **Run lemma** -/
theorem ok_respectful (hInit : Initial c₀) (hRun : (server settings).Run RespectsHolds c₀ c) :
    (discipline settings True).Ok c := by
  refine (ok_initial settings True hInit).run (discipline_sound settings True) ?_ hRun
  intro c a hRespects
  cases a with
  | step i e =>
      simp only [Discipline.Allows, Machine.onStep]
      split
      case h_1 op k hHead => exact fun _ => Machine.onStep_step hHead hRespects
      case h_2 => trivial
  | start | crash => trivial

/-- **Nothing runs past a hold**: a child nobody answered is open and held, was
never dispatched, and no Assign of it was or is about to be pushed. -/
theorem nothing_runs_past_hold (hInit : Initial c₀)
    (hRun : (server settings).Run RespectsHolds c₀ c) :
    ∀ x row, c.state.task? x = some row → Unanswered c.state x row →
      row.isDone = false ∧ row.latestEventKind = .held ∧ row.dispatchAttempts = 0 ∧
      (∀ agent assign, (agent, ToAgent.assign assign) ∈ c.state.sent → assign.task ≠ x) ∧
      ∀ a agent assign, Runs c a (.deliver agent (.assign assign)) → assign.task ≠ x := by
  intro x row hRow hUnanswered
  have hOk := ok_respectful hInit hRun
  have hHolds := hOk.inv.holds trivial
  have hUndecided := hUnanswered.undecided
  have hWaits (hAnswered : c.state.Answered x) : False := by
    obtain ⟨row', hRow', hAnswered⟩ := hAnswered
    rw [hRow, Option.some.injEq] at hRow'
    subst hRow'
    rw [hUndecided] at hAnswered
    cases hAnswered
  have hOpen : row.isDone = false := by
    rw [← Bool.not_eq_true]
    intro hDone
    rcases hHolds.ended hRow hUndecided hDone with ⟨instruct, hMem, hTask, hEnds⟩ | ⟨p, hParent, hP⟩
    · exact hUnanswered.uninstructed instruct hMem hTask hEnds
    · exact hUnanswered.parent p hParent hP
  have hUntouched := hHolds.waiting hRow hUndecided hOpen
  refine ⟨hOpen, hUntouched.kind, hUntouched.attempts, ?_, ?_⟩
  · rintro agent assign hSent rfl
    exact hWaits (hHolds.unsent hSent)
  · rintro a agent assign ⟨i, e, k, -, hHead⟩ rfl
    have hGuard : TxnGuard settings True (.deliver agent (.assign assign)) k c.state :=
      hOk.guard hHead
    exact hWaits (hGuard trivial)

end

/-! ## Runs on the small site -/

/-- Agent 0 asks for a child it would run itself. -/
def askItself : List (Choice Env Request) :=
  assignRoot ++ Request.alone (.callerAssign 0 {
    implementation := some 0
    parent := some 0
    fresh := "child"
    freshLower := "" } true) 1 9

theorem nothing_runs_past_hold_asked : ∃ c row, (server {}).Run RespectsHolds demo c ∧
    c.state.task? 1 = some row ∧ row.undecided = true ∧ row.latestEventKind = .held ∧
    row.dispatchAttempts = 0 := by
  obtain ⟨c, hRun, hCheck⟩ := System.run_of_play_any (server {}) RespectsHolds demo askItself
    (fun c => (c.state.task? 1).any (fun row => row.undecided && row.parent == some 0) &&
      c.state.instructs == [] && (c.state.task? 0).all (!·.isDone)) (by decide)
  simp only [Bool.and_eq_true, beq_iff_eq] at hCheck
  obtain ⟨⟨hTask, hInstructs⟩, hParent⟩ := hCheck
  obtain ⟨row, hRow, hBoth⟩ := Option.any_eq_true _ _ |>.mp hTask
  simp only [Bool.and_eq_true, beq_iff_eq] at hBoth
  have hUnanswered : Unanswered c.state 1 row := by
    refine ⟨hBoth.1, fun instruct hMem => ?_, fun p hp hDone => ?_⟩
    · rw [hInstructs] at hMem
      cases hMem
    · rw [hBoth.2, Option.some.injEq] at hp
      subst hp
      obtain ⟨prow, hProw, hDone⟩ := hDone
      simp [hProw, hDone] at hParent
  obtain ⟨-, hKind, hAttempts, -⟩ :=
    nothing_runs_past_hold demo_initial hRun 1 row hRow hUnanswered
  exact ⟨c, row, hRun, hRow, hBoth.1, hKind, hAttempts⟩

/-- The agent that asked reports the held child completed. -/
def reportHeld : List (Choice Env Request) :=
  askItself ++ Request.alone (.report 0 { task := 1, report := .completed }) 2 4

/-- A report on a held child ends it, though nobody decided it. -/
theorem held_child_completed : ∃ c row, (server {}).Run System.anyStep demo c ∧
    c.state.task? 1 = some row ∧ Unanswered c.state 1 row ∧ row.isDone = true ∧
    row.latestEventKind = .completed := by
  obtain ⟨c, hRun, hCheck⟩ := System.run_of_play_any (server {}) System.anyStep demo reportHeld
    (fun c => (c.state.task? 1).any (fun row => row.undecided && row.parent == some 0 &&
      row.isDone && row.latestEventKind == .completed) &&
      c.state.instructs == [] && (c.state.task? 0).all (!·.isDone)) (by decide)
  simp only [Bool.and_eq_true, beq_iff_eq] at hCheck
  obtain ⟨⟨hTask, hInstructs⟩, hParent⟩ := hCheck
  obtain ⟨row, hRow, hAll⟩ := Option.any_eq_true _ _ |>.mp hTask
  simp only [Bool.and_eq_true, beq_iff_eq] at hAll
  refine ⟨c, row, hRun, hRow, ⟨hAll.1.1.1, fun instruct hMem => ?_, fun p hp hDone => ?_⟩,
    hAll.1.2, hAll.2⟩
  · rw [hInstructs] at hMem
    cases hMem
  · rw [hAll.1.1.2, Option.some.injEq] at hp
    subst hp
    obtain ⟨prow, hProw, hDone⟩ := hDone
    simp [hProw, hDone] at hParent

end Rekuest
