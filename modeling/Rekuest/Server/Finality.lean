import Rekuest.Server.Runs

/-!
# Done is final

A row's `is_done` says what its `latest_event_kind` says, and once it is done
only an override moves it.  Three transactions also move the lower child of a
held wrapper without reading whether it is still open; where it is not, the
child is moved out of its outcome.
-/

namespace Rekuest

open Concurrent

/-! ## The lower children moved along -/

/-- The held tasks whose lower child a transaction moves along, unread, and the
kind it moves it to. -/
def lowerMoves (e : Env) (op : Txn) (db : Db) : List (Nat × TaskEventKind) :=
  let isHeld (task : Nat) : Bool :=
    (db.task? task).any fun t => t.latestEventKind == .held && !t.isDone
  match op with
  | .settleHeldChildren p => (heldChildren e.locked db p).map (·, .cancelled)
  | .decideChild task _ approved _ _ =>
      if isHeld task then [(task, if approved then .queued else .denied)] else []
  | .controlTarget target control _ _ =>
      match control.waitingOutcome with
      | some outcome =>
          if isHeld target && (db.task? target).any (·.stillWaiting) then
            [(target, outcome)]
          else []
      | none => []
  | _ => []

/-- Every lower child moved along is still open, or already ended so. -/
def lowersOpen (e : Env) (op : Txn) (db : Db) : Bool :=
  (lowerMoves e op db).all fun moved =>
    (db.task? (runnerOf db moved.1)).all fun lower =>
      !lower.isDone || lower.latestEventKind == moved.2

/-- The steps at which no ended lower child is moved. -/
def LowersOpen : ServerConfig → Choice Env Request → Prop :=
  Machine.onStep fun e op db => lowersOpen e op db = true

instance (c : ServerConfig) (a : Choice Env Request) : Decidable (LowersOpen c a) :=
  inferInstanceAs (Decidable (Machine.onStep _ c a))

/-! ## The invariant -/

/-- What a row says twice, it says alike. -/
def Task.Agrees (t : Task) : Prop := t.isDone = true ↔ isTerminal t.latestEventKind = true

/-- Every row agrees with itself. -/
def Db.Agrees (db : Db) : Prop := ∀ x row, db.task? x = some row → row.Agrees

theorem Task.ended_agrees (now : Int) {kind : TaskEventKind} (hKind : isTerminal kind = true)
    (t : Task) : (t.ended now kind).Agrees := by
  simp [Task.Agrees, Task.ended, hKind]

@[simp] theorem Claim.move_kind (c : Claim) (now : Int) (row : Task) :
    (c.move now row).latestEventKind = c.toKind := by
  unfold Claim.move
  cases c.extra <;> rfl

@[simp] theorem Claim.move_isDone (c : Claim) (now : Int) (row : Task) :
    (c.move now row).isDone = if c.markDone then true else row.isDone := by
  unfold Claim.move
  cases c.extra <;> rfl

theorem Control.waitingOutcome_terminal {control : Control} {outcome : TaskEventKind}
    (h : control.waitingOutcome = some outcome) : isTerminal outcome = true := by
  cases control <;> cases h <;> rfl

section

variable {settings : Settings} {e : Env} {op : Txn} {k : op.Res → Program Unit}
variable {db : Db} {x : Nat} {row row' : Task} {events : List TaskEvent}

/-- The lower child of a held task that is moved along. -/
theorem lowersOpen_lower {w : Nat} {kind : TaskEventKind} (hTree : db.Tree)
    (hOpen : lowersOpen e op db = true) (hMoved : (w, kind) ∈ lowerMoves e op db)
    (hLower : db.IsLower x w) (hRow : db.task? x = some row) :
    row.isDone = false ∨ row.latestEventKind = kind := by
  have hAll := List.all_eq_true.mp hOpen _ hMoved
  rw [hLower.runnerOf_eq hTree, hRow] at hAll
  simpa using hAll

/-- **Step lemma**: a transaction keeps what a row says twice alike, and moves a
done row only by overriding its outcome. -/
theorem agrees_step (hTree : db.Tree) (hGuard : TxnGuard settings False op k db)
    (hLowers : lowersOpen e op db = true) (hAgrees : row.Agrees)
    (hRow : db.task? x = some row) (hStep : TaskStep e db x row op row' events) :
    row'.Agrees ∧ (row.isDone = true → row'.latestEventKind = row.latestEventKind ∨
      ∃ kind event, op = .overrideServerOutcome x kind event) := by
  cases hStep with
  | same | stamped | dated | movedToNow | recorded | instructed | redelivered
  | dueDispatched => exact ⟨hAgrees, fun _ => .inl rfl⟩
  | claimed c hAdmits =>
      have hOpen := (Claim.admits_open hAdmits).1
      refine ⟨?_, fun hDone => by rw [hOpen] at hDone; cases hDone⟩
      simp [Task.Agrees, hOpen, hGuard.marks]
  | settledChild p hParent hWaiting =>
      refine ⟨Task.ended_agrees _ rfl row, fun hDone => ?_⟩
      simp [Task.isWaitingHeld, hDone] at hWaiting
  | settledLower p wrapper hChild hLower =>
      refine ⟨Task.ended_agrees _ rfl row, fun hDone => .inl ?_⟩
      have hMoved : (wrapper, TaskEventKind.cancelled) ∈ lowerMoves e
          (.settleHeldChildren p) db := List.mem_map.mpr ⟨wrapper, hChild, rfl⟩
      rcases lowersOpen_lower hTree hLowers hMoved hLower hRow with hOpen | hKind
      · rw [hOpen] at hDone
        cases hDone
      · exact hKind.symm
  | overridden kind event last hDone =>
      exact ⟨by simp [Task.Agrees, hDone, hGuard.1], fun _ => .inr ⟨kind, event, rfl⟩⟩
  | approved watchers answer decided hHeld hOpen =>
      refine ⟨?_, fun hDone => by rw [hOpen] at hDone; cases hDone⟩
      simp [Task.Agrees, hOpen, isTerminal, terminalKinds]
  | denied watchers answer decided hHeld hOpen =>
      exact ⟨Task.ended_agrees _ rfl _, fun hDone => by rw [hOpen] at hDone; cases hDone⟩
  | lowerApproved wrapper wrow watchers answer decided hLower hWrapper hHeld hOpen =>
      have hMoved : (wrapper, TaskEventKind.queued) ∈ lowerMoves e
          (.decideChild wrapper watchers true answer decided) db := by
        simp [lowerMoves, hWrapper, hHeld, hOpen]
      have hLowerOpen : row.isDone = false := by
        rcases lowersOpen_lower hTree hLowers hMoved hLower hRow with hOpen | hKind
        · exact hOpen
        · rw [← Bool.not_eq_true]
          intro hDone
          have hTerminal := hAgrees.mp hDone
          rw [hKind] at hTerminal
          cases hTerminal
      refine ⟨?_, fun hDone => by rw [hLowerOpen] at hDone; cases hDone⟩
      simp [Task.Agrees, hLowerOpen, isTerminal, terminalKinds]
  | lowerDenied wrapper wrow watchers answer decided hLower hWrapper hHeld hOpen =>
      refine ⟨Task.ended_agrees _ rfl _, fun hDone => .inl ?_⟩
      have hMoved : (wrapper, TaskEventKind.denied) ∈ lowerMoves e
          (.decideChild wrapper watchers false answer decided) db := by
        simp [lowerMoves, hWrapper, hHeld, hOpen]
      rcases lowersOpen_lower hTree hLowers hMoved hLower hRow with hLowerOpen | hKind
      · rw [hLowerOpen] at hDone
        cases hDone
      · exact hKind.symm
  | controlSettled control caller interruptAt outcome hOutcome hOpen =>
      refine ⟨?_, fun hDone => by rw [hOpen] at hDone; cases hDone⟩
      exact Task.ended_agrees e.now (Control.waitingOutcome_terminal hOutcome) row
  | lowerSettled wrapper wrow control caller interruptAt outcome hOutcome hLower hWrapper
      hOpen hHeld hWaiting =>
      refine ⟨Task.ended_agrees _ (Control.waitingOutcome_terminal hOutcome) row,
        fun hDone => .inl ?_⟩
      have hMoved : (wrapper, outcome) ∈ lowerMoves e
          (.controlTarget wrapper control caller interruptAt) db := by
        simp [lowerMoves, hOutcome, hWrapper, hHeld, hOpen, hWaiting]
      rcases lowersOpen_lower hTree hLowers hMoved hLower hRow with hLowerOpen | hKind
      · rw [hLowerOpen] at hDone
        cases hDone
      · exact hKind.symm
  | unpicked cutoff kind event hUnpicked hKind =>
      have hTerminal : isTerminal kind = true := by
        rcases hKind with rfl | rfl | rfl <;> rfl
      refine ⟨Task.ended_agrees _ hTerminal row, fun hDone => ?_⟩
      simp [Task.isUnpicked, hDone] at hUnpicked
  | dueFinalized hOpen =>
      exact ⟨Task.ended_agrees _ rfl row, fun hDone => by rw [hOpen] at hDone; cases hDone⟩

theorem newRow_agrees (hNew : NewRow e db x op row) : row.Agrees := by
  cases hNew <;> simp only [Task.Agrees, NewTask.row] <;> split <;> decide

theorem agrees_exec (hTree : db.Tree) (hGuard : TxnGuard settings False op k db)
    (hLowers : lowersOpen e op db = true) (hAgrees : db.Agrees) :
    (Txn.exec settings e op db).2.Agrees := by
  intro x row' hRow'
  rcases row_exec hTree hRow' with ⟨row, _, hRow, -, hStep⟩ | ⟨-, hNew⟩
  · exact (agrees_step hTree hGuard hLowers (hAgrees x row hRow) hRow hStep).1
  · exact newRow_agrees hNew

end

section

variable {settings : Settings} {C : ServerConfig → Choice Env Request → Prop}
variable {c₀ c c' : ServerConfig} {a : Choice Env Request}

/-- **Run lemma**: while no ended lower child is moved, every row agrees with
itself. -/
theorem agrees_run (hInit : Initial c₀) (hC : ∀ c a, C c a → LowersOpen c a)
    (hRun : (server settings).Run C c₀ c) : c.state.Agrees :=
  state_run hInit hC hRun (fun _ hFresh _ _ hRow => absurd hRow hFresh.not_row)
    fun _ _ _ _ hInv hGuard hLowers hAgrees => agrees_exec hInv.tree hGuard hLowers hAgrees

/-- **Done is final** in every run that moves no ended lower child: a row is
done exactly when its kind is terminal, it stays done, and only an override
changes the kind of a done row. -/
theorem done_is_final (hInit : Initial c₀)
    (hRun : (server settings).Run LowersOpen c₀ c) :
    (∀ x row, c.state.task? x = some row →
      (row.isDone = true ↔ isTerminal row.latestEventKind = true)) ∧
    (∀ c', (server settings).Run LowersOpen c c' → ∀ x row, c.state.task? x = some row →
      row.isDone = true → ∃ row', c'.state.task? x = some row' ∧ row'.isDone = true) ∧
    ∀ a c', LowersOpen c a → (server settings).next c a = some c' → ∀ x row,
      c.state.task? x = some row → row.isDone = true →
        ∃ row', c'.state.task? x = some row' ∧
          (row'.latestEventKind = row.latestEventKind ∨
            ∃ kind event, Runs c a (.overrideServerOutcome x kind event)) := by
  have hAgrees := agrees_run hInit (fun _ _ h => h) hRun
  refine ⟨hAgrees, fun c' hOn x row hRow hDone => ?_,
    fun a c' hLowers hNext x row hRow hDone => ?_⟩
  · obtain ⟨row', hRow', hLater⟩ := (later_run hInit hRun hOn).row hRow
    exact ⟨row', hRow', hLater.done hDone⟩
  · have hOk := ok_run hInit hRun
    rcases moves_state hOk (Machine.moves_of_next hNext) with
      hSame | ⟨i, e, op, k, rfl, hHead, hGuard, hState⟩
    · exact ⟨row, hSame ▸ hRow, .inl rfl⟩
    · obtain ⟨row', events, hBecomes, hStep⟩ := taskStep settings e op hOk.inv.tree hRow
      refine ⟨row', hState ▸ hBecomes.1, ?_⟩
      have hKind := (agrees_step hOk.inv.tree hGuard (Machine.onStep_step hHead hLowers)
        (hAgrees x row hRow) hRow hStep).2 hDone
      refine hKind.imp_right fun ⟨kind, event, hOp⟩ => ⟨kind, event, i, e, ?_⟩
      subst hOp
      exact ⟨k, rfl, hHead⟩

end

/-! ## Runs on the small site -/

/-- The wrapper is approved; its lower child runs and completes. -/
def approveAndComplete : List (Choice Env Request) :=
  assignRoot ++ askWrapper ++
    Request.alone (.decide person 1 true none none true) 2 5 ++
    Request.alone (.report 1 { task := 2, report := .completed }) 3 7

theorem done_is_final_completed : ∃ c, (server {}).Run LowersOpen demo c ∧
    ([1, 2].all fun x => (c.state.task? x).any (·.latestEventKind == .completed)) = true ∧
    ∀ x row, c.state.task? x = some row →
      (row.isDone = true ↔ isTerminal row.latestEventKind = true) := by
  obtain ⟨c, hRun, hCheck⟩ := System.run_of_play_any (server {}) LowersOpen demo
    approveAndComplete
    (fun c => [1, 2].all fun x => (c.state.task? x).any (·.latestEventKind == .completed))
    (by decide)
  exact ⟨c, hRun, hCheck, (done_is_final demo_initial hRun).1⟩

/-- The lower child is cancelled before its wrapper is approved. -/
def cancelLowerThenApprove : List (Choice Env Request) :=
  assignRoot ++ askWrapper ++
    Request.alone (.control 2 .cancel (some 0)) 2 6 ++
    Request.alone (.decide person 1 true none none true) 3 5

/-- Approving the wrapper moves its cancelled lower child to `QUEUED`. -/
theorem approved_after_cancel : ∃ c, (server {}).Run System.anyStep demo c ∧
    ∃ row, c.state.task? 2 = some row ∧ row.isDone = true ∧ row.latestEventKind = .queued := by
  obtain ⟨c, hRun, hCheck⟩ := System.run_of_play_any (server {}) System.anyStep demo
    cancelLowerThenApprove (fun c => (c.state.task? 2).any fun t =>
      t.isDone && t.latestEventKind == .queued) (by decide)
  obtain ⟨row, hRow, hKind⟩ := Option.any_eq_true _ _ |>.mp hCheck
  simp only [Bool.and_eq_true, beq_iff_eq] at hKind
  exact ⟨c, hRun, row, hRow, hKind⟩

end Rekuest
