import Rekuest.Server.Rely

/-!
# What a handler guarantees

The condition under which each transaction is run, and the discipline it makes
of the server: the invariant of the task trees, what may be relied on, and the
guards.  `strict` asks in addition that holds stand: no undecided child is
touched by a transaction that `respectsHolds` rules out, and then none is
touched at all.
-/

namespace Rekuest

open Concurrent

/-! ## Holds that stand -/

/-- A child nobody decided: never handed over, never instructed. -/
structure Task.Untouched (t : Task) : Prop where
  kind : t.latestEventKind = .held
  attempts : t.dispatchAttempts = 0
  pickedUpAt : t.pickedUpAt = none
  notBefore : t.notBefore = none
  schedule : t.schedule = none
  instruct : t.latestInstructKind = .assign

/-- The instructs that end a task. -/
def TaskInstructKind.ends (kind : TaskInstructKind) : Prop := kind = .cancel ∨ kind = .interrupt

/-- Undecided children wait, and end only by an instruct or with their
parent. -/
structure Db.HoldsStand (db : Db) : Prop where
  waiting : ∀ {x row}, db.task? x = some row → row.undecided = true →
    row.isDone = false → row.Untouched
  unsent : ∀ {agent assign}, (agent, ToAgent.assign assign) ∈ db.sent →
    db.Answered assign.task
  ended : ∀ {x row}, db.task? x = some row → row.undecided = true → row.isDone = true →
    (∃ instruct ∈ db.instructs, instruct.task = x ∧ instruct.kind.ends) ∨
      ∃ p, row.parent = some p ∧ db.Done p
  lower : ∀ {l w}, db.IsLower l w → db.Answered l → db.Answered w
  selfHeld : ∀ {x}, db.SelfHeld x → db.Answered x

/-- What must not happen to an undecided child: its agent reporting on it, a
decision on a wrapper's lower child alone, or a hold that is also delayed. -/
def respectsHolds (op : Txn) (db : Db) : Bool :=
  match op with
  | .stampPickup task => (db.task? task).all fun row =>
      !row.undecided || (row.isDone && !row.isHigherOrderChild)
  | .overrideServerOutcome task _ _ => (db.task? task).all fun row =>
      !row.undecided || !row.isHigherOrderChild
  | .decideChild task .. => (db.task? task).all fun row =>
      row.latestEventKind != .held || row.isDone || !row.isHigherOrderChild ||
        (row.parent.bind db.task?).all fun wrow => !wrow.undecided
  | .insertTask new _ => !new.held || new.notBefore.isNone
  | _ => true

/-! ## Guards -/

/-- The claim by which a lower child's end is unfolded onto its wrapper: it wins
on every open wrapper. -/
def IsUnfold (l w : Nat) (op : Txn) : Prop :=
  ∃ c : Claim, op = .claim w c ∧ c.markDone = true ∧ c.skipLocked = false ∧
    c.skipIfKind = none ∧ (∀ row, c.onlyIf row = true) ∧
    c.event.bind (·.delegatedTo) = some l

/-- The thread will unfold the end of `l` onto `w`. -/
def OwesUnfold (settings : Settings) (l w : Nat) : Program Unit → Db → Prop :=
  Owes (machine settings) Db.Tree Db.Later (IsUnfold l w)

/-- What a handler established when it claims a transition, and how it goes on
when it wins. -/
structure ClaimGuard (settings : Settings) (strict : Prop) (task : Nat) (c : Claim)
    (k : Bool → Program Unit) (db : Db) : Prop where
  marks : c.markDone = isTerminal c.toKind
  event : ∃ event, c.event = some event
  freed : strict → db.Freed task
  held : c.toKind = .held → db.Reached task ∧
    ∃ event, c.event = some event ∧ event.value.any (·.isSelf) = true
  decided : c.toKind = .decided →
    db.SelfHeld task ∧ c.extra = .none ∧
      (∀ row, c.onlyIf row = true → row.latestEventKind = .held) ∧
      ∃ agent approved answer auto values k', db.OwnedBy agent task ∧
        k true = .act (.deliver agent (.decide task approved answer auto values)) k'
  settles : c.markDone = true → ∃ k', k true = .act (.settleHeldChildren task) k'
  unfolds : c.markDone = true → ∀ w, db.IsLower task w →
    OwesUnfold settings task w (k true) db
  delegated : ∀ l, c.event.bind (·.delegatedTo) = some l → c.markDone = true →
    db.IsLower l task ∧ db.EndedAs l c.toKind ∧ IsUnfold l task (.claim task c)

/-- A new task's place in its tree. -/
structure NewTaskGuard (new : NewTask) (db : Db) : Prop where
  rootless : new.parent = none → new.root = none
  parent : ∀ p, new.parent = some p →
    ∃ prow, db.task? p = some prow ∧ new.root = some (prow.root.getD p)
  plain : new.isHigherOrderChild = false
  held : new.held = true →
    new.parent.isSome = true ∧ new.schedule = none ∧ new.dispatchAttempts = 0

/-- A wrapper and its lower child are inserted alike. -/
structure HigherOrderGuard (wrapper lower : NewTask) (db : Db) : Prop where
  placed : NewTaskGuard wrapper db
  held : lower.held = wrapper.held
  unsent : wrapper.dispatchAttempts = 0
  lowerUnsent : lower.held = true → lower.dispatchAttempts = 0
  undelayed : wrapper.notBefore = none ∧ lower.notBefore = none
  unscheduled : wrapper.schedule = none ∧ lower.schedule = none
  higher : ∃ i, db.implementations[wrapper.implementation]? = some i ∧
    i.higherOrderFor.isSome = true

def TxnGuard (settings : Settings) (strict : Prop) :
    (op : Txn) → (op.Res → Program Unit) → Db → Prop
  | .recordEvent task kind _, _, db =>
      db.Exists task ∧ isTerminal kind = false ∧ kind ≠ .held
  | .claim task c, k, db => ClaimGuard settings strict task c k db
  | .settleHeldChildren p, _, db => db.Done p
  | .overrideServerOutcome task kind event, _, db =>
      isTerminal kind = true ∧ kind ≠ .lost ∧ event.agentPos.isSome = true ∧
        db.Settled task
  | .controlTarget target control _ _, _, db =>
      strict → control.waitingOutcome = none → db.Freed target
  | .insertTask new _, _, db => NewTaskGuard new db
  | .insertHigherOrder wrapper lower _, _, db => HigherOrderGuard wrapper lower db
  | .decideUnpicked task _, k, db => ∀ kind w, isTerminal kind = true →
      db.IsLower task w → OwesUnfold settings task w (k (.finalized kind)) db
  | .deliver _ (.assign assign), _, db => strict → db.Answered assign.task
  | _, _, _ => True

/-- The invariant of the database between transactions. -/
structure Db.Inv (strict : Prop) (db : Db) : Prop where
  tree : db.Tree
  absent : ∀ {x}, db.task? x = none → ∀ event ∈ db.eventsOf x,
    event.IsMirror ∨ event.IsAsk
  holds : strict → db.HoldsStand

/-- The server as a discipline. -/
def discipline (settings : Settings) (strict : Prop) :
    Discipline (machine settings) where
  inv := Db.Inv strict
  later := Db.Later
  allowed := fun _ op db => strict → respectsHolds op db = true
  guard := TxnGuard settings strict
  later_refl := Db.Later.refl
  later_trans := Db.Later.trans

/-! ## The guards keep the invariant -/

section

variable {settings : Settings} {strict : Prop} {e : Env} {op : Txn}
variable {k : op.Res → Program Unit} {db : Db}

theorem TxnGuard.override_notLost (hGuard : TxnGuard settings strict op k db) :
    ∀ task kind event, op = .overrideServerOutcome task kind event → kind ≠ .lost := by
  rintro task kind event rfl
  exact hGuard.2.1

theorem TxnGuard.later (hTree : db.Tree) (hGuard : TxnGuard settings strict op k db) :
    db.Later (Txn.exec settings e op db).2 :=
  Db.later_exec settings e op hTree hGuard.override_notLost

/-- A row after a transaction: stepped from before, or inserted. -/
theorem row_exec (hTree : db.Tree) {x : Nat} {row' : Task}
    (hRow' : (Txn.exec settings e op db).2.task? x = some row') :
    (∃ row events, db.task? x = some row ∧
      (Txn.exec settings e op db).2.eventsOf x = db.eventsOf x ++ events ∧
      TaskStep e db x row op row' events) ∨
    (db.task? x = none ∧ NewRow e db x op row') := by
  cases hRow : db.task? x with
  | some row =>
      obtain ⟨row'', events, hBecomes, hStep⟩ := taskStep settings e op hTree hRow
      rw [hBecomes.1, Option.some.injEq] at hRow'
      subst hRow'
      exact .inl ⟨row, events, rfl, hBecomes.2, hStep⟩
  | none => exact .inr ⟨rfl, newRow settings e op hRow hRow'⟩

/-- The wrapper's row, beside the lower child's. -/
theorem wrapper_row {x : Nat} {row' : Task} {wrapper lower : NewTask} {ask : Ask}
    (hTree : db.Tree)
    (hRow' : (Txn.exec settings e (.insertHigherOrder wrapper lower ask) db).2.task? x =
      some row') (hx : x = db.tasks.length + 1) :
    (Txn.exec settings e (.insertHigherOrder wrapper lower ask) db).2.task?
      db.tasks.length = some (wrapper.row e.now) := by
  have hLt := Db.task?_lt hRow'
  have hLt' : db.tasks.length <
      (Txn.exec settings e (.insertHigherOrder wrapper lower ask) db).2.tasks.length := by
    omega
  have hGet := List.getElem?_eq_getElem hLt'
  rcases row_exec hTree hGet with ⟨row, -, hRow, -⟩ | ⟨-, hNew⟩
  · exact absurd (Db.task?_lt hRow) (Nat.lt_irrefl _)
  · generalize hRow : (Txn.exec settings e (.insertHigherOrder wrapper lower
      ask) db).2.tasks[db.tasks.length] = row at hNew hGet
    cases hNew with
    | wrapper => exact hGet
    | lower _ _ _ hx => omega

theorem tree_exec (hTree : db.Tree) (hGuard : TxnGuard settings strict op k db) :
    (Txn.exec settings e op db).2.Tree where
  rootless := by
    intro x row' hRow' hParent
    rcases row_exec hTree hRow' with ⟨row, _, hRow, -, hStep⟩ | ⟨-, hNew⟩
    · have hSame := hStep.identity
      rw [hSame.root]
      exact hTree.rootless hRow (hSame.parent.symm.trans hParent)
    · cases hNew with
      | plain new ask => exact hGuard.rootless hParent
      | wrapper wrapper lower ask => exact hGuard.placed.rootless hParent
      | lower => cases hParent
  parent := by
    intro x row' p hRow' hParent
    have hLater : db.Later (Txn.exec settings e op db).2 := hGuard.later hTree
    have hPlaced {new : NewTask} (hNew : NewTaskGuard new db) (hNewParent : new.parent = some p) :
        p < db.tasks.length ∧ ∃ prow, (Txn.exec settings e op db).2.task? p = some prow ∧
          new.root = some (prow.root.getD p) := by
      obtain ⟨prow, hProw, hRoot⟩ := hNew.parent p hNewParent
      obtain ⟨prow', hProw', hSame⟩ := hLater.row hProw
      exact ⟨Db.task?_lt hProw, prow', hProw', by rw [hRoot, hSame.identity.root]⟩
    rcases row_exec hTree hRow' with ⟨row, _, hRow, -, hStep⟩ | ⟨-, hNew⟩
    · have hSame := hStep.identity
      obtain ⟨hLt, prow, hProw, hRoot⟩ := hTree.parent hRow (hSame.parent.symm.trans hParent)
      obtain ⟨prow', hProw', hPSame⟩ := hLater.row hProw
      exact ⟨hLt, prow', hProw', by rw [hSame.root, hRoot, hPSame.identity.root]⟩
    · cases hNew with
      | plain new ask hx =>
          obtain ⟨hLt, hRow⟩ := hPlaced hGuard hParent
          exact ⟨hx ▸ hLt, hRow⟩
      | wrapper wrapper lower ask hx =>
          obtain ⟨hLt, hRow⟩ := hPlaced hGuard.placed hParent
          exact ⟨hx ▸ hLt, hRow⟩
      | lower wrapper lower ask hx =>
          cases hParent
          exact ⟨hx ▸ Nat.lt_succ_self _, _, wrapper_row hTree hRow' hx, rfl⟩
  lower := by
    intro x row' hRow' hFlag
    have hLater : db.Later (Txn.exec settings e op db).2 := hGuard.later hTree
    rcases row_exec hTree hRow' with ⟨row, _, hRow, -, hStep⟩ | ⟨-, hNew⟩
    · have hSame := hStep.identity
      obtain ⟨hSchedule, w, wrow, hx, hParent, hWrow, hPlain, hWSchedule, hHigher⟩ :=
        hTree.lower hRow (hSame.isHigherOrderChild.symm.trans hFlag)
      obtain ⟨wrow', hWrow', hWSame⟩ := hLater.row hWrow
      exact ⟨hSame.schedule.trans hSchedule, w, wrow', hx, hSame.parent.trans hParent,
        hWrow', hWSame.identity.isHigherOrderChild.trans hPlain,
        hWSame.identity.schedule.trans hWSchedule,
        (hLater.isHigherOrder hWSame.identity).trans hHigher⟩
    · cases hNew with
      | plain new ask => exact absurd hFlag (by simp [NewTask.row, hGuard.plain])
      | wrapper wrapper lower ask => exact absurd hFlag (by simp [NewTask.row, hGuard.placed.plain])
      | lower wrapper lower ask hx =>
          obtain ⟨i, hImplementation, hHigher⟩ := hGuard.higher
          refine ⟨hGuard.unscheduled.2, db.tasks.length, wrapper.row e.now, hx, rfl,
            wrapper_row hTree hRow' hx, hGuard.placed.plain, hGuard.unscheduled.1, ?_⟩
          simp [Db.isHigherOrder, Db.implementation?, NewTask.row, hLater.implementations,
            hImplementation, hHigher]

theorem absent_inv (hInv : db.Inv strict) (hGuard : TxnGuard settings strict op k db)
    {x : Nat} (hNone : (Txn.exec settings e op db).2.task? x = none) :
    ∀ event ∈ (Txn.exec settings e op db).2.eventsOf x, event.IsMirror ∨ event.IsAsk := by
  have hOld : db.task? x = none := by
    cases hRow : db.task? x with
    | none => rfl
    | some row =>
        obtain ⟨row', hRow', -⟩ := (hGuard.later hInv.tree).row hRow
        rw [hRow'] at hNone
        cases hNone
  obtain ⟨events, hEvents, hNew⟩ := absent_exec settings e op hOld (by
    rintro kind event rfl
    obtain ⟨row, hRow⟩ := hGuard.1
    rw [hOld] at hRow
    cases hRow)
  intro event hEvent
  rw [hEvents] at hEvent
  exact (List.mem_append.mp hEvent).elim (hInv.absent hOld event) (hNew event)

end

end Rekuest
