import Rekuest.Server.Finality

/-!
# A hold is answered as the hold it is

`decide` chooses between its two protocols by the newest `HELD` event of the
task, but another task's hold is mirrored onto it, and its own hold may come
while it still waits for a decision.  Where neither happens, a child that waits
is answered as one, and a task that was handed over is only told what was
decided.
-/

namespace Rekuest

open Concurrent

/-- The value of a task's newest `HELD` event that is not a copy of another
task's. -/
def newestOwnHeld (db : Db) (task : Nat) : Option EventValue :=
  ((db.eventsOf task).filter fun event =>
    event.kind == .held && !event.event.value.any (·.namesHeld)).getLast?.bind
      (·.event.value)

/-- A decision on a child is not taken while the task's own newest hold is its
own, and no child holds itself while it waits for its decision. -/
def holdsApart (_ : Env) (op : Txn) (db : Db) : Bool :=
  match op with
  | .decideChild task .. => (db.task? task).all fun row =>
      row.latestEventKind != .held || row.isDone ||
        !(newestOwnHeld db task).any (·.isSelf)
  | .claim task c => (db.task? task).all fun row =>
      c.toKind != .held || !c.admits row || !row.undecided
  | _ => true

/-- The steps that keep the two kinds of holds apart. -/
def HoldsApart : ServerConfig → Choice Env Request → Prop :=
  Machine.onStep fun e op db => holdsApart e op db = true

instance (c : ServerConfig) (a : Choice Env Request) : Decidable (HoldsApart c a) :=
  inferInstanceAs (Decidable (Machine.onStep _ c a))

/-- The step answers the task as a child that waits for its decision. -/
def AnsweredAsChild (c : ServerConfig) (a : Choice Env Request) (x : Nat) : Prop :=
  (∃ watchers approved answer decided,
    Runs c a (.decideChild x watchers approved answer decided)) ∧
  ∃ row, c.state.task? x = some row ∧ row.latestEventKind = .held ∧ row.isDone = false

/-- The step answers the task's own hold. -/
def AnsweredAsSelf (c : ServerConfig) (a : Choice Env Request) (x : Nat) : Prop :=
  ∃ i e cl k, a = .step i e ∧ c.threads[i]? = some (.act (.claim x cl) k) ∧
    cl.toKind = .decided ∧ (claimTask e c.state x cl).1 = true

/-- The step leaves the task open as `DECIDED`, as often dispatched as before,
and its thread goes on to tell the task's agent. -/
def TellsAgent (a : Choice Env Request) (c' : ServerConfig) (x : Nat) (row : Task) : Prop :=
  (∃ row', c'.state.task? x = some row' ∧ row'.latestEventKind = .decided ∧
    row'.isDone = false ∧ row'.dispatchAttempts = row.dispatchAttempts) ∧
  ∃ i e approved answer auto values k, a = .step i e ∧
    c'.threads[i]? = some (.act (.deliver row.agent (.decide x approved answer auto values)) k)

/-! ## The invariant -/

/-- What the events of a task say of its hold. -/
structure Db.HoldsTold (db : Db) : Prop where
  /-- A child that waits for its decision never held itself. -/
  waiting : ∀ x row, db.task? x = some row → row.undecided = true → ¬ db.SelfHeld x
  /-- A task that waits for none and is held holds itself. -/
  self : ∀ x row, db.task? x = some row → row.undecided = false →
    row.latestEventKind = .held → (newestOwnHeld db x).any (·.isSelf) = true

section

variable {settings : Settings} {e : Env} {op : Txn} {k : op.Res → Program Unit}
variable {db : Db} {x : Nat} {row row' : Task} {events : List TaskEvent}

/-- Copies of other tasks' holds leave the newest own one. -/
theorem newestOwnHeld_append {db' : Db} (hEvents : db'.eventsOf x = db.eventsOf x ++ events)
    (hNone : ∀ event ∈ events, event.kind = .held → event.event.value.any (·.namesHeld) = true) :
    newestOwnHeld db' x = newestOwnHeld db x := by
  have hNil : (events.filter fun event =>
      event.kind == .held && !event.event.value.any (·.namesHeld)) = [] := by
    rw [List.filter_eq_nil_iff]
    intro event hEvent
    simp only [Bool.and_eq_true, beq_iff_eq, Bool.not_eq_true', not_and, Bool.not_eq_false]
    exact hNone event hEvent
  rw [newestOwnHeld, hEvents, List.filter_append, hNil, List.append_nil]
  rfl

theorem newestOwnHeld_self {db' : Db} {event : TaskEvent} {value : EventValue}
    (hEvents : db'.eventsOf x = db.eventsOf x ++ [event]) (hKind : event.kind = .held)
    (hValue : event.event.value = some value) (hSelf : value.isSelf = true) :
    newestOwnHeld db' x = some value := by
  have hOwn : value.namesHeld = false := by
    cases value <;> first | rfl | cases hSelf
  rw [newestOwnHeld, hEvents, List.filter_append, List.filter_cons_of_pos (by
    simp [hKind, hValue, hOwn])]
  simp [hValue]

/-- **Step lemma**: a held task that waits for no decision holds itself. -/
theorem self_step (hGuard : TxnGuard settings False op k db)
    (hTold : row.undecided = false → row.latestEventKind = .held →
      (newestOwnHeld db x).any (·.isSelf) = true)
    (hBecomes : db.Becomes (Txn.exec settings e op db).2 x row' events)
    (hStep : TaskStep e db x row op row' events) (hDecided : row'.undecided = false)
    (hHeld : row'.latestEventKind = .held) :
    (newestOwnHeld (Txn.exec settings e op db).2 x).any (·.isSelf) = true := by
  -- most steps write no `HELD` event of the task's own
  have hKeep (hNone : ∀ event ∈ events, event.kind = .held →
      event.event.value.any (·.namesHeld) = true) (hOld : row.undecided = false)
      (hOldHeld : row.latestEventKind = .held) :
      (newestOwnHeld (Txn.exec settings e op db).2 x).any (·.isSelf) = true := by
    rw [newestOwnHeld_append hBecomes.2 hNone]
    exact hTold hOld hOldHeld
  cases hStep with
  | same op events hMirror =>
      refine hKeep (fun event hEvent hKind => ?_) hDecided hHeld
      exact (hMirror event hEvent).elim (fun h => by rw [h] at hKind; cases hKind) (·.2)
  | stamped | dated | movedToNow | dueDispatched =>
      exact hKeep (fun event hEvent => by cases hEvent) hDecided hHeld
  | recorded kind event =>
      refine hKeep (fun event hEvent hKind => ?_) hDecided hHeld
      rw [List.mem_singleton] at hEvent
      subst hEvent
      exact absurd hKind hGuard.2.2
  | instructed control =>
      refine hKeep (fun event hEvent hKind => ?_) hDecided hHeld
      rw [List.mem_singleton] at hEvent
      subst hEvent
      cases control <;> cases hKind
  | redelivered =>
      refine hKeep (fun event hEvent hKind => ?_) hDecided hHeld
      rw [List.mem_singleton] at hEvent
      subst hEvent
      cases hKind
  | claimed c hAdmits =>
      rw [Claim.move_kind] at hHeld
      obtain ⟨-, event, hEvent, hSelf⟩ := hGuard.held hHeld
      obtain ⟨value, hValue, hSelf⟩ := Option.any_eq_true _ _ |>.mp hSelf
      simp only [hEvent, Option.toList_some, List.map_cons, List.map_nil] at hBecomes
      rw [newestOwnHeld_self hBecomes.2 hHeld hValue hSelf, Option.any_some, hSelf]
  | overridden kind =>
      have hKind : kind = .held := hHeld
      have hTerminal := hGuard.1
      rw [hKind] at hTerminal
      cases hTerminal
  | controlSettled control _ _ outcome hOutcome =>
      have hKind : outcome = .held := hHeld
      cases control <;> cases hOutcome <;> cases hKind
  | lowerSettled _ _ control _ _ outcome hOutcome =>
      have hKind : outcome = .held := hHeld
      cases control <;> cases hOutcome <;> cases hKind
  | unpicked _ _ _ _ hKind =>
      rcases hKind with rfl | rfl | rfl <;> cases hHeld
  | approved | denied | lowerApproved | lowerDenied | settledChild | settledLower
  | dueFinalized => cases hHeld

/-- **Step lemma** -/
theorem told_exec (hInv : db.Inv False) (hGuard : TxnGuard settings False op k db)
    (hApart : holdsApart e op db = true) (hTold : db.HoldsTold) :
    (Txn.exec settings e op db).2.HoldsTold where
  waiting := by
    intro x row' hRow' hUndecided hSelf
    rcases selfHeld_exec hInv.tree hGuard hSelf with hOld | ⟨c, row, rfl, hKind, hRow, hAdmits⟩
    · rcases row_exec hInv.tree hRow' with ⟨row, events, hRow, -, hStep⟩ | ⟨hNone, -⟩
      · refine hTold.waiting x row hRow ?_ hOld
        rw [← Bool.not_eq_false]
        intro hAnswered
        have hLater := hStep.later fun kind event hOp => hGuard.override_notLost x kind event hOp
        rw [hLater.answered hAnswered] at hUndecided
        cases hUndecided
      · obtain ⟨event, hEvent, hKind, hValue⟩ := hOld
        rcases hInv.absent hNone event hEvent with (hDecided | ⟨-, hNames⟩) | ⟨-, hAsk⟩
        · rw [hDecided] at hKind
          cases hKind
        · cases hVal : event.event.value with
          | none => simp [hVal] at hValue
          | some value => cases value <;> simp_all [EventValue.namesHeld, EventValue.isSelf]
        · obtain ⟨_, _, _, _, _, hVal⟩ := hAsk
          simp [hVal, EventValue.isSelf] at hValue
    · have hAnswered : row.undecided = false := by
        simpa [holdsApart, hRow, hKind, hAdmits] using hApart
      obtain ⟨row'', hRow'', hLater⟩ := (hGuard.later hInv.tree).row hRow
      rw [hRow'', Option.some.injEq] at hRow'
      subst hRow'
      rw [hLater.answered hAnswered] at hUndecided
      cases hUndecided
  self := by
    intro x row' hRow' hAnswered hHeld
    cases hRow : db.task? x with
    | some row =>
        obtain ⟨row'', events, hBecomes, hStep⟩ := taskStep settings e op hInv.tree hRow
        rw [hBecomes.1, Option.some.injEq] at hRow'
        subst hRow'
        exact self_step hGuard (hTold.self x row hRow) hBecomes hStep hAnswered hHeld
    | none =>
        have hNew := newRow settings e op hRow hRow'
        cases hNew <;> simp_all [NewTask.row]

end

section

variable {settings : Settings} {C : ServerConfig → Choice Env Request → Prop}
variable {c₀ c c' : ServerConfig} {a : Choice Env Request}

/-- **Run lemma** -/
theorem told_run (hInit : Initial c₀) (hC : ∀ c a, C c a → HoldsApart c a)
    (hRun : (server settings).Run C c₀ c) : c.state.HoldsTold :=
  state_run hInit hC hRun
    (fun _ hFresh => ⟨fun _ _ hRow => absurd hRow hFresh.not_row,
      fun _ _ hRow => absurd hRow hFresh.not_row⟩)
    fun _ _ _ _ hInv hGuard hApart hTold => told_exec hInv hGuard hApart hTold

end

/-! ## Runs on the small site -/

/-- The claim or the decision a thread is about to take. -/
def nextClaim (c : ServerConfig) (thread : Nat) : Option (Nat × Claim) :=
  match c.threads[thread]? with
  | some (.act (.claim x cl) _) => some (x, cl)
  | _ => none

theorem nextClaim_some {c : ServerConfig} {thread x : Nat} {cl : Claim}
    (h : nextClaim c thread = some (x, cl)) :
    ∃ k, c.threads[thread]? = some (.act (.claim x cl) k) := by
  unfold nextClaim at h
  split at h
  case h_1 y cl' k hHead =>
    cases h
    exact ⟨k, hHead⟩
  case h_2 => cases h

def nextDecision (c : ServerConfig) (thread : Nat) : Option Nat :=
  match c.threads[thread]? with
  | some (.act (.decideChild x ..) _) => some x
  | _ => none

theorem nextDecision_some {c : ServerConfig} {thread x : Nat}
    (h : nextDecision c thread = some x) : ∃ watchers approved answer decided k,
      c.threads[thread]? = some (.act (.decideChild x watchers approved answer decided) k) := by
  unfold nextDecision at h
  split at h
  case h_1 y watchers approved answer decided k hHead =>
    cases h
    exact ⟨watchers, approved, answer, decided, k, hHead⟩
  case h_2 => cases h

/-- Agent 0 holds task 0; a person is about to answer that. -/
def holdThenAnswer : List (Choice Env Request) :=
  assignRoot ++
    Request.alone (.report 0 { task := 0, report := .held none none none none }) 1 4 ++
    Request.alone (.decide { person with client := 10 } 0 true none none true) 2 1

/-- Agent 0 holds task 0 and then asks for a child, whose hold is mirrored onto
task 0; a person is about to answer task 0. -/
def holdThenAskThenAnswer : List (Choice Env Request) :=
  assignRoot ++
    Request.alone (.report 0 { task := 0, report := .held none none none none }) 1 4 ++
    Request.alone (.callerAssign 0 {
      implementation := some 1
      parent := some 0
      fresh := "child"
      freshLower := "" } true) 2 9 ++
    Request.alone (.decide { person with client := 10 } 0 true none none true) 3 1

end Rekuest
