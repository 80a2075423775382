import Rekuest.Server.Steps

/-!
# What a transaction writes to the log

`taskStep` reads a transaction off one task's row; here it is read off the
events it appends.  An event is written by a transition of an open row, or
without looking at the row of its task: the copies of another task's hold and
decision, a recorded event, and an override.
-/

namespace Rekuest

open Concurrent

/-- The tasks that get a copy of the hold a new task is inserted with. -/
def NewTask.heldWatchers (new : NewTask) : List Nat :=
  match new.held, new.parent, new.root with
  | true, some parent, some root => watchers parent root
  | _, _, _ => []

/-- The tasks onto which a transaction copies the hold of a new task. -/
def mirroredHolds (e : Env) (op : Txn) (db : Db) : List Nat :=
  match op with
  | .insertTask new ask =>
      match (insertTask e db new ask).1 with
      | .created _ => new.heldWatchers
      | _ => []
  | .insertHigherOrder wrapper lower ask =>
      match (insertHigherOrder e db wrapper lower ask).1 with
      | .created _ => wrapper.heldWatchers
      | _ => []
  | _ => []

/-- The tasks onto which a transaction copies a decision. -/
def mirroredDecisions (op : Txn) (db : Db) : List Nat :=
  match op with
  | .decideChild task watchers _ _ _ =>
      if (db.task? task).any fun t => t.latestEventKind == .held && !t.isDone then watchers
      else []
  | _ => []

/-- An event a transaction appends. -/
inductive Appended (e : Env) (op : Txn) (db : Db) (event : TaskEvent) : Prop
  /-- A transition of an open row; into `HELD` only a claim moves. -/
  | moved (row : Task) (hRow : db.task? event.task = some row) (hOpen : row.isDone = false)
      (hHeld : event.kind = .held → ∃ c, op = .claim event.task c ∧ c.toKind = .held ∧
        c.event = some event.event)
  | heldCopy (hKind : event.kind = .held) (hNames : event.event.value.any (·.namesHeld) = true)
      (hWatched : event.task ∈ mirroredHolds e op db)
  | decidedCopy (hKind : event.kind = .decided)
      (hWatched : event.task ∈ mirroredDecisions op db)
  | asked (hAsk : event.IsAsk) (hNew : db.task? event.task = none)
  | recorded (hOp : op = .recordEvent event.task event.kind event.event)
      (hNew : (recordEvent db event.task event.kind event.event).1 = true)
  | overridden (new : NewEvent)
      (hOp : op = .overrideServerOutcome event.task event.kind new)
      (hDone : db.task? event.task ≠ none) (hOverride : event.byOverride = true)

/-- The transaction appends events of that kind only. -/
def Appends (e : Env) (op : Txn) (db db' : Db) : Prop :=
  ∃ events, db'.events = db.events ++ events ∧ ∀ event ∈ events, Appended e op db event

section

variable {settings : Settings} {e : Env} {op : Txn} {db db' : Db} {x : Nat} {row : Task}

theorem appends_same (h : db'.events = db.events) : Appends e op db db' :=
  ⟨[], by rw [h, List.append_nil], by simp⟩

/-- One transition of an open row. -/
theorem appends_write {f : Task → Task} {kind : TaskEventKind} {event : NewEvent}
    (hRow : db.task? x = some row) (hOpen : row.isDone = false)
    (hHeld : kind = .held → ∃ c, op = .claim x c ∧ c.toKind = .held ∧ c.event = some event) :
    Appends e op db ((db.modifyTask x f).insertEvent x kind event) := by
  refine ⟨[{ task := x, kind := kind, event := event }], rfl, fun event' hEvent => ?_⟩
  rw [List.mem_singleton] at hEvent
  subst hEvent
  exact .moved row hRow hOpen hHeld

/-- A recorded event is written as it came, or refused. -/
theorem recordEvent_cases (db : Db) (task : Nat) (kind : TaskEventKind) (event : NewEvent) :
    recordEvent db task kind event = (false, db) ∨
      recordEvent db task kind event = (true, db.insertEvent task kind event) := by
  unfold recordEvent
  split
  · exact .inl rfl
  · exact .inr rfl

theorem appends_recordHeld {new : NewTask}
    (hMirrored : mirroredHolds e op db = new.heldWatchers) (rows : List Task) (ask : Ask) :
    Appends e op db
      (recordHeld { db with tasks := db.tasks ++ rows } db.tasks.length new ask) := by
  unfold recordHeld
  split
  case h_1 parent root hHeld hParent hRoot =>
    rw [recordHeldChild, Db.foldl_insertEvent]
    refine ⟨_, List.append_assoc .., fun event hEvent => ?_⟩
    rcases List.mem_append.mp hEvent with hOwn | hCopy
    · rw [List.mem_singleton] at hOwn
      subst hOwn
      exact .asked ⟨rfl, _, _, _, _, _, rfl⟩ (List.getElem?_eq_none_iff.mpr (Nat.le_refl _))
    · obtain ⟨w, hWatcher, rfl⟩ := List.mem_map.mp hCopy
      refine .heldCopy rfl rfl ?_
      rw [hMirrored, NewTask.heldWatchers, hHeld, hParent, hRoot]
      exact hWatcher
  case h_2 => exact appends_same rfl

theorem appends_decideChild {task : Nat} {watchers : List Nat} {approved : Bool}
    {answer : Option String} {decided : EventValue} :
    Appends e (.decideChild task watchers approved answer decided) db
      (decideChild e db task watchers approved answer decided).2 := by
  by_cases hHeld : (db.task? task).any fun t => t.latestEventKind == .held && !t.isDone
  case neg =>
    simp only [decideChild, hHeld]
    exact appends_same rfl
  case pos =>
    obtain ⟨event, copy, outcome, -, -, hEvents⟩ :=
      decideChild_events e watchers approved answer decided hHeld
    obtain ⟨row, hRow, hOpen⟩ := Option.any_eq_true _ _ |>.mp hHeld
    simp only [Bool.and_eq_true, Bool.not_eq_true'] at hOpen
    refine ⟨_, hEvents, fun event' hEvent => ?_⟩
    simp only [List.cons_append, List.mem_cons, List.mem_append, List.mem_map,
      List.not_mem_nil, or_false] at hEvent
    rcases hEvent with rfl | ⟨w, hWatcher, rfl⟩ | rfl
    · exact .moved row hRow hOpen.2 (by simp)
    · refine .decidedCopy rfl ?_
      simp only [mirroredDecisions, hHeld, if_true]
      exact hWatcher
    · refine .moved row hRow hOpen.2 fun hKind => ?_
      cases approved <;> cases hKind

/-- Settling writes on the settled children only: their lower children get no
event. -/
theorem foldl_settleHeldChild_events (now : Int) (db : Db) (children : List Nat) :
    ∃ events, (children.foldl (settleHeldChild now) db).events = db.events ++ events ∧
      ∀ event ∈ events, event.task ∈ children ∧ event.kind = .cancelled := by
  induction children generalizing db with
  | nil => exact ⟨[], by simp, by simp⟩
  | cons y rest ih =>
      obtain ⟨event, -, hEq⟩ := settleHeldChild_eq db now y
      have hOne : (settleHeldChild now db y).events =
          db.events ++ [{ task := y, kind := .cancelled, event := event }] := by
        rw [hEq]
        split <;> rfl
      obtain ⟨events, hEvents, hRest⟩ := ih (settleHeldChild now db y)
      refine ⟨{ task := y, kind := .cancelled, event := event } :: events, ?_, ?_⟩
      · rw [List.foldl_cons, hEvents, hOne, List.append_assoc, List.singleton_append]
      · intro event' hEvent
        rcases List.mem_cons.mp hEvent with rfl | hLater
        · exact ⟨List.mem_cons_self, rfl⟩
        · have ⟨hTask, hKind⟩ := hRest event' hLater
          exact ⟨List.mem_cons_of_mem _ hTask, hKind⟩

theorem appends_settleHeldChildren (p : Nat) :
    Appends e (.settleHeldChildren p) db (settleHeldChildren e db p) := by
  obtain ⟨events, hEvents, hWrote⟩ := foldl_settleHeldChild_events e.now db
    (heldChildren e.locked db p)
  refine ⟨events, hEvents, fun event hEvent => ?_⟩
  obtain ⟨hTask, hKind⟩ := hWrote event hEvent
  obtain ⟨⟨row, hRow, -, hWaiting⟩, -⟩ := mem_heldChildren.mp hTask
  simp only [Task.isWaitingHeld, Bool.and_eq_true, Bool.not_eq_true'] at hWaiting
  refine .moved row hRow hWaiting.1.1.2 fun hHeld => ?_
  rw [hKind] at hHeld
  cases hHeld

theorem appends_controlTarget {target : Nat} {control : Control} {caller : Option Nat}
    {interruptAt : Option Int} : Appends e (.controlTarget target control caller interruptAt) db
      (controlTarget e db target control caller interruptAt).2 := by
  simp only [controlTarget]
  split
  case h_1 => exact appends_same rfl
  case h_2 row hRow =>
    split
    case isTrue => exact appends_same rfl
    case isFalse hOpen =>
      rw [Bool.not_eq_true] at hOpen
      split
      case h_1 outcome hOutcome _ =>
        obtain ⟨event, -, hEq⟩ := settleTarget_eq db e.now target row
          control.instructKind outcome
        rw [hEq]
        have hWrite : Appends e (.controlTarget target control caller interruptAt) db
            ((db.modifyTask target (Task.settledBy e.now control.instructKind outcome)).insertEvent
              target outcome event) := by
          refine appends_write hRow hOpen ?_
          rintro rfl
          cases control <;> cases hOutcome
        split
        · rw [settleHeldLower]
          split <;> exact hWrite
        · exact hWrite
      case h_2 =>
        refine appends_write hRow hOpen ?_
        intro hKind
        cases control <;> cases hKind

/-- **Inversion** of a transaction by what it appends to the log. -/
theorem appends_exec (settings : Settings) (e : Env) (op : Txn) (db : Db) :
    Appends e op db (Txn.exec settings e op db).2 := by
  cases op with
  | query α read => exact appends_same rfl
  | stampPickup task => exact appends_same rfl
  | recordEvent task kind event =>
      simp only [Txn.exec]
      rcases recordEvent_cases db task kind event with hRefused | hRecorded
      · rw [hRefused]
        exact appends_same rfl
      · rw [hRecorded]
        refine ⟨[_], rfl, fun event' hEvent => ?_⟩
        rw [List.mem_singleton] at hEvent
        subst hEvent
        exact .recorded rfl (by rw [hRecorded])
  | claim task c =>
      simp only [Txn.exec]
      rcases claimTask_cases e db task c with hLost | ⟨row, hRow, hAdmits, hWon⟩
      · rw [hLost]
        exact appends_same rfl
      · rw [hWon]
        cases hEvent : c.event with
        | none => exact appends_same rfl
        | some event =>
            exact appends_write hRow (Claim.admits_open hAdmits).1
              fun hKind => ⟨c, rfl, hKind, hEvent⟩
  | settleHeldChildren p => exact appends_settleHeldChildren p
  | overrideServerOutcome task kind event =>
      simp only [Txn.exec, overrideServerOutcome]
      split
      case isTrue => exact appends_same rfl
      case isFalse hDone =>
        split
        · exact appends_same rfl
        · split
          · exact appends_same rfl
          · refine ⟨[_], rfl, fun event' hEvent => ?_⟩
            rw [List.mem_singleton] at hEvent
            subst hEvent
            refine .overridden event rfl (fun hNone => ?_) rfl
            have hNone : db.task? task = none := hNone
            simp [hNone] at hDone
  | decideChild task watchers approved answer decided => exact appends_decideChild
  | controlTarget target control caller interruptAt => exact appends_controlTarget
  | insertTask new ask =>
      have hMirrored (task : Nat) (hCreated : (insertTask e db new ask).1 = .created task) :
          mirroredHolds e (.insertTask new ask) db = new.heldWatchers := by
        simp only [mirroredHolds, hCreated]
      revert hMirrored
      simp only [Txn.exec, insertTask]
      split
      · exact fun _ => appends_same rfl
      · split
        · exact fun _ => appends_same rfl
        · exact fun hMirrored => appends_recordHeld (hMirrored _ rfl) _ ask
  | insertHigherOrder wrapper lower ask =>
      have hMirrored (task : Nat)
          (hCreated : (insertHigherOrder e db wrapper lower ask).1 = .created task) :
          mirroredHolds e (.insertHigherOrder wrapper lower ask) db =
            wrapper.heldWatchers := by
        simp only [mirroredHolds, hCreated]
      revert hMirrored
      simp only [Txn.exec, insertHigherOrder]
      split
      · exact fun _ => appends_same rfl
      · split
        · exact fun _ => appends_same rfl
        · exact fun hMirrored => appends_recordHeld (hMirrored _ rfl) _ ask
  | getCaller caller =>
      simp only [Txn.exec, getCaller]
      split <;> exact appends_same rfl
  | decideUnpicked task cutoff =>
      simp only [Txn.exec, decideUnpicked]
      split
      case h_1 => exact appends_same rfl
      case h_2 row hRow =>
        split
        case isTrue => exact appends_same rfl
        case isFalse hUnpicked =>
          simp only [Task.isUnpicked, Bool.or_eq_true, Bool.not_eq_true', not_or,
            Bool.not_eq_false, Bool.and_eq_true] at hUnpicked
          have hOpen := hUnpicked.2.1.1.1.1
          split
          case h_1 kind message hOutcome =>
            refine appends_write hRow hOpen ?_
            rintro rfl
            rcases unpickedOutcome_kind hOutcome with h | h | h <;> cases h
          case h_2 => exact appends_write hRow hOpen (by intro hKind; cases hKind)
  | claimDue task =>
      simp only [Txn.exec, claimDue]
      split
      case h_1 => exact appends_same rfl
      case h_2 row hRow =>
        split
        case isTrue => exact appends_same rfl
        case isFalse hDue =>
          simp only [Bool.or_eq_true, Bool.not_eq_true', not_or, Bool.not_eq_false,
            Bool.not_eq_true] at hDue
          split
          · exact appends_write hRow hDue.1.1.2 (by intro hKind; cases hKind)
          · exact appends_same rfl
  | recordUndelivered task => exact appends_same rfl
  | clearDeadline task deadline => exact appends_same rfl
  | setDeadline task at' => exact appends_same rfl
  | forgetDispatches agent => exact appends_same rfl
  | restartPickupClock agent => exact appends_same rfl
  | moveRunToNow schedule allowsOverlap =>
      simp only [Txn.exec, moveRunToNow]
      split
      · exact appends_same rfl
      · split <;> exact appends_same rfl
  | claimLease agent connection session force => exact appends_same Db.onLease_events
  | releaseLease agent connection => exact appends_same Db.onLease_events
  | renewLease agent connection => exact appends_same Db.onLease_events
  | revokeLease agent => exact appends_same Db.onLease_events
  | deliver agent frame =>
      simp only [Txn.exec]
      split <;> exact appends_same rfl

/-- The further events of one task. -/
theorem eventsOf_exec (settings : Settings) (e : Env) (op : Txn) (db : Db) (x : Nat) :
    ∃ events, (Txn.exec settings e op db).2.eventsOf x = db.eventsOf x ++ events ∧
      ∀ event ∈ events, event.task = x ∧ Appended e op db event := by
  obtain ⟨events, hEvents, hAppended⟩ := appends_exec settings e op db
  refine ⟨events.filter (·.task == x), ?_, fun event hEvent => ?_⟩
  · rw [Db.eventsOf, hEvents, List.filter_append]
    rfl
  · obtain ⟨hMem, hTask⟩ := List.mem_filter.mp hEvent
    exact ⟨by simpa using hTask, hAppended event hMem⟩

/-- The further events of a task without a row: only copies, and the `HELD`
event it is inserted with. -/
theorem absent_exec (settings : Settings) (e : Env) (op : Txn) (hNone : db.task? x = none)
    (hRecord : ∀ kind event, op ≠ .recordEvent x kind event) :
    ∃ events, (Txn.exec settings e op db).2.eventsOf x = db.eventsOf x ++ events ∧
      ∀ event ∈ events, event.IsMirror ∨ event.IsAsk := by
  obtain ⟨events, hEvents, hAppended⟩ := eventsOf_exec settings e op db x
  refine ⟨events, hEvents, fun event hEvent => ?_⟩
  obtain ⟨rfl, hNew⟩ := hAppended event hEvent
  cases hNew with
  | moved row hRow =>
      rw [hNone] at hRow
      cases hRow
  | heldCopy hKind hNames => exact .inl (.inr ⟨hKind, hNames⟩)
  | decidedCopy hKind => exact .inl (.inl hKind)
  | asked hAsk => exact .inr hAsk
  | recorded hOp => exact absurd hOp (hRecord _ _)
  | overridden new hOp hDone => exact absurd hNone hDone

end

end Rekuest
