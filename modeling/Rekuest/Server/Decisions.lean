import Rekuest.Concurrent.Beside
import Rekuest.Server.Answers

/-!
# A decision answers the hold it was checked against

`decide` reads the newest `HELD` event of a task and checks the values against
it; a later transaction answers the task when it is still `HELD`.  The call is
followed beside everything else: what it checked is the hold the task was in
when it was read, where no other task's hold hides that, and it is the hold that
is answered, where the task was not answered and held anew in between.
-/

namespace Rekuest

open Concurrent

/-- What a hold asks of its answer: whether it is the task's own, and the blok
the answer goes through. -/
def holdAsks (held : Option EventValue) : Bool × Option Nat :=
  (held.any (·.isSelf), held.bind (·.blok))

/-- The `HELD` events of a task that are not copies of another task's. -/
def ownHolds (db : Db) (x : Nat) : List TaskEvent :=
  (db.eventsOf x).filter fun event =>
    event.kind == .held && !event.event.value.any (·.namesHeld)

/-- The task whose hold a transaction answers, and the decision it records. -/
def answered (e : Env) (op : Txn) (db : Db) : Option (Nat × Option EventValue) :=
  match op with
  | .claim x c =>
      if c.toKind == .decided && (claimTask e db x c).1 then
        some (x, c.event.bind (·.value))
      else none
  | .decideChild x watchers approved answer decided =>
      if (decideChild e db x watchers approved answer decided).1.isSome then
        some (x, some decided)
      else none
  | _ => none

/-- The step answers the hold of the task. -/
def AnswersHold (c : ServerConfig) (a : Choice Env Request) (x : Nat) : Prop :=
  ∃ i e op k, a = .step i e ∧ c.threads[i]? = some (.act op k) ∧
    (answered e op c.state).map Prod.fst = some x

/-- No hold is copied onto a task that is itself held. -/
def holdsUnhidden (e : Env) (op : Txn) (db : Db) : Bool :=
  (mirroredHolds e op db).all fun task =>
    (db.task? task).all (·.latestEventKind != .held)

/-- The steps at which no hold is hidden behind another task's. -/
def HoldsUnhidden : ServerConfig → Choice Env Request → Prop :=
  Machine.onStep fun e op db => holdsUnhidden e op db = true

instance (c : ServerConfig) (a : Choice Env Request) : Decidable (HoldsUnhidden c a) :=
  inferInstanceAs (Decidable (Machine.onStep _ c a))

/-- A call of `decide` beside moves of others that meet a condition. -/
abbrev Decides (settings : Settings) (C : ServerConfig → Choice Env Request → Prop)
    (principal : Principal) (x : Nat) (approved : Bool) (answer values : Option String)
    (valuesFit : Bool) (c : ServerConfig)
    (trace : List (Moment Env Db Txn)) (c' : ServerConfig) : Prop :=
  Beside (machine settings) ((machine settings).othersMeeting C)
    (decide principal x approved answer values valuesFit) c trace () c'

/-! ## The holds of a task -/

section

variable {settings : Settings} {e : Env} {op : Txn} {k : op.Res → Program Unit}
variable {db db' : Db} {x : Nat} {row row' : Task} {events : List TaskEvent}

theorem newestOwnHeld_eq : newestOwnHeld db x =
    (ownHolds db x).getLast?.bind (·.event.value) := rfl

theorem ownHolds_append (hEvents : db'.eventsOf x = db.eventsOf x ++ events) :
    ownHolds db' x = ownHolds db x ++ events.filter fun event =>
      event.kind == .held && !event.event.value.any (·.namesHeld) := by
  rw [ownHolds, hEvents, List.filter_append]
  rfl

/-- A task comes to be held by holding itself. -/
theorem held_step (hGuard : TxnGuard settings False op k db)
    (hStep : TaskStep e db x row op row' events) (hHeld : row'.latestEventKind = .held) :
    row.latestEventKind = .held ∨ (∃ c, op = .claim x c) ∧ ∃ event ∈ events,
      event.kind = .held ∧ event.event.value.any (·.namesHeld) = false := by
  cases hStep with
  | same | stamped | dated | movedToNow | recorded | instructed | redelivered
  | dueDispatched => exact .inl hHeld
  | claimed c hAdmits =>
      rw [Claim.move_kind] at hHeld
      obtain ⟨-, event, hEvent, hSelf⟩ := hGuard.held hHeld
      obtain ⟨value, hValue, hSelf⟩ := Option.any_eq_true _ _ |>.mp hSelf
      refine .inr ⟨⟨c, rfl⟩, _, by simp [hEvent]; rfl, hHeld, ?_⟩
      rw [hValue]
      cases value <;> first | rfl | cases hSelf
  | overridden kind =>
      have hKind : kind = .held := hHeld
      have hTerminal := hGuard.1
      rw [hKind] at hTerminal
      cases hTerminal
  | controlSettled control _ _ outcome hOutcome =>
      have hKind : outcome = .held := hHeld
      cases control <;> cases hOutcome <;> cases hKind
  | lowerSettled _ _ control _ _ outcome hOutcome =>
      have hKind : outcome = .held := hHeld
      cases control <;> cases hOutcome <;> cases hKind
  | unpicked _ _ _ _ hKind =>
      rcases hKind with rfl | rfl | rfl <;> cases hHeld
  | approved | denied | lowerApproved | lowerDenied | settledChild | settledLower
  | dueFinalized => cases hHeld

/-- A task that is answered was held, and is not any more. -/
theorem answered_held (hGuard : TxnGuard settings False op k db)
    (hAnswered : (answered e op db).map Prod.fst = some x) :
    (∃ row, db.task? x = some row ∧ row.latestEventKind = .held) ∧
    ∃ row', (Txn.exec settings e op db).2.task? x = some row' ∧
      row'.latestEventKind ≠ .held := by
  obtain ⟨⟨y, decided⟩, hSome, rfl⟩ := Option.map_eq_some_iff.mp hAnswered
  unfold answered at hSome
  split at hSome
  case h_1 y' c =>
    split at hSome
    case isFalse => cases hSome
    case isTrue hWon =>
      cases hSome
      simp only [Bool.and_eq_true, beq_iff_eq] at hWon
      rcases claimTask_cases e db y c with hLost | ⟨row, hRow, hAdmits, hEq⟩
      · rw [hLost] at hWon
        cases hWon.2
      · refine ⟨⟨row, hRow, ?_⟩, c.move e.now row, ?_, ?_⟩
        · exact (hGuard.decided hWon.1).2.2.1 row (Claim.admits_open hAdmits).2
        · simp only [Txn.exec, hEq]
          cases c.event <;> simp [hRow]
        · rw [Claim.move_kind, hWon.1]
          intro hKind'
          cases hKind'
  case h_2 y' watchers approved answer decided' =>
    split at hSome
    case isFalse => cases hSome
    case isTrue hTaken =>
      cases hSome
      have hHeld : (db.task? y).any (fun t => t.latestEventKind == .held && !t.isDone) =
          true := by
        rw [← Bool.not_eq_false]
        intro hNot
        simp [decideChild, hNot] at hTaken
      obtain ⟨row, hRow, hKind⟩ := Option.any_eq_true _ _ |>.mp hHeld
      simp only [Bool.and_eq_true, beq_iff_eq] at hKind
      refine ⟨⟨row, hRow, hKind.1⟩, ?_⟩
      cases approved with
      | true =>
          have hNew := decideChild_approved_row e hRow watchers answer decided' hHeld
          rw [if_pos (.inl rfl)] at hNew
          exact ⟨_, hNew, by intro hKind'; cases hKind'⟩
      | false =>
          have hNew := decideChild_denied_row e hRow watchers answer decided' hHeld
          rw [if_pos (.inl rfl)] at hNew
          exact ⟨_, hNew, by intro hKind'; cases hKind'⟩
  case h_3 => cases hSome

/-! ## What hides a hold -/

/-- The newest `HELD` event of a held task is its own. -/
structure Db.HoldsSeen (db : Db) : Prop where
  absent : ∀ {x}, db.task? x = none → ∀ event ∈ db.eventsOf x, event.kind = .held →
    event.event.value.any (·.namesHeld) = false
  newest : ∀ {x row}, db.task? x = some row → row.latestEventKind = .held →
    newestHeld db x = newestOwnHeld db x

/-- Holds are copied onto tasks that are there. -/
theorem mirroredHolds_exist (hTree : db.Tree) (hGuard : TxnGuard settings False op k db)
    (hx : x ∈ mirroredHolds e op db) : db.Exists x := by
  have hPlaced {new : NewTask} (hNew : NewTaskGuard new db) (hx : x ∈ new.heldWatchers) :
      db.Exists x := by
    unfold NewTask.heldWatchers at hx
    split at hx
    case h_1 parent root _ hParent hRoot =>
      obtain ⟨prow, hProw, hEq⟩ := hNew.parent parent hParent
      rw [hRoot, Option.some.injEq] at hEq
      have hRootRow : db.Exists root := by
        cases hPRoot : prow.root with
        | none =>
            rw [hEq, hPRoot]
            exact ⟨prow, hProw⟩
        | some r =>
            obtain ⟨rrow, hRrow, -⟩ := hTree.root_of_root hProw hPRoot
            rw [hEq, hPRoot]
            exact ⟨rrow, hRrow⟩
      have hMem : x = parent ∨ x = root := by
        unfold watchers at hx
        split at hx
        · exact .inl (by simpa using hx)
        · simpa using hx
      rcases hMem with rfl | rfl
      · exact ⟨prow, hProw⟩
      · exact hRootRow
    case h_2 => cases hx
  unfold mirroredHolds at hx
  split at hx
  case h_1 new ask =>
    split at hx
    · exact hPlaced hGuard hx
    · cases hx
  case h_2 wrapper lower ask =>
    split at hx
    · exact hPlaced hGuard.placed hx
    · cases hx
  case h_3 => cases hx

/-- What is appended to a task as `HELD`, but for copies, is its own. -/
theorem own_of_appended {event : TaskEvent} (hGuard : TxnGuard settings False op k db)
    (hNew : Appended e op db event) (hKind : event.kind = .held)
    (hNot : event.task ∉ mirroredHolds e op db) :
    event.event.value.any (·.namesHeld) = false := by
  cases hNew with
  | moved row hRow hOpen hHeld =>
      obtain ⟨c, rfl, hClaim, hEvent⟩ := hHeld hKind
      obtain ⟨-, event', hEvent', hSelf⟩ := hGuard.held hClaim
      rw [hEvent, Option.some.injEq] at hEvent'
      obtain ⟨value, hValue, hSelf⟩ := Option.any_eq_true _ _ |>.mp hSelf
      rw [hEvent', hValue]
      cases value <;> first | rfl | cases hSelf
  | heldCopy _ _ hWatched => exact absurd hWatched hNot
  | decidedCopy hDecided =>
      rw [hDecided] at hKind
      cases hKind
  | asked hAsk =>
      obtain ⟨-, prompt, action, agent, parent, callerAgent, hValue⟩ := hAsk
      rw [hValue]
      rfl
  | recorded hOp =>
      subst hOp
      exact absurd hKind hGuard.2.2
  | overridden new hOp =>
      subst hOp
      have hTerminal := hGuard.1
      rw [hKind] at hTerminal
      cases hTerminal

theorem filter_own (hOwn : ∀ event ∈ events, event.kind = .held →
    event.event.value.any (·.namesHeld) = false) :
    (events.filter fun event => event.kind == .held && !event.event.value.any (·.namesHeld)) =
      events.filter (·.kind == .held) := by
  refine List.filter_congr fun event hEvent => ?_
  by_cases hKind : event.kind = .held
  · simp [hKind, hOwn event hEvent hKind]
  · simp [hKind]

theorem newest_own (hOwn : ∀ event ∈ db.eventsOf x, event.kind = .held →
    event.event.value.any (·.namesHeld) = false) : newestHeld db x = newestOwnHeld db x := by
  rw [newestHeld, newestOwnHeld, filter_own hOwn]

/-- Own holds after own holds: the newest of all is the newest own one. -/
theorem newest_append (hEvents : db'.eventsOf x = db.eventsOf x ++ events)
    (hOwn : ∀ event ∈ events, event.kind = .held →
      event.event.value.any (·.namesHeld) = false)
    (hOld : newestHeld db x = newestOwnHeld db x ∨ ∃ event ∈ events, event.kind = .held) :
    newestHeld db' x = newestOwnHeld db' x := by
  rw [newestOwnHeld_eq, ownHolds_append hEvents, newestHeld, hEvents, List.filter_append,
    filter_own hOwn]
  cases hNew : (events.filter (·.kind == .held)).getLast? with
  | some last =>
      rw [List.getLast?_append, List.getLast?_append, hNew]
      rfl
  | none =>
      rw [List.getLast?_eq_none_iff] at hNew
      rw [hNew, List.append_nil, List.append_nil]
      rcases hOld with hOld | ⟨event, hEvent, hKind⟩
      · exact hOld
      · have hMem : event ∈ events.filter (·.kind == .held) :=
          List.mem_filter.mpr ⟨hEvent, by simp [hKind]⟩
        rw [hNew] at hMem
        cases hMem

/-- **Step lemma** -/
theorem seen_exec (hInv : db.Inv False) (hGuard : TxnGuard settings False op k db)
    (hUnhidden : holdsUnhidden e op db = true) (hSeen : db.HoldsSeen) :
    (Txn.exec settings e op db).2.HoldsSeen := by
  have hOwn {x : Nat} (hNot : x ∉ mirroredHolds e op db) :
      ∃ events, (Txn.exec settings e op db).2.eventsOf x = db.eventsOf x ++ events ∧
        ∀ event ∈ events, event.kind = .held →
          event.event.value.any (·.namesHeld) = false := by
    obtain ⟨events, hEvents, hAppended⟩ := eventsOf_exec settings e op db x
    refine ⟨events, hEvents, fun event hEvent hKind => ?_⟩
    obtain ⟨rfl, hNew⟩ := hAppended event hEvent
    exact own_of_appended hGuard hNew hKind hNot
  -- a task without a row is nobody's parent and nobody's root
  have hAbsent {x : Nat} (hNone : db.task? x = none) :
      ∀ event ∈ (Txn.exec settings e op db).2.eventsOf x, event.kind = .held →
        event.event.value.any (·.namesHeld) = false := by
    have hNot : x ∉ mirroredHolds e op db := by
      intro hMem
      obtain ⟨row, hRow⟩ := mirroredHolds_exist hInv.tree hGuard hMem
      rw [hNone] at hRow
      cases hRow
    obtain ⟨events, hEvents, hNew⟩ := hOwn hNot
    intro event hEvent hKind
    rw [hEvents] at hEvent
    exact (List.mem_append.mp hEvent).elim
      (fun hOld => hSeen.absent hNone event hOld hKind) fun h => hNew event h hKind
  constructor
  · intro x hNone
    refine hAbsent ?_
    cases hRow : db.task? x with
    | none => rfl
    | some row =>
        obtain ⟨row', hRow', -⟩ := (hGuard.later hInv.tree).row hRow
        rw [hRow'] at hNone
        cases hNone
  · intro x row' hRow' hHeld
    cases hRow : db.task? x with
    | none => exact newest_own (hAbsent hRow)
    | some row =>
        obtain ⟨row'', events, hBecomes, hStep⟩ := taskStep settings e op hInv.tree hRow
        rw [hBecomes.1, Option.some.injEq] at hRow'
        subst hRow'
        have hHeldBy := held_step hGuard hStep hHeld
        have hNot : x ∉ mirroredHolds e op db := by
          intro hMem
          rcases hHeldBy with hOld | ⟨⟨c, rfl⟩, -⟩
          · have hNotHeld := List.all_eq_true.mp hUnhidden x hMem
            simp [hRow, hOld] at hNotHeld
          · cases hMem
        obtain ⟨events', hEvents, hNew⟩ := hOwn hNot
        obtain rfl : events = events' :=
          List.append_cancel_left (hBecomes.2.symm.trans hEvents)
        refine newest_append hEvents hNew (hHeldBy.imp (hSeen.newest hRow) ?_)
        exact fun ⟨_, event, hEvent, hKind, _⟩ => ⟨event, hEvent, hKind⟩

/-! ## What the call does -/

/-- What the transaction records of a decision, and sends of it, is this one. -/
def Records (x : Nat) (approved : Bool) (values : Option String) (decided : EventValue) :
    Txn → Prop
  | .claim y c => c.toKind = .decided → y = x ∧ c.event.bind (·.value) = some decided
  | .decideChild y _ approved' _ decided' => y = x ∧ approved' = approved ∧ decided' = decided
  | .deliver _ (.decide y approved' _ _ values') =>
      y = x ∧ approved' = approved ∧ values' = values
  | _ => True

/-- The decision a call records. -/
def Principal.decision (principal : Principal) (approved : Bool)
    (answer values : Option String) : EventValue :=
  .decision approved answer false (some principal.userSub) values none

variable {approved : Bool} {answer values : Option String} {decided : EventValue}

theorem only_claim {task : Nat} {c : Claim}
    (h : c.toKind = .decided → task = x ∧ c.event.bind (·.value) = some decided) :
    (claim task c).Only (Records x approved values decided) := by
  refine ⟨h, fun won => ?_⟩
  change Prog.Only _ (if _ then _ else _)
  split
  · exact ⟨trivial, fun _ => trivial⟩
  · trivial

theorem only_unfoldToHigherOrder {task : Nat} {kind : TaskEventKind} {message : Option String}
    {flag : Option Bool} (hKind : kind ≠ .decided) :
    (unfoldToHigherOrder task kind message flag).Only
      (Records x approved values decided) := by
  have hFlagged : (unfoldToHigherOrder task kind message (some true)).Only
      (Records x approved values decided) := by
    refine ⟨trivial, fun wrapper => ?_⟩
    cases (wrapper : Option Nat) with
    | none => trivial
    | some parent => exact (only_claim fun h => absurd h hKind).bind fun _ => trivial
  cases flag with
  | some flagged =>
      cases flagged with
      | true => exact hFlagged
      | false => trivial
  | none =>
      refine ⟨trivial, fun flagged => ?_⟩
      cases (flagged : Bool) with
      | true => exact hFlagged
      | false => trivial

theorem only_finalizeTerminal {task : Nat} {kind : TaskEventKind} {message : String}
    {value : Option EventValue} {guard : Guard} (hKind : kind ≠ .decided) :
    (finalizeTerminal task kind message value guard).Only
      (Records x approved values decided) := by
  refine Prog.Only.bind (only_claim fun h => absurd h hKind) fun won => ?_
  change Prog.Only _ (if _ then _ else _)
  split
  · exact (only_unfoldToHigherOrder hKind).bind fun _ => trivial
  · trivial

theorem only_dispatch {task agent : Nat} {assign : Assign} :
    (dispatch task agent assign).Only (Records x approved values decided) := by
  refine ⟨trivial, fun delivered => ?_⟩
  change Prog.Only _ (if _ then _ else _)
  split
  · exact ⟨trivial, fun _ => trivial⟩
  · trivial

theorem only_decideSelf {agent : Nat} :
    (decideSelf x agent approved answer values decided).Only
      (Records x approved values decided) := by
  refine Prog.Only.bind (only_claim fun _ => ⟨rfl, rfl⟩) fun won => ?_
  change Prog.Only _ (if _ then _ else _)
  split
  · exact ⟨⟨rfl, rfl, rfl⟩, fun _ => trivial⟩
  · trivial

theorem only_decideHeldChild {watchers : List Nat} :
    (decideHeldChild x watchers approved answer decided).Only
      (Records x approved values decided) := by
  refine ⟨⟨rfl, rfl, rfl⟩, fun runner => ?_⟩
  cases (runner : Option Nat) with
  | none => trivial
  | some runner =>
      cases approved with
      | false => trivial
      | true =>
          refine ⟨trivial, fun agent => ⟨trivial, fun assign => ?_⟩⟩
          cases (assign : Option Assign) with
          | some assign => exact only_dispatch
          | none =>
              have hKind : TaskEventKind.critical ≠ .decided := nofun
              exact (only_finalizeTerminal hKind).bind fun _ => trivial

/-- A decision is refused unless what it read is held. -/
theorem held_of_not_refused {hrow : HeldRow} {principal : Principal} {valuesFit : Bool}
    (h : decideRefused hrow principal approved values valuesFit = false) :
    hrow.latestEventKind = .held := by
  simp only [decideRefused, Bool.or_eq_false_iff, bne_eq_false_iff_eq] at h
  exact h.1.1.1.2

end

section

variable {settings : Settings} {C : ServerConfig → Choice Env Request → Prop}
variable {c₀ c c' : ServerConfig} {x : Nat}

/-- The moments of a call: what it read, and if that let it go on, what it
records and sends. -/
theorem decides_trace {principal : Principal} {approved : Bool} {answer values : Option String}
    {valuesFit : Bool} {trace : List (Moment Env Db Txn)}
    (h : Decides settings C principal x approved answer values valuesFit c trace c') :
    ∃ c₁ e rest, Relation.ReflTransGen ((machine settings).othersMeeting C) c c₁ ∧
      trace = { env := e, op := .query (Option HeldRow) fun _ db => heldRow db x,
                before := c₁.state } :: rest ∧
      (rest = [] ∨ ∃ row, heldRow c₁.state x = some row ∧
        decideRefused row principal approved values valuesFit = false ∧
        ∀ m ∈ rest, Records x approved values (principal.decision approved answer values)
          m.op) := by
  simp only [Decides, decide, select, run, Prog.bind_eq, Prog.perform_bind] at h
  obtain ⟨c₁, e, rest, hMoves, hTrace, hRest⟩ := h.of_act
  refine ⟨c₁, e, rest, hMoves, hTrace, ?_⟩
  cases hRow : heldRow c₁.state x with
  | none =>
      simp only [machine, Txn.exec, hRow] at hRest
      exact .inl (Beside.of_ret hRest).2.1
  | some row =>
      simp only [machine, Txn.exec, hRow] at hRest
      split at hRest
      case isTrue => exact .inl (Beside.of_ret hRest).2.1
      case isFalse hRefused =>
        rw [Bool.not_eq_true] at hRefused
        refine .inr ⟨row, rfl, hRefused, ?_⟩
        split at hRest
        · exact hRest.only only_decideSelf
        · exact hRest.only only_decideHeldChild

/-- **Run lemma** -/
theorem seen_run (hInit : Initial c₀) (hC : ∀ c a, C c a → HoldsUnhidden c a)
    (hRun : (server settings).Run C c₀ c) : c.state.HoldsSeen :=
  state_run hInit hC hRun
    (fun db hFresh => by
      refine ⟨?_, fun hRow => absurd hRow hFresh.not_row⟩
      intro x _ event hEvent
      rw [hFresh.eventsOf x] at hEvent
      cases hEvent)
    fun _ _ _ _ hInv hGuard hUnhidden hSeen => seen_exec hInv hGuard hUnhidden hSeen

/-- The task is not held, or it held itself since. -/
def HeldAnew (x n : Nat) (db : Db) : Prop :=
  n < (ownHolds db x).length ∨ ((ownHolds db x).length = n ∧
    ∃ row, db.task? x = some row ∧ row.latestEventKind ≠ .held)

/-- **Step lemma** -/
theorem heldAnew_exec {e : Env} {op : Txn} {k : op.Res → Program Unit} {db : Db} {n : Nat}
    (hInv : db.Inv False) (hGuard : TxnGuard settings False op k db) (h : HeldAnew x n db) :
    HeldAnew x n (Txn.exec settings e op db).2 := by
  obtain ⟨events, hEvents, -⟩ := eventsOf_exec settings e op db x
  have hLength := congrArg List.length (ownHolds_append hEvents)
  rw [List.length_append] at hLength
  rcases h with hLt | ⟨hSame, row, hRow, hNot⟩
  · exact .inl (by omega)
  · obtain ⟨row', events', hBecomes, hStep⟩ := taskStep settings e op hInv.tree hRow
    obtain rfl : events = events' := List.append_cancel_left (hEvents.symm.trans hBecomes.2)
    by_cases hHeld : row'.latestEventKind = .held
    · obtain ⟨-, event, hEvent, hKind, hOwn⟩ :=
        (held_step hGuard hStep hHeld).resolve_left hNot
      have hMem : event ∈ events.filter fun event =>
          event.kind == .held && !event.event.value.any (·.namesHeld) :=
        List.mem_filter.mpr ⟨hEvent, by simp [hKind, hOwn]⟩
      have hPos := List.length_pos_of_mem hMem
      exact .inl (by omega)
    · by_cases hNew : (ownHolds (Txn.exec settings e op db).2 x).length = n
      · exact .inr ⟨hNew, row', hBecomes.1, hHeld⟩
      · exact .inl (by omega)

/-- Once a hold is answered the task is not answered again until it held itself
anew. -/
theorem answered_once (hInit : Initial c₀) (hRun : (server settings).Run C c₀ c)
    {a a' : Choice Env Request} {c'' : ServerConfig}
    (hNext : (server settings).next c a = some c') (hAnswers : AnswersHold c a x)
    (hOn : (server settings).Run System.anyStep c' c'') (hAgain : AnswersHold c'' a' x) :
    (ownHolds c'.state x).length < (ownHolds c''.state x).length := by
  have hRun' : (server settings).Run System.anyStep c₀ c' :=
    (hRun.mono fun _ _ _ => trivial).step trivial hNext
  have hStart : HeldAnew x (ownHolds c'.state x).length c'.state := by
    obtain ⟨i, e, op, k, rfl, hHead, hSome⟩ := hAnswers
    have hGuard : TxnGuard settings False op k c.state := (ok_run hInit hRun).guard hHead
    obtain ⟨-, row', hRow', hNot⟩ := answered_held hGuard hSome
    rw [step_state (Machine.moves_of_next hNext) hHead]
    exact .inr ⟨rfl, row', hRow', hNot⟩
  have hLater : HeldAnew x (ownHolds c'.state x).length c''.state := by
    refine (ok_run hInit hRun').invariant (I := fun c => HeldAnew x _ c.state)
      (discipline_sound settings False) (fun _ _ _ => allows_any) hStart ?_ hOn
    intro c a c' hOk hOld _ hMove
    rcases moves_state hOk hMove with hSame | ⟨i, e, op, k, -, -, hGuard, hState⟩
    · rw [hSame]
      exact hOld
    · rw [hState]
      exact heldAnew_exec hOk.inv hGuard hOld
  rcases hLater with hLt | ⟨-, row, hRow, hNot⟩
  · exact hLt
  · obtain ⟨i, e, op, k, -, hHead, hSome⟩ := hAgain
    have hGuard : TxnGuard settings False op k c''.state :=
      (ok_run hInit (hRun'.trans hOn)).guard hHead
    obtain ⟨⟨row', hRow', hHeld⟩, -⟩ := answered_held hGuard hSome
    rw [hRow, Option.some.injEq] at hRow'
    exact absurd (hRow' ▸ hHeld) hNot

end

/-! ## Runs on the small site -/

/-- The person's other client, which asks for nothing. -/
def decider : Principal := { person with client := 10 }

/-- Agent 0 holds task 0 through a blok. -/
def holdThrough (blok thread n : Nat) : List (Choice Env Request) :=
  Request.alone (.report 0 { task := 0, report := .held none none none (some (some blok)) })
    thread n

/-- What a call of `decide` on task 0 checked, and the hold it answered. -/
def checkedAgainst (trace : List (Moment Env Db Txn)) :
    Option ((Bool × Option Nat) × Bool × Option Nat) :=
  trace.head?.bind fun read => (heldRow read.before 0).bind fun row =>
    (trace.find? fun m => (answered m.env m.op m.before).isSome).map fun m =>
      (holdAsks row.held, holdAsks (newestOwnHeld m.before 0))

theorem checkedAgainst_some {trace : List (Moment Env Db Txn)} {checked held : Bool × Option Nat}
    (h : checkedAgainst trace = some (checked, held)) : ∃ read rest row m,
      trace = read :: rest ∧ heldRow read.before 0 = some row ∧ checked = holdAsks row.held ∧
      m ∈ trace ∧ (answered m.env m.op m.before).isSome = true ∧
      held = holdAsks (newestOwnHeld m.before 0) := by
  simp only [checkedAgainst, Option.bind_eq_some_iff, Option.map_eq_some_iff] at h
  obtain ⟨read, hHead, row, hRow, m, hFind, hEq⟩ := h
  cases hEq
  cases trace with
  | nil => cases hHead
  | cons first rest =>
      cases hHead
      have hAnswered := List.find?_some (p := fun m : Moment Env Db Txn =>
        (answered m.env m.op m.before).isSome) hFind
      exact ⟨_, _, row, m, rfl, hRow, rfl, List.mem_of_find?_eq_some hFind, hAnswered, rfl⟩

/-- A call of `decide` on task 0 by a script, in a state a replay reaches. -/
theorem decides_of_play (labels : List (Choice Env Request))
    (script : List (Choice Env Request ⊕ Env)) (values : Option String)
    (check : List (Moment Env Db Txn) → Bool)
    (h : (((server {}).play HoldsUnhidden demo labels).any fun c =>
      (Beside.play (machine {}) HoldsUnhidden script
        (decide decider 0 true none values true) c).any fun result => check result.1) = true) :
    ∃ c trace c', (server {}).Run HoldsUnhidden demo c ∧
      Decides {} HoldsUnhidden decider 0 true none values true c trace c' ∧
      check trace = true := by
  obtain ⟨c, hRun, hCheck⟩ := System.run_of_play_any (server {}) HoldsUnhidden demo labels
    (fun c => (Beside.play (machine {}) HoldsUnhidden script
      (decide decider 0 true none values true) c).any fun result => check result.1) h
  obtain ⟨⟨trace, a, c'⟩, hPlay, hTrace⟩ := Option.any_eq_true _ _ |>.mp hCheck
  exact ⟨c, trace, c', hRun, Beside.of_play hPlay, hTrace⟩

/-- While the person answers the ask through blok 1, somebody else answers it,
and task 0 asks anew through blok 2. -/
def heldAnewMeanwhile : List (Choice Env Request ⊕ Env) :=
  .inr {} :: (Request.alone (.decide decider 0 true none (some "volume: 2") true) 2 3 ++
    holdThrough 2 3 2).map .inl ++ [.inr {}, .inr {}]

end Rekuest
