import Rekuest.Server.Outcomes

/-!
# Nothing follows a terminal

`record_event` and the copies of a hold or a decision look at the row of the
task they write on, if at all, in an earlier statement than they write in.  Where
none of them writes on a task whose terminal event is there, only late reports
and the one override follow it.
-/

namespace Rekuest

open Concurrent

/-- The tasks on which a transaction writes an event without its row: reports
recorded as they came, and copies. -/
def writesUnread (e : Env) (op : Txn) (db : Db) : List Nat :=
  let recorded := match op with
    | .recordEvent task kind event =>
        if kind == .lateReport || !(recordEvent db task kind event).1 then [] else [task]
    | _ => []
  recorded ++ mirroredHolds e op db ++ mirroredDecisions op db

/-- No report and no copy is written on a task that has its terminal event. -/
def writesBeforeEnd (e : Env) (op : Txn) (db : Db) : Bool :=
  (writesUnread e op db).all fun task => (db.terminalsOf task).isEmpty

/-- The steps at which reports and copies come before the end. -/
def WritesBeforeEnd : ServerConfig → Choice Env Request → Prop :=
  Machine.onStep fun e op db => writesBeforeEnd e op db = true

instance (c : ServerConfig) (a : Choice Env Request) : Decidable (WritesBeforeEnd c a) :=
  inferInstanceAs (Decidable (Machine.onStep _ c a))

/-- What may come after a terminal event. -/
def TaskEvent.MayFollow (event : TaskEvent) : Prop :=
  event.kind = .lateReport ∨ (event.byOverride = true ∧ isTerminal event.kind = true)

/-- Whatever comes after a terminal event may. -/
def NothingFollows (events : List TaskEvent) : Prop :=
  events.Pairwise fun earlier later => isTerminal earlier.kind = true → later.MayFollow

instance (event : TaskEvent) : Decidable event.MayFollow :=
  inferInstanceAs (Decidable (_ ∨ _))

instance (events : List TaskEvent) : Decidable (NothingFollows events) :=
  inferInstanceAs (Decidable (events.Pairwise _))

/-! ## The invariant -/

/-- The terminal events of a task: none, the one that ended it, or that and the
override of an earlier session's report. -/
inductive Closing : List TaskEvent → Prop
  | none : Closing []
  | one (event : TaskEvent) (hOwn : event.byOverride = false) : Closing [event]
  | two (event override : TaskEvent) (hOwn : event.byOverride = false)
      (hOverride : override.byOverride = true)
      (hNumbered : override.event.agentPos.isSome = true) : Closing [event, override]

theorem Closing.overrides {terminals : List TaskEvent} (h : Closing terminals) :
    (terminals.filter (·.byOverride)).length ≤ 1 := by
  cases h with
  | none => decide
  | one event hOwn => simp [hOwn]
  | two event override hOwn hOverride => simp [hOwn, hOverride]

/-- Only the terminal that ended the task carries no agent position. -/
theorem Closing.unnumbered {terminals : List TaskEvent} {last : TaskEvent}
    (h : Closing terminals) (hLast : terminals.getLast? = some last)
    (hUnnumbered : last.event.agentPos = .none) :
    terminals = [last] ∧ last.byOverride = false := by
  cases h with
  | none => cases hLast
  | one event hOwn =>
      cases hLast
      exact ⟨rfl, hOwn⟩
  | two event override _ _ hNumbered =>
      have hEq : override = last := by simpa using hLast
      rw [hEq, hUnnumbered] at hNumbered
      cases hNumbered

/-- What the events of a task say of its end. -/
structure Db.Ends (db : Db) (x : Nat) : Prop where
  done : db.terminalsOf x ≠ [] → db.Done x
  closing : Closing (db.terminalsOf x)
  follows : NothingFollows (db.eventsOf x)

section

variable {settings : Settings} {e : Env} {op : Txn} {k : op.Res → Program Unit}
variable {db : Db} {x : Nat} {row row' : Task} {events : List TaskEvent}

theorem mem_terminalsOf {event : TaskEvent} (hEvent : event ∈ db.eventsOf x)
    (hKind : isTerminal event.kind = true) : db.terminalsOf x ≠ [] :=
  List.ne_nil_of_mem (List.mem_filter.mpr ⟨hEvent, hKind⟩)

theorem Db.Ends.open (h : db.Ends x) (hRow : db.task? x = some row)
    (hOpen : row.isDone = false) : db.terminalsOf x = [] := by
  by_cases hNil : db.terminalsOf x = []
  · exact hNil
  · obtain ⟨row', hRow', hDone⟩ := h.done hNil
    rw [hRow, Option.some.injEq] at hRow'
    rw [hRow', hDone] at hOpen
    cases hOpen

theorem nothingFollows_append {new : List TaskEvent} (h : NothingFollows events)
    (hNew : NothingFollows new)
    (hAfter : ∀ earlier ∈ events, isTerminal earlier.kind = true →
      ∀ event ∈ new, event.MayFollow) : NothingFollows (events ++ new) :=
  List.pairwise_append.mpr ⟨h, hNew, fun earlier hEarlier later hLater hKind =>
    hAfter earlier hEarlier hKind later hLater⟩

theorem nothingFollows_open (h : ∀ event ∈ events, isTerminal event.kind = false) :
    NothingFollows events := by
  refine List.pairwise_of_forall_mem_list fun earlier hEarlier _ _ hKind => ?_
  rw [h earlier hEarlier] at hKind
  cases hKind

/-- The last event of a step may end the task. -/
theorem nothingFollows_last {last : TaskEvent}
    (h : ∀ event ∈ events, isTerminal event.kind = false) :
    NothingFollows (events ++ [last]) := by
  refine nothingFollows_append (nothingFollows_open h) (List.pairwise_singleton _ _) ?_
  intro earlier hEarlier hKind
  rw [h earlier hEarlier] at hKind
  cases hKind

theorem nothingFollows_decided {copies : List TaskEvent} {event last : TaskEvent}
    (hKind : event.kind = .decided) (hCopies : ∀ event ∈ copies, event.IsMirror) :
    NothingFollows (event :: copies ++ [last]) := by
  refine nothingFollows_last fun event' hEvent => ?_
  rcases List.mem_cons.mp hEvent with rfl | hCopy
  · rw [hKind]
    rfl
  · exact IsMirror.not_terminal (hCopies event' hCopy)

/-- Within one step nothing comes after a terminal event. -/
theorem nothingFollows_step (hStep : TaskStep e db x row op row' events) :
    NothingFollows events := by
  cases hStep with
  | same op events hMirror =>
      exact nothingFollows_open fun event hEvent => IsMirror.not_terminal (hMirror event hEvent)
  | claimed c hAdmits =>
      cases c.event with
      | none => exact List.Pairwise.nil
      | some event => exact List.pairwise_singleton _ _
  | approved watchers answer decided _ _ _ _ _ _ event _ sent copies hCopies =>
      exact nothingFollows_decided rfl hCopies
  | denied watchers answer decided _ _ event _ outcome _ copies hCopies =>
      exact nothingFollows_decided rfl hCopies
  | lowerApproved wrapper wrow watchers answer decided _ _ _ _ copies hCopies =>
      exact nothingFollows_open fun event hEvent => IsMirror.not_terminal (hCopies event hEvent)
  | lowerDenied wrapper wrow watchers answer decided _ _ _ _ copies hCopies =>
      exact nothingFollows_open fun event hEvent => IsMirror.not_terminal (hCopies event hEvent)
  | stamped | dated | movedToNow | settledLower | lowerSettled | dueDispatched =>
      exact List.Pairwise.nil
  | recorded | settledChild | overridden | controlSettled | instructed | unpicked
  | redelivered | dueFinalized => exact List.pairwise_singleton _ _

/-- What a transaction writes on a task that has its terminal event. -/
theorem written_after_end (hGuard : TxnGuard settings False op k db)
    (hBefore : writesBeforeEnd e op db = true) (hRow : db.task? x = some row)
    (hDone : row.isDone = true) (hEnded : db.terminalsOf x ≠ [])
    (hEvents : (Txn.exec settings e op db).2.eventsOf x = db.eventsOf x ++ events) :
    ∀ event ∈ events, event.MayFollow := by
  have hRead : x ∉ writesUnread e op db := by
    intro hMem
    have hEmpty := List.all_eq_true.mp hBefore x hMem
    exact hEnded (List.isEmpty_iff.mp hEmpty)
  obtain ⟨others, hOthers, hAppended⟩ := eventsOf_exec settings e op db x
  have hSame : events = others := List.append_cancel_left (hEvents.symm.trans hOthers)
  intro event hEvent
  obtain ⟨rfl, hNew⟩ := hAppended event (hSame ▸ hEvent)
  cases hNew with
  | moved row' hRow' hOpen =>
      rw [hRow, Option.some.injEq] at hRow'
      rw [← hRow', hDone] at hOpen
      cases hOpen
  | heldCopy _ _ hWatched => exact absurd (by simp [writesUnread, hWatched]) hRead
  | decidedCopy _ hWatched => exact absurd (by simp [writesUnread, hWatched]) hRead
  | asked _ hNone =>
      rw [hRow] at hNone
      cases hNone
  | recorded hOp hRecorded =>
      by_cases hLate : event.kind = .lateReport
      · exact .inl hLate
      · exact absurd (by simp [writesUnread, hOp, hLate, hRecorded]) hRead
  | overridden new hOp _ hOverride =>
      subst hOp
      exact .inr ⟨hOverride, hGuard.1⟩

/-- **Step lemma** for the terminal events. -/
theorem closing_step {terminals : List TaskEvent} (hEnds : db.Ends x)
    (hRow : db.task? x = some row) (hStep : OutcomeStep e db x row row' op terminals) :
    Closing (db.terminalsOf x ++ terminals) ∧
      (db.terminalsOf x ++ terminals ≠ [] → row'.isDone = true) := by
  have hOld (hDone : row.isDone = true → row'.isDone = true) :
      db.terminalsOf x ≠ [] → row'.isDone = true := by
    intro hEnded
    obtain ⟨row₀, hRow₀, hRowDone⟩ := hEnds.done hEnded
    rw [hRow, Option.some.injEq] at hRow₀
    exact hDone (hRow₀ ▸ hRowDone)
  cases hStep with
  | kept hDone =>
      rw [List.append_nil]
      exact ⟨hEnds.closing, hOld hDone.trans⟩
  | moved w kind hLower hMoved hDone =>
      rw [List.append_nil]
      exact ⟨hEnds.closing, hOld hDone⟩
  | ended event hOpen hDone hOwn =>
      rw [hEnds.open hRow hOpen]
      exact ⟨.one event hOwn, fun _ => hDone⟩
  | overridden kind event last override hOp hDone hLast hUnnumbered hOverride hNumbered =>
      -- the outcome replaced is the server's own, so it was the only one
      obtain ⟨hOnly, hOwn⟩ := hEnds.closing.unnumbered hLast hUnnumbered
      rw [hOnly]
      exact ⟨.two last override hOwn hOverride hNumbered, fun _ => hDone⟩

/-- **Step lemma** -/
theorem ends_exec (hInv : db.Inv False) (hGuard : TxnGuard settings False op k db)
    (hBefore : writesBeforeEnd e op db = true) (hEnds : ∀ x, db.Ends x) (x : Nat) :
    (Txn.exec settings e op db).2.Ends x := by
  cases hRow : db.task? x with
  | some row =>
      obtain ⟨row', events, hBecomes, hStep⟩ := taskStep settings e op hInv.tree hRow
      have hTerminals := terminalsOf_becomes hBecomes
      obtain ⟨hClosing, hDone⟩ := closing_step (hEnds x) hRow (outcomeStep hGuard hRow hStep)
      refine ⟨fun hEnded => ⟨row', hBecomes.1, hDone (hTerminals ▸ hEnded)⟩,
        hTerminals ▸ hClosing, ?_⟩
      rw [hBecomes.2]
      refine nothingFollows_append (hEnds x).follows (nothingFollows_step hStep) ?_
      intro earlier hEarlier hKind
      have hEnded := mem_terminalsOf hEarlier hKind
      obtain ⟨row₀, hRow₀, hRowDone⟩ := (hEnds x).done hEnded
      rw [hRow, Option.some.injEq] at hRow₀
      subst hRow₀
      exact written_after_end hGuard hBefore hRow hRowDone hEnded hBecomes.2
  | none =>
      have hNil := terminals_new (e := e) hInv hGuard hRow
      refine ⟨fun hEnded => absurd hNil hEnded, hNil ▸ .none, nothingFollows_open ?_⟩
      intro event hEvent
      rw [← Bool.not_eq_true]
      exact fun hKind => mem_terminalsOf hEvent hKind hNil

end

section

variable {settings : Settings} {C : ServerConfig → Choice Env Request → Prop}
variable {c₀ c : ServerConfig}

/-- **Run lemma** -/
theorem ends_run (hInit : Initial c₀) (hC : ∀ c a, C c a → WritesBeforeEnd c a)
    (hRun : (server settings).Run C c₀ c) : ∀ x, c.state.Ends x :=
  state_run (I := fun db => ∀ x, db.Ends x) hInit hC hRun
    (fun db hFresh x => by
      have hNil : db.terminalsOf x = [] := by rw [Db.terminalsOf, hFresh.eventsOf]; rfl
      refine ⟨fun hEnded => absurd hNil hEnded, hNil ▸ .none, ?_⟩
      rw [hFresh.eventsOf]
      exact List.Pairwise.nil)
    fun _ _ _ _ hInv hGuard hBefore hEnds => ends_exec hInv hGuard hBefore hEnds

end

/-! ## Runs on the small site -/

/-- Agent 0's `YIELD` of task 0 is being recorded while a fresh process of the
agent registers, which ends the task LOST. -/
def yieldWhileLost : List (Choice Env Request) :=
  assignRoot ++
    Request.alone (.report 0 { task := 0, report := .yield }) 1 2 ++
    Request.alone (.connected 0 1 (some 1) true) 2 7 ++
    Choice.steps 1 1 ({} : Env)

end Rekuest
