import Rekuest.Server.Finality

/-!
# A terminal is written once

The terminal events of a task: none, or the one that ended it, or that one and
the report of an earlier session that replaced it.  The last step of the
argument, that nothing replaces a LOST, needs that no lower child is moved out
of its outcome, which leaves its LOST event but not its kind.
-/

namespace Rekuest

open Concurrent

/-- The events that ended a task. -/
def Db.terminalsOf (db : Db) (x : Nat) : List TaskEvent :=
  (db.eventsOf x).filter (isTerminal ·.kind)

/-- No lower child is moved out of a LOST or out of what its agent reported. -/
def outcomesStand (e : Env) (op : Txn) (db : Db) : Bool :=
  (lowerMoves e op db).all fun moved =>
    (db.task? (runnerOf db moved.1)).all fun lower =>
      !lower.isDone || lower.latestEventKind == moved.2 ||
        !(lower.latestEventKind == .lost ||
          (standingTerminal db (runnerOf db moved.1)).any (·.event.agentPos.isSome))

/-- The steps at which outcomes stand. -/
def OutcomesStand : ServerConfig → Choice Env Request → Prop :=
  Machine.onStep fun e op db => outcomesStand e op db = true

instance (c : ServerConfig) (a : Choice Env Request) : Decidable (OutcomesStand c a) :=
  inferInstanceAs (Decidable (Machine.onStep _ c a))

/-! ## The invariant -/

/-- The terminal events a task may have. -/
inductive Terminals : List TaskEvent → Prop
  | none : Terminals []
  | one (event : TaskEvent) (hOwn : event.byOverride = false) : Terminals [event]
  | two (event override : TaskEvent) (hOwn : event.byOverride = false)
      (hUnnumbered : event.event.agentPos = none) (hLost : event.kind ≠ .lost)
      (hOverride : override.byOverride = true)
      (hNumbered : override.event.agentPos.isSome = true) : Terminals [event, override]

/-- A row and the terminal events of its task. -/
structure Task.Written (row : Task) (terminals : List TaskEvent) : Prop where
  shape : Terminals terminals
  done : terminals ≠ [] → row.isDone = true
  lost : ∀ event, terminals = [event] → event.kind = .lost → row.latestEventKind = .lost

theorem Task.Written.open {row : Task} {terminals : List TaskEvent}
    (h : row.Written terminals) (hOpen : row.isDone = false) : terminals = [] := by
  by_cases hNil : terminals = []
  · exact hNil
  · rw [h.done hNil] at hOpen
    cases hOpen

/-- A step that writes no terminal event, and moves no row out of LOST. -/
theorem Task.Written.keep {row row' : Task} {terminals : List TaskEvent}
    (h : row.Written terminals) (hDone : row.isDone = true → row'.isDone = true)
    (hLost : row.isDone = true → row.latestEventKind = .lost → row'.latestEventKind = .lost) :
    row'.Written terminals where
  shape := h.shape
  done := hDone ∘ h.done
  lost := fun event hOne hKind =>
    hLost (h.done (by rw [hOne]; simp)) (h.lost event hOne hKind)

/-- The first terminal event ends an open row. -/
theorem Task.Written.first {row row' : Task} {terminals : List TaskEvent} {event : TaskEvent}
    (h : row.Written terminals) (hOpen : row.isDone = false) (hOwn : event.byOverride = false)
    (hDone : row'.isDone = true) (hKind : row'.latestEventKind = event.kind) :
    row'.Written (terminals ++ [event]) := by
  rw [h.open hOpen]
  refine ⟨.one event hOwn, fun _ => hDone, fun event' hOne hLost => ?_⟩
  cases hOne
  rw [hKind, hLost]

theorem IsMirror.not_terminal {event : TaskEvent} (h : event.IsMirror) :
    isTerminal event.kind = false := by
  rcases h with h | ⟨h, -⟩ <;> rw [h] <;> rfl

theorem filter_mirrors {events : List TaskEvent} (h : ∀ event ∈ events, event.IsMirror) :
    events.filter (isTerminal ·.kind) = [] := by
  rw [List.filter_eq_nil_iff]
  intro event hEvent
  simp [IsMirror.not_terminal (h event hEvent)]

theorem filter_open {event : TaskEvent} {rest : List TaskEvent}
    (h : isTerminal event.kind = false) :
    (event :: rest).filter (isTerminal ·.kind) = rest.filter (isTerminal ·.kind) :=
  List.filter_cons_of_neg (by simp [h])

theorem filter_end {event : TaskEvent} {rest : List TaskEvent}
    (h : isTerminal event.kind = true) :
    (event :: rest).filter (isTerminal ·.kind) = event :: rest.filter (isTerminal ·.kind) :=
  List.filter_cons_of_pos h

section

variable {settings : Settings} {e : Env} {op : Txn} {k : op.Res → Program Unit}
variable {db : Db} {x : Nat} {row row' : Task} {events : List TaskEvent}

theorem standingTerminal_eq : standingTerminal db x = (db.terminalsOf x).getLast? := rfl

/-- A done lower child that is moved along to another kind: neither LOST nor
ended by its agent's report. -/
theorem outcomesStand_lower {w : Nat} {kind : TaskEventKind} (hTree : db.Tree)
    (hStand : outcomesStand e op db = true) (hMoved : (w, kind) ∈ lowerMoves e op db)
    (hLower : db.IsLower x w) (hRow : db.task? x = some row) (hDone : row.isDone = true)
    (hKind : row.latestEventKind ≠ kind) :
    row.latestEventKind ≠ .lost ∧
      ∀ last, standingTerminal db x = some last → last.event.agentPos = none := by
  have hAll := List.all_eq_true.mp hStand _ hMoved
  rw [hLower.runnerOf_eq hTree, hRow] at hAll
  simp only [Option.all_some, hDone, Bool.not_true, Bool.false_or, Bool.or_eq_true,
    beq_iff_eq, hKind, false_or, Bool.not_or, Bool.and_eq_true, Bool.not_eq_true',
    beq_eq_false_iff_ne] at hAll
  refine ⟨hAll.1, fun last hLast => ?_⟩
  simpa [hLast] using hAll.2

/-- The kinds lower children are moved along to. -/
theorem lowerMoves_notLost {w : Nat} {kind : TaskEventKind}
    (h : (w, kind) ∈ lowerMoves e op db) : kind ≠ .lost := by
  rintro rfl
  unfold lowerMoves at h
  split at h
  case h_1 => simp at h
  case h_2 approved _ _ => cases approved <;> simp at h
  case h_3 control _ _ => cases control <;> simp [Control.waitingOutcome] at h
  case h_4 => cases h

/-- A lower child that is moved along was not LOST. -/
theorem moved_notLost {w : Nat} {kind : TaskEventKind} (hTree : db.Tree)
    (hStand : outcomesStand e op db = true) (hMoved : (w, kind) ∈ lowerMoves e op db)
    (hLower : db.IsLower x w) (hRow : db.task? x = some row) (hDone : row.isDone = true) :
    row.latestEventKind ≠ .lost := by
  by_cases hKind : row.latestEventKind = kind
  · rw [hKind]
    exact lowerMoves_notLost hMoved
  · exact (outcomesStand_lower hTree hStand hMoved hLower hRow hDone hKind).1

/-- A step either leaves the row as it was as far as its outcome goes, ends an
open row, moves it along with its wrapper, or overrides it. -/
inductive OutcomeStep (e : Env) (db : Db) (x : Nat) (row row' : Task) (op : Txn) :
    List TaskEvent → Prop
  | kept (hDone : row'.isDone = row.isDone)
      (hKind : row.isDone = true → row'.latestEventKind = row.latestEventKind) :
      OutcomeStep e db x row row' op []
  | ended (event : TaskEvent) (hOpen : row.isDone = false) (hDone : row'.isDone = true)
      (hOwn : event.byOverride = false) (hKind : row'.latestEventKind = event.kind) :
      OutcomeStep e db x row row' op [event]
  | moved (w : Nat) (kind : TaskEventKind) (hLower : db.IsLower x w)
      (hMoved : (w, kind) ∈ lowerMoves e op db)
      (hDone : row.isDone = true → row'.isDone = true)
      (hKind : row'.latestEventKind = kind) : OutcomeStep e db x row row' op []
  | overridden (kind : TaskEventKind) (event : NewEvent) (last override : TaskEvent)
      (hOp : op = .overrideServerOutcome x kind event) (hDone : row'.isDone = true)
      (hLast : standingTerminal db x = some last)
      (hUnnumbered : last.event.agentPos = none) (hOverride : override.byOverride = true)
      (hNumbered : override.event.agentPos.isSome = true)
      (hSettled : row.latestEventKind ≠ .lost) : OutcomeStep e db x row row' op [override]

theorem outcomeStep (hGuard : TxnGuard settings False op k db)
    (hRow : db.task? x = some row) (hStep : TaskStep e db x row op row' events) :
    OutcomeStep e db x row row' op (events.filter (isTerminal ·.kind)) := by
  cases hStep with
  | same op events hMirror => rw [filter_mirrors hMirror]; exact .kept rfl fun _ => rfl
  | stamped | dated | movedToNow | dueDispatched => exact .kept rfl fun _ => rfl
  | recorded kind event =>
      rw [filter_open hGuard.2.1]
      exact .kept rfl fun _ => rfl
  | instructed control =>
      rw [filter_open (by cases control <;> rfl)]
      exact .kept rfl fun _ => rfl
  | redelivered =>
      rw [filter_open rfl]
      exact .kept rfl fun _ => rfl
  | claimed c hAdmits =>
      have hOpen := (Claim.admits_open hAdmits).1
      obtain ⟨event, hEvent⟩ := hGuard.event
      simp only [hEvent, Option.toList_some, List.map_cons, List.map_nil]
      cases hKind : isTerminal c.toKind with
      | true =>
          rw [filter_end hKind]
          refine .ended _ hOpen ?_ rfl (c.move_kind e.now row)
          simp [hGuard.marks, hKind]
      | false =>
          rw [filter_open hKind]
          refine .kept (by simp [hGuard.marks, hKind]) fun hDone => ?_
          rw [hOpen] at hDone
          cases hDone
  | settledChild p hParent hWaiting hUnlocked event =>
      refine .ended _ ?_ rfl rfl rfl
      simp only [Task.isWaitingHeld, Bool.and_eq_true, Bool.not_eq_true'] at hWaiting
      exact hWaiting.1.1.2
  | settledLower p wrapper hChild hLower =>
      exact .moved wrapper .cancelled hLower (List.mem_map.mpr ⟨wrapper, hChild, rfl⟩)
        (fun _ => rfl) rfl
  | overridden kind event last hDone hLast hUnnumbered =>
      obtain ⟨hKind, -, hNumbered, ⟨row₀, hRow₀, -, hSettled⟩⟩ := hGuard
      rw [hRow, Option.some.injEq] at hRow₀
      subst hRow₀
      rw [filter_end hKind]
      exact .overridden kind event last _ rfl hDone hLast hUnnumbered rfl hNumbered hSettled
  | approved watchers answer decided hHeld hOpen _ _ _ _ event _ sent copies hCopies =>
      rw [List.cons_append, filter_open rfl, List.filter_append,
        filter_mirrors hCopies, filter_open rfl]
      refine .kept rfl fun hDone => ?_
      rw [hOpen] at hDone
      cases hDone
  | denied watchers answer decided hHeld hOpen event _ outcome _ copies hCopies =>
      rw [List.cons_append, filter_open rfl, List.filter_append,
        filter_mirrors hCopies, filter_end rfl]
      exact .ended _ hOpen rfl rfl rfl
  | lowerApproved wrapper wrow watchers answer decided hLower hWrapper hHeld hOpen copies
      hCopies =>
      rw [filter_mirrors hCopies]
      refine .moved wrapper .queued hLower ?_ id rfl
      simp [lowerMoves, hWrapper, hHeld, hOpen]
  | lowerDenied wrapper wrow watchers answer decided hLower hWrapper hHeld hOpen copies
      hCopies =>
      rw [filter_mirrors hCopies]
      refine .moved wrapper .denied hLower ?_ (fun _ => rfl) rfl
      simp [lowerMoves, hWrapper, hHeld, hOpen]
  | controlSettled control caller interruptAt outcome hOutcome hOpen =>
      rw [filter_end (Control.waitingOutcome_terminal hOutcome)]
      exact .ended _ hOpen rfl rfl rfl
  | lowerSettled wrapper wrow control caller interruptAt outcome hOutcome hLower hWrapper
      hOpen hHeld hWaiting =>
      refine .moved wrapper outcome hLower ?_ (fun _ => rfl) rfl
      simp [lowerMoves, hOutcome, hWrapper, hHeld, hOpen, hWaiting]
  | unpicked cutoff kind event hUnpicked hKind =>
      rw [filter_end (by rcases hKind with rfl | rfl | rfl <;> rfl)]
      refine .ended _ ?_ rfl rfl rfl
      simp only [Task.isUnpicked, Bool.and_eq_true, Bool.not_eq_true'] at hUnpicked
      exact hUnpicked.1.1.1.1
  | dueFinalized hOpen =>
      rw [filter_end rfl]
      exact .ended _ hOpen rfl rfl rfl

/-- A terminal that carries no agent position is the only one. -/
theorem Terminals.unnumbered {terminals : List TaskEvent} {last : TaskEvent}
    (h : Terminals terminals) (hLast : terminals.getLast? = some last)
    (hUnnumbered : last.event.agentPos = .none) :
    terminals = [last] ∧ last.byOverride = false := by
  cases h with
  | none => cases hLast
  | one first hOwn =>
      cases hLast
      exact ⟨rfl, hOwn⟩
  | two first second _ _ _ _ hSecond =>
      have hEq : second = last := by simpa using hLast
      rw [hEq, hUnnumbered] at hSecond
      cases hSecond

/-- **Step lemma** for the terminal events of a task. -/
theorem written_step {terminals : List TaskEvent} (hTree : db.Tree)
    (hStand : outcomesStand e op db = true) (hRow : db.task? x = some row)
    (hWritten : row.Written (db.terminalsOf x))
    (hStep : OutcomeStep e db x row row' op terminals) :
    row'.Written (db.terminalsOf x ++ terminals) := by
  cases hStep with
  | kept hDone hKind =>
      rw [List.append_nil]
      exact hWritten.keep (fun h => hDone.trans h) fun hDone hLost => (hKind hDone).trans hLost
  | ended event hOpen hDone hOwn hKind => exact hWritten.first hOpen hOwn hDone hKind
  | moved w kind hLower hMoved hDone hKind =>
      rw [List.append_nil]
      refine hWritten.keep hDone fun hDone hLost => ?_
      exact absurd hLost (moved_notLost hTree hStand hMoved hLower hRow hDone)
  | overridden kind event last override hOp hDone hLast hUnnumbered hOverride hNumbered
      hSettled =>
      -- the standing terminal is the server's own, so it was the only one
      obtain ⟨hOnly, hOwn⟩ := hWritten.shape.unnumbered hLast hUnnumbered
      rw [hOnly]
      refine ⟨.two last override hOwn hUnnumbered (fun hLost => ?_) hOverride hNumbered,
        fun _ => hDone, fun event hOne => by simp at hOne⟩
      exact hSettled (hWritten.lost last hOnly hLost)

/-- An outcome an agent reported is not replaced. -/
theorem reported_step {terminals : List TaskEvent} {last : TaskEvent} (hTree : db.Tree)
    (hStand : outcomesStand e op db = true) (hRow : db.task? x = some row)
    (hDone : row.isDone = true) (hLast : standingTerminal db x = some last)
    (hNumbered : last.event.agentPos.isSome = true)
    (hStep : OutcomeStep e db x row row' op terminals) :
    row'.latestEventKind = row.latestEventKind := by
  cases hStep with
  | kept _ hKind => exact hKind hDone
  | ended _ hOpen =>
      rw [hOpen] at hDone
      cases hDone
  | moved w kind hLower hMoved _ hKind =>
      by_cases hSame : row.latestEventKind = kind
      · rw [hKind, hSame]
      · have hUnnumbered :=
          (outcomesStand_lower hTree hStand hMoved hLower hRow hDone hSame).2 last hLast
        rw [hUnnumbered] at hNumbered
        cases hNumbered
  | overridden _ _ last' _ _ _ hLast' hUnnumbered =>
      rw [hLast, Option.some.injEq] at hLast'
      subst hLast'
      rw [hUnnumbered] at hNumbered
      cases hNumbered

theorem Terminals.own {terminals : List TaskEvent} (h : Terminals terminals) :
    (terminals.filter (!·.byOverride)).length ≤ 1 := by
  cases h with
  | none => decide
  | one event hOwn => simp [hOwn]
  | two first second hOwn _ _ hOverride => simp [hOwn, hOverride]

theorem Terminals.overrides {terminals : List TaskEvent} (h : Terminals terminals) :
    (terminals.filter (·.byOverride)).length ≤ 1 := by
  cases h with
  | none => decide
  | one event hOwn => simp [hOwn]
  | two first second hOwn _ _ hOverride => simp [hOwn, hOverride]

/-- The terminal event that stands, when an agent reported one. -/
theorem Terminals.standing {terminals : List TaskEvent} (h : Terminals terminals)
    {event : TaskEvent} (hEvent : event ∈ terminals)
    (hReported : event.byOverride = true ∨ event.event.agentPos.isSome = true) :
    ∃ last, terminals.getLast? = some last ∧ last.event.agentPos.isSome = true := by
  cases h with
  | none => cases hEvent
  | one only hOwn =>
      rw [List.mem_singleton] at hEvent
      subst hEvent
      refine ⟨event, rfl, hReported.resolve_left (by simp [hOwn])⟩
  | two first second _ _ _ _ hNumbered => exact ⟨second, rfl, hNumbered⟩

/-- An override that writes replaces the only terminal there is, and no LOST. -/
theorem override_replaces {kind : TaskEventKind} {event : NewEvent}
    {k : Bool → Program Unit}
    (hGuard : TxnGuard settings False (.overrideServerOutcome x kind event) k db)
    (hRow : db.task? x = some row) (hWritten : row.Written (db.terminalsOf x))
    (hStep : TaskStep e db x row (.overrideServerOutcome x kind event) row' events)
    (hWrites : events.filter (isTerminal ·.kind) ≠ []) :
    ∃ last, standingTerminal db x = some last ∧ last.event.agentPos = none ∧
      ∀ event ∈ db.terminalsOf x, event.kind ≠ .lost := by
  obtain ⟨-, -, -, row₀, hRow₀, -, hSettled⟩ := hGuard
  rw [hRow, Option.some.injEq] at hRow₀
  subst hRow₀
  cases hStep with
  | same op events hMirror => exact absurd (filter_mirrors hMirror) hWrites
  | dated => exact absurd rfl hWrites
  | overridden kind event last hDone hLast hUnnumbered =>
      refine ⟨last, hLast, hUnnumbered, fun event hEvent hKind => ?_⟩
      obtain ⟨hOnly, -⟩ := hWritten.shape.unnumbered hLast hUnnumbered
      rw [hOnly, List.mem_singleton] at hEvent
      subst hEvent
      exact hSettled (hWritten.lost event hOnly hKind)

/-- What is written for a task that has no row before the transaction ends
nothing. -/
theorem terminals_new (hInv : db.Inv False) (hGuard : TxnGuard settings False op k db)
    (hNone : db.task? x = none) : (Txn.exec settings e op db).2.terminalsOf x = [] := by
  obtain ⟨events, hEvents, hNew⟩ := absent_exec settings e op hNone (by
    rintro kind event rfl
    obtain ⟨row, hRow⟩ := hGuard.1
    rw [hNone] at hRow
    cases hRow)
  rw [Db.terminalsOf, List.filter_eq_nil_iff, hEvents]
  intro event hEvent
  rcases (List.mem_append.mp hEvent).elim (hInv.absent hNone event) (hNew event) with
    hMirror | ⟨hKind, -⟩
  · simp [IsMirror.not_terminal hMirror]
  · simp [hKind, isTerminal, terminalKinds]

/-- What every row says of the terminal events of its task. -/
def Db.Written (db : Db) : Prop :=
  ∀ x row, db.task? x = some row → row.Written (db.terminalsOf x)

theorem terminalsOf_becomes {db' : Db} {row' : Task} (h : db.Becomes db' x row' events) :
    db'.terminalsOf x = db.terminalsOf x ++ events.filter (isTerminal ·.kind) := by
  rw [Db.terminalsOf, h.2, List.filter_append]
  rfl

/-- A task without a row has no terminal event. -/
theorem exists_of_terminal (hInv : db.Inv False) {event : TaskEvent}
    (hEvent : event ∈ db.terminalsOf x) : ∃ row, db.task? x = some row := by
  cases hRow : db.task? x with
  | some row => exact ⟨row, rfl⟩
  | none =>
      obtain ⟨hMem, hKind⟩ := List.mem_filter.mp hEvent
      rcases hInv.absent hRow event hMem with hMirror | ⟨hHeld, -⟩
      · rw [IsMirror.not_terminal hMirror] at hKind
        cases hKind
      · rw [hHeld] at hKind
        cases hKind

theorem terminals_shape (hInv : db.Inv False) (hWritten : db.Written) (x : Nat) :
    Terminals (db.terminalsOf x) := by
  cases hTerminals : db.terminalsOf x with
  | nil => exact .none
  | cons event rest =>
      obtain ⟨row, hRow⟩ := exists_of_terminal (x := x) hInv
        (hTerminals ▸ List.mem_cons_self : event ∈ db.terminalsOf x)
      exact hTerminals ▸ (hWritten x row hRow).shape

theorem written_exec (hInv : db.Inv False)
    (hGuard : TxnGuard settings False op k db) (hStand : outcomesStand e op db = true)
    (hWritten : db.Written) : (Txn.exec settings e op db).2.Written := by
  intro x row' hRow'
  cases hRow : db.task? x with
  | some row =>
      obtain ⟨row'', events, hBecomes, hStep⟩ := taskStep settings e op hInv.tree hRow
      rw [hBecomes.1, Option.some.injEq] at hRow'
      subst hRow'
      rw [terminalsOf_becomes hBecomes]
      exact written_step hInv.tree hStand hRow (hWritten x row hRow)
        (outcomeStep hGuard hRow hStep)
  | none =>
      rw [terminals_new hInv hGuard hRow]
      exact ⟨.none, fun h => absurd rfl h, fun event hOne => by cases hOne⟩

end

section

variable {settings : Settings} {C : ServerConfig → Choice Env Request → Prop}
variable {c₀ c c' : ServerConfig} {a : Choice Env Request}

/-- **Run lemma**: while outcomes stand, every row is written as it ended. -/
theorem written_run (hInit : Initial c₀) (hC : ∀ c a, C c a → OutcomesStand c a)
    (hRun : (server settings).Run C c₀ c) : c.state.Written :=
  state_run hInit hC hRun (fun _ hFresh _ _ hRow => absurd hRow hFresh.not_row)
    fun _ _ _ _ hInv hGuard hStand hWritten => written_exec hInv hGuard hStand hWritten

/-- A step that overrides the outcome of a task. -/
def Overrides (c : ServerConfig) (a : Choice Env Request) (c' : ServerConfig) (x : Nat) : Prop :=
  (∃ kind event, Runs c a (.overrideServerOutcome x kind event)) ∧
    c'.state.terminalsOf x ≠ c.state.terminalsOf x

/-- **A terminal is written once** in every run in which outcomes stand: one
terminal event at most is not an override's and one at most is; an override
replaces a terminal that carries no agent position, and never a LOST; and once
an agent's report stands no step changes the kind. -/
theorem terminal_written_once (hInit : Initial c₀)
    (hRun : (server settings).Run OutcomesStand c₀ c) (x : Nat) :
    ((c.state.terminalsOf x).filter (!·.byOverride)).length ≤ 1 ∧
    ((c.state.terminalsOf x).filter (·.byOverride)).length ≤ 1 ∧
    ∀ a c', OutcomesStand c a → (server settings).next c a = some c' →
      (Overrides c a c' x → ∃ last, standingTerminal c.state x = some last ∧
        last.event.agentPos = none ∧
        ∀ event ∈ c.state.terminalsOf x, event.kind ≠ .lost) ∧
      ((∃ event ∈ c.state.terminalsOf x,
          event.byOverride = true ∨ event.event.agentPos.isSome = true) →
        ∃ row row', c.state.task? x = some row ∧ c'.state.task? x = some row' ∧
          row'.latestEventKind = row.latestEventKind) := by
  have hOk := ok_run hInit hRun
  have hAll := written_run hInit (fun _ _ h => h) hRun
  have hShape := terminals_shape hOk.inv hAll x
  refine ⟨hShape.own, hShape.overrides, fun a c' hStand hNext => ?_⟩
  have hMove := Machine.moves_of_next hNext
  refine ⟨fun ⟨⟨kind, event, i, e, k, hStep, hHead⟩, hChanged⟩ => ?_,
    fun ⟨event, hEvent, hReported⟩ => ?_⟩
  · subst hStep
    have hGuard : TxnGuard settings False (.overrideServerOutcome x kind event) k c.state :=
      hOk.guard hHead
    obtain ⟨row, hRow, -⟩ := hGuard.2.2.2
    obtain ⟨row', events, hBecomes, hTaskStep⟩ := taskStep settings e
      (.overrideServerOutcome x kind event) hOk.inv.tree hRow
    refine override_replaces hGuard hRow (hAll x row hRow) hTaskStep fun hNil => hChanged ?_
    have hState := step_state hMove hHead
    rw [hState, terminalsOf_becomes hBecomes, hNil, List.append_nil]
  · obtain ⟨last, hLast, hNumbered⟩ := hShape.standing hEvent hReported
    obtain ⟨row, hRow⟩ := exists_of_terminal hOk.inv hEvent
    have hDone := (hAll x row hRow).done (List.ne_nil_of_mem hEvent)
    rcases moves_state hOk hMove with hSame | ⟨i, e, op, k, rfl, hHead, hGuard, hState⟩
    · exact ⟨row, row, hRow, hSame ▸ hRow, rfl⟩
    · obtain ⟨row', events, hBecomes, hTaskStep⟩ := taskStep settings e op hOk.inv.tree hRow
      rw [← hState] at hBecomes
      exact ⟨row, row', hRow, hBecomes.1, reported_step hOk.inv.tree
        (Machine.onStep_step hHead hStand) hRow hDone hLast hNumbered
        (outcomeStep hGuard hRow hTaskStep)⟩

end

/-! ## Runs on the small site -/

/-- A delayed task is cancelled before it is due; later a report of an earlier
session says that it completed. -/
def cancelThenReport : List (Choice Env Request) :=
  Request.alone (.assign person {
    implementation := some 0
    notBefore := some 10
    fresh := "later"
    freshLower := "" }) 0 7 ++
    Request.alone (.control 0 .cancel (some 0)) 1 6 ++
    Request.alone (.report 0 {
      task := 0
      report := .completed
      pos := some 1
      journalSession := some 9 }) 2 3

theorem terminal_written_once_overridden : ∃ c, (server {}).Run OutcomesStand demo c ∧
    ((c.state.terminalsOf 0).map (·.kind) == [.cancelled, .completed]) = true ∧
    ((c.state.terminalsOf 0).filter (!·.byOverride)).length ≤ 1 ∧
    ((c.state.terminalsOf 0).filter (·.byOverride)).length ≤ 1 := by
  obtain ⟨c, hRun, hCheck⟩ := System.run_of_play_any (server {}) OutcomesStand demo
    cancelThenReport (fun c => (c.state.terminalsOf 0).map (·.kind) == [.cancelled, .completed])
    (by decide)
  have hOnce := terminal_written_once demo_initial hRun 0
  exact ⟨c, hRun, hCheck, hOnce.1, hOnce.2.1⟩

/-- The lower child of a held wrapper is reported started; its agent's process is
replaced, so it is LOST; before its end reaches the wrapper, that is cancelled,
and then the lost process reports that the child completed. -/
def lostThenCancelled : List (Choice Env Request) :=
  assignRoot ++ askWrapper ++
    Request.alone (.report 1 { task := 2, report := .started }) 2 3 ++
    Request.alone (.connected 1 1 (some 1) true) 3 7 ++
    Request.alone (.control 1 .cancel (some 0)) 4 6 ++
    Request.alone (.report 1 {
      task := 2
      report := .completed
      pos := some 1
      journalSession := some 0 }) 5 3

/-- A LOST task is overridden once its wrapper's end moved it to CANCELLED. -/
theorem overridden_after_lost : ∃ c, (server {}).Run System.anyStep demo c ∧
    ∃ lost ∈ c.state.terminalsOf 2, lost.kind = .lost ∧
      ∃ override ∈ c.state.terminalsOf 2, override.byOverride = true := by
  obtain ⟨c, hRun, hCheck⟩ := System.run_of_play_any (server {}) System.anyStep demo
    lostThenCancelled (fun c => (c.state.terminalsOf 2).any (fun event => event.kind == .lost &&
      (c.state.terminalsOf 2).any (·.byOverride))) (by decide)
  obtain ⟨lost, hLost, hBoth⟩ := List.any_eq_true.mp hCheck
  rw [Bool.and_eq_true, beq_iff_eq] at hBoth
  exact ⟨c, hRun, lost, hLost, hBoth.1, List.any_eq_true.mp hBoth.2⟩

end Rekuest
