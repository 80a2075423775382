import Rekuest.Events.Statement

/-!
# A live task shows its last report

Each column shows what the event with the greatest id that carries it carries, in every run whose
updates come in the order of their events' ids.  The updates of claims do, as a claim holds the
lock of the row from before it draws an id; a statement by itself draws its id before it waits for
the lock, and can be overtaken.
-/

namespace Rekuest.Events

open Concurrent (Tx Txs System)
open Concurrent.System

variable {J : Type}

/-! ## What a column shows -/

/-- The progress that an event carries. -/
def progress_of (event : TaskEvent J) : Option (Option Int) :=
  if event.kind = .progress ∧ event.progress.isSome then some event.progress else none

/-- The message that an event carries. -/
def message_of (event : TaskEvent J) : Option (Option String) := event.message.map some

/-- The returns of a yield, whatever they are. -/
def returns_of (event : TaskEvent J) : Option (Option J) :=
  if event.kind = .yield then some event.returns else none

/-- A column shows what the event with the greatest id carries, of those that carry anything; it
is null where none does. -/
def Shows {β : Type} (carried : TaskEvent J → Option (Option β)) (events : List (TaskEvent J))
    (column : Option β) : Prop :=
  (∀ e ∈ events, carried e = none) ∧ column = none ∨
    ∃ e ∈ events, carried e = some column ∧ ∀ e' ∈ events, carried e' ≠ none → e' = e ∨ e'.id < e.id

instance {β : Type} [DecidableEq β] [DecidableEq J] (carried : TaskEvent J → Option (Option β))
    (events : List (TaskEvent J)) (column : Option β) : Decidable (Shows carried events column) :=
  inferInstanceAs (Decidable (_ ∨ _))

/-- What an event carries is shown after it, where it is the last that carries anything. -/
theorem Shows.append {β : Type} {carried : TaskEvent J → Option (Option β)}
    {events : List (TaskEvent J)} {column : Option β} (h : Shows carried events column)
    {event : TaskEvent J}
    (hLast : carried event ≠ none → ∀ e ∈ events, carried e ≠ none → e.id < event.id) :
    Shows carried (events ++ [event]) ((carried event).getD column) := by
  cases hCarried : carried event with
  | none =>
      rcases h with ⟨hNone, hColumn⟩ | ⟨e, hMem, hShown, hGreatest⟩
      · refine .inl ⟨fun e hMem => ?_, hColumn⟩
        cases List.mem_append.1 hMem with
        | inl hOld => exact hNone e hOld
        | inr hNew => rw [List.mem_singleton.1 hNew, hCarried]
      · refine .inr ⟨e, List.mem_append_left _ hMem, hShown, fun e' hMem' hCarries => ?_⟩
        cases List.mem_append.1 hMem' with
        | inl hOld => exact hGreatest e' hOld hCarries
        | inr hNew =>
            rw [List.mem_singleton.1 hNew] at hCarries
            exact absurd hCarried hCarries
  | some value =>
      have hCarries : carried event ≠ none := by
        rw [hCarried]
        exact Option.some_ne_none value
      refine .inr ⟨event, List.mem_append_right _ (List.mem_singleton.2 rfl), hCarried, ?_⟩
      intro e' hMem' hCarries'
      cases List.mem_append.1 hMem' with
      | inl hOld => exact .inr (hLast hCarries e' hOld hCarries')
      | inr hNew => exact .inl (List.mem_singleton.1 hNew)

/-! ## What a row shows -/

def eventsOf (events : List (TaskEvent J)) (task : Nat) : List (TaskEvent J) :=
  events.filter fun e => e.task = task

theorem mem_eventsOf {events : List (TaskEvent J)} {task : Nat} {e : TaskEvent J} :
    e ∈ eventsOf events task ↔ e ∈ events ∧ e.task = task := by
  unfold eventsOf
  rw [List.mem_filter, decide_eq_true_iff]

theorem eventsOf_append (events more : List (TaskEvent J)) (task : Nat) :
    eventsOf (events ++ more) task = eventsOf events task ++ eventsOf more task :=
  List.filter_append ..

theorem eventsOf_none {events : List (TaskEvent J)} {task : Nat} (h : ∀ e ∈ events, e.task ≠ task) :
    eventsOf events task = [] := by
  unfold eventsOf
  rw [List.filter_eq_nil_iff]
  intro e hMem
  rw [decide_eq_true_iff]
  exact h e hMem

/-- The row of a task shows its last report. -/
structure Reads (events : List (TaskEvent J)) (task : Nat) (row : Report J) : Prop where
  progress : Shows progress_of (eventsOf events task) row.latest_progress
  message : Shows message_of (eventsOf events task) row.latest_message
  returns : Shows returns_of (eventsOf events task) row.latest_returns

instance [DecidableEq J] (events : List (TaskEvent J)) (task : Nat) (row : Report J) :
    Decidable (Reads events task row) :=
  decidable_of_iff (Shows progress_of (eventsOf events task) row.latest_progress ∧
      Shows message_of (eventsOf events task) row.latest_message ∧
        Shows returns_of (eventsOf events task) row.latest_returns)
    ⟨fun ⟨hProgress, hMessage, hReturns⟩ => ⟨hProgress, hMessage, hReturns⟩,
      fun ⟨hProgress, hMessage, hReturns⟩ => ⟨hProgress, hMessage, hReturns⟩⟩

/-- Two events carry something for one column. -/
def Alike (e e' : TaskEvent J) : Prop :=
  progress_of e ≠ none ∧ progress_of e' ≠ none ∨ message_of e ≠ none ∧ message_of e' ≠ none ∨
    returns_of e ≠ none ∧ returns_of e' ≠ none

instance (e e' : TaskEvent J) : Decidable (Alike e e') :=
  decidable_of_iff ((progress_of e).isSome ∧ (progress_of e').isSome ∨
      (message_of e).isSome ∧ (message_of e').isSome ∨ (returns_of e).isSome ∧ (returns_of e').isSome)
    (by simp only [Alike, Option.isSome_iff_ne_none])

theorem kept_progress (event : TaskEvent J) (t : Report J) :
    (kept event t).latest_progress = (progress_of event).getD t.latest_progress := by
  unfold kept progress_of
  dsimp only
  by_cases h : event.kind = .progress ∧ event.progress.isSome
  · rw [if_pos h, if_pos h]
    rfl
  · rw [if_neg h, if_neg h]
    rfl

theorem kept_message (event : TaskEvent J) (t : Report J) :
    (kept event t).latest_message = (message_of event).getD t.latest_message := by
  unfold kept message_of
  dsimp only
  cases event.message with
  | none => rfl
  | some message => rfl

theorem kept_returns (event : TaskEvent J) (t : Report J) :
    (kept event t).latest_returns = (returns_of event).getD t.latest_returns := by
  unfold kept returns_of
  dsimp only
  by_cases h : event.kind = .yield
  · rw [if_pos h, if_pos h]
    rfl
  · rw [if_neg h, if_neg h]
    rfl

/-- The update of a row that shows its last report, by an event after those alike. -/
theorem Reads.kept {events : List (TaskEvent J)} {task : Nat} {row : Report J}
    (h : Reads events task row) {event : TaskEvent J} (hTask : event.task = task)
    (hLast : ∀ e ∈ events, e.task = task → Alike event e → e.id < event.id) :
    Reads (events ++ [event]) task (Events.kept event row) := by
  have hEvents : eventsOf (events ++ [event]) task = eventsOf events task ++ [event] := by
    rw [eventsOf_append]
    congr 1
    unfold eventsOf
    rw [List.filter_cons, if_pos (decide_eq_true hTask)]
    rfl
  have hBefore : ∀ e ∈ eventsOf events task, Alike event e → e.id < event.id := by
    intro e hMem hAlike
    obtain ⟨hIn, hIs⟩ := mem_eventsOf.1 hMem
    exact hLast e hIn hIs hAlike
  constructor
  · rw [hEvents, kept_progress]
    exact h.progress.append fun hNew e hMem hOld => hBefore e hMem (.inl ⟨hNew, hOld⟩)
  · rw [hEvents, kept_message]
    exact h.message.append fun hNew e hMem hOld => hBefore e hMem (.inr (.inl ⟨hNew, hOld⟩))
  · rw [hEvents, kept_returns]
    exact h.returns.append fun hNew e hMem hOld => hBefore e hMem (.inr (.inr ⟨hNew, hOld⟩))

/-- Events of other tasks are not read. -/
theorem Reads.others {events more : List (TaskEvent J)} {task : Nat} {row : Report J}
    (h : Reads events task row) (hOthers : ∀ e ∈ more, e.task ≠ task) :
    Reads (events ++ more) task row := by
  have hEvents : eventsOf (events ++ more) task = eventsOf events task := by
    rw [eventsOf_append, eventsOf_none hOthers, List.append_nil]
  constructor
  · rw [hEvents]
    exact h.progress
  · rw [hEvents]
    exact h.message
  · rw [hEvents]
    exact h.returns

/-! ## The view of a transaction -/

section

variable {s : Store J} {writes : List (Kept J)} {task : Nat}

theorem view_none (h : ∀ w ∈ writes, w.event.task ≠ task) : s.view writes task = s.rows task := by
  have hFilter : (writes.filter fun w => w.event.task = task) = [] := by
    rw [List.filter_eq_nil_iff]
    intro w hMem
    rw [decide_eq_true_iff]
    exact h w hMem
  unfold Store.view
  rw [hFilter]
  rfl

/-- A row that a transaction wrote is what it wrote, whatever is committed. -/
theorem view_own {s' : Store J} (h : ∃ w ∈ writes, w.event.task = task) :
    s'.view writes task = s.view writes task := by
  obtain ⟨w, hMem, hTask⟩ := h
  have hIn : w ∈ writes.filter fun w => w.event.task = task :=
    List.mem_filter.2 ⟨hMem, decide_eq_true hTask⟩
  unfold Store.view
  cases hLast : (writes.filter fun w => w.event.task = task).getLast? with
  | none =>
      rw [List.getLast?_eq_none_iff.1 hLast] at hIn
      cases hIn
  | some last => rfl

theorem view_append_self (w : Kept J) : s.view (writes ++ [w]) w.event.task = w.row := by
  unfold Store.view
  rw [List.filter_append, List.filter_cons, if_pos (decide_eq_true rfl), List.filter_nil,
    List.getLast?_concat]
  rfl

theorem view_append_other {w : Kept J} (h : w.event.task ≠ task) :
    s.view (writes ++ [w]) task = s.view writes task := by
  unfold Store.view
  rw [List.filter_append, List.filter_cons, if_neg (fun hIs => h (of_decide_eq_true hIs)),
    List.filter_nil, List.append_nil]

end

/-! ## What holds after every step -/

/-- What an open transaction wrote: rows it holds, which show the last report with its own. -/
structure Own (s : Store J) (x : Nat) (tx : Tx Nat (Kept J)) : Prop where
  locked : ∀ w ∈ tx.writes, w.event.task ∈ tx.locks
  reads : ∀ task, Reads (s.events ++ tx.writes.map (·.event)) task (s.view tx.writes task)
  drawn : ∀ w ∈ tx.writes, w.event.id ≤ s.sequence
  waiting : ∀ e, s.waiting x = some e → ∀ w ∈ tx.writes, w.event.id < e.id

structure Inv (s : Store J) : Prop where
  exclusive : s.txs.Exclusive
  committed : ∀ task, Reads s.events task (s.rows task)
  numbered : ∀ x e, s.waiting x = some e → e.id ≤ s.sequence
  own : ∀ x tx, s.txs.open? x = some tx → Own s x tx

/-- The row of a task is updated by an event after those, committed, that it carries alike. -/
def InOrder (s : Store J) : Act J → Prop
  | .keep x => ∀ e, s.waiting x = some e → ∀ e' ∈ s.events, e'.task = e.task → Alike e e' → e'.id < e.id
  | _ => True

section

variable {s s' : Store J} {x : Nat}

theorem within_some {f : Tx Nat (Kept J) → Option (Store J)} (h : s.within x f = some s') :
    ∃ tx, s.txs.open? x = some tx ∧ f tx = some s' :=
  Option.bind_eq_some_iff.1 h

theorem Inv.start (h : Inv s) : Inv { s with txs := (s.txs.start 0).2 } where
  exclusive := Txs.Exclusive.of_holds h.exclusive Txs.holds_start
  committed := h.committed
  numbered := h.numbered
  own := by
    intro y ty hOpen
    have hLt := Txs.lt_of_open hOpen
    rw [Txs.length_start] at hLt
    by_cases hNew : y = s.txs.length
    · rw [hNew, Txs.open?_start_self] at hOpen
      rw [← Option.some.inj hOpen]
      constructor
      · intro w hMem
        cases hMem
      · intro task
        show Reads (s.events ++ []) task (s.rows task)
        rw [List.append_nil]
        exact h.committed task
      · intro w hMem
        cases hMem
      · intro e _ w hMem
        cases hMem
    · rw [Txs.open?_start_of_lt 0 (by omega)] at hOpen
      have hOwn := h.own y ty hOpen
      exact ⟨hOwn.locked, hOwn.reads, hOwn.drawn, hOwn.waiting⟩

theorem Inv.lock (h : Inv s) {task : Nat} (hFree : s.txs.lockedByOther x task = false) :
    Inv { s with txs := s.txs.lock x task } where
  exclusive := Txs.Exclusive.lock h.exclusive fun _ hHolds => Txs.eq_of_holds_of_free hFree hHolds
  committed := h.committed
  numbered := h.numbered
  own := by
    intro y ty hOpen
    by_cases hSelf : y = x
    · rw [hSelf, Txs.open?_lock_self] at hOpen
      obtain ⟨tx, hTx, rfl⟩ := Option.map_eq_some_iff.1 hOpen
      have hOwn := h.own x tx hTx
      rw [hSelf]
      exact ⟨fun w hMem => List.mem_cons_of_mem _ (hOwn.locked w hMem), hOwn.reads, hOwn.drawn,
        hOwn.waiting⟩
    · rw [Txs.open?_lock_ne task hSelf] at hOpen
      have hOwn := h.own y ty hOpen
      exact ⟨hOwn.locked, hOwn.reads, hOwn.drawn, hOwn.waiting⟩

theorem Inv.insert (h : Inv s) (event : TaskEvent J) (hId : event.id = s.sequence + 1) :
    Inv (({ s with sequence := s.sequence + 1 } : Store J).setWaiting x (some event)) where
  exclusive := h.exclusive
  committed := h.committed
  numbered := by
    intro y e hWaiting
    show e.id ≤ s.sequence + 1
    have hIs : (if y = x then some event else s.waiting y) = some e := hWaiting
    by_cases hSelf : y = x
    · rw [if_pos hSelf] at hIs
      rw [← Option.some.inj hIs]
      omega
    · rw [if_neg hSelf] at hIs
      have := h.numbered y e hIs
      omega
  own := by
    intro y ty hOpen
    have hOwn := h.own y ty hOpen
    constructor
    · exact hOwn.locked
    · exact hOwn.reads
    · intro w hMem
      show w.event.id ≤ s.sequence + 1
      have := hOwn.drawn w hMem
      omega
    · intro e hWaiting w hMem
      have hIs : (if y = x then some event else s.waiting y) = some e := hWaiting
      by_cases hSelf : y = x
      · rw [if_pos hSelf] at hIs
        rw [← Option.some.inj hIs]
        have := hOwn.drawn w hMem
        omega
      · rw [if_neg hSelf] at hIs
        exact hOwn.waiting e hIs w hMem

/-- The row a transaction updates shows its last report, where it is in order. -/
theorem Own.kept {tx : Tx Nat (Kept J)} {event : TaskEvent J} (hOwn : Own s x tx)
    (hWaiting : s.waiting x = some event) (hInOrder : InOrder s (.keep x)) (task : Nat) :
    Reads (s.events ++ (tx.writes ++
        [Kept.mk event (Events.kept event (s.view tx.writes event.task))]).map fun w => w.event) task
      (s.view (tx.writes ++ [Kept.mk event (Events.kept event (s.view tx.writes event.task))]) task) := by
  rw [List.map_append, List.map_singleton, ← List.append_assoc]
  by_cases hTask : event.task = task
  · subst hTask
    have hRow : s.view (tx.writes ++ [Kept.mk event (Events.kept event (s.view tx.writes event.task))])
        event.task = Events.kept event (s.view tx.writes event.task) := view_append_self _
    rw [hRow]
    apply (hOwn.reads event.task).kept rfl
    intro e hMem hSame hAlike
    cases List.mem_append.1 hMem with
    | inl hCommitted => exact hInOrder event hWaiting e hCommitted hSame hAlike
    | inr hMine =>
        obtain ⟨w, hIn, rfl⟩ := List.mem_map.1 hMine
        exact hOwn.waiting event hWaiting w hIn
  · rw [view_append_other hTask]
    apply (hOwn.reads task).others
    intro e hMem
    rw [List.mem_singleton.1 hMem]
    exact hTask

end

end Rekuest.Events
