import Rekuest.Events.Latest

/-!
# Runs of the transactions that write events

Whatever transactions are open, the row of every task shows the last report of the events that
are committed, as long as every update comes in the order of its event's id.  Where each of them
holds the lock of the row before it draws an id, they all do; a statement by itself that waits for
a claim does not.
-/

namespace Rekuest.Events

open Concurrent (Tx Txs System)
open Concurrent.System

variable {J : Type} {s s' : Store J} {x : Nat}

/-! ## The steps -/

theorem Inv.keep (h : Inv s) {tx : Tx Nat (Kept J)} {event : TaskEvent J}
    (hTx : s.txs.open? x = some tx) (hWaiting : s.waiting x = some event)
    (hFree : s.txs.lockedByOther x event.task = false) (hInOrder : InOrder s (.keep x)) :
    Inv (({ s with
      txs := (s.txs.lock x event.task).write x
        (.mk event (Events.kept event (s.view tx.writes event.task))) } : Store J).setWaiting x none) where
  exclusive := by
    have hLocked : (s.txs.lock x event.task).Exclusive :=
      Txs.Exclusive.lock h.exclusive fun _ hHolds => Txs.eq_of_holds_of_free hFree hHolds
    show ((s.txs.lock x event.task).write x
      (.mk event (Events.kept event (s.view tx.writes event.task)))).Exclusive
    exact Txs.Exclusive.of_holds hLocked Txs.holds_write
  committed := h.committed
  numbered := by
    intro y e hIs
    have hWas : (if y = x then none else s.waiting y) = some e := hIs
    by_cases hSelf : y = x
    · rw [if_pos hSelf] at hWas
      cases hWas
    · rw [if_neg hSelf] at hWas
      exact h.numbered y e hWas
  own := by
    intro y ty hOpen
    have hIs : ((s.txs.lock x event.task).write x
      (.mk event (Events.kept event (s.view tx.writes event.task)))).open? y = some ty := hOpen
    by_cases hSelf : y = x
    · rw [hSelf, Txs.open?_write_self, Txs.open?_lock_self, hTx] at hIs
      have hOwn := h.own x tx hTx
      rw [← Option.some.inj hIs, hSelf]
      constructor
      · intro w hMem
        cases List.mem_append.1 hMem with
        | inl hOld => exact List.mem_cons_of_mem _ (hOwn.locked w hOld)
        | inr hNew =>
            rw [List.mem_singleton.1 hNew]
            exact List.mem_cons_self
      · exact hOwn.kept hWaiting hInOrder
      · intro w hMem
        cases List.mem_append.1 hMem with
        | inl hOld => exact hOwn.drawn w hOld
        | inr hNew =>
            rw [List.mem_singleton.1 hNew]
            exact h.numbered x event hWaiting
      · intro e hStill
        have hNone : (if x = x then none else s.waiting x) = some e := hStill
        rw [if_pos rfl] at hNone
        cases hNone
    · rw [Txs.open?_write_ne _ hSelf, Txs.open?_lock_ne _ hSelf] at hIs
      have hOwn := h.own y ty hIs
      refine ⟨hOwn.locked, hOwn.reads, hOwn.drawn, fun e hStill => ?_⟩
      have hWas : (if y = x then none else s.waiting y) = some e := hStill
      rw [if_neg hSelf] at hWas
      exact hOwn.waiting e hWas

/-- Two open transactions write of different tasks. -/
theorem Inv.apart (h : Inv s) {y : Nat} {tx ty : Tx Nat (Kept J)} (hTx : s.txs.open? x = some tx)
    (hTy : s.txs.open? y = some ty) (hNe : y ≠ x) {w v : Kept J} (hw : w ∈ tx.writes)
    (hv : v ∈ ty.writes) : w.event.task ≠ v.event.task := by
  intro hSame
  apply hNe
  have hTheirs : s.txs.Holds y v.event.task := ⟨ty, hTy, (h.own y ty hTy).locked v hv⟩
  have hMine : s.txs.Holds x v.event.task := ⟨tx, hTx, hSame ▸ (h.own x tx hTx).locked w hw⟩
  exact h.exclusive hTheirs hMine

theorem Inv.commit (h : Inv s) {tx : Tx Nat (Kept J)} (hTx : s.txs.open? x = some tx) :
    Inv { s with
      rows := s.view tx.writes
      events := s.events ++ tx.writes.map (·.event)
      txs := s.txs.close x } where
  exclusive := Txs.Exclusive.of_holds h.exclusive Txs.holds_close
  committed := (h.own x tx hTx).reads
  numbered := h.numbered
  own := by
    intro y ty hOpen
    by_cases hSelf : y = x
    · rw [hSelf] at hOpen
      have hClosed : (s.txs.close x).open? x = some ty := hOpen
      rw [Txs.open?_close_self] at hClosed
      cases hClosed
    · have hTy : (s.txs.close x).open? y = some ty := hOpen
      rw [Txs.open?_close_ne hSelf] at hTy
      have hOwn := h.own y ty hTy
      refine ⟨hOwn.locked, fun task => ?_, hOwn.drawn, hOwn.waiting⟩
      by_cases hMine : ∃ v ∈ ty.writes, v.event.task = task
      · -- Its row is its own, and what was committed is of other tasks.
        have hOthers : eventsOf (tx.writes.map (·.event)) task = [] := by
          apply eventsOf_none
          intro e hMem hTask
          obtain ⟨w, hw, rfl⟩ := List.mem_map.1 hMem
          obtain ⟨v, hv, hIs⟩ := hMine
          exact h.apart hTx hTy hSelf hw hv (hTask.trans hIs.symm)
        have hReads := hOwn.reads task
        rw [← view_own hMine] at hReads
        have hEvents : eventsOf (s.events ++ tx.writes.map (·.event) ++ ty.writes.map (·.event)) task =
            eventsOf (s.events ++ ty.writes.map (·.event)) task := by
          rw [eventsOf_append, eventsOf_append, hOthers, List.append_nil, ← eventsOf_append]
        constructor
        · rw [hEvents]
          exact hReads.progress
        · rw [hEvents]
          exact hReads.message
        · rw [hEvents]
          exact hReads.returns
      · have hNone : ∀ v ∈ ty.writes, v.event.task ≠ task := fun v hv hIs => hMine ⟨v, hv, hIs⟩
        rw [view_none hNone]
        apply ((h.own x tx hTx).reads task).others
        intro e hMem
        obtain ⟨v, hv, rfl⟩ := List.mem_map.1 hMem
        exact hNone v hv

theorem Inv.rollback (h : Inv s) :
    Inv (({ s with txs := s.txs.close x } : Store J).setWaiting x none) where
  exclusive := Txs.Exclusive.of_holds h.exclusive Txs.holds_close
  committed := h.committed
  numbered := by
    intro y e hIs
    have hWas : (if y = x then none else s.waiting y) = some e := hIs
    by_cases hSelf : y = x
    · rw [if_pos hSelf] at hWas
      cases hWas
    · rw [if_neg hSelf] at hWas
      exact h.numbered y e hWas
  own := by
    intro y ty hOpen
    have hIs : (s.txs.close x).open? y = some ty := hOpen
    by_cases hSelf : y = x
    · rw [hSelf, Txs.open?_close_self] at hIs
      cases hIs
    · rw [Txs.open?_close_ne hSelf] at hIs
      have hOwn := h.own y ty hIs
      refine ⟨hOwn.locked, hOwn.reads, hOwn.drawn, fun e hStill => ?_⟩
      have hWas : (if y = x then none else s.waiting y) = some e := hStill
      rw [if_neg hSelf] at hWas
      exact hOwn.waiting e hWas

/-- Every step keeps it, an update where it is in order. -/
theorem Inv.next (h : Inv s) {act : Act J} (hInOrder : InOrder s act)
    (hNext : (database J).next s act = some s') : Inv s' := by
  cases act with
  | start x =>
      have hStart : (if x = s.txs.length then some { s with txs := (s.txs.start 0).2 } else none) =
        some s' := hNext
      by_cases hLast : x = s.txs.length
      · rw [if_pos hLast] at hStart
        rw [← Option.some.inj hStart]
        exact h.start
      · rw [if_neg hLast] at hStart
        cases hStart
  | lock x task =>
      obtain ⟨tx, -, hLock⟩ := within_some hNext
      by_cases hFree : s.waiting x = none ∧ s.txs.lockedByOther x task = false
      · rw [if_pos hFree] at hLock
        rw [← Option.some.inj hLock]
        exact h.lock hFree.2
      · rw [if_neg hFree] at hLock
        cases hLock
  | insert x task kind event =>
      obtain ⟨tx, -, hInsert⟩ := within_some hNext
      cases hWaiting : s.waiting x with
      | some other =>
          rw [hWaiting] at hInsert
          cases hInsert
      | none =>
          rw [hWaiting] at hInsert
          rw [← Option.some.inj hInsert]
          exact h.insert _ rfl
  | keep x =>
      obtain ⟨tx, hTx, hKeep⟩ := within_some hNext
      cases hWaiting : s.waiting x with
      | none =>
          rw [hWaiting] at hKeep
          cases hKeep
      | some event =>
          rw [hWaiting] at hKeep
          dsimp only at hKeep
          by_cases hFree : s.txs.lockedByOther x event.task = false
          · rw [if_pos hFree] at hKeep
            rw [← Option.some.inj hKeep]
            exact h.keep hTx hWaiting hFree hInOrder
          · rw [if_neg hFree] at hKeep
            cases hKeep
  | commit x =>
      obtain ⟨tx, hTx, hCommit⟩ := within_some hNext
      cases hWaiting : s.waiting x with
      | some event =>
          rw [hWaiting] at hCommit
          cases hCommit
      | none =>
          rw [hWaiting] at hCommit
          rw [← Option.some.inj hCommit]
          exact h.commit hTx
  | rollback x =>
      obtain ⟨tx, -, hRollback⟩ := within_some hNext
      rw [← Option.some.inj hRollback]
      exact h.rollback

/-! ## Live tasks -/

/-- A database of tasks that have no event yet. -/
def fresh (J : Type) : Store J := {}

theorem Inv.fresh : Inv (fresh J) where
  exclusive := Txs.exclusive_nil
  committed task := ⟨.inl ⟨nofun, rfl⟩, .inl ⟨nofun, rfl⟩, .inl ⟨nofun, rfl⟩⟩
  numbered x e hIs := by cases hIs
  own x tx hOpen := by cases hOpen

/-- Two reports on one task, one after the other, and a message for another task meanwhile. -/
def reports : List (Act Nat) :=
  [.start 0, .start 1, .lock 0 7, .insert 0 7 .progress { progress := some 10 },
    .insert 1 8 .log { message := some "meanwhile" }, .keep 0, .commit 0, .keep 1, .commit 1] ++
    alone 2 7 .progress { progress := some 20, message := some "half" }

instance (s : Store J) (act : Act J) : Decidable (InOrder s act) :=
  match act with
  | .keep x =>
      match h : s.waiting x with
      | none => isTrue fun e hIs => by rw [h] at hIs; cases hIs
      | some event =>
          decidable_of_iff (∀ e' ∈ s.events, e'.task = event.task → Alike event e' → e'.id < event.id)
            ⟨fun hAll e hIs => by rw [h] at hIs; cases hIs; exact hAll, fun hAll => hAll event h⟩
  | .start _ | .lock _ _ | .insert _ _ _ _ | .commit _ | .rollback _ => isTrue trivial

def doneBy (x : Nat) (acts : List (Act J)) : List (Act J) := acts.filter fun act => act.tx = x

/-- A stream event draws its id, and waits for a claim that draws the next one. -/
def overtaken : List (Act Nat) :=
  [.start 0, .insert 0 7 .log { message := some "loading" }, .start 1, .lock 1 7,
    .insert 1 7 .failed { message := some "out of memory" }, .keep 1, .commit 1, .keep 0, .commit 0]

end Rekuest.Events
