import Rekuest.Concurrent.Pool

/-!
# Transactions that lock rows

An open transaction has begun at some time, holds the rows it locked until it
ends, and keeps its writes to itself until it commits.  A statement that needs a
row another transaction holds waits, and so does one of a transaction that has
ended: `Machine.waiting` is the pool in which blocked operations do not run.
-/

namespace Concurrent

/-- A transaction; `κ` names the rows it may lock, `ω` what it may write. -/
structure Tx (κ ω : Type) where
  started : Int
  isOpen : Bool := true
  locks : List κ := []
  writes : List ω := []

/-- The transactions of a database, by number. -/
abbrev Txs (κ ω : Type) := List (Tx κ ω)

namespace Txs

variable {κ ω : Type} {txs : Txs κ ω} {x y : Nat} {t : Tx κ ω}

/-- A transaction that has not ended. -/
def open? (txs : Txs κ ω) (x : Nat) : Option (Tx κ ω) := txs[x]?.filter (·.isOpen)

/-- Begin a transaction: its number. -/
def start (txs : Txs κ ω) (now : Int) : Nat × Txs κ ω :=
  (txs.length, txs ++ [{ started := now }])

def lock (txs : Txs κ ω) (x : Nat) (row : κ) : Txs κ ω :=
  txs.modify x fun t => { t with locks := row :: t.locks }

def write (txs : Txs κ ω) (x : Nat) (w : ω) : Txs κ ω :=
  txs.modify x fun t => { t with writes := t.writes ++ [w] }

/-- End a transaction: its locks are released. -/
def close (txs : Txs κ ω) (x : Nat) : Txs κ ω :=
  txs.modify x fun t => { t with isOpen := false }

theorem open?_eq_some : txs.open? x = some t ↔ txs[x]? = some t ∧ t.isOpen = true := by
  rw [open?, Option.filter_eq_some_iff]

theorem lt_of_open (h : txs.open? x = some t) : x < txs.length :=
  (List.getElem?_eq_some_iff.mp (open?_eq_some.mp h).1).1

/-! ## Reading the transactions after a change -/

theorem open?_start_self (now : Int) :
    (txs.start now).2.open? txs.length = some { started := now } := by
  simp [open?, start]

theorem open?_start_of_lt (now : Int) (h : x < txs.length) :
    (txs.start now).2.open? x = txs.open? x := by
  rw [open?, start, List.getElem?_append_left h]
  rfl

theorem open?_modify_ne {f : Tx κ ω → Tx κ ω} (h : y ≠ x) :
    open? (List.modify txs x f) y = txs.open? y := by
  rw [open?, List.getElem?_modify_ne _ _ (Ne.symm h)]
  rfl

theorem open?_modify_self {f : Tx κ ω → Tx κ ω} (hf : ∀ t, (f t).isOpen = t.isOpen) :
    open? (List.modify txs x f) x = (txs.open? x).map f := by
  rw [open?, open?, List.getElem?_modify_eq]
  cases txs[x]? with
  | none => rfl
  | some t => cases hOpen : t.isOpen <;> simp [Option.filter, hf, hOpen]

theorem open?_lock_self (row : κ) : (txs.lock x row).open? x =
    (txs.open? x).map fun t => { t with locks := row :: t.locks } :=
  open?_modify_self fun _ => rfl

theorem open?_lock_ne (row : κ) (h : y ≠ x) : (txs.lock x row).open? y = txs.open? y :=
  open?_modify_ne h

theorem open?_write_self (w : ω) : (txs.write x w).open? x =
    (txs.open? x).map fun t => { t with writes := t.writes ++ [w] } :=
  open?_modify_self fun _ => rfl

theorem open?_write_ne (w : ω) (h : y ≠ x) : (txs.write x w).open? y = txs.open? y :=
  open?_modify_ne h

theorem open?_close_self : (txs.close x).open? x = none := by
  rw [open?, close, List.getElem?_modify_eq]
  cases txs[x]? <;> rfl

theorem open?_close_ne (h : y ≠ x) : (txs.close x).open? y = txs.open? y :=
  open?_modify_ne h

@[simp] theorem length_start (now : Int) : (txs.start now).2.length = txs.length + 1 := by
  simp [start]

@[simp] theorem length_lock (row : κ) : (txs.lock x row).length = txs.length := by
  simp [lock]

@[simp] theorem length_write (w : ω) : (txs.write x w).length = txs.length := by
  simp [write]

@[simp] theorem length_close : (txs.close x).length = txs.length := by
  simp [close]

/-! ## Locks -/

variable {row : κ}

/-- An open transaction holds the row. -/
def Holds (txs : Txs κ ω) (x : Nat) (row : κ) : Prop :=
  ∃ t, txs.open? x = some t ∧ row ∈ t.locks

instance [DecidableEq κ] (txs : Txs κ ω) (x : Nat) (row : κ) : Decidable (txs.Holds x row) :=
  match h : txs.open? x with
  | some t => decidable_of_iff (row ∈ t.locks) (by simp [Holds, h])
  | none => isFalse (by simp [Holds, h])

/-- No two open transactions hold one row. -/
def Exclusive (txs : Txs κ ω) : Prop :=
  ∀ {x y : Nat} {row : κ}, txs.Holds x row → txs.Holds y row → x = y

theorem exclusive_nil : Exclusive ([] : Txs κ ω) := by
  rintro x y row ⟨t, hOpen, -⟩
  cases hOpen

theorem holds_start {now : Int} (h : (txs.start now).2.Holds x row) : txs.Holds x row := by
  obtain ⟨t, hOpen, hRow⟩ := h
  have hLt := lt_of_open hOpen
  rw [length_start] at hLt
  by_cases hLast : x = txs.length
  · subst hLast
    rw [open?_start_self] at hOpen
    cases hOpen
    cases hRow
  · rw [open?_start_of_lt now (by omega)] at hOpen
    exact ⟨t, hOpen, hRow⟩

theorem holds_write {w : ω} (h : (txs.write x w).Holds y row) : txs.Holds y row := by
  obtain ⟨t, hOpen, hRow⟩ := h
  by_cases hEq : y = x
  · subst hEq
    rw [open?_write_self, Option.map_eq_some_iff] at hOpen
    obtain ⟨t', hOpen, rfl⟩ := hOpen
    exact ⟨t', hOpen, hRow⟩
  · rw [open?_write_ne w hEq] at hOpen
    exact ⟨t, hOpen, hRow⟩

theorem holds_close (h : (txs.close x).Holds y row) : txs.Holds y row := by
  obtain ⟨t, hOpen, hRow⟩ := h
  by_cases hEq : y = x
  · subst hEq
    rw [open?_close_self] at hOpen
    cases hOpen
  · rw [open?_close_ne hEq] at hOpen
    exact ⟨t, hOpen, hRow⟩

theorem holds_lock {row' : κ} (h : (txs.lock x row).Holds y row') :
    txs.Holds y row' ∨ (y = x ∧ row' = row) := by
  obtain ⟨t, hOpen, hRow⟩ := h
  by_cases hEq : y = x
  · subst hEq
    rw [open?_lock_self, Option.map_eq_some_iff] at hOpen
    obtain ⟨t', hOpen, rfl⟩ := hOpen
    rcases List.mem_cons.mp hRow with rfl | hOld
    · exact .inr ⟨rfl, rfl⟩
    · exact .inl ⟨t', hOpen, hOld⟩
  · rw [open?_lock_ne row hEq] at hOpen
    exact .inl ⟨t, hOpen, hRow⟩

theorem Exclusive.of_holds {txs' : Txs κ ω} (h : txs.Exclusive)
    (hOld : ∀ {x row}, txs'.Holds x row → txs.Holds x row) : txs'.Exclusive :=
  fun hX hY => h (hOld hX) (hOld hY)

/-- A lock that nobody else holds is taken. -/
theorem Exclusive.lock (h : txs.Exclusive) (hFree : ∀ y, txs.Holds y row → y = x) :
    (txs.lock x row).Exclusive := by
  intro y z row' hY hZ
  rcases holds_lock hY with hOldY | ⟨rfl, rfl⟩
  · rcases holds_lock hZ with hOldZ | ⟨rfl, rfl⟩
    · exact h hOldY hOldZ
    · exact hFree y hOldY
  · rcases holds_lock hZ with hOldZ | ⟨rfl, -⟩
    · exact (hFree z hOldZ).symm
    · rfl

section

variable [DecidableEq κ]

/-- Some transaction holds the row. -/
def locked (txs : Txs κ ω) (row : κ) : Bool :=
  (List.range txs.length).any fun y => txs.Holds y row

/-- Another transaction holds the row. -/
def lockedByOther (txs : Txs κ ω) (x : Nat) (row : κ) : Bool :=
  (List.range txs.length).any fun y => y != x && txs.Holds y row

theorem not_holds_of_free (h : txs.locked row = false) (y : Nat) : ¬ txs.Holds y row := by
  intro hHolds
  have ⟨_, hOpen, _⟩ := hHolds
  rw [locked, List.any_eq_false] at h
  exact h y (List.mem_range.mpr (lt_of_open hOpen)) (decide_eq_true hHolds)

theorem eq_of_holds_of_free (h : txs.lockedByOther x row = false) (hHolds : txs.Holds y row) :
    y = x := by
  by_cases hEq : y = x
  · exact hEq
  · have ⟨_, hOpen, _⟩ := hHolds
    rw [lockedByOther, List.any_eq_false] at h
    have hMine := h y (List.mem_range.mpr (lt_of_open hOpen))
    simp [hEq, hHolds] at hMine

end

end Txs

/-! ## Waiting -/

namespace Machine

variable {ε ρ σ : Type} {Op : Type 1} {Res : Op → Type}

/-- The pool in which an operation that is blocked waits. -/
def waiting (M : Machine ε ρ σ Res) (blocked : Op → σ → Bool) :
    System (Config σ Res) (Choice ε ρ) where
  next c a :=
    if onStep (fun _ op s => blocked op s = false) c a then M.pool.next c a else none

/-- What waits runs in the pool, and no blocked operation does. -/
theorem run_of_waiting {M : Machine ε ρ σ Res} {blocked : Op → σ → Bool}
    {C : Config σ Res → Choice ε ρ → Prop} {c₀ c : Config σ Res}
    (h : (M.waiting blocked).Run C c₀ c) :
    M.pool.Run (fun c a => C c a ∧ onStep (fun _ op s => blocked op s = false) c a) c₀ c := by
  induction h with
  | refl => exact .refl
  | step _ hC hNext ih =>
      simp only [waiting] at hNext
      split at hNext
      case isTrue hFree => exact ih.step ⟨hC, hFree⟩ hNext
      case isFalse => cases hNext

end Machine

end Concurrent
