import Mathlib.Data.List.Basic

/-!
# Row locks of several modes

A transaction is granted a lock of a row in a mode, where no other holds the row in a mode that
conflicts with it.  The locks of a transaction are given back together, when it ends.
-/

namespace Concurrent

/-- A lock that a transaction holds; `κ` names the rows and `μ` the modes. -/
structure Grant (κ μ : Type) where
  tx : Nat
  row : κ
  mode : μ
  deriving DecidableEq

abbrev Grants (κ μ : Type) := List (Grant κ μ)

namespace Grants

variable {κ μ : Type} {conflict : μ → μ → Bool} {grants : Grants κ μ}

/-- No other transaction holds the row in a mode that conflicts. -/
def free [DecidableEq κ] (conflict : μ → μ → Bool) (grants : Grants κ μ) (x : Nat) (row : κ)
    (mode : μ) : Bool :=
  grants.all fun g => g.tx = x ∨ g.row ≠ row ∨ conflict g.mode mode = false

/-- The locks of the others. -/
def released (grants : Grants κ μ) (x : Nat) : Grants κ μ := grants.filter fun g => g.tx ≠ x

/-- No two transactions hold a row in modes that conflict. -/
def Compatible (conflict : μ → μ → Bool) (grants : Grants κ μ) : Prop :=
  ∀ g ∈ grants, ∀ g' ∈ grants, g.tx ≠ g'.tx → g.row = g'.row → conflict g.mode g'.mode = false

theorem mem_released {x : Nat} {g : Grant κ μ} : g ∈ grants.released x ↔ g ∈ grants ∧ g.tx ≠ x := by
  unfold released
  rw [List.mem_filter, decide_eq_true_iff]

theorem Compatible.nil : Compatible conflict ([] : Grants κ μ) := by
  intro g hMem
  cases hMem

theorem Compatible.released (h : Compatible conflict grants) (x : Nat) :
    Compatible conflict (grants.released x) :=
  fun g hg g' hg' => h g (mem_released.1 hg).1 g' (mem_released.1 hg').1

variable [DecidableEq κ] {x : Nat} {row : κ} {mode : μ}

theorem free_iff : free conflict grants x row mode = true ↔
    ∀ g ∈ grants, g.tx ≠ x → g.row = row → conflict g.mode mode = false := by
  unfold free
  rw [List.all_eq_true]
  constructor
  · intro h g hMem hTx hRow
    rcases of_decide_eq_true (h g hMem) with hMine | hOther | hFree
    · exact absurd hMine hTx
    · exact absurd hRow hOther
    · exact hFree
  · intro h g hMem
    apply decide_eq_true
    by_cases hTx : g.tx = x
    · exact .inl hTx
    · by_cases hRow : g.row = row
      · exact .inr (.inr (h g hMem hTx hRow))
      · exact .inr (.inl hRow)

/-- A lock is granted where it is free. -/
theorem Compatible.grant (h : Compatible conflict grants)
    (hSymm : ∀ m m', conflict m m' = conflict m' m) (hFree : free conflict grants x row mode = true) :
    Compatible conflict (⟨x, row, mode⟩ :: grants) := by
  rw [free_iff] at hFree
  intro g hg g' hg' hTx hRow
  rcases List.mem_cons.1 hg with rfl | hOld <;> rcases List.mem_cons.1 hg' with rfl | hOld'
  · exact absurd rfl hTx
  · rw [hSymm]
    exact hFree g' hOld' (Ne.symm hTx) hRow.symm
  · exact hFree g hOld hTx hRow
  · exact h g hOld g' hOld' hTx hRow

end Grants

end Concurrent
