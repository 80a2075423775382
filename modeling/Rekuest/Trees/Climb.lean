import Mathlib.Order.Basic

/-!
# Climbing to the root

A forest by its parent links: what lies how many links above a point, and a climb
that stops after a bound.  Links go down in rank, so every chain ends; the climb
ends at the root exactly when the chain is not longer than its bound.
-/

namespace Trees

variable {α : Type} (parent : α → Option α)

/-- A number of links above a point. -/
inductive Above : Nat → α → α → Prop
  | self (x : α) : Above 0 x x
  | link {n : Nat} {x p r : α} (hParent : parent x = some p) (hUp : Above n p r) :
      Above (n + 1) x r

/-- Follow the links, up to a bound. -/
def climb : Nat → α → α
  | 0, x => x
  | left + 1, x =>
      match parent x with
      | some p => climb left p
      | none => x

/-- Links go down in rank. -/
def Falls (rank : α → Nat) : Prop := ∀ x p, parent x = some p → rank p < rank x

variable {parent} {rank : α → Nat} {n k : Nat} {x r : α}

theorem climb_of_le (hUp : Above parent n x r) (hTop : parent r = none) (hLe : n ≤ k) :
    climb parent k x = r := by
  induction hUp generalizing k with
  | self x =>
      cases k with
      | zero => rfl
      | succ k => rw [climb, hTop]
  | link hParent hUp ih =>
      cases k with
      | zero => omega
      | succ k =>
          rw [climb, hParent]
          exact ih hTop (by omega)

/-- What is left above a climb that stopped. -/
theorem above_climb (hUp : Above parent n x r) (hLe : k ≤ n) :
    Above parent (n - k) (climb parent k x) r := by
  induction hUp generalizing k with
  | self x =>
      have hZero : k = 0 := by omega
      subst hZero
      exact .self x
  | @link n x p r hParent hUp ih =>
      cases k with
      | zero => exact .link hParent hUp
      | succ k =>
          rw [climb, hParent, show n + 1 - (k + 1) = n - k by omega]
          exact ih (by omega)

theorem Above.mono {parent' : α → Option α} (hUp : Above parent n x r)
    (hMore : ∀ x p, parent x = some p → parent' x = some p) : Above parent' n x r := by
  induction hUp with
  | self x => exact .self x
  | link hParent _ ih => exact .link (hMore _ _ hParent) ih

theorem Above.rank_le (hFalls : Falls parent rank) (hUp : Above parent n x r) :
    rank r + n ≤ rank x := by
  induction hUp with
  | self x => omega
  | link hParent hUp ih =>
      have hLt := hFalls _ _ hParent
      omega

/-- A climb that stopped is not at the root. -/
theorem climb_ne_of_lt (hFalls : Falls parent rank) (hUp : Above parent n x r) (hLt : k < n) :
    climb parent k x ≠ r := by
  intro hEq
  have hRank := (above_climb hUp (Nat.le_of_lt hLt)).rank_le hFalls
  rw [hEq] at hRank
  omega

theorem climb_eq_iff (hFalls : Falls parent rank) (hUp : Above parent n x r)
    (hTop : parent r = none) : climb parent k x = r ↔ n ≤ k := by
  constructor
  · intro hEq
    by_contra hNot
    exact climb_ne_of_lt hFalls hUp (by omega) hEq
  · exact climb_of_le hUp hTop

/-- The way up starts with the link at hand. -/
theorem Above.link_first {p : α} (hUp : Above parent n x r) (hParent : parent x = some p)
    (hTop : parent r = none) : ∃ m, n = m + 1 ∧ Above parent m p r := by
  cases hUp with
  | self =>
      rw [hParent] at hTop
      cases hTop
  | @link m _ q _ hParent' hUp =>
      rw [hParent] at hParent'
      cases hParent'
      exact ⟨m, rfl, hUp⟩

/-- A point without a link is its own root. -/
theorem Above.eq_self (hUp : Above parent n x r) (hTop : parent x = none) : n = 0 ∧ r = x := by
  cases hUp with
  | self => exact ⟨rfl, rfl⟩
  | link hParent hUp =>
      rw [hTop] at hParent
      cases hParent

end Trees
