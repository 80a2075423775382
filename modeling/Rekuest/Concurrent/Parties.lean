import Mathlib.Data.List.Basic

/-!
# Parties that move one at a time

A list of parties, one of which changes or one of which comes in: what some party
is, what some other party is, and how either is kept.
-/

namespace Concurrent

variable {α : Type} {l : List α} {p : α → Bool} {i j : Nat} {x y : α}

/-- Some party is so. -/
def Has (l : List α) (p : α → Bool) : Prop :=
  ∃ (i : Nat) (x : α), l[i]? = some x ∧ p x = true

/-- Some party other than the one at a place is so. -/
def HasBeside (l : List α) (p : α → Bool) (i : Nat) : Prop :=
  ∃ (j : Nat) (x : α), j ≠ i ∧ l[j]? = some x ∧ p x = true

theorem at_set (h : (l.set i y)[j]? = some x) : (j = i ∧ x = y) ∨ l[j]? = some x := by
  rw [List.getElem?_set] at h
  split at h
  · next hEq =>
      split at h
      · exact .inl ⟨hEq.symm, (Option.some.inj h).symm⟩
      · cases h
  · exact .inr h

theorem at_append (h : (l ++ [y])[j]? = some x) : x = y ∨ l[j]? = some x := by
  rw [List.getElem?_append] at h
  split at h
  · exact .inr h
  · exact .inl (List.mem_singleton.1 (List.mem_of_getElem? h))

theorem at_set_self (hAt : l[i]? = some x) : (l.set i y)[i]? = some y := by
  obtain ⟨hLt, -⟩ := List.getElem?_eq_some_iff.1 hAt
  rw [List.getElem?_set_self hLt]

theorem Has.mono {q : α → Bool} (h : Has l p) (hpq : ∀ x, p x = true → q x = true) :
    Has l q := by
  obtain ⟨i, x, hAt, hx⟩ := h
  exact ⟨i, x, hAt, hpq x hx⟩

/-- What a party is not, another one is. -/
theorem Has.beside (h : Has l p) (hAt : l[i]? = some x) (hNot : p x = false) :
    HasBeside l p i := by
  obtain ⟨j, y, hj, hy⟩ := h
  refine ⟨j, y, ?_, hj, hy⟩
  rintro rfl
  rw [hAt] at hj
  cases hj
  rw [hNot] at hy
  cases hy

/-- The others stay what they were. -/
theorem HasBeside.set (h : HasBeside l p i) : Has (l.set i y) p := by
  obtain ⟨j, x, hNe, hj, hx⟩ := h
  refine ⟨j, x, ?_, hx⟩
  rw [List.getElem?_set_ne (by omega)]
  exact hj

theorem Has.set_self (hAt : l[i]? = some x) (hy : p y = true) : Has (l.set i y) p :=
  ⟨i, y, at_set_self hAt, hy⟩

/-- What some party is after one changed, that one is or some party was. -/
theorem Has.of_set (h : Has (l.set i y) p) : p y = true ∨ Has l p := by
  obtain ⟨j, x, hj, hx⟩ := h
  rcases at_set hj with ⟨-, rfl⟩ | hOld
  · exact .inl hx
  · exact .inr ⟨j, x, hOld, hx⟩

theorem Has.append (h : Has l p) : Has (l ++ [y]) p := by
  obtain ⟨j, x, hj, hx⟩ := h
  obtain ⟨hLt, -⟩ := List.getElem?_eq_some_iff.1 hj
  refine ⟨j, x, ?_, hx⟩
  rw [List.getElem?_append_left hLt]
  exact hj

theorem Has.of_append (h : Has (l ++ [y]) p) : p y = true ∨ Has l p := by
  obtain ⟨j, x, hj, hx⟩ := h
  rcases at_append hj with rfl | hOld
  · exact .inl hx
  · exact .inr ⟨j, x, hOld, hx⟩

end Concurrent
