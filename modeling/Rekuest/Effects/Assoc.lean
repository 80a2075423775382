import Mathlib.Data.List.Basic
import Mathlib.Data.List.Nodup

/-!
# Association lists

Maps as lists of pairs in the order of their first insertion, read with
`List.lookup`.
-/

namespace Rekuest.Effects

variable {κ α β σ : Type} [DecidableEq κ]

/-- Set a key: its value is replaced where it has one. -/
def insert (key : κ) (value : α) : List (κ × α) → List (κ × α)
  | [] => [(key, value)]
  | (key', value') :: rest =>
      if key' = key then (key, value) :: rest else (key', value') :: insert key value rest

theorem lookup_cons (key k : κ) (value : α) (l : List (κ × α)) :
    ((key, value) :: l).lookup k = if k = key then some value else l.lookup k := by
  by_cases h : k = key
  · subst h
    rw [List.lookup_cons_self, if_pos rfl]
  · have hNe : (k == key) = false := by simpa using h
    rw [List.lookup_cons, hNe, if_neg h]

theorem lookup_insert (key k : κ) (value : α) (l : List (κ × α)) :
    (insert key value l).lookup k = if k = key then some value else l.lookup k := by
  induction l with
  | nil => exact lookup_cons key k value []
  | cons p rest ih =>
      obtain ⟨key', value'⟩ := p
      unfold insert
      by_cases hKey : key' = key
      · subst hKey
        by_cases h : k = key' <;> simp [lookup_cons, h]
      · by_cases h : k = key'
        · subst h
          simp [hKey]
        · simp only [hKey, if_false, lookup_cons, h]
          exact ih

theorem insert_of_notMem {key : κ} {value : α} {l : List (κ × α)} (h : key ∉ l.map (·.1)) :
    insert key value l = l ++ [(key, value)] := by
  induction l with
  | nil => rfl
  | cons p rest ih =>
      rw [List.map_cons, List.mem_cons, not_or] at h
      have hNe : ¬ p.1 = key := fun hEq => h.1 hEq.symm
      simp [insert, hNe, ih h.2]

/-- Distinct keys end up in the order of their insertion. -/
theorem foldl_insert (key : σ → κ) (value : σ → α) {items : List σ} {done : List (κ × α)}
    (h : (done.map (·.1) ++ items.map key).Nodup) :
    items.foldl (fun l item => insert (key item) (value item) l) done =
      done ++ items.map fun item => (key item, value item) := by
  induction items generalizing done with
  | nil => simp
  | cons first rest ih =>
      have hFresh : key first ∉ done.map (·.1) := by
        intro hDone
        exact (List.nodup_append.1 h).2.2 _ hDone _ (by simp) rfl
      rw [List.foldl_cons, insert_of_notMem hFresh, ih]
      · simp
      · simpa using h

/-- An item with a key of its own is found under it. -/
theorem find_of_nodup {key : σ → κ} {items : List σ} {item : σ} (h : (items.map key).Nodup)
    (hMem : item ∈ items) : items.find? (fun other => key other = key item) = some item := by
  induction items with
  | nil => cases hMem
  | cons first rest ih =>
      rw [List.map_cons, List.nodup_cons] at h
      rcases List.mem_cons.1 hMem with rfl | hRest
      · simp
      · have hNe : ¬ key first = key item := by
          intro hEq
          exact h.1 (hEq ▸ List.mem_map_of_mem hRest)
        simpa [hNe] using ih h.2 hRest

/-- A function on the values goes through. -/
theorem insert_map (f : α → β) (key : κ) (value : α) (l : List (κ × α)) :
    (insert key value l).map (Prod.map id f) = insert key (f value) (l.map (Prod.map id f)) := by
  induction l with
  | nil => rfl
  | cons p rest ih =>
      unfold insert
      by_cases hKey : p.1 = key
      · simp [hKey]
      · simp [hKey, ih, Prod.map]

end Rekuest.Effects
