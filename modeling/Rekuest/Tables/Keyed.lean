import Mathlib.Data.List.Basic
import Mathlib.Data.List.Nodup

/-!
# Rows with a unique key

A table is a list of rows; a key of it is unique when no two of its rows share it.
What the writes of a table keep unique, and what is found by a unique key.
-/

namespace Keyed

variable {α κ : Type} {key : α → κ} {l l' : List α} {a : α} {f : α → α} {p : α → Bool}

/-- No two rows share the key. -/
def Unique (key : α → κ) (l : List α) : Prop := ∀ a ∈ l, ∀ b ∈ l, key a = key b → a = b

theorem Unique.nil : Unique key ([] : List α) := by
  intro a ha
  cases ha

theorem Unique.subset (h : Unique key l) (hSubset : ∀ a ∈ l', a ∈ l) : Unique key l' := by
  intro a ha b hb hEq
  exact h a (hSubset a ha) b (hSubset b hb) hEq

theorem Unique.filter (h : Unique key l) (p : α → Bool) : Unique key (l.filter p) :=
  h.subset fun _ ha => (List.mem_filter.1 ha).1

/-- A write that leaves the key. -/
theorem Unique.map (h : Unique key l) (hf : ∀ a, key (f a) = key a) : Unique key (l.map f) := by
  intro a ha b hb hEq
  obtain ⟨a', ha', rfl⟩ := List.mem_map.1 ha
  obtain ⟨b', hb', rfl⟩ := List.mem_map.1 hb
  rw [hf, hf] at hEq
  rw [h a' ha' b' hb' hEq]

/-- A row of a key no row has. -/
theorem Unique.insert (h : Unique key l) (hNew : ∀ b ∈ l, key b ≠ key a) :
    Unique key (l ++ [a]) := by
  intro x hx y hy hEq
  rcases List.mem_append.1 hx with hOld | hIs <;> rcases List.mem_append.1 hy with hOld' | hIs'
  · exact h x hOld y hOld' hEq
  · rw [List.mem_singleton.1 hIs'] at hEq
    exact absurd hEq (hNew x hOld)
  · rw [List.mem_singleton.1 hIs] at hEq
    exact absurd hEq.symm (hNew y hOld')
  · rw [List.mem_singleton.1 hIs, List.mem_singleton.1 hIs']

/-- What is looked up by the key is the row that has it. -/
theorem Unique.find (h : Unique key l) (ha : a ∈ l) (hp : ∀ b, p b = true ↔ key b = key a) :
    l.find? p = some a := by
  cases hFound : l.find? p with
  | none =>
      rw [List.find?_eq_none] at hFound
      exact absurd ((hp a).2 rfl) (hFound a ha)
  | some b =>
      have hb := (hp b).1 (List.find?_some hFound)
      rw [h b (List.mem_of_find?_eq_some hFound) a ha hb]

theorem find_none (h : ∀ a ∈ l, p a = false) : l.find? p = none := by
  rw [List.find?_eq_none]
  intro a ha
  rw [h a ha]
  exact Bool.false_ne_true

/-! ## One row changes -/

variable [DecidableEq κ]

/-- `UPDATE … WHERE key = k` -/
def updateAt (key : α → κ) (k : κ) (f : α → α) (l : List α) : List α :=
  l.map fun a => if key a = k then f a else a

theorem key_ite {κ' : Type} {key' : α → κ'} (hf : ∀ a, key' (f a) = key' a) (k : κ) (a : α) :
    key' (if key a = k then f a else a) = key' a := by
  by_cases hk : key a = k
  · rw [if_pos hk, hf]
  · rw [if_neg hk]

theorem Unique.updateAt {κ' : Type} {key' : α → κ'} (h : Unique key' l)
    (hf : ∀ a, key' (f a) = key' a) (k : κ) : Unique key' (updateAt key k f l) :=
  h.map (key_ite hf k)

theorem mem_updateAt {k : κ} {b : α} :
    b ∈ updateAt key k f l ↔ ∃ a ∈ l, (if key a = k then f a else a) = b := List.mem_map

theorem mem_updateAt_self (ha : a ∈ l) : f a ∈ updateAt key (key a) f l :=
  mem_updateAt.2 ⟨a, ha, if_pos rfl⟩

/-- What every row satisfies and the write keeps. -/
theorem forall_updateAt {P : α → Prop} (h : ∀ a ∈ l, P a) (hf : ∀ a, P a → P (f a)) (k : κ) :
    ∀ b ∈ updateAt key k f l, P b := by
  intro b hb
  obtain ⟨a, ha, rfl⟩ := mem_updateAt.1 hb
  by_cases hk : key a = k
  · rw [if_pos hk]
    exact hf a (h a ha)
  · rw [if_neg hk]
    exact h a ha

/-- The rows of other keys are the same. -/
theorem mem_updateAt_of_ne (hf : ∀ a, key (f a) = key a) {k : κ} {b : α} (hNe : key b ≠ k) :
    b ∈ updateAt key k f l ↔ b ∈ l := by
  rw [mem_updateAt]
  constructor
  · rintro ⟨a, ha, rfl⟩
    rw [key_ite hf] at hNe
    rw [if_neg hNe]
    exact ha
  · intro hb
    exact ⟨b, hb, if_neg hNe⟩

/-- A write of what the row has changes nothing. -/
theorem updateAt_eq_self (h : Unique key l) (ha : a ∈ l) (hf : f a = a) :
    updateAt key (key a) f l = l := by
  refine (List.map_congr_left ?_).trans (List.map_id _)
  intro b hb
  show (if key b = key a then f b else b) = b
  by_cases hEq : key b = key a
  · rw [if_pos hEq, h b hb a ha hEq, hf]
  · rw [if_neg hEq]

end Keyed

/-!
## Maps in the order of insertion

A map is a list of entries with distinct keys.  What is inserted under a key takes the place of
what stood there, and stands last if nothing did; so inserting the entries of a map into the empty
one gives it back.
-/

namespace Insertion

variable {κ α : Type} [DecidableEq κ]

/-- A map: no key stands twice. -/
structure Map (κ α : Type) [DecidableEq κ] where
  entries : List (κ × α)
  distinct : (entries.map (·.1)).Nodup

/-- The value under a key. -/
def get_in (key : κ) : List (κ × α) → Option α
  | [] => none
  | (k, a) :: rest => if k = key then some a else get_in key rest

/-- The entries with a value under a key. -/
def put (key : κ) (value : α) : List (κ × α) → List (κ × α)
  | [] => [(key, value)]
  | (k, a) :: rest => if k = key then (key, value) :: rest else (k, a) :: put key value rest

theorem mem_keys_put {key k : κ} {value : α} {l : List (κ × α)} :
    k ∈ (put key value l).map (·.1) ↔ k = key ∨ k ∈ l.map (·.1) := by
  induction l with
  | nil => simp [put]
  | cons entry rest ih =>
      unfold put
      by_cases hIs : entry.1 = key
      · rw [if_pos hIs, List.map_cons, List.mem_cons, List.map_cons, List.mem_cons, hIs]
        tauto
      · rw [if_neg hIs, List.map_cons, List.mem_cons, ih, List.map_cons, List.mem_cons]
        tauto

theorem put_distinct {key : κ} {value : α} {l : List (κ × α)} (h : (l.map (·.1)).Nodup) :
    ((put key value l).map (·.1)).Nodup := by
  induction l with
  | nil => exact List.nodup_singleton key
  | cons entry rest ih =>
      rw [List.map_cons, List.nodup_cons] at h
      unfold put
      by_cases hIs : entry.1 = key
      · rw [if_pos hIs, List.map_cons, List.nodup_cons]
        rw [hIs] at h
        exact h
      · rw [if_neg hIs, List.map_cons, List.nodup_cons]
        refine ⟨?_, ih h.2⟩
        rw [mem_keys_put]
        rintro (hKey | hRest)
        · exact hIs hKey
        · exact h.1 hRest

theorem put_of_not_mem {key : κ} {value : α} {l : List (κ × α)} (h : key ∉ l.map (·.1)) :
    put key value l = l ++ [(key, value)] := by
  induction l with
  | nil => rfl
  | cons entry rest ih =>
      rw [List.map_cons, List.mem_cons] at h
      unfold put
      rw [if_neg fun hIs => h (.inl hIs.symm), ih fun hRest => h (.inr hRest)]
      rfl

theorem get_in_put {key k : κ} {value : α} {l : List (κ × α)} :
    get_in k (put key value l) = if k = key then some value else get_in k l := by
  induction l with
  | nil =>
      unfold put get_in
      by_cases hIs : k = key
      · rw [if_pos hIs.symm, if_pos hIs]
      · rw [if_neg fun h => hIs h.symm, if_neg hIs]
        rfl
  | cons entry rest ih =>
      unfold put
      by_cases hIs : entry.1 = key
      · rw [if_pos hIs]
        unfold get_in
        by_cases hKey : k = key
        · rw [if_pos hKey.symm, if_pos hKey]
        · rw [if_neg fun h => hKey h.symm, if_neg hKey, hIs, if_neg fun h => hKey h.symm]
      · rw [if_neg hIs]
        unfold get_in
        rw [ih]
        by_cases hEntry : entry.1 = k
        · rw [if_pos hEntry, if_pos hEntry, if_neg]
          intro hKey
          exact hIs (hEntry.trans hKey)
        · rw [if_neg hEntry, if_neg hEntry]

theorem get_in_isSome {key : κ} {l : List (κ × α)} : (get_in key l).isSome = true ↔ key ∈ l.map (·.1) := by
  induction l with
  | nil => simp [get_in]
  | cons entry rest ih =>
      unfold get_in
      rw [List.map_cons, List.mem_cons]
      by_cases hIs : entry.1 = key
      · rw [if_pos hIs]
        exact ⟨fun _ => .inl hIs.symm, fun _ => rfl⟩
      · rw [if_neg hIs, ih]
        constructor
        · exact .inr
        · rintro (hKey | hRest)
          · exact absurd hKey.symm hIs
          · exact hRest

namespace Map

def empty : Map κ α := ⟨[], List.nodup_nil⟩

def get (m : Map κ α) (key : κ) : Option α := get_in key m.entries

def insert (m : Map κ α) (key : κ) (value : α) : Map κ α := ⟨put key value m.entries, put_distinct m.distinct⟩

def extend (m : Map κ α) (entries : List (κ × α)) : Map κ α := entries.foldl (fun m entry => m.insert entry.1 entry.2) m

/-- The map of some entries; a later one takes the place of an earlier one. -/
def of (entries : List (κ × α)) : Map κ α := empty.extend entries

def filter (m : Map κ α) (p : κ → Bool) : Map κ α where
  entries := m.entries.filter fun entry => p entry.1
  distinct := m.distinct.sublist (List.filter_sublist.map _)

theorem eq_of_entries {m n : Map κ α} (h : m.entries = n.entries) : m = n := by
  cases m
  cases n
  cases h
  rfl

theorem get_insert (m : Map κ α) (key k : κ) (value : α) :
    (m.insert key value).get k = if k = key then some value else m.get k := get_in_put

theorem get_isSome {m : Map κ α} {key : κ} : (m.get key).isSome = true ↔ key ∈ m.entries.map (·.1) := get_in_isSome

/-- Entries whose keys are new stand behind those that are there. -/
theorem extend_entries {entries : List (κ × α)} : ∀ {m : Map κ α}, (entries.map (·.1)).Nodup →
    (∀ key ∈ entries.map (·.1), key ∉ m.entries.map (·.1)) → (m.extend entries).entries = m.entries ++ entries := by
  induction entries with
  | nil =>
      intro m _ _
      exact (List.append_nil _).symm
  | cons entry rest ih =>
      intro m hDistinct hNew
      rw [List.map_cons, List.nodup_cons] at hDistinct
      rw [List.map_cons, List.forall_mem_cons] at hNew
      have hPut : (m.insert entry.1 entry.2).entries = m.entries ++ [entry] := put_of_not_mem hNew.1
      show ((m.insert entry.1 entry.2).extend rest).entries = _
      rw [ih hDistinct.2, hPut, List.append_assoc]
      · rfl
      · intro key hKey hThere
        rw [hPut, List.map_append, List.mem_append] at hThere
        rcases hThere with hOld | hHere
        · exact hNew.2 key hKey hOld
        · rw [List.mem_singleton.1 hHere] at hKey
          exact hDistinct.1 hKey

/-- The entries of a map make it. -/
theorem of_entries (m : Map κ α) : of m.entries = m := by
  refine eq_of_entries ?_
  exact extend_entries m.distinct fun _ _ => List.not_mem_nil

end Map

end Insertion
