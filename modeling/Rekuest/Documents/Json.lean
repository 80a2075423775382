import Mathlib.Data.List.Nodup
import Mathlib.Data.List.Perm.Basic
import Mathlib.Data.String.Basic

/-!
# JSON values

A value is what a JSON text denotes: a number is an integer or a decimal with a
point, an object has its fields in some order.  Two values are the same when they
differ in the order of keys alone, which is when they are equal once every object
is sorted.
-/

namespace Documents

/-- A decimal: mantissa times ten to the power, the mantissa without a last zero. -/
structure Decimal where
  negative : Bool := false
  mantissa : Nat
  power : Int
  normal : mantissa % 10 ≠ 0 ∨ (mantissa = 0 ∧ power = 0)
  deriving DecidableEq

/-- The decimal of any mantissa and power. -/
def Decimal.of (negative : Bool) (mantissa : Nat) (power : Int) : Decimal :=
  if hZero : mantissa = 0 then { negative, mantissa := 0, power := 0, normal := .inr ⟨rfl, rfl⟩ }
  else if hLast : mantissa % 10 = 0 then Decimal.of negative (mantissa / 10) (power + 1)
  else { negative, mantissa, power, normal := .inl hLast }
termination_by mantissa
decreasing_by omega

inductive JsonNumber
  | int (n : Int)
  | decimal (d : Decimal)
  deriving DecidableEq

inductive Json
  | null
  | bool (b : Bool)
  | number (n : JsonNumber)
  | string (s : String)
  | array (items : List Json)
  | object (fields : List (String × Json))

namespace Decimal

theorem of_normal (d : Decimal) : Decimal.of d.negative d.mantissa d.power = d := by
  obtain ⟨negative, mantissa, power, hLast | ⟨rfl, rfl⟩⟩ := d
  · have hZero : mantissa ≠ 0 := fun hZero => hLast (by rw [hZero])
    rw [Decimal.of, dif_neg hZero, dif_neg hLast]
  · rw [Decimal.of, dif_pos rfl]

theorem of_ten (negative : Bool) (mantissa : Nat) (power : Int) :
    Decimal.of negative (10 * mantissa) power = Decimal.of negative mantissa (power + 1) := by
  by_cases hZero : mantissa = 0
  · rw [hZero, Decimal.of, dif_pos (Nat.mul_zero 10), Decimal.of, dif_pos rfl]
  · rw [Decimal.of, dif_neg (by omega), dif_pos (by omega), Nat.mul_div_cancel_left _ (by omega)]

theorem of_tens (negative : Bool) (mantissa : Nat) (power : Int) (n : Nat) :
    Decimal.of negative (10 ^ n * mantissa) power = Decimal.of negative mantissa (power + n) := by
  induction n generalizing power with
  | zero => simp
  | succ n ih =>
      rw [Nat.pow_succ', Nat.mul_assoc, of_ten, ih]
      congr 1
      omega

end Decimal

namespace Json

/-! ## The same value -/

mutual

/-- The same value, up to the order of keys. -/
def Same : Json → Json → Prop
  | .array items, .array items' => SameItems items items'
  | .object fields, .object fields' => ∃ fields'', fields''.Perm fields' ∧ SameFields fields fields''
  | .null, other => other = .null
  | .bool b, other => other = .bool b
  | .number n, other => other = .number n
  | .string s, other => other = .string s
  | .array _, _ | .object _, _ => False

def SameItems : List Json → List Json → Prop
  | [], [] => True
  | v :: rest, w :: rest' => v.Same w ∧ SameItems rest rest'
  | _, _ => False

def SameFields : List (String × Json) → List (String × Json) → Prop
  | [], [] => True
  | (k, v) :: rest, (l, w) :: rest' => k = l ∧ v.Same w ∧ SameFields rest rest'
  | _, _ => False

end

mutual

/-- No object has a key twice. -/
def Distinct : Json → Prop
  | .array items => DistinctItems items
  | .object fields => (fields.map (·.1)).Nodup ∧ DistinctFields fields
  | .null | .bool _ | .number _ | .string _ => True

def DistinctItems : List Json → Prop
  | [] => True
  | v :: rest => v.Distinct ∧ DistinctItems rest

def DistinctFields : List (String × Json) → Prop
  | [] => True
  | (_, v) :: rest => v.Distinct ∧ DistinctFields rest

end

/-- The order of fields: by their keys' characters. -/
def byKey {α : Type} (p q : String × α) : Bool := decide (p.1 ≤ q.1)

mutual

/-- The value with every object's fields in order. -/
def sorted : Json → Json
  | .array items => .array (sortedItems items)
  | .object fields => .object ((sortedFields fields).mergeSort byKey)
  | .null => .null
  | .bool b => .bool b
  | .number n => .number n
  | .string s => .string s

def sortedItems : List Json → List Json
  | [] => []
  | v :: rest => v.sorted :: sortedItems rest

def sortedFields : List (String × Json) → List (String × Json)
  | [] => []
  | (k, v) :: rest => (k, v.sorted) :: sortedFields rest

end

/-- Induction on a value, its items and its fields. -/
@[elab_as_elim]
theorem ind {P : Json → Prop} (null : P .null) (bool : ∀ b, P (.bool b))
    (number : ∀ n, P (.number n)) (string : ∀ s, P (.string s))
    (array : ∀ items : List Json, (∀ v ∈ items, P v) → P (.array items))
    (object : ∀ fields : List (String × Json), (∀ p ∈ fields, P p.2) → P (.object fields)) (v : Json) : P v := by
  refine Json.rec (motive_1 := P) (motive_2 := fun items => ∀ v ∈ items, P v)
    (motive_3 := fun fields => ∀ p ∈ fields, P p.2) (motive_4 := fun p => P p.2) null bool number
    string array object ?_ ?_ ?_ ?_ ?_ v
  · intro v hv
    cases hv
  · intro v rest hValue hRest w hw
    rcases List.mem_cons.mp hw with rfl | hw
    · exact hValue
    · exact hRest w hw
  · intro p hp
    cases hp
  · intro p rest hField hRest q hq
    rcases List.mem_cons.mp hq with rfl | hq
    · exact hField
    · exact hRest q hq
  · intro k v hv
    exact hv

/-! ## Sorting -/

theorem sortedItems_eq (items : List Json) : sortedItems items = items.map sorted := by
  induction items with
  | nil => rfl
  | cons v rest ih => rw [sortedItems, ih, List.map_cons]

theorem sortedFields_eq (fields : List (String × Json)) :
    sortedFields fields = fields.map fun p => (p.1, p.2.sorted) := by
  induction fields with
  | nil => rfl
  | cons p rest ih => rw [sortedFields, ih, List.map_cons]

theorem distinctItems_iff {items : List Json} :
    DistinctItems items ↔ ∀ v ∈ items, v.Distinct := by
  induction items with
  | nil => simp [DistinctItems]
  | cons v rest ih => rw [DistinctItems, ih, List.forall_mem_cons]

theorem distinctFields_iff {fields : List (String × Json)} :
    DistinctFields fields ↔ ∀ p ∈ fields, p.2.Distinct := by
  induction fields with
  | nil => simp [DistinctFields]
  | cons p rest ih => rw [DistinctFields, ih, List.forall_mem_cons]

section

variable {α : Type} {fields fields' : List (String × α)}

theorem byKey_iff {p q : String × α} : byKey p q = true ↔ p.1 ≤ q.1 := decide_eq_true_iff

theorem pairwise_mergeSort_byKey (fields : List (String × α)) :
    (fields.mergeSort byKey).Pairwise fun p q => byKey p q = true := by
  apply List.pairwise_mergeSort
  · intro p q r hpq hqr
    rw [byKey_iff] at hpq hqr ⊢
    exact le_trans hpq hqr
  · intro p q
    rw [Bool.or_eq_true, byKey_iff, byKey_iff]
    exact le_total p.1 q.1

/-- Sorting does not look at the values. -/
theorem mergeSort_map {β : Type} (f : String × α → β) (fields : List (String × α)) :
    (fields.map fun p => (p.1, f p)).mergeSort byKey =
      (fields.mergeSort byKey).map fun p => (p.1, f p) := by
  symm
  apply List.map_mergeSort
  intro p _ q _
  rfl

/-- Fields with distinct keys are sorted in one way. -/
theorem mergeSort_eq_of_perm (hNodup : (fields.map (·.1)).Nodup) (h : fields.Perm fields') :
    fields.mergeSort byKey = fields'.mergeSort byKey := by
  have hPerm : (fields.mergeSort byKey).Perm (fields'.mergeSort byKey) :=
    (List.mergeSort_perm fields byKey).trans (h.trans (List.mergeSort_perm fields' byKey).symm)
  refine hPerm.eq_of_pairwise ?_ (pairwise_mergeSort_byKey fields) (pairwise_mergeSort_byKey fields')
  intro p q hp hq hpq hqp
  rw [byKey_iff] at hpq hqp
  have hp : p ∈ fields := (List.mergeSort_perm fields byKey).mem_iff.mp hp
  have hq : q ∈ fields := h.mem_iff.mpr ((List.mergeSort_perm fields' byKey).mem_iff.mp hq)
  exact List.inj_on_of_nodup_map hNodup hp hq (le_antisymm hpq hqp)

end

theorem sorted_of_sameItems {items items' : List Json}
    (ih : ∀ v ∈ items, ∀ w, v.Same w → v.sorted = w.sorted) (h : SameItems items items') :
    items.map sorted = items'.map sorted := by
  induction items generalizing items' with
  | nil =>
      cases items' with
      | nil => rfl
      | cons => exact h.elim
  | cons v rest ihRest =>
      cases items' with
      | nil => exact h.elim
      | cons w rest' =>
          obtain ⟨hValue, hRest⟩ := h
          rw [List.map_cons, List.map_cons, ih v List.mem_cons_self w hValue,
            ihRest (fun u hu => ih u (List.mem_cons_of_mem v hu)) hRest]

theorem sorted_of_sameFields {fields fields' : List (String × Json)}
    (ih : ∀ p ∈ fields, ∀ w, p.2.Same w → p.2.sorted = w.sorted) (h : SameFields fields fields') :
    sortedFields fields = sortedFields fields' := by
  induction fields generalizing fields' with
  | nil =>
      cases fields' with
      | nil => rfl
      | cons => exact h.elim
  | cons p rest ihRest =>
      cases fields' with
      | nil => exact h.elim
      | cons q rest' =>
          obtain ⟨hKey, hValue, hRest⟩ := h
          rw [sortedFields, sortedFields, hKey, ih p List.mem_cons_self q.2 hValue,
            ihRest (fun u hu => ih u (List.mem_cons_of_mem p hu)) hRest]

theorem sorted_of_same {v : Json} (hDistinct : v.Distinct) {w : Json} (h : v.Same w) :
    v.sorted = w.sorted := by
  induction v using Json.ind generalizing w with
  | null | bool | number | string => rw [show w = _ from h]
  | array items ih =>
      cases w with
      | array items' =>
          rw [Distinct, distinctItems_iff] at hDistinct
          have hItems := sorted_of_sameItems (fun v hv w hSame => ih v hv (hDistinct v hv) hSame) h
          rw [sorted, sorted, sortedItems_eq, sortedItems_eq, hItems]
      | null | bool | number | string | object => exact h.elim
  | object fields ih =>
      cases w with
      | object fields' =>
          obtain ⟨hNodup, hFields⟩ := hDistinct
          rw [distinctFields_iff] at hFields
          obtain ⟨fields'', hPerm, hSame⟩ := h
          have hSorted := sorted_of_sameFields
            (fun p hp w hSame => ih p hp (hFields p hp) hSame) hSame
          have hKeys : ((sortedFields fields).map (·.1)).Nodup := by
            rw [sortedFields_eq, List.map_map]
            exact hNodup
          have hPerm' : (sortedFields fields).Perm (sortedFields fields') := by
            rw [hSorted, sortedFields_eq, sortedFields_eq]
            exact hPerm.map _
          rw [sorted, sorted, mergeSort_eq_of_perm hKeys hPerm']
      | null | bool | number | string | array => exact h.elim

theorem sameItems_of_sorted {items items' : List Json}
    (ih : ∀ v ∈ items, ∀ w, v.sorted = w.sorted → v.Same w)
    (h : items.map sorted = items'.map sorted) : SameItems items items' := by
  induction items generalizing items' with
  | nil =>
      cases items' with
      | nil => trivial
      | cons => cases h
  | cons v rest ihRest =>
      cases items' with
      | nil => cases h
      | cons w rest' =>
          obtain ⟨hValue, hRest⟩ := List.cons.inj h
          exact ⟨ih v List.mem_cons_self w hValue,
            ihRest (fun u hu => ih u (List.mem_cons_of_mem v hu)) hRest⟩

theorem sameFields_of_sorted {fields fields' : List (String × Json)}
    (ih : ∀ p ∈ fields, ∀ w, p.2.sorted = w.sorted → p.2.Same w)
    (h : sortedFields fields = sortedFields fields') : SameFields fields fields' := by
  induction fields generalizing fields' with
  | nil =>
      cases fields' with
      | nil => trivial
      | cons => cases h
  | cons p rest ihRest =>
      cases fields' with
      | nil => cases h
      | cons q rest' =>
          obtain ⟨hField, hRest⟩ := List.cons.inj h
          obtain ⟨hKey, hValue⟩ := Prod.mk.inj hField
          exact ⟨hKey, ih p List.mem_cons_self q.2 hValue,
            ihRest (fun u hu => ih u (List.mem_cons_of_mem p hu)) hRest⟩

theorem same_of_sorted {v w : Json} (h : v.sorted = w.sorted) : v.Same w := by
  induction v using Json.ind generalizing w with
  | null | bool | number | string =>
      cases w <;> cases h
      rfl
  | array items ih =>
      cases w with
      | array items' =>
          rw [sorted, sorted, sortedItems_eq, sortedItems_eq, Json.array.injEq] at h
          exact sameItems_of_sorted (fun v hv w hSorted => ih v hv hSorted) h
      | null | bool | number | string | object => cases h
  | object fields ih =>
      cases w with
      | object fields' =>
          rw [sorted, sorted, Json.object.injEq] at h
          have hPerm : (sortedFields fields).Perm (sortedFields fields') :=
            (List.mergeSort_perm _ byKey).symm.trans (h ▸ List.mergeSort_perm _ byKey)
          -- the other's fields in the order of this one's
          rw [sortedFields_eq fields'] at hPerm
          have hReordered : ∃ fields'' : List (String × Json), sortedFields fields =
              fields''.map (fun p => (p.1, p.2.sorted)) ∧ fields''.Perm fields' := by
            have hComp := List.eq_map_comp_perm (fun p : String × Json => (p.1, p.2.sorted))
            exact (congrFun (congrFun hComp _) _).mpr hPerm
          obtain ⟨fields'', hEq, hPerm⟩ := hReordered
          rw [← sortedFields_eq] at hEq
          exact ⟨fields'', hPerm, sameFields_of_sorted (fun p hp w hSorted => ih p hp hSorted) hEq⟩
      | null | bool | number | string | array => cases h

/-- **Sorting decides**: two values are the same up to the order of keys exactly when they
are equal once sorted. -/
theorem same_iff_sorted {v w : Json} (hDistinct : v.Distinct) :
    v.Same w ↔ v.sorted = w.sorted := ⟨sorted_of_same hDistinct, same_of_sorted⟩

/-- What is sorted stays as it is. -/
theorem sorted_sorted (v : Json) : v.sorted.sorted = v.sorted := by
  induction v using Json.ind with
  | null | bool | number | string => rfl
  | array items ih =>
      have hItems : (items.map sorted).map sorted = items.map sorted := by
        rw [List.map_map]
        exact List.map_congr_left fun v hv => ih v hv
      rw [sorted, sorted, sortedItems_eq, sortedItems_eq, hItems]
  | object fields ih =>
      have hFields : sortedFields ((sortedFields fields).mergeSort byKey) =
          (sortedFields fields).mergeSort byKey := by
        rw [sortedFields_eq, sortedFields_eq]
        refine (List.map_congr_left fun p hp => ?_).trans (List.map_id _)
        have hMem := (List.mergeSort_perm _ byKey).mem_iff.mp hp
        obtain ⟨q, hq, rfl⟩ := List.mem_map.mp hMem
        simp only [ih q hq, id_eq]
      rw [sorted, sorted, hFields]
      congr 1
      exact List.mergeSort_of_pairwise (pairwise_mergeSort_byKey _)

end Json

end Documents
