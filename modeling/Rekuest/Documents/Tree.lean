import Rekuest.Effects.Assoc

/-!
# Documents and the edits of one place

A document is a tree of arrays and objects over leaves; a path of keys leads
from its root to a value.  An edit adds, replaces or removes the value at its
path, as one operation of RFC 6902 does.  The main result is what an edit leaves
alone: a value elsewhere, unless the edit moves the items of an array around it.
-/

namespace Documents

open Rekuest.Effects

/-- How keys name places in an array: the place of an item, and the place behind
the last one. -/
structure Indexing (κ : Type) where
  index : κ → Option Nat
  isEnd : κ → Bool
  index_inj : ∀ {k k' : κ} {i : Nat}, index k = some i → index k' = some i → k = k'

/-- A tree of arrays and objects over leaves. -/
inductive Doc (κ α : Type)
  | leaf (a : α)
  | array (items : List (Doc κ α))
  | object (fields : List (κ × Doc κ α))

variable {κ α : Type} [DecidableEq κ] (ix : Indexing κ)

namespace Doc

/-- The value under a key. -/
def get (k : κ) : Doc κ α → Option (Doc κ α)
  | .leaf _ => none
  | .array items => (ix.index k).bind (items[·]?)
  | .object fields => fields.lookup k

/-- Put a value in the place of the one under a key. -/
def put (whole : Doc κ α) (k : κ) (child : Doc κ α) : Doc κ α :=
  match whole with
  | .leaf a => .leaf a
  | .array items =>
      match ix.index k with
      | some i => .array (items.set i child)
      | none => .array items
  | .object fields => .object (insert k child fields)

/-- The value at a path. -/
def valueAt : List κ → Doc κ α → Option (Doc κ α)
  | [], d => some d
  | k :: rest, d => (d.get ix k).bind (valueAt rest)

/-- Whether it is an array, whose items can move. -/
def isArray : Doc κ α → Bool
  | .array _ => true
  | .leaf _ | .object _ => false

end Doc

/-- What is done to the value at a path. -/
inductive Edit (κ α : Type)
  | add (value : Doc κ α)
  | replace (value : Doc κ α)
  | remove

namespace Edit

/-- Whether the items of an array may move. -/
def moves : Edit κ α → Bool
  | .replace _ => false
  | .add _ | .remove => true

/-- Edit the value under a key, or `none` where the edit does not apply. -/
def atKey (k : κ) : Edit κ α → Doc κ α → Option (Doc κ α)
  | _, .leaf _ => none
  | .add value, .object fields => some (.object (insert k value fields))
  | .replace value, .object fields =>
      if (fields.lookup k).isSome then some (.object (insert k value fields)) else none
  | .remove, .object fields =>
      if (fields.lookup k).isSome then some (.object (fields.filter (·.1 ≠ k))) else none
  | .add value, .array items =>
      if ix.isEnd k then some (.array (items ++ [value]))
      else (ix.index k).bind fun i =>
        if i ≤ items.length then some (.array (items.insertIdx i value)) else none
  | .replace value, .array items => (ix.index k).bind fun i =>
      if i < items.length then some (.array (items.set i value)) else none
  | .remove, .array items => (ix.index k).bind fun i =>
      if i < items.length then some (.array (items.eraseIdx i)) else none

/-- Edit the value at a path.  A document is always some value, so its root is
never removed. -/
def apply (e : Edit κ α) : List κ → Doc κ α → Option (Doc κ α)
  | [], _ =>
      match e with
      | .add value | .replace value => some value
      | .remove => none
  | [k], d => e.atKey ix k d
  | k :: next :: rest, d =>
      (d.get ix k).bind fun child => (e.apply (next :: rest) child).map (d.put ix k)

/-- The edit moves the items of an array on the way to the value at `w`, without
being above it. -/
def Displaces (e : Edit κ α) (q w : List κ) (d : Doc κ α) : Prop :=
  ∃ above k j rest, q = above ++ [k] ∧ w = above ++ j :: rest ∧ k ≠ j ∧
    e.moves = true ∧ (d.valueAt ix above).any Doc.isArray = true

end Edit

variable {ix} {k j : κ} {c d d' : Doc κ α} {e : Edit κ α} {q w : List κ}

theorem Doc.get_put_self (h : (d.get ix k).isSome) : (d.put ix k c).get ix k = some c := by
  cases d with
  | leaf a => cases h
  | array items =>
      cases hIndex : ix.index k with
      | none => simp [Doc.get, hIndex] at h
      | some i =>
          have hLt : i < items.length := by simpa [Doc.get, hIndex] using h
          simp [Doc.get, Doc.put, hIndex, hLt]
  | object fields => simp [Doc.get, Doc.put, lookup_insert]

theorem Doc.get_put_ne (h : k ≠ j) : (d.put ix k c).get ix j = d.get ix j := by
  cases d with
  | leaf a => rfl
  | array items =>
      cases hIndex : ix.index k with
      | none => simp [Doc.put, hIndex]
      | some i =>
          cases hOther : ix.index j with
          | none => simp [Doc.get, Doc.put, hIndex, hOther]
          | some i' =>
              have hNe : i ≠ i' := by
                intro hEq
                subst hEq
                exact h (ix.index_inj hIndex hOther)
              simp [Doc.get, Doc.put, hIndex, hOther, List.getElem?_set_ne hNe]
  | object fields =>
      have hNe : ¬ j = k := fun hEq => h hEq.symm
      simp [Doc.get, Doc.put, lookup_insert, hNe]

theorem lookup_filter_ne {fields : List (κ × Doc κ α)} (h : k ≠ j) :
    (fields.filter (·.1 ≠ k)).lookup j = fields.lookup j := by
  induction fields with
  | nil => rfl
  | cons p rest ih =>
      obtain ⟨key, value⟩ := p
      by_cases hKey : key = k
      · have hNe : ¬ j = key := fun hEq => h (hKey ▸ hEq.symm)
        rw [List.filter_cons_of_neg (by simpa using hKey), ih, lookup_cons, if_neg hNe]
      · rw [List.filter_cons_of_pos (by simpa using hKey), lookup_cons, lookup_cons, ih]

/-- An edit under a key leaves what is under the others, unless it moves the
items of an array. -/
theorem Edit.get_atKey_ne (h : e.atKey ix k d = some d') (hNe : k ≠ j)
    (hStill : e.moves = false ∨ d.isArray = false) : d'.get ix j = d.get ix j := by
  have hNe' : ¬ j = k := fun hEq => hNe hEq.symm
  cases d with
  | leaf a => cases e <;> cases h
  | object fields =>
      cases e with
      | add value =>
          cases h
          simp [Doc.get, lookup_insert, hNe']
      | replace value =>
          simp only [Edit.atKey, Option.ite_none_right_eq_some, Option.some.injEq] at h
          rw [← h.2]
          simp [Doc.get, lookup_insert, hNe']
      | remove =>
          simp only [Edit.atKey, Option.ite_none_right_eq_some, Option.some.injEq] at h
          rw [← h.2]
          exact lookup_filter_ne hNe
  | array items =>
      cases e with
      | add value => simp [Edit.moves, Doc.isArray] at hStill
      | remove => simp [Edit.moves, Doc.isArray] at hStill
      | replace value =>
          obtain ⟨i, hIndex, hSet⟩ := Option.bind_eq_some_iff.mp h
          simp only [Option.ite_none_right_eq_some, Option.some.injEq] at hSet
          have hPut : d' = (Doc.array items).put ix k value := by
            simp [Doc.put, hIndex, hSet.2]
          rw [hPut, Doc.get_put_ne hNe]

theorem Edit.Displaces.cons (h : e.Displaces ix q w c) (hGet : d.get ix k = some c) :
    e.Displaces ix (k :: q) (k :: w) d := by
  obtain ⟨above, k', j', rest, hq, hw, hNe, hMoves, hArray⟩ := h
  refine ⟨k :: above, k', j', rest, by simp [hq], by simp [hw], hNe, hMoves, ?_⟩
  simpa [Doc.valueAt, hGet] using hArray

/-- **An edit leaves the values elsewhere**: those that are neither above nor
below its path, nor among the items it moves. -/
theorem Edit.valueAt_apply (h : e.apply ix q d = some d') (hAbove : ¬ q <+: w)
    (hBelow : ¬ w <+: q) (hStill : ¬ e.Displaces ix q w d) :
    d'.valueAt ix w = d.valueAt ix w := by
  induction q generalizing w d d' with
  | nil => exact absurd List.nil_prefix hAbove
  | cons k q ih =>
      cases w with
      | nil => exact absurd List.nil_prefix hBelow
      | cons j w =>
          cases q with
          | nil =>
              have hNe : k ≠ j := by
                intro hEq
                exact hAbove (hEq ▸ by simp)
              have hKeeps : e.moves = false ∨ d.isArray = false := by
                cases hMoves : e.moves with
                | false => exact .inl rfl
                | true =>
                    cases hArray : d.isArray with
                    | false => exact .inr rfl
                    | true => exact absurd ⟨[], k, j, w, rfl, rfl, hNe, hMoves,
                        by simp [Doc.valueAt, hArray]⟩ hStill
              show (d'.get ix j).bind _ = (d.get ix j).bind _
              rw [Edit.get_atKey_ne h hNe hKeeps]
          | cons next rest =>
              obtain ⟨child, hGet, hRest⟩ := Option.bind_eq_some_iff.mp h
              obtain ⟨child', hChild, hPut⟩ := Option.map_eq_some_iff.mp hRest
              subst hPut
              show ((d.put ix k child').get ix j).bind _ = (d.get ix j).bind _
              by_cases hEq : k = j
              · -- the same child: what happens below it decides
                subst hEq
                rw [Doc.get_put_self (by simp [hGet]), hGet]
                have hSame := ih hChild
                  (fun hPre => hAbove (List.cons_prefix_cons.mpr ⟨rfl, hPre⟩))
                  (fun hPre => hBelow (List.cons_prefix_cons.mpr ⟨rfl, hPre⟩))
                  (fun hShift => hStill (hShift.cons hGet))
                exact hSame
              · rw [Doc.get_put_ne hEq]

end Documents
