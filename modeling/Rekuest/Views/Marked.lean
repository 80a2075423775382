import Mathlib.Data.List.Basic

/-!
# A stored value kept by marks

A column holds, for every key that is present, a value of the rows of other tables.  Whoever
changes those rows does not compute it: it leaves a mark on each key whose value its commit
changes.  A refresh takes some of the marks, locks the keys it can have, reads their values and
writes them, and puts back the marks of the keys it could not lock.

Any number of writers and refreshes run at once.  As long as every commit marks what it changes,
a key whose column is out of date is marked, or its mark is held by a refresh still under way.
-/

namespace Views

/-- What the column is to hold, of the keys that are present, and what a new key starts with. -/
structure View (σ κ β : Type) where
  value : σ → κ → β
  present : σ → κ → Bool
  start : β

/-- How far a refresh has come, with the keys it locked, the values it read of them and the marks
it puts back. -/
inductive Progress (κ β : Type)
  | claimed
  | locked (free : List κ)
  | computed (free : List κ) (values : κ → β)
  | putBack (free : List κ) (values : κ → β) (again : List κ)

def Progress.free {κ β : Type} : Progress κ β → List κ
  | claimed => []
  | locked free | computed free _ | putBack free _ _ => free

/-- A refresh under way: the marks it took are seen by nobody else. -/
structure Refresh (κ β : Type) where
  claimed : List κ
  progress : Progress κ β

/-- The rows, the column, the marks and the refreshes; one that is over leaves its place empty. -/
structure State (σ κ β : Type) where
  rows : σ
  stored : κ → β
  marks : List κ
  refreshes : List (Option (Refresh κ β))

/-- What a refresh does next. -/
inductive Label (κ : Type)
  /-- Some marks are taken, the others left. -/
  | claim (taken left : List κ)
  /-- Of the keys taken, those nobody else holds. -/
  | lock (i : Nat) (free : List κ)
  | compute (i : Nat)
  | putBack (i : Nat)
  | finish (i : Nat)
  /-- It fails: what it took is as it was. -/
  | abandon (i : Nat)

theorem slot_lt {α : Type} {l : List (Option α)} {i : Nat} {x : α} (h : l[i]?.join = some x) :
    i < l.length := (List.getElem?_eq_some_iff.1 (Option.join_eq_some_iff.1 h)).1

/-- A place of a list, some of whose places are empty, after one that was taken is written. -/
theorem slot_set {α : Type} {l : List (Option α)} {i : Nat} {x : α} (h : l[i]?.join = some x)
    (y : Option α) (j : Nat) : (l.set i y)[j]?.join = if j = i then y else l[j]?.join := by
  rw [List.getElem?_set]
  by_cases hij : j = i
  · subst hij
    rw [if_pos rfl, if_pos (slot_lt h), if_pos rfl]
    rfl
  · rw [if_neg (Ne.symm hij), if_neg hij]

/-- The places after one more was taken. -/
theorem slot_append {α : Type} (l : List (Option α)) (x : α) (i : Nat) :
    (l ++ [some x])[i]?.join = if i = l.length then some x else l[i]?.join := by
  by_cases hi : i = l.length
  · rw [hi, if_pos rfl, List.getElem?_concat_length]
    rfl
  · rw [if_neg hi, List.getElem?_append]
    by_cases hLt : i < l.length
    · rw [if_pos hLt]
    · rw [if_neg hLt, List.getElem?_eq_none (Nat.le_of_not_lt hLt),
        List.getElem?_eq_none (show [some x].length ≤ i - l.length by
          rw [List.length_singleton]
          omega)]

section Steps

variable {σ κ β : Type} [DecidableEq κ] (v : View σ κ β)

/-- The refresh at a place. -/
def State.at_ (s : State σ κ β) (i : Nat) : Option (Refresh κ β) := s.refreshes[i]?.join

def State.put (s : State σ κ β) (i : Nat) (r : Option (Refresh κ β)) : State σ κ β :=
  { s with refreshes := s.refreshes.set i r }

/-- After a commit, with its marks. -/
def State.wrote (s : State σ κ β) (rows : σ) (marks : List κ) : State σ κ β where
  rows := rows
  stored k := if v.present rows k && !v.present s.rows k then v.start else s.stored k
  marks := s.marks ++ marks
  refreshes := s.refreshes

/-- A commit cannot delete a key that is locked, and the keys it adds are new: none of them was
marked before. -/
def State.write (s : State σ κ β) (rows : σ) (marks : List κ) : Option (State σ κ β) :=
  if s.refreshes.all fun slot => slot.all fun r =>
      r.progress.free.all (v.present rows) &&
        r.claimed.all fun k => v.present s.rows k || !v.present rows k then
    some (s.wrote v rows marks)
  else none

/-- Whether nobody has the key locked. -/
def State.unlocked (s : State σ κ β) (k : κ) : Bool :=
  s.refreshes.all fun slot => slot.all fun r => !r.progress.free.contains k

def State.refresh (s : State σ κ β) : Label κ → Option (State σ κ β)
  | .claim taken left =>
      if s.marks.Perm (taken ++ left) then
        some { s with
          marks := left
          refreshes := s.refreshes ++ [some { claimed := taken, progress := .claimed }] }
      else none
  | .lock i free =>
      match s.at_ i with
      | some ⟨claimed, .claimed⟩ =>
          if free.all fun k => claimed.contains k && v.present s.rows k && s.unlocked k then
            some (s.put i (some ⟨claimed, .locked free⟩))
          else none
      | _ => none
  | .compute i =>
      match s.at_ i with
      | some ⟨claimed, .locked free⟩ =>
          some (s.put i (some ⟨claimed, .computed free (v.value s.rows)⟩))
      | _ => none
  | .putBack i =>
      match s.at_ i with
      | some ⟨claimed, .computed free values⟩ =>
          some (s.put i (some ⟨claimed, .putBack free values
            (claimed.filter fun k => v.present s.rows k && !free.contains k)⟩))
      | _ => none
  | .finish i =>
      match s.at_ i with
      | some ⟨_, .putBack free values again⟩ =>
          some { s.put i none with
            stored := fun k => if k ∈ free then values k else s.stored k
            marks := s.marks ++ again }
      | _ => none
  | .abandon i =>
      match s.at_ i with
      | some ⟨claimed, _⟩ => some { s.put i none with marks := s.marks ++ claimed }
      | none => none

end Steps

/-! ## The invariant -/

section Invariant

variable {σ κ β : Type} {v : View σ κ β} {s s' : State σ κ β}

/-- A mark of the key is in the table, or held by a refresh other than one. -/
def State.Marked (s : State σ κ β) (but : Option Nat) (k : κ) : Prop :=
  k ∈ s.marks ∨ ∃ i r, some i ≠ but ∧ s.at_ i = some r ∧ k ∈ r.claimed

/-- What holds of one refresh. -/
structure Refresh.Sound (v : View σ κ β) (s : State σ κ β) (i : Nat) (r : Refresh κ β) : Prop where
  present : ∀ k ∈ r.progress.free, v.present s.rows k = true
  /-- What it read is right, or marked anew. -/
  computed : ∀ free values, r.progress = .computed free values → ∀ k ∈ free,
    values k = v.value s.rows k ∨ s.Marked (some i) k
  putBack : ∀ free values again, r.progress = .putBack free values again →
    (∀ k ∈ free, values k = v.value s.rows k ∨ s.Marked (some i) k) ∧
      ∀ k ∈ r.claimed, v.present s.rows k = true → k ∈ free ∨ k ∈ again

/-- A key out of date is marked, and no two refreshes have locked one key. -/
structure Inv (v : View σ κ β) (s : State σ κ β) : Prop where
  covered : ∀ k, v.present s.rows k = true → s.stored k = v.value s.rows k ∨ s.Marked none k
  refreshes : ∀ i r, s.at_ i = some r → r.Sound v s i
  apart : ∀ i j r r', s.at_ i = some r → s.at_ j = some r' →
    ∀ k, k ∈ r.progress.free → k ∈ r'.progress.free → i = j

/-- The refreshes of a state, one of them replaced. -/
theorem at_put {i : Nat} {r : Refresh κ β} (hAt : s.at_ i = some r) (r' : Option (Refresh κ β))
    (j : Nat) : (s.put i r').at_ j = if j = i then r' else s.at_ j := slot_set hAt r' j

theorem of_at_put {i j : Nat} {r : Refresh κ β} {r' : Option (Refresh κ β)} {x : Refresh κ β}
    (hAt : s.at_ i = some r) (h : (s.put i r').at_ j = some x) :
    (j = i ∧ r' = some x) ∨ (j ≠ i ∧ s.at_ j = some x) := by
  rw [at_put hAt] at h
  by_cases hij : j = i
  · rw [if_pos hij] at h
    exact .inl ⟨hij, h⟩
  · rw [if_neg hij] at h
    exact .inr ⟨hij, h⟩

/-- What is sound stays so while the marks of what it locked do. -/
theorem Refresh.Sound.mono {i : Nat} {r : Refresh κ β} (h : r.Sound v s i) (hRows : s'.rows = s.rows)
    (hMarked : ∀ k ∈ r.progress.free, s.Marked (some i) k → s'.Marked (some i) k) :
    r.Sound v s' i where
  present := by
    rw [hRows]
    exact h.present
  computed free values hProgress k hk := by
    rw [hRows]
    exact (h.computed free values hProgress k hk).imp_right (hMarked k (by rw [hProgress]; exact hk))
  putBack free values again hProgress := by
    obtain ⟨hRead, hKept⟩ := h.putBack free values again hProgress
    rw [hRows]
    refine ⟨?_, hKept⟩
    intro k hk
    exact (hRead k hk).imp_right (hMarked k (by rw [hProgress]; exact hk))

/-! ### A refresh comes further -/

/-- A refresh goes on with the marks it took; rows, column and marks stay. -/
theorem marked_put {i : Nat} {r r' : Refresh κ β} (hAt : s.at_ i = some r)
    (hClaimed : r'.claimed = r.claimed) (but : Option Nat) (k : κ) :
    (s.put i (some r')).Marked but k ↔ s.Marked but k := by
  have hSame : ∀ j, (∃ x, (s.put i (some r')).at_ j = some x ∧ k ∈ x.claimed) ↔
      ∃ x, s.at_ j = some x ∧ k ∈ x.claimed := by
    intro j
    rw [at_put hAt]
    by_cases hij : j = i
    · subst hij
      rw [if_pos rfl, hAt]
      simp only [Option.some.injEq, exists_eq_left', hClaimed]
    · rw [if_neg hij]
  constructor
  · rintro (hMark | ⟨j, x, hBut, hx, hk⟩)
    · exact .inl hMark
    · obtain ⟨y, hy, hk'⟩ := (hSame j).1 ⟨x, hx, hk⟩
      exact .inr ⟨j, y, hBut, hy, hk'⟩
  · rintro (hMark | ⟨j, x, hBut, hx, hk⟩)
    · exact .inl hMark
    · obtain ⟨y, hy, hk'⟩ := (hSame j).2 ⟨x, hx, hk⟩
      exact .inr ⟨j, y, hBut, hy, hk'⟩

theorem Inv.further (h : Inv v s) {i : Nat} {r r' : Refresh κ β} (hAt : s.at_ i = some r)
    (hClaimed : r'.claimed = r.claimed) (hSound : r'.Sound v s i)
    (hApart : ∀ j x, j ≠ i → s.at_ j = some x → ∀ k, k ∈ r'.progress.free →
      k ∉ x.progress.free) : Inv v (s.put i (some r')) := by
  constructor
  · intro k hPresent
    exact (h.covered k hPresent).imp_right (marked_put hAt hClaimed _ k).2
  · intro j x hx
    rcases of_at_put hAt hx with ⟨rfl, hEq⟩ | ⟨-, hOld⟩
    · cases hEq
      exact hSound.mono rfl fun k _ => (marked_put hAt hClaimed _ k).2
    · exact (h.refreshes j x hOld).mono rfl fun k _ => (marked_put hAt hClaimed _ k).2
  · intro j j' x x' hx hx' k hk hk'
    rcases of_at_put hAt hx with ⟨rfl, hEq⟩ | ⟨hj, hOld⟩ <;>
      rcases of_at_put hAt hx' with ⟨rfl, hEq'⟩ | ⟨hj', hOld'⟩
    · rfl
    · cases hEq
      exact absurd hk' (hApart j' x' hj' hOld' k hk)
    · cases hEq'
      exact absurd hk (hApart j x hj hOld k hk')
    · exact h.apart j j' x x' hOld hOld' k hk hk'

/-! ### A refresh ends -/

/-- A refresh is over; the marks it had are back, or what it wrote is right. -/
theorem Inv.over (h : Inv v s) {i : Nat} {r : Refresh κ β} (hAt : s.at_ i = some r)
    (stored : κ → β) (back : List κ)
    (hStored : ∀ k, v.present s.rows k = true → stored k = v.value s.rows k ∨
      s.Marked (some i) k ∨ k ∈ back ∨ (k ∉ r.claimed ∧ stored k = s.stored k))
    (hBack : ∀ j x, j ≠ i → s.at_ j = some x → ∀ k ∈ x.progress.free, k ∈ r.claimed → k ∈ back) :
    Inv v { s.put i none with stored, marks := s.marks ++ back } := by
  let t : State σ κ β := { s.put i none with stored, marks := s.marks ++ back }
  have hOld : ∀ {j x}, t.at_ j = some x → j ≠ i ∧ s.at_ j = some x := by
    intro j x hx
    have hPut : (s.put i none).at_ j = some x := hx
    rcases of_at_put hAt hPut with ⟨-, hEq⟩ | hOld
    · cases hEq
    · exact hOld
  have hKeeps : ∀ {j x}, j ≠ i → s.at_ j = some x → t.at_ j = some x := by
    intro j x hj hx
    show (s.put i none).at_ j = some x
    rw [at_put hAt, if_neg hj]
    exact hx
  have hOthers : ∀ {but k}, s.Marked but k → t.Marked but k ∨ k ∈ r.claimed := by
    rintro but k (hMark | ⟨j, x, hBut, hx, hk⟩)
    · exact .inl (.inl (List.mem_append_left _ hMark))
    · by_cases hj : j = i
      · subst hj
        rw [hAt] at hx
        cases hx
        exact .inr hk
      · exact .inl (.inr ⟨j, x, hBut, hKeeps hj hx, hk⟩)
  have hHere : ∀ {k}, s.Marked (some i) k → t.Marked none k := by
    rintro k (hMark | ⟨j, x, hBut, hx, hk⟩)
    · exact .inl (List.mem_append_left _ hMark)
    · have hj : j ≠ i := fun hEq => hBut (congrArg some hEq)
      exact .inr ⟨j, x, by simp, hKeeps hj hx, hk⟩
  -- of a key another refresh has locked the marks are back
  have hLocked : ∀ {j x}, j ≠ i → s.at_ j = some x → ∀ k ∈ x.progress.free,
      s.Marked (some j) k → t.Marked (some j) k := by
    intro j x hj hx k hk hMarked
    rcases hOthers hMarked with hStays | hClaimed
    · exact hStays
    · exact .inl (List.mem_append_right _ (hBack j x hj hx k hk hClaimed))
  constructor
  · intro k hPresent
    show stored k = v.value s.rows k ∨ t.Marked none k
    rcases hStored k hPresent with hRight | hMarked | hAgain | ⟨hNot, hSame⟩
    · exact .inl hRight
    · exact .inr (hHere hMarked)
    · exact .inr (.inl (List.mem_append_right _ hAgain))
    · rw [hSame]
      rcases h.covered k hPresent with hRight | hMarked
      · exact .inl hRight
      · rcases hOthers hMarked with hStays | hClaimed
        · exact .inr hStays
        · exact absurd hClaimed hNot
  · intro j x hx
    obtain ⟨hj, hx⟩ := hOld hx
    exact (h.refreshes j x hx).mono rfl (hLocked hj hx)
  · intro j j' x x' hx hx'
    exact h.apart j j' x x' (hOld hx).2 (hOld hx').2

/-! ### What a step does -/

/-- A commit marks the keys whose value it changes, and the new ones unless theirs is the first. -/
def Covers (v : View σ κ β) (rows rows' : σ) (marks : List κ) : Prop :=
  ∀ k, v.present rows' k = true → k ∉ marks →
    v.value rows' k = if v.present rows k = true then v.value rows k else v.start

theorem write_ok {rows : σ} {marks : List κ} (h : s.write v rows marks = some s') :
    (∀ i r, s.at_ i = some r → (∀ k ∈ r.progress.free, v.present rows k = true) ∧
      ∀ k ∈ r.claimed, v.present rows k = true → v.present s.rows k = true) ∧
    s' = s.wrote v rows marks := by
  unfold State.write at h
  split at h
  case isFalse => cases h
  case isTrue hAll =>
      refine ⟨?_, (Option.some.inj h).symm⟩
      intro i r hAt
      have hMem : some r ∈ s.refreshes :=
        List.mem_of_getElem? (Option.join_eq_some_iff.1 hAt)
      have hBoth := List.all_eq_true.1 hAll _ hMem
      rw [Option.all_some, Bool.and_eq_true, List.all_eq_true, List.all_eq_true] at hBoth
      refine ⟨hBoth.1, ?_⟩
      intro k hk hPresent
      have hNew := hBoth.2 k hk
      rw [hPresent] at hNew
      simpa using hNew

theorem Inv.write (h : Inv v s) {rows : σ} {marks : List κ} (hCovers : Covers v s.rows rows marks)
    (hWrite : s.write v rows marks = some s') : Inv v s' := by
  obtain ⟨hLocks, rfl⟩ := write_ok hWrite
  have hMarked : ∀ {but k}, s.Marked but k → (s.wrote v rows marks).Marked but k := by
    rintro but k (hMark | hHeld)
    · exact .inl (List.mem_append_left _ hMark)
    · exact .inr hHeld
  have hNew : ∀ {k} but, k ∈ marks → (s.wrote v rows marks).Marked but k :=
    fun _ hMark => .inl (List.mem_append_right _ hMark)
  constructor
  · intro k hPresent
    by_cases hMark : k ∈ marks
    · exact .inr (hNew none hMark)
    · have hValue := hCovers k hPresent hMark
      by_cases hOld : v.present s.rows k = true
      · rw [if_pos hOld] at hValue
        have hStored : (s.wrote v rows marks).stored k = s.stored k := if_neg (by simp [hOld])
        show _ = v.value rows k ∨ _
        rw [hStored, hValue]
        exact (h.covered k hOld).imp_right hMarked
      · rw [if_neg hOld] at hValue
        exact .inl ((if_pos (by simp [show v.present rows k = true from hPresent, hOld])).trans
          hValue.symm)
  · intro i r hAt
    have hSound := h.refreshes i r hAt
    obtain ⟨hKeeps, hFresh⟩ := hLocks i r hAt
    -- a value read before is right still, or its key was marked by this commit
    have hRead : ∀ k ∈ r.progress.free, ∀ {x : β},
        x = v.value s.rows k ∨ s.Marked (some i) k →
          x = v.value rows k ∨ (s.wrote v rows marks).Marked (some i) k := by
      intro k hk x hx
      by_cases hMark : k ∈ marks
      · exact .inr (hNew _ hMark)
      · have hValue := hCovers k (hKeeps k hk) hMark
        rw [if_pos (hSound.present k hk)] at hValue
        rw [hValue]
        exact hx.imp_right hMarked
    refine ⟨hKeeps, ?_, ?_⟩
    · intro free values hProgress k hk
      exact hRead k (by rw [hProgress]; exact hk) (hSound.computed free values hProgress k hk)
    · intro free values again hProgress
      obtain ⟨hValues, hKept⟩ := hSound.putBack free values again hProgress
      refine ⟨?_, ?_⟩
      · intro k hk
        exact hRead k (by rw [hProgress]; exact hk) (hValues k hk)
      · intro k hk hPresent
        exact hKept k hk (hFresh k hk hPresent)
  · exact h.apart

theorem Inv.claim (h : Inv v s) {taken left : List κ} (hPerm : s.marks.Perm (taken ++ left)) :
    Inv v { s with
      marks := left
      refreshes := s.refreshes ++ [some { claimed := taken, progress := .claimed }] } := by
  let t : State σ κ β := { s with
    marks := left
    refreshes := s.refreshes ++ [some { claimed := taken, progress := .claimed }] }
  have hAt : ∀ i, t.at_ i = if i = s.refreshes.length then
      some { claimed := taken, progress := .claimed } else s.at_ i := slot_append _ _
  have hPlace : ∀ {i x}, s.at_ i = some x → i ≠ s.refreshes.length :=
    fun hx => Nat.ne_of_lt (slot_lt hx)
  have hOld : ∀ {i x}, s.at_ i = some x → t.at_ i = some x := by
    intro i x hx
    rw [hAt, if_neg (hPlace hx)]
    exact hx
  have hCases : ∀ {i x}, t.at_ i = some x →
      s.at_ i = some x ∨ x = { claimed := taken, progress := .claimed } := by
    intro i x hx
    rw [hAt] at hx
    split at hx
    · exact .inr (Option.some.inj hx).symm
    · exact .inl hx
  have hMarked : ∀ {but k}, but ≠ some s.refreshes.length → s.Marked but k → t.Marked but k := by
    rintro but k hBut (hMark | ⟨i, x, hNe, hx, hk⟩)
    · rcases List.mem_append.1 (hPerm.subset hMark) with hTaken | hLeft
      · exact .inr ⟨s.refreshes.length, _, hBut.symm, (hAt _).trans (if_pos rfl), hTaken⟩
      · exact .inl hLeft
    · exact .inr ⟨i, x, hNe, hOld hx, hk⟩
  constructor
  · intro k hPresent
    exact (h.covered k hPresent).imp_right (hMarked (by simp))
  · intro i x hx
    rcases hCases hx with hWas | rfl
    · refine (h.refreshes i x hWas).mono rfl ?_
      intro k _
      exact hMarked fun hEq => hPlace hWas (Option.some.inj hEq)
    · refine ⟨?_, ?_, ?_⟩
      · intro k hk
        cases hk
      · intro free values hProgress
        cases hProgress
      · intro free values again hProgress
        cases hProgress
  · intro i j x y hx hy k hk hk'
    rcases hCases hx with hOldX | rfl
    · rcases hCases hy with hOldY | rfl
      · exact h.apart i j x y hOldX hOldY k hk hk'
      · cases hk'
    · cases hk

variable [DecidableEq κ]

/-- A refresh leaves the rows. -/
theorem refresh_rows {label : Label κ} (h : s.refresh v label = some s') : s'.rows = s.rows := by
  cases label with
  | claim taken left =>
      simp only [State.refresh] at h
      split at h <;> cases h
      rfl
  | lock i free =>
      simp only [State.refresh] at h
      split at h
      · split at h <;> cases h
        rfl
      · cases h
  | compute i | putBack i | finish i | abandon i =>
      simp only [State.refresh] at h
      split at h <;> cases h
      rfl

/-- **Step lemma** of a refresh. -/
theorem Inv.refresh (h : Inv v s) {label : Label κ} (hStep : s.refresh v label = some s') :
    Inv v s' := by
  cases label with
  | claim taken left =>
      simp only [State.refresh] at hStep
      split at hStep
      case isFalse => cases hStep
      case isTrue hPerm =>
          cases hStep
          exact h.claim hPerm
  | lock i free =>
      simp only [State.refresh] at hStep
      split at hStep
      case h_2 => cases hStep
      case h_1 claimed hAt =>
          split at hStep
          case isFalse => cases hStep
          case isTrue hFree =>
              cases hStep
              have hEach : ∀ k ∈ free, v.present s.rows k = true ∧ s.unlocked k = true := by
                intro k hk
                have hAll := List.all_eq_true.1 hFree k hk
                rw [Bool.and_eq_true, Bool.and_eq_true] at hAll
                exact ⟨hAll.1.2, hAll.2⟩
              refine h.further hAt rfl ⟨fun k hk => (hEach k hk).1, ?_, ?_⟩ ?_
              · intro free values hProgress
                cases hProgress
              · intro free values again hProgress
                cases hProgress
              · intro j x _ hx k hk hHeld
                have hMem : some x ∈ s.refreshes :=
                  List.mem_of_getElem? (Option.join_eq_some_iff.1 hx)
                have hNot := List.all_eq_true.1 (hEach k hk).2 _ hMem
                simp only [Option.all_some, Bool.not_eq_true', List.contains_eq_mem,
                  decide_eq_false_iff_not] at hNot
                exact hNot hHeld
  | compute i =>
      simp only [State.refresh] at hStep
      split at hStep
      case h_2 => cases hStep
      case h_1 claimed free hAt =>
          cases hStep
          have hSound := h.refreshes i _ hAt
          refine h.further hAt rfl ⟨hSound.present, ?_, ?_⟩ ?_
          · intro free' values hProgress k _
            cases hProgress
            exact .inl rfl
          · intro free' values again hProgress
            cases hProgress
          · intro j x hj hx k hk hHeld
            exact hj (h.apart j i x _ hx hAt k hHeld hk)
  | putBack i =>
      simp only [State.refresh] at hStep
      split at hStep
      case h_2 => cases hStep
      case h_1 claimed free values hAt =>
          cases hStep
          have hSound := h.refreshes i _ hAt
          refine h.further hAt rfl ⟨hSound.present, ?_, ?_⟩ ?_
          · intro free' values' hProgress
            cases hProgress
          · intro free' values' again hProgress
            cases hProgress
            refine ⟨hSound.computed free values rfl, ?_⟩
            intro k hk hPresent
            by_cases hFree : k ∈ free
            · exact .inl hFree
            · right
              refine List.mem_filter.2 ⟨hk, ?_⟩
              rw [hPresent]
              simpa using hFree
          · intro j x hj hx k hk hHeld
            exact hj (h.apart j i x _ hx hAt k hHeld hk)
  | finish i =>
      simp only [State.refresh] at hStep
      split at hStep
      case h_2 => cases hStep
      case h_1 claimed free values again hAt =>
          cases hStep
          have hSound := h.refreshes i _ hAt
          obtain ⟨hRead, hKept⟩ := hSound.putBack free values again rfl
          refine h.over hAt (fun k => if k ∈ free then values k else s.stored k) again ?_ ?_
          · intro k hPresent
            by_cases hFree : k ∈ free
            · simp only [if_pos hFree]
              exact (hRead k hFree).imp_right .inl
            · simp only [if_neg hFree]
              by_cases hClaimed : k ∈ claimed
              · rcases hKept k hClaimed hPresent with hIn | hAgain
                · exact absurd hIn hFree
                · exact .inr (.inr (.inl hAgain))
              · exact .inr (.inr (.inr ⟨hClaimed, trivial⟩))
          · intro j x hj hx k hk hClaimed
            rcases hKept k hClaimed ((h.refreshes j x hx).present k hk) with hIn | hAgain
            · exact absurd (h.apart j i x _ hx hAt k hk hIn) hj
            · exact hAgain
  | abandon i =>
      simp only [State.refresh] at hStep
      split at hStep
      case h_2 => cases hStep
      case h_1 claimed progress hAt =>
          cases hStep
          refine h.over hAt s.stored claimed ?_ ?_
          · intro k _
            by_cases hClaimed : k ∈ claimed
            · exact .inr (.inr (.inl hClaimed))
            · exact .inr (.inr (.inr ⟨hClaimed, rfl⟩))
          · intro j x _ _ k _ hClaimed
            exact hClaimed

end Invariant

end Views
