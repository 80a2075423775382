import Rekuest.Retention.Moves
import Rekuest.Retention.Store

/-!
# The rows, committed and not

Every row has an id of its own, and the root of its parent: also those that nobody sees yet.  A
foreign key that is checked as a transaction commits points at a row that is there.
-/

namespace Rekuest.Retention

open Concurrent (Grant Grants)

variable {s s' : Store} {x y : Nat} {act : Act}

/-- Where a row is: among the committed ones, or those a transaction inserted. -/
def At (s : Store) : Option Nat → Task → Prop
  | none, t => t ∈ s.tasks
  | some x, t => ∃ c, s.work x = .call c ∧ t ∈ c.rows

/-- What is known of a parent that was read: the root of its children. -/
structure Known (s : Store) (p q : Nat) : Prop where
  drawn : p ≤ s.sequence ∧ q ≤ s.sequence
  parent : ∀ l t, At s l t → t.id = p → t.root.getD p = q
  root : ∀ l t, At s l t → t.id = q → t.root = none

structure Tables (s : Store) : Prop where
  distinct : ∀ l l' t t', At s l t → At s l' t' → t.id = t'.id → l = l' ∧ t.root = t'.root
  drawn : ∀ l t, At s l t → t.id ≤ s.sequence
  linked : ∀ l t, At s l t → ∀ p, t.parent = some p → ∃ q, t.root = some q ∧ Known s p q
  parentless : ∀ l t, At s l t → t.parent = none → t.root = none
  present : ∀ t ∈ s.tasks, ∀ id, t.parent = some id ∨ t.root = some id → ∃ t' ∈ s.tasks, t'.id = id
  read : ∀ x c p q, s.work x = .call c → c.read = some (p, q) → Known s p q

/-! ## Steps over the rows -/

/-- Every row after a step is one there was, or a new one. -/
structure Traced (s s' : Store) : Prop where
  sequence : s.sequence ≤ s'.sequence
  row : ∀ l t, At s' l t → (∃ l' t', At s l' t' ∧ t'.id = t.id ∧ t'.parent = t.parent ∧ t'.root = t.root) ∨
    s.sequence < t.id

theorem Known.on {p q : Nat} (h : Known s p q) (hTraced : Traced s s') : Known s' p q := by
  have hDrawn := hTraced.sequence
  constructor
  · exact ⟨Nat.le_trans h.drawn.1 hDrawn, Nat.le_trans h.drawn.2 hDrawn⟩
  · intro l t hAt hId
    rcases hTraced.row l t hAt with ⟨l', t', hAt', hSame, -, hRoot⟩ | hNew
    · rw [← hRoot]
      exact h.parent l' t' hAt' (hSame.trans hId)
    · have := h.drawn.1
      omega
  · intro l t hAt hId
    rcases hTraced.row l t hAt with ⟨l', t', hAt', hSame, -, hRoot⟩ | hNew
    · rw [← hRoot]
      exact h.root l' t' hAt' (hSame.trans hId)
    · have := h.drawn.2
      omega

theorem set_work_self (s : Store) (x : Nat) (w : Work) : (s.set x w).work x = w := if_pos rfl

theorem set_work_ne (s : Store) {x y : Nat} (w : Work) (h : y ≠ x) : (s.set x w).work y = s.work y :=
  if_neg h

/-- The rows where a session inserts none. -/
theorem at_set {w : Work} (hRows : ∀ c, w = .call c → ∀ t ∈ c.rows, At s (some x) t) {l : Option Nat}
    {t : Task} (h : At (s.set x w) l t) : At s l t := by
  cases l with
  | none => exact h
  | some y =>
      obtain ⟨c, hWork, hMem⟩ := h
      by_cases hSelf : y = x
      · rw [hSelf, set_work_self] at hWork
        rw [hSelf]
        exact hRows c hWork t hMem
      · rw [set_work_ne s w hSelf] at hWork
        exact ⟨c, hWork, hMem⟩

/-- A step that neither writes nor inserts rows. -/
theorem Tables.shrink (h : Tables s) (hTasks : s'.tasks = s.tasks) (hSequence : s'.sequence = s.sequence)
    (hAt : ∀ l t, At s' l t → At s l t)
    (hRead : ∀ y c p q, s'.work y = .call c → c.read = some (p, q) → Known s p q) : Tables s' := by
  have hTraced : Traced s s' :=
    ⟨Nat.le_of_eq hSequence.symm, fun l t hIs => .inl ⟨l, t, hAt l t hIs, rfl, rfl, rfl⟩⟩
  constructor
  · intro l l' t t' hIs hIs'
    exact h.distinct l l' t t' (hAt l t hIs) (hAt l' t' hIs')
  · intro l t hIs
    rw [hSequence]
    exact h.drawn l t (hAt l t hIs)
  · intro l t hIs p hParent
    obtain ⟨q, hRoot, hKnown⟩ := h.linked l t (hAt l t hIs) p hParent
    exact ⟨q, hRoot, hKnown.on hTraced⟩
  · intro l t hIs
    exact h.parentless l t (hAt l t hIs)
  · rw [hTasks]
    exact h.present
  · intro y c p q hWork hIs
    exact (hRead y c p q hWork hIs).on hTraced

/-- A session that goes on with the rows it has, and with what it had read. -/
theorem Tables.set (h : Tables s) {w : Work} (hRows : ∀ c, w = .call c → ∀ t ∈ c.rows, At s (some x) t)
    (hRead : ∀ c p q, w = .call c → c.read = some (p, q) → Known s p q) : Tables (s.set x w) := by
  refine @Tables.shrink s (s.set x w) h rfl rfl (fun l t => at_set hRows) ?_
  intro y c p q hWork hIs
  by_cases hSelf : y = x
  · rw [hSelf, set_work_self] at hWork
    exact hRead c p q hWork hIs
  · rw [set_work_ne s w hSelf] at hWork
    exact h.read y c p q hWork hIs

/-- Locks are not rows. -/
theorem Tables.grants (h : Tables s) (grants : Grants Nat Mode) : Tables { s with grants } := by
  refine @Tables.shrink s { s with grants } h rfl rfl ?_ ?_
  · intro l t hIs
    cases l with
    | none => exact hIs
    | some y => exact hIs
  · exact h.read

theorem Tables.rooted (h : Tables s) : Rooted s.tasks := by
  constructor
  · intro t hMem p hParent
    obtain ⟨q, hRoot, hKnown⟩ := h.linked none t hMem p hParent
    exact ⟨q, hRoot, fun t' hMem' hId => hKnown.parent none t' hMem' hId⟩
  · intro t hMem q hRoot t' hMem' hId
    cases hParent : t.parent with
    | none =>
        rw [h.parentless none t hMem hParent] at hRoot
        cases hRoot
    | some p =>
        obtain ⟨q', hRoot', hKnown⟩ := h.linked none t hMem p hParent
        rw [hRoot] at hRoot'
        rw [Option.some.inj hRoot'] at hId
        exact hKnown.root none t' hMem' hId
  · exact h.present

/-! ## Reading, inserting, writing -/

/-- What a transaction reads of a row is known. -/
theorem Tables.known (h : Tables s) {l : Option Nat} {t : Task} (hAt : At s l t) :
    Known s t.id (t.root.getD t.id) := by
  have hSame : ∀ l' t', At s l' t' → t'.id = t.id → t'.root = t.root := fun l' t' hAt' hId =>
    (h.distinct l' l t' t hAt' hAt hId).2
  cases hIs : t.root with
  | none =>
      refine ⟨⟨h.drawn l t hAt, h.drawn l t hAt⟩, ?_, ?_⟩
      · intro l' t' hAt' hId
        rw [hSame l' t' hAt' hId, hIs]
      · intro l' t' hAt' hId
        exact (hSame l' t' hAt' hId).trans hIs
  | some q =>
      cases hParent : t.parent with
      | none =>
          rw [h.parentless l t hAt hParent] at hIs
          cases hIs
      | some p =>
          obtain ⟨q', hRoot', hKnown⟩ := h.linked l t hAt p hParent
          rw [hIs] at hRoot'
          rw [← Option.some.inj hRoot'] at hKnown
          refine ⟨⟨h.drawn l t hAt, hKnown.drawn.2⟩, ?_, hKnown.root⟩
          intro l' t' hAt' hId
          rw [hSame l' t' hAt' hId, hIs]

theorem Tables.read_row (h : Tables s) {c : Call} {t : Task} (hWork : s.work x = .call c)
    (hMem : t ∈ c.rows ++ s.tasks) :
    Tables (s.set x (.call { c with read := some (t.id, t.root.getD t.id) })) := by
  apply h.set
  · intro c' hIs t' hMem'
    cases hIs
    exact ⟨c, hWork, hMem'⟩
  · intro c' p q hIs hRead
    cases hIs
    cases hRead
    cases List.mem_append.1 hMem with
    | inl hOwn =>
        have hAt : At s (some x) t := ⟨c, hWork, hOwn⟩
        exact h.known hAt
    | inr hCommitted =>
        have hAt : At s none t := hCommitted
        exact h.known hAt

/-- The rows where a transaction inserts one. -/
theorem at_insert {c : Call} {ephemeral : Bool} (hWork : s.work x = .call c) {l : Option Nat} {t : Task}
    (h : At (({ s with sequence := s.sequence + 1 } : Store).set x
      (.call { c with rows := c.rows ++ [s.new_task c ephemeral] })) l t) :
    At s l t ∨ l = some x ∧ t = s.new_task c ephemeral := by
  cases l with
  | none => exact .inl h
  | some y =>
      obtain ⟨c', hIs, hMem⟩ := h
      by_cases hSelf : y = x
      · rw [hSelf, set_work_self] at hIs
        cases hIs
        rw [hSelf]
        cases List.mem_append.1 hMem with
        | inl hOld => exact .inl ⟨c, hWork, hOld⟩
        | inr hNew => exact .inr ⟨rfl, List.mem_singleton.1 hNew⟩
      · rw [set_work_ne _ _ hSelf] at hIs
        exact .inl ⟨c', hIs, hMem⟩

theorem Tables.insert_row (h : Tables s) {c : Call} {ephemeral : Bool} (hWork : s.work x = .call c) :
    Tables (({ s with sequence := s.sequence + 1 } : Store).set x
      (.call { c with rows := c.rows ++ [s.new_task c ephemeral] })) := by
  have hTraced : Traced s (({ s with sequence := s.sequence + 1 } : Store).set x
      (.call { c with rows := c.rows ++ [s.new_task c ephemeral] })) := by
    refine ⟨Nat.le_succ _, fun l t hAt => ?_⟩
    rcases at_insert hWork hAt with hOld | ⟨-, rfl⟩
    · exact .inl ⟨l, t, hOld, rfl, rfl, rfl⟩
    · exact .inr (Nat.lt_succ_self _)
  have hFresh : ∀ l t, At s l t → t.id ≠ s.sequence + 1 := by
    intro l t hAt hIs
    have := h.drawn l t hAt
    omega
  constructor
  · intro l l' t t' hAt hAt' hId
    rcases at_insert hWork hAt with hOld | ⟨hl, rfl⟩ <;>
      rcases at_insert hWork hAt' with hOld' | ⟨hl', rfl⟩
    · exact h.distinct l l' t t' hOld hOld' hId
    · exact absurd hId (hFresh l t hOld)
    · exact absurd hId.symm (hFresh l' t' hOld')
    · exact ⟨hl.trans hl'.symm, rfl⟩
  · intro l t hAt
    show t.id ≤ s.sequence + 1
    rcases at_insert hWork hAt with hOld | ⟨-, rfl⟩
    · have := h.drawn l t hOld
      omega
    · exact Nat.le_refl _
  · intro l t hAt p hParent
    rcases at_insert hWork hAt with hOld | ⟨-, rfl⟩
    · obtain ⟨q, hRoot, hKnown⟩ := h.linked l t hOld p hParent
      exact ⟨q, hRoot, hKnown.on hTraced⟩
    · have hIs : c.read.map (·.1) = some p := hParent
      obtain ⟨known, hRead, rfl⟩ := Option.map_eq_some_iff.1 hIs
      refine ⟨known.2, ?_, (h.read x c known.1 known.2 hWork hRead).on hTraced⟩
      show c.read.map (·.2) = some known.2
      rw [hRead]
      rfl
  · intro l t hAt hParent
    rcases at_insert hWork hAt with hOld | ⟨-, rfl⟩
    · exact h.parentless l t hOld hParent
    · have hNone : c.read.map (·.1) = none := hParent
      show c.read.map (·.2) = none
      cases hRead : c.read with
      | none => rfl
      | some known =>
          rw [hRead] at hNone
          cases hNone
  · exact h.present
  · intro y c' p q hIs hRead
    by_cases hSelf : y = x
    · rw [hSelf, set_work_self] at hIs
      cases hIs
      exact (h.read x c p q hWork hRead).on hTraced
    · rw [set_work_ne _ _ hSelf] at hIs
      exact (h.read y c' p q hIs hRead).on hTraced

/-- A task that was finished, or not. -/
theorem mem_finish {finished : List (Nat × Int)} {tasks : List Task} {t' : Task}
    (h : t' ∈ finish finished tasks) : ∃ t ∈ tasks, t'.id = t.id ∧ t'.parent = t.parent ∧
      t'.root = t.root ∧ (t.is_done = true → t'.is_done = true) ∧
        ((∀ f ∈ finished, f.1 ≠ t.id) → t' = t) := by
  obtain ⟨t, hMem, rfl⟩ := List.mem_map.1 h
  refine ⟨t, hMem, ?_⟩
  cases hLast : (finished.filter fun f => f.1 = t.id).getLast? with
  | none => exact ⟨rfl, rfl, rfl, id, fun _ => rfl⟩
  | some f =>
      refine ⟨rfl, rfl, rfl, fun _ => rfl, fun hNone => ?_⟩
      obtain ⟨hIn, hId⟩ := List.mem_filter.1 (List.mem_of_getLast? hLast)
      exact absurd (of_decide_eq_true hId) (hNone f hIn)

/-- A row that is committed stays at its id. -/
theorem finish_here {finished : List (Nat × Int)} {tasks : List Task} {id : Nat}
    (h : ∃ t ∈ tasks, t.id = id) : ∃ t ∈ finish finished tasks, t.id = id := by
  obtain ⟨t, hMem, hId⟩ := h
  refine ⟨_, List.mem_map_of_mem hMem, ?_⟩
  cases (finished.filter fun f => f.1 = t.id).getLast? with
  | none => exact hId
  | some f => exact hId

end Rekuest.Retention
