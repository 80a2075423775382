import Rekuest.Retention.Rows

/-!
# What a pass knows

From where it locks a root on, a pass knows that the root and all that name it are done: a child
that is committed below it needs a key share lock of the root, which waits.  That is so where the
tree is over still as the root is locked, and not only in the snapshot it was judged in.
-/

namespace Rekuest.Retention

open Concurrent (Grant Grants)

variable {s s' : Store} {x y : Nat} {act : Act}

/-! ## Locks -/

structure Locks (s : Store) : Prop where
  compatible : Grants.Compatible Mode.conflict s.grants
  finishing : ∀ x c, s.work x = .call c → ∀ f ∈ c.finished,
    ⟨x, f.1, .no_key_update⟩ ∈ s.grants ∨ ⟨x, f.1, .for_update⟩ ∈ s.grants

/-- What a step leaves to the other sessions. -/
theorem Moves.others (h : Moves s act s') (hOther : y ≠ act.tx) :
    s'.work y = s.work y ∧ ∀ g ∈ s.grants, g.tx = y → g ∈ s'.grants := by
  cases h with
  | begin hWork => exact ⟨set_work_ne s _ hOther, fun g hg _ => hg⟩
  | judge hWork => exact ⟨set_work_ne s _ hOther, fun g hg _ => hg⟩
  | rollback =>
      refine ⟨set_work_ne _ _ hOther, fun g hg hTx => ?_⟩
      exact Grants.mem_released.2 ⟨hg, fun hIs => hOther (hTx.symm.trans hIs)⟩
  | read hWork hMem hId => exact ⟨set_work_ne s _ hOther, fun g hg _ => hg⟩
  | insert hWork => exact ⟨set_work_ne _ _ hOther, fun g hg _ => hg⟩
  | lock hWork hFree => exact ⟨rfl, fun g hg _ => List.mem_cons_of_mem _ hg⟩
  | finish hWork hHeld => exact ⟨set_work_ne s _ hOther, fun g hg _ => hg⟩
  | written hWork hKeys =>
      refine ⟨set_work_ne _ _ hOther, fun g hg hTx => ?_⟩
      exact Grants.mem_released.2 ⟨hg, fun hIs => hOther (hTx.symm.trans hIs)⟩
  | choose hWork hOpen hHere hOver hFree =>
      exact ⟨set_work_ne _ _ hOther, fun g hg _ => List.mem_cons_of_mem _ hg⟩
  | walk hWork hOpen => exact ⟨set_work_ne s _ hOther, fun g hg _ => hg⟩
  | take hWork hFree => exact ⟨rfl, fun g hg _ => List.mem_cons_of_mem _ hg⟩
  | deleted hWork hDoomed hHeld hKeys =>
      refine ⟨set_work_ne _ _ hOther, fun g hg hTx => ?_⟩
      exact Grants.mem_released.2 ⟨hg, fun hIs => hOther (hTx.symm.trans hIs)⟩

theorem Locks.next (h : Locks s) (hMoves : Moves s act s') : Locks s' := by
  constructor
  · cases hMoves with
    | begin | judge | read | insert | finish | walk => exact h.compatible
    | rollback | written | deleted => exact h.compatible.released _
    | lock _ hFree | take _ hFree => exact h.compatible.grant Mode.conflict_symm hFree
    | choose _ _ _ _ hFree => exact h.compatible.grant Mode.conflict_symm hFree
  · intro y c hWork f hf
    by_cases hSelf : y = act.tx
    · subst hSelf
      cases hMoves with
      | begin _ =>
          cases (set_work_self s _ _).symm.trans hWork
          cases hf
      | judge _ => cases (set_work_self s _ _).symm.trans hWork
      | rollback => cases (set_work_self _ _ _).symm.trans hWork
      | read hOld _ _ =>
          cases (set_work_self s _ _).symm.trans hWork
          exact h.finishing _ _ hOld f hf
      | insert hOld =>
          cases (set_work_self _ _ _).symm.trans hWork
          exact h.finishing _ _ hOld f hf
      | lock hOld _ =>
          rcases h.finishing _ _ hWork f hf with hHeld | hHeld
          · exact .inl (List.mem_cons_of_mem _ hHeld)
          · exact .inr (List.mem_cons_of_mem _ hHeld)
      | finish hOld hHeld =>
          cases (set_work_self s _ _).symm.trans hWork
          cases List.mem_append.1 hf with
          | inl hBefore => exact h.finishing _ _ hOld f hBefore
          | inr hNew =>
              rw [List.mem_singleton.1 hNew]
              exact hHeld
      | written _ _ => cases (set_work_self _ _ _).symm.trans hWork
      | choose _ _ _ _ _ => cases (set_work_self _ _ _).symm.trans hWork
      | walk _ _ => cases (set_work_self s _ _).symm.trans hWork
      | take hOld _ => cases hOld.symm.trans hWork
      | deleted _ _ _ _ => cases (set_work_self _ _ _).symm.trans hWork
    · obtain ⟨hSame, hKept⟩ := hMoves.others hSelf
      rw [hSame] at hWork
      rcases h.finishing y c hWork f hf with hHeld | hHeld
      · exact .inl (hKept _ hHeld rfl)
      · exact .inr (hKept _ hHeld rfl)

/-- A row that one holds for update is held by no other for an update or a key. -/
theorem Locks.apart (h : Locks s) {r : Nat} {mode : Mode} (hHeld : ⟨x, r, .for_update⟩ ∈ s.grants)
    (hOther : y ≠ x) : ⟨y, r, mode⟩ ∉ s.grants := by
  intro hIs
  have hFree := h.compatible _ hHeld _ hIs (Ne.symm hOther) rfl
  cases mode <;> cases hFree

/-! ## Passes -/

/-- What a pass knows of the roots it locked, and of what it walked to. -/
structure PassInv (s : Store) (x : Nat) (p : Pass) : Prop where
  locked : ∀ r ∈ p.chosen, ⟨x, r, .for_update⟩ ∈ s.grants
  here : ∀ r ∈ p.chosen, ∃ t ∈ s.tasks, t.id = r
  past : ∀ r ∈ p.chosen, ∀ t ∈ s.tasks, t.id = r → p.over t = true
  tree : ∀ r ∈ p.chosen, ∀ t ∈ s.tasks, t.root = some r → t.is_done = true
  drawn : ∀ ids, p.doomed = some ids → ∀ i ∈ ids, i ≤ s.sequence
  found : ∀ ids, p.doomed = some ids → ∀ l t, At s l t → t.id ∈ ids →
    t.id ∈ p.chosen ∨ ∃ r ∈ p.chosen, t.root = some r

/-- A step that writes no row. -/
theorem PassInv.on {p : Pass} (h : PassInv s x p) (hTasks : s'.tasks = s.tasks)
    (hSequence : s.sequence ≤ s'.sequence) (hGrants : ∀ g ∈ s.grants, g.tx = x → g ∈ s'.grants)
    (hAt : ∀ l t, At s' l t → At s l t ∨ s.sequence < t.id) : PassInv s' x p := by
  constructor
  · intro r hr
    exact hGrants _ (h.locked r hr) rfl
  · rw [hTasks]
    exact h.here
  · rw [hTasks]
    exact h.past
  · rw [hTasks]
    exact h.tree
  · intro ids hIds i hi
    exact Nat.le_trans (h.drawn ids hIds i hi) hSequence
  · intro ids hIds l t hIs hMem
    rcases hAt l t hIs with hOld | hNew
    · exact h.found ids hIds l t hOld hMem
    · have := h.drawn ids hIds t.id hMem
      omega

/-- A transaction that is committed beside a pass. -/
theorem PassInv.written {p : Pass} {c : Call} (h : PassInv s y p) (hTables : Tables s)
    (hLocks : Locks s) (hWork : s.work x = .call c) (hOther : y ≠ x)
    (hKeys : ∀ t ∈ c.rows, s.keyed x c.rows t.parent = true ∧ s.keyed x c.rows t.root = true) :
    PassInv ({ s with
      tasks := finish c.finished s.tasks ++ c.rows
      grants := s.grants.released x }.set x .idle) y p := by
  have hNew : ∀ r ∈ p.chosen, ∀ t ∈ c.rows, t.id ≠ r := by
    intro r hr t ht hId
    obtain ⟨t', hMem', hId'⟩ := h.here r hr
    have hApart := hTables.distinct (some x) none t t' ⟨c, hWork, ht⟩ hMem' (hId.trans hId'.symm)
    cases hApart.1
  constructor
  · intro r hr
    exact Grants.mem_released.2 ⟨h.locked r hr, hOther⟩
  · intro r hr
    have hFinished : ∃ t ∈ finish c.finished s.tasks, t.id = r := finish_here (h.here r hr)
    obtain ⟨t, hMem, hId⟩ := hFinished
    exact ⟨t, List.mem_append_left _ hMem, hId⟩
  · intro r hr t hMem hId
    cases List.mem_append.1 hMem with
    | inl hOld =>
        obtain ⟨t', hMem', hId', -, -, -, hSame⟩ := mem_finish hOld
        have hUnfinished : ∀ f ∈ c.finished, f.1 ≠ t'.id := by
          intro f hf hIs
          have hRow : f.1 = r := hIs.trans (hId'.symm.trans hId)
          rcases hLocks.finishing x c hWork f hf with hHeld | hHeld
          · rw [hRow] at hHeld
            exact hLocks.apart (h.locked r hr) (Ne.symm hOther) hHeld
          · rw [hRow] at hHeld
            exact hLocks.apart (h.locked r hr) (Ne.symm hOther) hHeld
        rw [hSame hUnfinished]
        exact h.past r hr t' hMem' (hId'.symm.trans hId)
    | inr hIn => exact absurd hId (hNew r hr t hIn)
  · intro r hr t hMem hRoot
    cases List.mem_append.1 hMem with
    | inl hOld =>
        obtain ⟨t', hMem', -, -, hRoot', hDone, -⟩ := mem_finish hOld
        exact hDone (h.tree r hr t' hMem' (hRoot'.symm.trans hRoot))
    | inr hIn =>
        -- Its foreign key to the root waits for the lock of the pass.
        have hKeyed := (hKeys t hIn).2
        rw [hRoot] at hKeyed
        unfold Store.keyed at hKeyed
        rw [Option.all_some, Bool.or_eq_true, Bool.and_eq_true_iff] at hKeyed
        rcases hKeyed with hOwn | ⟨-, hFree⟩
        · obtain ⟨t', hMem', hId'⟩ := List.any_eq_true.1 hOwn
          exact absurd (of_decide_eq_true hId') (hNew r hr t' hMem')
        · have hNone := Grants.free_iff.1 hFree _ (h.locked r hr) hOther rfl
          cases hNone
  · exact h.drawn
  · intro ids hIds l t hAt hMem
    cases l with
    | none =>
        cases List.mem_append.1 hAt with
        | inl hOld =>
            obtain ⟨t', hMem', hId', -, hRoot', -, -⟩ := mem_finish hOld
            rw [hId', hRoot']
            rw [hId'] at hMem
            exact h.found ids hIds none t' hMem' hMem
        | inr hIn => exact h.found ids hIds (some x) t ⟨c, hWork, hIn⟩ hMem
    | some z =>
        obtain ⟨c', hIs, hIn⟩ := hAt
        by_cases hSelf : z = x
        · rw [hSelf] at hIs
          cases (set_work_self _ x _).symm.trans hIs
        · rw [set_work_ne _ _ hSelf] at hIs
          exact h.found ids hIds (some z) t ⟨c', hIs, hIn⟩ hMem

/-- A pass that deletes beside another. -/
theorem PassInv.deleted {p : Pass} {ids : List Nat} (h : PassInv s y p) (hLocks : Locks s)
    (hOther : y ≠ x) (hHeld : ∀ t ∈ s.tasks, t.id ∈ ids → ⟨x, t.id, .for_update⟩ ∈ s.grants) :
    PassInv ({ s with
      tasks := s.tasks.filter fun t => !ids.contains t.id
      grants := s.grants.released x }.set x .idle) y p := by
  constructor
  · intro r hr
    exact Grants.mem_released.2 ⟨h.locked r hr, hOther⟩
  · intro r hr
    obtain ⟨t, hMem, hId⟩ := h.here r hr
    refine ⟨t, List.mem_filter.2 ⟨hMem, ?_⟩, hId⟩
    rw [Bool.not_eq_true', List.contains_eq_mem]
    apply decide_eq_false
    intro hIn
    have hTheirs := hHeld t hMem hIn
    rw [hId] at hTheirs
    exact hLocks.apart (h.locked r hr) (Ne.symm hOther) hTheirs
  · intro r hr t hMem
    exact h.past r hr t (List.mem_filter.1 hMem).1
  · intro r hr t hMem
    exact h.tree r hr t (List.mem_filter.1 hMem).1
  · exact h.drawn
  · intro ids' hIds l t hAt hMem
    cases l with
    | none => exact h.found ids' hIds none t (List.mem_filter.1 hAt).1 hMem
    | some z =>
        obtain ⟨c', hIs, hIn⟩ := hAt
        by_cases hSelf : z = x
        · rw [hSelf] at hIs
          cases (set_work_self _ x _).symm.trans hIs
        · rw [set_work_ne _ _ hSelf] at hIs
          exact h.found ids' hIds (some z) t ⟨c', hIs, hIn⟩ hMem

end Rekuest.Retention
