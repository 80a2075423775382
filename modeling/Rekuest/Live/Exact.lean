import Rekuest.Live.Counts

/-!
# The live count is right, or marked

What a transaction changes of the counts it marks, as far as it sees: a transaction that changes
an agent does not see implementations of it that another has not committed yet.  Where no two
transactions do these two things at once, an action whose count is out of date is marked, or its
mark is held by a refresh under way.  A registration writes its agent's row before the
implementations, which keeps it apart from a lease claimed or lost; a higher-order implementation
is created without the agent's row.
-/

namespace Rekuest.Live

open Concurrent

/-! ## What is counted -/

section Rows

variable {rows rows' : Rows} {w w' : Writer}

/-- The implementation is there, and counted for the action. -/
def Counted (rows : Rows) (action : Nat) (i : Implementation) : Prop :=
  i ∈ rows.implementations ∧ rows.counts action i = true

theorem counts_iff {action : Nat} {i : Implementation} :
    rows.counts action i = true ↔
      i.action = action ∧ (rows.agents i.agent).available = true := by
  rw [Rows.counts, Bool.and_eq_true, beq_iff_eq]

/-- Rows that have the same implementations counted have the same count. -/
theorem live_eq {action : Nat} (hIds : (rows.implementations.map (·.id)).Nodup)
    (hIds' : (rows'.implementations.map (·.id)).Nodup)
    (h : ∀ i, Counted rows' action i ↔ Counted rows action i) :
    rows'.live action = rows.live action := by
  rw [Rows.live, Rows.live, List.countP_eq_length_filter, List.countP_eq_length_filter]
  apply List.Perm.length_eq
  rw [List.perm_ext_iff_of_nodup (hIds'.of_map.filter _) (hIds.of_map.filter _)]
  intro i
  rw [List.mem_filter, List.mem_filter]
  exact h i

theorem live_of_absent (hThere : rows.actionsThere = true) {action : Nat}
    (hAbsent : rows.actions action ≠ true) : rows.live action = 0 := by
  rw [Rows.live, List.countP_eq_zero]
  intro i hi hCounts
  have hAction := List.all_eq_true.1 hThere i hi
  rw [(counts_iff.1 hCounts).1] at hAction
  exact hAbsent hAction

theorem mem_sees {i : Implementation} : i ∈ (w.sees rows).implementations ↔
    (i ∈ rows.implementations ∧ i.id ∉ w.ids) ∨ i ∈ w.rows := by
  show i ∈ rows.implementations.filter _ ++ w.rows ↔ _
  rw [List.mem_append, List.mem_filter]
  simp

theorem sees_agent (w : Writer) (rows : Rows) (g : Nat) :
    (w.sees rows).agents g = (w.agents g).getD (rows.agents g) := rfl

theorem sees_agent_none {g : Nat} (h : w.agents g = none) :
    (w.sees rows).agents g = rows.agents g := by
  rw [sees_agent, h]
  rfl

/-! ## One transaction -/

/-- What a transaction wrote is in its lists, and what it changes of the counts it marked. -/
structure Writer.Sound (rows : Rows) (w : Writer) : Prop where
  ids : (w.rows.map (·.id)).Nodup
  owned : ∀ i ∈ w.rows, i.id ∈ w.ids
  hosts : ∀ i, i.id ∈ w.ids → i ∈ rows.implementations ∨ i ∈ w.rows → i.agent ∈ w.hosts
  covers : ∀ action, action ∉ w.marks →
    ∀ i, Counted (w.sees rows) action i ↔ Counted rows action i

theorem sound_begin (rows : Rows) : ({} : Writer).Sound rows where
  ids := List.nodup_nil
  owned i hi := by cases hi
  hosts i hi := by cases hi
  covers action _ i := by
    have hMem : i ∈ (Writer.sees {} rows).implementations ↔ i ∈ rows.implementations := by
      rw [mem_sees]
      simp
    exact and_congr hMem Iff.rfl

theorem Writer.Sound.sees_ids (h : w.Sound rows) (hIds : (rows.implementations.map (·.id)).Nodup) :
    ((w.sees rows).implementations.map (·.id)).Nodup := by
  show ((rows.implementations.filter _ ++ w.rows).map (·.id)).Nodup
  rw [List.map_append, List.nodup_append]
  refine ⟨(List.filter_sublist.map _).nodup hIds, h.ids, ?_⟩
  rintro id hId other hOther rfl
  obtain ⟨i, hi, rfl⟩ := List.mem_map.1 hId
  obtain ⟨j, hj, hEq⟩ := List.mem_map.1 hOther
  have hNot := (List.mem_filter.1 hi).2
  have hIn := h.owned j hj
  rw [hEq] at hIn
  simp [hIn] at hNot

theorem Writer.Sound.setAgent (h : w.Sound rows) (id : Nat) (agent : Agent) :
    (w.setAgent rows id agent).Sound rows where
  ids := h.ids
  owned := h.owned
  hosts := h.hosts
  covers := by
    intro action hAction i
    have hNotOld : action ∉ w.marks := fun hOld => hAction (List.mem_append_left _ hOld)
    have hNotNew : action ∉ agent_marks (w.sees rows) id agent :=
      fun hNew => hAction (List.mem_append_right _ hNew)
    rw [← h.covers action hNotOld i]
    refine and_congr_right ?_
    intro hMem
    have hMem' : i ∈ (w.sees rows).implementations := hMem
    rw [counts_iff, counts_iff]
    refine and_congr_right ?_
    intro hIs
    -- an agent whose row changes has its implementations' actions marked
    have hSame : ((w.setAgent rows id agent).sees rows).agents i.agent =
        (w.sees rows).agents i.agent := by
      by_cases hHost : i.agent = id
      · by_cases hAgent : (w.sees rows).agents id = agent
        · rw [hHost, hAgent, sees_agent]
          show (if id = id then some agent else w.agents id).getD _ = agent
          rw [if_pos rfl]
          rfl
        · exfalso
          apply hNotNew
          rw [agent_marks, if_neg hAgent, List.mem_map]
          exact ⟨i, List.mem_filter.2 ⟨hMem', beq_iff_eq.2 hHost⟩, hIs⟩
      · rw [sees_agent, sees_agent]
        show (if i.agent = id then some agent else w.agents i.agent).getD _ = _
        rw [if_neg hHost]
    rw [hSame]

/-- The row of an id after it was written. -/
theorem mem_setImplementation {id : Nat} {place : Option (Nat × Nat)} {i : Implementation} :
    i ∈ ((w.setImplementation rows id place).sees rows).implementations ↔
      (i.id ≠ id ∧ i ∈ (w.sees rows).implementations) ∨
        (place.map fun p => ({ id, action := p.1, agent := p.2 } : Implementation)) = some i := by
  rw [mem_sees, mem_sees]
  show (i ∈ rows.implementations ∧ i.id ∉ id :: w.ids) ∨ i ∈ w.rows.filter _ ++ _ ↔ _
  rw [List.mem_append, List.mem_filter, List.mem_cons, not_or, Option.mem_toList, bne_iff_ne]
  constructor
  · rintro (⟨hOld, hNe, hNot⟩ | ⟨hMine, hNe⟩ | hNew)
    · exact .inl ⟨hNe, .inl ⟨hOld, hNot⟩⟩
    · exact .inl ⟨hNe, .inr hMine⟩
    · exact .inr hNew
  · rintro (⟨hNe, ⟨hOld, hNot⟩ | hMine⟩ | hNew)
    · exact .inl ⟨hOld, hNe, hNot⟩
    · exact .inr (.inl ⟨hMine, hNe⟩)
    · exact .inr (.inr hNew)

/-- The row of an id before, where there is one. -/
theorem old_iff (hIds : ((w.sees rows).implementations.map (·.id)).Nodup) {id : Nat}
    {i : Implementation} :
    w.old rows id = some i ↔ i ∈ (w.sees rows).implementations ∧ i.id = id := by
  constructor
  · intro h
    exact ⟨List.mem_of_find?_eq_some h, by simpa using List.find?_some h⟩
  · rintro ⟨hMem, rfl⟩
    cases hFound : w.old rows i.id with
    | none =>
        rw [Writer.old, List.find?_eq_none] at hFound
        exact absurd (beq_self_eq_true i.id) (hFound i hMem)
    | some j =>
        have hj : j.id = i.id := by simpa using List.find?_some hFound
        rw [List.inj_on_of_nodup_map hIds (List.mem_of_find?_eq_some hFound) hMem hj]

theorem Writer.Sound.setImplementation (h : w.Sound rows)
    (hIds : (rows.implementations.map (·.id)).Nodup) (id : Nat) (place : Option (Nat × Nat)) :
    (w.setImplementation rows id place).Sound rows := by
  have hSees := h.sees_ids hIds
  have hNewId : ∀ i, (place.map fun p => ({ id, action := p.1, agent := p.2 } : Implementation)) =
      some i → i.id = id := by
    intro i hi
    obtain ⟨p, -, rfl⟩ := Option.map_eq_some_iff.1 hi
    rfl
  constructor
  · show ((w.rows.filter _ ++ _).map (·.id)).Nodup
    rw [List.map_append, List.nodup_append]
    refine ⟨(List.filter_sublist.map _).nodup h.ids, ?_, ?_⟩
    · cases place <;> simp
    · rintro other hOther same hSame rfl
      obtain ⟨i, hi, rfl⟩ := List.mem_map.1 hOther
      obtain ⟨j, hj, hEq⟩ := List.mem_map.1 hSame
      have hNe := (List.mem_filter.1 hi).2
      rw [Option.mem_toList] at hj
      rw [← hEq, hNewId j hj] at hNe
      simp at hNe
  · intro i hi
    show i.id ∈ id :: w.ids
    rcases List.mem_append.1 hi with hOld | hNew
    · exact List.mem_cons_of_mem _ (h.owned i (List.mem_filter.1 hOld).1)
    · rw [Option.mem_toList] at hNew
      rw [hNewId i hNew]
      exact List.mem_cons_self
  · intro i hId hMem
    show i.agent ∈ w.hosts ++ _
    by_cases hWas : i.id ∈ w.ids ∧ (i ∈ rows.implementations ∨ i ∈ w.rows)
    · exact List.mem_append_left _ (h.hosts i hWas.1 hWas.2)
    · apply List.mem_append_right
      rw [List.map_append, List.mem_append]
      rcases hMem with hRow | hMine
      · -- it is the row that was seen before
        have hNot : i.id ∉ w.ids := fun hIn => hWas ⟨hIn, .inl hRow⟩
        have hIs : i.id = id := (List.mem_cons.1 hId).resolve_right hNot
        have hOld : w.old rows id = some i :=
          (old_iff hSees).2 ⟨mem_sees.2 (.inl ⟨hRow, hNot⟩), hIs⟩
        left
        rw [hOld]
        simp
      · rcases List.mem_append.1 hMine with hOld | hNew
        · have hIn := (List.mem_filter.1 hOld).1
          exact absurd ⟨h.owned i hIn, .inr hIn⟩ hWas
        · right
          exact List.mem_map_of_mem hNew
  · intro action hAction i
    have hNotOld : action ∉ w.marks := fun hIn => hAction (List.mem_append_left _ hIn)
    have hNotNew : action ∉ implementation_marks (w.old rows id)
        (place.map fun p => { id, action := p.1, agent := p.2 }) :=
      fun hIn => hAction (List.mem_append_right _ hIn)
    rw [← h.covers action hNotOld i]
    have hAgents : ∀ g, ((w.setImplementation rows id place).sees rows).agents g =
        (w.sees rows).agents g := fun _ => rfl
    unfold Counted
    rw [mem_setImplementation, counts_iff, counts_iff, hAgents]
    by_cases hId : i.id = id
    · have hBefore : i ∈ (w.sees rows).implementations ↔ w.old rows id = some i := by
        rw [old_iff hSees]
        exact ⟨fun hi => ⟨hi, hId⟩, And.left⟩
      have hOldId : ∀ o, w.old rows id = some o → o.id = id := fun o ho => ((old_iff hSees).1 ho).2
      rw [hBefore]
      generalize (place.map fun p => ({ id, action := p.1, agent := p.2 } : Implementation)) = new
        at hNotNew hNewId
      generalize w.old rows id = old at hNotNew hBefore hOldId
      cases old with
      | none =>
          cases new with
          | none => simp
          | some new =>
              simp only [implementation_marks, List.mem_singleton] at hNotNew
              simp only [hId, ne_eq, not_true_eq_false, false_and, false_or, Option.some.injEq,
                reduceCtorEq, iff_false, not_and]
              rintro rfl hIs
              exact absurd hIs.symm hNotNew
      | some old =>
          cases new with
          | none =>
              simp only [implementation_marks, List.mem_singleton] at hNotNew
              simp only [hId, ne_eq, not_true_eq_false, false_and, false_or, Option.some.injEq,
                reduceCtorEq, false_iff, not_and]
              rintro rfl hIs
              exact absurd hIs.symm hNotNew
          | some new =>
              have hNewIs := hNewId new rfl
              simp only [hId, ne_eq, not_true_eq_false, false_and, false_or, Option.some.injEq]
              by_cases hSame : old.action = new.action ∧ old.agent = new.agent
              · -- the row is written as it was
                have hEq : old = new := by
                  have hIs := hOldId old rfl
                  cases old
                  cases new
                  simp_all
                rw [hEq]
              · simp only [implementation_marks, if_neg hSame, List.mem_cons, List.not_mem_nil,
                  or_false, not_or] at hNotNew
                constructor
                · rintro ⟨rfl, hIs, -⟩
                  exact absurd hIs.symm hNotNew.2
                · rintro ⟨rfl, hIs, -⟩
                  exact absurd hIs.symm hNotNew.1
    · have hNot : ¬ (place.map fun p => ({ id, action := p.1, agent := p.2 } : Implementation)) =
          some i := fun hIs => hId (hNewId i hIs)
      simp [hId, hNot]

/-! ## Two transactions beside each other -/

/-- Neither wrote what the other wrote, and the first changed no agent of an implementation the
second changed. -/
structure Beside (w w' : Writer) : Prop where
  agents : ∀ g, w.agents g = none ∨ w'.agents g = none
  ids : ∀ id ∈ w.ids, id ∉ w'.ids
  hosts : ∀ g ∈ w'.hosts, w.agents g = none

theorem beside_begin_left (w : Writer) : Beside {} w where
  agents _ := .inl rfl
  ids id hId := by cases hId
  hosts _ _ := rfl

theorem beside_begin_right (w : Writer) : Beside w {} where
  agents _ := .inr rfl
  ids id _ := List.not_mem_nil
  hosts g hg := by cases hg

/-- Where a transaction wrote nothing, it sees what has committed. -/
theorem mem_sees_other (hOwned : ∀ i ∈ w.rows, i.id ∈ w.ids) {i : Implementation}
    (hId : i.id ∉ w.ids) : i ∈ (w.sees rows).implementations ↔ i ∈ rows.implementations := by
  rw [mem_sees]
  constructor
  · rintro (hOld | hMine)
    · exact hOld.1
    · exact absurd (hOwned i hMine) hId
  · intro hOld
    exact .inl ⟨hOld, hId⟩

/-- What one transaction wrote is sound still when one beside it has committed. -/
theorem Writer.Sound.other (h' : w'.Sound rows) (h : w.Sound rows) (hBeside : Beside w w')
    (hBeside' : Beside w' w) : w'.Sound (w.sees rows) := by
  refine ⟨h'.ids, h'.owned, ?_, ?_⟩
  · intro i hId hMem
    apply h'.hosts i hId
    refine hMem.imp_left ?_
    exact (mem_sees_other h.owned fun hIn => hBeside.ids _ hIn hId).1
  · intro action hAction i
    have hHere := h'.covers action hAction i
    unfold Counted at hHere ⊢
    rw [counts_iff, counts_iff] at hHere ⊢
    by_cases hId : i.id ∈ w.ids
    · -- the committed transaction wrote the row: the agent is not of the other
      rw [mem_sees_other h'.owned (hBeside.ids _ hId)]
      refine and_congr_right ?_
      intro hMem
      have hHost : i.agent ∈ w.hosts := h.hosts i hId ((mem_sees.1 hMem).imp_left And.left)
      rw [sees_agent_none (hBeside'.hosts _ hHost)]
    · rw [mem_sees_other h.owned hId]
      by_cases hAgent : w.agents i.agent = none
      · -- it wrote neither the row nor its agent
        have hMem : i ∈ (w'.sees (w.sees rows)).implementations ↔
            i ∈ (w'.sees rows).implementations := by
          rw [mem_sees (w := w'), mem_sees (w := w'), mem_sees_other h.owned hId]
        have hWas : (w.sees rows).agents i.agent = rows.agents i.agent := sees_agent_none hAgent
        have hWould : (w'.sees (w.sees rows)).agents i.agent = (w'.sees rows).agents i.agent := by
          rw [sees_agent w' (w.sees rows), sees_agent w' rows, hWas]
        rw [hMem, hWas, hWould]
        exact hHere
      · -- it wrote the agent: the row is not of the other
        have hNone : w'.agents i.agent = none := (hBeside.agents _).resolve_left hAgent
        have hMem : i ∈ (w'.sees (w.sees rows)).implementations ↔ i ∈ rows.implementations := by
          have hMine : i.id ∈ w'.ids → ¬ (i ∈ rows.implementations ∨ i ∈ w'.rows) :=
            fun hIn hRow => hAgent (hBeside.hosts _ (h'.hosts i hIn hRow))
          rw [mem_sees, mem_sees_other h.owned hId]
          constructor
          · rintro (hOld | hNew)
            · exact hOld.1
            · exact absurd (.inr hNew) (hMine (h'.owned i hNew))
          · intro hOld
            exact .inl ⟨hOld, fun hIn => hMine hIn (.inl hOld)⟩
        rw [hMem, sees_agent_none hNone]

end Rows

/-! ## The site -/

section Sites

variable {s s' : Site}

/-- A count out of date is marked, and no open transaction is in another's way. -/
structure Inv (s : Site) : Prop where
  view : Views.Inv live_implementations s.view
  ids : (s.view.rows.implementations.map (·.id)).Nodup
  there : s.view.rows.actionsThere = true
  writers : ∀ t w, s.at_ t = some w → w.Sound s.view.rows
  beside : ∀ t t' w w', t ≠ t' → s.at_ t = some w → s.at_ t' = some w' → Beside w w'

theorem others_iff {t : Nat} {p : Writer → Bool} :
    s.others t p = true ↔ ∀ t' w, t' ≠ t → s.at_ t' = some w → p w = true := by
  rw [Site.others, List.all_eq_true]
  constructor
  · intro h t' w hNe hAt
    have hHere := h t' (List.mem_range.2 (Views.slot_lt hAt))
    rw [hAt] at hHere
    simpa [hNe] using hHere
  · intro h t' _
    by_cases hEq : t' = t
    · simp [hEq]
    · rw [Bool.or_eq_true, Option.all_eq_true]
      exact .inr (h t' · hEq)

theorem at_put {t : Nat} {w : Writer} (hAt : s.at_ t = some w) (w' : Option Writer) (t' : Nat) :
    (s.put t w').at_ t' = if t' = t then w' else s.at_ t' := Views.slot_set hAt w' t'

/-- A transaction goes on, beside the others still. -/
theorem Inv.put (h : Inv s) {t : Nat} {w w₁ : Writer} (hAt : s.at_ t = some w)
    (hSound : w₁.Sound s.view.rows)
    (hBeside : ∀ t' w', t' ≠ t → s.at_ t' = some w' → Beside w₁ w' ∧ Beside w' w₁) :
    Inv (s.put t (some w₁)) := by
  refine ⟨h.view, h.ids, h.there, ?_, ?_⟩
  · intro t' w' hAt'
    rw [at_put hAt] at hAt'
    by_cases hEq : t' = t
    · rw [if_pos hEq] at hAt'
      cases hAt'
      exact hSound
    · rw [if_neg hEq] at hAt'
      exact h.writers t' w' hAt'
  · intro t₁ t₂ x y hNe hx hy
    rw [at_put hAt] at hx hy
    by_cases h₁ : t₁ = t
    · rw [if_pos h₁] at hx
      rw [if_neg fun h₂ => hNe (h₁.trans h₂.symm)] at hy
      cases hx
      exact (hBeside t₂ y (fun h₂ => hNe (h₁.trans h₂.symm)) hy).1
    · rw [if_neg h₁] at hx
      by_cases h₂ : t₂ = t
      · rw [if_pos h₂] at hy
        cases hy
        exact (hBeside t₁ x h₁ hx).2
      · rw [if_neg h₂] at hy
        exact h.beside t₁ t₂ x y hNe hx hy

/-- A transaction is over. -/
theorem Inv.drop (h : Inv s) {t : Nat} {w : Writer} (hAt : s.at_ t = some w) :
    Inv (s.put t none) := by
  have hOld : ∀ {t' w'}, (s.put t none).at_ t' = some w' → t' ≠ t ∧ s.at_ t' = some w' := by
    intro t' w' hAt'
    rw [at_put hAt] at hAt'
    by_cases hEq : t' = t
    · rw [if_pos hEq] at hAt'
      cases hAt'
    · rw [if_neg hEq] at hAt'
      exact ⟨hEq, hAt'⟩
  refine ⟨h.view, h.ids, h.there, ?_, ?_⟩
  · intro t' w' hAt'
    exact h.writers t' w' (hOld hAt').2
  · intro t₁ t₂ x y hNe hx hy
    exact h.beside t₁ t₂ x y hNe (hOld hx).2 (hOld hy).2

theorem Inv.begin_ (h : Inv s) : Inv { s with writers := s.writers ++ [some {}] } := by
  have hOld : ∀ {t w}, Site.at_ { s with writers := s.writers ++ [some {}] } t = some w →
      (t ≠ s.writers.length ∧ s.at_ t = some w) ∨ (t = s.writers.length ∧ w = {}) := by
    intro t w hAt
    have hSlot := (Views.slot_append s.writers ({} : Writer) t).symm.trans hAt
    split at hSlot
    case isTrue hIs => exact .inr ⟨hIs, (Option.some.inj hSlot).symm⟩
    case isFalse hNot => exact .inl ⟨hNot, hSlot⟩
  refine ⟨h.view, h.ids, h.there, ?_, ?_⟩
  · intro t w hAt
    rcases hOld hAt with ⟨-, hWas⟩ | ⟨-, rfl⟩
    · exact h.writers t w hWas
    · exact sound_begin _
  · intro t t' w w' hNe hAt hAt'
    rcases hOld hAt with ⟨-, hWas⟩ | ⟨hIs, rfl⟩
    · rcases hOld hAt' with ⟨-, hWas'⟩ | ⟨-, rfl⟩
      · exact h.beside t t' w w' hNe hWas hWas'
      · exact beside_begin_right w
    · exact beside_begin_left w'

/-- A commit changes only the counts it marks. -/
theorem covers_commit (h : Inv s) {t : Nat} {w : Writer} (hAt : s.at_ t = some w) :
    Views.Covers live_implementations s.view.rows (w.sees s.view.rows) w.marks := by
  intro action _ hNot
  have hSound := h.writers t w hAt
  show (w.sees s.view.rows).live action =
    if s.view.rows.actions action = true then s.view.rows.live action else 0
  rw [live_eq h.ids (hSound.sees_ids h.ids) (hSound.covers action hNot)]
  by_cases hPresent : s.view.rows.actions action = true
  · rw [if_pos hPresent]
  · rw [if_neg hPresent, live_of_absent h.there hPresent]

theorem Inv.commit (h : Inv s) {t : Nat} {w : Writer} (hAt : s.at_ t = some w)
    (hThere : (w.sees s.view.rows).actionsThere = true) {view : Views.State Rows Nat Nat}
    (hWrite : s.view.write live_implementations (w.sees s.view.rows) w.marks = some view) :
    Inv { s.put t none with view } := by
  have hSound := h.writers t w hAt
  have hRows : view.rows = w.sees s.view.rows := by
    rw [(Views.write_ok hWrite).2]
    rfl
  have hOver := h.drop hAt
  refine ⟨h.view.write (covers_commit h hAt) hWrite, ?_, ?_, ?_, hOver.beside⟩
  · show (view.rows.implementations.map (·.id)).Nodup
    rw [hRows]
    exact hSound.sees_ids h.ids
  · show view.rows.actionsThere = true
    rw [hRows]
    exact hThere
  · intro t' w' hAt'
    show w'.Sound view.rows
    rw [hRows]
    have hPut : (s.put t none).at_ t' = some w' := hAt'
    rw [at_put hAt] at hPut
    by_cases hEq : t' = t
    · rw [if_pos hEq] at hPut
      cases hPut
    · rw [if_neg hEq] at hPut
      exact (h.writers t' w' hPut).other hSound (h.beside t t' w w' (Ne.symm hEq) hAt hPut)
        (h.beside t' t w' w hEq hPut hAt)

theorem Inv.agent (h : Inv s) {t id : Nat} {agent : Agent} {w : Writer} (hAt : s.at_ t = some w)
    (hFree : s.others t (fun other => (other.agents id).isNone) = true)
    (hApart : s.others t (fun other => !other.hosts.contains id) = true) :
    Inv (s.put t (some (w.setAgent s.view.rows id agent))) := by
  refine h.put hAt ((h.writers t w hAt).setAgent id agent) ?_
  intro t' w' hNe hAt'
  have hNone : w'.agents id = none :=
    Option.isNone_iff_eq_none.1 (others_iff.1 hFree t' w' hNe hAt')
  have hHost : id ∉ w'.hosts := by simpa using others_iff.1 hApart t' w' hNe hAt'
  have hOut := h.beside t t' w w' (Ne.symm hNe) hAt hAt'
  have hIn := h.beside t' t w' w hNe hAt' hAt
  have hAgents : ∀ g, g ≠ id → (w.setAgent s.view.rows id agent).agents g = w.agents g :=
    fun g hg => if_neg hg
  constructor
  · refine ⟨?_, hOut.ids, ?_⟩
    · intro g
      by_cases hg : g = id
      · rw [hg]
        exact .inr hNone
      · rw [hAgents g hg]
        exact hOut.agents g
    · intro g hHosts
      rw [hAgents g fun hg => hHost (hg ▸ hHosts)]
      exact hOut.hosts g hHosts
  · refine ⟨?_, hIn.ids, hIn.hosts⟩
    intro g
    by_cases hg : g = id
    · rw [hg]
      exact .inl hNone
    · rw [hAgents g hg]
      exact hIn.agents g

theorem Inv.implementation (h : Inv s) {t id : Nat} {place : Option (Nat × Nat)} {w : Writer}
    (hAt : s.at_ t = some w) (hFree : s.others t (fun other => !other.ids.contains id) = true)
    (hApart : ((((w.old s.view.rows id).map (·.agent)).toList ++ (place.map (·.2)).toList).all
      fun host => s.others t fun other => (other.agents host).isNone) = true) :
    Inv (s.put t (some (w.setImplementation s.view.rows id place))) := by
  refine h.put hAt ((h.writers t w hAt).setImplementation h.ids id place) ?_
  intro t' w' hNe hAt'
  have hNot : id ∉ w'.ids := by simpa using others_iff.1 hFree t' w' hNe hAt'
  have hOut := h.beside t t' w w' (Ne.symm hNe) hAt hAt'
  have hIn := h.beside t' t w' w hNe hAt' hAt
  have hHosts : ∀ g ∈ (w.setImplementation s.view.rows id place).hosts,
      g ∈ w.hosts ∨ w'.agents g = none := by
    intro g hg
    rcases List.mem_append.1 hg with hOld | hNew
    · exact .inl hOld
    · right
      have hEach := List.all_eq_true.1 hApart g (by cases place <;> simpa using hNew)
      exact Option.isNone_iff_eq_none.1 (others_iff.1 hEach t' w' hNe hAt')
  constructor
  · refine ⟨hOut.agents, ?_, hOut.hosts⟩
    intro other hOther
    rcases List.mem_cons.1 hOther with rfl | hOld
    · exact hNot
    · exact hOut.ids other hOld
  · refine ⟨hIn.agents, ?_, ?_⟩
    · intro other hOther hMine
      rcases List.mem_cons.1 hMine with rfl | hOld
      · exact hNot hOther
      · exact hIn.ids other hOther hOld
    · intro g hg
      rcases hHosts g hg with hOld | hNone
      · exact hIn.hosts g hOld
      · exact hNone

theorem Inv.action (h : Inv s) {t id : Nat} {present : Bool} {w : Writer}
    (hAt : s.at_ t = some w) : Inv (s.put t (some (w.setAction id present))) := by
  have hSound := h.writers t w hAt
  refine h.put hAt ⟨hSound.ids, hSound.owned, hSound.hosts, hSound.covers⟩ ?_
  intro t' w' hNe hAt'
  have hOut := h.beside t t' w w' (Ne.symm hNe) hAt hAt'
  have hIn := h.beside t' t w' w hNe hAt' hAt
  exact ⟨⟨hOut.agents, hOut.ids, hOut.hosts⟩, ⟨hIn.agents, hIn.ids, hIn.hosts⟩⟩

/-- **Step lemma**: while no two transactions change an agent and its implementations at once,
a count out of date stays marked. -/
theorem inv_step {label : Label} (h : Inv s) (hApart : Apart s label)
    (hStep : site.next s label = some s') : Inv s' := by
  cases label with
  | begin =>
      cases hStep
      exact h.begin_
  | agent t id agent =>
      obtain ⟨w, hAt, hRest⟩ := Option.bind_eq_some_iff.1 hStep
      split at hRest
      case isFalse => cases hRest
      case isTrue hFree =>
          cases hRest
          exact h.agent hAt hFree hApart
  | implementation t id place =>
      obtain ⟨w, hAt, hRest⟩ := Option.bind_eq_some_iff.1 hStep
      split at hRest
      case isFalse => cases hRest
      case isTrue hFree =>
          cases hRest
          have hHosts : apart s (.implementation t id place) = true := hApart
          simp only [apart, hAt] at hHosts
          exact h.implementation hAt hFree hHosts
  | action t id present =>
      obtain ⟨w, hAt, hRest⟩ := Option.bind_eq_some_iff.1 hStep
      split at hRest
      case isFalse => cases hRest
      case isTrue =>
          cases hRest
          exact h.action hAt
  | commit t =>
      obtain ⟨w, hAt, hRest⟩ := Option.bind_eq_some_iff.1 hStep
      dsimp only at hRest
      split at hRest
      case isFalse => cases hRest
      case isTrue hThere =>
          obtain ⟨view, hWrite, hDone⟩ := Option.bind_eq_some_iff.1 hRest
          cases hDone
          exact h.commit hAt hThere hWrite
  | abort t =>
      obtain ⟨w, hAt, hRest⟩ := Option.bind_eq_some_iff.1 hStep
      cases hRest
      exact h.drop hAt
  | refresh step =>
      obtain ⟨view, hRefresh, hDone⟩ := Option.bind_eq_some_iff.1 hStep
      cases hDone
      have hRows := Views.refresh_rows hRefresh
      refine ⟨h.view.refresh hRefresh, ?_, ?_, ?_, h.beside⟩
      · rw [hRows]
        exact h.ids
      · rw [hRows]
        exact h.there
      · intro t w hAt
        rw [hRows]
        exact h.writers t w hAt

end Sites

/-! ## Every run -/

/-- Nothing is under way, and the counts are right or marked. -/
structure Initial (s : Site) : Prop where
  ids : (s.view.rows.implementations.map (·.id)).Nodup
  there : s.view.rows.actionsThere = true
  counts : ∀ action, s.view.rows.actions action = true →
    s.view.stored action = s.view.rows.live action ∨ action ∈ s.view.marks
  writers : s.writers = []
  refreshes : s.view.refreshes = []

theorem inv_initial {s : Site} (h : Initial s) : Inv s := by
  have hWriters : ∀ t, s.at_ t = none := by
    intro t
    rw [Site.at_, h.writers]
    rfl
  have hRefreshes : ∀ i, s.view.at_ i = none := by
    intro i
    rw [Views.State.at_, h.refreshes]
    rfl
  refine ⟨⟨?_, ?_, ?_⟩, h.ids, h.there, ?_, ?_⟩
  · intro action hPresent
    exact (h.counts action hPresent).imp_right .inl
  · intro i r hAt
    rw [hRefreshes i] at hAt
    cases hAt
  · intro i j r r' hAt
    rw [hRefreshes i] at hAt
    cases hAt
  · intro t w hAt
    rw [hWriters t] at hAt
    cases hAt
  · intro t t' w w' _ hAt
    rw [hWriters t] at hAt
    cases hAt

theorem inv_run {s₀ s : Site} (hInitial : Initial s₀) (hRun : site.Run Apart s₀ s) : Inv s :=
  hRun.invariant (inv_initial hInitial) fun _ _ _ hInv hApart hStep => inv_step hInv hApart hStep

/-- In every run in which no transaction changes an agent beside one that changes implementations
of it, whatever else runs beside: the count of an action is right, or it is marked, or a refresh
under way has taken its mark. -/
theorem live_counted {s₀ s : Site} (hInitial : Initial s₀) (hRun : site.Run Apart s₀ s)
    (action : Nat) (hPresent : s.view.rows.actions action = true) :
    s.view.stored action = s.view.rows.live action ∨ action ∈ s.view.marks ∨
      ∃ i r, s.view.at_ i = some r ∧ action ∈ r.claimed := by
  rcases (inv_run hInitial hRun).view.covered action hPresent with hRight | hMark | hHeld
  · exact .inl hRight
  · exact .inr (.inl hMark)
  · obtain ⟨i, r, -, hAt, hIn⟩ := hHeld
    exact .inr (.inr ⟨i, r, hAt, hIn⟩)

/-- One action, not implemented yet. -/
def fresh : Site where
  view :=
    { rows := { actions := fun action => action == 1 }
      stored := fun _ => 0
      marks := []
      refreshes := [] }

theorem fresh_initial : Initial fresh where
  ids := List.nodup_nil
  there := rfl
  counts _ _ := .inl rfl
  writers := rfl
  refreshes := rfl

/-- An agent connects, then implements the action, while a refresh is under way. -/
def connects : List Label :=
  [.begin, .agent 0 7 { connected := true }, .begin, .commit 0, .implementation 1 1 (some (1, 7)),
    .commit 1, .refresh (.claim [1] []), .refresh (.lock 0 [1]), .begin, .refresh (.compute 0),
    .agent 2 7 {}, .refresh (.putBack 0), .commit 2, .refresh (.finish 0)]

theorem connects_counted : ∃ s, site.Run Apart fresh s ∧
    s.view.stored 1 = 1 ∧ s.view.rows.live 1 = 0 ∧
    (s.view.stored 1 = s.view.rows.live 1 ∨ 1 ∈ s.view.marks ∨
      ∃ i r, s.view.at_ i = some r ∧ 1 ∈ r.claimed) := by
  obtain ⟨s, hRun, hCheck⟩ := System.run_of_play_any site Apart fresh connects
    (fun s => s.view.rows.actions 1 && s.view.stored 1 == 1 && s.view.rows.live 1 == 0)
    (by decide +kernel)
  simp only [Bool.and_eq_true, beq_iff_eq] at hCheck
  exact ⟨s, hRun, hCheck.1.2, hCheck.2, live_counted fresh_initial hRun 1 hCheck.1.1⟩

/-- Beside each other, an agent that connects misses a wrapper not committed yet, and the refresh
of the wrapper's mark the agent not committed yet. -/
def overlap : List Label :=
  [.begin, .begin, .implementation 0 1 (some (1, 7)), .agent 1 7 { connected := true },
    .commit 0, .refresh (.claim [1] []), .refresh (.lock 0 [1]), .refresh (.compute 0),
    .refresh (.putBack 0), .refresh (.finish 0), .commit 1]

theorem overlap_missed : ∃ s, site.Run System.anyStep fresh s ∧ s.view.rows.actions 1 = true ∧
    s.view.stored 1 = 0 ∧ s.view.rows.live 1 = 1 ∧ s.view.marks = [] ∧
    s.view.refreshes.all Option.isNone = true := by
  obtain ⟨s, hRun, hCheck⟩ := System.run_of_play_any site System.anyStep fresh overlap
    (fun s => s.view.rows.actions 1 && s.view.stored 1 == 0 && s.view.rows.live 1 == 1 &&
      s.view.marks.isEmpty && s.view.refreshes.all Option.isNone)
    (by decide +kernel)
  simp only [Bool.and_eq_true, beq_iff_eq, List.isEmpty_iff] at hCheck
  exact ⟨s, hRun, hCheck.1.1.1.1, hCheck.1.1.1.2, hCheck.1.1.2, hCheck.1.2, hCheck.2⟩

end Rekuest.Live
