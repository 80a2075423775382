import Mathlib.Data.List.Dedup
import Rekuest.Revisions.Commit

/-!
# The rows of the dependencies

Upserting the dependencies that a content declares, and deleting the others, leaves the rows of
what is declared and no others, whatever rows there were: read in the order of their keys, they
are the dependencies of the content, where these are in that order.
-/

namespace Rekuest.Revisions

section

variable {J : Type} {m : Models J} {env : Env m}

/-! ## One row -/

/-- The rows after one is written: it, and the rows of other keys. -/
theorem mem_update_or_create {rows : List (DependencyRow J)} {row r : DependencyRow J} :
    r ∈ update_or_create rows row ↔ r = row ∨ r ∈ rows ∧ r.key ≠ row.key := by
  unfold update_or_create
  by_cases hAny : rows.any (fun r => r.key = row.key) = true
  · rw [if_pos hAny, List.mem_map]
    constructor
    · rintro ⟨r', hMem, rfl⟩
      by_cases hKey : r'.key = row.key
      · rw [if_pos hKey]
        exact .inl rfl
      · rw [if_neg hKey]
        exact .inr ⟨hMem, hKey⟩
    · rintro (rfl | ⟨hMem, hKey⟩)
      · obtain ⟨r', hMem, hKey⟩ := List.any_eq_true.1 hAny
        exact ⟨r', hMem, if_pos (of_decide_eq_true hKey)⟩
      · exact ⟨r, hMem, if_neg hKey⟩
  · rw [if_neg hAny, List.mem_append, List.mem_singleton]
    constructor
    · rintro (hMem | rfl)
      · refine .inr ⟨hMem, fun hKey => hAny ?_⟩
        exact List.any_eq_true.2 ⟨r, hMem, decide_eq_true hKey⟩
      · exact .inl rfl
    · rintro (rfl | ⟨hMem, -⟩)
      · exact .inr rfl
      · exact .inl hMem

/-- A key has one row still. -/
theorem nodup_update_or_create {rows : List (DependencyRow J)} (row : DependencyRow J)
    (h : (rows.map (·.key)).Nodup) : ((update_or_create rows row).map (·.key)).Nodup := by
  unfold update_or_create
  by_cases hAny : rows.any (fun r => r.key = row.key) = true
  · rw [if_pos hAny, List.map_map]
    have hKeys : ((fun r : DependencyRow J => r.key) ∘ fun r => if r.key = row.key then row else r) =
        fun r => r.key := by
      funext r
      show (if r.key = row.key then row else r).key = r.key
      by_cases hKey : r.key = row.key
      · rw [if_pos hKey, hKey]
      · rw [if_neg hKey]
    rw [hKeys]
    exact h
  · rw [if_neg hAny, List.map_append]
    apply List.Nodup.append h (List.nodup_singleton _)
    intro key hMem hRow
    obtain ⟨r, hr, rfl⟩ := List.mem_map.1 hMem
    apply hAny
    apply List.any_eq_true.2
    exact ⟨r, hr, decide_eq_true (List.mem_singleton.1 hRow)⟩

/-! ## All that are declared -/

/-- The rows after every declared dependency is upserted. -/
theorem mem_upserted {dependencies : List (AgentDependency m)} {r : DependencyRow J}
    (hNodup : (dependencies.map (·.key)).Nodup) : ∀ {rows : List (DependencyRow J)},
    r ∈ dependencies.foldl (fun rows declared => update_or_create rows (row_of env declared)) rows ↔
      (∃ d ∈ dependencies, r = row_of env d) ∨
        r ∈ rows ∧ r.key ∉ dependencies.map (·.key) := by
  induction dependencies with
  | nil =>
      intro rows
      simp
  | cons d rest ih =>
      intro rows
      rw [List.map_cons, List.nodup_cons] at hNodup
      rw [List.foldl_cons, ih hNodup.2, mem_update_or_create, List.map_cons]
      constructor
      · rintro (⟨d', hMem, rfl⟩ | ⟨rfl | ⟨hMem, hKey⟩, hOut⟩)
        · exact .inl ⟨d', List.mem_cons_of_mem d hMem, rfl⟩
        · exact .inl ⟨d, List.mem_cons_self, rfl⟩
        · refine .inr ⟨hMem, fun hIn => ?_⟩
          cases List.mem_cons.1 hIn with
          | inl hFirst => exact hKey hFirst
          | inr hLater => exact hOut hLater
      · rintro (⟨d', hMem, rfl⟩ | ⟨hMem, hOut⟩)
        · cases List.mem_cons.1 hMem with
          | inl hFirst =>
              rw [hFirst]
              exact .inr ⟨.inl rfl, hNodup.1⟩
          | inr hLater => exact .inl ⟨d', hLater, rfl⟩
        · refine .inr ⟨.inr ⟨hMem, fun hKey => ?_⟩, fun hIn => ?_⟩
          · exact hOut (List.mem_cons.2 (.inl hKey))
          · exact hOut (List.mem_cons.2 (.inr hIn))

theorem nodup_upserted (dependencies : List (AgentDependency m)) :
    ∀ {rows : List (DependencyRow J)}, (rows.map (·.key)).Nodup →
      ((dependencies.foldl (fun rows declared => update_or_create rows (row_of env declared)) rows).map
        (·.key)).Nodup := by
  induction dependencies with
  | nil =>
      intro rows h
      exact h
  | cons d rest ih =>
      intro rows h
      exact ih (nodup_update_or_create (row_of env d) h)

/-- The rows of a synced blok are those of what is declared. -/
theorem mem_sync {dependencies : List (AgentDependency m)} {rows : List (DependencyRow J)}
    {r : DependencyRow J} (hNodup : (dependencies.map (·.key)).Nodup) :
    r ∈ sync_blok_dependencies env rows dependencies ↔ ∃ d ∈ dependencies, r = row_of env d := by
  unfold sync_blok_dependencies
  rw [List.mem_filter, mem_upserted hNodup]
  constructor
  · rintro ⟨hDeclared | ⟨hMem, hOut⟩, hStale⟩
    · exact hDeclared
    · have hIn : r.key ∈ (rows.map (·.key)).filter
          fun key => !(dependencies.map (·.key)).contains key := by
        apply List.mem_filter.2
        refine ⟨List.mem_map_of_mem hMem, ?_⟩
        rw [Bool.not_eq_true', List.contains_eq_mem]
        exact decide_eq_false hOut
      rw [Bool.not_eq_true', List.contains_eq_mem] at hStale
      exact absurd hIn (of_decide_eq_false hStale)
  · rintro ⟨d, hMem, rfl⟩
    refine ⟨.inl ⟨d, hMem, rfl⟩, ?_⟩
    rw [Bool.not_eq_true', List.contains_eq_mem]
    apply decide_eq_false
    intro hStale
    have hOut := (List.mem_filter.1 hStale).2
    rw [Bool.not_eq_true', List.contains_eq_mem] at hOut
    exact of_decide_eq_false hOut (List.mem_map_of_mem hMem)

theorem nodup_sync {rows : List (DependencyRow J)} (dependencies : List (AgentDependency m))
    (h : (rows.map (·.key)).Nodup) :
    ((sync_blok_dependencies env rows dependencies).map (·.key)).Nodup := by
  have hSub := (List.filter_sublist (l := dependencies.foldl
    (fun rows declared => update_or_create rows (row_of env declared)) rows)
    (p := fun row => !((rows.map (·.key)).filter
      fun key => !(dependencies.map (·.key)).contains key).contains row.key)).map
    fun row : DependencyRow J => row.key
  exact hSub.nodup (nodup_upserted dependencies h)

/-- In the order of their keys, the rows are those of the dependencies as they are declared. -/
theorem order_sync {dependencies : List (AgentDependency m)} {rows : List (DependencyRow J)}
    (hKeys : (rows.map (·.key)).Nodup)
    (hSorted : (dependencies.map (·.key)).Pairwise fun a b => env.collation.le a b = true ∧ a ≠ b) :
    order_by_key env (sync_blok_dependencies env rows dependencies) = dependencies.map (row_of env) := by
  have hNodup : (dependencies.map (·.key)).Nodup := hSorted.imp fun h => h.2
  have hRows : (dependencies.map (row_of env)).Nodup := by
    apply List.Nodup.of_map (fun row : DependencyRow J => row.key)
    rw [List.map_map]
    exact hNodup
  have hPerm : (sync_blok_dependencies env rows dependencies).Perm
      (dependencies.map (row_of env)) := by
    apply (List.perm_ext_iff_of_nodup (List.Nodup.of_map _ (nodup_sync dependencies hKeys)) hRows).2
    intro r
    rw [mem_sync hNodup, List.mem_map]
    constructor
    · rintro ⟨d, hMem, rfl⟩
      exact ⟨d, hMem, rfl⟩
    · rintro ⟨d, hMem, rfl⟩
      exact ⟨d, hMem, rfl⟩
  have hLess : (dependencies.map (row_of env)).Pairwise
      fun a b => env.collation.le a.key b.key = true := by
    rw [List.pairwise_map] at hSorted ⊢
    exact hSorted.imp fun h => h.1
  have hTotal : Std.Total fun a b : DependencyRow J => env.collation.le a.key b.key = true :=
    ⟨fun a b => Bool.or_eq_true_iff.1 (env.collation.total a.key b.key)⟩
  have hTrans : IsTrans (DependencyRow J) fun a b => env.collation.le a.key b.key = true :=
    ⟨fun a b c => env.collation.trans a.key b.key c.key⟩
  have hOrdered := List.pairwise_insertionSort
    (fun a b : DependencyRow J => env.collation.le a.key b.key = true)
    (sync_blok_dependencies env rows dependencies)
  refine List.Perm.eq_of_pairwise ?_ hOrdered hLess ((List.perm_insertionSort _ _).trans hPerm)
  -- Two rows of one key are one row, as what is declared has one of each.
  intro a b ha hb hab hba
  have hKey : a.key = b.key := env.collation.antisymm a.key b.key hab hba
  have haRow := (hPerm.mem_iff).1 ((List.perm_insertionSort _ _).mem_iff.1 ha)
  apply List.inj_on_of_nodup_map (f := fun row : DependencyRow J => row.key) _ haRow hb hKey
  rw [List.map_map]
  exact hNodup

/-! ## Reading them -/

/-- A dependency that its row holds is read back. -/
theorem dependency_input_of_row {d : AgentDependency m} (h : RowHolds env d) :
    dependency_input_of (row_of env d) = some d := by
  obtain ⟨hName, hExclusive, hPrefered, ⟨actions, hActions, hActionsHeld⟩,
    states, hStates, hStatesHeld⟩ := h
  obtain ⟨key, app, version, name, description, optional, action_dependencies, state_dependencies,
    auto_resolvable, mutually_exclusive_keys, min_viable, max_viable, prefered⟩ := d
  dsimp only at hName hExclusive hPrefered hActions hStates
  subst hName hExclusive hPrefered hActions hStates
  unfold dependency_input_of row_of
  dsimp only [Option.getD_some]
  rw [Codec.load_held hActionsHeld, Codec.load_held hStatesHeld]
  rfl

theorem dependencies_of_rows {dependencies : List (AgentDependency m)}
    (h : ∀ d ∈ dependencies, RowHolds env d) :
    (dependencies.map (row_of env)).mapM dependency_input_of = some dependencies := by
  induction dependencies with
  | nil => rfl
  | cons d rest ih =>
      have hRest := ih fun d' hMem => h d' (List.mem_cons_of_mem d hMem)
      rw [List.map_cons, List.mapM_cons, dependency_input_of_row (h d List.mem_cons_self), hRest]
      rfl

end

end Rekuest.Revisions
