import Rekuest.Revisions.Rows
import Rekuest.Tables.Keyed

/-!
# A blok is its head revision

Over every run of commits whose contents rows can hold, the row of a blok and its dependency
rows read back as the revision it points at: which is the content that was committed last.  The
revisions are numbered from one on, each made from the one before it.
-/

namespace Rekuest.Revisions

section

variable {J : Type} [DecidableEq J] {m : Models J} {env : Env m} {view : View m}

/-! ## One content -/

omit [DecidableEq J] in
/-- JSON that its column gives back as it is. -/
theorem map_jsonb {l : List J} (h : ∀ j ∈ l, env.jsonb j = j) : l.map env.jsonb = l := by
  conv => rhs; rw [← List.map_id l]
  exact List.map_congr_left h

/-- What a content is written to reads back as it. -/
theorem content_of_columns {c : BlokContent m} (hFaithful : Faithful env c) :
    content_of env (columns_of env view c) (some c.dependencies) = some c.written := by
  have hDemo : demo_of env (env.jsonb (c.stored_demo env)) = some c.demo := by
    unfold demo_of BlokContent.stored_demo
    cases hIs : c.demo with
    | none => exact if_pos ((env.jsonb_empty _).2 rfl)
    | some demo =>
        obtain ⟨hStates, hHeld⟩ := hFaithful.demo demo hIs
        dsimp only
        rw [if_neg fun h => hStates ((env.jsonb_empty _).1 h), show m.demo.load _ = _ from hHeld]
        rfl
  have hArgs := Codec.load_held hFaithful.args
  have hLocals := Codec.load_held hFaithful.locals
  have hQueries := Codec.load_held hFaithful.queries
  have hSubscriptions := Codec.load_held hFaithful.subscriptions
  have hComponents := map_jsonb hFaithful.components
  have hVocab := hFaithful.vocab
  unfold content_of columns_of BlokContent.stored_args BlokContent.stored_locals
    BlokContent.stored_queries BlokContent.stored_subscriptions BlokContent.written
  dsimp only
  rw [hArgs, hLocals, hDemo, hQueries, hSubscriptions, hComponents, hVocab]
  rfl

theorem content_of_revision_of {c : BlokContent m} (hFaithful : Faithful env c) (pk number : Nat)
    (parent : Option Nat) :
    content_of_revision env (revision_of env view c pk number parent) = some c.written := by
  have hDependencies := Codec.load_held hFaithful.dependencies
  unfold content_of_revision revision_of BlokContent.stored_dependencies
  dsimp only
  rw [hDependencies]
  exact content_of_columns hFaithful

/-! ## Numbers -/

omit [DecidableEq J] in
/-- The number after those from one on. -/
theorem next_number_range {revisions : List (BlokRevision J)} {n : Nat}
    (h : revisions.map (·.number) = List.range' 1 n) : next_number revisions = n + 1 := by
  unfold next_number
  rw [h]
  cases n with
  | zero => rfl
  | succ k =>
      have hMax : (List.range' 1 (k + 1)).max? = some (k + 1) := by
        rw [List.max?_eq_some_iff]
        constructor
        · exact List.mem_range'_1.2 ⟨by omega, by omega⟩
        · intro b hMem
          have := (List.mem_range'_1.1 hMem).2
          omega
      rw [hMax]
      rfl

/-! ## What holds after every step -/

/-- Contents that rows hold, which the hash tells apart. -/
structure Clean (env : Env m) (S : BlokContent m → Prop) : Prop where
  faithful : ∀ c, S c → Faithful env c
  told_apart : ∀ c c', S c → S c' → c.hash env = c'.hash env → c.parts env = c'.parts env
  written : ∀ c c', S c → c.written = c'.written → S c'

/-- A blok whose row is its head revision. -/
structure Lawful (env : Env m) (S : BlokContent m → Prop) (h : History J) : Prop where
  custom : h.blok.app = none
  keys : (h.dependencies.map (·.key)).Nodup
  numbers : h.revisions.map (·.number) = List.range' 1 h.revisions.length
  parents : h.revisions.map (·.parent) = (none :: h.revisions.map (some ·.pk)).dropLast
  head : h.blok.head = h.revisions.getLast?.map (·.pk)
  fresh : ∀ r ∈ h.revisions, r.pk ≤ h.sequence
  unique : Keyed.Unique (·.pk) h.revisions
  revisions : ∀ r ∈ h.revisions, ∃ c, S c ∧ content_of_revision env r = some c.written ∧
    r.content_hash = c.hash env
  projected : ∀ r, h.revisions.getLast? = some r → content_of_blok env h = content_of_revision env r

variable {S : BlokContent m → Prop} {h h' : History J}

theorem Lawful.start (hBare : Bare h) : Lawful env S h where
  custom := hBare.custom
  keys := hBare.keys
  numbers := by rw [hBare.revisions]; rfl
  parents := by rw [hBare.revisions]; rfl
  head := by rw [hBare.head, hBare.revisions]; rfl
  fresh := by
    rw [hBare.revisions]
    intro r hMem
    cases hMem
  unique := by
    rw [hBare.revisions]
    exact Keyed.Unique.nil
  revisions := by
    rw [hBare.revisions]
    intro r hMem
    cases hMem
  projected := by
    rw [hBare.revisions]
    intro r hLast
    cases hLast

/-- The head is the revision that was written last. -/
theorem Lawful.head_of (hLawful : Lawful env S h) : head_of h = h.revisions.getLast? := by
  unfold Revisions.head_of
  rw [hLawful.head]
  cases hLast : h.revisions.getLast? with
  | none => rfl
  | some r =>
      show h.revisions.find? (fun revision => revision.pk == r.pk) = some r
      exact hLawful.unique.find (List.mem_of_getLast? hLast) fun b => beq_iff_eq

/-- A content that the hash says the head holds is what it holds. -/
theorem Lawful.unchanged (hLawful : Lawful env S h) (hClean : Clean env S) {c : BlokContent m}
    (hS : S c) (hUnchanged : unchanged env h c = true) : content_of_blok env h = some c.written := by
  obtain ⟨r, hHead, hHash⟩ := (Option.any_eq_true _ _).1 hUnchanged
  rw [hLawful.head_of] at hHead
  obtain ⟨c', hS', hContent, hHash'⟩ := hLawful.revisions r (List.mem_of_getLast? hHead)
  have hSame : c'.hash env = c.hash env := hHash'.symm.trans (beq_iff_eq.1 hHash)
  have hWritten := written_of_parts (hClean.faithful c' hS') (hClean.faithful c hS)
    (hClean.told_apart c' c hS' hS hSame)
  rw [hLawful.projected r hHead, hContent, hWritten]

theorem Lawful.refreshed (hLawful : Lawful env S h) (c : BlokContent m) (findings : J) :
    Lawful env S (refreshed env view h c findings) where
  custom := hLawful.custom
  keys := hLawful.keys
  numbers := hLawful.numbers
  parents := hLawful.parents
  head := hLawful.head
  fresh := hLawful.fresh
  unique := hLawful.unique
  revisions := hLawful.revisions
  projected := hLawful.projected

/-- What was written is what the blok reads as. -/
theorem content_appended (hKeys : (h.dependencies.map (·.key)).Nodup) {c : BlokContent m}
    (hFaithful : Faithful env c) (findings : J) :
    content_of_blok env (appended env view h c findings) = some c.written := by
  show content_of env (columns_of env view c)
    ((order_by_key env (sync_blok_dependencies env h.dependencies c.dependencies)).mapM
      dependency_input_of) = _
  rw [order_sync hKeys hFaithful.sorted, dependencies_of_rows hFaithful.rows]
  exact content_of_columns hFaithful

theorem Lawful.appended (hLawful : Lawful env S h) (hClean : Clean env S) {c : BlokContent m}
    (hS : S c) (findings : J) : Lawful env S (appended env view h c findings) := by
  have hFaithful := hClean.faithful c hS
  have hNumber := next_number_range hLawful.numbers
  have hNew : ∀ r ∈ h.revisions, r.pk ≠ h.sequence + 1 := by
    intro r hMem hEq
    have := hLawful.fresh r hMem
    omega
  generalize hIs : revision_of env view c (h.sequence + 1) (next_number h.revisions) h.blok.head = last
  have hLast : (Revisions.appended env view h c findings).revisions = h.revisions ++ [last] := by
    rw [← hIs]
    rfl
  constructor
  · exact hLawful.custom
  · exact nodup_sync c.dependencies hLawful.keys
  · rw [hLast, List.map_append, hLawful.numbers, List.length_append, List.length_singleton,
      List.range'_concat, List.map_singleton]
    rw [← hIs]
    show _ ++ [next_number h.revisions] = _
    rw [hNumber, Nat.one_mul, Nat.add_comm 1]
  · rw [hLast, List.map_append, List.map_append, List.map_singleton, List.map_singleton, ← List.cons_append,
      List.dropLast_concat, hLawful.parents]
    rw [← hIs]
    show _ ++ [h.blok.head] = _
    rw [hLawful.head]
    rcases List.eq_nil_or_concat h.revisions with hNil | ⟨before, r, hRevisions⟩
    · rw [hNil]
      rfl
    · rw [hRevisions, List.concat_eq_append, List.getLast?_concat, List.map_append, List.map_singleton, ← List.cons_append,
        List.dropLast_concat]
      rfl
  · rw [hLast, List.getLast?_concat, ← hIs]
    rfl
  · rw [hLast]
    intro r hMem
    show r.pk ≤ h.sequence + 1
    cases List.mem_append.1 hMem with
    | inl hOld =>
        have := hLawful.fresh r hOld
        omega
    | inr hNow =>
        rw [List.mem_singleton.1 hNow, ← hIs]
        exact Nat.le_refl _
  · rw [hLast]
    apply hLawful.unique.insert
    rw [← hIs]
    exact hNew
  · rw [hLast]
    intro r hMem
    cases List.mem_append.1 hMem with
    | inl hOld => exact hLawful.revisions r hOld
    | inr hNow =>
        rw [List.mem_singleton.1 hNow, ← hIs]
        exact ⟨c, hS, content_of_revision_of hFaithful _ _ _, rfl⟩
  · rw [hLast]
    intro r hNow
    rw [List.getLast?_concat] at hNow
    rw [content_appended hLawful.keys hFaithful, ← Option.some.inj hNow, ← hIs,
      content_of_revision_of hFaithful]

/-! ## One commit -/

/-- What a commit that is not refused did. -/
theorem commit_cases {c : BlokContent m} {base : Option Nat} {guarded : Bool}
    (hCommit : commit_revision env view h c base guarded = .ok h') :
    ∃ findings, Revisions.unchanged env h (c.resolved view) = true ∧
        h' = Revisions.refreshed env view h (c.resolved view) findings ∨
      Revisions.unchanged env h (c.resolved view) = false ∧
        h' = Revisions.appended env view h (c.resolved view) findings := by
  unfold commit_revision at hCommit
  by_cases hProvided : h.blok.app.isSome = true
  · rw [if_pos hProvided] at hCommit
    cases hCommit
  · rw [if_neg hProvided] at hCommit
    by_cases hStale : (guarded && base != h.blok.head) = true
    · rw [if_pos hStale] at hCommit
      cases hCommit
    · rw [if_neg hStale] at hCommit
      dsimp only at hCommit
      cases hFindings : view.diagnostics (c.resolved view) with
      | error why =>
          rw [hFindings] at hCommit
          cases hCommit
      | ok findings =>
          rw [hFindings] at hCommit
          dsimp only at hCommit
          refine ⟨findings, ?_⟩
          by_cases hUnchanged : Revisions.unchanged env h (c.resolved view) = true
          · rw [if_pos hUnchanged] at hCommit
            exact .inl ⟨hUnchanged, (Except.ok.inj hCommit).symm⟩
          · rw [if_neg hUnchanged] at hCommit
            exact .inr ⟨eq_false_of_ne_true hUnchanged, (Except.ok.inj hCommit).symm⟩

/-- A commit is stale when it is guarded and its base is not the head, and only then. -/
theorem stale_iff (hCustom : h.blok.app = none) {c : BlokContent m} {base : Option Nat}
    {guarded : Bool} :
    commit_revision env view h c base guarded = .error (.stale base h.blok.head) ↔
      guarded = true ∧ base ≠ h.blok.head := by
  unfold commit_revision
  rw [hCustom, if_neg (show ¬(none : Option Nat).isSome = true by decide)]
  constructor
  · intro hRefused
    by_cases hStale : (guarded && base != h.blok.head) = true
    · have hBoth := Bool.and_eq_true_iff.1 hStale
      exact ⟨hBoth.1, bne_iff_ne.1 hBoth.2⟩
    · rw [if_neg hStale] at hRefused
      dsimp only at hRefused
      cases hFindings : view.diagnostics (c.resolved view) with
      | error why =>
          rw [hFindings] at hRefused
          cases hRefused
      | ok findings =>
          rw [hFindings] at hRefused
          dsimp only at hRefused
          split at hRefused
          · cases hRefused
          · cases hRefused
  · rintro ⟨hGuarded, hBase⟩
    exact if_pos (Bool.and_eq_true_iff.2 ⟨hGuarded, bne_iff_ne.2 hBase⟩)

/-- A commit of a clean content keeps the law, and the content is what the blok then reads as. -/
theorem Lawful.commit (hLawful : Lawful env S h) (hClean : Clean env S) {c : BlokContent m}
    (hS : S c) {base : Option Nat} {guarded : Bool}
    (hCommit : commit_revision env view h c base guarded = .ok h') :
    Lawful env S h' ∧ content_of_blok env h' = some c.written ∧ ∃ r, Revisions.head_of h' = some r := by
  have hResolved : S (c.resolved view) := hClean.written c (c.resolved view) hS rfl
  obtain ⟨findings, ⟨hUnchanged, rfl⟩ | ⟨-, rfl⟩⟩ := commit_cases hCommit
  · have hRead := hLawful.unchanged hClean hResolved hUnchanged
    obtain ⟨r, hHead, -⟩ := (Option.any_eq_true _ _).1 hUnchanged
    exact ⟨hLawful.refreshed _ findings, hRead, r, hHead⟩
  · have hRead : content_of_blok env (Revisions.appended env view h (c.resolved view) findings) =
        some (c.resolved view).written :=
      content_appended hLawful.keys (hClean.faithful (c.resolved view) hResolved) findings
    have hLawful' : Lawful env S (Revisions.appended env view h (c.resolved view) findings) :=
      hLawful.appended hClean hResolved findings
    refine ⟨hLawful', hRead, ?_⟩
    rw [hLawful'.head_of]
    exact ⟨_, List.getLast?_concat⟩

/-- A step keeps the law, whatever it is. -/
theorem Lawful.step (hLawful : Lawful env S h) (hClean : Clean env S) (op : Op m)
    (hS : ∀ c, op.content = some c → S c) : Lawful env S (Revisions.step env h op) := by
  cases op with
  | commit view c base guarded =>
      unfold Revisions.step
      dsimp only
      cases hCommit : commit_revision env view h c base guarded with
      | error why => exact hLawful
      | ok h' => exact (hLawful.commit hClean (hS c rfl) hCommit).1
  | elsewhere =>
      constructor
      · exact hLawful.custom
      · exact hLawful.keys
      · exact hLawful.numbers
      · exact hLawful.parents
      · exact hLawful.head
      · intro r hMem
        have := hLawful.fresh r hMem
        show r.pk ≤ h.sequence + 1
        omega
      · exact hLawful.unique
      · exact hLawful.revisions
      · exact hLawful.projected

/-- So does a run. -/
theorem Lawful.run (hClean : Clean env S) : ∀ (ops : List (Op m)) {h : History J},
    Lawful env S h → (∀ op ∈ ops, ∀ c, op.content = some c → S c) →
    Lawful env S (Revisions.run env h ops) := by
  intro ops
  induction ops with
  | nil =>
      intro h hLawful _
      exact hLawful
  | cons op rest ih =>
      intro h hLawful hS
      apply ih (hLawful.step hClean op (hS op List.mem_cons_self))
      intro op' hMem
      exact hS op' (List.mem_cons_of_mem op hMem)

/-! ## The blok and its head -/

/-- What a blok is, at any point of its history. -/
structure IsHead (env : Env m) (h : History J) : Prop where
  /-- Revision numbers grow by one. -/
  numbers : h.revisions.map (·.number) = List.range' 1 h.revisions.length
  /-- Each revision is made from the one before it. -/
  parents : h.revisions.map (·.parent) = (none :: h.revisions.map (some ·.pk)).dropLast
  head : head_of h = h.revisions.getLast?
  /-- The blok reads as its head. -/
  projected : ∀ r, head_of h = some r → ∃ c, content_of_blok env h = some c ∧
    content_of_revision env r = some c ∧ r.content_hash = c.hash env
  /-- Committing what was read commits nothing. -/
  reread : ∀ view r c base guarded h', head_of h = some r → content_of_blok env h = some c →
    commit_revision env view h c base guarded = .ok h' →
      h'.revisions = h.revisions ∧ h'.blok.head = h.blok.head ∧ content_of_blok env h' = some c
  /-- Every revision can be gone back to. -/
  reverted : ∀ r ∈ h.revisions, ∃ c, content_of_revision env r = some c ∧
    ∀ view base guarded h', commit_revision env view h c base guarded = .ok h' →
      content_of_blok env h' = some c

theorem Lawful.isHead (hLawful : Lawful env S h) (hClean : Clean env S) : IsHead env h := by
  constructor
  · exact hLawful.numbers
  · exact hLawful.parents
  · exact hLawful.head_of
  · intro r hHead
    rw [hLawful.head_of] at hHead
    obtain ⟨c, -, hContent, hHash⟩ := hLawful.revisions r (List.mem_of_getLast? hHead)
    refine ⟨c.written, ?_, hContent, hHash⟩
    rw [hLawful.projected r hHead, hContent]
  · intro view r c base guarded h' hHead hRead hCommit
    have hLast := hHead
    rw [hLawful.head_of] at hLast
    obtain ⟨c', -, hContent, hHash⟩ := hLawful.revisions r (List.mem_of_getLast? hLast)
    rw [hLawful.projected r hLast, hContent] at hRead
    have hIs : c'.written = c := Option.some.inj hRead
    have hUnchanged : Revisions.unchanged env h (c.resolved view) = true := by
      unfold Revisions.unchanged
      rw [hHead, ← hIs]
      exact beq_iff_eq.2 hHash
    obtain ⟨findings, ⟨-, rfl⟩ | ⟨hChanged, -⟩⟩ := commit_cases hCommit
    · refine ⟨rfl, rfl, ?_⟩
      show content_of_blok env h = some c
      rw [hLawful.projected r hLast, hContent, hIs]
    · rw [hUnchanged] at hChanged
      cases hChanged
  · intro r hMem
    obtain ⟨c, hS, hContent, -⟩ := hLawful.revisions r hMem
    refine ⟨c.written, hContent, ?_⟩
    intro view base guarded h' hCommit
    have hWritten : S c.written := hClean.written c c.written hS rfl
    exact (hLawful.commit hClean hWritten hCommit).2.1

end

end Rekuest.Revisions
