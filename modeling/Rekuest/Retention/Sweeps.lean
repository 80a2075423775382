import Rekuest.Retention.Passes

/-!
# Retention takes only what is over

In every run of passes, assigns and reports, whatever their order, a pass deletes only tasks that
are done, of roots that finished before its horizon, as long as no pass locks a root whose tree
got a child that is not done since the snapshot it was judged in.  Where one does, the child is
deleted as it runs.
-/

namespace Rekuest.Retention

open Concurrent (Grant Grants System)

variable {s s' : Store} {x y : Nat} {act : Act}

/-- What is locked is over still: no child of the tree was committed since it was judged that is
not done. -/
def StillOver (s : Store) : Act → Prop
  | .choose _ r => ∀ t ∈ s.tasks, t.root = some r → t.is_done = true
  | _ => True

instance (s : Store) (act : Act) : Decidable (StillOver s act) :=
  match act with
  | .choose _ r => inferInstanceAs (Decidable (∀ t ∈ s.tasks, t.root = some r → t.is_done = true))
  | .begin _ | .read _ _ | .insert _ _ | .lock _ _ _ | .finish _ _ _ | .judge _ _ _ | .walk _
  | .take _ _ | .commit _ | .rollback _ => isTrue trivial

structure Sound (s : Store) : Prop where
  tables : Tables s
  locks : Locks s
  passes : ∀ x p, s.work x = .sweep p → PassInv s x p

/-! ## The rows after a transaction -/

/-- What is committed keeps the tables. -/
theorem Tables.written (h : Tables s) {c : Call} (hWork : s.work x = .call c)
    (hKeys : ∀ t ∈ c.rows, s.keyed x c.rows t.parent = true ∧ s.keyed x c.rows t.root = true) :
    Tables ({ s with
      tasks := finish c.finished s.tasks ++ c.rows
      grants := s.grants.released x }.set x .idle) := by
  -- A row after it, where it was before, and what it was.
  have hBefore : ∀ l t, At ({ s with
      tasks := finish c.finished s.tasks ++ c.rows
      grants := s.grants.released x }.set x .idle) l t →
      l ≠ some x ∧ ∃ l' t', At s l' t' ∧ t'.id = t.id ∧ t'.parent = t.parent ∧ t'.root = t.root ∧
        (l' = l ∨ l' = some x ∧ l = none) := by
    intro l t hAt
    cases l with
    | none =>
        refine ⟨nofun, ?_⟩
        cases List.mem_append.1 hAt with
        | inl hOld =>
            obtain ⟨t', hMem', hId, hParent, hRoot, -, -⟩ := mem_finish hOld
            exact ⟨none, t', hMem', hId.symm, hParent.symm, hRoot.symm, .inl rfl⟩
        | inr hIn => exact ⟨some x, t, ⟨c, hWork, hIn⟩, rfl, rfl, rfl, .inr ⟨rfl, rfl⟩⟩
    | some z =>
        obtain ⟨c', hIs, hIn⟩ := hAt
        by_cases hSelf : z = x
        · rw [hSelf] at hIs
          cases (set_work_self _ x _).symm.trans hIs
        · rw [set_work_ne _ _ hSelf] at hIs
          refine ⟨fun hNot => hSelf (Option.some.inj hNot), some z, t, ⟨c', hIs, hIn⟩, ?_⟩
          exact ⟨rfl, rfl, rfl, .inl rfl⟩
  have hTraced : Traced s ({ s with
      tasks := finish c.finished s.tasks ++ c.rows
      grants := s.grants.released x }.set x .idle) := by
    refine ⟨Nat.le_refl _, fun l t hAt => ?_⟩
    obtain ⟨-, l', t', hAt', hId, hParent, hRoot, -⟩ := hBefore l t hAt
    exact .inl ⟨l', t', hAt', hId, hParent, hRoot⟩
  constructor
  · intro l l' t t' hAt hAt' hId
    obtain ⟨hNot, m, u, hu, hIdu, -, hRootu, hWhere⟩ := hBefore l t hAt
    obtain ⟨hNot', m', u', hu', hIdu', -, hRootu', hWhere'⟩ := hBefore l' t' hAt'
    obtain ⟨rfl, hRoot⟩ := h.distinct m m' u u' hu hu' (hIdu.trans (hId.trans hIdu'.symm))
    refine ⟨?_, hRootu.symm.trans (hRoot.trans hRootu')⟩
    rcases hWhere with rfl | ⟨rfl, rfl⟩
    · rcases hWhere' with rfl | ⟨rfl, -⟩
      · rfl
      · exact absurd rfl hNot
    · rcases hWhere' with rfl | ⟨-, rfl⟩
      · exact absurd rfl hNot'
      · rfl
  · intro l t hAt
    obtain ⟨-, l', t', hAt', hId, -⟩ := hBefore l t hAt
    rw [← hId]
    exact h.drawn l' t' hAt'
  · intro l t hAt p hParent
    obtain ⟨-, l', t', hAt', -, hParent', hRoot', -⟩ := hBefore l t hAt
    obtain ⟨q, hRoot, hKnown⟩ := h.linked l' t' hAt' p (hParent'.trans hParent)
    exact ⟨q, hRoot'.symm.trans hRoot, hKnown.on hTraced⟩
  · intro l t hAt hParent
    obtain ⟨-, l', t', hAt', -, hParent', hRoot', -⟩ := hBefore l t hAt
    exact hRoot'.symm.trans (h.parentless l' t' hAt' (hParent'.trans hParent))
  · intro t hMem id hKey
    have hHere : ∀ id, (∃ t ∈ s.tasks, t.id = id) →
        ∃ t ∈ finish c.finished s.tasks ++ c.rows, t.id = id := by
      intro id hIs
      obtain ⟨t', hMem', hId⟩ := finish_here hIs
      exact ⟨t', List.mem_append_left _ hMem', hId⟩
    cases List.mem_append.1 hMem with
    | inl hOld =>
        obtain ⟨t', hMem', -, hParent, hRoot, -, -⟩ := mem_finish hOld
        rw [hParent, hRoot] at hKey
        exact hHere id (h.present t' hMem' id hKey)
    | inr hIn =>
        have hKeyed : s.keyed x c.rows (some id) = true := by
          rcases hKey with hParent | hRoot
          · rw [← hParent]
            exact (hKeys t hIn).1
          · rw [← hRoot]
            exact (hKeys t hIn).2
        unfold Store.keyed at hKeyed
        rw [Option.all_some, Bool.or_eq_true, Bool.and_eq_true_iff] at hKeyed
        rcases hKeyed with hOwn | ⟨hCommitted, -⟩
        · obtain ⟨t', hMem', hId⟩ := List.any_eq_true.1 hOwn
          exact ⟨t', List.mem_append_right _ hMem', of_decide_eq_true hId⟩
        · obtain ⟨t', hMem', hId⟩ := List.any_eq_true.1 hCommitted
          exact hHere id ⟨t', hMem', of_decide_eq_true hId⟩
  · intro y c' p q hIs hRead
    by_cases hSelf : y = x
    · rw [hSelf] at hIs
      cases (set_work_self _ x _).symm.trans hIs
    · rw [set_work_ne _ _ hSelf] at hIs
      exact (h.read y c' p q hIs hRead).on hTraced

/-- So does what is deleted, as nothing that is left points at it. -/
theorem Tables.deleted (h : Tables s) {ids : List Nat}
    (hKeys : ∀ t ∈ s.tasks, t.id ∉ ids → ∀ id ∈ ids, t.parent ≠ some id ∧ t.root ≠ some id) :
    Tables ({ s with
      tasks := s.tasks.filter fun t => !ids.contains t.id
      grants := s.grants.released x }.set x .idle) := by
  have hAt : ∀ l t, At ({ s with
      tasks := s.tasks.filter fun t => !ids.contains t.id
      grants := s.grants.released x }.set x .idle) l t → At s l t := by
    intro l t hIs
    cases l with
    | none => exact (List.mem_filter.1 hIs).1
    | some z =>
        obtain ⟨c', hWork, hIn⟩ := hIs
        by_cases hSelf : z = x
        · rw [hSelf] at hWork
          cases (set_work_self _ x _).symm.trans hWork
        · rw [set_work_ne _ _ hSelf] at hWork
          exact ⟨c', hWork, hIn⟩
  have hTraced : Traced s ({ s with
      tasks := s.tasks.filter fun t => !ids.contains t.id
      grants := s.grants.released x }.set x .idle) :=
    ⟨Nat.le_refl _, fun l t hIs => .inl ⟨l, t, hAt l t hIs, rfl, rfl, rfl⟩⟩
  constructor
  · intro l l' t t' hIs hIs'
    exact h.distinct l l' t t' (hAt l t hIs) (hAt l' t' hIs')
  · intro l t hIs
    exact h.drawn l t (hAt l t hIs)
  · intro l t hIs p hParent
    obtain ⟨q, hRoot, hKnown⟩ := h.linked l t (hAt l t hIs) p hParent
    exact ⟨q, hRoot, hKnown.on hTraced⟩
  · intro l t hIs
    exact h.parentless l t (hAt l t hIs)
  · intro t hMem id hKey
    obtain ⟨hIn, hLeft⟩ := List.mem_filter.1 hMem
    rw [Bool.not_eq_true', List.contains_eq_mem] at hLeft
    obtain ⟨t', hMem', hId⟩ := h.present t hIn id hKey
    refine ⟨t', List.mem_filter.2 ⟨hMem', ?_⟩, hId⟩
    rw [Bool.not_eq_true', List.contains_eq_mem]
    apply decide_eq_false
    intro hGone
    rw [hId] at hGone
    obtain ⟨hParent, hRoot⟩ := hKeys t hIn (of_decide_eq_false hLeft) id hGone
    rcases hKey with hIs | hIs
    · exact hParent hIs
    · exact hRoot hIs
  · intro y c' p q hIs hRead
    by_cases hSelf : y = x
    · rw [hSelf] at hIs
      cases (set_work_self _ x _).symm.trans hIs
    · rw [set_work_ne _ _ hSelf] at hIs
      exact (h.read y c' p q hIs hRead).on hTraced

theorem Tables.next (h : Tables s) (hMoves : Moves s act s') : Tables s' := by
  cases hMoves with
  | begin hWork =>
      apply h.set
      · intro c hIs t hMem
        cases hIs
        cases hMem
      · intro c p q hIs hRead
        cases hIs
        cases hRead
  | judge hWork =>
      apply h.set
      · intro c hIs
        cases hIs
      · intro c p q hIs
        cases hIs
  | rollback =>
      apply (h.grants _).set
      · intro c hIs
        cases hIs
      · intro c p q hIs
        cases hIs
  | read hWork hMem hId =>
      rw [← hId]
      exact h.read_row hWork hMem
  | insert hWork => exact h.insert_row hWork
  | lock hWork hFree => exact h.grants _
  | finish hWork hHeld =>
      apply h.set
      · intro c hIs t hMem
        cases hIs
        exact ⟨_, hWork, hMem⟩
      · intro c p q hIs hRead
        cases hIs
        exact h.read _ _ p q hWork hRead
  | written hWork hKeys => exact h.written hWork hKeys
  | choose hWork hOpen hHere hOver hFree =>
      apply (h.grants _).set
      · intro c hIs
        cases hIs
      · intro c p q hIs
        cases hIs
  | walk hWork hOpen =>
      apply h.set
      · intro c hIs
        cases hIs
      · intro c p q hIs
        cases hIs
  | take hWork hFree => exact h.grants _
  | deleted hWork hDoomed hHeld hKeys => exact h.deleted hKeys

/-! ## The passes after a step -/

theorem at_of_set {w : Work} {grants : Grants Nat Mode}
    (hRows : ∀ c, w = .call c → ∀ t ∈ c.rows, At s (some x) t) {l : Option Nat} {t : Task}
    (h : At (({ s with grants } : Store).set x w) l t) : At s l t := by
  cases l with
  | none => exact h
  | some y =>
      obtain ⟨c, hWork, hMem⟩ := h
      by_cases hSelf : y = x
      · rw [hSelf, set_work_self] at hWork
        rw [hSelf]
        exact hRows c hWork t hMem
      · rw [set_work_ne _ _ hSelf] at hWork
        exact ⟨c, hWork, hMem⟩

/-- What the other passes know holds on. -/
theorem Sound.others (h : Sound s) (hMoves : Moves s act s') (hOther : y ≠ act.tx) {p : Pass}
    (hWork : s'.work y = .sweep p) : PassInv s' y p := by
  obtain ⟨hSame, hKept⟩ := hMoves.others hOther
  have hInv := h.passes y p (hSame.symm.trans hWork)
  cases hMoves with
  | begin hIs =>
      exact hInv.on rfl (Nat.le_refl _) hKept fun l t hAt => .inl (at_of_set (by
        intro c hCall t hMem
        cases hCall
        cases hMem) hAt)
  | judge hIs =>
      exact hInv.on rfl (Nat.le_refl _) hKept fun l t hAt => .inl (at_of_set (fun c hCall => by cases hCall) hAt)
  | rollback =>
      exact hInv.on rfl (Nat.le_refl _) hKept fun l t hAt => .inl (at_of_set (fun c hCall => by cases hCall) hAt)
  | read hIs hMem hId =>
      exact hInv.on rfl (Nat.le_refl _) hKept fun l t hAt => .inl (at_of_set (by
        intro c hCall t hMem'
        cases hCall
        exact ⟨_, hIs, hMem'⟩) hAt)
  | insert hIs =>
      refine hInv.on rfl (Nat.le_succ _) hKept fun l t hAt => ?_
      rcases at_insert hIs hAt with hOld | ⟨-, rfl⟩
      · exact .inl hOld
      · exact .inr (Nat.lt_succ_self _)
  | lock hIs hFree =>
      refine hInv.on rfl (Nat.le_refl _) hKept fun l t hAt => .inl ?_
      cases l with
      | none => exact hAt
      | some z => exact hAt
  | finish hIs hHeld =>
      exact hInv.on rfl (Nat.le_refl _) hKept fun l t hAt => .inl (at_of_set (by
        intro c hCall t hMem'
        cases hCall
        exact ⟨_, hIs, hMem'⟩) hAt)
  | written hIs hKeys => exact hInv.written h.tables h.locks hIs hOther hKeys
  | choose hIs hOpen hHere hOver hFree =>
      exact hInv.on rfl (Nat.le_refl _) hKept fun l t hAt => .inl (at_of_set (fun c hCall => by cases hCall) hAt)
  | walk hIs hOpen =>
      exact hInv.on rfl (Nat.le_refl _) hKept fun l t hAt => .inl (at_of_set (fun c hCall => by cases hCall) hAt)
  | take hIs hFree =>
      refine hInv.on rfl (Nat.le_refl _) hKept fun l t hAt => .inl ?_
      cases l with
      | none => exact hAt
      | some z => exact hAt
  | deleted hIs hDoomed hHeld hKeys => exact hInv.deleted h.locks hOther hHeld

/-- A pass that locks a root whose tree is over still. -/
theorem PassInv.choose {p : Pass} {r : Nat} (h : PassInv s x p) (hOpen : p.doomed = none)
    (hHere : ∃ t ∈ s.tasks, t.id = r) (hOver : ∀ t ∈ s.tasks, t.id = r → p.over t = true)
    (hTree : ∀ t ∈ s.tasks, t.root = some r → t.is_done = true) :
    PassInv ({ s with grants := ⟨x, r, .for_update⟩ :: s.grants }.set x
      (.sweep { p with chosen := p.chosen ++ [r] })) x { p with chosen := p.chosen ++ [r] } := by
  constructor
  · intro r' hr
    cases List.mem_append.1 hr with
    | inl hOld => exact List.mem_cons_of_mem _ (h.locked r' hOld)
    | inr hNew =>
        rw [List.mem_singleton.1 hNew]
        exact List.mem_cons_self
  · intro r' hr
    cases List.mem_append.1 hr with
    | inl hOld => exact h.here r' hOld
    | inr hNew =>
        rw [List.mem_singleton.1 hNew]
        exact hHere
  · intro r' hr
    cases List.mem_append.1 hr with
    | inl hOld => exact h.past r' hOld
    | inr hNew =>
        rw [List.mem_singleton.1 hNew]
        exact hOver
  · intro r' hr
    cases List.mem_append.1 hr with
    | inl hOld => exact h.tree r' hOld
    | inr hNew =>
        rw [List.mem_singleton.1 hNew]
        exact hTree
  · intro ids hIds
    rw [hOpen] at hIds
    cases hIds
  · intro ids hIds
    rw [hOpen] at hIds
    cases hIds

/-- A pass that walks down from its roots finds them and what names them. -/
theorem PassInv.walk {p : Pass} (h : PassInv s x p) (hTables : Tables s) :
    PassInv (s.set x (.sweep { p with doomed := some (doomed s.tasks p.chosen) })) x
      { p with doomed := some (doomed s.tasks p.chosen) } := by
  have hChosen : ∀ r ∈ p.chosen, ∃ t ∈ s.tasks, t.id = r ∧ t.root = none := by
    intro r hr
    obtain ⟨t, hMem, hId⟩ := h.here r hr
    have hOver := h.past r hr t hMem hId
    unfold Pass.over at hOver
    rw [Bool.and_eq_true, Bool.and_eq_true, Bool.and_eq_true] at hOver
    exact ⟨t, hMem, hId, Option.isNone_iff_eq_none.1 hOver.1.1.2⟩
  have hFound : ∀ i ∈ doomed s.tasks p.chosen, i ∈ p.chosen ∨
      ∃ t ∈ s.tasks, t.id = i ∧ ∃ r ∈ p.chosen, t.root = some r := fun i hi =>
    doomed_sound hTables.rooted hChosen hi
  constructor
  · exact h.locked
  · exact h.here
  · exact h.past
  · exact h.tree
  · intro ids hIds i hi
    cases hIds
    rcases hFound i hi with hTaken | ⟨t, hMem, rfl, -⟩
    · obtain ⟨t, hMem, hId⟩ := h.here i hTaken
      rw [← hId]
      exact hTables.drawn none t hMem
    · exact hTables.drawn none t hMem
  · intro ids hIds l t hAt hMem
    cases hIds
    have hBefore : At s l t := at_set (fun c hCall => by cases hCall) hAt
    rcases hFound t.id hMem with hTaken | ⟨t', hMem', hId, hRoot⟩
    · exact .inl hTaken
    · obtain ⟨-, hSame⟩ := hTables.distinct none l t' t hMem' hBefore hId
      rw [hSame] at hRoot
      exact .inr hRoot

theorem Sound.next (h : Sound s) (hStill : StillOver s act) (hMoves : Moves s act s') : Sound s' := by
  refine ⟨h.tables.next hMoves, h.locks.next hMoves, fun y p hWork => ?_⟩
  by_cases hSelf : y = act.tx
  · subst hSelf
    cases hMoves with
    | begin _ => cases (set_work_self s _ _).symm.trans hWork
    | judge _ =>
        cases (set_work_self s _ _).symm.trans hWork
        exact ⟨nofun, nofun, nofun, nofun, nofun, nofun⟩
    | rollback => cases (set_work_self _ _ _).symm.trans hWork
    | read _ _ _ => cases (set_work_self s _ _).symm.trans hWork
    | insert _ => cases (set_work_self _ _ _).symm.trans hWork
    | lock hIs _ => cases hIs.symm.trans hWork
    | finish _ _ => cases (set_work_self s _ _).symm.trans hWork
    | written _ _ => cases (set_work_self _ _ _).symm.trans hWork
    | choose hIs hOpen hHere hOver hFree =>
        cases (set_work_self _ _ _).symm.trans hWork
        exact (h.passes _ _ hIs).choose hOpen hHere hOver hStill
    | walk hIs hOpen =>
        cases (set_work_self s _ _).symm.trans hWork
        exact (h.passes _ _ hIs).walk h.tables
    | take hIs hFree =>
        refine (h.passes _ p hWork).on rfl (Nat.le_refl _)
          (fun g hg _ => List.mem_cons_of_mem _ hg) fun l t hAt => .inl ?_
        cases l with
        | none => exact hAt
        | some z => exact hAt
    | deleted _ _ _ _ => cases (set_work_self _ _ _).symm.trans hWork
  · exact h.others hMoves hSelf hWork

/-! ## What is deleted -/

/-- No task is there yet, and no session does anything. -/
theorem Sound.empty : Sound {} where
  tables := by
    have hNone : ∀ l t, ¬At ({} : Store) l t := by
      intro l t hAt
      cases l with
      | none => cases hAt
      | some x =>
          obtain ⟨c, hWork, -⟩ := hAt
          cases hWork
    constructor
    · intro l l' t t' hAt
      exact absurd hAt (hNone l t)
    · intro l t hAt
      exact absurd hAt (hNone l t)
    · intro l t hAt
      exact absurd hAt (hNone l t)
    · intro l t hAt
      exact absurd hAt (hNone l t)
    · intro t hMem
      cases hMem
    · intro x c p q hWork
      cases hWork
  locks := ⟨Grants.Compatible.nil, fun x c hWork => by cases hWork⟩
  passes := fun x p hWork => by cases hWork

/-- What a pass deletes is done, and its root finished before the horizon of the pass. -/
theorem Sound.deleted (h : Sound s) (hMoves : Moves s act s') {t : Task} (hMem : t ∈ s.tasks)
    (hGone : ∀ t' ∈ s'.tasks, t'.id ≠ t.id) :
    ∃ x p, act = .commit x ∧ s.work x = .sweep p ∧ t.is_done = true ∧
      ∃ r ∈ s.tasks, (r.id = t.id ∨ t.root = some r.id) ∧ r.is_done = true ∧
        ∃ time, r.finished_at = some time ∧ time < p.horizon := by
  cases hMoves with
  | written _ _ =>
      obtain ⟨t', hMem', hId⟩ := finish_here ⟨t, hMem, rfl⟩
      exact absurd hId (hGone t' (List.mem_append_left _ hMem'))
  | @deleted x p ids hWork hDoomed hHeld hKeys =>
      have hIn : t.id ∈ ids := by
        by_cases hIn : t.id ∈ ids
        · exact hIn
        · refine absurd rfl (hGone t (List.mem_filter.2 ⟨hMem, ?_⟩))
          rw [Bool.not_eq_true', List.contains_eq_mem]
          exact decide_eq_false hIn
      have hPass := h.passes x p hWork
      have hOver : ∀ r ∈ s.tasks, p.over r = true → r.is_done = true ∧
          ∃ time, r.finished_at = some time ∧ time < p.horizon := by
        intro r _ hIs
        unfold Pass.over at hIs
        rw [Bool.and_eq_true, Bool.and_eq_true, Bool.and_eq_true] at hIs
        obtain ⟨time, hTime, hBefore⟩ := (Option.any_eq_true _ _).1 hIs.1.2
        exact ⟨hIs.1.1.1, time, hTime, of_decide_eq_true hBefore⟩
      refine ⟨x, p, rfl, hWork, ?_⟩
      rcases hPass.found ids hDoomed none t hMem hIn with hTaken | ⟨r, hr, hRoot⟩
      · have hIs := hOver t hMem (hPass.past t.id hTaken t hMem rfl)
        exact ⟨hIs.1, t, hMem, .inl rfl, hIs⟩
      · obtain ⟨root, hMem', hId⟩ := hPass.here r hr
        refine ⟨hPass.tree r hr t hMem hRoot, root, hMem', .inr ?_, ?_⟩
        · rw [hId]
          exact hRoot
        · exact hOver root hMem' (hPass.past r hr root hMem' hId)
  | begin | judge | rollback | read | insert | lock | finish | choose | walk | take =>
      exact absurd rfl (hGone t hMem)

/-- A root that finished at five. -/
def ended : List Act :=
  [.begin 0, .insert 0 false, .commit 0, .begin 0, .lock 0 1 .no_key_update, .finish 0 1 5, .commit 0]

/-- A pass takes it, beside a task that is assigned and one that is refused. -/
def swept : List Act :=
  ended ++ [.begin 2, .insert 2 false, .judge 1 100 false, .commit 2, .choose 1 1, .begin 3, .read 3 1,
    .insert 3 false, .walk 1, .rollback 3, .take 1 1]

/-- A child of the root is committed after the pass judged its tree, and before it locks the root. -/
def raced : List Act :=
  ended ++ [.judge 1 100 false, .begin 2, .read 2 1, .insert 2 false, .commit 2, .choose 1 1, .walk 1,
    .take 1 1, .take 1 2]

end Rekuest.Retention
