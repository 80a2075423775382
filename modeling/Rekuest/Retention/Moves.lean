import Rekuest.Retention.Store

/-!
# What a step does

Each step of the database, with what it was let through for.
-/

namespace Rekuest.Retention

/-- The steps of the database, one by one. -/
inductive Moves (s : Store) : Act → Store → Prop
  | begin {x : Nat} (hWork : s.work x = .idle) : Moves s (.begin x) (s.set x (.call {}))
  | judge {x : Nat} {horizon : Int} {ephemeral : Bool} (hWork : s.work x = .idle) :
      Moves s (.judge x horizon ephemeral)
        (s.set x (.sweep { horizon, ephemeral, snapshot := s.tasks }))
  | rollback {x : Nat} :
      Moves s (.rollback x) ({ s with grants := s.grants.released x }.set x .idle)
  | read {x parent : Nat} {c : Call} {t : Task} (hWork : s.work x = .call c)
      (hMem : t ∈ c.rows ++ s.tasks) (hId : t.id = parent) :
      Moves s (.read x parent) (s.set x (.call { c with read := some (parent, t.root.getD parent) }))
  | insert {x : Nat} {ephemeral : Bool} {c : Call} (hWork : s.work x = .call c) :
      Moves s (.insert x ephemeral) ({ s with sequence := s.sequence + 1 }.set x
        (.call { c with rows := c.rows ++ [s.new_task c ephemeral] }))
  | lock {x task : Nat} {mode : Mode} {c : Call} (hWork : s.work x = .call c)
      (hFree : s.grants.free Mode.conflict x task mode = true) :
      Moves s (.lock x task mode) { s with grants := ⟨x, task, mode⟩ :: s.grants }
  | finish {x task : Nat} {time : Int} {c : Call} (hWork : s.work x = .call c)
      (hHeld : ⟨x, task, .no_key_update⟩ ∈ s.grants ∨ ⟨x, task, .for_update⟩ ∈ s.grants) :
      Moves s (.finish x task time)
        (s.set x (.call { c with finished := c.finished ++ [(task, time)] }))
  | written {x : Nat} {c : Call} (hWork : s.work x = .call c)
      (hKeys : ∀ t ∈ c.rows, s.keyed x c.rows t.parent = true ∧ s.keyed x c.rows t.root = true) :
      Moves s (.commit x) ({ s with
        tasks := Retention.finish c.finished s.tasks ++ c.rows
        grants := s.grants.released x }.set x .idle)
  | choose {x r : Nat} {p : Pass} (hWork : s.work x = .sweep p) (hOpen : p.doomed = none)
      (hHere : ∃ t ∈ s.tasks, t.id = r) (hOver : ∀ t ∈ s.tasks, t.id = r → p.over t = true)
      (hFree : s.grants.free Mode.conflict x r .for_update = true) :
      Moves s (.choose x r) ({ s with grants := ⟨x, r, .for_update⟩ :: s.grants }.set x
        (.sweep { p with chosen := p.chosen ++ [r] }))
  | walk {x : Nat} {p : Pass} (hWork : s.work x = .sweep p) (hOpen : p.doomed = none) :
      Moves s (.walk x) (s.set x (.sweep { p with doomed := some (doomed s.tasks p.chosen) }))
  | take {x task : Nat} {p : Pass} (hWork : s.work x = .sweep p)
      (hFree : s.grants.free Mode.conflict x task .for_update = true) :
      Moves s (.take x task) { s with grants := ⟨x, task, .for_update⟩ :: s.grants }
  | deleted {x : Nat} {p : Pass} {ids : List Nat} (hWork : s.work x = .sweep p)
      (hDoomed : p.doomed = some ids)
      (hHeld : ∀ t ∈ s.tasks, t.id ∈ ids → ⟨x, t.id, .for_update⟩ ∈ s.grants)
      (hKeys : ∀ t ∈ s.tasks, t.id ∉ ids → ∀ id ∈ ids, t.parent ≠ some id ∧ t.root ≠ some id) :
      Moves s (.commit x) ({ s with
        tasks := s.tasks.filter fun t => !ids.contains t.id
        grants := s.grants.released x }.set x .idle)

variable {s s' : Store}

theorem moves_of_called {x : Nat} {c : Call} {act : Act} (hTx : act.tx = x)
    (hWork : s.work x = .call c) (h : s.called x c act = some s') : Moves s act s' := by
  cases act with
  | read y parent =>
      obtain rfl : y = x := hTx
      obtain ⟨t, hFound, rfl⟩ := Option.map_eq_some_iff.1 h
      have hId := List.find?_some hFound
      exact .read hWork (List.mem_of_find?_eq_some hFound) (of_decide_eq_true hId)
  | insert y ephemeral =>
      obtain rfl : y = x := hTx
      cases h
      exact .insert hWork
  | lock y task mode =>
      obtain rfl : y = x := hTx
      unfold Store.called at h
      dsimp only at h
      by_cases hFree : s.grants.free Mode.conflict y task mode = true
      · rw [if_pos hFree] at h
        cases h
        exact .lock hWork hFree
      · rw [if_neg hFree] at h
        cases h
  | finish y task time =>
      obtain rfl : y = x := hTx
      unfold Store.called at h
      dsimp only at h
      by_cases hHeld : ⟨y, task, .no_key_update⟩ ∈ s.grants ∨ ⟨y, task, .for_update⟩ ∈ s.grants
      · rw [if_pos hHeld] at h
        cases h
        exact .finish hWork hHeld
      · rw [if_neg hHeld] at h
        cases h
  | commit y =>
      obtain rfl : y = x := hTx
      unfold Store.called at h
      dsimp only at h
      by_cases hKeys : (c.rows.all fun t => s.keyed y c.rows t.parent && s.keyed y c.rows t.root) = true
      · rw [if_pos hKeys] at h
        cases h
        exact .written hWork fun t hMem => Bool.and_eq_true_iff.1 (List.all_eq_true.1 hKeys t hMem)
      · rw [if_neg hKeys] at h
        cases h
  | begin _ | judge _ _ _ | choose _ _ | walk _ | take _ _ | rollback _ => cases h

theorem moves_of_swept {x : Nat} {p : Pass} {act : Act} (hTx : act.tx = x)
    (hWork : s.work x = .sweep p) (h : s.swept x p act = some s') : Moves s act s' := by
  cases act with
  | choose y r =>
      obtain rfl : y = x := hTx
      unfold Store.swept at h
      dsimp only at h
      split at h
      case isTrue hAll =>
          cases h
          exact .choose hWork hAll.1 hAll.2.2.2.1 hAll.2.2.2.2.1 hAll.2.2.2.2.2
      case isFalse => cases h
  | walk y =>
      obtain rfl : y = x := hTx
      unfold Store.swept at h
      dsimp only at h
      split at h
      case isTrue hAll =>
          cases h
          exact .walk hWork hAll.1
      case isFalse => cases h
  | take y task =>
      obtain rfl : y = x := hTx
      unfold Store.swept at h
      dsimp only at h
      split at h
      case isTrue hAll =>
          cases h
          exact .take hWork hAll.2
      case isFalse => cases h
  | commit y =>
      obtain rfl : y = x := hTx
      unfold Store.swept at h
      dsimp only at h
      cases hDoomed : p.doomed with
      | none =>
          rw [hDoomed] at h
          cases h
      | some ids =>
          rw [hDoomed] at h
          dsimp only at h
          split at h
          case isTrue hAll =>
              cases h
              exact .deleted hWork hDoomed hAll.1 hAll.2
          case isFalse => cases h
  | begin _ | judge _ _ _ | read _ _ | insert _ _ | lock _ _ _ | finish _ _ _ | rollback _ => cases h

/-- A step is one of them. -/
theorem moves_of_next {act : Act} (h : database.next s act = some s') : Moves s act s' := by
  cases hWork : s.work act.tx with
  | idle =>
      have hOpened : s.opened act.tx act = some s' := by
        unfold database at h
        dsimp only at h
        rw [hWork] at h
        exact h
      cases act with
      | begin x =>
          cases hOpened
          exact .begin hWork
      | judge x horizon ephemeral =>
          cases hOpened
          exact .judge hWork
      | read _ _ | insert _ _ | lock _ _ _ | finish _ _ _ | choose _ _ | walk _ | take _ _ | commit _
      | rollback _ => cases hOpened
  | call c =>
      by_cases hBack : ∃ x, act = .rollback x
      · obtain ⟨x, rfl⟩ := hBack
        unfold database at h
        dsimp only at h
        rw [hWork] at h
        cases h
        exact .rollback
      · apply moves_of_called rfl hWork
        unfold database at h
        dsimp only at h
        rw [hWork] at h
        cases act with
        | rollback x => exact absurd ⟨x, rfl⟩ hBack
        | _ => exact h
  | sweep p =>
      by_cases hBack : ∃ x, act = .rollback x
      · obtain ⟨x, rfl⟩ := hBack
        unfold database at h
        dsimp only at h
        rw [hWork] at h
        cases h
        exact .rollback
      · apply moves_of_swept rfl hWork
        unfold database at h
        dsimp only at h
        rw [hWork] at h
        cases act with
        | rollback x => exact absurd ⟨x, rfl⟩ hBack
        | _ => exact h

end Rekuest.Retention
