import Mathlib.Logic.Relation
import Rekuest.Task.Holds

/-!
# The task tree

A task's parent and root are columns that no transition changes; every tree
grows by new rows only, so a parent is older than its child.  A higher-order
wrapper and the lower child that runs it are inserted together.
-/

namespace Rekuest

/-- The columns of a row that nothing ever changes. -/
structure Task.SameIdentity (t t' : Task) : Prop where
  agent : t'.agent = t.agent
  caller : t'.caller = t.caller
  implementation : t'.implementation = t.implementation
  parent : t'.parent = t.parent
  root : t'.root = t.root
  isHigherOrderChild : t'.isHigherOrderChild = t.isHigherOrderChild
  schedule : t'.schedule = t.schedule

theorem Task.SameIdentity.refl (t : Task) : t.SameIdentity t :=
  ⟨rfl, rfl, rfl, rfl, rfl, rfl, rfl⟩

theorem Task.SameIdentity.trans {t u v : Task} (h : t.SameIdentity u)
    (h' : u.SameIdentity v) : t.SameIdentity v where
  agent := h'.agent.trans h.agent
  caller := h'.caller.trans h.caller
  implementation := h'.implementation.trans h.implementation
  parent := h'.parent.trans h.parent
  root := h'.root.trans h.root
  isHigherOrderChild := h'.isHigherOrderChild.trans h.isHigherOrderChild
  schedule := h'.schedule.trans h.schedule

namespace Db

/-- `lower` is the child that runs the wrapper. -/
def IsLower (db : Db) (lower wrapper : Nat) : Prop :=
  ∃ row, db.task? lower = some row ∧ row.isHigherOrderChild = true ∧
    row.parent = some wrapper

/-- The child of a task, as the tree has it. -/
def IsChild (db : Db) (parent child : Nat) : Prop :=
  ∃ row, db.task? child = some row ∧ row.parent = some parent

/-- The well-formed trees. -/
structure Tree (db : Db) : Prop where
  rootless : ∀ {x row}, db.task? x = some row → row.parent = none → row.root = none
  parent : ∀ {x row p}, db.task? x = some row → row.parent = some p →
    p < x ∧ ∃ prow, db.task? p = some prow ∧ row.root = some (prow.root.getD p)
  lower : ∀ {x row}, db.task? x = some row → row.isHigherOrderChild = true →
    row.schedule = none ∧ ∃ w wrow, x = w + 1 ∧ row.parent = some w ∧
      db.task? w = some wrow ∧ wrow.isHigherOrderChild = false ∧
      wrow.schedule = none ∧ db.isHigherOrder wrow = true

variable {db : Db} {x w : Nat}

theorem Tree.parent_lt {row : Task} {p : Nat} (h : db.Tree) (hRow : db.task? x = some row)
    (hParent : row.parent = some p) : p < x :=
  (h.parent hRow hParent).1

/-- The root of a tree has no root of its own. -/
theorem Tree.root_of_root (h : db.Tree) : ∀ {x : Nat} {row : Task} {r : Nat},
    db.task? x = some row → row.root = some r →
    ∃ rrow, db.task? r = some rrow ∧ rrow.root = none := by
  intro x
  induction x using Nat.strongRecOn with
  | ind x ih =>
      intro row r hRow hRoot
      cases hParent : row.parent with
      | none => simp [h.rootless hRow hParent] at hRoot
      | some p =>
          obtain ⟨hLt, prow, hProw, hEq⟩ := h.parent hRow hParent
          rw [hEq, Option.some.injEq] at hRoot
          cases hPRoot : prow.root with
          | none =>
              rw [hPRoot, Option.getD_none] at hRoot
              exact ⟨prow, hRoot ▸ hProw, hPRoot⟩
          | some q =>
              rw [hPRoot, Option.getD_some] at hRoot
              exact ih p hLt hProw (hRoot ▸ hPRoot)

theorem IsLower.lt (h : db.Tree) (hLower : db.IsLower x w) : w < x :=
  have ⟨_, hRow, _, hParent⟩ := hLower
  h.parent_lt hRow hParent

theorem IsLower.eq_succ (h : db.Tree) (hLower : db.IsLower x w) : x = w + 1 := by
  obtain ⟨row, hRow, hFlag, hParent⟩ := hLower
  obtain ⟨-, v, -, hEq, hParent', -⟩ := h.lower hRow hFlag
  rw [hParent, Option.some.injEq] at hParent'
  rw [hParent', hEq]

/-- A wrapper is not itself the lower child of another. -/
theorem IsLower.wrapper_not_lower {v : Nat} (h : db.Tree) (hLower : db.IsLower x w) :
    ¬ db.IsLower w v := by
  rintro ⟨wrow, hWrow, hFlag, -⟩
  obtain ⟨row, hRow, hFlag', hParent⟩ := hLower
  obtain ⟨-, w', wrow', -, hParent', hWrow', hUnflagged, -⟩ := h.lower hRow hFlag'
  rw [hParent, Option.some.injEq] at hParent'
  subst hParent'
  rw [hWrow, Option.some.injEq] at hWrow'
  subst hWrow'
  rw [hFlag] at hUnflagged
  cases hUnflagged

/-! ## The lower child that is looked up -/

theorem lowerOf_isLower {l : Nat} (h : lowerOf db w = some l) : db.IsLower l w := by
  obtain ⟨hLt, hP, -⟩ := List.findIdx?_eq_some_iff_getElem.mp h
  simp only [Bool.and_eq_true, beq_iff_eq] at hP
  exact ⟨db.tasks[l], List.getElem?_eq_getElem hLt, hP.2, hP.1⟩

theorem IsLower.wrapper_unique {v : Nat} (h : db.IsLower x w) (h' : db.IsLower x v) :
    w = v := by
  obtain ⟨row, hRow, -, hParent⟩ := h
  obtain ⟨row', hRow', -, hParent'⟩ := h'
  rw [hRow, Option.some.injEq] at hRow'
  subst hRow'
  rw [hParent, Option.some.injEq] at hParent'
  exact hParent'

theorem lowerOf_eq (hTree : db.Tree) (hLower : db.IsLower x w) :
    lowerOf db w = some x := by
  cases hOf : lowerOf db w with
  | some l => rw [(lowerOf_isLower hOf).eq_succ hTree, hLower.eq_succ hTree]
  | none =>
      obtain ⟨row, hRow, hFlag, hParent⟩ := hLower
      have hNone := List.findIdx?_eq_none_iff.mp hOf row (List.mem_of_getElem? hRow)
      simp [hFlag, hParent] at hNone

theorem runnerOf_isLower (h : runnerOf db w ≠ w) : db.IsLower (runnerOf db w) w := by
  cases hOf : lowerOf db w with
  | none => simp [runnerOf, hOf] at h
  | some l => simpa [runnerOf, hOf] using lowerOf_isLower hOf

theorem IsLower.runnerOf_eq (hTree : db.Tree) (h : db.IsLower x w) :
    runnerOf db w = x := by
  simp [runnerOf, lowerOf_eq hTree h]

theorem IsLower.runnerOf_self (hTree : db.Tree) (h : db.IsLower x w) :
    runnerOf db x = x := by
  rcases Classical.em (runnerOf db x = x) with hEq | hNe
  · exact hEq
  · exact absurd h ((runnerOf_isLower hNe).wrapper_not_lower hTree)

/-! ## What keeps the lookups -/

/-- Two databases with the same rows up to what may change of them. -/
structure SameTree (db db' : Db) : Prop where
  length : db'.tasks.length = db.tasks.length
  row : ∀ {x row}, db.task? x = some row →
    ∃ row', db'.task? x = some row' ∧ row.SameIdentity row'

theorem SameTree.refl (db : Db) : db.SameTree db :=
  ⟨rfl, fun h => ⟨_, h, .refl _⟩⟩

theorem SameTree.trans {db db' db'' : Db} (h : db.SameTree db')
    (h' : db'.SameTree db'') : db.SameTree db'' where
  length := h'.length.trans h.length
  row := fun hRow =>
    have ⟨_, hRow', hSame⟩ := h.row hRow
    have ⟨_, hRow'', hSame'⟩ := h'.row hRow'
    ⟨_, hRow'', hSame.trans hSame'⟩

theorem sameTree_modifyTask {i : Nat} {f : Task → Task}
    (h : ∀ t : Task, t.SameIdentity (f t)) : db.SameTree (db.modifyTask i f) where
  length := by simp
  row := by
    intro x row hRow
    rw [task?_modifyTask, hRow]
    split
    case isTrue => exact ⟨f row, rfl, h row⟩
    case isFalse => exact ⟨row, rfl, .refl row⟩

theorem sameTree_insertEvent {i : Nat} {kind : TaskEventKind} {event : NewEvent} :
    db.SameTree (db.insertEvent i kind event) :=
  ⟨rfl, fun h => ⟨_, h, .refl _⟩⟩

theorem SameTree.row_back {db' : Db} (h : db.SameTree db') {row' : Task}
    (hRow : db'.task? x = some row') :
    ∃ row, db.task? x = some row ∧ row.SameIdentity row' := by
  have hLt : x < db.tasks.length := h.length ▸ task?_lt hRow
  obtain ⟨row'', hRow'', hSame⟩ := h.row (List.getElem?_eq_getElem hLt)
  rw [hRow, Option.some.injEq] at hRow''
  exact ⟨_, List.getElem?_eq_getElem hLt, hRow'' ▸ hSame⟩

theorem SameTree.tree {db' : Db} (h : db.SameTree db')
    (hImplementations : db'.implementations = db.implementations) (hTree : db.Tree) :
    db'.Tree where
  rootless := by
    intro x row' hRow' hParent
    obtain ⟨row, hRow, hSame⟩ := h.row_back hRow'
    rw [hSame.root]
    exact hTree.rootless hRow (hSame.parent.symm.trans hParent)
  parent := by
    intro x row' p hRow' hParent
    obtain ⟨row, hRow, hSame⟩ := h.row_back hRow'
    obtain ⟨hLt, prow, hProw, hRoot⟩ := hTree.parent hRow (hSame.parent.symm.trans hParent)
    obtain ⟨prow', hProw', hPSame⟩ := h.row hProw
    exact ⟨hLt, prow', hProw', by rw [hSame.root, hRoot, hPSame.root]⟩
  lower := by
    intro x row' hRow' hFlag
    obtain ⟨row, hRow, hSame⟩ := h.row_back hRow'
    obtain ⟨hSchedule, w, wrow, hx, hParent, hWrow, hPlain, hWSchedule, hHigher⟩ :=
      hTree.lower hRow (hSame.isHigherOrderChild.symm.trans hFlag)
    obtain ⟨wrow', hWrow', hWSame⟩ := h.row hWrow
    refine ⟨hSame.schedule.trans hSchedule, w, wrow', hx, hSame.parent.trans hParent,
      hWrow', hWSame.isHigherOrderChild.trans hPlain, hWSame.schedule.trans hWSchedule, ?_⟩
    simpa [Db.isHigherOrder, Db.implementation?, hWSame.implementation,
      hImplementations] using hHigher

theorem SameTree.lowerOf {db' : Db} (h : db.SameTree db') :
    lowerOf db' w = lowerOf db w := by
  have hMap : db'.tasks.map (fun t => t.parent == some w && t.isHigherOrderChild) =
      db.tasks.map (fun t => t.parent == some w && t.isHigherOrderChild) := by
    refine List.ext_getElem? fun i => ?_
    rw [List.getElem?_map, List.getElem?_map]
    cases hRow : db.tasks[i]? with
    | none =>
        have hNone : db'.tasks[i]? = none := by
          rw [List.getElem?_eq_none_iff, h.length]
          exact List.getElem?_eq_none_iff.mp hRow
        rw [hNone]
    | some row =>
        obtain ⟨row', hRow', hSame⟩ := h.row hRow
        rw [show db'.tasks[i]? = some row' from hRow']
        simp [hSame.parent, hSame.isHigherOrderChild]
  have hFind (tasks : List Task) :
      (tasks.findIdx? fun t => t.parent == some w && t.isHigherOrderChild) =
        (tasks.map fun t => t.parent == some w && t.isHigherOrderChild).findIdx? id := by
    rw [List.findIdx?_map, Function.id_comp]
  simp only [Rekuest.lowerOf, hFind, hMap]

theorem SameTree.runnerOf {db' : Db} (h : db.SameTree db') :
    runnerOf db' w = runnerOf db w := by
  simp [Rekuest.runnerOf, h.lowerOf]

/-! ## Subtrees -/

/-- `x` is in the subtree of `t`. -/
def Descends (db : Db) : Nat → Nat → Prop := Relation.ReflTransGen db.IsChild

variable {t : Nat}

theorem Descends.parent (h : db.Descends t x) (hNe : x ≠ t) :
    ∃ p row, db.Descends t p ∧ db.task? x = some row ∧ row.parent = some p := by
  cases h using Relation.ReflTransGen.casesOn with
  | refl => exact absurd rfl hNe
  | tail hParent hChild =>
      obtain ⟨row, hRow, hEq⟩ := hChild
      exact ⟨_, row, hParent, hRow, hEq⟩

theorem Descends.lower (h : db.Descends t w) (hLower : db.IsLower x w) : db.Descends t x :=
  have ⟨row, hRow, _, hParent⟩ := hLower
  Relation.ReflTransGen.tail h ⟨row, hRow, hParent⟩

/-- A task is in the subtree of its root. -/
theorem Tree.descends_of_root (h : db.Tree) : ∀ {x : Nat} {row : Task},
    db.task? x = some row → row.root = some t → db.Descends t x := by
  intro x
  induction x using Nat.strongRecOn with
  | ind x ih =>
      intro row hRow hRoot
      cases hParent : row.parent with
      | none => simp [h.rootless hRow hParent] at hRoot
      | some p =>
          obtain ⟨hLt, prow, hProw, hEq⟩ := h.parent hRow hParent
          rw [hEq, Option.some.injEq] at hRoot
          cases hPRoot : prow.root with
          | none =>
              rw [hPRoot, Option.getD_none] at hRoot
              exact Relation.ReflTransGen.single ⟨row, hRow, hRoot ▸ hParent⟩
          | some q =>
              rw [hPRoot, Option.getD_some] at hRoot
              exact (ih p hLt hProw (hRoot ▸ hPRoot)).tail ⟨row, hRow, hParent⟩

/-- Whatever is in the subtree of a root has that root. -/
theorem Tree.root_of_descends (h : db.Tree) {trow : Task} (hTask : db.task? t = some trow)
    (hRoot : trow.root = none) (hDesc : db.Descends t x) :
    x = t ∨ ∃ row, db.task? x = some row ∧ row.root = some t := by
  induction hDesc with
  | refl => exact .inl rfl
  | tail _ hChild ih =>
      obtain ⟨row, hRow, hParent⟩ := hChild
      obtain ⟨-, prow, hProw, hEq⟩ := h.parent hRow hParent
      refine .inr ⟨row, hRow, ?_⟩
      rcases ih with rfl | ⟨prow', hProw', hPRoot⟩
      · rw [hTask, Option.some.injEq] at hProw
        rw [hEq, ← hProw, hRoot, Option.getD_none]
      · rw [hProw, Option.some.injEq] at hProw'
        rw [hEq, hProw', hPRoot, Option.getD_some]

end Db

end Rekuest
