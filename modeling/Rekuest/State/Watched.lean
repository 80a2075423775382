import Rekuest.State.Store

/-!
# What a guard's answer says about the values

The value of a state at a moment is its last snapshot of the session with the
patches since applied to it, as `facade/logic.py` materializes it; a patch that
does not apply is skipped there.  A guard answers "unchanged" by the paths and
the stored revisions of the patches alone.  Which patches this overlooks, and
that it overlooks no others, is the subject.
-/

namespace Rekuest.States

open Concurrent Documents
open Backend (BackendResult)

/-- The edit a patch is.  A `test` changes nothing, and `move` and `copy` lack
their source. -/
def PatchRow.edit (p : PatchRow) : Option (Edit (List Char) Scalar) :=
  match p.op with
  | "add" => some (.add p.value)
  | "replace" => some (.replace p.value)
  | "remove" => some .remove
  | _ => none

/-- The document after a patch. -/
def PatchRow.applyTo (p : PatchRow) (d : Json) : Json :=
  let applied := p.edit.bind fun e =>
    (parsePointer p.path.toList).bind fun path => e.apply tokenIndexing path d
  applied.getD d

/-- The value at a pointer. -/
def valueAtPointer (pointer : List Char) (d : Json) : Option Json :=
  (parsePointer pointer).bind fun path => d.valueAt tokenIndexing path

/-- The document of a state in a session, as a row moves it. -/
def onDocument (store : Store) (state : Nat) (session : Option Nat) (d : Option Json) :
    Entry → Option Json
  | .snapshot row =>
      if row.state = state ∧ store.inSession row.session session then some row.value else d
  | .patch row =>
      if row.state = state ∧ store.inSession row.session session then d.map row.applyTo else d

/-- The document after some rows. -/
def documentAfter (store : Store) (state : Nat) (session : Option Nat) (rows : List Entry) :
    Option Json :=
  rows.foldl (onDocument store state session) none

/-- The patch was recorded of the state in the session, when it was `d`. -/
def MetBy (store : Store) (state : Nat) (session : Option Nat) (d : Json) (p : PatchRow) : Prop :=
  ∃ earlier later, store.log = earlier ++ .patch p :: later ∧ p.state = state ∧
    store.inSession p.session session = true ∧
    documentAfter store state session earlier = some d

/-- The patch was made by the workflow or a task it caused. -/
def ByCallTree (db : Db) (root : Nat) (p : PatchRow) : Prop :=
  ∃ task, p.task = some task ∧ db.Descends root task

/-- What a guard watches: its pointers, or all of the state. -/
def watchedPointers (paths : List String) : List (List Char) :=
  if paths.isEmpty then [[]] else paths.map watchedPointer

/-- The patch leaves the value at a pointer as it was. -/
def Leaves (p : PatchRow) (d : Json) (pointer : List Char) : Prop :=
  valueAtPointer pointer (p.applyTo d) = valueAtPointer pointer d

/-- The patch is at a path strictly above the pointer. -/
def Above (p : PatchRow) (pointer : List Char) : Prop :=
  ∃ path watched, parsePointer p.path.toList = some path ∧
    parsePointer pointer = some watched ∧ path <+: watched ∧ path ≠ watched

/-- The patch adds to an array or removes from one that holds the watched value
under another index. -/
def ShiftsItems (p : PatchRow) (d : Json) (pointer : List Char) : Prop :=
  ∃ e path watched, p.edit = some e ∧ parsePointer p.path.toList = some path ∧
    parsePointer pointer = some watched ∧ e.Displaces tokenIndexing path watched d

/-- A patch a guard does not see, though it is after the revision. -/
def Overlooked (since : Int) (p : PatchRow) (d : Json) (pointer : List Char) : Prop :=
  globalRev p.rev ≤ since ∨ Above p pointer ∨ ShiftsItems p d pointer

/-- Every patch after the revision that others made leaves the watched values,
if it is of the kind `K`. -/
def OthersLeave (db : Db) (store : Store) (root state : Nat) (session : Option Nat)
    (since : Int) (paths : List String) (K : PatchRow → Json → List Char → Prop) : Prop :=
  ∀ d p, MetBy store state session d p → since < p.rev → ¬ ByCallTree db root p →
    ∀ pointer ∈ watchedPointers paths, K p d pointer → Leaves p d pointer

/-! ## A patch neither above nor below a pointer -/

theorem watches_of_below {pointer text : List Char} {watched path : List (List Char)}
    (hPointer : parsePointer pointer = some watched) (hText : parsePointer text = some path)
    (h : watched <+: path) : watches pointer text = true := by
  rw [watches, Bool.or_eq_true]
  rcases text_of_below hPointer hText h with hEq | hBelow
  · left
    rw [hEq]
    exact beq_self_eq_true pointer
  · right
    exact List.isPrefixOf_iff_prefix.mpr hBelow

theorem leaves_of_elsewhere {p : PatchRow} {d : Json} {pointer : List Char}
    (hUnseen : watches pointer p.path.toList = false) (hAbove : ¬ Above p pointer)
    (hShift : ¬ ShiftsItems p d pointer) : Leaves p d pointer := by
  unfold Leaves
  cases hPointer : parsePointer pointer with
  | none => simp [valueAtPointer, hPointer]
  | some watched =>
      cases hApplied : (p.edit.bind fun e => (parsePointer p.path.toList).bind fun path =>
          e.apply tokenIndexing path d) with
      | none => simp only [PatchRow.applyTo, hApplied, Option.getD_none]
      | some d' =>
          simp only [PatchRow.applyTo, hApplied, Option.getD_some]
          obtain ⟨e, hEdit, hRest⟩ := Option.bind_eq_some_iff.mp hApplied
          obtain ⟨path, hPath, hApply⟩ := Option.bind_eq_some_iff.mp hRest
          have hBelow : ¬ watched <+: path := by
            intro hPre
            rw [watches_of_below hPointer hPath hPre] at hUnseen
            cases hUnseen
          have hNotAbove : ¬ path <+: watched := by
            intro hPre
            by_cases hEq : path = watched
            · exact hBelow (hEq ▸ List.prefix_rfl)
            · exact hAbove ⟨path, watched, hPath, hPointer, hPre, hEq⟩
          have hStill : ¬ e.Displaces tokenIndexing path watched d :=
            fun h => hShift ⟨e, path, watched, hEdit, hPath, hPointer, h⟩
          simp only [valueAtPointer, hPointer, Option.bind_some]
          exact Edit.valueAt_apply hApply hNotAbove hBelow hStill

/-! ## What "unchanged" was answered from -/

theorem not_change_of_firstChange {store : Store} {state : Nat} {session : Option Nat}
    {since : Int} {tree : List Nat} {pointers : List (List Char)}
    (h : firstChange store state session since tree pointers = none) {p : PatchRow}
    (hMem : p ∈ store.patches) (hState : p.state = state)
    (hSession : store.inSession p.session session = true) (hLater : since < globalRev p.rev)
    (hOther : p.task.any (tree.contains ·) = false) :
    pointers ≠ [] ∧ ∀ pointer ∈ pointers, watches pointer p.path.toList = false := by
  have hNone := List.head?_eq_none_iff.mp h
  have hEmpty := List.length_eq_zero_iff.mpr hNone
  rw [List.length_mergeSort] at hEmpty
  have hFilter := List.filter_eq_nil_iff.mp (List.length_eq_zero_iff.mp hEmpty) p hMem
  simp only [hState, hSession, hLater, hOther, beq_self_eq_true, decide_true, Bool.not_false,
    Bool.and_true, Bool.true_and, Bool.or_eq_true, List.isEmpty_iff, List.any_eq_true, not_or,
    not_exists, not_and, Bool.not_eq_true] at hFilter
  exact hFilter

theorem mem_patches_of_metBy {store : Store} {state : Nat} {session : Option Nat} {d : Json}
    {p : PatchRow} (h : MetBy store state session d p) : p ∈ store.patches := by
  obtain ⟨earlier, later, hLog, -, -, -⟩ := h
  rw [Store.patches, List.mem_filterMap]
  exact ⟨.patch p, by simp [hLog], rfl⟩

section

variable {settings : Settings} {c₀ c : ServerConfig} {resolved : Resolved} {store : Store}
variable {agent : Nat} {parent dependency state : String} {since : Since} {paths : List String}
variable {root : Int} {row : Task} {stateId : Nat} {session : Option Nat} {answer : Revision}

theorem firstChange_of_unchanged (hParent : Backend.parseId parent = .ok root)
    (hRow : taskRow c.state root = some row)
    (hGuard : guardedState c.state resolved store root.toNat row.implementation dependency state =
      .ok (stateId, session))
    (hAnswer : stateRevision c.state resolved store agent parent dependency state (some since)
      paths = .ok answer)
    (hUnchanged : answer.changed = some false) :
    firstChange store stateId session (since.globalRev.getD 0) (callTree c.state root.toNat)
      (paths.map watchedPointer) = none := by
  simp only [stateRevision, hParent, bind, Except.bind, hRow] at hAnswer
  split at hAnswer
  case isTrue => cases hAnswer
  case isFalse =>
    simp only [hGuard] at hAnswer
    split at hAnswer
    case isTrue =>
      cases hAnswer
      cases hUnchanged
    case isFalse =>
      split at hAnswer
      case h_1 hNone => exact hNone
      case h_2 =>
        cases hAnswer
        cases hUnchanged

/-- **An "unchanged" is true of the values exactly when no overlooked patch moved
them**: one strictly above a watched pointer, one that shifts the items of an
array around it, or one whose stored revision is not above the guard's. -/
theorem unchanged_iff_overlooked_leave
    {C : ServerConfig → Choice Env Request → Prop} (hInit : Initial c₀)
    (hRun : (server settings).Run C c₀ c) (hParent : Backend.parseId parent = .ok root)
    (hRow : taskRow c.state root = some row)
    (hGuard : guardedState c.state resolved store root.toNat row.implementation dependency state =
      .ok (stateId, session))
    (hAnswer : stateRevision c.state resolved store agent parent dependency state (some since)
      paths = .ok answer)
    (hUnchanged : answer.changed = some false) :
    OthersLeave c.state store root.toNat stateId session (since.globalRev.getD 0) paths
        (fun _ _ _ => True) ↔
      OthersLeave c.state store root.toNat stateId session (since.globalRev.getD 0) paths
        (Overlooked (since.globalRev.getD 0)) := by
  have hNone := firstChange_of_unchanged hParent hRow hGuard hAnswer hUnchanged
  have hTree : c.state.Tree := (ok_run hInit hRun).inv.tree
  constructor
  case mp =>
    intro hLeave d p hMet hLater hOther pointer hPointer _
    exact hLeave d p hMet hLater hOther pointer hPointer trivial
  case mpr =>
    intro hLeave d p hMet hLater hOther pointer hPointer _
    by_cases hOverlooked : Overlooked (since.globalRev.getD 0) p d pointer
    · exact hLeave d p hMet hLater hOther pointer hPointer hOverlooked
    · -- the guard's query looked at this patch's path and found it elsewhere
      simp only [Overlooked, not_or, Int.not_le] at hOverlooked
      obtain ⟨hStored, hAbove, hShift⟩ := hOverlooked
      have hForeign : p.task.any ((callTree c.state root.toNat).contains ·) = false := by
        cases hTask : p.task with
        | none => rfl
        | some task =>
            rw [Option.any_some, ← Bool.not_eq_true, List.contains_iff_mem, mem_callTree hTree]
            exact fun hDesc => hOther ⟨task, hTask, hDesc⟩
      have hMem := mem_patches_of_metBy hMet
      obtain ⟨_, _, _, hState, hSession, _⟩ := hMet
      obtain ⟨hSome, hUnseen⟩ :=
        not_change_of_firstChange hNone hMem hState hSession hStored hForeign
      have hPaths : paths.isEmpty = false := by
        cases paths with
        | nil => exact absurd rfl hSome
        | cons => rfl
      rw [watchedPointers, hPaths] at hPointer
      exact leaves_of_elsewhere (hUnseen pointer hPointer) hAbove hShift

end

/-! ## A guard on a well of a plate -/

/-- A plate with one well and a lid. -/
def plateWith (well lid : Int) : Json :=
  .object [(['p', 'l', 'a', 't', 'e'], .object [(['w', 'e', 'l', 'l'], .leaf (.number well))]),
    (['l', 'i', 'd'], .leaf (.number lid))]

/-- The agent's own patch at revision 1. -/
def ownPatch (path : String) (value : Json) : StatePatch where
  sessionId := 0
  globalRev := 1
  stateName := "plate"
  op := "replace"
  path := path
  value := value

/-- Its row. -/
def ownPatchRow (patch : StatePatch) : PatchRow where
  state := 0
  agent := 0
  session := 0
  interface := "plate"
  op := patch.op
  path := patch.path
  value := patch.value
  task := none
  rev := 1
  agentPos := none
  step := none

/-- The tables after the plate was set up and patched by the agent itself. -/
def patchedPlate (patch : StatePatch) : Store where
  states := [{ agent := 0, interface := "plate" }]
  sessions := [{ agent := 0, sessionId := 0 }]
  log := [
    .snapshot { session := 0, state := 0, agent := 0, value := plateWith 1 0, rev := 0 },
    .patch (ownPatchRow patch)]

/-- The workflow depends on its own agent's state. -/
def plateResolved : Resolved where
  dependencies := fun _ => [("handler", [some "0"])]

/-- What the workflow asks about the well since revision 0. -/
def asksWell (c : ServerConfig) (store : Store) : BackendResult Revision :=
  stateRevision c.state plateResolved store 0 "0" "handler" "plate" (some ⟨some 0, some 0⟩)
    ["plate.well"]

/-- Task 0 of the workflow was assigned, and nothing of the well changed. -/
def wellUnchanged (store : Store) (c : ServerConfig) : Bool :=
  (taskRow c.state 0).any fun row =>
    match guardedState c.state plateResolved store 0 row.implementation "handler" "plate",
      asksWell c store with
    | .ok (0, some 0), .ok answer => answer.changed == some false
    | _, _ => false

/-- Where the workflow runs and such an answer was given. -/
theorem exists_unchanged (store : Store)
    (h : ((server {}).play System.anyStep workflowSite assignWorkflow).any
      (wellUnchanged store) = true) :
    ∃ c row answer, (server {}).Run System.anyStep workflowSite c ∧
      taskRow c.state 0 = some row ∧
      guardedState c.state plateResolved store 0 row.implementation "handler" "plate" =
        .ok (0, some 0) ∧
      asksWell c store = .ok answer ∧ answer.changed = some false := by
  obtain ⟨c, hRun, hCheck⟩ := System.run_of_play_any (server {}) System.anyStep workflowSite
    assignWorkflow (wellUnchanged store) h
  obtain ⟨row, hRow, hAnswer⟩ := (Option.any_eq_true _ _).mp hCheck
  split at hAnswer
  case h_1 answer hGuard hAsk =>
    exact ⟨c, row, answer, hRun, hRow, hGuard, hAsk, beq_iff_eq.mp hAnswer⟩
  case h_2 => cases hAnswer

/-- A patch of the lid. -/
def lidPatch : StatePatch := ownPatch "/lid" (.leaf (.number 1))

/-- The guard sees nothing of the lid, and the well is as it was. -/
theorem lid_patch_leaves_well : ∃ c, (server {}).Run System.anyStep workflowSite c ∧
    OthersLeave c.state (patchedPlate lidPatch) 0 0 (some 0) 0 ["plate.well"]
      (fun _ _ _ => True) := by
  obtain ⟨c, row, answer, hRun, hRow, hGuard, hAsk, hUnchanged⟩ :=
    exists_unchanged (patchedPlate lidPatch) (by decide +kernel)
  have hParent : Backend.parseId "0" = .ok 0 := by decide +kernel
  refine ⟨c, hRun, (unchanged_iff_overlooked_leave ⟨⟨rfl, rfl, rfl, rfl⟩, rfl⟩ hRun
    hParent hRow hGuard hAsk hUnchanged).mpr ?_⟩
  intro d p hMet _ _ pointer hPointer hOverlooked
  have hMem : p ∈ (patchedPlate lidPatch).patches := mem_patches_of_metBy hMet
  cases List.mem_singleton.mp hMem
  cases List.mem_singleton.mp hPointer
  exfalso
  rcases hOverlooked with hStored | ⟨path, watched, hPath, hWatched, hAbove, -⟩ |
    ⟨e, path, watched, hEdit, -, -, -, -, -, -, -, -, -, hMoves, -⟩
  · exact absurd hStored (by decide)
  · have hLid : parsePointer lidPatch.path.toList = some [['l', 'i', 'd']] := by decide +kernel
    have hWell : parsePointer (watchedPointer "plate.well") =
        some [['p', 'l', 'a', 't', 'e'], ['w', 'e', 'l', 'l']] := by decide +kernel
    cases hLid.symm.trans hPath
    cases hWell.symm.trans hWatched
    exact absurd hAbove (by decide)
  · cases hEdit
    cases hMoves

/-- A patch that replaces the plate, with another well. -/
def plateReplaced : StatePatch :=
  ownPatch "/plate" (.object [(['w', 'e', 'l', 'l'], .leaf (.number 2))])

/-- The agent replaces the plate at revision 1; asked about the well since
revision 0, the guard answers "unchanged". -/
theorem replaced_plate_is_overlooked : Initial workflowSite ∧ plateStore.log = [] ∧
    ∃ c store answer,
      (recording {}).Run System.anyStep (workflowSite, plateStore) (c, store) ∧
      stateRevision c.state plateResolved store 0 "0" "handler" "plate" (some ⟨some 0, some 0⟩)
        ["plate.well"] = .ok answer ∧
      answer.changed = some false ∧
      ¬ OthersLeave c.state store 0 0 (some 0) 0 ["plate.well"] (fun _ _ _ => True) := by
  refine ⟨⟨⟨rfl, rfl, rfl, rfl⟩, rfl⟩, rfl, ?_⟩
  obtain ⟨c, row, answer, hRun, -, -, hAsk, hUnchanged⟩ :=
    exists_unchanged (patchedPlate plateReplaced) (by decide +kernel)
  refine ⟨c, patchedPlate plateReplaced, answer, ?_, hAsk, hUnchanged, ?_⟩
  · have hSet := (recording_run plateStore hRun).step
      (a := .inr (0, .sessionInit 0 [("plate", plateWith 1 0)])) trivial rfl
    exact hSet.step (a := .inr (0, .patch plateReplaced)) trivial rfl
  · intro hLeave
    have hMet : MetBy (patchedPlate plateReplaced) 0 (some 0) (plateWith 1 0)
        (ownPatchRow plateReplaced) := ⟨[_], [], rfl, rfl, rfl, rfl⟩
    have hSame := hLeave _ _ hMet (by decide) (by rintro ⟨_, hTask, _⟩; cases hTask)
      (watchedPointer "plate.well") (List.mem_singleton_self _) trivial
    have hOld : valueAtPointer (watchedPointer "plate.well") (plateWith 1 0) =
        some (.leaf (.number 1)) := rfl
    have hNew : valueAtPointer (watchedPointer "plate.well")
        ((ownPatchRow plateReplaced).applyTo (plateWith 1 0)) = some (.leaf (.number 2)) := rfl
    rw [Leaves, hOld, hNew] at hSame
    cases hSame

end Rekuest.States
