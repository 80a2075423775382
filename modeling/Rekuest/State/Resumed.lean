import Rekuest.State.Store

/-!
# The steps of a resumed run

A run numbers what it does: its reports, the patches it makes and the calls it
asks for, all in one sequence.  The journal that goes out with a resume takes the
last step from the events and the calls; the patches are not among them.
-/

namespace Rekuest.States

open Concurrent Documents

/-- The steps of a task's events and of the calls it made: those the journal
reads. -/
def journaledSteps (db : Db) (task : Nat) : List Int :=
  (db.eventsOf task).filterMap (·.event.step) ++
    (db.tasks.filter (·.parent == some task)).filterMap (·.parentStep)

/-- The steps of the patches a task made. -/
def patchedSteps (store : Store) (task : Nat) : List Int :=
  (store.patches.filter (·.task == some task)).filterMap (·.step)

/-- Every step that is recorded of a task. -/
def recordedSteps (db : Db) (store : Store) (task : Nat) : List Int :=
  journaledSteps db task ++ patchedSteps store task

theorem foldl_max_le {steps : List Int} {init bound : Int} :
    steps.foldl max init ≤ bound ↔ init ≤ bound ∧ ∀ s ∈ steps, s ≤ bound := by
  induction steps generalizing init with
  | nil => simp
  | cons s rest ih =>
      rw [List.foldl_cons, ih, Int.max_le, and_assoc, List.forall_mem_cons]

/-- The last step of a journal is the least bound on what it reads, from 0 on. -/
theorem journal_lastStep_le {db : Db} {task : Nat} {bound : Int} :
    (journal db task).lastStep ≤ bound ↔
      0 ≤ bound ∧ ∀ s ∈ journaledSteps db task, s ≤ bound := by
  have hLast : (journal db task).lastStep =
      ((journaledSteps db task).foldl max 0).toNat := rfl
  have hNonneg : 0 ≤ (journaledSteps db task).foldl max 0 :=
    (foldl_max_le.mp (Int.le_refl _)).1
  rw [hLast, Int.toNat_of_nonneg hNonneg, foldl_max_le]

theorem journaledStep_le {db : Db} {task : Nat} {s : Int} (h : s ∈ journaledSteps db task) :
    s ≤ (journal db task).lastStep :=
  (journal_lastStep_le.mp (Int.le_refl _)).2 s h

theorem buildRedispatchAssign_resume {e : Env} {db : Db} {task : Nat} {assign : Assign}
    {j : Journal} (h : buildRedispatchAssign e db task = some assign)
    (hResume : assign.resume = some j) : j = journal db task := by
  simp only [buildRedispatchAssign, Option.bind_eq_bind, Option.bind_eq_some_iff] at h
  obtain ⟨_, _, _, _, i, _, _, _, h⟩ := h
  split at h
  case isTrue => cases h
  case isFalse =>
    cases h
    simp only at hResume
    split at hResume
    · cases hResume
      rfl
    · cases hResume

/-- A patch's step is one an event or a call has reached, or none at all. -/
def PatchesReached (db : Db) (store : Store) (task : Nat) : Prop :=
  ∀ s ∈ patchedSteps store task, s ≤ 0 ∨ ∃ s' ∈ journaledSteps db task, s ≤ s'

theorem reached_iff {db : Db} {task : Nat} {s : Int} :
    s ≤ (journal db task).lastStep ↔ s ≤ 0 ∨ ∃ s' ∈ journaledSteps db task, s ≤ s' := by
  constructor
  case mp =>
    intro h
    by_cases hReached : s ≤ 0 ∨ ∃ s' ∈ journaledSteps db task, s ≤ s'
    · exact hReached
    · -- otherwise the journal would end below the step
      have hBelow : ((journal db task).lastStep : Int) ≤ s - 1 := by
        apply journal_lastStep_le.mpr
        constructor
        · have hPos : ¬ s ≤ 0 := fun hLow => hReached (.inl hLow)
          omega
        · intro s' hs'
          have hLess : ¬ s ≤ s' := fun hLe => hReached (.inr ⟨s', hs', hLe⟩)
          omega
      omega
  case mpr =>
    rintro (hLow | ⟨s', hs', hLe⟩)
    · have := Int.natCast_nonneg (journal db task).lastStep
      omega
    · have := journaledStep_le hs'
      omega

/-- **A resumed run takes up behind every step its run recorded**, and so numbers
nothing twice, exactly when no patch is ahead of the run's events and calls. -/
theorem resume_after_every_step {e : Env} {db : Db} {store : Store} {task : Nat}
    {assign : Assign} {j : Journal} (hBuild : buildRedispatchAssign e db task = some assign)
    (hResume : assign.resume = some j) :
    ((∀ s ∈ recordedSteps db store task, s ≤ j.lastStep) ∧
      ∀ s : Int, j.lastStep < s → s ∉ recordedSteps db store task) ↔
    PatchesReached db store task := by
  have hJournal := buildRedispatchAssign_resume hBuild hResume
  subst hJournal
  constructor
  case mp =>
    intro ⟨hBound, _⟩ s hs
    exact reached_iff.mp (hBound s (List.mem_append_right _ hs))
  case mpr =>
    intro hReached
    have hBound : ∀ s ∈ recordedSteps db store task, s ≤ (journal db task).lastStep := by
      intro s hs
      rcases List.mem_append.mp hs with hs | hs
      · exact journaledStep_le hs
      · exact reached_iff.mpr (hReached s hs)
    refine ⟨hBound, ?_⟩
    intro s hLess hs
    have := hBound s hs
    omega

/-- A workflow that reported its first step. -/
def firstStep : Db where
  tasks := [{ caller := some 0, implementation := some 0 }]
  events := [{ task := 0, kind := .started, event := { step := some 1 } }]
  callers := [{ client := 0, user := 0, organization := 0 }]
  implementations := [{ workflow := true }]

/-- A run with one report, its step 1, may be resumed behind it. -/
theorem resume_after_first_step :
    (∀ s ∈ recordedSteps firstStep {} 0, s ≤ (1 : Nat)) ∧
      ∀ s : Int, (1 : Nat) < s → s ∉ recordedSteps firstStep {} 0 :=
  (@resume_after_every_step {} firstStep {} 0 _ { lastStep := 1, effects := [] } rfl rfl).mpr (fun s hs => by cases hs)

/-! ## A workflow that patches a state -/

/-- The run's first report, its step 1. -/
def startedFrame : ReportFrame where
  task := 0
  report := .started
  pos := some 1
  journalSession := some 0
  taskStep := some 1

/-- What the run does to the plate, its step 2. -/
def wellPatch : StatePatch where
  sessionId := 0
  globalRev := 1
  stateName := "plate"
  op := "replace"
  path := "/well"
  value := .leaf (.number 1)
  taskId := some "0"
  numbering := { pos := some 2, journalSession := some 0, taskStep := some 2 }

/-- The workflow starts and patches the plate. -/
def patchPlate : List (Choice Env Request ⊕ (Nat × StateFrame)) :=
  (assignWorkflow ++ Request.alone (.report 0 startedFrame) 1 3).map .inl ++
    [.inr (0, .patch wellPatch)]

/-- Then its agent comes up again as a fresh process. -/
def patchPlateAndResume : List (Choice Env Request ⊕ (Nat × StateFrame)) :=
  patchPlate ++ (Request.alone (.connected 0 1 (some 1) true) 2 8).map .inl

/-- A resume that was sent takes up below a recorded step. -/
def resumesBelow (c : ServerConfig) (store : Store) : Bool :=
  c.state.sent.any fun (_, frame) =>
    match frame with
    | .assign assign => assign.resume.any fun j =>
        (recordedSteps c.state store assign.task).any fun s => (j.lastStep : Int) < s
    | _ => false

/-- The agent gets the workflow again with the last step 1, and numbers its next
report 2, as the interrupted run numbered its patch. -/
theorem patched_step_is_used_again : Initial workflowSite ∧ plateStore.log = [] ∧
    ∃ c store, (recording {}).Run System.anyStep (workflowSite, plateStore) (c, store) ∧
      ∃ agent assign j, (agent, ToAgent.assign assign) ∈ c.state.sent ∧
        assign.resume = some j ∧
        ∃ s ∈ recordedSteps c.state store assign.task, (j.lastStep : Int) < s := by
  refine ⟨⟨⟨rfl, rfl, rfl, rfl⟩, rfl⟩, rfl, ?_⟩
  obtain ⟨⟨c, store⟩, hRun, hCheck⟩ := System.run_of_play_any (recording {})
    System.anyStep (workflowSite, plateStore) patchPlateAndResume
    (fun (c, store) => resumesBelow c store) (by decide +kernel)
  refine ⟨c, store, hRun, ?_⟩
  obtain ⟨⟨agent, frame⟩, hSent, hBelow⟩ := List.any_eq_true.mp hCheck
  cases frame with
  | assign assign =>
      cases hResume : assign.resume with
      | none => simp [hResume] at hBelow
      | some j =>
          simp only [hResume, Option.any_some] at hBelow
          obtain ⟨s, hs, hLess⟩ := List.any_eq_true.mp hBelow
          exact ⟨agent, assign, j, hSent, hResume, s, hs, of_decide_eq_true hLess⟩
  | cancel | interrupt | pause | resume | decide => cases hBelow

end Rekuest.States
