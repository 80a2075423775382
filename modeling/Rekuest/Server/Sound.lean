import Rekuest.Server.SafeRequests

/-!
# The discipline is sound

Assigns place the rows they insert, so every request is safe, and every
transaction of every run of the server meets its guard.
-/

namespace Rekuest

open Concurrent

section

variable {settings : Settings} {strict : Prop} {s : Db}

/-! ## Assigns -/

/-- The root an assign read is its parent's. -/
structure Placed (input : AssignInput) (root : Option Nat) (s : Db) : Prop where
  rootless : input.parent = none → root = none
  parent : ∀ p, input.parent = some p →
    ∃ prow, s.task? p = some prow ∧ root = some (prow.root.getD p)

theorem Placed.later {input : AssignInput} {root : Option Nat} {s' : Db}
    (h : Placed input root s) (hLater : s.Later s') : Placed input root s' where
  rootless := h.rootless
  parent := fun p hParent =>
    have ⟨_, hRow, hRoot⟩ := h.parent p hParent
    have ⟨prow', hRow', hSame⟩ := hLater.row hRow
    ⟨prow', hRow', by rw [hRoot, hSame.identity.root]⟩

theorem placed_of_rootAndPolicy {input : AssignInput} {root : Option Nat} {policy : Policy}
    (h : rootAndPolicy s input = some (root, policy)) : Placed input root s := by
  unfold rootAndPolicy at h
  split at h
  case h_1 hNone =>
    cases h
    exact ⟨fun _ => rfl, fun p hParent => by rw [hNone] at hParent; cases hParent⟩
  case h_2 parent hSome =>
    obtain ⟨prow, hRow, hEq⟩ := Option.map_eq_some_iff.mp h
    cases hEq
    refine ⟨fun hNone => ?_, fun p hParent => ?_⟩
    · rw [hSome] at hNone
      cases hNone
    · rw [hSome, Option.some.injEq] at hParent
      subst hParent
      exact ⟨prow, hRow, rfl⟩

theorem AssignInput.held_parent {input : AssignInput} {policy : Policy}
    (h : input.held policy = true) : input.parent.isSome = true := by
  simp only [AssignInput.held, Bool.and_eq_true] at h
  exact h.1.1

theorem task?_recordHeld {x task : Nat} {new : NewTask} {ask : Ask} :
    (recordHeld s task new ask).task? x = s.task? x :=
  congrArg (·[x]?) (tasks_recordHeld task new ask)

/-- A created task's row is the one it was inserted with. -/
theorem insertTask_created {e : Env} {new : NewTask} {ask : Ask} {task : Nat}
    (h : (insertTask e s new ask).1 = .created task) :
    (insertTask e s new ask).2.task? task = some (new.row e.now) := by
  simp only [insertTask] at h ⊢
  split at h
  case isTrue => cases h
  case isFalse hFresh =>
    split at h
    case isTrue => cases h
    case isFalse hMints =>
      cases h
      simp only [hFresh, hMints]
      exact task?_recordHeld.trans (by simp [Db.task?])

theorem insertHigherOrder_created {e : Env} {wrapper lower : NewTask} {ask : Ask} {task : Nat}
    (h : (insertHigherOrder e s wrapper lower ask).1 = .created task) :
    (insertHigherOrder e s wrapper lower ask).2.task? (task + 1) =
      some ((lowerChild lower wrapper.root task).row e.now) := by
  simp only [insertHigherOrder] at h ⊢
  split at h
  case isTrue => cases h
  case isFalse hFresh =>
    split at h
    case isTrue => cases h
    case isFalse hMints =>
      cases h
      simp only [hFresh, hMints]
      exact task?_recordHeld.trans (by simp [Db.task?])

theorem safely_lostReferenceRace {caller : Nat} {input : AssignInput}
    {f : Option Assigned → Program Unit}
    (h : ∀ s', s.Later s' → s'.Inv strict → ∀ r, Safely settings strict (f r) s') :
    Safely settings strict ((lostReferenceRace caller input).bind f) s :=
  safely_select fun s' hLater hInv => h s' hLater hInv _

theorem safely_assignPlain {caller : Nat} {input : AssignInput} {schedule : Option Nat}
    {id : Nat} {implementation : Implementation} {root : Option Nat} {policy : Policy}
    {delayed : Bool} {hooks : Nat → Program Unit} {f : Option Assigned → Program Unit}
    (hPlaced : Placed input root s) (hSchedule : schedule.isSome = true → input.parent = none)
    (hHooks : ∀ task s' g, s.Later s' → s'.Inv strict →
      (∀ s'', s'.Later s'' → s''.Inv strict → Safely settings strict (g ()) s'') →
        Safely settings strict ((hooks task).bind g) s')
    (h : ∀ s', s.Later s' → s'.Inv strict → ∀ r, Safely settings strict (f r) s') :
    Safely settings strict ((assignPlain caller input schedule id implementation root policy
      delayed hooks).bind f) s := by
  rw [assignPlain, Prog.bind_eq, Prog.bind_assoc]
  refine safely_utcNow fun s₁ h₁ _ now => safely_act fun s₂ h₂ _ => ⟨?_, fun e _ hLater hInv => ?_⟩
  · refine { rootless := hPlaced.rootless, parent := (hPlaced.later (h₁.trans h₂)).parent,
             plain := rfl, held := fun hHeld => ?_ }
    have hParent := AssignInput.held_parent hHeld
    refine ⟨hParent, ?_, ?_⟩
    · cases schedule with
      | none => rfl
      | some _ =>
          rw [hSchedule rfl] at hParent
          cases hParent
    · have hHeld : input.held policy = true := hHeld
      simp [plainTask, hHeld]
  · generalize hNew : plainTask caller input schedule id implementation root policy delayed
      now = new at hLater hInv ⊢
    generalize Ask.mk implementation.action implementation.agent input.prompt = ask
      at hLater hInv ⊢
    change s₁.Later (insertTask e s₂ new ask).2 at hLater
    change (insertTask e s₂ new ask).2.Inv strict at hInv
    have hLater' := h₁.trans hLater
    cases hResult : (Txn.exec settings e (.insertTask new ask) s₂).1 with
    | duplicate => exact safely_lostReferenceRace fun t hT => h t (hLater'.trans hT)
    | refused => exact h _ hLater' hInv none
    | created task =>
        change Safely settings strict (Prog.bind _ f) (insertTask e s₂ new ask).2
        simp only [Prog.bind_eq, Prog.pure_eq, Prog.ite_bind, Prog.bind_assoc, Prog.ret_bind]
        split
        case isFalse => exact h _ hLater' hInv _
        case isTrue hSent =>
          have hRow := insertTask_created hResult
          refine safely_dispatch (fun _ => ⟨_, hRow, ?_⟩) fun t hT hTInv => ?_
          · subst hNew
            simp only [Bool.not_eq_true', Bool.or_eq_false_iff] at hSent
            exact hSent.2
          · refine hHooks task t _ (hLater'.trans hT) hTInv fun u hU hUInv => ?_
            exact h u (hLater'.trans (hT.trans hU)) hUInv _

theorem safely_assignHigherOrder {caller : Nat} {input : AssignInput} {id : Nat}
    {higher : Implementation} {root : Option Nat} {policy : Policy}
    {f : Option Assigned → Program Unit} (hPlaced : Placed input root s)
    (hHigher : s.implementations[id]? = some higher)
    (hLowerOf : higher.higherOrderFor.isSome = true)
    (h : ∀ s', s.Later s' → s'.Inv strict → ∀ r, Safely settings strict (f r) s') :
    Safely settings strict ((assignHigherOrder settings caller input id higher root
      policy).bind f) s := by
  rw [assignHigherOrder, Prog.bind_eq, Prog.bind_assoc]
  refine safely_select fun s₁ h₁ hInv₁ => ?_
  split
  case h_1 => exact h s₁ h₁ hInv₁ none
  case h_2 lowerId lower _ =>
    refine safely_query fun s₂ h₂ hInv₂ e => ?_
    simp only [Prog.bind_eq, Prog.ret_bind, Prog.pure_eq, Prog.ite_bind, Prog.bind_assoc]
    split
    case isTrue => exact h s₂ (h₁.trans h₂) hInv₂ none
    case isFalse =>
      refine safely_utcNow fun s₃ h₃ _ now =>
        safely_act fun s₄ h₄ _ => ⟨?_, fun e _ hLater hInv => ?_⟩
      · have hLater := h₁.trans (h₂.trans (h₃.trans h₄))
        have hUnsent (hHeld : input.held policy = true) :
            (lowerTask caller input lowerId lower policy now).dispatchAttempts = 0 := by
          simp [lowerTask, hHeld]
        refine { placed := ⟨hPlaced.rootless, (hPlaced.later hLater).parent, rfl, fun hHeld =>
                   ⟨AssignInput.held_parent hHeld, rfl, rfl⟩⟩,
                 held := rfl, unsent := rfl, lowerUnsent := hUnsent, undelayed := ⟨rfl, rfl⟩,
                 unscheduled := ⟨rfl, rfl⟩, higher := ⟨higher, ?_, hLowerOf⟩ }
        rw [hLater.implementations]
        exact hHigher
      · generalize hNew : lowerTask caller input lowerId lower policy now = new at hLater hInv ⊢
        generalize wrapperTask caller input id higher root policy = wrapper at hLater hInv ⊢
        generalize Ask.mk higher.action higher.agent input.prompt = ask at hLater hInv ⊢
        change s₃.Later (insertHigherOrder e s₄ wrapper new ask).2 at hLater
        change (insertHigherOrder e s₄ wrapper new ask).2.Inv strict at hInv
        have hLater' := h₁.trans (h₂.trans (h₃.trans hLater))
        cases hResult : (Txn.exec settings e (.insertHigherOrder wrapper new ask) s₄).1 with
        | duplicate => exact safely_lostReferenceRace fun t hT => h t (hLater'.trans hT)
        | refused => exact h _ hLater' hInv none
        | created task =>
            change Safely settings strict (Prog.bind _ f) (insertHigherOrder e s₄ wrapper new ask).2
            simp only [Prog.ite_bind, Prog.bind_assoc, Prog.ret_bind]
            split
            case isFalse => exact h _ hLater' hInv _
            case isTrue hSent =>
              have hRow := insertHigherOrder_created hResult
              refine safely_dispatch (fun _ => ⟨_, hRow, ?_⟩) fun t hT hTInv =>
                h t (hLater'.trans hT) hTInv _
              subst hNew
              rw [Bool.not_eq_true'] at hSent
              exact hSent

theorem safely_assignWithHooks {principal : Principal} {input : AssignInput}
    {schedule : Option Nat} {hooks : Nat → Program Unit} {f : Option Assigned → Program Unit}
    (hSchedule : schedule.isSome = true → input.parent = none)
    (hHooks : ∀ task s' g, s.Later s' → s'.Inv strict →
      (∀ s'', s'.Later s'' → s''.Inv strict → Safely settings strict (g ()) s'') →
        Safely settings strict ((hooks task).bind g) s')
    (hInv : s.Inv strict)
    (h : ∀ s', s.Later s' → s'.Inv strict → ∀ r, Safely settings strict (f r) s') :
    Safely settings strict ((assignWithHooks settings principal input schedule hooks).bind f)
      s := by
  unfold assignWithHooks
  split
  case h_1 => exact h s (.refl s) hInv none
  case h_2 organization _ =>
    refine safely_free (fun _ => trivial) fun s₁ h₁ hInv₁ caller => ?_
    refine safely_free (fun _ => trivial) fun s₂ h₂ hInv₂ found => ?_
    have hLater₂ := h₁.trans h₂
    cases found with
    | some found => exact h s₂ hLater₂ hInv₂ _
    | none =>
      refine safely_select fun s₃ h₃ hInv₃ => ?_
      have hLater₃ := hLater₂.trans h₃
      simp only [Prog.ret_bind]
      split
      case h_1 id implementation _ hTarget =>
        obtain ⟨id', -, hTarget⟩ := Option.bind_eq_some_iff.mp hTarget
        obtain ⟨implementation', hImplementation, hEq⟩ := Option.map_eq_some_iff.mp hTarget
        cases hEq
        refine safely_select fun s₄ h₄ hInv₄ => ?_
        have hLater₄ := hLater₃.trans h₄
        simp only [Prog.ret_bind]
        cases hRoot : rootAndPolicy s₄ input with
        | none => exact h s₄ hLater₄ hInv₄ none
        | some placed =>
          obtain ⟨root, policy⟩ := placed
          refine safely_utcNow fun s₅ h₅ hInv₅ now => ?_
          have hLater₅ := hLater₄.trans h₅
          have hPlaced := (placed_of_rootAndPolicy hRoot).later h₅
          simp only [Prog.ret_bind]
          split
          case isTrue => exact h s₅ hLater₅ hInv₅ none
          case isFalse =>
            split
            case isTrue =>
              exact safely_assignPlain hPlaced hSchedule
                (fun task t g hT => hHooks task t g (hLater₅.trans hT))
                fun t hT => h t (hLater₅.trans hT)
            case isFalse hHigher =>
              split
              case isTrue => exact h s₅ hLater₅ hInv₅ none
              case isFalse =>
                refine safely_assignHigherOrder hPlaced ?_ ?_ fun t hT => h t (hLater₅.trans hT)
                · rw [(h₄.trans h₅).implementations]
                  exact hImplementation
                · rw [Option.isNone_iff_eq_none, ← ne_eq, Option.ne_none_iff_isSome] at hHigher
                  exact hHigher
      case h_2 => exact h s₃ hLater₃ hInv₃ none

/-- Hooks are children of their task, one after the other. -/
theorem safely_assignHooks {principal : Principal} {task : Nat} {hooks : List Hook}
    {f : Unit → Program Unit} (hInv : s.Inv strict)
    (h : ∀ s', s.Later s' → s'.Inv strict → Safely settings strict (f ()) s') :
    Safely settings strict ((assignHooks settings principal task hooks).bind f) s := by
  induction hooks generalizing s with
  | nil => exact h s (.refl s) hInv
  | cons hook rest ih =>
      rw [assignHooks, Prog.bind_eq, Prog.bind_assoc]
      refine safely_assignWithHooks nofun
        (fun _ t g _ hTInv hg => hg t (.refl t) hTInv) hInv fun t hT hTInv r => ?_
      cases r with
      | none => exact h t hT hTInv
      | some _ => exact ih hTInv fun u hU => h u (hT.trans hU)

theorem safely_assignWithStatus {principal : Principal} {input : AssignInput}
    {schedule : Option Nat} {f : Option Assigned → Program Unit}
    (hSchedule : schedule.isSome = true → input.parent = none) (hInv : s.Inv strict)
    (h : ∀ s', s.Later s' → s'.Inv strict → ∀ r, Safely settings strict (f r) s') :
    Safely settings strict ((assignWithStatus settings principal input schedule).bind f) s :=
  safely_assignWithHooks hSchedule (fun _ _ _ _ hTInv hg => safely_assignHooks hTInv hg) hInv h

/-! ## Requests -/

theorem safely_onCallerAssign {agent : Nat} {input : AssignInput} {granted : Bool} :
    Safely settings strict (onCallerAssign settings agent input granted) s := by
  refine safely_select fun s₁ _ _ => ?_
  split
  case h_1 => exact safely_ret
  case h_2 principal _ =>
    refine safely_select fun s₂ _ hInv₂ => ?_
    split
    · exact safely_assignWithStatus nofun hInv₂ fun _ _ _ _ => safely_ret
    · exact safely_ret

theorem safely_callerControl {agent task : Nat} {control : Control} {f : Bool → Program Unit}
    (h : ∀ s', s.Later s' → s'.Inv strict → ∀ accepted, Safely settings strict (f accepted) s') :
    Safely settings strict ((callerControl settings agent task control).bind f) s := by
  rw [callerControl, agentCaller, Prog.bind_eq, Prog.bind_eq, Prog.bind_assoc, Prog.bind_assoc]
  refine safely_select fun s₁ h₁ hInv₁ => ?_
  split
  case h_1 => exact h s₁ h₁ hInv₁ false
  case h_2 client user organization _ =>
    refine safely_free (fun _ => trivial) fun s₂ h₂ hInv₂ caller => ?_
    refine safely_select fun s₃ h₃ hInv₃ => ?_
    have hLater₃ := h₁.trans (h₂.trans h₃)
    simp only [Prog.ret_bind]
    split
    · exact h s₃ hLater₃ hInv₃ false
    · exact safely_requestControl fun t hT => h t (hLater₃.trans hT)

theorem safely_onCallerCancel {agent task : Nat} {autoInterrupt : Option Int} :
    Safely settings strict (onCallerCancel settings agent task autoInterrupt) s := by
  refine safely_callerControl fun s₁ _ _ accepted => ?_
  split
  · split
    · exact safely_ret
    · exact safely_utcNow fun _ _ _ _ => safely_free (fun _ => trivial) fun _ _ _ _ => safely_ret
  · exact safely_ret

theorem safely_onAgentConnected {agent connection : Nat} {session : Option Nat} {force : Bool} :
    Safely settings strict (onAgentConnected agent connection session force) s := by
  refine safely_free (fun _ => trivial) fun s₁ _ _ lease => ?_
  rw [Prog.ret_bind]
  split
  case isTrue =>
    refine safely_free (fun _ => trivial) fun s₂ _ _ _ => safely_select fun s₃ _ hInv₃ => ?_
    split
    · exact safely_tail (safely_failAndCascadeInflight hInv₃ fun _ _ _ => safely_ret)
    · exact safely_ret
  case isFalse => exact safely_ret

theorem safely_onAgentDisconnected {agent connection : Nat} :
    Safely settings strict (onAgentDisconnected settings agent connection) s := by
  refine safely_free (fun _ => trivial) fun s₁ _ _ released => ?_
  rw [Prog.ret_bind]
  split
  · exact safely_tail (safely_reconcileOrphanedExecutorWork fun _ _ _ => safely_ret)
  · exact safely_ret

theorem safely_triggerSchedule {schedule : Nat} {allowsOverlap : Bool} {principal : Principal}
    {input : AssignInput} : Safely settings strict
      (triggerSchedule settings schedule allowsOverlap principal input) s := by
  refine safely_free (fun _ => trivial) fun s₁ _ hInv₁ moved => ?_
  rw [Prog.ret_bind]
  split
  · exact safely_ret
  · exact safely_ret
  · exact safely_assignWithStatus (fun _ => rfl) hInv₁ fun _ _ _ _ => safely_ret

theorem safely_cancelWaitingRun {schedule : Nat} {caller : Option Nat} :
    Safely settings strict (cancelWaitingRun settings schedule caller) s := by
  refine safely_select fun s₁ _ _ => ?_
  split
  · exact safely_ret
  · exact safely_requestControl fun _ _ _ _ => safely_ret

theorem safely_cancelRunIfWaiting {task : Nat} {caller : Option Nat} :
    Safely settings strict (cancelRunIfWaiting settings task caller) s := by
  refine safely_select fun s₁ _ _ => ?_
  split
  · exact safely_requestControl fun _ _ _ _ => safely_ret
  · exact safely_ret

/-- Every request follows the discipline. -/
theorem safely_handler (request : Request) (hInv : s.Inv strict) :
    Safely settings strict (request.handler settings) s := by
  cases request with
  | assign principal input => exact safely_assignWithStatus nofun hInv fun _ _ _ _ => safely_ret
  | scheduleRun schedule principal input =>
      exact safely_assignWithStatus (fun _ => rfl) hInv fun _ _ _ _ => safely_ret
  | triggerRun principal input =>
      exact safely_assignWithStatus nofun hInv fun _ _ _ _ => safely_ret
  | triggerSchedule => exact safely_triggerSchedule
  | cancelWaitingRun => exact safely_cancelWaitingRun
  | cancelRunIfWaiting => exact safely_cancelRunIfWaiting
  | control => exact safely_requestControl fun _ _ _ _ => safely_ret
  | decide => exact safely_decide
  | report => exact safely_onReport
  | callerAssign => exact safely_onCallerAssign
  | callerControl => exact safely_callerControl fun _ _ _ _ => safely_ret
  | callerCancel => exact safely_onCallerCancel
  | connected => exact safely_onAgentConnected
  | disconnected => exact safely_onAgentDisconnected
  | heartbeat => exact safely_free (fun _ => trivial) fun _ _ _ _ => safely_ret
  | becameHook => exact safely_free (fun _ => trivial) fun _ _ _ _ => safely_ret
  | staleAgents => exact safely_reconcileStaleAgents
  | disconnectedAgents => exact safely_reconcileDisconnectedAgents
  | dueTasks => exact safely_dispatchDueTasks
  | unpickedTasks => exact safely_reconcileUnpickedTasks
  | dueControls => exact safely_escalateDueControls
  | expiredTasks => exact safely_expireDisconnectedTasks

end

/-- **The discipline is sound**: transactions under their guards keep the
invariant, and every request runs its transactions under their guards. -/
theorem discipline_sound (settings : Settings) (strict : Prop) :
    (discipline settings strict).Sound where
  step := fun e _ _ _ hInv hGuard hAllowed =>
    ⟨inv_exec e hInv hGuard hAllowed, hGuard.later hInv.tree⟩
  start := fun request _ hInv => safely_handler request hInv

end Rekuest
