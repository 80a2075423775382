import Rekuest.Backend.Assigning

/-!
# What a prepared assign says

The checks of an assign, read backwards: what holds of a request that passed
them, and of the rows and frames it is made into.
-/

namespace Rekuest.Backend

variable {env : Env} {db : Database} {principal : CallerContext} {input : AssignInput}
  {organization caller : Int} {resolution : Option Int} {uuids : Nat}

theorem bind_eq_ok {α β : Type} {x : BackendResult α} {f : α → BackendResult β} {b : β} :
    (x >>= f) = .ok b ↔ ∃ a, x = .ok a ∧ f a = .ok b := by
  cases x <;> simp [Bind.bind, Except.bind]

theorem pure_eq_ok {α : Type} {a b : α} : (pure a : BackendResult α) = .ok b ↔ a = b := by
  simp [Pure.pure, Except.pure]

theorem get_eq_ok {α : Type} {row : Option α} {model : String} {a : α} :
    get row model = .ok a ↔ row = some a := by
  cases row <;> simp [get]

theorem refuseIf_eq_ok {condition : Bool} {e : BackendError} {u : Unit} :
    refuseIf condition e = .ok u ↔ condition = false := by
  cases condition <;> simp [refuseIf]

/-! ## The registry -/

namespace Registry

variable {registry : Registry}

theorem action_of_mem {action : ActionRow} (h : action ∈ registry.actions) :
    registry.action action.id = some action :=
  find_of_ordered registry.actions_ordered h

theorem action_mem {id : Int} {action : ActionRow} (h : registry.action id = some action) :
    action ∈ registry.actions ∧ action.id = id :=
  ⟨List.mem_of_find?_eq_some h, by simpa using List.find?_some h⟩

theorem implementation_mem {id : Int} {row : ImplementationRow}
    (h : registry.implementation id = some row) : row ∈ registry.implementations ∧ row.id = id :=
  ⟨List.mem_of_find?_eq_some h, by simpa using List.find?_some h⟩

end Registry

/-- A target is an implementation with the action it implements, both on record. -/
structure OnRecord (registry : Registry) (action : ActionRow)
    (implementation : ImplementationRow) : Prop where
  actionRow : registry.action action.id = some action
  row : registry.implementation implementation.id = some implementation
  implements : implementation.actionId = action.id

theorem onRecord_of_actionOf {registry : Registry} {action : ActionRow}
    {implementation : ImplementationRow} (hMem : implementation ∈ registry.implementations)
    (h : registry.actionOf implementation = some action) :
    OnRecord registry action implementation := by
  obtain ⟨hAction, hId⟩ := Registry.action_mem h
  exact ⟨Registry.action_of_mem hAction, Registry.implementation_of_mem hMem, hId.symm⟩

theorem OnRecord.actionOf {registry : Registry} {action : ActionRow}
    {implementation : ImplementationRow} (h : OnRecord registry action implementation) :
    registry.actionOf implementation = some action := by
  unfold Registry.actionOf
  rw [h.implements]
  exact h.actionRow

theorem onRecord_of_available {action : ActionRow} {args : Args}
    {implementation : ImplementationRow} (hAction : action ∈ db.registry.actions)
    (h : env.availableImplementation db action organization args = .ok implementation) :
    OnRecord db.registry action implementation :=
  ⟨Registry.action_of_mem hAction, Registry.implementation_of_mem (env.available_exists h),
    env.available_action h⟩

/-! ## The target -/

theorem namedImplementation_ok {row : Option ImplementationRow} {action : ActionRow}
    {implementation : ImplementationRow}
    (hRow : ∀ r, row = some r → r ∈ db.registry.implementations)
    (h : namedImplementation env db row = .ok (action, implementation)) :
    OnRecord db.registry action implementation := by
  unfold namedImplementation at h
  obtain ⟨found, hFound, h⟩ := bind_eq_ok.1 h
  obtain ⟨_, -, h⟩ := bind_eq_ok.1 h
  obtain ⟨found', hAction, h⟩ := bind_eq_ok.1 h
  cases pure_eq_ok.1 h
  exact onRecord_of_actionOf (hRow _ (get_eq_ok.1 hFound)) (get_eq_ok.1 hAction)

/-- A direct target is on record; where the request names an action by its hash
alone it is that action. -/
theorem resolveDirectTarget_ok {action : ActionRow} {implementation : ImplementationRow}
    (h : resolveDirectTarget env db input organization = .ok (action, implementation)) :
    OnRecord db.registry action implementation ∧
      (input.action = none → input.implementation = none → input.agent = none →
        ∀ hash, input.actionHash = some hash → action.hash = hash) := by
  unfold resolveDirectTarget at h
  split at h
  · next text hNamed =>
      obtain ⟨id, -, h⟩ := bind_eq_ok.1 h
      obtain ⟨found, hFound, h⟩ := bind_eq_ok.1 h
      obtain ⟨row, hAvailable, h⟩ := bind_eq_ok.1 h
      cases pure_eq_ok.1 h
      have hMem := (Registry.action_mem (get_eq_ok.1 hFound)).1
      refine ⟨onRecord_of_available hMem hAvailable, ?_⟩
      intro hAction
      rw [hAction] at hNamed
      cases hNamed
  · split at h
    · next text hNamed =>
        obtain ⟨id, -, h⟩ := bind_eq_ok.1 h
        refine ⟨namedImplementation_ok (fun r hr => (Registry.implementation_mem hr).1) h, ?_⟩
        intro _ hImplementation
        rw [hImplementation] at hNamed
        cases hNamed
    · split at h
      · next text hNamed =>
          obtain ⟨found, hFound, h⟩ := bind_eq_ok.1 h
          obtain ⟨row, hAvailable, h⟩ := bind_eq_ok.1 h
          cases pure_eq_ok.1 h
          have hFind := get_eq_ok.1 hFound
          refine ⟨onRecord_of_available (List.mem_of_find?_eq_some hFind) hAvailable, ?_⟩
          intro _ _ _ hash hHash
          have hText : text = hash := by
            have hGiven := (Option.filter_eq_some_iff.1 hNamed).1
            rw [hHash] at hGiven
            cases hGiven
            rfl
          have hBoth := List.find?_some hFind
          simp only [Bool.and_eq_true, decide_eq_true_eq] at hBoth
          exact hBoth.1.trans hText
      · split at h
        · next agent _ hAgent _ =>
            obtain ⟨id, -, h⟩ := bind_eq_ok.1 h
            refine ⟨namedImplementation_ok (fun r hr => List.mem_of_find?_eq_some hr) h, ?_⟩
            intro _ _ hNoAgent
            rw [hNoAgent] at hAgent
            cases hAgent
        · cases h

theorem resolveDependencyTarget_ok {ctx : Context} {snapshotOf : Int → Option (Option Tree)}
    {parent : Option String} {dependency : String} {method : Option String} {draw : Nat}
    {action : ActionRow} {implementation : ImplementationRow} {nested : Tree}
    (h : resolveDependencyTarget ctx snapshotOf parent dependency method draw =
      .ok (action, implementation, nested)) : OnRecord ctx.db action implementation := by
  unfold resolveDependencyTarget at h
  split at h
  · cases h
  · split at h
    · cases h
    · obtain ⟨task, -, h⟩ := bind_eq_ok.1 h
      obtain ⟨stored, -, h⟩ := bind_eq_ok.1 h
      dsimp only at h
      split at h
      · cases h
      · split at h
        · cases h
        · split at h
          · cases h
          · obtain ⟨row, hRow, h⟩ := bind_eq_ok.1 h
            obtain ⟨found, hAction, h⟩ := bind_eq_ok.1 h
            cases pure_eq_ok.1 h
            have hMem := (Registry.implementation_mem (get_eq_ok.1 hRow)).1
            exact onRecord_of_actionOf hMem (get_eq_ok.1 hAction)

theorem resolveTarget_ok {action : ActionRow} {implementation : ImplementationRow}
    {frozen : Option Tree}
    (h : resolveTarget env db input organization = .ok (action, implementation, frozen)) :
    OnRecord db.registry action implementation ∧
      (input.dependency = none → input.action = none → input.implementation = none →
        input.agent = none → ∀ hash, input.actionHash = some hash → action.hash = hash) := by
  unfold resolveTarget at h
  split at h
  · next text hNamed =>
      obtain ⟨⟨found, row, nested⟩, hTarget, h⟩ := bind_eq_ok.1 h
      cases pure_eq_ok.1 h
      refine ⟨resolveDependencyTarget_ok hTarget, ?_⟩
      intro hDependency
      rw [hDependency] at hNamed
      cases hNamed
  · obtain ⟨⟨found, row⟩, hTarget, h⟩ := bind_eq_ok.1 h
    cases pure_eq_ok.1 h
    obtain ⟨hRecord, hHash⟩ := resolveDirectTarget_ok hTarget
    exact ⟨hRecord, fun _ => hHash⟩

/-! ## The checks -/

theorem rootAndPolicy_ok {parent root : Option Int} {policy : Policy}
    (h : rootAndPolicy db input parent = .ok (root, policy)) :
    ∀ p, parent = some p → ∃ row, db.task p = some row := by
  rintro p rfl
  unfold rootAndPolicy at h
  obtain ⟨row, hRow, -⟩ := bind_eq_ok.1 h
  exact ⟨row, get_eq_ok.1 hRow⟩

/-- What holds of a request that passed the checks. -/
structure Admits (db : Database) (input : AssignInput) (a : Admitted) : Prop where
  onRecord : OnRecord db.registry a.action a.implementation
  byHash : input.dependency = none → input.action = none → input.implementation = none →
    input.agent = none → ∀ hash, input.actionHash = some hash → a.action.hash = hash
  parent : parseParent input = .ok a.parent
  parentExists : ∀ p, a.parent = some p → ∃ row, db.task p = some row
  hooks : (!a.delayed && !a.held) = false → input.hooks.getD [] = []
  stateRequires : a.implementation.higherOrderFor.isSome = true →
    input.stateRequires.getD [] = []

theorem admission_ok {a : Admitted} (h : admission env db input organization = .ok a) :
    Admits db input a := by
  unfold admission at h
  obtain ⟨⟨action, implementation, frozen⟩, hTarget, h⟩ := bind_eq_ok.1 h
  dsimp only at h
  obtain ⟨_, -, h⟩ := bind_eq_ok.1 h
  obtain ⟨_, hStates, h⟩ := bind_eq_ok.1 h
  obtain ⟨_, -, h⟩ := bind_eq_ok.1 h
  obtain ⟨parent, hParent, h⟩ := bind_eq_ok.1 h
  obtain ⟨⟨root, policy⟩, hRoot, h⟩ := bind_eq_ok.1 h
  dsimp only at h
  obtain ⟨_, -, h⟩ := bind_eq_ok.1 h
  obtain ⟨_, hDelayed, h⟩ := bind_eq_ok.1 h
  obtain ⟨_, hHeld, h⟩ := bind_eq_ok.1 h
  cases pure_eq_ok.1 h
  obtain ⟨hRecord, hHash⟩ := resolveTarget_ok hTarget
  have hNoDelayedHooks := refuseIf_eq_ok.1 hDelayed
  have hNoHeldHooks := refuseIf_eq_ok.1 hHeld
  have hNoStates := refuseIf_eq_ok.1 hStates
  refine ⟨hRecord, hHash, hParent, rootAndPolicy_ok hRoot, ?_, ?_⟩
  · intro hWaits
    dsimp only at hWaits
    cases hHooks : input.hooks.getD [] with
    | nil => rfl
    | cons hook rest =>
        rw [hHooks] at hNoDelayedHooks hNoHeldHooks
        simp only [List.isEmpty_cons, Bool.not_false, Bool.and_true] at hNoDelayedHooks hNoHeldHooks
        rw [hNoDelayedHooks, hNoHeldHooks] at hWaits
        cases hWaits
  · intro hHigher
    dsimp only at hHigher
    simpa [hHigher] using hNoStates

/-! ## What is prepared -/

/-- What is prepared for an agent's task. -/
theorem prepare_plain {new : NewTask} {action : ActionRow} {implementation : ImplementationRow}
    {goesOut : Bool}
    (h : prepare env db principal input organization caller resolution uuids =
      .ok (.plain new action implementation goesOut)) :
    ∃ a dependencies, Admits db input a ∧
      new = plainTask env input caller uuids a resolution dependencies ∧
      action = a.action ∧ implementation = a.implementation ∧
      goesOut = (!a.delayed && !a.held) := by
  unfold prepare at h
  obtain ⟨a, hAdmit, h⟩ := bind_eq_ok.1 h
  split at h
  · obtain ⟨_, -, h⟩ := bind_eq_ok.1 h
    unfold prepareHigherOrder at h
    obtain ⟨_, -, h⟩ := bind_eq_ok.1 h
    obtain ⟨_, -, h⟩ := bind_eq_ok.1 h
    obtain ⟨_, -, h⟩ := bind_eq_ok.1 h
    obtain ⟨_, -, h⟩ := bind_eq_ok.1 h
    obtain ⟨_, -, h⟩ := bind_eq_ok.1 h
    obtain ⟨_, -, h⟩ := bind_eq_ok.1 h
    obtain ⟨_, -, h⟩ := bind_eq_ok.1 h
    cases pure_eq_ok.1 h
  · obtain ⟨dependencies, -, h⟩ := bind_eq_ok.1 h
    cases pure_eq_ok.1 h
    exact ⟨a, dependencies, admission_ok hAdmit, rfl, rfl, rfl, rfl⟩

/-- What is prepared for a higher-order assign. -/
theorem prepare_wrapper {new child : NewTask} {lower : ImplementationRow}
    {lowerAction : ActionRow} {held : Bool}
    (h : prepare env db principal input organization caller resolution uuids =
      .ok (.wrapper new child lower lowerAction held)) :
    ∃ a dependencies lowerArgs lowerDependencies, Admits db input a ∧
      new = wrapperTask env input caller uuids a a.action dependencies ∧
      child = lowerTask env input caller uuids a lower lowerAction lowerArgs lowerDependencies ∧
      OnRecord db.registry lowerAction lower ∧ held = a.held ∧
      input.stateRequires.getD [] = [] := by
  unfold prepare at h
  obtain ⟨a, hAdmit, h⟩ := bind_eq_ok.1 h
  have hAdmits := admission_ok hAdmit
  split at h
  · next hHigher =>
      obtain ⟨_, -, h⟩ := bind_eq_ok.1 h
      unfold prepareHigherOrder at h
      obtain ⟨lower', hLower, h⟩ := bind_eq_ok.1 h
      obtain ⟨lowerAction', hLowerAction, h⟩ := bind_eq_ok.1 h
      obtain ⟨higherAction, hHigherAction, h⟩ := bind_eq_ok.1 h
      obtain ⟨_, -, h⟩ := bind_eq_ok.1 h
      obtain ⟨dependencies, -, h⟩ := bind_eq_ok.1 h
      obtain ⟨lowerArgs, -, h⟩ := bind_eq_ok.1 h
      obtain ⟨lowerDependencies, -, h⟩ := bind_eq_ok.1 h
      cases pure_eq_ok.1 h
      have hOn := hAdmits.onRecord.actionOf
      rw [get_eq_ok.1 hHigherAction] at hOn
      cases hOn
      obtain ⟨id, -, hRow⟩ := Option.bind_eq_some_iff.1 (get_eq_ok.1 hLower)
      have hMem := (Registry.implementation_mem hRow).1
      exact ⟨a, dependencies, lowerArgs, lowerDependencies, hAdmits, rfl, rfl,
        onRecord_of_actionOf hMem (get_eq_ok.1 hLowerAction), rfl, hAdmits.stateRequires hHigher⟩
  · obtain ⟨_, -, h⟩ := bind_eq_ok.1 h
    cases pure_eq_ok.1 h

end Rekuest.Backend
