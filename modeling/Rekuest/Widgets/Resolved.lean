import Rekuest.Ports.Accepted
import Rekuest.Widgets.References

/-!
# What an accepted definition depends on

The second walk lists what every port depends on, from the root ports down through their
children and the fallbacks of their widgets.  A reference outside of every filter is of a
place the walk comes to, so what it depends on is the path of a port; a reference inside
one resolves exactly where it happens to name a port.
-/

namespace Rekuest.Widgets

open Rekuest.Ports Rekuest.Inputs Rekuest.Bloks

/-! ## A reference knows the filters it stands in -/

section Within

theorem call_within {filters : List (List ArgPort)} {extra_roots dependencies : List String}
    {call : UtilCall} {r : Reference} (hr : r ∈ call_references filters extra_roots dependencies call) :
    r.filters = filters ∧ r.dependencies = dependencies := by
  obtain ⟨root, -, rfl⟩ := List.mem_map.1 hr
  exact ⟨rfl, rfl⟩

theorem prop_within {filters : List (List ArgPort)} {dependencies : List String} {prop : ComponentProp}
    {r : Reference} (hr : r ∈ prop_references filters dependencies prop) :
    r.filters = filters ∧ r.dependencies = dependencies := by
  obtain ⟨root, -, rfl⟩ := List.mem_map.1 hr
  exact ⟨rfl, rfl⟩

theorem props_within {filters : List (List ArgPort)} {dependencies : List String}
    {props : List ComponentProp} {r : Reference}
    (hr : r ∈ props.flatMap (prop_references filters dependencies)) :
    r.filters = filters ∧ r.dependencies = dependencies := by
  obtain ⟨prop, -, hr⟩ := List.mem_flatMap.1 hr
  exact prop_within hr

theorem tree_within_of_each {filters : List (List ArgPort)} {dependencies declared : List String}
    {nodes : List ComponentNode} {r : Reference}
    (hEach : ∀ node ∈ nodes, ∀ declared, r ∈ node_references filters dependencies declared node →
      r.filters = filters ∧ r.dependencies = dependencies)
    (hr : r ∈ tree_references filters dependencies declared nodes) :
    r.filters = filters ∧ r.dependencies = dependencies := by
  induction nodes with
  | nil => cases hr
  | cons node rest ih =>
      rw [tree_references] at hr
      cases List.mem_append.1 hr with
      | inl hr => exact hEach node (by simp) declared hr
      | inr hr => exact ih (fun other hOther => hEach other (List.mem_cons_of_mem _ hOther)) hr

theorem node_within {filters : List (List ArgPort)} {dependencies : List String} {r : Reference}
    (node : ComponentNode) : ∀ declared, r ∈ node_references filters dependencies declared node →
      r.filters = filters ∧ r.dependencies = dependencies := by
  induction node using ComponentNode.ind with
  | mk id component props children ih =>
      intro declared hr
      rw [node_references] at hr
      cases List.mem_append.1 hr with
      | inl hr =>
          obtain ⟨prop, -, hr⟩ := List.mem_flatMap.1 hr
          obtain ⟨root, -, rfl⟩ := List.mem_map.1 hr
          exact ⟨rfl, rfl⟩
      | inr hr => exact tree_within_of_each ih hr

theorem tree_within {filters : List (List ArgPort)} {dependencies declared : List String}
    {nodes : List ComponentNode} {r : Reference}
    (hr : r ∈ tree_references filters dependencies declared nodes) :
    r.filters = filters ∧ r.dependencies = dependencies :=
  tree_within_of_each (fun node _ => node_within node) hr

theorem state_within {filters : List (List ArgPort)} {dependencies : List String}
    {call : Option UtilCall} {r : Reference} (hr : r ∈ state_references filters dependencies call) :
    r.filters = filters ∧ r.dependencies = dependencies := by
  cases call with
  | none => cases hr
  | some call => exact call_within hr

/-- A widget's own references are of its dependencies; the others are its fallback's or stand
in a filter. -/
theorem widget_within (widget : AssignWidget) :
    ∀ filters, ∀ r ∈ widget_references filters widget,
      (∃ own ∈ widget.chain, r.filters = filters ∧ r.dependencies = own.dependencies) ∨
        ∃ follow query ward ports dependencies,
          AssignWidget.SEARCH follow query ward ports dependencies ∈ widget.chain ∧
            r ∈ ports_references (ports :: filters) ports := by
  refine (widgets_ind (P := fun widget => ∀ filters, ∀ r ∈ widget_references filters widget,
    (∃ own ∈ widget.chain, r.filters = filters ∧ r.dependencies = own.dependencies) ∨
      ∃ follow query ward ports dependencies,
        AssignWidget.SEARCH follow query ward ports dependencies ∈ widget.chain ∧
          r ∈ ports_references (ports :: filters) ports)
    (Q := fun _ => True) ?_ ?_ ?_ ?_).1 widget
  · intro widget hSearch hCustom filters r hr
    cases widget with
    | SEARCH follow query ward ports dependencies => exact (hSearch _ _ _ _ _ rfl).elim
    | CUSTOM follow component props children dependencies fallback => exact (hCustom _ _ _ _ _ _ rfl).elim
    | SLIDER follow min max step => cases hr
    | CHOICE follow => cases hr
    | STRING follow => cases hr
    | PROXY follow target_port target_action => cases hr
    | STATE_CHOICE follow state_path state_call state_accessors dependencies =>
        refine .inl ⟨_, List.mem_singleton.2 rfl, ?_⟩
        cases List.mem_append.1 hr with
        | inl hr => exact state_within hr
        | inr hr =>
            obtain ⟨accessor, -, hr⟩ := List.mem_flatMap.1 hr
            exact state_within hr
  · intro follow query ward ports dependencies _ filters r hr
    exact .inr ⟨follow, query, ward, ports, dependencies, List.mem_singleton.2 rfl, hr⟩
  · intro follow component props children dependencies fallback ih filters r hr
    rw [widget_references.eq_def] at hr
    simp only [List.mem_append] at hr
    have hSelf : AssignWidget.CUSTOM follow component props children dependencies fallback ∈
        (AssignWidget.CUSTOM follow component props children dependencies fallback).chain := by
      cases fallback with
      | none => exact List.mem_singleton.2 rfl
      | some next => exact List.mem_cons_self
    rcases hr with (hr | hr) | hr
    · exact .inl ⟨_, hSelf, props_within hr⟩
    · exact .inl ⟨_, hSelf, tree_within hr⟩
    · cases fallback with
      | none => cases hr
      | some next =>
          rcases ih next rfl filters r hr with ⟨own, hOwn, hWithin⟩ | ⟨_, _, _, _, _, hOwn, hPorts⟩
          · exact .inl ⟨own, List.mem_cons_of_mem _ hOwn, hWithin⟩
          · exact .inr ⟨_, _, _, _, _, List.mem_cons_of_mem _ hOwn, hPorts⟩
  · intro fields default effects validators widget requires children _ _
    trivial

theorem effects_within {filters : List (List ArgPort)} {effects : List EffectInputModel}
    {r : Reference} (hr : r ∈ effects.flatMap (effect_references filters)) :
    r.filters = filters ∧ ∃ effect ∈ effects, r.dependencies = effect.dependencies := by
  obtain ⟨effect, hEffect, hr⟩ := List.mem_flatMap.1 hr
  have hWithin := call_within hr
  exact ⟨hWithin.1, effect, hEffect, hWithin.2⟩

theorem validators_within {filters : List (List ArgPort)} {validators : List ValidatorInputModel}
    {r : Reference} (hr : r ∈ validators.flatMap (validator_references filters)) :
    r.filters = filters ∧ ∃ validator ∈ validators, r.dependencies = validator.dependencies := by
  obtain ⟨validator, hValidator, hr⟩ := List.mem_flatMap.1 hr
  have hWithin := call_within hr
  exact ⟨hWithin.1, validator, hValidator, hWithin.2⟩

theorem ports_within_of_each {ports : List ArgPort} {filters : List (List ArgPort)} {r : Reference}
    (hEach : ∀ port ∈ ports, ∀ filters, r ∈ port_references filters port → filters <:+ r.filters)
    (hr : r ∈ ports_references filters ports) : filters <:+ r.filters := by
  induction ports with
  | nil => cases hr
  | cons port rest ih =>
      rw [ports_references] at hr
      cases List.mem_append.1 hr with
      | inl hr => exact hEach port (by simp) filters hr
      | inr hr => exact ih (fun other hOther => hEach other (List.mem_cons_of_mem _ hOther)) hr

/-- A reference below a place stands in the filters the place stands in, and maybe in more. -/
theorem stays_within {r : Reference} :
    (∀ widget filters, r ∈ widget_references filters widget → filters <:+ r.filters) ∧
      ∀ port filters, r ∈ port_references filters port → filters <:+ r.filters := by
  refine widgets_ind ?_ ?_ ?_ ?_
  · intro widget hSearch hCustom filters hr
    rcases widget_within widget filters r hr with ⟨_, _, hWithin⟩ | ⟨_, _, _, _, _, hOwn, _⟩
    · rw [hWithin.1]
    · cases widget with
      | SEARCH follow query ward ports dependencies => exact (hSearch _ _ _ _ _ rfl).elim
      | CUSTOM follow component props children dependencies fallback => exact (hCustom _ _ _ _ _ _ rfl).elim
      | SLIDER follow min max step => cases hr
      | CHOICE follow => cases hr
      | STRING follow => cases hr
      | PROXY follow target_port target_action => cases hr
      | STATE_CHOICE follow state_path state_call state_accessors dependencies =>
          cases List.mem_singleton.1 hOwn
  · intro follow query ward ports dependencies ih filters hr
    have hPorts : (ports :: filters) <:+ r.filters := ports_within_of_each ih hr
    exact (List.suffix_cons ports filters).trans hPorts
  · intro follow component props children dependencies fallback ih filters hr
    rw [widget_references.eq_def] at hr
    simp only [List.mem_append] at hr
    rcases hr with (hr | hr) | hr
    · rw [(props_within hr).1]
    · rw [(tree_within hr).1]
    · cases fallback with
      | none => cases hr
      | some next => exact ih next rfl filters hr
  · intro fields default effects validators widget requires children hWidget hChildren filters hr
    rw [port_references.eq_def] at hr
    simp only [List.mem_append] at hr
    rcases hr with ((hr | hr) | hr) | hr
    · rw [(validators_within hr).1]
    · rw [(effects_within hr).1]
    · cases widget with
      | none => cases hr
      | some widget => exact hWidget widget rfl filters hr
    · exact ports_within_of_each hChildren hr

theorem inside_of_filters {ports : List ArgPort} {filters : List (List ArgPort)} {r : Reference}
    (hr : r ∈ ports_references (ports :: filters) ports) : r.filters ≠ [] := by
  intro hNone
  have hWithin := ports_within_of_each (fun port _ => stays_within.2 port) hr
  rw [hNone] at hWithin
  cases List.suffix_nil.1 hWithin

end Within

/-! ## Outside of filters, what is depended on is looked up -/

section LookedUp

theorem mem_named {owner dep : String} {dependencies : List String} (hDep : dep ∈ dependencies) :
    dep ∈ (named_dependencies owner dependencies).map (·.path) := by
  have hSame : (named_dependencies owner dependencies).map (·.path) = dependencies := by
    unfold named_dependencies
    rw [List.map_map]
    exact List.map_id' dependencies
  rw [hSame]
  exact hDep

theorem mem_effects {place dep : String} {effects : List EffectInputModel} {effect : EffectInputModel}
    (hEffect : effect ∈ effects) (hDep : dep ∈ effect.dependencies) :
    dep ∈ (effects_dependencies place effects).map (·.path) := by
  unfold effects_dependencies
  rw [List.map_flatMap]
  exact List.mem_flatMap.2 ⟨effect, hEffect, mem_named hDep⟩

theorem mem_validators {path dep : String} {validators : List ValidatorInputModel}
    {validator : ValidatorInputModel} (hValidator : validator ∈ validators)
    (hDep : dep ∈ validator.dependencies) :
    dep ∈ (validators_dependencies path validators).map (·.path) := by
  unfold validators_dependencies
  rw [List.map_flatMap]
  exact List.mem_flatMap.2 ⟨validator, hValidator, mem_named hDep⟩

theorem mem_chain {path dep : String} {widgets : List AssignWidget} {widget : AssignWidget}
    (hWidget : widget ∈ widgets) (hDep : dep ∈ widget.dependencies) (depth : Nat) :
    dep ∈ (chain_dependencies path depth widgets).map (·.path) := by
  induction widgets generalizing depth with
  | nil => cases hWidget
  | cons head rest ih =>
      rw [chain_dependencies, List.map_append, List.mem_append]
      cases hWidget with
      | head =>
          left
          unfold widget_dependencies
          rw [List.map_append, List.mem_append]
          exact .inl (mem_named hDep)
      | tail _ hRest => exact .inr (ih hRest (depth + 1))

theorem ports_looked_up_of_each {ports : List ArgPort} {r : Reference} {dep : String}
    (hEach : ∀ port ∈ ports, r ∈ port_references [] port → ∀ above,
      dep ∈ (dependencies_of arg_dependencies above port).map (·.path))
    (hr : r ∈ ports_references [] ports) (above : String) :
    dep ∈ (dependencies_in arg_dependencies above ports).map (·.path) := by
  induction ports with
  | nil => cases hr
  | cons port rest ih =>
      rw [ports_references] at hr
      rw [dependencies_in, List.map_append, List.mem_append]
      cases List.mem_append.1 hr with
      | inl hr => exact .inl (hEach port (by simp) hr above)
      | inr hr => exact .inr (ih (fun other hOther => hEach other (List.mem_cons_of_mem _ hOther)) hr)

/-- What an argument's reference outside of filters depends on is on the list of its port. -/
theorem port_looked_up {r : Reference} (hOutside : r.filters = []) {dep : String}
    (hDep : dep ∈ r.dependencies) (port : ArgPort) :
    r ∈ port_references [] port → ∀ above,
      dep ∈ (dependencies_of arg_dependencies above port).map (·.path) := by
  induction port using Port.ind with
  | mk fields own children ih =>
      rcases own with ⟨default, effects, validators, widget, requires⟩
      intro hr above
      rw [port_references.eq_def] at hr
      simp only [List.mem_append] at hr
      rw [dependencies_of, arg_dependencies]
      simp only [List.map_append, List.mem_append]
      rcases hr with ((hr | hr) | hr) | hr
      · obtain ⟨-, validator, hValidator, hSame⟩ := validators_within hr
        exact .inl (.inl (.inl (mem_validators hValidator (hSame ▸ hDep))))
      · obtain ⟨-, effect, hEffect, hSame⟩ := effects_within hr
        exact .inl (.inl (.inr (mem_effects hEffect (hSame ▸ hDep))))
      · cases widget with
        | none => cases hr
        | some widget =>
            rcases widget_within widget [] r hr with ⟨own, hOwn, -, hSame⟩ | ⟨_, _, _, ports, _, _, hIn⟩
            · exact .inl (.inr (mem_chain hOwn (hSame ▸ hDep) 0))
            · exact absurd hOutside (inside_of_filters hIn)
      · exact .inr (ports_looked_up_of_each ih hr _)

theorem args_looked_up {args : List ArgPort} {r : Reference} (hr : r ∈ ports_references [] args)
    (hOutside : r.filters = []) {dep : String} (hDep : dep ∈ r.dependencies) (above : String) :
    dep ∈ (dependencies_in arg_dependencies above args).map (·.path) :=
  ports_looked_up_of_each (fun port _ => port_looked_up hOutside hDep port) hr above

end LookedUp

/-! ## Returns and groups -/

section Returns

variable {env : Ports.Env}

theorem return_widget_allowed {sent widget : Option ReturnWidget}
    (h : validate_return_widget sent = .ok widget) : ∀ r ∈ return_widget_references widget, r.allowed := by
  cases sent with
  | none =>
      cases h
      intro r hr
      cases hr
  | some sent =>
      obtain ⟨kept, hKept, h⟩ := bind_ok h
      cases h
      cases sent with
      | CHOICE =>
          cases hKept
          intro r hr
          cases hr
      | CUSTOM component sent =>
          obtain ⟨props, _, hKept⟩ := bind_ok hKept
          obtain ⟨_, _, hKept⟩ := bind_ok hKept
          obtain ⟨_, hProps, hKept⟩ := bind_ok hKept
          cases hKept
          exact props_allowed hProps

theorem returns_allowed_of_each {sent returns : List ReturnPort}
    (hEach : ∀ p ∈ sent, ∀ port, validate_port env return_held (fun _ => .ok ()) p = .ok port →
      ∀ r ∈ return_references port, r.allowed)
    (h : validate_ports env return_held (fun _ => .ok ()) sent = .ok returns) :
    ∀ r ∈ returns_references returns, r.allowed := by
  induction sent generalizing returns with
  | nil =>
      cases h
      intro r hr
      cases hr
  | cons p rest ih =>
      rw [validate_ports] at h
      obtain ⟨port, hPort, h⟩ := bind_ok h
      obtain ⟨others, hOthers, h⟩ := bind_ok h
      cases h
      intro r hr
      rw [returns_references] at hr
      cases List.mem_append.1 hr with
      | inl hr => exact hEach p (by simp) port hPort r hr
      | inr hr => exact ih (fun q hq => hEach q (List.mem_cons_of_mem _ hq)) hOthers r hr

theorem return_allowed (sent : ReturnPort) :
    ∀ port, validate_port env return_held (fun _ => .ok ()) sent = .ok port →
      ∀ r ∈ return_references port, r.allowed := by
  induction sent using Port.ind with
  | mk fields own sent ih =>
      intro port h
      rw [validate_port] at h
      obtain ⟨children, hChildren, h⟩ := bind_ok h
      obtain ⟨held, hOwn, h⟩ := bind_ok h
      obtain ⟨settled, hSettled, h⟩ := bind_ok h
      obtain ⟨_, _, h⟩ := bind_ok h
      obtain ⟨_, _, h⟩ := bind_ok h
      obtain ⟨_, _, h⟩ := bind_ok h
      cases h
      obtain ⟨widget, hWidget, hOwn⟩ := bind_ok hOwn
      obtain ⟨_, _, hOwn⟩ := bind_ok hOwn
      cases hOwn
      obtain ⟨effects, hEffects, hSettled⟩ := bind_ok hSettled
      cases hSettled
      intro r hr
      rw [return_references] at hr
      simp only [List.mem_append] at hr
      rcases hr with (hr | hr) | hr
      · exact effects_allowed hEffects r hr
      · exact return_widget_allowed hWidget r hr
      · exact returns_allowed_of_each ih hChildren r hr

theorem returns_allowed {sent returns : List ReturnPort}
    (h : validate_ports env return_held (fun _ => .ok ()) sent = .ok returns) :
    ∀ r ∈ returns_references returns, r.allowed :=
  returns_allowed_of_each (fun p _ => return_allowed p) h

theorem returns_looked_up_of_each {returns : List ReturnPort} {r : Reference} {dep : String}
    (hEach : ∀ port ∈ returns, r ∈ return_references port → ∀ above,
      dep ∈ (dependencies_of return_dependencies above port).map (·.path))
    (hr : r ∈ returns_references returns) (above : String) :
    dep ∈ (dependencies_in return_dependencies above returns).map (·.path) := by
  induction returns with
  | nil => cases hr
  | cons port rest ih =>
      rw [returns_references] at hr
      rw [dependencies_in, List.map_append, List.mem_append]
      cases List.mem_append.1 hr with
      | inl hr => exact .inl (hEach port (by simp) hr above)
      | inr hr => exact .inr (ih (fun other hOther => hEach other (List.mem_cons_of_mem _ hOther)) hr)

/-- A return's reference is of an effect, whose dependencies are listed, or has none. -/
theorem return_looked_up {r : Reference} {dep : String} (hDep : dep ∈ r.dependencies)
    (port : ReturnPort) : r ∈ return_references port → ∀ above,
      dep ∈ (dependencies_of return_dependencies above port).map (·.path) := by
  induction port using Port.ind with
  | mk fields own children ih =>
      intro hr above
      rw [return_references] at hr
      simp only [List.mem_append] at hr
      rw [dependencies_of, List.map_append, List.mem_append]
      rcases hr with (hr | hr) | hr
      · obtain ⟨-, effect, hEffect, hSame⟩ := effects_within hr
        exact .inl (mem_effects hEffect (hSame ▸ hDep))
      · cases hWidget : own.rest.widget with
        | none =>
            rw [hWidget] at hr
            cases hr
        | some widget =>
            rw [hWidget] at hr
            cases widget with
            | CHOICE => cases hr
            | CUSTOM component props =>
                rw [(props_within hr).2] at hDep
                cases hDep
      · exact .inr (returns_looked_up_of_each ih hr _)

theorem returns_looked_up {returns : List ReturnPort} {r : Reference}
    (hr : r ∈ returns_references returns) {dep : String} (hDep : dep ∈ r.dependencies) (above : String) :
    dep ∈ (dependencies_in return_dependencies above returns).map (·.path) :=
  returns_looked_up_of_each (fun port _ => return_looked_up hDep port) hr above

end Returns

/-! ## The definition -/

section Definition

variable {D : Type} {outside : Outside} {definition : D → Except ValidationError D}

theorem resolved_of_check {d : Definition D} {dependencies : List Dependency}
    (h : d.check_resolvable dependencies = .ok ()) :
    ∀ path ∈ dependencies.map (·.path), resolve_port_path path d.args d.returns = true := by
  induction dependencies with
  | nil =>
      intro path hPath
      cases hPath
  | cons dependency rest ih =>
      rw [DefinitionInputModel.check_resolvable] at h
      by_cases hResolved : resolve_port_path dependency.path d.args d.returns = true
      · rw [hResolved] at h
        exact List.forall_mem_cons.2 ⟨hResolved, ih h⟩
      · rw [Bool.not_eq_true] at hResolved
        rw [hResolved] at h
        cases h

theorem groups_allowed {rules : Rules ArgRest ReturnRest (List EffectInputModel) D}
    (hRules : rules.group = validate_group) {sent groups : List (PortGroup (List EffectInputModel))}
    (h : validate_groups rules sent = .ok groups) :
    ∀ r ∈ groups.flatMap (fun group => group.rest.flatMap (effect_references [])), r.allowed := by
  induction sent generalizing groups with
  | nil =>
      cases h
      intro r hr
      cases hr
  | cons group rest ih =>
      rw [validate_groups] at h
      obtain ⟨kept, hKept, h⟩ := bind_ok h
      obtain ⟨others, hOthers, h⟩ := bind_ok h
      cases h
      rw [hRules] at hKept
      obtain ⟨effects, hEffects, hKept⟩ := bind_ok hKept
      obtain ⟨_, _, hKept⟩ := bind_ok hKept
      cases hKept
      intro r hr
      rw [List.flatMap_cons] at hr
      cases List.mem_append.1 hr with
      | inl hr => exact effects_allowed hEffects r hr
      | inr hr => exact ih hOthers r hr

/-- What acceptance leaves: each reference reads what its place allows, and outside of filters
it depends on ports only. -/
theorem of_accepted {sent d : Definition D}
    (h : sent.validate outside.toEnv (rules outside definition) = .ok d) :
    ∀ r ∈ references d, r.allowed ∧ (r.filters = [] → ∀ dep ∈ r.dependencies,
      resolve_port_path dep d.args d.returns = true) := by
  unfold DefinitionInputModel.validate at h
  obtain ⟨groups, hGroups, h⟩ := bind_ok h
  obtain ⟨args, hArgs, h⟩ := bind_ok h
  obtain ⟨returns, hReturns, h⟩ := bind_ok h
  obtain ⟨rest, _, h⟩ := bind_ok h
  obtain ⟨_, _, h⟩ := bind_ok h
  obtain ⟨_, _, h⟩ := bind_ok h
  obtain ⟨_, _, h⟩ := bind_ok h
  obtain ⟨_, hDependencies, h⟩ := bind_ok h
  cases h
  have hResolved := resolved_of_check hDependencies
  simp only [List.map_append, List.mem_append] at hResolved
  intro r hr
  unfold references at hr
  simp only [List.mem_append] at hr
  rcases hr with (hr | hr) | hr
  · refine ⟨args_allowed hArgs r hr, ?_⟩
    intro hOutside dep hDep
    exact hResolved dep (.inl (.inl (args_looked_up hr hOutside hDep "")))
  · refine ⟨returns_allowed hReturns r hr, ?_⟩
    intro _ dep hDep
    exact hResolved dep (.inl (.inr (returns_looked_up hr hDep "")))
  · refine ⟨groups_allowed rfl hGroups r hr, ?_⟩
    intro _ dep hDep
    obtain ⟨group, hGroup, hr⟩ := List.mem_flatMap.1 hr
    obtain ⟨-, effect, hEffect, hSame⟩ := effects_within hr
    refine hResolved dep (.inr ?_)
    rw [List.map_flatMap]
    exact List.mem_flatMap.2 ⟨group, hGroup, mem_effects hEffect (hSame ▸ hDep)⟩

theorem resolves_of_found {d : Definition D} {r : Reference} (hAllowed : r.allowed)
    (hFound : r.depends → r.found d) : r.resolves d := by
  by_cases hValue : r.root = "value"
  · exact .inl hValue
  · by_cases hExtra : r.root ∈ r.extra_roots
    · exact .inr (.inl hExtra)
    · by_cases hDeclared : r.root ∈ r.declared
      · exact .inr (.inr (.inl hDeclared))
      · have hDependency : r.root ∈ r.dependencies := by
          rcases hAllowed with h | h | h | h
          · exact absurd h hValue
          · exact absurd h hExtra
          · exact absurd h hDeclared
          · exact h
        exact .inr (.inr (.inr ⟨hDependency, hFound ⟨hValue, hExtra, hDeclared⟩⟩))

/-- In a definition that is accepted, every reference resolves if and only if every one in the
filters of a search that needs a port has one in scope. -/
theorem references_resolve_iff {sent d : Definition D}
    (h : sent.validate outside.toEnv (rules outside definition) = .ok d) :
    (∀ r ∈ references d, r.resolves d) ↔
      ∀ r ∈ references d, r.filters ≠ [] → r.depends → r.found d := by
  constructor
  · intro hResolves r hr _ hDepends
    rcases hResolves r hr with hValue | hExtra | hDeclared | ⟨_, hFound⟩
    · exact absurd hValue hDepends.1
    · exact absurd hExtra hDepends.2.1
    · exact absurd hDeclared hDepends.2.2
    · exact hFound
  · intro hFilters r hr
    obtain ⟨hAllowed, hLooked⟩ := of_accepted h r hr
    by_cases hOutside : r.filters = []
    · refine resolves_of_found hAllowed fun hDepends => .inl (hLooked hOutside _ ?_)
      rcases hAllowed with hValue | hExtra | hDeclared | hDependency
      · exact absurd hValue hDepends.1
      · exact absurd hExtra hDepends.2.1
      · exact absurd hDeclared hDepends.2.2
      · exact hDependency
    · exact resolves_of_found hAllowed (hFilters r hr hOutside)

end Definition

/-! ## A filter that depends on a port -/

/-- A query of the variables a search declares and of the one filter below. -/
def find_images : String :=
  "query Find($search: String, $values: [ID!], $shown: String) { options { value label } }"

def of_images : Outside where
  float_repr _ := ""
  is_iso_date _ := false
  dimensionality_of unit := .ok unit
  as_f64 _ := 0
  search_query_variables query :=
    if query = find_images then .ok ["search", "values", "shown"] else .error "SEARCH widget query does not parse"

/-- The filter of a search: a string, held against what it depends on. -/
def shown (dependency : String) : ArgPort :=
  .mk { key := "shown", kind := .STRING }
    ⟨none, .mk [] [{
      call := .mk "is_equal" [.mk (some "other") none (some dependency) none none none none]
      dependencies := [dependency] }] none []⟩ []

/-- A definition that takes an image, found by a search. -/
def finds (dependency : String) : Definition Unit where
  key := "finds"
  port_groups := []
  args := [.mk { key := "image", kind := .STRUCTURE, identifier := some "@mikro/image" }
    ⟨none, .mk [] [] (some (.SEARCH none find_images "mikro" [shown dependency] [])) []⟩ []]
  returns := []
  protocols := []
  rest := ()

theorem finds_by_port :
    (∀ r ∈ references (finds "image"), r.resolves (finds "image")) ↔
      ∀ r ∈ references (finds "image"), r.filters ≠ [] → r.depends → r.found (finds "image") := by
  have hAccepted : (finds "image").validate of_images.toEnv (rules of_images .ok) = .ok (finds "image") := rfl
  exact references_resolve_iff hAccepted

/-- A filter is accepted that depends on a port which is nowhere. -/
theorem finds_by_nothing :
    ¬ ∀ (outside : Outside) (sent d : Definition Unit),
      sent.validate outside.toEnv (rules outside .ok) = .ok d → ∀ r ∈ references d, r.resolves d := by
  intro hAll
  have hAccepted : (finds "nope").validate of_images.toEnv (rules of_images .ok) = .ok (finds "nope") := rfl
  have hReference : (⟨"nope", [], [], ["nope"], [[shown "nope"]]⟩ : Reference) ∈ references (finds "nope") :=
    List.mem_cons_self
  have hResolves := hAll of_images _ _ hAccepted _ hReference
  rcases hResolves with hValue | hExtra | hDeclared | ⟨_, hArgs | ⟨ports, hPorts, hFilters⟩⟩
  · revert hValue
    decide
  · cases hExtra
  · cases hDeclared
  · revert hArgs
    decide
  · cases List.mem_singleton.1 hPorts
    revert hFilters
    decide

end Rekuest.Widgets
