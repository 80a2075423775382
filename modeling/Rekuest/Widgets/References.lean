import Rekuest.Widgets.Widget

/-!
# Every reference of a definition resolves

A reference is a path in a call, in a prop or in a node of a tree, with what its place
allows it to read.  Two walks hold it: where it is written, its root must be one that the
place allows, and from the definition's root ports every dependency must be the path of a
port.  The first walk enters the filters of a search and the second does not: what is
depended on inside a filter is never looked up.
-/

namespace Rekuest.Widgets

open Rekuest.Ports Rekuest.Inputs Rekuest.Bloks

/-! ## References and their places -/

/-- The root of a path, the roots its place allows beside the port's value, the values that
nodes of its tree declare for it, the dependencies listed where it stands, and the filters
it stands in, the innermost first. -/
structure Reference where
  root : String
  extra_roots : List String
  declared : List String
  dependencies : List String
  filters : List (List ArgPort)

section Places

variable (filters : List (List ArgPort))

def call_references (extra_roots dependencies : List String) (call : UtilCall) : List Reference :=
  (arguments_roots value_path_root call.arguments).map fun root =>
    { root, extra_roots, declared := [], dependencies, filters }

def effect_references (effect : EffectInputModel) : List Reference :=
  call_references filters [] effect.dependencies effect.call

def validator_references (validator : ValidatorInputModel) : List Reference :=
  call_references filters [] validator.dependencies validator.call

def prop_references (dependencies : List String) (prop : ComponentProp) : List Reference :=
  (prop_roots value_path_root prop).map fun root =>
    { root, extra_roots := [], declared := [], dependencies, filters }

mutual

/-- A node's own props, under what it and the nodes above it declare, and the nodes below. -/
def node_references (dependencies declared : List String) : ComponentNode → List Reference
  | .mk _ _ props children =>
      props.flatMap (fun prop => (prop_roots blok_path_root prop).map fun root =>
        { root, extra_roots := [], declared := declared ++ declares props, dependencies, filters }) ++
        tree_references dependencies (declared ++ declares props) children

def tree_references (dependencies declared : List String) : List ComponentNode → List Reference
  | [] => []
  | node :: rest =>
      node_references dependencies declared node ++ tree_references dependencies declared rest

end

def state_references (dependencies : List String) : Option UtilCall → List Reference
  | none => []
  | some call => call_references filters ["state"] dependencies call

end Places

mutual

def widget_references (filters : List (List ArgPort)) : AssignWidget → List Reference
  | .SLIDER .. => []
  | .CHOICE .. => []
  | .STRING .. => []
  | .SEARCH _ _ _ ports _ => ports_references (ports :: filters) ports
  | .CUSTOM _ _ props children dependencies fallback =>
      props.flatMap (prop_references filters dependencies) ++
        tree_references filters dependencies (declares props) children ++
        (match fallback with
          | some widget => widget_references filters widget
          | none => [])
  | .STATE_CHOICE _ _ state_call state_accessors dependencies =>
      state_references filters dependencies state_call ++
        state_accessors.flatMap fun accessor => state_references filters dependencies accessor.call
  | .PROXY .. => []

def port_references (filters : List (List ArgPort)) : ArgPort → List Reference
  | .mk _ ⟨_, .mk effects validators widget _⟩ children =>
      validators.flatMap (validator_references filters) ++ effects.flatMap (effect_references filters) ++
        (match widget with
          | some widget => widget_references filters widget
          | none => []) ++
        ports_references filters children

def ports_references (filters : List (List ArgPort)) : List ArgPort → List Reference
  | [] => []
  | port :: rest => port_references filters port ++ ports_references filters rest

end

def return_widget_references : Option ReturnWidget → List Reference
  | some (.CUSTOM _ props) => props.flatMap (prop_references [] [])
  | _ => []

mutual

def return_references : ReturnPort → List Reference
  | .mk _ ⟨rest⟩ children =>
      rest.effects.flatMap (effect_references []) ++ return_widget_references rest.widget ++
        returns_references children

def returns_references : List ReturnPort → List Reference
  | [] => []
  | port :: rest => return_references port ++ returns_references rest

end

/-- A definition, with what else it carries (`D`). -/
abbrev Definition (D : Type) := DefinitionInputModel ArgRest ReturnRest (List EffectInputModel) D

section Definition

variable {D : Type}

/-- Every reference of a definition: in its arguments, its returns and its port groups. -/
def references (d : Definition D) : List Reference :=
  ports_references [] d.args ++ returns_references d.returns ++
    d.port_groups.flatMap fun group => group.rest.flatMap (effect_references [])

/-- A dependency that resolves to a port in scope: one of the definition, or one of the
filters it stands in. -/
def Reference.found (r : Reference) (d : Definition D) : Prop :=
  resolve_port_path r.root d.args d.returns = true ∨
    ∃ ports ∈ r.filters, resolve_port_path r.root ports ([] : List ReturnPort) = true

/-- The root is none of those that need no port. -/
def Reference.depends (r : Reference) : Prop :=
  r.root ≠ "value" ∧ r.root ∉ r.extra_roots ∧ r.root ∉ r.declared

/-- The port's value, a root the place allows, a value declared above, or a dependency that
resolves to a port in scope. -/
def Reference.resolves (r : Reference) (d : Definition D) : Prop :=
  r.root = "value" ∨ r.root ∈ r.extra_roots ∨ r.root ∈ r.declared ∨
    (r.root ∈ r.dependencies ∧ r.found d)

end Definition

/-! ## The rules of a definition -/

section Rules

/-- A list of dependencies, refused under the owner's name. -/
def named_dependencies (owner : String) (dependencies : List String) : List Dependency :=
  dependencies.map fun path => ⟨path, owner ++ " has invalid dependency: " ++ path⟩

def effects_dependencies (place : String) (effects : List EffectInputModel) : List Dependency :=
  effects.flatMap fun effect =>
    named_dependencies ("Effect " ++ effect.kind.value ++ " (" ++ effect.call.operation ++ ") in " ++ place)
      effect.dependencies

def validators_dependencies (path : String) (validators : List ValidatorInputModel) : List Dependency :=
  validators.flatMap fun validator =>
    named_dependencies ("Validator " ++ validator.name ++ " in port " ++ path) validator.dependencies

/-- A widget of a chain: what it depends on and the port it follows. -/
def widget_dependencies (path : String) (widget : AssignWidget) (depth : Nat) : List Dependency :=
  let owner := "Widget " ++ widget.kind ++ " in port " ++ path ++
    (if depth > 0 then " (fallback " ++ toString depth ++ ")" else "")
  named_dependencies owner widget.dependencies ++
    (widget.follow_value.map fun follow =>
      ⟨follow, owner ++ " follows an unknown port: " ++ follow⟩).toList

def chain_dependencies (path : String) (depth : Nat) : List AssignWidget → List Dependency
  | [] => []
  | widget :: rest => widget_dependencies path widget depth ++ chain_dependencies path (depth + 1) rest

def arg_dependencies (path : String) (own : ArgOwn ArgRest) : List Dependency :=
  validators_dependencies path own.rest.validators ++
    effects_dependencies ("port " ++ path) own.rest.effects ++
    (match own.rest.widget with
      | some widget => chain_dependencies path 0 widget.chain
      | none => [])

def return_dependencies (path : String) (own : ReturnOwn ReturnRest) : List Dependency :=
  effects_dependencies ("port " ++ path) own.rest.effects

def group_dependencies (group : PortGroup (List EffectInputModel)) : List Dependency :=
  effects_dependencies ("port group " ++ group.key) group.rest

def validate_group (group : PortGroup (List EffectInputModel)) :
    Except ValidationError (PortGroup (List EffectInputModel)) := do
  let rest ← validate_each EffectInputModel.validate group.rest
  min_length group.key "key"
  return { group with rest }

/-- The rules by which a definition is checked; those of its test targets and bloks are
`definition`. -/
def rules {D : Type} (outside : Outside) (definition : D → Except ValidationError D) :
    Rules ArgRest ReturnRest (List EffectInputModel) D where
  arg := arg_held outside
  ret := return_held
  group := validate_group
  definition := definition
  arg_dependencies := arg_dependencies
  return_dependencies := return_dependencies
  group_dependencies := group_dependencies

end Rules

/-! ## The filters are checked as the arguments are -/

section Agreement

variable {outside : Outside}

theorem validate_filters_of_each {ports : List ArgPort}
    (hEach : ∀ port ∈ ports, validate_filter outside port =
      validate_port outside.toEnv (arg_held outside) (check_arg_default outside.toEnv) port) :
    validate_filters outside ports =
      validate_ports outside.toEnv (arg_held outside) (check_arg_default outside.toEnv) ports := by
  induction ports with
  | nil => rfl
  | cons port rest ih =>
      rw [validate_filters, validate_ports, hEach port (by simp),
        ih fun other hOther => hEach other (List.mem_cons_of_mem _ hOther)]

theorem validate_filter_eq (port : ArgPort) : validate_filter outside port =
    validate_port outside.toEnv (arg_held outside) (check_arg_default outside.toEnv) port := by
  induction port using Port.ind with
  | mk fields own children ih =>
      rcases own with ⟨default, effects, validators, widget, requires⟩
      rw [validate_filter.eq_def, validate_port.eq_def]
      dsimp only
      rw [validate_filters_of_each ih]
      cases widget with
      | none => simp only [arg_held, validate_arg_own, validate_arg_effects, validate_optional_widget,
          settle_port, bind_assoc, pure_bind]
      | some widget => simp only [arg_held, validate_arg_own, validate_arg_effects,
          validate_optional_widget, settle_port, bind_assoc, pure_bind]

theorem validate_filters_eq (ports : List ArgPort) : validate_filters outside ports =
    validate_ports outside.toEnv (arg_held outside) (check_arg_default outside.toEnv) ports :=
  validate_filters_of_each fun port _ => validate_filter_eq port

end Agreement

/-! ## What is accepted reads what its place allows -/

def Reference.allowed (r : Reference) : Prop :=
  r.root = "value" ∨ r.root ∈ r.extra_roots ∨ r.root ∈ r.declared ∨ r.root ∈ r.dependencies

section Allowed

variable {filters : List (List ArgPort)}

theorem allows_iff {dependencies extra_roots : List String} {root : String} :
    allows dependencies extra_roots root = true ↔
      root = "value" ∨ root ∈ extra_roots ∨ root ∈ dependencies := by
  simp [allows, or_assoc]

theorem call_allowed {extra_roots dependencies : List String} {call : UtilCall} {owner : String}
    (h : check_pure_call call dependencies owner extra_roots = .ok ()) :
    ∀ r ∈ call_references filters extra_roots dependencies call, r.allowed := by
  intro r hr
  obtain ⟨root, hRoot, rfl⟩ := List.mem_map.1 hr
  have hAllowed := allows_iff.1 (allowed_of_arguments h root hRoot)
  rcases hAllowed with hValue | hExtra | hDependency
  · exact .inl hValue
  · exact .inr (.inl hExtra)
  · exact .inr (.inr (.inr hDependency))

theorem effect_allowed {sent effect : EffectInputModel} (h : sent.validate = .ok effect) :
    ∀ r ∈ effect_references filters effect, r.allowed := by
  unfold EffectInputModel.validate at h
  obtain ⟨call, _, h⟩ := bind_ok h
  obtain ⟨_, hPure, h⟩ := bind_ok h
  by_cases hMessage : sent.kind = .MESSAGE ∧ sent.message.getD "" = ""
  · rw [if_pos hMessage] at h
    cases h
  · rw [if_neg hMessage] at h
    by_cases hFade : sent.kind ≠ .HIDE ∧ sent.fade.set = true
    · rw [if_pos hFade] at h
      cases h
    · rw [if_neg hFade] at h
      cases h
      exact call_allowed hPure

theorem effects_allowed {sent effects : List EffectInputModel}
    (h : validate_each EffectInputModel.validate sent = .ok effects) :
    ∀ r ∈ effects.flatMap (effect_references filters), r.allowed := by
  intro r hr
  obtain ⟨effect, hEffect, hr⟩ := List.mem_flatMap.1 hr
  obtain ⟨_, hValid⟩ := validate_each_mem h effect hEffect
  exact effect_allowed hValid r hr

theorem validator_allowed {sent validator : ValidatorInputModel} (h : sent.validate = .ok validator) :
    ∀ r ∈ validator_references filters validator, r.allowed := by
  unfold ValidatorInputModel.validate at h
  obtain ⟨call, _, h⟩ := bind_ok h
  obtain ⟨_, hPure, h⟩ := bind_ok h
  cases h
  exact call_allowed hPure

theorem validators_allowed {sent validators : List ValidatorInputModel}
    (h : validate_each ValidatorInputModel.validate sent = .ok validators) :
    ∀ r ∈ validators.flatMap (validator_references filters), r.allowed := by
  intro r hr
  obtain ⟨validator, hValidator, hr⟩ := List.mem_flatMap.1 hr
  obtain ⟨_, hValid⟩ := validate_each_mem h validator hValidator
  exact validator_allowed hValid r hr

theorem props_allowed {dependencies : List String} {owner : String} {props : List ComponentProp}
    (h : check_widget_props dependencies owner props = .ok ()) :
    ∀ r ∈ props.flatMap (prop_references filters dependencies), r.allowed := by
  induction props with
  | nil =>
      intro r hr
      cases hr
  | cons prop rest ih =>
      rw [check_widget_props] at h
      obtain ⟨_, hProp, hRest⟩ := bind_ok h
      intro r hr
      rw [List.flatMap_cons] at hr
      cases List.mem_append.1 hr with
      | inl hr =>
          obtain ⟨root, hRoot, rfl⟩ := List.mem_map.1 hr
          have hAllowed := allows_iff.1 (allowed_of_prop hProp root hRoot)
          rcases hAllowed with hValue | hNone | hDependency
          · exact .inl hValue
          · cases hNone
          · exact .inr (.inr (.inr hDependency))
      | inr hr => exact ih hRest r hr

theorem node_props_allowed {dependencies declared : List String} {owner id : String}
    {props : List ComponentProp}
    (h : check_node_props (dependencies ++ declared) owner id props = .ok ()) :
    ∀ prop ∈ props, ∀ root ∈ prop_roots blok_path_root prop,
      root = "value" ∨ root ∈ declared ∨ root ∈ dependencies := by
  induction props with
  | nil =>
      intro prop hProp
      cases hProp
  | cons prop rest ih =>
      rw [check_node_props] at h
      obtain ⟨_, hProp, hRest⟩ := bind_ok h
      refine List.forall_mem_cons.2 ⟨?_, ih hRest⟩
      intro root hRoot
      have hAllowed := allowed_of_prop hProp root hRoot
      simp only [in_scope, Bool.or_eq_true, decide_eq_true_eq, List.contains_eq_mem,
        List.mem_append] at hAllowed
      rcases hAllowed with hValue | hDependency | hDeclared
      · exact .inl hValue
      · exact .inr (.inr hDependency)
      · exact .inr (.inl hDeclared)

theorem tree_allowed_of_each {dependencies declared : List String} {owner : String}
    {nodes : List ComponentNode}
    (hEach : ∀ node ∈ nodes, ∀ declared, check_widget_node (dependencies ++ declared) owner node = .ok () →
      ∀ r ∈ node_references filters dependencies declared node, r.allowed)
    (h : check_widget_tree (dependencies ++ declared) owner nodes = .ok ()) :
    ∀ r ∈ tree_references filters dependencies declared nodes, r.allowed := by
  induction nodes with
  | nil =>
      intro r hr
      cases hr
  | cons node rest ih =>
      rw [check_widget_tree] at h
      obtain ⟨_, hNode, hRest⟩ := bind_ok h
      intro r hr
      rw [tree_references] at hr
      cases List.mem_append.1 hr with
      | inl hr => exact hEach node (by simp) declared hNode r hr
      | inr hr =>
          exact ih (fun other hOther => hEach other (List.mem_cons_of_mem _ hOther)) hRest r hr

theorem node_allowed {dependencies : List String} {owner : String} (node : ComponentNode) :
    ∀ declared, check_widget_node (dependencies ++ declared) owner node = .ok () →
      ∀ r ∈ node_references filters dependencies declared node, r.allowed := by
  induction node using ComponentNode.ind with
  | mk id component props children ih =>
      intro declared h r hr
      rw [check_widget_node, List.append_assoc] at h
      obtain ⟨_, hProps, hChildren⟩ := bind_ok h
      rw [node_references] at hr
      cases List.mem_append.1 hr with
      | inl hr =>
          obtain ⟨prop, hProp, hr⟩ := List.mem_flatMap.1 hr
          obtain ⟨root, hRoot, rfl⟩ := List.mem_map.1 hr
          rcases node_props_allowed hProps prop hProp root hRoot with hValue | hDeclared | hDependency
          · exact .inl hValue
          · exact .inr (.inr (.inl hDeclared))
          · exact .inr (.inr (.inr hDependency))
      | inr hr => exact tree_allowed_of_each ih hChildren r hr

theorem tree_allowed {dependencies declared : List String} {owner : String} {nodes : List ComponentNode}
    (h : check_widget_tree (dependencies ++ declared) owner nodes = .ok ()) :
    ∀ r ∈ tree_references filters dependencies declared nodes, r.allowed :=
  tree_allowed_of_each (fun node _ => node_allowed node) h

theorem state_allowed {dependencies : List String} {owner : String} {call : Option UtilCall}
    (h : check_state_call dependencies owner call = .ok ()) :
    ∀ r ∈ state_references filters dependencies call, r.allowed := by
  cases call with
  | none =>
      intro r hr
      cases hr
  | some call => exact call_allowed h

theorem accessors_allowed {dependencies : List String} {accessors : List StateAccessorInputModel}
    {index : Nat} (h : check_accessors dependencies index accessors = .ok ()) :
    ∀ r ∈ accessors.flatMap fun accessor => state_references filters dependencies accessor.call,
      r.allowed := by
  induction accessors generalizing index with
  | nil =>
      intro r hr
      cases hr
  | cons accessor rest ih =>
      rw [check_accessors] at h
      obtain ⟨_, hAccessor, hRest⟩ := bind_ok h
      intro r hr
      rw [List.flatMap_cons] at hr
      cases List.mem_append.1 hr with
      | inl hr => exact state_allowed hAccessor r hr
      | inr hr => exact ih hRest r hr

end Allowed

section Accepted

variable {outside : Outside}

theorem ports_allowed_of_each {sent ports : List ArgPort} {filters : List (List ArgPort)}
    (hEach : ∀ p ∈ sent, ∀ filters port, validate_filter outside p = .ok port →
      ∀ r ∈ port_references filters port, r.allowed)
    (h : validate_filters outside sent = .ok ports) :
    ∀ r ∈ ports_references filters ports, r.allowed := by
  induction sent generalizing ports with
  | nil =>
      cases h
      intro r hr
      cases hr
  | cons p rest ih =>
      rw [validate_filters] at h
      obtain ⟨port, hPort, h⟩ := bind_ok h
      obtain ⟨others, hOthers, h⟩ := bind_ok h
      cases h
      intro r hr
      rw [ports_references] at hr
      cases List.mem_append.1 hr with
      | inl hr => exact hEach p (by simp) filters port hPort r hr
      | inr hr => exact ih (fun q hq => hEach q (List.mem_cons_of_mem _ hq)) hOthers r hr

/-- What a port settles to keeps what was checked before, and its effects are checked. -/
theorem of_settle {fields : PortFields} {default : Option Value} {sent : List EffectInputModel}
    {validators : List ValidatorInputModel} {widget : Option AssignWidget}
    {requires : List DescriptorConstraint} {children : List ArgPort} {port : ArgPort}
    (h : settle_port outside fields default sent validators widget requires children = .ok port) :
    ∃ settled effects, validate_each EffectInputModel.validate sent = .ok effects ∧
      port = .mk settled ⟨default, .mk effects validators widget requires⟩ children := by
  unfold settle_port at h
  obtain ⟨_, _, h⟩ := bind_ok h
  obtain ⟨effects, hEffects, h⟩ := bind_ok h
  obtain ⟨settled, _, h⟩ := bind_ok h
  obtain ⟨_, _, h⟩ := bind_ok h
  obtain ⟨_, _, h⟩ := bind_ok h
  cases h
  exact ⟨settled, effects, hEffects, rfl⟩

/-- The references of a widget that is accepted, and of a port that is, at any depth and in
any filters. -/
theorem allowed_of_validate :
    (∀ sent filters widget, validate_widget outside sent = .ok widget →
      ∀ r ∈ widget_references filters widget, r.allowed) ∧
    ∀ sent filters port, validate_filter outside sent = .ok port →
      ∀ r ∈ port_references filters port, r.allowed := by
  refine widgets_ind ?_ ?_ ?_ ?_
  · -- a widget without calls, or a state choice
    intro sent hSearch hCustom filters widget h
    cases sent with
    | SEARCH follow query ward ports dependencies => exact (hSearch _ _ _ _ _ rfl).elim
    | CUSTOM follow component props children dependencies fallback => exact (hCustom _ _ _ _ _ _ rfl).elim
    | SLIDER follow min max step =>
        obtain ⟨_, _, h⟩ := bind_ok h
        cases h
        intro r hr
        cases hr
    | CHOICE follow =>
        cases h
        intro r hr
        cases hr
    | STRING follow =>
        cases h
        intro r hr
        cases hr
    | PROXY follow target_port target_action =>
        obtain ⟨_, _, h⟩ := bind_ok h
        obtain ⟨_, _, h⟩ := bind_ok h
        cases h
        intro r hr
        cases hr
    | STATE_CHOICE follow state_path state_call state_accessors dependencies =>
        obtain ⟨call, _, h⟩ := bind_ok h
        obtain ⟨accessors, _, h⟩ := bind_ok h
        by_cases hOne : state_path.isNone = call.isNone
        · rw [if_pos hOne] at h
          cases h
        · rw [if_neg hOne] at h
          obtain ⟨_, hCall, h⟩ := bind_ok h
          obtain ⟨_, hAccessors, h⟩ := bind_ok h
          cases h
          intro r hr
          cases List.mem_append.1 hr with
          | inl hr => exact state_allowed hCall r hr
          | inr hr => exact accessors_allowed hAccessors r hr
  · intro follow query ward sent dependencies ih filters widget h
    obtain ⟨ports, hPorts, h⟩ := bind_ok h
    obtain ⟨_, _, h⟩ := bind_ok h
    obtain ⟨_, _, h⟩ := bind_ok h
    cases h
    exact ports_allowed_of_each ih hPorts
  · intro follow component sent children dependencies fallback ih filters widget h
    rw [validate_widget.eq_def] at h
    obtain ⟨props, _, h⟩ := bind_ok h
    obtain ⟨settled, hFallback, h⟩ := bind_ok h
    obtain ⟨_, _, h⟩ := bind_ok h
    obtain ⟨_, hProps, h⟩ := bind_ok h
    obtain ⟨_, _, h⟩ := bind_ok h
    obtain ⟨_, hTree, h⟩ := bind_ok h
    cases h
    intro r hr
    rw [widget_references.eq_def] at hr
    simp only [List.mem_append] at hr
    rcases hr with (hr | hr) | hr
    · exact props_allowed hProps r hr
    · exact tree_allowed hTree r hr
    · cases fallback with
      | none =>
          cases hFallback
          cases hr
      | some next =>
          obtain ⟨held, hHeld, hFallback⟩ := bind_ok hFallback
          cases hFallback
          exact ih next rfl filters held hHeld r hr
  · intro fields default effects validators widget requires sent hWidget hChildren filters port h
    rw [validate_filter.eq_def] at h
    obtain ⟨children, hPorts, h⟩ := bind_ok h
    obtain ⟨checked, hValidators, h⟩ := bind_ok h
    obtain ⟨held, hHeld, h⟩ := bind_ok h
    obtain ⟨settled, settledEffects, hEffects, rfl⟩ := of_settle h
    intro r hr
    rw [port_references.eq_def] at hr
    simp only [List.mem_append] at hr
    rcases hr with ((hr | hr) | hr) | hr
    · exact validators_allowed hValidators r hr
    · exact effects_allowed hEffects r hr
    · cases widget with
      | none =>
          cases hHeld
          cases hr
      | some widget =>
          obtain ⟨kept, hKept, hHeld⟩ := bind_ok hHeld
          cases hHeld
          exact hWidget widget rfl filters kept hKept r hr
    · exact ports_allowed_of_each hChildren hPorts r hr

theorem args_allowed {sent args : List ArgPort}
    (h : validate_ports outside.toEnv (arg_held outside) (check_arg_default outside.toEnv) sent = .ok args) :
    ∀ r ∈ ports_references [] args, r.allowed := by
  rw [← validate_filters_eq] at h
  exact ports_allowed_of_each (fun p _ => allowed_of_validate.2 p) h

end Accepted

end Rekuest.Widgets
