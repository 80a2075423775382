import Rekuest.Bloks.Tree

/-!
# The calls of ports

What effects, validators and widgets evaluate is checked twice where it is written: that
every argument and prop is bound at most one way and keyed, and that the whole is pure and
reads no root beyond those its place allows.  The root of a path is its first segment.
-/

namespace Rekuest.Widgets

open Rekuest.Ports Rekuest.Inputs Rekuest.Bloks

/-! ## Bound and keyed -/

mutual

/-- An argument's calls and entries first, then its own binding; a bool literal becomes the
integer it is. -/
def validate_argument : ActionArgument → Except ValidationError ActionArgument
  | .mk key literal path agent util list dict => do
      let agent ← (match agent with
        | some call => do
            let call ← validate_agent_call call
            return some call
        | none => .ok none)
      let util ← (match util with
        | some call => do
            let call ← validate_util_call call
            return some call
        | none => .ok none)
      let list ← (match list with
        | some items => do
            let items ← validate_arguments items
            return some items
        | none => .ok none)
      let dict ← (match dict with
        | some items => do
            let items ← validate_arguments items
            return some items
        | none => .ok none)
      let literal := literal.map fun literal =>
        match literal with
        | .bool b => .int b.toInt
        | other => other
      check_bound ("ActionArgument " ++ py_opt_str key)
        [("value_literal", literal.isSome), ("value_path", path.isSome), ("agent_call", agent.isSome),
          ("util_call", util.isSome), ("value_list", list.isSome), ("value_dict", dict.isSome)]
      check_keyed ("value_dict of argument " ++ py_opt_str key) [] (dict.getD [])
      check_unkeyed key (list.getD [])
      return .mk key literal path agent util list dict

def validate_arguments : List ActionArgument → Except ValidationError (List ActionArgument)
  | [] => .ok []
  | argument :: rest => do
      let argument ← validate_argument argument
      let rest ← validate_arguments rest
      return argument :: rest

def validate_agent_call : AgentProbe → Except ValidationError AgentProbe
  | .mk dependency operation arguments => do
      let arguments ← validate_arguments arguments
      min_length dependency "dependency"
      min_length operation "operation"
      check_keyed ("arguments of agent call " ++ operation) [] arguments
      return .mk dependency operation arguments

def validate_util_call : UtilCall → Except ValidationError UtilCall
  | .mk operation arguments => do
      let arguments ← validate_arguments arguments
      min_length operation "operation"
      check_keyed ("arguments of " ++ operation) [] arguments
      return .mk operation arguments

end

/-- The static value of a port widget's prop: a bool becomes its integer, a list is refused. -/
def static_value (key : String) : Option Value → Except ValidationError (Option Value)
  | some (.bool b) => .ok (some (.int b.toInt))
  | some (.array _) =>
      .error ("ComponentProp " ++ repr_str key ++ ": static_value must be a string, number or dict")
  | other => .ok other

/-- Bound at most one way, or declaring a value. -/
def validate_prop (prop : ComponentProp) : Except ValidationError ComponentProp := do
  let agent_call ← (match prop.agent_call with
    | some call => do
        let call ← validate_agent_call call
        return some call
    | none => .ok none)
  let util_call ← (match prop.util_call with
    | some call => do
        let call ← validate_util_call call
        return some call
    | none => .ok none)
  let static_value ← static_value prop.key prop.static_value
  let bindings :=
    [("static_value", static_value.isSome), ("dynamic_value", prop.dynamic_value.isSome),
      ("agent_call", agent_call.isSome), ("util_call", util_call.isSome)]
  check_bound ("ComponentProp " ++ repr_str prop.key) bindings
  if bound bindings = [] ∧ prop.declares_value.getD "" = "" then
    .error ("ComponentProp " ++ repr_str prop.key ++ " is neither bound nor declares a value")
  else return { prop with agent_call, util_call, static_value }

/-- The members of a list, each as its check leaves it. -/
def validate_each {α : Type} (validate : α → Except ValidationError α) :
    List α → Except ValidationError (List α)
  | [] => .ok []
  | item :: rest => do
      let item ← validate item
      let rest ← validate_each validate rest
      return item :: rest

theorem validate_each_mem {α : Type} {validate : α → Except ValidationError α} {items checked : List α}
    (h : validate_each validate items = .ok checked) :
    ∀ item ∈ checked, ∃ sent, validate sent = .ok item := by
  induction items generalizing checked with
  | nil =>
      cases h
      intro item hItem
      cases hItem
  | cons sent rest ih =>
      rw [validate_each] at h
      obtain ⟨item, hItem, h⟩ := bind_ok h
      obtain ⟨others, hOthers, h⟩ := bind_ok h
      cases h
      exact List.forall_mem_cons.2 ⟨⟨sent, hItem⟩, ih hOthers⟩

/-! ## The roots of paths -/

/-- The first segment of a value path, whose segments are separated by slashes. -/
def value_path_root (path : String) : String :=
  String.ofList ((path.toList.dropWhile (· = '/')).takeWhile (· ≠ '/'))

/-- The first segment of a blok's path, which is dotted. -/
def blok_path_root (path : String) : String :=
  String.ofList ((path.toList.dropWhile (· = '/')).takeWhile fun c => c ≠ '/' ∧ c ≠ '.')

section Roots

variable (root_of : String → String)

mutual

/-- The roots of the value paths in an argument, those of its calls and entries included. -/
def argument_roots : ActionArgument → List String
  | .mk _ _ path agent util list dict =>
      (path.map root_of).toList ++
        (match agent with
          | some (.mk _ _ arguments) => arguments_roots arguments
          | none => []) ++
        (match util with
          | some (.mk _ arguments) => arguments_roots arguments
          | none => []) ++
        (match list with
          | some items => arguments_roots items
          | none => []) ++
        (match dict with
          | some items => arguments_roots items
          | none => [])

def arguments_roots : List ActionArgument → List String
  | [] => []
  | argument :: rest => argument_roots argument ++ arguments_roots rest

end

/-! ## Purity and scope -/

variable (allowed : String → Bool) (owner : String)

def check_root (reader : String) : Option String → Except ValidationError Unit
  | none => .ok ()
  | some path =>
      if allowed (root_of path) then .ok ()
      else
        .error (owner ++ " references '" ++ root_of path ++ "' via " ++ reader ++
          " but it is not in dependencies")

def check_no_agent (why : String) (call : Option AgentProbe) : Except ValidationError Unit :=
  if call.isSome then .error (owner ++ " must be pure: " ++ why) else .ok ()

mutual

/-- No agent calls, and no root that is not allowed. -/
def check_pure : ActionArgument → Except ValidationError Unit
  | .mk _ _ path agent util list dict => do
      check_no_agent owner "nested agent calls are not allowed" agent
      check_root root_of allowed owner "value_path" path
      (match util with
        | some (.mk _ arguments) => check_pure_in arguments
        | none => .ok ())
      (match list with
        | some items => check_pure_in items
        | none => .ok ())
      (match dict with
        | some items => check_pure_in items
        | none => .ok ())

def check_pure_in : List ActionArgument → Except ValidationError Unit
  | [] => .ok ()
  | argument :: rest => do
      check_pure argument
      check_pure_in rest

end

/-- A prop calls no agent, and neither its path nor its call reads a root that is not allowed. -/
def check_pure_prop (prop : ComponentProp) : Except ValidationError Unit := do
  check_no_agent owner "agent calls are not allowed in widgets" prop.agent_call
  check_root root_of allowed owner "dynamic_value.path" (prop.dynamic_value.bind (·.path))
  (match prop.util_call with
    | some call => check_pure_in root_of allowed owner call.arguments
    | none => .ok ())

end Roots

/-- What a port's call may read. -/
def allows (dependencies extra_roots : List String) (root : String) : Bool :=
  root = "value" || extra_roots.contains root || dependencies.contains root

/-- What a tree's call may read. -/
def in_scope (names : List String) (root : String) : Bool := root = "value" || names.contains root

def check_pure_call (call : UtilCall) (dependencies : List String) (owner : String)
    (extra_roots : List String) : Except ValidationError Unit :=
  check_pure_in value_path_root (allows dependencies extra_roots) owner call.arguments

/-- The props of a custom widget reach its dependencies. -/
def check_widget_props (dependencies : List String) (owner : String) :
    List ComponentProp → Except ValidationError Unit
  | [] => .ok ()
  | prop :: rest => do
      check_pure_prop value_path_root (allows dependencies []) (owner ++ " prop " ++ repr_str prop.key) prop
      check_widget_props dependencies owner rest

/-- The values the props declare. -/
def declares (props : List ComponentProp) : List String := props.filterMap (·.declares_value)

/-- The props of a node of the tree below a custom widget. -/
def check_node_props (names : List String) (owner id : String) :
    List ComponentProp → Except ValidationError Unit
  | [] => .ok ()
  | prop :: rest => do
      check_pure_prop blok_path_root (in_scope names)
        (owner ++ " node " ++ repr_str id ++ " prop " ++ repr_str prop.key) prop
      check_node_props names owner id rest

mutual

/-- A node reads the dependencies and what it and the nodes above it declare. -/
def check_widget_node (names : List String) (owner : String) : ComponentNode → Except ValidationError Unit
  | .mk id _ props children => do
      check_node_props (names ++ declares props) owner id props
      check_widget_tree (names ++ declares props) owner children

def check_widget_tree (names : List String) (owner : String) : List ComponentNode → Except ValidationError Unit
  | [] => .ok ()
  | node :: rest => do
      check_widget_node names owner node
      check_widget_tree names owner rest

end

/-! ## What is pure reads what is allowed -/

section Roots

variable {root_of : String → String} {allowed : String → Bool} {owner : String}

theorem allowed_of_root {reader : String} {path : Option String}
    (h : check_root root_of allowed owner reader path = .ok ()) :
    ∀ root ∈ (path.map root_of).toList, allowed root = true := by
  cases path with
  | none =>
      intro root hRoot
      cases hRoot
  | some path =>
      rw [check_root] at h
      intro root hRoot
      have hEq : root = root_of path := by simpa using hRoot
      rw [hEq]
      by_cases hAllowed : allowed (root_of path) = true
      · exact hAllowed
      · rw [if_neg hAllowed] at h
        cases h

theorem allowed_of_each {arguments : List ActionArgument}
    (hEach : ∀ a ∈ arguments, check_pure root_of allowed owner a = .ok () →
      ∀ root ∈ argument_roots root_of a, allowed root = true)
    (h : check_pure_in root_of allowed owner arguments = .ok ()) :
    ∀ root ∈ arguments_roots root_of arguments, allowed root = true := by
  induction arguments with
  | nil =>
      intro root hRoot
      cases hRoot
  | cons argument rest ih =>
      rw [check_pure_in] at h
      obtain ⟨_, hHead, hRest⟩ := bind_ok h
      intro root hRoot
      rw [arguments_roots] at hRoot
      cases List.mem_append.1 hRoot with
      | inl hRoot => exact hEach argument (by simp) hHead root hRoot
      | inr hRoot =>
          exact ih (fun a ha => hEach a (List.mem_cons_of_mem _ ha)) hRest root hRoot

/-- A pure argument reads allowed roots only, wherever in it a path stands. -/
theorem allowed_of_argument (argument : ActionArgument)
    (h : check_pure root_of allowed owner argument = .ok ()) :
    ∀ root ∈ argument_roots root_of argument, allowed root = true := by
  revert h argument
  refine (calls_ind (P := fun argument => check_pure root_of allowed owner argument = .ok () →
      ∀ root ∈ argument_roots root_of argument, allowed root = true)
    (Q := fun call => check_pure_in root_of allowed owner call.arguments = .ok () →
      ∀ root ∈ arguments_roots root_of call.arguments, allowed root = true)
    (R := fun _ => True) ?_ ?_ ?_).1
  · intro key literal path agent util list dict _ hUtil hList hDict h root hRoot
    rw [check_pure.eq_def] at h
    obtain ⟨_, hAgent, h⟩ := bind_ok h
    obtain ⟨_, hPath, h⟩ := bind_ok h
    obtain ⟨_, hCall, h⟩ := bind_ok h
    obtain ⟨_, hItems, hEntries⟩ := bind_ok h
    rw [argument_roots.eq_def] at hRoot
    simp only [List.mem_append] at hRoot
    rcases hRoot with (((hRoot | hRoot) | hRoot) | hRoot) | hRoot
    · exact allowed_of_root hPath root hRoot
    · cases agent with
      | none => cases hRoot
      | some call => cases hAgent
    · cases util with
      | none => cases hRoot
      | some call =>
          cases call with
          | mk operation arguments => exact hUtil _ rfl hCall root hRoot
    · cases list with
      | none => cases hRoot
      | some items => exact allowed_of_each (hList items rfl) hItems root hRoot
    · cases dict with
      | none => cases hRoot
      | some items => exact allowed_of_each (hDict items rfl) hEntries root hRoot
  · intro operation arguments hArguments h
    exact allowed_of_each hArguments h
  · intro dependency operation arguments hArguments
    trivial

theorem allowed_of_arguments {arguments : List ActionArgument}
    (h : check_pure_in root_of allowed owner arguments = .ok ()) :
    ∀ root ∈ arguments_roots root_of arguments, allowed root = true :=
  allowed_of_each (fun a _ => allowed_of_argument a) h

/-- The roots a prop reads: of its path, and of the paths in its calls. -/
def prop_roots (root_of : String → String) (prop : ComponentProp) : List String :=
  ((prop.dynamic_value.bind (·.path)).map root_of).toList ++
    (match prop.agent_call with
      | some call => arguments_roots root_of call.arguments
      | none => []) ++
    (match prop.util_call with
      | some call => arguments_roots root_of call.arguments
      | none => [])

theorem allowed_of_prop {prop : ComponentProp} (h : check_pure_prop root_of allowed owner prop = .ok ()) :
    ∀ root ∈ prop_roots root_of prop, allowed root = true := by
  intro root hRoot
  unfold check_pure_prop at h
  obtain ⟨_, hAgent, h⟩ := bind_ok h
  obtain ⟨_, hPath, hCall⟩ := bind_ok h
  unfold prop_roots at hRoot
  simp only [List.mem_append] at hRoot
  rcases hRoot with (hRoot | hRoot) | hRoot
  · exact allowed_of_root hPath root hRoot
  · cases hCalls : prop.agent_call with
    | none =>
        rw [hCalls] at hRoot
        cases hRoot
    | some call =>
        rw [hCalls] at hAgent
        cases hAgent
  · cases hCalls : prop.util_call with
    | none =>
        rw [hCalls] at hRoot
        cases hRoot
    | some call =>
        rw [hCalls] at hRoot hCall
        exact allowed_of_arguments hCall root hRoot

end Roots

end Rekuest.Widgets
