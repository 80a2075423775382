import Rekuest.Formulas.Formula

/-!
# The tree of a blok

A node is a component with props and children, and a prop is bound to a value, a path, a
task call or a util call.  A tree is valid when every prop and every argument in it is
bound at most one way, and its calls are well keyed; nothing in it is rewritten.
-/

namespace Rekuest.Bloks

open Rekuest.Ports Rekuest.Inputs Rekuest.Formulas

/-- A static value, or a path into what the blok reads. -/
structure DynamicValue where
  literal : Option String := none
  path : Option String := none

/-- One prop of a node. -/
structure ComponentProp where
  key : String
  static_value : Option Value := none
  dynamic_value : Option DynamicValue := none
  declares_value : Option String := none
  agent_call : Option AgentProbe := none
  util_call : Option UtilCall := none

/-- A node of the tree; no props or children and empty lists of them are read alike. -/
inductive ComponentNode
  | mk (id component : String) (props : List ComponentProp) (children : List ComponentNode)

namespace ComponentNode

def id : ComponentNode → String
  | mk id _ _ _ => id

def component : ComponentNode → String
  | mk _ component _ _ => component

def props : ComponentNode → List ComponentProp
  | mk _ _ props _ => props

def children : ComponentNode → List ComponentNode
  | mk _ _ _ children => children

/-- Induction on a node and the nodes below it. -/
@[elab_as_elim]
theorem ind {P : ComponentNode → Prop}
    (mk : ∀ id component props children, (∀ child ∈ children, P child) →
      P (.mk id component props children)) (node : ComponentNode) : P node := by
  refine ComponentNode.rec (motive_1 := P) (motive_2 := fun nodes => ∀ node ∈ nodes, P node)
    mk ?_ ?_ node
  · intro node hNode
    cases hNode
  · intro node rest hHead hRest
    exact List.forall_mem_cons.2 ⟨hHead, hRest⟩

end ComponentNode

mutual

/-- The nodes of a tree, a node before those below it. -/
def iter_nodes : ComponentNode → List ComponentNode
  | .mk id component props children => .mk id component props children :: iter_nodes_in children

def iter_nodes_in : List ComponentNode → List ComponentNode
  | [] => []
  | node :: rest => iter_nodes node ++ iter_nodes_in rest

end

theorem mem_iter_nodes_in {nodes : List ComponentNode} {node : ComponentNode} :
    node ∈ iter_nodes_in nodes ↔ ∃ top ∈ nodes, node ∈ iter_nodes top := by
  induction nodes with
  | nil => simp [iter_nodes_in]
  | cons top rest ih => simp [iter_nodes_in, ih]

/-! ## Validity -/

def min_length (value field : String) : Except ValidationError Unit :=
  if value = "" then .error (field ++ ": String should have at least 1 character") else .ok ()

def py_opt_str (value : Option String) : String := (value.map repr_str).getD "None"

/-- Entries of a map need keys, each its own. -/
def check_keyed (owner : String) (seen : List String) : List ActionArgument → Except ValidationError Unit
  | [] => .ok ()
  | argument :: rest =>
      match argument.key.filter (· ≠ "") with
      | none => .error (owner ++ ": every entry must carry a key")
      | some key =>
          if key ∈ seen then .error (owner ++ ": duplicate key " ++ repr_str key)
          else check_keyed owner (key :: seen) rest

/-- The names of the bindings that are set. -/
def bound (bindings : List (String × Bool)) : List String := (bindings.filter (·.2)).map (·.1)

/-- At most one of the bindings is set. -/
def check_bound (owner : String) (bindings : List (String × Bool)) : Except ValidationError Unit :=
  if (bound bindings).length > 1 then
    .error (owner ++ " must set at most one of " ++ ", ".intercalate (bindings.map (·.1)) ++
      " (got [" ++ ", ".intercalate ((bound bindings).map repr_str) ++ "])")
  else .ok ()

def check_unkeyed (key : Option String) (value_list : List ActionArgument) : Except ValidationError Unit :=
  if value_list.any (·.key.isSome) then
    .error ("value_list entries of argument " ++ py_opt_str key ++ " must not carry a key")
  else .ok ()

mutual

/-- At most one binding, literals kept as written. -/
def validate_argument : ActionArgument → Except ValidationError Unit
  | .mk key literal path agent util list dict => do
      check_bound ("ActionArgument " ++ py_opt_str key)
        [("value_literal", literal.isSome), ("value_path", path.isSome), ("agent_call", agent.isSome),
          ("util_call", util.isSome), ("value_list", list.isSome), ("value_dict", dict.isSome)]
      match agent with
      | some call => validate_agent_call call
      | none => .ok ()
      match util with
      | some call => validate_util_call call
      | none => .ok ()
      check_unkeyed key (list.getD [])
      match list with
      | some items => validate_arguments items
      | none => .ok ()
      check_keyed ("value_dict of argument " ++ py_opt_str key) [] (dict.getD [])
      match dict with
      | some items => validate_arguments items
      | none => .ok ()

def validate_arguments : List ActionArgument → Except ValidationError Unit
  | [] => .ok ()
  | argument :: rest => do
      validate_argument argument
      validate_arguments rest

def validate_agent_call : AgentProbe → Except ValidationError Unit
  | .mk dependency operation arguments => do
      min_length dependency "dependency"
      min_length operation "operation"
      check_keyed ("arguments of agent call " ++ operation) [] arguments
      validate_arguments arguments

def validate_util_call : UtilCall → Except ValidationError Unit
  | .mk operation arguments => do
      min_length operation "operation"
      check_keyed ("arguments of " ++ operation) [] arguments
      validate_arguments arguments

end

/-- A prop is bound at most one way, its static value any JSON. -/
def ComponentProp.validate_blok (prop : ComponentProp) : Except ValidationError Unit := do
  check_bound ("ComponentProp " ++ repr_str prop.key)
    [("static_value", prop.static_value.isSome), ("dynamic_value", prop.dynamic_value.isSome),
      ("agent_call", prop.agent_call.isSome), ("util_call", prop.util_call.isSome)]
  match prop.agent_call with
  | some call => validate_agent_call call
  | none => .ok ()
  match prop.util_call with
  | some call => validate_util_call call
  | none => .ok ()

def validate_props : List ComponentProp → Except ValidationError Unit
  | [] => .ok ()
  | prop :: rest => do
      prop.validate_blok
      validate_props rest

mutual

/-- A node's props, and then its children. -/
def ComponentNode.validate : ComponentNode → Except ValidationError Unit
  | .mk _ _ props children => do
      validate_props props
      validate_nodes children

def validate_nodes : List ComponentNode → Except ValidationError Unit
  | [] => .ok ()
  | node :: rest => do
      node.validate
      validate_nodes rest

end

/-! ## What is valid at every prop -/

theorem validate_props_each {props : List ComponentProp} (h : validate_props props = .ok ()) :
    ∀ prop ∈ props, prop.validate_blok = .ok () := by
  induction props with
  | nil =>
      intro prop hProp
      cases hProp
  | cons prop rest ih =>
      rw [validate_props] at h
      obtain ⟨_, hProp, hRest⟩ := bind_ok h
      exact List.forall_mem_cons.2 ⟨hProp, ih hRest⟩

theorem validate_nodes_each {nodes : List ComponentNode} (h : validate_nodes nodes = .ok ()) :
    ∀ node ∈ nodes, node.validate = .ok () := by
  induction nodes with
  | nil =>
      intro node hNode
      cases hNode
  | cons node rest ih =>
      rw [validate_nodes] at h
      obtain ⟨_, hNode, hRest⟩ := bind_ok h
      exact List.forall_mem_cons.2 ⟨hNode, ih hRest⟩

/-- Every prop of a valid tree is valid. -/
theorem validate_each {tree : ComponentNode} (h : tree.validate = .ok ()) :
    ∀ node ∈ iter_nodes tree, ∀ prop ∈ node.props, prop.validate_blok = .ok () := by
  induction tree using ComponentNode.ind with
  | mk id component props children ih =>
      rw [ComponentNode.validate] at h
      obtain ⟨_, hProps, hChildren⟩ := bind_ok h
      intro node hNode
      rw [iter_nodes] at hNode
      cases hNode with
      | head => exact validate_props_each hProps
      | tail _ hNode =>
          obtain ⟨child, hChild, hNode⟩ := mem_iter_nodes_in.1 hNode
          exact ih child hChild (validate_nodes_each hChildren child hChild) node hNode

/-- A valid prop with a call reads no path. -/
theorem path_none_of_call {prop : ComponentProp} (h : prop.validate_blok = .ok ())
    (hCall : prop.agent_call.isSome = true ∨ prop.util_call.isSome = true) : prop.dynamic_value = none := by
  unfold ComponentProp.validate_blok at h
  obtain ⟨_, hBound, -⟩ := bind_ok h
  unfold check_bound at hBound
  by_cases hDynamic : prop.dynamic_value.isSome = true
  · have hTwo : (bound [("static_value", prop.static_value.isSome),
        ("dynamic_value", prop.dynamic_value.isSome), ("agent_call", prop.agent_call.isSome),
        ("util_call", prop.util_call.isSome)]).length > 1 := by
      rw [hDynamic]
      unfold bound
      cases prop.static_value.isSome <;> cases hAgent : prop.agent_call.isSome <;>
        cases hUtil : prop.util_call.isSome <;> simp_all
    rw [if_pos hTwo] at hBound
    cases hBound
  · exact Option.not_isSome_iff_eq_none.1 hDynamic

end Rekuest.Bloks
