import Rekuest.Bloks.Tree
import Rekuest.Bloks.View

/-!
# The rules of the checker

Each rule says what it finds at a prop, a task call or a util call.  What a path reads, how
a design is styled and what a blok declares beside its tree are rules of their own, given
as parameters.
-/

namespace Rekuest.Bloks

open Rekuest.Ports Rekuest.Inputs Rekuest.Formulas

/-! ## What a blok declares -/

/-- The port a demanded action is matched by. -/
structure PortMatch where
  key : Option String := none
  kind : Option PortKind := none
  identifier : Option String := none

structure ActionDemand where
  arg_matches : Option (List PortMatch) := none

structure ActionDependency where
  key : String
  demand : Option ActionDemand := none

/-- An agent a blok depends on; no actions are all actions. -/
structure AgentDependency where
  key : String
  action_dependencies : Option (List ActionDependency) := none

/-- A local: its port, unless it is untyped. -/
structure BlokLocal where
  key : String
  arg_port : Option (ArgPortInputModel Unit) := none
  persist : Bool := false

structure ScopeQuery where
  key : String
  more : Option String := none

/-- What the reads and calls of a tree resolve against. -/
structure BlokScope where
  kind : String := "agent"
  context : String := "HTML"
  dependencies : List AgentDependency := []
  locals : List BlokLocal := []
  queries : List ScopeQuery := []
  catalogs : List String := []

namespace BlokScope

def dependency (scope : BlokScope) (key : String) : Option AgentDependency :=
  lookup (scope.dependencies.map fun d => (d.key, d)) key

def local_of (scope : BlokScope) (key : String) : Option BlokLocal :=
  lookup (scope.locals.map fun l => (l.key, l)) key

def query (scope : BlokScope) (key : String) : Option ScopeQuery :=
  lookup (scope.queries.map fun q => (q.key, q)) key

/-- An action logo is drawn as a logo is. -/
def drawn_in (scope : BlokScope) : String := if scope.context = "ACTION_LOGO" then "LOGO" else scope.context

end BlokScope

/-- What a path holds. -/
inductive Shape
  | mk (key : Option String) (kind : Option PortKind) (opened : Bool) (children : Option (List Shape))

namespace Shape

def open_ (key : String) : Shape := mk (some key) none true none

def with_key (key : String) : Shape → Shape
  | mk _ kind opened children => mk (some key) kind opened children

end Shape

/-- The shapes of the names in scope, a later one hiding an earlier. -/
abbrev Scope := List (String × Shape)

/-- Where a value sits. -/
structure Where where
  node : ComponentNode
  key : String
  callback : Bool
  in_error : Bool

def Where.text (w : Where) : String :=
  w.key ++ " of <" ++ w.node.component ++ "> (" ++ w.node.id ++ ")"

/-- The rules that calls have no part in. -/
structure Rules where
  /-- How a double prints. -/
  float_repr : Dyadic → String
  /-- How a string on a typed prop is written as the literal it meant. -/
  literal_hint : String → String → String → String
  /-- The kinds of locals that are told by the tree. -/
  resolve_scope : ComponentNode → BlokScope → BlokScope
  /-- What is found of the declarations. -/
  check_declarations : ComponentNode → BlokScope → List Finding
  /-- What a path holds, and what is found on the way. -/
  resolve : String → Option Where → Scope → String → Option Shape × List Finding
  /-- The record of a task call. -/
  bind_into : String → AgentProbe → Shape
  check_classes : String → String → List Finding
  check_paint : ComponentNode → String → String → List Finding
  check_scene_colour : ComponentNode → String → String → List Finding
  check_logo : ComponentNode → List Finding

/-! ## Words -/

/-- The segments of a dotted path. -/
def parts_of (path : String) : List String :=
  (path.toList.splitOn '.').map String.ofList

/-- The action a task call names: its last segment. -/
def action_key_for (call : AgentProbe) : String := (parts_of call.operation).getLastD call.operation

def article (kind : String) : String :=
  if kind.toList.head?.any fun c => c ∈ ['a', 'e', 'i', 'o', 'u'] then "n" else ""

def what (float_repr : Dyadic → String) (prop : ComponentProp) : String :=
  if prop.agent_call.isSome then "a task call"
  else
    match prop.util_call, prop.dynamic_value with
    | some call, _ => call.operation
    | none, some dynamic => "the path " ++ dynamic.path.getD "None"
    | none, none => "the value " ++ repr float_repr (prop.static_value.getD .null)

def argument_what (float_repr : Dyadic → String) (argument : ActionArgument) : String :=
  match argument.value_path, argument.util_call with
  | some path, _ => "the path " ++ path
  | none, some call => "a call of " ++ call.operation
  | none, none =>
      if argument.agent_call.isSome then "a task call"
      else if argument.value_list.isSome || argument.value_dict.isSome then "a list or object"
      else "the value " ++ repr float_repr (argument.value_literal.getD .null)

mutual

def literals_of : ActionArgument → List String
  | .mk _ literal _ _ util list dict =>
      (match literal with
        | some (.string text) => [text]
        | _ => []) ++
      ((dict.getD []).filterMap fun nested => nested.key.filter (· ≠ "")) ++
      (match util with
        | some (.mk _ arguments) => literals_in arguments
        | none => []) ++
      (match list with
        | some items => literals_in items
        | none => [])

/-- Every literal string under these arguments: list entries, object keys, branches. -/
def literals_in : List ActionArgument → List String
  | [] => []
  | argument :: rest => literals_of argument ++ literals_in rest

end

def class_literals (call : UtilCall) : List String := literals_in call.arguments

def sorted_keys (keys : List String) : String :=
  if keys = [] then "none" else ", ".intercalate (keys.mergeSort (· ≤ ·))

/-- What to do about an undeclared dependency. -/
def dependency_hint (key kind : String) : String :=
  if kind = "action" ∨ kind = "action_logo" then "add a dependency parameter " ++ "\x60" ++ key ++ "\x60 to the action"
  else if kind = "agent" then "agent bloks read only \x60self\x60"
  else "dependencies=[AgentDependencyInput(key=\x22" ++ key ++ "\x22)]"

def FOREACH_COMPONENT : String := "foreach"
def FOREACH_LET_PROP : String := "let"
def FOREACH_ITEMS_PROP : String := "items"
def FOREACH_KEY_PROP : String := "key"
def SUSPENSE_COMPONENT : String := "suspense"
def ERROR_SLOT : String := "error"
def WHEN_PROP : String := "when"
def BIND_PROP : String := "bind"
def CLASS_NAME : String := "className"
def REFETCH_FUNCTION : String := "query.refetch"
def FETCH_MORE_FUNCTION : String := "query.fetch_more"

/-- The verb of a query effect. -/
def query_verb (operation : String) : Option String :=
  if operation = REFETCH_FUNCTION then some "refetch"
  else if operation = FETCH_MORE_FUNCTION then some "fetch_more"
  else none

/-- Item kinds that are no scalar. -/
def COMPOUND_KINDS : List PortKind := [.DICT, .MODEL, .LIST, .UNION]

/-! ## The checker -/

/-- What a tree is checked against. -/
structure Checker where
  rules : Rules
  vocabulary : Vocabulary
  scope : BlokScope
  kind : Kind
  view : Option BlokView
  /-- The names that task calls write their records to. -/
  into : List String

/-- Whether a call is an effect, not a pure function. -/
def is_effect (vocabulary : Vocabulary) (call : UtilCall) : Bool :=
  (vocabulary.function call.operation).any (·.effect)

/-- Whether a prop holds a callback's one thing: a task call or an effect. -/
def is_callback_value (vocabulary : Vocabulary) (prop : ComponentProp) : Bool :=
  prop.agent_call.isSome || prop.util_call.any (is_effect vocabulary)

namespace Checker

variable (k : Checker)

def finding (code : String) (path : Option String) (fields : List (String × Value)) : Finding :=
  .of k.rules.float_repr code path fields

def not_in_kind (path read root : String) : Finding :=
  k.finding "roots.not_in_kind" (some path)
    [("path", .string read), ("n", .string (article k.scope.kind)), ("kind", .string k.scope.kind),
      ("root", .string root), ("roots", .string k.kind.roots_text)]

/-- The port a path into a local names, or none when its shape does not tell. -/
def local_port (path : String) : Option (ArgPortInputModel Unit) :=
  match parts_of path with
  | [] => none
  | first :: rest => rest.foldl child ((k.scope.local_of first).bind (·.arg_port))
where
  child (port : Option (ArgPortInputModel Unit)) (part : String) : Option (ArgPortInputModel Unit) :=
    match port with
    | none => none
    | some port =>
        (port.children.find? (·.key = part)).or
          (match port.children with
            | [only] => if only.key = ITEM_KEY then some only else none
            | _ => none)

/-! ### A task call -/

/-- A local passed whole fits the action's port. -/
def check_arg_kind (call : AgentProbe) (port_matches : List PortMatch) (w : Where) (scope : Scope)
    (argument : ActionArgument) : List Finding :=
  match argument.value_path, port_matches.reverse.find? (·.key = some (argument.key.getD "")) with
  | some path, some port_match =>
      match port_match.kind, k.local_port path with
      | some match_kind, some port =>
          let root := first_segment path
          let kind := port.kind.value
          let port_kind := match_kind.value
          let other_structure := kind = "STRUCTURE" ∧ port_kind = "STRUCTURE" ∧
            port.identifier.isSome ∧ port_match.identifier.isSome ∧ port.identifier ≠ port_match.identifier
          let refused := (lookup k.vocabulary.arg_kinds kind).any fun allowed => port_kind ∉ allowed
          if (lookup scope root).isSome || (k.scope.local_of root).isNone then []
          else if refused || other_structure then
            let named := if call.dependency = "self" then "self." ++ call.operation
              else "deps." ++ call.dependency ++ "." ++ call.operation
            let shown := if other_structure then port_kind ++ " " ++ port_match.identifier.getD "" else port_kind
            let local_kind := if other_structure then kind ++ " " ++ port.identifier.getD "" else kind
            [k.finding "local.arg_kind" (some w.node.id)
              [("call", .string named),
                ("argument", (argument.key.map Value.string).getD .null),
                ("port_kind", .string shown), ("path", .string path), ("kind", .string local_kind)]]
          else []
      | _, _ => []
  | _, _ => []

def check_arg_kinds (call : AgentProbe) (port_matches : List PortMatch) (w : Where) (scope : Scope) :
    List Finding :=
  call.arguments.flatMap (k.check_arg_kind call port_matches w scope)

/-- The agent a call goes to, its action, and the kinds of its arguments. -/
def check_dependency (call : AgentProbe) (w : Where) (scope : Scope) : List Finding :=
  let action := action_key_for call
  match k.scope.dependency call.dependency with
  | none =>
      if call.dependency ≠ "self" then
        [k.finding "deps.unknown" (some w.node.id)
          [("path", .string w.text), ("key", .string call.dependency),
            ("keys", .string (sorted_keys (k.scope.dependencies.map (·.key)).dedup)),
            ("hint", .string (dependency_hint call.dependency k.scope.kind))]]
      else []
  | some dependency =>
      if dependency.action_dependencies.any fun actions => !actions.any (·.key = action) then
        [k.finding "deps.unknown_action" (some w.node.id)
          [("path", .string w.text), ("key", .string call.dependency), ("action", .string action),
            ("actions", .string (sorted_keys ((dependency.action_dependencies.getD []).map (·.key))))]]
      else
        let demand := ((dependency.action_dependencies.getD []).find? (·.key = action)).bind (·.demand)
        match demand.bind (·.arg_matches) with
        | some port_matches => if port_matches = [] then [] else k.check_arg_kinds call port_matches w scope
        | none => []

def visit_agent_call (call : AgentProbe) (w : Where) (scope : Scope) : List Finding :=
  let action := action_key_for call
  if call.dependency = "self" ∧ "self" ∉ k.kind.roots then
    [k.not_in_kind w.node.id ("self." ++ action ++ "(...)") "self"]
  else if call.dependency ≠ "self" ∧ "deps" ∉ k.kind.roots then
    [k.not_in_kind w.node.id ("deps." ++ call.dependency ++ "." ++ action ++ "(...)") "deps"]
  else k.check_dependency call w scope

/-! ### A util call -/

/-- The function a call names, in the view if there is one. -/
def function_of (operation : String) : Option Function :=
  match k.view with
  | some view => view.function operation
  | none => k.vocabulary.function operation

/-- A literal name, bound no other way. -/
def literal_name (argument : ActionArgument) : Option String :=
  match argument with
  | .mk _ (some (.string name)) none none none none none => some name
  | _ => none

/-- A query effect names a declared query by a literal. -/
def check_query_effect (call : UtilCall) (verb : String) (w : Where) : List Finding :=
  match call.arguments.find? (·.key = some "query") with
  | none => []
  | some named =>
      match literal_name named with
      | none =>
          [k.finding "query.effect_target" (some w.node.id)
            [("function", .string call.operation), ("verb", .string verb),
              ("what", .string (argument_what k.rules.float_repr named))]]
      | some name =>
          let path := "queries." ++ name ++ "." ++ verb ++ "()"
          if "queries" ∉ k.kind.roots then [k.not_in_kind w.node.id path "queries"]
          else
            match k.scope.query name with
            | none =>
                [k.finding "query.unknown" (some w.node.id)
                  [("path", .string path), ("name", .string name),
                    ("names", .string (sorted_keys (k.scope.queries.map (·.key)).dedup))]]
            | some query =>
                if call.operation = FETCH_MORE_FUNCTION ∧ query.more = none then
                  [k.finding "query.fetch_more" (some w.node.id)
                    [("path", .string path), ("name", .string name)]]
                else []

def check_arguments (function : Function) (call : UtilCall) (w : Where) : List Finding :=
  let keys := (call.arguments.filterMap (·.key)).dedup
  let unknown := keys.filter fun key =>
    key ∉ function.keys && (key = "" || !key.toList.all Char.isDigit)
  let missing := function.required_keys.filter (· ∉ keys)
  (match unknown.mergeSort (· ≤ ·) with
    | first :: _ =>
        [k.finding "expr.arguments" (some w.node.id)
          [("function", .string call.operation),
            ("detail", .string ("has no argument " ++ repr_str first ++ " (" ++
              ", ".intercalate function.keys ++ ")"))]]
    | [] => []) ++
  (if missing ≠ [] then
    [k.finding "expr.arguments" (some w.node.id)
      [("function", .string call.operation), ("detail", .string ("needs " ++ ", ".intercalate missing))]]
  else [])

def visit_util_call (call : UtilCall) (w : Where) (top : Bool) : List Finding :=
  match k.function_of call.operation with
  | none =>
      if first_segment call.operation ∉ k.vocabulary.function_namespaces ∨ '.' ∉ call.operation.toList then
        [k.finding "expr.unknown_callee" (some w.node.id) [("callee", .string call.operation)]]
      else if k.view.isSome then
        [k.finding "expr.unknown_function" (some w.node.id) [("function", .string call.operation)]]
      else []
  | some function =>
      (if function.effect && !top then
        [k.finding "callback.nested" (some w.node.id) [("what", .string call.operation)]]
      else []) ++
      (match query_verb call.operation with
        | some verb => if top then k.check_query_effect call verb w else []
        | none => []) ++
      k.check_arguments function call w

/-! ### A prop -/

/-- A callback prop holds a call or an effect, and no other prop does. -/
def check_callback (node : ComponentNode) (prop : ComponentProp) (spec : CatalogProp) : List Finding :=
  let holds := is_callback_value k.vocabulary prop
  let has_value := prop.static_value.isSome || prop.dynamic_value.isSome || prop.util_call.isSome ||
    prop.agent_call.isSome
  if spec.kind = .CALLBACK ∧ has_value ∧ ¬ holds then
    [k.finding "callback.unbound" (some node.id)
      [("key", .string prop.key), ("component", .string node.component)]]
  else if spec.kind ≠ .CALLBACK ∧ holds then
    [k.finding "callback.not_callback" (some node.id)
      [("key", .string prop.key), ("component", .string node.component),
        ("what", .string (what k.rules.float_repr prop))]]
  else []

/-- A typed prop is no string. -/
def check_literal (node : ComponentNode) (prop : ComponentProp) (spec : CatalogProp) : List Finding :=
  match prop.static_value with
  | some (.string value) =>
      if spec.kind ∈ [CatalogValueKind.BOOL, .INT, .FLOAT] ∧ prop.key ≠ BIND_PROP then
        [k.finding "props.literal_type" (some node.id)
          [("component", .string node.component), ("key", .string prop.key), ("value", .string value),
            ("kind", .string spec.kind.value),
            ("hint", .string (k.rules.literal_hint prop.key value spec.kind.value))]]
      else []
  | _ => []

/-- An asset prop names an agent's asset. -/
def check_asset (node : ComponentNode) (prop : ComponentProp) (spec : CatalogProp) : List Finding :=
  let path := (prop.dynamic_value.bind (·.path)).getD ""
  let agent :=
    match parts_of path with
    | "self" :: rest => rest
    | "deps" :: _ :: rest => rest
    | _ => []
  if spec.kind = .ASSET ∧ (agent.length ≠ 2 ∨ agent.head? ≠ some k.vocabulary.assets_segment) then
    [k.finding "catalog.asset" (some node.id)
      [("key", .string prop.key), ("component", .string node.component)]]
  else []

/-- The local a control writes is of a kind that it writes. -/
def check_bind_kind (node : ComponentNode) (prop_kind path : String) : List Finding :=
  match lookup k.vocabulary.bind_kinds prop_kind, k.local_port path with
  | some allowed, some port =>
      if port.kind.value ∉ allowed then
        [k.finding "local.bind_kind" (some node.id)
          [("key", .string BIND_PROP), ("component", .string node.component),
            ("prop_kind", .string prop_kind), ("path", .string path), ("kind", .string port.kind.value),
            ("kinds", .string (", ".intercalate (allowed.mergeSort (· ≤ ·))))]]
      else []
  | _, _ => []

/-- A control binds a declared local. -/
def check_bind (node : ComponentNode) (prop : ComponentProp) (spec : Option CatalogProp) : List Finding :=
  if prop.key = BIND_PROP then
    match prop.dynamic_value.bind (·.path) with
    | none =>
        [k.finding "local.bind" (some node.id) [("what", .string (what k.rules.float_repr prop))]]
    | some path =>
        let root := first_segment path
        if (k.scope.local_of root).isSome then
          match spec with
          | some spec => k.check_bind_kind node spec.kind.value path
          | none => []
        else
          [k.finding "local.unknown" (some node.id) [("path", .string path), ("root", .string root)]]
  else []

/-- A toast watches a record of the blok's own. -/
def check_toast (node : ComponentNode) (prop : ComponentProp) : List Finding :=
  let path := prop.dynamic_value.bind (·.path)
  if node.component = "Toast" ∧ prop.key = "task" ∧ path.all fun p => p ≠ "task" ∧ p ∉ k.into then
    [k.finding "toast.task" (some node.id)
      [("what", .string (path.getD (what k.rules.float_repr prop)))]]
  else []

/-- What a string on a prop is styled with. -/
def check_style (node : ComponentNode) (prop : ComponentProp) (spec : Option CatalogComponent) :
    List Finding :=
  match prop.static_value with
  | some (.string value) =>
      (if prop.key = CLASS_NAME then k.rules.check_classes value node.id else []) ++
      (if k.scope.drawn_in = "LOGO" ∧ prop.key ∈ k.vocabulary.logo_paint_props then
        k.rules.check_paint node prop.key value else []) ++
      (if (spec.any fun spec => spec.context = .SCENE) ∧ prop.key ∈ k.vocabulary.scene_paint_props then
        k.rules.check_scene_colour node prop.key value else [])
  | _ => []

def check_class_call (node : ComponentNode) (prop : ComponentProp) : List Finding :=
  match prop.util_call with
  | some call =>
      if prop.key = CLASS_NAME then
        (class_literals call).flatMap fun literal => k.rules.check_classes literal node.id
      else []
  | none => []

/-- What a prop's own declaration says of it. -/
def check_declared (node : ComponentNode) (prop : ComponentProp) (spec : Option CatalogProp) :
    List Finding :=
  match spec with
  | some spec => k.check_callback node prop spec ++ k.check_literal node prop spec ++ k.check_asset node prop spec
  | none => []

/-- Only a kind of blok that reads `task` answers it. -/
def check_answer (node : ComponentNode) (prop : ComponentProp) : List Finding :=
  if (prop.util_call.any fun call => call.operation = "task.answer") ∧ "task" ∉ k.kind.roots then
    [k.not_in_kind node.id "task.answer" "task"]
  else []

def prop_findings (node : ComponentNode) (prop : ComponentProp) (spec : Option CatalogComponent) :
    List Finding :=
  let prop_spec := spec.bind (·.prop prop.key)
  k.check_declared node prop prop_spec ++ k.check_answer node prop ++ k.check_bind node prop prop_spec ++
    k.check_toast node prop ++ k.check_style node prop spec ++ k.check_class_call node prop

/-- The local that a bind writes. -/
def bound_local (prop : ComponentProp) : Option String :=
  if prop.key = BIND_PROP then
    ((prop.dynamic_value.bind (·.path)).map first_segment).filter fun root =>
      (k.scope.local_of root).isSome
  else none

end Checker

end Rekuest.Bloks
