import Rekuest.Bloks.Checker

/-!
# The walk of the checker

The checker goes through the tree once, a node before its children: the component against
the catalogs and its props against what it declares, then what each prop holds, with every
call and argument in it.
-/

namespace Rekuest.Bloks

open Rekuest.Ports Rekuest.Inputs Rekuest.Formulas

/-- The loop variable that a `foreach` declares. -/
def foreach_let (node : ComponentNode) : Option String :=
  if node.component ≠ FOREACH_COMPONENT then none
  else
    (node.props.filter (·.key = FOREACH_LET_PROP)).findSome? fun prop =>
      prop.declares_value.filter (· ≠ "")

mutual

/-- Every name a task call writes its record to, with its call sites. -/
def into_sites : ComponentNode → List (String × AgentProbe)
  | .mk _ _ props children =>
      (props.filterMap fun prop =>
        match prop.agent_call, prop.declares_value.filter (· ≠ "") with
        | some call, some name => some (name, call)
        | _, _ => none) ++ into_sites_in children

def into_sites_in : List ComponentNode → List (String × AgentProbe)
  | [] => []
  | node :: rest => into_sites node ++ into_sites_in rest

end

/-- What the checker has found so far, and seen. -/
structure Found where
  findings : List Finding := []
  bound_locals : List String := []
  shadowed : List String := []

def Found.report (found : Found) (new : List Finding) : Found :=
  { found with findings := found.findings ++ new }

namespace Checker

variable (k : Checker)

/-! ## Calls and arguments -/

mutual

def walk_argument (w : Where) (scope : Scope) : ActionArgument → List Finding
  | .mk _ _ path agent util list dict =>
      (match path with
        | some path => (k.rules.resolve path (some w) scope w.text).2
        | none => []) ++
      (match agent with
        | some (.mk dependency operation arguments) =>
            k.visit_agent_call (.mk dependency operation arguments) w scope ++
              walk_arguments w scope arguments
        | none => []) ++
      (match util with
        | some (.mk operation arguments) =>
            k.visit_util_call (.mk operation arguments) w false ++ walk_arguments w scope arguments
        | none => []) ++
      (match list with
        | some items => walk_arguments w scope items
        | none => []) ++
      (match dict with
        | some items => walk_arguments w scope items
        | none => [])

def walk_arguments (w : Where) (scope : Scope) : List ActionArgument → List Finding
  | [] => []
  | argument :: rest => walk_argument w scope argument ++ walk_arguments w scope rest

end

/-- A util call, and its arguments. -/
def walk_util (call : UtilCall) (scope : Scope) (w : Where) (top : Bool) : List Finding :=
  k.visit_util_call call w top ++ k.walk_arguments w scope call.arguments

def walk_prop (node : ComponentNode) (prop : ComponentProp) (scope : Scope) (in_error : Bool) :
    List Finding :=
  let w : Where := { node, key := prop.key, callback := is_callback_value k.vocabulary prop, in_error }
  (match prop.dynamic_value.bind (·.path) with
    | some path => (k.rules.resolve path (some w) scope w.text).2
    | none => []) ++
  (match prop.agent_call with
    | some call => k.visit_agent_call call w scope ++ k.walk_arguments w scope call.arguments
    | none => []) ++
  (match prop.util_call with
    | some call => k.walk_util call scope w true
    | none => [])

/-! ## Components -/

/-- The context that the components above draw in. -/
def context_of (view : BlokView) (ancestors : List ComponentNode) : String :=
  ancestors.foldl
    (fun context ancestor =>
      match view.component ancestor.component with
      | some above =>
          if above.inherits_context then context
          else (above.children_context.getD above.context).value
      | none => context)
    "HTML"

def repr_strings (items : List String) : String := "[" ++ ", ".intercalate (items.map repr_str) ++ "]"

/-- A finding of a component, with a detail. -/
def detailed (code : String) (node : ComponentNode) (detail : String) : Finding :=
  k.finding code (some node.id) [("component", .string node.component), ("detail", .string detail)]

/-- The keys of a node's props that its component does not declare. -/
def unknown_props (node : ComponentNode) (spec : CatalogComponent) : List String :=
  ((node.props.map (·.key)).dedup.filter fun key =>
    key ≠ WHEN_PROP && !spec.props.any (·.key = key)).mergeSort (· ≤ ·)

def check_props (node : ComponentNode) (spec : CatalogComponent) : List Finding :=
  let unknown := unknown_props node spec
  let missing := ((spec.props.filter fun prop =>
    prop.required && !node.props.any (·.key = prop.key)).map (·.key)).mergeSort (· ≤ ·)
  (if unknown ≠ [] then [k.detailed "catalog.props" node ("has no props " ++ repr_strings unknown)]
    else []) ++
  (if missing ≠ [] then [k.detailed "catalog.props" node ("requires props " ++ repr_strings missing)]
    else [])

def check_placement (view : BlokView) (node : ComponentNode) (spec : CatalogComponent)
    (ancestors : List ComponentNode) : List Finding :=
  let context := context_of view ancestors
  let names := ancestors.map (·.component)
  let forbidden := ((spec.not_downstream_of.filter (· ∈ names)).mergeSort (· ≤ ·)).dedup
  (if ¬ spec.inherits_context ∧ spec.context.value ≠ context then
    [k.detailed "catalog.placement" node
      ("is a " ++ spec.context.value.toLower ++ " component, not one of the " ++ context.toLower ++ " context")]
    else []) ++
  (if spec.downstream_of ≠ [] ∧ ¬ spec.downstream_of.any (· ∈ names) then
    [k.detailed "catalog.placement" node
      ("must be inside one of " ++ repr_strings (spec.downstream_of.mergeSort (· ≤ ·)))]
    else []) ++
  (if forbidden ≠ [] then
    [k.detailed "catalog.placement" node ("must not be inside " ++ repr_strings forbidden)]
    else [])

/-- Only the versioned standard catalogs are declared. -/
def check_undeclared (node : ComponentNode) (spec : CatalogComponent) : List Finding :=
  match spec.catalog with
  | some catalog =>
      let standard := '@' ∈ catalog.toList ∧
        (k.vocabulary.catalog_version (String.ofList (catalog.toList.takeWhile (· ≠ '@')))).isSome
      if k.scope.catalogs ≠ [] ∧ standard ∧ catalog ∉ k.scope.catalogs then
        [k.finding "catalog.undeclared" (some node.id)
          [("component", .string node.component), ("catalog", .string catalog)]]
      else []
  | none => []

def check_catalog (view : BlokView) (node : ComponentNode) (spec : CatalogComponent)
    (ancestors : List ComponentNode) : List Finding :=
  (if node.children ≠ [] ∧ ¬ spec.accepts_children then
    [k.finding "catalog.children" (some node.id) [("component", .string node.component)]]
    else []) ++
  k.check_props node spec ++ k.check_placement view node spec ancestors ++ k.check_undeclared node spec

/-- The component in the catalogs, as far as a view tells. -/
def component_findings (node : ComponentNode) (ancestors : List ComponentNode) : List Finding :=
  match k.view with
  | none => []
  | some view =>
      match view.component node.component with
      | none =>
          if view.complete then
            [k.finding "catalog.unknown_component" (some node.id)
              [("component", .string node.component), ("catalogs", .string view.label)]]
          else []
      | some spec => k.check_catalog view node spec ancestors

/-- A component that two sources define is reported where it is used first. -/
def check_shadow (node : ComponentNode) (found : Found) : Found :=
  match k.view.bind fun view => lookup view.shadows node.component with
  | none => found
  | some shadow =>
      if node.component ∈ found.shadowed then found
      else
        { found with shadowed := found.shadowed ++ [node.component] }.report
          [k.finding "catalog.shadow" (some node.id)
            [("component", .string node.component), ("catalog", .string shadow.catalog),
              ("module", .string shadow.module), ("winner", .string shadow.winner)]]

def check_prop (node : ComponentNode) (spec : Option CatalogComponent) (found : Found)
    (prop : ComponentProp) : Found :=
  { found with bound_locals := found.bound_locals ++ (k.bound_local prop).toList }.report
    (k.prop_findings node prop spec)

/-- The component a node names, in the view. -/
def spec_of (node : ComponentNode) : Option CatalogComponent :=
  k.view.bind fun view => view.component node.component

def visit_component (node : ComponentNode) (ancestors : List ComponentNode) (found : Found) : Found :=
  node.props.foldl (k.check_prop node (k.spec_of node))
    (k.check_shadow node (found.report (k.component_findings node ancestors)))

/-! ## The walk -/

/-- The items of a `foreach` are keyed where they are known to be no scalars. -/
def position_key (node : ComponentNode) (named : String) (compound : Bool) : List Finding :=
  if compound ∧ ¬ node.props.any (·.key = FOREACH_KEY_PROP) then
    [k.finding "foreach.position_key" (some node.id) [("let", .string named)]]
  else []

/-- The shape of what a path to a list holds one of. -/
def item_shape (node : ComponentNode) (named path : String) : Option Shape → Shape × List Finding
  | some (.mk _ _ false (some [.mk (some "...") item_kind opened children])) =>
      let compound := (children.getD []).length > 0 || item_kind.any (· ∈ COMPOUND_KINDS)
      (.mk (some named) item_kind opened children, k.position_key node named compound)
  | some (.mk _ kind false _) =>
      match kind with
      | none | some .LIST => (.open_ named, [])
      | some kind =>
          (.open_ named, [k.finding "path.unknown" (some node.id)
            [("path", .string path),
              ("detail", .string (FOREACH_ITEMS_PROP ++ " of a foreach reads a list, not this " ++
                kind.value.toLower))]])
  | _ => (.open_ named, [])

/-- What a loop variable holds: an item of what the `foreach` reads. -/
def bind_let (node : ComponentNode) (named : String) (scope : Scope) (in_error : Bool) :
    Shape × List Finding :=
  let items := node.props.find? (·.key = FOREACH_ITEMS_PROP)
  let w : Where := { node, key := FOREACH_ITEMS_PROP, callback := false, in_error }
  let literal :=
    match items.bind (·.static_value) with
    | some (.array values) =>
        k.position_key node named (values.any fun item =>
          match item with
          | .object _ | .array _ => true
          | _ => false)
    | _ => []
  match (items.bind (·.dynamic_value)).bind (·.path) with
  | none => (.open_ named, literal)
  | some path =>
      let resolved := k.rules.resolve path none scope w.text
      let item := k.item_shape node named path resolved.1
      (item.1, literal ++ resolved.2 ++ item.2)

/-- The names in scope in a node's children, and what was found of its loop. -/
def inner_scope (node : ComponentNode) (scope : Scope) (in_error : Bool) : Scope × List Finding :=
  match foreach_let node with
  | none => (scope, [])
  | some named =>
      let bound := k.bind_let node named scope in_error
      (scope ++ [(named, bound.1)], bound.2)

def walk_props (node : ComponentNode) (scope inner : Scope) (in_error : Bool) : List Finding :=
  node.props.flatMap fun prop =>
    k.walk_prop node prop
      (if (foreach_let node).isSome ∧ prop.key = FOREACH_ITEMS_PROP then scope else inner) in_error

/-- The slot of a `suspense` that its error is drawn in. -/
def in_slot (node : ComponentNode) (ancestors : List ComponentNode) (in_error : Bool) : Bool :=
  in_error || (node.component = ERROR_SLOT &&
    ancestors.getLast?.any fun above => above.component = SUSPENSE_COMPONENT)

/-- A node without its children. -/
def walk_self (node : ComponentNode) (scope : Scope) (ancestors : List ComponentNode) (in_error : Bool)
    (found : Found) : Found :=
  let inner := k.inner_scope node scope in_error
  ((k.visit_component node ancestors found).report inner.2).report
    (k.walk_props node scope inner.1 in_error)

mutual

def walk_node : ComponentNode → Scope → List ComponentNode → Bool → Found → Found
  | .mk id component props children, scope, ancestors, in_error, found =>
      let node := ComponentNode.mk id component props children
      walk_nodes children (k.inner_scope node scope in_error).1 (ancestors ++ [node])
        (in_slot node ancestors in_error) (k.walk_self node scope ancestors in_error found)

def walk_nodes : List ComponentNode → Scope → List ComponentNode → Bool → Found → Found
  | [], _, _, _, found => found
  | node :: rest, scope, ancestors, in_error, found =>
      walk_nodes rest scope ancestors in_error (walk_node node scope ancestors in_error found)

end

/-- A local that is remembered is bound somewhere. -/
def finish (found : Found) : List Finding :=
  found.findings ++ (k.scope.locals.filter fun l => l.persist && l.key ∉ found.bound_locals).map fun l =>
    k.finding "local.unused_persist" (some ("locals." ++ l.key)) [("name", .string l.key)]

end Checker

/-- Every finding of a tree against what the blok declares and what draws it. -/
def check_blok_tree (rules : Rules) (vocabulary : Vocabulary) (tree : ComponentNode) (scope : BlokScope)
    (view : Option BlokView) : List Finding :=
  let scope := rules.resolve_scope tree scope
  match vocabulary.kind scope.kind with
  | none =>
      [.of rules.float_repr "context.kind" none
        [("n", .string (article scope.kind)), ("kind", .string scope.kind), ("contexts", .string "none"),
          ("context", .string scope.context)]]
  | some kind =>
      let sites := into_sites tree
      let k : Checker := { rules, vocabulary, scope, kind, view, into := sites.map (·.1) }
      -- of several sites of a name, the first is the one whose record it is
      let root_scope := sites.reverse.map fun (name, call) => (name, rules.bind_into name call)
      let found := k.walk_node tree root_scope [] false { findings := rules.check_declarations tree scope }
      k.finish (found.report (if scope.drawn_in = "LOGO" then rules.check_logo tree else []))

end Rekuest.Bloks
