import Mathlib.Data.List.Dedup
import Rekuest.Bloks.Visits

/-!
# Effects run only as callbacks

In a tree without errors no effect is nested in an argument, and a task call or an effect at
the top of a prop that its component declares stands on a callback: `calls_placed`.  A prop
or a component that no catalog declares is only reported, and a task call inside an argument
is not refused.
-/

namespace Rekuest.Bloks

open Rekuest.Ports Rekuest.Inputs Rekuest.Formulas

/-! ## Where calls stand -/

mutual

def agent_calls_of : ActionArgument → List AgentProbe
  | .mk _ _ _ agent util list dict =>
      (match agent with
        | some (.mk dependency operation arguments) =>
            .mk dependency operation arguments :: iter_agent_calls arguments
        | none => []) ++
      (match util with
        | some (.mk _ arguments) => iter_agent_calls arguments
        | none => []) ++
      (match list with
        | some items => iter_agent_calls items
        | none => []) ++
      (match dict with
        | some items => iter_agent_calls items
        | none => [])

/-- Every task call nested anywhere inside an argument tree. -/
def iter_agent_calls : List ActionArgument → List AgentProbe
  | [] => []
  | argument :: rest => agent_calls_of argument ++ iter_agent_calls rest

end

/-- The arguments of a prop's call. -/
def ComponentProp.arguments (prop : ComponentProp) : List ActionArgument :=
  (prop.agent_call.map (·.arguments)).getD [] ++ (prop.util_call.map (·.arguments)).getD []

/-- Whether a call's function is an effect. -/
def BlokView.effect (view : BlokView) (call : UtilCall) : Bool :=
  (view.function call.operation).any (·.effect)

/-- A task call or an effect at the top of a prop. -/
def BlokView.runs (view : BlokView) (prop : ComponentProp) : Bool :=
  prop.agent_call.isSome || prop.util_call.any view.effect

/-- The prop of a node, as its component declares it. -/
def BlokView.declared (view : BlokView) (node : ComponentNode) (prop : ComponentProp) :
    Option CatalogProp :=
  (view.component node.component).bind (·.prop prop.key)

/-- Calls stand only at the top of declared callbacks. -/
structure OnlyCallbacks (view : BlokView) (node : ComponentNode) (prop : ComponentProp) : Prop where
  tasks : iter_agent_calls prop.arguments = []
  effects : ∀ call ∈ iter_util_calls prop.arguments, view.effect call = false
  callback : view.runs prop = true → ∃ spec, view.declared node prop = some spec ∧ spec.kind = .CALLBACK

/-- No effect stands in an argument; a call on a declared prop stands on a callback, and one
on an undeclared prop is reported, `when` apart. -/
structure Placed (view : BlokView) (findings : List Finding) (node : ComponentNode)
    (prop : ComponentProp) : Prop where
  effects : ∀ call ∈ iter_util_calls prop.arguments, view.effect call = false
  callback : view.runs prop = true → ∀ spec, view.declared node prop = some spec → spec.kind = .CALLBACK
  bind : view.runs prop = true → prop.key ≠ BIND_PROP
  reported : view.runs prop = true → view.declared node prop = none → prop.key ≠ WHEN_PROP →
    ∃ f ∈ findings, f.path = some node.id ∧
      (f.code = "catalog.unknown_component" ∨ f.code = "catalog.props")

/-! ## Effects in arguments -/

namespace Checker

variable {k : Checker} {view : BlokView}

/-- An effect that is not at the top is an error. -/
theorem visit_nested (hView : k.view = some view) {call : UtilCall} (hEffect : view.effect call = true)
    (w : Where) : ∃ f ∈ k.visit_util_call call w false, f.is_error = true := by
  unfold BlokView.effect at hEffect
  obtain ⟨function, hFunction, hIsEffect⟩ := (Option.any_eq_true _ _).1 hEffect
  refine ⟨k.finding "callback.nested" (some w.node.id) [("what", .string call.operation)], ?_, rfl⟩
  have hFound : k.function_of call.operation = some function := by
    unfold function_of
    rw [hView]
    exact hFunction
  unfold visit_util_call
  rw [hFound]
  dsimp only
  rw [hIsEffect]
  apply List.mem_append_left
  apply List.mem_append_left
  exact List.mem_singleton_self _

/-- An error of one of the parts is an error of the whole. -/
theorem error_of_part {part whole : List Finding} (hPart : part ⊆ whole)
    (h : ∃ f ∈ part, f.is_error = true) : ∃ f ∈ whole, f.is_error = true := by
  obtain ⟨f, hf, hError⟩ := h
  exact ⟨f, hPart hf, hError⟩

theorem walk_arguments_mem {w : Where} {scope : Scope} {arguments : List ActionArgument}
    {argument : ActionArgument} (hArgument : argument ∈ arguments) :
    k.walk_argument w scope argument ⊆ k.walk_arguments w scope arguments := by
  induction arguments with
  | nil => cases hArgument
  | cons first rest ih =>
      rw [walk_arguments]
      cases hArgument with
      | head => exact List.subset_append_left _ _
      | tail _ hRest => exact List.Subset.trans (ih hRest) (List.subset_append_right _ _)

theorem mem_iter_util_calls {arguments : List ActionArgument} {call : UtilCall} :
    call ∈ iter_util_calls arguments ↔ ∃ argument ∈ arguments, call ∈ calls_of argument := by
  induction arguments with
  | nil => simp [iter_util_calls]
  | cons first rest ih => simp [iter_util_calls, ih]

/-- Arguments whose nested effects are errors, together. -/
theorem arguments_nested {w : Where} {scope : Scope} {arguments : List ActionArgument}
    (h : ∀ argument ∈ arguments, ∀ call ∈ calls_of argument, view.effect call = true →
      ∃ f ∈ k.walk_argument w scope argument, f.is_error = true) :
    ∀ call ∈ iter_util_calls arguments, view.effect call = true →
      ∃ f ∈ k.walk_arguments w scope arguments, f.is_error = true := by
  intro call hCall hEffect
  obtain ⟨argument, hArgument, hCall⟩ := mem_iter_util_calls.1 hCall
  exact error_of_part (walk_arguments_mem hArgument) (h argument hArgument call hCall hEffect)

/-- An effect nested in an argument is an error, by induction on the argument. -/
theorem argument_nested (hView : k.view = some view) (w : Where) (scope : Scope) :
    ∀ argument, ∀ call ∈ calls_of argument, view.effect call = true →
      ∃ f ∈ k.walk_argument w scope argument, f.is_error = true := by
  refine (calls_ind
    (P := fun argument => ∀ call ∈ calls_of argument, view.effect call = true →
      ∃ f ∈ k.walk_argument w scope argument, f.is_error = true)
    (Q := fun util => ∀ call ∈ iter_util_calls util.arguments, view.effect call = true →
      ∃ f ∈ k.walk_arguments w scope util.arguments, f.is_error = true)
    (R := fun agent => ∀ call ∈ iter_util_calls agent.arguments, view.effect call = true →
      ∃ f ∈ k.walk_arguments w scope agent.arguments, f.is_error = true) ?_ ?_ ?_).1
  · intro key literal path agent util list dict hAgent hUtil hList hDict call hCall hEffect
    rw [calls_of.eq_def, List.mem_append, List.mem_append, List.mem_append] at hCall
    rw [walk_argument.eq_def]
    dsimp only at hCall ⊢
    obtain ((hCall | hCall) | hCall) | hCall := hCall
    · cases util with
      | none => cases hCall
      | some util =>
          cases util with
          | mk operation arguments =>
              apply error_of_part (List.subset_append_of_subset_left _
                (List.subset_append_of_subset_left _ (List.subset_append_right _ _)))
              cases hCall with
              | head => exact error_of_part (List.subset_append_left _ _) (visit_nested hView hEffect w)
              | tail _ hCall =>
                  exact error_of_part (List.subset_append_right _ _) (hUtil _ rfl call hCall hEffect)
    · cases agent with
      | none => cases hCall
      | some agent =>
          cases agent with
          | mk dependency operation arguments =>
              apply error_of_part (List.subset_append_of_subset_left _
                (List.subset_append_of_subset_left _ (List.subset_append_of_subset_left _
                  (List.subset_append_right _ _))))
              exact error_of_part (List.subset_append_right _ _) (hAgent _ rfl call hCall hEffect)
    · cases list with
      | none => cases hCall
      | some items =>
          apply error_of_part (List.subset_append_of_subset_left _ (List.subset_append_right _ _))
          exact arguments_nested (hList items rfl) call hCall hEffect
    · cases dict with
      | none => cases hCall
      | some items =>
          apply error_of_part (List.subset_append_right _ _)
          exact arguments_nested (hDict items rfl) call hCall hEffect
  · intro operation arguments hArguments
    exact arguments_nested hArguments
  · intro dependency operation arguments hArguments
    exact arguments_nested hArguments

/-- What is found of a prop includes all that is found in its call's arguments. -/
theorem prop_nested (hView : k.view = some view) (node : ComponentNode) (prop : ComponentProp)
    (scope : Scope) (in_error : Bool) :
    ∀ call ∈ iter_util_calls prop.arguments, view.effect call = true →
      ∃ f ∈ k.walk_prop node prop scope in_error, f.is_error = true := by
  intro call hCall hEffect
  obtain ⟨argument, hArgument, hCall⟩ := mem_iter_util_calls.1 hCall
  have hNested := argument_nested hView
    { node, key := prop.key, callback := is_callback_value k.vocabulary prop, in_error } scope argument
    call hCall hEffect
  unfold walk_prop
  dsimp only
  cases List.mem_append.1 hArgument with
  | inl hAgent =>
      cases hProp : prop.agent_call with
      | none =>
          rw [hProp] at hAgent
          cases hAgent
      | some agent =>
          rw [hProp] at hAgent
          apply error_of_part (List.subset_append_of_subset_left _ (List.subset_append_right _ _))
          apply error_of_part (List.subset_append_right _ _)
          exact error_of_part (walk_arguments_mem hAgent) hNested
  | inr hUtil =>
      cases hProp : prop.util_call with
      | none =>
          rw [hProp] at hUtil
          cases hUtil
      | some util =>
          rw [hProp] at hUtil
          apply error_of_part (List.subset_append_right _ _)
          apply error_of_part (List.subset_append_right _ _)
          exact error_of_part (walk_arguments_mem hUtil) hNested

/-! ## Calls on props -/

/-- A declared prop that is no callback refuses a call. -/
theorem prop_not_callback {node : ComponentNode} {prop : ComponentProp}
    {component : CatalogComponent} {spec : CatalogProp} (hSpec : component.prop prop.key = some spec)
    (hKind : spec.kind ≠ .CALLBACK) (hHolds : is_callback_value k.vocabulary prop = true) :
    ∃ f ∈ k.prop_findings node prop (some component), f.is_error = true := by
  let f := k.finding "callback.not_callback" (some node.id)
    [("key", .string prop.key), ("component", .string node.component),
      ("what", .string (what k.rules.float_repr prop))]
  have hCallback : k.check_callback node prop spec = [f] := by
    unfold check_callback
    dsimp only
    rw [if_neg (fun h => hKind h.1), if_pos ⟨hKind, hHolds⟩]
  refine ⟨f, ?_, rfl⟩
  unfold prop_findings
  dsimp only [Option.bind]
  rw [hSpec]
  iterate 5 apply List.mem_append_left
  unfold check_declared
  dsimp only
  iterate 2 apply List.mem_append_left
  rw [hCallback]
  exact List.mem_singleton_self _

/-- A bind without a path is refused. -/
theorem prop_bind {node : ComponentNode} {prop : ComponentProp} {spec : Option CatalogComponent}
    (hKey : prop.key = BIND_PROP) (hPath : prop.dynamic_value = none) :
    ∃ f ∈ k.prop_findings node prop spec, f.is_error = true := by
  refine ⟨k.finding "local.bind" (some node.id) [("what", .string (what k.rules.float_repr prop))], ?_, rfl⟩
  unfold prop_findings
  dsimp only
  iterate 3 apply List.mem_append_left
  apply List.mem_append_right
  unfold check_bind
  rw [if_pos hKey, hPath]
  exact List.mem_singleton_self _

/-- A prop that no catalog declares is reported at its node. -/
theorem undeclared_reported (hView : k.view = some view) (hComplete : view.complete = true)
    {node : ComponentNode} {prop : ComponentProp} (hProp : prop ∈ node.props)
    (hUndeclared : view.declared node prop = none) (hKey : prop.key ≠ WHEN_PROP)
    (ancestors : List ComponentNode) :
    ∃ f ∈ k.component_findings node ancestors, f.path = some node.id ∧
      (f.code = "catalog.unknown_component" ∨ f.code = "catalog.props") := by
  unfold component_findings
  rw [hView]
  dsimp only
  unfold BlokView.declared at hUndeclared
  cases hComponent : view.component node.component with
  | none =>
      dsimp only
      rw [if_pos hComplete]
      exact ⟨_, List.mem_singleton_self _, rfl, .inl rfl⟩
  | some component =>
      rw [hComponent] at hUndeclared
      have hNone : component.props.find? (·.key = prop.key) = none := hUndeclared
      have hUnknown : unknown_props node component ≠ [] := by
        have hMem : prop.key ∈ unknown_props node component := by
          unfold unknown_props
          rw [List.mem_mergeSort, List.mem_filter, List.mem_dedup]
          refine ⟨List.mem_map_of_mem hProp, ?_⟩
          rw [List.find?_eq_none] at hNone
          have hAny : component.props.any (fun p => p.key = prop.key) = false := by
            rw [List.any_eq_false]
            exact hNone
          simp [hKey, hAny]
        exact List.ne_nil_of_mem hMem
      refine ⟨k.detailed "catalog.props" node
        ("has no props " ++ repr_strings (unknown_props node component)), ?_, rfl, .inr rfl⟩
      unfold check_catalog check_props
      dsimp only
      rw [if_pos hUnknown]
      iterate 2 apply List.mem_append_left
      apply List.mem_append_right
      apply List.mem_append_left
      exact List.mem_singleton_self _

/-- Where the walk comes by a prop and nothing found is an error, the prop's calls are placed. -/
theorem placed_of_visited (hView : k.view = some view) (hComplete : view.complete = true)
    (hEffects : ∀ call, view.effect call = true → is_effect k.vocabulary call = true)
    {node : ComponentNode} {l : List Finding} (hVisited : k.Visited node l)
    (hClean : ∀ f ∈ l, f.is_error = false) {prop : ComponentProp} (hProp : prop ∈ node.props)
    (hValid : prop.validate_blok = .ok ()) : Placed view l node prop := by
  obtain ⟨scope, ancestors, in_error, hComponent, hProps, hWalk⟩ := hVisited
  have hNone : ¬ ∃ f ∈ l, f.is_error = true := by
    intro hError
    obtain ⟨f, hf, hError⟩ := hError
    rw [hClean f hf] at hError
    cases hError
  have hHolds : view.runs prop = true → is_callback_value k.vocabulary prop = true := by
    unfold BlokView.runs is_callback_value
    rw [Bool.or_eq_true, Bool.or_eq_true, Option.any_eq_true, Option.any_eq_true]
    intro hRuns
    cases hRuns with
    | inl hAgent => exact .inl hAgent
    | inr hUtil =>
        obtain ⟨call, hCall, hEffect⟩ := hUtil
        exact .inr ⟨call, hCall, hEffects call hEffect⟩
  constructor
  · intro call hCall
    cases hEffect : view.effect call with
    | false => rfl
    | true =>
        exfalso
        apply hNone
        apply error_of_part hWalk
        unfold walk_props
        obtain ⟨f, hf, hError⟩ := prop_nested hView node prop _ in_error call hCall hEffect
        exact ⟨f, List.mem_flatMap.2 ⟨prop, hProp, hf⟩, hError⟩
  · intro hRuns spec hDeclared
    unfold BlokView.declared at hDeclared
    obtain ⟨component, hIs, hSpec⟩ := Option.bind_eq_some_iff.1 hDeclared
    by_contra hKind
    apply hNone
    have hSpecOf : k.spec_of node = some component := by
      unfold spec_of
      rw [hView]
      exact hIs
    apply error_of_part (hProps prop hProp)
    rw [hSpecOf]
    exact prop_not_callback hSpec hKind (hHolds hRuns)
  · intro hRuns hKey
    apply hNone
    apply error_of_part (hProps prop hProp)
    apply prop_bind hKey
    apply path_none_of_call hValid
    unfold BlokView.runs at hRuns
    rw [Bool.or_eq_true, Option.any_eq_true] at hRuns
    cases hRuns with
    | inl hAgent => exact .inl hAgent
    | inr hUtil =>
        obtain ⟨call, hCall, -⟩ := hUtil
        rw [hCall]
        exact .inr rfl
  · intro hRuns hUndeclared hKey
    obtain ⟨f, hf, hReported⟩ := undeclared_reported hView hComplete hProp hUndeclared hKey ancestors
    exact ⟨f, hComponent hf, hReported⟩

/-- What was found of a node is there to the end. -/
theorem finish_visits (k : Checker) {tree node : ComponentNode} (hNode : node ∈ iter_nodes tree)
    (scope : Scope) (found : Found) (later : List Finding) :
    k.Visited node (k.finish ((k.walk_node tree scope [] false found).report later)) := by
  apply visited_lasts node _ (walk_node_visits tree hNode scope [] false found)
  exact (List.prefix_append _ _).trans (List.prefix_append _ _)

end Checker

/-! ## Checked trees -/

/-- In a valid tree whose check reports no error, no effect stands in an argument, every call
on a declared prop stands on a callback, and every call on another is reported or on `when`. -/
theorem calls_placed (rules : Rules) (vocabulary : Vocabulary) (catalogs : SpecCatalogs)
    (registered : Option (String × List CatalogComponent)) (operations : List CatalogOperation)
    (scope : BlokScope) {tree : ComponentNode} (hValid : tree.validate = .ok ())
    (hClean : ∀ f ∈ check_blok_tree rules vocabulary tree scope
      (some (blok_view vocabulary catalogs registered operations true)), f.is_error = false) :
    ∀ node ∈ iter_nodes tree, ∀ prop ∈ node.props,
      Placed (blok_view vocabulary catalogs registered operations true)
        (check_blok_tree rules vocabulary tree scope
          (some (blok_view vocabulary catalogs registered operations true))) node prop := by
  intro node hNode prop hProp
  unfold check_blok_tree at hClean ⊢
  dsimp only at hClean ⊢
  cases hKind : vocabulary.kind (rules.resolve_scope tree scope).kind with
  | none =>
      rw [hKind] at hClean
      have hError := hClean _ (List.mem_singleton_self _)
      cases hError
  | some kind =>
      rw [hKind] at hClean
      dsimp only at hClean ⊢
      have hVisited := Checker.finish_visits
        { rules, vocabulary, scope := rules.resolve_scope tree scope, kind
          view := some (blok_view vocabulary catalogs registered operations true)
          into := (into_sites tree).map (·.1) }
        hNode ((into_sites tree).reverse.map fun p => (p.1, rules.bind_into p.1 p.2))
        { findings := rules.check_declarations tree (rules.resolve_scope tree scope) }
        (if (rules.resolve_scope tree scope).drawn_in = "LOGO" then rules.check_logo tree else [])
      apply Checker.placed_of_visited rfl rfl _ hVisited hClean hProp
      · exact validate_each hValid node hNode prop hProp
      · intro call hEffect
        obtain ⟨function, hFunction, hIsEffect⟩ := (Option.any_eq_true _ _).1 hEffect
        exact (Option.any_eq_true _ _).2 ⟨function, effect_of_view hFunction hIsEffect, hIsEffect⟩

/-! ## A button -/

/-- Rules that find nothing, of a tree that reads no path and is not styled. -/
def plain_rules : Rules where
  float_repr _ := ""
  literal_hint _ _ _ := ""
  resolve_scope _ scope := scope
  check_declarations _ _ := []
  resolve _ _ _ _ := (none, [])
  bind_into name _ := .open_ name
  check_classes _ _ := []
  check_paint _ _ _ := []
  check_scene_colour _ _ _ := []
  check_logo _ := []

def agent_vocabulary : Vocabulary where
  function_namespaces := ["ui"]
  functions := [("ui.copy", { name := "ui.copy", params := [{ key := "text" }], effect := true })]
  kinds := [("agent", { name := "agent", roots := ["self", "args"], locals := true, contexts := ["HTML"] })]
  assets_segment := "assets"
  catalogs := [("ui", 1)]
  bind_kinds := []
  arg_kinds := []
  logo_paint_props := []
  scene_paint_props := []

def button_catalogs : SpecCatalogs where
  base := { name := "base", version := some 2, components := [{ name := "Html" }] }
  standard := [
    { name := "ui", version := some 1,
      components := [{ name := "Button", props := [{ key := "onClick", kind := .CALLBACK }] }] }]
  orkestrator := { name := "orkestrator", version := none, components := [] }

def on_click (position : ActionArgument) : ComponentProp where
  key := "onClick"
  agent_call := some (.mk "self" "move_to" [position])

def button (position : ActionArgument) : ComponentNode := .mk "Html[0]/Button[0]" "Button" [on_click position] []

/-- A blok of one button, which moves to where said. -/
def button_to (position : ActionArgument) : ComponentNode := .mk "Html[0]" "Html" [] [button position]

def one : ActionArgument := .mk (some "position") (some (.int 1)) none none none none none

/-- The position is what another task returns. -/
def asked : ActionArgument :=
  .mk (some "position") none none (some (.mk "self" "ask" [])) none none none

theorem button_placed :
    Placed (blok_view agent_vocabulary button_catalogs none [] true)
      (check_blok_tree plain_rules agent_vocabulary (button_to one) {}
        (some (blok_view agent_vocabulary button_catalogs none [] true))) (button one) (on_click one) := by
  refine calls_placed plain_rules agent_vocabulary button_catalogs none [] {} rfl ?_ _ ?_ _ ?_
  · decide +kernel
  · exact List.mem_cons_of_mem _ (List.mem_cons_self ..)
  · exact List.mem_singleton_self _

/-- A button whose call is on a prop that no catalog declares. -/
def on_hover : ComponentProp := { on_click one with key := "onHover" }

def hover_button : ComponentNode := .mk "Html[0]/Button[0]" "Button" [on_hover] []

/-- A call on a prop that no catalog declares is only reported. -/
theorem undeclared_call_passes :
    ¬ ∀ (rules : Rules) (vocabulary : Vocabulary) (catalogs : SpecCatalogs)
      (registered : Option (String × List CatalogComponent)) (operations : List CatalogOperation)
      (scope : BlokScope) (tree : ComponentNode), tree.validate = .ok () →
      (∀ f ∈ check_blok_tree rules vocabulary tree scope
        (some (blok_view vocabulary catalogs registered operations true)), f.is_error = false) →
      ∀ node ∈ iter_nodes tree, ∀ prop ∈ node.props,
        OnlyCallbacks (blok_view vocabulary catalogs registered operations true) node prop := by
  intro hAll
  have hClean : ∀ f ∈ check_blok_tree plain_rules agent_vocabulary (.mk "Html[0]" "Html" [] [hover_button]) {}
      (some (blok_view agent_vocabulary button_catalogs none [] true)), f.is_error = false := by
    decide +kernel
  have hButton := hAll plain_rules agent_vocabulary button_catalogs none [] {} _ rfl hClean
    hover_button (List.mem_cons_of_mem _ (List.mem_cons_self ..)) on_hover (List.mem_singleton_self _)
  obtain ⟨spec, hSpec, -⟩ := hButton.callback rfl
  have hNone : (blok_view agent_vocabulary button_catalogs none [] true).declared hover_button on_hover = none := by
    rfl
  rw [hNone] at hSpec
  cases hSpec

/-- A task call inside an argument is not refused. -/
theorem nested_task_passes :
    ¬ ∀ (rules : Rules) (vocabulary : Vocabulary) (catalogs : SpecCatalogs)
      (registered : Option (String × List CatalogComponent)) (operations : List CatalogOperation)
      (scope : BlokScope) (tree : ComponentNode), tree.validate = .ok () →
      (∀ f ∈ check_blok_tree rules vocabulary tree scope
        (some (blok_view vocabulary catalogs registered operations true)), f.is_error = false) →
      ∀ node ∈ iter_nodes tree, ∀ prop ∈ node.props,
        OnlyCallbacks (blok_view vocabulary catalogs registered operations true) node prop := by
  intro hAll
  have hClean : ∀ f ∈ check_blok_tree plain_rules agent_vocabulary (button_to asked) {}
      (some (blok_view agent_vocabulary button_catalogs none [] true)), f.is_error = false := by
    decide +kernel
  have hButton := hAll plain_rules agent_vocabulary button_catalogs none [] {} (button_to asked) rfl hClean
    (button asked) (List.mem_cons_of_mem _ (List.mem_cons_self ..)) (on_click asked)
    (List.mem_singleton_self _)
  have hTasks := hButton.tasks
  cases hTasks

end Rekuest.Bloks
