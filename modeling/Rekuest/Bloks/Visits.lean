import Rekuest.Bloks.Walk
import Rekuest.Walks.Growing

/-!
# What the walk comes by

The walk only adds to what is found, and comes by every node of the tree: by induction on
the tree, what the rules find at a node stands among the findings of the whole.
-/

namespace Rekuest.Bloks

open Rekuest.Ports Rekuest.Inputs Rekuest.Formulas Walks

namespace Checker

variable {k : Checker}

theorem report_grows (new : List Finding) : Grows Found.findings (·.report new) :=
  fun found => List.prefix_append found.findings new

theorem check_shadow_grows (node : ComponentNode) : Grows Found.findings (k.check_shadow node) := by
  intro found
  unfold check_shadow
  split
  · exact List.prefix_rfl
  · split
    · exact List.prefix_rfl
    · exact List.prefix_append ..

theorem check_prop_grows (node : ComponentNode) (spec : Option CatalogComponent) (prop : ComponentProp) :
    Grows Found.findings fun found => k.check_prop node spec found prop :=
  fun found => List.prefix_append found.findings _

theorem visit_props_grows (node : ComponentNode) :
    Grows Found.findings fun found => node.props.foldl (k.check_prop node (k.spec_of node)) found :=
  Grows.foldl fun prop _ => check_prop_grows node _ prop

theorem visit_component_grows (node : ComponentNode) (ancestors : List ComponentNode) :
    Grows Found.findings (k.visit_component node ancestors) := by
  apply (visit_props_grows node).comp
  apply (check_shadow_grows node).comp
  exact report_grows _

theorem walk_self_grows (node : ComponentNode) (scope : Scope) (ancestors : List ComponentNode)
    (in_error : Bool) : Grows Found.findings (k.walk_self node scope ancestors in_error) := by
  apply (report_grows _).comp
  apply (report_grows _).comp
  exact visit_component_grows node ancestors

theorem walk_nodes_grows {nodes : List ComponentNode}
    (h : ∀ node ∈ nodes, ∀ scope ancestors in_error,
      Grows Found.findings (k.walk_node node scope ancestors in_error))
    (scope : Scope) (ancestors : List ComponentNode) (in_error : Bool) :
    Grows Found.findings (k.walk_nodes nodes scope ancestors in_error) := by
  induction nodes with
  | nil => exact Grows.refl
  | cons node rest ih =>
      obtain ⟨hNode, hRest⟩ := List.forall_mem_cons.1 h
      exact (ih hRest).comp (hNode scope ancestors in_error)

theorem walk_node_grows (node : ComponentNode) : ∀ scope ancestors in_error,
    Grows Found.findings (k.walk_node node scope ancestors in_error) := by
  induction node using ComponentNode.ind with
  | mk id component props children ih =>
      intro scope ancestors in_error
      exact (walk_nodes_grows ih _ _ _).comp (walk_self_grows _ scope ancestors in_error)

/-- What is found where the walk comes by a node. -/
def Visited (k : Checker) (node : ComponentNode) (l : List Finding) : Prop :=
  ∃ scope ancestors in_error, k.component_findings node ancestors ⊆ l ∧
    (∀ prop ∈ node.props, k.prop_findings node prop (k.spec_of node) ⊆ l) ∧
    k.walk_props node scope (k.inner_scope node scope in_error).1 in_error ⊆ l

theorem visited_lasts (node : ComponentNode) : Lasts (k.Visited node) := by
  intro l l' hLonger hVisited
  obtain ⟨scope, ancestors, in_error, hComponent, hProps, hWalk⟩ := hVisited
  refine ⟨scope, ancestors, in_error, ?_, ?_, ?_⟩
  · exact List.Subset.trans hComponent hLonger.subset
  · exact fun prop hProp => List.Subset.trans (hProps prop hProp) hLonger.subset
  · exact List.Subset.trans hWalk hLonger.subset

theorem report_shows (new : List Finding) : Shows Found.findings (·.report new) (new ⊆ ·) :=
  fun found => List.subset_append_right found.findings new

theorem subset_lasts (new : List Finding) : Lasts fun l : List Finding => new ⊆ l :=
  fun _ _ hLonger hNew => List.Subset.trans hNew hLonger.subset

theorem walk_self_visits (node : ComponentNode) (scope : Scope) (ancestors : List ComponentNode)
    (in_error : Bool) :
    Shows Found.findings (k.walk_self node scope ancestors in_error) (k.Visited node) := by
  have hBound := report_grows (k.inner_scope node scope in_error).2
  have hWalk := report_grows (k.walk_props node scope (k.inner_scope node scope in_error).1 in_error)
  intro found
  refine ⟨scope, ancestors, in_error, ?_, ?_, ?_⟩
  · have hComponent : Shows Found.findings (k.visit_component node ancestors)
        (k.component_findings node ancestors ⊆ ·) := by
      apply Shows.before (subset_lasts _) (visit_props_grows node)
      apply Shows.before (subset_lasts _) (check_shadow_grows node)
      exact report_shows _
    exact (hComponent.before (subset_lasts _) hBound).before (subset_lasts _) hWalk found
  · intro prop hProp
    have hVisit : Shows Found.findings (k.visit_component node ancestors)
        (k.prop_findings node prop (k.spec_of node) ⊆ ·) := by
      have hProps : Shows Found.findings
          (fun found => node.props.foldl (k.check_prop node (k.spec_of node)) found)
          (k.prop_findings node prop (k.spec_of node) ⊆ ·) := by
        apply Shows.foldl (subset_lasts _) (fun prop _ => check_prop_grows node _ prop) hProp
        exact fun found => List.subset_append_right _ _
      exact fun found => hProps _
    exact (hVisit.before (subset_lasts _) hBound).before (subset_lasts _) hWalk found
  · exact report_shows _ _

theorem walk_nodes_visits {nodes : List ComponentNode} {node : ComponentNode}
    (h : ∃ top ∈ nodes, ∀ scope ancestors in_error,
      Shows Found.findings (k.walk_node top scope ancestors in_error) (k.Visited node))
    (scope : Scope) (ancestors : List ComponentNode) (in_error : Bool) :
    Shows Found.findings (k.walk_nodes nodes scope ancestors in_error) (k.Visited node) := by
  obtain ⟨top, hTop, hShows⟩ := h
  induction nodes with
  | nil => cases hTop
  | cons first rest ih =>
      cases hTop with
      | head =>
          have hRest := walk_nodes_grows (fun node (_ : node ∈ rest) => walk_node_grows (k := k) node)
            scope ancestors in_error
          intro found
          exact visited_lasts node (hRest _) (hShows scope ancestors in_error found)
      | tail _ hTop =>
          intro found
          exact ih hTop _

/-- The walk comes by every node of the tree, by induction on the tree. -/
theorem walk_node_visits (tree : ComponentNode) {node : ComponentNode} (hNode : node ∈ iter_nodes tree) :
    ∀ scope ancestors in_error,
      Shows Found.findings (k.walk_node tree scope ancestors in_error) (k.Visited node) := by
  induction tree using ComponentNode.ind with
  | mk id component props children ih =>
      intro scope ancestors in_error
      rw [iter_nodes] at hNode
      cases hNode with
      | head =>
          have hChildren := walk_nodes_grows
            (fun child (_ : child ∈ children) => walk_node_grows (k := k) child)
            (k.inner_scope (.mk id component props children) scope in_error).1
            (ancestors ++ [.mk id component props children])
            (in_slot (.mk id component props children) ancestors in_error)
          intro found
          exact visited_lasts _ (hChildren _) (walk_self_visits _ scope ancestors in_error found)
      | tail _ hNode =>
          obtain ⟨child, hChild, hNode⟩ := mem_iter_nodes_in.1 hNode
          intro found
          exact walk_nodes_visits ⟨child, hChild, ih child hChild hNode⟩ _ _ _ _

end Checker

end Rekuest.Bloks
