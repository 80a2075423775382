import Rekuest.Bloks.Declarations

/-!
# What a blok is drawn with

A view merges the components of the language, of the standard catalogs and of the module
that is registered, and adds the operations of the module to the functions of the
vocabulary.  An added operation is never an effect.
-/

namespace Rekuest.Bloks

open Rekuest.Ports

inductive CatalogValueKind
  | STRING | INT | FLOAT | BOOL | DICT | LIST | ANY | CALLBACK | ASSET
  deriving DecidableEq

def CatalogValueKind.value : CatalogValueKind → String
  | STRING => "STRING"
  | INT => "INT"
  | FLOAT => "FLOAT"
  | BOOL => "BOOL"
  | DICT => "DICT"
  | LIST => "LIST"
  | ANY => "ANY"
  | CALLBACK => "CALLBACK"
  | ASSET => "ASSET"

inductive ComponentContext
  | HTML | SCENE | LOGO | ACTION_LOGO | OVERLAY
  deriving DecidableEq

def ComponentContext.value : ComponentContext → String
  | HTML => "HTML"
  | SCENE => "SCENE"
  | LOGO => "LOGO"
  | ACTION_LOGO => "ACTION_LOGO"
  | OVERLAY => "OVERLAY"

/-- A field of the event a callback is handed. -/
structure CatalogEventField where
  key : String
  kind : CatalogValueKind
  description : Option String := none
  deriving DecidableEq

structure CatalogProp where
  key : String
  kind : CatalogValueKind
  required : Bool := false
  description : Option String := none
  event : Option (List CatalogEventField) := none
  deriving DecidableEq

/-- A component a renderer draws. -/
structure CatalogComponent where
  name : String
  description : Option String := none
  props : List CatalogProp := []
  accepts_children : Bool := true
  context : ComponentContext := .HTML
  children_context : Option ComponentContext := none
  inherits_context : Bool := false
  downstream_of : List String := []
  not_downstream_of : List String := []
  text_prop : Option String := none
  catalog : Option String := none
  deriving DecidableEq

namespace CatalogComponent

/-- The first prop a component declares under a key. -/
def prop (component : CatalogComponent) (key : String) : Option CatalogProp :=
  component.props.find? (·.key = key)

/-- Equal but for the catalog they come from. -/
def same_component (a b : CatalogComponent) : Bool := a = { b with catalog := a.catalog }

end CatalogComponent

/-- An operation a module adds. -/
structure CatalogOperation where
  name : String
  arguments : List Param := []

/-- A catalog the language ships with. -/
structure SpecCatalog where
  name : String
  version : Option Int
  components : List CatalogComponent

namespace SpecCatalog

def label (catalog : SpecCatalog) : String :=
  match catalog.version with
  | some version => catalog.name ++ "@" ++ toString version
  | none => catalog.name

/-- The components, each saying where it is from. -/
def loaded (catalog : SpecCatalog) : List CatalogComponent :=
  catalog.components.map fun component => { component with catalog := some catalog.label }

end SpecCatalog

/-- The catalogs that ship: the language's own, the standard ones, and the module of what
only the Orkestrator draws. -/
structure SpecCatalogs where
  base : SpecCatalog
  standard : List SpecCatalog
  orkestrator : SpecCatalog

/-- A name two sources define differently, and whose definition is drawn. -/
structure Shadow where
  catalog : String
  module : String
  winner : String

structure BlokView where
  components : List (String × CatalogComponent)
  functions : List (String × Function)
  label : String
  /-- Every component the renderer draws is there. -/
  complete : Bool
  shadows : List (String × Shadow)

namespace BlokView

def component (view : BlokView) (name : String) : Option CatalogComponent := lookup view.components name

def function (view : BlokView) (name : String) : Option Function := lookup view.functions name

end BlokView

/-- How a source joins the view. -/
inductive Source
  | catalog
  | module
  | additive
  deriving DecidableEq

structure Merged where
  components : List (String × CatalogComponent) := []
  shadows : List (String × Shadow) := []

/-- A component joins; of two definitions a module's wins, but over the language's. -/
def merge_one (base label : String) (source : Source) (merged : Merged) (added : CatalogComponent) :
    Merged :=
  let component := { added with catalog := some (added.catalog.getD label) }
  match lookup merged.components component.name with
  | none => { merged with components := merged.components ++ [(component.name, component)] }
  | some previous =>
      if previous.same_component component || source = .additive then merged
      else
        let kept := previous.catalog.getD "?"
        let other := component.catalog.getD label
        let wins := source = .module ∧ kept ≠ base
        let shadow := { catalog := kept, module := other, winner := if wins then other else kept }
        { components :=
            if wins then merged.components ++ [(component.name, component)] else merged.components
          shadows := merged.shadows ++ [(component.name, shadow)] }

def merge (base : String) (merged : Merged) (added : List CatalogComponent) (label : String)
    (source : Source) : Merged :=
  added.foldl (merge_one base label source) merged

def ORKESTRATOR_MODULE : String := "orkestrator"

/-- What stands before the first dot. -/
def first_segment (path : String) : String := String.ofList (path.toList.takeWhile (· ≠ '.'))

/-- An operation joins under a function namespace, and replaces nothing. -/
def add_operation (namespaces : List String) (functions : List (String × Function))
    (operation : CatalogOperation) : List (String × Function) :=
  if (lookup functions operation.name).isSome || first_segment operation.name ∉ namespaces then functions
  else functions ++ [(operation.name, { name := operation.name, params := operation.arguments })]

/-- The components that ship, with what a registered module adds on top. -/
def merged_of (catalogs : SpecCatalogs) (registered : Option (String × List CatalogComponent)) :
    Merged :=
  let base := catalogs.base.label
  let merged := merge base {} catalogs.base.loaded base .catalog
  let merged := catalogs.standard.foldl
    (fun merged catalog => merge base merged catalog.loaded catalog.label .catalog) merged
  let merged := merge base merged catalogs.orkestrator.loaded catalogs.orkestrator.label .module
  match registered with
  | none => merged
  | some (name, extra) =>
      merge base merged extra name (if name = ORKESTRATOR_MODULE then .additive else .module)

/-- The view a blok is checked against. -/
def blok_view (vocabulary : Vocabulary) (catalogs : SpecCatalogs)
    (registered : Option (String × List CatalogComponent)) (extra_operations : List CatalogOperation)
    (complete : Bool) : BlokView :=
  let merged := merged_of catalogs registered
  let labels := catalogs.base.label :: catalogs.standard.map (·.label) ++ [catalogs.orkestrator.label] ++
    (registered.map (·.1)).toList
  { components := merged.components
    functions :=
      extra_operations.foldl (add_operation vocabulary.function_namespaces) vocabulary.functions
    label := " + ".intercalate labels
    complete
    shadows := merged.shadows }

/-! ## Effects of a view -/

theorem lookup_append {α : Type} (entries : List (String × α)) (name key : String) (value : α) :
    lookup (entries ++ [(name, value)]) key = if name = key then some value else lookup entries key := by
  unfold lookup
  rw [List.reverse_append, List.reverse_singleton, List.singleton_append, List.find?_cons]
  by_cases hKey : name = key
  · simp [hKey]
  · simp [hKey]

/-- The operations of a module add no effect. -/
theorem effect_of_added {namespaces : List String} {operations : List CatalogOperation}
    {functions : List (String × Function)} {name : String} {f : Function}
    (h : lookup (operations.foldl (add_operation namespaces) functions) name = some f)
    (hEffect : f.effect = true) : lookup functions name = some f := by
  induction operations generalizing functions with
  | nil => exact h
  | cons operation rest ih =>
      have hRest := ih h
      unfold add_operation at hRest
      by_cases hKept : ((lookup functions operation.name).isSome ||
          first_segment operation.name ∉ namespaces) = true
      · rwa [if_pos hKept] at hRest
      · rw [if_neg hKept, lookup_append] at hRest
        by_cases hName : operation.name = name
        · rw [if_pos hName] at hRest
          cases hRest
          cases hEffect
        · rwa [if_neg hName] at hRest

/-- An effect of a view is one of the vocabulary's. -/
theorem effect_of_view {vocabulary : Vocabulary} {catalogs : SpecCatalogs}
    {registered : Option (String × List CatalogComponent)} {operations : List CatalogOperation}
    {complete : Bool} {name : String} {f : Function}
    (h : (blok_view vocabulary catalogs registered operations complete).function name = some f)
    (hEffect : f.effect = true) : vocabulary.function name = some f :=
  effect_of_added h hEffect

end Rekuest.Bloks
