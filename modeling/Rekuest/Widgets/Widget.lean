import Mathlib.Data.List.Sort
import Rekuest.Ports.Definition
import Rekuest.Ports.Descriptor
import Rekuest.Widgets.Calls

/-!
# Effects, validators and widgets

What hangs off the ports of a definition, and the rules it is checked by.  The widget of an
argument may be a search, which is filtered by argument ports of its own: these have
validators, effects, widgets and children again.  A custom widget has props, a tree below
it and a widget to fall back to.
-/

namespace Rekuest.Widgets

open Rekuest.Ports Rekuest.Inputs Rekuest.Bloks

/-- What stands outside: how doubles print and what units measure, the double nearest to an
integer, and the variables of a query's one operation. -/
structure Outside extends Ports.Env where
  as_f64 : Int → Dyadic
  search_query_variables : String → Except ValidationError (List String)

/-! ## Effects and validators -/

inductive EffectKind
  | MESSAGE | HIDE | CUSTOM
  deriving DecidableEq

def EffectKind.value : EffectKind → String
  | MESSAGE => "MESSAGE"
  | HIDE => "HIDE"
  | CUSTOM => "CUSTOM"

/-- Whether an effect fades, and whether it was said. -/
structure Fade where
  value : Bool := true
  set : Bool := false

/-- A pure call deciding whether the effect applies; no dependencies and an empty list of
them are read alike, here and below. -/
structure EffectInputModel where
  call : UtilCall
  dependencies : List String := []
  message : Option String := none
  kind : EffectKind
  fade : Fade := {}

def EffectInputModel.validate (effect : EffectInputModel) : Except ValidationError EffectInputModel := do
  let call ← validate_util_call effect.call
  check_pure_call call effect.dependencies ("Effect " ++ effect.kind.value ++ " (" ++ call.operation ++ ")") []
  if effect.kind = .MESSAGE ∧ effect.message.getD "" = "" then .error "MESSAGE effect requires a message"
  else if effect.kind ≠ .HIDE ∧ effect.fade.set = true then
    .error (effect.kind.value ++ " effect must not set fade (HIDE only)")
  else return { effect with call }

/-- A pure call validating the port's value. -/
structure ValidatorInputModel where
  call : UtilCall
  dependencies : List String := []
  label : Option String := none

/-- The label of a validator, or its operation where it has none. -/
def ValidatorInputModel.name (validator : ValidatorInputModel) : String :=
  (validator.label.filter (· ≠ "")).getD validator.call.operation

def ValidatorInputModel.validate (validator : ValidatorInputModel) :
    Except ValidationError ValidatorInputModel := do
  let call ← validate_util_call validator.call
  let validator := { validator with call }
  check_pure_call call validator.dependencies ("Validator " ++ validator.name) []
  return validator

/-- How a state choice reads one part of an entry. -/
structure StateAccessorInputModel where
  path : Option String := none
  call : Option UtilCall := none

def validate_optional : Option UtilCall → Except ValidationError (Option UtilCall)
  | none => .ok none
  | some call => do
      let call ← validate_util_call call
      return some call

def StateAccessorInputModel.validate (accessor : StateAccessorInputModel) :
    Except ValidationError StateAccessorInputModel := do
  let call ← validate_optional accessor.call
  if accessor.path.isSome ∧ call.isSome then .error "StateAccessor: set either path or call, not both"
  else return { accessor with call }

/-! ## Widgets -/

mutual

/-- The widget of an argument. -/
inductive AssignWidget
  | SLIDER (follow_value : Option String) (min max step : Option Dyadic)
  | CHOICE (follow_value : Option String)
  | STRING (follow_value : Option String)
  | SEARCH (follow_value : Option String) (query ward : String)
      (filters : List (Port (ArgOwn ArgRest))) (dependencies : List String)
  | CUSTOM (follow_value : Option String) (component : String) (props : List ComponentProp)
      (children : List ComponentNode) (dependencies : List String) (fallback : Option AssignWidget)
  | STATE_CHOICE (follow_value state_path : Option String) (state_call : Option UtilCall)
      (state_accessors : List StateAccessorInputModel) (dependencies : List String)
  | PROXY (follow_value : Option String) (target_port target_action : String)

/-- What an argument carries beside its default. -/
inductive ArgRest
  | mk (effects : List EffectInputModel) (validators : List ValidatorInputModel)
      (widget : Option AssignWidget) (requires : List DescriptorConstraint)

end

abbrev ArgPort := ArgPortInputModel ArgRest

/-- The widget of a return. -/
inductive ReturnWidget
  | CHOICE
  | CUSTOM (component : String) (props : List ComponentProp)

/-- What a return carries. -/
structure ReturnRest where
  effects : List EffectInputModel := []
  widget : Option ReturnWidget := none
  provides : List DescriptorConstraint := []

abbrev ReturnPort := ReturnPortInputModel ReturnRest

namespace ArgRest

def effects : ArgRest → List EffectInputModel
  | mk effects _ _ _ => effects

def validators : ArgRest → List ValidatorInputModel
  | mk _ validators _ _ => validators

def widget : ArgRest → Option AssignWidget
  | mk _ _ widget _ => widget

end ArgRest

namespace AssignWidget

def kind : AssignWidget → String
  | SLIDER .. => "SLIDER"
  | CHOICE .. => "CHOICE"
  | STRING .. => "STRING"
  | SEARCH .. => "SEARCH"
  | CUSTOM .. => "CUSTOM"
  | STATE_CHOICE .. => "STATE_CHOICE"
  | PROXY .. => "PROXY"

def follow_value : AssignWidget → Option String
  | SLIDER follow _ _ _ => follow
  | CHOICE follow => follow
  | STRING follow => follow
  | SEARCH follow _ _ _ _ => follow
  | CUSTOM follow _ _ _ _ _ => follow
  | STATE_CHOICE follow _ _ _ _ => follow
  | PROXY follow _ _ => follow

def dependencies : AssignWidget → List String
  | SEARCH _ _ _ _ dependencies => dependencies
  | CUSTOM _ _ _ _ dependencies _ => dependencies
  | STATE_CHOICE _ _ _ _ dependencies => dependencies
  | _ => []

/-- The widget, then its fallbacks. -/
def chain : AssignWidget → List AssignWidget
  | CUSTOM follow component props children dependencies (some next) =>
      CUSTOM follow component props children dependencies (some next) :: chain next
  | widget => [widget]

end AssignWidget

section Induction

variable {P : AssignWidget → Prop} {Q : ArgPort → Prop}

/-- Induction on widgets and on argument ports at once. -/
theorem widgets_ind
    (leaf : ∀ widget : AssignWidget, (∀ follow query ward filters dependencies,
      widget ≠ .SEARCH follow query ward filters dependencies) →
      (∀ follow component props children dependencies fallback,
        widget ≠ .CUSTOM follow component props children dependencies fallback) → P widget)
    (search : ∀ follow query ward filters dependencies, (∀ port ∈ filters, Q port) →
      P (.SEARCH follow query ward filters dependencies))
    (custom : ∀ follow component props children dependencies fallback,
      (∀ widget, fallback = some widget → P widget) →
      P (.CUSTOM follow component props children dependencies fallback))
    (port : ∀ fields default effects validators widget requires children,
      (∀ held, widget = some held → P held) → (∀ child ∈ children, Q child) →
      Q (.mk fields ⟨default, .mk effects validators widget requires⟩ children)) :
    (∀ widget, P widget) ∧ ∀ p, Q p := by
  have hWidget : ∀ widget, P widget := by
    intro widget
    refine AssignWidget.rec (motive_1 := P)
      (motive_2 := fun rest => ∀ held, rest.widget = some held → P held)
      (motive_3 := fun ports => ∀ p ∈ ports, Q p)
      (motive_4 := fun widget => ∀ held, widget = some held → P held)
      (motive_5 := Q) (motive_6 := fun own => ∀ held, own.rest.widget = some held → P held)
      ?_ ?_ ?_ ?_ ?_ ?_ ?_ ?_ ?_ ?_ ?_ ?_ ?_ ?_ widget
    · intro follow min max step
      exact leaf _ nofun nofun
    · intro follow
      exact leaf _ nofun nofun
    · intro follow
      exact leaf _ nofun nofun
    · exact search
    · exact custom
    · intro follow path call accessors dependencies
      exact leaf _ nofun nofun
    · intro follow target_port target_action
      exact leaf _ nofun nofun
    · intro effects validators held requires hHeld
      exact hHeld
    · intro p hPort
      cases hPort
    · intro head rest hHead hRest
      exact List.forall_mem_cons.2 ⟨hHead, hRest⟩
    · intro held hHeld
      cases hHeld
    · intro held hHeld other hOther
      exact Option.some.inj hOther ▸ hHeld
    · intro fields own children hOwn hChildren
      cases own with
      | mk default rest =>
          cases rest with
          | mk effects validators held requires =>
              exact port fields default effects validators held requires children hOwn hChildren
    · intro default rest hRest
      exact hRest
  refine ⟨hWidget, fun p => ?_⟩
  induction p using Port.ind with
  | mk fields own children ih =>
      cases own with
      | mk default rest =>
          cases rest with
          | mk effects validators held requires =>
              exact port fields default effects validators held requires children
                (fun widget _ => hWidget widget) ih

end Induction

/-! ## Their checks -/

/-- The variables every search declares. -/
def SEARCH_QUERY_VARIABLES : List String := ["search", "values"]

def sorted (names : List String) : List String := names.insertionSort (· ≤ ·)

def py_list (names : List String) : String := "[" ++ ", ".intercalate (names.map repr_str) ++ "]"

section Checks

variable (outside : Outside)

def check_slider (min max step : Option Dyadic) : Except ValidationError Unit := do
  (match min, max with
    | some min, some max =>
        if max ≤ min then
          .error ("SLIDER widget: min (" ++ outside.float_repr min ++ ") must be smaller than max (" ++
            outside.float_repr max ++ ")")
        else .ok ()
    | _, _ => .ok ())
  (match step with
    | some step =>
        if step ≤ 0 then
          .error ("SLIDER widget: step must be positive, got " ++ outside.float_repr step)
        else .ok ()
    | none => .ok ())

/-- The query of a search declares its own variables and one for each filter. -/
def check_query (query : String) (keys : List String) : Except ValidationError Unit := do
  let declared ← outside.search_query_variables query
  let missing := SEARCH_QUERY_VARIABLES.filter (· ∉ declared)
  let duplicates := keys.filter fun key => keys.count key > 1
  let undeclared := keys.filter (· ∉ declared)
  if missing ≠ [] then
    .error ("SEARCH widget query must declare the variables " ++ py_list (sorted (missing.map ("$" ++ ·))))
  else if duplicates ≠ [] then
    .error ("SEARCH widget filters have duplicate keys " ++ py_list (sorted duplicates.dedup))
  else if "value" ∈ keys then .error "SEARCH widget filters may not use the reserved key 'value'"
  else if "requires" ∈ keys then
    .error ("SEARCH widget filters may not use the reserved key 'requires': a frontend passes " ++
      "the port's own constraints under it")
  else if undeclared ≠ [] then
    .error ("SEARCH widget query must declare a variable for each filter port: missing " ++
      py_list (sorted (undeclared.dedup.map ("$" ++ ·))))
  else .ok ()

/-- The calls of a state choice read the state, too. -/
def check_state_call (dependencies : List String) (owner : String) :
    Option UtilCall → Except ValidationError Unit
  | none => .ok ()
  | some call => check_pure_call call dependencies owner ["state"]

def check_accessors (dependencies : List String) (index : Nat) :
    List StateAccessorInputModel → Except ValidationError Unit
  | [] => .ok ()
  | accessor :: rest => do
      check_state_call dependencies ("StateAccessor " ++ toString index) accessor.call
      check_accessors dependencies (index + 1) rest

/-- Which kinds of port a widget edits, where not every kind. -/
def widget_fits : AssignWidget → Option (List PortKind)
  | .SLIDER .. => some [.INT, .FLOAT, .QUANTITY]
  | .STRING .. => some [.STRING]
  | .SEARCH .. => some [.STRUCTURE, .MEMORY_STRUCTURE, .LIST]
  | _ => none

def check_fitting_kind (port : ArgPort) (widget : AssignWidget) : Except ValidationError Unit :=
  match widget_fits widget with
  | none => .ok ()
  | some fits =>
      if port.kind ∈ fits then .ok ()
      else
        .error ("Port " ++ repr_str port.key ++ " of kind " ++ port.kind.value ++ " cannot use a " ++
          widget.kind ++ " widget (fits " ++ py_list (sorted (fits.map PortKind.value)) ++ ")")

/-- A default as a double, where it is a number. -/
def default_as_f64 : Option Value → Option Dyadic
  | some (.int n) => some (outside.as_f64 n)
  | some (.float x) => some x
  | _ => none

def check_slider_range (port : ArgPort) (min max : Option Dyadic) : Except ValidationError Unit :=
  match port.default_value, default_as_f64 outside port.default_value with
  | some value, some default =>
      if min.any (default < ·) || max.any (· < default) then
        .error ("Port " ++ repr_str port.key ++ ": default " ++ repr outside.float_repr value ++
          " lies outside the SLIDER range [" ++ (min.map outside.float_repr).getD "None" ++ ", " ++
          (max.map outside.float_repr).getD "None" ++ "]")
      else .ok ()
  | _, _ => .ok ()

/-- A widget edits ports of the kinds it can; choices and defaults agree with it. -/
def check_widget_fits (port : ArgPort) (widget : AssignWidget) : Except ValidationError Unit := do
  check_fitting_kind port widget
  match widget with
  | .SEARCH .. =>
      let structured := port.children.head?.any fun child =>
        child.kind ∈ [PortKind.STRUCTURE, .MEMORY_STRUCTURE]
      if port.kind = .LIST ∧ structured = false then
        .error ("Port " ++ repr_str port.key ++ ": a SEARCH widget on a LIST port needs a STRUCTURE child")
      else .ok ()
  | .CHOICE .. =>
      if port.choice_values.isEmpty then
        .error ("Port " ++ repr_str port.key ++ ": a CHOICE widget needs the port to declare \x60choices\x60")
      else .ok ()
  | .SLIDER _ min max _ => check_slider_range outside port min max
  | _ => .ok ()

def check_chain_fits (port : ArgPort) : List AssignWidget → Except ValidationError Unit
  | [] => .ok ()
  | widget :: rest => do
      check_widget_fits outside port widget
      check_chain_fits port rest

def check_fits (port : ArgPort) : Except ValidationError Unit :=
  match port.own.rest.widget with
  | none => .ok ()
  | some widget => check_chain_fits outside port widget.chain

/-- A port beside its children and widget: its effects, its common fields, its default and
whether its widget fits. -/
def settle_port (fields : PortFields) (default : Option Value) (effects : List EffectInputModel)
    (validators : List ValidatorInputModel) (widget : Option AssignWidget)
    (requires : List DescriptorConstraint) (children : List ArgPort) : Except ValidationError ArgPort := do
  validate_descriptors "requires" requires
  let effects ← validate_each EffectInputModel.validate effects
  let fields ← fields.validate outside.toEnv (children.map Port.key)
  let port := Port.mk fields ⟨default, .mk effects validators widget requires⟩ children
  check_arg_default outside.toEnv port
  check_fits outside port
  return port

mutual

def validate_widget : AssignWidget → Except ValidationError AssignWidget
  | .SLIDER follow min max step => do
      check_slider outside min max step
      return .SLIDER follow min max step
  | .CHOICE follow => .ok (.CHOICE follow)
  | .STRING follow => .ok (.STRING follow)
  | .SEARCH follow query ward filters dependencies => do
      let filters ← validate_filters filters
      min_length ward "ward"
      check_query outside query (filters.map Port.key)
      return .SEARCH follow query ward filters dependencies
  | .CUSTOM follow component props children dependencies fallback => do
      let props ← validate_each validate_prop props
      let fallback ← (match fallback with
        | some widget => do
            let widget ← validate_widget widget
            return some widget
        | none => .ok none)
      min_length component "component"
      check_widget_props dependencies "CustomAssignWidget" props
      validate_nodes children
      check_widget_tree (dependencies ++ declares props) "CustomAssignWidget" children
      return .CUSTOM follow component props children dependencies fallback
  | .STATE_CHOICE follow state_path state_call state_accessors dependencies => do
      let state_call ← validate_optional state_call
      let state_accessors ← validate_each StateAccessorInputModel.validate state_accessors
      if state_path.isNone = state_call.isNone then
        .error "STATE_CHOICE widget needs exactly one of state_path or state_call"
      else do
        check_state_call dependencies "StateChoice state_call" state_call
        check_accessors dependencies 0 state_accessors
        return .STATE_CHOICE follow state_path state_call state_accessors dependencies
  | .PROXY follow target_port target_action => do
      min_length target_port "target_port"
      min_length target_action "target_action"
      return .PROXY follow target_port target_action

/-- A filter is an argument port: its children first, then its validators and its widget. -/
def validate_filter : ArgPort → Except ValidationError ArgPort
  | .mk fields ⟨default, .mk effects validators widget requires⟩ children => do
      let children ← validate_filters children
      let validators ← validate_each ValidatorInputModel.validate validators
      let widget ← (match widget with
        | some widget => do
            let widget ← validate_widget widget
            return some widget
        | none => .ok none)
      settle_port outside fields default effects validators widget requires children

def validate_filters : List ArgPort → Except ValidationError (List ArgPort)
  | [] => .ok []
  | port :: rest => do
      let port ← validate_filter port
      let rest ← validate_filters rest
      return port :: rest

end

/-! ## As the rules of a definition -/

def validate_optional_widget : Option AssignWidget → Except ValidationError (Option AssignWidget)
  | none => .ok none
  | some widget => do
      let widget ← validate_widget outside widget
      return some widget

/-- The validators, the widget and the descriptors of an argument. -/
def validate_arg_own (own : ArgOwn ArgRest) : Except ValidationError (ArgOwn ArgRest) :=
  match own with
  | ⟨default, .mk effects validators widget requires⟩ => do
      let validators ← validate_each ValidatorInputModel.validate validators
      let widget ← validate_optional_widget outside widget
      validate_descriptors "requires" requires
      return ⟨default, .mk effects validators widget requires⟩

def validate_arg_effects (own : ArgOwn ArgRest) : Except ValidationError (ArgOwn ArgRest) :=
  match own with
  | ⟨default, .mk effects validators widget requires⟩ => do
      let effects ← validate_each EffectInputModel.validate effects
      return ⟨default, .mk effects validators widget requires⟩

def arg_held : Held (ArgOwn ArgRest) where
  own := validate_arg_own outside
  effects := validate_arg_effects
  fits := check_fits outside

def ReturnWidget.validate : ReturnWidget → Except ValidationError ReturnWidget
  | .CHOICE => .ok .CHOICE
  | .CUSTOM component props => do
      let props ← validate_each validate_prop props
      min_length component "component"
      check_widget_props [] "CustomReturnWidget" props
      return .CUSTOM component props

def validate_return_widget : Option ReturnWidget → Except ValidationError (Option ReturnWidget)
  | none => .ok none
  | some widget => do
      let widget ← widget.validate
      return some widget

def check_return_choice (port : ReturnPort) : Except ValidationError Unit :=
  match port.own.rest.widget with
  | some .CHOICE =>
      if port.choice_values.isEmpty then
        .error ("Port " ++ repr_str port.key ++
          ": a CHOICE return widget needs the port to declare \x60choices\x60")
      else .ok ()
  | _ => .ok ()

def return_held : Held (ReturnOwn ReturnRest) where
  own := fun own => do
    let widget ← validate_return_widget own.rest.widget
    validate_descriptors "provides" own.rest.provides
    return ⟨{ own.rest with widget }⟩
  effects := fun own => do
    let effects ← validate_each EffectInputModel.validate own.rest.effects
    return ⟨{ own.rest with effects }⟩
  fits := check_return_choice

end Checks

end Rekuest.Widgets
