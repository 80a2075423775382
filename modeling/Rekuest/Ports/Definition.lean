import Rekuest.Paths.Separator
import Rekuest.Ports.Fits

/-!
# The checks of a port

A port is checked children first: then what it carries, then its key, its shape for its
kind, its identifier, its choices and its unit, and last its default and its widget.  A
key is free of the separator of port paths, bar the key of items.
-/

namespace Rekuest.Ports

abbrev ValidationError := String

theorem bind_ok {α β : Type} {x : Except ValidationError α} {f : α → Except ValidationError β}
    {b : β} (h : (x >>= f) = .ok b) : ∃ a, x = .ok a ∧ f a = .ok b := by
  cases x with
  | error e => cases h
  | ok a => exact ⟨a, rfl, h⟩

/-- A port path is a walk through children, its keys separated so. -/
def PORT_PATH_SEPARATOR : String := ".."

/-- The conventional key of a LIST or DICT item port. -/
def ITEM_KEY : String := "..."

/-- A string holds the separator. -/
def contains_separator (s : String) : Bool := Paths.doubled '.' s.toList

def check_port_key (key owner : String) : Except ValidationError Unit :=
  if key = "" then .error (owner ++ ": port key must not be empty")
  else if key = "value" then
    .error (owner ++ ": " ++ repr_str key ++
      " is a reserved port key (it names the port's own value in calls)")
  else if contains_separator key && key ≠ ITEM_KEY then
    .error (owner ++ ": port key " ++ repr_str key ++ " may not contain " ++
      repr_str PORT_PATH_SEPARATOR)
  else .ok ()

/-- The first key that stands twice, or none. -/
def second (seen : List String) : List String → Option String
  | [] => none
  | key :: rest => if key ∈ seen then some key else second (key :: seen) rest

def check_unique_keys (keys : List String) (owner : String) : Except ValidationError Unit :=
  match second [] keys with
  | some key => .error (owner ++ ": duplicate key " ++ repr_str key)
  | none => .ok ()

/-- The first value that stands twice, or none. -/
def second_value (seen : List Value) : List Value → Option Value
  | [] => none
  | value :: rest => if Value.among seen value then some value else second_value (value :: seen) rest

/-- `@package/key`. -/
def is_identifier (identifier : String) : Bool :=
  let valid (part : List Char) :=
    !part.isEmpty && part.all fun c => c.isAlphanum || c = '_' || c = '.' || c = '-'
  match identifier.toList with
  | '@' :: rest =>
      match rest.dropWhile (· ≠ '/') with
      | _ :: key => valid (rest.takeWhile (· ≠ '/')) && valid key
      | [] => false
  | _ => false

/-- How many children a port of a kind has: at least, and at most. -/
def bounds : PortKind → Option (Nat × Option Nat)
  | .LIST => some (1, some 1)
  | .DICT => some (1, none)
  | .UNION => some (2, none)
  | .MODEL => some (1, none)
  | _ => none

namespace PortFields

section

variable (env : Env) (fields : PortFields)

def owner : String := "Port " ++ repr_str fields.key ++ " of kind " ++ fields.kind.value

def homogeneous_or_named (child_keys : List String) : Except ValidationError Unit :=
  if fields.kind = .DICT ∧ child_keys.length > 1 ∧ ITEM_KEY ∈ child_keys then
    .error (fields.owner ++ ": a DICT is either homogeneous (one child keyed " ++
      repr_str ITEM_KEY ++ ") or has named children, not both")
  else .ok ()

/-- The per-kind shape of the children. -/
def check_children (child_keys : List String) : Except ValidationError Unit :=
  match bounds fields.kind with
  | none =>
      if child_keys ≠ [] then .error (fields.owner ++ " must not have children") else .ok ()
  | some (low, high) =>
      if child_keys.length < low ∨ high.any (child_keys.length > ·) then
        let wanted :=
          if (low, high) = (1, some 1) then "exactly one child"
          else "at least " ++ toString low ++ " children"
        .error (fields.owner ++ " must have " ++ wanted ++ ", got " ++ toString child_keys.length)
      else do
        check_unique_keys child_keys (fields.owner ++ " children")
        fields.homogeneous_or_named child_keys

def check_identifier : Except ValidationError Unit :=
  let identified := fields.kind ∈ [PortKind.STRUCTURE, .MEMORY_STRUCTURE, .INTERFACE]
  let identifiable := fields.kind ∈ [PortKind.MODEL, .ENUM]
  if identified ∧ fields.identifier.getD "" = "" then
    .error (fields.owner ++ " must declare an identifier (@package/key)")
  else
    match fields.identifier with
    | none => .ok ()
    | some identifier =>
        if ¬ identified ∧ ¬ identifiable then
          .error (fields.owner ++ " must not declare an identifier")
        else if !is_identifier identifier then
          .error (fields.owner ++ ": identifier " ++ repr_str identifier ++
            " is not of the form @package/key")
        else .ok ()

def check_choices : Except ValidationError Unit :=
  let choices := fields.choices.getD []
  if fields.kind = .ENUM ∧ choices.isEmpty then .error (fields.owner ++ " must declare choices")
  else if !choices.isEmpty ∧ fields.kind ∉ [PortKind.ENUM, .INT, .FLOAT, .STRING] then
    .error (fields.owner ++
      " must not declare choices (only ['ENUM', 'FLOAT', 'INT', 'STRING'] may)")
  else
    match second_value [] choices with
    | some value =>
        .error (fields.owner ++ " choices: duplicate value " ++ repr env.float_repr value)
    | none => .ok ()

def check_dimension (derived : String) : Except ValidationError Unit :=
  match fields.dimension with
  | none => .ok ()
  | some dimension =>
      match env.dimensionality_of dimension with
      | .error e => .error e
      | .ok given =>
          if given ≠ derived then
            .error ("QUANTITY port '" ++ fields.key ++ "': dimension '" ++ dimension ++
              "' is inconsistent with reference_unit '" ++ fields.reference_unit.getD "" ++
              "' (dimensionality '" ++ derived ++ "')")
          else .ok ()

def check_proposed (derived : String) : List String → Except ValidationError Unit
  | [] => .ok ()
  | unit :: rest =>
      match env.dimensionality_of unit with
      | .error e => .error e
      | .ok unit_dim =>
          if unit_dim ≠ derived then
            .error ("QUANTITY port '" ++ fields.key ++ "': proposed unit '" ++ unit ++
              "' has dimensionality '" ++ unit_dim ++ "', expected '" ++ derived ++ "'")
          else check_proposed derived rest

/-- The unit of a QUANTITY, whose dimension is filled in. -/
def settle_quantity : Except ValidationError PortFields :=
  match fields.reference_unit.filter (· ≠ "") with
  | none => .error ("QUANTITY port '" ++ fields.key ++ "' must declare a reference_unit")
  | some reference_unit => do
      let derived ← env.dimensionality_of reference_unit
      fields.check_dimension env derived
      fields.check_proposed env derived (fields.proposed_units.getD [])
      return { fields with dimension := some derived }

def check_unmeasured : Except ValidationError PortFields :=
  let offending :=
    [("reference_unit", fields.reference_unit.isSome), ("proposed_units", fields.proposed_units.isSome),
      ("dimension", fields.dimension.isSome)].filter (·.2)
  if offending ≠ [] then
    .error ("Port '" ++ fields.key ++ "' of kind " ++ fields.kind.value ++
      " must not set QUANTITY-only fields: " ++ ", ".intercalate (offending.map (·.1)))
  else .ok fields

/-- Key, shape, identifier, choices and the unit, with the children's keys given. -/
def validate (child_keys : List String) : Except ValidationError PortFields := do
  check_port_key fields.key "Port"
  fields.check_children child_keys
  fields.check_identifier
  fields.check_choices env
  if fields.kind = .QUANTITY then fields.settle_quantity env else fields.check_unmeasured

end

end PortFields

/-- The checks of what a port carries beside the common fields: of its validators, widget and
descriptors, of its effects, and of its widget against the port. -/
structure Held (Own : Type) where
  own : Own → Except ValidationError Own
  effects : Own → Except ValidationError Own
  fits : Port Own → Except ValidationError Unit

section Validate

variable {Own : Type} (env : Env) (held : Held Own)
  (check_default : Port Own → Except ValidationError Unit)

mutual

/-- A port's checks, the children's first. -/
def validate_port : Port Own → Except ValidationError (Port Own)
  | .mk fields own children => do
      let children ← validate_ports children
      let own ← held.own own
      let own ← held.effects own
      let fields ← fields.validate env (children.map Port.key)
      check_default (.mk fields own children)
      held.fits (.mk fields own children)
      return .mk fields own children

def validate_ports : List (Port Own) → Except ValidationError (List (Port Own))
  | [] => .ok []
  | port :: rest => do
      let port ← validate_port port
      let rest ← validate_ports rest
      return port :: rest

end

end Validate

section Models

variable {Rest : Type} (env : Env)

/-- A default fits its port and is one of the choices, where there are some. -/
def check_arg_default (port : ArgPortInputModel Rest) : Except ValidationError Unit :=
  match port.default_value with
  | none => .ok ()
  | some default =>
      match value_mismatch env port default none false with
      | some mismatch => .error ("Port default " ++ mismatch)
      | none =>
          let values := port.choice_values
          if values.isEmpty || Value.among values default then .ok ()
          else
            .error ("Port " ++ repr_str port.key ++ ": default " ++ repr env.float_repr default ++
              " is not one of its choices [" ++
              ", ".intercalate (values.map (repr env.float_repr)) ++ "]")

def ArgPortInputModel.validate (held : Held (ArgOwn Rest)) (port : ArgPortInputModel Rest) :
    Except ValidationError (ArgPortInputModel Rest) :=
  validate_port env held (check_arg_default env) port

/-- A return port has no default. -/
def ReturnPortInputModel.validate (held : Held (ReturnOwn Rest)) (port : ReturnPortInputModel Rest) :
    Except ValidationError (ReturnPortInputModel Rest) :=
  validate_port env held (fun _ => .ok ()) port

end Models

end Rekuest.Ports

/-!
## The checks of a definition

A definition has argument ports, return ports and groups of argument ports.  Root keys
are unique, the two sides share none, and whatever a validator, an effect or a widget
depends on is the path of a port: the walk splits the path at its separators and goes
down through children, each by the first port of that key.
-/

namespace Rekuest.Ports

/-- A group of root argument ports. -/
structure PortGroup (Rest : Type) where
  key : String
  ports : List String
  rest : Rest

/-- A definition, with what its ports (`A`, `R`), its groups (`G`) and it (`D`) carry beside. -/
structure DefinitionInputModel (A R G D : Type) where
  key : String
  port_groups : List (PortGroup G)
  args : List (ArgPortInputModel A)
  returns : List (ReturnPortInputModel R)
  protocols : List String
  rest : D

/-- A port path that is depended on, and the refusal if no port has it. -/
structure Dependency where
  path : String
  refusal : ValidationError

/-- The checks outside: of what ports, groups and the definition carry, and what depends on
which paths, with the path of the port it stands at. -/
structure Rules (A R G D : Type) where
  arg : Held (ArgOwn A)
  ret : Held (ReturnOwn R)
  group : PortGroup G → Except ValidationError (PortGroup G)
  definition : D → Except ValidationError D
  arg_dependencies : String → ArgOwn A → List Dependency
  return_dependencies : String → ReturnOwn R → List Dependency
  group_dependencies : PortGroup G → List Dependency

/-! ## Port paths -/

/-- The pieces of a path between separators. -/
def segments (path : String) : List String := (Paths.split '.' path.toList).map String.ofList

section Walk

variable {Own : Type}

/-- Whether the walk ends at a port, or none where even its first key is unknown. -/
def walk (ports : List (Port Own)) (first : String) : List String → Option Bool
  | [] => (ports.find? (·.key = first)).map fun _ => true
  | next :: rest =>
      (ports.find? (·.key = first)).map fun port => (walk port.children next rest).getD false

end Walk

/-- A path resolves through children from the root ports, the arguments first. -/
def resolve_port_path {A R : Type} (path : String) (args : List (ArgPortInputModel A))
    (returns : List (ReturnPortInputModel R)) : Bool :=
  match segments path with
  | [] => false
  | first :: rest => ((walk args first rest).or (walk returns first rest)).getD false

/-! ## The definition's own checks -/

/-- Unicode's white space. -/
def is_whitespace (c : Char) : Bool :=
  let n := c.toNat
  (9 ≤ n ∧ n ≤ 13 : Bool) || (0x2000 ≤ n ∧ n ≤ 0x200a : Bool) ||
    n ∈ [0x20, 0x85, 0xa0, 0x1680, 0x2028, 0x2029, 0x202f, 0x205f, 0x3000]

namespace DefinitionInputModel

variable {A R G D : Type}

def check_keys (d : DefinitionInputModel A R G D) : Except ValidationError Unit := do
  check_unique_keys (d.args.map Port.key) ("Definition " ++ d.key ++ " args")
  check_unique_keys (d.returns.map Port.key) ("Definition " ++ d.key ++ " returns")
  let shared := (d.returns.map Port.key).filter (· ∈ d.args.map Port.key)
  if shared ≠ [] then
    .error ("Definition " ++ d.key ++ ": args and returns share the keys [" ++
      ", ".intercalate ((shared.mergeSort (· ≤ ·)).dedup.map repr_str) ++
      "]; dependency paths could not tell them apart")
  else .ok ()

/-- The members of one group, after those the earlier groups took. -/
def check_members (d : DefinitionInputModel A R G D) (group : PortGroup G)
    (seen : List (String × String)) : List String → Except ValidationError (List (String × String))
  | [] => .ok seen
  | key :: rest =>
      if key ∉ d.args.map Port.key then
        .error ("Definition " ++ d.key ++ ": port group " ++ repr_str group.key ++
          " lists unknown arg " ++ repr_str key)
      else
        match seen.find? (·.1 = key) with
        | some (_, other) =>
            .error ("Definition " ++ d.key ++ ": arg " ++ repr_str key ++
              " is in both port groups " ++ repr_str other ++ " and " ++ repr_str group.key)
        | none => check_members d group ((key, group.key) :: seen) rest

def check_groups (d : DefinitionInputModel A R G D) (seen : List (String × String)) :
    List (PortGroup G) → Except ValidationError Unit
  | [] => .ok ()
  | group :: rest => do
      let seen ← d.check_members group seen group.ports
      d.check_groups seen rest

/-- Group keys are unique, every member is a root argument, and none sits in two groups. -/
def check_port_groups (d : DefinitionInputModel A R G D) : Except ValidationError Unit := do
  check_unique_keys (d.port_groups.map (·.key)) ("Definition " ++ d.key ++ " port_groups")
  d.check_groups [] d.port_groups

/-- A protocol hint is a name without whitespace, given once. -/
def check_hints (d : DefinitionInputModel A R G D) (seen : List String) :
    List String → Except ValidationError Unit
  | [] => .ok ()
  | protocol :: rest =>
      if protocol = "" ∨ protocol.toList.any is_whitespace ∨ protocol.length > 1000 then
        .error ("Definition " ++ d.key ++
          ": a protocol hint is a name without whitespace, got " ++ repr_str protocol)
      else if protocol ∈ seen then
        .error ("Definition " ++ d.key ++ ": the protocol hint " ++ repr_str protocol ++
          " is given twice")
      else d.check_hints (protocol :: seen) rest

def check_protocols (d : DefinitionInputModel A R G D) : Except ValidationError Unit :=
  d.check_hints [] d.protocols

/-- The first dependency that is not the path of a port is refused. -/
def check_resolvable (d : DefinitionInputModel A R G D) :
    List Dependency → Except ValidationError Unit
  | [] => .ok ()
  | dependency :: rest =>
      if !resolve_port_path dependency.path d.args d.returns then .error dependency.refusal
      else d.check_resolvable rest

end DefinitionInputModel

section Dependencies

variable {Own : Type} (depends : String → Own → List Dependency)

mutual

/-- What the port at a path depends on, and the ports below it. -/
def dependencies_of (above : String) : Port Own → List Dependency
  | .mk fields own children =>
      depends (above ++ fields.key) own ++
        dependencies_in (above ++ fields.key ++ PORT_PATH_SEPARATOR) children

def dependencies_in (above : String) : List (Port Own) → List Dependency
  | [] => []
  | port :: rest => dependencies_of above port ++ dependencies_in above rest

end

end Dependencies

section Validate

variable {A R G D : Type} (env : Env) (rules : Rules A R G D)

/-- Every dependency of every validator, effect and widget is a resolvable port path. -/
def check_dependencies (d : DefinitionInputModel A R G D) : Except ValidationError Unit :=
  d.check_resolvable (dependencies_in rules.arg_dependencies "" d.args ++
    dependencies_in rules.return_dependencies "" d.returns ++
    d.port_groups.flatMap rules.group_dependencies)

def validate_groups : List (PortGroup G) → Except ValidationError (List (PortGroup G))
  | [] => .ok []
  | group :: rest => do
      let group ← rules.group group
      let rest ← validate_groups rest
      return group :: rest

/-- The definition as its checks leave it. -/
def DefinitionInputModel.validate (d : DefinitionInputModel A R G D) :
    Except ValidationError (DefinitionInputModel A R G D) := do
  let port_groups ← validate_groups rules d.port_groups
  let args ← validate_ports env rules.arg (check_arg_default env) d.args
  let returns ← validate_ports env rules.ret (fun _ => .ok ()) d.returns
  let rest ← rules.definition d.rest
  let d := { d with port_groups, args, returns, rest }
  d.check_keys
  d.check_port_groups
  d.check_protocols
  check_dependencies rules d
  return d

end Validate

end Rekuest.Ports
