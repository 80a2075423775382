import Rekuest.Ports.Value

/-!
# Whether a value fits a port

A port has a key, a kind and, where its kind says so, ports of its own.  The value of
an argument, of a default and of an item is held against the port it is for: each kind
has its own rule, and lists, dicts, models and unions ask their children.
-/

namespace Rekuest.Ports

inductive PortKind
  | INT | STRING | STRUCTURE | LIST | BOOL | DICT | FLOAT | DATE | UNION | ENUM | MODEL
  | MEMORY_STRUCTURE | INTERFACE | QUANTITY
  deriving DecidableEq

def PortKind.value : PortKind → String
  | INT => "INT"
  | STRING => "STRING"
  | STRUCTURE => "STRUCTURE"
  | LIST => "LIST"
  | BOOL => "BOOL"
  | DICT => "DICT"
  | FLOAT => "FLOAT"
  | DATE => "DATE"
  | UNION => "UNION"
  | ENUM => "ENUM"
  | MODEL => "MODEL"
  | MEMORY_STRUCTURE => "MEMORY_STRUCTURE"
  | INTERFACE => "INTERFACE"
  | QUANTITY => "QUANTITY"

/-- The fields every port has, bar its children. -/
structure PortFields where
  key : String
  kind : PortKind
  identifier : Option String := none
  nullable : Bool := false
  choices : Option (List Value) := none
  reference_unit : Option String := none
  proposed_units : Option (List String) := none
  dimension : Option String := none

/-- A port: the common fields, the model's own (an argument's or a return's) and the
children; no children and an empty list of them are read alike. -/
inductive Port (Own : Type)
  | mk (fields : PortFields) (own : Own) (children : List (Port Own))

/-- What argument ports carry: a default, and the effects, validators, widget and
descriptors. -/
structure ArgOwn (Rest : Type) where
  default : Option Value := none
  rest : Rest

/-- What return ports carry: the effects, widget and descriptors. -/
structure ReturnOwn (Rest : Type) where
  rest : Rest

/-- The declared default of a port: argument ports have one, return ports do not. -/
class HasDefault (Own : Type) where
  default_of : Own → Option Value

instance (Rest : Type) : HasDefault (ArgOwn Rest) := ⟨ArgOwn.default⟩

instance (Rest : Type) : HasDefault (ReturnOwn Rest) := ⟨fun _ => none⟩

abbrev ArgPortInputModel (Rest : Type) := Port (ArgOwn Rest)

abbrev ReturnPortInputModel (Rest : Type) := Port (ReturnOwn Rest)

/-- What stands outside the models: how doubles print, which strings are ISO dates, and
what a unit measures. -/
structure Env where
  float_repr : Dyadic → String
  is_iso_date : String → Bool
  dimensionality_of : String → Except String String

namespace Port

variable {Own : Type}

def fields : Port Own → PortFields
  | mk fields _ _ => fields

def own : Port Own → Own
  | mk _ own _ => own

def children : Port Own → List (Port Own)
  | mk _ _ children => children

def key (port : Port Own) : String := port.fields.key

def kind (port : Port Own) : PortKind := port.fields.kind

def nullable (port : Port Own) : Bool := port.fields.nullable

def identifier (port : Port Own) : Option String := port.fields.identifier

def choice_values (port : Port Own) : List Value := port.fields.choices.getD []

def default_value [HasDefault Own] (port : Port Own) : Option Value := HasDefault.default_of port.own

/-- Induction on a port and the ports below it. -/
@[elab_as_elim]
theorem ind {P : Port Own → Prop}
    (mk : ∀ fields own children, (∀ child ∈ children, P child) → P (.mk fields own children))
    (port : Port Own) : P port := by
  refine Port.rec (motive_1 := P) (motive_2 := fun ports => ∀ port ∈ ports, P port) ?_ ?_ ?_ port
  · exact mk
  · intro port hPort
    cases hPort
  · intro port rest hHead hRest other hOther
    rcases List.mem_cons.mp hOther with rfl | hOther
    · exact hHead
    · exact hRest other hOther

end Port

/-- A child as its parent's check uses it: the port, and the mismatch of a value with it at
a path. -/
structure Child (Own : Type) where
  port : Port Own
  mismatch : Value → String → Option String

section Mismatch

variable {Own : Type} [HasDefault Own] (env : Env)

/-- An item of a container: null is a matter of the child alone. -/
def item_mismatch (child : Child Own) (item : Value) (item_path : String) : Option String :=
  if item.is_null then
    if !child.port.nullable then some (item_path ++ ": null is not allowed") else none
  else child.mismatch item item_path

def expected (path what : String) (value : Value) : Option String :=
  some (path ++ ": expected " ++ what ++ ", got " ++ value.type_name)

def list_mismatch (children : List (Child Own)) (value : Value) (path : String) : Option String :=
  match value with
  | .array items =>
      match children with
      | [] => none
      | item_port :: _ =>
          items.zipIdx.findSome? fun (item, index) =>
            item_mismatch item_port item (path ++ "[" ++ toString index ++ "]")
  | _ => expected path "a LIST" value

def dict_mismatch (children : List (Child Own)) (value : Value) (path : String) : Option String :=
  match value with
  | .object map =>
      map.findSome? fun (name, item) =>
        let child :=
          match children with
          | [only] => if only.port.key = "..." then some only else children.find? (·.port.key = name)
          | _ => children.find? (·.port.key = name)
        match child with
        | none => none
        | some child => item_mismatch child item (path ++ "[" ++ repr_str name ++ "]")
  | _ => expected path "a DICT" value

def model_mismatch (children : List (Child Own)) (value : Value) (path : String) : Option String :=
  match value with
  | .object map =>
      let unknown := (map.map (·.1)).filter fun name =>
        name != "__identifier" && !children.any (·.port.key = name)
      if unknown ≠ [] then
        some (path ++ ": unknown fields [" ++
          ", ".intercalate ((unknown.mergeSort (· ≤ ·)).map repr_str) ++ "]")
      else
        children.findSome? fun child =>
          let item := (Value.get map child.port.key).getD .null
          if item.is_null then
            if !child.port.nullable && (child.port.default_value.getD .null).is_null then
              some (path ++ "." ++ child.port.key ++ ": required field is missing")
            else none
          else child.mismatch item (path ++ "." ++ child.port.key)
  | _ => expected path "a MODEL object" value

def enum_mismatch (values : List Value) (value : Value) (path : String) : Option String :=
  if !Value.among values value then
    let names := values.map fun v => v.as_str.getD (repr env.float_repr v)
    some (path ++ ": " ++ repr env.float_repr value ++ " is not one of the choices [" ++
      ", ".intercalate ((names.mergeSort (· ≤ ·)).map repr_str) ++ "]")
  else none

/-- A reference: an id where a default is declared, the client's envelope in an argument. -/
def reference_mismatch (fields : PortFields) (reference_envelope : Bool) (value : Value)
    (path : String) : Option String :=
  let kind_name := fields.kind.value
  if !reference_envelope then
    if !(value.is_string || value.is_int) then
      expected path ("a " ++ kind_name ++ " id (string or int)") value
    else none
  else
    match value with
    | .object map =>
        match Value.get map "__identifier" with
        | none => some (path ++ ": " ++ kind_name ++ " reference is missing its `__identifier` key")
        | some identifier =>
            match Value.get map "object" with
            | none => some (path ++ ": " ++ kind_name ++ " reference is missing its `object` key")
            | some object =>
                if fields.identifier.any (fun expected => identifier.as_str ≠ some expected) then
                  some (path ++ ": " ++ kind_name ++ " reference identifier mismatch: expected " ++
                    repr_str (fields.identifier.getD "") ++ ", got " ++ repr env.float_repr identifier)
                else if !(object.is_string || object.is_int) then
                  some (path ++ ": " ++ kind_name ++
                    " reference `object` must be a str or int id, got " ++ object.type_name)
                else none
    | _ =>
        expected path
          ("a " ++ kind_name ++ " reference \x7b'__identifier', 'object'\x7d") value

def quantity_mismatch (value : Value) (path : String) : Option String :=
  match value with
  | .object map =>
      let numeric := (Value.get map "value").any Value.is_number
      let unit_ok := (Value.get map "unit").all Value.is_string
      if !numeric || !unit_ok then
        some (path ++
          ": a QUANTITY object needs a numeric `value` and an optional string `unit`")
      else none
  | _ =>
      if !value.is_number then
        expected path "a QUANTITY (number or \x7bvalue, unit\x7d)" value
      else none

def union_mismatch (children : List (Child Own)) (value : Value) (path : String) : Option String :=
  if !children.any (fun child => (child.mismatch value path).isNone) then
    let variants := children.map fun child => repr_str child.port.kind.value
    some (path ++ ": " ++ repr env.float_repr value ++ " matches none of the UNION variants [" ++
      ", ".intercalate variants ++ "]")
  else none

/-- The rule of each kind, over the children's own checks. -/
def kind_mismatch (fields : PortFields) (children : List (Child Own)) (reference_envelope : Bool)
    (value : Value) (path : String) : Option String :=
  match fields.kind with
  | .INT => if !value.is_int then expected path "an INT" value else none
  | .FLOAT => if !value.is_number then expected path "a FLOAT" value else none
  | .STRING => if !value.is_string then expected path "a STRING" value else none
  | .BOOL => if !value.is_boolean then expected path "a BOOL" value else none
  | .DATE =>
      match value.as_str with
      | none => expected path "an ISO-8601 DATE string" value
      | some s =>
          if !env.is_iso_date s then some (path ++ ": " ++ repr_str s ++ " is not an ISO-8601 date")
          else none
  | .LIST => list_mismatch children value path
  | .DICT => dict_mismatch children value path
  | .MODEL => model_mismatch children value path
  | .ENUM => enum_mismatch env (fields.choices.getD []) value path
  | .STRUCTURE | .MEMORY_STRUCTURE | .INTERFACE =>
      reference_mismatch env fields reference_envelope value path
  | .QUANTITY => quantity_mismatch value path
  | .UNION => union_mismatch env children value path

mutual

/-- Why a value does not fit a port, or `none` when it does.  A null value is the caller's
business.  With a reference envelope a structure is spelled as the client's envelope (an
argument) rather than a bare id (a default). -/
def mismatch_at (reference_envelope : Bool) : Port Own → Value → String → Option String
  | .mk fields _ children =>
      kind_mismatch env fields (as_children reference_envelope children) reference_envelope

def as_children (reference_envelope : Bool) : List (Port Own) → List (Child Own)
  | [] => []
  | port :: rest =>
      { port, mismatch := mismatch_at reference_envelope port } :: as_children reference_envelope rest

end

/-- The mismatch at a path, or at the port's own key. -/
def value_mismatch (port : Port Own) (value : Value) (path : Option String)
    (reference_envelope : Bool) : Option String :=
  mismatch_at env reference_envelope port value (path.getD port.key)

end Mismatch

end Rekuest.Ports
