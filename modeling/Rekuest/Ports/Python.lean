import Rekuest.Ports.Fits

/-!
# The check of arguments in Python

The same rules as Python writes them, where a rule is checked before a run is due.  Its
equality is another: `True`, `1` and `1.0` are equal, and so are their hashes; what is
neither hashable nor there raises another exception than a refusal.
-/

namespace Rekuest.Ports.Python

open Rekuest.Ports

/-- What Python raises: a refusal is a `ValueError`. -/
inductive Raised
  | value_error (message : String)
  | type_error
  | index_error

abbrev Py (α : Type) := Except Raised α

/-! ## Values -/

/-- What Python hashes and compares a value by. -/
inductive Hashed
  | none
  | number (x : Dyadic)
  | string (s : String)
  deriving DecidableEq

/-- Lists and dicts have no hash. -/
def hashed : Value → Option Hashed
  | .null => some .none
  | .bool b => some (.number (if b then 1 else 0))
  | .int n => some (.number (n : Dyadic))
  | .float x => some (.number x)
  | .string s => some (.string s)
  | .array _ | .object _ => none

def hashable (v : Value) : Bool := (hashed v).isSome

/-- Equality of hashable values. -/
def equal (v w : Value) : Bool := hashed v = hashed w

/-- A value joins a set, unless an equal one is there. -/
def add (set : List Value) (v : Value) : List Value := if set.any (equal · v) then set else set ++ [v]

def set_of (values : List Value) : Py (List Value) :=
  if values.all hashable then .ok (values.foldl add []) else .error .type_error

def is_in (value : Value) (values : List Value) : Py Bool :=
  if hashable value then .ok (values.any (equal · value)) else .error .type_error

def is_int : Value → Bool
  | .int _ => true
  | _ => false

def str (float_repr : Dyadic → String) (v : Value) : String := v.as_str.getD (repr float_repr v)

/-! ## The rules -/

/-- A child as its parent's check uses it. -/
structure Child (Own : Type) where
  port : Port Own
  mismatch : Value → String → Py (Option String)

/-- The first of some checks that does not pass. -/
def first_of : List (Py (Option String)) → Py (Option String)
  | [] => .ok none
  | .ok none :: rest => first_of rest
  | other :: _ => other

/-- Whether one of some checks passes, tried one by one. -/
def any_passes : List (Py (Option String)) → Py Bool
  | [] => .ok false
  | .ok none :: _ => .ok true
  | .ok (some _) :: rest => any_passes rest
  | .error e :: _ => .error e

section Mismatch

variable {Own : Type} [HasDefault Own] (env : Env)

/-- A dict keyed by the children: a later one of a key takes the place of an earlier. -/
def put (fields : List (Child Own)) (child : Child Own) : List (Child Own) :=
  if fields.any (·.port.key = child.port.key) then
    fields.map fun other => if other.port.key = child.port.key then child else other
  else fields ++ [child]

def fields_of (children : List (Child Own)) : List (Child Own) := children.foldl put []

def expected (path what : String) (value : Value) : Py (Option String) :=
  .ok (some (path ++ ": expected " ++ what ++ ", got " ++ value.type_name))

def item_mismatch (child : Child Own) (item : Value) (item_path : String) : Py (Option String) :=
  if item.is_null && !child.port.nullable then .ok (some (item_path ++ ": null is not allowed"))
  else if !item.is_null then child.mismatch item item_path
  else .ok none

def list_mismatch (children : List (Child Own)) (value : Value) (path : String) : Py (Option String) :=
  match value with
  | .array items =>
      first_of (items.zipIdx.map fun (item, index) =>
        match children with
        | [] => .error .index_error
        | child :: _ => item_mismatch child item (path ++ "[" ++ toString index ++ "]"))
  | _ => expected path "a LIST" value

def dict_mismatch (children : List (Child Own)) (value : Value) (path : String) : Py (Option String) :=
  match value with
  | .object map =>
      match children with
      | [only] =>
          if only.port.key = "..." then
            first_of (map.map fun (name, item) =>
              item_mismatch only item (path ++ "[" ++ repr_str name ++ "]"))
          else named map
      | _ => named map
  | _ => expected path "a DICT" value
where
  /-- Known keys are typed, other keys pass through. -/
  named (map : List (String × Value)) : Py (Option String) :=
    first_of (map.map fun (name, item) =>
      match (fields_of children).find? (·.port.key = name) with
      | none => .ok none
      | some child => item_mismatch child item (path ++ "[" ++ repr_str name ++ "]"))

def model_mismatch (children : List (Child Own)) (value : Value) (path : String) : Py (Option String) :=
  match value with
  | .object map =>
      let fields := fields_of children
      let unknown := (map.map (·.1)).filter fun name =>
        name != "__identifier" && !fields.any (·.port.key = name)
      if unknown ≠ [] then
        .ok (some (path ++ ": unknown fields [" ++
          ", ".intercalate ((unknown.mergeSort (· ≤ ·)).map repr_str) ++ "]"))
      else
        first_of (fields.map fun child =>
          let item := (Value.get map child.port.key).getD .null
          if item.is_null && !child.port.nullable && (child.port.default_value.getD .null).is_null then
            .ok (some (path ++ "." ++ child.port.key ++ ": required field is missing"))
          else if !item.is_null then child.mismatch item (path ++ "." ++ child.port.key)
          else .ok none)
  | _ => expected path "a MODEL object" value

def enum_mismatch (choices : List Value) (value : Value) (path : String) : Py (Option String) := do
  let values ← set_of choices
  let found ← is_in value values
  if !found then
    return some (path ++ ": " ++ repr env.float_repr value ++ " is not one of the choices [" ++
      ", ".intercalate (((values.map (str env.float_repr)).mergeSort (· ≤ ·)).map repr_str) ++ "]")
  else return none

def reference_mismatch (fields : PortFields) (reference_envelope : Bool) (value : Value)
    (path : String) : Py (Option String) :=
  let kind := fields.kind.value
  if !reference_envelope then
    if !(value.is_string || is_int value) then
      expected path ("a " ++ kind ++ " id (string or int)") value
    else .ok none
  else
    match value with
    | .object map =>
        match Value.get map "__identifier" with
        | none => .ok (some (path ++ ": " ++ kind ++ " reference is missing its `__identifier` key"))
        | some identifier =>
            match Value.get map "object" with
            | none => .ok (some (path ++ ": " ++ kind ++ " reference is missing its `object` key"))
            | some referenced =>
                if fields.identifier.any fun expected => identifier.as_str ≠ some expected then
                  .ok (some (path ++ ": " ++ kind ++ " reference identifier mismatch: expected " ++
                    repr_str (fields.identifier.getD "") ++ ", got " ++ repr env.float_repr identifier))
                else if !(referenced.is_string || is_int referenced) then
                  .ok (some (path ++ ": " ++ kind ++
                    " reference `object` must be a str or int id, got " ++ referenced.type_name))
                else .ok none
    | _ =>
        expected path ("a " ++ kind ++ " reference \x7b'__identifier', 'object'\x7d") value

def quantity_mismatch (value : Value) (path : String) : Py (Option String) :=
  match value with
  | .object map =>
      if !((Value.get map "value").getD .null).is_number ||
          (Value.get map "unit").any fun unit => !unit.is_string then
        .ok (some (path ++
          ": a QUANTITY object needs a numeric `value` and an optional string `unit`"))
      else .ok none
  | _ =>
      if !value.is_number then expected path "a QUANTITY (number or \x7bvalue, unit\x7d)" value
      else .ok none

def union_mismatch (children : List (Child Own)) (value : Value) (path : String) :
    Py (Option String) := do
  let found ← any_passes (children.map fun child => child.mismatch value path)
  if !found then
    return some (path ++ ": " ++ repr env.float_repr value ++ " matches none of the UNION variants [" ++
      ", ".intercalate (children.map fun child => repr_str child.port.kind.value) ++ "]")
  else return none

def kind_mismatch (fields : PortFields) (children : List (Child Own)) (reference_envelope : Bool)
    (value : Value) (path : String) : Py (Option String) :=
  match fields.kind with
  | .INT => if !is_int value then expected path "an INT" value else .ok none
  | .FLOAT => if !value.is_number then expected path "a FLOAT" value else .ok none
  | .STRING => if !value.is_string then expected path "a STRING" value else .ok none
  | .BOOL => if !value.is_boolean then expected path "a BOOL" value else .ok none
  | .DATE =>
      match value.as_str with
      | none => expected path "an ISO-8601 DATE string" value
      | some s =>
          if !env.is_iso_date s then
            .ok (some (path ++ ": " ++ repr_str s ++ " is not an ISO-8601 date"))
          else .ok none
  | .LIST => list_mismatch children value path
  | .DICT => dict_mismatch children value path
  | .MODEL => model_mismatch children value path
  | .ENUM => enum_mismatch env (fields.choices.getD []) value path
  | .STRUCTURE | .MEMORY_STRUCTURE | .INTERFACE =>
      reference_mismatch env fields reference_envelope value path
  | .QUANTITY => quantity_mismatch value path
  | .UNION => union_mismatch env children value path

mutual

/-- Why a value does not fit a port, or `None` when it does. -/
def mismatch_at (reference_envelope : Bool) : Port Own → Value → String → Py (Option String)
  | .mk fields _ children =>
      kind_mismatch env fields (as_children reference_envelope children) reference_envelope

def as_children (reference_envelope : Bool) : List (Port Own) → List (Child Own)
  | [] => []
  | port :: rest =>
      { port, mismatch := mismatch_at reference_envelope port } :: as_children reference_envelope rest

end

/-- The mismatch at a path; an empty one is left for the key. -/
def value_mismatch (port : Port Own) (value : Value) (path : Option String)
    (reference_envelope : Bool) : Py (Option String) :=
  let path := if path.getD "" = "" then port.key else path.getD ""
  mismatch_at env reference_envelope port value path

/-- One port's argument. -/
def check_argument (args : List (String × Value)) (port : Port Own) : Py (Option String) :=
  let value := (Value.get args port.key).getD .null
  if value.is_null then
    if port.nullable || !(port.default_value.getD .null).is_null then .ok none
    else .ok (some ("Argument " ++ repr_str port.key ++ " is required and has no default"))
  else do
    let mismatch ← value_mismatch env port value none true
    return mismatch.map fun mismatch => "Argument " ++ mismatch

/-- Raises for arguments that do not fit: what a schedule or a trigger is held to. -/
def validate_assignment_args (ports : List (Port Own)) (args : List (String × Value)) : Py Unit :=
  let unknown := (args.map (·.1)).filter fun k => !ports.any (·.key = k)
  if unknown ≠ [] then
    .error (.value_error ("Unknown arguments [" ++
      ", ".intercalate ((unknown.mergeSort (· ≤ ·)).map repr_str) ++ "]; this action accepts [" ++
      ", ".intercalate (((ports.map Port.key).mergeSort (· ≤ ·)).map repr_str) ++ "]"))
  else
    match first_of (ports.map (check_argument env args)) with
    | .error e => .error e
    | .ok (some refusal) => .error (.value_error refusal)
    | .ok none => .ok ()

end Mismatch

end Rekuest.Ports.Python
