import Rekuest.Ports.Fits
import Rekuest.Ports.Python

/-!
# Arguments against ports

The arguments of an assignment against the action's root ports: no unknown ones, every
required one there, and each value fits its port.
-/

namespace Rekuest.Ports

section

variable {Own : Type} [HasDefault Own] (env : Env)

/-- One port's argument: left out or null where that is allowed, and otherwise fitting. -/
def check_argument (args : List (String × Value)) (port : Port Own) : Option String :=
  let value := (Value.get args port.key).getD .null
  if value.is_null then
    if port.nullable || port.default_value.any fun d => !d.is_null then none
    else some ("Argument " ++ repr_str port.key ++ " is required and has no default")
  else
    (value_mismatch env port value none true).map fun mismatch => "Argument " ++ mismatch

def validate_assignment_args (ports : List (Port Own)) (args : List (String × Value)) :
    Except String Unit :=
  let unknown := (args.map (·.1)).filter fun k => !ports.any (·.key = k)
  if unknown ≠ [] then
    .error ("Unknown arguments [" ++ ", ".intercalate ((unknown.mergeSort (· ≤ ·)).map repr_str) ++
      "]; this action accepts [" ++
      ", ".intercalate (((ports.map Port.key).mergeSort (· ≤ ·)).map repr_str) ++ "]")
  else
    match ports.findSome? (check_argument env args) with
    | some refusal => .error refusal
    | none => .ok ()

end

namespace Value

mutual

/-- Every integer in the value is an `i64` or a `u64`. -/
def sized : Value → Prop
  | null | bool _ | float _ | string _ => True
  | int n => -2 ^ 63 ≤ n ∧ n < 2 ^ 64
  | array items => sized_items items
  | object fields => sized_fields fields

def sized_items : List Value → Prop
  | [] => True
  | v :: rest => v.sized ∧ sized_items rest

def sized_fields : List (String × Value) → Prop
  | [] => True
  | (_, v) :: rest => v.sized ∧ sized_fields rest

end

theorem sized_items_iff {items : List Value} : sized_items items ↔ ∀ v ∈ items, v.sized := by
  induction items with
  | nil => simp [sized_items]
  | cons v rest ih => rw [sized_items, ih, List.forall_mem_cons]

theorem sized_fields_iff {fields : List (String × Value)} :
    sized_fields fields ↔ ∀ field ∈ fields, field.2.sized := by
  induction fields with
  | nil => simp [sized_fields]
  | cons field rest ih => rw [sized_fields, ih, List.forall_mem_cons]

theorem sized_get {fields : List (String × Value)} (hFields : ∀ field ∈ fields, field.2.sized)
    {key : String} {v : Value} (h : get fields key = some v) : v.sized := by
  obtain ⟨field, hFind, rfl⟩ := Option.map_eq_some_iff.1 h
  exact hFields field (List.mem_of_find?_eq_some hFind)

/-- What a map gives for a key, or null. -/
theorem sized_getD {fields : List (String × Value)} (hFields : ∀ field ∈ fields, field.2.sized)
    (key : String) : ((get fields key).getD .null).sized := by
  cases h : get fields key with
  | none => trivial
  | some v => exact sized_get hFields h

end Value

end Rekuest.Ports

/-!
# Values that meet an enum

Where a value is held against the choices of an enum, the two checks may part: they have
another notion of equality, and Python needs hashes.  The walk of a value along its port
says what the value is to it: whether it fits, whether it does so only where `True`, `1` and
`1.0` are the same, and whether Python is asked for a hash there is not.
-/

namespace Rekuest.Ports

/-- What a value is to a port: it fits, or does not, or fits only in Python's sense, or Python
finds no hash on its way, where the other check finds that it fits or not. -/
inductive Met
  | fits
  | refused
  | blurred
  | unhashable (strictly : Bool)
  deriving DecidableEq

namespace Met

/-- The value fits as JSON values are compared. -/
def strict : Met → Bool
  | fits => true
  | refused | blurred => false
  | unhashable strictly => strictly

/-- Parts in a row: the first that does not fit ends it. -/
def all : List Met → Met
  | [] => fits
  | fits :: rest => all rest
  | refused :: _ => refused
  | blurred :: rest =>
      match all rest with
      | fits | blurred => blurred
      | refused => refused
      | unhashable _ => unhashable false
  | unhashable strictly :: rest => unhashable (strictly && rest.all strict)

/-- Variants one after the other: the first that fits ends the search. -/
def any : List Met → Met
  | [] => refused
  | fits :: _ => fits
  | refused :: rest => any rest
  | blurred :: rest => if rest.any strict then fits else blurred
  | unhashable strictly :: rest => unhashable (strictly || rest.any strict)

/-- A mismatch no enum has a part in. -/
def of : Option String → Met
  | none => fits
  | some _ => refused

/-- Neither check is in doubt. -/
def clear (m : Met) : Bool := m = fits || m = refused

end Met

/-- A value and the choices of an enum. -/
def meets_enum (choices : List Value) (value : Value) : Met :=
  if !(choices.all Python.hashable && Python.hashable value) then
    .unhashable (Value.among choices value)
  else if Value.among choices value then .fits
  else if choices.any (Python.equal · value) then .blurred
  else .refused

/-- A child and what a value is to it. -/
structure Meeting (Own : Type) where
  port : Port Own
  meets : Value → Met

section Meets

variable {Own : Type} [HasDefault Own] (env : Env)

def meets_item (child : Meeting Own) (item : Value) : Met :=
  if item.is_null then (if child.port.nullable then .fits else .refused) else child.meets item

def meets_list (children : List (Meeting Own)) : Value → Met
  | .array items =>
      match children with
      | [] => .fits
      | child :: _ => .all (items.map (meets_item child))
  | _ => .refused

/-- The child that types an entry of a dict. -/
def child_of (children : List (Meeting Own)) (name : String) : Option (Meeting Own) :=
  match children with
  | [only] => if only.port.key = "..." then some only else children.find? (·.port.key = name)
  | _ => children.find? (·.port.key = name)

def meets_dict (children : List (Meeting Own)) : Value → Met
  | .object map =>
      .all (map.map fun (name, item) =>
        match child_of children name with
        | none => .fits
        | some child => meets_item child item)
  | _ => .refused

def meets_model (children : List (Meeting Own)) : Value → Met
  | .object map =>
      if (map.map (·.1)).all fun name =>
          name = "__identifier" || children.any (·.port.key = name) then
        .all (children.map fun child =>
          let item := (Value.get map child.port.key).getD .null
          if item.is_null then
            (if child.port.nullable || !(child.port.default_value.getD .null).is_null then .fits
              else .refused)
          else child.meets item)
      else .refused
  | _ => .refused

def meets_kind (fields : PortFields) (children : List (Meeting Own)) (value : Value) : Met :=
  match fields.kind with
  | .LIST => meets_list children value
  | .DICT => meets_dict children value
  | .MODEL => meets_model children value
  | .UNION => .any (children.map fun child => child.meets value)
  | .ENUM => meets_enum (fields.choices.getD []) value
  | .INT => if value.is_int then .fits else .refused
  | .FLOAT => if value.is_number then .fits else .refused
  | .STRING => if value.is_string then .fits else .refused
  | .BOOL => if value.is_boolean then .fits else .refused
  | .DATE => if value.as_str.any env.is_iso_date then .fits else .refused
  | .STRUCTURE | .MEMORY_STRUCTURE | .INTERFACE =>
      .of (reference_mismatch env fields true value "")
  | .QUANTITY => .of (quantity_mismatch value "")

mutual

/-- What a value is to a port, as an argument. -/
def meets : Port Own → Value → Met
  | .mk fields _ children => meets_kind env fields (as_meetings children)

def as_meetings : List (Port Own) → List (Meeting Own)
  | [] => []
  | port :: rest => { port, meets := meets port } :: as_meetings rest

end

def meets_argument (args : List (String × Value)) (port : Port Own) : Met :=
  let value := (Value.get args port.key).getD .null
  if value.is_null then
    (if port.nullable || !(port.default_value.getD .null).is_null then .fits else .refused)
  else meets env port value

/-- What the arguments are to the ports. -/
def meets_ports (ports : List (Port Own)) (args : List (String × Value)) : Met :=
  if (args.map (·.1)).all fun k => ports.any (·.key = k) then
    .all (ports.map (meets_argument env args))
  else .refused

end Meets

end Rekuest.Ports
