import Rekuest.Bloks.Tree

/-!
# Descriptors of ports

A port requires of the objects it takes, or provides with those it returns, descriptors:
a key, an operator and a value.  The operator says which values it is given with.
-/

namespace Rekuest.Ports

open Rekuest.Bloks (min_length)

inductive DescriptorOperator
  | MATCHES | EXISTS | LTE | GTE | EQUALS | CONTAINS | NOT_EQUALS | IN | NOT_IN
  deriving DecidableEq

def DescriptorOperator.value : DescriptorOperator → String
  | MATCHES => "MATCHES"
  | EXISTS => "EXISTS"
  | LTE => "LTE"
  | GTE => "GTE"
  | EQUALS => "EQUALS"
  | CONTAINS => "CONTAINS"
  | NOT_EQUALS => "NOT_EQUALS"
  | IN => "IN"
  | NOT_IN => "NOT_IN"

structure DescriptorConstraint where
  key : String
  operator : DescriptorOperator
  value : Option Value := none

namespace DescriptorConstraint

/-- A value that is not given is read as null. -/
def read (descriptor : DescriptorConstraint) : Value := descriptor.value.getD .null

/-- Operator and value agree: IN and NOT_IN take a list, LTE and GTE a number, EXISTS no
value or a boolean. -/
def check_operator (descriptor : DescriptorConstraint) (owner : String) : Except ValidationError Unit :=
  let named := owner ++ " " ++ repr_str descriptor.key ++ ": "
  match descriptor.operator, descriptor.read with
  | .IN, .array _ | .NOT_IN, .array _ => .ok ()
  | .IN, _ => .error (named ++ "IN needs a list value")
  | .NOT_IN, _ => .error (named ++ "NOT_IN needs a list value")
  | .LTE, value => if value.is_number then .ok () else .error (named ++ "LTE needs a numeric value")
  | .GTE, value => if value.is_number then .ok () else .error (named ++ "GTE needs a numeric value")
  | .EXISTS, value =>
      if value.is_null || value.is_boolean then .ok ()
      else .error (named ++ "EXISTS takes no value or a boolean")
  | _, _ => .ok ()

def validate (descriptor : DescriptorConstraint) (owner : String) : Except ValidationError Unit := do
  min_length descriptor.key "key"
  descriptor.check_operator owner

end DescriptorConstraint

/-- The descriptors of a port, in order. -/
def validate_descriptors (owner : String) : List DescriptorConstraint → Except ValidationError Unit
  | [] => .ok ()
  | descriptor :: rest => do
      descriptor.validate owner
      validate_descriptors owner rest

end Rekuest.Ports
