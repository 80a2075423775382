import Mathlib.Algebra.Ring.Int.Defs
import Mathlib.Algebra.Ring.Nat
import Mathlib.Data.List.Basic

/-!
# Values of ports

A value is what the JSON of an argument, a default or a choice denotes: an integer or
a double for a number, and fields in the order they were sent for an object.  It has a
type name, prints as Python prints it, and is equal to another up to the order of
fields.  A double is a dyadic number: the two zeros are the same one.
-/

namespace Rekuest.Ports

inductive Value
  | null
  | bool (b : Bool)
  | int (n : Int)
  | float (x : Dyadic)
  | string (s : String)
  | array (items : List Value)
  | object (fields : List (String × Value))

namespace Value

def is_null : Value → Bool
  | null => true
  | _ => false

def is_string : Value → Bool
  | string _ => true
  | _ => false

def is_boolean : Value → Bool
  | bool _ => true
  | _ => false

def is_number : Value → Bool
  | int _ | float _ => true
  | _ => false

/-- An `i64` or a `u64`. -/
def is_int : Value → Bool
  | int n => (-2 ^ 63 ≤ n ∧ n < 2 ^ 64 : Bool)
  | _ => false

def as_str : Value → Option String
  | string s => some s
  | _ => none

def type_name : Value → String
  | null => "NoneType"
  | bool _ => "bool"
  | float _ => "float"
  | int _ => "int"
  | string _ => "str"
  | array _ => "list"
  | object _ => "dict"

/-- The value a map has for a key. -/
def get (fields : List (String × Value)) (key : String) : Option Value :=
  (fields.find? (·.1 == key)).map (·.2)

mutual

/-- Equal values: no integer equals a double, and objects may order their fields differently. -/
def same : Value → Value → Bool
  | null, null => true
  | bool b, bool b' => b == b'
  | int n, int n' => n == n'
  | float x, float x' => x == x'
  | string s, string s' => s == s'
  | array items, array items' => same_items items items'
  | object fields, object fields' => fields.length == fields'.length && same_fields fields fields'
  | _, _ => false

def same_items : List Value → List Value → Bool
  | [], [] => true
  | v :: rest, w :: rest' => v.same w && same_items rest rest'
  | _, _ => false

def same_fields : List (String × Value) → List (String × Value) → Bool
  | [], _ => true
  | (key, v) :: rest, fields =>
      (match get fields key with
        | some w => v.same w
        | none => false) && same_fields rest fields

end

/-- One of the values of a list. -/
def among (values : List Value) (value : Value) : Bool := values.any (·.same value)

end Value

/-! ## As Python prints it -/

def hexDigit (n : Nat) : Char := "0123456789abcdef".toList.getD n '0'

/-- One character of a quoted string. -/
def repr_char (quote c : Char) : List Char :=
  if c = '\\' then ['\\', '\\']
  else if c = '\n' then ['\\', 'n']
  else if c = '\r' then ['\\', 'r']
  else if c = '\t' then ['\\', 't']
  else if c = quote then ['\\', c]
  else if c.toNat < 0x20 ∨ c.toNat = 0x7f then
    ['\\', 'x', hexDigit (c.toNat / 16), hexDigit (c.toNat % 16)]
  else [c]

/-- Single quotes, unless the string holds one and no double quote. -/
def repr_str (s : String) : String :=
  let quote := if s.toList.contains '\x27' && !s.toList.contains '\x22' then '\x22' else '\x27'
  String.ofList (quote :: s.toList.flatMap (repr_char quote) ++ [quote])

section Repr

-- How a double prints: the shortest digits that read back as it.
variable (float_repr : Dyadic → String)

mutual

def repr : Value → String
  | .null => "None"
  | .bool true => "True"
  | .bool false => "False"
  | .int n => toString n
  | .float x => float_repr x
  | .string s => repr_str s
  | .array items => "[" ++ ", ".intercalate (repr_items items) ++ "]"
  | .object fields => "\x7b" ++ ", ".intercalate (repr_fields fields) ++ "\x7d"

def repr_items : List Value → List String
  | [] => []
  | v :: rest => repr v :: repr_items rest

def repr_fields : List (String × Value) → List String
  | [] => []
  | (key, v) :: rest => (repr_str key ++ ": " ++ repr v) :: repr_fields rest

end

end Repr

example : repr_str "it's" = "\x22it's\x22" := by decide

end Rekuest.Ports
