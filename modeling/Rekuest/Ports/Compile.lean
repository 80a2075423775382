import Rekuest.Formulas.Quoted
import Rekuest.JsonPath.Query
import Rekuest.Ports.Descriptor

/-!
# The compilers of descriptors

The descriptors of a port become a JSONPath that the database holds against the descriptors
of an object: each is a condition on the member its key names, and all of them must hold.
There are two compilers, of the server and of its predecessor in Python.  They differ in
one character: `json.dumps` escapes U+007F, the server's `dumps` does not.
-/

namespace Rekuest.Ports

open JsonPath.Query

-- How doubles print: the shortest digits that read back.
variable (spell : Dyadic → Formulas.Spelling)

/-! ## Values as JSON -/

def units (c : Char) : List Char :=
  (Formulas.encode_utf16 c).flatMap fun unit => '\x5c' :: 'u' :: Formulas.hex4 unit

/-- One character of a string as `json.dumps` prints it: what is not printable ASCII is
escaped. -/
def python_char (c : Char) : List Char :=
  if c = '\x22' then ['\x5c', '\x22']
  else if c = '\x5c' then ['\x5c', '\x5c']
  else if c = '\n' then ['\x5c', 'n']
  else if c = '\r' then ['\x5c', 'r']
  else if c = '\t' then ['\x5c', 't']
  else if c = '\x08' then ['\x5c', 'b']
  else if c = '\x0c' then ['\x5c', 'f']
  else if 0x20 ≤ c.toNat ∧ c.toNat ≤ 0x7e then [c]
  else units c

section Dumps

-- How one character of a string prints.
variable (char : Char → List Char)

def quoted (s : List Char) : List Char := '\x22' :: (s.flatMap char ++ ['\x22'])

def separated (separator : String) (parts : List (List Char)) : List Char :=
  separator.toList.intercalate parts

def int_text (n : Int) : List Char := (if n < 0 then ['-'] else []) ++ Formulas.digits_of n.natAbs

mutual

def dumps : Value → List Char
  | .null => "null".toList
  | .bool true => "true".toList
  | .bool false => "false".toList
  | .int n => int_text n
  | .float x => (spell x).text
  | .string s => quoted char s.toList
  | .array items => '[' :: (separated ", " (dumps_items items) ++ [']'])
  | .object fields => '\x7b' :: (separated ", " (dumps_fields fields) ++ ['\x7d'])

def dumps_items : List Value → List (List Char)
  | [] => []
  | item :: rest => dumps item :: dumps_items rest

def dumps_fields : List (String × Value) → List (List Char)
  | [] => []
  | (key, value) :: rest => (quoted char key.toList ++ ": ".toList ++ dumps value) :: dumps_fields rest

end

end Dumps

/-- A value as it stands in refusals. -/
def shown_value (value : Value) : String := repr (fun x => String.ofList (spell x).text) value

/-- A key without the root it may be written with. -/
def strip_root (key : String) : List Char :=
  match key.toList with
  | '$' :: '.' :: raw => raw
  | raw => raw

/-! ## The server's compiler -/

namespace Rust

/-- A key as a rooted, quoted member. -/
def normalize_jsonpath_key (key : String) : Except String (List Char) :=
  let raw := strip_root key
  if raw = [] then .error ("Invalid descriptor key for JSONPath compilation: " ++ repr_str key)
  else .ok ("$.".toList ++ dumps spell Formulas.string_char (.string (String.ofList raw)))

/-- One descriptor as one predicate. -/
def compile_condition (descriptor : DescriptorConstraint) : Except String (List Char) := do
  let path ← normalize_jsonpath_key spell descriptor.key
  let value := descriptor.read
  let formatted := dumps spell Formulas.string_char value
  let wanted := "Operator DescriptorOperator." ++ descriptor.operator.value ++ " requires a "
  match descriptor.operator with
  | .EXISTS =>
      match value with
      | .null | .bool true => .ok ("exists(".toList ++ path ++ [')'])
      | .bool false => .ok ("!(exists(".toList ++ path ++ "))".toList)
      | other =>
          .error (wanted ++ "boolean value (True = must exist, False = must not exist), got " ++
            shown_value spell other)
  | .MATCHES | .EQUALS => .ok (path ++ " == ".toList ++ formatted)
  | .NOT_EQUALS => .ok (path ++ " != ".toList ++ formatted)
  | .GTE => .ok (path ++ " >= ".toList ++ formatted)
  | .LTE => .ok (path ++ " <= ".toList ++ formatted)
  | .CONTAINS => .ok (path ++ "[*] == ".toList ++ formatted)
  | .IN =>
      match value with
      | .array [] => .ok "(false)".toList
      | .array items =>
          .ok ('(' :: (separated " || "
            (items.map fun v => path ++ " == ".toList ++ dumps spell Formulas.string_char v) ++ [')']))
      | other => .error (wanted ++ "list value, got " ++ shown_value spell other)
  | .NOT_IN =>
      match value with
      | .array [] => .ok "(true)".toList
      | .array items =>
          .ok ('(' :: (separated " && "
            (items.map fun v => path ++ " != ".toList ++ dumps spell Formulas.string_char v) ++ [')']))
      | other => .error (wanted ++ "list value, got " ++ shown_value spell other)

def compile_each : List DescriptorConstraint → Except String (List (List Char))
  | [] => .ok []
  | descriptor :: rest => do
      let part ← compile_condition spell descriptor
      let parts ← compile_each rest
      return part :: parts

/-- All of a port's descriptors, or nothing where there are none. -/
def compile_descriptors_to_jsonpath (descriptors : List DescriptorConstraint) :
    Except String (Option (List Char)) :=
  if descriptors.isEmpty then .ok none
  else do
    let parts ← compile_each spell descriptors
    return some (separated " && " parts)

end Rust

/-! ## The compiler in Python -/

namespace Python

def json_dumps (value : Value) : List Char := dumps spell python_char value

def normalize_jsonpath_key (key : String) : Except String (List Char) :=
  let raw := strip_root key
  if raw = [] then .error ("Invalid descriptor key for JSONPath compilation: " ++ repr_str key)
  else .ok ("$.".toList ++ json_dumps spell (.string (String.ofList raw)))

def compile_descriptor_condition (desc : DescriptorConstraint) : Except String (List Char) := do
  let pg_path ← normalize_jsonpath_key spell desc.key
  let value := desc.read
  let formatted_val := json_dumps spell value
  let wanted := "Operator DescriptorOperator." ++ desc.operator.value ++ " requires a "
  if desc.operator = .EXISTS then
    match value with
    | .null => .ok ("exists(".toList ++ pg_path ++ [')'])
    | .bool present =>
        .ok (if present then "exists(".toList ++ pg_path ++ [')']
          else "!(exists(".toList ++ pg_path ++ "))".toList)
    | other =>
        .error (wanted ++ "boolean value (True = must exist, False = must not exist), got " ++
          shown_value spell other)
  else if desc.operator ∈ [.MATCHES, .EQUALS] then .ok (pg_path ++ " == ".toList ++ formatted_val)
  else if desc.operator = .NOT_EQUALS then .ok (pg_path ++ " != ".toList ++ formatted_val)
  else if desc.operator = .GTE then .ok (pg_path ++ " >= ".toList ++ formatted_val)
  else if desc.operator = .LTE then .ok (pg_path ++ " <= ".toList ++ formatted_val)
  else if desc.operator = .CONTAINS then .ok (pg_path ++ "[*] == ".toList ++ formatted_val)
  else
    match value with
    | .array items =>
        if desc.operator = .IN then
          let parts := items.map fun v => pg_path ++ " == ".toList ++ json_dumps spell v
          .ok (if parts.isEmpty then "(false)".toList else '(' :: (separated " || " parts ++ [')']))
        else
          let parts := items.map fun v => pg_path ++ " != ".toList ++ json_dumps spell v
          .ok (if parts.isEmpty then "(true)".toList else '(' :: (separated " && " parts ++ [')']))
    | other => .error (wanted ++ "list value, got " ++ shown_value spell other)

def compile_each : List DescriptorConstraint → Except String (List (List Char))
  | [] => .ok []
  | desc :: rest => do
      let part ← compile_descriptor_condition spell desc
      let parts ← compile_each rest
      return part :: parts

def compile_descriptors_to_jsonpath (descriptors : List DescriptorConstraint) :
    Except String (Option (List Char)) :=
  if descriptors.isEmpty then .ok none
  else do
    let parts ← compile_each spell descriptors
    return some (separated " && " parts)

end Python

/-! ## What descriptors ask -/

/-- What a descriptor asks of the member its key names: that it is there or not, that it or
one of its items compares with a value, or that it equals one of some values, or none. -/
inductive Condition
  | presence (there : Bool)
  | comparison (o : Comparison) (items : Bool) (value : Value)
  | choice (among : Bool) (values : List Value)

/-- The condition of a descriptor; the values that no acceptance leaves count for nothing. -/
def DescriptorConstraint.asks (descriptor : DescriptorConstraint) : Condition :=
  match descriptor.operator with
  | .EXISTS =>
      match descriptor.read with
      | .bool false => .presence false
      | _ => .presence true
  | .MATCHES | .EQUALS => .comparison .eq false descriptor.read
  | .NOT_EQUALS => .comparison .ne false descriptor.read
  | .GTE => .comparison .gte false descriptor.read
  | .LTE => .comparison .lte false descriptor.read
  | .CONTAINS => .comparison .eq true descriptor.read
  | .IN =>
      match descriptor.read with
      | .array items => .choice true items
      | _ => .choice true []
  | .NOT_IN =>
      match descriptor.read with
      | .array items => .choice false items
      | _ => .choice false []

/-! ## As trees -/

def signed (negative : Bool) (e : Expr) : Expr := if negative then .neg e else e

/-- The literal of a scalar; lists and dicts have none. -/
def literal : Value → Option Expr
  | .null => some .null
  | .bool b => some (.bool b)
  | .int n => some (signed (n < 0) (.number { whole := Formulas.digits_of n.natAbs }))
  | .float x => some (signed (spell x).negative (.number (spell x).numeral))
  | .string s => (text_of s.toList).map .string
  | .array _ => none
  | .object _ => none

/-- The flat member that a key names. -/
def member (key : List Char) : Option Expr := (text_of key).map (.member .root)

def compared (o : Comparison) (items : Bool) (key : List Char) (value : Value) : Option Predicate :=
  match member key, literal spell value with
  | some e, some v => some (.compare o (if items then .items e else e) v)
  | _, _ => none

/-- The members of a list, where each is there. -/
def every {α : Type} : List (Option α) → Option (List α)
  | [] => some []
  | none :: _ => none
  | some a :: rest => (every rest).map (a :: ·)

/-- Predicates joined from the first, or none where there are none. -/
def joined (join : Predicate → Predicate → Predicate) : List Predicate → Option Predicate
  | [] => none
  | p :: rest => some (rest.foldl join p)

/-- A condition on the member of a key, as a predicate or a constant of the grammar. -/
def Condition.tree (key : List Char) : Condition → Option Path
  | .presence true => (member key).map fun e => .predicate (.present e)
  | .presence false => (member key).map fun e => .predicate (.not (.present e))
  | .comparison o items value => (compared spell o items key value).map .predicate
  | .choice among [] => some (.expr (.bool !among))
  | .choice among values =>
      ((every (values.map (compared spell (if among then .eq else .ne) false key))).bind
        (joined (if among then .or else .and))).map .predicate

def as_predicate : Path → Option Predicate
  | .predicate p => some p
  | .expr _ => none

def DescriptorConstraint.tree (descriptor : DescriptorConstraint) : Option Path :=
  descriptor.asks.tree spell (strip_root descriptor.key)

/-- The conjunction of the descriptors' own conditions: the grammar joins predicates only. -/
def conjunction : List DescriptorConstraint → Option Path
  | [] => none
  | [descriptor] => descriptor.tree spell
  | descriptors =>
      ((every (descriptors.map fun descriptor => (descriptor.tree spell).bind as_predicate)).bind
        (joined .and)).map .predicate

/-- Both compilers give the same, and a text, where there is one, parses into the conjunction
of the descriptors' conditions. -/
def CompilesAsMeant (descriptors : List DescriptorConstraint) : Prop :=
  ∃ compiled, Rust.compile_descriptors_to_jsonpath spell descriptors = .ok compiled ∧
    Python.compile_descriptors_to_jsonpath spell descriptors = .ok compiled ∧
    match compiled with
    | none => descriptors = []
    | some text => ∃ path, conjunction spell descriptors = some path ∧ parse text = some path

/-! ## The condition under which they do -/

/-- No character that the database has not, and none that the two compilers print apart. -/
def plain_text (s : List Char) : Bool := s.all fun c => c ≠ '\x00' && c ≠ '\x7f'

def plain_scalar : Value → Bool
  | .string s => plain_text s.toList
  | .array _ | .object _ => false
  | _ => true

/-- Scalars to compare with, of plain text as the key is, where it is printed. -/
def Condition.plain (key : List Char) : Condition → Bool
  | .presence _ => plain_text key
  | .comparison _ _ value => plain_text key && plain_scalar value
  | .choice _ [] => true
  | .choice _ values => plain_text key && values.all plain_scalar

/-- A choice among no values. -/
def Condition.constant : Condition → Bool
  | .choice _ [] => true
  | _ => false

/-- Keys that are more than a root, plain text and scalars, and no choice among no values
beside another descriptor. -/
structure Printable (descriptors : List DescriptorConstraint) : Prop where
  named : ∀ d ∈ descriptors, strip_root d.key ≠ []
  plain : ∀ d ∈ descriptors, d.asks.plain (strip_root d.key) = true
  joinable : 2 ≤ descriptors.length → ∀ d ∈ descriptors, d.asks.constant = false

end Rekuest.Ports
