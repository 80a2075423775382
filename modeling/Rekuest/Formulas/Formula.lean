import Rekuest.Inputs.Calls
import Rekuest.JsonPath.Parser

/-!
# Formulas

What an implementation can handle of an argument (`Fits`) and how long it runs, over an
object's descriptors and an agent's hardware.  Both are call trees that are checked when
the implementation is registered and compiled to a JSONPath that the action query tests.
The check walks every argument of a call; the compiler takes the arguments by their keys.
-/

namespace Rekuest.Formulas

open Rekuest.Ports Rekuest.Inputs JsonPath

/-- A number as it prints: a sign and a numeral. -/
structure Spelling where
  negative : Bool
  numeral : Numeral
  valid : numeral.Valid

def Spelling.text (s : Spelling) : List Char := (if s.negative then ['-'] else []) ++ s.numeral.text

/-- What stands outside: how doubles print, how values print in refusals, and whether a
function of the blok language has an effect, where there is one of the name. -/
structure Env where
  spell : Dyadic → Spelling
  debug : Option Value → String
  function_effect : String → Option Bool

/-- What a formula reads of the agent's hardware. -/
def AGENT_HARDWARE : List String := ["cpu_count", "memory_mib", "gpu_count", "gpu_memory_mib"]

def ARITHMETIC : List String :=
  ["math.add", "math.sub", "math.mul", "math.div", "math.neg", "math.abs", "math.floor", "math.ceil"]

def COMPARISONS : List String := ["cmp.gt", "cmp.gte", "cmp.lt", "cmp.lte"]

def COMBINATIONS : List String := ["logic.all", "logic.any"]

/-! ## Paths -/

/-- The segments of a path. -/
def segments (path : String) : List String := (path.toList.splitOn '/').map String.ofList

/-- Every pair of two characters replaced by one, from the left. -/
def replace (first second new : Char) : List Char → List Char
  | c :: d :: rest =>
      if c = first ∧ d = second then new :: replace first second new rest
      else c :: replace first second new (d :: rest)
  | rest => rest

/-- A segment as it was before it was escaped. -/
def unescape (segment : String) : List Char := replace '~' '0' '~' (replace '~' '1' '/' segment.toList)

/-- A descriptor's key begins so. -/
def is_descriptor (segment : String) : Bool := segment.toList.head? = some '@'

def check_agent_read (segments : List String) (path owner : String) : Except ValidationError Unit :=
  match segments with
  | ["agent", name] =>
      if name ∈ AGENT_HARDWARE then .ok ()
      else .error (owner ++ " reads '" ++ path ++ "': a formula reads descriptors and agent.\x7b" ++
        ", ".intercalate AGENT_HARDWARE ++ "\x7d")
  | _ =>
      .error (owner ++ " reads '" ++ path ++ "': a formula reads descriptors and agent.\x7b" ++
        ", ".intercalate AGENT_HARDWARE ++ "\x7d")

/-! ## The checks -/

section Check

variable (env : Env) (owner : String)

section Number

-- What is read is held against what was read before it.
variable {σ : Type} (check_read : String → σ → Except ValidationError σ)

mutual

def check_number : ActionArgument → σ → Except ValidationError σ
  | .mk _ _ _ _ (some call) _ _, read => check_arithmetic call read
  | .mk _ _ (some path) _ none _ _, read => check_read path read
  | .mk _ (some (.int _)) none _ none _ _, read => .ok read
  | .mk _ (some (.float _)) none _ none _ _, read => .ok read
  | .mk _ literal none _ none _ _, _ =>
      .error (owner ++ " uses " ++ env.debug literal ++ ": it only works on numbers")

/-- Arithmetic, and numbers for each of its arguments. -/
def check_arithmetic : UtilCall → σ → Except ValidationError σ
  | .mk operation arguments, read =>
      if operation ∉ ARITHMETIC then
        .error (owner ++ ": " ++ operation ++ " cannot be computed when matching actions")
      else check_numbers arguments read

def check_numbers : List ActionArgument → σ → Except ValidationError σ
  | [], read => .ok read
  | argument :: rest, read => do
      let read ← check_number argument read
      check_numbers rest read

end

end Number

/-- A predicate reads the descriptors of its own argument. -/
def check_own_read (path : String) (_ : Unit) : Except ValidationError Unit :=
  match segments path with
  | ["value", key] =>
      if is_descriptor key then .ok ()
      else .error (owner ++ " reads '" ++ path ++ "': name a descriptor of this argument")
  | "value" :: _ => .error (owner ++ " reads '" ++ path ++ "': name a descriptor of this argument")
  | segments => check_agent_read segments path owner

mutual

def check_predicate : UtilCall → Except ValidationError Unit
  | .mk operation arguments =>
      if operation ∈ COMPARISONS then check_numbers env owner (check_own_read owner) arguments ()
      else if operation ∈ COMBINATIONS then check_lists arguments
      else
        .error (owner ++ " must be a comparison, or several joined by and/or, not " ++ operation)

/-- The items of every argument that is a list. -/
def check_lists : List ActionArgument → Except ValidationError Unit
  | [] => .ok ()
  | .mk _ _ _ _ _ (some items) _ :: rest => do
      check_items items
      check_lists rest
  | .mk _ _ _ _ _ none _ :: rest => check_lists rest

def check_items : List ActionArgument → Except ValidationError Unit
  | [] => .ok ()
  | .mk _ _ _ _ (some nested) _ _ :: rest => do
      check_predicate nested
      check_items rest
  | .mk _ _ _ _ none _ _ :: _ => .error (owner ++ ": and/or combine comparisons")

end

end Check

structure FitsInputModel where
  port : String
  call : UtilCall

/-- A formula for how long it runs, and a richer one for the form. -/
structure EstimatedRuntimeInputModel where
  call : UtilCall
  ui_call : Option UtilCall := none

section CheckAll

variable {Rest : Type} (env : Env) (args : List (ArgPortInputModel Rest)) (interface : String)

def is_single_structure (port : ArgPortInputModel Rest) : Bool :=
  port.identifier.isSome && port.children.isEmpty

def check_fits_after (seen : List String) : List FitsInputModel → Except ValidationError Unit
  | [] => .ok ()
  | fit :: rest =>
      let owner := "The Fits of " ++ interface ++ " on " ++ fit.port
      if !(args.find? (·.key = fit.port)).any is_single_structure then
        .error (owner ++ ": only a single structure argument can have one")
      else if fit.port ∈ seen then
        .error (owner ++ ": an argument has one Fits; join conditions with and/or")
      else do
        check_predicate env owner fit.call
        check_fits_after (fit.port :: seen) rest

/-- The `Fits` of one implementation, each on a single structure argument, one per argument. -/
def check_fits_of (fits : List FitsInputModel) : Except ValidationError Unit :=
  check_fits_after env args interface [] fits

/-- The runtime reads the descriptors of one structure argument. -/
def check_args_read (owner path : String) (read : List String) : Except ValidationError (List String) :=
  match segments path with
  | "args" :: rest =>
      match rest with
      | [key, descriptor] =>
          if !is_descriptor descriptor ||
              !(args.find? (·.key = key)).any (·.identifier.isSome) then
            .error (owner ++ " reads '" ++ path ++
              "': it can read the descriptors of a structure argument")
          else
            let read := if key ∈ read then read else read ++ [key]
            if read.length > 1 then
              .error (owner ++ " reads " ++ " and ".intercalate read ++
                ": the action query has one object, so it reads one argument")
            else .ok read
      | _ =>
          .error (owner ++ " reads '" ++ path ++
            "': it can read the descriptors of a structure argument")
  | segments => do
      check_agent_read segments path owner
      return read

end CheckAll

/-! ## The form's formula -/

mutual

def calls_of : ActionArgument → List UtilCall
  | .mk _ _ _ agent util list dict =>
      (match util with
        | some (.mk operation arguments) => .mk operation arguments :: iter_util_calls arguments
        | none => []) ++
      (match agent with
        | some (.mk _ _ arguments) => iter_util_calls arguments
        | none => []) ++
      (match list with
        | some items => iter_util_calls items
        | none => []) ++
      (match dict with
        | some items => iter_util_calls items
        | none => [])

/-- Every util call nested anywhere inside an argument tree. -/
def iter_util_calls : List ActionArgument → List UtilCall
  | [] => []
  | argument :: rest => calls_of argument ++ iter_util_calls rest

end

mutual

def paths_of : ActionArgument → List String
  | .mk _ _ path _ util list dict =>
      path.toList ++
      (match util with
        | some (.mk _ arguments) => value_paths arguments
        | none => []) ++
      (match list with
        | some items => value_paths items
        | none => []) ++
      (match dict with
        | some items => value_paths items
        | none => [])

/-- Every `value_path` under these arguments. -/
def value_paths : List ActionArgument → List String
  | [] => []
  | argument :: rest => paths_of argument ++ value_paths rest

end

section CheckUi

variable {Rest : Type} (env : Env) (args : List (ArgPortInputModel Rest)) (owner : String)

def check_pure : List UtilCall → Except ValidationError Unit
  | [] => .ok ()
  | call :: rest =>
      if (env.function_effect call.operation).getD true then
        .error (owner ++ ": " ++ call.operation ++ " is not a pure function of the blok language")
      else check_pure rest

def check_ui_reads : List String → Except ValidationError Unit
  | [] => .ok ()
  | path :: rest => do
      match segments path with
      | "args" :: key :: _ =>
          if !args.any (·.key = key) then
            .error (owner ++ " reads args." ++ key ++ ", but the action has no such argument")
          else .ok ()
      | segments => check_agent_read segments path owner
      check_ui_reads rest

def check_ui (call : UtilCall) : Except ValidationError Unit := do
  check_pure env owner (call :: iter_util_calls call.arguments)
  check_ui_reads args owner (value_paths call.arguments)

/-- The form's formula, if there is one. -/
def check_form (ui_call : Option UtilCall) : Except ValidationError Unit :=
  match ui_call with
  | none => .ok ()
  | some ui => check_ui env args owner ui

end CheckUi

def EstimatedRuntimeInputModel.check {Rest : Type} (env : Env) (estimate : EstimatedRuntimeInputModel)
    (args : List (ArgPortInputModel Rest)) (interface : String) : Except ValidationError Unit := do
  let owner := "The estimated runtime of " ++ interface
  let _ ← check_arithmetic env owner (check_args_read args owner) estimate.call []
  check_form env args ("The form's estimated runtime of " ++ interface) estimate.ui_call

/-! ## The compiler -/

/-- Four hexadecimal digits. -/
def hex4 (n : Nat) : List Char :=
  [hexDigit (n / 4096 % 16), hexDigit (n / 256 % 16), hexDigit (n / 16 % 16), hexDigit (n % 16)]

/-- The units a character has in UTF-16. -/
def encode_utf16 (c : Char) : List Nat :=
  if c.toNat < 0x10000 then [c.toNat]
  else [0xD800 + (c.toNat - 0x10000) / 0x400, 0xDC00 + (c.toNat - 0x10000) % 0x400]

/-- One character of a JSON string in ASCII. -/
def string_char (c : Char) : List Char :=
  if c = '\x22' then ['\x5c', '\x22']
  else if c = '\x5c' then ['\x5c', '\x5c']
  else if c = '\n' then ['\x5c', 'n']
  else if c = '\r' then ['\x5c', 'r']
  else if c = '\t' then ['\x5c', 't']
  else if c = '\x08' then ['\x5c', 'b']
  else if c = '\x0c' then ['\x5c', 'f']
  else if c.toNat < 0x20 ∨ 0x80 ≤ c.toNat then (encode_utf16 c).flatMap fun unit => '\x5c' :: 'u' :: hex4 unit
  else [c]

/-- `dumps` of a string. -/
def dumps (s : List Char) : List Char := '\x22' :: (s.flatMap string_char ++ ['\x22'])

section Compile

variable (env : Env)

def digits_of (n : Nat) : List Char := Nat.toDigits 10 n

def compile_path (path : String) : Except ValidationError (List Char) :=
  match segments path with
  | ["agent", name] => .ok ("$agent.".toList ++ name.toList)
  | ["value", key] => .ok ("$.".toList ++ dumps (unescape key))
  | ["args", _, key] => .ok ("$.".toList ++ dumps (unescape key))
  | _ => .error ("Cannot compile the path '" ++ path ++ "'")

def compile_literal (literal : Option Value) : Except ValidationError (List Char) :=
  match literal with
  | some (.int n) => .ok ((if n < 0 then ['-'] else []) ++ digits_of n.natAbs)
  | some (.float x) => .ok (env.spell x).text
  | other => .error ("Cannot compile the literal " ++ env.debug other)

/-- The argument a call has under a key. -/
def argument {α : Type} (operation : String) (arguments : List (Option String × α)) (key : String) :
    Except ValidationError α :=
  match arguments.find? (·.1 = some key) with
  | some (_, a) => .ok a
  | none => .error (operation ++ " needs " ++ key)

/-- The compiled arguments of a call, by their keys. -/
abbrev Compiled := List (Option String × Except ValidationError (List Char))

def compile_argument (operation : String) (numbers : Compiled) (key : String) :
    Except ValidationError (List Char) := do
  let number ← argument operation numbers key
  number

def spaced (o : Op) : List Char := ' ' :: (o.symbol ++ [' '])

def binary (operation : String) (numbers : Compiled) (o : Op) : Except ValidationError (List Char) := do
  let a ← compile_argument operation numbers "a"
  let b ← compile_argument operation numbers "b"
  return '(' :: (a ++ (spaced o ++ (b ++ [')'])))

def method (operation : String) (numbers : Compiled) (name : String) :
    Except ValidationError (List Char) := do
  let value ← compile_argument operation numbers "value"
  return '(' :: (value ++ ([')', '.'] ++ (name.toList ++ ['(', ')'])))

def negation (operation : String) (numbers : Compiled) : Except ValidationError (List Char) := do
  let a ← compile_argument operation numbers "a"
  return '(' :: '-' :: (a ++ [')'])

def arithmetic (operation : String) (numbers : Compiled) : Except ValidationError (List Char) :=
  match operation with
  | "math.add" => binary operation numbers .add
  | "math.sub" => binary operation numbers .sub
  | "math.mul" => binary operation numbers .mul
  | "math.div" => binary operation numbers .div
  | "math.neg" => negation operation numbers
  | "math.abs" => method operation numbers "abs"
  | "math.floor" => method operation numbers "floor"
  | "math.ceil" => method operation numbers "ceiling"
  | other => .error ("Cannot compile " ++ other)

def comparison (operation : String) (numbers : Compiled) (o : Op) : Except ValidationError (List Char) := do
  let a ← compile_argument operation numbers "a"
  let b ← compile_argument operation numbers "b"
  return a ++ (spaced o ++ b)

/-- All of the texts, or the first refusal. -/
def collect : List (Except ValidationError (List Char)) → Except ValidationError (List (List Char))
  | [] => .ok []
  | part :: rest => do
      let part ← part
      let rest ← collect rest
      return ('(' :: (part ++ [')'])) :: rest

def combination (operation : String)
    (values : List (Option String × List (Except ValidationError (List Char)))) (o : Op) :
    Except ValidationError (List Char) := do
  let items ← argument operation values "values"
  let parts ← collect items
  return (spaced o).intercalate parts

def predicate (operation : String) (numbers : Compiled)
    (values : List (Option String × List (Except ValidationError (List Char)))) :
    Except ValidationError (List Char) :=
  match operation with
  | "cmp.gt" => comparison operation numbers .gt
  | "cmp.gte" => comparison operation numbers .gte
  | "cmp.lt" => comparison operation numbers .lt
  | "cmp.lte" => comparison operation numbers .lte
  | "logic.all" => combination operation values .and
  | "logic.any" => combination operation values .or
  | other => .error ("Cannot compile " ++ other)

mutual

def compile_number : ActionArgument → Except ValidationError (List Char)
  | .mk _ _ _ _ (some call) _ _ => compile_call call
  | .mk _ _ (some path) _ none _ _ => compile_path path
  | .mk _ literal none _ none _ _ => compile_literal env literal

def compile_call : UtilCall → Except ValidationError (List Char)
  | .mk operation arguments => arithmetic operation (compile_numbers arguments)

def compile_numbers : List ActionArgument → Compiled
  | [] => []
  | .mk key literal path agent util list dict :: rest =>
      (key, compile_number (.mk key literal path agent util list dict)) :: compile_numbers rest

def compile_predicate : UtilCall → Except ValidationError (List Char)
  | .mk operation arguments =>
      predicate operation (compile_numbers arguments) (compile_values arguments)

/-- The compiled predicates of each argument's list. -/
def compile_values : List ActionArgument → List (Option String × List (Except ValidationError (List Char)))
  | [] => []
  | .mk key _ _ _ _ (some items) _ :: rest => (key, compile_items items) :: compile_values rest
  | .mk key _ _ _ _ none _ :: rest => (key, []) :: compile_values rest

def compile_items : List ActionArgument → List (Except ValidationError (List Char))
  | [] => []
  | .mk _ _ _ _ (some call) _ _ :: rest => compile_predicate call :: compile_items rest
  | .mk _ _ _ _ none _ _ :: rest => compile_items rest

end

end Compile

def FitsInputModel.compile (env : Env) (fit : FitsInputModel) : Except ValidationError (List Char) :=
  compile_predicate env fit.call

def EstimatedRuntimeInputModel.compile (env : Env) (estimate : EstimatedRuntimeInputModel) :
    Except ValidationError (List Char) :=
  compile_call env estimate.call

end Rekuest.Formulas
