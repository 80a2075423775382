import Rekuest.Formulas.Formula

/-!
# What a formula means

A formula's own tree: each call with the arguments its operation takes, by their keys,
each path with the member it names, and each number with its sign before it.  A formula
that leaves out an argument has none, and neither has one that names a member no object
of the database can have.
-/

namespace Rekuest.Formulas

open Rekuest.Ports Rekuest.Inputs JsonPath

/-- A number with its sign. -/
def signed_tree (negative : Bool) (n : Numeral) : Tree := if negative then .neg (.number n) else .number n

def literal_tree (env : Env) : Option Value → Option Tree
  | some (.int n) => some (signed_tree (n < 0 : Bool) { whole := digits_of n.natAbs })
  | some (.float x) => some (signed_tree (env.spell x).negative (env.spell x).numeral)
  | _ => none

/-- The member of the object that an unescaped key names; the database has no U+0000. -/
def member_tree (key : List Char) : Option Tree :=
  if '\x00' ∈ key then none else some (.member .root key)

def path_tree (path : String) : Option Tree :=
  match segments path with
  | ["agent", name] => some (.member (.variable "agent".toList) name.toList)
  | ["value", key] => member_tree (unescape key)
  | ["args", _, key] => member_tree (unescape key)
  | _ => none

/-- The tree of the argument a call has under a key. -/
def tree_argument (trees : List (Option String × Option Tree)) (key : String) : Option Tree :=
  (trees.find? (·.1 = some key)).bind (·.2)

def binary_tree (trees : List (Option String × Option Tree)) (o : Op) : Option Tree := do
  let a ← tree_argument trees "a"
  let b ← tree_argument trees "b"
  return .binary o a b

def method_tree (trees : List (Option String × Option Tree)) (name : String) : Option Tree :=
  (tree_argument trees "value").map fun value => .method value name.toList

def arithmetic_tree (operation : String) (trees : List (Option String × Option Tree)) : Option Tree :=
  match operation with
  | "math.add" => binary_tree trees .add
  | "math.sub" => binary_tree trees .sub
  | "math.mul" => binary_tree trees .mul
  | "math.div" => binary_tree trees .div
  | "math.neg" => (tree_argument trees "a").map .neg
  | "math.abs" => method_tree trees "abs"
  | "math.floor" => method_tree trees "floor"
  | "math.ceil" => method_tree trees "ceiling"
  | _ => none

/-- Predicates joined from the first on. -/
def joined_tree (o : Op) : List (Option Tree) → Option Tree
  | [] => none
  | first :: rest => do
      let first ← first
      let rest ← rest.mapM id
      return rest.foldl (.binary o) first

def list_tree (values : List (Option String × List (Option Tree))) (o : Op) : Option Tree :=
  ((values.find? (·.1 = some "values")).map (·.2)).bind (joined_tree o)

def truth_tree (operation : String) (trees : List (Option String × Option Tree))
    (values : List (Option String × List (Option Tree))) : Option Tree :=
  match operation with
  | "cmp.gt" => binary_tree trees .gt
  | "cmp.gte" => binary_tree trees .gte
  | "cmp.lt" => binary_tree trees .lt
  | "cmp.lte" => binary_tree trees .lte
  | "logic.all" => list_tree values .and
  | "logic.any" => list_tree values .or
  | _ => none

section Trees

variable (env : Env)

mutual

def number_tree : ActionArgument → Option Tree
  | .mk _ _ _ _ (some call) _ _ => call_tree call
  | .mk _ _ (some path) _ none _ _ => path_tree path
  | .mk _ literal none _ none _ _ => literal_tree env literal

def call_tree : UtilCall → Option Tree
  | .mk operation arguments => arithmetic_tree operation (number_trees arguments)

def number_trees : List ActionArgument → List (Option String × Option Tree)
  | [] => []
  | .mk key literal path agent util list dict :: rest =>
      (key, number_tree (.mk key literal path agent util list dict)) :: number_trees rest

def predicate_tree : UtilCall → Option Tree
  | .mk operation arguments => truth_tree operation (number_trees arguments) (value_trees arguments)

def value_trees : List ActionArgument → List (Option String × List (Option Tree))
  | [] => []
  | .mk key _ _ _ _ (some items) _ :: rest => (key, item_trees items) :: value_trees rest
  | .mk key _ _ _ _ none _ :: rest => (key, []) :: value_trees rest

def item_trees : List ActionArgument → List (Option Tree)
  | [] => []
  | .mk _ _ _ _ (some call) _ _ :: rest => predicate_tree call :: item_trees rest
  | .mk _ _ _ _ none _ _ :: rest => item_trees rest

end

end Trees

/-! ## Complete formulas -/

/-- The keys an operation takes its numbers under. -/
def operands (operation : String) : List String :=
  if operation ∈ ["math.abs", "math.floor", "math.ceil"] then ["value"]
  else if operation = "math.neg" then ["a"]
  else ["a", "b"]

/-- The descriptor a path reads can be a key of the database. -/
def complete_path (path : String) : Bool :=
  match segments path with
  | ["value", key] => '\x00' ∉ unescape key
  | ["args", _, key] => '\x00' ∉ unescape key
  | _ => true

/-- A call has a complete argument under a key. -/
def has (flags : List (Option String × Bool)) (key : String) : Bool :=
  (flags.find? (·.1 = some key)).any (·.2)

/-- A list of values, at least one, and all of them complete. -/
def has_values (flags : List (Option String × List Bool)) : Bool :=
  (flags.find? (·.1 = some "values")).any fun items => !items.2.isEmpty && items.2.all id

mutual

/-- A number whose calls have the arguments their operations take. -/
def complete_number : ActionArgument → Bool
  | .mk _ _ _ _ (some call) _ _ => complete_call call
  | .mk _ _ (some path) _ none _ _ => complete_path path
  | .mk _ _ none _ none _ _ => true

def complete_call : UtilCall → Bool
  | .mk operation arguments => (operands operation).all (has (complete_numbers arguments))

def complete_numbers : List ActionArgument → List (Option String × Bool)
  | [] => []
  | .mk key literal path agent util list dict :: rest =>
      (key, complete_number (.mk key literal path agent util list dict)) :: complete_numbers rest

/-- A comparison of two complete numbers, or at least one complete predicate to join. -/
def complete_predicate : UtilCall → Bool
  | .mk operation arguments =>
      if operation ∈ COMBINATIONS then has_values (complete_values arguments)
      else (operands operation).all (has (complete_numbers arguments))

def complete_values : List ActionArgument → List (Option String × List Bool)
  | [] => []
  | .mk key _ _ _ _ (some items) _ :: rest => (key, complete_items items) :: complete_values rest
  | .mk key _ _ _ _ none _ :: rest => (key, []) :: complete_values rest

def complete_items : List ActionArgument → List Bool
  | [] => []
  | .mk _ _ _ _ (some call) _ _ :: rest => complete_predicate call :: complete_items rest
  | .mk _ _ _ _ none _ _ :: rest => complete_items rest

end

/-- A formula that compiles to a text with its own tree. -/
def Compiles (compiled : Except ValidationError (List Char)) (tree : Option Tree) : Prop :=
  ∃ text t, compiled = .ok text ∧ tree = some t ∧ parse text = some t

def FitsInputModel.Compiles (env : Env) (fit : FitsInputModel) : Prop :=
  Formulas.Compiles (fit.compile env) (predicate_tree env fit.call)

def EstimatedRuntimeInputModel.Compiles (env : Env) (estimate : EstimatedRuntimeInputModel) : Prop :=
  Formulas.Compiles (estimate.compile env) (call_tree env estimate.call)

end Rekuest.Formulas
