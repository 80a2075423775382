import Rekuest.Backend.Registry
import Rekuest.Ports.Value
import Rekuest.Tables.Keyed

/-!
# Wrapping an implementation

A wrapper's config says how a call of it becomes a call of the implementation it wraps: what is
bound, which args are mapped, under which key the rest is packed, where the dependencies come from,
and the way back of the returns.  The config is JSON; whatever is not as expected reads as absent.
-/

namespace Rekuest.HigherOrder

open Rekuest.Ports Rekuest.Backend Insertion

/-- Args, returns or dependencies by key. -/
abbrev Fields : Type := Map String Value

def as_object : Value → Option Fields
  | .object fields => some (.of fields)
  | _ => none

/-- What a config holds under a name. -/
def get (config : Value) (name : String) : Option Value := (as_object config).bind (·.get name)

def get_object (config : Value) (name : String) : Option Fields := (get config name).bind as_object

def get_str (config : Value) (name : String) : Option String := (get config name).bind (·.as_str)

/-! ## Args -/

/-- The explicit entries of the arg map: what the lower gets, and which args are used up. -/
def map_args (caller_args : Fields) : List (String × Value) → Fields → List String →
    Except String (Fields × List String)
  | [], lower, consumed => .ok (lower, consumed)
  | (lower_key, spec) :: rest, lower, consumed =>
      if get_str spec "from" ≠ some "caller" then map_args caller_args rest lower consumed
      else
        let caller_key := (get_str spec "key").getD ""
        match caller_args.get caller_key with
        | none =>
            .error ("Higher-order arg map references caller arg \x27" ++ caller_key ++
              "\x27 which was not supplied")
        | some value => map_args caller_args rest (lower.insert lower_key value) (consumed ++ [caller_key])

/-- The lower's args: what is bound, then the mapped ones, then the rest. -/
def build_lower_args (config : Value) (caller_args : Fields) : Except String Fields :=
  let bound := (get_object config "bound").getD .empty
  let arg_map := ((get_object config "arg_map").map (·.entries)).getD []
  match map_args caller_args arg_map bound [] with
  | .error e => .error e
  | .ok (lower, consumed) =>
      let remaining := caller_args.filter fun key => key ∉ consumed
      match (get_str config "args_key").filter (· ≠ "") with
      | some args_key => .ok (lower.insert args_key (.object remaining.entries))
      | none => .ok (lower.extend remaining.entries)

/-! ## Dependencies -/

def map_dependencies (resolved : Fields) : List (String × Value) → Fields → Except String Fields
  | [], lower => .ok lower
  | (lower_key, spec) :: rest, lower =>
      match get_str spec "from" with
      | some "bound" => map_dependencies resolved rest (lower.insert lower_key ((get spec "value").getD .null))
      | some "caller" =>
          let key := (get_str spec "key").getD ""
          match resolved.get key with
          | none =>
              .error ("Higher-order dependency map references declared dependency \x27" ++ key ++
                "\x27 which the caller did not supply")
          | some value => map_dependencies resolved rest (lower.insert lower_key value)
      | _ =>
          .error ("Higher-order dependency map entry for \x27" ++ lower_key ++
            "\x27 must set \x27from\x27 to \x27bound\x27 or \x27caller\x27")

/-- The entries of a dependency map that is not empty. -/
def dependency_entries (config : Value) : List (String × Value) :=
  ((get_object config "dependency_map").map (·.entries)).getD []

/-- The lower's dependencies: the wrapper's own, or what its map says. -/
def build_lower_dependencies (config : Value) (resolved : Fields) : Except String Fields :=
  match dependency_entries config with
  | [] => .ok resolved
  | entries => map_dependencies resolved entries .empty

/-! ## Returns -/

/-- The wrapper's returns for those of the lower. -/
def project_returns (config : Value) (lower : Option Fields) : Option Fields :=
  lower.map fun lower =>
    let lower :=
      match get_str config "returns_key" with
      | some key => ((lower.get key).bind as_object).getD .empty
      | none => lower
    match ((get_object config "return_map").map (·.entries)).getD [] with
    | [] => lower
    | entries => .of (entries.map fun entry => (entry.1, (entry.2.as_str.bind lower.get).getD .null))

/-! ## Acceptance -/

def caller_sources (config : Value) : List String :=
  ((dependency_entries config).filter fun entry => get_str entry.2 "from" = some "caller").filterMap
    fun entry => get_str entry.2 "key"

def validate_dependency_coverage (config : Value) (lower_dependency_keys declared : List String) :
    Except String Unit :=
  match (caller_sources config).find? (· ∉ declared) with
  | some key =>
      .error ("Higher-order dependency map references undeclared dependency \x27" ++ key ++
        "\x27. Declare it on the wrapper so the caller knows to pass it.")
  | none =>
      match dependency_entries config with
      | [] =>
          match lower_dependency_keys.find? (· ∉ declared) with
          | some lower =>
              .error ("Lower dependency \x27" ++ lower ++
                "\x27 has no mapping and no matching declared dependency on the wrapper.")
          | none => .ok ()
      | entries =>
          match lower_dependency_keys.find? (· ∉ entries.map (·.1)) with
          | some lower =>
              .error ("Lower dependency \x27" ++ lower ++
                "\x27 is neither bound nor mapped to a declared dependency.")
          | none => .ok ()

def validate_higher_order_pairing (higher_kind lower_kind : String) (lower_is_higher_order : Bool) :
    Except String Unit :=
  if lower_is_higher_order then
    .error ("Nested higher-order implementations are not supported yet — wrap a concrete " ++
      "implementation, not another wrapper.")
  else if higher_kind ≠ lower_kind then
    .error ("Higher-order kind mismatch: wrapper is " ++ higher_kind ++ " but the wrapped action is " ++
      lower_kind ++ "; they must agree.")
  else .ok ()

/-- The implementation to wrap, as it is stored. -/
structure Lower where
  id : Int
  agent_id : Int
  interface : String
  higher_order_for_id : Option Int
  kind : String
  organization_id : Int
  dependencies : List String

/-- What a caller sends; its definition and dependencies are valid or refused as a whole. -/
structure CreateHigherOrderInput where
  lower : String
  interface : String
  kind : String
  config : Option Value
  dependencies : List String
  validate : Except String Unit

/-- The wrapper, linked to its lower. -/
structure Created where
  implementation : Int
  lower : Lower
  config : Value

/-- What is stored: implementations by id, whom an interface of an agent wraps, and the
registration of an implementation. -/
structure Stored where
  implementation : Int → Option Lower
  occupant : Int → String → Option (Option Int)
  register : CreateHigherOrderInput → Lower → Except String Int

def create_higher_order_implementation (stored : Stored) (organization : Int) (input : CreateHigherOrderInput) :
    Except String Created :=
  let config := input.config.getD (.object [])
  if (as_object config).isNone then .error "The higher-order config must be an object"
  else
    match parseI64 input.lower.toList with
    | none => .error ("Invalid implementation id " ++ Backend.reprStr input.lower)
    | some lower_id =>
        match input.validate with
        | .error e => .error e
        | .ok () =>
            match (stored.implementation lower_id).filter (·.organization_id = organization) with
            | none => .error "Implementation matching query does not exist."
            | some lower =>
                if lower.interface = input.interface then .error "An implementation cannot wrap itself"
                else
                  match validate_higher_order_pairing input.kind lower.kind lower.higher_order_for_id.isSome with
                  | .error e => .error e
                  | .ok () =>
                      match validate_dependency_coverage config lower.dependencies input.dependencies with
                      | .error e => .error e
                      | .ok () =>
                          if (stored.occupant lower.agent_id input.interface).any (· ≠ some lower.id) then
                            .error ("Interface " ++ input.interface ++
                              " is already implemented on this agent by something other than a wrapper of " ++
                              "implementation " ++ toString lower.id)
                          else
                            match stored.register input lower with
                            | .error e => .error e
                            | .ok implementation => .ok ⟨implementation, lower, config⟩

end Rekuest.HigherOrder
