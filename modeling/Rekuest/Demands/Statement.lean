import Rekuest.Effects.Assoc
import Rekuest.Liveness
import Rekuest.Ports.Compile
import Rekuest.Sql.Select

/-!
# Demands as statements

The matching engine over relational port rows: a demand on the ports of an action, or of a
blok, becomes one statement that selects the ids of those whose port rows satisfy it.  Each
match is an `EXISTS` over the port table, correlated with the owner at the root and with the
parent's row below it, so a match may be nested to any depth.

A builder gives its clause and what it assigns to `params`, in order.
-/

namespace Rekuest.Demands

open Sql (Term Cond Source Select Truth)

/-! ## Tables, columns and values -/

inductive Table
  | facade_action | facade_blok | facade_argport | facade_returnport | facade_blokargport
  | facade_implementation | facade_agent | facade_implementationfit | authentikate_app
  | facade_action_protocols | facade_protocol
  deriving DecidableEq

def Table.name : Table → String
  | facade_action => "facade_action"
  | facade_blok => "facade_blok"
  | facade_argport => "facade_argport"
  | facade_returnport => "facade_returnport"
  | facade_blokargport => "facade_blokargport"
  | facade_implementation => "facade_implementation"
  | facade_agent => "facade_agent"
  | facade_implementationfit => "facade_implementationfit"
  | authentikate_app => "authentikate_app"
  | facade_action_protocols => "facade_action_protocols"
  | facade_protocol => "facade_protocol"

inductive Column
  | id | organization_id | arg_count | return_count | action_id | blok_id | parent_id | index | key
  | kind | identifier | dimension | nullable | compiled_jsonpath | agent_id | connected | last_seen
  | hardware | implementation_id | port_key | hash | app_id | version | name | pure | idempotent
  | stateful | protocol_id
  deriving DecidableEq

def Column.text : Column → String
  | id => "id"
  | organization_id => "organization_id"
  | arg_count => "arg_count"
  | return_count => "return_count"
  | action_id => "action_id"
  | blok_id => "blok_id"
  | parent_id => "parent_id"
  | index => "index"
  | key => "key"
  | kind => "kind"
  | identifier => "identifier"
  | dimension => "dimension"
  | nullable => "nullable"
  | compiled_jsonpath => "compiled_jsonpath"
  | agent_id => "agent_id"
  | connected => "connected"
  | last_seen => "last_seen"
  | hardware => "hardware"
  | implementation_id => "implementation_id"
  | port_key => "port_key"
  | hash => "hash"
  | app_id => "app_id"
  | version => "version"
  | name => "name"
  | pure => "pure"
  | idempotent => "idempotent"
  | stateful => "stateful"
  | protocol_id => "protocol_id"

/-- A value of a column or of a parameter; JSON, JSONPaths and texts are texts. -/
inductive Value
  | int (n : Int)
  | text (s : String)
  | bool (b : Bool)
  | time (t : Int)
  deriving DecidableEq

/-- What the database computes of JSON. -/
structure Jsonb where
  /-- `jsonb_path_match(object, path, vars, true)` -/
  path_match : String → String → String → Truth
  /-- `jsonb_build_object(key, value)` -/
  build_object : String → String → String

abbrev Clause (κ : Type) := Cond Value Table Column κ

/-! ## Conditions -/

section Conditions

variable {κ : Type}

/-- `a = b` -/
def equal : Option Value → Option Value → Truth
  | some a, some b => some (a = b)
  | _, _ => none

/-- `a > b` -/
def greater : Option Value → Option Value → Truth
  | some (.time a), some (.time b) => some (b < a)
  | _, _ => none

def equals (left right : Term Value Column κ) : Clause κ :=
  .test (fun values => equal (values.headD none) (values.tail.headD none))
    [("", left), (" = ", right)] ""

def is_greater (left right : Term Value Column κ) : Clause κ :=
  .test (fun values => greater (values.headD none) (values.tail.headD none))
    [("", left), (" > ", right)] ""

def is_null (t : Term Value Column κ) : Clause κ :=
  .test (fun values => some (values.headD none).isNone) [("", t)] " IS NULL"

def as_truth : Option Value → Truth
  | some (.bool b) => some b
  | _ => none

/-- A boolean column. -/
def holds (t : Term Value Column κ) : Clause κ :=
  .test (fun values => as_truth (values.headD none)) [("", t)] ""

def always : Clause κ := .test (fun _ => some true) [] "TRUE"

/-- `jsonb_path_match(…, true)`, of what is not NULL. -/
def Jsonb.matched (jsonb : Jsonb) : Option Value → Option Value → Option Value → Truth
  | some (.text object), some (.text path), some (.text vars) => jsonb.path_match object path vars
  | _, _, _ => none

def path_match (jsonb : Jsonb) (object path vars : Term Value Column κ) : Clause κ :=
  .test (fun values =>
    jsonb.matched (values.headD none) (values.tail.headD none) (values.tail.tail.headD none))
    [("jsonb_path_match(", object), ("::jsonb, ", path), ("::jsonpath, ", vars)] ", true)"

/-- `" AND ".join(conditions)` -/
def conjunction : List (Clause κ) → Clause κ
  | [] => .test (fun _ => some true) [] ""
  | [c] => c
  | c :: rest => .and c (conjunction rest)

def empty_object : String := "\x7b\x7d"

/-- `'…'`, or `'…'::jsonb`. -/
def quoted (s cast : String) : Term Value Column κ :=
  .literal ("'" ++ s ++ "'" ++ cast) (.text s)

/-- `COALESCE(left, right)` -/
def coalesce (left right : Term Value Column κ) : Term Value Column κ :=
  .combine "COALESCE(" ", " ")" Option.or left right

/-- `jsonb_build_object`, of what is not NULL. -/
def Jsonb.built (jsonb : Jsonb) : Option Value → Option Value → Option Value
  | some (.text key), some (.text value) => some (.text (jsonb.build_object key value))
  | _, _ => none

/-- A formula's `$agent`, always bound. -/
def agent_vars_sql (jsonb : Jsonb) (alias_ : String) : Term Value Column κ :=
  .combine "jsonb_build_object(" ", " ")" jsonb.built
    (quoted "agent" "") (coalesce (.column alias_ .hardware) (quoted empty_object "::jsonb"))

end Conditions

/-! ## Matches and demands -/

/-- A runtime descriptor of a candidate object. -/
structure DescriptorInputModel where
  key : String
  value : Ports.Value

/-- The fields of a `PortMatchInputModel`, bar its children. -/
structure MatchFields where
  at_ : Option Int := none
  key : Option String := none
  kind : Option Ports.PortKind := none
  identifier : Option String := none
  nullable : Option Bool := none
  dimension : Option String := none
  descriptors : List DescriptorInputModel := []

/-- A match and the matches of its children; no descriptors and no children are read like
empty lists of them. -/
inductive PortMatchInputModel
  | mk (fields : MatchFields) (children : List PortMatchInputModel)

inductive DemandKind
  | args | returns
  deriving DecidableEq

/-- What the ports on one side must look like. -/
structure PortDemand where
  kind : DemandKind
  matches_ : List PortMatchInputModel := []
  force_length : Option Int := none
  force_non_nullable_length : Option Int := none
  force_structure_length : Option Int := none

/-- A row that owns port rows: its table, the column its port rows point back with, its port
tables, and the root counts it keeps itself. -/
structure PortOwner where
  table : Table
  column : Column
  port_tables : DemandKind → Option Table
  count_columns : Option (DemandKind → Column) := none

def PORT_TABLE : DemandKind → Table
  | .args => .facade_argport
  | .returns => .facade_returnport

def ACTION_PORTS : PortOwner where
  table := .facade_action
  column := .action_id
  port_tables kind := some (PORT_TABLE kind)
  count_columns := some fun kind =>
    match kind with
    | .args => .arg_count
    | .returns => .return_count

/-- A blok has no returns. -/
def BLOK_PORTS : PortOwner where
  table := .facade_blok
  column := .blok_id
  port_tables kind :=
    match kind with
    | .args => some .facade_blokargport
    | .returns => none

/-- The rows a demand selects that have port rows. -/
inductive DemandOwner
  | action | blok
  deriving DecidableEq

def DemandOwner.ports : DemandOwner → PortOwner
  | action => ACTION_PORTS
  | blok => BLOK_PORTS

/-! ## Building a statement -/

abbrev ValueError := String

/-- What is assigned to `params`, in order. -/
abbrev Assignments := List (String × Value)

section Build

-- How doubles print, the database's JSON, what stands in the text in the place of a value, and
-- the settings and the time a cutoff is read at.
variable {κ : Type} (spell : Dyadic → Formulas.Spelling) (jsonb : Jsonb)
  (place : String → Value → κ) (settings : Settings) (now : String → Int)

def together (parts : List (List (Clause κ) × Assignments)) : List (Clause κ) × Assignments :=
  (parts.flatMap (·.1), parts.flatMap (·.2))

theorem together_pair {κ : Type} (a b : List (Clause κ) × Assignments) :
    together [a, b] = (a.1 ++ b.1, a.2 ++ b.2) := by
  simp [together]

def cutoff (key : String) : Value := .time (now key - settings.agentStaleAfter)

/-- Agents that can receive work now. -/
def live_agent_sql (alias_ cutoff_key : String) : Clause κ :=
  .or (equals (.column alias_ .kind) (quoted "WEBHOOK" ""))
    (.group (.and (holds (.column alias_ .connected))
      (is_greater (.column alias_ .last_seen)
        (.place (place cutoff_key (cutoff settings now cutoff_key))))))

/-- `facade_implementation i JOIN facade_agent g ON g.id = i.agent_id` -/
def implementations_of_agents : Source Value Table Column κ :=
  .join (.table .facade_implementation (some "i")) .facade_agent "g"
    (equals (.column "g" .id) (.column "i" .agent_id))

/-- The fits of implementation `i` on a port. -/
def fit_of (port_alias : String) : Clause κ :=
  .and (equals (.column "f" .implementation_id) (.column "i" .id))
    (equals (.column "f" .port_key) (.column port_alias .key))

/-- Whether a live implementation can handle the object: hidden only when every live one
refuses. -/
def fits_condition (port_alias : String) (object : Term Value Column κ) (cutoff_key : String) :
    Clause κ :=
  let of_action : Clause κ := equals (.column "i" .action_id) (.column port_alias .action_id)
  let live := live_agent_sql place settings now "g" cutoff_key
  .or
    (.no_row
      (.join implementations_of_agents .facade_implementationfit "f" (fit_of port_alias))
      (.and of_action live))
    (.some_row
      (.left_join implementations_of_agents .facade_implementationfit "f" (fit_of port_alias))
      (.and of_action (.and live
        (.or (is_null (.column "f" .id))
          (path_match jsonb object (.column "f" .compiled_jsonpath) (agent_vars_sql jsonb "g"))))))

/-- The candidate object of runtime descriptors, the last of a key winning, as JSON. -/
def candidate_object (descriptors : List DescriptorInputModel) : String :=
  String.ofList (Ports.Python.json_dumps spell (.object
    (descriptors.foldl (fun object d => Effects.insert d.key d.value object) [])))

/-- One field of a match: nothing where it is not set. -/
def field_clause (alias_ id_path tag : String) (column : Column) (value : Option Value) :
    List (Clause κ) × Assignments :=
  match value with
  | none => ([], [])
  | some value =>
      let key := tag ++ "_" ++ id_path
      ([equals (.column alias_ column) (.place (place key value))], [(key, value)])

/-- The structural fields of a match. -/
def structural_clauses (fields : MatchFields) (alias_ id_path : String) :
    List (Clause κ) × Assignments :=
  together [
    field_clause place alias_ id_path "at" .index (fields.at_.map .int),
    field_clause place alias_ id_path "key" .key (fields.key.map .text),
    field_clause place alias_ id_path "kind" .kind (fields.kind.map fun kind => .text kind.value),
    field_clause place alias_ id_path "ident" .identifier (fields.identifier.map .text),
    field_clause place alias_ id_path "dim" .dimension (fields.dimension.map .text),
    field_clause place alias_ id_path "null" .nullable (fields.nullable.map .bool)]

def MatchFields.has_structural_narrowing (fields : MatchFields) : Bool :=
  fields.at_.isSome || fields.key.isSome || fields.kind.isSome || fields.identifier.isSome ||
    fields.dimension.isSome

/-- The object of a match's descriptors is held against the port's compiled constraints, and,
at the root of an action's args, against the fits of its implementations. -/
def descriptor_clauses (fields : MatchFields) (fits : Bool) (alias_ id_path : String) :
    List (Clause κ) × Assignments :=
  if fields.descriptors.isEmpty then ([], [])
  else
    let key := "obj_" ++ id_path
    let object := Value.text (candidate_object spell fields.descriptors)
    let cutoff_key := "cutoff_" ++ id_path
    let placed : Term Value Column κ := .place (place key object)
    let accepted : Clause κ :=
      .or (is_null (.column alias_ .compiled_jsonpath))
        (path_match jsonb placed (.column alias_ .compiled_jsonpath) (quoted empty_object "::jsonb"))
    if fits then
      ([fits_condition jsonb place settings now alias_ placed cutoff_key, accepted],
        [(key, object), (cutoff_key, cutoff settings now cutoff_key)])
    else ([accepted], [(key, object)])

def descriptor_only : ValueError :=
  "A root port match with descriptors must also narrow structurally (identifier, kind, key, at or dimension) — descriptor-only matches would scan every port in the organization."

/-- Root matches correlate to the owner's row, nested ones to their parent's. -/
def correlation (owner_column : Column) (action_alias alias_ : String) :
    Option String → List (Clause κ)
  | none =>
      [equals (.column alias_ owner_column) (.column action_alias .id),
        is_null (.column alias_ .parent_id)]
  | some parent_alias => [equals (.column alias_ .parent_id) (.column parent_alias .id)]

/-- Whether a match is held against the fits too. -/
def asks_fits (table : Table) (owner_column : Column) (parent_alias : Option String) : Bool :=
  parent_alias.isNone && owner_column = .action_id && table = PORT_TABLE .args

-- The port table, the column that names the owner, and the owner's alias.
variable (table : Table) (owner_column : Column) (action_alias : String)

mutual

/-- One correlated `EXISTS` for one match. -/
def build_match_exists (parent_alias : Option String) (id_path : String) :
    PortMatchInputModel → Except ValueError (Clause κ × Assignments)
  | .mk fields children =>
      let alias_ := "p_" ++ id_path
      if !fields.descriptors.isEmpty && parent_alias.isNone && !fields.has_structural_narrowing then
        .error descriptor_only
      else do
        let structural := structural_clauses place fields alias_ id_path
        let descriptors := descriptor_clauses spell jsonb place settings now fields
          (asks_fits table owner_column parent_alias) alias_ id_path
        let nested ← build_children alias_ id_path 0 children
        return (.some_row (.table table (some alias_))
            (conjunction (correlation owner_column action_alias alias_ parent_alias ++
              (structural.1 ++ (descriptors.1 ++ nested.1)))),
          structural.2 ++ (descriptors.2 ++ nested.2))

/-- The clauses of a match's children, numbered from a number on. -/
def build_children (parent_alias id_path : String) (index : Nat) :
    List PortMatchInputModel → Except ValueError (List (Clause κ) × Assignments)
  | [] => .ok ([], [])
  | child :: rest => do
      let clause ← build_match_exists (some parent_alias) (id_path ++ "_" ++ toString index) child
      let clauses ← build_children parent_alias id_path (index + 1) rest
      return (clause.1 :: clauses.1, clause.2 ++ clauses.2)

end

/-- The root matches of one demand, numbered from a number on. -/
def root_matches (path : Nat → String) (index : Nat) :
    List PortMatchInputModel → Except ValueError (List (Clause κ) × Assignments)
  | [] => .ok ([], [])
  | m :: rest => do
      let clause ← build_match_exists spell jsonb place settings now table owner_column
        action_alias none (path index) m
      let clauses ← root_matches path (index + 1) rest
      return (clause.1 :: clauses.1, clause.2 ++ clauses.2)

/-- `(SELECT COUNT(*) …) = N` over the owner's root ports. -/
def root_count_subquery (extra_condition : Clause κ) (param_key : String) (value : Int) :
    Clause κ × Assignments :=
  (.count (fun n => equal (some (.int n))) (.table table (some "pc"))
      (.and (equals (.column "pc" owner_column) (.column action_alias .id))
        (.and (is_null (.column "pc" .parent_id)) extra_condition))
      (.place (place param_key (.int value))),
    [(param_key, .int value)])

/-- One of a demand's lengths: nothing where it is not forced. -/
def forced (length : Option Int) (clause : Int → Clause κ × Assignments) :
    List (Clause κ) × Assignments :=
  match length with
  | none => ([], [])
  | some length => ([(clause length).1], (clause length).2)

/-- The number of root ports: the owner's own count, or the count of its rows. -/
def length_clause (owner : PortOwner) (kind : DemandKind) (key : String) (length : Int) :
    Clause κ × Assignments :=
  match owner.count_columns with
  | some columns =>
      (equals (.column action_alias (columns kind)) (.place (place key (.int length))),
        [(key, .int length)])
  | none =>
      root_count_subquery place table owner.column action_alias always key length

end Build

section Demand

variable {κ : Type} (spell : Dyadic → Formulas.Spelling) (jsonb : Jsonb)
  (place : String → Value → κ) (settings : Settings) (now : String → Int)

def DemandKind.text : DemandKind → String
  | .args => "args"
  | .returns => "returns"

/-- The kinds of ports an owner has, sorted. -/
def PortOwner.kinds (owner : PortOwner) : List DemandKind :=
  [DemandKind.args, .returns].filter fun kind => (owner.port_tables kind).isSome

def no_such_ports (owner : PortOwner) (kind : DemandKind) : ValueError :=
  owner.table.name ++ " rows have no " ++ kind.text ++ " ports to demand: only " ++
    ", ".intercalate (owner.kinds.map DemandKind.text)

/-- A boolean literal. -/
def false_ : Term Value Column κ := .literal "false" (.bool false)

/-- The clauses of one demand. -/
def demand_clauses (owner : PortOwner) (demand_index : Nat) (demand : PortDemand) :
    Except ValueError (List (Clause κ) × Assignments) :=
  match owner.port_tables demand.kind with
  | none => .error (no_such_ports owner demand.kind)
  | some table => do
      let matched ← root_matches spell jsonb place settings now table owner.column "a"
        (fun match_index => toString demand_index ++ "_" ++ toString match_index) 0 demand.matches_
      let key (tag : String) := tag ++ "_" ++ toString demand_index
      return together [matched,
        forced demand.force_length
          (length_clause place table "a" owner demand.kind (key "force_length")),
        forced demand.force_non_nullable_length
          (root_count_subquery place table owner.column "a"
            (equals (.column "pc" .nullable) false_) (key "force_non_nullable")),
        forced demand.force_structure_length
          (root_count_subquery place table owner.column "a"
            (equals (.column "pc" .kind) (quoted "STRUCTURE" "")) (key "force_structure"))]

/-- The clauses of demands, numbered from a number on. -/
def demands_clauses (owner : PortOwner) (demand_index : Nat) :
    List PortDemand → Except ValueError (List (Clause κ) × Assignments)
  | [] => .ok ([], [])
  | demand :: rest => do
      let clauses ← demand_clauses spell jsonb place settings now owner demand_index demand
      let others ← demands_clauses owner (demand_index + 1) rest
      return together [clauses, others]

/-- The organization's rows, where one is given. -/
def organization_clause (organization_id : Option Int) : List (Clause κ) × Assignments :=
  match organization_id with
  | none => ([], [])
  | some organization =>
      ([equals (.column "a" .organization_id) (.place (place "org" (.int organization)))],
        [("org", .int organization)])

def no_search_params : ValueError := "No search params provided"

/-- `SELECT a.id FROM … a WHERE …` -/
def select_ids (table : Table) (clauses : List (Clause κ)) : Select Value Table Column κ where
  selected := .column "a" .id
  source := .table table (some "a")
  condition := conjunction clauses

/-- The statement selecting the owner's ids satisfying every demand, and its parameters. -/
def port_demand_sql (demands : List PortDemand) (organization_id : Option Int)
    (owner : PortOwner) : Except ValueError (Select Value Table Column κ × Assignments) := do
  let clauses ← demands_clauses spell jsonb place settings now owner 0 demands
  let all := together [organization_clause place organization_id, clauses]
  if all.1.isEmpty then .error no_search_params else return (select_ids owner.table all.1, all.2)

end Demand

/-! ## Parameters -/

/-- A dictionary, after what was assigned to it. -/
def params_of (assignments : Assignments) : List (String × Value) :=
  assignments.foldl (fun params a => Effects.insert a.1 a.2 params) []

-- The characters beyond ASCII that `\w` matches.
variable (letter : Char → Bool)

/-- `\w` -/
def is_word (c : Char) : Bool :=
  if c.toNat < 128 then c.isAlphanum || c = '_' else letter c

/-- `_to_positional`: names become `%s`, with the parameters in the order of their places. -/
def to_positional (sql : List Char) (params : List (String × Value)) :
    Option (List Char × List Value) :=
  Sql.positional (is_word letter) (fun key => params.lookup (String.ofList key)) sql

/-- The text of a statement with names. -/
def statement_text (s : Select Value Table Column String) : List Char :=
  Sql.named_text (s.pieces Table.name Column.text)

section Subquery

variable (spell : Dyadic → Formulas.Spelling) (jsonb : Jsonb) (settings : Settings)

/-- The name alone stands in the place of a value: what the text of a statement has. -/
abbrev named (key : String) (_ : Value) : String := key

/-- `KeyError`: a name of the statement that was not assigned. -/
def unassigned : ValueError := "KeyError"

/-- `_positional_port_demand_sql`, and `get_port_demand_subquery`. -/
def positional_port_demand_sql (now : String → Int) (demands : List PortDemand)
    (organization_id : Int) (owner : DemandOwner) :
    Except ValueError (List Char × List Value) := do
  let (sql, assignments) ← port_demand_sql spell jsonb named settings now demands
    (some organization_id) owner.ports
  (to_positional letter (statement_text sql) (params_of assignments)).elim (.error unassigned) .ok

/-- The statements of sets of demands, numbered from a number on; each reads the time itself. -/
def positional_statements (now : Nat → String → Int) (organization_id : Int) (owner : DemandOwner)
    (index : Nat) : List (List PortDemand) → Except ValueError (List (List Char × List Value))
  | [] => .ok []
  | demands :: rest => do
      let statement ← positional_port_demand_sql letter spell jsonb settings (now index) demands
        organization_id owner
      let statements ← positional_statements now organization_id owner (index + 1) rest
      return statement :: statements

def empty_set : ValueError := "Every set of anyDemands needs at least one demand."

/-- `" UNION ".join(…)` -/
def union_text (texts : List (List Char)) : List Char := " UNION ".toList.intercalate texts

/-- The rows that satisfy every demand of at least one set. -/
def get_any_port_demand_subquery (now : Nat → String → Int) (sets : List (List PortDemand))
    (organization_id : Int) (owner : DemandOwner) : Except ValueError (List Char × List Value) :=
  if sets.any List.isEmpty then .error empty_set
  else do
    let statements ← positional_statements letter spell jsonb settings now organization_id owner 0
      sets
    return (union_text (statements.map Prod.fst), statements.flatMap Prod.snd)

end Subquery

end Rekuest.Demands
