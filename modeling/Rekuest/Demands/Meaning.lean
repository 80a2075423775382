import Rekuest.Demands.Rows
import Rekuest.Demands.Statement

/-!
# What a demand says of rows

What the statement of a demand says over the rows of the database: it selects the owners whose
port rows fit every match, down to the children of the matches, and whose root ports are as
many as the demand forces.
-/

namespace Rekuest.Demands

open Sql (Term Cond Source Select Truth Env)

/-! ## The rows of the database -/

/-- A row of `facade_action`. -/
structure ActionRow where
  id : Nat
  organization_id : Nat
  app_id : Nat
  key : String
  hash : String
  version : String
  name : String
  pure : Bool
  idempotent : Bool
  stateful : Bool
  arg_count : Nat
  return_count : Nat

/-- A row of `facade_blok`. -/
structure BlokRow where
  id : Nat
  organization_id : Nat

/-- A row of `facade_implementation`. -/
structure ImplementationRow where
  id : Nat
  action_id : Nat
  agent_id : Nat

/-- A row of `facade_agent`. -/
structure AgentRow where
  id : Nat
  kind : String
  connected : Bool
  last_seen : Option Int
  hardware : Option String

/-- A row of `facade_implementationfit`. -/
structure FitRow where
  id : Nat
  implementation_id : Nat
  port_key : String
  compiled_jsonpath : String

structure Store where
  actions : List ActionRow := []
  bloks : List BlokRow := []
  args : List PortRow := []
  returns : List PortRow := []
  blok_args : List PortRow := []
  implementations : List ImplementationRow := []
  agents : List AgentRow := []
  fits : List FitRow := []

def number (n : Nat) : Option Value := some (.int n)

def ActionRow.columns (row : ActionRow) : Column → Option Value
  | .id => number row.id
  | .organization_id => number row.organization_id
  | .app_id => number row.app_id
  | .key => some (.text row.key)
  | .hash => some (.text row.hash)
  | .version => some (.text row.version)
  | .name => some (.text row.name)
  | .pure => some (.bool row.pure)
  | .idempotent => some (.bool row.idempotent)
  | .stateful => some (.bool row.stateful)
  | .arg_count => number row.arg_count
  | .return_count => number row.return_count
  | _ => none

def BlokRow.columns (row : BlokRow) : Column → Option Value
  | .id => number row.id
  | .organization_id => number row.organization_id
  | _ => none

/-- The columns of a port row, its owner's being named so. -/
def PortRow.columns (owner_column : Column) (row : PortRow) : Column → Option Value
  | .id => number row.id
  | .parent_id => row.parent_id.bind number
  | .index => number row.index
  | .key => some (.text row.key)
  | .kind => some (.text row.kind)
  | .identifier => row.identifier.map .text
  | .compiled_jsonpath => row.compiled_jsonpath.map fun path => .text (String.ofList path)
  | .nullable => some (.bool row.nullable)
  | .dimension => row.dimension.map .text
  | column => if column = owner_column then number row.owner else none

def ImplementationRow.columns (row : ImplementationRow) : Column → Option Value
  | .id => number row.id
  | .action_id => number row.action_id
  | .agent_id => number row.agent_id
  | _ => none

def AgentRow.columns (row : AgentRow) : Column → Option Value
  | .id => number row.id
  | .kind => some (.text row.kind)
  | .connected => some (.bool row.connected)
  | .last_seen => row.last_seen.map .time
  | .hardware => row.hardware.map .text
  | _ => none

def FitRow.columns (row : FitRow) : Column → Option Value
  | .id => number row.id
  | .implementation_id => number row.implementation_id
  | .port_key => some (.text row.port_key)
  | .compiled_jsonpath => some (.text row.compiled_jsonpath)
  | _ => none

namespace Store

variable (store : Store)

def port_rows : Table → List PortRow
  | .facade_argport => store.args
  | .facade_returnport => store.returns
  | .facade_blokargport => store.blok_args
  | _ => []

def tables : Table → List (Column → Option Value)
  | .facade_action => store.actions.map ActionRow.columns
  | .facade_blok => store.bloks.map BlokRow.columns
  | .facade_argport => store.args.map (PortRow.columns .action_id)
  | .facade_returnport => store.returns.map (PortRow.columns .action_id)
  | .facade_blokargport => store.blok_args.map (PortRow.columns .blok_id)
  | .facade_implementation => store.implementations.map ImplementationRow.columns
  | .facade_agent => store.agents.map AgentRow.columns
  | .facade_implementationfit => store.fits.map FitRow.columns
  | _ => []

end Store

/-! ## What is asked of rows -/

section Fits

variable (spell : Dyadic → Formulas.Spelling) (jsonb : Jsonb) (settings : Settings)
  (now : String → Int) (store : Store)

/-- An agent can receive work at a time: a webhook can, and one that is live. -/
def Available (t : Int) (agent : AgentRow) : Prop :=
  agent.kind = "WEBHOOK" ∨ agentIsLive settings agent.connected agent.last_seen t = true

/-- A fit accepts an object on an agent. -/
def FitRow.Accepts (object : String) (agent : AgentRow) (fit : FitRow) : Prop :=
  jsonb.path_match object fit.compiled_jsonpath
    (jsonb.build_object "agent" (agent.hardware.getD empty_object)) = some true

/-- An implementation of the action on an agent that can receive work. -/
def LiveOn (t : Int) (action : Nat) (implementation : ImplementationRow) (agent : AgentRow) :
    Prop :=
  implementation ∈ store.implementations ∧ agent ∈ store.agents ∧
    agent.id = implementation.agent_id ∧ implementation.action_id = action ∧
      Available settings t agent

/-- The limits an implementation states on a port. -/
def Limits (implementation : ImplementationRow) (port_key : String) (fit : FitRow) : Prop :=
  fit ∈ store.fits ∧ fit.implementation_id = implementation.id ∧ fit.port_key = port_key

/-- An object is refused on a port of an action: there is a live implementation, and each
states limits none of which the object meets. -/
def Refused (t : Int) (action : Nat) (port_key object : String) : Prop :=
  (∃ implementation agent, LiveOn settings store t action implementation agent) ∧
    ∀ implementation agent, LiveOn settings store t action implementation agent →
      (∃ fit, Limits store implementation port_key fit) ∧
        ∀ fit, Limits store implementation port_key fit → ¬ fit.Accepts jsonb object agent

/-- The constraints of a port accept an object; no constraints accept any. -/
def Accepted (object : String) (compiled : Option (List Char)) : Prop :=
  ∀ path, compiled = some path →
    jsonb.path_match object (String.ofList path) empty_object = some true

/-- A row has every field that is set. -/
structure MatchFields.Fits (fields : MatchFields) (row : PortRow) : Prop where
  at_ : ∀ n, fields.at_ = some n → (row.index : Int) = n
  key : ∀ key, fields.key = some key → row.key = key
  kind : ∀ kind, fields.kind = some kind → row.kind = kind.value
  identifier : ∀ identifier, fields.identifier = some identifier → row.identifier = some identifier
  dimension : ∀ dimension, fields.dimension = some dimension → row.dimension = some dimension
  nullable : ∀ nullable, fields.nullable = some nullable → row.nullable = nullable

/-- The object of a match's descriptors, where it has some, is accepted by the row, and at the
root of an action's args not refused by its implementations that are live then. -/
def MatchFields.Takes (fields : MatchFields) (then_ : Option Int) (row : PortRow) : Prop :=
  fields.descriptors ≠ [] →
    Accepted jsonb (candidate_object spell fields.descriptors) row.compiled_jsonpath ∧
      ∀ t, then_ = some t →
        ¬ Refused jsonb settings store t row.owner row.key
          (candidate_object spell fields.descriptors)

variable (rows : List PortRow)

mutual

/-- A row fits a match below the root: its fields, its object, and each child of the match by
a row under it. -/
def RowFits (row : PortRow) : PortMatchInputModel → Prop
  | .mk fields children =>
      fields.Fits row ∧ fields.Takes spell jsonb settings store none row ∧
        ChildrenFit row children

def ChildrenFit (row : PortRow) : List PortMatchInputModel → Prop
  | [] => True
  | child :: rest =>
      (∃ under ∈ rows, under.parent_id = some row.id ∧ RowFits under child) ∧ ChildrenFit row rest

end

end Fits

/-! ## What conditions say -/

section Conditions

variable {jsonb : Jsonb} {tables : Table → List (Column → Option Value)} {env : Env Value Column}

abbrev Says (tables : Table → List (Column → Option Value)) (env : Env Value Column)
    (c : Clause Value) : Prop := c.meaning Table.name tables env = some true

theorem equal_true {a b : Option Value} :
    equal a b = some true ↔ ∃ v, a = some v ∧ b = some v := by
  cases a <;> cases b <;> simp [equal, eq_comm]

theorem says_equals {left right : Term Value Column Value} :
    Says tables env (equals left right) ↔ ∃ v, left.value env = some v ∧ right.value env = some v :=
  equal_true

theorem says_equals_columns {a b : String} {x y : Column} :
    Says tables env (equals (.column a x) (.column b y)) ↔
      ∃ v, env a x = some v ∧ env b y = some v := says_equals

theorem says_equals_value {a : String} {x : Column} {v : Value} :
    Says tables env (equals (.column a x) (.place v)) ↔ env a x = some v := by
  rw [says_equals]
  constructor
  · rintro ⟨w, hColumn, hValue⟩
    exact hColumn.trans hValue.symm
  · intro h
    exact ⟨v, h, rfl⟩

theorem says_is_null {t : Term Value Column Value} :
    Says tables env (is_null t) ↔ t.value env = none := by
  show some (t.value env).isNone = some true ↔ _
  rw [Option.some.injEq, Option.isNone_iff_eq_none]

theorem says_holds {t : Term Value Column Value} :
    Says tables env (holds t) ↔ t.value env = some (.bool true) := by
  show as_truth (t.value env) = some true ↔ _
  unfold as_truth
  split
  case h_1 b hEq => simp [hEq]
  case h_2 hNot =>
      constructor
      · intro h
        cases h
      · intro h
        exact absurd h (hNot true)

theorem says_conjunction {clauses : List (Clause Value)} :
    Says tables env (conjunction clauses) ↔ ∀ c ∈ clauses, Says tables env c := by
  induction clauses with
  | nil =>
      constructor
      · intro _ c hc
        cases hc
      · intro _
        rfl
  | cons c rest ih =>
      cases rest with
      | nil => exact (List.forall_mem_singleton (p := Says tables env)).symm
      | cons next rest =>
          rw [List.forall_mem_cons, ← ih]
          exact Sql.meaning_and

theorem says_path_match {object path vars : Term Value Column Value} :
    Says tables env (path_match jsonb object path vars) ↔
      ∃ o p v, object.value env = some (.text o) ∧ path.value env = some (.text p) ∧
        vars.value env = some (.text v) ∧ jsonb.path_match o p v = some true := by
  show jsonb.matched (object.value env) (path.value env) (vars.value env) = some true ↔ _
  constructor
  · intro h
    unfold Jsonb.matched at h
    split at h
    case h_1 o p v hObject hPath hVars => exact ⟨o, p, v, hObject, hPath, hVars, h⟩
    case h_2 => cases h
  · rintro ⟨o, p, v, hObject, hPath, hVars, h⟩
    rw [hObject, hPath, hVars]
    exact h

end Conditions

/-! ### Agents and fits -/

section Agents

variable {jsonb : Jsonb} {settings : Settings} {now : String → Int} {store : Store}
  {tables : Table → List (Column → Option Value)} {env : Env Value Column}

/-- A value stands for itself in a bound statement. -/
abbrev itself (_ : String) (v : Value) : Value := v

theorem says_live {agent : AgentRow} {key : String} (hAgent : env "g" = agent.columns) :
    Says tables env (live_agent_sql itself settings now "g" key) ↔
      Available settings (now key) agent := by
  rw [Says, live_agent_sql, Sql.meaning_or, Sql.meaning_group, Sql.meaning_and, Available,
    agentIsLive_iff]
  refine or_congr ?_ (and_congr ?_ ?_)
  · refine says_equals.trans ?_
    simp [Term.value, hAgent, AgentRow.columns, quoted, eq_comm]
  · refine says_holds.trans ?_
    simp [Term.value, hAgent, AgentRow.columns]
  · show greater (env "g" .last_seen) (some (cutoff settings now key)) = some true ↔ _
    rw [hAgent]
    cases hSeen : agent.last_seen with
    | none => simp [AgentRow.columns, hSeen, greater]
    | some seen => simp [AgentRow.columns, hSeen, greater, cutoff]

theorem vars_value {agent : AgentRow} (hAgent : env "g" = agent.columns) :
    (agent_vars_sql jsonb "g" : Term Value Column Value).value env =
      some (.text (jsonb.build_object "agent" (agent.hardware.getD empty_object))) := by
  show jsonb.built (some (.text "agent")) (Option.or (env "g" .hardware) (some (.text empty_object))) = _
  rw [hAgent]
  cases hHardware : agent.hardware <;> simp [AgentRow.columns, hHardware, Jsonb.built]

/-- The rows outside, with an implementation and its agent beside them. -/
def beside (env : Env Value Column) (implementation : ImplementationRow) (agent : AgentRow) :
    Env Value Column :=
  (env.set "i" implementation.columns).set "g" agent.columns

theorem beside_i (env : Env Value Column) (implementation : ImplementationRow) (agent : AgentRow) :
    beside env implementation agent "i" = implementation.columns := by
  simp [beside, Env.set]

theorem beside_g (env : Env Value Column) (implementation : ImplementationRow) (agent : AgentRow) :
    beside env implementation agent "g" = agent.columns := by
  simp [beside, Env.set]

theorem beside_other {other : String} (hI : other ≠ "i") (hG : other ≠ "g")
    (implementation : ImplementationRow) (agent : AgentRow) :
    beside env implementation agent other = env other := by
  rw [beside, Env.set_ne _ _ hG, Env.set_ne _ _ hI]

theorem number_inj {a b : Nat} : (∃ v, number a = some v ∧ number b = some v) ↔ a = b := by
  simp [number, eq_comm]

theorem mem_implementations {inner : Env Value Column} :
    inner ∈ (implementations_of_agents : Source Value Table Column Value).rows Table.name
        store.tables env ↔
      ∃ implementation ∈ store.implementations, ∃ agent ∈ store.agents,
        agent.id = implementation.agent_id ∧ inner = beside env implementation agent := by
  rw [implementations_of_agents, Sql.mem_join]
  constructor
  · rintro ⟨outer, hOuter, columns, hColumns, rfl, hOn⟩
    obtain ⟨columns', hColumns', rfl⟩ := Sql.mem_table.1 hOuter
    obtain ⟨agent, hAgent, rfl⟩ := List.mem_map.1 hColumns
    obtain ⟨implementation, hImplementation, rfl⟩ := List.mem_map.1 hColumns'
    refine ⟨implementation, hImplementation, agent, hAgent, ?_, rfl⟩
    exact number_inj.1 (says_equals_columns.1 hOn)
  · rintro ⟨implementation, hImplementation, agent, hAgent, hId, rfl⟩
    refine ⟨env.set "i" implementation.columns, Sql.mem_table.2
      ⟨_, List.mem_map_of_mem hImplementation, rfl⟩, _, List.mem_map_of_mem hAgent, rfl, ?_⟩
    exact says_equals_columns.2 (number_inj.2 hId)

variable {port_alias : String} {row : PortRow} {object : String}

/-- The aliases a port's own alias is none of. -/
structure Apart (port_alias : String) : Prop where
  i : port_alias ≠ "i"
  g : port_alias ≠ "g"
  f : port_alias ≠ "f"

theorem says_fit_of (hApart : Apart port_alias) (hPort : env port_alias = row.columns .action_id)
    {implementation : ImplementationRow} {agent : AgentRow} {fit : FitRow} :
    Says tables ((beside env implementation agent).set "f" fit.columns) (fit_of port_alias) ↔
      fit.implementation_id = implementation.id ∧ fit.port_key = row.key := by
  rw [Says, fit_of, Sql.meaning_and]
  refine and_congr ?_ ?_
  · refine says_equals_columns.trans ?_
    rw [Env.set_self, Env.set_ne _ _ (by decide), beside_i]
    exact number_inj
  · refine says_equals_columns.trans ?_
    rw [Env.set_self, Env.set_ne _ _ hApart.f, beside_other hApart.i hApart.g, hPort]
    simp [FitRow.columns, PortRow.columns, eq_comm]

/-- What the clauses on `i` and `g` say. -/
theorem says_live_on (tables : Table → List (Column → Option Value)) (settings : Settings)
    (now : String → Int) (key : String) (implementation : ImplementationRow) (agent : AgentRow)
    (fit : Column → Option Value) (hApart : Apart port_alias)
    (hPort : env port_alias = row.columns .action_id) :
    (Says tables ((beside env implementation agent).set "f" fit)
        (equals (.column "i" .action_id) (.column port_alias .action_id)) ↔
      implementation.action_id = row.owner) ∧
    (Says tables ((beside env implementation agent).set "f" fit)
        (live_agent_sql itself settings now "g" key) ↔ Available settings (now key) agent) := by
  refine ⟨?_, ?_⟩
  · refine says_equals_columns.trans ?_
    rw [Env.set_ne _ _ (by decide), beside_i, Env.set_ne _ _ hApart.f,
      beside_other hApart.i hApart.g, hPort]
    exact number_inj
  · apply says_live
    rw [Env.set_ne _ _ (by decide), beside_g]

/-- No live implementation states a limit on the port. -/
theorem says_no_limits (hApart : Apart port_alias) (hPort : env port_alias = row.columns .action_id)
    {key : String} :
    Says store.tables env
        (.no_row
          (.join implementations_of_agents .facade_implementationfit "f" (fit_of port_alias))
          (.and (equals (.column "i" .action_id) (.column port_alias .action_id))
            (live_agent_sql itself settings now "g" key))) ↔
      ∀ implementation agent, LiveOn settings store (now key) row.owner implementation agent →
        ∀ fit, ¬ Limits store implementation row.key fit := by
  rw [Says, Sql.meaning_no_row]
  constructor
  · intro h implementation agent hLive fit hLimit
    obtain ⟨hImplementation, hAgent, hId, hAction, hAvailable⟩ := hLive
    refine h ((beside env implementation agent).set "f" fit.columns) (Sql.mem_join.2
      ⟨_, mem_implementations.2 ⟨implementation, hImplementation, agent, hAgent, hId, rfl⟩, _,
        List.mem_map_of_mem hLimit.1, rfl, (says_fit_of hApart hPort).2 hLimit.2⟩) ?_
    obtain ⟨hActionIff, hLiveIff⟩ := says_live_on store.tables settings now key implementation agent
      fit.columns hApart hPort
    exact Sql.meaning_and.2 ⟨hActionIff.2 hAction, hLiveIff.2 hAvailable⟩
  · intro h inner hInner hSays
    obtain ⟨outer, hOuter, columns, hColumns, rfl, hOn⟩ := Sql.mem_join.1 hInner
    obtain ⟨implementation, hImplementation, agent, hAgent, hId, rfl⟩ := mem_implementations.1 hOuter
    obtain ⟨fit, hFit, rfl⟩ := List.mem_map.1 hColumns
    obtain ⟨hActionIff, hLiveIff⟩ := says_live_on store.tables settings now key implementation agent
      fit.columns hApart hPort
    obtain ⟨hAction, hLive⟩ := Sql.meaning_and.1 hSays
    exact h implementation agent
      ⟨hImplementation, hAgent, hId, hActionIff.1 hAction, hLiveIff.1 hLive⟩ fit
      ⟨hFit, (says_fit_of hApart hPort).1 hOn⟩

/-- A live implementation states no limit on the port, or one that the object meets. -/
theorem says_handled (hApart : Apart port_alias) (hPort : env port_alias = row.columns .action_id)
    {key : String} :
    Says store.tables env
        (.some_row
          (.left_join implementations_of_agents .facade_implementationfit "f" (fit_of port_alias))
          (.and (equals (.column "i" .action_id) (.column port_alias .action_id))
            (.and (live_agent_sql itself settings now "g" key)
              (.or (is_null (.column "f" .id))
                (path_match jsonb (.place (.text object)) (.column "f" .compiled_jsonpath)
                  (agent_vars_sql jsonb "g")))))) ↔
      ∃ implementation agent, LiveOn settings store (now key) row.owner implementation agent ∧
        ((∀ fit, ¬ Limits store implementation row.key fit) ∨
          ∃ fit, Limits store implementation row.key fit ∧ fit.Accepts jsonb object agent) := by
  have hMatch : ∀ (implementation : ImplementationRow) (agent : AgentRow) (fit : FitRow),
      Says store.tables ((beside env implementation agent).set "f" fit.columns)
        (path_match jsonb (.place (.text object)) (.column "f" .compiled_jsonpath)
          (agent_vars_sql jsonb "g")) ↔ fit.Accepts jsonb object agent := by
    intro implementation agent fit
    have hAgent : ((beside env implementation agent).set "f" fit.columns) "g" = agent.columns := by
      rw [Env.set_ne _ _ (by decide), beside_g]
    rw [says_path_match, vars_value hAgent]
    simp [Term.value, Env.set_self, FitRow.columns, FitRow.Accepts]
  rw [Says, Sql.meaning_some_row]
  constructor
  · rintro ⟨inner, hInner, hSays⟩
    obtain ⟨outer, hOuter, hCase⟩ := Sql.mem_left_join.1 hInner
    obtain ⟨implementation, hImplementation, agent, hAgent, hId, rfl⟩ := mem_implementations.1 hOuter
    obtain ⟨hAction, hRest⟩ := Sql.meaning_and.1 hSays
    obtain ⟨hLive, hFits⟩ := Sql.meaning_and.1 hRest
    rcases hCase with ⟨columns, hColumns, rfl, hOn⟩ | ⟨hNone, rfl⟩
    · obtain ⟨fit, hFit, rfl⟩ := List.mem_map.1 hColumns
      obtain ⟨hActionIff, hLiveIff⟩ := says_live_on store.tables settings now key implementation agent
        fit.columns hApart hPort
      refine ⟨implementation, agent,
        ⟨hImplementation, hAgent, hId, hActionIff.1 hAction, hLiveIff.1 hLive⟩, .inr ⟨fit,
          ⟨hFit, (says_fit_of hApart hPort).1 hOn⟩, ?_⟩⟩
      rcases Sql.meaning_or.1 hFits with hNull | hAccepts
      · have hId := says_is_null.1 hNull
        rw [Term.value, Env.set_self] at hId
        cases hId
      · exact (hMatch implementation agent fit).1 hAccepts
    · obtain ⟨hActionIff, hLiveIff⟩ := says_live_on store.tables settings now key implementation agent
        (fun _ => none) hApart hPort
      refine ⟨implementation, agent,
        ⟨hImplementation, hAgent, hId, hActionIff.1 hAction, hLiveIff.1 hLive⟩, .inl ?_⟩
      intro fit hLimit
      exact hNone fit.columns (List.mem_map_of_mem hLimit.1) ((says_fit_of hApart hPort).2 hLimit.2)
  · rintro ⟨implementation, agent, ⟨hImplementation, hAgent, hId, hAction, hAvailable⟩, hCase⟩
    have hOuter : beside env implementation agent ∈
        (implementations_of_agents : Source Value Table Column Value).rows Table.name store.tables
          env :=
      mem_implementations.2 ⟨implementation, hImplementation, agent, hAgent, hId, rfl⟩
    rcases hCase with hNone | ⟨fit, hLimit, hAccepts⟩
    · obtain ⟨hActionIff, hLiveIff⟩ := says_live_on store.tables settings now key implementation agent
        (fun _ => none) hApart hPort
      refine ⟨(beside env implementation agent).set "f" fun _ => none,
        Sql.mem_left_join.2 ⟨_, hOuter, .inr ⟨?_, rfl⟩⟩, Sql.meaning_and.2 ⟨hActionIff.2 hAction,
          Sql.meaning_and.2 ⟨hLiveIff.2 hAvailable, Sql.meaning_or.2 (.inl ?_)⟩⟩⟩
      · intro columns hColumns hOn
        obtain ⟨fit, hFit, rfl⟩ := List.mem_map.1 hColumns
        exact hNone fit ⟨hFit, (says_fit_of hApart hPort).1 hOn⟩
      · refine says_is_null.2 ?_
        rw [Term.value, Env.set_self]
    · obtain ⟨hActionIff, hLiveIff⟩ := says_live_on store.tables settings now key implementation agent
        fit.columns hApart hPort
      refine ⟨(beside env implementation agent).set "f" fit.columns,
        Sql.mem_left_join.2 ⟨_, hOuter, .inl ⟨_, List.mem_map_of_mem hLimit.1, rfl,
          (says_fit_of hApart hPort).2 hLimit.2⟩⟩, Sql.meaning_and.2 ⟨hActionIff.2 hAction,
          Sql.meaning_and.2 ⟨hLiveIff.2 hAvailable, Sql.meaning_or.2 (.inr ?_)⟩⟩⟩
      exact (hMatch implementation agent fit).2 hAccepts

/-- The object is hidden only when every live implementation refuses it. -/
theorem says_fits (hApart : Apart port_alias) (hPort : env port_alias = row.columns .action_id)
    {key : String} :
    Says store.tables env
        (fits_condition jsonb itself settings now port_alias (.place (.text object)) key) ↔
      ¬ Refused jsonb settings store (now key) row.owner row.key object := by
  rw [Says, fits_condition, Sql.meaning_or]
  refine (or_congr (says_no_limits hApart hPort) (says_handled hApart hPort)).trans ?_
  constructor
  · rintro (hNone | ⟨implementation, agent, hLive, hCase⟩) ⟨⟨i, g, hSome⟩, hAll⟩
    · obtain ⟨fit, hLimit⟩ := (hAll i g hSome).1
      exact hNone i g hSome fit hLimit
    · obtain ⟨⟨fit, hLimit⟩, hRefuses⟩ := hAll implementation agent hLive
      rcases hCase with hFree | ⟨fit', hLimit', hAccepts⟩
      · exact hFree fit hLimit
      · exact hRefuses fit' hLimit' hAccepts
  · intro hNot
    by_cases hSome : ∃ implementation agent,
        LiveOn settings store (now key) row.owner implementation agent
    · right
      by_contra hHandled
      refine hNot ⟨hSome, ?_⟩
      intro implementation agent hLive
      constructor
      · by_contra hNone
        exact hHandled ⟨implementation, agent, hLive, .inl fun fit hLimit => hNone ⟨fit, hLimit⟩⟩
      · intro fit hLimit hAccepts
        exact hHandled ⟨implementation, agent, hLive, .inr ⟨fit, hLimit, hAccepts⟩⟩
    · left
      intro implementation agent hLive
      exact absurd ⟨implementation, agent, hLive⟩ hSome

end Agents

/-! ## What a match says -/

/-- The port tables, each with the column that names the owner of its rows. -/
inductive PortsOf : Table → Column → Prop
  | args : PortsOf .facade_argport .action_id
  | returns : PortsOf .facade_returnport .action_id
  | blok_args : PortsOf .facade_blokargport .blok_id

namespace PortsOf

variable {table : Table} {owner_column : Column}

theorem tables (h : PortsOf table owner_column) (store : Store) :
    store.tables table = (store.port_rows table).map (PortRow.columns owner_column) := by
  cases h <;> rfl

theorem owner (h : PortsOf table owner_column) (row : PortRow) :
    row.columns owner_column owner_column = number row.owner := by
  cases h <;> rfl

end PortsOf

section Match

variable {spell : Dyadic → Formulas.Spelling} {jsonb : Jsonb} {settings : Settings}
  {now : String → Int} {store : Store} {tables : Table → List (Column → Option Value)}
  {env : Env Value Column} {alias_ id_path : String} {row : PortRow} {owner_column : Column}
  {fields : MatchFields}

theorem says_field {tag : String} {column : Column} {value : Option Value} :
    (∀ c ∈ (field_clause itself alias_ id_path tag column value).1, Says tables env c) ↔
      ∀ v, value = some v → env alias_ column = some v := by
  cases value with
  | none =>
      constructor
      · intro _ v hv
        cases hv
      · intro _ c hc
        cases hc
  | some value =>
      refine (List.forall_mem_singleton (p := Says tables env)).trans ?_
      rw [says_equals_value]
      constructor
      · intro h v hv
        cases hv
        exact h
      · intro h
        exact h value rfl

/-- The structural clauses say that the row has every field that is set. -/
theorem says_structural (hRow : env alias_ = row.columns owner_column) :
    (∀ c ∈ (structural_clauses itself fields alias_ id_path).1, Says tables env c) ↔
      fields.Fits row := by
  simp only [structural_clauses, together, List.flatMap_cons, List.flatMap_nil, List.append_nil,
    List.forall_mem_append, says_field, hRow, PortRow.columns]
  constructor
  · rintro ⟨hAt, hKey, hKind, hIdentifier, hDimension, hNullable⟩
    constructor
    · intro n hn
      simpa [number, hn] using hAt
    · intro key hEq
      simpa [hEq] using hKey
    · intro kind hEq
      simpa [hEq] using hKind
    · intro identifier hEq
      simpa [hEq] using hIdentifier
    · intro dimension hEq
      simpa [hEq] using hDimension
    · intro nullable hEq
      simpa [hEq] using hNullable
  · intro h
    refine ⟨?_, ?_, ?_, ?_, ?_, ?_⟩
    · intro v hv
      obtain ⟨n, hn, rfl⟩ := Option.map_eq_some_iff.1 hv
      rw [number, h.at_ n hn]
    · intro v hv
      obtain ⟨key, hEq, rfl⟩ := Option.map_eq_some_iff.1 hv
      rw [h.key key hEq]
    · intro v hv
      obtain ⟨kind, hEq, rfl⟩ := Option.map_eq_some_iff.1 hv
      rw [h.kind kind hEq]
    · intro v hv
      obtain ⟨identifier, hEq, rfl⟩ := Option.map_eq_some_iff.1 hv
      rw [h.identifier identifier hEq]
      rfl
    · intro v hv
      obtain ⟨dimension, hEq, rfl⟩ := Option.map_eq_some_iff.1 hv
      rw [h.dimension dimension hEq]
      rfl
    · intro v hv
      obtain ⟨nullable, hEq, rfl⟩ := Option.map_eq_some_iff.1 hv
      rw [h.nullable nullable hEq]

theorem says_accepted (hRow : env alias_ = row.columns owner_column) {object : String} :
    Says tables env (.or (is_null (.column alias_ .compiled_jsonpath))
        (path_match jsonb (.place (.text object)) (.column alias_ .compiled_jsonpath)
          (quoted empty_object "::jsonb"))) ↔
      Accepted jsonb object row.compiled_jsonpath := by
  rw [Says, Sql.meaning_or]
  refine (or_congr says_is_null says_path_match).trans ?_
  simp only [Term.value, hRow, PortRow.columns, quoted, Accepted]
  cases row.compiled_jsonpath with
  | none => simp
  | some path => simp

/-- The descriptor clauses say that the row takes the object. -/
theorem says_descriptors (hRow : env alias_ = row.columns owner_column) {fits : Bool}
    (hFits : fits = true → owner_column = .action_id ∧ Apart alias_) :
    (∀ c ∈ (descriptor_clauses spell jsonb itself settings now fields fits alias_ id_path).1,
        Says store.tables env c) ↔
      fields.Takes spell jsonb settings store
        (if fits then some (now ("cutoff_" ++ id_path)) else none) row := by
  rw [descriptor_clauses, MatchFields.Takes]
  by_cases hNone : fields.descriptors = []
  · have hEmpty : fields.descriptors.isEmpty = true := by rw [hNone]; rfl
    rw [if_pos hEmpty]
    constructor
    · intro _ hSome
      exact absurd hNone hSome
    · intro _ c hc
      cases hc
  · have hEmpty : ¬ fields.descriptors.isEmpty = true := by simpa using hNone
    rw [if_neg hEmpty]
    cases fits with
    | false =>
        simp only [Bool.false_eq_true, if_false, List.forall_mem_singleton]
        rw [says_accepted hRow]
        constructor
        · intro h _
          refine ⟨h, ?_⟩
          intro t ht
          cases ht
        · intro h
          exact (h hNone).1
    | true =>
        obtain ⟨rfl, hApart⟩ := hFits rfl
        simp only [if_true, List.forall_mem_cons, List.not_mem_nil, IsEmpty.forall_iff,
          implies_true, and_true]
        rw [says_accepted hRow, says_fits hApart hRow]
        constructor
        · rintro ⟨hNot, hAccepted⟩ _
          refine ⟨hAccepted, ?_⟩
          intro t ht
          cases ht
          exact hNot
        · intro h
          exact ⟨(h hNone).2 _ rfl, (h hNone).1⟩

variable {table : Table} {action_alias : String} {parent_alias : Option String}
  {children : List PortMatchInputModel} {clause : Clause Value × Assignments}

/-- What the builder gives for a match it does not refuse. -/
theorem build_match_ok (h : build_match_exists spell jsonb itself settings now table owner_column
    action_alias parent_alias id_path (.mk fields children) = .ok clause) :
    ∃ nested, build_children spell jsonb itself settings now table owner_column action_alias
        ("p_" ++ id_path) id_path 0 children = .ok nested ∧
      clause.1 = .some_row (.table table (some ("p_" ++ id_path)))
        (conjunction (correlation owner_column action_alias ("p_" ++ id_path) parent_alias ++
          ((structural_clauses itself fields ("p_" ++ id_path) id_path).1 ++
            ((descriptor_clauses spell jsonb itself settings now fields
              (asks_fits table owner_column parent_alias) ("p_" ++ id_path) id_path).1 ++
                nested.1)))) := by
  rw [build_match_exists] at h
  by_cases hOnly : (!fields.descriptors.isEmpty && parent_alias.isNone &&
      !fields.has_structural_narrowing) = true
  · simp only [hOnly, if_true] at h
    cases h
  · simp only [hOnly] at h
    obtain ⟨nested, hNested, hEq⟩ := Ports.bind_ok h
    cases hEq
    exact ⟨nested, hNested, rfl⟩

/-- An alias beginning with `p_` is none of the aliases of the fits. -/
theorem apart_port (id_path : String) : Apart ("p_" ++ id_path) := by
  have hTwo : ∀ s : String, s.length = 1 → "p_" ++ id_path ≠ s := by
    intro s hs hEq
    have hLength := congrArg String.length hEq
    rw [String.length_append, hs] at hLength
    have hPrefix : "p_".length = 2 := rfl
    omega
  exact ⟨hTwo "i" rfl, hTwo "g" rfl, hTwo "f" rfl⟩

/-- One `EXISTS`: a row that is correlated, has the fields, takes the object and fits below. -/
theorem says_match (store : Store) (env : Env Value Column) (hTable : PortsOf table owner_column)
    (h : build_match_exists spell jsonb itself settings now table owner_column action_alias
      parent_alias id_path (.mk fields children) = .ok clause) :
    ∃ nested, build_children spell jsonb itself settings now table owner_column action_alias
        ("p_" ++ id_path) id_path 0 children = .ok nested ∧
      (Says store.tables env clause.1 ↔ ∃ row ∈ store.port_rows table,
        (∀ c ∈ correlation owner_column action_alias ("p_" ++ id_path) parent_alias,
          Says store.tables (env.set ("p_" ++ id_path) (row.columns owner_column)) c) ∧
        fields.Fits row ∧
        fields.Takes spell jsonb settings store (if asks_fits table owner_column parent_alias
          then some (now ("cutoff_" ++ id_path)) else none) row ∧
        ∀ c ∈ nested.1,
          Says store.tables (env.set ("p_" ++ id_path) (row.columns owner_column)) c) := by
  obtain ⟨nested, hNested, hClause⟩ := build_match_ok h
  refine ⟨nested, hNested, ?_⟩
  have hFits : asks_fits table owner_column parent_alias = true →
      owner_column = .action_id ∧ Apart ("p_" ++ id_path) := by
    intro hAsks
    rw [asks_fits, Bool.and_eq_true, Bool.and_eq_true] at hAsks
    exact ⟨of_decide_eq_true hAsks.1.2, apart_port id_path⟩
  rw [hClause, Says, Sql.meaning_some_row]
  constructor
  · rintro ⟨inner, hInner, hSays⟩
    obtain ⟨columns, hColumns, rfl⟩ := Sql.mem_table.1 hInner
    rw [hTable.tables] at hColumns
    obtain ⟨row, hRow, rfl⟩ := List.mem_map.1 hColumns
    have hAt : (env.set ("p_" ++ id_path) (row.columns owner_column)) ("p_" ++ id_path) =
        row.columns owner_column := Env.set_self ..
    obtain ⟨hCorrelated, hStructural, hDescriptors, hBelow⟩ := by
      simpa only [List.forall_mem_append] using says_conjunction.1 hSays
    exact ⟨row, hRow, hCorrelated, (says_structural hAt).1 hStructural,
      (says_descriptors hAt hFits).1 hDescriptors, hBelow⟩
  · rintro ⟨row, hRow, hCorrelated, hStructural, hDescriptors, hBelow⟩
    have hAt : (env.set ("p_" ++ id_path) (row.columns owner_column)) ("p_" ++ id_path) =
        row.columns owner_column := Env.set_self ..
    refine ⟨env.set ("p_" ++ id_path) (row.columns owner_column), Sql.mem_table.2
      ⟨row.columns owner_column, ?_, rfl⟩, says_conjunction.2 ?_⟩
    · rw [hTable.tables]
      exact List.mem_map_of_mem hRow
    · simp only [List.forall_mem_append]
      exact ⟨hCorrelated, (says_structural hAt).2 hStructural,
        (says_descriptors hAt hFits).2 hDescriptors, hBelow⟩

/-- A path is not the path of a child. -/
theorem child_alias_ne (id_path : String) (index : Nat) :
    "p_" ++ id_path ≠ "p_" ++ (id_path ++ "_" ++ toString index) := by
  intro hEq
  have hLength := congrArg String.length hEq
  simp only [String.length_append] at hLength
  have hMark : "_".length = 1 := rfl
  omega

mutual

/-- A match below the root is met by a row under its parent's. -/
theorem says_below (hTable : PortsOf table owner_column) :
    ∀ (m : PortMatchInputModel) {id_path above : String} {env : Env Value Column}
      {parent : PortRow} {clause : Clause Value × Assignments},
      build_match_exists spell jsonb itself settings now table owner_column action_alias
          (some above) id_path m = .ok clause →
      env above = parent.columns owner_column → above ≠ "p_" ++ id_path →
      (Says store.tables env clause.1 ↔ ∃ row ∈ store.port_rows table,
        row.parent_id = some parent.id ∧
          RowFits spell jsonb settings store (store.port_rows table) row m)
  | .mk fields children, id_path, above, env, parent, clause, h, hAbove, hNe => by
      obtain ⟨nested, hNested, hSays⟩ := says_match store env hTable h
      rw [hSays]
      refine exists_congr fun row => and_congr_right fun _ => ?_
      have hCorrelated : (∀ c ∈ correlation owner_column action_alias ("p_" ++ id_path) (some above),
          Says store.tables (env.set ("p_" ++ id_path) (row.columns owner_column)) c) ↔
            row.parent_id = some parent.id := by
        refine (List.forall_mem_singleton
          (p := Says store.tables (env.set ("p_" ++ id_path) (row.columns owner_column)))).trans ?_
        rw [says_equals_columns, Env.set_self, Env.set_ne _ _ hNe, hAbove]
        cases hParent : row.parent_id <;> simp [PortRow.columns, number, hParent, eq_comm]
      have hChildren : (∀ c ∈ nested.1,
          Says store.tables (env.set ("p_" ++ id_path) (row.columns owner_column)) c) ↔
            ChildrenFit spell jsonb settings store (store.port_rows table) row children :=
        says_children hTable children hNested (Env.set_self env _ (row.columns owner_column))
      rw [hCorrelated, hChildren]
      rfl

/-- The children of a match are met by rows under the row. -/
theorem says_children (hTable : PortsOf table owner_column) :
    ∀ (children : List PortMatchInputModel) {id_path : String} {index : Nat}
      {env : Env Value Column} {row : PortRow} {clauses : List (Clause Value) × Assignments},
      build_children spell jsonb itself settings now table owner_column action_alias
          ("p_" ++ id_path) id_path index children = .ok clauses →
      env ("p_" ++ id_path) = row.columns owner_column →
      ((∀ c ∈ clauses.1, Says store.tables env c) ↔
        ChildrenFit spell jsonb settings store (store.port_rows table) row children)
  | [], id_path, index, env, row, clauses, h, hRow => by
      cases h
      constructor
      · intro _
        trivial
      · intro _ c hc
        cases hc
  | child :: rest, id_path, index, env, row, clauses, h, hRow => by
      rw [build_children] at h
      obtain ⟨clause, hClause, hRest⟩ := Ports.bind_ok h
      obtain ⟨others, hOthers, hEq⟩ := Ports.bind_ok hRest
      cases hEq
      refine List.forall_mem_cons.trans (and_congr ?_ ?_)
      · exact says_below hTable child hClause hRow (child_alias_ne id_path index)
      · exact says_children hTable rest hOthers hRow

end

/-! ## What a demand says -/

-- The row that owns the ports.
variable {owner_id : Nat} {kind : DemandKind}

/-- A root row fits a match. -/
def RootFits (spell : Dyadic → Formulas.Spelling) (jsonb : Jsonb) (settings : Settings)
    (store : Store) (rows : List PortRow) (then_ : Option Int) (row : PortRow) :
    PortMatchInputModel → Prop
  | .mk fields children =>
      fields.Fits row ∧ fields.Takes spell jsonb settings store then_ row ∧
        ChildrenFit spell jsonb settings store rows row children

/-- The rows of an owner that have no parent. -/
def roots (rows : List PortRow) (owner_id : Nat) : List PortRow := under rows owner_id none

theorem says_root (hTable : PortsOf table owner_column) (hOwner : env action_alias .id = number owner_id)
    (hNe : action_alias ≠ "p_" ++ id_path) {m : PortMatchInputModel}
    (h : build_match_exists spell jsonb itself settings now table owner_column action_alias none
      id_path m = .ok clause) :
    Says store.tables env clause.1 ↔ ∃ row ∈ roots (store.port_rows table) owner_id,
      RootFits spell jsonb settings store (store.port_rows table)
        (if asks_fits table owner_column none then some (now ("cutoff_" ++ id_path)) else none)
        row m := by
  cases m with
  | mk fields children =>
      obtain ⟨nested, hNested, hSays⟩ := says_match store env hTable h
      rw [hSays]
      have hCorrelated : ∀ row : PortRow,
          (∀ c ∈ correlation owner_column action_alias ("p_" ++ id_path) none,
            Says store.tables (env.set ("p_" ++ id_path) (row.columns owner_column)) c) ↔
              row.owner = owner_id ∧ row.parent_id = none := by
        intro row
        refine List.forall_mem_cons.trans (and_congr ?_ ?_)
        · rw [says_equals_columns, Env.set_self, Env.set_ne _ _ hNe, hOwner, hTable.owner]
          exact number_inj
        · refine (List.forall_mem_singleton
            (p := Says store.tables (env.set ("p_" ++ id_path) (row.columns owner_column)))).trans ?_
          rw [says_is_null, Term.value, Env.set_self]
          cases hParent : row.parent_id <;> simp [PortRow.columns, number, hParent]
      have hChildren : ∀ row : PortRow, (∀ c ∈ nested.1,
          Says store.tables (env.set ("p_" ++ id_path) (row.columns owner_column)) c) ↔
            ChildrenFit spell jsonb settings store (store.port_rows table) row children :=
        fun row => says_children hTable children hNested (Env.set_self env _ _)
      constructor
      · rintro ⟨row, hRow, hCorr, hFields, hTakes, hBelow⟩
        refine ⟨row, List.mem_filter.2 ⟨hRow, decide_eq_true ((hCorrelated row).1 hCorr)⟩, hFields,
          hTakes, (hChildren row).1 hBelow⟩
      · rintro ⟨row, hRow, hFields, hTakes, hBelow⟩
        obtain ⟨hMem, hIs⟩ := List.mem_filter.1 hRow
        exact ⟨row, hMem, (hCorrelated row).2 (of_decide_eq_true hIs), hFields, hTakes,
          (hChildren row).2 hBelow⟩

/-- The number of root rows that are such. -/
theorem says_count (hTable : PortsOf table owner_column) (hOwner : env "a" .id = number owner_id)
    {extra_condition : Clause Value} (extra : PortRow → Bool) (hExtra : ∀ row : PortRow,
      Says store.tables (env.set "pc" (row.columns owner_column)) extra_condition ↔ extra row = true)
    {key : String} {n : Int} :
    Says store.tables env
        (root_count_subquery itself table owner_column "a" extra_condition key n).1 ↔
      ((roots (store.port_rows table) owner_id).countP extra : Int) = n := by
  have hRow : ∀ row : PortRow,
      Says store.tables (env.set "pc" (row.columns owner_column))
        (.and (equals (.column "pc" owner_column) (.column "a" .id))
          (.and (is_null (.column "pc" .parent_id)) extra_condition)) ↔
        extra row = true ∧ row.owner = owner_id ∧ row.parent_id = none := by
    intro row
    have hNull : Says store.tables (env.set "pc" (row.columns owner_column))
        (is_null (.column "pc" .parent_id)) ↔ row.parent_id = none := by
      rw [says_is_null, Term.value, Env.set_self]
      cases hParent : row.parent_id <;> simp [PortRow.columns, number, hParent]
    have hOwned : Says store.tables (env.set "pc" (row.columns owner_column))
        (equals (.column "pc" owner_column) (.column "a" .id)) ↔ row.owner = owner_id := by
      rw [says_equals_columns, Env.set_self, Env.set_ne _ _ (by decide), hOwner, hTable.owner]
      exact number_inj
    rw [Says, Sql.meaning_and, Sql.meaning_and]
    refine (and_congr hOwned (and_congr hNull (hExtra row))).trans ?_
    constructor
    · rintro ⟨hIs, hRoot, hSuch⟩
      exact ⟨hSuch, hIs, hRoot⟩
    · rintro ⟨hSuch, hIs, hRoot⟩
      exact ⟨hIs, hRoot, hSuch⟩
  have hCount : ((Source.table table (some "pc") : Source Value Table Column Value).rows Table.name
      store.tables env).countP (fun inner =>
        (Cond.and (equals (.column "pc" owner_column) (.column "a" .id))
          (.and (is_null (.column "pc" .parent_id)) extra_condition)).meaning Table.name
            store.tables inner = some true) =
      (roots (store.port_rows table) owner_id).countP extra := by
    rw [Source.rows, hTable.tables, List.map_map, List.countP_map, roots, under, List.countP_filter]
    apply List.countP_congr
    intro row _
    have hSays := hRow row
    simp only [Function.comp_apply, Option.getD_some, decide_eq_true_eq, Bool.and_eq_true]
    exact hSays
  show equal (some (.int (_ : Nat))) (some (.int n)) = some true ↔ _
  rw [hCount]
  simp [equal]

theorem says_root_matches (hTable : PortsOf table owner_column)
    (hOwner : env "a" .id = number owner_id) {path : Nat → String} :
    ∀ {matches_ : List PortMatchInputModel} {index : Nat}
      {clauses : List (Clause Value) × Assignments},
      root_matches spell jsonb itself settings now table owner_column "a" path index matches_ =
          .ok clauses →
      ((∀ c ∈ clauses.1, Says store.tables env c) ↔
        ∀ m ∈ matches_.zipIdx index, ∃ row ∈ roots (store.port_rows table) owner_id,
          RootFits spell jsonb settings store (store.port_rows table)
            (if asks_fits table owner_column none then some (now ("cutoff_" ++ path m.2)) else none)
            row m.1) := by
  intro matches_
  induction matches_ with
  | nil =>
      intro index clauses h
      cases h
      simp
  | cons m rest ih =>
      intro index clauses h
      obtain ⟨clause, hClause, hRest⟩ := Ports.bind_ok h
      obtain ⟨others, hOthers, hEq⟩ := Ports.bind_ok hRest
      cases hEq
      have hNe : "a" ≠ "p_" ++ path index := by
        intro hEq
        have hLength := congrArg String.length hEq
        rw [String.length_append] at hLength
        have hOne : "a".length = 1 := rfl
        have hTwo : "p_".length = 2 := rfl
        omega
      rw [List.zipIdx_cons, List.forall_mem_cons, List.forall_mem_cons]
      exact and_congr (says_root hTable hOwner hNe hClause) (ih hOthers)

end Match

/-! ## What a statement selects -/

section Selects

variable {spell : Dyadic → Formulas.Spelling} {jsonb : Jsonb} {settings : Settings}
  {now : String → Int} {store : Store} {env : Env Value Column} {owner : PortOwner}
  {owner_id : Nat}

/-- When the root matches of a table are held against the fits of live implementations. -/
def fits_at (now : String → Int) (table : Table) (owner_column : Column) (path : String) :
    Option Int :=
  if asks_fits table owner_column none then some (now ("cutoff_" ++ path)) else none

/-- The path of a match of a demand. -/
def match_path (demand_index match_index : Nat) : String :=
  toString demand_index ++ "_" ++ toString match_index

/-- The port rows of an owner meet a demand; `length` is what its number of root ports is
taken to be. -/
structure RowsMeet (spell : Dyadic → Formulas.Spelling) (jsonb : Jsonb) (settings : Settings)
    (store : Store) (then_ : Nat → Option Int) (rows : List PortRow) (owner_id length : Nat)
    (demand : PortDemand) : Prop where
  matches_ : ∀ m ∈ demand.matches_.zipIdx, ∃ row ∈ roots rows owner_id,
    RootFits spell jsonb settings store rows (then_ m.2) row m.1
  length : ∀ n, demand.force_length = some n → (length : Int) = n
  non_nullable : ∀ n, demand.force_non_nullable_length = some n →
    ((roots rows owner_id).countP (fun row => !row.nullable) : Int) = n
  structures : ∀ n, demand.force_structure_length = some n →
    ((roots rows owner_id).countP (fun row => row.kind = "STRUCTURE") : Int) = n

theorem says_forced {length : Option Int} {clause : Int → Clause Value × Assignments}
    {is : Int → Prop} (h : ∀ n, Says store.tables env (clause n).1 ↔ is n) :
    (∀ c ∈ (forced length clause).1, Says store.tables env c) ↔ ∀ n, length = some n → is n := by
  cases length with
  | none =>
      constructor
      · intro _ n hn
        cases hn
      · intro _ c hc
        cases hc
  | some n =>
      refine (List.forall_mem_singleton (p := Says store.tables env)).trans ((h n).trans ?_)
      constructor
      · intro hIs m hm
        cases hm
        exact hIs
      · intro hAll
        exact hAll n rfl

/-- Port tables of the owner, by the column that names it. -/
def Owns (owner : PortOwner) : Prop :=
  ∀ kind table, owner.port_tables kind = some table → PortsOf table owner.column

theorem owns_action : Owns ACTION_PORTS := by
  intro kind table h
  cases kind <;> cases h
  · exact .args
  · exact .returns

theorem owns_blok : Owns BLOK_PORTS := by
  intro kind table h
  cases kind <;> cases h
  exact .blok_args

/-- The number of root ports that a demand's length is compared with. -/
def SaysLength (store : Store) (env : Env Value Column) (owner : PortOwner) (kind : DemandKind)
    (table : Table) (length : Nat) : Prop :=
  ∀ key n, Says store.tables env (length_clause itself table "a" owner kind key n).1 ↔
    (length : Int) = n

theorem says_demand (store : Store) (hOwns : Owns owner) (hOwner : env "a" .id = number owner_id)
    {demand_index : Nat} {demand : PortDemand} {clauses : List (Clause Value) × Assignments}
    (h : demand_clauses spell jsonb itself settings now owner demand_index demand = .ok clauses) :
    ∃ table, owner.port_tables demand.kind = some table ∧
      ∀ length, SaysLength store env owner demand.kind table length →
        ((∀ c ∈ clauses.1, Says store.tables env c) ↔
          RowsMeet spell jsonb settings store
            (fun i => fits_at now table owner.column (match_path demand_index i))
            (store.port_rows table) owner_id length demand) := by
  rw [demand_clauses] at h
  cases hTable : owner.port_tables demand.kind with
  | none =>
      rw [hTable] at h
      cases h
  | some table =>
      rw [hTable] at h
      obtain ⟨matched, hMatched, hEq⟩ := Ports.bind_ok h
      cases hEq
      have hPorts := hOwns demand.kind table hTable
      refine ⟨table, rfl, ?_⟩
      intro length hLength
      simp only [together, List.flatMap_cons, List.flatMap_nil, List.append_nil,
        List.forall_mem_append]
      rw [says_root_matches hPorts hOwner hMatched, says_forced (hLength _),
        says_forced fun n => says_count hPorts hOwner (fun row => !row.nullable) ?_,
        says_forced fun n => says_count hPorts hOwner (fun row => row.kind = "STRUCTURE") ?_]
      · constructor
        · rintro ⟨hMatches, hForced, hNon, hStructures⟩
          exact ⟨hMatches, hForced, hNon, hStructures⟩
        · intro hMeet
          exact ⟨hMeet.matches_, hMeet.length, hMeet.non_nullable, hMeet.structures⟩
      · intro row
        refine says_equals.trans ?_
        simp [Term.value, quoted, Env.set_self, PortRow.columns, eq_comm]
      · intro row
        refine says_equals.trans ?_
        simp [Term.value, false_, Env.set_self, PortRow.columns]

/-- An owner meets a demand, by its number. -/
def OwnerMeets (spell : Dyadic → Formulas.Spelling) (jsonb : Jsonb) (settings : Settings)
    (now : String → Int) (store : Store) (owner : PortOwner) (owner_id : Nat)
    (length : DemandKind → Nat) (demand : PortDemand × Nat) : Prop :=
  ∃ table, owner.port_tables demand.1.kind = some table ∧
    RowsMeet spell jsonb settings store
      (fun i => fits_at now table owner.column (match_path demand.2 i)) (store.port_rows table)
      owner_id (length demand.1.kind) demand.1

theorem says_demands (hOwns : Owns owner) (hOwner : env "a" .id = number owner_id)
    {length : DemandKind → Nat} (hLength : ∀ kind table, owner.port_tables kind = some table →
      SaysLength store env owner kind table (length kind)) :
    ∀ {demands : List PortDemand} {demand_index : Nat} {clauses : List (Clause Value) × Assignments},
      demands_clauses spell jsonb itself settings now owner demand_index demands = .ok clauses →
      ((∀ c ∈ clauses.1, Says store.tables env c) ↔
        ∀ demand ∈ demands.zipIdx demand_index,
          OwnerMeets spell jsonb settings now store owner owner_id length demand) := by
  intro demands
  induction demands with
  | nil =>
      intro demand_index clauses h
      cases h
      simp
  | cons demand rest ih =>
      intro demand_index clauses h
      obtain ⟨first, hFirst, hRest⟩ := Ports.bind_ok h
      obtain ⟨others, hOthers, hEq⟩ := Ports.bind_ok hRest
      cases hEq
      obtain ⟨table, hTable, hSays⟩ := says_demand store hOwns hOwner hFirst
      rw [together_pair, List.zipIdx_cons, List.forall_mem_cons, List.forall_mem_append,
        ih hOthers, hSays _ (hLength demand.kind table hTable)]
      refine and_congr_left fun _ => ?_
      constructor
      · intro hMeet
        exact ⟨table, hTable, hMeet⟩
      · rintro ⟨table', hTable', hMeet⟩
        cases hTable.symm.trans hTable'
        exact hMeet

/-- No rows outside a statement. -/
def nothing : Env Value Column := fun _ _ => none

/-- The ids a bound statement selects. -/
def Select.ids (store : Store) (s : Select Value Table Column Value) : List (Option Value) :=
  s.values Table.name store.tables nothing

theorem mem_ids {table : Table} {clauses : List (Clause Value)} {v : Option Value} :
    v ∈ Select.ids store (select_ids table clauses) ↔
      ∃ columns ∈ store.tables table, columns .id = v ∧
        ∀ c ∈ clauses, Says store.tables (nothing.set "a" columns) c := by
  rw [Select.ids, Select.values, List.mem_map]
  constructor
  · rintro ⟨inner, hInner, hId⟩
    obtain ⟨hRow, hSays⟩ := List.mem_filter.1 hInner
    obtain ⟨columns, hColumns, rfl⟩ := Sql.mem_table.1 hRow
    refine ⟨columns, hColumns, ?_, says_conjunction.1 (of_decide_eq_true hSays)⟩
    rw [← hId, select_ids, Term.value]
    exact (congrFun (Env.set_self nothing "a" columns) _).symm
  · rintro ⟨columns, hColumns, rfl, hSays⟩
    refine ⟨nothing.set "a" columns, List.mem_filter.2 ⟨Sql.mem_table.2 ⟨columns, hColumns, rfl⟩,
      decide_eq_true (says_conjunction.2 hSays)⟩, ?_⟩
    rw [select_ids, Term.value]
    exact congrFun (Env.set_self nothing "a" columns) _

theorem says_organization {organization : Option Int} {columns : Column → Option Value} :
    (∀ c ∈ (organization_clause itself organization).1,
        Says store.tables (nothing.set "a" columns) c) ↔
      ∀ o, organization = some o → columns .organization_id = some (.int o) := by
  cases organization with
  | none =>
      constructor
      · intro _ o ho
        cases ho
      · intro _ c hc
        cases hc
  | some organization =>
      refine (List.forall_mem_singleton
        (p := Says store.tables (nothing.set "a" columns))).trans ?_
      rw [says_equals_value, Env.set_self]
      constructor
      · intro h o ho
        cases ho
        exact h
      · intro h
        exact h organization rfl

/-- The owners a statement selects: of the organization, and meeting every demand. -/
theorem mem_port_demand {demands : List PortDemand} {organization : Option Int}
    {s : Select Value Table Column Value} {assignments : Assignments}
    (h : port_demand_sql spell jsonb itself settings now demands organization owner =
      .ok (s, assignments)) {v : Option Value} :
    v ∈ Select.ids store s ↔ ∃ columns ∈ store.tables owner.table, columns .id = v ∧
      (∀ o, organization = some o → columns .organization_id = some (.int o)) ∧
        ∃ clauses, demands_clauses spell jsonb itself settings now owner 0 demands = .ok clauses ∧
          ∀ c ∈ clauses.1, Says store.tables (nothing.set "a" columns) c := by
  obtain ⟨clauses, hClauses, hRest⟩ := Ports.bind_ok h
  rw [together_pair] at hRest
  dsimp only at hRest
  split at hRest
  case isTrue => cases hRest
  case isFalse =>
      cases hRest
      rw [mem_ids]
      refine exists_congr fun columns => and_congr_right fun _ => and_congr_right fun _ => ?_
      rw [List.forall_mem_append, says_organization]
      refine and_congr_right fun _ => ?_
      constructor
      · intro hSays
        exact ⟨clauses, hClauses, hSays⟩
      · rintro ⟨clauses', hClauses', hSays⟩
        cases hClauses.symm.trans hClauses'
        exact hSays

end Selects

end Rekuest.Demands
