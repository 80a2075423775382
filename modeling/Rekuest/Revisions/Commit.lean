import Mathlib.Data.List.Sort
import Rekuest.Revisions.Content

/-!
# Committing a revision

Every write to a custom blok commits a revision and copies it onto the row of the blok and the
rows of its dependencies, which everything else reads.  A write that is guarded names the
revision it started from, and is refused when another one landed in between.
-/

namespace Rekuest.Revisions

/-- A dependency as its row holds it. -/
structure DependencyRow (J : Type) where
  key : String
  action_demands : List J := []
  state_demands : List J := []
  auto_resolvable : Bool := false
  app_filter : Option String := none
  version_filter : Option String := none
  optional : Bool := false
  description : Option String := none
  min_viable_instances : Option Int := none
  max_viable_instances : Option Int := none

/-- The columns that a blok and its revisions share. -/
structure Columns (J : Type) where
  components : List J
  context : String
  module : Nat
  args : List J
  vocab : Nat
  catalogs : List String
  locals : List J
  resolved_locals : List J
  demo : J
  queries : List J
  subscriptions : List J

/-- One state of a blok, never changed once written. -/
structure BlokRevision (J : Type) extends Columns J where
  pk : Nat
  number : Nat
  parent : Option Nat
  dependencies : List J
  content_hash : String

/-- The row of a blok; `app` of the agents that provide it, none for one a user made. -/
structure Blok (J : Type) extends Columns J where
  app : Option Nat
  diagnostics : J
  head : Option Nat

/-- A blok, its dependency rows and its revisions in the order they were written, and the last
id that the sequence of revisions gave out. -/
structure History (J : Type) where
  blok : Blok J
  dependencies : List (DependencyRow J)
  revisions : List (BlokRevision J)
  sequence : Nat

/-- Why a commit is refused. -/
inductive Refusal where
  | provided
  | stale (base head : Option Nat)
  | refused (why : String)
  deriving DecidableEq

section

variable {J : Type} [DecidableEq J] {m : Models J} (env : Env m) (view : View m)

/-! ## Rows -/

/-- The row that a declared dependency is written to. -/
def row_of (declared : AgentDependency m) : DependencyRow J where
  key := declared.key
  action_demands := ((declared.action_dependencies.getD []).map m.action.dump).map env.jsonb
  state_demands := ((declared.state_dependencies.getD []).map m.state.dump).map env.jsonb
  app_filter := declared.app
  version_filter := declared.version
  optional := declared.optional
  description := declared.description
  auto_resolvable := declared.auto_resolvable
  min_viable_instances := declared.min_viable_instances
  max_viable_instances := declared.max_viable_instances

/-- A dependency row as the input that declares it. -/
def dependency_input_of (row : DependencyRow J) : Option (AgentDependency m) := do
  let actions ← row.action_demands.mapM m.action.load
  let states ← row.state_demands.mapM m.state.load
  return {
    key := row.key
    app := row.app_filter
    version := row.version_filter
    description := row.description
    optional := row.optional
    action_dependencies := some actions
    state_dependencies := some states
    auto_resolvable := row.auto_resolvable
    min_viable_instances := row.min_viable_instances
    max_viable_instances := row.max_viable_instances }

/-- Writes the row of a key, which is created where there is none. -/
def update_or_create (rows : List (DependencyRow J)) (row : DependencyRow J) :
    List (DependencyRow J) :=
  if rows.any fun r => r.key = row.key then
    rows.map fun r => if r.key = row.key then row else r
  else rows ++ [row]

/-- Upserts the rows by their keys, and deletes every key that is not declared any more. -/
def sync_blok_dependencies (rows : List (DependencyRow J)) (dependencies : List (AgentDependency m)) :
    List (DependencyRow J) :=
  let stale := (rows.map (·.key)).filter fun key => !(dependencies.map (·.key)).contains key
  (dependencies.foldl (fun rows declared => update_or_create rows (row_of env declared)) rows).filter
    fun row => !stale.contains row.key

/-- The rows in the order of their keys. -/
def order_by_key (rows : List (DependencyRow J)) : List (DependencyRow J) :=
  rows.insertionSort fun a b => env.collation.le a.key b.key

/-! ## Reading a content -/

/-- The demo that a column holds, none where it is empty. -/
def demo_of (demo : J) : Option (Option m.Demo) :=
  if demo = env.empty then some none else (m.demo.load demo).map some

/-- What the columns hold, with the dependencies read elsewhere; none where a model refuses
what is stored. -/
def content_of (columns : Columns J) (dependencies : Option (List (AgentDependency m))) :
    Option (BlokContent m) := do
  let dependencies ← dependencies
  let args ← columns.args.mapM m.arg.load
  let locals ← columns.locals.mapM m.local_.load
  let demo ← demo_of env columns.demo
  let queries ← columns.queries.mapM m.query.load
  let subscriptions ← columns.subscriptions.mapM m.subscription.load
  return {
    components := columns.components
    context := columns.context
    module := columns.module
    dependencies := dependencies
    args := args
    catalogs := columns.catalogs
    locals := locals
    demo := demo
    queries := queries
    subscriptions := subscriptions }

/-- What a blok holds now, read off its row and its dependency rows. -/
def content_of_blok (history : History J) : Option (BlokContent m) :=
  content_of env history.blok.toColumns
    ((order_by_key env history.dependencies).mapM dependency_input_of)

def content_of_revision (revision : BlokRevision J) : Option (BlokContent m) :=
  content_of env revision.toColumns (revision.dependencies.mapM env.dependency.load)

/-! ## Writing one -/

/-- The columns that a content is written to. -/
def columns_of (content : BlokContent m) : Columns J where
  components := content.components.map env.jsonb
  context := content.context
  module := content.module
  args := content.stored_args.map env.jsonb
  vocab := content.vocab
  catalogs := content.catalogs
  locals := content.stored_locals.map env.jsonb
  resolved_locals := (content.stored_resolved_locals view).map env.jsonb
  demo := env.jsonb (content.stored_demo env)
  queries := content.stored_queries.map env.jsonb
  subscriptions := content.stored_subscriptions.map env.jsonb

/-- The revision that a content is committed as. -/
def revision_of (content : BlokContent m) (pk number : Nat) (parent : Option Nat) : BlokRevision J where
  toColumns := columns_of env view content
  pk := pk
  number := number
  parent := parent
  dependencies := (content.stored_dependencies env).map env.jsonb
  content_hash := content.hash env

/-- The number that the next revision gets. -/
def next_number (revisions : List (BlokRevision J)) : Nat :=
  (revisions.map (·.number)).max?.getD 0 + 1

/-- The revision that the row points at. -/
def head_of (history : History J) : Option (BlokRevision J) :=
  history.blok.head.bind fun pk => history.revisions.find? fun revision => revision.pk == pk

/-- Where the content is the head's already: only what depends on the module is written. -/
def refreshed (history : History J) (content : BlokContent m) (findings : J) : History J :=
  { history with
    blok := { history.blok with
      diagnostics := env.jsonb findings
      resolved_locals := (content.stored_resolved_locals view).map env.jsonb } }

/-- The history once a content is written as its next revision. -/
def appended (history : History J) (content : BlokContent m) (findings : J) : History J :=
  let revision := revision_of env view content (history.sequence + 1) (next_number history.revisions)
    history.blok.head
  { blok :=
      { history.blok with
        toColumns := revision.toColumns
        diagnostics := env.jsonb findings
        head := some revision.pk }
    dependencies := sync_blok_dependencies env history.dependencies content.dependencies
    revisions := history.revisions ++ [revision]
    sequence := history.sequence + 1 }

/-- Whether a content is what the head holds, by the hash. -/
def unchanged (history : History J) (content : BlokContent m) : Bool :=
  (head_of history).any fun head => head.content_hash == content.hash env

/-- Commits a content as the next revision of a custom blok. -/
def commit_revision (history : History J) (content : BlokContent m) (base : Option Nat)
    (guarded : Bool) : Except Refusal (History J) :=
  if history.blok.app.isSome then .error .provided
  else if guarded && base != history.blok.head then .error (.stale base history.blok.head)
  else
    let content := content.resolved view
    match view.diagnostics content with
    | .error why => .error (.refused why)
    | .ok findings =>
        if unchanged env history content then .ok (refreshed env view history content findings)
        else .ok (appended env view history content findings)

end

/-! ## Runs -/

section

variable {J : Type} [DecidableEq J] {m : Models J} (env : Env m)

/-- What happens to a blok: a commit, one at a time behind the lock of its row, with the module
as it is then; and a revision of another blok, which takes an id of the sequence. -/
inductive Op (m : Models J) where
  | commit (view : View m) (content : BlokContent m) (base : Option Nat) (guarded : Bool)
  | elsewhere

/-- What a commit that is refused leaves, its transaction rolled back, is what there was. -/
def step (history : History J) : Op m → History J
  | .commit view content base guarded =>
      match commit_revision env view history content base guarded with
      | .ok history' => history'
      | .error _ => history
  | .elsewhere => { history with sequence := history.sequence + 1 }

def run (history : History J) (ops : List (Op m)) : History J :=
  ops.foldl (step env) history

/-- The content that an operation commits. -/
def Op.content : Op m → Option (BlokContent m)
  | .commit _ content _ _ => some content
  | .elsewhere => none

/-- A custom blok that nothing was committed to yet: `unique_dependency_key_per_blok` holds of
its rows. -/
structure Bare (history : History J) : Prop where
  custom : history.blok.app = none
  head : history.blok.head = none
  revisions : history.revisions = []
  keys : (history.dependencies.map (·.key)).Nodup

end

end Rekuest.Revisions
