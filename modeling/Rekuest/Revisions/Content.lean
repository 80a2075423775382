import Mathlib.Data.List.Basic

/-!
# What a revision holds

The content of a custom blok: its tree, what it declares beside it, and the agents it
depends on.  It is stored as JSON, by the dumps of its models, and hashed part by part,
the parts that are empty left out.
-/

namespace Rekuest.Revisions

/-- A model and its JSON: how it is dumped, and how it is validated, which may refuse. -/
structure Codec (J α : Type) where
  dump : α → J
  load : J → Option α

namespace Codec

variable {J α : Type} (codec : Codec J α) (jsonb : J → J)

/-- What is dumped and stored is read back. -/
def Held (a : α) : Prop := codec.load (jsonb (codec.dump a)) = some a

variable {codec jsonb}

theorem load_held {l : List α} (h : ∀ a ∈ l, codec.Held jsonb a) :
    ((l.map codec.dump).map jsonb).mapM codec.load = some l := by
  induction l with
  | nil => rfl
  | cons a rest ih =>
      have hHead : codec.load (jsonb (codec.dump a)) = some a := h a List.mem_cons_self
      have hRest := ih fun b hMem => h b (List.mem_cons_of_mem a hMem)
      show ((jsonb (codec.dump a)) :: (rest.map codec.dump).map jsonb).mapM codec.load = _
      rw [List.mapM_cons, hHead, hRest]
      rfl

theorem dump_inj {a b : α} (ha : codec.Held jsonb a) (hb : codec.Held jsonb b)
    (h : codec.dump a = codec.dump b) : a = b := by
  have hSame : some a = some b := by
    rw [← ha, h]
    exact hb
  exact Option.some.inj hSame

theorem dumps_inj {l l' : List α} (hl : ∀ a ∈ l, codec.Held jsonb a)
    (hl' : ∀ a ∈ l', codec.Held jsonb a) (h : l.map codec.dump = l'.map codec.dump) : l = l' := by
  have hSame : some l = some l' := by
    rw [← load_held hl, h]
    exact load_held hl'
  exact Option.some.inj hSame

end Codec

/-- The models that a content is made of, by their JSON. -/
structure Models (J : Type) where
  Action : Type
  State : Type
  Arg : Type
  Local : Type
  Demo : Type
  Query : Type
  Subscription : Type
  action : Codec J Action
  state : Codec J State
  arg : Codec J Arg
  local_ : Codec J Local
  demo : Codec J Demo
  query : Codec J Query
  subscription : Codec J Subscription

/-- The input that declares a dependency. -/
structure AgentDependency {J : Type} (m : Models J) where
  key : String
  app : Option String := none
  version : Option String := none
  name : Option String := none
  description : Option String := none
  optional : Bool := false
  action_dependencies : Option (List m.Action) := none
  state_dependencies : Option (List m.State) := none
  auto_resolvable : Bool := false
  mutually_exclusive_keys : Option (List String) := none
  min_viable_instances : Option Int := none
  max_viable_instances : Option Int := none
  prefered_instances : Option Int := none

/-- Everything that decides what a blok draws and which agents it needs; the module by its id. -/
structure BlokContent {J : Type} (m : Models J) where
  components : List J
  context : String
  module : Nat
  dependencies : List (AgentDependency m)
  args : List m.Arg := []
  catalogs : List String := []
  locals : List m.Local := []
  demo : Option m.Demo := none
  queries : List m.Query := []
  subscriptions : List m.Subscription := []
  vocab : Nat := 2
  /-- The locals as the tree resolves them: derived, and never hashed. -/
  resolved_locals : Option (List m.Local) := none

/-- The parts that are hashed, those that are empty left out. -/
structure Parts (J : Type) where
  components : List J
  context : String
  vocab : Nat
  catalogs : Option (List String)
  locals : Option (List J)
  demo : Option J
  queries : Option (List J)
  subscriptions : Option (List J)
  module : Nat
  dependencies : List J
  args : Option (List J)

/-- The order that the database sorts keys in. -/
structure Collation where
  le : String → String → Bool
  total : ∀ a b, le a b || le b a
  trans : ∀ a b c, le a b → le b c → le a c
  antisymm : ∀ a b, le a b → le b a → a = b

/-- What stands outside a content: how its column gives JSON back, the empty object, the
digest of canonical JSON, the dump of a dependency, and the order of keys. -/
structure Env {J : Type} (m : Models J) where
  jsonb : J → J
  empty : J
  jsonb_empty : ∀ j, jsonb j = empty ↔ j = empty
  digest : Parts J → String
  dependency : Codec J (AgentDependency m)
  collation : Collation

/-- The module as it is now: how a tree resolves its locals against it, and what is found in
it, an error that refuses it otherwise. -/
structure View {J : Type} (m : Models J) where
  locals_resolved : BlokContent m → List m.Local
  diagnostics : BlokContent m → Except String J

section

variable {J : Type} [DecidableEq J] {m : Models J} (env : Env m) (view : View m)

/-- A list, unless it is empty. -/
def when_set {α : Type} : List α → Option (List α)
  | [] => none
  | a :: rest => some (a :: rest)

omit [DecidableEq J] in
theorem when_set_inj {α : Type} {l l' : List α} (h : when_set l = when_set l') : l = l' := by
  cases l with
  | nil =>
      cases l' with
      | nil => rfl
      | cons a rest => cases h
  | cons a rest =>
      cases l' with
      | nil => cases h
      | cons b rest' => exact Option.some.inj h

namespace BlokContent

variable (c : BlokContent m)

def stored_dependencies : List J := c.dependencies.map env.dependency.dump

def stored_args : List J := c.args.map m.arg.dump

def stored_locals : List J := c.locals.map m.local_.dump

def stored_demo : J :=
  match c.demo with
  | some demo => m.demo.dump demo
  | none => env.empty

def stored_queries : List J := c.queries.map m.query.dump

def stored_subscriptions : List J := c.subscriptions.map m.subscription.dump

/-- What is hashed. -/
def parts : Parts J where
  components := c.components
  context := c.context
  vocab := c.vocab
  catalogs := when_set c.catalogs
  locals := when_set c.stored_locals
  demo := if c.stored_demo env = env.empty then none else some (c.stored_demo env)
  queries := when_set c.stored_queries
  subscriptions := when_set c.stored_subscriptions
  module := c.module
  dependencies := c.stored_dependencies env
  args := when_set c.stored_args

def hash : String := env.digest (c.parts env)

/-- The locals as resolved before, or found now. -/
def locals_found : List m.Local := c.resolved_locals.getD (view.locals_resolved c)

/-- The content with its locals resolved. -/
def resolved : BlokContent m := { c with resolved_locals := some (c.locals_found view) }

def stored_resolved_locals : List J := (c.locals_found view).map m.local_.dump

/-- The content as it is written, without what is derived. -/
def written : BlokContent m := { c with resolved_locals := none }

end BlokContent

/-! ## Contents that rows hold -/

/-- A dependency that its row has columns for, and whose demands are read back. -/
structure RowHolds (d : AgentDependency m) : Prop where
  name : d.name = none
  mutually_exclusive_keys : d.mutually_exclusive_keys = none
  prefered_instances : d.prefered_instances = none
  action_dependencies : ∃ actions, d.action_dependencies = some actions ∧
    ∀ a ∈ actions, m.action.Held env.jsonb a
  state_dependencies : ∃ states, d.state_dependencies = some states ∧
    ∀ a ∈ states, m.state.Held env.jsonb a

/-- A content that the row and the dependency rows of a blok can hold: its dependencies are in
the order of their keys, no two of one key, with nothing a row has no column for, its demo
states something, and every part is read back from its JSON as it is. -/
structure Faithful (c : BlokContent m) : Prop where
  sorted : (c.dependencies.map (·.key)).Pairwise fun a b => env.collation.le a b = true ∧ a ≠ b
  rows : ∀ d ∈ c.dependencies, RowHolds env d
  vocab : c.vocab = 2
  components : ∀ j ∈ c.components, env.jsonb j = j
  dependencies : ∀ d ∈ c.dependencies, env.dependency.Held env.jsonb d
  args : ∀ a ∈ c.args, m.arg.Held env.jsonb a
  locals : ∀ a ∈ c.locals, m.local_.Held env.jsonb a
  demo : ∀ demo, c.demo = some demo →
    m.demo.dump demo ≠ env.empty ∧ m.demo.Held env.jsonb demo
  queries : ∀ a ∈ c.queries, m.query.Held env.jsonb a
  subscriptions : ∀ a ∈ c.subscriptions, m.subscription.Held env.jsonb a

variable {env}

/-- Contents whose parts are the same are the same as written. -/
theorem written_of_parts {c c' : BlokContent m} (hFaithful : Faithful env c)
    (hFaithful' : Faithful env c') (h : c.parts env = c'.parts env) : c.written = c'.written := by
  have hLocals : c.stored_locals = c'.stored_locals := when_set_inj (congrArg Parts.locals h)
  have hQueries : c.stored_queries = c'.stored_queries := when_set_inj (congrArg Parts.queries h)
  have hSubscriptions : c.stored_subscriptions = c'.stored_subscriptions :=
    when_set_inj (congrArg Parts.subscriptions h)
  have hArgs : c.stored_args = c'.stored_args := when_set_inj (congrArg Parts.args h)
  have hDependencies : c.stored_dependencies env = c'.stored_dependencies env :=
    congrArg Parts.dependencies h
  have hDemo : c.demo = c'.demo := by
    have hPart : (if c.stored_demo env = env.empty then none else some (c.stored_demo env)) =
        (if c'.stored_demo env = env.empty then none else some (c'.stored_demo env)) :=
      congrArg Parts.demo h
    unfold BlokContent.stored_demo at hPart
    cases hIs : c.demo with
    | none =>
        cases hIs' : c'.demo with
        | none => rfl
        | some demo =>
            rw [hIs, hIs'] at hPart
            dsimp only at hPart
            rw [if_pos rfl, if_neg (hFaithful'.demo demo hIs').1] at hPart
            cases hPart
    | some demo =>
        have hHeld := hFaithful.demo demo hIs
        cases hIs' : c'.demo with
        | none =>
            rw [hIs, hIs'] at hPart
            dsimp only at hPart
            rw [if_pos rfl, if_neg hHeld.1] at hPart
            cases hPart
        | some demo' =>
            have hHeld' := hFaithful'.demo demo' hIs'
            rw [hIs, hIs'] at hPart
            dsimp only at hPart
            rw [if_neg hHeld.1, if_neg hHeld'.1] at hPart
            rw [Codec.dump_inj hHeld.2 hHeld'.2 (Option.some.inj hPart)]
  unfold BlokContent.written
  rw [BlokContent.mk.injEq]
  refine ⟨congrArg Parts.components h, congrArg Parts.context h, congrArg Parts.module h, ?_, ?_,
    when_set_inj (congrArg Parts.catalogs h), ?_, hDemo, ?_, ?_, congrArg Parts.vocab h, rfl⟩
  · exact Codec.dumps_inj hFaithful.dependencies hFaithful'.dependencies hDependencies
  · exact Codec.dumps_inj hFaithful.args hFaithful'.args hArgs
  · exact Codec.dumps_inj hFaithful.locals hFaithful'.locals hLocals
  · exact Codec.dumps_inj hFaithful.queries hFaithful'.queries hQueries
  · exact Codec.dumps_inj hFaithful.subscriptions hFaithful'.subscriptions hSubscriptions

omit [DecidableEq J] in
/-- What is derived does not make a content one that rows hold. -/
theorem Faithful.of_written {c c' : BlokContent m} (hFaithful : Faithful env c)
    (h : c.written = c'.written) : Faithful env c' := by
  unfold BlokContent.written at h
  rw [BlokContent.mk.injEq] at h
  obtain ⟨hComponents, -, -, hDependencies, hArgs, -, hLocals, hDemo, hQueries, hSubscriptions,
    hVocab, -⟩ := h
  constructor
  · exact hDependencies ▸ hFaithful.sorted
  · exact hDependencies ▸ hFaithful.rows
  · exact hVocab ▸ hFaithful.vocab
  · exact hComponents ▸ hFaithful.components
  · exact hDependencies ▸ hFaithful.dependencies
  · exact hArgs ▸ hFaithful.args
  · exact hLocals ▸ hFaithful.locals
  · exact hDemo ▸ hFaithful.demo
  · exact hQueries ▸ hFaithful.queries
  · exact hSubscriptions ▸ hFaithful.subscriptions

theorem parts_of_written {c c' : BlokContent m} (h : c.written = c'.written) :
    c.parts env = c'.parts env := by
  have hParts : c.written.parts env = c'.written.parts env := by rw [h]
  exact hParts

end

end Rekuest.Revisions
