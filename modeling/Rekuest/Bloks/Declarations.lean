import Rekuest.Backend.Registry
import Rekuest.Ports.Definition

/-!
# The vocabulary of bloks

What the checker of a blok's tree is told: the functions of the language, the kinds of
bloks and what each may read, and the table of diagnostics, whose rows say whether a
finding refuses the blok or is only reported.
-/

namespace Rekuest.Bloks

open Rekuest.Ports

/-- A parameter of a function. -/
structure Param where
  key : String
  required : Bool := true

/-- A function of the language, or an effect. -/
structure Function where
  name : String
  params : List Param := []
  effect : Bool := false

namespace Function

/-- The parameters by name, in positional order. -/
def keys (f : Function) : List String := f.params.map (·.key)

/-- The parameters every call passes. -/
def required_keys (f : Function) : List String := (f.params.filter (·.required)).map (·.key)

end Function

/-- What a kind of blok may read, and where it is drawn. -/
structure Kind where
  name : String
  roots : List String
  locals : Bool
  contexts : List String

def Kind.roots_text (kind : Kind) : String := ", ".intercalate (kind.roots.mergeSort (· ≤ ·))

/-- The last value a map built from these entries has for a key. -/
def lookup {α : Type} (entries : List (String × α)) (key : String) : Option α :=
  (entries.reverse.find? (·.1 = key)).map (·.2)

/-- The vocabulary's tables. -/
structure Vocabulary where
  function_namespaces : List String
  functions : List (String × Function)
  kinds : List (String × Kind)
  assets_segment : String
  catalogs : List (String × Int)
  bind_kinds : List (String × List String)
  arg_kinds : List (String × List String)
  logo_paint_props : List String
  scene_paint_props : List String

namespace Vocabulary

def function (v : Vocabulary) (name : String) : Option Function := lookup v.functions name

def kind (v : Vocabulary) (name : String) : Option Kind := lookup v.kinds name

def catalog_version (v : Vocabulary) (name : String) : Option Int :=
  (v.catalogs.find? (·.1 = name)).map (·.2)

end Vocabulary

/-! ## Diagnostics -/

inductive Level
  | error
  | warning
  deriving DecidableEq

/-- The rows of the table that the checks of a tree fill in. -/
def diagnostics : List (String × Level × String) := [
  ("callback.nested", .error,
    "\x7bwhat\x7d runs only as a callback's one thing, not inside an expression."),
  ("callback.not_callback", .error,
    "\x7bkey\x7d of <\x7bcomponent\x7d> is not a callback prop, so it cannot hold " ++
      "\x7bwhat\x7d."),
  ("callback.unbound", .error,
    "\x7bkey\x7d of <\x7bcomponent\x7d> is a callback prop: it holds one task call or " ++
      "one effect (queries.<name>.refetch(), queries.<name>.fetch_more(...), ui.copy, " ++
      "task.answer)."),
  ("props.literal_type", .error,
    "<\x7bcomponent\x7d> \x7bkey\x7d=\x7bvalue!r\x7d is a string, but \x7bkey\x7d takes " ++
      "a \x7bkind\x7d; write \x7bhint\x7d."),
  ("catalog.asset", .warning,
    "\x7bkey\x7d of <\x7bcomponent\x7d> names an asset as <agent>.assets.<name>."),
  ("catalog.children", .warning, "<\x7bcomponent\x7d> takes no children."),
  ("catalog.props", .warning, "<\x7bcomponent\x7d> \x7bdetail\x7d"),
  ("catalog.placement", .warning, "<\x7bcomponent\x7d> \x7bdetail\x7d"),
  ("catalog.undeclared", .warning,
    "<\x7bcomponent\x7d> is from \x7bcatalog\x7d, which the blok does not declare in " ++
      "its catalogs."),
  ("catalog.unknown_component", .warning,
    "<\x7bcomponent\x7d> is in no catalog in force (\x7bcatalogs\x7d)."),
  ("catalog.shadow", .warning,
    "<\x7bcomponent\x7d> is defined by \x7bcatalog\x7d and by \x7bmodule\x7d; " ++
      "\x7bwinner\x7d's definition is used."),
  ("roots.not_in_kind", .error,
    "\x7bpath\x7d: a\x7bn\x7d \x7bkind\x7d blok has no \x7broot!r\x7d (it reads " ++
      "\x7broots\x7d)."),
  ("local.bind", .error,
    "bind holds a local's path (\x7b\x7bname\x7d\x7d or \x7b\x7bname.field\x7d\x7d), " ++
      "not \x7bwhat\x7d."),
  ("local.bind_kind", .error,
    "\x7bkey\x7d of <\x7bcomponent\x7d> writes a \x7bprop_kind\x7d, but \x7bpath\x7d is " ++
      "a \x7bkind\x7d local (a \x7bprop_kind\x7d control writes \x7bkinds\x7d)."),
  ("local.unknown", .error,
    "bind=\x7b\x7b\x7bpath\x7d\x7d\x7d writes \x7broot!r\x7d, which is no declared " ++
      "local."),
  ("local.arg_kind", .error,
    "\x7bcall\x7d: \x7bargument\x7d takes a \x7bport_kind\x7d, but \x7bpath\x7d is a " ++
      "\x7bkind\x7d local."),
  ("local.unused_persist", .warning, "local \x7bname!r\x7d persists, but no control binds it."),
  ("toast.task", .error,
    "<Toast task=\x7b\x7b...\x7d\x7d> watches the blok's own into records or task, not " ++
      "\x7bwhat\x7d."),
  ("deps.unknown", .error,
    "\x7bpath\x7d: \x7bkey!r\x7d is not a dependency of the blok (its dependencies: " ++
      "\x7bkeys\x7d). Fix: \x7bhint\x7d."),
  ("deps.unknown_action", .error,
    "\x7bpath\x7d: \x7bkey!r\x7d has no action \x7baction!r\x7d (its actions: " ++
      "\x7bactions\x7d)."),
  ("expr.unknown_callee", .error,
    "\x7bcallee\x7d(...) calls nothing: a function is <namespace>.<name>, a task " ++
      "self.<action> or deps.<key>.<action>, a read queries.<name>.refetch() or " ++
      "queries.<name>.fetch_more(...)."),
  ("expr.unknown_function", .warning,
    "\x7bfunction\x7d is not a function of the blok language or the catalogs in force."),
  ("expr.arguments", .error, "\x7bfunction\x7d: \x7bdetail\x7d."),
  ("query.effect_target", .error,
    "\x7bfunction\x7d names its query by a literal name " ++
      "(queries.<name>.\x7bverb\x7d()), not \x7bwhat\x7d."),
  ("query.unknown", .error,
    "\x7bpath\x7d reads queries.\x7bname\x7d, which the blok does not declare " ++
      "(declared: \x7bnames\x7d)."),
  ("query.fetch_more", .error,
    "\x7bpath\x7d: query \x7bname!r\x7d declares no more (the list field new pages " ++
      "append to), so it cannot fetch more."),
  ("foreach.position_key", .warning,
    "<foreach let=\x22\x7blet\x7d\x22> has no key, so its items are keyed by their " ++
      "position; they are not scalars, so key them by a stable field " ++
      "(key=\x7b\x7b\x7blet\x7d.id\x7d\x7d)."),
  ("path.unknown", .error, "\x7bpath\x7d: \x7bdetail\x7d"),
  ("context.kind", .error,
    "A\x7bn\x7d \x7bkind\x7d blok is drawn in \x7bcontexts\x7d, not \x7bcontext\x7d.")]

/-- A diagnostic, and where. -/
structure Finding where
  code : String
  level : Level
  message : String
  path : Option String

def Finding.is_error (f : Finding) : Bool := f.level = .error

section Fill

-- How a double prints.
variable (float_repr : Dyadic → String)

/-- A field of a message: a string as it is, unless its repr is asked for. -/
def field_text (fields : List (String × Value)) (written : List Char) : List Char :=
  let name := String.ofList (written.takeWhile (· ≠ '!'))
  let conversion := (written.dropWhile (· ≠ '!')).drop 1
  match fields.find? (·.1 = name) with
  | none => ['?']
  | some (_, .string s) => if conversion = ['r'] then (repr_str s).toList else s.toList
  | some (_, value) => (repr float_repr value).toList

/-- A template with its fields filled in; a name is being read, or none is. -/
def fill_from (fields : List (String × Value)) : Option (List Char) → List Char → List Char
  | none, '\x7b' :: '\x7b' :: rest => '\x7b' :: fill_from fields none rest
  | none, '\x7d' :: '\x7d' :: rest => '\x7d' :: fill_from fields none rest
  | none, '\x7b' :: rest => fill_from fields (some []) rest
  | none, c :: rest => c :: fill_from fields none rest
  | none, [] => []
  | some name, '\x7d' :: rest => field_text float_repr fields name ++ fill_from fields none rest
  | some name, c :: rest => fill_from fields (some (name ++ [c])) rest
  | some name, [] => field_text float_repr fields name

def fill (template : String) (fields : List (String × Value)) : String :=
  String.ofList (fill_from float_repr fields none template.toList)

/-- The diagnostic of a code; one the table lacks reads as an error. -/
def Finding.of (code : String) (path : Option String) (fields : List (String × Value)) : Finding :=
  match diagnostics.find? (·.1 = code) with
  | some (_, level, message) => { code, level, message := fill float_repr message fields, path }
  | none => { code, level := .error, message := code, path }

end Fill

example : fill (fun _ => "") "\x7bname!r\x7d is \x7b\x7bnot\x7d\x7d \x7bwhat\x7d"
    [("name", .string "x"), ("what", .int 3)] = "\x27x\x27 is \x7bnot\x7d 3" := by decide

end Rekuest.Bloks

/-!
## What a blok declares

Beside its tree a blok declares catalogs, locals, and what it reads: queries and subscriptions,
each a GraphQL document.  A query's document is a query, a subscription's a subscription, as far as
the first word of the document says.
-/

namespace Rekuest.Bloks

open Rekuest.Ports Rekuest.Backend

structure BlokQuery where
  key : String
  document : String
  more : Option String := none

structure BlokSubscription where
  key : String
  document : String
  history : Option String := none

/-- What a blok declares; of its locals and of what its demo says of dependencies, the keys. -/
structure BlokDeclarations where
  catalogs : List String := []
  locals : List String := []
  queries : List BlokQuery := []
  subscriptions : List BlokSubscription := []
  dependency_keys : List String := []
  demo_deps : List String := []

/-- The rows of the table that these checks fill in. -/
def declaration_diagnostics : List (String × String) := [
  ("manifest.catalog", "Catalog \x7bcatalog!r\x7d is not name@version (ui@1)."),
  ("manifest.duplicate", "\x7bwhat\x7d: \x7bkey!r\x7d is declared twice."),
  ("manifest.name", "\x7bwhat\x7d: \x7bkey!r\x7d is not a name."),
  ("roots.reserved", "\x7bname!r\x7d is reserved: no local, let or into may use it."),
  ("query.more", "query \x7bname!r\x7d: more \x7bmore!r\x7d \x7bproblem\x7d."),
  ("query.history",
    "subscription \x7bname!r\x7d replays from \x7bhistory!r\x7d, which is no declared query."),
  ("manifest.action_logo",
    "An action logo reads only the task it is drawn against: no locals, queries, subscriptions or " ++
      "dependencies."),
  ("manifest.demo", "demo.deps names \x7bkeys\x7d, which are not dependencies of the blok."),
  ("query.read_only", "\x7bkind\x7d \x7bname!r\x7d: \x7bproblem\x7d"),
  ("query.kind", "\x7bkind\x7d \x7bname!r\x7d is a \x7boperation\x7d, not a \x7bkind\x7d.")]

def blok_error (code : String) (fields : List (String × String)) : ValidationError :=
  let message := ((declaration_diagnostics.find? (·.1 = code)).map (·.2)).getD code
  fill (fun _ => "") message (fields.map fun field => (field.1, .string field.2)) ++ " [" ++ code ++ "]"

def is_name (key : List Char) : Bool :=
  match key with
  | first :: rest => (first = '_' || first.isAlpha) && rest.all fun c => c = '_' || c.isAlphanum
  | [] => false

def is_field_path (path : String) : Bool := (path.toList.splitOn '.').all is_name

def is_catalog (catalog : String) : Bool :=
  let name := catalog.toList.takeWhile (· ≠ '@')
  match catalog.toList.dropWhile (· ≠ '@') with
  | [] => false
  | _ :: version =>
      (name.head?.any Char.isLower) &&
        (name.all fun c => c.isLower || c.isDigit || c = '_' || c = '-') &&
        !version.isEmpty && version.all Char.isDigit

/-- `str::trim_start` -/
def trim_start (text : List Char) : List Char := text.dropWhile isWhitespace

/-- A text without what stands behind a `#` on its line. -/
def without_comments (document : List Char) : List Char :=
  ['\n'].intercalate ((document.splitOn '\n').map fun line => line.takeWhile (· ≠ '#'))

/-- The first word of a document: its first operation's, so far as it looks. -/
def operation_keyword (document : List Char) : List Char :=
  let text := trim_start (without_comments document)
  if text.head? = some '\x7b' then "query".toList
  else text.takeWhile fun c => c.isAlpha || c = '_'

def check_operation (kind name : String) (operation : List Char) : Except ValidationError Unit :=
  if operation = kind.toList then .ok ()
  else if operation = "mutation".toList then
    .error (blok_error "query.read_only" [("kind", kind), ("name", name),
      ("problem", "is a mutation: a blok reads, and writes only through a task")])
  else
    let operation := if operation = [] then "document without an operation" else String.ofList operation
    .error (blok_error "query.kind" [("kind", kind), ("name", name), ("operation", operation)])

/-- Names that are declared: each once, each a name, and a local's none that is reserved. -/
def check_named (reserved : String → Bool) (what : String) (keys : List String) : Except ValidationError Unit :=
  match keys.find? fun key => 1 < keys.count key with
  | some twice => .error (blok_error "manifest.duplicate" [("what", what), ("key", twice)])
  | none =>
      keys.forM fun key =>
        if ¬ is_name key.toList then .error (blok_error "manifest.name" [("what", what), ("key", key)])
        else if what = "locals" ∧ reserved key = true then .error (blok_error "roots.reserved" [("name", key)])
        else .ok ()

def check_query (query : BlokQuery) : Except ValidationError Unit := do
  check_operation "query" query.key (operation_keyword query.document.toList)
  match query.more with
  | some more =>
      if is_field_path more then .ok ()
      else
        .error (blok_error "query.more" [("name", query.key), ("more", more),
          ("problem", "is not a field path into its data (positions, images.items)")])
  | none => .ok ()

def check_subscription (queries : List BlokQuery) (subscription : BlokSubscription) :
    Except ValidationError Unit := do
  check_operation "subscription" subscription.key (operation_keyword subscription.document.toList)
  match subscription.history with
  | some history =>
      if queries.any (·.key = history) then .ok ()
      else .error (blok_error "query.history" [("name", subscription.key), ("history", history)])
  | none => .ok ()

def check_catalog (catalog : String) : Except ValidationError Unit :=
  if is_catalog catalog then .ok () else .error (blok_error "manifest.catalog" [("catalog", catalog)])

def check_action_logo (blok : BlokDeclarations) (kind : String) : Except ValidationError Unit :=
  if kind = "action_logo" ∧
      ¬ (blok.locals = [] ∧ blok.queries.isEmpty ∧ blok.subscriptions.isEmpty ∧ blok.dependency_keys = []) then
    .error (blok_error "manifest.action_logo" [])
  else .ok ()

def check_demo (blok : BlokDeclarations) : Except ValidationError Unit :=
  let unknown := blok.demo_deps.filter fun key => key ≠ "self" && key ∉ blok.dependency_keys
  if unknown = [] then .ok ()
  else .error (blok_error "manifest.demo" [("keys", ", ".intercalate (unknown.mergeSort (· ≤ ·)))])

def check_blok_declarations (blok : BlokDeclarations) (kind : String) (reserved : String → Bool) :
    Except ValidationError Unit := do
  blok.catalogs.forM check_catalog
  check_named reserved "locals" blok.locals
  check_named reserved "queries" (blok.queries.map (·.key))
  check_named reserved "subscriptions" (blok.subscriptions.map (·.key))
  blok.queries.forM check_query
  blok.subscriptions.forM (check_subscription blok.queries)
  check_action_logo blok kind
  check_demo blok

end Rekuest.Bloks
