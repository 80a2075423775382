import Mathlib.Logic.Function.Basic
import Rekuest.Bloks.Tree
import Rekuest.Bloks.View
import Rekuest.Bsx.Markup

/-!
# The tree that is stored

An element becomes a node: its attributes become props, its text fills a prop or becomes nodes of
its own, and its elements become the nodes below it.  A node has the id its author gives it, or one
made of its parent's.  What an attribute and a text lower to is the view's and the expression
language's, and stands here as `Lowers`.
-/

namespace Rekuest.Bsx

open Rekuest.Ports Rekuest.Bloks

/-- A part of a run of text. -/
inductive Part
  | text (text : List Char)
  | expression (expression : Expr)

/-- The children of an element, with the parts between two elements in one run. -/
inductive Run
  | text (parts : List Part)
  | element (element : Element)

/-- What props and texts lower to, and what they are refused for. -/
structure Lowers where
  prop : String → Attribute → Except BsxError ComponentProp
  text_prop : String → List Part → Nat → Except BsxError ComponentProp
  check_pure : Expr → Nat → Except BsxError Unit
  /-- Whether the vocabulary has a context that draws no text. -/
  textless : String → Bool

def IMPLICIT_TEXT : String := "Text"
def IMPLICIT_HTML_TEXT : String := "span"
def ELSE : String := "else"
def IF : String := "if"
def FOREACH : String := "foreach"
def BASE_NAME : String := "base"
def MAX_SOURCE_BYTES : Nat := 256 * 1024

/-- `Vocabulary::is_explicit_id` -/
def is_explicit_id : List Char → Bool
  | c :: rest => (c.isAlpha || c = '_') && rest.all name_part
  | [] => false

def is_local : List Char → Bool
  | c :: rest => (c.isAlpha || c = '_') && rest.all is_name_part
  | [] => false

/-! ## Runs -/

def merge_part (merged : List Part) (part : Part) : List Part :=
  match part, merged.getLast? with
  | .text text, some (.text previous) => merged.dropLast ++ [.text (previous ++ text)]
  | .text text, _ => if text = [] then merged else merged ++ [.text text]
  | part, _ => merged ++ [part]

def flush (current : List Part) : List Run :=
  match current.foldl merge_part [] with
  | [] => []
  | merged => [.text merged]

section

variable (lowers : Lowers)

def runs : List Part → List Child → Except BsxError (List Run)
  | current, [] => .ok (flush current)
  | current, .element inner :: rest =>
      match runs [] rest with
      | .error e => .error e
      | .ok later => .ok (flush current ++ .element inner :: later)
  | current, .text text offset :: rest =>
      match decode (jsx_text text) offset with
      | .error e => .error e
      | .ok text => runs (if text = [] then current else current ++ [.text text]) rest
  | current, .container (.literal (.string text) _) _ :: rest => runs (current ++ [.text text.toList]) rest
  | current, .container other offset :: rest =>
      match lowers.check_pure other offset with
      | .error e => .error e
      | .ok () => runs (current ++ [.expression other]) rest

def sample (parts : List Part) : String :=
  String.ofList ((parts.flatMap fun part =>
    match part with
    | .text text => text
    | .expression _ => ['\x7b', '.', '.', '.', '\x7d']).take 60)

variable (view : BlokView)

/-- Where text goes: the prop it fills, or nodes of its own. -/
def text_target (element : Element) (context : String) (texts : List (List Part)) (has_elements : Bool) :
    Except BsxError (Option String) :=
  let refused (code : String) (extra : List (String × String)) : Except BsxError (Option String) :=
    .error (fail code element.offset
      ([("component", element.name), ("text", sample (texts.head?.getD []))] ++ extra))
  match view.component element.name with
  | none => refused "bsx.text_unknown_component" []
  | some component =>
      if lowers.textless context then refused "bsx.text_in_context" [("context", context)]
      else
        let language := component.catalog.any (·.startsWith (BASE_NAME ++ "@")) &&
          component.inherits_context && component.accepts_children
        let text_prop := component.text_prop.filter (· ≠ "")
        if text_prop.isSome && !has_elements then
          if 1 < texts.length then refused "bsx.text_not_accepted" [] else .ok text_prop
        else if text_prop.isSome || language then .ok none
        else refused "bsx.text_not_accepted" []

/-- The props with the one that text fills, and whether text becomes nodes. -/
def fill_text (element : Element) (context : String) (props : List ComponentProp) (runs : List Run) :
    Except BsxError (List ComponentProp × Bool) :=
  let texts := runs.filterMap fun run =>
    match run with
    | .text parts => some parts
    | .element _ => none
  let has_elements := element.children.any fun child =>
    match child with
    | .element _ => true
    | _ => false
  match texts with
  | [] => .ok (props, false)
  | first :: _ =>
      match text_target lowers view element context texts has_elements with
      | .error e => .error e
      | .ok none => .ok (props, true)
      | .ok (some text_prop) =>
          if props.any (·.key = text_prop) then
            .error (fail "bsx.text_and_prop" element.offset [("component", element.name), ("key", text_prop)])
          else
            match lowers.text_prop text_prop first element.offset with
            | .error e => .error e
            | .ok filled => .ok (props ++ [filled], false)

def get (element : Element) (key : String) : Option Attribute := element.attributes.find? (·.name = key)

def check_foreach (element : Element) : Except BsxError Unit :=
  let missing := [("items", "items=\x7b...\x7d"), ("let", "let=\"name\"")].filter fun pair =>
    (get element pair.1).isNone
  if missing ≠ [] then
    .error (fail "bsx.foreach" element.offset [("missing", ", ".intercalate (missing.map (·.2)))])
  else
    match get element "let" with
    | none => .ok ()
    | some let_ =>
        match let_.value with
        | .text name =>
            if ¬ is_local name then .error (fail "bsx.let" let_.offset [("let", String.ofList name)])
            else
              match (["items", "key"].filterMap (get element)).find? fun given =>
                match given.value with
                | .expression _ => false
                | _ => true with
              | some given =>
                  .error (fail "bsx.foreach" given.offset
                    [("missing", given.name ++ "=\x7b...\x7d, an expression")])
              | none => .ok ()
        | _ => .error (fail "bsx.let" let_.offset [("let", "\x7b...\x7d")])

/-! ## Nodes -/

/-- The id of a node, and the ids that authors gave: its author's, if it has one. -/
def own_id (element : Element) (node_id : String) (ids : List String) :
    Except BsxError (String × List String) :=
  match get element "id" with
  | none => .ok (node_id, ids)
  | some explicit =>
      match explicit.value with
      | .text text =>
          if ¬ is_explicit_id text then .error (fail "bsx.id" explicit.offset [("id", String.ofList text)])
          else if String.ofList text ∈ ids then
            .error (fail "bsx.duplicate_id" explicit.offset [("id", String.ofList text)])
          else .ok (String.ofList text, String.ofList text :: ids)
      | _ => .error (fail "bsx.id" explicit.offset [("id", "\x7b...\x7d")])

/-- The id of the n-th implicit text below a node. -/
def implicit_id (node_id : String) (n : Nat) : String := node_id ++ "/#" ++ toString n

/-- The id of the n-th element of a name below a node. -/
def child_id (node_id name : String) (n : Nat) : String := node_id ++ "/" ++ name ++ "[" ++ toString n ++ "]"

/-- What the nodes below one element share. -/
structure Below where
  element : Element
  node_id : String
  inner : String
  loose_text : String
  implicit_text : Bool

section

variable (node : Element → String → String → Option String → String → List String →
  Except BsxError (ComponentNode × List String))

/-- The nodes of the runs of an element: how many texts and elements of a name there were, whether
there was an `else`, and the ids that authors gave. -/
def lower_runs (b : Below) : List Run → Nat → (String → Nat) → Bool → List String →
    Except BsxError (List ComponentNode × List String)
  | [], _, _, _, ids => .ok ([], ids)
  | .text parts :: rest, implicit, counts, seen_else, ids =>
      if !b.implicit_text then lower_runs b rest implicit counts seen_else ids
      else if seen_else then .error (fail "bsx.else_order" b.element.offset [])
      else
        match lowers.text_prop "text" parts b.element.offset with
        | .error e => .error e
        | .ok text =>
            match lower_runs b rest (implicit + 1) counts seen_else ids with
            | .error e => .error e
            | .ok (later, ids) => .ok (.mk (implicit_id b.node_id implicit) b.loose_text [text] [] :: later, ids)
  | .element child :: rest, implicit, counts, seen_else, ids =>
      if b.element.name = IF ∧ child.name ≠ ELSE ∧ seen_else = true then
        .error (fail "bsx.else_order" child.offset [])
      else
        let index := counts child.name
        match node child (child_id b.node_id child.name index) b.inner (some b.element.name) b.loose_text ids with
        | .error e => .error e
        | .ok (lowered, ids) =>
            match lower_runs b rest implicit (Function.update counts child.name (index + 1))
              (seen_else || (b.element.name = IF && child.name = ELSE)) ids with
            | .error e => .error e
            | .ok (later, ids) => .ok (lowered :: later, ids)

end

/-- Only the last `else` of an `if` may stand without a condition. -/
def check_elses (element : Element) : Except BsxError Unit :=
  let elses := element.children.filterMap fun child =>
    match child with
    | .element inner => if inner.name = ELSE then some inner else none
    | _ => none
  match elses.dropLast.find? fun other => !other.attributes.any (·.name = "when") with
  | some other => .error (fail "bsx.else_order" other.offset [])
  | none => .ok ()

/-- `Lowering::node`, to a depth. -/
def node : Nat → Element → String → String → Option String → String → List String →
    Except BsxError (ComponentNode × List String)
  | 0, element, _, _, _, _, _ => .error (fail "bsx.unclosed" element.offset [("component", element.name)])
  | n + 1, element, node_id, context, parent, loose_text, ids =>
      if element.name = ELSE ∧ parent ≠ some IF then .error (fail "bsx.else_outside_if" element.offset [])
      else
        match own_id element node_id ids with
        | .error e => .error e
        | .ok (node_id, ids) =>
            match (element.attributes.filter (·.name ≠ "id")).mapM (lowers.prop element.name) with
            | .error e => .error e
            | .ok props =>
                match if element.name = FOREACH then check_foreach element else .ok () with
                | .error e => .error e
                | .ok () =>
                    let spec := view.component element.name
                    let loose_text :=
                      match spec with
                      | none => loose_text
                      | some spec =>
                          if spec.catalog.any (·.startsWith "html@") then IMPLICIT_HTML_TEXT
                          else if spec.catalog.any (·.startsWith (BASE_NAME ++ "@")) then loose_text
                          else IMPLICIT_TEXT
                    let inner :=
                      match spec with
                      | none => context
                      | some spec =>
                          if spec.inherits_context then context
                          else (spec.children_context.getD spec.context).value
                    match runs lowers [] element.children with
                    | .error e => .error e
                    | .ok runs =>
                        match fill_text lowers view element inner props runs with
                        | .error e => .error e
                        | .ok (props, implicit_text) =>
                            match lower_runs lowers (node n) ⟨element, node_id, inner, loose_text, implicit_text⟩
                              runs 0 (fun _ => 0) false ids with
                            | .error e => .error e
                            | .ok (children, ids) =>
                                match if element.name = IF then check_elses element else .ok () with
                                | .error e => .error e
                                | .ok () => .ok (.mk node_id element.name props children, ids)

end

mutual

/-- How deep an element goes. -/
def Element.depth : Element → Nat
  | .mk _ _ _ children => depth_in children + 1

def depth_in : List Child → Nat
  | [] => 0
  | child :: rest => max child.depth (depth_in rest)

def Child.depth : Child → Nat
  | .element inner => inner.depth
  | .text _ _ => 0
  | .container _ _ => 0

end

/-- Why a source is refused; one that is too large, at no place in it. -/
inductive Refused
  | too_large
  | placed (error : BsxError)

/-- `parse_bsx` -/
def parse_bsx (f64 : List Char → Option Dyadic) (lowers : Lowers) (source : String) (view : BlokView) :
    Except Refused ComponentNode :=
  if MAX_SOURCE_BYTES < source.utf8ByteSize then .error .too_large
  else
    match document f64 source.length source.toList with
    | .error e => .error (.placed e)
    | .ok root =>
        match node lowers view root.depth root (root.name ++ "[0]") "HTML" none IMPLICIT_TEXT [] with
        | .error e => .error (.placed e)
        | .ok (tree, _) => .ok tree

end Rekuest.Bsx
