import Rekuest.Bsx.Braces
import Rekuest.Bsx.Parser

/-!
# Markup

A blok's source is an element: a name, attributes, and between its tags what stands there: elements,
text, and containers with an expression.  A function takes characters off the front; what is left
tells how far it is into the source, whose length is `total`.
-/

namespace Rekuest.Bsx

open Rekuest.Ports Parsing Rekuest.Backend

inductive AttributeValue
  | text (text : List Char)
  | expression (expression : Expr)
  | flag

structure Attribute where
  name : String
  value : AttributeValue
  offset : Nat

mutual

inductive Child
  | element (element : Element)
  | text (text : List Char) (offset : Nat)
  | container (expression : Expr) (offset : Nat)

inductive Element
  | mk (name : String) (offset : Nat) (attributes : List Attribute) (children : List Child)

end

def Element.name : Element → String
  | .mk name _ _ _ => name

def Element.offset : Element → Nat
  | .mk _ offset _ _ => offset

def Element.attributes : Element → List Attribute
  | .mk _ _ attributes _ => attributes

def Element.children : Element → List Child
  | .mk _ _ _ children => children

def name_start (c : Char) (attribute_ : Bool) : Bool := c.isAlpha || c = '_' || (attribute_ && c = ':')

def name_part (c : Char) : Bool := c.isAlphanum || c ∈ ['_', '.', ':', '-']

/-! ## Entities -/

/-- What stands between `&` and `;`, if it is an entity. -/
def entity (rest : List Char) : Option (List Char) :=
  let closed (start digits : List Char) : Option (List Char) :=
    if digits ≠ [] ∧ (rest.drop (start.length + digits.length)).head? = some ';' then some (start ++ digits)
    else none
  match rest with
  | '#' :: 'x' :: hex => closed ['#', 'x'] (hex.takeWhile is_hex)
  | '#' :: decimal => closed ['#'] (decimal.takeWhile Char.isDigit)
  | c :: _ => if c.isAlpha then closed [] (rest.takeWhile Char.isAlphanum) else none
  | [] => none

/-- A code point, if it is a character. -/
def char_of (code : Nat) : Option Char := if code.isValidChar then some (Char.ofNat code) else none

def NAMED_ENTITIES : List (String × Char) := [
  ("amp", '&'), ("lt", '<'), ("gt", '>'), ("quot", '\x22'), ("apos", '\x27'), ("nbsp", '\u00a0')]

def decoded (entity : List Char) : Option Char :=
  match entity with
  | '#' :: 'x' :: hex => char_of (hex.foldl (fun code c => code * 16 + hex_digit c) 0)
  | '#' :: decimal => char_of (Nat.ofDigitChars 10 decimal 0)
  | name => (NAMED_ENTITIES.find? (·.1 = String.ofList name)).map (·.2)

/-- `Markup::decode`, behind the characters of an entity that is decoded already. -/
def decode_from : Nat → Nat → List Char → Except BsxError (List Char)
  | _, _, [] => .ok []
  | skip + 1, offset, _ :: rest => decode_from skip (offset + 1) rest
  | 0, offset, c :: rest =>
      match if c = '&' then entity rest else none with
      | some entity =>
          match decoded entity with
          | none =>
              .error ⟨"bsx.syntax", offset, [("detail", "unknown entity &" ++ String.ofList entity ++ ";")]⟩
          | some decoded => (decode_from (entity.length + 1) (offset + 1) rest).map (decoded :: ·)
      | none => (decode_from 0 (offset + 1) rest).map (c :: ·)

def decode (raw : List Char) (offset : Nat) : Except BsxError (List Char) := decode_from 0 offset raw

/-! ## Runs of text -/

def newlines : List Char → List Char
  | '\r' :: '\n' :: rest => '\n' :: newlines rest
  | c :: rest => (if c = '\r' then '\n' else c) :: newlines rest
  | [] => []

def collapse : Bool → List Char → List Char
  | _, [] => []
  | previous_space, c :: rest =>
      if c = ' ' ∧ previous_space = true then collapse previous_space rest else c :: collapse (c = ' ' : Bool) rest

/-- One line of a text, by whether the text breaks before it and behind it. -/
def jsx_line (before behind : Bool) (line : List Char) : List Char :=
  let text := line.map fun c => if c = '\t' then ' ' else c
  let text := if before then text.dropWhile (· = ' ') else text
  let text := if behind then (text.reverse.dropWhile (· = ' ')).reverse else text
  collapse false text

/-- JSX's rule for the whitespace of a run of text. -/
def jsx_text (raw : List Char) : List Char :=
  let lines := (newlines raw).splitOn '\n'
  let kept := (lines.mapIdx fun index line =>
    jsx_line (0 < index : Bool) (index < lines.length - 1 : Bool) line).filter (· ≠ [])
  [' '].intercalate kept

/-! ## The parser -/

section

variable (f64 : List Char → Option Dyadic) (total : Nat)

/-- How far into the source what is left stands. -/
def index (rest : List Char) : Nat := total - rest.length

def fail (code : String) (offset : Nat) (fields : List (String × String)) : BsxError := ⟨code, offset, fields⟩

def markup_error (offset : Nat) (detail : String) : BsxError := fail "bsx.syntax" offset [("detail", detail)]

def starts (text : String) (rest : List Char) : Bool := text.toList.isPrefixOf rest

/-- What is left from where a text stands first. -/
def find (text : String) : List Char → Option (List Char)
  | [] => none
  | c :: rest => if starts text (c :: rest) then some (c :: rest) else find text rest

def skip_space (rest : List Char) : List Char := rest.dropWhile is_space

def skip_comment (rest : List Char) : Except BsxError (Option (List Char)) :=
  if starts "<!--" rest then
    match find "-->" (rest.drop 4) with
    | none => .error (markup_error (index total rest) "a comment is never closed")
    | some found => .ok (some (found.drop 3))
  else .ok none

/-- Space and comments; the number bounds the comments. -/
def skip_trivia : Nat → List Char → Except BsxError (List Char)
  | 0, rest => .ok (skip_space rest)
  | n + 1, rest =>
      match skip_comment total (skip_space rest) with
      | .error e => .error e
      | .ok none => .ok (skip_space rest)
      | .ok (some rest) => skip_trivia n rest

def name_at (attribute_ : Bool) : List Char → Option (List Char)
  | [] => none
  | c :: rest => if name_start c attribute_ then some (c :: rest.takeWhile name_part) else none

def name (attribute_ : Bool) (what : String) : Parse Char BsxError String := fun rest =>
  match name_at attribute_ rest with
  | none => .error (markup_error (index total rest) ("expected " ++ what))
  | some name => .ok (String.ofList name, rest.drop name.length)

/-- The text between braces, of what stands at the opening one. -/
def braced : Parse Char BsxError (List Char) := fun rest =>
  match braces rest.tail with
  | none => .error (markup_error (index total rest) "an expression's braces are never closed")
  | some size => .ok (rest.tail.take size, rest.tail.drop (size + 1))

def attribute_ : Parse Char BsxError Attribute := fun source =>
  let offset := index total source
  match name total true "an attribute name" source with
  | .error e => .error e
  | .ok (name, save) =>
      let rest := skip_space save
      if ¬ starts "=" rest then .ok (⟨name, .flag, offset⟩, save)
      else
        let rest := skip_space rest.tail
        match rest with
        | [] => .error (markup_error (index total rest) (name ++ "= takes \"a string\" or \x7ban expression\x7d"))
        | c :: inside =>
            if is_quote c then
              let raw := inside.takeWhile (· ≠ c)
              if raw.length = inside.length then
                .error (markup_error (index total rest) ("the value of " ++ name ++ " is never closed"))
              else
                match decode raw (index total inside) with
                | .error e => .error e
                | .ok value => .ok (⟨name, .text value, offset⟩, inside.drop (raw.length + 1))
            else if c = '\x7b' then
              match braced total rest with
              | .error e => .error e
              | .ok (inner, after) =>
                  if inner.all isWhitespace then
                    .error (syntax_error (index total inside) ("the value of " ++ name ++ " is empty"))
                  else
                    match parse_attribute f64 inner (index total inside) with
                    | .error e => .error e
                    | .ok expression => .ok (⟨name, .expression expression, offset⟩, after)
            else
              .error (markup_error (index total rest) (name ++ "= takes \"a string\" or \x7ban expression\x7d"))

/-- A container whose text is left out of the tree. -/
def left_out (text : List Char) : Bool :=
  let stripped := trim text
  stripped.isEmpty || (starts "/*" stripped && "*/".toList.isSuffixOf stripped)

/-- What stands between the braces of a container, and what it adds to the children. -/
def container : Parse Char BsxError (Option Child) := fun source =>
  match braced total source with
  | .error e => .error e
  | .ok (inner, rest) =>
      if left_out inner then .ok (none, rest)
      else
        match parse_expression f64 inner (index total source.tail) with
        | .error e => .error e
        | .ok expression => .ok (some (.container expression (index total source)), rest)

/-- The closing tag of an element, behind its `</`. -/
def closing_tag (opened : String) (offset : Nat) : Parse Char BsxError Unit := fun rest =>
  match name total false "an element name" rest with
  | .error e => .error e
  | .ok (found, rest) =>
      let rest := skip_space rest
      if ¬ starts ">" rest then .error (markup_error (index total rest) ("expected \x27>\x27 to close </" ++ found))
      else if found ≠ opened then
        .error (fail "bsx.mismatched_tag" offset [("found", found), ("expected", opened)])
      else .ok ((), rest.tail)

section

variable (element : Parse Char BsxError Element)

/-- The children of an element, to its closing tag; a round takes a character at least. -/
def content (opened : String) (offset : Nat) : Nat → List Child → Parse Char BsxError (List Child)
  | 0, _, _ => .error (fail "bsx.unclosed" offset [("component", opened)])
  | _ + 1, _, [] => .error (fail "bsx.unclosed" offset [("component", opened)])
  | n + 1, children, c :: rest =>
      let source := c :: rest
      if starts "</" source then
        match closing_tag total opened (index total source) (source.drop 2) with
        | .error e => .error e
        | .ok ((), rest) => .ok (children, rest)
      else
        match skip_comment total source with
        | .error e => .error e
        | .ok (some rest) => content opened offset n children rest
        | .ok none =>
            if c = '<' then
              match element source with
              | .error e => .error e
              | .ok (child, rest) => content opened offset n (children ++ [.element child]) rest
            else if c = '\x7b' then
              match container f64 total source with
              | .error e => .error e
              | .ok (added, rest) => content opened offset n (children ++ added.toList) rest
            else if c = '\x7d' then
              .error (markup_error (index total source)
                "unexpected \x27\x7d\x27 in text; write \x7b\x27\x7d\x27\x7d")
            else
              let raw := source.takeWhile fun c => !(c = '<' || c = '\x7b' || c = '\x7d')
              content opened offset n (children ++ [.text raw (index total source)]) (source.drop raw.length)

/-- The attributes of an element and what it holds; a round takes a character at least. -/
def attributes (opened : String) (offset : Nat) : Nat → List Attribute → Parse Char BsxError Element
  | 0, _, _ => .error (fail "bsx.unclosed" offset [("component", opened)])
  | n + 1, seen, source =>
      let had_space := source.head?.any is_space
      let rest := skip_space source
      if rest = [] then .error (fail "bsx.unclosed" offset [("component", opened)])
      else if starts "/>" rest then .ok (.mk opened offset seen [], rest.drop 2)
      else if starts ">" rest then
        match content f64 total element opened offset rest.length [] rest.tail with
        | .error e => .error e
        | .ok (children, rest) => .ok (.mk opened offset seen children, rest)
      else if !had_space then .error (markup_error (index total rest) "expected a space before the attribute")
      else
        match attribute_ f64 total rest with
        | .error e => .error e
        | .ok (read, after) =>
            if seen.any (·.name = read.name) then
              .error (fail "bsx.duplicate_attribute" read.offset [("component", opened), ("key", read.name)])
            else attributes opened offset n (seen ++ [read]) after

end

/-- An element, to a depth; every level below it takes a character at least. -/
def element : Nat → Parse Char BsxError Element
  | 0, source => .error (fail "bsx.unclosed" (index total source) [])
  | n + 1, source =>
      match name total false "an element name" source.tail with
      | .error e => .error e
      | .ok (opened, rest) =>
          attributes f64 total (element n) opened (index total source) (rest.length + 1) [] rest

/-- The whole source: one element. -/
def document (source : List Char) : Except BsxError Element :=
  match skip_trivia total source.length source with
  | .error e => .error e
  | .ok [] => .error (fail "bsx.empty" (index total []) [])
  | .ok (c :: rest) =>
      if c ≠ '<' then .error (markup_error (index total (c :: rest)) "a blok starts with an element")
      else
        match element f64 total (rest.length + 1) (c :: rest) with
        | .error e => .error e
        | .ok (root, after) =>
            match skip_trivia total after.length after with
            | .error e => .error e
            | .ok [] => .ok root
            | .ok (c :: rest) =>
                if c = '<' then
                  let name := ((name_at false rest).map String.ofList).getD "?"
                  .error (fail "bsx.multiple_roots" (index total (c :: rest)) [("component", name)])
                else .error (markup_error (index total (c :: rest)) "text after the root element")

end

end Rekuest.Bsx
