import Mathlib.Algebra.Ring.Int.Defs
import Mathlib.Algebra.Ring.Nat
import Rekuest.Bsx.Lexer
import Rekuest.Parsing.Reads

/-!
# Expressions

The parser of a blok's expressions, one function for each level of the language.  A function
takes its tokens off the front and looks at the one after them, and at times at the next; a
level is written over the parser of whole expressions, which are parsed at a depth.
-/

namespace Rekuest.Bsx

open Rekuest.Ports Parsing

mutual

inductive Expr
  /-- A string, number, boolean or `null`. -/
  | literal (value : Value) (offset : Nat)
  | list (items : List Expr) (offset : Nat)
  | object (entries : List (String × Expr)) (offset : Nat)
  | path (segments : List String) (offset : Nat)
  | call (call : CallExpr)
  | not (operand : Expr) (offset : Nat)
  | compare (operator : String) (left right : Expr) (offset : Nat)
  /-- One operator over every operand. -/
  | logical (operator : String) (operands : List Expr) (offset : Nat)
  | ternary (cond then_ otherwise : Expr) (offset : Nat)
  /-- A task call whose record is named. -/
  | into (call : CallExpr) (name : String) (offset : Nat)

inductive CallExpr
  | mk (callee : List String) (arguments : List Argument) (offset : Nat)

/-- `name: value`, or positional. -/
inductive Argument
  | mk (name : Option String) (value : Expr) (offset : Nat)

end

def CallExpr.offset : CallExpr → Nat
  | .mk _ _ offset => offset

def Expr.offset : Expr → Nat
  | .literal _ offset => offset
  | .list _ offset => offset
  | .object _ offset => offset
  | .path _ offset => offset
  | .call (.mk _ _ offset) => offset
  | .not _ offset => offset
  | .compare _ _ _ offset => offset
  | .logical _ _ offset => offset
  | .ternary _ _ _ offset => offset
  | .into _ _ offset => offset

def Expr.is_call : Expr → Bool
  | .call (.mk ..) => true
  | _ => false

/-- The operators that are chained. -/
inductive Logic
  | coalesce
  | or
  | and
  deriving DecidableEq

def Logic.text : Logic → String
  | .coalesce => "??"
  | .or => "||"
  | .and => "&&"

def COMPARISONS : List String := [">", ">=", "<", "<="]

/-- Words that begin no value. -/
def REFUSED_NAMES : List String :=
  ["undefined", "function", "new", "await", "async", "typeof", "this", "let", "const", "var"]

/-! ## Looking ahead -/

def token : List Token → Token
  | [] => ⟨.done, "", 0, .null⟩
  | t :: _ => t

def peek : List Token → Token
  | _ :: t :: _ => t
  | toks => token toks

def Token.is_op (t : Token) (values : List String) : Bool := t.kind = .op && t.value ∈ values

def is_op (toks : List Token) (values : List String) : Bool := (token toks).is_op values

def is_name (toks : List Token) (value : String) : Bool :=
  (token toks).kind = .name && (token toks).value = value

def arithmetic (operator : String) : Option String :=
  match operator with
  | "+" => some "add"
  | "-" => some "sub"
  | "*" => some "mul"
  | "/" => some "div"
  | "%" => some "mod"
  | "**" => some "pow"
  | _ => none

/-- An operator of JavaScript that the language does not have. -/
def refused (t : Token) : Option BsxError :=
  match arithmetic t.value with
  | some function => some ⟨"expr.arithmetic", t.offset, [("operator", t.value), ("function", function)]⟩
  | none =>
      match t.value with
      | "=>" => some ⟨"expr.lambda", t.offset, []⟩
      | "=" => some ⟨"callback.assignment", t.offset, []⟩
      | ";" => some ⟨"callback.sequence", t.offset, []⟩
      | "[" => some ⟨"expr.subscript", t.offset, []⟩
      | "===" => some (syntax_error t.offset "write ==: equality is always deep")
      | "!==" => some (syntax_error t.offset "write !=: equality is always deep")
      | "?." => some (syntax_error t.offset "?. is not supported; missing paths read as null")
      | _ => none

def unexpected (toks : List Token) (expected : String) : BsxError :=
  let t := token toks
  if t.kind = .done then syntax_error t.offset (expected ++ ", but the expression ends")
  else
    match if t.kind = .op then refused t else none with
    | some refusal => refusal
    | none => syntax_error t.offset (expected ++ ", not " ++ repr_str t.value)

def expect (value : String) : Parse Token BsxError Token := fun toks =>
  if is_op toks [value] then .ok (token toks, toks.tail)
  else .error (unexpected toks ("expected " ++ repr_str value))

def finish (toks : List Token) : Except BsxError Unit :=
  if (token toks).kind = .done then .ok () else .error (unexpected toks "expected the end of the expression")

/-! ## The levels -/

section

variable (f64 : List Char → Option Dyadic) (expression : Parse Token BsxError Expr)

/-- A name's fields. -/
def fields : Parse Token BsxError (List String)
  | dot :: t :: rest =>
      if dot.is_op ["."] then
        if t.kind = .name then
          match fields rest with
          | .error e => .error e
          | .ok (names, rest) => .ok (t.value :: names, rest)
        else .error (unexpected (t :: rest) "expected a name after '.'")
      else .ok ([], dot :: t :: rest)
  | toks => if is_op toks ["."] then .error (unexpected [] "expected a name after '.'") else .ok ([], toks)

def argument : Parse Token BsxError Argument := fun toks =>
  let t := token toks
  let next := peek toks
  if t.kind = .name ∧ next.is_op [":"] = true then
    match expression (toks.drop 2) with
    | .error e => .error e
    | .ok (value, rest) => .ok (.mk (some t.value) value t.offset, rest)
  else if t.kind = .name ∧ next.is_op ["="] = true then
    .error (syntax_error next.offset ("name an argument with ':' (" ++ t.value ++ ": ...)"))
  else
    match expression toks with
    | .error e => .error e
    | .ok (value, rest) => .ok (.mk none value t.offset, rest)

def path_or_call : Parse Token BsxError Expr := fun toks =>
  match fields toks.tail with
  | .error e => .error e
  | .ok (names, rest) =>
      let segments := (token toks).value :: names
      if is_op rest ["=>"] then .error ⟨"expr.lambda", (token rest).offset, []⟩
      else if is_op rest ["("] then
        match listed (·.is_op [")"]) (·.is_op [","]) (fun _ => argument expression) rest.length [] rest.tail with
        | .error e => .error e
        | .ok (arguments, rest) =>
            match expect ")" rest with
            | .error e => .error e
            | .ok (_, rest) => .ok (.call (.mk segments arguments (token toks).offset), rest)
      else .ok (.path segments (token toks).offset, rest)

def list_literal : Parse Token BsxError Expr := fun toks =>
  match listed (·.is_op ["]"]) (·.is_op [","]) (fun _ => expression) toks.length [] toks.tail with
  | .error e => .error e
  | .ok (items, rest) =>
      match expect "]" rest with
      | .error e => .error e
      | .ok (_, rest) => .ok (.list items (token toks).offset, rest)

/-- A name, or a string that is not empty. -/
def key_name (key : Token) : Option String :=
  match key.kind, key.literal with
  | .name, _ => some key.value
  | .str, .string literal => if literal = "" then none else some literal
  | _, _ => none

def entry (read : List (String × Expr)) : Parse Token BsxError (String × Expr) := fun toks =>
  match key_name (token toks) with
  | none => .error (unexpected toks "expected a key (a name or a non-empty string)")
  | some name =>
      if read.any (·.1 = name) then .error ⟨"expr.duplicate_key", (token toks).offset, [("key", name)]⟩
      else
        match expect ":" toks.tail with
        | .error e => .error e
        | .ok (_, rest) =>
            match expression rest with
            | .error e => .error e
            | .ok (value, rest) => .ok ((name, value), rest)

def object_literal : Parse Token BsxError Expr := fun toks =>
  match listed (·.is_op ["\x7d"]) (·.is_op [","]) (entry expression) toks.length [] toks.tail with
  | .error e => .error e
  | .ok (entries, rest) =>
      match expect "\x7d" rest with
      | .error e => .error e
      | .ok (_, rest) => .ok (.object entries (token toks).offset, rest)

/-- What stands between parentheses is one operand. -/
def group : Parse Token BsxError Expr := fun toks =>
  match expression toks.tail with
  | .error e => .error e
  | .ok (inner, rest) =>
      match expect ")" rest with
      | .error e => .error e
      | .ok (_, rest) =>
          if is_op rest ["=>"] then .error ⟨"expr.lambda", (token rest).offset, []⟩ else .ok (inner, rest)

def primary : Parse Token BsxError Expr := fun toks =>
  let t := token toks
  match t.kind with
  | .number | .str => .ok (.literal t.literal t.offset, toks.tail)
  | .name =>
      if t.value = "true" ∨ t.value = "false" then
        .ok (.literal (.bool (t.value = "true" : Bool)) t.offset, toks.tail)
      else if t.value = "null" then .ok (.literal .null t.offset, toks.tail)
      else if t.value ∈ REFUSED_NAMES then
        .error (syntax_error t.offset (repr_str t.value ++ " is not part of the blok language"))
      else path_or_call expression toks
  | .op =>
      if t.value = "(" then group expression toks
      else if t.value = "[" then list_literal expression toks
      else if t.value = "\x7b" then object_literal expression toks
      else .error (unexpected toks "expected a value")
  | .done => .error (unexpected toks "expected a value")

/-- What may not stand behind a value. -/
def postfix_ (value : Expr) (toks : List Token) : Except BsxError Unit :=
  if is_op toks ["["] then .error ⟨"expr.subscript", (token toks).offset, []⟩
  else if is_op toks ["("] && !value.is_call then
    .error (syntax_error (token toks).offset "only a path can be called")
  else if value.is_call && is_op toks ["."] then
    .error (syntax_error (token toks).offset "a call's result has no fields; read them from its record")
  else .ok ()

/-- A number with its sign turned; an integer past `i64` turns as a double. -/
def negated : Value → Value
  | .float x => .float (-x)
  | .int n =>
      if -2 ^ 63 ≤ n ∧ n < 2 ^ 63 then .int (-n)
      else ((f64 (Nat.toDigits 10 n.toNat)).map fun x => Value.float (-x)).getD .null
  | _ => .null

def unary : Parse Token BsxError Expr
  | [] => .error (unexpected [] "expected a value")
  | t :: rest =>
      if t.is_op ["!"] then
        match unary rest with
        | .error e => .error e
        | .ok (operand, rest) => .ok (.not operand t.offset, rest)
      else if t.is_op ["-"] then
        if (token rest).kind = .number then .ok (.literal (negated f64 (token rest).literal) t.offset, rest.tail)
        else .error ⟨"expr.arithmetic", t.offset, [("operator", "-"), ("function", "neg")]⟩
      else
        match primary expression (t :: rest) with
        | .error e => .error e
        | .ok (value, rest) =>
            match postfix_ value rest with
            | .error e => .error e
            | .ok () => .ok (value, rest)

/-- One comparison of what `operand` reads, and none of the operators `chained` behind it. -/
def comparison (operators chained : List String) (operand : Parse Token BsxError Expr) :
    Parse Token BsxError Expr := fun toks =>
  match operand toks with
  | .error e => .error e
  | .ok (left, rest) =>
      if is_op rest operators then
        match operand rest.tail with
        | .error e => .error e
        | .ok (right, after) =>
            if is_op after chained then .error ⟨"expr.chained_comparison", (token after).offset, []⟩
            else .ok (.compare (token rest).value left right (token rest).offset, after)
      else .ok (left, rest)

def relation : Parse Token BsxError Expr := comparison COMPARISONS COMPARISONS (unary f64 expression)

def equality : Parse Token BsxError Expr :=
  comparison ["==", "!="] (["==", "!="] ++ COMPARISONS) (relation f64 expression)

/-- One operator over all operands of a chain. -/
def chain (operator : Logic) (inner : Parse Token BsxError Expr) : Parse Token BsxError Expr := fun toks =>
  match inner toks with
  | .error e => .error e
  | .ok (first, rest) =>
      match operands (·.is_op [operator.text]) inner rest.length [first] rest with
      | .error e => .error e
      | .ok ([only], rest) => .ok (only, rest)
      | .ok (all, rest) => .ok (.logical operator.text all first.offset, rest)

def logical : Logic → Parse Token BsxError Expr
  | .and => chain .and (equality f64 expression)
  | .or => chain .or (chain .and (equality f64 expression))
  | .coalesce => chain .coalesce (chain .or (chain .and (equality f64 expression)))

def ternary : Parse Token BsxError Expr := fun toks =>
  match logical f64 expression .coalesce toks with
  | .error e => .error e
  | .ok (cond, rest) =>
      if is_op rest ["?"] then
        match expression rest.tail with
        | .error e => .error e
        | .ok (then_, after) =>
            match expect ":" after with
            | .error e => .error e
            | .ok (_, after) =>
                match expression after with
                | .error e => .error e
                | .ok (otherwise, after) => .ok (.ternary cond then_ otherwise (token rest).offset, after)
      else .ok (cond, rest)

end

section

variable (f64 : List Char → Option Dyadic)

/-- An expression, to a depth; every level below it takes a token at least. -/
def expression : Nat → Parse Token BsxError Expr
  | 0, toks => .error (unexpected toks "expected a value")
  | n + 1, toks => ternary f64 (expression n) toks

def callback (toks : List Token) : Except BsxError Expr :=
  if is_name toks "await" then .error ⟨"callback.await", (token toks).offset, []⟩
  else
    match expression f64 toks.length toks with
    | .error e => .error e
    | .ok (value, rest) =>
        if is_name rest "into" then
          match value with
          | .call call =>
              if (token rest.tail).kind ≠ .name ∨ (peek rest.tail).kind ≠ .done then
                .error ⟨"callback.into", (token rest).offset, []⟩
              else .ok (.into call (token rest.tail).value (token rest).offset)
          | _ => .error ⟨"callback.into", (token rest).offset, []⟩
        else
          match finish rest with
          | .error e => .error e
          | .ok () => .ok value

/-- A value, of the tokens of its text. -/
def value_of (toks : List Token) : Except BsxError Expr :=
  if (token toks).kind = .done then .error (syntax_error (token toks).offset "the expression is empty")
  else
    match expression f64 toks.length toks with
    | .error e => .error e
    | .ok (value, rest) =>
        match finish rest with
        | .error e => .error e
        | .ok () => .ok value

def attribute_of (toks : List Token) : Except BsxError Expr :=
  if (token toks).kind = .done then .error (syntax_error (token toks).offset "the expression is empty")
  else callback f64 toks

/-- A value expression; `base` is where its text starts. -/
def parse_expression (text : List Char) (base : Nat) : Except BsxError Expr :=
  match tokens f64 base text with
  | .error e => .error e
  | .ok toks => value_of f64 toks

/-- An attribute's expression: a value, or a callback. -/
def parse_attribute (text : List Char) (base : Nat) : Except BsxError Expr :=
  match tokens f64 base text with
  | .error e => .error e
  | .ok toks => attribute_of f64 toks

end

end Rekuest.Bsx
