import Rekuest.Bsx.Parser

/-!
# The grammar of expressions

What a list of tokens is an expression of, level by level:

    callback   := expression ('into' name)?
    expression := ternary
    ternary    := coalesce ('?' expression ':' expression)?
    coalesce   := or ('??' or)*
    or         := and ('||' and)*
    and        := equality ('&&' equality)*
    equality   := relation (('==' | '!=') relation)?
    relation   := unary (('>' | '>=' | '<' | '<=') unary)?
    unary      := '!' unary | '-' number | primary
    primary    := literal | path | call | list | object | '(' expression ')'
-/

namespace Rekuest.Bsx

open Rekuest.Ports Parsing

/-- The operator a token is. -/
def Token.Is (t : Token) (operator : String) : Prop := t.kind = .op ∧ t.value = operator

/-- One of several. -/
def Token.IsAny (t : Token) (operators : List String) : Prop := t.kind = .op ∧ t.value ∈ operators

inductive Level
  | expression
  | chain (operator : Logic)
  | equality
  | relation
  | unary
  | primary

/-- The level whose operands a chain is of. -/
def Logic.operand : Logic → Level
  | .coalesce => .chain .or
  | .or => .chain .and
  | .and => .equality

/-- A path's fields behind its first name. -/
inductive Fields : List Token → List String → Prop
  | nil : Fields [] []
  | cons {dot name : Token} {l : List Token} {names : List String} :
      dot.Is "." → name.kind = .name → Fields l names → Fields (dot :: name :: l) (name.value :: names)

/-- What `true`, `false` and `null` are. -/
def word_value (word : String) : Option Value :=
  if word = "true" ∨ word = "false" then some (.bool (word = "true" : Bool))
  else if word = "null" then some .null else none

/-- A name that may begin a path: no literal and no word of JavaScript's. -/
def Token.Begins (t : Token) : Prop := t.kind = .name ∧ word_value t.value = none ∧ t.value ∉ REFUSED_NAMES

section

variable (f64 : List Char → Option Dyadic)

mutual

/-- A list of tokens is an expression of a level, and this is its tree. -/
inductive Derives : Level → List Token → Expr → Prop
  | cond {l : List Token} {e : Expr} : Derives (.chain .coalesce) l e → Derives .expression l e
  | ternary {c t o : List Token} {cond then_ otherwise : Expr} {question colon : Token} :
      Derives (.chain .coalesce) c cond → question.Is "?" → Derives .expression t then_ → colon.Is ":" →
        Derives .expression o otherwise →
          Derives .expression (c ++ question :: (t ++ colon :: o))
            (.ternary cond then_ otherwise question.offset)
  | operand {operator : Logic} {l : List Token} {e : Expr} :
      Derives operator.operand l e → Derives (.chain operator) l e
  | chain {operator : Logic} {l rest : List Token} {first : Expr} {later : List Expr} :
      Derives operator.operand l first → later ≠ [] → Operands operator rest later →
        Derives (.chain operator) (l ++ rest) (.logical operator.text (first :: later) first.offset)
  | side {l : List Token} {e : Expr} : Derives .relation l e → Derives .equality l e
  | equality {l r : List Token} {left right : Expr} {operator : Token} :
      Derives .relation l left → operator.IsAny ["==", "!="] → Derives .relation r right →
        Derives .equality (l ++ operator :: r) (.compare operator.value left right operator.offset)
  | term {l : List Token} {e : Expr} : Derives .unary l e → Derives .relation l e
  | relation {l r : List Token} {left right : Expr} {operator : Token} :
      Derives .unary l left → operator.IsAny COMPARISONS → Derives .unary r right →
        Derives .relation (l ++ operator :: r) (.compare operator.value left right operator.offset)
  | value {l : List Token} {e : Expr} : Derives .primary l e → Derives .unary l e
  | not {l : List Token} {e : Expr} {bang : Token} :
      bang.Is "!" → Derives .unary l e → Derives .unary (bang :: l) (.not e bang.offset)
  | negative {minus number : Token} : minus.Is "-" → number.kind = .number →
      Derives .unary [minus, number] (.literal (negated f64 number.literal) minus.offset)
  | number {t : Token} : t.kind = .number → Derives .primary [t] (.literal t.literal t.offset)
  | string {t : Token} : t.kind = .str → Derives .primary [t] (.literal t.literal t.offset)
  | word {t : Token} {value : Value} : t.kind = .name → word_value t.value = some value →
      Derives .primary [t] (.literal value t.offset)
  | path {t : Token} {l : List Token} {names : List String} : t.Begins → Fields l names →
      Derives .primary (t :: l) (.path (t.value :: names) t.offset)
  | call {t opening closing : Token} {l args : List Token} {names : List String}
      {arguments : List Argument} : t.Begins → Fields l names → opening.Is "(" → closing.Is ")" →
        Arguments args arguments →
          Derives .primary (t :: (l ++ opening :: (args ++ [closing])))
            (.call (.mk (t.value :: names) arguments t.offset))
  | list {opening closing : Token} {l : List Token} {items : List Expr} :
      opening.Is "[" → closing.Is "]" → Items l items →
        Derives .primary (opening :: (l ++ [closing])) (.list items opening.offset)
  | object {opening closing : Token} {l : List Token} {entries : List (String × Expr)} :
      opening.Is "\x7b" → closing.Is "\x7d" → Entries [] l entries →
        Derives .primary (opening :: (l ++ [closing])) (.object entries opening.offset)
  | group {opening closing : Token} {l : List Token} {e : Expr} :
      opening.Is "(" → closing.Is ")" → Derives .expression l e →
        Derives .primary (opening :: (l ++ [closing])) e

/-- What follows the first operand of a chain. -/
inductive Operands : Logic → List Token → List Expr → Prop
  | nil {operator : Logic} : Operands operator [] []
  | cons {operator : Logic} {t : Token} {l l' : List Token} {e : Expr} {later : List Expr} :
      t.Is operator.text → Derives operator.operand l e → Operands operator l' later →
        Operands operator (t :: (l ++ l')) (e :: later)

/-- The items of a list; a comma may stand behind the last. -/
inductive Items : List Token → List Expr → Prop
  | nil : Items [] []
  | last {l : List Token} {e : Expr} : Derives .expression l e → Items l [e]
  | more {l l' : List Token} {comma : Token} {e : Expr} {items : List Expr} :
      Derives .expression l e → comma.Is "," → Items l' items → Items (l ++ comma :: l') (e :: items)

/-- One argument of a call. -/
inductive IsArgument : List Token → Argument → Prop
  | positional {l : List Token} {e : Expr} : Derives .expression l e →
      IsArgument l (.mk none e (token l).offset)
  | named {name colon : Token} {l : List Token} {e : Expr} : name.kind = .name → colon.Is ":" →
      Derives .expression l e → IsArgument (name :: colon :: l) (.mk (some name.value) e name.offset)

/-- The arguments of a call. -/
inductive Arguments : List Token → List Argument → Prop
  | nil : Arguments [] []
  | last {l : List Token} {a : Argument} : IsArgument l a → Arguments l [a]
  | more {l l' : List Token} {comma : Token} {a : Argument} {arguments : List Argument} :
      IsArgument l a → comma.Is "," → Arguments l' arguments → Arguments (l ++ comma :: l') (a :: arguments)

/-- One entry of an object, with a key that is not empty and none of those before it. -/
inductive IsEntry : List (String × Expr) → List Token → String × Expr → Prop
  | mk {read : List (String × Expr)} {key colon : Token} {name : String} {l : List Token} {e : Expr} :
      key_name key = some name → name ∉ read.map Prod.fst → colon.Is ":" → Derives .expression l e →
        IsEntry read (key :: colon :: l) (name, e)

/-- The entries of an object, behind some. -/
inductive Entries : List (String × Expr) → List Token → List (String × Expr) → Prop
  | nil {read : List (String × Expr)} : Entries read [] []
  | last {read : List (String × Expr)} {l : List Token} {entry : String × Expr} :
      IsEntry read l entry → Entries read l [entry]
  | more {read : List (String × Expr)} {l l' : List Token} {comma : Token} {entry : String × Expr}
      {entries : List (String × Expr)} :
      IsEntry read l entry → comma.Is "," → Entries (read ++ [entry]) l' entries →
        Entries read (l ++ comma :: l') (entry :: entries)

end

/-! ## The loops of the parser -/

variable {f64}

theorem Operands.trailing {operator : Logic} {l : List Token} {later : List Expr} :
    Operands f64 operator l later → Trailing (·.Is operator.text) (Derives f64 operator.operand) l later
  | .nil => .nil
  | .cons hIs hOperand hLater => .cons hIs hOperand hLater.trailing

theorem Items.listed {l : List Token} {items : List Expr} : Items f64 l items →
    ∀ read, Listed (·.Is ",") (fun _ => Derives f64 .expression) read l items
  | .nil, _ => .nil
  | .last hItem, _ => .last hItem
  | .more hItem hComma hLater, read => .more hItem hComma (hLater.listed _)

theorem Arguments.listed {l : List Token} {arguments : List Argument} : Arguments f64 l arguments →
    ∀ read, Listed (·.Is ",") (fun _ => IsArgument f64) read l arguments
  | .nil, _ => .nil
  | .last hArgument, _ => .last hArgument
  | .more hArgument hComma hLater, read => .more hArgument hComma (hLater.listed _)

theorem Entries.listed {read : List (String × Expr)} {l : List Token} {entries : List (String × Expr)} :
    Entries f64 read l entries → Listed (·.Is ",") (IsEntry f64) read l entries
  | .nil => .nil
  | .last hEntry => .last hEntry
  | .more hEntry hComma hLater => .more hEntry hComma hLater.listed

theorem operands_of_trailing {operator : Logic} {l : List Token} {later : List Expr}
    (h : Trailing (·.Is operator.text) (Derives f64 operator.operand) l later) : Operands f64 operator l later := by
  induction h with
  | nil => exact .nil
  | cons hIs hOperand _ ih => exact .cons hIs hOperand ih

theorem items_of_listed {read : List Expr} {l : List Token} {items : List Expr}
    (h : Listed (·.Is ",") (fun _ => Derives f64 .expression) read l items) : Items f64 l items := by
  induction h with
  | nil => exact .nil
  | last hItem => exact .last hItem
  | more hItem hComma _ ih => exact .more hItem hComma ih

theorem arguments_of_listed {read : List Argument} {l : List Token} {arguments : List Argument}
    (h : Listed (·.Is ",") (fun _ => IsArgument f64) read l arguments) : Arguments f64 l arguments := by
  induction h with
  | nil => exact .nil
  | last hArgument => exact .last hArgument
  | more hArgument hComma _ ih => exact .more hArgument hComma ih

theorem entries_of_listed {read : List (String × Expr)} {l : List Token} {entries : List (String × Expr)}
    (h : Listed (·.Is ",") (IsEntry f64) read l entries) : Entries f64 read l entries := by
  induction h with
  | nil => exact .nil
  | last hEntry => exact .last hEntry
  | more hEntry hComma _ ih => exact .more hEntry hComma ih

end

end Rekuest.Bsx
