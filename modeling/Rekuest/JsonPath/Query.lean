import Rekuest.JsonPath.Parser
import Rekuest.Parsing.Scanning

/-!
# Predicates of a JSONPath

The part of PostgreSQL's JSONPath that filters are written in, beside subscripts, filter
expressions and modes: expressions are scalars and paths with arithmetic over them, and
predicates compare expressions, ask whether a path is there, and are joined.  The grammar
keeps the two apart: what is joined is a predicate and what is compared an expression, and
only a predicate that stands between parentheses, or an `exists`, is negated.

A string holds no U+0000, since no text of the database does.
-/

namespace JsonPath.Query

open Documents

/-- The characters of a string of the database. -/
structure Text where
  chars : List Char
  clean : '\x00' ∉ chars
  deriving DecidableEq

def text_of (chars : List Char) : Option Text := if h : '\x00' ∈ chars then none else some ⟨chars, h⟩

inductive Comparison
  | eq | ne | gt | gte | lt | lte
  deriving DecidableEq

inductive Arithmetic
  | add | sub | mul | div | mod
  deriving DecidableEq

inductive Op
  | or
  | and
  | compare (c : Comparison)
  | compute (a : Arithmetic)
  deriving DecidableEq

inductive Token
  | number (n : Numeral)
  | string (s : Text)
  | word (name : List Char)
  | variable (name : List Char)
  | root
  | dot
  | left
  | right
  | left_bracket
  | right_bracket
  | not
  | op (o : Op)
  deriving DecidableEq

/-! ## The scanner -/

def read_string (s : List Char) : Option (Token × List Char) :=
  (readChars (s.length + 1) s).bind fun (chars, rest) =>
    (text_of chars).map fun text => (.string text, rest)

def read_number (s : List Char) : Option (Token × List Char) :=
  (read_numeral s).bind fun (token, rest) =>
    match token with
    | .number n => some (.number n, rest)
    | _ => none

/-- The word a text begins with, and the rest. -/
def read_token : List Char → Option (Token × List Char)
  | [] => none
  | '(' :: s => some (.left, s)
  | ')' :: s => some (.right, s)
  | '[' :: s => some (.left_bracket, s)
  | ']' :: s => some (.right_bracket, s)
  | '+' :: s => some (.op (.compute .add), s)
  | '-' :: s => some (.op (.compute .sub), s)
  | '*' :: s => if s.head? = some '*' then none else some (.op (.compute .mul), s)
  | '/' :: s => if s.head? = some '*' then none else some (.op (.compute .div), s)
  | '%' :: s => some (.op (.compute .mod), s)
  | '.' :: s => if s.head?.any Char.isDigit then none else some (.dot, s)
  | '=' :: '=' :: s => some (.op (.compare .eq), s)
  | '!' :: '=' :: s => some (.op (.compare .ne), s)
  | '!' :: s => some (.not, s)
  | '>' :: '=' :: s => some (.op (.compare .gte), s)
  | '>' :: s => some (.op (.compare .gt), s)
  | '<' :: '=' :: s => some (.op (.compare .lte), s)
  | '<' :: '>' :: s => some (.op (.compare .ne), s)
  | '<' :: s => some (.op (.compare .lt), s)
  | '&' :: '&' :: s => some (.op .and, s)
  | '|' :: '|' :: s => some (.op .or, s)
  | '\x22' :: s => read_string s
  | '$' :: s =>
      if s.head?.any is_name then some (.variable (s.takeWhile is_name), s.dropWhile is_name)
      else if s.head? = some '\x22' then none
      else some (.root, s)
  | c :: s =>
      if c.isDigit then read_number (c :: s)
      else if is_name c then
        some (.word ((c :: s).takeWhile is_name), (c :: s).dropWhile is_name)
      else none

/-- The words of a whole text. -/
def words (text : List Char) : Option (List Token) := Scanning.words is_blank read_token text

/-! ## The grammar -/

inductive Expr
  | string (s : Text)
  | number (n : Numeral)
  | bool (b : Bool)
  | null
  | root
  | variable (name : List Char)
  | member (of : Expr) (key : Text)
  | members (of : Expr)
  | items (of : Expr)
  | method (of : Expr) (name : List Char)
  | plus (of : Expr)
  | neg (of : Expr)
  | compute (o : Arithmetic) (left right : Expr)
  deriving DecidableEq

inductive Predicate
  | compare (o : Comparison) (left right : Expr)
  | present (path : Expr)
  | not (p : Predicate)
  | and (left right : Predicate)
  | or (left right : Predicate)
  deriving DecidableEq

/-- What a text stands for. -/
inductive Path
  | expr (e : Expr)
  | predicate (p : Predicate)
  deriving DecidableEq

namespace Op

/-- How tightly an operator binds. -/
def level : Op → Nat
  | or => 1
  | and => 2
  | compare _ => 3
  | compute .add | compute .sub => 4
  | compute _ => 5

end Op

/-- Predicates are joined, and expressions are compared and computed with. -/
def combine : Op → Path → Path → Option Path
  | .or, .predicate p, .predicate q => some (.predicate (.or p q))
  | .and, .predicate p, .predicate q => some (.predicate (.and p q))
  | .compare o, .expr l, .expr r => some (.predicate (.compare o l r))
  | .compute o, .expr l, .expr r => some (.expr (.compute o l r))
  | _, _, _ => none

/-- The scalars that are words. -/
def keyword (name : List Char) : Option Expr :=
  if name = "true".toList then some (.bool true)
  else if name = "false".toList then some (.bool false)
  else if name = "null".toList then some .null
  else none

/-- The accessors behind an expression. -/
def accessors : Expr → List Token → Option (Expr × List Token)
  | of, .dot :: .word name :: .left :: .right :: tokens =>
      if name ∈ methods then accessors (.method of name) tokens else none
  | of, .dot :: .word name :: tokens => (text_of name).bind fun key => accessors (.member of key) tokens
  | of, .dot :: .string key :: tokens => accessors (.member of key) tokens
  | of, .dot :: .op (.compute .mul) :: tokens => accessors (.members of) tokens
  | _, .dot :: _ => none
  | of, .left_bracket :: .op (.compute .mul) :: .right_bracket :: tokens => accessors (.items of) tokens
  | _, .left_bracket :: _ => none
  | of, tokens => some (of, tokens)

def with_accessors (e : Expr) (tokens : List Token) : Option (Path × List Token) :=
  (accessors e tokens).map fun (e, tokens) => (.expr e, tokens)

/-- What the parentheses of an `exists` hold. -/
def presence : Path × List Token → Option (Predicate × List Token)
  | (.expr e, .right :: tokens) => some (.present e, tokens)
  | _ => none

/-- What the parentheses behind a `!` hold. -/
def negated : Path × List Token → Option (Predicate × List Token)
  | (.predicate p, .right :: tokens) => some (p, tokens)
  | _ => none

/-- What parentheses hold: an expression goes on with accessors. -/
def enclosed : Path × List Token → Option (Path × List Token)
  | (.expr e, .right :: tokens) => with_accessors e tokens
  | (.predicate p, .right :: tokens) => some (.predicate p, tokens)
  | _ => none

def signed_by (sign : Expr → Expr) : Path × List Token → Option (Path × List Token)
  | (.expr e, tokens) => some (.expr (sign e), tokens)
  | _ => none

mutual

/-- What has operators that bind at least as tightly as the level; the first number bounds
the way down. -/
def expression : Nat → Nat → List Token → Option (Path × List Token)
  | 0, _, _ => none
  | n + 1, level, tokens =>
      (operand n tokens).bind fun (left, tokens) => climb n level left tokens

def operand : Nat → List Token → Option (Path × List Token)
  | n + 1, .op (.compute .add) :: tokens => (operand n tokens).bind (signed_by .plus)
  | n + 1, .op (.compute .sub) :: tokens => (operand n tokens).bind (signed_by .neg)
  | n + 1, .not :: tokens =>
      (delimited n tokens).map fun (p, tokens) => (.predicate (.not p), tokens)
  | n + 1, .left :: tokens => (expression n 1 tokens).bind enclosed
  | _ + 1, .number k :: tokens => with_accessors (.number k) tokens
  | _ + 1, .string s :: tokens => with_accessors (.string s) tokens
  | _ + 1, .root :: tokens => with_accessors .root tokens
  | _ + 1, .variable name :: tokens => with_accessors (.variable name) tokens
  | n + 1, .word name :: tokens =>
      if name = "exists".toList then
        (delimited n (.word name :: tokens)).map fun (p, tokens) => (.predicate p, tokens)
      else (keyword name).bind fun e => with_accessors e tokens
  | _, _ => none

/-- A predicate between parentheses, or an `exists`. -/
def delimited : Nat → List Token → Option (Predicate × List Token)
  | n + 1, .left :: tokens => (expression n 1 tokens).bind negated
  | n + 1, .word name :: .left :: tokens =>
      if name = "exists".toList then (expression n 1 tokens).bind presence else none
  | _, _ => none

/-- The operators behind a left side, as long as they bind tightly enough. -/
def climb : Nat → Nat → Path → List Token → Option (Path × List Token)
  | 0, _, _, _ => none
  | n + 1, level, left, .op o :: tokens =>
      if level ≤ o.level then
        (expression n (o.level + 1) tokens).bind fun (right, tokens) =>
          (combine o left right).bind fun whole => climb n level whole tokens
      else some (left, .op o :: tokens)
  | _ + 1, _, left, tokens => some (left, tokens)

end

/-- What a text stands for, where it stands for anything. -/
def parse (text : List Char) : Option Path :=
  (words text).bind fun tokens =>
    (expression (3 * tokens.length + 2) 1 tokens).bind fun (path, rest) =>
      if rest = [] then some path else none

/-! ## Words that parse -/

/-- Nothing that an operand goes on with. -/
def Ends (rest : List Token) : Prop :=
  rest = [] ∨ (∃ tokens, rest = .right :: tokens) ∨ ∃ o tokens, rest = .op o :: tokens

/-- The end of the whole, or of what parentheses hold. -/
def Closed (rest : List Token) : Prop := rest = [] ∨ ∃ tokens, rest = .right :: tokens

/-- Nothing that a comparison goes on with. -/
def Loose (rest : List Token) : Prop := Closed rest ∨ ∃ o tokens, rest = .op o :: tokens ∧ o.level < 3

/-- Words that parse as an operand. -/
def ParsesOperand (tokens : List Token) (path : Path) : Prop :=
  ∀ rest n, Ends rest → 3 * tokens.length ≤ n → operand n (tokens ++ rest) = some (path, rest)

/-- Words that parse as a predicate that may be negated. -/
def Delimits (tokens : List Token) (p : Predicate) : Prop :=
  ∀ rest n, 3 * tokens.length ≤ n + 1 → delimited n (tokens ++ rest) = some (p, rest)

/-- Words that parse as the first of what is joined: an operand, or a comparison. -/
def Leads (tokens : List Token) (path : Path) : Prop :=
  ∀ rest n level, level ≤ 3 → Loose rest → 3 * tokens.length + 1 ≤ n →
    ∃ m, n ≤ m + 3 * tokens.length + 1 ∧ 1 ≤ tokens.length ∧
      expression n level (tokens ++ rest) = climb m level path rest

/-- Words that parse as all that stands between parentheses, or as the whole. -/
def ParsesWhole (tokens : List Token) (path : Path) : Prop :=
  ∀ rest n, Closed rest → 3 * tokens.length + 2 ≤ n →
    expression n 1 (tokens ++ rest) = some (path, rest)

theorem ends_right (tokens : List Token) : Ends (.right :: tokens) := .inr (.inl ⟨tokens, rfl⟩)

theorem ends_op (o : Op) (tokens : List Token) : Ends (.op o :: tokens) := .inr (.inr ⟨o, tokens, rfl⟩)

theorem closed_right (tokens : List Token) : Closed (.right :: tokens) := .inr ⟨tokens, rfl⟩

theorem ends_of_loose {rest : List Token} (h : Loose rest) : Ends rest := by
  rcases h with (rfl | ⟨tokens, rfl⟩) | ⟨o, tokens, rfl, -⟩
  · exact .inl rfl
  · exact ends_right tokens
  · exact ends_op o tokens

theorem accessors_ends {e : Expr} {rest : List Token} (hRest : Ends rest) :
    accessors e rest = some (e, rest) := by
  rcases hRest with rfl | ⟨more, rfl⟩ | ⟨o, more, rfl⟩
  · rfl
  · rfl
  · rfl

theorem with_accessors_ends {e : Expr} {rest : List Token} (hRest : Ends rest) :
    with_accessors e rest = some (.expr e, rest) := by
  rw [with_accessors, accessors_ends hRest]
  rfl

/-- What closes a whole ends each level of it. -/
theorem climb_closed {n level : Nat} {left : Path} {rest : List Token} (hFuel : 1 ≤ n)
    (hRest : Closed rest) : climb n level left rest = some (left, rest) := by
  obtain ⟨m, rfl⟩ : ∃ m, n = m + 1 := ⟨n - 1, by omega⟩
  obtain rfl | ⟨more, rfl⟩ := hRest <;> simp [climb]

/-- An operator that binds less tightly ends a level. -/
theorem climb_loose {n level : Nat} {left : Path} {o : Op} {tokens : List Token} (hFuel : 1 ≤ n)
    (hLevel : o.level < level) : climb n level left (.op o :: tokens) = some (left, .op o :: tokens) := by
  obtain ⟨m, rfl⟩ : ∃ m, n = m + 1 := ⟨n - 1, by omega⟩
  rw [climb, if_neg (by omega)]

/-- What is loose ends the levels above those of comparisons. -/
theorem climb_stops {n level : Nat} {left : Path} {rest : List Token} (hFuel : 1 ≤ n)
    (hLevel : 3 ≤ level) (hRest : Loose rest) : climb n level left rest = some (left, rest) := by
  rcases hRest with hClosed | ⟨o, tokens, rfl, hOp⟩
  · exact climb_closed hFuel hClosed
  · exact climb_loose hFuel (by omega)

theorem parses_positive {tokens : List Token} {path : Path} (h : ParsesOperand tokens path) :
    1 ≤ tokens.length := by
  cases tokens with
  | nil =>
      have hNone := h [] 0 (.inl rfl) (Nat.le_refl _)
      simp [operand] at hNone
  | cons token tokens => simp

theorem ParsesOperand.leads {tokens : List Token} {path : Path} (h : ParsesOperand tokens path) :
    Leads tokens path := by
  intro rest n level _ hRest hFuel
  have hPositive := parses_positive h
  obtain ⟨m, rfl⟩ : ∃ m, n = m + 1 := ⟨n - 1, by omega⟩
  refine ⟨m, by omega, hPositive, ?_⟩
  rw [expression, h rest m (ends_of_loose hRest) (by omega), Option.bind_some]

/-- Two expressions and a comparison between them. -/
theorem ParsesOperand.compared {o : Comparison} {tokens tokens' : List Token} {left right : Expr}
    (hLeft : ParsesOperand tokens (.expr left)) (hRight : ParsesOperand tokens' (.expr right)) :
    Leads (tokens ++ .op (.compare o) :: tokens') (.predicate (.compare o left right)) := by
  intro rest n level hLevel hRest hFuel
  have hPositive := parses_positive hLeft
  have hPositive' := parses_positive hRight
  rw [List.length_append, List.length_cons] at hFuel ⊢
  obtain ⟨m, rfl⟩ : ∃ m, n = m + 3 := ⟨n - 3, by omega⟩
  refine ⟨m + 1, by omega, by omega, ?_⟩
  rw [expression, List.append_assoc, List.cons_append, hLeft _ _ (ends_op _ _) (by omega),
    Option.bind_some]
  show climb (m + 2) level (.expr left) (.op (.compare o) :: (tokens' ++ rest)) = _
  rw [climb, if_pos (by exact hLevel), expression, hRight _ _ (ends_of_loose hRest) (by omega),
    Option.bind_some]
  show ((climb m 4 (.expr right) rest).bind fun (right, tokens) =>
    (combine (.compare o) (.expr left) right).bind fun whole => climb (m + 1) level whole tokens) = _
  rw [climb_stops (by omega) (by omega) hRest, Option.bind_some]
  rfl

theorem Leads.whole {tokens : List Token} {path : Path} (h : Leads tokens path) :
    ParsesWhole tokens path := by
  intro rest n hRest hFuel
  obtain ⟨m, hm, _, hLeads⟩ := h rest n 1 (by omega) (.inl hRest) (by omega)
  rw [hLeads]
  exact climb_closed (by omega) hRest

/-- A predicate between parentheses. -/
theorem ParsesWhole.delimits {tokens : List Token} {p : Predicate} (h : ParsesWhole tokens (.predicate p)) :
    Delimits (.left :: (tokens ++ [.right])) p := by
  intro rest n hFuel
  rw [List.length_cons, List.length_append, List.length_singleton] at hFuel
  obtain ⟨m, rfl⟩ : ∃ m, n = m + 1 := ⟨n - 1, by omega⟩
  have hInner := h (.right :: rest) m (closed_right rest) (by omega)
  rw [List.cons_append, List.append_assoc, List.singleton_append, delimited, hInner]
  rfl

/-- A whole between parentheses is an operand. -/
theorem ParsesWhole.parens {tokens : List Token} {path : Path} (h : ParsesWhole tokens path) :
    ParsesOperand (.left :: (tokens ++ [.right])) path := by
  intro rest n hRest hFuel
  rw [List.length_cons, List.length_append, List.length_singleton] at hFuel
  obtain ⟨m, rfl⟩ : ∃ m, n = m + 1 := ⟨n - 1, by omega⟩
  have hInner := h (.right :: rest) m (closed_right rest) (by omega)
  rw [List.cons_append, List.append_assoc, List.singleton_append, operand, hInner, Option.bind_some]
  cases path with
  | expr e => exact with_accessors_ends hRest
  | predicate p => rfl

/-- Whether a path is there. -/
theorem ParsesWhole.present {tokens : List Token} {e : Expr} (h : ParsesWhole tokens (.expr e)) :
    Delimits (.word "exists".toList :: .left :: (tokens ++ [.right])) (.present e) := by
  intro rest n hFuel
  simp only [List.length_cons, List.length_append, List.length_nil] at hFuel
  obtain ⟨m, rfl⟩ : ∃ m, n = m + 1 := ⟨n - 1, by omega⟩
  have hInner := h (.right :: rest) m (closed_right rest) (by omega)
  rw [List.cons_append, List.cons_append, List.append_assoc, List.singleton_append, delimited,
    if_pos rfl, hInner]
  rfl

theorem ParsesWhole.exists_operand {tokens : List Token} {e : Expr} (h : ParsesWhole tokens (.expr e)) :
    ParsesOperand (.word "exists".toList :: .left :: (tokens ++ [.right])) (.predicate (.present e)) := by
  intro rest n _ hFuel
  have hLength : 1 ≤ (Token.word "exists".toList :: .left :: (tokens ++ [.right])).length := by simp
  obtain ⟨m, rfl⟩ : ∃ m, n = m + 1 := ⟨n - 1, by omega⟩
  have hDelimits := h.present rest m (by omega)
  rw [List.cons_append] at hDelimits ⊢
  rw [operand, if_pos rfl, hDelimits]
  rfl

theorem Delimits.negated {tokens : List Token} {p : Predicate} (h : Delimits tokens p) :
    ParsesOperand (.not :: tokens) (.predicate (.not p)) := by
  intro rest n _ hFuel
  rw [List.length_cons] at hFuel
  obtain ⟨m, rfl⟩ : ∃ m, n = m + 1 := ⟨n - 1, by omega⟩
  rw [List.cons_append, operand, h rest m (by omega)]
  rfl

/-- The minus of an expression. -/
theorem ParsesOperand.minus {tokens : List Token} {e : Expr} (h : ParsesOperand tokens (.expr e)) :
    ParsesOperand (.op (.compute .sub) :: tokens) (.expr (.neg e)) := by
  intro rest n hRest hFuel
  rw [List.length_cons] at hFuel
  obtain ⟨m, rfl⟩ : ∃ m, n = m + 1 := ⟨n - 1, by omega⟩
  rw [List.cons_append, operand, h rest m hRest (by omega)]
  rfl

theorem parses_number (k : Numeral) : ParsesOperand [.number k] (.expr (.number k)) := by
  intro rest n hRest hFuel
  obtain ⟨m, rfl⟩ : ∃ m, n = m + 1 := ⟨n - 1, by simp at hFuel; omega⟩
  rw [List.singleton_append, operand]
  exact with_accessors_ends hRest

theorem parses_string (s : Text) : ParsesOperand [.string s] (.expr (.string s)) := by
  intro rest n hRest hFuel
  obtain ⟨m, rfl⟩ : ∃ m, n = m + 1 := ⟨n - 1, by simp at hFuel; omega⟩
  rw [List.singleton_append, operand]
  exact with_accessors_ends hRest

theorem parses_keyword {name : List Char} {e : Expr} (hKeyword : keyword name = some e)
    (hName : name ≠ "exists".toList) : ParsesOperand [.word name] (.expr e) := by
  intro rest n hRest hFuel
  obtain ⟨m, rfl⟩ : ∃ m, n = m + 1 := ⟨n - 1, by simp at hFuel; omega⟩
  rw [List.singleton_append, operand, if_neg hName, hKeyword]
  exact with_accessors_ends hRest

/-- The member of the object with a quoted key, whatever the key. -/
theorem parses_member (key : Text) :
    ParsesOperand [.root, .dot, .string key] (.expr (.member .root key)) := by
  intro rest n hRest hFuel
  obtain ⟨m, rfl⟩ : ∃ m, n = m + 1 := ⟨n - 1, by simp at hFuel; omega⟩
  show operand (m + 1) (.root :: .dot :: .string key :: rest) = _
  have hMember : accessors .root (.dot :: .string key :: rest) =
      accessors (.member .root key) rest := rfl
  rw [operand, with_accessors, hMember, accessors_ends hRest]
  rfl

/-- The items of the member. -/
theorem parses_items (key : Text) :
    ParsesOperand [.root, .dot, .string key, .left_bracket, .op (.compute .mul), .right_bracket]
      (.expr (.items (.member .root key))) := by
  intro rest n hRest hFuel
  obtain ⟨m, rfl⟩ : ∃ m, n = m + 1 := ⟨n - 1, by simp at hFuel; omega⟩
  show operand (m + 1) (.root :: .dot :: .string key :: .left_bracket :: .op (.compute .mul) ::
    .right_bracket :: rest) = _
  have hItems : accessors .root (.dot :: .string key :: .left_bracket :: .op (.compute .mul) ::
      .right_bracket :: rest) = accessors (.items (.member .root key)) rest := rfl
  rw [operand, with_accessors, hItems, accessors_ends hRest]
  rfl

/-! ## Predicates in a row -/

/-- The predicates behind the first, each with its operator before it. -/
def chained (o : Op) (parts : List (List Token)) : List Token := parts.flatMap (.op o :: ·)

theorem chained_cons (o : Op) (part : List Token) (parts : List (List Token)) :
    chained o (part :: parts) = .op o :: (part ++ chained o parts) := rfl

section Chains

variable {o : Op} {join : Predicate → Predicate → Predicate}

/-- What a part of a chain is followed by: the next operator, or the end. -/
theorem loose_chained (hLevel : o.level < 3) {parts : List (List Token)} {rest : List Token}
    (hRest : Closed rest) : Loose (chained o parts ++ rest) := by
  cases parts with
  | nil => exact .inl hRest
  | cons part parts => exact .inr ⟨o, _, rfl, hLevel⟩

/-- A part of a chain is as much as binds more tightly than the chain. -/
theorem climb_part {n : Nat} {path : Path} {parts : List (List Token)} {rest : List Token}
    (hFuel : 1 ≤ n) (hRest : Closed rest) :
    climb n (o.level + 1) path (chained o parts ++ rest) = some (path, chained o parts ++ rest) := by
  cases parts with
  | nil => exact climb_closed hFuel hRest
  | cons part parts => exact climb_loose hFuel (Nat.lt_succ_self _)

/-- A chain of predicates is taken from the left. -/
theorem climb_chained (hLevel : 1 ≤ o.level ∧ o.level < 3)
    (hJoin : ∀ p q, combine o (.predicate p) (.predicate q) = some (.predicate (join p q)))
    {rest : List Token} (hRest : Closed rest) {parts : List (List Token)} {predicates : List Predicate}
    (hParts : List.Forall₂ (fun part p => Leads part (.predicate p)) parts predicates) :
    ∀ (left : Predicate) (n : Nat), 3 * (chained o parts).length + 1 ≤ n →
      climb n 1 (.predicate left) (chained o parts ++ rest) =
        some (.predicate (predicates.foldl join left), rest) := by
  induction hParts with
  | nil =>
      intro left n hFuel
      exact climb_closed (by omega) hRest
  | @cons part p parts predicates hPart hParts ih =>
      intro left n hFuel
      rw [chained_cons, List.length_cons, List.length_append] at hFuel
      obtain ⟨m, rfl⟩ : ∃ m, n = m + 1 := ⟨n - 1, by omega⟩
      obtain ⟨k, hk, _, hLeads⟩ := hPart (chained o parts ++ rest) m (o.level + 1) (by omega)
        (loose_chained hLevel.2 hRest) (by omega)
      show climb (m + 1) 1 (.predicate left) (.op o :: (part ++ chained o parts ++ rest)) = _
      rw [climb, if_pos hLevel.1, List.append_assoc, hLeads, climb_part (by omega) hRest,
        Option.bind_some]
      show ((combine o (.predicate left) (.predicate p)).bind fun whole =>
        climb m 1 whole (chained o parts ++ rest)) = _
      rw [hJoin, Option.bind_some]
      exact ih (join left p) m (by omega)

/-- Predicates in a row, from the first. -/
theorem parses_chain (hLevel : 1 ≤ o.level ∧ o.level < 3)
    (hJoin : ∀ p q, combine o (.predicate p) (.predicate q) = some (.predicate (join p q)))
    {first : List Token} {p : Predicate} {parts : List (List Token)} {predicates : List Predicate}
    (hFirst : Leads first (.predicate p))
    (hParts : List.Forall₂ (fun part p => Leads part (.predicate p)) parts predicates) :
    ParsesWhole (first ++ chained o parts) (.predicate (predicates.foldl join p)) := by
  intro rest n hRest hFuel
  rw [List.length_append] at hFuel
  obtain ⟨m, hm, _, hLeads⟩ := hFirst (chained o parts ++ rest) n 1 (by omega)
    (loose_chained hLevel.2 hRest) (by omega)
  rw [List.append_assoc, hLeads]
  exact climb_chained hLevel hJoin hRest hParts p m (by omega)

end Chains

/-- A text whose words parse as a whole stands for it. -/
theorem parse_of_whole {closes : List Char → Prop} {text : List Char} {tokens : List Token} {path : Path}
    (hReads : Scanning.Reads is_blank read_token closes text tokens) (hNil : closes [])
    (hParses : ParsesWhole tokens path) : parse text = some path := by
  have hPath := hParses [] (3 * tokens.length + 2) (.inl rfl) (Nat.le_refl _)
  rw [List.append_nil] at hPath
  rw [parse, words, Scanning.words_of_reads hReads hNil, Option.bind_some, hPath, Option.bind_some]
  exact if_pos rfl

end JsonPath.Query
