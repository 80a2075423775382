import Rekuest.Ports.Python

/-!
# The tokens of an expression

An expression of a blok's source is cut into names, numbers, strings and operators.  Offsets
count characters into the whole source; a refusal names its row of the diagnostic table, its
place, and the fields of its message.
-/

namespace Rekuest.Bsx

open Rekuest.Ports

/-- A source that is refused. -/
structure BsxError where
  code : String
  offset : Nat
  fields : List (String × String) := []
  deriving DecidableEq

/-- A refusal of what is written. -/
def syntax_error (offset : Nat) (detail : String) : BsxError := ⟨"expr.syntax", offset, [("detail", detail)]⟩

inductive TokenKind
  | name
  | number
  | str
  | op
  | done
  deriving DecidableEq

structure Token where
  kind : TokenKind
  value : String
  offset : Nat
  literal : Value := .null

def OPERATORS : List String := [
  "===", "!==", "=>", "==", "!=", ">=", "<=", "&&", "||", "??", "?.", "**", "(", ")", "[", "]",
  "\x7b", "\x7d", ",", ":", ".", "?", "!", ">", "<", "=", ";", "+", "-", "*", "/", "%", "&", "|", "^",
  "~", "\x60"]

def is_name_start (c : Char) : Bool := c.isAlpha || c = '_'

def is_name_part (c : Char) : Bool := c.isAlphanum || c = '_'

def is_space (c : Char) : Bool := c = ' ' || c = '\t' || c = '\r' || c = '\n'

def is_hex (c : Char) : Bool :=
  c.isDigit || ('a' ≤ c && c ≤ 'f' : Bool) || ('A' ≤ c && c ≤ 'F' : Bool)

def is_quote (c : Char) : Bool := c = '\x22' || c = '\x27'

/-- The character after a backslash, and what both stand for. -/
def ESCAPES : List (Char × Char) := [
  ('\x5c', '\x5c'), ('\x22', '\x22'), ('\x27', '\x27'), ('n', '\n'), ('t', '\t'), ('r', '\r'),
  ('/', '/'), ('b', '\x08'), ('f', '\x0c')]

def hex_digit (c : Char) : Nat :=
  if c.isDigit then c.toNat - '0'.toNat
  else if ('a' ≤ c && c ≤ 'f' : Bool) then c.toNat - 'a'.toNat + 10
  else c.toNat - 'A'.toNat + 10

/-- A code point; one that is no character reads as the replacement character. -/
def from_u32 (code : Nat) : Char := if code.isValidChar then Char.ofNat code else '\ufffd'

section

-- Reading a double; one that is no finite number reads as none.
variable (f64 : List Char → Option Dyadic)

/-- The digits of a fraction, with their point. -/
def fraction : List Char → Nat
  | '.' :: d :: rest => if d.isDigit then 1 + ((d :: rest).takeWhile Char.isDigit).length else 0
  | _ => 0

/-- An exponent, with its letter and its sign. -/
def exponent : List Char → Nat
  | c :: rest =>
      if c = 'e' || c = 'E' then
        let sign := if rest.head?.any fun c => c = '+' || c = '-' then 1 else 0
        let digits := ((rest.drop sign).takeWhile Char.isDigit).length
        if digits = 0 then 0 else 1 + sign + digits
      else 0
  | [] => 0

/-- A number at the front of a text: how long it is, and what it is. -/
def number (start : Nat) (text : List Char) : Except BsxError (Nat × Value) :=
  let whole := (text.takeWhile Char.isDigit).length
  if text.head? = some '0' ∧ 1 < whole then
    .error (syntax_error start "a number has no leading zeros")
  else
    let point := fraction (text.drop whole)
    let power := exponent (text.drop (whole + point))
    let size := whole + point + power
    let written := text.take size
    if (text.drop size).head?.any is_name_part then
      .error (syntax_error start (repr_str (String.ofList (text.take (size + 1))) ++ " is not a number"))
    else
      let n := Nat.ofDigitChars 10 written 0
      let value :=
        if point = 0 ∧ power = 0 ∧ n < 2 ^ 64 then some (Value.int n) else (f64 written).map Value.float
      match value with
      | some value => .ok (size, value)
      | none => .error (syntax_error start (repr_str (String.ofList written) ++ " is not a number"))

/-- What is left of a string, up to its quote: how long it is, and what it stands for. -/
def string_from (quote : Char) (start : Nat) : Nat → List Char → List Char → Except BsxError (Nat × List Char)
  | _, _, [] => .error (syntax_error start "a string is never closed")
  | size, out, c :: rest =>
      if c = quote then .ok (size + 1, out)
      else if c = '\n' then .error (syntax_error start "a string is never closed on its line")
      else if c = '\x5c' then
        match rest with
        | [] => .error (syntax_error (start + size) "unknown escape \\")
        | 'u' :: a :: b :: c :: d :: rest =>
            if is_hex a && is_hex b && is_hex c && is_hex d then
              let code := ((hex_digit a * 16 + hex_digit b) * 16 + hex_digit c) * 16 + hex_digit d
              string_from quote start (size + 6) (out ++ [from_u32 code]) rest
            else .error (syntax_error (start + size) "\\u takes four hex digits")
        | 'u' :: _ => .error (syntax_error (start + size) "\\u takes four hex digits")
        | e :: rest =>
            match ESCAPES.find? (·.1 = e) with
            | some (_, replaced) => string_from quote start (size + 2) (out ++ [replaced]) rest
            | none => .error (syntax_error (start + size) ("unknown escape \\" ++ String.ofList [e]))
      else string_from quote start (size + 1) (out ++ [c]) rest

/-- The token at the front of a text, and how long it is. -/
def token_at (index : Nat) (text : List Char) : Except BsxError (Token × Nat) :=
  match text with
  | [] => .error (syntax_error index "unexpected the end")
  | c :: rest =>
      if is_name_start c then
        let size := 1 + (rest.takeWhile is_name_part).length
        .ok (⟨.name, String.ofList (text.take size), index, .null⟩, size)
      else if c.isDigit then
        match number f64 index text with
        | .error e => .error e
        | .ok (size, value) => .ok (⟨.number, String.ofList (text.take size), index, value⟩, size)
      else if is_quote c then
        match string_from c index 1 [] rest with
        | .error e => .error e
        | .ok (size, value) =>
            .ok (⟨.str, String.ofList (text.take size), index, .string (String.ofList value)⟩, size)
      else
        match OPERATORS.find? fun op => op.toList.isPrefixOf text with
        | none => .error (syntax_error index ("unexpected " ++ repr_str (String.ofList [c])))
        | some op =>
            if op = "\x60" then
              .error (syntax_error index
                "template literals are not supported; use text children or str.template")
            else .ok (⟨.op, op, index, .null⟩, op.length)

/-- The tokens of a text; every round takes a character at least, and the number bounds them. -/
def tokens_from : Nat → Nat → List Char → Except BsxError (List Token)
  | 0, index, _ => .ok [⟨.done, "", index, .null⟩]
  | _ + 1, index, [] => .ok [⟨.done, "", index, .null⟩]
  | n + 1, index, c :: rest =>
      if is_space c then tokens_from n (index + 1) rest
      else
        match token_at f64 index (c :: rest) with
        | .error e => .error e
        | .ok (token, size) =>
            match tokens_from n (index + size) ((c :: rest).drop size) with
            | .error e => .error e
            | .ok tokens => .ok (token :: tokens)

/-- `Lexer::tokens` -/
def tokens (base : Nat) (text : List Char) : Except BsxError (List Token) :=
  tokens_from f64 text.length base text

/-- What a token is, by its first character. -/
theorem token_at_cases {index size : Nat} {c : Char} {rest : List Char} {token : Token}
    (h : token_at f64 index (c :: rest) = .ok (token, size)) :
    (is_name_start c = true ∧ token.kind = .name ∧ size = 1 + (rest.takeWhile is_name_part).length) ∨
      (c.isDigit = true ∧ token.kind = .number ∧ ∃ value, number f64 index (c :: rest) = .ok (size, value)) ∨
      (is_quote c = true ∧ token.kind = .str ∧ ∃ value, string_from c index 1 [] rest = .ok (size, value)) ∨
      (is_quote c = false ∧ token.kind = .op ∧
        OPERATORS.find? (fun op => op.toList.isPrefixOf (c :: rest)) = some token.value ∧
        token.value ≠ "\x60" ∧ size = token.value.length) := by
  unfold token_at at h
  dsimp only at h
  by_cases hName : is_name_start c = true
  · rw [if_pos hName] at h
    obtain ⟨hToken, hSize⟩ := Prod.mk.inj (Except.ok.inj h)
    rw [← hToken]
    exact .inl ⟨hName, rfl, hSize.symm⟩
  · rw [if_neg hName] at h
    by_cases hDigit : c.isDigit = true
    · rw [if_pos hDigit] at h
      cases hNumber : number f64 index (c :: rest) with
      | error e =>
          rw [hNumber] at h
          cases h
      | ok found =>
          rw [hNumber] at h
          obtain ⟨hToken, hSize⟩ := Prod.mk.inj (Except.ok.inj h)
          rw [← hToken, ← hSize]
          exact .inr (.inl ⟨hDigit, rfl, found.2, rfl⟩)
    · rw [if_neg hDigit] at h
      by_cases hQuote : is_quote c = true
      · rw [if_pos hQuote] at h
        cases hString : string_from c index 1 [] rest with
        | error e =>
            rw [hString] at h
            cases h
        | ok found =>
            rw [hString] at h
            obtain ⟨hToken, hSize⟩ := Prod.mk.inj (Except.ok.inj h)
            rw [← hToken, ← hSize]
            exact .inr (.inr (.inl ⟨hQuote, rfl, found.2, rfl⟩))
      · rw [if_neg hQuote] at h
        cases hOp : OPERATORS.find? fun op => op.toList.isPrefixOf (c :: rest) with
        | none =>
            rw [hOp] at h
            cases h
        | some op =>
            rw [hOp] at h
            dsimp only at h
            by_cases hTick : op = "\x60"
            · rw [if_pos hTick] at h
              cases h
            · rw [if_neg hTick] at h
              obtain ⟨hToken, hSize⟩ := Prod.mk.inj (Except.ok.inj h)
              rw [← hToken]
              exact .inr (.inr (.inr ⟨Bool.eq_false_iff.2 hQuote, rfl, rfl, hTick, hSize.symm⟩))

/-- The last token, and only it, is the end. -/
theorem tokens_from_done {n : Nat} : ∀ {index : Nat} {text : List Char} {toks : List Token},
    tokens_from f64 n index text = .ok toks →
      ∃ l last, toks = l ++ [⟨.done, "", last, .null⟩] ∧ ∀ t ∈ l, t.kind ≠ .done := by
  induction n with
  | zero =>
      intro index text toks h
      exact ⟨[], index, (Except.ok.inj h).symm, nofun⟩
  | succ n ih =>
      intro index text toks h
      cases text with
      | nil => exact ⟨[], index, (Except.ok.inj h).symm, nofun⟩
      | cons c rest =>
          unfold tokens_from at h
          by_cases hSpace : is_space c = true
          · rw [if_pos hSpace] at h
            exact ih h
          · rw [if_neg hSpace] at h
            cases hToken : token_at f64 index (c :: rest) with
            | error e =>
                rw [hToken] at h
                cases h
            | ok found =>
                obtain ⟨token, size⟩ := found
                rw [hToken] at h
                dsimp only at h
                cases hRest : tokens_from f64 n (index + size) ((c :: rest).drop size) with
                | error e =>
                    rw [hRest] at h
                    cases h
                | ok later =>
                    rw [hRest] at h
                    obtain ⟨l, last, hLater, hNone⟩ := ih hRest
                    have hKind : token.kind ≠ .done := by
                      rcases token_at_cases f64 hToken with ⟨-, hIs, -⟩ | ⟨-, hIs, -⟩ | ⟨-, hIs, -⟩ | ⟨-, hIs, -⟩
                      all_goals
                        rw [hIs]
                        nofun
                    refine ⟨token :: l, last, ?_, List.forall_mem_cons.2 ⟨hKind, hNone⟩⟩
                    rw [← Except.ok.inj h, hLater]
                    rfl

end

end Rekuest.Bsx
