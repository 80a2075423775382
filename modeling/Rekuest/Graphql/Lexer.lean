import Mathlib.Data.List.TakeWhile
import Mathlib.Data.List.Basic

/-!
# The tokens of a GraphQL document

A document is cut into punctuators, names, numbers and strings.  Spaces, line ends, commas, byte
order marks and comments stand between them and mean nothing; a comment runs from `#` to the end
of its line, which a line feed or a carriage return makes.  A document's definitions begin at its
first token and behind every brace that closes one.
-/

namespace Graphql

inductive Kind
  | punctuator (text : List Char)
  | name (text : List Char)
  | number
  | string
  deriving DecidableEq

structure Token where
  offset : Nat
  kind : Kind
  deriving DecidableEq

def source_character (c : Char) : Bool := c ∈ ['\t', '\n', '\r'] || 32 ≤ c.toNat

def line_end (c : Char) : Bool := c = '\n' || c = '\r'

def ignored (c : Char) : Bool := c ∈ [' ', '\t', '\n', '\r', ',', '\ufeff']

def name_start (c : Char) : Bool := c.isAlpha || c = '_'

def name_continue (c : Char) : Bool := c.isAlphanum || c = '_'

def hex (c : Char) : Bool := c.isDigit || ('a' ≤ c && c ≤ 'f' : Bool) || ('A' ≤ c && c ≤ 'F' : Bool)

/-! ## Strings and numbers -/

/-- How long what is left of a string is, with its quote. -/
def string_size : List Char → Option Nat
  | [] => none
  | '\x5c' :: 'u' :: a :: b :: c :: d :: rest =>
      if hex a && hex b && hex c && hex d then (string_size rest).map (· + 6) else none
  | '\x5c' :: e :: rest =>
      if e ∈ ['\x22', '\x5c', '/', 'b', 'f', 'n', 'r', 't'] then (string_size rest).map (· + 2) else none
  | c :: rest =>
      if c = '\x22' then some 1
      else if line_end c || c = '\x5c' then none
      else (string_size rest).map (· + 1)

/-- How long what is left of a block string is, with its three quotes. -/
def block_size : List Char → Option Nat
  | [] => none
  | '\x5c' :: '\x22' :: '\x22' :: '\x22' :: rest => (block_size rest).map (· + 4)
  | '\x22' :: '\x22' :: '\x22' :: _ => some 3
  | _ :: rest => (block_size rest).map (· + 1)

/-- The digits of a fraction, with their point. -/
def fraction_size : List Char → Nat
  | '.' :: rest => if (rest.takeWhile Char.isDigit).isEmpty then 0 else 1 + (rest.takeWhile Char.isDigit).length
  | _ => 0

/-- An exponent, with its letter and its sign. -/
def exponent_size : List Char → Nat
  | c :: rest =>
      if c = 'e' || c = 'E' then
        let sign := if rest.head?.any fun c => c = '+' || c = '-' then 1 else 0
        let digits := ((rest.drop sign).takeWhile Char.isDigit).length
        if digits = 0 then 0 else 1 + sign + digits
      else 0
  | [] => 0

def number_size (text : List Char) : Option Nat :=
  let sign := if text.head? = some '-' then 1 else 0
  let whole := (text.drop sign).takeWhile Char.isDigit
  let point := fraction_size (text.drop (sign + whole.length))
  let power := exponent_size (text.drop (sign + whole.length + point))
  let size := sign + whole.length + point + power
  if whole = [] ∨ (whole.head? = some '0' ∧ whole ≠ ['0']) then none
  else if (text.drop size).head?.any fun c => c.isDigit || c = '.' || name_start c then none
  else some size

/-! ## Tokens -/

/-- The token at the front of a text, and how long it is. -/
def token : List Char → Option (Kind × Nat)
  | [] => none
  | c :: rest =>
      if name_start c then
        let word := c :: rest.takeWhile name_continue
        some (.name word, word.length)
      else if c = '\x22' then
        if ['\x22', '\x22'].isPrefixOf rest then (block_size (rest.drop 2)).map fun size => (.string, size + 3)
        else (string_size rest).map fun size => (.string, size + 1)
      else if c ∈ ['!', '$', '&', '(', ')', ':', '=', '@', '[', ']', '\x7b', '|', '\x7d'] then
        some (.punctuator [c], 1)
      else if ['.', '.', '.'].isPrefixOf (c :: rest) then some (.punctuator ['.', '.', '.'], 3)
      else (number_size (c :: rest)).map fun size => (.number, size)

/-- The tokens of a text; a round takes a character at least. -/
def lex_from : Nat → Nat → List Char → Option (List Token)
  | _, _, [] => some []
  | 0, _, _ :: _ => none
  | n + 1, offset, c :: rest =>
      if ignored c then lex_from n (offset + 1) rest
      else if c = '#' then
        let size := (rest.takeWhile fun c => !line_end c).length
        lex_from n (offset + 1 + size) (rest.drop size)
      else
        match token (c :: rest) with
        | none => none
        | some (kind, size) =>
            (lex_from n (offset + size) ((c :: rest).drop size)).map (⟨offset, kind⟩ :: ·)

/-- The tokens of a document, if it has only tokens and what is ignored. -/
def lex (document : List Char) : Option (List Token) :=
  if document.all source_character then lex_from document.length 0 document else none

def opens (t : Token) : Bool := t.kind ∈ [.punctuator ['('], .punctuator ['['], .punctuator ['\x7b']]

def closes (t : Token) : Bool := t.kind ∈ [.punctuator [')'], .punctuator [']'], .punctuator ['\x7d']]

/-- The tokens that definitions begin with: how many brackets are open, and whether one begins. -/
def definitions_from : Nat → Bool → List Token → List Token
  | _, _, [] => []
  | depth, begins, t :: rest =>
      let inside := if opens t then depth + 1 else if closes t then depth - 1 else depth
      let later := definitions_from inside (t.kind = .punctuator ['\x7d'] && inside = 0) rest
      if begins then t :: later else later

def definitions (toks : List Token) : List Token := definitions_from 0 true toks

/-! ## What stands before the first token -/

/-- What is ignored. -/
inductive Trivia : List Char → Prop
  | nil : Trivia []
  | ignored {c : Char} {l : List Char} : ignored c = true → Trivia l → Trivia (c :: l)
  | comment {body l : List Char} : (∀ c ∈ body, line_end c = false) → Trivia l → Trivia ('#' :: (body ++ l))

theorem take_takeWhile (p : Char → Bool) (l : List Char) : l.take (l.takeWhile p).length = l.takeWhile p :=
  (List.prefix_iff_eq_take.1 (List.takeWhile_prefix p)).symm

/-- Before the first token stands what is ignored. -/
theorem lex_from_first {n : Nat} : ∀ {offset : Nat} {text : List Char} {t : Token} {later : List Token},
    lex_from n offset text = some (t :: later) →
      ∃ before rest size, text = before ++ rest ∧ Trivia before ∧ t.offset = offset + before.length ∧
        token rest = some (t.kind, size) := by
  induction n with
  | zero =>
      intro offset text t later h
      cases text with
      | nil => cases h
      | cons c rest => cases h
  | succ n ih =>
      intro offset text t later h
      cases text with
      | nil => cases h
      | cons c rest =>
          unfold lex_from at h
          by_cases hIgnored : ignored c = true
          · rw [if_pos hIgnored] at h
            obtain ⟨before, after, size, hText, hTrivia, hOffset, hToken⟩ := ih h
            refine ⟨c :: before, after, size, by rw [hText]; rfl, .ignored hIgnored hTrivia, ?_, hToken⟩
            rw [hOffset, List.length_cons]
            omega
          · rw [if_neg hIgnored] at h
            by_cases hComment : c = '#'
            · rw [if_pos hComment] at h
              dsimp only at h
              generalize hSize : (rest.takeWhile fun c => !line_end c).length = length at h
              obtain ⟨before, after, size, hText, hTrivia, hOffset, hToken⟩ := ih h
              have hBody : rest.take length = rest.takeWhile fun c => !line_end c := by
                rw [← hSize, take_takeWhile]
              have hLength : (rest.take length).length = length := by rw [hBody, hSize]
              refine ⟨'#' :: (rest.take length ++ before), after, size, ?_, .comment ?_ hTrivia, ?_, hToken⟩
              · rw [hComment, List.cons_append, List.append_assoc, ← hText, List.take_append_drop]
              · intro d hd
                rw [hBody] at hd
                have hNot := List.mem_takeWhile_imp hd
                rw [Bool.not_eq_true'] at hNot
                exact hNot
              · rw [hOffset, List.length_cons, List.length_append, hLength]
                omega
            · rw [if_neg hComment] at h
              cases hToken : token (c :: rest) with
              | none =>
                  rw [hToken] at h
                  cases h
              | some found =>
                  obtain ⟨kind, size⟩ := found
                  rw [hToken] at h
                  obtain ⟨toks, -, hCons⟩ := Option.map_eq_some_iff.1 h
                  rw [← (List.cons.inj hCons).1]
                  exact ⟨[], c :: rest, size, rfl, .nil, rfl, hToken⟩

/-- A name is as long as it can be. -/
theorem token_name {text word : List Char} {size : Nat} (h : token text = some (.name word, size)) :
    ∃ rest, text = word ++ rest ∧ rest.head?.any name_continue = false := by
  cases text with
  | nil => cases h
  | cons c rest =>
      unfold token at h
      dsimp only at h
      by_cases hName : name_start c = true
      · rw [if_pos hName] at h
        have hWord : c :: rest.takeWhile name_continue = word := by
          injection (Prod.mk.inj (Option.some.inj h)).1
        rw [← hWord]
        refine ⟨rest.dropWhile name_continue, ?_, ?_⟩
        · rw [List.cons_append, List.takeWhile_append_dropWhile]
        · cases hRest : rest.dropWhile name_continue with
          | nil => rfl
          | cons d later =>
              have hNot := @List.head_dropWhile_not _ name_continue rest (by rw [hRest]; nofun)
              simp only [hRest, List.head_cons] at hNot
              exact hNot
      · rw [if_neg hName] at h
        split at h
        · split at h
          · obtain ⟨_, -, hKind⟩ := Option.map_eq_some_iff.1 h
            cases hKind
          · obtain ⟨_, -, hKind⟩ := Option.map_eq_some_iff.1 h
            cases hKind
        · split at h
          · cases h
          · split at h
            · cases h
            · obtain ⟨_, -, hKind⟩ := Option.map_eq_some_iff.1 h
              cases hKind

end Graphql
