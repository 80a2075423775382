import Rekuest.JsonPath.Text

/-!
# The grammar of a JSONPath

The tree a list of words stands for, by the precedences of PostgreSQL's grammar: members
and methods first, then the minus of one operand, then `* / %`, `+ -`, the comparisons,
`&&` and last `||`, each of them from the left.  Comparisons and arithmetic take numbers,
and `&&` and `||` take predicates, so no comparison is compared.

Words parse as a tree if they do so before anything that does not go on with it.
-/

namespace JsonPath

inductive Tree
  | number (n : Numeral)
  | root
  | variable (name : List Char)
  | member (of : Tree) (key : List Char)
  | method (of : Tree) (name : List Char)
  | neg (of : Tree)
  | binary (o : Op) (left right : Tree)
  deriving DecidableEq

namespace Op

/-- How tightly an operator binds. -/
def level : Op → Nat
  | or => 1
  | and => 2
  | gt | gte | lt | lte => 3
  | add | sub => 4
  | mul | div | mod => 5

/-- An operator of predicates. -/
def combines : Op → Bool
  | or | and => true
  | _ => false

/-- An operator that gives a predicate. -/
def decides (o : Op) : Bool := o.level ≤ 3

end Op

/-- A comparison, or several joined. -/
def Tree.is_predicate : Tree → Bool
  | binary o _ _ => o.decides
  | _ => false

/-- Predicates for `&&` and `||`, and numbers for the others. -/
def combine (o : Op) (left right : Tree) : Option Tree :=
  if left.is_predicate = o.combines ∧ right.is_predicate = o.combines then
    some (.binary o left right)
  else none

/-- The methods without arguments that a number has. -/
def methods : List (List Char) :=
  ["abs".toList, "floor".toList, "ceiling".toList, "double".toList, "size".toList, "type".toList]

/-- The members and methods behind an operand. -/
def accessors : Tree → List Token → Option (Tree × List Token)
  | of, .dot :: .word name :: .left :: .right :: tokens =>
      if name ∈ methods then accessors (.method of name) tokens else none
  | of, .dot :: .word name :: tokens => accessors (.member of name) tokens
  | of, .dot :: .string key :: tokens => accessors (.member of key) tokens
  | _, .dot :: _ => none
  | of, tokens => some (of, tokens)

mutual

/-- An expression whose operators bind at least as tightly as the level; the first number
bounds the way down. -/
def expression : Nat → Nat → List Token → Option (Tree × List Token)
  | 0, _, _ => none
  | n + 1, level, tokens =>
      (operand n tokens).bind fun (left, tokens) => climb n level left tokens

def operand : Nat → List Token → Option (Tree × List Token)
  | n + 1, .op .sub :: tokens =>
      (operand n tokens).bind fun (of, tokens) =>
        if of.is_predicate then none else some (.neg of, tokens)
  | n + 1, .left :: tokens =>
      (expression n 1 tokens).bind fun (inner, tokens) =>
        match tokens with
        | .right :: tokens => accessors inner tokens
        | _ => none
  | _ + 1, .number n :: tokens => accessors (.number n) tokens
  | _ + 1, .root :: tokens => accessors .root tokens
  | _ + 1, .variable name :: tokens => accessors (.variable name) tokens
  | _, _ => none

/-- The operators behind a left side, as long as they bind tightly enough. -/
def climb : Nat → Nat → Tree → List Token → Option (Tree × List Token)
  | 0, _, _, _ => none
  | n + 1, level, left, .op o :: tokens =>
      if level ≤ o.level then
        (expression n (o.level + 1) tokens).bind fun (right, tokens) =>
          (combine o left right).bind fun whole => climb n level whole tokens
      else some (left, .op o :: tokens)
  | _ + 1, _, left, tokens => some (left, tokens)

end

/-- The tree of a text, where it is an expression or a predicate. -/
def parse (text : List Char) : Option Tree :=
  (words text).bind fun tokens =>
    (expression (2 * tokens.length + 1) 1 tokens).bind fun (tree, rest) =>
      if rest = [] then some tree else none

/-! ## Words that parse as a tree -/

/-- Nothing that an operand goes on with. -/
def Ends (rest : List Token) : Prop :=
  rest = [] ∨ (∃ tokens, rest = .right :: tokens) ∨ ∃ o tokens, rest = .op o :: tokens

/-- Words that parse as an operand. -/
def ParsesOperand (tokens : List Token) (tree : Tree) : Prop :=
  ∀ rest n, Ends rest → 2 * tokens.length ≤ n → operand n (tokens ++ rest) = some (tree, rest)

/-- Words that parse as all that stands between parentheses, or as the whole. -/
def ParsesWhole (tokens : List Token) (tree : Tree) : Prop :=
  ∀ rest n, rest = [] ∨ (∃ more, rest = .right :: more) → 2 * tokens.length + 1 ≤ n →
    expression n 1 (tokens ++ rest) = some (tree, rest)

theorem accessors_ends {of : Tree} {rest : List Token} (hRest : Ends rest) :
    accessors of rest = some (of, rest) := by
  obtain rfl | ⟨more, rfl⟩ | ⟨o, more, rfl⟩ := hRest <;> simp [accessors]

theorem ends_right (tokens : List Token) : Ends (.right :: tokens) := .inr (.inl ⟨tokens, rfl⟩)

theorem ends_op (o : Op) (tokens : List Token) : Ends (.op o :: tokens) := .inr (.inr ⟨o, tokens, rfl⟩)

/-- What closes a whole ends each level of it. -/
theorem climb_closed {n level : Nat} {left : Tree} {rest : List Token} (hFuel : 0 < n)
    (hRest : rest = [] ∨ ∃ more, rest = .right :: more) :
    climb n level left rest = some (left, rest) := by
  obtain ⟨m, rfl⟩ := Nat.exists_eq_succ_of_ne_zero (Nat.pos_iff_ne_zero.1 hFuel)
  obtain rfl | ⟨more, rfl⟩ := hRest <;> simp [climb]

/-- An operator that binds less tightly ends a level. -/
theorem climb_loose {n level : Nat} {left : Tree} {o : Op} {tokens : List Token} (hFuel : 0 < n)
    (hLevel : o.level < level) : climb n level left (.op o :: tokens) = some (left, .op o :: tokens) := by
  obtain ⟨m, rfl⟩ := Nat.exists_eq_succ_of_ne_zero (Nat.pos_iff_ne_zero.1 hFuel)
  rw [climb, if_neg (by omega)]

theorem ends_of_closed {rest : List Token} (hRest : rest = [] ∨ ∃ more, rest = .right :: more) :
    Ends rest := by
  obtain hNil | hRight := hRest
  · exact .inl hNil
  · exact .inr (.inl hRight)

theorem parses_positive {tokens : List Token} {tree : Tree} (h : ParsesOperand tokens tree) :
    0 < tokens.length := by
  cases tokens with
  | nil =>
      have hNone := h [] 0 (.inl rfl) (Nat.le_refl _)
      simp [operand] at hNone
  | cons token tokens => simp

/-- An operand is a whole. -/
theorem ParsesOperand.whole {tokens : List Token} {tree : Tree} (h : ParsesOperand tokens tree) :
    ParsesWhole tokens tree := by
  intro rest n hRest hFuel
  have hPositive := parses_positive h
  obtain ⟨m, rfl⟩ := Nat.exists_eq_succ_of_ne_zero (show n ≠ 0 by omega)
  rw [expression, h rest m (ends_of_closed hRest) (by omega), Option.bind_some]
  exact climb_closed (by omega) hRest

/-- Two operands and an operator between them. -/
theorem ParsesOperand.binary {o : Op} {tokens tokens' : List Token} {left right : Tree}
    (hLeft : ParsesOperand tokens left) (hRight : ParsesOperand tokens' right)
    (hCombine : combine o left right = some (.binary o left right)) :
    ParsesWhole (tokens ++ .op o :: tokens') (.binary o left right) := by
  intro rest n hRest hFuel
  have hPositive := parses_positive hLeft
  rw [List.length_append, List.length_cons] at hFuel
  have hLevel : 1 ≤ o.level := by cases o <;> decide
  obtain ⟨m, rfl⟩ : ∃ m, n = m + 4 := ⟨n - 4, by omega⟩
  rw [expression, List.append_assoc, List.cons_append, hLeft _ _ (ends_op o _) (by omega),
    Option.bind_some]
  show climb (m + 3) 1 left (.op o :: (tokens' ++ rest)) = _
  rw [climb, if_pos hLevel, expression, hRight _ _ (ends_of_closed hRest) (by omega),
    Option.bind_some]
  show ((climb (m + 1) (o.level + 1) right rest).bind fun (right, tokens) =>
    (combine o left right).bind fun whole => climb (m + 2) 1 whole tokens) = _
  rw [climb_closed (by omega) hRest, Option.bind_some]
  show ((combine o left right).bind fun whole => climb (m + 2) 1 whole rest) = _
  rw [hCombine, Option.bind_some]
  exact climb_closed (by omega) hRest

/-- A whole between parentheses is an operand. -/
theorem ParsesWhole.parens {tokens : List Token} {tree : Tree} (h : ParsesWhole tokens tree) :
    ParsesOperand (.left :: (tokens ++ [.right])) tree := by
  intro rest n hRest hFuel
  rw [List.length_cons, List.length_append, List.length_singleton] at hFuel
  obtain ⟨m, rfl⟩ : ∃ m, n = m + 1 := ⟨n - 1, by omega⟩
  have hInner := h (.right :: rest) m (.inr ⟨rest, rfl⟩) (by omega)
  rw [List.cons_append, List.append_assoc, List.singleton_append, operand, hInner, Option.bind_some]
  exact accessors_ends hRest

/-- A method of what stands between parentheses. -/
theorem ParsesWhole.method {tokens : List Token} {tree : Tree} {name : List Char}
    (h : ParsesWhole tokens tree) (hName : name ∈ methods) :
    ParsesOperand (.left :: (tokens ++ [.right, .dot, .word name, .left, .right])) (.method tree name) := by
  intro rest n hRest hFuel
  rw [List.length_cons, List.length_append] at hFuel
  simp only [List.length_cons, List.length_nil] at hFuel
  obtain ⟨m, rfl⟩ : ∃ m, n = m + 1 := ⟨n - 1, by omega⟩
  have hInner := h (.right :: .dot :: .word name :: .left :: .right :: rest) m (.inr ⟨_, rfl⟩) (by omega)
  have hSplit : .left :: (tokens ++ [.right, .dot, .word name, .left, .right]) ++ rest =
      Token.left :: (tokens ++ .right :: .dot :: .word name :: .left :: .right :: rest) := by simp
  rw [hSplit, operand, hInner, Option.bind_some]
  show accessors tree (.dot :: .word name :: .left :: .right :: rest) = _
  rw [accessors, if_pos hName]
  exact accessors_ends hRest

/-- The minus of a number. -/
theorem ParsesOperand.minus {tokens : List Token} {tree : Tree} (h : ParsesOperand tokens tree)
    (hNumber : tree.is_predicate = false) : ParsesOperand (.op .sub :: tokens) (.neg tree) := by
  intro rest n hRest hFuel
  rw [List.length_cons] at hFuel
  obtain ⟨m, rfl⟩ : ∃ m, n = m + 1 := ⟨n - 1, by omega⟩
  rw [List.cons_append, operand, h rest m hRest (by omega), Option.bind_some]
  exact if_neg (by rw [hNumber]; exact Bool.false_ne_true)

theorem parses_number (n : Numeral) : ParsesOperand [.number n] (.number n) := by
  intro rest m hRest hFuel
  obtain ⟨m, rfl⟩ : ∃ k, m = k + 1 := ⟨m - 1, by simp at hFuel; omega⟩
  rw [List.singleton_append, operand]
  exact accessors_ends hRest

/-- A member by a quoted key, whatever the key. -/
theorem parses_member (key : List Char) :
    ParsesOperand [.root, .dot, .string key] (.member .root key) := by
  intro rest m hRest hFuel
  obtain ⟨m, rfl⟩ : ∃ k, m = k + 1 := ⟨m - 1, by simp at hFuel; omega⟩
  show operand (m + 1) (.root :: .dot :: .string key :: rest) = _
  rw [operand, accessors]
  exact accessors_ends hRest

theorem accessors_word {of : Tree} {name : List Char} {rest : List Token} (hRest : Ends rest) :
    accessors of (.dot :: .word name :: rest) = some (.member of name, rest) := by
  obtain rfl | ⟨more, rfl⟩ | ⟨o, more, rfl⟩ := hRest <;> simp [accessors]

theorem parses_variable (name field : List Char) :
    ParsesOperand [.variable name, .dot, .word field] (.member (.variable name) field) := by
  intro rest m hRest hFuel
  obtain ⟨m, rfl⟩ : ∃ k, m = k + 1 := ⟨m - 1, by simp at hFuel; omega⟩
  show operand (m + 1) (.variable name :: .dot :: .word field :: rest) = _
  rw [operand]
  exact accessors_word hRest

/-! ## Predicates in a row -/

/-- The predicates behind the first, each with its operator before it. -/
def chained (o : Op) (parts : List (List Token)) : List Token := parts.flatMap (.op o :: ·)

theorem chained_cons (o : Op) (part : List Token) (parts : List (List Token)) :
    chained o (part :: parts) = .op o :: (part ++ chained o parts) := rfl

/-- What an operand of a chain is followed by: the next operator, or the end. -/
theorem ends_chained {o : Op} {parts : List (List Token)} {rest : List Token} (hRest : Ends rest) :
    Ends (chained o parts ++ rest) := by
  cases parts with
  | nil => exact hRest
  | cons part parts => exact ends_op o _

/-- A chain of predicates is taken from the left. -/
theorem climb_chained {o : Op} (hCombines : o.combines = true) {rest : List Token}
    (hRest : rest = [] ∨ ∃ more, rest = .right :: more) :
    ∀ {parts : List (List Token)} {trees : List Tree} {left : Tree} {n : Nat},
      List.Forall₂ (fun part tree => ParsesOperand part tree ∧ tree.is_predicate = true) parts trees →
      left.is_predicate = true → 2 * (chained o parts).length + 1 ≤ n →
      climb n 1 left (chained o parts ++ rest) = some (trees.foldl (.binary o) left, rest) := by
  intro parts trees left n hParts
  induction hParts generalizing left n with
  | nil =>
      intro _ hFuel
      exact climb_closed (by omega) hRest
  | @cons part tree parts trees hPart hParts ih =>
      intro hLeft hFuel
      rw [chained_cons, List.length_cons, List.length_append] at hFuel
      have hPositive := parses_positive hPart.1
      have hLevel : 1 ≤ o.level := by cases o <;> decide
      have hDecides : o.decides = true := by
        cases o with
        | or => rfl
        | and => rfl
        | gt | gte | lt | lte | add | sub | mul | div | mod => cases hCombines
      obtain ⟨m, rfl⟩ : ∃ m, n = m + 3 := ⟨n - 3, by omega⟩
      have hEnds : Ends (chained o parts ++ rest) := ends_chained (ends_of_closed hRest)
      have hStop : climb (m + 1) (o.level + 1) tree (chained o parts ++ rest) =
          some (tree, chained o parts ++ rest) := by
        cases parts with
        | nil => exact climb_closed (by omega) hRest
        | cons next parts => exact climb_loose (by omega) (by omega)
      have hWhole : combine o left tree = some (.binary o left tree) := by
        rw [combine, if_pos ⟨by rw [hLeft, hCombines], by rw [hPart.2, hCombines]⟩]
      show climb (m + 3) 1 left (.op o :: (part ++ chained o parts ++ rest)) = _
      rw [climb, if_pos hLevel, expression, List.append_assoc,
        hPart.1 _ _ hEnds (by omega), Option.bind_some]
      show ((climb (m + 1) (o.level + 1) tree (chained o parts ++ rest)).bind fun (right, tokens) =>
        (combine o left right).bind fun whole => climb (m + 2) 1 whole tokens) = _
      rw [hStop, Option.bind_some]
      show ((combine o left tree).bind fun whole =>
        climb (m + 2) 1 whole (chained o parts ++ rest)) = _
      rw [hWhole, Option.bind_some]
      exact ih hDecides (by omega)

/-- Predicates in a row, from the first. -/
theorem parses_chain {o : Op} (hCombines : o.combines = true) {first : List Token} {tree : Tree}
    {parts : List (List Token)} {trees : List Tree} (hFirst : ParsesOperand first tree)
    (hPredicate : tree.is_predicate = true)
    (hParts : List.Forall₂ (fun part tree => ParsesOperand part tree ∧ tree.is_predicate = true)
      parts trees) :
    ParsesWhole (first ++ chained o parts) (trees.foldl (.binary o) tree) := by
  intro rest n hRest hFuel
  rw [List.length_append] at hFuel
  have hPositive := parses_positive hFirst
  obtain ⟨m, rfl⟩ : ∃ m, n = m + 1 := ⟨n - 1, by omega⟩
  rw [expression, List.append_assoc,
    hFirst _ _ (ends_chained (ends_of_closed hRest)) (by omega), Option.bind_some]
  exact climb_chained hCombines hRest hParts hPredicate (by omega)

/-- A text whose words parse as a whole has the tree. -/
theorem parse_of_whole {text : List Char} {tokens : List Token} {tree : Tree}
    (hReads : Reads text tokens) (hParses : ParsesWhole tokens tree) : parse text = some tree := by
  have hTree := hParses [] (2 * tokens.length + 1) (.inl rfl) (Nat.le_refl _)
  rw [List.append_nil] at hTree
  rw [parse, words_of_reads hReads, Option.bind_some, hTree, Option.bind_some]
  exact if_pos rfl

end JsonPath
