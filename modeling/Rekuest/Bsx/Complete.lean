import Rekuest.Bsx.Follow

/-!
# What the grammar derives

Every level of the parser takes what the grammar derives at it, where no token follows that would
go on with it.
-/

namespace Rekuest.Bsx

open Rekuest.Ports Parsing

variable {f64 : List Char → Option Dyadic} {expression : Parse Token BsxError Expr} {n : Nat}

theorem expect_is {value : String} {t : Token} (ht : t.Is value) (rest : List Token) :
    expect value (t :: rest) = .ok (t, rest) := by
  unfold expect
  rw [if_pos (show is_op (t :: rest) [value] = true from ht.is_op)]
  rfl

/-! ## Primaries -/

theorem fields_complete {l : List Token} {names : List String} (h : Fields l names) :
    ∀ {rest : List Token}, Stops ["."] rest → fields (l ++ rest) = .ok (names, rest) := by
  induction h with
  | nil =>
      intro rest hStops
      have hDot := hStops.is_op
      rw [List.nil_append]
      unfold fields
      split
      · rename_i dot t after
        rw [if_neg (by rw [show dot.is_op ["."] = false from hDot]; exact Bool.false_ne_true)]
      · rw [if_neg (by rw [hDot]; exact Bool.false_ne_true)]
  | @cons dot name l names hDot hName _ ih =>
      intro rest hStops
      show fields (dot :: name :: (l ++ rest)) = _
      unfold fields
      rw [if_pos hDot.is_op, if_pos hName, ih hStops]

/-- A comma, or the end of what is listed. -/
def Parts (closing : String) (rest : List Token) : Prop :=
  ∃ t after, rest = t :: after ∧ (t.Is "," ∨ t.Is closing)

theorem Parts.stops {closing : String} {rest : List Token} (h : Parts closing rest) {operators : List String}
    (hComma : "," ∉ operators) (hClosing : closing ∉ operators) : Stops operators rest := by
  obtain ⟨t, after, hRest, hIs⟩ := h
  rw [hRest]
  rcases hIs with hIs | hIs
  · exact Stops.of_is hIs hComma after
  · exact Stops.of_is hIs hClosing after

theorem argument_complete
    (hExpression : Complete n expression (Derives f64 .expression) (Stops (goes_on .expression))) :
    Complete n (argument expression) (IsArgument f64) (Parts ")") := by
  intro l a rest h hLength hParts
  have hStops : Stops (goes_on .expression) rest := hParts.stops (by decide) (by decide)
  unfold argument
  dsimp only
  cases h with
  | positional h =>
      have hNot : ∀ operator ∈ [":", "="],
          ¬ ((token (l ++ rest)).kind = .name ∧ (peek (l ++ rest)).is_op [operator] = true) := by
        rintro operator hMem ⟨hName, hNext⟩
        have hStop : Stops [":", "="] rest := hParts.stops (by decide) (by decide)
        obtain ⟨t, tail, hL, -⟩ := h.starts
        rw [hL] at hName hNext
        have hUnnamed := (h.unnamed.append h.ne_nil hStop)
        rw [hL] at hUnnamed
        have hIs := Token.is_iff.1 hNext
        cases hTail : tail ++ rest with
        | nil =>
            rw [List.cons_append, hTail] at hIs
            have hOp : t.kind = .op := hIs.1
            rw [show (token (t :: tail ++ rest)).kind = t.kind from rfl, hOp] at hName
            cases hName
        | cons t' after =>
            rw [List.cons_append, hTail] at hIs hUnnamed
            have hIs' : t'.Is operator := hIs
            have hNone := hUnnamed t t' after rfl hName
            rw [Bool.eq_false_iff] at hNone
            apply hNone
            rw [Token.is_op_iff]
            refine ⟨hIs'.1, ?_⟩
            rw [hIs'.2]
            exact hMem
      rw [if_neg (hNot ":" (by decide)), if_neg (hNot "=" (by decide)),
        hExpression l _ rest h hLength hStops, token_append h.ne_nil]
  | @named name colon l e hName hColon h =>
      rw [List.length_cons, List.length_cons] at hLength
      have hNamed : (token (name :: colon :: l ++ rest)).kind = .name ∧
          (peek (name :: colon :: l ++ rest)).is_op [":"] = true := ⟨hName, hColon.is_op⟩
      rw [if_pos hNamed, show (name :: colon :: l ++ rest).drop 2 = l ++ rest from rfl,
        hExpression l e rest h (by omega) hStops]
      rfl

theorem entry_complete
    (hExpression : Complete n expression (Derives f64 .expression) (Stops (goes_on .expression)))
    (read : List (String × Expr)) :
    Complete n (entry expression read) (IsEntry f64 read) (Parts "\x7d") := by
  intro l a rest h hLength hParts
  have hStops : Stops (goes_on .expression) rest := hParts.stops (by decide) (by decide)
  cases h with
  | @mk _ key colon name l e hKey hNew hColon h =>
      rw [List.length_cons, List.length_cons] at hLength
      unfold entry
      rw [show token (key :: colon :: l ++ rest) = key from rfl, hKey]
      dsimp only
      have hUnseen : ¬ (read.any fun e => decide (e.1 = name)) = true := by
        intro hSeen
        obtain ⟨seen, hMem, hIs⟩ := List.any_eq_true.1 hSeen
        exact hNew (List.mem_map.2 ⟨seen, hMem, of_decide_eq_true hIs⟩)
      rw [if_neg hUnseen, show (key :: colon :: l ++ rest).tail = colon :: (l ++ rest) from rfl,
        expect_is hColon]
      dsimp only
      rw [hExpression l e rest h (by omega) hStops]

/-- An opening token is no closing one. -/
theorem IsArgument.open {l : List Token} {a : Argument} (h : IsArgument f64 l a) :
    ∃ t rest, l = t :: rest ∧ t.is_op [")"] = false := by
  cases h with
  | positional h =>
      obtain ⟨t, rest, hL, ht⟩ := h.starts
      exact ⟨t, rest, hL, ht.not_op (by decide)⟩
  | @named name colon l e hName _ _ =>
      refine ⟨name, _, rfl, Token.not_op_of_kind ?_ _⟩
      rw [hName]
      nofun

theorem IsEntry.open {read : List (String × Expr)} {l : List Token} {a : String × Expr}
    (h : IsEntry f64 read l a) : ∃ t rest, l = t :: rest ∧ t.is_op ["\x7d"] = false := by
  cases h with
  | @mk _ key colon name l e hKey _ _ _ =>
      refine ⟨key, _, rfl, Token.not_op_of_kind ?_ _⟩
      intro hOp
      unfold key_name at hKey
      rw [hOp] at hKey
      cases hKey

theorem is_op_apart {t : Token} {operator : String} (h : t.is_op [operator] = true) (hNot : operator ≠ ",") :
    t.is_op [","] = false :=
  (Token.is_iff.1 h).not_op (fun hMem => hNot (List.mem_singleton.1 hMem))

theorem parts_of_comma {closing : String} (t : Token) (rest : List Token) (h : t.is_op [","] = true) :
    Parts closing (t :: rest) :=
  ⟨t, rest, rfl, .inl (Token.is_iff.1 h)⟩

theorem parts_of_closing {closing : String} (t : Token) (rest : List Token) (h : t.is_op [closing] = true) :
    Parts closing (t :: rest) :=
  ⟨t, rest, rfl, .inr (Token.is_iff.1 h)⟩

/-- A value begins with its first token. -/
theorem primary_cons (t : Token) (rest : List Token) : primary expression (t :: rest) =
    match t.kind with
    | .number | .str => .ok (.literal t.literal t.offset, rest)
    | .name =>
        if t.value = "true" ∨ t.value = "false" then
          .ok (.literal (.bool (t.value = "true" : Bool)) t.offset, rest)
        else if t.value = "null" then .ok (.literal .null t.offset, rest)
        else if t.value ∈ REFUSED_NAMES then
          .error (syntax_error t.offset (repr_str t.value ++ " is not part of the blok language"))
        else path_or_call expression (t :: rest)
    | .op =>
        if t.value = "(" then group expression (t :: rest)
        else if t.value = "[" then list_literal expression (t :: rest)
        else if t.value = "\x7b" then object_literal expression (t :: rest)
        else .error (unexpected (t :: rest) "expected a value")
    | .done => .error (unexpected (t :: rest) "expected a value") := rfl

theorem primary_begins {t : Token} (ht : t.Begins) (rest : List Token) :
    primary expression (t :: rest) = path_or_call expression (t :: rest) := by
  obtain ⟨hKind, hWord, hRefused⟩ := ht
  unfold word_value at hWord
  rw [primary_cons, hKind]
  dsimp only
  by_cases hBool : t.value = "true" ∨ t.value = "false"
  · rw [if_pos hBool] at hWord
    cases hWord
  · rw [if_neg hBool] at hWord ⊢
    by_cases hNull : t.value = "null"
    · rw [if_pos hNull] at hWord
      cases hWord
    · rw [if_neg hNull, if_neg hRefused]

/-- A literal, a path, a call, a list, an object or a group, where nothing stands behind it. -/
theorem primary_complete
    (hExpression : Complete n expression (Derives f64 .expression) (Stops (goes_on .expression))) :
    Complete (n + 1) (primary expression) (Derives f64 .primary) (Stops behind_value) := by
  intro l e rest h hLength hStops
  have hArrow : ¬ is_op rest ["=>"] = true := by
    rw [(hStops.subset (by decide) : Stops ["=>"] rest).is_op]
    exact Bool.false_ne_true
  cases h with
  | @number t ht =>
      show primary expression (t :: rest) = _
      rw [primary_cons, ht]
  | @string t ht =>
      show primary expression (t :: rest) = _
      rw [primary_cons, ht]
  | @word t value ht hWord =>
      show primary expression (t :: rest) = _
      rw [primary_cons, ht]
      dsimp only
      unfold word_value at hWord
      by_cases hBool : t.value = "true" ∨ t.value = "false"
      · rw [if_pos hBool] at hWord ⊢
        rw [← Option.some.inj hWord]
      · rw [if_neg hBool] at hWord ⊢
        by_cases hNull : t.value = "null"
        · rw [if_pos hNull] at hWord ⊢
          rw [← Option.some.inj hWord]
        · rw [if_neg hNull] at hWord
          cases hWord
  | @path t l names ht hFields =>
      show primary expression (t :: (l ++ rest)) = _
      have hOpen : ¬ is_op rest ["("] = true := by
        rw [(hStops.subset (by decide) : Stops ["("] rest).is_op]
        exact Bool.false_ne_true
      rw [primary_begins ht]
      unfold path_or_call
      rw [List.tail_cons, fields_complete hFields (hStops.subset (by decide))]
      dsimp only
      rw [if_neg hArrow, if_neg hOpen]
      rfl
  | @call t opening closing l args names arguments ht hFields hOpening hClosing hArguments =>
      rw [List.length_cons, List.length_append, List.length_cons, List.length_append,
        List.length_singleton] at hLength
      rw [show t :: (l ++ opening :: (args ++ [closing])) ++ rest =
          t :: (l ++ opening :: (args ++ closing :: rest)) by
        simp only [List.cons_append, List.append_assoc, List.nil_append]]
      rw [primary_begins ht]
      unfold path_or_call
      rw [List.tail_cons, fields_complete hFields (Stops.of_is hOpening (by decide) _)]
      dsimp only
      have hNoArrow : ¬ is_op (opening :: (args ++ closing :: rest)) ["=>"] = true := by
        rw [show is_op (opening :: (args ++ closing :: rest)) ["=>"] = false from hOpening.not_op (by decide)]
        exact Bool.false_ne_true
      rw [if_neg hNoArrow, if_pos (show is_op (opening :: (args ++ closing :: rest)) ["("] = true from
        hOpening.is_op), List.tail_cons]
      have hListed := hArguments.listed []
      rw [← is_op_eq] at hListed
      rw [listed_complete (fun _ => argument_complete hExpression) (fun _ _ _ h => h.open)
        (fun t h => is_op_apart h (by decide)) parts_of_comma parts_of_closing hListed
        (by rw [List.length_cons, List.length_append]; omega) (by omega) hClosing.is_op]
      dsimp only
      rw [expect_is hClosing]
      rfl
  | @list opening closing l items hOpening hClosing hItems =>
      rw [List.length_cons, List.length_append, List.length_singleton] at hLength
      rw [show opening :: (l ++ [closing]) ++ rest = opening :: (l ++ closing :: rest) by
        simp only [List.cons_append, List.append_assoc, List.nil_append]]
      rw [primary_cons, hOpening.1]
      dsimp only
      rw [if_neg (by rw [hOpening.2]; decide), if_pos hOpening.2]
      unfold list_literal
      have hListed := hItems.listed []
      rw [← is_op_eq] at hListed
      have hItem : ∀ _ : List Expr, Complete n expression (Derives f64 .expression) (Parts "]") := by
        intro _ l e rest h hShort hParts
        exact hExpression l e rest h hShort (hParts.stops (by decide) (by decide))
      have hStart : ∀ (_ : List Expr) (l : List Token) (e : Expr), Derives f64 .expression l e →
          ∃ t rest, l = t :: rest ∧ t.is_op ["]"] = false := by
        intro _ l e h
        obtain ⟨t, rest, hL, ht⟩ := h.starts
        exact ⟨t, rest, hL, ht.not_op (by decide)⟩
      rw [List.tail_cons, listed_complete hItem hStart
        (fun t h => is_op_apart h (by decide)) parts_of_comma parts_of_closing hListed
        (by rw [List.length_cons, List.length_append]; omega) (by omega) hClosing.is_op]
      dsimp only
      rw [expect_is hClosing]
      rfl
  | @object opening closing l entries hOpening hClosing hEntries =>
      rw [List.length_cons, List.length_append, List.length_singleton] at hLength
      rw [show opening :: (l ++ [closing]) ++ rest = opening :: (l ++ closing :: rest) by
        simp only [List.cons_append, List.append_assoc, List.nil_append]]
      rw [primary_cons, hOpening.1]
      dsimp only
      rw [if_neg (by rw [hOpening.2]; decide), if_neg (by rw [hOpening.2]; decide), if_pos hOpening.2]
      unfold object_literal
      have hListed := hEntries.listed
      rw [← is_op_eq] at hListed
      rw [List.tail_cons, listed_complete (fun read => entry_complete hExpression read) (fun _ _ _ h => h.open)
        (fun t h => is_op_apart h (by decide)) parts_of_comma parts_of_closing hListed
        (by rw [List.length_cons, List.length_append]; omega) (by omega) hClosing.is_op]
      dsimp only
      rw [expect_is hClosing]
      rfl
  | @group opening closing l e hOpening hClosing h =>
      rw [List.length_cons, List.length_append, List.length_singleton] at hLength
      rw [show opening :: (l ++ [closing]) ++ rest = opening :: (l ++ closing :: rest) by
        simp only [List.cons_append, List.append_assoc, List.nil_append]]
      rw [primary_cons, hOpening.1]
      dsimp only
      rw [if_pos hOpening.2]
      unfold group
      rw [List.tail_cons, hExpression l e (closing :: rest) h (by omega) (Stops.of_is hClosing (by decide) _)]
      dsimp only
      rw [expect_is hClosing]
      dsimp only
      rw [if_neg hArrow]

/-! ## The levels -/

theorem postfix_ok {value : Expr} {rest : List Token} (hStops : Stops behind_value rest) :
    postfix_ value rest = .ok () := by
  have hNot : ∀ operator ∈ behind_value, is_op rest [operator] = false := by
    intro operator hMem
    have hOne : Stops [operator] rest := hStops.subset (by
      intro v hv
      rw [List.mem_singleton.1 hv]
      exact hMem)
    exact hOne.is_op
  unfold postfix_
  rw [hNot "[" (by decide), hNot "(" (by decide), hNot "." (by decide)]
  rw [Bool.false_and, Bool.and_false]
  rfl

/-- A value does not begin with an operator of its own level. -/
theorem Derives.primary_starts {l : List Token} {e : Expr} (h : Derives f64 .primary l e) :
    ∃ t rest, l = t :: rest ∧ t.is_op ["!"] = false ∧ t.is_op ["-"] = false := by
  have hKind : ∀ {t : Token}, t.kind ≠ .op → t.is_op ["!"] = false ∧ t.is_op ["-"] = false :=
    fun ht => ⟨Token.not_op_of_kind ht _, Token.not_op_of_kind ht _⟩
  cases h with
  | number ht => exact ⟨_, _, rfl, hKind (by rw [ht]; nofun)⟩
  | string ht => exact ⟨_, _, rfl, hKind (by rw [ht]; nofun)⟩
  | word ht _ => exact ⟨_, _, rfl, hKind (by rw [ht]; nofun)⟩
  | path ht _ => exact ⟨_, _, rfl, hKind (by rw [ht.1]; nofun)⟩
  | call ht _ _ _ _ => exact ⟨_, _, rfl, hKind (by rw [ht.1]; nofun)⟩
  | list hOpening _ _ => exact ⟨_, _, rfl, hOpening.not_op (by decide), hOpening.not_op (by decide)⟩
  | object hOpening _ _ => exact ⟨_, _, rfl, hOpening.not_op (by decide), hOpening.not_op (by decide)⟩
  | group hOpening _ _ => exact ⟨_, _, rfl, hOpening.not_op (by decide), hOpening.not_op (by decide)⟩

theorem unary_complete
    (hExpression : Complete n expression (Derives f64 .expression) (Stops (goes_on .expression))) :
    Complete (n + 1) (unary f64 expression) (Derives f64 .unary) (Stops behind_value) := by
  intro l
  induction l with
  | nil =>
      intro e rest h
      exact absurd rfl h.ne_nil
  | cons t l ih =>
      intro e rest h hLength hStops
      rw [List.cons_append]
      unfold unary
      cases h with
      | value h =>
          obtain ⟨t', l', hL, hBang, hMinus⟩ := h.primary_starts
          rw [(List.cons.inj hL).1, if_neg (by rw [hBang]; exact Bool.false_ne_true),
            if_neg (by rw [hMinus]; exact Bool.false_ne_true), ← (List.cons.inj hL).1, ← List.cons_append,
            primary_complete hExpression _ e rest h hLength hStops]
          dsimp only
          rw [postfix_ok hStops]
      | not hBang h =>
          rw [List.length_cons] at hLength
          rw [if_pos hBang.is_op, ih _ rest h (by omega) hStops]
      | negative hMinus hNumber =>
          rw [if_neg (by rw [hMinus.not_op (by decide)]; exact Bool.false_ne_true), if_pos hMinus.is_op]
          rw [if_pos (show (token ([_] ++ rest)).kind = .number from hNumber)]
          rfl

/-- One comparison at most, where none goes on with it. -/
theorem comparison_complete {operators chained before : List String} {operand : Parse Token BsxError Expr}
    {level inner : Level} (hOperand : Complete n operand (Derives f64 inner) (Stops before))
    (hChained : ∀ v ∈ operators, v ∈ chained) (hApart : ∀ v ∈ operators, v ∉ before)
    (hCases : ∀ {l e}, Derives f64 level l e → Derives f64 inner l e ∨
      ∃ l₁ r left right operator, l = l₁ ++ operator :: r ∧
        e = .compare operator.value left right operator.offset ∧ Derives f64 inner l₁ left ∧
        operator.IsAny operators ∧ Derives f64 inner r right)
    {stops : List String} (hBefore : ∀ v ∈ before, v ∈ stops) (hBehind : ∀ v ∈ chained, v ∈ stops) :
    Complete n (comparison operators chained operand) (Derives f64 level) (Stops stops) := by
  intro l e rest h hLength hStops
  unfold comparison
  rcases hCases h with hOne | ⟨l₁, r, left, right, operator, hL, hE, hLeft, hOperator, hRight⟩
  · rw [hOperand l e rest hOne hLength (hStops.subset hBefore)]
    dsimp only
    have hNone : Stops operators rest := hStops.subset fun v hv => hBehind v (hChained v hv)
    rw [if_neg (by rw [hNone.is_op]; exact Bool.false_ne_true)]
  · rw [hL, List.length_append, List.length_cons] at hLength
    rw [hL, hE, List.append_assoc, List.cons_append]
    rw [hOperand l₁ left (operator :: (r ++ rest)) hLeft (by omega)
      (Stops.of_is hOperator.is (hApart _ hOperator.2) _)]
    dsimp only
    rw [if_pos (show is_op (operator :: (r ++ rest)) operators = true from Token.is_op_iff.2 hOperator),
      List.tail_cons, hOperand r right rest hRight (by omega) (hStops.subset hBefore)]
    dsimp only
    rw [if_neg (by rw [(hStops.subset hBehind).is_op]; exact Bool.false_ne_true)]
    rfl

theorem relation_complete
    (hExpression : Complete n expression (Derives f64 .expression) (Stops (goes_on .expression))) :
    Complete (n + 1) (relation f64 expression) (Derives f64 .relation) (Stops (goes_on .relation)) := by
  refine comparison_complete (unary_complete hExpression) (by decide) (by decide) ?_ (by decide) (by decide)
  intro l e h
  cases h with
  | term h => exact .inl h
  | relation hLeft hOperator hRight => exact .inr ⟨_, _, _, _, _, rfl, rfl, hLeft, hOperator, hRight⟩

theorem equality_complete
    (hExpression : Complete n expression (Derives f64 .expression) (Stops (goes_on .expression))) :
    Complete (n + 1) (equality f64 expression) (Derives f64 .equality) (Stops (goes_on .equality)) := by
  refine comparison_complete (relation_complete hExpression) (by decide) (by decide) ?_ (by decide) (by decide)
  intro l e h
  cases h with
  | side h => exact .inl h
  | equality hLeft hOperator hRight => exact .inr ⟨_, _, _, _, _, rfl, rfl, hLeft, hOperator, hRight⟩

theorem chain_complete {operator : Logic} {inner : Parse Token BsxError Expr} {before : List String}
    (hInner : Complete n inner (Derives f64 operator.operand) (Stops before)) (hApart : operator.text ∉ before)
    {stops : List String} (hBefore : ∀ v ∈ before, v ∈ stops) (hBehind : operator.text ∈ stops) :
    Complete n (chain operator inner) (Derives f64 (.chain operator)) (Stops stops) := by
  intro l e rest h hLength hStops
  have hEnds : Ends (·.is_op [operator.text]) rest := by
    apply hStops.subset
    intro v hv
    rw [List.mem_singleton.1 hv]
    exact hBehind
  have hSep : ∀ (t : Token) (after : List Token), t.is_op [operator.text] = true → Stops before (t :: after) :=
    fun t after ht => Stops.of_is (Token.is_iff.1 ht) hApart after
  unfold chain
  cases h with
  | operand h =>
      rw [hInner l e rest h hLength (hStops.subset hBefore)]
      dsimp only
      have hNil : Trailing (fun t : Token => t.is_op [operator.text] = true) (Derives f64 operator.operand) []
          ([] : List Expr) := .nil
      have hOnly : operands (·.is_op [operator.text]) inner rest.length [e] ([] ++ rest) = .ok ([e] ++ [], rest) :=
        operands_complete hInner hSep hNil (Nat.zero_le _) (Nat.zero_le n) (hStops.subset hBefore) hEnds
      rw [List.nil_append] at hOnly
      rw [hOnly]
      rfl
  | @chain _ l more first later hFirst hSome hLater =>
      rw [List.length_append] at hLength
      have hAfter : Stops before (more ++ rest) := hLater.stops hApart (hStops.subset hBefore)
      rw [List.append_assoc, hInner l first (more ++ rest) hFirst (by omega) hAfter]
      dsimp only
      have hTrailing := hLater.trailing
      rw [← is_op_eq] at hTrailing
      rw [operands_complete hInner hSep hTrailing (by rw [List.length_append]; omega) (by omega)
        (hStops.subset hBefore) hEnds]
      cases later with
      | nil => exact absurd rfl hSome
      | cons second others => rfl

theorem coalesce_complete
    (hExpression : Complete n expression (Derives f64 .expression) (Stops (goes_on .expression))) :
    Complete (n + 1) (logical f64 expression .coalesce) (Derives f64 (.chain .coalesce))
      (Stops (goes_on (.chain .coalesce))) := by
  have hAnd : Complete (n + 1) (chain .and (equality f64 expression)) (Derives f64 Logic.or.operand)
      (Stops (goes_on (.chain .and))) :=
    @chain_complete f64 _ .and _ _ (equality_complete hExpression) (by decide) _ (by decide) (by decide)
  have hOr : Complete (n + 1) (chain .or (chain .and (equality f64 expression)))
      (Derives f64 Logic.coalesce.operand) (Stops (goes_on (.chain .or))) :=
    @chain_complete f64 _ .or _ _ hAnd (by decide) _ (by decide) (by decide)
  exact @chain_complete f64 _ .coalesce _ _ hOr (by decide) _ (by decide) (by decide)

theorem ternary_complete
    (hExpression : Complete n expression (Derives f64 .expression) (Stops (goes_on .expression))) :
    Complete (n + 1) (ternary f64 expression) (Derives f64 .expression) (Stops (goes_on .expression)) := by
  intro l e rest h hLength hStops
  unfold ternary
  cases h with
  | cond h =>
      rw [coalesce_complete hExpression l e rest h hLength (hStops.subset (by decide))]
      dsimp only
      have hNone : Stops ["?"] rest := hStops.subset (by decide)
      rw [if_neg (by rw [hNone.is_op]; exact Bool.false_ne_true)]
  | @ternary c t o cond then_ otherwise question colon hCond hQuestion hThen hColon hOtherwise =>
      rw [List.length_append, List.length_cons, List.length_append, List.length_cons] at hLength
      rw [show c ++ question :: (t ++ colon :: o) ++ rest = c ++ question :: (t ++ colon :: (o ++ rest)) by
        simp only [List.cons_append, List.append_assoc]]
      rw [coalesce_complete hExpression c cond _ hCond (by omega) (Stops.of_is hQuestion (by decide) _)]
      dsimp only
      rw [if_pos (show is_op (question :: (t ++ colon :: (o ++ rest))) ["?"] = true from hQuestion.is_op),
        List.tail_cons, hExpression t then_ _ hThen (by omega) (Stops.of_is hColon (by decide) _)]
      dsimp only
      rw [expect_is hColon]
      dsimp only
      rw [hExpression o otherwise rest hOtherwise (by omega) hStops]
      rfl

/-- An expression of as many tokens as the depth is parsed. -/
theorem expression_complete (n : Nat) :
    Complete n (Bsx.expression f64 n) (Derives f64 .expression) (Stops (goes_on .expression)) := by
  induction n with
  | zero =>
      intro l e rest h hLength
      exact absurd (List.eq_nil_of_length_eq_zero (Nat.le_zero.1 hLength)) h.ne_nil
  | succ n ih => exact ternary_complete ih

end Rekuest.Bsx
