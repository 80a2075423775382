import Rekuest.Bsx.Grammar

/-!
# What the parser accepts

Every level of the parser takes tokens that the grammar derives its tree from, if the parser of
whole expressions does.
-/

namespace Rekuest.Bsx

open Rekuest.Ports Parsing

variable {f64 : List Char → Option Dyadic} {expression : Parse Token BsxError Expr}

/-! ## Looking ahead -/

theorem Token.is_op_iff {t : Token} {operators : List String} :
    t.is_op operators = true ↔ t.IsAny operators := by
  unfold Token.is_op Token.IsAny
  rw [Bool.and_eq_true, decide_eq_true_iff, decide_eq_true_iff]

theorem Token.is_iff {t : Token} {operator : String} : t.is_op [operator] = true ↔ t.Is operator := by
  rw [Token.is_op_iff]
  unfold Token.IsAny Token.Is
  rw [List.mem_singleton]

theorem is_op_eq (operator : String) : (fun t : Token => t.is_op [operator] = true) = (·.Is operator) := by
  funext t
  exact propext Token.is_iff

theorem of_is_op {toks : List Token} {operators : List String} (h : is_op toks operators = true) :
    ∃ t rest, toks = t :: rest ∧ t.IsAny operators := by
  cases toks with
  | nil => cases h
  | cons t rest => exact ⟨t, rest, rfl, Token.is_op_iff.1 h⟩

theorem expect_ok {value : String} {toks rest : List Token} {t : Token}
    (h : expect value toks = .ok (t, rest)) : toks = t :: rest ∧ t.Is value := by
  unfold expect at h
  by_cases hIs : is_op toks [value] = true
  · rw [if_pos hIs] at h
    obtain ⟨t', rest', hToks, -⟩ := of_is_op hIs
    obtain ⟨hToken, hRest⟩ := Prod.mk.inj (Except.ok.inj h)
    rw [hToks] at hToken hRest hIs ⊢
    have hSame : t' = t := hToken
    have hTail : rest' = rest := hRest
    rw [hSame] at hIs
    exact ⟨by rw [hSame, hTail], Token.is_iff.1 hIs⟩
  · rw [if_neg hIs] at h
    cases h

theorem token_append {l : List Token} (hl : l ≠ []) (rest : List Token) : token (l ++ rest) = token l := by
  cases l with
  | nil => exact absurd rfl hl
  | cons t l => rfl

/-- No expression is empty. -/
theorem Derives.ne_nil {level : Level} {l : List Token} {e : Expr} : Derives f64 level l e → l ≠ []
  | .cond h => h.ne_nil
  | .ternary .. => List.append_ne_nil_of_right_ne_nil _ (List.cons_ne_nil _ _)
  | .operand h => h.ne_nil
  | .chain h _ _ => List.append_ne_nil_of_left_ne_nil h.ne_nil _
  | .side h => h.ne_nil
  | .equality .. => List.append_ne_nil_of_right_ne_nil _ (List.cons_ne_nil _ _)
  | .term h => h.ne_nil
  | .relation .. => List.append_ne_nil_of_right_ne_nil _ (List.cons_ne_nil _ _)
  | .value h => h.ne_nil
  | .not .. => List.cons_ne_nil _ _
  | .negative .. => List.cons_ne_nil _ _
  | .number .. => List.cons_ne_nil _ _
  | .string .. => List.cons_ne_nil _ _
  | .word .. => List.cons_ne_nil _ _
  | .path .. => List.cons_ne_nil _ _
  | .call .. => List.cons_ne_nil _ _
  | .list .. => List.cons_ne_nil _ _
  | .object .. => List.cons_ne_nil _ _
  | .group .. => List.cons_ne_nil _ _

/-! ## Primaries -/

theorem fields_sound : Sound fields Fields := by
  intro input
  induction input using fields.induct with
  | case1 dot t rest hDot hName e hRest =>
      intro names after h
      unfold fields at h
      rw [if_pos hDot, if_pos hName, hRest] at h
      cases h
  | case2 dot t rest hDot hName names' rest' hRest ih =>
      intro names after h
      unfold fields at h
      rw [if_pos hDot, if_pos hName, hRest] at h
      obtain ⟨hNames, hAfter⟩ := Prod.mk.inj (Except.ok.inj h)
      obtain ⟨l, hInput, hFields⟩ := ih names' rest' hRest
      refine ⟨dot :: t :: l, ?_, ?_⟩
      · rw [hInput, hAfter]
        rfl
      · rw [← hNames]
        exact .cons (Token.is_iff.1 hDot) hName hFields
  | case3 dot t rest hDot hName =>
      intro names after h
      unfold fields at h
      rw [if_pos hDot, if_neg hName] at h
      cases h
  | case4 dot t rest hDot =>
      intro names after h
      unfold fields at h
      rw [if_neg hDot] at h
      obtain ⟨hNames, hAfter⟩ := Prod.mk.inj (Except.ok.inj h)
      rw [← hNames, ← hAfter]
      exact ⟨[], rfl, .nil⟩
  | case5 toks hShort hDot =>
      intro names after h
      unfold fields at h
      split at h
      · exact absurd rfl (hShort _ _ _)
      · rw [if_pos hDot] at h
        cases h
  | case6 toks hShort hDot =>
      intro names after h
      unfold fields at h
      split at h
      · exact absurd rfl (hShort _ _ _)
      · rw [if_neg hDot] at h
        obtain ⟨hNames, hAfter⟩ := Prod.mk.inj (Except.ok.inj h)
        rw [← hNames, ← hAfter]
        exact ⟨[], rfl, .nil⟩

theorem argument_sound (hExpression : Sound expression (Derives f64 .expression)) :
    Sound (argument expression) (IsArgument f64) := by
  intro input a rest h
  unfold argument at h
  dsimp only at h
  by_cases hNamed : (token input).kind = .name ∧ (peek input).is_op [":"] = true
  · rw [if_pos hNamed] at h
    cases hValue : expression (input.drop 2) with
    | error e =>
        rw [hValue] at h
        cases h
    | ok found =>
        obtain ⟨e, after⟩ := found
        rw [hValue] at h
        obtain ⟨hIs, hRest⟩ := Prod.mk.inj (Except.ok.inj h)
        obtain ⟨l, hInput, hDerives⟩ := hExpression _ _ _ hValue
        obtain ⟨hName, hColon⟩ := hNamed
        match input, hName, hColon, hInput, hIs with
        | [], hName, _, _, _ => cases hName
        | [t], hName, hColon, _, _ =>
            have hOp : t.kind = .op := (Token.is_iff.1 hColon).1
            have hWord : t.kind = .name := hName
            rw [hOp] at hWord
            cases hWord
        | name :: colon :: later, hName, hColon, hInput, hIs =>
            have hLater : later = l ++ after := hInput
            refine ⟨name :: colon :: l, ?_, ?_⟩
            · rw [hLater, hRest]
              rfl
            · rw [← hIs]
              exact .named hName (Token.is_iff.1 hColon) hDerives
  · rw [if_neg hNamed] at h
    by_cases hAssigned : (token input).kind = .name ∧ (peek input).is_op ["="] = true
    · rw [if_pos hAssigned] at h
      cases h
    · rw [if_neg hAssigned] at h
      cases hValue : expression input with
      | error e =>
          rw [hValue] at h
          cases h
      | ok found =>
          obtain ⟨e, after⟩ := found
          rw [hValue] at h
          obtain ⟨hIs, hRest⟩ := Prod.mk.inj (Except.ok.inj h)
          obtain ⟨l, hInput, hDerives⟩ := hExpression _ _ _ hValue
          refine ⟨l, by rw [hInput, hRest], ?_⟩
          rw [← hIs, hInput, token_append hDerives.ne_nil]
          exact .positional hDerives

theorem entry_sound (hExpression : Sound expression (Derives f64 .expression)) (read : List (String × Expr)) :
    Sound (entry expression read) (IsEntry f64 read) := by
  intro input a rest h
  unfold entry at h
  cases hKey : key_name (token input) with
  | none =>
      rw [hKey] at h
      cases h
  | some name =>
      rw [hKey] at h
      dsimp only at h
      by_cases hSeen : (read.any fun e => decide (e.1 = name)) = true
      · rw [if_pos hSeen] at h
        cases h
      · rw [if_neg hSeen] at h
        cases hColon : expect ":" input.tail with
        | error e =>
            rw [hColon] at h
            cases h
        | ok found =>
            obtain ⟨colon, after⟩ := found
            rw [hColon] at h
            dsimp only at h
            cases hValue : expression after with
            | error e =>
                rw [hValue] at h
                cases h
            | ok found =>
                obtain ⟨e, later⟩ := found
                rw [hValue] at h
                obtain ⟨hIs, hRest⟩ := Prod.mk.inj (Except.ok.inj h)
                obtain ⟨hTail, hIsColon⟩ := expect_ok hColon
                obtain ⟨l, hAfter, hDerives⟩ := hExpression _ _ _ hValue
                cases input with
                | nil => cases hTail
                | cons key tail =>
                    refine ⟨key :: colon :: l, ?_, ?_⟩
                    · rw [show tail = colon :: after from hTail, hAfter, hRest]
                      rfl
                    · rw [← hIs]
                      refine .mk hKey ?_ hIsColon hDerives
                      intro hMem
                      obtain ⟨seen, hSeenMem, hSeenName⟩ := List.mem_map.1 hMem
                      exact hSeen (List.any_eq_true.2 ⟨seen, hSeenMem, decide_eq_true hSeenName⟩)

theorem path_or_call_sound (hExpression : Sound expression (Derives f64 .expression)) {t : Token}
    (hBegins : t.Begins) {input rest : List Token} {e : Expr}
    (h : path_or_call expression (t :: input) = .ok (e, rest)) :
    ∃ l, t :: input = l ++ rest ∧ Derives f64 .primary l e := by
  unfold path_or_call at h
  dsimp only at h
  cases hFields : fields input with
  | error failure =>
      rw [List.tail_cons, hFields] at h
      cases h
  | ok found =>
      obtain ⟨names, after⟩ := found
      rw [List.tail_cons, hFields] at h
      dsimp only at h
      obtain ⟨l, hInput, hNames⟩ := fields_sound _ _ _ hFields
      by_cases hArrow : is_op after ["=>"] = true
      · rw [if_pos hArrow] at h
        cases h
      · rw [if_neg hArrow] at h
        by_cases hOpen : is_op after ["("] = true
        · rw [if_pos hOpen] at h
          obtain ⟨opening, later, hAfter, hIsOpen⟩ := of_is_op hOpen
          have hOpening : opening.Is "(" := ⟨hIsOpen.1, List.mem_singleton.1 hIsOpen.2⟩
          rw [hAfter] at h
          dsimp only [List.tail_cons] at h
          cases hArguments : listed (·.is_op [")"]) (·.is_op [","]) (fun _ => argument expression)
              (opening :: later).length [] later with
          | error failure =>
              rw [hArguments] at h
              cases h
          | ok found =>
              obtain ⟨arguments, behind⟩ := found
              rw [hArguments] at h
              dsimp only at h
              cases hClose : expect ")" behind with
              | error failure =>
                  rw [hClose] at h
                  cases h
              | ok found =>
                  obtain ⟨closing, last⟩ := found
                  rw [hClose] at h
                  obtain ⟨hIs, hRest⟩ := Prod.mk.inj (Except.ok.inj h)
                  obtain ⟨hBehind, hClosing⟩ := expect_ok hClose
                  obtain ⟨args, as', hLater, hAs, hListed⟩ :=
                    listed_sound (fun _ => argument_sound hExpression) hArguments
                  rw [is_op_eq] at hListed
                  refine ⟨t :: (l ++ opening :: (args ++ [closing])), ?_, ?_⟩
                  · rw [hInput, hAfter, hLater, hBehind, hRest]
                    simp only [List.cons_append, List.append_assoc, List.nil_append]
                  · rw [← hIs, hAs]
                    exact .call hBegins hNames hOpening hClosing (arguments_of_listed hListed)
        · rw [if_neg hOpen] at h
          obtain ⟨hIs, hRest⟩ := Prod.mk.inj (Except.ok.inj h)
          refine ⟨t :: l, by rw [hInput, hRest]; rfl, ?_⟩
          rw [← hIs]
          exact .path hBegins hNames

theorem list_literal_sound (hExpression : Sound expression (Derives f64 .expression)) {t : Token}
    (hOpening : t.Is "[") {input rest : List Token} {e : Expr}
    (h : list_literal expression (t :: input) = .ok (e, rest)) :
    ∃ l, t :: input = l ++ rest ∧ Derives f64 .primary l e := by
  unfold list_literal at h
  dsimp only [List.tail_cons] at h
  cases hItems : listed (·.is_op ["]"]) (·.is_op [","]) (fun _ => expression) (t :: input).length [] input with
  | error failure =>
      rw [hItems] at h
      cases h
  | ok found =>
      obtain ⟨items, behind⟩ := found
      rw [hItems] at h
      dsimp only at h
      cases hClose : expect "]" behind with
      | error failure =>
          rw [hClose] at h
          cases h
      | ok found =>
          obtain ⟨closing, last⟩ := found
          rw [hClose] at h
          obtain ⟨hIs, hRest⟩ := Prod.mk.inj (Except.ok.inj h)
          obtain ⟨hBehind, hClosing⟩ := expect_ok hClose
          obtain ⟨l, as', hInput, hAs, hListed⟩ := listed_sound (fun _ => hExpression) hItems
          rw [is_op_eq] at hListed
          refine ⟨t :: (l ++ [closing]), ?_, ?_⟩
          · rw [hInput, hBehind, hRest]
            simp only [List.cons_append, List.append_assoc, List.nil_append]
          · rw [← hIs, hAs]
            exact .list hOpening hClosing (items_of_listed hListed)

theorem object_literal_sound (hExpression : Sound expression (Derives f64 .expression)) {t : Token}
    (hOpening : t.Is "\x7b") {input rest : List Token} {e : Expr}
    (h : object_literal expression (t :: input) = .ok (e, rest)) :
    ∃ l, t :: input = l ++ rest ∧ Derives f64 .primary l e := by
  unfold object_literal at h
  dsimp only [List.tail_cons] at h
  cases hEntries : listed (·.is_op ["\x7d"]) (·.is_op [","]) (entry expression) (t :: input).length [] input with
  | error failure =>
      rw [hEntries] at h
      cases h
  | ok found =>
      obtain ⟨entries, behind⟩ := found
      rw [hEntries] at h
      dsimp only at h
      cases hClose : expect "\x7d" behind with
      | error failure =>
          rw [hClose] at h
          cases h
      | ok found =>
          obtain ⟨closing, last⟩ := found
          rw [hClose] at h
          obtain ⟨hIs, hRest⟩ := Prod.mk.inj (Except.ok.inj h)
          obtain ⟨hBehind, hClosing⟩ := expect_ok hClose
          obtain ⟨l, as', hInput, hAs, hListed⟩ := listed_sound (entry_sound hExpression) hEntries
          rw [is_op_eq] at hListed
          refine ⟨t :: (l ++ [closing]), ?_, ?_⟩
          · rw [hInput, hBehind, hRest]
            simp only [List.cons_append, List.append_assoc, List.nil_append]
          · rw [← hIs, hAs]
            exact .object hOpening hClosing (entries_of_listed hListed)

theorem group_sound (hExpression : Sound expression (Derives f64 .expression)) {t : Token}
    (hOpening : t.Is "(") {input rest : List Token} {e : Expr}
    (h : group expression (t :: input) = .ok (e, rest)) :
    ∃ l, t :: input = l ++ rest ∧ Derives f64 .primary l e := by
  unfold group at h
  dsimp only [List.tail_cons] at h
  cases hInner : expression input with
  | error failure =>
      rw [hInner] at h
      cases h
  | ok found =>
      obtain ⟨inner, behind⟩ := found
      rw [hInner] at h
      dsimp only at h
      cases hClose : expect ")" behind with
      | error failure =>
          rw [hClose] at h
          cases h
      | ok found =>
          obtain ⟨closing, last⟩ := found
          rw [hClose] at h
          dsimp only at h
          by_cases hArrow : is_op last ["=>"] = true
          · rw [if_pos hArrow] at h
            cases h
          · rw [if_neg hArrow] at h
            obtain ⟨hIs, hRest⟩ := Prod.mk.inj (Except.ok.inj h)
            obtain ⟨hBehind, hClosing⟩ := expect_ok hClose
            obtain ⟨l, hInput, hDerives⟩ := hExpression _ _ _ hInner
            refine ⟨t :: (l ++ [closing]), ?_, ?_⟩
            · rw [hInput, hBehind, hRest]
              simp only [List.cons_append, List.append_assoc, List.nil_append]
            · rw [← hIs]
              exact .group hOpening hClosing hDerives

theorem primary_sound (hExpression : Sound expression (Derives f64 .expression)) :
    Sound (primary expression) (Derives f64 .primary) := by
  intro input e rest h
  cases input with
  | nil => cases h
  | cons t input =>
      unfold primary at h
      dsimp only [token, List.tail_cons] at h
      cases hKind : t.kind with
      | name =>
          rw [hKind] at h
          dsimp only at h
          by_cases hBool : t.value = "true" ∨ t.value = "false"
          · rw [if_pos hBool] at h
            obtain ⟨hIs, hRest⟩ := Prod.mk.inj (Except.ok.inj h)
            refine ⟨[t], by rw [hRest]; rfl, ?_⟩
            rw [← hIs]
            exact .word hKind (if_pos hBool)
          · rw [if_neg hBool] at h
            by_cases hNull : t.value = "null"
            · rw [if_pos hNull] at h
              obtain ⟨hIs, hRest⟩ := Prod.mk.inj (Except.ok.inj h)
              refine ⟨[t], by rw [hRest]; rfl, ?_⟩
              rw [← hIs]
              exact .word hKind ((if_neg hBool).trans (if_pos hNull))
            · rw [if_neg hNull] at h
              by_cases hRefused : t.value ∈ REFUSED_NAMES
              · rw [if_pos hRefused] at h
                cases h
              · rw [if_neg hRefused] at h
                exact path_or_call_sound hExpression
                  ⟨hKind, (if_neg hBool).trans (if_neg hNull), hRefused⟩ h
      | number =>
          rw [hKind] at h
          obtain ⟨hIs, hRest⟩ := Prod.mk.inj (Except.ok.inj h)
          refine ⟨[t], by rw [hRest]; rfl, ?_⟩
          rw [← hIs]
          exact .number hKind
      | str =>
          rw [hKind] at h
          obtain ⟨hIs, hRest⟩ := Prod.mk.inj (Except.ok.inj h)
          refine ⟨[t], by rw [hRest]; rfl, ?_⟩
          rw [← hIs]
          exact .string hKind
      | op =>
          rw [hKind] at h
          dsimp only at h
          by_cases hParen : t.value = "("
          · rw [if_pos hParen] at h
            exact group_sound hExpression ⟨hKind, hParen⟩ h
          · rw [if_neg hParen] at h
            by_cases hBracket : t.value = "["
            · rw [if_pos hBracket] at h
              exact list_literal_sound hExpression ⟨hKind, hBracket⟩ h
            · rw [if_neg hBracket] at h
              by_cases hBrace : t.value = "\x7b"
              · rw [if_pos hBrace] at h
                exact object_literal_sound hExpression ⟨hKind, hBrace⟩ h
              · rw [if_neg hBrace] at h
                cases h
      | done =>
          rw [hKind] at h
          cases h

/-! ## The levels -/

theorem unary_sound (hExpression : Sound expression (Derives f64 .expression)) :
    Sound (unary f64 expression) (Derives f64 .unary) := by
  intro input
  induction input with
  | nil =>
      intro e rest h
      cases h
  | cons t input ih =>
      intro e rest h
      unfold unary at h
      by_cases hBang : t.is_op ["!"] = true
      · rw [if_pos hBang] at h
        cases hOperand : unary f64 expression input with
        | error failure =>
            rw [hOperand] at h
            cases h
        | ok found =>
            obtain ⟨operand, after⟩ := found
            rw [hOperand] at h
            obtain ⟨hIs, hRest⟩ := Prod.mk.inj (Except.ok.inj h)
            obtain ⟨l, hInput, hDerives⟩ := ih _ _ hOperand
            refine ⟨t :: l, by rw [hInput, hRest]; rfl, ?_⟩
            rw [← hIs]
            exact .not (Token.is_iff.1 hBang) hDerives
      · rw [if_neg hBang] at h
        by_cases hMinus : t.is_op ["-"] = true
        · rw [if_pos hMinus] at h
          by_cases hNumber : (token input).kind = .number
          · rw [if_pos hNumber] at h
            obtain ⟨hIs, hRest⟩ := Prod.mk.inj (Except.ok.inj h)
            cases input with
            | nil => cases hNumber
            | cons number input =>
                refine ⟨[t, number], by rw [← hRest]; rfl, ?_⟩
                rw [← hIs]
                exact .negative (Token.is_iff.1 hMinus) hNumber
          · rw [if_neg hNumber] at h
            cases h
        · rw [if_neg hMinus] at h
          cases hPrimary : primary expression (t :: input) with
          | error failure =>
              rw [hPrimary] at h
              cases h
          | ok found =>
              obtain ⟨value, after⟩ := found
              rw [hPrimary] at h
              dsimp only at h
              cases hBehind : postfix_ value after with
              | error failure =>
                  rw [hBehind] at h
                  cases h
              | ok _ =>
                  rw [hBehind] at h
                  obtain ⟨hIs, hRest⟩ := Prod.mk.inj (Except.ok.inj h)
                  obtain ⟨l, hInput, hDerives⟩ := primary_sound hExpression _ _ _ hPrimary
                  refine ⟨l, by rw [hInput, hRest], ?_⟩
                  rw [← hIs]
                  exact .value hDerives

theorem comparison_sound {operators chained : List String} {operand : Parse Token BsxError Expr}
    {level inner : Level} (hOperand : Sound operand (Derives f64 inner))
    (hOne : ∀ {l e}, Derives f64 inner l e → Derives f64 level l e)
    (hTwo : ∀ {l r left right operator}, Derives f64 inner l left → operator.IsAny operators →
      Derives f64 inner r right →
        Derives f64 level (l ++ operator :: r) (.compare operator.value left right operator.offset)) :
    Sound (comparison operators chained operand) (Derives f64 level) := by
  intro input e rest h
  unfold comparison at h
  cases hLeft : operand input with
  | error failure =>
      rw [hLeft] at h
      cases h
  | ok found =>
      obtain ⟨left, after⟩ := found
      rw [hLeft] at h
      dsimp only at h
      obtain ⟨l, hInput, hDerives⟩ := hOperand _ _ _ hLeft
      by_cases hOperator : is_op after operators = true
      · rw [if_pos hOperator] at h
        obtain ⟨operator, later, hAfter, hIsOperator⟩ := of_is_op hOperator
        rw [hAfter] at h
        dsimp only [List.tail_cons] at h
        cases hRight : operand later with
        | error failure =>
            rw [hRight] at h
            cases h
        | ok found =>
            obtain ⟨right, behind⟩ := found
            rw [hRight] at h
            dsimp only at h
            by_cases hChained : is_op behind chained = true
            · rw [if_pos hChained] at h
              cases h
            · rw [if_neg hChained] at h
              obtain ⟨hIs, hRest⟩ := Prod.mk.inj (Except.ok.inj h)
              obtain ⟨r, hLater, hDerives'⟩ := hOperand _ _ _ hRight
              refine ⟨l ++ operator :: r, ?_, ?_⟩
              · rw [hInput, hAfter, hLater, hRest, List.append_assoc]
                rfl
              · rw [← hIs]
                exact hTwo hDerives hIsOperator hDerives'
      · rw [if_neg hOperator] at h
        obtain ⟨hIs, hRest⟩ := Prod.mk.inj (Except.ok.inj h)
        refine ⟨l, by rw [hInput, hRest], ?_⟩
        rw [← hIs]
        exact hOne hDerives

theorem chain_sound {operator : Logic} {inner : Parse Token BsxError Expr}
    (hInner : Sound inner (Derives f64 operator.operand)) :
    Sound (chain operator inner) (Derives f64 (.chain operator)) := by
  intro input e rest h
  unfold chain at h
  cases hFirst : inner input with
  | error failure =>
      rw [hFirst] at h
      cases h
  | ok found =>
      obtain ⟨first, after⟩ := found
      rw [hFirst] at h
      dsimp only at h
      obtain ⟨l, hInput, hDerives⟩ := hInner _ _ _ hFirst
      cases hMore : operands (·.is_op [operator.text]) inner after.length [first] after with
      | error failure =>
          rw [hMore] at h
          cases h
      | ok found =>
          obtain ⟨all, behind⟩ := found
          rw [hMore] at h
          obtain ⟨l', later, hAfter, hAll, hTrailing⟩ := operands_sound hInner hMore
          rw [is_op_eq] at hTrailing
          rw [hAll] at h
          cases later with
          | nil =>
              cases hTrailing
              obtain ⟨hIs, hRest⟩ := Prod.mk.inj (Except.ok.inj h)
              refine ⟨l, by rw [hInput, hAfter, hRest]; rfl, ?_⟩
              rw [← hIs]
              exact .operand hDerives
          | cons second others =>
              obtain ⟨hIs, hRest⟩ := Prod.mk.inj (Except.ok.inj h)
              refine ⟨l ++ l', by rw [hInput, hAfter, hRest, List.append_assoc], ?_⟩
              rw [← hIs]
              exact .chain hDerives (List.cons_ne_nil _ _) (operands_of_trailing hTrailing)

theorem ternary_sound (hExpression : Sound expression (Derives f64 .expression)) :
    Sound (ternary f64 expression) (Derives f64 .expression) := by
  have hRelation : Sound (relation f64 expression) (Derives f64 .relation) :=
    comparison_sound (unary_sound hExpression) .term .relation
  have hEquality : Sound (equality f64 expression) (Derives f64 .equality) :=
    comparison_sound hRelation .side .equality
  have hAnd : Sound (chain .and (equality f64 expression)) (Derives f64 Logic.or.operand) :=
    @chain_sound f64 .and _ hEquality
  have hOr : Sound (chain .or (chain .and (equality f64 expression))) (Derives f64 Logic.coalesce.operand) :=
    @chain_sound f64 .or _ hAnd
  have hCoalesce : Sound (logical f64 expression .coalesce) (Derives f64 (.chain .coalesce)) :=
    @chain_sound f64 .coalesce _ hOr
  intro input e rest h
  unfold ternary at h
  cases hCond : logical f64 expression .coalesce input with
  | error failure =>
      rw [hCond] at h
      cases h
  | ok found =>
      obtain ⟨cond, after⟩ := found
      rw [hCond] at h
      dsimp only at h
      obtain ⟨c, hInput, hDerives⟩ := hCoalesce _ _ _ hCond
      by_cases hQuestion : is_op after ["?"] = true
      · rw [if_pos hQuestion] at h
        obtain ⟨question, later, hAfter, hIsQuestion⟩ := of_is_op hQuestion
        rw [hAfter] at h
        dsimp only [List.tail_cons] at h
        cases hThen : expression later with
        | error failure =>
            rw [hThen] at h
            cases h
        | ok found =>
            obtain ⟨then_, behind⟩ := found
            rw [hThen] at h
            dsimp only at h
            cases hColon : expect ":" behind with
            | error failure =>
                rw [hColon] at h
                cases h
            | ok found =>
                obtain ⟨colon, last⟩ := found
                rw [hColon] at h
                dsimp only at h
                cases hOtherwise : expression last with
                | error failure =>
                    rw [hOtherwise] at h
                    cases h
                | ok found =>
                    obtain ⟨otherwise, final⟩ := found
                    rw [hOtherwise] at h
                    obtain ⟨hIs, hRest⟩ := Prod.mk.inj (Except.ok.inj h)
                    obtain ⟨t, hLater, hThenDerives⟩ := hExpression _ _ _ hThen
                    obtain ⟨hBehind, hIsColon⟩ := expect_ok hColon
                    obtain ⟨o, hLast, hOtherwiseDerives⟩ := hExpression _ _ _ hOtherwise
                    have hIsOne : question.Is "?" := ⟨hIsQuestion.1, List.mem_singleton.1 hIsQuestion.2⟩
                    refine ⟨c ++ question :: (t ++ colon :: o), ?_, ?_⟩
                    · rw [hInput, hAfter, hLater, hBehind, hLast, hRest]
                      simp only [List.cons_append, List.append_assoc]
                    · rw [← hIs]
                      exact .ternary hDerives hIsOne hThenDerives hIsColon hOtherwiseDerives
      · rw [if_neg hQuestion] at h
        obtain ⟨hIs, hRest⟩ := Prod.mk.inj (Except.ok.inj h)
        refine ⟨c, by rw [hInput, hRest], ?_⟩
        rw [← hIs]
        exact .cond hDerives

/-- What is parsed, to whatever depth, the grammar derives. -/
theorem expression_sound (n : Nat) : Sound (Bsx.expression f64 n) (Derives f64 .expression) := by
  induction n with
  | zero =>
      intro input e rest h
      cases h
  | succ n ih => exact ternary_sound ih

end Rekuest.Bsx
