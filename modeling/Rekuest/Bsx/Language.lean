import Rekuest.Bsx.Complete

/-!
# The language of expressions

The parser accepts the grammar, and nothing else: a text whose tokens are an expression, and for
an attribute also a call with a name for its record.
-/

namespace Rekuest.Bsx

open Rekuest.Ports Parsing

variable {f64 : List Char → Option Dyadic}

/-- The end of a text. -/
def ending (last : Nat) : Token := ⟨.done, "", last, .null⟩

/-- A callback that names the record of its call. -/
def Named (f64 : List Char → Option Dyadic) (l : List Token) (e : Expr) : Prop :=
  ∃ c into name call, l = c ++ [into, name] ∧ Derives f64 .expression c (.call call) ∧
    into.kind = .name ∧ into.value = "into" ∧ name.kind = .name ∧ e = .into call name.value into.offset

/-- Tokens that are all of the text. -/
def Inside (l : List Token) : Prop := ∀ t ∈ l, t.kind ≠ .done

theorem Inside.cons {t : Token} {l : List Token} (ht : t.kind ≠ .done) (hl : Inside l) : Inside (t :: l) :=
  List.forall_mem_cons.2 ⟨ht, hl⟩

theorem Inside.append {l l' : List Token} (hl : Inside l) (hl' : Inside l') : Inside (l ++ l') :=
  List.forall_mem_append.2 ⟨hl, hl'⟩

theorem Inside.nil : Inside [] := nofun

theorem Token.Is.inside {t : Token} {operator : String} (ht : t.Is operator) : t.kind ≠ .done := by
  rw [ht.1]
  nofun

theorem Token.IsAny.inside {t : Token} {operators : List String} (ht : t.IsAny operators) : t.kind ≠ .done := by
  rw [ht.1]
  nofun

theorem Token.inside_of_kind {t : Token} {kind : TokenKind} (ht : t.kind = kind) (hKind : kind ≠ .done) :
    t.kind ≠ .done := by
  rw [ht]
  exact hKind

theorem Fields.inside {l : List Token} {names : List String} (h : Fields l names) : Inside l := by
  induction h with
  | nil => exact .nil
  | cons hDot hName _ ih => exact .cons hDot.inside (.cons (Token.inside_of_kind hName nofun) ih)

theorem key_inside {key : Token} {name : String} (h : key_name key = some name) : key.kind ≠ .done := by
  intro hDone
  unfold key_name at h
  rw [hDone] at h
  cases h

mutual

theorem Derives.inside {level : Level} {l : List Token} {e : Expr} : Derives f64 level l e → Inside l
  | .cond h => h.inside
  | .ternary hCond hQuestion hThen hColon hOtherwise =>
      hCond.inside.append (.cons hQuestion.inside (hThen.inside.append (.cons hColon.inside hOtherwise.inside)))
  | .operand h => h.inside
  | .chain hFirst _ hLater => hFirst.inside.append hLater.inside
  | .side h => h.inside
  | .equality hLeft hOperator hRight => hLeft.inside.append (.cons hOperator.inside hRight.inside)
  | .term h => h.inside
  | .relation hLeft hOperator hRight => hLeft.inside.append (.cons hOperator.inside hRight.inside)
  | .value h => h.inside
  | .not hBang h => .cons hBang.inside h.inside
  | .negative hMinus hNumber => .cons hMinus.inside (.cons (Token.inside_of_kind hNumber nofun) .nil)
  | .number ht => .cons (Token.inside_of_kind ht nofun) .nil
  | .string ht => .cons (Token.inside_of_kind ht nofun) .nil
  | .word ht _ => .cons (Token.inside_of_kind ht nofun) .nil
  | .path ht hFields => .cons (Token.inside_of_kind ht.1 nofun) hFields.inside
  | .call ht hFields hOpening hClosing hArguments =>
      .cons (Token.inside_of_kind ht.1 nofun) (hFields.inside.append
        (.cons hOpening.inside (hArguments.inside.append (.cons hClosing.inside .nil))))
  | .list hOpening hClosing hItems =>
      .cons hOpening.inside (hItems.inside.append (.cons hClosing.inside .nil))
  | .object hOpening hClosing hEntries =>
      .cons hOpening.inside (hEntries.inside.append (.cons hClosing.inside .nil))
  | .group hOpening hClosing h => .cons hOpening.inside (h.inside.append (.cons hClosing.inside .nil))

theorem Operands.inside {operator : Logic} {l : List Token} {later : List Expr} :
    Operands f64 operator l later → Inside l
  | .nil => .nil
  | .cons hIs h hLater => .cons hIs.inside (h.inside.append hLater.inside)

theorem Items.inside {l : List Token} {items : List Expr} : Items f64 l items → Inside l
  | .nil => .nil
  | .last h => h.inside
  | .more h hComma hLater => h.inside.append (.cons hComma.inside hLater.inside)

theorem IsArgument.inside {l : List Token} {a : Argument} : IsArgument f64 l a → Inside l
  | .positional h => h.inside
  | .named hName hColon h => .cons (Token.inside_of_kind hName nofun) (.cons hColon.inside h.inside)

theorem Arguments.inside {l : List Token} {arguments : List Argument} : Arguments f64 l arguments → Inside l
  | .nil => .nil
  | .last h => h.inside
  | .more h hComma hLater => h.inside.append (.cons hComma.inside hLater.inside)

theorem IsEntry.inside {read : List (String × Expr)} {l : List Token} {entry : String × Expr} :
    IsEntry f64 read l entry → Inside l
  | .mk hKey _ hColon h => .cons (key_inside hKey) (.cons hColon.inside h.inside)

theorem Entries.inside {read : List (String × Expr)} {l : List Token} {entries : List (String × Expr)} :
    Entries f64 read l entries → Inside l
  | .nil => .nil
  | .last h => h.inside
  | .more h hComma hLater => h.inside.append (.cons hComma.inside hLater.inside)

end

/-- Of a text's tokens, an expression and the end of the text behind it are all. -/
theorem eq_of_done {l front rest : List Token} {last : Nat} (hInside : Inside l)
    (h : l ++ [ending last] = front ++ rest) (hDone : (token rest).kind = .done) (hFront : Inside front) :
    front = l ∧ rest = [ending last] := by
  rcases List.append_eq_append_iff.1 h with ⟨m, hFrontIs, hRest⟩ | ⟨m, hL, hRest⟩
  · cases m with
    | nil =>
        rw [List.append_nil] at hFrontIs
        exact ⟨hFrontIs, hRest.symm⟩
    | cons t m =>
        obtain ⟨hT, -⟩ := List.cons.inj hRest
        have hMem : ending last ∈ front := by
          rw [hFrontIs, ← hT]
          exact List.mem_append.2 (.inr List.mem_cons_self)
        exact absurd rfl (hFront _ hMem)
  · cases m with
    | nil =>
        rw [List.append_nil] at hL
        exact ⟨hL.symm, hRest⟩
    | cons t m =>
        rw [hRest] at hDone
        have hMem : t ∈ l := by
          rw [hL]
          exact List.mem_append.2 (.inr List.mem_cons_self)
        exact absurd hDone (hInside t hMem)

theorem finish_ok {rest : List Token} (h : finish rest = .ok ()) : (token rest).kind = .done := by
  unfold finish at h
  by_cases hDone : (token rest).kind = .done
  · exact hDone
  · rw [if_neg hDone] at h
    cases h

/-- An expression that is all of a text, and what the parser reads of it. -/
theorem expression_all {l : List Token} {e : Expr} (h : Derives f64 .expression l e) (last : Nat) :
    Bsx.expression f64 (l ++ [ending last]).length (l ++ [ending last]) = .ok (e, [ending last]) := by
  refine expression_complete (l ++ [ending last]).length l e [ending last] h ?_ ?_
  · rw [List.length_append]
    omega
  · exact Stops.of_kind (nofun : (ending last).kind ≠ .op) []

theorem not_done_of_derives {l : List Token} {e : Expr} (h : Derives f64 .expression l e) (rest : List Token) :
    (token (l ++ rest)).kind ≠ .done := by
  obtain ⟨t, later, hL, ht⟩ := h.starts
  rw [hL]
  exact ht.1

/-- A value: what is all of the text is an expression. -/
theorem value_of_iff {l : List Token} {last : Nat} (hInside : Inside l) (e : Expr) :
    value_of f64 (l ++ [ending last]) = .ok e ↔ Derives f64 .expression l e := by
  unfold value_of
  constructor
  · intro h
    by_cases hDone : (token (l ++ [ending last])).kind = .done
    · rw [if_pos hDone] at h
      cases h
    · rw [if_neg hDone] at h
      cases hRead : Bsx.expression f64 (l ++ [ending last]).length (l ++ [ending last]) with
      | error failure =>
          rw [hRead] at h
          cases h
      | ok found =>
          obtain ⟨value, rest⟩ := found
          rw [hRead] at h
          dsimp only at h
          cases hFinish : finish rest with
          | error failure =>
              rw [hFinish] at h
              cases h
          | ok _ =>
              rw [hFinish] at h
              obtain ⟨front, hToks, hDerives⟩ := expression_sound _ _ _ _ hRead
              obtain ⟨hFront, -⟩ := eq_of_done hInside hToks (finish_ok hFinish) hDerives.inside
              rw [← hFront, ← Except.ok.inj h]
              exact hDerives
  · intro h
    rw [if_neg (not_done_of_derives h _), expression_all h]
    rfl

/-- An attribute's expression: a value, or a call whose record is named. -/
theorem attribute_of_iff {l : List Token} {last : Nat} (hInside : Inside l) (e : Expr) :
    attribute_of f64 (l ++ [ending last]) = .ok e ↔ Derives f64 .expression l e ∨ Named f64 l e := by
  unfold attribute_of callback
  constructor
  · intro h
    by_cases hDone : (token (l ++ [ending last])).kind = .done
    · rw [if_pos hDone] at h
      cases h
    · rw [if_neg hDone] at h
      by_cases hAwait : is_name (l ++ [ending last]) "await" = true
      · rw [if_pos hAwait] at h
        cases h
      · rw [if_neg hAwait] at h
        cases hRead : Bsx.expression f64 (l ++ [ending last]).length (l ++ [ending last]) with
        | error failure =>
            rw [hRead] at h
            cases h
        | ok found =>
            obtain ⟨value, rest⟩ := found
            rw [hRead] at h
            dsimp only at h
            obtain ⟨front, hToks, hDerives⟩ := expression_sound _ _ _ _ hRead
            by_cases hInto : is_name rest "into" = true
            · rw [if_pos hInto] at h
              cases value with
              | call call =>
                  dsimp only at h
                  by_cases hBad : (token rest.tail).kind ≠ .name ∨ (peek rest.tail).kind ≠ .done
                  · rw [if_pos hBad] at h
                    cases h
                  · rw [if_neg hBad] at h
                    obtain ⟨hName, hEnd⟩ := not_or.1 hBad
                    have hIsName := Decidable.not_not.1 hName
                    have hIsEnd := Decidable.not_not.1 hEnd
                    unfold is_name at hInto
                    rw [Bool.and_eq_true, decide_eq_true_iff, decide_eq_true_iff] at hInto
                    match rest, hInto, hIsName, hIsEnd, hToks, h with
                    | [], hInto, _, _, _, _ => cases hInto.1
                    | [_], _, hIsName, _, _, _ => cases hIsName
                    | into :: [name], hInto, hIsName, hIsEnd, _, _ =>
                        have hBoth : name.kind = .done := hIsEnd
                        rw [show name.kind = .name from hIsName] at hBoth
                        cases hBoth
                    | into :: name :: t :: after, hInto, hIsName, hIsEnd, hToks, h =>
                        have hAll : l ++ [ending last] = (front ++ [into, name]) ++ t :: after := by
                          rw [hToks, List.append_assoc]
                          rfl
                        have hIntoKind : into.kind ≠ .done := Token.inside_of_kind hInto.1 nofun
                        have hNameKind : name.kind ≠ .done := Token.inside_of_kind hIsName nofun
                        obtain ⟨hFront, -⟩ := eq_of_done hInside hAll hIsEnd
                          (hDerives.inside.append (.cons hIntoKind (.cons hNameKind .nil)))
                        right
                        exact ⟨front, into, name, call, hFront.symm, hDerives, hInto.1, hInto.2, hIsName,
                          (Except.ok.inj h).symm⟩
              | _ => cases h
            · rw [if_neg hInto] at h
              cases hFinish : finish rest with
              | error failure =>
                  rw [hFinish] at h
                  cases h
              | ok _ =>
                  rw [hFinish] at h
                  obtain ⟨hFront, -⟩ := eq_of_done hInside hToks (finish_ok hFinish) hDerives.inside
                  left
                  rw [← hFront, ← Except.ok.inj h]
                  exact hDerives
  · have hNoAwait : ∀ {c : List Token} {e : Expr}, Derives f64 .expression c e → ∀ rest,
        ¬ is_name (c ++ rest) "await" = true := by
      intro c e h rest hAwait
      obtain ⟨t, later, hC, ht⟩ := h.starts
      rw [hC] at hAwait
      unfold is_name at hAwait
      rw [Bool.and_eq_true, decide_eq_true_iff, decide_eq_true_iff] at hAwait
      have hRefused := ht.2.2 hAwait.1
      rw [show t.value = "await" from hAwait.2] at hRefused
      exact hRefused (by decide)
    rintro (h | ⟨c, into, name, call, hL, h, hInto, hWord, hName, hE⟩)
    · rw [if_neg (not_done_of_derives h _), if_neg (hNoAwait h _), expression_all h]
      rfl
    · rw [hL, List.append_assoc, if_neg (not_done_of_derives h _), if_neg (hNoAwait h _)]
      have hStops : Stops (goes_on .expression) ([into, name] ++ [ending last]) :=
        Stops.of_kind (by rw [hInto]; nofun) _
      rw [expression_complete _ c _ _ h (by rw [List.length_append]; omega) hStops]
      dsimp only
      have hIsInto : is_name ([into, name] ++ [ending last]) "into" = true := by
        unfold is_name
        rw [Bool.and_eq_true, decide_eq_true_iff, decide_eq_true_iff]
        exact ⟨hInto, hWord⟩
      have hFine : ¬ ((token ([into, name] ++ [ending last]).tail).kind ≠ .name ∨
          (peek ([into, name] ++ [ending last]).tail).kind ≠ .done) := by
        rintro (hNot | hNot)
        · exact hNot hName
        · exact hNot rfl
      rw [if_pos hIsInto, if_neg hFine, hE]
      rfl

/-- The parser accepts exactly the grammar, with its trees: a text whose tokens are an expression,
and for an attribute also a call whose record is named. -/
theorem parse_iff (f64 : List Char → Option Dyadic) (text : List Char) (base : Nat) (e : Expr) :
    (parse_expression f64 text base = .ok e ↔
      ∃ l last, tokens f64 base text = .ok (l ++ [ending last]) ∧ Inside l ∧ Derives f64 .expression l e) ∧
    (parse_attribute f64 text base = .ok e ↔
      ∃ l last, tokens f64 base text = .ok (l ++ [ending last]) ∧ Inside l ∧
        (Derives f64 .expression l e ∨ Named f64 l e)) := by
  unfold parse_expression parse_attribute
  cases hTokens : tokens f64 base text with
  | error failure =>
      constructor
      · constructor
        · intro h
          cases h
        · rintro ⟨l, last, h, -⟩
          cases h
      · constructor
        · intro h
          cases h
        · rintro ⟨l, last, h, -⟩
          cases h
  | ok toks =>
      dsimp only
      obtain ⟨l, last, hToks, hInside⟩ := tokens_from_done f64 hTokens
      have hIs : toks = l ++ [ending last] := hToks
      have hSame : ∀ {l' : List Token} {last' : Nat}, toks = l' ++ [ending last'] → l' = l := by
        intro l' last' h
        exact (List.append_inj' (h.symm.trans hIs) rfl).1
      constructor
      · rw [hIs, value_of_iff hInside]
        constructor
        · intro h
          exact ⟨l, last, rfl, hInside, h⟩
        · rintro ⟨l', last', h, -, hDerives⟩
          rw [← hSame (hIs.trans (Except.ok.inj h))]
          exact hDerives
      · rw [hIs, attribute_of_iff hInside]
        constructor
        · intro h
          exact ⟨l, last, rfl, hInside, h⟩
        · rintro ⟨l', last', h, -, hDerives⟩
          rw [← hSame (hIs.trans (Except.ok.inj h))]
          exact hDerives

end Rekuest.Bsx
