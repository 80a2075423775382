import Rekuest.Bsx.Sound

/-!
# How expressions begin and what may follow them

The first token of an expression is no closing one, a name it begins with is not a named
argument's, and a level of the parser stops where no operator follows that would go on with it.
-/

namespace Rekuest.Bsx

open Rekuest.Ports Parsing

variable {f64 : List Char → Option Dyadic}

/-! ## What may follow -/

/-- The operators that go on with a value, or that none may follow. -/
def behind_value : List String := ["[", "(", ".", "=>"]

/-- The operators that go on with an expression of a level. -/
def goes_on : Level → List String
  | .primary => behind_value
  | .unary => behind_value
  | .relation => behind_value ++ COMPARISONS
  | .equality => behind_value ++ COMPARISONS ++ ["==", "!="]
  | .chain .and => behind_value ++ COMPARISONS ++ ["==", "!="] ++ ["&&"]
  | .chain .or => behind_value ++ COMPARISONS ++ ["==", "!="] ++ ["&&"] ++ ["||"]
  | .chain .coalesce => behind_value ++ COMPARISONS ++ ["==", "!="] ++ ["&&"] ++ ["||"] ++ ["??"]
  | .expression => behind_value ++ COMPARISONS ++ ["==", "!="] ++ ["&&"] ++ ["||"] ++ ["??"] ++ ["?"]

/-- What follows does not go on with some operators. -/
def Stops (operators : List String) (rest : List Token) : Prop := Ends (·.is_op operators) rest

theorem Stops.subset {few many : List String} {rest : List Token} (h : Stops many rest)
    (hSubset : ∀ v ∈ few, v ∈ many) : Stops few rest := by
  intro t ht
  have hMany := h t ht
  rw [Bool.eq_false_iff] at hMany ⊢
  intro hFew
  apply hMany
  rw [Token.is_op_iff] at hFew ⊢
  exact ⟨hFew.1, hSubset _ hFew.2⟩

theorem Stops.is_op {operators : List String} {rest : List Token} (h : Stops operators rest) :
    is_op rest operators = false := by
  cases rest with
  | nil => rfl
  | cons t rest => exact h t rfl

/-- An operator that is not among those. -/
theorem Stops.of_is {operators : List String} {t : Token} {operator : String} (ht : t.Is operator)
    (hNot : operator ∉ operators) (rest : List Token) : Stops operators (t :: rest) := by
  intro t' ht'
  rw [← Option.some.inj ht', Bool.eq_false_iff]
  intro hOp
  have hMem : t.value ∈ operators := (Token.is_op_iff.1 hOp).2
  rw [ht.2] at hMem
  exact hNot hMem

/-- No operator at all. -/
theorem Stops.of_kind {operators : List String} {t : Token} (ht : t.kind ≠ .op) (rest : List Token) :
    Stops operators (t :: rest) := by
  intro t' ht'
  rw [← Option.some.inj ht', Bool.eq_false_iff]
  intro hOp
  rw [Token.is_op_iff] at hOp
  exact ht hOp.1

theorem Token.Is.is_op {t : Token} {operator : String} (ht : t.Is operator) : t.is_op [operator] = true :=
  Token.is_iff.2 ht

theorem Token.Is.not_op {t : Token} {operator : String} (ht : t.Is operator) {operators : List String}
    (hNot : operator ∉ operators) : t.is_op operators = false :=
  Stops.of_is ht hNot [] t rfl

theorem Token.not_op_of_kind {t : Token} (ht : t.kind ≠ .op) (operators : List String) :
    t.is_op operators = false :=
  Stops.of_kind ht [] t rfl

/-! ## How expressions begin -/

/-- The first token of an expression: no closing token, and no word that is refused. -/
def Token.Starts (t : Token) : Prop :=
  t.kind ≠ .done ∧ (t.kind = .op → t.value ∈ ["!", "-", "(", "[", "\x7b"]) ∧
    (t.kind = .name → t.value ∉ REFUSED_NAMES)

theorem Token.Starts.of_kind {t : Token} {kind : TokenKind} (ht : t.kind = kind) (hDone : kind ≠ .done)
    (hOp : kind ≠ .op) (hName : kind ≠ .name) : t.Starts := by
  refine ⟨ht ▸ hDone, fun hIs => ?_, fun hIs => ?_⟩
  · exact absurd (ht.symm.trans hIs) hOp
  · exact absurd (ht.symm.trans hIs) hName

theorem Token.Starts.of_is {t : Token} {operator : String} (ht : t.Is operator)
    (hMem : operator ∈ ["!", "-", "(", "[", "\x7b"]) : t.Starts := by
  refine ⟨?_, fun _ => ht.2 ▸ hMem, fun hIs => ?_⟩
  · rw [ht.1]
    nofun
  · rw [ht.1] at hIs
    cases hIs

theorem Token.Starts.of_begins {t : Token} (ht : t.Begins) : t.Starts := by
  refine ⟨?_, fun hIs => ?_, fun _ => ht.2.2⟩
  · rw [ht.1]
    nofun
  · rw [ht.1] at hIs
    cases hIs

theorem Token.Starts.of_word {t : Token} {value : Value} (ht : t.kind = .name)
    (hWord : word_value t.value = some value) : t.Starts := by
  refine ⟨?_, fun hIs => ?_, fun _ hRefused => ?_⟩
  · rw [ht]
    nofun
  · rw [ht] at hIs
    cases hIs
  · have hNone : ∀ word ∈ REFUSED_NAMES, word_value word = none := by
      intro word hMem
      unfold REFUSED_NAMES at hMem
      simp only [List.mem_cons, List.not_mem_nil, or_false] at hMem
      rcases hMem with rfl | rfl | rfl | rfl | rfl | rfl | rfl | rfl | rfl | rfl <;> rfl
    rw [hNone t.value hRefused] at hWord
    cases hWord

theorem Derives.starts {level : Level} {l : List Token} {e : Expr} :
    Derives f64 level l e → ∃ t rest, l = t :: rest ∧ t.Starts
  | .cond h => h.starts
  | .ternary h _ _ _ _ => by
      obtain ⟨t, rest, hL, ht⟩ := h.starts
      exact ⟨t, _, by rw [hL]; rfl, ht⟩
  | .operand h => h.starts
  | .chain h _ _ => by
      obtain ⟨t, rest, hL, ht⟩ := h.starts
      exact ⟨t, _, by rw [hL]; rfl, ht⟩
  | .side h => h.starts
  | .equality h _ _ => by
      obtain ⟨t, rest, hL, ht⟩ := h.starts
      exact ⟨t, _, by rw [hL]; rfl, ht⟩
  | .term h => h.starts
  | .relation h _ _ => by
      obtain ⟨t, rest, hL, ht⟩ := h.starts
      exact ⟨t, _, by rw [hL]; rfl, ht⟩
  | .value h => h.starts
  | .not hBang _ => ⟨_, _, rfl, .of_is hBang (by decide)⟩
  | .negative hMinus _ => ⟨_, _, rfl, .of_is hMinus (by decide)⟩
  | .number ht => ⟨_, _, rfl, .of_kind ht nofun nofun nofun⟩
  | .string ht => ⟨_, _, rfl, .of_kind ht nofun nofun nofun⟩
  | .word ht hWord => ⟨_, _, rfl, .of_word ht hWord⟩
  | .path ht _ => ⟨_, _, rfl, .of_begins ht⟩
  | .call ht _ _ _ _ => ⟨_, _, rfl, .of_begins ht⟩
  | .list hOpening _ _ => ⟨_, _, rfl, .of_is hOpening (by decide)⟩
  | .object hOpening _ _ => ⟨_, _, rfl, .of_is hOpening (by decide)⟩
  | .group hOpening _ _ => ⟨_, _, rfl, .of_is hOpening (by decide)⟩

theorem Token.Starts.not_op {t : Token} (ht : t.Starts) {operators : List String}
    (hNot : ∀ v ∈ ["!", "-", "(", "[", "\x7b"], v ∉ operators) : t.is_op operators = false := by
  rw [Bool.eq_false_iff]
  intro hOp
  rw [Token.is_op_iff] at hOp
  exact hNot _ (ht.2.1 hOp.1) hOp.2

/-- Behind a first name stands neither a colon nor an assignment. -/
def Unnamed (l : List Token) : Prop :=
  ∀ t t' rest, l = t :: t' :: rest → t.kind = .name → t'.is_op [":", "="] = false

theorem Unnamed.append {l m : List Token} (h : Unnamed l) (hl : l ≠ []) (hm : Stops [":", "="] m) :
    Unnamed (l ++ m) := by
  intro t t' rest hL hName
  match l, h, hl, hL with
  | [], _, hl, _ => exact absurd rfl hl
  | [_], _, _, hL =>
      obtain ⟨-, hM⟩ := List.cons.inj hL
      rw [show m = t' :: rest from hM] at hm
      exact hm t' rfl
  | a :: b :: l, h, _, hL =>
      obtain ⟨hA, hL⟩ := List.cons.inj hL
      obtain ⟨hB, -⟩ := List.cons.inj hL
      rw [← hA] at hName
      rw [← hB]
      exact h a b l rfl hName

theorem Unnamed.single (t : Token) : Unnamed [t] := by
  intro t' t'' rest hL
  cases (List.cons.inj hL).2

theorem Unnamed.of_kind {t : Token} (ht : t.kind ≠ .name) (l : List Token) : Unnamed (t :: l) := by
  intro t' t'' rest hL hName
  rw [← (List.cons.inj hL).1] at hName
  exact absurd hName ht

theorem Token.Is.not_name {t : Token} {operator : String} (ht : t.Is operator) : t.kind ≠ .name := by
  rw [ht.1]
  nofun

theorem Fields.stops {l : List Token} {names : List String} (h : Fields l names) {m : List Token}
    {operators : List String} (hDot : "." ∉ operators) (hm : Stops operators m) :
    Stops operators (l ++ m) := by
  cases h with
  | nil => exact hm
  | cons hIs _ _ => exact Stops.of_is hIs hDot _

theorem Operands.stops {operator : Logic} {l : List Token} {later : List Expr} (h : Operands f64 operator l later)
    {m : List Token} {operators : List String} (hNot : operator.text ∉ operators) (hm : Stops operators m) :
    Stops operators (l ++ m) := by
  cases h with
  | nil => exact hm
  | cons hIs _ _ => exact Stops.of_is hIs hNot _

theorem Token.IsAny.is {t : Token} {operators : List String} (ht : t.IsAny operators) : t.Is t.value :=
  ⟨ht.1, rfl⟩

theorem Derives.unnamed {level : Level} {l : List Token} {e : Expr} : Derives f64 level l e → Unnamed l
  | .cond h => h.unnamed
  | .ternary h hQuestion _ _ _ => h.unnamed.append h.ne_nil (Stops.of_is hQuestion (by decide) _)
  | .operand h => h.unnamed
  | @Derives.chain _ operator _ rest _ _ h _ hLater => by
      have hNot : operator.text ∉ [":", "="] := by cases operator <;> decide
      have hEnds : Stops [":", "="] [] := nofun
      have hStops := hLater.stops hNot hEnds
      rw [List.append_nil] at hStops
      exact h.unnamed.append h.ne_nil hStops
  | .side h => h.unnamed
  | .equality h hOperator _ => by
      refine h.unnamed.append h.ne_nil (Stops.of_is hOperator.is ?_ _)
      have hApart : ∀ v ∈ ["==", "!="], v ∉ [":", "="] := by decide
      exact hApart _ hOperator.2
  | .term h => h.unnamed
  | .relation h hOperator _ => by
      refine h.unnamed.append h.ne_nil (Stops.of_is hOperator.is ?_ _)
      have hApart : ∀ v ∈ COMPARISONS, v ∉ [":", "="] := by decide
      exact hApart _ hOperator.2
  | .value h => h.unnamed
  | .not hBang _ => .of_kind hBang.not_name _
  | .negative hMinus _ => .of_kind hMinus.not_name _
  | .number _ => .single _
  | .string _ => .single _
  | .word _ _ => .single _
  | .path (t := t) _ hFields => by
      have hEnds : Stops [":", "="] [] := nofun
      have hStops := hFields.stops (by decide) hEnds
      rw [List.append_nil] at hStops
      exact (Unnamed.single t).append (List.cons_ne_nil _ _) hStops
  | .call (t := t) _ hFields hOpening _ _ =>
      (Unnamed.single t).append (List.cons_ne_nil _ _)
        (hFields.stops (by decide) (Stops.of_is hOpening (by decide) _))
  | .list hOpening _ _ => .of_kind hOpening.not_name _
  | .object hOpening _ _ => .of_kind hOpening.not_name _
  | .group hOpening _ _ => .of_kind hOpening.not_name _

end Rekuest.Bsx
