import Rekuest.Ports.Compiled

/-!
# Descriptors compile as they are meant

Accepted descriptors compile to one text in both compilers, and the text parses into the
conjunction of their conditions, exactly when it can be printed: the keys are more than a
root, keys and strings hold neither U+0000 nor U+007F, what is compared with is a scalar,
and no choice among no values stands beside another descriptor.
-/

namespace Rekuest.Ports

open JsonPath.Query
open JsonPath (Numeral Closes closes_nil)

variable {spell : Dyadic → Formulas.Spelling}

/-! ## Plain text prints alike -/

theorem toNat_of_ne_delete {c : Char} (h : c ≠ '\x7f') : c.toNat ≠ 0x7f := by
  intro hNat
  apply h
  have hChar : c = Char.ofNat 0x7f := by rw [← hNat, Char.ofNat_toNat]
  exact hChar

theorem char_alike {c : Char} (h : c ≠ '\x7f') : Formulas.string_char c = python_char c := by
  have hDelete := toNat_of_ne_delete h
  unfold Formulas.string_char python_char units
  -- the escapes with a letter are the same
  iterate 7 refine if_congr Iff.rfl rfl ?_
  by_cases hPrintable : 0x20 ≤ c.toNat ∧ c.toNat ≤ 0x7e
  · have hKept : ¬ (c.toNat < 0x20 ∨ 0x80 ≤ c.toNat) := by omega
    rw [if_pos hPrintable, if_neg hKept]
  · have hEscaped : c.toNat < 0x20 ∨ 0x80 ≤ c.toNat := by omega
    rw [if_neg hPrintable, if_pos hEscaped]

theorem quoted_alike {s : List Char} (h : plain_text s = true) :
    quoted Formulas.string_char s = quoted python_char s := by
  have hEach : s.flatMap Formulas.string_char = s.flatMap python_char := by
    apply List.flatMap_congr
    intro c hc
    have hPlain := List.all_eq_true.1 h c hc
    simp only [ne_eq, Bool.and_eq_true, decide_eq_true_eq] at hPlain
    exact char_alike hPlain.2
  unfold quoted
  rw [hEach]

theorem dumps_alike {value : Value} (h : plain_scalar value = true) :
    dumps spell Formulas.string_char value = dumps spell python_char value := by
  cases value with
  | null => rfl
  | bool b => cases b <;> rfl
  | int n => rfl
  | float x => rfl
  | string s =>
      rw [dumps_string, dumps_string]
      exact quoted_alike h
  | array items => cases h
  | object fields => cases h

theorem compared_alike {o : Comparison} {items : Bool} {key : List Char} {value : Value}
    (hKey : plain_text key = true) (hValue : plain_scalar value = true) :
    compared_text spell Formulas.string_char o items key value =
      compared_text spell python_char o items key value := by
  unfold compared_text path_text
  rw [quoted_alike hKey, dumps_alike hValue]

/-- A condition of plain text and scalars prints alike in both. -/
theorem text_alike {condition : Condition} {key : List Char} (h : condition.plain key = true) :
    condition.text spell Formulas.string_char key = condition.text spell python_char key := by
  cases condition with
  | presence there =>
      cases there with
      | true => rw [present_text, present_text, path_text, path_text, quoted_alike h]
      | false => rw [absent_text, absent_text, path_text, path_text, quoted_alike h]
  | comparison o items value =>
      obtain ⟨hKey, hValue⟩ := Bool.and_eq_true_iff.1 h
      exact compared_alike hKey hValue
  | choice among values =>
      cases values with
      | nil => rfl
      | cons value values =>
          obtain ⟨hKey, hValues⟩ := Bool.and_eq_true_iff.1 h
          have hEach (o : Comparison) :
              (value :: values).map (compared_text spell Formulas.string_char o false key) =
                (value :: values).map (compared_text spell python_char o false key) := by
            apply List.map_congr_left
            intro v hv
            exact compared_alike hKey (List.all_eq_true.1 hValues v hv)
          rw [choice_text, choice_text, hEach]

/-! ## What U+007F tells apart -/

section Delete

theorem hexDigit_visible : ∀ n < 16, hexDigit n ≠ '\x7f' := by decide

theorem hex4_visible (n : Nat) : '\x7f' ∉ Formulas.hex4 n := by
  intro hDelete
  simp only [Formulas.hex4, List.mem_cons, List.not_mem_nil, or_false] at hDelete
  rcases hDelete with h | h | h | h
  · exact hexDigit_visible (n / 4096 % 16) (by omega) h.symm
  · exact hexDigit_visible (n / 256 % 16) (by omega) h.symm
  · exact hexDigit_visible (n / 16 % 16) (by omega) h.symm
  · exact hexDigit_visible (n % 16) (by omega) h.symm

/-- No character of Python's is printed as U+007F. -/
theorem python_char_visible (c : Char) : '\x7f' ∉ python_char c := by
  have hUnits : '\x7f' ∉ units c := by
    intro hDelete
    obtain ⟨unit, -, hDelete⟩ := List.mem_flatMap.1 hDelete
    rcases List.mem_cons.1 hDelete with h | h
    · exact absurd h (by decide)
    · rcases List.mem_cons.1 h with h | h
      · exact absurd h (by decide)
      · exact hex4_visible unit h
  unfold python_char
  repeat' split
  · decide
  · decide
  · decide
  · decide
  · decide
  · decide
  · decide
  · rename_i hPrintable
    intro hDelete
    have hSame : '\x7f' = c := List.mem_singleton.1 hDelete
    rw [← hSame] at hPrintable
    exact absurd hPrintable (by decide)
  · exact hUnits

theorem quoted_visible (s : List Char) : '\x7f' ∉ quoted python_char s := by
  intro hDelete
  unfold quoted at hDelete
  rcases List.mem_cons.1 hDelete with h | h
  · exact absurd h (by decide)
  · rcases List.mem_append.1 h with h | h
    · obtain ⟨c, -, h⟩ := List.mem_flatMap.1 h
      exact python_char_visible c h
    · exact absurd (List.mem_singleton.1 h) (by decide)

/-- The server prints U+007F as it is. -/
theorem quoted_keeps {s : List Char} (h : '\x7f' ∈ s) : '\x7f' ∈ quoted Formulas.string_char s := by
  unfold quoted
  refine List.mem_cons_of_mem _ (List.mem_append_left _ (List.mem_flatMap.2 ⟨'\x7f', h, ?_⟩))
  decide

theorem digits_visible {digits : List Char} (h : ∀ c ∈ digits, c.isDigit = true) : '\x7f' ∉ digits := by
  intro hDelete
  exact absurd (h _ hDelete) (by decide)

theorem numeral_visible {k : Numeral} (hValid : k.Valid) : '\x7f' ∉ k.text := by
  intro hDelete
  unfold Numeral.text at hDelete
  simp only [List.mem_append] at hDelete
  rcases hDelete with h | h | h
  · exact digits_visible hValid.whole_digits h
  · cases hFraction : k.fraction with
    | none =>
        rw [hFraction] at h
        cases h
    | some digits =>
        rw [hFraction] at h
        rcases List.mem_cons.1 h with h | h
        · exact absurd h (by decide)
        · exact digits_visible (hValid.fraction_digits digits hFraction).2 h
  · cases hExponent : k.exponent with
    | none =>
        rw [hExponent] at h
        cases h
    | some pair =>
        obtain ⟨sign, digits⟩ := pair
        obtain ⟨hSign, hDigits⟩ := hValid.exponent_digits sign digits hExponent
        rw [hExponent] at h
        rcases List.mem_cons.1 h with h | h
        · exact absurd h (by decide)
        · rcases List.mem_append.1 h with h | h
          · rcases hSign with rfl | rfl | rfl
            · cases h
            · exact absurd (List.mem_singleton.1 h) (by decide)
            · exact absurd (List.mem_singleton.1 h) (by decide)
          · exact digits_visible hDigits.2 h

theorem sign_visible {negative : Bool} {text : List Char} (h : '\x7f' ∉ text) :
    '\x7f' ∉ (if negative then ['-'] else []) ++ text := by
  intro hDelete
  rcases List.mem_append.1 hDelete with hSign | hText
  · cases negative with
    | true => exact absurd (List.mem_singleton.1 hSign) (by decide)
    | false => cases hSign
  · exact h hText

theorem literal_visible {value : Value} (h : (literal spell value).isSome = true) :
    '\x7f' ∉ dumps spell python_char value := by
  cases value with
  | null =>
      show '\x7f' ∉ "null".toList
      decide
  | bool b =>
      cases b with
      | true =>
          show '\x7f' ∉ "true".toList
          decide
      | false =>
          show '\x7f' ∉ "false".toList
          decide
  | int n =>
      rw [dumps_int, int_text]
      intro hDelete
      rcases List.mem_append.1 hDelete with hSign | hText
      · by_cases hNegative : n < 0
        · rw [if_pos hNegative] at hSign
          exact absurd (List.mem_singleton.1 hSign) (by decide)
        · rw [if_neg hNegative] at hSign
          cases hSign
      · exact digits_visible (Formulas.digits_valid n.natAbs).whole_digits hText
  | float x =>
      rw [dumps_float]
      exact sign_visible (numeral_visible (spell x).valid)
  | string s =>
      rw [dumps_string]
      exact quoted_visible _
  | array items => cases h
  | object fields => cases h

end Delete

/-! ## What has a tree is plain, up to U+007F -/

section Trees

theorem plain_text_of {s : List Char} (hNull : '\x00' ∉ s) (hDelete : '\x7f' ∉ s) :
    plain_text s = true := by
  apply List.all_eq_true.2
  intro c hc
  have hFirst : c ≠ '\x00' := fun h => hNull (h ▸ hc)
  have hSecond : c ≠ '\x7f' := fun h => hDelete (h ▸ hc)
  simp [hFirst, hSecond]

theorem no_null_of_text {s : List Char} {text : Text} (h : text_of s = some text) : '\x00' ∉ s := by
  unfold text_of at h
  by_cases hNull : '\x00' ∈ s
  · rw [dif_pos hNull] at h
    cases h
  · exact hNull

theorem plain_of_member {key : List Char} {e : Expr} (h : member key = some e)
    (hDelete : '\x7f' ∉ path_text Formulas.string_char key) : plain_text key = true := by
  unfold member at h
  obtain ⟨text, hText, -⟩ := Option.map_eq_some_iff.1 h
  refine plain_text_of (no_null_of_text hText) fun hKey => hDelete ?_
  exact List.mem_cons_of_mem _ (List.mem_cons_of_mem _ (quoted_keeps hKey))

theorem plain_of_literal {value : Value} {e : Expr} (h : literal spell value = some e)
    (hDelete : '\x7f' ∉ dumps spell Formulas.string_char value) : plain_scalar value = true := by
  cases value with
  | null => rfl
  | bool b => rfl
  | int n => rfl
  | float x => rfl
  | string s =>
      rw [literal] at h
      obtain ⟨text, hText, -⟩ := Option.map_eq_some_iff.1 h
      rw [dumps_string] at hDelete
      exact plain_text_of (no_null_of_text hText) fun hKey => hDelete (quoted_keeps hKey)
  | array items => cases h
  | object fields => cases h

/-- A comparison that has a tree is with a member and a literal. -/
theorem of_compared {o : Comparison} {items : Bool} {key : List Char} {value : Value} {p : Predicate}
    (h : compared spell o items key value = some p) :
    (∃ e, member key = some e) ∧ ∃ v, literal spell value = some v := by
  unfold compared at h
  cases hMember : member key with
  | none =>
      rw [hMember] at h
      cases h
  | some e =>
      cases hLiteral : literal spell value with
      | none =>
          rw [hMember, hLiteral] at h
          cases h
      | some v => exact ⟨⟨e, rfl⟩, v, rfl⟩

theorem every_some {α : Type} {items : List (Option α)} {members : List α} (h : every items = some members) :
    ∀ item ∈ items, ∃ a, item = some a := by
  induction items generalizing members with
  | nil =>
      intro item hItem
      cases hItem
  | cons item rest ih =>
      cases item with
      | none => cases h
      | some a =>
          rw [every] at h
          obtain ⟨others, hOthers, -⟩ := Option.map_eq_some_iff.1 h
          exact List.forall_mem_cons.2 ⟨⟨a, rfl⟩, ih hOthers⟩

theorem mem_separated {separator : String} {parts : List (List Char)} {part : List Char} {c : Char}
    (hPart : part ∈ parts) (hc : c ∈ part) : c ∈ separated separator parts := by
  induction parts with
  | nil => cases hPart
  | cons first rest ih =>
      cases rest with
      | nil =>
          rw [List.mem_singleton] at hPart
          subst hPart
          simpa [separated, List.intercalate] using hc
      | cons next more =>
          rw [separated_cons, List.mem_append, List.mem_append]
          cases hPart with
          | head => exact .inl hc
          | tail _ hRest => exact .inr (.inr (ih hRest))

theorem of_mem_separated {separator : String} {parts : List (List Char)} {c : Char}
    (h : c ∈ separated separator parts) : c ∈ separator.toList ∨ ∃ part ∈ parts, c ∈ part := by
  induction parts with
  | nil => simp [separated, List.intercalate] at h
  | cons first rest ih =>
      cases rest with
      | nil => exact .inr ⟨first, by simp, by simpa [separated, List.intercalate] using h⟩
      | cons next more =>
          rw [separated_cons, List.mem_append, List.mem_append] at h
          rcases h with h | h | h
          · exact .inr ⟨first, by simp, h⟩
          · exact .inl h
          · rcases ih h with hSeparator | ⟨part, hPart, hc⟩
            · exact .inl hSeparator
            · exact .inr ⟨part, List.mem_cons_of_mem _ hPart, hc⟩

theorem delete_in_compared {char : Char → List Char} {o : Comparison} {items : Bool} {key : List Char}
    {value : Value} :
    '\x7f' ∈ compared_text spell char o items key value ↔
      '\x7f' ∈ path_text char key ∨ '\x7f' ∈ dumps spell char value := by
  unfold compared_text
  cases items <;> cases o <;> simp [symbol]

theorem plain_of_compared {o : Comparison} {items : Bool} {key : List Char} {value : Value}
    {p : Predicate} (h : compared spell o items key value = some p)
    (hDelete : '\x7f' ∉ compared_text spell Formulas.string_char o items key value) :
    plain_text key = true ∧ plain_scalar value = true := by
  obtain ⟨⟨e, hMember⟩, v, hLiteral⟩ := of_compared h
  rw [delete_in_compared, not_or] at hDelete
  exact ⟨plain_of_member hMember hDelete.1, plain_of_literal hLiteral hDelete.2⟩

theorem compared_visible {o : Comparison} {items : Bool} {key : List Char} {value : Value}
    {p : Predicate} (h : compared spell o items key value = some p) :
    '\x7f' ∉ compared_text spell python_char o items key value := by
  obtain ⟨-, v, hLiteral⟩ := of_compared h
  rw [delete_in_compared, not_or]
  refine ⟨fun hPath => ?_, literal_visible (by rw [hLiteral]; rfl)⟩
  rcases List.mem_cons.1 hPath with h | h
  · exact absurd h (by decide)
  · rcases List.mem_cons.1 h with h | h
    · exact absurd h (by decide)
    · exact quoted_visible key h

theorem of_choice {among : Bool} {key : List Char} {value : Value} {values : List Value} {path : Path}
    (h : (Condition.choice among (value :: values)).tree spell key = some path) :
    ∀ v ∈ value :: values, ∃ p, compared spell (if among then .eq else .ne) false key v = some p := by
  rw [Condition.tree] at h
  · obtain ⟨joint, hJoined, -⟩ := Option.map_eq_some_iff.1 h
    obtain ⟨predicates, hEvery, -⟩ := Option.bind_eq_some_iff.1 hJoined
    intro v hv
    exact every_some hEvery _ (List.mem_map_of_mem hv)
  · intro hNil
    cases hNil

/-- A condition that has a tree is plain, where its text of the server holds no U+007F. -/
theorem plain_of_tree {condition : Condition} {key : List Char} {path : Path}
    (h : condition.tree spell key = some path)
    (hDelete : '\x7f' ∉ condition.text spell Formulas.string_char key) : condition.plain key = true := by
  cases condition with
  | presence there =>
      have hPath : '\x7f' ∉ path_text Formulas.string_char key := by
        intro hPath
        cases there with
        | true => exact hDelete (by simp [present_text, hPath])
        | false => exact hDelete (by simp [absent_text, hPath])
      cases there with
      | true =>
          obtain ⟨e, hMember, -⟩ := Option.map_eq_some_iff.1 h
          exact plain_of_member hMember hPath
      | false =>
          obtain ⟨e, hMember, -⟩ := Option.map_eq_some_iff.1 h
          exact plain_of_member hMember hPath
  | comparison o items value =>
      obtain ⟨p, hCompared, -⟩ := Option.map_eq_some_iff.1 h
      obtain ⟨hKey, hValue⟩ := plain_of_compared hCompared hDelete
      rw [Condition.plain, hKey, hValue]
      rfl
  | choice among values =>
      cases values with
      | nil => rfl
      | cons value values =>
          have hEach : ∀ v ∈ value :: values, plain_text key = true ∧ plain_scalar v = true := by
            intro v hv
            obtain ⟨p, hCompared⟩ := of_choice h v hv
            refine plain_of_compared hCompared fun hText => hDelete ?_
            rw [choice_text]
            exact List.mem_cons_of_mem _ (List.mem_append_left _
              (mem_separated (List.mem_map_of_mem hv) hText))
          refine Bool.and_eq_true_iff.2 ⟨(hEach value (by simp)).1, ?_⟩
          exact List.all_eq_true.2 fun v hv => (hEach v hv).2

/-- The text of Python of a condition that has a tree holds no U+007F. -/
theorem text_visible {condition : Condition} {key : List Char} {path : Path}
    (h : condition.tree spell key = some path) : '\x7f' ∉ condition.text spell python_char key := by
  cases condition with
  | presence there =>
      have hQuoted := quoted_visible key
      cases there with
      | true => simp [present_text, path_text, hQuoted]
      | false => simp [absent_text, path_text, hQuoted]
  | comparison o items value =>
      obtain ⟨p, hCompared, -⟩ := Option.map_eq_some_iff.1 h
      exact compared_visible hCompared
  | choice among values =>
      cases values with
      | nil => cases among <;> simp [no_choice_text]
      | cons value values =>
          intro hDelete
          rw [choice_text] at hDelete
          rcases List.mem_cons.1 hDelete with hLeft | hDelete
          · exact absurd hLeft (by decide)
          · rcases List.mem_append.1 hDelete with hInner | hRight
            · rcases of_mem_separated hInner with hSeparator | ⟨part, hPart, hDelete⟩
              · cases among with
                | true => exact absurd hSeparator (by decide)
                | false => exact absurd hSeparator (by decide)
              · obtain ⟨v, hv, rfl⟩ := List.mem_map.1 hPart
                obtain ⟨p, hCompared⟩ := of_choice h v hv
                exact compared_visible hCompared hDelete
            · exact absurd (List.mem_singleton.1 hRight) (by decide)

theorem constant_of_predicate {condition : Condition} {key : List Char} {p : Predicate}
    (h : condition.tree spell key = some (.predicate p)) : condition.constant = false := by
  cases condition with
  | presence there => rfl
  | comparison o items value => rfl
  | choice among values =>
      cases values with
      | nil => cases h
      | cons value values => rfl

end Trees

/-! ## All of a port's descriptors -/

section Descriptors

variable {ds : List DescriptorConstraint} {owner : String}

/-- The text of a descriptor's condition. -/
def condition_text (spell : Dyadic → Formulas.Spelling) (char : Char → List Char)
    (d : DescriptorConstraint) : List Char :=
  d.asks.text spell char (strip_root d.key)

theorem rust_each (hAccepted : ∀ d ∈ ds, d.validate owner = .ok ())
    (hNamed : ∀ d ∈ ds, strip_root d.key ≠ []) :
    Rust.compile_each spell ds = .ok (ds.map (condition_text spell Formulas.string_char)) := by
  induction ds with
  | nil => rfl
  | cons d rest ih =>
      rw [Rust.compile_each, rust_condition (hAccepted d (by simp)) (hNamed d (by simp)),
        ih (fun e he => hAccepted e (List.mem_cons_of_mem _ he))
          fun e he => hNamed e (List.mem_cons_of_mem _ he)]
      rfl

theorem python_each (hAccepted : ∀ d ∈ ds, d.validate owner = .ok ())
    (hNamed : ∀ d ∈ ds, strip_root d.key ≠ []) :
    Python.compile_each spell ds = .ok (ds.map (condition_text spell python_char)) := by
  induction ds with
  | nil => rfl
  | cons d rest ih =>
      rw [Python.compile_each, python_condition (hAccepted d (by simp)) (hNamed d (by simp)),
        ih (fun e he => hAccepted e (List.mem_cons_of_mem _ he))
          fun e he => hNamed e (List.mem_cons_of_mem _ he)]
      rfl

/-- A key that is a root and nothing else is refused. -/
theorem named_of_each {parts : List (List Char)} (h : Rust.compile_each spell ds = .ok parts) :
    ∀ d ∈ ds, strip_root d.key ≠ [] := by
  induction ds generalizing parts with
  | nil =>
      intro d hd
      cases hd
  | cons d rest ih =>
      rw [Rust.compile_each] at h
      obtain ⟨part, hPart, h⟩ := bind_ok h
      obtain ⟨others, hOthers, -⟩ := bind_ok h
      refine List.forall_mem_cons.2 ⟨?_, ih hOthers⟩
      intro hNone
      unfold Rust.compile_condition at hPart
      obtain ⟨path, hPath, -⟩ := bind_ok hPart
      unfold Rust.normalize_jsonpath_key at hPath
      dsimp only at hPath
      rw [if_pos hNone] at hPath
      cases hPath

theorem rust_compiled {d : DescriptorConstraint} (hAccepted : ∀ e ∈ d :: ds, e.validate owner = .ok ())
    (hNamed : ∀ e ∈ d :: ds, strip_root e.key ≠ []) :
    Rust.compile_descriptors_to_jsonpath spell (d :: ds) =
      .ok (some (separated " && " ((d :: ds).map (condition_text spell Formulas.string_char)))) := by
  unfold Rust.compile_descriptors_to_jsonpath
  rw [rust_each hAccepted hNamed]
  rfl

theorem python_compiled {d : DescriptorConstraint} (hAccepted : ∀ e ∈ d :: ds, e.validate owner = .ok ())
    (hNamed : ∀ e ∈ d :: ds, strip_root e.key ≠ []) :
    Python.compile_descriptors_to_jsonpath spell (d :: ds) =
      .ok (some (separated " && " ((d :: ds).map (condition_text spell python_char)))) := by
  unfold Python.compile_descriptors_to_jsonpath
  rw [python_each hAccepted hNamed]
  rfl

/-- What can be printed parses into the conjunction. -/
theorem parses_conjunction {d : DescriptorConstraint} (h : Printable (d :: ds)) :
    ∃ path, conjunction spell (d :: ds) = some path ∧
      parse (separated " && " ((d :: ds).map (condition_text spell Formulas.string_char))) = some path := by
  cases ds with
  | nil =>
      have hPlain := h.plain d (by simp)
      have hText : separated " && " ([d].map (condition_text spell Formulas.string_char)) =
          d.asks.text spell Formulas.string_char (strip_root d.key) := by
        simp [separated, List.intercalate, condition_text]
      rw [hText]
      cases hConstant : d.asks.constant with
      | false =>
          obtain ⟨tokens, p, hTree, hReads, hLeads⟩ := condition_leads hPlain hConstant
          exact ⟨.predicate p, hTree, parse_of_whole hReads closes_nil hLeads.whole⟩
      | true =>
          obtain ⟨tokens, path, hTree, hReads, hParses⟩ := constant_parses (strip_root d.key) hConstant
          exact ⟨path, hTree, parse_of_whole hReads closes_nil hParses⟩
  | cons e rest =>
      have hEach : ∀ c ∈ d :: e :: rest, ∃ tokens p,
          (DescriptorConstraint.tree spell c).bind as_predicate = some p ∧
            Reads Closes (condition_text spell Formulas.string_char c) tokens ∧
            Leads tokens (.predicate p) := by
        intro c hc
        have hConstant := h.joinable (by simp) c hc
        obtain ⟨tokens, p, hTree, hReads, hLeads⟩ := condition_leads (h.plain c hc) hConstant
        refine ⟨tokens, p, ?_, hReads, hLeads⟩
        rw [DescriptorConstraint.tree, hTree]
        rfl
      obtain ⟨tokens, p, hTree, hReads, hParses⟩ :=
        row_parses .and reads_and ⟨_, rfl⟩ (by decide) (fun _ _ => rfl) hEach
      refine ⟨.predicate p, ?_, parse_of_whole hReads closes_nil hParses⟩
      show (((every ((d :: e :: rest).map fun descriptor =>
        (descriptor.tree spell).bind as_predicate)).bind (joined .and)).map Path.predicate) = _
      rw [hTree]
      rfl

/-- Each descriptor of a conjunction has a tree, and a predicate beside another one. -/
theorem of_conjunction {path : Path} (h : conjunction spell ds = some path) :
    ∀ d ∈ ds, ∃ own, d.tree spell = some own ∧
      (2 ≤ ds.length → ∃ p, own = .predicate p) := by
  cases ds with
  | nil => cases h
  | cons d rest =>
      cases rest with
      | nil =>
          intro c hc
          rw [List.mem_singleton] at hc
          subst hc
          refine ⟨path, h, fun hLength => ?_⟩
          simp at hLength
      | cons e rest =>
          have hAll : (((every ((d :: e :: rest).map fun descriptor =>
              (descriptor.tree spell).bind as_predicate)).bind (joined .and)).map Path.predicate) =
                some path := h
          obtain ⟨joint, hJoined, -⟩ := Option.map_eq_some_iff.1 hAll
          obtain ⟨predicates, hEvery, -⟩ := Option.bind_eq_some_iff.1 hJoined
          intro c hc
          obtain ⟨p, hOwn⟩ := every_some hEvery _ (List.mem_map_of_mem hc)
          obtain ⟨own, hTree, hPredicate⟩ := Option.bind_eq_some_iff.1 hOwn
          refine ⟨own, hTree, fun _ => ?_⟩
          cases own with
          | expr e => cases hPredicate
          | predicate q => exact ⟨q, rfl⟩

/-- Two texts that are the same hold no U+007F, where Python's do not. -/
theorem printable_of_same {d : DescriptorConstraint} (hNamed : ∀ e ∈ d :: ds, strip_root e.key ≠ [])
    {path : Path} (hTree : conjunction spell (d :: ds) = some path)
    (hSame : separated " && " ((d :: ds).map (condition_text spell Formulas.string_char)) =
      separated " && " ((d :: ds).map (condition_text spell python_char))) : Printable (d :: ds) := by
  have hTrees := of_conjunction hTree
  have hVisible : '\x7f' ∉ separated " && " ((d :: ds).map (condition_text spell python_char)) := by
    intro hDelete
    rcases of_mem_separated hDelete with hSeparator | ⟨part, hPart, hDelete⟩
    · exact absurd hSeparator (by decide)
    · obtain ⟨c, hc, rfl⟩ := List.mem_map.1 hPart
      obtain ⟨own, hOwn, -⟩ := hTrees c hc
      exact text_visible hOwn hDelete
  rw [← hSame] at hVisible
  refine ⟨hNamed, ?_, ?_⟩
  · intro c hc
    obtain ⟨own, hOwn, -⟩ := hTrees c hc
    exact plain_of_tree hOwn fun hDelete =>
      hVisible (mem_separated (List.mem_map_of_mem hc) hDelete)
  · intro hLength c hc
    obtain ⟨own, hOwn, hPredicate⟩ := hTrees c hc
    obtain ⟨p, rfl⟩ := hPredicate hLength
    exact constant_of_predicate hOwn

/-- Accepted descriptors compile to one text that parses into the conjunction of their
conditions if and only if they can be printed. -/
theorem compiles_as_meant_iff (hAccepted : ∀ d ∈ ds, d.validate owner = .ok ()) :
    CompilesAsMeant spell ds ↔ Printable ds := by
  cases ds with
  | nil =>
      constructor
      · intro _
        refine ⟨?_, ?_, ?_⟩
        · intro d hd
          cases hd
        · intro d hd
          cases hd
        · intro _ d hd
          cases hd
      · intro _
        exact ⟨none, rfl, rfl, rfl⟩
  | cons d rest =>
      constructor
      · rintro ⟨compiled, hRust, hPython, hMeant⟩
        have hNamed : ∀ e ∈ d :: rest, strip_root e.key ≠ [] := by
          have hEach : (do
            let parts ← Rust.compile_each spell (d :: rest)
            return some (separated " && " parts) : Except String (Option (List Char))) = .ok compiled := hRust
          obtain ⟨parts, hParts, -⟩ := bind_ok hEach
          exact named_of_each hParts
        rw [rust_compiled hAccepted hNamed] at hRust
        rw [python_compiled hAccepted hNamed] at hPython
        cases hRust
        obtain ⟨path, hTree, -⟩ := hMeant
        exact printable_of_same hNamed hTree (Option.some.inj (Except.ok.inj hPython)).symm
      · intro h
        obtain ⟨path, hTree, hParses⟩ := @parses_conjunction spell _ _ h
        refine ⟨_, rust_compiled hAccepted h.named, ?_, path, hTree, hParses⟩
        rw [python_compiled hAccepted h.named]
        have hSame : (d :: rest).map (condition_text spell python_char) =
            (d :: rest).map (condition_text spell Formulas.string_char) :=
          List.map_congr_left fun c hc => (text_alike (h.plain c hc)).symm
        rw [hSame]

end Descriptors

/-! ## Three descriptors, and a list that is compared with -/

/-- A printing of doubles, where there are none. -/
theorem zero_valid : ({ whole := ['0'] } : Numeral).Valid := Formulas.digits_valid 0

def no_doubles (_ : Dyadic) : Formulas.Spelling :=
  { negative := false, numeral := { whole := ['0'] }, valid := zero_valid }

def of_an_image : List DescriptorConstraint :=
  [⟨"axes", .IN, some (.array [.string "c", .string "t"])⟩, ⟨"$.@mikro/n", .GTE, some (.int 2)⟩,
    ⟨"x", .EXISTS, some (.bool true)⟩]

theorem image_as_meant : CompilesAsMeant no_doubles of_an_image ↔ Printable of_an_image := by
  have hAccepted : ∀ d ∈ of_an_image, d.validate "requires" = .ok () := by
    intro d hd
    simp only [of_an_image, List.mem_cons, List.not_mem_nil, or_false] at hd
    rcases hd with rfl | rfl | rfl
    · rfl
    · rfl
    · rfl
  exact compiles_as_meant_iff hAccepted

def equals_list : DescriptorConstraint := ⟨"axes", .EQUALS, some (.array [.string "c"])⟩

/-- A list to compare with is accepted, and the path it compiles to does not parse. -/
theorem equals_list_lost :
    ¬ ∀ (spell : Dyadic → Formulas.Spelling) (owner : String) (ds : List DescriptorConstraint),
      (∀ d ∈ ds, d.validate owner = .ok ()) → CompilesAsMeant spell ds := by
  intro hAll
  have hAccepted : ∀ d ∈ [equals_list], d.validate "requires" = .ok () := by
    intro d hd
    rw [List.mem_singleton] at hd
    rw [hd]
    rfl
  obtain ⟨compiled, hRust, -, hMeant⟩ := hAll no_doubles "requires" [equals_list] hAccepted
  have hText : Rust.compile_descriptors_to_jsonpath no_doubles [equals_list] =
      .ok (some "$.\x22axes\x22 == [\x22c\x22]".toList) := by rfl
  rw [hText] at hRust
  cases hRust
  obtain ⟨path, -, hParses⟩ := hMeant
  have hNone : parse "$.\x22axes\x22 == [\x22c\x22]".toList = none := by decide +kernel
  rw [hNone] at hParses
  cases hParses

-- A choice among no values is a constant, and the grammar joins no constants.
example : parse "(false)".toList = some (.expr (.bool false)) ∧
    parse "(false) && exists($.\x22x\x22)".toList = none := by decide +kernel

end Rekuest.Ports
