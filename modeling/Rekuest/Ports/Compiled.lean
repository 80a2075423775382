import Rekuest.Formulas.Compiled
import Rekuest.JsonPath.Spelled
import Rekuest.Ports.Compile

/-!
# What accepted descriptors compile to

Descriptors that are accepted compile to the texts of their conditions.  A condition of
plain text and scalars reads as words that parse as its tree, and the trees are joined as
the texts are, so long as each is a predicate: a choice among no values is a constant, which
the grammar does not join.
-/

namespace Rekuest.Ports

open JsonPath.Query
open JsonPath (Numeral IsName Quotes Closes closes_nil is_name is_blank)

variable {spell : Dyadic → Formulas.Spelling}

/-! ## The text of a condition -/

section Texts

variable (spell) (char : Char → List Char)

def path_text (key : List Char) : List Char := '$' :: '.' :: quoted char key

def symbol : Comparison → List Char
  | .eq => ['=', '=']
  | .ne => ['!', '=']
  | .gt => ['>']
  | .gte => ['>', '=']
  | .lt => ['<']
  | .lte => ['<', '=']

def compared_text (o : Comparison) (items : Bool) (key : List Char) (value : Value) : List Char :=
  path_text char key ++ ((if items then ['[', '*', ']'] else []) ++
    (' ' :: (symbol o ++ [' ']) ++ dumps spell char value))

def Condition.text (key : List Char) : Condition → List Char
  | .presence true => "exists".toList ++ '(' :: (path_text char key ++ [')'])
  | .presence false => '!' :: '(' :: ("exists".toList ++ '(' :: (path_text char key ++ [')']) ++ [')'])
  | .comparison o items value => compared_text spell char o items key value
  | .choice among [] => '(' :: ((if among then "false" else "true").toList ++ [')'])
  | .choice among values =>
      '(' :: (separated (if among then " || " else " && ")
        (values.map (compared_text spell char (if among then .eq else .ne) false key)) ++ [')'])

theorem present_text (key : List Char) : (Condition.presence true).text spell char key =
    "exists".toList ++ '(' :: (path_text char key ++ [')']) := by
  unfold Condition.text
  rfl

theorem absent_text (key : List Char) : (Condition.presence false).text spell char key =
    '!' :: '(' :: ("exists".toList ++ '(' :: (path_text char key ++ [')']) ++ [')']) := by
  unfold Condition.text
  rfl

theorem no_choice_text (among : Bool) (key : List Char) : (Condition.choice among []).text spell char key =
    '(' :: ((if among then "false" else "true").toList ++ [')']) := by
  unfold Condition.text
  rfl

theorem choice_text (among : Bool) (key : List Char) (value : Value) (values : List Value) :
    (Condition.choice among (value :: values)).text spell char key =
      '(' :: (separated (if among then " || " else " && ") ((value :: values).map
        (compared_text spell char (if among then .eq else .ne) false key)) ++ [')']) := by
  unfold Condition.text
  rfl

theorem comparison_text (o : Comparison) (items : Bool) (key : List Char) (value : Value) :
    (Condition.comparison o items value).text spell char key = compared_text spell char o items key value := by
  unfold Condition.text
  rfl

theorem dumps_string (s : String) : dumps spell char (.string s) = quoted char s.toList := rfl

theorem dumps_int (n : Int) : dumps spell char (.int n) = int_text n := rfl

theorem dumps_float (x : Dyadic) : dumps spell char (.float x) = (spell x).text := rfl

end Texts

theorem ofList_path (char : Char → List Char) (key : List Char) :
    "$.".toList ++ dumps spell char (.string (String.ofList key)) = path_text char key := by
  rw [dumps_string]
  simp only [String.toList_ofList]
  rfl

theorem compared_text_flat (char : Char → List Char) (o : Comparison) (key : List Char) :
    compared_text spell char o false key =
      fun value => path_text char key ++ ' ' :: (symbol o ++ ' ' :: dumps spell char value) := by
  funext value
  simp [compared_text]

section Accepted

variable {d : DescriptorConstraint} {owner : String}

/-- Operator and value of an accepted descriptor. -/
theorem operator_of_accepted (h : d.validate owner = .ok ()) : d.check_operator owner = .ok () := by
  obtain ⟨_, _, hOperator⟩ := bind_ok h
  exact hOperator

theorem listed_of_accepted (h : d.validate owner = .ok ())
    (hOperator : d.operator = .IN ∨ d.operator = .NOT_IN) : ∃ items, d.read = .array items := by
  have hCheck := operator_of_accepted h
  unfold DescriptorConstraint.check_operator at hCheck
  rcases hOperator with hOperator | hOperator
  · rw [hOperator] at hCheck
    cases hRead : d.read with
    | array items => exact ⟨items, rfl⟩
    | null | bool | int | float | string | object =>
        rw [hRead] at hCheck
        cases hCheck
  · rw [hOperator] at hCheck
    cases hRead : d.read with
    | array items => exact ⟨items, rfl⟩
    | null | bool | int | float | string | object =>
        rw [hRead] at hCheck
        cases hCheck

theorem presence_of_accepted (h : d.validate owner = .ok ()) (hOperator : d.operator = .EXISTS) :
    d.read = .null ∨ ∃ b, d.read = .bool b := by
  have hCheck := operator_of_accepted h
  unfold DescriptorConstraint.check_operator at hCheck
  rw [hOperator] at hCheck
  cases hRead : d.read with
  | null => exact .inl rfl
  | bool b => exact .inr ⟨b, rfl⟩
  | array | int | float | string | object =>
      rw [hRead] at hCheck
      cases hCheck

/-- The server compiles an accepted descriptor to the text of its condition. -/
theorem rust_condition (h : d.validate owner = .ok ()) (hKey : strip_root d.key ≠ []) :
    Rust.compile_condition spell d =
      .ok (d.asks.text spell Formulas.string_char (strip_root d.key)) := by
  have hPath : Rust.normalize_jsonpath_key spell d.key =
      .ok (path_text Formulas.string_char (strip_root d.key)) := by
    unfold Rust.normalize_jsonpath_key
    dsimp only
    rw [if_neg hKey, ofList_path]
  unfold Rust.compile_condition DescriptorConstraint.asks
  rw [hPath]
  cases hOperator : d.operator with
  | EXISTS =>
      rcases presence_of_accepted h hOperator with hRead | ⟨b, hRead⟩
      · rw [hRead]
        rfl
      · rw [hRead]
        cases b with
        | true => rfl
        | false => simp [bind, Except.bind, absent_text]
  | MATCHES | EQUALS | NOT_EQUALS | GTE | LTE => simp [bind, Except.bind, comparison_text, compared_text, symbol]
  | CONTAINS => simp [bind, Except.bind, comparison_text, compared_text, symbol]
  | IN =>
      obtain ⟨items, hRead⟩ := listed_of_accepted h (.inl hOperator)
      rw [hRead]
      cases items with
      | nil => rfl
      | cons item rest => simp [bind, Except.bind, choice_text, compared_text_flat, symbol]
  | NOT_IN =>
      obtain ⟨items, hRead⟩ := listed_of_accepted h (.inr hOperator)
      rw [hRead]
      cases items with
      | nil => rfl
      | cons item rest => simp [bind, Except.bind, choice_text, compared_text_flat, symbol]

/-- So does the compiler in Python, with its own characters. -/
theorem python_condition (h : d.validate owner = .ok ()) (hKey : strip_root d.key ≠ []) :
    Python.compile_descriptor_condition spell d =
      .ok (d.asks.text spell python_char (strip_root d.key)) := by
  have hPath : Python.normalize_jsonpath_key spell d.key =
      .ok (path_text python_char (strip_root d.key)) := by
    unfold Python.normalize_jsonpath_key
    dsimp only
    rw [if_neg hKey, Python.json_dumps, ofList_path]
  unfold Python.compile_descriptor_condition DescriptorConstraint.asks
  rw [hPath]
  cases hOperator : d.operator with
  | EXISTS =>
      rcases presence_of_accepted h hOperator with hRead | ⟨b, hRead⟩
      · rw [hRead]
        rfl
      · rw [hRead]
        cases b with
        | true => rfl
        | false => simp [bind, Except.bind, absent_text]
  | MATCHES | EQUALS | NOT_EQUALS | GTE | LTE =>
      simp [bind, Except.bind, comparison_text, compared_text, symbol, Python.json_dumps]
  | CONTAINS => simp [bind, Except.bind, comparison_text, compared_text, symbol, Python.json_dumps]
  | IN =>
      obtain ⟨items, hRead⟩ := listed_of_accepted h (.inl hOperator)
      rw [hRead]
      cases items with
      | nil => rfl
      | cons item rest =>
          simp [bind, Except.bind, choice_text, compared_text_flat, symbol, Python.json_dumps]
  | NOT_IN =>
      obtain ⟨items, hRead⟩ := listed_of_accepted h (.inr hOperator)
      rw [hRead]
      cases items with
      | nil => rfl
      | cons item rest =>
          simp [bind, Except.bind, choice_text, compared_text_flat, symbol, Python.json_dumps]

end Accepted

/-! ## Its words -/

theorem clean_of_plain {s : List Char} (h : plain_text s = true) : '\x00' ∉ s := by
  intro hNull
  have hEach := List.all_eq_true.1 h _ hNull
  exact absurd hEach (by decide)

theorem text_of_plain {s : List Char} (h : plain_text s = true) :
    ∃ text : Text, text.chars = s ∧ text_of s = some text :=
  ⟨⟨s, clean_of_plain h⟩, rfl, dif_neg (clean_of_plain h)⟩

theorem reads_sign (negative : Bool) {k : Numeral} (hValid : k.Valid) :
    ∃ tokens, Reads Closes ((if negative then ['-'] else []) ++ k.text) tokens ∧
      ParsesOperand tokens (.expr (signed negative (.number k))) := by
  cases negative with
  | false => exact ⟨_, reads_number hValid, parses_number k⟩
  | true => exact ⟨_, reads_minus (reads_number hValid), (parses_number k).minus⟩

theorem null_is_name : IsName "null".toList := ⟨List.all_eq_true.1 (by decide), _, _, rfl, by decide⟩

theorem true_is_name : IsName "true".toList := ⟨List.all_eq_true.1 (by decide), _, _, rfl, by decide⟩

theorem false_is_name : IsName "false".toList := ⟨List.all_eq_true.1 (by decide), _, _, rfl, by decide⟩

/-- A scalar of plain text reads as its literal. -/
theorem reads_literal (spell : Dyadic → Formulas.Spelling) {value : Value} (hPlain : plain_scalar value = true) :
    ∃ tokens e, literal spell value = some e ∧
      Reads Closes (dumps spell Formulas.string_char value) tokens ∧ ParsesOperand tokens (.expr e) := by
  cases value with
  | null => exact ⟨_, _, rfl, reads_word null_is_name, @parses_keyword "null".toList _ rfl (by decide)⟩
  | bool b =>
      cases b with
      | true => exact ⟨_, _, rfl, reads_word true_is_name, @parses_keyword "true".toList _ rfl (by decide)⟩
      | false => exact ⟨_, _, rfl, reads_word false_is_name, @parses_keyword "false".toList _ rfl (by decide)⟩
  | int n =>
      obtain ⟨tokens, hReads, hParses⟩ :=
        reads_sign (n < 0 : Bool) (Formulas.digits_valid n.natAbs)
      refine ⟨tokens, _, rfl, ?_, hParses⟩
      simpa [Numeral.text, Documents.fractionText, Numeral.exponent_text, dumps_int, int_text] using hReads
  | float x =>
      obtain ⟨tokens, hReads, hParses⟩ :=
        reads_sign (spell x).negative (spell x).valid
      exact ⟨tokens, _, rfl, hReads, hParses⟩
  | string s =>
      obtain ⟨text, hChars, hText⟩ := text_of_plain hPlain
      refine ⟨[.string text], .string text, by rw [literal, hText]; rfl, ?_, parses_string text⟩
      have hQuotes : Quotes (s.toList.flatMap Formulas.string_char) text.chars := by
        rw [hChars]
        exact Formulas.quotes_string s.toList
      exact (reads_string hQuotes).mono fun _ _ => trivial
  | array items => cases hPlain
  | object fields => cases hPlain

theorem reads_symbol (o : Comparison) :
    Reads Scanning.Open (' ' :: (symbol o ++ [' '])) [.op (.compare o)] := by
  cases o with
  | eq | ne | gt | gte | lt | lte =>
      exact reads_between _ ⟨_, _, rfl, by decide⟩ fun _ => rfl

/-- A member of plain text. -/
theorem reads_path {key : List Char} (hKey : plain_text key = true) :
    ∃ text : Text, member key = some (.member .root text) ∧
      Reads Scanning.Open (path_text Formulas.string_char key) [.root, .dot, .string text] ∧
      Reads Scanning.Open (path_text Formulas.string_char key ++ ['[', '*', ']'])
        [.root, .dot, .string text, .left_bracket, .op (.compute .mul), .right_bracket] := by
  obtain ⟨text, hChars, hText⟩ := text_of_plain hKey
  have hQuotes : Quotes (key.flatMap Formulas.string_char) text.chars := by
    rw [hChars]
    exact Formulas.quotes_string key
  exact ⟨text, by rw [member, hText]; rfl, reads_member hQuotes, reads_items hQuotes⟩

/-- A comparison with a scalar leads a row. -/
theorem reads_compared (spell : Dyadic → Formulas.Spelling) (o : Comparison) (items : Bool) {key : List Char} {value : Value}
    (hKey : plain_text key = true) (hValue : plain_scalar value = true) :
    ∃ tokens p, compared spell o items key value = some p ∧
      Reads Closes (compared_text spell Formulas.string_char o items key value) tokens ∧
      Leads tokens (.predicate p) := by
  obtain ⟨text, hMember, hPath, hItems⟩ := reads_path hKey
  obtain ⟨tokens, e, hLiteral, hReads, hParses⟩ := reads_literal spell hValue
  have hBehind := (reads_symbol o).then hReads
  cases items with
  | false =>
      refine ⟨_, _, by rw [compared, hMember, hLiteral]; rfl, ?_, (parses_member text).compared hParses⟩
      exact hPath.then hBehind
  | true =>
      refine ⟨_, _, by rw [compared, hMember, hLiteral]; rfl, ?_, (parses_items text).compared hParses⟩
      have hText := hItems.then hBehind
      rw [List.append_assoc] at hText
      exact hText

/-! ## Rows -/

section Rows

theorem separated_cons (separator : String) (text next : List Char) (texts : List (List Char)) :
    separated separator (text :: next :: texts) =
      text ++ (separator.toList ++ separated separator (next :: texts)) := by
  simp [separated, List.intercalate]

/-- Texts with an operator between them read as its row. -/
theorem reads_row {o : Op} {separator : String} (hSeparator : Reads Scanning.Open separator.toList [.op o])
    (hBlank : ∃ s, separator.toList = ' ' :: s) {texts : List (List Char)} {parts : List (List Token)}
    (hTexts : List.Forall₂ (Reads Closes) texts parts) :
    ∀ {text : List Char} {part : List Token}, Reads Closes text part →
      Reads Closes (separated separator (text :: texts)) (part ++ chained o parts) := by
  induction hTexts with
  | nil =>
      intro text part hText
      simpa [separated, chained] using hText
  | @cons next more texts parts hNext hTexts ih =>
      intro text part hText
      rw [separated_cons, chained_cons]
      have hBehind := hSeparator.then (ih hNext)
      refine hText.append hBehind ?_
      intro rest _
      obtain ⟨s, hBlank⟩ := hBlank
      rw [hBlank]
      exact closes_blank _

variable {α : Type} {text : α → List Char} {tree : α → Option Predicate}

/-- What each item reads and leads as, as lists. -/
theorem row_of_each {items : List α}
    (hEach : ∀ a ∈ items, ∃ tokens p, tree a = some p ∧ Reads Closes (text a) tokens ∧
      Leads tokens (.predicate p)) :
    ∃ parts predicates, every (items.map tree) = some predicates ∧
      List.Forall₂ (Reads Closes) (items.map text) parts ∧
      List.Forall₂ (fun part p => Leads part (.predicate p)) parts predicates := by
  induction items with
  | nil => exact ⟨[], [], rfl, .nil, .nil⟩
  | cons a rest ih =>
      obtain ⟨tokens, p, hTree, hReads, hLeads⟩ := hEach a (by simp)
      obtain ⟨parts, predicates, hEvery, hTexts, hParts⟩ :=
        ih fun b hb => hEach b (List.mem_cons_of_mem _ hb)
      refine ⟨tokens :: parts, p :: predicates, ?_, .cons hReads hTexts, .cons hLeads hParts⟩
      rw [List.map_cons, hTree, every, hEvery]
      rfl

/-- Items in a row, at least one, parse as their predicates joined. -/
theorem row_parses {o : Op} (join : Predicate → Predicate → Predicate) {separator : String}
    (hSeparator : Reads Scanning.Open separator.toList [.op o])
    (hBlank : ∃ s, separator.toList = ' ' :: s) (hLevel : 1 ≤ o.level ∧ o.level < 3)
    (hJoin : ∀ p q, combine o (.predicate p) (.predicate q) = some (.predicate (join p q)))
    {a : α} {rest : List α}
    (hEach : ∀ b ∈ a :: rest, ∃ tokens p, tree b = some p ∧ Reads Closes (text b) tokens ∧
      Leads tokens (.predicate p)) :
    ∃ tokens p, (every ((a :: rest).map tree)).bind (joined join) = some p ∧
      Reads Closes (separated separator ((a :: rest).map text)) tokens ∧
      ParsesWhole tokens (.predicate p) := by
  obtain ⟨parts, predicates, hEvery, hTexts, hParts⟩ := row_of_each hEach
  cases hTexts with
  | cons hFirst hTexts =>
      cases hParts with
      | cons hLeads hParts =>
          refine ⟨_, _, by rw [hEvery, Option.bind_some]; rfl, ?_, parses_chain hLevel hJoin hLeads hParts⟩
          exact reads_row hSeparator hBlank hTexts hFirst

end Rows

theorem reads_or : Reads Scanning.Open " || ".toList [.op .or] :=
  reads_between ['|', '|'] ⟨_, _, rfl, by decide⟩ fun _ => rfl

theorem reads_and : Reads Scanning.Open " && ".toList [.op .and] :=
  reads_between ['&', '&'] ⟨_, _, rfl, by decide⟩ fun _ => rfl

/-! ## Conditions -/

theorem open_closes {text : List Char} {tokens : List Token} (h : Reads Scanning.Open text tokens) :
    Reads Closes text tokens :=
  h.mono fun _ _ => trivial

theorem choice_leads (among : Bool) {key : List Char} {value : Value} {values : List Value}
    (hKey : plain_text key = true) (hValues : (value :: values).all plain_scalar = true) :
    ∃ tokens p, (Condition.choice among (value :: values)).tree spell key = some (.predicate p) ∧
      Reads Closes ((Condition.choice among (value :: values)).text spell Formulas.string_char key) tokens ∧
      Leads tokens (.predicate p) := by
  have hEach (o : Comparison) : ∀ v ∈ value :: values, ∃ tokens p, compared spell o false key v = some p ∧
      Reads Closes (compared_text spell Formulas.string_char o false key v) tokens ∧
      Leads tokens (.predicate p) :=
    fun v hv => reads_compared spell o false hKey (List.all_eq_true.1 hValues v hv)
  cases among with
  | true =>
      obtain ⟨tokens, p, hTree, hReads, hParses⟩ :=
        row_parses .or reads_or ⟨_, rfl⟩ (by decide) (fun _ _ => rfl) (hEach .eq)
      refine ⟨_, p, ?_, open_closes (reads_parens hReads), hParses.parens.leads⟩
      show (((every ((value :: values).map (compared spell .eq false key))).bind (joined .or)).map
        Path.predicate) = _
      rw [hTree]
      rfl
  | false =>
      obtain ⟨tokens, p, hTree, hReads, hParses⟩ :=
        row_parses .and reads_and ⟨_, rfl⟩ (by decide) (fun _ _ => rfl) (hEach .ne)
      refine ⟨_, p, ?_, open_closes (reads_parens hReads), hParses.parens.leads⟩
      show (((every ((value :: values).map (compared spell .ne false key))).bind (joined .and)).map
        Path.predicate) = _
      rw [hTree]
      rfl

/-- A condition of plain text and scalars, bar a constant, leads a row. -/
theorem condition_leads {condition : Condition} {key : List Char}
    (hPlain : condition.plain key = true) (hConstant : condition.constant = false) :
    ∃ tokens p, condition.tree spell key = some (.predicate p) ∧
      Reads Closes (condition.text spell Formulas.string_char key) tokens ∧
      Leads tokens (.predicate p) := by
  cases condition with
  | presence there =>
      obtain ⟨text, hMember, hPath, -⟩ := reads_path hPlain
      have hWhole := (parses_member text).leads.whole
      cases there with
      | true =>
          refine ⟨_, _, by rw [Condition.tree, hMember]; rfl, ?_, hWhole.exists_operand.leads⟩
          exact open_closes (reads_exists (open_closes hPath))
      | false =>
          refine ⟨_, _, by rw [Condition.tree, hMember]; rfl, ?_,
            (hWhole.exists_operand.leads.whole.delimits).negated.leads⟩
          exact open_closes (reads_not (reads_parens (open_closes (reads_exists (open_closes hPath)))))
  | comparison o items value =>
      rw [Condition.plain, Bool.and_eq_true] at hPlain
      obtain ⟨tokens, p, hTree, hReads, hLeads⟩ :=
        reads_compared spell o items hPlain.1 hPlain.2
      exact ⟨tokens, p, by rw [Condition.tree, hTree]; rfl, hReads, hLeads⟩
  | choice among values =>
      cases values with
      | nil => cases hConstant
      | cons value values =>
          obtain ⟨hKey, hValues⟩ := Bool.and_eq_true_iff.1 hPlain
          exact choice_leads among hKey hValues

/-- A constant stands for itself. -/
theorem constant_parses {condition : Condition} (key : List Char) (hConstant : condition.constant = true) :
    ∃ tokens path, condition.tree spell key = some path ∧
      Reads Closes (condition.text spell Formulas.string_char key) tokens ∧ ParsesWhole tokens path := by
  cases condition with
  | presence there => cases hConstant
  | comparison o items value => cases hConstant
  | choice among values =>
      cases values with
      | cons value values => cases hConstant
      | nil =>
          cases among with
          | true =>
              have hWord : Reads Closes "false".toList [.word "false".toList] :=
                reads_word false_is_name
              have hParses : ParsesOperand [.word "false".toList] (.expr (.bool false)) :=
                parses_keyword rfl (by decide)
              exact ⟨_, _, rfl, open_closes (reads_parens hWord), hParses.leads.whole.parens.leads.whole⟩
          | false =>
              have hWord : Reads Closes "true".toList [.word "true".toList] :=
                reads_word true_is_name
              have hParses : ParsesOperand [.word "true".toList] (.expr (.bool true)) :=
                parses_keyword rfl (by decide)
              exact ⟨_, _, rfl, open_closes (reads_parens hWord), hParses.leads.whole.parens.leads.whole⟩

end Rekuest.Ports
