import Rekuest.JsonPath.Query

/-!
# How a predicate is spelled

Fragments of text and the words they read as: marks and quoted strings before anything,
names and numerals before what closes them.
-/

namespace JsonPath.Query

open Documents

/-- A fragment that reads as words, whatever closes it. -/
abbrev Reads := Scanning.Reads is_blank read_token

/-! ## Marks -/

theorem reads_left : Reads Scanning.Open ['('] [.left] :=
  Scanning.reads_token rfl (by decide) fun _ _ => rfl

theorem reads_right : Reads Scanning.Open [')'] [.right] :=
  Scanning.reads_token rfl (by decide) fun _ _ => rfl

theorem reads_root_dot (c : Char) (s : List Char) (tokens : List Token) {closes : List Char → Prop}
    (h : Reads closes ('\x22' :: s) tokens) (hQuote : c = '\x22') :
    Reads closes ('$' :: '.' :: c :: s) (.root :: .dot :: tokens) := by
  subst hQuote
  intro rest n hRest hFuel
  simp only [List.length_cons] at hFuel
  obtain ⟨k, rfl⟩ : ∃ k, n = k + 2 := ⟨n - 2, by omega⟩
  obtain ⟨m, hm, hScan⟩ := h rest k hRest (by simp only [List.length_cons]; omega)
  refine ⟨m, by simp only [List.length_cons] at hm ⊢; omega, ?_⟩
  show ((Scanning.scan is_blank read_token k ('\x22' :: s ++ rest)).map (Token.dot :: ·)).map
    (Token.root :: ·) = _
  rw [hScan, Option.map_map, Option.map_map]
  rfl

/-- An operator between blanks. -/
theorem reads_between (symbol : List Char) {o : Op} (hSymbol : ∃ c s, symbol = c :: s ∧ is_blank c = false)
    (hRead : ∀ rest, read_token (symbol ++ ' ' :: rest) = some (.op o, ' ' :: rest)) :
    Reads Scanning.Open (' ' :: (symbol ++ [' '])) [.op o] := by
  obtain ⟨c, s, hText, hBlank⟩ := hSymbol
  have hToken : Reads (fun rest => ∃ more, rest = ' ' :: more) symbol [.op o] := by
    refine Scanning.reads_token hText hBlank ?_
    rintro rest ⟨more, rfl⟩
    exact hRead more
  have hBehind : Reads Scanning.Open (symbol ++ [' ']) ([.op o] ++ []) :=
    hToken.append (Scanning.reads_blank (by decide)) fun rest _ => ⟨rest, rfl⟩
  exact (Scanning.reads_blank (by decide)).then hBehind

/-! ## Names and numerals -/

/-- The scanner takes a name as a word: none of the marks begins one. -/
theorem read_token_name {c : Char} {s : List Char} (hName : is_name c = true) (hDigit : c.isDigit = false) :
    read_token (c :: s) = some (.word ((c :: s).takeWhile is_name), (c :: s).dropWhile is_name) := by
  unfold read_token
  split
  case h_1 h => cases h
  case h_24 hOther =>
    obtain ⟨rfl, rfl⟩ := List.cons.inj hOther
    rw [if_neg (by rw [hDigit]; exact Bool.false_ne_true), if_pos hName]
  all_goals
    rename_i h
    obtain ⟨rfl, -⟩ := List.cons.inj h
    exact absurd hName (by decide)

/-- The scanner takes a digit as the first of a numeral. -/
theorem read_token_digit {c : Char} {s : List Char} (hDigit : c.isDigit = true) :
    read_token (c :: s) = read_number (c :: s) := by
  unfold read_token
  split
  case h_1 h => cases h
  case h_24 hOther =>
    obtain ⟨rfl, rfl⟩ := List.cons.inj hOther
    rw [if_pos hDigit]
  all_goals
    rename_i h
    obtain ⟨rfl, -⟩ := List.cons.inj h
    exact absurd hDigit (by decide)

theorem reads_word {name : List Char} (hName : IsName name) : Reads Closes name [.word name] := by
  obtain ⟨c, s, hText, hFirst, hDigit⟩ := first_of_name hName
  refine Scanning.reads_token hText (is_blank_of_name hFirst) ?_
  intro rest hRest
  have hWhole := takeWhile_name hName.chars fun c s h => (hRest c s h).1
  rw [hText, List.cons_append] at hWhole ⊢
  rw [read_token_name hFirst hDigit, hWhole.1, hWhole.2]

theorem reads_number {k : Numeral} (hValid : k.Valid) : Reads Closes k.text [.number k] := by
  obtain ⟨d, ds, hFirst⟩ : ∃ d ds, k.whole = d :: ds := by
    apply List.exists_cons_of_ne_nil
    intro hNil
    have hWhole := hValid.whole_first
    rw [hNil] at hWhole
    cases hWhole
  have hDigit : d.isDigit = true := hValid.whole_digits d (by rw [hFirst]; exact List.mem_cons_self ..)
  have hText : k.text = d :: (ds ++ (fractionText k.fraction ++ Numeral.exponent_text k.exponent)) := by
    rw [Numeral.text, hFirst]
    rfl
  refine Scanning.reads_token hText (is_blank_of_name (is_name_of_digit hDigit)) ?_
  intro rest hRest
  have hRead := read_numeral_append hValid hRest
  rw [hText, List.cons_append] at hRead ⊢
  rw [read_token_digit hDigit, read_number, hRead]
  rfl

theorem reads_minus {text : List Char} {tokens : List Token} {closes : List Char → Prop}
    (h : Reads closes text tokens) : Reads closes ('-' :: text) (.op (.compute .sub) :: tokens) := by
  have hMinus : Reads Scanning.Open ['-'] [.op (.compute .sub)] :=
    Scanning.reads_token rfl (by decide) fun _ _ => rfl
  exact hMinus.then h

/-! ## Quoted strings -/

theorem text_of_clean (s : Text) : text_of s.chars = some s := by
  rw [text_of, dif_neg s.clean]

theorem reads_string {text : List Char} {s : Text} (hText : Quotes text s.chars) :
    Reads Scanning.Open ('\x22' :: (text ++ ['\x22'])) [.string s] := by
  refine Scanning.reads_token rfl (by decide) ?_
  intro rest _
  show read_string (text ++ ['\x22'] ++ rest) = _
  rw [List.append_assoc, List.singleton_append, read_string,
    hText rest _ (by rw [List.length_append]; omega), Option.bind_some]
  show ((text_of s.chars).map fun text => (Token.string text, rest)) = _
  rw [text_of_clean]
  rfl

/-- The member of the object with a quoted key. -/
theorem reads_member {text : List Char} {key : Text} (hText : Quotes text key.chars) :
    Reads Scanning.Open ('$' :: '.' :: '\x22' :: (text ++ ['\x22'])) [.root, .dot, .string key] :=
  reads_root_dot _ _ _ (reads_string hText) rfl

/-- The items of the member. -/
theorem reads_items {text : List Char} {key : Text} (hText : Quotes text key.chars) :
    Reads Scanning.Open ('$' :: '.' :: '\x22' :: (text ++ ['\x22']) ++ ['[', '*', ']'])
      [.root, .dot, .string key, .left_bracket, .op (.compute .mul), .right_bracket] := by
  have hLeft : Reads Scanning.Open ['['] [.left_bracket] :=
    Scanning.reads_token rfl (by decide) fun _ _ => rfl
  have hStar : Reads (fun rest => ∃ more, rest = ']' :: more) ['*'] [.op (.compute .mul)] := by
    refine Scanning.reads_token rfl (by decide) ?_
    rintro rest ⟨more, rfl⟩
    rfl
  have hRight : Reads Scanning.Open [']'] [.right_bracket] :=
    Scanning.reads_token rfl (by decide) fun _ _ => rfl
  have hBehind : Reads Scanning.Open (['*'] ++ [']']) ([.op (.compute .mul)] ++ [.right_bracket]) :=
    hStar.append hRight fun rest _ => ⟨rest, rfl⟩
  exact (reads_member hText).then (hLeft.then hBehind)

/-! ## Parentheses -/

theorem closes_right (rest : List Char) : Closes (')' :: rest) := closes_cons (by decide) (by decide)

theorem closes_blank (rest : List Char) : Closes (' ' :: rest) := closes_cons (by decide) (by decide)

theorem reads_parens {text : List Char} {tokens : List Token} (h : Reads Closes text tokens) :
    Reads Scanning.Open ('(' :: (text ++ [')'])) (.left :: (tokens ++ [.right])) := by
  have hInner : Reads Scanning.Open (text ++ [')']) (tokens ++ [.right]) :=
    h.append reads_right fun rest _ => closes_right rest
  exact reads_left.then hInner

theorem exists_is_name : IsName "exists".toList := ⟨List.all_eq_true.1 (by decide), _, _, rfl, by decide⟩

/-- `exists` and what its parentheses hold. -/
theorem reads_exists {text : List Char} {tokens : List Token} (h : Reads Closes text tokens) :
    Reads Scanning.Open ("exists".toList ++ '(' :: (text ++ [')']))
      (.word "exists".toList :: .left :: (tokens ++ [.right])) :=
  (reads_word exists_is_name).append (reads_parens h) fun rest _ =>
    closes_cons (by decide) (by decide)

/-- A negation of what stands between parentheses. -/
theorem reads_not {text : List Char} {tokens : List Token}
    (h : Reads Scanning.Open ('(' :: text) tokens) :
    Reads Scanning.Open ('!' :: '(' :: text) (.not :: tokens) := by
  have hNot : Reads (fun rest => ∃ more, rest = '(' :: more) ['!'] [.not] := by
    refine Scanning.reads_token rfl (by decide) ?_
    rintro rest ⟨more, rfl⟩
    rfl
  exact hNot.append h fun rest _ => ⟨text ++ rest, rfl⟩

end JsonPath.Query
