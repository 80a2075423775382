import Rekuest.Documents.Reader

/-!
# The words of a JSONPath

The part of PostgreSQL's JSONPath that formulas are written in, as its scanner cuts it:
numerals, quoted strings with the escapes of JSON, names, variables, and the marks of
its operators.  A string with the character U+0000 is refused, since no text of the
database holds one.

A fragment of text reads as a list of words if the scanner gives these words whatever
closes it behind, so that fragments can be put one behind another.
-/

namespace JsonPath

open Documents

/-- A number without its sign, as it is spelled. -/
structure Numeral where
  whole : List Char
  fraction : Option (List Char) := none
  exponent : Option (List Char × List Char) := none
  deriving DecidableEq

namespace Numeral

def exponent_text : Option (List Char × List Char) → List Char
  | none => []
  | some (sign, digits) => 'e' :: (sign ++ digits)

def text (n : Numeral) : List Char :=
  n.whole ++ (fractionText n.fraction ++ exponent_text n.exponent)

/-- Digits, at least one. -/
def Digits (digits : List Char) : Prop := digits ≠ [] ∧ ∀ c ∈ digits, c.isDigit = true

/-- The numerals of JSON: no needless zero first, and digits behind a point or an `e`. -/
structure Valid (n : Numeral) : Prop where
  whole_digits : ∀ c ∈ n.whole, c.isDigit = true
  whole_first : isWhole n.whole = true
  fraction_digits : ∀ digits, n.fraction = some digits → Digits digits
  exponent_digits : ∀ sign digits, n.exponent = some (sign, digits) →
    (sign = [] ∨ sign = ['-'] ∨ sign = ['+']) ∧ Digits digits

end Numeral

inductive Op
  | or | and | gt | gte | lt | lte | add | sub | mul | div | mod
  deriving DecidableEq

inductive Token
  | number (n : Numeral)
  | string (s : List Char)
  | word (name : List Char)
  | variable (name : List Char)
  | root
  | dot
  | left
  | right
  | op (o : Op)
  deriving DecidableEq

/-! ## The scanner -/

/-- A character of a name: neither blank nor one the grammar gives a meaning. -/
def is_name (c : Char) : Bool :=
  c ∉ ['?', '%', '$', '.', '[', ']', '\x7b', '\x7d', '(', ')', '|', '&', '!', '=', '<', '>', '@', '#',
    ',', '*', ':', '-', '+', '/', '\x5c', '\x22', ' ', '\t', '\n', '\r', '\x0c']

def is_blank (c : Char) : Bool := c ∈ [' ', '\t', '\n', '\r', '\x0c']

def read_sign : List Char → List Char × List Char
  | '-' :: s => (['-'], s)
  | '+' :: s => (['+'], s)
  | s => ([], s)

def read_exponent : List Char → Option (Option (List Char × List Char) × List Char)
  | 'e' :: s | 'E' :: s =>
      let (sign, s) := read_sign s
      if (readDigits s).1.isEmpty then none
      else some (some (sign, (readDigits s).1), (readDigits s).2)
  | s => some (none, s)

/-- A numeral, with nothing behind it that could be part of a name. -/
def read_numeral (s : List Char) : Option (Token × List Char) :=
  if isWhole (readDigits s).1 then
    (readFraction (readDigits s).2).bind fun (fraction, s') =>
      (read_exponent s').bind fun (exponent, rest) =>
        if rest.head?.any fun c => is_name c || c = '.' then none
        else some (.number { whole := (readDigits s).1, fraction, exponent }, rest)
  else none

/-- A quoted string. -/
def read_string (s : List Char) : Option (Token × List Char) :=
  (readChars (s.length + 1) s).bind fun (chars, rest) =>
    if '\x00' ∈ chars then none else some (.string chars, rest)

/-- The word a text begins with, and the rest. -/
def read_token : List Char → Option (Token × List Char)
  | [] => none
  | '(' :: s => some (.left, s)
  | ')' :: s => some (.right, s)
  | '+' :: s => some (.op .add, s)
  | '-' :: s => some (.op .sub, s)
  | '*' :: s => if s.head? = some '*' then none else some (.op .mul, s)
  | '/' :: s => if s.head? = some '*' then none else some (.op .div, s)
  | '%' :: s => some (.op .mod, s)
  | '.' :: s => if s.head?.any Char.isDigit then none else some (.dot, s)
  | '>' :: '=' :: s => some (.op .gte, s)
  | '>' :: s => some (.op .gt, s)
  | '<' :: '=' :: s => some (.op .lte, s)
  | '<' :: s => if s.head? = some '>' then none else some (.op .lt, s)
  | '&' :: '&' :: s => some (.op .and, s)
  | '|' :: '|' :: s => some (.op .or, s)
  | '\x22' :: s => read_string s
  | '$' :: s =>
      if s.head?.any is_name then some (.variable (s.takeWhile is_name), s.dropWhile is_name)
      else if s.head? = some '\x22' then none
      else some (.root, s)
  | c :: s =>
      if c.isDigit then read_numeral (c :: s)
      else if is_name c then
        some (.word ((c :: s).takeWhile is_name), (c :: s).dropWhile is_name)
      else none

/-- The words of a text; `n` bounds how many steps it takes. -/
def scan : Nat → List Char → Option (List Token)
  | _, [] => some []
  | 0, _ :: _ => none
  | n + 1, c :: s =>
      if is_blank c then scan n s
      else (read_token (c :: s)).bind fun (token, rest) => (scan n rest).map (token :: ·)

/-- The words of a whole text. -/
def words (text : List Char) : Option (List Token) := scan text.length text

/-! ## Fragments -/

/-- What closes a name or a numeral: nothing that could go on with it. -/
def Closes (rest : List Char) : Prop := ∀ c s, rest = c :: s → is_name c = false ∧ c ≠ '.'

/-- A fragment that reads as words, whatever closes it. -/
def Reads (text : List Char) (tokens : List Token) : Prop :=
  ∀ rest n, Closes rest → text.length ≤ n →
    ∃ m, n ≤ m + text.length ∧ scan n (text ++ rest) = (scan m rest).map (tokens ++ ·)

/-- A fragment that reads as words before anything. -/
def ReadsAlways (text : List Char) (tokens : List Token) : Prop :=
  ∀ rest n, text.length ≤ n →
    ∃ m, n ≤ m + text.length ∧ scan n (text ++ rest) = (scan m rest).map (tokens ++ ·)

theorem closes_nil : Closes [] := fun _ _ h => by cases h

theorem closes_cons {c : Char} {s : List Char} (hName : is_name c = false) (hDot : c ≠ '.') :
    Closes (c :: s) := by
  intro d t h
  obtain ⟨rfl, rfl⟩ := List.cons.inj h
  exact ⟨hName, hDot⟩

theorem ReadsAlways.reads {text : List Char} {tokens : List Token} (h : ReadsAlways text tokens) :
    Reads text tokens :=
  fun rest n _ hFuel => h rest n hFuel

theorem reads_nil : ReadsAlways [] [] := by
  intro rest n _
  exact ⟨n, Nat.le_refl n, by simp⟩

/-- One fragment and another that closes it. -/
theorem Reads.append {text text' : List Char} {tokens tokens' : List Token} (h : Reads text tokens)
    (h' : Reads text' tokens') (hCloses : ∀ rest, Closes rest → Closes (text' ++ rest)) :
    Reads (text ++ text') (tokens ++ tokens') := by
  intro rest n hRest hFuel
  rw [List.length_append] at hFuel ⊢
  obtain ⟨m, hm, hScan⟩ := h (text' ++ rest) n (hCloses rest hRest) (by omega)
  obtain ⟨m', hm', hScan'⟩ := h' rest m hRest (by omega)
  refine ⟨m', by omega, ?_⟩
  rw [List.append_assoc, hScan, hScan', Option.map_map]
  simp [Function.comp_def]

theorem ReadsAlways.then {text text' : List Char} {tokens tokens' : List Token}
    (h : ReadsAlways text tokens) (h' : Reads text' tokens') :
    Reads (text ++ text') (tokens ++ tokens') := by
  intro rest n hRest hFuel
  rw [List.length_append] at hFuel ⊢
  obtain ⟨m, hm, hScan⟩ := h (text' ++ rest) n (by omega)
  obtain ⟨m', hm', hScan'⟩ := h' rest m hRest (by omega)
  refine ⟨m', by omega, ?_⟩
  rw [List.append_assoc, hScan, hScan', Option.map_map]
  simp [Function.comp_def]

/-- The words of a fragment that is the whole text. -/
theorem words_of_reads {text : List Char} {tokens : List Token} (h : Reads text tokens) :
    words text = some tokens := by
  obtain ⟨m, -, hScan⟩ := h [] text.length closes_nil (Nat.le_refl _)
  rw [words]
  rw [List.append_nil] at hScan
  rw [hScan]
  cases m <;> simp [scan]

theorem reads_blank {c : Char} (hBlank : is_blank c = true) : ReadsAlways [c] [] := by
  intro rest n hFuel
  cases n with
  | zero => simp at hFuel
  | succ n =>
      refine ⟨n, Nat.le_refl _, ?_⟩
      simp [scan, hBlank]

/-- A text whose first word is read leaves the rest to be read. -/
theorem scan_token {text rest : List Char} {token : Token} {n : Nat} {c : Char} {s : List Char}
    (hText : text = c :: s) (hBlank : is_blank c = false)
    (hToken : read_token (text ++ rest) = some (token, rest)) (hFuel : text.length ≤ n) :
    ∃ m, n ≤ m + text.length ∧ scan n (text ++ rest) = (scan m rest).map ([token] ++ ·) := by
  subst hText
  cases n with
  | zero => simp at hFuel
  | succ n =>
      refine ⟨n, by rw [List.length_cons]; omega, ?_⟩
      rw [List.cons_append] at hToken ⊢
      rw [scan, if_neg (by rw [hBlank]; exact Bool.false_ne_true), hToken]
      rfl

/-! ## Names -/

/-- Name characters, not a digit first. -/
structure IsName (name : List Char) : Prop where
  chars : ∀ c ∈ name, is_name c = true
  first : ∃ c s, name = c :: s ∧ c.isDigit = false

theorem is_blank_of_name {c : Char} (h : is_name c = true) : is_blank c = false := by
  rw [Bool.eq_false_iff]
  intro hBlank
  have hMem : c ∈ [' ', '\t', '\n', '\r', '\x0c'] := of_decide_eq_true hBlank
  simp only [List.mem_cons, List.not_mem_nil, or_false] at hMem
  rcases hMem with rfl | rfl | rfl | rfl | rfl <;> exact absurd h (by decide)

theorem takeWhile_name {name rest : List Char} (hName : ∀ c ∈ name, is_name c = true)
    (hRest : ∀ c s, rest = c :: s → is_name c = false) :
    (name ++ rest).takeWhile is_name = name ∧ (name ++ rest).dropWhile is_name = rest := by
  rw [List.takeWhile_append_of_pos hName, List.dropWhile_append_of_pos hName]
  cases rest with
  | nil => exact ⟨by simp, rfl⟩
  | cons c s =>
      have hStop := hRest c s rfl
      exact ⟨by simp [hStop], by simp [hStop]⟩

/-- The scanner takes a name as a word: none of the marks begins one. -/
theorem read_token_name {c : Char} {s : List Char} (hName : is_name c = true)
    (hDigit : c.isDigit = false) :
    read_token (c :: s) =
      some (.word ((c :: s).takeWhile is_name), (c :: s).dropWhile is_name) := by
  unfold read_token
  split
  case h_1 h => cases h
  case h_18 hOther =>
    obtain ⟨rfl, rfl⟩ := List.cons.inj hOther
    rw [if_neg (by rw [hDigit]; exact Bool.false_ne_true), if_pos hName]
  all_goals
    rename_i h
    obtain ⟨rfl, -⟩ := List.cons.inj h
    exact absurd hName (by decide)

theorem first_of_name {name : List Char} (h : IsName name) :
    ∃ c s, name = c :: s ∧ is_name c = true ∧ c.isDigit = false := by
  obtain ⟨c, s, rfl, hDigit⟩ := h.first
  exact ⟨c, s, rfl, h.chars c (List.mem_cons_self ..), hDigit⟩

theorem reads_name {name : List Char} (hName : IsName name) : Reads name [.word name] := by
  intro rest n hRest hFuel
  obtain ⟨c, s, hText, hFirst, hDigit⟩ := first_of_name hName
  refine scan_token hText (is_blank_of_name hFirst) ?_ hFuel
  have hWhole := takeWhile_name hName.chars fun c s h => (hRest c s h).1
  rw [hText, List.cons_append] at hWhole ⊢
  rw [read_token_name hFirst hDigit, hWhole.1, hWhole.2]

/-! ## Marks -/

theorem reads_left : ReadsAlways ['('] [.left] :=
  fun rest _ hFuel => scan_token rfl (by decide) rfl hFuel

theorem reads_right : ReadsAlways [')'] [.right] :=
  fun rest _ hFuel => scan_token rfl (by decide) rfl hFuel

theorem reads_minus : ReadsAlways ['-'] [.op .sub] :=
  fun rest _ hFuel => scan_token rfl (by decide) rfl hFuel

/-- A member or a method by its name. -/
theorem reads_dot_name {name : List Char} (hName : IsName name) :
    Reads ('.' :: name) [.dot, .word name] := by
  intro rest n hRest hFuel
  obtain ⟨c, s, hText, -, hDigit⟩ := first_of_name hName
  have hDot : read_token (['.'] ++ (name ++ rest)) = some (.dot, name ++ rest) := by
    rw [hText]
    show (if (some c).any Char.isDigit = true then none else some (Token.dot, c :: s ++ rest)) = _
    rw [Option.any_some, if_neg (by rw [hDigit]; exact Bool.false_ne_true)]
  rw [List.length_cons] at hFuel ⊢
  obtain ⟨m, hm, hScan⟩ := scan_token rfl (by decide) hDot (show 1 ≤ n by omega)
  obtain ⟨m', hm', hScan'⟩ := reads_name hName rest m hRest (by simp at hm; omega)
  refine ⟨m', by simp at hm; omega, ?_⟩
  show scan n (['.'] ++ (name ++ rest)) = _
  rw [hScan, hScan', Option.map_map]
  rfl

/-- A variable and a member of it. -/
theorem reads_variable {name : List Char} (hName : IsName name) {text : List Char}
    {tokens : List Token} (h : Reads text tokens)
    (hText : ∀ rest c s, text ++ rest = c :: s → is_name c = false) :
    Reads ('$' :: (name ++ text)) (.variable name :: tokens) := by
  intro rest n hRest hFuel
  obtain ⟨c, s, hFirst, hChar, -⟩ := first_of_name hName
  have hWhole := takeWhile_name hName.chars (hText rest)
  have hToken : read_token (['$'] ++ name ++ (text ++ rest)) = some (.variable name, text ++ rest) := by
    rw [List.append_assoc]
    show (if (name ++ (text ++ rest)).head?.any is_name = true then
      some (Token.variable ((name ++ (text ++ rest)).takeWhile is_name),
        (name ++ (text ++ rest)).dropWhile is_name) else _) = _
    rw [hWhole.1, hWhole.2, if_pos]
    rw [hFirst]
    exact hChar
  simp only [List.length_cons, List.length_append] at hFuel ⊢
  obtain ⟨m, hm, hScan⟩ := scan_token (show ['$'] ++ name = '$' :: name from rfl) (by decide) hToken
    (show (['$'] ++ name).length ≤ n by simp; omega)
  obtain ⟨m', hm', hScan'⟩ := h rest m hRest (by simp at hm; omega)
  refine ⟨m', by simp at hm; omega, ?_⟩
  have hSplit : '$' :: (name ++ text) ++ rest = ['$'] ++ name ++ (text ++ rest) := by simp
  rw [hSplit, hScan, hScan', Option.map_map]
  rfl

/-- How an operator is written. -/
def Op.symbol : Op → List Char
  | .or => ['|', '|']
  | .and => ['&', '&']
  | .gt => ['>']
  | .gte => ['>', '=']
  | .lt => ['<']
  | .lte => ['<', '=']
  | .add => ['+']
  | .sub => ['-']
  | .mul => ['*']
  | .div => ['/']
  | .mod => ['%']

/-- An operator between blanks. -/
theorem reads_op (o : Op) : ReadsAlways (' ' :: (o.symbol ++ [' '])) [.op o] := by
  intro rest n hFuel
  obtain ⟨m, hm, hScan⟩ := reads_blank (by decide) (o.symbol ++ ' ' :: rest) n
    (show [' '].length ≤ n by simp at hFuel ⊢; omega)
  have hSymbol : ∃ c s, o.symbol = c :: s ∧ is_blank c = false := by
    cases o <;> exact ⟨_, _, rfl, by decide⟩
  obtain ⟨c, s, hText, hBlank⟩ := hSymbol
  have hToken : read_token (o.symbol ++ ' ' :: rest) = some (.op o, ' ' :: rest) := by
    cases o <;> rfl
  obtain ⟨m', hm', hScan'⟩ := scan_token hText hBlank hToken
    (show o.symbol.length ≤ m by simp at hFuel hm; omega)
  obtain ⟨m'', hm'', hScan''⟩ := reads_blank (by decide) rest m'
    (show [' '].length ≤ m' by simp at hFuel hm hm' ⊢; omega)
  refine ⟨m'', by simp at hm hm' hm'' ⊢; omega, ?_⟩
  have hSplit : ' ' :: (o.symbol ++ [' ']) ++ rest = [' '] ++ (o.symbol ++ ' ' :: rest) := by simp
  have hSpace : ' ' :: rest = [' '] ++ rest := rfl
  rw [hSplit, hScan, hScan', hSpace, hScan'', Option.map_map, Option.map_map]
  rfl

/-! ## Numerals -/

theorem is_name_of_digit {c : Char} (h : c.isDigit = true) : is_name c = true := by
  unfold is_name
  apply decide_eq_true
  intro hMem
  simp only [List.mem_cons, List.not_mem_nil, or_false] at hMem
  rcases hMem with rfl | rfl | rfl | rfl | rfl | rfl | rfl | rfl | rfl | rfl | rfl | rfl | rfl | rfl | rfl |
    rfl | rfl | rfl | rfl | rfl | rfl | rfl | rfl | rfl | rfl | rfl | rfl | rfl | rfl | rfl | rfl <;>
    exact absurd h (by decide)

/-- The scanner takes a digit as the first of a numeral. -/
theorem read_token_digit {c : Char} {s : List Char} (hDigit : c.isDigit = true) :
    read_token (c :: s) = read_numeral (c :: s) := by
  unfold read_token
  split
  case h_1 h => cases h
  case h_18 hOther =>
    obtain ⟨rfl, rfl⟩ := List.cons.inj hOther
    rw [if_pos hDigit]
  all_goals
    rename_i h
    obtain ⟨rfl, -⟩ := List.cons.inj h
    exact absurd hDigit (by decide)

/-- What closes a numeral is no digit, and begins no exponent. -/
theorem stops_of_closes {rest : List Char} (hRest : Closes rest) :
    ∀ c s, rest = c :: s → c.isDigit = false ∧ c ≠ '.' ∧ c ≠ 'e' ∧ c ≠ 'E' := by
  intro c s h
  obtain ⟨hName, hDot⟩ := hRest c s h
  refine ⟨?_, hDot, ?_, ?_⟩
  · cases hDigit : c.isDigit with
    | false => rfl
    | true => rw [is_name_of_digit hDigit] at hName; cases hName
  · rintro rfl
    exact absurd hName (by decide)
  · rintro rfl
    exact absurd hName (by decide)

theorem read_sign_append {sign digits rest : List Char} (hSign : sign = [] ∨ sign = ['-'] ∨ sign = ['+'])
    (hDigits : Numeral.Digits digits) : read_sign (sign ++ (digits ++ rest)) = (sign, digits ++ rest) := by
  rcases hSign with rfl | rfl | rfl
  · obtain ⟨d, ds, rfl⟩ := List.exists_cons_of_ne_nil hDigits.1
    have hDigit := hDigits.2 d (List.mem_cons_self ..)
    show read_sign (d :: (ds ++ rest)) = ([], d :: (ds ++ rest))
    unfold read_sign
    split
    · rename_i h
      obtain ⟨rfl, -⟩ := List.cons.inj h
      exact absurd hDigit (by decide)
    · rename_i h
      obtain ⟨rfl, -⟩ := List.cons.inj h
      exact absurd hDigit (by decide)
    · rfl
  · rfl
  · rfl

theorem read_exponent_append {exponent : Option (List Char × List Char)} {rest : List Char}
    (hExponent : ∀ sign digits, exponent = some (sign, digits) →
      (sign = [] ∨ sign = ['-'] ∨ sign = ['+']) ∧ Numeral.Digits digits)
    (hRest : Closes rest) :
    read_exponent (Numeral.exponent_text exponent ++ rest) = some (exponent, rest) := by
  have hStops := stops_of_closes hRest
  cases exponent with
  | none =>
      cases rest with
      | nil => rfl
      | cons c s =>
          obtain ⟨-, -, hLower, hUpper⟩ := hStops c s rfl
          show read_exponent (c :: s) = _
          simp [read_exponent, hLower, hUpper]
  | some pair =>
      obtain ⟨sign, digits⟩ := pair
      obtain ⟨hSign, hDigits⟩ := hExponent sign digits rfl
      have hRead := readDigits_append hDigits.2 fun c s hEq => (hStops c s hEq).1
      have hEmpty : digits.isEmpty = false := by simpa using hDigits.1
      show read_exponent ('e' :: (sign ++ digits ++ rest)) = _
      rw [List.append_assoc]
      simp only [read_exponent, read_sign_append hSign hDigits, hRead, hEmpty, Bool.false_eq_true,
        if_false]

theorem read_numeral_append {n : Numeral} (hValid : n.Valid) {rest : List Char} (hRest : Closes rest) :
    read_numeral (n.text ++ rest) = some (.number n, rest) := by
  have hStops := stops_of_closes hRest
  have hExponentHead : ∀ c s, Numeral.exponent_text n.exponent ++ rest = c :: s →
      c.isDigit = false ∧ c ≠ '.' := by
    intro c s h
    cases hExponent : n.exponent with
    | none =>
        rw [hExponent] at h
        exact ⟨(hStops c s h).1, (hStops c s h).2.1⟩
    | some pair =>
        rw [hExponent] at h
        obtain ⟨rfl, -⟩ := List.cons.inj h
        exact ⟨by decide, by decide⟩
  have hFractionHead : ∀ c s, fractionText n.fraction ++ (Numeral.exponent_text n.exponent ++ rest) =
      c :: s → c.isDigit = false := by
    intro c s h
    cases hFraction : n.fraction with
    | none =>
        rw [hFraction] at h
        exact (hExponentHead c s h).1
    | some digits =>
        rw [hFraction] at h
        obtain ⟨rfl, -⟩ := List.cons.inj h
        decide
  have hWhole := readDigits_append hValid.whole_digits hFractionHead
  have hFraction := readFraction_append hValid.fraction_digits hExponentHead
  have hExponent := read_exponent_append hValid.exponent_digits hRest
  have hJunk : (rest.head?.any fun c => is_name c || c = '.') = false := by
    cases rest with
    | nil => rfl
    | cons c s =>
        obtain ⟨hName, hDot⟩ := hRest c s rfl
        simp [hName, hDot]
  rw [Numeral.text, List.append_assoc, List.append_assoc, read_numeral, hWhole,
    if_pos hValid.whole_first]
  simp only [hFraction, hExponent, Option.bind_some, hJunk, Bool.false_eq_true, if_false]

theorem reads_number {n : Numeral} (hValid : n.Valid) : Reads n.text [.number n] := by
  intro rest m hRest hFuel
  obtain ⟨d, ds, hFirst⟩ : ∃ d ds, n.whole = d :: ds := by
    apply List.exists_cons_of_ne_nil
    intro hNil
    have hWhole := hValid.whole_first
    rw [hNil] at hWhole
    cases hWhole
  have hDigit : d.isDigit = true := hValid.whole_digits d (by rw [hFirst]; exact List.mem_cons_self ..)
  have hText : n.text = d :: (ds ++ (fractionText n.fraction ++ Numeral.exponent_text n.exponent)) := by
    rw [Numeral.text, hFirst]
    rfl
  refine scan_token hText (is_blank_of_name (is_name_of_digit hDigit)) ?_ hFuel
  rw [← read_numeral_append hValid hRest, hText]
  exact read_token_digit hDigit

/-! ## Members by a quoted key -/

/-- A text between quotes that is read as characters. -/
def Quotes (text chars : List Char) : Prop :=
  ∀ rest n, text.length < n → readChars n (text ++ '\x22' :: rest) = some (chars, rest)

/-- The member of the object with a quoted key. -/
theorem reads_member {text chars : List Char} (hText : Quotes text chars) (hChars : '\x00' ∉ chars) :
    ReadsAlways ('$' :: '.' :: '\x22' :: (text ++ ['\x22'])) [.root, .dot, .string chars] := by
  intro rest n hFuel
  simp only [List.length_cons, List.length_append] at hFuel ⊢
  obtain ⟨m, hm, hScan⟩ := scan_token (show ['$'] = '$' :: [] from rfl) (by decide)
    (show read_token (['$'] ++ ('.' :: '\x22' :: (text ++ '\x22' :: rest))) = some (.root, _) from rfl)
    (show 1 ≤ n by omega)
  obtain ⟨m', hm', hScan'⟩ := scan_token (show ['.'] = '.' :: [] from rfl) (by decide)
    (show read_token (['.'] ++ ('\x22' :: (text ++ '\x22' :: rest))) = some (.dot, _) from rfl)
    (show 1 ≤ m by simp at hm; omega)
  have hString : read_token ('\x22' :: (text ++ ['\x22']) ++ rest) = some (.string chars, rest) := by
    show read_string (text ++ ['\x22'] ++ rest) = _
    rw [List.append_assoc, List.singleton_append, read_string,
      hText rest _ (by rw [List.length_append]; omega), Option.bind_some]
    exact if_neg hChars
  obtain ⟨m'', hm'', hScan''⟩ := scan_token rfl (by decide) hString
    (show ('\x22' :: (text ++ ['\x22'])).length ≤ m' by simp at hm hm' ⊢; omega)
  refine ⟨m'', by simp at hm hm' hm''; omega, ?_⟩
  have hFirst : '$' :: '.' :: '\x22' :: (text ++ ['\x22']) ++ rest =
      ['$'] ++ ('.' :: '\x22' :: (text ++ '\x22' :: rest)) := by simp
  have hSecond : '.' :: '\x22' :: (text ++ '\x22' :: rest) =
      ['.'] ++ ('\x22' :: (text ++ '\x22' :: rest)) := rfl
  have hThird : '\x22' :: (text ++ '\x22' :: rest) = '\x22' :: (text ++ ['\x22']) ++ rest := by simp
  rw [hFirst, hScan, hSecond, hScan', hThird, hScan'', Option.map_map, Option.map_map]
  rfl

end JsonPath
