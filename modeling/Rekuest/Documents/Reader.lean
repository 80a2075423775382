import Rekuest.Documents.Json

/-!
# Reading JSON

A reader of JSON texts (RFC 8259), and the texts without white space that denote
a value.  Every such text is read as the value it denotes, so no text denotes two.
-/

namespace Documents

/-! ## Numbers -/

/-- The digits a text begins with, and the rest. -/
def readDigits (s : List Char) : List Char × List Char :=
  (s.takeWhile Char.isDigit, s.dropWhile Char.isDigit)

/-- Whether digits are an integer's: one zero, or no zero first. -/
def isWhole : List Char → Bool
  | [] => false
  | ['0'] => true
  | d :: _ => d != '0'

def signed (negative : Bool) (n : Nat) : Int := if negative then -n else n

def readFraction : List Char → Option (Option (List Char) × List Char)
  | [] => some (none, [])
  | c :: s =>
      if c = '.' then
        if (readDigits s).1.isEmpty then none else some (some (readDigits s).1, (readDigits s).2)
      else some (none, c :: s)

def readSign : List Char → Bool × List Char
  | '-' :: s => (true, s)
  | '+' :: s => (false, s)
  | s => (false, s)

def readExponent : List Char → Option (Option Int × List Char)
  | [] => some (none, [])
  | c :: s =>
      if c = 'e' ∨ c = 'E' then
        let (negative, s) := readSign s
        if (readDigits s).1.isEmpty then none
        else some (some (signed negative (Nat.ofDigitChars 10 (readDigits s).1 0)), (readDigits s).2)
      else some (none, c :: s)

/-- The number of the parts of a text: with a point or an exponent it is a decimal. -/
def numberOf (negative : Bool) (whole : List Char) (fraction : Option (List Char))
    (exponent : Option Int) : JsonNumber :=
  if fraction.isNone && exponent.isNone then
    .int (signed negative (Nat.ofDigitChars 10 whole 0))
  else .decimal (.of negative (Nat.ofDigitChars 10 (whole ++ fraction.getD []) 0)
    (exponent.getD 0 - (fraction.getD []).length))

def readUnsigned (negative : Bool) (s : List Char) : Option (JsonNumber × List Char) :=
  if isWhole (readDigits s).1 then
    (readFraction (readDigits s).2).bind fun (fraction, s') =>
      (readExponent s').map fun (exponent, rest) =>
        (numberOf negative (readDigits s).1 fraction exponent, rest)
  else none

def readNumber : List Char → Option (JsonNumber × List Char)
  | '-' :: s => readUnsigned true s
  | s => readUnsigned false s

/-! ## Strings -/

/-- The character a letter behind a backslash stands for. -/
def unescape : Char → Option Char
  | '\x22' => some '\x22'
  | '\x5c' => some '\x5c'
  | '/' => some '/'
  | 'b' => some '\x08'
  | 'f' => some '\x0c'
  | 'n' => some '\n'
  | 'r' => some '\r'
  | 't' => some '\t'
  | _ => none

def hexValue (c : Char) : Option Nat :=
  if c.isDigit then some (c.toNat - '0'.toNat)
  else if 'a' ≤ c ∧ c ≤ 'f' then some (c.toNat - 'a'.toNat + 10)
  else if 'A' ≤ c ∧ c ≤ 'F' then some (c.toNat - 'A'.toNat + 10)
  else none

def readHex : List Char → Option (Nat × List Char)
  | a :: b :: c :: d :: rest =>
      match hexValue a, hexValue b, hexValue c, hexValue d with
      | some a, some b, some c, some d => some (((a * 16 + b) * 16 + c) * 16 + d, rest)
      | _, _, _, _ => none
  | _ => none

/-- What is behind a backslash; a character beyond the first plane is two of them. -/
def readEscape : List Char → Option (Char × List Char)
  | [] => none
  | c :: s =>
      if c = 'u' then
        (readHex s).bind fun (high, rest) =>
          if 0xD800 ≤ high ∧ high < 0xDC00 then
            match rest with
            | '\x5c' :: 'u' :: rest' => (readHex rest').bind fun (low, rest'') =>
                if 0xDC00 ≤ low ∧ low < 0xE000 then
                  some (Char.ofNat (0x10000 + (high - 0xD800) * 0x400 + (low - 0xDC00)), rest'')
                else none
            | _ => none
          else if 0xDC00 ≤ high ∧ high < 0xE000 then none
          else some (Char.ofNat high, rest)
      else (unescape c).map (·, s)

/-- The characters up to the closing quote; `n` bounds how many. -/
def readChars : Nat → List Char → Option (List Char × List Char)
  | 0, _ | _, [] => none
  | n + 1, c :: s =>
      if c = '\x22' then some ([], s)
      else if c = '\x5c' then
        (readEscape s).bind fun (d, rest) =>
          (readChars n rest).map fun (chars, rest') => (d :: chars, rest')
      else if c.toNat < 0x20 then none
      else (readChars n s).map fun (chars, rest) => (c :: chars, rest)

/-! ## Values -/

def isSpace (c : Char) : Bool := c = ' ' || c = '\t' || c = '\n' || c = '\r'

def skipSpace (s : List Char) : List Char := s.dropWhile isSpace

/-- The rest behind a word. -/
def readWord : List Char → List Char → Option (List Char)
  | [], s => some s
  | _ :: _, [] => none
  | c :: word, d :: s => if c = d then readWord word s else none

mutual

/-- The value a text begins with, and the rest; `n` bounds the way down. -/
def readValue : Nat → List Char → Option (Json × List Char)
  | 0, _ => none
  | n + 1, s =>
      match skipSpace s with
      | [] => none
      | c :: rest =>
          if c = '\x22' then
            (readChars rest.length rest).map fun (chars, rest') => (.string (.ofList chars), rest')
          else if c = '[' then
            match skipSpace rest with
            | ']' :: rest' => some (.array [], rest')
            | rest' => (readItems n rest').map fun (items, rest'') => (.array items, rest'')
          else if c = '\x7b' then
            match skipSpace rest with
            | '\x7d' :: rest' => some (.object [], rest')
            | rest' => (readFields n rest').map fun (fields, rest'') => (.object fields, rest'')
          else if c = 'n' then (readWord ['u', 'l', 'l'] rest).map (.null, ·)
          else if c = 't' then (readWord ['r', 'u', 'e'] rest).map (.bool true, ·)
          else if c = 'f' then (readWord ['a', 'l', 's', 'e'] rest).map (.bool false, ·)
          else (readNumber (c :: rest)).map fun (number, rest') => (.number number, rest')

/-- The items up to the closing bracket. -/
def readItems : Nat → List Char → Option (List Json × List Char)
  | 0, _ => none
  | n + 1, s =>
      (readValue n s).bind fun (item, s') =>
        match skipSpace s' with
        | ']' :: rest => some ([item], rest)
        | ',' :: rest => (readItems n rest).map fun (items, rest') => (item :: items, rest')
        | _ => none

/-- The fields up to the closing brace. -/
def readFields : Nat → List Char → Option (List (String × Json) × List Char)
  | 0, _ => none
  | n + 1, s =>
      match skipSpace s with
      | '\x22' :: s₁ => (readChars s₁.length s₁).bind fun (key, s₂) =>
          match skipSpace s₂ with
          | ':' :: s₃ => (readValue n s₃).bind fun (value, s₄) =>
              match skipSpace s₄ with
              | '\x7d' :: rest => some ([(.ofList key, value)], rest)
              | ',' :: rest => (readFields n rest).map fun (fields, rest') =>
                  ((.ofList key, value) :: fields, rest')
              | _ => none
          | _ => none
      | _ => none

end

/-- The value of a whole text. -/
def parseJson (s : List Char) : Option Json :=
  match readValue s.length s with
  | some (value, rest) => if (skipSpace rest).isEmpty then some value else none
  | none => none

/-! ## What texts denote -/

def signText (negative : Bool) : List Char := if negative then ['-'] else []

def fractionText : Option (List Char) → List Char
  | none => []
  | some ds => '.' :: ds

/-- The exponents' texts: an `e`, a sign and digits. -/
inductive ExponentText : Option Int → List Char → Prop
  | none : ExponentText none []
  | some (negative : Bool) {ds : List Char} (hDigits : ∀ c ∈ ds, c.isDigit = true) (hSome : ds ≠ []) :
      ExponentText (some (signed negative (Nat.ofDigitChars 10 ds 0)))
        ('e' :: (if negative then '-' else '+') :: ds)

inductive NumberText : JsonNumber → List Char → Prop
  | mk (negative : Bool) {whole : List Char} {fraction : Option (List Char)}
      {exponent : Option Int} {text : List Char} (hDigits : ∀ c ∈ whole, c.isDigit = true)
      (hWhole : isWhole whole = true)
      (hFraction : ∀ ds, fraction = some ds → ds ≠ [] ∧ ∀ c ∈ ds, c.isDigit = true)
      (hExponent : ExponentText exponent text) :
      NumberText (numberOf negative whole fraction exponent)
        (signText negative ++ (whole ++ (fractionText fraction ++ text)))

/-- The ways to write a character. -/
inductive CharText : Char → List Char → Prop
  | plain {c : Char} (hQuote : c ≠ '\x22') (hBackslash : c ≠ '\x5c') (hControl : 0x20 ≤ c.toNat) :
      CharText c [c]
  | escaped {c d : Char} (hLetter : d ≠ 'u') (h : unescape d = some c) : CharText c ['\x5c', d]
  | unicode {n : Nat} {a b c d : Char} (h : ∀ rest, readHex (a :: b :: c :: d :: rest) = some (n, rest))
      (hPlane : n < 0xD800) : CharText (Char.ofNat n) ['\x5c', 'u', a, b, c, d]

inductive CharsText : List Char → List Char → Prop
  | nil : CharsText [] []
  | cons {c : Char} {cs text rest : List Char} (h : CharText c text) (hRest : CharsText cs rest) :
      CharsText (c :: cs) (text ++ rest)

mutual

/-- The texts of a value. -/
inductive Denotes : List Char → Json → Prop
  | null : Denotes ['n', 'u', 'l', 'l'] .null
  | true : Denotes ['t', 'r', 'u', 'e'] (.bool Bool.true)
  | false : Denotes ['f', 'a', 'l', 's', 'e'] (.bool Bool.false)
  | number {n : JsonNumber} {text : List Char} (h : NumberText n text) : Denotes text (.number n)
  | string {s : String} {text : List Char} (h : CharsText s.toList text) :
      Denotes ('\x22' :: (text ++ ['\x22'])) (.string s)
  | noItems : Denotes ['[', ']'] (.array [])
  | array {items : List Json} {text : List Char} (h : DenotesItems text items) :
      Denotes ('[' :: (text ++ [']'])) (.array items)
  | noFields : Denotes ['\x7b', '\x7d'] (.object [])
  | object {fields : List (String × Json)} {text : List Char} (h : DenotesFields text fields) :
      Denotes ('\x7b' :: (text ++ ['\x7d'])) (.object fields)

inductive DenotesItems : List Char → List Json → Prop
  | one {item : Json} {text : List Char} (h : Denotes text item) : DenotesItems text [item]
  | more {item : Json} {items : List Json} {text rest : List Char} (h : Denotes text item)
      (hRest : DenotesItems rest items) : DenotesItems (text ++ ',' :: rest) (item :: items)

inductive DenotesFields : List Char → List (String × Json) → Prop
  | one {key : String} {value : Json} {keyText text : List Char}
      (hKey : CharsText key.toList keyText) (h : Denotes text value) :
      DenotesFields ('\x22' :: (keyText ++ '\x22' :: ':' :: text)) [(key, value)]
  | more {key : String} {value : Json} {fields : List (String × Json)}
      {keyText text rest : List Char} (hKey : CharsText key.toList keyText) (h : Denotes text value)
      (hRest : DenotesFields rest fields) :
      DenotesFields ('\x22' :: (keyText ++ '\x22' :: ':' :: (text ++ ',' :: rest)))
        ((key, value) :: fields)

end

/-! ## Reading a number -/

/-- What follows a value: nothing that could go on with a number. -/
def Stops (rest : List Char) : Prop :=
  ∀ c s, rest = c :: s → c.isDigit = false ∧ c ≠ '.' ∧ c ≠ 'e' ∧ c ≠ 'E'

theorem stops_nil : Stops [] := fun _ _ h => by cases h

theorem readDigits_append {ds rest : List Char} (hDigits : ∀ c ∈ ds, c.isDigit = true)
    (hRest : ∀ c s, rest = c :: s → c.isDigit = false) : readDigits (ds ++ rest) = (ds, rest) := by
  have hTake : rest.takeWhile Char.isDigit = [] := by
    cases rest with
    | nil => rfl
    | cons c s => rw [List.takeWhile_cons_of_neg (by simp [hRest c s rfl])]
  have hDrop : rest.dropWhile Char.isDigit = rest := by
    cases rest with
    | nil => rfl
    | cons c s => rw [List.dropWhile_cons_of_neg (by simp [hRest c s rfl])]
  rw [readDigits, List.takeWhile_append_of_pos hDigits, List.dropWhile_append_of_pos hDigits,
    hTake, hDrop, List.append_nil]

theorem readExponent_append {exponent : Option Int} {text rest : List Char}
    (h : ExponentText exponent text) (hRest : Stops rest) :
    readExponent (text ++ rest) = some (exponent, rest) := by
  cases h with
  | none =>
      cases rest with
      | nil => rfl
      | cons c s =>
          obtain ⟨-, -, hLower, hUpper⟩ := hRest c s rfl
          simp [readExponent, hLower, hUpper]
  | @some negative ds hDigits hSome =>
      have hRead := readDigits_append hDigits fun c s hEq => (hRest c s hEq).1
      have hEmpty : ds.isEmpty = false := by simpa using hSome
      cases negative with
      | false => simp [readExponent, readSign, hRead, hEmpty]
      | true => simp [readExponent, readSign, hRead, hEmpty]

theorem readFraction_append {fraction : Option (List Char)} {rest : List Char}
    (hFraction : ∀ ds, fraction = some ds → ds ≠ [] ∧ ∀ c ∈ ds, c.isDigit = true)
    (hRest : ∀ c s, rest = c :: s → c.isDigit = false ∧ c ≠ '.') :
    readFraction (fractionText fraction ++ rest) = some (fraction, rest) := by
  cases fraction with
  | none =>
      cases rest with
      | nil => rfl
      | cons c s => simp [fractionText, readFraction, (hRest c s rfl).2]
  | some ds =>
      obtain ⟨hSome, hDigits⟩ := hFraction ds rfl
      have hRead := readDigits_append hDigits fun c s hEq => (hRest c s hEq).1
      have hEmpty : ds.isEmpty = false := by simpa using hSome
      simp [fractionText, readFraction, hRead, hEmpty]

theorem exponentText_head {exponent : Option Int} {text rest : List Char}
    (h : ExponentText exponent text) (hRest : Stops rest) :
    ∀ c s, text ++ rest = c :: s → c.isDigit = false ∧ c ≠ '.' := by
  intro c s hEq
  cases h with
  | none =>
      obtain ⟨hDigit, hPoint, -⟩ := hRest c s hEq
      exact ⟨hDigit, hPoint⟩
  | some negative hDigits hSome =>
      cases hEq
      exact ⟨by decide, by decide⟩

theorem readUnsigned_append (negative : Bool) {whole : List Char}
    {fraction : Option (List Char)} {exponent : Option Int} {text rest : List Char}
    (hDigits : ∀ c ∈ whole, c.isDigit = true) (hWhole : isWhole whole = true)
    (hFraction : ∀ ds, fraction = some ds → ds ≠ [] ∧ ∀ c ∈ ds, c.isDigit = true)
    (hExponent : ExponentText exponent text) (hRest : Stops rest) :
    readUnsigned negative (whole ++ (fractionText fraction ++ (text ++ rest))) =
      some (numberOf negative whole fraction exponent, rest) := by
  have hHead := exponentText_head hExponent hRest
  have hAfter : ∀ c s, fractionText fraction ++ (text ++ rest) = c :: s → c.isDigit = false := by
    intro c s hEq
    cases fraction with
    | none => exact (hHead c s hEq).1
    | some ds =>
        cases hEq
        decide
  rw [readUnsigned, readDigits_append hDigits hAfter, if_pos hWhole]
  simp only [readFraction_append hFraction hHead, Option.bind_some,
    readExponent_append hExponent hRest, Option.map_some]

/-- **A number is read from its text.** -/
theorem readNumber_append {n : JsonNumber} {text rest : List Char} (h : NumberText n text)
    (hRest : Stops rest) : readNumber (text ++ rest) = some (n, rest) := by
  cases h with
  | @mk negative whole fraction exponent text hDigits hWhole hFraction hExponent =>
      have hRead := readUnsigned_append negative hDigits hWhole hFraction hExponent hRest
      cases negative with
      | true => simpa [signText, readNumber] using hRead
      | false =>
          cases whole with
          | nil => cases hWhole
          | cons d ds =>
              have hMinus : d ≠ '-' := by
                rintro rfl
                exact absurd (hDigits '-' List.mem_cons_self) (by decide)
              simp only [signText, List.nil_append, Bool.false_eq_true, if_false, List.cons_append,
                List.append_assoc] at hRead ⊢
              rw [readNumber]
              · exact hRead
              · intro s hEq
                exact absurd (List.cons.inj hEq).1 hMinus

/-! ## Reading a string -/

theorem readChars_char {c : Char} {text s : List Char} {n : Nat} (h : CharText c text) :
    readChars (n + 1) (text ++ s) =
      (readChars n s).map fun (chars, rest) => (c :: chars, rest) := by
  cases h with
  | plain hQuote hBackslash hControl =>
      have hNot : ¬ c.toNat < 0x20 := by omega
      simp [readChars, hQuote, hBackslash, hNot]
  | @escaped _ d hLetter h => simp [readChars, readEscape, hLetter, h]
  | @unicode m a b c d h hPlane =>
      have hHigh : ¬ (0xD800 ≤ m ∧ m < 0xDC00) := by omega
      have hLow : ¬ (0xDC00 ≤ m ∧ m < 0xE000) := by omega
      simp [readChars, readEscape, h, hHigh, hLow]

/-- **A string is read from its text.** -/
theorem readChars_append {cs text rest : List Char} {n : Nat} (h : CharsText cs text)
    (hLe : text.length < n) : readChars n (text ++ '\x22' :: rest) = some (cs, rest) := by
  induction h generalizing n with
  | nil =>
      cases n with
      | zero => simp at hLe
      | succ n => simp [readChars]
  | @cons c cs text more hChar hRest ih =>
      have hPositive : 0 < text.length := by cases hChar <;> simp
      rw [List.length_append] at hLe
      cases n with
      | zero => omega
      | succ n =>
          rw [List.append_assoc, readChars_char hChar, ih (by omega)]
          rfl

/-! ## Reading a value -/

theorem skipSpace_cons {c : Char} {s : List Char} (h : isSpace c = false) :
    skipSpace (c :: s) = c :: s := by
  rw [skipSpace, List.dropWhile_cons_of_neg (by simp [h])]

/-- How a number begins. -/
theorem numberText_head {n : JsonNumber} {text : List Char} (h : NumberText n text) :
    ∃ c s, text = c :: s ∧ (c = '-' ∨ c.isDigit = true) := by
  cases h with
  | @mk negative whole fraction exponent text hDigits hWhole hFraction hExponent =>
      cases negative with
      | true => exact ⟨'-', _, rfl, .inl rfl⟩
      | false =>
          cases whole with
          | nil => cases hWhole
          | cons d ds => exact ⟨d, _, rfl, .inr (hDigits d List.mem_cons_self)⟩

/-- No text begins with white space or a closing bracket. -/
theorem denotes_head {text : List Char} {v : Json} (h : Denotes text v) :
    ∃ c s, text = c :: s ∧ isSpace c = false ∧ c ≠ ']' ∧ c ≠ '\x7d' := by
  cases h with
  | number hNumber =>
      obtain ⟨c, s, hText, hMinus | hDigit⟩ := numberText_head hNumber
      · subst hMinus
        exact ⟨_, s, hText, by decide, by decide, by decide⟩
      · refine ⟨c, s, hText, ?_, ?_, ?_⟩
        · simp only [isSpace, Bool.or_eq_false_iff, decide_eq_false_iff_not]
          refine ⟨⟨⟨?_, ?_⟩, ?_⟩, ?_⟩ <;> rintro rfl <;> cases hDigit
        · rintro rfl
          cases hDigit
        · rintro rfl
          cases hDigit
  | null | true | false | string | noItems | array | noFields | object =>
      exact ⟨_, _, rfl, by decide, by decide, by decide⟩

theorem stops_cons {c : Char} {s : List Char}
    (h : c.isDigit = false ∧ c ≠ '.' ∧ c ≠ 'e' ∧ c ≠ 'E') : Stops (c :: s) := by
  intro d rest hEq
  obtain ⟨rfl, -⟩ := List.cons.inj hEq
  exact h

theorem readValue_number {n : JsonNumber} {text rest : List Char} {fuel : Nat}
    (h : NumberText n text) (hRest : Stops rest) :
    readValue (fuel + 1) (text ++ rest) = some (.number n, rest) := by
  have hRead := readNumber_append h hRest
  obtain ⟨c, s, hSpace⟩ : ∃ c s, text = c :: s ∧ isSpace c = false := by
    obtain ⟨c, s, hText, hSpace, -⟩ := denotes_head (.number h)
    exact ⟨c, s, hText, hSpace⟩
  obtain ⟨d, u, hText, hHead⟩ := numberText_head h
  obtain ⟨rfl, hSpace⟩ := hSpace
  cases hText
  -- a number begins as nothing else does
  have hNot : c ≠ '\x22' ∧ c ≠ '[' ∧ c ≠ '\x7b' ∧ c ≠ 'n' ∧ c ≠ 't' ∧ c ≠ 'f' := by
    rcases hHead with rfl | hDigit
    · decide
    · refine ⟨?_, ?_, ?_, ?_, ?_, ?_⟩ <;> rintro rfl <;> cases hDigit
  obtain ⟨h₁, h₂, h₃, h₄, h₅, h₆⟩ := hNot
  simp only [List.cons_append] at hRead
  simp [readValue, skipSpace_cons hSpace, h₁, h₂, h₃, h₄, h₅, h₆, hRead]

/-- What a text of several items, or of fields, is read as. -/
def ReadsItems (text : List Char) (items : List Json) : Prop :=
  ∀ (fuel : Nat) (rest : List Char), text.length < fuel →
    readItems fuel (text ++ ']' :: rest) = some (items, rest)

def ReadsFields (text : List Char) (fields : List (String × Json)) : Prop :=
  ∀ (fuel : Nat) (rest : List Char), text.length < fuel →
    readFields fuel (text ++ '\x7d' :: rest) = some (fields, rest)

def ReadsValue (text : List Char) (v : Json) : Prop :=
  ∀ (fuel : Nat) (rest : List Char), text.length ≤ fuel → Stops rest →
    readValue fuel (text ++ rest) = some (v, rest)

theorem readsValue_string {s : String} {text : List Char} (h : CharsText s.toList text) :
    ReadsValue ('\x22' :: (text ++ ['\x22'])) (.string s) := by
  intro fuel rest hLe _
  cases fuel with
  | zero => simp at hLe
  | succ fuel =>
      have hRead : readChars (text ++ '\x22' :: rest).length (text ++ '\x22' :: rest) =
          some (s.toList, rest) := readChars_append h (by simp)
      simp only [List.cons_append, List.append_assoc, List.nil_append, readValue,
        skipSpace_cons (show isSpace '\x22' = false by decide), if_true, hRead, Option.map_some,
        String.ofList_toList]

theorem itemsText_head {text : List Char} {items : List Json} (h : DenotesItems text items) :
    ∃ c s, text = c :: s ∧ isSpace c = false ∧ c ≠ ']' := by
  cases h with
  | one h =>
      obtain ⟨c, s, hText, hSpace, hClose, -⟩ := denotes_head h
      exact ⟨c, s, hText, hSpace, hClose⟩
  | more h hRest =>
      obtain ⟨c, s, hText, hSpace, hClose, -⟩ := denotes_head h
      exact ⟨c, _, by rw [hText]; rfl, hSpace, hClose⟩

theorem readsValue_array {items : List Json} {text : List Char} (hText : DenotesItems text items)
    (h : ReadsItems text items) : ReadsValue ('[' :: (text ++ [']'])) (.array items) := by
  intro fuel rest hLe _
  cases fuel with
  | zero => simp at hLe
  | succ fuel =>
      have hRead := h fuel rest (by simp at hLe; omega)
      obtain ⟨c, s, rfl, hSpace, hClose⟩ := itemsText_head hText
      simp only [List.cons_append] at hRead
      simp [readValue, skipSpace_cons (show isSpace '[' = false by decide), skipSpace_cons hSpace,
        hClose, hRead]

theorem readsValue_object {fields : List (String × Json)} {text : List Char}
    (hText : DenotesFields text fields) (h : ReadsFields text fields) :
    ReadsValue ('\x7b' :: (text ++ ['\x7d'])) (.object fields) := by
  intro fuel rest hLe _
  cases fuel with
  | zero => simp at hLe
  | succ fuel =>
      have hRead := h fuel rest (by simp at hLe; omega)
      obtain ⟨s, rfl⟩ : ∃ s, text = '\x22' :: s := by
        cases hText <;> exact ⟨_, rfl⟩
      simp only [List.cons_append] at hRead
      simp [readValue, skipSpace_cons (show isSpace '\x7b' = false by decide),
        skipSpace_cons (show isSpace '\x22' = false by decide), hRead]

theorem stops_comma (s : List Char) : Stops (',' :: s) := stops_cons (by decide)

theorem readsItems_one {item : Json} {text : List Char} (h : ReadsValue text item) :
    ReadsItems text [item] := by
  intro fuel rest hLt
  cases fuel with
  | zero => omega
  | succ fuel =>
      have hRead := h fuel (']' :: rest) (by omega) (stops_cons (by decide))
      simp [readItems, hRead, skipSpace_cons (show isSpace ']' = false by decide)]

theorem readsItems_more {item : Json} {items : List Json} {text more : List Char}
    (h : ReadsValue text item) (hRest : ReadsItems more items) :
    ReadsItems (text ++ ',' :: more) (item :: items) := by
  intro fuel rest hLt
  rw [List.length_append, List.length_cons] at hLt
  cases fuel with
  | zero => omega
  | succ fuel =>
      have hRead := h fuel (',' :: (more ++ ']' :: rest)) (by omega) (stops_comma _)
      have hMore := hRest fuel rest (by omega)
      simp [readItems, hRead, hMore, skipSpace_cons (show isSpace ',' = false by decide)]

theorem readKey {key : String} {keyText s : List Char} (hKey : CharsText key.toList keyText) :
    readChars (keyText ++ '\x22' :: ':' :: s).length (keyText ++ '\x22' :: ':' :: s) =
      some (key.toList, ':' :: s) := readChars_append hKey (by simp)

theorem readsFields_one {key : String} {value : Json} {keyText text : List Char}
    (hKey : CharsText key.toList keyText) (h : ReadsValue text value) :
    ReadsFields ('\x22' :: (keyText ++ '\x22' :: ':' :: text)) [(key, value)] := by
  intro fuel rest hLt
  simp only [List.length_cons, List.length_append] at hLt
  cases fuel with
  | zero => omega
  | succ fuel =>
      have hRead := h fuel ('\x7d' :: rest) (by omega) (stops_cons (by decide))
      have hChars := readKey (s := text ++ '\x7d' :: rest) hKey
      simp only [List.cons_append, List.append_assoc, readFields,
        skipSpace_cons (show isSpace '\x22' = false by decide), hChars, Option.bind_some,
        skipSpace_cons (show isSpace ':' = false by decide), hRead,
        skipSpace_cons (show isSpace '\x7d' = false by decide), String.ofList_toList]

theorem readsFields_more {key : String} {value : Json} {fields : List (String × Json)}
    {keyText text more : List Char} (hKey : CharsText key.toList keyText)
    (h : ReadsValue text value) (hRest : ReadsFields more fields) :
    ReadsFields ('\x22' :: (keyText ++ '\x22' :: ':' :: (text ++ ',' :: more)))
      ((key, value) :: fields) := by
  intro fuel rest hLt
  simp only [List.length_cons, List.length_append] at hLt
  cases fuel with
  | zero => omega
  | succ fuel =>
      have hRead := h fuel (',' :: (more ++ '\x7d' :: rest)) (by omega) (stops_comma _)
      have hChars := readKey (s := text ++ ',' :: (more ++ '\x7d' :: rest)) hKey
      have hMore := hRest fuel rest (by omega)
      simp only [List.cons_append, List.append_assoc, readFields,
        skipSpace_cons (show isSpace '\x22' = false by decide), hChars, Option.bind_some,
        skipSpace_cons (show isSpace ':' = false by decide), hRead,
        skipSpace_cons (show isSpace ',' = false by decide), hMore, Option.map_some,
        String.ofList_toList]

/-- **Every text is read as the value it denotes.** -/
theorem readsValue_of_denotes {text : List Char} {v : Json} (h : Denotes text v) :
    ReadsValue text v := by
  have hWord {c : Char} {word : List Char} {w : Json} (h : ∀ n s, readValue (n + 1) (c :: word ++ s) =
      some (w, s)) : ReadsValue (c :: word) w := by
    intro fuel rest hLe _
    cases fuel with
    | zero => simp at hLe
    | succ fuel => exact h fuel rest
  refine Denotes.rec (motive_1 := fun text v _ => ReadsValue text v)
    (motive_2 := fun text items _ => ReadsItems text items)
    (motive_3 := fun text fields _ => ReadsFields text fields)
    ?null ?true ?false ?number ?string ?noItems ?array ?noFields ?object ?oneItem ?moreItems
    ?oneField ?moreFields h
  case null | true | false | noItems | noFields =>
    refine hWord fun n s => ?_
    simp [readValue, skipSpace, isSpace, readWord]
  case number =>
    intro n text hNumber fuel rest hLe hRest
    cases fuel with
    | zero =>
        obtain ⟨c, s, rfl, -⟩ := numberText_head hNumber
        simp at hLe
    | succ fuel => exact readValue_number hNumber hRest
  case string => exact fun hText => readsValue_string hText
  case array => exact fun hText ih => readsValue_array hText ih
  case object => exact fun hText ih => readsValue_object hText ih
  case oneItem => exact fun _ ih => readsItems_one ih
  case moreItems => exact fun _ _ ih ihRest => readsItems_more ih ihRest
  case oneField => exact fun hKey _ ih => readsFields_one hKey ih
  case moreFields => exact fun hKey _ _ ih ihRest => readsFields_more hKey ih ihRest

theorem parseJson_of_denotes {text : List Char} {v : Json} (h : Denotes text v) :
    parseJson text = some v := by
  have hRead := readsValue_of_denotes h text.length [] (Nat.le_refl _) stops_nil
  rw [List.append_nil] at hRead
  simp [parseJson, hRead, skipSpace]

end Documents
