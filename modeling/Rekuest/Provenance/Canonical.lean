import Rekuest.Documents.Reader

/-!
# Canonical arguments

A provenance token carries the hash of the canonical text of the arguments, not the
arguments.  The text has no white space, its keys are in order, and a JSON reader
reads it back as the arguments it was written from.
-/

namespace Rekuest.Provenance

open Documents

/-! ## Numbers -/

/-- `format!("{:02}")`. -/
def twoDigits (n : Nat) : List Char :=
  List.replicate (2 - (Nat.toDigits 10 n).length) '0' ++ Nat.toDigits 10 n

/-- `repr(float)`: the shortest digits as CPython formats them. -/
def floatRepr (x : Decimal) : List Char :=
  if x.mantissa = 0 then
    if x.negative then ['-', '0', '.', '0'] else ['0', '.', '0']
  else
    let digits := Nat.toDigits 10 x.mantissa
    let exponent := x.power + digits.length - 1
    let sign := signText x.negative
    if -4 ≤ exponent ∧ exponent < 16 then
      -- positional, with at least one digit after the point
      let point := exponent + 1
      let body :=
        if point ≤ 0 then ['0', '.'] ++ (List.replicate (-point).toNat '0' ++ digits)
        else if digits.length ≤ point.toNat then
          digits ++ List.replicate (point.toNat - digits.length) '0' ++ ['.', '0']
        else digits.take point.toNat ++ ['.'] ++ digits.drop point.toNat
      sign ++ body
    else
      let (first, rest) := digits.splitAt 1
      let mantissa := if rest.isEmpty then first else first ++ ['.'] ++ rest
      let expSign := if exponent < 0 then '-' else '+'
      sign ++ mantissa ++ ['e', expSign] ++ twoDigits exponent.natAbs

/-- An integer in digits. -/
def intText (n : Int) : List Char := signText (n < 0) ++ Nat.toDigits 10 n.natAbs

def numberText : JsonNumber → List Char
  | .int n => intText n
  | .decimal x => floatRepr x

/-! ## Strings -/

/-- `format!("{:04x}")`. -/
def fourHex (n : Nat) : List Char :=
  List.replicate (4 - (Nat.toDigits 16 n).length) '0' ++ Nat.toDigits 16 n

/-- Only the quote, the backslash and the control characters are escaped. -/
def escape (c : Char) : List Char :=
  match c with
  | '\x22' => ['\x5c', '\x22']
  | '\x5c' => ['\x5c', '\x5c']
  | '\n' => ['\x5c', 'n']
  | '\r' => ['\x5c', 'r']
  | '\t' => ['\x5c', 't']
  | '\x08' => ['\x5c', 'b']
  | '\x0c' => ['\x5c', 'f']
  | c => if c.toNat < 0x20 then ['\x5c', 'u'] ++ fourHex c.toNat else [c]

def stringText (s : String) : List Char := ['\x22'] ++ s.toList.flatMap escape ++ ['\x22']

/-! ## Values -/

/-- The parts with a comma between two of them. -/
def joined : List (List Char) → List Char
  | [] => []
  | [part] => part
  | part :: rest => part ++ ',' :: joined rest

mutual

/-- The canonical text of a value. -/
def write : Json → List Char
  | .null => ['n', 'u', 'l', 'l']
  | .bool true => ['t', 'r', 'u', 'e']
  | .bool false => ['f', 'a', 'l', 's', 'e']
  | .number n => numberText n
  | .string s => stringText s
  | .array items => ['['] ++ joined (writeItems items) ++ [']']
  -- the order reads the keys alone: the entries are written, then put in order
  | .object map => ['\x7b'] ++ joined (((writeFields map).mergeSort Json.byKey).map (·.2)) ++ ['\x7d']

def writeItems : List Json → List (List Char)
  | [] => []
  | item :: items => write item :: writeItems items

/-- Each key with the text of its entry. -/
def writeFields : List (String × Json) → List (String × List Char)
  | [] => []
  | (key, item) :: map => (key, stringText key ++ ':' :: write item) :: writeFields map

end

/-- A call's arguments: a map, and the maps in it, has a key once. -/
structure Args where
  map : List (String × Json)
  distinct : (Json.object map).Distinct

def Args.value (args : Args) : Json := .object args.map

/-- The canonical form of the arguments. -/
def canonicalizeArgs (args : Args) : String := .ofList (write args.value)

/-- The digest of the canonical arguments; `sha256` gives the hex digits of a text's digest. -/
def argsHash (sha256 : String → String) (args : Args) : String := sha256 (canonicalizeArgs args)

/-! ## The texts of numbers -/

theorem isDigit_toDigits {n : Nat} : ∀ c ∈ Nat.toDigits 10 n, c.isDigit = true :=
  fun _ hc => Nat.isDigit_of_mem_toDigits (by decide) (by decide) hc

theorem isDigit_replicate_zero {n : Nat} : ∀ c ∈ List.replicate n '0', c.isDigit = true := by
  intro c hc
  rw [List.eq_of_mem_replicate hc]
  decide

/-- A positive number's digits begin with another than zero. -/
theorem toDigits_head {n : Nat} (hPos : 0 < n) :
    ∃ d ds, Nat.toDigits 10 n = d :: ds ∧ d ≠ '0' := by
  induction n using Nat.strongRecOn with
  | ind n ih =>
      rw [Nat.toDigits_eq_if (by decide)]
      by_cases hSmall : n < 10
      · rw [if_pos hSmall]
        refine ⟨n.digitChar, [], rfl, ?_⟩
        have hDigits : ∀ m < 10, 0 < m → m.digitChar ≠ '0' := by decide
        exact hDigits n hSmall hPos
      · rw [if_neg hSmall]
        obtain ⟨d, ds, hEq, hHead⟩ := ih (n / 10) (by omega) (by omega)
        exact ⟨d, ds ++ [(n % 10).digitChar], by rw [hEq, List.cons_append], hHead⟩

theorem isWhole_cons {d : Char} {ds : List Char} (hHead : d ≠ '0') : isWhole (d :: ds) = true := by
  simp [isWhole, hHead]

theorem isWhole_toDigits (n : Nat) : isWhole (Nat.toDigits 10 n) = true := by
  by_cases hPos : 0 < n
  · obtain ⟨d, ds, hEq, hHead⟩ := toDigits_head hPos
    rw [hEq]
    exact isWhole_cons hHead
  · have hZero : n = 0 := by omega
    subst hZero
    decide

theorem isWhole_append {d : Char} {ds more : List Char} (hHead : d ≠ '0') :
    isWhole (d :: ds ++ more) = true := isWhole_cons hHead

theorem signed_natAbs (n : Int) : signed (n < 0) n.natAbs = n := by
  unfold signed
  by_cases hNeg : n < 0
  · rw [if_pos (decide_eq_true hNeg)]
    omega
  · rw [if_neg (by simpa using hNeg)]
    omega

theorem numberText_intText (n : Int) : NumberText (.int n) (intText n) := by
  have hNone : ∀ ds : List Char, (none : Option (List Char)) = some ds →
      ds ≠ [] ∧ ∀ c ∈ ds, c.isDigit = true := fun ds hEq => by cases hEq
  have h := NumberText.mk (n < 0) isDigit_toDigits (isWhole_toDigits n.natAbs) hNone
    ExponentText.none
  rw [numberOf, if_pos (by rfl), Nat.ofDigitChars_ten_toDigits, signed_natAbs] at h
  simpa [intText, fractionText] using h

theorem isDigit_twoDigits {n : Nat} : ∀ c ∈ twoDigits n, c.isDigit = true := by
  intro c hc
  rcases List.mem_append.mp hc with hc | hc
  · exact isDigit_replicate_zero c hc
  · exact isDigit_toDigits c hc

theorem ofDigitChars_twoDigits (n : Nat) : Nat.ofDigitChars 10 (twoDigits n) 0 = n := by
  rw [twoDigits, Nat.ofDigitChars_append, Nat.ofDigitChars_replicate_zero, Nat.mul_zero,
    Nat.ofDigitChars_ten_toDigits]

theorem exponentText_of (e : Int) :
    ExponentText (some e) (['e', if e < 0 then '-' else '+'] ++ twoDigits e.natAbs) := by
  have hSome : twoDigits e.natAbs ≠ [] := by
    intro hEq
    exact Nat.toDigits_ne_nil (List.append_eq_nil_iff.mp hEq).2
  have h := ExponentText.some (e < 0) isDigit_twoDigits hSome
  rw [ofDigitChars_twoDigits, signed_natAbs] at h
  by_cases hNeg : e < 0
  · simpa [hNeg] using h
  · simpa [hNeg] using h

theorem isDigit_zero : ∀ c ∈ ['0'], c.isDigit = true := List.all_eq_true.1 (by decide)

/-- A decimal from the parts of its text. -/
theorem numberText_decimal (x : Decimal) {whole : List Char} {fraction : Option (List Char)}
    {exponent : Option Int} {text : List Char} (hDigits : ∀ c ∈ whole, c.isDigit = true)
    (hWhole : isWhole whole = true)
    (hFraction : ∀ ds, fraction = some ds → ds ≠ [] ∧ ∀ c ∈ ds, c.isDigit = true)
    (hExponent : ExponentText exponent text)
    (hPoint : (fraction.isNone && exponent.isNone) = false) {n : Nat}
    (hMantissa : Nat.ofDigitChars 10 (whole ++ fraction.getD []) 0 = 10 ^ n * x.mantissa)
    (hPower : exponent.getD 0 - (fraction.getD []).length + n = x.power) :
    NumberText (.decimal x) (signText x.negative ++ (whole ++ (fractionText fraction ++ text))) := by
  have h := NumberText.mk x.negative hDigits hWhole hFraction hExponent
  rw [numberOf, if_neg (by rw [hPoint]; decide), hMantissa, Decimal.of_tens, hPower,
    Decimal.of_normal] at h
  exact h

theorem isDigit_append {ds ds' : List Char} (h : ∀ c ∈ ds, c.isDigit = true)
    (h' : ∀ c ∈ ds', c.isDigit = true) : ∀ c ∈ ds ++ ds', c.isDigit = true := by
  intro c hc
  rcases List.mem_append.mp hc with hc | hc
  · exact h c hc
  · exact h' c hc

theorem fraction_some {ds : List Char} (hSome : ds ≠ []) (hDigits : ∀ c ∈ ds, c.isDigit = true) :
    ∀ ds', some ds = some ds' → ds' ≠ [] ∧ ∀ c ∈ ds', c.isDigit = true := by
  intro ds' hEq
  cases hEq
  exact ⟨hSome, hDigits⟩

section

variable (x : Decimal)

/-- The point before the digits. -/
theorem numberText_before {k : Nat}
    (hPoint : x.power + (Nat.toDigits 10 x.mantissa).length + k = 0) :
    NumberText (.decimal x) (signText x.negative ++
      (['0', '.'] ++ (List.replicate k '0' ++ Nat.toDigits 10 x.mantissa))) := by
  have hSome : List.replicate k '0' ++ Nat.toDigits 10 x.mantissa ≠ [] := by
    intro hEq
    exact Nat.toDigits_ne_nil (List.append_eq_nil_iff.mp hEq).2
  have hMantissa : Nat.ofDigitChars 10
      (['0'] ++ (List.replicate k '0' ++ Nat.toDigits 10 x.mantissa)) 0 = 10 ^ 0 * x.mantissa := by
    rw [Nat.ofDigitChars_append, Nat.ofDigitChars_append,
      show Nat.ofDigitChars 10 ['0'] 0 = 0 from rfl, Nat.ofDigitChars_replicate_zero, Nat.mul_zero,
      Nat.ofDigitChars_ten_toDigits, Nat.pow_zero, Nat.one_mul]
  have h := numberText_decimal x isDigit_zero (by decide)
    (fraction_some hSome (isDigit_append isDigit_replicate_zero isDigit_toDigits))
    ExponentText.none rfl hMantissa (by simp; omega)
  simpa [fractionText] using h

/-- The point behind the digits. -/
theorem numberText_behind (hPos : 0 < x.mantissa) {k : Nat} (hPoint : x.power = k) :
    NumberText (.decimal x) (signText x.negative ++
      (Nat.toDigits 10 x.mantissa ++ List.replicate k '0' ++ ['.', '0'])) := by
  have hWhole : isWhole (Nat.toDigits 10 x.mantissa ++ List.replicate k '0') = true := by
    obtain ⟨d, ds, hEq, hHead⟩ := toDigits_head hPos
    rw [hEq]
    exact isWhole_append hHead
  have hMantissa : Nat.ofDigitChars 10
      (Nat.toDigits 10 x.mantissa ++ List.replicate k '0' ++ ['0']) 0 = 10 ^ (k + 1) * x.mantissa := by
    rw [Nat.ofDigitChars_append, Nat.ofDigitChars_append, Nat.ofDigitChars_ten_toDigits,
      Nat.ofDigitChars_replicate_zero, show ['0'] = List.replicate 1 '0' from rfl,
      Nat.ofDigitChars_replicate_zero, ← Nat.mul_assoc, ← Nat.pow_add, Nat.add_comm 1 k]
  have h := numberText_decimal x (isDigit_append isDigit_toDigits isDigit_replicate_zero) hWhole
    (fraction_some (List.cons_ne_nil '0' []) isDigit_zero) ExponentText.none rfl hMantissa
    (by simp; omega)
  simpa [fractionText] using h

/-- The point among the digits. -/
theorem numberText_among (hPos : 0 < x.mantissa) {k : Nat} (hFirst : 0 < k)
    (hLast : k < (Nat.toDigits 10 x.mantissa).length)
    (hPoint : x.power + (Nat.toDigits 10 x.mantissa).length = k) :
    NumberText (.decimal x) (signText x.negative ++
      ((Nat.toDigits 10 x.mantissa).take k ++ ['.'] ++ (Nat.toDigits 10 x.mantissa).drop k)) := by
  have hWhole : isWhole ((Nat.toDigits 10 x.mantissa).take k) = true := by
    obtain ⟨d, ds, hEq, hHead⟩ := toDigits_head hPos
    cases k with
    | zero => omega
    | succ k =>
        rw [hEq, List.take_succ_cons]
        exact isWhole_cons hHead
  have hSome : (Nat.toDigits 10 x.mantissa).drop k ≠ [] := by
    rw [Ne, List.drop_eq_nil_iff]
    omega
  have hMantissa : Nat.ofDigitChars 10
      ((Nat.toDigits 10 x.mantissa).take k ++ (Nat.toDigits 10 x.mantissa).drop k) 0 =
        10 ^ 0 * x.mantissa := by
    rw [List.take_append_drop, Nat.ofDigitChars_ten_toDigits, Nat.pow_zero, Nat.one_mul]
  have h := numberText_decimal x (fun c hc => isDigit_toDigits c (List.mem_of_mem_take hc)) hWhole
    (fraction_some hSome fun c hc => isDigit_toDigits c (List.mem_of_mem_drop hc))
    ExponentText.none rfl hMantissa (by simp; omega)
  simpa [fractionText] using h

/-- One digit, the others behind a point, and the exponent. -/
theorem numberText_scientific (hPos : 0 < x.mantissa) {d : Char} {ds : List Char}
    (hEq : Nat.toDigits 10 x.mantissa = d :: ds) {e : Int} (hPower : x.power + ds.length = e) :
    NumberText (.decimal x) (signText x.negative ++
      ((if ds.isEmpty then [d] else [d] ++ ['.'] ++ ds) ++
        (['e', if e < 0 then '-' else '+'] ++ twoDigits e.natAbs))) := by
  have hHead : d ≠ '0' := by
    obtain ⟨d', ds', hEq', hHead⟩ := toDigits_head hPos
    rw [hEq] at hEq'
    cases hEq'
    exact hHead
  have hDigits : ∀ c ∈ d :: ds, c.isDigit = true := hEq ▸ isDigit_toDigits
  have hMantissa : Nat.ofDigitChars 10 (d :: ds) 0 = 10 ^ 0 * x.mantissa := by
    rw [← hEq, Nat.ofDigitChars_ten_toDigits, Nat.pow_zero, Nat.one_mul]
  have hOne : ∀ c ∈ [d], c.isDigit = true :=
    fun c hc => hDigits c (List.mem_singleton.mp hc ▸ List.mem_cons_self)
  cases ds with
  | nil =>
      have hNone : ∀ ds : List Char, (none : Option (List Char)) = some ds →
          ds ≠ [] ∧ ∀ c ∈ ds, c.isDigit = true := fun ds hEq => by cases hEq
      have h := numberText_decimal x hOne (isWhole_cons hHead) hNone (exponentText_of e) rfl
        hMantissa (by simpa using hPower.symm)
      simpa [fractionText] using h
  | cons d' ds' =>
      have h := numberText_decimal x hOne (isWhole_cons hHead)
        (fraction_some (List.cons_ne_nil d' ds') fun c hc => hDigits c (List.mem_cons_of_mem d hc))
        (exponentText_of e) rfl hMantissa (by simp at hPower ⊢; omega)
      simpa [fractionText] using h

/-- **A float is read from its printing.** -/
theorem numberText_floatRepr : NumberText (.decimal x) (floatRepr x) := by
  unfold floatRepr
  by_cases hZero : x.mantissa = 0
  · have hPower : x.power = 0 := by
      rcases x.normal with hLast | ⟨-, hPower⟩
      · exact absurd (by rw [hZero]) hLast
      · exact hPower
    have h := numberText_decimal x isDigit_zero (by decide)
      (fraction_some (List.cons_ne_nil '0' []) isDigit_zero) ExponentText.none rfl
      (n := 1) (by rw [hZero]; rfl) (by rw [hPower]; rfl)
    rw [if_pos hZero]
    cases hNegative : x.negative with
    | true => simpa [fractionText, hNegative, signText] using h
    | false => simpa [fractionText, hNegative, signText] using h
  · have hPos : 0 < x.mantissa := by omega
    obtain ⟨d, ds, hEq, -⟩ := toDigits_head hPos
    have hLength : (Nat.toDigits 10 x.mantissa).length = ds.length + 1 := by
      rw [hEq, List.length_cons]
    rw [if_neg hZero]
    by_cases hRange : -4 ≤ x.power + (Nat.toDigits 10 x.mantissa).length - 1 ∧
        x.power + (Nat.toDigits 10 x.mantissa).length - 1 < 16
    · simp only [if_pos hRange]
      split
      · rename_i hBefore
        apply numberText_before x
        omega
      · rename_i hAfter
        split
        · apply numberText_behind x hPos
          omega
        · apply numberText_among x hPos
          · omega
          · omega
          · omega
    · have h := numberText_scientific x hPos hEq (e := x.power + ds.length) rfl
      have hExponent : x.power + (Nat.toDigits 10 x.mantissa).length - 1 = x.power + ds.length := by
        omega
      simp only [if_neg hRange]
      rw [hExponent, hEq]
      simpa [signText] using h

end

/-! ## The texts of strings -/

theorem fourHex_control : ∀ n < 32,
    fourHex n = ['0', '0', (n / 16).digitChar, (n % 16).digitChar] ∧
      hexValue (n / 16).digitChar = some (n / 16) ∧
      hexValue (n % 16).digitChar = some (n % 16) := by
  decide

theorem charText_escape (c : Char) : CharText c (escape c) := by
  unfold escape
  split
  · exact .escaped (by decide) rfl
  · exact .escaped (by decide) rfl
  · exact .escaped (by decide) rfl
  · exact .escaped (by decide) rfl
  · exact .escaped (by decide) rfl
  · exact .escaped (by decide) rfl
  · exact .escaped (by decide) rfl
  · rename_i hQuote hBackslash _ _ _ _ _
    by_cases hControl : c.toNat < 0x20
    · rw [if_pos hControl]
      obtain ⟨hEq, hHigh, hLow⟩ := fourHex_control c.toNat hControl
      have h : CharText (Char.ofNat c.toNat) (['\x5c', 'u'] ++ fourHex c.toNat) := by
        rw [hEq]
        apply CharText.unicode
        · intro rest
          have hZero : hexValue '0' = some 0 := by decide
          have hValue : ((0 * 16 + 0) * 16 + c.toNat / 16) * 16 + c.toNat % 16 = c.toNat := by
            omega
          simp only [readHex, hZero, hHigh, hLow, hValue]
        · omega
      rwa [Char.ofNat_toNat] at h
    · rw [if_neg hControl]
      exact .plain hQuote hBackslash (by omega)

theorem charsText_escape (cs : List Char) : CharsText cs (cs.flatMap escape) := by
  induction cs with
  | nil => exact .nil
  | cons c cs ih =>
      rw [List.flatMap_cons]
      exact .cons (charText_escape c) ih

/-! ## The texts of values -/

theorem writeItems_eq (items : List Json) : writeItems items = items.map write := by
  induction items with
  | nil => rfl
  | cons item items ih => rw [writeItems, ih, List.map_cons]

theorem writeFields_eq (map : List (String × Json)) :
    writeFields map = map.map fun p => (p.1, stringText p.1 ++ ':' :: write p.2) := by
  induction map with
  | nil => rfl
  | cons p map ih => rw [writeFields, ih, List.map_cons]

theorem denotesItems_joined {items : List Json} (hSome : items ≠ [])
    (h : ∀ v ∈ items, Denotes (write v) v.sorted) :
    DenotesItems (joined (items.map write)) (items.map Json.sorted) := by
  induction items with
  | nil => exact absurd rfl hSome
  | cons v items ih =>
      cases items with
      | nil => exact .one (h v List.mem_cons_self)
      | cons w items =>
          have hRest := ih (List.cons_ne_nil w items) fun u hu => h u (List.mem_cons_of_mem v hu)
          exact .more (h v List.mem_cons_self) hRest

theorem denotesFields_joined {map : List (String × Json)} (hSome : map ≠ [])
    (h : ∀ p ∈ map, Denotes (write p.2) p.2.sorted) :
    DenotesFields (joined (map.map fun p => stringText p.1 ++ ':' :: write p.2))
      (map.map fun p => (p.1, p.2.sorted)) := by
  induction map with
  | nil => exact absurd rfl hSome
  | cons p map ih =>
      have hKey := charsText_escape p.1.toList
      have hValue := h p List.mem_cons_self
      cases map with
      | nil => simpa [joined, stringText] using DenotesFields.one hKey hValue
      | cons q map =>
          have hRest := ih (List.cons_ne_nil q map) fun r hr => h r (List.mem_cons_of_mem p hr)
          simpa [joined, stringText] using DenotesFields.more hKey hValue hRest

/-- Sorting the written entries is writing the sorted ones. -/
theorem writeFields_mergeSort (map : List (String × Json)) :
    ((writeFields map).mergeSort Json.byKey).map (·.2) =
      (map.mergeSort Json.byKey).map fun p => stringText p.1 ++ ':' :: write p.2 := by
  rw [writeFields_eq, Json.mergeSort_map fun p : String × Json => stringText p.1 ++ ':' :: write p.2, List.map_map]
  rfl

/-- **The canonical text denotes the value**, its keys in order. -/
theorem denotes_write (v : Json) : Denotes (write v) v.sorted := by
  induction v using Json.ind with
  | null => exact .null
  | bool b =>
      cases b with
      | true => exact .true
      | false => exact .false
  | number n =>
      cases n with
      | int n => exact .number (numberText_intText n)
      | decimal x => exact .number (numberText_floatRepr x)
  | string s => exact .string (charsText_escape s.toList)
  | array items ih =>
      rw [write, writeItems_eq, Json.sorted, Json.sortedItems_eq]
      by_cases hSome : items = []
      · subst hSome
        exact .noItems
      · exact .array (denotesItems_joined hSome ih)
  | object map ih =>
      rw [write, writeFields_mergeSort, Json.sorted, Json.sortedFields_eq,
        Json.mergeSort_map fun p : String × Json => p.2.sorted]
      have hPerm := List.mergeSort_perm map Json.byKey
      by_cases hSome : map.mergeSort Json.byKey = []
      · rw [hSome]
        exact .noFields
      · exact .object (denotesFields_joined hSome fun p hp => ih p (hPerm.mem_iff.mp hp))

/-- **What was written is read back**, its keys in order. -/
theorem parseJson_write (v : Json) : parseJson (write v) = some v.sorted :=
  parseJson_of_denotes (denotes_write v)

/-- The order of keys does not show. -/
theorem write_sorted (v : Json) : write v.sorted = write v := by
  induction v using Json.ind with
  | null | bool | number | string => rfl
  | array items ih =>
      have hItems : (items.map Json.sorted).map write = items.map write := by
        rw [List.map_map]
        exact List.map_congr_left ih
      rw [Json.sorted, Json.sortedItems_eq, write, write, writeItems_eq, writeItems_eq, hItems]
  | object map ih =>
      have hOrder : ((Json.sortedFields map).mergeSort Json.byKey).mergeSort Json.byKey =
          (map.mergeSort Json.byKey).map fun p => (p.1, p.2.sorted) := by
        rw [List.mergeSort_of_pairwise (Json.pairwise_mergeSort_byKey _), Json.sortedFields_eq,
          Json.mergeSort_map fun p : String × Json => p.2.sorted]
      rw [Json.sorted, write, write, writeFields_mergeSort, writeFields_mergeSort, hOrder,
        List.map_map]
      congr 3
      refine List.map_congr_left fun p hp => ?_
      have hMem : p ∈ map := (List.mergeSort_perm map Json.byKey).mem_iff.mp hp
      show stringText p.1 ++ ':' :: write p.2.sorted = stringText p.1 ++ ':' :: write p.2
      rw [ih p hMem]

theorem write_eq_iff {v w : Json} (hDistinct : v.Distinct) : write v = write w ↔ v.Same w := by
  rw [Json.same_iff_sorted hDistinct]
  constructor
  · intro h
    have hRead := parseJson_write v
    rw [h, parseJson_write w] at hRead
    exact (Option.some.inj hRead).symm
  · intro h
    rw [← write_sorted v, h, write_sorted w]

/-! ## The arguments -/

/-- Two texts do not collide: they have one digest only when they are one text. -/
def NoCollision (sha256 : String → String) (s t : String) : Prop := sha256 s = sha256 t → s = t

/-- **Canonical arguments are a faithful encoding**: the same text means the same arguments
up to the order of keys, the text is read back as the arguments, and so two argument sets
whose texts do not collide have one hash only when they are the same. -/
theorem canonical_faithful (a b : Args) :
    (canonicalizeArgs a = canonicalizeArgs b ↔ a.value.Same b.value) ∧
      (∃ v, parseJson (canonicalizeArgs a).toList = some v ∧ a.value.Same v) ∧
      ∀ sha256 : String → String, NoCollision sha256 (canonicalizeArgs a) (canonicalizeArgs b) →
        (argsHash sha256 a = argsHash sha256 b ↔ a.value.Same b.value) := by
  have hText : canonicalizeArgs a = canonicalizeArgs b ↔ a.value.Same b.value := by
    unfold canonicalizeArgs
    rw [String.ofList_inj, write_eq_iff (v := a.value) a.distinct]
  refine ⟨hText, ⟨a.value.sorted, ?_, ?_⟩, ?_⟩
  · rw [canonicalizeArgs, String.toList_ofList]
    exact parseJson_write a.value
  · apply Json.same_of_sorted
    rw [Json.sorted_sorted]
  · intro sha256 hSha
    rw [← hText]
    constructor
    · exact hSha
    · intro h
      rw [argsHash, argsHash, h]

/-- No arguments and one: two hashes. -/
theorem canonical_faithful_of_none :
    let none : Args := { map := [], distinct := by simp [Json.Distinct, Json.DistinctFields] }
    let one : Args := { map := [("n", .number (.int 1))],
                        distinct := by simp [Json.Distinct, Json.DistinctFields] }
    let sha256 := fun text : String =>
      if text = "\x7b\x7d" then "44136fa355b3678a1146ad16f7e8649e94fb4fc21fe77e8310c060f61caaff8a"
      else "2bfd14f43d17fc7cea24e0917a8879b4b2f880b8baeec1b9d90fbaad655e71bd"
    argsHash sha256 none ≠ argsHash sha256 one := by
  intro none one sha256 hEq
  have hSha : NoCollision sha256 (canonicalizeArgs none) (canonicalizeArgs one) := by
    unfold NoCollision
    decide +kernel
  have hSame := ((canonical_faithful none one).2.2 sha256 hSha).mp hEq
  obtain ⟨map, hPerm, hMap⟩ := hSame
  cases map with
  | nil => cases hPerm.length_eq
  | cons p map => exact hMap

end Rekuest.Provenance
