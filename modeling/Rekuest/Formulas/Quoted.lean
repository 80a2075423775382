import Rekuest.Formulas.Formula

/-!
# Keys between quotes

A JSON string in ASCII is read as the characters it was written from: the escapes of one
character are read as that character, also where it takes two units of UTF-16.
-/

namespace Rekuest.Formulas

open Documents

theorem hexValue_hexDigit : ∀ n < 16, hexValue (Ports.hexDigit n) = some n := by decide

theorem readHex_hex4 {n : Nat} (hUnit : n < 0x10000) (rest : List Char) :
    readHex (hex4 n ++ rest) = some (n, rest) := by
  have hFirst := hexValue_hexDigit (n / 4096 % 16) (by omega)
  have hSecond := hexValue_hexDigit (n / 256 % 16) (by omega)
  have hThird := hexValue_hexDigit (n / 16 % 16) (by omega)
  have hLast := hexValue_hexDigit (n % 16) (by omega)
  have hValue : ((n / 4096 % 16 * 16 + n / 256 % 16) * 16 + n / 16 % 16) * 16 + n % 16 = n := by
    omega
  show readHex (Ports.hexDigit (n / 4096 % 16) :: Ports.hexDigit (n / 256 % 16) ::
    Ports.hexDigit (n / 16 % 16) :: Ports.hexDigit (n % 16) :: rest) = _
  rw [readHex, hFirst, hSecond, hThird, hLast]
  dsimp only
  rw [hValue]

/-- No character is half of a pair, and none is beyond the last plane. -/
theorem scalar_value (c : Char) : (c.toNat < 0xD800 ∨ 0xE000 ≤ c.toNat) ∧ c.toNat < 0x110000 := by
  have hValid := c.valid
  unfold UInt32.isValidChar Nat.isValidChar at hValid
  have hNat : c.val.toNat = c.toNat := rfl
  omega

/-- The units of a character are read as the character. -/
theorem readEscape_units (c : Char) (rest : List Char) :
    ∃ s, ((encode_utf16 c).flatMap fun unit => '\x5c' :: 'u' :: hex4 unit) ++ rest = '\x5c' :: s ∧
      readEscape s = some (c, rest) := by
  obtain ⟨hScalar, hLast⟩ := scalar_value c
  unfold encode_utf16
  by_cases hPlane : c.toNat < 0x10000
  · rw [if_pos hPlane]
    have hHigh : ¬ (0xD800 ≤ c.toNat ∧ c.toNat < 0xDC00) := by omega
    have hLow : ¬ (0xDC00 ≤ c.toNat ∧ c.toNat < 0xE000) := by omega
    refine ⟨'u' :: (hex4 c.toNat ++ rest), by simp, ?_⟩
    simp [readEscape, readHex_hex4 hPlane, hHigh, hLow, Char.ofNat_toNat]
  · rw [if_neg hPlane]
    generalize hFirst : 0xD800 + (c.toNat - 0x10000) / 0x400 = high
    generalize hSecond : 0xDC00 + (c.toNat - 0x10000) % 0x400 = low
    have hHigh : 0xD800 ≤ high ∧ high < 0xDC00 := by omega
    have hLow : 0xDC00 ≤ low ∧ low < 0xE000 := by omega
    have hValue : 0x10000 + (high - 0xD800) * 0x400 + (low - 0xDC00) = c.toNat := by omega
    refine ⟨'u' :: (hex4 high ++ '\x5c' :: 'u' :: (hex4 low ++ rest)), by simp, ?_⟩
    rw [readEscape, if_pos rfl, readHex_hex4 (by omega), Option.bind_some]
    dsimp only
    rw [if_pos hHigh]
    show ((readHex (hex4 low ++ rest)).bind _) = _
    rw [readHex_hex4 (by omega), Option.bind_some]
    dsimp only
    rw [if_pos hLow, hValue, Char.ofNat_toNat]

/-- One character is read from its text. -/
theorem readChars_string_char (c : Char) (rest : List Char) (n : Nat) :
    readChars (n + 1) (string_char c ++ rest) =
      (readChars n rest).map fun (chars, rest) => (c :: chars, rest) := by
  unfold string_char
  split
  · rename_i h
    exact readChars_char (.escaped (by decide) (by rw [h]; rfl))
  split
  · rename_i h
    exact readChars_char (.escaped (by decide) (by rw [h]; rfl))
  split
  · rename_i h
    exact readChars_char (.escaped (by decide) (by rw [h]; rfl))
  split
  · rename_i h
    exact readChars_char (.escaped (by decide) (by rw [h]; rfl))
  split
  · rename_i h
    exact readChars_char (.escaped (by decide) (by rw [h]; rfl))
  split
  · rename_i h
    exact readChars_char (.escaped (by decide) (by rw [h]; rfl))
  split
  · rename_i h
    exact readChars_char (.escaped (by decide) (by rw [h]; rfl))
  split
  · obtain ⟨s, hText, hEscape⟩ := readEscape_units c rest
    rw [hText]
    simp [readChars, hEscape]
  · rename_i hQuote hBackslash _ _ _ _ _ hAscii
    exact readChars_char (.plain hQuote hBackslash (by omega))

theorem string_char_length (c : Char) : 0 < (string_char c).length := by
  have hUnits : 0 < ((encode_utf16 c).flatMap fun unit => '\x5c' :: 'u' :: hex4 unit).length := by
    unfold encode_utf16
    split <;> simp
  unfold string_char
  repeat' split
  all_goals first | exact hUnits | simp

/-- A key's text between quotes is read as the key. -/
theorem quotes_string (key : List Char) : JsonPath.Quotes (key.flatMap string_char) key := by
  intro rest n hFuel
  induction key generalizing n with
  | nil =>
      obtain ⟨m, rfl⟩ : ∃ m, n = m + 1 := ⟨n - 1, by simp at hFuel; omega⟩
      simp [readChars]
  | cons c key ih =>
      have hPositive := string_char_length c
      rw [List.flatMap_cons, List.length_append] at hFuel
      obtain ⟨m, rfl⟩ : ∃ m, n = m + 1 := ⟨n - 1, by omega⟩
      rw [List.flatMap_cons, List.append_assoc, readChars_string_char, ih m (by omega)]
      rfl

end Rekuest.Formulas
