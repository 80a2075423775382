import Mathlib.Data.List.Basic

/-!
# Scanning a text into words

A scanner drops blanks and takes words off the front of what is left, each by one reader.
A fragment of text reads as a list of words if the scanner gives these words before
whatever closes the fragment, so that fragments can be put one behind another.
-/

namespace Scanning

variable {τ : Type} (blank : Char → Bool) (read : List Char → Option (τ × List Char))

/-- The words of a text; `n` bounds how many steps it takes. -/
def scan : Nat → List Char → Option (List τ)
  | _, [] => some []
  | 0, _ :: _ => none
  | n + 1, c :: s =>
      if blank c then scan n s
      else (read (c :: s)).bind fun (token, rest) => (scan n rest).map (token :: ·)

/-- The words of a whole text. -/
def words (text : List Char) : Option (List τ) := scan blank read text.length text

/-- A fragment that reads as words before whatever closes it. -/
def Reads (closes : List Char → Prop) (text : List Char) (tokens : List τ) : Prop :=
  ∀ rest n, closes rest → text.length ≤ n → ∃ m, n ≤ m + text.length ∧
    scan blank read n (text ++ rest) = (scan blank read m rest).map (tokens ++ ·)

/-- Closed by anything. -/
def Open (_ : List Char) : Prop := True

variable {blank read}

theorem reads_nil (closes : List Char → Prop) : Reads blank read closes [] [] := by
  intro rest n _ _
  refine ⟨n, Nat.le_refl n, ?_⟩
  show scan blank read n rest = (scan blank read n rest).map fun tokens => tokens
  simp

theorem Reads.mono {closes closes' : List Char → Prop} {text : List Char} {tokens : List τ}
    (h : Reads blank read closes text tokens) (hCloses : ∀ rest, closes' rest → closes rest) :
    Reads blank read closes' text tokens :=
  fun rest n hRest hFuel => h rest n (hCloses rest hRest) hFuel

/-- One fragment and another that closes it. -/
theorem Reads.append {closes closes' : List Char → Prop} {text text' : List Char}
    {tokens tokens' : List τ} (h : Reads blank read closes text tokens)
    (h' : Reads blank read closes' text' tokens')
    (hCloses : ∀ rest, closes' rest → closes (text' ++ rest)) :
    Reads blank read closes' (text ++ text') (tokens ++ tokens') := by
  intro rest n hRest hFuel
  rw [List.length_append] at hFuel ⊢
  obtain ⟨m, hm, hScan⟩ := h (text' ++ rest) n (hCloses rest hRest) (by omega)
  obtain ⟨m', hm', hScan'⟩ := h' rest m hRest (by omega)
  refine ⟨m', by omega, ?_⟩
  rw [List.append_assoc, hScan, hScan', Option.map_map]
  simp [Function.comp_def]

/-- A fragment that anything closes, and one behind it. -/
theorem Reads.then {closes : List Char → Prop} {text text' : List Char} {tokens tokens' : List τ}
    (h : Reads blank read Open text tokens) (h' : Reads blank read closes text' tokens') :
    Reads blank read closes (text ++ text') (tokens ++ tokens') :=
  h.append h' fun _ _ => trivial

theorem reads_blank {c : Char} (hBlank : blank c = true) : Reads blank read Open [c] [] := by
  intro rest n _ hFuel
  cases n with
  | zero => simp at hFuel
  | succ n =>
      refine ⟨n, Nat.le_refl _, ?_⟩
      show scan blank read (n + 1) (c :: rest) = (scan blank read n rest).map fun tokens => tokens
      simp [scan, hBlank]

/-- A fragment that the reader takes as one word. -/
theorem reads_token {closes : List Char → Prop} {text : List Char} {token : τ} {c : Char}
    {s : List Char} (hText : text = c :: s) (hBlank : blank c = false)
    (hToken : ∀ rest, closes rest → read (text ++ rest) = some (token, rest)) :
    Reads blank read closes text [token] := by
  subst hText
  intro rest n hRest hFuel
  cases n with
  | zero => simp at hFuel
  | succ n =>
      refine ⟨n, by rw [List.length_cons]; omega, ?_⟩
      have hRead := hToken rest hRest
      rw [List.cons_append] at hRead ⊢
      rw [scan, if_neg (by rw [hBlank]; exact Bool.false_ne_true), hRead]
      rfl

/-- The words of a fragment that is the whole text. -/
theorem words_of_reads {closes : List Char → Prop} {text : List Char} {tokens : List τ}
    (h : Reads blank read closes text tokens) (hNil : closes []) :
    words blank read text = some tokens := by
  obtain ⟨m, -, hScan⟩ := h [] text.length hNil (Nat.le_refl _)
  rw [words]
  rw [List.append_nil] at hScan
  rw [hScan]
  cases m <;> simp [scan]

end Scanning
