import Rekuest.Backend.Registry
import Rekuest.Bsx.Lexer

/-!
# Where an expression ends

Before an expression is read, the span between its braces is cut out of the source by a scan of
its own: strings are skipped, to their quote or the end of their line, and braces are counted.
The scan reads the tokens of an expression as the lexer does.  Of comments it knows nothing.
-/

namespace Rekuest.Bsx

/-- Where the scan is: in the expression, in a string, or behind a backslash in one. -/
inductive Place
  | code
  | string (quote : Char)
  | escape (quote : Char)
  deriving DecidableEq

/-- One character of the scan, with how many braces are open; none where the last one closes. -/
def step : Place → Nat → Char → Option (Place × Nat)
  | .code, depth, c =>
      if is_quote c then some (.string c, depth)
      else if c = '\x7b' then some (.code, depth + 1)
      else if c = '\x7d' then if depth = 1 then none else some (.code, depth - 1)
      else some (.code, depth)
  | .string quote, depth, c =>
      if c = quote then some (.code, depth)
      else if c = '\x5c' then some (.escape quote, depth)
      -- A string ends with its line, if not before.
      else if c = '\n' then some (.code, depth)
      else some (.string quote, depth)
  | .escape quote, depth, c => if c = '\n' then some (.code, depth) else some (.string quote, depth)

/-- How far it is to the brace that closes what is open; none if nothing does. -/
def scan : Place → Nat → List Char → Option Nat
  | _, _, [] => none
  | place, depth, c :: rest =>
      match step place depth c with
      | none => some 0
      | some (place, depth) => (scan place depth rest).map (· + 1)

/-- `Markup::braces`: how long the expression is, of what stands behind its opening brace. -/
def braces (source : List Char) : Option Nat := scan .code 1 source

/-! ## A piece of the source -/

/-- Where the scan is behind a piece, if nothing in it is the last closing brace. -/
def after : Place → Nat → List Char → Option (Place × Nat)
  | place, depth, [] => some (place, depth)
  | place, depth, c :: rest =>
      match step place depth c with
      | none => none
      | some (place, depth) => after place depth rest

theorem step_code (depth : Nat) (c : Char) : step .code depth c =
    if is_quote c then some (.string c, depth)
    else if c = '\x7b' then some (.code, depth + 1)
    else if c = '\x7d' then if depth = 1 then none else some (.code, depth - 1)
    else some (.code, depth) := rfl

theorem step_string (quote : Char) (depth : Nat) (c : Char) : step (.string quote) depth c =
    if c = quote then some (.code, depth)
    else if c = '\x5c' then some (.escape quote, depth)
    else if c = '\n' then some (.code, depth)
    else some (.string quote, depth) := rfl

theorem step_escape (quote : Char) (depth : Nat) (c : Char) : step (.escape quote) depth c =
    if c = '\n' then some (.code, depth) else some (.string quote, depth) := rfl

theorem scan_cons (place : Place) (depth : Nat) (c : Char) (rest : List Char) :
    scan place depth (c :: rest) =
      match step place depth c with
      | none => some 0
      | some (place, depth) => (scan place depth rest).map (· + 1) := by
  rw [scan]

theorem after_cons (place : Place) (depth : Nat) (c : Char) (rest : List Char) :
    after place depth (c :: rest) =
      match step place depth c with
      | none => none
      | some (place, depth) => after place depth rest := by
  rw [after]

theorem after_append (l m : List Char) : ∀ place depth,
    after place depth (l ++ m) = (after place depth l).bind fun at_ => after at_.1 at_.2 m := by
  induction l with
  | nil =>
      intro place depth
      rfl
  | cons c l ih =>
      intro place depth
      rw [List.cons_append, after_cons, after_cons]
      cases hStep : step place depth c with
      | none => rfl
      | some at_ => exact ih at_.1 at_.2

/-- The scan goes on behind a piece, or ended in it. -/
theorem scan_append (l m : List Char) : ∀ place depth,
    (∃ place' depth', after place depth l = some (place', depth') ∧
      scan place depth (l ++ m) = (scan place' depth' m).map (· + l.length)) ∨
    after place depth l = none ∧ ∃ n, n < l.length ∧ scan place depth (l ++ m) = some n := by
  induction l with
  | nil =>
      intro place depth
      left
      refine ⟨place, depth, rfl, ?_⟩
      show scan place depth m = (scan place depth m).map (· + 0)
      cases scan place depth m <;> rfl
  | cons c l ih =>
      intro place depth
      rw [List.cons_append, after_cons, scan_cons]
      cases hStep : step place depth c with
      | none => exact .inr ⟨rfl, 0, Nat.succ_pos _, rfl⟩
      | some at_ =>
          obtain ⟨place', depth'⟩ := at_
          dsimp only
          rcases ih place' depth' with ⟨place'', depth'', hAfter, hScan⟩ | ⟨hNone, n, hn, hScan⟩
          · left
            refine ⟨place'', depth'', hAfter, ?_⟩
            rw [hScan, Option.map_map]
            rfl
          · right
            refine ⟨hNone, n + 1, ?_, ?_⟩
            · rw [List.length_cons]
              omega
            · rw [hScan]
              rfl

/-- A piece is cut exactly where it ends if, and only if, nothing is open behind it. -/
theorem braces_iff (text rest : List Char) :
    braces (text ++ '\x7d' :: rest) = some text.length ↔ after .code 1 text = some (.code, 1) := by
  unfold braces
  constructor
  · intro h
    rcases scan_append text ('\x7d' :: rest) .code 1 with ⟨place, depth, hAfter, hScan⟩ | ⟨-, n, hn, hScan⟩
    · rw [hScan] at h
      obtain ⟨n, hn, hLength⟩ := Option.map_eq_some_iff.1 h
      have hZero : n = 0 := by omega
      rw [hZero] at hn
      rw [scan_cons] at hn
      cases hStep : step place depth '\x7d' with
      | some at_ =>
          rw [hStep] at hn
          obtain ⟨m, -, hm⟩ := Option.map_eq_some_iff.1 hn
          omega
      | none =>
          rw [hAfter]
          cases place with
          | code =>
              have hOne : (if depth = 1 then none else some (Place.code, depth - 1)) = none := hStep
              by_cases hDepth : depth = 1
              · rw [hDepth]
              · rw [if_neg hDepth] at hOne
                cases hOne
          | string quote =>
              rw [step_string] at hStep
              by_cases hIs : '\x7d' = quote
              · rw [if_pos hIs] at hStep
                cases hStep
              · rw [if_neg hIs] at hStep
                cases hStep
          | escape quote => cases hStep
    · rw [hScan] at h
      have hLength := Option.some.inj h
      omega
  · intro h
    rcases scan_append text ('\x7d' :: rest) .code 1 with ⟨place, depth, hAfter, hScan⟩ | ⟨hNone, -⟩
    · rw [h] at hAfter
      obtain ⟨hPlace, hDepth⟩ := Prod.mk.inj (Option.some.inj hAfter)
      rw [hScan, ← hPlace, ← hDepth]
      show some (0 + text.length) = _
      rw [Nat.zero_add]
    · rw [h] at hNone
      cases hNone

/-! ## What is read as a whole -/

/-- What stands behind a quote, to where its string ends. -/
inductive Quoted (quote : Char) : List Char → Prop
  | closed : Quoted quote [quote]
  | line : '\n' ≠ quote → Quoted quote ['\n']
  | char {c : Char} {l : List Char} : c ≠ quote → c ≠ '\x5c' → c ≠ '\n' → Quoted quote l → Quoted quote (c :: l)
  | escaped {c : Char} {l : List Char} : '\x5c' ≠ quote → c ≠ '\n' → Quoted quote l →
      Quoted quote ('\x5c' :: c :: l)
  | escapedLine : '\x5c' ≠ quote → Quoted quote ['\x5c', '\n']

/-- A character that is no quote and no brace. -/
def Plain (c : Char) : Prop := is_quote c = false ∧ c ≠ '\x7b' ∧ c ≠ '\x7d'

/-- A text whose strings all end, and whose braces, with some open before it, are all closed. -/
inductive Whole : Nat → List Char → Prop
  | nil : Whole 0 []
  | plain {n : Nat} {c : Char} {l : List Char} : Plain c → Whole n l → Whole n (c :: l)
  | opening {n : Nat} {l : List Char} : Whole (n + 1) l → Whole n ('\x7b' :: l)
  | closing {n : Nat} {l : List Char} : Whole n l → Whole (n + 1) ('\x7d' :: l)
  | string {n : Nat} {quote : Char} {s l : List Char} : is_quote quote = true → Quoted quote s → Whole n l →
      Whole n (quote :: (s ++ l))

theorem Quoted.after {quote : Char} {s : List Char} (h : Quoted quote s) (depth : Nat) :
    after (.string quote) depth s = some (.code, depth) := by
  induction h with
  | closed =>
      rw [after_cons, step_string, if_pos rfl]
      rfl
  | line hNe =>
      rw [after_cons, step_string, if_neg hNe, if_neg (by decide), if_pos rfl]
      rfl
  | char hQuote hSlash hLine _ ih =>
      rw [after_cons, step_string, if_neg hQuote, if_neg hSlash, if_neg hLine]
      exact ih
  | escaped hNe hLine _ ih =>
      rw [after_cons, step_string, if_neg hNe, if_pos rfl]
      dsimp only
      rw [after_cons, step_escape, if_neg hLine]
      exact ih
  | escapedLine hNe =>
      rw [after_cons, step_string, if_neg hNe, if_pos rfl]
      rfl

theorem step_plain {c : Char} (h : Plain c) (depth : Nat) : step .code depth c = some (.code, depth) := by
  rw [step_code, if_neg (by rw [h.1]; exact Bool.false_ne_true), if_neg h.2.1, if_neg h.2.2]

/-- What is read as a whole leaves nothing open. -/
theorem Whole.after {n : Nat} {l : List Char} (h : Whole n l) :
    after .code (n + 1) l = some (.code, 1) := by
  induction h with
  | nil => rfl
  | plain hPlain _ ih =>
      rw [after_cons, step_plain hPlain]
      exact ih
  | opening _ ih => exact ih
  | @closing n l _ ih =>
      rw [after_cons, show step .code (n + 1 + 1) '\x7d' = some (.code, n + 1) from rfl]
      exact ih
  | @string n quote s l hQuote hQuoted _ ih =>
      rw [after_cons, show step .code (n + 1) quote = some (.string quote, n + 1) from if_pos hQuote]
      show Bsx.after (.string quote) (n + 1) (s ++ l) = _
      rw [after_append, hQuoted.after]
      exact ih

/-- A string that ends in a piece ends somewhere in it. -/
theorem quoted_of_after {quote : Char} {depth : Nat} {place : Place × Nat} : ∀ (k : Nat) {l : List Char},
    l.length ≤ k → after (.string quote) depth l = some place → place.1 = .code →
      ∃ s rest, l = s ++ rest ∧ Quoted quote s ∧ after .code depth rest = some place := by
  intro k
  induction k with
  | zero =>
      intro l hLength hAfter hCode
      rw [List.eq_nil_of_length_eq_zero (Nat.le_zero.1 hLength)] at hAfter
      rw [← Option.some.inj hAfter] at hCode
      cases hCode
  | succ k ih =>
      intro l hLength hAfter hCode
      cases l with
      | nil =>
          rw [← Option.some.inj hAfter] at hCode
          cases hCode
      | cons c l =>
          rw [List.length_cons] at hLength
          rw [after_cons, step_string] at hAfter
          by_cases hQuote : c = quote
          · rw [if_pos hQuote] at hAfter
            exact ⟨[c], l, rfl, hQuote ▸ .closed, hAfter⟩
          · rw [if_neg hQuote] at hAfter
            by_cases hSlash : c = '\x5c'
            · rw [if_pos hSlash] at hAfter
              rw [hSlash] at hQuote ⊢
              dsimp only at hAfter
              cases l with
              | nil =>
                  rw [← Option.some.inj hAfter] at hCode
                  cases hCode
              | cons d l =>
                  rw [after_cons, step_escape] at hAfter
                  by_cases hLine : d = '\n'
                  · rw [if_pos hLine] at hAfter
                    exact ⟨['\x5c', d], l, rfl, hLine ▸ .escapedLine hQuote, hAfter⟩
                  · rw [if_neg hLine] at hAfter
                    rw [List.length_cons] at hLength
                    obtain ⟨s, rest, hL, hs, hRest⟩ := ih (by omega) hAfter hCode
                    refine ⟨'\x5c' :: d :: s, rest, by rw [hL]; rfl, .escaped hQuote hLine hs, hRest⟩
            · rw [if_neg hSlash] at hAfter
              by_cases hLine : c = '\n'
              · rw [if_pos hLine] at hAfter
                refine ⟨[c], l, rfl, ?_, hAfter⟩
                rw [hLine] at hQuote ⊢
                exact .line hQuote
              · rw [if_neg hLine] at hAfter
                obtain ⟨s, rest, hL, hs, hRest⟩ := ih (by omega) hAfter hCode
                exact ⟨c :: s, rest, by rw [hL]; rfl, .char hQuote hSlash hLine hs, hRest⟩

theorem whole_of_after : ∀ (k : Nat) {n : Nat} {l : List Char}, l.length ≤ k →
    after .code (n + 1) l = some (.code, 1) → Whole n l := by
  intro k
  induction k with
  | zero =>
      intro n l hLength hAfter
      rw [List.eq_nil_of_length_eq_zero (Nat.le_zero.1 hLength)] at hAfter ⊢
      obtain ⟨-, hDepth⟩ := Prod.mk.inj (Option.some.inj hAfter)
      rw [show n = 0 by omega]
      exact .nil
  | succ k ih =>
      intro n l hLength hAfter
      cases l with
      | nil =>
          obtain ⟨-, hDepth⟩ := Prod.mk.inj (Option.some.inj hAfter)
          rw [show n = 0 by omega]
          exact .nil
      | cons c l =>
          rw [List.length_cons] at hLength
          rw [after_cons, step_code] at hAfter
          by_cases hQuote : is_quote c = true
          · rw [if_pos hQuote] at hAfter
            dsimp only at hAfter
            obtain ⟨s, rest, hL, hs, hRest⟩ := quoted_of_after l.length (Nat.le_refl _) hAfter rfl
            have hShort : rest.length ≤ k := by
              rw [hL, List.length_append] at hLength
              omega
            rw [hL]
            exact .string hQuote hs (ih hShort hRest)
          · rw [if_neg hQuote] at hAfter
            by_cases hOpen : c = '\x7b'
            · rw [if_pos hOpen] at hAfter
              rw [hOpen]
              exact .opening (ih (by omega) hAfter)
            · rw [if_neg hOpen] at hAfter
              by_cases hClose : c = '\x7d'
              · rw [if_pos hClose] at hAfter
                by_cases hDepth : n + 1 = 1
                · rw [if_pos hDepth] at hAfter
                  cases hAfter
                · rw [if_neg hDepth] at hAfter
                  dsimp only at hAfter
                  cases n with
                  | zero => exact absurd rfl hDepth
                  | succ n =>
                      rw [hClose]
                      exact .closing (ih (by omega) hAfter)
              · rw [if_neg hClose] at hAfter
                exact .plain ⟨Bool.eq_false_iff.2 hQuote, hOpen, hClose⟩ (ih (by omega) hAfter)

/-- A text is cut exactly where it ends if, and only if, it is read as a whole. -/
theorem braces_whole (text rest : List Char) :
    braces (text ++ '\x7d' :: rest) = some text.length ↔ Whole 0 text := by
  rw [braces_iff]
  exact ⟨whole_of_after text.length (Nat.le_refl _), Whole.after⟩

end Rekuest.Bsx
