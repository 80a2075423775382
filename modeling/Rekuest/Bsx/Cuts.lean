import Mathlib.Data.List.TakeWhile
import Rekuest.Bsx.Markup

/-!
# What is cut, and what is left out

The tokens of an expression with balanced braces are read as a whole by the scan, so they are cut
where they end.  A comment is, if its quotes and braces happen to be.  A container is left out
when its text is blank, or begins and ends as a comment does.
-/

namespace Rekuest.Bsx

open Rekuest.Backend

variable {f64 : List Char → Option Dyadic}

/-! ## Characters -/

theorem plain_of {p : Char → Bool} (hDouble : p '\x22' = false) (hSingle : p '\x27' = false)
    (hOpen : p '\x7b' = false) (hClose : p '\x7d' = false) {c : Char} (h : p c = true) : Plain c := by
  refine ⟨?_, ?_, ?_⟩
  · unfold is_quote
    rw [Bool.or_eq_false_iff, decide_eq_false_iff_not, decide_eq_false_iff_not]
    constructor
    · intro hIs
      rw [hIs, hDouble] at h
      cases h
    · intro hIs
      rw [hIs, hSingle] at h
      cases h
  · intro hIs
    rw [hIs, hOpen] at h
    cases h
  · intro hIs
    rw [hIs, hClose] at h
    cases h

theorem quote_cases {c : Char} (h : is_quote c = true) : c = '\x22' ∨ c = '\x27' := by
  unfold is_quote at h
  rw [Bool.or_eq_true, decide_eq_true_iff, decide_eq_true_iff] at h
  exact h

theorem Whole.plains {n : Nat} {l m : List Char} (hl : ∀ c ∈ l, Plain c) (h : Whole n m) : Whole n (l ++ m) := by
  induction l with
  | nil => exact h
  | cons c l ih =>
      obtain ⟨hc, hRest⟩ := List.forall_mem_cons.1 hl
      exact .plain hc (ih hRest)

/-! ## Tokens -/

/-- A character of a number. -/
def is_number_part (c : Char) : Bool := c.isDigit || c ∈ ['.', 'e', 'E', '+', '-']

theorem digit_part {c : Char} (h : c.isDigit = true) : is_number_part c = true := by
  unfold is_number_part
  rw [h]
  rfl

theorem take_takeWhile (p : Char → Bool) (l : List Char) :
    l.take (l.takeWhile p).length = l.takeWhile p :=
  (List.prefix_iff_eq_take.1 (List.takeWhile_prefix p)).symm

theorem digits_part {l : List Char} {c : Char} (h : c ∈ l.takeWhile Char.isDigit) : is_number_part c = true :=
  digit_part (List.mem_takeWhile_imp h)

theorem fraction_part {l : List Char} : ∀ c ∈ l.take (fraction l), is_number_part c = true := by
  intro c hMem
  unfold fraction at hMem
  split at hMem
  · rename_i d rest
    by_cases hDigit : d.isDigit = true
    · rw [if_pos hDigit, Nat.add_comm, List.take_succ_cons, take_takeWhile] at hMem
      rcases List.mem_cons.1 hMem with hIs | hLater
      · rw [hIs]
        rfl
      · exact digits_part hLater
    · rw [if_neg hDigit] at hMem
      cases hMem
  · cases hMem

theorem exponent_part {l : List Char} : ∀ c ∈ l.take (exponent l), is_number_part c = true := by
  intro c hMem
  unfold exponent at hMem
  cases l with
  | nil => cases hMem
  | cons e rest =>
      dsimp only at hMem
      by_cases hLetter : (e = 'e' || e = 'E' : Bool) = true
      · rw [if_pos hLetter] at hMem
        have hE : is_number_part e = true := by
          rw [Bool.or_eq_true, decide_eq_true_iff, decide_eq_true_iff] at hLetter
          rcases hLetter with hIs | hIs
          · rw [hIs]
            rfl
          · rw [hIs]
            rfl
        generalize hSign : (if rest.head?.any fun c => c = '+' || c = '-' then 1 else 0) = sign at hMem
        have hSigned : ∀ c ∈ rest.take sign, is_number_part c = true := by
          intro c hc
          cases rest with
          | nil =>
              rw [List.take_nil] at hc
              cases hc
          | cons s rest =>
              by_cases hIsSign : ((s :: rest).head?.any fun c => c = '+' || c = '-') = true
              · rw [if_pos hIsSign] at hSign
                rw [← hSign] at hc
                rw [List.mem_singleton.1 hc]
                have hCases : (s = '+' || s = '-' : Bool) = true := hIsSign
                rw [Bool.or_eq_true, decide_eq_true_iff, decide_eq_true_iff] at hCases
                rcases hCases with hIs | hIs
                · rw [hIs]
                  rfl
                · rw [hIs]
                  rfl
              · rw [if_neg hIsSign] at hSign
                rw [← hSign] at hc
                cases hc
        generalize hDigits : ((rest.drop sign).takeWhile Char.isDigit).length = digits at hMem
        by_cases hNone : digits = 0
        · rw [if_pos hNone] at hMem
          cases hMem
        · rw [if_neg hNone, show 1 + sign + digits = (sign + digits) + 1 by omega, List.take_succ_cons,
            List.take_add] at hMem
          rcases List.mem_cons.1 hMem with hIs | hLater
          · rw [hIs]
            exact hE
          · rcases List.mem_append.1 hLater with hInSign | hInDigits
            · exact hSigned c hInSign
            · rw [← hDigits, take_takeWhile] at hInDigits
              exact digits_part hInDigits
      · rw [if_neg hLetter] at hMem
        cases hMem

theorem number_part {start size : Nat} {text : List Char} {value : Ports.Value}
    (h : number f64 start text = .ok (size, value)) :
    (text.takeWhile Char.isDigit).length ≤ size ∧ ∀ c ∈ text.take size, is_number_part c = true := by
  unfold number at h
  dsimp only at h
  generalize hWhole : (text.takeWhile Char.isDigit).length = whole at h
  generalize hPoint : fraction (text.drop whole) = point at h
  generalize hPower : exponent (text.drop (whole + point)) = power at h
  have hSize : size = whole + point + power := by
    split at h
    · cases h
    · split at h
      · cases h
      · split at h
        · exact (Prod.mk.inj (Except.ok.inj h)).1.symm
        · cases h
  refine ⟨by omega, ?_⟩
  intro c hMem
  rw [hSize, List.take_add, List.take_add] at hMem
  rcases List.mem_append.1 hMem with hFront | hInPower
  · rcases List.mem_append.1 hFront with hInWhole | hInPoint
    · rw [← hWhole, take_takeWhile] at hInWhole
      exact digits_part hInWhole
    · rw [← hPoint] at hInPoint
      exact fraction_part c hInPoint
  · rw [← hPower] at hInPower
    exact exponent_part c hInPower

theorem hex_char {quote c : Char} (hQuote : is_quote quote = true) (h : is_hex c = true) :
    c ≠ quote ∧ c ≠ '\x5c' ∧ c ≠ '\n' := by
  have hNot : ∀ d, is_hex d = false → c ≠ d := by
    intro d hd hIs
    rw [hIs, hd] at h
    cases h
  refine ⟨?_, hNot _ (by decide), hNot _ (by decide)⟩
  rcases quote_cases hQuote with hIs | hIs
  · rw [hIs]
    exact hNot _ (by decide)
  · rw [hIs]
    exact hNot _ (by decide)

theorem escape_char {e c replaced : Char} (h : ESCAPES.find? (·.1 = e) = some (c, replaced)) : e ≠ '\n' := by
  have hFound := @List.find?_some _ (fun pair : Char × Char => (pair.1 = e : Bool)) _ _ h
  have hIs : c = e := of_decide_eq_true hFound
  have hMem := List.mem_of_find?_eq_some h
  have hNone : ∀ pair ∈ ESCAPES, pair.1 ≠ '\n' := by decide
  rw [← hIs]
  exact hNone _ hMem

/-- A string of the lexer's is one of the scan's. -/
theorem string_quoted {quote : Char} (hQuote : is_quote quote = true) {start : Nat} :
    ∀ {size : Nat} {out rest : List Char} {size' : Nat} {value : List Char},
      string_from quote start size out rest = .ok (size', value) →
        ∃ s tail, rest = s ++ tail ∧ size' = size + s.length ∧ Quoted quote s := by
  have hSlash : '\x5c' ≠ quote := by
    rcases quote_cases hQuote with hIs | hIs
    · rw [hIs]
      decide
    · rw [hIs]
      decide
  intro size out rest
  induction size, out, rest using string_from.induct quote with
  | case1 size out =>
      intro size' value h
      cases h
  | case2 size out rest =>
      intro size' value h
      unfold string_from at h
      rw [if_pos rfl] at h
      obtain ⟨hSize, -⟩ := Prod.mk.inj (Except.ok.inj h)
      exact ⟨[quote], rest, rfl, hSize.symm, .closed⟩
  | case3 size out rest hNe =>
      intro size' value h
      unfold string_from at h
      rw [if_neg hNe, if_pos rfl] at h
      cases h
  | case4 size out hNe hLine =>
      intro size' value h
      unfold string_from at h
      rw [if_neg hNe, if_neg hLine, if_pos rfl] at h
      cases h
  | case5 size out a b c d rest hHex _ hNe hLine =>
      rename_i ih
      intro size' value h
      unfold string_from at h
      rw [if_neg hNe, if_neg hLine, if_pos rfl] at h
      simp only [hHex, if_true] at h
      obtain ⟨s, tail, hRest, hSize, hs⟩ := ih h
      refine ⟨'\x5c' :: 'u' :: a :: b :: c :: d :: s, tail, by rw [hRest]; rfl, ?_, ?_⟩
      · simp only [List.length_cons]
        omega
      · rw [Bool.and_eq_true, Bool.and_eq_true, Bool.and_eq_true] at hHex
        have ha := hex_char hQuote hHex.1.1.1
        have hb := hex_char hQuote hHex.1.1.2
        have hc := hex_char hQuote hHex.1.2
        have hd := hex_char hQuote hHex.2
        exact .escaped hSlash (by decide) (.char ha.1 ha.2.1 ha.2.2 (.char hb.1 hb.2.1 hb.2.2
          (.char hc.1 hc.2.1 hc.2.2 (.char hd.1 hd.2.1 hd.2.2 hs))))
  | case6 size out a b c d rest hHex hNe hLine =>
      intro size' value h
      unfold string_from at h
      rw [if_neg hNe, if_neg hLine, if_pos rfl] at h
      simp only [hHex] at h
      cases h
  | case7 size out tail hShort hNe hLine =>
      intro size' value h
      unfold string_from at h
      rw [if_neg hNe, if_neg hLine, if_pos rfl] at h
      split at h
      · rename_i hIs
        cases hIs
      · rename_i a b c d rest hIs
        exact (hShort a b c d rest (List.cons.inj hIs).2).elim
      · cases h
      · rename_i hNotU hIs
        exact (hNotU (List.cons.inj hIs).1.symm).elim
  | case8 size out e rest _ hNotU key replaced hFind hNe hLine ih =>
      intro size' value h
      unfold string_from at h
      rw [if_neg hNe, if_neg hLine, if_pos rfl] at h
      split at h
      · rename_i hIs
        cases hIs
      · rename_i hIs
        exact (hNotU (List.cons.inj hIs).1).elim
      · rename_i hIs
        exact (hNotU (List.cons.inj hIs).1).elim
      · rename_i hIs
        obtain ⟨hE, hRest⟩ := List.cons.inj hIs
        rw [← hE, hFind] at h
        dsimp only at h
        rw [← hRest] at h
        obtain ⟨s, tail, hSplit, hSize, hs⟩ := ih h
        refine ⟨'\x5c' :: e :: s, tail, by rw [hSplit]; rfl, ?_, .escaped hSlash (escape_char hFind) hs⟩
        rw [List.length_cons, List.length_cons]
        omega
  | case9 size out e rest _ hNotU hFind hNe hLine =>
      intro size' value h
      unfold string_from at h
      rw [if_neg hNe, if_neg hLine, if_pos rfl] at h
      split at h
      · rename_i hIs
        cases hIs
      · rename_i hIs
        exact (hNotU (List.cons.inj hIs).1).elim
      · rename_i hIs
        exact (hNotU (List.cons.inj hIs).1).elim
      · rename_i hIs
        rw [← (List.cons.inj hIs).1, hFind] at h
        cases h
  | case10 size out c rest hNe hLine hSlash' ih =>
      intro size' value h
      unfold string_from at h
      rw [if_neg hNe, if_neg hLine, if_neg hSlash'] at h
      obtain ⟨s, tail, hRest, hSize, hs⟩ := ih h
      refine ⟨c :: s, tail, by rw [hRest]; rfl, ?_, .char hNe hSlash' hLine hs⟩
      rw [List.length_cons]
      omega

instance : DecidablePred Plain := fun _ => inferInstanceAs (Decidable (_ ∧ _ ∧ _))

theorem operators_plain : ∀ op ∈ OPERATORS,
    op = "\x7b" ∨ op = "\x7d" ∨ ∀ d ∈ op.toList, Plain d := by
  have hAll : OPERATORS.all (fun op => op = "\x7b" || op = "\x7d" ||
      op.toList.all fun d => (Plain d : Bool)) = true := by decide
  intro op hMem
  have hOp := List.all_eq_true.1 hAll op hMem
  simpa [or_assoc] using hOp

theorem opens_iff {t : Token} : t.is_op ["\x7b"] = true ↔ t.kind = .op ∧ t.value = "\x7b" := by
  unfold Token.is_op
  rw [Bool.and_eq_true, decide_eq_true_iff, decide_eq_true_iff, List.mem_singleton]

theorem closes_iff {t : Token} : t.is_op ["\x7d"] = true ↔ t.kind = .op ∧ t.value = "\x7d" := by
  unfold Token.is_op
  rw [Bool.and_eq_true, decide_eq_true_iff, decide_eq_true_iff, List.mem_singleton]

/-- What a token is written as: a brace, or what the scan passes over. -/
theorem token_written {index size : Nat} {c : Char} {rest : List Char} {token : Token}
    (h : token_at f64 index (c :: rest) = .ok (token, size)) : 0 < size ∧
      (token.is_op ["\x7b"] = true ∧ (c :: rest).take size = ['\x7b'] ∨
        token.is_op ["\x7d"] = true ∧ (c :: rest).take size = ['\x7d'] ∨
        token.is_op ["\x7b"] = false ∧ token.is_op ["\x7d"] = false ∧
          ∀ n l, Whole n l → Whole n ((c :: rest).take size ++ l)) := by
  have hOther : token.kind ≠ .op → token.is_op ["\x7b"] = false ∧ token.is_op ["\x7d"] = false := by
    intro hKind
    constructor
    · exact Bool.eq_false_iff.2 fun hIs => hKind (opens_iff.1 hIs).1
    · exact Bool.eq_false_iff.2 fun hIs => hKind (closes_iff.1 hIs).1
  rcases token_at_cases f64 h with ⟨hName, hKind, hSize⟩ | ⟨hDigit, hKind, value, hNumber⟩ |
    ⟨hQuote, hKind, value, hString⟩ | ⟨-, hKind, hFind, -, hSize⟩
  · refine ⟨by omega, .inr (.inr ⟨(hOther (by rw [hKind]; nofun)).1, (hOther (by rw [hKind]; nofun)).2, ?_⟩)⟩
    intro n l hWhole
    rw [hSize, Nat.add_comm, List.take_succ_cons, take_takeWhile]
    refine .plain (plain_of (by decide) (by decide) (by decide) (by decide) hName) (Whole.plains ?_ hWhole)
    intro d hd
    exact plain_of (by decide) (by decide) (by decide) (by decide) (List.mem_takeWhile_imp hd)
  · obtain ⟨hLeast, hPart⟩ := number_part hNumber
    rw [List.takeWhile_cons_of_pos hDigit, List.length_cons] at hLeast
    refine ⟨by omega, .inr (.inr ⟨(hOther (by rw [hKind]; nofun)).1, (hOther (by rw [hKind]; nofun)).2, ?_⟩)⟩
    intro n l hWhole
    refine Whole.plains ?_ hWhole
    intro d hd
    exact plain_of (by decide) (by decide) (by decide) (by decide) (hPart d hd)
  · obtain ⟨s, tail, hRest, hSize, hs⟩ := string_quoted hQuote hString
    refine ⟨by omega, .inr (.inr ⟨(hOther (by rw [hKind]; nofun)).1, (hOther (by rw [hKind]; nofun)).2, ?_⟩)⟩
    intro n l hWhole
    rw [hSize, Nat.add_comm, List.take_succ_cons, hRest, List.take_left]
    exact .string hQuote hs hWhole
  · have hPrefix : token.value.toList.isPrefixOf (c :: rest) = true :=
      @List.find?_some _ (fun op : String => op.toList.isPrefixOf (c :: rest)) _ _ hFind
    have hTake : (c :: rest).take size = token.value.toList := by
      rw [hSize, ← String.length_toList]
      exact (List.prefix_iff_eq_take.1 (List.isPrefixOf_iff_prefix.1 hPrefix)).symm
    have hMem := List.mem_of_find?_eq_some hFind
    have hPos : 0 < size := by
      have hNone : ∀ op ∈ OPERATORS, 0 < op.length := by decide
      rw [hSize]
      exact hNone _ hMem
    refine ⟨hPos, ?_⟩
    rcases operators_plain _ hMem with hOpen | hClose | hPlain
    · left
      rw [hTake, hOpen]
      exact ⟨opens_iff.2 ⟨hKind, hOpen⟩, rfl⟩
    · right
      left
      rw [hTake, hClose]
      exact ⟨closes_iff.2 ⟨hKind, hClose⟩, rfl⟩
    · right
      right
      refine ⟨?_, ?_, ?_⟩
      · refine Bool.eq_false_iff.2 fun hIs => ?_
        have hBrace := hPlain '\x7b' (by rw [(opens_iff.1 hIs).2]; exact List.mem_singleton.2 rfl)
        exact hBrace.2.1 rfl
      · refine Bool.eq_false_iff.2 fun hIs => ?_
        have hBrace := hPlain '\x7d' (by rw [(closes_iff.1 hIs).2]; exact List.mem_singleton.2 rfl)
        exact hBrace.2.2 rfl
      · intro n l hWhole
        rw [hTake]
        exact Whole.plains hPlain hWhole

/-- The braces of some tokens, with some open before them, are all closed. -/
def balanced : Nat → List Token → Bool
  | depth, [] => depth = 0
  | depth, t :: rest =>
      if t.is_op ["\x7b"] then balanced (depth + 1) rest
      else if t.is_op ["\x7d"] then depth ≠ 0 && balanced (depth - 1) rest
      else balanced depth rest

/-- Tokens with balanced braces are read as a whole. -/
theorem tokens_whole {n : Nat} : ∀ {index : Nat} {text : List Char} {toks : List Token} {depth : Nat},
    text.length ≤ n → tokens_from f64 n index text = .ok toks → balanced depth toks = true → Whole depth text := by
  induction n with
  | zero =>
      intro index text toks depth hLength h hBalanced
      rw [List.eq_nil_of_length_eq_zero (Nat.le_zero.1 hLength)]
      rw [← Except.ok.inj h] at hBalanced
      rw [of_decide_eq_true (show ((depth = 0 : Bool)) = true from hBalanced)]
      exact .nil
  | succ n ih =>
      intro index text toks depth hLength h hBalanced
      cases text with
      | nil =>
          rw [← Except.ok.inj h] at hBalanced
          rw [of_decide_eq_true (show ((depth = 0 : Bool)) = true from hBalanced)]
          exact .nil
      | cons c rest =>
          rw [List.length_cons] at hLength
          unfold tokens_from at h
          by_cases hSpace : is_space c = true
          · rw [if_pos hSpace] at h
            have hPlain : Plain c := plain_of (by decide) (by decide) (by decide) (by decide) hSpace
            exact .plain hPlain (ih (by omega) h hBalanced)
          · rw [if_neg hSpace] at h
            cases hToken : token_at f64 index (c :: rest) with
            | error e =>
                rw [hToken] at h
                cases h
            | ok found =>
                obtain ⟨token, size⟩ := found
                rw [hToken] at h
                dsimp only at h
                cases hRest : tokens_from f64 n (index + size) ((c :: rest).drop size) with
                | error e =>
                    rw [hRest] at h
                    cases h
                | ok later =>
                    rw [hRest] at h
                    rw [← Except.ok.inj h] at hBalanced
                    obtain ⟨hPos, hWritten⟩ := token_written hToken
                    have hShort : ((c :: rest).drop size).length ≤ n := by
                      rw [List.length_drop, List.length_cons]
                      omega
                    rw [← List.take_append_drop size (c :: rest)]
                    unfold balanced at hBalanced
                    rcases hWritten with ⟨hOpens, hTake⟩ | ⟨hCloses, hTake⟩ | ⟨hNoOpen, hNoClose, hPasses⟩
                    · rw [if_pos hOpens] at hBalanced
                      rw [hTake]
                      exact .opening (ih hShort hRest hBalanced)
                    · have hNoOpen : ¬ token.is_op ["\x7b"] = true := by
                        intro hOpens
                        have hBoth := (opens_iff.1 hOpens).2.symm.trans (closes_iff.1 hCloses).2
                        exact absurd hBoth (by decide)
                      rw [if_neg hNoOpen, if_pos hCloses, Bool.and_eq_true] at hBalanced
                      rw [hTake]
                      have hDepth := of_decide_eq_true hBalanced.1
                      cases depth with
                      | zero => exact absurd rfl hDepth
                      | succ depth => exact .closing (ih hShort hRest hBalanced.2)
                    · rw [hNoOpen, hNoClose, if_neg Bool.false_ne_true, if_neg Bool.false_ne_true] at hBalanced
                      exact hPasses _ _ (ih hShort hRest hBalanced)

/-! ## Comments -/

/-- A comment, whatever it holds. -/
def comment (c : List Char) : List Char := '/' :: '*' :: (c ++ ['*', '/'])

def Place.sound : Place → Prop
  | .code => True
  | .string quote => is_quote quote = true
  | .escape quote => is_quote quote = true

theorem step_sound {place place' : Place} {depth depth' : Nat} {c : Char} (hSound : place.sound)
    (h : step place depth c = some (place', depth')) : place'.sound := by
  cases place with
  | code =>
      rw [step_code] at h
      by_cases hQuote : is_quote c = true
      · rw [if_pos hQuote] at h
        rw [← (Prod.mk.inj (Option.some.inj h)).1]
        exact hQuote
      · rw [if_neg hQuote] at h
        have hCode : place' = .code := by
          split at h
          · exact (Prod.mk.inj (Option.some.inj h)).1.symm
          · split at h
            · split at h
              · cases h
              · exact (Prod.mk.inj (Option.some.inj h)).1.symm
            · exact (Prod.mk.inj (Option.some.inj h)).1.symm
        rw [hCode]
        trivial
  | string quote =>
      rw [step_string] at h
      split at h
      · rw [← (Prod.mk.inj (Option.some.inj h)).1]
        trivial
      · split at h
        · rw [← (Prod.mk.inj (Option.some.inj h)).1]
          exact hSound
        · split at h
          · rw [← (Prod.mk.inj (Option.some.inj h)).1]
            trivial
          · rw [← (Prod.mk.inj (Option.some.inj h)).1]
            exact hSound
  | escape quote =>
      rw [step_escape] at h
      split at h
      · rw [← (Prod.mk.inj (Option.some.inj h)).1]
        trivial
      · rw [← (Prod.mk.inj (Option.some.inj h)).1]
        exact hSound

theorem after_sound {l : List Char} : ∀ {place place' : Place} {depth depth' : Nat}, place.sound →
    after place depth l = some (place', depth') → place'.sound := by
  induction l with
  | nil =>
      intro place place' depth depth' hSound h
      rw [← (Prod.mk.inj (Option.some.inj h)).1]
      exact hSound
  | cons c l ih =>
      intro place place' depth depth' hSound h
      rw [after_cons] at h
      cases hStep : step place depth c with
      | none =>
          rw [hStep] at h
          cases h
      | some at_ =>
          rw [hStep] at h
          exact ih (step_sound hSound hStep) h

/-- No string of a comment's ends in what closes it. -/
theorem string_open {quote : Char} (hQuote : is_quote quote = true) (depth : Nat) :
    after (.string quote) depth ['*', '/'] = some (.string quote, depth) := by
  rcases quote_cases hQuote with hIs | hIs
  · rw [hIs]
    rfl
  · rw [hIs]
    rfl

theorem comment_whole (c : List Char) : Whole 0 (comment c) ↔ Whole 0 c := by
  have hIff : ∀ l, Whole 0 l ↔ after .code 1 l = some (.code, 1) := fun l =>
    ⟨Whole.after, whole_of_after l.length (Nat.le_refl _)⟩
  have hOpened : after .code 1 (comment c) = after .code 1 (c ++ ['*', '/']) := rfl
  rw [hIff, hIff, hOpened, after_append]
  cases hAfter : after .code 1 c with
  | none => exact Iff.rfl
  | some at_ =>
      obtain ⟨place, depth⟩ := at_
      have hSound : place.sound := @after_sound _ .code _ _ _ trivial hAfter
      show after place depth ['*', '/'] = some (.code, 1) ↔ some (place, depth) = some (.code, 1)
      cases place with
      | code => exact Iff.rfl
      | string quote =>
          rw [string_open hSound]
      | escape quote =>
          have hString : after (.escape quote) depth ['*', '/'] = after (.string quote) depth ['/'] := rfl
          have hSlash : after (.string quote) depth ['/'] = some (.string quote, depth) := by
            rcases quote_cases hSound with hIs | hIs
            · rw [hIs]
              rfl
            · rw [hIs]
              rfl
          rw [hString, hSlash]
          constructor
          · intro h
            cases h
          · intro h
            cases h

/-! ## What is left out -/

def Blank (text : List Char) : Prop := ∀ c ∈ text, isWhitespace c = true

/-- One comment: nothing closes it before its end. -/
def SingleComment (text : List Char) : Prop := ∃ c, text = comment c ∧ ¬ ['*', '/'] <:+: c

/-- What begins and ends as a comment, and is none. -/
def Misread (text : List Char) : Prop :=
  text = ['/', '*', '/'] ∨ ∃ c, text = comment c ∧ ['*', '/'] <:+: c

theorem trim_nil_iff {text : List Char} : trim text = [] ↔ Blank text := by
  unfold trim Blank
  rw [List.reverse_eq_nil_iff, List.dropWhile_eq_nil_iff]
  constructor
  · intro h
    rw [← List.dropWhile_eq_nil_iff]
    cases hLeft : text.dropWhile isWhitespace with
    | nil => rfl
    | cons c rest =>
        have hHead := h c (by rw [hLeft]; exact List.mem_reverse.2 List.mem_cons_self)
        have hNot := @List.head_dropWhile_not _ isWhitespace text (by rw [hLeft]; nofun)
        simp only [hLeft, List.head_cons] at hNot
        rw [hNot] at hHead
        cases hHead
  · intro h c hc
    exact h c ((List.dropWhile_sublist _).subset (List.mem_reverse.1 hc))

/-- What begins and ends as a comment is one, with anything in it, or the shortest that is none. -/
theorem comment_of {text : List Char} (hStarts : starts "/*" text = true)
    (hEnds : "*/".toList.isSuffixOf text = true) : text = ['/', '*', '/'] ∨ ∃ c, text = comment c := by
  obtain ⟨rest, hRest⟩ := List.isPrefixOf_iff_prefix.1 hStarts
  obtain ⟨front, hFront⟩ := List.isSuffixOf_iff_suffix.1 hEnds
  have hBoth : front ++ ['*', '/'] = '/' :: '*' :: rest := hFront.trans hRest.symm
  cases front with
  | nil => cases hBoth
  | cons a front =>
      obtain ⟨hA, hLater⟩ := List.cons.inj hBoth
      cases front with
      | nil =>
          left
          rw [← hRest, ← (List.cons.inj hLater).2]
          rfl
      | cons b front =>
          right
          refine ⟨front, ?_⟩
          rw [← hRest, ← (List.cons.inj hLater).2]
          rfl

theorem comment_injective {c d : List Char} (h : comment c = comment d) : c = d :=
  (List.append_inj' (List.cons.inj (List.cons.inj h).2).2 rfl).1

theorem left_out_iff {text : List Char} : left_out text = true ↔
    Blank text ∨ trim text = ['/', '*', '/'] ∨ ∃ c, trim text = comment c := by
  unfold left_out
  dsimp only
  rw [Bool.or_eq_true, Bool.and_eq_true, List.isEmpty_iff, trim_nil_iff]
  constructor
  · rintro (hBlank | ⟨hStarts, hEnds⟩)
    · exact .inl hBlank
    · exact .inr (comment_of hStarts hEnds)
  · rintro (hBlank | hShort | ⟨c, hComment⟩)
    · exact .inl hBlank
    · rw [hShort]
      exact .inr ⟨rfl, rfl⟩
    · rw [hComment]
      refine .inr ⟨rfl, List.isSuffixOf_iff_suffix.2 ⟨'/' :: '*' :: c, rfl⟩⟩

theorem single_not_misread {text : List Char} (hSingle : SingleComment text) : ¬ Misread text := by
  obtain ⟨c, hText, hNone⟩ := hSingle
  rintro (hShort | ⟨d, hComment, hInside⟩)
  · have hLength : (comment c).length = 3 := by rw [← hText, hShort]; rfl
    simp only [comment, List.length_cons, List.length_append, List.length_nil] at hLength
    omega
  · exact hNone (comment_injective (hText.symm.trans hComment) ▸ hInside)

/-- Only comments are left out, exactly if the text is not misread. -/
theorem left_out_fair {text : List Char} :
    (left_out text = true ↔ Blank text ∨ SingleComment (trim text)) ↔ ¬ Misread (trim text) := by
  constructor
  · intro hFair hMisread
    have hOut : left_out text = true := by
      rw [left_out_iff]
      rcases hMisread with hShort | ⟨c, hComment, -⟩
      · exact .inr (.inl hShort)
      · exact .inr (.inr ⟨c, hComment⟩)
    rcases hFair.1 hOut with hBlank | hSingle
    · rw [trim_nil_iff.2 hBlank] at hMisread
      rcases hMisread with hShort | ⟨c, hComment, -⟩
      · cases hShort
      · cases hComment
    · exact single_not_misread hSingle hMisread
  · intro hRead
    rw [left_out_iff]
    constructor
    · rintro (hBlank | hShort | ⟨c, hComment⟩)
      · exact .inl hBlank
      · exact absurd (.inl hShort) hRead
      · exact .inr ⟨c, hComment, fun hInside => hRead (.inr ⟨c, hComment, hInside⟩)⟩
    · rintro (hBlank | ⟨c, hComment, -⟩)
      · exact .inl hBlank
      · exact .inr (.inr ⟨c, hComment⟩)

/-- A container adds nothing to the tree if, and only if, its text is left out. -/
theorem container_none_iff {total : Nat} {source text rest : List Char}
    (h : braced total source = .ok (text, rest)) :
    container f64 total source = .ok (none, rest) ↔ left_out text = true := by
  unfold container
  rw [h]
  dsimp only
  by_cases hOut : left_out text = true
  · rw [if_pos hOut]
    exact ⟨fun _ => hOut, fun _ => rfl⟩
  · rw [if_neg hOut]
    constructor
    · intro hNone
      cases hParse : parse_expression f64 text (index total source.tail) with
      | error e =>
          rw [hParse] at hNone
          cases hNone
      | ok e =>
          rw [hParse] at hNone
          cases hNone
    · intro hLeft
      exact absurd hLeft hOut

/-- Tokens with balanced braces are cut where they end; a comment is if, and only if, its quotes and
braces happen to be those of an expression; and only blank containers and comments are left out of
the tree, if and only if the text does not begin and end as a comment without being one. -/
theorem cut_and_left_out (f64 : List Char → Option Dyadic) (total : Nat) :
    (∀ (base : Nat) (text rest : List Char) (toks : List Token), tokens f64 base text = .ok toks →
      balanced 0 toks = true → braces (text ++ '\x7d' :: rest) = some text.length) ∧
    (∀ c rest : List Char, braces (comment c ++ '\x7d' :: rest) = some (comment c).length ↔ Whole 0 c) ∧
    ∀ source text rest : List Char, braced total source = .ok (text, rest) →
      ((container f64 total source = .ok (none, rest) ↔ Blank text ∨ SingleComment (trim text)) ↔
        ¬ Misread (trim text)) := by
  refine ⟨?_, ?_, ?_⟩
  · intro base text rest toks hTokens hBalanced
    rw [braces_whole]
    exact tokens_whole (Nat.le_refl _) hTokens hBalanced
  · intro c rest
    rw [braces_whole, comment_whole]
  · intro source text rest hBraced
    rw [container_none_iff hBraced]
    exact left_out_fair

theorem object_cut : ∃ toks, tokens (fun _ => none) 0 ['\x7b', 'a', ':', ' ', '1', '\x7d'] = .ok toks ∧
    braces ['\x7b', 'a', ':', ' ', '1', '\x7d', '\x7d', '<'] = some 6 ∧
    (container (fun _ => none) 7 ['\x7b', '/', '*', 'a', '*', '/', '\x7d'] = .ok (none, []) ↔
      Blank ['/', '*', 'a', '*', '/'] ∨ SingleComment ['/', '*', 'a', '*', '/']) := by
  have hBoth := cut_and_left_out (fun _ => none) 7
  refine ⟨_, rfl, ?_, ?_⟩
  · exact hBoth.1 0 ['\x7b', 'a', ':', ' ', '1', '\x7d'] ['<'] _ rfl (by decide)
  · refine (hBoth.2.2 ['\x7b', '/', '*', 'a', '*', '/', '\x7d'] ['/', '*', 'a', '*', '/'] [] (by rfl)).2 ?_
    refine single_not_misread ⟨['a'], rfl, ?_⟩
    decide

/-- An apostrophe in a comment opens a string, which runs over the closing brace; and what stands
between two comments is left out with them. -/
theorem comments_misread :
    (∃ c rest : List Char, ¬ ['*', '/'] <:+: c ∧
      braces (comment c ++ '\x7d' :: rest) ≠ some (comment c).length) ∧
    ∃ source text rest : List Char,
      container (fun _ => none) source.length source = .ok (none, rest) ∧
        braced source.length source = .ok (text, rest) ∧ ¬ (Blank text ∨ SingleComment (trim text)) := by
  refine ⟨⟨['d', 'o', 'n', '\x27', 't'], ['<', '/', 'b', '>'], by decide, by decide⟩, ?_⟩
  refine ⟨"\x7b/* a */ x /* b */\x7d".toList, "/* a */ x /* b */".toList, [], by rfl, by rfl, ?_⟩
  rintro (hBlank | hSingle)
  · exact absurd (hBlank '/' (by decide)) (by decide)
  · refine single_not_misread hSingle (.inr ⟨" a */ x /* b ".toList, by decide, ?_⟩)
    exact ⟨" a ".toList, " x /* b ".toList, by decide⟩

end Rekuest.Bsx
