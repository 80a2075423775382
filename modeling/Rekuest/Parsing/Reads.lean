import Mathlib.Data.List.Basic

/-!
# Parsers and what they read

A parser takes tokens off the front of its input.  It is sound for a language of pairs of tokens
and values when what it takes is of its value, and complete up to a length when it takes what is in
the language wherever what follows stops it.  Both hold of the loops over separated operands and
over lists with a closing token, when they do of their items.
-/

namespace Parsing

variable {τ ε α : Type}

/-- A value off the front of some tokens. -/
abbrev Parse (τ ε α : Type) : Type := List τ → Except ε (α × List τ)

/-- What is taken is in the language. -/
def Sound (p : Parse τ ε α) (L : List τ → α → Prop) : Prop :=
  ∀ input a rest, p input = .ok (a, rest) → ∃ l, input = l ++ rest ∧ L l a

/-- What is in the language is taken, where what follows stops the parser. -/
def Complete (n : Nat) (p : Parse τ ε α) (L : List τ → α → Prop) (stops : List τ → Prop) : Prop :=
  ∀ l a rest, L l a → l.length ≤ n → stops rest → p (l ++ rest) = .ok (a, rest)

/-! ## Separated operands -/

/-- What follows the first operand: a separator and an operand, as long as there is one. -/
inductive Trailing (sep : τ → Prop) (L : List τ → α → Prop) : List τ → List α → Prop
  | nil : Trailing sep L [] []
  | cons {l l' : List τ} {s : τ} {a : α} {as : List α} :
      sep s → L l a → Trailing sep L l' as → Trailing sep L (s :: (l ++ l')) (a :: as)

/-- The loop over what follows the first operand; the number bounds its rounds. -/
def operands (sep : τ → Bool) (p : Parse τ ε α) : Nat → List α → Parse τ ε (List α)
  | 0, read, input => .ok (read, input)
  | _ + 1, read, [] => .ok (read, [])
  | n + 1, read, t :: input =>
      if sep t then
        match p input with
        | .error e => .error e
        | .ok (a, rest) => operands sep p n (read ++ [a]) rest
      else .ok (read, t :: input)

theorem operands_sound {sep : τ → Bool} {p : Parse τ ε α} {L : List τ → α → Prop} (hp : Sound p L) :
    ∀ {n : Nat} {read : List α} {input : List τ} {as : List α} {rest : List τ},
      operands sep p n read input = .ok (as, rest) →
        ∃ l as', input = l ++ rest ∧ as = read ++ as' ∧ Trailing (fun t => sep t = true) L l as' := by
  intro n
  induction n with
  | zero =>
      intro read input as rest h
      have hBoth := Except.ok.inj h
      refine ⟨[], [], congrArg Prod.snd hBoth, ?_, .nil⟩
      rw [List.append_nil]
      exact (congrArg Prod.fst hBoth).symm
  | succ n ih =>
      intro read input as rest h
      cases input with
      | nil =>
          have hBoth := Except.ok.inj h
          refine ⟨[], [], congrArg Prod.snd hBoth, ?_, .nil⟩
          rw [List.append_nil]
          exact (congrArg Prod.fst hBoth).symm
      | cons t input =>
          unfold operands at h
          by_cases hSep : sep t = true
          · rw [if_pos hSep] at h
            cases hItem : p input with
            | error e =>
                rw [hItem] at h
                cases h
            | ok item =>
                obtain ⟨a, after⟩ := item
                rw [hItem] at h
                obtain ⟨l, as', hAfter, hAs, hTrailing⟩ := ih h
                obtain ⟨first, hInput, hFirst⟩ := hp input a after hItem
                refine ⟨t :: (first ++ l), a :: as', ?_, ?_, .cons hSep hFirst hTrailing⟩
                · rw [hInput, hAfter, List.cons_append, List.append_assoc]
                · rw [hAs, List.append_assoc]
                  rfl
          · rw [if_neg hSep] at h
            have hBoth := Except.ok.inj h
            refine ⟨[], [], congrArg Prod.snd hBoth, ?_, .nil⟩
            rw [List.append_nil]
            exact (congrArg Prod.fst hBoth).symm

/-- What follows does not go on with a separator. -/
def Ends (sep : τ → Bool) (rest : List τ) : Prop := ∀ t, rest.head? = some t → sep t = false

theorem operands_complete {sep : τ → Bool} {p : Parse τ ε α} {L : List τ → α → Prop}
    {stops : List τ → Prop} {bound : Nat} (hp : Complete bound p L stops)
    (hSep : ∀ t rest, sep t = true → stops (t :: rest)) {l : List τ} {as : List α}
    (h : Trailing (fun t => sep t = true) L l as) : ∀ {n : Nat} {read : List α} {rest : List τ},
      l.length ≤ n → l.length ≤ bound → stops rest → Ends sep rest →
        operands sep p n read (l ++ rest) = .ok (read ++ as, rest) := by
  induction h with
  | nil =>
      intro n read rest _ _ _ hEnds
      rw [List.append_nil, List.nil_append]
      cases n with
      | zero => rfl
      | succ n =>
          cases rest with
          | nil => rfl
          | cons t rest =>
              unfold operands
              rw [if_neg (by rw [hEnds t rfl]; exact Bool.false_ne_true)]
  | @cons first later s a as hIs hItem hLater ih =>
      intro n read rest hn hBound hStops hEnds
      rw [List.length_cons, List.length_append] at hn hBound
      cases n with
      | zero => omega
      | succ n =>
          rw [List.cons_append, List.append_assoc]
          unfold operands
          have hAfter : stops (later ++ rest) := by
            cases hLater with
            | nil => exact hStops
            | cons hNext _ _ => exact hSep _ _ hNext
          rw [if_pos hIs, hp first a (later ++ rest) hItem (by omega) hAfter]
          dsimp only
          rw [ih (by omega) (by omega) hStops hEnds, List.append_assoc]
          rfl

/-! ## Lists with a closing token -/

/-- Items with a separator after each but, perhaps, the last; an item may depend on those before. -/
inductive Listed (sep : τ → Prop) (L : List α → List τ → α → Prop) : List α → List τ → List α → Prop
  | nil {read : List α} : Listed sep L read [] []
  | last {read : List α} {l : List τ} {a : α} : L read l a → Listed sep L read l [a]
  | more {read : List α} {l l' : List τ} {s : τ} {a : α} {as : List α} :
      L read l a → sep s → Listed sep L (read ++ [a]) l' as → Listed sep L read (l ++ s :: l') (a :: as)

/-- The loop over the items up to the closing token; the number bounds its rounds. -/
def listed (close sep : τ → Bool) (item : List α → Parse τ ε α) : Nat → List α → Parse τ ε (List α)
  | 0, read, input => .ok (read, input)
  | n + 1, read, input =>
      if input.head?.any close then .ok (read, input)
      else
        match item read input with
        | .error e => .error e
        | .ok (a, rest) =>
            match rest with
            | [] => .ok (read ++ [a], [])
            | t :: after =>
                if sep t then listed close sep item n (read ++ [a]) after
                else .ok (read ++ [a], t :: after)

theorem listed_sound {close sep : τ → Bool} {item : List α → Parse τ ε α}
    {L : List α → List τ → α → Prop} (hItem : ∀ read, Sound (item read) (L read)) :
    ∀ {n : Nat} {read : List α} {input : List τ} {as : List α} {rest : List τ},
      listed close sep item n read input = .ok (as, rest) →
        ∃ l as', input = l ++ rest ∧ as = read ++ as' ∧ Listed (fun t => sep t = true) L read l as' := by
  intro n
  induction n with
  | zero =>
      intro read input as rest h
      have hBoth := Except.ok.inj h
      refine ⟨[], [], congrArg Prod.snd hBoth, ?_, .nil⟩
      rw [List.append_nil]
      exact (congrArg Prod.fst hBoth).symm
  | succ n ih =>
      intro read input as rest h
      unfold listed at h
      by_cases hClose : input.head?.any close = true
      · rw [if_pos hClose] at h
        have hBoth := Except.ok.inj h
        refine ⟨[], [], congrArg Prod.snd hBoth, ?_, .nil⟩
        rw [List.append_nil]
        exact (congrArg Prod.fst hBoth).symm
      · rw [if_neg hClose] at h
        cases hOne : item read input with
        | error e =>
            rw [hOne] at h
            cases h
        | ok one =>
            obtain ⟨a, after⟩ := one
            rw [hOne] at h
            obtain ⟨first, hInput, hFirst⟩ := hItem read input a after hOne
            cases after with
            | nil =>
                have hBoth := Except.ok.inj h
                refine ⟨first, [a], ?_, (congrArg Prod.fst hBoth).symm, .last hFirst⟩
                rw [hInput, show [] = rest from congrArg Prod.snd hBoth]
            | cons t after =>
                dsimp only at h
                by_cases hSep : sep t = true
                · rw [if_pos hSep] at h
                  obtain ⟨l, as', hAfter, hAs, hListed⟩ := ih h
                  refine ⟨first ++ t :: l, a :: as', ?_, ?_, .more hFirst hSep hListed⟩
                  · rw [hInput, hAfter, List.append_assoc]
                    rfl
                  · rw [hAs, List.append_assoc]
                    rfl
                · rw [if_neg hSep] at h
                  have hBoth := Except.ok.inj h
                  refine ⟨first, [a], ?_, (congrArg Prod.fst hBoth).symm, .last hFirst⟩
                  rw [hInput, show t :: after = rest from congrArg Prod.snd hBoth]

theorem listed_complete {close sep : τ → Bool} {item : List α → Parse τ ε α}
    {L : List α → List τ → α → Prop} {stops : List τ → Prop} {bound : Nat}
    (hItem : ∀ read, Complete bound (item read) (L read) stops)
    (hStart : ∀ read l a, L read l a → ∃ t rest, l = t :: rest ∧ close t = false)
    (hApart : ∀ t, close t = true → sep t = false)
    (hSep : ∀ t rest, sep t = true → stops (t :: rest))
    (hClose : ∀ t rest, close t = true → stops (t :: rest)) {read : List α} {l : List τ} {as : List α}
    (h : Listed (fun t => sep t = true) L read l as) : ∀ {n : Nat} {t : τ} {rest : List τ},
      l.length < n → l.length ≤ bound → close t = true →
        listed close sep item n read (l ++ t :: rest) = .ok (read ++ as, t :: rest) := by
  induction h with
  | nil =>
      intro n t rest hn _ hIs
      cases n with
      | zero => omega
      | succ n =>
          unfold listed
          rw [List.nil_append, List.append_nil, if_pos (show (t :: rest).head?.any close = true from hIs)]
  | @last read first a hFirst =>
      intro n t rest hn hBound hIs
      obtain ⟨s, after, hL, hNot⟩ := hStart read first a hFirst
      cases n with
      | zero => omega
      | succ n =>
          unfold listed
          have hOpen : ¬ (first ++ t :: rest).head?.any close = true := by
            rw [hL]
            show ¬ close s = true
            rw [hNot]
            exact Bool.false_ne_true
          rw [if_neg hOpen, hItem read first a (t :: rest) hFirst hBound (hClose t rest hIs)]
          dsimp only
          rw [if_neg (by rw [hApart t hIs]; exact Bool.false_ne_true)]
  | @more read first later s a as hFirst hIsSep _ ih =>
      intro n t rest hn hBound hIs
      rw [List.length_append, List.length_cons] at hn hBound
      obtain ⟨s', after, hL, hNot⟩ := hStart read first a hFirst
      cases n with
      | zero => omega
      | succ n =>
          rw [List.append_assoc, List.cons_append]
          unfold listed
          have hOpen : ¬ (first ++ s :: (later ++ t :: rest)).head?.any close = true := by
            rw [hL]
            show ¬ close s' = true
            rw [hNot]
            exact Bool.false_ne_true
          rw [if_neg hOpen, hItem read first a _ hFirst (by omega) (hSep s _ hIsSep)]
          dsimp only
          rw [if_pos hIsSep, ih (by omega) (by omega) hIs, List.append_assoc]
          rfl

end Parsing
