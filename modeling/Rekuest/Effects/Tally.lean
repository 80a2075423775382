import Mathlib.Data.List.Basic
import Mathlib.Data.List.Forall2

/-!
# Runs that refuse or tally

A program that fails or answers, and counts on the way what it passed over.
Run strictly it fails at the first thing that is wrong; run leniently it
tallies it and goes on.  `Tells` is what the lenient run says about the strict
one, with a rule for each way to put programs together.
-/

namespace Rekuest.Effects

/-- A run that fails or answers, with a tally as its only state. -/
abbrev Tally (ε : Type) : Type → Type := ExceptT ε (StateM Nat)

namespace Tally

variable {ε α β γ δ : Type}

/-- What a run answers, and the tally it leaves. -/
def outcome (x : Tally ε α) (n : Nat) : Except ε α × Nat := x.run.run n

/-- Tally one thing. -/
def note : Tally ε Unit := modify (· + 1)

/-- A result that needs no tally. -/
def ofExcept (r : Except ε α) : Tally ε α := ExceptT.mk (pure r)

@[simp] theorem outcome_pure (a : α) (n : Nat) :
    outcome (pure a : Tally ε α) n = (.ok a, n) := rfl

@[simp] theorem outcome_throw (e : ε) (n : Nat) :
    outcome (throw e : Tally ε α) n = (.error e, n) := rfl

@[simp] theorem outcome_note (n : Nat) :
    outcome (note : Tally ε Unit) n = (.ok (), n + 1) := rfl

@[simp] theorem outcome_ofExcept (r : Except ε α) (n : Nat) :
    outcome (ofExcept r) n = (r, n) := rfl

theorem outcome_bind (x : Tally ε α) (f : α → Tally ε β) (n : Nat) :
    outcome (x >>= f) n =
      match outcome x n with
      | (.ok a, m) => outcome (f a) m
      | (.error e, m) => (.error e, m) := by
  simp only [outcome, ExceptT.run_bind, StateT.run_bind]
  rcases StateT.run (ExceptT.run x) n with ⟨_ | _, m⟩ <;> simp <;> rfl

theorem outcome_tryCatch (x : Tally ε α) (h : ε → Tally ε α) (n : Nat) :
    outcome (tryCatch x h) n =
      match outcome x n with
      | (.ok a, m) => (.ok a, m)
      | (.error e, m) => outcome (h e) m := by
  simp only [outcome, ExceptT.run_tryCatch, StateT.run_bind]
  rcases StateT.run (ExceptT.run x) n with ⟨_ | _, m⟩ <;> simp <;> rfl

/-! ## What a run can answer -/

/-- A run can answer `a`, from some tally. -/
def Answers (x : Tally ε α) (a : α) : Prop := ∃ n m, outcome x n = (.ok a, m)

theorem answers_pure {a b : α} : Answers (pure a : Tally ε α) b ↔ a = b := by
  simp [Answers]

theorem answers_ofExcept {r : Except ε α} {a : α} : Answers (ofExcept r) a ↔ r = .ok a := by
  simp [Answers]

theorem not_answers_throw {e : ε} {a : α} : ¬ Answers (throw e : Tally ε α) a := by
  simp [Answers]

/-- A run that answers went through its first half. -/
theorem Answers.of_bind {x : Tally ε α} {f : α → Tally ε β} {b : β}
    (h : Answers (x >>= f) b) : ∃ a, Answers x a ∧ Answers (f a) b := by
  obtain ⟨n, m, hRun⟩ := h
  rw [outcome_bind] at hRun
  rcases hx : outcome x n with ⟨e | a, k⟩
  · simp [hx] at hRun
  · simp only [hx] at hRun
    exact ⟨a, ⟨n, k, hx⟩, ⟨k, m, hRun⟩⟩

/-- A run that answers either did so without its handler or by it. -/
theorem Answers.of_tryCatch {x : Tally ε α} {h : ε → Tally ε α} {a : α}
    (hRun : Answers (tryCatch x h) a) : Answers x a ∨ ∃ e, Answers (h e) a := by
  obtain ⟨n, m, hRun⟩ := hRun
  rw [outcome_tryCatch] at hRun
  rcases hx : outcome x n with ⟨e | b, k⟩
  · simp only [hx] at hRun
    exact .inr ⟨e, k, m, hRun⟩
  · simp only [hx, Prod.mk.injEq, Except.ok.injEq] at hRun
    obtain ⟨rfl, rfl⟩ := hRun
    exact .inl ⟨n, k, hx⟩

/-- What each round of a loop keeps holds of what the loop answers.  The
invariant may speak of the items gone through. -/
theorem Answers.of_foldlM {step : β → α → Tally ε β} {l : List α} {init last : β}
    (Inv : List α → β → Prop)
    (hStep : ∀ done a b b', a ∈ l → Inv done b → Answers (step b a) b' → Inv (done ++ [a]) b')
    (hInit : Inv [] init) (hRun : Answers (l.foldlM step init) last) : Inv l last := by
  have hRest : ∀ (rest done : List α) (b : β), (∀ a ∈ rest, a ∈ l) → Inv done b →
      Answers (rest.foldlM step b) last → Inv (done ++ rest) last := by
    intro rest
    induction rest with
    | nil =>
        intro done b _ hInv hRun
        rw [List.foldlM_nil] at hRun
        rw [← answers_pure.1 hRun]
        simpa using hInv
    | cons a rest ih =>
        intro done b hMem hInv hRun
        rw [List.foldlM_cons] at hRun
        obtain ⟨b', hFirst, hRun⟩ := hRun.of_bind
        have hNext := hStep done a b b' (hMem a (by simp)) hInv hFirst
        have hLast := ih (done ++ [a]) b' (fun c hc => hMem c (by simp [hc])) hNext hRun
        simpa using hLast
  simpa using hRest l [] init (fun _ h => h) hInit hRun

/-- What a loop that collects answers came from. -/
theorem Answers.of_mapM {f : α → Tally ε β} {l : List α} {l' : List β} (h : Answers (l.mapM f) l') :
    ∀ b ∈ l', ∃ a ∈ l, Answers (f a) b := by
  induction l generalizing l' with
  | nil =>
      rw [List.mapM_nil] at h
      rw [← answers_pure.1 h]
      intro b hb
      cases hb
  | cons a l ih =>
      rw [List.mapM_cons] at h
      obtain ⟨first, hFirst, h⟩ := h.of_bind
      obtain ⟨rest, hRest, h⟩ := h.of_bind
      rw [← answers_pure.1 h]
      intro b hb
      rcases List.mem_cons.1 hb with rfl | hb
      · exact ⟨a, by simp, hFirst⟩
      · obtain ⟨c, hMem, hAnswer⟩ := ih hRest b hb
        exact ⟨c, List.mem_cons_of_mem _ hMem, hAnswer⟩

/-! ## A tally only grows -/

/-- A run never takes anything off the tally. -/
def Grows (x : Tally ε α) : Prop := ∀ n, n ≤ (outcome x n).2

theorem grows_pure (a : α) : Grows (pure a : Tally ε α) := fun _ => Nat.le_refl _

theorem grows_ofExcept (r : Except ε α) : Grows (ofExcept r) := fun _ => Nat.le_refl _

theorem grows_throw (e : ε) : Grows (throw e : Tally ε α) := fun _ => Nat.le_refl _

theorem grows_note : Grows (note : Tally ε Unit) := fun n => Nat.le_succ n

theorem Grows.bind {x : Tally ε α} {f : α → Tally ε β} (hx : Grows x) (hf : ∀ a, Grows (f a)) :
    Grows (x >>= f) := by
  intro n
  have hFirst := hx n
  rw [outcome_bind]
  rcases h : outcome x n with ⟨e | a, m⟩
  · simpa [h] using hFirst
  · rw [h] at hFirst
    exact Nat.le_trans hFirst (hf a m)

theorem Grows.tryCatch {x : Tally ε α} {h : ε → Tally ε α} (hx : Grows x)
    (hh : ∀ e, Grows (h e)) : Grows (tryCatch x h) := by
  intro n
  have hFirst := hx n
  rw [outcome_tryCatch]
  rcases hRun : outcome x n with ⟨e | a, m⟩
  · rw [hRun] at hFirst
    exact Nat.le_trans hFirst (hh e m)
  · simpa [hRun] using hFirst

theorem Grows.foldlM {step : β → α → Tally ε β} (h : ∀ b a, Grows (step b a)) (l : List α)
    (init : β) : Grows (l.foldlM step init) := by
  induction l generalizing init with
  | nil => exact grows_pure init
  | cons a l ih =>
      rw [List.foldlM_cons]
      exact (h init a).bind ih

theorem Grows.mapM {f : α → Tally ε β} (h : ∀ a, Grows (f a)) (l : List α) :
    Grows (l.mapM f) := by
  induction l with
  | nil => exact grows_pure []
  | cons a l ih =>
      rw [List.mapM_cons]
      exact (h a).bind fun b => ih.bind fun rest => grows_pure (b :: rest)

/-! ## What a lenient run says about the strict one -/

/-- A run that answers has tallied something. -/
def Misses (x : Tally ε α) : Prop := ∀ n a m, outcome x n = (.ok a, m) → n < m

/-- Where the strict run answers, the lenient one answers alike and tallies
nothing; where it fails, the lenient one fails or tallies something. -/
def Tells (R : α → β → Prop) (strict : Tally ε α) (lenient : Tally ε β) : Prop :=
  ∀ n m, match (outcome strict n).1 with
    | .ok a => ∃ b, outcome lenient m = (.ok b, m) ∧ R a b
    | .error _ => ∀ b k, outcome lenient m = (.ok b, k) → m < k

variable {R : α → β → Prop} {S : γ → δ → Prop}

theorem tells_pure {a : α} {b : β} (h : R a b) :
    Tells R (pure a : Tally ε α) (pure b) := fun _ _ => ⟨b, rfl, h⟩

theorem tells_throw (e e' : ε) : Tells R (throw e : Tally ε α) (throw e') := by
  intro n m b k hRun
  simp at hRun

theorem tells_ofExcept (r : Except ε α) : Tells Eq (ofExcept r) (ofExcept r) := by
  intro n m
  cases r with
  | error e =>
      intro b k hRun
      simp at hRun
  | ok a => exact ⟨a, rfl, rfl⟩

theorem misses_throw (e : ε) : Misses (throw e : Tally ε α) := by
  intro n a m hRun
  simp at hRun

theorem misses_note_bind {f : Unit → Tally ε α} (hf : Grows (f ())) :
    Misses (note >>= f) := by
  intro n a m hRun
  have hRest : outcome (f ()) (n + 1) = (.ok a, m) := by
    simpa only [outcome_bind, outcome_note] using hRun
  have hLe := hf (n + 1)
  rw [hRest] at hLe
  exact hLe

theorem Tells.mono {R' : α → β → Prop} {x : Tally ε α} {x' : Tally ε β} (h : Tells R x x')
    (hR : ∀ a b, R a b → R' a b) : Tells R' x x' := by
  intro n m
  have hTells := h n m
  rcases hStrict : outcome x n with ⟨e | a, k⟩
  · rw [hStrict] at hTells
    exact hTells
  · rw [hStrict] at hTells
    obtain ⟨b, hLenient, hRel⟩ := hTells
    exact ⟨b, hLenient, hR a b hRel⟩

/-- Two runs in a row.  Once the strict one has failed the lenient one goes on
alone, so that all its continuations have to keep the tally. -/
theorem Tells.bind {x : Tally ε α} {x' : Tally ε β} {f : α → Tally ε γ} {f' : β → Tally ε δ}
    (hx : Tells R x x') (hf : ∀ a b, R a b → Tells S (f a) (f' b))
    (hGrows : ∀ b, Grows (f' b)) : Tells S (x >>= f) (x' >>= f') := by
  intro n m
  have hFirst := hx n m
  rw [outcome_bind]
  rcases hStrict : outcome x n with ⟨e | a, k⟩
  · rw [hStrict] at hFirst
    intro d last hRun
    rw [outcome_bind] at hRun
    rcases hLenient : outcome x' m with ⟨e' | b, k'⟩
    · simp [hLenient] at hRun
    · simp only [hLenient] at hRun
      have hLt := hFirst b k' hLenient
      have hLe := hGrows b k'
      rw [hRun] at hLe
      exact Nat.lt_of_lt_of_le hLt hLe
  · rw [hStrict] at hFirst
    obtain ⟨b, hLenient, hR⟩ := hFirst
    have hSecond := hf a b hR k m
    simp only [outcome_bind, hLenient]
    exact hSecond

/-- A failure the strict run hands on and the lenient one answers for, at the
price of its tally. -/
theorem Tells.tryCatch {x : Tally ε α} {x' : Tally ε β} {h : ε → Tally ε α}
    {h' : ε → Tally ε β} (hx : Tells R x x') (hGrows : Grows x') (hh : ∀ e a, ¬ Answers (h e) a)
    (hh' : ∀ e, Misses (h' e)) : Tells R (tryCatch x h) (tryCatch x' h') := by
  intro n m
  have hFirst := hx n m
  rw [outcome_tryCatch]
  rcases hStrict : outcome x n with ⟨e | a, k⟩
  · rw [hStrict] at hFirst
    rcases hHandled : outcome (h e) k with ⟨e' | c, last⟩
    · simp only [hHandled]
      intro b j hRun
      rw [outcome_tryCatch] at hRun
      have hLe := hGrows m
      rcases hLenient : outcome x' m with ⟨e' | b', k'⟩
      · rw [hLenient] at hLe hRun
        exact Nat.lt_of_le_of_lt hLe (hh' e' k' b j hRun)
      · simp only [hLenient, Prod.mk.injEq] at hRun
        obtain ⟨-, rfl⟩ := hRun
        exact hFirst b' k' hLenient
    · exact absurd ⟨k, last, hHandled⟩ (hh e c)
  · rw [hStrict] at hFirst
    obtain ⟨b, hLenient, hR⟩ := hFirst
    simp only [outcome_tryCatch, hLenient]
    exact ⟨b, rfl, hR⟩

/-- A loop over the same items. -/
theorem Tells.foldlM {σ : Type} {step : α → σ → Tally ε α} {step' : β → σ → Tally ε β}
    (hStep : ∀ a b s, R a b → Tells R (step a s) (step' b s))
    (hGrows : ∀ b s, Grows (step' b s)) (l : List σ) {a : α} {b : β} (hR : R a b) :
    Tells R (l.foldlM step a) (l.foldlM step' b) := by
  induction l generalizing a b with
  | nil => exact tells_pure hR
  | cons s l ih =>
      rw [List.foldlM_cons, List.foldlM_cons]
      exact (hStep a b s hR).bind (fun _ _ => ih) (Grows.foldlM hGrows l)

theorem Tells.mapM {σ : Type} {f : σ → Tally ε α} {f' : σ → Tally ε β}
    (h : ∀ s, Tells R (f s) (f' s)) (hGrows : ∀ s, Grows (f' s)) (l : List σ) :
    Tells (List.Forall₂ R) (l.mapM f) (l.mapM f') := by
  induction l with
  | nil => exact tells_pure .nil
  | cons s l ih =>
      rw [List.mapM_cons, List.mapM_cons]
      refine (h s).bind ?_ fun b => (Grows.mapM hGrows l).bind fun rest => grows_pure (b :: rest)
      intro a b hR
      refine ih.bind ?_ fun rest => grows_pure (b :: rest)
      intro rest rest' hRest
      exact tells_pure (.cons hR hRest)

/-- The verdict of the lenient run, from an empty tally. -/
theorem Tells.verdict {x : Tally ε α} {x' : Tally ε β} (h : Tells R x x') :
    ((∃ b, outcome x' 0 = (.ok b, 0)) ↔ ∃ a, (outcome x 0).1 = .ok a) ∧
      ∀ a b, (outcome x 0).1 = .ok a → outcome x' 0 = (.ok b, 0) → R a b := by
  have hTells := h 0 0
  cases hStrict : (outcome x 0).1 with
  | error e =>
      rw [hStrict] at hTells
      refine ⟨⟨?_, ?_⟩, ?_⟩
      · rintro ⟨b, hLenient⟩
        exact absurd (hTells b 0 hLenient) (Nat.lt_irrefl 0)
      · rintro ⟨a, hStrict⟩
        cases hStrict
      · intro a b hStrict
        cases hStrict
  | ok a =>
      rw [hStrict] at hTells
      obtain ⟨b, hLenient, hR⟩ := hTells
      refine ⟨⟨fun _ => ⟨a, rfl⟩, fun _ => ⟨b, hLenient⟩⟩, ?_⟩
      intro a' b' hStrict' hLenient'
      cases hStrict'
      rw [hLenient] at hLenient'
      cases hLenient'
      exact hR

end Tally

end Rekuest.Effects
