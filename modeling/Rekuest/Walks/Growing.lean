import Mathlib.Data.List.Basic

/-!
# Passes that only add to a log

A checker is a composition of passes over a state with a log.  When every pass only adds to
the log, what one of them shows there lasts to the end: a property of logs that holds of
longer ones too is shown by the whole if one pass shows it.
-/

namespace Walks

section

variable {σ ε α : Type}

/-- A pass that takes nothing from the log. -/
def Grows (log : σ → List ε) (f : σ → σ) : Prop := ∀ s, log s <+: log (f s)

/-- A property of logs that what is added later leaves true. -/
def Lasts (R : List ε → Prop) : Prop := ∀ ⦃l l' : List ε⦄, l <+: l' → R l → R l'

/-- A pass whose log has a property, whatever stood there before. -/
def Shows (log : σ → List ε) (f : σ → σ) (R : List ε → Prop) : Prop := ∀ s, R (log (f s))

variable {log : σ → List ε} {f g : σ → σ} {R : List ε → Prop}

namespace Grows

theorem refl : Grows log fun s => s := fun _ => List.prefix_rfl

theorem comp (hg : Grows log g) (hf : Grows log f) : Grows log fun s => g (f s) :=
  fun s => (hf s).trans (hg (f s))

/-- A pass for each element of a list, one after the other. -/
theorem foldl {step : σ → α → σ} {l : List α} (h : ∀ a ∈ l, Grows log fun s => step s a) :
    Grows log fun s => l.foldl step s := by
  induction l with
  | nil => exact refl
  | cons a rest ih =>
      obtain ⟨hHead, hRest⟩ := List.forall_mem_cons.1 h
      intro s
      show log s <+: log (rest.foldl step (step s a))
      exact (hHead s).trans (ih hRest (step s a))

end Grows

namespace Lasts

/-- An entry of the log stays there. -/
theorem entry {P : ε → Prop} : Lasts fun l : List ε => ∃ e ∈ l, P e := by
  intro l l' hLonger hEntry
  obtain ⟨e, he, hP⟩ := hEntry
  exact ⟨e, hLonger.subset he, hP⟩

/-- What a log without bad entries says, when it lasts. -/
theorem of_clean {bad : ε → Prop} (hR : Lasts R) : Lasts fun l => (∀ e ∈ l, ¬ bad e) → R l := by
  intro l l' hLonger hBefore hClean
  apply hR hLonger
  apply hBefore
  intro e he
  exact hClean e (hLonger.subset he)

end Lasts

namespace Shows

theorem after (hg : Shows log g R) : Shows log (fun s => g (f s)) R := fun s => hg (f s)

/-- What a pass shows is there after the next. -/
theorem before (hR : Lasts R) (hg : Grows log g) (hf : Shows log f R) :
    Shows log (fun s => g (f s)) R :=
  fun s => hR (hg (f s)) (hf s)

theorem mono {R' : List ε → Prop} (hR : ∀ l, R l → R' l) (hf : Shows log f R) : Shows log f R' :=
  fun s => hR _ (hf s)

/-- What the pass of one element shows, the passes of all of them show. -/
theorem foldl {step : σ → α → σ} {l : List α} (hR : Lasts R) (h : ∀ a ∈ l, Grows log fun s => step s a)
    {a : α} (ha : a ∈ l) (hShows : Shows log (fun s => step s a) R) :
    Shows log (fun s => l.foldl step s) R := by
  induction l with
  | nil => cases ha
  | cons b rest ih =>
      obtain ⟨-, hRest⟩ := List.forall_mem_cons.1 h
      intro s
      show R (log (rest.foldl step (step s b)))
      cases ha with
      | head => exact hR (Grows.foldl hRest (step s a)) (hShows s)
      | tail _ ha => exact ih hRest ha (step s b)

end Shows

end

end Walks
