import Mathlib.Logic.Relation

/-!
# Labelled partial systems and their runs

A system steps by a partial function of its state and of a label: the label
resolves every choice (who moves, what the clock reads), so a list of labels
replays to at most one run.  A run is restricted by a condition on the state
before a step and on its label, which is how a property that fails in general
is stated for the runs that avoid the failure.
-/

namespace Concurrent

universe u v

/-- A transition system whose step is a partial function of state and label. -/
structure System (σ : Type u) (α : Type v) where
  next : σ → α → Option σ

namespace System

variable {σ : Type u} {α : Type v} {S : System σ α} {C D : σ → α → Prop}
variable {s s₀ s₁ s₂ : σ}

/-- `S.Run C s₀ s`: some sequence of steps, each meeting `C`, leads from `s₀`
to `s`. -/
inductive Run (S : System σ α) (C : σ → α → Prop) (s₀ : σ) : σ → Prop
  | refl : Run S C s₀ s₀
  | step {s s' : σ} {a : α} : Run S C s₀ s → C s a → S.next s a = some s' →
      Run S C s₀ s'

/-- The condition every step meets. -/
def anyStep : σ → α → Prop := fun _ _ => True

instance (s : σ) (a : α) : Decidable (anyStep s a) := isTrue trivial

theorem Run.trans (h₁ : S.Run C s₀ s₁) (h₂ : S.Run C s₁ s₂) : S.Run C s₀ s₂ := by
  induction h₂ with
  | refl => exact h₁
  | step _ hC hNext ih => exact ih.step hC hNext

theorem Run.mono (h : S.Run C s₀ s) (hCD : ∀ s a, C s a → D s a) :
    S.Run D s₀ s := by
  induction h with
  | refl => exact .refl
  | step _ hC hNext ih => exact ih.step (hCD _ _ hC) hNext

/-- **Invariant rule**: what holds at the start and is kept by every step that
meets the condition holds in every state of the run. -/
theorem Run.invariant {I : σ → Prop} (h : S.Run C s₀ s) (hInit : I s₀)
    (hStep : ∀ s a s', I s → C s a → S.next s a = some s' → I s') : I s := by
  induction h with
  | refl => exact hInit
  | step _ hC hNext ih => exact hStep _ _ _ ih hC hNext

/-- **History rule**: a preorder that every step from an invariant state
respects relates the two ends of a run. -/
theorem Run.history {I : σ → Prop} (R : σ → σ → Prop) (h : S.Run C s₀ s)
    (hInit : I s₀)
    (hStep : ∀ s a s', I s → C s a → S.next s a = some s' → I s')
    (hRefl : ∀ s, R s s) (hTrans : ∀ a b c, R a b → R b c → R a c)
    (hRel : ∀ s a s', I s → C s a → S.next s a = some s' → R s s') : R s₀ s := by
  induction h with
  | refl => exact hRefl _
  | step hRun hC hNext ih =>
      have hI := hRun.invariant hInit hStep
      exact hTrans _ _ _ ih (hRel _ _ _ hI hC hNext)

/-- Replay a list of labels, checking the condition before each step. -/
def play (S : System σ α) (C : σ → α → Prop) [∀ s a, Decidable (C s a)] :
    σ → List α → Option σ
  | s, [] => some s
  | s, a :: rest =>
      if C s a then (S.next s a).bind fun s' => play S C s' rest else none

theorem run_of_play [∀ s a, Decidable (C s a)] {labels : List α} :
    ∀ {s s' : σ}, S.play C s labels = some s' → S.Run C s s' := by
  induction labels with
  | nil =>
      intro s s' h
      cases h
      exact .refl
  | cons a rest ih =>
      intro s s' h
      rw [play] at h
      split at h
      case isTrue hC =>
        obtain ⟨mid, hNext, hRest⟩ := Option.bind_eq_some_iff.mp h
        exact Run.trans (.step .refl hC hNext) (ih hRest)
      case isFalse => cases h

/-- A replay whose last state passes a check ends a run in such a state. -/
theorem run_of_play_any (S : System σ α) (C : σ → α → Prop)
    [∀ s a, Decidable (C s a)] (s₀ : σ) (labels : List α) (check : σ → Bool)
    (h : (S.play C s₀ labels).any check = true) :
    ∃ s, S.Run C s₀ s ∧ check s = true := by
  cases hPlay : S.play C s₀ labels with
  | none => simp [hPlay] at h
  | some s =>
      rw [hPlay, Option.any_some] at h
      exact ⟨s, run_of_play hPlay, h⟩

end System

end Concurrent
