import Mathlib.Algebra.BigOperators.Group.List.Basic
import Mathlib.Tactic.Abel
import Rekuest.Concurrent.Pool

/-!
# What threads have in their hands

A shared state keeps an account, and a thread may hold a part of it that the
state does not show: it took something and has not put it down yet.  A custody
says what a thread's hands hold after each of its operations, by what the
operations answered.  If every operation moves as much between the account and
the hands of the thread that runs it, and leaves the other threads' hands alone,
then along every run the account is what is in all hands together; and when
every handler ends with empty hands, it is nothing where all have ended.
-/

namespace Concurrent

variable {ε ρ σ τ α γ : Type} {Op : Type 1} {Res : Op → Type}

structure Custody (M : Machine ε ρ σ Res) (τ α : Type) where
  inv : σ → Prop
  /-- What the run's condition promises of an operation. -/
  allowed : ε → Op → σ → Prop
  /-- With what hands an operation is run. -/
  permits : τ → Op → Prop
  /-- The hands after an operation and its answer. -/
  next : τ → (op : Op) → Res op → τ
  empty : τ
  /-- Hands that fit a state. -/
  fits : σ → τ → Prop
  weight : σ → τ → α
  account : σ → α

/-- A condition on the operations of a run in which no thread is cut off. -/
def Machine.uncut (P : ε → Op → σ → Prop) (c : Config σ Res) : Choice ε ρ → Prop
  | .crash _ => False
  | .start request => Machine.onStep P c (.start request)
  | .step i e => Machine.onStep (ρ := ρ) P c (.step i e)

instance (P : ε → Op → σ → Prop) [∀ e op s, Decidable (P e op s)] (c : Config σ Res)
    (a : Choice ε ρ) : Decidable (Machine.uncut P c a) :=
  match a with
  | .crash _ => isFalse id
  | .start request => inferInstanceAs (Decidable (Machine.onStep P c (.start request)))
  | .step i e => inferInstanceAs (Decidable (Machine.onStep (ρ := ρ) P c (.step i e)))

namespace Custody

variable {M : Machine ε ρ σ Res} (K : Custody M τ α)

/-- The program runs every operation with the hands it takes, and ends with empty
hands. -/
def Follows : Prog Res Unit → τ → Prop
  | .ret _, t => t = K.empty
  | .act op k, t => K.permits t op ∧ ∀ e s, K.inv s → K.fits s t → K.allowed e op s →
      Follows (k (M.exec e op s).1) (K.next t op (M.exec e op s).1)

/-- The operations move the account as they fill and empty hands. -/
structure Sound [AddCommGroup α] : Prop where
  start : ∀ request, K.Follows (M.handler request) K.empty
  fits_empty : ∀ s, K.fits s K.empty
  weight_empty : ∀ s, K.weight s K.empty = 0
  own : ∀ e op s t, K.inv s → K.fits s t → K.permits t op → K.allowed e op s →
    K.inv (M.exec e op s).2 ∧ K.fits (M.exec e op s).2 (K.next t op (M.exec e op s).1) ∧
      K.account (M.exec e op s).2 + K.weight s t =
        K.account s + K.weight (M.exec e op s).2 (K.next t op (M.exec e op s).1)
  others : ∀ e op s t t', K.inv s → K.fits s t → K.permits t op → K.allowed e op s →
    K.fits s t' → K.fits (M.exec e op s).2 t' ∧ K.weight (M.exec e op s).2 t' = K.weight s t'

/-- The condition on a run: its operations are allowed, and no thread stops with
something in its hands. -/
def Allows : Config σ Res → Choice ε ρ → Prop := Machine.uncut K.allowed

/-- Each thread goes on with its hands, and the account is what they hold. -/
structure Balanced [AddCommGroup α] (c : Config σ Res) (hands : List τ) : Prop where
  inv : K.inv c.state
  length : hands.length = c.threads.length
  follows : ∀ (i : Nat) (p : Prog Res Unit) (t : τ), c.threads[i]? = some p → hands[i]? = some t →
    K.Follows p t
  fits : ∀ t ∈ hands, K.fits c.state t
  account : K.account c.state = (hands.map (K.weight c.state)).sum

variable {K}

theorem follows_act {op : Op} {k : Res op → Prog Res Unit} {t : τ} (hOp : K.permits t op)
    (h : ∀ e s, K.inv s → K.fits s t → K.allowed e op s →
      K.Follows (k (M.exec e op s).1) (K.next t op (M.exec e op s).1)) :
    K.Follows (.act op k) t := ⟨hOp, h⟩

/-- A loop whose turns begin and end with the same hands. -/
theorem follows_forEach {xs : List γ} {body : γ → Prog Res Unit} {f : Unit → Prog Res Unit}
    {t : τ} (hBody : ∀ x ∈ xs, ∀ g : Unit → Prog Res Unit, K.Follows (g ()) t →
      K.Follows ((body x).bind g) t)
    (h : K.Follows (f ()) t) : K.Follows ((Prog.forEach xs body).bind f) t := by
  induction xs with
  | nil => exact h
  | cons x rest ih =>
      rw [Prog.forEach_cons, Prog.bind_assoc]
      exact hBody x List.mem_cons_self _ (ih fun y hy => hBody y (List.mem_cons_of_mem _ hy))

section

variable [AddCommGroup α] {c c' : Config σ Res} {a : Choice ε ρ} {hands : List τ}

/-- **Step lemma** -/
theorem Balanced.step (hSound : K.Sound) (h : K.Balanced c hands) (hAllowed : K.Allows c a)
    (hMove : Machine.Moves M c a c') : ∃ hands', K.Balanced c' hands' := by
  cases hMove with
  | crash i hLt => exact hAllowed.elim
  | start request =>
      refine ⟨hands ++ [K.empty], h.inv, by simp [h.length], ?_, ?_, ?_⟩
      · intro i p t hp ht
        rcases Nat.lt_or_ge i c.threads.length with hLt | hGe
        · rw [List.getElem?_append_left hLt] at hp
          rw [List.getElem?_append_left (h.length ▸ hLt)] at ht
          exact h.follows i p t hp ht
        · rw [List.getElem?_append_right hGe, List.getElem?_singleton] at hp
          rw [List.getElem?_append_right (h.length ▸ hGe), List.getElem?_singleton,
            h.length] at ht
          split at hp
          case isTrue hEq =>
            rw [if_pos hEq] at ht
            cases hp
            cases ht
            exact hSound.start request
          case isFalse => cases hp
      · intro t ht
        rcases List.mem_append.mp ht with hOld | hNew
        · exact h.fits t hOld
        · cases List.mem_singleton.mp hNew
          exact hSound.fits_empty _
      · rw [List.map_append, List.sum_append, ← h.account]
        simp [hSound.weight_empty]
  | step i e op k hHead =>
      have hOp : K.allowed e op c.state := Machine.onStep_step (ρ := ρ) hHead hAllowed
      have hLt : i < hands.length := h.length ▸ (List.getElem?_eq_some_iff.mp hHead).1
      have hHand : hands[i]? = some hands[i] := List.getElem?_eq_getElem hLt
      have hFits := h.fits _ (List.mem_of_getElem? hHand)
      obtain ⟨hPermits, hNext⟩ := h.follows i _ _ hHead hHand
      obtain ⟨hInv, hFits', hAccount⟩ := hSound.own e op _ _ h.inv hFits hPermits hOp
      have hOthers : ∀ t ∈ hands, K.fits (M.exec e op c.state).2 t ∧
          K.weight (M.exec e op c.state).2 t = K.weight c.state t := fun t ht =>
        hSound.others e op _ _ t h.inv hFits hPermits hOp (h.fits t ht)
      refine ⟨hands.set i (K.next hands[i] op (M.exec e op c.state).1), hInv,
        by simp [h.length], ?_, ?_, ?_⟩
      · intro j p t hp ht
        rcases thread_set hp with ⟨rfl, rfl⟩ | ⟨hNe, hOld⟩
        · rw [List.getElem?_set_self hLt] at ht
          cases ht
          exact hNext e c.state h.inv hFits hOp
        · rw [List.getElem?_set_ne (Ne.symm hNe)] at ht
          exact h.follows j p t hOld ht
      · intro t ht
        rcases List.mem_or_eq_of_mem_set ht with hOld | rfl
        · exact (hOthers t hOld).1
        · exact hFits'
      · -- the other hands weigh what they weighed
        have hSame : hands.map (K.weight (M.exec e op c.state).2) =
            hands.map (K.weight c.state) :=
          List.map_congr_left fun t ht => (hOthers t ht).2
        rw [List.map_set, hSame, List.sum_set', ← h.account, dif_pos (by simpa using hLt),
          List.getElem_map]
        have hMoved := eq_sub_of_add_eq hAccount
        rw [hMoved]
        abel

/-- **Run lemma** -/
theorem Balanced.run {C : Config σ Res → Choice ε ρ → Prop} (hSound : K.Sound)
    (hC : ∀ c a, C c a → K.Allows c a) (h : K.Balanced c hands) (hRun : M.pool.Run C c c') :
    ∃ hands', K.Balanced c' hands' :=
  hRun.invariant (I := fun c => ∃ hands, K.Balanced c hands) ⟨hands, h⟩
    fun _ _ _ ⟨_, hOld⟩ hStep hNext =>
      hOld.step hSound (hC _ _ hStep) (Machine.moves_of_next hNext)

/-- A thread that has ended has nothing in its hands. -/
theorem Balanced.empty_of_ret (h : K.Balanced c hands) {i : Nat} {t : τ} {b : Unit}
    (hRet : c.threads[i]? = some (.ret b)) (ht : hands[i]? = some t) : t = K.empty :=
  h.follows i _ t hRet ht

theorem balanced_of_idle (hInv : K.inv c.state) (hIdle : c.threads = [])
    (hAccount : K.account c.state = 0) : K.Balanced c [] where
  inv := hInv
  length := by simp [hIdle]
  follows := fun i p t _ ht => by cases ht
  fits := fun t ht => by cases ht
  account := by simpa using hAccount

end

end Custody

end Concurrent
