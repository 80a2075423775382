import Rekuest.Concurrent.Pool

/-!
# Rely and guarantee for a pool

A thread knows what it read some operations ago; meanwhile other threads move
the state.  A discipline names what survives that (`later`, a preorder), what
holds of the state between any two operations (`inv`), and what a thread must
have established when it runs an operation (`guard`, which also sees how the
thread goes on).  A program is safe when every operation it comes to meets its
guard whatever happened in between.  If the operations under their guards keep
the invariant and move the state to a later one, and every handler is safe,
then along every run every operation that any thread runs meets its guard.
-/

namespace Concurrent

variable {ε ρ σ : Type} {Op : Type 1} {Res : Op → Type}

structure Discipline (M : Machine ε ρ σ Res) where
  inv : σ → Prop
  /-- What a thread may rely on: the state only moves to later ones. -/
  later : σ → σ → Prop
  /-- What the run's condition promises of an operation. -/
  allowed : ε → Op → σ → Prop
  /-- What a thread guarantees when it runs an operation. -/
  guard : (op : Op) → (Res op → Prog Res Unit) → σ → Prop
  later_refl : ∀ s, later s s
  later_trans : ∀ {s₁ s₂ s₃}, later s₁ s₂ → later s₂ s₃ → later s₁ s₃

namespace Discipline

variable {M : Machine ε ρ σ Res} (D : Discipline M)

/-- Every operation the program comes to meets its guard. -/
def Safe : Prog Res Unit → σ → Prop
  | .ret _, _ => True
  | .act op k, s => ∀ s', D.later s s' → D.inv s' →
      D.guard op k s' ∧
        ∀ e, D.allowed e op s' → Safe (k (M.exec e op s').1) (M.exec e op s').2

/-- The operations keep the discipline and the handlers follow it. -/
structure Sound : Prop where
  step : ∀ e op k s, D.inv s → D.guard op k s → D.allowed e op s →
    D.inv (M.exec e op s).2 ∧ D.later s (M.exec e op s).2
  start : ∀ request s, D.inv s → D.Safe (M.handler request) s

/-- The configurations of a pool that follows the discipline. -/
structure Ok (c : Config σ Res) : Prop where
  inv : D.inv c.state
  safe : ∀ p ∈ c.threads, D.Safe p c.state

/-- The condition on a run under which operations are allowed. -/
def Allows : Config σ Res → Choice ε ρ → Prop :=
  Machine.onStep D.allowed

variable {D}

theorem Safe.later {p : Prog Res Unit} {s s' : σ} (h : D.Safe p s)
    (hLater : D.later s s') : D.Safe p s' := by
  cases p with
  | ret => trivial
  | act op k => exact fun t hT hInv => h t (D.later_trans hLater hT) hInv

theorem Ok.guard {c : Config σ Res} {i : Nat} {op : Op}
    {k : Res op → Prog Res Unit} (h : D.Ok c)
    (hHead : c.threads[i]? = some (.act op k)) : D.guard op k c.state :=
  (h.safe _ (List.mem_of_getElem? hHead) _ (D.later_refl _) h.inv).1

/-- **Step lemma** -/
theorem Ok.step {c c' : Config σ Res} {a : Choice ε ρ} (hSound : D.Sound)
    (h : D.Ok c) (hAllowed : D.Allows c a) (hMove : Machine.Moves M c a c') :
    D.Ok c' ∧ D.later c.state c'.state := by
  cases hMove with
  | start request =>
      refine ⟨⟨h.inv, ?_⟩, D.later_refl _⟩
      intro p hp
      rcases List.mem_append.mp hp with hOld | hNew
      · exact h.safe p hOld
      · rw [List.mem_singleton] at hNew
        subst hNew
        exact hSound.start request c.state h.inv
  | step i e op k hHead =>
      have hAllowed := Machine.onStep_step hHead hAllowed
      have hSafe := h.safe _ (List.mem_of_getElem? hHead) _ (D.later_refl _) h.inv
      obtain ⟨hInv, hLater⟩ := hSound.step e op k c.state h.inv hSafe.1 hAllowed
      refine ⟨⟨hInv, ?_⟩, hLater⟩
      intro p hp
      rcases List.mem_or_eq_of_mem_set hp with hOld | rfl
      · exact (h.safe p hOld).later hLater
      · exact hSafe.2 e hAllowed
  | crash i hLt =>
      refine ⟨⟨h.inv, ?_⟩, D.later_refl _⟩
      intro p hp
      rcases List.mem_or_eq_of_mem_set hp with hOld | rfl
      · exact h.safe p hOld
      · trivial

/-- **Run lemma** -/
theorem Ok.run {C : Config σ Res → Choice ε ρ → Prop} {c c' : Config σ Res}
    (hSound : D.Sound) (hC : ∀ c a, C c a → D.Allows c a) (h : D.Ok c)
    (hRun : M.pool.Run C c c') : D.Ok c' :=
  hRun.invariant h fun _ _ _ hOk hStep hNext =>
    (hOk.step hSound (hC _ _ hStep) (Machine.moves_of_next hNext)).1

/-- Along a run the state moves to later ones. -/
theorem Ok.run_later {C : Config σ Res → Choice ε ρ → Prop} {c c' : Config σ Res}
    (hSound : D.Sound) (hC : ∀ c a, C c a → D.Allows c a) (h : D.Ok c)
    (hRun : M.pool.Run C c c') : D.later c.state c'.state :=
  hRun.history (fun a b => D.later a.state b.state) h
    (fun _ _ _ hOk hStep hNext =>
      (hOk.step hSound (hC _ _ hStep) (Machine.moves_of_next hNext)).1)
    (fun _ => D.later_refl _) (fun _ _ _ => D.later_trans)
    (fun _ _ _ hOk hStep hNext =>
      (hOk.step hSound (hC _ _ hStep) (Machine.moves_of_next hNext)).2)

/-- **Invariant rule under a discipline**: a property of configurations that
every guarded step keeps holds along every run. -/
theorem Ok.invariant {C : Config σ Res → Choice ε ρ → Prop}
    {I : Config σ Res → Prop} {c c' : Config σ Res} (hSound : D.Sound)
    (hC : ∀ c a, C c a → D.Allows c a) (h : D.Ok c) (hInit : I c)
    (hStep : ∀ c a c', D.Ok c → I c → C c a → Machine.Moves M c a c' → I c')
    (hRun : M.pool.Run C c c') : I c' :=
  (hRun.invariant (I := fun c => D.Ok c ∧ I c) ⟨h, hInit⟩
    fun c a c' hI hCond hNext =>
      have hMove := Machine.moves_of_next hNext
      ⟨(hI.1.step hSound (hC _ _ hCond) hMove).1,
        hStep c a c' hI.1 hI.2 hCond hMove⟩).2

end Discipline

/-! ## What a thread still owes -/

/-- Whatever the other threads do, the next operation of the program is one of
`Q`, or it leads to a program that owes one.  A thread that owes an operation
runs it unless it stops. -/
inductive Owes (M : Machine ε ρ σ Res) (inv : σ → Prop) (later : σ → σ → Prop)
    (Q : Op → Prop) : Prog Res Unit → σ → Prop
  | now (op : Op) (k : Res op → Prog Res Unit) (s : σ) (h : Q op) :
      Owes M inv later Q (.act op k) s
  | after (op : Op) (k : Res op → Prog Res Unit) (s : σ)
      (h : ∀ s', later s s' → inv s' → ∀ e,
        Owes M inv later Q (k (M.exec e op s').1) (M.exec e op s').2) :
      Owes M inv later Q (.act op k) s

namespace Owes

variable {M : Machine ε ρ σ Res} {inv : σ → Prop} {later : σ → σ → Prop}
variable {Q : Op → Prop} {p : Prog Res Unit} {s s' : σ}

theorem later_state (hTrans : ∀ {s₁ s₂ s₃}, later s₁ s₂ → later s₂ s₃ → later s₁ s₃)
    (h : Owes M inv later Q p s) (hLater : later s s') : Owes M inv later Q p s' := by
  cases h with
  | now op k _ hQ => exact .now op k s' hQ
  | after op k _ hNext =>
      exact .after op k s' fun t hT hInv e => hNext t (hTrans hLater hT) hInv e

theorem not_ret (a : Unit) : ¬ Owes M inv later Q (.ret a) s := nofun

/-- One operation of a thread that owes. -/
theorem step {op : Op} {k : Res op → Prog Res Unit}
    (hRefl : later s s) (hInv : inv s) (h : Owes M inv later Q (.act op k) s) (e : ε) :
    Q op ∨ Owes M inv later Q (k (M.exec e op s).1) (M.exec e op s).2 := by
  cases h with
  | now _ _ _ hQ => exact .inl hQ
  | after _ _ _ hNext => exact .inr (hNext s hRefl hInv e)

end Owes

end Concurrent

/-!
## Monitors

A monitor reads along the operations of a program and remembers what it needs:
which operation it permits next may depend on what the earlier ones answered.
A program follows the monitor when every operation it comes to is permitted,
whatever the operations answered.  In a pool whose handlers follow it, every
thread has something its monitor remembers, and each step moves the memory of
one thread.
-/

namespace Concurrent

variable {ε ρ σ τ α γ : Type} {Op : Type 1} {Res : Op → Type}

structure Monitor (Res : Op → Type) (τ : Type) where
  permits : τ → Op → Prop
  next : τ → (op : Op) → Res op → τ

namespace Monitor

/-- Every operation the program comes to is permitted, whatever the earlier
ones answered in states of `inv`. -/
def Follows (M : Machine ε ρ σ Res) (inv : σ → Prop) (m : Monitor Res τ) :
    Prog Res Unit → τ → Prop
  | .ret _, _ => True
  | .act op k, t => m.permits t op ∧ ∀ e s, inv s →
      Follows M inv m (k (M.exec e op s).1) (m.next t op (M.exec e op s).1)

/-- A program that follows the monitor whatever it remembers. -/
def Always (M : Machine ε ρ σ Res) (inv : σ → Prop) (m : Monitor Res τ)
    (p : Prog Res Unit) : Prop := ∀ t, Follows M inv m p t

variable {M : Machine ε ρ σ Res} {inv : σ → Prop} {m : Monitor Res τ} {t : τ}

theorem follows_act {op : Op} {k : Res op → Prog Res Unit} (hOp : m.permits t op)
    (h : ∀ e s, inv s →
      Follows M inv m (k (M.exec e op s).1) (m.next t op (M.exec e op s).1)) :
    Follows M inv m (.act op k) t := ⟨hOp, h⟩

theorem always_ret {a : Unit} : Always M inv m (.ret a) := fun _ => trivial

theorem always_act {op : Op} {k : Res op → Prog Res Unit} (hOp : ∀ t, m.permits t op)
    (h : ∀ e s, inv s → Always M inv m (k (M.exec e op s).1)) :
    Always M inv m (.act op k) := fun t => ⟨hOp t, fun e s hs => h e s hs _⟩

theorem always_forEach {xs : List γ} {body : γ → Prog Res Unit} {f : Unit → Prog Res Unit}
    (hBody : ∀ x ∈ xs, ∀ g : Unit → Prog Res Unit, Always M inv m (g ()) →
      Always M inv m ((body x).bind g))
    (h : Always M inv m (f ())) : Always M inv m ((Prog.forEach xs body).bind f) := by
  induction xs with
  | nil => exact h
  | cons x rest ih =>
      rw [Prog.forEach_cons, Prog.bind_assoc]
      exact hBody x List.mem_cons_self _ (ih fun y hy => hBody y (List.mem_cons_of_mem _ hy))

/-! ## In a pool -/

/-- Each thread follows the monitor with what that remembers of it. -/
structure Watches (M : Machine ε ρ σ Res) (inv : σ → Prop) (m : Monitor Res τ)
    (threads : List (Prog Res Unit)) (ts : List τ) : Prop where
  length : ts.length = threads.length
  follows : ∀ (i : Nat) (p : Prog Res Unit) (t : τ), threads[i]? = some p → ts[i]? = some t → Follows M inv m p t

variable {threads : List (Prog Res Unit)} {ts : List τ} {i : Nat}

theorem Watches.start (h : Watches M inv m threads ts) {p : Prog Res Unit}
    (hp : Follows M inv m p t) : Watches M inv m (threads ++ [p]) (ts ++ [t]) where
  length := by simp [h.length]
  follows := by
    intro j q u hq hu
    rcases Nat.lt_or_ge j threads.length with hLt | hGe
    · rw [List.getElem?_append_left hLt] at hq
      rw [List.getElem?_append_left (h.length ▸ hLt)] at hu
      exact h.follows j q u hq hu
    · rw [List.getElem?_append_right hGe, List.getElem?_singleton] at hq
      rw [List.getElem?_append_right (h.length ▸ hGe), List.getElem?_singleton, h.length] at hu
      split at hq
      case isTrue hEq =>
        rw [if_pos hEq] at hu
        cases hq
        cases hu
        exact hp
      case isFalse => cases hq

/-- The thread that runs an operation is permitted to. -/
theorem Watches.head (h : Watches M inv m threads ts) {op : Op}
    {k : Res op → Prog Res Unit} (hHead : threads[i]? = some (.act op k)) :
    ∃ t, ts[i]? = some t ∧ Follows M inv m (.act op k) t := by
  have hLt : i < ts.length := h.length ▸ (List.getElem?_eq_some_iff.mp hHead).1
  have hGet : ts[i]? = some ts[i] := List.getElem?_eq_getElem hLt
  exact ⟨ts[i], hGet, h.follows i _ _ hHead hGet⟩

theorem Watches.set (h : Watches M inv m threads ts) {p : Prog Res Unit}
    (hp : Follows M inv m p t) : Watches M inv m (threads.set i p) (ts.set i t) where
  length := by simp [h.length]
  follows := by
    intro j q u hq hu
    rcases thread_set hq with ⟨rfl, rfl⟩ | ⟨hNe, hOld⟩
    · rw [List.getElem?_set_self' ] at hu
      cases hOld : ts[j]? with
      | none => simp [hOld] at hu
      | some t' =>
          rw [hOld] at hu
          cases hu
          exact hp
    · rw [List.getElem?_set_ne (Ne.symm hNe)] at hu
      exact h.follows j q u hOld hu

theorem Watches.crash (h : Watches M inv m threads ts) :
    Watches M inv m (threads.set i (.ret ())) ts where
  length := by simp [h.length]
  follows := by
    intro j q u hq hu
    rcases thread_set hq with ⟨-, rfl⟩ | ⟨-, hOld⟩
    · trivial
    · exact h.follows j q u hOld hu

/-- **Run lemma**: what holds of the state beside what the monitor remembers of
each thread, and is kept by every permitted operation that meets the condition,
holds along every run of handlers that follow the monitor from `t₀`. -/
theorem Watches.run {C : Config σ Res → Choice ε ρ → Prop} {D : ε → Op → σ → Prop}
    {I : σ → List τ → Prop} {t₀ : τ} {c c' : Config σ Res}
    (hHandler : ∀ request, Follows M inv m (M.handler request) t₀)
    (hC : ∀ c a, C c a → Machine.onStep D c a) (hInv : ∀ s ts, I s ts → inv s)
    (hStart : ∀ s ts, I s ts → I s (ts ++ [t₀]))
    (hStep : ∀ e op s i t ts, I s ts → ts[i]? = some t → m.permits t op → D e op s →
      I (M.exec e op s).2 (ts.set i (m.next t op (M.exec e op s).1)))
    (h : Watches M inv m c.threads ts) (hI : I c.state ts) (hRun : M.pool.Run C c c') :
    ∃ ts', Watches M inv m c'.threads ts' ∧ I c'.state ts' := by
  induction hRun with
  | refl => exact ⟨ts, h, hI⟩
  | step _ hCond hNext ih =>
      obtain ⟨ts', hWatches, hOld⟩ := ih
      cases Machine.moves_of_next hNext with
      | start request => exact ⟨_, hWatches.start (hHandler request), hStart _ _ hOld⟩
      | crash i _ => exact ⟨_, hWatches.crash, hOld⟩
      | step i e op k hHead =>
          obtain ⟨t, hGet, hFollows⟩ := hWatches.head hHead
          have hMeets : D e op _ := Machine.onStep_step hHead (hC _ _ hCond)
          exact ⟨_, hWatches.set (hFollows.2 e _ (hInv _ _ hOld)),
            hStep e op _ i t ts' hOld hGet hFollows.1 hMeets⟩

end Monitor

/-! ## Counting along a run -/

section

universe u v

variable {σ : Type u} {α : Type v} {S : System σ α} {weigh : σ → α → Nat}

/-- The system with a counter beside its state, which each step adds to. -/
def System.counted (S : System σ α) (weigh : σ → α → Nat) : System (σ × Nat) α where
  next s a := (S.next s.1 a).map fun s' => (s', s.2 + weigh s.1 a)

theorem System.counted_next {s s' : σ} {n n' : Nat} {a : α}
    (h : (S.counted weigh).next (s, n) a = some (s', n')) :
    S.next s a = some s' ∧ n' = n + weigh s a := by
  obtain ⟨s'', hNext, hEq⟩ := Option.map_eq_some_iff.mp h
  cases hEq
  exact ⟨hNext, rfl⟩

/-- Every run is a run that counts. -/
theorem System.Run.counted {C : σ → α → Prop} {s₀ s : σ} (h : S.Run C s₀ s) :
    ∃ n, (S.counted weigh).Run (fun s a => C s.1 a) (s₀, 0) (s, n) := by
  induction h with
  | refl => exact ⟨0, .refl⟩
  | @step s s' a _ hC hNext ih =>
      obtain ⟨n, hRun⟩ := ih
      exact ⟨n + weigh s a, hRun.step (s := (s, n)) hC (by simp [System.counted, hNext])⟩

end

end Concurrent
