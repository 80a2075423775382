import Rekuest.Concurrent.Discipline

/-!
# One program beside the others

A program with a result, run by one thread while a pool of other threads goes
on.  Its trace keeps the moments at which the program itself ran an operation,
each with the state it met, so that a statement about one call can speak of
what the call saw and did under every interleaving.
-/

namespace Concurrent

variable {ε ρ σ α β γ : Type} {Op : Type 1} {Res : Op → Type}

/-- One operation a program ran, and the state it met. -/
structure Moment (ε σ : Type) (Op : Type 1) where
  env : ε
  op : Op
  before : σ

/-- The state a moment left. -/
def Moment.after (M : Machine ε ρ σ Res) (m : Moment ε σ Op) : σ :=
  (M.exec m.env m.op m.before).2

/-- The program runs to its result `a`; before each of its operations the others
move by `R`, as often as they like. -/
inductive Beside (M : Machine ε ρ σ Res) (R : Config σ Res → Config σ Res → Prop) :
    Prog Res α → Config σ Res → List (Moment ε σ Op) → α → Config σ Res → Prop
  | ret (a : α) (c : Config σ Res) : Beside M R (.ret a) c [] a c
  | others {p : Prog Res α} {c c₁ c' : Config σ Res} {trace : List (Moment ε σ Op)} {a : α}
      (hMove : R c c₁) (h : Beside M R p c₁ trace a c') : Beside M R p c trace a c'
  | own (e : ε) {op : Op} {k : Res op → Prog Res α} {c c' : Config σ Res}
      {trace : List (Moment ε σ Op)} {a : α}
      (h : Beside M R (k (M.exec e op c.state).1)
        { c with state := (M.exec e op c.state).2 } trace a c') :
      Beside M R (.act op k) c ({ env := e, op := op, before := c.state } :: trace) a c'

/-- The moves of a pool: any step of any thread, a start or a crash. -/
def Machine.others (M : Machine ε ρ σ Res) (c c' : Config σ Res) : Prop :=
  ∃ choice, M.pool.next c choice = some c'

theorem Machine.others_start {M : Machine ε ρ σ Res} (c : Config σ Res) (request : ρ) :
    M.others c { c with threads := c.threads ++ [M.handler request] } :=
  ⟨.start request, rfl⟩

theorem Machine.others_step {M : Machine ε ρ σ Res} {c : Config σ Res} {i : Nat} {op : Op}
    {k : Res op → Prog Res Unit} (hHead : c.threads[i]? = some (.act op k)) (e : ε) :
    M.others c {
      state := (M.exec e op c.state).2
      threads := c.threads.set i (k (M.exec e op c.state).1) } :=
  ⟨.step i e, by simp [Machine.pool, Machine.next, hHead]⟩

theorem Machine.run_of_others {M : Machine ε ρ σ Res} {c c' : Config σ Res}
    (h : Relation.ReflTransGen M.others c c') : M.pool.Run System.anyStep c c' := by
  induction h with
  | refl => exact .refl
  | tail _ hMove ih =>
      obtain ⟨choice, hNext⟩ := hMove
      exact ih.step trivial hNext

/-- The moves of a pool that meet a condition. -/
def Machine.othersMeeting (M : Machine ε ρ σ Res) (C : Config σ Res → Choice ε ρ → Prop)
    (c c' : Config σ Res) : Prop :=
  ∃ choice, C c choice ∧ M.pool.next c choice = some c'

theorem Machine.run_of_othersMeeting {M : Machine ε ρ σ Res}
    {C : Config σ Res → Choice ε ρ → Prop} {c c' : Config σ Res}
    (h : Relation.ReflTransGen (M.othersMeeting C) c c') : M.pool.Run C c c' := by
  induction h with
  | refl => exact .refl
  | tail _ hMove ih =>
      obtain ⟨choice, hC, hNext⟩ := hMove
      exact ih.step hC hNext

/-- Every operation the program may come to meets `P`. -/
def Prog.Only (P : Op → Prop) : Prog Res α → Prop
  | .ret _ => True
  | .act op k => P op ∧ ∀ r, (k r).Only P

theorem Prog.Only.bind {P : Op → Prop} {p : Prog Res α} {f : α → Prog Res β}
    (hp : p.Only P) (hf : ∀ a, (f a).Only P) : (p.bind f).Only P := by
  induction p with
  | ret a => exact hf a
  | act op k ih => exact ⟨hp.1, fun r => ih r (hp.2 r)⟩

namespace Beside

variable {M : Machine ε ρ σ Res} {R S : Config σ Res → Config σ Res → Prop}
variable {c c' : Config σ Res} {trace : List (Moment ε σ Op)}

/-! ## What a run of a program looks like -/

theorem of_ret {a b : α} (h : Beside M R (.ret b) c trace a c') :
    a = b ∧ trace = [] ∧ Relation.ReflTransGen R c c' := by
  generalize hp : Prog.ret b = p at h
  induction h with
  | ret a c =>
      cases hp
      exact ⟨rfl, rfl, .refl⟩
  | others hMove _ ih =>
      obtain ⟨hResult, hTrace, hMoves⟩ := ih hp
      exact ⟨hResult, hTrace, hMoves.head hMove⟩
  | own => cases hp

theorem of_act {op : Op} {k : Res op → Prog Res α} {a : α}
    (h : Beside M R (.act op k) c trace a c') :
    ∃ c₁ e rest, Relation.ReflTransGen R c c₁ ∧
      trace = { env := e, op := op, before := c₁.state } :: rest ∧
      Beside M R (k (M.exec e op c₁.state).1)
        { c₁ with state := (M.exec e op c₁.state).2 } rest a c' := by
  generalize hp : Prog.act op k = p at h
  induction h with
  | ret => cases hp
  | others hMove _ ih =>
      obtain ⟨c₁, e, rest, hMoves, hTrace, hRest⟩ := ih hp
      exact ⟨c₁, e, rest, hMoves.head hMove, hTrace, hRest⟩
  | own e h =>
      cases hp
      exact ⟨_, e, _, .refl, rfl, h⟩

theorem of_bind {p : Prog Res α} {f : α → Prog Res β} {b : β}
    (h : Beside M R (p.bind f) c trace b c') :
    ∃ first a c₁ rest, trace = first ++ rest ∧ Beside M R p c first a c₁ ∧
      Beside M R (f a) c₁ rest b c' := by
  generalize hq : p.bind f = q at h
  induction h generalizing p with
  | ret b c =>
      cases p with
      | ret a =>
          rw [Prog.ret_bind] at hq
          exact ⟨[], a, c, [], rfl, .ret a c, by rw [hq]; exact .ret b c⟩
      | act op k => cases hq
  | others hMove _ ih =>
      obtain ⟨first, a, c₁, rest, hTrace, hFirst, hRest⟩ := ih hq
      exact ⟨first, a, c₁, rest, hTrace, .others hMove hFirst, hRest⟩
  | @own e op k c _ _ _ h ih =>
      cases p with
      | ret a =>
          rw [Prog.ret_bind] at hq
          exact ⟨[], a, c, _, rfl, .ret a c, by rw [hq]; exact .own e h⟩
      | act op' k' =>
          cases hq
          obtain ⟨first, a, c₁, rest, hTrace, hFirst, hRest⟩ := ih rfl
          exact ⟨_ :: first, a, c₁, rest, by rw [hTrace, List.cons_append],
            .own e hFirst, hRest⟩

/-- Each element of a loop has its turn. -/
theorem turn_of_mem {xs : List γ} {body : γ → Prog Res Unit} {a : Unit}
    (h : Beside M R (Prog.forEach xs body) c trace a c') {x : γ} (hx : x ∈ xs) :
    ∃ c₁ turn b c₂, (∀ m ∈ turn, m ∈ trace) ∧ Beside M R (body x) c₁ turn b c₂ := by
  induction xs generalizing c trace with
  | nil => cases hx
  | cons y rest ih =>
      obtain ⟨first, b, c₁, later, hTrace, hFirst, hLater⟩ := of_bind h
      subst hTrace
      rcases List.mem_cons.mp hx with rfl | hx
      · exact ⟨c, first, b, c₁, fun m hm => List.mem_append_left _ hm, hFirst⟩
      · obtain ⟨c₂, turn, b', c₃, hTurn, hBody⟩ := ih hLater hx
        exact ⟨c₂, turn, b', c₃, fun m hm => List.mem_append_right _ (hTurn m hm), hBody⟩

/-- Every moment of a loop is in the turn of one of its elements. -/
theorem mem_turn {xs : List γ} {body : γ → Prog Res Unit} {a : Unit}
    (h : Beside M R (Prog.forEach xs body) c trace a c') {m : Moment ε σ Op}
    (hm : m ∈ trace) :
    ∃ x ∈ xs, ∃ c₁ turn b c₂, m ∈ turn ∧ Beside M R (body x) c₁ turn b c₂ := by
  induction xs generalizing c trace with
  | nil =>
      rw [(of_ret h).2.1] at hm
      cases hm
  | cons y rest ih =>
      obtain ⟨first, b, c₁, later, hTrace, hFirst, hLater⟩ := of_bind h
      subst hTrace
      rcases List.mem_append.mp hm with hm | hm
      · exact ⟨y, List.mem_cons_self, c, first, b, c₁, hm, hFirst⟩
      · obtain ⟨x, hx, hTurn⟩ := ih hLater hm
        exact ⟨x, List.mem_cons_of_mem _ hx, hTurn⟩

/-! ## Making runs -/

theorem mono {p : Prog Res α} {a : α} (h : Beside M R p c trace a c')
    (hRS : ∀ c c', R c c' → S c c') : Beside M S p c trace a c' := by
  induction h with
  | ret a c => exact .ret a c
  | others hMove _ ih => exact .others (hRS _ _ hMove) ih
  | own e _ ih => exact .own e ih

theorem after {p : Prog Res α} {a : α} {c₁ : Config σ Res}
    (hMoves : Relation.ReflTransGen R c c₁) (h : Beside M R p c₁ trace a c') :
    Beside M R p c trace a c' := by
  induction hMoves using Relation.ReflTransGen.head_induction_on with
  | refl => exact h
  | head hMove _ ih => exact .others hMove ih

/-- Nobody else moves. -/
def Quiet (_ _ : Config σ Res) : Prop := False

/-- A program that is left alone comes to its end. -/
theorem alone (M : Machine ε ρ σ Res) (e : ε) (p : Prog Res α) (c : Config σ Res) :
    ∃ trace a c', Beside M Quiet p c trace a c' := by
  induction p generalizing c with
  | ret a => exact ⟨[], a, c, .ret a c⟩
  | act op k ih =>
      obtain ⟨trace, a, c', h⟩ := ih (M.exec e op c.state).1
        { c with state := (M.exec e op c.state).2 }
      exact ⟨_ :: trace, a, c', .own e h⟩

theorem quiet_eq (h : Relation.ReflTransGen (@Quiet σ Op Res) c c') : c' = c := by
  cases h using Relation.ReflTransGen.casesOn with
  | refl => rfl
  | tail _ hMove => exact hMove.elim

/-! ## What holds at every moment -/

/-- **Invariant rule** for the moments of a program. -/
theorem invariant {I : σ → Prop} {p : Prog Res α} {a : α}
    (hOthers : ∀ c c', R c c' → I c.state → I c'.state)
    (h : Beside M R p c trace a c') (hInit : I c.state)
    (hOwn : ∀ m ∈ trace, I m.before → I (m.after M)) : ∀ m ∈ trace, I m.before := by
  induction h with
  | ret => intro m hm; cases hm
  | others hMove _ ih => exact ih (hOthers _ _ hMove hInit) hOwn
  | own e _ ih =>
      intro m hm
      rcases List.mem_cons.mp hm with rfl | hm
      · exact hInit
      · exact ih (hOwn _ List.mem_cons_self hInit)
          (fun m hm => hOwn m (List.mem_cons_of_mem _ hm)) m hm

/-- A safe program meets at each of its moments a state of the invariant, later
than where it started. -/
theorem safe {D : Discipline M} (hSound : D.Sound) (hAllowed : ∀ e op s, D.allowed e op s)
    (hOthers : ∀ c c', R c c' → D.Ok c → D.Ok c' ∧ D.later c.state c'.state)
    {p : Prog Res α} {a : α} (h : Beside M R p c trace a c') (f : α → Prog Res Unit)
    (hOk : D.Ok c) (hSafe : D.Safe (p.bind f) c.state) :
    ∀ m ∈ trace, D.inv m.before ∧ D.later c.state m.before := by
  induction h with
  | ret => intro m hm; cases hm
  | others hMove _ ih =>
      obtain ⟨hOk', hLater⟩ := hOthers _ _ hMove hOk
      intro m hm
      obtain ⟨hInv, hAfter⟩ := ih hOk' (hSafe.later hLater) m hm
      exact ⟨hInv, D.later_trans hLater hAfter⟩
  | @own e op k c _ _ _ _ ih =>
      have hHead := hSafe c.state (D.later_refl _) hOk.inv
      have hStep := hSound.step e op _ c.state hOk.inv hHead.1 (hAllowed ..)
      have hOk' : D.Ok { c with state := (M.exec e op c.state).2 } :=
        ⟨hStep.1, fun q hq => (hOk.safe q hq).later hStep.2⟩
      intro m hm
      rcases List.mem_cons.mp hm with rfl | hm
      · exact ⟨hOk.inv, D.later_refl _⟩
      · obtain ⟨hInv, hAfter⟩ := ih hOk' (hHead.2 e (hAllowed ..)) m hm
        exact ⟨hInv, D.later_trans hStep.2 hAfter⟩

/-- A program's moments run its operations. -/
theorem only {P : Op → Prop} {p : Prog Res α} {a : α} (h : Beside M R p c trace a c')
    (hp : p.Only P) : ∀ m ∈ trace, P m.op := by
  induction h with
  | ret => intro m hm; cases hm
  | others _ _ ih => exact ih hp
  | own e _ ih =>
      intro m hm
      rcases List.mem_cons.mp hm with rfl | hm
      · exact hp.1
      · exact ih (hp.2 _) m hm

/-! ## Replaying -/

/-- Replay a script: what the others do, checking the condition, and what the
environment supplies to each of the program's own operations. -/
def play (M : Machine ε ρ σ Res) (C : Config σ Res → Choice ε ρ → Prop)
    [∀ c a, Decidable (C c a)] : List (Choice ε ρ ⊕ ε) → Prog Res α → Config σ Res →
      Option (List (Moment ε σ Op) × α × Config σ Res)
  | [], .ret a, c => some ([], a, c)
  | [], .act _ _, _ => none
  | .inl choice :: rest, p, c =>
      if C c choice then (M.pool.next c choice).bind (play M C rest p) else none
  | .inr e :: rest, .act op k, c =>
      (play M C rest (k (M.exec e op c.state).1)
        { c with state := (M.exec e op c.state).2 }).map fun (trace, result) =>
          ({ env := e, op := op, before := c.state } :: trace, result)
  | .inr _ :: _, .ret _, _ => none

theorem of_play {C : Config σ Res → Choice ε ρ → Prop} [∀ c a, Decidable (C c a)]
    {script : List (Choice ε ρ ⊕ ε)} {p : Prog Res α} {a : α}
    (h : play M C script p c = some (trace, a, c')) :
    Beside M (M.othersMeeting C) p c trace a c' := by
  induction script generalizing p c trace with
  | nil =>
      cases p with
      | ret b =>
          cases h
          exact .ret _ _
      | act op k => cases h
  | cons next rest ih =>
      cases next with
      | inl choice =>
          rw [play] at h
          split at h
          case isTrue hC =>
            obtain ⟨c₁, hNext, hRest⟩ := Option.bind_eq_some_iff.mp h
            exact .others ⟨choice, hC, hNext⟩ (ih hRest)
          case isFalse => cases h
      | inr e =>
          cases p with
          | ret b => cases h
          | act op k =>
              obtain ⟨⟨later, result⟩, hRest, hEq⟩ := Option.map_eq_some_iff.mp h
              cases hEq
              exact .own e (ih hRest)

end Beside

end Concurrent
