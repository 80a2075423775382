import Rekuest.Concurrent.System

/-!
# Programs over atomic operations

A program is a tree: an atomic operation, and for every result it may have the
program that goes on.  What an operation does to a shared state is given
elsewhere; here is only the sequencing.
-/

namespace Concurrent

/-- Programs over operations `Op`, each with its type of results. -/
inductive Prog {Op : Type 1} (Res : Op → Type) (α : Type) : Type 1
  | ret (a : α)
  | act (op : Op) (k : Res op → Prog Res α)

namespace Prog

variable {Op : Type 1} {Res : Op → Type} {α β γ : Type}

/-- Run `p`, then the program its result selects. -/
def bind : Prog Res α → (α → Prog Res β) → Prog Res β
  | .ret a, f => f a
  | .act op k, f => .act op fun r => (k r).bind f

instance : Monad (Prog Res) where
  pure := .ret
  bind := bind

/-- One operation and its result. -/
def perform (op : Op) : Prog Res (Res op) := .act op .ret

/-- The program for every element, in order. -/
def forEach : List γ → (γ → Prog Res Unit) → Prog Res Unit
  | [], _ => .ret ()
  | c :: rest, body => (body c).bind fun _ => forEach rest body

/-- Whether nothing is left to do. -/
def isRet : Prog Res α → Bool
  | .ret _ => true
  | .act _ _ => false

@[simp] theorem bind_eq (p : Prog Res α) (f : α → Prog Res β) :
    p >>= f = p.bind f := rfl

@[simp] theorem pure_eq (a : α) : (pure a : Prog Res α) = .ret a := rfl

@[simp] theorem ret_bind (a : α) (f : α → Prog Res β) :
    (Prog.ret a : Prog Res α).bind f = f a := rfl

@[simp] theorem act_bind (op : Op) (k : Res op → Prog Res α)
    (f : α → Prog Res β) :
    (Prog.act op k).bind f = .act op fun r => (k r).bind f := rfl

@[simp] theorem perform_bind (op : Op) (f : Res op → Prog Res β) :
    (perform op).bind f = .act op f := rfl

@[simp] theorem bind_assoc (p : Prog Res α) (f : α → Prog Res β)
    (g : β → Prog Res γ) : (p.bind f).bind g = p.bind fun a => (f a).bind g := by
  induction p with
  | ret a => rfl
  | act op k ih => simp only [act_bind, ih]

@[simp] theorem bind_ret (p : Prog Res α) : p.bind .ret = p := by
  induction p with
  | ret a => rfl
  | act op k ih => simp only [act_bind, ih]

@[simp] theorem forEach_nil (body : γ → Prog Res Unit) :
    forEach [] body = .ret () := rfl

@[simp] theorem forEach_cons (c : γ) (rest : List γ) (body : γ → Prog Res Unit) :
    forEach (c :: rest) body = (body c).bind fun _ => forEach rest body := rfl

theorem ite_bind (c : Prop) [Decidable c] (p q : Prog Res α)
    (f : α → Prog Res β) :
    (if c then p else q).bind f = if c then p.bind f else q.bind f := by
  split <;> rfl

end Prog

end Concurrent

/-!
# A pool of threads on one shared state

Threads run programs; a step runs the next atomic operation of one thread.
New threads start at any time and any thread may stop for good between two of
its operations.  A finished thread, or one that stopped, stays in the pool with
nothing left to do.
-/

namespace Concurrent

/-- What the operations do to the shared state, given what the environment
supplies to each, and the programs that requests start. -/
structure Machine (ε ρ σ : Type) {Op : Type 1} (Res : Op → Type) where
  exec : ε → (op : Op) → σ → Res op × σ
  handler : ρ → Prog Res Unit

/-- The shared state and the threads. -/
structure Config (σ : Type) {Op : Type 1} (Res : Op → Type) where
  state : σ
  threads : List (Prog Res Unit) := []

/-- What happens next. -/
inductive Choice (ε ρ : Type)
  | start (request : ρ)
  | step (thread : Nat) (env : ε)
  | crash (thread : Nat)

variable {ε ρ σ : Type} {Op : Type 1} {Res : Op → Type}

/-- The next operations of a thread. -/
def Choice.steps (thread n : Nat) (env : ε) : List (Choice ε ρ) :=
  List.replicate n (.step thread env)

namespace Config

/-- Nothing is mid-flight. -/
def quiescent (c : Config σ Res) : Bool := c.threads.all Prog.isRet

end Config

namespace Machine

variable (M : Machine ε ρ σ Res)

def next (c : Config σ Res) : Choice ε ρ → Option (Config σ Res)
  | .start request =>
      some { c with threads := c.threads ++ [M.handler request] }
  | .step i e =>
      match c.threads[i]? with
      | some (.act op k) =>
          some { state := (M.exec e op c.state).2
                 threads := c.threads.set i (k (M.exec e op c.state).1) }
      | _ => none
  | .crash i =>
      if i < c.threads.length then
        some { c with threads := c.threads.set i (.ret ()) }
      else none

/-- The pool as a transition system. -/
def pool : System (Config σ Res) (Choice ε ρ) := { next := M.next }

variable {M} {c c' : Config σ Res} {i : Nat}

/-- Every way a pool moves: by the operation at the head of a thread, by a
start, or by a crash. -/
inductive Moves (M : Machine ε ρ σ Res) (c : Config σ Res) :
    Choice ε ρ → Config σ Res → Prop
  | start (request : ρ) :
      Moves M c (.start request)
        { c with threads := c.threads ++ [M.handler request] }
  | step (i : Nat) (e : ε) (op : Op) (k : Res op → Prog Res Unit)
      (hHead : c.threads[i]? = some (.act op k)) :
      Moves M c (.step i e)
        { state := (M.exec e op c.state).2
          threads := c.threads.set i (k (M.exec e op c.state).1) }
  | crash (i : Nat) (hLt : i < c.threads.length) :
      Moves M c (.crash i) { c with threads := c.threads.set i (.ret ()) }

theorem moves_of_next {a : Choice ε ρ} (h : M.pool.next c a = some c') :
    Moves M c a c' := by
  cases a with
  | start request => cases h; exact .start request
  | step i e =>
      simp only [pool, next] at h
      split at h
      case h_1 op k hHead => cases h; exact .step i e op k hHead
      case h_2 => cases h
  | crash i =>
      simp only [pool, next] at h
      split at h
      case isTrue hLt => cases h; exact .crash i hLt
      case isFalse => cases h

/-- A condition on the operation a step is about to run; starts and crashes
meet it. -/
def onStep (P : ε → Op → σ → Prop) (c : Config σ Res) : Choice ε ρ → Prop
  | .step i e =>
      match c.threads[i]? with
      | some (.act op _) => P e op c.state
      | _ => True
  | .start _ | .crash _ => True

instance (P : ε → Op → σ → Prop) [∀ e op s, Decidable (P e op s)]
    (c : Config σ Res) (a : Choice ε ρ) : Decidable (onStep P c a) :=
  match a with
  | .step i e =>
      match h : c.threads[i]? with
      | some (.act op _) =>
          decidable_of_iff (P e op c.state) (by simp only [onStep, h])
      | some (.ret _) => isTrue (by simp only [onStep, h])
      | none => isTrue (by simp only [onStep, h])
  | .start _ | .crash _ => isTrue trivial

theorem onStep_step {P : ε → Op → σ → Prop} {e : ε} {op : Op}
    {k : Res op → Prog Res Unit} (hHead : c.threads[i]? = some (.act op k))
    (h : onStep (ρ := ρ) P c (.step i e)) : P e op c.state := by
  simpa only [onStep, hHead] using h

theorem onStep_mono {P Q : ε → Op → σ → Prop} {a : Choice ε ρ}
    (hPQ : ∀ e op s, P e op s → Q e op s) (h : onStep P c a) : onStep Q c a := by
  cases a with
  | start | crash => trivial
  | step i e =>
      simp only [onStep] at h ⊢
      split
      case h_1 op k hHead =>
        rw [hHead] at h
        exact hPQ _ _ _ h
      case h_2 => trivial

theorem onStep_and {P Q : ε → Op → σ → Prop} {a : Choice ε ρ} (hP : onStep P c a)
    (hQ : onStep Q c a) : onStep (fun e op s => P e op s ∧ Q e op s) c a := by
  cases a with
  | start | crash => trivial
  | step i e =>
      simp only [onStep] at hP hQ ⊢
      split
      case h_1 op k hHead =>
        rw [hHead] at hP hQ
        exact ⟨hP, hQ⟩
      case h_2 => trivial

end Machine

/-! ## Reading the pool after a move -/

/-- A thread of the pool after thread `i` went on. -/
theorem thread_set {threads : List (Prog Res Unit)} {i j : Nat}
    {p q : Prog Res Unit} (h : (threads.set i p)[j]? = some q) :
    (j = i ∧ q = p) ∨ (j ≠ i ∧ threads[j]? = some q) := by
  rw [List.getElem?_set] at h
  split at h
  case isTrue hEq =>
    split at h
    case isTrue => exact .inl ⟨hEq.symm, (Option.some.inj h).symm⟩
    case isFalse => cases h
  case isFalse hNe => exact .inr ⟨Ne.symm hNe, h⟩

end Concurrent
