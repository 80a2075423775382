import Rekuest.Concurrent.Discipline
import Rekuest.Probes.Fence
import Rekuest.Probes.Slots

/-!
# A probe's terminal is final

The terminal of a probe is claimed with one `HSETNX` and recorded in a command of
its own; a nonterminal report looks whether a terminal was claimed and is recorded
later.  As long as what a handler saw of a probe still holds when it writes, one
terminal wins, the probe keeps it, and no event is numbered behind it.
-/

namespace Rekuest.Probes

open Concurrent

/-- What a handler has in its hands of a probe: a terminal it claimed, or an
event it recorded and has not published. -/
inductive Mark
  | none
  | claimed (probe : Nat) (kind : TaskEventKind)
  | stamped (probe : Nat) (kind : TaskEventKind) (seq : Int)
  deriving DecidableEq, Repr

namespace Mark

/-- With what in its hands a handler runs a command. -/
def permits (t : Mark) : Command → Prop
  | .hsetnxDone _ kind => isTerminal kind = true
  | .record _ kind _ => isTerminal kind = false
  | .finish probe kind _ => t = .claimed probe kind
  | .publish event => t = .stamped event.probe event.kind event.seq
  | _ => True

/-- What it has after the command answered. -/
def next (t : Mark) : (op : Command) → op.Res → Mark
  | .hsetnxDone probe kind, won => if won = true then .claimed probe kind else .none
  | .record probe kind _, (seq, _) => .stamped probe kind seq
  | .finish probe kind _, (seq, _) => .stamped probe kind seq
  | .publish _, _ => .none
  | .incr _, _ | .decr _, _ | .mint, _ | .create _, _ | .deliver .., _ | .hgetall _, _
  | .hgetDone _, _ | .isKey _, _ | .srem .., _ | .smembers _, _ | .expireProbe _, _
  | .expireSlots _, _ => t

end Mark

/-- The monitor of the handlers. -/
def marks : Monitor Command.Res Mark where
  permits := Mark.permits
  next := Mark.next

variable {maxInflight : Int}

/-- A program that keeps to the monitor whatever it had in its hands. -/
abbrev KeepsMarks (maxInflight : Int) : Program Unit → Prop :=
  Monitor.Always (machine maxInflight) (fun _ => True) marks

theorem keepsMarks_nonterminal {probe : Nat} {kind : TaskEventKind} {event : ProbeEvent}
    {g : Unit → Program Unit} (hKind : isTerminal kind = false)
    (h : KeepsMarks maxInflight (g ())) :
    KeepsMarks maxInflight ((nonterminal probe kind event).bind g) := by
  refine Monitor.always_act (fun _ => trivial) fun e r _ => ?_
  generalize ((machine maxInflight).exec e (.hgetDone probe) r).1 = done
  cases (done : Option TaskEventKind) with
  | some => exact h
  | none =>
      refine Monitor.always_act (fun _ => trivial) fun e r _ => ?_
      generalize ((machine maxInflight).exec e (.isKey probe) r).1 = found
      cases (found : Bool) with
      | false => exact h
      | true =>
          intro t
          refine ⟨hKind, fun e r _ => ?_⟩
          exact ⟨rfl, fun _ _ _ => h _⟩

theorem keepsMarks_terminal {probe : Nat} {kind : TaskEventKind} {error : Option String}
    {g : Unit → Program Unit} (hKind : isTerminal kind = true)
    (h : KeepsMarks maxInflight (g ())) :
    KeepsMarks maxInflight ((terminal probe kind error).bind g) := by
  refine Monitor.always_act (fun _ => trivial) fun e r _ => ?_
  generalize ((machine maxInflight).exec e (.isKey probe) r).1 = found
  cases (found : Bool) with
  | false => exact h
  | true =>
      intro t
      refine ⟨hKind, fun e r _ => ?_⟩
      have hNext : marks.next t (.hsetnxDone probe kind)
          ((machine maxInflight).exec e (.hsetnxDone probe kind) r).1 =
        if ((machine maxInflight).exec e (.hsetnxDone probe kind) r).1 = true then
          .claimed probe kind else .none := rfl
      rw [hNext]
      generalize ((machine maxInflight).exec e (.hsetnxDone probe kind) r).1 = won
      cases (won : Bool) with
      | false => exact h _
      | true =>
          refine ⟨rfl, fun e r _ => ⟨trivial, fun _ _ _ => ?_⟩⟩
          cases hCaller : ((r.probes probe).getD {}).caller with
          | none =>
              simp only [machine, Command.exec, hCaller]
              exact ⟨rfl, fun _ _ _ => h _⟩
          | some caller =>
              simp only [machine, Command.exec, hCaller]
              exact ⟨trivial, fun _ _ _ => ⟨rfl, fun _ _ _ => h _⟩⟩

/-- **Every handler keeps to the monitor.** -/
theorem keepsMarks_handler (request : Request) :
    KeepsMarks maxInflight (request.handler maxInflight) := by
  have hEnd : KeepsMarks maxInflight (.ret ()) := Monitor.always_ret
  cases request with
  | frame agent task report =>
      change KeepsMarks maxInflight ((routeProbe agent task report).bind fun _ => .ret ())
      cases report with
      | started | paused | resumed | «yield» | log | progress =>
          simp only [routeProbe, Prog.bind_assoc]
          exact keepsMarks_nonterminal rfl hEnd
      | cancelled | interrupted | completed | failed | critical =>
          simp only [routeProbe, Prog.bind_assoc]
          exact keepsMarks_terminal rfl hEnd
      | controlRequest | lock | effect | other => exact hEnd
  | failAll agent =>
      refine Monitor.always_act (fun _ => trivial) fun e r _ => ?_
      generalize ((machine maxInflight).exec e (.smembers agent) r).1 = probes
      have hForget : KeepsMarks maxInflight (forgetAgentCalls agent probes) := by
        rw [forgetAgentCalls]
        split
        · exact hEnd
        · exact Monitor.always_act (fun _ => trivial) fun _ _ _ => hEnd
      exact Monitor.always_forEach (fun probe _ g hg => keepsMarks_terminal rfl hg) hForget
  | expireProbe | expireSlots =>
      exact Monitor.always_act (fun _ => trivial) fun _ _ _ => hEnd
  | control caller task kind =>
      change KeepsMarks maxInflight ((Probes.control caller task kind).bind fun _ => .ret ())
      simp only [Probes.control, Prog.bind_eq, Prog.bind_assoc]
      refine Monitor.always_act (fun _ => trivial) fun e r _ => ?_
      generalize ((machine maxInflight).exec e (.hgetall task) r).1 = state
      cases (state : Option ProbeHash) with
      | none => exact hEnd
      | some state =>
          simp only [Prog.ret_bind]
          split
          · exact hEnd
          · split
            · exact hEnd
            · rw [Prog.bind_assoc]
              apply keepsMarks_nonterminal (by cases kind <;> rfl)
              refine Monitor.always_act (fun _ => trivial) fun e r _ => ?_
              generalize ((machine maxInflight).exec e
                (.deliver (state.agent.getD 0) (kind.frame task)) r).1 = delivery
              cases (delivery : Option Bool) with
              | none => exact hEnd
              | some => exact Monitor.always_act (fun _ => trivial) fun _ _ _ => hEnd
  | probe caller target origin =>
      cases target with
      | error => exact hEnd
      | ok target =>
          change KeepsMarks maxInflight
            ((Probes.probe maxInflight caller (.ok target) origin).bind fun _ => .ret ())
          cases hRefusal : targetRefusal target with
          | some =>
              simp only [Probes.probe, hRefusal]
              exact hEnd
          | none =>
              simp only [Probes.probe, hRefusal, tryAcquireSlot, Prog.bind_eq, Prog.bind_assoc]
              refine Monitor.always_act (fun _ => trivial) fun e r _ => ?_
              generalize ((machine maxInflight).exec e (.incr caller) r).1 = count
              simp only [Prog.ret_bind]
              split
              · exact Monitor.always_act (fun _ => trivial) fun _ _ _ => hEnd
              · refine Monitor.always_act (fun _ => trivial) fun e r _ => ?_
                generalize ((machine maxInflight).exec e .mint r).1 = minted
                cases (minted : Bool) with
                | false => exact Monitor.always_act (fun _ => trivial) fun _ _ _ => hEnd
                | true =>
                    refine Monitor.always_act (fun _ => trivial) fun e r _ => ?_
                    refine Monitor.always_act (fun _ => trivial) fun e r _ => ?_
                    generalize ((machine maxInflight).exec e (.deliver target.agent _) r).1 = delivery
                    cases (delivery : Option Bool) with
                    | some => exact hEnd
                    | none => exact Monitor.always_act (fun _ => trivial) fun _ _ _ => hEnd

/-! ## What holds of a probe -/

/-- What a handler saw of a probe still holds when it writes: its key is there, and
a nonterminal report finds no terminal recorded. -/
def SeenStill (_ : Env) (op : Command) (r : Redis) : Prop :=
  match op with
  | .record probe _ _ => ∃ h, r.probes probe = some h ∧ h.done ≠ some h.kind
  | .hsetnxDone probe _ | .finish probe .. => (r.probes probe).isSome = true
  | _ => True

/-- A mark of the probe. -/
def Mark.isOf (probe : Nat) : Mark → Bool
  | .none => false
  | .claimed p _ | .stamped p _ _ => p == probe

variable {r : Redis} {ts : List Mark} {probe : Nat}

/-- Only probes that were created are written about. -/
structure Created (r : Redis) (ts : List Mark) : Prop where
  key : ∀ p, (r.probes p).isSome = true → p < r.fresh
  events : ∀ event ∈ r.events, event.probe < r.fresh
  claimed : ∀ p k, .claimed p k ∈ ts → p < r.fresh
  stamped : ∀ p k s, .stamped p k s ∈ ts → p < r.fresh

/-- A probe's terminal is claimed once, its kind is a terminal when that is recorded, and
no event is numbered ahead of it. -/
structure Claims (probe : Nat) (r : Redis) (ts : List Mark) : Prop where
  unclaimed : ∀ h, r.probes probe = some h → h.done = none →
    isTerminal h.kind = false ∧ ∀ k, .claimed probe k ∉ ts
  claimed : ∀ h k, r.probes probe = some h → h.done = some k → isTerminal k = true ∧
    ((h.kind = k ∧ ∀ k', .claimed probe k' ∉ ts) ∨
      (isTerminal h.kind = false ∧ ∀ k', .claimed probe k' ∈ ts → k' = k))
  apart : (r.probes probe).isSome = true → ∀ (i j : Nat) k l, ts[i]? = some (.claimed probe k) →
    ts[j]? = some (.claimed probe l) → i = j
  events : ∀ h, r.probes probe = some h → ∀ event ∈ r.events, event.probe = probe →
    event.seq ≤ h.seq
  stamped : ∀ h k s, r.probes probe = some h → .stamped probe k s ∈ ts → s ≤ h.seq

/-- The probe's terminal was recorded, with this number. -/
structure Settled (probe : Nat) (kind : TaskEventKind) (seq : Int) (r : Redis)
    (ts : List Mark) : Prop where
  created : probe < r.fresh
  row : ∀ h, r.probes probe = some h → h.done = some kind ∧ h.kind = kind ∧ h.seq = seq
  claimed : ∀ k, .claimed probe k ∉ ts
  events : ∀ event ∈ r.events, event.probe = probe → event.seq ≤ seq
  stamped : ∀ k s, .stamped probe k s ∈ ts → s ≤ seq

/-! ## What a command does -/

/-- Every way a handler writes to the hash of a probe, and its mark afterwards. -/
inductive Written (probe : Nat) (t : Mark) (h h' : ProbeHash) : Mark → Prop
  | recorded (kind : TaskEventKind) (hOpen : h.done ≠ some h.kind)
      (hKind : isTerminal kind = false) (hDone : h'.done = h.done) (hNow : h'.kind = kind)
      (hSeq : h'.seq = h.seq + 1) : Written probe t h h' (.stamped probe kind (h.seq + 1))
  | won (kind : TaskEventKind) (hOpen : h.done = none) (hKind : isTerminal kind = true)
      (hDone : h'.done = some kind) (hNow : h'.kind = h.kind) (hSeq : h'.seq = h.seq) :
      Written probe t h h' (.claimed probe kind)
  | finished (kind : TaskEventKind) (hMark : t = .claimed probe kind) (hDone : h'.done = h.done)
      (hNow : h'.kind = kind) (hSeq : h'.seq = h.seq + 1) :
      Written probe t h h' (.stamped probe kind (h.seq + 1))

/-- Every way a permitted command changes the probes and its handler's mark, where what the
handler saw still holds. -/
inductive Changed (r : Redis) (t : Mark) (r' : Redis) : Mark → Prop
  | same (hProbes : r'.probes = r.probes) (hFresh : r'.fresh = r.fresh)
      (hEvents : r'.events = r.events) : Changed r t r' t
  | lost (hProbes : r'.probes = r.probes) (hFresh : r'.fresh = r.fresh)
      (hEvents : r'.events = r.events) : Changed r t r' .none
  | created (new : NewProbe) (hProbes : r'.probes = Function.update r.probes r.fresh (some new.hash))
      (hFresh : r'.fresh = r.fresh + 1) (hEvents : r'.events = r.events) : Changed r t r' t
  | gone (p : Nat) (hProbes : r'.probes = Function.update r.probes p none)
      (hFresh : r'.fresh = r.fresh) (hEvents : r'.events = r.events) : Changed r t r' t
  | written {t' : Mark} (p : Nat) (h h' : ProbeHash) (hRow : r.probes p = some h)
      (hWritten : Written p t h h' t')
      (hProbes : r'.probes = Function.update r.probes p (some h'))
      (hFresh : r'.fresh = r.fresh) (hEvents : r'.events = r.events) : Changed r t r' t'
  | published (event : Broadcast) (hMark : t = .stamped event.probe event.kind event.seq)
      (hProbes : r'.probes = r.probes) (hFresh : r'.fresh = r.fresh)
      (hEvents : r'.events = r.events ++ [event]) : Changed r t r' .none

/-- **Inversion**: what a permitted command changes. -/
theorem changed_exec {e : Env} {op : Command} {t : Mark} (hPermits : t.permits op)
    (hStill : SeenStill e op r) :
    Changed r t (Command.exec e op r).2 (t.next op (Command.exec e op r).1) := by
  cases op with
  | create new => exact .created new rfl rfl rfl
  | expireProbe p => exact .gone p rfl rfl rfl
  | publish event => exact .published event hPermits rfl rfl rfl
  | record p kind returns =>
      obtain ⟨h, hRow, hOpen⟩ := hStill
      have hMark : t.next (.record p kind returns) (Command.exec e (.record p kind returns) r).1 =
          .stamped p kind (h.seq + 1) := by
        simp [Mark.next, Command.exec, hRow]
      rw [hMark]
      exact .written p h { h with
          seq := h.seq + 1
          kind
          lastReturns := returns <|> h.lastReturns } hRow
        (.recorded kind hOpen hPermits rfl rfl rfl)
        (by simp [Command.exec, Redis.write, Redis.set, hRow]) rfl rfl
  | hsetnxDone p kind =>
      obtain ⟨h, hRow⟩ := Option.isSome_iff_exists.mp hStill
      rcases hsetnxDone_cases e p kind r with ⟨-, hExec⟩ | ⟨hOpen, hExec⟩
      · rw [hExec]
        exact .lost rfl rfl rfl
      · rw [hExec]
        rw [hRow, Option.bind_some] at hOpen
        exact .written p h { h with done := some kind } hRow (.won kind hOpen hPermits rfl rfl rfl)
          (by simp [Redis.write, Redis.set, hRow]) rfl rfl
  | finish p kind error =>
      obtain ⟨h, hRow⟩ := Option.isSome_iff_exists.mp hStill
      have hMark : t.next (.finish p kind error) (Command.exec e (.finish p kind error) r).1 =
          .stamped p kind (h.seq + 1) := by
        simp [Mark.next, Command.exec, hRow]
      rw [hMark]
      exact .written p h { h with seq := h.seq + 1, kind, err := error <|> h.err } hRow
        (.finished kind hPermits rfl rfl rfl)
        (by simp [Command.exec, Redis.write, Redis.set, hRow]) rfl rfl
  | incr | decr | mint | deliver | hgetall | hgetDone | isKey | srem | smembers | expireSlots =>
      exact .same rfl rfl rfl

/-- A mark after a step is the handler's new one, or was there. -/
theorem mark_cases {i : Nat} {t u : Mark} (h : u ∈ ts.set i t) : u = t ∨ u ∈ ts :=
  (List.mem_or_eq_of_mem_set h).symm

variable {i : Nat} {t t' : Mark} {r' : Redis}

theorem created_step (h : Created r ts) (hGet : ts[i]? = some t) (hChanged : Changed r t r' t') :
    Created r' (ts.set i t') := by
  have hMine := List.mem_of_getElem? hGet
  -- the marks are old ones, or of a probe that has a key
  have hMarks {n : Nat} (hLe : r.fresh ≤ n)
      (hClaimed : ∀ p k, t' = .claimed p k → p < n) (hStamped : ∀ p k s, t' = .stamped p k s → p < n) :
      (∀ p k, .claimed p k ∈ ts.set i t' → p < n) ∧
        ∀ p k s, .stamped p k s ∈ ts.set i t' → p < n := by
    constructor
    · intro p k hMem
      rcases mark_cases hMem with hNew | hOld
      · exact hClaimed p k hNew.symm
      · have := h.claimed p k hOld
        omega
    · intro p k s hMem
      rcases mark_cases hMem with hNew | hOld
      · exact hStamped p k s hNew.symm
      · have := h.stamped p k s hOld
        omega
  have hKey {p : Nat} {h₀ : ProbeHash} (hRow : r.probes p = some h₀) : p < r.fresh :=
    h.key p (by rw [hRow]; rfl)
  have hUpdate {q : Nat} {x : Option ProbeHash} (hq : q < r'.fresh) (hLe : r.fresh ≤ r'.fresh)
      (hProbes : r'.probes = Function.update r.probes q x) :
      ∀ p, (r'.probes p).isSome = true → p < r'.fresh := by
    intro p hSome
    by_cases hEq : p = q
    · omega
    · rw [hProbes, Function.update_of_ne hEq] at hSome
      have := h.key p hSome
      omega
  cases hChanged with
  | same hProbes hFresh hEvents =>
      obtain ⟨hClaimed, hStamped⟩ := hMarks (Nat.le_refl _)
        (fun p k hEq => h.claimed p k (hEq ▸ hMine)) fun p k s hEq => h.stamped p k s (hEq ▸ hMine)
      exact ⟨by rw [hProbes, hFresh]; exact h.key, by rw [hEvents, hFresh]; exact h.events,
        by rw [hFresh]; exact hClaimed, by rw [hFresh]; exact hStamped⟩
  | lost hProbes hFresh hEvents =>
      obtain ⟨hClaimed, hStamped⟩ := hMarks (Nat.le_refl _)
        (fun p k hEq => by cases hEq) fun p k s hEq => by cases hEq
      exact ⟨by rw [hProbes, hFresh]; exact h.key, by rw [hEvents, hFresh]; exact h.events,
        by rw [hFresh]; exact hClaimed, by rw [hFresh]; exact hStamped⟩
  | created new hProbes hFresh hEvents =>
      obtain ⟨hClaimed, hStamped⟩ := hMarks (n := r'.fresh) (by omega)
        (fun p k hEq => by have := h.claimed p k (hEq ▸ hMine); omega)
        fun p k s hEq => by have := h.stamped p k s (hEq ▸ hMine); omega
      refine ⟨hUpdate (by omega) (by omega) hProbes, fun event hEvent => ?_, hClaimed, hStamped⟩
      have := h.events event (hEvents ▸ hEvent)
      omega
  | gone p hProbes hFresh hEvents =>
      obtain ⟨hClaimed, hStamped⟩ := hMarks (Nat.le_refl _)
        (fun p k hEq => h.claimed p k (hEq ▸ hMine)) fun p k s hEq => h.stamped p k s (hEq ▸ hMine)
      refine ⟨fun q hSome => ?_, by rw [hEvents, hFresh]; exact h.events,
        by rw [hFresh]; exact hClaimed, by rw [hFresh]; exact hStamped⟩
      by_cases hEq : q = p
      · subst hEq
        rw [hProbes, Function.update_self] at hSome
        cases hSome
      · rw [hProbes, Function.update_of_ne hEq] at hSome
        exact hFresh ▸ h.key q hSome
  | written p h₀ h' hRow hWritten hProbes hFresh hEvents =>
      obtain ⟨hClaimed, hStamped⟩ := hMarks (Nat.le_refl _)
        (fun p k hEq => by cases hWritten <;> cases hEq; exact hKey hRow)
        fun p k s hEq => by cases hWritten <;> cases hEq <;> exact hKey hRow
      exact ⟨hUpdate (by rw [hFresh]; exact hKey hRow) (by omega) hProbes,
        by rw [hEvents, hFresh]; exact h.events, by rw [hFresh]; exact hClaimed,
        by rw [hFresh]; exact hStamped⟩
  | published event hMark hProbes hFresh hEvents =>
      obtain ⟨hClaimed, hStamped⟩ := hMarks (Nat.le_refl _)
        (fun p k hEq => by cases hEq) fun p k s hEq => by cases hEq
      refine ⟨by rw [hProbes, hFresh]; exact h.key, fun event' hEvent => ?_,
        by rw [hFresh]; exact hClaimed, by rw [hFresh]; exact hStamped⟩
      rw [hEvents, List.mem_append, List.mem_singleton] at hEvent
      rcases hEvent with hOld | rfl
      · exact hFresh ▸ h.events event' hOld
      · exact hFresh ▸ h.stamped _ _ _ (hMark ▸ hMine)

/-! ## What a step keeps of one probe -/

/-- The marks of a probe after a step that sets none of it. -/
theorem marks_set (hGet : ts[i]? = some t) (hNot : t' = t ∨ t'.isOf probe = false) :
    ∀ (j : Nat) (u : Mark), (ts.set i t')[j]? = some u → u.isOf probe = true → ts[j]? = some u := by
  intro j u hu hOf
  by_cases hEq : i = j
  · subst hEq
    rw [List.getElem?_set_self (List.getElem?_eq_some_iff.mp hGet).1] at hu
    obtain rfl := Option.some.inj hu
    rcases hNot with rfl | hNot
    · exact hGet
    · rw [hNot] at hOf
      cases hOf
  · rwa [List.getElem?_set_ne hEq] at hu

/-- The step is about another probe, or about none. -/
structure Spared (probe : Nat) (r : Redis) (ts : List Mark) (r' : Redis) (ts' : List Mark) :
    Prop where
  row : r'.probes probe = r.probes probe
  events : ∀ event ∈ r'.events, event.probe = probe →
    event ∈ r.events ∨ .stamped probe event.kind event.seq ∈ ts
  marks : ∀ (j : Nat) (u : Mark), ts'[j]? = some u → u.isOf probe = true → ts[j]? = some u

variable {ts' : List Mark}

theorem Spared.mem (h : Spared probe r ts r' ts') {u : Mark} (hu : u ∈ ts')
    (hOf : u.isOf probe = true) : u ∈ ts := by
  obtain ⟨j, hj⟩ := List.mem_iff_getElem?.mp hu
  exact List.mem_of_getElem? (h.marks j u hj hOf)

theorem claims_of_spared (h : Claims probe r ts) (hSpared : Spared probe r ts r' ts') :
    Claims probe r' ts' where
  unclaimed := by
    intro h₀ hRow hDone
    obtain ⟨hKind, hNone⟩ := h.unclaimed h₀ (hSpared.row ▸ hRow) hDone
    exact ⟨hKind, fun k hMem => hNone k (hSpared.mem hMem (beq_self_eq_true probe))⟩
  claimed := by
    intro h₀ k hRow hDone
    obtain ⟨hKind, hOr⟩ := h.claimed h₀ k (hSpared.row ▸ hRow) hDone
    refine ⟨hKind, ?_⟩
    rcases hOr with ⟨hEq, hNone⟩ | ⟨hOpen, hAll⟩
    · exact .inl ⟨hEq, fun k' hMem => hNone k' (hSpared.mem hMem (beq_self_eq_true probe))⟩
    · exact .inr ⟨hOpen, fun k' hMem => hAll k' (hSpared.mem hMem (beq_self_eq_true probe))⟩
  apart := by
    intro hSome i j k l hi hj
    exact h.apart (hSpared.row ▸ hSome) i j k l (hSpared.marks i _ hi (beq_self_eq_true probe))
      (hSpared.marks j _ hj (beq_self_eq_true probe))
  events := by
    intro h₀ hRow event hEvent hProbe
    have hOld : r.probes probe = some h₀ := hSpared.row ▸ hRow
    rcases hSpared.events event hEvent hProbe with hMem | hStamp
    · exact h.events h₀ hOld event hMem hProbe
    · exact h.stamped h₀ event.kind event.seq hOld hStamp
  stamped := fun h₀ k s hRow hMem =>
    h.stamped h₀ k s (hSpared.row ▸ hRow) (hSpared.mem hMem (beq_self_eq_true probe))

theorem settled_of_spared {kind : TaskEventKind} {seq : Int} (h : Settled probe kind seq r ts)
    (hFresh : r.fresh ≤ r'.fresh) (hSpared : Spared probe r ts r' ts') :
    Settled probe kind seq r' ts' where
  created := Nat.lt_of_lt_of_le h.created hFresh
  row := fun h₀ hRow => h.row h₀ (hSpared.row ▸ hRow)
  claimed := fun k hMem => h.claimed k (hSpared.mem hMem (beq_self_eq_true probe))
  events := by
    intro event hEvent hProbe
    rcases hSpared.events event hEvent hProbe with hMem | hStamp
    · exact h.events event hMem hProbe
    · exact h.stamped event.kind event.seq hStamp
  stamped := fun k s hMem => h.stamped k s (hSpared.mem hMem (beq_self_eq_true probe))

/-- What a step does to one probe. -/
inductive Touched (probe : Nat) (r : Redis) (ts : List Mark) (t : Mark) (r' : Redis)
    (ts' : List Mark) : Mark → Prop
  | spared {t' : Mark} (h : Spared probe r ts r' ts') : Touched probe r ts t r' ts' t'
  | created (new : NewProbe) (hFresh : probe = r.fresh) (hRow : r'.probes probe = some new.hash)
      (hMarks : ts' = ts) (hEvents : r'.events = r.events) : Touched probe r ts t r' ts' t
  | gone (hNone : r'.probes probe = none) (hMarks : ts' = ts) (hEvents : r'.events = r.events) :
      Touched probe r ts t r' ts' t
  | written {t' : Mark} (h h' : ProbeHash) (hRow : r.probes probe = some h)
      (hRow' : r'.probes probe = some h') (hWritten : Written probe t h h' t')
      (hEvents : r'.events = r.events) : Touched probe r ts t r' ts' t'

theorem touched_of_changed (hGet : ts[i]? = some t) (hChanged : Changed r t r' t') (probe : Nat) :
    Touched probe r ts t r' (ts.set i t') t' := by
  have hSame (hRow : r'.probes probe = r.probes probe) (hEvents : r'.events = r.events)
      (hNot : t' = t ∨ t'.isOf probe = false) : Touched probe r ts t r' (ts.set i t') t' :=
    .spared ⟨hRow, fun event hEvent _ => .inl (hEvents ▸ hEvent), marks_set hGet hNot⟩
  have hOther {p : Nat} {x : Option ProbeHash} (hProbes : r'.probes = Function.update r.probes p x)
      (hNe : probe ≠ p) : r'.probes probe = r.probes probe := by
    rw [hProbes, Function.update_of_ne hNe]
  have hMarks : ts.set i t = ts := by
    apply List.ext_getElem?
    intro j
    by_cases hEq : i = j
    · subst hEq
      rw [List.getElem?_set_self (List.getElem?_eq_some_iff.mp hGet).1, hGet]
    · rw [List.getElem?_set_ne hEq]
  cases hChanged with
  | same hProbes hFresh hEvents => exact hSame (by rw [hProbes]) hEvents (.inl rfl)
  | lost hProbes hFresh hEvents => exact hSame (by rw [hProbes]) hEvents (.inr rfl)
  | created new hProbes hFresh hEvents =>
      by_cases hEq : probe = r.fresh
      · refine .created new hEq ?_ hMarks hEvents
        rw [hProbes, hEq, Function.update_self]
      · exact hSame (hOther hProbes hEq) hEvents (.inl rfl)
  | gone p hProbes hFresh hEvents =>
      by_cases hEq : probe = p
      · refine .gone ?_ hMarks hEvents
        rw [hProbes, hEq, Function.update_self]
      · exact hSame (hOther hProbes hEq) hEvents (.inl rfl)
  | written p h h' hRow hWritten hProbes hFresh hEvents =>
      by_cases hEq : probe = p
      · subst hEq
        refine .written h h' hRow ?_ hWritten hEvents
        rw [hProbes, Function.update_self]
      · have hNot : (p == probe) = false := by simpa using Ne.symm hEq
        refine hSame (hOther hProbes hEq) hEvents (.inr ?_)
        cases hWritten <;> exact hNot
  | published event hMark hProbes hFresh hEvents =>
      refine .spared ⟨by rw [hProbes], fun event' hEvent hProbe => ?_, marks_set hGet (.inr rfl)⟩
      rw [hEvents, List.mem_append, List.mem_singleton] at hEvent
      rcases hEvent with hOld | rfl
      · exact .inl hOld
      · refine .inr ?_
        rw [← hProbe, ← hMark]
        exact List.mem_of_getElem? hGet

/-- **Step lemma** of the claims. -/
theorem claims_step (hCreated : Created r ts) (h : Claims probe r ts) (hGet : ts[i]? = some t)
    (hTouched : Touched probe r ts t r' (ts.set i t') t') : Claims probe r' (ts.set i t') := by
  have hLt := (List.getElem?_eq_some_iff.mp hGet).1
  -- of the marks after a write, only the handler's is new
  have hMark {u : Mark} (hu : u ∈ ts.set i t') (hNe : u ≠ t') : u ∈ ts :=
    (mark_cases hu).resolve_left hNe
  have hOld {j : Nat} {u : Mark} (hj : (ts.set i t')[j]? = some u) (hNe : u ≠ t') :
      i ≠ j ∧ ts[j]? = some u := by
    by_cases hEq : i = j
    · subst hEq
      rw [List.getElem?_set_self hLt] at hj
      exact absurd (Option.some.inj hj).symm hNe
    · rw [List.getElem?_set_ne hEq] at hj
      exact ⟨hEq, hj⟩
  cases hTouched with
  | spared hSpared => exact claims_of_spared h hSpared
  | created new hFresh hRow hMarks hEvents =>
      rw [hMarks]
      have hNone {k : TaskEventKind} : Mark.claimed probe k ∉ ts := fun hMem => by
        have := hCreated.claimed probe k hMem
        omega
      refine ⟨fun h₀ hRow' _ => ?_, fun h₀ k hRow' hDone => ?_, fun _ j _ k _ hj _ => ?_,
        fun h₀ _ event hEvent hProbe => ?_, fun h₀ k s _ hMem => ?_⟩
      · obtain rfl := Option.some.inj (hRow.symm.trans hRow')
        exact ⟨rfl, fun k => hNone⟩
      · obtain rfl := Option.some.inj (hRow.symm.trans hRow')
        cases hDone
      · exact absurd (List.mem_of_getElem? hj) hNone
      · have := hCreated.events event (hEvents ▸ hEvent)
        omega
      · have := hCreated.stamped probe k s hMem
        omega
  | gone hNone hMarks hEvents =>
      have hNo {h₀ : ProbeHash} (hRow : r'.probes probe = some h₀) : False := by
        rw [hNone] at hRow
        cases hRow
      exact ⟨fun _ hRow => (hNo hRow).elim, fun _ _ hRow => (hNo hRow).elim,
        fun hSome => (by rw [hNone] at hSome; cases hSome),
        fun _ hRow => (hNo hRow).elim, fun _ _ _ hRow => (hNo hRow).elim⟩
  | written h₀ h' hRow hRow' hWritten hEvents =>
      have hThere : (r.probes probe).isSome = true := by rw [hRow]; rfl
      have hRow₁ {h₁ : ProbeHash} (hNow : r'.probes probe = some h₁) : h' = h₁ :=
        Option.some.inj (hRow'.symm.trans hNow)
      have hEvent {event : Broadcast} (hMem : event ∈ r'.events) (hProbe : event.probe = probe) :
          event.seq ≤ h₀.seq := h.events h₀ hRow event (hEvents ▸ hMem) hProbe
      cases hWritten with
      | recorded kind hOpen hKind hDone hNow hSeq =>
          have hNe (k : TaskEventKind) : Mark.claimed probe k ≠ .stamped probe kind (h₀.seq + 1) :=
            Mark.noConfusion
          refine ⟨fun h₁ hNow₁ hNone => ?_, fun h₁ k hNow₁ hSome => ?_, fun _ a b k l ha hb => ?_,
            fun h₁ hNow₁ event hMem hProbe => ?_, fun h₁ k s hNow₁ hMem => ?_⟩
          · obtain rfl := hRow₁ hNow₁
            obtain ⟨-, hNot⟩ := h.unclaimed h₀ hRow (hDone ▸ hNone)
            exact ⟨hNow ▸ hKind, fun k hMem => hNot k (hMark hMem (hNe k))⟩
          · obtain rfl := hRow₁ hNow₁
            obtain ⟨hTerminal, hOr⟩ := h.claimed h₀ k hRow (hDone ▸ hSome)
            rcases hOr with ⟨hEq, -⟩ | ⟨-, hAll⟩
            · exact absurd (hEq ▸ hDone ▸ hSome) hOpen
            · exact ⟨hTerminal, .inr ⟨hNow ▸ hKind, fun k' hMem => hAll k' (hMark hMem (hNe k'))⟩⟩
          · exact h.apart hThere a b k l (hOld ha (hNe k)).2 (hOld hb (hNe l)).2
          · obtain rfl := hRow₁ hNow₁
            have := hEvent hMem hProbe
            omega
          · obtain rfl := hRow₁ hNow₁
            rcases mark_cases hMem with hNew | hWas
            · cases hNew
              omega
            · have := h.stamped h₀ k s hRow hWas
              omega
      | won kind hOpen hKind hDone hNow hSeq =>
          obtain ⟨hBefore, hNone⟩ := h.unclaimed h₀ hRow hOpen
          -- nobody else has claimed it
          have hSelf {j : Nat} {k : TaskEventKind}
              (hj : (ts.set i (Mark.claimed probe kind))[j]? = some (.claimed probe k)) :
              i = j ∧ k = kind := by
            by_cases hEq : i = j
            · subst hEq
              rw [List.getElem?_set_self hLt] at hj
              cases hj
              exact ⟨rfl, rfl⟩
            · rw [List.getElem?_set_ne hEq] at hj
              exact absurd (List.mem_of_getElem? hj) (hNone k)
          refine ⟨fun h₁ hNow₁ hDone₁ => ?_, fun h₁ k hNow₁ hSome => ?_, fun _ a b k l ha hb => ?_,
            fun h₁ hNow₁ event hMem hProbe => ?_, fun h₁ k s hNow₁ hMem => ?_⟩
          · obtain rfl := hRow₁ hNow₁
            cases hDone.symm.trans hDone₁
          · obtain rfl := hRow₁ hNow₁
            cases hDone.symm.trans hSome
            refine ⟨hKind, .inr ⟨hNow ▸ hBefore, fun k' hMem => ?_⟩⟩
            obtain ⟨j, hj⟩ := List.mem_iff_getElem?.mp hMem
            exact (hSelf hj).2
          · exact (hSelf ha).1.symm.trans (hSelf hb).1
          · obtain rfl := hRow₁ hNow₁
            have := hEvent hMem hProbe
            omega
          · obtain rfl := hRow₁ hNow₁
            have := h.stamped h₀ k s hRow (hMark hMem Mark.noConfusion)
            omega
      | finished kind hMine hDone hNow hSeq =>
          have hNe (k : TaskEventKind) : Mark.claimed probe k ≠ .stamped probe kind (h₀.seq + 1) :=
            Mark.noConfusion
          have hClaim : ts[i]? = some (.claimed probe kind) := hMine ▸ hGet
          -- its own was the one claim
          have hNone (k : TaskEventKind) :
              Mark.claimed probe k ∉ ts.set i (.stamped probe kind (h₀.seq + 1)) := by
            intro hMem
            obtain ⟨j, hj⟩ := List.mem_iff_getElem?.mp hMem
            obtain ⟨hApart, hWas⟩ := hOld hj (hNe k)
            exact hApart (h.apart hThere i j kind k hClaim hWas)
          have hDone₀ : h₀.done = some kind := by
            cases hIs : h₀.done with
            | none => exact absurd (List.mem_of_getElem? hClaim) ((h.unclaimed h₀ hRow hIs).2 kind)
            | some k =>
                rcases (h.claimed h₀ k hRow hIs).2 with ⟨-, hNot⟩ | ⟨-, hAll⟩
                · exact absurd (List.mem_of_getElem? hClaim) (hNot kind)
                · rw [hAll kind (List.mem_of_getElem? hClaim)]
          refine ⟨fun h₁ hNow₁ hDone₁ => ?_, fun h₁ k hNow₁ hSome => ?_, fun _ a b k l ha hb => ?_,
            fun h₁ hNow₁ event hMem hProbe => ?_, fun h₁ k s hNow₁ hMem => ?_⟩
          · obtain rfl := hRow₁ hNow₁
            cases (hDone.trans hDone₀).symm.trans hDone₁
          · obtain rfl := hRow₁ hNow₁
            cases (hDone.trans hDone₀).symm.trans hSome
            exact ⟨(h.claimed h₀ kind hRow hDone₀).1, .inl ⟨hNow, hNone⟩⟩
          · exact absurd (List.mem_of_getElem? ha) (hNone k)
          · obtain rfl := hRow₁ hNow₁
            have := hEvent hMem hProbe
            omega
          · obtain rfl := hRow₁ hNow₁
            rcases mark_cases hMem with hNew | hWas
            · cases hNew
              omega
            · have := h.stamped h₀ k s hRow hWas
              omega

/-- A terminal that was recorded stays so, whatever comes. -/
theorem settled_step {kind : TaskEventKind} {seq : Int} (hFresh : r.fresh ≤ r'.fresh)
    (h : Settled probe kind seq r ts)
    (hGet : ts[i]? = some t) (hTouched : Touched probe r ts t r' (ts.set i t') t') :
    Settled probe kind seq r' (ts.set i t') := by
  cases hTouched with
  | spared hSpared => exact settled_of_spared h hFresh hSpared
  | created new hNew =>
      have := h.created
      omega
  | gone hNone hMarks hEvents =>
      rw [hMarks]
      refine ⟨Nat.lt_of_lt_of_le h.created hFresh, fun h₀ hRow => ?_, h.claimed,
        fun event hEvent => h.events event (hEvents ▸ hEvent), h.stamped⟩
      rw [hNone] at hRow
      cases hRow
  | written h₀ h' hRow hRow' hWritten hEvents =>
      obtain ⟨hDone₀, hKind₀, -⟩ := h.row h₀ hRow
      cases hWritten with
      | recorded kind' hOpen => exact absurd (hKind₀ ▸ hDone₀) hOpen
      | won kind' hOpen => cases hOpen.symm.trans hDone₀
      | finished kind' hMine =>
          exact absurd (List.mem_of_getElem? (hMine ▸ hGet)) (h.claimed kind')

/-- The terminal is recorded. -/
theorem settled_finish {kind : TaskEventKind} {h h' : ProbeHash} (hCreated : Created r ts)
    (hClaims : Claims probe r ts) (hGet : ts[i]? = some (.claimed probe kind))
    (hRow : r.probes probe = some h) (hRow' : r'.probes probe = some h')
    (hDone : h'.done = h.done) (hNow : h'.kind = kind) (hFresh : r.fresh ≤ r'.fresh)
    (hLater : Claims probe r' (ts.set i (.stamped probe kind (h.seq + 1)))) :
    isTerminal kind = true ∧
      Settled probe kind h'.seq r' (ts.set i (.stamped probe kind (h.seq + 1))) := by
  have hMine := List.mem_of_getElem? hGet
  have hDone₀ : h.done = some kind := by
    cases hIs : h.done with
    | none => exact absurd hMine ((hClaims.unclaimed h hRow hIs).2 kind)
    | some k =>
        rcases (hClaims.claimed h k hRow hIs).2 with ⟨-, hNot⟩ | ⟨-, hAll⟩
        · exact absurd hMine (hNot kind)
        · rw [hAll kind hMine]
  obtain ⟨hTerminal, hOr⟩ := hLater.claimed h' kind hRow' (hDone.trans hDone₀)
  refine ⟨hTerminal, ⟨?_, fun h₁ hNow₁ => ?_, fun k hMem => ?_, hLater.events h' hRow',
    fun k s => hLater.stamped h' k s hRow'⟩⟩
  · have := hCreated.key probe (by rw [hRow]; rfl)
    omega
  · obtain rfl := Option.some.inj (hRow'.symm.trans hNow₁)
    exact ⟨hDone.trans hDone₀, hNow, rfl⟩
  · rcases hOr with ⟨-, hNone⟩ | ⟨hOpen, -⟩
    · exact hNone k hMem
    · rw [hNow, hTerminal] at hOpen
      cases hOpen

/-! ## Along a run -/

theorem spared_start : Spared probe r ts r (ts ++ [Mark.none]) := by
  refine ⟨rfl, fun event hEvent _ => .inl hEvent, fun j u hu hOf => ?_⟩
  by_cases hLt : j < ts.length
  · rwa [List.getElem?_append_left hLt] at hu
  · rw [List.getElem?_append_right (by omega)] at hu
    rw [List.mem_singleton.mp (List.mem_of_getElem? hu)] at hOf
    cases hOf

theorem created_start (h : Created r ts) : Created r (ts ++ [Mark.none]) := by
  have hOld {u : Mark} (hu : u ∈ ts ++ [Mark.none]) (hNe : u ≠ .none) : u ∈ ts := by
    rcases List.mem_append.mp hu with hMem | hLast
    · exact hMem
    · exact absurd (List.mem_singleton.mp hLast) hNe
  exact ⟨h.key, h.events, fun p k hMem => h.claimed p k (hOld hMem Mark.noConfusion),
    fun p k s hMem => h.stamped p k s (hOld hMem Mark.noConfusion)⟩

theorem fresh_mono (e : Env) (op : Command) (r : Redis) :
    r.fresh ≤ (Command.exec e op r).2.fresh := by
  cases op with
  | create => exact Nat.le_succ _
  | hsetnxDone p kind =>
      rcases hsetnxDone_cases e p kind r with ⟨-, hExec⟩ | ⟨-, hExec⟩
      · rw [hExec]
      · rw [hExec]
        exact Nat.le_refl _
  | _ => exact Nat.le_refl _

/-- What holds of the probes beside what the handlers have in their hands, and what
more is asked of them. -/
def Marked (maxInflight : Int) (J : Redis → List Mark → Prop) (c : ProbesConfig) : Prop :=
  ∃ ts, Monitor.Watches (machine maxInflight) (fun _ => True) marks c.threads ts ∧
    (Created c.state ts ∧ ∀ probe, Claims probe c.state ts) ∧ J c.state ts

variable {J : Redis → List Mark → Prop} {c₀ c c' : ProbesConfig}

/-- **Run lemma**: what every step keeps where the seen still holds, beside the claims. -/
theorem Marked.run (hStart : ∀ r ts, J r ts → J r (ts ++ [Mark.none]))
    (hStep : ∀ r ts r' (t t' : Mark) (i : Nat), J r ts → ts[i]? = some t → r.fresh ≤ r'.fresh →
      (∀ probe, Touched probe r ts t r' (ts.set i t') t') → J r' (ts.set i t'))
    (h : Marked maxInflight J c)
    (hRun : (machine maxInflight).pool.Run (Machine.onStep SeenStill) c c') :
    Marked maxInflight J c' := by
  obtain ⟨ts, hWatches, hClaims, hJ⟩ := h
  refine Monitor.Watches.run
    (I := fun r ts => (Created r ts ∧ ∀ probe, Claims probe r ts) ∧ J r ts) (D := SeenStill)
    (fun request => keepsMarks_handler request Mark.none) (fun _ _ h => h) (fun _ _ _ => trivial)
    (fun r ts h => ⟨⟨created_start h.1.1, fun probe => claims_of_spared (h.1.2 probe) spared_start⟩,
      hStart r ts h.2⟩)
    (fun e op r i t ts h hGet hPermits hStill => ?_) hWatches ⟨hClaims, hJ⟩ hRun
  have hChanged := changed_exec hPermits hStill
  have hTouched := touched_of_changed hGet hChanged
  exact ⟨⟨created_step h.1.1 hGet hChanged, fun probe =>
    claims_step h.1.1 (h.1.2 probe) hGet (hTouched probe)⟩,
    hStep _ _ _ _ _ _ h.2 hGet (fresh_mono e op r) hTouched⟩

theorem Marked.initial (h : Initial c) (hEvents : c.state.events = []) (hJ : J c.state []) :
    Marked maxInflight J c := by
  have hNo {p : Nat} (hSome : (c.state.probes p).isSome = true) : False := by
    rw [h.none p] at hSome
    cases hSome
  have hNone {p : Nat} {h₀ : ProbeHash} (hRow : c.state.probes p = some h₀) : False :=
    hNo (p := p) (by rw [hRow]; rfl)
  refine ⟨[], ⟨by simp [h.idle], fun i p n hp => ?_⟩, ⟨⟨fun p hSome => (hNo hSome).elim,
    fun event hEvent => ?_, fun _ _ hMem => (by cases hMem), fun _ _ _ hMem => by cases hMem⟩,
    fun probe => ⟨fun _ hRow => (hNone hRow).elim, fun _ _ hRow => (hNone hRow).elim,
      fun hSome => (hNo hSome).elim, fun _ hRow => (hNone hRow).elim,
      fun _ _ _ hRow => (hNone hRow).elim⟩⟩, hJ⟩
  · rw [h.idle] at hp
    cases hp
  · rw [hEvents] at hEvent
    cases hEvent

/-- A handler is about to record the terminal it claimed. -/
def Finishing (c : ProbesConfig) (probe : Nat) (kind : TaskEventKind) (i : Nat) : Prop :=
  ∃ error k, c.threads[i]? = some (.act (.finish probe kind error) k)

/-- The terminal of a probe, in a pool at some time: it was claimed by nobody, or by one
handler; and once that recorded it, it is the probe's for as long as there is one, and
no event is numbered behind it. -/
structure TerminalFinal (maxInflight : Int) (c : ProbesConfig) (probe : Nat) : Prop where
  /-- Whoever tries to claim it, somebody has. -/
  some_claim : ∀ i e kind k c', c.threads[i]? = some (.act (.hsetnxDone probe kind) k) →
    Machine.onStep SeenStill c (.step i e : Choice Env Request) →
    (machine maxInflight).pool.next c (.step i e) = some c' →
      ∃ h l, c'.state.probes probe = some h ∧ h.done = some l ∧ isTerminal l = true
  one_claim : ∀ i j k l, (c.state.probes probe).isSome = true → Finishing c probe k i →
    Finishing c probe l j → i = j ∧ k = l
  final : ∀ i e kind c' c'', Finishing c probe kind i →
    Machine.onStep SeenStill c (.step i e : Choice Env Request) →
    (machine maxInflight).pool.next c (.step i e) = some c' →
    (machine maxInflight).pool.Run (Machine.onStep SeenStill) c' c'' →
      isTerminal kind = true ∧ ∃ h, c'.state.probes probe = some h ∧ h.kind = kind ∧
        (∀ h', c''.state.probes probe = some h' → h'.kind = kind ∧ h'.seq = h.seq) ∧
        (∀ event ∈ c''.state.events, event.probe = probe → event.seq ≤ h.seq) ∧
        ∀ j l, ¬ Finishing c'' probe l j

theorem mark_of_finishing {kind : TaskEventKind}
    (hWatches : Monitor.Watches (machine maxInflight) (fun _ => True) marks c.threads ts)
    (h : Finishing c probe kind i) : ts[i]? = some (.claimed probe kind) := by
  obtain ⟨error, k, hHead⟩ := h
  obtain ⟨t, hGet, hFollows⟩ := hWatches.head hHead
  obtain rfl : t = .claimed probe kind := hFollows.1
  exact hGet

/-- Caller 7 fires a probe of agent 0, which reports it started and completed; `reports` is the
order of the two handlers' commands. -/
def reportedProbe (reports : List (Choice Env Request)) : List (Choice Env Request) :=
  .start (.probe 7 (.ok demoTarget) .graphql) :: Choice.steps 0 4 ({} : Env) ++
    [.start (.frame 0 0 .started), .start (.frame 0 0 .completed)] ++ reports

instance (e : Env) (op : Command) (r : Redis) : Decidable (SeenStill e op r) :=
  match op with
  | .record probe _ _ => decidable_of_iff
      ((r.probes probe).any fun h => h.done != some h.kind) (by
        simp [SeenStill, Option.any_eq_true])
  | .hsetnxDone probe _ | .finish probe .. =>
      inferInstanceAs (Decidable ((r.probes probe).isSome = true))
  | .incr _ | .decr _ | .mint | .create _ | .deliver .. | .hgetall _ | .hgetDone _ | .isKey _
  | .srem .. | .smembers _ | .publish _ | .expireProbe _ | .expireSlots _ => isTrue trivial

/-- The kinds and numbers of the events, and the kind the probe shows. -/
def story (c : ProbesConfig) : List (TaskEventKind × Int) × Option TaskEventKind :=
  (c.state.events.map fun event => (event.kind, event.seq), (c.state.probes 0).map (·.kind))

/-- Whether a handler is about to record that probe 0 completed. -/
def completes : Program Unit → Bool
  | .act (.finish 0 .completed _) _ => true
  | _ => false

theorem finishing_of_completes (h : c.threads[2]?.any completes = true) :
    Finishing c 0 .completed 2 := by
  obtain ⟨p, hThread, hIs⟩ := (Option.any_eq_true _ _).mp h
  unfold completes at hIs
  split at hIs
  case h_1 error k => exact ⟨error, k, hThread⟩
  case h_2 => cases hIs

end Rekuest.Probes
