import Rekuest.Concurrent.Beside
import Rekuest.Server.Deadlines

/-!
# Interrupting a subtree

`request_control` finds the tasks below a run by their `root_id`: the call is
followed beside everything else the server does, with the state each of its
transactions met.  Below the root of a tree it reaches every task; below any
other task it reaches the task itself and the children that are still held.
-/

namespace Rekuest

open Concurrent

/-- The task a frame is about. -/
def ToAgent.task : ToAgent → Nat
  | .assign frame => frame.task
  | .cancel task | .interrupt task | .pause task | .resume task _ => task
  | .decide task .. => task

/-- Everything the server keeps of a task is as it was. -/
structure Db.Spares (db db' : Db) (x : Nat) : Prop where
  row : db'.task? x = db.task? x
  events : db'.eventsOf x = db.eventsOf x
  instructs : db'.instructs.filter (·.task == x) = db.instructs.filter (·.task == x)
  sent : db'.sent.filter (·.2.task == x) = db.sent.filter (·.2.task == x)

/-- A transaction of one call. -/
abbrev TxnMoment := Moment Env Db Txn

/-- The moment finds the task open, and settles it as interrupted or instructs
it, with the deadline of the call's clock. -/
def Interrupts (settings : Settings) (caller : Option Nat) (trace : List TxnMoment)
    (m : TxnMoment) (x : Nat) : Prop :=
  ∃ row row', m.before.task? x = some row ∧ row.isDone = false ∧
    (m.after (machine settings)).task? x = some row' ∧
    ((row'.isDone = true ∧ row'.latestEventKind = .interrupted) ∨
      (row'.latestInstructKind = .interrupt ∧
        (∃ clock ∈ trace, row'.interruptAt = controlDeadline settings clock.env.now .interrupt) ∧
        (m.after (machine settings)).instructs =
          m.before.instructs ++ [{ task := x, kind := .interrupt, caller := caller }]))

/-- Every task below `t` was done or is interrupted, and no other is touched. -/
structure ReachesSubtree (settings : Settings) (caller : Option Nat) (t : Nat) (start : Db)
    (trace : List TxnMoment) : Prop where
  subtree : ∀ x, start.Descends t x →
    ∃ m ∈ trace, m.before.Done x ∨ Interrupts settings caller trace m x
  others : ∀ m ∈ trace, ∀ x, m.before.Exists x → ¬ m.before.Descends t x →
    m.before.Spares (m.after (machine settings)) x

/-- The call of `interrupt` on `t`, accepted, beside everything else. -/
abbrev AcceptedInterrupt (settings : Settings) (t : Nat) (caller : Option Nat)
    (c : ServerConfig) (trace : List TxnMoment) (c' : ServerConfig) : Prop :=
  Beside (machine settings) (machine settings).others (interrupt settings t caller) c trace
    true c'

/-! ## What the control of one target does -/

section

variable {settings : Settings} {e : Env} {db : Db} {x target : Nat}

theorem Db.Spares.refl (db : Db) (x : Nat) : db.Spares db x := ⟨rfl, rfl, rfl, rfl⟩

/-- A control spares every task but its target and the lower child of a held
target. -/
theorem controlTarget_spares {control : Control} {caller : Option Nat}
    {interruptAt : Option Int} {row : Task} (hRow : db.task? x = some row) (hNe : x ≠ target)
    (hLower : ∀ trow, db.task? target = some trow → trow.isDone = false →
      trow.stillWaiting = true → trow.latestEventKind = .held → ¬ db.IsLower x target) :
    db.Spares (controlTarget e db target control caller interruptAt).2 x := by
  have hTables := controlTarget_instructs e db target control caller interruptAt
  have hBecomes : db.Becomes (controlTarget e db target control caller interruptAt).2 x row
      [] := by
    cases hTarget : db.task? target with
    | none =>
        simp only [controlTarget, hTarget]
        exact ⟨hRow, by simp⟩
    | some trow =>
        cases hOpen : trow.isDone with
        | true =>
            simp only [controlTarget, hTarget, hOpen, if_true]
            exact ⟨hRow, by simp⟩
        | false =>
            simp only [controlTarget, hTarget, hOpen, Bool.false_eq_true, if_false]
            split
            case h_1 outcome _ hWaiting =>
              obtain ⟨event, -, hNew⟩ := settleTarget_becomes hRow e.now target trow
                control.instructKind outcome
              have hSpared : ¬ (trow.latestEventKind = .held ∧ x = runnerOf db target) := by
                rintro ⟨hHeld, hRunner⟩
                exact hLower trow hTarget hOpen hWaiting hHeld
                  (hRunner ▸ Db.runnerOf_isLower (hRunner ▸ hNe))
              rw [if_neg hNe, if_neg hNe, if_neg hSpared] at hNew
              exact hNew
            case h_2 =>
              constructor
              · simp [Db.task?_modifyTask, Ne.symm hNe, hRow]
              · simp [Ne.symm hNe]
  refine ⟨hBecomes.1.trans hRow.symm, by rw [hBecomes.2, List.append_nil], ?_, by rw [hTables.1]⟩
  rcases hTables.2.2 with hSame | ⟨_, -, -, hNew⟩
  · rw [hSame]
  · rw [hNew]
    simp [Ne.symm hNe]

/-- The interrupt of an open target reaches it. -/
theorem interrupts_target {caller : Option Nat} {trace : List TxnMoment} {m clock : TxnMoment}
    (hClock : clock ∈ trace)
    (hOp : m.op = .controlTarget x .interrupt caller
      (controlDeadline settings clock.env.now .interrupt))
    {row : Task} (hRow : m.before.task? x = some row) (hOpen : row.isDone = false) :
    Interrupts settings caller trace m x := by
  obtain ⟨env, op, before⟩ := m
  subst hOp
  simp only [Interrupts, Moment.after]
  refine ⟨row, ?_⟩
  have hExec : (((machine settings).exec env (.controlTarget x .interrupt caller
      (controlDeadline settings clock.env.now .interrupt)) before).2 : Db) =
      (controlTarget env before x .interrupt caller
        (controlDeadline settings clock.env.now .interrupt)).2 := rfl
  rw [hExec]
  simp only [controlTarget, hRow, hOpen, Bool.false_eq_true, if_false]
  split
  case h_1 outcome hOutcome _ =>
    cases hOutcome
    obtain ⟨event, -, hNew⟩ := settleTarget_becomes hRow env.now x row
      Control.interrupt.instructKind .interrupted
    rw [if_pos rfl] at hNew
    exact ⟨_, trivial, trivial, hNew.1, .inl ⟨rfl, rfl⟩⟩
  case h_2 =>
    exact ⟨_, trivial, trivial, by simp [hRow]; rfl, .inr ⟨rfl, ⟨clock, hClock, rfl⟩, rfl⟩⟩

end

/-! ## What the call does -/

/-- The moment only reads. -/
def Reads (m : TxnMoment) : Prop := ∃ α read, m.op = .query α read

/-- The moment controls the task, or tells its agent. -/
def Controls (caller : Option Nat) (at' : Option Int) (x : Nat) (m : TxnMoment) : Prop :=
  m.op = .controlTarget x .interrupt caller at' ∨
    ∃ agent, m.op = .deliver agent (.interrupt x)

/-- The targets of an interrupt, by the states its three reads met. -/
def interruptTargets (t : Nat) (self running held : Db) : List (Nat × Nat) :=
  let run := (self.targetsWhere fun id _ => id == t) ++
    running.targetsWhere fun _ row => row.root == some t && !row.isDone
  run ++ (held.targetsWhere fun _ row => row.parent == some t && row.isWaitingHeld).filter
    fun child => !run.contains child

/-- What an accepted call goes on with. -/
def interruptAll (settings : Settings) (t : Nat) (caller : Option Nat) : Program Bool := do
  let targets ← controlTargets t .interrupt
  let interruptAt : Option Int ← run (.query (Option Int) fun e _ =>
    controlDeadline settings e.now .interrupt)
  Prog.forEach targets (controlOne .interrupt caller interruptAt)
  return true

section

variable {settings : Settings} {R : ServerConfig → ServerConfig → Prop}
variable {c c' : ServerConfig} {trace : List TxnMoment} {t : Nat} {caller : Option Nat}

theorem reads_of {α : Type} {e : Env} {read : Env → Db → α} {s : Db} :
    Reads { env := e, op := .query α read, before := s } := ⟨α, read, rfl⟩

theorem controlOne_trace {interruptAt : Option Int} {target : Nat × Nat} {a : Unit}
    (h : Beside (machine settings) R (controlOne .interrupt caller interruptAt target) c trace
      a c') :
    (∃ m ∈ trace, m.op = .controlTarget target.1 .interrupt caller interruptAt) ∧
      ∀ m ∈ trace, Controls caller interruptAt target.1 m := by
  simp only [controlOne, run, Prog.bind_eq, Prog.perform_bind] at h
  obtain ⟨c₁, e, rest, -, rfl, hRest⟩ := h.of_act
  refine ⟨⟨_, List.mem_cons_self, rfl⟩, fun m hm => ?_⟩
  rcases List.mem_cons.mp hm with rfl | hm
  · exact .inl rfl
  · split at hRest
    case isTrue =>
      obtain ⟨c₂, e', rest', -, rfl, hEnd⟩ := hRest.of_act
      rw [(Beside.of_ret hEnd).2.1, List.mem_singleton] at hm
      subst hm
      exact .inr ⟨target.2, rfl⟩
    case isFalse =>
      rw [(Beside.of_ret hRest).2.1] at hm
      cases hm

/-- What an accepted call reads, and the loop it ends in. -/
theorem interruptAll_trace {b : Bool}
    (h : Beside (machine settings) R (interruptAll settings t caller) c trace b c') :
    b = true ∧ ∃ c₁ c₂ c₃ c₄ reads clock rest c₅, Relation.ReflTransGen R c c₁ ∧
      Relation.ReflTransGen R c₁ c₂ ∧ Relation.ReflTransGen R c₂ c₃ ∧
      Relation.ReflTransGen R c₃ c₄ ∧ trace = reads ++ clock :: rest ∧
      (∀ m ∈ reads, Reads m) ∧ Reads clock ∧ (∃ m ∈ reads, m.before = c₂.state) ∧
      Beside (machine settings) R
        (Prog.forEach (interruptTargets t c₁.state c₂.state c₃.state)
          (controlOne .interrupt caller (controlDeadline settings clock.env.now .interrupt)))
        c₄ rest () c₅ := by
  simp only [interruptAll, controlTargets, select, run, Control.propagates,
    Control.waitingOutcome, Option.isSome_some, if_true, Prog.bind_eq, Prog.pure_eq,
    Prog.perform_bind, Prog.act_bind, Prog.ret_bind] at h
  obtain ⟨c₁, e₁, _, h₁, rfl, hRunning⟩ := h.of_act
  obtain ⟨c₂, e₂, _, h₂, rfl, hHeld⟩ := hRunning.of_act
  obtain ⟨c₃, e₃, _, h₃, rfl, hClock⟩ := hHeld.of_act
  obtain ⟨c₄, e₄, _, h₄, rfl, hControls⟩ := hClock.of_act
  obtain ⟨rest, _, c₅, _, rfl, hLoop, hEnd⟩ := hControls.of_bind
  obtain ⟨hResult, rfl, -⟩ := hEnd.of_ret
  refine ⟨hResult, c₁, c₂, c₃, c₄, [_, _, _], _, rest, c₅, h₁, h₂, h₃, h₄,
    by rw [List.append_nil]; rfl, ?_, reads_of, ⟨_, List.mem_cons_of_mem _ List.mem_cons_self,
      rfl⟩, hLoop⟩
  intro m hm
  simp only [List.mem_cons, List.not_mem_nil, or_false] at hm
  rcases hm with rfl | rfl | rfl <;> exact reads_of

/-- Before an accepted call goes on it has only read. -/
theorem interrupt_trace
    (h : Beside (machine settings) R (interrupt settings t caller) c trace true c') :
    ∃ c₀ reads rest, Relation.ReflTransGen R c c₀ ∧ trace = reads ++ rest ∧
      (∀ m ∈ reads, Reads m) ∧
      Beside (machine settings) R (interruptAll settings t caller) c₀ rest true c' := by
  simp only [interrupt, requestControl, select, run, Prog.bind_eq, Prog.perform_bind] at h
  obtain ⟨c₁, e₁, rest, h₁, rfl, hRest⟩ := h.of_act
  have hGo {c₁ : ServerConfig} {rest : List TxnMoment} {foreign : Bool} {row : ControlRow}
      (h : Beside (machine settings) R (if (foreign || row.refuses .interrupt) = true then
        pure false else interruptAll settings t caller) c₁ rest true c') :
      Beside (machine settings) R (interruptAll settings t caller) c₁ rest true c' := by
    split at h
    case isTrue => cases (Beside.of_ret h).1
    case isFalse => exact h
  split at hRest
  case h_1 => cases (Beside.of_ret hRest).1
  case h_2 row hRow =>
    cases caller with
    | none =>
        refine ⟨c₁, [_], rest, h₁, rfl, fun m hm => ?_, hGo hRest⟩
        rw [List.mem_singleton] at hm
        subst hm
        exact reads_of
    | some caller =>
        obtain ⟨c₂, e₂, rest, h₂, rfl, hNext⟩ := hRest.of_act
        refine ⟨c₂, [_, _], rest, h₁.trans h₂, rfl, fun m hm => ?_, hGo hNext⟩
        simp only [List.mem_cons, List.not_mem_nil, or_false] at hm
        rcases hm with rfl | rfl <;> exact reads_of

theorem mem_interruptTargets {self running held : Db} {target : Nat × Nat}
    (h : target ∈ interruptTargets t self running held) :
    target.1 = t ∨ (∃ row, running.task? target.1 = some row ∧ row.root = some t) ∨
      ∃ row, held.task? target.1 = some row ∧ row.parent = some t ∧
        row.isWaitingHeld = true := by
  simp only [interruptTargets, List.mem_append, List.mem_filter, Db.mem_targetsWhere,
    Bool.and_eq_true, beq_iff_eq] at h
  rcases h with (⟨_, -, hSelf, -⟩ | ⟨row, hRow, ⟨hRoot, -⟩, -⟩) | ⟨⟨row, hRow, hHeld, -⟩, -⟩
  · exact .inl hSelf
  · exact .inr (.inl ⟨row, hRow, hRoot⟩)
  · exact .inr (.inr ⟨row, hRow, hHeld⟩)

/-- The moments of an accepted call: its reads, then those of its targets. -/
theorem interrupt_moments (hOk : (discipline settings False).Ok c)
    (h : AcceptedInterrupt settings t caller c trace c') :
    ∃ self running held reads clock rest, c.state.Later self ∧ self.Later running ∧
      running.Later held ∧ running.Tree ∧ trace = reads ++ clock :: rest ∧
      (∀ m ∈ reads, Reads m) ∧ Reads clock ∧ (∃ m ∈ reads, m.before = running) ∧
      (∀ m ∈ rest, held.Later m.before) ∧
      (∀ target ∈ interruptTargets t self running held, ∃ m ∈ rest,
        m.op = .controlTarget target.1 .interrupt caller
          (controlDeadline settings clock.env.now .interrupt)) ∧
      ∀ m ∈ rest, ∃ target ∈ interruptTargets t self running held,
        Controls caller (controlDeadline settings clock.env.now .interrupt) target.1 m := by
  have hMoves {c c₁ : ServerConfig} (hOk : (discipline settings False).Ok c)
      (hMove : Relation.ReflTransGen (machine settings).others c c₁) :
      (discipline settings False).Ok c₁ ∧ c.state.Later c₁.state :=
    have hRun := Machine.run_of_others hMove
    ⟨hOk.run (discipline_sound settings False) (fun _ _ _ => allows_any) hRun,
      hOk.run_later (discipline_sound settings False) (fun _ _ _ => allows_any) hRun⟩
  obtain ⟨c₀, before, all, h₀, rfl, hBefore, hAll⟩ := interrupt_trace h
  obtain ⟨-, c₁, c₂, c₃, c₄, reads, clock, rest, c₅, h₁, h₂, h₃, h₄, rfl, hReads, hClock,
    hRunning, hLoop⟩ := interruptAll_trace hAll
  obtain ⟨hOk₁, hLater₁⟩ := hMoves hOk (h₀.trans h₁)
  obtain ⟨hOk₂, hLater₂⟩ := hMoves hOk₁ h₂
  obtain ⟨hOk₃, hLater₃⟩ := hMoves hOk₂ h₃
  obtain ⟨hOk₄, hLater₄⟩ := hMoves hOk₃ h₄
  have hSafe : Safely settings False ((Prog.forEach (interruptTargets t c₁.state c₂.state
      c₃.state) (controlOne .interrupt caller (controlDeadline settings clock.env.now
        .interrupt))).bind fun _ => .ret ()) c₄.state :=
    safely_forEach (fun _ _ _ _ _ _ hg => safely_controlOne (fun hStrict => hStrict.elim) hg)
      hOk₄.inv fun _ _ _ => safely_ret
  have hLoopLater := hLoop.safe (discipline_sound settings False) (fun _ _ _ h => h.elim)
    (fun _ _ hMove hOk => hMoves hOk (.single hMove)) _ hOk₄ hSafe
  refine ⟨c₁.state, c₂.state, c₃.state, before ++ reads, clock, rest, hLater₁, hLater₂,
    hLater₃, hOk₂.inv.tree, (List.append_assoc ..).symm, ?_, hClock, ?_, ?_, ?_, ?_⟩
  · intro m hm
    exact (List.mem_append.mp hm).elim (hBefore m) (hReads m)
  · obtain ⟨m, hm, hEq⟩ := hRunning
    exact ⟨m, List.mem_append_right _ hm, hEq⟩
  · exact fun m hm => hLater₄.trans (hLoopLater m hm).2
  · intro target hTarget
    obtain ⟨_, turn, _, _, hTurn, hBody⟩ := hLoop.turn_of_mem hTarget
    obtain ⟨m, hm, hOp⟩ := (controlOne_trace hBody).1
    exact ⟨m, hTurn m hm, hOp⟩
  · intro m hm
    obtain ⟨target, hTarget, _, turn, _, _, hTurn, hBody⟩ := hLoop.mem_turn hm
    exact ⟨target, hTarget, (controlOne_trace hBody).2 m hTurn⟩

/-! ## What it touches -/

theorem Db.Later.descends {db db' : Db} (h : db.Later db') {x : Nat}
    (hDesc : db.Descends t x) : db'.Descends t x := by
  induction hDesc with
  | refl => exact Relation.ReflTransGen.refl
  | tail _ hChild ih =>
      obtain ⟨row, hRow, hParent⟩ := hChild
      obtain ⟨row', hRow', hLater⟩ := h.row hRow
      exact ih.tail ⟨row', hRow', hLater.identity.parent.trans hParent⟩

theorem spares_of_reads (settings : Settings) {m : TxnMoment} (h : Reads m) (x : Nat) :
    m.before.Spares (m.after (machine settings)) x := by
  obtain ⟨env, op, before⟩ := m
  obtain ⟨α, read, hOp⟩ := h
  cases hOp
  exact .refl before x

/-- A control of a task spares what is neither it nor below it. -/
theorem spares_of_controls (settings : Settings) {m : TxnMoment} {interruptAt : Option Int} {x y : Nat}
    (h : Controls caller interruptAt y m) {row : Task} (hRow : m.before.task? x = some row)
    (hNe : x ≠ y) (hLower : ∀ yrow, m.before.task? y = some yrow → yrow.isDone = false →
      yrow.stillWaiting = true → ¬ m.before.IsLower x y) :
    m.before.Spares (m.after (machine settings)) x := by
  obtain ⟨env, op, before⟩ := m
  rcases h with hOp | ⟨agent, hOp⟩
  · cases hOp
    exact controlTarget_spares hRow hNe fun yrow hY hOpen hWaiting _ =>
      hLower yrow hY hOpen hWaiting
  · cases hOp
    simp only [Moment.after, machine, Txn.exec]
    split
    · exact ⟨rfl, rfl, rfl, by simp [ToAgent.task, Ne.symm hNe]⟩
    · exact .refl before x

/-- **An interrupt touches no task outside the subtree.** -/
theorem interrupt_spares (hOk : (discipline settings False).Ok c)
    (h : AcceptedInterrupt settings t caller c trace c') :
    ∀ m ∈ trace, ∀ x, m.before.Exists x → ¬ m.before.Descends t x →
      m.before.Spares (m.after (machine settings)) x := by
  obtain ⟨self, running, held, reads, clock, rest, -, -, hHeld, hTree, rfl, hReads, hClock, -,
    hLater, -, hOps⟩ := interrupt_moments hOk h
  intro m hm x ⟨row, hRow⟩ hOutside
  rcases List.mem_append.mp hm with hm | hm
  · exact spares_of_reads settings (hReads m hm) x
  rcases List.mem_cons.mp hm with rfl | hm
  · exact spares_of_reads settings hClock x
  · obtain ⟨target, hTarget, hControls⟩ := hOps m hm
    have hDesc : m.before.Descends t target.1 := by
      rcases mem_interruptTargets hTarget with hSelf | ⟨trow, hTRow, hRoot⟩ |
        ⟨trow, hTRow, hParent, -⟩
      · rw [hSelf]
        exact Relation.ReflTransGen.refl
      · exact (hHeld.trans (hLater m hm)).descends (hTree.descends_of_root hTRow hRoot)
      · exact (hLater m hm).descends (Relation.ReflTransGen.single ⟨trow, hTRow, hParent⟩)
    refine spares_of_controls settings hControls hRow ?_ ?_
    · rintro rfl
      exact hOutside hDesc
    · exact fun _ _ _ _ hLower => hOutside (hDesc.lower hLower)

/-! ## What it reaches -/

/-- A target of the call was done when its turn came, or is interrupted. -/
theorem target_reached {m clock : TxnMoment} {x : Nat} (hm : m ∈ trace) (hClock : clock ∈ trace)
    (hExists : m.before.Exists x)
    (hOp : m.op = .controlTarget x .interrupt caller
      (controlDeadline settings clock.env.now .interrupt)) :
    ∃ m ∈ trace, m.before.Done x ∨ Interrupts settings caller trace m x := by
  obtain ⟨row, hRow⟩ := hExists
  cases hOpen : row.isDone with
  | true => exact ⟨m, hm, .inl ⟨row, hRow, hOpen⟩⟩
  | false => exact ⟨m, hm, .inr (interrupts_target hClock hOp hRow hOpen)⟩

/-- The call reaches what is done, the task itself and what has it as root. -/
theorem interrupt_reaches (hOk : (discipline settings False).Ok c)
    (h : AcceptedInterrupt settings t caller c trace c') {x : Nat} {row : Task}
    (hRow : c.state.task? x = some row)
    (hx : row.isDone = true ∨ x = t ∨ row.root = some t) :
    ∃ m ∈ trace, m.before.Done x ∨ Interrupts settings caller trace m x := by
  obtain ⟨self, running, held, reads, clock, rest, hSelf, hRunning, hHeld, -, rfl, -, -,
    ⟨read, hRead, hBefore⟩, hLater, hTargets, -⟩ := interrupt_moments hOk h
  have hClock : clock ∈ reads ++ clock :: rest :=
    List.mem_append_right _ List.mem_cons_self
  have hRest {m : TxnMoment} (hm : m ∈ rest) : m ∈ reads ++ clock :: rest :=
    List.mem_append_right _ (List.mem_cons_of_mem _ hm)
  have hReached (agent : Nat) (hTarget : (x, agent) ∈ interruptTargets t self running held) :
      ∃ m ∈ reads ++ clock :: rest, m.before.Done x ∨
        Interrupts settings caller (reads ++ clock :: rest) m x := by
    obtain ⟨m, hm, hOp⟩ := hTargets _ hTarget
    have hAll := (hSelf.trans (hRunning.trans hHeld)).trans (hLater m hm)
    exact target_reached (hRest hm) hClock (hAll.exists ⟨row, hRow⟩) hOp
  obtain ⟨srow, hSRow, hSLater⟩ := hSelf.row hRow
  obtain ⟨rrow, hRRow, hRLater⟩ := hRunning.row hSRow
  have hReadDone (hDone : rrow.isDone = true) :
      ∃ m ∈ reads ++ clock :: rest, m.before.Done x ∨
        Interrupts settings caller (reads ++ clock :: rest) m x :=
    ⟨read, List.mem_append_left _ hRead, .inl ⟨rrow, hBefore ▸ hRRow, hDone⟩⟩
  rcases hx with hDone | rfl | hRoot
  · exact hReadDone (hRLater.done (hSLater.done hDone))
  · refine hReached srow.agent ?_
    exact List.mem_append_left _ (List.mem_append_left _
      (Db.mem_targetsWhere.mpr ⟨srow, hSRow, beq_self_eq_true x, rfl⟩))
  · cases hOpen : rrow.isDone with
    | true => exact hReadDone hOpen
    | false =>
        refine hReached rrow.agent ?_
        have hRoot' : rrow.root = some t :=
          hRLater.identity.root.trans (hSLater.identity.root.trans hRoot)
        exact List.mem_append_left _ (List.mem_append_right _
          (Db.mem_targetsWhere.mpr ⟨rrow, hRRow, by simp [hRoot', hOpen], rfl⟩))

/-! ## What it misses -/

/-- An agent that reports on an open task has picked it up. -/
theorem pick_up (settings : Settings) {x : Nat} {row : Task} (hRow : c.state.task? x = some row) :
    ∃ c₁ row', Relation.ReflTransGen (machine settings).others c c₁ ∧
      c₁.state.task? x = some row' ∧ row.SameIdentity row' ∧ row'.isDone = row.isDone ∧
      (row'.isDone = false → row'.pickedUpAt.isSome = true) ∧
      (∀ y, x ≠ y → c₁.state.task? y = c.state.task? y) ∧
      c₁.state.agents = c.state.agents := by
  by_cases hWaits : row.pickedUpAt = none ∧ row.isDone = false
  case neg =>
    refine ⟨c, row, .refl, hRow, .refl row, rfl, fun hOpen => ?_, fun _ _ => rfl, rfl⟩
    cases hPicked : row.pickedUpAt with
    | none => exact absurd ⟨hPicked, hOpen⟩ hWaits
    | some at' => rfl
  case pos =>
    obtain ⟨hNone, hOpen⟩ := hWaits
    have hFirst : ∃ read k, (machine settings).handler
          (.report row.agent { task := x, report := .started }) =
        .act (.query (Option Task) read) k ∧ read {} c.state = some row ∧
        ∃ k', k (some row) = .act (.stampPickup x) k' := by
      refine ⟨_, _, rfl, by simp [hRow], ?_⟩
      simp only [Prog.ret_bind, hNone, hOpen, Option.isNone_none, Bool.not_false, Bool.and_self,
        if_true]
      exact ⟨_, rfl⟩
    obtain ⟨read, k, hHandler, hRead, k', hStamp⟩ := hFirst
    have hStart := Machine.others_start (M := machine settings) c
      (.report row.agent { task := x, report := .started })
    rw [hHandler] at hStart
    have hReads := Machine.others_step (M := machine settings) (i := c.threads.length)
      (c := { c with threads := c.threads ++ [.act (.query (Option Task) read) k] })
      List.getElem?_concat_length {}
    have hExec : (machine settings).exec {} (.query (Option Task) read) c.state =
        (some row, c.state) := by
      rw [← hRead]
      rfl
    rw [hExec, hStamp] at hReads
    have hStamps := Machine.others_step (M := machine settings) (i := c.threads.length)
      (c := ⟨c.state, (c.threads ++ [Prog.act (Txn.query (Option Task) read) k]).set
        c.threads.length (Prog.act (.stampPickup x) k')⟩) (List.getElem?_set_self (by simp)) {}
    refine ⟨_, { row with pickedUpAt := some 0 }, .head hStart (.head hReads (.single hStamps)),
      ?_, ⟨rfl, rfl, rfl, rfl, rfl, rfl, rfl⟩, rfl, fun _ => rfl, fun y hNe => ?_, rfl⟩
    · simp [machine, Txn.exec, stampPickup, hRow, hNone]
    · exact Db.task?_modifyTask_ne hNe

/-- A row that no control settles together with a held wrapper. -/
def Task.Started (row : Task) : Prop := row.isDone = true ∨ row.pickedUpAt.isSome = true

/-- A control of another task leaves a task started. -/
theorem started_of_controls {m : TxnMoment} {interruptAt : Option Int} {p y : Nat}
    (h : Controls caller interruptAt y m) {row : Task} (hRow : m.before.task? p = some row)
    (hStarted : row.Started) :
    ∃ row', (m.after (machine settings)).task? p = some row' ∧ row'.Started := by
  obtain ⟨env, op, before⟩ := m
  rcases h with hOp | ⟨agent, hOp⟩
  · cases hOp
    obtain ⟨row', _, hBecomes, hStep⟩ := controlTarget_steps (e := env) hRow y .interrupt caller
      interruptAt
    refine ⟨row', hBecomes.1, ?_⟩
    cases hStep
    case same => exact hStarted
    case dated hDates => exact hDates.elim
    case controlSettled => exact .inl rfl
    case lowerSettled => exact .inl rfl
    case instructed => exact hStarted
  · cases hOp
    refine ⟨row, ?_, hStarted⟩
    simp only [Moment.after, machine, Txn.exec]
    split <;> exact hRow

/-- What the quiet call keeps of a task below `t` that it does not find. -/
structure Missed (x p : Nat) (xrow : Task) (db : Db) : Prop where
  row : db.task? x = some xrow
  parent : ∃ prow, db.task? p = some prow ∧ prow.Started

theorem missed_after {m : TxnMoment} {interruptAt : Option Int} {x p y : Nat} {xrow : Task}
    (hParent : xrow.parent = some p) (h : Controls caller interruptAt y m) (hNe : x ≠ y)
    (hMissed : Missed x p xrow m.before) :
    Missed x p xrow (m.after (machine settings)) ∧
      m.before.Spares (m.after (machine settings)) x := by
  have hSpares := spares_of_controls settings h hMissed.row hNe (by
    rintro yrow hY hOpen hWaiting ⟨row, hRow, -, hLowerParent⟩
    rw [hMissed.row, Option.some.injEq] at hRow
    subst hRow
    rw [hParent, Option.some.injEq] at hLowerParent
    subst hLowerParent
    obtain ⟨prow, hProw, hStarted⟩ := hMissed.parent
    rw [hY, Option.some.injEq] at hProw
    subst hProw
    rcases hStarted with hDone | hPicked
    · rw [hOpen] at hDone
      cases hDone
    · simp [Task.stillWaiting, Option.isNone_iff_eq_none, Option.isSome_iff_ne_none.mp hPicked]
        at hWaiting)
  obtain ⟨prow, hProw, hStarted⟩ := hMissed.parent
  exact ⟨⟨hSpares.row.trans hMissed.row, started_of_controls h hProw hStarted⟩, hSpares⟩

/-- What is not touched is not interrupted. -/
theorem not_interrupts_of_spares {m : TxnMoment} {x : Nat} {xrow : Task}
    (hRow : m.before.task? x = some xrow) (hOpen : xrow.isDone = false)
    (hSpares : m.before.Spares (m.after (machine settings)) x) :
    ¬ (m.before.Done x ∨ Interrupts settings caller trace m x) := by
  rintro (⟨row, hDone, hIsDone⟩ | ⟨row, row', -, -, hAfter, hReached⟩)
  · rw [hRow, Option.some.injEq] at hDone
    rw [← hDone, hOpen] at hIsDone
    cases hIsDone
  · rw [hSpares.row, hRow, Option.some.injEq] at hAfter
    subst hAfter
    rcases hReached with ⟨hIsDone, -⟩ | ⟨-, -, hInstructs⟩
    · rw [hOpen] at hIsDone
      cases hIsDone
    · have hSame := hSpares.instructs
      rw [hInstructs, List.filter_append] at hSame
      simp at hSame

/-- **Below a task that is no root an interrupt misses what is open**: with the
agents of the task and of its parent at work on them, the call finds neither. -/
theorem interrupt_misses (hOk : (discipline settings False).Ok c)
    {row : Task} (hRow : c.state.task? t = some row) (hOpen : row.isDone = false)
    (hAgent : row.agent < c.state.agents.length) {r : Nat} (hRoot : row.root = some r) {x : Nat}
    (hDesc : c.state.Descends t x) (hNe : x ≠ t) (hx : ¬ c.state.Done x) :
    ∃ trace c', AcceptedInterrupt settings t none c trace c' ∧
      ∀ m ∈ trace, ¬ (m.before.Done x ∨ Interrupts settings none trace m x) := by
  obtain ⟨p, xrow, -, hXRow, hParent⟩ := hDesc.parent hNe
  obtain ⟨hLt, prow, hProw, -⟩ := hOk.inv.tree.parent hXRow hParent
  have hXOpen : xrow.isDone = false := by
    cases hDone : xrow.isDone with
    | true => exact absurd ⟨xrow, hXRow, hDone⟩ hx
    | false => rfl
  -- the two agents report
  obtain ⟨c₁, xrow₁, hFirst, hX₁, hXSame, hXDone, hXPicked, hOther₁, hAgents₁⟩ := pick_up
    settings hXRow
  have hProw₁ : c₁.state.task? p = some prow := by
    rw [hOther₁ p (by omega)]
    exact hProw
  obtain ⟨c₂, prow₂, hSecond, hP₂, hPSame, hPDone, hPPicked, hOther₂, hAgents₂⟩ := pick_up
    settings hProw₁
  have hX₂ : c₂.state.task? x = some xrow₁ := by
    rw [hOther₂ x (by omega)]
    exact hX₁
  have hRun := Machine.run_of_others (hFirst.trans hSecond)
  have hOk₂ : (discipline settings False).Ok c₂ :=
    hOk.run (discipline_sound settings False) (fun _ _ _ => allows_any) hRun
  have hLater : c.state.Later c₂.state :=
    hOk.run_later (discipline_sound settings False) (fun _ _ _ => allows_any) hRun
  have hXOpen₁ : xrow₁.isDone = false := hXDone.trans hXOpen
  have hMissed : Missed x p xrow₁ c₂.state := by
    refine ⟨hX₂, prow₂, hP₂, ?_⟩
    cases hDone : prow₂.isDone with
    | true => exact .inl hDone
    | false => exact .inr (hPPicked hDone)
  have hTask : ∃ trow, c₂.state.task? t = some trow ∧ trow.isDone = false ∧
      trow.agent = row.agent ∧ trow.root = some r := by
    by_cases hEq : p = t
    · subst hEq
      rw [hRow, Option.some.injEq] at hProw
      subst hProw
      exact ⟨prow₂, hP₂, hPDone.trans hOpen, hPSame.agent, hPSame.root.trans hRoot⟩
    · refine ⟨row, ?_, hOpen, rfl, hRoot⟩
      rw [hOther₂ t hEq, hOther₁ t hNe]
      exact hRow
  obtain ⟨trow, hTRow, hTOpen, hTAgent, hTRoot⟩ := hTask
  have hTAgent' : trow.agent < c₂.state.agents.length := by
    rw [hTAgent, hAgents₂, hAgents₁]
    exact hAgent
  obtain ⟨crow, hCRow, hAccepts⟩ := Db.Open.controlRow ⟨trow, hTRow, hTOpen, hTAgent'⟩
  -- then the call runs undisturbed
  obtain ⟨rest, b, c', hAll⟩ := Beside.alone (machine settings) {} (interruptAll settings t none)
    c₂
  obtain ⟨rfl, d₁, d₂, d₃, d₄, reads, clock, loop, d₅, h₁, h₂, h₃, h₄, rfl, hReads, hClock, -,
    hLoop⟩ := interruptAll_trace hAll
  cases Beside.quiet_eq h₁
  cases Beside.quiet_eq h₂
  cases Beside.quiet_eq h₃
  have hCall : Beside (machine settings) Beside.Quiet (interrupt settings t none) c₂
      ({ env := {}, op := .query (Option ControlRow) fun _ db => controlRow db t,
         before := c₂.state } :: (reads ++ clock :: loop)) true c' := by
    refine Beside.own (M := machine settings) ({} : Env) ?_
    simp only [machine, Txn.exec, hCRow, Prog.pure_eq, Prog.ret_bind, hAccepts, Bool.or_false]
    exact hAll
  have hEach : ∀ m ∈ reads ++ clock :: loop, Reads m ∨
      ∃ y, x ≠ y ∧ Controls none (controlDeadline settings clock.env.now .interrupt) y m := by
    intro m hm
    rcases List.mem_append.mp hm with hm | hm
    · exact .inl (hReads m hm)
    rcases List.mem_cons.mp hm with rfl | hm
    · exact .inl hClock
    · obtain ⟨target, hTarget, _, turn, _, _, hTurn, hBody⟩ := hLoop.mem_turn hm
      refine .inr ⟨target.1, ?_, (controlOne_trace hBody).2 m hTurn⟩
      rcases mem_interruptTargets hTarget with hSelf | ⟨yrow, hYRow, hYRoot⟩ |
        ⟨yrow, hYRow, -, hWaiting⟩
      · rw [hSelf]
        exact hNe
      · obtain ⟨rrow, hRRow, hNone⟩ := hOk₂.inv.tree.root_of_root hYRow hYRoot
        rw [hTRow, Option.some.injEq] at hRRow
        rw [← hRRow, hTRoot] at hNone
        cases hNone
      · rintro rfl
        rw [hX₂, Option.some.injEq] at hYRow
        subst hYRow
        simp [Task.isWaitingHeld, Option.isNone_iff_eq_none,
          Option.isSome_iff_ne_none.mp (hXPicked hXOpen₁)] at hWaiting
  have hStep {m : TxnMoment} (hm : m ∈ reads ++ clock :: loop)
      (hBefore : Missed x p xrow₁ m.before) : Missed x p xrow₁ (m.after (machine settings)) ∧
        m.before.Spares (m.after (machine settings)) x := by
    rcases hEach m hm with hRead | ⟨y, hXY, hControls⟩
    · have hSpares := spares_of_reads settings hRead
      obtain ⟨prow', hProw', hStarted⟩ := hBefore.parent
      exact ⟨⟨(hSpares x).row.trans hBefore.row, prow', (hSpares p).row.trans hProw', hStarted⟩,
        hSpares x⟩
    · exact missed_after (hXSame.parent.trans hParent) hControls hXY hBefore
  have hMoments := hAll.invariant (I := Missed x p xrow₁) (fun _ _ h => h.elim) hMissed
    fun m hm hBefore => (hStep hm hBefore).1
  refine ⟨_, c', (hCall.mono fun _ _ h => h.elim).after (hFirst.trans hSecond), fun m hm => ?_⟩
  rcases List.mem_cons.mp hm with rfl | hm
  · exact not_interrupts_of_spares hX₂ hXOpen₁ (.refl _ x)
  · exact not_interrupts_of_spares (hMoments m hm).row hXOpen₁ (hStep hm (hMoments m hm)).2

/-- **Interrupt reaches the whole subtree** of a task, under every interleaving,
if and only if the task is a root or nothing below it is open. -/
theorem interrupt_reaches_subtree {c₀ : ServerConfig} (hInit : Initial c₀)
    (hExist : c₀.state.AgentsExist) (hRun : (server settings).Run System.anyStep c₀ c)
    {row : Task} (hRow : c.state.task? t = some row) (hOpen : row.isDone = false) :
    (∀ caller trace c', AcceptedInterrupt settings t caller c trace c' →
      ReachesSubtree settings caller t c.state trace) ↔
    (row.root = none ∨ ∀ x, c.state.Descends t x → x ≠ t → c.state.Done x) := by
  have hOk := ok_run hInit hRun
  constructor
  · intro hReaches
    cases hRoot : row.root with
    | none => exact .inl rfl
    | some r =>
        refine .inr fun x hDesc hNe => ?_
        refine Classical.byContradiction fun hx => ?_
        obtain ⟨trace, c', hCall, hMisses⟩ := interrupt_misses hOk hRow hOpen
          ((agents_run hInit hExist hRun).2 t row hRow) hRoot hDesc hNe hx
        obtain ⟨m, hm, hReached⟩ := (hReaches none trace c' hCall).subtree x hDesc
        exact hMisses m hm hReached
  · intro hCond caller trace c' hCall
    refine ⟨fun x hDesc => ?_, interrupt_spares hOk hCall⟩
    by_cases hEq : x = t
    · subst hEq
      exact interrupt_reaches hOk hCall hRow (.inr (.inl rfl))
    · rcases hCond with hRoot | hDone
      · obtain ⟨xrow, hXRow, hXRoot⟩ := (hOk.inv.tree.root_of_descends hRow hRoot
          hDesc).resolve_left hEq
        exact interrupt_reaches hOk hCall hXRow (.inr (.inr hXRoot))
      · obtain ⟨xrow, hXRow, hXDone⟩ := hDone x hDesc hEq
        exact interrupt_reaches hOk hCall hXRow (.inl hXDone)

end

/-- The person approves what agent 0 asked for: wrapper 1 under task 0, with its
lower child 2 on agent 1. -/
def approveWrapper : List (Choice Env Request) :=
  assignRoot ++ askWrapper ++ Request.alone (.decide person 1 true none none true) 2 5

theorem interrupt_reaches_subtree_root : ∃ c row, (server {}).Run System.anyStep demo c ∧
    c.state.task? 0 = some row ∧ row.isDone = false ∧ row.root = none ∧
    ∀ caller trace c', AcceptedInterrupt {} 0 caller c trace c' →
      ReachesSubtree {} caller 0 c.state trace := by
  obtain ⟨c, hRun, hCheck⟩ := System.run_of_play_any (server {}) System.anyStep demo
    approveWrapper (fun c => (c.state.task? 0).any fun t => !t.isDone && t.root == none)
    (by decide)
  obtain ⟨row, hRow, hAll⟩ := Option.any_eq_true _ _ |>.mp hCheck
  simp only [Bool.and_eq_true, Bool.not_eq_true', beq_iff_eq] at hAll
  have hExist : demo.state.AgentsExist := by
    simp [Db.AgentsExist, demo]
  exact ⟨c, row, hRun, hRow, hAll.1, hAll.2,
    (interrupt_reaches_subtree demo_initial hExist hRun hRow hAll.1).mpr (.inl hAll.2)⟩

/-- Wrapper 1 was approved and runs as its lower child 2: an accepted interrupt
of the wrapper leaves the child running. -/
theorem lower_child_missed : ∃ c trace c', (server {}).Run System.anyStep demo c ∧
    AcceptedInterrupt {} 1 none c trace c' ∧ c.state.IsLower 2 1 ∧
    ¬ ReachesSubtree {} none 1 c.state trace := by
  obtain ⟨c, hRun, hCheck⟩ := System.run_of_play_any (server {}) System.anyStep demo
    approveWrapper (fun c => c.state.agents.length == 2 &&
      ((c.state.task? 1).any fun t => !t.isDone && t.root == some 0 && t.agent == 0) &&
      (c.state.task? 2).any fun t => !t.isDone && t.isHigherOrderChild && t.parent == some 1)
    (by decide)
  simp only [Bool.and_eq_true, beq_iff_eq] at hCheck
  obtain ⟨⟨hAgents, hWrapper⟩, hLower⟩ := hCheck
  obtain ⟨row, hRow, hAll⟩ := Option.any_eq_true _ _ |>.mp hWrapper
  obtain ⟨lrow, hLRow, hLAll⟩ := Option.any_eq_true _ _ |>.mp hLower
  simp only [Bool.and_eq_true, Bool.not_eq_true', beq_iff_eq] at hAll hLAll
  have hIsLower : c.state.IsLower 2 1 := ⟨lrow, hLRow, hLAll.1.2, hLAll.2⟩
  have hDesc : c.state.Descends 1 2 := Relation.ReflTransGen.single ⟨lrow, hLRow, hLAll.2⟩
  have hOpen : ¬ c.state.Done 2 := by
    rintro ⟨row', hRow', hDone⟩
    rw [hLRow, Option.some.injEq] at hRow'
    rw [← hRow', hLAll.1.1] at hDone
    cases hDone
  obtain ⟨trace, c', hCall, hMisses⟩ := interrupt_misses (ok_run demo_initial hRun) hRow
    hAll.1.1 (by omega) hAll.1.2 hDesc (by decide) hOpen
  refine ⟨c, trace, c', hRun, hCall, hIsLower, fun hReaches => ?_⟩
  obtain ⟨m, hm, hReached⟩ := hReaches.subtree 2 hDesc
  exact hMisses m hm hReached

end Rekuest
