import Rekuest.Concurrent.Discipline
import Rekuest.Server.Runs

/-!
# What every handler keeps to

A monitor for the handlers of the server: an Assign is only pushed right after
the commit that counts it, a control carries a deadline exactly when it ends
something, a deadline is only cleared by a claim that ends the task, and a new
task goes to the agent of its implementation.
-/

namespace Rekuest

open Concurrent

/-- The new task's agent is its implementation's. -/
def NewTask.NamesAgent (new : NewTask) (implementations : List Implementation) : Prop :=
  ∃ i, implementations[new.implementation]? = some i ∧ new.agent = i.agent

/-- What a thread may run next when it owes the push of `pending`'s Assign. -/
def permits (settings : Settings) (implementations : List Implementation)
    (pending : Option Nat) : Txn → Prop
  | .deliver _ (.assign assign) => pending = some assign.task
  | .controlTarget _ control _ interruptAt =>
      interruptAt.isSome =
        ((0 < settings.controlDeadline : Bool) && control.waitingOutcome.isSome)
  | .claim _ c => c.extra = .clearInterruptAt → c.markDone = true
  | .insertTask new _ => new.dispatchAttempts ≤ 1 ∧ new.NamesAgent implementations
  | .insertHigherOrder wrapper lower _ =>
      wrapper.dispatchAttempts = 0 ∧ lower.dispatchAttempts ≤ 1 ∧
        wrapper.NamesAgent implementations ∧ lower.NamesAgent implementations
  | _ => True

/-- The task whose Assign a thread pushes next, after a transaction that counts
the push. -/
def pending (before : Option Nat) : (op : Txn) → op.Res → Option Nat
  | .query .., _ => before
  | .insertTask new _, .created task => if new.dispatchAttempts = 0 then none else some task
  | .insertHigherOrder _ lower _, .created task =>
      if lower.dispatchAttempts = 0 then none else some (task + 1)
  | .decideUnpicked .., .redeliver assign _ => some assign.task
  | .claimDue _, .dispatch assign _ => some assign.task
  | .claim task c, true => if c.extra = .resume then some task else none
  | .decideChild _ _ true _ _, some runner => some runner
  | _, _ => none

/-- The monitor of the handlers. -/
def pace (settings : Settings) (implementations : List Implementation) :
    Monitor Txn.Res (Option Nat) where
  permits := permits settings implementations
  next := pending

/-- A program that follows the monitor when it owes the push of `pending`. -/
abbrev PacedFrom (settings : Settings) (implementations : List Implementation) :
    Program Unit → Option Nat → Prop :=
  Monitor.Follows (machine settings) (fun db : Db => db.implementations = implementations)
    (pace settings implementations)

/-- A program that follows the monitor in any case. -/
abbrev Paced (settings : Settings) (implementations : List Implementation)
    (p : Program Unit) : Prop := ∀ owed, PacedFrom settings implementations p owed

section

variable {settings : Settings} {imps : List Implementation}

theorem paced_ret : Paced settings imps (.ret ()) := Monitor.always_ret

/-- A transaction that is always permitted. -/
theorem paced_free {op : Txn} {k : op.Res → Program Unit}
    (hOp : ∀ owed, permits settings imps owed op) (h : ∀ r, Paced settings imps (k r)) :
    Paced settings imps (.act op k) := Monitor.always_act hOp fun _ _ _ => h _

theorem paced_query {α : Type} {read : Env → Db → α} {k : α → Program Unit}
    (h : ∀ e s, s.implementations = imps → Paced settings imps (k (read e s))) :
    Paced settings imps (.act (.query α read) k) :=
  Monitor.always_act (fun _ => trivial) h

theorem paced_select {α : Type} {read : Db → α} {f : α → Program Unit}
    (h : ∀ s, s.implementations = imps → Paced settings imps (f (read s))) :
    Paced settings imps ((select read).bind f) := paced_query fun _ s hs => h s hs

theorem paced_utcNow {f : Int → Program Unit} (h : ∀ now, Paced settings imps (f now)) :
    Paced settings imps (utcNow.bind f) := paced_query fun e _ _ => h e.now

theorem paced_ite {c : Prop} [Decidable c] {p q : Program Unit}
    (hp : c → Paced settings imps p) (hq : ¬ c → Paced settings imps q) :
    Paced settings imps (if c then p else q) := by
  split
  case isTrue h => exact hp h
  case isFalse h => exact hq h

/-! ## The transitions -/

theorem paced_claim {task : Nat} {c : Claim} {f : Bool → Program Unit}
    (hExtra : c.extra = .clearInterruptAt → c.markDone = true)
    (h : ∀ won, Paced settings imps (f won)) :
    Paced settings imps ((claim task c).bind f) := by
  rw [claim_bind]
  refine paced_free (fun _ => hExtra) fun won => ?_
  change Paced settings imps (if won && c.markDone then
    .act (.settleHeldChildren task) fun _ => f won else f won)
  exact paced_ite (fun _ => paced_free (fun _ => trivial) fun _ => h won) fun _ => h won

theorem paced_unfold {child : Nat} {kind : TaskEventKind} {message : Option String}
    {flag : Option Bool} {f : Unit → Program Unit} (h : Paced settings imps (f ())) :
    Paced settings imps ((unfoldToHigherOrder child kind message flag).bind f) := by
  have hFlagged : Paced settings imps
      ((unfoldToHigherOrder child kind message (some true)).bind f) := by
    rw [unfold_bind]
    refine paced_select fun s _ => ?_
    split
    · exact h
    · exact paced_claim (fun hExtra => by cases hExtra) fun _ => h
  match flag with
  | some true => exact hFlagged
  | some false => exact h
  | none =>
      refine paced_select (f := fun flagged =>
        (unfoldToHigherOrder child kind message (some flagged)).bind f) fun s _ => ?_
      cases (s.task? child).any (·.isHigherOrderChild) with
      | false => exact h
      | true => exact hFlagged

theorem paced_finalizeTerminal {task : Nat} {kind : TaskEventKind} {message : String}
    {value : Option EventValue} {guard : Guard} {f : Bool → Program Unit}
    (h : ∀ won, Paced settings imps (f won)) :
    Paced settings imps ((finalizeTerminal task kind message value guard).bind f) := by
  rw [finalizeTerminal_bind]
  refine paced_claim (fun _ => rfl) fun won => ?_
  exact paced_ite (fun _ => paced_unfold (h won)) fun _ => h won

theorem paced_finalizeLost {task : Nat} {reason : String} {started skipLocked : Bool}
    {onlyIf : Task → Bool} {f : Bool → Program Unit}
    (h : ∀ won, Paced settings imps (f won)) :
    Paced settings imps ((finalizeLost task reason started onlyIf skipLocked).bind f) := by
  rw [finalizeLost, Prog.bind_eq, Prog.bind_assoc]
  exact paced_select fun _ _ => paced_finalizeTerminal h

/-- The push a thread owes. -/
theorem paced_dispatch {task agent : Nat} {assign : Assign} {f : Unit → Program Unit}
    (h : Paced settings imps (f ())) :
    PacedFrom settings imps ((dispatch task agent assign).bind f) (some assign.task) := by
  simp only [dispatch, run, Prog.bind_eq, Prog.perform_bind, Prog.act_bind]
  refine Monitor.follows_act rfl fun e s _ => ?_
  simp only [Prog.pure_eq, Prog.ite_bind, Prog.perform_bind, Prog.ret_bind]
  have hFree (owed : Option Nat) : permits settings imps owed (.recordUndelivered task) :=
    trivial
  exact paced_ite (fun _ => paced_free hFree fun _ => h) (fun _ => h) _

/-- A program at the end of a handler. -/
theorem paced_tail {p : Program Unit} (h : Paced settings imps (p.bind fun _ => .ret ())) :
    Paced settings imps p := by
  rwa [show (fun _ : Unit => (Prog.ret () : Program Unit)) = Prog.ret from rfl,
    Prog.bind_ret] at h

theorem paced_dispatch_tail {task agent : Nat} {assign : Assign} :
    PacedFrom settings imps (dispatch task agent assign) (some assign.task) := by
  have h : PacedFrom settings imps ((dispatch task agent assign).bind .ret)
      (some assign.task) := paced_dispatch paced_ret
  rwa [Prog.bind_ret] at h

/-! ## Reports and decisions -/

theorem paced_agentTask {agent task : Nat} {f : Option Task → Program Unit}
    (h : ∀ row, Paced settings imps (f row)) :
    Paced settings imps ((agentTask agent task).bind f) := by
  rw [agentTask, Prog.bind_eq, Prog.bind_assoc]
  refine paced_select fun s _ => ?_
  cases (s.task? task).filter (·.agent == agent) with
  | none => exact h none
  | some row =>
      simp only [run, Prog.bind_eq, Prog.perform_bind, Prog.pure_eq, Prog.ite_bind,
        Prog.act_bind, Prog.ret_bind]
      exact paced_ite (fun _ => paced_free (fun _ => trivial) fun _ => h _) fun _ => h _

theorem paced_recordLateReport {task : Nat} {kind : TaskEventKind} {event : NewEvent} :
    Paced settings imps (recordLateReport task kind event) := by
  have hRecord (seen : Bool) : Paced settings imps
      (if !seen then
        (run (.recordEvent task .lateReport (lateReport kind event))).bind fun _ => .ret ()
      else .ret ()) :=
    paced_ite (fun _ => paced_free (fun _ => trivial) fun _ => paced_ret) fun _ => paced_ret
  simp only [recordLateReport]
  cases event.agentPos with
  | none => exact hRecord false
  | some pos => exact paced_select fun s _ => hRecord _

theorem paced_finalizeFromAgent {agent : Nat} {frame : ReportFrame} {kind : TaskEventKind}
    {message code : Option String} :
    Paced settings imps (finalizeFromAgent agent frame kind message code) := by
  have hUnfold (flag : Option Bool) :
      Paced settings imps (unfoldToHigherOrder frame.task kind message flag) :=
    paced_tail (paced_unfold paced_ret)
  refine paced_agentTask fun row => ?_
  cases row with
  | none => exact paced_ret
  | some row =>
      dsimp only
      refine paced_ite (fun _ => paced_ite (fun _ => paced_recordLateReport) fun _ => ?_)
        fun _ => ?_
      · split
        · refine paced_select fun s _ => paced_ite (fun _ => ?_) fun _ => paced_ret
          refine paced_free (fun _ => trivial) fun won => ?_
          exact paced_ite (fun _ => hUnfold _) fun _ => paced_ret
        · exact paced_ret
      · refine paced_claim (fun h => by cases h) fun won => ?_
        exact paced_ite (fun _ => hUnfold _) fun _ => paced_ret

theorem paced_nonterminalConfirm {agent task : Nat} {kind : TaskEventKind}
    {event : NewEvent} : Paced settings imps (nonterminalConfirm agent task kind event) := by
  refine paced_agentTask fun row => ?_
  cases row with
  | none => exact paced_ret
  | some row =>
      dsimp only
      exact paced_ite (fun _ => paced_claim (fun h => by cases h) fun _ => paced_ret)
        fun _ => paced_ret

theorem paced_recordStream {agent task : Nat} {kind : TaskEventKind} {event : NewEvent}
    {f : Bool → Program Unit} (h : ∀ r, Paced settings imps (f r)) :
    Paced settings imps ((recordStream agent task kind event).bind f) := by
  rw [recordStream, Prog.bind_eq, Prog.bind_assoc]
  refine paced_agentTask fun row => ?_
  cases row with
  | none => exact h false
  | some row =>
      simp only [run, Prog.bind_eq, Prog.perform_bind, Prog.pure_eq, Prog.ite_bind,
        Prog.act_bind, Prog.ret_bind]
      exact paced_ite (fun _ => paced_ite (fun _ => paced_free (fun _ => trivial) fun _ => h _)
        fun _ => h _) fun _ => paced_free (fun _ => trivial) fun _ => h _

theorem paced_onAgentEffect {agent task : Nat} {effect value : String} {key : Option String}
    {event : NewEvent} :
    Paced settings imps (onAgentEffect agent task effect value key event) := by
  have hRecord (recorded : Bool) : Paced settings imps
      (if !recorded then
        (recordStream agent task .effect { event with
          effect := some effect, value := some (.recorded value), key }).bind fun _ => .ret ()
      else .ret ()) :=
    paced_ite (fun _ => paced_recordStream fun _ => paced_ret) fun _ => paced_ret
  simp only [onAgentEffect]
  cases key with
  | none => exact hRecord false
  | some key => exact paced_select fun s _ => hRecord _

theorem paced_onSelfHold {agent : Nat} {frame : ReportFrame} {message : Option String}
    {prompt : Option AssignPrompt} {details : Option String} {blok : Option (Option Nat)} :
    Paced settings imps (onSelfHold agent frame message prompt details blok) := by
  refine paced_agentTask fun row => ?_
  cases row with
  | none => exact paced_ret
  | some row =>
      dsimp only
      refine paced_ite (fun _ => paced_ret) fun _ => paced_claim (fun h => by cases h)
        fun won => paced_ite (fun _ => ?_) fun _ => paced_ret
      refine paced_select fun s _ => paced_ite (fun _ => ?_) fun _ => paced_ret
      refine paced_claim (fun h => by cases h) fun decided => ?_
      exact paced_ite (fun _ => paced_free (fun _ => trivial) fun _ => paced_ret)
        fun _ => paced_ret

theorem paced_onInform {agent : Nat} {frame : ReportFrame} {message : Option String}
    {shown : Option Nat} : Paced settings imps (onInform agent frame message shown) := by
  refine paced_agentTask fun row => ?_
  cases row with
  | none => exact paced_ret
  | some row =>
      dsimp only
      split
      · exact paced_recordStream fun _ => paced_ret
      · exact paced_ret

theorem paced_onReport {agent : Nat} {frame : ReportFrame} :
    Paced settings imps (onReport agent frame) := by
  unfold onReport
  split
  case h_1 | h_2 | h_3 => exact paced_nonterminalConfirm
  case h_4 => exact paced_onSelfHold
  case h_5 => exact paced_onInform
  case h_6 | h_7 | h_8 | h_9 | h_10 => exact paced_finalizeFromAgent
  case h_11 | h_12 => exact paced_recordStream fun _ => paced_ret
  case h_13 =>
    refine paced_recordStream fun recorded => ?_
    exact paced_ite (fun _ => paced_tail (paced_unfold paced_ret)) fun _ => paced_ret
  case h_14 => exact paced_onAgentEffect

/-- After an approval the runner's Assign is rebuilt and pushed. -/
theorem paced_decideHeldChild {task : Nat} {watchers : List Nat} {approved : Bool}
    {answer : Option String} {decided : EventValue} :
    Paced settings imps (decideHeldChild task watchers approved answer decided) := by
  intro owed
  simp only [decideHeldChild, run, Prog.bind_eq, Prog.perform_bind]
  refine Monitor.follows_act trivial fun e s _ => ?_
  cases hRunner : ((machine settings).exec e
      (.decideChild task watchers approved answer decided) s).1 with
  | none => trivial
  | some runner =>
      cases approved with
      | false => trivial
      | true =>
          refine Monitor.follows_act trivial fun e' s' _ => ?_
          refine Monitor.follows_act trivial fun e'' s'' _ => ?_
          change PacedFrom settings imps _ (some runner)
          cases hAssign : ((machine settings).exec e''
              (.query _ fun e db => buildRedispatchAssign e db runner) s'').1 with
          | none => exact paced_finalizeTerminal (fun _ => paced_ret) _
          | some assign =>
              rw [← buildRedispatchAssign_task hAssign]
              exact paced_dispatch_tail

theorem paced_decide {principal : Principal} {task : Nat} {approved : Bool}
    {answer values : Option String} {valuesFit : Bool} :
    Paced settings imps (decide principal task approved answer values valuesFit) := by
  refine paced_select fun s _ => ?_
  split
  · exact paced_ret
  · refine paced_ite (fun _ => paced_ret) fun _ => paced_ite (fun _ => ?_) fun _ => ?_
    · refine paced_claim (fun h => by cases h) fun won => ?_
      exact paced_ite (fun _ => paced_free (fun _ => trivial) fun _ => paced_ret)
        fun _ => paced_ret
    · exact paced_decideHeldChild

/-! ## Controls -/

theorem controlDeadline_isSome (settings : Settings) (now : Int) (control : Control) :
    (controlDeadline settings now control).isSome =
      ((0 < settings.controlDeadline : Bool) && control.waitingOutcome.isSome) := by
  unfold controlDeadline
  split
  case isTrue h => rw [h]; rfl
  case isFalse h =>
    rw [Bool.not_eq_true] at h
    rw [h]
    rfl

theorem paced_controlOne {control : Control} {caller : Option Nat} {interruptAt : Option Int}
    {target : Nat × Nat} {f : Unit → Program Unit}
    (hAt : interruptAt.isSome =
      ((0 < settings.controlDeadline : Bool) && control.waitingOutcome.isSome))
    (h : Paced settings imps (f ())) :
    Paced settings imps ((controlOne control caller interruptAt target).bind f) := by
  simp only [controlOne, run, Prog.bind_eq, Prog.perform_bind, Prog.act_bind, Prog.pure_eq,
    Prog.ite_bind, Prog.ret_bind]
  refine paced_free (fun _ => hAt) fun controlled => ?_
  refine paced_ite (fun _ => paced_free (fun owed => ?_) fun _ => h) fun _ => h
  cases control <;> trivial

theorem paced_controlTargets {task : Nat} {control : Control}
    {f : List (Nat × Nat) → Program Unit} (h : ∀ targets, Paced settings imps (f targets)) :
    Paced settings imps ((controlTargets task control).bind f) := by
  rw [controlTargets, Prog.bind_eq, Prog.bind_assoc]
  refine paced_select fun s₁ _ => ?_
  cases control with
  | cancel => exact paced_select fun s₂ _ => h _
  | interrupt => exact paced_select fun s₂ _ => paced_select fun s₃ _ => h _
  | pause => exact h _
  | resume step => exact h _

theorem paced_requestControl {task : Nat} {control : Control} {caller : Option Nat}
    {f : Bool → Program Unit} (h : ∀ r, Paced settings imps (f r)) :
    Paced settings imps ((requestControl settings task control caller).bind f) := by
  rw [requestControl, Prog.bind_eq, Prog.bind_assoc]
  refine paced_select fun s₁ _ => ?_
  cases controlRow s₁ task with
  | none => exact h false
  | some row =>
      have hGo (foreign : Bool) :
          Paced settings imps (Prog.bind (if foreign || row.refuses control then pure false
            else do
              let targets ← controlTargets task control
              let interruptAt : Option Int ← run (.query (Option Int) fun e _ =>
                controlDeadline settings e.now control)
              Prog.forEach targets (controlOne control caller interruptAt)
              return true) f) := by
        split
        case isTrue => exact h false
        case isFalse =>
          rw [Prog.bind_eq, Prog.bind_assoc]
          refine paced_controlTargets fun targets => paced_query fun e s _ => ?_
          simp only [Prog.bind_eq, Prog.ret_bind, Prog.bind_assoc]
          exact Monitor.always_forEach (fun target _ g hg =>
            paced_controlOne (controlDeadline_isSome settings e.now control) hg) (h true)
      cases caller with
      | none => exact hGo false
      | some caller => exact paced_select fun s₂ _ => hGo _

/-! ## Sweeps -/

/-- A workflow sent again is owed the push its claim counted. -/
theorem paced_resend {task : Nat} {c : Claim} {f : Bool → Program Unit}
    (hExtra : c.extra = .resume) (hOpen : c.markDone = false)
    (hLost : Paced settings imps (f false))
    (hWon : PacedFrom settings imps (f true) (some task)) :
    Paced settings imps ((claim task c).bind f) := by
  intro owed
  rw [claim_bind]
  refine Monitor.follows_act (fun h => by rw [hExtra] at h; cases h) fun e s _ => ?_
  change PacedFrom settings imps ((fun won : Bool => if won && c.markDone then
    .act (.settleHeldChildren task) fun _ => f won else f won) (claimTask e s task c).1)
    (pending owed (.claim task c) (claimTask e s task c).1)
  cases (claimTask e s task c).1 with
  | false => exact hLost _
  | true =>
      simp only [hOpen, Bool.and_false, Bool.false_eq_true, if_false, pending, hExtra, if_true]
      exact hWon

theorem paced_resumeWorkflow {task : Nat} {f : Bool → Program Unit}
    (h : ∀ r, Paced settings imps (f r)) :
    Paced settings imps ((resumeWorkflow task).bind f) := by
  rw [resumeWorkflow, Prog.bind_eq, Prog.bind_assoc]
  refine paced_select fun s₁ _ => ?_
  split
  case h_1 => exact h false
  case h_2 pinned current resumes agent _ =>
    split
    case isTrue =>
      rw [Prog.bind_eq, Prog.bind_assoc]
      exact paced_finalizeLost fun _ => h true
    case isFalse =>
      split
      case isTrue =>
        rw [Prog.bind_eq, Prog.bind_assoc]
        exact paced_finalizeLost fun _ => h true
      case isFalse =>
        refine paced_query fun e s₂ _ => ?_
        simp only [Prog.ret_bind]
        split
        case h_1 => exact h false
        case h_2 assign hAssign =>
          simp only [Prog.bind_eq, Prog.bind_assoc, Prog.pure_eq, Prog.ite_bind, Prog.ret_bind]
          refine paced_resend rfl rfl (h true) ?_
          rw [if_pos rfl, ← buildRedispatchAssign_task hAssign]
          exact paced_dispatch (h true)

theorem paced_failInflight {task : Nat} {f : Unit → Program Unit}
    (h : Paced settings imps (f ())) : Paced settings imps ((failInflight task).bind f) := by
  rw [failInflight, Prog.bind_eq, Prog.bind_assoc]
  refine paced_select fun s₁ _ => ?_
  split
  case h_1 => exact h
  case h_2 kind pickedUpAt workflow _ =>
    split
    case isTrue => exact h
    case isFalse =>
      have hEnd (resumed : Bool) :
          Paced settings imps (Prog.bind (if !resumed then
            (finalizeLost task "Its agent died while it ran; how it ended is unknown." true
              (fun _ => true) false).bind fun _ => .ret () else .ret ()) f) := by
        split
        · rw [Prog.bind_assoc]
          exact paced_finalizeLost fun _ => h
        · exact h
      split
      · rw [Prog.bind_eq, Prog.bind_assoc]
        exact paced_resumeWorkflow fun resumed => hEnd resumed
      · exact hEnd false

theorem paced_failAndCascadeInflight {tasks : List Nat} {f : Unit → Program Unit}
    (h : Paced settings imps (f ())) :
    Paced settings imps ((failAndCascadeInflight tasks).bind f) :=
  Monitor.always_forEach (fun _ _ _ hg => paced_failInflight hg) h

theorem paced_reconcileOrphanedExecutorWork {agent : Nat} {f : Unit → Program Unit}
    (h : Paced settings imps (f ())) :
    Paced settings imps ((reconcileOrphanedExecutorWork settings agent).bind f) := by
  refine paced_query fun e s₁ _ => ?_
  simp only [Prog.bind_eq, Prog.ret_bind, Prog.pure_eq, Prog.ite_bind, Prog.bind_assoc]
  split
  · exact paced_select fun s₂ _ => paced_failAndCascadeInflight h
  · exact h

theorem paced_reconcileDisconnectedAgents :
    Paced settings imps (reconcileDisconnectedAgents settings) :=
  paced_query fun _ _ _ => paced_tail (Monitor.always_forEach
    (fun _ _ _ hg => paced_reconcileOrphanedExecutorWork hg) paced_ret)

theorem paced_reconcileStaleAgents : Paced settings imps (reconcileStaleAgents settings) := by
  refine paced_query fun _ _ _ => paced_tail ?_
  refine Monitor.always_forEach (fun agent _ g hg => ?_) paced_ret
  simp only [healAgent, run, Prog.bind_eq, Prog.perform_bind, Prog.act_bind, Prog.pure_eq,
    Prog.ite_bind, Prog.ret_bind]
  refine paced_free (fun _ => trivial) fun revoked => ?_
  exact paced_ite (fun _ => paced_reconcileOrphanedExecutorWork hg) fun _ => hg

theorem paced_escalateDue {due : Nat × Int × TaskInstructKind} {f : Unit → Program Unit}
    (h : Paced settings imps (f ())) :
    Paced settings imps ((escalateDue settings due).bind f) := by
  obtain ⟨task, deadline, instruct⟩ := due
  simp only [escalateDue, run, Prog.bind_eq, Prog.pure_eq, Prog.ite_bind, Prog.bind_assoc,
    Prog.perform_bind, Prog.act_bind, Prog.ret_bind]
  refine paced_ite (fun _ => paced_finalizeTerminal fun _ => h) fun _ => ?_
  refine paced_free (fun _ => trivial) fun cleared => paced_ite (fun _ => ?_) fun _ => h
  rw [escalateToInterrupt, Prog.bind_eq, Prog.bind_assoc]
  refine paced_select fun s₂ _ => ?_
  simp only [Prog.bind_eq, Prog.pure_eq, Prog.ite_bind, Prog.bind_assoc, Prog.ret_bind]
  exact paced_ite (fun _ => paced_requestControl fun _ => h) fun _ => h

theorem paced_escalateDueControls {limit : Nat} :
    Paced settings imps (escalateDueControls settings limit) :=
  paced_query fun _ _ _ => paced_tail (Monitor.always_forEach
    (fun _ _ _ hg => paced_escalateDue hg) paced_ret)

theorem paced_actOnUnpicked {cutoff : Int} {task : Nat} {f : Unit → Program Unit}
    (h : Paced settings imps (f ())) :
    Paced settings imps ((actOnUnpicked cutoff task).bind f) := by
  intro owed
  refine Monitor.follows_act trivial fun e s _ => ?_
  cases ((machine settings).exec e (.decideUnpicked task cutoff) s).1 with
  | skip => exact h _
  | redeliver assign agent => exact paced_dispatch h
  | finalized kind =>
      change PacedFrom settings imps ((unfoldToHigherOrder task kind none none).bind f) _
      exact paced_unfold h _

theorem paced_reconcileUnpickedTasks {limit : Nat} :
    Paced settings imps (reconcileUnpickedTasks settings limit) := by
  unfold reconcileUnpickedTasks
  refine paced_ite (fun _ => ?_) fun _ => paced_ret
  exact paced_utcNow fun now => paced_select fun _ _ => paced_tail (Monitor.always_forEach
    (fun _ _ _ hg => paced_actOnUnpicked hg) paced_ret)

theorem paced_dispatchDue {task : Nat} {f : Unit → Program Unit}
    (h : Paced settings imps (f ())) : Paced settings imps ((dispatchDue task).bind f) := by
  intro owed
  refine Monitor.follows_act trivial fun e s _ => ?_
  cases ((machine settings).exec e (.claimDue task) s).1 with
  | skip => exact h _
  | finalized => exact h _
  | dispatch assign agent => exact paced_dispatch h

theorem paced_dispatchDueTasks {limit : Nat} :
    Paced settings imps (dispatchDueTasks limit) :=
  paced_query fun _ _ _ => paced_tail (Monitor.always_forEach
    (fun _ _ _ hg => paced_dispatchDue hg) paced_ret)

theorem paced_expireDisconnectedTasks {limit : Nat} :
    Paced settings imps (expireDisconnectedTasks settings limit) := by
  unfold expireDisconnectedTasks
  refine paced_ite (fun _ => ?_) fun _ => paced_ret
  refine paced_utcNow fun now => paced_select fun _ _ => paced_tail ?_
  refine Monitor.always_forEach (fun task _ g hg => ?_) paced_ret
  rw [expireTask, Prog.bind_eq, Prog.bind_assoc]
  exact paced_finalizeLost fun _ => hg

/-! ## Assigns -/

theorem paced_assignPlain {caller : Nat} {input : AssignInput} {schedule : Option Nat}
    {id : Nat} {implementation : Implementation} {root : Option Nat} {policy : Policy}
    {delayed : Bool} {hooks : Nat → Program Unit} {f : Option Assigned → Program Unit}
    (hTarget : imps[id]? = some implementation)
    (hHooks : ∀ task g, Paced settings imps (g ()) →
      Paced settings imps ((hooks task).bind g))
    (h : ∀ r, Paced settings imps (f r)) :
    Paced settings imps ((assignPlain caller input schedule id implementation root policy
      delayed hooks).bind f) := by
  rw [assignPlain, Prog.bind_eq, Prog.bind_assoc]
  refine paced_utcNow fun now owed => ?_
  have hAttempts : (plainTask caller input schedule id implementation root policy delayed
      now).dispatchAttempts = if delayed || input.held policy then 0 else 1 := rfl
  refine Monitor.follows_act ⟨?_, implementation, hTarget, rfl⟩ fun e s _ => ?_
  · rw [hAttempts]
    split <;> omega
  · generalize hNew : plainTask caller input schedule id implementation root policy delayed
      now = new at hAttempts ⊢
    generalize Ask.mk implementation.action implementation.agent input.prompt = ask
    cases ((machine settings).exec e (.insertTask new ask) s).1 with
    | duplicate => exact paced_select (fun _ _ => h _) _
    | refused => exact h none _
    | created task =>
        change PacedFrom settings imps (Prog.bind _ f)
          (pending owed (.insertTask new ask) (.created task))
        simp only [Prog.bind_eq, Prog.pure_eq, Prog.ite_bind, Prog.bind_assoc, Prog.ret_bind]
        split
        case isFalse => exact h _ _
        case isTrue hSent =>
          rw [Bool.not_eq_true'] at hSent
          rw [hSent, if_neg Bool.false_ne_true] at hAttempts
          simp only [pending, hAttempts, Nat.one_ne_zero, if_false]
          exact paced_dispatch (hHooks task _ (h _))

theorem paced_assignHigherOrder {caller : Nat} {input : AssignInput} {id : Nat}
    {higher : Implementation} {root : Option Nat} {policy : Policy}
    {f : Option Assigned → Program Unit} (hTarget : imps[id]? = some higher)
    (h : ∀ r, Paced settings imps (f r)) :
    Paced settings imps ((assignHigherOrder settings caller input id higher root
      policy).bind f) := by
  rw [assignHigherOrder, Prog.bind_eq, Prog.bind_assoc]
  refine paced_select fun s₁ hs₁ => ?_
  split
  case h_1 => exact h none
  case h_2 lowerId lower hLower =>
    obtain ⟨lowerId', -, hLower⟩ := Option.bind_eq_some_iff.mp hLower
    obtain ⟨lower', hLower, hEq⟩ := Option.map_eq_some_iff.mp hLower
    cases hEq
    rw [hs₁] at hLower
    refine paced_query fun e s₂ _ => ?_
    simp only [Prog.bind_eq, Prog.ret_bind, Prog.pure_eq, Prog.ite_bind, Prog.bind_assoc]
    refine paced_ite (fun _ => h none) fun _ => paced_utcNow fun now owed => ?_
    have hAttempts : (lowerTask caller input lowerId lower policy now).dispatchAttempts =
        if input.held policy then 0 else 1 := rfl
    refine Monitor.follows_act ⟨rfl, ?_, ⟨higher, hTarget, rfl⟩, lower, hLower, rfl⟩
      fun e s _ => ?_
    · rw [hAttempts]
      split <;> omega
    · generalize hNew : lowerTask caller input lowerId lower policy now = new at hAttempts ⊢
      generalize wrapperTask caller input id higher root policy = wrapper
      generalize Ask.mk higher.action higher.agent input.prompt = ask
      cases ((machine settings).exec e (.insertHigherOrder wrapper new ask) s).1 with
      | duplicate => exact paced_select (fun _ _ => h _) _
      | refused => exact h none _
      | created task =>
          change PacedFrom settings imps (Prog.bind _ f)
            (pending owed (.insertHigherOrder wrapper new ask) (.created task))
          simp only [Prog.ite_bind, Prog.bind_assoc, Prog.ret_bind]
          split
          case isFalse => exact h _ _
          case isTrue hSent =>
            rw [Bool.not_eq_true'] at hSent
            rw [hSent, if_neg Bool.false_ne_true] at hAttempts
            simp only [pending, hAttempts, Nat.one_ne_zero, if_false]
            exact paced_dispatch (h _)

theorem paced_assignWithHooks {principal : Principal} {input : AssignInput}
    {schedule : Option Nat} {hooks : Nat → Program Unit} {f : Option Assigned → Program Unit}
    (hHooks : ∀ task g, Paced settings imps (g ()) →
      Paced settings imps ((hooks task).bind g))
    (h : ∀ r, Paced settings imps (f r)) :
    Paced settings imps ((assignWithHooks settings principal input schedule hooks).bind f) := by
  unfold assignWithHooks
  split
  case h_1 => exact h none
  case h_2 organization _ =>
    refine paced_free (fun _ => trivial) fun caller => ?_
    refine paced_free (fun _ => trivial) fun found => ?_
    cases found with
    | some found => exact h _
    | none =>
      refine paced_select fun s₃ hs₃ => ?_
      simp only [Prog.ret_bind]
      split
      case h_1 id implementation _ hTarget =>
        obtain ⟨id', -, hTarget⟩ := Option.bind_eq_some_iff.mp hTarget
        obtain ⟨implementation', hImplementation, hEq⟩ := Option.map_eq_some_iff.mp hTarget
        cases hEq
        rw [hs₃] at hImplementation
        refine paced_select fun s₄ _ => ?_
        simp only [Prog.ret_bind]
        cases rootAndPolicy s₄ input with
        | none => exact h none
        | some placed =>
          obtain ⟨root, policy⟩ := placed
          refine paced_utcNow fun now => ?_
          simp only [Prog.ret_bind]
          split
          case isTrue => exact h none
          case isFalse =>
            split
            case isTrue => exact paced_assignPlain hImplementation hHooks h
            case isFalse =>
              split
              case isTrue => exact h none
              case isFalse => exact paced_assignHigherOrder hImplementation h
      case h_2 => exact h none

theorem paced_assignHooks {principal : Principal} {task : Nat} {hooks : List Hook}
    {f : Unit → Program Unit} (h : Paced settings imps (f ())) :
    Paced settings imps ((assignHooks settings principal task hooks).bind f) := by
  induction hooks with
  | nil => exact h
  | cons hook rest ih =>
      rw [assignHooks, Prog.bind_eq, Prog.bind_assoc]
      refine paced_assignWithHooks (fun _ _ hg => hg) fun r => ?_
      cases r with
      | none => exact h
      | some _ => exact ih

theorem paced_assignWithStatus {principal : Principal} {input : AssignInput}
    {schedule : Option Nat} {f : Option Assigned → Program Unit}
    (h : ∀ r, Paced settings imps (f r)) :
    Paced settings imps ((assignWithStatus settings principal input schedule).bind f) :=
  paced_assignWithHooks (fun _ _ hg => paced_assignHooks hg) h

/-! ## Requests -/

theorem paced_callerControl {agent task : Nat} {control : Control} {f : Bool → Program Unit}
    (h : ∀ r, Paced settings imps (f r)) :
    Paced settings imps ((callerControl settings agent task control).bind f) := by
  rw [callerControl, agentCaller, Prog.bind_eq, Prog.bind_eq, Prog.bind_assoc, Prog.bind_assoc]
  refine paced_select fun s₁ _ => ?_
  split
  case h_1 => exact h false
  case h_2 client user organization _ =>
    refine paced_free (fun _ => trivial) fun caller => paced_select fun s₃ _ => ?_
    simp only [Prog.ret_bind]
    split
    · exact h false
    · exact paced_requestControl h

/-- **Every request keeps the pace.** -/
theorem paced_handler (request : Request) : Paced settings imps (request.handler settings) := by
  cases request with
  | assign | scheduleRun | triggerRun => exact paced_assignWithStatus fun _ => paced_ret
  | triggerSchedule =>
      refine paced_free (fun _ => trivial) fun moved => ?_
      rw [Prog.ret_bind]
      split
      · exact paced_ret
      · exact paced_ret
      · exact paced_assignWithStatus fun _ => paced_ret
  | cancelWaitingRun =>
      refine paced_select fun s _ => ?_
      split
      · exact paced_ret
      · exact paced_requestControl fun _ => paced_ret
  | cancelRunIfWaiting =>
      exact paced_select fun s _ => paced_ite (fun _ => paced_requestControl fun _ => paced_ret)
        fun _ => paced_ret
  | control => exact paced_requestControl fun _ => paced_ret
  | decide => exact paced_decide
  | report => exact paced_onReport
  | callerAssign =>
      refine paced_select fun s _ => ?_
      split
      · exact paced_ret
      · refine paced_select fun s' _ => ?_
        exact paced_ite (fun _ => paced_assignWithStatus fun _ => paced_ret) fun _ => paced_ret
  | callerControl => exact paced_callerControl fun _ => paced_ret
  | callerCancel =>
      refine paced_callerControl fun accepted => paced_ite (fun _ => ?_) fun _ => paced_ret
      split
      · exact paced_ret
      · exact paced_utcNow fun now => paced_free (fun _ => trivial) fun _ => paced_ret
  | connected =>
      refine paced_free (fun _ => trivial) fun lease => ?_
      rw [Prog.ret_bind]
      refine paced_ite (fun _ => ?_) fun _ => paced_ret
      refine paced_free (fun _ => trivial) fun _ => paced_select fun s _ => ?_
      exact paced_ite (fun _ => paced_tail (paced_failAndCascadeInflight paced_ret))
        fun _ => paced_ret
  | disconnected =>
      refine paced_free (fun _ => trivial) fun released => ?_
      rw [Prog.ret_bind]
      exact paced_ite (fun _ => paced_tail (paced_reconcileOrphanedExecutorWork paced_ret))
        fun _ => paced_ret
  | heartbeat | becameHook => exact paced_free (fun _ => trivial) fun _ => paced_ret
  | staleAgents => exact paced_reconcileStaleAgents
  | disconnectedAgents => exact paced_reconcileDisconnectedAgents
  | dueTasks => exact paced_dispatchDueTasks
  | unpickedTasks => exact paced_reconcileUnpickedTasks
  | dueControls => exact paced_escalateDueControls
  | expiredTasks => exact paced_expireDisconnectedTasks

end

/-! ## Along a run -/

/-- What each thread of a pool owes. -/
abbrev Owed (settings : Settings) (implementations : List Implementation) :
    List (Program Unit) → List (Option Nat) → Prop :=
  Monitor.Watches (machine settings) (fun db : Db => db.implementations = implementations)
    (pace settings implementations)

section

variable {settings : Settings} {imps : List Implementation} {c : ServerConfig}
variable {owed : List (Option Nat)} {i : Nat} {e : Env} {op : Txn}
variable {k : op.Res → Program Unit}

/-- What a thread owed is permitted its operation, and what it owes next. -/
theorem owed_step (hOwed : Owed settings imps c.threads owed)
    (hImps : c.state.implementations = imps) (hHead : c.threads[i]? = some (.act op k)) :
    ∃ before, owed[i]? = some before ∧ permits settings imps before op ∧
      ∀ e, Owed settings imps (c.threads.set i (k (Txn.exec settings e op c.state).1))
        (owed.set i (pending before op (Txn.exec settings e op c.state).1)) := by
  obtain ⟨before, hBefore, hPermits, hNext⟩ := hOwed.head hHead
  exact ⟨before, hBefore, hPermits, fun e => hOwed.set (hNext e c.state hImps)⟩

/-- A new thread owes nothing. -/
theorem owed_start (hOwed : Owed settings imps c.threads owed) (request : Request) :
    Owed settings imps (c.threads ++ [request.handler settings]) (owed ++ [none]) :=
  hOwed.start (paced_handler request none)

/-- **Run lemma**: every thread of a run keeps the pace. -/
theorem owed_run {C : ServerConfig → Choice Env Request → Prop} {c₀ : ServerConfig}
    (hInit : Initial c₀) (hRun : (server settings).Run C c₀ c) :
    c.state.implementations = c₀.state.implementations ∧
      ∃ owed, Owed settings c₀.state.implementations c.threads owed := by
  refine hRun.invariant (I := fun c => c.state.implementations = c₀.state.implementations ∧
    ∃ owed, Owed settings c₀.state.implementations c.threads owed) ⟨rfl, [], ?_⟩ ?_
  · exact ⟨by simp [hInit.idle], fun i p t hp => by simp [hInit.idle] at hp⟩
  · intro c a c' ⟨hImps, owed, hOwed⟩ _ hNext
    cases Machine.moves_of_next hNext with
    | start request => exact ⟨hImps, _, owed_start hOwed request⟩
    | step i e op k hHead =>
        obtain ⟨_, -, -, hSet⟩ := owed_step hOwed hImps hHead
        exact ⟨(implementations_exec settings e op c.state).trans hImps, _, hSet e⟩
    | crash i => exact ⟨hImps, owed, hOwed.crash⟩

end

end Rekuest
