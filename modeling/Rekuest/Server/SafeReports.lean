import Rekuest.Server.Safety

/-!
# Reports and decisions are safe

The handlers of an agent's frames and of a person's decision run every
transaction under its guard.
-/

namespace Rekuest

open Concurrent

section

variable {settings : Settings} {strict : Prop} {s : Db}

/-- A program at the end of a handler. -/
theorem safely_tail {p : Program Unit}
    (h : Safely settings strict (p.bind fun _ => .ret ()) s) : Safely settings strict p s := by
  rwa [show (fun _ : Unit => (Prog.ret () : Program Unit)) = Prog.ret from rfl,
    Prog.bind_ret] at h

/-! ## Terminal reports -/

theorem safely_recordEvent {task : Nat} {kind : TaskEventKind} {event : NewEvent}
    {k : Bool → Program Unit} (hExists : s.Exists task) (hKind : isTerminal kind = false)
    (hHeld : kind ≠ .held)
    (h : ∀ s', s.Later s' → s'.Inv strict → ∀ r, Safely settings strict (k r) s') :
    Safely settings strict (.act (.recordEvent task kind event) k) s :=
  safely_act fun _ hLater _ => ⟨⟨hLater.exists hExists, hKind, hHeld⟩,
    fun _ _ hLater' hInv' => h _ hLater' hInv' _⟩

theorem safely_recordLateReport {task : Nat} {kind : TaskEventKind} {event : NewEvent}
    (hExists : s.Exists task) :
    Safely settings strict (recordLateReport task kind event) s := by
  have hRecord {t : Db} (hT : s.Later t) (seen : Bool) : Safely settings strict
      (if !seen then
        (run (.recordEvent task .lateReport (lateReport kind event))).bind fun _ => .ret ()
      else .ret ()) t := by
    split
    · exact safely_recordEvent (hT.exists hExists) rfl (by simp) fun _ _ _ _ => safely_ret
    · exact safely_ret
  simp only [recordLateReport]
  cases event.agentPos with
  | none => exact hRecord (.refl s) false
  | some pos => exact safely_select fun t hT _ => hRecord hT _

/-- An override that won ends the task as the agent reported. -/
theorem overrideServerOutcome_ended {e : Env} {task : Nat} {kind : TaskEventKind}
    {event : NewEvent} (hWon : (overrideServerOutcome e s task kind event).1 = true) :
    (overrideServerOutcome e s task kind event).2.EndedAs task kind := by
  unfold overrideServerOutcome at hWon ⊢
  split at hWon
  case isTrue => cases hWon
  case isFalse hDone =>
    split at hWon
    case h_1 => cases hWon
    case h_2 last hLast =>
      split at hWon
      case isTrue => cases hWon
      case isFalse hUnnumbered =>
        simp only [hDone, hUnnumbered]
        exact ⟨_, List.mem_filter.mpr ⟨List.mem_append_right _ (List.mem_singleton.mpr rfl),
          beq_self_eq_true task⟩, rfl⟩

/-- **Rule** for an override of an outcome the server wrote. -/
theorem safely_override {task : Nat} {kind : TaskEventKind} {event : NewEvent}
    {k : Bool → Program Unit} (hKind : isTerminal kind = true) (hLost : kind ≠ .lost)
    (hNumbered : event.agentPos.isSome = true) (hSettled : s.Settled task)
    (hKept : ∀ s', s.Later s' → s'.Inv strict → Safely settings strict (k false) s')
    (hWon : ∀ s', s.Later s' → s'.Inv strict → s'.EndedAs task kind →
      (strict → s'.Unfoldable task) → Safely settings strict (k true) s') :
    Safely settings strict (.act (.overrideServerOutcome task kind event) k) s := by
  refine safely_act fun s' hLater hInv =>
    ⟨⟨hKind, hLost, hNumbered, hLater.settled hSettled⟩, fun e hAllowed hLater' hInv' => ?_⟩
  have hMoves : s'.Later (overrideServerOutcome e s' task kind event).2 :=
    Db.later_exec settings e (.overrideServerOutcome task kind event) hInv.tree
      fun _ _ _ h => by cases h; exact hLost
  change s.Later (overrideServerOutcome e s' task kind event).2 at hLater'
  change (overrideServerOutcome e s' task kind event).2.Inv strict at hInv'
  change Safely settings strict (k (overrideServerOutcome e s' task kind event).1)
    (overrideServerOutcome e s' task kind event).2
  cases hResult : (overrideServerOutcome e s' task kind event).1 with
  | false => exact hKept _ hLater' hInv'
  | true =>
      refine hWon _ hLater' hInv' (overrideServerOutcome_ended hResult) fun hStrict => ?_
      obtain ⟨row, hRow, -⟩ := hLater.settled hSettled
      have hFree : row.undecided = false ∨ row.isHigherOrderChild = false := by
        simpa [respectsHolds, hRow] using hAllowed hStrict
      exact hMoves.unfoldable ⟨row, hRow, hFree⟩

theorem safely_finalizeFromAgent {agent : Nat} {frame : ReportFrame} {kind : TaskEventKind}
    {message code : Option String} (hKind : isTerminal kind = true) (hLost : kind ≠ .lost) :
    Safely settings strict (finalizeFromAgent agent frame kind message code) s := by
  refine safely_agentTask (fun _ _ _ => safely_ret) fun s' hLater hInv row hRead => ?_
  dsimp only
  split
  case isTrue hDone =>
    split
    case isTrue => exact safely_recordLateReport hRead.exists
    case isFalse hNotLost =>
      split
      case h_1 journalSession hNumbered hSession =>
        refine safely_select fun t hT _ => ?_
        split
        · have hPos : frame.pos.isSome = true := by
            simp only [ReportFrame.isNumbered, Bool.and_eq_true] at hNumbered
            exact hNumbered.1
          refine safely_override hKind hLost ?_ (hT.settled (hRead.settled hDone hNotLost))
            (fun _ _ _ => safely_ret) fun u hU hUInv hEnded hFree => ?_
          · simp [ReportFrame.stamped, hNumbered, hPos]
          · refine safely_tail (p := unfoldToHigherOrder frame.task kind message
              (some row.isHigherOrderChild)) (safely_unfold (.inl hKind) hFree
                (fun _ => hEnded) ?_ hUInv fun _ _ _ => safely_ret)
            intro hFlag
            exact (hT.trans hU).flagged (hRead.flagged (Option.some.inj hFlag))
        · exact safely_ret
      case h_2 => exact safely_ret
  case isFalse hOpen =>
    rw [Bool.not_eq_true] at hOpen
    refine safely_terminal hKind rfl ⟨_, rfl, by simp [ReportFrame.stamped]; split <;> rfl⟩
      (fun hStrict => hRead.freed hStrict hOpen) ?_ (fun _ _ _ => safely_ret) ?_
    · intro t hT _ w hLower
      have hFlag := (hRead.later hT).flag_of_lower hLower
      have hOwes : OwesUnfold settings frame.task w ((unfoldToHigherOrder frame.task kind message
          (some row.isHigherOrderChild)).bind fun _ => .ret ()) t :=
        owes_unfold hKind hLower (by simp [hFlag])
      rwa [show (fun _ : Unit => (Prog.ret () : Program Unit)) = Prog.ret from rfl,
        Prog.bind_ret] at hOwes
    · intro t hT hTInv hWon
      refine safely_tail (p := unfoldToHigherOrder frame.task kind message
        (some row.isHigherOrderChild)) (safely_unfold (.inl hKind)
          (fun hStrict => (hWon.answered hStrict).unfoldable) (fun _ => hWon.ended) ?_ hTInv
          fun _ _ _ => safely_ret)
      intro hFlag
      exact hT.flagged (hRead.flagged (Option.some.inj hFlag))

/-! ## Other reports -/

theorem safely_nonterminalConfirm {agent task : Nat} {kind : TaskEventKind} {event : NewEvent}
    (hKind : isTerminal kind = false) (hHeld : kind ≠ .held) (hDecided : kind ≠ .decided) :
    Safely settings strict (nonterminalConfirm agent task kind event) s := by
  refine safely_agentTask (fun _ _ _ => safely_ret) fun s' hLater hInv row hRead => ?_
  dsimp only
  split
  case isTrue hOpen =>
    rw [Bool.not_eq_true'] at hOpen
    exact safely_open hKind rfl ⟨_, rfl⟩ (fun hStrict => hRead.freed hStrict hOpen)
      (fun h => absurd h hHeld) (fun h => absurd h hDecided) (fun _ _ _ => safely_ret)
      fun _ _ _ _ => safely_ret
  case isFalse => exact safely_ret

/-- A stream event that was recorded is of a task no hold stops. -/
theorem safely_recordStream {agent task : Nat} {kind : TaskEventKind} {event : NewEvent}
    {f : Bool → Program Unit} (hKind : isTerminal kind = false) (hHeld : kind ≠ .held)
    (hRefused : ∀ s', s.Later s' → s'.Inv strict → Safely settings strict (f false) s')
    (hRecorded : ∀ s', s.Later s' → s'.Inv strict → (strict → s'.Unfoldable task) →
      Safely settings strict (f true) s') :
    Safely settings strict ((recordStream agent task kind event).bind f) s := by
  rw [recordStream, Prog.bind_eq, Prog.bind_assoc]
  refine safely_agentTask hRefused fun s' hLater hInv row hRead => ?_
  dsimp only
  split
  case isTrue hDone =>
    split
    · exact safely_recordEvent hRead.exists rfl (by simp) fun t hT hTInv _ =>
        hRefused t (hLater.trans hT) hTInv
    · exact hRefused s' hLater hInv
  case isFalse hOpen =>
    rw [Bool.not_eq_true] at hOpen
    refine safely_recordEvent hRead.exists hKind hHeld fun t hT hTInv recorded => ?_
    cases recorded with
    | false => exact hRefused t (hLater.trans hT) hTInv
    | true => exact hRecorded t (hLater.trans hT) hTInv fun hStrict =>
        hT.unfoldable (hRead.unfoldable hStrict hOpen)

theorem safely_stream {agent task : Nat} {kind : TaskEventKind} {event : NewEvent}
    (hKind : isTerminal kind = false) (hHeld : kind ≠ .held) :
    Safely settings strict ((recordStream agent task kind event).bind fun _ => .ret ()) s :=
  safely_recordStream hKind hHeld (fun _ _ _ => safely_ret) fun _ _ _ _ => safely_ret

theorem safely_onAgentEffect {agent task : Nat} {effect value : String} {key : Option String}
    {event : NewEvent} :
    Safely settings strict (onAgentEffect agent task effect value key event) s := by
  have hRecord {t : Db} (recorded : Bool) : Safely settings strict
      (if !recorded then
        (recordStream agent task .effect { event with
          effect := some effect, value := some (.recorded value), key := key }).bind
            fun _ => .ret ()
      else .ret ()) t := by
    split
    · exact safely_stream rfl (by simp)
    · exact safely_ret
  simp only [onAgentEffect]
  cases key with
  | none => exact hRecord false
  | some key => exact safely_select fun _ _ _ => hRecord _

theorem safely_onInform {agent : Nat} {frame : ReportFrame} {message : Option String}
    {shown : Option Nat} : Safely settings strict (onInform agent frame message shown) s := by
  refine safely_agentTask (fun _ _ _ => safely_ret) fun s' _ _ row _ => ?_
  dsimp only
  split
  · exact safely_stream rfl (by simp)
  · exact safely_ret

/-! ## A task's own hold -/

/-- **Rule** for the claim that answers a task's own hold: its agent is told. -/
theorem safely_decided {agent task : Nat} {event : NewEvent} {approved auto : Bool}
    {answer values : Option String} (hSelf : s.SelfHeld task) (hOwned : s.OwnedBy agent task)
    (hFreed : strict → s.Freed task) :
    Safely settings strict ((claim task {
        toKind := .decided
        onlyIf := fun row => row.latestEventKind == .held
        event := some event }).bind fun won =>
          if won then .act (.deliver agent (.decide task approved answer auto values))
            fun _ => .ret ()
          else .ret ()) s := by
  refine safely_open rfl rfl ⟨_, rfl⟩ hFreed (fun h => by cases h) (fun _ => ?_)
    (fun _ _ _ => safely_ret) fun _ _ _ _ => safely_free (fun _ => trivial) fun _ _ _ _ => safely_ret
  exact ⟨hSelf, rfl, fun row h => beq_iff_eq.mp h, agent, approved, answer, auto, values, _,
    hOwned, rfl⟩

theorem safely_onSelfHold {agent : Nat} {frame : ReportFrame} {message : Option String}
    {prompt : Option AssignPrompt} {details : Option String} {blok : Option (Option Nat)} :
    Safely settings strict (onSelfHold agent frame message prompt details blok) s := by
  refine safely_agentTask (fun _ _ _ => safely_ret) fun s' _ _ row hRead => ?_
  dsimp only
  split
  case isTrue => exact safely_ret
  case isFalse hAsked =>
    have hOpen : row.isDone = false := by
      cases hDone : row.isDone with
      | false => rfl
      | true => simp [hDone] at hAsked
    have hFreed (hStrict : strict) := hRead.freed hStrict hOpen
    refine safely_open rfl rfl ⟨_, rfl⟩ hFreed
      (fun _ => ⟨hRead.reached hOpen, _, rfl, rfl⟩) (fun h => by cases h)
      (fun _ _ _ => safely_ret) fun t hT _ hWon => ?_
    split
    case isTrue =>
      refine safely_select fun u hU _ => ?_
      split
      · exact safely_decided (hU.selfHeld (hWon.selfHeld rfl))
          ((hT.trans hU).ownedBy hRead.owned)
          fun hStrict => (hT.trans hU).freed (hFreed hStrict)
      · exact safely_ret
    case isFalse => exact safely_ret

theorem safely_onReport {agent : Nat} {frame : ReportFrame} :
    Safely settings strict (onReport agent frame) s := by
  unfold onReport
  split
  case h_1 => exact safely_nonterminalConfirm rfl (by simp) (by simp)
  case h_2 => exact safely_nonterminalConfirm rfl (by simp) (by simp)
  case h_3 => exact safely_nonterminalConfirm rfl (by simp) (by simp)
  case h_4 => exact safely_onSelfHold
  case h_5 => exact safely_onInform
  case h_6 => exact safely_finalizeFromAgent rfl (by simp)
  case h_7 => exact safely_finalizeFromAgent rfl (by simp)
  case h_8 => exact safely_finalizeFromAgent rfl (by simp)
  case h_9 => exact safely_finalizeFromAgent rfl (by simp)
  case h_10 => exact safely_finalizeFromAgent rfl (by simp)
  case h_11 => exact safely_stream rfl (by simp)
  case h_12 => exact safely_stream rfl (by simp)
  case h_13 =>
    refine safely_recordStream rfl (by simp) (fun _ _ _ => safely_ret) fun t _ hTInv hFree => ?_
    exact safely_tail (p := unfoldToHigherOrder frame.task .yield none none)
      (safely_unfold (.inr rfl) hFree (fun h => by cases h) nofun hTInv
        fun _ _ _ => safely_ret)
  case h_14 => exact safely_onAgentEffect

/-! ## Decisions -/

theorem buildRedispatchAssign_task {e : Env} {task : Nat} {assign : Assign}
    (h : buildRedispatchAssign e s task = some assign) : assign.task = task := by
  simp only [buildRedispatchAssign, Option.bind_eq_bind, Option.bind_eq_some_iff] at h
  obtain ⟨_, -, _, -, _, -, _, -, h⟩ := h
  split at h
  · cases h
  · cases h
    rfl

/-- What `decide` reads of a held task. -/
theorem heldRow_some {task : Nat} {row : HeldRow} (h : heldRow s task = some row) :
    ∃ t, s.task? task = some t ∧ row.isDone = t.isDone ∧
      row.latestEventKind = t.latestEventKind ∧ row.agent = t.agent ∧
      row.held = newestHeld s task := by
  simp only [heldRow, Option.bind_eq_bind, Option.bind_eq_some_iff] at h
  obtain ⟨t, hTask, _, -, h⟩ := h
  cases h
  exact ⟨t, hTask, rfl, rfl, rfl, rfl⟩

/-- A newest `HELD` event of its own says that the task held itself. -/
theorem selfHeld_of_newestHeld {task : Nat}
    (h : (newestHeld s task).any (·.isSelf) = true) : s.SelfHeld task := by
  obtain ⟨value, hValue, hSelf⟩ := Option.any_eq_true _ _ |>.mp h
  obtain ⟨event, hLast, hEvent⟩ := Option.bind_eq_some_iff.mp hValue
  obtain ⟨hMem, hKind⟩ := List.mem_filter.mp (List.mem_of_getLast? hLast)
  exact ⟨event, hMem, beq_iff_eq.mp hKind, by rw [hEvent, Option.any_some, hSelf]⟩

/-- An answered child's Assign goes to a task that no longer waits. -/
theorem decideChild_runner {e : Env} {task runner : Nat} {watchers : List Nat}
    {approved : Bool} {answer : Option String} {decided : EventValue}
    (h : (decideChild e s task watchers approved answer decided).1 = some runner) :
    (decideChild e s task watchers approved answer decided).2.Answered runner := by
  by_cases hHeld : (s.task? task).any (fun t => t.latestEventKind == .held && !t.isDone)
  case neg =>
    simp only [decideChild, hHeld] at h
    cases h
  case pos =>
    have hRunner : runnerOf s task = runner := by
      simp only [decideChild, hHeld] at h
      cases approved <;> exact Option.some.inj h
    obtain ⟨row, hRow⟩ : s.Exists runner := by
      by_cases hSelf : runnerOf s task = task
      · obtain ⟨trow, hTask, -⟩ := Option.any_eq_true _ _ |>.mp hHeld
        exact ⟨trow, by rw [← hRunner, hSelf, hTask]⟩
      · obtain ⟨lrow, hLower, -⟩ := Db.runnerOf_isLower hSelf
        exact ⟨lrow, hRunner ▸ hLower⟩
    cases approved with
    | true =>
        have hNew := decideChild_approved_row e hRow watchers answer decided hHeld
        rw [if_pos (.inr hRunner.symm)] at hNew
        exact ⟨_, hNew, rfl⟩
    | false =>
        have hNew := decideChild_denied_row e hRow watchers answer decided hHeld
        rw [if_pos (.inr hRunner.symm)] at hNew
        exact ⟨_, hNew, rfl⟩

theorem safely_decideHeldChild {task : Nat} {watchers : List Nat} {approved : Bool}
    {answer : Option String} {decided : EventValue} :
    Safely settings strict (decideHeldChild task watchers approved answer decided) s := by
  refine safely_act fun s' _ _ => ⟨trivial, fun e _ hLater hInv => ?_⟩
  change Safely settings strict _ (decideChild e s' task watchers approved answer decided).2
  simp only [Prog.ret_bind]
  split
  case h_1 => exact safely_ret
  case h_2 runner hRunner =>
    have hAnswered := decideChild_runner hRunner
    split
    case isFalse => exact safely_ret
    case isTrue =>
      refine safely_select fun t hT _ => safely_query fun u hU _ e' => ?_
      rw [Prog.ret_bind]
      split
      case h_1 assign hAssign =>
        refine safely_tail (safely_dispatch (fun _ => ?_) fun _ _ _ => safely_ret)
        rw [buildRedispatchAssign_task hAssign]
        exact (hT.trans hU).answered hAnswered
      case h_2 =>
        exact safely_finalizeTerminal rfl (fun _ => ((hT.trans hU).answered hAnswered).freed)
          fun _ _ _ _ => safely_ret

theorem safely_decide {principal : Principal} {task : Nat} {approved : Bool}
    {answer values : Option String} {valuesFit : Bool} :
    Safely settings strict (decide principal task approved answer values valuesFit) s := by
  refine safely_select fun s' _ hInv => ?_
  split
  case h_1 => exact safely_ret
  case h_2 row hRow =>
    split
    case isTrue => exact safely_ret
    case isFalse =>
      obtain ⟨trow, hTask, -, -, hAgent, hHeld⟩ := heldRow_some hRow
      split
      case isTrue hSelf =>
        rw [hHeld] at hSelf
        have hSelfHeld := selfHeld_of_newestHeld hSelf
        exact safely_decided hSelfHeld ⟨trow, hTask, hAgent.symm⟩
          fun hStrict => ((hInv.holds hStrict).selfHeld hSelfHeld).freed
      case isFalse => exact safely_decideHeldChild

end

end Rekuest
