import Rekuest.Server.Guarantee

/-!
# Holds stand from one transaction to the next

Under the guards, and when a transaction respects the holds, an undecided child
is touched by nothing but an instruct that ends it or its parent's end.
-/

namespace Rekuest

section

variable {settings : Settings} {strict : Prop} {e : Env} {op : Txn}
variable {k : op.Res → Program Unit} {db : Db}

/-! ## What a transaction did to the other row of a pair -/

theorem settleHeldChildren_done {p y : Nat} (hTree : db.Tree)
    (hy : y ∈ heldChildren e.locked db p) : (settleHeldChildren e db p).Done y :=
  have ⟨⟨_, hRow, _⟩, _⟩ := mem_heldChildren.mp hy
  have ⟨_, _, hBecomes⟩ := settleHeldChildren_child hTree hRow hy
  ⟨_, hBecomes.1, rfl⟩

theorem controlTarget_settled (e : Env) {w : Nat} {row : Task} {control : Control}
    (caller : Option Nat) (interruptAt : Option Int) {outcome : TaskEventKind}
    (hRow : db.task? w = some row) (hOutcome : control.waitingOutcome = some outcome)
    (hOpen : row.isDone = false) (hWaiting : row.stillWaiting = true) :
    (controlTarget e db w control caller interruptAt).2.Done w ∧
      (controlTarget e db w control caller interruptAt).2.instructs = db.instructs ++
        [{ task := w, kind := control.instructKind, caller := caller }] := by
  simp only [controlTarget, hRow, hOpen, hOutcome, hWaiting, Bool.false_eq_true, if_false]
  obtain ⟨event, -, hBecomes⟩ :=
    settleTarget_becomes hRow e.now w row control.instructKind outcome
  rw [if_pos rfl] at hBecomes
  exact ⟨⟨_, hBecomes.1, rfl⟩, congrArg (· ++ _) Db.Frame.settleTarget.instructs⟩

theorem decideChild_answered {w : Nat} {row : Task} {watchers : List Nat}
    {approved : Bool} {answer : Option String} {decided : EventValue}
    (hRow : db.task? w = some row) (hHeld : row.latestEventKind = .held)
    (hOpen : row.isDone = false) :
    (decideChild e db w watchers approved answer decided).2.Answered w := by
  have hAny : (db.task? w).any (fun t => t.latestEventKind == .held && !t.isDone) = true := by
    simp [hRow, hHeld, hOpen]
  cases approved with
  | true =>
      have hNew := decideChild_approved_row e hRow watchers answer decided hAny
      rw [if_pos (.inl rfl)] at hNew
      exact ⟨_, hNew, rfl⟩
  | false =>
      have hNew := decideChild_denied_row e hRow watchers answer decided hAny
      rw [if_pos (.inl rfl)] at hNew
      exact ⟨_, hNew, rfl⟩

/-! ## The fields of `HoldsStand` -/

theorem Task.Untouched.stillWaiting {row : Task} (h : row.Untouched) :
    row.stillWaiting = true := by
  simp [Task.stillWaiting, h.attempts, h.pickedUpAt, h.kind]

theorem Task.Untouched.not_unpicked {row : Task} (h : row.Untouched) (cutoff : Int) :
    row.isUnpicked cutoff = false := by
  simp [Task.isUnpicked, h.kind]

theorem Task.Untouched.not_waiting {row : Task} (h : row.Untouched) :
    row.isWaiting = false := by
  simp [Task.isWaiting, h.notBefore]

theorem Db.Freed.answered {x : Nat} {row : Task} (h : db.Freed x)
    (hRow : db.task? x = some row) (hOpen : row.isDone = false) : row.undecided = false := by
  obtain ⟨row', hRow', hFreed⟩ := h
  rw [hRow, Option.some.injEq] at hRow'
  subst hRow'
  exact hFreed.resolve_right (by simp [hOpen])

/-- A row that is still undecided and open after a step was so before it, and
the step left it untouched. -/
theorem waiting_step (hHolds : db.HoldsStand) (hGuard : TxnGuard settings True op k db)
    (hRespects : respectsHolds op db = true) {x : Nat} {row row' : Task}
    {events : List TaskEvent} (hRow : db.task? x = some row)
    (hStep : TaskStep e db x row op row' events) (hUndecided : row'.undecided = true)
    (hOpen' : row'.isDone = false) : row'.Untouched := by
  cases hStep with
  | same => exact hHolds.waiting hRow hUndecided hOpen'
  | stamped =>
      have hOld : row.undecided = true := hUndecided
      have hOpen : row.isDone = false := hOpen'
      simp [respectsHolds, hRow, hOld, hOpen] at hRespects
  | dated =>
      have h := hHolds.waiting hRow hUndecided hOpen'
      exact ⟨h.kind, h.attempts, h.pickedUpAt, h.notBefore, h.schedule, h.instruct⟩
  | movedToNow schedule _ hSchedule =>
      have h := hHolds.waiting hRow hUndecided hOpen'
      rw [h.schedule] at hSchedule
      cases hSchedule
  | recorded => exact hHolds.waiting hRow hUndecided hOpen'
  | claimed c hAdmits =>
      have hAnswered := (hGuard.freed trivial).answered hRow (Claim.admits_open hAdmits).1
      have hSame : (c.move e.now row).undecided = row.undecided := by
        unfold Claim.move
        cases c.extra <;> rfl
      rw [hSame, hAnswered] at hUndecided
      cases hUndecided
  | overridden _ _ _ hDone => exact absurd hDone (by simpa using hOpen')
  | approved => cases hUndecided
  | denied => cases hOpen'
  | lowerApproved => cases hUndecided
  | lowerDenied => cases hOpen'
  | instructed control caller interruptAt hOpen hGiven =>
      have h := hHolds.waiting hRow hUndecided hOpen'
      rcases hGiven with hNone | hNot
      · have hAnswered := (hGuard trivial hNone).answered hRow hOpen
        rw [hAnswered] at hUndecided
        cases hUndecided
      · rw [h.stillWaiting] at hNot
        cases hNot
  | redelivered cutoff _ hUnpicked =>
      have h := hHolds.waiting hRow hUndecided hOpen'
      rw [h.not_unpicked] at hUnpicked
      cases hUnpicked
  | dueDispatched hOpen hWaiting =>
      have h := hHolds.waiting hRow hUndecided hOpen'
      rw [h.not_waiting] at hWaiting
      cases hWaiting
  | settledChild | settledLower | controlSettled | lowerSettled | unpicked
  | dueFinalized => cases hOpen'

/-- An undecided row that a step ended was ended by an instruct on it or with
its parent. -/
theorem ended_step (hTree : db.Tree) (hHolds : db.HoldsStand)
    (hGuard : TxnGuard settings True op k db) {x : Nat} {row row' : Task}
    {events : List TaskEvent} (hRow : db.task? x = some row)
    (hStep : TaskStep e db x row op row' events) (hUndecided : row'.undecided = true)
    (hOpen : row.isDone = false) (hDone' : row'.isDone = true) :
    (∃ instruct ∈ (Txn.exec settings e op db).2.instructs,
      instruct.task = x ∧ instruct.kind.ends) ∨
      ∃ p, row'.parent = some p ∧ (Txn.exec settings e op db).2.Done p := by
  have hLater := hGuard.later (e := e) hTree
  cases hStep with
  | claimed c hAdmits =>
      have hAnswered := (hGuard.freed trivial).answered hRow hOpen
      have hSame : (c.move e.now row).undecided = row.undecided := by
        unfold Claim.move
        cases c.extra <;> rfl
      rw [hSame, hAnswered] at hUndecided
      cases hUndecided
  | settledChild p hParent => exact .inr ⟨p, hParent, hLater.done hGuard⟩
  | settledLower p wrapper hChild hLower =>
      obtain ⟨row₀, hRow₀, -, hParent⟩ := hLower
      rw [hRow, Option.some.injEq] at hRow₀
      subst hRow₀
      exact .inr ⟨wrapper, hParent, settleHeldChildren_done hTree hChild⟩
  | controlSettled control caller interruptAt outcome hOutcome hOpen' hWaiting =>
      refine .inl ⟨{ task := x, kind := control.instructKind, caller := caller }, ?_, rfl, ?_⟩
      · have hNew := (controlTarget_settled e caller interruptAt hRow hOutcome hOpen hWaiting).2
        exact hNew ▸ List.mem_append_right _ (List.mem_singleton_self _)
      · cases control with
        | cancel => exact .inl rfl
        | interrupt => exact .inr rfl
        | pause => cases hOutcome
        | resume => cases hOutcome
  | lowerSettled wrapper wrow control caller interruptAt outcome hOutcome hLower hWrapper
      hWOpen hHeld hWaiting =>
      obtain ⟨row₀, hRow₀, -, hParent⟩ := hLower
      rw [hRow, Option.some.injEq] at hRow₀
      subst hRow₀
      exact .inr ⟨wrapper, hParent,
        (controlTarget_settled e caller interruptAt hWrapper hOutcome hWOpen hWaiting).1⟩
  | unpicked cutoff _ _ hUnpicked =>
      have h := hHolds.waiting hRow hUndecided hOpen
      rw [h.not_unpicked] at hUnpicked
      cases hUnpicked
  | dueFinalized _ hWaiting =>
      have h := hHolds.waiting hRow hUndecided hOpen
      rw [h.not_waiting] at hWaiting
      cases hWaiting
  | denied => cases hUndecided
  | lowerDenied => cases hUndecided
  | overridden _ _ _ hDone => exact absurd hDone (by simp [hOpen])
  | approved => cases hUndecided
  | lowerApproved => cases hUndecided
  | same | stamped | dated | movedToNow | recorded | instructed | redelivered
  | dueDispatched => exact absurd hDone' (by simp [hOpen])

/-- A lower child answered by a step was answered with its wrapper. -/
theorem lower_step (hTree : db.Tree) (hHolds : db.HoldsStand) (hRespects : respectsHolds op db = true)
    (hLater : db.Later (Txn.exec settings e op db).2) {l w : Nat} {row row' : Task}
    {events : List TaskEvent} (hRow : db.task? l = some row)
    (hLower : db.IsLower l w) (hStep : TaskStep e db l row op row' events)
    (hAnswered : row'.undecided = false) : (Txn.exec settings e op db).2.Answered w := by
  have hOld : row.undecided = false → (Txn.exec settings e op db).2.Answered w := fun h =>
    hLater.answered (hHolds.lower hLower ⟨row, hRow, h⟩)
  -- a decision on the lower child alone needs its wrapper answered
  have hAlone (hHeld : row.latestEventKind = .held) (hOpen : row.isDone = false)
      (hAll : (db.task? l).all (fun row =>
        row.latestEventKind != .held || row.isDone || !row.isHigherOrderChild ||
          (row.parent.bind db.task?).all fun wrow => !wrow.undecided) = true) :
      (Txn.exec settings e op db).2.Answered w := by
    obtain ⟨row₀, hRow₀, hFlag, hParent⟩ := hLower
    rw [hRow, Option.some.injEq] at hRow₀
    subst hRow₀
    simp only [hRow, Option.all_some, hHeld, bne_self_eq_false, hOpen, hFlag, Bool.not_true,
      Bool.or_false, Bool.false_or, hParent, Option.bind_some] at hAll
    obtain ⟨-, w', wrow, -, hParent', hWrow, -⟩ := hTree.lower hRow hFlag
    rw [hParent, Option.some.injEq] at hParent'
    subst hParent'
    rw [hWrow, Option.all_some, Bool.not_eq_true'] at hAll
    exact hLater.answered ⟨wrow, hWrow, hAll⟩
  cases hStep with
  | claimed c _ =>
      refine hOld ?_
      unfold Claim.move at hAnswered
      cases hExtra : c.extra <;> rw [hExtra] at hAnswered <;> exact hAnswered
  | approved _ _ _ hHeld hOpen => exact hAlone hHeld hOpen hRespects
  | denied _ _ _ hHeld hOpen => exact hAlone hHeld hOpen hRespects
  | lowerApproved wrapper wrow _ _ _ hLower' hWrapper hHeld hOpen =>
      rw [hLower.wrapper_unique hLower']
      exact decideChild_answered hWrapper hHeld hOpen
  | lowerDenied wrapper wrow _ _ _ hLower' hWrapper hHeld hOpen =>
      rw [hLower.wrapper_unique hLower']
      exact decideChild_answered hWrapper hHeld hOpen
  | same | stamped | dated | movedToNow | recorded | settledChild | settledLower
  | overridden | controlSettled | lowerSettled | instructed | unpicked | redelivered
  | dueFinalized | dueDispatched => exact hOld hAnswered

/-- A task's own hold is what a won claim wrote; no other transaction writes
one. -/
theorem selfHeld_exec (hTree : db.Tree) (hGuard : TxnGuard settings strict op k db)
    {x : Nat} (hSelf : (Txn.exec settings e op db).2.SelfHeld x) :
    db.SelfHeld x ∨ ∃ c row, op = .claim x c ∧ c.toKind = .held ∧ db.task? x = some row ∧
      c.admits row = true := by
  obtain ⟨event, hEvent, hKind, hValue⟩ := hSelf
  -- neither a copy nor a held child's own event is a task's own hold
  have hMirror (h : event.IsMirror ∨ event.IsAsk) : False := by
    rcases h with (hDecided | ⟨-, hNames⟩) | ⟨-, _, _, _, _, _, hAsk⟩
    · rw [hKind] at hDecided
      cases hDecided
    · cases hVal : event.event.value with
      | none => simp [hVal] at hValue
      | some value => cases value <;> simp_all [EventValue.namesHeld, EventValue.isSelf]
    · simp [hAsk, EventValue.isSelf] at hValue
  have hOther {kind : TaskEventKind} {new : NewEvent} (hNe : kind ≠ .held)
      (h : event ∈ [({ task := x, kind := kind, event := new } : TaskEvent)]) : False := by
    rw [List.mem_singleton] at h
    subst h
    exact hNe hKind
  cases hRow : db.task? x with
  | none =>
      obtain ⟨events, hEvents, hNew⟩ := absent_exec settings e op hRow (by
        rintro kind event rfl
        obtain ⟨row, hExists⟩ := hGuard.1
        rw [hRow] at hExists
        cases hExists)
      rw [hEvents, List.mem_append] at hEvent
      rcases hEvent with hOld | hEvent
      · exact .inl ⟨event, hOld, hKind, hValue⟩
      · exact absurd (hNew event hEvent) hMirror
  | some row =>
      obtain ⟨row', events, hBecomes, hStep⟩ := taskStep settings e op hTree hRow
      rw [hBecomes.2, List.mem_append] at hEvent
      rcases hEvent with hOld | hEvent
      · exact .inl ⟨event, hOld, hKind, hValue⟩
      cases hStep with
      | claimed c hAdmits =>
          obtain ⟨new, -, rfl⟩ := List.mem_map.mp hEvent
          exact .inr ⟨c, row, rfl, hKind, rfl, hAdmits⟩
      | same _ _ hCopies => exact absurd (.inl (hCopies event hEvent)) hMirror
      | recorded kind new => exact absurd hEvent (hOther hGuard.2.2)
      | overridden kind new =>
          rw [List.mem_singleton] at hEvent
          subst hEvent
          obtain rfl : kind = .held := hKind
          exact absurd hGuard.1 (by decide)
      | approved _ _ _ _ _ _ _ _ _ new _ _ copies hCopies =>
          rcases List.mem_append.mp hEvent with hEvent | hEvent
          · rcases List.mem_cons.mp hEvent with rfl | hEvent
            · cases hKind
            · exact absurd (.inl (hCopies event hEvent)) hMirror
          · exact absurd hEvent (hOther nofun)
      | denied _ _ _ _ _ new _ _ _ copies hCopies =>
          rcases List.mem_append.mp hEvent with hEvent | hEvent
          · rcases List.mem_cons.mp hEvent with rfl | hEvent
            · cases hKind
            · exact absurd (.inl (hCopies event hEvent)) hMirror
          · exact absurd hEvent (hOther nofun)
      | lowerApproved _ _ _ _ _ _ _ _ _ _ hCopies =>
          exact absurd (.inl (hCopies event hEvent)) hMirror
      | lowerDenied _ _ _ _ _ _ _ _ _ _ hCopies =>
          exact absurd (.inl (hCopies event hEvent)) hMirror
      | controlSettled control _ _ outcome hOutcome =>
          refine absurd hEvent (hOther ?_)
          cases control <;> cases hOutcome <;> nofun
      | instructed control =>
          refine absurd hEvent (hOther ?_)
          cases control <;> nofun
      | unpicked _ kind _ _ hCases =>
          refine absurd hEvent (hOther ?_)
          rcases hCases with rfl | rfl | rfl <;> nofun
      | settledChild | redelivered | dueFinalized => exact absurd hEvent (hOther nofun)
      | stamped | dated | movedToNow | settledLower | lowerSettled | dueDispatched =>
          cases hEvent

/-- A row inserted undecided is untouched. -/
theorem newRow_untouched (hGuard : TxnGuard settings True op k db)
    (hRespects : respectsHolds op db = true) {x : Nat} {row : Task}
    (hNew : NewRow e db x op row) (hUndecided : row.undecided = true) : row.Untouched := by
  cases hNew with
  | plain new ask =>
      have hHeld : new.held = true := hUndecided
      obtain ⟨-, hSchedule, hAttempts⟩ := hGuard.held hHeld
      simp only [respectsHolds, hHeld, Bool.not_true, Bool.false_or,
        Option.isNone_iff_eq_none] at hRespects
      exact ⟨by simp [NewTask.row, hHeld], hAttempts, rfl, hRespects, hSchedule, rfl⟩
  | wrapper wrapper lower ask =>
      have hHeld : wrapper.held = true := hUndecided
      exact ⟨by simp [NewTask.row, hHeld], hGuard.unsent, rfl, hGuard.undelayed.1,
        hGuard.unscheduled.1, rfl⟩
  | lower wrapper lower ask =>
      have hHeld : lower.held = true := hUndecided
      exact ⟨by simp [NewTask.row, lowerChild, hHeld], hGuard.lowerUnsent hHeld, rfl,
        hGuard.undelayed.2, hGuard.unscheduled.2, rfl⟩

theorem NewRow.open {x : Nat} {row : Task} (h : NewRow e db x op row) :
    row.isDone = false := by
  cases h <;> rfl

theorem holds_exec (hInv : db.Inv True) (hGuard : TxnGuard settings True op k db)
    (hRespects : respectsHolds op db = true) :
    (Txn.exec settings e op db).2.HoldsStand where
  waiting := by
    intro x row' hRow' hUndecided hOpen
    rcases row_exec hInv.tree hRow' with ⟨row, _, hRow, -, hStep⟩ | ⟨-, hNew⟩
    · exact waiting_step (hInv.holds trivial) hGuard hRespects hRow hStep hUndecided hOpen
    · exact newRow_untouched hGuard hRespects hNew hUndecided
  unsent := by
    intro agent assign hSent
    have hLater := hGuard.later (e := e) hInv.tree
    rcases sent_exec settings e op db with hSame | ⟨agent', frame, rfl, hNew⟩
    · rw [hSame] at hSent
      exact hLater.answered ((hInv.holds trivial).unsent hSent)
    · rw [hNew, List.mem_append, List.mem_singleton] at hSent
      rcases hSent with hOld | hEq
      · exact hLater.answered ((hInv.holds trivial).unsent hOld)
      · cases hEq
        exact hLater.answered (hGuard trivial)
  ended := by
    intro x row' hRow' hUndecided hDone'
    have hLater := hGuard.later (e := e) hInv.tree
    rcases row_exec hInv.tree hRow' with ⟨row, _, hRow, -, hStep⟩ | ⟨-, hNew⟩
    · cases hOpen : row.isDone with
      | false =>
          exact ended_step hInv.tree (hInv.holds trivial) hGuard hRow hStep hUndecided
            hOpen hDone'
      | true =>
          obtain ⟨row'', hRow'', hStepLater⟩ := hLater.row hRow
          rw [hRow', Option.some.injEq] at hRow''
          subst hRow''
          have hOld : row.undecided = true := by
            cases hAnswered : row.undecided with
            | true => rfl
            | false =>
                rw [hStepLater.answered hAnswered] at hUndecided
                cases hUndecided
          rcases (hInv.holds trivial).ended hRow hOld hOpen with
            ⟨instruct, hMem, hInstruct⟩ | ⟨p, hParent, hPDone⟩
          · refine .inl ⟨instruct, ?_, hInstruct⟩
            rcases instructs_exec settings e op db with hSame | ⟨_, _, _, _, _, -, -, -, hMore⟩
            · exact hSame ▸ hMem
            · exact hMore ▸ List.mem_append_left _ hMem
          · exact .inr ⟨p, hStepLater.identity.parent.trans hParent, hLater.done hPDone⟩
    · rw [hNew.open] at hDone'
      cases hDone'
  lower := by
    intro l w hLower' hAnswered'
    have hLater := hGuard.later (e := e) hInv.tree
    obtain ⟨row', hRow', hAnswered⟩ := hAnswered'
    have hLowerRow := hLower'
    obtain ⟨row'', hRow'', hFlag, hParent⟩ := hLowerRow
    rw [hRow', Option.some.injEq] at hRow''
    subst hRow''
    rcases row_exec hInv.tree hRow' with ⟨row, _, hRow, -, hStep⟩ | ⟨-, hNew⟩
    · have hSame := hStep.identity
      exact lower_step hInv.tree (hInv.holds trivial) hRespects hLater hRow
        ⟨row, hRow, hSame.isHigherOrderChild.symm.trans hFlag,
          hSame.parent.symm.trans hParent⟩ hStep hAnswered
    · cases hNew with
      | plain new ask => exact absurd hFlag (by simp [NewTask.row, hGuard.plain])
      | wrapper wrapper lower ask =>
          exact absurd hFlag (by simp [NewTask.row, hGuard.placed.plain])
      | lower wrapper lower ask hx =>
          cases hParent
          exact ⟨_, wrapper_row hInv.tree hRow' hx, hGuard.held.symm.trans hAnswered⟩
  selfHeld := by
    intro x hSelf
    have hLater := hGuard.later (e := e) hInv.tree
    rcases selfHeld_exec hInv.tree hGuard hSelf with
      hOld | ⟨c, row, rfl, -, hRow, hAdmits⟩
    · exact hLater.answered ((hInv.holds trivial).selfHeld hOld)
    · exact hLater.answered ⟨row, hRow,
        (hGuard.freed trivial).answered hRow (Claim.admits_open hAdmits).1⟩

end

/-- **Step lemma** of the invariant. -/
theorem inv_exec {settings : Settings} {strict : Prop} {op : Txn}
    {k : op.Res → Program Unit} {db : Db} (e : Env) (hInv : db.Inv strict)
    (hGuard : TxnGuard settings strict op k db)
    (hAllowed : strict → respectsHolds op db = true) :
    (Txn.exec settings e op db).2.Inv strict where
  tree := tree_exec hInv.tree hGuard
  absent := absent_inv hInv hGuard
  holds := by
    intro hStrict
    obtain rfl : strict = True := eq_true hStrict
    exact holds_exec hInv hGuard (hAllowed trivial)

end Rekuest
