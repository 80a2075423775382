import Rekuest.Server.Standing

/-!
# The building blocks of the handlers are safe

One rule for each program the handlers are made of: whatever other threads did
in between, the program's transactions run under their guards, and what follows
it may start from what it established.
-/

namespace Rekuest

open Concurrent

/-- A program whose every transaction meets its guard. -/
abbrev Safely (settings : Settings) (strict : Prop) : Program Unit → Db → Prop :=
  (discipline settings strict).Safe

section

variable {settings : Settings} {strict : Prop} {s : Db}

theorem safely_ret : Safely settings strict (.ret ()) s := trivial

/-- **Rule** for one transaction. -/
theorem safely_act {op : Txn} {k : op.Res → Program Unit}
    (h : ∀ s', s.Later s' → s'.Inv strict → TxnGuard settings strict op k s' ∧
      ∀ e, (strict → respectsHolds op s' = true) →
        s.Later (Txn.exec settings e op s').2 → (Txn.exec settings e op s').2.Inv strict →
        Safely settings strict (k (Txn.exec settings e op s').1)
          (Txn.exec settings e op s').2) :
    Safely settings strict (.act op k) s := by
  intro s' hLater hInv
  obtain ⟨hGuard, hNext⟩ := h s' hLater hInv
  exact ⟨hGuard, fun e hAllowed => hNext e hAllowed
    (hLater.trans (hGuard.later hInv.tree)) (inv_exec e hInv hGuard hAllowed)⟩

/-- A transaction without a guard, of which nothing is remembered. -/
theorem safely_free {op : Txn} {k : op.Res → Program Unit}
    (hFree : ∀ s', TxnGuard settings strict op k s')
    (h : ∀ s', s.Later s' → s'.Inv strict → ∀ r, Safely settings strict (k r) s') :
    Safely settings strict (.act op k) s :=
  safely_act fun s' _ _ => ⟨hFree s', fun _ _ hLater hInv => h _ hLater hInv _⟩

/-- A `SELECT`: its result is what it read. -/
theorem safely_query {α : Type} {read : Env → Db → α} {k : α → Program Unit}
    (h : ∀ s', s.Later s' → s'.Inv strict → ∀ e, Safely settings strict (k (read e s')) s') :
    Safely settings strict (.act (.query α read) k) s :=
  safely_act fun s' hLater hInv => ⟨trivial, fun e _ _ _ => h s' hLater hInv e⟩

theorem safely_select {α : Type} {read : Db → α} {f : α → Program Unit}
    (h : ∀ s', s.Later s' → s'.Inv strict → Safely settings strict (f (read s')) s') :
    Safely settings strict ((select read).bind f) s :=
  safely_query fun s' hLater hInv _ => h s' hLater hInv

theorem safely_utcNow {f : Int → Program Unit}
    (h : ∀ s', s.Later s' → s'.Inv strict → ∀ now, Safely settings strict (f now) s') :
    Safely settings strict (utcNow.bind f) s :=
  safely_query fun s' hLater hInv e => h s' hLater hInv e.now

/-- What a program needs at the start, it needs at any later state. -/
theorem safely_forEach {α : Type} {xs : List α} {body : α → Program Unit}
    {f : Unit → Program Unit}
    (hBody : ∀ x ∈ xs, ∀ s', s.Later s' → s'.Inv strict → ∀ g : Unit → Program Unit,
      (∀ s'', s'.Later s'' → s''.Inv strict → Safely settings strict (g ()) s'') →
        Safely settings strict ((body x).bind g) s')
    (hInv : s.Inv strict)
    (h : ∀ s', s.Later s' → s'.Inv strict → Safely settings strict (f ()) s') :
    Safely settings strict ((Prog.forEach xs body).bind f) s := by
  induction xs generalizing s with
  | nil => exact h s (.refl s) hInv
  | cons x rest ih =>
      rw [Prog.forEach_cons, Prog.bind_assoc]
      refine hBody x List.mem_cons_self s (.refl s) hInv _ fun s' hLater hInv' => ?_
      exact ih (fun y hy t hT => hBody y (List.mem_cons_of_mem _ hy) t (hLater.trans hT))
        hInv' fun t hT => h t (hLater.trans hT)

/-! ## Claims -/

theorem claim_bind (task : Nat) (c : Claim) (f : Bool → Program Unit) :
    (claim task c).bind f = .act (.claim task c) fun won =>
      if won && c.markDone then .act (.settleHeldChildren task) fun _ => f won
      else f won := by
  simp only [claim, run, Prog.bind_eq, Prog.perform_bind, Prog.act_bind]
  congr 1
  funext won
  split <;> rfl

/-- What holds after a won claim. -/
structure Won (strict : Prop) (task : Nat) (c : Claim) (s : Db) : Prop where
  done : c.markDone = true → s.Done task
  ended : s.EndedAs task c.toKind
  answered : strict → s.Answered task
  selfHeld : c.toKind = .held → s.SelfHeld task

theorem Won.later {task : Nat} {c : Claim} {s' : Db} (h : Won strict task c s)
    (hLater : s.Later s') : Won strict task c s' where
  done := hLater.done ∘ h.done
  ended := hLater.endedAs h.ended
  answered := hLater.answered ∘ h.answered
  selfHeld := hLater.selfHeld ∘ h.selfHeld

/-- A won claim's writes establish it. -/
theorem won_of_claim {task : Nat} {c : Claim} {k : Bool → Program Unit} {row : Task}
    {event : NewEvent} (now : Int) (hGuard : ClaimGuard settings strict task c k s)
    (hRow : s.task? task = some row) (hAdmits : c.admits row = true)
    (hEvent : c.event = some event) :
    Won strict task c
      ((s.modifyTask task (c.move now)).insertEvent task c.toKind event) := by
  have hNew : ((s.modifyTask task (c.move now)).insertEvent task c.toKind event).task?
      task = some (c.move now row) := by simp [hRow]
  have hWritten : ({ task := task, kind := c.toKind, event := event } : TaskEvent) ∈
      ((s.modifyTask task (c.move now)).insertEvent task c.toKind event).eventsOf task := by
    simp
  refine ⟨fun hDone => ⟨_, hNew, ?_⟩, ⟨_, hWritten, rfl⟩, fun hStrict => ⟨_, hNew, ?_⟩,
    fun hHeld => ?_⟩
  · unfold Claim.move
    cases c.extra <;> simp [ClaimExtra.set, hDone]
  · have hAnswered := (hGuard.freed hStrict).answered hRow (Claim.admits_open hAdmits).1
    unfold Claim.move
    cases c.extra <;> exact hAnswered
  · obtain ⟨-, event', hEvent', hSelf⟩ := hGuard.held hHeld
    rw [hEvent, Option.some.injEq] at hEvent'
    subst hEvent'
    exact ⟨_, hWritten, hHeld, hSelf⟩

/-- **Rule** for a claim: under its guard, whether lost or won. -/
theorem safely_claim {task : Nat} {c : Claim} {f : Bool → Program Unit}
    (hGuard : ∀ s', s.Later s' → s'.Inv strict → ClaimGuard settings strict task c
      (fun won => if won && c.markDone then .act (.settleHeldChildren task) fun _ => f won
        else f won) s')
    (hLost : ∀ s', s.Later s' → s'.Inv strict → Safely settings strict (f false) s')
    (hWon : ∀ s', s.Later s' → s'.Inv strict → Won strict task c s' →
      Safely settings strict (f true) s') :
    Safely settings strict ((claim task c).bind f) s := by
  rw [claim_bind]
  refine safely_act fun s' hLater hInv => ⟨hGuard s' hLater hInv, fun e _ hLater' hInv' => ?_⟩
  change s.Later (claimTask e s' task c).2 at hLater'
  change (claimTask e s' task c).2.Inv strict at hInv'
  change Safely settings strict ((fun won : Bool => if won && c.markDone then
    .act (.settleHeldChildren task) fun _ => f won else f won) (claimTask e s' task c).1)
    (claimTask e s' task c).2
  rcases claimTask_cases e s' task c with hEq | ⟨row, hRow, hAdmits, hEq⟩
  · rw [hEq] at hLater' hInv' ⊢
    exact hLost s' hLater' hInv'
  · obtain ⟨event, hEvent⟩ := (hGuard s' hLater hInv).event
    simp only [hEvent] at hEq
    rw [hEq] at hLater' hInv' ⊢
    have hHere := won_of_claim e.now (hGuard s' hLater hInv) hRow hAdmits hEvent
    cases hDone : c.markDone with
    | false => exact hWon _ hLater' hInv' hHere
    | true =>
        refine safely_act fun t hT hTInv => ⟨hT.done (hHere.done hDone), fun e' _ hT' hTInv' => ?_⟩
        refine hWon _ (hLater'.trans hT') hTInv' (hHere.later hT')

theorem settleHeldChildren_later {e : Env} {p : Nat} (hTree : s.Tree) :
    s.Later (settleHeldChildren e s p) :=
  Db.later_exec {} e (.settleHeldChildren p) hTree fun _ _ _ h => by cases h

theorem settleHeldChildren_tree {e : Env} {p : Nat} (hTree : s.Tree) :
    (settleHeldChildren e s p).Tree :=
  (foldl_settleHeldChild_sameTree _ e.now _).tree
    (implementations_exec {} e (.settleHeldChildren p) s) hTree

/-- **Rule** for a claim that ends a task and is not an unfold. -/
theorem safely_terminal {task : Nat} {c : Claim} {f : Bool → Program Unit}
    (hKind : isTerminal c.toKind = true) (hDone : c.markDone = true)
    (hEvent : ∃ event, c.event = some event ∧ event.delegatedTo = none)
    (hFreed : strict → s.Freed task)
    (hOwes : ∀ s', s.Later s' → s'.Tree → ∀ w, s'.IsLower task w →
      OwesUnfold settings task w (f true) s')
    (hLost : ∀ s', s.Later s' → s'.Inv strict → Safely settings strict (f false) s')
    (hWon : ∀ s', s.Later s' → s'.Inv strict → Won strict task c s' →
      Safely settings strict (f true) s') :
    Safely settings strict ((claim task c).bind f) s := by
  obtain ⟨event, hEvent, hDelegated⟩ := hEvent
  refine safely_claim (fun s' hLater hInv => ?_) hLost hWon
  refine { marks := hDone.trans hKind.symm, event := ⟨event, hEvent⟩,
           freed := fun h => hLater.freed (hFreed h), held := ?_, decided := ?_,
           settles := ?_, unfolds := ?_, delegated := ?_ }
  · intro h
    rw [h] at hKind
    cases hKind
  · intro h
    rw [h] at hKind
    cases hKind
  · intro _
    exact ⟨fun _ => f true, by simp [hDone]⟩
  · intro _ w hLower
    simp only [hDone, Bool.and_self, if_true]
    refine .after (.settleHeldChildren task) (fun _ => f true) s' fun t hT hTTree e => ?_
    have hStep := hT.trans (settleHeldChildren_later (e := e) (p := task) hTTree)
    exact hOwes _ (hLater.trans hStep) (settleHeldChildren_tree hTTree) w
      (hStep.isLower hLower)
  · intro l hl
    simp [hEvent, hDelegated] at hl

/-! ## Unfolding -/

theorem wrapperOf_isLower {child w : Nat} (hWrapper : wrapperOf s child = some w)
    (hFlagged : s.Flagged child) : s.IsLower child w := by
  obtain ⟨row, hRow, hFlag⟩ := hFlagged
  simp only [wrapperOf, hRow, Option.bind_eq_bind, Option.bind_some] at hWrapper
  obtain ⟨p, hParent, hRest⟩ := Option.bind_eq_some_iff.mp hWrapper
  obtain ⟨prow, -, hHigher⟩ := Option.bind_eq_some_iff.mp hRest
  split at hHigher
  case isTrue =>
    cases hHigher
    exact ⟨row, hRow, hFlag, hParent⟩
  case isFalse => cases hHigher

theorem wrapperOf_eq {child w : Nat} (hTree : s.Tree) (hLower : s.IsLower child w) :
    wrapperOf s child = some w := by
  obtain ⟨row, hRow, hFlag, hParent⟩ := hLower
  obtain ⟨-, v, vrow, -, hParent', hVrow, -, -, hHigher⟩ := hTree.lower hRow hFlag
  rw [hParent, Option.some.injEq] at hParent'
  subst hParent'
  simp [wrapperOf, hRow, hParent, hVrow, hHigher]

/-- The claim of an unfold. -/
def unfoldClaim (child : Nat) (kind : TaskEventKind) (message : Option String) : Claim where
  toKind := kind
  markDone := isTerminal kind
  event := some { delegatedTo := some child, message := message }

/-- The end of an unfold: the wrapper is looked up and claimed. -/
theorem unfold_bind (child : Nat) (kind : TaskEventKind) (message : Option String)
    (f : Unit → Program Unit) :
    (unfoldToHigherOrder child kind message (some true)).bind f =
      (select (wrapperOf · child)).bind fun w => match w with
        | none => f ()
        | some parent => (claim parent (unfoldClaim child kind message)).bind fun _ => f () := by
  simp only [unfoldToHigherOrder, Prog.pure_eq, Prog.bind_eq, Prog.ret_bind, if_true,
    Prog.bind_assoc, unfoldClaim]
  congr 1
  funext w
  cases w with
  | none => rfl
  | some parent => simp only [Prog.bind_assoc, Prog.ret_bind]

theorem isUnfold_unfoldClaim {child w : Nat} {kind : TaskEventKind}
    {message : Option String} (hKind : isTerminal kind = true) :
    IsUnfold child w (.claim w (unfoldClaim child kind message)) :=
  ⟨_, rfl, hKind, rfl, rfl, fun _ => rfl, rfl⟩

theorem safely_unfold_flagged {child : Nat} {kind : TaskEventKind}
    {message : Option String} {f : Unit → Program Unit}
    (hKind : isTerminal kind = true ∨ kind = .yield)
    (hAnswered : strict → s.Answered child)
    (hEnded : isTerminal kind = true → s.EndedAs child kind) (hFlagged : s.Flagged child)
    (h : ∀ s', s.Later s' → s'.Inv strict → Safely settings strict (f ()) s') :
    Safely settings strict ((unfoldToHigherOrder child kind message (some true)).bind f) s := by
  rw [unfold_bind]
  refine safely_select fun s' hLater hInv => ?_
  split
  case h_1 => exact h s' hLater hInv
  case h_2 w hWrapper =>
    have hLower := wrapperOf_isLower hWrapper (hLater.flagged hFlagged)
    refine safely_claim (fun t hT hTInv => ?_)
      (fun t hT => h t (hLater.trans hT)) fun t hT hTInv _ => h t (hLater.trans hT) hTInv
    have hLowerT := hT.isLower hLower
    refine { marks := rfl, event := ⟨_, rfl⟩, freed := fun hStrict => ?_, held := ?_,
             decided := ?_, settles := ?_, unfolds := ?_, delegated := ?_ }
    · exact ((hTInv.holds hStrict).lower hLowerT
        ((hLater.trans hT).answered (hAnswered hStrict))).freed
    · rintro rfl
      rcases hKind with hKind | hKind <;> cases hKind
    · rintro rfl
      rcases hKind with hKind | hKind <;> cases hKind
    · intro hDone
      exact ⟨fun _ => f (), by simp only [hDone, Bool.and_self, if_true]⟩
    · intro _ v hLower'
      exact absurd hLower' (hLowerT.wrapper_not_lower hTInv.tree)
    · intro l hl hDone
      obtain rfl : child = l := Option.some.inj hl
      exact ⟨hLowerT, (hLater.trans hT).endedAs (hEnded hDone), isUnfold_unfoldClaim hDone⟩

/-- **Rule** for an unfold, of an end or of a `YIELD`. -/
theorem safely_unfold {child : Nat} {kind : TaskEventKind} {message : Option String}
    {flag : Option Bool} {f : Unit → Program Unit}
    (hKind : isTerminal kind = true ∨ kind = .yield)
    (hFree : strict → s.Unfoldable child)
    (hEnded : isTerminal kind = true → s.EndedAs child kind)
    (hFlag : flag = some true → s.Flagged child) (hInv : s.Inv strict)
    (h : ∀ s', s.Later s' → s'.Inv strict → Safely settings strict (f ()) s') :
    Safely settings strict ((unfoldToHigherOrder child kind message flag).bind f) s := by
  match flag with
  | some true =>
      exact safely_unfold_flagged hKind (fun hStrict => (hFree hStrict).answered (hFlag rfl))
        hEnded (hFlag rfl) h
  | some false => exact h s (.refl s) hInv
  | none =>
      refine safely_select (f := fun flagged =>
        (unfoldToHigherOrder child kind message (some flagged)).bind f) fun s' hLater hInv' => ?_
      cases hFlagged : (s'.task? child).any (·.isHigherOrderChild) with
      | false => exact h s' hLater hInv'
      | true =>
          obtain ⟨row, hRow, hFlag'⟩ := Option.any_eq_true _ _ |>.mp hFlagged
          have hFlagged : s'.Flagged child := ⟨row, hRow, hFlag'⟩
          exact safely_unfold_flagged hKind
            (fun hStrict => (hLater.unfoldable (hFree hStrict)).answered hFlagged)
            (fun hT => hLater.endedAs (hEnded hT)) hFlagged fun t hT => h t (hLater.trans hT)

/-- A thread that comes to unfold a lower child's end owes it. -/
theorem owes_unfold {child w : Nat} {kind : TaskEventKind} {message : Option String}
    {flag : Option Bool} {f : Unit → Program Unit} (hKind : isTerminal kind = true)
    (hLower : s.IsLower child w) (hFlag : flag ≠ some false) :
    OwesUnfold settings child w ((unfoldToHigherOrder child kind message flag).bind f) s := by
  have hFlagged {t : Db} (hLowerT : t.IsLower child w) : OwesUnfold settings child w
      ((unfoldToHigherOrder child kind message (some true)).bind f) t := by
    rw [unfold_bind]
    refine .after _ _ _ fun u hU hUTree e => ?_
    have hWrapper := wrapperOf_eq hUTree (hU.isLower hLowerT)
    simp only [machine, Txn.exec, Prog.ret_bind, hWrapper, claim_bind]
    exact .now _ _ _ (isUnfold_unfoldClaim hKind)
  cases flag with
  | some flagged =>
      cases flagged with
      | true => exact hFlagged hLower
      | false => exact absurd rfl hFlag
  | none =>
      refine .after (.query Bool fun _ db => (db.task? child).any (·.isHigherOrderChild))
        (fun flagged => (unfoldToHigherOrder child kind message (some flagged)).bind f) _
        fun t hT hTTree e => ?_
      have hLowerT := hT.isLower hLower
      obtain ⟨row, hRow, hFlag', -⟩ := hLowerT
      simp only [machine, Txn.exec, hRow, Option.any_some, hFlag']
      exact hFlagged (hT.isLower hLower)

/-- **Rule** for a claim that leaves the task open. -/
theorem safely_open {task : Nat} {c : Claim} {f : Bool → Program Unit}
    (hKind : isTerminal c.toKind = false) (hDone : c.markDone = false)
    (hEvent : ∃ event, c.event = some event) (hFreed : strict → s.Freed task)
    (hHeld : c.toKind = .held → s.Reached task ∧
      ∃ event, c.event = some event ∧ event.value.any (·.isSelf) = true)
    (hDecided : c.toKind = .decided → s.SelfHeld task ∧ c.extra = .none ∧
      (∀ row, c.onlyIf row = true → row.latestEventKind = .held) ∧
      ∃ agent approved answer auto values k, s.OwnedBy agent task ∧
        f true = .act (.deliver agent (.decide task approved answer auto values)) k)
    (hLost : ∀ s', s.Later s' → s'.Inv strict → Safely settings strict (f false) s')
    (hWon : ∀ s', s.Later s' → s'.Inv strict → Won strict task c s' →
      Safely settings strict (f true) s') :
    Safely settings strict ((claim task c).bind f) s := by
  refine safely_claim (fun s' hLater _ => ?_) hLost hWon
  refine { marks := hDone.trans hKind.symm, event := hEvent,
           freed := fun h => hLater.freed (hFreed h), held := ?_, decided := ?_,
           settles := by simp [hDone], unfolds := by simp [hDone],
           delegated := by simp [hDone] }
  · intro h
    exact ⟨hLater.reached (hHeld h).1, (hHeld h).2⟩
  · intro h
    obtain ⟨hSelf, hExtra, hOnly, agent, approved, answer, auto, values, k, hOwned, hNext⟩ :=
      hDecided h
    exact ⟨hLater.selfHeld hSelf, hExtra, hOnly, agent, approved, answer, auto, values, k,
      hLater.ownedBy hOwned, by simp [hDone, hNext]⟩

/-! ## Finalizing and dispatching -/

theorem finalizeTerminal_bind (task : Nat) (kind : TaskEventKind) (message : String)
    (value : Option EventValue) (guard : Guard) (f : Bool → Program Unit) :
    (finalizeTerminal task kind message value guard).bind f =
      (claim task {
        toKind := kind
        markDone := true
        onlyIf := guard.onlyIf
        extra := guard.extra
        skipLocked := guard.skipLocked
        event := some { message := some message, value := value } }).bind fun won =>
          if won then (unfoldToHigherOrder task kind (some message) none).bind fun _ => f won
          else f won := by
  simp only [finalizeTerminal, Prog.bind_eq, Prog.bind_assoc, Prog.pure_eq, Prog.ite_bind,
    Prog.ret_bind]

theorem safely_finalizeTerminal {task : Nat} {kind : TaskEventKind} {message : String}
    {value : Option EventValue} {guard : Guard} {f : Bool → Program Unit}
    (hKind : isTerminal kind = true) (hFreed : strict → s.Freed task)
    (h : ∀ s', s.Later s' → s'.Inv strict → ∀ won, Safely settings strict (f won) s') :
    Safely settings strict ((finalizeTerminal task kind message value guard).bind f) s := by
  rw [finalizeTerminal_bind]
  refine safely_terminal hKind rfl ⟨_, rfl, rfl⟩ hFreed ?_ ?_ ?_
  · intro s' _ _ w hLower
    simp only [if_true]
    exact owes_unfold hKind hLower (by simp)
  · intro s' hLater hInv
    exact h s' hLater hInv false
  · intro s' hLater hInv hWon
    simp only [if_true]
    refine safely_unfold (.inl hKind) (fun hStrict => (hWon.answered hStrict).unfoldable)
      (fun _ => hWon.ended) (by simp) hInv ?_
    exact fun t hT hTInv => h t (hLater.trans hT) hTInv true

theorem safely_finalizeLost {task : Nat} {reason : String} {started skipLocked : Bool}
    {onlyIf : Task → Bool} {f : Bool → Program Unit} (hFreed : strict → s.Freed task)
    (h : ∀ s', s.Later s' → s'.Inv strict → ∀ won, Safely settings strict (f won) s') :
    Safely settings strict ((finalizeLost task reason started onlyIf skipLocked).bind f) s := by
  rw [finalizeLost, Prog.bind_eq, Prog.bind_assoc]
  refine safely_select fun s' hLater _ => ?_
  exact safely_finalizeTerminal rfl (fun hStrict => hLater.freed (hFreed hStrict))
    fun t hT => h t (hLater.trans hT)

theorem safely_dispatch {task agent : Nat} {assign : Assign} {f : Unit → Program Unit}
    (hAnswered : strict → s.Answered assign.task)
    (h : ∀ s', s.Later s' → s'.Inv strict → Safely settings strict (f ()) s') :
    Safely settings strict ((dispatch task agent assign).bind f) s := by
  simp only [dispatch, run, Prog.bind_eq, Prog.perform_bind, Prog.act_bind]
  refine safely_act fun s' hLater _ =>
    ⟨fun hStrict => hLater.answered (hAnswered hStrict), fun e _ hLater' hInv' => ?_⟩
  simp only [Prog.pure_eq, Prog.ite_bind, Prog.perform_bind, Prog.ret_bind]
  split
  · exact safely_free (fun _ => trivial) fun t hT hTInv _ => h t (hLater'.trans hT) hTInv
  · exact h _ hLater' hInv'

/-! ## Resolving a report's task -/

/-- What a handler knows of the row `agentTask` gave it. -/
structure RowRead (strict : Prop) (agent task : Nat) (row : Task) (s : Db) : Prop where
  owned : s.OwnedBy agent task
  reached : row.isDone = false → s.Reached task
  freed : strict → row.isDone = false → s.Freed task
  unfoldable : strict → row.isDone = false → s.Unfoldable task
  done : row.isDone = true → s.Done task
  settled : row.isDone = true → row.latestEventKind ≠ .lost → s.Settled task
  flag : ∃ row', s.task? task = some row' ∧ row'.isHigherOrderChild = row.isHigherOrderChild

theorem RowRead.later {agent task : Nat} {row : Task} {s' : Db}
    (h : RowRead strict agent task row s) (hLater : s.Later s') :
    RowRead strict agent task row s' where
  owned := hLater.ownedBy h.owned
  reached := hLater.reached ∘ h.reached
  freed := fun hStrict hOpen => hLater.freed (h.freed hStrict hOpen)
  unfoldable := fun hStrict hOpen => hLater.unfoldable (h.unfoldable hStrict hOpen)
  done := hLater.done ∘ h.done
  settled := fun hDone hKind => hLater.settled (h.settled hDone hKind)
  flag :=
    have ⟨_, hRow, hFlag⟩ := h.flag
    have ⟨_, hRow', hRowLater⟩ := hLater.row hRow
    ⟨_, hRow', hRowLater.identity.isHigherOrderChild.trans hFlag⟩

theorem RowRead.exists {agent task : Nat} {row : Task} (h : RowRead strict agent task row s) :
    s.Exists task :=
  have ⟨_, hRow, _⟩ := h.owned
  ⟨_, hRow⟩

theorem RowRead.flagged {agent task : Nat} {row : Task}
    (h : RowRead strict agent task row s) (hFlag : row.isHigherOrderChild = true) :
    s.Flagged task :=
  have ⟨_, hRow, hEq⟩ := h.flag
  ⟨_, hRow, hEq.trans hFlag⟩

/-- A task its row calls no lower child is nobody's. -/
theorem RowRead.flag_of_lower {agent task w : Nat} {row : Task}
    (h : RowRead strict agent task row s) (hLower : s.IsLower task w) :
    row.isHigherOrderChild = true := by
  obtain ⟨row', hRow, hEq⟩ := h.flag
  obtain ⟨lrow, hLrow, hFlag, -⟩ := hLower
  rw [hRow, Option.some.injEq] at hLrow
  rw [← hEq, hLrow, hFlag]

/-- What an agent has is not waiting for a decision. -/
theorem Db.HoldsStand.reached_answered {task : Nat} {row : Task} (h : s.HoldsStand)
    (hRow : s.task? task = some row) (hOpen : row.isDone = false)
    (hReached : row.reached = true) : s.Answered task := by
  refine ⟨row, hRow, ?_⟩
  rw [← Bool.not_eq_true]
  intro hUndecided
  have hUntouched := h.waiting hRow hUndecided hOpen
  simp [Task.reached, hUntouched.pickedUpAt, hUntouched.attempts] at hReached

theorem stampPickup_reached {task : Nat} {row : Task} (e : Env)
    (hRow : s.task? task = some row) : (stampPickup e s task).Reached task := by
  refine ⟨_, by rw [stampPickup, Db.task?_modifyTask_self, hRow, Option.map_some], ?_⟩
  split
  case isTrue => simp [Task.reached]
  case isFalse hPicked =>
    rw [Option.isNone_iff_eq_none, ← ne_eq, Option.ne_none_iff_isSome] at hPicked
    simp [Task.reached, hPicked]

theorem safely_agentTask {agent task : Nat} {f : Option Task → Program Unit}
    (hNone : ∀ s', s.Later s' → s'.Inv strict → Safely settings strict (f none) s')
    (hSome : ∀ s', s.Later s' → s'.Inv strict → ∀ row, RowRead strict agent task row s' →
      Safely settings strict (f (some row)) s') :
    Safely settings strict ((agentTask agent task).bind f) s := by
  rw [agentTask, Prog.bind_eq, Prog.bind_assoc]
  refine safely_select fun s' hLater hInv => ?_
  cases hRead : (s'.task? task).filter (·.agent == agent) with
  | none => exact hNone s' hLater hInv
  | some row =>
      obtain ⟨hRow, hAgent⟩ := Option.filter_eq_some_iff.mp hRead
      rw [beq_iff_eq] at hAgent
      have hOwned : s'.OwnedBy agent task := ⟨row, hRow, hAgent⟩
      simp only [run, Prog.bind_eq, Prog.perform_bind, Prog.pure_eq]
      split
      case isTrue hFirst =>
        simp only [Bool.and_eq_true, Option.isNone_iff_eq_none, Bool.not_eq_true'] at hFirst
        refine safely_act fun t hT hTInv => ⟨trivial, fun e hAllowed hT' hTInv' => ?_⟩
        obtain ⟨trow, hTrow, -⟩ := hT.row hRow
        have hMoves : t.Later (stampPickup e t task) :=
          Db.later_exec settings e (.stampPickup task) hTInv.tree fun _ _ _ h => by cases h
        have hFree (hStrict : strict) : trow.undecided = false ∨
            (trow.isDone = true ∧ trow.isHigherOrderChild = false) := by
          simpa [respectsHolds, hTrow] using hAllowed hStrict
        refine hSome _ (hLater.trans hT') hTInv' _ ⟨hT'.ownedBy hOwned, fun _ => ?_,
          fun hStrict _ => ?_, fun hStrict _ => ?_, fun hDone => ?_, fun hDone => ?_, ?_⟩
        · exact stampPickup_reached e hTrow
        · exact hMoves.freed ⟨trow, hTrow, (hFree hStrict).imp_right (·.1)⟩
        · exact hMoves.unfoldable ⟨trow, hTrow, (hFree hStrict).imp_right (·.2)⟩
        · simp [hFirst.2] at hDone
        · simp [hFirst.2] at hDone
        · obtain ⟨row', hRow', hRowLater⟩ := hT'.row hRow
          exact ⟨row', hRow', hRowLater.identity.isHigherOrderChild⟩
      case isFalse hKnown =>
        have hReached (hOpen : row.isDone = false) : row.reached = true := by
          have hPicked : row.pickedUpAt.isSome = true := by
            rw [← Option.ne_none_iff_isSome]
            simpa [hOpen] using hKnown
          simp [Task.reached, hPicked]
        have hAnswered (hStrict : strict) (hOpen : row.isDone = false) : s'.Answered task :=
          (hInv.holds hStrict).reached_answered hRow hOpen (hReached hOpen)
        refine hSome s' hLater hInv row ⟨hOwned, fun hOpen => ⟨row, hRow, hReached hOpen⟩,
          fun hStrict hOpen => (hAnswered hStrict hOpen).freed,
          fun hStrict hOpen => (hAnswered hStrict hOpen).unfoldable,
          fun hDone => ⟨row, hRow, hDone⟩, fun hDone hKind => ⟨row, hRow, hDone, hKind⟩,
          ⟨row, hRow, rfl⟩⟩

end

end Rekuest
