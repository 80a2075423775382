import Rekuest.Concurrent.Discipline
import Rekuest.Triggers.Fire

/-!
# What a call knows

A monitor for the calls on triggers: what a call read under its locks, how far
it has come with the trigger it is at, and what it has logged.  A firing is only
written with a reason, and a transaction is only committed when its signal is
processed and every trigger found has its firing.
-/

namespace Rekuest.Triggers

open Concurrent

/-- How far a call has come with a trigger it locked. -/
inductive Stage
  | unended
  | ended
  /-- Not ended and not debounced. -/
  | clear
  | debounced
  | ran (task : Nat)
  | refused
  deriving DecidableEq, Repr

structure Notes where
  tx : Option Nat := none
  /-- The signal it claimed, as it read it. -/
  signal : Option Signal := none
  /-- The triggers found to listen. -/
  listening : Option (List Nat) := none
  /-- Those that did not listen any more when their lock came, -/
  gone : List Nat := []
  /-- and the others, as they were read then. -/
  triggers : List Trigger := []
  stage : Option (Nat × Stage) := none
  logged : List NewFiring := []
  /-- A firing was not written, as one was there. -/
  dropped : Bool := false
  /-- The trigger whose run is yet to be counted. -/
  owes : Option Nat := none
  processed : Bool := false

/-- What a firing's outcome rests on. -/
def Notes.Justifies (n : Notes) (settings : Settings) (signal : Signal) (trigger : Trigger)
    (row : NewFiring) : Prop :=
  match row.outcome with
  | .fired => ∃ x, row.task = some x ∧ n.stage = some (trigger.id, .ran x)
  | .rejected => trigger.conditionsMet = false ∨ trigger.requiresMet = false ∨
      n.stage = some (trigger.id, .ended) ∨ n.stage = some (trigger.id, .debounced)
  | .failed => settings.triggerMaxDepth < signal.depth ∨
      n.stage = some (trigger.id, .refused)

/-- Whether a call is through with a trigger. -/
def Notes.Handled (n : Notes) (t : Nat) : Prop :=
  t ∈ n.gone ∨ t ∈ n.logged.map (·.trigger) ∨ n.dropped = true

/-- The assign of a run: of a trigger that is clear for the claimed signal, or of
a replay. -/
def Notes.PermitsRun (n : Notes) (settings : Settings) (input : AssignInput)
    (origin : AssignOrigin) : Prop :=
  if origin.replay then
    n.signal = none ∧ input.parent = none ∧ origin.triggerDepth = 1 ∧
      ∃ t s fresh, input.reference = replayReference t s fresh
  else
    ∃ signal trigger, n.signal = some signal ∧ trigger ∈ n.triggers ∧
      n.stage = some (trigger.id, .clear) ∧ trigger.conditionsMet = true ∧
      trigger.requiresMet = true ∧ (signal.depth : Int) ≤ settings.triggerMaxDepth ∧
      input = trigger.assignInput signal (runReference trigger.id signal.id) ∧
      origin = { signal := some signal.id, trigger := some trigger.id,
                 triggerDepth := signal.depth }

/-- What a call may do next. -/
def permits (settings : Settings) (n : Notes) : Op → Prop
  | .claimSignal x _ => n.tx = some x ∧ n = { tx := some x }
  | .listening x signal => n.tx = some x ∧ n.signal = some signal ∧ n.listening = none
  | .lockTrigger x signal t => n.tx = some x ∧ n.signal = some signal ∧ n.logged = [] ∧
      n.stage = none ∧ t ∉ n.gone ∧ t ∉ n.triggers.map (·.id) ∧
      ∃ ids, n.listening = some ids ∧ t ∈ ids
  | .ended x signal trigger => n.tx = some x ∧ n.signal = some signal ∧
      trigger ∈ n.triggers ∧ trigger.id ∉ n.logged.map (·.trigger)
  | .debounced x signal trigger => n.tx = some x ∧ n.signal = some signal ∧
      trigger ∈ n.triggers ∧ n.stage = some (trigger.id, .unended) ∧
      (signal.depth : Int) ≤ settings.triggerMaxDepth
  | .assign (some x) input origin => n.tx = some x ∧ n.PermitsRun settings input origin
  | .assign none _ origin => origin = {}
  | .insertFiring x row => n.tx = some x ∧ n.owes = none ∧
      (row.replay = true → n.signal = none) ∧ ∃ trigger ∈ n.triggers, row.trigger = trigger.id ∧
        (row.replay = false → trigger.id ∉ n.logged.map (·.trigger) ∧
          ∃ signal, n.signal = some signal ∧ row.signal = signal.id ∧
            n.Justifies settings signal trigger row)
  | .countFired x t => n.tx = some x ∧ n.owes = some t
  | .countFailed x t _ => n.tx = some x ∧ n.owes = none ∧ ∃ trigger ∈ n.triggers, t = trigger.id
  | .process x id => n.tx = some x ∧ n.owes = none ∧ ∃ signal, n.signal = some signal ∧ id = signal.id
  | .commit x => n.tx = some x ∧ n.owes = none ∧ ∀ signal, n.signal = some signal →
      n.processed = true ∧ ∃ ids, n.listening = some ids ∧ ∀ t ∈ ids, n.Handled t
  | .readForReplay x _ _ => n = { tx := some x }
  | .lockForReplay x _ _ => n = { tx := some x }
  | _ => True

/-- What a call knows after a statement. -/
def noted (n : Notes) : (op : Op) → op.Res → Notes
  | .begin, x => { tx := some x }
  | .claimSignal .., signal => { n with signal }
  | .listening .., ids => { n with listening := some ids }
  | .lockTrigger _ _ t, none => { n with gone := t :: n.gone }
  | .lockTrigger .., some trigger => { n with triggers := n.triggers ++ [trigger] }
  | .ended _ _ trigger, ended =>
      { n with stage := some (trigger.id, if ended then .ended else .unended) }
  | .debounced _ _ trigger, debounced =>
      { n with stage := some (trigger.id, if debounced then .debounced else .clear) }
  | .assign (some _) _ origin, .ok assigned =>
      { n with stage := origin.trigger.map (·, .ran assigned.task) }
  | .assign (some _) _ origin, .error _ => { n with stage := origin.trigger.map (·, .refused) }
  | .insertFiring _ row, true => { n with
      stage := none
      logged := n.logged ++ [row]
      owes := if row.outcome = .fired then some row.trigger else none }
  | .insertFiring .., false => { n with dropped := true }
  | .countFired .., _ => { n with owes := none }
  | .process .., _ => { n with processed := true }
  | .lockForReplay .., some trigger => { n with triggers := [trigger] }
  | _, _ => n

/-- The monitor of the calls. -/
def notes (settings : Settings) : Monitor Op.Res Notes where
  permits := permits settings
  next := noted

/-- A program that keeps to the monitor from these notes on. -/
abbrev Follows (settings : Settings) : Program Unit → Notes → Prop :=
  Monitor.Follows (machine settings) (fun _ : Store => True) (notes settings)

section

variable {settings : Settings} {n : Notes} {x : Nat} {signal : Signal} {trigger : Trigger}

theorem follows_act {op : Op} {k : op.Res → Program Unit} (hOp : permits settings n op)
    (h : ∀ e s, Follows settings (k (Op.exec settings e op s).1)
      (noted n op (Op.exec settings e op s).1)) :
    Follows settings (.act op k) n := Monitor.follows_act hOp fun e s _ => h e s

/-! ## One trigger -/

theorem follows_log (signal : Signal) {t σ : Nat} {outcome : Outcome} {replay : Bool}
    {g : Bool → Program Unit} (hTx : n.tx = some x) (hOwes : n.owes = none)
    (hTrigger : trigger ∈ n.triggers) (hId : t = trigger.id)
    (hReplay : replay = true → n.signal = none)
    (hJust : replay = false → trigger.id ∉ n.logged.map (·.trigger) ∧
      n.signal = some signal ∧ σ = signal.id ∧
        n.Justifies settings signal trigger (outcome.firing σ t replay))
    (hDropped : ∀ b, Follows settings (g b) { n with dropped := true })
    (h : ∀ b, Follows settings (g b)
      { n with stage := none, logged := n.logged ++ [outcome.firing σ t replay] }) :
    Follows settings ((log x σ t outcome replay).bind g) n := by
  refine follows_act ⟨hTx, hOwes, hReplay, trigger, hTrigger, hId, fun hReplay => ?_⟩ fun e s => ?_
  · obtain ⟨hNew, hSignal, hσ, hReason⟩ := hJust hReplay
    exact ⟨hNew, signal, hSignal, hσ, hReason⟩
  · generalize (Op.exec settings e (.insertFiring x (outcome.firing σ t replay)) s).1 = written
    cases (written : Bool) with
    | false => exact hDropped false
    | true =>
        -- what is owed before the row is nothing, and so it is after the count
        cases n
        cases hOwes
        cases outcome with
        | rejected reason => exact h false
        | fired task => exact follows_act ⟨hTx, rfl⟩ fun e s => h true
        | failed error => exact follows_act ⟨hTx, rfl, trigger, hTrigger, hId⟩ fun e s => h true

theorem follows_outcomeOf {g : Outcome → Program Unit} (hTx : n.tx = some x)
    (hSignal : n.signal = some signal) (hTrigger : trigger ∈ n.triggers)
    (hNew : trigger.id ∉ n.logged.map (·.trigger))
    (h : ∀ stage outcome, (∀ σ t, Notes.Justifies { n with stage } settings signal trigger
        (outcome.firing σ t false)) → Follows settings (g outcome) { n with stage }) :
    Follows settings ((outcomeOf settings x signal signal.depth trigger).bind g) n := by
  by_cases hConditions : trigger.conditionsMet = true
  case neg =>
    rw [Bool.not_eq_true] at hConditions
    simp only [outcomeOf, hConditions]
    exact h n.stage _ fun _ _ => .inl hConditions
  case pos =>
  by_cases hRequires : trigger.requiresMet = true
  case neg =>
    rw [Bool.not_eq_true] at hRequires
    simp only [outcomeOf, hConditions, hRequires]
    exact h n.stage _ fun _ _ => .inr (.inl hRequires)
  case pos =>
  simp only [outcomeOf, hConditions, hRequires]
  refine follows_act ⟨hTx, hSignal, hTrigger, hNew⟩ fun e s => ?_
  generalize (Op.exec settings e (.ended x signal trigger) s).1 = ended
  cases (ended : Bool) with
  | true => exact h (some (trigger.id, .ended)) _ fun _ _ => .inr (.inr (.inl rfl))
  | false =>
      by_cases hDeep : settings.triggerMaxDepth < signal.depth
      case pos =>
        simp only [hDeep]
        exact h (some (trigger.id, .unended)) _ fun _ _ => .inl hDeep
      case neg =>
        simp only [hDeep]
        refine follows_act ⟨hTx, hSignal, hTrigger, rfl, Int.not_lt.mp hDeep⟩ fun e s => ?_
        generalize (Op.exec settings e (.debounced x signal trigger) s).1 = debounced
        cases (debounced : Bool) with
        | true => exact h (some (trigger.id, .debounced)) _ fun _ _ => .inr (.inr (.inr rfl))
        | false =>
            refine follows_act ⟨hTx, signal, trigger, hSignal, hTrigger, rfl, hConditions,
              hRequires, Int.not_lt.mp hDeep, rfl, rfl⟩ fun e s => ?_
            generalize (Op.exec settings e (.assign (some x)
              (trigger.assignInput signal (runReference trigger.id signal.id)) _) s).1 = assigned
            cases (assigned : Except String Assigned) with
            | ok assigned =>
                exact h (some (trigger.id, .ran assigned.task)) _ fun _ _ =>
                  ⟨assigned.task, rfl, rfl⟩
            | error error => exact h (some (trigger.id, .refused)) _ fun _ _ => .inr rfl

/-- After its turn a trigger is handled, and the others are as they were. -/
theorem follows_fireTrigger {g : Unit → Program Unit} (hTx : n.tx = some x)
    (hOwes : n.owes = none) (hSignal : n.signal = some signal) (hTrigger : trigger ∈ n.triggers)
    (hNew : trigger.id ∉ n.logged.map (·.trigger))
    (hDropped : ∀ stage, Follows settings (g ()) { n with stage, dropped := true })
    (h : ∀ row, row.trigger = trigger.id →
      Follows settings (g ()) { n with stage := none, logged := n.logged ++ [row] }) :
    Follows settings ((fireTrigger settings x signal signal.depth trigger).bind g) n := by
  rw [fireTrigger, Prog.bind_eq, Prog.bind_assoc]
  refine follows_outcomeOf hTx hSignal hTrigger hNew fun stage outcome hJust => ?_
  rw [Prog.bind_eq, Prog.bind_assoc]
  refine follows_log (n := { n with stage }) signal hTx hOwes hTrigger rfl
    (fun hReplay => by cases hReplay) (fun _ => ⟨hNew, hSignal, rfl, hJust _ _⟩) (fun b => ?_) fun b => ?_
  · exact hDropped stage
  · exact h _ rfl

/-! ## The triggers of a signal -/

theorem follows_lockTriggers {all ids : List Nat} {g : List Trigger → Program Unit}
    (hTx : n.tx = some x) (hSignal : n.signal = some signal) (hLogged : n.logged = [])
    (hStage : n.stage = none) (hListening : n.listening = some all)
    (hAll : ∀ t ∈ ids, t ∈ all) (hNodup : ids.Nodup)
    (hNew : ∀ t ∈ ids, t ∉ n.gone ∧ t ∉ n.triggers.map (·.id))
    (h : ∀ found gone, (found.map (·.id)).Sublist ids → (∀ t ∈ n.gone, t ∈ gone) →
      (∀ t ∈ ids, t ∈ gone ∨ t ∈ found.map (·.id)) →
      Follows settings (g found)
        { n with triggers := n.triggers ++ found, gone := gone }) :
    Follows settings ((lockTriggers x signal ids).bind g) n := by
  induction ids generalizing n g with
  | nil =>
      have hNow := h [] n.gone (List.Sublist.refl _) (fun _ ht => ht) fun t ht => by cases ht
      rw [List.append_nil] at hNow
      exact hNow
  | cons id rest ih =>
      have hHead := hNew id List.mem_cons_self
      rw [List.nodup_cons] at hNodup
      refine follows_act ⟨hTx, hSignal, hLogged, hStage, hHead.1, hHead.2, all, hListening,
        hAll id List.mem_cons_self⟩ fun e s => ?_
      have hRest : ∀ t ∈ rest, t ∈ all := fun t ht => hAll t (List.mem_cons_of_mem _ ht)
      have hApart : ∀ t ∈ rest, t ≠ id := fun t ht hEq => hNodup.1 (hEq ▸ ht)
      have hId : ∀ trigger, (Op.exec settings e (.lockTrigger x signal id) s).1 = some trigger →
          trigger.id = id := by
        intro trigger hSome
        obtain ⟨row, -, rfl⟩ := Option.map_eq_some_iff.mp hSome
        rfl
      generalize (Op.exec settings e (.lockTrigger x signal id) s).1 = found at hId
      simp only [Prog.bind_eq, Prog.bind_assoc, Prog.ret_bind]
      cases (found : Option Trigger) with
      | none =>
          refine ih (n := { n with gone := id :: n.gone }) hTx hSignal hLogged hStage hListening
            hRest hNodup.2 (fun t ht => ?_) fun others gone hSub hGone hHandled => ?_
          · obtain ⟨hGone, hFound⟩ := hNew t (List.mem_cons_of_mem _ ht)
            exact ⟨List.not_mem_cons_of_ne_of_not_mem (hApart t ht) hGone, hFound⟩
          · refine h others gone (hSub.cons id) (fun t ht => hGone t (List.mem_cons_of_mem _ ht))
              fun t ht => ?_
            rcases List.mem_cons.mp ht with rfl | ht
            · exact .inl (hGone t List.mem_cons_self)
            · exact hHandled t ht
      | some trigger =>
          obtain rfl := hId trigger rfl
          refine ih (n := { n with triggers := n.triggers ++ [trigger] }) hTx hSignal hLogged
            hStage hListening hRest hNodup.2 (fun t ht => ?_)
            fun others gone hSub hGone hHandled => ?_
          · obtain ⟨hGone, hFound⟩ := hNew t (List.mem_cons_of_mem _ ht)
            refine ⟨hGone, ?_⟩
            rw [List.map_append, List.mem_append, List.map_singleton, List.mem_singleton]
            rintro (hOld | hEq)
            · exact hFound hOld
            · exact hApart t ht hEq
          · have hNow := h (trigger :: others) gone (hSub.cons_cons trigger.id) hGone
              fun t ht => by
                rcases List.mem_cons.mp ht with rfl | ht
                · exact .inr List.mem_cons_self
                · exact (hHandled t ht).imp_right (List.mem_cons_of_mem _)
            rw [List.append_cons] at hNow
            exact hNow

/-- The turns of distinct triggers. -/
theorem follows_fireEach {triggers : List Trigger} {g : Unit → Program Unit}
    (hTx : n.tx = some x) (hOwes : n.owes = none) (hSignal : n.signal = some signal)
    (hTriggers : ∀ trigger ∈ triggers, trigger ∈ n.triggers)
    (hNodup : (triggers.map (·.id)).Nodup)
    (hNew : ∀ trigger ∈ triggers, trigger.id ∉ n.logged.map (·.trigger))
    (h : ∀ stage logged dropped, (n.dropped = true → dropped = true) →
      (∀ t ∈ n.logged.map (·.trigger), t ∈ logged.map (·.trigger)) →
      (∀ trigger ∈ triggers, trigger.id ∈ logged.map (·.trigger) ∨ dropped = true) →
      Follows settings (g ()) { n with stage, logged, dropped }) :
    Follows settings ((Prog.forEach triggers
      (fireTrigger settings x signal signal.depth)).bind g) n := by
  induction triggers generalizing n with
  | nil =>
      exact h n.stage n.logged n.dropped id (fun _ ht => ht) fun _ hTrigger => by cases hTrigger
  | cons trigger rest ih =>
      rw [Prog.forEach_cons, Prog.bind_assoc]
      have hRest : ∀ other ∈ rest, other ∈ n.triggers := fun other hOther =>
        hTriggers other (List.mem_cons_of_mem _ hOther)
      rw [List.map_cons, List.nodup_cons] at hNodup
      refine follows_fireTrigger hTx hOwes hSignal (hTriggers trigger List.mem_cons_self)
        (hNew trigger List.mem_cons_self) (fun stage => ?_) fun row hRow => ?_
      · refine ih (n := { n with stage, dropped := true }) hTx hOwes hSignal hRest hNodup.2
          (fun other hOther => hNew other (List.mem_cons_of_mem _ hOther))
          fun stage logged dropped hDropped hOld _ => ?_
        exact h stage logged dropped (fun _ => hDropped rfl) hOld fun _ _ => .inr (hDropped rfl)
      · refine ih (n := { n with stage := none, logged := n.logged ++ [row] }) hTx hOwes hSignal hRest
          hNodup.2 (fun other hOther hMem => ?_) fun stage logged dropped hDropped hOld hAll => ?_
        · rw [List.map_append, List.mem_append] at hMem
          rcases hMem with hMem | hMem
          · exact hNew other (List.mem_cons_of_mem _ hOther) hMem
          · rw [List.map_singleton, List.mem_singleton, hRow] at hMem
            exact hNodup.1 (hMem ▸ List.mem_map_of_mem hOther)
        · refine h stage logged dropped hDropped (fun t ht => hOld t ?_) fun other hOther => ?_
          · rw [List.map_append]
            exact List.mem_append_left _ ht
          · rcases List.mem_cons.mp hOther with rfl | hOther
            · exact .inl (hOld _ (by simp [hRow]))
            · exact hAll other hOther

/-! ## The calls -/

theorem follows_fireOne {id : Nat} {g : Unit → Program Unit}
    (h : ∀ n, Follows settings (g ()) n) :
    Follows settings ((fireOne settings id).bind g) n := by
  refine follows_act trivial fun e s => ?_
  generalize (Op.exec settings e .begin s).1 = tx
  refine follows_act ⟨rfl, rfl⟩ fun e s => ?_
  generalize (Op.exec settings e (.claimSignal tx id) s).1 = claimed
  cases (claimed : Option Signal) with
  | none => exact follows_act trivial fun _ _ => h _
  | some signal =>
      refine follows_act ⟨rfl, rfl, rfl⟩ fun e s => ?_
      have hNodup : ((Op.exec settings e (.listening tx signal) s).1 : List Nat).Nodup :=
        List.nodup_range.filter _
      generalize (Op.exec settings e (.listening tx signal) s).1 = ids at hNodup
      simp only [Prog.bind_eq, Prog.bind_assoc]
      refine follows_lockTriggers rfl rfl rfl rfl rfl (fun _ ht => ht) hNodup
        (fun _ _ => ⟨List.not_mem_nil, List.not_mem_nil⟩)
        fun found gone hSub _ hAll => ?_
      refine follows_fireEach rfl rfl rfl (fun _ hTrigger => hTrigger)
        (hNodup.sublist hSub) (fun _ _ hMem => by cases hMem)
        fun stage logged dropped _ _ hHandled => ?_
      refine follows_act ⟨rfl, rfl, signal, rfl, rfl⟩ fun e s => ?_
      refine follows_act ⟨rfl, rfl, ?_⟩ fun e s => h _
      intro signal' hSignal
      cases hSignal
      refine ⟨rfl, ids, rfl, fun t ht => ?_⟩
      rcases hAll t ht with hGone | hFound
      · exact .inl hGone
      · obtain ⟨trigger, hTrigger, rfl⟩ := List.mem_map.mp hFound
        exact .inr (hHandled trigger hTrigger)

theorem follows_replay {organization t id : Nat} {fresh : String} :
    Follows settings (replay organization t id fresh) n := by
  refine follows_act trivial fun e s => ?_
  generalize (Op.exec settings e .begin s).1 = tx
  refine follows_act rfl fun e s => ?_
  have hCause : ∀ signal, (Op.exec settings e (.readForReplay tx organization id) s).1 =
      some signal → signal.causingTask = none := by
    intro signal hSome
    obtain ⟨row, -, rfl⟩ := Option.map_eq_some_iff.mp hSome
    rfl
  generalize (Op.exec settings e (.readForReplay tx organization id) s).1 = found at hCause
  cases (found : Option Signal) with
  | none => exact follows_act trivial fun _ _ => trivial
  | some signal =>
      refine follows_act rfl fun e s => ?_
      generalize (Op.exec settings e (.lockForReplay tx organization t) s).1 = found
      cases (found : Option Trigger) with
      | none => exact follows_act trivial fun _ _ => trivial
      | some trigger =>
          have hRun : Notes.PermitsRun { tx := some tx, triggers := [trigger] } settings
              (trigger.assignInput signal (replayReference trigger.id signal.id fresh))
              { signal := some signal.id, trigger := some trigger.id,
                triggerDepth := 1, replay := true } :=
            ⟨rfl, hCause signal rfl, rfl, trigger.id, signal.id, fresh, rfl⟩
          refine follows_act ⟨rfl, hRun⟩ fun e s => ?_
          generalize (Op.exec settings e (.assign (some tx)
            (trigger.assignInput signal (replayReference trigger.id signal.id fresh)) _) s).1 =
              assigned
          have hLog (stage : Option (Nat × Stage)) (outcome : Outcome) : Follows settings
              ((log tx signal.id trigger.id outcome true).bind fun _ =>
                .act (.commit tx) fun _ => .ret ())
              { tx := some tx, triggers := [trigger], stage } :=
            follows_log signal rfl rfl List.mem_cons_self rfl (fun _ => rfl)
              (fun hReplay => by cases hReplay)
              (fun _ => follows_act ⟨rfl, rfl, fun _ hSome => by cases hSome⟩ fun _ _ => trivial)
              fun _ => follows_act ⟨rfl, rfl, fun _ hSome => by cases hSome⟩ fun _ _ => trivial
          cases (assigned : Except String Assigned) with
          | ok assigned => exact hLog _ (.fired assigned.task)
          | error error => exact hLog _ (.failed error)

/-- Every request keeps to the monitor. -/
theorem follows_handler (request : Request) :
    Follows settings (request.handler settings) n := by
  cases request with
  | fireTriggers limit =>
      refine follows_act trivial fun e s => ?_
      generalize (Op.exec settings e (.pending limit) s).1 = pending
      have hAlways : Monitor.Always (machine settings) (fun _ => True) (notes settings)
          ((Prog.forEach pending (fireOne settings)).bind .ret) :=
        Monitor.always_forEach (fun id _ g hg n => follows_fireOne fun n => hg n)
          Monitor.always_ret
      rw [Prog.bind_ret] at hAlways
      exact hAlways _
  | fireOne id =>
      have hCall : Follows settings ((fireOne settings id).bind .ret) n :=
        follows_fireOne fun _ => trivial
      rwa [Prog.bind_ret] at hCall
  | replay organization t id fresh => exact follows_replay
  | assign input => exact follows_act rfl fun _ _ => trivial
  | intake | createTrigger | editTrigger | setPorts | deleteTask | abort =>
      exact follows_act trivial fun _ _ => trivial

end

end Rekuest.Triggers
