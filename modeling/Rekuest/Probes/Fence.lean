import Rekuest.Concurrent.Beside
import Rekuest.Probes.Store

/-!
# Who answers a probe

A frame of a probe goes by the probe's id alone.  What keeps an agent from
answering another's probe is only that the store drops a report on a probe it no
longer has, or that has its terminal already.
-/

namespace Rekuest.Probes

open Concurrent

/-- One command of a handler, and the state it met. -/
abbrev ProbeMoment := Moment Env Redis Command

/-- The state a command left. -/
def leftBy (m : ProbeMoment) : Redis := (Command.exec m.env m.op m.before).2

/-- The probe was created for another agent. -/
def SentElsewhere (r : Redis) (agent probe : Nat) : Prop :=
  ∃ recipient, r.sentTo probe = some recipient ∧ recipient ≠ agent

/-- The probe's hash and its events are as they were. -/
def SameProbe (r r' : Redis) (probe : Nat) : Prop :=
  r'.probes probe = r.probes probe ∧
    r'.events.filter (·.probe == probe) = r.events.filter (·.probe == probe)

/-- A command of a frame that names `task` leaves the probe alone; where it is the
one named, also every caller's slots. -/
def LeavesProbe (task probe : Nat) (m : ProbeMoment) : Prop :=
  SameProbe m.before (leftBy m) probe ∧ (probe = task → (leftBy m).inflight = m.before.inflight)

/-- Whether a report ends its probe. -/
def ProbeReport.isTerminal : ProbeReport → Bool
  | .cancelled | .interrupted | .completed | .failed _ | .critical _ => true
  | _ => false

/-- The store takes a report on the probe: of a terminal, because `done` is not
set; of another, because the key is there (and `done` was not set before). -/
def LetsIn (report : ProbeReport) (task : Nat) (m : ProbeMoment) : Prop :=
  match m.op with
  | .hsetnxDone probe _ => probe = task ∧ (m.before.probes task).bind (·.done) = none
  | .isKey probe => probe = task ∧ report.isTerminal = false ∧ (m.before.probes task).isSome
  | _ => False

/-! ## What a frame's commands are about -/

/-- A command that writes about one probe only. -/
def About (task : Nat) : Command → Prop
  | .hgetDone probe | .isKey probe | .record probe .. | .hsetnxDone probe _
  | .finish probe .. => probe = task
  | .publish event => event.probe = task
  | .srem .. | .decr _ => True
  | _ => False

theorem sameProbe_of_about {task probe : Nat} {m : ProbeMoment} (h : About task m.op)
    (hNe : probe ≠ task) : SameProbe m.before (leftBy m) probe := by
  obtain ⟨e, op, r⟩ := m
  cases op with
  | record | finish =>
      cases h
      exact ⟨Function.update_of_ne hNe _ _, rfl⟩
  | hsetnxDone _ _ =>
      cases h
      show SameProbe r (Command.exec e (.hsetnxDone task _) r).2 probe
      simp only [Command.exec]
      split
      · exact ⟨rfl, rfl⟩
      · exact ⟨Function.update_of_ne hNe _ _, rfl⟩
  | publish event =>
      refine ⟨rfl, ?_⟩
      show (r.events ++ [event]).filter _ = _
      have hOther : (event.probe == probe) = false := by
        rw [show event.probe = task from h]
        simpa using Ne.symm hNe
      simp [hOther]
  | hgetDone | isKey | srem | decr => exact ⟨rfl, rfl⟩
  | incr | mint | create | deliver | hgetall | smembers | expireProbe | expireSlots => cases h

theorem only_nonterminal (task : Nat) (kind : TaskEventKind) (event : ProbeEvent) :
    (nonterminal task kind event).Only (About task) := by
  refine ⟨rfl, fun done => ?_⟩
  cases done with
  | some => trivial
  | none =>
      refine ⟨rfl, fun found => ?_⟩
      cases found with
      | false => trivial
      | true => exact ⟨rfl, fun _ => ⟨rfl, fun _ => trivial⟩⟩

theorem only_terminal (task : Nat) (kind : TaskEventKind) (error : Option String) :
    (terminal task kind error).Only (About task) := by
  refine ⟨rfl, fun found => ?_⟩
  cases found with
  | false => trivial
  | true =>
      refine ⟨rfl, fun won => ?_⟩
      cases won with
      | false => trivial
      | true =>
          refine ⟨rfl, fun finished => ⟨trivial, fun _ => ?_⟩⟩
          obtain ⟨seq, state⟩ := finished
          obtain ⟨agent, caller, origin, kind', seq', done, returns, err⟩ := state
          cases caller with
          | none => exact ⟨rfl, fun _ => trivial⟩
          | some caller => exact ⟨trivial, fun _ => ⟨rfl, fun _ => trivial⟩⟩

theorem only_routeProbe (agent task : Nat) (report : ProbeReport) :
    (routeProbe agent task report).Only (About task) := by
  cases report with
  | started | paused | resumed | «yield» | log | progress =>
      exact (only_nonterminal task _ _).bind fun _ => trivial
  | cancelled | interrupted | completed | failed | critical =>
      exact (only_terminal task _ _).bind fun _ => trivial
  | controlRequest | lock | effect | other => trivial

/-! ## What a report does to the probe it names -/

/-- The report was dropped: no command of it let it in or wrote anything. -/
def Dropped (report : ProbeReport) (task : Nat) (trace : List ProbeMoment) : Prop :=
  ∀ m ∈ trace, ¬ LetsIn report task m ∧ leftBy m = m.before

/-- The report was taken, and the probe's hash is another one. -/
def Taken (report : ProbeReport) (task : Nat) (trace : List ProbeMoment) : Prop :=
  (∃ m ∈ trace, LetsIn report task m) ∧
    ∃ m ∈ trace, (leftBy m).probes task ≠ m.before.probes task

/-- A write that counts the sequence on changes the hash. -/
theorem write_seq_ne {r : Redis} {task : Nat} {f : ProbeHash → ProbeHash}
    (h : ∀ hash, (f hash).seq = hash.seq + 1) : (r.write task f).probes task ≠ r.probes task := by
  rw [Redis.write_self]
  intro hEq
  cases hHash : r.probes task with
  | none =>
      rw [hHash] at hEq
      cases hEq
  | some hash =>
      rw [hHash, Option.getD_some, Option.some.injEq] at hEq
      have hSeq := h hash
      rw [hEq] at hSeq
      omega

theorem hsetnxDone_cases (e : Env) (task : Nat) (kind : TaskEventKind) (r : Redis) :
    (((r.probes task).bind (·.done)).isSome = true ∧
        Command.exec e (.hsetnxDone task kind) r = (false, r)) ∨
      ((r.probes task).bind (·.done) = none ∧
        Command.exec e (.hsetnxDone task kind) r =
          (true, r.write task fun h => { h with done := some kind })) := by
  cases hDone : (r.probes task).bind (·.done) with
  | none => exact .inr ⟨rfl, by simp [Command.exec, hDone]⟩
  | some => exact .inl ⟨rfl, by simp [Command.exec, hDone]⟩

variable {maxInflight : Int} {R : ProbesConfig → ProbesConfig → Prop}
variable {c c' : ProbesConfig} {trace : List ProbeMoment} {a : Unit}

theorem nonterminal_dropped_or_taken {report : ProbeReport} {task : Nat} {kind : TaskEventKind}
    {event : ProbeEvent} (hReport : report.isTerminal = false)
    (h : Beside (machine maxInflight) R (nonterminal task kind event) c trace a c') :
    Dropped report task trace ∨ Taken report task trace := by
  obtain ⟨c₁, e₁, trace₁, -, hTrace, h₁⟩ := Beside.of_act h
  subst hTrace
  generalize hDone : ((machine maxInflight).exec e₁ (.hgetDone task) c₁.state).1 = done at h₁
  cases (done : Option TaskEventKind) with
  | some =>
      left
      obtain ⟨-, hNil, -⟩ := Beside.of_ret h₁
      subst hNil
      intro m hm
      cases List.mem_singleton.mp hm
      exact ⟨id, rfl⟩
  | none =>
      obtain ⟨c₂, e₂, trace₂, -, hTrace, h₂⟩ := Beside.of_act h₁
      subst hTrace
      generalize hKey : ((machine maxInflight).exec e₂ (.isKey task) c₂.state).1 = found at h₂
      cases (found : Bool) with
      | false =>
          left
          obtain ⟨-, hNil, -⟩ := Beside.of_ret h₂
          subst hNil
          intro m hm
          rcases List.mem_cons.mp hm with rfl | hm
          · exact ⟨id, rfl⟩
          · cases List.mem_singleton.mp hm
            refine ⟨?_, rfl⟩
            rintro ⟨-, -, hThere⟩
            cases hKey.symm.trans hThere
      | true =>
          right
          obtain ⟨c₃, e₃, trace₃, -, hTrace, -⟩ := Beside.of_act h₂
          subst hTrace
          refine ⟨⟨_, List.mem_cons_of_mem _ List.mem_cons_self, rfl, hReport, hKey⟩,
            _, List.mem_cons_of_mem _ (List.mem_cons_of_mem _ List.mem_cons_self), ?_⟩
          exact write_seq_ne (f := fun h => { h with seq := h.seq + 1, kind, lastReturns := _ })
            fun _ => rfl

theorem terminal_dropped_or_taken {report : ProbeReport} {task : Nat} {kind : TaskEventKind}
    {error : Option String} (hReport : report.isTerminal = true)
    (h : Beside (machine maxInflight) R (terminal task kind error) c trace a c') :
    Dropped report task trace ∨ Taken report task trace := by
  have hNotKey : ∀ {e : Env} {r : Redis},
      ¬ LetsIn report task { env := e, op := .isKey task, before := r } := by
    rintro e r ⟨-, hOther, -⟩
    rw [hReport] at hOther
    cases hOther
  obtain ⟨c₁, e₁, trace₁, -, hTrace, h₁⟩ := Beside.of_act h
  subst hTrace
  generalize hKey : ((machine maxInflight).exec e₁ (.isKey task) c₁.state).1 = found at h₁
  cases (found : Bool) with
  | false =>
      left
      obtain ⟨-, hNil, -⟩ := Beside.of_ret h₁
      subst hNil
      intro m hm
      cases List.mem_singleton.mp hm
      exact ⟨hNotKey, rfl⟩
  | true =>
      obtain ⟨c₂, e₂, trace₂, -, hTrace, h₂⟩ := Beside.of_act h₁
      subst hTrace
      generalize hPair : (machine maxInflight).exec e₂ (.hsetnxDone task kind) c₂.state = pair
        at h₂
      rcases hsetnxDone_cases e₂ task kind c₂.state with ⟨hDone, hExec⟩ | ⟨hOpen, hExec⟩
      · left
        cases hPair.symm.trans hExec
        obtain ⟨-, hNil, -⟩ := Beside.of_ret h₂
        subst hNil
        intro m hm
        rcases List.mem_cons.mp hm with rfl | hm
        · exact ⟨hNotKey, rfl⟩
        · cases List.mem_singleton.mp hm
          refine ⟨?_, congrArg Prod.snd hExec⟩
          rintro ⟨-, hOpen⟩
          rw [hOpen] at hDone
          cases hDone
      · right
        refine ⟨⟨_, List.mem_cons_of_mem _ List.mem_cons_self, rfl, hOpen⟩,
          _, List.mem_cons_of_mem _ List.mem_cons_self, ?_⟩
        show (Command.exec e₂ (.hsetnxDone task kind) c₂.state).2.probes task ≠ _
        rw [hExec]
        show (c₂.state.write task fun h => { h with done := some kind }).probes task ≠
          c₂.state.probes task
        rw [Redis.write_self]
        intro hEq
        rw [← hEq] at hOpen
        cases hOpen

theorem dropped_or_taken {agent task : Nat} {report : ProbeReport} {routed : Routed}
    (h : Beside (machine maxInflight) R (routeProbe agent task report) c trace routed c') :
    Dropped report task trace ∨ Taken report task trace := by
  have hNothing : ∀ {answer : Routed},
      Beside (machine maxInflight) R (.ret answer) c trace routed c' →
        Dropped report task trace := by
    intro answer h
    rw [(Beside.of_ret h).2.1]
    intro m hm
    cases hm
  have hHandled : ∀ {p : Program Unit},
      Beside (machine maxInflight) R (p.bind fun _ => .ret Routed.handled) c trace routed c' →
        ∃ a c₁, Beside (machine maxInflight) R p c trace a c₁ := by
    intro p h
    obtain ⟨first, a, c₁, rest, hTrace, hFirst, hRest⟩ := Beside.of_bind h
    rw [(Beside.of_ret hRest).2.1, List.append_nil] at hTrace
    exact ⟨a, c₁, hTrace ▸ hFirst⟩
  cases report with
  | started | paused | resumed | «yield» | log | progress =>
      obtain ⟨_, _, hReport⟩ := hHandled h
      exact nonterminal_dropped_or_taken rfl hReport
  | cancelled | interrupted | completed | failed | critical =>
      obtain ⟨_, _, hReport⟩ := hHandled h
      exact terminal_dropped_or_taken rfl hReport
  | controlRequest | lock | effect | other => exact .inl (hNothing h)

/-- **Only the probe's agent answers it exactly as far as the store drops the
others' reports**: the frames of an agent leave every probe that was created for
another one alone, whatever they name, if and only if each report on such a probe
finds it gone, or with its terminal. -/
theorem others_frames_leave_iff {agent task : Nat} {report : ProbeReport} {routed : Routed}
    (h : Beside (machine maxInflight) (machine maxInflight).others
      (routeProbe agent task report) c trace routed c') :
    (∀ probe, SentElsewhere c'.state agent probe → ∀ m ∈ trace, LeavesProbe task probe m) ↔
      (SentElsewhere c'.state agent task → ∀ m ∈ trace, ¬ LetsIn report task m) := by
  constructor
  case mp =>
    intro hLeaves hElsewhere m hm hIn
    rcases dropped_or_taken h with hDropped | ⟨-, m', hm', hChanged⟩
    · exact (hDropped m hm).1 hIn
    · exact hChanged (hLeaves task hElsewhere m' hm').1.1
  case mpr =>
    intro hShut probe hElsewhere m hm
    by_cases hNamed : probe = task
    · subst hNamed
      rcases dropped_or_taken h with hDropped | ⟨⟨m', hm', hIn⟩, -⟩
      · have hSame := (hDropped m hm).2
        rw [LeavesProbe, SameProbe, hSame]
        exact ⟨⟨rfl, rfl⟩, fun _ => rfl⟩
      · exact absurd hIn (hShut hElsewhere m' hm')
    · have hAbout := h.only (only_routeProbe agent task report) m hm
      exact ⟨sameProbe_of_about hAbout hNamed, fun hEq => absurd hEq hNamed⟩

/-- Probe 0, which agent 0 completed. -/
def completedProbe : ProbesConfig where
  state := {
    probes := Function.update (fun _ => none) 0 (some {
      agent := some 0
      caller := some 7
      origin := some .graphql
      kind := .completed
      seq := 1
      done := some .completed })
    fresh := 1
    sentTo := Function.update (fun _ => none) 0 (some 0) }

/-- Agent 1 reports probe 0 completed, which agent 0 had completed before. -/
theorem late_frame_leaves_probe : ∃ trace routed c',
    Beside (machine 32) (machine 32).others (routeProbe 1 0 .completed) completedProbe trace
      routed c' ∧
    SentElsewhere c'.state 1 0 ∧ ∀ m ∈ trace, LeavesProbe 0 0 m := by
  have hRun : Beside (machine 32) (machine 32).others (routeProbe 1 0 .completed) completedProbe
      [{ env := {}, op := .isKey 0, before := completedProbe.state },
        { env := {}, op := .hsetnxDone 0 .completed, before := completedProbe.state }]
      .handled completedProbe :=
    .own ({} : Env) (.own ({} : Env) (.ret _ _))
  have hElsewhere : SentElsewhere completedProbe.state 1 0 := ⟨0, rfl, by decide⟩
  refine ⟨_, _, _, hRun, hElsewhere, (others_frames_leave_iff hRun).mpr ?_ 0 hElsewhere⟩
  intro _ m hm hIn
  rcases List.mem_cons.mp hm with rfl | hm
  · cases hIn.2.1
  · cases List.mem_singleton.mp hm
    cases hIn.2

/-! ## Another agent ends a probe -/

/-- Caller 7 fires a probe, and agent 1 reports it completed. -/
def foreignCompletion : List (Choice Env Request ⊕ Env) :=
  (.start (.probe 7 (.ok demoTarget) .graphql) :: Choice.steps 0 4 ({} : Env)).map .inl ++
    List.replicate 6 (.inr ({} : Env))

/-- Probe 0 was created for agent 0; agent 1 ends it and gives the caller's slot
back. -/
theorem other_agent_ends_probe : ∃ trace routed c',
    Beside (machine 32) (machine 32).others (routeProbe 1 0 .completed) { state := {} } trace
      routed c' ∧
    SentElsewhere c'.state 1 0 ∧
    (∃ m ∈ trace, (leftBy m).probes 0 ≠ m.before.probes 0) ∧
    ∃ m ∈ trace, (leftBy m).inflight 7 ≠ m.before.inflight 7 := by
  have hPlay : (Beside.play (machine 32) System.anyStep foreignCompletion
      (routeProbe 1 0 .completed) { state := {} }).any (fun (trace, _, c') =>
        c'.state.sentTo 0 == some 0 &&
          trace.any (fun m => (leftBy m).probes 0 != m.before.probes 0) &&
          trace.any (fun m => (leftBy m).inflight 7 != m.before.inflight 7)) = true := by
    decide +kernel
  obtain ⟨⟨trace, routed, c'⟩, hRun, hCheck⟩ := (Option.any_eq_true _ _).mp hPlay
  simp only [Bool.and_eq_true, beq_iff_eq, List.any_eq_true, bne_iff_ne] at hCheck
  obtain ⟨⟨hSent, hProbe⟩, hSlots⟩ := hCheck
  refine ⟨trace, routed, c', ?_, ⟨0, hSent, by decide⟩, hProbe, hSlots⟩
  exact (Beside.of_play hRun).mono fun _ _ ⟨choice, _, hNext⟩ => ⟨choice, hNext⟩

end Rekuest.Probes
