import Rekuest.Replay.Folds

/-!
# Checkouts

A read of an agent's states has, for each state it is asked of, what the session's patches make
of it.  A checkout is such a read: of the session and the revision it is given, or of those of the
last patch at or before a time.
-/

namespace Rekuest.Replay

variable {V : Type} {apply : PatchDoc V → V → Option V} {h : History V}

/-! ## Entries -/

/-- Of rows that differ in a column, the one with a value of it is found. -/
theorem find_own {α β : Type} [DecidableEq β] {column : α → β} {rows : List α}
    (hUnique : rows.Pairwise fun a b => column a ≠ column b) {a : α} (hMem : a ∈ rows) :
    rows.find? (fun b => column b = column a) = some a := by
  induction rows with
  | nil => cases hMem
  | cons b rest ih =>
      obtain ⟨hFirst, hRest⟩ := List.pairwise_cons.1 hUnique
      by_cases hSame : column b = column a
      · have hIsA : decide (column b = column a) = true := decide_eq_true hSame
        rw [List.find?_cons, hIsA]
        rcases List.mem_cons.1 hMem with hIs | hLater
        · rw [hIs]
        · exact absurd hSame (hFirst a hLater)
      · have hIsA : decide (column b = column a) = false := decide_eq_false hSame
        rw [List.find?_cons, hIsA]
        rcases List.mem_cons.1 hMem with hIs | hLater
        · exact absurd (congrArg column hIs.symm) hSame
        · exact ih hRest hLater

/-- The entry of a state: what it is materialized as. -/
def Entry (apply : PatchDoc V → V → Option V) (h : History V) (t : Session)
    (global_revision : Option Int) (state : State) (entry : String × V) : Prop :=
  entry.1 = state.interface ∧
    ∃ time reading, materialize apply h t state global_revision time = .ok reading ∧ entry.2 = reading.value

/-- A read has one entry for each state, in their order. -/
theorem all_entries {t : Session} {global_revision : Option Int} : ∀ {states : List State}
    {payload payload' : Payload V} {time time' : Int},
    materialize_all apply h t global_revision states payload time = .ok (payload', time') →
      ∃ entries, payload'.states = payload.states ++ entries ∧
        List.Forall₂ (Entry apply h t global_revision) states entries := by
  intro states
  induction states with
  | nil =>
      intro payload payload' time time' hRead
      have hSame : payload = payload' := congrArg Prod.fst (Except.ok.inj hRead)
      refine ⟨[], ?_, List.Forall₂.nil⟩
      rw [hSame, List.append_nil]
  | cons state rest ih =>
      intro payload payload' time time' hRead
      unfold materialize_all at hRead
      cases hOne : materialize apply h t state global_revision time with
      | error failure =>
          rw [hOne] at hRead
          cases hRead
      | ok reading =>
          rw [hOne] at hRead
          obtain ⟨entries, hStates, hEach⟩ := ih hRead
          refine ⟨(state.interface, reading.value) :: entries, ?_, ?_⟩
          · rw [hStates, List.append_assoc]
            rfl
          · have hEntry : Entry apply h t global_revision state (state.interface, reading.value) :=
              ⟨rfl, time, reading, hOne, rfl⟩
            exact List.Forall₂.cons hEntry hEach

/-- Every state of a read finds its entry. -/
theorem find_entry {t : Session} {global_revision : Option Int} {states : List State}
    {entries : List (String × V)} (hEach : List.Forall₂ (Entry apply h t global_revision) states entries) :
    states.Pairwise (fun s s' => s.interface ≠ s'.interface) → ∀ {state : State}, state ∈ states →
      ∃ entry, entries.find? (·.1 = state.interface) = some entry ∧
        Entry apply h t global_revision state entry := by
  induction hEach with
  | nil =>
      intro _ state hMem
      cases hMem
  | @cons first entry rest entries hEntry _ ih =>
      intro hUnique state hMem
      obtain ⟨hFirst, hRest⟩ := List.pairwise_cons.1 hUnique
      by_cases hSame : entry.1 = state.interface
      · have hIsIt : decide (entry.1 = state.interface) = true := decide_eq_true hSame
        rw [List.find?_cons, hIsIt]
        rcases List.mem_cons.1 hMem with hIs | hLater
        · rw [hIs]
          exact ⟨entry, rfl, hEntry⟩
        · exact absurd (hEntry.1.symm.trans hSame) (hFirst state hLater)
      · have hIsIt : decide (entry.1 = state.interface) = false := decide_eq_false hSame
        rw [List.find?_cons, hIsIt]
        rcases List.mem_cons.1 hMem with hIs | hLater
        · exact absurd (by rw [hIs]; exact hEntry.1) hSame
        · exact ih hRest hLater

/-- States that are all started are all materialized. -/
theorem all_some {t : Session} {global_revision : Option Int} {r : Int} : ∀ {states : List State}
    (payload : Payload V) (time : Int),
    (∀ state ∈ states, Asked h t.id state.id global_revision r ∧ Started h t.id state.id r) →
      ∃ read, materialize_all apply h t global_revision states payload time = .ok read := by
  intro states
  induction states with
  | nil =>
      intro payload time _
      exact ⟨(payload, time), rfl⟩
  | cons state rest ih =>
      intro payload time hEach
      obtain ⟨hAsked, hStarted⟩ := hEach state List.mem_cons_self
      have hSome : ∃ reading, materialize apply h t state global_revision time = .ok reading :=
        materialize_some time hAsked hStarted
      obtain ⟨reading, hOne⟩ := hSome
      unfold materialize_all
      rw [hOne]
      apply ih
      intro s hs
      exact hEach s (List.mem_cons_of_mem state hs)

/-! ## A read -/

/-- A session that has a name is the one that is read when its name is given. -/
theorem session_of_named (hKept : Kept h) {t : Session} (ht : t ∈ h.sessions) (hNamed : t.session_id ≠ "") :
    session_of h (some t.session_id) = .ok (some t) := by
  have hUnique : h.sessions.Pairwise fun t t' => t.session_id ≠ t'.session_id :=
    hKept.sessions.imp fun hBoth => hBoth.2
  unfold session_of
  rw [show (some t.session_id).filter (· ≠ "") = some t.session_id from
    Option.filter_some_pos (decide_eq_true hNamed)]
  dsimp only
  rw [find_own hUnique ht]

/-- In a read of one session, every state that is asked for is what its patches make of it. -/
theorem latest_isAt (hRecorded : Recorded apply h) (hKept : Kept h) {state_id : Option Nat}
    {session_id : Option String} {global_revision : Option Int} {forward backward : Nat}
    {payload : Payload V} {t : Session} {state : State} {r : Int}
    (hSession : session_of h session_id = .ok (some t)) (hMem : state ∈ h.states)
    (hOf : state_id.all (state.id = ·) = true) (hAsked : Asked h t.id state.id global_revision r)
    (hRead : get_latest_state apply h state_id session_id global_revision forward backward = .ok payload) :
    ∃ entry, payload.states.find? (·.1 = state.interface) = some entry ∧
      IsAt apply h t.id state.id r entry.2 := by
  unfold get_latest_state at hRead
  rw [hSession] at hRead
  dsimp only at hRead
  cases hAll : materialize_all apply h t global_revision
      (h.states.filter fun state => state_id.all (state.id = ·)) {} t.created_at with
  | error failure =>
      rw [hAll] at hRead
      cases hRead
  | ok read =>
      rw [hAll] at hRead
      obtain ⟨read, time⟩ := read
      have hPayload := Except.ok.inj hRead
      obtain ⟨entries, hStates, hEach⟩ := all_entries hAll
      have hUnique : (h.states.filter fun state => state_id.all (state.id = ·)).Pairwise
          fun s s' => s.interface ≠ s'.interface :=
        (hKept.states.imp fun hBoth => hBoth.2).filter _
      obtain ⟨entry, hFind, -, time, reading, hOne, hValue⟩ :=
        find_entry hEach hUnique (List.mem_filter.2 ⟨hMem, hOf⟩)
      refine ⟨entry, ?_, ?_⟩
      · rw [← hPayload, show read.states = entries from hStates]
        exact hFind
      · rw [hValue]
        exact materialize_isAt hRecorded hAsked hOne

/-- A read returns where the states it is asked of are started. -/
theorem latest_some {state_id : Option Nat} {session_id : Option String} {global_revision : Option Int}
    (forward backward : Nat) {t : Session} {r : Int} (hSession : session_of h session_id = .ok (some t))
    (hEach : ∀ state ∈ h.states, state_id.all (state.id = ·) = true →
      Asked h t.id state.id global_revision r ∧ Started h t.id state.id r) :
    ∃ payload, get_latest_state apply h state_id session_id global_revision forward backward = .ok payload := by
  unfold get_latest_state
  rw [hSession]
  dsimp only
  have hSome : ∃ read, materialize_all apply h t global_revision
      (h.states.filter fun state => state_id.all (state.id = ·)) {} t.created_at = .ok read := by
    apply all_some
    intro state hState
    exact hEach state (List.mem_filter.1 hState).1 (List.mem_filter.1 hState).2
  obtain ⟨read, hAll⟩ := hSome
  rw [hAll]
  exact ⟨_, rfl⟩

/-! ## A checkout -/

/-- The session and the revision a checkout is of. -/
def Target (h : History V) (of_state : Patch V → Bool) (session_id : Option String)
    (global_revision timestamp : Option Int) (t : Session) (state : Nat) (r : Int) : Prop :=
  match timestamp with
  | none => session_of h session_id = .ok (some t) ∧ Asked h t.id state global_revision r
  | some timestamp => ∃ patch, latest_patch h timestamp of_state = some patch ∧
      session_of h (session_id_of h patch) = .ok (some t) ∧ r = patch.global_rev

/-- What a checkout asks for, in a read. -/
theorem target_asked {of_state : Patch V → Bool} {session_id : Option String}
    {global_revision timestamp : Option Int} {t : Session} {state : Nat} {r : Int}
    (hTarget : Target h of_state session_id global_revision timestamp t state r) :
    ∃ revision session, target_of h of_state session_id global_revision timestamp = .ok (revision, session) ∧
      session_of h session = .ok (some t) ∧ Asked h t.id state revision r := by
  unfold target_of
  cases timestamp with
  | none => exact ⟨global_revision, session_id, rfl, hTarget.1, hTarget.2⟩
  | some timestamp =>
      obtain ⟨patch, hPatch, hSession, hRev⟩ := hTarget
      dsimp only
      rw [hPatch]
      exact ⟨some patch.global_rev, session_id_of h patch, rfl, hSession, .inl (congrArg some hRev.symm)⟩

/-- A checkout of a state is what the session's patches make of it. -/
theorem checkout_isAt (hRecorded : Recorded apply h) (hKept : Kept h) {state : State}
    {session_id : Option String} {global_revision timestamp : Option Int} {forward backward : Nat}
    {t : Session} {r : Int} {value : StateValue V} (hMem : state ∈ h.states)
    (hTarget : Target h (fun p => p.state = state.id) session_id global_revision timestamp t state.id r)
    (hRead : checkout apply h state.id session_id global_revision timestamp forward backward = .ok value) :
    IsAt apply h t.id state.id r value.value := by
  have hIds : h.states.Pairwise fun s s' => s.id ≠ s'.id := hKept.states.imp fun hBoth => hBoth.1
  obtain ⟨revision, session, hOf, hSession, hAsked⟩ := target_asked hTarget
  unfold checkout at hRead
  rw [find_own hIds hMem] at hRead
  dsimp only at hRead
  rw [hOf] at hRead
  dsimp only at hRead
  cases hLatest : get_latest_state apply h (some state.id) session revision forward backward with
  | error failure =>
      rw [hLatest] at hRead
      cases hRead
  | ok payload =>
      rw [hLatest] at hRead
      dsimp only at hRead
      have hOfIt : (some state.id).all (state.id = ·) = true := decide_eq_true rfl
      obtain ⟨entry, hFind, hIsAt⟩ := latest_isAt hRecorded hKept hSession hMem hOfIt hAsked hLatest
      rw [hFind] at hRead
      rw [← Except.ok.inj hRead]
      exact hIsAt

/-- A checkout of a state returns where the session has started it. -/
theorem checkout_some (hRecorded : Recorded apply h) (hKept : Kept h) {state : State}
    {session_id : Option String} {global_revision timestamp : Option Int} (forward backward : Nat)
    {t : Session} {r : Int} (hMem : state ∈ h.states)
    (hTarget : Target h (fun p => p.state = state.id) session_id global_revision timestamp t state.id r)
    (hStarted : Started h t.id state.id r) :
    ∃ value, checkout apply h state.id session_id global_revision timestamp forward backward = .ok value := by
  have hIds : h.states.Pairwise fun s s' => s.id ≠ s'.id := hKept.states.imp fun hBoth => hBoth.1
  obtain ⟨revision, session, hOf, hSession, hAsked⟩ := target_asked hTarget
  have hEach : ∀ s ∈ h.states, (some state.id).all (s.id = ·) = true →
      Asked h t.id s.id revision r ∧ Started h t.id s.id r := by
    intro s _ hOfState
    have hIs : s.id = state.id := of_decide_eq_true hOfState
    rw [hIs]
    exact ⟨hAsked, hStarted⟩
  have hSome : ∃ payload, get_latest_state apply h (some state.id) session revision forward backward =
      .ok payload := latest_some forward backward hSession hEach
  obtain ⟨payload, hLatest⟩ := hSome
  have hOfIt : (some state.id).all (state.id = ·) = true := decide_eq_true rfl
  obtain ⟨entry, hFind, -⟩ := latest_isAt hRecorded hKept hSession hMem hOfIt hAsked hLatest
  unfold checkout
  rw [find_own hIds hMem]
  dsimp only
  rw [hOf]
  dsimp only
  rw [hLatest]
  dsimp only
  rw [hFind]
  exact ⟨_, rfl⟩

/-- A checkout of all states has of each what the session's patches make of it. -/
theorem checkout_agent_isAt (hRecorded : Recorded apply h) (hKept : Kept h) {state : State}
    {session_id : Option String} {global_revision timestamp : Option Int} {forward backward : Nat}
    {t : Session} {r : Int} {payload : Payload V} (hMem : state ∈ h.states)
    (hTarget : Target h (fun _ => true) session_id global_revision timestamp t state.id r)
    (hRead : checkout_agent apply h session_id global_revision timestamp forward backward = .ok payload) :
    ∃ entry, payload.states.find? (·.1 = state.interface) = some entry ∧
      IsAt apply h t.id state.id r entry.2 := by
  obtain ⟨revision, session, hOf, hSession, hAsked⟩ := target_asked hTarget
  unfold checkout_agent at hRead
  rw [hOf] at hRead
  exact latest_isAt hRecorded hKept hSession hMem rfl hAsked hRead

end Rekuest.Replay
