import Rekuest.Registration.Implementation

/-!
# What a prefetch mirrors

An action that is still there is cached but for its qualifiers, an implementation but
for what it is a wrapper of.  An upsert and the settling of the action do the same by
such a prefetch and by one loaded afresh, where the cached qualifiers do not hide that
the row has others.
-/

namespace Rekuest.Registration

open Keyed

variable {J ρ : Type} {e : Elsewhere J ρ} {agent : AgentIdentity}
variable {db db' : Tables J ρ} {prefetch fresh : Prefetch J} {input : ImplementationInput J}

theorem bind_eq_ok {α β : Type} {x : Except Refusal α} {f : α → Except Refusal β} {b : β} :
    (x >>= f) = .ok b ↔ ∃ a, x = .ok a ∧ f a = .ok b := by
  cases x <;> simp [Bind.bind, Except.bind]

/-! ## What the database promises -/

/-- The primary keys, unique constraints and sequences of the two tables. -/
structure Constraints (db : Tables J ρ) : Prop where
  actionIds : Unique (·.row.id) db.actions
  actionPlaces : Unique Action.place db.actions
  actionSequence : ∀ a ∈ db.actions, a.row.id < db.nextAction
  implementationIds : Unique (·.row.id) db.implementations
  implementationPlaces : Unique Implementation.place db.implementations
  implementationSequence : ∀ i ∈ db.implementations, i.row.id < db.nextImplementation

theorem isOf_iff {lookup : Lookup} {a : Action J} :
    a.isOf agent lookup = true ↔ a.place = (agent.app, agent.organization, lookup) := beq_iff_eq

theorem implementation_isOf_iff {interface : String} {i : Implementation J} :
    i.isOf agent interface = true ↔ i.place = (agent.id, interface) := beq_iff_eq

theorem Constraints.findAction (h : Constraints db) {lookup : Lookup} {a : Action J}
    (hMem : a ∈ db.actions) (hIs : a.isOf agent lookup = true) :
    db.findAction agent lookup = some a := by
  apply h.actionPlaces.find hMem
  intro b
  rw [isOf_iff, isOf_iff.1 hIs]

theorem Constraints.findById (h : Constraints db) {a : Action J} (hMem : a ∈ db.actions) :
    (db.actions.find? fun b => b.row.id == a.row.id) = some a :=
  h.actionIds.find hMem fun _ => beq_iff_eq

theorem Constraints.findImplementation (h : Constraints db) {interface : String}
    {i : Implementation J} (hMem : i ∈ db.implementations) (hIs : i.isOf agent interface = true) :
    db.findImplementation agent interface = some i := by
  apply h.implementationPlaces.find hMem
  intro j
  rw [implementation_isOf_iff, implementation_isOf_iff.1 hIs]

/-! ## What the prefetch mirrors -/

/-- The same row, but for its qualifiers. -/
def SameAction (c r : ActionRow J) : Prop := { c with qualifiers := r.qualifiers } = r

/-- The same row, but for what it is a wrapper of. -/
def SameImplementation (x y : ImplementationRow J) : Prop :=
  { x with higherOrderFor := y.higherOrderFor } = y

theorem SameAction.id {c r : ActionRow J} (h : SameAction c r) : c.id = r.id := by
  rw [← h]

theorem SameAction.hash {c r : ActionRow J} (h : SameAction c r) : c.hash = r.hash := by
  rw [← h]

theorem SameAction.appId {c r : ActionRow J} (h : SameAction c r) : c.appId = r.appId := by
  rw [← h]

/-- Of the actions wanted none is missing; an action that is still there is cached but
for its qualifiers, and an implementation but for what it is a wrapper of. -/
structure Mirrors (agent : AgentIdentity) (wanted : List Lookup) (db : Tables J ρ)
    (prefetch : Prefetch J) : Prop where
  missing : ∀ lookup ∈ wanted, prefetch.actions lookup = none →
    ∀ a ∈ db.actions, a.isOf agent lookup = false
  known : ∀ lookup c, prefetch.actions lookup = some c → c.id < db.nextAction
  cached : ∀ lookup c, prefetch.actions lookup = some c → ∀ a ∈ db.actions, a.row.id = c.id →
    a.isOf agent lookup = true ∧ SameAction c a.row
  absent : ∀ interface, prefetch.implementations interface = none →
    ∀ i ∈ db.implementations, i.isOf agent interface = false
  present : ∀ interface x, prefetch.implementations interface = some x →
    ∃ i ∈ db.implementations, i.isOf agent interface = true ∧ SameImplementation x i.row

/-- The qualifiers a declaration means. -/
def ImplementationInput.qualifiers (input : ImplementationInput J) : Qualifiers J :=
  input.definition.qualifiers (input.definition.idempotent || input.definition.pure)

/-- When a turn meets what a fresh prefetch would hold: the cached action is still there,
and unless its hash or its qualifiers are declared anew its row has the qualifiers it is
cached with; and an implementation that is to go with its old action and be made again
is a wrapper of what it is cached as a wrapper of. -/
structure Turn (e : Elsewhere J ρ) (db : Tables J ρ) (prefetch : Prefetch J)
    (input : ImplementationInput J) : Prop where
  action : ∀ c, prefetch.actions input.definition.lookup = some c →
    ∃ a ∈ db.actions, a.row.id = c.id ∧ (c.hash = e.uniqueHash input.definition →
      c.qualifiers = input.qualifiers → a.row.qualifiers = input.qualifiers)
  wrapper : ∀ x action, prefetch.implementations input.interface = some x →
    (∀ c, prefetch.actions input.definition.lookup = some c → c.id = action) →
    leavesAction db x action = true →
    ∀ i ∈ db.implementations, i.row.id = x.id → i.row.higherOrderFor = x.higherOrderFor

theorem load_actions (db : Tables J ρ) (agent : AgentIdentity) (lookup : Lookup) :
    (Prefetch.load db agent [lookup]).actions lookup =
      (db.findAction agent lookup).map (·.row) := by
  simp [Prefetch.load]

theorem load_implementations (db : Tables J ρ) (agent : AgentIdentity) (wanted : List Lookup)
    (interface : String) : (Prefetch.load db agent wanted).implementations interface =
      (db.findImplementation agent interface).map (·.row) := rfl

/-- A prefetch mirrors the tables it was loaded from. -/
theorem mirrors_load (h : Constraints db) (wanted : List Lookup) :
    Mirrors agent wanted db (Prefetch.load db agent wanted) := by
  have hSome : ∀ lookup c, (Prefetch.load db agent wanted).actions lookup = some c →
      ∃ a ∈ db.actions, a.isOf agent lookup = true ∧ a.row = c := by
    intro lookup c hc
    simp only [Prefetch.load] at hc
    split at hc
    · obtain ⟨a, hFound, rfl⟩ := Option.map_eq_some_iff.1 hc
      exact ⟨a, List.mem_of_find?_eq_some hFound, List.find?_some hFound, rfl⟩
    · cases hc
  constructor
  · intro lookup hWanted hNone a ha
    simp only [Prefetch.load] at hNone
    rw [if_pos ⟨List.mem_map_of_mem hWanted, List.mem_map_of_mem hWanted⟩,
      Option.map_eq_none_iff, Tables.findAction, List.find?_eq_none] at hNone
    simpa using hNone a ha
  · intro lookup c hc
    obtain ⟨a, ha, -, rfl⟩ := hSome lookup c hc
    exact h.actionSequence a ha
  · intro lookup c hc a ha hId
    obtain ⟨b, hb, hIs, rfl⟩ := hSome lookup c hc
    rw [h.actionIds a ha b hb hId]
    exact ⟨hIs, rfl⟩
  · intro interface hNone i hi
    rw [load_implementations, Option.map_eq_none_iff, Tables.findImplementation,
      List.find?_eq_none] at hNone
    simpa using hNone i hi
  · intro interface x hx
    rw [load_implementations] at hx
    obtain ⟨i, hFound, rfl⟩ := Option.map_eq_some_iff.1 hx
    exact ⟨i, List.mem_of_find?_eq_some hFound, List.find?_some hFound, rfl⟩

/-! ## One action changes -/

/-- An update that leaves what identifies an action. -/
structure KeepsKey (f : Action J → Action J) : Prop where
  id : ∀ a, (f a).row.id = a.row.id
  place : ∀ a, (f a).place = a.place

theorem Constraints.updateAction (h : Constraints db) {f : Action J → Action J}
    (hf : KeepsKey f) (id : Nat) : Constraints (db.updateAction id f) := by
  refine ⟨h.actionIds.updateAt hf.id id, h.actionPlaces.updateAt hf.place id, ?_,
    h.implementationIds, h.implementationPlaces, h.implementationSequence⟩
  refine forall_updateAt h.actionSequence ?_ id
  intro a ha
  rw [hf.id]
  exact ha

theorem keepsKey_redefine (definition : Definition J) (hash scope : String) :
    KeepsKey (Action.redefine definition hash scope) := ⟨fun _ => rfl, fun _ => rfl⟩

/-- A new action of a place no action has. -/
theorem Constraints.insertAction (h : Constraints db) {a : Action J} (hId : a.row.id = db.nextAction)
    (hNew : ∀ b ∈ db.actions, b.place ≠ a.place) :
    Constraints { db with actions := db.actions ++ [a], nextAction := db.nextAction + 1 } := by
  refine ⟨h.actionIds.insert ?_, h.actionPlaces.insert hNew, ?_,
    h.implementationIds, h.implementationPlaces, h.implementationSequence⟩
  · intro b hb
    have := h.actionSequence b hb
    omega
  · intro b hb
    show b.row.id < db.nextAction + 1
    rcases List.mem_append.1 hb with hOld | hIs
    · have := h.actionSequence b hOld
      omega
    · rw [List.mem_singleton.1 hIs]
      omega

/-- Of the two tables at most the action of an id changes. -/
structure OnlyAction (id : Nat) (db db' : Tables J ρ) : Prop where
  implementations : db'.implementations = db.implementations
  nextImplementation : db'.nextImplementation = db.nextImplementation
  sequence : db.nextAction ≤ db'.nextAction
  constraints : Constraints db → Constraints db'
  others : ∀ b : Action J, b.row.id ≠ id → (b ∈ db'.actions ↔ b ∈ db.actions)

theorem OnlyAction.refl (id : Nat) (db : Tables J ρ) : OnlyAction id db db :=
  ⟨rfl, rfl, Nat.le_refl _, fun h => h, fun _ _ => Iff.rfl⟩

theorem OnlyAction.trans {id : Nat} {db'' : Tables J ρ} (h : OnlyAction id db db')
    (h' : OnlyAction id db' db'') : OnlyAction id db db'' := by
  constructor
  · exact h'.implementations.trans h.implementations
  · exact h'.nextImplementation.trans h.nextImplementation
  · exact Nat.le_trans h.sequence h'.sequence
  · intro hC
    exact h'.constraints (h.constraints hC)
  · intro b hb
    exact (h'.others b hb).trans (h.others b hb)

theorem onlyAction_update {f : Action J → Action J} (hf : KeepsKey f) (id : Nat)
    (db : Tables J ρ) : OnlyAction id db (db.updateAction id f) :=
  ⟨rfl, rfl, Nat.le_refl _, fun hC => hC.updateAction hf id,
    fun _ hb => mem_updateAt_of_ne hf.id hb⟩

theorem onlyAction_insert {a : Action J} (hId : a.row.id = db.nextAction)
    (hNew : ∀ b ∈ db.actions, b.place ≠ a.place) :
    OnlyAction a.row.id db
      { db with actions := db.actions ++ [a], nextAction := db.nextAction + 1 } := by
  refine ⟨rfl, rfl, Nat.le_succ _, fun hC => hC.insertAction hId hNew, ?_⟩
  intro b hb
  simp only [List.mem_append, List.mem_singleton]
  constructor
  · rintro (hOld | rfl)
    · exact hOld
    · exact absurd rfl hb
  · exact .inl

/-- The other tables change. -/
theorem onlyAction_rest (id : Nat) (db : Tables J ρ) (rest : ρ) :
    OnlyAction id db { db with rest } :=
  ⟨rfl, rfl, Nat.le_refl _,
    fun hC => ⟨hC.actionIds, hC.actionPlaces, hC.actionSequence, hC.implementationIds,
      hC.implementationPlaces, hC.implementationSequence⟩, fun _ _ => Iff.rfl⟩

/-! ## The same writes -/

theorem validateQualifiers_ok {definition : Definition J} {effects : Effects} {idempotent : Bool}
    (h : validateQualifiers definition effects = .ok idempotent) :
    idempotent = (definition.idempotent || definition.pure) := by
  unfold validateQualifiers at h
  split at h
  · cases h
  · split at h
    · cases h
    · cases h
      rfl

section

variable [DecidableEq J]

/-- Whatever qualifiers an action is cached with, it is left with those declared: where
they are cached as declared the row has them. -/
theorem syncQualifiers_agrees (h : Constraints db) {c : ActionRow J} {a : Action J}
    (hMem : a ∈ db.actions) (hSame : SameAction c a.row) {declared : Qualifiers J}
    (hCached : c.qualifiers = declared → a.row.qualifiers = declared) :
    syncQualifiers declared c db = syncQualifiers declared a.row db := by
  have hId := hSame.id
  by_cases hDeclared : c.qualifiers = declared
  · have hEq : c = a.row := by
      rw [SameAction, hCached hDeclared, ← hDeclared] at hSame
      exact hSame
    rw [hEq]
  · unfold syncQualifiers
    have hWritten : ({ c with qualifiers := declared } : ActionRow J) =
        { a.row with qualifiers := declared } := by rw [← hSame]
    rw [if_pos hDeclared, hWritten, hId]
    by_cases hRow : a.row.qualifiers = declared
    · -- the update writes what the row has
      rw [if_neg (not_not.2 hRow)]
      have hKeeps : db.updateAction a.row.id
          (fun b => { b with row := { b.row with qualifiers := declared } }) = db := by
        unfold Tables.updateAction
        rw [updateAt_eq_self h.actionIds hMem (by rw [← hRow])]
      rw [hKeeps, ← hRow]
    · rw [if_pos hRow]

end

/-- What an upsert leaves: the action, cached but for its qualifiers and, where it is
cached with those declared, with those. -/
structure Upserted (agent : AgentIdentity) (input : ImplementationInput J) (db : Tables J ρ)
    (prefetch : Prefetch J) (c : ActionRow J) (a : Action J) (db' : Tables J ρ)
    (prefetch' : Prefetch J) : Prop where
  only : OnlyAction c.id db db'
  mem : a ∈ db'.actions
  isOf : a.isOf agent input.definition.lookup = true
  same : SameAction c a.row
  qualifiers : c.qualifiers = input.qualifiers → a.row.qualifiers = input.qualifiers
  /-- It is the action that was cached, and no other lookup is cached with it. -/
  before : ∀ c', prefetch.actions input.definition.lookup = some c' → c'.id = c.id
  distinct : ∀ lookup c', prefetch.actions lookup = some c' → c'.id = c.id →
    lookup = input.definition.lookup
  cachedImplementations : prefetch'.implementations = prefetch.implementations
  cachedActions : ∀ lookup, prefetch'.actions lookup =
    if lookup = input.definition.lookup then some c else prefetch.actions lookup

/-- With the shared prefetch and with a fresh one, an upsert refuses alike or leaves the
same tables and an action settled alike. -/
theorem upsert_agrees {wanted : List Lookup} {idempotent : Bool} (hC : Constraints db)
    (h : Mirrors agent wanted db prefetch) (hTurn : Turn e db prefetch input)
    (hWanted : input.definition.lookup ∈ wanted)
    (hIdempotent : idempotent = (input.definition.idempotent || input.definition.pure))
    (hFresh : fresh = Prefetch.load db agent [input.definition.lookup]) :
    ∃ c a changed db' prefetch' fresh',
      upsertAction e agent input.definition idempotent db prefetch =
        .ok ((c, changed), db', prefetch') ∧
      upsertAction e agent input.definition idempotent db fresh =
        .ok ((a.row, changed), db', fresh') ∧
      Upserted agent input db prefetch c a db' prefetch' ∧
      fresh'.implementations = fresh.implementations := by
  have hQualifiers : input.definition.qualifiers idempotent = input.qualifiers := by
    rw [hIdempotent, ImplementationInput.qualifiers]
  cases hCached : prefetch.actions input.definition.lookup with
  | none =>
      have hMissing := h.missing _ hWanted hCached
      have hNone : db.findAction agent input.definition.lookup = none :=
        find_none hMissing
      have hLoaded : fresh.actions input.definition.lookup = none := by
        rw [hFresh, load_actions, hNone]
        rfl
      let a := input.definition.newAction agent (e.uniqueHash input.definition)
        (e.inferActionScope input.definition) idempotent db.nextAction
      refine ⟨a.row, a, true, { db with actions := db.actions ++ [a]
                                        nextAction := db.nextAction + 1 },
        prefetch.insertAction input.definition.lookup a.row,
        fresh.insertAction input.definition.lookup a.row, ?_, ?_, ?_, rfl⟩
      · simp only [upsertAction, hCached, hNone]
        rfl
      · simp only [upsertAction, hLoaded, hNone]
        rfl
      · constructor
        · apply onlyAction_insert rfl
          intro b hb hPlace
          have hOld := hMissing b hb
          have hIs : b.isOf agent input.definition.lookup = true := isOf_iff.2 (hPlace.trans rfl)
          rw [hOld] at hIs
          cases hIs
        · simp
        · exact isOf_iff.2 rfl
        · rfl
        · intro _
          exact hQualifiers
        · intro c' hc'
          rw [hCached] at hc'
          cases hc'
        · intro lookup c' hc' hId
          exact absurd (h.known lookup c' hc') (by rw [hId]; exact Nat.lt_irrefl _)
        · rfl
        · intro lookup
          rfl
  | some c =>
      obtain ⟨a, ha, hId, hSynced⟩ := hTurn.action c hCached
      obtain ⟨hIs, hSame⟩ := h.cached _ c hCached a ha hId
      have hLoaded : fresh.actions input.definition.lookup = some a.row := by
        rw [hFresh, load_actions, hC.findAction ha hIs]
        rfl
      have hDistinct : ∀ lookup c', prefetch.actions lookup = some c' → c'.id = c.id →
          lookup = input.definition.lookup := by
        intro lookup c' hc' hId'
        obtain ⟨hIs', -⟩ := h.cached lookup c' hc' a ha (hId.trans hId'.symm)
        have hPlace := (isOf_iff.1 hIs').symm.trans (isOf_iff.1 hIs)
        exact congrArg (·.2.2) hPlace
      by_cases hHash : c.hash = e.uniqueHash input.definition
      · have hRowHash : a.row.hash = e.uniqueHash input.definition := hSame.hash ▸ hHash
        refine ⟨c, a, false, db, prefetch, fresh, ?_, ?_, ?_, rfl⟩
        · simp only [upsertAction, hCached, if_pos hHash]
        · simp only [upsertAction, hLoaded, if_pos hRowHash]
        · refine ⟨.refl _ _, ha, hIs, hSame, hSynced hHash, ?_, hDistinct, rfl, ?_⟩
          · intro c' hc'
            rw [hCached] at hc'
            cases hc'
            rfl
          · intro lookup
            by_cases hLookup : lookup = input.definition.lookup
            · rw [if_pos hLookup, hLookup, hCached]
            · rw [if_neg hLookup]
      · have hRowHash : a.row.hash ≠ e.uniqueHash input.definition := hSame.hash ▸ hHash
        have hApp : a.row.appId = agent.app := congrArg (·.1) (isOf_iff.1 hIs)
        have hOwned : ¬ c.appId ≠ agent.app := not_not.2 (hSame.appId.trans hApp)
        have hFound : ∀ id, id = a.row.id →
            (db.actions.find? fun b => b.row.id == id) = some a := by
          rintro id rfl
          exact hC.findById ha
        let f := Action.redefine input.definition (e.uniqueHash input.definition)
          (e.inferActionScope input.definition)
        have hKeeps : KeepsKey f := keepsKey_redefine _ _ _
        refine ⟨(f a).row, f a, true, db.updateAction a.row.id f,
          prefetch.insertAction input.definition.lookup (f a).row,
          fresh.insertAction input.definition.lookup (f a).row, ?_, ?_, ?_, rfl⟩
        · simp only [upsertAction, hCached, if_neg hHash, if_neg hOwned, hFound c.id hSame.id]
          rfl
        · simp only [upsertAction, hLoaded, if_neg hRowHash, if_neg (not_not.2 hApp),
            hFound a.row.id rfl]
          rfl
        · refine ⟨onlyAction_update hKeeps _ _, mem_updateAt_self ha, hIs, rfl, id, ?_, ?_,
            rfl, fun _ => rfl⟩
          · intro c' hc'
            rw [hCached] at hc'
            cases hc'
            exact hSame.id
          · intro lookup c' hc' hId'
            exact hDistinct lookup c' hc' (hId'.trans hSame.id.symm)

section

variable [DecidableEq J]

/-- What settling an action leaves: its row with the declared qualifiers, as it was but
for these unless it was rebuilt. -/
structure Settled (agent : AgentIdentity) (input : ImplementationInput J) (db : Tables J ρ)
    (a : Action J) (settled : ActionRow J) (rebuilt : Bool) (db' : Tables J ρ) : Prop where
  only : OnlyAction a.row.id db db'
  id : settled.id = a.row.id
  mem : ∃ b ∈ db'.actions, b.row = settled ∧ b.isOf agent input.definition.lookup = true
  qualifiers : settled.qualifiers = input.qualifiers
  same : rebuilt = false → SameAction a.row settled

theorem settleAction_ok {a : Action J} {idempotent changed rebuilt : Bool} {settled : ActionRow J}
    (ha : a ∈ db.actions) (hIs : a.isOf agent input.definition.lookup = true)
    (hIdempotent : idempotent = (input.definition.idempotent || input.definition.pure))
    (hOk : settleAction e input idempotent changed a.row db = .ok ((settled, rebuilt), db')) :
    Settled agent input db a settled rebuilt db' := by
  have hQualifiers : input.definition.qualifiers idempotent = input.qualifiers := by
    rw [hIdempotent, ImplementationInput.qualifiers]
  -- once synced, the row is the one that is settled
  have hSync : ∃ b, b ∈ (syncQualifiers input.qualifiers a.row db).2.actions ∧
      b.row = (syncQualifiers input.qualifiers a.row db).1 ∧
      b.isOf agent input.definition.lookup = true ∧
      (syncQualifiers input.qualifiers a.row db).1 =
        { a.row with qualifiers := input.qualifiers } ∧
      OnlyAction a.row.id db (syncQualifiers input.qualifiers a.row db).2 := by
    unfold syncQualifiers
    by_cases hRow : a.row.qualifiers = input.qualifiers
    · rw [if_neg (not_not.2 hRow)]
      exact ⟨a, ha, rfl, hIs, by rw [← hRow], .refl _ _⟩
    · rw [if_pos hRow]
      let f : Action J → Action J := fun b =>
        { b with row := { b.row with qualifiers := input.qualifiers } }
      have hKeeps : KeepsKey f := ⟨fun _ => rfl, fun _ => rfl⟩
      exact ⟨f a, mem_updateAt_self ha, rfl, hIs, rfl, onlyAction_update hKeeps _ _⟩
  obtain ⟨b, hb, hRow, hIsb, hSynced, hOnly⟩ := hSync
  simp only [settleAction, hQualifiers] at hOk
  generalize syncQualifiers input.qualifiers a.row db = synced at hOk hb hRow hSynced hOnly
  obtain ⟨action, db₁⟩ := synced
  dsimp only at hOk hb hRow hSynced hOnly
  obtain ⟨rest, -, hOk⟩ := bind_eq_ok.1 hOk
  have hOnly₁ : OnlyAction a.row.id db { db₁ with rest } := hOnly.trans (onlyAction_rest _ _ _)
  split at hOk
  · obtain ⟨⟨action', db₂⟩, hRebuilt, hOk⟩ := bind_eq_ok.1 hOk
    cases hOk
    obtain ⟨rest₁, -, hRebuilt⟩ := bind_eq_ok.1 hRebuilt
    obtain ⟨rest₂, -, hRebuilt⟩ := bind_eq_ok.1 hRebuilt
    cases hRebuilt
    let f : Action J → Action J := fun b => { b with row := { b.row with
      argCount := input.definition.args.length, returnCount := input.definition.returns.length } }
    have hKeeps : KeepsKey f := ⟨fun _ => rfl, fun _ => rfl⟩
    have hId : action.id = a.row.id := by rw [hSynced]
    constructor
    · refine hOnly₁.trans ((onlyAction_rest _ _ rest₁).trans ?_)
      rw [← hId]
      exact (onlyAction_update hKeeps _ _).trans (onlyAction_rest _ _ _)
    · exact hId
    · refine ⟨f b, ?_, ?_, hIsb⟩
      · rw [← hRow]
        exact mem_updateAt_self hb
      · rw [← hRow]
    · rw [hSynced]
    · intro hFalse
      cases hFalse
  · cases hOk
    refine ⟨hOnly₁, by rw [hSynced], ⟨b, hb, hRow, hIsb⟩, by rw [hSynced], fun _ => ?_⟩
    rw [hSynced]
    rfl

end

theorem SameAction.trans {c r r' : ActionRow J} (h : SameAction c r) (h' : SameAction r r') :
    SameAction c r' := by
  rw [SameAction, ← h', ← h]

theorem mirrors_settled {wanted : List Lookup} {c settled : ActionRow J} {a : Action J}
    {db₁ db₂ : Tables J ρ} {prefetch' : Prefetch J} {rebuilt : Bool} (hC : Constraints db)
    (h : Mirrors agent wanted db prefetch)
    (hUpserted : Upserted agent input db prefetch c a db₁ prefetch')
    (hSettled : Settled agent input db₁ a settled rebuilt db₂) :
    Mirrors agent wanted db₂ (cacheSettled rebuilt settled prefetch') := by
  have hId : a.row.id = c.id := hUpserted.same.id.symm
  have hOnly : OnlyAction c.id db db₂ := hUpserted.only.trans (hId ▸ hSettled.only)
  have hC₂ := hOnly.constraints hC
  obtain ⟨b, hb, hRow, hIs⟩ := hSettled.mem
  have hbId : b.row.id = c.id := by rw [hRow, hSettled.id, hId]
  have hLookup : (settled.key, settled.version) = input.definition.lookup := by
    rw [← hRow]
    exact congrArg (·.2.2) (isOf_iff.1 hIs)
  -- the declared lookup is cached as it was settled, the others as they were
  have hHere : ∃ c', (cacheSettled rebuilt settled prefetch').actions input.definition.lookup =
      some c' ∧ SameAction c' settled := by
    cases rebuilt with
    | true =>
        refine ⟨settled, ?_, rfl⟩
        show (if input.definition.lookup = (settled.key, settled.version) then some settled else _) =
          some settled
        rw [if_pos hLookup.symm]
    | false =>
        refine ⟨c, ?_, hUpserted.same.trans (hSettled.same rfl)⟩
        exact (hUpserted.cachedActions _).trans (if_pos rfl)
  have hOthers : ∀ lookup, lookup ≠ input.definition.lookup →
      (cacheSettled rebuilt settled prefetch').actions lookup = prefetch.actions lookup := by
    intro lookup hNe
    have hCached := (hUpserted.cachedActions lookup).trans (if_neg hNe)
    cases rebuilt with
    | true =>
        show (if lookup = (settled.key, settled.version) then some settled else _) = _
        rw [hLookup, if_neg hNe]
        exact hCached
    | false => exact hCached
  have hImplementations : (cacheSettled rebuilt settled prefetch').implementations =
      prefetch.implementations := by
    cases rebuilt <;> exact hUpserted.cachedImplementations
  obtain ⟨c', hc', hSame⟩ := hHere
  constructor
  · intro lookup hWanted hNone a' ha'
    by_cases hEq : lookup = input.definition.lookup
    · rw [hEq, hc'] at hNone
      cases hNone
    · rw [hOthers lookup hEq] at hNone
      by_cases hSelf : a'.row.id = c.id
      · rw [hC₂.actionIds a' ha' b hb (hSelf.trans hbId.symm)]
        by_contra hTrue
        have hIs' : b.isOf agent lookup = true := by simpa using hTrue
        exact hEq (congrArg (·.2.2) ((isOf_iff.1 hIs').symm.trans (isOf_iff.1 hIs)))
      · exact h.missing lookup hWanted hNone a' ((hOnly.others a' hSelf).1 ha')
  · intro lookup c'' hc''
    by_cases hEq : lookup = input.definition.lookup
    · rw [hEq, hc'] at hc''
      cases hc''
      rw [hSame.id, ← hRow]
      exact hC₂.actionSequence b hb
    · rw [hOthers lookup hEq] at hc''
      exact Nat.lt_of_lt_of_le (h.known lookup c'' hc'') hOnly.sequence
  · intro lookup c'' hc'' a' ha' hId'
    by_cases hEq : lookup = input.definition.lookup
    · rw [hEq, hc'] at hc''
      cases hc''
      have hSelf : a' = b := by
        apply hC₂.actionIds a' ha' b hb
        show a'.row.id = b.row.id
        rw [hId', hSame.id, hRow]
      rw [hSelf, hRow, hEq]
      exact ⟨hIs, hSame⟩
    · rw [hOthers lookup hEq] at hc''
      have hSelf : a'.row.id ≠ c.id := by
        intro hSelf
        exact hEq (hUpserted.distinct lookup c'' hc'' (hId'.symm.trans hSelf))
      exact h.cached lookup c'' hc'' a' ((hOnly.others a' hSelf).1 ha') hId'
  · intro interface hNone i hi
    rw [hImplementations] at hNone
    rw [hOnly.implementations] at hi
    exact h.absent interface hNone i hi
  · intro interface x hx
    rw [hImplementations] at hx
    rw [hOnly.implementations]
    exact h.present interface x hx

end Rekuest.Registration
