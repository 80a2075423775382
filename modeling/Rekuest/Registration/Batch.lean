import Rekuest.Registration.Mirror

/-!
# One prefetch for a batch

A turn of the loop does what it would do with a prefetch loaded afresh, when what it
looks up is still what the tables hold.  The loop mirrors its inserts and updates of
actions, and every write of an implementation; it does not mirror an action that goes
with its last implementation, the qualifiers synced afterwards, or a wrapper whose
lower implementation went.
-/

namespace Rekuest.Registration

open Keyed

variable {J ρ : Type} {e : Elsewhere J ρ} {agent : AgentIdentity}
variable {db db' : Tables J ρ} {prefetch fresh : Prefetch J} {input : ImplementationInput J}

/-! ## The implementation's row -/

theorem Constraints.updateImplementation (h : Constraints db)
    {f : Implementation J → Implementation J} (hId : ∀ i, (f i).row.id = i.row.id)
    (hPlace : ∀ i, (f i).place = i.place) (id : Nat) :
    Constraints (db.updateImplementation id f) := by
  refine ⟨h.actionIds, h.actionPlaces, h.actionSequence, h.implementationIds.updateAt hId id,
    h.implementationPlaces.updateAt hPlace id, ?_⟩
  refine forall_updateAt h.implementationSequence ?_ id
  intro i hi
  rw [hId]
  exact hi

/-- One implementation is written; the others stay, but for what they are wrappers of, and
no action comes in. -/
structure Rewritten (agent : AgentIdentity) (row : ImplementationRow J)
    (db db' : Tables J ρ) : Prop where
  constraints : Constraints db'
  actions : ∀ a ∈ db'.actions, a ∈ db.actions
  nextAction : db'.nextAction = db.nextAction
  before : ∀ i ∈ db.implementations, i.row.id = row.id → i.place = (agent.id, row.interface)
  here : ∃ j ∈ db'.implementations, j.place = (agent.id, row.interface) ∧
    SameImplementation row j.row
  kept : ∀ i ∈ db.implementations, i.row.id ≠ row.id →
    ∃ j ∈ db'.implementations, j.place = i.place ∧ SameImplementation i.row j.row
  others : ∀ j ∈ db'.implementations, j.row.id ≠ row.id →
    ∃ i ∈ db.implementations, i.place = j.place

theorem SameImplementation.id {x y : ImplementationRow J} (h : SameImplementation x y) :
    x.id = y.id := by
  rw [← h]

theorem SameImplementation.trans {x y z : ImplementationRow J} (h : SameImplementation x y)
    (h' : SameImplementation y z) : SameImplementation x z := by
  rw [SameImplementation, ← h', ← h]

theorem mirrors_rewritten {wanted : List Lookup} {row : ImplementationRow J}
    (h : Mirrors agent wanted db prefetch) (hRewritten : Rewritten agent row db db') :
    Mirrors agent wanted db' (prefetch.insertImplementation row) := by
  have hInsert : ∀ interface, (prefetch.insertImplementation row).implementations interface =
      if interface = row.interface then some row else prefetch.implementations interface :=
    fun _ => rfl
  obtain ⟨j, hj, hPlace, hSame⟩ := hRewritten.here
  constructor
  · intro lookup hWanted hNone a ha
    exact h.missing lookup hWanted hNone a (hRewritten.actions a ha)
  · intro lookup c hc
    rw [hRewritten.nextAction]
    exact h.known lookup c hc
  · intro lookup c hc a ha hId
    exact h.cached lookup c hc a (hRewritten.actions a ha) hId
  · intro interface hNone k hk
    rw [hInsert] at hNone
    by_cases hEq : interface = row.interface
    · rw [if_pos hEq] at hNone
      cases hNone
    · rw [if_neg hEq] at hNone
      by_contra hTrue
      have hIs : k.place = (agent.id, interface) :=
        implementation_isOf_iff.1 (by simpa using hTrue)
      by_cases hId : k.row.id = row.id
      · have hSelf : k = j := hRewritten.constraints.implementationIds k hk j hj
          (hId.trans hSame.id)
        rw [hSelf, hPlace] at hIs
        exact hEq (congrArg (·.2) hIs.symm)
      · obtain ⟨i, hi, hPlace'⟩ := hRewritten.others k hk hId
        have hAbsent := h.absent interface hNone i hi
        rw [implementation_isOf_iff.2 (hPlace'.trans hIs)] at hAbsent
        cases hAbsent
  · intro interface x hx
    rw [hInsert] at hx
    by_cases hEq : interface = row.interface
    · rw [if_pos hEq] at hx
      cases hx
      exact ⟨j, hj, implementation_isOf_iff.2 (hPlace.trans (by rw [hEq])), hSame⟩
    · rw [if_neg hEq] at hx
      obtain ⟨i, hi, hIs, hSame'⟩ := h.present interface x hx
      have hNe : i.row.id ≠ row.id := by
        intro hId
        have hPlaces := (implementation_isOf_iff.1 hIs).symm.trans (hRewritten.before i hi hId)
        exact hEq (congrArg (·.2) hPlaces)
      obtain ⟨k, hk, hPlace', hSame''⟩ := hRewritten.kept i hi hNe
      refine ⟨k, hk, ?_, hSame'.trans hSame''⟩
      exact implementation_isOf_iff.2 (hPlace'.trans (implementation_isOf_iff.1 hIs))

/-- A new implementation of an interface the agent has none of. -/
theorem rewritten_insert {made : Implementation J} (hC : Constraints db)
    (hId : made.row.id = db.nextImplementation) (hAgent : made.agentId = agent.id)
    (hNew : ∀ i ∈ db.implementations, i.place ≠ made.place) :
    Rewritten agent made.row db { db with
      implementations := db.implementations ++ [made]
      nextImplementation := db.nextImplementation + 1 } := by
  have hIds : ∀ i ∈ db.implementations, i.row.id ≠ made.row.id := by
    intro i hi
    have := hC.implementationSequence i hi
    omega
  have hPlace : made.place = (agent.id, made.row.interface) := by rw [← hAgent]; rfl
  have hMem : ∀ j ∈ db.implementations ++ [made], j ∈ db.implementations ∨ j = made := by
    intro j hj
    simpa using hj
  constructor
  · refine ⟨hC.actionIds, hC.actionPlaces, hC.actionSequence, hC.implementationIds.insert hIds,
      hC.implementationPlaces.insert hNew, ?_⟩
    intro j hj
    show j.row.id < db.nextImplementation + 1
    rcases hMem j hj with hOld | rfl
    · have := hC.implementationSequence j hOld
      omega
    · omega
  · intro a ha
    exact ha
  · rfl
  · intro i hi hEq
    exact absurd hEq (hIds i hi)
  · exact ⟨made, List.mem_append_right _ (List.mem_singleton.2 rfl), hPlace, rfl⟩
  · intro i hi _
    exact ⟨i, List.mem_append_left _ hi, rfl, rfl⟩
  · intro j hj hNe
    rcases hMem j hj with hOld | rfl
    · exact ⟨j, hOld, rfl⟩
    · exact absurd rfl hNe

/-- An implementation pointed at an action. -/
theorem rewritten_update {x : ImplementationRow J} {i : Implementation J} {action : Nat}
    {declared : Declared J} (hC : Constraints db) (hi : i ∈ db.implementations)
    (hPlace : i.place = (agent.id, x.interface)) (hSame : SameImplementation x i.row) :
    Rewritten agent { x with actionId := action } db (db.updateImplementation x.id fun i =>
      { i with row := { i.row with actionId := action }, declared }) := by
  let point : Implementation J → Implementation J := fun i =>
    { i with row := { i.row with actionId := action }, declared }
  have hId : ∀ i, (point i).row.id = i.row.id := fun _ => rfl
  have hOthers : ∀ j : Implementation J, j.row.id ≠ x.id →
      (j ∈ (db.updateImplementation x.id point).implementations ↔ j ∈ db.implementations) :=
    fun j hNe => mem_updateAt_of_ne hId hNe
  constructor
  · exact hC.updateImplementation hId (fun _ => rfl) x.id
  · intro a ha
    exact ha
  · rfl
  · intro j hj hEq
    rw [hC.implementationIds j hj i hi (hEq.trans hSame.id)]
    exact hPlace
  · refine ⟨point i, ?_, hPlace, ?_⟩
    · rw [hSame.id]
      exact mem_updateAt_self hi
    · have hRow : ({ x with higherOrderFor := i.row.higherOrderFor } : ImplementationRow J) =
          i.row := hSame
      show ({ x with actionId := action, higherOrderFor := i.row.higherOrderFor } :
        ImplementationRow J) = { i.row with actionId := action }
      rw [← hRow]
  · intro j hj hNe
    exact ⟨j, (hOthers j hNe).2 hj, rfl, rfl⟩
  · intro j hj hNe
    exact ⟨j, (hOthers j hNe).1 hj, rfl⟩

/-- The one implementation of an action goes with it and is made again. -/
theorem rewritten_recreate {x : ImplementationRow J} {i : Implementation J}
    {deleted : List Nat} {db₁ : Tables J ρ} (action : Nat) (declared : Declared J)
    (hC : Constraints db)
    (hi : i ∈ db.implementations) (hPlace : i.place = (agent.id, x.interface))
    (hSame : SameImplementation x i.row)
    (hCount : (db.implementations.countP fun j => j.row.actionId == x.actionId) = 1)
    (hDeleted : deleteAction e x.actionId db = .ok (deleted, db₁)) :
    x.id ∈ deleted ∧ Rewritten agent { x with actionId := action } db
      { db₁ with implementations := db₁.implementations ++
        [{ row := { x with actionId := action }, agentId := agent.id, declared }] } := by
  have hAction : i.row.actionId = x.actionId := by
    have hRow : ({ x with higherOrderFor := i.row.higherOrderFor } : ImplementationRow J) =
        i.row := hSame
    rw [← hRow]
  -- it is the only one, and so the only one that is deleted
  have hOnly : ∀ j ∈ db.implementations, j.row.actionId = x.actionId → j = i := by
    rw [List.countP_eq_length_filter, List.length_eq_one_iff] at hCount
    obtain ⟨only, hFilter⟩ := hCount
    have hIs : ∀ j ∈ db.implementations, j.row.actionId = x.actionId → j = only := by
      intro j hj hEq
      have hMem : j ∈ db.implementations.filter fun j => j.row.actionId == x.actionId :=
        List.mem_filter.2 ⟨hj, by simpa using hEq⟩
      rw [hFilter] at hMem
      exact List.mem_singleton.1 hMem
    intro j hj hEq
    rw [hIs j hj hEq, hIs i hi hAction]
  obtain ⟨rest, -, hDeleted⟩ := bind_eq_ok.1 hDeleted
  cases hDeleted
  have hDeleted : ∀ id, id ∈ (db.implementations.filter
      fun j => j.row.actionId = x.actionId).map (·.row.id) ↔ id = x.id := by
    intro id
    rw [List.mem_map]
    constructor
    · rintro ⟨j, hj, rfl⟩
      obtain ⟨hMem, hEq⟩ := List.mem_filter.1 hj
      rw [hOnly j hMem (by simpa using hEq), hSame.id]
    · rintro rfl
      exact ⟨i, List.mem_filter.2 ⟨hi, by simpa using hAction⟩, hSame.id.symm⟩
  refine ⟨(hDeleted x.id).2 rfl, ?_⟩
  generalize (db.implementations.filter fun j => j.row.actionId = x.actionId).map (·.row.id) =
    deleted at hDeleted
  let unlink : Implementation J → Implementation J := fun j => { j with row := { j.row with
    higherOrderFor := j.row.higherOrderFor.filter (· ∉ deleted) } }
  let made : Implementation J :=
    { row := { x with actionId := action }, agentId := agent.id, declared }
  let kept := (db.implementations.filter fun j => j.row.id ∉ deleted).map unlink
  have hKept : ∀ j ∈ kept, ∃ k ∈ db.implementations, k.row.id ≠ x.id ∧ unlink k = j := by
    intro j hj
    obtain ⟨k, hk, rfl⟩ := List.mem_map.1 hj
    obtain ⟨hMem, hNot⟩ := List.mem_filter.1 hk
    refine ⟨k, hMem, ?_, rfl⟩
    intro hEq
    exact (of_decide_eq_true hNot) ((hDeleted _).2 hEq)
  have hMade : made.place = i.place := hPlace.symm
  constructor
  · refine ⟨hC.actionIds.filter _, hC.actionPlaces.filter _, ?_, ?_, ?_, ?_⟩
    · intro a ha
      exact hC.actionSequence a (List.mem_filter.1 ha).1
    · apply Unique.insert
      · exact (hC.implementationIds.filter _).map fun _ => rfl
      · intro j hj
        obtain ⟨k, -, hNe, rfl⟩ := hKept j hj
        exact hNe
    · apply Unique.insert
      · exact (hC.implementationPlaces.filter _).map fun _ => rfl
      · intro j hj hEq
        obtain ⟨k, hk, hNe, rfl⟩ := hKept j hj
        have hSelf := hC.implementationPlaces k hk i hi (hEq.trans hMade)
        rw [hSelf, ← hSame.id] at hNe
        exact hNe rfl
    · intro j hj
      rcases List.mem_append.1 hj with hOld | hIs
      · obtain ⟨k, hk, -, rfl⟩ := hKept j hOld
        exact hC.implementationSequence k hk
      · rw [List.mem_singleton.1 hIs]
        show x.id < db.nextImplementation
        rw [hSame.id]
        exact hC.implementationSequence i hi
  · intro a ha
    exact (List.mem_filter.1 ha).1
  · rfl
  · intro j hj hEq
    rw [hC.implementationIds j hj i hi (hEq.trans hSame.id)]
    exact hPlace
  · exact ⟨made, List.mem_append_right _ (List.mem_singleton.2 rfl), rfl, rfl⟩
  · intro j hj hNe
    refine ⟨unlink j, List.mem_append_left _ ?_, rfl, rfl⟩
    apply List.mem_map_of_mem
    refine List.mem_filter.2 ⟨hj, ?_⟩
    exact decide_eq_true fun hMem => hNe ((hDeleted _).1 hMem)
  · intro j hj hNe
    rcases List.mem_append.1 hj with hOld | hIs
    · obtain ⟨k, hk, -, rfl⟩ := hKept j hOld
      exact ⟨k, hk, rfl⟩
    · rw [List.mem_singleton.1 hIs] at hNe
      exact absurd rfl hNe

theorem repointImplementation_ok {x : ImplementationRow J} {i : Implementation J} {action : Nat}
    {declared : Declared J} (hC : Constraints db) (hi : i ∈ db.implementations)
    (hPlace : i.place = (agent.id, x.interface)) (hSame : SameImplementation x i.row)
    (hOk : repointImplementation e agent declared x action db = .ok db') :
    Rewritten agent { x with actionId := action } db db' := by
  unfold repointImplementation leaveAction at hOk
  obtain ⟨⟨deleted, db₁⟩, hDeleted, hOk⟩ := bind_eq_ok.1 hOk
  dsimp only at hOk
  by_cases hLeaves : leavesAction db x action = true
  · rw [if_pos hLeaves] at hDeleted
    have hCount := (Bool.and_eq_true_iff.1 hLeaves).2
    obtain ⟨hMem, hRewritten⟩ := rewritten_recreate action declared hC hi hPlace hSame
      (by simpa using hCount) hDeleted
    rw [if_pos hMem] at hOk
    obtain ⟨-, -, hOk⟩ := bind_eq_ok.1 hOk
    cases hOk
    exact hRewritten
  · rw [if_neg hLeaves] at hDeleted
    cases hDeleted
    rw [if_neg List.not_mem_nil] at hOk
    have hFound : (db.implementations.find? fun j => j.row.id == x.id) = some i := by
      rw [hSame.id]
      exact hC.implementationIds.find hi fun _ => beq_iff_eq
    rw [pointImplementation, hFound] at hOk
    obtain ⟨-, -, hOk⟩ := bind_eq_ok.1 hOk
    cases hOk
    exact rewritten_update hC hi hPlace hSame

/-- What an implementation is cached as a wrapper of matters only to one made again. -/
theorem repointImplementation_agrees {x y : ImplementationRow J} {action : Nat}
    {declared : Declared J} (hSame : SameImplementation x y)
    (hWrapper : leavesAction db x action = true → y.higherOrderFor = x.higherOrderFor) :
    repointImplementation e agent declared x action db =
      repointImplementation e agent declared y action db := by
  by_cases hLeaves : leavesAction db x action = true
  · have hEq : x = y := by
      have hRow : ({ x with higherOrderFor := y.higherOrderFor } : ImplementationRow J) = y := hSame
      rw [hWrapper hLeaves] at hRow
      exact hRow
    rw [hEq]
  · have hAction : x.actionId = y.actionId := by rw [← hSame]
    have hLeaves' : ¬ leavesAction db y action = true := by
      rw [leavesAction, ← hAction]
      exact hLeaves
    unfold repointImplementation leaveAction
    rw [if_neg hLeaves, if_neg hLeaves', hSame.id]
    rfl

theorem writeImplementation_ok {wanted : List Lookup} {interface : String} {action id : Nat}
    {declared : Declared J} {prefetch' : Prefetch J} (hC : Constraints db)
    (h : Mirrors agent wanted db prefetch)
    (hOk : writeImplementation e agent interface declared action db prefetch =
      .ok (id, db', prefetch')) :
    Constraints db' ∧ Mirrors agent wanted db' prefetch' ∧ ∀ a ∈ db'.actions, a ∈ db.actions := by
  unfold writeImplementation at hOk
  have hRewritten : ∃ row, Rewritten agent row db db' ∧
      prefetch' = prefetch.insertImplementation row := by
    cases hCached : prefetch.implementations interface with
    | some x =>
        rw [hCached] at hOk
        obtain ⟨i, hi, hIs, hSame⟩ := h.present interface x hCached
        obtain ⟨db₁, hRepoint, hOk⟩ := bind_eq_ok.1 hOk
        cases hOk
        have hPlace : i.place = (agent.id, x.interface) := by
          have hInterface : x.interface = i.row.interface := by rw [← hSame]
          rw [implementation_isOf_iff.1 hIs, hInterface]
          exact congrArg (fun p => (agent.id, p.2)) (implementation_isOf_iff.1 hIs).symm
        exact ⟨_, repointImplementation_ok hC hi hPlace hSame hRepoint, rfl⟩
    | none =>
        rw [hCached] at hOk
        obtain ⟨-, -, hOk⟩ := bind_eq_ok.1 hOk
        cases hOk
        refine ⟨_, rewritten_insert hC rfl rfl ?_, rfl⟩
        intro i hi hPlace
        have hAbsent := h.absent interface hCached i hi
        have hIs : i.isOf agent interface = true := implementation_isOf_iff.2 hPlace
        rw [hAbsent] at hIs
        cases hIs
  obtain ⟨row, hRewritten, rfl⟩ := hRewritten
  exact ⟨hRewritten.constraints, mirrors_rewritten h hRewritten, hRewritten.actions⟩

/-- What two prefetches hold of an interface, but for what it is a wrapper of, and of
that where the implementation is made again. -/
def SameCached (db : Tables J ρ) (action : Nat) : Option (ImplementationRow J) →
    Option (ImplementationRow J) → Prop
  | some x, some y => SameImplementation x y ∧
      (leavesAction db x action = true → y.higherOrderFor = x.higherOrderFor)
  | none, none => True
  | _, _ => False

theorem writeImplementation_agrees (e : Elsewhere J ρ) (agent : AgentIdentity)
    {interface : String} {action : Nat} (declared : Declared J)
    (hSame : SameCached db action (prefetch.implementations interface)
      (fresh.implementations interface)) :
    (writeImplementation e agent interface declared action db prefetch).map
        (fun written => (written.1, written.2.1)) =
      (writeImplementation e agent interface declared action db fresh).map
        (fun written => (written.1, written.2.1)) := by
  unfold writeImplementation
  cases hCached : prefetch.implementations interface with
  | none =>
      cases hFresh : fresh.implementations interface with
      | none =>
          dsimp only
          cases db.checked _ <;> rfl
      | some y =>
          rw [hCached, hFresh] at hSame
          cases hSame
  | some x =>
      cases hFresh : fresh.implementations interface with
      | none =>
          rw [hCached, hFresh] at hSame
          cases hSame
      | some y =>
          rw [hCached, hFresh] at hSame
          obtain ⟨hSame, hWrapper⟩ := hSame
          dsimp only
          rw [repointImplementation_agrees hSame hWrapper, hSame.id]
          cases repointImplementation e agent declared y action db <;> rfl

theorem finishImplementation_ok {wanted : List Lookup} {id : Nat} (hC : Constraints db)
    (h : Mirrors agent wanted db prefetch)
    (hOk : finishImplementation e input id db = .ok db') :
    Constraints db' ∧ Mirrors agent wanted db' prefetch ∧ db'.actions = db.actions := by
  obtain ⟨rest, -, hOk⟩ := bind_eq_ok.1 hOk
  cases hOk
  let flag : Implementation J → Implementation J := fun i => { i with
    dynamicAsks := input.dynamicAsks.getD false
    dynamicCalls := input.dynamicCalls.getD false
    dynamicInforms := input.dynamicInforms.getD false }
  have hC' := hC.updateImplementation (f := flag) (fun _ => rfl) (fun _ => rfl) id
  refine ⟨⟨hC'.actionIds, hC'.actionPlaces, hC'.actionSequence, hC'.implementationIds,
    hC'.implementationPlaces, hC'.implementationSequence⟩,
    ⟨h.missing, h.known, h.cached, ?_, ?_⟩, rfl⟩
  · intro interface hNone j hj
    obtain ⟨i, hi, rfl⟩ := mem_updateAt.1 hj
    have hAbsent := h.absent interface hNone i hi
    by_cases hId : i.row.id = id
    · rw [if_pos hId]
      exact hAbsent
    · rw [if_neg hId]
      exact hAbsent
  · intro interface x hx
    obtain ⟨i, hi, hIs, hSame⟩ := h.present interface x hx
    by_cases hId : i.row.id = id
    · subst hId
      exact ⟨flag i, mem_updateAt_self hi, hIs, hSame⟩
    · exact ⟨i, mem_updateAt.2 ⟨i, hi, if_neg hId⟩, hIs, hSame⟩

/-! ## A turn -/

theorem sameCached_of_turn {wanted : List Lookup} {c settled : ActionRow J} {a : Action J}
    {db₁ db₂ : Tables J ρ} {prefetch' : Prefetch J} {rebuilt : Bool} (hC : Constraints db)
    (h : Mirrors agent wanted db prefetch) (hTurn : Turn e db prefetch input)
    (hUpserted : Upserted agent input db prefetch c a db₁ prefetch')
    (hSettled : Settled agent input db₁ a settled rebuilt db₂) :
    SameCached db₂ settled.id (prefetch.implementations input.interface)
      ((db.findImplementation agent input.interface).map (·.row)) := by
  cases hCached : prefetch.implementations input.interface with
  | none =>
      have hNone : db.findImplementation agent input.interface = none :=
        find_none (h.absent _ hCached)
      rw [hNone]
      trivial
  | some x =>
      obtain ⟨i, hi, hIs, hSame⟩ := h.present _ x hCached
      rw [hC.findImplementation hi hIs]
      refine ⟨hSame, ?_⟩
      intro hLeaves
      have hUnchanged : db₂.implementations = db.implementations :=
        hSettled.only.implementations.trans hUpserted.only.implementations
      have hId : settled.id = c.id := hSettled.id.trans hUpserted.same.id.symm
      apply hTurn.wrapper x settled.id hCached
      · intro c' hc'
        rw [hId]
        exact hUpserted.before c' hc'
      · unfold leavesAction at hLeaves ⊢
        rw [← hUnchanged]
        exact hLeaves
      · exact hi
      · exact hSame.id.symm

section

variable [DecidableEq J]

/-- An action is settled as its row is. -/
theorem settleAction_agrees {c : ActionRow J} {a : Action J} {idempotent changed : Bool}
    {db₁ : Tables J ρ} {prefetch' : Prefetch J} (hC₁ : Constraints db₁)
    (hUpserted : Upserted agent input db prefetch c a db₁ prefetch')
    (hEffective : idempotent = (input.definition.idempotent || input.definition.pure)) :
    settleAction e input idempotent changed c db₁ =
      settleAction e input idempotent changed a.row db₁ := by
  have hSync := syncQualifiers_agrees hC₁ hUpserted.mem hUpserted.same hUpserted.qualifiers
  unfold settleAction
  rw [hEffective]
  dsimp only
  rw [← ImplementationInput.qualifiers, hSync]

/-- A turn with the shared prefetch is a turn with a fresh one. -/
theorem createImplementation_agrees {wanted : List Lookup} (hC : Constraints db)
    (h : Mirrors agent wanted db prefetch) (hTurn : Turn e db prefetch input)
    (hWanted : input.definition.lookup ∈ wanted) :
    (createImplementation e agent input db prefetch).map (fun made => (made.1, made.2.1)) =
      (createImplementation e agent input db
        (Prefetch.load db agent [input.definition.lookup])).map
          (fun made => (made.1, made.2.1)) := by
  unfold createImplementation
  cases hIdempotent : validateQualifiers input.definition input.effects with
  | error => rfl
  | ok idempotent =>
  cases hDescriptors : e.checkDescriptors db.rest input with
  | error => rfl
  | ok =>
  cases hPath : input.estimatedRuntime.mapM e.compileEstimate with
  | error => rfl
  | ok path =>
  cases hDiagnostics : e.collectDiagnostics db.rest input with
  | error => rfl
  | ok diagnostics =>
  have hEffective := validateQualifiers_ok hIdempotent
  obtain ⟨c, a, changed, db₁, prefetch₁, fresh₁, hUpsert, hFresh, hUpserted, hCached⟩ :=
    upsert_agrees hC h hTurn hWanted hEffective rfl
  have hC₁ := hUpserted.only.constraints hC
  have hSettle := @settleAction_agrees J ρ e agent db prefetch input _ c a idempotent changed db₁
    prefetch₁ hC₁ hUpserted hEffective
  dsimp only [Bind.bind, Except.bind]
  rw [hUpsert, hFresh]
  dsimp only
  rw [hSettle]
  cases hSettled : settleAction e input idempotent changed a.row db₁ with
  | error => rfl
  | ok settled =>
  obtain ⟨⟨action, rebuilt⟩, db₂⟩ := settled
  dsimp only
  have hSame : SameCached db₂ action.id
      ((cacheSettled rebuilt action prefetch₁).implementations input.interface)
      ((cacheSettled rebuilt action fresh₁).implementations input.interface) := by
    have hShared : (cacheSettled rebuilt action prefetch₁).implementations =
        prefetch.implementations := by
      cases rebuilt <;> exact hUpserted.cachedImplementations
    have hLoaded : (cacheSettled rebuilt action fresh₁).implementations =
        (Prefetch.load db agent [input.definition.lookup]).implementations := by
      cases rebuilt <;> exact hCached
    rw [hShared, hLoaded, load_implementations]
    exact sameCached_of_turn hC h hTurn hUpserted (settleAction_ok hUpserted.mem hUpserted.isOf
      hEffective hSettled)
  have hWrite := writeImplementation_agrees e agent
    (declaredOf e input diagnostics path action) hSame
  generalize writeImplementation e agent input.interface
    (declaredOf e input diagnostics path action) action.id db₂
    (cacheSettled rebuilt action prefetch₁) = written at hWrite
  generalize writeImplementation e agent input.interface
    (declaredOf e input diagnostics path action) action.id db₂
    (cacheSettled rebuilt action fresh₁) = written' at hWrite
  cases written with
  | error =>
      cases written' with
      | error => cases hWrite; rfl
      | ok => cases hWrite
  | ok written =>
      cases written' with
      | error => cases hWrite
      | ok written' =>
          obtain ⟨id, db₃, prefetch₃⟩ := written
          obtain ⟨id', db₃', fresh₃⟩ := written'
          cases hWrite
          dsimp only
          cases finishImplementation e input id db₃ <;> rfl

/-- What a turn leaves: the prefetch mirrors the tables again, the declared action has
the declared qualifiers, and no other action was written. -/
structure Turned (agent : AgentIdentity) (input : ImplementationInput J) (wanted : List Lookup)
    (db db' : Tables J ρ) (prefetch' : Prefetch J) : Prop where
  constraints : Constraints db'
  mirrors : Mirrors agent wanted db' prefetch'
  qualifiers : ∀ a ∈ db'.actions, a.isOf agent input.definition.lookup = true →
    a.row.qualifiers = input.qualifiers
  others : ∀ a ∈ db'.actions, a.isOf agent input.definition.lookup = false → a ∈ db.actions

theorem createImplementation_ok {wanted : List Lookup} {id : Nat} {prefetch' : Prefetch J}
    (hC : Constraints db) (h : Mirrors agent wanted db prefetch)
    (hTurn : Turn e db prefetch input) (hWanted : input.definition.lookup ∈ wanted)
    (hOk : createImplementation e agent input db prefetch = .ok (id, db', prefetch')) :
    Turned agent input wanted db db' prefetch' := by
  obtain ⟨idempotent, hIdempotent, hOk⟩ := bind_eq_ok.1 hOk
  obtain ⟨-, -, hOk⟩ := bind_eq_ok.1 hOk
  obtain ⟨path, -, hOk⟩ := bind_eq_ok.1 hOk
  obtain ⟨diagnostics, -, hOk⟩ := bind_eq_ok.1 hOk
  have hEffective := validateQualifiers_ok hIdempotent
  obtain ⟨c, a, changed, db₁, prefetch₁, -, hUpsert, -, hUpserted, -⟩ :=
    upsert_agrees hC h hTurn hWanted hEffective rfl
  obtain ⟨upserted, hUpsert', hOk⟩ := bind_eq_ok.1 hOk
  cases hUpsert.symm.trans hUpsert'
  obtain ⟨⟨⟨settled, rebuilt⟩, db₂⟩, hSettle, hOk⟩ := bind_eq_ok.1 hOk
  obtain ⟨⟨id', db₃, prefetch₃⟩, hWrite, hOk⟩ := bind_eq_ok.1 hOk
  obtain ⟨db₄, hFinish, hOk⟩ := bind_eq_ok.1 hOk
  cases hOk
  have hC₁ := hUpserted.only.constraints hC
  have hSettled : Settled agent input db₁ a settled rebuilt db₂ := by
    apply settleAction_ok hUpserted.mem hUpserted.isOf hEffective
    rw [← settleAction_agrees hC₁ hUpserted hEffective]
    exact hSettle
  have hMirrors₂ := mirrors_settled hC h hUpserted hSettled
  have hC₂ := hSettled.only.constraints hC₁
  obtain ⟨hC₃, hMirrors₃, hActions₃⟩ := writeImplementation_ok hC₂ hMirrors₂ hWrite
  obtain ⟨hC₄, hMirrors₄, hActions₄⟩ := finishImplementation_ok hC₃ hMirrors₃ hFinish
  obtain ⟨b, hb, hRow, hIs⟩ := hSettled.mem
  have hBefore : ∀ a' ∈ db'.actions, a' ∈ db₂.actions := by
    intro a' ha'
    rw [hActions₄] at ha'
    exact hActions₃ a' ha'
  refine ⟨hC₄, hMirrors₄, ?_, ?_⟩
  · intro a' ha' hIs'
    have hPlace := (isOf_iff.1 hIs').trans (isOf_iff.1 hIs).symm
    rw [hC₂.actionPlaces a' (hBefore a' ha') b hb hPlace, hRow]
    exact hSettled.qualifiers
  · intro a' ha' hIsNot
    have hNe : a'.row.id ≠ c.id := by
      intro hEq
      have hSelf : a' = b := by
        apply hC₂.actionIds a' (hBefore a' ha') b hb
        show a'.row.id = b.row.id
        rw [hEq, hRow, hSettled.id, hUpserted.same.id]
      rw [hSelf, hIs] at hIsNot
      cases hIsNot
    have hMem₁ := (hSettled.only.others a' (hUpserted.same.id ▸ hNe)).1 (hBefore a' ha')
    exact (hUpserted.only.others a' hNe).1 hMem₁

/-! ## The loop -/

/-- Every turn of the loop meets what a fresh prefetch would hold. -/
def Turns (e : Elsewhere J ρ) (agent : AgentIdentity) :
    List (ImplementationInput J) → Tables J ρ → Prefetch J → Prop
  | [], _, _ => True
  | input :: rest, db, prefetch => Turn e db prefetch input ∧ ∀ id db' prefetch',
      createImplementation e agent input db prefetch = .ok (id, db', prefetch') →
        Turns e agent rest db' prefetch'

theorem implementAgent_agrees {wanted : List Lookup} (declared : List (ImplementationInput J)) :
    ∀ {db : Tables J ρ} {prefetch : Prefetch J}, Constraints db →
      Mirrors agent wanted db prefetch → Turns e agent declared db prefetch →
      (∀ input ∈ declared, input.definition.lookup ∈ wanted) →
      implementAgent e agent declared db prefetch = implementInTurn e agent declared db := by
  induction declared with
  | nil =>
      intro db prefetch _ _ _ _
      rfl
  | cons input rest ih =>
      intro db prefetch hC h hTurns hWanted
      obtain ⟨hTurn, hTurns⟩ := hTurns
      have hIn := hWanted input List.mem_cons_self
      have hAgrees := createImplementation_agrees hC h hTurn hIn
      rw [implementAgent, implementInTurn]
      cases hMade : createImplementation e agent input db prefetch with
      | error =>
          rw [hMade] at hAgrees
          cases hFresh : createImplementation e agent input db
              (Prefetch.load db agent [input.definition.lookup]) with
          | error =>
              rw [hFresh] at hAgrees
              cases hAgrees
              rfl
          | ok =>
              rw [hFresh] at hAgrees
              cases hAgrees
      | ok made =>
          obtain ⟨id, db', prefetch'⟩ := made
          rw [hMade] at hAgrees
          have hTurned := createImplementation_ok hC h hTurn hIn hMade
          have hRest := ih hTurned.constraints hTurned.mirrors (hTurns id db' prefetch' hMade)
            fun later hLater => hWanted later (List.mem_cons_of_mem _ hLater)
          cases hFresh : createImplementation e agent input db
              (Prefetch.load db agent [input.definition.lookup]) with
          | error =>
              rw [hFresh] at hAgrees
              cases hAgrees
          | ok fresh =>
              obtain ⟨id', db'', fresh'⟩ := fresh
              rw [hFresh] at hAgrees
              cases hAgrees
              exact hRest

omit [DecidableEq J] in
/-- A fresh prefetch is what a fresh prefetch would hold. -/
theorem turn_load (hC : Constraints db) :
    Turn e db (Prefetch.load db agent [input.definition.lookup]) input := by
  constructor
  · intro c hc
    rw [load_actions] at hc
    obtain ⟨a, hFound, rfl⟩ := Option.map_eq_some_iff.1 hc
    exact ⟨a, List.mem_of_find?_eq_some hFound, rfl, fun _ hQualifiers => hQualifiers⟩
  · intro x action hx _ _ i hi hId
    rw [load_implementations] at hx
    obtain ⟨j, hFound, rfl⟩ := Option.map_eq_some_iff.1 hx
    rw [hC.implementationIds i hi j (List.mem_of_find?_eq_some hFound) hId]

theorem implementInTurn_cons {declared : List (ImplementationInput J)}
    (hC : Constraints db) (hOk : implementInTurn e agent (input :: declared) db = .ok db') :
    ∃ db₁ fresh', Turned agent input [input.definition.lookup] db db₁ fresh' ∧
      implementInTurn e agent declared db₁ = .ok db' := by
  rw [implementInTurn] at hOk
  obtain ⟨⟨id, db₁, fresh'⟩, hMade, hOk⟩ := bind_eq_ok.1 hOk
  refine ⟨db₁, fresh', ?_, hOk⟩
  exact createImplementation_ok hC (mirrors_load hC _) (turn_load hC)
    (List.mem_singleton.2 rfl) hMade

/-- Actions that are not declared are not written. -/
theorem implementInTurn_others (declared : List (ImplementationInput J)) {lookup : Lookup} :
    ∀ {db : Tables J ρ}, Constraints db → implementInTurn e agent declared db = .ok db' →
      (∀ input ∈ declared, input.definition.lookup ≠ lookup) →
      ∀ a ∈ db'.actions, a.isOf agent lookup = true → a ∈ db.actions := by
  induction declared with
  | nil =>
      intro db _ hOk _ a ha _
      cases hOk
      exact ha
  | cons input rest ih =>
      intro db hC hOk hOther a ha hIs
      obtain ⟨db₁, fresh', hTurned, hRest⟩ := implementInTurn_cons hC hOk
      have hMem := ih hTurned.constraints hRest
        (fun later hLater => hOther later (List.mem_cons_of_mem _ hLater)) a ha hIs
      apply hTurned.others a hMem
      by_contra hTrue
      have hIs' : a.isOf agent input.definition.lookup = true := by simpa using hTrue
      have hPlace := (isOf_iff.1 hIs').symm.trans (isOf_iff.1 hIs)
      exact hOther input List.mem_cons_self (congrArg (·.2.2) hPlace)

/-- An action carries the qualifiers of the last implementation that declared it. -/
theorem implementInTurn_qualifiers (before after : List (ImplementationInput J)) :
    ∀ {db : Tables J ρ}, Constraints db →
      implementInTurn e agent (before ++ input :: after) db = .ok db' →
      (∀ later ∈ after, later.definition.lookup ≠ input.definition.lookup) →
      ∀ a ∈ db'.actions, a.isOf agent input.definition.lookup = true →
        a.row.qualifiers = input.qualifiers := by
  induction before with
  | nil =>
      intro db hC hOk hLast a ha hIs
      obtain ⟨db₁, fresh', hTurned, hRest⟩ := implementInTurn_cons hC hOk
      have hMem := implementInTurn_others after hTurned.constraints hRest hLast a ha hIs
      exact hTurned.qualifiers a hMem hIs
  | cons first rest ih =>
      intro db hC hOk hLast a ha hIs
      obtain ⟨db₁, fresh', hTurned, hRest⟩ := implementInTurn_cons hC hOk
      exact ih hTurned.constraints hRest hLast a ha hIs

/-- **A batch is one by one** when every turn meets what a fresh prefetch would hold, and
then an action carries the qualifiers of the last implementation that declared it. -/
theorem batch_is_one_by_one (e : Elsewhere J ρ) (agent : AgentIdentity)
    (declared : List (ImplementationInput J)) (db : Tables J ρ) (hC : Constraints db)
    (hTurns : Turns e agent declared db (Prefetch.ofBatch db agent declared)) :
    implementAgent e agent declared db (Prefetch.ofBatch db agent declared) =
      implementInTurn e agent declared db ∧
    ∀ db', implementAgent e agent declared db (Prefetch.ofBatch db agent declared) = .ok db' →
      ∀ before input after, declared = before ++ input :: after →
        (∀ later ∈ after, later.definition.lookup ≠ input.definition.lookup) →
        ∀ a ∈ db'.actions, a.isOf agent input.definition.lookup = true →
          a.row.qualifiers = input.qualifiers := by
  have hAgrees := implementAgent_agrees declared hC (mirrors_load hC _) hTurns
    fun input hInput => List.mem_map_of_mem hInput
  refine ⟨hAgrees, ?_⟩
  intro db' hOk before input after hDeclared hLast
  rw [Prefetch.ofBatch, hAgrees, hDeclared] at hOk
  exact implementInTurn_qualifiers before after hC hOk hLast

end

/-! ## Three declarations -/

/-- A server whose other tables refuse nothing; a hash tells definitions apart by what
they are called. -/
def plain : Elsewhere Nat Unit where
  uniqueHash definition := definition.key ++ "/" ++ definition.version ++ "/" ++ definition.name
  inferActionScope _ := "GLOBAL"
  now := 0
  emptyObject := 0
  compileEstimate _ := .ok ""
  estimatePort _ := none
  deriveFromAction _ _ := none
  checkDescriptors _ _ := .ok ()
  collectDiagnostics _ _ := .ok 0
  syncActionRows rest _ _ := .ok rest
  hasPorts _ _ := (false, false)
  rebuildPortRows rest _ _ := .ok rest
  linkAction _ rest _ _ := .ok rest
  deleteActionRows rest _ _ := .ok rest
  syncImplementationRows rest _ _ := .ok rest

def microscope : AgentIdentity := { id := 7, app := 1, user := 1, organization := 1 }

/-- A declared function, pure or not, under an interface. -/
def function (key interface : String) (pure : Bool) : ImplementationInput Nat where
  definition := { key, version := "1", name := key, portGroups := 0, pure }
  interface := interface
  others := 0

/-- The tables after the agent declared one function. -/
def declaredOnce : Tables Nat Unit where
  actions := [{ (function "segment" "run" false).definition.newAction microscope
    "segment/1/segment" "GLOBAL" false 1 with organizationId := 1 }]
  implementations := [{
    row := { id := 1, interface := "run", actionId := 1, higherOrderConfig := 0
             higherOrderFor := none, createdAt := 0 }
    agentId := 7
    declared := declaredOf plain (function "segment" "run" false) 0 none
      ((function "segment" "run" false).definition.newAction microscope "" "" false 1).row }]
  nextAction := 2
  nextImplementation := 2
  rest := ()

/-- Which action each implementation is of, and the pure ones among the actions. -/
def summary (made : Except Refusal (Tables Nat Unit)) :
    Option (List (Nat × Bool) × List (Nat × Nat)) :=
  made.toOption.map fun db => (db.actions.map fun a => (a.row.id, a.row.qualifiers.pure),
    db.implementations.map fun i => (i.row.id, i.row.actionId))

/-- Two functions, the second one stored already and declared anew as pure. -/
def redeclared : List (ImplementationInput Nat) :=
  [function "denoise" "denoise" false, function "segment" "run" true]

theorem constraints_declaredOnce : Constraints declaredOnce := by
  constructor
  · intro a ha b hb _
    rw [List.mem_singleton.1 ha, List.mem_singleton.1 hb]
  · intro a ha b hb _
    rw [List.mem_singleton.1 ha, List.mem_singleton.1 hb]
  · decide
  · intro i hi j hj _
    rw [List.mem_singleton.1 hi, List.mem_singleton.1 hj]
  · intro i hi j hj _
    rw [List.mem_singleton.1 hi, List.mem_singleton.1 hj]
  · decide

/-- The batch of both is one by one. -/
theorem redeclared_is_one_by_one :
    implementAgent plain microscope redeclared declaredOnce
        (Prefetch.ofBatch declaredOnce microscope redeclared) =
      implementInTurn plain microscope redeclared declaredOnce := by
  have hTurns : Turns plain microscope redeclared declaredOnce
      (Prefetch.ofBatch declaredOnce microscope redeclared) := by
    refine ⟨⟨?_, ?_⟩, ?_⟩
    · intro c hc
      cases hc
    · intro x action hx
      cases hx
    · intro id db' prefetch' hMade
      cases hMade
      refine ⟨⟨?_, ?_⟩, fun _ _ _ _ => trivial⟩
      · intro c hc
        cases hc
        exact ⟨_, List.mem_cons_self, rfl, fun _ hQualifiers => by cases hQualifiers⟩
      · intro x action hx hAction hLeaves
        cases hx
        -- the interface stays with its action
        cases hAction _ rfl
        cases hLeaves
  exact (batch_is_one_by_one plain microscope redeclared declaredOnce constraints_declaredOnce
    hTurns).1

/-- An interface moved to another action takes the last implementation of its old one,
which a second interface takes over: one by one it is made again, in a batch the second
implementation is of an action that is gone.  And declared twice under one interface, the
last time as it was stored, an action keeps the qualifiers of the first. -/
theorem batch_is_not_one_by_one : Constraints declaredOnce ∧
    (summary (implementInTurn plain microscope [function "denoise" "run" false,
        function "segment" "segment" false] declaredOnce) =
        some ([(2, false), (3, false)], [(1, 2), (2, 3)]) ∧
      summary (implementAgent plain microscope [function "denoise" "run" false,
        function "segment" "segment" false] declaredOnce
          (Prefetch.ofBatch declaredOnce microscope [function "denoise" "run" false,
            function "segment" "segment" false])) =
        some ([(2, false)], [(1, 2), (2, 1)])) ∧
    summary (implementInTurn plain microscope [function "segment" "run" true,
        function "segment" "run" false] declaredOnce) = some ([(1, false)], [(1, 1)]) ∧
      summary (implementAgent plain microscope [function "segment" "run" true,
        function "segment" "run" false] declaredOnce
          (Prefetch.ofBatch declaredOnce microscope [function "segment" "run" true,
            function "segment" "run" false])) = some ([(1, true)], [(1, 1)]) := by
  refine ⟨constraints_declaredOnce, ⟨?_, ?_⟩, ?_, ?_⟩
  · decide +kernel
  · decide +kernel
  · decide +kernel
  · decide +kernel

end Rekuest.Registration
