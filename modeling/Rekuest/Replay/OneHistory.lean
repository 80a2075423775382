import Mathlib.Data.List.Dedup
import Rekuest.Replay.AnySession

/-!
# One history, one state

What the readers return of a recorded history, side by side; and the two sessions that are mixed
where no session is named.
-/

namespace Rekuest.Replay

variable {V : Type} {apply : PatchDoc V → V → Option V} {h : History V}

/-! ## The states of a read -/

/-- Every result of a run over a list is that of one of it, and each of it has one. -/
theorem mapM_ok {α β ε : Type} {f : α → Except ε β} : ∀ {l : List α} {results : List β},
    l.mapM f = .ok results → List.Forall₂ (fun a b => f a = .ok b) l results := by
  intro l
  induction l with
  | nil =>
      intro results hRun
      rw [List.mapM_nil] at hRun
      rw [← show [] = results from Except.ok.inj hRun]
      exact List.Forall₂.nil
  | cons a rest ih =>
      intro results hRun
      rw [List.mapM_cons] at hRun
      cases hOne : f a with
      | error failure =>
          rw [hOne] at hRun
          cases hRun
      | ok b =>
          rw [hOne] at hRun
          cases hRest : rest.mapM f with
          | error failure =>
              rw [hRest] at hRun
              cases hRun
          | ok bs =>
              rw [hRest] at hRun
              rw [← show b :: bs = results from Except.ok.inj hRun]
              exact List.Forall₂.cons hOne (ih hRest)

theorem mapM_some {α β ε : Type} {f : α → Except ε β} : ∀ {l : List α},
    (∀ a ∈ l, ∃ b, f a = .ok b) → ∃ results, l.mapM f = .ok results := by
  intro l
  induction l with
  | nil =>
      intro _
      exact ⟨[], rfl⟩
  | cons a rest ih =>
      intro hEach
      obtain ⟨b, hOne⟩ := hEach a List.mem_cons_self
      obtain ⟨bs, hRest⟩ := ih fun c hc => hEach c (List.mem_cons_of_mem a hc)
      refine ⟨b :: bs, ?_⟩
      rw [List.mapM_cons, hOne, hRest]
      rfl

/-- What is paired with one side's members. -/
theorem forall₂_left {α β : Type} {R : α → β → Prop} {l : List α} {l' : List β}
    (hEach : List.Forall₂ R l l') : ∀ a ∈ l, ∃ b ∈ l', R a b := by
  induction hEach with
  | nil =>
      intro a ha
      cases ha
  | cons hHead _ ih =>
      intro a ha
      rcases List.mem_cons.1 ha with hIs | hLater
      · rw [hIs]
        exact ⟨_, List.mem_cons_self, hHead⟩
      · obtain ⟨b, hb, hR⟩ := ih a hLater
        exact ⟨b, List.mem_cons_of_mem _ hb, hR⟩

theorem forall₂_right {α β : Type} {R : α → β → Prop} {l : List α} {l' : List β}
    (hEach : List.Forall₂ R l l') : ∀ b ∈ l', ∃ a ∈ l, R a b :=
  forall₂_left hEach.flip

/-- A reading of one session's state returns, and returns it where the session has started it. -/
theorem named_reading (hRecorded : Recorded apply h) (hKept : Kept h) {t : Session} (ht : t ∈ h.sessions)
    (hNamed : t.session_id ≠ "") (r : Int) (state : Nat) :
    ∃ found, get_state_at_revision apply h r state (some t.session_id) = .ok found ∧
      (∀ result, found = some result → ReadOf apply h t.id state r result) ∧
      (Started h t.id state r → found.isSome = true) := by
  cases hAnchor : anchor_snapshot h r state (some t.session_id) with
  | none =>
      refine ⟨none, ?_, nofun, ?_⟩
      · unfold get_state_at_revision
        rw [hAnchor]
      · intro hStarted
        obtain ⟨a, ha, hSession, hState, hLe⟩ := hStarted
        have hMem : a ∈ h.snapshots.filter fun a => a.state = state &&
            in_session h (some t.session_id) a.session && decide (a.global_rev ≤ r) := by
          rw [List.mem_filter, in_session_named hKept ht hNamed, decide_eq_true hState,
            decide_eq_true hSession, decide_eq_true hLe]
          exact ⟨ha, rfl⟩
        obtain ⟨b, hFirst⟩ := first_by_some (fun a b : Snapshot V => b.global_rev < a.global_rev) hMem
        unfold anchor_snapshot at hAnchor
        rw [hAnchor] at hFirst
        cases hFirst
  | some anchor =>
      have hMem := first_by_mem hAnchor
      obtain ⟨-, hIs⟩ := List.mem_filter.1 hMem
      rw [Bool.and_eq_true, Bool.and_eq_true, in_session_named hKept ht hNamed, decide_eq_true_iff,
        decide_eq_true_iff] at hIs
      obtain ⟨result, hRead, hOf⟩ :=
        at_revision hRecorded hAnchor hIs.1.2 (patches_named hKept ht hNamed anchor r state)
      refine ⟨some result, hRead, ?_, fun _ => rfl⟩
      intro result' hIs
      rw [← Option.some.inj hIs]
      exact hOf

/-- A read of one session, of a state or of all. -/
theorem named_read (hRecorded : Recorded apply h) (hKept : Kept h) {t : Session} (ht : t ∈ h.sessions)
    (hNamed : t.session_id ≠ "") (r : Int) (state_id : Option Nat) :
    ∃ results, state_at_global_rev apply h r state_id (some t.session_id) = .ok results ∧
      (∀ result ∈ results, ReadOf apply h t.id result.state r result) ∧
      ∀ state, state_id.all (state = ·) = true → Started h t.id state r →
        ∃ result ∈ results, result.state = state := by
  have hCovers : ∃ ids : List Nat, state_at_global_rev apply h r state_id (some t.session_id) =
        (ids.mapM fun id => get_state_at_revision apply h r id (some t.session_id)).map (·.filterMap id) ∧
      ∀ state, state_id.all (state = ·) = true → Started h t.id state r → state ∈ ids := by
    cases state_id with
    | some id =>
        refine ⟨[id], rfl, ?_⟩
        intro state hOf _
        exact List.mem_singleton.2 (of_decide_eq_true hOf)
    | none =>
        refine ⟨get_state_ids h (some t.session_id), rfl, ?_⟩
        intro state _ hStarted
        obtain ⟨a, ha, hSession, hState, -⟩ := hStarted
        unfold get_state_ids
        rw [List.mem_insertionSort, List.mem_dedup, List.mem_append]
        left
        apply List.mem_map.2
        refine ⟨a, List.mem_filter.2 ⟨ha, ?_⟩, hState⟩
        rw [in_session_named hKept ht hNamed]
        exact decide_eq_true hSession
  obtain ⟨ids, hRun, hCovered⟩ := hCovers
  obtain ⟨found, hFound⟩ := mapM_some (l := ids)
    (f := fun id => get_state_at_revision apply h r id (some t.session_id)) fun id _ =>
      (named_reading hRecorded hKept ht hNamed r id).imp fun _ hBoth => hBoth.1
  have hEach := mapM_ok hFound
  rw [hRun, hFound]
  refine ⟨found.filterMap id, rfl, ?_, ?_⟩
  · intro result hResult
    obtain ⟨one, hOne, hIs⟩ := List.mem_filterMap.1 hResult
    obtain ⟨state, -, hRead⟩ := forall₂_right hEach one hOne
    obtain ⟨found', hRead', hOf, -⟩ := named_reading hRecorded hKept ht hNamed r state
    have hSame : one = found' := Except.ok.inj (hRead.symm.trans hRead')
    have hReadOf := hOf result (hSame.symm.trans hIs)
    rw [hReadOf.1]
    exact hReadOf
  · intro state hOf hStarted
    obtain ⟨one, hOne, hRead⟩ := forall₂_left hEach state (hCovered state hOf hStarted)
    obtain ⟨found', hRead', hOf', hSome⟩ := named_reading hRecorded hKept ht hNamed r state
    obtain ⟨result, hResult⟩ := Option.isSome_iff_exists.1 (hSome hStarted)
    have hSame : one = found' := Except.ok.inj (hRead.symm.trans hRead')
    exact ⟨result, List.mem_filterMap.2 ⟨one, hOne, hSame.trans hResult⟩, (hOf' result hResult).1⟩

/-! ## Every reader -/

/-- Two values of one session's state at a revision are one. -/
theorem IsAt.eq {s state : Nat} {r : Int} {value value' : V} (hStarted : Started h s state r)
    (hIs : IsAt apply h s state r value) (hIs' : IsAt apply h s state r value') : value = value' := by
  obtain ⟨a, ha, hSession, hState, hLe⟩ := hStarted
  exact Option.some.inj ((hIs a ha hSession hState hLe).symm.trans (hIs' a ha hSession hState hLe))

/-- Every reader that is asked of a session returns what the session's patches make of it,
whichever snapshot it starts from.  One that is asked of none does if, and only if, no other
session has a patch in what it reads. -/
theorem readers_agree (hRecorded : Recorded apply h) (hKept : Kept h) :
    (∀ s state r value value', Started h s state r → IsAt apply h s state r value →
      IsAt apply h s state r value' → value = value') ∧
    (∀ t ∈ h.sessions, t.session_id ≠ "" → session_of h (some t.session_id) = .ok (some t)) ∧
    (∀ state ∈ h.states, ∀ session_id t, session_of h session_id = .ok (some t) →
      ∀ global_revision r, Asked h t.id state.id global_revision r → ∀ forward backward,
        (∀ state_id : Option Nat, state_id.all (state.id = ·) = true → ∀ payload,
          get_latest_state apply h state_id session_id global_revision forward backward = .ok payload →
            ∃ entry, payload.states.find? (·.1 = state.interface) = some entry ∧
              IsAt apply h t.id state.id r entry.2) ∧
        (Started h t.id state.id r → ∃ payload, get_latest_state apply h (some state.id) session_id
          global_revision forward backward = .ok payload)) ∧
    (∀ state ∈ h.states, ∀ session_id global_revision timestamp t r,
      Target h (fun p => p.state = state.id) session_id global_revision timestamp t state.id r →
        ∀ forward backward,
          (∀ value, checkout apply h state.id session_id global_revision timestamp forward backward =
            .ok value → IsAt apply h t.id state.id r value.value) ∧
          (Started h t.id state.id r → ∃ value, checkout apply h state.id session_id global_revision
            timestamp forward backward = .ok value)) ∧
    (∀ state ∈ h.states, ∀ session_id global_revision timestamp t r,
      Target h (fun _ => true) session_id global_revision timestamp t state.id r →
        ∀ forward backward payload,
          checkout_agent apply h session_id global_revision timestamp forward backward = .ok payload →
            ∃ entry, payload.states.find? (·.1 = state.interface) = some entry ∧
              IsAt apply h t.id state.id r entry.2) ∧
    (∀ t ∈ h.sessions, t.session_id ≠ "" → ∀ r (state_id : Option Nat),
      ∃ results, state_at_global_rev apply h r state_id (some t.session_id) = .ok results ∧
        (∀ result ∈ results, ReadOf apply h t.id result.state r result) ∧
        ∀ state, state_id.all (state = ·) = true → Started h t.id state r →
          ∃ result ∈ results, result.state = state) ∧
    ∀ s state r, Started h s state r → ∃ a, Closest h state r a ∧
      ((∃ t result, a.session = some t ∧
          state_at_global_rev apply h r (some state) none = .ok [result] ∧
          patches_after h a r state none = between h (some t) state a.global_rev r ∧
          ReadOf apply h t state r result) ↔
        ∀ p ∈ h.patches, p.state = state → a.global_rev < p.global_rev → p.global_rev ≤ r →
          p.session = a.session) := by
  refine ⟨fun _ _ _ _ _ => IsAt.eq, fun t ht hNamed => session_of_named hKept ht hNamed, ?_, ?_, ?_,
    fun t ht hNamed r state_id => named_read hRecorded hKept ht hNamed r state_id, ?_⟩
  · intro state hMem session_id t hSession global_revision r hAsked forward backward
    constructor
    · intro state_id hOf payload hRead
      exact latest_isAt hRecorded hKept hSession hMem hOf hAsked hRead
    · intro hStarted
      apply latest_some forward backward hSession
      intro state' _ hOf
      have hIs : state'.id = state.id := of_decide_eq_true hOf
      rw [hIs]
      exact ⟨hAsked, hStarted⟩
  · intro state hMem session_id global_revision timestamp t r hTarget forward backward
    constructor
    · intro value hRead
      exact checkout_isAt hRecorded hKept hMem hTarget hRead
    · intro hStarted
      exact checkout_some hRecorded hKept forward backward hMem hTarget hStarted
  · intro state hMem session_id global_revision timestamp t r hTarget forward backward payload hRead
    exact checkout_agent_isAt hRecorded hKept hMem hTarget hRead
  · intro s state r hStarted
    obtain ⟨a, hClosest⟩ := exists_closest hStarted
    have hAnchor := hClosest.anchor
    refine ⟨a, hClosest, ?_⟩
    constructor
    · rintro ⟨t, result, hSession, -, hPatches, -⟩ p hp hState hAfter hUpTo
      rw [hSession]
      exact patches_any_iff.1 hPatches p hp hState hAfter hUpTo
    · intro hAll
      have hMem := (List.mem_filter.1 (first_by_mem hAnchor)).1
      obtain ⟨t, -, hSession⟩ := hRecorded.session a hMem
      rw [hSession] at hAll
      have hPatches := patches_any_iff.2 hAll
      obtain ⟨result, hRead, hOf⟩ := at_revision hRecorded hAnchor hSession hPatches
      refine ⟨t.id, result, hSession, ?_, hPatches, hOf⟩
      unfold state_at_global_rev
      dsimp only
      rw [List.mapM_cons, hRead]
      rfl

/-! ## A restart -/

/-- A document: a number, or an array of numbers. -/
inductive Document where
  | number (n : Int)
  | array (items : List Int)
  deriving DecidableEq

/-- `jsonpatch` on them: what replaces the document, and what is appended to an array. -/
def Document.patched (doc : PatchDoc Document) (document : Document) : Option Document :=
  match doc.op, doc.path, doc.value, document with
  | "replace", "", some value, _ => some value
  | "add", "/-", some (.number n), .array items => some (.array (items ++ [n]))
  | _, _, _, _ => none

/-- An agent that was restarted: both its processes start with an empty array and append to it. -/
def restarted : History Document where
  sessions := [⟨1, "first", 0⟩, ⟨2, "second", 100⟩]
  states := [⟨1, "positions"⟩]
  snapshots := [⟨1, 1, some 1, .array [], 0, 0⟩, ⟨2, 1, some 2, .array [], 100, 0⟩]
  patches := [⟨1, 1, some 1, "add", "/-", .number 5, 10, 1⟩, ⟨2, 1, some 2, "add", "/-", .number 7, 110, 1⟩]

/-- What is appended to an array always applies. -/
theorem appends {patches : List (Patch Document)} : ∀ {items : List Int},
    (∀ p ∈ patches, p ∈ restarted.patches) → (fold Document.patched patches (.array items)).isSome = true := by
  induction patches with
  | nil =>
      intro items _
      rfl
  | cons p rest ih =>
      intro items hAll
      unfold fold
      rw [List.foldlM_cons]
      have hApplies : ∃ n, Document.patched p.doc (.array items) = some (.array (items ++ [n])) := by
        rcases List.mem_cons.1 (hAll p List.mem_cons_self) with hIs | hLater
        · rw [hIs]
          exact ⟨5, rfl⟩
        · rw [List.mem_singleton.1 hLater]
          exact ⟨7, rfl⟩
      obtain ⟨n, hApply⟩ := hApplies
      rw [hApply]
      exact ih fun q hq => hAll q (List.mem_cons_of_mem p hq)

theorem restarted_recorded : Recorded Document.patched restarted where
  unique := by decide +kernel
  records := by decide +kernel
  applies := by
    intro a ha r
    have hArray : a.value = .array [] := by
      revert a
      decide +kernel
    unfold fold_at
    rw [hArray]
    apply appends
    intro p hp
    exact (mem_between.1 hp).1
  session := by decide +kernel
  sessions := by decide +kernel

theorem restarted_kept : Kept restarted where
  sessions := by decide +kernel
  states := by decide +kernel

/-- The second process has appended its own. -/
theorem second_process_read :
    Target restarted (fun p => p.state = 1) none none (some 200) ⟨2, "second", 100⟩ 1 1 ∧
      checkout Document.patched restarted 1 none none (some 200) 0 0 = .ok ⟨1, .array [7], 1, [], []⟩ ∧
      IsAt Document.patched restarted 2 1 1 (.array [7]) := by
  have hTarget : Target restarted (fun p => p.state = 1) none none (some 200) ⟨2, "second", 100⟩ 1 1 :=
    ⟨⟨2, 1, some 2, "add", "/-", .number 7, 110, 1⟩, by decide +kernel, by decide +kernel, rfl⟩
  have hRead : checkout Document.patched restarted 1 none none (some 200) 0 0 = .ok ⟨1, .array [7], 1, [], []⟩ := by
    rfl
  refine ⟨hTarget, hRead, ?_⟩
  have hReaders := readers_agree restarted_recorded restarted_kept
  exact (hReaders.2.2.2.1 ⟨1, "positions"⟩ (by decide +kernel) none none (some 200) _ 1 hTarget 0 0).1 _ hRead

/-- Where no session is named, what the second process appended is put behind what the first had. -/
theorem two_processes_mixed :
    Recorded Document.patched restarted ∧ Kept restarted ∧ Started restarted 1 1 1 ∧ Started restarted 2 1 1 ∧
      state_at_global_rev Document.patched restarted 1 (some 1) none =
        .ok [⟨0, 1, some 2, .array [5, 7], 110, 1⟩] ∧
      ¬ IsAt Document.patched restarted 1 1 1 (.array [5, 7]) ∧
      ¬ IsAt Document.patched restarted 2 1 1 (.array [5, 7]) := by
  have hFirst : Started restarted 1 1 1 :=
    ⟨⟨1, 1, some 1, .array [], 0, 0⟩, by decide +kernel, rfl, rfl, by decide +kernel⟩
  have hSecond : Started restarted 2 1 1 :=
    ⟨⟨2, 1, some 2, .array [], 100, 0⟩, by decide +kernel, rfl, rfl, by decide +kernel⟩
  refine ⟨restarted_recorded, restarted_kept, hFirst, hSecond, ?_, ?_, ?_⟩
  · rfl
  · intro hIs
    have hFold := hIs ⟨1, 1, some 1, .array [], 0, 0⟩ (by decide +kernel) rfl rfl (by decide +kernel)
    revert hFold
    decide +kernel
  · intro hIs
    have hFold := hIs ⟨2, 1, some 2, .array [], 100, 0⟩ (by decide +kernel) rfl rfl (by decide +kernel)
    revert hFold
    decide +kernel

end Rekuest.Replay
