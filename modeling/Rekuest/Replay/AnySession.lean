import Rekuest.Replay.Checkouts

/-!
# Any session

The other reader starts from the closest snapshot and applies what comes after it.  Asked of one
session it returns what the others do.  Asked of none it may start in one session and go on with
the patches of another: revisions restart with every session.
-/

namespace Rekuest.Replay

variable {V : Type} {apply : PatchDoc V → V → Option V} {h : History V}

/-! ## The closest snapshot -/

/-- The first, as the database keeps them, of a state's snapshots with the highest revision at or
before a given one. -/
def Closest (h : History V) (state : Nat) (r : Int) (a : Snapshot V) : Prop :=
  ∃ before after,
    h.snapshots.filter (fun b => b.state = state && decide (b.global_rev ≤ r)) = before ++ a :: after ∧
      (∀ b ∈ before, b.global_rev < a.global_rev) ∧ ∀ b ∈ after, b.global_rev ≤ a.global_rev

theorem foldl_kept {α : Type} {before : α → α → Bool} {a : α} : ∀ {rows : List α},
    (∀ b ∈ rows, before b a = false) →
      rows.foldl (fun best a =>
        match best with
        | none => some a
        | some b => if before a b then some a else some b) (some a) = some a := by
  intro rows
  induction rows with
  | nil =>
      intro _
      rfl
  | cons b rest ih =>
      intro hNone
      rw [List.foldl_cons]
      dsimp only
      rw [if_neg (by rw [hNone b List.mem_cons_self]; exact Bool.false_ne_true)]
      apply ih
      intro c hc
      exact hNone c (List.mem_cons_of_mem b hc)

/-- A row that comes before those that are kept in front of it, and not after those behind it. -/
theorem first_by_eq {α : Type} {before : α → α → Bool} {rows rows' : List α} {a : α}
    (hFront : ∀ b ∈ rows, before a b = true) (hBehind : ∀ b ∈ rows', before b a = false) :
    first_by before (rows ++ a :: rows') = some a := by
  unfold first_by
  rw [List.foldl_append, List.foldl_cons]
  cases hBest : rows.foldl (fun best a =>
      match best with
      | none => some a
      | some b => if before a b then some a else some b) none with
  | none => exact foldl_kept hBehind
  | some b =>
      dsimp only
      rw [if_pos (hFront b (first_by_mem hBest))]
      exact foldl_kept hBehind

/-- The closest snapshot is the anchor. -/
theorem Closest.anchor {state : Nat} {r : Int} {a : Snapshot V} (hClosest : Closest h state r a) :
    anchor_snapshot h r state none = some a := by
  obtain ⟨before, after, hRows, hBefore, hAfter⟩ := hClosest
  unfold anchor_snapshot
  have hAny : (h.snapshots.filter fun a =>
      a.state = state && in_session h none a.session && decide (a.global_rev ≤ r)) =
      h.snapshots.filter fun b => b.state = state && decide (b.global_rev ≤ r) := by
    apply List.filter_congr
    intro a _
    rw [show in_session h none a.session = true from rfl, Bool.and_true]
  rw [hAny, hRows]
  apply first_by_eq
  · intro b hb
    exact decide_eq_true (hBefore b hb)
  · intro b hb
    have hNot : ¬ a.global_rev < b.global_rev := by
      have hLe := hAfter b hb
      omega
    exact decide_eq_false hNot

/-- A state that any session has started at or before a revision has a closest snapshot. -/
theorem exists_closest {state : Nat} {r : Int} {s : Nat} (hStarted : Started h s state r) :
    ∃ a, Closest h state r a := by
  obtain ⟨a, ha, -, hState, hLe⟩ := hStarted
  have hMem : a ∈ h.snapshots.filter fun b => b.state = state && decide (b.global_rev ≤ r) := by
    rw [List.mem_filter, Bool.and_eq_true, decide_eq_true_iff, decide_eq_true_iff]
    exact ⟨ha, hState, hLe⟩
  unfold Closest
  revert hMem
  generalize (h.snapshots.filter fun b => b.state = state && decide (b.global_rev ≤ r)) = rows
  intro hMem
  have hSome : ∀ {rows : List (Snapshot V)}, rows ≠ [] → ∃ a before after, rows = before ++ a :: after ∧
      (∀ b ∈ before, b.global_rev < a.global_rev) ∧ ∀ b ∈ after, b.global_rev ≤ a.global_rev := by
    intro rows
    induction rows with
    | nil =>
        intro hNe
        exact absurd rfl hNe
    | cons b rest ih =>
        intro _
        by_cases hRest : rest = []
        · refine ⟨b, [], [], by rw [hRest]; rfl, ?_, ?_⟩
          · intro c hc
            cases hc
          · intro c hc
            cases hc
        · obtain ⟨a, before, after, hRows, hBefore, hAfter⟩ := ih hRest
          by_cases hLt : b.global_rev < a.global_rev
          · refine ⟨a, b :: before, after, by rw [hRows]; rfl, ?_, hAfter⟩
            intro c hc
            rcases List.mem_cons.1 hc with hIs | hLater
            · rw [hIs]
              exact hLt
            · exact hBefore c hLater
          · refine ⟨b, [], rest, rfl, ?_, ?_⟩
            · intro c hc
              cases hc
            · intro c hc
              rw [hRows] at hc
              rcases List.mem_append.1 hc with hFront | hBehind
              · have hLess := hBefore c hFront
                omega
              · rcases List.mem_cons.1 hBehind with hIs | hLater
                · rw [hIs]
                  omega
                · have hLe := hAfter c hLater
                  omega
  exact hSome (List.ne_nil_of_mem hMem)

/-! ## One reading -/

/-- Patches that all apply do so one after the other. -/
theorem apply_patch_ok {patches : List (Patch V)} : ∀ {value value' : V},
    fold apply patches value = some value' → apply_patch apply patches value = .ok value' := by
  induction patches with
  | nil =>
      intro value value' hFold
      exact congrArg Except.ok (Option.some.inj hFold)
  | cons p rest ih =>
      intro value value' hFold
      unfold fold at hFold
      rw [List.foldlM_cons] at hFold
      obtain ⟨mid, hApply, hRest⟩ := Option.bind_eq_some_iff.1 hFold
      unfold apply_patch
      rw [List.foldlM_cons, hApply]
      exact ih hRest

/-- A reading is of one session. -/
def ReadOf (apply : PatchDoc V → V → Option V) (h : History V) (session state : Nat) (r : Int)
    (result : Snapshot V) : Prop :=
  result.state = state ∧ result.session = some session ∧ result.global_rev ≤ r ∧
    IsAt apply h session state r result.value

/-- Where the patches that are read are the session's, so is what is read. -/
theorem at_revision (hRecorded : Recorded apply h) {session_id : Option String} {state : Nat} {r : Int}
    {anchor : Snapshot V} {s : Nat} (hAnchor : anchor_snapshot h r state session_id = some anchor)
    (hSession : anchor.session = some s)
    (hPatches : patches_after h anchor r state session_id = between h (some s) state anchor.global_rev r) :
    ∃ result, get_state_at_revision apply h r state session_id = .ok (some result) ∧
      ReadOf apply h s state r result := by
  have hMem : anchor ∈ h.snapshots.filter fun a =>
      a.state = state && in_session h session_id a.session && decide (a.global_rev ≤ r) :=
    first_by_mem hAnchor
  obtain ⟨hRow, hIs⟩ := List.mem_filter.1 hMem
  rw [Bool.and_eq_true, Bool.and_eq_true, decide_eq_true_iff, decide_eq_true_iff] at hIs
  obtain ⟨⟨hState, -⟩, hLe⟩ := hIs
  obtain ⟨value, hValue⟩ := Option.isSome_iff_exists.1 (hRecorded.applies anchor hRow r)
  have hIsAt : IsAt apply h s state r value := by
    intro a ha haSession haState har
    rw [fold_at_any hRecorded ha hRow (haSession.trans hSession.symm) (haState.trans hState.symm) har hLe]
    exact hValue
  unfold fold_at at hValue
  rw [hSession, hState, ← hPatches] at hValue
  unfold get_state_at_revision
  rw [hAnchor]
  dsimp only
  cases hLast : (patches_after h anchor r state session_id).getLast? with
  | none =>
      rw [List.getLast?_eq_none_iff.1 hLast] at hValue
      refine ⟨anchor, rfl, hState, hSession, hLe, ?_⟩
      rw [show anchor.value = value from Option.some.inj hValue]
      exact hIsAt
  | some last =>
      dsimp only
      rw [apply_patch_ok hValue]
      have hIn := List.mem_of_getLast? hLast
      rw [hPatches] at hIn
      obtain ⟨-, hLastState, hLastSession, -, hLastLe⟩ := mem_between.1 hIn
      exact ⟨_, rfl, hLastState, hLastSession, hLastLe, hIsAt⟩

/-- A name that is given is that of one session. -/
theorem in_session_named (hKept : Kept h) {t : Session} (ht : t ∈ h.sessions) (hNamed : t.session_id ≠ "")
    (session : Option Nat) : in_session h (some t.session_id) session = decide (session = some t.id) := by
  unfold in_session
  rw [show (some t.session_id).filter (· ≠ "") = some t.session_id from
    Option.filter_some_pos (decide_eq_true hNamed)]
  rw [Bool.eq_iff_iff, decide_eq_true_iff]
  constructor
  · intro hAny
    obtain ⟨t', ht', hIs⟩ := List.any_eq_true.1 hAny
    rw [Bool.and_eq_true, decide_eq_true_iff, decide_eq_true_iff] at hIs
    have hUnique : h.sessions.Pairwise fun t t' => t.session_id ≠ t'.session_id :=
      hKept.sessions.imp fun hBoth => hBoth.2
    have hSymm : Std.Symm fun t t' : Session => t.session_id ≠ t'.session_id := ⟨fun _ _ hNe => hNe.symm⟩
    by_cases hSame : t' = t
    · rw [← hIs.1, hSame]
    · exact absurd hIs.2 (hUnique.forall ht' ht hSame)
  · intro hIs
    apply List.any_eq_true.2
    refine ⟨t, ht, ?_⟩
    rw [hIs, decide_eq_true rfl, decide_eq_true rfl]
    rfl

/-- The patches that are read where a session is named are the session's. -/
theorem patches_named (hKept : Kept h) {t : Session} (ht : t ∈ h.sessions) (hNamed : t.session_id ≠ "")
    (anchor : Snapshot V) (r : Int) (state : Nat) :
    patches_after h anchor r state (some t.session_id) = between h (some t.id) state anchor.global_rev r := by
  unfold patches_after between
  congr 1
  apply List.filter_congr
  intro p _
  unfold History.during
  rw [in_session_named hKept ht hNamed]

/-- The patches that are read where no session is named are those of one if there are no others. -/
theorem patches_any_iff {s : Nat} {anchor : Snapshot V} {r : Int} {state : Nat} :
    patches_after h anchor r state none = between h (some s) state anchor.global_rev r ↔
      ∀ p ∈ h.patches, p.state = state → anchor.global_rev < p.global_rev → p.global_rev ≤ r →
        p.session = some s := by
  constructor
  · intro hSame p hp hState hAfter hUpTo
    have hMem : p ∈ patches_after h anchor r state none := by
      unfold patches_after
      rw [List.mem_insertionSort, List.mem_filter]
      refine ⟨hp, ?_⟩
      rw [decide_eq_true hState, decide_eq_true hAfter, decide_eq_true hUpTo]
      rfl
    rw [hSame] at hMem
    exact (mem_between.1 hMem).2.2.1
  · intro hAll
    unfold patches_after between
    congr 1
    apply List.filter_congr
    intro p hp
    unfold History.during
    rw [show in_session h none p.session = true from rfl, Bool.and_true]
    by_cases hIs : p.state = state ∧ anchor.global_rev < p.global_rev ∧ p.global_rev ≤ r
    · rw [decide_eq_true (hAll p hp hIs.1 hIs.2.1 hIs.2.2), Bool.and_true]
    · have hNot : (decide (p.state = state) && decide (anchor.global_rev < p.global_rev) &&
          decide (p.global_rev ≤ r)) = false := by
        rw [Bool.eq_false_iff]
        intro hTrue
        rw [Bool.and_eq_true, Bool.and_eq_true, decide_eq_true_iff, decide_eq_true_iff,
          decide_eq_true_iff] at hTrue
        exact hIs ⟨hTrue.1.1, hTrue.1.2, hTrue.2⟩
      rw [hNot]
      symm
      rw [Bool.eq_false_iff] at hNot ⊢
      intro hTrue
      apply hNot
      rw [Bool.and_eq_true, Bool.and_eq_true, Bool.and_eq_true] at hTrue
      rw [hTrue.1.1.1, hTrue.1.2, hTrue.2]
      rfl

end Rekuest.Replay
