import Mathlib.Data.List.Pairwise
import Rekuest.Replay.Readers

/-!
# What a history records

The value of a state at a revision of a session is the fold of the session's patches up to it
over a snapshot of the session.  In a history whose patches apply, and whose snapshots are what
their sessions' patches make, it does not matter which snapshot.
-/

namespace Rekuest.Replay

variable {V : Type} (apply : PatchDoc V → V → Option V) (h : History V)

/-- A session's patches of a state after one revision, up to another. -/
def History.during (session : Option Nat) (state : Nat) (lo hi : Int) (p : Patch V) : Bool :=
  p.state = state && p.session = session && decide (lo < p.global_rev) && decide (p.global_rev ≤ hi)

/-- They, in the order of their revisions. -/
def between (session : Option Nat) (state : Nat) (lo hi : Int) : List (Patch V) :=
  (h.patches.filter (History.during session state lo hi)).insertionSort
    fun p q => p.global_rev ≤ q.global_rev

/-- Patches folded over a value. -/
def fold (patches : List (Patch V)) (value : V) : Option V :=
  patches.foldlM (fun value patch => apply patch.doc value) value

/-- What a session's patches make of a snapshot up to a revision. -/
def fold_at (a : Snapshot V) (r : Int) : Option V :=
  fold apply (between h a.session a.state a.global_rev r) a.value

/-- A history in which every patch applies: no two patches of a session and a state have one
revision, and a snapshot is what the patches before it make of an earlier one. -/
structure Recorded : Prop where
  unique : h.patches.Pairwise fun p q =>
    p.session = q.session → p.state = q.state → p.global_rev ≠ q.global_rev
  records : ∀ a ∈ h.snapshots, ∀ b ∈ h.snapshots, a.session = b.session → a.state = b.state →
    a.global_rev ≤ b.global_rev → fold_at apply h a b.global_rev = some b.value
  applies : ∀ a ∈ h.snapshots, ∀ r, (fold_at apply h a r).isSome = true
  session : ∀ a ∈ h.snapshots, ∃ t ∈ h.sessions, a.session = some t.id
  sessions : ∀ p ∈ h.patches, ∃ t ∈ h.sessions, p.session = some t.id

variable {apply h}

/-! ## Patches in order -/

/-- A session's patches of a state have one order. -/
theorem eq_between (hUnique : h.patches.Pairwise fun p q =>
      p.session = q.session → p.state = q.state → p.global_rev ≠ q.global_rev)
    {session : Option Nat} {state : Nat} {lo hi : Int} {l : List (Patch V)}
    (hPerm : l.Perm (h.patches.filter (History.during session state lo hi)))
    (hSorted : l.Pairwise fun p q => p.global_rev ≤ q.global_rev) :
    l = between h session state lo hi := by
  have hTotal : Std.Total fun p q : Patch V => p.global_rev ≤ q.global_rev := ⟨fun p q => Int.le_total _ _⟩
  have hTrans : IsTrans (Patch V) fun p q => p.global_rev ≤ q.global_rev := ⟨fun _ _ _ => Int.le_trans⟩
  have hOrdered := List.pairwise_insertionSort (fun p q : Patch V => p.global_rev ≤ q.global_rev)
    (h.patches.filter (History.during session state lo hi))
  refine List.Perm.eq_of_pairwise ?_ hSorted hOrdered (hPerm.trans (List.perm_insertionSort _ _).symm)
  intro p q hp hq hpq hqp
  have hSymm : Std.Symm fun p q : Patch V =>
      p.session = q.session → p.state = q.state → p.global_rev ≠ q.global_rev :=
    ⟨fun p q hNe hSession hState hRev => hNe hSession.symm hState.symm hRev.symm⟩
  obtain ⟨hpMem, hpDuring⟩ := List.mem_filter.1 (hPerm.mem_iff.1 hp)
  obtain ⟨hqMem, hqDuring⟩ := List.mem_filter.1 ((List.mem_insertionSort _).1 hq)
  unfold History.during at hpDuring hqDuring
  rw [Bool.and_eq_true, Bool.and_eq_true, Bool.and_eq_true] at hpDuring hqDuring
  by_cases hSame : p = q
  · exact hSame
  · have hStates : p.state = q.state :=
      (of_decide_eq_true hpDuring.1.1.1).trans (of_decide_eq_true hqDuring.1.1.1).symm
    have hSessions : p.session = q.session :=
      (of_decide_eq_true hpDuring.1.1.2).trans (of_decide_eq_true hqDuring.1.1.2).symm
    have hNe := hUnique.forall hpMem hqMem hSame hSessions hStates
    exact absurd (Int.le_antisymm hpq hqp) hNe

theorem sorted_between (session : Option Nat) (state : Nat) (lo hi : Int) :
    (between h session state lo hi).Pairwise fun p q => p.global_rev ≤ q.global_rev := by
  have hTotal : Std.Total fun p q : Patch V => p.global_rev ≤ q.global_rev := ⟨fun p q => Int.le_total _ _⟩
  have hTrans : IsTrans (Patch V) fun p q => p.global_rev ≤ q.global_rev := ⟨fun _ _ _ => Int.le_trans⟩
  exact List.pairwise_insertionSort _ _

theorem mem_between {session : Option Nat} {state : Nat} {lo hi : Int} {p : Patch V} :
    p ∈ between h session state lo hi ↔ p ∈ h.patches ∧ p.state = state ∧ p.session = session ∧
      lo < p.global_rev ∧ p.global_rev ≤ hi := by
  unfold between
  rw [List.mem_insertionSort, List.mem_filter]
  unfold History.during
  rw [Bool.and_eq_true, Bool.and_eq_true, Bool.and_eq_true, decide_eq_true_iff, decide_eq_true_iff,
    decide_eq_true_iff, decide_eq_true_iff]
  constructor
  · rintro ⟨hMem, ⟨⟨hState, hSession⟩, hLo⟩, hHi⟩
    exact ⟨hMem, hState, hSession, hLo, hHi⟩
  · rintro ⟨hMem, hState, hSession, hLo, hHi⟩
    exact ⟨hMem, ⟨⟨hState, hSession⟩, hLo⟩, hHi⟩

/-- The patches up to a revision are those up to one before it, and those after that. -/
theorem between_split (hUnique : h.patches.Pairwise fun p q =>
      p.session = q.session → p.state = q.state → p.global_rev ≠ q.global_rev)
    {session : Option Nat} {state : Nat} {lo mid hi : Int} (hLo : lo ≤ mid) (hHi : mid ≤ hi) :
    between h session state lo hi = between h session state lo mid ++ between h session state mid hi := by
  symm
  apply eq_between hUnique
  · have hBoth := (List.perm_insertionSort (fun p q : Patch V => p.global_rev ≤ q.global_rev)
      (h.patches.filter (History.during session state lo mid))).append
      (List.perm_insertionSort (fun p q : Patch V => p.global_rev ≤ q.global_rev)
        (h.patches.filter (History.during session state mid hi)))
    apply hBoth.trans
    have hParts := List.filter_append_perm (fun p : Patch V => decide (p.global_rev ≤ mid))
      (h.patches.filter (History.during session state lo hi))
    rw [List.filter_filter, List.filter_filter] at hParts
    have hBefore : (h.patches.filter fun p => decide (p.global_rev ≤ mid) &&
        History.during session state lo hi p) = h.patches.filter (History.during session state lo mid) := by
      apply List.filter_congr
      intro p _
      rw [Bool.eq_iff_iff]
      unfold History.during
      simp only [Bool.and_eq_true, decide_eq_true_iff]
      constructor
      · rintro ⟨hMid, ⟨hWhose, hAfter⟩, -⟩
        exact ⟨⟨hWhose, hAfter⟩, hMid⟩
      · rintro ⟨⟨hWhose, hAfter⟩, hMid⟩
        exact ⟨hMid, ⟨hWhose, hAfter⟩, by omega⟩
    have hAfterwards : (h.patches.filter fun p => !decide (p.global_rev ≤ mid) &&
        History.during session state lo hi p) = h.patches.filter (History.during session state mid hi) := by
      apply List.filter_congr
      intro p _
      rw [Bool.eq_iff_iff]
      unfold History.during
      simp only [Bool.and_eq_true, decide_eq_true_iff, Bool.not_eq_true', decide_eq_false_iff_not]
      constructor
      · rintro ⟨hMid, ⟨hWhose, -⟩, hUpTo⟩
        exact ⟨⟨hWhose, by omega⟩, hUpTo⟩
      · rintro ⟨⟨hWhose, hAfter⟩, hUpTo⟩
        exact ⟨by omega, ⟨hWhose, by omega⟩, hUpTo⟩
    rw [hBefore, hAfterwards] at hParts
    exact hParts
  · rw [List.pairwise_append]
    refine ⟨sorted_between _ _ _ _, sorted_between _ _ _ _, ?_⟩
    intro p hp q hq
    have hBefore := (mem_between.1 hp).2.2.2.2
    have hAfter := (mem_between.1 hq).2.2.2.1
    omega

/-! ## Which snapshot -/

theorem fold_append (l l' : List (Patch V)) (value : V) :
    fold apply (l ++ l') value = (fold apply l value).bind (fold apply l') :=
  List.foldlM_append

/-- What a later snapshot leads to is what an earlier one does. -/
theorem fold_at_later (hRecorded : Recorded apply h) {a b : Snapshot V} (ha : a ∈ h.snapshots)
    (hb : b ∈ h.snapshots) (hSession : a.session = b.session) (hState : a.state = b.state)
    (hLe : a.global_rev ≤ b.global_rev) {r : Int} (hr : b.global_rev ≤ r) :
    fold_at apply h a r = fold_at apply h b r := by
  have hRecords := hRecorded.records a ha b hb hSession hState hLe
  unfold fold_at at hRecords ⊢
  rw [between_split hRecorded.unique hLe hr, fold_append, hRecords, hSession, hState]
  rfl

/-- It does not matter which snapshot of a session the patches are folded over. -/
theorem fold_at_any (hRecorded : Recorded apply h) {a b : Snapshot V} (ha : a ∈ h.snapshots)
    (hb : b ∈ h.snapshots) (hSession : a.session = b.session) (hState : a.state = b.state) {r : Int}
    (har : a.global_rev ≤ r) (hbr : b.global_rev ≤ r) :
    fold_at apply h a r = fold_at apply h b r := by
  by_cases hLe : a.global_rev ≤ b.global_rev
  · exact fold_at_later hRecorded ha hb hSession hState hLe hbr
  · exact (fold_at_later hRecorded hb ha hSession.symm hState.symm (by omega) har).symm

/-! ## The first row -/

theorem foldl_first {α : Type} (before : α → α → Bool) : ∀ (rows : List α) (best : Option α) {a : α},
    rows.foldl (fun best a =>
      match best with
      | none => some a
      | some b => if before a b then some a else some b) best = some a → a ∈ rows ∨ best = some a := by
  intro rows
  induction rows with
  | nil =>
      intro best a hIs
      exact .inr hIs
  | cons b rest ih =>
      intro best a hIs
      rcases ih _ hIs with hLater | hBest
      · exact .inl (List.mem_cons_of_mem b hLater)
      · cases best with
        | none =>
            rw [← Option.some.inj hBest]
            exact .inl List.mem_cons_self
        | some c =>
            dsimp only at hBest
            by_cases hBefore : before b c = true
            · rw [if_pos hBefore] at hBest
              rw [← Option.some.inj hBest]
              exact .inl List.mem_cons_self
            · rw [if_neg hBefore] at hBest
              exact .inr hBest

theorem first_by_mem {α : Type} {before : α → α → Bool} {rows : List α} {a : α}
    (hIs : first_by before rows = some a) : a ∈ rows := by
  rcases foldl_first before rows none hIs with hMem | hNone
  · exact hMem
  · cases hNone

theorem foldl_some {α : Type} (before : α → α → Bool) : ∀ (rows : List α) (b : α),
    ∃ a, rows.foldl (fun best a =>
      match best with
      | none => some a
      | some b => if before a b then some a else some b) (some b) = some a := by
  intro rows
  induction rows with
  | nil =>
      intro b
      exact ⟨b, rfl⟩
  | cons c rest ih =>
      intro b
      rw [List.foldl_cons]
      dsimp only
      by_cases hBefore : before c b = true
      · rw [if_pos hBefore]
        exact ih c
      · rw [if_neg hBefore]
        exact ih b

theorem first_by_some {α : Type} (before : α → α → Bool) {rows : List α} {b : α} (hMem : b ∈ rows) :
    ∃ a, first_by before rows = some a := by
  cases rows with
  | nil => cases hMem
  | cons c rest => exact foldl_some before rest c

end Rekuest.Replay

/-!
# The readers agree

Every reader that is asked of a session returns what the session's patches make of any of its
snapshots, whichever it starts from.  The one that may be asked of no session does where the
patches it reads are of the session of its anchor, and only there.
-/

namespace Rekuest.Replay

variable {V : Type} {apply : PatchDoc V → V → Option V} {h : History V}

/-- The rows keep to their constraints: no two sessions have one id, no two states one id or one
interface. -/
structure Kept (h : History V) : Prop where
  sessions : h.sessions.Pairwise fun t t' => t.id ≠ t'.id ∧ t.session_id ≠ t'.session_id
  states : h.states.Pairwise fun s s' => s.id ≠ s'.id ∧ s.interface ≠ s'.interface

/-- A value is what the patches of a session make of the state up to a revision, from whichever
of its snapshots. -/
def IsAt (apply : PatchDoc V → V → Option V) (h : History V) (session state : Nat) (r : Int)
    (value : V) : Prop :=
  ∀ a ∈ h.snapshots, a.session = some session → a.state = state → a.global_rev ≤ r →
    fold_at apply h a r = some value

/-- A session has a snapshot of the state at or before the revision. -/
def Started (h : History V) (session state : Nat) (r : Int) : Prop :=
  ∃ a ∈ h.snapshots, a.session = some session ∧ a.state = state ∧ a.global_rev ≤ r

/-- The revision that is asked for, or one that none of the state in the session is after. -/
def Asked (h : History V) (session state : Nat) (global_revision : Option Int) (r : Int) : Prop :=
  global_revision = some r ∨ global_revision = none ∧
    (∀ a ∈ h.snapshots, a.session = some session → a.state = state → a.global_rev ≤ r) ∧
    ∀ p ∈ h.patches, p.session = some session → p.state = state → p.global_rev ≤ r

/-! ## One session -/

/-- Patches that all apply, one after the other. -/
theorem foldl_patched {patches : List (Patch V)} : ∀ {reading : Reading V} {value : V},
    fold apply patches reading.value = some value →
      (patches.foldl (Reading.patched apply) reading).value = value := by
  induction patches with
  | nil =>
      intro reading value hFold
      exact Option.some.inj hFold
  | cons p rest ih =>
      intro reading value hFold
      unfold fold at hFold
      rw [List.foldlM_cons] at hFold
      obtain ⟨mid, hApply, hRest⟩ := Option.bind_eq_some_iff.1 hFold
      rw [List.foldl_cons]
      apply ih
      unfold Reading.patched
      rw [hApply]
      exact hRest

/-- What a state is materialized as, whichever snapshot it starts from. -/
theorem materialize_isAt (hRecorded : Recorded apply h) {t : Session} {state : State}
    {global_revision : Option Int} {time : Int} {reading : Reading V} {r : Int}
    (hAsked : Asked h t.id state.id global_revision r)
    (hRead : materialize apply h t state global_revision time = .ok reading) :
    IsAt apply h t.id state.id r reading.value := by
  unfold materialize at hRead
  dsimp only at hRead
  cases hFirst : first_by Snapshot.newer (h.snapshots.filter fun a =>
      a.state = state.id && a.session = some t.id && upTo global_revision a.global_rev) with
  | none =>
      rw [hFirst] at hRead
      cases hRead
  | some snapshot =>
      rw [hFirst] at hRead
      dsimp only at hRead
      have hReading := Except.ok.inj hRead
      obtain ⟨hMem, hIs⟩ := List.mem_filter.1 (first_by_mem hFirst)
      rw [Bool.and_eq_true, Bool.and_eq_true, decide_eq_true_iff, decide_eq_true_iff] at hIs
      obtain ⟨⟨hState, hSession⟩, hUpTo⟩ := hIs
      have hLe : snapshot.global_rev ≤ r := by
        rcases hAsked with rfl | ⟨rfl, hSnapshots, -⟩
        · exact of_decide_eq_true hUpTo
        · exact hSnapshots snapshot hMem hSession hState
      -- What it reads is what there is between the snapshot and the revision.
      have hFilter : (h.patches.filter fun p => p.state = state.id && p.session = some t.id &&
          decide (snapshot.global_rev < p.global_rev) && upTo global_revision p.global_rev) =
          h.patches.filter (History.during (some t.id) state.id snapshot.global_rev r) := by
        apply List.filter_congr
        intro p hp
        unfold History.during
        by_cases hWhose : p.session = some t.id ∧ p.state = state.id
        · rcases hAsked with rfl | ⟨rfl, -, hPatches⟩
          · rfl
          · rw [show upTo none p.global_rev = true from rfl,
              show decide (p.global_rev ≤ r) = true from decide_eq_true (hPatches p hp hWhose.1 hWhose.2)]
        · by_cases hIs : p.state = state.id
          · have hNot : p.session ≠ some t.id := fun hSession => hWhose ⟨hSession, hIs⟩
            rw [show decide (p.session = some t.id) = false from decide_eq_false hNot, Bool.and_false]
            rfl
          · rw [show decide (p.state = state.id) = false from decide_eq_false hIs]
            rfl
      have hTotal : Std.Total (Patch.earlier (V := V)) := by
        constructor
        intro p q
        unfold Patch.earlier
        omega
      have hTrans : IsTrans (Patch V) Patch.earlier := by
        constructor
        intro p q w hpq hqw
        unfold Patch.earlier at hpq hqw ⊢
        omega
      have hOrder := eq_between hRecorded.unique
        ((List.perm_insertionSort Patch.earlier _).trans (List.Perm.of_eq hFilter))
        ((List.pairwise_insertionSort Patch.earlier _).imp fun {p q} hEarlier => by
          unfold Patch.earlier at hEarlier
          omega)
      have hApplies := hRecorded.applies snapshot hMem r
      obtain ⟨value, hValue⟩ := Option.isSome_iff_exists.1 hApplies
      have hReadValue : reading.value = value := by
        rw [← hReading]
        apply foldl_patched
        rw [hOrder]
        unfold fold_at at hValue
        rw [hSession, hState] at hValue
        exact hValue
      intro a ha haSession haState har
      rw [fold_at_any hRecorded ha hMem (haSession.trans hSession.symm) (haState.trans hState.symm) har hLe,
        hValue, hReadValue]

/-- A state is materialized from its session's first snapshot on. -/
theorem materialize_some {t : Session} {state : State} {global_revision : Option Int} (time : Int)
    {r : Int} (hAsked : Asked h t.id state.id global_revision r) (hStarted : Started h t.id state.id r) :
    ∃ reading, materialize apply h t state global_revision time = .ok reading := by
  obtain ⟨a, ha, hSession, hState, hLe⟩ := hStarted
  have hMem : a ∈ h.snapshots.filter fun a =>
      a.state = state.id && a.session = some t.id && upTo global_revision a.global_rev := by
    rw [List.mem_filter, Bool.and_eq_true, Bool.and_eq_true, decide_eq_true_iff, decide_eq_true_iff]
    refine ⟨ha, ⟨hState, hSession⟩, ?_⟩
    rcases hAsked with rfl | ⟨rfl, -, -⟩
    · exact decide_eq_true hLe
    · rfl
  obtain ⟨snapshot, hFirst⟩ := first_by_some Snapshot.newer hMem
  unfold materialize
  dsimp only
  rw [hFirst]
  exact ⟨_, rfl⟩

end Rekuest.Replay
