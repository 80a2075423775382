import Mathlib.Order.Lattice
import Rekuest.Concurrent.System
import Rekuest.Leases.Lease

/-!
# The connection id is a fencing token

One agent row and the lease operations of any number of connections on it, in
any order and over any passage of time.  A connection is a socket: it gets a
fresh id (the count of ids handed out, for `uuid4`) and claims with it once.
-/

namespace Rekuest.Leases

open Concurrent

/-- One agent row, the ids handed out so far, the clock, and what the proofs
follow: when each connection claimed or renewed. -/
structure State where
  row : AgentLease := {}
  minted : Nat := 0
  contacts : List (Nat × Int) := []
  now : Int := 0
  deriving DecidableEq, Repr

inductive Action
  /-- A new connection claims; `held` is the time its transaction takes. -/
  | claim (sessionId : Option Nat) (force : Bool) (held : Nat)
  | renew (connectionId : Nat)
  | holds (connectionId : Nat)
  | release (connectionId : Nat)
  | revoke
  | tick (elapsed : Nat)
  deriving DecidableEq, Repr

/-- What the operation answers in state `s`; a tick answers nothing. -/
def answer (settings : Settings) (s : State) : Action → Bool
  | .claim sessionId force held =>
      (claimLease settings s.row s.minted sessionId force s.now
        (s.now + held)).1.claimed
  | .renew c => (renewAgentLease s.row c s.now).1
  | .holds c => holdsLease s.row c
  | .release c => (releaseLease s.row c s.now).1
  | .revoke => (revokeLease settings s.row s.now).1
  | .tick _ => false

/-- The row the operation leaves. -/
def rowAfter (settings : Settings) (s : State) : Action → AgentLease
  | .claim sessionId force held =>
      (claimLease settings s.row s.minted sessionId force s.now
        (s.now + held)).2
  | .renew c => (renewAgentLease s.row c s.now).2
  | .release c => (releaseLease s.row c s.now).2
  | .revoke => (revokeLease settings s.row s.now).2
  | .holds _ | .tick _ => s.row

/-- The connections an operation heard from. -/
def heard (settings : Settings) (s : State) : Action → List (Nat × Int)
  | .claim sessionId force held =>
      if answer settings s (.claim sessionId force held) then
        [(s.minted, s.now + held)]
      else []
  | .renew c => if answer settings s (.renew c) then [(c, s.now)] else []
  | .holds _ | .release _ | .revoke | .tick _ => []

def next (settings : Settings) (s : State) (a : Action) : State :=
  { row := rowAfter settings s a
    minted := match a with
      | .claim .. => s.minted + 1
      | _ => s.minted
    contacts := heard settings s a ++ s.contacts
    now := match a with
      | .claim _ _ held => s.now + held
      | .tick elapsed => s.now + elapsed
      | _ => s.now }

/-- Every operation is enabled in every state. -/
def system (settings : Settings) : System State Action where
  next s a := some (next settings s a)

/-- An agent row no connection has claimed yet. -/
def initial (lastSeen : Option Int) (now : Int) : State :=
  { row := { lastSeen }, now }

/-- The states any interleaving reaches. -/
def Reaches (settings : Settings) (s s' : State) : Prop :=
  (system settings).Run System.anyStep s s'

/-- The step `a` ends the lease of connection `c`: another connection's claim
displaces it, its own release gives it up, or a revoke takes it. -/
def EndsLease (settings : Settings) (s : State) (a : Action) (c : Nat) : Prop :=
  answer settings s a = true ∧
    match a with
    | .claim .. | .revoke => s.row.activeConnectionId = some c
    | .release d => d = c
    | .renew _ | .holds _ | .tick _ => False

/-! ## What one step does to the row -/

/-- The rows an operation can leave, and when. -/
inductive RowStep (settings : Settings) (s : State) : Action → AgentLease → Prop
  | same {a : Action} : RowStep settings s a s.row
  | claimed {sessionId : Option Nat} {force : Bool} {held : Nat}
      (hWon : answer settings s (.claim sessionId force held) = true) :
      RowStep settings s (.claim sessionId force held)
        { connected := true, lastSeen := some (s.now + held),
          activeConnectionId := some s.minted, activeSessionId := sessionId }
  | renewed {c : Nat} (hHolds : holdsLease s.row c = true) :
      RowStep settings s (.renew c) { s.row with lastSeen := some s.now }
  | released {c : Nat} (hActive : s.row.activeConnectionId = some c) :
      RowStep settings s (.release c)
        { s.row with connected := false, lastSeen := some s.now }
  | revoked :
      RowStep settings s .revoke
        { s.row with connected := false, activeConnectionId := none }

theorem rowAfter_step (settings : Settings) (s : State) (a : Action) :
    RowStep settings s a (rowAfter settings s a) := by
  cases a with
  | claim sessionId force held =>
      rcases claimLease_cases settings s.row s.minted sessionId force s.now
        (s.now + held) with ⟨-, hRow⟩ | ⟨hWon, hRow⟩
      · simp only [rowAfter, hRow]
        exact .same
      · simp only [rowAfter, hRow]
        exact .claimed hWon
  | renew c =>
      rcases renewAgentLease_cases s.row c s.now with ⟨-, hRow⟩ | ⟨hHolds, hRow⟩
      · simp only [rowAfter, hRow]
        exact .same
      · simp only [rowAfter, hRow]
        exact .renewed hHolds
  | holds c => exact .same
  | release c =>
      rcases releaseLease_cases s.row c s.now with ⟨-, hRow⟩ | ⟨hActive, hRow⟩
      · simp only [rowAfter, hRow]
        exact .same
      · simp only [rowAfter, hRow]
        exact .released hActive
  | revoke =>
      rcases revokeLease_cases settings s.row s.now with hRow | ⟨-, -, hRow⟩
      · simp only [rowAfter, hRow]
        exact .same
      · simp only [rowAfter, hRow]
        exact .revoked
  | tick elapsed => exact .same

theorem next_minted (settings : Settings) (s : State) (a : Action) :
    s.minted ≤ (next settings s a).minted := by
  cases a <;> simp [next]

theorem next_now (settings : Settings) (s : State) (a : Action) :
    s.now ≤ (next settings s a).now := by
  cases a <;> simp only [next] <;> omega

/-- A connection whose id is out and not active stays not active: the id is
written by its own claim only. -/
theorem inactive_step {settings : Settings} {s : State} {c : Nat}
    (hMinted : c < s.minted) (h : s.row.activeConnectionId ≠ some c)
    (a : Action) : (next settings s a).row.activeConnectionId ≠ some c := by
  have hStep := rowAfter_step settings s a
  simp only [next]
  generalize rowAfter settings s a = row at hStep ⊢
  cases hStep with
  | claimed =>
      intro hEq
      cases hEq
      exact absurd hMinted (Nat.lt_irrefl _)
  | revoked => simp
  | _ => exact h

/-- A connection that does not hold the lease never holds it again. -/
theorem unheld_step (settings : Settings) {s : State} {c : Nat}
    (hMinted : c < s.minted) (h : holdsLease s.row c = false)
    (a : Action) : holdsLease (next settings s a).row c = false := by
  have hStep := rowAfter_step settings s a
  simp only [next]
  generalize rowAfter settings s a = row at hStep ⊢
  cases hStep with
  | claimed =>
      have hNe : s.minted ≠ c := by omega
      simp [holdsLease, hNe]
  | released => simp [holdsLease]
  | revoked => simp [holdsLease]
  | _ => exact h

/-! ## The invariant -/

/-- The ids in use were handed out, and whoever holds the lease was heard from
no later than `last_seen`. -/
structure Fenced (s : State) : Prop where
  minted : ∀ c, s.row.activeConnectionId = some c → c < s.minted
  heard : ∀ c t, (c, t) ∈ s.contacts → c < s.minted ∧ t ≤ s.now
  seen : ∀ c t, (c, t) ∈ s.contacts → holdsLease s.row c = true →
    ∃ seen, s.row.lastSeen = some seen ∧ t ≤ seen

theorem fenced_initial (lastSeen : Option Int) (now : Int) :
    Fenced (initial lastSeen now) where
  minted c hc := by simp [initial] at hc
  heard c t h := by simp [initial] at h
  seen c t h := by simp [initial] at h

/-- What an operation hears is its own connection, now. -/
private theorem heard_cases {settings : Settings} {s : State} {a : Action}
    {c : Nat} {t : Int} (h : (c, t) ∈ heard settings s a) :
    answer settings s a = true ∧ t = (next settings s a).now ∧
      ((a = .renew c) ∨ (∃ sessionId force held,
        a = .claim sessionId force held ∧ c = s.minted)) := by
  cases a with
  | claim sessionId force held =>
      simp only [heard] at h
      split at h
      case isTrue hWon =>
        simp only [List.mem_singleton, Prod.mk.injEq] at h
        exact ⟨hWon, h.2, .inr ⟨sessionId, force, held, rfl, h.1⟩⟩
      case isFalse => cases h
  | renew d =>
      simp only [heard] at h
      split at h
      case isTrue hWon =>
        simp only [List.mem_singleton, Prod.mk.injEq] at h
        obtain ⟨rfl, rfl⟩ := h
        exact ⟨hWon, rfl, .inl rfl⟩
      case isFalse => cases h
  | holds d => cases h
  | release d => cases h
  | revoke => cases h
  | tick elapsed => cases h

/-- **Step lemma** -/
theorem fenced_step {settings : Settings} {s : State} (hInv : Fenced s)
    (a : Action) : Fenced (next settings s a) := by
  have hStep := rowAfter_step settings s a
  have hMinted := next_minted settings s a
  have hNow := next_now settings s a
  refine ⟨?_, ?_, ?_⟩
  · intro c hc
    by_cases hOld : s.row.activeConnectionId = some c
    · exact (hInv.minted c hOld).trans_le hMinted
    · by_contra hNot
      have hLt : ¬ c < s.minted := fun hLt => hNot (hLt.trans_le hMinted)
      simp only [next] at hc hNot
      generalize rowAfter settings s a = row at hStep hc
      cases hStep with
      | claimed =>
          cases hc
          exact hNot (by simp)
      | revoked => cases hc
      | _ => exact hOld hc
  · intro c t hMem
    rcases List.mem_append.mp hMem with hHeard | hOld
    · obtain ⟨hWon, rfl, hWho⟩ := heard_cases hHeard
      refine ⟨?_, le_rfl⟩
      rcases hWho with rfl | ⟨sessionId, force, held, rfl, rfl⟩
      · simp only [answer, renewAgentLease_fst, holdsLease_iff] at hWon
        exact (hInv.minted c hWon.1).trans_le hMinted
      · simp [next]
    · obtain ⟨hLt, hLe⟩ := hInv.heard c t hOld
      exact ⟨hLt.trans_le hMinted, hLe.trans hNow⟩
  · intro c t hMem hHolds
    rcases List.mem_append.mp hMem with hHeard | hOld
    · obtain ⟨hWon, rfl, hWho⟩ := heard_cases hHeard
      rcases hWho with rfl | ⟨sessionId, force, held, rfl, rfl⟩
      · simp only [answer, renewAgentLease_fst] at hWon
        exact ⟨s.now, by simp [next, rowAfter, renewAgentLease, hWon], le_rfl⟩
      · simp only [next]
        generalize hRow : rowAfter settings s (.claim sessionId force held) = row
          at hStep
        cases hStep with
        | claimed => exact ⟨s.now + held, rfl, le_rfl⟩
        | same =>
            -- a refused claim hears nothing
            rcases claimLease_cases settings s.row s.minted sessionId force s.now
              (s.now + held) with ⟨hLost, -⟩ | ⟨-, hWrite⟩
            · simp only [answer, hLost] at hWon
              cases hWon
            · simp only [rowAfter, hWrite] at hRow
              exact ⟨s.now + held, by rw [← hRow], le_rfl⟩
    · obtain ⟨hLt, hLe⟩ := hInv.heard c t hOld
      have hHeld : holdsLease s.row c = true := by
        by_contra hNot
        have hUnheld := unheld_step settings hLt (by simpa using hNot) a
        rw [hUnheld] at hHolds
        cases hHolds
      obtain ⟨seen, hSeen, hle⟩ := hInv.seen c t hOld hHeld
      simp only [next] at hHolds ⊢
      generalize rowAfter settings s a = row at hStep hHolds ⊢
      cases hStep with
      | same => exact ⟨seen, hSeen, hle⟩
      | @claimed sessionId force held hWon =>
          exact ⟨s.now + held, rfl, by omega⟩
      | renewed => exact ⟨s.now, rfl, hLe⟩
      | released => exact ⟨s.now, rfl, hLe⟩
      | revoked => exact ⟨seen, hSeen, hle⟩

theorem fenced_run {settings : Settings} {lastSeen : Option Int} {now : Int}
    {s : State} (h : Reaches settings (initial lastSeen now) s) : Fenced s :=
  h.invariant (fenced_initial lastSeen now) fun s a s' hI _ hNext => by
    cases hNext
    exact fenced_step hI a

/-! ## Fencing -/

/-- The fence a step leaves behind, for a connection whose lease it ended. -/
private theorem endsLease_fences {settings : Settings} {s : State} {a : Action}
    {c : Nat} (hInv : Fenced s) (h : EndsLease settings s a c) :
    c < (next settings s a).minted ∧
      holdsLease (next settings s a).row c = false ∧
      ((next settings s a).row.activeConnectionId ≠ some c ∨ a = .release c) := by
  obtain ⟨hWon, hWhose⟩ := h
  have hMinted := next_minted settings s a
  cases a with
  | claim sessionId force held =>
      have hLt := hInv.minted c hWhose
      have hNe : s.minted ≠ c := by omega
      rcases claimLease_cases settings s.row s.minted sessionId force s.now
        (s.now + held) with ⟨hLost, -⟩ | ⟨-, hRow⟩
      · simp only [answer, hLost] at hWon
        cases hWon
      · exact ⟨hLt.trans_le hMinted, by simp [next, rowAfter, hRow, holdsLease, hNe],
          .inl (by simp [next, rowAfter, hRow, hNe])⟩
  | revoke =>
      rcases revokeLease_cases settings s.row s.now with hLost | ⟨-, -, hRow⟩
      · simp only [answer, hLost] at hWon
        cases hWon
      · exact ⟨(hInv.minted c hWhose).trans_le hMinted,
          by simp [next, rowAfter, hRow, holdsLease],
          .inl (by simp [next, rowAfter, hRow])⟩
  | release d =>
      obtain rfl : d = c := hWhose
      rcases releaseLease_cases s.row d s.now with ⟨-, hLost⟩ | ⟨hActive, hRow⟩
      · simp only [answer, hLost] at hWon
        cases hWon
      · exact ⟨(hInv.minted d hActive).trans_le hMinted,
          by simp [next, rowAfter, hRow, holdsLease], .inr rfl⟩
  | renew d => exact hWhose.elim
  | holds d => exact hWhose.elim
  | tick elapsed => exact hWhose.elim

/-- **Run lemma**: a connection that lost the lease never holds it again. -/
theorem unheld_run {settings : Settings} {s s' : State} {c : Nat}
    (hRun : Reaches settings s s') (hMinted : c < s.minted)
    (h : holdsLease s.row c = false) : holdsLease s'.row c = false :=
  (hRun.invariant (I := fun s => c < s.minted ∧ holdsLease s.row c = false)
    ⟨hMinted, h⟩ fun s a s' hI _ hNext => by
      cases hNext
      exact ⟨hI.1.trans_le (next_minted settings s a), unheld_step settings hI.1 hI.2 a⟩).2

/-- **Run lemma**: nor does its id come back, once another one is written. -/
theorem inactive_run {settings : Settings} {s s' : State} {c : Nat}
    (hRun : Reaches settings s s') (hMinted : c < s.minted)
    (h : s.row.activeConnectionId ≠ some c) :
    s'.row.activeConnectionId ≠ some c :=
  (hRun.invariant
    (I := fun s => c < s.minted ∧ s.row.activeConnectionId ≠ some c)
    ⟨hMinted, h⟩ fun s a s' hI _ hNext => by
      cases hNext
      exact ⟨hI.1.trans_le (next_minted settings s a), inactive_step hI.1 hI.2 a⟩).2

/--
**Lease fencing.**  In every reachable state: at most one connection gets true
from a renewal or a check; a connection whose lease was displaced, released or
revoked never gets true again, and its release leaves the row unchanged, except
that after its own release a second one may move `last_seen`; an unforced claim
from another session is refused exactly while the incumbent is live; and a
revoke takes no lease from a connection heard from inside the stale window.
-/
theorem lease_fencing {settings : Settings} {lastSeen : Option Int} {now : Int}
    {s : State} (hRun : Reaches settings (initial lastSeen now) s) :
    (∀ c d,
      (answer settings s (.renew c) = true ∨ answer settings s (.holds c) = true) →
      (answer settings s (.renew d) = true ∨ answer settings s (.holds d) = true) →
      c = d) ∧
    (∀ a c, EndsLease settings s a c →
      ∀ s', Reaches settings (next settings s a) s' →
        answer settings s' (.renew c) = false ∧
        answer settings s' (.holds c) = false ∧
        (rowAfter settings s' (.release c) = s'.row ∨
          a = .release c ∧ rowAfter settings s' (.release c) =
            { s'.row with lastSeen := some s'.now })) ∧
    (∀ sessionId held, sameProcess s.row.activeSessionId sessionId = false →
      (answer settings s (.claim sessionId false held) = false ↔
        s.row.connected = true ∧ ∃ seen, s.row.lastSeen = some seen ∧
          s.now - settings.agentStaleAfter < seen)) ∧
    (∀ c, answer settings s .revoke = true → s.row.activeConnectionId = some c →
      ∀ t, (c, t) ∈ s.contacts → t ≤ s.now - settings.agentStaleAfter) := by
  have hInv := fenced_run hRun
  refine ⟨?_, ?_, ?_, ?_⟩
  · intro c d hc hd
    simp only [answer, renewAgentLease_fst, or_self] at hc hd
    exact holdsLease_unique hc hd
  · intro a c hEnds s' hLater
    obtain ⟨hMinted, hUnheld, hFence⟩ := endsLease_fences hInv hEnds
    have hHolds := unheld_run hLater hMinted hUnheld
    refine ⟨by simpa only [answer, renewAgentLease_fst] using hHolds, hHolds, ?_⟩
    rcases releaseLease_cases s'.row c s'.now with ⟨-, hRow⟩ | ⟨hActive, hRow⟩
    · exact .inl (by simp only [rowAfter, hRow])
    · -- the id is still in the row, so the lease ended by its own release
      have hOwn : a = .release c := hFence.resolve_left fun hNe =>
        inactive_run hLater hMinted hNe hActive
      have hConnected : s'.row.connected = false := by
        simpa [holdsLease, hActive] using hHolds
      refine .inr ⟨hOwn, ?_⟩
      simp only [rowAfter, hRow, hConnected]
  · intro sessionId held hOther
    exact claimLease_refused_iff hOther
  · intro c hWon hActive t hMem
    rcases revokeLease_cases settings s.row s.now with hLost | ⟨hConnected, hStale, -⟩
    · simp only [answer, hLost] at hWon
      cases hWon
    · obtain ⟨seen, hSeen, hle⟩ :=
        hInv.seen c t hMem (holdsLease_iff.mpr ⟨hActive, hConnected⟩)
      exact hle.trans (hStale seen hSeen)

/-- A second connection displaces a stale first one, and the first one is
fenced from then on. -/
theorem lease_fencing_displaced :
    ∃ s, Reaches {} (initial none 0) s ∧
      EndsLease {} s (.claim (some 8) false 0) 0 ∧
      ∀ s', Reaches {} (next {} s (.claim (some 8) false 0)) s' →
        answer {} s' (.renew 0) = false := by
  have hPlay : (system {}).play System.anyStep (initial none 0)
      [.claim (some 7) false 0, .tick 30000000] = some
        { row := ⟨true, some 0, some 0, some 7⟩
          minted := 1
          contacts := [(0, 0)]
          now := 30000000 } := by decide
  refine ⟨_, System.run_of_play hPlay, ⟨by decide, rfl⟩, fun s' hLater => ?_⟩
  exact ((lease_fencing (System.run_of_play hPlay)).2.1 _ 0 ⟨by decide, rfl⟩
    s' hLater).1

/-- A release keeps `active_connection_id`, so a second release by the same
connection still finds its id in the row and writes `last_seen` again. -/
theorem second_release_writes :
    ∃ s s', Reaches {} (initial none 0) s ∧ EndsLease {} s (.release 0) 0 ∧
      Reaches {} (next {} s (.release 0)) s' ∧
      rowAfter {} s' (.release 0) ≠ s'.row := by
  have hClaim : (system {}).play System.anyStep (initial none 0)
      [.claim (some 7) false 0] = some
        { row := ⟨true, some 0, some 0, some 7⟩
          minted := 1
          contacts := [(0, 0)]
          now := 0 } := by decide
  have hLater : (system {}).play System.anyStep
      { row := ⟨false, some 0, some 0, some 7⟩
        minted := 1
        contacts := [(0, 0)]
        now := 0 } [.tick 1] = some
        { row := ⟨false, some 0, some 0, some 7⟩
          minted := 1
          contacts := [(0, 0)]
          now := 1 } := by decide
  exact ⟨_, _, System.run_of_play hClaim, ⟨by decide, rfl⟩,
    System.run_of_play hLater, by decide⟩

end Rekuest.Leases
