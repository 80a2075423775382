import Rekuest.Liveness

/-!
# The executor lease: the four columns and the operations on them

`persist/leases.rs` on one `facade_agent` row.  A transition (claim, release,
revoke) reads and writes the row under its lock and a renewal is one
conditional `UPDATE`, so each operation is one function of the row.  The
drawers a fresh process clears are another table and are left out.
-/

namespace Rekuest.Leases

/-- The lease columns of a `facade_agent` row. -/
structure AgentLease where
  connected : Bool := false
  lastSeen : Option Int := none
  activeConnectionId : Option Nat := none
  activeSessionId : Option Nat := none
  deriving DecidableEq, Repr

/-- Whether a registration comes from the process that held the lease before:
both sessions known and equal. -/
def sameProcess : Option Nat → Option Nat → Bool
  | some a, some b => a == b
  | _, _ => false

/-- Whether a registration provably comes from a new process: both sessions
known and different. -/
def freshProcess : Option Nat → Option Nat → Bool
  | some a, some b => a != b
  | _, _ => false

/-- The outcome of claiming the lease. -/
structure LeaseClaim where
  claimed : Bool := false
  /-- Tasks the agent may still hold: asked about in `INIT`. -/
  inquiries : List Nat := []
  /-- In-flight work a previous process orphaned. -/
  orphaned : List Nat := []
  displacedIncumbent : Bool := false
  priorSession : Option Nat := none
  deriving DecidableEq, Repr

/-- `claim_lease`.  The transaction reads the clock twice: `checked` decides
whether the incumbent is live, `stamped` is written to `last_seen`. -/
def claimLease (settings : Settings) (row : AgentLease) (connectionId : Nat)
    (sessionId : Option Nat) (force : Bool) (checked stamped : Int) :
    LeaseClaim × AgentLease :=
  if agentIsLive settings row.connected row.lastSeen checked && !force &&
      !sameProcess row.activeSessionId sessionId then
    ({ priorSession := row.activeSessionId }, row)
  else
    ({ claimed := true, displacedIncumbent := row.connected,
       priorSession := row.activeSessionId },
     { connected := true, lastSeen := some stamped,
       activeConnectionId := some connectionId, activeSessionId := sessionId })

/-- `release_lease`: only if it is still ours. -/
def releaseLease (row : AgentLease) (connectionId : Nat) (now : Int) :
    Bool × AgentLease :=
  if row.activeConnectionId ≠ some connectionId then (false, row)
  else (true, { row with connected := false, lastSeen := some now })

/-- `revoke_lease`: the stale sweep's claim on one agent. -/
def revokeLease (settings : Settings) (row : AgentLease) (now : Int) :
    Bool × AgentLease :=
  if !agentIsStale settings row.connected row.lastSeen now then (false, row)
  else (true, { row with connected := false, activeConnectionId := none })

/-- Whether this connection still holds the agent's lease. -/
def holdsLease (row : AgentLease) (connectionId : Nat) : Bool :=
  decide (row.activeConnectionId = some connectionId) && row.connected

/-- `renew_agent_lease`: the heartbeat's compare-and-set, and whether it
matched the row. -/
def renewAgentLease (row : AgentLease) (connectionId : Nat) (now : Int) :
    Bool × AgentLease :=
  if holdsLease row connectionId then (true, { row with lastSeen := some now })
  else (false, row)

/-! ## What each operation decides -/

theorem holdsLease_iff {row : AgentLease} {connectionId : Nat} :
    holdsLease row connectionId = true ↔
      row.activeConnectionId = some connectionId ∧ row.connected = true := by
  simp [holdsLease]

theorem renewAgentLease_fst (row : AgentLease) (connectionId : Nat) (now : Int) :
    (renewAgentLease row connectionId now).1 = holdsLease row connectionId := by
  simp only [renewAgentLease]
  split
  case isTrue h => exact h.symm
  case isFalse h => simpa using h

/-- At most one connection holds a lease. -/
theorem holdsLease_unique {row : AgentLease} {c d : Nat}
    (hc : holdsLease row c = true) (hd : holdsLease row d = true) : c = d := by
  rw [holdsLease_iff] at hc hd
  exact Option.some.inj (hc.1.symm.trans hd.1)

/-- A claim wins or leaves the row as it was. -/
theorem claimLease_cases (settings : Settings) (row : AgentLease)
    (connectionId : Nat) (sessionId : Option Nat) (force : Bool)
    (checked stamped : Int) :
    ((claimLease settings row connectionId sessionId force checked
        stamped).1.claimed = false ∧
      (claimLease settings row connectionId sessionId force checked
        stamped).2 = row) ∨
    ((claimLease settings row connectionId sessionId force checked
        stamped).1.claimed = true ∧
      (claimLease settings row connectionId sessionId force checked stamped).2 =
        { connected := true, lastSeen := some stamped,
          activeConnectionId := some connectionId,
          activeSessionId := sessionId }) := by
  simp only [claimLease]
  split
  case isTrue => exact .inl ⟨rfl, rfl⟩
  case isFalse => exact .inr ⟨rfl, rfl⟩

/-- An unforced claim from another process is refused exactly while the
incumbent is connected with a heartbeat inside the stale window. -/
theorem claimLease_refused_iff {settings : Settings} {row : AgentLease}
    {connectionId : Nat} {sessionId : Option Nat} {checked stamped : Int}
    (hOther : sameProcess row.activeSessionId sessionId = false) :
    (claimLease settings row connectionId sessionId false checked
        stamped).1.claimed = false ↔
      row.connected = true ∧ ∃ seen, row.lastSeen = some seen ∧
        checked - settings.agentStaleAfter < seen := by
  rw [← agentIsLive_iff]
  cases hLive : agentIsLive settings row.connected row.lastSeen checked <;>
    simp [claimLease, hOther, hLive]

theorem releaseLease_cases (row : AgentLease) (connectionId : Nat) (now : Int) :
    (row.activeConnectionId ≠ some connectionId ∧
      releaseLease row connectionId now = (false, row)) ∨
    (row.activeConnectionId = some connectionId ∧
      releaseLease row connectionId now =
        (true, { row with connected := false, lastSeen := some now })) := by
  by_cases h : row.activeConnectionId = some connectionId
  · exact .inr ⟨h, by simp [releaseLease, h]⟩
  · exact .inl ⟨h, by simp [releaseLease, h]⟩

/-- A revoke wins only on a stale row, and then clears the fencing token. -/
theorem revokeLease_cases (settings : Settings) (row : AgentLease) (now : Int) :
    revokeLease settings row now = (false, row) ∨
    (row.connected = true ∧
      (∀ seen, row.lastSeen = some seen → seen ≤ now - settings.agentStaleAfter) ∧
      revokeLease settings row now =
        (true, { row with connected := false, activeConnectionId := none })) := by
  cases hStale : agentIsStale settings row.connected row.lastSeen now with
  | false => exact .inl (by simp [revokeLease, hStale])
  | true =>
      obtain ⟨hConnected, hSeen⟩ := agentIsStale_iff.mp hStale
      exact .inr ⟨hConnected, hSeen, by simp [revokeLease, hStale]⟩

theorem renewAgentLease_cases (row : AgentLease) (connectionId : Nat)
    (now : Int) :
    (holdsLease row connectionId = false ∧
      renewAgentLease row connectionId now = (false, row)) ∨
    (holdsLease row connectionId = true ∧
      renewAgentLease row connectionId now =
        (true, { row with lastSeen := some now })) := by
  cases h : holdsLease row connectionId with
  | false => exact .inl ⟨rfl, by simp [renewAgentLease, h]⟩
  | true => exact .inr ⟨rfl, by simp [renewAgentLease, h]⟩

end Rekuest.Leases
