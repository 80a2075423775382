/-!
# Settings and liveness

The deadlines of `settings.rs` that tasks and agents are measured against, and
the two predicates of `liveness.rs`.  Times and spans are microseconds of the
application clock.
-/

namespace Rekuest

/-- The settings a deadline is read from, with the server's defaults. -/
structure Settings where
  /-- `AGENT_STALE_AFTER` -/
  agentStaleAfter : Int := 30000000
  /-- `REKUEST_GRACE["DEFAULT"]`; zero fails in-flight work on the disconnect. -/
  grace : Int := 30000000
  /-- `REKUEST_GRACE["PICKUP_DEADLINE"]`; zero disables the pickup watchdog. -/
  pickupDeadline : Int := 60000000
  /-- `REKUEST_GRACE["DISCONNECTED_EXPIRY"]`; zero never expires. -/
  disconnectedExpiry : Int := 3600000000
  /-- `REKUEST_GRACE["CONTROL_DEADLINE"]`; zero disables. -/
  controlDeadline : Int := 60000000
  deriving DecidableEq, Repr

/-- Whether a websocket connection is alive: connected and a fresh heartbeat. -/
def agentIsLive (settings : Settings) (connected : Bool)
    (lastSeen : Option Int) (now : Int) : Bool :=
  match lastSeen with
  | some seen => connected && decide (now - settings.agentStaleAfter < seen)
  | none => false

/-- Whether an agent is stuck-connected: `connected`, but its lease expired or
never began. -/
def agentIsStale (settings : Settings) (connected : Bool)
    (lastSeen : Option Int) (now : Int) : Bool :=
  connected && !agentIsLive settings connected lastSeen now

theorem agentIsLive_iff {settings : Settings} {connected : Bool}
    {lastSeen : Option Int} {now : Int} :
    agentIsLive settings connected lastSeen now = true ↔
      connected = true ∧
        ∃ seen, lastSeen = some seen ∧ now - settings.agentStaleAfter < seen := by
  cases lastSeen <;> simp [agentIsLive]

theorem agentIsStale_iff {settings : Settings} {connected : Bool}
    {lastSeen : Option Int} {now : Int} :
    agentIsStale settings connected lastSeen now = true ↔
      connected = true ∧
        ∀ seen, lastSeen = some seen → seen ≤ now - settings.agentStaleAfter := by
  cases connected <;> cases lastSeen <;> simp [agentIsStale, agentIsLive]

end Rekuest
