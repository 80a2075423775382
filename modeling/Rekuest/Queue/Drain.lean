import Rekuest.Concurrent.System
import Rekuest.Leases.Lease
import Rekuest.Queue.AgentQueue

/-!
# The drains of one agent's queue

`consumers/agent_protocol.rs`: every connection of an agent has a drain that
takes frames from the queue and hands them to a channel, and a writer task that
takes them from the channel and writes them to the socket.  One step is one
command, one query, or one message of the writer; what else a connection does
is to send and to stop at any time.
-/

namespace Rekuest.Queue

open Concurrent

/-- What a writer task is given. -/
inductive Outbound
  | text (frame : Frame)
  /-- A frame of another task: a reply, a heartbeat, a mirrored event. -/
  | reply
  | close
  deriving DecidableEq, Repr

/-- Where `drain_once` stands. -/
inductive Drain
  /-- Moving back what was popped and not acked: at its start, after an error,
  and when it found nothing to pop. -/
  | recovering
  | popping
  /-- `holds_lease` -/
  | checking (frame : Frame)
  | requeueing (frame : Frame)
  /-- `is_stale_assign` -/
  | fencing (frame : Frame)
  /-- Acking a stale Assign. -/
  | dropping (frame : Frame)
  | sending (frame : Frame)
  | acking (frame : Frame)
  | stopped
  deriving DecidableEq, Repr

/-- The frame a drain popped and is not done with. -/
def Drain.frame : Drain → Option Frame
  | .checking f | .requeueing f | .fencing f | .dropping f | .sending f | .acking f => some f
  | .recovering | .popping | .stopped => none

/-- One connection: its drain, what its writer was given and did not write, and
whether the writer still runs. -/
structure Connection where
  drain : Drain
  unsent : List Outbound := []
  writing : Bool := true
  deriving DecidableEq, Repr

/-- A message put into the channel, while its writer runs. -/
def Connection.tell (conn : Connection) (outbound : Outbound) : Connection :=
  if conn.writing then { conn with unsent := conn.unsent ++ [outbound] } else conn

/-- How a command to redis or the database ends: refused, carried out without
an answer, or answered. -/
inductive Reply
  | refused
  | unanswered
  | answered
  deriving DecidableEq, Repr

/-- One agent's queue and lease and the tasks closed, and what is followed of
the frames: those pushed, written to a socket, and dropped as stale Assigns. -/
structure Shared where
  lists : AgentQueue := {}
  lease : Leases.AgentLease := {}
  finalized : List Nat := []
  pushed : List Frame := []
  written : List Frame := []
  dropped : List Frame := []
  deriving DecidableEq, Repr

/-- What the connections share, and the connections. -/
structure State extends Shared where
  connections : List Connection := []
  deriving DecidableEq, Repr

inductive Action
  | push (message : Message) (priority : Bool)
  /-- A new connection claims the lease and, when it wins, starts its drain. -/
  | connect (session : Option Nat) (force : Bool) (checked stamped : Int)
  | renew (connection : Nat) (now : Int)
  | release (connection : Nat) (now : Int)
  | revoke (now : Int)
  | drain (connection : Nat) (reply : Reply)
  /-- The writer's next message; whether the socket takes it. -/
  | write (connection : Nat) (taken : Bool)
  /-- Another task of the connection sends, or asks to close. -/
  | send (connection : Nat) (outbound : Outbound)
  /-- The drain is told to stop: displaced, or the heartbeat failed. -/
  | abort (connection : Nat)
  /-- The connection dies with everything it runs. -/
  | die (connection : Nat)
  | finalize (task : Nat)
  deriving DecidableEq, Repr

/-- Whether a queued frame is an Assign of a task the server already closed. -/
def isStaleAssign (finalized : List Nat) (frame : Frame) : Bool :=
  match frame.message with
  | .command (.assign assign) => finalized.contains assign.task
  | _ => false

namespace State

variable (s : State)

def setConnection (c : Nat) (conn : Connection) : State :=
  { s with connections := s.connections.set c conn }

/-- A command on the lists: what it leaves when it was carried out, and where
the drain goes on; after an error it opens the queue again and recovers. -/
def command (c : Nat) (conn : Connection) (reply : Reply) (after : State) (drain : Drain) :
    State :=
  match reply with
  | .refused => s.setConnection c { conn with drain := .recovering }
  | .unanswered => after.setConnection c { conn with drain := .recovering }
  | .answered => after.setConnection c { conn with drain := drain }

/-- The next step of `drain_once`. -/
def drainOnce (c : Nat) (conn : Connection) (reply : Reply) : Option State :=
  match conn.drain with
  | .stopped => none
  | .recovering =>
      some <| s.command c conn reply { s with lists := s.lists.recover.2 }
        (if s.lists.recover.1 then .recovering else .popping)
  | .popping =>
      some <| s.command c conn reply { s with lists := s.lists.pop.2 }
        (match s.lists.pop.1 with
        | none => .recovering
        | some frame => .checking frame)
  | .checking frame =>
      some <| s.command c conn reply s
        (if Leases.holdsLease s.lease c then .fencing frame else .requeueing frame)
  | .requeueing frame =>
      let conn' := if reply = .answered then conn.tell .close else conn
      some <| s.command c conn' reply { s with lists := s.lists.requeue frame } .stopped
  | .fencing frame =>
      -- a task that cannot be read counts as open
      let stale := reply = .answered && isStaleAssign s.finalized frame
      some <| s.setConnection c
        { conn with drain := if stale then .dropping frame else .sending frame }
  | .dropping frame =>
      some <| s.command c conn reply
        { s with lists := s.lists.ack frame, dropped := s.dropped ++ [frame] } .popping
  | .sending frame =>
      some <| s.setConnection c <| if conn.writing then
        { conn.tell (.text frame) with drain := .acking frame }
      else { conn with drain := .stopped }
  | .acking frame =>
      some <| s.command c conn reply { s with lists := s.lists.ack frame } .popping

/-- The writer task takes its next message. -/
def writeOne (c : Nat) (conn : Connection) (taken : Bool) : Option State :=
  if !conn.writing then none
  else match conn.unsent with
    | [] => none
    | .close :: _ => some <| s.setConnection c { conn with writing := false }
    | .reply :: rest => some <| s.setConnection c <|
        if taken then { conn with unsent := rest } else { conn with writing := false }
    | .text frame :: rest => some <|
        if taken then
          { s with written := s.written ++ [frame] }.setConnection c
            { conn with unsent := rest }
        else s.setConnection c { conn with writing := false }

def next (settings : Settings) : Action → Option State
  | .push message priority =>
      let frame : Frame := { id := s.pushed.length, message, priority }
      some { s with lists := s.lists.push frame, pushed := s.pushed ++ [frame] }
  | .connect session force checked stamped =>
      let (claim, lease) := Leases.claimLease settings s.lease s.connections.length session
        force checked stamped
      some { s with
        lease := lease
        connections := s.connections ++ [
          if claim.claimed then { drain := .recovering, unsent := [.reply] }
          else { drain := .stopped, unsent := [.reply, .close] }] }
  | .renew c now => some { s with lease := (Leases.renewAgentLease s.lease c now).2 }
  | .release c now => some { s with lease := (Leases.releaseLease s.lease c now).2 }
  | .revoke now => some { s with lease := (Leases.revokeLease settings s.lease now).2 }
  | .drain c reply => (s.connections[c]?).bind fun conn => s.drainOnce c conn reply
  | .write c taken => (s.connections[c]?).bind fun conn => s.writeOne c conn taken
  | .send c outbound =>
      match outbound with
      | .text _ => none
      | _ => (s.connections[c]?).map fun conn => s.setConnection c (conn.tell outbound)
  | .abort c => (s.connections[c]?).map fun conn =>
      s.setConnection c { conn with drain := .stopped }
  | .die c => (s.connections[c]?).map fun conn =>
      s.setConnection c { conn with drain := .stopped, writing := false }
  | .finalize task => some { s with finalized := task :: s.finalized }

end State

/-- The queue of one agent with every connection it ever has. -/
def drains (settings : Settings) : System State Action where
  next s := s.next settings

/-- What a step can do to the two lists. -/
inductive ListsMove (s : State) : Action → AgentQueue → Prop
  | same (a : Action) : ListsMove s a s.lists
  | pushed (message : Message) (priority : Bool) : ListsMove s (.push message priority)
      (s.lists.push { id := s.pushed.length, message, priority })
  | recovered (c : Nat) (reply : Reply) (hReply : reply ≠ .refused) :
      ListsMove s (.drain c reply) s.lists.recover.2
  | popped (c : Nat) (reply : Reply) (conn : Connection)
      (hConn : s.connections[c]? = some conn) (hDrain : conn.drain = .popping)
      (hReply : reply ≠ .refused) : ListsMove s (.drain c reply) s.lists.pop.2
  | requeued (c : Nat) (reply : Reply) (frame : Frame) (hReply : reply ≠ .refused) :
      ListsMove s (.drain c reply) (s.lists.requeue frame)
  | acked (c : Nat) (reply : Reply) (conn : Connection) (frame : Frame)
      (hConn : s.connections[c]? = some conn)
      (hDrain : conn.drain = .dropping frame ∨ conn.drain = .acking frame)
      (hReply : reply ≠ .refused) : ListsMove s (.drain c reply) (s.lists.ack frame)

section

variable {s s' after : State} {c : Nat} {conn : Connection} {reply : Reply} {drain : Drain}
variable {a : Action} {settings : Settings}

theorem State.lists_command (h : reply ≠ .refused → ListsMove s a after.lists) :
    ListsMove s a (s.command c conn reply after drain).lists := by
  cases reply with
  | refused => exact .same a
  | unanswered | answered => exact h (by simp)

theorem lists_drain (hConn : s.connections[c]? = some conn)
    (hNext : s.drainOnce c conn reply = some s') : ListsMove s (.drain c reply) s'.lists := by
  unfold State.drainOnce at hNext
  split at hNext
  case h_1 => cases hNext
  case h_2 =>
    cases hNext
    exact State.lists_command (.recovered c reply)
  case h_3 hDrain =>
    cases hNext
    exact State.lists_command (.popped c reply conn hConn hDrain)
  case h_4 =>
    cases hNext
    exact State.lists_command fun _ => .same _
  case h_5 frame _ =>
    cases hNext
    exact State.lists_command (.requeued c reply frame)
  case h_6 | h_8 =>
    cases hNext
    exact .same _
  case h_7 frame hDrain =>
    cases hNext
    exact State.lists_command (.acked c reply conn frame hConn (.inl hDrain))
  case h_9 frame hDrain =>
    cases hNext
    exact State.lists_command (.acked c reply conn frame hConn (.inr hDrain))

theorem lists_write {taken : Bool} (hNext : s.writeOne c conn taken = some s') :
    s'.lists = s.lists := by
  unfold State.writeOne at hNext
  split at hNext
  · cases hNext
  · split at hNext
    case h_1 => cases hNext
    case h_2 | h_3 =>
      cases hNext
      rfl
    case h_4 =>
      split at hNext <;> cases hNext <;> rfl

theorem lists_next (hNext : s.next settings a = some s') : ListsMove s a s'.lists := by
  cases a with
  | push message priority =>
      cases hNext
      exact .pushed message priority
  | drain c reply =>
      obtain ⟨conn, hConn, hDrain⟩ := Option.bind_eq_some_iff.mp hNext
      exact lists_drain hConn hDrain
  | write c taken =>
      obtain ⟨conn, -, hWrite⟩ := Option.bind_eq_some_iff.mp hNext
      rw [lists_write hWrite]
      exact .same _
  | send c outbound =>
      simp only [State.next] at hNext
      split at hNext
      · cases hNext
      · obtain ⟨conn, -, rfl⟩ := Option.map_eq_some_iff.mp hNext
        exact .same _
  | abort c | die c =>
      obtain ⟨conn, -, rfl⟩ := Option.map_eq_some_iff.mp hNext
      exact .same _
  | connect | renew | release | revoke | finalize =>
      cases hNext
      exact .same _

end

end Rekuest.Queue
