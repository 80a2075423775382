import Rekuest.Concurrent.System
import Rekuest.Tables.Keyed
import Rekuest.Views.Marked

/-!
# How many implementations of an action are live

`Action.live_implementations` is kept by triggers and by
`facade_refresh_live_implementations`.  Transactions run at READ COMMITTED: each statement, and
the queries of the triggers it fires, reads what has committed and what its own transaction wrote;
a row that one transaction wrote waits for it, so no two write the same row.
-/

namespace Rekuest.Live

open Concurrent
open Views (View)

/-! ## The rows -/

/-- An agent, as far as it is counted. -/
structure Agent where
  webhook : Bool := false
  connected : Bool := false
  deriving DecidableEq

/-- `g.kind = 'WEBHOOK' OR g.connected` -/
def Agent.available (agent : Agent) : Bool := agent.webhook || agent.connected

structure Implementation where
  id : Nat
  action : Nat
  agent : Nat
  deriving DecidableEq

/-- The committed rows; which actions there are. -/
structure Rows where
  actions : Nat → Bool := fun _ => false
  agents : Nat → Agent := fun _ => {}
  implementations : List Implementation := []

/-- An implementation of the action on an agent that is available. -/
def Rows.counts (rows : Rows) (action : Nat) (i : Implementation) : Bool :=
  i.action == action && (rows.agents i.agent).available

/-- `COUNT` -/
def Rows.live (rows : Rows) (action : Nat) : Nat := rows.implementations.countP (rows.counts action)

/-- `live_implementations`, of the actions there are; a new one starts with 0. -/
def live_implementations : View Rows Nat Nat where
  value := Rows.live
  present := Rows.actions
  start := 0

/-! ## Writers -/

/-- An open transaction: what it wrote over the committed rows, and its marks.  `hosts` are the
agents of the implementations it wrote, before and after. -/
structure Writer where
  actions : Nat → Option Bool := fun _ => none
  agents : Nat → Option Agent := fun _ => none
  ids : List Nat := []
  rows : List Implementation := []
  marks : List Nat := []
  hosts : List Nat := []

/-- The rows as the transaction sees them. -/
def Writer.sees (w : Writer) (rows : Rows) : Rows where
  actions action := (w.actions action).getD (rows.actions action)
  agents agent := (w.agents agent).getD (rows.agents agent)
  implementations := rows.implementations.filter (fun i => !w.ids.contains i.id) ++ w.rows

/-- `facade_agent_mark_live_implementations`: when `connected` or `kind` changed. -/
def agent_marks (rows : Rows) (id : Nat) (agent : Agent) : List Nat :=
  if rows.agents id = agent then []
  else (rows.implementations.filter fun i => i.agent == id).map (·.action)

/-- `facade_implementation_inserted_mark`, `…_deleted_mark` and `…_updated_mark`. -/
def implementation_marks : Option Implementation → Option Implementation → List Nat
  | none, none => []
  | none, some new => [new.action]
  | some old, none => [old.action]
  | some old, some new =>
      if old.action = new.action ∧ old.agent = new.agent then [] else [old.action, new.action]

def Writer.setAgent (w : Writer) (rows : Rows) (id : Nat) (agent : Agent) : Writer :=
  { w with
    agents := fun other => if other = id then some agent else w.agents other
    marks := w.marks ++ agent_marks (w.sees rows) id agent }

/-- The row of an implementation, as the transaction sees it. -/
def Writer.old (w : Writer) (rows : Rows) (id : Nat) : Option Implementation :=
  (w.sees rows).implementations.find? fun i => i.id == id

/-- An implementation is inserted, moved or deleted. -/
def Writer.setImplementation (w : Writer) (rows : Rows) (id : Nat) (place : Option (Nat × Nat)) :
    Writer :=
  let new := place.map fun p => { id, action := p.1, agent := p.2 : Implementation }
  { w with
    ids := id :: w.ids
    rows := w.rows.filter (fun i => i.id != id) ++ new.toList
    marks := w.marks ++ implementation_marks (w.old rows id) new
    hosts := w.hosts ++ ((w.old rows id).toList ++ new.toList).map (·.agent) }

/-- An action is inserted or deleted. -/
def Writer.setAction (w : Writer) (id : Nat) (present : Bool) : Writer :=
  { w with actions := fun other => if other = id then some present else w.actions other }

/-- `FOREIGN KEY (action_id)`, checked when the transaction commits. -/
def Rows.actionsThere (rows : Rows) : Bool :=
  rows.implementations.all fun i => rows.actions i.action

/-! ## Transactions at READ COMMITTED -/

/-- The committed rows with the column, the marks and the refreshes, and the open transactions. -/
structure Site where
  view : Views.State Rows Nat Nat
  writers : List (Option Writer) := []

/-- What happens next: a statement of an open transaction, its end, or a step of a refresh. -/
inductive Label
  | begin
  | agent (t id : Nat) (agent : Agent)
  | implementation (t id : Nat) (place : Option (Nat × Nat))
  | action (t id : Nat) (present : Bool)
  | commit (t : Nat)
  | abort (t : Nat)
  | refresh (step : Views.Label Nat)

/-- The transaction at a place. -/
def Site.at_ (s : Site) (t : Nat) : Option Writer := s.writers[t]?.join

def Site.put (s : Site) (t : Nat) (w : Option Writer) : Site :=
  { s with writers := s.writers.set t w }

/-- Every other open transaction is so. -/
def Site.others (s : Site) (t : Nat) (p : Writer → Bool) : Bool :=
  (List.range s.writers.length).all fun i => i == t || (s.at_ i).all p

/-- The site's transactions, one statement at a time. -/
def site : System Site Label where
  next s
    | .begin => some { s with writers := s.writers ++ [some {}] }
    | .agent t id agent => do
        let w ← s.at_ t
        if s.others t fun other => (other.agents id).isNone then
          some (s.put t (some (w.setAgent s.view.rows id agent)))
        else none
    | .implementation t id place => do
        let w ← s.at_ t
        if s.others t fun other => !other.ids.contains id then
          some (s.put t (some (w.setImplementation s.view.rows id place)))
        else none
    | .action t id present => do
        let w ← s.at_ t
        if s.others t fun other => (other.actions id).isNone then
          some (s.put t (some (w.setAction id present)))
        else none
    | .commit t => do
        let w ← s.at_ t
        let rows := w.sees s.view.rows
        if rows.actionsThere then do
          let view ← s.view.write live_implementations rows w.marks
          some { s.put t none with view }
        else none
    | .abort t => do
        let _ ← s.at_ t
        some (s.put t none)
    | .refresh step => do
        let view ← s.view.refresh live_implementations step
        some { s with view }

/-- An agent changes, and implementations of it, in one transaction at a time. -/
def apart (s : Site) : Label → Bool
  | .agent t id _ => s.others t fun other => !other.hosts.contains id
  | .implementation t id place =>
      match s.at_ t with
      | none => true
      | some w =>
          (((w.old s.view.rows id).map (·.agent)).toList ++ (place.map (·.2)).toList).all
            fun host => s.others t fun other => (other.agents host).isNone
  | _ => true

/-- The runs in which no transaction changes an agent beside one that changes its
implementations. -/
def Apart (s : Site) (label : Label) : Prop := apart s label = true

instance (s : Site) (label : Label) : Decidable (Apart s label) :=
  inferInstanceAs (Decidable (apart s label = true))

end Rekuest.Live
