import Mathlib.Data.List.Sort
import Mathlib.Data.Option.Basic

/-!
# Reading an agent's states back

An agent's states are kept as snapshots and the patches after them, by session: revisions
restart with every session.  There are two readers of them, one for one session and one for any;
checkouts are by the first.
-/

namespace Rekuest.Replay

/-- A row of `facade_session`. -/
structure Session where
  id : Nat
  session_id : String
  created_at : Int
  deriving DecidableEq

/-- A row of `facade_state`; an agent has one for each interface. -/
structure State where
  id : Nat
  interface : String
  deriving DecidableEq

/-- A row of `facade_snapshot`. -/
structure Snapshot (V : Type) where
  id : Nat
  state : Nat
  session : Option Nat
  value : V
  timestamp : Int
  global_rev : Int
  deriving DecidableEq

/-- A row of `facade_patch`. -/
structure Patch (V : Type) where
  id : Nat
  state : Nat
  session : Option Nat
  op : String
  path : String
  value : V
  timestamp : Int
  global_rev : Int
  deriving DecidableEq

/-- The rows of one agent, in the order the database keeps them. -/
structure History (V : Type) where
  sessions : List Session
  states : List State
  snapshots : List (Snapshot V)
  patches : List (Patch V)

/-- A patch as `jsonpatch` takes it. -/
structure PatchDoc (V : Type) where
  op : String
  path : String
  value : Option V

/-- Why a reader raises. -/
inductive Failure where
  | no_session
  | no_snapshot (state : Nat)
  | no_state (state : Nat)
  | no_patch
  | unapplied (patch : Nat)
  deriving DecidableEq

variable {V : Type}

/-- A `remove` has no value. -/
def Patch.doc (patch : Patch V) : PatchDoc V where
  op := patch.op
  path := patch.path
  value := if patch.op = "remove" then none else some patch.value

/-- The first row in an order that the database may break ties of. -/
def first_by {α : Type} (before : α → α → Bool) (rows : List α) : Option α :=
  rows.foldl (fun best a =>
    match best with
    | none => some a
    | some b => if before a b then some a else some b) none

/-- At or before a revision, if one is asked for. -/
def upTo (global_revision : Option Int) (rev : Int) : Bool := global_revision.all (rev ≤ ·)

/-! ## One session -/

/-- Newer first, and of one revision the one that was stored last. -/
def Snapshot.newer (a b : Snapshot V) : Bool :=
  b.global_rev < a.global_rev || a.global_rev = b.global_rev && b.id < a.id

/-- In the order of their revisions, and of one revision as they were stored. -/
def Patch.earlier (p q : Patch V) : Prop :=
  p.global_rev < q.global_rev ∨ p.global_rev = q.global_rev ∧ p.id ≤ q.id

instance (p q : Patch V) : Decidable (p.earlier q) := inferInstanceAs (Decidable (_ ∨ _))

/-- A state as it is read: its value, its revision, and the latest time seen. -/
structure Reading (V : Type) where
  value : V
  global_revision : Int
  timestamp : Int

section

variable (apply : PatchDoc V → V → Option V)

/-- One patch over a reading; one that does not apply is skipped. -/
def Reading.patched (reading : Reading V) (patch : Patch V) : Reading V :=
  match apply patch.doc reading.value with
  | none => reading
  | some value =>
      { value, global_revision := patch.global_rev, timestamp := max reading.timestamp patch.timestamp }

/-- A state within one session, at a revision or the latest. -/
def materialize (h : History V) (t : Session) (state : State) (global_revision : Option Int)
    (latest_timestamp : Int) : Except Failure (Reading V) :=
  let snapshots := h.snapshots.filter fun a =>
    a.state = state.id && a.session = some t.id && upTo global_revision a.global_rev
  match first_by Snapshot.newer snapshots with
  | none => .error (.no_snapshot state.id)
  | some snapshot =>
      let patches := (h.patches.filter fun p =>
        p.state = state.id && p.session = some t.id && decide (snapshot.global_rev < p.global_rev) &&
          upTo global_revision p.global_rev).insertionSort Patch.earlier
      .ok (patches.foldl (Reading.patched apply)
        ⟨snapshot.value, snapshot.global_rev, max latest_timestamp snapshot.timestamp⟩)

/-- What a read of an agent's states returns. -/
structure Payload (V : Type) where
  states : List (String × V) := []
  global_revision : Int := 0
  forward_patches : List (Patch V) := []
  backward_patches : List (Patch V) := []
  session_id : Option String := none
  timestamp : Option Int := none

/-- The session that is asked for, or the agent's newest. -/
def session_of (h : History V) (session_id : Option String) : Except Failure (Option Session) :=
  match session_id.filter (· ≠ "") with
  | none => .ok (first_by (fun a b => b.created_at < a.created_at) h.sessions)
  | some session_id =>
      match h.sessions.find? (·.session_id = session_id) with
      | none => .error .no_session
      | some t => .ok (some t)

/-- The states one after the other: their values, the highest revision, and the latest time. -/
def materialize_all (h : History V) (t : Session) (global_revision : Option Int) :
    List State → Payload V → Int → Except Failure (Payload V × Int)
  | [], payload, timestamp => .ok (payload, timestamp)
  | state :: rest, payload, timestamp =>
      match materialize apply h t state global_revision timestamp with
      | .error failure => .error failure
      | .ok reading =>
          materialize_all h t global_revision rest
            { payload with
              states := payload.states ++ [(state.interface, reading.value)]
              global_revision := max payload.global_revision reading.global_revision }
            reading.timestamp

/-- An agent's states within one session, at a revision or the latest, and the patches of the
session right after and before it. -/
def get_latest_state (h : History V) (state_id : Option Nat) (session_id : Option String)
    (global_revision : Option Int) (forward_patch_count backward_patch_count : Nat) :
    Except Failure (Payload V) :=
  match session_of h session_id with
  | .error failure => .error failure
  | .ok none => .ok {}
  | .ok (some t) =>
      let states := h.states.filter fun state => state_id.all (state.id = ·)
      match materialize_all apply h t global_revision states {} t.created_at with
      | .error failure => .error failure
      | .ok (payload, timestamp) =>
          let reference_rev := global_revision.getD payload.global_revision
          let patches := (h.patches.filter fun p => p.session = some t.id).insertionSort
            fun p q => p.global_rev ≤ q.global_rev
          let backward := patches.filter fun p => p.global_rev ≤ reference_rev
          .ok { payload with
            forward_patches := (patches.filter fun p => reference_rev < p.global_rev).take
              forward_patch_count
            backward_patches := backward.drop (backward.length - backward_patch_count)
            session_id := some t.session_id
            timestamp := some timestamp }

/-! ## Any session -/

/-- A row of the session that is asked for, or of any. -/
def in_session (h : History V) (session_id : Option String) (session : Option Nat) : Bool :=
  (session_id.filter (· ≠ "")).all fun session_id =>
    h.sessions.any fun t => some t.id = session && t.session_id = session_id

/-- The closest snapshot at or before a revision. -/
def anchor_snapshot (h : History V) (target_revision : Int) (state_id : Nat)
    (session_id : Option String) : Option (Snapshot V) :=
  first_by (fun a b => b.global_rev < a.global_rev) (h.snapshots.filter fun a =>
    a.state = state_id && in_session h session_id a.session && decide (a.global_rev ≤ target_revision))

/-- The patches after it, up to the revision. -/
def patches_after (h : History V) (anchor : Snapshot V) (target_revision : Int) (state_id : Nat)
    (session_id : Option String) : List (Patch V) :=
  (h.patches.filter fun p => p.state = state_id && in_session h session_id p.session &&
    decide (anchor.global_rev < p.global_rev) && decide (p.global_rev ≤ target_revision)).insertionSort
      fun p q => p.global_rev ≤ q.global_rev

/-- Patches one after the other; one that does not apply raises. -/
def apply_patch (patches : List (Patch V)) (value : V) : Except Failure V :=
  patches.foldlM (fun value patch =>
    match apply patch.doc value with
    | none => .error (.unapplied patch.id)
    | some value => .ok value) value

/-- A state at a revision, of a session or of any. -/
def get_state_at_revision (h : History V) (target_revision : Int) (state_id : Nat)
    (session_id : Option String) : Except Failure (Option (Snapshot V)) :=
  match anchor_snapshot h target_revision state_id session_id with
  | none => .ok none
  | some anchor =>
      let patches := patches_after h anchor target_revision state_id session_id
      match patches.getLast? with
      | none => .ok (some anchor)
      | some last =>
          match apply_patch apply patches anchor.value with
          | .error failure => .error failure
          | .ok value =>
              -- Not a row: what the patches make of the anchor.
              .ok (some ⟨0, last.state, last.session, value, last.timestamp, last.global_rev⟩)

/-- The states that a session has rows of, or any has. -/
def get_state_ids (h : History V) (session_id : Option String) : List Nat :=
  (((h.snapshots.filter fun a => in_session h session_id a.session).map (·.state) ++
    (h.patches.filter fun p => in_session h session_id p.session).map (·.state)).dedup).insertionSort
      fun a b => a ≤ b

def state_at_global_rev (h : History V) (global_revision : Int) (state_id : Option Nat)
    (session_id : Option String) : Except Failure (List (Snapshot V)) :=
  let state_ids := match state_id with
    | some id => [id]
    | none => get_state_ids h session_id
  (state_ids.mapM fun id => get_state_at_revision apply h global_revision id session_id).map
    (·.filterMap id)

/-! ## Checkouts -/

/-- The last patch at or before a time, with the session it is of. -/
def latest_patch (h : History V) (timestamp : Int) (of_state : Patch V → Bool) :
    Option (Patch V) :=
  first_by (fun p q => q.timestamp < p.timestamp)
    (h.patches.filter fun p => of_state p && decide (p.timestamp ≤ timestamp))

def session_id_of (h : History V) (patch : Patch V) : Option String :=
  (patch.session.bind fun id => h.sessions.find? (·.id = id)).map (·.session_id)

/-- The revision and the session that a checkout is of. -/
def target_of (h : History V) (of_state : Patch V → Bool) (session_id : Option String)
    (global_revision timestamp : Option Int) : Except Failure (Option Int × Option String) :=
  match timestamp with
  | none => .ok (global_revision, session_id)
  | some timestamp =>
      match latest_patch h timestamp of_state with
      | none => .error .no_patch
      | some patch => .ok (some patch.global_rev, session_id_of h patch)

/-- What a checkout of a state returns. -/
structure StateValue (V : Type) where
  state_id : Nat
  value : V
  global_revision : Int
  forward_patches : List (Patch V)
  backward_patches : List (Patch V)

/-- A state at a revision, or at a time. -/
def checkout (h : History V) (state : Nat) (session_id : Option String)
    (global_revision timestamp : Option Int) (forward_patch_count backward_patch_count : Nat) :
    Except Failure (StateValue V) :=
  match h.states.find? (·.id = state) with
  | none => .error (.no_state state)
  | some state_inst =>
      match target_of h (fun p => p.state = state) session_id global_revision timestamp with
      | .error failure => .error failure
      | .ok (target_global_rev, target_session) =>
          match get_latest_state apply h (some state) target_session target_global_rev
              forward_patch_count backward_patch_count with
          | .error failure => .error failure
          | .ok payload =>
              match payload.states.find? (·.1 = state_inst.interface) with
              | none => .error (.no_state state)
              | some entry =>
                  .ok ⟨state, entry.2, payload.global_revision, payload.forward_patches,
                    payload.backward_patches⟩

/-- All states of an agent at a revision, or at a time. -/
def checkout_agent (h : History V) (session_id : Option String)
    (global_revision timestamp : Option Int) (forward_patch_count backward_patch_count : Nat) :
    Except Failure (Payload V) :=
  match target_of h (fun _ => true) session_id global_revision timestamp with
  | .error failure => .error failure
  | .ok (target_global_rev, target_session) =>
      get_latest_state apply h none target_session target_global_rev forward_patch_count
        backward_patch_count

end

end Rekuest.Replay
