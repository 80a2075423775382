import Mathlib.Data.List.Dedup
import Rekuest.Concurrent.Grants
import Rekuest.Concurrent.System

/-!
# The tables of tasks, and the transactions on them

A pass judges in the snapshot of one statement which trees are over, and locks the roots it
takes; a later statement walks down from them, and what it finds is deleted.  Beside it tasks are
assigned, each in a transaction that checks its foreign keys as it commits: a key share lock of
the parent and the root, which waits for who deletes them.
-/

namespace Rekuest.Retention

open Concurrent (Grant Grants System)

/-- The columns of a task that retention reads. -/
structure Task where
  id : Nat
  parent : Option Nat := none
  root : Option Nat := none
  is_done : Bool := false
  finished_at : Option Int := none
  ephemeral : Bool := false
  deriving DecidableEq

/-- The modes of row locks: of a foreign key, of an update, and `FOR UPDATE` or a delete. -/
inductive Mode where
  | key_share
  | no_key_update
  | for_update
  deriving DecidableEq

def Mode.conflict : Mode → Mode → Bool
  | key_share, key_share | key_share, no_key_update | no_key_update, key_share => false
  | _, _ => true

theorem Mode.conflict_symm (m m' : Mode) : m.conflict m' = m'.conflict m := by
  cases m <;> cases m' <;> rfl

/-- A transaction that assigns or reports: the parent it read and the root of its children, the
tasks it inserted, and those it finished. -/
structure Call where
  read : Option (Nat × Nat) := none
  rows : List Task := []
  finished : List (Nat × Int) := []
  deriving DecidableEq

/-- A pass: what finished before its horizon is over; the snapshot its roots are judged in, the
roots it locked, and what its walk found below them. -/
structure Pass where
  horizon : Int
  ephemeral : Bool
  snapshot : List Task
  chosen : List Nat := []
  doomed : Option (List Nat) := none
  deriving DecidableEq

inductive Work where
  | idle
  | call (call : Call)
  | sweep (pass : Pass)
  deriving DecidableEq

/-- The committed tasks, the last id they drew, and what every session does. -/
structure Store where
  tasks : List Task := []
  sequence : Nat := 0
  work : Nat → Work := fun _ => .idle
  grants : Grants Nat Mode := []

def Store.set (s : Store) (x : Nat) (work : Work) : Store :=
  { s with work := fun y => if y = x then work else s.work y }

/-- How many roots one pass takes. -/
def BATCH : Nat := 500

/-! ## What a pass reads -/

/-- A root that finished before the horizon. -/
def Pass.over (pass : Pass) (t : Task) : Bool :=
  t.is_done && t.root.isNone && t.finished_at.any (· < pass.horizon) && (!pass.ephemeral || t.ephemeral)

/-- A root that the snapshot shows over, with everything below it done. -/
def Pass.judged (pass : Pass) (r : Nat) : Bool :=
  pass.snapshot.any (fun t => t.id = r && pass.over t) &&
    pass.snapshot.all fun d => d.root ≠ some r || d.is_done

/-- The ids of a list, and of the tasks right below them by a parent or by a root. -/
def below (tasks : List Task) (ids : List Nat) : List Nat :=
  ids ++ (tasks.filter fun t => t.parent.any ids.contains || t.root.any ids.contains).map (·.id)

/-- What is doomed with some tasks: everything below them, by parents and roots. -/
def doomed (tasks : List Task) (ids : List Nat) : List Nat :=
  Nat.repeat (fun ids => (below tasks ids).dedup) tasks.length ids

/-! ## What a transaction writes -/

/-- The tasks once those that a transaction finished are. -/
def finish (finished : List (Nat × Int)) (tasks : List Task) : List Task :=
  tasks.map fun t =>
    match (finished.filter fun f => f.1 = t.id).getLast? with
    | some f => { t with is_done := true, finished_at := some f.2 }
    | none => t

/-- The foreign key to a task holds: it is a row of the transaction's own, or one that nobody
else deletes. -/
def Store.keyed (s : Store) (x : Nat) (rows : List Task) (key : Option Nat) : Bool :=
  key.all fun id => rows.any (·.id = id) ||
    s.tasks.any (·.id = id) && s.grants.free Mode.conflict x id .key_share

/-- What a session does next. -/
inductive Act where
  | begin (x : Nat)
  | read (x parent : Nat)
  | insert (x : Nat) (ephemeral : Bool)
  | lock (x task : Nat) (mode : Mode)
  | finish (x task : Nat) (time : Int)
  | judge (x : Nat) (horizon : Int) (ephemeral : Bool)
  | choose (x root : Nat)
  | walk (x : Nat)
  | take (x task : Nat)
  | commit (x : Nat)
  | rollback (x : Nat)
  deriving DecidableEq

namespace Store

variable (s : Store)

/-- A row that a transaction's `INSERT` makes, below the parent it read. -/
def new_task (call : Call) (ephemeral : Bool) : Task where
  id := s.sequence + 1
  parent := call.read.map (·.1)
  root := call.read.map (·.2)
  ephemeral := ephemeral

/-- What a transaction does that assigns or reports. -/
def called (x : Nat) (c : Call) : Act → Option Store
  | .read _ parent =>
      ((c.rows ++ s.tasks).find? fun t => t.id = parent).map fun t =>
        s.set x (.call { c with read := some (parent, t.root.getD parent) })
  | .insert _ ephemeral =>
      let drawn := { s with sequence := s.sequence + 1 }
      some (drawn.set x (.call { c with rows := c.rows ++ [s.new_task c ephemeral] }))
  | .lock _ task mode =>
      if s.grants.free Mode.conflict x task mode then
        some { s with grants := ⟨x, task, mode⟩ :: s.grants }
      else none
  | .finish _ task time =>
      if ⟨x, task, .no_key_update⟩ ∈ s.grants ∨ ⟨x, task, .for_update⟩ ∈ s.grants then
        some (s.set x (.call { c with finished := c.finished ++ [(task, time)] }))
      else none
  | .commit _ =>
      if c.rows.all fun t => s.keyed x c.rows t.parent && s.keyed x c.rows t.root then
        let written := { s with
          tasks := Retention.finish c.finished s.tasks ++ c.rows
          grants := s.grants.released x }
        some (written.set x .idle)
      else none
  | _ => none

/-- What a pass does (`sweep_tasks`): it locks the roots of its snapshot that are still over,
stepping over those that somebody holds; walks down from them (`delete_tasks`), in a statement of
its own; and deletes what it found, none of it left for anyone to point at. -/
def swept (x : Nat) (p : Pass) : Act → Option Store
  | .choose _ r =>
      if p.doomed = none ∧ p.chosen.length < BATCH ∧ p.judged r = true ∧
          (∃ t ∈ s.tasks, t.id = r) ∧ (∀ t ∈ s.tasks, t.id = r → p.over t = true) ∧
          s.grants.free Mode.conflict x r .for_update = true then
        let locked := { s with grants := ⟨x, r, .for_update⟩ :: s.grants }
        some (locked.set x (.sweep { p with chosen := p.chosen ++ [r] }))
      else none
  | .walk _ =>
      if p.doomed = none ∧ p.chosen ≠ [] then
        some (s.set x (.sweep { p with doomed := some (doomed s.tasks p.chosen) }))
      else none
  | .take _ task =>
      if p.doomed.any (·.contains task) ∧ s.grants.free Mode.conflict x task .for_update then
        some { s with grants := ⟨x, task, .for_update⟩ :: s.grants }
      else none
  | .commit _ =>
      match p.doomed with
      | none => none
      | some ids =>
          if (∀ t ∈ s.tasks, t.id ∈ ids → ⟨x, t.id, .for_update⟩ ∈ s.grants) ∧
              ∀ t ∈ s.tasks, t.id ∉ ids → ∀ id ∈ ids, t.parent ≠ some id ∧ t.root ≠ some id then
            let deleted := { s with
              tasks := s.tasks.filter fun t => !ids.contains t.id
              grants := s.grants.released x }
            some (deleted.set x .idle)
          else none
  | _ => none

/-- What an idle session does. -/
def opened (x : Nat) : Act → Option Store
  | .begin _ => some (s.set x (.call {}))
  | .judge _ horizon ephemeral => some (s.set x (.sweep { horizon, ephemeral, snapshot := s.tasks }))
  | _ => none

end Store

def Act.tx : Act → Nat
  | begin x | read x _ | insert x _ | lock x _ _ | finish x _ _ | judge x _ _ | choose x _ | walk x
  | take x _ | commit x | rollback x => x

/-- The database; an act that has to wait for a lock is not enabled. -/
def database : System Store Act where
  next s act :=
    match s.work act.tx, act with
    | .idle, act => s.opened act.tx act
    | _, .rollback x => some ({ s with grants := s.grants.released x }.set x .idle)
    | .call c, act => s.called act.tx c act
    | .sweep p, act => s.swept act.tx p act

end Rekuest.Retention

/-!
# The trees of tasks

The walk follows parents and roots, the judgement of a tree roots alone.  They agree where the
root of a child is its parent's, or its parent: then the walk from a root finds the root and what
names it.
-/

namespace Rekuest.Retention

variable {tasks : List Task} {ids chosen : List Nat}

/-- Children have the root of their parent, or their parent for it; and a root has none. -/
structure Rooted (tasks : List Task) : Prop where
  parent : ∀ t ∈ tasks, ∀ p, t.parent = some p →
    ∃ q, t.root = some q ∧ ∀ t' ∈ tasks, t'.id = p → t'.root.getD p = q
  root : ∀ t ∈ tasks, ∀ q, t.root = some q → ∀ t' ∈ tasks, t'.id = q → t'.root = none
  present : ∀ t ∈ tasks, ∀ id, t.parent = some id ∨ t.root = some id → ∃ t' ∈ tasks, t'.id = id

theorem mem_below {i : Nat} : i ∈ below tasks ids ↔ i ∈ ids ∨ ∃ t ∈ tasks, t.id = i ∧
    ((∃ p ∈ ids, t.parent = some p) ∨ ∃ q ∈ ids, t.root = some q) := by
  have hAny : ∀ key : Option Nat, key.any ids.contains = true ↔ ∃ id ∈ ids, key = some id := by
    intro key
    cases key with
    | none =>
        constructor
        · intro h
          cases h
        · rintro ⟨id, -, h⟩
          cases h
    | some id =>
        rw [Option.any_some, List.contains_iff_mem]
        constructor
        · intro h
          exact ⟨id, h, rfl⟩
        · rintro ⟨id', h, hIs⟩
          rw [Option.some.inj hIs]
          exact h
  unfold below
  rw [List.mem_append, List.mem_map]
  constructor
  · rintro (hOld | ⟨t, hMem, hId⟩)
    · exact .inl hOld
    · obtain ⟨hIn, hKeys⟩ := List.mem_filter.1 hMem
      rw [Bool.or_eq_true, hAny, hAny] at hKeys
      exact .inr ⟨t, hIn, hId, hKeys⟩
  · rintro (hOld | ⟨t, hIn, hId, hKeys⟩)
    · exact .inl hOld
    · refine .inr ⟨t, List.mem_filter.2 ⟨hIn, ?_⟩, hId⟩
      rw [Bool.or_eq_true, hAny, hAny]
      exact hKeys

/-- What the walk finds is a root that was taken, or names one. -/
theorem doomed_sound (hRooted : Rooted tasks)
    (hChosen : ∀ r ∈ chosen, ∃ t ∈ tasks, t.id = r ∧ t.root = none) {i : Nat}
    (h : i ∈ doomed tasks chosen) :
    i ∈ chosen ∨ ∃ t ∈ tasks, t.id = i ∧ ∃ r ∈ chosen, t.root = some r := by
  unfold doomed at h
  generalize tasks.length = n at h
  induction n generalizing i with
  | zero => exact .inl h
  | succ n ih =>
      have hBelow : i ∈ (below tasks (Nat.repeat (fun ids => (below tasks ids).dedup) n chosen)).dedup := h
      rw [List.mem_dedup, mem_below] at hBelow
      rcases hBelow with hOld | ⟨t, hMem, hId, ⟨p, hp, hParent⟩ | ⟨q, hq, hRoot⟩⟩
      · exact ih hOld
      · obtain ⟨q, hRoot, hSame⟩ := hRooted.parent t hMem p hParent
        refine .inr ⟨t, hMem, hId, ?_⟩
        rcases ih hp with hTaken | ⟨t', hMem', hId', r, hr, hRoot'⟩
        · obtain ⟨t', hMem', hId', hNone⟩ := hChosen p hTaken
          have hIs := hSame t' hMem' hId'
          rw [hNone] at hIs
          exact ⟨p, hTaken, by rw [hRoot, ← hIs]; rfl⟩
        · have hIs := hSame t' hMem' hId'
          rw [hRoot'] at hIs
          exact ⟨r, hr, by rw [hRoot, ← hIs]; rfl⟩
      · rcases ih hq with hTaken | ⟨t', hMem', hId', r, hr, hRoot'⟩
        · exact .inr ⟨t, hMem, hId, q, hTaken, hRoot⟩
        · have hNone := hRooted.root t hMem q hRoot t' hMem' hId'
          rw [hRoot'] at hNone
          cases hNone

end Rekuest.Retention
