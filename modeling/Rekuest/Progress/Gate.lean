import Mathlib.Data.List.AList

/-!
# The progress gate

An agent may report progress as fast as its loop runs; at most one report of a task in an
interval is sent.  A report inside the interval is held, and a timer sends the newest held one
when the interval ends.  Any other event of the task first sends what is held.
-/

namespace Rekuest.Progress

/-- The shortest gap between two fan-outs of one task, in nanoseconds. -/
def INTERVAL : Nat := 100000000

/-- Tasks remembered at most; past it, those quiet for a while are forgotten. -/
def MAX_TRACKED : Nat := 10000

/-- How long a task that is forgotten has been quiet. -/
def QUIET : Nat := 60000000000

/-- What the gate remembers of a task. -/
structure Slot where
  last_sent : Option Nat := none
  held : Option Int := none
  armed : Bool := false
  deriving DecidableEq

/-- The slots by task; of times, only how long ago one was is asked. -/
abbrev Slots := AList fun _ : Int => Slot

/-- `HashMap::retain` -/
def retain (keep : Slot → Bool) (slots : Slots) : Slots :=
  ⟨slots.entries.filter fun entry => keep entry.2, slots.nodupKeys.sublist List.filter_sublist⟩

/-- What becomes of a report. -/
inductive Admit where
  | now
  /-- Held, and sent after a while: the first hold of an interval arms a timer. -/
  | heldArm (delay : Nat)
  /-- Held behind an armed timer. -/
  | held
  deriving DecidableEq

/-- What the gate keeps when it is full. -/
def Slot.kept (now : Nat) (slot : Slot) : Bool :=
  slot.armed || slot.last_sent.any fun last => now - last < QUIET

/-- A report of a task comes in. -/
def admit_event (slots : Slots) (task event : Int) (now : Nat) : Slots × Admit :=
  let slots := if MAX_TRACKED ≤ slots.entries.length then retain (Slot.kept now) slots else slots
  let slot := (slots.lookup task).getD {}
  match slot.last_sent.filter fun last => now - last < INTERVAL with
  | some last =>
      if slot.armed then (slots.insert task { slot with held := some event }, .held)
      else
        (slots.insert task { slot with held := some event, armed := true },
          .heldArm (INTERVAL - (now - last)))
  | none => (slots.insert task { slot with last_sent := some now, held := none }, .now)

/-- A timer of a task fires. -/
def release (slots : Slots) (task : Int) (now : Nat) : Slots × Option Int :=
  match slots.lookup task with
  | none => (slots, none)
  | some slot =>
      match slot.held with
      | none => (slots.insert task { slot with armed := false }, none)
      | some event => (slots.insert task ⟨some now, none, false⟩, some event)

/-- The report held for a task, to be sent before another event of it.  The task starts over. -/
def take_held (slots : Slots) (task : Int) : Slots × Option Int :=
  (slots.erase task, (slots.lookup task).bind (·.held))

/-! ## Runs -/

/-- A timer that sleeps until it is due. -/
structure Timer where
  task : Int
  due : Nat
  deriving DecidableEq

/-- The gate, the timers in flight, and the time. -/
structure Gate where
  slots : Slots := ∅
  timers : List Timer := []
  now : Nat := 0

inductive Call where
  | progress (task event : Int)
  | fire (timer : Timer)
  | take (task : Int)

/-- A call that was made, and what it was answered. -/
inductive Entry where
  | admitted (task event : Int) (answer : Admit) (now : Nat)
  | released (task : Int) (event : Option Int) (now : Nat)
  | taken (task : Int) (event : Option Int) (now : Nat)
  deriving DecidableEq

def Entry.task : Entry → Int
  | .admitted task .. => task
  | .released task .. => task
  | .taken task .. => task

def Entry.time : Entry → Nat
  | .admitted _ _ _ now => now
  | .released _ _ now => now
  | .taken _ _ now => now

/-- The gate fans a report of the task out. -/
def Entry.Sends (task : Int) : Entry → Prop
  | .admitted task' _ answer _ => task' = task ∧ answer = .now
  | .released task' event _ => task' = task ∧ event.isSome = true
  | .taken .. => False

/-- The timer a hold arms. -/
def Admit.arms (task : Int) (now : Nat) : Admit → List Timer
  | .heldArm delay => [⟨task, now + delay⟩]
  | _ => []

/-- One call; the clock does not go back, and a timer fires once, when it is due or later. -/
def step (g : Gate) (now : Nat) : Call → Option (Entry × Gate)
  | .progress task event =>
      if now < g.now then none
      else
        let (slots, answer) := admit_event g.slots task event now
        some (.admitted task event answer now, ⟨slots, answer.arms task now ++ g.timers, now⟩)
  | .fire timer =>
      if now < g.now ∨ timer ∉ g.timers ∨ now < timer.due then none
      else
        let (slots, event) := release g.slots timer.task now
        some (.released timer.task event now, ⟨slots, g.timers.erase timer, now⟩)
  | .take task =>
      if now < g.now then none
      else
        let (slots, event) := take_held g.slots task
        some (.taken task event now, ⟨slots, g.timers, now⟩)

/-- What was called, latest first, and the gate it leaves; every timer fires where it may. -/
inductive Run (fires : Gate → Timer → Prop) : List Entry → Gate → Prop
  | start : Run fires [] {}
  | next {trace : List Entry} {g g' : Gate} {now : Nat} {call : Call} {entry : Entry} :
      Run fires trace g → (∀ timer, call = .fire timer → fires g timer) →
        step g now call = some (entry, g') → Run fires (entry :: trace) g'

end Rekuest.Progress
