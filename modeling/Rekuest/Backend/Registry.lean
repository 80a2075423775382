import Mathlib.Algebra.Ring.Int.Defs
import Mathlib.Algebra.Ring.Nat
import Rekuest.Effects.Assoc

/-!
# What the backend reads

`backend.rs` and `models/`: the errors of the assign path, ids off the wire,
and the rows of agents, actions, implementations and declared dependencies.
-/

namespace Rekuest.Backend

open Rekuest.Effects

/-- `BackendError`.  Of what the database fails with only a unique constraint is
modelled. -/
inductive BackendError
  | refused (message : String)
  | forbidden (message : String)
  | uniqueViolation
  deriving DecidableEq, Repr

abbrev BackendResult := Except BackendError

/-- `Model.DoesNotExist`'s message. -/
def doesNotExist (model : String) : BackendError :=
  .refused (model ++ " matching query does not exist.")

/-- A row that must exist. -/
def get {α : Type} (row : Option α) (model : String) : BackendResult α :=
  match row with
  | some row => .ok row
  | none => .error (doesNotExist model)

/-! ## Ids off the wire -/

/-- `char::is_whitespace`. -/
def isWhitespace (c : Char) : Bool :=
  let n := c.toNat
  (9 ≤ n && n ≤ 13) || (8192 ≤ n && n ≤ 8202) ||
    n ∈ [32, 133, 160, 5760, 8232, 8233, 8239, 8287, 12288]

/-- `str::trim`. -/
def trim (s : List Char) : List Char :=
  ((s.dropWhile isWhitespace).reverse.dropWhile isWhitespace).reverse

def parseDigits (ds : List Char) : Option Int :=
  if ds.isEmpty || !ds.all Char.isDigit then none
  else some (Nat.ofDigitChars 10 ds 0)

/-- `str::parse::<i64>`. -/
def parseI64 (s : List Char) : Option Int :=
  let read := match s with
    | '-' :: ds => (parseDigits ds).map (- ·)
    | '+' :: ds => parseDigits ds
    | ds => parseDigits ds
  read.filter fun n => -2 ^ 63 ≤ n && n < 2 ^ 63

/-- `pyjson::repr_str`: a string as Python prints it. -/
def reprStr (s : String) : String :=
  let quote := if '\x27' ∈ s.toList ∧ '\x22' ∉ s.toList then '\x22' else '\x27'
  let shown (c : Char) : List Char :=
    if c = '\x5c' then ['\x5c', '\x5c']
    else if c = '\n' then ['\x5c', 'n']
    else if c = '\r' then ['\x5c', 'r']
    else if c = '\t' then ['\x5c', 't']
    else if c = quote then ['\x5c', c]
    else if c.toNat < 32 ∨ c.toNat = 127 then
      ['\x5c', 'x', (c.toNat / 16).digitChar, (c.toNat % 16).digitChar]
    else [c]
  String.ofList (quote :: s.toList.flatMap shown ++ [quote])

/-- An id off the wire. -/
def parseId (value : String) : BackendResult Int :=
  match parseI64 (trim value.toList) with
  | some id => .ok id
  | none => .error (.refused ("Field \x27id\x27 expected a number but got " ++ reprStr value ++ "."))

theorem trim_of_digits {ds : List Char} (h : ∀ c ∈ ds, c.isDigit = true) : trim ds = ds := by
  have hInk : ∀ c ∈ ds, ¬ isWhitespace c = true := by
    intro c hc hSpace
    have hDigit := h c hc
    simp only [Char.isDigit, Bool.and_eq_true, decide_eq_true_eq] at hDigit
    have hLow : 48 ≤ c.toNat := hDigit.1
    have hHigh : c.toNat ≤ 57 := hDigit.2
    simp [isWhitespace] at hSpace
    omega
  have hKeep : ∀ l : List Char, (∀ c ∈ l, ¬ isWhitespace c = true) → l.dropWhile isWhitespace = l := by
    intro l hl
    cases l with
    | nil => rfl
    | cons c rest => exact List.dropWhile_cons_of_neg (hl c (by simp))
  unfold trim
  rw [hKeep ds hInk, hKeep ds.reverse (fun c hc => hInk c (by simpa using hc)), List.reverse_reverse]

/-- The decimal of a number is read as the number, as far as it is an `i64`. -/
theorem parseI64_toDigits (n : Nat) : parseI64 (Nat.toDigits 10 n) =
    (some (n : Int)).filter fun n => -2 ^ 63 ≤ n && n < 2 ^ 63 := by
  have hDigits : ∀ c ∈ Nat.toDigits 10 n, c.isDigit = true := fun c hc =>
    Nat.isDigit_of_mem_toDigits (by decide) (by decide) hc
  have hRead : parseDigits (Nat.toDigits 10 n) = some (n : Int) := by
    have hAll : (Nat.toDigits 10 n).all Char.isDigit = true := List.all_eq_true.2 hDigits
    simp [parseDigits, hAll, Nat.toDigits_ne_nil]
  unfold parseI64
  split
  · next ds hMinus =>
      have hFirst := hDigits '-' (by rw [hMinus]; simp)
      exact absurd hFirst (by decide)
  · next ds hPlus =>
      have hFirst := hDigits '+' (by rw [hPlus]; simp)
      exact absurd hFirst (by decide)
  · rw [hRead]

theorem parseId_of_digits {value : String} {n : Nat} (h : value.toList = Nat.toDigits 10 n) :
    parseId value = match parseI64 (Nat.toDigits 10 n) with
      | some id => .ok id
      | none => .error (.refused ("Field \x27id\x27 expected a number but got " ++
          reprStr value ++ ".")) := by
  have hDigits : ∀ c ∈ Nat.toDigits 10 n, c.isDigit = true := fun c hc =>
    Nat.isDigit_of_mem_toDigits (by decide) (by decide) hc
  unfold parseId
  rw [h, trim_of_digits hDigits]

/-- The backend reads the decimal of an id as the id. -/
theorem parseId_toString {id : Int} (hLow : 0 ≤ id) (hHigh : id < 2 ^ 63) :
    parseId (toString id) = .ok id := by
  obtain ⟨n, rfl⟩ := Int.eq_ofNat_of_zero_le hLow
  have hRange : (-2 ^ 63 ≤ (n : Int) && (n : Int) < 2 ^ 63) = true := by
    simp only [Bool.and_eq_true, decide_eq_true_eq]
    omega
  have hText : (toString (n : Int)).toList = Nat.toDigits 10 n := Nat.toList_repr
  have hParsed : parseI64 (Nat.toDigits 10 n) = some (n : Int) := by
    rw [parseI64_toDigits]
    exact Option.filter_eq_some_iff.2 ⟨rfl, hRange⟩
  rw [parseId_of_digits hText, hParsed]

/-- The backend reads the decimal of an id as no other id. -/
theorem eq_of_parseId_toString {id p : Int} (hLow : 0 ≤ id)
    (h : parseId (toString id) = .ok p) : p = id := by
  obtain ⟨n, rfl⟩ := Int.eq_ofNat_of_zero_le hLow
  have hText : (toString (n : Int)).toList = Nat.toDigits 10 n := Nat.toList_repr
  rw [parseId_of_digits hText] at h
  split at h
  · next found hFound =>
      cases h
      rw [parseI64_toDigits] at hFound
      exact (Option.some.inj (Option.filter_eq_some_iff.1 hFound).1).symm
  · cases h

/-! ## Rows -/

/-- `facade_agent`, with the identifier of its app and the version of its
release. -/
structure AgentRow where
  id : Int
  organization : Int
  app : String := ""
  version : String := ""
  webhook : Bool := false
  connected : Bool := false
  lastSeen : Option Int := none
  deriving DecidableEq, Repr

/-- `AVAILABLE`: a live websocket, or any webhook agent. -/
def AgentRow.available (agent : AgentRow) (cutoff : Int) : Bool :=
  agent.webhook || (agent.connected && agent.lastSeen.any (cutoff < ·))

structure ActionRow where
  id : Int
  key : String
  hash : String := ""
  organization : Int := 1
  deriving DecidableEq, Repr

structure ImplementationRow where
  id : Int
  interface : String := ""
  actionId : Int
  agentId : Int
  higherOrderFor : Option Int := none
  workflow : Bool := false
  deriving DecidableEq, Repr

/-- One element of `action_demands`: its `key` and the `key` of its `demand`,
where they are strings. -/
structure ActionDemand where
  key : Option String
  demand : Option String := none
  deriving DecidableEq, Repr

structure DependencyRow where
  id : Int
  implementation : Int
  key : String
  actionDemands : List ActionDemand := []
  autoResolvable : Bool := false
  optional : Bool := false
  appFilter : Option String := none
  versionFilter : Option String := none
  minViableInstances : Option Int := none
  maxViableInstances : Option Int := none
  deriving DecidableEq, Repr

/-- The tables, each in the order of its ids, with their foreign keys. -/
structure Registry where
  agents : List AgentRow
  actions : List ActionRow
  implementations : List ImplementationRow
  dependencies : List DependencyRow
  agents_ordered : (agents.map (·.id)).Pairwise (· < ·) := by decide
  actions_ordered : (actions.map (·.id)).Pairwise (· < ·) := by decide
  implementations_ordered : (implementations.map (·.id)).Pairwise (· < ·) := by decide
  dependencies_ordered : (dependencies.map (·.id)).Pairwise (· < ·) := by decide
  action_exists : ∀ i ∈ implementations, i.actionId ∈ actions.map (·.id) := by decide
  agent_exists : ∀ i ∈ implementations, i.agentId ∈ agents.map (·.id) := by decide

namespace Registry

variable (db : Registry)

def agent (id : Int) : Option AgentRow := db.agents.find? (·.id = id)

def action (id : Int) : Option ActionRow := db.actions.find? (·.id = id)

def implementation (id : Int) : Option ImplementationRow :=
  db.implementations.find? (·.id = id)

/-- The declared dependencies of an implementation, by id. -/
def dependenciesOf (implementation : Int) : List DependencyRow :=
  db.dependencies.filter (·.implementation = implementation)

/-- The action an implementation implements. -/
def actionOf (implementation : ImplementationRow) : Option ActionRow :=
  db.action implementation.actionId

end Registry

/-- A table ordered by id finds a row by its id. -/
theorem find_of_ordered {α : Type} {id : α → Int} {rows : List α} {row : α}
    (hOrdered : (rows.map id).Pairwise (· < ·)) (hMem : row ∈ rows) :
    rows.find? (fun r => id r = id row) = some row :=
  find_of_nodup (hOrdered.imp Int.ne_of_lt) hMem

namespace Registry

variable {db : Registry}

theorem implementation_of_mem {row : ImplementationRow} (h : row ∈ db.implementations) :
    db.implementation row.id = some row :=
  find_of_ordered db.implementations_ordered h

end Registry

/-- Who calls, as `CallerContext::load` reads it. -/
structure CallerContext where
  organization : Option Int
  organizationIdentifier : Option String := none
  user : Int := 0
  userSub : String := ""
  client : Int := 0
  deriving DecidableEq, Repr

/-- What a resolve runs against: the rows, the instant before which a
heartbeat is too old, and `DEPENDENCY_MAX_DEPTH`. -/
structure Context where
  db : Registry
  cutoff : Int := 0
  dependencyMaxDepth : Nat := 8

end Rekuest.Backend
