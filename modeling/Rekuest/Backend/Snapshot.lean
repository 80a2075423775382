import Rekuest.Effects.Assoc

/-!
# The dependency snapshot

The tree a resolve freezes onto a task: per dependency key the agents bound to
it, per agent and slot the implementation, and below it its own level.  A dry
run writes its notes beside every level.
-/

namespace Rekuest.Backend

open Rekuest.Effects

/-- A dry run's note on one dependency: the declared row, and why it is unmet. -/
structure Note where
  dependency : Int
  unmet : Option String
  deriving DecidableEq, Repr

mutual

/-- An agent bound to a dependency: slot by slot, what it implements of it. -/
structure Entry where
  agent : Int
  actions : List (String × Bound)

/-- An implementation under a slot, and its own level.  `notes` is the member
`meta`, which only a dry run writes. -/
structure Bound where
  implementation : Int
  dependencies : List (String × List Entry)
  notes : Option (List (String × Note))

end

/-- One level: dependency key → the agents bound to it. -/
abbrev Tree := List (String × List Entry)

abbrev Notes := List (String × Note)

/-! ## Without the notes

`bare` removes every member `meta` the dry run wrote, at every depth. -/

mutual

def Bound.bare : Bound → Bound
  | ⟨implementation, dependencies, _⟩ => ⟨implementation, bareTree dependencies, none⟩

def bareTree : List (String × List Entry) → List (String × List Entry)
  | [] => []
  | (key, entries) :: rest => (key, bareEntries entries) :: bareTree rest

def bareEntries : List Entry → List Entry
  | [] => []
  | entry :: rest => entry.bare :: bareEntries rest

def Entry.bare : Entry → Entry
  | ⟨agent, actions⟩ => ⟨agent, bareActions actions⟩

def bareActions : List (String × Bound) → List (String × Bound)
  | [] => []
  | (slot, bound) :: rest => (slot, bound.bare) :: bareActions rest

end

theorem bareTree_eq_map (tree : Tree) : bareTree tree = tree.map (Prod.map id bareEntries) := by
  induction tree with
  | nil => simp [bareTree]
  | cons p rest ih => simp [bareTree, Prod.map, ih]

theorem bareActions_eq_map (actions : List (String × Bound)) :
    bareActions actions = actions.map (Prod.map id Bound.bare) := by
  induction actions with
  | nil => simp [bareActions]
  | cons p rest ih => simp [bareActions, Prod.map, ih]

theorem bareTree_insert (key : String) (entries : List Entry) (tree : Tree) :
    bareTree (insert key entries tree) = insert key (bareEntries entries) (bareTree tree) := by
  rw [bareTree_eq_map, bareTree_eq_map, insert_map]

theorem bareActions_insert (slot : String) (bound : Bound) (actions : List (String × Bound)) :
    bareActions (insert slot bound actions) = insert slot bound.bare (bareActions actions) := by
  rw [bareActions_eq_map, bareActions_eq_map, insert_map]

end Rekuest.Backend
