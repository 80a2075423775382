import Rekuest.Ports.Definition

/-!
# Calls and their arguments

What effects, validators, widgets, formulas and bloks evaluate: a call names an operation
and has arguments, and an argument is bound to a literal, a path, a task call, a util
call, a list or a dict of arguments.
-/

namespace Rekuest.Inputs

open Rekuest.Ports

mutual

/-- One argument of a call. -/
inductive ActionArgument
  | mk (key : Option String) (value_literal : Option Value) (value_path : Option String)
      (agent_call : Option AgentProbe) (util_call : Option UtilCall)
      (value_list : Option (List ActionArgument)) (value_dict : Option (List ActionArgument))

/-- A pure utility call; no arguments and an empty list of them are read alike. -/
inductive UtilCall
  | mk (operation : String) (arguments : List ActionArgument)

/-- A call routed to an agent. -/
inductive AgentProbe
  | mk (dependency operation : String) (arguments : List ActionArgument)

end

namespace UtilCall

def operation : UtilCall → String
  | mk operation _ => operation

def arguments : UtilCall → List ActionArgument
  | mk _ arguments => arguments

end UtilCall

namespace AgentProbe

def dependency : AgentProbe → String
  | mk dependency _ _ => dependency

def operation : AgentProbe → String
  | mk _ operation _ => operation

def arguments : AgentProbe → List ActionArgument
  | mk _ _ arguments => arguments

end AgentProbe

namespace ActionArgument

def key : ActionArgument → Option String
  | mk key _ _ _ _ _ _ => key

def value_literal : ActionArgument → Option Value
  | mk _ literal _ _ _ _ _ => literal

def value_path : ActionArgument → Option String
  | mk _ _ path _ _ _ _ => path

def agent_call : ActionArgument → Option AgentProbe
  | mk _ _ _ call _ _ _ => call

def util_call : ActionArgument → Option UtilCall
  | mk _ _ _ _ call _ _ => call

def value_list : ActionArgument → Option (List ActionArgument)
  | mk _ _ _ _ _ list _ => list

def value_dict : ActionArgument → Option (List ActionArgument)
  | mk _ _ _ _ _ _ dict => dict

end ActionArgument

section Induction

variable {P : ActionArgument → Prop} {Q : UtilCall → Prop} {R : AgentProbe → Prop}

/-- Induction on arguments, util calls and task calls at once. -/
theorem calls_ind
    (argument : ∀ key literal path agent util list dict,
      (∀ call, agent = some call → R call) → (∀ call, util = some call → Q call) →
      (∀ items, list = some items → ∀ a ∈ items, P a) →
      (∀ items, dict = some items → ∀ a ∈ items, P a) →
      P (.mk key literal path agent util list dict))
    (util : ∀ operation arguments, (∀ a ∈ arguments, P a) → Q (.mk operation arguments))
    (agent : ∀ dependency operation arguments, (∀ a ∈ arguments, P a) →
      R (.mk dependency operation arguments)) :
    (∀ a, P a) ∧ (∀ call, Q call) ∧ ∀ call, R call := by
  have hArguments : ∀ a, P a := by
    intro a
    refine ActionArgument.rec (motive_1 := P) (motive_2 := Q) (motive_3 := R)
      (motive_4 := fun call => ∀ c, call = some c → R c)
      (motive_5 := fun call => ∀ c, call = some c → Q c)
      (motive_6 := fun list => ∀ items, list = some items → ∀ a ∈ items, P a)
      (motive_7 := fun items => ∀ a ∈ items, P a)
      argument util agent ?_ ?_ ?_ ?_ ?_ ?_ ?_ ?_ a
    · intro call hCall
      cases hCall
    · intro call hCall other hOther
      exact Option.some.inj hOther ▸ hCall
    · intro call hCall
      cases hCall
    · intro call hCall other hOther
      exact Option.some.inj hOther ▸ hCall
    · intro items hItems
      cases hItems
    · intro items hItems other hOther
      exact Option.some.inj hOther ▸ hItems
    · intro b hb
      cases hb
    · intro head rest hHead hRest
      exact List.forall_mem_cons.2 ⟨hHead, hRest⟩
  refine ⟨hArguments, fun call => ?_, fun call => ?_⟩
  · cases call with
    | mk operation arguments => exact util operation arguments fun a _ => hArguments a
  · cases call with
    | mk dependency operation arguments => exact agent dependency operation arguments fun a _ => hArguments a

end Induction

end Rekuest.Inputs
