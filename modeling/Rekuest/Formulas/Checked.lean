import Rekuest.Formulas.Compiled

/-!
# Checked formulas compile

The checks pass every number and every predicate of a formula, at any depth, so that
whatever the compiler takes up is faithful: by induction over the nested calls, a formula
compiles to its own tree exactly when it is complete.
-/

namespace Rekuest.Formulas

open Rekuest.Ports Rekuest.Inputs JsonPath

/-! ## Whole formulas -/

section Formulas

variable {env : Env}

/-- The list of values of a combination, joined. -/
theorem combination_faithful {operation : String} {o : Op} (hCombines : o.combines = true)
    (hDecides : o.decides = true) {arguments : List ActionArgument}
    (hEach : ∀ a ∈ arguments, ∀ call ∈ listed a,
      PredicateFaithful (compile_predicate env call) (predicate_tree env call) (complete_predicate call)) :
    PredicateFaithful (combination operation (compile_values env arguments) o)
      (list_tree (value_trees env arguments) o) (has_values (complete_values arguments)) := by
  unfold combination argument list_tree has_values
  rw [compile_values_eq, value_trees_eq, complete_values_eq, find_keyed, find_keyed, find_keyed]
  cases hKeyed : keyed arguments "values" with
  | none =>
      constructor
      · intro hComplete
        cases hComplete
      · intro hSome
        cases hSome
  | some a =>
      have hJoined := joined_faithful hCombines hDecides (hEach a (List.mem_of_find?_eq_some hKeyed))
      cases hCollect : collect ((listed a).map (compile_predicate env)) with
      | error e =>
          rw [hCollect] at hJoined
          refine ⟨fun hComplete => ?_, hJoined.complete⟩
          obtain ⟨text, tokens, t, hText, -⟩ := hJoined.prints hComplete
          cases hText
      | ok parts =>
          rw [hCollect] at hJoined
          refine ⟨fun hComplete => ?_, hJoined.complete⟩
          obtain ⟨text, tokens, t, hText, hRest⟩ := hJoined.prints hComplete
          refine ⟨text, tokens, t, ?_, hRest⟩
          show (do
            let items ← Except.ok ((listed a).map (compile_predicate env))
            let parts ← collect items
            return (spaced o).intercalate parts : Except ValidationError (List Char)) = _
          rw [← hText]
          show (do
            let parts ← collect ((listed a).map (compile_predicate env))
            return (spaced o).intercalate parts : Except ValidationError (List Char)) = _
          rw [hCollect]
          rfl

/-- A predicate whose arguments are faithful. -/
theorem predicate_faithful {operation : String} {arguments : List ActionArgument}
    (hNumbers : operation ∈ COMPARISONS → ∀ a ∈ arguments,
      NumberFaithful (compile_number env a) (number_tree env a) (complete_number a))
    (hLists : operation ∈ COMBINATIONS → ∀ a ∈ arguments, ∀ call ∈ listed a,
      PredicateFaithful (compile_predicate env call) (predicate_tree env call) (complete_predicate call))
    (hOperation : operation ∈ COMPARISONS ∨ operation ∈ COMBINATIONS) :
    PredicateFaithful (compile_predicate env (.mk operation arguments))
      (predicate_tree env (.mk operation arguments)) (complete_predicate (.mk operation arguments)) := by
  rw [compile_predicate, predicate_tree, complete_predicate]
  cases hOperation with
  | inl hComparison =>
      have hOperand : ∀ key, NumberFaithful
          (compile_argument operation (compile_numbers env arguments) key)
          (tree_argument (number_trees env arguments) key) (has (complete_numbers arguments) key) :=
        operand_faithful (hNumbers hComparison)
      simp only [COMPARISONS, List.mem_cons, List.not_mem_nil, or_false] at hComparison
      rcases hComparison with rfl | rfl | rfl | rfl
      · exact comparison_faithful hOperand rfl rfl
      · exact comparison_faithful hOperand rfl rfl
      · exact comparison_faithful hOperand rfl rfl
      · exact comparison_faithful hOperand rfl rfl
  | inr hCombination =>
      have hEach := hLists hCombination
      simp only [COMBINATIONS, List.mem_cons, List.not_mem_nil, or_false] at hCombination
      rcases hCombination with rfl | rfl
      · exact combination_faithful rfl rfl hEach
      · exact combination_faithful rfl rfl hEach

section Accepted

variable {owner : String} {σ : Type} {check_read : String → σ → Except ValidationError σ}

theorem each_number_checked {arguments : List ActionArgument} {read read' : σ}
    (h : check_numbers env owner check_read arguments read = .ok read') :
    ∀ a ∈ arguments, ∃ before after, check_number env owner check_read a before = .ok after := by
  induction arguments generalizing read with
  | nil =>
      intro a ha
      cases ha
  | cons first rest ih =>
      rw [check_numbers] at h
      obtain ⟨between, hFirst, hRest⟩ := bind_ok h
      exact List.forall_mem_cons.2 ⟨⟨read, between, hFirst⟩, ih hRest⟩

theorem each_item_checked {items : List ActionArgument} {u : Unit}
    (h : check_items env owner items = .ok u) :
    ∀ call ∈ item_calls items, check_predicate env owner call = .ok () := by
  induction items with
  | nil =>
      intro call hCall
      cases hCall
  | cons item rest ih =>
      obtain ⟨key, literal, path, agent, util, list, dict⟩ := item
      cases util with
      | none =>
          rw [check_items] at h
          cases h
      | some call =>
          rw [check_items] at h
          obtain ⟨_, hCall, hRest⟩ := bind_ok h
          exact List.forall_mem_cons.2 ⟨hCall, ih hRest⟩

theorem each_list_checked {arguments : List ActionArgument} {u : Unit}
    (h : check_lists env owner arguments = .ok u) :
    ∀ a ∈ arguments, ∀ call ∈ listed a, check_predicate env owner call = .ok () := by
  induction arguments with
  | nil =>
      intro a ha
      cases ha
  | cons a rest ih =>
      obtain ⟨key, literal, path, agent, util, list, dict⟩ := a
      cases list with
      | none =>
          rw [check_lists] at h
          refine List.forall_mem_cons.2 ⟨?_, ih h⟩
          intro call hCall
          cases hCall
      | some items =>
          rw [check_lists] at h
          obtain ⟨_, hItems, hRest⟩ := bind_ok h
          exact List.forall_mem_cons.2 ⟨each_item_checked hItems, ih hRest⟩

end Accepted

/-- A number that some check of what may be read has passed prints as it should. -/
def NumberChecked (env : Env) (a : ActionArgument) : Prop :=
  ∀ (owner : String) (σ : Type) (check_read : String → σ → Except ValidationError σ),
    (∀ path read read', check_read path read = .ok read' → Known path) →
    ∀ read read', check_number env owner check_read a read = .ok read' →
      NumberFaithful (compile_number env a) (number_tree env a) (complete_number a)

def ArithmeticChecked (env : Env) (call : UtilCall) : Prop :=
  ∀ (owner : String) (σ : Type) (check_read : String → σ → Except ValidationError σ),
    (∀ path read read', check_read path read = .ok read' → Known path) →
    ∀ read read', check_arithmetic env owner check_read call read = .ok read' →
      NumberFaithful (compile_call env call) (call_tree env call) (complete_call call)

def PredicateChecked (env : Env) (call : UtilCall) : Prop :=
  ∀ owner, check_predicate env owner call = .ok () →
    PredicateFaithful (compile_predicate env call) (predicate_tree env call) (complete_predicate call)

/-- What the induction carries of an argument: as a number, and of its calls as predicates. -/
structure ArgumentChecked (env : Env) (a : ActionArgument) : Prop where
  number : NumberChecked env a
  call : ∀ call, a.util_call = some call → PredicateChecked env call
  items : ∀ call ∈ listed a, PredicateChecked env call

theorem arithmetic_checked {operation : String} {arguments : List ActionArgument}
    (hEach : ∀ a ∈ arguments, ArgumentChecked env a) :
    ArithmeticChecked env (.mk operation arguments) := by
  intro owner σ check_read hRead read read' h
  rw [check_arithmetic] at h
  split at h
  · cases h
  · rename_i hOperation
    have hNumbers : ∀ a ∈ arguments,
        NumberFaithful (compile_number env a) (number_tree env a) (complete_number a) := by
      intro a ha
      obtain ⟨before, after, hNumber⟩ := each_number_checked h a ha
      exact (hEach a ha).number owner σ check_read hRead before after hNumber
    rw [compile_call, call_tree, complete_call]
    exact arithmetic_faithful (not_not.1 hOperation) (operand_faithful hNumbers)

theorem predicate_checked {operation : String} {arguments : List ActionArgument}
    (hEach : ∀ a ∈ arguments, ArgumentChecked env a) :
    PredicateChecked env (.mk operation arguments) := by
  intro owner h
  rw [check_predicate] at h
  split at h
  · rename_i hComparison
    refine predicate_faithful ?_ ?_ (.inl hComparison)
    · intro _ a ha
      obtain ⟨before, after, hNumber⟩ := each_number_checked h a ha
      exact (hEach a ha).number owner Unit _ (fun path _ _ hRead => known_of_own_read hRead)
        before after hNumber
    · intro hCombination
      simp only [COMPARISONS, List.mem_cons, List.not_mem_nil, or_false] at hComparison
      rcases hComparison with rfl | rfl | rfl | rfl <;> exact absurd hCombination (by decide)
  · rename_i hComparison
    split at h
    · rename_i hCombination
      refine predicate_faithful (fun hOther => absurd hOther hComparison) ?_ (.inr hCombination)
      intro _ a ha call hCall
      exact (hEach a ha).items call hCall owner (each_list_checked h a ha call hCall)
    · cases h

theorem number_checked {key : Option String} {literal : Option Value} {path : Option String}
    {agent : Option AgentProbe} {util : Option UtilCall} {list dict : Option (List ActionArgument)}
    (hCall : ∀ call, util = some call → ArithmeticChecked env call) :
    NumberChecked env (.mk key literal path agent util list dict) := by
  intro owner σ check_read hRead read read' h
  cases util with
  | some call =>
      rw [check_number] at h
      rw [compile_number, number_tree, complete_number]
      exact hCall call rfl owner σ check_read hRead read read' h
  | none =>
      cases path with
      | some path =>
          rw [check_number] at h
          rw [compile_number, number_tree, complete_number]
          exact path_faithful (hRead path read read' h)
      | none =>
          rw [compile_number, number_tree, complete_number]
          cases literal with
          | none => cases h
          | some value =>
              cases value with
              | int n => exact int_faithful env n
              | float x => exact float_faithful env x
              | null | bool | string | array | object => cases h

/-- The induction over nested calls. -/
theorem all_checked (env : Env) :
    (∀ a, ArgumentChecked env a) ∧
      (∀ call, ArithmeticChecked env call ∧ PredicateChecked env call) ∧ ∀ _ : AgentProbe, True := by
  refine calls_ind ?_ ?_ (fun _ _ _ _ => trivial)
  · intro key literal path agent util list dict _ hUtil hList _
    refine ⟨number_checked fun call h => (hUtil call h).1, fun call h => (hUtil call h).2, ?_⟩
    intro call hCall
    cases list with
    | none => cases hCall
    | some items =>
        obtain ⟨item, hItem, hCall⟩ := List.mem_filterMap.1 hCall
        exact (hList items rfl item hItem).call call hCall
  · intro operation arguments hEach
    exact ⟨arithmetic_checked hEach, predicate_checked hEach⟩

/-- A number's text, read as a whole, has its tree. -/
theorem compiles_number_iff {compiled : Except ValidationError (List Char)} {tree : Option Tree}
    {complete : Bool} (h : NumberFaithful compiled tree complete) :
    Compiles compiled tree ↔ complete = true := by
  constructor
  · intro hCompiles
    obtain ⟨text, t, -, hTree, -⟩ := hCompiles
    exact h.complete (by rw [hTree]; rfl)
  · intro hComplete
    obtain ⟨text, tokens, t, hText, hTree, hReads, hParses, -⟩ := h.prints hComplete
    exact ⟨text, t, hText, hTree, parse_of_whole hReads hParses.whole⟩

theorem compiles_predicate_iff {compiled : Except ValidationError (List Char)} {tree : Option Tree}
    {complete : Bool} (h : PredicateFaithful compiled tree complete) :
    Compiles compiled tree ↔ complete = true := by
  constructor
  · intro hCompiles
    obtain ⟨text, t, -, hTree, -⟩ := hCompiles
    exact h.complete (by rw [hTree]; rfl)
  · intro hComplete
    obtain ⟨text, tokens, t, hText, hTree, hReads, hParses, -⟩ := h.prints hComplete
    exact ⟨text, t, hText, hTree, parse_of_whole hReads hParses⟩

theorem fit_checked {Rest : Type} {args : List (ArgPortInputModel Rest)} {interface : String}
    {seen : List String} {fits : List FitsInputModel} {u : Unit}
    (h : check_fits_after env args interface seen fits = .ok u) :
    ∀ fit ∈ fits, ∃ owner, check_predicate env owner fit.call = .ok () := by
  induction fits generalizing seen with
  | nil =>
      intro fit hFit
      cases hFit
  | cons first rest ih =>
      rw [check_fits_after] at h
      split at h
      · cases h
      · split at h
        · cases h
        · obtain ⟨_, hFirst, hRest⟩ := bind_ok h
          exact List.forall_mem_cons.2 ⟨⟨_, hFirst⟩, ih hRest⟩

theorem estimate_checked {Rest : Type} {args : List (ArgPortInputModel Rest)} {interface : String}
    {estimate : EstimatedRuntimeInputModel} {u : Unit}
    (h : estimate.check env args interface = .ok u) :
    ∃ owner read, check_arithmetic env owner (check_args_read args owner) estimate.call [] =
      .ok read := by
  unfold EstimatedRuntimeInputModel.check at h
  obtain ⟨read, hCall, -⟩ := bind_ok h
  exact ⟨_, read, hCall⟩

/-- What the checks accept compiles to a text whose tree is the formula's own, if and only if
every operation in it has the arguments it takes, `and` and `or` at least one value, and no
descriptor's key has the character U+0000. -/
theorem accepted_compiles_iff {Rest : Type} (env : Env) (args : List (ArgPortInputModel Rest))
    (interface : String) (fits : List FitsInputModel) (estimate : EstimatedRuntimeInputModel) :
    (check_fits_of env args interface fits = .ok () →
      ∀ fit ∈ fits, fit.Compiles env ↔ complete_predicate fit.call = true) ∧
    (estimate.check env args interface = .ok () →
      (estimate.Compiles env ↔ complete_call estimate.call = true)) := by
  obtain ⟨-, hCalls, -⟩ := all_checked env
  constructor
  · intro hFits fit hFit
    obtain ⟨owner, hCheck⟩ := fit_checked hFits fit hFit
    exact compiles_predicate_iff ((hCalls fit.call).2 owner hCheck)
  · intro hEstimate
    obtain ⟨owner, read, hCheck⟩ := estimate_checked hEstimate
    exact compiles_number_iff ((hCalls estimate.call).1 owner _ _
      (fun path _ _ hRead => known_of_args_read hRead) _ _ hCheck)

end Formulas

/-! ## A combination of nothing -/

def plain_env : Env where
  spell _ := { negative := false, numeral := { whole := ['0'] }, valid := digits_valid 0 }
  debug _ := ""
  function_effect _ := none

/-- An image, and a `Fits` on it that joins the values. -/
def image : ArgPortInputModel Unit :=
  .mk { key := "image", kind := .STRUCTURE, identifier := some "@mikro/image" } { rest := () } []

def all_of (values : List ActionArgument) : FitsInputModel where
  port := "image"
  call := .mk "logic.all" [.mk (some "values") none none none none (some values) none]

/-- `value/@c >= 2`. -/
def enough : ActionArgument :=
  .mk none none none none
    (some (.mk "cmp.gte" [.mk (some "a") none (some "value/@c") none none none none,
      .mk (some "b") (some (.int 2)) none none none none none])) none none

def half_hour : EstimatedRuntimeInputModel where
  call := .mk "math.neg" [.mk (some "a") (some (.int (-1800))) none none none none none]

theorem enough_compiles :
    ((all_of [enough, enough]).Compiles plain_env ↔
      complete_predicate (all_of [enough, enough]).call = true) ∧
    (half_hour.Compiles plain_env ↔ complete_call half_hour.call = true) := by
  obtain ⟨hFits, hEstimate⟩ :=
    accepted_compiles_iff plain_env [image] "scan" [all_of [enough, enough]] half_hour
  exact ⟨hFits (by decide +kernel) _ (List.mem_cons_self ..), hEstimate (by decide +kernel)⟩

/-- A combination of no values is accepted, and compiles to no expression at all. -/
theorem nothing_combined :
    ¬ ∀ (Rest : Type) (env : Env) (args : List (ArgPortInputModel Rest)) (interface : String)
      (fits : List FitsInputModel), check_fits_of env args interface fits = .ok () →
      ∀ fit ∈ fits, fit.Compiles env := by
  intro hAll
  obtain ⟨text, t, hText, hTree, -⟩ :=
    hAll Unit plain_env [image] "scan" [all_of []] (by decide +kernel) _ (List.mem_cons_self ..)
  cases hTree

end Rekuest.Formulas
