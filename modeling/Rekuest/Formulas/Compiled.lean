import Rekuest.Formulas.Meaning
import Rekuest.Formulas.Quoted
import Rekuest.Provenance.Canonical

/-!
# What accepted formulas compile to

An accepted formula compiles to a text whose tree is its own exactly when each operation
has the arguments it takes: the check walks whatever arguments there are, and the compiler
asks for its keys.  A number compiles to an operand and a predicate to what stands between
parentheses, so that no nesting and no key changes how the text is read.
-/

namespace Rekuest.Formulas

open Rekuest.Ports Rekuest.Inputs JsonPath

/-- A compiled number: an operand that parses as its tree. -/
def PrintsNumber (compiled : Except ValidationError (List Char)) (tree : Option Tree) : Prop :=
  ∃ text tokens t, compiled = .ok text ∧ tree = some t ∧ Reads text tokens ∧
    ParsesOperand tokens t ∧ t.is_predicate = false

/-- A compiled predicate: words that parse as its tree between parentheses. -/
def PrintsPredicate (compiled : Except ValidationError (List Char)) (tree : Option Tree) : Prop :=
  ∃ text tokens t, compiled = .ok text ∧ tree = some t ∧ Reads text tokens ∧
    ParsesWhole tokens t ∧ t.is_predicate = true

/-- What is complete prints as it should, and nothing else has a tree. -/
structure Faithful (prints : Prop) (tree : Option Tree) (complete : Bool) : Prop where
  prints : complete = true → prints
  complete : tree.isSome = true → complete = true

abbrev NumberFaithful (compiled : Except ValidationError (List Char)) (tree : Option Tree)
    (complete : Bool) : Prop :=
  Faithful (PrintsNumber compiled tree) tree complete

abbrev PredicateFaithful (compiled : Except ValidationError (List Char)) (tree : Option Tree)
    (complete : Bool) : Prop :=
  Faithful (PrintsPredicate compiled tree) tree complete

/-! ## Arguments by their keys -/

/-- The argument of a call under a key. -/
def keyed (arguments : List ActionArgument) (key : String) : Option ActionArgument :=
  arguments.find? (·.key = some key)

theorem find_keyed {α : Type} (f : ActionArgument → α) (arguments : List ActionArgument) (key : String) :
    (arguments.map fun a => (a.key, f a)).find? (·.1 = some key) =
      (keyed arguments key).map fun a => (a.key, f a) := by
  rw [List.find?_map]
  rfl

section Maps

variable (env : Env)

theorem compile_numbers_eq (arguments : List ActionArgument) :
    compile_numbers env arguments = arguments.map fun a => (a.key, compile_number env a) := by
  induction arguments with
  | nil => rfl
  | cons a rest ih =>
      cases a
      rw [compile_numbers, ih]
      rfl

theorem number_trees_eq (arguments : List ActionArgument) :
    number_trees env arguments = arguments.map fun a => (a.key, number_tree env a) := by
  induction arguments with
  | nil => rfl
  | cons a rest ih =>
      cases a
      rw [number_trees, ih]
      rfl

theorem complete_numbers_eq (arguments : List ActionArgument) :
    complete_numbers arguments = arguments.map fun a => (a.key, complete_number a) := by
  induction arguments with
  | nil => rfl
  | cons a rest ih =>
      cases a
      rw [complete_numbers, ih]
      rfl

/-- The calls of a list's items. -/
def item_calls (items : List ActionArgument) : List UtilCall := items.filterMap (·.util_call)

/-- The calls in an argument's list. -/
def listed (argument : ActionArgument) : List UtilCall := item_calls (argument.value_list.getD [])

theorem compile_items_eq (items : List ActionArgument) :
    compile_items env items = (item_calls items).map (compile_predicate env) := by
  induction items with
  | nil => rfl
  | cons item rest ih =>
      obtain ⟨key, literal, path, agent, util, list, dict⟩ := item
      cases util with
      | none => rw [compile_items, ih]; rfl
      | some call => rw [compile_items, ih]; rfl

theorem item_trees_eq (items : List ActionArgument) :
    item_trees env items = (item_calls items).map (predicate_tree env) := by
  induction items with
  | nil => rfl
  | cons item rest ih =>
      obtain ⟨key, literal, path, agent, util, list, dict⟩ := item
      cases util with
      | none => rw [item_trees, ih]; rfl
      | some call => rw [item_trees, ih]; rfl

theorem complete_items_eq (items : List ActionArgument) :
    complete_items items = (item_calls items).map complete_predicate := by
  induction items with
  | nil => rfl
  | cons item rest ih =>
      obtain ⟨key, literal, path, agent, util, list, dict⟩ := item
      cases util with
      | none => rw [complete_items, ih]; rfl
      | some call => rw [complete_items, ih]; rfl

theorem compile_values_eq (arguments : List ActionArgument) :
    compile_values env arguments =
      arguments.map fun a => (a.key, (listed a).map (compile_predicate env)) := by
  induction arguments with
  | nil => rfl
  | cons a rest ih =>
      obtain ⟨key, literal, path, agent, util, list, dict⟩ := a
      cases list with
      | none => rw [compile_values, ih]; rfl
      | some items => rw [compile_values, ih, compile_items_eq]; rfl

theorem value_trees_eq (arguments : List ActionArgument) :
    value_trees env arguments = arguments.map fun a => (a.key, (listed a).map (predicate_tree env)) := by
  induction arguments with
  | nil => rfl
  | cons a rest ih =>
      obtain ⟨key, literal, path, agent, util, list, dict⟩ := a
      cases list with
      | none => rw [value_trees, ih]; rfl
      | some items => rw [value_trees, ih, item_trees_eq]; rfl

theorem complete_values_eq (arguments : List ActionArgument) :
    complete_values arguments = arguments.map fun a => (a.key, (listed a).map complete_predicate) := by
  induction arguments with
  | nil => rfl
  | cons a rest ih =>
      obtain ⟨key, literal, path, agent, util, list, dict⟩ := a
      cases list with
      | none => rw [complete_values, ih]; rfl
      | some items => rw [complete_values, ih, complete_items_eq]; rfl

end Maps

section Operands

variable {env : Env} {operation : String} {arguments : List ActionArgument}

/-- Under each key the compiler finds what the tree has there. -/
theorem operand_faithful
    (hEach : ∀ a ∈ arguments,
      NumberFaithful (compile_number env a) (number_tree env a) (complete_number a)) (key : String) :
    NumberFaithful (compile_argument operation (compile_numbers env arguments) key)
      (tree_argument (number_trees env arguments) key) (has (complete_numbers arguments) key) := by
  unfold compile_argument argument tree_argument has
  rw [compile_numbers_eq, number_trees_eq, complete_numbers_eq, find_keyed, find_keyed, find_keyed]
  cases hKeyed : keyed arguments key with
  | none =>
      constructor
      · intro hComplete
        cases hComplete
      · intro hSome
        cases hSome
  | some a => exact hEach a (List.mem_of_find?_eq_some hKeyed)

end Operands

/-! ## Texts of operations -/

section Texts

variable {operation : String} {numbers : Compiled} {trees : List (Option String × Option Tree)}
  {flags : List (Option String × Bool)}

theorem closes_right (rest : List Char) : Closes (')' :: rest) := closes_cons (by decide) (by decide)

theorem closes_spaced (o : Op) (rest : List Char) : Closes (spaced o ++ rest) :=
  closes_cons (by decide) (by decide)

/-- Two texts with an operator between. -/
theorem reads_infixed {o : Op} {text text' : List Char} {tokens tokens' : List Token}
    (h : Reads text tokens) (h' : Reads text' tokens') :
    Reads (text ++ (spaced o ++ text')) (tokens ++ .op o :: tokens') := by
  have hRight : Reads (spaced o ++ text') ([.op o] ++ tokens') := (reads_op o).then h'
  exact h.append hRight fun rest _ => by
    rw [List.append_assoc]
    exact closes_spaced o _

theorem reads_parens {text : List Char} {tokens : List Token} (h : Reads text tokens) :
    Reads ('(' :: (text ++ [')'])) (.left :: (tokens ++ [.right])) := by
  have hInner : Reads (text ++ [')']) (tokens ++ [.right]) :=
    h.append reads_right.reads fun rest _ => closes_right rest
  exact reads_left.then hInner

theorem combine_numbers {o : Op} {left right : Tree} (hNumbers : o.combines = false)
    (hLeft : left.is_predicate = false) (hRight : right.is_predicate = false) :
    combine o left right = some (.binary o left right) := by
  rw [combine, if_pos ⟨by rw [hLeft, hNumbers], by rw [hRight, hNumbers]⟩]

theorem binary_complete {o : Op}
    (hA : (tree_argument trees "a").isSome = true → has flags "a" = true)
    (hB : (tree_argument trees "b").isSome = true → has flags "b" = true)
    (hSome : (binary_tree trees o).isSome = true) : ["a", "b"].all (has flags) = true := by
  unfold binary_tree at hSome
  cases hLeft : tree_argument trees "a" with
  | none => rw [hLeft] at hSome; cases hSome
  | some left =>
      cases hRight : tree_argument trees "b" with
      | none => rw [hLeft, hRight] at hSome; cases hSome
      | some right =>
          rw [hLeft] at hA
          rw [hRight] at hB
          simp [hA rfl, hB rfl]

section Faithful

variable
  (hOperand : ∀ key, NumberFaithful (compile_argument operation numbers key) (tree_argument trees key)
    (has flags key))

include hOperand

theorem binary_faithful {o : Op} (hNumbers : o.combines = false) (hGives : o.decides = false) :
    NumberFaithful (binary operation numbers o) (binary_tree trees o) (["a", "b"].all (has flags)) := by
  refine ⟨fun hComplete => ?_, binary_complete (hOperand "a").complete (hOperand "b").complete⟩
  simp only [List.all_cons, List.all_nil, Bool.and_true, Bool.and_eq_true] at hComplete
  obtain ⟨text, tokens, left, hText, hLeft, hReads, hParses, hNumber⟩ := (hOperand "a").prints hComplete.1
  obtain ⟨text', tokens', right, hText', hRight, hReads', hParses', hNumber'⟩ :=
    (hOperand "b").prints hComplete.2
  refine ⟨'(' :: ((text ++ (spaced o ++ text')) ++ [')']), _, .binary o left right, ?_, ?_,
    reads_parens (reads_infixed hReads hReads'),
    (hParses.binary hParses' (combine_numbers hNumbers hNumber hNumber')).parens, hGives⟩
  · unfold binary
    rw [hText, hText']
    simp [Bind.bind, Except.bind, Pure.pure, Except.pure]
  · unfold binary_tree
    rw [hLeft, hRight]
    rfl

theorem comparison_faithful {o : Op} (hNumbers : o.combines = false) (hGives : o.decides = true) :
    PredicateFaithful (comparison operation numbers o) (binary_tree trees o)
      (["a", "b"].all (has flags)) := by
  refine ⟨fun hComplete => ?_, binary_complete (hOperand "a").complete (hOperand "b").complete⟩
  simp only [List.all_cons, List.all_nil, Bool.and_true, Bool.and_eq_true] at hComplete
  obtain ⟨text, tokens, left, hText, hLeft, hReads, hParses, hNumber⟩ := (hOperand "a").prints hComplete.1
  obtain ⟨text', tokens', right, hText', hRight, hReads', hParses', hNumber'⟩ :=
    (hOperand "b").prints hComplete.2
  refine ⟨text ++ (spaced o ++ text'), _, .binary o left right, ?_, ?_, reads_infixed hReads hReads',
    hParses.binary hParses' (combine_numbers hNumbers hNumber hNumber'), hGives⟩
  · unfold comparison
    rw [hText, hText']
    rfl
  · unfold binary_tree
    rw [hLeft, hRight]
    rfl

theorem negation_faithful :
    NumberFaithful (negation operation numbers) ((tree_argument trees "a").map .neg)
      (["a"].all (has flags)) := by
  refine ⟨fun hComplete => ?_, fun hSome => ?_⟩
  · simp only [List.all_cons, List.all_nil, Bool.and_true] at hComplete
    obtain ⟨text, tokens, t, hText, hTree, hReads, hParses, hNumber⟩ := (hOperand "a").prints hComplete
    have hMinus : Reads ('-' :: text) (.op .sub :: tokens) := reads_minus.then hReads
    refine ⟨'(' :: (('-' :: text) ++ [')']), _, .neg t, ?_, ?_, reads_parens hMinus,
      (hParses.minus hNumber).whole.parens, rfl⟩
    · unfold negation
      rw [hText]
      rfl
    · rw [hTree]
      rfl
  · rw [Option.isSome_map] at hSome
    simp [(hOperand "a").complete hSome]

theorem method_faithful {name : String} (hMethod : name.toList ∈ methods) (hName : IsName name.toList) :
    NumberFaithful (method operation numbers name) (method_tree trees name)
      (["value"].all (has flags)) := by
  refine ⟨fun hComplete => ?_, fun hSome => ?_⟩
  · simp only [List.all_cons, List.all_nil, Bool.and_true] at hComplete
    obtain ⟨text, tokens, t, hText, hTree, hReads, hParses, hNumber⟩ :=
      (hOperand "value").prints hComplete
    have hParens : Reads ['(', ')'] [.left, .right] := reads_left.then reads_right.reads
    have hCall : Reads ('.' :: name.toList ++ ['(', ')']) ([.dot, .word name.toList] ++ [.left, .right]) :=
      (reads_dot_name hName).append hParens fun rest _ => closes_cons (by decide) (by decide)
    have hBehind : Reads ([')'] ++ ('.' :: name.toList ++ ['(', ')']))
        ([.right] ++ ([.dot, .word name.toList] ++ [.left, .right])) := reads_right.then hCall
    have hInner := hReads.append hBehind fun rest _ => closes_right _
    refine ⟨_, _, .method t name.toList, ?_, ?_, reads_left.then hInner,
      hParses.whole.method hMethod, rfl⟩
    · unfold method
      rw [hText]
      rfl
    · unfold method_tree
      rw [hTree]
      rfl
  · rw [method_tree, Option.isSome_map] at hSome
    simp [(hOperand "value").complete hSome]

end Faithful

/-- Any arithmetic on faithful arguments. -/
theorem arithmetic_faithful (hOperation : operation ∈ ARITHMETIC)
    (hOperand : ∀ key, NumberFaithful (compile_argument operation numbers key) (tree_argument trees key)
      (has flags key)) :
    NumberFaithful (arithmetic operation numbers) (arithmetic_tree operation trees)
      ((operands operation).all (has flags)) := by
  simp only [ARITHMETIC, List.mem_cons, List.not_mem_nil, or_false] at hOperation
  rcases hOperation with rfl | rfl | rfl | rfl | rfl | rfl | rfl | rfl
  · exact binary_faithful hOperand rfl rfl
  · exact binary_faithful hOperand rfl rfl
  · exact binary_faithful hOperand rfl rfl
  · exact binary_faithful hOperand rfl rfl
  · exact negation_faithful hOperand
  · exact method_faithful hOperand (by decide) ⟨List.all_eq_true.1 (by decide), _, _, rfl, by decide⟩
  · exact method_faithful hOperand (by decide) ⟨List.all_eq_true.1 (by decide), _, _, rfl, by decide⟩
  · exact method_faithful hOperand (by decide) ⟨List.all_eq_true.1 (by decide), _, _, rfl, by decide⟩

end Texts

/-! ## Paths and literals -/

/-- What a path reads, where the check has passed it. -/
inductive Known (path : String) : Prop
  | hardware (name : String) (hName : name ∈ AGENT_HARDWARE) (h : segments path = ["agent", name])
  | own (key : String) (h : segments path = ["value", key])
  | arg (port key : String) (h : segments path = ["args", port, key])

theorem known_of_agent_read {path owner : String} {u : Unit}
    (h : check_agent_read (segments path) path owner = .ok u) : Known path := by
  unfold check_agent_read at h
  split at h
  · rename_i name hSegments
    split at h
    · rename_i hName
      exact .hardware name hName hSegments
    · cases h
  · cases h

theorem known_of_own_read {path owner : String} {read read' : Unit}
    (h : check_own_read owner path read = .ok read') : Known path := by
  unfold check_own_read at h
  split at h
  · rename_i key hSegments
    exact .own key hSegments
  · cases h
  · exact known_of_agent_read h

theorem known_of_args_read {Rest : Type} {args : List (ArgPortInputModel Rest)} {owner path : String}
    {read read' : List String} (h : check_args_read args owner path read = .ok read') : Known path := by
  unfold check_args_read at h
  split at h
  · split at h
    · rename_i port key hSegments
      exact .arg port key hSegments
    · cases h
  · obtain ⟨_, hAgent, -⟩ := bind_ok h
    exact known_of_agent_read hAgent

theorem member_faithful (key : List Char) :
    NumberFaithful (.ok ("$.".toList ++ dumps key)) (member_tree key) ('\x00' ∉ key : Bool) := by
  unfold member_tree
  by_cases hNul : '\x00' ∈ key
  · rw [if_pos hNul]
    constructor
    · intro hComplete
      exact absurd hNul (of_decide_eq_true hComplete)
    · intro hSome
      cases hSome
  · rw [if_neg hNul]
    refine ⟨fun _ => ?_, fun _ => decide_eq_true hNul⟩
    exact ⟨_, _, _, rfl, rfl, (reads_member (quotes_string key) hNul).reads, parses_member key, rfl⟩

theorem hardware_faithful {name : String} (hName : name ∈ AGENT_HARDWARE) :
    NumberFaithful (.ok ("$agent.".toList ++ name.toList))
      (some (.member (.variable "agent".toList) name.toList)) true := by
  refine ⟨fun _ => ?_, fun _ => rfl⟩
  have hWord : IsName name.toList := by
    simp only [AGENT_HARDWARE, List.mem_cons, List.not_mem_nil, or_false] at hName
    rcases hName with rfl | rfl | rfl | rfl <;> exact ⟨List.all_eq_true.1 (by decide), _, _, rfl, by decide⟩
  have hAgent : IsName "agent".toList := ⟨List.all_eq_true.1 (by decide), _, _, rfl, by decide⟩
  have hReads := reads_variable hAgent (reads_dot_name hWord) fun rest c s h => by
    obtain ⟨rfl, -⟩ := List.cons.inj h
    decide
  exact ⟨_, _, _, rfl, rfl, hReads, parses_variable _ _, rfl⟩

theorem path_faithful {path : String} (hKnown : Known path) :
    NumberFaithful (compile_path path) (path_tree path) (complete_path path) := by
  unfold compile_path path_tree complete_path
  cases hKnown with
  | hardware name hName h =>
      rw [h]
      exact hardware_faithful hName
  | own key h =>
      rw [h]
      exact member_faithful _
  | arg port key h =>
      rw [h]
      exact member_faithful _

theorem signed_faithful (negative : Bool) {n : Numeral} (hValid : n.Valid) :
    PrintsNumber (.ok ((if negative then ['-'] else []) ++ n.text)) (some (signed_tree negative n)) := by
  cases negative with
  | false => exact ⟨_, _, _, rfl, rfl, reads_number hValid, parses_number n, rfl⟩
  | true =>
      exact ⟨_, _, _, rfl, rfl, reads_minus.then (reads_number hValid), (parses_number n).minus rfl, rfl⟩

theorem digits_valid (n : Nat) : Numeral.Valid { whole := digits_of n } where
  whole_digits := Provenance.isDigit_toDigits
  whole_first := Provenance.isWhole_toDigits n
  fraction_digits _ h := by cases h
  exponent_digits _ _ h := by cases h

theorem int_faithful (env : Env) (n : Int) :
    NumberFaithful (compile_literal env (some (.int n))) (literal_tree env (some (.int n))) true := by
  refine ⟨fun _ => ?_, fun _ => rfl⟩
  have hText := signed_faithful (n < 0 : Bool) (digits_valid n.natAbs)
  simp only [Numeral.text, Documents.fractionText, Numeral.exponent_text, List.append_nil,
    decide_eq_true_eq] at hText
  exact hText

theorem float_faithful (env : Env) (x : Dyadic) :
    NumberFaithful (compile_literal env (some (.float x))) (literal_tree env (some (.float x))) true :=
  ⟨fun _ => signed_faithful _ (env.spell x).valid, fun _ => rfl⟩

/-! ## Predicates in a row -/

section Lists

variable {env : Env}

/-- What the compiled calls of a list read and parse as. -/
theorem collect_faithful {calls : List UtilCall}
    (hEach : ∀ call ∈ calls, PredicateFaithful (compile_predicate env call) (predicate_tree env call)
      (complete_predicate call))
    (hComplete : (calls.map complete_predicate).all id = true) :
    ∃ texts parts trees, collect (calls.map (compile_predicate env)) = .ok texts ∧
      (calls.map (predicate_tree env)).mapM id = some trees ∧
      List.Forall₂ Reads texts parts ∧
      List.Forall₂ (fun part tree => ParsesOperand part tree ∧ tree.is_predicate = true) parts trees := by
  induction calls with
  | nil => exact ⟨[], [], [], rfl, rfl, .nil, .nil⟩
  | cons call calls ih =>
      simp only [List.map_cons, List.all_cons, id, Bool.and_eq_true] at hComplete
      obtain ⟨text, tokens, t, hText, hTree, hReads, hParses, hPredicate⟩ :=
        (hEach call (List.mem_cons_self ..)).prints hComplete.1
      obtain ⟨texts, parts, trees, hTexts, hTrees, hReadAll, hParseAll⟩ :=
        ih (fun c hc => hEach c (List.mem_cons_of_mem _ hc)) hComplete.2
      refine ⟨('(' :: (text ++ [')'])) :: texts, (.left :: (tokens ++ [.right])) :: parts, t :: trees,
        ?_, ?_, .cons (reads_parens hReads) hReadAll, .cons ⟨hParses.parens, hPredicate⟩ hParseAll⟩
      · rw [List.map_cons, collect, hText, hTexts]
        rfl
      · rw [List.map_cons, List.mapM_cons, hTrees, hTree]
        rfl

/-- Texts with an operator between each two read as the first and a chain behind it. -/
theorem reads_chain {o : Op} {text : List Char} {tokens : List Token} {texts : List (List Char)}
    {parts : List (List Token)} (hFirst : Reads text tokens) (hRest : List.Forall₂ Reads texts parts) :
    Reads ((spaced o).intercalate (text :: texts)) (tokens ++ chained o parts) := by
  induction hRest generalizing text tokens with
  | nil =>
      rw [List.intercalate_singleton]
      simpa [chained] using hFirst
  | cons hNext hRest ih =>
      rw [List.intercalate_cons_cons, chained_cons, List.append_assoc]
      exact reads_infixed hFirst (ih hNext)

theorem mapM_id_some {trees : List (Option Tree)} {all : List Tree} (h : trees.mapM id = some all) :
    ∀ tree ∈ trees, tree.isSome = true := by
  induction trees generalizing all with
  | nil =>
      intro tree hTree
      cases hTree
  | cons first rest ih =>
      rw [List.mapM_cons] at h
      cases hFirst : first with
      | none => rw [hFirst] at h; cases h
      | some t =>
          cases hRest : rest.mapM id with
          | none => rw [hFirst, hRest] at h; cases h
          | some more => exact List.forall_mem_cons.2 ⟨rfl, ih hRest⟩

/-- Only a list of calls that all have a tree has one. -/
theorem joined_some {o : Op} {trees : List (Option Tree)} (h : (joined_tree o trees).isSome = true) :
    trees ≠ [] ∧ ∀ tree ∈ trees, tree.isSome = true := by
  cases trees with
  | nil => cases h
  | cons first rest =>
      refine ⟨List.cons_ne_nil _ _, ?_⟩
      rw [joined_tree] at h
      cases hFirst : first with
      | none => rw [hFirst] at h; cases h
      | some t =>
          cases hRest : rest.mapM id with
          | none => rw [hFirst, hRest] at h; cases h
          | some more => exact List.forall_mem_cons.2 ⟨rfl, mapM_id_some hRest⟩

theorem foldl_predicate {o : Op} (hDecides : o.decides = true) {trees : List Tree} {tree : Tree}
    (hTree : tree.is_predicate = true) : (trees.foldl (.binary o) tree).is_predicate = true := by
  induction trees generalizing tree with
  | nil => exact hTree
  | cons next rest ih => exact ih hDecides

/-- Complete predicates joined, at least one, print as their tree. -/
theorem joined_faithful {o : Op} (hCombines : o.combines = true) (hDecides : o.decides = true)
    {calls : List UtilCall}
    (hEach : ∀ call ∈ calls, PredicateFaithful (compile_predicate env call) (predicate_tree env call)
      (complete_predicate call)) :
    PredicateFaithful
      ((collect (calls.map (compile_predicate env))).map (spaced o).intercalate)
      (joined_tree o (calls.map (predicate_tree env)))
      (!(calls.map complete_predicate).isEmpty && (calls.map complete_predicate).all id) := by
  constructor
  · intro hComplete
    rw [Bool.and_eq_true_iff] at hComplete
    obtain ⟨texts, parts, trees, hTexts, hTrees, hReadAll, hParseAll⟩ :=
      collect_faithful hEach hComplete.2
    cases calls with
    | nil => cases hComplete.1
    | cons call calls =>
        cases hParseAll with
        | nil =>
            have hLength := congrArg (Option.map List.length) hTrees
            cases hReadAll
            rw [List.map_cons, List.mapM_cons] at hTrees
            cases hFirst : predicate_tree env call with
            | none => rw [hFirst] at hTrees; cases hTrees
            | some t =>
                cases hRest : (calls.map (predicate_tree env)).mapM id with
                | none => rw [hFirst, hRest] at hTrees; cases hTrees
                | some more => rw [hFirst, hRest] at hTrees; cases hTrees
        | @cons part tree parts trees hParse hParseRest =>
            cases hReadAll with
            | @cons text _ texts _ hRead hReadRest =>
                refine ⟨(spaced o).intercalate (text :: texts), part ++ chained o parts,
                  trees.foldl (.binary o) tree, ?_, ?_, reads_chain hRead hReadRest,
                  parses_chain hCombines hParse.1 hParse.2 hParseRest,
                  foldl_predicate hDecides hParse.2⟩
                · rw [hTexts]
                  rfl
                · rw [List.map_cons, List.mapM_cons] at hTrees
                  rw [List.map_cons, joined_tree]
                  cases hFirst : predicate_tree env call with
                  | none => rw [hFirst] at hTrees; cases hTrees
                  | some t =>
                      cases hRest : (calls.map (predicate_tree env)).mapM id with
                      | none => rw [hFirst, hRest] at hTrees; cases hTrees
                      | some more =>
                          rw [hFirst, hRest] at hTrees
                          cases hTrees
                          rfl
  · intro hSome
    obtain ⟨hNonempty, hAll⟩ := joined_some hSome
    cases calls with
    | nil => exact absurd rfl hNonempty
    | cons call calls =>
        rw [Bool.and_eq_true_iff]
        refine ⟨rfl, ?_⟩
        rw [List.all_eq_true]
        intro flag hFlag
        obtain ⟨c, hc, rfl⟩ := List.mem_map.1 hFlag
        exact (hEach c hc).complete (hAll _ (List.mem_map_of_mem hc))

end Lists

end Rekuest.Formulas
