import Rekuest.Demands.Matching

/-!
# The text of a search

The text of a statement has a name, or a mark, in the place of each value, so it tells which
fields the demands set and nothing of what they are set to.
-/

namespace Rekuest.Demands

/-! ## Which fields are set -/

/-- Which fields are set, whatever they are. -/
def MatchFields.shape (fields : MatchFields) : MatchFields where
  at_ := fields.at_.map fun _ => 0
  key := fields.key.map fun _ => ""
  kind := fields.kind.map fun _ => .INT
  identifier := fields.identifier.map fun _ => ""
  nullable := fields.nullable.map fun _ => false
  dimension := fields.dimension.map fun _ => ""
  descriptors := if fields.descriptors.isEmpty then [] else [⟨"", .null⟩]

mutual

def PortMatchInputModel.shape : PortMatchInputModel → PortMatchInputModel
  | .mk fields children => .mk fields.shape (shapes children)

def shapes : List PortMatchInputModel → List PortMatchInputModel
  | [] => []
  | m :: rest => m.shape :: shapes rest

end

def PortDemand.shape (demand : PortDemand) : PortDemand where
  kind := demand.kind
  matches_ := shapes demand.matches_
  force_length := demand.force_length.map fun _ => 0
  force_non_nullable_length := demand.force_non_nullable_length.map fun _ => 0
  force_structure_length := demand.force_structure_length.map fun _ => 0

/-! ## Statements of one shape -/

section Shapes

variable {spell spell' : Dyadic → Formulas.Spelling} {jsonb : Jsonb} {settings settings' : Settings}
  {now now' : String → Int}

theorem field_clause_shape {alias_ id_path tag : String} {column : Column} {α : Type}
    {value : Option α} {f : α → Value} {a : α} :
    (field_clause named alias_ id_path tag column ((value.map fun _ => a).map f)).1 =
      (field_clause named alias_ id_path tag column (value.map f)).1 := by
  cases value <;> rfl

theorem structural_shape {fields : MatchFields} {alias_ id_path : String} :
    (structural_clauses named fields.shape alias_ id_path).1 =
      (structural_clauses named fields alias_ id_path).1 := by
  simp only [structural_clauses, together, List.flatMap_cons, List.flatMap_nil, MatchFields.shape,
    field_clause_shape]

theorem descriptors_shape {fields : MatchFields} {fits : Bool} {alias_ id_path : String} :
    (descriptor_clauses spell' jsonb named settings' now' fields.shape fits alias_ id_path).1 =
      (descriptor_clauses spell jsonb named settings now fields fits alias_ id_path).1 := by
  cases hDescriptors : fields.descriptors with
  | nil => simp [descriptor_clauses, MatchFields.shape, hDescriptors]
  | cons d rest =>
      simp only [descriptor_clauses, MatchFields.shape, hDescriptors, List.isEmpty_cons,
        Bool.false_eq_true, if_false]
      cases fits <;> rfl

theorem narrowing_shape (fields : MatchFields) :
    (!fields.shape.descriptors.isEmpty) = (!fields.descriptors.isEmpty) ∧
      fields.shape.has_structural_narrowing = fields.has_structural_narrowing := by
  constructor
  · cases hDescriptors : fields.descriptors <;> simp [MatchFields.shape, hDescriptors]
  · simp [MatchFields.has_structural_narrowing, MatchFields.shape]

/-- The same clauses, or the same refusal, whatever is assigned. -/
def Alike {α : Type} (x y : Except ValueError (α × Assignments)) : Prop :=
  x.map Prod.fst = y.map Prod.fst

theorem Alike.of_ok {α : Type} {x y : α × Assignments} (h : x.1 = y.1) :
    Alike (.ok x) (.ok y) := congrArg Except.ok h

theorem Alike.bind {α β : Type} {x y : Except ValueError (α × Assignments)}
    {f g : α × Assignments → Except ValueError (β × Assignments)} (h : Alike x y)
    (hNext : ∀ a b, a.1 = b.1 → Alike (f a) (g b)) : Alike (x >>= f) (y >>= g) := by
  cases x with
  | error e =>
      cases y with
      | error e' =>
          cases h
          rfl
      | ok b => cases h
  | ok a =>
      cases y with
      | error e => cases h
      | ok b => exact hNext a b (Except.ok.inj h)

variable {table : Table} {owner_column : Column} {action_alias : String}

mutual

theorem match_shape : ∀ (m : PortMatchInputModel) (parent_alias : Option String) (id_path : String),
    Alike (build_match_exists spell' jsonb named settings' now' table owner_column action_alias
        parent_alias id_path m.shape)
      (build_match_exists spell jsonb named settings now table owner_column action_alias
        parent_alias id_path m)
  | .mk fields children, parent_alias, id_path => by
      obtain ⟨hEmpty, hNarrowing⟩ := narrowing_shape fields
      rw [PortMatchInputModel.shape, build_match_exists, build_match_exists]
      by_cases hOnly : (!fields.descriptors.isEmpty && parent_alias.isNone &&
          !fields.has_structural_narrowing) = true
      · simp only [hEmpty, hNarrowing, hOnly, if_true]
        rfl
      · simp only [hEmpty, hNarrowing, hOnly]
        refine (children_shape children ("p_" ++ id_path) id_path 0).bind ?_
        intro nested nested' hNested
        apply Alike.of_ok
        show Sql.Cond.some_row _ (conjunction _) = Sql.Cond.some_row _ (conjunction _)
        rw [structural_shape, descriptors_shape, hNested]

theorem children_shape : ∀ (children : List PortMatchInputModel) (parent_alias id_path : String)
    (index : Nat), Alike
      (build_children spell' jsonb named settings' now' table owner_column action_alias parent_alias
        id_path index (shapes children))
      (build_children spell jsonb named settings now table owner_column action_alias parent_alias
        id_path index children)
  | [], _, _, _ => rfl
  | child :: rest, parent_alias, id_path, index => by
      rw [shapes, build_children, build_children]
      refine (match_shape child _ _).bind ?_
      intro clause clause' hClause
      refine (children_shape rest parent_alias id_path (index + 1)).bind ?_
      intro clauses clauses' hClauses
      apply Alike.of_ok
      show clause.1 :: clauses.1 = clause'.1 :: clauses'.1
      rw [hClause, hClauses]

end

theorem root_matches_shape (path : Nat → String) : ∀ (matches_ : List PortMatchInputModel)
    (index : Nat), Alike
      (root_matches spell' jsonb named settings' now' table owner_column action_alias path index
        (shapes matches_))
      (root_matches spell jsonb named settings now table owner_column action_alias path index
        matches_) := by
  intro matches_
  induction matches_ with
  | nil =>
      intro index
      rfl
  | cons m rest ih =>
      intro index
      refine (match_shape m _ _).bind ?_
      intro clause clause' hClause
      refine (ih (index + 1)).bind ?_
      intro clauses clauses' hClauses
      apply Alike.of_ok
      show clause.1 :: clauses.1 = clause'.1 :: clauses'.1
      rw [hClause, hClauses]

theorem forced_shape {length : Option Int} {clause : Int → Clause String × Assignments}
    (h : ∀ n n', (clause n).1 = (clause n').1) :
    (forced (length.map fun _ => 0) clause).1 = (forced length clause).1 := by
  cases length with
  | none => rfl
  | some n => exact congrArg (fun c => [c]) (h 0 n)

theorem count_shape {owner_column : Column} {extra_condition : Clause String} {key : String}
    (n n' : Int) :
    (root_count_subquery named table owner_column "a" extra_condition key n).1 =
      (root_count_subquery named table owner_column "a" extra_condition key n').1 := rfl

theorem length_shape {owner : PortOwner} {kind : DemandKind} {key : String} (n n' : Int) :
    (length_clause named table "a" owner kind key n).1 =
      (length_clause named table "a" owner kind key n').1 := by
  rw [length_clause, length_clause]
  cases owner.count_columns <;> rfl

theorem demand_shape {owner : PortOwner} {demand_index : Nat} (demand : PortDemand) :
    Alike (demand_clauses spell' jsonb named settings' now' owner demand_index demand.shape)
      (demand_clauses spell jsonb named settings now owner demand_index demand) := by
  rw [demand_clauses, demand_clauses, PortDemand.shape]
  cases owner.port_tables demand.kind with
  | none => rfl
  | some table =>
      refine (root_matches_shape _ demand.matches_ 0).bind ?_
      intro matched matched' hMatched
      apply Alike.of_ok
      simp only [together, List.flatMap_cons, List.flatMap_nil, List.append_nil]
      rw [hMatched, forced_shape length_shape, forced_shape count_shape, forced_shape count_shape]

theorem demands_shape {owner : PortOwner} : ∀ (demands : List PortDemand) (demand_index : Nat),
    Alike (demands_clauses spell' jsonb named settings' now' owner demand_index
        (demands.map PortDemand.shape))
      (demands_clauses spell jsonb named settings now owner demand_index demands) := by
  intro demands
  induction demands with
  | nil =>
      intro demand_index
      rfl
  | cons demand rest ih =>
      intro demand_index
      refine (demand_shape demand).bind ?_
      intro first first' hFirst
      refine (ih (demand_index + 1)).bind ?_
      intro others others' hOthers
      apply Alike.of_ok
      rw [together_pair, together_pair, hFirst, hOthers]

theorem statement_shape {owner : PortOwner} (demands : List PortDemand)
    (organization organization' : Int) :
    Alike (port_demand_sql spell' jsonb named settings' now' (demands.map PortDemand.shape)
        (some organization') owner)
      (port_demand_sql spell jsonb named settings now demands (some organization) owner) := by
  refine (demands_shape demands 0).bind ?_
  intro clauses clauses' hClauses
  have hSame : (together [organization_clause named (some organization'), clauses]).1 =
      (together [organization_clause named (some organization), clauses']).1 := by
    rw [together_pair, together_pair, hClauses]
    rfl
  dsimp only
  rw [hSame]
  by_cases hNone : (together [organization_clause named (some organization), clauses']).1.isEmpty = true
  · rw [if_pos hNone, if_pos hNone]
    rfl
  · rw [if_neg hNone, if_neg hNone]
    exact Alike.of_ok rfl

/-- The text for values in order, whatever the values. -/
theorem positional_shape {letter : Char → Bool} {owner : DemandOwner} (demands : List PortDemand)
    (organization organization' : Int) :
    (positional_port_demand_sql letter spell' jsonb settings' now' (demands.map PortDemand.shape)
        organization' owner).map Prod.fst =
      (positional_port_demand_sql letter spell jsonb settings now demands organization owner).map
        Prod.fst := by
  rw [positional_of_named, positional_of_named]
  exact congrArg (Except.map _) (statement_shape demands organization organization')

theorem map_cons {α β : Type} {x y : Except ValueError α} {xs ys : Except ValueError (List α)}
    {f : α → β} (h : x.map f = y.map f) (hRest : xs.map (List.map f) = ys.map (List.map f)) :
    (do let a ← x; let as ← xs; return a :: as).map (List.map f) =
      (do let a ← y; let as ← ys; return a :: as).map (List.map f) := by
  cases x with
  | error e =>
      cases y with
      | error e' =>
          cases h
          rfl
      | ok b => cases h
  | ok a =>
      cases y with
      | error e => cases h
      | ok b =>
          cases xs with
          | error e =>
              cases ys with
              | error e' =>
                  cases hRest
                  rfl
              | ok bs => cases hRest
          | ok as =>
              cases ys with
              | error e => cases hRest
              | ok bs =>
                  have hHead : f a = f b := Except.ok.inj h
                  have hTail : as.map f = bs.map f := Except.ok.inj hRest
                  show Except.ok (f a :: as.map f) = Except.ok (f b :: bs.map f)
                  rw [hHead, hTail]

theorem statements_shape {letter : Char → Bool} {owner : DemandOwner}
    {now now' : Nat → String → Int} {organization organization' : Int} :
    ∀ (sets : List (List PortDemand)) (index : Nat),
      (positional_statements letter spell' jsonb settings' now' organization' owner index
          (sets.map (List.map PortDemand.shape))).map (List.map Prod.fst) =
        (positional_statements letter spell jsonb settings now organization owner index
          sets).map (List.map Prod.fst) := by
  intro sets
  induction sets with
  | nil =>
      intro index
      rfl
  | cons demands rest ih =>
      intro index
      exact map_cons (positional_shape demands organization organization') (ih (index + 1))

theorem any_shape {letter : Char → Bool} {owner : DemandOwner} {now now' : Nat → String → Int}
    {organization organization' : Int} (sets : List (List PortDemand)) :
    (get_any_port_demand_subquery letter spell' jsonb settings' now'
        (sets.map (List.map PortDemand.shape)) organization' owner).map Prod.fst =
      (get_any_port_demand_subquery letter spell jsonb settings now sets organization owner).map
        Prod.fst := by
  have hEmpty : (sets.map (List.map PortDemand.shape)).any List.isEmpty = sets.any List.isEmpty := by
    simp only [List.any_map, Function.comp_def, List.isEmpty_map]
  have hTexts : ∀ x : Except ValueError (List (List Char × List Value)),
      (x >>= fun statements => Except.ok (union_text (statements.map Prod.fst),
        statements.flatMap Prod.snd)).map Prod.fst = (x.map (List.map Prod.fst)).map union_text := by
    intro x
    cases x <;> rfl
  rw [get_any_port_demand_subquery, get_any_port_demand_subquery, hEmpty]
  by_cases hSets : sets.any List.isEmpty = true
  · rw [if_pos hSets, if_pos hSets]
  · rw [if_neg hSets, if_neg hSets]
    refine (hTexts _).trans (Eq.trans ?_ (hTexts _).symm)
    rw [statements_shape sets 0]

/-- The text of a search, or its refusal, is told by which fields its demands set: no value of a
demand, no setting and no time gets into it. -/
theorem any_text_by_shape {letter : Char → Bool} {owner : DemandOwner}
    {now now' : Nat → String → Int} {organization organization' : Int}
    {sets sets' : List (List PortDemand)}
    (h : sets.map (List.map PortDemand.shape) = sets'.map (List.map PortDemand.shape)) :
    (get_any_port_demand_subquery letter spell jsonb settings now sets organization owner).map
        Prod.fst =
      (get_any_port_demand_subquery letter spell' jsonb settings' now' sets' organization'
        owner).map Prod.fst := by
  calc
    _ = (get_any_port_demand_subquery letter spell jsonb settings now
          (sets.map (List.map PortDemand.shape)) organization owner).map Prod.fst :=
      (any_shape sets).symm
    _ = _ := by
      rw [h]
      exact any_shape sets'

end Shapes

def key_wanted (key : String) : List (List PortDemand) :=
  [[{ kind := .args, matches_ := [.mk { key := some key } []] }]]

/-- A key that is SQL itself is not in the text. -/
theorem key_not_in_text :
    (get_any_port_demand_subquery (fun _ => false) unspelled no_json {} (fun _ _ => 0)
        (key_wanted "image") 1 .action).map Prod.fst =
      (get_any_port_demand_subquery (fun _ => false) unspelled no_json {} (fun _ _ => 0)
        (key_wanted "' OR TRUE --") 1 .action).map Prod.fst :=
  any_text_by_shape rfl

end Rekuest.Demands
