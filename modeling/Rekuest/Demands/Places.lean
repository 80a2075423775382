import Rekuest.Demands.Statement

/-!
# The places of a demand's statement

The names in a statement are distinct, so each parameter has the value that its place was
written for, and the text around them is the builder's own: no value of a demand is part of
it.  A statement keeps its meaning when its names become positions.
-/

namespace Rekuest.Demands

open Sql (Term Cond Source Select Plain Piece)

/-! ## Places of another kind

A builder puts in the place of a value what it is told to; the names, the values and both
together are three statements of one shape. -/

section Kinds

variable {κ κ' : Type} {spell : Dyadic → Formulas.Spelling} {jsonb : Jsonb}
  {place : String → Value → κ} {settings : Settings} {now : String → Int} (g : κ → κ')

/-- Clauses with something else in their places. -/
def placed (clauses : List (Clause κ) × Assignments) : List (Clause κ') × Assignments :=
  (clauses.1.map (Cond.map g), clauses.2)

def placed_one (clause : Clause κ × Assignments) : Clause κ' × Assignments :=
  (clause.1.map g, clause.2)

abbrev then_ (g : κ → κ') (place : String → Value → κ) : String → Value → κ' :=
  fun key value => g (place key value)

theorem field_clause_map (alias_ id_path tag : String) (column : Column) (value : Option Value) :
    field_clause (then_ g place) alias_ id_path tag column value =
      placed g (field_clause place alias_ id_path tag column value) := by
  cases value <;> rfl

theorem together_map (parts : List (List (Clause κ) × Assignments)) :
    together (parts.map (placed g)) = placed g (together parts) := by
  simp [together, placed, List.flatMap_map, List.map_flatMap]

theorem structural_clauses_map (fields : MatchFields) (alias_ id_path : String) :
    structural_clauses (then_ g place) fields alias_ id_path =
      placed g (structural_clauses place fields alias_ id_path) := by
  simp only [structural_clauses, field_clause_map, ← together_map, List.map_cons, List.map_nil]

theorem descriptor_clauses_map (fields : MatchFields) (fits : Bool) (alias_ id_path : String) :
    descriptor_clauses spell jsonb (then_ g place) settings now fields fits alias_ id_path =
      placed g (descriptor_clauses spell jsonb place settings now fields fits alias_ id_path) := by
  rw [descriptor_clauses, descriptor_clauses]
  by_cases hNone : fields.descriptors.isEmpty = true
  · rw [if_pos hNone, if_pos hNone]
    rfl
  · rw [if_neg hNone, if_neg hNone]
    cases fits <;> rfl

theorem conjunction_map (clauses : List (Clause κ)) :
    conjunction (clauses.map (Cond.map g)) = (conjunction clauses).map g := by
  induction clauses with
  | nil => rfl
  | cons c rest ih =>
      cases rest with
      | nil => rfl
      | cons next rest =>
          show Cond.and (c.map g) (conjunction ((next :: rest).map (Cond.map g))) = _
          rw [ih]
          rfl

theorem correlation_map (owner_column : Column) (action_alias alias_ : String)
    (parent_alias : Option String) :
    (correlation owner_column action_alias alias_ parent_alias : List (Clause κ)).map (Cond.map g) =
      correlation owner_column action_alias alias_ parent_alias := by
  cases parent_alias <;> rfl

/-- What may be refused, with something else in its places. -/
theorem map_bind {α β γ : Type} (x : Except ValueError α) (f : α → Except ValueError β) (h : β → γ) :
    (x >>= f).map h = x >>= fun a => (f a).map h := by
  cases x <;> rfl

theorem bind_map {α β γ : Type} (x : Except ValueError α) (h : α → β) (f : β → Except ValueError γ) :
    (x.map h) >>= f = x >>= fun a => f (h a) := by
  cases x <;> rfl

variable {table : Table} {owner_column : Column} {action_alias : String}

mutual

theorem build_match_map : ∀ (m : PortMatchInputModel) (parent_alias : Option String)
    (id_path : String),
    build_match_exists spell jsonb (then_ g place) settings now table owner_column action_alias
        parent_alias id_path m =
      (build_match_exists spell jsonb place settings now table owner_column action_alias
        parent_alias id_path m).map (placed_one g)
  | .mk fields children, parent_alias, id_path => by
      rw [build_match_exists, build_match_exists]
      by_cases hOnly : (!fields.descriptors.isEmpty && parent_alias.isNone &&
          !fields.has_structural_narrowing) = true
      · simp only [hOnly, if_true]
        rfl
      · simp only [hOnly, Bool.false_eq_true, if_false]
        rw [build_children_map children ("p_" ++ id_path) id_path 0, map_bind, bind_map]
        congr 1
        funext nested
        rw [structural_clauses_map, descriptor_clauses_map]
        show Except.ok _ = Except.ok _
        congr 1
        show (_, _) = placed_one g (_, _)
        simp only [placed_one, placed, Cond.map, Source.map, ← conjunction_map, List.map_append,
          correlation_map]

theorem build_children_map : ∀ (children : List PortMatchInputModel) (parent_alias id_path : String)
    (index : Nat),
    build_children spell jsonb (then_ g place) settings now table owner_column action_alias
        parent_alias id_path index children =
      (build_children spell jsonb place settings now table owner_column action_alias parent_alias
        id_path index children).map (placed g)
  | [], _, _, _ => rfl
  | child :: rest, parent_alias, id_path, index => by
      rw [build_children, build_children, build_match_map child, build_children_map rest, map_bind,
        bind_map]
      congr 1
      funext clause
      rw [map_bind, bind_map]
      rfl

end

theorem root_matches_map (path : Nat → String) : ∀ (matches_ : List PortMatchInputModel) (index : Nat),
    root_matches spell jsonb (then_ g place) settings now table owner_column action_alias path index
        matches_ =
      (root_matches spell jsonb place settings now table owner_column action_alias path index
        matches_).map (placed g) := by
  intro matches_
  induction matches_ with
  | nil =>
      intro index
      rfl
  | cons m rest ih =>
      intro index
      rw [root_matches, root_matches, build_match_map, ih, map_bind, bind_map]
      congr 1
      funext clause
      rw [map_bind, bind_map]
      rfl

theorem forced_map (length : Option Int) (clause : Int → Clause κ × Assignments) :
    forced length (fun n => placed_one g (clause n)) = placed g (forced length clause) := by
  cases length <;> rfl

theorem length_clause_map (owner : PortOwner) (kind : DemandKind) (key : String) :
    length_clause (then_ g place) table action_alias owner kind key =
      fun n => placed_one g (length_clause place table action_alias owner kind key n) := by
  funext n
  rw [length_clause, length_clause]
  cases owner.count_columns <;> rfl

theorem demand_clauses_map (owner : PortOwner) (demand_index : Nat) (demand : PortDemand) :
    demand_clauses spell jsonb (then_ g place) settings now owner demand_index demand =
      (demand_clauses spell jsonb place settings now owner demand_index demand).map (placed g) := by
  rw [demand_clauses, demand_clauses]
  cases owner.port_tables demand.kind with
  | none => rfl
  | some table =>
      dsimp only
      rw [root_matches_map, length_clause_map, map_bind, bind_map]
      congr 1
      funext matched
      show Except.ok _ = Except.ok _
      rw [← together_map]
      congr 2
      simp only [List.map_cons, List.map_nil, ← forced_map]
      rfl

theorem demands_clauses_map (owner : PortOwner) : ∀ (demands : List PortDemand) (demand_index : Nat),
    demands_clauses spell jsonb (then_ g place) settings now owner demand_index demands =
      (demands_clauses spell jsonb place settings now owner demand_index demands).map (placed g) := by
  intro demands
  induction demands with
  | nil =>
      intro demand_index
      rfl
  | cons demand rest ih =>
      intro demand_index
      rw [demands_clauses, demands_clauses, demand_clauses_map, ih, map_bind, bind_map]
      congr 1
      funext clauses
      rw [map_bind, bind_map]
      congr 1
      funext others
      show Except.ok _ = Except.ok _
      rw [← together_map]
      rfl

theorem organization_clause_map (organization : Option Int) :
    organization_clause (then_ g place) organization =
      placed g (organization_clause place organization) := by
  cases organization <;> rfl

/-- The statements for two kinds of places are of one shape. -/
theorem port_demand_sql_map (spell : Dyadic → Formulas.Spelling) (jsonb : Jsonb)
    (place : String → Value → κ) (settings : Settings) (now : String → Int) (g : κ → κ')
    (demands : List PortDemand) (organization : Option Int)
    (owner : PortOwner) :
    port_demand_sql spell jsonb (then_ g place) settings now demands organization owner =
      (port_demand_sql spell jsonb place settings now demands organization owner).map
        fun statement => (statement.1.map g, statement.2) := by
  rw [port_demand_sql, port_demand_sql, demands_clauses_map, map_bind, bind_map]
  congr 1
  funext clauses
  have hAll : together [organization_clause (then_ g place) organization, placed g clauses] =
      placed g (together [organization_clause place organization, clauses]) := by
    rw [organization_clause_map, ← together_map]
    rfl
  rw [hAll]
  generalize together [organization_clause place organization, clauses] = all
  have hEmpty : (placed g all).1.isEmpty = all.1.isEmpty := by
    rw [placed]
    exact List.isEmpty_map
  dsimp only
  rw [hEmpty]
  by_cases hNone : all.1.isEmpty = true
  · rw [if_pos hNone, if_pos hNone]
    rfl
  · rw [if_neg hNone, if_neg hNone]
    show Except.ok (select_ids owner.table (placed g all).1, (placed g all).2) = Except.ok _
    rw [select_ids, placed, conjunction_map]
    rfl

end Kinds

/-! ## What is in the text, and what in the places -/

section Placed

variable {spell : Dyadic → Formulas.Spelling} {jsonb : Jsonb} {settings : Settings}
  {now : String → Int} {letter : Char → Bool}

/-- A name and its value in one place. -/
abbrev both_ : String → Value → String × Value := Prod.mk

/-- A clause whose text is the builder's own. -/
def OwnText {κ : Type} (c : Clause κ) : Prop := Plain (c.pieces Table.name Column.text)

/-- A text of the characters of names. -/
def Wordy (letter : Char → Bool) (s : String) : Prop := ∀ c ∈ s.toList, is_word letter c = true

theorem Wordy.append {s t : String} (hs : Wordy letter s) (ht : Wordy letter t) :
    Wordy letter (s ++ t) := by
  intro c hc
  rw [String.toList_append, List.mem_append] at hc
  exact hc.elim (hs c) (ht c)

theorem Wordy.plain {s : String} (h : Wordy letter s) : Sql.plain s = true := by
  rw [Sql.plain, List.all_eq_true]
  intro c hc
  have hWord := h c hc
  simp only [bne_iff_ne, ne_eq]
  rintro rfl
  revert hWord
  simp [is_word]

/-- Letters, digits and the underscore. -/
theorem wordy_of_ascii {s : String}
    (h : (s.toList.all fun c => c.toNat < 128 && (c.isAlphanum || c = '_')) = true) :
    Wordy letter s := by
  intro c hc
  have hBoth := List.all_eq_true.1 h c hc
  rw [Bool.and_eq_true, decide_eq_true_eq] at hBoth
  rw [is_word, if_pos hBoth.1]
  simpa using hBoth.2

theorem wordy_nat (n : Nat) : Wordy letter (toString n) := by
  intro c hc
  rw [Nat.toString_eq_repr, Nat.toList_repr] at hc
  have hDigit := Nat.isDigit_of_mem_toDigits (by decide) (by decide) hc
  have hLt : c.toNat < 128 := by
    simp only [Char.isDigit, Bool.and_eq_true, decide_eq_true_eq] at hDigit
    have hLe := hDigit.2
    have hNat : c.toNat ≤ 57 := by
      simpa [UInt32.le_iff_toNat_le] using hLe
    omega
  rw [is_word, if_pos hLt]
  simp [Char.isAlphanum, hDigit]

/-- Clauses in the builder's own text, whose places are all assigned. -/
structure Fine (clauses : List (Clause (String × Value))) (assignments : Assignments) : Prop where
  places : ∀ c ∈ clauses, ∀ p ∈ c.places, p ∈ assignments
  text : ∀ c ∈ clauses, OwnText c

theorem Fine.nil : Fine [] [] where
  places c hc := by cases hc
  text c hc := by cases hc

theorem Fine.append {cs cs' : List (Clause (String × Value))} {as as' : Assignments}
    (h : Fine cs as) (h' : Fine cs' as') : Fine (cs ++ cs') (as ++ as') where
  places := by
    intro c hc p hp
    rcases List.mem_append.1 hc with hLeft | hRight
    · exact List.mem_append_left _ (h.places c hLeft p hp)
    · exact List.mem_append_right _ (h'.places c hRight p hp)
  text := by
    intro c hc
    rcases List.mem_append.1 hc with hLeft | hRight
    · exact h.text c hLeft
    · exact h'.text c hRight

theorem Fine.together {parts : List (List (Clause (String × Value)) × Assignments)}
    (h : ∀ part ∈ parts, Fine part.1 part.2) : Fine (together parts).1 (together parts).2 := by
  induction parts with
  | nil => exact .nil
  | cons part rest ih =>
      have hRest := ih fun other hOther => h other (List.mem_cons_of_mem _ hOther)
      exact (h part List.mem_cons_self).append hRest

theorem own_text_equals {κ : Type} {left right : Term Value Column κ}
    (hLeft : Plain (left.pieces Column.text)) (hRight : Plain (right.pieces Column.text)) :
    OwnText (equals left right) := by
  simp [OwnText, equals, Cond.pieces, hLeft, hRight, Sql.plain]

theorem plain_column_text (column : Column) : Sql.plain column.text = true := by
  cases column <;> simp [Column.text, Sql.plain]

theorem plain_table_name (table : Table) : Sql.plain table.name = true := by
  cases table <;> simp [Table.name, Sql.plain]

theorem plain_column {κ : Type} {alias_ : String} (h : Sql.plain alias_ = true) (column : Column) :
    Plain ((.column alias_ column : Term Value Column κ).pieces Column.text) := by
  have hDot : Sql.plain "." = true := by simp [Sql.plain]
  simp [Term.pieces, h, hDot, plain_column_text]

theorem plain_place {κ : Type} (key : κ) :
    Plain ((.place key : Term Value Column κ).pieces Column.text) := by
  simp [Term.pieces]

theorem own_text_conjunction {κ : Type} {clauses : List (Clause κ)} (h : ∀ c ∈ clauses, OwnText c) :
    OwnText (conjunction clauses) := by
  induction clauses with
  | nil => simp [OwnText, conjunction, Cond.pieces, Sql.plain]
  | cons c rest ih =>
      have hRest := ih fun other hOther => h other (List.mem_cons_of_mem _ hOther)
      have hHead := h c List.mem_cons_self
      cases rest with
      | nil => exact hHead
      | cons next rest =>
          have hAnd : Sql.plain " AND " = true := by simp [Sql.plain]
          simp only [OwnText, conjunction, Cond.pieces, Sql.plain_pieces_append,
            Sql.plain_pieces_text, hAnd, true_and] at hRest hHead ⊢
          exact ⟨hHead, hRest⟩

theorem places_conjunction {κ : Type} {clauses : List (Clause κ)} {p : κ}
    (h : p ∈ (conjunction clauses).places) : ∃ c ∈ clauses, p ∈ c.places := by
  induction clauses with
  | nil =>
      rw [conjunction, Cond.places] at h
      cases h
  | cons c rest ih =>
      cases rest with
      | nil => exact ⟨c, List.mem_cons_self, h⟩
      | cons next rest =>
          have hBoth : p ∈ c.places ++ (conjunction (next :: rest)).places := h
          rcases List.mem_append.1 hBoth with hHead | hRest
          · exact ⟨c, List.mem_cons_self, hHead⟩
          · obtain ⟨other, hOther, hIn⟩ := ih hRest
            exact ⟨other, List.mem_cons_of_mem _ hOther, hIn⟩

theorem fine_field {alias_ id_path tag : String} {column : Column} {value : Option Value}
    (hAlias : Sql.plain alias_ = true) :
    Fine (field_clause both_ alias_ id_path tag column value).1
      (field_clause both_ alias_ id_path tag column value).2 := by
  cases value with
  | none => exact .nil
  | some value =>
      constructor
      · intro c hc p hp
        rw [List.mem_singleton.1 hc] at hp
        show p ∈ [(tag ++ "_" ++ id_path, value)]
        simpa [equals, Cond.places, Term.places] using hp
      · intro c hc
        rw [List.mem_singleton.1 hc]
        exact own_text_equals (plain_column hAlias column) (plain_place _)

theorem fine_structural (fields : MatchFields) {alias_ : String} (id_path : String)
    (hAlias : Sql.plain alias_ = true) :
    Fine (structural_clauses both_ fields alias_ id_path).1
      (structural_clauses both_ fields alias_ id_path).2 := by
  apply Fine.together
  intro part hPart
  simp only [List.mem_cons, List.not_mem_nil, or_false] at hPart
  rcases hPart with rfl | rfl | rfl | rfl | rfl | rfl <;> exact fine_field hAlias

theorem own_text_accepted {κ : Type} {alias_ : String} {key : κ} (hAlias : Sql.plain alias_ = true) :
    OwnText (.or (is_null (.column alias_ .compiled_jsonpath))
      (path_match jsonb (.place key) (.column alias_ .compiled_jsonpath)
        (quoted empty_object "::jsonb"))) := by
  simpa [OwnText, Cond.pieces, Term.pieces, is_null, path_match, quoted, empty_object, Sql.plain,
    Column.text] using hAlias

theorem own_text_live (settings : Settings) (now : String → Int) (key : String) :
    OwnText (live_agent_sql both_ settings now "g" key) := by
  simp [OwnText, live_agent_sql, equals, holds, is_greater, Cond.pieces, Term.pieces, quoted,
    Sql.plain, Column.text]

theorem plain_implementations {κ : Type} : Plain ((implementations_of_agents :
    Source Value Table Column κ).pieces Table.name Column.text) := by
  simp [implementations_of_agents, equals, Source.pieces, Cond.pieces, Term.pieces, Sql.plain,
    Column.text, Table.name]

theorem own_text_fit {κ : Type} {alias_ : String} (hAlias : Sql.plain alias_ = true) :
    OwnText (fit_of alias_ : Clause κ) := by
  simpa [OwnText, fit_of, equals, Cond.pieces, Term.pieces, Sql.plain, Column.text] using hAlias

theorem own_text_fits {alias_ key : String} {object : String × Value}
    (hAlias : Sql.plain alias_ = true) :
    OwnText (fits_condition jsonb both_ settings now alias_ (.place object) key) := by
  have hLive := own_text_live settings now key
  have hFit := own_text_fit (κ := String × Value) hAlias
  have hSource := plain_implementations (κ := String × Value)
  have hAction : OwnText (equals (.column "i" .action_id) (.column alias_ .action_id) :
      Clause (String × Value)) := by
    simpa [OwnText, equals, Cond.pieces, Term.pieces, Sql.plain, Column.text] using hAlias
  have hAccepts : OwnText (path_match jsonb (.place object) (.column "f" .compiled_jsonpath)
      (agent_vars_sql jsonb "g")) := by
    simp [OwnText, path_match, agent_vars_sql, coalesce, quoted, empty_object, Cond.pieces,
      Term.pieces, Sql.plain, Column.text]
  have hNull : OwnText (is_null (.column "f" .id) : Clause (String × Value)) := by
    simp [OwnText, is_null, Cond.pieces, Term.pieces, Sql.plain, Column.text]
  unfold OwnText at hLive hFit hAction hAccepts hNull
  simp only [OwnText, fits_condition, Cond.pieces, Source.pieces, Sql.plain_pieces_append,
    Sql.plain_pieces_text, hLive, hFit, hSource, hAction, hAccepts, hNull, Sql.plain_pieces_nil,
    and_true, true_and]
  simp [Sql.plain, Table.name]

/-- The clauses of one match's descriptors. -/
theorem fine_descriptors (spell : Dyadic → Formulas.Spelling) (jsonb : Jsonb) (settings : Settings)
    (now : String → Int) (fields : MatchFields) (fits : Bool) {alias_ : String} (id_path : String)
    (hAlias : Sql.plain alias_ = true) :
    Fine (descriptor_clauses spell jsonb both_ settings now fields fits alias_ id_path).1
      (descriptor_clauses spell jsonb both_ settings now fields fits alias_ id_path).2 := by
  rw [descriptor_clauses]
  by_cases hNone : fields.descriptors.isEmpty = true
  · rw [if_pos hNone]
    exact .nil
  · rw [if_neg hNone]
    cases fits with
    | false =>
        constructor
        · intro c hc p hp
          rw [List.mem_singleton.1 hc] at hp
          simpa [Cond.places, is_null, path_match, quoted, Term.places] using hp
        · intro c hc
          rw [List.mem_singleton.1 hc]
          exact own_text_accepted hAlias
    | true =>
        constructor
        · intro c hc p hp
          rcases List.mem_cons.1 hc with rfl | hRest
          · simpa [fits_condition, implementations_of_agents, fit_of, live_agent_sql, Cond.places,
              Source.places, is_null, path_match, equals, is_greater, holds, agent_vars_sql, coalesce,
              quoted, Term.places, or_comm] using hp
          · rw [List.mem_singleton.1 hRest] at hp
            have hKey : p = ("obj_" ++ id_path, .text (candidate_object spell fields.descriptors)) := by
              simpa [Cond.places, is_null, path_match, quoted, Term.places] using hp
            rw [hKey]
            exact List.mem_cons_self
        · intro c hc
          rcases List.mem_cons.1 hc with rfl | hRest
          · exact own_text_fits hAlias
          · rw [List.mem_singleton.1 hRest]
            exact own_text_accepted hAlias

theorem fine_correlation {owner_column : Column} {action_alias alias_ : String}
    {parent_alias : Option String} (hAlias : Sql.plain alias_ = true)
    (hAction : Sql.plain action_alias = true)
    (hParent : ∀ parent, parent_alias = some parent → Sql.plain parent = true) :
    Fine (correlation owner_column action_alias alias_ parent_alias) [] := by
  have hEquals : ∀ {other : String} {x y : Column}, Sql.plain other = true →
      OwnText (equals (.column alias_ x) (.column other y) : Clause (String × Value)) :=
    fun hOther => own_text_equals (plain_column hAlias _) (plain_column hOther _)
  have hNull : OwnText (is_null (.column alias_ .parent_id) : Clause (String × Value)) := by
    simpa [OwnText, is_null, Cond.pieces, Term.pieces, Sql.plain, Column.text] using hAlias
  cases parent_alias with
  | none =>
      constructor
      · intro c hc p hp
        simp only [correlation, List.mem_cons, List.not_mem_nil, or_false] at hc
        rcases hc with rfl | rfl <;> simp [equals, is_null, Cond.places, Term.places] at hp
      · intro c hc
        simp only [correlation, List.mem_cons, List.not_mem_nil, or_false] at hc
        rcases hc with rfl | rfl
        · exact hEquals hAction
        · exact hNull
  | some parent =>
      constructor
      · intro c hc p hp
        rw [List.mem_singleton.1 hc] at hp
        simp [equals, Cond.places, Term.places] at hp
      · intro c hc
        rw [List.mem_singleton.1 hc]
        exact hEquals (hParent parent rfl)

variable {table : Table} {owner_column : Column} {action_alias : String}

/-- A match's own clause, from what is in its `WHERE`. -/
theorem fine_some_row {alias_ : String} {clauses : List (Clause (String × Value))}
    {assignments : Assignments} (hAlias : Sql.plain alias_ = true) (h : Fine clauses assignments) :
    Fine [.some_row (.table table (some alias_)) (conjunction clauses)] assignments where
  places := by
    intro c hc p hp
    rw [List.mem_singleton.1 hc, Cond.places, Source.places, List.nil_append] at hp
    obtain ⟨inner, hInner, hIn⟩ := places_conjunction hp
    exact h.places inner hInner p hIn
  text := by
    intro c hc
    have hInner := own_text_conjunction h.text
    rw [List.mem_singleton.1 hc, OwnText, Cond.pieces]
    have hTable := plain_table_name table
    unfold OwnText at hInner
    simp only [Source.pieces, Sql.plain_pieces_append, Sql.plain_pieces_text, hInner,
      Sql.plain_pieces_nil, Sql.plain_append, hTable, hAlias, and_true, Bool.and_true, Bool.true_and]
    simp [Sql.plain]

theorem plain_alias {id_path : String} (h : Wordy letter id_path) :
    Sql.plain ("p_" ++ id_path) = true := by
  have hPrefix : Wordy letter "p_" := wordy_of_ascii (by decide +kernel)
  exact (hPrefix.append h).plain

theorem wordy_child {id_path : String} (h : Wordy letter id_path) (index : Nat) :
    Wordy letter (id_path ++ "_" ++ toString index) := by
  have hMark : Wordy letter "_" := wordy_of_ascii (by decide +kernel)
  exact (h.append hMark).append (wordy_nat index)

mutual

theorem fine_match (hAction : Sql.plain action_alias = true) :
    ∀ (m : PortMatchInputModel) {parent_alias : Option String} {id_path : String}
      {clause : Clause (String × Value) × Assignments},
      build_match_exists spell jsonb both_ settings now table owner_column action_alias parent_alias
        id_path m = .ok clause →
      Wordy letter id_path →
      (∀ parent, parent_alias = some parent → Sql.plain parent = true) → Fine [clause.1] clause.2
  | .mk fields children, parent_alias, id_path, clause, h, hPath, hParent => by
      have hAlias := plain_alias hPath
      rw [build_match_exists] at h
      by_cases hOnly : (!fields.descriptors.isEmpty && parent_alias.isNone &&
          !fields.has_structural_narrowing) = true
      · simp only [hOnly, if_true] at h
        cases h
      · simp only [hOnly, Bool.false_eq_true, if_false] at h
        obtain ⟨nested, hNested, hEq⟩ := Ports.bind_ok h
        cases hEq
        have hBelow := fine_children hAction children hNested hPath
        have hOwn := (fine_structural fields id_path hAlias).append
          ((fine_descriptors spell jsonb settings now fields
            (asks_fits table owner_column parent_alias) id_path hAlias).append hBelow)
        exact fine_some_row hAlias ((fine_correlation hAlias hAction hParent).append hOwn)

theorem fine_children (hAction : Sql.plain action_alias = true) :
    ∀ (children : List PortMatchInputModel) {id_path : String} {index : Nat}
      {clauses : List (Clause (String × Value)) × Assignments},
      build_children spell jsonb both_ settings now table owner_column action_alias
        ("p_" ++ id_path) id_path index children = .ok clauses →
      Wordy letter id_path → Fine clauses.1 clauses.2
  | [], _, _, _, h, _ => by
      cases h
      exact .nil
  | child :: rest, id_path, index, _, h, hPath => by
      rw [build_children] at h
      obtain ⟨clause, hClause, hRest⟩ := Ports.bind_ok h
      obtain ⟨others, hOthers, hEq⟩ := Ports.bind_ok hRest
      cases hEq
      have hHead := fine_match hAction child hClause (wordy_child hPath index) (by
        intro parent hParent
        cases hParent
        exact plain_alias hPath)
      exact hHead.append (fine_children hAction rest hOthers hPath)

end

theorem fine_root_matches (letter : Char → Bool) (hAction : Sql.plain action_alias = true) {path : Nat → String}
    (hPath : ∀ n, Wordy letter (path n)) : ∀ {matches_ : List PortMatchInputModel} {index : Nat}
      {clauses : List (Clause (String × Value)) × Assignments},
      root_matches spell jsonb both_ settings now table owner_column action_alias path index
        matches_ = .ok clauses → Fine clauses.1 clauses.2 := by
  intro matches_
  induction matches_ with
  | nil =>
      intro index clauses h
      cases h
      exact .nil
  | cons m rest ih =>
      intro index clauses h
      obtain ⟨clause, hClause, hRest⟩ := Ports.bind_ok h
      obtain ⟨others, hOthers, hEq⟩ := Ports.bind_ok hRest
      cases hEq
      have hHead := fine_match hAction m hClause (hPath index) (by
        intro parent hParent
        cases hParent)
      exact hHead.append (ih hOthers)

theorem fine_forced {length : Option Int} {clause : Int → Clause (String × Value) × Assignments}
    (h : ∀ n, Fine [(clause n).1] (clause n).2) :
    Fine (forced length clause).1 (forced length clause).2 := by
  cases length with
  | none => exact .nil
  | some n => exact h n

theorem fine_count {extra_condition : Clause (String × Value)} (hExtra : OwnText extra_condition)
    (hNone : extra_condition.places = []) {key : String} {n : Int} :
    Fine [(root_count_subquery both_ table owner_column "a" extra_condition key n).1]
      (root_count_subquery both_ table owner_column "a" extra_condition key n).2 where
  places := by
    intro c hc p hp
    rw [List.mem_singleton.1 hc] at hp
    show p ∈ [(key, .int n)]
    simpa [root_count_subquery, Cond.places, Source.places, equals, is_null, Term.places, hNone]
      using hp
  text := by
    intro c hc
    rw [List.mem_singleton.1 hc]
    have hTable := plain_table_name table
    have hColumn := plain_column_text owner_column
    unfold OwnText at hExtra
    simp only [OwnText, root_count_subquery, equals, is_null, Cond.pieces, Source.pieces, Term.pieces,
      Sql.plain_pieces_append, Sql.plain_pieces_text, Sql.plain_pieces_place, hExtra,
      Sql.plain_pieces_nil, Sql.plain_append, hTable, hColumn, List.flatMap_cons, List.flatMap_nil,
      List.append_nil, List.cons_append, List.nil_append, and_true, Bool.and_true, Bool.true_and]
    simp [Sql.plain, Column.text]

theorem fine_length {owner : PortOwner} {kind : DemandKind} {key : String} {n : Int} :
    Fine [(length_clause both_ table "a" owner kind key n).1]
      (length_clause both_ table "a" owner kind key n).2 := by
  rw [length_clause]
  have hA : Sql.plain "a" = true := by simp [Sql.plain]
  cases owner.count_columns with
  | none =>
      refine fine_count ?_ rfl
      simp [OwnText, always, Cond.pieces, Sql.plain]
  | some columns =>
      constructor
      · intro c hc p hp
        rw [List.mem_singleton.1 hc] at hp
        show p ∈ [(key, Value.int n)]
        simpa [equals, Cond.places, Term.places] using hp
      · intro c hc
        rw [List.mem_singleton.1 hc]
        exact own_text_equals (plain_column hA _) (plain_place _)

theorem wordy_match_path (demand_index match_index : Nat) :
    Wordy letter (toString demand_index ++ "_" ++ toString match_index) :=
  wordy_child (wordy_nat demand_index) match_index

theorem fine_demand {owner : PortOwner} {demand_index : Nat} {demand : PortDemand}
    {clauses : List (Clause (String × Value)) × Assignments}
    (h : demand_clauses spell jsonb both_ settings now owner demand_index demand = .ok clauses) :
    Fine clauses.1 clauses.2 := by
  rw [demand_clauses] at h
  cases hTable : owner.port_tables demand.kind with
  | none =>
      rw [hTable] at h
      cases h
  | some table =>
      rw [hTable] at h
      obtain ⟨matched, hMatched, hEq⟩ := Ports.bind_ok h
      cases hEq
      have hA : Sql.plain "a" = true := by simp [Sql.plain]
      apply Fine.together
      intro part hPart
      simp only [List.mem_cons, List.not_mem_nil, or_false] at hPart
      rcases hPart with rfl | rfl | rfl | rfl
      · exact fine_root_matches (fun _ => false) hA (wordy_match_path demand_index) hMatched
      · exact fine_forced fun n => fine_length
      · refine fine_forced fun n => fine_count ?_ rfl
        simp [OwnText, equals, false_, Cond.pieces, Term.pieces, Sql.plain, Column.text]
      · refine fine_forced fun n => fine_count ?_ rfl
        simp [OwnText, equals, quoted, Cond.pieces, Term.pieces, Sql.plain, Column.text]

theorem fine_demands {owner : PortOwner} : ∀ {demands : List PortDemand} {demand_index : Nat}
    {clauses : List (Clause (String × Value)) × Assignments},
    demands_clauses spell jsonb both_ settings now owner demand_index demands = .ok clauses →
    Fine clauses.1 clauses.2 := by
  intro demands
  induction demands with
  | nil =>
      intro demand_index clauses h
      cases h
      exact .nil
  | cons demand rest ih =>
      intro demand_index clauses h
      obtain ⟨first, hFirst, hRest⟩ := Ports.bind_ok h
      obtain ⟨others, hOthers, hEq⟩ := Ports.bind_ok hRest
      cases hEq
      apply Fine.together
      intro part hPart
      simp only [List.mem_cons, List.not_mem_nil, or_false] at hPart
      rcases hPart with rfl | rfl
      · exact fine_demand hFirst
      · exact ih hOthers

theorem fine_organization {organization : Option Int} :
    Fine (organization_clause both_ organization).1 (organization_clause both_ organization).2 := by
  cases organization with
  | none => exact .nil
  | some organization =>
      have hA : Sql.plain "a" = true := by simp [Sql.plain]
      constructor
      · intro c hc p hp
        rw [List.mem_singleton.1 hc] at hp
        show p ∈ [("org", Value.int organization)]
        simpa [equals, Cond.places, Term.places] using hp
      · intro c hc
        rw [List.mem_singleton.1 hc]
        exact own_text_equals (plain_column hA _) (plain_place _)

/-- The text of a statement is the builder's own, and its places are all assigned. -/
theorem fine_statement {demands : List PortDemand} {organization : Option Int} {owner : PortOwner}
    {s : Select Value Table Column (String × Value)} {assignments : Assignments}
    (h : port_demand_sql spell jsonb both_ settings now demands organization owner =
      .ok (s, assignments)) :
    Plain (s.pieces Table.name Column.text) ∧ ∀ p ∈ s.places, p ∈ assignments := by
  obtain ⟨clauses, hClauses, hRest⟩ := Ports.bind_ok h
  have hFine : Fine (together [organization_clause both_ organization, clauses]).1
      (together [organization_clause both_ organization, clauses]).2 := by
    apply Fine.together
    intro part hPart
    simp only [List.mem_cons, List.not_mem_nil, or_false] at hPart
    rcases hPart with rfl | rfl
    · exact fine_organization
    · exact fine_demands hClauses
  dsimp only at hRest
  split at hRest
  case isTrue => cases hRest
  case isFalse =>
      cases hRest
      refine ⟨?_, ?_⟩
      · have hText := own_text_conjunction hFine.text
        unfold OwnText at hText
        simp only [Select.pieces, select_ids, Source.pieces, Term.pieces, Sql.plain_pieces_append,
          Sql.plain_pieces_text, Sql.plain_pieces_nil, hText, Sql.plain_append, plain_table_name,
          and_true, Bool.true_and]
        simp [Sql.plain, Column.text]
      · intro p hp
        rw [Select.places, select_ids, Term.places, Source.places, List.nil_append,
          List.nil_append] at hp
        obtain ⟨c, hc, hIn⟩ := places_conjunction hp
        exact hFine.places c hc p hIn

end Placed

/-! ## The names are distinct

A name is a tag and a path, joined by underscores; cut at the underscores it tells both. -/

section Names

variable {spell : Dyadic → Formulas.Spelling} {jsonb : Jsonb} {settings : Settings}
  {now : String → Int} {letter : Char → Bool}

/-- The parts of a name. -/
def segments (s : String) : List (List Char) := s.toList.splitOn '_'

theorem segments_join (s t : String) : segments (s ++ "_" ++ t) = segments s ++ segments t := by
  have hMark : "_".toList = ['_'] := rfl
  rw [segments, String.toList_append, String.toList_append, hMark, List.append_assoc,
    List.singleton_append, List.splitOn_append_cons_self]
  rfl

theorem segments_nat (n : Nat) : segments (toString n) = [Nat.toDigits 10 n] := by
  rw [segments, Nat.toString_eq_repr, Nat.toList_repr]
  apply List.splitOn_eq_singleton
  intro hMem
  have hDigit := Nat.isDigit_of_mem_toDigits (by decide) (by decide) hMem
  revert hDigit
  decide

theorem toDigits_inj {m n : Nat} (h : Nat.toDigits 10 m = Nat.toDigits 10 n) : m = n := by
  have hRead := congrArg (Nat.ofDigitChars 10 · 0) h
  simpa only [Nat.ofDigitChars_ten_toDigits] using hRead

/-- The tags of a match's names. -/
def tags : List String := ["at", "key", "kind", "ident", "dim", "null", "obj", "cutoff"]

theorem tag_plain : ∀ tag ∈ tags, segments tag = [tag.toList] := by
  intro tag hTag
  simp only [tags, List.mem_cons, List.not_mem_nil, or_false] at hTag
  rcases hTag with rfl | rfl | rfl | rfl | rfl | rfl | rfl | rfl <;>
    exact List.splitOn_eq_singleton (by simp)

/-- A name with a tag, of a path or of one below it. -/
def NameOf (path more : List (List Char)) (name : String) : Prop :=
  ∃ tag ∈ tags, segments name = tag.toList :: (path ++ more)

/-- Distinct names of tags, of paths at or below a path, of the characters of names. -/
structure Distinct (letter : Char → Bool) (path : List (List Char)) (names : List String) : Prop where
  nodup : names.Nodup
  below : ∀ name ∈ names, ∃ more, NameOf path more name
  named : ∀ name ∈ names, Sql.Named (is_word letter) name

theorem named_tag {tag id_path : String} (hTag : tag ∈ tags) (hPath : Wordy letter id_path) :
    Sql.Named (is_word letter) (tag ++ "_" ++ id_path) := by
  have hWordy : Wordy letter (tag ++ "_") := by
    simp only [tags, List.mem_cons, List.not_mem_nil, or_false] at hTag
    rcases hTag with rfl | rfl | rfl | rfl | rfl | rfl | rfl | rfl <;>
      exact wordy_of_ascii (by decide +kernel)
  refine ⟨?_, hWordy.append hPath⟩
  intro hNil
  have hLength := congrArg List.length hNil
  simp at hLength

theorem nameOf_tag {tag id_path : String} (hTag : tag ∈ tags) :
    NameOf (segments id_path) [] (tag ++ "_" ++ id_path) :=
  ⟨tag, hTag, by rw [segments_join, tag_plain tag hTag, List.append_nil]; rfl⟩

/-- The names of a match's own fields. -/
theorem own_names (spell : Dyadic → Formulas.Spelling) (jsonb : Jsonb) (settings : Settings)
    (now : String → Int) (fields : MatchFields) (fits : Bool) (alias_ id_path : String) :
    ((structural_clauses both_ fields alias_ id_path).2.map Prod.fst ++
      (descriptor_clauses spell jsonb both_ settings now fields fits alias_ id_path).2.map
        Prod.fst).Sublist (tags.map fun tag => tag ++ "_" ++ id_path) := by
  have hField : ∀ (tag : String) (column : Column) (value : Option Value),
      ((field_clause both_ alias_ id_path tag column value).2.map Prod.fst).Sublist
        [tag ++ "_" ++ id_path] := by
    intro tag column value
    cases value with
    | none => exact List.nil_sublist _
    | some value => exact List.Sublist.refl _
  have hDescriptors : ((descriptor_clauses spell jsonb both_ settings now fields fits alias_
      id_path).2.map Prod.fst).Sublist ["obj_" ++ id_path, "cutoff_" ++ id_path] := by
    rw [descriptor_clauses]
    by_cases hNone : fields.descriptors.isEmpty = true
    · rw [if_pos hNone]
      exact List.nil_sublist _
    · rw [if_neg hNone]
      cases fits with
      | true => exact List.Sublist.refl _
      | false => exact List.Sublist.cons_cons _ (List.nil_sublist _)
  have hStructural : ((structural_clauses both_ fields alias_ id_path).2.map Prod.fst).Sublist
      (["at", "key", "kind", "ident", "dim", "null"].map fun tag => tag ++ "_" ++ id_path) := by
    simp only [structural_clauses, together, List.flatMap_cons, List.flatMap_nil, List.append_nil,
      List.map_append]
    exact (hField _ _ _).append ((hField _ _ _).append ((hField _ _ _).append
      ((hField _ _ _).append ((hField _ _ _).append (hField _ _ _)))))
  have hTags : tags.map (fun tag => tag ++ "_" ++ id_path) =
      ["at", "key", "kind", "ident", "dim", "null"].map (fun tag => tag ++ "_" ++ id_path) ++
        ["obj_" ++ id_path, "cutoff_" ++ id_path] := rfl
  rw [hTags]
  exact hStructural.append hDescriptors

theorem tags_nodup (id_path : String) : (tags.map fun tag => tag ++ "_" ++ id_path).Nodup := by
  refine List.Nodup.map_on ?_ (by decide)
  intro tag hTag other hOther hEq
  have hSegments := congrArg segments hEq
  rw [segments_join, segments_join, tag_plain tag hTag, tag_plain other hOther] at hSegments
  exact String.toList_inj.1 (List.cons.inj hSegments).1

/-- Names of a path, and names below it. -/
theorem Distinct.join {path : List (List Char)} {own below : List String}
    (hOwn : own.Nodup) (hOwnName : ∀ name ∈ own, NameOf path [] name)
    (hNamed : ∀ name ∈ own, Sql.Named (is_word letter) name) (hBelow : Distinct letter path below)
    (hDeeper : ∀ name ∈ below, ∀ more, NameOf path more name → more ≠ []) :
    Distinct letter path (own ++ below) where
  nodup := by
    rw [List.nodup_append]
    refine ⟨hOwn, hBelow.nodup, ?_⟩
    rintro name hName other hOther rfl
    exact hDeeper name hOther [] (hOwnName name hName) rfl
  below := by
    intro name hName
    rcases List.mem_append.1 hName with hIn | hIn
    · exact ⟨[], hOwnName name hIn⟩
    · exact hBelow.below name hIn
  named := by
    intro name hName
    rcases List.mem_append.1 hName with hIn | hIn
    · exact hNamed name hIn
    · exact hBelow.named name hIn

theorem NameOf.more {path more more' : List (List Char)} {name : String} (h : NameOf path more name)
    (h' : NameOf path more' name) : more = more' := by
  obtain ⟨tag, -, hEq⟩ := h
  obtain ⟨tag', -, hEq'⟩ := h'
  exact List.append_cancel_left (List.cons.inj (hEq.symm.trans hEq')).2

/-- A name below a child is a name below the parent. -/
theorem NameOf.up {path more : List (List Char)} {step : List Char} {name : String}
    (h : NameOf (path ++ [step]) more name) : NameOf path (step :: more) name := by
  obtain ⟨tag, hTag, hEq⟩ := h
  refine ⟨tag, hTag, ?_⟩
  rw [hEq, List.append_assoc]
  rfl

/-- The names below a path that are numbered from a number on. -/
structure Numbered (letter : Char → Bool) (path : List (List Char)) (index : Nat)
    (names : List String) : Prop where
  distinct : Distinct letter path names
  from_ : ∀ name ∈ names, ∃ i, index ≤ i ∧ ∃ more, NameOf path (Nat.toDigits 10 i :: more) name

theorem Numbered.nil (path : List (List Char)) (index : Nat) : Numbered letter path index [] where
  distinct := by
    refine ⟨List.nodup_nil, ?_, ?_⟩ <;>
      · intro name hName
        cases hName
  from_ name hName := by cases hName

/-- The names of one child, and those of its later siblings. -/
theorem Numbered.cons {path : List (List Char)} {index : Nat} {names others : List String}
    (hHead : Distinct letter (path ++ [Nat.toDigits 10 index]) names)
    (hRest : Numbered letter path (index + 1) others) :
    Numbered letter path index (names ++ others) := by
  have hNames : ∀ name ∈ names, ∃ more, NameOf path (Nat.toDigits 10 index :: more) name := by
    intro name hName
    obtain ⟨more, hMore⟩ := hHead.below name hName
    exact ⟨more, hMore.up⟩
  refine ⟨⟨?_, ?_, ?_⟩, ?_⟩
  · rw [List.nodup_append]
    refine ⟨hHead.nodup, hRest.distinct.nodup, ?_⟩
    rintro name hName other hOther rfl
    obtain ⟨more, hMore⟩ := hNames name hName
    obtain ⟨i, hLe, more', hMore'⟩ := hRest.from_ name hOther
    have hDigits := (List.cons.inj (hMore.more hMore')).1
    have hEq := toDigits_inj hDigits
    omega
  · intro name hName
    rcases List.mem_append.1 hName with hIn | hIn
    · obtain ⟨more, hMore⟩ := hNames name hIn
      exact ⟨_, hMore⟩
    · exact hRest.distinct.below name hIn
  · intro name hName
    rcases List.mem_append.1 hName with hIn | hIn
    · exact hHead.named name hIn
    · exact hRest.distinct.named name hIn
  · intro name hName
    rcases List.mem_append.1 hName with hIn | hIn
    · exact ⟨index, Nat.le_refl _, hNames name hIn⟩
    · obtain ⟨i, hLe, hMore⟩ := hRest.from_ name hIn
      exact ⟨i, by omega, hMore⟩

variable {table : Table} {owner_column : Column} {action_alias : String}

mutual

/-- The names of a match are distinct. -/
theorem distinct_match : ∀ (m : PortMatchInputModel) {parent_alias : Option String}
    {id_path : String} {clause : Clause (String × Value) × Assignments},
    build_match_exists spell jsonb both_ settings now table owner_column action_alias parent_alias
      id_path m = .ok clause →
    Wordy letter id_path → Distinct letter (segments id_path) (clause.2.map Prod.fst)
  | .mk fields children, parent_alias, id_path, clause, h, hPath => by
      rw [build_match_exists] at h
      by_cases hOnly : (!fields.descriptors.isEmpty && parent_alias.isNone &&
          !fields.has_structural_narrowing) = true
      · simp only [hOnly, if_true] at h
        cases h
      · simp only [hOnly, Bool.false_eq_true, if_false] at h
        obtain ⟨nested, hNested, hEq⟩ := Ports.bind_ok h
        cases hEq
        have hBelow := distinct_children children hNested hPath
        have hOwn := own_names spell jsonb settings now fields
          (asks_fits table owner_column parent_alias) ("p_" ++ id_path) id_path
        have hTagged : ∀ name ∈ (structural_clauses both_ fields ("p_" ++ id_path) id_path).2.map
            Prod.fst ++ (descriptor_clauses spell jsonb both_ settings now fields
              (asks_fits table owner_column parent_alias) ("p_" ++ id_path) id_path).2.map Prod.fst,
            ∃ tag ∈ tags, tag ++ "_" ++ id_path = name :=
          fun name hName => List.mem_map.1 (hOwn.subset hName)
        have hJoin := Distinct.join (hOwn.nodup (tags_nodup id_path))
          (fun name hName => by
            obtain ⟨tag, hTag, rfl⟩ := hTagged name hName
            exact nameOf_tag hTag)
          (fun name hName => by
            obtain ⟨tag, hTag, rfl⟩ := hTagged name hName
            exact named_tag hTag hPath)
          hBelow.distinct
          (fun name hName more hMore hNil => by
            obtain ⟨i, -, more', hMore'⟩ := hBelow.from_ name hName
            have hSame := hMore.more hMore'
            rw [hNil] at hSame
            cases hSame)
        simpa only [List.map_append, List.append_assoc] using hJoin

/-- The names of the children of a match are distinct, and tell whose they are. -/
theorem distinct_children : ∀ (children : List PortMatchInputModel) {parent_alias id_path : String}
    {index : Nat} {clauses : List (Clause (String × Value)) × Assignments},
    build_children spell jsonb both_ settings now table owner_column action_alias parent_alias
      id_path index children = .ok clauses →
    Wordy letter id_path → Numbered letter (segments id_path) index (clauses.2.map Prod.fst)
  | [], _, _, _, _, h, _ => by
      cases h
      exact .nil _ _
  | child :: rest, _, id_path, index, _, h, hPath => by
      rw [build_children] at h
      obtain ⟨clause, hClause, hRest⟩ := Ports.bind_ok h
      obtain ⟨others, hOthers, hEq⟩ := Ports.bind_ok hRest
      cases hEq
      have hHead := distinct_match child hClause (wordy_child hPath index)
      rw [segments_join, segments_nat] at hHead
      rw [List.map_append]
      exact .cons hHead (distinct_children rest hOthers hPath)

end

theorem distinct_root_matches (letter : Char → Bool) {demand_index : Nat} : ∀ {matches_ : List PortMatchInputModel}
    {index : Nat} {clauses : List (Clause (String × Value)) × Assignments},
    root_matches spell jsonb both_ settings now table owner_column action_alias
      (fun match_index => toString demand_index ++ "_" ++ toString match_index) index matches_ =
        .ok clauses →
    Numbered letter [Nat.toDigits 10 demand_index] index (clauses.2.map Prod.fst) := by
  intro matches_
  induction matches_ with
  | nil =>
      intro index clauses h
      cases h
      exact .nil _ _
  | cons m rest ih =>
      intro index clauses h
      obtain ⟨clause, hClause, hRest⟩ := Ports.bind_ok h
      obtain ⟨others, hOthers, hEq⟩ := Ports.bind_ok hRest
      cases hEq
      have hHead : Distinct letter _ _ := distinct_match m hClause (wordy_match_path demand_index index)
      rw [segments_join, segments_nat, segments_nat] at hHead
      rw [List.map_append]
      exact .cons hHead (ih hOthers)

/-! ### The names of demands -/

/-- The names of a demand's lengths. -/
def length_names (demand_index : Nat) : List String :=
  ["force_length", "force_non_nullable", "force_structure"].map
    fun tag => tag ++ "_" ++ toString demand_index

/-- A name of a demand: of one of its matches, or of one of its lengths. -/
def DemandName (demand_index : Nat) (name : String) : Prop :=
  (∃ more, NameOf [Nat.toDigits 10 demand_index] more name) ∨ name ∈ length_names demand_index

theorem length_tag_segments : ∀ tag ∈ ["force_length", "force_non_nullable", "force_structure"],
    ∃ rest, segments tag = "force".toList :: rest := by
  intro tag hTag
  simp only [List.mem_cons, List.not_mem_nil, or_false] at hTag
  rcases hTag with rfl | rfl | rfl
  · exact ⟨["length".toList], by decide +kernel⟩
  · exact ⟨["non".toList, "nullable".toList], by decide +kernel⟩
  · exact ⟨["structure".toList], by decide +kernel⟩

theorem force_notMem : ∀ tag ∈ tags, tag.toList ≠ "force".toList := by
  intro tag hTag hEq
  have hIs := String.toList_inj.1 hEq
  subst hIs
  revert hTag
  decide

/-- A length's name is no match's. -/
theorem length_name_apart {i : Nat} {path more : List (List Char)} {name : String}
    (h : name ∈ length_names i) : ¬ NameOf path more name := by
  rintro ⟨tag, hTag, hEq⟩
  obtain ⟨force, hForce, rfl⟩ := List.mem_map.1 h
  obtain ⟨rest, hRest⟩ := length_tag_segments force hForce
  rw [segments_join, hRest] at hEq
  exact force_notMem tag hTag (List.cons.inj hEq).1.symm

theorem length_name_index {i j : Nat} {name : String} (h : name ∈ length_names i)
    (h' : name ∈ length_names j) : i = j := by
  obtain ⟨force, hForce, rfl⟩ := List.mem_map.1 h
  obtain ⟨force', hForce', hEq⟩ := List.mem_map.1 h'
  have hSegments := congrArg segments hEq
  rw [segments_join, segments_join, segments_nat, segments_nat] at hSegments
  have hLast := congrArg List.getLast? hSegments
  rw [List.getLast?_append, List.getLast?_append] at hLast
  simp only [List.getLast?_singleton, Option.some_or, Option.some.injEq] at hLast
  exact (toDigits_inj hLast).symm

theorem DemandName.index {i j : Nat} {name : String} (h : DemandName i name)
    (h' : DemandName j name) : i = j := by
  rcases h with ⟨more, hMore⟩ | hLength <;> rcases h' with ⟨more', hMore'⟩ | hLength'
  · obtain ⟨tag, -, hEq⟩ := hMore
    obtain ⟨tag', -, hEq'⟩ := hMore'
    have hBoth := (List.cons.inj (hEq.symm.trans hEq')).2
    exact toDigits_inj (List.cons.inj hBoth).1
  · exact absurd hMore (length_name_apart hLength')
  · exact absurd hMore' (length_name_apart hLength)
  · exact length_name_index hLength hLength'

/-- Distinct names of demands numbered from a number on, of the characters of names. -/
structure DemandNames (letter : Char → Bool) (index : Nat) (names : List String) : Prop where
  nodup : names.Nodup
  of_ : ∀ name ∈ names, ∃ i, index ≤ i ∧ DemandName i name
  named : ∀ name ∈ names, Sql.Named (is_word letter) name

theorem forced_names {length : Option Int} {clause : Int → Clause (String × Value) × Assignments}
    {key : String} (h : ∀ n, (clause n).2.map Prod.fst = [key]) :
    ((forced length clause).2.map Prod.fst).Sublist [key] := by
  cases length with
  | none => exact List.nil_sublist _
  | some n =>
      rw [forced, h n]

theorem length_clause_names {owner : PortOwner} {kind : DemandKind} {key : String} (n : Int) :
    (length_clause both_ table "a" owner kind key n).2.map Prod.fst = [key] := by
  rw [length_clause]
  cases owner.count_columns <;> rfl

theorem length_names_nodup (i : Nat) : (length_names i).Nodup := by
  refine List.Nodup.map_on ?_ (by decide)
  intro tag _ other _ hEq
  rw [String.append_assoc, String.append_assoc] at hEq
  exact (String.append_left_inj _).1 hEq

theorem length_names_named {i : Nat} {name : String} (h : name ∈ length_names i) :
    Sql.Named (is_word letter) name := by
  obtain ⟨tag, hTag, rfl⟩ := List.mem_map.1 h
  have hWordy : Wordy letter (tag ++ "_") := by
    simp only [List.mem_cons, List.not_mem_nil, or_false] at hTag
    rcases hTag with rfl | rfl | rfl <;> exact wordy_of_ascii (by decide +kernel)
  refine ⟨?_, hWordy.append (wordy_nat i)⟩
  intro hNil
  have hLength := congrArg List.length hNil
  simp at hLength

theorem names_demand (letter : Char → Bool) {owner : PortOwner} {demand_index : Nat} {demand : PortDemand}
    {clauses : List (Clause (String × Value)) × Assignments}
    (h : demand_clauses spell jsonb both_ settings now owner demand_index demand = .ok clauses) :
    (clauses.2.map Prod.fst).Nodup ∧ ∀ name ∈ clauses.2.map Prod.fst,
      DemandName demand_index name ∧ Sql.Named (is_word letter) name := by
  rw [demand_clauses] at h
  cases hTable : owner.port_tables demand.kind with
  | none =>
      rw [hTable] at h
      cases h
  | some table =>
      rw [hTable] at h
      obtain ⟨matched, hMatched, hEq⟩ := Ports.bind_ok h
      have hNames := distinct_root_matches letter hMatched
      cases hEq
      have hLengths :
          (((forced demand.force_length (length_clause both_ table "a" owner demand.kind
              ("force_length_" ++ toString demand_index))).2 ++
            ((forced demand.force_non_nullable_length (root_count_subquery both_ table owner.column "a"
                (equals (.column "pc" .nullable) false_)
                ("force_non_nullable_" ++ toString demand_index))).2 ++
              (forced demand.force_structure_length (root_count_subquery both_ table owner.column "a"
                (equals (.column "pc" .kind) (quoted "STRUCTURE" ""))
                ("force_structure_" ++ toString demand_index))).2)).map Prod.fst).Sublist
            (length_names demand_index) := by
        rw [List.map_append, List.map_append]
        exact (forced_names length_clause_names).append
          ((forced_names fun _ => rfl).append (forced_names fun _ => rfl))
      simp only [together, List.flatMap_cons, List.flatMap_nil, List.append_nil]
      rw [List.map_append]
      refine ⟨?_, ?_⟩
      · rw [List.nodup_append]
        refine ⟨hNames.distinct.nodup, hLengths.nodup (length_names_nodup demand_index), ?_⟩
        rintro name hName other hOther rfl
        obtain ⟨i, -, more, hMore⟩ := hNames.from_ name hName
        exact length_name_apart (hLengths.subset hOther) hMore
      · intro name hName
        rcases List.mem_append.1 hName with hIn | hIn
        · obtain ⟨i, -, more, hMore⟩ := hNames.from_ name hIn
          exact ⟨.inl ⟨_, hMore⟩, hNames.distinct.named name hIn⟩
        · have hMem := hLengths.subset hIn
          exact ⟨.inr hMem, length_names_named hMem⟩

theorem names_demands (letter : Char → Bool) {owner : PortOwner} : ∀ {demands : List PortDemand} {demand_index : Nat}
    {clauses : List (Clause (String × Value)) × Assignments},
    demands_clauses spell jsonb both_ settings now owner demand_index demands = .ok clauses →
    DemandNames letter demand_index (clauses.2.map Prod.fst) := by
  intro demands
  induction demands with
  | nil =>
      intro demand_index clauses h
      cases h
      refine ⟨List.nodup_nil, ?_, ?_⟩ <;>
        · intro name hName
          cases hName
  | cons demand rest ih =>
      intro demand_index clauses h
      obtain ⟨first, hFirst, hRest⟩ := Ports.bind_ok h
      obtain ⟨others, hOthers, hEq⟩ := Ports.bind_ok hRest
      cases hEq
      obtain ⟨hNodup, hHead⟩ := names_demand letter hFirst
      have hTail := ih hOthers
      simp only [together, List.flatMap_cons, List.flatMap_nil, List.append_nil]
      rw [List.map_append]
      refine ⟨?_, ?_, ?_⟩
      · rw [List.nodup_append]
        refine ⟨hNodup, hTail.nodup, ?_⟩
        rintro name hName other hOther rfl
        obtain ⟨i, hLe, hDemand⟩ := hTail.of_ name hOther
        have hSame := (hHead name hName).1.index hDemand
        omega
      · intro name hName
        rcases List.mem_append.1 hName with hIn | hIn
        · exact ⟨demand_index, Nat.le_refl _, (hHead name hIn).1⟩
        · obtain ⟨i, hLe, hDemand⟩ := hTail.of_ name hIn
          exact ⟨i, by omega, hDemand⟩
      · intro name hName
        rcases List.mem_append.1 hName with hIn | hIn
        · exact (hHead name hIn).2
        · exact hTail.named name hIn

theorem org_apart (i : Nat) : ¬ DemandName i "org" := by
  have hOrg : segments "org" = ["org".toList] := List.splitOn_eq_singleton (by simp)
  rintro (⟨more, tag, hTag, hEq⟩ | hLength)
  · rw [hOrg] at hEq
    have hNone := (List.cons.inj hEq).2
    cases hNone
  · obtain ⟨tag, hTag, hEq⟩ := List.mem_map.1 hLength
    have hSegments := congrArg segments hEq
    rw [segments_join, hOrg, segments_nat] at hSegments
    obtain ⟨rest, hRest⟩ := length_tag_segments tag hTag
    rw [hRest] at hSegments
    have hNone := (List.cons.inj hSegments).2
    simp at hNone

/-- The names of a statement are distinct. -/
theorem names_statement (letter : Char → Bool) {demands : List PortDemand}
    {organization : Option Int} {owner : PortOwner}
    {s : Select Value Table Column (String × Value)} {assignments : Assignments}
    (h : port_demand_sql spell jsonb both_ settings now demands organization owner =
      .ok (s, assignments)) :
    (assignments.map Prod.fst).Nodup ∧
      ∀ name ∈ assignments.map Prod.fst, Sql.Named (is_word letter) name := by
  obtain ⟨clauses, hClauses, hRest⟩ := Ports.bind_ok h
  have hNames := names_demands letter hClauses
  have hOrg : Sql.Named (is_word letter) "org" :=
    ⟨by simp, wordy_of_ascii (by decide +kernel)⟩
  dsimp only at hRest
  split at hRest
  case isTrue => cases hRest
  case isFalse =>
      cases hRest
      simp only [together, List.flatMap_cons, List.flatMap_nil, List.append_nil]
      rw [List.map_append]
      cases organization with
      | none => exact ⟨hNames.nodup, hNames.named⟩
      | some organization =>
          refine ⟨?_, ?_⟩
          · refine List.nodup_cons.2 ⟨?_, hNames.nodup⟩
            intro hMem
            obtain ⟨i, -, hDemand⟩ := hNames.of_ _ hMem
            exact org_apart i hDemand
          · intro name hName
            rcases List.mem_cons.1 hName with rfl | hIn
            · exact hOrg
            · exact hNames.named name hIn

/-- After distinct names were assigned, each has its value. -/
theorem lookup_params {assignments : Assignments} (h : (assignments.map Prod.fst).Nodup)
    {p : String × Value} (hp : p ∈ assignments) : (params_of assignments).lookup p.1 = some p.2 := by
  have hParams : params_of assignments = assignments := by
    have hNew : (([] : Assignments).map Prod.fst ++ assignments.map Prod.fst).Nodup := h
    have hFold := Effects.foldl_insert Prod.fst Prod.snd hNew
    rw [List.nil_append] at hFold
    rw [params_of, hFold]
    exact List.map_id' assignments
  rw [hParams]
  clear hParams
  induction assignments with
  | nil => cases hp
  | cons a rest ih =>
      rw [List.map_cons, List.nodup_cons] at h
      rcases List.mem_cons.1 hp with rfl | hRest
      · exact List.lookup_cons_self
      · have hNe : (p.1 == a.1) = false := by
          rw [beq_eq_false_iff_ne]
          intro hEq
          exact h.1 (List.mem_map.2 ⟨p, hRest, hEq⟩)
        rw [List.lookup_cons, hNe]
        exact ih h.2 hRest

/-! ## A statement and its parameters -/

theorem map_ok {α β : Type} {x : Except ValueError α} {f : α → β} {b : β} (h : x.map f = .ok b) :
    ∃ a, x = .ok a ∧ f a = b := by
  cases x with
  | error e => cases h
  | ok a => exact ⟨a, rfl, Except.ok.inj h⟩

/-- The names and values of a named statement. -/
theorem paired_of_named {demands : List PortDemand} {organization : Option Int} {owner : PortOwner}
    {s : Select Value Table Column String} {assignments : Assignments}
    (h : port_demand_sql spell jsonb named settings now demands organization owner =
      .ok (s, assignments)) :
    ∃ paired, s = paired.map Prod.fst ∧
      port_demand_sql spell jsonb both_ settings now demands organization owner =
        .ok (paired, assignments) := by
  have hMap := port_demand_sql_map spell jsonb both_ settings now Prod.fst demands organization owner
  obtain ⟨paired, hPaired, hEq⟩ := map_ok (hMap.symm.trans h)
  cases hEq
  exact ⟨paired.1, rfl, hPaired⟩

/-- Every parameter of a statement has the value its place was written for. -/
theorem given_params {demands : List PortDemand} {organization : Option Int} {owner : PortOwner}
    {s : Select Value Table Column (String × Value)} {assignments : Assignments}
    (h : port_demand_sql spell jsonb both_ settings now demands organization owner =
      .ok (s, assignments)) :
    Sql.Given (fun key => (params_of assignments).lookup key) s.places :=
  fun p hp => lookup_params (names_statement (fun _ => false) h).1
    ((fine_statement h).2 p hp)

/-- A named statement, bound by name: the statement built on the values themselves. -/
theorem statement_bound {demands : List PortDemand} {organization : Option Int}
    {owner : PortOwner} {s : Select Value Table Column String} {assignments : Assignments}
    (h : port_demand_sql spell jsonb named settings now demands organization owner =
      .ok (s, assignments)) :
    ∃ bound, s.bind (fun key => (params_of assignments).lookup key) = some bound ∧
      port_demand_sql spell jsonb (fun _ value => value) settings now demands organization owner =
        .ok (bound, assignments) := by
  obtain ⟨paired, rfl, hPaired⟩ := paired_of_named h
  refine ⟨paired.map Prod.snd, Sql.Select.bind_given (given_params hPaired), ?_⟩
  have hMap := port_demand_sql_map spell jsonb both_ settings now Prod.snd demands organization owner
  rw [hPaired] at hMap
  exact hMap

/-- What `to_positional` makes of a named statement: the text and the values of the statement with
a name and a value in each place. -/
theorem to_positional_paired {demands : List PortDemand} {organization : Option Int}
    {owner : PortOwner} {paired : Select Value Table Column (String × Value)}
    {assignments : Assignments} (letter : Char → Bool)
    (h : port_demand_sql spell jsonb both_ settings now demands organization owner =
      .ok (paired, assignments)) :
    to_positional letter (statement_text (paired.map Prod.fst)) (params_of assignments) =
      some (Sql.positional_text (paired.pieces Table.name Column.text),
        paired.places.map Prod.snd) := by
  have hGiven := given_params h
  obtain ⟨hText, hPlaces⟩ := fine_statement h
  obtain ⟨-, hNamed⟩ := names_statement letter h
  have hClose : is_word letter ')' = false := by
    simp [is_word]
  have hAll : Sql.places (paired.pieces Table.name Column.text) = paired.places :=
    Sql.places_select ..
  rw [statement_text, to_positional, Sql.Select.pieces_map, ← hAll]
  refine Sql.positional_given hClose (fun key => key) hText ?_ ?_
  · intro p hp
    rw [hAll] at hp
    exact hNamed _ (List.mem_map_of_mem (hPlaces p hp))
  · intro p hp
    rw [hAll] at hp
    rw [String.ofList_toList]
    exact hGiven p hp

/-- `_positional_port_demand_sql` gives the text of a statement, and the values of its places in
their order. -/
theorem positional_statement {demands : List PortDemand} {organization_id : Int}
    {owner : DemandOwner} (letter : Char → Bool) {positional : List Char × List Value}
    (h : positional_port_demand_sql letter spell jsonb settings now demands organization_id owner =
      .ok positional) :
    ∃ paired assignments,
      port_demand_sql spell jsonb both_ settings now demands (some organization_id) owner.ports =
        .ok (paired, assignments) ∧
      positional = (Sql.positional_text (paired.pieces Table.name Column.text),
        paired.places.map Prod.snd) := by
  obtain ⟨statement, hStatement, hRest⟩ := Ports.bind_ok h
  obtain ⟨paired, hEq, hPaired⟩ := paired_of_named hStatement
  refine ⟨paired, statement.2, hPaired, ?_⟩
  dsimp only at hRest
  rw [hEq, to_positional_paired letter hPaired] at hRest
  exact (Except.ok.inj hRest).symm

/-- The text for values in order is that of the named statement: every name was assigned. -/
theorem positional_of_named {demands : List PortDemand} {organization_id : Int}
    {owner : DemandOwner} (letter : Char → Bool) :
    (positional_port_demand_sql letter spell jsonb settings now demands organization_id owner).map
        Prod.fst =
      ((port_demand_sql spell jsonb named settings now demands (some organization_id)
        owner.ports).map Prod.fst).map fun s =>
          Sql.positional_text (s.pieces Table.name Column.text) := by
  rw [positional_port_demand_sql]
  cases hNamed : port_demand_sql spell jsonb named settings now demands (some organization_id)
      owner.ports with
  | error e => rfl
  | ok statement =>
      obtain ⟨paired, hEq, hPaired⟩ := paired_of_named hNamed
      show Except.map Prod.fst ((to_positional letter (statement_text statement.1)
        (params_of statement.2)).elim (.error unassigned) .ok) =
          Except.ok (Sql.positional_text (statement.1.pieces Table.name Column.text))
      rw [hEq, to_positional_paired letter hPaired, Sql.Select.pieces_map, Sql.positional_map]
      rfl

end Names

end Rekuest.Demands
