import Rekuest.Demands.Meaning
import Rekuest.Demands.Places

/-!
# The owners a demand selects

What a demand asks of the ports an action, or a blok, declares, and that the statement with
its parameters in their places selects exactly the owners whose ports are so, when the port
rows show them.
-/

namespace Rekuest.Demands

open Rekuest.Ports (Port)
open Sql (Select)

variable {Own Args Returns : Type}

/-! ## Ports that fit -/

section Fits

variable (spell : Dyadic → Formulas.Spelling) (jsonb : Jsonb) (settings : Settings)
  (store : Store) [RelationalPort Own]

/-- A port has every field that is set; `n` is its place among its siblings. -/
structure MatchFields.FitsPort (fields : MatchFields) (n : Nat) (port : Port Own) : Prop where
  at_ : ∀ i, fields.at_ = some i → (n : Int) = i
  key : ∀ key, fields.key = some key → port.key = key
  kind : ∀ kind, fields.kind = some kind → port.kind = kind
  identifier : ∀ identifier, fields.identifier = some identifier →
    port.identifier = some identifier
  dimension : ∀ dimension, fields.dimension = some dimension →
    port.fields.dimension = some dimension
  nullable : ∀ nullable, fields.nullable = some nullable → port.nullable = nullable

/-- What a port requires, or provides, accepts the object of a match's descriptors, and the
action's implementations that are live then do not all refuse it there. -/
def MatchFields.TakenBy (fields : MatchFields) (owner_id : Nat) (then_ : Option Int)
    (port : Port Own) : Prop :=
  fields.descriptors ≠ [] →
    (∃ compiled, compiled_of spell port = .ok compiled ∧
      Accepted jsonb (candidate_object spell fields.descriptors) compiled) ∧
      ∀ t, then_ = some t → ¬ Refused jsonb settings store t owner_id port.key
        (candidate_object spell fields.descriptors)

-- The owner of the ports.
variable (owner_id : Nat)

mutual

/-- A port fits a match: its fields, its object, and each child of the match by a child of the
port. -/
def PortFits (then_ : Option Int) (n : Nat) (port : Port Own) : PortMatchInputModel → Prop
  | .mk fields children =>
      fields.FitsPort n port ∧ fields.TakenBy spell jsonb settings store owner_id then_ port ∧
        EachByChild port children

def EachByChild (port : Port Own) : List PortMatchInputModel → Prop
  | [] => True
  | m :: rest =>
      (∃ child ∈ port.children.zipIdx, PortFits none child.2 child.1 m) ∧ EachByChild port rest

end

/-- The ports on one side meet a demand. -/
structure PortsMeet (then_ : Nat → Option Int) (ports : List (Port Own)) (demand : PortDemand) :
    Prop where
  matches_ : ∀ m ∈ demand.matches_.zipIdx, ∃ port ∈ ports.zipIdx,
    PortFits spell jsonb settings store owner_id (then_ m.2) port.2 port.1 m.1
  length : ∀ n, demand.force_length = some n → (ports.length : Int) = n
  non_nullable : ∀ n, demand.force_non_nullable_length = some n →
    (ports.countP (fun port => !port.nullable) : Int) = n
  structures : ∀ n, demand.force_structure_length = some n →
    (ports.countP (fun port => port.kind = .STRUCTURE) : Int) = n

end Fits

/-! ## Rows and the ports they show -/

theorem exists_iff_of_forall₂ {α β : Type} {R : α → β → Prop} {P : α → Prop} {Q : β → Prop}
    {xs : List α} {ys : List β} (h : List.Forall₂ R xs ys)
    (hPQ : ∀ x ∈ xs, ∀ y, R x y → (P x ↔ Q y)) : (∃ x ∈ xs, P x) ↔ ∃ y ∈ ys, Q y := by
  induction h with
  | nil => simp
  | cons hHead hTail ih =>
      rw [List.exists_mem_cons_iff, List.exists_mem_cons_iff]
      apply or_congr
      · exact hPQ _ List.mem_cons_self _ hHead
      · exact ih fun x hx => hPQ x (List.mem_cons_of_mem _ hx)

theorem countP_eq_of_forall₂ {α β : Type} {R : α → β → Prop} {p : α → Bool} {q : β → Bool}
    {xs : List α} {ys : List β} (h : List.Forall₂ R xs ys) (hpq : ∀ x y, R x y → p x = q y) :
    xs.countP p = ys.countP q := by
  induction h with
  | nil => rfl
  | cons hHead hTail ih => rw [List.countP_cons, List.countP_cons, ih, hpq _ _ hHead]

theorem kind_value_inj {a b : Ports.PortKind} : a.value = b.value ↔ a = b := by
  constructor
  · intro h
    cases a <;> cases b <;> first | rfl | exact absurd h (by decide)
  · exact congrArg Ports.PortKind.value

section Rows

variable {spell : Dyadic → Formulas.Spelling} {jsonb : Jsonb} {settings : Settings}
  {store : Store} [RelationalPort Own] {rows : List PortRow} {row : PortRow} {path : String}
  {port : Port Own} {then_ : Option Int} {fields : MatchFields}

/-- A row that shows a port, at its place. -/
abbrev ShowsAt (spell : Dyadic → Formulas.Spelling) (rows : List PortRow) (above : String)
    (row : PortRow) (port : Port Own × Nat) : Prop :=
  row.index = port.2 ∧ Shows spell rows row (above ++ port.1.key) port.1

theorem shows_all_forall₂ {ports : List (Port Own)} {above : String} :
    ∀ {found : List PortRow} {n : Nat}, ShowsAll spell rows found n above ports →
      List.Forall₂ (ShowsAt spell rows above) found (ports.zipIdx n) := by
  induction ports with
  | nil =>
      intro found n h
      cases found with
      | nil => exact .nil
      | cons row found => exact h.elim
  | cons port ports ih =>
      intro found n h
      cases found with
      | nil => exact h.elim
      | cons row found =>
          rw [List.zipIdx_cons]
          exact .cons h.1 (ih h.2)

theorem fits_port (h : Describes spell row path port) :
    fields.Fits row ↔ fields.FitsPort row.index port := by
  constructor
  · intro hFits
    exact {
      at_ := hFits.at_
      key := fun key hKey => h.key.symm.trans (hFits.key key hKey)
      kind := fun kind hKind => kind_value_inj.1 (h.kind.symm.trans (hFits.kind kind hKind))
      identifier := fun i hI => h.identifier.symm.trans (hFits.identifier i hI)
      dimension := fun d hD => h.dimension.symm.trans (hFits.dimension d hD)
      nullable := fun b hB => h.nullable.symm.trans (hFits.nullable b hB) }
  · intro hFits
    exact {
      at_ := hFits.at_
      key := fun key hKey => h.key.trans (hFits.key key hKey)
      kind := fun kind hKind => h.kind.trans (kind_value_inj.2 (hFits.kind kind hKind))
      identifier := fun i hI => h.identifier.trans (hFits.identifier i hI)
      dimension := fun d hD => h.dimension.trans (hFits.dimension d hD)
      nullable := fun b hB => h.nullable.trans (hFits.nullable b hB) }

theorem takes_port (h : Describes spell row path port) :
    fields.Takes spell jsonb settings store then_ row ↔
      fields.TakenBy spell jsonb settings store row.owner then_ port := by
  have hAccepted : Accepted jsonb (candidate_object spell fields.descriptors)
      row.compiled_jsonpath ↔ ∃ compiled, compiled_of spell port = .ok compiled ∧
        Accepted jsonb (candidate_object spell fields.descriptors) compiled := by
    constructor
    · intro hRow
      exact ⟨_, h.compiled, hRow⟩
    · rintro ⟨compiled, hCompiled, hPort⟩
      cases h.compiled.symm.trans hCompiled
      exact hPort
  rw [MatchFields.Takes, MatchFields.TakenBy, hAccepted, h.key]

/-- The rows under a row are those of its owner: no other owner has a row under it. -/
theorem mem_under {next : Nat} (hSound : Sound ⟨rows, next⟩) (hRow : row ∈ rows)
    {below : PortRow} : below ∈ under rows row.owner (some row.id) ↔
      below ∈ rows ∧ below.parent_id = some row.id := by
  constructor
  · intro h
    obtain ⟨hMem, hIs⟩ := List.mem_filter.1 h
    exact ⟨hMem, (of_decide_eq_true hIs).2⟩
  · rintro ⟨hMem, hParent⟩
    obtain ⟨parent, hParentMem, hId, hOwner⟩ := hSound.parents below hMem row.id hParent
    have hSame : parent = row := hSound.unique parent hParentMem row hRow hId
    subst hSame
    exact List.mem_filter.2 ⟨hMem, decide_eq_true ⟨hOwner.symm, hParent⟩⟩

theorem row_fits_iff {m : PortMatchInputModel} :
    RowFits spell jsonb settings store rows row m ↔
      RootFits spell jsonb settings store rows none row m := by
  cases m
  rfl

mutual

/-- A row fits a match when the port it shows does. -/
theorem root_fits_port {next : Nat} (hSound : Sound ⟨rows, next⟩) :
    ∀ (m : PortMatchInputModel) {row : PortRow} {path : String} {port : Port Own}
      {then_ : Option Int}, row ∈ rows → Shows spell rows row path port →
      (RootFits spell jsonb settings store rows then_ row m ↔
        PortFits spell jsonb settings store row.owner then_ row.index port m)
  | .mk fields children, row, path, port, then_, hRow, hShows => by
      obtain ⟨hDescribes, hBelow⟩ := shows_iff.1 hShows
      rw [RootFits, PortFits, fits_port hDescribes, takes_port hDescribes,
        children_fit_port hSound children hRow hBelow]

/-- The children of a match are met by the rows under a row when they are by its port's
children. -/
theorem children_fit_port {next : Nat} (hSound : Sound ⟨rows, next⟩) :
    ∀ (children : List PortMatchInputModel) {row : PortRow} {above : String} {port : Port Own},
      row ∈ rows →
      ShowsAll spell rows (under rows row.owner (some row.id)) 0 above port.children →
      (ChildrenFit spell jsonb settings store rows row children ↔
        EachByChild spell jsonb settings store row.owner port children)
  | [], row, above, port, hRow, hBelow => by
      rw [ChildrenFit, EachByChild]
  | m :: rest, row, above, port, hRow, hBelow => by
      rw [ChildrenFit, EachByChild, children_fit_port hSound rest hRow hBelow]
      apply and_congr_left
      intro _
      rw [← exists_iff_of_forall₂ (shows_all_forall₂ hBelow)
        (P := fun below => RowFits spell jsonb settings store rows below m) ?_]
      · apply exists_congr
        intro below
        rw [mem_under hSound hRow, and_assoc]
      · intro below hUnder child hChild
        have hOwner := owner_of_under hUnder
        rw [row_fits_iff, root_fits_port hSound m ((mem_under hSound hRow).1 hUnder).1 hChild.2,
          hOwner, hChild.1]

end

/-- The rows of an owner meet a demand when the ports they show do. -/
theorem rows_meet_ports {next owner_id : Nat} (hSound : Sound ⟨rows, next⟩)
    {ports : List (Port Own)} (hShows : ShowsPorts spell rows owner_id ports)
    {then_ : Nat → Option Int} {demand : PortDemand} :
    RowsMeet spell jsonb settings store then_ rows owner_id ports.length demand ↔
      PortsMeet spell jsonb settings store owner_id then_ ports demand := by
  have hRoots := shows_all_forall₂ hShows
  have hMatch : ∀ (then_ : Option Int) (m : PortMatchInputModel),
      (∃ row ∈ roots rows owner_id, RootFits spell jsonb settings store rows then_ row m) ↔
        ∃ port ∈ ports.zipIdx,
          PortFits spell jsonb settings store owner_id then_ port.2 port.1 m := by
    intro then_ m
    refine exists_iff_of_forall₂ hRoots ?_
    intro row hRow port hPort
    have hOwner := owner_of_under hRow
    rw [root_fits_port hSound m (List.mem_filter.1 hRow).1 hPort.2, hOwner, hPort.1]
  have hCount : ∀ (p : PortRow → Bool) (q : Port Own → Bool),
      (∀ row path port, Describes spell row path port → p row = q port) →
        (roots rows owner_id).countP p = ports.countP q := by
    intro p q hpq
    have hPairs : (roots rows owner_id).countP p = ports.zipIdx.countP (q ∘ Prod.fst) :=
      countP_eq_of_forall₂ hRoots fun row port hPort => hpq _ _ _ (shows_iff.1 hPort.2).1
    rw [hPairs, ← List.countP_map, List.zipIdx_map_fst]
  have hNullable := hCount (fun row => !row.nullable) (fun port => !port.nullable)
    fun row path port h => congrArg not h.nullable
  have hStructures := hCount (fun row => row.kind = "STRUCTURE")
    (fun port => port.kind = .STRUCTURE) fun row path port h => by
      have hKind : row.kind = "STRUCTURE" ↔ port.kind = .STRUCTURE := by
        rw [h.kind]
        exact kind_value_inj (b := .STRUCTURE)
      exact decide_eq_decide.2 hKind
  constructor
  · intro h
    exact {
      matches_ := fun m hm => (hMatch _ _).1 (h.matches_ m hm)
      length := h.length
      non_nullable := fun n hn => hNullable ▸ h.non_nullable n hn
      structures := fun n hn => hStructures ▸ h.structures n hn }
  · intro h
    exact {
      matches_ := fun m hm => (hMatch _ _).2 (h.matches_ m hm)
      length := h.length
      non_nullable := fun n hn => hNullable ▸ h.non_nullable n hn
      structures := fun n hn => hStructures ▸ h.structures n hn }

/-- A blok keeps no count: its root rows are counted. -/
theorem says_blok_count {owner_id : Nat} {ports : List (Port Own)}
    {columns : Column → Option Value} (hShows : ShowsPorts spell store.blok_args owner_id ports)
    (hId : columns .id = number owner_id) :
    SaysLength store (Sql.Env.set nothing "a" columns) BLOK_PORTS .args .facade_blokargport
      ports.length := by
  intro key n
  have hOwner : Sql.Env.set nothing "a" columns "a" .id = number owner_id := by
    rw [Sql.Env.set_self]
    exact hId
  have hLength : (roots store.blok_args owner_id).countP (fun _ => true) = ports.length := by
    rw [List.countP_true, roots, (shows_all_forall₂ hShows).length_eq, List.length_zipIdx]
  rw [← hLength]
  refine says_count PortsOf.blok_args hOwner (fun _ => true) ?_
  intro row
  exact iff_of_true rfl rfl

end Rows

/-! ## Owners -/

/-- The ports declared by the rows that own ports, by their ids. -/
structure Declared (Args Returns : Type) where
  args : Nat → List (Port Args)
  returns : Nat → List (Port Returns)
  blok_args : Nat → List (Port Args)

section Owners

variable [RelationalPort Args] [RelationalPort Returns] (spell : Dyadic → Formulas.Spelling)
  (jsonb : Jsonb) (settings : Settings) (now : String → Int) (store : Store)
  (declared : Declared Args Returns)

/-- Port rows of a table show the ports of owners. -/
structure TableShows {Own : Type} [RelationalPort Own] (rows : List PortRow) (owners : List Nat)
    (ports : Nat → List (Port Own)) : Prop where
  sound : ∃ next, Sound ⟨rows, next⟩
  shows : ∀ id ∈ owners, ShowsPorts spell rows id (ports id)

/-- The rows of the store show what is declared, and an action counts its root ports. -/
structure Shown : Prop where
  args : TableShows spell store.args (store.actions.map ActionRow.id) declared.args
  returns : TableShows spell store.returns (store.actions.map ActionRow.id) declared.returns
  blok_args : TableShows spell store.blok_args (store.bloks.map BlokRow.id) declared.blok_args
  arg_count : ∀ action ∈ store.actions, action.arg_count = (declared.args action.id).length
  return_count : ∀ action ∈ store.actions,
    action.return_count = (declared.returns action.id).length

/-- A row that owns ports, of the organization where one is given. -/
def OwnerIs (organization : Option Int) (id : Nat) : DemandOwner → Prop
  | .action => ∃ action ∈ store.actions, action.id = id ∧
      ∀ o, organization = some o → (action.organization_id : Int) = o
  | .blok => ∃ blok ∈ store.bloks, blok.id = id ∧
      ∀ o, organization = some o → (blok.organization_id : Int) = o

/-- The ports of an owner meet a demand.  The objects for an action's arguments are held
against its implementations that were live when their cutoff was read. -/
def DemandMet (owner : DemandOwner) (id : Nat) (demand : PortDemand × Nat) : Prop :=
  match owner, demand.1.kind with
  | .action, .args => PortsMeet spell jsonb settings store id
      (fun i => some (now ("cutoff_" ++ match_path demand.2 i))) (declared.args id) demand.1
  | .action, .returns =>
      PortsMeet spell jsonb settings store id (fun _ => none) (declared.returns id) demand.1
  | .blok, .args =>
      PortsMeet spell jsonb settings store id (fun _ => none) (declared.blok_args id) demand.1
  | .blok, .returns => False

/-- The owner meets every demand, and is of the organization. -/
def Selected (owner : DemandOwner) (organization : Option Int) (demands : List PortDemand)
    (id : Nat) : Prop :=
  OwnerIs store organization id owner ∧
    ∀ demand ∈ demands.zipIdx, DemandMet spell jsonb settings now store declared owner id demand

variable {spell jsonb settings now store declared}

theorem owns_ports (owner : DemandOwner) : Owns owner.ports := by
  cases owner with
  | action => exact owns_action
  | blok => exact owns_blok

/-- The rows that own ports, by their columns. -/
theorem owner_is_iff {owner : DemandOwner} {organization : Option Int} {id : Nat} :
    OwnerIs store organization id owner ↔ ∃ columns ∈ store.tables owner.ports.table,
      columns .id = number id ∧
        ∀ o, organization = some o → columns .organization_id = some (.int o) := by
  have hNumber : ∀ (n : Nat) (o : Int), number n = some (.int o) ↔ (n : Int) = o := by
    intro n o
    rw [number, Option.some.injEq, Value.int.injEq]
  have hId : ∀ a b : Nat, number a = number b ↔ a = b := by
    intro a b
    rw [number, number, Option.some.injEq, Value.int.injEq, Int.natCast_inj]
  cases owner with
  | action =>
      show _ ↔ ∃ columns ∈ store.actions.map ActionRow.columns, _
      simp only [OwnerIs, List.mem_map, exists_exists_and_eq_and, ActionRow.columns, hId, hNumber]
  | blok =>
      show _ ↔ ∃ columns ∈ store.bloks.map BlokRow.columns, _
      simp only [OwnerIs, List.mem_map, exists_exists_and_eq_and, BlokRow.columns, hId, hNumber]

/-- The number of root ports of an owner on one side. -/
def Declared.count (declared : Declared Args Returns) (owner : DemandOwner) (id : Nat)
    (kind : DemandKind) : Nat :=
  match owner, kind with
  | .action, .args => (declared.args id).length
  | .action, .returns => (declared.returns id).length
  | .blok, _ => (declared.blok_args id).length

/-- What a demand's length is compared with. -/
theorem says_length (hShown : Shown spell store declared) {owner : DemandOwner} {id : Nat}
    {columns : Column → Option Value} (hColumns : columns ∈ store.tables owner.ports.table)
    (hId : columns .id = number id) (kind : DemandKind) (table : Table)
    (hTable : owner.ports.port_tables kind = some table) :
    SaysLength store (Sql.Env.set nothing "a" columns) owner.ports kind table
      (declared.count owner id kind) := by
  cases owner with
  | action =>
      obtain ⟨action, hAction, rfl⟩ := List.mem_map.1 hColumns
      have hSame : action.id = id := Int.natCast_inj.1 (Value.int.inj (Option.some.inj hId))
      subst hSame
      intro key n
      cases kind with
      | args =>
          refine says_equals_value.trans ?_
          rw [Sql.Env.set_self]
          show number action.arg_count = some (.int n) ↔ _
          rw [hShown.arg_count action hAction, number, Option.some.injEq, Value.int.injEq]
          rfl
      | returns =>
          refine says_equals_value.trans ?_
          rw [Sql.Env.set_self]
          show number action.return_count = some (.int n) ↔ _
          rw [hShown.return_count action hAction, number, Option.some.injEq, Value.int.injEq]
          rfl
  | blok =>
      obtain ⟨blok, hBlok, rfl⟩ := List.mem_map.1 hColumns
      have hSame : blok.id = id := Int.natCast_inj.1 (Value.int.inj (Option.some.inj hId))
      subst hSame
      cases kind with
      | returns => cases hTable
      | args =>
          cases hTable
          exact says_blok_count (hShown.blok_args.shows _ (List.mem_map_of_mem hBlok)) hId

/-- The rows of an owner meet a demand when its ports do. -/
theorem owner_meets_iff (hShown : Shown spell store declared) {owner : DemandOwner} {id : Nat}
    (hOwner : ∃ columns ∈ store.tables owner.ports.table, columns .id = number id)
    {demand : PortDemand × Nat} :
    OwnerMeets spell jsonb settings now store owner.ports id (declared.count owner id) demand ↔
      DemandMet spell jsonb settings now store declared owner id demand := by
  obtain ⟨columns, hColumns, hId⟩ := hOwner
  have hTable : ∀ {table : Table} {P : Table → Prop},
      (∃ t, some table = some t ∧ P t) ↔ P table := by
    intro table P
    constructor
    · rintro ⟨t, hT, hP⟩
      cases hT
      exact hP
    · intro hP
      exact ⟨table, rfl, hP⟩
  cases owner with
  | action =>
      obtain ⟨action, hAction, rfl⟩ := List.mem_map.1 hColumns
      have hSame : action.id = id := Int.natCast_inj.1 (Value.int.inj (Option.some.inj hId))
      subst hSame
      have hMem : action.id ∈ store.actions.map ActionRow.id := List.mem_map_of_mem hAction
      obtain ⟨nextArgs, hArgs⟩ := hShown.args.sound
      obtain ⟨nextReturns, hReturns⟩ := hShown.returns.sound
      unfold OwnerMeets DemandMet
      cases hKind : demand.1.kind with
      | args => exact hTable.trans (rows_meet_ports hArgs (hShown.args.shows _ hMem))
      | returns => exact hTable.trans (rows_meet_ports hReturns (hShown.returns.shows _ hMem))
  | blok =>
      obtain ⟨blok, hBlok, rfl⟩ := List.mem_map.1 hColumns
      have hSame : blok.id = id := Int.natCast_inj.1 (Value.int.inj (Option.some.inj hId))
      subst hSame
      have hMem : blok.id ∈ store.bloks.map BlokRow.id := List.mem_map_of_mem hBlok
      obtain ⟨nextBloks, hBloks⟩ := hShown.blok_args.sound
      unfold OwnerMeets DemandMet
      cases hKind : demand.1.kind with
      | args => exact hTable.trans (rows_meet_ports hBloks (hShown.blok_args.shows _ hMem))
      | returns =>
          constructor
          · rintro ⟨table, hNone, -⟩
            cases hNone
          · intro hFalse
            exact hFalse.elim

/-- The statement on the values themselves selects the owners that meet the demands. -/
theorem mem_selected (hShown : Shown spell store declared) {owner : DemandOwner}
    {demands : List PortDemand} {organization : Option Int}
    {bound : Select Value Table Column Value} {assignments : Assignments}
    (h : port_demand_sql spell jsonb itself settings now demands organization owner.ports =
      .ok (bound, assignments)) {v : Option Value} :
    v ∈ Select.ids store bound ↔ ∃ id, v = number id ∧
      Selected spell jsonb settings now store declared owner organization demands id := by
  have hDemands : ∀ columns ∈ store.tables owner.ports.table, ∀ id, columns .id = number id →
      ∀ {clauses : List (Clause Value) × Assignments},
        demands_clauses spell jsonb itself settings now owner.ports 0 demands = .ok clauses →
        ((∀ c ∈ clauses.1, Says store.tables (Sql.Env.set nothing "a" columns) c) ↔
          ∀ demand ∈ demands.zipIdx,
            DemandMet spell jsonb settings now store declared owner id demand) := by
    intro columns hColumns id hId clauses hClauses
    have hOwner : Sql.Env.set nothing "a" columns "a" .id = number id := by
      rw [Sql.Env.set_self]
      exact hId
    rw [says_demands (owns_ports owner) hOwner (says_length hShown hColumns hId) hClauses]
    apply forall₂_congr
    intro demand hDemand
    exact owner_meets_iff hShown ⟨columns, hColumns, hId⟩
  rw [mem_port_demand h]
  constructor
  · rintro ⟨columns, hColumns, rfl, hOrganization, clauses, hClauses, hSays⟩
    have hOwned : ∃ id, columns .id = number id := by
      cases owner with
      | action =>
          obtain ⟨action, -, rfl⟩ := List.mem_map.1 hColumns
          exact ⟨action.id, rfl⟩
      | blok =>
          obtain ⟨blok, -, rfl⟩ := List.mem_map.1 hColumns
          exact ⟨blok.id, rfl⟩
    obtain ⟨id, hId⟩ := hOwned
    exact ⟨id, hId, owner_is_iff.2 ⟨columns, hColumns, hId, hOrganization⟩,
      (hDemands columns hColumns id hId hClauses).1 hSays⟩
  · rintro ⟨id, rfl, hOwner, hMet⟩
    obtain ⟨columns, hColumns, hId, hOrganization⟩ := owner_is_iff.1 hOwner
    obtain ⟨clauses, hClauses, -⟩ := Ports.bind_ok h
    exact ⟨columns, hColumns, hId, hOrganization, clauses, hClauses,
      (hDemands columns hColumns id hId hClauses).2 hMet⟩

/-! ## What is selected -/

/-- A statement run with its parameters by name selects exactly the owners whose ports meet every
demand. -/
theorem demands_select (hShown : Shown spell store declared) {owner : DemandOwner}
    {demands : List PortDemand} {organization : Option Int}
    {s : Select Value Table Column String} {assignments : Assignments}
    (h : port_demand_sql spell jsonb named settings now demands organization owner.ports =
      .ok (s, assignments)) :
    ∃ bound, s.bind (fun key => (params_of assignments).lookup key) = some bound ∧
      ∀ v, v ∈ Select.ids store bound ↔ ∃ id, v = number id ∧
        Selected spell jsonb settings now store declared owner organization demands id := by
  obtain ⟨bound, hBind, hBound⟩ := statement_bound h
  refine ⟨bound, hBind, ?_⟩
  intro v
  exact mem_selected hShown hBound

/-- The statements of sets of demands, with the values that go to their places. -/
theorem statements_paired {letter : Char → Bool} {now : Nat → String → Int}
    {organization_id : Int} {owner : DemandOwner} :
    ∀ {sets : List (List PortDemand)} {index : Nat} {statements : List (List Char × List Value)},
      positional_statements letter spell jsonb settings now organization_id owner index sets =
        .ok statements →
      ∃ pairs : List (Select Value Table Column (String × Value)),
        statements = pairs.map (fun paired => (Sql.positional_text
          (paired.pieces Table.name Column.text), paired.places.map Prod.snd)) ∧
        List.Forall₂ (fun demands paired => ∃ assignments, port_demand_sql spell jsonb both_
          settings (now demands.2) demands.1 (some organization_id) owner.ports =
            .ok (paired, assignments)) (sets.zipIdx index) pairs := by
  intro sets
  induction sets with
  | nil =>
      intro index statements h
      cases h
      exact ⟨[], rfl, .nil⟩
  | cons demands rest ih =>
      intro index statements h
      obtain ⟨statement, hStatement, hRest⟩ := Ports.bind_ok h
      obtain ⟨others, hOthers, hEq⟩ := Ports.bind_ok hRest
      cases hEq
      obtain ⟨paired, assignments, hPaired, rfl⟩ := positional_statement letter hStatement
      obtain ⟨pairs, rfl, hPairs⟩ := ih hOthers
      refine ⟨paired :: pairs, rfl, ?_⟩
      rw [List.zipIdx_cons]
      exact .cons ⟨assignments, hPaired⟩ hPairs

/-- The union for several sets of demands, with one list of values for all its places, selects
exactly the owners that meet every demand of at least one set. -/
theorem any_demands_select {letter : Char → Bool} {now : Nat → String → Int}
    (hShown : Shown spell store declared) {owner : DemandOwner} {sets : List (List PortDemand)}
    {organization_id : Int} {text : List Char} {values : List Value}
    (h : get_any_port_demand_subquery letter spell jsonb settings now sets organization_id owner =
      .ok (text, values)) :
    ∃ statements : List (Select Value Table Column String),
      text = union_text (statements.map fun s =>
        Sql.positional_text (s.pieces Table.name Column.text)) ∧
      ∃ bounds, Sql.fill_all statements values = some bounds ∧
        ∀ v, (∃ bound ∈ bounds, v ∈ Select.ids store bound) ↔ ∃ id, v = number id ∧
          ∃ demands ∈ sets.zipIdx, Selected spell jsonb settings (now demands.2) store declared
            owner (some organization_id) demands.1 id := by
  rw [get_any_port_demand_subquery] at h
  by_cases hEmpty : sets.any List.isEmpty = true
  · rw [if_pos hEmpty] at h
    cases h
  · rw [if_neg hEmpty] at h
    obtain ⟨texts, hTexts, hEq⟩ := Ports.bind_ok h
    obtain ⟨pairs, rfl, hPairs⟩ := statements_paired hTexts
    cases hEq
    refine ⟨pairs.map (Select.map Prod.fst), ?_, pairs.map (Select.map Prod.snd), ?_, ?_⟩
    · rw [List.map_map, List.map_map]
      congr 1
      apply List.map_congr_left
      intro paired _
      show Sql.positional_text _ = Sql.positional_text ((paired.map Prod.fst).pieces _ _)
      rw [Sql.Select.pieces_map, Sql.positional_map]
    · rw [List.flatMap_map]
      exact Sql.fill_all_map pairs
    · intro v
      have hBound : (∃ bound ∈ pairs.map (Select.map Prod.snd), v ∈ Select.ids store bound) ↔
          ∃ paired ∈ pairs, v ∈ Select.ids store (paired.map Prod.snd) := by
        simp only [List.mem_map, exists_exists_and_eq_and]
      have hSets := exists_iff_of_forall₂ hPairs
        (P := fun demands => ∃ id, v = number id ∧ Selected spell jsonb settings (now demands.2)
          store declared owner (some organization_id) demands.1 id)
        (Q := fun paired => v ∈ Select.ids store (paired.map Prod.snd)) (by
          intro demands _ paired hPaired
          obtain ⟨assignments, hPaired⟩ := hPaired
          have hMap := port_demand_sql_map spell jsonb both_ settings (now demands.2) Prod.snd
            demands.1 (some organization_id) owner.ports
          rw [hPaired] at hMap
          exact (mem_selected hShown hMap).symm)
      rw [hBound, ← hSets]
      constructor
      · rintro ⟨demands, hDemands, id, hId, hSelected⟩
        exact ⟨id, hId, demands, hDemands, hSelected⟩
      · rintro ⟨id, hId, demands, hDemands, hSelected⟩
        exact ⟨demands, hDemands, id, hId, hSelected⟩

end Owners

/-! ## What is refused -/

/-- A root match of descriptors alone. -/
def PortMatchInputModel.DescriptorOnly : PortMatchInputModel → Prop
  | .mk fields _ => fields.descriptors ≠ [] ∧ fields.at_ = none ∧ fields.key = none ∧
      fields.kind = none ∧ fields.identifier = none ∧ fields.dimension = none

/-- A demand on ports that the owner does not have, or with such a match. -/
def PortDemand.Refused (owner : PortOwner) (demand : PortDemand) : Prop :=
  owner.port_tables demand.kind = none ∨ ∃ m ∈ demand.matches_, m.DescriptorOnly

section Refusals

variable {κ : Type} {spell : Dyadic → Formulas.Spelling} {jsonb : Jsonb}
  {place : String → Value → κ} {settings : Settings} {now : String → Int} {table : Table}
  {owner_column : Column} {action_alias : String}

mutual

/-- A match below the root is never refused. -/
theorem nested_built : ∀ (m : PortMatchInputModel) (parent_alias id_path : String),
    ∃ clause, build_match_exists spell jsonb place settings now table owner_column action_alias
      (some parent_alias) id_path m = .ok clause
  | .mk fields children, parent_alias, id_path => by
      obtain ⟨nested, hNested⟩ := children_built children ("p_" ++ id_path) id_path 0
      rw [build_match_exists, hNested]
      simp only [Option.isNone_some, Bool.and_false, Bool.false_and, Bool.false_eq_true, if_false]
      exact ⟨_, rfl⟩

theorem children_built : ∀ (children : List PortMatchInputModel) (parent_alias id_path : String)
    (index : Nat), ∃ clauses, build_children spell jsonb place settings now table owner_column
      action_alias parent_alias id_path index children = .ok clauses
  | [], _, _, _ => ⟨_, rfl⟩
  | m :: rest, parent_alias, id_path, index => by
      obtain ⟨clause, hClause⟩ :=
        nested_built m parent_alias (id_path ++ "_" ++ toString index)
      obtain ⟨clauses, hClauses⟩ := children_built rest parent_alias id_path (index + 1)
      rw [build_children, hClause, hClauses]
      exact ⟨_, rfl⟩

end

theorem root_built_iff {m : PortMatchInputModel} {id_path : String} :
    (∃ clause, build_match_exists spell jsonb place settings now table owner_column action_alias
      none id_path m = .ok clause) ↔ ¬ m.DescriptorOnly := by
  cases m with
  | mk fields children =>
      have hOnly : (!fields.descriptors.isEmpty && Option.isNone (none : Option String) &&
          !fields.has_structural_narrowing) = true ↔
            (PortMatchInputModel.mk fields children).DescriptorOnly := by
        simp [MatchFields.has_structural_narrowing, PortMatchInputModel.DescriptorOnly,
          and_assoc]
      constructor
      · rintro ⟨clause, hClause⟩ hRefused
        rw [build_match_exists] at hClause
        simp only [hOnly.2 hRefused, if_true] at hClause
        cases hClause
      · intro hNot
        obtain ⟨nested, hNested⟩ : ∃ nested, build_children spell jsonb place settings now table
            owner_column action_alias ("p_" ++ id_path) id_path 0 children = .ok nested :=
          children_built children _ _ _
        have hGood : ¬ (!fields.descriptors.isEmpty && Option.isNone (none : Option String) &&
            !fields.has_structural_narrowing) = true := fun hBad => hNot (hOnly.1 hBad)
        rw [build_match_exists, hNested]
        simp only [hGood]
        exact ⟨_, rfl⟩

/-- A sequence of two steps gives a result when each does, whatever the first gives. -/
theorem bind_ok_iff {α β : Type} {x : Except ValueError α} {f : α → Except ValueError β}
    {p : Prop} (h : ∀ a, (∃ b, f a = .ok b) ↔ p) :
    (∃ b, (x >>= f) = .ok b) ↔ (∃ a, x = .ok a) ∧ p := by
  constructor
  · rintro ⟨b, hB⟩
    obtain ⟨a, hA, hF⟩ := Ports.bind_ok hB
    exact ⟨⟨a, hA⟩, (h a).1 ⟨b, hF⟩⟩
  · rintro ⟨⟨a, hA⟩, hP⟩
    obtain ⟨b, hB⟩ := (h a).2 hP
    rw [hA]
    exact ⟨b, hB⟩

theorem roots_built_iff {path : Nat → String} : ∀ {matches_ : List PortMatchInputModel}
    (index : Nat), (∃ clauses, root_matches spell jsonb place settings now table owner_column
      action_alias path index matches_ = .ok clauses) ↔ ∀ m ∈ matches_, ¬ m.DescriptorOnly := by
  intro matches_
  induction matches_ with
  | nil =>
      intro index
      exact iff_of_true ⟨_, rfl⟩ (by simp)
  | cons m rest ih =>
      intro index
      rw [List.forall_mem_cons, ← root_built_iff, ← ih (index + 1)]
      refine bind_ok_iff ?_
      intro clause
      constructor
      · rintro ⟨clauses, h⟩
        obtain ⟨others, hOthers, -⟩ := Ports.bind_ok h
        exact ⟨others, hOthers⟩
      · rintro ⟨others, hOthers⟩
        rw [hOthers]
        exact ⟨_, rfl⟩

theorem demand_built_iff {owner : PortOwner} {demand_index : Nat} {demand : PortDemand} :
    (∃ clauses, demand_clauses spell jsonb place settings now owner demand_index demand =
      .ok clauses) ↔ ¬ demand.Refused owner := by
  rw [demand_clauses, PortDemand.Refused]
  cases hTable : owner.port_tables demand.kind with
  | none =>
      refine iff_of_false ?_ (by simp)
      rintro ⟨clauses, h⟩
      cases h
  | some table =>
      simp only [reduceCtorEq, false_or, not_exists, not_and]
      rw [← roots_built_iff 0]
      constructor
      · rintro ⟨clauses, h⟩
        obtain ⟨matched, hMatched, -⟩ := Ports.bind_ok h
        exact ⟨matched, hMatched⟩
      · rintro ⟨matched, hMatched⟩
        rw [hMatched]
        exact ⟨_, rfl⟩

theorem demands_built_iff {owner : PortOwner} : ∀ {demands : List PortDemand}
    (demand_index : Nat), (∃ clauses, demands_clauses spell jsonb place settings now owner
      demand_index demands = .ok clauses) ↔ ∀ demand ∈ demands, ¬ demand.Refused owner := by
  intro demands
  induction demands with
  | nil =>
      intro demand_index
      exact iff_of_true ⟨_, rfl⟩ (by simp)
  | cons demand rest ih =>
      intro demand_index
      rw [List.forall_mem_cons, ← demand_built_iff, ← ih (demand_index + 1)]
      refine bind_ok_iff ?_
      intro clauses
      constructor
      · rintro ⟨all, h⟩
        obtain ⟨others, hOthers, -⟩ := Ports.bind_ok h
        exact ⟨others, hOthers⟩
      · rintro ⟨others, hOthers⟩
        rw [hOthers]
        exact ⟨_, rfl⟩

/-- A demand that asks something of the ports. -/
def PortDemand.Asks (demand : PortDemand) : Prop :=
  demand.matches_ ≠ [] ∨ demand.force_length ≠ none ∨ demand.force_non_nullable_length ≠ none ∨
    demand.force_structure_length ≠ none

theorem root_matches_length {path : Nat → String} : ∀ {matches_ : List PortMatchInputModel}
    {index : Nat} {clauses : List (Clause κ) × Assignments},
    root_matches spell jsonb place settings now table owner_column action_alias path index
      matches_ = .ok clauses → clauses.1.length = matches_.length := by
  intro matches_
  induction matches_ with
  | nil =>
      intro index clauses h
      cases h
      rfl
  | cons m rest ih =>
      intro index clauses h
      obtain ⟨clause, -, hRest⟩ := Ports.bind_ok h
      obtain ⟨others, hOthers, hEq⟩ := Ports.bind_ok hRest
      cases hEq
      exact congrArg (· + 1) (ih hOthers)

theorem forced_nil_iff {length : Option Int} {clause : Int → Clause κ × Assignments} :
    (forced length clause).1 = [] ↔ length = none := by
  cases length <;> simp [forced]

theorem demand_asks {owner : PortOwner} {demand_index : Nat} {demand : PortDemand}
    {clauses : List (Clause κ) × Assignments}
    (h : demand_clauses spell jsonb place settings now owner demand_index demand = .ok clauses) :
    clauses.1 = [] ↔ ¬ demand.Asks := by
  rw [demand_clauses] at h
  cases hTable : owner.port_tables demand.kind with
  | none =>
      rw [hTable] at h
      cases h
  | some table =>
      rw [hTable] at h
      obtain ⟨matched, hMatched, hEq⟩ := Ports.bind_ok h
      cases hEq
      have hNone : matched.1 = [] ↔ demand.matches_ = [] := by
        rw [← List.length_eq_zero_iff, root_matches_length hMatched, List.length_eq_zero_iff]
      simp only [together, List.flatMap_cons, List.flatMap_nil, List.append_nil,
        List.append_eq_nil_iff, forced_nil_iff, hNone, PortDemand.Asks, not_or, not_not]

theorem demands_ask {owner : PortOwner} : ∀ {demands : List PortDemand} {demand_index : Nat}
    {clauses : List (Clause κ) × Assignments},
    demands_clauses spell jsonb place settings now owner demand_index demands = .ok clauses →
    (clauses.1 = [] ↔ ∀ demand ∈ demands, ¬ demand.Asks) := by
  intro demands
  induction demands with
  | nil =>
      intro demand_index clauses h
      cases h
      simp
  | cons demand rest ih =>
      intro demand_index clauses h
      obtain ⟨first, hFirst, hRest⟩ := Ports.bind_ok h
      obtain ⟨others, hOthers, hEq⟩ := Ports.bind_ok hRest
      cases hEq
      rw [together_pair, List.append_eq_nil_iff, List.forall_mem_cons, demand_asks hFirst,
        ih hOthers]

/-- When demands are made a statement: none asks for ports its owner lacks or has a root match of
descriptors alone, and there is something to search by. -/
theorem port_demand_ok_iff {owner : PortOwner} {demands : List PortDemand}
    {organization : Option Int} :
    (∃ statement, port_demand_sql spell jsonb place settings now demands organization owner =
      .ok statement) ↔ (∀ demand ∈ demands, ¬ demand.Refused owner) ∧
        (organization ≠ none ∨ ∃ demand ∈ demands, demand.Asks) := by
  have hBuilt : (∃ clauses, demands_clauses spell jsonb place settings now owner 0 demands =
      .ok clauses) ↔ ∀ demand ∈ demands, ¬ demand.Refused owner := demands_built_iff 0
  rw [← hBuilt, port_demand_sql]
  constructor
  · rintro ⟨statement, h⟩
    obtain ⟨clauses, hClauses, hRest⟩ := Ports.bind_ok h
    refine ⟨⟨clauses, hClauses⟩, ?_⟩
    by_contra hNothing
    rw [not_or, not_not] at hNothing
    obtain ⟨rfl, hNone⟩ := hNothing
    have hEmpty := (demands_ask hClauses).2 fun demand hDemand hAsks =>
      hNone ⟨demand, hDemand, hAsks⟩
    rw [together_pair] at hRest
    simp only [organization_clause, hEmpty] at hRest
    cases hRest
  · rintro ⟨⟨clauses, hClauses⟩, hSome⟩
    have hFull : (together [organization_clause place organization, clauses]).1.isEmpty = false := by
      rw [together_pair, List.isEmpty_eq_false_iff]
      intro hNil
      obtain ⟨hOrganization, hEmpty⟩ := List.append_eq_nil_iff.1 hNil
      have hNone := (demands_ask hClauses).1 hEmpty
      rcases hSome with hGiven | ⟨demand, hDemand, hAsks⟩
      · cases organization with
        | none => exact hGiven rfl
        | some organization => cases hOrganization
      · exact hNone demand hDemand hAsks
    rw [hClauses]
    show ∃ statement, (if (together [organization_clause place organization, clauses]).1.isEmpty
      then Except.error no_search_params else Except.ok _) = Except.ok statement
    rw [hFull]
    exact ⟨_, rfl⟩

/-- Every name of a statement was assigned. -/
theorem positional_ok_iff {letter : Char → Bool} {demands : List PortDemand}
    {organization_id : Int} {owner : DemandOwner} :
    (∃ positional, positional_port_demand_sql letter spell jsonb settings now demands
      organization_id owner = .ok positional) ↔
        ∀ demand ∈ demands, ¬ demand.Refused owner.ports := by
  have hBuilt : (∃ statement, port_demand_sql spell jsonb named settings now demands
      (some organization_id) owner.ports = .ok statement) ↔
        ∀ demand ∈ demands, ¬ demand.Refused owner.ports := by
    rw [port_demand_ok_iff]
    exact and_iff_left (.inl (by simp))
  rw [← hBuilt]
  constructor
  · rintro ⟨positional, h⟩
    obtain ⟨statement, hStatement, -⟩ := Ports.bind_ok h
    exact ⟨statement, hStatement⟩
  · rintro ⟨⟨s, assignments⟩, hStatement⟩
    obtain ⟨paired, rfl, hPaired⟩ := paired_of_named hStatement
    rw [positional_port_demand_sql, hStatement]
    show ∃ positional, (to_positional letter (statement_text (paired.map Prod.fst))
      (params_of assignments)).elim (.error unassigned) .ok = Except.ok positional
    rw [to_positional_paired letter hPaired]
    exact ⟨_, rfl⟩

theorem statements_ok_iff {letter : Char → Bool} {now : Nat → String → Int}
    {organization_id : Int} {owner : DemandOwner} : ∀ {sets : List (List PortDemand)}
    (index : Nat), (∃ statements, positional_statements letter spell jsonb settings now
      organization_id owner index sets = .ok statements) ↔
        ∀ demands ∈ sets, ∀ demand ∈ demands, ¬ demand.Refused owner.ports := by
  intro sets
  induction sets with
  | nil =>
      intro index
      exact iff_of_true ⟨_, rfl⟩ (by simp)
  | cons demands rest ih =>
      intro index
      have hHead : (∃ positional, positional_port_demand_sql letter spell jsonb settings (now index)
          demands organization_id owner = .ok positional) ↔
            ∀ demand ∈ demands, ¬ demand.Refused owner.ports := positional_ok_iff
      rw [List.forall_mem_cons, ← hHead, ← ih (index + 1)]
      refine bind_ok_iff ?_
      intro statement
      constructor
      · rintro ⟨all, h⟩
        obtain ⟨others, hOthers, -⟩ := Ports.bind_ok h
        exact ⟨others, hOthers⟩
      · rintro ⟨others, hOthers⟩
        rw [hOthers]
        exact ⟨_, rfl⟩

/-- When sets of demands are made one statement. -/
theorem any_demands_answered {letter : Char → Bool} {now : Nat → String → Int}
    {sets : List (List PortDemand)} {organization_id : Int} {owner : DemandOwner} :
    (∃ statement, get_any_port_demand_subquery letter spell jsonb settings now sets organization_id
      owner = .ok statement) ↔ ∀ demands ∈ sets, demands ≠ [] ∧
        ∀ demand ∈ demands, ¬ demand.Refused owner.ports := by
  rw [get_any_port_demand_subquery]
  by_cases hEmpty : sets.any List.isEmpty = true
  · rw [if_pos hEmpty]
    refine iff_of_false ?_ ?_
    · rintro ⟨statement, h⟩
      cases h
    · intro hAll
      obtain ⟨demands, hDemands, hNil⟩ := List.any_eq_true.1 hEmpty
      exact (hAll demands hDemands).1 (List.isEmpty_iff.1 hNil)
  · rw [if_neg hEmpty]
    have hFull : ∀ demands ∈ sets, demands ≠ [] := by
      intro demands hDemands hNil
      exact hEmpty (List.any_eq_true.2 ⟨demands, hDemands, List.isEmpty_iff.2 hNil⟩)
    constructor
    · rintro ⟨statement, h⟩
      obtain ⟨statements, hStatements, -⟩ := Ports.bind_ok h
      intro demands hDemands
      exact ⟨hFull demands hDemands, (statements_ok_iff 0).1 ⟨statements, hStatements⟩ demands hDemands⟩
    · intro hAll
      obtain ⟨statements, hStatements⟩ : ∃ statements, positional_statements letter spell jsonb
          settings now organization_id owner 0 sets = .ok statements :=
        (statements_ok_iff 0).2 fun demands hDemands => (hAll demands hDemands).2
      rw [hStatements]
      exact ⟨_, rfl⟩

end Refusals

/-! ## A list of images -/

theorem zero_spelled : ({ whole := ['0'] } : JsonPath.Numeral).Valid where
  whole_digits := by
    intro c hc
    rw [List.mem_singleton.1 hc]
    rfl
  whole_first := rfl
  fraction_digits := by
    intro digits h
    cases h
  exponent_digits := by
    intro sign digits h
    cases h

/-- A printing of doubles, where there are none. -/
def unspelled (_ : Dyadic) : Formulas.Spelling :=
  { negative := false, numeral := { whole := ['0'] }, valid := zero_spelled }

/-- A database, where no JSON is asked of it. -/
def no_json : Jsonb where
  path_match _ _ _ := none
  build_object _ value := value

def image_port : Port (Ports.ArgOwn (List Ports.DescriptorConstraint)) :=
  .mk { key := "...", kind := .STRUCTURE, identifier := some "@mikro/image" } ⟨none, []⟩ []

/-- An action of images, and one of nothing. -/
def image_declared : Declared (Ports.ArgOwn (List Ports.DescriptorConstraint))
    (Ports.ReturnOwn (List Ports.DescriptorConstraint)) where
  args id := if id = 7 then [.mk { key := "images", kind := .LIST } ⟨none, []⟩ [image_port]] else []
  returns _ := []
  blok_args _ := []

def image_rows : List PortRow :=
  [{ id := 0, owner := 7, parent_id := none, index := 0, key := "images", key_path := "images"
     kind := "LIST", identifier := none, compiled_jsonpath := none, nullable := false
     dimension := none },
    { id := 1, owner := 7, parent_id := some 0, index := 0, key := "...", key_path := "images...."
      kind := "STRUCTURE", identifier := some "@mikro/image", compiled_jsonpath := none
      nullable := false, dimension := none }]

def image_action (id arg_count : Nat) : ActionRow where
  id := id
  organization_id := 1
  app_id := 1
  key := "segment"
  hash := "h"
  version := "1"
  name := "Segment"
  pure := false
  idempotent := false
  stateful := false
  arg_count := arg_count
  return_count := 0

def image_store : Store where
  actions := [image_action 7 1, image_action 8 0]
  args := image_rows

/-- One argument, a list of images. -/
def images_wanted : List PortDemand :=
  [{ kind := .args, force_length := some 1
     matches_ := [.mk { kind := some .LIST }
      [.mk { identifier := some "@mikro/image", at_ := some 0 } []]] }]

theorem image_rows_sound : Sound ⟨image_rows, 2⟩ where
  ids := by decide
  unique := by
    intro a ha b hb hEq
    simp only [image_rows, List.mem_cons, List.not_mem_nil, or_false] at ha hb
    rcases ha with rfl | rfl <;> rcases hb with rfl | rfl
    · rfl
    · cases hEq
    · cases hEq
    · rfl
  parents := by
    intro row hRow p hParent
    simp only [image_rows, List.mem_cons, List.not_mem_nil, or_false] at hRow
    rcases hRow with rfl | rfl
    · cases hParent
    · cases hParent
      exact ⟨_, List.mem_cons_self, rfl, rfl⟩

theorem no_rows_sound : Sound ⟨[], 0⟩ where
  ids := by decide
  unique := by
    intro a ha
    cases ha
  parents := by
    intro row hRow
    cases hRow

theorem images_shown : Shown unspelled image_store image_declared where
  args := by
    refine ⟨⟨2, image_rows_sound⟩, ?_⟩
    intro id hId
    have hCases : id = 7 ∨ id = 8 := by simpa [image_store, image_action] using hId
    rcases hCases with rfl | rfl
    · refine ⟨⟨rfl, ⟨rfl, rfl, rfl, rfl, rfl, rfl, rfl⟩, ?_⟩, trivial⟩
      exact ⟨⟨rfl, ⟨rfl, rfl, rfl, rfl, rfl, rfl, rfl⟩, trivial⟩, trivial⟩
    · exact trivial
  returns := ⟨⟨0, no_rows_sound⟩, fun _ _ => trivial⟩
  blok_args := ⟨⟨0, no_rows_sound⟩, fun _ _ => trivial⟩
  arg_count := by decide
  return_count := by decide

theorem images_meet {now : String → Int} :
    Selected unspelled no_json {} now image_store image_declared .action (some 1) images_wanted
      7 := by
  refine ⟨⟨image_action 7 1, List.mem_cons_self, rfl, ?_⟩, ?_⟩
  · intro o ho
    cases ho
    rfl
  · intro demand hDemand
    cases List.mem_singleton.1 hDemand
    refine ⟨?_, ?_, ?_, ?_⟩
    · intro m hm
      cases List.mem_singleton.1 hm
      refine ⟨_, List.mem_cons_self, ?_, fun hNone => absurd rfl hNone, ?_, trivial⟩
      · constructor <;> intro value hValue <;> cases hValue
        rfl
      · refine ⟨_, List.mem_cons_self, ?_, fun hNone => absurd rfl hNone, trivial⟩
        constructor <;> intro value hValue <;> cases hValue <;> rfl
    · intro n hn
      cases hn
      rfl
    · intro n hn
      cases hn
    · intro n hn
      cases hn

/-- The action of images is selected. -/
theorem images_selected : ∃ s assignments bound,
    port_demand_sql unspelled no_json named {} (fun _ => 0) images_wanted (some 1) ACTION_PORTS =
      .ok (s, assignments) ∧
    s.bind (fun key => (params_of assignments).lookup key) = some bound ∧
      number 7 ∈ Select.ids image_store bound ∧ number 8 ∉ Select.ids image_store bound := by
  obtain ⟨⟨s, assignments⟩, h⟩ : ∃ statement, port_demand_sql unspelled no_json named {}
      (fun _ => 0) images_wanted (some 1) (DemandOwner.ports .action) = .ok statement := ⟨_, rfl⟩
  obtain ⟨bound, hBind, hSelects⟩ := demands_select images_shown h
  refine ⟨s, assignments, bound, h, hBind, (hSelects _).2 ⟨7, rfl, images_meet⟩, ?_⟩
  intro hMem
  obtain ⟨id, hId, -, hMet⟩ := (hSelects _).1 hMem
  cases hId
  have hLength := (hMet _ List.mem_cons_self).length 1 rfl
  cases hLength

/-- The action of images is selected by a union. -/
theorem any_images_selected : ∃ text values statements bounds,
    get_any_port_demand_subquery (fun _ => false) unspelled no_json {} (fun _ _ => 0)
        [[{ kind := .returns, force_length := some 3 }], images_wanted] 1 .action =
      .ok (text, values) ∧
    text = union_text (statements.map fun s : Select Value Table Column String =>
      Sql.positional_text (s.pieces Table.name Column.text)) ∧
    Sql.fill_all statements values = some bounds ∧
      ∃ bound ∈ bounds, number 7 ∈ Select.ids image_store bound := by
  have hFine : ∀ demands ∈ [[{ kind := .returns, force_length := some 3 }], images_wanted],
      ∀ demand ∈ demands, ¬ demand.Refused (DemandOwner.ports .action) := by
    intro demands hDemands demand hDemand hRefused
    simp only [images_wanted, List.mem_cons, List.not_mem_nil, or_false] at hDemands
    rcases hDemands with rfl | rfl
    · cases List.mem_singleton.1 hDemand
      rcases hRefused with hNone | ⟨m, hm, -⟩
      · cases hNone
      · cases hm
    · cases List.mem_singleton.1 hDemand
      rcases hRefused with hNone | ⟨m, hm, hOnly⟩
      · cases hNone
      · cases List.mem_singleton.1 hm
        exact hOnly.1 rfl
  obtain ⟨statements, hStatements⟩ : ∃ statements, positional_statements (fun _ => false) unspelled
      no_json {} (fun _ _ => 0) 1 .action 0
      [[{ kind := .returns, force_length := some 3 }], images_wanted] = .ok statements :=
    (statements_ok_iff 0).2 hFine
  obtain ⟨⟨text, values⟩, h⟩ : ∃ statement, get_any_port_demand_subquery (fun _ => false) unspelled
      no_json {} (fun _ _ => 0) [[{ kind := .returns, force_length := some 3 }], images_wanted] 1
      .action = .ok statement := by
    rw [get_any_port_demand_subquery, if_neg (by simp [images_wanted]), hStatements]
    exact ⟨_, rfl⟩
  obtain ⟨selects, hText, bounds, hFill, hSelects⟩ := any_demands_select images_shown h
  refine ⟨text, values, selects, bounds, h, hText, hFill, (hSelects _).2 ⟨7, rfl, ?_⟩⟩
  exact ⟨(images_wanted, 1), by simp, images_meet⟩

/-! ## Rows written again and again -/

/-- After every run of writes and deletions, whichever owners they are of, the rows of each owner
show exactly the ports it was given last: what a search over them rests on. -/
theorem rows_show_last {Own : Type} [RelationalPort Own] {spell : Dyadic → Formulas.Spelling}
    {writes : List (Write Own)} {table : PortTable}
    (h : writes.foldlM (PortTable.write spell) {} = .ok table) :
    Sound table ∧
      ∀ owner, ShowsPorts spell table.rows owner (writes.foldl Write.note (fun _ => []) owner) :=
  writes_show no_rows_sound (fun _ => trivial) h

/-- The images of one action are written between those of another. -/
def image_writes : List (Write (Ports.ArgOwn (List Ports.DescriptorConstraint))) :=
  [.rebuild 7 [image_port], .rebuild 8 (image_declared.args 7), .rebuild 7 (image_declared.args 7),
    .delete 8]

theorem image_rows_show_last : ∃ table,
    image_writes.foldlM (PortTable.write unspelled) {} = .ok table ∧ table.rows.length = 2 ∧
      (Sound table ∧ ∀ owner, ShowsPorts unspelled table.rows owner
        (image_writes.foldl Write.note (fun _ => []) owner)) := by
  have hRows : ((image_writes.foldlM (PortTable.write unspelled) {}).toOption.any
      fun table => table.rows.length == 2) = true := by decide +kernel
  cases h : image_writes.foldlM (PortTable.write unspelled) {} with
  | error message =>
      rw [h] at hRows
      cases hRows
  | ok table =>
      rw [h] at hRows
      exact ⟨table, rfl, beq_iff_eq.1 hRows, rows_show_last h⟩

end Rekuest.Demands
