import Mathlib.Data.List.Forall2
import Rekuest.Ports.Compile
import Rekuest.Tables.Keyed

/-!
# The port rows of an action

The ports of a definition are flattened into rows, one level of the tree after the other: a
row names its parent row and its place among its siblings.  Ids come from the sequence of the
table, so the rows of a level are written before their children can name them.

What the rows of an owner show is a forest of ports: those under no parent are its root
ports, in order, and those under a row are the children of the row's port.
-/

namespace Rekuest.Demands

open Rekuest.Ports (Port DescriptorConstraint)

/-- What the relational port rows need of a declared port, beside the fields of every port:
the `requires` of an argument, the `provides` of a return. -/
class RelationalPort (Own : Type) where
  descriptors : Own → List DescriptorConstraint

/-- `requires` -/
instance : RelationalPort (Ports.ArgOwn (List DescriptorConstraint)) := ⟨Ports.ArgOwn.rest⟩

/-- `provides` -/
instance : RelationalPort (Ports.ReturnOwn (List DescriptorConstraint)) := ⟨Ports.ReturnOwn.rest⟩

/-- A row of a port table. -/
structure PortRow where
  id : Nat
  /-- `action_id`, or `blok_id` -/
  owner : Nat
  parent_id : Option Nat
  index : Nat
  key : String
  key_path : String
  kind : String
  identifier : Option String
  compiled_jsonpath : Option (List Char)
  nullable : Bool
  dimension : Option String

/-- A port table and its sequence. -/
structure PortTable where
  rows : List PortRow := []
  next : Nat := 0

variable {Own : Type}

/-- A port of the level that is to be written: its parent row, its place among its siblings
and its key path. -/
structure Pending (Own : Type) where
  port : Port Own
  parent : Option Nat
  index : Nat
  path : String

namespace Pending

/-- The children of a port that was written, for the next level. -/
def below (entry : Pending Own) (id : Nat) : List (Pending Own) :=
  entry.port.children.zipIdx.map fun child =>
    { port := child.1, parent := some id, index := child.2
      path := entry.path ++ "." ++ child.1.key }

def row (owner : Nat) (entry : Pending Own) (id : Nat) (compiled : Option (List Char)) :
    PortRow where
  id := id
  owner := owner
  parent_id := entry.parent
  index := entry.index
  key := entry.port.key
  key_path := entry.path
  kind := entry.port.kind.value
  identifier := entry.port.identifier
  compiled_jsonpath := compiled
  nullable := entry.port.nullable
  dimension := entry.port.fields.dimension

end Pending

/-- The level of the root ports. -/
def root_level (ports : List (Port Own)) : List (Pending Own) :=
  ports.zipIdx.map fun port =>
    { port := port.1, parent := none, index := port.2, path := port.1.key }

/-- The rows of a level, with the ids the sequence gives them. -/
def level_rows (owner : Nat) : Nat → List (Pending Own) → List (Option (List Char)) → List PortRow
  | id, entry :: level, compiled :: rest =>
      entry.row owner id compiled :: level_rows owner (id + 1) level rest
  | _, _, _ => []

/-- The children of a level, once its rows have ids. -/
def next_level (level : List (Pending Own)) (ids : List Nat) : List (Pending Own) :=
  (level.zip ids).flatMap fun written => written.1.below written.2

mutual

/-- The ports of a port, itself among them. -/
def weight : Port Own → Nat
  | .mk _ _ children => 1 + weights children

def weights : List (Port Own) → Nat
  | [] => 0
  | port :: rest => weight port + weights rest

end

theorem weights_eq_sum (ports : List (Port Own)) : weights ports = (ports.map weight).sum := by
  induction ports with
  | nil => rfl
  | cons port rest ih => rw [weights, ih, List.map_cons, List.sum_cons]

theorem weight_eq (port : Port Own) : weight port = 1 + weights port.children := by
  cases port
  rfl

def level_weight (level : List (Pending Own)) : Nat := (level.map fun entry => weight entry.port).sum

theorem level_weight_below (entry : Pending Own) (id : Nat) :
    level_weight (entry.below id) + 1 = weight entry.port := by
  have hPorts : (entry.below id).map (fun child => weight child.port) =
      entry.port.children.map weight := by
    rw [Pending.below, List.map_map]
    show entry.port.children.zipIdx.map (weight ∘ Prod.fst) = _
    rw [← List.map_map, List.zipIdx_map_fst]
  rw [level_weight, hPorts, weight_eq, weights_eq_sum]
  omega

/-- Each level weighs less than the one above it. -/
theorem level_weight_next (level : List (Pending Own)) (ids : List Nat) (h : level ≠ []) :
    level_weight (next_level level ids) < level_weight level := by
  have hLe : ∀ (level : List (Pending Own)) (ids : List Nat),
      level_weight (next_level level ids) + (level.zip ids).length ≤ level_weight level := by
    intro level
    induction level with
    | nil =>
        intro ids
        exact Nat.le_refl _
    | cons entry rest ih =>
        intro ids
        cases ids with
        | nil => exact Nat.zero_le _
        | cons id ids =>
            have hRest := ih ids
            have hBelow := level_weight_below entry id
            simp only [next_level, level_weight, List.zip_cons_cons, List.flatMap_cons,
              List.map_append, List.sum_append_nat, List.map_cons, List.sum_cons,
              List.length_cons] at hRest hBelow ⊢
            omega
  cases level with
  | nil => exact absurd rfl h
  | cons entry rest =>
      cases ids with
      | nil =>
          have hPos : 0 < weight entry.port := by
            rw [weight_eq]
            omega
          show 0 < level_weight (entry :: rest)
          simp only [level_weight, List.map_cons, List.sum_cons]
          omega
      | cons id ids =>
          have hLevel := hLe (entry :: rest) (id :: ids)
          rw [List.zip_cons_cons, List.length_cons] at hLevel
          omega

/-- Induction on the levels of a forest, each followed by the level below it. -/
theorem level_induction {P : List (Pending Own) → Prop} (nil : P [])
    (cons : ∀ level, level ≠ [] → (∀ ids, P (next_level level ids)) → P level)
    (level : List (Pending Own)) : P level := by
  generalize hWeight : level_weight level = n
  induction n using Nat.strong_induction_on generalizing level with
  | _ n ih =>
      by_cases hLevel : level = []
      · subst hLevel
        exact nil
      · apply cons level hLevel
        intro ids
        subst hWeight
        exact ih _ (level_weight_next level ids hLevel) _ rfl

section Create

-- How doubles print.
variable (spell : Dyadic → Formulas.Spelling) [RelationalPort Own]

/-- The compiled descriptors of a port, or nothing where it has none. -/
def compiled_of (port : Port Own) : Except String (Option (List Char)) :=
  Ports.Rust.compile_descriptors_to_jsonpath spell (RelationalPort.descriptors port.own)

def compile_level : List (Pending Own) → Except String (List (Option (List Char)))
  | [] => .ok []
  | entry :: rest => do
      let compiled ← compiled_of spell entry.port
      let others ← compile_level rest
      return compiled :: others

/-- One insert per level, until a level is empty. -/
def create_levels (owner : Nat) (level : List (Pending Own)) (table : PortTable) :
    Except String PortTable :=
  if _h : level = [] then .ok table
  else do
    let compiled ← compile_level spell level
    let rows := level_rows owner table.next level compiled
    create_levels owner (next_level level (rows.map PortRow.id))
      { rows := table.rows ++ rows, next := table.next + rows.length }
termination_by level_weight level
decreasing_by exact level_weight_next level _ _h

/-- The rows of an owner's ports. -/
def create_ports_level_by_level (ports : List (Port Own)) (owner : Nat) (table : PortTable) :
    Except String PortTable :=
  create_levels spell owner (root_level ports) table

end Create

/-- `DELETE FROM … WHERE action_id = …` -/
def PortTable.delete (owner : Nat) (table : PortTable) : PortTable :=
  { table with rows := table.rows.filter fun row => row.owner ≠ owner }

/-! ## What rows show -/

/-- The rows of an owner under a parent, or its root rows. -/
def under (rows : List PortRow) (owner : Nat) (parent : Option Nat) : List PortRow :=
  rows.filter fun row => row.owner = owner ∧ row.parent_id = parent

section Shows

variable (spell : Dyadic → Formulas.Spelling) [RelationalPort Own]

/-- A row has the fields of a port. -/
structure Describes (row : PortRow) (path : String) (port : Port Own) : Prop where
  key : row.key = port.key
  key_path : row.key_path = path
  kind : row.kind = port.kind.value
  identifier : row.identifier = port.identifier
  compiled : compiled_of spell port = .ok row.compiled_jsonpath
  nullable : row.nullable = port.nullable
  dimension : row.dimension = port.fields.dimension

mutual

/-- A row describes a port, and the rows under it show its children. -/
def Shows (rows : List PortRow) (row : PortRow) (path : String) : Port Own → Prop
  | .mk fields own children =>
      Describes spell row path (.mk fields own children) ∧
        ShowsAll rows (under rows row.owner (some row.id)) 0 (path ++ ".") children

/-- Rows show ports, one for one, numbered from a number on. -/
def ShowsAll (rows : List PortRow) : List PortRow → Nat → String → List (Port Own) → Prop
  | [], _, _, [] => True
  | row :: found, n, above, port :: ports =>
      (row.index = n ∧ Shows rows row (above ++ port.key) port) ∧
        ShowsAll rows found (n + 1) above ports
  | [], _, _, _ :: _ => False
  | _ :: _, _, _, [] => False

end

/-- The rows of a table show the ports of an owner. -/
def ShowsPorts (rows : List PortRow) (owner : Nat) (ports : List (Port Own)) : Prop :=
  ShowsAll spell rows (under rows owner none) 0 "" ports

variable {spell}

theorem shows_iff {rows : List PortRow} {row : PortRow} {path : String} {port : Port Own} :
    Shows spell rows row path port ↔ Describes spell row path port ∧
      ShowsAll spell rows (under rows row.owner (some row.id)) 0 (path ++ ".") port.children := by
  cases port
  rfl

/-- What is asked of a row for an entry of a level. -/
structure Written (spell : Dyadic → Formulas.Spelling) (rows : List PortRow) (owner : Nat)
    (entry : Pending Own) (row : PortRow) : Prop where
  owner : row.owner = owner
  parent : row.parent_id = entry.parent
  index : row.index = entry.index
  shows : Shows spell rows row entry.path entry.port

/-- Rows written for ports numbered from a number on show them. -/
theorem shows_all_of_written {rows : List PortRow} {owner : Nat} {parent : Option Nat}
    {above : String} : ∀ {ports : List (Port Own)} {found : List PortRow} {n : Nat},
      List.Forall₂ (Written spell rows owner)
        ((ports.zipIdx n).map fun port =>
          { port := port.1, parent, index := port.2, path := above ++ port.1.key }) found →
      ShowsAll spell rows found n above ports := by
  intro ports
  induction ports with
  | nil =>
      intro found n h
      cases h
      trivial
  | cons port ports ih =>
      intro found n h
      rw [List.zipIdx_cons, List.map_cons] at h
      cases h with
      | cons hHead hTail => exact ⟨⟨hHead.index, hHead.shows⟩, ih hTail⟩

/-! ## What a level writes -/

/-- What is written for an entry of a level, whatever stands below it. -/
structure Copies (spell : Dyadic → Formulas.Spelling) (owner : Nat) (entry : Pending Own)
    (row : PortRow) : Prop where
  owner : row.owner = owner
  parent : row.parent_id = entry.parent
  index : row.index = entry.index
  describes : Describes spell row entry.path entry.port

theorem compile_cons {entry : Pending Own} {level : List (Pending Own)}
    {compiled : List (Option (List Char))} (h : compile_level spell (entry :: level) = .ok compiled) :
    ∃ c rest, compiled = c :: rest ∧ compiled_of spell entry.port = .ok c ∧
      compile_level spell level = .ok rest := by
  obtain ⟨c, hC, hRest⟩ := Ports.bind_ok h
  obtain ⟨rest, hLevel, hEq⟩ := Ports.bind_ok hRest
  cases hEq
  exact ⟨c, rest, rfl, hC, hLevel⟩

theorem level_rows_copies (owner : Nat) : ∀ (id : Nat) {level : List (Pending Own)}
    {compiled : List (Option (List Char))}, compile_level spell level = .ok compiled →
      List.Forall₂ (Copies spell owner) level (level_rows owner id level compiled) := by
  intro id level
  induction level generalizing id with
  | nil =>
      intro compiled h
      cases h
      exact .nil
  | cons entry level ih =>
      intro compiled h
      obtain ⟨c, rest, rfl, hC, hLevel⟩ := compile_cons h
      refine .cons ?_ (ih _ hLevel)
      exact { owner := rfl, parent := rfl, index := rfl
              describes := ⟨rfl, rfl, rfl, rfl, hC, rfl, rfl⟩ }

theorem level_rows_ids (owner : Nat) : ∀ (id : Nat) {level : List (Pending Own)}
    {compiled : List (Option (List Char))}, compile_level spell level = .ok compiled →
      (level_rows owner id level compiled).map PortRow.id = List.range' id level.length := by
  intro id level
  induction level generalizing id with
  | nil =>
      intro compiled h
      cases h
      rfl
  | cons entry level ih =>
      intro compiled h
      obtain ⟨c, rest, rfl, hC, hLevel⟩ := compile_cons h
      rw [level_rows, List.map_cons, ih _ hLevel, List.length_cons, List.range'_succ]
      rfl

/-- What `create_levels` does with a level that is not empty. -/
theorem create_levels_step {owner : Nat} {level : List (Pending Own)} {table table' : PortTable}
    (hLevel : level ≠ []) (h : create_levels spell owner level table = .ok table') :
    ∃ compiled, compile_level spell level = .ok compiled ∧
      create_levels spell owner
        (next_level level ((level_rows owner table.next level compiled).map PortRow.id))
        { rows := table.rows ++ level_rows owner table.next level compiled
          next := table.next + (level_rows owner table.next level compiled).length } =
        .ok table' := by
  rw [create_levels, dif_neg hLevel] at h
  exact Ports.bind_ok h

theorem create_levels_nil {owner : Nat} {table table' : PortTable}
    (h : create_levels spell owner ([] : List (Pending Own)) table = .ok table') :
    table' = table := by
  rw [create_levels, dif_pos rfl] at h
  cases h
  rfl

end Shows

/-! ## Tables -/

/-- Ids are of the sequence and unique, and a parent is a row of the same owner. -/
structure Sound (table : PortTable) : Prop where
  ids : ∀ row ∈ table.rows, row.id < table.next
  unique : Keyed.Unique PortRow.id table.rows
  parents : ∀ row ∈ table.rows, ∀ p, row.parent_id = some p →
    ∃ parent ∈ table.rows, parent.id = p ∧ parent.owner = row.owner

/-- The parents of a level are rows of the owner. -/
def Rooted (table : PortTable) (owner : Nat) (level : List (Pending Own)) : Prop :=
  ∀ entry ∈ level, ∀ p, entry.parent = some p →
    ∃ parent ∈ table.rows, parent.id = p ∧ parent.owner = owner

theorem Sound.parent_lt {table : PortTable} (h : Sound table) {row : PortRow}
    (hRow : row ∈ table.rows) {p : Nat} (hParent : row.parent_id = some p) : p < table.next := by
  obtain ⟨parent, hMem, rfl, -⟩ := h.parents row hRow p hParent
  exact h.ids parent hMem

theorem Rooted.parent_lt {table : PortTable} {owner : Nat} {level : List (Pending Own)}
    (h : Rooted table owner level) (hSound : Sound table) {entry : Pending Own}
    (hEntry : entry ∈ level) {p : Nat} (hParent : entry.parent = some p) : p < table.next := by
  obtain ⟨parent, hMem, rfl, -⟩ := h entry hEntry p hParent
  exact hSound.ids parent hMem

/-! ## The rows under a row -/

theorem under_append (rows rows' : List PortRow) (owner : Nat) (parent : Option Nat) :
    under (rows ++ rows') owner parent = under rows owner parent ++ under rows' owner parent :=
  List.filter_append ..

theorem under_eq_nil {rows : List PortRow} {owner : Nat} {parent : Option Nat}
    (h : ∀ row ∈ rows, row.parent_id ≠ parent) : under rows owner parent = [] := by
  rw [under, List.filter_eq_nil_iff]
  intro row hRow hBoth
  exact h row hRow (of_decide_eq_true hBoth).2

theorem below_filter (entry : Pending Own) (id parent : Nat) :
    (entry.below id).filter (fun child => child.parent = some parent) =
      if id = parent then entry.below id else [] := by
  by_cases h : id = parent
  · rw [if_pos h, List.filter_eq_self]
    intro child hChild
    obtain ⟨port, -, rfl⟩ := List.mem_map.1 hChild
    simp [h]
  · rw [if_neg h, List.filter_eq_nil_iff]
    intro child hChild
    obtain ⟨port, -, rfl⟩ := List.mem_map.1 hChild
    simp [h]

/-- Of the next level, the entries under one row are the children of its port. -/
theorem next_level_filter {pairs : List (Pending Own × Nat)} (hNodup : (pairs.map Prod.snd).Nodup)
    {entry : Pending Own} {id : Nat} (hMem : (entry, id) ∈ pairs) :
    (pairs.flatMap fun written => written.1.below written.2).filter
      (fun child => child.parent = some id) = entry.below id := by
  induction pairs with
  | nil => cases hMem
  | cons pair pairs ih =>
      rw [List.map_cons, List.nodup_cons] at hNodup
      rw [List.flatMap_cons, List.filter_append, below_filter]
      rcases List.mem_cons.1 hMem with rfl | hRest
      · have hNone : (pairs.flatMap fun written => written.1.below written.2).filter
            (fun child => child.parent = some id) = [] := by
          rw [List.filter_eq_nil_iff]
          intro child hChild hParent
          obtain ⟨written, hWritten, hBelow⟩ := List.mem_flatMap.1 hChild
          obtain ⟨port, -, rfl⟩ := List.mem_map.1 hBelow
          have hId : written.2 = id := by simpa using hParent
          exact hNodup.1 (List.mem_map.2 ⟨written, hWritten, hId⟩)
        rw [if_pos rfl, hNone, List.append_nil]
      · have hNe : pair.2 ≠ id := by
          intro hEq
          exact hNodup.1 (List.mem_map.2 ⟨(entry, id), hRest, hEq.symm⟩)
        rw [if_neg hNe, ih hNodup.2 hRest, List.nil_append]

section Levels

variable {spell : Dyadic → Formulas.Spelling} [RelationalPort Own] {owner : Nat}
  {level : List (Pending Own)} {compiled : List (Option (List Char))} {table table' : PortTable}

/-- Of two lists that go together, what stands beside an item of the second. -/
theorem partner {α β : Type} {R : α → β → Prop} {l : List α} {l' : List β}
    (h : List.Forall₂ R l l') {b : β} (hb : b ∈ l') : ∃ a ∈ l, R a b := by
  induction h with
  | nil => cases hb
  | cons hHead _ ih =>
      rcases List.mem_cons.1 hb with rfl | hRest
      · exact ⟨_, List.mem_cons_self, hHead⟩
      · obtain ⟨a, ha, hR⟩ := ih hRest
        exact ⟨a, List.mem_cons_of_mem _ ha, hR⟩

/-- The table once a level is written. -/
def insert_level (owner : Nat) (level : List (Pending Own)) (compiled : List (Option (List Char)))
    (table : PortTable) : PortTable where
  rows := table.rows ++ level_rows owner table.next level compiled
  next := table.next + (level_rows owner table.next level compiled).length

omit [RelationalPort Own] in
theorem insert_level_rows : (insert_level owner level compiled table).rows =
    table.rows ++ level_rows owner table.next level compiled := rfl

/-- The row ids of a level that is written. -/
def level_ids (owner : Nat) (level : List (Pending Own)) (compiled : List (Option (List Char)))
    (table : PortTable) : List Nat :=
  (level_rows owner table.next level compiled).map PortRow.id

theorem mem_level_rows (h : compile_level spell level = .ok compiled) {row : PortRow}
    (hRow : row ∈ level_rows owner table.next level compiled) :
    row.owner = owner ∧ (∃ entry ∈ level, row.parent_id = entry.parent) ∧
      table.next ≤ row.id ∧ row.id < (insert_level owner level compiled table).next := by
  have hCopies := level_rows_copies owner table.next h
  have hIds := level_rows_ids owner table.next h
  obtain ⟨entry, hEntry, hCopy⟩ := partner hCopies hRow
  have hMem := List.mem_map_of_mem (f := PortRow.id) hRow
  have hLength := congrArg List.length hIds
  rw [hIds, List.mem_range'_1] at hMem
  rw [List.length_map, List.length_range'] at hLength
  refine ⟨hCopy.owner, ⟨entry, hEntry, hCopy.parent⟩, hMem.1, ?_⟩
  show row.id < table.next + (level_rows owner table.next level compiled).length
  omega

theorem Sound.insert_level (hSound : Sound table) (hRooted : Rooted table owner level)
    (h : compile_level spell level = .ok compiled) :
    Sound (insert_level owner level compiled table) where
  ids := by
    intro row hRow
    rcases List.mem_append.1 hRow with hOld | hNew
    · have hLt := hSound.ids row hOld
      show row.id < table.next + _
      omega
    · exact (mem_level_rows h hNew).2.2.2
  unique := by
    intro a ha b hb hEq
    rcases List.mem_append.1 ha with hOldA | hNewA <;> rcases List.mem_append.1 hb with hOldB | hNewB
    · exact hSound.unique a hOldA b hOldB hEq
    · have hLt := hSound.ids a hOldA
      have hLe := (mem_level_rows h hNewB).2.2.1
      omega
    · have hLt := hSound.ids b hOldB
      have hLe := (mem_level_rows h hNewA).2.2.1
      omega
    · have hNodup : ((level_rows owner table.next level compiled).map PortRow.id).Nodup := by
        rw [level_rows_ids owner _ h]
        exact List.nodup_range'
      exact List.inj_on_of_nodup_map hNodup hNewA hNewB hEq
  parents := by
    intro row hRow p hParent
    rcases List.mem_append.1 hRow with hOld | hNew
    · obtain ⟨parent, hMem, hId, hOwner⟩ := hSound.parents row hOld p hParent
      exact ⟨parent, List.mem_append_left _ hMem, hId, hOwner⟩
    · obtain ⟨hOwner, ⟨entry, hEntry, hEq⟩, -⟩ := mem_level_rows h hNew
      obtain ⟨parent, hMem, hId, hParentOwner⟩ := hRooted entry hEntry p (hEq.symm.trans hParent)
      exact ⟨parent, List.mem_append_left _ hMem, hId, hParentOwner.trans hOwner.symm⟩

/-- The rows of a level are the parents of the next one. -/
theorem rooted_next (h : compile_level spell level = .ok compiled) :
    Rooted (insert_level owner level compiled table) owner
      (next_level level (level_ids owner level compiled table)) := by
  intro entry hEntry p hParent
  obtain ⟨written, hWritten, hBelow⟩ := List.mem_flatMap.1 hEntry
  obtain ⟨child, -, rfl⟩ := List.mem_map.1 hBelow
  obtain ⟨row, hRow, hId⟩ := List.mem_map.1 (List.of_mem_zip hWritten).2
  refine ⟨row, List.mem_append_right _ hRow, ?_, (mem_level_rows h hRow).1⟩
  rw [hId]
  exact Option.some.inj hParent

theorem create_levels_sound : ∀ {table : PortTable}, Sound table → Rooted table owner level →
    create_levels spell owner level table = .ok table' → Sound table' := by
  induction level using level_induction with
  | nil =>
      intro table hSound _ h
      rw [create_levels_nil h]
      exact hSound
  | cons level hLevel ih =>
      intro table hSound hRooted h
      obtain ⟨compiled, hCompiled, hRest⟩ := create_levels_step hLevel h
      exact ih _ (hSound.insert_level hRooted hCompiled) (rooted_next hCompiled) hRest

/-- The children that were written under a row of a level. -/
theorem under_written {rows found : List PortRow} {ids : List Nat} (hIds : ids.Nodup)
    (hLength : ids.length ≤ level.length) {entry : Pending Own} {id : Nat}
    (hMem : (entry, id) ∈ level.zip ids)
    (hFound : List.Forall₂ (Written spell rows owner) (next_level level ids) found) :
    ShowsAll spell rows (under found owner (some id)) 0 (entry.path ++ ".") entry.port.children := by
  have hSnd : ((level.zip ids).map Prod.snd).Nodup := by
    rw [List.map_snd_zip hLength]
    exact hIds
  have hFilter : List.Forall₂ (Written spell rows owner)
      ((next_level level ids).filter fun child => child.parent = some id)
      (found.filter fun row => row.owner = owner ∧ row.parent_id = some id) := by
    refine List.rel_filter ?_ hFound
    intro child row hWritten
    simp [hWritten.owner, hWritten.parent]
  rw [next_level, next_level_filter hSnd hMem] at hFilter
  exact shows_all_of_written hFilter

/-- What the levels of a forest write: the rows of its first level, each of which shows its
port, and the rows below them. -/
theorem create_levels_writes : ∀ {table : PortTable}, Sound table → Rooted table owner level →
    create_levels spell owner level table = .ok table' →
      ∃ found deeper, table'.rows = table.rows ++ (found ++ deeper) ∧
        List.Forall₂ (Written spell table'.rows owner) level found ∧
        (∀ row ∈ found ++ deeper, row.owner = owner ∧ table.next ≤ row.id) ∧
        ∀ row ∈ deeper, ∃ p, row.parent_id = some p ∧ table.next ≤ p := by
  induction level using level_induction with
  | nil =>
      intro table _ _ h
      refine ⟨[], [], ?_, .nil, ?_, ?_⟩
      · rw [create_levels_nil h]
        exact (List.append_nil _).symm
      · intro row hRow
        cases hRow
      · intro row hRow
        cases hRow
  | cons level hLevel ih =>
      intro table hSound hRooted h
      obtain ⟨compiled, hCompiled, hRest⟩ := create_levels_step hLevel h
      obtain ⟨found, deeper, hRows, hFound, hNew, hDeeper⟩ :=
        ih _ (hSound.insert_level hRooted hCompiled) (rooted_next hCompiled) hRest
      have hCopies := level_rows_copies owner table.next hCompiled
      have hIds := level_rows_ids owner table.next hCompiled
      have hNext : table.next ≤ (insert_level owner level compiled table).next :=
        Nat.le_add_right _ _
      refine ⟨level_rows owner table.next level compiled, found ++ deeper, ?_, ?_, ?_, ?_⟩
      · rw [hRows, insert_level_rows]
        simp only [List.append_assoc]
      · rw [List.forall₂_iff_zip]
        refine ⟨hCopies.length_eq, ?_⟩
        intro entry row hZip
        have hCopy := (List.forall₂_iff_zip.1 hCopies).2 hZip
        have hRow := (List.of_mem_zip hZip).2
        obtain ⟨-, -, hLe, hLt⟩ := mem_level_rows hCompiled hRow
        have hPair : (entry, row.id) ∈ level.zip (level_ids owner level compiled table) := by
          rw [level_ids, List.zip_map_right]
          exact List.mem_map.2 ⟨(entry, row), hZip, rfl⟩
        have hNodup : (level_ids owner level compiled table).Nodup := by
          rw [level_ids, hIds]
          exact List.nodup_range'
        have hLength : (level_ids owner level compiled table).length ≤ level.length := by
          rw [level_ids, hIds, List.length_range']
        -- Whatever else was written, before and after, is not under this row.
        have hOld : under table.rows owner (some row.id) = [] := under_eq_nil (by
          intro other hOther hParent
          have hBefore := hSound.parent_lt hOther hParent
          omega)
        have hSame : under (level_rows owner table.next level compiled) owner (some row.id) = [] :=
          under_eq_nil (by
            intro other hOther hParent
            obtain ⟨-, ⟨above, hAbove, hEq⟩, -⟩ :=
              mem_level_rows hCompiled hOther
            have hBefore := hRooted.parent_lt hSound hAbove (hEq.symm.trans hParent)
            omega)
        have hLater : under deeper owner (some row.id) = [] := under_eq_nil (by
          intro other hOther hParent
          obtain ⟨p, hP, hAfter⟩ := hDeeper other hOther
          rw [hP, Option.some.injEq] at hParent
          omega)
        have hUnder : under table'.rows owner (some row.id) = under found owner (some row.id) := by
          rw [hRows, under_append, insert_level_rows, under_append, under_append, hOld, hSame, hLater]
          simp only [List.nil_append, List.append_nil]
        refine ⟨hCopy.owner, hCopy.parent, hCopy.index, shows_iff.2 ⟨hCopy.describes, ?_⟩⟩
        rw [hCopy.owner, hUnder]
        exact under_written hNodup hLength hPair hFound
      · intro row hRow
        rcases List.mem_append.1 hRow with hHere | hBelow
        · obtain ⟨hOwner, -, hLe, -⟩ := mem_level_rows hCompiled hHere
          exact ⟨hOwner, hLe⟩
        · obtain ⟨hOwner, hLe⟩ := hNew row hBelow
          exact ⟨hOwner, Nat.le_trans hNext hLe⟩
      · intro row hRow
        rcases List.mem_append.1 hRow with hHere | hBelow
        · obtain ⟨entry, hEntry, hWritten⟩ := partner hFound hHere
          obtain ⟨written, hPair, hBelow⟩ := List.mem_flatMap.1 hEntry
          obtain ⟨child, -, rfl⟩ := List.mem_map.1 hBelow
          obtain ⟨above, hAbove, hId⟩ := List.mem_map.1 (List.of_mem_zip hPair).2
          refine ⟨written.2, hWritten.parent, ?_⟩
          rw [← hId]
          exact (mem_level_rows hCompiled hAbove).2.2.1
        · obtain ⟨p, hP, hLe⟩ := hDeeper row hBelow
          exact ⟨p, hP, Nat.le_trans hNext hLe⟩

end Levels

/-! ## What an owner's rows show is theirs alone -/

section Owners

variable {spell : Dyadic → Formulas.Spelling} [RelationalPort Own] {owner : Nat}
  {table table' : PortTable} {rows rows' : List PortRow}

/-- The rows of an owner. -/
def of_owner (rows : List PortRow) (owner : Nat) : List PortRow :=
  rows.filter fun row => row.owner = owner

theorem under_of_owner (rows : List PortRow) (owner : Nat) (parent : Option Nat) :
    under rows owner parent = (of_owner rows owner).filter fun row => row.parent_id = parent := by
  rw [under, of_owner, List.filter_filter]
  congr 1
  funext row
  rw [← Bool.decide_and, decide_eq_decide]
  exact and_comm

theorem under_same (h : of_owner rows owner = of_owner rows' owner) (parent : Option Nat) :
    under rows owner parent = under rows' owner parent := by
  rw [under_of_owner, under_of_owner, h]

theorem shows_all_same {ports : List (Port Own)}
    (hPorts : ∀ port ∈ ports, ∀ row path, row.owner = owner →
      Shows spell rows row path port → Shows spell rows' row path port) :
    ∀ {found : List PortRow} {n : Nat} {above : String}, (∀ row ∈ found, row.owner = owner) →
      ShowsAll spell rows found n above ports → ShowsAll spell rows' found n above ports := by
  induction ports with
  | nil =>
      intro found n above _ h
      cases found with
      | nil => trivial
      | cons row found => exact h.elim
  | cons port ports ih =>
      intro found n above hFound h
      cases found with
      | nil => exact h.elim
      | cons row found =>
          obtain ⟨⟨hIndex, hShows⟩, hRest⟩ := h
          refine ⟨⟨hIndex, ?_⟩, ?_⟩
          · exact hPorts port List.mem_cons_self row _ (hFound row List.mem_cons_self) hShows
          · exact ih (fun other hOther => hPorts other (List.mem_cons_of_mem _ hOther))
              (fun other hOther => hFound other (List.mem_cons_of_mem _ hOther)) hRest

theorem owner_of_under {row : PortRow} {parent : Option Nat} (h : row ∈ under rows owner parent) :
    row.owner = owner := (of_decide_eq_true (List.mem_filter.1 h).2).1

/-- A row shows what it shows by the rows of its owner. -/
theorem shows_same (h : of_owner rows owner = of_owner rows' owner) (port : Port Own) :
    ∀ row path, row.owner = owner →
      Shows spell rows row path port → Shows spell rows' row path port := by
  induction port using Port.ind with
  | mk fields own children ih =>
      intro row path hOwner hShows
      obtain ⟨hDescribes, hChildren⟩ := shows_iff.1 hShows
      refine shows_iff.2 ⟨hDescribes, ?_⟩
      rw [hOwner] at hChildren ⊢
      rw [← under_same h]
      exact shows_all_same ih (fun row hRow => owner_of_under hRow) hChildren

theorem shows_ports_same (h : of_owner rows owner = of_owner rows' owner) {ports : List (Port Own)}
    (hShows : ShowsPorts spell rows owner ports) : ShowsPorts spell rows' owner ports := by
  rw [ShowsPorts, ← under_same h]
  exact shows_all_same (fun port _ => shows_same h port) (fun row hRow => owner_of_under hRow) hShows

/-! ## The rows of an owner, written and deleted -/

omit [RelationalPort Own] in
theorem rooted_root (table : PortTable) (owner : Nat) (ports : List (Port Own)) :
    Rooted table owner (root_level ports) := by
  intro entry hEntry p hParent
  obtain ⟨port, -, rfl⟩ := List.mem_map.1 hEntry
  cases hParent

omit [RelationalPort Own] in
theorem root_level_eq (ports : List (Port Own)) :
    root_level ports = ports.zipIdx.map fun port =>
      { port := port.1, parent := none, index := port.2, path := "" ++ port.1.key } := by
  simp only [root_level, String.empty_append]

/-- What `create_ports_level_by_level` writes for an owner without rows: rows that show its
ports, of this owner alone. -/
theorem create_ports_writes {ports : List (Port Own)} (hSound : Sound table)
    (hNone : of_owner table.rows owner = [])
    (h : create_ports_level_by_level spell ports owner table = .ok table') :
    Sound table' ∧ ShowsPorts spell table'.rows owner ports ∧
      ∃ written, table'.rows = table.rows ++ written ∧ ∀ row ∈ written, row.owner = owner := by
  have hRooted := rooted_root table owner ports
  obtain ⟨found, deeper, hRows, hFound, hNew, hDeeper⟩ := create_levels_writes hSound hRooted h
  refine ⟨create_levels_sound hSound hRooted h, ?_, found ++ deeper, hRows, fun row hRow =>
    (hNew row hRow).1⟩
  have hOld : under table.rows owner none = [] := by
    rw [under_of_owner, hNone]
    rfl
  have hAll : under found owner none = found := by
    rw [under, List.filter_eq_self]
    intro row hRow
    obtain ⟨entry, hEntry, hWritten⟩ := partner hFound hRow
    obtain ⟨port, -, rfl⟩ := List.mem_map.1 hEntry
    exact decide_eq_true ⟨hWritten.owner, hWritten.parent⟩
  have hLater : under deeper owner none = [] := under_eq_nil (by
    intro row hRow hParent
    obtain ⟨p, hP, -⟩ := hDeeper row hRow
    rw [hP] at hParent
    cases hParent)
  have hUnder : under table'.rows owner none = found := by
    rw [hRows, under_append, under_append, hOld, hAll, hLater, List.nil_append, List.append_nil]
  rw [ShowsPorts, hUnder]
  rw [root_level_eq] at hFound
  exact shows_all_of_written hFound

theorem of_owner_append_other {written : List PortRow} {other : Nat} (hOther : other ≠ owner)
    (hWritten : ∀ row ∈ written, row.owner = owner) :
    of_owner (rows ++ written) other = of_owner rows other := by
  have hNone : written.filter (fun row => row.owner = other) = [] := by
    rw [List.filter_eq_nil_iff]
    intro row hRow hIs
    have hEq : row.owner = other := of_decide_eq_true hIs
    exact hOther (hEq.symm.trans (hWritten row hRow))
  rw [of_owner, List.filter_append, hNone, List.append_nil]
  rfl

theorem of_owner_delete (table : PortTable) (owner : Nat) :
    of_owner (table.delete owner).rows owner = [] := by
  rw [of_owner, PortTable.delete, List.filter_filter, List.filter_eq_nil_iff]
  intro row _
  by_cases h : row.owner = owner <;> simp [h]

theorem of_owner_delete_other {other : Nat} (hOther : other ≠ owner) (table : PortTable) :
    of_owner (table.delete owner).rows other = of_owner table.rows other := by
  rw [of_owner, PortTable.delete, List.filter_filter, of_owner]
  congr 1
  funext row
  by_cases h : row.owner = other
  · simp [h, hOther]
  · simp [h]

theorem Sound.delete (h : Sound table) (owner : Nat) : Sound (table.delete owner) where
  ids row hRow := h.ids row (List.mem_filter.1 hRow).1
  unique := h.unique.filter _
  parents := by
    intro row hRow p hParent
    obtain ⟨hMem, hOwner⟩ := List.mem_filter.1 hRow
    obtain ⟨parent, hParentMem, hId, hSame⟩ := h.parents row hMem p hParent
    refine ⟨parent, List.mem_filter.2 ⟨hParentMem, ?_⟩, hId, hSame⟩
    rw [hSame]
    exact hOwner

/-! ## A run of writes -/

/-- The ports of an owner are written anew, or deleted. -/
inductive Write (Own : Type)
  | rebuild (owner : Nat) (ports : List (Port Own))
  | delete (owner : Nat)

/-- The rows of a write: those the owner had are deleted. -/
def PortTable.write (spell : Dyadic → Formulas.Spelling) (table : PortTable) :
    Write Own → Except String PortTable
  | .rebuild owner ports => create_ports_level_by_level spell ports owner (table.delete owner)
  | .delete owner => .ok (table.delete owner)

/-- The ports each owner has, after a write. -/
def Write.note (declared : Nat → List (Port Own)) (write : Write Own) (other : Nat) :
    List (Port Own) :=
  match write with
  | .rebuild owner ports => if other = owner then ports else declared other
  | .delete owner => if other = owner then [] else declared other

/-- **Step lemma**: a write shows the ports it is given, and those of the others as before. -/
theorem write_shows {declared : Nat → List (Port Own)} {write : Write Own} (hSound : Sound table)
    (hShows : ∀ other, ShowsPorts spell table.rows other (declared other))
    (h : table.write spell write = .ok table') :
    Sound table' ∧ ∀ other, ShowsPorts spell table'.rows other (write.note declared other) := by
  cases write with
  | rebuild owner ports =>
      obtain ⟨hSound', hNew, written, hRows, hOwner⟩ :=
        create_ports_writes (hSound.delete owner) (of_owner_delete table owner) h
      refine ⟨hSound', ?_⟩
      intro other
      by_cases hIs : other = owner
      · rw [Write.note, if_pos hIs, hIs]
        exact hNew
      · rw [Write.note, if_neg hIs]
        refine shows_ports_same ?_ (hShows other)
        rw [hRows, of_owner_append_other hIs hOwner, of_owner_delete_other hIs]
  | delete owner =>
      cases h
      refine ⟨hSound.delete owner, ?_⟩
      intro other
      by_cases hIs : other = owner
      · rw [Write.note, if_pos hIs, hIs, ShowsPorts, under_of_owner, of_owner_delete]
        trivial
      · rw [Write.note, if_neg hIs]
        exact shows_ports_same (of_owner_delete_other hIs table).symm (hShows other)

theorem writes_show {writes : List (Write Own)} : ∀ {table : PortTable}
    {declared : Nat → List (Port Own)}, Sound table →
      (∀ other, ShowsPorts spell table.rows other (declared other)) →
      writes.foldlM (PortTable.write spell) table = .ok table' →
      Sound table' ∧
        ∀ other, ShowsPorts spell table'.rows other (writes.foldl Write.note declared other) := by
  induction writes with
  | nil =>
      intro table declared hSound hShows h
      cases h
      exact ⟨hSound, hShows⟩
  | cons write rest ih =>
      intro table declared hSound hShows h
      rw [List.foldlM_cons] at h
      obtain ⟨next, hNext, hRest⟩ := Ports.bind_ok h
      obtain ⟨hSound', hShows'⟩ := write_shows hSound hShows hNext
      exact ih hSound' hShows' hRest

end Owners

end Rekuest.Demands
