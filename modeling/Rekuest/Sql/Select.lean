import Mathlib.Data.List.Basic

/-!
# Statements of a database

The part of SQL that filters are built of: a `SELECT` whose condition compares columns and
bound values, asks whether rows are there in other tables, joined and correlated with the row
outside, and counts them.  A condition is true, false or unknown; a comparison with NULL is
unknown, and a row is selected only where the condition is true.

A statement is written with a name in the place of each value, and the values are given
beside it in a dictionary.  A driver takes names, or a list of the values in the order of
their places; the two say the same where each name has the value its place was written for.
-/

namespace Sql

/-! ## Truth -/

/-- True, false or unknown. -/
abbrev Truth := Option Bool

def both : Truth → Truth → Truth
  | some false, _ => some false
  | _, some false => some false
  | some true, some true => some true
  | _, _ => none

def either : Truth → Truth → Truth
  | some true, _ => some true
  | _, some true => some true
  | some false, some false => some false
  | _, _ => none

@[simp] theorem both_eq_true {p q : Truth} :
    both p q = some true ↔ p = some true ∧ q = some true := by
  rcases p with _ | _ | _ <;> rcases q with _ | _ | _ <;> simp [both]

@[simp] theorem either_eq_true {p q : Truth} :
    either p q = some true ↔ p = some true ∨ q = some true := by
  rcases p with _ | _ | _ <;> rcases q with _ | _ | _ <;> simp [either]

/-! ## The grammar -/

section Grammar

-- Values, tables and columns, and what stands in the place of a value.
variable (V T C κ : Type)

/-- What has a value: NULL is none.  A function carries its text, around and between its
arguments, and what it computes; so does a test, with the text before each argument. -/
inductive Term
  | column (row : String) (name : C)
  | bare (row : String) (name : C)
  | place (key : κ)
  | literal (text : String) (value : V)
  | apply (before after : String) (f : Option V → Option V) (arg : Term)
  | combine (before between after : String) (f : Option V → Option V → Option V) (left right : Term)

mutual

inductive Cond
  | test (holds : List (Option V) → Truth) (args : List (String × Term V C κ)) (after : String)
  | and (left right : Cond)
  | or (left right : Cond)
  | group (c : Cond)
  | some_row (source : Source) (where_ : Cond)
  | no_row (source : Source) (where_ : Cond)
  | count (equals : Nat → Option V → Truth) (source : Source) (where_ : Cond) (n : Term V C κ)
  | among (equals : Option V → Option V → Truth) (t : Term V C κ) (row : String) (name : C)
      (source : Source) (where_ : Cond)

/-- What a `FROM` names; a set-returning function stands in it with its text and its rows. -/
inductive Source
  | table (t : T) (row : Option String)
  | rows_of (before after : String) (rows : Option V → List (C → Option V)) (arg : Term V C κ)
      (row : String)
  | join (source : Source) (t : T) (row : String) (on : Cond)
  | left_join (source : Source) (t : T) (row : String) (on : Cond)

end

end Grammar

/-- `SELECT column FROM source WHERE condition`. -/
structure Select (V T C κ : Type) where
  selected : Term V C κ
  source : Source V T C κ
  condition : Cond V T C κ

/-! ## What is in the place of values -/

section Places

variable {V T C κ κ' : Type}

section Map

variable (f : κ → κ')

def Term.map : Term V C κ → Term V C κ'
  | .column row name => .column row name
  | .bare row name => .bare row name
  | .place key => .place (f key)
  | .literal text value => .literal text value
  | .apply before after g arg => .apply before after g arg.map
  | .combine before between after g left right => .combine before between after g left.map right.map

mutual

def Cond.map : Cond V T C κ → Cond V T C κ'
  | .test holds args after => .test holds (args.map fun arg => (arg.1, arg.2.map f)) after
  | .and left right => .and left.map right.map
  | .or left right => .or left.map right.map
  | .group c => .group c.map
  | .some_row source where_ => .some_row source.map where_.map
  | .no_row source where_ => .no_row source.map where_.map
  | .count equals source where_ n => .count equals source.map where_.map (n.map f)
  | .among equals t row name source where_ =>
      .among equals (t.map f) row name source.map where_.map

def Source.map : Source V T C κ → Source V T C κ'
  | .table t row => .table t row
  | .rows_of before after rows arg row => .rows_of before after rows (arg.map f) row
  | .join source t row on => .join source.map t row on.map
  | .left_join source t row on => .left_join source.map t row on.map

end

def Select.map (s : Select V T C κ) : Select V T C κ' where
  selected := s.selected.map f
  source := s.source.map f
  condition := s.condition.map f

end Map

/-- The places, in the order of the text. -/
def Term.places : Term V C κ → List κ
  | .column _ _ | .bare _ _ | .literal _ _ => []
  | .place key => [key]
  | .apply _ _ _ arg => arg.places
  | .combine _ _ _ _ left right => left.places ++ right.places

mutual

def Cond.places : Cond V T C κ → List κ
  | .test _ args _ => args.flatMap fun arg => arg.2.places
  | .and left right | .or left right => left.places ++ right.places
  | .group c => c.places
  | .some_row source where_ | .no_row source where_ => source.places ++ where_.places
  | .count _ source where_ n => source.places ++ (where_.places ++ n.places)
  | .among _ t _ _ source where_ => t.places ++ (source.places ++ where_.places)

def Source.places : Source V T C κ → List κ
  | .table _ _ => []
  | .rows_of _ _ _ arg _ => arg.places
  | .join source _ _ on | .left_join source _ _ on => source.places ++ on.places

end

def Select.places (s : Select V T C κ) : List κ :=
  s.selected.places ++ (s.source.places ++ s.condition.places)

/-! ### The places of a written-out statement -/

@[simp] theorem Term.places_map (f : κ → κ') (t : Term V C κ) : (t.map f).places = t.places.map f := by
  induction t with
  | column _ _ | bare _ _ | literal _ _ | place _ => rfl
  | apply before after g arg ih => exact ih
  | combine before between after g left right ihLeft ihRight =>
      show (left.map f).places ++ (right.map f).places = (left.places ++ right.places).map f
      rw [ihLeft, ihRight, List.map_append]

mutual

theorem Cond.places_map (f : κ → κ') : ∀ c : Cond V T C κ, (c.map f).places = c.places.map f
  | .test _ args _ => by
      show (args.map fun arg => (arg.1, arg.2.map f)).flatMap (fun arg => arg.2.places) =
        (args.flatMap fun arg => arg.2.places).map f
      rw [List.flatMap_map, List.map_flatMap]
      congr 1
      funext arg
      exact arg.2.places_map f
  | .and left right => by
      simp only [Cond.map, Cond.places, Cond.places_map f left, Cond.places_map f right, List.map_append]
  | .or left right => by
      simp only [Cond.map, Cond.places, Cond.places_map f left, Cond.places_map f right, List.map_append]
  | .group c => Cond.places_map f c
  | .some_row source where_ => by
      simp only [Cond.map, Cond.places, Source.places_map f source, Cond.places_map f where_,
        List.map_append]
  | .no_row source where_ => by
      simp only [Cond.map, Cond.places, Source.places_map f source, Cond.places_map f where_,
        List.map_append]
  | .count _ source where_ n => by
      simp only [Cond.map, Cond.places, Source.places_map f source, Cond.places_map f where_,
        Term.places_map, List.map_append]
  | .among _ t _ _ source where_ => by
      simp only [Cond.map, Cond.places, Source.places_map f source, Cond.places_map f where_,
        Term.places_map, List.map_append]

theorem Source.places_map (f : κ → κ') : ∀ s : Source V T C κ, (s.map f).places = s.places.map f
  | .table _ _ => rfl
  | .rows_of _ _ _ arg _ => arg.places_map f
  | .join source _ _ on => by
      simp only [Source.map, Source.places, Source.places_map f source, Cond.places_map f on,
        List.map_append]
  | .left_join source _ _ on => by
      simp only [Source.map, Source.places, Source.places_map f source, Cond.places_map f on,
        List.map_append]

end

theorem Select.places_map (f : κ → κ') (s : Select V T C κ) :
    (s.map f).places = s.places.map f := by
  simp only [Select.map, Select.places, Term.places_map, Source.places_map, Cond.places_map,
    List.map_append]

end Places

/-! ## What a statement says -/

section Meaning

variable {V T C : Type}

/-- The row each name stands for. -/
abbrev Env (V C : Type) := String → C → Option V

def Env.set (env : Env V C) (row : String) (columns : C → Option V) : Env V C :=
  fun other => if other = row then columns else env other

@[simp] theorem Env.set_self (env : Env V C) (row : String) (columns : C → Option V) :
    env.set row columns row = columns := if_pos rfl

theorem Env.set_ne (env : Env V C) {row other : String} (columns : C → Option V)
    (h : other ≠ row) : env.set row columns other = env other := if_neg h

-- The name of a table, and its rows.
variable (name : T → String) (tables : T → List (C → Option V))

def Term.value (env : Env V C) : Term V C V → Option V
  | .column row name | .bare row name => env row name
  | .place value => some value
  | .literal _ value => some value
  | .apply _ _ f arg => f (arg.value env)
  | .combine _ _ _ f left right => f (left.value env) (right.value env)

/-- `t IN (…)` of the values in the parentheses. -/
def among (equals : Option V → Option V → Truth) (value : Option V) (values : List (Option V)) :
    Truth :=
  values.foldr (fun other rest => either (equals value other) rest) (some false)

mutual

def Cond.meaning : Cond V T C V → Env V C → Truth
  | .test holds args _, env => holds (args.map fun arg => arg.2.value env)
  | .and left right, env => both (left.meaning env) (right.meaning env)
  | .or left right, env => either (left.meaning env) (right.meaning env)
  | .group c, env => c.meaning env
  | .some_row source where_, env =>
      some ((source.rows env).any fun inner => where_.meaning inner = some true)
  | .no_row source where_, env =>
      some (!(source.rows env).any fun inner => where_.meaning inner = some true)
  | .count equals source where_ n, env =>
      equals ((source.rows env).countP fun inner => where_.meaning inner = some true) (n.value env)
  | .among equals t row column source where_, env =>
      among equals (t.value env)
        (((source.rows env).filter fun inner => where_.meaning inner = some true).map
          fun inner => inner row column)

/-- The rows a `FROM` runs through, each beside the rows outside. -/
def Source.rows : Source V T C V → Env V C → List (Env V C)
  | .table t row, env => (tables t).map (env.set (row.getD (name t)))
  | .rows_of _ _ rows arg row, env => (rows (arg.value env)).map (env.set row)
  | .join source t row on, env =>
      (source.rows env).flatMap fun inner =>
        ((tables t).map (inner.set row)).filter fun joined => on.meaning joined = some true
  | .left_join source t row on, env =>
      (source.rows env).flatMap fun inner =>
        let found := ((tables t).map (inner.set row)).filter fun joined =>
          on.meaning joined = some true
        if found.isEmpty then [inner.set row fun _ => none] else found

end

/-- What a statement selects. -/
def Select.values (s : Select V T C V) (env : Env V C) : List (Option V) :=
  ((s.source.rows name tables env).filter fun inner =>
    s.condition.meaning name tables inner = some true).map s.selected.value

variable {name tables} {env : Env V C}

@[simp] theorem meaning_and {left right : Cond V T C V} :
    (Cond.and left right).meaning name tables env = some true ↔
      left.meaning name tables env = some true ∧ right.meaning name tables env = some true := by
  rw [Cond.meaning, both_eq_true]

@[simp] theorem meaning_or {left right : Cond V T C V} :
    (Cond.or left right).meaning name tables env = some true ↔
      left.meaning name tables env = some true ∨ right.meaning name tables env = some true := by
  rw [Cond.meaning, either_eq_true]

@[simp] theorem meaning_group {c : Cond V T C V} :
    (Cond.group c).meaning name tables env = some true ↔ c.meaning name tables env = some true := by
  rw [Cond.meaning]

theorem meaning_some_row {source : Source V T C V} {where_ : Cond V T C V} :
    (Cond.some_row source where_).meaning name tables env = some true ↔
      ∃ inner ∈ source.rows name tables env, where_.meaning name tables inner = some true := by
  rw [Cond.meaning, Option.some.injEq, List.any_eq_true]
  simp only [decide_eq_true_eq]

theorem meaning_no_row {source : Source V T C V} {where_ : Cond V T C V} :
    (Cond.no_row source where_).meaning name tables env = some true ↔
      ∀ inner ∈ source.rows name tables env, ¬ where_.meaning name tables inner = some true := by
  rw [Cond.meaning, Option.some.injEq, Bool.not_eq_true', List.any_eq_false]
  simp only [decide_eq_true_eq]

theorem mem_table {t : T} {row : Option String} {inner : Env V C} :
    inner ∈ (Source.table t row : Source V T C V).rows name tables env ↔
      ∃ columns ∈ tables t, inner = env.set (row.getD (name t)) columns := by
  rw [Source.rows, List.mem_map]
  constructor
  · rintro ⟨columns, hMem, rfl⟩
    exact ⟨columns, hMem, rfl⟩
  · rintro ⟨columns, hMem, rfl⟩
    exact ⟨columns, hMem, rfl⟩

theorem mem_join {source : Source V T C V} {t : T} {row : String} {on : Cond V T C V}
    {inner : Env V C} :
    inner ∈ (Source.join source t row on).rows name tables env ↔
      ∃ outer ∈ source.rows name tables env, ∃ columns ∈ tables t,
        inner = outer.set row columns ∧ on.meaning name tables inner = some true := by
  rw [Source.rows, List.mem_flatMap]
  constructor
  · rintro ⟨outer, hOuter, hMem⟩
    obtain ⟨hRow, hOn⟩ := List.mem_filter.1 hMem
    obtain ⟨columns, hColumns, rfl⟩ := List.mem_map.1 hRow
    exact ⟨outer, hOuter, columns, hColumns, rfl, of_decide_eq_true hOn⟩
  · rintro ⟨outer, hOuter, columns, hColumns, rfl, hOn⟩
    exact ⟨outer, hOuter,
      List.mem_filter.2 ⟨List.mem_map.2 ⟨columns, hColumns, rfl⟩, decide_eq_true hOn⟩⟩

/-- A row of a left join has a partner, or stands alone because there is none. -/
theorem mem_left_join {source : Source V T C V} {t : T} {row : String} {on : Cond V T C V}
    {inner : Env V C} :
    inner ∈ (Source.left_join source t row on).rows name tables env ↔
      ∃ outer ∈ source.rows name tables env,
        (∃ columns ∈ tables t,
          inner = outer.set row columns ∧ on.meaning name tables inner = some true) ∨
        (∀ columns ∈ tables t, ¬ on.meaning name tables (outer.set row columns) = some true) ∧
          inner = outer.set row fun _ => none := by
  rw [Source.rows, List.mem_flatMap]
  constructor
  · rintro ⟨outer, hOuter, hMem⟩
    refine ⟨outer, hOuter, ?_⟩
    dsimp only at hMem
    split at hMem
    case isTrue hEmpty =>
      right
      rw [List.isEmpty_iff, List.filter_eq_nil_iff] at hEmpty
      refine ⟨?_, List.mem_singleton.1 hMem⟩
      intro columns hColumns hOn
      exact hEmpty _ (List.mem_map.2 ⟨columns, hColumns, rfl⟩) (decide_eq_true hOn)
    case isFalse =>
      left
      obtain ⟨hRow, hOn⟩ := List.mem_filter.1 hMem
      obtain ⟨columns, hColumns, rfl⟩ := List.mem_map.1 hRow
      exact ⟨columns, hColumns, rfl, of_decide_eq_true hOn⟩
  · rintro ⟨outer, hOuter, hCase⟩
    refine ⟨outer, hOuter, ?_⟩
    dsimp only
    rcases hCase with ⟨columns, hColumns, rfl, hOn⟩ | ⟨hNone, rfl⟩
    · have hFound : outer.set row columns ∈ ((tables t).map (outer.set row)).filter fun joined =>
          on.meaning name tables joined = some true :=
        List.mem_filter.2 ⟨List.mem_map.2 ⟨columns, hColumns, rfl⟩, decide_eq_true hOn⟩
      rw [if_neg]
      · exact hFound
      · intro hEmpty
        rw [List.isEmpty_iff.1 hEmpty] at hFound
        cases hFound
    · rw [if_pos]
      · exact List.mem_singleton.2 rfl
      · rw [List.isEmpty_iff, List.filter_eq_nil_iff]
        intro joined hJoined hOn
        obtain ⟨columns, hColumns, rfl⟩ := List.mem_map.1 hJoined
        exact hNone columns hColumns (by simpa using hOn)

end Meaning

/-! ## Values in the order of their places -/

section Fill

variable {V T C κ : Type}

/-- A term with the first values of a list in its places, and the values left over. -/
def Term.fill : Term V C κ → List V → Option (Term V C V × List V)
  | .column row name, values => some (.column row name, values)
  | .bare row name, values => some (.bare row name, values)
  | .place _, [] => none
  | .place _, value :: values => some (.place value, values)
  | .literal text value, values => some (.literal text value, values)
  | .apply before after f arg, values => do
      let (arg, values) ← arg.fill values
      return (.apply before after f arg, values)
  | .combine before between after f left right, values => do
      let (left, values) ← left.fill values
      let (right, values) ← right.fill values
      return (.combine before between after f left right, values)

def fill_args : List (String × Term V C κ) → List V → Option (List (String × Term V C V) × List V)
  | [], values => some ([], values)
  | (text, t) :: rest, values => do
      let (t, values) ← t.fill values
      let (rest, values) ← fill_args rest values
      return ((text, t) :: rest, values)

mutual

def Cond.fill : Cond V T C κ → List V → Option (Cond V T C V × List V)
  | .test holds args after, values => do
      let (args, values) ← fill_args args values
      return (.test holds args after, values)
  | .and left right, values => do
      let (left, values) ← left.fill values
      let (right, values) ← right.fill values
      return (.and left right, values)
  | .or left right, values => do
      let (left, values) ← left.fill values
      let (right, values) ← right.fill values
      return (.or left right, values)
  | .group c, values => do
      let (c, values) ← c.fill values
      return (.group c, values)
  | .some_row source where_, values => do
      let (source, values) ← source.fill values
      let (where_, values) ← where_.fill values
      return (.some_row source where_, values)
  | .no_row source where_, values => do
      let (source, values) ← source.fill values
      let (where_, values) ← where_.fill values
      return (.no_row source where_, values)
  | .count equals source where_ n, values => do
      let (source, values) ← source.fill values
      let (where_, values) ← where_.fill values
      let (n, values) ← n.fill values
      return (.count equals source where_ n, values)
  | .among equals t row name source where_, values => do
      let (t, values) ← t.fill values
      let (source, values) ← source.fill values
      let (where_, values) ← where_.fill values
      return (.among equals t row name source where_, values)

def Source.fill : Source V T C κ → List V → Option (Source V T C V × List V)
  | .table t row, values => some (.table t row, values)
  | .rows_of before after rows arg row, values => do
      let (arg, values) ← arg.fill values
      return (.rows_of before after rows arg row, values)
  | .join source t row on, values => do
      let (source, values) ← source.fill values
      let (on, values) ← on.fill values
      return (.join source t row on, values)
  | .left_join source t row on, values => do
      let (source, values) ← source.fill values
      let (on, values) ← on.fill values
      return (.left_join source t row on, values)

end

/-- A statement with the first values of a list in its places, and the others. -/
def Select.fill_first (s : Select V T C κ) (values : List V) :
    Option (Select V T C V × List V) := do
  let (selected, values) ← s.selected.fill values
  let (source, values) ← s.source.fill values
  let (condition, values) ← s.condition.fill values
  return (⟨selected, source, condition⟩, values)

/-- A statement with the values of a list in its places, one for each. -/
def Select.fill (s : Select V T C κ) (values : List V) : Option (Select V T C V) := do
  let (s, values) ← s.fill_first values
  if values.isEmpty then return s else none

/-- Statements one after the other with the values of one list in their places. -/
def fill_all : List (Select V T C κ) → List V → Option (List (Select V T C V))
  | [], values => if values.isEmpty then some [] else none
  | s :: rest, values => do
      let (s, values) ← s.fill_first values
      let rest ← fill_all rest values
      return s :: rest

/-! ### A statement written with a name and a value in each place -/

variable {rest : List V}

theorem Term.fill_map (t : Term V C (κ × V)) :
    (t.map Prod.fst).fill (t.places.map Prod.snd ++ rest) = some (t.map Prod.snd, rest) := by
  induction t generalizing rest with
  | column _ _ | bare _ _ | literal _ _ | place _ => rfl
  | apply before after g arg ih => simp only [Term.map, Term.places, Term.fill, ih]; rfl
  | combine before between after g left right ihLeft ihRight =>
      simp only [Term.map, Term.places, Term.fill, List.map_append, List.append_assoc, ihLeft]
      show ((right.map Prod.fst).fill (right.places.map Prod.snd ++ rest)).bind _ = _
      rw [ihRight]
      rfl

theorem fill_args_map (args : List (String × Term V C (κ × V))) :
    fill_args (args.map fun arg => (arg.1, arg.2.map Prod.fst))
        ((args.flatMap fun arg => arg.2.places).map Prod.snd ++ rest) =
      some (args.map fun arg => (arg.1, arg.2.map Prod.snd), rest) := by
  induction args with
  | nil => rfl
  | cons arg args ih =>
      simp only [List.map_cons, List.flatMap_cons, fill_args, List.map_append, List.append_assoc,
        Term.fill_map]
      show (fill_args (args.map fun arg => (arg.1, arg.2.map Prod.fst)) _).bind _ = _
      rw [ih]
      rfl

mutual

theorem Cond.fill_map : ∀ (c : Cond V T C (κ × V)) (rest : List V),
    (c.map Prod.fst).fill (c.places.map Prod.snd ++ rest) = some (c.map Prod.snd, rest)
  | .test _ args _, rest => by
      simp only [Cond.map, Cond.places, Cond.fill, fill_args_map]; rfl
  | .and left right, rest => by
      simp [Cond.map, Cond.places, Cond.fill, List.append_assoc, Cond.fill_map left,
        Cond.fill_map right]
  | .or left right, rest => by
      simp [Cond.map, Cond.places, Cond.fill, List.append_assoc, Cond.fill_map left,
        Cond.fill_map right]
  | .group c, rest => by
      simp [Cond.map, Cond.places, Cond.fill, Cond.fill_map c]
  | .some_row source where_, rest => by
      simp [Cond.map, Cond.places, Cond.fill, List.append_assoc, Source.fill_map source,
        Cond.fill_map where_]
  | .no_row source where_, rest => by
      simp [Cond.map, Cond.places, Cond.fill, List.append_assoc, Source.fill_map source,
        Cond.fill_map where_]
  | .count _ source where_ n, rest => by
      simp [Cond.map, Cond.places, Cond.fill, List.append_assoc, Source.fill_map source,
        Cond.fill_map where_, Term.fill_map n]
  | .among _ t _ _ source where_, rest => by
      simp [Cond.map, Cond.places, Cond.fill, List.append_assoc, Source.fill_map source,
        Cond.fill_map where_, Term.fill_map t]

theorem Source.fill_map : ∀ (s : Source V T C (κ × V)) (rest : List V),
    (s.map Prod.fst).fill (s.places.map Prod.snd ++ rest) = some (s.map Prod.snd, rest)
  | .table _ _, _ => rfl
  | .rows_of _ _ _ arg _, rest => by
      simp [Source.map, Source.places, Source.fill, Term.fill_map arg]
  | .join source _ _ on, rest => by
      simp [Source.map, Source.places, Source.fill, List.append_assoc, Source.fill_map source,
        Cond.fill_map on]
  | .left_join source _ _ on, rest => by
      simp [Source.map, Source.places, Source.fill, List.append_assoc, Source.fill_map source,
        Cond.fill_map on]

end

/-- The values of a statement's places, in order, are the values it was written for. -/
theorem Select.fill_first_map (s : Select V T C (κ × V)) :
    (s.map Prod.fst).fill_first (s.places.map Prod.snd ++ rest) =
      some (s.map Prod.snd, rest) := by
  simp only [Select.fill_first, Select.map, Select.places, List.map_append, List.append_assoc,
    Term.fill_map, Source.fill_map, Cond.fill_map, Option.bind_eq_bind, Option.bind_some,
    Option.pure_def]

theorem Select.fill_map (s : Select V T C (κ × V)) :
    (s.map Prod.fst).fill (s.places.map Prod.snd) = some (s.map Prod.snd) := by
  have hFirst : (s.map Prod.fst).fill_first (s.places.map Prod.snd ++ []) =
      some (s.map Prod.snd, []) := s.fill_first_map
  rw [List.append_nil] at hFirst
  rw [Select.fill, hFirst]
  rfl

theorem fill_all_map (selects : List (Select V T C (κ × V))) :
    fill_all (selects.map (Select.map Prod.fst))
        (selects.flatMap fun s => s.places.map Prod.snd) =
      some (selects.map (Select.map Prod.snd)) := by
  induction selects with
  | nil => rfl
  | cons s rest ih =>
      rw [List.map_cons, List.flatMap_cons, fill_all, s.fill_first_map]
      show (fill_all _ _).bind _ = _
      rw [ih]
      rfl

end Fill

/-! ## The text of a statement -/

section Text

variable {V T C κ κ' : Type}

inductive Piece (κ : Type)
  | text (s : String)
  | place (key : κ)

def Piece.map (f : κ → κ') : Piece κ → Piece κ'
  | .text s => .text s
  | .place key => .place (f key)

/-- The places of pieces. -/
def places : List (Piece κ) → List κ
  | [] => []
  | .text _ :: rest => places rest
  | .place key :: rest => key :: places rest

-- The names of tables and of columns.
variable (table : T → String) (column : C → String)

def Term.pieces : Term V C κ → List (Piece κ)
  | .column row name => [.text (row ++ "." ++ column name)]
  | .bare _ name => [.text (column name)]
  | .place key => [.place key]
  | .literal text _ => [.text text]
  | .apply before after _ arg => .text before :: (arg.pieces ++ [.text after])
  | .combine before between after _ left right =>
      .text before :: (left.pieces ++ (.text between :: (right.pieces ++ [.text after])))

mutual

def Cond.pieces : Cond V T C κ → List (Piece κ)
  | .test _ args after =>
      args.flatMap (fun arg => .text arg.1 :: arg.2.pieces column) ++ [.text after]
  | .and left right => left.pieces ++ (.text " AND " :: right.pieces)
  | .or left right => .text "(" :: (left.pieces ++ (.text " OR " :: (right.pieces ++ [.text ")"])))
  | .group c => .text "(" :: (c.pieces ++ [.text ")"])
  | .some_row source where_ =>
      .text "EXISTS (SELECT 1 FROM " ::
        (source.pieces ++ (.text " WHERE " :: (where_.pieces ++ [.text ")"])))
  | .no_row source where_ =>
      .text "NOT EXISTS (SELECT 1 FROM " ::
        (source.pieces ++ (.text " WHERE " :: (where_.pieces ++ [.text ")"])))
  | .count _ source where_ n =>
      .text "(SELECT COUNT(*) FROM " ::
        (source.pieces ++ (.text " WHERE " :: (where_.pieces ++ (.text ") = " :: n.pieces column))))
  | .among _ t _ name source where_ =>
      t.pieces column ++ (.text " IN (SELECT " :: .text (column name) :: .text " FROM " ::
        (source.pieces ++ (.text " WHERE " :: (where_.pieces ++ [.text ")"]))))

def Source.pieces : Source V T C κ → List (Piece κ)
  | .table t none => [.text (table t)]
  | .table t (some row) => [.text (table t ++ " " ++ row)]
  | .rows_of before after _ arg _ => .text before :: (arg.pieces column ++ [.text after])
  | .join source t row on =>
      source.pieces ++ (.text (" JOIN " ++ table t ++ " " ++ row ++ " ON ") :: on.pieces)
  | .left_join source t row on =>
      source.pieces ++ (.text (" LEFT JOIN " ++ table t ++ " " ++ row ++ " ON ") :: on.pieces)

end

def Select.pieces (s : Select V T C κ) : List (Piece κ) :=
  .text "SELECT " :: (s.selected.pieces column ++ (.text " FROM " ::
    (s.source.pieces table column ++ (.text " WHERE " :: s.condition.pieces table column))))

/-! ### The places of the text are the places of the statement -/

@[simp] theorem places_append (ps qs : List (Piece κ)) :
    places (ps ++ qs) = places ps ++ places qs := by
  induction ps with
  | nil => rfl
  | cons p ps ih =>
      cases p with
      | text s => exact ih
      | place key => exact congrArg (key :: ·) ih

theorem places_term (t : Term V C κ) : places (t.pieces column) = t.places := by
  induction t with
  | column _ _ | bare _ _ | literal _ _ | place _ => rfl
  | apply before after g arg ih => simp [Term.pieces, Term.places, places, ih]
  | combine before between after g left right ihLeft ihRight =>
      simp [Term.pieces, Term.places, places, ihLeft, ihRight]

theorem places_args (args : List (String × Term V C κ)) :
    places (args.flatMap fun arg => Piece.text arg.1 :: arg.2.pieces column) =
      args.flatMap fun arg => arg.2.places := by
  induction args with
  | nil => rfl
  | cons arg args ih => simp [places, places_term, ih]

mutual

theorem places_cond : ∀ c : Cond V T C κ, places (c.pieces table column) = c.places
  | .test _ args _ => by simp [Cond.pieces, Cond.places, places, places_args]
  | .and left right => by simp [Cond.pieces, Cond.places, places, places_cond left, places_cond right]
  | .or left right => by simp [Cond.pieces, Cond.places, places, places_cond left, places_cond right]
  | .group c => by simp [Cond.pieces, Cond.places, places, places_cond c]
  | .some_row source where_ => by
      simp [Cond.pieces, Cond.places, places, places_source source, places_cond where_]
  | .no_row source where_ => by
      simp [Cond.pieces, Cond.places, places, places_source source, places_cond where_]
  | .count _ source where_ n => by
      simp [Cond.pieces, Cond.places, places, places_source source, places_cond where_, places_term]
  | .among _ t _ _ source where_ => by
      simp [Cond.pieces, Cond.places, places, places_source source, places_cond where_, places_term]

theorem places_source : ∀ s : Source V T C κ, places (s.pieces table column) = s.places
  | .table _ none => rfl
  | .table _ (some _) => rfl
  | .rows_of _ _ _ arg _ => by simp [Source.pieces, Source.places, places, places_term]
  | .join source _ _ on => by
      simp [Source.pieces, Source.places, places, places_source source, places_cond on]
  | .left_join source _ _ on => by
      simp [Source.pieces, Source.places, places, places_source source, places_cond on]

end

theorem places_select (s : Select V T C κ) : places (s.pieces table column) = s.places := by
  simp [Select.pieces, Select.places, places, places_term, places_source, places_cond]

/-! ### The text of a statement is that of its shape -/

@[simp] theorem Term.pieces_map (f : κ → κ') (t : Term V C κ) :
    (t.map f).pieces column = (t.pieces column).map (Piece.map f) := by
  induction t with
  | column _ _ | bare _ _ | literal _ _ | place _ => rfl
  | apply before after g arg ih => simp [Term.map, Term.pieces, Piece.map, ih]
  | combine before between after g left right ihLeft ihRight =>
      simp [Term.map, Term.pieces, Piece.map, ihLeft, ihRight]

mutual

theorem Cond.pieces_map (f : κ → κ') : ∀ c : Cond V T C κ,
    (c.map f).pieces table column = (c.pieces table column).map (Piece.map f)
  | .test _ args _ => by
      simp [Cond.map, Cond.pieces, Piece.map, List.map_flatMap, List.flatMap_map]
  | .and left right => by
      simp [Cond.map, Cond.pieces, Piece.map, Cond.pieces_map f left, Cond.pieces_map f right]
  | .or left right => by
      simp [Cond.map, Cond.pieces, Piece.map, Cond.pieces_map f left, Cond.pieces_map f right]
  | .group c => by simp [Cond.map, Cond.pieces, Piece.map, Cond.pieces_map f c]
  | .some_row source where_ => by
      simp [Cond.map, Cond.pieces, Piece.map, Source.pieces_map f source, Cond.pieces_map f where_]
  | .no_row source where_ => by
      simp [Cond.map, Cond.pieces, Piece.map, Source.pieces_map f source, Cond.pieces_map f where_]
  | .count _ source where_ n => by
      simp [Cond.map, Cond.pieces, Piece.map, Source.pieces_map f source, Cond.pieces_map f where_]
  | .among _ t _ _ source where_ => by
      simp [Cond.map, Cond.pieces, Piece.map, Source.pieces_map f source, Cond.pieces_map f where_]

theorem Source.pieces_map (f : κ → κ') : ∀ s : Source V T C κ,
    (s.map f).pieces table column = (s.pieces table column).map (Piece.map f)
  | .table _ none => rfl
  | .table _ (some _) => rfl
  | .rows_of _ _ _ arg _ => by simp [Source.map, Source.pieces, Piece.map]
  | .join source _ _ on => by
      simp [Source.map, Source.pieces, Piece.map, Source.pieces_map f source, Cond.pieces_map f on]
  | .left_join source _ _ on => by
      simp [Source.map, Source.pieces, Piece.map, Source.pieces_map f source, Cond.pieces_map f on]

end

theorem Select.pieces_map (f : κ → κ') (s : Select V T C κ) :
    (s.map f).pieces table column = (s.pieces table column).map (Piece.map f) := by
  simp [Select.map, Select.pieces, Piece.map, Source.pieces_map, Cond.pieces_map]

end Text

/-! ## Named and positional places in a text -/

section Places

-- The characters a name is of.
variable (word : Char → Bool)

/-- A statement's text with its names. -/
def named_text (ps : List (Piece String)) : List Char :=
  ps.flatMap fun p =>
    match p with
    | .text s => s.toList
    | .place key => '%' :: '(' :: (key.toList ++ [')', 's'])

/-- A statement's text for values in the order of their places. -/
def positional_text {κ : Type} (ps : List (Piece κ)) : List Char :=
  ps.flatMap fun p =>
    match p with
    | .text s => s.toList
    | .place _ => ['%', 's']

/-- `%(name)s` at the front of a text: the name, and what follows. -/
def named_place : List Char → Option (List Char × List Char)
  | '%' :: '(' :: rest =>
      match rest.dropWhile word with
      | ')' :: 's' :: after =>
          if (rest.takeWhile word).isEmpty then none else some (rest.takeWhile word, after)
      | _ => none
  | _ => none

/-- A text cut at the places with a name, from left to right; `n` bounds how many cuts. -/
def cut : Nat → List Char → List (Char ⊕ List Char)
  | 0, _ => []
  | _, [] => []
  | n + 1, c :: s =>
      match named_place word (c :: s) with
      | some (key, after) => .inr key :: cut n after
      | none => .inl c :: cut n s

/-- The names, as `re.findall` finds them. -/
def findall (text : List Char) : List (List Char) :=
  (cut word text.length text).filterMap Sum.getRight?

/-- The text with something in the place of the names, as `re.sub` puts it. -/
def sub (with_ : List Char) (text : List Char) : List Char :=
  (cut word text.length text).flatMap (Sum.elim (fun c => [c]) fun _ => with_)

/-- A text that has nothing to do with places. -/
def plain (s : String) : Bool := s.toList.all (· != '%')

/-- Pieces whose text has nothing to do with places. -/
def Plain {κ : Type} (ps : List (Piece κ)) : Prop := ∀ s, Piece.text s ∈ ps → plain s = true

/-- Names of the characters of names. -/
def Named (key : String) : Prop := key.toList ≠ [] ∧ ∀ c ∈ key.toList, word c = true

/-- A text that is read as it was written. -/
structure Readable (ps : List (Piece String)) : Prop where
  plain : Plain ps
  named : ∀ key ∈ places ps, Named word key

variable {word}

@[simp] theorem plain_append (s t : String) : plain (s ++ t) = (plain s && plain t) := by
  simp [plain]

section Pieces

variable {κ κ' : Type} {ps qs : List (Piece κ)}

@[simp] theorem plain_pieces_nil : Plain ([] : List (Piece κ)) := by
  intro s hs
  cases hs

@[simp] theorem plain_pieces_text {s : String} :
    Plain (.text s :: ps) ↔ plain s = true ∧ Plain ps := by
  constructor
  · intro h
    exact ⟨h s List.mem_cons_self, fun t ht => h t (List.mem_cons_of_mem _ ht)⟩
  · rintro ⟨hHead, hTail⟩ t ht
    rcases List.mem_cons.1 ht with hEq | hRest
    · cases hEq
      exact hHead
    · exact hTail t hRest

@[simp] theorem plain_pieces_place {key : κ} : Plain (.place key :: ps) ↔ Plain ps := by
  constructor
  · intro h t ht
    exact h t (List.mem_cons_of_mem _ ht)
  · intro h t ht
    rcases List.mem_cons.1 ht with hEq | hRest
    · cases hEq
    · exact h t hRest

@[simp] theorem plain_pieces_append : Plain (ps ++ qs) ↔ Plain ps ∧ Plain qs := by
  constructor
  · intro h
    exact ⟨fun t ht => h t (List.mem_append_left _ ht), fun t ht => h t (List.mem_append_right _ ht)⟩
  · rintro ⟨hLeft, hRight⟩ t ht
    rcases List.mem_append.1 ht with hIn | hIn
    · exact hLeft t hIn
    · exact hRight t hIn

@[simp] theorem plain_pieces_map (f : κ → κ') : Plain (ps.map (Piece.map f)) ↔ Plain ps := by
  constructor
  · intro h t ht
    exact h t (List.mem_map.2 ⟨.text t, ht, rfl⟩)
  · intro h t ht
    obtain ⟨p, hp, hEq⟩ := List.mem_map.1 ht
    cases p with
    | text s =>
        cases hEq
        exact h t hp
    | place key => cases hEq

end Pieces

theorem named_place_other {c : Char} (h : c ≠ '%') (s : List Char) :
    named_place word (c :: s) = none := by
  unfold named_place
  split
  case h_1 rest hEq =>
      exact absurd (List.cons.inj hEq).1 h
  case h_2 => rfl

theorem named_place_key {key : List Char} (hKey : key ≠ []) (hWord : ∀ c ∈ key, word c = true)
    (hClose : word ')' = false) (rest : List Char) :
    named_place word ('%' :: '(' :: (key ++ ')' :: 's' :: rest)) = some (key, rest) := by
  have hDrop : (key ++ ')' :: 's' :: rest).dropWhile word = ')' :: 's' :: rest := by
    rw [List.dropWhile_append_of_pos hWord]
    simp [hClose]
  have hTake : (key ++ ')' :: 's' :: rest).takeWhile word = key := by
    rw [List.takeWhile_append_of_pos hWord]
    simp [hClose]
  have hSome : key.isEmpty = false := by simpa using hKey
  simp [named_place, hDrop, hTake, hSome]

theorem cut_char {c : Char} {s : List Char} (h : named_place word (c :: s) = none) (n : Nat) :
    cut word (n + 1) (c :: s) = Sum.inl c :: cut word n s := by
  rw [cut, h]

theorem cut_place {c : Char} {s key after : List Char}
    (h : named_place word (c :: s) = some (key, after)) (n : Nat) :
    cut word (n + 1) (c :: s) = Sum.inr key :: cut word n after := by
  rw [cut, h]

/-- A text without places is cut into its characters. -/
theorem cut_plain {s : List Char} (hPlain : ∀ c ∈ s, c ≠ '%') (rest : List Char) :
    ∀ n, s.length + rest.length ≤ n →
      ∃ m, rest.length ≤ m ∧ cut word n (s ++ rest) = s.map Sum.inl ++ cut word m rest := by
  induction s with
  | nil =>
      intro n hn
      exact ⟨n, by simpa using hn, rfl⟩
  | cons c s ih =>
      intro n hn
      cases n with
      | zero => simp at hn
      | succ n =>
          rw [List.length_cons] at hn
          obtain ⟨m, hm, hCut⟩ := ih (fun c' hc' => hPlain c' (List.mem_cons_of_mem _ hc')) n
            (by omega)
          refine ⟨m, hm, ?_⟩
          rw [List.cons_append, cut_char (named_place_other (hPlain c List.mem_cons_self) _), hCut]
          rfl

/-- What the pieces of a text are cut into. -/
def cut_of (ps : List (Piece String)) : List (Char ⊕ List Char) :=
  ps.flatMap fun p =>
    match p with
    | .text s => s.toList.map Sum.inl
    | .place key => [.inr key.toList]

theorem Readable.tail {p : Piece String} {ps : List (Piece String)} (h : Readable word (p :: ps)) :
    Readable word ps where
  plain := fun s hs => h.plain s (List.mem_cons_of_mem _ hs)
  named key hKey := h.named key (by
    cases p with
    | text s => exact hKey
    | place other => exact List.mem_cons_of_mem _ hKey)

/-- A text is cut at its places and nowhere else. -/
theorem cut_named (hClose : word ')' = false) {ps : List (Piece String)} (h : Readable word ps) :
    ∀ n, (named_text ps).length ≤ n → cut word n (named_text ps) = cut_of ps := by
  induction ps with
  | nil =>
      intro n _
      cases n <;> rfl
  | cons p ps ih =>
      intro n hn
      cases p with
      | text s =>
          have hPlain : ∀ c ∈ s.toList, c ≠ '%' := by
            have hText := h.plain s List.mem_cons_self
            simpa [plain] using hText
          have hAppend : named_text (.text s :: ps) = s.toList ++ named_text ps := rfl
          rw [hAppend, List.length_append] at hn
          obtain ⟨m, hm, hCut⟩ := cut_plain hPlain (named_text ps) n hn
          rw [hAppend, hCut, ih h.tail m hm]
          rfl
      | place key =>
          obtain ⟨hKey, hWord⟩ := h.named key List.mem_cons_self
          have hAppend : named_text (.place key :: ps) =
              '%' :: '(' :: (key.toList ++ ')' :: 's' :: named_text ps) := by
            simp [named_text]
          rw [hAppend] at hn ⊢
          cases n with
          | zero => simp at hn
          | succ n =>
              have hLeft : (named_text ps).length ≤ n := by
                simp only [List.length_cons, List.length_append] at hn
                omega
              rw [cut_place (named_place_key hKey hWord hClose (named_text ps)), ih h.tail n hLeft]
              rfl

/-- `re.findall` gives the names of the places, in order. -/
theorem findall_named (hClose : word ')' = false) {ps : List (Piece String)}
    (h : Readable word ps) : findall word (named_text ps) = (places ps).map String.toList := by
  rw [findall, cut_named hClose h _ (Nat.le_refl _)]
  clear h
  induction ps with
  | nil => rfl
  | cons p ps ih =>
      cases p with
      | text s =>
          show (s.toList.map Sum.inl ++ cut_of ps).filterMap Sum.getRight? = _
          rw [List.filterMap_append, ih]
          have hNone : (s.toList.map (Sum.inl (β := List Char))).filterMap Sum.getRight? = [] := by
            simp [List.filterMap_map, Function.comp_def]
          rw [hNone]
          rfl
      | place key =>
          show key.toList :: (cut_of ps).filterMap Sum.getRight? = _
          rw [ih]
          rfl

/-- `re.sub` gives the text for values in order. -/
theorem sub_named (hClose : word ')' = false) {ps : List (Piece String)} (h : Readable word ps) :
    sub word ['%', 's'] (named_text ps) = positional_text ps := by
  rw [sub, cut_named hClose h _ (Nat.le_refl _)]
  clear h
  induction ps with
  | nil => rfl
  | cons p ps ih =>
      cases p with
      | text s =>
          show (s.toList.map Sum.inl ++ cut_of ps).flatMap _ = _
          rw [List.flatMap_append, ih]
          simp [positional_text, List.flatMap_map]
      | place key =>
          show ['%', 's'] ++ (cut_of ps).flatMap _ = _
          rw [ih]
          rfl

theorem positional_map {κ κ' : Type} (f : κ → κ') (ps : List (Piece κ)) :
    positional_text (ps.map (Piece.map f)) = positional_text ps := by
  rw [positional_text, positional_text, List.flatMap_map]
  congr 1
  funext p
  cases p <;> rfl

theorem places_map {κ κ' : Type} (f : κ → κ') (ps : List (Piece κ)) :
    places (ps.map (Piece.map f)) = (places ps).map f := by
  induction ps with
  | nil => rfl
  | cons p ps ih =>
      cases p with
      | text s => exact ih
      | place key => exact congrArg (f key :: ·) ih

section Drivers

variable {V T C κ : Type}

/-- From names to order: the text for values in order, and the values. -/
def positional (word : Char → Bool) (values : List Char → Option V) (text : List Char) :
    Option (List Char × List V) :=
  ((findall word text).mapM values).map fun found => (sub word ['%', 's'] text, found)

/-- A statement with the value of its name in each place. -/
def Select.bind (values : κ → Option V) (s : Select V T C κ) : Option (Select V T C V) :=
  (s.places.mapM values).bind s.fill

/-- Every name has the value its place was written for. -/
def Given (values : κ → Option V) (ps : List (κ × V)) : Prop := ∀ p ∈ ps, values p.1 = some p.2

theorem Given.mapM {values : κ → Option V} {ps : List (κ × V)} (h : Given values ps) :
    (ps.map Prod.fst).mapM values = some (ps.map Prod.snd) := by
  induction ps with
  | nil => rfl
  | cons p ps ih =>
      have hRest : Given values ps := fun q hq => h q (List.mem_cons_of_mem _ hq)
      rw [List.map_cons, List.mapM_cons, h p List.mem_cons_self, ih hRest]
      rfl

/-- Names that have their values stand for them. -/
theorem Select.bind_given {values : κ → Option V} {s : Select V T C (κ × V)}
    (h : Given values s.places) : (s.map Prod.fst).bind values = some (s.map Prod.snd) := by
  rw [Select.bind, Select.places_map, h.mapM]
  exact s.fill_map

/-- What a named statement becomes: the text of the same statement for values in order, with the
values of its places. -/
theorem positional_given {word : Char → Bool} (hClose : word ')' = false)
    {values : List Char → Option V} {ps : List (Piece (κ × V))} (name : κ → String)
    (hPlain : Plain ps) (hNamed : ∀ p ∈ places ps, Named word (name p.1))
    (h : ∀ p ∈ places ps, values (name p.1).toList = some p.2) :
    positional word values (named_text (ps.map (Piece.map fun p => name p.1))) =
      some (positional_text ps, (places ps).map Prod.snd) := by
  have hReadable : Readable word (ps.map (Piece.map fun p => name p.1)) := by
    refine ⟨(plain_pieces_map _).2 hPlain, ?_⟩
    intro key hKey
    rw [places_map] at hKey
    obtain ⟨p, hp, rfl⟩ := List.mem_map.1 hKey
    exact hNamed p hp
  have hValues : ((places ps).map fun p => (name p.1).toList).mapM values =
      some ((places ps).map Prod.snd) := by
    have hGiven : Given values ((places ps).map fun p => ((name p.1).toList, p.2)) := by
      intro q hq
      obtain ⟨p, hp, rfl⟩ := List.mem_map.1 hq
      exact h p hp
    have hMap := hGiven.mapM
    rw [List.map_map, List.map_map] at hMap
    exact hMap
  rw [positional, findall_named hClose hReadable, sub_named hClose hReadable, positional_map,
    places_map, List.map_map]
  show (((places ps).map fun p => (name p.1).toList).mapM values).map _ = _
  rw [hValues]
  rfl

end Drivers

end Places

end Sql
