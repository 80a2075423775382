import Rekuest.Ports.Accepted
import Rekuest.Ports.Meets

/-!
# Where the two checks agree

The two checks walk a value along its port in the same order and apply the same rule at
each kind but one: by induction on the port, each gives what the walk says of it.
-/

namespace Rekuest.Ports

/-- What the two checks of one value say, by what the value is to the port. -/
def Agree : Met → Python.Py (Option String) → Option String → Prop
  | .fits, py, rust => py = .ok none ∧ rust = none
  | .refused, py, rust => (∃ message, py = .ok (some message)) ∧ rust.isSome = true
  | .blurred, py, rust => py = .ok none ∧ rust.isSome = true
  | .unhashable strictly, py, rust => py = .error .type_error ∧ rust.isNone = strictly

theorem agree_refused {message message' : String} :
    Agree .refused (.ok (some message)) (some message') :=
  ⟨⟨message, rfl⟩, rfl⟩

theorem agree_fits : Agree .fits (.ok none) none := ⟨rfl, rfl⟩

theorem strict_of_agree {met : Met} {py : Python.Py (Option String)} {rust : Option String}
    (h : Agree met py rust) : rust.isNone = met.strict := by
  cases met with
  | fits =>
      obtain ⟨-, rfl⟩ := h
      rfl
  | refused => simpa [Met.strict] using h.2
  | blurred => simpa [Met.strict] using h.2
  | unhashable strictly => exact h.2

theorem isNone_findSome? {α β : Type} {parts : List α} {f : α → Option β} :
    (parts.findSome? f).isNone = parts.all fun part => (f part).isNone := by
  induction parts with
  | nil => rfl
  | cons part rest ih =>
      rw [List.findSome?_cons, List.all_cons, ← ih]
      cases f part <;> rfl

theorem strict_parts {α : Type} {parts : List α} {met : α → Met} {py : α → Python.Py (Option String)}
    {rust : α → Option String} (h : ∀ part ∈ parts, Agree (met part) (py part) (rust part)) :
    (parts.map met).map Met.strict = parts.map fun part => (rust part).isNone := by
  rw [List.map_map]
  exact List.map_congr_left fun part hPart => (strict_of_agree (h part hPart)).symm

/-- Parts that agree one by one agree in a row. -/
theorem agree_all {α : Type} {parts : List α} {met : α → Met} {py : α → Python.Py (Option String)}
    {rust : α → Option String} (h : ∀ part ∈ parts, Agree (met part) (py part) (rust part)) :
    Agree (.all (parts.map met)) (Python.first_of (parts.map py)) (parts.findSome? rust) := by
  induction parts with
  | nil => exact agree_fits
  | cons part rest ih =>
      obtain ⟨hPart, hRest⟩ := List.forall_mem_cons.1 h
      have hLater := ih hRest
      rw [List.map_cons, List.map_cons, List.findSome?_cons]
      cases hMet : met part with
      | fits =>
          rw [hMet] at hPart
          obtain ⟨hPy, hRust⟩ := hPart
          rw [hPy, hRust]
          exact hLater
      | refused =>
          rw [hMet] at hPart
          obtain ⟨⟨message, hPy⟩, hRust⟩ := hPart
          obtain ⟨refusal, hRefusal⟩ := Option.isSome_iff_exists.1 hRust
          rw [hPy, hRefusal]
          exact agree_refused
      | blurred =>
          rw [hMet] at hPart
          obtain ⟨hPy, hRust⟩ := hPart
          obtain ⟨refusal, hRefusal⟩ := Option.isSome_iff_exists.1 hRust
          rw [hPy, hRefusal, Met.all, Python.first_of]
          -- the row goes on for Python alone
          cases hAll : Met.all (rest.map met) with
          | fits =>
              rw [hAll] at hLater
              exact ⟨hLater.1, rfl⟩
          | blurred =>
              rw [hAll] at hLater
              exact ⟨hLater.1, rfl⟩
          | refused =>
              rw [hAll] at hLater
              exact ⟨hLater.1, rfl⟩
          | unhashable strictly =>
              rw [hAll] at hLater
              exact ⟨hLater.1, rfl⟩
      | unhashable strictly =>
          rw [hMet] at hPart
          obtain ⟨hPy, hRust⟩ := hPart
          rw [hPy, Met.all]
          refine ⟨rfl, ?_⟩
          have hStrict : (rest.map met).all Met.strict = rest.all fun part => (rust part).isNone := by
            have hParts := congrArg (List.all · id) (strict_parts hRest)
            simpa only [List.all_map, Function.comp_def, id_eq] using hParts
          rw [hStrict, ← isNone_findSome?, ← hRust]
          cases rust part <;> rfl

/-- Variants that agree one by one agree as alternatives. -/
theorem agree_any {α : Type} {variants : List α} {met : α → Met} {py : α → Python.Py (Option String)}
    {rust : α → Option String} (h : ∀ variant ∈ variants, Agree (met variant) (py variant) (rust variant)) :
    match Met.any (variants.map met) with
    | .fits => Python.any_passes (variants.map py) = .ok true ∧
        variants.any (fun variant => (rust variant).isNone) = true
    | .refused => Python.any_passes (variants.map py) = .ok false ∧
        variants.any (fun variant => (rust variant).isNone) = false
    | .blurred => Python.any_passes (variants.map py) = .ok true ∧
        variants.any (fun variant => (rust variant).isNone) = false
    | .unhashable strictly => Python.any_passes (variants.map py) = .error .type_error ∧
        variants.any (fun variant => (rust variant).isNone) = strictly := by
  induction variants with
  | nil => exact ⟨rfl, rfl⟩
  | cons variant rest ih =>
      obtain ⟨hVariant, hRest⟩ := List.forall_mem_cons.1 h
      have hStrict : (rest.map met).any Met.strict = rest.any fun part => (rust part).isNone := by
        have hParts := congrArg (List.any · id) (strict_parts hRest)
        simpa only [List.any_map, Function.comp_def, id_eq] using hParts
      rw [List.map_cons, List.map_cons, List.any_cons]
      cases hMet : met variant with
      | fits =>
          rw [hMet] at hVariant
          obtain ⟨hPy, hRust⟩ := hVariant
          rw [hPy, hRust]
          exact ⟨rfl, rfl⟩
      | refused =>
          rw [hMet] at hVariant
          obtain ⟨⟨message, hPy⟩, hRust⟩ := hVariant
          obtain ⟨refusal, hRefusal⟩ := Option.isSome_iff_exists.1 hRust
          rw [hPy, hRefusal]
          exact ih hRest
      | blurred =>
          rw [hMet] at hVariant
          obtain ⟨hPy, hRust⟩ := hVariant
          obtain ⟨refusal, hRefusal⟩ := Option.isSome_iff_exists.1 hRust
          rw [hPy, hRefusal, Met.any, hStrict]
          cases hLater : rest.any fun part => (rust part).isNone with
          | true => exact ⟨rfl, rfl⟩
          | false => exact ⟨rfl, rfl⟩
      | unhashable strictly =>
          rw [hMet] at hVariant
          obtain ⟨hPy, hRust⟩ := hVariant
          rw [hPy, hRust, Met.any, hStrict]
          exact ⟨rfl, rfl⟩

/-! ## Enums -/

theorem hashed_of_same {v w : Value} (hHash : Python.hashable v = true) (h : v.same w = true) :
    Python.hashed v = Python.hashed w := by
  cases v with
  | array | object => cases hHash
  | null | bool | int | float | string =>
      cases w <;> simp_all [Value.same]

theorem any_add {set : List Value} {v value : Value} :
    (Python.add set v).any (Python.equal · value) =
      (set.any (Python.equal · value) || Python.equal v value) := by
  unfold Python.add
  by_cases hKnown : set.any (Python.equal · v) = true
  · rw [if_pos hKnown]
    obtain ⟨u, hu, hEqual⟩ := List.any_eq_true.1 hKnown
    cases hValue : Python.equal v value with
    | false => rw [Bool.or_false]
    | true =>
        have hSame : Python.hashed u = Python.hashed value :=
          (of_decide_eq_true hEqual).trans (of_decide_eq_true hValue)
        rw [Bool.or_true, List.any_eq_true]
        exact ⟨u, hu, decide_eq_true hSame⟩
  · rw [if_neg hKnown, List.any_append]
    simp

/-- A set has what its values have. -/
theorem any_set_of (values : List Value) (value : Value) :
    ∀ set, (values.foldl Python.add set).any (Python.equal · value) =
      (set.any (Python.equal · value) || values.any (Python.equal · value)) := by
  induction values with
  | nil => simp
  | cons v rest ih =>
      intro set
      rw [List.foldl_cons, ih, any_add, List.any_cons, Bool.or_assoc]

theorem among_equal {choices : List Value} {value : Value} (hHash : choices.all Python.hashable = true)
    (h : Value.among choices value = true) : choices.any (Python.equal · value) = true := by
  obtain ⟨choice, hChoice, hSame⟩ := List.any_eq_true.1 h
  rw [List.any_eq_true]
  refine ⟨choice, hChoice, decide_eq_true ?_⟩
  exact hashed_of_same (List.all_eq_true.1 hHash choice hChoice) hSame

theorem enum_agree (env : Env) (choices : List Value) (value : Value) (path path' : String) :
    Agree (meets_enum choices value) (Python.enum_mismatch env choices value path)
      (enum_mismatch env choices value path') := by
  unfold meets_enum
  by_cases hHash : (choices.all Python.hashable && Python.hashable value) = true
  · rw [if_neg (by rw [hHash]; exact Bool.false_ne_true)]
    rw [Bool.and_eq_true_iff] at hHash
    have hSet : Python.set_of choices = .ok (choices.foldl Python.add []) := by
      rw [Python.set_of, if_pos hHash.1]
    have hIn : Python.is_in value (choices.foldl Python.add []) =
        .ok (choices.any (Python.equal · value)) := by
      rw [Python.is_in, if_pos hHash.2, any_set_of]
      rfl
    unfold Python.enum_mismatch enum_mismatch
    rw [hSet]
    dsimp only [Bind.bind, Except.bind]
    rw [hIn]
    dsimp only
    by_cases hAmong : Value.among choices value = true
    · rw [if_pos hAmong, among_equal hHash.1 hAmong, hAmong]
      exact agree_fits
    · rw [if_neg hAmong]
      rw [Bool.not_eq_true] at hAmong
      rw [hAmong]
      cases hEqual : choices.any (Python.equal · value) with
      | false => exact agree_refused
      | true => exact ⟨rfl, rfl⟩
  · rw [if_pos (by rw [Bool.not_eq_true] at hHash; rw [hHash]; rfl)]
    have hRust : (enum_mismatch env choices value path').isNone = Value.among choices value := by
      unfold enum_mismatch
      cases Value.among choices value <;> rfl
    refine ⟨?_, hRust⟩
    unfold Python.enum_mismatch Python.set_of
    by_cases hChoices : choices.all Python.hashable = true
    · have hValue : ¬ Python.hashable value = true := fun hValue =>
        hHash (by rw [hChoices, hValue]; rfl)
      rw [if_pos hChoices]
      dsimp only [Bind.bind, Except.bind]
      rw [Python.is_in, if_neg hValue]
    · rw [if_neg hChoices]
      rfl

/-! ## Kinds without children -/

theorem is_int_sized {v : Value} (h : v.sized) : Python.is_int v = v.is_int := by
  cases v with
  | int n =>
      have hSized : -2 ^ 63 ≤ n ∧ n < 2 ^ 64 := h
      exact (decide_eq_true hSized).symm
  | null | bool | float | string | array | object => rfl

/-- A check of one condition. -/
theorem agree_if {holds : Bool} {message message' : String} :
    Agree (if holds then .fits else .refused)
      (if !holds then .ok (some message) else .ok none) (if !holds then some message' else none) := by
  cases holds with
  | true => exact agree_fits
  | false => exact agree_refused

theorem date_agree (env : Env) (value : Value) (path path' : String) :
    Agree (if value.as_str.any env.is_iso_date then .fits else .refused)
      (match value.as_str with
        | none => Python.expected path "an ISO-8601 DATE string" value
        | some s =>
            if !env.is_iso_date s then
              .ok (some (path ++ ": " ++ repr_str s ++ " is not an ISO-8601 date"))
            else .ok none)
      (match value.as_str with
        | none => expected path' "an ISO-8601 DATE string" value
        | some s =>
            if !env.is_iso_date s then some (path' ++ ": " ++ repr_str s ++ " is not an ISO-8601 date")
            else none) := by
  cases value.as_str with
  | none => exact agree_refused
  | some s => exact agree_if

theorem quantity_agree (value : Value) (path path' : String) :
    Agree (.of (quantity_mismatch value ""))
      (Python.quantity_mismatch value path) (quantity_mismatch value path') := by
  unfold quantity_mismatch Python.quantity_mismatch
  cases value with
  | object map =>
      dsimp only
      have hNumber : ((Value.get map "value").getD .null).is_number =
          (Value.get map "value").any Value.is_number := by
        cases Value.get map "value" <;> rfl
      have hUnit : ((Value.get map "unit").any fun unit => !unit.is_string) =
          !(Value.get map "unit").all Value.is_string := by
        cases Value.get map "unit" <;> rfl
      rw [hNumber, hUnit]
      by_cases hMissing : (!(Value.get map "value").any Value.is_number ||
          !(Value.get map "unit").all Value.is_string) = true
      · rw [if_pos hMissing, if_pos hMissing, if_pos hMissing]
        exact agree_refused
      · rw [if_neg hMissing, if_neg hMissing, if_neg hMissing]
        exact agree_fits
  | null | bool | string | array => exact agree_refused
  | int | float => exact agree_fits

theorem reference_agree (env : Env) (fields : PortFields) {value : Value} (hSized : value.sized)
    (path path' : String) :
    Agree (.of (reference_mismatch env fields true value ""))
      (Python.reference_mismatch env fields true value path)
      (reference_mismatch env fields true value path') := by
  unfold reference_mismatch Python.reference_mismatch
  dsimp only
  cases value with
  | object map =>
      have hFields : ∀ field ∈ map, field.2.sized := Value.sized_fields_iff.1 hSized
      cases hIdentifier : Value.get map "__identifier" with
      | none =>
          simp only [hIdentifier]
          exact agree_refused
      | some identifier =>
          cases hObject : Value.get map "object" with
          | none =>
              simp only [hIdentifier, hObject]
              exact agree_refused
          | some object =>
              simp only [hIdentifier, hObject]
              rw [is_int_sized (Value.sized_get hFields hObject)]
              cases fields.identifier.any fun expected => decide (identifier.as_str ≠ some expected) with
              | true => exact agree_refused
              | false =>
                  cases object.is_string || object.is_int with
                  | true => exact agree_fits
                  | false => exact agree_refused
  | null | bool | int | float | string | array => exact agree_refused

/-! ## Kinds with children -/

section Children

variable {Own : Type} [HasDefault Own] {env : Env}

theorem as_children_eq (reference_envelope : Bool) (ports : List (Port Own)) :
    as_children env reference_envelope ports =
      ports.map fun port => ⟨port, mismatch_at env reference_envelope port⟩ := by
  induction ports with
  | nil => rfl
  | cons port rest ih => rw [as_children, ih, List.map_cons]

theorem py_children_eq (reference_envelope : Bool) (ports : List (Port Own)) :
    Python.as_children env reference_envelope ports =
      ports.map fun port => ⟨port, Python.mismatch_at env reference_envelope port⟩ := by
  induction ports with
  | nil => rfl
  | cons port rest ih => rw [Python.as_children, ih, List.map_cons]

theorem as_meetings_eq (ports : List (Port Own)) :
    as_meetings env ports = ports.map fun port => ⟨port, meets env port⟩ := by
  induction ports with
  | nil => rfl
  | cons port rest ih => rw [as_meetings, ih, List.map_cons]

/-- A port whose two checks agree with the walk, for every value and path. -/
def PortAgrees (env : Env) (port : Port Own) : Prop :=
  ∀ value : Value, value.sized → ∀ path path' : String,
    Agree (meets env port value) (Python.mismatch_at env true port value path)
      (mismatch_at env true port value path')

/-- A port as each of the three uses it in its parent. -/
abbrev meeting (env : Env) (port : Port Own) : Meeting Own := ⟨port, meets env port⟩

abbrev py_child (env : Env) (port : Port Own) : Python.Child Own :=
  ⟨port, Python.mismatch_at env true port⟩

abbrev child (env : Env) (port : Port Own) : Child Own := ⟨port, mismatch_at env true port⟩

theorem item_agree {port : Port Own} (hPort : PortAgrees env port) {item : Value}
    (hSized : item.sized) (path path' : String) :
    Agree (meets_item (meeting env port) item) (Python.item_mismatch (py_child env port) item path)
      (item_mismatch (child env port) item path') := by
  unfold meets_item Python.item_mismatch item_mismatch
  cases hNull : item.is_null with
  | true =>
      cases hNullable : port.nullable with
      | true => simpa [hNullable] using agree_fits
      | false => simpa [hNullable] using agree_refused
  | false => exact hPort item hSized path path'

theorem list_agree {port : Port Own} (hPort : PortAgrees env port) {value : Value}
    (hSized : value.sized) (path path' : String) :
    Agree (meets_list [meeting env port] value) (Python.list_mismatch [py_child env port] value path)
      (list_mismatch [child env port] value path') := by
  cases value with
  | array items =>
      have hItems : ∀ item ∈ items, item.sized := Value.sized_items_iff.1 hSized
      have hIndexed : items.map (meets_item (meeting env port)) =
          items.zipIdx.map fun part => meets_item (meeting env port) part.1 := by
        have hFirst : items = items.zipIdx.map Prod.fst := by simp
        conv => lhs; rw [hFirst]
        rw [List.map_map]
        rfl
      show Agree (.all (items.map (meets_item (meeting env port)))) _ _
      rw [hIndexed]
      refine agree_all fun part hPart => ?_
      have hItem : part.1 ∈ items := by
        have hFirst : part.1 ∈ items.zipIdx.map Prod.fst := List.mem_map_of_mem hPart
        simpa using hFirst
      exact item_agree hPort (hItems _ hItem) _ _
  | null | bool | int | float | string | object => exact agree_refused

omit [HasDefault Own] in
/-- A dict of children with different keys is the list of them. -/
theorem fields_of_eq {children : List (Python.Child Own)}
    (hNodup : (children.map (·.port.key)).Nodup) : Python.fields_of children = children := by
  have hFold : ∀ (rest fields : List (Python.Child Own)),
      ((fields ++ rest).map (·.port.key)).Nodup → rest.foldl Python.put fields = fields ++ rest := by
    intro rest
    induction rest with
    | nil => simp
    | cons next rest ih =>
        intro fields hNodup
        have hNew : ¬ (fields.any (·.port.key = next.port.key)) = true := by
          intro hKnown
          obtain ⟨other, hOther, hKey⟩ := List.any_eq_true.1 hKnown
          rw [List.map_append, List.nodup_append] at hNodup
          exact hNodup.2.2 _ (List.mem_map_of_mem hOther) _ (List.mem_cons_self ..)
            (of_decide_eq_true hKey)
        have hSplit : fields ++ next :: rest = (fields ++ [next]) ++ rest := by simp
        rw [List.foldl_cons, Python.put, if_neg hNew, ih _ (hSplit ▸ hNodup), hSplit]
  exact hFold children [] hNodup

omit [HasDefault Own] in
theorem find_child {α : Type} (f : Port Own → α) (key : α → String)
    (hKey : ∀ port, key (f port) = port.key) (ports : List (Port Own)) (name : String) :
    (ports.map f).find? (key · = name) = (ports.find? (·.key = name)).map f := by
  rw [List.find?_map]
  congr 1
  apply congrFun (congrArg List.find? _)
  funext port
  rw [Function.comp_apply, hKey]

/-- Named children: each entry is held against the child of its name, if there is one. -/
theorem named_agree {ports : List (Port Own)} (hPorts : ∀ port ∈ ports, PortAgrees env port)
    (hNodup : (ports.map Port.key).Nodup) {map : List (String × Value)}
    (hMap : ∀ field ∈ map, field.2.sized) (path path' : String) :
    Agree
      (.all (map.map fun (name, item) =>
        match (ports.map (meeting env)).find? (·.port.key = name) with
        | none => .fits
        | some child => meets_item child item))
      (Python.dict_mismatch.named (ports.map (py_child env)) path map)
      (map.findSome? fun (name, item) =>
        match (ports.map (child env)).find? (·.port.key = name) with
        | none => none
        | some child => item_mismatch child item (path' ++ "[" ++ repr_str name ++ "]")) := by
  have hFields : Python.fields_of (ports.map (py_child env)) = ports.map (py_child env) := by
    apply fields_of_eq
    rw [List.map_map]
    exact hNodup
  unfold Python.dict_mismatch.named
  rw [hFields]
  refine agree_all fun field hField => ?_
  obtain ⟨name, item⟩ := field
  dsimp only
  rw [find_child (meeting env) (·.port.key) (fun _ => rfl), find_child (py_child env) (·.port.key) (fun _ => rfl),
    find_child (child env) (·.port.key) (fun _ => rfl)]
  cases hFind : ports.find? (·.key = name) with
  | none => exact agree_fits
  | some port => exact item_agree (hPorts port (List.mem_of_find?_eq_some hFind)) (hMap _ hField) _ _

theorem dict_agree {ports : List (Port Own)} (hPorts : ∀ port ∈ ports, PortAgrees env port)
    (hNodup : (ports.map Port.key).Nodup) {value : Value} (hSized : value.sized) (path path' : String) :
    Agree (meets_dict (ports.map (meeting env)) value)
      (Python.dict_mismatch (ports.map (py_child env)) value path)
      (dict_mismatch (ports.map (child env)) value path') := by
  cases value with
  | object map =>
      have hMap : ∀ field ∈ map, field.2.sized := Value.sized_fields_iff.1 hSized
      have hNamed := named_agree hPorts hNodup hMap path path'
      cases ports with
      | nil => exact hNamed
      | cons port rest =>
          cases rest with
          | cons next rest => exact hNamed
          | nil =>
              by_cases hItem : port.key = "..."
              · have hPort := hPorts port (List.mem_cons_self ..)
                show Agree
                  (.all (map.map fun (name, item) =>
                    match child_of [meeting env port] name with
                    | none => Met.fits
                    | some child => meets_item child item))
                  (if port.key = "..." then _ else _) _
                rw [if_pos hItem]
                refine agree_all fun field hField => ?_
                obtain ⟨name, item⟩ := field
                have hMet : child_of [meeting env port] name = some (meeting env port) := if_pos hItem
                have hRust : (if port.key = "..." then some (child env port)
                    else [child env port].find? (·.port.key = name)) = some (child env port) :=
                  if_pos hItem
                dsimp only
                rw [hMet]
                show Agree _ _ (match (if port.key = "..." then some (child env port)
                    else [child env port].find? (·.port.key = name)) with
                  | none => none
                  | some child => item_mismatch child item (path' ++ "[" ++ repr_str name ++ "]"))
                rw [hRust]
                exact item_agree hPort (hMap _ hField) _ _
              · show Agree
                  (.all (map.map fun (name, item) =>
                    match child_of [meeting env port] name with
                    | none => Met.fits
                    | some child => meets_item child item))
                  (if port.key = "..." then _ else _) _
                rw [if_neg hItem]
                have hMet : ∀ name, child_of [meeting env port] name =
                    [meeting env port].find? (·.port.key = name) := fun name => if_neg hItem
                have hRust : ∀ name, (if port.key = "..." then some (child env port)
                    else [child env port].find? (·.port.key = name)) =
                    [child env port].find? (·.port.key = name) := fun name => if_neg hItem
                simp only [hMet]
                show Agree _ _ (map.findSome? fun (name, item) =>
                  match (if port.key = "..." then some (child env port)
                    else [child env port].find? (·.port.key = name)) with
                  | none => none
                  | some child => item_mismatch child item (path' ++ "[" ++ repr_str name ++ "]"))
                simp only [hRust]
                exact hNamed
  | null | bool | int | float | string | array => exact agree_refused

omit [HasDefault Own] in
theorem any_child {α : Type} (f : Port Own → α) (key : α → String)
    (hKey : ∀ port, key (f port) = port.key) (ports : List (Port Own)) (name : String) :
    (ports.map f).any (key · = name) = ports.any (·.key = name) := by
  rw [List.any_map]
  congr 1
  funext port
  rw [Function.comp_apply, hKey]

/-- No name is unknown if every name is known. -/
theorem unknown_nil_iff {names : List String} {known : String → Bool} :
    (names.filter fun name => !known name) = [] ↔ names.all known = true := by
  rw [List.filter_eq_nil_iff, List.all_eq_true]
  simp

/-- A field of a model, null or left out where that is allowed. -/
theorem field_agree {port : Port Own} (hPort : PortAgrees env port) {item : Value}
    (hSized : item.sized) (path path' : String) :
    Agree
      (if item.is_null then
        (if port.nullable || !(port.default_value.getD .null).is_null then .fits else .refused)
      else meets env port item)
      (if item.is_null && !port.nullable && (port.default_value.getD .null).is_null then
        .ok (some (path ++ ": required field is missing"))
      else if !item.is_null then Python.mismatch_at env true port item path
      else .ok none)
      (if item.is_null then
        if !port.nullable && (port.default_value.getD .null).is_null then
          some (path' ++ ": required field is missing")
        else none
      else mismatch_at env true port item path') := by
  cases item.is_null with
  | false =>
      rw [Bool.false_and, Bool.false_and]
      exact hPort item hSized path path'
  | true =>
      cases port.nullable with
      | true => exact agree_fits
      | false =>
          cases (port.default_value.getD .null).is_null with
          | true => exact agree_refused
          | false => exact agree_fits

theorem model_agree {ports : List (Port Own)} (hPorts : ∀ port ∈ ports, PortAgrees env port)
    (hNodup : (ports.map Port.key).Nodup) {value : Value} (hSized : value.sized) (path path' : String) :
    Agree (meets_model (ports.map (meeting env)) value)
      (Python.model_mismatch (ports.map (py_child env)) value path)
      (model_mismatch (ports.map (child env)) value path') := by
  cases value with
  | object map =>
      have hMap : ∀ field ∈ map, field.2.sized := Value.sized_fields_iff.1 hSized
      have hFields : Python.fields_of (ports.map (py_child env)) = ports.map (py_child env) := by
        apply fields_of_eq
        rw [List.map_map]
        exact hNodup
      have hUnknown : ((map.map (·.1)).filter fun name =>
            name != "__identifier" && !ports.any (·.key = name)) = [] ↔
          ((map.map (·.1)).all fun name => name = "__identifier" || ports.any (·.key = name)) = true := by
        rw [← unknown_nil_iff]
        simp only [Bool.not_or, bne, Bool.beq_eq_decide_eq]
      unfold meets_model Python.model_mismatch model_mismatch
      dsimp only
      simp only [hFields, any_child (meeting env) (·.port.key) (fun _ => rfl),
        any_child (py_child env) (·.port.key) (fun _ => rfl),
        any_child (child env) (·.port.key) (fun _ => rfl)]
      by_cases hKnown : ((map.map (·.1)).all fun name =>
          name = "__identifier" || ports.any (·.key = name)) = true
      · have hNil := hUnknown.2 hKnown
        rw [if_pos hKnown, if_neg (not_not.2 hNil), if_neg (not_not.2 hNil), List.map_map, List.map_map,
          List.findSome?_map]
        refine agree_all fun port hPort => ?_
        exact field_agree (hPorts port hPort) (Value.sized_getD hMap port.key) _ _
      · have hSome : _ ≠ [] := fun hNil => hKnown (hUnknown.1 hNil)
        rw [if_neg hKnown, if_pos hSome, if_pos hSome]
        exact agree_refused
  | null | bool | int | float | string | array => exact agree_refused

theorem union_agree {ports : List (Port Own)} (hPorts : ∀ port ∈ ports, PortAgrees env port)
    {value : Value} (hSized : value.sized) (path path' : String) :
    Agree (.any ((ports.map (meeting env)).map fun child => child.meets value))
      (Python.union_mismatch env (ports.map (py_child env)) value path)
      (union_mismatch env (ports.map (child env)) value path') := by
  have hAny := agree_any fun port hPort => hPorts port hPort value hSized path path'
  unfold Python.union_mismatch union_mismatch
  have hMeets : (ports.map (meeting env)).map (fun child => child.meets value) =
      ports.map fun port => meets env port value := List.map_map
  have hPasses : (ports.map (py_child env)).map (fun child => child.mismatch value path) =
      ports.map fun port => Python.mismatch_at env true port value path := List.map_map
  have hFits : (ports.map (child env)).any (fun child => (child.mismatch value path').isNone) =
      ports.any fun port => (mismatch_at env true port value path').isNone := List.any_map
  rw [hMeets, hPasses, hFits]
  cases hMet : Met.any (ports.map fun port => meets env port value) with
  | fits =>
      rw [hMet] at hAny
      obtain ⟨hPy, hRust⟩ := hAny
      rw [hPy, hRust]
      exact agree_fits
  | refused =>
      rw [hMet] at hAny
      obtain ⟨hPy, hRust⟩ := hAny
      rw [hPy, hRust]
      exact agree_refused
  | blurred =>
      rw [hMet] at hAny
      obtain ⟨hPy, hRust⟩ := hAny
      rw [hPy, hRust]
      exact ⟨rfl, rfl⟩
  | unhashable strictly =>
      rw [hMet] at hAny
      obtain ⟨hPy, hRust⟩ := hAny
      rw [hPy, hRust]
      cases strictly with
      | true => exact ⟨rfl, rfl⟩
      | false => exact ⟨rfl, rfl⟩

/-! ## Every port -/

/-- A shaped port's checks agree, by induction on the port. -/
theorem port_agrees (env : Env) (port : Port Own) (hShaped : ∀ below ∈ subports port, Shaped below) :
    PortAgrees env port := by
  induction port using Port.ind with
  | mk fields own children ih =>
      have hSelf : Shaped (.mk fields own children) := by
        apply hShaped
        rw [subports_eq]
        exact List.mem_cons_self ..
      have hChildren : ∀ child ∈ children, PortAgrees env child := by
        intro child hChild
        apply ih child hChild
        intro below hBelow
        apply hShaped
        rw [subports_eq]
        exact List.mem_cons_of_mem _ (mem_subports_in.2 ⟨child, hChild, hBelow⟩)
      intro value hSized path path'
      rw [meets, Python.mismatch_at, mismatch_at, as_meetings_eq, py_children_eq, as_children_eq]
      unfold meets_kind Python.kind_mismatch kind_mismatch
      cases hKind : fields.kind with
      | LIST =>
          obtain ⟨item, hItem⟩ := hSelf.item hKind
          have hOnly : children = [item] := hItem
          subst hOnly
          exact list_agree (hChildren item (List.mem_cons_self ..)) hSized path path'
      | DICT => exact dict_agree hChildren hSelf.siblings hSized path path'
      | MODEL => exact model_agree hChildren hSelf.siblings hSized path path'
      | UNION => exact union_agree hChildren hSized path path'
      | ENUM => exact enum_agree env _ value path path'
      | INT =>
          dsimp only
          rw [is_int_sized hSized]
          exact agree_if
      | FLOAT => exact agree_if
      | STRING => exact agree_if
      | BOOL => exact agree_if
      | DATE => exact date_agree env value path path'
      | STRUCTURE => exact reference_agree env fields hSized path path'
      | MEMORY_STRUCTURE => exact reference_agree env fields hSized path path'
      | INTERFACE => exact reference_agree env fields hSized path path'
      | QUANTITY => exact quantity_agree value path path'

/-- One port's argument, left out or given. -/
theorem argument_agree {port : Port Own} (hShaped : ∀ below ∈ subports port, Shaped below)
    {args : List (String × Value)} (hSized : ∀ arg ∈ args, arg.2.sized) :
    Agree (meets_argument env args port) (Python.check_argument env args port)
      (check_argument env args port) := by
  have hDeclared : (port.default_value.any fun d => !d.is_null) =
      !(port.default_value.getD .null).is_null := by
    cases port.default_value <;> rfl
  unfold meets_argument Python.check_argument check_argument
  dsimp only
  rw [hDeclared]
  by_cases hNull : ((Value.get args port.key).getD .null).is_null = true
  · rw [if_pos hNull, if_pos hNull, if_pos hNull]
    by_cases hMay : (port.nullable || !(port.default_value.getD .null).is_null) = true
    · rw [if_pos hMay, if_pos hMay, if_pos hMay]
      exact agree_fits
    · rw [if_neg hMay, if_neg hMay, if_neg hMay]
      exact agree_refused
  · rw [if_neg hNull, if_neg hNull, if_neg hNull]
    have hPort := port_agrees env port hShaped _ (Value.sized_getD hSized port.key)
      (if (none : Option String).getD "" = "" then port.key else (none : Option String).getD "")
      ((none : Option String).getD port.key)
    unfold Python.value_mismatch value_mismatch
    cases hMet : meets env port ((Value.get args port.key).getD .null) with
    | fits =>
        rw [hMet] at hPort
        obtain ⟨hPy, hRust⟩ := hPort
        rw [hPy, hRust]
        exact agree_fits
    | refused =>
        rw [hMet] at hPort
        obtain ⟨⟨message, hPy⟩, hRust⟩ := hPort
        obtain ⟨refusal, hRefusal⟩ := Option.isSome_iff_exists.1 hRust
        rw [hPy, hRefusal]
        exact agree_refused
    | blurred =>
        rw [hMet] at hPort
        obtain ⟨hPy, hRust⟩ := hPort
        obtain ⟨refusal, hRefusal⟩ := Option.isSome_iff_exists.1 hRust
        rw [hPy, hRefusal]
        exact ⟨rfl, rfl⟩
    | unhashable strictly =>
        rw [hMet] at hPort
        obtain ⟨hPy, hRust⟩ := hPort
        rw [hPy]
        exact ⟨rfl, Option.isNone_map.trans hRust⟩

end Children

end Rekuest.Ports
