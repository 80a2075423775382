import Rekuest.HigherOrder.Projection

/-!
# What an accepted wrapper can be called with

Acceptance looks at the keys that a dependency map names, a call at its entries.  So a call
succeeds where every entry says what a call asks of it.  Packing and unpacking are inverse where
both take the key for one; the empty key is none to pack under, and one to unpack from.
-/

namespace Rekuest.HigherOrder

open Rekuest.Ports Insertion

/-! ## Acceptance -/

theorem caller_declared {config : Value} {lower_keys declared : List String}
    (h : validate_dependency_coverage config lower_keys declared = .ok ()) {entry : String × Value}
    (hEntry : entry ∈ dependency_entries config) (hFrom : get_str entry.2 "from" = some "caller") {key : String}
    (hKey : get_str entry.2 "key" = some key) : key ∈ declared := by
  unfold validate_dependency_coverage at h
  cases hFind : (caller_sources config).find? (· ∉ declared) with
  | some undeclared =>
      rw [hFind] at h
      cases h
  | none =>
      have hSource : key ∈ caller_sources config := by
        unfold caller_sources
        refine List.mem_filterMap.2 ⟨entry, List.mem_filter.2 ⟨hEntry, ?_⟩, hKey⟩
        exact decide_eq_true hFrom
      have hNot := List.find?_eq_none.1 hFind key hSource
      rw [decide_eq_true_iff, not_not] at hNot
      exact hNot

/-- Every dependency of the lower has a place: among the declared ones, or in the map. -/
theorem lower_covered {config : Value} {lower_keys declared : List String}
    (h : validate_dependency_coverage config lower_keys declared = .ok ()) {key : String} (hKey : key ∈ lower_keys) :
    (dependency_entries config = [] → key ∈ declared) ∧
      (dependency_entries config ≠ [] → key ∈ (dependency_entries config).map (·.1)) := by
  unfold validate_dependency_coverage at h
  cases hFind : (caller_sources config).find? (· ∉ declared) with
  | some undeclared =>
      rw [hFind] at h
      cases h
  | none =>
      rw [hFind] at h
      dsimp only at h
      cases hEntries : dependency_entries config with
      | nil =>
          rw [hEntries] at h
          cases hLower : lower_keys.find? (· ∉ declared) with
          | some uncovered =>
              rw [hLower] at h
              cases h
          | none =>
              have hNot := List.find?_eq_none.1 hLower key hKey
              rw [decide_eq_true_iff, not_not] at hNot
              exact ⟨fun _ => hNot, fun hNe => absurd rfl hNe⟩
      | cons entry rest =>
          rw [hEntries] at h
          dsimp only at h
          cases hLower : lower_keys.find? (· ∉ (entry :: rest).map (·.1)) with
          | some uncovered =>
              rw [hLower] at h
              cases h
          | none =>
              have hNot := List.find?_eq_none.1 hLower key hKey
              rw [decide_eq_true_iff, not_not] at hNot
              exact ⟨nofun, fun _ => hNot⟩

theorem accepted_covers {stored : Stored} {organization : Int} {input : CreateHigherOrderInput} {created : Created}
    (h : create_higher_order_implementation stored organization input = .ok created) :
    validate_dependency_coverage created.config created.lower.dependencies input.dependencies = .ok () := by
  unfold create_higher_order_implementation at h
  dsimp only at h
  split at h
  · cases h
  · split at h
    · cases h
    · split at h
      · cases h
      · split at h
        · cases h
        · split at h
          · cases h
          · split at h
            · cases h
            · split at h
              · cases h
              · rename_i hCoverage
                split at h
                · cases h
                · split at h
                  · cases h
                  · rw [← Except.ok.inj h]
                    exact hCoverage

/-! ## Dependencies -/

/-- An entry of a dependency map says where its dependency comes from. -/
def Sourced (declared : List String) (spec : Value) : Prop :=
  get_str spec "from" = some "bound" ∨
    get_str spec "from" = some "caller" ∧ (get_str spec "key").getD "" ∈ declared

theorem map_dependencies_ok {declared : List String} {resolved : Fields}
    (hResolved : ∀ key ∈ declared, (resolved.get key).isSome = true) : ∀ {entries : List (String × Value)}
      {lower : Fields}, (∀ entry ∈ entries, Sourced declared entry.2) →
        ∃ built, map_dependencies resolved entries lower = .ok built ∧
          ∀ key, key ∈ entries.map (·.1) ∨ (lower.get key).isSome = true → (built.get key).isSome = true := by
  intro entries
  induction entries with
  | nil =>
      intro lower _
      refine ⟨lower, rfl, ?_⟩
      rintro key (hNone | hKey)
      · cases hNone
      · exact hKey
  | cons entry rest ih =>
      intro lower hSourced
      obtain ⟨lower_key, spec⟩ := entry
      obtain ⟨hEntry, hRest⟩ := List.forall_mem_cons.1 hSourced
      have hNext : ∀ value, ∃ built, map_dependencies resolved rest (lower.insert lower_key value) = .ok built ∧
          ∀ key, key ∈ ((lower_key, spec) :: rest).map (·.1) ∨ (lower.get key).isSome = true →
            (built.get key).isSome = true := by
        intro value
        obtain ⟨built, hBuilt, hKeys⟩ := @ih (lower.insert lower_key value) hRest
        refine ⟨built, hBuilt, ?_⟩
        intro key hKey
        refine hKeys key ?_
        rw [Map.get_insert, List.map_cons, List.mem_cons] at *
        by_cases hIs : key = lower_key
        · rw [if_pos hIs]
          exact .inr rfl
        · rw [if_neg hIs]
          rcases hKey with (hHere | hLater) | hOld
          · exact absurd hHere hIs
          · exact .inl hLater
          · exact .inr hOld
      unfold map_dependencies
      rcases hEntry with hBound | ⟨hCaller, hDeclared⟩
      · rw [hBound]
        exact hNext _
      · rw [hCaller]
        dsimp only
        obtain ⟨value, hValue⟩ := Option.isSome_iff_exists.1 (hResolved _ hDeclared)
        rw [hValue]
        exact hNext value

/-- A call that succeeds found every entry's source. -/
theorem map_dependencies_sourced {resolved : Fields} : ∀ {entries : List (String × Value)} {lower built : Fields},
    map_dependencies resolved entries lower = .ok built →
      ∀ entry ∈ entries, Sourced (resolved.entries.map (·.1)) entry.2 := by
  intro entries
  induction entries with
  | nil =>
      intro lower built _ entry hEntry
      cases hEntry
  | cons first rest ih =>
      intro lower built h
      unfold map_dependencies at h
      refine List.forall_mem_cons.2 ?_
      split at h
      · rename_i hBound
        exact ⟨.inl hBound, ih h⟩
      · rename_i hCaller
        dsimp only at h
        split at h
        · cases h
        · rename_i value hValue
          have hKey : (get_str first.2 "key").getD "" ∈ resolved.entries.map (·.1) :=
            Map.get_isSome.1 (by rw [hValue]; rfl)
          exact ⟨.inr ⟨hCaller, hKey⟩, ih h⟩
      · cases h

/-- The declared dependencies, each resolved to nothing in particular. -/
def any_resolved (declared : List String) : Fields := .of (declared.map fun key => (key, .null))

theorem mem_extend_keys {key : String} : ∀ {entries : List (String × Value)} {m : Fields},
    key ∈ (m.extend entries).entries.map (·.1) ↔ key ∈ m.entries.map (·.1) ∨ key ∈ entries.map (·.1) := by
  intro entries
  induction entries with
  | nil =>
      intro m
      show key ∈ m.entries.map (·.1) ↔ _
      simp
  | cons entry rest ih =>
      intro m
      show key ∈ ((m.insert entry.1 entry.2).extend rest).entries.map (·.1) ↔ _
      rw [ih]
      show key ∈ (put entry.1 entry.2 m.entries).map (·.1) ∨ _ ↔ _
      rw [mem_keys_put, List.map_cons, List.mem_cons]
      tauto

theorem any_resolved_keys {declared : List String} {key : String} :
    key ∈ (any_resolved declared).entries.map (·.1) ↔ key ∈ declared := by
  have hKeys := @mem_extend_keys key (declared.map fun key => (key, Value.null)) .empty
  have hMap : (declared.map fun key => (key, Value.null)).map (·.1) = declared := by
    rw [List.map_map]
    exact List.map_id _
  rw [hMap] at hKeys
  unfold any_resolved Map.of
  rw [hKeys]
  show key ∈ [] ∨ _ ↔ _
  simp

/-- A wrapper's calls get all dependencies of the lower, whatever the declared ones are resolved to. -/
def Callable (config : Value) (lower_keys declared : List String) : Prop :=
  ∀ resolved : Fields, (∀ key ∈ declared, (resolved.get key).isSome = true) →
    ∃ lower, build_lower_dependencies config resolved = .ok lower ∧
      ∀ key ∈ lower_keys, (lower.get key).isSome = true

theorem callable_iff {config : Value} {lower_keys declared : List String}
    (h : validate_dependency_coverage config lower_keys declared = .ok ()) :
    Callable config lower_keys declared ↔
      ∀ entry ∈ dependency_entries config, get_str entry.2 "from" = some "bound" ∨
        get_str entry.2 "from" = some "caller" ∧ ((get_str entry.2 "key").isSome = true ∨ "" ∈ declared) := by
  constructor
  · intro hCallable entry hEntry
    obtain ⟨lower, hBuilt, -⟩ := hCallable (any_resolved declared) fun key hKey =>
      Map.get_isSome.2 (any_resolved_keys.2 hKey)
    have hSome : dependency_entries config ≠ [] := List.ne_nil_of_mem hEntry
    have hMapped : map_dependencies (any_resolved declared) (dependency_entries config) .empty = .ok lower := by
      unfold build_lower_dependencies at hBuilt
      split at hBuilt
      · rename_i hNil
        exact absurd hNil hSome
      · exact hBuilt
    rcases map_dependencies_sourced hMapped entry hEntry with hBound | ⟨hCaller, hKey⟩
    · exact .inl hBound
    · refine .inr ⟨hCaller, ?_⟩
      cases hIs : get_str entry.2 "key" with
      | some key => exact .inl rfl
      | none =>
          rw [hIs] at hKey
          exact .inr (any_resolved_keys.1 hKey)
  · intro hEntries resolved hResolved
    have hSourced : ∀ entry ∈ dependency_entries config, Sourced declared entry.2 := by
      intro entry hEntry
      rcases hEntries entry hEntry with hBound | ⟨hCaller, hKey⟩
      · exact .inl hBound
      · refine .inr ⟨hCaller, ?_⟩
        cases hIs : get_str entry.2 "key" with
        | some key => exact caller_declared h hEntry hCaller hIs
        | none =>
            rcases hKey with hSome | hEmpty
            · rw [hIs] at hSome
              cases hSome
            · exact hEmpty
    unfold build_lower_dependencies
    cases hAll : dependency_entries config with
    | nil =>
        refine ⟨resolved, rfl, ?_⟩
        intro key hKey
        exact hResolved key ((lower_covered h hKey).1 hAll)
    | cons entry rest =>
        rw [hAll] at hSourced
        obtain ⟨built, hBuilt, hKeys⟩ := @map_dependencies_ok declared resolved hResolved _ .empty hSourced
        refine ⟨built, hBuilt, ?_⟩
        intro key hKey
        have hIn := (lower_covered h hKey).2 (by rw [hAll]; nofun)
        rw [hAll] at hIn
        exact hKeys key (.inl hIn)

/-! ## The way there and back -/

/-- Nothing is bound, and no arg and no return is mapped. -/
structure Plain (config : Value) : Prop where
  bound : ((get_object config "bound").map (·.entries)).getD [] = []
  arg_map : ((get_object config "arg_map").map (·.entries)).getD [] = []
  return_map : ((get_object config "return_map").map (·.entries)).getD [] = []

/-- What a plain wrapper's lower is called with. -/
theorem plain_args {config : Value} (h : Plain config) (args : Fields) : build_lower_args config args =
    .ok (match (get_str config "args_key").filter (· ≠ "") with
      | some args_key => Map.empty.insert args_key (.object args.entries)
      | none => args) := by
  have hBound : (get_object config "bound").getD .empty = .empty := by
    have hEntries := h.bound
    cases hGet : get_object config "bound" with
    | none => rfl
    | some fields =>
        rw [hGet] at hEntries
        exact Map.eq_of_entries hEntries
  have hRemaining : args.filter (fun key => key ∉ []) = args := by
    refine Map.eq_of_entries ?_
    exact List.filter_eq_self.2 fun entry _ => decide_eq_true List.not_mem_nil
  unfold build_lower_args
  dsimp only
  rw [h.arg_map, hBound]
  unfold map_args
  dsimp only
  rw [hRemaining]
  cases (get_str config "args_key").filter (· ≠ "") with
  | some args_key => rfl
  | none =>
      dsimp only
      rw [show Map.empty.extend args.entries = args from Map.of_entries args]

theorem plain_returns {config : Value} (h : Plain config) (lower : Fields) : project_returns config (some lower) =
    some (match get_str config "returns_key" with
      | some key => ((lower.get key).bind as_object).getD .empty
      | none => lower) := by
  unfold project_returns
  rw [h.return_map]
  rfl

/-- The lower is called with the caller's args, and its returns are the caller's. -/
def GivesBack (config : Value) (args : Fields) : Prop :=
  ∃ lower, build_lower_args config args = .ok lower ∧ project_returns config (some lower) = some args

/-- A plain wrapper that packs and unpacks under one key gives its args back, unless the key is empty. -/
theorem inverse_iff {config : Value} (h : Plain config)
    (hSame : get_str config "args_key" = get_str config "returns_key") :
    (∀ args, GivesBack config args) ↔ get_str config "args_key" ≠ some "" := by
  constructor
  · intro hAll hEmpty
    obtain ⟨lower, hLower, hBack⟩ := hAll (Map.empty.insert "a" .null)
    rw [plain_args h, hEmpty] at hLower
    have hIs : Map.empty.insert "a" Value.null = lower := Except.ok.inj hLower
    rw [plain_returns h, ← hSame, hEmpty, ← hIs] at hBack
    have hEntries := congrArg Map.entries (Option.some.inj hBack)
    cases hEntries
  · intro hKey args
    refine ⟨_, plain_args h args, ?_⟩
    rw [plain_returns h, ← hSame]
    cases hGet : get_str config "args_key" with
    | none => rfl
    | some key =>
        have hNotEmpty : key ≠ "" := by
          intro hIs
          rw [hGet, hIs] at hKey
          exact hKey rfl
        rw [show (some key).filter (· ≠ "") = some key from if_pos (decide_eq_true hNotEmpty)]
        dsimp only
        rw [Map.get_insert, if_pos rfl]
        show some (Map.of args.entries) = some args
        rw [Map.of_entries]

/-- Of an accepted wrapper: its calls get the lower's dependencies if and only if every entry of its
dependency map is bound, or the caller's under a key (or the empty key is declared); and packing and
unpacking under one key are inverse if and only if it is not empty. -/
theorem accepted_wrapper {stored : Stored} {organization : Int} {input : CreateHigherOrderInput} {created : Created}
    (h : create_higher_order_implementation stored organization input = .ok created) :
    (Callable created.config created.lower.dependencies input.dependencies ↔
      ∀ entry ∈ dependency_entries created.config, get_str entry.2 "from" = some "bound" ∨
        get_str entry.2 "from" = some "caller" ∧
          ((get_str entry.2 "key").isSome = true ∨ "" ∈ input.dependencies)) ∧
    (Plain created.config → get_str created.config "args_key" = get_str created.config "returns_key" →
      ((∀ args, GivesBack created.config args) ↔ get_str created.config "args_key" ≠ some "")) :=
  ⟨callable_iff (accepted_covers h), inverse_iff⟩

/-- One implementation, which depends on a store, and whatever wraps it. -/
def one_lower : Stored where
  implementation := fun _ => some ⟨1, 1, "lower", none, "FUNCTION", 1, ["db"]⟩
  occupant := fun _ _ => none
  register := fun _ _ => .ok 2

def wrapping (config : List (String × Value)) : CreateHigherOrderInput :=
  ⟨"1", "wrapper", "FUNCTION", some (.object config), ["db"], .ok ()⟩

def packing : List (String × Value) := [("args_key", .string "kwargs"), ("returns_key", .string "kwargs")]

theorem packing_plain : Plain (.object packing) := ⟨rfl, rfl, rfl⟩

theorem packed_and_unpacked : Callable (.object packing) ["db"] ["db"] ∧
    GivesBack (.object packing) (Map.empty.insert "x" (.int 1)) := by
  have hAccepted : create_higher_order_implementation one_lower 1 (wrapping packing) =
      .ok ⟨2, ⟨1, 1, "lower", none, "FUNCTION", 1, ["db"]⟩, .object packing⟩ := by rfl
  have hBoth := accepted_wrapper hAccepted
  refine ⟨hBoth.1.2 nofun, (hBoth.2 packing_plain rfl).2 ?_ _⟩
  rw [show get_str (.object packing) "args_key" = some "kwargs" from rfl]
  decide

/-- An entry from elsewhere, one from the caller under no key, and the empty key. -/
theorem accepted_gaps :
    (∃ created, create_higher_order_implementation one_lower 1 (wrapping [("dependency_map", .object
        [("db", .object [("from", .string "elsewhere")])])]) = .ok created ∧
      ¬ Callable created.config created.lower.dependencies ["db"]) ∧
    (∃ created, create_higher_order_implementation one_lower 1 (wrapping [("dependency_map", .object
        [("db", .object [("from", .string "caller")])])]) = .ok created ∧
      ¬ Callable created.config created.lower.dependencies ["db"]) ∧
    ∃ created, create_higher_order_implementation one_lower 1 (wrapping
        [("args_key", .string ""), ("returns_key", .string "")]) = .ok created ∧
      Plain created.config ∧ get_str created.config "args_key" = get_str created.config "returns_key" ∧
        ¬ GivesBack created.config (Map.empty.insert "x" (.int 1)) := by
  refine ⟨⟨_, by rfl, ?_⟩, ⟨_, by rfl, ?_⟩, _, by rfl, ⟨by rfl, by rfl, by rfl⟩, by rfl, ?_⟩
  · intro hCallable
    rcases (callable_iff (by rfl)).1 hCallable ("db", .object [("from", .string "elsewhere")])
      List.mem_cons_self with hBound | ⟨hCaller, -⟩
    · exact absurd hBound (by decide)
    · exact absurd hCaller (by decide)
  · intro hCallable
    rcases (callable_iff (by rfl)).1 hCallable ("db", .object [("from", .string "caller")])
      List.mem_cons_self with hBound | ⟨-, hKey | hEmpty⟩
    · exact absurd hBound (by decide)
    · cases hKey
    · exact absurd hEmpty (by decide)
  · rintro ⟨lower, hLower, hBack⟩
    rw [← Except.ok.inj hLower] at hBack
    have hEntries := congrArg Map.entries (Option.some.inj hBack)
    cases hEntries

end Rekuest.HigherOrder
