import Rekuest.Ports.Naming

/-!
# What an accepted definition may name

The checks of a definition leave its ports well keyed.  Every port then has a path of
its own exactly where no port is keyed as an item and no port with children ends its key
with a dot: an item's path is split in other places than it was joined, and a dot before
a separator is taken into it.
-/

namespace Rekuest.Ports

/-! ## What one port's checks leave -/

theorem free_of_check {key owner : String} {u : Unit} (h : check_port_key key owner = .ok u) :
    contains_separator key = true → key = ITEM_KEY := by
  intro hSeparator
  unfold check_port_key at h
  split at h
  · cases h
  · split at h
    · cases h
    · split at h
      · cases h
      · rename_i hFree
        by_cases hItem : key = ITEM_KEY
        · exact hItem
        · simp [hSeparator, hItem] at hFree

theorem second_none {seen keys : List String} (h : second seen keys = none) :
    keys.Nodup ∧ ∀ key ∈ keys, key ∉ seen := by
  induction keys generalizing seen with
  | nil => exact ⟨List.nodup_nil, fun key hKey => by cases hKey⟩
  | cons key rest ih =>
      rw [second] at h
      split at h
      · cases h
      · rename_i hNew
        obtain ⟨hNodup, hRest⟩ := ih h
        refine ⟨List.nodup_cons.2 ⟨fun hMem => hRest key hMem (List.mem_cons_self ..), hNodup⟩, ?_⟩
        intro other hOther
        cases hOther with
        | head => exact hNew
        | tail _ hOther => exact fun hSeen => hRest other hOther (List.mem_cons_of_mem _ hSeen)

theorem nodup_of_check {keys : List String} {owner : String} {u : Unit}
    (h : check_unique_keys keys owner = .ok u) : keys.Nodup := by
  unfold check_unique_keys at h
  split at h
  · cases h
  · rename_i hSecond
    exact (second_none hSecond).1

/-- A port of any kind has children with different keys: most kinds have none. -/
theorem siblings_of_check {fields : PortFields} {child_keys : List String} {u : Unit}
    (h : fields.check_children child_keys = .ok u) : child_keys.Nodup := by
  unfold PortFields.check_children at h
  split at h
  · split at h
    · cases h
    · rename_i hNone
      rw [ne_eq, not_not] at hNone
      rw [hNone]
      exact List.nodup_nil
  · split at h
    · cases h
    · obtain ⟨_, hUnique, -⟩ := bind_ok h
      exact nodup_of_check hUnique

theorem single_of_check {fields : PortFields} {child_keys : List String} {u : Unit}
    (h : fields.check_children child_keys = .ok u) (hList : fields.kind = .LIST) :
    child_keys.length = 1 := by
  unfold PortFields.check_children at h
  rw [hList] at h
  dsimp only [bounds] at h
  split at h
  · cases h
  · rename_i hCount
    rw [not_or] at hCount
    have hHigh : ¬ child_keys.length > 1 := by simpa using hCount.2
    omega

section Validate

variable {Own : Type} {env : Env} {held : Held Own}
  {check_default : Port Own → Except ValidationError Unit}

theorem settle_quantity_same {fields fields' : PortFields}
    (h : fields.settle_quantity env = .ok fields') :
    fields'.key = fields.key ∧ fields'.kind = fields.kind := by
  unfold PortFields.settle_quantity at h
  split at h
  · cases h
  · obtain ⟨_, -, h⟩ := bind_ok h
    obtain ⟨_, -, h⟩ := bind_ok h
    obtain ⟨_, -, h⟩ := bind_ok h
    cases h
    exact ⟨rfl, rfl⟩

theorem check_unmeasured_same {fields fields' : PortFields}
    (h : fields.check_unmeasured = .ok fields') : fields' = fields := by
  unfold PortFields.check_unmeasured at h
  dsimp only at h
  split at h
  · cases h
  · cases h
    rfl

/-- The common checks keep the key and the kind. -/
theorem fields_validated_same {fields fields' : PortFields} {child_keys : List String}
    (h : fields.validate env child_keys = .ok fields') :
    fields'.key = fields.key ∧ fields'.kind = fields.kind := by
  unfold PortFields.validate at h
  obtain ⟨_, -, h⟩ := bind_ok h
  obtain ⟨_, -, h⟩ := bind_ok h
  obtain ⟨_, -, h⟩ := bind_ok h
  obtain ⟨_, -, h⟩ := bind_ok h
  split at h
  · exact settle_quantity_same h
  · rw [check_unmeasured_same h]
    exact ⟨rfl, rfl⟩

/-- The key is free of the separator, and the children are told apart; a list has one. -/
theorem fields_validated {fields fields' : PortFields} {child_keys : List String}
    (h : fields.validate env child_keys = .ok fields') :
    (contains_separator fields.key = true → fields.key = ITEM_KEY) ∧ child_keys.Nodup ∧
      (fields.kind = .LIST → child_keys.length = 1) := by
  unfold PortFields.validate at h
  obtain ⟨_, hKey, h⟩ := bind_ok h
  obtain ⟨_, hChildren, -⟩ := bind_ok h
  exact ⟨free_of_check hKey, siblings_of_check hChildren, single_of_check hChildren⟩

theorem validate_port_key {port accepted : Port Own}
    (h : validate_port env held check_default port = .ok accepted) : accepted.key = port.key := by
  cases port with
  | mk fields own children =>
      rw [validate_port] at h
      obtain ⟨children', -, h⟩ := bind_ok h
      obtain ⟨own', -, h⟩ := bind_ok h
      obtain ⟨own'', -, h⟩ := bind_ok h
      obtain ⟨fields', hFields, h⟩ := bind_ok h
      obtain ⟨_, -, h⟩ := bind_ok h
      obtain ⟨_, -, h⟩ := bind_ok h
      cases h
      exact (fields_validated_same hFields).1

/-- Every port is among the accepted ones, with its own key. -/
theorem validate_ports_keys {ports accepted : List (Port Own)}
    (h : validate_ports env held check_default ports = .ok accepted) :
    accepted.map Port.key = ports.map Port.key := by
  induction ports generalizing accepted with
  | nil =>
      cases h
      rfl
  | cons port rest ih =>
      rw [validate_ports] at h
      obtain ⟨first, hFirst, h⟩ := bind_ok h
      obtain ⟨later, hLater, h⟩ := bind_ok h
      cases h
      rw [List.map_cons, List.map_cons, validate_port_key hFirst, ih hLater]

theorem validate_ports_each {ports accepted : List (Port Own)}
    (h : validate_ports env held check_default ports = .ok accepted) :
    ∀ port ∈ ports, ∃ accepted, validate_port env held check_default port = .ok accepted := by
  induction ports generalizing accepted with
  | nil =>
      intro port hPort
      cases hPort
  | cons port rest ih =>
      rw [validate_ports] at h
      obtain ⟨first, hFirst, h⟩ := bind_ok h
      obtain ⟨later, hLater, h⟩ := bind_ok h
      exact List.forall_mem_cons.2 ⟨⟨first, hFirst⟩, ih hLater⟩

/-- An accepted port is well keyed, and so is every port below it. -/
theorem validate_port_keyed {port accepted : Port Own}
    (h : validate_port env held check_default port = .ok accepted) :
    ∀ below ∈ subports port, WellKeyed below := by
  induction port using Port.ind generalizing accepted with
  | mk fields own children ih =>
      rw [validate_port] at h
      obtain ⟨children', hChildren, h⟩ := bind_ok h
      obtain ⟨own', -, h⟩ := bind_ok h
      obtain ⟨own'', -, h⟩ := bind_ok h
      obtain ⟨fields', hFields, -⟩ := bind_ok h
      obtain ⟨hFree, hSiblings, -⟩ := fields_validated hFields
      rw [validate_ports_keys hChildren] at hSiblings
      intro below hBelow
      rw [subports_eq] at hBelow
      cases hBelow with
      | head => exact ⟨hFree, hSiblings⟩
      | tail _ hBelow =>
          obtain ⟨child, hChild, hBelow⟩ := mem_subports_in.1 hBelow
          obtain ⟨accepted, hAccepted⟩ := validate_ports_each hChildren child hChild
          exact ih child hChild hAccepted below hBelow

/-- What the shape rules leave at a port: its children differ, and a list has one. -/
structure Shaped (port : Port Own) : Prop where
  siblings : (port.children.map Port.key).Nodup
  item : port.kind = .LIST → ∃ item, port.children = [item]

theorem accepted_of_mem {ports accepted : List (Port Own)}
    (h : validate_ports env held check_default ports = .ok accepted) :
    ∀ after ∈ accepted, ∃ port ∈ ports, validate_port env held check_default port = .ok after := by
  induction ports generalizing accepted with
  | nil =>
      cases h
      intro after hAfter
      cases hAfter
  | cons port rest ih =>
      rw [validate_ports] at h
      obtain ⟨first, hFirst, h⟩ := bind_ok h
      obtain ⟨later, hLater, h⟩ := bind_ok h
      cases h
      intro after hAfter
      cases hAfter with
      | head => exact ⟨port, List.mem_cons_self .., hFirst⟩
      | tail _ hAfter =>
          obtain ⟨other, hOther, hAccepted⟩ := ih hLater after hAfter
          exact ⟨other, List.mem_cons_of_mem _ hOther, hAccepted⟩

/-- The ports that the checks leave are shaped, at every depth. -/
theorem validate_port_shaped {port accepted : Port Own}
    (h : validate_port env held check_default port = .ok accepted) :
    ∀ below ∈ subports accepted, Shaped below := by
  induction port using Port.ind generalizing accepted with
  | mk fields own children ih =>
      rw [validate_port] at h
      obtain ⟨children', hChildren, h⟩ := bind_ok h
      obtain ⟨own', -, h⟩ := bind_ok h
      obtain ⟨own'', -, h⟩ := bind_ok h
      obtain ⟨fields', hFields, h⟩ := bind_ok h
      obtain ⟨_, -, h⟩ := bind_ok h
      obtain ⟨_, -, h⟩ := bind_ok h
      cases h
      obtain ⟨-, hSiblings, hSingle⟩ := fields_validated hFields
      have hKind := (fields_validated_same hFields).2
      intro below hBelow
      rw [subports_eq] at hBelow
      cases hBelow with
      | head =>
          refine ⟨hSiblings, fun hList => List.length_eq_one_iff.1 ?_⟩
          have hOne := hSingle (hKind ▸ hList)
          rwa [List.length_map] at hOne
      | tail _ hBelow =>
          obtain ⟨after, hAfter, hBelow⟩ := mem_subports_in.1 hBelow
          obtain ⟨child, hChild, hAccepted⟩ := accepted_of_mem hChildren after hAfter
          exact ih child hChild hAccepted below hBelow

theorem validate_ports_apart {ports accepted : List (Port Own)}
    (h : validate_ports env held check_default ports = .ok accepted)
    (hRoots : (accepted.map Port.key).Nodup) : Apart ports := by
  rw [validate_ports_keys h] at hRoots
  refine ⟨hRoots, ?_⟩
  intro below hBelow
  obtain ⟨port, hPort, hBelow⟩ := mem_subports_in.1 hBelow
  obtain ⟨accepted, hAccepted⟩ := validate_ports_each h port hPort
  exact validate_port_keyed hAccepted below hBelow

end Validate

/-! ## A definition's ports -/

section Definition

variable {A R G D : Type} {env : Env} {rules : Rules A R G D}

namespace DefinitionInputModel

/-- The chains of the definition's ports. -/
def chains (d : DefinitionInputModel A R G D) : List (List String) :=
  chains_in d.args ++ chains_in d.returns

/-- Every port's path resolves, and no two ports have the same. -/
structure Named (d : DefinitionInputModel A R G D) : Prop where
  resolved : ∀ chain ∈ d.chains, resolve_port_path (port_path chain) d.args d.returns = true
  distinct : (d.chains.map port_path).Nodup

/-- Ports apart on either side, and the sides from each other. -/
structure Keyed (d : DefinitionInputModel A R G D) : Prop where
  args : Apart d.args
  returns : Apart d.returns
  disjoint : ∀ key ∈ d.args.map Port.key, key ∉ d.returns.map Port.key

theorem keyed_of_validate {d accepted : DefinitionInputModel A R G D}
    (h : d.validate env rules = .ok accepted) : d.Keyed := by
  unfold DefinitionInputModel.validate at h
  obtain ⟨groups, -, h⟩ := bind_ok h
  obtain ⟨args, hArgs, h⟩ := bind_ok h
  obtain ⟨returns, hReturns, h⟩ := bind_ok h
  obtain ⟨rest, -, h⟩ := bind_ok h
  obtain ⟨_, hKeys, -⟩ := bind_ok h
  unfold DefinitionInputModel.check_keys at hKeys
  obtain ⟨_, hArgKeys, hKeys⟩ := bind_ok hKeys
  obtain ⟨_, hReturnKeys, hShared⟩ := bind_ok hKeys
  dsimp only at hShared
  have hNone : (returns.map Port.key).filter (· ∈ args.map Port.key) = [] := by
    split at hShared
    · cases hShared
    · rename_i hNone
      exact not_not.1 hNone
  refine ⟨validate_ports_apart hArgs (nodup_of_check hArgKeys),
    validate_ports_apart hReturns (nodup_of_check hReturnKeys), ?_⟩
  rw [← validate_ports_keys hArgs, ← validate_ports_keys hReturns]
  intro key hArg hReturn
  have hBoth : key ∈ (returns.map Port.key).filter (· ∈ args.map Port.key) :=
    List.mem_filter.2 ⟨hReturn, by simpa using hArg⟩
  rw [hNone] at hBoth
  cases hBoth

theorem head_of_chain_in {Own : Type} {ports : List (Port Own)} {first : String}
    {rest : List String} (hChain : first :: rest ∈ chains_in ports) : first ∈ ports.map Port.key := by
  obtain ⟨port, hPort, hChain⟩ := mem_chains_in.1 hChain
  obtain ⟨rest', hSame, -⟩ := head_of_chain hChain
  rw [(List.cons.inj hSame).1]
  exact List.mem_map_of_mem hPort

theorem walk_none {Own : Type} {ports : List (Port Own)} {first : String} {rest : List String}
    (hUnknown : first ∉ ports.map Port.key) : walk ports first rest = none := by
  have hFind : ports.find? (·.key = first) = none := by
    rw [List.find?_eq_none]
    intro port hPort hKey
    exact hUnknown (List.mem_map.2 ⟨port, hPort, by simpa using hKey⟩)
  cases rest with
  | nil => rw [walk, hFind]; rfl
  | cons next rest => rw [walk, hFind]; rfl

/-- A path resolves exactly when its segments are the chain of a port. -/
theorem resolve_iff {d : DefinitionInputModel A R G D} (hKeyed : d.Keyed) {path : String} :
    resolve_port_path path d.args d.returns = true ↔ segments path ∈ d.chains := by
  rw [chains, List.mem_append]
  unfold resolve_port_path
  cases hSegments : segments path with
  | nil =>
      constructor
      · intro hFalse
        cases hFalse
      · intro hNil
        cases hNil with
        | inl hArg => exact absurd rfl (chain_ne_nil hArg)
        | inr hReturn => exact absurd rfl (chain_ne_nil hReturn)
  | cons first rest =>
      dsimp only
      constructor
      · intro hResolved
        cases hArg : walk d.args first rest with
        | none =>
            rw [hArg, Option.none_or] at hResolved
            cases hReturn : walk d.returns first rest with
            | none => simp [hReturn] at hResolved
            | some found =>
                rw [hReturn] at hResolved
                have hFound : found = true := hResolved
                subst hFound
                exact .inr (chain_of_walk hReturn)
        | some found =>
            rw [hArg] at hResolved
            have hFound : found = true := hResolved
            subst hFound
            exact .inl (chain_of_walk hArg)
      · intro hChain
        cases hChain with
        | inl hArg =>
            rw [walk_of_chain hKeyed.args hArg]
            rfl
        | inr hReturn =>
            have hUnknown : first ∉ d.args.map Port.key := fun hArg =>
              hKeyed.disjoint first hArg (head_of_chain_in hReturn)
            rw [walk_none hUnknown, walk_of_chain hKeyed.returns hReturn]
            rfl

theorem chains_nodup {d : DefinitionInputModel A R G D} (hKeyed : d.Keyed) : d.chains.Nodup := by
  rw [chains, List.nodup_append]
  refine ⟨hKeyed.args.chains_nodup, hKeyed.returns.chains_nodup, ?_⟩
  intro chain hArg chain' hReturn hSame
  subst hSame
  cases chain with
  | nil => exact chain_ne_nil hArg rfl
  | cons first rest =>
      exact hKeyed.disjoint first (head_of_chain_in hArg) (head_of_chain_in hReturn)

/-- Ports are named by their paths exactly when the path of each is split into its own chain. -/
theorem named_iff_segments {d : DefinitionInputModel A R G D} (hKeyed : d.Keyed) :
    d.Named ↔ ∀ chain ∈ d.chains, segments (port_path chain) = chain := by
  constructor
  · intro hNamed chain hChain
    have hFound : segments (port_path chain) ∈ d.chains :=
      (resolve_iff hKeyed).1 (hNamed.resolved chain hChain)
    exact List.inj_on_of_nodup_map hNamed.distinct hFound hChain (port_path_segments _)
  · intro hSegments
    constructor
    · intro chain hChain
      rw [resolve_iff hKeyed, hSegments chain hChain]
      exact hChain
    · refine List.Nodup.map_on ?_ (chains_nodup hKeyed)
      intro chain hChain chain' hChain' hPath
      rw [← hSegments chain hChain, hPath, hSegments chain' hChain']

end DefinitionInputModel

theorem plain_iff_nameable {Own : Type} {ports : List (Port Own)} (hApart : Apart ports) :
    (∀ chain ∈ chains_in ports, Paths.Plain '.' (words chain)) ↔
      ∀ port ∈ subports_in ports, Nameable port := by
  constructor
  · intro hPlain below hBelow
    obtain ⟨port, hPort, hBelow⟩ := mem_subports_in.1 hBelow
    refine nameable_of_plain port ?_ below hBelow
    exact fun chain hChain => hPlain chain (mem_chains_in.2 ⟨port, hPort, hChain⟩)
  · intro hNameable chain hChain
    exact plain_of_nameable hApart.below hNameable hChain

/-- In a definition that is accepted, every port has a path that resolves and that no other
port has, if and only if no port at any depth is keyed `...` and no port with children
ends its key with a dot. -/
theorem paths_name_ports_iff {d accepted : DefinitionInputModel A R G D}
    (h : d.validate env rules = .ok accepted) :
    d.Named ↔ (∀ port ∈ subports_in d.args, Nameable port) ∧
      ∀ port ∈ subports_in d.returns, Nameable port := by
  have hKeyed := DefinitionInputModel.keyed_of_validate h
  rw [DefinitionInputModel.named_iff_segments hKeyed, ← plain_iff_nameable hKeyed.args,
    ← plain_iff_nameable hKeyed.returns, DefinitionInputModel.chains, List.forall_mem_append]
  constructor
  · intro hSegments
    exact ⟨fun chain hChain => (segments_port_path (chain_ne_nil hChain)).1 (hSegments.1 chain hChain),
      fun chain hChain => (segments_port_path (chain_ne_nil hChain)).1 (hSegments.2 chain hChain)⟩
  · intro hPlain
    exact ⟨fun chain hChain => (segments_port_path (chain_ne_nil hChain)).2 (hPlain.1 chain hChain),
      fun chain hChain => (segments_port_path (chain_ne_nil hChain)).2 (hPlain.2 chain hChain)⟩

end Definition

/-! ## A list and its item -/

/-- Nothing outside refuses anything. -/
def lenient : Rules Unit Unit Unit Unit where
  arg := { own := .ok, effects := .ok, fits := fun _ => .ok () }
  ret := { own := .ok, effects := .ok, fits := fun _ => .ok () }
  group := .ok
  definition := .ok
  arg_dependencies _ _ := []
  return_dependencies _ _ := []
  group_dependencies _ := []

def plain_env : Env where
  float_repr _ := ""
  is_iso_date _ := false
  dimensionality_of unit := .ok unit

/-- A definition that takes a list of integers, the item keyed as said. -/
def takes_items (item : String) : DefinitionInputModel Unit Unit Unit Unit where
  key := "scan"
  port_groups := []
  args := [.mk { key := "items", kind := .LIST } { rest := () }
    [.mk { key := item, kind := .INT } { rest := () } []]]
  returns := []
  protocols := []
  rest := ()

theorem items_named_apart :
    (takes_items "item").Named ↔ (∀ port ∈ subports_in (takes_items "item").args, Nameable port) ∧
      ∀ port ∈ subports_in (takes_items "item").returns, Nameable port := by
  have hAccepted : (takes_items "item").validate plain_env lenient = .ok (takes_items "item") := rfl
  exact paths_name_ports_iff hAccepted

/-- The path of an item keyed as items are is not resolved. -/
theorem item_has_no_path :
    ¬ ∀ (A R G D : Type) (env : Env) (rules : Rules A R G D) (d accepted : DefinitionInputModel A R G D),
      d.validate env rules = .ok accepted → d.Named := by
  intro hAll
  have hAccepted : (takes_items "...").validate plain_env lenient = .ok (takes_items "...") := rfl
  have hNamed := hAll _ _ _ _ plain_env lenient _ _ hAccepted
  have hResolved := hNamed.resolved ["items", "..."] (by decide)
  revert hResolved
  decide

end Rekuest.Ports
