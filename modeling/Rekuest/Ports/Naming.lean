import Mathlib.Data.List.Nodup
import Rekuest.Ports.Definition

/-!
# Naming a port by its path

Every port has a chain, the keys from its root port down, and its path is the chain
with separators between.  Chains tell ports apart, since siblings differ.  Paths do so,
and resolve, only as long as splitting undoes joining.
-/

namespace Rekuest.Ports

variable {Own : Type}

mutual

/-- The chains of a port and of those below it: one for each port. -/
def chains : Port Own → List (List String)
  | .mk fields _ children => [fields.key] :: (chains_in children).map (fields.key :: ·)

def chains_in : List (Port Own) → List (List String)
  | [] => []
  | port :: rest => chains port ++ chains_in rest

end

mutual

/-- A port and the ports below it. -/
def subports : Port Own → List (Port Own)
  | .mk fields own children => .mk fields own children :: subports_in children

def subports_in : List (Port Own) → List (Port Own)
  | [] => []
  | port :: rest => subports port ++ subports_in rest

end

/-- The path of a chain. -/
def port_path (chain : List String) : String := PORT_PATH_SEPARATOR.intercalate chain

theorem mem_chains_in {ports : List (Port Own)} {chain : List String} :
    chain ∈ chains_in ports ↔ ∃ port ∈ ports, chain ∈ chains port := by
  induction ports with
  | nil => simp [chains_in]
  | cons port rest ih => simp [chains_in, ih]

theorem mem_subports_in {ports : List (Port Own)} {below : Port Own} :
    below ∈ subports_in ports ↔ ∃ port ∈ ports, below ∈ subports port := by
  induction ports with
  | nil => simp [subports_in]
  | cons port rest ih => simp [subports_in, ih]

theorem chains_eq (port : Port Own) :
    chains port = [port.key] :: (chains_in port.children).map (port.key :: ·) := by
  cases port with
  | mk fields own children => rw [chains]; rfl

theorem subports_eq (port : Port Own) : subports port = port :: subports_in port.children := by
  cases port with
  | mk fields own children => rw [subports]; rfl

theorem mem_subports_self (port : Port Own) : port ∈ subports port := by
  rw [subports_eq]
  exact List.mem_cons_self ..

theorem head_of_chain {port : Port Own} {chain : List String} (hChain : chain ∈ chains port) :
    ∃ rest, chain = port.key :: rest ∧ (rest = [] ∨ rest ∈ chains_in port.children) := by
  rw [chains_eq] at hChain
  cases hChain with
  | head => exact ⟨[], rfl, .inl rfl⟩
  | tail _ hBelow =>
      obtain ⟨rest, hRest, rfl⟩ := List.mem_map.1 hBelow
      exact ⟨rest, rfl, .inr hRest⟩

theorem chain_of_head {port : Port Own} {rest : List String}
    (hRest : rest = [] ∨ rest ∈ chains_in port.children) : port.key :: rest ∈ chains port := by
  rw [chains_eq]
  cases hRest with
  | inl hNil =>
      rw [hNil]
      exact List.mem_cons_self ..
  | inr hBelow => exact List.mem_cons_of_mem _ (List.mem_map.2 ⟨rest, hBelow, rfl⟩)

theorem chain_ne_nil {ports : List (Port Own)} {chain : List String}
    (hChain : chain ∈ chains_in ports) : chain ≠ [] := by
  obtain ⟨port, hPort, hChain⟩ := mem_chains_in.1 hChain
  obtain ⟨rest, rfl, hRest⟩ := head_of_chain hChain
  exact List.cons_ne_nil _ _

/-! ## Well-keyed ports -/

/-- The keys that the checks leave at a port: its own is free of the separator, bar the item
key, and its children's differ. -/
structure WellKeyed (port : Port Own) : Prop where
  free : contains_separator port.key = true → port.key = ITEM_KEY
  siblings : (port.children.map Port.key).Nodup

/-- A port that can be part of a path: not keyed as an item, and with no dot before a
separator. -/
structure Nameable (port : Port Own) : Prop where
  named : port.key ≠ ITEM_KEY
  undotted : port.children ≠ [] → port.key.toList.getLast? ≠ some '.'

/-- Ports with different keys, and so all the way down. -/
structure Apart (ports : List (Port Own)) : Prop where
  roots : (ports.map Port.key).Nodup
  below : ∀ port ∈ subports_in ports, WellKeyed port

theorem Apart.children {ports : List (Port Own)} (hApart : Apart ports) {port : Port Own}
    (hPort : port ∈ ports) : Apart port.children := by
  have hSelf : port ∈ subports_in ports := mem_subports_in.2 ⟨port, hPort, mem_subports_self port⟩
  refine ⟨(hApart.below port hSelf).siblings, ?_⟩
  intro below hBelow
  refine hApart.below below (mem_subports_in.2 ⟨port, hPort, ?_⟩)
  rw [subports_eq]
  exact List.mem_cons_of_mem _ hBelow

theorem Apart.find {ports : List (Port Own)} (hApart : Apart ports) {port : Port Own}
    (hPort : port ∈ ports) {key : String} (hKey : port.key = key) :
    ports.find? (·.key = key) = some port := by
  have hFound : (ports.find? (·.key = key)).isSome := by
    rw [List.find?_isSome]
    exact ⟨port, hPort, by simp [hKey]⟩
  obtain ⟨found, hFind⟩ := Option.isSome_iff_exists.1 hFound
  have hFoundKey : found.key = key := by simpa using List.find?_some hFind
  have hSame : found = port :=
    List.inj_on_of_nodup_map hApart.roots (List.mem_of_find?_eq_some hFind) hPort
      (hFoundKey.trans hKey.symm)
  rw [hFind, hSame]

/-! ## The walk -/

/-- A walk that ends at a port has followed its chain. -/
theorem chain_of_walk {ports : List (Port Own)} {first : String} {rest : List String}
    (hWalk : walk ports first rest = some true) : first :: rest ∈ chains_in ports := by
  induction rest generalizing ports first with
  | nil =>
      rw [walk] at hWalk
      obtain ⟨port, hFind, -⟩ := Option.map_eq_some_iff.1 hWalk
      have hKey : port.key = first := by simpa using List.find?_some hFind
      refine mem_chains_in.2 ⟨port, List.mem_of_find?_eq_some hFind, ?_⟩
      rw [← hKey]
      exact chain_of_head (.inl rfl)
  | cons next rest ih =>
      rw [walk] at hWalk
      obtain ⟨port, hFind, hRest⟩ := Option.map_eq_some_iff.1 hWalk
      have hKey : port.key = first := by simpa using List.find?_some hFind
      have hBelow : walk port.children next rest = some true := by
        cases hWalk : walk port.children next rest with
        | none => simp [hWalk] at hRest
        | some found => simpa [hWalk] using hRest
      refine mem_chains_in.2 ⟨port, List.mem_of_find?_eq_some hFind, ?_⟩
      rw [← hKey]
      exact chain_of_head (.inr (ih hBelow))

/-- The chain of a port is walked to its end. -/
theorem walk_of_chain {ports : List (Port Own)} (hApart : Apart ports) {first : String}
    {rest : List String} (hChain : first :: rest ∈ chains_in ports) :
    walk ports first rest = some true := by
  induction rest generalizing ports first with
  | nil =>
      obtain ⟨port, hPort, hChain⟩ := mem_chains_in.1 hChain
      obtain ⟨rest, hRest, -⟩ := head_of_chain hChain
      rw [walk, hApart.find hPort (List.cons.inj hRest).1.symm]
      rfl
  | cons next rest ih =>
      obtain ⟨port, hPort, hChain⟩ := mem_chains_in.1 hChain
      obtain ⟨rest', hRest, hBelow⟩ := head_of_chain hChain
      obtain ⟨hKey, rfl⟩ := List.cons.inj hRest
      have hTail : next :: rest ∈ chains_in port.children := by
        cases hBelow with
        | inl hNil => cases hNil
        | inr hBelow => exact hBelow
      rw [walk, hApart.find hPort hKey.symm, Option.map_some, ih (hApart.children hPort) hTail]
      rfl

/-- Two ports have two chains. -/
theorem chains_nodup_of_below {port : Port Own} (hBelow : (chains_in port.children).Nodup) :
    (chains port).Nodup := by
  rw [chains_eq, List.nodup_cons]
  constructor
  · intro hRoot
    obtain ⟨rest, hRest, hSame⟩ := List.mem_map.1 hRoot
    exact chain_ne_nil hRest (List.cons.inj hSame).2
  · exact hBelow.map fun _ _ hSame => (List.cons.inj hSame).2

theorem chains_in_nodup_of_each {ports : List (Port Own)} (hRoots : (ports.map Port.key).Nodup)
    (hEach : ∀ port ∈ ports, (chains port).Nodup) : (chains_in ports).Nodup := by
  induction ports with
  | nil => exact List.nodup_nil
  | cons port rest ih =>
      rw [List.map_cons, List.nodup_cons] at hRoots
      rw [chains_in, List.nodup_append]
      refine ⟨hEach port (List.mem_cons_self ..),
        ih hRoots.2 fun p hp => hEach p (List.mem_cons_of_mem _ hp), ?_⟩
      intro chain hChain chain' hChain' hSame
      subst hSame
      obtain ⟨tail, rfl, -⟩ := head_of_chain hChain
      obtain ⟨other, hOther, hChain'⟩ := mem_chains_in.1 hChain'
      obtain ⟨tail', hSame, -⟩ := head_of_chain hChain'
      exact hRoots.1 ((List.cons.inj hSame).1 ▸ List.mem_map_of_mem hOther)

theorem chains_nodup (port : Port Own) (hKeyed : ∀ below ∈ subports port, WellKeyed below) :
    (chains port).Nodup := by
  induction port using Port.ind with
  | mk fields own children ih =>
      have hSelf := hKeyed _ (mem_subports_self _)
      refine chains_nodup_of_below (chains_in_nodup_of_each hSelf.siblings ?_)
      intro child hChild
      refine ih child hChild fun below hBelow => hKeyed below ?_
      rw [subports_eq]
      exact List.mem_cons_of_mem _ (mem_subports_in.2 ⟨child, hChild, hBelow⟩)

theorem Apart.chains_nodup {ports : List (Port Own)} (hApart : Apart ports) :
    (chains_in ports).Nodup := by
  refine chains_in_nodup_of_each hApart.roots ?_
  intro port hPort
  refine Ports.chains_nodup port fun below hBelow => hApart.below below ?_
  exact mem_subports_in.2 ⟨port, hPort, hBelow⟩

/-! ## Paths -/

/-- The words of a chain. -/
def words (chain : List String) : List (List Char) := chain.map String.toList

theorem words_inj {chain chain' : List String} (h : words chain = words chain') : chain = chain' :=
  List.map_injective_iff.2 (fun _ _ hSame => String.toList_inj.1 hSame) h

theorem port_path_toList (chain : List String) :
    (port_path chain).toList = Paths.join '.' (words chain) := by
  rw [port_path, String.toList_intercalate]
  rfl

theorem words_segments (path : String) : words (segments path) = Paths.split '.' path.toList := by
  rw [words, segments, List.map_map]
  simp [Function.comp_def]

/-- A path is what its segments make. -/
theorem port_path_segments (path : String) : port_path (segments path) = path := by
  apply String.toList_inj.1
  rw [port_path_toList, words_segments, Paths.join_split]

/-- The segments of a chain's path are the chain, if and only if its keys are plain. -/
theorem segments_port_path {chain : List String} (hChain : chain ≠ []) :
    segments (port_path chain) = chain ↔ Paths.Plain '.' (words chain) := by
  have hWords : words chain ≠ [] := fun hNil => hChain (List.map_eq_nil_iff.1 hNil)
  rw [← Paths.split_join hWords, ← port_path_toList, ← words_segments]
  exact ⟨fun h => congrArg words h, words_inj⟩

theorem doubled_of_item : contains_separator ITEM_KEY = true := by decide

/-- Where every port can be named, every chain is plain. -/
theorem plain_of_nameable {ports : List (Port Own)} {chain : List String}
    (hKeyed : ∀ port ∈ subports_in ports, WellKeyed port)
    (hNameable : ∀ port ∈ subports_in ports, Nameable port) (hChain : chain ∈ chains_in ports) :
    Paths.Plain '.' (words chain) := by
  induction chain generalizing ports with
  | nil => exact absurd rfl (chain_ne_nil hChain)
  | cons key rest ih =>
      obtain ⟨port, hPort, hChain⟩ := mem_chains_in.1 hChain
      obtain ⟨rest', hSame, hRest⟩ := head_of_chain hChain
      obtain ⟨rfl, rfl⟩ := List.cons.inj hSame
      have hBelow : ∀ below ∈ subports_in port.children, below ∈ subports_in ports := by
        intro below hBelow
        refine mem_subports_in.2 ⟨port, hPort, ?_⟩
        rw [subports_eq]
        exact List.mem_cons_of_mem _ hBelow
      have hSelf : port ∈ subports_in ports := mem_subports_in.2 ⟨port, hPort, mem_subports_self port⟩
      have hSingle : Paths.doubled '.' port.key.toList = false := by
        rw [Bool.eq_false_iff]
        intro hDoubled
        exact (hNameable port hSelf).named ((hKeyed port hSelf).free hDoubled)
      apply Paths.plain_cons.2
      cases hRest with
      | inl hNil =>
          subst hNil
          exact ⟨⟨hSingle, fun hCons => absurd rfl hCons⟩, ⟨by simp, by simp⟩⟩
      | inr hTail =>
          have hChildren : port.children ≠ [] := by
            intro hNone
            rw [hNone] at hTail
            cases hTail
          refine ⟨⟨hSingle, fun _ => (hNameable port hSelf).undotted hChildren⟩, ?_⟩
          exact ih (fun b hb => hKeyed b (hBelow b hb)) (fun b hb => hNameable b (hBelow b hb)) hTail

/-- Where every chain is plain, every port can be named. -/
theorem nameable_of_plain (port : Port Own)
    (hPlain : ∀ chain ∈ chains port, Paths.Plain '.' (words chain)) :
    ∀ below ∈ subports port, Nameable below := by
  induction port using Port.ind with
  | mk fields own children ih =>
      have hCons : ∀ child ∈ children, ∀ chain ∈ chains child,
          Paths.Plain '.' (words (fields.key :: chain)) := by
        intro child hChild chain hChain
        have hBelow : chain ∈ chains_in children := mem_chains_in.2 ⟨child, hChild, hChain⟩
        have hLonger : fields.key :: chain ∈ chains (.mk fields own children) :=
          chain_of_head (.inr hBelow)
        exact hPlain _ hLonger
      intro below hBelow
      rw [subports_eq] at hBelow
      cases hBelow with
      | head =>
          constructor
          · intro hItem
            have hRoot : [fields.key] ∈ chains (.mk fields own children) := chain_of_head (.inl rfl)
            have hSingle : contains_separator fields.key = false :=
              (Paths.plain_cons.1 (hPlain _ hRoot)).1.1
            have hKey : fields.key = ITEM_KEY := hItem
            rw [hKey, doubled_of_item] at hSingle
            cases hSingle
          · intro hChildren
            obtain ⟨child, hChild⟩ := List.exists_mem_of_ne_nil _ hChildren
            have hEdge := hCons child hChild _ (chain_of_head (.inl rfl))
            exact (Paths.plain_cons.1 hEdge).1.2 (List.cons_ne_nil _ _)
      | tail _ hBelow =>
          obtain ⟨child, hChild, hBelow⟩ := mem_subports_in.1 hBelow
          refine ih child hChild ?_ below hBelow
          intro chain hChain
          exact (Paths.plain_cons.1 (hCons child hChild chain hChain)).2

end Rekuest.Ports
