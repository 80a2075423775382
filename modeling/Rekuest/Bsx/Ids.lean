import Rekuest.Bsx.Rounds
import Rekuest.Paths.Scoped

/-!
# Ids

An id is an author's, which holds no slash, or made of its parent's with a slash and a segment
that holds none.  So the ids below a node go on from its id by different segments, or from ids
that an author gave there and nowhere before.
-/

namespace Rekuest.Bsx

open Parsing Paths Rekuest.Ports Rekuest.Bloks

variable {f64 : List Char → Option Dyadic} {total : Nat}

/-! ## Names -/

mutual

/-- The names of an element and of the elements in it. -/
def Element.names : Element → List String
  | .mk name _ _ children => name :: names_in children

def names_in : List Child → List String
  | [] => []
  | child :: rest => child.names ++ names_in rest

def Child.names : Child → List String
  | .element inner => inner.names
  | .text _ _ => []
  | .container _ _ => []

end

/-- A name as the parser reads it. -/
def Name (name : String) : Prop := ∀ c ∈ name.toList, name_part c = true

theorem names_in_append (l m : List Child) : names_in (l ++ m) = names_in l ++ names_in m := by
  induction l with
  | nil => rfl
  | cons child rest ih =>
      rw [List.cons_append, names_in, names_in, ih, List.append_assoc]

theorem names_of_mem {children : List Child} {inner : Element} (h : Child.element inner ∈ children) :
    inner.names ⊆ names_in children := by
  induction children with
  | nil => cases h
  | cons child rest ih =>
      rw [names_in]
      rcases List.mem_cons.1 h with hIs | hLater
      · rw [← hIs, Child.names]
        exact List.subset_append_left _ _
      · exact List.Subset.trans (ih hLater) (List.subset_append_right _ _)

theorem name_reads {what found : String} {source rest : List Char}
    (h : name total false what source = .ok (found, rest)) : Name found := by
  unfold name at h
  cases hName : name_at false source with
  | none =>
      rw [hName] at h
      cases h
  | some word =>
      rw [hName] at h
      rw [← (Prod.mk.inj (Except.ok.inj h)).1]
      intro d hd
      rw [String.toList_ofList] at hd
      cases source with
      | nil => cases hName
      | cons c source =>
          have hIs : (if name_start c false = true then some (c :: source.takeWhile name_part) else none) =
              some word := hName
          by_cases hStart : name_start c false = true
          · rw [if_pos hStart] at hIs
            rw [← Option.some.inj hIs] at hd
            rcases List.mem_cons.1 hd with hFirst | hLater
            · rw [hFirst]
              have hEither : c.isAlpha = true ∨ c = '_' := by
                unfold name_start at hStart
                simpa using hStart
              unfold name_part
              rcases hEither with hAlpha | hLine
              · rw [Bool.or_eq_true]
                left
                unfold Char.isAlphanum
                rw [hAlpha]
                rfl
              · rw [hLine]
                rfl
            · exact List.mem_takeWhile_imp hLater
          · rw [if_neg hStart] at hIs
            cases hIs

section

variable {el : Parse Char BsxError Element} {opened : String} {offset : Nat}
  (hEl : ∀ source e rest, el source = .ok (e, rest) → ∀ name ∈ e.names, Name name)
include hEl

theorem content_names : ∀ {n : Nat} {children children' : List Child} {source rest : List Char},
    content f64 total el opened offset n children source = .ok (children', rest) →
      (∀ name ∈ names_in children, Name name) → ∀ name ∈ names_in children', Name name := by
  intro n
  induction n with
  | zero =>
      intro children children' source rest h
      cases h
  | succ n ih =>
      intro children children' source rest h hNames
      have hAdd : ∀ added : List Child, (∀ name ∈ names_in added, Name name) →
          ∀ name ∈ names_in (children ++ added), Name name := by
        intro added hAdded
        rw [names_in_append]
        exact List.forall_mem_append.2 ⟨hNames, hAdded⟩
      cases source with
      | nil => cases h
      | cons c more =>
          unfold content at h
          dsimp only at h
          split at h
          · split at h
            · cases h
            · rw [← (Prod.mk.inj (Except.ok.inj h)).1]
              exact hNames
          · split at h
            · cases h
            · exact ih h hNames
            · split at h
              · split at h
                · cases h
                · rename_i hElement
                  refine ih h (hAdd _ ?_)
                  intro name hName
                  rw [names_in, names_in, Child.names, List.append_nil] at hName
                  exact hEl _ _ _ hElement name hName
              · split at h
                · split at h
                  · cases h
                  · rename_i added after hContainer
                    refine ih h (hAdd _ ?_)
                    have hNone : names_in added.toList = [] := by
                      unfold container at hContainer
                      split at hContainer
                      · cases hContainer
                      · split at hContainer
                        · rw [← (Prod.mk.inj (Except.ok.inj hContainer)).1]
                          rfl
                        · split at hContainer
                          · cases hContainer
                          · rw [← (Prod.mk.inj (Except.ok.inj hContainer)).1]
                            rfl
                    rw [hNone]
                    intro name hName
                    cases hName
                · split at h
                  · cases h
                  · refine ih h (hAdd _ ?_)
                    intro name hName
                    cases hName

theorem attributes_names (hOpened : Name opened) : ∀ {n : Nat} {seen : List Attribute} {source rest : List Char}
    {e : Element}, attributes f64 total el opened offset n seen source = .ok (e, rest) →
      ∀ name ∈ e.names, Name name := by
  intro n
  induction n with
  | zero =>
      intro seen source rest e h
      cases h
  | succ n ih =>
      intro seen source rest e h
      unfold attributes at h
      dsimp only at h
      split at h
      · cases h
      · split at h
        · rw [← (Prod.mk.inj (Except.ok.inj h)).1, Element.names]
          exact List.forall_mem_cons.2 ⟨hOpened, by intro name hName; cases hName⟩
        · split at h
          · split at h
            · cases h
            · rename_i hContent
              rw [← (Prod.mk.inj (Except.ok.inj h)).1, Element.names]
              exact List.forall_mem_cons.2 ⟨hOpened, content_names hEl hContent (by intro name hName; cases hName)⟩
          · split at h
            · cases h
            · split at h
              · cases h
              · split at h
                · cases h
                · exact ih h

end

theorem element_names : ∀ {n : Nat} {source rest : List Char} {e : Element},
    element f64 total n source = .ok (e, rest) → ∀ name ∈ e.names, Name name := by
  intro n
  induction n with
  | zero =>
      intro source rest e h
      cases h
  | succ n ih =>
      intro source rest e h
      unfold element at h
      cases hName : name total false "an element name" source.tail with
      | error failure =>
          rw [hName] at h
          cases h
      | ok found =>
          rw [hName] at h
          exact attributes_names (fun source e rest h => ih h) (name_reads hName) h

theorem document_names {source : List Char} {root : Element} (h : document f64 total source = .ok root) :
    ∀ name ∈ root.names, Name name := by
  unfold document at h
  split at h
  · cases h
  · cases h
  · split at h
    · cases h
    · split at h
      · cases h
      · rename_i hElement
        split at h
        · cases h
        · rw [← Except.ok.inj h]
          exact element_names hElement
        · split at h
          · cases h
          · cases h

/-! ## Segments -/

/-- What a derived id goes on with. -/
inductive Segment
  | implicit (n : Nat)
  | named (name : String) (n : Nat)

def Segment.text : Segment → List Char
  | .implicit n => '#' :: Nat.toDigits 10 n
  | .named name n => name.toList ++ '[' :: (Nat.toDigits 10 n ++ [']'])

def Segment.sound : Segment → Prop
  | .implicit _ => True
  | .named name _ => Name name

theorem implicit_id_text (node_id : String) (n : Nat) :
    (implicit_id node_id n).toList = node_id.toList ++ '/' :: (Segment.implicit n).text := by
  unfold implicit_id Segment.text
  simp only [String.toList_append, Nat.toString_eq_repr, Nat.toList_repr, List.append_assoc]
  rfl

theorem child_id_text (node_id name : String) (n : Nat) :
    (child_id node_id name n).toList = node_id.toList ++ '/' :: (Segment.named name n).text := by
  unfold child_id Segment.text
  simp only [String.toList_append, Nat.toString_eq_repr, Nat.toList_repr, List.append_assoc]
  rfl

theorem not_mem_name {c : Char} {name : String} (hName : Name name) (hc : name_part c = false) : c ∉ name.toList := by
  intro hMem
  have hPart := hName c hMem
  rw [hc] at hPart
  cases hPart

theorem not_mem_digits {c : Char} (n : Nat) (hc : c.isDigit = false) : c ∉ Nat.toDigits 10 n := by
  intro hMem
  have hDigit := Nat.isDigit_of_mem_toDigits (by decide) (by decide) hMem
  rw [hc] at hDigit
  cases hDigit

theorem Segment.no_slash {segment : Segment} (h : segment.sound) : '/' ∉ segment.text := by
  cases segment with
  | implicit n =>
      intro hMem
      rcases List.mem_cons.1 hMem with hIs | hLater
      · exact absurd hIs (by decide)
      · exact not_mem_digits n (by decide) hLater
  | named name n =>
      intro hMem
      rcases List.mem_append.1 hMem with hInName | hLater
      · exact not_mem_name h (by decide) hInName
      · rcases List.mem_cons.1 hLater with hIs | hClosed
        · exact absurd hIs (by decide)
        · rcases List.mem_append.1 hClosed with hDigits | hEnd
          · exact not_mem_digits n (by decide) hDigits
          · exact absurd (List.mem_singleton.1 hEnd) (by decide)

theorem digits_injective {m n : Nat} (h : Nat.toDigits 10 m = Nat.toDigits 10 n) : m = n := by
  have hRead := congrArg (fun digits => Nat.ofDigitChars 10 digits 0) h
  simpa only [Nat.ofDigitChars_ten_toDigits] using hRead

/-- Different segments are written differently. -/
theorem Segment.injective {segment segment' : Segment} (h : segment.sound) (h' : segment'.sound)
    (hText : segment.text = segment'.text) : segment = segment' := by
  have hMixed : ∀ {m n : Nat} {name : String}, Name name → (Segment.implicit m).text ≠ (Segment.named name n).text := by
    intro m n name hName hSame
    have hHash : '#' ∈ (Segment.named name n).text := by
      rw [← hSame]
      exact List.mem_cons_self
    rcases List.mem_append.1 hHash with hInName | hLater
    · exact not_mem_name hName (by decide) hInName
    · rcases List.mem_cons.1 hLater with hIs | hClosed
      · exact absurd hIs (by decide)
      · rcases List.mem_append.1 hClosed with hDigits | hEnd
        · exact not_mem_digits n (by decide) hDigits
        · exact absurd (List.mem_singleton.1 hEnd) (by decide)
  cases segment with
  | implicit m =>
      cases segment' with
      | implicit n => rw [digits_injective (List.cons.inj hText).2]
      | named name n => exact absurd hText (hMixed h')
  | named name m =>
      cases segment' with
      | implicit n => exact absurd hText.symm (hMixed h)
      | named name' n =>
          have hScope : ∀ {name : String} {k : Nat}, Name name →
              scope '[' (Segment.named name k).text = name.toList := by
            intro name k hName
            show scope '[' (name.toList ++ '[' :: (Nat.toDigits 10 k ++ [']'])) = _
            rw [scope_append, scope_of_not_mem (not_mem_name hName (by decide))]
          have hNames : name.toList = name'.toList := by
            rw [← hScope (k := m) h, ← hScope (k := n) h', hText]
          have hName : name = name' := String.toList_injective hNames
          rw [← hName] at hText ⊢
          have hAfter := List.append_cancel_left hText
          have hDigits := (List.append_inj' (List.cons.inj hAfter).2 rfl).1
          rw [digits_injective hDigits]

/-! ## The ids of a tree -/

/-- The ids of some nodes, and of those below them. -/
def ids_in (nodes : List ComponentNode) : List (List Char) := (iter_nodes_in nodes).map fun node => node.id.toList

/-- A scope that no author gives from now on: it was given, or no author can. -/
def Taken (ids : List String) (scope : List Char) : Prop :=
  (∃ id ∈ ids, scope = id.toList) ∨ is_explicit_id scope = false

/-- What lowering some nodes does: their ids differ, each is of a kind or behind an id that an author
gave meanwhile. -/
structure Gives (ids ids' : List String) (own : List Char → Prop) (made : List (List Char)) : Prop where
  kept : ids ⊆ ids'
  explicit : ∀ id ∈ ids', id ∈ ids ∨ is_explicit_id id.toList = true
  distinct : made.Nodup
  each : ∀ id ∈ made, own id ∨ ∃ given ∈ ids', given ∉ ids ∧ scope '/' id = given.toList

theorem Taken.mono {ids ids' : List String} {s : List Char} (hKept : ids ⊆ ids') (h : Taken ids s) : Taken ids' s := by
  rcases h with ⟨id, hId, hIs⟩ | hNot
  · exact .inl ⟨id, hKept hId, hIs⟩
  · exact .inr hNot

/-- A scope that is taken is not given. -/
theorem Taken.old {ids ids' : List String} {own : List Char → Prop} {made : List (List Char)} {s : List Char}
    (h : Taken ids s) (hGives : Gives ids ids' own made) {given : String} (hGiven : given ∈ ids')
    (hNew : given ∉ ids) : s ≠ given.toList := by
  intro hSame
  rcases h with ⟨id, hId, hIs⟩ | hNot
  · have hEq : id = given := String.toList_injective (hIs.symm.trans hSame)
    rw [hEq] at hId
    exact hNew hId
  · rcases hGives.explicit given hGiven with hOld | hExplicit
    · exact hNew hOld
    · rw [← hSame, hNot] at hExplicit
      cases hExplicit

theorem Gives.nil (ids : List String) (own : List Char → Prop) : Gives ids ids own [] where
  kept := List.Subset.refl _
  explicit := fun _ hId => .inl hId
  distinct := List.nodup_nil
  each := nofun

theorem Gives.one {own : List Char → Prop} (ids : List String) {id : List Char} (h : own id) :
    Gives ids ids own [id] where
  kept := List.Subset.refl _
  explicit := fun _ hId => .inl hId
  distinct := List.nodup_singleton id
  each := by
    intro made hMade
    rw [List.mem_singleton.1 hMade]
    exact .inl h

theorem Gives.weaken {ids ids' : List String} {own own' : List Char → Prop} {made : List (List Char)}
    (h : Gives ids ids' own made) (hOwn : ∀ id, own id → own' id) : Gives ids ids' own' made where
  kept := h.kept
  explicit := h.explicit
  distinct := h.distinct
  each := fun id hId => (h.each id hId).imp_left (hOwn id)

/-- One after the other: their own ids are of different kinds, in one scope that is taken. -/
theorem Gives.append {ids ids' ids'' : List String} {own own' : List Char → Prop} {made made' : List (List Char)}
    {s : List Char} (h : Gives ids ids' own made) (h' : Gives ids' ids'' own' made') (hTaken : Taken ids s)
    (hScope : ∀ id, own id → scope '/' id = s) (hScope' : ∀ id, own' id → scope '/' id = s)
    (hApart : ∀ id, own id → ¬ own' id) :
    Gives ids ids'' (fun id => own id ∨ own' id) (made ++ made') where
  kept := List.Subset.trans h.kept h'.kept
  explicit := by
    intro id hId
    rcases h'.explicit id hId with hOld | hExplicit
    · exact h.explicit id hOld
    · exact .inr hExplicit
  distinct := by
    refine List.nodup_append.2 ⟨h.distinct, h'.distinct, ?_⟩
    intro id hId id' hId' hSame
    rw [← hSame] at hId'
    have hTaken' := hTaken.mono h.kept
    rcases h.each id hId with hOwn | ⟨given, hGiven, hNew, hGivenScope⟩
    · rcases h'.each id hId' with hOwn' | ⟨given', hGiven', hNew', hGivenScope'⟩
      · exact hApart id hOwn hOwn'
      · exact hTaken'.old h' hGiven' hNew' ((hScope id hOwn).symm.trans hGivenScope')
    · rcases h'.each id hId' with hOwn' | ⟨given', hGiven', hNew', hGivenScope'⟩
      · exact hTaken.old h hGiven hNew ((hScope' id hOwn').symm.trans hGivenScope)
      · have hEq : given = given' := String.toList_injective (hGivenScope.symm.trans hGivenScope')
        rw [hEq] at hGiven
        exact hNew' hGiven
  each := by
    intro id hId
    rcases List.mem_append.1 hId with hFirst | hSecond
    · rcases h.each id hFirst with hOwn | ⟨given, hGiven, hNew, hGivenScope⟩
      · exact .inl (.inl hOwn)
      · exact .inr ⟨given, h'.kept hGiven, hNew, hGivenScope⟩
    · rcases h'.each id hSecond with hOwn' | ⟨given, hGiven, hNew, hGivenScope⟩
      · exact .inl (.inr hOwn')
      · exact .inr ⟨given, hGiven, fun hOld => hNew (h.kept hOld), hGivenScope⟩

/-! ## The nodes below an element -/

/-- A segment that was not used so far: the texts and the elements of each name are counted. -/
def Fresh (implicit : Nat) (counts : String → Nat) : Segment → Prop
  | .implicit n => implicit ≤ n
  | .named name n => Name name ∧ counts name ≤ n

/-- Ids below an id, by segments that were not used so far. -/
def Next (node_id : String) (implicit : Nat) (counts : String → Nat) (id : List Char) : Prop :=
  ∃ segment, Fresh implicit counts segment ∧ Under '/' (node_id.toList ++ '/' :: segment.text) id

theorem Fresh.sound {implicit : Nat} {counts : String → Nat} {segment : Segment}
    (h : Fresh implicit counts segment) : segment.sound := by
  cases segment with
  | implicit n => trivial
  | named name n => exact h.1

theorem Next.scope {node_id : String} {implicit : Nat} {counts : String → Nat} {id : List Char}
    (h : Next node_id implicit counts id) : scope '/' id = scope '/' node_id.toList := by
  obtain ⟨segment, -, hUnder⟩ := h
  exact hUnder.segment.scope

/-- An id behind one segment, and one behind segments that are fresh when it is used, differ. -/
theorem Next.apart {node_id : String} {implicit implicit' : Nat} {counts counts' : String → Nat}
    {segment : Segment} {id : List Char} (hSegment : Fresh implicit counts segment)
    (hUsed : ¬ Fresh implicit' counts' segment) (hUnder : Under '/' (node_id.toList ++ '/' :: segment.text) id) :
    ¬ Next node_id implicit' counts' id := by
  rintro ⟨segment', hFresh, hUnder'⟩
  have hText := hUnder.unique (Segment.no_slash hSegment.sound) (Segment.no_slash hFresh.sound) hUnder'
  rw [← Segment.injective hSegment.sound hFresh.sound hText] at hFresh
  exact hUsed hFresh

theorem Fresh.mono {implicit implicit' : Nat} {counts counts' : String → Nat} {segment : Segment}
    (hImplicit : implicit ≤ implicit') (hCounts : ∀ name, counts name ≤ counts' name)
    (h : Fresh implicit' counts' segment) : Fresh implicit counts segment := by
  cases segment with
  | implicit n => exact Nat.le_trans hImplicit h
  | named name n => exact ⟨h.1, Nat.le_trans (hCounts name) h.2⟩

/-- A segment is used, and the next ones are fresh. -/
theorem Gives.next {ids ids' ids'' : List String} {node_id : String} {implicit implicit' : Nat}
    {counts counts' : String → Nat} {segment : Segment} {made made' : List (List Char)}
    (hImplicit : implicit ≤ implicit') (hCounts : ∀ name, counts name ≤ counts' name)
    (hSegment : Fresh implicit counts segment) (hUsed : ¬ Fresh implicit' counts' segment)
    (hTaken : Taken ids (scope '/' node_id.toList))
    (h : Gives ids ids' (Under '/' (node_id.toList ++ '/' :: segment.text)) made)
    (h' : Gives ids' ids'' (Next node_id implicit' counts') made') :
    Gives ids ids'' (Next node_id implicit counts) (made ++ made') := by
  refine (h.append h' hTaken (fun id hId => hId.segment.scope) (fun id hId => hId.scope)
    fun id hId => Next.apart hSegment hUsed hId).weaken ?_
  rintro id (hUnder | ⟨segment', hFresh, hUnder⟩)
  · exact ⟨segment, hSegment, hUnder⟩
  · exact ⟨segment', hFresh.mono hImplicit hCounts, hUnder⟩

section

variable {lowers : Lowers} {lower : Element → String → String → Option String → String → List String →
    Except BsxError (ComponentNode × List String)}
  (hLower : ∀ {inner : Element} {node_id context : String} {parent : Option String} {loose_text : String}
    {ids ids' : List String} {tree : ComponentNode}, (∀ name ∈ inner.names, Name name) →
      Taken ids (scope '/' node_id.toList) →
        lower inner node_id context parent loose_text ids = .ok (tree, ids') →
          Gives ids ids' (Under '/' node_id.toList) (ids_in [tree]))
include hLower

theorem lower_runs_gives {b : Below} : ∀ {found : List Run} {implicit : Nat} {counts : String → Nat}
    {seen_else : Bool} {ids ids' : List String} {nodes : List ComponentNode},
      (∀ inner, Run.element inner ∈ found → ∀ name ∈ inner.names, Name name) →
        Taken ids (scope '/' b.node_id.toList) →
          lower_runs lowers lower b found implicit counts seen_else ids = .ok (nodes, ids') →
            Gives ids ids' (Next b.node_id implicit counts) (ids_in nodes) := by
  intro found
  induction found with
  | nil =>
      intro implicit counts seen_else ids ids' nodes _ _ h
      obtain ⟨hNodes, hIds⟩ := Prod.mk.inj (Except.ok.inj h)
      rw [← hNodes, ← hIds]
      exact Gives.nil ids _
  | cons run rest ih =>
      intro implicit counts seen_else ids ids' nodes hNames hTaken h
      have hRest : ∀ inner, Run.element inner ∈ rest → ∀ name ∈ inner.names, Name name :=
        fun inner hInner => hNames inner (List.mem_cons_of_mem _ hInner)
      cases run with
      | text parts =>
          unfold lower_runs at h
          by_cases hSkip : (!b.implicit_text) = true
          · rw [if_pos hSkip] at h
            exact ih hRest hTaken h
          · rw [if_neg hSkip] at h
            split at h
            · cases h
            · split at h
              · cases h
              · split at h
                · cases h
                · rename_i hLater
                  obtain ⟨hNodes, hIds⟩ := Prod.mk.inj (Except.ok.inj h)
                  rw [← hNodes, ← hIds]
                  have hOne : Gives ids ids (Under '/' (b.node_id.toList ++ '/' :: (Segment.implicit implicit).text))
                      [(implicit_id b.node_id implicit).toList] := by
                    rw [implicit_id_text]
                    exact Gives.one ids (.refl _)
                  have hUsed : ¬ Fresh (implicit + 1) counts (.implicit implicit) := Nat.not_succ_le_self implicit
                  have hFresh : Fresh implicit counts (.implicit implicit) := Nat.le_refl implicit
                  exact Gives.next (Nat.le_succ implicit) (fun name => Nat.le_refl _) hFresh hUsed hTaken hOne
                    (ih hRest hTaken hLater)
      | element child =>
          unfold lower_runs at h
          split at h
          · cases h
          · dsimp only at h
            split at h
            · cases h
            · rename_i lowered ids₁ hChild
              split at h
              · cases h
              · rename_i later ids₂ hLater
                obtain ⟨hNodes, hIds⟩ := Prod.mk.inj (Except.ok.inj h)
                rw [← hNodes, ← hIds]
                have hChildNames := hNames child List.mem_cons_self
                have hName : Name child.name := by
                  refine hChildNames child.name ?_
                  cases child with
                  | mk name offset given children =>
                      rw [Element.names]
                      exact List.mem_cons_self
                have hScope : scope '/' (child_id b.node_id child.name (counts child.name)).toList =
                    scope '/' b.node_id.toList := by
                  rw [child_id_text, scope_append]
                have hOne := hLower hChildNames (by rw [hScope]; exact hTaken) hChild
                rw [child_id_text] at hOne
                have hCounts : ∀ name, counts name ≤
                    Function.update counts child.name (counts child.name + 1) name := by
                  intro name
                  by_cases hIs : name = child.name
                  · rw [hIs, Function.update_self]
                    exact Nat.le_succ _
                  · rw [Function.update_of_ne hIs]
                have hUsed : ¬ Fresh implicit (Function.update counts child.name (counts child.name + 1))
                    (.named child.name (counts child.name)) := by
                  intro hFresh
                  have hLe := hFresh.2
                  rw [Function.update_self] at hLe
                  exact Nat.not_succ_le_self _ hLe
                have hFresh : Fresh implicit counts (.named child.name (counts child.name)) :=
                  ⟨hName, Nat.le_refl _⟩
                have hAll := Gives.next (Nat.le_refl implicit) hCounts hFresh hUsed hTaken hOne
                  (ih hRest (hTaken.mono hOne.kept) hLater)
                have hIn : ids_in (lowered :: later) = ids_in [lowered] ++ ids_in later := by
                  unfold ids_in
                  rw [iter_nodes_in, iter_nodes_in, iter_nodes_in, List.append_nil, List.map_append]
                rw [hIn]
                exact hAll

end

/-! ## A node -/

theorem explicit_no_slash {id : List Char} (h : is_explicit_id id = true) : '/' ∉ id := by
  cases id with
  | nil => nofun
  | cons c rest =>
      unfold is_explicit_id at h
      rw [Bool.and_eq_true] at h
      intro hMem
      rcases List.mem_cons.1 hMem with hIs | hLater
      · rw [← hIs] at h
        exact absurd h.1 (by decide)
      · have hPart := List.all_eq_true.1 h.2 '/' hLater
        exact absurd hPart (by decide)

/-- A node's id is its parent's word for it, or one that an author gives here first. -/
theorem own_id_cases {e : Element} {node_id node_id' : String} {ids ids' : List String}
    (h : own_id e node_id ids = .ok (node_id', ids')) : (node_id' = node_id ∧ ids' = ids) ∨
      (is_explicit_id node_id'.toList = true ∧ node_id' ∉ ids ∧ ids' = node_id' :: ids) := by
  unfold own_id at h
  split at h
  · obtain ⟨hId, hIds⟩ := Prod.mk.inj (Except.ok.inj h)
    exact .inl ⟨hId.symm, hIds.symm⟩
  · split at h
    · rename_i text hText
      split at h
      · cases h
      · rename_i hExplicit
        split at h
        · cases h
        · rename_i hNew
          obtain ⟨hId, hIds⟩ := Prod.mk.inj (Except.ok.inj h)
          rw [← hId, ← hIds, String.toList_ofList]
          exact .inr ⟨not_not.1 hExplicit, hNew, rfl⟩
    · cases h

/-- A node and those below it. -/
theorem node_below {ids ids' : List String} {node_id : String} {made : List (List Char)}
    (hTaken : Taken ids (scope '/' node_id.toList)) (h : Gives ids ids' (Next node_id 0 fun _ => 0) made) :
    Gives ids ids' (Under '/' node_id.toList) (node_id.toList :: made) := by
  have hOne : Gives ids ids (fun id => id = node_id.toList) [node_id.toList] := Gives.one ids rfl
  refine (hOne.append h hTaken (fun id hId => by rw [hId]) (fun id hId => hId.scope) ?_).weaken ?_
  · rintro id hId ⟨segment, -, hUnder⟩
    rw [hId] at hUnder
    exact hUnder.proper
  · rintro id (hId | ⟨segment, -, hUnder⟩)
    · exact .inl hId
    · exact hUnder.segment

/-- Behind an id that an author gives here, all ids are behind one given meanwhile. -/
theorem given_here {ids ids' : List String} {node_id : String} {own : List Char → Prop} {made : List (List Char)}
    (hExplicit : is_explicit_id node_id.toList = true) (hNew : node_id ∉ ids)
    (h : Gives (node_id :: ids) ids' (Under '/' node_id.toList) made) : Gives ids ids' own made where
  kept := List.Subset.trans (List.subset_cons_self _ _) h.kept
  explicit := by
    intro id hId
    rcases h.explicit id hId with hOld | hIs
    · rcases List.mem_cons.1 hOld with hHere | hBefore
      · rw [hHere]
        exact .inr hExplicit
      · exact .inl hBefore
    · exact .inr hIs
  distinct := h.distinct
  each := by
    intro id hId
    right
    rcases h.each id hId with hUnder | ⟨given, hGiven, hLater, hScope⟩
    · refine ⟨node_id, h.kept List.mem_cons_self, hNew, ?_⟩
      rw [hUnder.scope, scope_of_not_mem (explicit_no_slash hExplicit)]
    · exact ⟨given, hGiven, fun hOld => hLater (List.mem_cons_of_mem _ hOld), hScope⟩

theorem node_gives {lowers : Lowers} {view : BlokView} : ∀ {n : Nat} {e : Element} {node_id context : String}
    {parent : Option String} {loose_text : String} {ids ids' : List String} {tree : ComponentNode},
      (∀ name ∈ e.names, Name name) → Taken ids (scope '/' node_id.toList) →
        node lowers view n e node_id context parent loose_text ids = .ok (tree, ids') →
          Gives ids ids' (Under '/' node_id.toList) (ids_in [tree]) := by
  intro n
  induction n with
  | zero =>
      intro e node_id context parent loose_text ids ids' tree _ _ h
      cases h
  | succ n ih =>
      intro e node_id context parent loose_text ids ids' tree hNames hTaken h
      unfold node at h
      split at h
      · cases h
      · split at h
        · cases h
        · rename_i node_id₁ ids₁ hOwn
          split at h
          · cases h
          · split at h
            · cases h
            · dsimp only at h
              split at h
              · cases h
              · rename_i found hRuns
                split at h
                · cases h
                · split at h
                  · cases h
                  · rename_i children ids₂ hBelow
                    split at h
                    · cases h
                    · obtain ⟨hTree, hIds⟩ := Prod.mk.inj (Except.ok.inj h)
                      rw [← hTree, ← hIds]
                      have hInner : ∀ inner, Run.element inner ∈ found → ∀ name ∈ inner.names, Name name := by
                        intro inner hMem name hName
                        refine hNames name ?_
                        have hIn := names_of_mem (mem_runs hRuns hMem) hName
                        cases e with
                        | mk opened offset given children =>
                            rw [Element.names]
                            exact List.mem_cons_of_mem _ hIn
                      have hIn : ∀ {id component : String} {props : List ComponentProp},
                          ids_in [.mk id component props children] = id.toList :: ids_in children := by
                        intro id component props
                        unfold ids_in
                        rw [iter_nodes_in, iter_nodes_in, iter_nodes, List.append_nil]
                        rfl
                      have hGives := fun hThere => lower_runs_gives ih hInner hThere hBelow
                      rw [hIn]
                      rcases own_id_cases hOwn with ⟨hId, hSame⟩ | ⟨hExplicit, hNew, hAdded⟩
                      · rw [hId, hSame] at hGives
                        rw [hId]
                        exact node_below hTaken (hGives hTaken)
                      · have hOwnScope : scope '/' node_id₁.toList = node_id₁.toList :=
                          scope_of_not_mem (explicit_no_slash hExplicit)
                        have hTaken₁ : Taken ids₁ (scope '/' node_id₁.toList) := by
                          rw [hAdded]
                          exact .inl ⟨node_id₁, List.mem_cons_self, hOwnScope⟩
                        have hAll := node_below hTaken₁ (hGives hTaken₁)
                        exact given_here hExplicit hNew (hAdded ▸ hAll)

/-- The ids of the nodes of a tree that a source is parsed to are pairwise distinct. -/
theorem parse_bsx_distinct {f64 : List Char → Option Dyadic} {lowers : Lowers} {source : String} {view : BlokView}
    {tree : ComponentNode} (h : parse_bsx f64 lowers source view = .ok tree) :
    ((iter_nodes tree).map (·.id)).Nodup := by
  unfold parse_bsx at h
  split at h
  · cases h
  · split at h
    · cases h
    · rename_i root hRoot
      split at h
      · cases h
      · rename_i lowered ids hNode
        have hNames := document_names hRoot
        have hRootName : Name root.name := by
          refine hNames root.name ?_
          cases root with
          | mk name offset given children =>
              rw [Element.names]
              exact List.mem_cons_self
        -- The root's id holds a bracket, which no author's does.
        have hTaken : Taken [] (scope '/' (root.name ++ "[0]").toList) := by
          have hNoSlash : '/' ∉ (root.name ++ "[0]").toList := by
            rw [String.toList_append]
            intro hMem
            rcases List.mem_append.1 hMem with hInName | hEnd
            · exact not_mem_name hRootName (by decide) hInName
            · exact absurd hEnd (by decide)
          rw [scope_of_not_mem hNoSlash]
          right
          refine Bool.eq_false_iff.2 fun hExplicit => ?_
          have hBracket : '[' ∈ (root.name ++ "[0]").toList := by
            rw [String.toList_append]
            exact List.mem_append_right _ (by decide)
          generalize (root.name ++ "[0]").toList = id at hExplicit hBracket
          cases id with
          | nil => cases hBracket
          | cons c rest =>
              unfold is_explicit_id at hExplicit
              rw [Bool.and_eq_true] at hExplicit
              rcases List.mem_cons.1 hBracket with hIs | hLater
              · rw [← hIs] at hExplicit
                exact absurd hExplicit.1 (by decide)
              · exact absurd (List.all_eq_true.1 hExplicit.2 '[' hLater) (by decide)
        have hGives := node_gives hNames hTaken hNode
        rw [← Except.ok.inj h]
        have hDistinct := hGives.distinct
        unfold ids_in at hDistinct
        rw [iter_nodes_in, iter_nodes_in, List.append_nil] at hDistinct
        have hMap : (iter_nodes lowered).map (fun node => node.id.toList) =
            ((iter_nodes lowered).map (·.id)).map String.toList := by
          rw [List.map_map]
          rfl
        rw [hMap] at hDistinct
        exact List.Nodup.of_map _ hDistinct

/-- Props as they are written, whatever they say. -/
def plain_lowers : Lowers where
  prop := fun _ written => .ok ⟨written.name, none, none, none, none, none⟩
  text_prop := fun key _ _ => .ok ⟨key, none, none, none, none, none⟩
  check_pure := fun _ _ => .ok ()
  textless := fun _ => false

/-- A view with one component, which text fills. -/
def plain_view : BlokView where
  components := [("a", ⟨"a", none, [], true, .HTML, none, false, [], [], some "text", none⟩)]
  functions := []
  label := ""
  complete := true
  shadows := []

def ids_of : Except Refused ComponentNode → List String
  | .ok tree => (iter_nodes tree).map (·.id)
  | .error _ => []

/-- Texts among elements, below a derived id, and elements below an author's. -/
theorem nested_ids : ∃ tree, parse_bsx (fun _ => none) plain_lowers "<a>hi<b/>you<b id=\"x\"><b/></b></a>" plain_view =
    .ok tree ∧ (iter_nodes tree).map (·.id) = ["a[0]", "a[0]/#0", "a[0]/b[0]", "a[0]/#1", "x", "x/b[0]"] ∧
      ((iter_nodes tree).map (·.id)).Nodup := by
  have hIds : ids_of (parse_bsx (fun _ => none) plain_lowers "<a>hi<b/>you<b id=\"x\"><b/></b></a>" plain_view) =
      ["a[0]", "a[0]/#0", "a[0]/b[0]", "a[0]/#1", "x", "x/b[0]"] := by decide +kernel
  cases hTree : parse_bsx (fun _ => none) plain_lowers "<a>hi<b/>you<b id=\"x\"><b/></b></a>" plain_view with
  | error refused =>
      rw [hTree] at hIds
      cases hIds
  | ok tree =>
      rw [hTree] at hIds
      exact ⟨tree, rfl, hIds, parse_bsx_distinct hTree⟩

end Rekuest.Bsx
