import Rekuest.Bsx.Lowering

/-!
# Rounds and depths

Every function of the parser leaves less than it was given, so the rounds and the depth it is given
are enough: more of them change nothing.  The same holds of the depth of the lowering.
-/

namespace Rekuest.Bsx

open Parsing Rekuest.Ports Rekuest.Bloks

variable {f64 : List Char → Option Dyadic} {total : Nat}

/-! ## What is left -/

theorem skip_space_le (rest : List Char) : (skip_space rest).length ≤ rest.length :=
  (List.dropWhile_sublist _).length_le

theorem name_shorter {attribute_ : Bool} {what found : String} {source rest : List Char}
    (h : name total attribute_ what source = .ok (found, rest)) : rest.length < source.length := by
  unfold name at h
  cases hName : name_at attribute_ source with
  | none =>
      rw [hName] at h
      cases h
  | some word =>
      rw [hName] at h
      rw [← (Prod.mk.inj (Except.ok.inj h)).2, List.length_drop]
      cases source with
      | nil => cases hName
      | cons c source =>
          have hWord : 0 < word.length := by
            have hIs : (if name_start c attribute_ = true then some (c :: source.takeWhile name_part) else none) =
                some word := hName
            by_cases hStart : name_start c attribute_ = true
            · rw [if_pos hStart] at hIs
              rw [← Option.some.inj hIs]
              exact Nat.succ_pos _
            · rw [if_neg hStart] at hIs
              cases hIs
          rw [List.length_cons]
          omega

theorem find_le {text : String} {source found : List Char} (h : find text source = some found) :
    found.length ≤ source.length := by
  induction source with
  | nil => cases h
  | cons c source ih =>
      unfold find at h
      by_cases hStarts : starts text (c :: source) = true
      · rw [if_pos hStarts] at h
        rw [← Option.some.inj h]
      · rw [if_neg hStarts] at h
        have hLater := ih h
        rw [List.length_cons]
        omega

theorem starts_length {text : String} {source : List Char} (h : starts text source = true) :
    text.toList.length ≤ source.length :=
  (List.isPrefixOf_iff_prefix.1 h).length_le

theorem skip_comment_shorter {source rest : List Char} (h : skip_comment total source = .ok (some rest)) :
    rest.length < source.length := by
  unfold skip_comment at h
  by_cases hStarts : starts "<!--" source = true
  · rw [if_pos hStarts] at h
    have hLong : 4 ≤ source.length := starts_length hStarts
    cases hFind : find "-->" (source.drop 4) with
    | none =>
        rw [hFind] at h
        cases h
    | some found =>
        rw [hFind] at h
        have hLeft := find_le hFind
        rw [List.length_drop] at hLeft
        have hRest : found.drop 3 = rest := Option.some.inj (Except.ok.inj h)
        rw [← hRest, List.length_drop]
        omega
  · rw [if_neg hStarts] at h
    cases h

theorem braced_shorter {source text rest : List Char} (hSource : source ≠ [])
    (h : braced total source = .ok (text, rest)) : rest.length < source.length := by
  unfold braced at h
  cases hBraces : braces source.tail with
  | none =>
      rw [hBraces] at h
      cases h
  | some size =>
      rw [hBraces] at h
      rw [← (Prod.mk.inj (Except.ok.inj h)).2, List.length_drop, List.length_tail]
      have hPos := List.length_pos_iff.2 hSource
      omega

theorem container_shorter {source rest : List Char} {added : Option Child} (hSource : source ≠ [])
    (h : container f64 total source = .ok (added, rest)) : rest.length < source.length := by
  unfold container at h
  cases hBraced : braced total source with
  | error e =>
      rw [hBraced] at h
      cases h
  | ok found =>
      obtain ⟨inner, after⟩ := found
      rw [hBraced] at h
      dsimp only at h
      have hLeft : rest = after := by
        split at h
        · exact (Prod.mk.inj (Except.ok.inj h)).2.symm
        · split at h
          · cases h
          · exact (Prod.mk.inj (Except.ok.inj h)).2.symm
      rw [hLeft]
      exact braced_shorter hSource hBraced

theorem closing_tag_shorter {opened : String} {offset : Nat} {source rest : List Char}
    (h : closing_tag total opened offset source = .ok ((), rest)) : rest.length < source.length := by
  unfold closing_tag at h
  cases hName : name total false "an element name" source with
  | error e =>
      rw [hName] at h
      cases h
  | ok found =>
      rw [hName] at h
      have hShorter := name_shorter hName
      have hSpace := skip_space_le found.2
      dsimp only at h
      split at h
      · cases h
      · split at h
        · cases h
        · rw [← (Prod.mk.inj (Except.ok.inj h)).2, List.length_tail]
          omega

theorem attribute_shorter {source rest : List Char} {read : Attribute}
    (h : attribute_ f64 total source = .ok (read, rest)) : rest.length < source.length := by
  unfold attribute_ at h
  cases hName : name total true "an attribute name" source with
  | error e =>
      rw [hName] at h
      cases h
  | ok found =>
      obtain ⟨word, save⟩ := found
      rw [hName] at h
      have hShorter := name_shorter hName
      have hSpace := skip_space_le save
      dsimp only at h
      by_cases hNo : ¬ starts "=" (skip_space save) = true
      · rw [if_pos hNo] at h
        rw [← (Prod.mk.inj (Except.ok.inj h)).2]
        exact hShorter
      · rw [if_neg hNo] at h
        have hAgain := skip_space_le (skip_space save).tail
        rw [List.length_tail] at hAgain
        generalize skip_space (skip_space save).tail = value at h hAgain
        cases value with
        | nil => cases h
        | cons c inside =>
            dsimp only at h
            rw [List.length_cons] at hAgain
            by_cases hQuote : is_quote c = true
            · rw [if_pos hQuote] at h
              split at h
              · cases h
              · split at h
                · cases h
                · rw [← (Prod.mk.inj (Except.ok.inj h)).2, List.length_drop]
                  omega
            · rw [if_neg hQuote] at h
              by_cases hOpen : c = '\x7b'
              · rw [if_pos hOpen] at h
                cases hBraced : braced total (c :: inside) with
                | error e =>
                    rw [hBraced] at h
                    cases h
                | ok found =>
                    rw [hBraced] at h
                    have hLess := braced_shorter (List.cons_ne_nil c inside) hBraced
                    rw [List.length_cons] at hLess
                    dsimp only at h
                    split at h
                    · cases h
                    · split at h
                      · cases h
                      · rw [← (Prod.mk.inj (Except.ok.inj h)).2]
                        omega
              · rw [if_neg hOpen] at h
                cases h

/-- What is left of a parser's input is shorter. -/
def Shortens {α : Type} (p : Parse Char BsxError α) : Prop :=
  ∀ source a rest, p source = .ok (a, rest) → rest.length < source.length

section

variable {el : Parse Char BsxError Element} (hEl : Shortens el) {opened : String} {offset : Nat}
include hEl

theorem content_shortens : ∀ {n : Nat} {children children' : List Child} {source rest : List Char},
    content f64 total el opened offset n children source = .ok (children', rest) →
      rest.length < source.length := by
  intro n
  induction n with
  | zero =>
      intro children children' source rest h
      cases h
  | succ n ih =>
      intro children children' source rest h
      cases source with
      | nil => cases h
      | cons c more =>
          unfold content at h
          dsimp only at h
          split at h
          · rename_i hStarts
            split at h
            · cases h
            · rename_i hClosing
              have hShorter := closing_tag_shorter hClosing
              rw [List.length_drop] at hShorter
              rw [← (Prod.mk.inj (Except.ok.inj h)).2]
              omega
          · split at h
            · cases h
            · rename_i hComment
              have hShorter := skip_comment_shorter hComment
              have hLater := ih h
              omega
            · split at h
              · split at h
                · cases h
                · rename_i hElement
                  have hShorter := hEl _ _ _ hElement
                  have hLater := ih h
                  omega
              · split at h
                · split at h
                  · cases h
                  · rename_i hContainer
                    have hShorter := container_shorter (List.cons_ne_nil c more) hContainer
                    have hLater := ih h
                    omega
                · split at h
                  · cases h
                  · have hLater := ih h
                    rw [List.length_drop] at hLater
                    omega

theorem attributes_shortens : ∀ {n : Nat} {seen : List Attribute} {source rest : List Char} {e : Element},
    attributes f64 total el opened offset n seen source = .ok (e, rest) → rest.length < source.length := by
  intro n
  induction n with
  | zero =>
      intro seen source rest e h
      cases h
  | succ n ih =>
      intro seen source rest e h
      unfold attributes at h
      dsimp only at h
      have hSpace := skip_space_le source
      generalize skip_space source = after at h hSpace
      split at h
      · cases h
      · rename_i hSome
        have hPos := List.length_pos_iff.2 hSome
        split at h
        · rw [← (Prod.mk.inj (Except.ok.inj h)).2, List.length_drop]
          omega
        · split at h
          · split at h
            · cases h
            · rename_i hContent
              have hShorter := content_shortens hEl hContent
              rw [List.length_tail] at hShorter
              rw [← (Prod.mk.inj (Except.ok.inj h)).2]
              omega
          · split at h
            · cases h
            · split at h
              · cases h
              · rename_i hAttribute
                have hShorter := attribute_shorter hAttribute
                split at h
                · cases h
                · have hLater := ih h
                  omega

end

theorem element_shortens : ∀ {n : Nat}, Shortens (element f64 total n) := by
  intro n
  induction n with
  | zero =>
      intro source e rest h
      cases h
  | succ n ih =>
      intro source e rest h
      unfold element at h
      cases hName : name total false "an element name" source.tail with
      | error failure =>
          rw [hName] at h
          cases h
      | ok found =>
          rw [hName] at h
          have hShorter := name_shorter hName
          have hLater := attributes_shortens ih h
          rw [List.length_tail] at hShorter
          omega

/-! ## Enough -/

section

variable {el el' : Parse Char BsxError Element} (hEl : Shortens el) {opened : String} {offset : Nat}
include hEl

/-- Parsers of elements that agree on what is shorter. -/
theorem content_enough : ∀ {n m : Nat} {children : List Child} {source : List Char},
    source.length < n → source.length < m → (∀ s, s ≠ [] → s.length ≤ source.length → el s = el' s) →
      content f64 total el opened offset n children source =
        content f64 total el' opened offset m children source := by
  intro n
  induction n with
  | zero =>
      intro m children source hn
      omega
  | succ n ih =>
      intro m children source hn hm hSame
      cases m with
      | zero => omega
      | succ m =>
          cases source with
          | nil => rfl
          | cons c more =>
              have hNext : ∀ {children : List Child} {rest : List Char}, rest.length < (c :: more).length →
                  content f64 total el opened offset n children rest =
                    content f64 total el' opened offset m children rest := by
                intro children rest hShorter
                exact ih (by omega) (by omega) fun s hNil hs => hSame s hNil (by omega)
              unfold content
              dsimp only
              rw [← hSame (c :: more) (List.cons_ne_nil c more) (Nat.le_refl _)]
              by_cases hCloses : starts "</" (c :: more) = true
              · rw [if_pos hCloses, if_pos hCloses]
              · rw [if_neg hCloses, if_neg hCloses]
                cases hComment : skip_comment total (c :: more) with
                | error e => rfl
                | ok skipped =>
                    cases skipped with
                    | some rest => exact hNext (skip_comment_shorter hComment)
                    | none =>
                        dsimp only
                        by_cases hElement : c = '<'
                        · rw [if_pos hElement, if_pos hElement]
                          cases hChild : el (c :: more) with
                          | error e => rfl
                          | ok child => exact hNext (hEl _ _ _ hChild)
                        · rw [if_neg hElement, if_neg hElement]
                          by_cases hOpen : c = '\x7b'
                          · rw [if_pos hOpen, if_pos hOpen]
                            cases hContainer : container f64 total (c :: more) with
                            | error e => rfl
                            | ok added => exact hNext (container_shorter (List.cons_ne_nil c more) hContainer)
                          · rw [if_neg hOpen, if_neg hOpen]
                            by_cases hClose : c = '\x7d'
                            · rw [if_pos hClose, if_pos hClose]
                            · rw [if_neg hClose, if_neg hClose]
                              refine hNext ?_
                              have hText : (!(c = '<' || c = '\x7b' || c = '\x7d') : Bool) = true := by
                                simp [hElement, hOpen, hClose]
                              have hTaken : 0 < ((c :: more).takeWhile
                                  fun c => !(c = '<' || c = '\x7b' || c = '\x7d')).length := by
                                rw [List.takeWhile_cons, if_pos hText]
                                exact Nat.succ_pos _
                              rw [List.length_drop, List.length_cons]
                              rw [List.length_cons] at hn
                              omega

theorem attributes_enough : ∀ {n m : Nat} {seen : List Attribute} {source : List Char},
    source.length < n → source.length < m → (∀ s, s ≠ [] → s.length ≤ source.length → el s = el' s) →
      attributes f64 total el opened offset n seen source =
        attributes f64 total el' opened offset m seen source := by
  intro n
  induction n with
  | zero =>
      intro m seen source hn
      omega
  | succ n ih =>
      intro m seen source hn hm hSame
      cases m with
      | zero => omega
      | succ m =>
          unfold attributes
          dsimp only
          have hSpace := skip_space_le source
          generalize skip_space source = rest at hSpace
          by_cases hNil : rest = []
          · rw [if_pos hNil, if_pos hNil]
          · rw [if_neg hNil, if_neg hNil]
            have hPos := List.length_pos_iff.2 hNil
            have hTail : rest.tail.length < rest.length := by
              rw [List.length_tail]
              omega
            rw [content_enough hEl hTail hTail fun s hNil hs => hSame s hNil (by omega)]
            cases hAttribute : attribute_ f64 total rest with
            | error e => rfl
            | ok read =>
                have hShorter := attribute_shorter hAttribute
                dsimp only
                rw [ih (by omega : read.2.length < n) (by omega : read.2.length < m)
                  fun s hNil hs => hSame s hNil (by omega)]

end

/-- More depth than the length of the source changes nothing. -/
theorem element_enough : ∀ {n m : Nat} {source : List Char}, source.length ≤ n → source.length ≤ m →
    source ≠ [] → element f64 total n source = element f64 total m source := by
  intro n
  induction n with
  | zero =>
      intro m source hn _ hSource
      exact absurd (List.eq_nil_of_length_eq_zero (Nat.le_zero.1 hn)) hSource
  | succ n ih =>
      intro m source hn hm hSource
      cases m with
      | zero => exact absurd (List.eq_nil_of_length_eq_zero (Nat.le_zero.1 hm)) hSource
      | succ m =>
          unfold element
          cases hName : name total false "an element name" source.tail with
          | error e => rfl
          | ok found =>
              dsimp only
              have hShorter := name_shorter hName
              rw [List.length_tail] at hShorter
              refine attributes_enough element_shortens (Nat.lt_succ_self _) (Nat.lt_succ_self _) ?_
              intro s hNil hs
              exact ih (by omega) (by omega) hNil

/-! ## The depth of the lowering -/

theorem depth_le_depth_in {children : List Child} {inner : Element} (h : Child.element inner ∈ children) :
    inner.depth ≤ depth_in children := by
  induction children with
  | nil => cases h
  | cons child rest ih =>
      have hCons : depth_in (child :: rest) = max child.depth (depth_in rest) := by rw [depth_in]
      rw [hCons]
      rcases List.mem_cons.1 h with hIs | hLater
      · have hDepth : child.depth = inner.depth := by rw [← hIs, Child.depth]
        omega
      · have hRest := ih hLater
        omega

theorem flush_text {current : List Part} {inner : Element} : Run.element inner ∉ flush current := by
  unfold flush
  split
  · nofun
  · intro h
    cases List.mem_singleton.1 h

/-- The elements of an element's runs are its children. -/
theorem mem_runs {lowers : Lowers} {inner : Element} : ∀ {children : List Child} {current : List Part}
    {found : List Run}, runs lowers current children = .ok found → Run.element inner ∈ found →
      Child.element inner ∈ children := by
  intro children current
  induction current, children using runs.induct lowers with
  | case1 current =>
      intro found h hMem
      rw [← Except.ok.inj h] at hMem
      exact absurd hMem flush_text
  | case2 current first rest failure hLater ih =>
      intro found h hMem
      unfold runs at h
      rw [hLater] at h
      cases h
  | case3 current first rest later hLater ih =>
      intro found h hMem
      unfold runs at h
      rw [hLater] at h
      rw [← Except.ok.inj h] at hMem
      rcases List.mem_append.1 hMem with hFlushed | hAfter
      · exact absurd hFlushed flush_text
      · rcases List.mem_cons.1 hAfter with hIs | hInLater
        · cases hIs
          exact List.mem_cons_self
        · exact List.mem_cons_of_mem _ (ih hLater hInLater)
  | case4 current text offset rest failure hDecode =>
      intro found h hMem
      unfold runs at h
      rw [hDecode] at h
      cases h
  | case5 current raw offset rest text hDecode ih =>
      intro found h hMem
      unfold runs at h
      rw [hDecode] at h
      exact List.mem_cons_of_mem _ (ih h hMem)
  | case6 current text at_ offset rest ih =>
      intro found h hMem
      unfold runs at h
      exact List.mem_cons_of_mem _ (ih h hMem)
  | case7 current other offset rest hOther failure hPure =>
      intro found h hMem
      rw [runs.eq_5 _ _ _ _ _ hOther, hPure] at h
      cases h
  | case8 current other offset rest hOther hPure ih =>
      intro found h hMem
      rw [runs.eq_5 _ _ _ _ _ hOther, hPure] at h
      exact List.mem_cons_of_mem _ (ih h hMem)

/-- Two ways to lower the elements of some runs that agree on them. -/
theorem lower_runs_enough {lowers : Lowers} {lower lower' : Element → String → String → Option String → String →
    List String → Except BsxError (ComponentNode × List String)} {b : Below} :
    ∀ {found : List Run} {implicit : Nat} {counts : String → Nat} {seen_else : Bool} {ids : List String},
      (∀ inner, Run.element inner ∈ found → lower inner = lower' inner) →
        lower_runs lowers lower b found implicit counts seen_else ids =
          lower_runs lowers lower' b found implicit counts seen_else ids := by
  intro found
  induction found with
  | nil =>
      intro implicit counts seen_else ids hSame
      rfl
  | cons run rest ih =>
      intro implicit counts seen_else ids hSame
      have hRest : ∀ inner, Run.element inner ∈ rest → lower inner = lower' inner :=
        fun inner hInner => hSame inner (List.mem_cons_of_mem _ hInner)
      cases run with
      | text parts =>
          unfold lower_runs
          simp only [ih hRest]
      | element child =>
          unfold lower_runs
          simp only [ih hRest, hSame child List.mem_cons_self]

/-- More depth than the element's changes nothing. -/
theorem node_enough {lowers : Lowers} {view : BlokView} : ∀ {n m : Nat} {e : Element}, e.depth ≤ n → e.depth ≤ m →
    node lowers view n e = node lowers view m e := by
  intro n
  induction n with
  | zero =>
      intro m e hn
      cases e with
      | mk opened offset given children =>
          rw [Element.depth] at hn
          omega
  | succ n ih =>
      intro m e hn hm
      cases m with
      | zero =>
          cases e with
          | mk opened offset given children =>
              rw [Element.depth] at hm
              omega
      | succ m =>
          funext node_id context parent loose_text ids
          unfold node
          cases hRuns : runs lowers [] e.children with
          | error failure => rfl
          | ok found =>
              have hSame : ∀ inner, Run.element inner ∈ found →
                  node lowers view n inner = node lowers view m inner := by
                intro inner hInner
                have hDepth : inner.depth + 1 ≤ e.depth := by
                  have hBelow := depth_le_depth_in (mem_runs hRuns hInner)
                  cases e with
                  | mk opened offset given children =>
                      rw [Element.depth]
                      exact Nat.succ_le_succ hBelow
                exact ih (by omega) (by omega)
              simp only [lower_runs_enough hSame]

end Rekuest.Bsx
