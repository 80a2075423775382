import Rekuest.Bloks.Declarations
import Rekuest.Graphql.Lexer

/-!
# What is declared as a read

The first word of a document is looked for behind what stands in front of the first `#` of each of
its lines, and a line ends with a line feed.  So the word is that of the first operation, unless a
carriage return ends a comment before it; and no later operation is looked at.
-/

namespace Rekuest.Bloks

open Graphql Rekuest.Ports Rekuest.Backend

/-! ## Comments -/

/-- A text without its comments, from a place in one or outside. -/
def clear : Bool → List Char → List Char
  | _, [] => []
  | true, c :: rest => if c = '\n' then c :: clear false rest else clear true rest
  | false, c :: rest => if c = '#' then clear true rest else c :: clear false rest

/-- Whether a place is in a comment, as the lines are cut. -/
def inside (within : Bool) (before : List Char) : Bool :=
  before.foldl (fun within c => if c = '\n' then false else within || c = '#') within

/-- A `#` stands before a place, on its line. -/
def hidden (before : List Char) : Bool := inside false before

theorem clear_end (within : Bool) (rest : List Char) : clear within ('\n' :: rest) = '\n' :: clear false rest := by
  cases within with
  | true => exact if_pos rfl
  | false => exact if_neg (by decide)

theorem intercalate_modifyHead (c : Char) {lines : List (List Char)} (h : lines ≠ []) :
    ['\n'].intercalate (lines.modifyHead (c :: ·)) = c :: ['\n'].intercalate lines := by
  cases lines with
  | nil => exact absurd rfl h
  | cons line rest =>
      cases rest with
      | nil => rfl
      | cons next rest => rfl

theorem intercalate_blank {lines : List (List Char)} (h : lines ≠ []) :
    ['\n'].intercalate ([] :: lines) = '\n' :: ['\n'].intercalate lines := by
  cases lines with
  | nil => exact absurd rfl h
  | cons line rest => rfl

/-- The lines without their comments, and without the first line if a comment goes on in it. -/
theorem without_comments_from (document : List Char) :
    ['\n'].intercalate ((document.splitOn '\n').map (·.takeWhile (· ≠ '#'))) = clear false document ∧
      ['\n'].intercalate (((document.splitOn '\n').map (·.takeWhile (· ≠ '#'))).modifyHead fun _ => []) =
        clear true document := by
  induction document with
  | nil => exact ⟨rfl, rfl⟩
  | cons c rest ih =>
      have hLines := List.splitOn_ne_nil '\n' rest
      rw [List.splitOn_cons_eq_if_modifyHead]
      generalize rest.splitOn '\n' = lines at ih hLines
      have hMap : lines.map (·.takeWhile (· ≠ '#')) ≠ [] := by
        intro hNil
        exact hLines (List.map_eq_nil_iff.1 hNil)
      by_cases hEnd : c = '\n'
      · rw [hEnd, beq_self_eq_true, if_pos rfl, clear_end, clear_end, List.map_cons, List.takeWhile_nil, List.modifyHead_cons,
          intercalate_blank hMap, ih.1]
        exact ⟨rfl, rfl⟩
      · rw [if_neg (by simpa using hEnd)]
        cases lines with
        | nil => exact absurd rfl hLines
        | cons line more =>
            rw [List.modifyHead_cons, List.map_cons, List.modifyHead_cons]
            rw [List.map_cons, List.modifyHead_cons] at ih
            constructor
            · by_cases hHash : c = '#'
              · rw [hHash, List.takeWhile_cons_of_neg (by decide)]
                exact ih.2
              · have hKept : decide (c ≠ '#') = true := decide_eq_true hHash
                have hFirst := intercalate_modifyHead c hMap
                rw [List.map_cons, List.modifyHead_cons, ih.1] at hFirst
                rw [List.takeWhile_cons, if_pos hKept, hFirst]
                exact (if_neg hHash).symm
            · rw [ih.2]
              exact (if_neg hEnd).symm

theorem without_comments_eq (document : List Char) : without_comments document = clear false document :=
  (without_comments_from document).1

theorem clear_append (l m : List Char) : ∀ within : Bool,
    clear within (l ++ m) = clear within l ++ clear (inside within l) m := by
  induction l with
  | nil =>
      intro within
      cases within <;> rfl
  | cons c l ih =>
      intro within
      have hInside : inside within (c :: l) = inside (if c = '\n' then false else within || c = '#') l := rfl
      rw [hInside, List.cons_append]
      by_cases hEnd : c = '\n'
      · rw [hEnd, clear_end, clear_end, ih, if_pos rfl]
        rfl
      · rw [if_neg hEnd]
        cases within with
        | true =>
            rw [show clear true (c :: (l ++ m)) = clear true (l ++ m) from if_neg hEnd,
              show clear true (c :: l) = clear true l from if_neg hEnd, ih]
            rfl
        | false =>
            by_cases hHash : c = '#'
            · rw [show clear false (c :: (l ++ m)) = clear true (l ++ m) from if_pos hHash,
                show clear false (c :: l) = clear true l from if_pos hHash, ih, hHash]
              rfl
            · rw [show clear false (c :: (l ++ m)) = c :: clear false (l ++ m) from if_neg hHash,
                show clear false (c :: l) = c :: clear false l from if_neg hHash, ih,
                show (false || c = '#' : Bool) = false by simpa using hHash]
              rfl

/-- Behind a comment the line ends. -/
theorem clear_true_head (l : List Char) : ∀ c ∈ (clear true l).head?, c = '\n' := by
  induction l with
  | nil => nofun
  | cons d l ih =>
      intro c hc
      by_cases hEnd : d = '\n'
      · rw [show clear true (d :: l) = d :: clear false l from if_pos hEnd] at hc
        exact (Option.some.inj hc).symm.trans hEnd
      · rw [show clear true (d :: l) = clear true l from if_neg hEnd] at hc
        exact ih c hc

theorem clear_body {body : List Char} (h : ∀ c ∈ body, line_end c = false) (l : List Char) :
    clear true (body ++ l) = clear true l := by
  induction body with
  | nil => rfl
  | cons c body ih =>
      obtain ⟨hc, hRest⟩ := List.forall_mem_cons.1 h
      have hEnd : ¬ c = '\n' := by
        intro hIs
        rw [hIs] at hc
        cases hc
      rw [List.cons_append, show clear true (c :: (body ++ l)) = clear true (body ++ l) from if_neg hEnd]
      exact ih hRest

/-- What is left of what is ignored is ignored. -/
theorem trivia_clear {l : List Char} (h : Trivia l) : ∀ within : Bool, ∀ c ∈ clear within l, ignored c = true := by
  induction h with
  | nil =>
      intro within c hc
      cases within <;> cases hc
  | @ignored d l hIgnored _ ih =>
      intro within c hc
      have hHash : ¬ d = '#' := by
        intro hIs
        rw [hIs] at hIgnored
        exact absurd hIgnored (by decide)
      cases within with
      | false =>
          rw [show clear false (d :: l) = d :: clear false l from if_neg hHash] at hc
          rcases List.mem_cons.1 hc with hIs | hLater
          · rw [hIs]
            exact hIgnored
          · exact ih false c hLater
      | true =>
          by_cases hEnd : d = '\n'
          · rw [show clear true (d :: l) = d :: clear false l from if_pos hEnd] at hc
            rcases List.mem_cons.1 hc with hIs | hLater
            · rw [hIs]
              exact hIgnored
            · exact ih false c hLater
          · rw [show clear true (d :: l) = clear true l from if_neg hEnd] at hc
            exact ih true c hc
  | @comment body l hBody _ ih =>
      intro within c hc
      have hDropped : clear within ('#' :: (body ++ l)) = clear true l := by
        cases within with
        | true => exact clear_body hBody l
        | false => exact clear_body hBody l
      rw [hDropped] at hc
      exact ih true c hc

/-! ## The first word -/

def MUTATION : List Char := "mutation".toList

theorem takeWhile_word {p : Char → Bool} {word rest : List Char} (hWord : ∀ c ∈ word, p c = true)
    (hRest : ∀ c ∈ rest.head?, p c = false) : (word ++ rest).takeWhile p = word := by
  rw [List.takeWhile_append_of_pos hWord]
  cases rest with
  | nil => rw [List.takeWhile_nil, List.append_nil]
  | cons c rest =>
      have hNot : ¬ p c = true := by
        rw [hRest c rfl]
        exact Bool.false_ne_true
      rw [List.takeWhile_cons_of_neg hNot, List.append_nil]

/-- What is ignored begins with white space, or with what begins no word. -/
theorem trim_start_ignored {k m : List Char} (hk : ∀ c ∈ k, ignored c = true)
    (hm : ∀ c ∈ m.head?, isWhitespace c = false) :
    trim_start (k ++ m) = m ∨ ∃ c rest, trim_start (k ++ m) = c :: rest ∧ (c = ',' ∨ c = '\ufeff') := by
  unfold trim_start
  induction k with
  | nil =>
      left
      cases m with
      | nil => rfl
      | cons c m =>
          have hNot : ¬ isWhitespace c = true := by
            rw [hm c rfl]
            exact Bool.false_ne_true
          exact List.dropWhile_cons_of_neg hNot
  | cons c k ih =>
      obtain ⟨hc, hRest⟩ := List.forall_mem_cons.1 hk
      by_cases hSpace : isWhitespace c = true
      · rw [List.cons_append, List.dropWhile_cons_of_pos hSpace]
        exact ih hRest
      · right
        refine ⟨c, k ++ m, ?_, ?_⟩
        · rw [List.cons_append, List.dropWhile_cons_of_neg hSpace]
        · have hCases : c ∈ [' ', '\t', '\n', '\r', ',', '\ufeff'] := by
            unfold ignored at hc
            exact of_decide_eq_true hc
          simp only [List.mem_cons, List.not_mem_nil, or_false] at hCases
          rcases hCases with hIs | hIs | hIs | hIs | hIs | hIs
          · exact absurd (hIs ▸ (by decide : isWhitespace ' ' = true)) hSpace
          · exact absurd (hIs ▸ (by decide : isWhitespace '\t' = true)) hSpace
          · exact absurd (hIs ▸ (by decide : isWhitespace '\n' = true)) hSpace
          · exact absurd (hIs ▸ (by decide : isWhitespace '\r' = true)) hSpace
          · exact .inl hIs
          · exact .inr hIs

/-- A mutation that stands first, with no `#` before it on its line, is seen. -/
theorem first_mutation {document : List Char} {t : Token} {later : List Token}
    (hLex : lex document = some (t :: later)) (hKind : t.kind = .name MUTATION)
    (hShown : hidden (document.take t.offset) = false) :
    operation_keyword document = [] ∨ operation_keyword document = MUTATION := by
  unfold lex at hLex
  split at hLex
  · obtain ⟨before, rest, size, hDocument, hTrivia, hOffset, hToken⟩ := lex_from_first hLex
    rw [hKind] at hToken
    obtain ⟨after, hRest, hEnds⟩ := token_name hToken
    rw [Nat.zero_add] at hOffset
    have hTake : document.take t.offset = before := by rw [hDocument, hOffset, List.take_left]
    rw [hTake] at hShown
    have hAfter : ∀ c ∈ (clear false after).head?, (c.isAlpha || c = '_' : Bool) = false := by
      cases after with
      | nil => nofun
      | cons d after =>
          intro c hc
          by_cases hHash : d = '#'
          · rw [show clear false (d :: after) = clear true after from if_pos hHash] at hc
            rw [clear_true_head after c hc]
            rfl
          · rw [show clear false (d :: after) = d :: clear false after from if_neg hHash] at hc
            rw [← Option.some.inj hc]
            have hNot : name_continue d = false := hEnds
            unfold name_continue Char.isAlphanum at hNot
            rw [Bool.or_eq_false_iff, Bool.or_eq_false_iff] at hNot
            rw [hNot.1.1, hNot.2]
            rfl
    have hText : without_comments document = clear false before ++ (MUTATION ++ clear false after) := by
      rw [without_comments_eq, hDocument, clear_append, show inside false before = false from hShown, hRest,
        clear_append]
      rfl
    unfold operation_keyword
    rw [hText]
    have hIgnored := trivia_clear hTrivia false
    have hWord : ∀ c ∈ (MUTATION ++ clear false after).head?, isWhitespace c = false := by
      intro c hc
      rw [← Option.some.inj hc]
      rfl
    rcases trim_start_ignored hIgnored hWord with hSame | ⟨c, more, hCons, hOther⟩
    · right
      rw [hSame]
      dsimp only
      have hHead : (MUTATION ++ clear false after).head? = some 'm' := rfl
      rw [hHead, if_neg (by decide)]
      exact takeWhile_word (List.all_eq_true.1 (by decide)) hAfter
    · left
      rw [hCons]
      dsimp only
      rcases hOther with hIs | hIs
      · rw [hIs, if_neg (by simp), List.takeWhile_cons_of_neg (by decide)]
      · rw [hIs, if_neg (by simp), List.takeWhile_cons_of_neg (by decide)]
  · cases hLex

/-! ## Declared reads -/

/-- Of a document that is accepted, no operation is a mutation, if and only if every mutation in it
stands first and has no `#` before it on its line. -/
theorem accepted_reads {kind name : String} {document : List Char} {toks : List Token}
    (hKind : kind = "query" ∨ kind = "subscription")
    (h : check_operation kind name (operation_keyword document) = .ok ()) (hLex : lex document = some toks) :
    (∀ t ∈ definitions toks, t.kind ≠ .name MUTATION) ↔
      ∀ t ∈ definitions toks, t.kind = .name MUTATION →
        toks.head? = some t ∧ hidden (document.take t.offset) = false := by
  constructor
  · intro hNone t ht hIs
    exact absurd hIs (hNone t ht)
  · intro hOnly t ht hIs
    obtain ⟨hFirst, hShown⟩ := hOnly t ht hIs
    cases toks with
    | nil => cases hFirst
    | cons first later =>
        rw [Option.some.inj hFirst] at hLex
        have hWord : operation_keyword document = kind.toList := by
          unfold check_operation at h
          by_cases hSame : operation_keyword document = kind.toList
          · exact hSame
          · rw [if_neg hSame] at h
            split at h
            · cases h
            · cases h
        rcases first_mutation hLex hIs hShown with hNil | hMutation
        · rw [hNil] at hWord
          rcases hKind with hQuery | hSubscription
          · rw [hQuery] at hWord
            exact absurd hWord (by decide)
          · rw [hSubscription] at hWord
            exact absurd hWord (by decide)
        · rw [hMutation] at hWord
          rcases hKind with hQuery | hSubscription
          · rw [hQuery] at hWord
            exact absurd hWord (by decide)
          · rw [hSubscription] at hWord
            exact absurd hWord (by decide)

theorem except_bind_ok {α β : Type} {x : Except ValidationError α} {f : α → Except ValidationError β} {b : β}
    (h : (x >>= f) = .ok b) : ∃ a, x = .ok a ∧ f a = .ok b := by
  cases x with
  | error e => cases h
  | ok a => exact ⟨a, rfl, h⟩

theorem forM_ok {α : Type} {check : α → Except ValidationError Unit} : ∀ {l : List α},
    l.forM check = .ok () → ∀ a ∈ l, check a = .ok () := by
  intro l
  induction l with
  | nil => nofun
  | cons b l ih =>
      intro h
      obtain ⟨_, hB, hRest⟩ := except_bind_ok (show (check b >>= fun _ => l.forM check) = .ok () from h)
      exact List.forall_mem_cons.2 ⟨hB, ih hRest⟩

theorem check_query_ok {query : BlokQuery} (h : check_query query = .ok ()) :
    check_operation "query" query.key (operation_keyword query.document.toList) = .ok () := by
  unfold check_query at h
  cases hOperation : check_operation "query" query.key (operation_keyword query.document.toList) with
  | error e =>
      rw [hOperation] at h
      cases h
  | ok _ => rfl

theorem check_subscription_ok {queries : List BlokQuery} {subscription : BlokSubscription}
    (h : check_subscription queries subscription = .ok ()) :
    check_operation "subscription" subscription.key (operation_keyword subscription.document.toList) =
      .ok () := by
  unfold check_subscription at h
  cases hOperation : check_operation "subscription" subscription.key
      (operation_keyword subscription.document.toList) with
  | error e =>
      rw [hOperation] at h
      cases h
  | ok _ => rfl

/-- The documents that a blok declares as queries and as subscriptions. -/
def BlokDeclarations.documents (blok : BlokDeclarations) : List String :=
  blok.queries.map (·.document) ++ blok.subscriptions.map (·.document)

/-- Of a document that a blok is accepted with, no operation is a mutation, if and only if every
mutation in it stands first and has no `#` before it on its line. -/
theorem declared_reads {blok : BlokDeclarations} {kind : String} {reserved : String → Bool}
    (h : check_blok_declarations blok kind reserved = .ok ()) :
    ∀ document ∈ blok.documents, ∀ toks, lex document.toList = some toks →
      ((∀ t ∈ definitions toks, t.kind ≠ .name MUTATION) ↔
        ∀ t ∈ definitions toks, t.kind = .name MUTATION →
          toks.head? = some t ∧ hidden (document.toList.take t.offset) = false) := by
  intro document hDocument toks hLex
  unfold check_blok_declarations at h
  obtain ⟨_, -, h⟩ := except_bind_ok h
  obtain ⟨_, -, h⟩ := except_bind_ok h
  obtain ⟨_, -, h⟩ := except_bind_ok h
  obtain ⟨_, -, h⟩ := except_bind_ok h
  obtain ⟨_, hQueries, h⟩ := except_bind_ok h
  obtain ⟨_, hSubscriptions, -⟩ := except_bind_ok h
  rcases List.mem_append.1 hDocument with hIn | hIn
  · obtain ⟨query, hQuery, hIs⟩ := List.mem_map.1 hIn
    rw [← hIs] at hLex ⊢
    exact accepted_reads (.inl rfl) (check_query_ok (forM_ok hQueries query hQuery)) hLex
  · obtain ⟨subscription, hSubscription, hIs⟩ := List.mem_map.1 hIn
    rw [← hIs] at hLex ⊢
    exact accepted_reads (.inr rfl)
      (check_subscription_ok (forM_ok hSubscriptions subscription hSubscription)) hLex

/-- A blok with one query. -/
def one_query (document : String) : BlokDeclarations where
  queries := [{ key := "slides", document }]

theorem one_query_reads : ∃ toks, lex "# all\nquery Q \x7b a \x7d".toList = some toks ∧
    ((definitions toks).all fun t => t.kind ≠ .name MUTATION) = true := by
  have hAccepted : check_blok_declarations (one_query "# all\nquery Q \x7b a \x7d") "action" (fun _ => false) =
      .ok () := by rfl
  have hLex : lex "# all\nquery Q \x7b a \x7d".toList = some [⟨6, .name "query".toList⟩, ⟨12, .name ['Q']⟩,
      ⟨14, .punctuator ['\x7b']⟩, ⟨16, .name ['a']⟩, ⟨18, .punctuator ['\x7d']⟩] := by decide
  have hReads := declared_reads hAccepted "# all\nquery Q \x7b a \x7d" List.mem_cons_self _ hLex
  refine ⟨_, hLex, List.all_eq_true.2 fun t ht => decide_eq_true ?_⟩
  exact hReads.2 (by decide) t ht

/-- A carriage return ends the comment before a mutation; and a mutation stands behind a query. -/
theorem declared_writes :
    (check_blok_declarations (one_query "# x\rmutation M \x7b a \x7d\nquery Q \x7b b \x7d") "action"
        (fun _ => false) = .ok () ∧
      ∃ toks, lex "# x\rmutation M \x7b a \x7d\nquery Q \x7b b \x7d".toList = some toks ∧
        ∃ t ∈ definitions toks, t.kind = .name MUTATION) ∧
    (check_blok_declarations (one_query "query Q \x7b a \x7d mutation M \x7b b \x7d") "action"
        (fun _ => false) = .ok () ∧
      ∃ toks, lex "query Q \x7b a \x7d mutation M \x7b b \x7d".toList = some toks ∧
        ∃ t ∈ definitions toks, t.kind = .name MUTATION) := by
  refine ⟨⟨by rfl, ?_⟩, by rfl, ?_⟩
  · refine ⟨_, by rfl, ⟨4, .name MUTATION⟩, ?_, rfl⟩
    decide
  · refine ⟨_, by rfl, ⟨14, .name MUTATION⟩, ?_, rfl⟩
    decide

end Rekuest.Bloks
