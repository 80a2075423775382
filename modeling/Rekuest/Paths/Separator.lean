import Mathlib.Data.List.Infix

/-!
# Splitting at a doubled mark

Words are joined with a mark written twice between them, and a text is split again
from the left wherever the mark stands twice.  Joining undoes splitting always.
Splitting undoes joining only when no word holds the doubled mark and no word but
the last ends with the mark: three marks in a row are split after the second.
-/

namespace Paths

variable {α : Type} [DecidableEq α]

/-- The mark stands twice in a row somewhere. -/
def doubled (mark : α) : List α → Bool
  | [] => false
  | [_] => false
  | c :: c' :: rest => (c = mark ∧ c' = mark : Bool) || doubled mark (c' :: rest)

/-- The pieces of a text between doubled marks, from the left. -/
def split (mark : α) : List α → List (List α)
  | [] => [[]]
  | [c] => [[c]]
  | c :: c' :: rest =>
      if c = mark ∧ c' = mark then [] :: split mark rest
      else (split mark (c' :: rest)).modifyHead (c :: ·)

/-- The words with the doubled mark between each two. -/
def join (mark : α) (words : List (List α)) : List α := [mark, mark].intercalate words

/-- No piece but the last ends with the mark, and none holds it doubled. -/
structure Plain (mark : α) (words : List (List α)) : Prop where
  single : ∀ word ∈ words, doubled mark word = false
  closed : ∀ word ∈ words.dropLast, word.getLast? ≠ some mark

section Split

variable {mark : α}

@[simp] theorem split_nil : split mark [] = [[]] := rfl

@[simp] theorem split_single (c : α) : split mark [c] = [[c]] := rfl

theorem split_mark (rest : List α) : split mark (mark :: mark :: rest) = [] :: split mark rest := by
  rw [split, if_pos ⟨rfl, rfl⟩]

theorem split_other {c c' : α} (hMark : ¬ (c = mark ∧ c' = mark)) (rest : List α) :
    split mark (c :: c' :: rest) = (split mark (c' :: rest)).modifyHead (c :: ·) := by
  rw [split, if_neg hMark]

theorem doubled_cons {c c' : α} {rest : List α} (h : doubled mark (c :: c' :: rest) = false) :
    ¬ (c = mark ∧ c' = mark) ∧ doubled mark (c' :: rest) = false := by
  simpa [doubled] using h

theorem split_ne_nil (text : List α) : split mark text ≠ [] := by
  induction text using split.induct mark with
  | case1 => simp
  | case2 c => simp
  | case3 c c' rest hMark ih =>
      obtain ⟨rfl, rfl⟩ := hMark
      rw [split_mark]
      exact List.cons_ne_nil _ _
  | case4 c c' rest hMark ih =>
      rw [split_other hMark]
      intro hNil
      cases hSplit : split mark (c' :: rest) with
      | nil => exact ih hSplit
      | cons piece pieces =>
          rw [hSplit] at hNil
          cases hNil

/-- The first piece is empty or starts where the text does. -/
theorem first_of_split {c : α} {rest piece : List α} {pieces : List (List α)}
    (hSplit : split mark (c :: rest) = piece :: pieces) : piece = [] ∨ piece.head? = some c := by
  cases rest with
  | nil =>
      rw [split_single] at hSplit
      obtain ⟨rfl, rfl⟩ := List.cons.inj hSplit
      exact .inr rfl
  | cons c' rest =>
      by_cases hMark : c = mark ∧ c' = mark
      · obtain ⟨rfl, rfl⟩ := hMark
        rw [split_mark] at hSplit
        obtain ⟨rfl, rfl⟩ := List.cons.inj hSplit
        exact .inl rfl
      · rw [split_other hMark] at hSplit
        cases hTail : split mark (c' :: rest) with
        | nil => exact absurd hTail (split_ne_nil _)
        | cons first later =>
            rw [hTail] at hSplit
            obtain ⟨rfl, rfl⟩ := List.cons.inj hSplit
            exact .inr rfl

/-- The cut is made wherever the mark is doubled: no piece holds it so. -/
theorem single_of_split (text : List α) :
    ∀ piece ∈ split mark text, doubled mark piece = false := by
  induction text using split.induct mark with
  | case1 => simp [doubled]
  | case2 c => simp [doubled]
  | case3 c c' rest hMark ih =>
      obtain ⟨rfl, rfl⟩ := hMark
      rw [split_mark]
      simpa [doubled] using ih
  | case4 c c' rest hMark ih =>
      rw [split_other hMark]
      cases hTail : split mark (c' :: rest) with
      | nil => exact absurd hTail (split_ne_nil _)
      | cons first later =>
          rw [hTail] at ih
          have hFirst : doubled mark (c :: first) = false := by
            cases first with
            | nil => rfl
            | cons b first =>
                have hHead : b = c' := by simpa using first_of_split hTail
                subst hHead
                simpa [doubled, hMark] using ih _ (List.mem_cons_self ..)
          intro piece hPiece
          cases hPiece with
          | head => exact hFirst
          | tail _ hLater => exact ih piece (List.mem_cons_of_mem _ hLater)

/-- Where a word that ends with the mark is followed by the doubled mark, the cut comes
too early: the first piece does not end with the mark. -/
theorem first_closed {word rest piece : List α} {pieces : List (List α)}
    (hSplit : split mark (word ++ mark :: mark :: rest) = piece :: pieces) (hPiece : piece = word) :
    word.getLast? ≠ some mark := by
  induction word generalizing piece pieces with
  | nil => simp
  | cons c word ih =>
      obtain ⟨c', tail, hTail⟩ : ∃ c' tail, word ++ mark :: mark :: rest = c' :: tail := by
        cases word with
        | nil => exact ⟨_, _, rfl⟩
        | cons b word => exact ⟨_, _, rfl⟩
      rw [List.cons_append, hTail] at hSplit
      by_cases hMark : c = mark ∧ c' = mark
      · obtain ⟨rfl, rfl⟩ := hMark
        rw [split_mark] at hSplit
        obtain ⟨rfl, rfl⟩ := List.cons.inj hSplit
        cases hPiece
      · rw [split_other hMark, ← hTail] at hSplit
        cases hWord : split mark (word ++ mark :: mark :: rest) with
        | nil => exact absurd hWord (split_ne_nil _)
        | cons first later =>
            rw [hWord] at hSplit
            obtain ⟨rfl, rfl⟩ := List.cons.inj hSplit
            have hFirst : first = word := (List.cons.inj hPiece).2
            cases word with
            | nil =>
                have hHead : mark = c' := (List.cons.inj hTail).1
                intro hLast
                exact hMark ⟨by simpa using hLast, hHead.symm⟩
            | cons b word =>
                rw [List.getLast?_cons_cons]
                exact ih hWord hFirst

/-- A word with no doubled mark is one piece. -/
theorem split_single_word {word : List α} (hWord : doubled mark word = false) :
    split mark word = [word] := by
  induction word using split.induct mark with
  | case1 => rfl
  | case2 c => rfl
  | case3 c c' rest hMark ih => exact absurd hMark (doubled_cons hWord).1
  | case4 c c' rest hMark ih =>
      rw [split_other hMark, ih (doubled_cons hWord).2]
      rfl

/-- A word that neither holds the doubled mark nor ends with the mark is cut off whole. -/
theorem split_word {word : List α} (rest : List α) (hWord : doubled mark word = false)
    (hClosed : word.getLast? ≠ some mark) :
    split mark (word ++ mark :: mark :: rest) = word :: split mark rest := by
  induction word with
  | nil => exact split_mark rest
  | cons c word ih =>
      cases word with
      | nil =>
          have hMark : ¬ (c = mark ∧ mark = mark) := fun h => hClosed (by simp [h.1])
          show split mark (c :: mark :: mark :: rest) = [c] :: split mark rest
          rw [split_other hMark, split_mark]
          rfl
      | cons c' word =>
          obtain ⟨hMark, hTail⟩ := doubled_cons hWord
          have hRest := ih hTail (by rwa [List.getLast?_cons_cons] at hClosed)
          rw [List.cons_append] at hRest
          rw [List.cons_append, List.cons_append, split_other hMark, hRest]
          rfl

end Split

section Join

variable {mark : α}

omit [DecidableEq α] in
@[simp] theorem join_single (word : List α) : join mark [word] = word :=
  List.intercalate_singleton

omit [DecidableEq α] in
theorem join_cons (word next : List α) (words : List (List α)) :
    join mark (word :: next :: words) = word ++ mark :: mark :: join mark (next :: words) := by
  rw [join, List.intercalate_cons_cons]
  simp [join]

/-- Joining puts a text together again. -/
theorem join_split (text : List α) : join mark (split mark text) = text := by
  induction text using split.induct mark with
  | case1 => rfl
  | case2 c => exact join_single [c]
  | case3 c c' rest hMark ih =>
      obtain ⟨rfl, rfl⟩ := hMark
      rw [split_mark]
      cases hRest : split c' rest with
      | nil => exact absurd hRest (split_ne_nil _)
      | cons piece pieces => rw [join_cons, ← hRest, ih, List.nil_append]
  | case4 c c' rest hMark ih =>
      rw [split_other hMark]
      cases hTail : split mark (c' :: rest) with
      | nil => exact absurd hTail (split_ne_nil _)
      | cons piece pieces =>
          rw [hTail] at ih
          cases pieces with
          | nil =>
              rw [join_single] at ih
              show join mark [c :: piece] = c :: c' :: rest
              rw [join_single, ih]
          | cons next pieces =>
              rw [join_cons] at ih
              show join mark ((c :: piece) :: next :: pieces) = c :: c' :: rest
              rw [join_cons, List.cons_append, ih]

omit [DecidableEq α] in
theorem closed_cons {word : List α} {words : List (List α)} :
    (∀ w ∈ (word :: words).dropLast, w.getLast? ≠ some mark) ↔
      (words ≠ [] → word.getLast? ≠ some mark) ∧ ∀ w ∈ words.dropLast, w.getLast? ≠ some mark := by
  cases words with
  | nil => simp
  | cons next words =>
      rw [List.dropLast_cons_cons, List.forall_mem_cons]
      simp

theorem plain_cons {word : List α} {words : List (List α)} :
    Plain mark (word :: words) ↔
      (doubled mark word = false ∧ (words ≠ [] → word.getLast? ≠ some mark)) ∧
        Plain mark words := by
  constructor
  · intro hPlain
    obtain ⟨hSingle, hSingles⟩ := List.forall_mem_cons.1 hPlain.single
    obtain ⟨hClosed, hAll⟩ := closed_cons.1 hPlain.closed
    exact ⟨⟨hSingle, hClosed⟩, hSingles, hAll⟩
  · intro hPlain
    obtain ⟨⟨hSingle, hClosed⟩, hRest⟩ := hPlain
    exact ⟨List.forall_mem_cons.2 ⟨hSingle, hRest.single⟩, closed_cons.2 ⟨hClosed, hRest.closed⟩⟩

/-- Splitting is the inverse of joining on exactly the plain words. -/
theorem split_join {words : List (List α)} (hWords : words ≠ []) :
    split mark (join mark words) = words ↔ Plain mark words := by
  induction words with
  | nil => exact absurd rfl hWords
  | cons word words ih =>
      cases words with
      | nil =>
          rw [join_single]
          constructor
          · intro hSplit
            refine ⟨fun w hw => single_of_split word w (by rw [hSplit]; exact hw), ?_⟩
            intro w hw
            cases hw
          · intro hPlain
            exact split_single_word (hPlain.single word (List.mem_cons_self ..))
      | cons next words =>
          have hTail := ih (List.cons_ne_nil _ _)
          rw [join_cons, plain_cons, ← hTail]
          constructor
          · intro hSplit
            have hSingle : doubled mark word = false :=
              single_of_split _ word (by rw [hSplit]; exact List.mem_cons_self ..)
            have hClosed : word.getLast? ≠ some mark := first_closed hSplit rfl
            rw [split_word _ hSingle hClosed] at hSplit
            exact ⟨⟨hSingle, fun _ => hClosed⟩, (List.cons.inj hSplit).2⟩
          · intro hPlain
            obtain ⟨⟨hSingle, hClosed⟩, hRest⟩ := hPlain
            rw [split_word _ hSingle (hClosed (List.cons_ne_nil _ _)), hRest]

end Join

end Paths
