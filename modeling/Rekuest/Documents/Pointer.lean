import Rekuest.Documents.Tree

/-!
# Pointers as text

A pointer writes a path's tokens behind slashes, with `~0` for a tilde and `~1`
for a slash within one (RFC 6901).  Every path has one text and every text at
most one path, so a path leads through another exactly when its text is the
other's, or the other's up to a slash.
-/

namespace Documents

/-- The rest of a pointer's text: the token it is in, and those behind it. -/
def readTokens : List Char → Option (List Char × List (List Char))
  | [] => some ([], [])
  | '/' :: rest => (readTokens rest).map fun (token, more) => ([], token :: more)
  | '~' :: '0' :: rest => (readTokens rest).map fun (token, more) => ('~' :: token, more)
  | '~' :: '1' :: rest => (readTokens rest).map fun (token, more) => ('/' :: token, more)
  | '~' :: _ => none
  | c :: rest => (readTokens rest).map fun (token, more) => (c :: token, more)

/-- The path a text points along, if it is a pointer. -/
def parsePointer : List Char → Option (List (List Char))
  | [] => some []
  | '/' :: rest => (readTokens rest).map fun (token, more) => token :: more
  | _ :: _ => none

def escapeChar : Char → List Char
  | '~' => ['~', '0']
  | '/' => ['~', '1']
  | c => [c]

/-- A token's text. -/
def escape (token : List Char) : List Char := token.flatMap escapeChar

/-- A path's text. -/
def printPointer (path : List (List Char)) : List Char :=
  path.flatMap fun token => '/' :: escape token

@[simp] theorem printPointer_cons (token : List Char) (path : List (List Char)) :
    printPointer (token :: path) = '/' :: (escape token ++ printPointer path) := rfl

@[simp] theorem printPointer_append (p q : List (List Char)) :
    printPointer (p ++ q) = printPointer p ++ printPointer q := by
  simp [printPointer]

theorem escapeChar_plain {c : Char} (hTilde : c ≠ '~') (hSlash : c ≠ '/') :
    escapeChar c = [c] := by
  unfold escapeChar
  split <;> first | rfl | contradiction

theorem escape_cons (c : Char) (token : List Char) :
    escape (c :: token) = escapeChar c ++ escape token := rfl

theorem readTokens_plain {c : Char} (hTilde : c ≠ '~') (hSlash : c ≠ '/') (rest : List Char) :
    readTokens (c :: rest) =
      (readTokens rest).map fun (token, more) => (c :: token, more) := by
  rw [readTokens]
  · exact fun h => hSlash h
  · exact fun _ h => absurd h hTilde
  · exact fun _ h => absurd h hTilde
  · exact fun h => hTilde h

/-- A text is the one of the path it points along. -/
theorem print_readTokens {s token : List Char} {more : List (List Char)}
    (h : readTokens s = some (token, more)) : escape token ++ printPointer more = s := by
  induction s using readTokens.induct generalizing token more with
  | case1 =>
      cases h
      rfl
  | case2 rest ih =>
      obtain ⟨⟨token', more'⟩, hRest, hEq⟩ := Option.map_eq_some_iff.mp h
      cases hEq
      rw [printPointer_cons, ih hRest]
      rfl
  | case3 rest ih =>
      obtain ⟨⟨token', more'⟩, hRest, hEq⟩ := Option.map_eq_some_iff.mp h
      cases hEq
      rw [escape_cons, List.append_assoc, ih hRest]
      rfl
  | case4 rest ih =>
      obtain ⟨⟨token', more'⟩, hRest, hEq⟩ := Option.map_eq_some_iff.mp h
      cases hEq
      rw [escape_cons, List.append_assoc, ih hRest]
      rfl
  | case5 rest hZero hOne =>
      rw [readTokens] at h
      · cases h
      · exact hZero
      · exact hOne
  | case6 c rest hSlash hZero hOne hTilde ih =>
      rw [readTokens_plain hTilde hSlash] at h
      obtain ⟨⟨token', more'⟩, hRest, hEq⟩ := Option.map_eq_some_iff.mp h
      cases hEq
      rw [escape_cons, escapeChar_plain hTilde hSlash, List.append_assoc, ih hRest]
      rfl

theorem readTokens_escape (token s : List Char) : readTokens (escape token ++ s) =
    (readTokens s).map fun (token', more) => (token ++ token', more) := by
  induction token with
  | nil => simp [escape]
  | cons c token ih =>
      have hMap : (readTokens (escape token ++ s)).map
            (fun (token', more) => (c :: token', more)) =
          (readTokens s).map fun (token', more) => (c :: token ++ token', more) := by
        rw [ih, Option.map_map]
        rfl
      rw [escape_cons, List.append_assoc, ← hMap]
      by_cases hTilde : c = '~'
      · subst hTilde
        rfl
      · by_cases hSlash : c = '/'
        · subst hSlash
          rfl
        · rw [escapeChar_plain hTilde hSlash]
          exact readTokens_plain hTilde hSlash _

theorem readTokens_print (token : List Char) (more : List (List Char)) :
    readTokens (escape token ++ printPointer more) = some (token, more) := by
  induction more generalizing token with
  | nil =>
      rw [readTokens_escape]
      simp [printPointer, readTokens]
  | cons next more ih =>
      rw [readTokens_escape, printPointer_cons, readTokens, ih next]
      simp

/-- Every path is read back from its text. -/
theorem parsePointer_print (path : List (List Char)) :
    parsePointer (printPointer path) = some path := by
  cases path with
  | nil => rfl
  | cons token more =>
      rw [printPointer_cons, parsePointer, readTokens_print]
      rfl

theorem print_parsePointer {s : List Char} {path : List (List Char)}
    (h : parsePointer s = some path) : printPointer path = s := by
  unfold parsePointer at h
  split at h
  case h_1 =>
    cases h
    rfl
  case h_2 rest =>
    obtain ⟨⟨token, more⟩, hRest, hEq⟩ := Option.map_eq_some_iff.mp h
    cases hEq
    rw [printPointer_cons, print_readTokens hRest]
  case h_3 => cases h

/-- Where a path leads through another, its text goes on from the other's. -/
theorem text_of_below {s s' : List Char} {path path' : List (List Char)}
    (h : parsePointer s = some path) (h' : parsePointer s' = some path')
    (hBelow : path <+: path') : s' = s ∨ s ++ ['/'] <+: s' := by
  obtain ⟨rest, hRest⟩ := hBelow
  have hText : s' = s ++ printPointer rest := by
    rw [← print_parsePointer h, ← print_parsePointer h', ← hRest, printPointer_append]
  cases rest with
  | nil => exact .inl (by simpa [printPointer] using hText)
  | cons token rest =>
      right
      refine ⟨escape token ++ printPointer rest, ?_⟩
      rw [hText, printPointer_cons]
      simp

/-- The place a token names in an array: a number in decimal, without leading
zeros. -/
def arrayIndex (token : List Char) : Option Nat :=
  let n := Nat.ofDigitChars 10 token 0
  if Nat.toDigits 10 n = token then some n else none

theorem toDigits_of_arrayIndex {token : List Char} {n : Nat} (h : arrayIndex token = some n) :
    Nat.toDigits 10 n = token := by
  simp only [arrayIndex, Option.ite_none_right_eq_some, Option.some.injEq] at h
  rw [← h.2]
  exact h.1

theorem arrayIndex_toDigits (n : Nat) : arrayIndex (Nat.toDigits 10 n) = some n := by
  simp [arrayIndex, Nat.ofDigitChars_toDigits]

/-- The keys of pointers in arrays. -/
def tokenIndexing : Indexing (List Char) where
  index := arrayIndex
  isEnd token := token == ['-']
  index_inj h h' := by rw [← toDigits_of_arrayIndex h, ← toDigits_of_arrayIndex h']

end Documents
