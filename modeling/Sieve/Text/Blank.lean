/-!
# Blank characters

Two sets of blanks are in use. `isBlank` is the set that separates words of a search text and is
trimmed from typed-in values; `isSpacing` is the set that may surround a numeral. They differ in the
four information separators `U+001C … U+001F`, which are blanks but not spacing.

Main statements: `isBlank_of_isSpacing`, and `trim`/`words` never leave a blank where they promise
none (`head?_trimStart`, `words_no_blank`).
-/

namespace Sieve.Text

/-- White space of the Unicode standard. -/
def isSpacing (c : Char) : Bool :=
  let n := c.toNat
  (9 ≤ n && n ≤ 13) || n == 32 || n == 133 || n == 160 || n == 5760 || (8192 ≤ n && n ≤ 8202) ||
    n == 8232 || n == 8233 || n == 8239 || n == 8287 || n == 12288

/-- White space together with the four information separators. -/
def isBlank (c : Char) : Bool :=
  isSpacing c || (28 ≤ c.toNat && c.toNat ≤ 31)

theorem isBlank_of_isSpacing {c : Char} (h : isSpacing c = true) : isBlank c = true := by
  simp [isBlank, h]

/-- The text without the characters of `p` at its start. -/
def trimStart (p : Char → Bool) (s : List Char) : List Char :=
  s.dropWhile p

/-- The text without the characters of `p` at either end. -/
def trim (p : Char → Bool) (s : List Char) : List Char :=
  (trimStart p (trimStart p s).reverse).reverse

theorem head?_trimStart {p : Char → Bool} {s : List Char} {c : Char}
    (h : (trimStart p s).head? = some c) : p c = false := by
  induction s with
  | nil => simp [trimStart] at h
  | cons a r ih =>
    by_cases ha : p a = true
    · exact ih (by simpa [trimStart, List.dropWhile_cons, ha] using h)
    · have : a = c := by simpa [trimStart, List.dropWhile_cons, ha] using h
      simpa [this] using ha

/-- The text without blanks at either end. -/
def strip (s : String) : String :=
  String.ofList (trim isBlank s.toList)

/-- The words of a text that starts inside the word `open`, kept in reverse. -/
def wordsFrom (word : List Char) : List Char → List (List Char)
  | [] => if word.isEmpty then [] else [word.reverse]
  | c :: r =>
    if isBlank c then
      if word.isEmpty then wordsFrom [] r else word.reverse :: wordsFrom [] r
    else wordsFrom (c :: word) r

/-- The maximal runs of characters that are not blank, in order. -/
def words (s : String) : List String :=
  (wordsFrom [] s.toList).map String.ofList

theorem wordsFrom_no_blank {word s w : List Char} (hword : ∀ c ∈ word, isBlank c = false)
    (h : w ∈ wordsFrom word s) : ∀ c ∈ w, isBlank c = false := by
  induction s generalizing word with
  | nil =>
    by_cases hw : word = []
    · simp [wordsFrom, hw] at h
    · have : w = word.reverse := by simpa [wordsFrom, hw] using h
      intro c hc
      exact hword c (by simpa [this] using hc)
  | cons a r ih =>
    by_cases ha : isBlank a = true
    · by_cases hw : word = []
      · exact @ih [] (by simp) (by simpa [wordsFrom, ha, hw] using h)
      · rcases (by simpa [wordsFrom, ha, hw] using h :
          w = word.reverse ∨ w ∈ wordsFrom [] r) with rfl | h
        · intro c hc
          exact hword c (by simpa using hc)
        · exact @ih [] (by simp) h
    · refine @ih (a :: word) ?_ (by simpa [wordsFrom, ha] using h)
      intro c hc
      rcases List.mem_cons.1 hc with rfl | hc
      · simpa using ha
      · exact hword c hc

/-- No word holds a blank. -/
theorem words_no_blank {s : String} {w : String} (h : w ∈ words s) :
    ∀ c ∈ w.toList, isBlank c = false := by
  obtain ⟨l, hl, rfl⟩ := List.mem_map.1 h
  simpa using wordsFrom_no_blank (by simp) hl

end Sieve.Text
