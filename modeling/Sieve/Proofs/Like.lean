import Mathlib.Tactic
import Sieve.Like

/-!
# Patterns that look for a text

A text is escaped and put between two wildcards. The pattern matches exactly the texts that hold the
text in one piece, whatever characters it is made of, as long as backslashes escape. Other escape
characters are not escaped themselves, so a text that holds them is looked for only by chance.

* `Spells`: the texts that the parts of a pattern stand for, `matchesTokens_iff_spells`;
* `tokens_substring`, `tokens_substring_guarded`: what such a pattern is read as;
* `anySuffix_eq_true_iff`, `matchesTokens_start`: what its parts match;
* `accepts_substring`: what the pattern matches;
* `Guards`, `accepts_substring_iff`: the texts that an escape character looks for;
* `accepts_substring_loses`: a text that it does not.
-/

namespace Sieve.Like

variable {mark : Option Char} {c m : Char} {s t : List Char} {p : List Token}

/-- A character that is no escape stands for what it means on its own. -/
theorem tokens_cons (h : mark ≠ some c) (s : List Char) :
    tokens mark (c :: s) = .ofChar c :: tokens mark s := by
  cases s <;> simp [tokens, h]

/-- The pattern is read as the characters of the text between two runs. -/
theorem tokens_substring (s : List Char) :
    tokens (some escapeChar) (substring [escapeChar] s) =
      .anyRun :: (s.map Token.literal ++ [.anyRun]) := by
  have hwild : (some escapeChar : Option Char) ≠ some '%' := by decide
  rw [substring, List.cons_append, tokens_cons hwild, tokens_escape, tokens_cons hwild, tokens]
  rfl

/-- A run stands for the characters in front of some end of the text. -/
theorem anySuffix_eq_true_iff {p : List Char → Bool} :
    anySuffix p t = true ↔ ∃ r, r <:+ t ∧ p r = true := by
  induction t with
  | nil => simp [anySuffix]
  | cons c t ih =>
    rw [anySuffix, Bool.or_eq_true, ih]
    constructor
    · rintro (h | ⟨r, hr, h⟩)
      · exact ⟨c :: t, List.suffix_rfl, h⟩
      · exact ⟨r, hr.trans (List.suffix_cons c t), h⟩
    · rintro ⟨r, hr, h⟩
      rcases List.suffix_cons_iff.1 hr with rfl | hr
      · exact .inl h
      · exact .inr ⟨r, hr, h⟩

/-- A run at the end matches any text. -/
theorem matchesTokens_anyRun (same : Char → Char → Bool) (t : List Char) :
    matchesTokens same [.anyRun] t = true :=
  anySuffix_eq_true_iff.2 ⟨[], List.nil_suffix, rfl⟩

/-- Characters with a run behind them match the texts that begin with them. -/
theorem matchesTokens_start :
    matchesTokens (sameChar true) (s.map Token.literal ++ [.anyRun]) t = true ↔ s <+: t := by
  induction s generalizing t with
  | nil => simp [matchesTokens_anyRun]
  | cons c s ih =>
    cases t with
    | nil => simp [matchesTokens]
    | cons d t =>
      rw [List.map_cons, List.cons_append, matchesTokens, Bool.and_eq_true, ih, List.cons_prefix_cons,
        sameChar, if_pos rfl, beq_iff_eq]

/-- A pattern that is read as the characters of a text between two runs matches the texts that hold it in
one piece. -/
theorem accepts_of_tokens {pattern : String} (text : String)
    (h : tokens mark pattern.toList = .anyRun :: (s.map Token.literal ++ [.anyRun])) :
    accepts mark true pattern text = true ↔ s <:+: text.toList := by
  rw [accepts, h, matchesTokens, anySuffix_eq_true_iff, List.infix_iff_prefix_suffix]
  simp only [matchesTokens_start]
  exact exists_congr fun r => and_comm

/-- **The pattern for a text matches the texts that hold it in one piece.** -/
theorem accepts_substring (term text : String) :
    accepts (some escapeChar) true (String.ofList (substring [escapeChar] term.toList)) text = true ↔
      term.toList <:+: text.toList :=
  accepts_of_tokens text (by rw [String.toList_ofList, tokens_substring])

/-! ### What a pattern stands for -/

/-- The texts that the parts of a pattern stand for, one part after the other. -/
inductive Spells (same : Char → Char → Bool) : List Token → List Char → Prop
  | nil : Spells same [] []
  | literal {p : List Token} {t : List Char} {c d : Char} (hc : same c d = true)
    (hp : Spells same p t) : Spells same (.literal c :: p) (d :: t)
  | anyOne {p : List Token} {t : List Char} (d : Char) (hp : Spells same p t) :
    Spells same (.anyOne :: p) (d :: t)
  | anyRun {p : List Token} {t : List Char} (run : List Char) (hp : Spells same p t) :
    Spells same (.anyRun :: p) (run ++ t)

/-- **A text matches a pattern if it is made of what the parts stand for.** -/
theorem matchesTokens_iff_spells {same : Char → Char → Bool} :
    matchesTokens same p t = true ↔ Spells same p t := by
  induction p generalizing t with
  | nil =>
    rw [matchesTokens, List.isEmpty_iff]
    exact ⟨fun h => h ▸ .nil, fun h => by cases h; rfl⟩
  | cons k p ih =>
    cases k with
    | literal c =>
      cases t with
      | nil =>
        constructor <;> intro h <;> cases h
      | cons d t =>
        rw [matchesTokens, Bool.and_eq_true, ih]
        constructor
        · rintro ⟨hc, hp⟩
          exact .literal hc hp
        · intro h
          cases h with
          | literal hc hp => exact ⟨hc, hp⟩
    | anyOne =>
      cases t with
      | nil =>
        constructor <;> intro h <;> cases h
      | cons d t =>
        rw [matchesTokens, ih]
        constructor
        · exact .anyOne d
        · intro h
          cases h with
          | anyOne _ hp => exact hp
    | anyRun =>
      rw [matchesTokens, anySuffix_eq_true_iff]
      constructor
      · rintro ⟨r, ⟨run, rfl⟩, h⟩
        exact .anyRun run (ih.1 h)
      · intro h
        cases h with
        | @anyRun _ r run hp => exact ⟨r, List.suffix_append run r, ih.2 hp⟩

instance {same : Char → Char → Bool} : Decidable (Spells same p t) :=
  decidable_of_iff _ matchesTokens_iff_spells

/-! ### Other escape characters -/

/-- Every escape character in the text has a backslash behind it. -/
def Guards (m : Char) (s : List Char) : Prop :=
  ∀ r, m :: r <:+ s → r.head? = some '\\'

theorem guards_nil (m : Char) : Guards m [] := fun r h => by simp at h

theorem guards_cons : Guards m (c :: s) ↔ (c = m → s.head? = some '\\') ∧ Guards m s := by
  constructor
  · intro h
    refine ⟨?_, fun r hr => h r (hr.trans (List.suffix_cons c s))⟩
    rintro rfl
    exact h s List.suffix_rfl
  · rintro ⟨hc, hs⟩ r hr
    rcases List.suffix_cons_iff.1 hr with heq | hr
    · obtain ⟨rfl, rfl⟩ := List.cons.inj heq
      exact hc rfl
    · exact hs r hr

/-- A text that a part of a pattern stands for, with as few characters as possible. -/
def Token.sample : Token → List Char
  | literal c => [c]
  | anyOne => [' ']
  | anyRun => []

theorem spells_sample (p : List Token) : Spells (sameChar true) p (p.flatMap Token.sample) := by
  induction p with
  | nil => exact .nil
  | cons k p ih =>
    cases k with
    | literal c => exact .literal (by simp [sameChar]) ih
    | anyOne => exact .anyOne ' ' ih
    | anyRun => exact .anyRun [] ih

/-- Characters other than the escape stand for themselves once they are escaped. -/
theorem tokens_escape_cons (hc : c ≠ m) (s r : List Char) :
    tokens (some m) (escape [m] (c :: s) ++ r) =
      .literal c :: tokens (some m) (escape [m] s ++ r) := by
  rw [escape, List.flatMap_cons, ← escape]
  split
  · simp [tokens]
  · next hplain =>
    have hliteral : Token.ofChar c = .literal c := by
      simp only [isSpecial, Bool.or_eq_true, beq_iff_eq, not_or] at hplain
      rw [Token.ofChar, if_neg hplain.1.2, if_neg hplain.2]
    rw [List.singleton_append, List.cons_append, tokens_cons (by simpa using hc.symm), hliteral]

/-- The shortest text that the pattern for a text stands for. -/
def shortest (m : Char) (s : List Char) : List Char :=
  (tokens (some m) (escape [m] s ++ ['%'])).flatMap Token.sample

theorem shortest_cons (hc : c ≠ m) (s : List Char) : shortest m (c :: s) = c :: shortest m s := by
  rw [shortest, tokens_escape_cons hc]
  rfl

section

variable (hm : isSpecial m = false)
include hm

theorem shortest_nil : shortest m [] = [] := by
  have hne : (some m : Option Char) ≠ some '%' := by
    rintro ⟨⟩
    cases hm
  rw [shortest, escape, List.flatMap_nil, List.nil_append, tokens_cons hne]
  rfl

/-- The escape itself is not escaped. -/
theorem escape_mark (s : List Char) : escape [m] (m :: s) = m :: escape [m] s := by
  rw [escape, List.flatMap_cons, hm]
  rfl

/-- At the end of the text it takes the wildcard for a character. -/
theorem shortest_mark : shortest m [m] = ['%'] := by
  rw [shortest, escape_mark hm]
  simp [escape, tokens, Token.sample]

/-- It is lost in front of a character that is not escaped. -/
theorem shortest_mark_plain (hc : isSpecial c = false) (s : List Char) :
    shortest m (m :: c :: s) = c :: shortest m s := by
  rw [shortest, escape_mark hm, escape, List.flatMap_cons, hc, ← escape]
  simp [tokens, Token.sample, shortest]

/-- In front of one that is, it takes the escape of that one for a character. -/
theorem tokens_mark_special (hc : isSpecial c = true) (s : List Char) :
    tokens (some m) (escape [m] (m :: c :: s) ++ ['%']) =
      .literal m :: .ofChar c :: tokens (some m) (escape [m] s ++ ['%']) := by
  have hne : (some m : Option Char) ≠ some c := by
    rintro ⟨⟩
    cases hm.symm.trans hc
  rw [escape_mark hm, escape, List.flatMap_cons, hc, ← escape]
  simp [tokens, tokens_cons hne]

theorem shortest_mark_special (hc : isSpecial c = true) (s : List Char) :
    shortest m (m :: c :: s) = m :: ((Token.ofChar c).sample ++ shortest m s) := by
  rw [shortest, tokens_mark_special hm hc]
  rfl

theorem guards_mark : Guards m (m :: '\\' :: s) ↔ Guards m s := by
  have hne : '\\' ≠ m := by
    rintro rfl
    cases hm
  simp [guards_cons, hne]

/-- The shortest text that a pattern stands for is no longer than the one that it is for, and is that one
only if it is guarded. -/
theorem shortest_le (s : List Char) :
    (shortest m s).length ≤ s.length ∧ (shortest m s = s → Guards m s) := by
  match s with
  | [] => exact ⟨by simp [shortest_nil hm], fun _ => guards_nil m⟩
  | c :: s =>
    by_cases hc : c = m
    · obtain rfl := hc.symm
      match s with
      | [] =>
        rw [shortest_mark hm]
        refine ⟨Nat.le_refl 1, fun h => ?_⟩
        obtain ⟨rfl, -⟩ := List.cons.inj h
        cases hm
      | d :: s =>
        obtain ⟨hle, hguards⟩ := shortest_le s
        have hlt : (shortest m s).length + 1 < s.length + 2 := by omega
        by_cases hd : isSpecial d = true
        · rw [shortest_mark_special hm hd]
          simp only [isSpecial, Bool.or_eq_true, beq_iff_eq] at hd
          rcases hd with (rfl | rfl) | rfl
          · -- A backslash is kept, and the escape in front of it as well.
            rw [guards_mark hm]
            refine ⟨Nat.succ_le_succ (Nat.succ_le_succ hle), fun h => hguards ?_⟩
            exact (List.cons.inj (List.cons.inj h).2).2
          · -- A run may stand for nothing.
            exact ⟨hlt.le, fun h => absurd (congrArg List.length h) hlt.ne⟩
          · -- Any character will do for another one.
            refine ⟨Nat.succ_le_succ (Nat.succ_le_succ hle), fun h => ?_⟩
            cases (List.cons.inj (List.cons.inj h).2).1
        · rw [shortest_mark_plain hm (Bool.eq_false_iff.2 hd)]
          exact ⟨hlt.le, fun h => absurd (congrArg List.length h) hlt.ne⟩
    · obtain ⟨hle, hguards⟩ := shortest_le s
      rw [shortest_cons hc, guards_cons]
      exact ⟨Nat.succ_le_succ hle, fun h => ⟨fun h => absurd h hc, hguards (List.cons.inj h).2⟩⟩

/-- The pattern for a text that is guarded is read as its characters between two runs. -/
theorem tokens_guarded (s : List Char) (hs : Guards m s) :
    tokens (some m) (escape [m] s ++ ['%']) = s.map Token.literal ++ [.anyRun] := by
  have hwild : (some m : Option Char) ≠ some '%' := by
    rintro ⟨⟩
    cases hm
  cases s with
  | nil =>
    rw [escape, List.flatMap_nil, List.nil_append, tokens_cons hwild]
    rfl
  | cons c s =>
    obtain ⟨hc, htail⟩ := guards_cons.1 hs
    by_cases hcm : c = m
    · obtain rfl := hcm.symm
      cases s with
      | nil => cases hc rfl
      | cons d s =>
        obtain rfl : d = '\\' := Option.some.inj (hc rfl)
        rw [tokens_mark_special hm rfl, tokens_guarded s ((guards_mark hm).1 hs)]
        rfl
    · rw [tokens_escape_cons hcm, tokens_guarded s htail]
      rfl

end

/-- **An escape character makes the pattern for a text match the texts that hold it in one piece if and
only if it is the backslash, or the text guards it.** -/
theorem accepts_substring_iff (hrun : m ≠ '%') (hone : m ≠ '_') (term : String) :
    (∀ text : String,
      accepts (some m) true (String.ofList (substring [m] term.toList)) text = true ↔
        term.toList <:+: text.toList) ↔
      m = '\\' ∨ Guards m term.toList := by
  by_cases hback : m = '\\'
  · rw [hback]
    exact iff_of_true (fun text => accepts_substring term text) (.inl rfl)
  have hm : isSpecial m = false := by simp [isSpecial, hback, hrun, hone]
  have htokens : tokens (some m) (substring [m] term.toList) =
      .anyRun :: tokens (some m) (escape [m] term.toList ++ ['%']) := by
    rw [substring, List.cons_append, tokens_cons (by simpa using hrun)]
    rfl
  rw [or_iff_right hback]
  constructor
  · intro h
    obtain ⟨hle, hguards⟩ := shortest_le hm term.toList
    -- The shortest text that the pattern stands for holds the term, so it is the term.
    have hholds : term.toList <:+: shortest m term.toList := by
      have haccepts := h (String.ofList (shortest m term.toList))
      rw [String.toList_ofList] at haccepts
      refine haccepts.1 ?_
      rw [accepts, String.toList_ofList, String.toList_ofList, htokens, matchesTokens_iff_spells]
      exact spells_sample (.anyRun :: tokens (some m) (escape [m] term.toList ++ ['%']))
    exact hguards (hholds.eq_of_length_le hle).symm
  · intro h text
    refine accepts_of_tokens text ?_
    rw [String.toList_ofList, htokens, tokens_guarded hm term.toList h]

/-- An exclamation mark as escape makes a text match in which it stands in front of a backslash. -/
theorem accepts_substring_iff_guarded :
    '!' ≠ '%' ∧ '!' ≠ '_' ∧ Guards '!' "50%!\\".toList ∧
      ((∀ text : String,
        accepts (some '!') true (String.ofList (substring ['!'] "50%!\\".toList)) text = true ↔
          "50%!\\".toList <:+: text.toList) ↔
        '!' = '\\' ∨ Guards '!' "50%!\\".toList) :=
  ⟨by decide, by decide, by simp [guards_cons, guards_nil],
    accepts_substring_iff (by decide) (by decide) "50%!\\"⟩

/-- With an exclamation mark as escape, a text that holds one is not found in itself. -/
theorem accepts_substring_loses :
    accepts (some '!') true (String.ofList (substring ['!'] "a!b".toList)) "a!b" = false ∧
      "a!b".toList <:+: "a!b".toList :=
  ⟨by cbv, List.infix_rfl⟩

end Sieve.Like
