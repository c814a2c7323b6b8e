import Mathlib.Data.List.TakeWhile
import Sieve.Text.Blank

/-!
# Trimming

A text keeps everything when it is trimmed if neither its first nor its last character is one of those
that are taken away. Put between such characters, it comes back.

* `Text.IsTrimmed`: texts that trimming leaves alone;
* `Text.IsTrimmed.trim_between`: a trimmed text comes back from between blanks;
* `Text.toLower_of_isBlank`: blanks have no case.
-/

namespace Sieve.Text

variable {p : Char → Bool} {before s after : List Char} {c : Char}

/-- No blank is a letter. -/
theorem toLower_of_isBlank (h : isBlank c = true) : c.toLower = c := by
  have hn : c.toNat < 65 ∨ 90 < c.toNat := by
    simp only [isBlank, isSpacing, Bool.or_eq_true, Bool.and_eq_true, decide_eq_true_iff, beq_iff_eq] at h
    omega
  refine dif_neg ?_
  rintro ⟨hlow, hhigh⟩
  have hlow : 65 ≤ c.toNat := hlow
  have hhigh : c.toNat ≤ 90 := hhigh
  omega

/-- Neither end of the text is a character of `p`. -/
structure IsTrimmed (p : Char → Bool) (s : List Char) : Prop where
  first : ∀ c ∈ s.head?, p c = false
  last : ∀ c ∈ s.getLast?, p c = false

theorem isTrimmed_of_forall (h : ∀ c ∈ s, p c = false) : IsTrimmed p s :=
  ⟨fun c hc => h c (List.mem_of_mem_head? hc), fun c hc => h c (List.mem_of_getLast? hc)⟩

/-- Whatever stands between two texts that are not empty, trimming leaves it alone. -/
theorem isTrimmed_between {a b : List Char} (ha : a ≠ []) (hb : b ≠ [])
    (hfirst : ∀ c ∈ a, p c = false) (hlast : ∀ c ∈ b, p c = false) (middle : List Char) :
    IsTrimmed p (a ++ (middle ++ b)) where
  first := fun c hc => by
    obtain ⟨d, a, rfl⟩ := List.exists_cons_of_ne_nil ha
    obtain rfl : d = c := Option.some.inj hc
    exact hfirst d List.mem_cons_self
  last := fun c hc => by
    have hlast? : (a ++ (middle ++ b)).getLast? = b.getLast? := by
      rw [List.getLast?_append, List.getLast?_append, List.getLast?_eq_some_getLast hb]
      rfl
    rw [hlast?] at hc
    exact hlast c (List.mem_of_getLast? hc)

theorem trimStart_eq_self (h : ∀ c ∈ s.head?, p c = false) : trimStart p s = s := by
  cases s with
  | nil => rfl
  | cons c r => exact List.dropWhile_cons_of_neg (by simp [h c rfl])

theorem trimStart_append (h : ∀ c ∈ before, p c = true) : trimStart p (before ++ s) = trimStart p s :=
  List.dropWhile_append_of_pos h

/-- **A trimmed text comes back from between characters that are taken away.** -/
theorem IsTrimmed.trim_between (hs : IsTrimmed p s) (hbefore : ∀ c ∈ before, p c = true)
    (hafter : ∀ c ∈ after, p c = true) : trim p (before ++ s ++ after) = s := by
  have hstart : trimStart p (trimStart p (s ++ after)).reverse = s.reverse := by
    have hend : trimStart p (s ++ after).reverse = s.reverse := by
      rw [List.reverse_append, trimStart_append fun c hc => hafter c (List.mem_reverse.1 hc)]
      exact trimStart_eq_self fun c hc => hs.last c (List.head?_reverse ▸ hc)
    cases s with
    | nil =>
      have hnone : trimStart p ([] ++ after) = [] := List.dropWhile_eq_nil_iff.2 hafter
      rw [hnone]
      rfl
    | cons c r =>
      have hself : trimStart p (c :: r ++ after) = c :: r ++ after :=
        trimStart_eq_self fun d hd => hs.first d hd
      rw [hself, hend]
  rw [trim, List.append_assoc, trimStart_append hbefore, hstart, List.reverse_reverse]

theorem IsTrimmed.trim (hs : IsTrimmed p s) : trim p s = s := by
  have h := @trim_between p [] s [] hs nofun nofun
  rwa [List.nil_append, List.append_nil] at h

theorem trim_eq_self (h : ∀ c ∈ s, p c = false) : trim p s = s :=
  (isTrimmed_of_forall h).trim

end Sieve.Text
