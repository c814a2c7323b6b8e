import Mathlib.Data.Bool.AllAny
import Sieve.Number.Decimal
import Sieve.Proofs.Blank
import Sieve.Proofs.Number.Digits

/-!
# Reading decimals back

A decimal that keeps the bounds is read back exactly from its text: sign, digits and exponent.

* `Numeral.IsBare`: the characters that reading a number leaves alone;
* `Numeral.Spells`: texts of digits, at most one point, and an exponent, with what they stand for;
* `Decimal.read?_text`: a decimal comes back from its text.
-/

namespace Sieve

namespace Numeral

/-! ### Characters that are left alone -/

/-- Whether reading a number keeps the character as it is. -/
def IsBare (c : Char) : Prop :=
  (match Text.digit? c with
    | some d => Text.digitChar d
    | none => c) = c ∧ Text.isBlank c = false ∧ c ≠ '_'

instance (c : Char) : Decidable (IsBare c) :=
  inferInstanceAs (Decidable (_ ∧ _ ∧ _))

theorem isBare_of_isDigit {c : Char} (h : isDigit c = true) : IsBare c := by
  have hc : 48 ≤ c.toNat ∧ c.toNat ≤ 57 := Char.isDigit_iff_toNat.1 h
  obtain ⟨hlo, hhi⟩ := hc
  rw [← Char.ofNat_toNat c]
  interval_cases c.toNat <;> decide

theorem plain_eq_self {s : List Char} (h : ∀ c ∈ s, IsBare c) : plain s = s := by
  rw [plain]
  conv_rhs => rw [← List.map_id s]
  exact List.map_congr_left fun c hc => (h c hc).1

/-! ### Signs -/

theorem natural?_digitsOf (n : ℕ) : natural? (digitsOf n) = some n := by
  have : (digitsOf n).all isDigit = true := List.all_eq_true.2 fun c => isDigit_of_mem_digitsOf
  simp [natural?, digitsOf_ne_nil, this]

theorem signed_natAbs (i : ℤ) : signed (decide (i < 0)) i.natAbs = i := by
  unfold signed
  split
  · have : i < 0 := by simp_all
    omega
  · have : ¬ i < 0 := by simp_all
    omega

/-! ### Numbers in scientific form -/

/-- An exponent part of a numeral, possibly none, and its value. -/
structure IsSuffix (r : List Char) (p : ℤ) : Prop where
  value : exponentPart? r = some p
  ends : EndsDigits r
  noPoint : r.head? ≠ some '.'
  bare : ∀ c ∈ r, IsBare c

theorem isSuffix_nil : IsSuffix [] 0 :=
  ⟨rfl, by simp [EndsDigits], by simp, by simp⟩

/-- A text of digits, at most one point, and an exponent, with its coefficient and exponent. -/
inductive Spells : List Char → ℕ → ℤ → Prop
  /-- Digits without a point. -/
  | whole {ds r : List Char} {p : ℤ} (h0 : ds ≠ []) (hds : ∀ c ∈ ds, isDigit c = true)
    (hr : IsSuffix r p) : Spells (ds ++ r) (ofDigits ds) p
  /-- Digits with a point behind the first ones. -/
  | point {ds : List Char} (fs : List Char) {r : List Char} {p : ℤ} (h0 : ds ≠ []) (hds : ∀ c ∈ ds, isDigit c = true)
    (hfs : ∀ c ∈ fs, isDigit c = true) (hr : IsSuffix r p) :
    Spells (ds ++ '.' :: (fs ++ r)) (ofDigits (ds ++ fs)) (p - fs.length)

namespace Spells

variable {s : List Char} {c : ℕ} {e : ℤ}

/-- What a numeral stands for is read from it. -/
theorem ofUnsigned? (h : Spells s c e) (negative : Bool) :
    Scientific.ofUnsigned? negative s = some ⟨negative, c, e⟩ := by
  cases h with
  | @whole ds r _ h0 hds hr =>
    rw [Scientific.ofUnsigned?, takeWhile_digits hds hr.ends, dropWhile_digits hds hr.ends]
    have hval := hr.value
    match r, hr.noPoint with
    | [], _ => simp [h0, hval]
    | a :: r, hp =>
      have ha : a ≠ '.' := by simpa using hp
      split
      next fraction rest heq =>
        split at heq
        next hcons => exact absurd (List.cons.inj hcons).1 ha
        next => cases heq; simp [h0, hval]
  | @point ds fs r _ h0 hds hfs hr =>
    have hp : EndsDigits ('.' :: (fs ++ r)) := by
      intro c hc
      cases hc
      decide
    rw [Scientific.ofUnsigned?, takeWhile_digits hds hp, dropWhile_digits hds hp]
    simp [takeWhile_digits hfs hr.ends, dropWhile_digits hfs hr.ends, h0, hr.value]

theorem isBare (h : Spells s c e) : ∀ x ∈ s, IsBare x := by
  cases h with
  | whole h0 hds hr =>
    intro x hx
    rcases List.mem_append.1 hx with hx | hx
    · exact isBare_of_isDigit (hds x hx)
    · exact hr.bare x hx
  | point _ h0 hds hfs hr =>
    intro x hx
    simp only [List.mem_append, List.mem_cons] at hx
    rcases hx with hx | rfl | hx | hx
    · exact isBare_of_isDigit (hds x hx)
    · decide
    · exact isBare_of_isDigit (hfs x hx)
    · exact hr.bare x hx

/-- A numeral starts with a digit. -/
theorem head (h : Spells s c e) : ∃ d r, s = d :: r ∧ isDigit d = true := by
  cases h with
  | @whole ds r _ h0 hds hr =>
    obtain ⟨d, ds, rfl⟩ := List.exists_cons_of_ne_nil h0
    exact ⟨d, ds ++ r, rfl, hds d (by simp)⟩
  | @point ds fs r _ h0 hds hfs hr =>
    obtain ⟨d, ds, rfl⟩ := List.exists_cons_of_ne_nil h0
    exact ⟨d, _, rfl, hds d (by simp)⟩

end Spells

end Numeral

namespace Decimal

open Numeral

/-! ### Finite decimals -/

theorem isSuffix_exponentText (e : ℤ) : IsSuffix (exponentText e) e := by
  have hs : sign ((if e < 0 then '-' else '+') :: digitsOf e.natAbs) =
      (decide (e < 0), digitsOf e.natAbs) := by
    by_cases he : e < 0 <;> simp [he, sign]
  refine ⟨?_, ?_, by simp [exponentText], ?_⟩
  · simp [exponentText, exponentPart?, hs, natural?_digitsOf, signed_natAbs]
  · intro c hc
    cases hc
    decide
  · intro c hc
    simp only [exponentText, List.mem_cons] at hc
    rcases hc with rfl | rfl | hc
    · decide
    · split <;> decide
    · exact isBare_of_isDigit (isDigit_of_mem_digitsOf hc)

/-- The suffix of a scientific text stands for the place of its leading digit. -/
theorem isSuffix_suffix (p : ℤ) :
    IsSuffix (if p = 1 then [] else exponentText (p - 1)) (p - 1) := by
  split
  next h =>
    rw [h]
    exact isSuffix_nil
  next => exact isSuffix_exponentText _

theorem isDigit_of_mem_zeros_append {k n : ℕ} {x : Char}
    (h : x ∈ List.replicate k '0' ++ digitsOf n) : isDigit x = true := by
  rcases List.mem_append.1 h with h | h
  · exact isDigit_of_mem_zeros h
  · exact isDigit_of_mem_digitsOf h

/-- The positional text of a decimal below one. -/
theorem spells_below_one {c : ℕ} {e : ℤ} (h : e + (digitsOf c).length ≤ 0) :
    Spells ('0' :: '.' :: (List.replicate (-(e + (digitsOf c).length)).toNat '0' ++ digitsOf c))
      c e := by
  have := Spells.point (List.replicate (-(e + (digitsOf c).length)).toNat '0' ++ digitsOf c)
    (List.cons_ne_nil '0' []) (by simp; decide) (fun x hx => isDigit_of_mem_zeros_append hx) isSuffix_nil
  rw [List.append_nil, List.singleton_append, List.singleton_append, ofDigits_zero_cons,
    ofDigits_zeros_append, ofDigits_digitsOf, List.length_append, List.length_replicate] at this
  convert this using 1
  omega

/-- The positional text of a decimal with a point between its digits. -/
theorem spells_between {c : ℕ} {e : ℤ} (he : e ≤ 0) (h : 0 < e + (digitsOf c).length) :
    Spells ((digitsOf c).take (e + (digitsOf c).length).toNat ++
      '.' :: (digitsOf c).drop (e + (digitsOf c).length).toNat) c e := by
  have htake : (digitsOf c).take (e + (digitsOf c).length).toNat ≠ [] := by
    have := digitsOf_ne_nil c
    simp only [ne_eq, List.take_eq_nil_iff, this, or_false]
    omega
  have := Spells.point ((digitsOf c).drop (e + (digitsOf c).length).toNat) htake
    (fun x hx => isDigit_of_mem_digitsOf (List.mem_of_mem_take hx))
    (fun x hx => isDigit_of_mem_digitsOf (List.mem_of_mem_drop hx)) isSuffix_nil
  rw [List.append_nil, List.take_append_drop, ofDigits_digitsOf, List.length_drop] at this
  convert this using 1
  omega

/-- The scientific text of a decimal. -/
theorem spells_scientific (c : ℕ) (e : ℤ) :
    Spells ((match digitsOf c with
        | a :: b :: r => a :: '.' :: b :: r
        | r => r) ++ (if e + (digitsOf c).length = 1 then []
          else exponentText (e + (digitsOf c).length - 1))) c e := by
  have hds : ∀ x ∈ digitsOf c, isDigit x = true := fun x => isDigit_of_mem_digitsOf
  have hsuffix := isSuffix_suffix (e + (digitsOf c).length)
  have hvalue := ofDigits_digitsOf c
  revert hds hsuffix hvalue
  match hd : digitsOf c with
  | [] => exact absurd hd (digitsOf_ne_nil c)
  | [a] =>
    intro hds hsuffix hvalue
    have := Spells.whole (by simp) hds hsuffix
    rw [hvalue] at this
    simpa using this
  | a :: b :: r =>
    intro hds hsuffix hvalue
    have := Spells.point (b :: r) (List.cons_ne_nil a []) (by simpa using hds a (by simp))
      (fun x hx => hds x (List.mem_cons_of_mem a hx)) hsuffix
    rw [List.singleton_append, List.singleton_append, hvalue] at this
    convert this using 1
    · rfl
    · simp only [List.length_cons]
      push_cast
      omega

/-- The text of a finite decimal without its sign stands for its digits and exponent. -/
theorem spells_unsignedText (c : ℕ) (e : ℤ) : Spells (unsignedText c e) c e := by
  have hlen := length_digitsOf_pos c
  simp only [unsignedText]
  by_cases hpos : e ≤ 0 ∧ -6 < e + (digitsOf c).length
  · rw [if_pos hpos]
    by_cases he : e = 0
    · rw [if_pos he, he]
      simpa using Spells.whole (digitsOf_ne_nil c) (fun x => isDigit_of_mem_digitsOf) isSuffix_nil
    · rw [if_neg he]
      by_cases hpoint : e + (digitsOf c).length ≤ 0
      · rw [if_pos hpoint]
        exact spells_below_one hpoint
      · rw [if_neg hpoint]
        exact spells_between hpos.1 (by omega)
  · rw [if_neg hpos]
    exact spells_scientific c e

/-! ### All decimals -/

/-- Whether the exponent of a decimal lies within the bounds of reading. -/
def IsBounded : Decimal → Prop
  | .finite _ c e => place c e ≤ maxPlace ∧ minExponent ≤ e
  | _ => True

instance (d : Decimal) : Decidable d.IsBounded := by
  cases d <;> unfold IsBounded <;> infer_instance

theorem bounded?_of_isBounded {negative : Bool} {c : ℕ} {e : ℤ}
    (h : (Decimal.finite negative c e).IsBounded) :
    bounded? negative c e = some (.finite negative c e) := by
  obtain ⟨hplace, hexp⟩ := h
  simp [bounded?, hplace, hexp]

theorem isBare_of_mem_text {d : Decimal} : ∀ x ∈ d.text, IsBare x := by
  intro x h
  have hsign : ∀ negative : Bool, ∀ y ∈ text.signText negative, IsBare y := by
    rintro (_ | _)
    · simp [text.signText]
    · exact List.forall_mem_singleton.2 (by decide)
  cases d with
  | finite negative c e =>
    rcases List.mem_append.1 h with h | h
    · exact hsign _ x h
    · exact (spells_unsignedText c e).isBare x h
  | infinite negative =>
    rcases List.mem_append.1 h with h | h
    · exact hsign _ x h
    · exact List.all_iff_forall_prop.1 (by decide : "Infinity".toList.all (IsBare ·)) x h
  | nan negative signaling payload =>
    simp only [text, List.mem_append] at h
    rcases h with (h | h) | h
    · exact hsign _ x h
    · cases signaling
      · exact List.all_iff_forall_prop.1 (by decide : "NaN".toList.all (IsBare ·)) x h
      · exact List.all_iff_forall_prop.1 (by decide : "sNaN".toList.all (IsBare ·)) x h
    · split at h
      · simp at h
      · exact isBare_of_isDigit (isDigit_of_mem_digitsOf h)

/-- A sign in front of a text that does not start with one. -/
theorem sign_signText {negative : Bool} {a : Char} {r : List Char} (hm : a ≠ '-') (hp : a ≠ '+') :
    sign (text.signText negative ++ a :: r) = (negative, a :: r) := by
  cases negative with
  | true => rfl
  | false =>
    simp only [text.signText, Bool.false_eq_true, if_false, List.nil_append]
    unfold sign
    split <;> simp_all

theorem payload?_digits (payload : ℕ) :
    payload? (if payload = 0 then [] else digitsOf payload) = some payload := by
  split
  next h =>
    rw [h]
    rfl
  next =>
    have : (digitsOf payload).all isDigit = true :=
      List.all_eq_true.2 fun c => isDigit_of_mem_digitsOf
    simp [payload?, this]

/-- What no numeral starts with is not one. -/
theorem ofUnsigned?_of_head {negative : Bool} {a : Char} {r : List Char} (h : isDigit a = false)
    (hp : a ≠ '.') : Scientific.ofUnsigned? negative (a :: r) = none := by
  rw [Scientific.ofUnsigned?]
  simp only [List.takeWhile_cons, List.dropWhile_cons, h]
  simp [hp]

theorem ofNumeral?_text {d : Decimal} (h : d.IsBounded) : ofNumeral? d.text = some d := by
  cases d with
  | finite negative c e =>
    obtain ⟨a, r, har, ha⟩ := (spells_unsignedText c e).head
    have hsign : sign (Decimal.finite negative c e).text = (negative, unsignedText c e) := by
      rw [text, har]
      refine sign_signText ?_ ?_
      · rintro rfl
        simp [isDigit] at ha
      · rintro rfl
        simp [isDigit] at ha
    simp only [ofNumeral?, hsign, (spells_unsignedText c e).ofUnsigned?]
    exact bounded?_of_isBounded h
  | infinite negative => cases negative <;> rfl
  | nan negative signaling payload =>
    cases signaling with
    | false =>
      have hsign : sign (Decimal.nan negative false payload).text =
          (negative, "NaN".toList ++ if payload = 0 then [] else digitsOf payload) := by
        rw [text, List.append_assoc]
        exact sign_signText (by decide) (by decide)
      have hnum : Scientific.ofUnsigned? negative
          ("NaN".toList ++ if payload = 0 then [] else digitsOf payload) = none :=
        ofUnsigned?_of_head (by decide) (by decide)
      simp only [ofNumeral?, hsign, hnum]
      simp [special?, isWord, payload?_digits]
    | true =>
      have hsign : sign (Decimal.nan negative true payload).text =
          (negative, "sNaN".toList ++ if payload = 0 then [] else digitsOf payload) := by
        rw [text, List.append_assoc]
        exact sign_signText (by decide) (by decide)
      have hnum : Scientific.ofUnsigned? negative
          ("sNaN".toList ++ if payload = 0 then [] else digitsOf payload) = none :=
        ofUnsigned?_of_head (by decide) (by decide)
      simp only [ofNumeral?, hsign, hnum]
      simp [special?, isWord, payload?_digits]

/-- **A decimal is read back exactly from its text**, unless its exponent is out of bounds. -/
theorem read?_text {d : Decimal} (h : d.IsBounded) : read? (String.ofList d.text) = some d := by
  have hbare := isBare_of_mem_text (d := d)
  rw [read?, String.toList_ofList, Text.trim_eq_self fun c hc => (hbare c hc).2.1, plain_eq_self hbare,
    List.filter_eq_self.2 fun c hc => by simpa using (hbare c hc).2.2, ofNumeral?_text h]

end Decimal

end Sieve
