import Sieve.Json
import Sieve.Proofs.Number.DecimalText
import Sieve.Proofs.Number.Shortest

/-!
# Reading the numbers of JSON texts back

Integers and doubles come back from their texts, whatever follows that does not go on with the
number.

* `EndsNumber`: what does not go on with a number;
* `numberFrom?_eq`: how a number is taken apart;
* `numberFrom?_integerText`: integers come back, unless they are too long;
* `atomFrom?_writeFloat`: doubles come back.
-/

namespace Sieve.Json

open Numeral

/-! ### The parts of a number -/

/-- Whether a text does not go on with a number. -/
def EndsNumber (r : List Char) : Prop :=
  ∀ c ∈ r.head?, isDigit c = false ∧ c ≠ '.' ∧ c ≠ 'e' ∧ c ≠ 'E'

/-- The minus sign of a negative number. -/
def minus (negative : Bool) : List Char := if negative then ['-'] else []

/-- The digits in front of a point: a single zero, or digits that do not start with one. -/
structure IsWhole (ds : List Char) : Prop where
  nonempty : ds ≠ []
  isDigit : ∀ c ∈ ds, isDigit c = true
  head : ds = ['0'] ∨ ds.head? ≠ some '0'

theorem EndsNumber.endsDigits {r : List Char} (h : EndsNumber r) : EndsDigits r :=
  fun c hc => (h c hc).1

theorem isWhole_zero : IsWhole ['0'] :=
  ⟨by simp, List.forall_mem_singleton.2 rfl, .inl rfl⟩

theorem isWhole_digitsOf (n : ℕ) : IsWhole (digitsOf n) := by
  refine ⟨digitsOf_ne_nil n, fun c => isDigit_of_mem_digitsOf, ?_⟩
  by_cases h : n = 0
  · exact .inl (by rw [h, digitsOf_zero])
  · exact .inr (head_digitsOf h)

theorem fractionPart_of_ends {r : List Char} (h : EndsNumber r) : fractionPart r = ([], r) := by
  unfold fractionPart
  split
  next => exact absurd rfl (h '.' rfl).2.1
  next => rfl

theorem exponentPart_of_ends {r : List Char} (h : EndsNumber r) : exponentPart r = (none, r) := by
  cases r with
  | nil => rfl
  | cons c r =>
    obtain ⟨-, -, he, hE⟩ := h c rfl
    simp [exponentPart, he, hE]

theorem fractionPart_point {fs r : List Char} (h0 : fs ≠ []) (hfs : ∀ c ∈ fs, isDigit c = true)
    (hr : EndsDigits r) : fractionPart ('.' :: (fs ++ r)) = (fs, r) := by
  simp [fractionPart, takeWhile_digits hfs hr, dropWhile_digits hfs hr, h0]

theorem fractionPart_exponent (r : List Char) : fractionPart ('e' :: r) = ([], 'e' :: r) := by
  unfold fractionPart
  split
  next heq => simp at heq
  next => rfl

theorem exponentPart_e (negative : Bool) {ds r : List Char} (h0 : ds ≠ [])
    (hds : ∀ c ∈ ds, isDigit c = true) (hr : EndsDigits r) :
    exponentPart ('e' :: (if negative then '-' else '+') :: (ds ++ r)) =
      (some (signed negative (ofDigits ds)), r) := by
  have hs : sign ((if negative then '-' else '+') :: (ds ++ r)) = (negative, ds ++ r) := by
    cases negative <;> rfl
  simp [exponentPart, hs, takeWhile_digits hds hr, dropWhile_digits hds hr, h0]

/-- A number is taken apart into its sign, its digits before and behind the point, and its
exponent. -/
theorem numberFrom?_eq (negative : Bool) {ds r fs r₁ r₂ : List Char} {e : Option ℤ}
    (hds : IsWhole ds) (hr : EndsDigits r) (hfs : fractionPart r = (fs, r₁))
    (he : exponentPart r₁ = (e, r₂)) :
    numberFrom? (minus negative ++ (ds ++ r)) =
      if fs.isEmpty && e.isNone then
        if ds.length ≤ maxDigits then some (.int (signed negative (ofDigits ds)), r₂) else none
      else some (.float (.ofScientific ⟨negative, ofDigits (ds ++ fs), e.getD 0 - fs.length⟩), r₂)
      := by
  obtain ⟨c, t, rfl⟩ := List.exists_cons_of_ne_nil hds.nonempty
  have hc : isDigit c = true := hds.isDigit c (by simp)
  unfold numberFrom?
  split
  next negative' t' heq =>
    have hsign : negative' = negative ∧ t' = c :: t ++ r := by
      cases negative with
      | true =>
        cases heq
        exact ⟨rfl, rfl⟩
      | false =>
        have hm : c ≠ '-' := by rintro rfl; simp [Numeral.isDigit] at hc
        split at heq
        next hminus => exact absurd (List.cons.inj hminus).1 hm
        next =>
          cases heq
          exact ⟨rfl, rfl⟩
    obtain ⟨rfl, rfl⟩ := hsign
    extract_lets whole
    have hw : whole = c :: t := by
      simp only [whole]
      rcases hds.head with hzero | hzero
      · obtain ⟨rfl, rfl⟩ := List.cons.inj hzero
        rfl
      · have hc0 : c ≠ '0' := by simpa using hzero
        split
        next heq => exact absurd (List.cons.inj heq).1 hc0
        next => exact takeWhile_digits hds.isDigit hr
    rw [hw, List.drop_left, hfs]
    dsimp only
    rw [he]
    rfl

/-- **An integer comes back from its text**, unless it has too many digits. -/
theorem numberFrom?_integerText (i : ℤ) {r : List Char} (hr : EndsNumber r) :
    numberFrom? (integerText i ++ r) =
      if (digitsOf i.natAbs).length ≤ maxDigits then some (.int i, r) else none := by
  have htext : integerText i ++ r = minus (decide (i < 0)) ++ (digitsOf i.natAbs ++ r) := by
    unfold integerText minus
    by_cases h : i < 0 <;> simp [h]
  rw [htext, numberFrom?_eq _ (isWhole_digitsOf _) hr.endsDigits (fractionPart_of_ends hr)
    (exponentPart_of_ends hr)]
  simp [signed_natAbs]

/-! ### Doubles -/

/-- Whether a text is read as a double in scientific form with the given value. -/
def ReadsAs (negative : Bool) (t r : List Char) (x : ℚ) : Prop :=
  ∃ (c : ℕ) (e : ℤ), numberFrom? (minus negative ++ (t ++ r)) =
    some (.float (.ofScientific ⟨negative, c, e⟩), r) ∧ (c : ℚ) * 10 ^ e = x

theorem readsAs_fraction (negative : Bool) {ds fs r : List Char} (hds : IsWhole ds)
    (h0 : fs ≠ []) (hfs : ∀ c ∈ fs, isDigit c = true) (hr : EndsNumber r) :
    ReadsAs negative (ds ++ '.' :: fs) r (ofDigits (ds ++ fs) * 10 ^ (-(fs.length : ℤ))) := by
  have hpoint : EndsDigits ('.' :: (fs ++ r)) := by
    intro c hc
    cases hc
    decide
  refine ⟨ofDigits (ds ++ fs), -(fs.length : ℤ), ?_, rfl⟩
  have := numberFrom?_eq negative hds hpoint
    (fractionPart_point h0 hfs hr.endsDigits) (exponentPart_of_ends hr)
  simpa [h0] using this

theorem readsAs_exponent (negative minus : Bool) {ds fs es r : List Char} (hds : IsWhole ds)
    (hfs : ∀ c ∈ fs, isDigit c = true) (h0 : es ≠ []) (hes : ∀ c ∈ es, isDigit c = true)
    (hr : EndsNumber r) :
    ReadsAs negative
      (ds ++ (if fs = [] then [] else '.' :: fs) ++ 'e' :: (if minus then '-' else '+') :: es) r
      (ofDigits (ds ++ fs) * 10 ^ (signed minus (ofDigits es) - fs.length)) := by
  have he : EndsDigits ('e' :: (if minus then '-' else '+') :: (es ++ r)) := by
    intro c hc
    cases hc
    decide
  have hexp := exponentPart_e minus h0 hes hr.endsDigits
  refine ⟨ofDigits (ds ++ fs), signed minus (ofDigits es) - fs.length, ?_, rfl⟩
  by_cases hf : fs = []
  · have := numberFrom?_eq negative hds he (fractionPart_exponent _) hexp
    simpa [hf] using this
  · have hpoint : EndsDigits ('.' :: (fs ++ 'e' :: (if minus then '-' else '+') :: (es ++ r))) := by
      intro c hc
      cases hc
      decide
    have := numberFrom?_eq negative hds hpoint (fractionPart_point hf hfs he) hexp
    simpa [hf] using this

section Positional

variable (negative : Bool) {d : Binary64.Digits} {r : List Char} (hd : d.Proper) (hr : EndsNumber r)
include hd hr

/-- The text of a double below one. -/
theorem readsAs_below_one (h : d.point ≤ 0) :
    ReadsAs negative ('0' :: '.' :: (List.replicate (-d.point).toNat '0' ++ d.digits)) r
      d.value := by
  have hfs : ∀ c ∈ List.replicate (-d.point).toNat '0' ++ d.digits, isDigit c = true := by
    intro c hc
    rcases List.mem_append.1 hc with hc | hc
    · exact isDigit_of_mem_zeros hc
    · exact hd.isDigit c hc
  have := readsAs_fraction negative isWhole_zero (by simp [hd.nonempty]) hfs hr
  rw [List.singleton_append, List.singleton_append, ofDigits_zero_cons, ofDigits_zeros_append,
    List.length_append, List.length_replicate] at this
  convert this using 1
  rw [Binary64.Digits.value]
  congr 2
  omega

variable {n : ℕ} (hn : (n : ℤ) = d.point)
include hn

/-- The text of a whole double. -/
theorem readsAs_whole (h : d.digits.length ≤ n) :
    ReadsAs negative (d.digits ++ List.replicate (n - d.digits.length) '0' ++ ['.', '0']) r
      d.value := by
  have hds : IsWhole (d.digits ++ List.replicate (n - d.digits.length) '0') := by
    refine ⟨by simp [hd.nonempty], fun c hc => ?_, .inr ?_⟩
    · rcases List.mem_append.1 hc with hc | hc
      · exact hd.isDigit c hc
      · exact isDigit_of_mem_zeros hc
    · rw [List.head?_append_of_ne_nil _ hd.nonempty]
      exact hd.head
  have := readsAs_fraction negative hds (List.cons_ne_nil '0' [])
    (List.forall_mem_singleton.2 rfl) hr
  convert this using 1
  have hzeros : ofDigits (d.digits ++ List.replicate (n - d.digits.length) '0' ++ ['0']) =
      ofDigits d.digits * 10 ^ (n - d.digits.length) * 10 := by
    rw [ofDigits_append, ofDigits_append_zeros]
    simp
  rw [hzeros, Binary64.Digits.value, ← hn, ← Nat.cast_sub h, zpow_natCast]
  push_cast
  simp

/-- The text of a double with a point between its digits. -/
theorem readsAs_between (hpos : 0 < n) (h : n < d.digits.length) :
    ReadsAs negative (d.digits.take n ++ '.' :: d.digits.drop n) r d.value := by
  obtain ⟨c, t, hct⟩ := List.exists_cons_of_ne_nil hd.nonempty
  have htake : d.digits.take n = c :: t.take (n - 1) := by
    rw [hct]
    exact List.take_cons hpos
  have hds : IsWhole (d.digits.take n) := by
    refine ⟨by simp [htake], fun c hc => hd.isDigit c (List.mem_of_mem_take hc), .inr ?_⟩
    have hhead := hd.head
    rw [hct] at hhead
    rw [htake]
    exact hhead
  have hfs : d.digits.drop n ≠ [] := by
    rw [ne_eq, List.drop_eq_nil_iff]
    omega
  have := readsAs_fraction negative hds hfs
    (fun c hc => hd.isDigit c (List.mem_of_mem_drop hc)) hr
  convert this using 1
  rw [List.take_append_drop, Binary64.Digits.value, List.length_drop]
  congr 2
  omega

omit hn in
/-- The digits of a double with a point among them are read as what they stand for. -/
theorem readsAs_positional : ReadsAs negative d.positional r d.value := by
  unfold Binary64.Digits.positional
  by_cases hpoint : d.point ≤ 0
  · rw [if_pos hpoint]
    exact readsAs_below_one negative hd hr hpoint
  · rw [if_neg hpoint]
    have hn : (d.point.toNat : ℤ) = d.point := Int.toNat_of_nonneg (by omega)
    dsimp only
    by_cases hwhole : d.digits.length ≤ d.point.toNat
    · rw [if_pos hwhole]
      exact readsAs_whole negative hd hr hn hwhole
    · rw [if_neg hwhole]
      exact readsAs_between negative hd hr hn (by omega) (by omega)

end Positional

/-- Digits of an exponent, at least two of them. -/
theorem ofDigits_two_places (n : ℕ) :
    let ds := digitsOf n
    ofDigits (if ds.length < 2 then '0' :: ds else ds) = n ∧
      (∀ c ∈ (if ds.length < 2 then '0' :: ds else ds), isDigit c = true) ∧
      (if ds.length < 2 then '0' :: ds else ds) ≠ [] := by
  intro ds
  have hds : ∀ c ∈ ds, isDigit c = true := fun c => isDigit_of_mem_digitsOf
  split
  · refine ⟨by simp [ds], ?_, by simp⟩
    intro c hc
    rcases List.mem_cons.1 hc with rfl | hc
    · decide
    · exact hds c hc
  · exact ⟨ofDigits_digitsOf n, hds, digitsOf_ne_nil n⟩

/-- The digits of a double with an exponent are read as what they stand for. -/
theorem readsAs_exponential (negative : Bool) {d : Binary64.Digits} {r : List Char}
    (hd : d.Proper) (hr : EndsNumber r) : ReadsAs negative d.exponential r d.value := by
  obtain ⟨c, fs, hcfs⟩ := List.exists_cons_of_ne_nil hd.nonempty
  obtain ⟨hvalue, hes, h0⟩ := ofDigits_two_places (d.point - 1).natAbs
  have hwhole : IsWhole [c] := by
    refine ⟨by simp, ?_, .inr ?_⟩
    · intro x hx
      exact hd.isDigit x (by rw [hcfs]; simp [List.mem_singleton.1 hx])
    · simpa [hcfs] using hd.head
  have hfs : ∀ x ∈ fs, isDigit x = true := by
    intro x hx
    exact hd.isDigit x (by rw [hcfs]; exact List.mem_cons_of_mem c hx)
  have := readsAs_exponent negative (decide (d.point - 1 < 0))
    hwhole hfs h0 hes hr
  rw [hvalue, signed_natAbs] at this
  convert this using 1
  · unfold Binary64.Digits.exponential
    rw [hcfs]
    cases fs <;> simp
  · rw [Binary64.Digits.value, hcfs, List.length_cons, List.singleton_append]
    congr 2
    push_cast
    ring

/-- **The digits of a double are read as what they stand for.** -/
theorem readsAs_text (negative : Bool) {d : Binary64.Digits} {r : List Char} (hd : d.Proper)
    (hr : EndsNumber r) : ReadsAs negative d.text r d.value := by
  unfold Binary64.Digits.text
  split
  · exact readsAs_positional negative hd hr
  · exact readsAs_exponential negative hd hr

/-- The text of a finite double comes back. -/
theorem numberFrom?_text (negative : Bool) {s : ℕ} {e : ℤ} {r : List Char}
    (hc : Binary64.Canonical s e) (hr : EndsNumber r) :
    numberFrom? ((Binary64.finite negative s e).text ++ r) =
      some (.float (.finite negative s e), r) := by
  have htext : (Binary64.finite negative s e).text ++ r = minus negative ++
      ((if s = 0 then "0.0".toList else (Binary64.shortest s e).text) ++ r) := by
    cases negative <;> simp [Binary64.text, minus]
  rw [htext]
  by_cases hs : s = 0
  · have he : e = Binary64.minExponent := hc.full.resolve_left (by omega)
    obtain ⟨c, x, hread, hvalue⟩ := readsAs_fraction negative isWhole_zero
      (List.cons_ne_nil '0' []) (List.forall_mem_singleton.2 rfl) hr
    have hten : (10 : ℚ) ^ x ≠ 0 := by positivity
    have hc0 : c = 0 := by simpa [hten] using hvalue
    rw [if_pos hs]
    have : numberFrom? (minus negative ++ ("0.0".toList ++ r)) = _ := hread
    rw [this, hc0, hs, he]
    simp [Binary64.ofScientific, Binary64.zero]
  · rw [if_neg hs]
    obtain ⟨hproper, hround⟩ := Binary64.shortest_spec hc hs
    obtain ⟨c, x, hread, hvalue⟩ := readsAs_text negative hproper hr
    rw [← hvalue] at hround
    rw [hread, Binary64.ofScientific_eq hc hs hround]

/-! ### Numbers among the atoms -/

/-- No word starts like a number: its first character is no digit, nor is the second one if the
first one is a minus sign. -/
theorem head_of_mem_words : ∀ w ∈ words, ∃ a b t, w.1.toList = a :: b :: t ∧
    isDigit a = false ∧ (a = '-' → isDigit b = false) := by
  simp only [words, List.forall_mem_cons]
  refine ⟨?_, ?_, ?_, ?_, ?_, ?_, by simp⟩
  all_goals exact ⟨_, _, _, rfl, by decide, by decide⟩

theorem atomFrom?_number {negative : Bool} {c : Char} {t : List Char} (h : isDigit c = true) :
    atomFrom? (minus negative ++ c :: t) = numberFrom? (minus negative ++ c :: t) := by
  have hwords : words.findSome? (fun w =>
      (afterWord? w.1 (minus negative ++ c :: t)).map fun r => (w.2, r)) = none := by
    rw [List.findSome?_eq_none_iff]
    intro w hw
    obtain ⟨a, b, u, hab, ha, hb⟩ := head_of_mem_words w hw
    rw [Option.map_eq_none_iff, afterWord?, hab, if_neg]
    rw [List.isPrefixOf_iff_prefix]
    cases negative with
    | false =>
      rintro ⟨v, hv⟩
      obtain rfl : a = c := (List.cons.inj hv).1
      rw [h] at ha
      cases ha
    | true =>
      rintro ⟨v, hv⟩
      obtain ⟨hm, htail⟩ := List.cons.inj hv
      obtain rfl : b = c := (List.cons.inj htail).1
      rw [hb hm] at h
      cases h
  rw [atomFrom?, hwords]

/-- What is read as a number starts with a digit, possibly behind a minus sign. -/
theorem head_of_numberFrom? {s : List Char} {x : Json × List Char}
    (h : numberFrom? s = some x) :
    ∃ negative c t, s = minus negative ++ c :: t ∧ isDigit c = true := by
  unfold numberFrom? at h
  split at h
  next negative t heq =>
    extract_lets whole at h
    by_cases hempty : whole = []
    · simp [hempty] at h
    · obtain ⟨c, r, rfl, hc⟩ : ∃ c r, t = c :: r ∧ isDigit c = true := by
        simp only [whole] at hempty
        split at hempty
        next r => exact ⟨'0', r, rfl, by decide⟩
        next =>
          cases t with
          | nil => simp at hempty
          | cons c r =>
            refine ⟨c, r, rfl, ?_⟩
            by_contra hc
            simp [hc] at hempty
      refine ⟨negative, c, r, ?_, hc⟩
      split at heq
      · cases heq
        rfl
      · cases heq
        rfl

/-- **An integer is an atom that comes back from its text**, unless it has too many digits. -/
theorem atomFrom?_integerText (i : ℤ) {r : List Char} (hr : EndsNumber r) :
    atomFrom? (integerText i ++ r) =
      if (digitsOf i.natAbs).length ≤ maxDigits then some (.int i, r) else none := by
  obtain ⟨c, t, hct⟩ := List.exists_cons_of_ne_nil (digitsOf_ne_nil i.natAbs)
  have htext : integerText i ++ r = minus (decide (i < 0)) ++ c :: (t ++ r) := by
    unfold integerText minus
    by_cases h : i < 0 <;> simp [h, hct]
  have hc : isDigit c = true := isDigit_of_mem_digitsOf (n := i.natAbs) (by simp [hct])
  rw [htext, atomFrom?_number hc, ← htext, numberFrom?_integerText i hr]

/-- **A double is an atom that comes back from its text.** -/
theorem atomFrom?_writeFloat {x : Binary64} {r : List Char} (hx : x.IsKept) (hr : EndsNumber r) :
    atomFrom? (writeFloat x ++ r) = some (.float x, r) := by
  cases x with
  | finite negative s e =>
    have hread := numberFrom?_text negative hx hr
    obtain ⟨negative', c, t, heq, hc⟩ := head_of_numberFrom? hread
    rw [writeFloat, heq, atomFrom?_number hc, ← heq, hread]
    all_goals simp
  | infinite negative =>
    cases negative <;> simp [writeFloat, atomFrom?, words, afterWord?]
  | nan => simp [writeFloat, atomFrom?, words, afterWord?]

end Sieve.Json
