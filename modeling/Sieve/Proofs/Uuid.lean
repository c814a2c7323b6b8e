import Sieve.Uuid
import Sieve.Proofs.Number.DecimalText

/-!
# Reading identifiers back

* `hexNatural?_hexDigits`: hexadecimal digits are read as the number they were written for;
* `removeAll_eq_self`: nothing is removed where a mark does not occur;
* `read?_text`: an identifier comes back from its text.
-/

namespace Sieve.Uuid

open Numeral

/-! ### Hexadecimal digits -/

/-- Whether the character is a hexadecimal digit as identifiers are written. -/
def IsHex (c : Char) : Prop := c ∈ "0123456789abcdef".toList

/-- Hexadecimal digits have no other meaning in the text of an identifier. -/
theorem IsHex.plain {c : Char} (h : IsHex c) :
    IsBare c ∧ c ≠ 'u' ∧ c ≠ '{' ∧ c ≠ '}' ∧ c ≠ '-' ∧ c ≠ '+' ∧ c ≠ 'x' ∧ c ≠ 'X' :=
  List.all_iff_forall_prop.1 (by decide : "0123456789abcdef".toList.all fun c =>
    IsBare c ∧ c ≠ 'u' ∧ c ≠ '{' ∧ c ≠ '}' ∧ c ≠ '-' ∧ c ≠ '+' ∧ c ≠ 'x' ∧ c ≠ 'X') c h

theorem isHex_digitChar : ∀ n < 16, IsHex (Nat.digitChar n) := by
  unfold IsHex
  decide

theorem hexDigit?_digitChar : ∀ n < 16, hexDigit? (Nat.digitChar n) = some n := by
  decide

theorem isHex_of_mem_hexDigits {width n : ℕ} {c : Char} (h : c ∈ hexDigits width n) : IsHex c := by
  induction width generalizing n with
  | zero => simp [hexDigits] at h
  | succ width ih =>
    rcases List.mem_append.1 h with h | h
    · exact ih h
    · rw [List.mem_singleton.1 h]
      exact isHex_digitChar _ (Nat.mod_lt _ (by norm_num))

/-- Hexadecimal digits in front of others are read as a number. -/
theorem hexNatural?_append (width n m : ℕ) (after : Bool) (r : List Char) :
    hexNatural? m after (hexDigits width n ++ r) =
      hexNatural? (m * 16 ^ width + n % 16 ^ width) (after || 0 < width) r := by
  induction width generalizing n r with
  | zero => simp [hexDigits, Nat.mod_one]
  | succ width ih =>
    have hlt : n % 16 < 16 := Nat.mod_lt _ (by norm_num)
    have hne : Nat.digitChar (n % 16) ≠ '_' := (isHex_digitChar _ hlt).plain.1.2.2
    have hmod : (m * 16 ^ width + n / 16 % 16 ^ width) * 16 + n % 16 =
        m * 16 ^ (width + 1) + n % 16 ^ (width + 1) := by
      rw [pow_succ', Nat.mod_mul]
      ring
    rw [hexDigits, List.append_assoc, ih, List.singleton_append, hexNatural?, if_neg hne,
      hexDigit?_digitChar _ hlt]
    simp [hmod]

theorem hexNatural?_hexDigits {n : ℕ} (h : n < count) :
    hexNatural? 0 false (hexDigits 32 n) = some n := by
  have hread := hexNatural?_append 32 n 0 false []
  have hmod : n % 16 ^ 32 = n := Nat.mod_eq_of_lt (by simpa [count] using h)
  rw [List.append_nil, hmod] at hread
  simpa [hexNatural?] using hread

/-- Digits are read as a number where a sign, a mark and white space might be. -/
theorem hexNumber?_hexDigits {n : ℕ} (h : n < count) : hexNumber? (hexDigits 32 n) = some (n : ℤ) := by
  have hhex : ∀ c ∈ hexDigits 32 n, IsHex c := fun c hc => isHex_of_mem_hexDigits hc
  have htrim : Text.trim Text.isSpacing (hexDigits 32 n) = hexDigits 32 n := by
    refine Text.trim_eq_self fun c hc => ?_
    have hblank := (hhex c hc).plain.1.2.1
    rw [Text.isBlank, Bool.or_eq_false_iff] at hblank
    exact hblank.1
  have hread := hexNatural?_hexDigits h
  have hlen := length_hexDigits 32 n
  unfold hexNumber?
  rw [htrim, plain_eq_self fun c hc => (hhex c hc).plain.1]
  generalize hexDigits 32 n = ds at *
  rcases ds with _ | ⟨a, _ | ⟨b, r⟩⟩
  · cases hlen
  · cases hlen
  · obtain ⟨-, -, -, -, hminus, hplus, -, -⟩ := (hhex a (by simp)).plain
    obtain ⟨-, -, -, -, -, -, hx, hX⟩ := (hhex b (by simp)).plain
    have hsign : sign (a :: b :: r) = (false, a :: b :: r) := by
      unfold sign
      split <;> simp_all
    rw [hsign]
    dsimp only
    split
    all_goals first
      | (rename_i heq; injection heq with _ heq; injection heq with heq; contradiction)
      | simp [hread, signed]

/-! ### Marks -/

/-- Nothing is removed where the first character of the pattern does not occur. -/
theorem removeAll_eq_self {p : Char} {ps s : List Char} (h : ∀ c ∈ s, c ≠ p) :
    removeAll (p :: ps) 0 s = s := by
  induction s with
  | nil => rfl
  | cons c s ih =>
    have hne : (p == c) = false := beq_eq_false_iff_ne.2 (h c (by simp)).symm
    rw [removeAll]
    simp [List.isPrefixOf, hne, ih fun d hd => h d (List.mem_cons_of_mem c hd)]

theorem mem_text {u : Uuid} {c : Char} (h : c ∈ u.text) : IsHex c ∨ c = '-' := by
  have hhex : ∀ d ∈ hexDigits 32 u.value, IsHex d := fun d hd => isHex_of_mem_hexDigits hd
  unfold text at h
  generalize hexDigits 32 u.value = ds at h hhex
  simp only [List.mem_append, List.mem_cons, or_assoc] at h
  rcases h with h | rfl | h | rfl | h | rfl | h | rfl | h
  · exact .inl (hhex c (List.mem_of_mem_take h))
  · exact .inr rfl
  · exact .inl (hhex c (List.mem_of_mem_drop (List.mem_of_mem_take h)))
  · exact .inr rfl
  · exact .inl (hhex c (List.mem_of_mem_drop (List.mem_of_mem_take h)))
  · exact .inr rfl
  · exact .inl (hhex c (List.mem_of_mem_drop (List.mem_of_mem_take h)))
  · exact .inr rfl
  · exact .inl (hhex c (List.mem_of_mem_drop h))

/-- The groups of an identifier without the hyphens are its digits. -/
theorem filter_text (u : Uuid) : u.text.filter (· != '-') = hexDigits 32 u.value := by
  have hhex : ∀ ds : List Char, (∀ d ∈ ds, d ∈ hexDigits 32 u.value) →
      ds.filter (· != '-') = ds := by
    intro ds hds
    refine List.filter_eq_self.2 fun d hd => ?_
    obtain ⟨-, -, -, -, hminus, -⟩ := (isHex_of_mem_hexDigits (hds d hd)).plain
    simpa using hminus
  have htake : ∀ (k n : ℕ), ∀ d ∈ ((hexDigits 32 u.value).drop k).take n,
      d ∈ hexDigits 32 u.value :=
    fun k n d hd => List.mem_of_mem_drop (List.mem_of_mem_take hd)
  simp only [text, List.filter_append, List.filter_cons]
  rw [hhex _ fun d hd => List.mem_of_mem_take hd, hhex _ (htake 8 4), hhex _ (htake 12 4),
    hhex _ (htake 16 4), hhex _ fun d hd => List.mem_of_mem_drop hd]
  simp only [bne_self_eq_false, Bool.false_eq_true, if_false]
  generalize hexDigits 32 u.value = ds
  calc ds.take 8 ++ (ds.drop 8).take 4 ++ (ds.drop 12).take 4 ++ (ds.drop 16).take 4 ++ ds.drop 20
      = ds.take 8 ++ ((ds.drop 8).take 4 ++ ((ds.drop 12).take 4 ++ ((ds.drop 16).take 4 ++
          ds.drop 20))) := by simp only [List.append_assoc]
    _ = ds.take 8 ++ ((ds.drop 8).take 4 ++ ((ds.drop 12).take 4 ++ ds.drop 16)) := by
        rw [← List.drop_drop (i := 4) (j := 16), List.take_append_drop]
    _ = ds.take 8 ++ ((ds.drop 8).take 4 ++ ds.drop 12) := by
        rw [← List.drop_drop (i := 4) (j := 12), List.take_append_drop]
    _ = ds.take 8 ++ ds.drop 8 := by
        rw [← List.drop_drop (i := 4) (j := 8), List.take_append_drop]
    _ = ds := List.take_append_drop 8 ds

/-- The text of an identifier has no marks and no braces. -/
theorem unmarked_text (u : Uuid) :
    Text.trim (fun c => c == '{' || c == '}')
      (removeAll "uuid:".toList 0 (removeAll "urn:".toList 0 u.text)) = u.text := by
  have hu : ∀ c ∈ u.text, c ≠ 'u' := by
    intro c hc
    rcases mem_text hc with h | rfl
    · exact h.plain.2.1
    · decide
  have hbrace : ∀ c ∈ u.text, (c == '{' || c == '}') = false := by
    intro c hc
    rcases mem_text hc with h | rfl
    · obtain ⟨-, -, hopen, hclose, -⟩ := h.plain
      simp [hopen, hclose]
    · decide
  have hurn : removeAll "urn:".toList 0 u.text = u.text := removeAll_eq_self hu
  have huuid : removeAll "uuid:".toList 0 u.text = u.text := removeAll_eq_self hu
  rw [hurn, huuid, Text.trim_eq_self hbrace]

theorem ofNat?_self (u : Uuid) : ofNat? u.value = some u :=
  dif_pos u.inRange

/-- **An identifier comes back from its text.** -/
theorem read?_text (u : Uuid) : read? (String.ofList u.text) = some u := by
  have hlen := length_hexDigits 32 u.value
  have hread := hexNumber?_hexDigits u.inRange
  have htext : (String.ofList u.text).toList = u.text := String.toList_ofList
  unfold read?
  rw [htext]
  dsimp only
  rw [unmarked_text, filter_text]
  generalize hexDigits 32 u.value = ds at hlen hread
  rw [if_pos hlen, hread]
  exact ofNat?_self u

end Sieve.Uuid
