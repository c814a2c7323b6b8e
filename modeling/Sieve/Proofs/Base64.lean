import Mathlib.Tactic
import Sieve.Base64

/-!
# Octets from base 64

Octets come back from their digits, whatever number of them fills the last group, and a text comes
back from its octets.

* `decode?_encode`: reading inverts writing;
* `fromUTF8?_octets`: a text comes back from the list of its octets.
-/

namespace Sieve.Base64

/-! ### Groups -/

theorem octets_sextets_two (a b : UInt8) : octets (sextets [a, b]) = [a, b] := by
  have ha := a.toNat_lt
  have hb := b.toNat_lt
  have h1 : a.toNat / 4 * 4 + (a.toNat % 4 * 16 + b.toNat / 16) / 16 = a.toNat := by omega
  have h2 : (a.toNat % 4 * 16 + b.toNat / 16) % 16 * 16 + b.toNat % 16 * 4 / 4 = b.toNat := by omega
  simp only [sextets, octets, h1, h2, UInt8.ofNat_toNat]

theorem octets_sextets_one (a : UInt8) : octets (sextets [a]) = [a] := by
  have ha := a.toNat_lt
  have h1 : a.toNat / 4 * 4 + a.toNat % 4 * 16 / 16 = a.toNat := by omega
  simp only [sextets, octets, h1, UInt8.ofNat_toNat]

theorem sextets_lt (g : List UInt8) : ∀ n ∈ sextets g, n < 64 := by
  intro n hn
  unfold sextets at hn
  split at hn
  next a =>
    have ha := a.toNat_lt
    simp only [List.mem_cons, List.not_mem_nil, or_false] at hn
    omega
  next a b =>
    have ha := a.toNat_lt
    have hb := b.toNat_lt
    simp only [List.mem_cons, List.not_mem_nil, or_false] at hn
    omega
  next a b c =>
    have ha := a.toNat_lt
    have hb := b.toNat_lt
    have hc := c.toNat_lt
    simp only [List.mem_cons, List.not_mem_nil, or_false] at hn
    omega
  next => simp at hn

/-! ### Digits -/

theorem digit_ne_pad : ∀ n < 64, digit n ≠ pad := by decide +kernel

theorem digit_ascii : ∀ n < 64, (digit n).toNat < 128 := by decide +kernel

theorem pad_ascii : pad.toNat < 128 := by decide

/-- A digit that does not fill its group is kept. -/
theorem decodeFrom_digit {group : List ℕ} {pads n : ℕ} (hn : n < 64) (hg : group.length < 3)
    (r : List Char) :
    decodeFrom group pads (digit n :: r) = decodeFrom (group ++ [n]) 0 r := by
  simp [decodeFrom, digit_ne_pad n hn, sextet?_digit n hn, hg]

/-- The fourth digit of a group gives the octets of the group. -/
theorem decodeFrom_last {group : List ℕ} {pads n : ℕ} (hn : n < 64) (hg : group.length = 3)
    (r : List Char) :
    decodeFrom group pads (digit n :: r) =
      (decodeFrom [] 0 r).map (octets (group ++ [n]) ++ ·) := by
  simp [decodeFrom, digit_ne_pad n hn, sextet?_digit n hn, hg]

/-- A full group gives its octets. -/
theorem decodeFrom_group (a b c : UInt8) (r : List Char) :
    decodeFrom [] 0 ((sextets [a, b, c]).map digit ++ r) =
      (decodeFrom [] 0 r).map ([a, b, c] ++ ·) := by
  have hlt := sextets_lt [a, b, c]
  have hoctets := octets_sextets a b c
  simp only [sextets, List.forall_mem_cons] at hlt hoctets
  obtain ⟨h1, h2, h3, h4, -⟩ := hlt
  simp only [sextets, List.map_cons, List.map_nil, List.cons_append, List.nil_append]
  rw [decodeFrom_digit h1 (by simp), decodeFrom_digit h2 (by simp), decodeFrom_digit h3 (by simp),
    decodeFrom_last h4 (by simp)]
  simp only [List.nil_append, List.cons_append]
  rw [hoctets]
  rfl

theorem decodeFrom_two (a b : UInt8) :
    decodeFrom [] 0 ((sextets [a, b]).map digit ++ [pad]) = some [a, b] := by
  have hlt := sextets_lt [a, b]
  have hoctets := octets_sextets_two a b
  simp only [sextets, List.forall_mem_cons] at hlt hoctets
  obtain ⟨h1, h2, h3, -⟩ := hlt
  simp only [sextets, List.map_cons, List.map_nil, List.cons_append, List.nil_append]
  rw [decodeFrom_digit h1 (by simp), decodeFrom_digit h2 (by simp), decodeFrom_digit h3 (by simp)]
  simp [decodeFrom, hoctets]

theorem decodeFrom_one (a : UInt8) :
    decodeFrom [] 0 ((sextets [a]).map digit ++ [pad, pad]) = some [a] := by
  have hlt := sextets_lt [a]
  have hoctets := octets_sextets_one a
  simp only [sextets, List.forall_mem_cons] at hlt hoctets
  obtain ⟨h1, h2, -⟩ := hlt
  simp only [sextets, List.map_cons, List.map_nil, List.cons_append, List.nil_append]
  rw [decodeFrom_digit h1 (by simp), decodeFrom_digit h2 (by simp)]
  simp [decodeFrom, hoctets]

theorem decodeFrom_encode (xs : List UInt8) : decodeFrom [] 0 (encode xs) = some xs := by
  fun_induction encode xs with
  | case1 a b c r ih => rw [decodeFrom_group, ih, Option.map_some, List.cons_append]; rfl
  | case2 a b => exact decodeFrom_two a b
  | case3 a => exact decodeFrom_one a
  | case4 => rfl

theorem encode_ascii (xs : List UInt8) : ∀ c ∈ encode xs, c.toNat < 128 := by
  have hdigits : ∀ g : List UInt8, ∀ c ∈ (sextets g).map digit, c.toNat < 128 := by
    intro g c hc
    obtain ⟨n, hn, rfl⟩ := List.mem_map.1 hc
    exact digit_ascii n (sextets_lt g n hn)
  have hpad := pad_ascii
  fun_induction encode xs with
  | case1 a b c r ih =>
    intro x hx
    rcases List.mem_append.1 hx with hx | hx
    · exact hdigits _ x hx
    · exact ih x hx
  | case2 a b =>
    intro x hx
    rcases List.mem_append.1 hx with hx | hx
    · exact hdigits _ x hx
    · rwa [List.mem_singleton.1 hx]
  | case3 a =>
    intro x hx
    rcases List.mem_append.1 hx with hx | hx
    · exact hdigits _ x hx
    · obtain rfl : x = pad := by simpa using hx
      exact hpad
  | case4 => simp

/-- **Octets come back from their digits.** -/
theorem decode?_encode (xs : List UInt8) : decode? (encode xs) = some xs := by
  have hall : (encode xs).all (·.toNat < 128) = true := by
    simpa using encode_ascii xs
  rw [decode?, if_pos hall, decodeFrom_encode]

/-! ### Octets of texts -/

theorem toList_loop (b : ByteArray) (i : ℕ) (r : List UInt8) :
    ByteArray.toList.loop b i r = r.reverse ++ b.data.toList.drop i := by
  fun_induction ByteArray.toList.loop b i r with
  | case1 i r hlt ih =>
    have hlen : i < b.data.toList.length := hlt
    have hget : b.get! i = b.data.toList[i] := by
      rw [Array.getElem_toList]
      exact getElem!_pos b.data i hlt
    rw [ih, List.drop_eq_getElem_cons hlen, hget]
    simp
  | case2 i r hge =>
    have hlen : b.data.toList.length ≤ i := Nat.le_of_not_lt hge
    rw [List.drop_eq_nil_of_le hlen, List.append_nil]

/-- A text comes back from the list of its octets. -/
theorem fromUTF8?_octets (s : String) :
    String.fromUTF8? ⟨s.toUTF8.toList.toArray⟩ = some s := by
  have hlist : s.toUTF8.toList = s.toUTF8.data.toList := by
    rw [ByteArray.toList, toList_loop]
    rfl
  rw [hlist, Array.toArray_toList]
  exact dif_pos s.isValidUTF8

end Sieve.Base64
