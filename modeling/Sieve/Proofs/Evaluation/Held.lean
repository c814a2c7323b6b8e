import Sieve.Proofs.Paging.Arrangement
import Sieve.Proofs.Value.Kinds
import Sieve.Proofs.Value.Stored

/-!
# Values that fields hold

The rows of a collection hold values of the types of their fields. What such a value is compared with has
been converted to the same type, and that is nearly enough for an answer: a point in time with an offset
has no order with those without one, and a decimal that is no number has none either. A signalling one
even refuses to be equal or not.

* `StorageType.Holds`: the values that rows hold in a field of a type;
* `StorageType.totallyOrdered`: they are totally ordered;
* `Value.Unordered`, `Value.Signals`: the values that are not compared;
* `StorageType.Holds.precedes_iff`, `StorageType.Holds.equal_iff`: when a value that is held is compared;
* `StorageType.Holds.member?_iff`, `StorageType.Holds.contains_iff`: when one is looked up.
-/

namespace Sieve

open Outcome

/-- The values that rows hold in a field of the type: decimals are numbers, and points in time have no
offset. Only types of single values are held. -/
inductive StorageType.Holds : StorageType → Value → Prop
  | integer (i : Int) : Holds .integer (.int i)
  | decimal {d : Decimal} (h : d.isNan = false) : Holds .decimal (.decimal d)
  | string (s : RawText) : Holds .string (.ofRaw s)
  | boolean (b : Bool) : Holds .boolean (.bool b)
  | date (d : Date) : Holds .date (.date d)
  | datetime {t : Timestamp} (h : t.offset = none) : Holds .datetime (.timestamp t)
  | uuid (u : Uuid) : Holds .uuid (.uuid u)

namespace Value

/-- A value without an order among those that are held: a point in time with an offset, or a decimal
that is no number. -/
inductive Unordered : Value → Prop
  | aware {t : Timestamp} {o : Offset} (h : t.offset = some o) : Unordered (.timestamp t)
  | nan {d : Decimal} (h : d.isNan = true) : Unordered (.decimal d)

/-- A value that refuses to be equal to a number or not: a signalling decimal. -/
inductive Signals : Value → Prop
  | decimal {d : Decimal} (h : d.isSignaling = true) : Signals (.decimal d)

end Value

theorem Decimal.isNan_of_isSignaling {d : Decimal} (h : d.isSignaling = true) : d.isNan = true := by
  cases d with
  | nan => rfl
  | finite | infinite => cases h

namespace Value

theorem unordered_decimal_iff {d : Decimal} : (decimal d).Unordered ↔ d.isNan = true :=
  ⟨fun | .nan h => h, .nan⟩

theorem unordered_timestamp_iff {t : Timestamp} : (timestamp t).Unordered ↔ t.offset ≠ none :=
  ⟨fun | .aware h => by simp [h], fun h => have ⟨_, ho⟩ := Option.ne_none_iff_exists'.1 h; .aware ho⟩

theorem signals_decimal_iff {d : Decimal} : (decimal d).Signals ↔ d.isSignaling = true :=
  ⟨fun | .decimal h => h, .decimal⟩

/-- Texts have an order and are equal or not. -/
theorem not_unordered_ofRaw (s : RawText) : ¬(ofRaw s).Unordered := by
  cases s <;> exact nofun

theorem not_signals_ofRaw (s : RawText) : ¬(ofRaw s).Signals := by
  cases s <;> exact nofun

/-- Texts contain texts or not, and nothing else. -/
theorem contains_ofRaw_iff {s : RawText} {v : Value} :
    (∃ answer, (ofRaw s).contains v = .ok answer) ↔ ∃ t : RawText, v = ofRaw t := by
  constructor
  · rintro ⟨answer, h⟩
    cases s <;> cases v <;> simp only [ofRaw, contains, reduceCtorEq] at h
    · exact ⟨.whole _, rfl⟩
    · exact ⟨.broken _, rfl⟩
    · exact ⟨.whole _, rfl⟩
    · exact ⟨.broken _, rfl⟩
  · rintro ⟨t, rfl⟩
    cases s <;> cases t <;> exact ⟨_, rfl⟩

/-- A number is equal or not to each decimal that does not signal. -/
theorem numbersEqual_ok_iff {a b : Decimal} (ha : a.isNan = false) :
    (∃ answer, numbersEqual a b = .ok answer) ↔ b.isSignaling ≠ true := by
  have hquiet : a.isSignaling ≠ true := fun h => by
    rw [Decimal.isNan_of_isSignaling h] at ha
    cases ha
  unfold numbersEqual
  by_cases hb : b.isSignaling = true
  · simp [Decimal.isNan_of_isSignaling hb, hb]
  · simp only [ha, Bool.false_or, hquiet, hb, if_false, Bool.false_eq_true, ne_eq, not_false_eq_true,
      iff_true]
    split <;> exact ⟨_, rfl⟩

/-- Two conditions on a value that may be null are the same beside the null value. -/
theorem NullOr.or_iff {S : Value → Prop} {v : Value} {P Q : Prop} (hv : v.NullOr S)
    (h : S v → (P ↔ Q)) : v = .null ∨ P ↔ v = .null ∨ Q := by
  rcases hv with rfl | hv
  · simp
  · exact or_congr_right (h hv)

end Value

namespace StorageType

variable {t : StorageType} {x v : Value}

/-! ### Order -/

theorem totallyOrdered_decimal : Value.TotallyOrdered decimal.Holds := by
  refine ⟨fun a b => Ord.compare (Kind.levelOf a) (Kind.levelOf b), transCmp_on _ _, ?_⟩
  intro a b ha hb
  cases ha with
  | @decimal d hd =>
  cases hb with
  | @decimal e he =>
  have hld : Value.HasLevel (.decimal d) d.level := ⟨d, rfl, hd, rfl⟩
  have hle : Value.HasLevel (.decimal e) e.level := ⟨e, rfl, he, rfl⟩
  have has := hld.comparesAs hle
  exact ⟨has.equal, has.precedes⟩

/-- **The values that a field holds are totally ordered.** -/
theorem totallyOrdered : ∀ t : StorageType, Value.TotallyOrdered t.Holds
  | integer => Kind.totallyOrdered_integer.mono fun | _, .integer i => .integer i
  | decimal => totallyOrdered_decimal
  | string => Value.totallyOrdered_ofRaw.mono fun | _, .string s => ⟨s, rfl⟩
  | boolean => Kind.totallyOrdered_boolean.mono fun | _, .boolean b => .boolean b
  | date => Kind.totallyOrdered_date.mono fun | _, .date d => .date d
  | datetime => Kind.totallyOrdered_naive.mono fun | _, .datetime h => .naive h
  | uuid => Kind.totallyOrdered_uuid.mono fun | _, .uuid u => .uuid u
  | any | float | enum | array | map => Kind.totallyOrdered_integer.mono nofun

/-! ### Comparing -/

/-- What is stored where values are held is held as well, if it has an order. -/
theorem Stores.holds (hv : t.Stores v) (hx : t.Holds x) (h : ¬v.Unordered) : t.Holds v := by
  cases hx with
  | integer => cases hv with | integer i => exact .integer i
  | decimal =>
    cases hv with
    | decimal d => exact .decimal (by simpa [Value.unordered_decimal_iff] using h)
  | string => cases hv with | string s => exact .string s
  | boolean => cases hv with | boolean b => exact .boolean b
  | date => cases hv with | date d => exact .date d
  | datetime =>
    cases hv with
    | datetime u => exact .datetime (by simpa [Value.unordered_timestamp_iff] using h)
  | uuid => cases hv with | uuid u => exact .uuid u

theorem Holds.precedes_ok (hx : t.Holds x) (hv : t.Holds v) (orEqual : Bool) :
    ∃ answer, x.precedes orEqual v = .ok answer :=
  have ⟨_, _, hcmp⟩ := totallyOrdered t
  ⟨_, (hcmp x v hx hv).precedes orEqual⟩

/-- Neither of two values stands in front of the other if one is held and the other has no order. -/
theorem Holds.not_precedes (hx : t.Holds x) (hv : t.Stores v) (h : v.Unordered) (orEqual answer : Bool) :
    x.precedes orEqual v ≠ .ok answer ∧ v.precedes orEqual x ≠ .ok answer := by
  cases hx with
  | datetime ht =>
    cases hv with
    | datetime u =>
      obtain ⟨o, hu⟩ := Option.ne_none_iff_exists'.1 (Value.unordered_timestamp_iff.1 h)
      constructor <;> simp [Value.precedes, Timestamp.compare?, ht, hu, Value.orMismatch]
  | decimal hd =>
    cases hv with
    | decimal e =>
      have he := Value.unordered_decimal_iff.1 h
      rw [Value.precedes_of_number rfl rfl, Value.precedes_of_number rfl rfl]
      constructor <;> simp [Value.numbersOrdered, Value.isDecimal, he]
  | string s =>
    cases hv with
    | string t => exact absurd h (Value.not_unordered_ofRaw t)
  | integer | boolean | date | uuid =>
    cases hv
    cases h

/-- **A value that is held stands in front of another one of its type, or not, unless that has no
order.** -/
theorem Holds.precedes_iff (hx : t.Holds x) (hv : t.Stores v) (orEqual : Bool) :
    (∃ answer, x.precedes orEqual v = .ok answer) ↔ ¬v.Unordered :=
  ⟨fun ⟨_, h⟩ hno => (hx.not_precedes hv hno _ _).1 h, fun h => hx.precedes_ok (hv.holds hx h) _⟩

/-- The same with the two values in the other order. -/
theorem Holds.preceded_iff (hx : t.Holds x) (hv : t.Stores v) (orEqual : Bool) :
    (∃ answer, v.precedes orEqual x = .ok answer) ↔ ¬v.Unordered :=
  ⟨fun ⟨_, h⟩ hno => (hx.not_precedes hv hno _ _).2 h, fun h => (hv.holds hx h).precedes_ok hx _⟩

/-- **A value that is held equals another one of its type, or not, unless that signals.** -/
theorem Holds.equal_iff (hx : t.Holds x) (hv : t.Stores v) :
    (∃ answer, x.equal v = .ok answer) ↔ ¬v.Signals := by
  cases hx with
  | decimal hd =>
    cases hv with
    | decimal e =>
      rw [Value.equal_of_number rfl rfl, Value.signals_decimal_iff]
      exact Value.numbersEqual_ok_iff hd
  | string s =>
    cases hv with
    | string t => exact ⟨fun _ => Value.not_signals_ofRaw t, fun _ => ⟨_, Value.equal_ofRaw s t⟩⟩
  | integer | boolean | date | datetime | uuid =>
    cases hv
    refine ⟨fun _ hsignals => ?_, fun _ => ⟨_, by rw [Value.equal]⟩⟩
    cases hsignals

theorem Holds.equal_null (hx : t.Holds x) : x.equal .null = .ok false := by
  cases hx with
  | string s => cases s <;> simp [Value.ofRaw, Value.equal, Value.number?]
  | _ => simp [Value.equal, Value.number?]

end StorageType

/-! ### Looking up -/

/-- Looking for a value along a list meets a value that signals, and no equal one before it. -/
inductive Value.MeetsSignal (x : Value) : List Value → Prop
  | here {v : Value} {vs : List Value} (h : v.Signals) : MeetsSignal x (v :: vs)
  | later {v : Value} {vs : List Value} (h : x.equal v = .ok false) (hrest : MeetsSignal x vs) :
    MeetsSignal x (v :: vs)

namespace StorageType

variable {t : StorageType} {x v : Value} {vs : List Value}

/-- Nulls neither signal nor equal a value that is held. -/
theorem Holds.meetsSignal_filter_iff (hx : t.Holds x) :
    x.MeetsSignal (vs.filter (!·.isNull)) ↔ x.MeetsSignal vs := by
  induction vs with
  | nil => exact Iff.rfl
  | cons v vs ih =>
    by_cases hv : v = .null
    · rw [List.filter_cons_of_neg (by simp [hv]), ih, hv]
      refine ⟨.later hx.equal_null, fun h => ?_⟩
      cases h with
      | here h => cases h
      | later _ h => exact h
    · rw [List.filter_cons_of_pos (by simp [Value.isNull_eq_false hv])]
      constructor
      · rintro (h | ⟨h, hrest⟩)
        · exact .here h
        · exact .later h (ih.1 hrest)
      · rintro (h | ⟨h, hrest⟩)
        · exact .here h
        · exact .later h (ih.2 hrest)

/-- **A value that is held is looked up among values of its type and nulls**, unless one signals before an
equal one is found. -/
theorem Holds.member?_iff (hx : t.Holds x) (hvs : ∀ v ∈ vs, v = .null ∨ t.Stores v) :
    (∃ answer, x.member? vs = .ok answer) ↔ ¬x.MeetsSignal vs := by
  induction vs with
  | nil => exact ⟨fun _ => nofun, fun _ => ⟨_, rfl⟩⟩
  | cons v vs ih =>
    have hv : (∃ answer, x.equal v = .ok answer) ↔ ¬v.Signals := by
      rcases hvs v (by simp) with rfl | hv
      · exact ⟨fun _ => nofun, fun _ => ⟨_, hx.equal_null⟩⟩
      · exact hx.equal_iff hv
    rw [Value.member?]
    cases hequal : x.equal v with
    | error e =>
      have hsignals : v.Signals := by
        by_contra hno
        obtain ⟨answer, h⟩ := hv.2 hno
        cases hequal.symm.trans h
      simp [Value.MeetsSignal.here hsignals]
    | ok answer =>
      have hno := hv.1 ⟨answer, hequal⟩
      cases answer with
      | true =>
        refine ⟨fun _ h => ?_, fun _ => ⟨true, rfl⟩⟩
        cases h with
        | here h => exact hno h
        | later h => cases hequal.symm.trans h
      | false =>
        refine (ih fun w hw => hvs w (List.mem_cons_of_mem _ hw)).trans (not_congr ⟨.later hequal, ?_⟩)
        intro h
        cases h with
        | here h => exact absurd h hno
        | later _ h => exact h

/-- **Of the values that are held, only texts contain anything**, and only texts. -/
theorem Holds.contains_iff (hx : t.Holds x) :
    (∃ answer, x.contains v = .ok answer) ↔ ∃ s n : RawText, x = .ofRaw s ∧ v = .ofRaw n := by
  have hno {y : Value} (hy : ∀ s : RawText, y ≠ .ofRaw s) (hanswer : ∀ b, y.contains v ≠ .ok b) :
      (∃ answer, y.contains v = .ok answer) ↔ ∃ s n : RawText, y = .ofRaw s ∧ v = .ofRaw n :=
    ⟨fun ⟨b, h⟩ => absurd h (hanswer b), fun ⟨s, _, h, _⟩ => absurd h (hy s)⟩
  cases hx with
  | string s =>
    rw [Value.contains_ofRaw_iff]
    exact ⟨fun ⟨t, h⟩ => ⟨s, t, rfl, h⟩, fun ⟨_, t, _, h⟩ => ⟨t, h⟩⟩
  | _ => exact hno (by rintro (s | t) <;> exact nofun) (by simp [Value.contains])

end StorageType

end Sieve
