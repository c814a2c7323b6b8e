import Sieve.Coercion
import Sieve.Proofs.Cursor.RoundTrip
import Sieve.Proofs.Ordinal
import Sieve.Proofs.Value.Numbers

/-!
# Kinds of values that fields are sorted by

Storage types whose values are totally ordered. Points in time fall into two kinds, since those with
an offset do not compare with those without one. Values of a kind are their own conversions to its
storage type, and come back from tokens unchanged. Only texts with surrogates have no token.

* `Kind`, `Kind.storage`, `Kind.Has`: the kinds, their storage types and their values;
* `Kind.totallyOrdered`: the values of a kind are totally ordered;
* `Kind.Has.coerce`, `Kind.Has.settled`, `Kind.Has.portable`: converting and carrying them.
-/

namespace Sieve

open Std (TransCmp LawfulEqCmp)

/-! ### Texts -/

namespace CodePoint

/-- Code points compare by their numbers. -/
def compare (a b : CodePoint) : Ordering := Ord.compare a.code b.code

instance : TransCmp compare := transCmp_on code Ord.compare

/-- No character has the number of a surrogate. -/
theorem code_injective : Function.Injective code := by
  rintro (c | s) (d | t) h
  · exact congrArg _ (Char.toNat_inj.1 h)
  · have hvalid : c.toNat.isValidChar := c.valid
    have hrange := t.inRange
    have hcode : c.toNat = t.code := h
    rcases hvalid with hvalid | ⟨hvalid, _⟩ <;> omega
  · have hvalid : d.toNat.isValidChar := d.valid
    have hrange := s.inRange
    have hcode : s.code = d.toNat := h
    rcases hvalid with hvalid | ⟨hvalid, _⟩ <;> omega
  · obtain ⟨code, _⟩ := s
    obtain ⟨code', _⟩ := t
    obtain rfl : code = code' := h
    rfl

instance : LawfulEqCmp compare where
  eq_of_compare h := code_injective (compare_eq_iff_eq.1 h)

end CodePoint

theorem RawText.points_injective : Function.Injective points := by
  rintro (s | ⟨ps, hs⟩) (t | ⟨qs, ht⟩) h
  · have hst : s.toList = t.toList :=
      List.map_injective_iff.2 (fun _ _ => CodePoint.char.inj) h
    rw [String.toList_inj.1 hst]
  · obtain rfl : s.toList.map .char = qs := h
    simp [CodePoint.isSurrogate] at ht
  · obtain rfl : ps = t.toList.map .char := h
    simp [CodePoint.isSurrogate] at hs
  · obtain rfl : ps = qs := h
    rfl

namespace Value

theorem comparePoints_eq (ps qs : List CodePoint) :
    comparePoints ps qs = List.compareLex CodePoint.compare ps qs := by
  induction ps generalizing qs with
  | nil => cases qs <;> rfl
  | cons p ps ih =>
    cases qs with
    | nil => rfl
    | cons q qs =>
      rw [comparePoints, List.compareLex_cons_cons, ih]
      rfl

theorem compareTexts_eq (s t : List Char) :
    compareTexts s t = comparePoints (s.map .char) (t.map .char) := by
  induction s generalizing t with
  | nil => cases t <;> rfl
  | cons a s ih =>
    cases t with
    | nil => rfl
    | cons b t =>
      rw [compareTexts, ih]
      rfl

/-- Texts compare by their code points, whether they hold surrogates or not. -/
theorem precedes_ofRaw (orEqual : Bool) (s t : RawText) :
    (ofRaw s).precedes orEqual (ofRaw t) =
      .ok (ordered orEqual (comparePoints s.points t.points)) := by
  cases s <;> cases t <;> simp [ofRaw, precedes, RawText.points, compareTexts_eq]

theorem equal_ofRaw (s t : RawText) : (ofRaw s).equal (ofRaw t) = .ok (s == t) := by
  cases s <;> cases t <;> simp [ofRaw, equal, number?, beq_eq_decide]

/-- The code points of a text. -/
def pointsOf : Value → List CodePoint
  | text s => s.toList.map .char
  | broken t => t.points
  | _ => []

theorem pointsOf_ofRaw (s : RawText) : (ofRaw s).pointsOf = s.points := by
  cases s <;> rfl

/-- Texts are totally ordered. -/
theorem totallyOrdered_ofRaw : TotallyOrdered fun v => ∃ s : RawText, v = ofRaw s := by
  refine ⟨fun a b => List.compareLex CodePoint.compare a.pointsOf b.pointsOf, transCmp_on _ _, ?_⟩
  rintro _ _ ⟨s, rfl⟩ ⟨t, rfl⟩
  refine ⟨?_, fun orEqual => ?_⟩
  · rw [equal_ofRaw, pointsOf_ofRaw, pointsOf_ofRaw]
    refine congrArg Except.ok (Bool.eq_iff_iff.2 ?_)
    simp [RawText.points_injective.eq_iff]
  · rw [precedes_ofRaw, comparePoints_eq, pointsOf_ofRaw, pointsOf_ofRaw]

end Value

/-! ### Kinds -/

/-- Kinds of values that compare with each other. -/
inductive Kind
  | integer
  | decimal
  | text
  | boolean
  | date
  /-- Points in time without an offset. -/
  | naive
  /-- Points in time with an offset. -/
  | aware
  | uuid
  deriving DecidableEq

namespace Kind

/-- The storage type of a kind. -/
def storage : Kind → StorageType
  | integer => .integer
  | decimal => .decimal
  | text => .string
  | boolean => .boolean
  | date => .date
  | naive | aware => .datetime
  | uuid => .uuid

/-- The values of a kind. Decimals are numbers, and offsets are zero or at least a second. -/
inductive Has : Kind → Value → Prop
  | integer (i : Int) : Has .integer (.int i)
  | decimal {d : Decimal} (h : d.isNan = false) (hb : d.IsBounded) : Has .decimal (.decimal d)
  | text (s : RawText) : Has .text (.ofRaw s)
  | boolean (b : Bool) : Has .boolean (.bool b)
  | date (d : Date) : Has .date (.date d)
  | naive {t : Timestamp} (h : t.offset = none) : Has .naive (.timestamp t)
  | aware {t : Timestamp} {o : Offset} (h : t.offset = some o) (hs : o.settled = o) :
    Has .aware (.timestamp t)
  | uuid (u : Uuid) : Has .uuid (.uuid u)

/-! ### Carrying values -/

variable {k : Kind} {v : Value}

theorem Has.ne_null (h : k.Has v) : v ≠ .null := by
  cases h with
  | text s => cases s <;> simp [Value.ofRaw]
  | _ => simp

/-- Values of a kind are converted to themselves. -/
theorem Has.coerce (h : k.Has v) : k.storage.coerce v = .ok v := by
  cases h with
  | text s => cases s <;> exact Value.asText_ofRaw _
  | _ => rfl

theorem Has.settled (h : k.Has v) : v.settled = v := by
  rw [Value.settled_eq_self_iff]
  cases h with
  | naive h => simp [Value.offsets, h]
  | aware h hs => simpa [Value.offsets, h] using hs
  | text s => cases s <;> simp [Value.ofRaw, Value.offsets]
  | _ => simp [Value.offsets]

theorem Has.portable (h : k.Has v) (hwhole : v.isBroken = false) : v.Portable := by
  cases h with
  | integer i => exact .int i
  | decimal _ hb => exact .decimal hb
  | text s =>
    cases s with
    | whole s => exact .text s
    | broken t => cases hwhole
  | boolean b => exact .bool b
  | date d => exact .date d
  | naive | aware => exact .timestamp _
  | uuid u => exact .uuid u

theorem Has.levels_le (h : k.Has v) : v.levels ≤ 2 := by
  cases h with
  | text s => cases s <;> simp [Value.ofRaw, Value.levels]
  | _ => simp [Value.levels]

/-! ### Measures -/

/-- The integer of a value. -/
@[simp]
def integerOf : Value → Int
  | .int i => i
  | _ => 0

/-- The level of the decimal of a value. -/
@[simp]
def levelOf : Value → ℤ ×ₗ ℚ
  | .decimal d => d.level
  | _ => toLex (0, 0)

/-- The truth of a value as zero or one. -/
@[simp]
def truthOf : Value → ℕ
  | .bool b => b.toNat
  | _ => 0

/-- The day of the date of a value. -/
@[simp]
def dayOf : Value → ℕ
  | .date d => d.ordinal
  | _ => 0

/-- The point in time of a value by its own clock. -/
@[simp]
def clockOf : Value → ℕ
  | .timestamp t => t.local
  | _ => 0

/-- The point in time of a value by the clock without an offset. -/
@[simp]
def instantOf : Value → ℤ
  | .timestamp t => t.instant (t.offset.getD .utc)
  | _ => 0

/-- The number of the identifier of a value. -/
@[simp]
def numberOf : Value → ℕ
  | .uuid u => u.value
  | _ => 0

/-! ### Order -/

/-- Values that compare as what they are measured by. -/
theorem totallyOrdered_of_measure {β : Type} (f : Value → β) (cmp : β → β → Ordering)
    [TransCmp cmp]
    (h : ∀ a b, k.Has a → k.Has b → Value.ComparesBy (fun a b => cmp (f a) (f b)) a b) :
    Value.TotallyOrdered k.Has :=
  ⟨fun a b => cmp (f a) (f b), transCmp_on f cmp, h⟩

theorem totallyOrdered_integer : Value.TotallyOrdered integer.Has := by
  refine totallyOrdered_of_measure integerOf Ord.compare ?_
  intro a b ha hb
  cases ha with
  | integer i =>
  cases hb with
  | integer j =>
  have has := Value.comparesAs_int i j
  exact ⟨has.equal, has.precedes⟩

theorem totallyOrdered_text : Value.TotallyOrdered text.Has :=
  Value.totallyOrdered_ofRaw.mono fun | _, .text s => ⟨s, rfl⟩

theorem totallyOrdered_boolean : Value.TotallyOrdered boolean.Has := by
  refine totallyOrdered_of_measure truthOf Ord.compare ?_
  intro a b ha hb
  cases ha with
  | boolean x =>
  cases hb with
  | boolean y =>
  refine ⟨?_, fun orEqual => ?_⟩
  · cases x <;> cases y <;> simp [Value.equal]
  · cases x <;> cases y <;> simp [Value.precedes, Value.number?, Value.numbersOrdered,
      Decimal.ofInt, Decimal.isNan, Decimal.compare] <;> rfl

theorem totallyOrdered_decimal : Value.TotallyOrdered decimal.Has := by
  refine totallyOrdered_of_measure levelOf Ord.compare ?_
  intro a b ha hb
  cases ha with
  | @decimal x hx _ =>
  cases hb with
  | @decimal y hy _ =>
  have hlx : Value.HasLevel (.decimal x) x.level := ⟨x, rfl, hx, rfl⟩
  have hly : Value.HasLevel (.decimal y) y.level := ⟨y, rfl, hy, rfl⟩
  have has := hlx.comparesAs hly
  exact ⟨has.equal, has.precedes⟩

theorem totallyOrdered_date : Value.TotallyOrdered date.Has := by
  refine totallyOrdered_of_measure dayOf Ord.compare ?_
  intro a b ha hb
  cases ha with
  | date d =>
  cases hb with
  | date e =>
  have hiff : d = e ↔ d.ordinal = e.ordinal := ⟨congrArg _, Date.ordinal_injective⟩
  refine ⟨?_, fun orEqual => by simp [Value.precedes, Date.compare]⟩
  rw [Value.equal]
  exact congrArg Except.ok (Bool.eq_iff_iff.2 (by simp [hiff]))

theorem totallyOrdered_naive : Value.TotallyOrdered naive.Has := by
  refine totallyOrdered_of_measure clockOf Ord.compare ?_
  intro a b ha hb
  cases ha with
  | @naive t hx =>
  cases hb with
  | @naive u hy =>
  have hcompare : t.compare? u = some (Ord.compare t.local u.local) := by
    simp only [Timestamp.compare?, hx, hy]
  refine ⟨?_, fun orEqual => ?_⟩
  · rw [Value.equal, hcompare, Option.some_beq_some, clockOf, clockOf]
  · rw [Value.precedes, hcompare, Value.orMismatch, clockOf, clockOf]

theorem totallyOrdered_aware : Value.TotallyOrdered aware.Has := by
  refine totallyOrdered_of_measure instantOf Ord.compare ?_
  intro a b ha hb
  cases ha with
  | @aware t o hx _ =>
  cases hb with
  | @aware u p hy _ =>
  have hcompare : t.compare? u = some (Ord.compare (t.instant o) (u.instant p)) := by
    simp only [Timestamp.compare?, hx, hy]
  refine ⟨?_, fun orEqual => ?_⟩
  · simp only [Value.equal, hcompare, instantOf, hx, hy, Option.getD_some, Option.some_beq_some]
  · simp only [Value.precedes, hcompare, instantOf, hx, hy, Option.getD_some, Value.orMismatch]

theorem totallyOrdered_uuid : Value.TotallyOrdered uuid.Has := by
  refine totallyOrdered_of_measure numberOf Ord.compare ?_
  intro a b ha hb
  cases ha with
  | uuid u =>
  cases hb with
  | uuid w =>
  have hiff : u = w ↔ u.value = w.value := by
    cases u
    cases w
    simp
  refine ⟨?_, fun orEqual => by simp [Value.precedes]⟩
  rw [Value.equal]
  exact congrArg Except.ok (Bool.eq_iff_iff.2 (by simp [hiff]))

/-- **The values of a kind are totally ordered.** -/
theorem totallyOrdered : ∀ k : Kind, Value.TotallyOrdered k.Has
  | integer => totallyOrdered_integer
  | decimal => totallyOrdered_decimal
  | text => totallyOrdered_text
  | boolean => totallyOrdered_boolean
  | date => totallyOrdered_date
  | naive => totallyOrdered_naive
  | aware => totallyOrdered_aware
  | uuid => totallyOrdered_uuid

end Kind

end Sieve
