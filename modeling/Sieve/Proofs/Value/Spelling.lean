import Sieve.Proofs.Calendar
import Sieve.Proofs.Uuid
import Sieve.Coercion
import Sieve.Proofs.Outcome

/-!
# Values that are typed in

Parameters arrive as texts. The text of a value is converted to the very value, with blanks around it or
without: the sign, the digits and the exponent of a decimal, the offset of a point in time, and the absence
of one, are kept. Points in time may be written with a blank or with a `T` between day and time, and where a
day is asked for they are read as their day.

* `Numeral.integer?_integerText`: integers are read back from their texts;
* `StorageType.Spelled`: the values that are read back;
* `coerceTimestamp_between`: what the text of any point in time is converted to;
* `StorageType.coerce_spelled`: the text of a value is converted to the value.
-/

namespace Sieve

open Text (isBlank IsTrimmed)

/-! ### Integers -/

namespace Numeral

theorem isBare_of_mem_integerText {i : ℤ} {c : Char} (h : c ∈ integerText i) : IsBare c := by
  have hdigits : ∀ c ∈ digitsOf i.natAbs, IsBare c := fun c hc =>
    isBare_of_isDigit (isDigit_of_mem_digitsOf hc)
  unfold integerText at h
  split at h
  · rcases List.mem_cons.1 h with rfl | h
    · decide
    · exact hdigits c h
  · exact hdigits c h

theorem ungroup?_eq_self {s : List Char} (h : ∀ c ∈ s, IsBare c) (afterDigit : Bool) :
    ungroup? afterDigit s = some s := by
  induction s generalizing afterDigit with
  | nil => rfl
  | cons c s ih =>
    rw [ungroup?, if_neg (h c List.mem_cons_self).2.2, ih fun d hd => h d (List.mem_cons_of_mem c hd)]
    rfl

theorem sign_integerText (i : ℤ) : sign (integerText i) = (decide (i < 0), digitsOf i.natAbs) := by
  unfold integerText
  split
  · next h =>
    rw [decide_eq_true h]
    rfl
  · next h =>
    obtain ⟨c, ds, hds⟩ := List.exists_cons_of_ne_nil (digitsOf_ne_nil i.natAbs)
    have hc : isDigit c = true := isDigit_of_mem_digitsOf (hds ▸ List.mem_cons_self)
    rw [decide_eq_false h, hds]
    refine @Decimal.sign_signText false c ds ?_ ?_
    · rintro rfl
      simp [isDigit] at hc
    · rintro rfl
      simp [isDigit] at hc

/-- **An integer is read back from its text**, unless it has more digits than are read. -/
theorem integer?_integerText {i : ℤ} (h : (digitsOf i.natAbs).length ≤ maxDigits) :
    integer? (String.ofList (integerText i)) = some i := by
  have hbare : ∀ c ∈ integerText i, IsBare c := fun c => isBare_of_mem_integerText
  have hspacing : ∀ c ∈ integerText i, Text.isSpacing c = false := fun c hc => by
    have hblank := (hbare c hc).2.1
    rw [isBlank, Bool.or_eq_false_iff] at hblank
    exact hblank.1
  rw [integer?, String.toList_ofList, Text.trim_eq_self hspacing, plain_eq_self hbare,
    ungroup?_eq_self hbare]
  simp [sign_integerText, natural?_digitsOf, h, signed_natAbs]

end Numeral

/-! ### Conversions of texts -/

section Texts

variable (s : String)

theorem coerceInteger_text : coerceInteger (.text s) =
    readNumber (.text s) fun s => (Numeral.integer? s).map .int := rfl

theorem coerceDecimal_text : coerceDecimal (.text s) =
    readNumber (.text s) fun s => (Decimal.read? s).map .decimal := rfl

theorem coerceBoolean_text : coerceBoolean (.text s) =
    if trueWords.contains (String.ofList ((Text.strip s).toList.map Char.toLower)) then
      .ok (.bool true)
    else if falseWords.contains (String.ofList ((Text.strip s).toList.map Char.toLower)) then
      .ok (.bool false)
    else .error (.notABoolean (.text s)) := by
  simp only [coerceBoolean, Value.typed_text, Outcome.ok_bind]

theorem coerceDate_text : coerceDate (.text s) =
    if (Text.strip s).toList.any fun c => c == 'T' || c == ' ' then
      orMalformed ((Iso.readTimestamp? (spellUtc (Text.strip s))).map fun t => .date t.date)
    else orMalformed ((Iso.readDate? (Text.strip s)).map .date) := by
  simp only [coerceDate, Value.typed_text, Outcome.ok_bind]

theorem coerceTimestamp_text : coerceTimestamp (.text s) =
    orMalformed ((Iso.readTimestamp? (spellUtc (Text.strip s))).map .timestamp) := by
  simp only [coerceTimestamp, Value.typed_text, Outcome.ok_bind]

theorem coerceUuid_text : coerceUuid (.text s) =
    orMalformed ((Uuid.read? (Text.strip s)).map .uuid) := by
  simp only [coerceUuid, Value.typed_text, Outcome.ok_bind]

end Texts

/-! ### Points in time as texts -/

/-- A point in time whose offset has whole seconds is settled. -/
theorem Timestamp.settled_of_dvd {p : Timestamp} (h : ∀ o ∈ p.offset, 1000000 ∣ o.microseconds) :
    p.settled = p := by
  obtain ⟨d, c, offset⟩ := p
  refine congrArg (Timestamp.mk d c) ?_
  cases offset with
  | none => rfl
  | some o =>
    have hwhole : o.microseconds = 0 ∨ 1000000 ≤ o.microseconds.natAbs := by
      have := h o rfl
      omega
    exact congrArg some ((Offset.settled_eq_self_iff o).2 hwhole)

/-- Without the mark of universal time nothing is rewritten. -/
theorem spellUtc_eq_self {s : List Char} (h : ∀ c ∈ s, c ≠ 'Z') :
    spellUtc (String.ofList s) = String.ofList s := by
  have hself : (s.flatMap fun c => if c = 'Z' then "+00:00".toList else [c]) = s := by
    rw [List.flatMap_congr fun c hc => if_neg (h c hc)]
    exact List.flatMap_singleton' s
  exact congrArg String.ofList ((congrArg (List.flatMap _) String.toList_ofList).trans hself)

/-- A point in time starts with a day and ends with a time of day. -/
theorem Iso.isTrimmed_timestampText (separator : Char) (p : Timestamp) :
    IsTrimmed isBlank (timestampText separator p) := by
  have hdate : dateText p.date ≠ [] := fun h => by
    have := length_dateText p.date
    rw [h] at this
    cases this
  have htime : timeText ⟨p.clock, p.offset⟩ ≠ [] := by
    simp [timeText, clockText]
  rw [timestampText_eq, ← List.singleton_append]
  exact Text.isTrimmed_between hdate htime (fun c hc => (isMark_of_mem_dateText hc).plain.2.1)
    (fun c hc => (isMark_of_mem_timeText hc).plain.2.1) [separator]

/-! ### Texts between blanks -/

section Between

variable {before s after : List Char} (hbefore : ∀ c ∈ before, isBlank c = true)
  (hafter : ∀ c ∈ after, isBlank c = true)
include hbefore hafter

theorem strip_between (hs : IsTrimmed isBlank s) :
    Text.strip (String.ofList (before ++ s ++ after)) = String.ofList s := by
  rw [Text.strip, String.toList_ofList, hs.trim_between hbefore hafter]

theorem readNumber_between {read : String → Option Value} {n : Value} (hs : IsTrimmed isBlank s)
    (hempty : read "" = none) (hread : read (String.ofList s) = some n) :
    readNumber (.text (String.ofList (before ++ s ++ after))) read = .ok n := by
  have hne : (String.ofList s).isEmpty = false := by
    rw [Bool.eq_false_iff, ne_eq, String.isEmpty_iff]
    intro h
    rw [h, hempty] at hread
    cases hread
  rw [readNumber, Value.typed_text, Outcome.ok_bind, strip_between hbefore hafter hs]
  simp [hne, hread]

theorem orMalformed_between {α : Type} {read : String → Option α} {f : α → Value} {a : α}
    (hs : IsTrimmed isBlank s) (hread : read (String.ofList s) = some a) :
    orMalformed ((read (Text.strip (String.ofList (before ++ s ++ after)))).map f) =
      .ok (f a) := by
  rw [strip_between hbefore hafter hs, hread]
  rfl

/-! ### Days and points in time -/

theorem coerceDate_between (d : Date) :
    coerceDate (.text (String.ofList (before ++ Iso.dateText d ++ after))) = .ok (.date d) := by
  have hmark : ∀ c ∈ Iso.dateText d, Iso.IsMark c := fun c => Iso.isMark_of_mem_dateText
  have hstrip := strip_between hbefore hafter
    (Text.isTrimmed_of_forall fun c hc => (hmark c hc).plain.2.1)
  have hplain : ((Iso.dateText d).any fun c => c == 'T' || c == ' ') = false := by
    rw [List.any_eq_false]
    intro c hc
    obtain ⟨_, hblank, hT, _⟩ := (hmark c hc).plain
    have hspace : c ≠ ' ' := by
      rintro rfl
      exact absurd hblank (by decide)
    simp [hT, hspace]
  rw [coerceDate_text, hstrip, String.toList_ofList, hplain, if_neg Bool.false_ne_true,
    Iso.readDate?_dateText]
  rfl

/-- **The text of a point in time is converted to what it settles to, and to its day**, with a blank or
with a `T` between day and time. -/
theorem coerceTimestamp_between (p : Timestamp) {separator : Char}
    (hseparator : separator = ' ' ∨ separator = 'T') :
    coerceTimestamp (.text (String.ofList (before ++ Iso.timestampText separator p ++ after))) =
        .ok (.timestamp p.settled) ∧
      coerceDate (.text (String.ofList (before ++ Iso.timestampText separator p ++ after))) =
        .ok (.date p.date) := by
  have hstrip := strip_between hbefore hafter (Iso.isTrimmed_timestampText separator p)
  have hascii : separator.toNat < 128 := by
    rcases hseparator with rfl | rfl <;> decide
  have hutc : spellUtc (String.ofList (Iso.timestampText separator p)) =
      String.ofList (Iso.timestampText separator p) := by
    refine spellUtc_eq_self fun c hc => ?_
    rcases Iso.isMark_of_mem_timestampText hc with hc | rfl
    · exact hc.plain.2.2.2
    · rcases hseparator with rfl | rfl <;> decide
  have hmarked : ((Iso.timestampText separator p).any fun c => c == 'T' || c == ' ') = true := by
    refine List.any_eq_true.2 ⟨separator, ?_, by rcases hseparator with rfl | rfl <;> rfl⟩
    rw [Iso.timestampText_eq]
    exact List.mem_append_right _ List.mem_cons_self
  constructor
  · rw [coerceTimestamp_text, hstrip, hutc, Iso.readTimestamp?_timestampText hascii]
    rfl
  · rw [coerceDate_text, hstrip, String.toList_ofList, if_pos hmarked, hutc,
      Iso.readTimestamp?_timestampText hascii]
    rfl

/-! ### Numbers, truth values and identifiers -/

theorem coerceInteger_between {i : ℤ} (h : (Numeral.digitsOf i.natAbs).length ≤ Numeral.maxDigits) :
    coerceInteger (.text (String.ofList (before ++ Numeral.integerText i ++ after))) =
      .ok (.int i) := by
  have hs : IsTrimmed isBlank (Numeral.integerText i) :=
    Text.isTrimmed_of_forall fun c hc => (Numeral.isBare_of_mem_integerText hc).2.1
  rw [coerceInteger_text]
  refine readNumber_between hbefore hafter hs rfl ?_
  rw [Numeral.integer?_integerText h, Option.map_some]

theorem coerceDecimal_between {d : Decimal} (h : d.IsBounded) :
    coerceDecimal (.text (String.ofList (before ++ d.text ++ after))) = .ok (.decimal d) := by
  have hs : IsTrimmed isBlank d.text :=
    Text.isTrimmed_of_forall fun c hc => (Decimal.isBare_of_mem_text c hc).2.1
  rw [coerceDecimal_text]
  refine readNumber_between hbefore hafter hs rfl ?_
  rw [Decimal.read?_text h, Option.map_some]

theorem coerceUuid_between (u : Uuid) :
    coerceUuid (.text (String.ofList (before ++ u.text ++ after))) = .ok (.uuid u) := by
  have hs : IsTrimmed isBlank u.text := Text.isTrimmed_of_forall fun c hc => by
    rcases Uuid.mem_text hc with hc | rfl
    · exact hc.plain.1.2.1
    · decide
  rw [coerceUuid_text]
  exact orMalformed_between hbefore hafter hs (Uuid.read?_text u)

theorem coerceBoolean_between (b : Bool) :
    coerceBoolean (.text (String.ofList
      (before ++ (if b then "True" else "False").toList ++ after))) = .ok (.bool b) := by
  have hplain : ((if b then "True" else "False").toList.all (!isBlank ·)) = true := by
    cases b <;> rfl
  have hs : IsTrimmed isBlank (if b then "True" else "False").toList :=
    Text.isTrimmed_of_forall fun c hc => by simpa using List.all_eq_true.1 hplain c hc
  rw [coerceBoolean_text, strip_between hbefore hafter hs, String.toList_ofList]
  cases b <;> rfl

end Between

namespace StorageType

/-- The value is one of the storage type whose text is read back: an integer of no more digits than are
read, a decimal within its bounds, or a point in time with whole seconds in its offset. -/
inductive Spelled : StorageType → Value → Prop
  | integer {i : Int} (h : (Numeral.digitsOf i.natAbs).length ≤ Numeral.maxDigits) :
      Spelled .integer (.int i)
  | decimal {d : Decimal} (h : d.IsBounded) : Spelled .decimal (.decimal d)
  | boolean (b : Bool) : Spelled .boolean (.bool b)
  | date (d : Date) : Spelled .date (.date d)
  | datetime {p : Timestamp} (h : ∀ o ∈ p.offset, 1000000 ∣ o.microseconds) :
      Spelled .datetime (.timestamp p)
  | uuid (u : Uuid) : Spelled .uuid (.uuid u)

variable {before after : List Char} {t : StorageType} {v : Value}

/-- **The text of a value is converted to the value**, whatever blanks are around it. -/
theorem coerce_spelled (h : t.Spelled v) (hbefore : ∀ c ∈ before, isBlank c = true)
    (hafter : ∀ c ∈ after, isBlank c = true) :
    t.coerce (.text (String.ofList (before ++ v.toText ++ after))) = .ok v ∧
      ∀ p, v = .timestamp p → ∀ separator, separator = ' ' ∨ separator = 'T' →
        datetime.coerce (.text (String.ofList
          (before ++ Iso.timestampText separator p ++ after))) = .ok v ∧
        date.coerce (.text (String.ofList
          (before ++ Iso.timestampText separator p ++ after))) = .ok (.date p.date) := by
  have hgiven (s : String) : (Value.text s).isNull = false := rfl
  simp only [coerce, hgiven, Bool.false_eq_true, if_false]
  cases h with
  | integer h =>
    refine ⟨?_, nofun⟩
    rw [Value.toText_int]
    exact coerceInteger_between hbefore hafter h
  | decimal h => exact ⟨coerceDecimal_between hbefore hafter h, nofun⟩
  | boolean b =>
    refine ⟨?_, nofun⟩
    rw [Value.toText_bool]
    exact coerceBoolean_between hbefore hafter b
  | date d => exact ⟨coerceDate_between hbefore hafter d, nofun⟩
  | @datetime p h =>
    have hread {separator : Char} (hseparator : separator = ' ' ∨ separator = 'T') :=
      coerceTimestamp_between hbefore hafter p hseparator
    rw [Timestamp.settled_of_dvd h] at hread
    refine ⟨(hread (.inl rfl)).1, ?_⟩
    rintro _ ⟨⟩ separator hseparator
    exact hread hseparator
  | uuid u => exact ⟨coerceUuid_between hbefore hafter u, nofun⟩

/-- An early point in time, with microseconds and with seconds in its offset. -/
def dawn : Timestamp :=
  ⟨⟨7, 3, 1, by decide⟩, ⟨5, 0, 0, 42, by decide⟩, some ⟨-3602000000, by decide⟩⟩

/-- Its text is filled with zeros, and it is converted to it with blanks around. -/
theorem coerce_spelled_dawn :
    datetime.coerce (.text "  0007-03-01 05:00:00.000042-01:00:02\n") = .ok (.timestamp dawn) ∧
    datetime.coerce (.text "  0007-03-01T05:00:00.000042-01:00:02\n") = .ok (.timestamp dawn) ∧
    date.coerce (.text "  0007-03-01 05:00:00.000042-01:00:02\n") =
      .ok (.date ⟨7, 3, 1, by decide⟩) := by
  have hspelled : datetime.Spelled (.timestamp dawn) := .datetime (by rintro o ⟨⟩; decide)
  have hbefore : ∀ c ∈ "  ".toList, isBlank c = true := List.all_eq_true.1 rfl
  have hafter : ∀ c ∈ "\n".toList, isBlank c = true := List.all_eq_true.1 rfl
  obtain ⟨hself, hday⟩ := coerce_spelled hspelled hbefore hafter
  exact ⟨hself, (hday dawn rfl 'T' (.inr rfl)).1, (hday dawn rfl ' ' (.inl rfl)).2⟩

end StorageType

end Sieve
