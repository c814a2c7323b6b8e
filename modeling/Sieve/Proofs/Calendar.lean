import Sieve.Calendar.Iso
import Sieve.Proofs.Number.DecimalText

/-!
# Reading days and times back

Days, times of day and points in time come back from their ISO 8601 texts, except for one thing: an
offset from universal time that is less than a second is read as no distance at all.

* `Offset.settled`, `TimeOfDay.settled`, `Timestamp.settled`: what is read instead;
* `digits?_padded`: padded numbers come back;
* `clockParts?_colon`, `clockParts?_end`: readings of clocks are taken apart at their colons;
* `offset?_offsetText`: what an offset is read as;
* `IsMark`: the characters of such texts;
* `readDate?_dateText`, `readTime?_timeText`, `readTimestamp?_timestampText`.
-/

namespace Sieve

/-- The offset that is read for an offset: none at all if it is less than a second. -/
def Offset.settled (o : Offset) : Offset :=
  if o.microseconds.natAbs < 1000000 then .utc else o

/-- The time of day that is read for a time of day. -/
def TimeOfDay.settled (t : TimeOfDay) : TimeOfDay :=
  { t with offset := t.offset.map Offset.settled }

/-- The point in time that is read for a point in time. -/
def Timestamp.settled (t : Timestamp) : Timestamp :=
  { t with offset := t.offset.map Offset.settled }

/-- Settling an offset keeps it if it has whole seconds or is no distance at all. -/
theorem Offset.settled_eq_self_iff (o : Offset) :
    o.settled = o ↔ o.microseconds = 0 ∨ 1000000 ≤ o.microseconds.natAbs := by
  unfold settled
  split
  next h =>
    refine ⟨fun heq => .inl (by rw [← heq]; rfl), fun h0 => ?_⟩
    obtain ⟨n, hn⟩ := o
    have hn0 : n = 0 := by
      simp only at h h0
      omega
    subst hn0
    rfl
  next h => exact ⟨fun _ => .inr (not_lt.1 h), fun _ => rfl⟩

namespace Iso

open Numeral

/-! ### Padded numbers -/

theorem isDigit_of_mem_padded {width n : ℕ} {c : Char} (h : c ∈ padded width n) :
    isDigit c = true := by
  induction width generalizing n with
  | zero => simp [padded] at h
  | succ width ih =>
    rcases List.mem_append.1 h with h | h
    · exact ih h
    · have hdigit : ∀ d < 10, isDigit (Char.ofNat ('0'.toNat + d)) = true := by decide
      rw [List.mem_singleton.1 h]
      exact hdigit _ (Nat.mod_lt _ (by norm_num))

theorem ofDigits_padded (width n : ℕ) : ofDigits (padded width n) = n % 10 ^ width := by
  induction width generalizing n with
  | zero => simp [padded, Nat.mod_one]
  | succ width ih =>
    have hdigit : ∀ d < 10, ofDigits [Char.ofNat ('0'.toNat + d)] = d := by decide
    have hlast : ofDigits [Text.digitChar n] = n % 10 := hdigit _ (Nat.mod_lt _ (by norm_num))
    rw [padded, ofDigits_append, ih, hlast, pow_succ', Nat.mod_mul]
    simp
    ring

/-- A padded number comes back if it is not too large. -/
theorem digits?_padded (width : ℕ) {n : ℕ} (h : n < 10 ^ width) (r : List Char) :
    digits? width (padded width n ++ r) = some (n, r) := by
  have hall : (padded width n).all isDigit = true :=
    List.all_eq_true.2 fun c => isDigit_of_mem_padded
  have htake : (padded width n ++ r).take width = padded width n :=
    List.take_left' (length_padded width n)
  have hdrop : (padded width n ++ r).drop width = r := List.drop_left' (length_padded width n)
  rw [digits?, htake, hdrop, hall, ofDigits_padded, Nat.mod_eq_of_lt h]
  simp

theorem padded_two (n : ℕ) : padded 2 n = [Text.digitChar (n / 10), Text.digitChar n] := rfl

theorem isDigit_digitChar (n : ℕ) : isDigit (Text.digitChar n) = true :=
  isDigit_of_mem_padded (by simp [padded] : Text.digitChar n ∈ padded 1 n)

/-! ### Clocks -/

/-- A pair of digits in front of a colon. -/
theorem clockParts?_colon {colons : Option Bool} (parts : List ℕ) (more : ℕ) {n : ℕ} (c : Char)
    (r : List Char) (hcolons : colons ≠ some false) (hn : n < 100) :
    clockParts? colons parts (more + 1) (padded 2 n ++ ':' :: c :: r) =
      clockParts? (some true) (parts ++ [n]) more (c :: r) := by
  have hget : colons.getD true = true := by
    match colons, hcolons with
    | none, _ => rfl
    | some true, _ => rfl
  rw [clockParts?, digits?_padded 2 hn]
  simp [hget]

/-- The last pair of digits. -/
theorem clockParts?_end {colons : Option Bool} {parts : List ℕ} {more n : ℕ} (hn : n < 100) :
    clockParts? colons parts more (padded 2 n) = some ⟨parts ++ [n], 0, false⟩ := by
  have hread := digits?_padded 2 hn []
  rw [List.append_nil] at hread
  rw [clockParts?, hread]
  rfl

/-- The last pair of digits and a fraction of six digits. -/
theorem clockParts?_point {parts : List ℕ} {more n f : ℕ} (hn : n < 100) (hf : f < 1000000) :
    clockParts? (some true) parts more (padded 2 n ++ '.' :: padded 6 f) =
      some ⟨parts ++ [n], f, false⟩ := by
  have hread := digits?_padded 6 hf []
  rw [List.append_nil] at hread
  have hfraction : fraction? (parts ++ [n]) (padded 6 f) = some ⟨parts ++ [n], f, false⟩ := by
    rw [fraction?, length_padded, min_self]
    dsimp only
    rw [hread]
    simp [Power.ten]
  obtain ⟨c, t, hct⟩ : ∃ c t, padded 6 f = c :: t :=
    List.exists_cons_of_length_pos (by rw [length_padded]; norm_num)
  rw [clockParts?, digits?_padded 2 hn]
  rw [hct] at hfraction ⊢
  simpa using hfraction

/-- Seconds with their fraction, at the end. -/
theorem clockParts?_seconds (parts : List ℕ) {more n f : ℕ} (hn : n < 100) (hf : f < 1000000) :
    clockParts? (some true) parts more (padded 2 n ++ fractionText f) =
      some ⟨parts ++ [n], f, false⟩ := by
  unfold fractionText
  split
  next h =>
    rw [List.append_nil, clockParts?_end hn, h]
  next => exact clockParts?_point hn hf

/-- Hours, minutes and seconds with their fraction. -/
theorem clockParts?_full {h m s f : ℕ} (hh : h < 100) (hm : m < 100) (hs : s < 100)
    (hf : f < 1000000) :
    clockParts? none [] 2
      (padded 2 h ++ ':' :: padded 2 m ++ ':' :: padded 2 s ++ fractionText f) =
      some ⟨[h, m, s], f, false⟩ := by
  have hsplit : padded 2 h ++ ':' :: padded 2 m ++ ':' :: padded 2 s ++ fractionText f =
      padded 2 h ++ ':' :: (padded 2 m ++ ':' :: (padded 2 s ++ fractionText f)) := by
    simp only [List.append_assoc, List.cons_append]
  rw [hsplit, padded_two m, padded_two s]
  simp only [List.cons_append]
  rw [clockParts?_colon _ _ _ _ (by simp) hh]
  have hminutes := clockParts?_colon [h] 0 (Text.digitChar (s / 10))
    (Text.digitChar s :: fractionText f) (by simp : some true ≠ some false) hm
  rw [padded_two m] at hminutes
  simp only [List.cons_append, List.nil_append] at hminutes ⊢
  rw [hminutes]
  exact clockParts?_seconds [h, m] hs hf

/-- Hours and minutes. -/
theorem clockParts?_short {h m : ℕ} (hh : h < 100) (hm : m < 100) :
    clockParts? none [] 2 (padded 2 h ++ ':' :: padded 2 m) = some ⟨[h, m], 0, false⟩ := by
  rw [padded_two m, clockParts?_colon _ _ _ _ (by simp) hh, ← padded_two]
  exact clockParts?_end hm

/-! ### Offsets -/

/-- An offset is read from its sign and its reading of a clock. -/
theorem offset?_cons {c : Char} {r : List Char} {raw : RawClock} (hc : c ≠ 'Z')
    (hread : clockParts? none [] 2 r = some raw) (hleft : raw.leftover = false) :
    offset? (c :: r) = if raw.seconds = 0 then some .utc
      else Offset.ofMicroseconds? (if c = '-' then -(raw.seconds * 1000000 + raw.microsecond : ℕ)
        else (raw.seconds * 1000000 + raw.microsecond : ℕ)) := by
  unfold offset?
  split
  next heq => exact absurd (List.cons.inj heq).1 hc
  next d t _ heq =>
    obtain ⟨rfl, rfl⟩ := List.cons.inj heq
    rw [if_neg hc, hread]
    simp [hleft]
  next heq => cases heq

/-- The hours, minutes and seconds of an offset. -/
def offsetClock (n : ℕ) : RawClock :=
  if n / 1000000 % 60 = 0 ∧ n % 1000000 = 0 then
    ⟨[n / 1000000 / 3600, n / 1000000 / 60 % 60], 0, false⟩
  else
    ⟨[n / 1000000 / 3600, n / 1000000 / 60 % 60, n / 1000000 % 60], n % 1000000, false⟩

theorem seconds_offsetClock (n : ℕ) : (offsetClock n).seconds = n / 1000000 := by
  unfold offsetClock RawClock.seconds
  split <;> simp <;> omega

theorem microsecond_offsetClock (n : ℕ) : (offsetClock n).microsecond = n % 1000000 := by
  unfold offsetClock
  split
  next h => exact h.2.symm
  next => rfl

theorem clockParts?_offset {n : ℕ} (h : n < dayLength) :
    clockParts? none [] 2 (padded 2 (n / 1000000 / 3600) ++
      ':' :: padded 2 (n / 1000000 / 60 % 60) ++
        (if n / 1000000 % 60 = 0 ∧ n % 1000000 = 0 then []
          else ':' :: padded 2 (n / 1000000 % 60) ++ fractionText (n % 1000000))) =
      some (offsetClock n) := by
  have hday : dayLength = 86400000000 := rfl
  unfold offsetClock
  split_ifs
  · rw [List.append_nil]
    exact clockParts?_short (by omega) (by omega)
  · have := clockParts?_full (h := n / 1000000 / 3600) (m := n / 1000000 / 60 % 60)
      (s := n / 1000000 % 60) (f := n % 1000000) (by omega) (by omega) (by omega) (by omega)
    simpa using this

/-- **An offset is read as what it settles to.** -/
theorem offset?_offsetText (o : Offset) : offset? (offsetText o) = some o.settled := by
  have hrange := o.inRange
  have hsign : (if o.microseconds < 0 then '-' else '+') ≠ 'Z' := by split <;> decide
  have hleft : (offsetClock o.microseconds.natAbs).leftover = false := by
    unfold offsetClock
    split <;> rfl
  have hread := offset?_cons hsign (clockParts?_offset hrange) hleft
  rw [seconds_offsetClock, microsecond_offsetClock] at hread
  refine Eq.trans hread ?_
  rw [Offset.settled]
  by_cases hsmall : o.microseconds.natAbs < 1000000
  · rw [if_pos (Nat.div_eq_of_lt hsmall), if_pos hsmall]
  · rw [if_neg (by omega), if_neg hsmall, Nat.div_add_mod']
    have hvalue : (if (if o.microseconds < 0 then '-' else '+') = '-' then
        -(o.microseconds.natAbs : ℤ) else (o.microseconds.natAbs : ℤ)) = o.microseconds := by
      rcases lt_or_ge o.microseconds 0 with hneg | hneg
      · rw [if_pos hneg, if_pos rfl]
        omega
      · rw [if_neg (not_lt.2 hneg), if_neg (by decide)]
        omega
    rw [hvalue]
    exact dif_pos hrange

/-- The start of the text of an offset. -/
theorem offsetText_head (o : Offset) : ∃ c r, offsetText o = c :: r ∧ startsOffset c = true := by
  refine ⟨_, _, rfl, ?_⟩
  split <;> rfl

/-! ### Times of day -/

/-- No character of a reading of a clock starts an offset. -/
theorem startsOffset_of_mem_clockText {c : Clock} {x : Char} (h : x ∈ clockText c) :
    startsOffset x = false := by
  have hdigit : ∀ x, isDigit x = true → startsOffset x = false := by
    intro x hx
    rw [← Bool.not_eq_true]
    intro hs
    simp only [startsOffset, Bool.or_eq_true, beq_iff_eq] at hs
    rcases hs with (rfl | rfl) | rfl <;> cases hx
  have hpadded : ∀ {width n : ℕ}, x ∈ padded width n → startsOffset x = false :=
    fun hx => hdigit x (isDigit_of_mem_padded hx)
  simp only [clockText, fractionText, List.mem_append, List.mem_cons] at h
  rcases h with ((h | rfl | h) | rfl | h) | h
  · exact hpadded h
  · rfl
  · exact hpadded h
  · rfl
  · exact hpadded h
  · split at h
    · cases h
    · rcases List.mem_cons.1 h with rfl | h
      · rfl
      · exact hpadded h

theorem clockParts?_clockText (c : Clock) :
    clockParts? none [] 2 (clockText c) =
      some ⟨[c.hour, c.minute, c.second], c.microsecond, false⟩ := by
  obtain ⟨hh, hm, hs, hf⟩ := c.inRange
  exact clockParts?_full (by omega) (by omega) (by omega) hf

/-- **A reading of a clock with an offset comes back, its offset settled.** -/
theorem timePart?_clockText (c : Clock) (o : Option Offset) :
    timePart? (clockText c ++ (o.map offsetText).getD []) = some (c, o.map Offset.settled) := by
  have hclock : ∀ x ∈ clockText c, (!startsOffset x) = true := by
    intro x hx
    rw [startsOffset_of_mem_clockText hx]
    rfl
  have hself : RawClock.clock? ⟨[c.hour, c.minute, c.second], c.microsecond, false⟩ = some c :=
    Clock.ofParts?_self c
  unfold timePart?
  rw [List.takeWhile_append_of_pos hclock, List.dropWhile_append_of_pos hclock]
  cases o with
  | none => simp [clockParts?_clockText, hself]
  | some o =>
    obtain ⟨a, r, har, ha⟩ := offsetText_head o
    have hread := offset?_offsetText o
    rw [Option.map_some, Option.getD_some]
    rw [har] at hread ⊢
    simp [ha, clockParts?_clockText, hself, hread]

/-! ### Places -/

theorem utf8Size_of_toNat {c : Char} (h : c.toNat < 128) : c.utf8Size = 1 := by
  have hc : c.val ≤ 0x7f := by
    rw [UInt32.le_iff_toNat_le]
    change c.val.toNat ≤ 127
    exact Nat.le_of_lt_succ h
  simp [Char.utf8Size, hc]

theorem places_eq_self {s : List Char} (h : ∀ c ∈ s, c.toNat < 128) : places s = s := by
  induction s with
  | nil => rfl
  | cons c s ih =>
    have hsize : c.utf8Size = 1 := utf8Size_of_toNat (h c (by simp))
    have := ih fun d hd => h d (List.mem_cons_of_mem c hd)
    rw [places, List.flatMap_cons, hsize]
    exact congrArg (c :: ·) this

/-! ### Marks -/

/-- Whether the character is a digit or stands between the parts of a day, a clock or an offset. -/
def IsMark (c : Char) : Prop := c ∈ "0123456789+-.:".toList

instance (c : Char) : Decidable (IsMark c) :=
  inferInstanceAs (Decidable (c ∈ "0123456789+-.:".toList))

/-- Marks are ASCII characters, and no blanks or letters. -/
theorem IsMark.plain {c : Char} (h : IsMark c) :
    c.toNat < 128 ∧ Text.isBlank c = false ∧ c ≠ 'T' ∧ c ≠ 'Z' :=
  List.all_iff_forall_prop.1 (by decide : "0123456789+-.:".toList.all fun c =>
    c.toNat < 128 ∧ Text.isBlank c = false ∧ c ≠ 'T' ∧ c ≠ 'Z') c h

theorem isMark_of_isDigit {c : Char} (h : isDigit c = true) : IsMark c := by
  obtain ⟨hlo, hhi⟩ : 48 ≤ c.toNat ∧ c.toNat ≤ 57 := Char.isDigit_iff_toNat.1 h
  unfold IsMark
  rw [← Char.ofNat_toNat c]
  interval_cases c.toNat <;> decide

theorem isMark_of_mem_padded {width n : ℕ} {c : Char} (h : c ∈ padded width n) : IsMark c :=
  isMark_of_isDigit (isDigit_of_mem_padded h)

theorem isMark_of_mem_dateText {d : Date} {x : Char} (h : x ∈ dateText d) : IsMark x := by
  simp only [dateText, List.mem_append, List.mem_cons] at h
  rcases h with (h | rfl | h) | rfl | h
  · exact isMark_of_mem_padded h
  · decide
  · exact isMark_of_mem_padded h
  · decide
  · exact isMark_of_mem_padded h

theorem isMark_of_mem_fractionText {f : ℕ} {x : Char} (h : x ∈ fractionText f) : IsMark x := by
  unfold fractionText at h
  split at h
  · cases h
  · rcases List.mem_cons.1 h with rfl | h
    · decide
    · exact isMark_of_mem_padded h

theorem isMark_of_mem_clockText {c : Clock} {x : Char} (h : x ∈ clockText c) : IsMark x := by
  simp only [clockText, List.mem_append, List.mem_cons] at h
  rcases h with ((h | rfl | h) | rfl | h) | h
  · exact isMark_of_mem_padded h
  · decide
  · exact isMark_of_mem_padded h
  · decide
  · exact isMark_of_mem_padded h
  · exact isMark_of_mem_fractionText h

theorem isMark_of_mem_offsetText {o : Offset} {x : Char} (h : x ∈ offsetText o) : IsMark x := by
  simp only [offsetText, List.mem_append, List.mem_cons] at h
  rcases h with rfl | (h | rfl | h) | h
  · split <;> decide
  · exact isMark_of_mem_padded h
  · decide
  · exact isMark_of_mem_padded h
  · split at h
    · cases h
    · rcases List.mem_cons.1 h with rfl | h
      · decide
      · rcases List.mem_append.1 h with h | h
        · exact isMark_of_mem_padded h
        · exact isMark_of_mem_fractionText h

theorem isMark_of_mem_timeText {t : TimeOfDay} {x : Char} (h : x ∈ timeText t) : IsMark x := by
  rcases List.mem_append.1 h with h | h
  · exact isMark_of_mem_clockText h
  · cases hoffset : t.offset with
    | none => simp [hoffset] at h
    | some o => exact isMark_of_mem_offsetText (by simpa [hoffset] using h)

/-- **A time of day comes back from its text, its offset settled.** -/
theorem readTime?_timeText (t : TimeOfDay) :
    readTime? (String.ofList (timeText t)) = some t.settled := by
  have hplaces : places (timeText t) = timeText t :=
    places_eq_self fun x hx => (isMark_of_mem_timeText hx).plain.1
  have hread := timePart?_clockText t.clock t.offset
  have htext : (String.ofList (timeText t)).toList = timeText t := String.toList_ofList
  unfold readTime?
  rw [htext, hplaces]
  have hhead : ∃ x r, timeText t = x :: r ∧ x ≠ 'T' := by
    refine ⟨Text.digitChar (t.clock.hour / 10), _, rfl, fun h => ?_⟩
    have := isDigit_digitChar (t.clock.hour / 10)
    rw [h] at this
    cases this
  obtain ⟨x, r, hxr, hx⟩ := hhead
  have htime : timePart? (timeText t) = some (t.clock, t.offset.map Offset.settled) := hread
  rw [hxr] at htime ⊢
  split
  next heq => exact absurd (List.cons.inj heq).1 hx
  next => simp [htime, TimeOfDay.settled]

/-! ### Days -/

theorem Date.bounds (d : Date) :
    d.year < 10 ^ 4 ∧ d.month < 10 ^ 2 ∧ d.day < 10 ^ 2 := by
  obtain ⟨-, hy, hd, hdm⟩ := d.exists_
  have hmonth : d.month ≤ 12 := by
    by_contra h
    have hzero : daysInMonth d.year d.month = 0 := by
      unfold daysInMonth
      split <;> first | rfl | omega
    omega
  have hday : daysInMonth d.year d.month ≤ 31 := by
    unfold daysInMonth
    split <;> first | omega | (split <;> omega)
  refine ⟨by omega, by omega, by omega⟩

/-- A day comes back from the start of a text. -/
theorem datePart?_dateText (d : Date) : datePart? (dateText d) = some d := by
  obtain ⟨hy, hm, hd⟩ := Date.bounds d
  have htext : dateText d =
      padded 4 d.year ++ '-' :: (padded 2 d.month ++ '-' :: padded 2 d.day) := by
    simp [dateText]
  have hmonth := digits?_padded 2 hm ('-' :: padded 2 d.day)
  have hday := digits?_padded 2 hd []
  have hW : Text.digitChar (d.month / 10) ≠ 'W' := by
    intro h
    have := isDigit_digitChar (d.month / 10)
    rw [h] at this
    cases this
  rw [htext, datePart?, digits?_padded 4 hy]
  rw [List.append_nil] at hday
  simp only [padded_two d.month, List.cons_append, List.nil_append] at hmonth ⊢
  simp [hW, hmonth, hday]

theorem length_dateText (d : Date) : (dateText d).length = 10 := by
  simp [dateText]

/-- **A day comes back from its text.** -/
theorem readDate?_dateText (d : Date) : readDate? (String.ofList (dateText d)) = some d := by
  have hplaces : places (dateText d) = dateText d :=
    places_eq_self fun x hx => (isMark_of_mem_dateText hx).plain.1
  have htext : (String.ofList (dateText d)).toList = dateText d := String.toList_ofList
  rw [readDate?, htext, hplaces]
  simp [length_dateText, datePart?_dateText]

/-! ### Points in time -/

variable {separator : Char}

/-- The text of a point in time is that of its day and that of its time of day. -/
theorem timestampText_eq (separator : Char) (t : Timestamp) :
    timestampText separator t =
      dateText t.date ++ separator :: timeText ⟨t.clock, t.offset⟩ := by
  simp [timestampText, timeText]

theorem isMark_of_mem_timestampText {t : Timestamp} {x : Char}
    (h : x ∈ timestampText separator t) : IsMark x ∨ x = separator := by
  rw [timestampText_eq] at h
  rcases List.mem_append.1 h with h | h
  · exact .inl (isMark_of_mem_dateText h)
  · rcases List.mem_cons.1 h with h | h
    · exact .inr h
    · exact .inl (isMark_of_mem_timeText h)

/-- **A point in time comes back from its text, its offset settled**, whatever character stands between
day and time. -/
theorem readTimestamp?_timestampText (hseparator : separator.toNat < 128) (t : Timestamp) :
    readTimestamp? (String.ofList (timestampText separator t)) = some t.settled := by
  have hplaces : places (timestampText separator t) = timestampText separator t := by
    refine places_eq_self fun x hx => ?_
    rcases isMark_of_mem_timestampText hx with hx | rfl
    · exact hx.plain.1
    · exact hseparator
  have htake : ∀ r, (dateText t.date ++ r).take 10 = dateText t.date :=
    fun _ => List.take_left' (length_dateText t.date)
  have hdrop : ∀ r, (dateText t.date ++ r).drop 10 = r :=
    fun _ => List.drop_left' (length_dateText t.date)
  have hlength : 19 ≤ (timestampText separator t).length := by
    simp only [timestampText, clockText, List.length_append, List.length_cons, length_dateText,
      length_padded]
    omega
  have hdate : dateLength? (timestampText separator t) = some 10 := by
    have h4 : (timestampText separator t)[4]? = some '-' := rfl
    have h5 : (timestampText separator t)[5]? = some (Text.digitChar (t.date.month / 10)) := rfl
    have hW : Text.digitChar (t.date.month / 10) ≠ 'W' := by
      intro h
      have := isDigit_digitChar (t.date.month / 10)
      rw [h] at this
      cases this
    have h7 : (timestampText separator t).length ≠ 7 := by omega
    simp [dateLength?, h4, h5, hW, h7]
  have htext : (String.ofList (timestampText separator t)).toList = timestampText separator t :=
    String.toList_ofList
  have htime : timePart? (timeText ⟨t.clock, t.offset⟩) =
      some (t.clock, t.offset.map Offset.settled) := timePart?_clockText t.clock t.offset
  unfold readTimestamp?
  rw [htext, hplaces]
  dsimp only
  rw [if_neg (by omega), hdate]
  simp only [Option.bind_eq_bind, Option.bind_some]
  rw [timestampText_eq, htake, hdrop, datePart?_dateText]
  simp [utf8Size_of_toNat hseparator, htime, Timestamp.settled]

end Iso

end Sieve
