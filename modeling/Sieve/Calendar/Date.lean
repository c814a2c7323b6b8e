/-!
# Days of the calendar

Days of the proleptic Gregorian calendar in the years 1 to 9999.

* `Date.ofParts?` admits only days that exist; the type keeps that as an invariant;
* `Date.ordinal` numbers the days, January 1 of year 1 is day 1; `Date.ofOrdinal?` goes back;
* `Date.ofWeek?` finds a day by ISO year, week and weekday.

Main statements: `daysInMonth_pos` and `Date.ofParts?_self`.
-/

namespace Sieve

/-- Whether the year has a February 29. -/
def isLeap (year : Nat) : Bool :=
  year % 4 == 0 && (year % 100 != 0 || year % 400 == 0)

/-- The number of days of a month; `0` for what is no month. -/
def daysInMonth (year : Nat) : Nat → Nat
  | 1 => 31
  | 2 => if isLeap year then 29 else 28
  | 3 => 31
  | 4 => 30
  | 5 => 31
  | 6 => 30
  | 7 => 31
  | 8 => 31
  | 9 => 30
  | 10 => 31
  | 11 => 30
  | 12 => 31
  | _ => 0

/-- Every month has a day. -/
theorem daysInMonth_pos (year : Nat) {month : Nat} (h : 1 ≤ month) (h' : month ≤ 12) :
    0 < daysInMonth year month := by
  have : month = 1 ∨ month = 2 ∨ month = 3 ∨ month = 4 ∨ month = 5 ∨ month = 6 ∨ month = 7 ∨
    month = 8 ∨ month = 9 ∨ month = 10 ∨ month = 11 ∨ month = 12 := by omega
  rcases this with rfl | rfl | rfl | rfl | rfl | rfl | rfl | rfl | rfl | rfl | rfl | rfl <;>
    simp [daysInMonth]
  split <;> omega

/-- Whether year, month and day name a day of the calendar. -/
def IsDate (year month day : Nat) : Prop :=
  1 ≤ year ∧ year ≤ 9999 ∧ 1 ≤ day ∧ day ≤ daysInMonth year month

instance (year month day : Nat) : Decidable (IsDate year month day) :=
  inferInstanceAs (Decidable (_ ∧ _ ∧ _ ∧ _))

/-- A day of the calendar. -/
structure Date where
  /-- The year, `1 … 9999`. -/
  year : Nat
  /-- The month, `1 … 12`. -/
  month : Nat
  /-- The day of the month, from `1`. -/
  day : Nat
  /-- The parts name a day that exists. -/
  exists_ : IsDate year month day := by decide
  deriving DecidableEq, Repr

namespace Date

/-- The first day. -/
def least : Date where
  year := 1
  month := 1
  day := 1

instance : Inhabited Date := ⟨least⟩

/-- The day with these parts, if there is one. -/
def ofParts? (year month day : Nat) : Option Date :=
  if h : IsDate year month day then some ⟨year, month, day, h⟩ else none

@[simp] theorem ofParts?_self (d : Date) : ofParts? d.year d.month d.day = some d := by
  simp [ofParts?, d.exists_]

/-- The number of days before a year. -/
def daysBeforeYear (year : Nat) : Nat :=
  let y := year - 1
  y * 365 + y / 4 - y / 100 + y / 400

/-- The number of days of the year before a month. -/
def daysBeforeMonth (year month : Nat) : Nat :=
  (List.range month).foldl (fun days m => days + daysInMonth year m) 0

/-- The number of the day; January 1 of year 1 is day 1. -/
def ordinal (d : Date) : Nat :=
  daysBeforeYear d.year + daysBeforeMonth d.year d.month + d.day

/-- The month and the day of the month of the day `n` of a year, counted from `0`. -/
def monthOf (year : Nat) : Nat → Nat → Nat → Nat × Nat
  | 0, month, n => (month, n + 1)
  | fuel + 1, month, n =>
    if n < daysInMonth year month then (month, n + 1)
    else monthOf year fuel (month + 1) (n - daysInMonth year month)

/-- The day with the given number, if it is in the calendar. -/
def ofOrdinal? (n : Nat) : Option Date :=
  if n = 0 then none
  else
    let m := n - 1
    let c400 := m / 146097
    let m := m % 146097
    let c100 := min (m / 36524) 3
    let m := m - c100 * 36524
    let c4 := m / 1461
    let m := m % 1461
    let c1 := min (m / 365) 3
    let m := m - c1 * 365
    let year := c400 * 400 + c100 * 100 + c4 * 4 + c1 + 1
    let (month, day) := monthOf year 12 1 m
    ofParts? year month day

/-- The weekday of the day with a number; Monday is `0`. -/
def weekdayOf (ordinal : Nat) : Nat :=
  (ordinal + 6) % 7

/-- The number of the Monday of the first ISO week of a year, which holds its first Thursday. -/
def firstMonday (year : Nat) : Int :=
  let first := daysBeforeYear year + 1
  let weekday := weekdayOf first
  (first : Int) - weekday + (if 3 < weekday then 7 else 0)

/-- Whether the ISO year has a week 53: it starts on a Thursday, or on a Wednesday and is leap. -/
def isLongYear (year : Nat) : Bool :=
  let weekday := weekdayOf (daysBeforeYear year + 1)
  weekday == 3 || (weekday == 2 && isLeap year)

/-- The day with ISO year, week and weekday; Monday is weekday `1`. -/
def ofWeek? (year week weekday : Nat) : Option Date :=
  if year = 0 ∨ week = 0 ∨ 53 < week ∨ (week = 53 ∧ isLongYear year = false) ∨ weekday = 0 ∨
      7 < weekday then none
  else ofOrdinal? (firstMonday year + ((week - 1) * 7 + (weekday - 1) : Nat)).toNat

/-- Earlier days come first. -/
def compare (a b : Date) : Ordering :=
  Ord.compare a.ordinal b.ordinal

end Date

end Sieve
