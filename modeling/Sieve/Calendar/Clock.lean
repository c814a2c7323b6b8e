import Sieve.Calendar.Date
/-!
# Times of day and points in time

A reading of a clock may come with an offset from universal time. Points in time with an offset
compare by the instant they name; readings without one compare as they stand; the two kinds do not
compare. Times of day with different offsets compare by whole seconds of the offsets.

A point in time of a zone whose offset changes is given by its reading and the offset of that moment.
Such points of one zone compare by their readings, which come in the order of the instants, except
for readings that the zone repeats or skips. Points in time with such a reading, which does not tell
the offset, are left out.

* `Clock` is a reading of hours to microseconds, `Offset` a distance from universal time of less
  than a day;
* `TimeOfDay` and `Timestamp` add an optional offset, the latter also a day;
* `TimeOfDay.compare?` and `Timestamp.compare?` are `none` for readings of different kinds.

Main statements: `Clock.ofParts?_self`, `TimeOfDay.compare?_sameOffset`.
-/

namespace Sieve

/-- A reading of a clock. -/
structure Clock where
  /-- The hour, below 24. -/
  hour : Nat
  /-- The minute, below 60. -/
  minute : Nat
  /-- The second, below 60. -/
  second : Nat
  /-- The millionths of a second. -/
  microsecond : Nat
  /-- All parts are in range. -/
  inRange : hour < 24 ∧ minute < 60 ∧ second < 60 ∧ microsecond < 1000000 := by decide
  deriving DecidableEq, Repr

namespace Clock

/-- Midnight. -/
def midnight : Clock where
  hour := 0
  minute := 0
  second := 0
  microsecond := 0

instance : Inhabited Clock := ⟨midnight⟩

/-- The reading with these parts, if they are in range. -/
def ofParts? (hour minute second microsecond : Nat) : Option Clock :=
  if h : hour < 24 ∧ minute < 60 ∧ second < 60 ∧ microsecond < 1000000 then
    some ⟨hour, minute, second, microsecond, h⟩
  else none

@[simp] theorem ofParts?_self (c : Clock) :
    ofParts? c.hour c.minute c.second c.microsecond = some c := by
  simp [ofParts?, c.inRange]

/-- The microseconds since midnight. -/
def sinceMidnight (c : Clock) : Nat :=
  ((c.hour * 60 + c.minute) * 60 + c.second) * 1000000 + c.microsecond

end Clock

/-- The microseconds of a day. -/
def dayLength : Nat := 86400000000

/-- A distance from universal time, positive to the east. -/
structure Offset where
  /-- The distance in microseconds. -/
  microseconds : Int
  /-- The distance is less than a day. -/
  inRange : microseconds.natAbs < dayLength := by decide
  deriving DecidableEq, Repr

namespace Offset

/-- Universal time itself. -/
def utc : Offset where
  microseconds := 0

/-- The offset of a number of microseconds, if that is less than a day. -/
def ofMicroseconds? (n : Int) : Option Offset :=
  if h : n.natAbs < dayLength then some ⟨n, h⟩ else none

end Offset

/-- A reading of a clock, with or without an offset. -/
structure TimeOfDay where
  /-- The reading. -/
  clock : Clock
  /-- The offset, if known. -/
  offset : Option Offset
  deriving DecidableEq, Repr, Inhabited

/-- A day and a reading of a clock, with or without an offset. -/
structure Timestamp where
  /-- The day. -/
  date : Date
  /-- The reading. -/
  clock : Clock
  /-- The offset, if known. -/
  offset : Option Offset
  deriving DecidableEq, Repr, Inhabited

/-- The distance from universal time in whole seconds, rounded down. -/
def Offset.seconds (o : Offset) : Int :=
  o.microseconds.fdiv 1000000

/-- The microseconds since midnight of universal time, against the whole seconds of an offset. -/
def Clock.shifted (c : Clock) (o : Offset) : Int :=
  c.sinceMidnight - o.seconds * 1000000

/-- The order of two readings of the same kind. Readings with one offset compare by their clocks,
those with two offsets by their distance from midnight of universal time. -/
def TimeOfDay.compare? (a b : TimeOfDay) : Option Ordering :=
  match a.offset, b.offset with
  | none, none => some (compare a.clock.sinceMidnight b.clock.sinceMidnight)
  | some o, some p =>
    some (if o = p then compare a.clock.sinceMidnight b.clock.sinceMidnight
      else compare (a.clock.shifted o) (b.clock.shifted p))
  | _, _ => none

/-- Readings with the same offset, or both without one, compare by their clocks. -/
theorem TimeOfDay.compare?_sameOffset {a b : TimeOfDay} (h : a.offset = b.offset) :
    a.compare? b = some (compare a.clock.sinceMidnight b.clock.sinceMidnight) := by
  unfold compare?
  rw [h]
  cases b.offset <;> simp

/-- The microseconds since the day before January 1 of year 1. -/
def Timestamp.local (t : Timestamp) : Nat :=
  t.date.ordinal * dayLength + t.clock.sinceMidnight

/-- The microseconds since the same day in universal time, against an offset. -/
def Timestamp.instant (t : Timestamp) (o : Offset) : Int :=
  t.local - o.microseconds

/-- The order of two points in time of the same kind. -/
def Timestamp.compare? (a b : Timestamp) : Option Ordering :=
  match a.offset, b.offset with
  | none, none => some (compare a.local b.local)
  | some o, some p => some (compare (a.instant o) (b.instant p))
  | _, _ => none

/-- Midnight of a day, without an offset. -/
def Timestamp.ofDate (d : Date) : Timestamp :=
  ⟨d, .midnight, none⟩

end Sieve
