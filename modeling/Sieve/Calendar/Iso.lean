import Sieve.Calendar.Clock
import Sieve.Text.Digit
import Sieve.Text.Surrogate
import Sieve.Number.Numeral
import Sieve.Number.Power
/-!
# Dates and times in ISO 8601 form

Writing: `YYYY-MM-DD`, `HH:MM:SS`, six digits of a second if they are not all zero, and an offset
`±HH:MM` with seconds if it has any.

Reading accepts more: dates without hyphens, ISO weeks with or without a weekday, any single
character between date and time, times without colons, fractions after a point or a comma cut to
six digits, `Z` and offsets of the same forms as times.

* `dateText`, `timeText`, `timestampText` write; `readDate?`, `readTime?`, `readTimestamp?` read;
* `places` replaces a character by as many copies as it has octets, since positions in a text are
  counted in octets;
* `readRawTimestamp?` also takes a surrogate for the character between date and time.

Main statement: `length_padded` (a padded number has its width).
-/

namespace Sieve.Iso

open Sieve.Text

/-! ### Writing -/

/-- The last `width` decimal digits of a number, most significant first. -/
def padded : Nat → Nat → List Char
  | 0, _ => []
  | width + 1, n => padded width (n / 10) ++ [digitChar n]

@[simp] theorem length_padded (width n : Nat) : (padded width n).length = width := by
  induction width generalizing n with
  | zero => rfl
  | succ width ih => simp [padded, ih]

/-- The text of a day. -/
def dateText (d : Date) : List Char :=
  padded 4 d.year ++ '-' :: padded 2 d.month ++ '-' :: padded 2 d.day

/-- The fraction of a second, if any. -/
def fractionText (microsecond : Nat) : List Char :=
  if microsecond = 0 then [] else '.' :: padded 6 microsecond

/-- The text of a reading. -/
def clockText (c : Clock) : List Char :=
  padded 2 c.hour ++ ':' :: padded 2 c.minute ++ ':' :: padded 2 c.second ++
    fractionText c.microsecond

/-- The text of an offset. -/
def offsetText (o : Offset) : List Char :=
  let n := o.microseconds.natAbs
  let seconds := n / 1000000
  let micro := n % 1000000
  (if o.microseconds < 0 then '-' else '+') ::
    (padded 2 (seconds / 3600) ++ ':' :: padded 2 (seconds / 60 % 60) ++
      (if seconds % 60 = 0 ∧ micro = 0 then []
        else ':' :: padded 2 (seconds % 60) ++ fractionText micro))

/-- The text of a time of day. -/
def timeText (t : TimeOfDay) : List Char :=
  clockText t.clock ++ (t.offset.map offsetText).getD []

/-- The text of a point in time, with the given character between date and time. -/
def timestampText (separator : Char) (t : Timestamp) : List Char :=
  dateText t.date ++ separator :: clockText t.clock ++ (t.offset.map offsetText).getD []

/-! ### Reading -/

/-- The text with each character repeated once per octet. -/
def places (s : List Char) : List Char :=
  s.flatMap fun c => List.replicate c.utf8Size c

/-- The number that the first `n` characters write, and the rest. -/
def digits? (n : Nat) (s : List Char) : Option (Nat × List Char) :=
  let ds := s.take n
  if ds.length = n && ds.all Numeral.isDigit then some (Numeral.ofDigits ds, s.drop n) else none

/-- Reads a day at the start of a text. A week at the end of the text starts on Monday; what follows
a complete day is not looked at. -/
def datePart? (s : List Char) : Option Date := do
  let (year, r) ← digits? 4 s
  let (dashed, r) := match r with
    | '-' :: r => (true, r)
    | r => (false, r)
  match r with
  | 'W' :: r =>
    let (week, r) ← digits? 2 r
    match r with
    | [] => Date.ofWeek? year week 1
    | c :: r' =>
      if dashed then
        if c = '-' then
          let (weekday, _) ← digits? 1 r'
          Date.ofWeek? year week weekday
        else none
      else
        let (weekday, _) ← digits? 1 r
        Date.ofWeek? year week weekday
  | r =>
    let (month, r) ← digits? 2 r
    let r ← if dashed then
        match r with
        | '-' :: r => some r
        | _ => none
      else some r
    let (day, _) ← digits? 2 r
    Date.ofParts? year month day

/-- The day that a text of 7, 8 or 10 places writes. -/
def readDate? (s : String) : Option Date :=
  let p := places s.toList
  if p.length = 7 ∨ p.length = 8 ∨ p.length = 10 then datePart? p else none

/-- Hours, minutes, seconds and millionths as read, not yet checked. -/
structure RawClock where
  /-- Hours, minutes and seconds, as many as are given. -/
  parts : List Nat
  /-- The millionths of a second. -/
  microsecond : Nat
  /-- Whether something is left over at the end. -/
  leftover : Bool

/-- Six digits of a fraction; further digits are cut off. -/
def fraction? (parts : List Nat) (s : List Char) : Option RawClock := do
  let n := min 6 s.length
  let (value, r) ← digits? n s
  some ⟨parts, value * Power.ten (6 - n), !(r.dropWhile Numeral.isDigit).isEmpty⟩

/-- Reads pairs of digits with or without colons, `more` further ones allowed after the first. A
single character after a pair is left over. -/
def clockParts? (colons : Option Bool) (parts : List Nat) : Nat → List Char → Option RawClock
  | more, s => do
    let (value, r) ← digits? 2 s
    let parts := parts ++ [value]
    match r with
    | [] => some ⟨parts, 0, false⟩
    | [_] => some ⟨parts, 0, true⟩
    | c :: r' =>
      let colons := colons.getD (c == ':')
      if colons && c == ':' then
        match more with
        | 0 => fraction? parts r'
        | more + 1 => clockParts? (some colons) parts more r'
      else if c = '.' ∨ c = ',' then fraction? parts r'
      else if colons then none
      else
        match more with
        | 0 => fraction? parts r
        | more + 1 => clockParts? (some colons) parts more r

/-- The seconds that hours, minutes and seconds make. -/
def RawClock.seconds (c : RawClock) : Nat :=
  c.parts[0]?.getD 0 * 3600 + c.parts[1]?.getD 0 * 60 + c.parts[2]?.getD 0

/-- The reading, if its parts are in range. -/
def RawClock.clock? (c : RawClock) : Option Clock :=
  Clock.ofParts? (c.parts[0]?.getD 0) (c.parts[1]?.getD 0) (c.parts[2]?.getD 0) c.microsecond

/-- Reads an offset: `Z`, or a sign and a time. Whole seconds of zero are universal time. -/
def offset? : List Char → Option Offset
  | ['Z'] => some .utc
  | c :: r =>
    if c = 'Z' then none
    else do
      let raw ← clockParts? none [] 2 r
      if raw.leftover then none
      else if raw.seconds = 0 then some .utc
      else
        let n : Int := (raw.seconds * 1000000 + raw.microsecond : Nat)
        Offset.ofMicroseconds? (if c = '-' then -n else n)
  | [] => none

/-- Whether the character starts an offset. -/
def startsOffset (c : Char) : Bool :=
  c == '+' || c == '-' || c == 'Z'

/-- Reads a time with an optional offset. What is left over in front of an offset is not looked
at. -/
def timePart? (s : List Char) : Option (Clock × Option Offset) := do
  let raw ← clockParts? none [] 2 (s.takeWhile (!startsOffset ·))
  match s.dropWhile (!startsOffset ·) with
  | [] => if raw.leftover then none else (raw.clock?).map (·, none)
  | r =>
    let o ← offset? r
    let c ← raw.clock?
    some (c, some o)

/-- The time of day that a text writes; a `T` may stand in front. -/
def readTime? (s : String) : Option TimeOfDay := do
  let (c, o) ← timePart? (match places s.toList with
    | 'T' :: r => r
    | r => r)
  some ⟨c, o⟩

/-- The place where the date ends: with hyphens after ten places, or after eight if a week has no
weekday; without them after eight, or after seven if the number of digits after the week is odd. -/
def dateLength? (s : List Char) : Option Nat :=
  let digitAt (i : Nat) : Bool := (s[i]?).any Numeral.isDigit
  if s.length = 7 then some 7
  else if s[4]? = some '-' then
    if s[5]? = some 'W' then
      if s[8]? = some '-' then
        if s.length = 9 then none
        else if digitAt 10 then some 8
        else some 10
      else some 8
    else some 10
  else if s[4]? = some 'W' then
    let run := 7 + ((s.drop 7).takeWhile Numeral.isDigit).length
    if run < 9 then some run
    else if run % 2 = 0 then some 7
    else some 8
  else some 8

/-- The point in time that a text of at least seven places writes. A date alone is midnight. -/
def readTimestamp? (s : String) : Option Timestamp := do
  let p := places s.toList
  if p.length < 7 then none
  else
    let n ← dateLength? p
    let d ← datePart? (p.take n)
    match p.drop n with
    | [] => some (.ofDate d)
    | c :: r =>
      let (clock, offset) ← timePart? (r.drop (c.utf8Size - 1))
      some ⟨d, clock, offset⟩

/-- The places at which a date may end. -/
def dateEnds : List Nat := [7, 8, 10]

/-- The code points with the first surrogate at the end of a date replaced by a `T`. -/
def marked (ps : List CodePoint) : List CodePoint :=
  match dateEnds.find? fun n => ps[n]?.any CodePoint.isSurrogate with
  | some n => ps.set n (.char 'T')
  | none => ps

/-- The point in time that a text writes, which may have a surrogate between date and time. -/
def readRawTimestamp? : RawText → Option Timestamp
  | .whole s => readTimestamp? s
  | .broken t => (RawText.ofPoints (marked t.points)).whole? >>= readTimestamp?

end Sieve.Iso
