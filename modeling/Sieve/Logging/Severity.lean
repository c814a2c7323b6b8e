import Sieve.Text.Case
import Sieve.Error
/-!
# Severities

Events have a severity and loggers a level: a logger passes on the events that are at least as
severe as its level. Loggers form a tree by the dots in their names, and a logger without a level
of its own has that of its nearest ancestor.

* `Severity.ofName?` and `Severity.name` relate numbers and names, `Severity.read` reads words;
* `Loggers.assignAll` sets levels as a configuration has them;
* `Loggers.level` is the level in force of a logger, `Loggers.passes` the test of an event.

Main statements: `own?_set`, `level_set_self`, `passes_iff`.
-/

namespace Sieve

/-- A severity; zero stands for none. -/
abbrev Severity := Nat

namespace Severity

/-- The names of severities; the first name of a number is the one that is shown. -/
def names : List (String × Severity) :=
  [("NOTSET", 0), ("DEBUG", 10), ("INFO", 20), ("WARNING", 30), ("ERROR", 40), ("CRITICAL", 50),
    ("WARN", 30), ("FATAL", 50)]

/-- The severity with a name in upper case. -/
def ofName? (name : String) : Option Severity :=
  names.lookup name

/-- The severity with a name in any case; other names stand for that of plain information. -/
def ofWord (word : String) : Severity :=
  (ofName? (Text.upper word)).getD 20

/-- The constants beside the severities, and what reading a level fails with where it comes upon them: one
is a text that names no severity, the other is a map. -/
def misread : List (String × Error) :=
  [("BASIC_FORMAT", .malformed), ("_STYLES", .mismatch)]

/-- The severity that a word of a configuration stands for. -/
def read (word : String) : Except Error Severity :=
  match misread.lookup (Text.upper word) with
  | some e => .error e
  | none => .ok (ofWord word)

/-- The name of a severity. -/
def name (s : Severity) : String :=
  ((names.find? (·.2 == s)).map (·.1)).getD ""

end Severity

/-- The levels that were set, by the name of the logger. The logger above all others has the empty
name. -/
structure Loggers where
  /-- The levels. -/
  levels : List (String × Severity)
  deriving Inhabited

namespace Loggers

/-- The loggers as they are before any level is set: only the one above all others has one. -/
def initial : Loggers := ⟨[("", 30)]⟩

/-- The name of a logger under which its level is kept. -/
def key (name : String) : String :=
  if name = "root" then "" else name

/-- Sets the level of a logger. -/
def set (l : Loggers) (name : String) (s : Severity) : Loggers :=
  ⟨(key name, s) :: l.levels.filter (·.1 != key name)⟩

/-- The level that was set for a logger, if it is one. -/
def own? (l : Loggers) (name : String) : Option Severity :=
  (l.levels.lookup (key name)).filter (0 < ·)

theorem own?_set (l : Loggers) (name other : String) (s : Severity) :
    (l.set name s).own? other =
      if key other = key name then (some s).filter (0 < ·) else l.own? other := by
  by_cases h : key other = key name
  · simp [own?, set, h]
  · have hother : (key other == key name) = false := by simp [h]
    have hrest : (l.levels.filter (·.1 != key name)).lookup (key other) =
        l.levels.lookup (key other) := by
      induction l.levels with
      | nil => rfl
      | cons e es ih =>
        obtain ⟨k, t⟩ := e
        by_cases hk : k = key name
        · simp [List.lookup_cons, hk, hother, ih]
        · simp [List.lookup_cons, hk, ih]
    simp [own?, set, h, List.lookup_cons, hother, hrest]

/-- The name of the logger that a key of a configuration stands for: what counts as nothing stands for the
logger above all others. -/
def nameOf (k : Value) : Except Error String :=
  match k with
  | .text s => .ok s
  | k => if k.truthy then .error .mismatch else .ok ""

/-- Sets the level of the logger of a key. -/
def assign (l : Loggers) (k : Value) (word : String) : Except Error Loggers := do
  let name ← nameOf k
  return l.set name (← Severity.read word)

/-- Sets levels one after the other, up to the first one that cannot be set. -/
def assignAll (l : Loggers) : List (Value × String) → Loggers × Option Error
  | [] => (l, none)
  | (k, word) :: r =>
    match l.assign k word with
    | .ok l => assignAll l r
    | .error e => (l, some e)

/-- The texts in front of the dots of a text, the longest first. -/
def fronts : List Char → List (List Char)
  | [] => []
  | c :: r => (fronts r).map (c :: ·) ++ if c = '.' then [[]] else []

/-- The names of the ancestors of a logger, the nearest first. -/
def ancestors (name : String) : List String :=
  (fronts name.toList).map String.ofList ++ [""]

/-- The level in force of a logger. -/
def level (l : Loggers) (name : String) : Severity :=
  match l.own? name with
  | some s => s
  | none => ((ancestors name).findSome? l.own?).getD 0

/-- A level that is set is in force. -/
@[simp] theorem level_set_self (l : Loggers) (name : String) {s : Severity} (h : 0 < s) :
    (l.set name s).level name = s := by
  have : (l.set name s).own? name = some s := by
    simp [own?_set, Option.filter, h]
  simp [level, this]

/-- Whether a logger passes an event on. -/
def passes (l : Loggers) (name : String) (s : Severity) : Bool :=
  decide (l.level name ≤ s)

theorem passes_iff {l : Loggers} {name : String} {s : Severity} :
    l.passes name s = true ↔ l.level name ≤ s := by
  simp [passes]

end Loggers

end Sieve
