/-!
# Sort directions

A direction is ascending or descending and may say where nulls go.

* `reverse` is the direction of the opposite enumeration: nulls change their side;
* `toggle` changes between ascending and descending and leaves the nulls in place.

Main statements: `reverse_reverse`, `toggle_toggle`, `ascending_reverse`, `nullPlace_reverse`.
-/

namespace Sieve

/-- A side of the enumeration where nulls are put. -/
inductive NullPlace
  /-- In front of all other values. -/
  | first
  /-- After all other values. -/
  | last
  deriving DecidableEq, Repr, Inhabited

namespace NullPlace

/-- The other side. -/
def flip : NullPlace → NullPlace
  | first => last
  | last => first

/-- The name of a side. -/
def name : NullPlace → String
  | first => "first"
  | last => "last"

end NullPlace

/-- A sort direction, possibly with a place for nulls. -/
inductive Direction
  /-- Ascending. -/
  | asc
  /-- Ascending, nulls first. -/
  | ascNullsFirst
  /-- Ascending, nulls last. -/
  | ascNullsLast
  /-- Descending. -/
  | desc
  /-- Descending, nulls first. -/
  | descNullsFirst
  /-- Descending, nulls last. -/
  | descNullsLast
  deriving DecidableEq, Repr, Inhabited

namespace Direction

/-- All directions. -/
def all : List Direction :=
  [asc, ascNullsFirst, ascNullsLast, desc, descNullsFirst, descNullsLast]

/-- The name of a direction in parameters. -/
def name : Direction → String
  | asc => "asc"
  | ascNullsFirst => "asc_nulls_first"
  | ascNullsLast => "asc_nulls_last"
  | desc => "desc"
  | descNullsFirst => "desc_nulls_first"
  | descNullsLast => "desc_nulls_last"

/-- The direction with a name. -/
def ofName? (s : String) : Option Direction :=
  all.find? (·.name == s)

@[simp] theorem ofName?_name (d : Direction) : ofName? d.name = some d := by
  cases d <;> decide

/-- Whether smaller values come first. -/
def ascending : Direction → Bool
  | asc | ascNullsFirst | ascNullsLast => true
  | _ => false

/-- The place of nulls, if the direction gives one. -/
def nulls : Direction → Option NullPlace
  | ascNullsFirst | descNullsFirst => some .first
  | ascNullsLast | descNullsLast => some .last
  | _ => none

/-- The place of nulls in memory: without a place of their own they count as the greatest value. -/
def nullPlace (d : Direction) : NullPlace :=
  d.nulls.getD (if d.ascending then .last else .first)

/-- The direction that enumerates in exactly the opposite order. -/
def reverse : Direction → Direction
  | asc => desc
  | desc => asc
  | ascNullsFirst => descNullsLast
  | ascNullsLast => descNullsFirst
  | descNullsFirst => ascNullsLast
  | descNullsLast => ascNullsFirst

/-- Ascending for descending and back, nulls in their place. -/
def toggle : Direction → Direction
  | asc => desc
  | desc => asc
  | ascNullsFirst => descNullsFirst
  | ascNullsLast => descNullsLast
  | descNullsFirst => ascNullsFirst
  | descNullsLast => ascNullsLast

@[simp] theorem reverse_reverse (d : Direction) : d.reverse.reverse = d := by
  cases d <;> rfl

@[simp] theorem toggle_toggle (d : Direction) : d.toggle.toggle = d := by
  cases d <;> rfl

@[simp] theorem ascending_reverse (d : Direction) : d.reverse.ascending = !d.ascending := by
  cases d <;> rfl

@[simp] theorem nullPlace_reverse (d : Direction) : d.reverse.nullPlace = d.nullPlace.flip := by
  cases d <;> rfl

end Direction

end Sieve
