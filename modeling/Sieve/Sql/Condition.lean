import Sieve.Predicate
import Sieve.Sql.Fragment
/-!
# Conditions of SQL

A condition is what a `WHERE` clause holds. Negation never stands in front of a test: each test has
an opposite, and only groups and searches in arrays are written with `NOT`.

* `Term` is what a test reads, a column or a function of terms;
* `Test` is a single test, `Test.negate` its opposite;
* `Condition` joins tests; `Condition.negate`, `Condition.both` and `Condition.either` simplify as
  they build;
* `Condition.render` writes a condition, with parentheses only where an *or* stands in an *and*.

Main statements: `Test.negate_negate`, `Condition.negate_negate_test`, `Condition.both_nil`.
-/

namespace Sieve.Sql

/-- What a test reads. -/
inductive Term
  /-- A column of a table or of a joined table. -/
  | column (table name : String)
  /-- A function of one term. -/
  | call (function : String) (argument : Term)
  deriving DecidableEq, Repr, Inhabited

/-- The text of a term. -/
def Term.text : Term → String
  | column table name => table ++ "." ++ name
  | call function argument => function ++ "(" ++ argument.text ++ ")"

/-- The opposite of a comparison, among values that are not null. -/
def opposite : Comparison → Comparison
  | .eq => .ne
  | .ne => .eq
  | .lt => .ge
  | .le => .gt
  | .gt => .le
  | .ge => .lt

@[simp] theorem opposite_opposite (c : Comparison) : opposite (opposite c) = c := by
  cases c <;> rfl

/-- The sign of a comparison; equality has a single sign here. -/
def sign : Comparison → String
  | .eq => "="
  | c => c.name

/-- A single test. -/
inductive Test
  /-- A term compares with a parameter. -/
  | compare (t : Term) (c : Comparison) (v : Value)
  /-- A term is, or is not, a truth value; the value is written out. -/
  | flag (t : Term) (positive b : Bool)
  /-- A term is, or is not, null. -/
  | null (t : Term) (positive : Bool)
  /-- A term is, or is not, one of the values. -/
  | member (t : Term) (positive : Bool) (values : List Value)
  /-- A term matches, or does not match, a pattern. -/
  | like (t : Term) (positive : Bool) (pattern : String) (caseSensitive : Bool)
  /-- An array holds, or does not hold, a value. -/
  | holds (t : Term) (positive : Bool) (v : Value)
  deriving Inhabited

namespace Test

/-- The opposite test. -/
def negate : Test → Test
  | compare t c v => compare t (opposite c) v
  | flag t p b => flag t (!p) b
  | null t p => null t (!p)
  | member t p vs => member t (!p) vs
  | like t p s c => like t (!p) s c
  | holds t p v => holds t (!p) v

@[simp] theorem negate_negate (t : Test) : t.negate.negate = t := by
  cases t <;> simp [negate]

/-- The placeholders for the members of a list; nulls are written out. -/
def places (values : List Value) : Fragment :=
  .join ", " (values.map fun v => if v.isNull then .plain "NULL" else .bind v)

/-- Membership in a list; an empty list is a list of nulls that nothing, or everything, meets. -/
def renderMember (t : Term) (positive : Bool) (values : List Value) : Fragment :=
  match positive, values with
  | true, [] => .plain (t.text ++ " IN (NULL) AND (1 != 1)")
  | false, [] => .plain ("(" ++ t.text ++ " NOT IN (NULL) OR (1 = 1))")
  | true, vs => .plain (t.text ++ " IN ") ++ (places vs).parenthesized
  | false, vs => (.plain (t.text ++ " NOT IN ") ++ (places vs).parenthesized : Fragment).parenthesized

/-- A match with a pattern; letter case is lost on both sides if it does not count. -/
def renderLike (t : Term) (positive : Bool) (pattern : String) (caseSensitive : Bool) : Fragment :=
  let verb := if positive then " LIKE " else " NOT LIKE "
  let sides : Fragment :=
    if caseSensitive then .plain (t.text ++ verb) ++ .bind (.text pattern)
    else .plain ("lower(" ++ t.text ++ ")" ++ verb ++ "lower") ++
      (Fragment.bind (.text pattern)).parenthesized
  sides ++ .plain " ESCAPE '\\'"

/-- The text of a test. -/
def render : Test → Fragment
  | compare t c v => .plain (t.text ++ " " ++ sign c ++ " ") ++ .bind v
  | flag t p b =>
    .plain (t.text ++ " " ++ sign (if p then .eq else .ne) ++ " " ++ if b then "1" else "0")
  | null t p => .plain (t.text ++ if p then " IS NULL" else " IS NOT NULL")
  | member t p vs => renderMember t p vs
  | like t p s c => renderLike t p s c
  | holds t p v =>
    let search : Fragment := .bind v ++ .plain (" = ANY (" ++ t.text ++ ")")
    if p then search else .plain "NOT " ++ search.parenthesized

end Test

/-- What a `WHERE` clause holds. -/
inductive Condition
  /-- A constant that a group may drop. -/
  | const (b : Bool)
  /-- A constant that is written as a test and stays. -/
  | settled (b : Bool)
  /-- A test. -/
  | test (t : Test)
  /-- All conditions hold. -/
  | all (cs : List Condition)
  /-- Some condition holds. -/
  | any (cs : List Condition)
  /-- A condition does not hold. -/
  | not (c : Condition)
  deriving Inhabited

namespace Condition

/-- The opposite condition. -/
def negate : Condition → Condition
  | const b => const (!b)
  | settled b => const (!b)
  | test t => test t.negate
  | not c => c
  | c => not c

@[simp] theorem negate_negate_test (t : Test) : (test t).negate.negate = test t := by
  simp [negate]

theorem negate_negate_all (cs : List Condition) : (all cs).negate.negate = all cs := rfl

/-- Whether a condition is a given constant. -/
def isConst (b : Bool) : Condition → Bool
  | const a => a == b
  | _ => false

/-- A condition where a clause wants a test. -/
def asTest : Condition → Condition
  | const b => settled b
  | c => c

/-- The members of a group of conditions: those that say nothing are left out, one that decides the
group stands for all, and what remains alone stands for itself. -/
def group (neutral : Bool) (wrap : List Condition → Condition) (cs : List Condition) : Condition :=
  if cs.any (isConst (!neutral)) then settled (!neutral)
  else
    match cs.filter (!·.isConst neutral) with
    | [] => settled neutral
    | [c] => c
    | kept => wrap kept

/-- All conditions hold; without any, a constant that a group may drop. -/
def both (cs : List Condition) : Condition :=
  if cs.isEmpty then const true
  else group true (fun kept => all (kept.flatMap fun | all ds => ds | c => [c])) cs

/-- Some condition holds; without any, a constant that a group may drop. -/
def either (cs : List Condition) : Condition :=
  if cs.isEmpty then const false
  else group false (fun kept => any (kept.flatMap fun | any ds => ds | c => [c])) cs

@[simp] theorem both_nil : both [] = const true := rfl

@[simp] theorem either_nil : either [] = const false := rfl

/-- Whether a condition needs parentheses among the members of an *and*. -/
def isLoose : Condition → Bool
  | any _ => true
  | _ => false

mutual

/-- The text of a condition. -/
def render : Condition → Fragment
  | const b => .plain (if b then "1" else "0")
  | settled b => .plain (if b then "1 = 1" else "0 = 1")
  | test t => t.render
  | all cs => .join " AND " (renderTight cs)
  | any cs => .join " OR " (renderEach cs)
  | not c => .plain "NOT " ++ (render c).parenthesized

/-- The texts of the members of an *or*. -/
def renderEach : List Condition → List Fragment
  | [] => []
  | c :: cs => render c :: renderEach cs

/-- The texts of the members of an *and*. -/
def renderTight : List Condition → List Fragment
  | [] => []
  | c :: cs => (if c.isLoose then (render c).parenthesized else render c) :: renderTight cs

end

end Condition

end Sieve.Sql
