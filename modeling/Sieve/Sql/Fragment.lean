import Sieve.Value
/-!
# Fragments of SQL

A piece of a statement is its text together with the values of its placeholders, in the order in
which the placeholders stand in the text.

* `Fragment` is a piece of text with parameters; `++` joins two;
* `Fragment.bind` is a placeholder for a value;
* `Fragment.join` puts a separator between fragments.

Main statements: `text_append`, `params_append`, `params_join`.
-/

namespace Sieve.Sql

/-- A piece of a statement with the values of its placeholders. -/
structure Fragment where
  /-- The text. -/
  text : String
  /-- The values of the placeholders in the text, in order. -/
  params : List Value
  deriving Inhabited

namespace Fragment

instance : Append Fragment := ⟨fun a b => ⟨a.text ++ b.text, a.params ++ b.params⟩⟩

@[simp] theorem text_append (a b : Fragment) : (a ++ b).text = a.text ++ b.text := rfl

@[simp] theorem params_append (a b : Fragment) : (a ++ b).params = a.params ++ b.params := rfl

/-- Text without placeholders. -/
def plain (text : String) : Fragment := ⟨text, []⟩

@[simp] theorem params_plain (text : String) : (plain text).params = [] := rfl

/-- A placeholder for a value. -/
def bind (v : Value) : Fragment := ⟨"?", [v]⟩

/-- No text at all. -/
def empty : Fragment := plain ""

/-- The fragments with a separator between each two. -/
def join (separator : String) : List Fragment → Fragment
  | [] => empty
  | [f] => f
  | f :: fs => f ++ plain separator ++ join separator fs

theorem params_join (separator : String) (fs : List Fragment) :
    (join separator fs).params = fs.flatMap params := by
  induction fs with
  | nil => rfl
  | cons f fs ih => cases fs <;> simp_all [join]

/-- A fragment in parentheses. -/
def parenthesized (f : Fragment) : Fragment :=
  plain "(" ++ f ++ plain ")"

@[simp] theorem params_parenthesized (f : Fragment) : f.parenthesized.params = f.params := by
  simp [parenthesized]

end Fragment

end Sieve.Sql
