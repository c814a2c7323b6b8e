import Sieve.Json
/-!
# Access to JSON data

Parts of JSON data that is expected to have a certain form. What does not have the form counts as
empty.

* `Json.field?` and `Json.given?` find a field of an object;
* `Json.items`, `Json.entries` and `Json.string` are the parts of arrays, objects and texts.

Main statements: `given?_null`, `items_array`.
-/

namespace Sieve

namespace Json

/-- The field of an object with a name. -/
def field? (j : Json) (name : String) : Option Json :=
  match j with
  | object es => es.lookup name
  | _ => none

/-- The field of an object, if it is there and not null. -/
def given? (j : Json) (name : String) : Option Json :=
  match j.field? name with
  | some null => none
  | r => r

@[simp] theorem given?_null (name : String) (es : List (String × Json)) :
    given? (object ((name, null) :: es)) name = none := by
  simp [given?, field?]

/-- The field of an object; a missing field is null. -/
def part (j : Json) (name : String) : Json :=
  (j.field? name).getD null

/-- A text; other data is the empty text. -/
def string : Json → String
  | text s => s
  | _ => ""

/-- The items of an array, or the characters of a text. -/
def items : Json → List Json
  | array xs => xs
  | text s => s.toList.map fun c => text (String.singleton c)
  | _ => []

@[simp] theorem items_array (xs : List Json) : items (array xs) = xs := rfl

/-- The entries of an object. -/
def entries : Json → List (String × Json)
  | object es => es
  | _ => []

/-- The texts among the items. -/
def strings (j : Json) : List String :=
  j.items.map string

/-- A field that is a text. -/
def stringAt (j : Json) (name : String) : String := (j.part name).string

/-- The items of a field. -/
def itemsAt (j : Json) (name : String) : List Json := (j.part name).items

/-- The texts of a field. -/
def stringsAt (j : Json) (name : String) : List String := (j.part name).strings

/-- A field that may be a text. -/
def string? (j : Json) (name : String) : Option String := (j.given? name).map string

/-- A field that may be a truth value. -/
def boolAt (j : Json) (name : String) (default : Bool) : Bool :=
  match j.field? name with
  | some (bool b) => b
  | _ => default

/-! ### Making JSON data -/

/-- An optional text. -/
def ofOption (s : Option String) : Json := (s.map text).getD null

/-- An array of texts. -/
def texts (xs : List String) : Json := array (xs.map text)

end Json

end Sieve
