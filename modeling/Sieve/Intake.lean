import Sieve.Error
import Sieve.Text.Blank
import Sieve.Value.Order
/-!
# Intake of typed data

Reading integers, texts, truth values, choices and lists from values that came from outside. Values
of a neighbouring kind are taken where nothing is lost: the text of an integer, a whole double, the
octets of a text, the members of an enumeration.

* `Intake.integer`, `Intake.text`, `Intake.flag` and `Intake.choice` read one value;
* `Intake.list` reads every item of a list and collects the complaints about all of them.

Main statements: `integer_int`, `text_text`, `flag_bool`, `list_nil`.
-/

namespace Sieve

namespace Intake

/-- The outcome of reading: a value or complaints. -/
abbrev Outcome (α : Type) := Except (List Detail) α

/-- A single complaint. -/
def complain {α : Type} (path kind message : String) : Outcome α :=
  .error [⟨path, kind, message⟩]

/-- The text that octets write, if they do. -/
def textOfOctets? (octets : List UInt8) : Option String :=
  String.fromUTF8? ⟨octets.toArray⟩

/-! ### Integers -/

/-- The characters after the zeros and underscores in front, but not a last or pointed zero. -/
def dropZeros (last : Char) : List Char → Option (List Char)
  | [] => some [last]
  | c :: r =>
    if c = '0' ∨ c = '_' then dropZeros c r
    else if c.isDigit then some (c :: r)
    else if c = '.' then some (last :: c :: r)
    else none

/-- The characters of an integer without a plus sign and needless zeros in front. -/
def significant? (s : List Char) : Option (List Char) :=
  match s with
  | '+' :: '-' :: _ => none
  | '+' :: r | r =>
    match r with
    | '0' :: t => dropZeros '0' t
    | c :: t => if c.isDigit ∨ c = '-' then some (c :: t) else none
    | [] => none

/-- The characters of a number without its fraction, which must be zero. -/
def whole? (s : List Char) : Option (List Char) :=
  match s.dropWhile (· != '.') with
  | '.' :: r => if r.all (· == '0') then some (s.takeWhile (· != '.')) else none
  | _ => some s

/-- The characters without the underscores, which stand single and inside. -/
def ungrouped? (s : List Char) : Option (List Char) :=
  if s.contains '_' then
    if s.head? = some '_' ∨ s.getLast? = some '_' ∨ Value.isInfix ['_', '_'] s then none
    else some (s.filter (· != '_'))
  else some s

/-- The sign and the digits of an integer without needless zeros in front. -/
def signedDigits? (s : List Char) : Option (Bool × List Char) :=
  let (negative, ds) := match s with
    | '-' :: r => (true, r)
    | r => (false, r)
  if ds.all Char.isDigit ∧ ds ≠ [] ∧ (ds.head? ≠ some '0' ∨ ds.length = 1) then
    some (negative, ds)
  else none

/-- The complaint about a text that has no characters in some place. -/
def notUnicode {α : Type} (path : String) : Outcome α :=
  complain path "string_unicode"
    "Input should be a valid string, unable to parse raw data as a unicode string"

/-- The integer that a text writes. -/
def integerOfText (path : String) (s : String) : Outcome Int :=
  let digits := do
    signedDigits? (← ungrouped? (← whole? (← significant? (Text.trim Text.isSpacing s.toList))))
  match digits with
  | some (negative, ds) =>
    if Numeral.maxDigits < ds.length then
      complain path "int_parsing_size"
        "Unable to parse input string as an integer, exceeded maximum size"
    else .ok (Numeral.signed negative (Numeral.ofDigits ds))
  | none =>
    complain path "int_parsing"
      "Input should be a valid integer, unable to parse string as an integer"

/-- The complaint about a number with a fraction. -/
def fractional {α : Type} (path : String) : Outcome α :=
  complain path "int_from_float" "Input should be a valid integer, got a number with a fractional part"

/-- The complaint about what is no finite number. -/
def unbounded {α : Type} (path : String) : Outcome α :=
  complain path "finite_number" "Input should be a finite number"

/-- The integer that a double is. -/
def integerOfFloat (path : String) (x : Binary64) : Outcome Int :=
  match x with
  | .finite .. =>
    match x.toInt? with
    | some i =>
      if i.natAbs ≤ Int64.maxValue.toInt then .ok i
      else complain path "int_parsing_size"
        "Unable to parse input string as an integer, exceeded maximum size"
    | none => fractional path
  | _ => unbounded path

/-- The integer that a decimal is. -/
def integerOfDecimal (path : String) (d : Decimal) : Outcome Int :=
  match d with
  | .finite negative c e =>
    if 0 ≤ e then .ok (Numeral.signed negative (c * Power.ten e))
    else if c = 0 then .ok 0
    else if -e ≤ (Decimal.digitCount c : Int) ∧ c % Power.ten (-e) = 0 then
      .ok (Numeral.signed negative (c / Power.ten (-e)))
    else fractional path
  | _ => unbounded path

/-- The integer that a value is. The value of a member of an enumeration is taken as it is. -/
def integer (path : String) : Value → Outcome Value
  | .int i => .ok (.int i)
  | .bool b => .ok (.int (if b then 1 else 0))
  | .float x => .int <$> integerOfFloat path x
  | .decimal d => .int <$> integerOfDecimal path d
  | .text s => .int <$> integerOfText path s
  | .broken _ => notUnicode path
  | .bytes b =>
    match textOfOctets? b with
    | some s => .int <$> integerOfText path s
    | none =>
      complain path "int_parsing"
        "Input should be a valid integer, unable to parse string as an integer"
  | .member v => .ok v
  | _ => complain path "int_type" "Input should be a valid integer"

@[simp] theorem integer_int (path : String) (i : Int) : integer path (.int i) = .ok (.int i) := rfl

/-- The integer that a value is, at least 1. -/
def positive (path : String) (v : Value) : Outcome Value := do
  let n ← integer path v
  match n with
  | .int i => if i < 1 then tooSmall else return n
  | .bool b => if b then return n else tooSmall
  | _ => complain path "int_type" "Input should be a valid integer"
where
  /-- The complaint about an integer below 1. -/
  tooSmall : Outcome Value :=
    complain path "greater_than_equal" "Input should be greater than or equal to 1"

/-! ### Texts -/

/-- The text that a value is. -/
def text (path : String) : Value → Outcome String
  | .text s => .ok s
  | .broken _ => notUnicode path
  | .bytes b =>
    match textOfOctets? b with
    | some s => .ok s
    | none => notUnicode path
  | .member v => .ok v.render
  | _ => complain path "string_type" "Input should be a valid string"

@[simp] theorem text_text (path s : String) : text path (.text s) = .ok s := rfl

/-! ### Truth values -/

/-- The words for true. -/
def trueWords : List String := ["1", "on", "t", "true", "y", "yes"]

/-- The words for false. -/
def falseWords : List String := ["0", "off", "f", "false", "n", "no"]

/-- The complaint about a value that is neither true nor false. -/
def undecided {α : Type} (path : String) : Outcome α :=
  complain path "bool_parsing" "Input should be a valid boolean, unable to interpret input"

/-- The complaint about a value of which no truth is asked. -/
def noTruth {α : Type} (path : String) : Outcome α :=
  complain path "bool_type" "Input should be a valid boolean"

/-- The truth value that a text writes in any case. -/
def flagOfText (path : String) (s : String) : Outcome Bool :=
  let t := s.toList.map Char.toLower
  if trueWords.any (·.toList == t) then .ok true
  else if falseWords.any (·.toList == t) then .ok false
  else undecided path

/-- The truth value that a double is: one or zero. -/
def flagOfFloat (path : String) (x : Binary64) : Outcome Bool :=
  match integerOfFloat path x with
  | .ok 0 => .ok false
  | .ok 1 => .ok true
  | .ok _ => undecided path
  | .error _ => noTruth path

/-- The double nearest to a decimal. -/
def nearest : Decimal → Binary64
  | .finite negative c e => Binary64.ofScientific ⟨negative, c, e⟩
  | .infinite negative => .infinite negative
  | .nan .. => .nan

/-- The truth value that a value is. -/
def flag (path : String) : Value → Outcome Bool
  | .bool b => .ok b
  | .int 0 => .ok false
  | .int 1 => .ok true
  | .int i =>
    if Int64.minValue.toInt ≤ i ∧ i ≤ Int64.maxValue.toInt then undecided path else noTruth path
  | .float x => flagOfFloat path x
  | .decimal d => flagOfFloat path (nearest d)
  | .text s => flagOfText path s
  | .broken _ => notUnicode path
  | .bytes b =>
    match textOfOctets? b with
    | some s => flagOfText path s
    | none => undecided path
  | _ => noTruth path

@[simp] theorem flag_bool (path : String) (b : Bool) : flag path (.bool b) = .ok b := rfl

/-! ### Choices -/

/-- Words in quotes with commas between them and `or` before the last one. -/
def alternatives : List String → String
  | [] => ""
  | [w] => "'" ++ w ++ "'"
  | [w, z] => "'" ++ w ++ "' or '" ++ z ++ "'"
  | w :: ws => "'" ++ w ++ "', " ++ alternatives ws

/-- The word that a value is, out of a list of words. -/
def choice (path : String) (words : List String) : Value → Outcome String
  | .text s =>
    if words.contains s then .ok s
    else complain path "literal_error" ("Input should be " ++ alternatives words)
  | .broken _ => notUnicode path
  | _ => complain path "literal_error" ("Input should be " ++ alternatives words)

/-! ### Lists -/

/-- The results of reading all items, or the complaints about all items. -/
def collect {α : Type} : List (Outcome α) → Outcome (List α)
  | [] => .ok []
  | .ok a :: r =>
    match collect r with
    | .ok as => .ok (a :: as)
    | .error ds => .error ds
  | .error ds :: r =>
    match collect r with
    | .ok _ => .error ds
    | .error es => .error (ds ++ es)

/-- The path of an item. -/
def itemPath (path : String) (i : Nat) : String :=
  path ++ "." ++ String.ofList (Numeral.digitsOf i)

/-- The list that a value is, with every item read at its own path. -/
def list {α : Type} (path : String) (item : String → Value → Outcome α) (v : Value) :
    Outcome (List α) :=
  match v with
  | .list xs | .tuple xs | .set xs =>
    collect (xs.zipIdx.map fun e => item (itemPath path e.2) e.1)
  | _ => complain path "list_type" "Input should be a valid list"

@[simp] theorem list_nil {α : Type} (path : String) (item : String → Value → Outcome α) :
    list path item (.list []) = .ok [] := rfl

/-- A single text stands for the list of it. -/
def single : Value → Value
  | .text s => .list [.text s]
  | .broken t => .list [.broken t]
  | v => v

/-- A value that may be null. -/
def optional {α : Type} (read : Value → Outcome α) (v : Value) : Outcome (Option α) :=
  if v.isNull then .ok none else some <$> read v

end Intake

end Sieve
