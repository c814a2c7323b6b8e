import Sieve.Value
import Sieve.Operator
/-!
# Errors

What can go wrong, as causes. A cause is either a *problem*, which belongs to a family, has a code
and a context and is meant for the caller, or a plain *fault* of a value or of the calling code.

* `Family` is the hierarchy of problems, `Problem` a problem as it is reported;
* `Error` lists the causes; `Error.report` gives each its wording, in one place.

Main statements: `Family.lineage_eq` and `Family.general_mem_lineage` (every family is a special
case of the general one).
-/

namespace Sieve

/-- A family of problems. -/
inductive Family
  /-- Any problem. -/
  | general
  /-- The user's input cannot be turned into a query. -/
  | rejection
  /-- The user's parameters are invalid; messages are collected per parameter. -/
  | validation
  /-- Parameters of more than one pagination strategy. -/
  | conflict
  /-- A cursor token that cannot be decoded. -/
  | cursor
  /-- A declaration is invalid. -/
  | configuration
  /-- The calling code can never succeed. -/
  | misuse
  /-- A filter without a field or an operator. -/
  | filter
  /-- A field that cannot take part in cursor pagination. -/
  | cursorField
  /-- An operator that a field cannot express. -/
  | operator
  /-- A name that no field has. -/
  | unknownField
  deriving DecidableEq, Repr, Inhabited

namespace Family

/-- The family of which a family is the nearest special case. -/
def parent : Family → Option Family
  | general => none
  | rejection => some general
  | validation => some rejection
  | conflict => some validation
  | cursor => some validation
  | configuration => some general
  | misuse => some general
  | filter => some misuse
  | cursorField => some misuse
  | operator => some misuse
  | unknownField => some misuse

/-- The family and the families it is a special case of, the nearest first. -/
def lineage : Family → List Family
  | general => [general]
  | rejection => [rejection, general]
  | validation => [validation, rejection, general]
  | conflict => [conflict, validation, rejection, general]
  | cursor => [cursor, validation, rejection, general]
  | configuration => [configuration, general]
  | misuse => [misuse, general]
  | filter => [filter, misuse, general]
  | cursorField => [cursorField, misuse, general]
  | operator => [operator, misuse, general]
  | unknownField => [unknownField, misuse, general]

/-- The lineage follows the parents. -/
theorem lineage_eq (f : Family) :
    f.lineage = f :: (f.parent.map lineage).getD [] := by
  cases f <;> rfl

theorem general_mem_lineage (f : Family) : general ∈ f.lineage := by
  cases f <;> decide

/-- Whether the problems of a family collect messages per parameter. -/
def isValidation (f : Family) : Bool :=
  f.lineage.contains validation

end Family

/-- Messages per parameter, in the order in which the parameters were found invalid. -/
abbrev Messages := List (String × List String)

namespace Messages

/-- Adds messages for a parameter after those it already has. -/
def add (m : Messages) (key : String) (texts : List String) : Messages :=
  match m with
  | [] => [(key, texts)]
  | (k, old) :: r => if k = key then (k, old ++ texts) :: r else (k, old) :: add r key texts

/-- The messages of a parameter. -/
def get (m : Messages) (key : String) : List String :=
  (m.lookup key).getD []

@[simp] theorem add_nil (key : String) (texts : List String) : add [] key texts = [(key, texts)] :=
  rfl

theorem add_ne_nil (m : Messages) (key : String) (texts : List String) :
    m.add key texts ≠ [] := by
  cases m with
  | nil => simp
  | cons e r =>
    obtain ⟨k, old⟩ := e
    unfold add
    split <;> simp

/-- The messages as data. -/
def toValue (m : Messages) : Value :=
  .record (m.map fun e => (e.1, .list (e.2.map .text)))

end Messages

/-- A problem as it is reported. -/
structure Problem where
  /-- The family. -/
  family : Family
  /-- What happened, for people. -/
  message : String
  /-- What happened, for programs. -/
  code : Option String
  /-- Further data. -/
  context : List (Value × Value)
  /-- Messages per parameter; empty unless the family is one of validation. -/
  errors : Value
  /-- The parameters that were rejected. -/
  params : Value

/-- The code of problems of a family that are given none. -/
def Family.standardCode (f : Family) : Option String :=
  if f.isValidation then some "VALIDATION_ERROR" else none

/-- The kinds of plain faults. -/
inductive Fault
  /-- A value has the wrong form. -/
  | badValue
  /-- An operation does not apply to a value. -/
  | badType
  /-- A key is missing. -/
  | missingKey
  /-- A position is missing. -/
  | missingIndex
  /-- A part of an object is missing. -/
  | missingAttribute
  /-- A number is out of range. -/
  | overflow
  /-- A division by zero. -/
  | divisionByZero
  /-- An expansion without end. -/
  | endless
  /-- A comparison with what is not a number. -/
  | invalidOperation
  /-- An argument that a statement cannot take. -/
  | badArgument
  /-- A text that has no octets. -/
  | badCharacter
  deriving DecidableEq, Repr, Inhabited

/-- What is wrong with a bound property: where, what kind, in words. -/
structure Detail where
  /-- The path of the property. -/
  path : String
  /-- The kind of complaint. -/
  kind : String
  /-- The complaint. -/
  message : String
  deriving DecidableEq, Repr

/-- A cause of failure. -/
inductive Error
  /-- A text that is no number at all is empty. -/
  | emptyNumber
  /-- A value is no number. -/
  | notANumber (v : Value)
  /-- A number is not whole. -/
  | notAnInteger (v : Value)
  /-- A value is no truth value. -/
  | notABoolean (v : Value)
  /-- A value is no text. -/
  | notAText (v : Value)
  /-- A list is needed. -/
  | notAList
  /-- A text or a list of texts is needed. -/
  | notATerm
  /-- A single value is needed. -/
  | notSingle
  /-- A value is not a word of a vocabulary. -/
  | notAMember (vocabulary : String) (v : Value)
  /-- A text cannot be read as a value of its type, or the text of a value is too long. -/
  | malformed
  /-- A text with surrogates has no octets. -/
  | unpaired
  /-- An operation does not apply to the kinds of its operands. -/
  | mismatch
  /-- A key is missing. -/
  | missingKey
  /-- A position is missing. -/
  | missingIndex
  /-- A part of an object is missing. -/
  | missingAttribute
  /-- A number is out of range. -/
  | overflow
  /-- A division by zero. -/
  | divisionByZero
  /-- An expansion without end. -/
  | endless
  /-- A comparison with what is not a number. -/
  | invalidOperation
  /-- Options that do not exist. -/
  | unknownOptions (names : List String)
  /-- A value that no cursor can hold. -/
  | unencodable (v : Value)
  /-- Parameters that are neither a map nor a request. -/
  | notParameters (v : Value)
  /-- A predicate node that nothing is known about. -/
  | unsupportedNode (name : String)
  /-- A comparison that nothing is known about. -/
  | unknownComparison (name : String)
  /-- A null or a truth value that a statement would have to order. -/
  | unorderedConstant
  /-- A placeholder whose variable is not set. -/
  | unresolvedPlaceholder (inner : String)
  /-- A model that is not bound to a section of the configuration. -/
  | unboundModel (model : String)
  /-- A section of the configuration that does not fit its model. -/
  | invalidSection (model section_ : String) (details : List Detail)
  /-- Properties or parameters that do not fit their model. -/
  | invalidModel (details : List Detail)
  /-- A filter without a field or an operator. -/
  | incompleteFilter (field op : Value)
  /-- A name that no field of the schema has. -/
  | unknownField (schema field : String)
  /-- A composite field cannot express an operator. -/
  | compositeOperator (field : String) (op : Operator)
  /-- A custom field builds its own predicates. -/
  | customOperator (field : String)
  /-- A custom field cannot be ordered on. -/
  | customOrder (field : String)
  /-- An alias field cannot take part in cursor pagination. -/
  | aliasCursor (field : String)
  /-- A cursor token cannot be decoded. -/
  | invalidCursor (token : Value)
  /-- A statement does not join a binding. -/
  | unknownBinding (binding field : String)
  /-- A statement does not select an alias. -/
  | unknownAlias (alias_ : String)
  /-- A declared storage type does not exist. -/
  | unknownStorageType (v : Value)
  /-- A declared operator does not exist. -/
  | unknownOperator (v : Value)
  /-- The text of a declared operator is too long. -/
  | unwritableOperator
  /-- A name is declared twice. -/
  | duplicateField (schema field : String)
  /-- A custom field has no filter function. -/
  | uncallableFilter (field : String)
  /-- A composite field has unknown members. -/
  | unknownMembers (schema field : String) (unknown : List String)
  /-- A declared capability names unknown fields. -/
  | undeclared (schema capability : String) (unknown : List String)
  /-- An alias field is declared filterable. -/
  | filterableAlias (field : String)
  /-- A custom field is declared sortable. -/
  | sortableCustom (field : String)
  /-- Parameters of several strategies: the first one used, and all strategies used. -/
  | strategyConflict (parameter : String) (strategies : List String)
  /-- A cursor token does not decode or does not fit its fields. -/
  | invalidToken (parameter : String) (schema : Option String)
  /-- Parameters are invalid. -/
  | invalidParameters (errors : Messages) (schema : Option String)
  deriving Inhabited

/-- How a cause is reported. -/
inductive Report
  /-- A problem. -/
  | problem (p : Problem)
  /-- A plain fault, with its wording if that is fixed, and with details of a bound model. -/
  | fault (kind : Fault) (message : Option String) (details : Option (List Detail))
  /-- A model that does not validate. -/
  | invalid (details : List Detail)

namespace Error

/-- Names with a comma and a space between them. -/
def commaNames (names : List String) : String :=
  ", ".intercalate names

/-- The words for two strategies at once. -/
def conflictMessage : String := "cannot combine multiple pagination types"

/-- A problem with a code. -/
def coded (family : Family) (code message : String) (context : List (String × Value)) : Report :=
  .problem ⟨family, message, some code, context.map fun e => (.text e.1, e.2), .map [], .null⟩

/-- A validation problem with a code and messages. -/
def collected (family : Family) (code message : String) (errors : Messages)
    (context : List (String × Value)) : Report :=
  .problem ⟨family, message, some code, context.map fun e => (.text e.1, e.2), errors.toValue,
    .null⟩

/-- A fault with a fixed wording. -/
def worded (kind : Fault) (message : String) : Report :=
  .fault kind (some message) none

/-- A fault without a fixed wording. -/
def bare (kind : Fault) : Report :=
  .fault kind none none

/-- A report in which a value is quoted; one that cannot be quoted is at fault itself. -/
def quoting (v : Value) (r : String → Report) : Report :=
  if v.isQuotable then r v.renderQuoted else bare .badValue

/-- The words for an integer with too many digits. -/
def tooManyDigits : String :=
  "Exceeds the limit (4300 digits) for integer string conversion; " ++
    "use sys.set_int_max_str_digits() to increase the limit"

/-- The name of the schema, if any, as context. -/
def schemaContext (schema : Option String) : List (String × Value) :=
  [("schema", (schema.map .text).getD .null)]

/-- A list of names as data. -/
def nameList (names : List String) : Value :=
  .list (names.map .text)

/-- The wording of each cause. -/
def report : Error → Report
  | emptyNumber => worded .badValue "empty number"
  | notANumber v => quoting v fun t => worded .badValue ("not a number: " ++ t)
  | notAnInteger v => quoting v fun t => worded .badValue ("not an integer: " ++ t)
  | notABoolean v => quoting v fun t => worded .badValue ("not a boolean: " ++ t)
  | notAText v => quoting v fun t => worded .badValue ("not a string: " ++ t)
  | notAList => worded .badValue "must be a list"
  | notATerm => worded .badValue "must be a string or a list of strings"
  | notSingle => worded .badValue "must be a single value"
  | notAMember vocabulary v =>
    quoting v fun t => worded .badValue (t ++ " is not a valid " ++ vocabulary)
  | malformed => bare .badValue
  | unpaired => bare .badCharacter
  | mismatch => bare .badType
  | missingKey => bare .missingKey
  | missingIndex => bare .missingIndex
  | missingAttribute => bare .missingAttribute
  | overflow => bare .overflow
  | divisionByZero => bare .divisionByZero
  | endless => bare .endless
  | invalidOperation => bare .invalidOperation
  | unknownOptions names => worded .badType ("Unknown query option(s): " ++ commaNames names)
  | unencodable v =>
    worded .badType ("Cannot encode value of type " ++ v.kindName ++ " in a cursor")
  | notParameters v =>
    worded .badType ("Query parameters must be a mapping or a Request, got " ++ v.kindName)
  | unsupportedNode name => worded .badType ("Unsupported predicate node: " ++ name)
  | unknownComparison name => worded .badValue ("Unknown comparison operator: " ++ name)
  | unorderedConstant => bare .badArgument
  | unresolvedPlaceholder inner =>
    worded .badValue
      ("Cannot resolve placeholder '$\x7b" ++ inner ++ "\x7d': not found in environment")
  | unboundModel model => worded .badValue (model ++ " is not decorated with @config_properties")
  | invalidSection model section_ details =>
    .fault .badValue
      (some ("Configuration validation failed for '" ++ model ++ "' (prefix='" ++ section_ ++ "'):"))
      (some details)
  | invalidModel details => .invalid details
  | incompleteFilter field op =>
    coded .filter "INVALID_FILTER" "A filter needs both a field and an operator"
      [("field", field), ("op", op)]
  | unknownField schema field =>
    coded .unknownField "UNKNOWN_FIELD"
      ("Unknown field '" ++ field ++ "' in schema '" ++ schema ++ "'") [("schema", .text schema), ("field", .text field)]
  | compositeOperator field op =>
    coded .operator "UNSUPPORTED_COMPOSITE_OPERATOR"
      ("Operator '" ++ op.name ++ "' is not supported for composite field '" ++ field ++ "'")
      [("field", .text field), ("op", .text op.name)]
  | customOperator field =>
    coded .operator "CUSTOM_FIELD"
      ("Custom field '" ++ field ++ "' is filtered by its own filter function") []
  | customOrder field =>
    coded .operator "SORTABLE_CUSTOM" ("Custom field '" ++ field ++ "' cannot be ordered on") []
  | aliasCursor field =>
    coded .cursorField "ALIAS_CURSOR_FIELD"
      ("Alias field '" ++ field ++ "' cannot be used in cursor pagination")
      [("field", .text field)]
  | invalidCursor token =>
    collected .cursor "INVALID_CURSOR" "Invalid cursor: is invalid" [("cursor", ["is invalid"])]
      [("cursor", token)]
  | unknownBinding binding field =>
    coded .misuse "UNKNOWN_BINDING"
      ("Join binding '" ++ binding ++ "' is not part of the statement") [("field", .text field)]
  | unknownAlias alias_ =>
    coded .misuse "UNKNOWN_ALIAS"
      ("Alias field '" ++ alias_ ++ "' is not selected by the statement") []
  | unknownStorageType v =>
    quoting v fun t =>
      coded .configuration "UNKNOWN_STORAGE_TYPE" ("Unknown storage type " ++ t) []
  | unknownOperator v =>
    quoting v fun t => coded .configuration "UNKNOWN_OPERATOR" (t ++ " is not a valid Operator") []
  | unwritableOperator => coded .configuration "UNKNOWN_OPERATOR" tooManyDigits []
  | duplicateField schema field =>
    coded .configuration "DUPLICATE_FIELD"
      ("Field '" ++ field ++ "' is declared more than once in schema '" ++ schema ++ "'")
      [("schema", .text schema), ("field", .text field)]
  | uncallableFilter field =>
    coded .configuration "INVALID_CUSTOM_FIELD"
      ("Custom field '" ++ field ++ "' needs a callable 'filter'") []
  | unknownMembers schema field unknown =>
    coded .configuration "UNKNOWN_COMPOSITE_MEMBER"
      ("Composite field '" ++ field ++ "' references unknown fields: " ++ commaNames unknown)
      [("schema", .text schema), ("field", .text field), ("unknown", nameList unknown)]
  | undeclared schema capability unknown =>
    coded .configuration "UNKNOWN_FIELD"
      ("Unknown " ++ capability ++ " fields in schema '" ++ schema ++ "': " ++ commaNames unknown)
      [("schema", .text schema), (capability, nameList unknown)]
  | filterableAlias field =>
    coded .configuration "FILTERABLE_ALIAS" ("Alias field '" ++ field ++ "' cannot be filterable") []
  | sortableCustom field =>
    coded .configuration "SORTABLE_CUSTOM" ("Custom field '" ++ field ++ "' cannot be sortable") []
  | strategyConflict parameter strategies =>
    collected .conflict "PAGINATION_CONFLICT" ("Invalid query parameters: " ++ conflictMessage)
      [(parameter, [conflictMessage])] [("pagination_types", nameList strategies)]
  | invalidToken parameter schema =>
    collected .validation "INVALID_CURSOR" "Invalid query parameters: invalid cursor"
      [(parameter, ["is invalid"])] (schemaContext schema)
  | invalidParameters errors schema =>
    collected .validation "VALIDATION_ERROR" "Invalid query parameters" errors
      (schemaContext schema)

/-- The kind of fault that a plain fault is. -/
def fault? (e : Error) : Option Fault :=
  match e.report with
  | .fault kind _ _ => some kind
  | _ => none

/-- The messages per parameter of a validation problem. -/
def messages? : Error → Option Messages
  | strategyConflict parameter _ => some [(parameter, [conflictMessage])]
  | invalidToken parameter _ => some [(parameter, ["is invalid"])]
  | invalidParameters errors _ => some errors
  | invalidCursor _ => some [("cursor", ["is invalid"])]
  | _ => none

end Error

end Sieve
