import Sieve.Validation.Checking
import Sieve.Options
import Sieve.Params
import Sieve.Coercion
/-!
# Checking pagination

Every strategy has its own parameters, and a request uses one strategy.

* `Validation.conflict` refuses parameters of two strategies;
* `Validation.size` checks a number of rows against the limits in force;
* `Validation.token` decodes a cursor token and checks that it fits the ordering;
* `Validation.pagination` checks the parameters of the strategy in use.

Main statements: `conflict_empty`, `size_absent`.
-/

namespace Sieve

namespace Validation

/-- The strategy in use; parameters of two strategies are refused at once. -/
def conflict (p : Pagination) : Except Error (Option Strategy) :=
  match p.used with
  | [] => .ok none
  | [s] => .ok (some s)
  | s :: rest => .error (.strategyConflict (p.givenParameter s) ((s :: rest).map Strategy.name))

@[simp] theorem conflict_empty : conflict .empty = .ok none := rfl

/-- A number that is out of its bounds: it is replaced where options say so, and else complained
about, for which the message has to be written. -/
def replace (o : Options) (name : String) (n replacement : Value) (message : Except Error String) :
    Checking Value :=
  if o.replaces then do
    Checking.report (.paramReplaced name n replacement)
    return replacement
  else do
    Checking.complain name (← Checking.lift message)
    return n

/-- The words for a number above a greatest one. -/
def tooGreat (greatest : Value) : Except Error String := do
  return "must be less than or equal to " ++ (← greatest.written)

/-- The complaint about a number of rows that is missing but required. -/
def require (name : String) (required : Bool) (n : Value) : Checking Unit :=
  if required && n.isNull then Checking.complain name "can't be blank" else pure ()

/-- Checks a number of rows; without one the default limit is taken. -/
def size (o : Options) (name : String) (required : Bool) (given : Value) : Checking Value := do
  let n := Options.setting given o.defaultLimit
  if n.isNull then
    require name required n
    return .null
  else if ← Checking.lift (n.precedes true (.int 0)) then
    let r ← replace o name n o.defaultLimit (.ok "must be greater than 0")
    require name required r
    return r
  else if o.maxLimit.isNull then return n
  else if ← Checking.lift (o.maxLimit.precedes false n) then
    replace o name n o.maxLimit (tooGreat o.maxLimit)
  else return n

/-- Without a number, a default and a need for one there is nothing to check. -/
@[simp] theorem size_absent (o : Options) (name : String) (h : o.defaultLimit = .null) :
    size o name false .null = pure .null := by
  simp [size, h, require, Options.setting, Value.isNull]
  rfl

/-- Checks a number that has a least value, which stands in for a missing one. -/
def atLeast (o : Options) (name : String) (least : Value) (tooLow : Value → Except Error Bool)
    (message : String) (given : Value) : Checking Value := do
  if given.isNull then return least
  else if ← Checking.lift (tooLow given) then replace o name given least (.ok message)
  else return given

/-! ### Cursor tokens -/

/-- The value of a cursor in the storage type of its field. Fields that are not read off a row take
any value. -/
def typedValue (schema : Option Schema) (field : String) (v : Value) : Except Error Value :=
  match schema.bind (·.get? field) with
  | some (.plain _ t) | some (.join _ _ _ _ t _) => t.coerce v
  | _ => .ok v

/-- A failure of a conversion. Those of arithmetic and of operations on wrong kinds count as a value
that does not fit. -/
def unfit (e : Error) : Error :=
  match e.fault? with
  | some .badType | some .overflow | some .divisionByZero | some .invalidOperation => .malformed
  | _ => e

/-- An entry of a token with its value in the storage type of its field. -/
def typedEntry (schema : Option Schema) (e : RawText × Value) : Except Error (RawText × Value) :=
  match e.1.whole? with
  | some field => do return (e.1, ← (typedValue schema field e.2).mapError unfit)
  | none => .ok e

/-- The entries of a token, with values in the storage types of their fields. -/
def typedCursor (schema : Option Schema) (token : Value) : Except Error RawCursor := do
  (← Cursor.decodeValue token).mapM (typedEntry schema)

/-- Whether a failure is that of a token that does not decode or does not fit its fields. -/
def spoils (e : Error) : Bool :=
  match e with
  | .invalidCursor _ => true
  | e => e.fault?.any [.badValue, .badCharacter].contains

/-- Checks a token: it decodes, its values fit their fields, and its fields are those to order
by. A token that does not decode or fit ends the check at once. -/
def token (schema : Option Schema) (o : Options) (name : String) (orderBy : Option (List String))
    (given : Value) : Checking (Value × Option Cursor) :=
  if given.isNull || (orderBy.getD []).isEmpty then return (given, none)
  else
    let drop (reason : String) : Checking (Value × Option Cursor) := do
      Checking.report (.paramDropped name reason)
      return (.null, none)
    match typedCursor schema given with
    | .error e =>
      if !spoils e then Checking.fail e
      else if o.replaces then drop "is invalid"
      else Checking.fail (.invalidToken name (schema.map (·.name)))
    | .ok c =>
      if (c.map (·.1)).isPerm ((orderBy.getD []).map .whole) then return (given, some c.whole)
      else if o.replaces then drop "does not match order fields"
      else do
        Checking.complain name "does not match order fields"
        return (given, none)

/-! ### Strategies -/

/-- The parameters with the number of rows of a strategy. -/
def sized (p : Pagination) (n : Value) : Strategy → Pagination
  | .first => { p with first := n }
  | .last => { p with last := n }
  | .page => { p with pageSize := n }
  | .offset => { p with limit := n }

/-- The parameters of the default strategy, if one is in force and its size is known. -/
def standIn (o : Options) (p : Pagination) : Pagination × Option Strategy :=
  match o.defaultPaginationType with
  | none => (p, none)
  | some s => if o.defaultLimit.isNull then (p, none) else (sized p o.defaultLimit s, some s)

/-- Whether options admit a strategy. A limit without an offset, or with the offset zero, is always
admitted. -/
def admits (o : Options) (p : Pagination) (s : Strategy) : Bool :=
  match o.paginationTypes with
  | none => true
  | some types => types.contains s || (s == .offset && !p.offset.truthy)

/-- The parameter that the complaint about a strategy is made under, and the complaint. -/
def notAdmitted : Strategy → String × String
  | .first => ("first", "cursor-based pagination with first/after is not allowed")
  | .last => ("last", "cursor-based pagination with last/before is not allowed")
  | .offset => ("offset", "offset-based pagination is not allowed")
  | .page => ("page", "page-based pagination is not allowed")

/-- The complaint about a missing ordering. -/
def requireOrder (orderBy : Option (List String)) : Checking Unit :=
  if (orderBy.getD []).isEmpty then Checking.complain "order_by" "can't be blank" else pure ()

/-- Checks the parameters of a strategy. -/
def parameters (schema : Option Schema) (o : Options) (orderBy : Option (List String))
    (p : Pagination) : Option Strategy → Checking (Pagination × Option Cursor)
  | some .first => do
    let n ← size o "first" true p.first
    requireOrder orderBy
    let (after, cursor) ← token schema o "after" orderBy p.after
    return ({ p with first := n, after := after }, cursor)
  | some .last => do
    let n ← size o "last" true p.last
    requireOrder orderBy
    let (before, cursor) ← token schema o "before" orderBy p.before
    return ({ p with last := n, before := before }, cursor)
  | some .page => do
    let n ← size o "page_size" true p.pageSize
    let page ← atLeast o "page" (.int 1) (·.precedes true (.int 0)) "must be greater than 0" p.page
    return ({ p with page := page, pageSize := n }, none)
  | some .offset => do
    let n ← size o "limit" false p.limit
    let offset ← atLeast o "offset" (.int 0) (·.precedes false (.int 0))
      "must be greater than or equal to 0" p.offset
    return ({ p with limit := n, offset := offset }, none)
  | none => return ({ p with limit := o.defaultLimit }, none)

/-- Checks pagination. -/
def pagination (schema : Option Schema) (o : Options) (orderBy : Option (List String))
    (p : Pagination) (used : Option Strategy) : Checking (Pagination × Option Cursor) :=
  let (p, strategy) := if used.isSome then (p, used) else standIn o p
  match strategy with
  | none => parameters schema o orderBy p none
  | some s =>
    if admits o p s then parameters schema o orderBy p (some s)
    else do
      let (name, message) := notAdmitted s
      Checking.complain name message
      return (p, none)

end Validation

end Sieve
