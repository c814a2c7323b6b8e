import Sieve.Error
import Sieve.Direction
import Sieve.Strategy
/-!
# Log events

What the library reports while it works. Every event has a name, a level and fields.

* `Event` lists the events, `Event.name`, `Event.level` and `Event.fields` describe them;
* `Traced` is a computation that reports events and may fail; the events reported before a failure
  are kept.

Main statements: `Traced.bind_ok`, `Traced.bind_error` and the equations of `pure`,
`fail` and `log`.
-/

namespace Sieve

/-- The level of an event. -/
inductive Level
  /-- For those who follow the work in detail. -/
  | debug
  /-- Something was ignored that the caller may have meant. -/
  | warning
  deriving DecidableEq, Repr, Inhabited

/-- The name of a level. -/
def Level.name : Level → String
  | .debug => "debug"
  | .warning => "warning"

/-- Something that is reported. -/
inductive Event
  /-- A composite field cannot express an operator; the filter is ignored. -/
  | compositeOperatorIgnored (field : String) (op : Operator)
  /-- A composite field cannot take part in a cursor; it adds no bound. -/
  | compositeCursorFieldIgnored (field : String)
  /-- An invalid parameter was dropped. -/
  | paramDropped (param reason : String)
  /-- An invalid parameter was replaced. -/
  | paramReplaced (param : String) (value replacement : Value)
  /-- An invalid filter was dropped. -/
  | filterDropped (filter : String) (errors : Messages)
  /-- Fields that are not sortable were dropped. -/
  | orderFieldsDropped (fields : List String) (schema : String)
  /-- A plan was compiled. -/
  | planCompiled (schema : Option String) (strategy : Option Strategy)
    (ordering : List (String × Direction)) (limit offset : Value)
  /-- A query was answered. -/
  | queryExecuted (schema : Option String) (rows : Nat) (totalCount : Value)
  /-- Parameters were rejected. -/
  | paramsRejected (errors : Messages)

namespace Event

/-- An optional text as data. -/
def optionalText (s : Option String) : Value :=
  (s.map .text).getD .null

/-- The name of an event. -/
def name : Event → String
  | compositeOperatorIgnored .. => "composite_operator_ignored"
  | compositeCursorFieldIgnored .. => "composite_cursor_field_ignored"
  | paramDropped .. => "invalid_param_dropped"
  | paramReplaced .. => "invalid_param_replaced"
  | filterDropped .. => "invalid_filter_dropped"
  | orderFieldsDropped .. => "invalid_order_fields_dropped"
  | planCompiled .. => "query_plan_compiled"
  | queryExecuted .. => "query_executed"
  | paramsRejected .. => "query_params_rejected"

/-- The level of an event. -/
def level : Event → Level
  | compositeOperatorIgnored .. => .warning
  | compositeCursorFieldIgnored .. => .warning
  | _ => .debug

/-- The fields of an event. -/
def fields : Event → List (String × Value)
  | compositeOperatorIgnored field op => [("field", .text field), ("op", .text op.name)]
  | compositeCursorFieldIgnored field => [("field", .text field)]
  | paramDropped param reason => [("param", .text param), ("reason", .text reason)]
  | paramReplaced param value replacement =>
    [("param", .text param), ("value", value), ("replacement", replacement)]
  | filterDropped filter errors => [("filter", .text filter), ("errors", errors.toValue)]
  | orderFieldsDropped fields schema =>
    [("fields", .list (fields.map .text)), ("schema", .text schema)]
  | planCompiled schema strategy ordering limit offset =>
    [("schema", optionalText schema), ("pagination_type", optionalText (strategy.map Strategy.name)),
      ("ordering", .list (ordering.map fun k => .tuple [.text k.1, .text k.2.name])),
      ("limit", limit), ("offset", offset)]
  | queryExecuted schema rows totalCount =>
    [("schema", optionalText schema), ("rows", .int rows), ("total_count", totalCount)]
  | paramsRejected errors => [("errors", errors.toValue)]

end Event

/-- A computation that reports events and may fail. -/
structure Traced (α : Type) where
  /-- The events, in the order they were reported. -/
  events : List Event
  /-- The outcome. -/
  outcome : Except Error α

namespace Traced

variable {α β : Type}

/-- A result without events. -/
def ok (a : α) : Traced α := ⟨[], .ok a⟩

/-- A failure without events. -/
def fail (e : Error) : Traced α := ⟨[], .error e⟩

/-- Reports an event. -/
def log (e : Event) : Traced Unit := ⟨[e], .ok ()⟩

/-- A computation that reports nothing. -/
def lift (r : Except Error α) : Traced α := ⟨[], r⟩

/-- One computation after another; the second one runs only if the first one succeeds. -/
def bind (x : Traced α) (f : α → Traced β) : Traced β :=
  match x.outcome with
  | .ok a => ⟨x.events ++ (f a).events, (f a).outcome⟩
  | .error e => ⟨x.events, .error e⟩

instance : Monad Traced where
  pure := ok
  bind := bind

instance : MonadLift (Except Error) Traced := ⟨lift⟩

instance : MonadExcept Error Traced where
  throw := fail
  tryCatch x handle :=
    match x.outcome with
    | .ok _ => x
    | .error e => ⟨x.events ++ (handle e).events, (handle e).outcome⟩

instance : Inhabited (Traced α) := ⟨fail .malformed⟩

@[simp] theorem pure_eq (a : α) : (pure a : Traced α) = ⟨[], .ok a⟩ := rfl

@[simp] theorem fail_eq (e : Error) : (fail e : Traced α) = ⟨[], .error e⟩ := rfl

@[simp] theorem throw_eq (e : Error) : (throw e : Traced α) = ⟨[], .error e⟩ := rfl

@[simp] theorem log_eq (e : Event) : log e = ⟨[e], .ok ()⟩ := rfl

@[simp] theorem lift_eq (r : Except Error α) : (liftM r : Traced α) = ⟨[], r⟩ := rfl

/-- After a success the events of both computations are reported, in order. -/
@[simp] theorem bind_ok (events : List Event) (a : α) (f : α → Traced β) :
    ((⟨events, .ok a⟩ : Traced α) >>= f) = ⟨events ++ (f a).events, (f a).outcome⟩ := rfl

/-- After a failure nothing else happens. -/
@[simp] theorem bind_error (events : List Event) (e : Error) (f : α → Traced β) :
    ((⟨events, .error e⟩ : Traced α) >>= f) = ⟨events, .error e⟩ := rfl

end Traced

end Sieve
