import Sieve.Error
import Sieve.Text.Case
/-!
# Placeholders

A text may hold placeholders for variables of the environment, with a default after a colon.

* `Environment.fill` replaces the placeholders of a text. What they are replaced by is not looked
  into.

Main statement: `fillFrom_nil`.
-/

namespace Sieve

/-- The variables of the environment. -/
abbrev Environment := List (String × String)

namespace Environment

/-- What a placeholder is replaced by: the variable, or else the default after the first colon. -/
def valueOf (env : Environment) (inner : List Char) : Except Error (List Char) :=
  match env.lookup (String.ofList (inner.takeWhile (· != ':'))) with
  | some s => .ok s.toList
  | none =>
    match inner.dropWhile (· != ':') with
    | _ :: default => .ok default
    | [] => .error (.unresolvedPlaceholder (String.ofList inner))

/-- The placeholder that a text goes on with after a dollar sign, without its braces. -/
def placeholder? : List Char → Option (List Char)
  | '\x7b' :: r =>
    let inner := r.takeWhile (· != '\x7d')
    if inner.isEmpty || inner.length == r.length then none else some inner
  | _ => none

/-- The text with its placeholders replaced; the first `skip` characters belong to one that is. -/
def fillFrom (env : Environment) (skip : Nat) : List Char → Except Error (List Char)
  | [] => .ok []
  | c :: r =>
    match skip with
    | skip + 1 => fillFrom env skip r
    | 0 =>
      match if c = '$' then placeholder? r else none with
      | none => do return c :: (← fillFrom env 0 r)
      | some inner => do
        let value ← env.valueOf inner
        return value ++ (← fillFrom env (inner.length + 2) r)

@[simp] theorem fillFrom_nil (env : Environment) (skip : Nat) : fillFrom env skip [] = .ok [] := by
  simp [fillFrom]

/-- The text with its placeholders replaced. -/
def fill (env : Environment) (s : String) : Except Error String := do
  return String.ofList (← fillFrom env 0 s.toList)

end Environment

end Sieve
