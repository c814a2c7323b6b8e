import Sieve.Event
/-!
# Checks

A check reports events, may fail at once, and collects messages about parameters on its way.

* `Checking` is the type of checks;
* `Checking.complain` adds messages, `Checking.report` reports an event.

Main statements: `run_pure`, `run_complain`, `run_report`.
-/

namespace Sieve

/-- A check that collects messages. -/
abbrev Checking := StateT Messages Traced

namespace Checking

/-- Adds a message about a parameter. -/
def complain (parameter message : String) : Checking Unit :=
  modify (·.add parameter [message])

/-- Adds all the messages. -/
def complainAll (messages : Messages) : Checking Unit :=
  modify fun m => messages.foldl (fun m e => m.add e.1 e.2) m

/-- Reports an event. -/
def report (e : Event) : Checking Unit :=
  fun m => ⟨[e], .ok ((), m)⟩

/-- Fails at once. -/
def fail {α : Type} (e : Error) : Checking α :=
  fun _ => ⟨[], .error e⟩

/-- A computation that may fail. -/
def lift {α : Type} (x : Except Error α) : Checking α :=
  fun m => ⟨[], x.map (·, m)⟩

variable {α : Type}

@[simp] theorem run_pure (a : α) (m : Messages) : (pure a : Checking α) m = ⟨[], .ok (a, m)⟩ := rfl

@[simp] theorem run_complain (parameter message : String) (m : Messages) :
    complain parameter message m = ⟨[], .ok ((), m.add parameter [message])⟩ := rfl

@[simp] theorem run_report (e : Event) (m : Messages) : report e m = ⟨[e], .ok ((), m)⟩ := rfl

end Checking

end Sieve
