import Sieve.Config.Tree
import Sieve.Config.Placeholder
import Sieve.Properties
/-!
# Configuration

Settings in layers: packaged defaults, settings from a file or from code, and variables of the
environment over both. A key is the path of a setting with dots in it; the variable of a key is the
key in capitals, with an underscore for each dot and dash.

* `Config.get` finds a setting, `Config.part` the settings under a key;
* `Config.bind` reads a part as a model, `Config.properties` as the properties of queries.

Main statements: `get_variable`, `bind_unbound`.
-/

namespace Sieve

/-- Settings and where they came from. -/
structure Config where
  /-- The settings. -/
  data : Settings
  /-- The names of what was loaded, in order. -/
  sources : List String
  deriving Inhabited

/-- What a part of the configuration is read as. -/
structure Model (α : Type) where
  /-- The name of the model. -/
  name : String
  /-- The key of the part, if the model has one. -/
  key : Option String
  /-- Reads the part. -/
  read : Settings → Intake.Outcome α

namespace Config

/-- The packaged settings. -/
def packaged : Settings :=
  let word (s : String) : Value := .text s
  let table (entries : List (String × Value)) : Value := .record entries
  [(word "pysift", table [
    ("logging", table [("format", word "console"), ("level", table [("root", word "INFO")])]),
    ("query", Properties.standard.toValue)])]

/-- The name of the packaged settings among the sources. -/
def packagedSource : String := "pysift-defaults.yaml (defaults)"

/-- The configuration of given settings. -/
def ofData (data : Settings) : Config := ⟨data, []⟩

/-- The configuration of the packaged settings. -/
def defaults : Config := ⟨packaged, [packagedSource]⟩

/-- The configuration of the contents of a file, if it exists, over the packaged settings or over
nothing. Contents that count as nothing are an empty map; other contents have to be a map. -/
def ofFile (withDefaults : Bool) (file : Option (String × Value)) : Except Error Config :=
  let base := if withDefaults then defaults else ofData []
  match file with
  | none => .ok base
  | some (source, v) => do
    let above ← match v with
      | .map es => pure es
      | v => if v.truthy then throw .missingAttribute else pure []
    return ⟨base.data.merge above, base.sources ++ [source]⟩

/-- The names on the way to a setting. -/
def path (key : String) : List String :=
  (key.toList.splitOn '.').map String.ofList

/-- The variable of the environment that a key is set by. -/
def variableOf (key : String) : String :=
  let local_ := if key.startsWith "pysift." then (key.drop 7).toString else key
  "PYSIFT_" ++ (Text.upper local_).map fun c => if c = '.' ∨ c = '-' then '_' else c

/-- The setting at a key, without a look at the environment. -/
def find? (c : Config) (key : String) : Option Value :=
  Settings.find? (.map c.data) (path key)

/-- The value of a setting, with placeholders in a text replaced. -/
def resolved (env : Environment) (v : Value) : Except Error Value :=
  match v with
  | .text s => do return .text (← env.fill s)
  | v => .ok v

/-- The setting at a key: that of the environment, or else that of the data. -/
def get (c : Config) (env : Environment) (key : String) : Except Error (Option Value) :=
  match env.lookup (variableOf key) with
  | some s => .ok (some (.text s))
  | none =>
    match c.find? key with
    | none => .ok none
    | some v => some <$> resolved env v

/-- A variable that is set counts before the data. -/
theorem get_variable {c : Config} {env : Environment} {key s : String}
    (h : env.lookup (variableOf key) = some s) : c.get env key = .ok (some (.text s)) := by
  simp [get, h]

/-- The settings under a key, each with the variable of its own key over it. -/
def part (c : Config) (env : Environment) (key : String) : Settings :=
  match c.find? key with
  | some (.map es) => es.map fun e =>
    (e.1, ((env.lookup (variableOf (key ++ "." ++ e.1.render))).map .text).getD e.2)
  | _ => []

/-- Reads the part of a model. -/
def bind {α : Type} (c : Config) (env : Environment) (m : Model α) : Except Error α :=
  match m.key with
  | none => .error (.unboundModel m.name)
  | some key =>
    match m.read (c.part env key) with
    | .ok a => .ok a
    | .error ds => .error (.invalidSection m.name key ds)

theorem bind_unbound {α : Type} (c : Config) (env : Environment) {m : Model α}
    (h : m.key = none) : c.bind env m = .error (.unboundModel m.name) := by
  simp [bind, h]

end Config

/-- The model of the properties of queries. -/
def Properties.model : Model Properties :=
  ⟨"QueryProperties", some "pysift.query", Properties.read⟩

/-- The properties of queries that a configuration sets. -/
def Config.properties (c : Config) (env : Environment) : Except Error Properties :=
  c.bind env Properties.model

end Sieve
