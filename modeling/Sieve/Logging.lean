import Sieve.Logging.Severity
import Sieve.Config
/-!
# Log output

Where the events of the library go: a handler on the logger of the library writes them, one after
the other, in one of two formats. The configuration says in which, and sets levels.

* `LogOutput` is the state of the output, `LogOutput.configure` sets it up;
* `LogOutput.accepts` says whether an event is written, `LogOutput.document` is what is written in
  the format `json`, and `LogOutput.lines` counts the lines that are written otherwise.

Main statements: `configure_installed`, `accepts_initial`.
-/

namespace Sieve

/-- How events are written. -/
inductive Renderer
  | json
  | console
  deriving DecidableEq, Repr, Inhabited

/-- The renderer of a format; formats with other names are written to the console. -/
def Renderer.ofFormat (format : String) : Renderer :=
  if format = "json" then .json else .console

/-- A handler, which is told from others by its number. -/
structure Handler where
  /-- The number. -/
  number : Nat
  /-- How it writes. -/
  renderer : Renderer
  deriving DecidableEq, Repr, Inhabited

/-- The state of the log output. -/
structure LogOutput where
  /-- The name of the level of the library. -/
  level : String
  /-- The name of the format. -/
  format : String
  /-- The names of the levels of further loggers, by their keys. -/
  named : List (Value × String)
  /-- The levels. -/
  loggers : Loggers
  /-- The handlers on the logger of the library. -/
  handlers : List Handler
  /-- The handler that counts as that of the output. -/
  own : Option Handler
  /-- How many handlers were made. -/
  made : Nat
  deriving Inhabited

namespace LogOutput

/-- The logger of the library. -/
def root : String := "pysift"

/-- The state before any configuration. -/
def initial : LogOutput := ⟨"INFO", "console", [], .initial, [], none, 0⟩

/-- The names of the levels of further loggers. -/
def modules (o : LogOutput) : List (String × String) :=
  o.named.map fun e => (e.1.render, e.2)

/-- Whether a handler is installed. -/
def installed (o : LogOutput) : Bool :=
  !o.handlers.isEmpty

/-- Sets the level of a logger; a word that cannot be read changes nothing. -/
def setLevel (o : LogOutput) (name word : String) : LogOutput :=
  match o.loggers.assign (.text name) word with
  | .ok loggers => { o with loggers := loggers }
  | .error _ => o

/-- The name of the level of the library in a configuration, in upper case. -/
def rootWord (c : Config) (env : Environment) : String :=
  Text.upper (((Settings.get? (c.part env "pysift.logging.level") (.text "root")).map
    Value.render).getD "INFO")

/-- The names of the levels of further loggers in a configuration, in upper case. -/
def moduleWords (c : Config) (env : Environment) : List (Value × String) :=
  ((c.part env "pysift.logging.level").filter (·.1 ≠ .text "root")).map fun e =>
    (e.1, Text.upper e.2.render)

/-- The name of the format for a setting, in lower case. -/
def formatWord (setting : Option Value) : String :=
  Text.lower ((setting.map Value.render).getD "console")

/-- The state with the names of levels that a configuration gives. -/
def withWords (o : LogOutput) (c : Config) (env : Environment) : LogOutput :=
  { o with level := rootWord c env, named := moduleWords c env }

/-- The handlers without the one of the output. -/
def strangers (o : LogOutput) : List Handler :=
  match o.own with
  | some h => o.handlers.erase h
  | none => o.handlers

/-- The state with a new handler in the place of that of the output, and the named levels set. The new
handler counts as that of the output once the level of the library is set. -/
def install (o : LogOutput) (format : String) : LogOutput × Option Error :=
  let h : Handler := ⟨o.made, .ofFormat format⟩
  let o := { o with format := format, handlers := o.strangers ++ [h], made := o.made + 1 }
  match Severity.read o.level with
  | .error e => (o, some e)
  | .ok s =>
    let (loggers, failure) := (o.loggers.set root s).assignAll o.named
    ({ o with own := some h, loggers := loggers }, failure)

/-- Sets the output up. What was done before something goes wrong stays as it is: where the format cannot
be found out, only the names of levels change. -/
def configure (o : LogOutput) (c : Config) (env : Environment) : LogOutput × Option Error :=
  let o := o.withWords c env
  match c.get env "pysift.logging.format" with
  | .error e => (o, some e)
  | .ok v => o.install (formatWord v)

theorem install_installed (o : LogOutput) (format : String) :
    (o.install format).1.installed = true := by
  unfold install
  dsimp only
  split <;> simp [installed]

/-- Unless something goes wrong a handler is installed. -/
theorem configure_installed {o p : LogOutput} {c : Config} {env : Environment}
    (h : o.configure c env = (p, none)) : p.installed = true := by
  unfold configure at h
  split at h
  · simp at h
  · rw [← install_installed (o.withWords c env), h]

/-! ### Events -/

/-- Whether a logger belongs to the library. -/
def isOwn (name : String) : Bool :=
  name == root || name.startsWith (root ++ ".")

/-- Whether an event of a logger is written. -/
def accepts (o : LogOutput) (name : String) (s : Severity) : Bool :=
  o.installed && isOwn name && o.loggers.passes name s

@[simp] theorem accepts_initial (name : String) (s : Severity) :
    initial.accepts name s = false := rfl

/-- The text of a key in a document. -/
def keyText : Value → String
  | .bool true => "true"
  | .bool false => "false"
  | .null => "null"
  | v => v.render

mutual

/-- A value as it stands in a document: what JSON does not know is written as its quoted text. -/
def written : Value → Value
  | .null => .null
  | .bool b => .bool b
  | .int i => .int i
  | .float x => .float x
  | .text s => .text s
  | .list xs => .list (writtenItems xs)
  | .tuple xs => .list (writtenItems xs)
  | .map es => .map (writtenEntries es)
  | v => .text v.renderQuoted

/-- Values as they stand in a document. -/
def writtenItems : List Value → List Value
  | [] => []
  | x :: r => written x :: writtenItems r

/-- Entries as they stand in a document. -/
def writtenEntries : List (Value × Value) → List (Value × Value)
  | [] => []
  | (k, v) :: r => (.text (keyText k), written v) :: writtenEntries r

end

/-- The document that an event of a logger is written as in the format `json`. -/
def document (name level event : String) (fields : List (String × Value)) : Value :=
  .record (fields.map (fun e => (e.1, written e.2)) ++
    [("event", .text event), ("level", .text level), ("logger", .text name)])

/-- The number of lines in a text. -/
def lineCount (s : String) : Nat :=
  1 + s.toList.count '\n'

/-- The number of lines that an event is written on in other formats. -/
def lines (event : String) (fields : List (String × Value)) : Nat :=
  (fields.map fun e =>
    match e.2 with
    | .text s => lineCount s - 1
    | _ => 0).foldl (· + ·) (lineCount event)

end LogOutput

end Sieve
