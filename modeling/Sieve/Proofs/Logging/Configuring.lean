import Sieve.Proofs.Logging.Levels

/-!
# Configuring the log output again and again

A configuration that is applied replaces what an earlier one has said: the names of levels, the format, the
handler, and the levels of the loggers that it names. Two things it does not replace. A module that an
earlier configuration named, and this one does not, keeps its level. And a configuration that breaks off at
the word for the level of the library has put its handler up by then but does not count it as its own, so
that nothing takes it down.

* `LogOutput.run`: configurations one after the other, whether they break off or not;
* `LogOutput.HandlerStep`, `LogOutput.Tidy`: what one of them does to the handlers, and how many are left
  behind by a run;
* `LogOutput.configure_done`: the state behind a configuration that does not break off;
* `LogOutput.Superseded`: the levels left over by earlier configurations make no difference;
* `LogOutput.alike_after_run_iff`: when the last configuration alone decides.
-/

namespace Sieve

namespace LogOutput

open Loggers

variable {o f : LogOutput} {c : Config} {env : Environment}

/-- Configurations applied one after the other, each with its environment. What one of them has done before
it breaks off stays. -/
def run (o : LogOutput) (steps : List (Config × Environment)) : LogOutput :=
  steps.foldl (fun o step => (o.configure step.1 step.2).1) o

/-- The levels that a configuration sets, that of the library first. -/
def words (c : Config) (env : Environment) : List (Value × String) :=
  (.text root, rootWord c env) :: moduleWords c env

/-- A configuration breaks off at the word for the level of the library, with its handler put up. -/
def abandons (c : Config) (env : Environment) : Bool :=
  match c.get env "pysift.logging.format", Severity.read (rootWord c env) with
  | .ok _, .error _ => true
  | _, _ => false

theorem abandons_of_read {s : Severity} (h : Severity.read (rootWord c env) = .ok s) :
    abandons c env = false := by
  rw [abandons, h]
  cases c.get env "pysift.logging.format" <;> rfl

theorem abandons_of_misread {v : Option Value} {e : Error}
    (hv : c.get env "pysift.logging.format" = .ok v)
    (h : Severity.read (rootWord c env) = .error e) : abandons c env = true := by
  rw [abandons, hv, h]

/-! ### One configuration -/

theorem configure_of_format {e : Error} (h : c.get env "pysift.logging.format" = .error e)
    (o : LogOutput) : o.configure c env = (o.withWords c env, some e) := by
  rw [configure, h]

theorem configure_of_misread {v : Option Value} {e : Error}
    (hv : c.get env "pysift.logging.format" = .ok v)
    (h : Severity.read (rootWord c env) = .error e) (o : LogOutput) :
    o.configure c env =
      (⟨rootWord c env, formatWord v, moduleWords c env, o.loggers,
        o.strangers ++ [⟨o.made, .ofFormat (formatWord v)⟩], o.own, o.made + 1⟩, some e) := by
  simp only [configure, hv, install, withWords, h]
  rfl

theorem configure_of_read {v : Option Value} {s : Severity}
    (hv : c.get env "pysift.logging.format" = .ok v)
    (h : Severity.read (rootWord c env) = .ok s) (o : LogOutput) :
    o.configure c env =
      (⟨rootWord c env, formatWord v, moduleWords c env, (o.loggers.assignAll (words c env)).1,
        o.strangers ++ [⟨o.made, .ofFormat (formatWord v)⟩],
        some ⟨o.made, .ofFormat (formatWord v)⟩, o.made + 1⟩,
        (o.loggers.assignAll (words c env)).2) := by
  have hwords : o.loggers.assignAll (words c env) =
      (o.loggers.set root s).assignAll (moduleWords c env) := by
    simp [words, assignAll, assign, nameOf, h, bind, Except.bind, pure, Except.pure]
  simp only [configure, hv, install, withWords, h, hwords]
  rfl

/-! ### Handlers -/

/-- What a configuration does to the handlers: nothing, or it puts a new one in the place of that of the
output. If it is abandoned, the new one does not count as that of the output. -/
inductive HandlerStep (o p : LogOutput) : Bool → Prop
  | kept (hhandlers : p.handlers = o.handlers) (hown : p.own = o.own) (hmade : p.made = o.made) :
      HandlerStep o p false
  | abandoned (h : Handler) (hnumber : h.number = o.made)
      (hhandlers : p.handlers = o.strangers ++ [h]) (hown : p.own = o.own)
      (hmade : p.made = o.made + 1) : HandlerStep o p true
  | replaced (h : Handler) (hnumber : h.number = o.made)
      (hhandlers : p.handlers = o.strangers ++ [h]) (hown : p.own = some h)
      (hmade : p.made = o.made + 1) : HandlerStep o p false

theorem configure_handlerStep (o : LogOutput) (c : Config) (env : Environment) :
    HandlerStep o (o.configure c env).1 (abandons c env) := by
  cases hv : c.get env "pysift.logging.format" with
  | error e =>
    rw [configure_of_format hv, abandons, hv]
    exact .kept rfl rfl rfl
  | ok v =>
    cases hread : Severity.read (rootWord c env) with
    | error e =>
      rw [configure_of_misread hv hread, abandons_of_misread hv hread]
      exact .abandoned _ rfl rfl rfl rfl
    | ok s =>
      rw [configure_of_read hv hread, abandons_of_read hread]
      exact .replaced _ rfl rfl rfl rfl

theorem strangers_of_not_mem (h : ∀ g, o.own = some g → g ∉ o.handlers) :
    o.strangers = o.handlers := by
  rw [strangers]
  cases hown : o.own with
  | none => rfl
  | some g => exact List.erase_of_not_mem (h g hown)

theorem strangers_of_last {g : Handler} {others : List Handler} (hown : o.own = some g)
    (hhandlers : o.handlers = others ++ [g]) (hnew : g ∉ others) : o.strangers = others := by
  rw [strangers, hown, hhandlers]
  show (others ++ [g]).erase g = others
  rw [List.erase_append_right _ hnew, List.erase_cons_head, List.append_nil]

/-- A run has left behind a number of handlers that are not that of the output, and the next handler that is
made is none of them. -/
structure Tidy (o : LogOutput) (left : Nat) : Prop where
  length : o.strangers.length = left
  older : ∀ h ∈ o.strangers, h.number < o.made
  own : ∀ h, o.own = some h → h.number < o.made ∧ h ∉ o.strangers

theorem initial_tidy : initial.Tidy 0 :=
  ⟨rfl, nofun, nofun⟩

theorem Tidy.step {left : Nat} {p : LogOutput} {b : Bool} (ho : o.Tidy left)
    (h : HandlerStep o p b) : p.Tidy (left + b.toNat) := by
  obtain ⟨hlength, holder, hown⟩ := ho
  cases h with
  | kept hhandlers howns hmade =>
    have hsame : p.strangers = o.strangers := by simp [strangers, hhandlers, howns]
    exact ⟨hsame ▸ hlength, by rwa [hsame, hmade], by rwa [hsame, howns, hmade]⟩
  | abandoned h hnumber hhandlers howns hmade =>
    -- the own handler was taken down, and is not the new one either
    have hdown : ∀ g, p.own = some g → g.number < o.made ∧ g ∉ p.handlers := by
      intro g hg
      obtain ⟨hlt, hgs⟩ := hown g (howns ▸ hg)
      refine ⟨hlt, fun hmem => ?_⟩
      obtain hmem | rfl : g ∈ o.strangers ∨ g = h := by simpa [hhandlers] using hmem
      · exact hgs hmem
      · omega
    have hsame : p.strangers = p.handlers := strangers_of_not_mem fun g hg => (hdown g hg).2
    refine ⟨by simp [hsame, hhandlers, hlength], fun g hg => ?_, fun g hg => ?_⟩
    · obtain hg | rfl : g ∈ o.strangers ∨ g = h := by simpa [hsame, hhandlers] using hg
      · have := holder g hg
        omega
      · omega
    · obtain ⟨hlt, hgs⟩ := hdown g hg
      exact ⟨by omega, hsame ▸ hgs⟩
  | replaced h hnumber hhandlers howns hmade =>
    have hnew : h ∉ o.strangers := by
      intro hmem
      have := holder h hmem
      omega
    have hsame : p.strangers = o.strangers := strangers_of_last howns hhandlers hnew
    refine ⟨hsame ▸ hlength, fun g hg => ?_, fun g hg => ?_⟩
    · have := holder g (hsame ▸ hg)
      omega
    · obtain rfl : h = g := Option.some.inj (howns.symm.trans hg)
      exact ⟨by omega, hsame ▸ hnew⟩

/-- A run leaves one handler behind for each configuration that was abandoned. -/
theorem Tidy.run {left : Nat} (ho : o.Tidy left) (steps : List (Config × Environment)) :
    (o.run steps).Tidy (left + steps.countP fun step => abandons step.1 step.2) := by
  induction steps generalizing o left with
  | nil => exact ho
  | cons step steps ih =>
    have hcount : left + (step :: steps).countP (fun step => abandons step.1 step.2) =
        left + (abandons step.1 step.2).toNat +
          steps.countP fun step => abandons step.1 step.2 := by
      rw [List.countP_cons]
      cases abandons step.1 step.2
      · rfl
      · simp only [if_true, Bool.toNat_true]
        omega
    rw [hcount]
    exact ih (ho.step (configure_handlerStep o step.1 step.2))

/-! ### The state behind a configuration -/

/-- Whether a configuration breaks off does not depend on the state. -/
theorem configure_failure (o f : LogOutput) (c : Config) (env : Environment) :
    (o.configure c env).2 = (f.configure c env).2 := by
  cases hv : c.get env "pysift.logging.format" with
  | error e => rw [configure_of_format hv, configure_of_format hv]
  | ok v =>
    cases hread : Severity.read (rootWord c env) with
    | error e => rw [configure_of_misread hv hread, configure_of_misread hv hread]
    | ok s =>
      rw [configure_of_read hv hread, configure_of_read hv hread]
      dsimp only
      exact assignAll_failure _ _ _

/-- What a configuration leaves that does not break off. -/
structure Done (o p : LogOutput) (c : Config) (env : Environment) : Prop where
  level : p.level = rootWord c env
  format : ∃ v, c.get env "pysift.logging.format" = .ok v ∧ p.format = formatWord v
  named : p.named = moduleWords c env
  set : (o.loggers.assignAll (words c env)).2 = none
  loggers : p.loggers = (o.loggers.assignAll (words c env)).1
  own : p.own = some ⟨o.made, .ofFormat p.format⟩
  handlers : p.handlers = o.strangers ++ [⟨o.made, .ofFormat p.format⟩]

theorem configure_done {p : LogOutput} (h : o.configure c env = (p, none)) : Done o p c env := by
  cases hv : c.get env "pysift.logging.format" with
  | error e =>
    rw [configure_of_format hv] at h
    cases h
  | ok v =>
    cases hread : Severity.read (rootWord c env) with
    | error e =>
      rw [configure_of_misread hv hread] at h
      cases h
    | ok s =>
      rw [configure_of_read hv hread, Prod.mk.injEq] at h
      obtain ⟨rfl, hset⟩ := h
      refine ⟨?_, ⟨v, hv, rfl⟩, ?_, hset, ?_, ?_, ?_⟩ <;> dsimp only

theorem Done.format_eq {p q : LogOutput} (hp : Done o p c env) (hq : Done f q c env) :
    p.format = q.format := by
  obtain ⟨v, hv, hformat⟩ := hp.format
  obtain ⟨w, hw, hformat'⟩ := hq.format
  cases hv.symm.trans hw
  exact hformat.trans hformat'.symm

theorem Done.renderer_eq {p q : LogOutput} (hp : Done o p c env) (hq : Done f q c env) :
    p.own.map Handler.renderer = q.own.map Handler.renderer := by
  rw [hp.own, hq.own, hp.format_eq hq]
  rfl

/-- Loggers that a configuration does not name keep their levels. -/
theorem own?_configure_of_not_names {name : String} (h : ¬ Names (words c env) name) (o : LogOutput) :
    (o.configure c env).1.loggers.own? name = o.loggers.own? name := by
  cases hv : c.get env "pysift.logging.format" with
  | error e =>
    rw [configure_of_format hv]
    rfl
  | ok v =>
    cases hread : Severity.read (rootWord c env) with
    | error e => rw [configure_of_misread hv hread]
    | ok s =>
      rw [configure_of_read hv hread]
      dsimp only
      exact own?_assignAll_of_not_names h o.loggers

theorem own?_run_of_not_names {name : String} {steps : List (Config × Environment)}
    (h : ∀ step ∈ steps, ¬ Names (words step.1 step.2) name) (o : LogOutput) :
    (o.run steps).loggers.own? name = o.loggers.own? name := by
  induction steps generalizing o with
  | nil => rfl
  | cons step steps ih =>
    rw [← own?_configure_of_not_names (h step (.head _)) o]
    exact ih (fun step hstep => h step (.tail _ hstep)) _

/-! ### The last configuration -/

/-- Two outputs write the same events in the same way, the first with one handler. -/
structure Alike (o f : LogOutput) : Prop where
  levels : ∀ name, isOwn name = true → o.loggers.level name = f.loggers.level name
  renderer : o.own.map Handler.renderer = f.own.map Handler.renderer
  handler : ∃ h, o.own = some h ∧ o.handlers = [h]

/-- The levels that are left over from earlier configurations make no difference to a configuration, which
leaves `f` where there was none: a module that it does not name has the level that it would have anyway,
and so has the logger above all others where the library inherits from it. -/
structure Superseded (o : LogOutput) (c : Config) (env : Environment) (f : LogOutput) : Prop where
  modules : ∀ name, isOwn name = true → ¬ Names (words c env) name →
    ∀ s, o.loggers.own? name = some s → s = f.loggers.level name
  top : f.loggers.own? root = none → ¬ Names (words c env) "" →
    o.loggers.level "" = initial.loggers.level ""

theorem names_root (c : Config) (env : Environment) : Names (words c env) root :=
  ⟨_, .head _, root, rfl, rfl⟩

theorem own?_initial {name : String} (h : isOwn name = true) :
    initial.loggers.own? name = none := by
  have hkey : (key name == "") = false := by simpa using key_of_isOwn h
  simp [initial, Loggers.initial, own?, List.lookup_cons, hkey]

/-- After a run there is one handler, and one more for each configuration that was abandoned. -/
theorem Done.handlers_length {p : LogOutput} {before : List (Config × Environment)}
    (hp : Done (initial.run before) p c env) :
    p.handlers.length = 1 + before.countP fun step => abandons step.1 step.2 := by
  rw [hp.handlers, List.length_append, (initial_tidy.run before).length, Nat.zero_add, Nat.add_comm]
  rfl

/-- The levels in force are those that the last configuration gives alone, exactly if those that are left
over make no difference. -/
theorem Done.levels_iff {p : LogOutput} (hp : Done o p c env) (hf : Done initial f c env) :
    (∀ name, isOwn name = true → p.loggers.level name = f.loggers.level name) ↔
      o.Superseded c env f := by
  have hset : ∀ name, Names (words c env) name → p.loggers.own? name = f.loggers.own? name := by
    intro name hname
    rw [hp.loggers, hf.loggers]
    exact own?_assignAll_of_names hname hp.set _
  have hkept : ∀ name, ¬ Names (words c env) name → p.loggers.own? name = o.loggers.own? name ∧
      f.loggers.own? name = initial.loggers.own? name := by
    intro name hname
    rw [hp.loggers, hf.loggers]
    exact ⟨own?_assignAll_of_not_names hname _, own?_assignAll_of_not_names hname _⟩
  have hunset : ∀ name, isOwn name = true → ¬ Names (words c env) name →
      f.loggers.own? name = none :=
    fun name hown hname => (hkept name hname).2.trans (own?_initial hown)
  have htop : p.loggers.level "" = f.loggers.level "" ↔
      (¬ Names (words c env) "" → o.loggers.level "" = initial.loggers.level "") := by
    simp only [level_top]
    by_cases hname : Names (words c env) ""
    · simp [hset "" hname, hname]
    · simp [hkept "" hname, hname]
  rw [levels_agree_iff (names_root c env) hset hunset, htop]
  constructor
  · rintro ⟨hleft, hroot⟩
    refine ⟨fun name hown hname s hs => hleft name hown hname s ?_, hroot⟩
    rwa [(hkept name hname).1]
  · rintro ⟨hleft, hroot⟩
    refine ⟨fun name hown hname s hs => hleft name hown hname s ?_, hroot⟩
    rwa [(hkept name hname).1] at hs

/-- Where earlier configurations set no loggers but those that the last one sets, nothing is left over. -/
theorem superseded_of_names {before : List (Config × Environment)} (f : LogOutput)
    (h : ∀ step ∈ before, ∀ name, Names (words step.1 step.2) name → Names (words c env) name) :
    (initial.run before).Superseded c env f := by
  have hunset : ∀ name, ¬ Names (words c env) name →
      (initial.run before).loggers.own? name = initial.loggers.own? name := by
    intro name hname
    exact own?_run_of_not_names (fun step hstep hnames => hname (h step hstep name hnames)) _
  refine ⟨fun name hown hname s hs => ?_, fun _ hname => ?_⟩
  · rw [hunset name hname, own?_initial hown] at hs
    cases hs
  · rw [level_top, level_top, hunset "" hname]

/-- **The last configuration decides, except for what earlier ones leave over.** After any configurations,
one that does not break off for untouched loggers does not break off either. It gives the same names of
levels, the same format and the same level of the library, and it puts up one handler with the same
renderer. The output is then that of the last configuration alone exactly if no earlier one was abandoned
and the levels left over by them make no difference. -/
theorem alike_after_run_iff (before : List (Config × Environment))
    (hf : initial.configure c env = (f, none)) :
    ∃ o, (initial.run before).configure c env = (o, none) ∧
      o.level = f.level ∧ o.format = f.format ∧ o.named = f.named ∧
      o.loggers.own? root = f.loggers.own? root ∧
      o.own.map Handler.renderer = f.own.map Handler.renderer ∧
      o.handlers.length = 1 + before.countP (fun step => abandons step.1 step.2) ∧
      (o.Alike f ↔ (∀ step ∈ before, abandons step.1 step.2 = false) ∧
        (initial.run before).Superseded c env f) := by
  rcases ho : (initial.run before).configure c env with ⟨o, failure⟩
  obtain rfl : failure = none := by
    have hsame := configure_failure (initial.run before) initial c env
    rwa [ho, hf] at hsame
  have hlast := configure_done ho
  have hfresh := configure_done hf
  have hroot : o.loggers.own? root = f.loggers.own? root := by
    rw [hlast.loggers, hfresh.loggers]
    exact own?_assignAll_of_names (names_root c env) hlast.set _
  have hcount := hlast.handlers_length
  refine ⟨o, rfl, hlast.level.trans hfresh.level.symm, hlast.format_eq hfresh,
    hlast.named.trans hfresh.named.symm, hroot, hlast.renderer_eq hfresh, hcount, ?_⟩
  have hnone : o.handlers.length = 1 ↔ ∀ step ∈ before, abandons step.1 step.2 = false := by
    rw [hcount, Nat.add_eq_left, List.countP_eq_zero]
    simp
  rw [← hnone, ← hlast.levels_iff hfresh]
  constructor
  · rintro ⟨hlevels, -, h, -, hhandlers⟩
    exact ⟨by rw [hhandlers, List.length_singleton], hlevels⟩
  · rintro ⟨hlength, hlevels⟩
    refine ⟨hlevels, hlast.renderer_eq hfresh, _, hlast.own, ?_⟩
    rw [hlast.handlers, List.length_append, List.length_singleton, Nat.add_eq_right,
      List.length_eq_zero_iff] at hlength
    rw [hlast.handlers, hlength, List.nil_append]

/-! ### Configurations of levels -/

/-- A configuration of nothing but levels. -/
def ofLevels (levels : Settings) : Config :=
  .ofData [(.text "pysift", .map [(.text "logging", .map [(.text "level", .map levels)])])]

@[simp] theorem part_ofLevels (levels : Settings) :
    (ofLevels levels).part [] "pysift.logging.level" = levels := by
  have hpath : Config.path "pysift.logging.level" = ["pysift", "logging", "level"] := by decide
  simp [Config.part, Config.find?, hpath, ofLevels, Config.ofData, Settings.find?, Settings.get?]

@[simp] theorem get_ofLevels (levels : Settings) :
    (ofLevels levels).get [] "pysift.logging.format" = .ok none := by
  have hpath : Config.path "pysift.logging.format" = ["pysift", "logging", "format"] := by decide
  simp [Config.get, Config.find?, hpath, ofLevels, Config.ofData, Settings.find?, Settings.get?]

@[simp] theorem rootWord_ofLevels_root (word : String) :
    rootWord (ofLevels [(.text "root", .text word)]) [] = Text.upper word := by
  simp [rootWord, Settings.get?]

@[simp] theorem moduleWords_ofLevels_root (word : String) :
    moduleWords (ofLevels [(.text "root", .text word)]) [] = [] := by
  simp [moduleWords]

theorem upper_debug : Text.upper "DEBUG" = "DEBUG" := rfl

theorem upper_error : Text.upper "ERROR" = "ERROR" := rfl

theorem read_upper {word : String} (h : Text.upper word = word)
    (hmisread : Severity.misread.lookup word = none) :
    Severity.read word = .ok ((Severity.ofName? word).getD 20) := by
  rw [Severity.read, Severity.ofWord, h, hmisread]

theorem formatWord_none : formatWord none = "console" := rfl

/-- The level of the library is set to that of errors. -/
theorem configure_error (o : LogOutput) :
    o.configure (ofLevels [(.text "root", .text "ERROR")]) [] =
      (⟨"ERROR", "console", [], o.loggers.set root 40, o.strangers ++ [⟨o.made, .console⟩],
        some ⟨o.made, .console⟩, o.made + 1⟩, none) := by
  have hword : rootWord (ofLevels [(.text "root", .text "ERROR")]) [] = "ERROR" := by
    rw [rootWord_ofLevels_root, upper_error]
  have hread : Severity.read "ERROR" = .ok 40 := read_upper upper_error rfl
  rw [configure_of_read (get_ofLevels _) (hword.symm ▸ hread), words, hword,
    moduleWords_ofLevels_root, formatWord_none, assignAll, assign, nameOf, hread]
  rfl

/-- Two levels of the library, one after the other. -/
theorem alike_after_run_iff_error :
    ∃ o, (initial.run [(ofLevels [(.text "root", .text "DEBUG")], [])]).configure
        (ofLevels [(.text "root", .text "ERROR")]) [] = (o, none) ∧
      o.Alike ⟨"ERROR", "console", [], initial.loggers.set root 40, [⟨0, .console⟩],
        some ⟨0, .console⟩, 1⟩ := by
  obtain ⟨o, ho, -, -, -, -, -, -, hiff⟩ :=
    alike_after_run_iff [(ofLevels [(.text "root", .text "DEBUG")], [])] (configure_error initial)
  refine ⟨o, ho, hiff.2 ⟨?_, superseded_of_names _ ?_⟩⟩
  · intro step hstep
    rw [List.mem_singleton.1 hstep]
    apply abandons_of_read
    rw [rootWord_ofLevels_root, upper_debug]
    exact read_upper upper_debug rfl
  · rintro step hstep name ⟨m, hm, other, hother, hkey⟩
    rw [List.mem_singleton.1 hstep, words, moduleWords_ofLevels_root, List.mem_singleton] at hm
    subst hm
    exact ⟨_, .head _, other, hother, hkey⟩

/-- **An earlier configuration is not undone** in the level of a module that the last one does not name,
and in the handler that it has left where it broke off. -/
theorem configure_leaves_over :
    let last := ofLevels [(.text "root", .text "ERROR")]
    let naming := ofLevels [(.text "pysift.data", .text "DEBUG")]
    let broken := ofLevels [(.text "root", .text "_STYLES")]
    isOwn "pysift.data" = true ∧
    (initial.configure last []).1.loggers.level "pysift.data" = 40 ∧
    ((initial.run [(naming, [])]).configure last []).1.loggers.level "pysift.data" = 10 ∧
    (initial.configure last []).1.handlers.length = 1 ∧
    ((initial.run [(broken, [])]).configure last []).1.handlers.length = 2 := by
  intro last naming broken
  have hinfo : Text.upper "INFO" = "INFO" := rfl
  have hstyles : Text.upper "_STYLES" = "_STYLES" := rfl
  have hword : rootWord naming [] = "INFO" := by
    simp only [naming, rootWord, part_ofLevels]
    simp [Settings.get?, hinfo]
  have hnamed : moduleWords naming [] = [(.text "pysift.data", "DEBUG")] := by
    simp [naming, moduleWords, upper_debug]
  have hleft : (initial.run [(naming, [])]).loggers.own? "pysift.data" = some 10 := by
    have hinfos : Severity.read (rootWord naming []) = .ok 20 := hword ▸ read_upper hinfo rfl
    have hwords : (initial.loggers.assignAll (words naming [])).1 =
        (initial.loggers.set root 20).set "pysift.data" 10 := by
      rw [words, hword, hnamed, assignAll, assign, nameOf, read_upper hinfo rfl]
      simp only [assignAll, assign, nameOf, read_upper upper_debug rfl]
      rfl
    rw [run, List.foldl_cons, List.foldl_nil, configure_of_read (get_ofLevels _) hinfos, hwords,
      own?_set, if_pos rfl]
    rfl
  have hbroken : abandons broken [] = true := by
    have hmisread : Severity.read "_STYLES" = .error .mismatch := by
      rw [Severity.read, hstyles]
      rfl
    apply abandons_of_misread (get_ofLevels _)
    rw [rootWord_ofLevels_root, hstyles, hmisread]
  have hcount := (configure_done (configure_error (initial.run [(broken, [])]))).handlers_length
  refine ⟨?_, ?_, ?_, ?_, ?_⟩
  · rw [isOwn_iff, mem_fronts]
    decide
  · rw [configure_error]
    rfl
  · rw [configure_error]
    apply level_of_own
    rw [own?_set, if_neg (by decide), hleft]
  · rw [configure_error]
    rfl
  · rw [configure_error, hcount, List.countP_singleton, if_pos hbroken]

end LogOutput

end Sieve
