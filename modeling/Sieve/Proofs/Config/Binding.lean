import Sieve.Config
import Sieve.Proofs.Outcome

/-!
# The settings of a model and their keys

A part of a configuration is read as a model, and each field of the model also has a key of its own, under
which its setting can be looked up. Both ways lead to the same entry of the data. But a lookup asks the
environment first, whatever the data has, takes null for a missing entry and fills placeholders in; reading
a part asks the environment for the entries of the data only and takes them as they are.

* `Config.setting?`: what the data has for a field of a part;
* `Config.get_field`, `Config.get?_part`: what a lookup finds, and what a model is given;
* `Config.Agrees`: the fields for which these are the same;
* `Config.bind_agrees_iff`: models are given what a lookup finds exactly for these fields.
-/

namespace Sieve

namespace Settings

/-- A path is followed name by name. -/
theorem find?_append (v : Value) (names : List String) (name : String) :
    find? v (names ++ [name]) = (find? v names).bind (find? · [name]) := by
  induction names generalizing v with
  | nil => rfl
  | cons k ks ih =>
    cases v with
    | map es =>
      simp only [List.cons_append, find?]
      cases get? es (.text k) with
      | none => rfl
      | some w => cases w <;> first | rfl | exact ih _
    | _ => rfl

/-- What is found at one name of a map is its entry, unless that is null. -/
theorem find?_singleton (es : Settings) (name : String) :
    find? (.map es) [name] = (get? es (.text name)).filter (!·.isNull) := by
  simp only [find?]
  cases get? es (.text name) with
  | none => rfl
  | some w => cases w <;> rfl

/-- Entries that are changed by their keys and values stay under their keys. -/
theorem get?_map (g : Value × Value → Value) (es : Settings) (key : Value) :
    get? (es.map fun e => (e.1, g e)) key = (get? es key).map fun v => g (key, v) := by
  induction es with
  | nil => rfl
  | cons e es ih =>
    obtain ⟨k, v⟩ := e
    by_cases hk : k = key
    · simp [get?, hk]
    · simp [get?, hk, ih]

end Settings

namespace Config

variable {c : Config} {env : Environment} {key field : String}

/-- What the data has for a field of a part. -/
def setting? (c : Config) (key field : String) : Option Value :=
  match c.find? key with
  | some (.map es) => Settings.get? es (.text field)
  | _ => none

/-- The key of a field of a part. -/
def fieldKey (key field : String) : String :=
  key ++ "." ++ field

/-- The key of a field leads through the part. -/
theorem path_fieldKey (key : String) (hfield : '.' ∉ field.toList) :
    path (fieldKey key field) = path key ++ [field] := by
  have hdots : ∀ ch ∈ field.toList, (ch == '.') = false := by
    intro ch hch
    rw [beq_eq_false_iff_ne]
    rintro rfl
    exact hfield hch
  have hsplit : (fieldKey key field).toList.splitOn '.' = key.toList.splitOn '.' ++ [field.toList] := by
    have hkey : (fieldKey key field).toList = key.toList ++ '.' :: field.toList := by
      simp [fieldKey]
    rw [hkey, List.splitOn, List.splitOnP_append_cons (p := (· == '.')) _ _ rfl,
      List.splitOnP_eq_singleton hdots]
    rfl
  rw [path, hsplit, List.map_append, List.map_singleton, String.ofList_toList]
  rfl

theorem find?_fieldKey (c : Config) (key : String) (hfield : '.' ∉ field.toList) :
    c.find? (fieldKey key field) = (c.setting? key field).filter (!·.isNull) := by
  rw [find?, path_fieldKey key hfield, Settings.find?_append, setting?, find?]
  cases Settings.find? (.map c.data) (path key) with
  | none => rfl
  | some v =>
    cases v with
    | map es => exact Settings.find?_singleton es field
    | _ => rfl

/-- What a lookup finds for a field: its variable, or else the entry of the data, with placeholders filled
in. -/
theorem get_field (c : Config) (env : Environment) (key : String) (hfield : '.' ∉ field.toList) :
    c.get env (fieldKey key field) =
      match env.lookup (variableOf (fieldKey key field)) with
      | some s => .ok (some (.text s))
      | none =>
        match (c.setting? key field).filter (!·.isNull) with
        | none => .ok none
        | some v => some <$> resolved env v := by
  have hget : c.get env (fieldKey key field) =
      match env.lookup (variableOf (fieldKey key field)) with
      | some s => .ok (some (.text s))
      | none =>
        match c.find? (fieldKey key field) with
        | none => .ok none
        | some v => some <$> resolved env v := rfl
  rw [hget, find?_fieldKey c key hfield]

/-- What a model is given for a field: an entry of the data, or else nothing. The variable stands in for an
entry only. -/
theorem get?_part (c : Config) (env : Environment) (key field : String) :
    Settings.get? (c.part env key) (.text field) = (c.setting? key field).map
      (((env.lookup (variableOf (fieldKey key field))).map .text).getD ·) := by
  unfold part setting?
  cases c.find? key with
  | none => rfl
  | some v =>
    cases v with
    | map es =>
      have hmap := Settings.get?_map
        (fun e => ((env.lookup (variableOf (fieldKey key e.1.render))).map .text).getD e.2) es
        (.text field)
      simp only [Value.render_text] at hmap
      exact hmap
    | _ => rfl

/-- A model is given for a field what a lookup finds: the data has an entry for it, which its variable
overrides or which is not null and the same with placeholders filled in, or there is neither an entry nor a
variable. -/
inductive Agrees (c : Config) (env : Environment) (key field : String) : Prop
  | overridden {s : String} {v : Value}
      (hvariable : env.lookup (variableOf (fieldKey key field)) = some s)
      (hentry : c.setting? key field = some v)
  | plain {v : Value} (hvariable : env.lookup (variableOf (fieldKey key field)) = none)
      (hentry : c.setting? key field = some v) (hgiven : v ≠ .null) (hplain : resolved env v = .ok v)
  | missing (hvariable : env.lookup (variableOf (fieldKey key field)) = none)
      (hentry : c.setting? key field = none)

theorem get_eq_part_iff (c : Config) (env : Environment) (key : String)
    (hfield : '.' ∉ field.toList) :
    c.get env (fieldKey key field) = .ok (Settings.get? (c.part env key) (.text field)) ↔
      c.Agrees env key field := by
  rw [get_field c env key hfield, get?_part]
  cases hvariable : env.lookup (variableOf (fieldKey key field)) with
  | some s =>
    cases hentry : c.setting? key field with
    | none =>
      refine iff_of_false nofun fun h => ?_
      cases h <;> simp_all
    | some v => exact iff_of_true rfl (.overridden hvariable hentry)
  | none =>
    cases hentry : c.setting? key field with
    | none => exact iff_of_true rfl (.missing hvariable hentry)
    | some v =>
      by_cases hnull : v = .null
      · subst hnull
        refine iff_of_false nofun fun h => ?_
        cases h <;> simp_all
      · have hgiven : (some v).filter (!·.isNull) = some v := by
          simp [mt Value.isNull_iff.1 hnull]
        simp only [hgiven, Option.map_some, Option.map_none, Option.getD_none]
        constructor
        · intro h
          obtain ⟨w, hw, hv⟩ := Outcome.map_eq_ok_iff.1 h
          cases hv
          exact .plain hvariable hentry hnull hw
        · intro h
          cases h with
          | overridden hset => cases hset.symm.trans hvariable
          | missing _ hmissing => cases hmissing.symm.trans hentry
          | plain _ hsame _ hplain =>
            obtain rfl : _ = v := Option.some.inj (hsame.symm.trans hentry)
            rw [hplain]
            rfl

/-- A model reads its part of the configuration. -/
theorem bind_read {α : Type} {m : Model α} (hkey : m.key = some key) :
    c.bind env m = (m.read (c.part env key)).mapError (.invalidSection m.name key) := by
  unfold bind
  rw [hkey]
  dsimp only
  cases m.read (c.part env key) <;> rfl

/-- **Models are given what lookups find, except where a lookup does more.** A model reads a part of the
configuration. What the part has for a field is what is found at the key of the field exactly if the
variable of the field is set only over an entry of the data, and an entry without a variable is not null and
without placeholders that are filled in. -/
theorem bind_agrees_iff (c : Config) (env : Environment) (key : String) :
    (∀ {α : Type} (m : Model α), m.key = some key →
      c.bind env m = (m.read (c.part env key)).mapError (.invalidSection m.name key)) ∧
    ∀ field : String, '.' ∉ field.toList →
      (c.get env (fieldKey key field) = .ok (Settings.get? (c.part env key) (.text field)) ↔
        c.Agrees env key field) :=
  ⟨fun _ => bind_read, fun _ => get_eq_part_iff c env key⟩

/-- A configuration with some settings of a page. -/
def ofPage (settings : Settings) : Config :=
  ofData [(.text "app", .map [(.text "page", .map settings)])]

/-- The model of the title of a page, which takes what it is given. -/
def titleModel : Model (Option Value) :=
  ⟨"Title", some "app.page", fun es => .ok (Settings.get? es (.text "title"))⟩

@[simp] theorem setting?_ofPage (settings : Settings) (field : String) :
    (ofPage settings).setting? "app.page" field = Settings.get? settings (.text field) := by
  have hpath : path "app.page" = ["app", "page"] := by decide
  simp [setting?, find?, hpath, ofPage, ofData, Settings.find?, Settings.get?]

/-- The environment sets the size of a page and leaves its title. -/
theorem bind_agrees_iff_title :
    let c := ofPage [(.text "title", .text "home"), (.text "size", .int 3)]
    let env : Environment := [("PYSIFT_APP_PAGE_SIZE", "4")]
    c.get env (fieldKey "app.page" "title") = c.bind env titleModel ∧
    c.bind env titleModel = .ok (some (.text "home")) ∧
    c.get env (fieldKey "app.page" "size") =
      .ok (Settings.get? (c.part env "app.page") (.text "size")) ∧
    c.get env (fieldKey "app.page" "size") = .ok (some (.text "4")) := by
  intro c env
  have htitle : c.setting? "app.page" "title" = some (.text "home") := by simp [c, Settings.get?]
  have hsize : c.setting? "app.page" "size" = some (.int 3) := by simp [c, Settings.get?]
  have hset : env.lookup (variableOf (fieldKey "app.page" "size")) = some "4" := by decide +kernel
  have hunset : env.lookup (variableOf (fieldKey "app.page" "title")) = none := by decide +kernel
  obtain ⟨hread, hagrees⟩ := bind_agrees_iff c env "app.page"
  have hgiven : c.bind env titleModel = .ok (some (.text "home")) := by
    rw [hread titleModel rfl]
    show Except.ok (Settings.get? (c.part env "app.page") (.text "title")) = _
    rw [get?_part, htitle, hunset]
    rfl
  refine ⟨?_, hgiven, (hagrees "size" (by decide)).2 (.overridden hset hsize), get_variable hset⟩
  rw [hread titleModel rfl]
  exact (hagrees "title" (by decide)).2 (.plain hunset htitle (by simp) rfl)

/-- What is bound to the model of a title is what the page has for it. -/
theorem bind_title (settings : Settings) (env : Environment) :
    (ofPage settings).bind env titleModel = .ok ((Settings.get? settings (.text "title")).map
      (((env.lookup (variableOf (fieldKey "app.page" "title"))).map .text).getD ·)) := by
  rw [bind_read rfl]
  show Except.ok (Settings.get? ((ofPage settings).part env "app.page") (.text "title")) = _
  rw [get?_part, setting?_ofPage]

/-- **Models are not given what lookups find** for a text with a placeholder, for a variable without an
entry, and for null. -/
theorem bind_differs :
    let key := fieldKey "app.page" "title"
    let placeheld := ofPage [(.text "title", .text "$\x7bTITLE:home\x7d")]
    placeheld.get [] key = .ok (some (.text "home")) ∧
    placeheld.bind [] titleModel = .ok (some (.text "$\x7bTITLE:home\x7d")) ∧
    (ofPage []).get [(variableOf key, "home")] key = .ok (some (.text "home")) ∧
    (ofPage []).bind [(variableOf key, "home")] titleModel = .ok none ∧
    (ofPage [(.text "title", .null)]).get [] key = .ok none ∧
    (ofPage [(.text "title", .null)]).bind [] titleModel = .ok (some .null) := by
  intro key placeheld
  have hfield : '.' ∉ "title".toList := by decide
  refine ⟨?_, ?_, get_variable (by simp), ?_, ?_, ?_⟩
  · rw [get_field _ _ _ hfield, setting?_ofPage]
    simp only [Settings.get?, if_true]
    rfl
  · simp [placeheld, bind_title, Settings.get?]
  · simp [bind_title, Settings.get?]
  · rw [get_field _ _ _ hfield, setting?_ofPage]
    simp only [Settings.get?, if_true]
    rfl
  · simp [bind_title, Settings.get?]

end Config

end Sieve
