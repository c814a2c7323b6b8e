import Mathlib.Data.List.Nodup
import Sieve.Proofs.Validation.Checking

/-!
# Invalid parameters are dropped alone

A model checks all parameters at once. Where it refuses them, those that it complains about are dropped, and
it checks the others again. Each refusal leaves fewer parameters, so that it accepts those that are left in
the end. If it checks its parameters independently, what is dropped are the invalid ones, and each of the
others has the value that it has alone.

* `ParameterModel.Rounds`: rounds of checking, with all complaints and what is accepted in the end;
* `ParameterModel.Independent`: the model checks its parameters independently;
* `ParameterModel.Rounds.alone`, `ParameterModel.Rounds.blamed_iff`: what rounds of such a model keep and
  drop;
* `Validation.parse_isolates`: parsing ends, and invalid parameters are dropped alone;
* `Scalars.independent_model`, `Validation.scalars_eq`: the scalar parameters of a query are such a model,
  and it takes two rounds at most.
-/

namespace Sieve

theorem Value.not_isNull_iff {v : Value} : (!v.isNull) = true ↔ v ≠ .null := by
  rw [Bool.not_eq_true', ← Bool.not_eq_true, Value.isNull_iff]

namespace Detail

variable {given : List (String × Value)} {ds : List Detail}

theorem mem_without_iff {e : String × Value} :
    e ∈ without ds given ↔ e ∈ given ∧ ∀ d ∈ ds, d.parameter ≠ e.1 := by
  simp [without]

theorem nodup_without (ds : List Detail) (hnames : (given.map Prod.fst).Nodup) :
    ((without ds given).map Prod.fst).Nodup :=
  hnames.sublist (List.filter_sublist.map _)

/-- A given parameter is left, or complained about. -/
theorem mem_without_or {e : String × Value} (h : e ∈ given) (ds : List Detail) :
    e ∈ without ds given ∨ ∃ d ∈ ds, d.parameter = e.1 := by
  by_cases hblamed : ∃ d ∈ ds, d.parameter = e.1
  · exact .inr hblamed
  · exact .inl (mem_without_iff.2 ⟨h, fun d hd hname => hblamed ⟨d, hd, hname⟩⟩)

end Detail

/-! ### Rounds -/

namespace ParameterModel

variable {α : Type} {m : ParameterModel α} {given : List (String × Value)} {ds : List Detail} {a : α}
  {name : String} {v : Value} {entries : List (Value × Value)}

/-- The parameters that a model starts from are those that it knows and that are given and not null. -/
theorem mem_given_iff : (name, v) ∈ m.given entries ↔
    name ∈ m.names ∧ Value.lookup? name entries = some v ∧ v ≠ .null := by
  unfold given
  rw [List.mem_filterMap]
  constructor
  · rintro ⟨n, hn, h⟩
    obtain ⟨w, hw, hpair⟩ := Option.map_eq_some_iff.1 h
    cases hpair
    obtain ⟨hfound, hgiven⟩ := Option.filter_eq_some_iff.1 hw
    exact ⟨hn, hfound, Value.not_isNull_iff.1 hgiven⟩
  · rintro ⟨hn, hfound, hgiven⟩
    have hkept : (Value.lookup? name entries).filter (!·.isNull) = some v :=
      Option.filter_eq_some_iff.2 ⟨hfound, Value.not_isNull_iff.2 hgiven⟩
    exact ⟨name, hn, Option.map_eq_some_iff.2 ⟨v, hkept, rfl⟩⟩

theorem nodup_given (m : ParameterModel α) (entries : List (Value × Value)) :
    ((m.given entries).map Prod.fst).Nodup := by
  refine m.nodup_names.sublist ?_
  unfold given
  induction m.names with
  | nil => exact .slnil
  | cons name names ih =>
    cases hfound : (Value.lookup? name entries).filter (!·.isNull) with
    | none =>
      rw [List.filterMap_cons, hfound]
      exact ih.cons name
    | some v =>
      rw [List.filterMap_cons, hfound]
      exact ih.cons_cons name

/-- Rounds of checking: what a round complains about is dropped before the next one, until a round accepts
what is left. All complaints are collected. -/
inductive Rounds (m : ParameterModel α) : List (String × Value) → List Detail → α → Prop
  | accepted {given : List (String × Value)} {a : α} (h : m.validate given = .ok a) : Rounds m given [] a
  | refused {given : List (String × Value)} {ds es : List Detail} {a : α}
      (h : m.validate given = .error ds) (hrest : Rounds m (Detail.without ds given) es a) :
      Rounds m given (ds ++ es) a

/-- **The rounds end**, since each refusal leaves fewer parameters. -/
theorem exists_rounds (m : ParameterModel α) (given : List (String × Value)) :
    ∃ ds a, m.Rounds given ds a := by
  -- the induction is on the number of parameters: a refusal names one of them, which is dropped
  induction hn : given.length using Nat.strong_induction_on generalizing given with
  | _ n ih =>
    cases h : m.validate given with
    | ok a => exact ⟨[], a, .accepted h⟩
    | error ds =>
      obtain ⟨es, a, hrest⟩ := ih _ (hn ▸ Detail.length_without_lt (m.blames h)) _ rfl
      exact ⟨ds ++ es, a, .refused h hrest⟩

/-- The model checks its parameters independently, and complains about a parameter under its name: what it
accepts is valid alone and has the same value there, what is not given is null, and what it complains about
is invalid alone. -/
structure Independent (m : ParameterModel α) (field : α → String → Value) : Prop where
  valid {given : List (String × Value)} {a : α} {name : String} {v : Value}
    (hnames : (given.map Prod.fst).Nodup) (h : m.validate given = .ok a) (hgiven : (name, v) ∈ given) :
    ∃ b, m.validate [(name, v)] = .ok b ∧ field a name = field b name
  absent {given : List (String × Value)} {a : α} {name : String} (h : m.validate given = .ok a)
    (hgiven : name ∉ given.map Prod.fst) : field a name = .null
  invalid {given : List (String × Value)} {ds : List Detail} {d : Detail}
    (hnames : (given.map Prod.fst).Nodup) (h : m.validate given = .error ds) (hd : d ∈ ds) :
    ∃ v es, (d.parameter, v) ∈ given ∧ m.validate [(d.parameter, v)] = .error es

/-- The value that a parameter has alone: it is null if the parameter is invalid or not given. -/
inductive Alone (m : ParameterModel α) (field : α → String → Value) (given : List (String × Value))
    (name : String) : Value → Prop
  | valid {v : Value} {b : α} (hgiven : (name, v) ∈ given) (h : m.validate [(name, v)] = .ok b) :
      Alone m field given name (field b name)
  | invalid {v : Value} {es : List Detail} (hgiven : (name, v) ∈ given)
      (h : m.validate [(name, v)] = .error es) : Alone m field given name .null
  | missing (hgiven : name ∉ given.map Prod.fst) : Alone m field given name .null

/-- Alone a parameter has one value only. -/
theorem Alone.unique {field : α → String → Value} (hnames : (given.map Prod.fst).Nodup) {w : Value}
    (hv : m.Alone field given name v) (hw : m.Alone field given name w) : v = w := by
  have hsame : ∀ {x y : Value}, (name, x) ∈ given → (name, y) ∈ given → x = y := by
    intro x y hx hy
    exact (Prod.mk.injEq .. ▸ List.inj_on_of_nodup_map hnames hx hy rfl).2
  cases hv with
  | valid hx hb =>
    cases hw with
    | valid hy hc =>
      rw [← hsame hx hy, hb] at hc
      cases hc
      rfl
    | invalid hy hc =>
      rw [← hsame hx hy, hb] at hc
      cases hc
    | missing hmissing => exact absurd (List.mem_map_of_mem hx) hmissing
  | invalid hx hb =>
    cases hw with
    | valid hy hc =>
      rw [← hsame hx hy, hb] at hc
      cases hc
    | invalid | missing => rfl
  | missing hmissing =>
    cases hw with
    | valid hy => exact absurd (List.mem_map_of_mem hy) hmissing
    | invalid | missing => rfl

/-- A given parameter is invalid alone. -/
def Invalid (m : ParameterModel α) (given : List (String × Value)) (name : String) : Prop :=
  ∃ v es, (name, v) ∈ given ∧ m.validate [(name, v)] = .error es

variable {field : α → String → Value}

/-- What a refusal leaves to a parameter is what the parameter has. -/
theorem Independent.alone_of_without (hm : m.Independent field) (hnames : (given.map Prod.fst).Nodup)
    (h : m.validate given = .error ds) {w : Value}
    (hw : m.Alone field (Detail.without ds given) name w) : m.Alone field given name w := by
  cases hw with
  | valid hleft hv => exact .valid (Detail.mem_without_iff.1 hleft).1 hv
  | invalid hleft hv => exact .invalid (Detail.mem_without_iff.1 hleft).1 hv
  | missing hleft =>
    by_cases hgiven : name ∈ given.map Prod.fst
    · obtain ⟨e, he, rfl⟩ := List.mem_map.1 hgiven
      -- a given parameter that is not left was complained about, so it is invalid alone
      rcases Detail.mem_without_or he ds with hkept | ⟨d, hd, hname⟩
      · exact absurd (List.mem_map_of_mem hkept) hleft
      · obtain ⟨v, es, hv, hinvalid⟩ := hm.invalid hnames h hd
        rw [hname] at hv hinvalid
        exact .invalid hv hinvalid
    · exact .missing hgiven

/-- **Each parameter has the value that it has alone.** -/
theorem Rounds.alone (hm : m.Independent field) (h : m.Rounds given ds a)
    (hnames : (given.map Prod.fst).Nodup) (name : String) : m.Alone field given name (field a name) := by
  induction h with
  | @accepted given a h =>
    by_cases hgiven : name ∈ given.map Prod.fst
    · obtain ⟨⟨n, v⟩, he, rfl⟩ := List.mem_map.1 hgiven
      obtain ⟨b, hb, hfield⟩ := hm.valid hnames h he
      rw [hfield]
      exact .valid he hb
    · rw [hm.absent h hgiven]
      exact .missing hgiven
  | refused h _ ih => exact hm.alone_of_without hnames h (ih (Detail.nodup_without _ hnames))

/-- **The parameters that are complained about are the invalid ones.** -/
theorem Rounds.blamed_iff (hm : m.Independent field) (h : m.Rounds given ds a)
    (hnames : (given.map Prod.fst).Nodup) (name : String) :
    (∃ d ∈ ds, d.parameter = name) ↔ m.Invalid given name := by
  induction h with
  | @accepted given a h =>
    simp only [List.not_mem_nil, false_and, exists_false, false_iff]
    rintro ⟨v, es, hv, hinvalid⟩
    obtain ⟨b, hb, -⟩ := hm.valid hnames h hv
    cases hb.symm.trans hinvalid
  | @refused given ds es a h _ ih =>
    specialize ih (Detail.nodup_without _ hnames)
    constructor
    · rintro ⟨d, hd, rfl⟩
      rcases List.mem_append.1 hd with hd | hd
      · exact hm.invalid hnames h hd
      · -- what a later round complains about was given from the start
        obtain ⟨v, es, hv, hinvalid⟩ := ih.1 ⟨d, hd, rfl⟩
        exact ⟨v, es, (Detail.mem_without_iff.1 hv).1, hinvalid⟩
    · rintro ⟨v, fs, hv, hinvalid⟩
      rcases Detail.mem_without_or hv ds with hkept | ⟨d, hd, hname⟩
      · obtain ⟨d, hd, hname⟩ := ih.2 ⟨v, fs, hkept, hinvalid⟩
        exact ⟨d, List.mem_append_right _ hd, hname⟩
      · exact ⟨d, List.mem_append_left _ hd, hname⟩

end ParameterModel

/-! ### Parsing in rounds -/

theorem Messages.get_cons (k path : String) (old : List String) (m : Messages) :
    Messages.get ((k, old) :: m) path = if k = path then old else m.get path := by
  unfold Messages.get
  rw [List.lookup_cons]
  by_cases hpath : k = path
  · simp [hpath]
  · have hbeq : (path == k) = false := beq_eq_false_iff_ne.2 (Ne.symm hpath)
    rw [hbeq, if_neg hpath]

theorem Messages.get_add (m : Messages) (key path : String) (texts : List String) :
    (m.add key texts).get path = m.get path ++ if key = path then texts else [] := by
  induction m with
  | nil => exact Messages.get_cons key path texts []
  | cons e m ih =>
    obtain ⟨k, old⟩ := e
    rw [Messages.add, Messages.get_cons]
    by_cases hkey : k = key
    · rw [if_pos hkey, Messages.get_cons, ← hkey]
      split <;> simp
    · rw [if_neg hkey, Messages.get_cons, ih]
      by_cases hpath : k = path
      · have hother : key ≠ path := fun h => hkey (hpath.trans h.symm)
        simp [hpath, hother]
      · rw [if_neg hpath, if_neg hpath]

/-- The messages about a path are those that were there, and the new ones behind them. -/
theorem Messages.get_addEach (m : Messages) (cs : List (String × String)) (path : String) :
    (m.addEach cs).get path = m.get path ++ (cs.filter (·.1 = path)).map (·.2) := by
  induction cs generalizing m with
  | nil => simp [Messages.addEach]
  | cons c cs ih =>
    have hcons : m.addEach (c :: cs) = (m.add c.1 [c.2]).addEach cs := rfl
    rw [hcons, ih, Messages.get_add]
    by_cases hpath : c.1 = path <;> simp [hpath]

namespace Validation

open Checking

variable {α : Type} {m : ParameterModel α} {o : Options} {given : List (String × Value)}
  {ds : List Detail} {a : α}

theorem parse_accepted (h : m.validate given = .ok a) : parse m o given = pure a := by
  rw [parse]
  split
  · rename_i b hb
    cases h.symm.trans hb
    rfl
  · rename_i es hes
    cases h.symm.trans hes

theorem parse_refused (h : m.validate given = .error ds) :
    parse m o given = dropScalars o ds >>= fun _ => parse m o (Detail.without ds given) := by
  rw [parse]
  split
  · rename_i b hb
    cases h.symm.trans hb
  · rename_i es hes
    cases h.symm.trans hes
    rfl

/-- Complaints are collected in strict mode. -/
theorem dropScalars_strict (hstrict : o.replaces = false) (ds : List Detail) (messages : Messages) :
    dropScalars o ds messages =
      ⟨[], .ok ((), messages.addEach (ds.map fun d => (d.path, d.message)))⟩ := by
  induction ds generalizing messages with
  | nil => rfl
  | cons d ds ih =>
    have hcons : dropScalars o (d :: ds) =
        complain d.path d.message >>= fun _ => dropScalars o ds := by
      unfold dropScalars
      rw [hstrict]
      rfl
    rw [hcons, bind_run, run_complain, Traced.bind_ok, ih]
    rfl

/-- Where invalid parameters are replaced, complaints are reported. -/
theorem dropScalars_replacing (hreplaces : o.replaces = true) (ds : List Detail)
    (messages : Messages) :
    dropScalars o ds messages =
      ⟨ds.map fun d => .paramDropped d.path d.message, .ok ((), messages)⟩ := by
  induction ds with
  | nil => rfl
  | cons d ds ih =>
    have hcons : dropScalars o (d :: ds) =
        report (.paramDropped d.path d.message) >>= fun _ => dropScalars o ds := by
      unfold dropScalars
      rw [hreplaces]
      rfl
    rw [hcons, bind_run, run_report, Traced.bind_ok, ih]
    rfl

/-- In strict mode parsing collects all complaints and reports nothing. -/
theorem parse_strict (h : m.Rounds given ds a) (hstrict : o.replaces = false) (messages : Messages) :
    parse m o given messages =
      ⟨[], .ok (a, messages.addEach (ds.map fun d => (d.path, d.message)))⟩ := by
  induction h generalizing messages with
  | accepted h =>
    rw [parse_accepted h]
    rfl
  | refused h _ ih =>
    rw [parse_refused h, bind_run, dropScalars_strict hstrict, Traced.bind_ok, ih, List.map_append,
      Messages.addEach_append]
    rfl

/-- Where invalid parameters are replaced, parsing reports all complaints and collects none. -/
theorem parse_replacing (h : m.Rounds given ds a) (hreplaces : o.replaces = true)
    (messages : Messages) :
    parse m o given messages =
      ⟨ds.map fun d => .paramDropped d.path d.message, .ok (a, messages)⟩ := by
  induction h with
  | accepted h =>
    rw [parse_accepted h]
    rfl
  | refused h _ ih =>
    rw [parse_refused h, bind_run, dropScalars_replacing hreplaces, Traced.bind_ok, ih,
      List.map_append]

end Validation

/-! ### The scalar parameters of a query -/

namespace Scalars

variable {entries entries' : List (Value × Value)} {given : List (String × Value)} {name : String}
  {s : Scalars} {v : Value}

/-- A parsed parameter by its name. -/
def field (s : Scalars) (name : String) : Value :=
  ((Params.ofScalars s).lookup name).getD .null

/-- A parameter is read off its data, unless that is null. -/
theorem parameter_eq {α : Type} (entries : List (Value × Value)) (name : String)
    (read : String → Value → Intake.Outcome α) :
    parameter entries name read =
      match (Value.lookup? name entries).filter (!·.isNull) with
      | none => ⟨none, []⟩
      | some v =>
        match read name v with
        | .ok a => ⟨some a, []⟩
        | .error ds => ⟨none, ds⟩ := by
  unfold parameter
  cases Value.lookup? name entries with
  | none => rfl
  | some v => cases v <;> rfl

theorem parameter_of_lookup {α : Type}
    (h : (Value.lookup? name entries).filter (!·.isNull) =
      (Value.lookup? name entries').filter (!·.isNull))
    (read : String → Value → Intake.Outcome α) :
    parameter entries name read = parameter entries' name read := by
  rw [parameter_eq, parameter_eq, h]

/-- A parameter that is complained about has no value. -/
theorem parameter_cases {α : Type} (entries : List (Value × Value)) (name : String)
    (read : String → Value → Intake.Outcome α) :
    (parameter entries name read).value = none ∨ (parameter entries name read).complaints = [] := by
  unfold parameter
  split
  · exact .inl rfl
  · exact .inl rfl
  · split
    · exact .inr rfl
    · exact .inl rfl

theorem field_of_notMem (s : Scalars) (h : name ∉ names) : field s name = .null := by
  have hnone : (Params.ofScalars s).lookup name = none := by
    rw [List.lookup_eq_none_iff]
    intro e he
    have hkeys : (Params.ofScalars s).map Prod.fst = names := rfl
    have hname : e.1 ∈ names := hkeys ▸ List.mem_map_of_mem he
    rw [bne_iff_ne]
    rintro rfl
    exact h hname
  rw [field, hnone]
  rfl

/-- The parsed parameters are those that are read one by one. -/
theorem field_read (entries : List (Value × Value)) (h : name ∈ names) :
    field (read entries).1 name = ((reading entries name).value).getD .null := by
  simp only [names, List.mem_cons, List.not_mem_nil, or_false] at h
  rcases h with rfl | rfl | rfl | rfl | rfl | rfl | rfl | rfl | rfl | rfl
  all_goals
    simp [field, Params.ofScalars, Params.ofPagination, read, reading, reader, parameter_map,
      Reading.number, Reading.text, List.lookup_cons]

theorem lookup_iff (hnames : (given.map Prod.fst).Nodup) :
    given.lookup name = some v ↔ (name, v) ∈ given := by
  rw [List.lookup_eq_some_iff]
  constructor
  · rintro ⟨before, after, rfl, -⟩
    simp
  · intro h
    obtain ⟨before, after, rfl⟩ := List.append_of_mem h
    refine ⟨before, after, rfl, fun e he => ?_⟩
    rw [List.map_append, List.nodup_append] at hnames
    rw [bne_iff_ne]
    exact fun hsame => hnames.2.2 e.1 (List.mem_map_of_mem he) name (by simp) hsame.symm

theorem lookup_of_notMem (h : name ∉ given.map Prod.fst) : given.lookup name = none := by
  rw [List.lookup_eq_none_iff]
  intro e he
  rw [bne_iff_ne]
  rintro rfl
  exact h (List.mem_map_of_mem he)

theorem lookup_without_of_blamed {ds : List Detail} (h : ∃ d ∈ ds, d.parameter = name) :
    (Detail.without ds given).lookup name = none := by
  refine lookup_of_notMem fun hleft => ?_
  obtain ⟨e, he, rfl⟩ := List.mem_map.1 hleft
  obtain ⟨d, hd, hname⟩ := h
  exact (Detail.mem_without_iff.1 he).2 d hd hname

theorem lookup_without {ds : List Detail} (hnames : (given.map Prod.fst).Nodup)
    (h : ¬∃ d ∈ ds, d.parameter = name) :
    (Detail.without ds given).lookup name = given.lookup name := by
  by_cases hgiven : name ∈ given.map Prod.fst
  · obtain ⟨⟨n, v⟩, he, rfl⟩ := List.mem_map.1 hgiven
    have hleft := (Detail.mem_without_or he ds).resolve_right h
    rw [(lookup_iff hnames).2 he, (lookup_iff (Detail.nodup_without ds hnames)).2 hleft]
  · have hleft : name ∉ (Detail.without ds given).map Prod.fst :=
      fun hmem => hgiven ((List.filter_sublist.map _).subset hmem)
    rw [lookup_of_notMem hgiven, lookup_of_notMem hleft]

/-- A parameter that is given is read as it is alone. -/
theorem reading_alone (hnames : (given.map Prod.fst).Nodup) (h : (name, v) ∈ given) :
    reading (Value.namedEntries [(name, v)]) name = reading (Value.namedEntries given) name := by
  refine parameter_of_lookup ?_ _
  rw [Value.lookup?_namedEntries, Value.lookup?_namedEntries, (lookup_iff hnames).2 h]
  simp

theorem reading_missing (h : name ∉ given.map Prod.fst) :
    reading (Value.namedEntries given) name = ⟨none, []⟩ := by
  rw [reading, parameter_eq, Value.lookup?_namedEntries, lookup_of_notMem h]
  rfl

/-- Parameters are valid if each one is read without a complaint. -/
theorem exists_validate_iff :
    (∃ s, validate given = .ok s) ↔
      ∀ name ∈ names, (reading (Value.namedEntries given) name).complaints = [] := by
  rw [← List.flatMap_eq_nil_iff, ← read_complaints]
  constructor
  · rintro ⟨s, hs⟩
    rw [validate_eq_ok_iff.1 hs]
  · intro h
    exact ⟨_, validate_eq_ok_iff.2 (Prod.ext rfl h)⟩

/-- **The scalar parameters of a query are checked independently.** -/
theorem independent_model : model.Independent field where
  valid {given s name v} hnames h hgiven := by
    simp only [model_validate] at h ⊢
    have hclean := exists_validate_iff.1 ⟨s, h⟩
    obtain ⟨b, hb⟩ : ∃ b, validate [(name, v)] = .ok b := by
      refine exists_validate_iff.2 fun n hn => ?_
      by_cases hname : n = name
      · subst hname
        rw [reading_alone hnames hgiven]
        exact hclean n hn
      · have hmissing : n ∉ [(name, v)].map Prod.fst := by simpa using hname
        rw [reading_missing hmissing]
    refine ⟨b, hb, ?_⟩
    by_cases hname : name ∈ names
    · have hs := field_read (Value.namedEntries given) hname
      have halone := field_read (Value.namedEntries [(name, v)]) hname
      rw [validate_eq_ok_iff.1 h] at hs
      rw [validate_eq_ok_iff.1 hb] at halone
      rw [hs, halone, reading_alone hnames hgiven]
    · rw [field_of_notMem s hname, field_of_notMem b hname]
  absent {given s name} h hgiven := by
    rw [model_validate] at h
    by_cases hname : name ∈ names
    · have hs := field_read (Value.namedEntries given) hname
      rw [validate_eq_ok_iff.1 h, reading_missing hgiven] at hs
      exact hs
    · exact field_of_notMem s hname
  invalid {given ds d} hnames h hd := by
    simp only [model_validate] at h ⊢
    obtain ⟨-, rfl⟩ := validate_eq_error_iff.1 h
    obtain ⟨hname, hblamed⟩ := mem_reading_of_complaint hd
    obtain ⟨v, hgiven⟩ := mem_of_complaint hd
    cases hchecked : validate [(d.parameter, v)] with
    | error es => exact ⟨v, es, hgiven, hchecked⟩
    | ok b =>
      have hvalid : ∃ b, validate [(d.parameter, v)] = .ok b := ⟨b, hchecked⟩
      have hclean := exists_validate_iff.1 hvalid d.parameter hname
      rw [reading_alone hnames hgiven] at hclean
      rw [hclean] at hblamed
      cases hblamed

/-! ### Two rounds -/

/-- Among what is left after a refusal a parameter is read without a complaint, and with the same
result. -/
theorem parameter_without {α : Type} (hnames : (given.map Prod.fst).Nodup) {ds : List Detail}
    (hds : (Scalars.read (Value.namedEntries given)).2 = ds) (name : String) (hname : name ∈ names)
    (read : String → Value → Intake.Outcome α)
    (hread : (parameter (Value.namedEntries given) name read).complaints =
      (reading (Value.namedEntries given) name).complaints) :
    parameter (Value.namedEntries (Detail.without ds given)) name read =
      ⟨(parameter (Value.namedEntries given) name read).value, []⟩ := by
  have hblamed : (∃ d ∈ ds, d.parameter = name) ↔
      (reading (Value.namedEntries given) name).complaints ≠ [] := by
    constructor
    · rintro ⟨d, hd, rfl⟩
      exact List.ne_nil_of_mem (mem_reading_of_complaint (hds ▸ hd)).2
    · intro hcomplaints
      obtain ⟨d, rest, hd⟩ := List.exists_cons_of_ne_nil hcomplaints
      have hmem : d ∈ (reading (Value.namedEntries given) name).complaints :=
        hd ▸ List.mem_cons_self
      refine ⟨d, hds ▸ read_complaints _ ▸ List.mem_flatMap.2 ⟨name, hname, hmem⟩, ?_⟩
      exact (mem_reading hmem).1.parameter_eq (plain_name hname)
  rw [← hread] at hblamed
  by_cases h : ∃ d ∈ ds, d.parameter = name
  · have hvalue := (parameter_cases (Value.namedEntries given) name read).resolve_right (hblamed.1 h)
    rw [parameter_eq, Value.lookup?_namedEntries, lookup_without_of_blamed h, hvalue]
    rfl
  · have hcomplaints := not_not.1 (mt hblamed.2 h)
    have hlookup : Value.lookup? name (Value.namedEntries (Detail.without ds given)) =
        Value.lookup? name (Value.namedEntries given) := by
      rw [Value.lookup?_namedEntries, Value.lookup?_namedEntries, lookup_without hnames h]
    rw [parameter_of_lookup (congrArg _ hlookup), ← hcomplaints]

theorem read_without (hnames : (given.map Prod.fst).Nodup) :
    read (Value.namedEntries (Detail.without (read (Value.namedEntries given)).2 given)) =
      ((read (Value.namedEntries given)).1, []) := by
  generalize hds : (read (Value.namedEntries given)).2 = ds
  have hnumber : ∀ name ∈ names, reader name = Intake.integer →
      parameter (Value.namedEntries (Detail.without ds given)) name Intake.integer =
        ⟨(parameter (Value.namedEntries given) name Intake.integer).value, []⟩ := by
    intro name hname hreader
    exact parameter_without hnames hds name hname _ (by rw [reading, hreader])
  have htext : ∀ name ∈ names, reader name = (fun path v => .text <$> Intake.text path v) →
      parameter (Value.namedEntries (Detail.without ds given)) name Intake.text =
        ⟨(parameter (Value.namedEntries given) name Intake.text).value, []⟩ := by
    intro name hname hreader
    exact parameter_without hnames hds name hname _ (by rw [reading, hreader, parameter_map])
  have horderBy := parameter_without hnames hds "order_by" (by decide) (listOf Intake.text)
    (by simp [reading, reader, parameter_map])
  have hdirections := parameter_without hnames hds "order_directions" (by decide) (listOf direction)
    (by simp [reading, reader, parameter_map])
  simp only [read, horderBy, hdirections, hnumber "limit" (by decide) rfl,
    hnumber "offset" (by decide) rfl, hnumber "page" (by decide) rfl,
    hnumber "page_size" (by decide) rfl, hnumber "first" (by decide) rfl,
    htext "after" (by decide) rfl, hnumber "last" (by decide) rfl, htext "before" (by decide) rfl]
  rfl

/-- The model starts from all that is read. -/
theorem read_given (entries : List (Value × Value)) :
    read (Value.namedEntries (model.given entries)) = read entries := by
  have hparameter : ∀ {α : Type} (name : String), name ∈ names →
      ∀ read : String → Value → Intake.Outcome α,
        parameter (Value.namedEntries (model.given entries)) name read =
          parameter entries name read := by
    intro α name hname read
    refine parameter_of_lookup ?_ read
    rw [Value.lookup?_namedEntries]
    have hgiven : (model.given entries).lookup name =
        (Value.lookup? name entries).filter (!·.isNull) := by
      refine Option.ext fun v => ?_
      rw [lookup_iff (model.nodup_given entries), ParameterModel.mem_given_iff,
        Option.filter_eq_some_iff, Value.not_isNull_iff]
      exact and_iff_right hname
    rw [hgiven, Option.filter_filter]
    simp
  simp (disch := decide) only [read, hparameter]

end Scalars

namespace Validation

/-- **The scalar parameters of a query are parsed in two rounds at most.** What they are read as and the
complaints about them are those of the parameters one by one. -/
theorem scalars_eq (o : Options) (entries : List (Value × Value)) : scalars o entries =
    (dropScalars o (Scalars.read entries).2 >>= fun _ => pure (Scalars.read entries).1) := by
  unfold scalars
  have hnames := Scalars.model.nodup_given entries
  cases h : Scalars.model.validate (Scalars.model.given entries) with
  | ok s =>
    rw [parse_accepted h]
    rw [Scalars.model_validate, Scalars.validate_eq_ok_iff, Scalars.read_given] at h
    rw [h]
    rfl
  | error ds =>
    rw [parse_refused h]
    rw [Scalars.model_validate, Scalars.validate_eq_error_iff] at h
    have hleft : Scalars.model.validate (Detail.without ds (Scalars.model.given entries)) =
        .ok (Scalars.read entries).1 := by
      rw [Scalars.model_validate, Scalars.validate_eq_ok_iff, ← h.2, Scalars.read_without hnames,
        Scalars.read_given]
    rw [parse_accepted hleft, ← h.2, Scalars.read_given]

/-! ### Isolation -/

/-- **Parsing ends, and invalid parameters are dropped alone.** A model that checks its parameters
independently starts from the ones that it knows and that are given and not null. In rounds it comes to
parsed parameters that have the values that they have alone, and what it complains about on the way are
the invalid ones. In strict mode each complaint is collected under its path, and nothing is reported; where
invalid parameters are replaced each complaint is reported, and nothing is collected. -/
theorem parse_isolates {α : Type} {m : ParameterModel α} {field : α → String → Value}
    (hm : m.Independent field) (entries : List (Value × Value)) :
    (∀ name v, (name, v) ∈ m.given entries ↔
      name ∈ m.names ∧ Value.lookup? name entries = some v ∧ v ≠ .null) ∧
    ∃ ds a, m.Rounds (m.given entries) ds a ∧
      (∀ name, m.Alone field (m.given entries) name (field a name)) ∧
      (∀ name, (∃ d ∈ ds, d.parameter = name) ↔ m.Invalid (m.given entries) name) ∧
      ∀ (o : Options) (messages : Messages),
        (o.replaces = false → ∃ errors,
          parse m o (m.given entries) messages = ⟨[], .ok (a, errors)⟩ ∧
          ∀ path, errors.get path =
            messages.get path ++ (ds.filter (·.path = path)).map (·.message)) ∧
        (o.replaces = true → parse m o (m.given entries) messages =
          ⟨ds.map fun d => .paramDropped d.path d.message, .ok (a, messages)⟩) := by
  obtain ⟨ds, a, hrounds⟩ := m.exists_rounds (m.given entries)
  have hnames := m.nodup_given entries
  refine ⟨fun name v => ParameterModel.mem_given_iff, ds, a, hrounds, hrounds.alone hm hnames,
    hrounds.blamed_iff hm hnames, fun o messages => ⟨fun hstrict =>
      ⟨_, parse_strict hrounds hstrict messages, fun path => ?_⟩, fun hreplaces =>
      parse_replacing hrounds hreplaces messages⟩⟩
  rw [Messages.get_addEach, List.filter_map, List.map_map]
  rfl

/-- An ordering with two items that are no texts, a limit that is no number, a page and a parameter that is
unknown. -/
def mixed : List (Value × Value) :=
  [(.text "order_by", .list [.text "name", .int 3, .int 4]), (.text "limit", .text "many"),
    (.text "page", .int 2), (.text "first", .null), (.text "colour", .text "red")]

/-- Options that replace invalid parameters. -/
def replacing : Options := { (default : Options) with replaceInvalid := .bool true }

/-- The page is kept, the ordering and the limit are dropped. -/
theorem parse_isolates_mixed :
    Scalars.model.Independent Scalars.field ∧
    ∃ (ds : List Detail) (s : Scalars),
      Scalars.field s "page" = .int 2 ∧ Scalars.field s "order_by" = .null ∧
      (∃ d ∈ ds, d.parameter = "order_by") ∧ (∃ d ∈ ds, d.parameter = "limit") ∧
      (¬∃ d ∈ ds, d.parameter = "page") ∧
      (∃ errors, scalars default mixed [] = ⟨[], .ok (s, errors)⟩ ∧
        ∀ path, errors.get path = (ds.filter (·.path = path)).map (·.message)) ∧
      scalars replacing mixed [] =
        ⟨ds.map fun d => .paramDropped d.path d.message, .ok (s, [])⟩ := by
  obtain ⟨-, ds, s, -, halone, hblamed, hparse⟩ := parse_isolates Scalars.independent_model mixed
  have hnames := Scalars.model.nodup_given mixed
  have hgiven : Scalars.model.given mixed =
      [("order_by", .list [.text "name", .int 3, .int 4]), ("limit", .text "many"),
        ("page", .int 2)] := rfl
  have hpage : Scalars.model.Alone Scalars.field (Scalars.model.given mixed) "page" (.int 2) :=
    .valid (b := (⟨none, none, { Pagination.empty with page := .int 2 }⟩ : Scalars))
      (.tail _ (.tail _ (.head _))) rfl
  have hvalid : ¬Scalars.model.Invalid (Scalars.model.given mixed) "page" := by
    rintro ⟨v, es, hv, hinvalid⟩
    have hsame : v = .int 2 := by simpa [hgiven] using hv
    rw [hsame] at hinvalid
    cases hinvalid
  obtain ⟨errors, hstrict, hmessages⟩ := (hparse default []).1 rfl
  refine ⟨Scalars.independent_model, ds, s, (halone _).unique hnames hpage,
    (halone _).unique hnames (.invalid (.head _) rfl), (hblamed _).2 ⟨_, _, .head _, rfl⟩,
    (hblamed _).2 ⟨_, _, .tail _ (.head _), rfl⟩, mt (hblamed _).1 hvalid,
    ⟨errors, hstrict, fun path => ?_⟩, (hparse replacing []).2 rfl⟩
  rw [hmessages]
  rfl

end Validation

end Sieve
