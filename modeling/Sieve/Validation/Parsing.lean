import Sieve.Options
import Sieve.Intake.Paths
import Sieve.Params
import Sieve.Validation.Checking
/-!
# Parsing of scalar parameters

A model knows some parameters and checks all that are given at once. It complains about invalid ones. The
parameters that it complains about are dropped and the others are checked again, until it accepts those
that are left.

* `ParameterModel` is what checks parameters, `ParameterModel.given` are the parameters it starts from;
* `Validation.parse` checks parameters until the model accepts those that are left;
* `Scalars.model` is the model of the scalar parameters of a query.

Main statements: `length_without_lt`, `read_complaints`.
-/

namespace Sieve

/-- The parameters without those that are complained about. -/
def Detail.without (ds : List Detail) (given : List (String × Value)) : List (String × Value) :=
  given.filter fun e => !ds.any (·.parameter == e.1)

/-- A complaint about one of the parameters makes them fewer. -/
theorem Detail.length_without_lt {ds : List Detail} {given : List (String × Value)}
    (h : ∃ d ∈ ds, d.parameter ∈ given.map Prod.fst) : (without ds given).length < given.length := by
  obtain ⟨d, hd, hgiven⟩ := h
  obtain ⟨e, he, hname⟩ := List.mem_map.1 hgiven
  refine List.length_filter_lt_length_iff_exists.2 ⟨e, he, ?_⟩
  simpa using ⟨d, hd, hname.symm⟩

/-- What checks parameters. -/
structure ParameterModel (α : Type) where
  /-- The names of the parameters that it knows. -/
  names : List String
  /-- Checks all given parameters. -/
  validate : List (String × Value) → Intake.Outcome α
  /-- No name occurs twice. -/
  nodup_names : names.Nodup
  /-- Some complaint is about a given parameter. -/
  blames : ∀ {given : List (String × Value)} {ds : List Detail}, validate given = .error ds →
    ∃ d ∈ ds, d.parameter ∈ given.map Prod.fst

/-- The parameters among some entries that a model knows and that are not null. -/
def ParameterModel.given {α : Type} (m : ParameterModel α) (entries : List (Value × Value)) :
    List (String × Value) :=
  m.names.filterMap fun name =>
    ((Value.lookup? name entries).filter (!·.isNull)).map fun v => (name, v)

namespace Validation

/-- Reports or collects the complaints about scalar parameters. -/
def dropScalars (o : Options) (complaints : List Detail) : Checking Unit :=
  complaints.forM fun d =>
    if o.replaces then Checking.report (.paramDropped d.path d.message)
    else Checking.complain d.path d.message

/-- Checks parameters until a model accepts those that are left; the complaints on the way are reported or
collected. -/
@[semireducible] def parse {α : Type} (m : ParameterModel α) (o : Options)
    (given : List (String × Value)) : Checking α :=
  match _h : m.validate given with
  | .ok a => pure a
  | .error ds => do
    dropScalars o ds
    parse m o (Detail.without ds given)
termination_by given.length
decreasing_by exact Detail.length_without_lt (m.blames _h)

end Validation

/-! ### The scalar parameters of a query -/

namespace Value

/-- Data under names as the entries of a map. -/
def namedEntries (given : List (String × Value)) : List (Value × Value) :=
  given.map fun e => (.text e.1, e.2)

theorem lookup?_namedEntries (name : String) (given : List (String × Value)) :
    lookup? name (namedEntries given) = given.lookup name := by
  unfold namedEntries
  induction given with
  | nil => rfl
  | cons e given ih =>
    obtain ⟨k, v⟩ := e
    by_cases hk : k = name
    · simp [hk]
    · have hbeq : (name == k) = false := by simpa using Ne.symm hk
      rw [List.map_cons, lookup?, if_neg hk, ih, List.lookup_cons, hbeq]

end Value

namespace Scalars

/-- The names of the scalar parameters. -/
def names : List String :=
  ["order_by", "order_directions", "limit", "offset", "page", "page_size", "first", "after", "last",
    "before"]

theorem located_direction (path : String) (v : Value) : Intake.Located path (direction path v) := by
  unfold direction
  split
  · exact Intake.located_ok _
  · exact Intake.located_complain _ _

/-- What reads a parameter as data. -/
def reader (name : String) : String → Value → Intake.Outcome Value :=
  match name with
  | "order_by" => fun path v => (fun ns => .tuple (ns.map .text)) <$> listOf Intake.text path v
  | "order_directions" =>
    fun path v => (fun ds => .tuple (ds.map fun d => .text d.name)) <$> listOf direction path v
  | "after" | "before" => fun path v => .text <$> Intake.text path v
  | _ => Intake.integer

theorem located_reader (name path : String) (v : Value) :
    Intake.Located path (reader name path v) := by
  unfold reader
  split
  · exact (Intake.located_list Intake.located_text path _).map _
  · exact (Intake.located_list located_direction path _).map _
  · exact (Intake.located_text path v).map _
  · exact (Intake.located_text path v).map _
  · exact Intake.located_integer path v

/-- A parameter that was read, as data. -/
def reading (entries : List (Value × Value)) (name : String) : Reading Value :=
  parameter entries name (reader name)

theorem parameter_map {α β : Type} (entries : List (Value × Value)) (name : String)
    (read : String → Value → Intake.Outcome α) (f : α → β) :
    parameter entries name (fun path v => f <$> read path v) =
      ⟨(parameter entries name read).value.map f, (parameter entries name read).complaints⟩ := by
  unfold parameter
  split
  · rfl
  · rfl
  · rename_i v _ _
    cases hv : read name v <;> simp only [hv] <;> rfl

/-- The complaints are those about the parameters one by one. -/
theorem read_complaints (entries : List (Value × Value)) :
    (read entries).2 = names.flatMap fun name => (reading entries name).complaints := by
  simp [read, names, reading, reader, parameter_map, List.flatMap_cons]

/-- A complaint about a parameter is found under its name, and the parameter is given. -/
theorem mem_reading {entries : List (Value × Value)} {name : String} {d : Detail}
    (h : d ∈ (reading entries name).complaints) :
    d.IsAt name ∧ ∃ v, Value.lookup? name entries = some v := by
  unfold reading parameter at h
  split at h
  · cases h
  · cases h
  · rename_i v _ hv
    refine ⟨?_, v, hv⟩
    split at h
    · cases h
    · rename_i ds hds
      exact located_reader name name v ds hds d h

theorem plain_name {name : String} (h : name ∈ names) : '.' ∉ name.toList := by
  have hall : ∀ n ∈ names, '.' ∉ n.toList := by decide
  exact hall name h

/-- The scalar parameters of a query, all of which have to be valid. -/
def validate (given : List (String × Value)) : Intake.Outcome Scalars :=
  match read (Value.namedEntries given) with
  | (s, []) => .ok s
  | (_, ds) => .error ds

theorem validate_eq_ok_iff {given : List (String × Value)} {s : Scalars} :
    validate given = .ok s ↔ read (Value.namedEntries given) = (s, []) := by
  unfold validate
  split
  · rename_i s' hread
    simp [hread]
  · rename_i s' ds hread hds
    simp [hds]
    rintro rfl rfl
    exact hread rfl

theorem validate_eq_error_iff {given : List (String × Value)} {ds : List Detail} :
    validate given = .error ds ↔ ds ≠ [] ∧ (read (Value.namedEntries given)).2 = ds := by
  unfold validate
  split
  · rename_i s' hread
    simp only [reduceCtorEq, hread, false_iff, not_and]
    exact fun hds h => hds h.symm
  · rename_i s' es hread hes
    simp only [Except.error.injEq, hes]
    constructor
    · rintro rfl
      exact ⟨hread, rfl⟩
    · exact And.right

/-- A complaint of the model is one about the parameter that it names. -/
theorem mem_reading_of_complaint {entries : List (Value × Value)} {d : Detail}
    (h : d ∈ (read entries).2) :
    d.parameter ∈ names ∧ d ∈ (reading entries d.parameter).complaints := by
  rw [read_complaints] at h
  obtain ⟨name, hname, hd⟩ := List.mem_flatMap.1 h
  rw [(mem_reading hd).1.parameter_eq (plain_name hname)]
  exact ⟨hname, hd⟩

/-- The model complains about given parameters. -/
theorem mem_of_complaint {given : List (String × Value)} {d : Detail}
    (h : d ∈ (read (Value.namedEntries given)).2) : ∃ v, (d.parameter, v) ∈ given := by
  obtain ⟨-, v, hv⟩ := mem_reading (mem_reading_of_complaint h).2
  rw [Value.lookup?_namedEntries] at hv
  obtain ⟨before, after, hgiven, -⟩ := List.lookup_eq_some_iff.1 hv
  exact ⟨v, hgiven ▸ by simp⟩

/-- The model of the scalar parameters of a query. -/
def model : ParameterModel Scalars where
  names := names
  validate := validate
  nodup_names := by decide
  blames := by
    intro given ds h
    obtain ⟨hds, hread⟩ := validate_eq_error_iff.1 h
    obtain ⟨d, rest, rfl⟩ := List.exists_cons_of_ne_nil hds
    have hd : d ∈ (read (Value.namedEntries given)).2 := hread ▸ List.mem_cons_self
    obtain ⟨v, hv⟩ := mem_of_complaint hd
    exact ⟨d, List.mem_cons_self, List.mem_map_of_mem hv⟩

@[simp] theorem model_validate (given : List (String × Value)) : model.validate given = validate given :=
  rfl

end Scalars

end Sieve
