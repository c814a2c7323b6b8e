import Sieve.Options
import Sieve.Proofs.Outcome

/-!
# Layers of options

An option may be set by a call, by the schema, and by the global properties. The most specific layer that
sets it prevails, whatever it sets: false, zero and empty collections count like all other values, and only
null sets nothing. A limit can be switched off by a call or by a schema.

* `Options.Prevails`, `Options.LimitPrevails`: what layers put in force, the most specific one first;
* `Options.Layered`: options whose attributes are what the layers put in force;
* `Options.resolve_layered`: the options in force for a call.
-/

namespace Sieve

namespace Options

variable {global : Properties} {schema : Option Schema} {call : Overrides} {standard v w : Value}
  {below : List Value}

/-- The value that some layers put in force, the most specific one first: that of the first layer which
sets one, or else the standard value. -/
inductive Prevails (standard : Value) : List Value → Value → Prop
  | standard : Prevails standard [] standard
  | set {v : Value} {below : List Value} (hset : v ≠ .null) : Prevails standard (v :: below) v
  | unset {v : Value} {below : List Value} (h : Prevails standard below v) :
      Prevails standard (.null :: below) v

/-- The limit that some layers put in force over a global one: that of the first layer which sets one, and
none if that layer sets it to false. -/
inductive LimitPrevails (global : Value) : List Value → Value → Prop
  | global : LimitPrevails global [] global
  | off {below : List Value} : LimitPrevails global (.bool false :: below) .null
  | set {v : Value} {below : List Value} (hset : v ≠ .null) (hon : v ≠ .bool false) :
      LimitPrevails global (v :: below) v
  | unset {v : Value} {below : List Value} (h : LimitPrevails global below v) :
      LimitPrevails global (.null :: below) v

/-- Strategies as they are listed in options: null, or names. -/
inductive Lists : Value → Option (List Strategy) → Prop
  | null : Lists .null none
  | names {v : Value} {ts : List Strategy} (h : v.items = .ok (ts.map strategyValue)) :
      Lists v (some ts)

/-- A strategy as it is given in options: null, or a name. -/
inductive Names : Value → Option Strategy → Prop
  | null : Names .null none
  | name (s : Strategy) : Names (strategyValue s) (some s)

/-- The layers determine what prevails. -/
theorem Prevails.unique (h : Prevails standard below v) (h' : Prevails standard below w) :
    v = w := by
  induction h with
  | standard => cases h'; rfl
  | set hset =>
    cases h' with
    | set => rfl
    | unset => exact absurd rfl hset
  | unset _ ih =>
    cases h' with
    | set hset => exact absurd rfl hset
    | unset h' => exact ih h'

theorem LimitPrevails.unique {global : Value} (h : LimitPrevails global below v)
    (h' : LimitPrevails global below w) : v = w := by
  induction h with
  | global => cases h'; rfl
  | off =>
    cases h' with
    | off => rfl
    | set _ hon => exact absurd rfl hon
  | set hset hon =>
    cases h' with
    | off => exact absurd rfl hon
    | set => rfl
    | unset => exact absurd rfl hset
  | unset _ ih =>
    cases h' with
    | set hset => exact absurd rfl hset
    | unset h' => exact ih h'

/-! ### One option -/

theorem prevails_setting (h : Prevails standard below w) (v : Value) :
    Prevails standard (v :: below) (setting v w) := by
  unfold setting
  split
  · next hnull =>
    rw [Value.isNull_iff.1 hnull]
    exact .unset h
  · next hset => exact .set (mt Value.isNull_iff.2 hset)

/-- The last layer counts as it is, where the standard value is null. -/
theorem prevails_last (v : Value) : Prevails .null [v] v := by
  by_cases hnull : v = .null
  · rw [hnull]
    exact .unset .standard
  · exact .set hnull

/-- A flag of the global properties is always set. -/
theorem prevails_flag (standard b : Bool) (v : Value) :
    Prevails (.bool standard) [v, .bool b] (setting v (.bool b)) :=
  prevails_setting (.set (by simp)) v

/-- A schema may be missing, and then it sets nothing. -/
theorem prevails_schema (schema : Option Schema) (option : Schema → Value) :
    Prevails .null (schema.map option).toList (ofSchema schema option) := by
  cases schema with
  | none => exact .standard
  | some s => exact prevails_last (option s)

theorem prevails_ofSchema (h : Prevails standard below w) (schema : Option Schema)
    (option : Schema → Value) :
    Prevails standard ((schema.map option).toList ++ below)
      (setting (ofSchema schema option) w) := by
  cases schema with
  | none => exact h
  | some s => exact prevails_setting h (option s)

theorem limitPrevails_limitSetting {global : Value} (h : LimitPrevails global below w) (v : Value) :
    LimitPrevails global (v :: below) (limitSetting v w) := by
  unfold limitSetting limitInForce
  split
  · next hnull =>
    rw [Value.isNull_iff.1 hnull]
    exact .unset h
  · next hset =>
    split
    · next hoff =>
      rw [hoff]
      exact .off
    · next hon => exact .set (mt Value.isNull_iff.2 hset) hon

theorem limitPrevails_ofSchema {global : Value} (h : LimitPrevails global below w)
    (schema : Option Schema) (option : Schema → Value) :
    LimitPrevails global ((schema.map option).toList ++ below)
      (limitSetting (ofSchema schema option) w) := by
  cases schema with
  | none => exact h
  | some s => exact limitPrevails_limitSetting h (option s)

/-- What prevails over null is null, or set on some layer. -/
theorem Prevails.eq_null_or_mem (h : Prevails .null below v) : v = .null ∨ v ∈ below := by
  induction h with
  | standard => exact .inl rfl
  | set => exact .inr List.mem_cons_self
  | unset _ ih => exact ih.imp_right (List.mem_cons_of_mem _)

/-! ### Strategies -/

theorem strategy_ofValue (s : Strategy) : Strategy.ofValue (strategyValue s) = .ok s := by
  rw [strategyValue, Strategy.ofValue, Strategy.ofName?_name]

theorem strategies_of_lists {ts : Option (List Strategy)} (h : Lists v ts) :
    strategies v = .ok ts := by
  cases h with
  | null => rfl
  | @names _ ts h =>
    have hgiven : ¬v.isNull = true := by
      rw [Value.isNull_iff]
      rintro rfl
      cases h
    have hmap : (ts.map strategyValue).mapM Strategy.ofValue = .ok ts := by
      rw [Outcome.mapM_eq_ok_iff, List.forall₂_map_left_iff, List.forall₂_same]
      exact fun s _ => strategy_ofValue s
    rw [strategies, if_neg hgiven, h, Outcome.ok_bind, hmap]
    rfl

theorem strategy_of_names {t : Option Strategy} (h : Names v t) : strategy v = .ok t := by
  cases h with
  | null => rfl
  | name s =>
    rw [strategy, if_neg (by simp [strategyValue, Value.isNull]), strategy_ofValue]
    rfl

/-- The strategies that global properties allow, as they are listed in options. -/
def listed (ts : Option (List Strategy)) : Value :=
  (ts.map fun ts => .list (ts.map strategyValue)).getD .null

/-- The strategy that global properties name, as it is given in options. -/
def named (t : Option Strategy) : Value :=
  (t.map strategyValue).getD .null

theorem lists_listed (ts : Option (List Strategy)) : Lists (listed ts) ts := by
  cases ts with
  | none => exact .null
  | some ts => exact .names rfl

theorem names_named (t : Option Strategy) : Names (named t) t := by
  cases t with
  | none => exact .null
  | some s => exact .name s

/-! ### All options -/

/-- On all layers the values of enumerations are members of them. -/
structure ValidChoices (global : Properties) (schema : Option Schema) (call : Overrides) : Prop where
  callTypes : ∃ ts, Lists call.paginationTypes ts
  callType : ∃ t, Names call.defaultPaginationType t
  schemaTypes : ∀ s ∈ schema, ∃ ts, Lists s.paginationTypes ts
  schemaType : ∀ s ∈ schema, ∃ t, Names s.defaultPaginationType t
  globalPolicy : global.policy = .warn ∨ global.policy = .refuse

/-- Every option has the value that the layers put in force. -/
structure Layered (global : Properties) (schema : Option Schema) (call : Overrides) (o : Options) :
    Prop where
  defaultLimit : LimitPrevails global.defaultLimit
    (call.defaultLimit :: (schema.map (·.defaultLimit)).toList) o.defaultLimit
  maxLimit : LimitPrevails global.maxLimit
    (call.maxLimit :: (schema.map (·.maxLimit)).toList) o.maxLimit
  defaultOrder : Prevails .null
    (call.defaultOrder :: (schema.map (·.defaultOrder)).toList) o.defaultOrder
  paginationTypes : ∃ v, Prevails .null (call.paginationTypes ::
    ((schema.map (·.paginationTypes)).toList ++ [listed global.paginationTypes])) v ∧
      Lists v o.paginationTypes
  defaultPaginationType : ∃ v, Prevails .null (call.defaultPaginationType ::
    ((schema.map (·.defaultPaginationType)).toList ++ [named global.defaultPaginationType])) v ∧
      Names v o.defaultPaginationType
  replaceInvalid : Prevails (.bool false)
    [call.replaceInvalid, .bool global.replaceInvalid] o.replaceInvalid
  ordering : Prevails (.bool true) [call.ordering, .bool global.ordering] o.ordering
  filtering : Prevails (.bool true) [call.filtering, .bool global.filtering] o.filtering
  policy : Prevails (.text "warn_and_ignore")
    [call.policy, global.policy.toValue] o.policy.toValue
  extra : Prevails (.map []) [call.extra] o.extra
  cursorFunction : o.cursorFunction = call.cursorFunction

/-- A property of null and of the settings of all layers is one of the setting that prevails. -/
theorem Prevails.among {P : Value → Prop} {option : Schema → Value} {bottom : Value}
    (h : Prevails .null (v :: ((schema.map option).toList ++ [bottom])) w) (hnull : P .null)
    (hcall : P v) (hschema : ∀ s ∈ schema, P (option s)) (hbottom : P bottom) : P w := by
  rcases h.eq_null_or_mem with rfl | hmem
  · exact hnull
  · simp only [List.mem_cons, List.mem_append, Option.mem_toList, Option.map_eq_some_iff,
      List.not_mem_nil, or_false] at hmem
    rcases hmem with rfl | ⟨s, hs, rfl⟩ | rfl
    · exact hcall
    · exact hschema s hs
    · exact hbottom

theorem policy_toValue_ofValue (v : Value) : (CompositePolicy.ofValue v).toValue = v := by
  unfold CompositePolicy.ofValue
  split
  · next h => exact h.symm
  · split
    · next h => exact h.symm
    · rfl

theorem policy_prevails {p : CompositePolicy} (hp : p = .warn ∨ p = .refuse) (v : Value) :
    Prevails (.text "warn_and_ignore") [v, p.toValue]
      (if v.isNull then p else .ofValue v).toValue := by
  have hbelow : Prevails (.text "warn_and_ignore") [p.toValue] p.toValue := by
    rcases hp with rfl | rfl <;> exact .set nofun
  have hsame : (if v.isNull then p else .ofValue v).toValue = setting v p.toValue := by
    unfold setting
    split
    · rfl
    · exact policy_toValue_ofValue v
  rw [hsame]
  exact prevails_setting hbelow v

/-- Known options with valid choices have the values that the layers put in force. -/
theorem resolve_known (hknown : call.unknown = []) (h : ValidChoices global schema call) :
    ∃ o, resolve global schema call = .ok o ∧ Layered global schema call o := by
  have htypes := prevails_setting (prevails_ofSchema (prevails_last (listed global.paginationTypes))
    schema (·.paginationTypes)) call.paginationTypes
  have htype := prevails_setting (prevails_ofSchema
    (prevails_last (named global.defaultPaginationType)) schema (·.defaultPaginationType))
    call.defaultPaginationType
  obtain ⟨ts, hts⟩ := htypes.among (P := fun v => ∃ ts, Lists v ts) ⟨none, .null⟩ h.callTypes
    h.schemaTypes ⟨_, lists_listed _⟩
  obtain ⟨t, ht⟩ := htype.among (P := fun v => ∃ t, Names v t) ⟨none, .null⟩ h.callType
    h.schemaType ⟨_, names_named _⟩
  have hstrategies := strategies_of_lists hts
  have hstrategy := strategy_of_names ht
  unfold listed at hstrategies
  unfold named at hstrategy
  unfold resolve
  rw [hknown, if_neg (by simp), hstrategies, Outcome.ok_bind, hstrategy]
  refine ⟨_, rfl, ?_⟩
  exact {
    defaultLimit := limitPrevails_limitSetting
      (by simpa using limitPrevails_ofSchema .global schema (·.defaultLimit)) _
    maxLimit := limitPrevails_limitSetting
      (by simpa using limitPrevails_ofSchema .global schema (·.maxLimit)) _
    defaultOrder := prevails_setting (prevails_schema schema (·.defaultOrder)) _
    paginationTypes := ⟨_, htypes, hts⟩
    defaultPaginationType := ⟨_, htype, ht⟩
    replaceInvalid := prevails_flag _ _ _
    ordering := prevails_flag _ _ _
    filtering := prevails_flag _ _ _
    policy := policy_prevails h.globalPolicy _
    extra := prevails_setting .standard _
    cursorFunction := rfl }

/-- **The most specific layer that sets an option prevails.** Options that do not exist are an error
that names them in order, whatever else is set. -/
theorem resolve_layered (global : Properties) (schema : Option Schema) (call : Overrides) :
    (call.unknown = [] → ValidChoices global schema call →
      ∃ o, resolve global schema call = .ok o ∧ Layered global schema call o) ∧
    (call.unknown ≠ [] → ∃ e names, resolve global schema call = .error e ∧
      names.Perm call.unknown ∧ names.Pairwise (· ≤ ·) ∧
      e.report = .fault .badType
        (some ("Unknown query option(s): " ++ ", ".intercalate names)) none) := by
  refine ⟨resolve_known, fun hunknown => ⟨.unknownOptions (call.unknown.mergeSort (· ≤ ·)), _, ?_,
    List.mergeSort_perm _ _, ?_, rfl⟩⟩
  · unfold resolve
    rw [if_pos (by simpa using hunknown)]
    rfl
  · have htrans (a b c : String) :
        decide (a ≤ b) = true → decide (b ≤ c) = true → decide (a ≤ c) = true := by
      simpa using String.le_trans
    have htotal (a b : String) : (decide (a ≤ b) || decide (b ≤ a)) = true := by
      simpa using String.le_total a b
    exact (List.pairwise_mergeSort htrans htotal call.unknown).imp of_decide_eq_true

/-- Properties with limits and strategies. -/
def limited : Properties :=
  { Properties.standard with
    defaultLimit := .int 10, maxLimit := .int 100, paginationTypes := some [.page] }

/-- A schema without limits. -/
def unlimited : Schema :=
  { (default : Schema) with defaultLimit := .bool false, maxLimit := .bool false }

/-- A call with a limit of its own, without orderings and without strategies. -/
def restricted : Overrides :=
  { Overrides.none with defaultLimit := .int 30, ordering := .bool false, paginationTypes := .list [] }

/-- The limit of a call counts where the schema switches the global one off. False and an empty list count
before what is set below them. An option that does not exist is an error. -/
theorem resolve_layered_restricted :
    (∃ o, resolve limited (some unlimited) restricted = .ok o ∧ o.defaultLimit = .int 30 ∧
      o.maxLimit = .null ∧ o.ordering = .bool false ∧ Lists (.list []) o.paginationTypes) ∧
    ∃ e names, resolve limited none { restricted with unknown := ["for_update", "abc"] } = .error e ∧
      names.Perm ["for_update", "abc"] ∧ e.report = .fault .badType
        (some ("Unknown query option(s): " ++ ", ".intercalate names)) none := by
  have hvalid : ValidChoices limited (some unlimited) restricted :=
    { callTypes := ⟨some [], .names rfl⟩
      callType := ⟨none, .null⟩
      schemaTypes := by
        rintro s ⟨⟩
        exact ⟨none, .null⟩
      schemaType := by
        rintro s ⟨⟩
        exact ⟨none, .null⟩
      globalPolicy := .inl rfl }
  obtain ⟨hknown, -⟩ := resolve_layered limited (some unlimited) restricted
  obtain ⟨-, hunknown⟩ :=
    resolve_layered limited none { restricted with unknown := ["for_update", "abc"] }
  obtain ⟨o, ho, h⟩ := hknown rfl hvalid
  obtain ⟨e, names, he, hnames, _, hreport⟩ := hunknown (by simp)
  obtain ⟨v, hv, hlists⟩ := h.paginationTypes
  have hempty : v = .list [] := hv.unique (.set (by simp [restricted]))
  refine ⟨⟨o, ho, ?_, ?_, ?_, hempty ▸ hlists⟩, e, names, he, hnames, hreport⟩
  · exact h.defaultLimit.unique (.set (by simp [restricted]) (by simp [restricted]))
  · exact h.maxLimit.unique (.unset .off)
  · exact h.ordering.unique (.set (by simp [restricted]))

end Options

end Sieve
