import Sieve.Proofs.Blank
import Sieve.Proofs.Evaluation.Members

/-!
# Asking for emptiness

A column is empty on a row if it has null there, or no items where it holds collections. Asking with a
flag whether it is empty is the same as asking with the opposite flag whether it is not. A composite is
asked through its members, and there the operator alone says how they are joined, whatever the flag is:
the two questions agree only if the members do.

* `Value.IsFlag`: the values that ask for emptiness or against it;
* `Value.EmptyAs`, `Field.EmptyIn`: what counts as empty;
* `Operator.trueIff_emptiness`: the predicate of a column;
* `Field.StandsFor.selectsIff_empty`, `Field.StandsFor.selectsIff_notEmpty`: the rows that are selected;
* `Field.emptiness_dual_iff`: opposite flags select opposite rows if and only if the members agree;
* `Field.emptiness_not_dual`: a row with members that do not.
-/

namespace Sieve

open Outcome

/-! ### Flags -/

/-- The values that ask for emptiness, or against it: a truth value, or its name in any case with blanks
around it. -/
inductive Value.IsFlag : Value → Bool → Prop
  | bool (b : Bool) : IsFlag (.bool b) b
  | text {before word after : List Char} {b : Bool}
    (hbefore : ∀ c ∈ before, Text.isBlank c = true) (hafter : ∀ c ∈ after, Text.isBlank c = true)
    (hword : word.map Char.toLower = (if b then "true" else "false").toList) :
    IsFlag (.text (String.ofList (before ++ word ++ after))) b

theorem Value.IsFlag.emptyFlag? {v : Value} {b : Bool} (h : v.IsFlag b) : v.emptyFlag? = some b := by
  cases h with
  | bool b => rfl
  | @text before word after b hbefore hafter hword =>
    have hblank : ∀ c ∈ word, Text.isBlank c = false := by
      intro c hc
      have hmem : c.toLower ∈ (if b then "true" else "false").toList := hword ▸ List.mem_map_of_mem hc
      have hletters : ∀ d ∈ (if b then "true" else "false").toList, Text.isBlank d = false := by
        cases b <;> simp [Text.isBlank, Text.isSpacing]
      cases hblank : Text.isBlank c with
      | false => rfl
      | true =>
        rw [Text.toLower_of_isBlank hblank] at hmem
        exact hblank.symm.trans (hletters c hmem)
    rw [Value.emptyFlag?, String.toList_ofList,
      (Text.isTrimmed_of_forall hblank).trim_between hbefore hafter, hword]
    cases b <;> rfl

/-! ### Columns -/

namespace Value

/-- The value counts as empty in a field of the type: null, or a collection without items where the field
holds collections. -/
def EmptyAs (x : Value) (t : StorageType) : Prop :=
  x = .null ∨ t = .array ∧ x = .list [] ∨ t = .map ∧ x = .map []

instance (x : Value) (t : StorageType) : Decidable (x.EmptyAs t) :=
  inferInstanceAs (Decidable (x = .null ∨ t = .array ∧ x = .list [] ∨ t = .map ∧ x = .map []))

/-- Only a list without items equals one. -/
theorem equal_list_nil (x : Value) : x.equal (.list []) = .ok (decide (x = .list [])) := by
  cases x with
  | list xs => cases xs <;> simp [equal, equalItems]
  | _ => simp [equal, number?]

/-- Only a map without entries equals one. -/
theorem equal_map_nil (x : Value) : x.equal (.map []) = .ok (decide (x = .map [])) := by
  cases x with
  | map es => cases es <;> simp [equal, equalEntries]
  | _ => simp [equal, number?]

end Value

namespace Operator

variable {aliases : Aliases} {row x v : Value} {r : FieldRef} {t : StorageType} {b : Bool}

/-- A field that is null or equals a value. -/
theorem evaluate_nullOr {e : Value} (hx : r.read aliases row = .ok x)
    (hequal : x.equal e = .ok (decide (x = e))) :
    (Predicate.any [.isNull r, .compare r .eq e]).evaluate aliases row =
      .ok (some (decide (x = .null ∨ x = e))) := by
  have hnull : (Predicate.isNull r).evaluate aliases row = .ok (some x.isNull) := by
    rw [Predicate.evaluate, hx]
    rfl
  have hcompare : (Predicate.compare r .eq e).evaluate aliases row =
      .ok (if x.isNull then none else some (decide (x = e))) := by
    rw [Predicate.evaluate, hx, ok_bind, Predicate.unlessNull]
    split
    · rfl
    · rw [Comparison.holds, hequal]
      rfl
  rw [Predicate.evaluate_any_two hnull hcompare (Predicate.proper_isNull r)
    (Predicate.proper_compare r .eq e)]
  by_cases hnull : x = .null
  · simp [hnull, Value.isNull, Truth.any]
  · have hgiven : x.isNull = false := Value.isNull_eq_false hnull
    by_cases heq : x = e <;> simp [hnull, heq, hgiven, Truth.any]

theorem proper_emptyPredicate (r : FieldRef) (t : StorageType) : (emptyPredicate r t).Proper := by
  cases t <;> nofun

/-- The predicate that a column is empty is answered: it is or it is not. -/
theorem evaluate_emptyPredicate (t : StorageType) (hx : r.read aliases row = .ok x) :
    (emptyPredicate r t).evaluate aliases row = .ok (some (decide (x.EmptyAs t))) := by
  by_cases ha : t = .array
  · subst ha
    rw [emptyPredicate, evaluate_nullOr hx x.equal_list_nil]
    simp [Value.EmptyAs]
  · by_cases hm : t = .map
    · subst hm
      rw [emptyPredicate, evaluate_nullOr hx x.equal_map_nil]
      simp [Value.EmptyAs]
    · rw [emptyPredicate_eq r ha hm, Predicate.evaluate, hx, ok_bind]
      refine congrArg (fun b => Except.ok (some b)) ?_
      rw [Bool.eq_iff_iff, Value.isNull_iff, decide_eq_true_iff]
      simp [Value.EmptyAs, ha, hm]

/-- The predicate of a flag is true where the column is empty as the flag says, or against it if the
operator negates it. -/
theorem trueIff_emptiness (t : StorageType) (negated : Bool) (hx : r.read aliases row = .ok x)
    (hv : v.IsFlag b) :
    (emptiness r t negated v).TrueIff aliases row (x.EmptyAs t ↔ b ≠ negated) := by
  have hempty := evaluate_emptyPredicate t hx
  rw [emptiness, hv.emptyFlag?]
  dsimp only
  split
  · next hflag => exact ⟨proper_emptyPredicate r t, _, hempty, by simp [bne_iff_ne.1 hflag]⟩
  · next hflag =>
    have hnot : (Predicate.not (emptyPredicate r t)).evaluate aliases row =
        .ok (some !(decide (x.EmptyAs t))) := by
      rw [Predicate.evaluate, hempty]
      rfl
    exact ⟨Predicate.proper_not _, _, hnot, by simp_all⟩

end Operator

/-! ### Fields -/

/-- All items have a property as soon as one has, if there are items and none differs from another. -/
theorem forall_iff_exists_mem {α : Type} {P : α → Prop} {xs : List α} :
    ((∀ x ∈ xs, P x) ↔ ∃ x ∈ xs, P x) ↔ xs ≠ [] ∧ ((∀ x ∈ xs, P x) ∨ ∀ x ∈ xs, ¬P x) := by
  constructor
  · intro h
    by_cases hsome : ∃ x ∈ xs, P x
    · have ⟨_, hx, _⟩ := hsome
      exact ⟨List.ne_nil_of_mem hx, .inl (h.2 hsome)⟩
    · have hnone : ∀ x ∈ xs, ¬P x := fun x hx hP => hsome ⟨x, hx, hP⟩
      refine ⟨?_, .inr hnone⟩
      rintro rfl
      exact hsome (h.1 nofun)
  · rintro ⟨hne, hsame⟩
    obtain ⟨x, hx⟩ := List.exists_mem_of_ne_nil xs hne
    rcases hsame with hall | hnone
    · exact ⟨fun _ => ⟨x, hx, hall x hx⟩, fun _ => hall⟩
    · exact ⟨fun h => absurd (h x hx) (hnone x hx), fun ⟨y, hy, hP⟩ => absurd hP (hnone y hy)⟩

/-- The operator makes a predicate of the field and the value without reporting anything, and the row is
selected by it or not. -/
def Field.Selects (f : Field) (schema : Option Schema) (policy : CompositePolicy) (op : Operator)
    (v : Value) (aliases : Aliases) (row : Value) (selected : Bool) : Prop :=
  ∃ p, f.select schema policy op v = .ok p ∧ p.selects aliases row = .ok selected

/-- The column is empty on the row. -/
def Field.EmptyIn (aliases : Aliases) (row : Value) (g : Field) : Prop :=
  ∃ x, g.Reads aliases row x ∧ x.EmptyAs g.type

/-- There are columns, and all of them are empty on the row or none is. -/
def Field.Agree (aliases : Aliases) (row : Value) (gs : List Field) : Prop :=
  gs ≠ [] ∧ ((∀ g ∈ gs, g.EmptyIn aliases row) ∨ ∀ g ∈ gs, ¬g.EmptyIn aliases row)

namespace Field

variable {schema : Option Schema} {policy : CompositePolicy} {op : Operator} {v w x : Value}
  {aliases : Aliases} {row : Value} {f g : Field} {gs : List Field} {b : Bool}

/-- A row is selected if the predicate is true of it. -/
theorem selects_of_evaluate {p : Predicate} {t : Truth} (hp : f.select schema policy op v = .ok p)
    (hproper : p.Proper) (ht : p.evaluate aliases row = .ok t) :
    f.Selects schema policy op v aliases row (t == some true) := by
  refine ⟨p, hp, ?_⟩
  rw [Predicate.selects_of_proper hproper, ht]
  rfl

/-- A field that selects the rows with a property selects a row as it has the property. -/
theorem SelectsIff.selects {property : Prop}
    (h : f.SelectsIff schema policy op v aliases row property) :
    ∃ selected, f.Selects schema policy op v aliases row selected ∧ (selected = true ↔ property) := by
  obtain ⟨p, hp, hproper, t, ht, htrue⟩ := h
  exact ⟨t == some true, selects_of_evaluate hp hproper ht, by rw [beq_iff_eq, htrue]⟩

theorem Reads.emptyIn_iff (hx : g.Reads aliases row x) :
    g.EmptyIn aliases row ↔ x.EmptyAs g.type :=
  ⟨fun ⟨_, hy, hempty⟩ => hx.unique hy ▸ hempty, fun hempty => ⟨x, hx, hempty⟩⟩

theorem answers_empty (hx : g.Reads aliases row x) (hv : v.IsFlag b) :
    g.Answers .empty v aliases row (g.EmptyIn aliases row ↔ b = true) := by
  obtain ⟨r, hr, hread⟩ := hx
  refine ⟨r, _, hr, rfl, (Operator.trueIff_emptiness g.type false hread hv).congr ?_⟩
  rw [Reads.emptyIn_iff ⟨r, hr, hread⟩, ne_eq, Bool.not_eq_false]

theorem answers_notEmpty (hx : g.Reads aliases row x) (hv : v.IsFlag b) :
    g.Answers .notEmpty v aliases row (g.EmptyIn aliases row ↔ b = false) := by
  obtain ⟨r, hr, hread⟩ := hx
  refine ⟨r, _, hr, rfl, (Operator.trueIff_emptiness g.type true hread hv).congr ?_⟩
  rw [Reads.emptyIn_iff ⟨r, hr, hread⟩, ne_eq, Bool.not_eq_true]

/-- A field is asked for emptiness through its columns: all of them have to be as the flag says. -/
theorem StandsFor.selectsIff_empty (policy : CompositePolicy) (hf : f.StandsFor schema gs)
    (hrow : ∀ g ∈ gs, ∃ x, g.Reads aliases row x) (hv : v.IsFlag b) :
    f.SelectsIff schema policy .empty v aliases row
      (∀ g ∈ gs, (g.EmptyIn aliases row ↔ b = true)) :=
  hf.selectsIff rfl rfl fun g hg => (hrow g hg).elim fun _ hx => answers_empty hx hv

/-- A field is asked against emptiness through its columns: one of them has to be as the flag says. -/
theorem StandsFor.selectsIff_notEmpty (policy : CompositePolicy) (hf : f.StandsFor schema gs)
    (hrow : ∀ g ∈ gs, ∃ x, g.Reads aliases row x) (hv : v.IsFlag b) :
    f.SelectsIff schema policy .notEmpty v aliases row
      (∃ g ∈ gs, (g.EmptyIn aliases row ↔ b = false)) :=
  hf.selectsIff rfl rfl fun g hg => (hrow g hg).elim fun _ hx => answers_notEmpty hx hv

/-- Columns agree if all are as a flag says as soon as one is. -/
theorem agree_iff (b : Bool) :
    Agree aliases row gs ↔
      ((∀ g ∈ gs, (g.EmptyIn aliases row ↔ b = true)) ↔
        ∃ g ∈ gs, (g.EmptyIn aliases row ↔ b = true)) := by
  rw [forall_iff_exists_mem, Agree]
  cases b
  · simp [or_comm]
  · simp

/-- A single column agrees with itself. -/
theorem agree_singleton (aliases : Aliases) (row : Value) (g : Field) : Agree aliases row [g] := by
  rw [Agree, List.forall_mem_singleton, List.forall_mem_singleton]
  exact ⟨nofun, em _⟩

/-- **Opposite flags select opposite rows if and only if the columns agree.** Asking whether a field is
not empty is the opposite of asking whether it is empty. To ask whether it is empty is the opposite of
asking so with the opposite flag, and the same as asking with the opposite flag whether it is not empty,
if and only if all columns of the field are empty or none is. A single column always agrees. -/
theorem emptiness_dual_iff (policy : CompositePolicy) (hf : f.StandsFor schema gs)
    (hrow : ∀ g ∈ gs, ∃ x, g.Reads aliases row x) (hv : v.IsFlag b) (hw : w.IsFlag !b) :
    ∃ isEmpty isOpposite isNot : Bool,
      f.Selects schema policy .empty v aliases row isEmpty ∧
      f.Selects schema policy .empty w aliases row isOpposite ∧
      f.Selects schema policy .notEmpty w aliases row isNot ∧
      isNot = !isOpposite ∧
      (isEmpty = !isOpposite ↔ Agree aliases row gs) ∧
      (isEmpty = isNot ↔ Agree aliases row gs) ∧
      (f.IsColumn → Agree aliases row gs) := by
  obtain ⟨isEmpty, hempty, hisEmpty⟩ := (hf.selectsIff_empty policy hrow hv).selects
  obtain ⟨isOpposite, hopposite, hisOpposite⟩ := (hf.selectsIff_empty policy hrow hw).selects
  obtain ⟨isNot, hnot, hisNot⟩ := (hf.selectsIff_notEmpty policy hrow hw).selects
  have hdual : isNot = !isOpposite := by
    rw [Bool.eq_iff_iff, Bool.not_eq_true', ← Bool.not_eq_true, hisNot, hisOpposite]
    cases b <;> simp
  have hagree : isEmpty = isNot ↔ Agree aliases row gs := by
    rw [agree_iff b, Bool.eq_iff_iff, hisEmpty, hisNot]
    simp
  refine ⟨isEmpty, isOpposite, isNot, hempty, hopposite, hnot, hdual, hdual ▸ hagree, hagree, ?_⟩
  intro hcolumn
  cases hf with
  | column => exact agree_singleton aliases row f
  | composite => exact absurd hcolumn (by simp [IsColumn, kind])

end Field

/-! ### Members that differ -/

namespace Field

/-- The family name of a person. -/
def family : Field := .plain "family" .string

/-- The given name of a person. -/
def given : Field := .plain "given" .string

/-- The tags of the account of a person. -/
def tags : Field :=
  .join "tags" (some "account") none [.text "account", .text "tags"] .array (Operator.forType .array)

/-- Both names of a person. -/
def full : Field := .composite "full" ["family", "given"]

/-- What a person can leave out. -/
def profile : Field := .composite "profile" ["family", "tags"]

end Field

/-- Persons with names and accounts. -/
def Schema.persons : Schema :=
  ⟨"persons", [.family, .given, .tags, .full, .profile], ["full", "profile"], [], .null, .null, .null,
    .null, .null⟩

/-- A person without a family name and without tags. -/
def annRow : Value :=
  .record [("family", .null), ("given", .text "Ann"), ("account", .record [("tags", .list [])])]

namespace Field

/-- The profile is empty in both of its members, so the questions agree. -/
theorem emptiness_dual_profile :
    profile.StandsFor (some .persons) [family, tags] ∧
    (∀ g ∈ [family, tags], ∃ x, g.Reads [] annRow x) ∧
    (Value.text " False\t").IsFlag false ∧ (Value.bool true).IsFlag true ∧
    Agree [] annRow [family, tags] ∧
    ∃ isEmpty isOpposite isNot : Bool,
      profile.Selects (some .persons) .warn .empty (.text " False\t") [] annRow isEmpty ∧
      profile.Selects (some .persons) .warn .empty (.bool true) [] annRow isOpposite ∧
      profile.Selects (some .persons) .warn .notEmpty (.bool true) [] annRow isNot ∧
      isNot = !isOpposite ∧
      (isEmpty = !isOpposite ↔ Agree [] annRow [family, tags]) ∧
      (isEmpty = isNot ↔ Agree [] annRow [family, tags]) ∧
      (profile.IsColumn → Agree [] annRow [family, tags]) := by
  have hcolumns : ∀ g ∈ [family, tags], g.IsColumn := by
    simp [family, tags, IsColumn, kind]
  have hf : profile.StandsFor (some .persons) [family, tags] := .composite rfl hcolumns
  have hfamily : family.Reads [] annRow .null := ⟨_, rfl, rfl⟩
  have htags : tags.Reads [] annRow (.list []) := ⟨_, rfl, rfl⟩
  have hrow : ∀ g ∈ [family, tags], ∃ x, g.Reads [] annRow x := by
    simpa using ⟨⟨_, hfamily⟩, ⟨_, htags⟩⟩
  have hblank : Text.isBlank ' ' = true ∧ Text.isBlank '\t' = true := ⟨rfl, rfl⟩
  have hv : (Value.text " False\t").IsFlag false :=
    @Value.IsFlag.text [' '] "False".toList ['\t'] false (by simp [hblank]) (by simp [hblank]) rfl
  have hempty : ∀ g ∈ [family, tags], g.EmptyIn [] annRow := by
    simpa using ⟨hfamily.emptyIn_iff.2 (.inl rfl), htags.emptyIn_iff.2 (.inr (.inl ⟨rfl, rfl⟩))⟩
  exact ⟨hf, hrow, hv, .bool true, ⟨List.cons_ne_nil _ _, .inl hempty⟩,
    emptiness_dual_iff .warn hf hrow hv (.bool true)⟩

/-- **A name with one part is neither empty nor not**: whatever the flag is, the question whether it is
empty does not select the row, while the one whether it is not empty does. -/
theorem emptiness_not_dual :
    Schema.persons.resolve "full" = .ok full ∧
    full.Selects (some .persons) .warn .empty (.bool false) [] annRow false ∧
    full.Selects (some .persons) .warn .empty (.bool true) [] annRow false ∧
    full.Selects (some .persons) .warn .notEmpty (.bool true) [] annRow true := by
  have hproper : ∀ ps, (Predicate.all ps).Proper ∧ (Predicate.any ps).Proper := by
    simp [Predicate.Proper]
  let isEmpty (name : String) : Predicate := .isNull (.plain name)
  have hfalse : full.select (some .persons) .warn .empty (.bool false) =
      .ok (.all [.not (isEmpty "family"), .not (isEmpty "given")]) := rfl
  have htrue : full.select (some .persons) .warn .empty (.bool true) =
      .ok (.all [isEmpty "family", isEmpty "given"]) := rfl
  have hnot : full.select (some .persons) .warn .notEmpty (.bool true) =
      .ok (.any [.not (isEmpty "family"), .not (isEmpty "given")]) := rfl
  exact ⟨rfl, selects_of_evaluate hfalse (hproper _).1 rfl, selects_of_evaluate htrue (hproper _).1 rfl,
    selects_of_evaluate hnot (hproper _).2 rfl⟩

end Field

end Sieve
