import Sieve.Proofs.Outcome
import Sieve.Filter.Draft

/-!
# Reading filters off data

Data has the form of a filter if it has entries: maps have them, and so have filters and groups of
filters as objects. A list of filters is a list, a tuple, or a map from index numbers, whose values are
taken in increasing order of the numbers.

* `Value.entriesOf?`, `Value.entry`: the entries of data;
* `Value.Listed`: the items that data lists;
* `Value.draft_of_leaf`, `Value.draft_of_children`, `Value.drafts_ok_iff`: drafts are what entries
  and items say;
* `Value.exists_of_drafts_overflow`: an index number beyond all integers.
-/

namespace Sieve

namespace Value

/-- The entries of a map, or the attributes of an object that is a filter. -/
def entriesOf? : Value → Option (String → Option Value)
  | map es => some fun name => lookup? name es
  | object kind as =>
    if kind = Filter.conditionKind ∨ kind = Filter.groupKind then some fun name => as.lookup name
    else none
  | _ => none

/-- The value of an entry; null if there is none. -/
def entry (get : String → Option Value) (name : String) : Value :=
  (get name).getD .null

/-- The items that a value lists. A map from index numbers lists its values, the smaller numbers
first, and those of one number as they stand in the map. -/
inductive Listed : Value → List Value → Prop
  | list (xs : List Value) : Listed (list xs) xs
  | tuple (xs : List Value) : Listed (tuple xs) xs
  | map {es : List (Value × Value)} {numbered : List (Int × Value)}
      (h : List.Forall₂ (fun e n => wholePart e.1 = .ok n.1 ∧ e.2 = n.2) es numbered) :
      Listed (map es) ((numbered.mergeSort (·.1 ≤ ·.1)).map (·.2))

/-! ### Entries -/

theorem childDrafts?_eq (es : List (Value × Value)) :
    childDrafts? es = (lookup? "filters" es).map drafts := by
  induction es with
  | nil => rfl
  | cons e r ih =>
    obtain ⟨k, v⟩ := e
    cases k with
    | text name =>
      by_cases hname : name = "filters"
      · simp [childDrafts?, lookup?, hname]
      · simp [childDrafts?, lookup?, hname, ih]
    | _ => simpa [childDrafts?, lookup?] using ih

theorem attributeDrafts?_eq (as : List (String × Value)) :
    attributeDrafts? as = (as.lookup "filters").map drafts := by
  induction as with
  | nil => rfl
  | cons a r ih =>
    obtain ⟨name, v⟩ := a
    by_cases hname : name = "filters"
    · simp [attributeDrafts?, hname]
    · have hne : ("filters" == name) = false := by simpa using Ne.symm hname
      simp [attributeDrafts?, List.lookup_cons, hname, hne, ih]

section

variable {v : Value} {get : String → Option Value}

/-- Data without entries is unreadable. -/
theorem draft_of_none (hv : v.entriesOf? = none) : v.draft = .unreadable := by
  cases v with
  | map es => cases hv
  | object kind as =>
    have hkind : ¬(kind = Filter.conditionKind ∨ kind = Filter.groupKind) := by
      intro hkind
      rw [entriesOf?, if_pos hkind] at hv
      cases hv
    rw [draft, if_neg hkind]
  | _ => simp [draft]

/-- A draft is made of the entries. -/
theorem draft_of_some (hv : v.entriesOf? = some get) :
    v.draft = .ofParts (entry get) ((get "filters").map drafts) := by
  cases v with
  | map es =>
    cases hv
    rw [draft, childDrafts?_eq]
    rfl
  | object kind as =>
    by_cases hkind : kind = Filter.conditionKind ∨ kind = Filter.groupKind
    · rw [entriesOf?, if_pos hkind] at hv
      cases hv
      rw [draft, if_pos hkind, attributeDrafts?_eq]
      rfl
    · rw [entriesOf?, if_neg hkind] at hv
      cases hv
  | _ => cases hv

/-- Entries without one for filters make a condition. -/
theorem draft_of_leaf (hv : v.entriesOf? = some get) (hleaf : get "filters" = none) :
    v.draft = .condition (entry get "field") (entry get "op") (entry get "value") := by
  rw [draft_of_some hv, hleaf]
  rfl

/-- Entries with one for filters make a group, of which the children are the filters. -/
theorem draft_of_children {children : Value} (hv : v.entriesOf? = some get)
    (hgroup : get "filters" = some children) :
    v.draft = .ofParts (entry get) (some children.drafts) := by
  rw [draft_of_some hv, hgroup]
  rfl

theorem ofParts_ne_condition {get : String → Value} {r : Except Error (List Draft)}
    {field op value : Value} : Draft.ofParts get (some r) ≠ .condition field op value := by
  unfold Draft.ofParts
  split <;> simp_all

theorem ofParts_eq_group {get : String → Value} {r : Except Error (List Draft)} {type : Value}
    {ds : List Draft} (h : Draft.ofParts get (some r) = .group type ds) :
    type = get "type" ∧ (ds = [] ∨ r = .ok ds) := by
  unfold Draft.ofParts at h
  split at h
  · cases h
  · next hr =>
    cases h
    exact ⟨rfl, .inr (Option.some_inj.1 hr)⟩
  · cases h
  · cases h
    exact ⟨rfl, .inl rfl⟩

theorem ofParts_eq_unbounded {get : String → Value} {r : Except Error (List Draft)} {type : Value}
    (h : Draft.ofParts get (some r) = .unbounded type) : r = .error .overflow := by
  unfold Draft.ofParts at h
  split at h
  · cases h
  · cases h
  · next hr => exact Option.some_inj.1 hr
  · cases h

/-- A condition is made of entries without one for filters. -/
theorem draft_eq_condition {field op value : Value} (h : v.draft = .condition field op value) :
    ∃ get, v.entriesOf? = some get ∧ get "filters" = none ∧ field = entry get "field" ∧
      op = entry get "op" ∧ value = entry get "value" := by
  cases hv : v.entriesOf? with
  | none =>
    rw [draft_of_none hv] at h
    cases h
  | some get =>
    cases hget : get "filters" with
    | none =>
      rw [draft_of_leaf hv hget] at h
      cases h
      exact ⟨get, rfl, hget, rfl, rfl, rfl⟩
    | some children =>
      rw [draft_of_children hv hget] at h
      exact absurd h ofParts_ne_condition

/-- A draft that is neither a condition nor unreadable is made of entries with one for filters. -/
theorem exists_children {d : Draft} (h : v.draft = d)
    (hgroup : d ≠ .unreadable ∧ ∀ field op value, d ≠ .condition field op value) :
    ∃ get children, v.entriesOf? = some get ∧ get "filters" = some children ∧
      .ofParts (entry get) (some children.drafts) = d := by
  cases hv : v.entriesOf? with
  | none => exact absurd ((draft_of_none hv).symm.trans h).symm hgroup.1
  | some get =>
    cases hget : get "filters" with
    | none => exact absurd ((draft_of_leaf hv hget).symm.trans h).symm (hgroup.2 _ _ _)
    | some children =>
      exact ⟨get, children, rfl, hget, (draft_of_children hv hget).symm.trans h⟩

end

/-! ### Items -/

section

variable {α β : Type}

theorem inOrder_map (g : α → β) (es : List (Value × α)) :
    inOrder (es.map fun e => (e.1, g e.2)) = List.map g <$> inOrder es := by
  have hnumbered : (es.map fun e => (e.1, g e.2)).mapM (fun e => do
      return (← wholePart e.1, e.2)) =
      List.map (Prod.map id g) <$> es.mapM (fun e => do return (← wholePart e.1, e.2)) := by
    induction es with
    | nil => rfl
    | cons e r ih =>
      rw [List.map_cons, List.mapM_cons, List.mapM_cons, ih]
      cases wholePart e.1 with
      | error e => rfl
      | ok i => cases r.mapM (fun e => do return (← wholePart e.1, e.2)) <;> rfl
  unfold inOrder
  rw [hnumbered]
  cases es.mapM (fun e => do return (← wholePart e.1, e.2)) with
  | error e => rfl
  | ok numbered =>
    have hsort : (numbered.mergeSort (·.1 ≤ ·.1)).map (Prod.map id g) =
        (numbered.map (Prod.map id g)).mergeSort (·.1 ≤ ·.1) :=
      List.map_mergeSort fun _ _ _ _ => rfl
    show Except.ok (((numbered.map (Prod.map id g)).mergeSort (·.1 ≤ ·.1)).map (·.2)) = _
    rw [← hsort, List.map_map]
    exact congrArg Except.ok (by simp)

theorem inOrder_ok_iff {es : List (Value × α)} {xs : List α} :
    inOrder es = .ok xs ↔ ∃ numbered : List (Int × α),
      List.Forall₂ (fun e n => wholePart e.1 = .ok n.1 ∧ e.2 = n.2) es numbered ∧
        xs = (numbered.mergeSort (·.1 ≤ ·.1)).map (·.2) := by
  have hentry : ∀ (e : Value × α) (n : Int × α),
      (do return (← wholePart e.1, e.2)) = (Except.ok n : Except Error (Int × α)) ↔
        wholePart e.1 = .ok n.1 ∧ e.2 = n.2 := by
    intro e n
    cases wholePart e.1 with
    | error e => simp
    | ok i => simp [Prod.ext_iff]
  unfold inOrder
  rw [Outcome.bind_eq_ok_iff]
  refine exists_congr fun numbered => and_congr ?_ ?_
  · rw [Outcome.mapM_eq_ok_iff]
    simp only [hentry]
  · simp [eq_comm]

theorem exists_of_inOrder_error {es : List (Value × α)} {err : Error}
    (h : inOrder es = .error err) : ∃ e ∈ es, wholePart e.1 = .error err := by
  unfold inOrder at h
  cases hnumbered : es.mapM (fun e => do return (← wholePart e.1, e.2)) with
  | ok numbered =>
    rw [hnumbered] at h
    cases h
  | error err' =>
    rw [hnumbered] at h
    cases h
    obtain ⟨e, he, hentry⟩ := Outcome.exists_of_mapM_error hnumbered
    refine ⟨e, he, ?_⟩
    cases hkey : wholePart e.1 with
    | ok i =>
      rw [hkey] at hentry
      cases hentry
    | error err' =>
      rw [hkey] at hentry
      cases hentry
      rfl

end

theorem listed_map_iff {es : List (Value × Value)} {xs : List Value} :
    Listed (map es) xs ↔ inOrder es = .ok xs := by
  rw [inOrder_ok_iff]
  constructor
  · rintro (_ | _ | h)
    exact ⟨_, h, rfl⟩
  · rintro ⟨numbered, h, rfl⟩
    exact .map h

/-- A value lists its items in one way. -/
theorem Listed.unique {v : Value} {xs ys : List Value} (hx : Listed v xs) (hy : Listed v ys) :
    xs = ys := by
  cases hx with
  | list => cases hy; rfl
  | tuple => cases hy; rfl
  | map h => exact Except.ok.inj ((listed_map_iff.1 (.map h)).symm.trans (listed_map_iff.1 hy))

theorem draftEntries_eq_map (es : List (Value × Value)) :
    draftEntries es = es.map fun e => (e.1, e.2.draft) := by
  induction es with
  | nil => rfl
  | cons e r ih => simp [draftEntries, ih]

/-- The drafts of a list are those of its items. -/
theorem drafts_ok_iff {v : Value} {ds : List Draft} :
    v.drafts = .ok ds ↔ ∃ xs, Listed v xs ∧ ds = xs.map draft := by
  cases v with
  | list xs =>
    rw [drafts_list]
    constructor
    · intro h
      exact ⟨xs, .list xs, (Except.ok.inj h).symm⟩
    · rintro ⟨_, ⟨⟩, rfl⟩
      rfl
  | tuple xs =>
    rw [drafts, draftItems_eq_map]
    constructor
    · intro h
      exact ⟨xs, .tuple xs, (Except.ok.inj h).symm⟩
    · rintro ⟨_, ⟨⟩, rfl⟩
      rfl
  | map es =>
    rw [drafts, draftEntries_eq_map, inOrder_map, Outcome.map_eq_ok_iff]
    simp only [listed_map_iff, eq_comm (a := ds)]
  | _ =>
    rw [drafts]
    · constructor
      · intro h
        cases h
      · rintro ⟨_, ⟨⟩, _⟩
    all_goals simp

/-- Index numbers beyond all integers are those of infinite numbers. -/
theorem exists_of_drafts_overflow {v : Value} (h : v.drafts = .error .overflow) :
    ∃ es, v = map es ∧ ∃ e ∈ es, wholePart e.1 = .error .overflow := by
  cases v with
  | map es =>
    rw [drafts, draftEntries_eq_map, inOrder_map] at h
    cases horder : inOrder es with
    | ok xs =>
      rw [horder] at h
      cases h
    | error err =>
      rw [horder] at h
      cases h
      exact ⟨es, rfl, exists_of_inOrder_error horder⟩
  | list | tuple => simp [drafts] at h
  | _ =>
    rw [drafts] at h
    · cases h
    all_goals simp

end Value

end Sieve
