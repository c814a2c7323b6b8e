import Sieve.Intake
/-!
# Paths of complaints

A complaint about a value is found at the path that the value was read at, or at a path inside of it: that
of an item of a list.

* `Detail.parameter` is the parameter that a complaint is about;
* `Intake.Located` says that what is complained about in an outcome is at a path.

Main statements: `Detail.IsAt.parameter_eq`, `located_integer`, `located_text`, `located_list`.
-/

namespace Sieve

/-- The parameter that a complaint is about: the first part of its path. -/
def Detail.parameter (d : Detail) : String :=
  String.ofList (d.path.toList.takeWhile (· != '.'))

/-- A complaint is about a path or something inside. -/
def Detail.IsAt (path : String) (d : Detail) : Prop :=
  d.path = path ∨ ∃ rest, d.path = path ++ "." ++ rest

theorem Detail.IsAt.parameter_eq {path : String} {d : Detail} (h : d.IsAt path)
    (hpath : '.' ∉ path.toList) : d.parameter = path := by
  have hplain : ∀ c ∈ path.toList, (c != '.') = true := by
    intro c hc
    rw [bne_iff_ne]
    rintro rfl
    exact hpath hc
  unfold parameter
  rcases h with h | ⟨rest, h⟩
  · have hall : (path.toList ++ []).takeWhile (· != '.') = path.toList := by
      rw [List.takeWhile_append_of_pos hplain, List.takeWhile_nil, List.append_nil]
    rw [List.append_nil] at hall
    rw [h, hall, String.ofList_toList]
  · rw [h, String.toList_append, String.toList_append, List.append_assoc,
      List.takeWhile_append_of_pos hplain]
    simp

theorem Detail.IsAt.of_item {path : String} {i : Nat} {d : Detail}
    (h : d.IsAt (Intake.itemPath path i)) : d.IsAt path := by
  rcases h with h | ⟨rest, h⟩
  · exact .inr ⟨_, h⟩
  · exact .inr ⟨String.ofList (Numeral.digitsOf i) ++ "." ++ rest, by
      rw [h, Intake.itemPath]
      simp only [String.append_assoc]⟩

namespace Intake

variable {α β : Type} {path : String}

/-- What is complained about in an outcome is at a path. -/
def Located (path : String) (r : Outcome α) : Prop :=
  ∀ ds, r = .error ds → ∀ d ∈ ds, d.IsAt path

theorem located_ok (a : α) : Located path (.ok a : Outcome α) :=
  nofun

theorem located_complain (kind message : String) : Located path (complain path kind message : Outcome α) := by
  rintro ds ⟨⟩ d hd
  exact .inl (by rw [List.mem_singleton.1 hd])

theorem located_notUnicode : Located path (notUnicode path : Outcome α) :=
  located_complain _ _

theorem Located.map {r : Outcome α} (h : Located path r) (f : α → β) : Located path (f <$> r) := by
  cases r with
  | ok a => exact located_ok (f a)
  | error es =>
    rintro ds ⟨⟩
    exact h es rfl

theorem located_integerOfText (s : String) : Located path (integerOfText path s) := by
  unfold integerOfText
  dsimp only
  split
  · split
    · exact located_complain _ _
    · exact located_ok _
  · exact located_complain _ _

theorem located_integerOfFloat (x : Binary64) : Located path (integerOfFloat path x) := by
  unfold integerOfFloat
  split
  · split
    · split
      · exact located_ok _
      · exact located_complain _ _
    · exact located_complain _ _
  · exact located_complain _ _

theorem located_integerOfDecimal (d : Decimal) : Located path (integerOfDecimal path d) := by
  unfold integerOfDecimal
  split
  · split
    · exact located_ok _
    · split
      · exact located_ok _
      · split
        · exact located_ok _
        · exact located_complain _ _
  · exact located_complain _ _

theorem located_integer (path : String) (v : Value) : Located path (integer path v) := by
  unfold integer
  split
  · exact located_ok _
  · exact located_ok _
  · exact (located_integerOfFloat _).map _
  · exact (located_integerOfDecimal _).map _
  · exact (located_integerOfText _).map _
  · exact located_notUnicode
  · split
    · exact (located_integerOfText _).map _
    · exact located_complain _ _
  · exact located_ok _
  · exact located_complain _ _

theorem located_text (path : String) (v : Value) : Located path (text path v) := by
  unfold text
  split
  · exact located_ok _
  · exact located_notUnicode
  · split
    · exact located_ok _
    · exact located_notUnicode
  · exact located_ok _
  · exact located_complain _ _

theorem located_collect {rs : List (Outcome α)} (h : ∀ r ∈ rs, Located path r) :
    Located path (collect rs) := by
  induction rs with
  | nil => exact located_ok []
  | cons r rs ih =>
    have hfirst := h r List.mem_cons_self
    have hrest := ih fun r hr => h r (List.mem_cons_of_mem _ hr)
    rintro ds hds d hd
    cases r with
    | ok a =>
      rw [collect] at hds
      cases hcollect : collect rs with
      | ok as => simp [hcollect] at hds
      | error es =>
        simp only [hcollect, Except.error.injEq] at hds
        exact hrest es hcollect d (hds ▸ hd)
    | error es =>
      rw [collect] at hds
      cases hcollect : collect rs with
      | ok as =>
        simp only [hcollect, Except.error.injEq] at hds
        exact hfirst es rfl d (hds ▸ hd)
      | error es' =>
        simp only [hcollect, Except.error.injEq] at hds
        rcases List.mem_append.1 (hds ▸ hd) with hd | hd
        · exact hfirst es rfl d hd
        · exact hrest es' hcollect d hd

/-- What is wrong with the items of a list is at its path. -/
theorem located_list {item : String → Value → Outcome α} (hitem : ∀ path v, Located path (item path v))
    (path : String) (v : Value) : Located path (list path item v) := by
  have hitems : ∀ xs : List Value,
      Located path (collect (xs.zipIdx.map fun e => item (itemPath path e.2) e.1)) := by
    intro xs
    refine located_collect fun r hr ds hds d hd => ?_
    obtain ⟨e, _, rfl⟩ := List.mem_map.1 hr
    exact (hitem _ _ ds hds d hd).of_item
  unfold list
  split
  · exact hitems _
  · exact hitems _
  · exact hitems _
  · exact located_complain _ _

end Intake

end Sieve
