import Sieve.Proofs.Evaluation.Emptiness

/-!
# Searching several columns at once

A composite is searched in all of its members. A term is found if some member holds it, so the words of a
text may be spread over the members, and a member with null neither holds anything nor hides what the
others hold.

* `Value.HasTerms`, `Value.HasWords`: what a value looks for;
* `Field.Shows`: a column holds a term;
* `Field.answers_like`: what a column answers;
* `Field.composite_search`: the rows that are selected by a composite.
-/

namespace Sieve

open Outcome

/-! ### Terms and words -/

/-- The terms of a value: the items of a list or a tuple as texts, else the value itself as a text. -/
inductive Value.HasTerms : Value → List String → Prop
  | list {xs : List Value} {terms : List String} (h : xs.mapM written = .ok terms) :
    HasTerms (.list xs) terms
  | tuple {xs : List Value} {terms : List String} (h : xs.mapM written = .ok terms) :
    HasTerms (.tuple xs) terms
  | single {v : Value} {term : String} (hlist : ∀ xs, v ≠ .list xs) (htuple : ∀ xs, v ≠ .tuple xs)
      (h : v.written = .ok term) : HasTerms v [term]

/-- The words of a value: the parts of a text between blanks, else the items as texts. -/
inductive Value.HasWords : Value → List String → Prop
  | text (s : String) :
    HasWords (.text s) (((s.toList.splitOnP Text.isBlank).filter (!·.isEmpty)).map String.ofList)
  | items {v : Value} {xs : List Value} {words : List String} (htext : ∀ s : RawText, v ≠ .ofRaw s)
      (hitems : v.items = .ok xs) (h : xs.mapM written = .ok words) : HasWords v words

namespace Value

variable {v : Value} {terms words : List String}

theorem HasTerms.givenTerms (h : v.HasTerms terms) : Operator.givenTerms v = .ok terms := by
  cases h with
  | list h | tuple h => exact h
  | @single v term hlist htuple h =>
    have hsingle : [v].mapM Value.written = .ok [term] := by simp [h]
    cases v with
    | list xs => exact absurd rfl (hlist xs)
    | tuple xs => exact absurd rfl (htuple xs)
    | _ => exact hsingle

theorem HasWords.searchTerms (h : v.HasWords words) : v.searchTerms = .ok words := by
  cases h with
  | text s => exact congrArg Except.ok (Text.words_eq s)
  | items htext hitems h =>
    rw [Value.searchTerms, hitems]
    · exact h
    · exact fun s => htext (.whole s)
    · exact fun t => htext (.broken t)

end Value

/-! ### Columns -/

/-- The column has a text on the row that holds the term in one piece. -/
def Field.Shows (aliases : Aliases) (row : Value) (g : Field) (term : String) : Prop :=
  ∃ t, g.Reads aliases row (.text t) ∧ term.toList <:+: t.toList

/-- The column has null or a text on the row. -/
def Field.HasText (aliases : Aliases) (row : Value) (g : Field) : Prop :=
  ∃ x, g.Reads aliases row x ∧ (x = .null ∨ ∃ t, x = .text t)

/-- The predicate that a field holds a term is true of the texts that do, and unknown of null. -/
theorem Operator.trueIff_termPredicate {aliases : Aliases} {row x : Value} {r : FieldRef}
    (hr : r.read aliases row = .ok x) (hx : x = .null ∨ ∃ t, x = .text t) (term : String) :
    (termPredicate r true term).TrueIff aliases row
      (∃ t, x = .text t ∧ term.toList <:+: t.toList) := by
  rcases hx with rfl | ⟨t, rfl⟩
  · have hunknown : (termPredicate r true term).evaluate aliases row = .ok none := by
      rw [termPredicate, Predicate.evaluate, hr]
      rfl
    exact ⟨Predicate.proper_like _ _ _, none, hunknown, by simp⟩
  · obtain ⟨hproper, hdecided⟩ := evaluate_termPredicate hr term
    exact ⟨hproper, _, hdecided, by simp⟩

namespace Field

variable {schema : Option Schema} {policy : CompositePolicy} {u v w : Value} {aliases : Aliases}
  {row : Value} {g : Field} {gs : List Field} {name : String} {members : List String}
  {terms words : List String}

theorem Reads.shows_iff {x : Value} (hx : g.Reads aliases row x) (term : String) :
    g.Shows aliases row term ↔ ∃ t, x = .text t ∧ term.toList <:+: t.toList := by
  constructor
  · rintro ⟨t, ht, hterm⟩
    exact ⟨t, hx.unique ht, hterm⟩
  · rintro ⟨t, rfl, hterm⟩
    exact ⟨t, hx, hterm⟩

/-- A column is searched for terms: one of them is enough. -/
theorem answers_like (hg : g.HasText aliases row) (hv : v.HasTerms terms) :
    g.Answers .like v aliases row (∃ term ∈ terms, g.Shows aliases row term) := by
  obtain ⟨x, ⟨r, hr, hread⟩, hx⟩ := hg
  have heach : List.Forall₂
      (fun term p => Predicate.TrueIff aliases row p (g.Shows aliases row term)) terms
      (terms.map (Operator.termPredicate r true)) := by
    rw [List.forall₂_map_right_iff, List.forall₂_same]
    exact fun term _ =>
      (Operator.trueIff_termPredicate hread hx term).congr (Reads.shows_iff ⟨r, hr, hread⟩ term).symm
  refine ⟨r, .disjunction (terms.map (Operator.termPredicate r true)), hr, ?_,
    Predicate.trueIff_disjunction heach⟩
  rw [Operator.onRef, Operator.someTerm, hv.givenTerms]
  rfl

/-- A column is searched for a single term. -/
theorem answers_like_text (hg : g.HasText aliases row) (term : String) :
    g.Answers .like (.text term) aliases row (g.Shows aliases row term) := by
  have hterms : (Value.text term).HasTerms [term] := .single nofun nofun (by simp)
  obtain ⟨r, p, hr, hp, htrue⟩ := answers_like hg hterms
  exact ⟨r, p, hr, hp, htrue.congr (by simp)⟩

/-- A column with null or a text is empty if it has null. -/
theorem HasText.emptyIn_iff (hg : g.HasText aliases row) :
    g.EmptyIn aliases row ↔ g.Reads aliases row .null := by
  obtain ⟨x, hx, hnull⟩ := hg
  rw [hx.emptyIn_iff]
  constructor
  · intro hempty
    rcases hnull with rfl | ⟨t, rfl⟩
    · exact hx
    · simp [Value.EmptyAs] at hempty
  · intro hread
    exact .inl (hx.unique hread)

theorem HasText.not_emptyIn_iff (hg : g.HasText aliases row) :
    ¬g.EmptyIn aliases row ↔ ∃ t, g.Reads aliases row (.text t) := by
  rw [hg.emptyIn_iff]
  obtain ⟨x, hx, rfl | ⟨t, rfl⟩⟩ := hg
  · exact ⟨fun h => absurd hx h, fun ⟨_, ht⟩ => absurd (hx.unique ht) nofun⟩
  · exact ⟨fun _ => ⟨t, hx⟩, fun _ hnull => absurd (hx.unique hnull) nofun⟩

/-- **A composite is searched in all of its members.** Terms are met if some member shows one of them.
The words of a text have to be shown all, or one of them, each by any member. The composite is empty if all
members have null, and it is not if one has a text. -/
theorem composite_search (policy : CompositePolicy)
    (hf : (composite name members).StandsFor schema gs) (hrow : ∀ g ∈ gs, g.HasText aliases row)
    (hv : v.HasTerms terms) (hu : u.HasWords words) (hw : w.IsFlag true) :
    (composite name members).SelectsIff schema policy .like v aliases row
      (∃ g ∈ gs, ∃ term ∈ terms, g.Shows aliases row term) ∧
    (composite name members).SelectsIff schema policy .likeAnd u aliases row
      (∀ word ∈ words, ∃ g ∈ gs, g.Shows aliases row word) ∧
    (composite name members).SelectsIff schema policy .likeOr u aliases row
      (∃ word ∈ words, ∃ g ∈ gs, g.Shows aliases row word) ∧
    (composite name members).SelectsIff schema policy .empty w aliases row
      (∀ g ∈ gs, g.Reads aliases row .null) ∧
    (composite name members).SelectsIff schema policy .notEmpty w aliases row
      (∃ g ∈ gs, ∃ t, g.Reads aliases row (.text t)) := by
  obtain ⟨hgs, hcolumns⟩ := standsFor_composite_iff.1 hf
  have hreads : ∀ g ∈ gs, ∃ x, g.Reads aliases row x := fun g hg => (hrow g hg).imp fun _ hx => hx.1
  have hterms : (composite name members).SelectsIff schema policy .like v aliases row
      (∃ g ∈ gs, ∃ term ∈ terms, g.Shows aliases row term) :=
    hf.selectsIff rfl rfl fun g hg => answers_like (hrow g hg) hv
  have hword : ∀ word ∈ words, ∀ g ∈ gs,
      g.Answers .like (.text word) aliases row (g.Shows aliases row word) :=
    fun word _ g hg => answers_like_text (hrow g hg) word
  have hempty : (∀ g ∈ gs, (g.EmptyIn aliases row ↔ true = true)) ↔
      ∀ g ∈ gs, g.Reads aliases row .null :=
    forall₂_congr fun g hg => by rw [(hrow g hg).emptyIn_iff, eq_self, iff_true]
  have hgiven : (∃ g ∈ gs, (g.EmptyIn aliases row ↔ true = false)) ↔
      ∃ g ∈ gs, ∃ t, g.Reads aliases row (.text t) :=
    exists_congr fun g => and_congr_right fun hg => by simp [(hrow g hg).not_emptyIn_iff]
  exact ⟨hterms, selectsIff_words hgs hcolumns rfl hu.searchTerms hword,
    selectsIff_words hgs hcolumns rfl hu.searchTerms hword,
    (hf.selectsIff_empty policy hreads hw).congr hempty,
    (hf.selectsIff_notEmpty policy hreads hw).congr hgiven⟩

end Field

/-! ### Words in different members -/

/-- The nickname of the account of a person. -/
def Field.nickname : Field :=
  .join "nickname" (some "account") none [.text "account", .text "nickname"] .string
    (Operator.forType .string)

/-- All names of a person. -/
def Field.names : Field := .composite "names" ["family", "given", "nickname"]

/-- Persons with three names. -/
def Schema.nicknamed : Schema :=
  ⟨"nicknamed", [.family, .given, .nickname, .names], ["names"], [], .null, .null, .null, .null, .null⟩

/-- A person without a given name. -/
def leeRow : Value :=
  .record [("family", .text "Lee"), ("given", .null), ("account", .record [("nickname", .text "annie")])]

namespace Field

/-- One word is found in the family name and the other one in the nickname, with null between them. -/
theorem composite_search_names :
    names.StandsFor (some .nicknamed) [family, given, nickname] ∧
    (∀ g ∈ [family, given, nickname], g.HasText [] leeRow) ∧
    (Value.list [.text "Ann", .int 7]).HasTerms ["Ann", "7"] ∧
    (Value.text " Le  nn ").HasWords ["Le", "nn"] ∧ (Value.text "TRUE").IsFlag true ∧
    names.SelectsIff (some .nicknamed) .warn .like (.list [.text "Ann", .int 7]) [] leeRow
      (∃ g ∈ [family, given, nickname], ∃ term ∈ ["Ann", "7"], g.Shows [] leeRow term) ∧
    names.SelectsIff (some .nicknamed) .warn .likeAnd (.text " Le  nn ") [] leeRow
      (∀ word ∈ ["Le", "nn"], ∃ g ∈ [family, given, nickname], g.Shows [] leeRow word) ∧
    names.SelectsIff (some .nicknamed) .warn .likeOr (.text " Le  nn ") [] leeRow
      (∃ word ∈ ["Le", "nn"], ∃ g ∈ [family, given, nickname], g.Shows [] leeRow word) ∧
    names.SelectsIff (some .nicknamed) .warn .empty (.text "TRUE") [] leeRow
      (∀ g ∈ [family, given, nickname], g.Reads [] leeRow .null) ∧
    names.SelectsIff (some .nicknamed) .warn .notEmpty (.text "TRUE") [] leeRow
      (∃ g ∈ [family, given, nickname], ∃ t, g.Reads [] leeRow (.text t)) := by
  have hcolumns : ∀ g ∈ [family, given, nickname], g.IsColumn := by
    simp [family, given, nickname, IsColumn, kind]
  have hf : names.StandsFor (some .nicknamed) [family, given, nickname] := .composite rfl hcolumns
  have hrow : ∀ g ∈ [family, given, nickname], g.HasText [] leeRow := by
    simpa using ⟨⟨_, ⟨_, rfl, rfl⟩, .inr ⟨"Lee", rfl⟩⟩, ⟨_, ⟨_, rfl, rfl⟩, .inl rfl⟩,
      ⟨_, ⟨_, rfl, rfl⟩, .inr ⟨"annie", rfl⟩⟩⟩
  have hv : (Value.list [.text "Ann", .int 7]).HasTerms ["Ann", "7"] :=
    Value.HasTerms.list rfl
  have hu : (Value.text " Le  nn ").HasWords ["Le", "nn"] := Value.HasWords.text " Le  nn "
  have hw : (Value.text "TRUE").IsFlag true :=
    @Value.IsFlag.text [] "TRUE".toList [] true (by simp) (by simp) rfl
  exact ⟨hf, hrow, hv, hu, hw, composite_search .warn hf hrow hv hu hw⟩

end Field

end Sieve
