import Sieve.Proofs.Cursor.Boundary
import Sieve.Proofs.Evaluation.Operators
import Sieve.Proofs.Like

/-!
# Searching texts

The search operators look for texts as they are written, whatever characters they are made of. A list of
terms is met if one of them is found; the words of a text all have to be found, or one of them, as the
operator says. Without terms or words the answer is that for none of them.

* `Value.Searches`: the terms and the words of a value;
* `Predicate.evaluate_disjunction`, `Predicate.evaluate_conjunction`: predicates that are joined;
* `Field.Decides`: an operator decides a property of a row;
* `Field.decides_search`: what the search operators decide.
-/

namespace Sieve

open Outcome

variable {aliases : Aliases} {row : Value}

/-! ### Words -/

/-- The words of a text that starts inside a word: the parts between blanks that are not empty. -/
theorem Text.wordsFrom_eq (word s : List Char) :
    Text.wordsFrom word s =
      ((s.splitOnP Text.isBlank).modifyHead (word.reverse ++ ·)).filter (!·.isEmpty) := by
  induction s generalizing word with
  | nil =>
    cases word with
    | nil => rfl
    | cons c word => simp [wordsFrom]
  | cons c s ih =>
    obtain ⟨part, parts, hparts⟩ := List.exists_cons_of_ne_nil (List.splitOnP_ne_nil isBlank s)
    rw [wordsFrom, ih, ih, List.splitOnP_cons_eq_if_modifyHead, hparts]
    cases hc : isBlank c <;> cases word <;> simp

/-- **The words of a text** are its parts between blanks, without the empty ones. -/
theorem Text.words_eq (s : String) :
    Text.words s =
      ((s.toList.splitOnP Text.isBlank).filter (!·.isEmpty)).map String.ofList := by
  obtain ⟨part, parts, hparts⟩ := List.exists_cons_of_ne_nil (List.splitOnP_ne_nil isBlank s.toList)
  rw [words, wordsFrom_eq, hparts]
  rfl

/-- The terms and the words of a value to look for. A text is one term, and its words are its parts
between blanks; the items of a list or a tuple of texts are its terms as well as its words. -/
inductive Value.Searches : Value → List String → List String → Prop
  | text (s : String) :
    Searches (.text s) [s] (((s.toList.splitOnP Text.isBlank).filter (!·.isEmpty)).map String.ofList)
  | list (terms : List String) : Searches (.list (terms.map .text)) terms terms
  | tuple (terms : List String) : Searches (.tuple (terms.map .text)) terms terms

/-- Texts are written as they are. -/
theorem Value.mapM_written (terms : List String) :
    (terms.map Value.text).mapM Value.written = .ok terms := by
  rw [mapM_eq_ok_iff, List.forall₂_map_left_iff, List.forall₂_same]
  exact fun s _ => Value.written_text s

theorem Value.Searches.givenTerms {v : Value} {terms words : List String}
    (h : v.Searches terms words) : Operator.givenTerms v = .ok terms := by
  cases h with
  | text s => exact Value.mapM_written [s]
  | list | tuple => exact Value.mapM_written _

theorem Value.Searches.searchTerms {v : Value} {terms words : List String}
    (h : v.Searches terms words) : v.searchTerms = .ok words := by
  cases h with
  | text s => exact congrArg Except.ok (Text.words_eq s)
  | list | tuple => exact Value.mapM_written _

/-! ### Joined predicates -/

section

variable {α : Type} {ps : List Predicate} {xs : List α} {f : α → Predicate} {g : α → Bool}

theorem Truth.all_map_some (xs : List α) (g : α → Bool) :
    Truth.all (xs.map fun x => some (g x)) = some (xs.all g) := by
  cases h : xs.all g with
  | true =>
    rw [Truth.all_eq_true_iff, List.forall_mem_map]
    exact fun x hx => congrArg some (List.all_eq_true.1 h x hx)
  | false =>
    obtain ⟨x, hx, hg⟩ := List.all_eq_false.1 h
    rw [Truth.all_eq_false_iff]
    exact List.mem_map.2 ⟨x, hx, congrArg some (Bool.eq_false_iff.2 hg)⟩

theorem Truth.any_map_some (xs : List α) (g : α → Bool) :
    Truth.any (xs.map fun x => some (g x)) = some (xs.any g) := by
  cases h : xs.any g with
  | true =>
    obtain ⟨x, hx, hg⟩ := List.any_eq_true.1 h
    rw [Truth.any_eq_true_iff]
    exact List.mem_map.2 ⟨x, hx, congrArg some hg⟩
  | false =>
    have hnone : ∀ x ∈ xs, g x = false := fun x hx =>
      Bool.eq_false_iff.2 (List.any_eq_false.1 h x hx)
    have hmap : (xs.map fun x => some (g x)) = xs.map fun _ => some false :=
      List.map_congr_left fun x hx => congrArg some (hnone x hx)
    rw [hmap, Truth.any]
    simp

namespace Predicate

/-- Proper predicates are answered one after the other. -/
theorem evaluateEach_eq_ok {ts : List Truth} (constant : Value → Except Error Truth)
    (h : List.Forall₂ (fun p t => Proper p ∧ p.evaluate aliases row = .ok t) ps ts) :
    evaluateEach aliases row constant ps = .ok ts := by
  induction h with
  | nil => rfl
  | cons hp _ ih =>
    rw [evaluateEach_cons hp.1, hp.2, ok_bind, ih]
    rfl

theorem evaluateEach_map {constant : Value → Except Error Truth}
    (hf : ∀ x ∈ xs, (f x).Proper ∧ (f x).evaluate aliases row = .ok (some (g x))) :
    evaluateEach aliases row constant (xs.map f) = .ok (xs.map fun x => some (g x)) := by
  apply evaluateEach_eq_ok
  rw [List.forall₂_map_left_iff, List.forall₂_map_right_iff, List.forall₂_same]
  exact hf

/-- Some of the predicates holds if one does. -/
theorem evaluate_disjunction
    (hf : ∀ x ∈ xs, (f x).Proper ∧ (f x).evaluate aliases row = .ok (some (g x))) :
    (disjunction (xs.map f)).evaluate aliases row = .ok (some (xs.any g)) := by
  have hany : (Predicate.any (xs.map f)).evaluate aliases row = .ok (some (xs.any g)) := by
    rw [evaluate, evaluateEach_map hf, ok_bind, Truth.any_map_some]
    rfl
  -- A single predicate is left as it is.
  rcases xs with _ | ⟨x, _ | ⟨y, ys⟩⟩
  · exact hany
  · simpa using (hf x (by simp)).2
  · exact hany

/-- All of the predicates hold if each one does. -/
theorem evaluate_conjunction
    (hf : ∀ x ∈ xs, (f x).Proper ∧ (f x).evaluate aliases row = .ok (some (g x))) :
    (conjunction (xs.map f)).evaluate aliases row = .ok (some (xs.all g)) := by
  have hall : (Predicate.all (xs.map f)).evaluate aliases row = .ok (some (xs.all g)) := by
    rw [evaluate, evaluateEach_map hf, ok_bind, Truth.all_map_some]
    rfl
  -- A single predicate is left as it is.
  rcases xs with _ | ⟨x, _ | ⟨y, ys⟩⟩
  · exact hall
  · simpa using (hf x (by simp)).2
  · exact hall

end Predicate

end

/-! ### Search operators -/

/-- The predicate that a field holds a term is whether its text holds the term in one piece. -/
theorem Operator.evaluate_termPredicate {r : FieldRef} {t : String}
    (hr : r.read aliases row = .ok (.text t)) (term : String) :
    (termPredicate r true term).Proper ∧
      (termPredicate r true term).evaluate aliases row =
        .ok (some (decide (term.toList <:+: t.toList))) := by
  refine ⟨nofun, ?_⟩
  have haccepts : Like.accepts (some Like.escapeChar) true
      (String.ofList (Like.substring [Like.escapeChar] term.toList)) t =
        decide (term.toList <:+: t.toList) := by
    rw [Bool.eq_iff_iff, Like.accepts_substring, decide_eq_true_iff]
  rw [termPredicate, Predicate.evaluate, hr, ok_bind, Predicate.unlessNull, ← haccepts]
  simp [Value.isNull, Predicate.matchText]

/-- The operator makes a predicate of the field and the value without reporting anything, and the
predicate is true of the row or false as the property holds or not. -/
def Field.Decides (f : Field) (schema : Option Schema) (policy : CompositePolicy) (op : Operator)
    (v : Value) (aliases : Aliases) (row : Value) (property : Prop) : Prop :=
  ∃ p b, f.select schema policy op v = .ok p ∧ p.evaluate aliases row = .ok (some b) ∧
    (b = true ↔ property)

variable {f : Field} {schema : Option Schema} {policy : CompositePolicy} {op : Operator} {r : FieldRef}
  {v : Value} {terms words : List String} {t : String}

/-- A column is selected by as soon as fields are expanded at all. -/
theorem Field.selectWithin_column (hf : f.IsColumn) (hr : f.ref? = some r) {p : Predicate}
    (hp : op.onRef r f.type v = .ok p) (depth : Nat) :
    selectWithin schema policy op v f (depth + 1) = .ok p := by
  have href : f.ref = .ok r := Field.ref_eq_ok_iff.2 hr
  cases f with
  | plain | join =>
    simp only [selectWithin, href]
    change Traced.lift (op.onRef r _ v) = _
    rw [hp]
    rfl
  | isAlias | composite | custom => exact absurd hf (by simp [IsColumn, kind])

/-- On a column an operator decides what its predicate is true of. -/
theorem Field.decides_of_onRef {property : Prop} (hf : f.IsColumn) (hr : f.ref? = some r)
    {p : Predicate} {b : Bool} (hp : op.onRef r f.type v = .ok p)
    (hb : p.evaluate aliases row = .ok (some b)) (h : b = true ↔ property) :
    f.Decides schema policy op v aliases row property :=
  ⟨p, b, selectWithin_column hf hr hp _, hb, h⟩

section

variable (hf : f.IsColumn) (hr : f.ref? = some r) (hv : v.Searches terms words)
  (hrow : r.read aliases row = .ok (.text t))
include hf hr hv hrow

/-- One of the terms is found, or none is. -/
theorem Field.decides_like :
    f.Decides schema policy .like v aliases row (∃ w ∈ terms, w.toList <:+: t.toList) ∧
      f.Decides schema policy .notLike v aliases row (¬∃ w ∈ terms, w.toList <:+: t.toList) := by
  have hterm : Operator.someTerm r true v =
      .ok (.disjunction (terms.map (Operator.termPredicate r true))) := by
    rw [Operator.someTerm, hv.givenTerms]
    rfl
  have hsome : (Predicate.disjunction (terms.map (Operator.termPredicate r true))).evaluate aliases
      row = .ok (some (terms.any fun w => decide (w.toList <:+: t.toList))) :=
    Predicate.evaluate_disjunction fun w _ => Operator.evaluate_termPredicate hrow w
  have hany : (terms.any fun w => decide (w.toList <:+: t.toList)) = true ↔
      ∃ w ∈ terms, w.toList <:+: t.toList := by
    simp only [List.any_eq_true, decide_eq_true_iff]
  have hnot : (Predicate.not (.disjunction (terms.map (Operator.termPredicate r true)))).evaluate
      aliases row = .ok (some !(terms.any fun w => decide (w.toList <:+: t.toList))) := by
    rw [Predicate.evaluate, hsome]
    rfl
  refine ⟨decides_of_onRef hf hr hterm hsome hany, decides_of_onRef hf hr ?_ hnot ?_⟩
  · rw [Operator.onRef, hterm]
    rfl
  · rw [Bool.not_eq_true', Bool.eq_false_iff, Ne, hany]

/-- Every word is found; without words that is so. -/
theorem Field.decides_likeAnd :
    f.Decides schema policy .likeAnd v aliases row (∀ w ∈ words, w.toList <:+: t.toList) := by
  have hall : (Operator.allFragments (words.map (Operator.termPredicate r true))).evaluate aliases
      row = .ok (some (words.all fun w => decide (w.toList <:+: t.toList))) := by
    cases words with
    | nil => rfl
    | cons w ws =>
      exact Predicate.evaluate_conjunction fun w _ => Operator.evaluate_termPredicate hrow w
  refine decides_of_onRef hf hr ?_ hall (by simp only [List.all_eq_true, decide_eq_true_iff])
  rw [Operator.onRef, hv.searchTerms]
  rfl

/-- Some word is found; without words none is. -/
theorem Field.decides_likeOr :
    f.Decides schema policy .likeOr v aliases row (∃ w ∈ words, w.toList <:+: t.toList) := by
  have hany : (Operator.someFragment (words.map (Operator.termPredicate r true))).evaluate aliases
      row = .ok (some (words.any fun w => decide (w.toList <:+: t.toList))) := by
    cases words with
    | nil => rfl
    | cons w ws =>
      exact Predicate.evaluate_disjunction fun w _ => Operator.evaluate_termPredicate hrow w
  refine decides_of_onRef hf hr ?_ hany (by simp only [List.any_eq_true, decide_eq_true_iff])
  rw [Operator.onRef, hv.searchTerms]
  rfl

end

/-- **Searching is literal**: on a column with a text, the search operators decide whether the text holds
the terms or the words in one piece each. -/
theorem Field.decides_search (schema : Option Schema) (policy : CompositePolicy) (hf : f.IsColumn)
    (hr : f.ref? = some r) (hv : v.Searches terms words)
    (hrow : r.read aliases row = .ok (.text t)) :
    f.Decides schema policy .like v aliases row (∃ w ∈ terms, w.toList <:+: t.toList) ∧
    f.Decides schema policy .notLike v aliases row (¬∃ w ∈ terms, w.toList <:+: t.toList) ∧
    f.Decides schema policy .likeAnd v aliases row (∀ w ∈ words, w.toList <:+: t.toList) ∧
    f.Decides schema policy .likeOr v aliases row (∃ w ∈ words, w.toList <:+: t.toList) :=
  ⟨(decides_like hf hr hv hrow).1, (decides_like hf hr hv hrow).2, decides_likeAnd hf hr hv hrow,
    decides_likeOr hf hr hv hrow⟩

/-! ### A text made of special characters -/

/-- A text whose characters all mean something in patterns, and a blank. -/
def specialText : String := "%_\\ .*"

/-- A row with a note of two lines that holds this text. -/
def notedRow : Value :=
  .record [("note", .text "first\n%_\\ .*\\")]

/-- The text and its words are found in the note. -/
theorem Field.decides_search_special :
    (Field.plain "note" .string).IsColumn ∧
    (Field.plain "note" .string).ref? = some (.plain "note") ∧
    (Value.text specialText).Searches [specialText] ["%_\\", ".*"] ∧
    (FieldRef.plain "note").read [] notedRow = .ok (.text "first\n%_\\ .*\\") ∧
    (Field.plain "note" .string).Decides none .warn .like (.text specialText) [] notedRow
      (∃ w ∈ [specialText], w.toList <:+: "first\n%_\\ .*\\".toList) ∧
    (Field.plain "note" .string).Decides none .warn .notLike (.text specialText) [] notedRow
      (¬∃ w ∈ [specialText], w.toList <:+: "first\n%_\\ .*\\".toList) ∧
    (Field.plain "note" .string).Decides none .warn .likeAnd (.text specialText) [] notedRow
      (∀ w ∈ ["%_\\", ".*"], w.toList <:+: "first\n%_\\ .*\\".toList) ∧
    (Field.plain "note" .string).Decides none .warn .likeOr (.text specialText) [] notedRow
      (∃ w ∈ ["%_\\", ".*"], w.toList <:+: "first\n%_\\ .*\\".toList) := by
  have hsearches : (Value.text specialText).Searches [specialText] ["%_\\", ".*"] :=
    Value.Searches.text specialText
  exact ⟨.inl rfl, rfl, hsearches, rfl, decides_search none .warn (.inl rfl) rfl hsearches rfl⟩

end Sieve
