import Sieve.Proofs.Outcome
import Sieve.Validation.Pagination

/-!
# Reading tokens

Anybody may make up a token, and what is found in it may be wrong in many ways: too large for a machine
word, of another kind than its tag says, or no number at all. Each way fails in its own manner. All of
them are among the failures that count as an invalid cursor, and none is left.

* `Json.Unreadable`, `Json.untag_fails`: the failures of tagged JSON, whatever JSON it is;
* `Cursor.decode_fails`: a text is read as a cursor, or it is an invalid one;
* `StorageType.coerce_fails`, `Operator.coerce_fails`: the failures of conversions;
* `Validation.Fitted`: an entry whose value is coerced to the type of its field;
* `Validation.typedCursor_fails`, `Validation.token_eq`: what the check of a token comes down to;
* `RawCursor.isPerm_iff`: what is read for the fields of an ordering is a cursor.
-/

namespace Sieve

open Outcome

/-! ### Tagged JSON -/

namespace Json

/-- The failures of tagged JSON. -/
inductive Unreadable : Error → Prop
  | malformed : Unreadable .malformed
  | mismatch : Unreadable .mismatch
  | overflow : Unreadable .overflow
  | invalidOperation : Unreadable .invalidOperation
  | missingAttribute : Unreadable .missingAttribute

theorem required_fails {α : Type} {P : Error → Prop} {e : Error} (h : P e) (o : Option α) :
    FailsOnly P (required e o) := by
  cases o with
  | none => exact failsOnly_error h
  | some a => exact failsOnly_ok a

theorem rawText_fails (j : Json) : FailsOnly Unreadable j.rawText := by
  cases j <;> first | exact failsOnly_ok _ | exact failsOnly_error .mismatch

theorem machineInt_fails (j : Json) : FailsOnly Unreadable j.machineInt := by
  unfold machineInt
  split
  · split
    · exact failsOnly_ok _
    · exact failsOnly_error .overflow
  · exact failsOnly_ok _
  · exact failsOnly_error .malformed

theorem digit_fails (j : Json) : FailsOnly Unreadable j.digit := by
  refine (machineInt_fails j).bind fun i => ?_
  split
  · exact failsOnly_ok _
  · exact failsOnly_error .malformed

theorem digits_fails (j : Json) : FailsOnly Unreadable j.digits := by
  unfold digits
  split
  · exact failsOnly_mapM fun x _ => digit_fails x
  · exact failsOnly_error .malformed

theorem sign_fails (j : Json) : FailsOnly Unreadable j.sign := by
  refine (machineInt_fails j).bind fun i => ?_
  split
  · exact failsOnly_ok _
  · exact failsOnly_ok _
  · exact failsOnly_error .malformed

theorem readDecimal_fails (s : List Char) : FailsOnly Unreadable (readDecimal s) :=
  required_fails .invalidOperation _

/-- The parts of a decimal fail one by one. -/
theorem decimalParts_fails (s ds e : Json) : FailsOnly Unreadable (decimalParts s ds e) := by
  refine (sign_fails s).bind fun sign => ?_
  split
  · exact (digits_fails ds).bind fun _ => failsOnly_ok _
  · exact (digits_fails ds).bind fun _ => readDecimal_fails _
  · exact (digits_fails ds).bind fun _ => readDecimal_fails _
  · exact (machineInt_fails _).bind fun _ => (digits_fails ds).bind fun _ => readDecimal_fails _

theorem decimal_fails (j : Json) : FailsOnly Unreadable j.decimal := by
  unfold decimal
  split
  · exact required_fails .invalidOperation _
  · exact failsOnly_error .invalidOperation
  · exact failsOnly_ok _
  · exact failsOnly_ok _
  · exact failsOnly_ok _
  · exact decimalParts_fails _ _ _
  · exact failsOnly_error .malformed
  all_goals exact failsOnly_error .mismatch

theorem uuid_fails (j : Json) : FailsOnly Unreadable j.uuid := by
  unfold uuid
  split
  · exact required_fails .malformed _
  · exact failsOnly_error .malformed
  · exact failsOnly_error .mismatch
  · exact failsOnly_error .missingAttribute

/-- Every type of atoms fails in its own way. -/
theorem atom_fails (type : String) (j : Json) : FailsOnly Unreadable (atom type j) := by
  unfold atom
  split
  iterate 3
    exact (rawText_fails j).bind fun _ => (required_fails .malformed _).bind fun _ => failsOnly_ok _
  · exact (decimal_fails j).bind fun _ => failsOnly_ok _
  · exact (uuid_fails j).bind fun _ => failsOnly_ok _
  · exact failsOnly_error .malformed

theorem key_fails (j : Json) : FailsOnly Unreadable j.key := by
  cases j <;> first | exact failsOnly_ok _ | exact failsOnly_error .mismatch

theorem textPair_fails (ts : List RawText) : FailsOnly Unreadable (textPair ts) := by
  unfold textPair
  split
  · exact failsOnly_ok _
  · exact failsOnly_error .malformed

theorem flatPair_fails (j : Json) : FailsOnly Unreadable j.flatPair := by
  unfold flatPair
  split
  · exact textPair_fails _
  · exact failsOnly_error .malformed
  · exact failsOnly_error .mismatch

theorem flat_fails (type : String) (j : Json) : FailsOnly Unreadable (flat type j) := by
  unfold flat
  split
  · exact (required_fails .mismatch _).bind fun _ => failsOnly_ok _
  · split
    · exact (required_fails .mismatch _).bind fun _ =>
        (failsOnly_mapM fun t _ => textPair_fails _).bind fun _ => failsOnly_ok _
    · exact atom_fails type j

/-- **Whatever JSON is taken for a tagged value, it is one or fails in a way that is expected.** -/
theorem untag_fails (j : Json) : FailsOnly Unreadable j.untag := by
  -- The induction is that of the functions that read values, tags, pairs and items by turns.
  refine untag.induct (fun j => FailsOnly Unreadable j.untag)
    (fun type j => FailsOnly Unreadable (untagAs type j))
    (fun js => FailsOnly Unreadable (untagPairs js))
    (fun js => FailsOnly Unreadable (untagItems js))
    ?null ?bool ?int ?float ?text ?broken ?array ?tagged ?swapped ?object ?brokenObject ?tuple ?map
    ?atom ?flat ?arrayTag ?objectTag ?brokenTag ?otherTag ?noPairs ?pair ?otherPair ?noItems ?item j
  case array =>
    intro xs ih
    rw [untag]
    exact ih.bind fun _ => failsOnly_ok _
  case tagged | swapped =>
    intro _ _ ih
    rw [untag]
    exact ih
  case object =>
    intro es h h'
    rw [untag]
    · exact failsOnly_error .malformed
    · exact h
    · exact h'
  case brokenObject =>
    intro es
    rw [untag]
    exact failsOnly_error .malformed
  case tuple =>
    intro xs ih
    rw [untagAs]
    exact ih.bind fun _ => failsOnly_ok _
  case map =>
    intro xs h ih
    rw [untagAs, if_neg h]
    exact ih.bind fun _ => failsOnly_ok _
  case atom =>
    intro type xs h h'
    rw [untagAs, if_neg h, if_neg h']
    exact atom_fails type _
  case flat =>
    intro type j h
    rw [untagAs]
    · exact flat_fails type j
    · exact h
  case arrayTag | objectTag | brokenTag =>
    intros
    rw [untagAs]
    exact failsOnly_error .mismatch
  case otherTag =>
    intro j type h _ _ _ _
    cases type with
    | text s => exact absurd rfl (h s)
    | array | object | brokenObject =>
      rw [untagAs]
      exact failsOnly_error .mismatch
    | _ =>
      rw [untagAs]
      · exact failsOnly_error .malformed
      all_goals simp
  case pair =>
    intro k v r ihv ihr
    rw [untagPairs]
    exact ihv.bind fun _ => (key_fails k).bind fun _ => ihr.bind fun _ => failsOnly_ok _
  case otherPair =>
    intro j r h ih
    rw [untagPairs]
    · exact (flatPair_fails j).bind fun _ => ih.bind fun _ => failsOnly_ok _
    · exact h
  case item =>
    intro j r ih ihr
    rw [untagItems]
    exact ih.bind fun _ => ihr.bind fun _ => failsOnly_ok _
  case noPairs =>
    rw [untagPairs]
    exact failsOnly_ok _
  case noItems =>
    rw [untagItems]
    exact failsOnly_ok _
  all_goals
    intros
    rw [untag]
    exact failsOnly_ok _

/-- What is expected to fail counts as an invalid cursor. -/
theorem Unreadable.caught {e : Error} (h : Unreadable e) :
    e.fault?.any Cursor.caught.contains = true := by
  cases h <;> rfl

end Json

/-! ### Tokens -/

namespace Cursor

open Json (Unreadable required_fails untag_fails)

theorem pair_fails (j : Json) : FailsOnly Unreadable (pair j) := by
  unfold pair
  split
  · exact (untag_fails _).bind fun _ => failsOnly_ok _
  · exact (untag_fails _).bind fun _ => failsOnly_ok _
  · exact failsOnly_error .malformed

theorem ofJson_fails (j : Json) : FailsOnly Unreadable (ofJson j) := by
  unfold ofJson
  split
  · exact (failsOnly_mapM fun x _ => pair_fails x).bind fun _ => failsOnly_ok _
  · exact failsOnly_error .malformed

theorem read_fails (token : String) : FailsOnly Unreadable (read token) :=
  (required_fails .malformed _).bind fun _ => (required_fails .malformed _).bind fun _ =>
    (required_fails .malformed _).bind fun j => ofJson_fails j

/-- **A text is read as a cursor, or it is an invalid one**; nothing else happens. -/
theorem decode_fails (token : String) :
    FailsOnly (· = .invalidCursor (.text token)) (decode token) := by
  intro e h
  unfold decode at h
  split at h
  · cases h
  · next hread =>
    rw [if_pos (read_fails token _ hread).caught] at h
    cases h
    rfl

theorem decodeValue_fails (v : Value) : FailsOnly (· = .invalidCursor v) (decodeValue v) := by
  unfold decodeValue
  split
  · exact decode_fails _
  · exact failsOnly_error rfl

end Cursor

/-! ### Conversions -/

/-- The failures of conversions: a wrong value, or a number out of range. -/
def Unconvertible (e : Error) : Prop :=
  e.fault? = some .badValue ∨ e = .overflow

theorem Error.fault?_of_quoting {e : Error} {v : Value} {kind : String → String}
    (h : e.report = quoting v fun t => worded .badValue (kind t)) : e.fault? = some .badValue := by
  have hreport : ∃ message, e.report = .fault .badValue message none := by
    rw [h, quoting]
    split <;> exact ⟨_, rfl⟩
  obtain ⟨message, hreport⟩ := hreport
  rw [fault?, hreport]

/-- A value is not written only if an integer in it has too many digits. -/
theorem Value.written_fails (v : Value) :
    FailsOnly (fun e => e = .malformed ∧ v.isWritable = false) v.written := by
  unfold written
  split
  · exact failsOnly_ok _
  · next hlong => exact failsOnly_error ⟨rfl, Bool.not_eq_true _ ▸ hlong⟩

section Conversions

theorem unconvertible_malformed : Unconvertible .malformed := .inl rfl

theorem unconvertible_notANumber (v : Value) : Unconvertible (.notANumber v) :=
  .inl (Error.fault?_of_quoting rfl)

theorem unconvertible_written (v : Value) : FailsOnly Unconvertible v.written :=
  v.written_fails.mono fun _ h => h.1 ▸ unconvertible_malformed

theorem typed_fails (v : Value) : FailsOnly Unconvertible v.typed :=
  (unconvertible_written v).bind fun _ => failsOnly_ok _

theorem asText_fails (v : Value) : FailsOnly Unconvertible v.asText := by
  refine FailsOnly.map ?_ _
  unfold Value.toRaw
  split
  · exact failsOnly_ok _
  · exact (unconvertible_written _).map _

theorem readNumber_fails (v : Value) (read : String → Option Value) :
    FailsOnly Unconvertible (readNumber v read) := by
  refine (typed_fails v).bind fun s => ?_
  split
  · exact failsOnly_error (.inl rfl)
  · split
    · exact failsOnly_ok _
    · exact failsOnly_error (unconvertible_notANumber v)

theorem orMalformed_fails (r : Option Value) : FailsOnly Unconvertible (orMalformed r) := by
  cases r with
  | none => exact failsOnly_error unconvertible_malformed
  | some v => exact failsOnly_ok v

theorem coerceInteger_fails (v : Value) : FailsOnly Unconvertible (coerceInteger v) := by
  unfold coerceInteger
  split
  · exact failsOnly_error (unconvertible_notANumber _)
  · exact failsOnly_ok _
  · split
    · exact failsOnly_ok _
    · exact failsOnly_error (.inl (Error.fault?_of_quoting rfl))
  · exact readNumber_fails _ _

theorem coerceFloat_fails (v : Value) : FailsOnly Unconvertible (coerceFloat v) := by
  unfold coerceFloat
  split
  · exact failsOnly_error (unconvertible_notANumber _)
  · exact failsOnly_ok _
  · split
    · exact failsOnly_ok _
    · exact failsOnly_error (.inr rfl)
  · exact readNumber_fails _ _

theorem coerceDecimal_fails (v : Value) : FailsOnly Unconvertible (coerceDecimal v) := by
  unfold coerceDecimal
  split
  · exact failsOnly_error (unconvertible_notANumber _)
  · exact failsOnly_ok _
  · exact readNumber_fails _ _

theorem coerceBoolean_fails (v : Value) : FailsOnly Unconvertible (coerceBoolean v) := by
  unfold coerceBoolean
  split
  · exact failsOnly_ok _
  · refine (typed_fails _).bind fun s => ?_
    dsimp only
    split
    · exact failsOnly_ok _
    · split
      · exact failsOnly_ok _
      · exact failsOnly_error (.inl (Error.fault?_of_quoting rfl))

theorem coerceDate_fails (v : Value) : FailsOnly Unconvertible (coerceDate v) := by
  unfold coerceDate
  split
  · exact failsOnly_ok _
  · exact failsOnly_ok _
  · split
    · exact orMalformed_fails _
    · exact failsOnly_error unconvertible_malformed
  · refine (typed_fails _).bind fun s => ?_
    split <;> exact orMalformed_fails _

theorem coerceTimestamp_fails (v : Value) : FailsOnly Unconvertible (coerceTimestamp v) := by
  unfold coerceTimestamp
  split
  · exact failsOnly_ok _
  · exact failsOnly_ok _
  · exact orMalformed_fails _
  · exact (typed_fails _).bind fun s => orMalformed_fails _

theorem coerceUuid_fails (v : Value) : FailsOnly Unconvertible (coerceUuid v) := by
  unfold coerceUuid
  split
  · exact failsOnly_ok _
  · exact (typed_fails _).bind fun s => orMalformed_fails _

theorem coerceText_fails (v : Value) : FailsOnly Unconvertible (coerceText v) := by
  unfold coerceText
  split
  case h_4 => exact asText_fails _
  all_goals exact failsOnly_error (.inl (Error.fault?_of_quoting rfl))

end Conversions

/-- A value is converted to a storage type, or is a wrong one, or is out of range. -/
theorem StorageType.coerce_fails (t : StorageType) (v : Value) :
    FailsOnly Unconvertible (t.coerce v) := by
  unfold coerce
  split
  · exact failsOnly_ok _
  · cases t with
    | integer => exact coerceInteger_fails v
    | float => exact coerceFloat_fails v
    | decimal => exact coerceDecimal_fails v
    | boolean => exact coerceBoolean_fails v
    | date => exact coerceDate_fails v
    | datetime => exact coerceTimestamp_fails v
    | uuid => exact coerceUuid_fails v
    | string => exact coerceText_fails v
    | any | enum | array | map => exact failsOnly_ok v

/-- The value of a filter fails to be converted in no other way. -/
theorem Operator.coerce_fails (op : Operator) (t : StorageType) (v : Value) :
    FailsOnly Unconvertible (op.coerce t v) := by
  unfold coerce
  split
  · exact failsOnly_ok _
  split
  · split
    · exact (failsOnly_mapM fun x _ => t.coerce_fails x).bind fun _ => failsOnly_ok _
    · exact failsOnly_error (.inl rfl)
  split
  · unfold coerceTerms
    split
    · exact (failsOnly_mapM fun x _ => asText_fails x).bind fun _ => failsOnly_ok _
    · exact (failsOnly_mapM fun x _ => asText_fails x).bind fun _ => failsOnly_ok _
    · exact failsOnly_error (.inl rfl)
    · exact asText_fails _
  split
  · split
    · exact failsOnly_error (.inl rfl)
    · exact failsOnly_ok _
  split
  · exact failsOnly_ok _
  split
  · exact failsOnly_error (.inl rfl)
  · exact t.coerce_fails v

/-! ### The check of a token -/

namespace Validation

theorem typedValue_fails (schema : Option Schema) (field : String) (v : Value) :
    FailsOnly Unconvertible (typedValue schema field v) := by
  unfold typedValue
  split
  · exact StorageType.coerce_fails _ v
  · exact StorageType.coerce_fails _ v
  · exact failsOnly_ok _

theorem unfit_fault? {e : Error} (h : Unconvertible e) : (unfit e).fault? = some .badValue := by
  rcases h with h | rfl
  · simp [unfit, h]
  · rfl

/-- The entry has the value of another one, coerced to the type of its field. A field with surrogates has no
type. -/
def Fitted (schema : Option Schema) (e f : RawText × Value) : Prop :=
  f.1 = e.1 ∧ match e.1 with
    | .whole field => typedValue schema field e.2 = .ok f.2
    | .broken _ => f.2 = e.2

theorem typedEntry_eq_ok_iff {schema : Option Schema} {e f : RawText × Value} :
    typedEntry schema e = .ok f ↔ Fitted schema e f := by
  obtain ⟨k, v⟩ := e
  obtain ⟨k', v'⟩ := f
  cases k with
  | whole field =>
    cases h : typedValue schema field v <;>
      simp [typedEntry, Fitted, RawText.whole?, h, Except.mapError, eq_comm]
  | broken t => simp [typedEntry, Fitted, RawText.whole?, eq_comm]

theorem typedEntry_fails (schema : Option Schema) (e : RawText × Value) :
    FailsOnly (·.fault? = some .badValue) (typedEntry schema e) := by
  unfold typedEntry
  split
  · refine FailsOnly.bind (fun err h => ?_) fun _ => failsOnly_ok _
    next field _ =>
    cases hv : typedValue schema field e.2 with
    | ok v =>
      rw [hv] at h
      cases h
    | error err' =>
      rw [hv] at h
      cases h
      exact unfit_fault? (typedValue_fails schema field e.2 err' hv)
  · exact failsOnly_ok _

theorem spoils_of_fault? {e : Error} (h : e.fault? = some .badValue) : spoils e = true := by
  unfold spoils
  split
  · rfl
  · rw [h]
    rfl

/-- **A token is read as a cursor with fitting values, or it is spoiled.** -/
theorem typedCursor_fails (schema : Option Schema) (v : Value) :
    FailsOnly (spoils · = true) (typedCursor schema v) := by
  refine FailsOnly.bind (fun e h => ?_) fun c => failsOnly_mapM fun e _ => ?_
  · rw [Cursor.decodeValue_fails v e h]
    rfl
  · exact (typedEntry_fails schema e).mono fun _ => spoils_of_fault?

/-- What becomes of a token that is dropped. -/
def dropToken (name reason : String) : Checking (Value × Option Cursor) := do
  Checking.report (.paramDropped name reason)
  return (.null, none)

/-- The check of a token knows of no failure but that of a spoiled one. -/
theorem token_eq (schema : Option Schema) (o : Options) (name : String)
    (orderBy : Option (List String)) (given : Value) :
    token schema o name orderBy given =
      if given.isNull || (orderBy.getD []).isEmpty then return (given, none)
      else
        match typedCursor schema given with
        | .error _ =>
          if o.replaces then dropToken name "is invalid"
          else Checking.fail (.invalidToken name (schema.map (·.name)))
        | .ok c =>
          if (c.map (·.1)).isPerm ((orderBy.getD []).map .whole) then return (given, some c.whole)
          else if o.replaces then dropToken name "does not match order fields"
          else do
            Checking.complain name "does not match order fields"
            return (given, none) := by
  unfold token
  split
  · rfl
  · cases h : typedCursor schema given with
    | ok c => rfl
    | error e =>
      simp only [typedCursor_fails schema given e h, Bool.not_true, Bool.false_eq_true, if_false]
      rfl

end Validation

/-! ### Fields of tokens -/

namespace RawCursor

theorem raw_keys (c : Cursor) : c.raw.map (·.1) = (c.map Prod.fst).map .whole := by
  simp [Cursor.raw]

theorem perm_raw_iff {c : Cursor} {names : List String} :
    (c.raw.map (·.1)).Perm (names.map .whole) ↔ (c.map Prod.fst).Perm names := by
  rw [raw_keys]
  exact List.map_perm_map_iff fun _ _ => RawText.whole.inj

/-- What is read for names of fields, in any order, is a cursor for them. -/
theorem isPerm_iff {c : RawCursor} {names : List String} :
    (c.map (·.1)).isPerm (names.map .whole) = true ↔
      ∃ d : Cursor, c = d.raw ∧ (d.map Prod.fst).isPerm names = true := by
  simp only [List.isPerm_iff]
  constructor
  · intro h
    have hwhole : ∀ e ∈ c, ∃ n, e.1 = .whole n := by
      intro e he
      obtain ⟨n, _, hn⟩ := List.mem_map.1 (h.subset (List.mem_map_of_mem he))
      exact ⟨n, hn.symm⟩
    have hraw : c = Cursor.raw c.whole := by
      clear h
      induction c with
      | nil => rfl
      | cons e c ih =>
        obtain ⟨n, hn⟩ := hwhole e (by simp)
        obtain ⟨k, v⟩ := e
        subst hn
        exact congrArg _ (ih fun f hf => hwhole f (List.mem_cons_of_mem _ hf))
    refine ⟨c.whole, hraw, ?_⟩
    exact perm_raw_iff.1 (hraw ▸ h)
  · rintro ⟨d, rfl, h⟩
    exact perm_raw_iff.2 h

end RawCursor

end Sieve
