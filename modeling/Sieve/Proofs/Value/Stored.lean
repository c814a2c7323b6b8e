import Sieve.Coercion
import Sieve.Proofs.Outcome

/-!
# Values of storage types

What a value is converted to for a storage type is null or a value of that type, and such values are
converted to themselves. In the same way the value of a filter is converted to a form that its operator
takes, and such forms are kept. So conversions can be made again without a difference.

* `StorageType.Stores`: the values of a storage type;
* `StorageType.stores_of_coerce`, `StorageType.Stores.coerce`: conversions lead to them and keep them;
* `Operator.Fits`: the forms in which operators take values, with `Operator.fits_of_coerce` and
  `Operator.Fits.coerce`;
* `StorageType.coerce_coerced`, `Operator.coerce_coerced`, `Operator.coerce_normal`: converting again.
-/

namespace Sieve

open Outcome

namespace StorageType

/-- The value is one of the storage type. Types that values are not converted to have any value. -/
inductive Stores : StorageType → Value → Prop
  | integer (i : Int) : Stores .integer (.int i)
  | float (x : Binary64) : Stores .float (.float x)
  | decimal (d : Decimal) : Stores .decimal (.decimal d)
  | string (s : RawText) : Stores .string (.ofRaw s)
  | boolean (b : Bool) : Stores .boolean (.bool b)
  | date (d : Date) : Stores .date (.date d)
  | datetime (t : Timestamp) : Stores .datetime (.timestamp t)
  | uuid (u : Uuid) : Stores .uuid (.uuid u)
  | any (v : Value) : Stores .any v
  | enum (v : Value) : Stores .enum v
  | array (v : Value) : Stores .array v
  | map (v : Value) : Stores .map v

variable {t : StorageType} {v w : Value}

/-! ### Reading values -/

theorem stores_of_readNumber {read : String → Option Value}
    (hread : ∀ s n, read s = some n → t.Stores n) (h : readNumber v read = .ok w) : t.Stores w := by
  obtain ⟨s, _, h⟩ := bind_eq_ok_iff.1 h
  split at h
  · cases h
  · split at h
    · next n hn =>
      cases h
      exact hread _ _ hn
    · cases h

theorem stores_of_orMalformed {r : Option Value} (hr : ∀ n, r = some n → t.Stores n)
    (h : orMalformed r = .ok w) : t.Stores w := by
  unfold orMalformed at h
  split at h
  · cases h
    exact hr _ rfl
  · cases h

theorem stores_of_map {α : Type} {r : Option α} {f : α → Value} (hf : ∀ a, t.Stores (f a)) :
    ∀ n, r.map f = some n → t.Stores n := by
  rintro n hn
  obtain ⟨a, _, rfl⟩ := Option.map_eq_some_iff.1 hn
  exact hf a

/-! ### Conversions -/

theorem stores_of_coerceInteger (h : coerceInteger v = .ok w) : integer.Stores w := by
  unfold coerceInteger at h
  split at h
  · cases h
  · cases h
    exact .integer _
  · split at h
    · cases h
      exact .integer _
    · cases h
  · exact stores_of_readNumber (fun _ => stores_of_map .integer) h

theorem stores_of_coerceFloat (h : coerceFloat v = .ok w) : float.Stores w := by
  unfold coerceFloat at h
  split at h
  · cases h
  · cases h
    exact .float _
  · split at h
    · cases h
      exact .float _
    · cases h
  · exact stores_of_readNumber (fun _ => stores_of_map .float) h

theorem stores_of_coerceDecimal (h : coerceDecimal v = .ok w) : decimal.Stores w := by
  unfold coerceDecimal at h
  split at h
  · cases h
  · cases h
    exact .decimal _
  · exact stores_of_readNumber (fun _ => stores_of_map .decimal) h

theorem stores_of_coerceBoolean (h : coerceBoolean v = .ok w) : boolean.Stores w := by
  unfold coerceBoolean at h
  split at h
  · cases h
    exact .boolean _
  · obtain ⟨s, _, h⟩ := bind_eq_ok_iff.1 h
    dsimp only at h
    split at h
    · cases h
      exact .boolean _
    · split at h
      · cases h
        exact .boolean _
      · cases h

theorem stores_of_coerceDate (h : coerceDate v = .ok w) : date.Stores w := by
  unfold coerceDate at h
  split at h
  · cases h
    exact .date _
  · cases h
    exact .date _
  · split at h
    · exact stores_of_orMalformed (stores_of_map fun _ => .date _) h
    · cases h
  · obtain ⟨s, _, h⟩ := bind_eq_ok_iff.1 h
    split at h
    · exact stores_of_orMalformed (stores_of_map fun _ => .date _) h
    · exact stores_of_orMalformed (stores_of_map .date) h

theorem stores_of_coerceTimestamp (h : coerceTimestamp v = .ok w) : datetime.Stores w := by
  unfold coerceTimestamp at h
  split at h
  · cases h
    exact .datetime _
  · cases h
    exact .datetime _
  · exact stores_of_orMalformed (stores_of_map .datetime) h
  · obtain ⟨s, _, h⟩ := bind_eq_ok_iff.1 h
    exact stores_of_orMalformed (stores_of_map .datetime) h

theorem stores_of_coerceUuid (h : coerceUuid v = .ok w) : uuid.Stores w := by
  unfold coerceUuid at h
  split at h
  · cases h
    exact .uuid _
  · obtain ⟨s, _, h⟩ := bind_eq_ok_iff.1 h
    exact stores_of_orMalformed (stores_of_map .uuid) h

theorem stores_of_coerceText (h : coerceText v = .ok w) : string.Stores w := by
  unfold coerceText at h
  split at h
  case h_4 =>
    obtain ⟨s, _, rfl⟩ := map_eq_ok_iff.1 h
    exact .string s
  all_goals cases h

/-- **A value is converted to null or to one of the storage type.** -/
theorem stores_of_coerce (h : t.coerce v = .ok w) : w = .null ∨ t.Stores w := by
  unfold coerce at h
  split at h
  · cases h
    exact .inl rfl
  · refine .inr ?_
    cases t with
    | integer => exact stores_of_coerceInteger h
    | float => exact stores_of_coerceFloat h
    | decimal => exact stores_of_coerceDecimal h
    | boolean => exact stores_of_coerceBoolean h
    | date => exact stores_of_coerceDate h
    | datetime => exact stores_of_coerceTimestamp h
    | uuid => exact stores_of_coerceUuid h
    | string => exact stores_of_coerceText h
    | any => exact .any w
    | enum => exact .enum w
    | array => exact .array w
    | map => exact .map w

/-- Values of a storage type are converted to themselves. -/
theorem Stores.coerce (h : t.Stores v) : t.coerce v = .ok v := by
  cases h with
  | string s => cases s <;> exact Value.asText_ofRaw _
  | any | enum | array | map => cases v <;> rfl
  | _ => rfl

/-- What was converted is converted to itself. -/
theorem coerce_coerced (h : t.coerce v = .ok w) : t.coerce w = .ok w := by
  rcases stores_of_coerce h with rfl | hstores
  · rfl
  · exact hstores.coerce

end StorageType

namespace Operator

/-- A value that is no collection is not converted to one, unless fields hold collections. -/
theorem not_isCollection_of_coerce {t : StorageType} {v w : Value} (ht : ¬(t = .array ∨ t = .map))
    (hv : isCollection v = false) (h : t.coerce v = .ok w) : isCollection w = false := by
  have hstores := StorageType.stores_of_coerce h
  cases t with
  | any | enum =>
    have hw : w = v := by cases v <;> exact (Except.ok.inj h).symm
    rw [hw, hv]
  | array | map => simp at ht
  | string =>
    rcases hstores with rfl | hstores
    · rfl
    · cases hstores with
      | string s => cases s <;> rfl
  | _ =>
    rcases hstores with rfl | hstores
    · rfl
    · cases hstores
      rfl

/-- The operators that compare with one value. -/
def isSingle (op : Operator) : Bool :=
  op.isComparison || op.isEquality && !op.takesList

variable {op : Operator} {t : StorageType} {v w : Value}

/-! ### Groups of operators -/

/-- Every operator is of one of five groups. -/
theorem groups (op : Operator) : op.isEmptiness = true ∨ op.takesList = true ∨
    (op.isSubstring || op.isMultiTerm) = true ∨ op.isMembership = true ∨ op.isSingle = true := by
  cases op <;> decide

theorem takesList_of_isSingle (hop : op.isSingle = true) : op.takesList = false := by
  cases op <;> first | rfl | contradiction

@[simp] theorem coerceTerms_ofRaw (s : RawText) : coerceTerms (.ofRaw s) = .ok (.ofRaw s) := by
  cases s <;> exact Value.asText_ofRaw _

@[simp] theorem coerceTerms_texts (ss : List RawText) :
    coerceTerms (.list (ss.map .ofRaw)) = .ok (.list (ss.map .ofRaw)) := by
  have hss : (ss.map Value.ofRaw).mapM Value.asText = .ok (ss.map Value.ofRaw) := by
    rw [mapM_ok (g := id) fun x hx => ?_, List.map_id]
    obtain ⟨s, _, rfl⟩ := List.mem_map.1 hx
    exact Value.asText_ofRaw s
  simp [coerceTerms, hss]

section Groups

variable (hv : v.isNull = false)
include hv

theorem coerce_of_takesList (hop : op.takesList = true) :
    op.coerce t v = match v.sequence? with
      | some xs => do .ok (.list (← xs.mapM t.coerce))
      | none => .error .notAList := by
  unfold Operator.coerce
  rw [hv]
  cases op <;> first | contradiction | rfl

theorem coerce_of_terms (hop : (op.isSubstring || op.isMultiTerm) = true) :
    op.coerce t v = coerceTerms v := by
  unfold Operator.coerce
  rw [hv]
  cases op <;> first | contradiction | rfl

theorem coerce_of_isMembership (hop : op.isMembership = true) :
    op.coerce t v = if isCollection v then .error .notSingle else .ok v := by
  unfold Operator.coerce
  rw [hv]
  cases op <;> first | contradiction | rfl

theorem coerce_of_isSingle (hop : op.isSingle = true) :
    op.coerce t v = if t = .array ∨ t = .map then .ok v
      else if isCollection v then .error .notSingle else t.coerce v := by
  unfold Operator.coerce
  rw [hv]
  cases op <;> first | contradiction | rfl

end Groups

/-! ### Values of filters -/

/-- The forms in which an operator takes the values of filters on fields of a storage type: no value,
alternatives, terms, an item that is looked up, or one value. -/
inductive Fits (op : Operator) (t : StorageType) : Value → Prop
  | null : Fits op t .null
  | flag {v : Value} (hop : op.isEmptiness = true) : Fits op t v
  | alternatives {xs : List Value} (hop : op.takesList = true)
      (hxs : ∀ x ∈ xs, x = .null ∨ t.Stores x) : Fits op t (.list xs)
  | term {s : RawText} (hop : (op.isSubstring || op.isMultiTerm) = true) : Fits op t (.ofRaw s)
  | terms {ss : List RawText} (hop : (op.isSubstring || op.isMultiTerm) = true) :
      Fits op t (.list (ss.map .ofRaw))
  | item {v : Value} (hop : op.isMembership = true) (hv : isCollection v = false) : Fits op t v
  | collection {v : Value} (hop : op.isSingle = true) (ht : t = .array ∨ t = .map) : Fits op t v
  | value {v : Value} (hop : op.isSingle = true) (hv : isCollection v = false) (h : t.Stores v) :
      Fits op t v

theorem texts_of_asText {xs ys : List Value} (h : xs.mapM Value.asText = .ok ys) :
    ∃ ss : List RawText, ys = ss.map .ofRaw := by
  have hall := mapM_eq_ok_iff.1 h
  clear h
  induction hall with
  | nil => exact ⟨[], rfl⟩
  | cons hxy _ ih =>
    obtain ⟨s, _, rfl⟩ := map_eq_ok_iff.1 hxy
    obtain ⟨ss, rfl⟩ := ih
    exact ⟨s :: ss, rfl⟩

/-- Terms are converted to a text or to a list of texts. -/
theorem texts_of_coerceTerms (h : coerceTerms v = .ok w) :
    (∃ s : RawText, w = .ofRaw s) ∨ ∃ ss : List RawText, w = .list (ss.map .ofRaw) := by
  have hterms {xs : List Value} (h : (do return Value.list (← xs.mapM Value.asText)) =
      (.ok w : Except Error Value)) : ∃ ss : List RawText, w = .list (ss.map .ofRaw) := by
    obtain ⟨ys, hys, h⟩ := bind_eq_ok_iff.1 h
    cases h
    obtain ⟨ss, rfl⟩ := texts_of_asText hys
    exact ⟨ss, rfl⟩
  unfold coerceTerms at h
  split at h
  · exact .inr (hterms h)
  · exact .inr (hterms h)
  · cases h
  · obtain ⟨s, _, rfl⟩ := map_eq_ok_iff.1 h
    exact .inl ⟨s, rfl⟩

theorem fits_of_coerceTerms (hop : (op.isSubstring || op.isMultiTerm) = true)
    (h : coerceTerms v = .ok w) : op.Fits t w := by
  rcases texts_of_coerceTerms h with ⟨s, rfl⟩ | ⟨ss, rfl⟩
  · exact .term hop
  · exact .terms hop

/-- **The value of a filter is converted to one of the form that the operator takes.** -/
theorem fits_of_coerce (h : op.coerce t v = .ok w) : op.Fits t w := by
  by_cases hnull : v.isNull = true
  · rw [Value.isNull_iff.1 hnull] at h
    cases h
    exact .null
  rw [Bool.not_eq_true] at hnull
  rcases groups op with hop | hop | hop | hop | hop
  · exact .flag hop
  · rw [coerce_of_takesList hnull hop] at h
    split at h
    · obtain ⟨ys, hys, h⟩ := bind_eq_ok_iff.1 h
      cases h
      refine .alternatives hop fun y hy => ?_
      obtain ⟨x, _, hx⟩ := exists_of_mem_mapM hys hy
      exact StorageType.stores_of_coerce hx
    · cases h
  · rw [coerce_of_terms hnull hop] at h
    exact fits_of_coerceTerms hop h
  · rw [coerce_of_isMembership hnull hop] at h
    split at h
    · cases h
    · next hv =>
      cases h
      exact .item hop (by simpa using hv)
  · rw [coerce_of_isSingle hnull hop] at h
    split at h
    · next ht => exact .collection hop ht
    next ht =>
    split at h
    · cases h
    · next hv =>
      rcases StorageType.stores_of_coerce h with rfl | hstores
      · exact .null
      · exact .value hop (not_isCollection_of_coerce ht (by simpa using hv) h) hstores

/-- A value of the form that the operator takes is converted to itself. -/
theorem Fits.coerce (h : op.Fits t v) : op.coerce t v = .ok v := by
  by_cases hnull : v.isNull = true
  · rw [Operator.coerce, hnull, Bool.true_or, if_pos rfl]
  rw [Bool.not_eq_true] at hnull
  cases h with
  | null => rfl
  | flag hop => rw [Operator.coerce, hop, Bool.or_true, if_pos rfl]
  | @alternatives xs hop hxs =>
    have hagain : xs.mapM t.coerce = .ok xs := by
      rw [mapM_ok (g := id) fun x hx => ?_, List.map_id]
      rcases hxs x hx with rfl | hx
      · rfl
      · exact hx.coerce
    simp only [coerce_of_takesList hnull hop, Value.sequence?, hagain, ok_bind]
  | term hop => rw [coerce_of_terms hnull hop, coerceTerms_ofRaw]
  | terms hop => rw [coerce_of_terms hnull hop, coerceTerms_texts]
  | item hop hv => simp [coerce_of_isMembership hnull hop, hv]
  | collection hop ht => rw [coerce_of_isSingle hnull hop, if_pos ht]
  | value hop hv h => simp [coerce_of_isSingle hnull hop, hv, h.coerce]

/-- The value of a filter that was converted is converted to itself. -/
theorem coerce_coerced (h : op.coerce t v = .ok w) : op.coerce t w = .ok w :=
  (fits_of_coerce h).coerce

/-- **Conversion reaches a normal form.** What a filter's value is converted to is converted to itself
again, and an operator that compares gets null or a value of the storage type; one that compares with a
list gets null or a list of such. -/
theorem coerce_normal (h : op.coerce t v = .ok w) :
    op.coerce t w = .ok w ∧
      ((op.isComparison || op.isEquality) = true → w = .null ∨
        if op.takesList = true then ∃ xs, w = .list xs ∧ ∀ x ∈ xs, x = .null ∨ t.Stores x
        else t.Stores w) := by
  refine ⟨coerce_coerced h, fun hop => ?_⟩
  cases fits_of_coerce h with
  | null => exact .inl rfl
  | alternatives hlist hxs =>
    rw [if_pos hlist]
    exact .inr ⟨_, rfl, hxs⟩
  | flag h | term h | terms h | item h => cases op <;> contradiction
  | collection hsingle ht =>
    simp only [takesList_of_isSingle hsingle, Bool.false_eq_true, if_false]
    rcases ht with rfl | rfl
    · exact .inr (.array w)
    · exact .inr (.map w)
  | value hsingle _ hstores =>
    simp only [takesList_of_isSingle hsingle, Bool.false_eq_true, if_false]
    exact .inr hstores

/-- A text, nothing and an integer as alternatives for integers. -/
theorem coerce_normal_alternatives :
    isIn.coerce .integer (.tuple [.text " 1_2 ", .null, .int (-3)]) =
        .ok (.list [.int 12, .null, .int (-3)]) ∧
      isIn.coerce .integer (.list [.int 12, .null, .int (-3)]) =
        .ok (.list [.int 12, .null, .int (-3)]) ∧
      ∃ xs, Value.list [.int 12, .null, .int (-3)] = .list xs ∧
        ∀ x ∈ xs, x = .null ∨ StorageType.integer.Stores x := by
  have h : isIn.coerce .integer (.tuple [.text " 1_2 ", .null, .int (-3)]) =
      .ok (.list [.int 12, .null, .int (-3)]) := by rfl
  obtain ⟨hagain, hforms⟩ := coerce_normal h
  exact ⟨h, hagain, (hforms rfl).resolve_left Value.noConfusion⟩

end Operator

end Sieve
