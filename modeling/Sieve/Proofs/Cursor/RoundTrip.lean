import Sieve.Proofs.Base64
import Sieve.Proofs.Cursor.Tags
import Sieve.Proofs.Outcome

/-!
# Cursors and their tokens

A cursor of portable values has a token, and reading the token gives the cursor back with its
offsets settled, unless the cursor exceeds the bounds of reading.

* `Cursor.IsPortable`, `Cursor.settled`, `Cursor.fits`;
* `Cursor.encode_ok`, `Cursor.encode_of_long`: the token of a cursor and what is read from it;
* `Cursor.decode_encode_iff`: a cursor comes back exactly if no offset in it is shorter than a
  second without being zero.
-/

namespace Sieve

/-! ### Offsets in values -/

namespace Value

mutual

/-- The offsets from universal time in a value. -/
def offsets : Value → List Offset
  | .time t => t.offset.toList
  | .timestamp t => t.offset.toList
  | .list xs => offsetsOfItems xs
  | .tuple xs => offsetsOfItems xs
  | .map es => offsetsOfEntries es
  | _ => []

/-- The offsets in some items. -/
def offsetsOfItems : List Value → List Offset
  | [] => []
  | x :: r => offsets x ++ offsetsOfItems r

/-- The offsets in the values of some entries. -/
def offsetsOfEntries : List (Value × Value) → List Offset
  | [] => []
  | (_, v) :: r => offsets v ++ offsetsOfEntries r

end

theorem map_settled_eq_self_iff (o : Option Offset) :
    o.map Offset.settled = o ↔ ∀ p ∈ o.toList, p.settled = p := by
  cases o <;> simp

mutual

/-- A value is settled if its offsets are. -/
theorem settled_eq_self_iff : ∀ v : Value, v.settled = v ↔ ∀ o ∈ v.offsets, o.settled = o
  | .time t => by
    rw [settled, offsets, ← map_settled_eq_self_iff, Value.time.injEq, TimeOfDay.settled]
    exact ⟨fun h => congrArg TimeOfDay.offset h, fun h => by rw [h]⟩
  | .timestamp t => by
    rw [settled, offsets, ← map_settled_eq_self_iff, Value.timestamp.injEq, Timestamp.settled]
    exact ⟨fun h => congrArg Timestamp.offset h, fun h => by rw [h]⟩
  | .list xs => by rw [settled, offsets, Value.list.injEq, settledItems_eq_self_iff xs]
  | .tuple xs => by rw [settled, offsets, Value.tuple.injEq, settledItems_eq_self_iff xs]
  | .map es => by rw [settled, offsets, Value.map.injEq, settledEntries_eq_self_iff es]
  | .null | .bool _ | .int _ | .float _ | .decimal _ | .text _ | .broken _ | .bytes _ | .date _
  | .uuid _ | .set _ | .member _ | .object _ _ | .zone _ | .feature _ => by simp [settled, offsets]

theorem settledItems_eq_self_iff :
    ∀ xs : List Value, settledItems xs = xs ↔ ∀ o ∈ offsetsOfItems xs, o.settled = o
  | [] => by simp [settledItems, offsetsOfItems]
  | x :: xs => by
    rw [settledItems, offsetsOfItems, List.cons.injEq, settled_eq_self_iff x,
      settledItems_eq_self_iff xs, List.forall_mem_append]

theorem settledEntries_eq_self_iff :
    ∀ es : List (Value × Value), settledEntries es = es ↔ ∀ o ∈ offsetsOfEntries es, o.settled = o
  | [] => by simp [settledEntries, offsetsOfEntries]
  | (k, v) :: es => by
    rw [settledEntries, offsetsOfEntries, List.cons.injEq, Prod.mk.injEq, settled_eq_self_iff v,
      settledEntries_eq_self_iff es, List.forall_mem_append]
    simp

end

end Value

namespace Cursor

/-! ### Tokens -/

/-- Whether the values of a cursor are portable and no field comes twice. -/
structure IsPortable (c : Cursor) : Prop where
  fields : (c.map Prod.fst).Nodup
  values : ∀ e ∈ c, e.2.Portable

/-- The cursor with its offsets settled. -/
def settled (c : Cursor) : Cursor :=
  c.map fun e => (e.1, e.2.settled)

/-- Whether the JSON of a cursor keeps the bounds of reading. The values are in an array of pairs. -/
def fits (c : Cursor) : Bool :=
  c.all fun e => decide (e.2.levels + 2 ≤ Json.maxDepth) && e.2.shortInts

theorem put_of_notMem {c : Cursor} {field : String} (v : Value) (h : field ∉ c.map Prod.fst) :
    c.put field v = c ++ [(field, v)] := by
  induction c with
  | nil => rfl
  | cons e c ih =>
    simp only [List.map_cons, List.mem_cons, not_or] at h
    rw [put, if_neg (Ne.symm h.1), ih h.2, List.cons_append]

/-- Putting distinct fields one by one keeps a cursor as it is. -/
theorem foldl_put {c : Cursor} (h : (c.map Prod.fst).Nodup) :
    c.foldl (fun d e => Cursor.put d e.1 e.2) [] = c :=
  Json.foldl_fresh put id (fun _ _ v hk => put_of_notMem v hk) [] h

/-- How deep the pairs of a cursor are nested. -/
abbrev levels (c : Cursor) : ℕ := Value.levelsOfEntries (Value.textEntries c)

/-- Whether all integers in a cursor are short. -/
abbrev shortInts (c : Cursor) : Bool := Value.shortIntsInEntries (Value.textEntries c)

theorem shortInts_eq_true_iff {c : Cursor} :
    c.shortInts = true ↔ ∀ e ∈ c, e.2.shortInts = true := by
  induction c with
  | nil => simp [shortInts, Value.textEntries, Value.shortIntsInEntries]
  | cons e c ih =>
    rw [List.forall_mem_cons, ← ih, ← Bool.and_eq_true]
    rfl

theorem fits_eq (c : Cursor) :
    c.fits = (decide (c.levels + 1 ≤ Json.maxDepth) && c.shortInts) := by
  induction c with
  | nil => rfl
  | cons e c ih =>
    have hlevels : levels (e :: c) = max (e.2.levels + 1) (levels c) := rfl
    have hshort : shortInts (e :: c) = (e.2.shortInts && shortInts c) := rfl
    have hall : fits (e :: c) =
        ((decide (e.2.levels + 2 ≤ Json.maxDepth) && e.2.shortInts) && fits c) := rfl
    rw [hall, ih, hlevels, hshort, ← max_add_add_right, Bool.decide_congr max_le_iff,
      Bool.decide_and]
    ac_rfl

/-- The pairs of a cursor as JSON, and what they are read as. -/
theorem pairs_ok {c : Cursor} (h : ∀ e ∈ c, e.2.Portable) :
    ∃ js, c.pairs = .ok js ∧ js.mapM pair = .ok c.settled.raw ∧
      Json.BoundedItems c.levels c.shortInts js := by
  induction c with
  | nil => exact ⟨[], rfl, rfl, Json.boundedItems_nil⟩
  | cons e c ih =>
    obtain ⟨j, hj, htag⟩ := Value.tagged_ok (h e (by simp))
    obtain ⟨js, hjs, hread, hbounded⟩ := ih fun f hf => h f (List.mem_cons_of_mem e hf)
    refine ⟨.array [.text e.1, j] :: js, ?_, ?_, hbounded.cons (htag.bounded.pair e.1)⟩
    · rw [pairs] at hjs ⊢
      rw [List.mapM_cons, hj, hjs]
      rfl
    · rw [List.mapM_cons, hread, pair, htag.untagged]
      rfl

/-- **A cursor of portable values has a token** if its integers are short, and from the token the cursor
is read with its offsets settled if it keeps the bounds, and nothing is read otherwise. -/
theorem encode_ok {c : Cursor} (h : c.IsPortable) (hints : ∀ e ∈ c, e.2.shortInts = true) :
    ∃ token, c.encode = .ok token ∧ decode token =
      if c.fits then .ok c.settled.raw else .error (.invalidCursor (.text token)) := by
  obtain ⟨js, hjs, hread, hbounded⟩ := pairs_ok h.values
  rw [shortInts_eq_true_iff.2 hints] at hbounded
  have hdump : (Json.array js).dump = .ok (String.ofList (Json.array js).write) :=
    Json.dump_eq_ok_iff.2 ⟨hbounded.array.writable, hbounded.array.whole, rfl⟩
  refine ⟨_, by rw [encode, hjs, Outcome.ok_bind, hdump]; rfl, ?_⟩
  have hroundtrip := Json.read?_write hbounded.array.proper
  have hdepth : Json.fits Json.maxDepth (.array js) = c.fits := by
    rw [hbounded.array.fits, fits_eq, shortInts_eq_true_iff.2 hints]
  have hsettled : (c.settled.raw.map Prod.fst).Nodup :=
    Json.nodup_whole (by simpa [settled, Function.comp_def] using h.fields)
  have hput := Json.foldl_insert hsettled
  rw [hdepth] at hroundtrip
  rw [decode, read, String.toList_ofList, Base64.decode?_encode, Json.required, Outcome.ok_bind,
    Base64.fromUTF8?_octets, Json.required, Outcome.ok_bind, hroundtrip]
  cases c.fits with
  | false => rfl
  | true => simp [Json.required, ofJson, hread, hput]

/-- With a longer integer it has none. -/
theorem encode_of_long {c : Cursor} (h : c.IsPortable) (hlong : ∃ e ∈ c, e.2.shortInts = false) :
    c.encode = .error .malformed := by
  obtain ⟨js, hjs, -, hbounded⟩ := pairs_ok h.values
  have hints : c.shortInts = false := by
    rw [← Bool.not_eq_true, shortInts_eq_true_iff]
    rintro hall
    obtain ⟨e, he, hlong⟩ := hlong
    rw [hall e he] at hlong
    cases hlong
  rw [encode, hjs, Outcome.ok_bind, Json.dump, hbounded.array.writable, hints]
  rfl

/-- No cursor with a text with surrogates has a token. -/
theorem not_isBroken_of_encode {c : Cursor} {token : String} (h : c.encode = .ok token)
    {e : String × Value} (he : e ∈ c) : e.2.isBroken = false := by
  obtain ⟨js, hjs, h⟩ := Outcome.bind_eq_ok_iff.1 h
  obtain ⟨text, hdump, -⟩ := Outcome.bind_eq_ok_iff.1 h
  obtain ⟨-, hwhole, -⟩ := Json.dump_eq_ok_iff.1 hdump
  rw [Json.isWhole] at hwhole
  obtain ⟨pair, hmem, hpair⟩ := Outcome.exists_answer_of_mapM hjs he
  obtain ⟨k, v⟩ := e
  cases v with
  | broken t =>
    cases hpair
    simpa [Json.isWhole, Json.itemsWhole] using Json.isWhole_of_mem hwhole hmem
  | _ => rfl

theorem settled_eq_self_iff (c : Cursor) :
    c.settled = c ↔ ∀ e ∈ c, ∀ o ∈ e.2.offsets, o.settled = o := by
  induction c with
  | nil => simp [settled]
  | cons e c ih =>
    rw [List.forall_mem_cons, ← ih, ← Value.settled_eq_self_iff]
    simp [settled, Prod.ext_iff]

/-- **A cursor comes back from its token exactly if its offsets from universal time have whole
seconds or are zero**; its fields, their order, and the kinds and contents of their values come
back in any case. -/
theorem decode_encode_iff {c : Cursor} (h : c.IsPortable)
    (hlevels : ∀ e ∈ c, e.2.levels + 2 ≤ Json.maxDepth)
    (hints : ∀ e ∈ c, e.2.shortInts = true) :
    ∃ token, c.encode = .ok token ∧ decode token = .ok c.settled.raw ∧
      (decode token = .ok c.raw ↔
        ∀ e ∈ c, ∀ o ∈ e.2.offsets, o.microseconds = 0 ∨ 1000000 ≤ o.microseconds.natAbs) := by
  obtain ⟨token, henc, hdec⟩ := encode_ok h hints
  have hfits : c.fits = true := by
    refine List.all_eq_true.2 fun e he => ?_
    rw [hints e he, Bool.and_true, decide_eq_true (hlevels e he)]
  rw [hfits, if_pos rfl] at hdec
  refine ⟨token, henc, hdec, ?_⟩
  rw [hdec, Except.ok.injEq, raw_inj, settled_eq_self_iff]
  simp only [Offset.settled_eq_self_iff]

/-- A cursor with nested values and a map that looks like a tag. -/
def ofNested : Cursor :=
  [("$t", .record [("$v", .list [.tuple [.decimal (.finite true 150 (-2))], .null])]),
    ("at", .timestamp ⟨⟨2020, 1, 1, by decide⟩, .midnight, some ⟨3600000000, by decide⟩⟩)]

/-- The nested cursor comes back, since its only offset is an hour. -/
theorem decode_encode_ofNested :
    ofNested.IsPortable ∧ (∀ e ∈ ofNested, e.2.levels + 2 ≤ Json.maxDepth) ∧
      (∀ e ∈ ofNested, e.2.shortInts = true) ∧
      ∃ token, ofNested.encode = .ok token ∧ decode token = .ok ofNested.settled.raw ∧
        (decode token = .ok ofNested.raw ↔ ∀ e ∈ ofNested, ∀ o ∈ e.2.offsets,
          o.microseconds = 0 ∨ 1000000 ≤ o.microseconds.natAbs) := by
  have hportable : ofNested.IsPortable := by
    refine ⟨by decide, ?_⟩
    simp only [ofNested, List.forall_mem_cons]
    refine ⟨.record (by decide) ?_, .timestamp _, by simp⟩
    simp only [List.forall_mem_cons]
    refine ⟨.list ?_, by simp⟩
    simp only [List.forall_mem_cons]
    refine ⟨.tuple ?_, .null, by simp⟩
    simp only [List.forall_mem_cons]
    exact ⟨.decimal (by decide), by simp⟩
  have hlevels : ∀ e ∈ ofNested, e.2.levels + 2 ≤ Json.maxDepth := by
    simp [ofNested, Value.record, Value.levels, Value.levelsOfItems, Value.levelsOfEntries,
      Json.maxDepth]
  have hints : ∀ e ∈ ofNested, e.2.shortInts = true := by
    simp [ofNested, Value.record, Value.shortInts, Value.shortIntsInItems,
      Value.shortIntsInEntries]
  exact ⟨hportable, hlevels, hints, decode_encode_iff hportable hlevels hints⟩

/-- A cursor with an offset of half a millisecond. -/
def ofShortOffset : Cursor :=
  [("a", .timestamp ⟨⟨2020, 1, 1, by decide⟩, .midnight, some ⟨500, by decide⟩⟩)]

/-- Not every portable cursor comes back: an offset of less than a second is lost. -/
theorem decode_encode_ofShortOffset :
    ∃ token, ofShortOffset.encode = .ok token ∧ decode token ≠ .ok ofShortOffset.raw := by
  have hportable : ofShortOffset.IsPortable :=
    ⟨by decide, by simpa [ofShortOffset] using .timestamp _⟩
  have hints : ∀ e ∈ ofShortOffset, e.2.shortInts = true := by
    simp [ofShortOffset, Value.shortInts]
  have hfits : ofShortOffset.fits = true := by
    simp [fits, ofShortOffset, Value.levels, Value.shortInts, Json.maxDepth]
  obtain ⟨token, henc, hdec⟩ := encode_ok hportable hints
  rw [hfits, if_pos rfl] at hdec
  refine ⟨token, henc, ?_⟩
  rw [hdec, ne_eq, Except.ok.injEq, raw_inj, settled_eq_self_iff]
  simp only [Offset.settled_eq_self_iff]
  intro h
  have := h _ List.mem_cons_self ⟨500, by decide⟩ (by simp [Value.offsets])
  simp at this

end Cursor

end Sieve
