import Sieve.Cursor.Token
import Sieve.Proofs.Calendar
import Sieve.Proofs.Json.RoundTrip
import Sieve.Proofs.Outcome
import Sieve.Proofs.Uuid

/-!
# Values and their tagged JSON

The values that cursors carry, what they come back as from their tagged JSON, and how deep that JSON
is nested.

* `Value.Portable`: the values that have tagged JSON and come back from it;
* `Value.settled`, `Value.IsSettled`: offsets of less than a second do not come back, everything
  else does;
* `Value.levels`, `Value.shortInts`: what the bounds of JSON texts mean for a value;
* `Json.Bounded`: JSON with a text that is read back within such bounds;
* `Value.tagged_ok`: the tagged JSON of a value gives the settled value.
-/

namespace Sieve

namespace Value

/-! ### Portable values -/

/-- Values that have tagged JSON: scalars, and lists, tuples and maps of such values. Octets, sets,
objects and members of enumerations are none. -/
inductive Portable : Value → Prop
  | null : Portable .null
  | bool (b : Bool) : Portable (.bool b)
  | int (i : ℤ) : Portable (.int i)
  | float {x : Binary64} (h : x.IsKept) : Portable (.float x)
  | decimal {d : Decimal} (h : d.IsBounded) : Portable (.decimal d)
  | text (s : String) : Portable (.text s)
  | date (d : Date) : Portable (.date d)
  | time (t : TimeOfDay) : Portable (.time t)
  | timestamp (t : Timestamp) : Portable (.timestamp t)
  | uuid (u : Uuid) : Portable (.uuid u)
  | list {xs : List Value} (h : ∀ x ∈ xs, Portable x) : Portable (.list xs)
  | tuple {xs : List Value} (h : ∀ x ∈ xs, Portable x) : Portable (.tuple xs)
  | record {es : List (String × Value)} (hkeys : (es.map Prod.fst).Nodup)
    (h : ∀ e ∈ es, Portable e.2) : Portable (.record es)

mutual

/-- The value with its offsets settled. -/
def settled : Value → Value
  | .time t => .time t.settled
  | .timestamp t => .timestamp t.settled
  | .list xs => .list (settledItems xs)
  | .tuple xs => .tuple (settledItems xs)
  | .map es => .map (settledEntries es)
  | v => v

/-- Items with their offsets settled. -/
def settledItems : List Value → List Value
  | [] => []
  | x :: r => settled x :: settledItems r

/-- Entries with the offsets of their values settled. -/
def settledEntries : List (Value × Value) → List (Value × Value)
  | [] => []
  | (k, v) :: r => (k, settled v) :: settledEntries r

end

mutual

/-- How deep the tagged JSON of a value is nested. -/
def levels : Value → ℕ
  | .list xs => levelsOfItems xs + 1
  | .tuple xs => levelsOfItems xs + 2
  | .map es => levelsOfEntries es + 2
  | .decimal _ | .date _ | .time _ | .timestamp _ | .uuid _ => 2
  | _ => 1

/-- How deep the tagged JSON of the deepest item is nested. -/
def levelsOfItems : List Value → ℕ
  | [] => 0
  | x :: r => max (levels x) (levelsOfItems r)

/-- How deep the pair of a key and the deepest value is nested. -/
def levelsOfEntries : List (Value × Value) → ℕ
  | [] => 0
  | (_, v) :: r => max (levels v + 1) (levelsOfEntries r)

end

mutual

/-- Whether all integers in a value have few enough digits to be read. -/
def shortInts : Value → Bool
  | .int i => (Numeral.digitsOf i.natAbs).length ≤ Numeral.maxDigits
  | .list xs => shortIntsInItems xs
  | .tuple xs => shortIntsInItems xs
  | .map es => shortIntsInEntries es
  | _ => true

/-- Whether all integers in some items have few enough digits. -/
def shortIntsInItems : List Value → Bool
  | [] => true
  | x :: r => shortInts x && shortIntsInItems r

/-- Whether all integers in the values of some entries have few enough digits. -/
def shortIntsInEntries : List (Value × Value) → Bool
  | [] => true
  | (_, v) :: r => shortInts v && shortIntsInEntries r

end

end Value

/-! ### Bounds of JSON -/

namespace Json

/-- The data has a text in octets if its integers are short, and is then read back from the text if it
may be nested as many levels deep. -/
structure Bounded (levels : ℕ) (short : Bool) (j : Json) : Prop where
  proper : j.Proper
  whole : j.isWhole = true
  writable : j.isWritable = short
  positive : 0 < levels
  fits : ∀ depth, j.fits depth = (decide (levels ≤ depth) && short)

/-- The same for the items of an array. -/
structure BoundedItems (levels : ℕ) (short : Bool) (js : List Json) : Prop where
  proper : ∀ j ∈ js, j.Proper
  whole : itemsWhole js = true
  writable : itemsWritable js = short
  fits : ∀ depth, js.all (Json.fits depth) = (decide (levels ≤ depth) && short)

variable {levels levels' : ℕ} {short short' : Bool} {j : Json} {js : List Json}

theorem isWhole_of_mem (h : itemsWhole js = true) (hj : j ∈ js) : j.isWhole = true := by
  induction js with
  | nil => cases hj
  | cons k js ih =>
    obtain ⟨hk, hjs⟩ := Bool.and_eq_true_iff.1 h
    rcases List.mem_cons.1 hj with rfl | hj
    · exact hk
    · exact ih hjs hj

theorem boundedItems_nil : BoundedItems 0 true [] :=
  ⟨by simp, by simp [itemsWhole], by simp [itemsWritable], by simp⟩

theorem BoundedItems.cons (hs : BoundedItems levels' short' js) (h : Bounded levels short j) :
    BoundedItems (max levels levels') (short && short') (j :: js) := by
  refine ⟨List.forall_mem_cons.2 ⟨h.proper, hs.proper⟩, ?_, ?_, fun depth => ?_⟩
  · rw [itemsWhole, h.whole, hs.whole, Bool.and_true]
  · rw [itemsWritable, h.writable, hs.writable]
  · rw [List.all_cons, h.fits, hs.fits, Bool.decide_congr max_le_iff, Bool.decide_and]
    ac_rfl

theorem BoundedItems.array (h : BoundedItems levels short js) :
    Bounded (levels + 1) short (.array js) := by
  refine ⟨.array h.proper, ?_, ?_, Nat.succ_pos _, fun depth => ?_⟩
  · rw [isWhole, h.whole]
  · rw [isWritable, h.writable]
  · cases depth with
    | zero => simp [Json.fits]
    | succ depth => simp [Json.fits, h.fits]

theorem bounded_text (s : String) : Bounded 1 true (.text s) := by
  refine ⟨.text s, by simp [isWhole], by simp [isWritable], Nat.one_pos, fun depth => ?_⟩
  cases depth <;> simp [Json.fits]

/-- A pair of a text and data. -/
theorem Bounded.pair (h : Bounded levels short j) (k : String) :
    Bounded (levels + 1) short (.array [.text k, j]) := by
  have hpair := ((boundedItems_nil.cons h).cons (bounded_text k)).array
  have hpos := h.positive
  rwa [Nat.max_zero, max_eq_right (by omega), Bool.and_true, Bool.true_and] at hpair

/-- Data under the tag of its type. -/
theorem Bounded.tag (h : Bounded levels short j) (type : String) :
    Bounded (levels + 1) short (Json.tag type j) := by
  refine ⟨.object (by simp) ?_, ?_, ?_, Nat.succ_pos _, fun depth => ?_⟩
  · simp only [List.forall_mem_cons]
    exact ⟨.text type, h.proper, by simp⟩
  · simp [Json.tag, isWhole, entriesWhole, h.whole]
  · simp [Json.tag, isWritable, entriesWritable, h.writable]
  · have hpos := h.positive
    rcases depth with _ | _ | depth
    · simp [Json.fits]
    · simp [Json.fits, Json.tag, hpos.ne']
    · simp [Json.fits, Json.tag, h.fits]

@[simp] theorem untag_tag (type : String) (j : Json) :
    (Json.tag type j).untag = Json.untagAs (.text type) j := by
  simp [Json.tag, Json.untag]

end Json

namespace Value

/-! ### Tagged JSON -/

/-- Tagged JSON that gives a settled value back and is nested as deep as the levels of the value. -/
structure IsTagOf (v : Value) (j : Json) : Prop where
  untagged : j.untag = .ok v.settled
  bounded : j.Bounded v.levels v.shortInts

/-- A scalar that is written as a text under a tag. -/
theorem isTagOf_atom {v w : Value} {type s : String} (hne : type ≠ "tuple" ∧ type ≠ "map")
    (hread : Json.atom type (.text s) = .ok w) (hw : w = v.settled) (hlevels : v.levels = 2)
    (hints : v.shortInts = true) : IsTagOf v (.tag type (.text s)) := by
  refine ⟨?_, ?_⟩
  · rw [Json.untag_tag]
    simp [Json.untagAs, Json.flat, hne.1, hne.2, hread, hw]
  · rw [hlevels, hints]
    exact (Json.bounded_text s).tag type

/-- A scalar that JSON has. -/
theorem isTagOf_plain {v : Value} {j : Json} (hproper : j.Proper) (hwhole : j.isWhole = true)
    (hread : j.untag = .ok v.settled) (hlevels : v.levels = 1)
    (hwritable : j.isWritable = v.shortInts) (hfits : ∀ depth, j.fits (depth + 1) = v.shortInts) :
    IsTagOf v j := by
  refine ⟨hread, hproper, hwhole, hwritable, hlevels ▸ Nat.one_pos, fun depth => ?_⟩
  rw [hlevels]
  cases depth with
  | zero => simp [Json.fits]
  | succ depth => simp [hfits]

/-- The tagged JSON of the items of a list or tuple. -/
theorem taggedItems_ok {xs : List Value} (h : ∀ x ∈ xs, ∃ j, tagged x = .ok j ∧ IsTagOf x j) :
    ∃ js, taggedItems xs = .ok js ∧ Json.untagItems js = .ok (settledItems xs) ∧
      Json.BoundedItems (levelsOfItems xs) (shortIntsInItems xs) js := by
  induction xs with
  | nil =>
    refine ⟨[], by simp [taggedItems], by simp [Json.untagItems, settledItems], ?_⟩
    simpa [levelsOfItems, shortIntsInItems] using Json.boundedItems_nil
  | cons x xs ih =>
    obtain ⟨j, hj, htag⟩ := h x (by simp)
    obtain ⟨js, hjs, huntag, hbounded⟩ := ih fun y hy => h y (List.mem_cons_of_mem x hy)
    refine ⟨j :: js, by simp [taggedItems, hj, hjs], ?_, ?_⟩
    · simp [Json.untagItems, htag.untagged, huntag, settledItems]
    · rw [levelsOfItems, shortIntsInItems]
      exact hbounded.cons htag.bounded

/-! ### Maps -/

/-- The entries of a map as they are put together again. -/
def textEntries (es : List (String × Value)) : List (Value × Value) :=
  es.map fun e => (.text e.1, e.2)

theorem record_eq (es : List (String × Value)) : record es = .map (textEntries es) := rfl

theorem settledEntries_textEntries (es : List (String × Value)) :
    settledEntries (textEntries es) = textEntries (es.map fun e => (e.1, e.2.settled)) := by
  induction es with
  | nil => rfl
  | cons e es ih => exact congrArg _ ih

theorem sameKey_text (k l : String) : Json.sameKey (.text k) (.text l) = (k == l) := by
  simp [Json.sameKey]

theorem putEntry_of_notMem {es : List (String × Value)} {k : String} (v : Value)
    (h : k ∉ es.map Prod.fst) :
    Json.putEntry (textEntries es) (.text k) v = textEntries (es ++ [(k, v)]) := by
  induction es with
  | nil => rfl
  | cons e es ih =>
    simp only [List.map_cons, List.mem_cons, not_or] at h
    have hne : (e.1 == k) = false := beq_eq_false_iff_ne.2 (Ne.symm h.1)
    have hcons : textEntries (e :: es) = (.text e.1, e.2) :: textEntries es := rfl
    rw [hcons, Json.putEntry, sameKey_text, hne, ih h.2]
    rfl

/-- Pairs with distinct text keys make a map as they are. -/
theorem foldl_putEntry {es : List (String × Value)} (h : (es.map Prod.fst).Nodup) :
    (textEntries es).foldl (fun fs e => Json.putEntry fs e.1 e.2) [] = textEntries es := by
  rw [textEntries, List.foldl_map]
  exact Json.foldl_fresh (fun fs k v => Json.putEntry fs (.text k) v) textEntries
    (fun _ _ v hk => putEntry_of_notMem v hk) [] h

theorem mapOf_textEntries {es : List (String × Value)} (h : (es.map Prod.fst).Nodup) :
    Json.mapOf (textEntries es) = record es := by
  rw [Json.mapOf, record_eq, foldl_putEntry h]

/-- The tagged JSON of the entries of a map. -/
theorem taggedEntries_ok {es : List (String × Value)}
    (h : ∀ e ∈ es, ∃ j, tagged e.2 = .ok j ∧ IsTagOf e.2 j) :
    ∃ js, taggedEntries (textEntries es) = .ok js ∧
      Json.untagPairs js = .ok (settledEntries (textEntries es)) ∧
      Json.BoundedItems (levelsOfEntries (textEntries es))
        (shortIntsInEntries (textEntries es)) js := by
  induction es with
  | nil =>
    refine ⟨[], by simp [textEntries, taggedEntries],
      by simp [textEntries, Json.untagPairs, settledEntries], ?_⟩
    simpa [textEntries, levelsOfEntries, shortIntsInEntries] using Json.boundedItems_nil
  | cons e es ih =>
    obtain ⟨j, hj, htag⟩ := h e (by simp)
    obtain ⟨js, hjs, huntag, hbounded⟩ := ih fun f hf => h f (List.mem_cons_of_mem e hf)
    have hcons : textEntries (e :: es) = (.text e.1, e.2) :: textEntries es := rfl
    have hkey : (Value.text e.1).toRaw = .ok (.whole e.1) := toRaw_ofRaw (.whole e.1)
    rw [hcons]
    refine ⟨.array [.text e.1, j] :: js, ?_, ?_, ?_⟩
    · simp [taggedEntries, hkey, hj, hjs, Json.ofRaw]
    · simp [Json.untagPairs, Json.key, htag.untagged, huntag, settledEntries]
    · rw [levelsOfEntries, shortIntsInEntries]
      exact hbounded.cons (htag.bounded.pair e.1)

/-- **The tagged JSON of a portable value gives the settled value back**, and fits exactly if its
levels do and its integers are short. -/
theorem tagged_ok {v : Value} (h : Portable v) : ∃ j, tagged v = .ok j ∧ IsTagOf v j := by
  induction h with
  | null =>
    exact ⟨.null, by simp [tagged], isTagOf_plain .null (by simp [Json.isWhole])
      (by simp [Json.untag, settled]) (by simp [levels]) (by simp [Json.isWritable, shortInts])
      (by simp [Json.fits, shortInts])⟩
  | bool b =>
    exact ⟨.bool b, by simp [tagged], isTagOf_plain (.bool b) (by simp [Json.isWhole])
      (by simp [Json.untag, settled]) (by simp [levels]) (by simp [Json.isWritable, shortInts])
      (by simp [Json.fits, shortInts])⟩
  | int i =>
    exact ⟨.int i, by simp [tagged], isTagOf_plain (.int i) (by simp [Json.isWhole])
      (by simp [Json.untag, settled]) (by simp [levels])
      (by simp [Json.isWritable, shortInts, Numeral.isShort]) (by simp [Json.fits, shortInts])⟩
  | @float x hx =>
    exact ⟨.float x, by simp [tagged], isTagOf_plain (.float hx) (by simp [Json.isWhole])
      (by simp [Json.untag, settled]) (by simp [levels]) (by simp [Json.isWritable, shortInts])
      (by simp [Json.fits, shortInts])⟩
  | text s =>
    exact ⟨.text s, by simp [tagged], isTagOf_plain (.text s) (by simp [Json.isWhole])
      (by simp [Json.untag, settled]) (by simp [levels]) (by simp [Json.isWritable, shortInts])
      (by simp [Json.fits, shortInts])⟩
  | @decimal d hd =>
    refine ⟨_, by rw [tagged], isTagOf_atom (w := .decimal d) (by decide) ?_
      (by simp [settled]) (by simp [levels]) (by simp [shortInts])⟩
    simp [Json.atom, Json.decimal, Json.required, Decimal.read?_text hd]
  | date d =>
    refine ⟨_, by rw [tagged], isTagOf_atom (w := .date d) (by decide) ?_
      (by simp [settled]) (by simp [levels]) (by simp [shortInts])⟩
    simp [Json.atom, Json.rawText, RawText.whole?, Json.required, Iso.readDate?_dateText]
  | time t =>
    refine ⟨_, by rw [tagged], isTagOf_atom (w := .time t.settled) (by decide) ?_
      (by simp [settled]) (by simp [levels]) (by simp [shortInts])⟩
    simp [Json.atom, Json.rawText, RawText.whole?, Json.required, Iso.readTime?_timeText]
  | timestamp t =>
    refine ⟨_, by rw [tagged], isTagOf_atom (w := .timestamp t.settled) (by decide) ?_
      (by simp [settled]) (by simp [levels]) (by simp [shortInts])⟩
    simp [Json.atom, Json.rawText, Json.required, Iso.readRawTimestamp?,
      Iso.readTimestamp?_timestampText (by decide : 'T'.toNat < 128)]
  | uuid u =>
    refine ⟨_, by rw [tagged], isTagOf_atom (w := .uuid u) (by decide) ?_
      (by simp [settled]) (by simp [levels]) (by simp [shortInts])⟩
    simp [Json.atom, Json.uuid, Json.required, Uuid.read?_text]
  | @list xs h ih =>
    obtain ⟨js, hjs, huntag, hbounded⟩ := taggedItems_ok ih
    refine ⟨.array js, by simp [tagged, hjs], by simp [Json.untag, huntag, settled], ?_⟩
    rw [levels, shortInts]
    exact hbounded.array
  | @tuple xs h ih =>
    obtain ⟨js, hjs, huntag, hbounded⟩ := taggedItems_ok ih
    refine ⟨.tag "tuple" (.array js), by simp [tagged, hjs],
      by simp [Json.untagAs, huntag, settled], ?_⟩
    rw [levels, shortInts]
    exact hbounded.array.tag "tuple"
  | @record es hkeys h ih =>
    obtain ⟨js, hjs, huntag, hbounded⟩ := taggedEntries_ok ih
    have hmap : Json.mapOf (settledEntries (textEntries es)) =
        .map (settledEntries (textEntries es)) := by
      rw [settledEntries_textEntries, mapOf_textEntries, record_eq]
      simpa [Function.comp_def] using hkeys
    refine ⟨.tag "map" (.array js), by simp [record_eq, tagged, hjs],
      by simp [Json.untagAs, huntag, hmap, record_eq, settled], ?_⟩
    rw [record_eq, levels, shortInts]
    exact hbounded.array.tag "map"

end Value

end Sieve
