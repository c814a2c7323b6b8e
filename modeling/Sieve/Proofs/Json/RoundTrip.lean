import Sieve.Proofs.Json.Number

/-!
# Reading JSON texts back

JSON data comes back from its text exactly if it is not nested too deeply and no integer in it is
too long. Doubles have to be in the form in which doubles are kept, and the keys of an object have
to be distinct, as those of a map are.

* `Proper`: the data that may come back;
* `fits`: the bounds of reading, which are the only ones;
* `textFrom_flatMap`: a text comes back from its escaped characters;
* `itemsFrom?_joined`: items with commas between them come back, whatever they are;
* `read?_write`: data comes back if and only if it fits.
-/

namespace Sieve.Json

open Numeral

/-- Data whose doubles are in the form in which doubles are kept and whose objects have no key
twice. -/
inductive Proper : Json → Prop
  | null : Proper .null
  | bool (b : Bool) : Proper (.bool b)
  | int (i : ℤ) : Proper (.int i)
  | float {x : Binary64} (h : x.IsKept) : Proper (.float x)
  | text (s : String) : Proper (.text s)
  | array {xs : List Json} (h : ∀ x ∈ xs, Proper x) : Proper (.array xs)
  | object {es : List (String × Json)} (hkeys : (es.map Prod.fst).Nodup)
    (h : ∀ e ∈ es, Proper e.2) : Proper (.object es)

/-- Whether data is nested at most `depth` deep and has no integer that is too long. -/
def fits : ℕ → Json → Bool
  | 0, _ => false
  | _ + 1, .int i => (digitsOf i.natAbs).length ≤ maxDigits
  | depth + 1, .array xs => xs.all (fits depth)
  | depth + 1, .object es => es.all fun e => fits depth e.2
  | _ + 1, _ => true

/-! ### Texts -/

theorem textFrom_drop (n : ℕ) (s r : List Char) (h : s.length = n) :
    textFrom n (s ++ r) = textFrom 0 r := by
  induction s generalizing n with
  | nil =>
    subst h
    rfl
  | cons c s ih =>
    subst h
    rw [List.length_cons, List.cons_append, textFrom]
    exact ih _ rfl

/-- An escape of `n` characters behind the backslash. -/
theorem textFrom_escape {p : CodePoint} {s r : List Char}
    (h : escaped? (s ++ r) = some (p, s.length)) :
    textFrom 0 ('\\' :: (s ++ r)) = (textFrom 0 r).map fun t => (p :: t.1, t.2) := by
  rw [textFrom]
  simp [h, textFrom_drop s.length s r rfl]

theorem hexUnit?_control : ∀ n < 32, ∀ r : List Char,
    hexUnit? ('0' :: '0' :: Nat.digitChar (n / 16) :: Nat.digitChar (n % 16) :: r) = some n := by
  intro n hn r
  have hdigits : ∀ n < 32, hexDigit? (Nat.digitChar (n / 16)) = some (n / 16) ∧
      hexDigit? (Nat.digitChar (n % 16)) = some (n % 16) := by decide
  obtain ⟨h1, h2⟩ := hdigits n hn
  have h0 : hexDigit? '0' = some 0 := by decide
  simp only [hexUnit?, h0, h1, h2, Option.bind_eq_bind, Option.bind_some, Option.some.injEq]
  omega

theorem escaped?_control {c : Char} (h : c.toNat < 32) (r : List Char) :
    escaped? ('u' :: '0' :: '0' :: Nat.digitChar (c.toNat / 16) ::
      Nat.digitChar (c.toNat % 16) :: r) = some (.char c, 5) := by
  have hlow : ¬ (0xD800 ≤ c.toNat ∧ c.toNat < 0xDC00) := by omega
  simp [escaped?, hexUnit?_control c.toNat h, hlow, CodePoint.ofNat?_toNat]

/-- A character comes back from how it is written. -/
theorem textFrom_writeChar (c : Char) (r : List Char) :
    textFrom 0 (writeChar c ++ r) = (textFrom 0 r).map fun t => (.char c :: t.1, t.2) := by
  unfold writeChar
  split_ifs with hquote hslash hn hr ht hf hb hcontrol
  · exact textFrom_escape (s := ['"']) (by simp [escaped?, hquote])
  · exact textFrom_escape (s := ['\\']) (by simp [escaped?, hslash])
  · exact textFrom_escape (s := ['n']) (by simp [escaped?, hn])
  · exact textFrom_escape (s := ['r']) (by simp [escaped?, hr])
  · exact textFrom_escape (s := ['t']) (by simp [escaped?, ht])
  · exact textFrom_escape (s := ['f']) (by simp [escaped?, hf])
  · exact textFrom_escape (s := ['b']) (by simp [escaped?, hb])
  · exact textFrom_escape (s := ['u', '0', '0', Nat.digitChar (c.toNat / 16),
      Nat.digitChar (c.toNat % 16)]) (escaped?_control hcontrol r)
  · rw [List.singleton_append, textFrom]
    simp [hquote, hslash, hcontrol]

/-- A text comes back from its escaped characters. -/
theorem textFrom_flatMap (s r : List Char) :
    textFrom 0 (s.flatMap writeChar ++ '"' :: r) = some (s.map .char, r) := by
  induction s with
  | nil => simp [textFrom]
  | cons c s ih =>
    rw [List.flatMap_cons, List.append_assoc, textFrom_writeChar, ih]
    rfl

/-! ### Lists of items -/

/-- What may stand behind an item: nothing that goes on with a number, and no space. -/
theorem endsNumber_cons {c : Char} {r : List Char} (h : c = ',' ∨ c = ']' ∨ c = '\x7d') :
    EndsNumber (c :: r) := by
  intro d hd
  cases hd
  rcases h with rfl | rfl | rfl <;> decide

section Items

variable {α β : Type} {item : List Char → Option (β × List Char)} {close : Char}
  {text : α → List Char} {value : α → β} {ok : α → Bool}

/-- The items after the first one, and the closing bracket. -/
def joined (text : α → List Char) (close : Char) (xs : List α) : List Char :=
  xs.flatMap (fun x => ',' :: text x) ++ [close]

theorem length_le_joined (text : α → List Char) (close : Char) (xs : List α) :
    xs.length < (joined text close xs).length := by
  induction xs with
  | nil => simp [joined]
  | cons x xs ih =>
    simp only [joined, List.flatMap_cons, List.length_append, List.length_cons] at ih ⊢
    omega

theorem joined_head (text : α → List Char) (hclose : close = ']' ∨ close = '\x7d') (xs : List α) (r : List Char) :
    ∃ c t, joined text close xs ++ r = c :: t ∧ (c = ',' ∨ c = ']' ∨ c = '\x7d') := by
  cases xs with
  | nil => exact ⟨close, r, rfl, .inr hclose⟩
  | cons x xs => exact ⟨',', _, rfl, .inl rfl⟩

theorem skipSpace_joined (text : α → List Char) (hclose : close = ']' ∨ close = '\x7d') (xs : List α) (r : List Char) :
    skipSpace (joined text close xs ++ r) = joined text close xs ++ r := by
  obtain ⟨c, t, heq, hc⟩ := joined_head text hclose xs r
  rw [heq]
  exact skipSpace_of_head (by rcases hc with rfl | rfl | rfl <;> decide)

/-- Items with commas between them come back if and only if each of them does. -/
theorem itemsFrom?_joined (hclose : close = ']' ∨ close = '\x7d') {x : α} {xs : List α}
    (hitem : ∀ y ∈ x :: xs, ∀ r, EndsNumber r →
      item (text y ++ r) = if ok y then some (value y, r) else none)
    (hspace : ∀ y ∈ x :: xs, ∀ r, skipSpace (text y ++ r) = text y ++ r) {fuel : ℕ}
    (hfuel : xs.length < fuel) (r : List Char) :
    itemsFrom? item close fuel (text x ++ (joined text close xs ++ r)) =
      if (x :: xs).all ok then some ((x :: xs).map value, r) else none := by
  induction xs generalizing x fuel with
  | nil =>
    obtain ⟨fuel, rfl⟩ := Nat.exists_eq_succ_of_ne_zero (by omega : fuel ≠ 0)
    have hends : EndsNumber (close :: r) := endsNumber_cons (.inr hclose)
    have hskip := skipSpace_joined text hclose [] r
    simp only [joined, List.flatMap_nil, List.nil_append, List.singleton_append] at hskip ⊢
    rw [itemsFrom?, hitem x (by simp) _ hends]
    by_cases hx : ok x = true
    · simp [hx, hskip]
    · simp [hx]
  | cons y ys ih =>
    obtain ⟨fuel, rfl⟩ := Nat.exists_eq_succ_of_ne_zero (by omega : fuel ≠ 0)
    have hne : ',' ≠ close := by rcases hclose with rfl | rfl <;> decide
    have hends : EndsNumber (joined text close (y :: ys) ++ r) := by
      obtain ⟨c, t, heq, hc⟩ := joined_head text hclose (y :: ys) r
      rw [heq]
      exact endsNumber_cons hc
    have hskip := skipSpace_joined text hclose (y :: ys) r
    have hjoin : joined text close (y :: ys) ++ r = ',' :: (text y ++ (joined text close ys ++ r)) := by
      simp [joined]
    have hrest := ih (x := y) (fun z hz => hitem z (List.mem_cons_of_mem x hz))
      (fun z hz => hspace z (List.mem_cons_of_mem x hz)) (Nat.lt_of_succ_lt_succ hfuel)
    rw [itemsFrom?, hitem x (by simp) _ hends]
    by_cases hx : ok x = true
    · simp only [hx, if_true, Option.bind_eq_bind, Option.bind_some, hskip]
      rw [hjoin]
      simp only [hne, if_false, if_true, hspace y (by simp), hrest]
      rw [List.all_cons (a := x), hx, Bool.true_and]
      cases (y :: ys).all ok <;> rfl
    · simp [hx]

/-- A bracketed list of items comes back if and only if each item does. -/
theorem bracketFrom?_joined (hclose : close = ']' ∨ close = '\x7d') {x : α} {xs : List α}
    (hitem : ∀ y ∈ x :: xs, ∀ r, EndsNumber r →
      item (text y ++ r) = if ok y then some (value y, r) else none)
    (hhead : ∀ y ∈ x :: xs, ∃ c t, text y = c :: t ∧ isSpace c = false ∧ c ≠ close)
    (r : List Char) :
    bracketFrom? item close (text x ++ (joined text close xs ++ r)) =
      if (x :: xs).all ok then some ((x :: xs).map value, r) else none := by
  have hspace : ∀ y ∈ x :: xs, ∀ r, skipSpace (text y ++ r) = text y ++ r := by
    intro y hy r
    obtain ⟨c, t, heq, hc, -⟩ := hhead y hy
    rw [heq]
    exact skipSpace_of_head hc
  obtain ⟨c, t, heq, -, hc⟩ := hhead x (by simp)
  have hlen := length_le_joined text close xs
  have hfuel : xs.length < (t ++ (joined text close xs ++ r)).length + 1 := by
    simp only [List.length_append]
    omega
  have hitems := itemsFrom?_joined hclose hitem hspace hfuel r
  rw [bracketFrom?, hspace x (by simp), heq]
  rw [heq] at hitems
  simpa [hc] using hitems

end Items

/-! ### Data -/

theorem writeItems_eq (xs : List Json) : writeItems xs = joined write ']' xs := by
  induction xs with
  | nil => simp [writeItems, joined]
  | cons x xs ih => simp [writeItems, ih, joined]

/-- An entry of an object as it is written. -/
def writeEntry (e : String × Json) : List Char :=
  writeText e.1.toList ++ ':' :: write e.2

theorem writeEntries_eq (es : List (String × Json)) :
    writeEntries es = joined writeEntry '\x7d' es := by
  induction es with
  | nil => simp [writeEntries, joined]
  | cons e es ih => simp [writeEntries, ih, joined, writeEntry]

/-- Whether a character may start an atom. -/
def startsAtom (c : Char) : Bool :=
  c == '-' || isDigit c || c == 'n' || c == 't' || c == 'f' || c == 'N' || c == 'I'

theorem head_of_startsAtom {c : Char} (h : startsAtom c = true) :
    isSpace c = false ∧ c ≠ ']' ∧ c ≠ '"' ∧ c ≠ '[' ∧ c ≠ '\x7b' := by
  refine ⟨?_, ?_, ?_, ?_, ?_⟩
  · rw [← Bool.not_eq_true]
    intro hs
    simp only [isSpace, Bool.or_eq_true, beq_iff_eq] at hs
    rcases hs with ((rfl | rfl) | rfl) | rfl <;> cases h
  all_goals
    rintro rfl
    cases h

theorem startsAtom_minus {negative : Bool} {c : Char} {t : List Char} (h : isDigit c = true) :
    ∃ d u, minus negative ++ c :: t = d :: u ∧ startsAtom d = true := by
  cases negative with
  | true => exact ⟨'-', c :: t, rfl, by decide⟩
  | false => exact ⟨c, t, rfl, by simp [startsAtom, h]⟩

/-- An atom is data that is no text, array or object. -/
def IsAtom : Json → Prop
  | .text _ | .array _ | .object _ => False
  | _ => True

/-- The text of an atom starts like one. -/
theorem head_write_atom {j : Json} (hj : j.Proper) (ha : j.IsAtom) :
    ∃ c t, write j = c :: t ∧ startsAtom c = true := by
  cases hj with
  | null => exact ⟨'n', _, rfl, by decide⟩
  | bool b => cases b <;> exact ⟨_, _, rfl, by decide⟩
  | int i =>
    obtain ⟨c, t, hct⟩ := List.exists_cons_of_ne_nil (digitsOf_ne_nil i.natAbs)
    have hc : isDigit c = true := isDigit_of_mem_digitsOf (n := i.natAbs) (by simp [hct])
    have htext : write (.int i) = minus (decide (i < 0)) ++ c :: t := by
      rw [write, integerText, minus, hct]
      by_cases h : i < 0 <;> simp [h]
    rw [htext]
    exact startsAtom_minus hc
  | @float x hx =>
    cases x with
    | finite negative s e =>
      have hread := numberFrom?_text negative hx (r := []) (by simp [EndsNumber])
      obtain ⟨negative', c, t, heq, hc⟩ := head_of_numberFrom? hread
      rw [List.append_nil] at heq
      have htext : write (.float (.finite negative s e)) = minus negative' ++ c :: t := by
        rw [write, writeFloat, heq] <;> simp
      rw [htext]
      exact startsAtom_minus hc
    | infinite negative => cases negative <;> exact ⟨_, _, rfl, by decide⟩
    | nan => exact ⟨'N', _, rfl, by decide⟩
  | text s => exact ha.elim
  | array h => exact ha.elim
  | object hk h => exact ha.elim

/-- The text of data does not start with a space or a closing bracket. -/
theorem head_write {j : Json} (hj : j.Proper) :
    ∃ c t, write j = c :: t ∧ isSpace c = false ∧ c ≠ ']' := by
  by_cases ha : j.IsAtom
  · obtain ⟨c, t, heq, hc⟩ := head_write_atom hj ha
    obtain ⟨hspace, hclose, -⟩ := head_of_startsAtom hc
    exact ⟨c, t, heq, hspace, hclose⟩
  · cases j with
    | text s => exact ⟨'"', _, rfl, by decide, by decide⟩
    | array xs => cases xs <;> exact ⟨'[', _, rfl, by decide, by decide⟩
    | object es => cases es <;> exact ⟨'\x7b', _, rfl, by decide, by decide⟩
    | _ => exact absurd trivial ha

/-- An atom is read as a word or a number. -/
theorem valueFrom?_atom {c : Char} {t : List Char} (h : startsAtom c = true) (depth : ℕ) :
    valueFrom? (depth + 1) (c :: t) = atomFrom? (c :: t) := by
  obtain ⟨-, -, hquote, hbracket, hbrace⟩ := head_of_startsAtom h
  rw [valueFrom?]
  · rintro r heq
    exact hquote (List.cons.inj heq).1
  · rintro r heq
    exact hbracket (List.cons.inj heq).1
  · rintro r heq
    exact hbrace (List.cons.inj heq).1

/-- An atom comes back from its text if it fits. -/
theorem valueFrom?_write_atom {j : Json} (hj : j.Proper) (ha : j.IsAtom) (depth : ℕ)
    {r : List Char} (hr : EndsNumber r) :
    valueFrom? (depth + 1) (write j ++ r) = if fits (depth + 1) j then some (j, r) else none := by
  obtain ⟨c, t, heq, hc⟩ := head_write_atom hj ha
  rw [heq, List.cons_append, valueFrom?_atom hc, ← List.cons_append, ← heq]
  cases hj with
  | null => simp [write, fits, atomFrom?, words, afterWord?]
  | bool b => cases b <;> simp [write, fits, atomFrom?, words, afterWord?]
  | int i => simp [write, fits, atomFrom?_integerText i hr]
  | float hx => simp [write, fits, atomFrom?_writeFloat hx hr]
  | text s => exact ha.elim
  | array h => exact ha.elim
  | object hk h => exact ha.elim

theorem entryFrom?_writeEntry {value : List Char → Option (Json × List Char)} (ok : Json → Bool)
    {e : String × Json} (he : e.2.Proper) {r : List Char}
    (hvalue : value (write e.2 ++ r) = if ok e.2 then some (e.2, r) else none) :
    entryFrom? value (writeEntry e ++ r) =
      if ok e.2 then some ((.whole e.1, e.2), r) else none := by
  obtain ⟨c, t, heq, hspace, -⟩ := head_write he
  have hskip : skipSpace (write e.2 ++ r) = write e.2 ++ r := by
    rw [heq]
    exact skipSpace_of_head hspace
  have hcolon : ∀ u, skipSpace (':' :: u) = ':' :: u := fun u => skipSpace_of_head (by decide)
  have htext : writeEntry e ++ r =
      '"' :: (e.1.toList.flatMap writeChar ++ '"' :: ':' :: (write e.2 ++ r)) := by
    simp [writeEntry, writeText]
  rw [htext, entryFrom?, textFrom_flatMap]
  simp only [Option.bind_eq_bind, Option.bind_some, hcolon, hskip, hvalue, RawText.ofPoints_chars,
    String.ofList_toList]
  split_ifs <;> rfl

/-- Entries with distinct keys that are put one by one stay as they are, if a new one is put at the
end. -/
theorem foldl_fresh {σ κ α : Type} (put : σ → κ → α → σ) (ofEntries : List (κ × α) → σ)
    (hput : ∀ es k v, k ∉ es.map Prod.fst → put (ofEntries es) k v = ofEntries (es ++ [(k, v)]))
    {es : List (κ × α)} (done : List (κ × α)) (h : ((done ++ es).map Prod.fst).Nodup) :
    es.foldl (fun s e => put s e.1 e.2) (ofEntries done) = ofEntries (done ++ es) := by
  induction es generalizing done with
  | nil => simp
  | cons e es ih =>
    have hnot : e.1 ∉ done.map Prod.fst := by
      intro hmem
      rw [List.map_append, List.map_cons] at h
      exact (List.nodup_append.1 h).2.2 _ hmem _ (by simp) rfl
    rw [List.foldl_cons, hput done e.1 e.2 hnot, ih _ (by simpa using h)]
    simp

theorem insert_of_notMem {α : Type} {es : List (RawText × α)} {k : RawText} (v : α)
    (h : k ∉ es.map Prod.fst) : insert es k v = es ++ [(k, v)] := by
  induction es with
  | nil => rfl
  | cons e es ih =>
    simp only [List.map_cons, List.mem_cons, not_or] at h
    rw [insert, if_neg (Ne.symm h.1), ih h.2, List.cons_append]

/-- Adding entries one by one keeps them as they are if no key comes twice. -/
theorem foldl_insert {α : Type} {es : List (RawText × α)} (h : (es.map Prod.fst).Nodup) :
    es.foldl (fun es e => insert es e.1 e.2) [] = es :=
  foldl_fresh insert id (fun _ _ v hk => insert_of_notMem v hk) [] h

theorem nodup_whole {α : Type} {es : List (String × α)} (h : (es.map Prod.fst).Nodup) :
    ((es.map fun e => (RawText.whole e.1, e.2)).map Prod.fst).Nodup := by
  have hkeys : (es.map fun e => (RawText.whole e.1, e.2)).map Prod.fst =
      (es.map Prod.fst).map .whole := by
    simp
  rw [hkeys]
  exact h.map fun _ _ => RawText.whole.inj

/-- **Data comes back from its text if and only if it fits**, whatever follows. -/
theorem valueFrom?_write (depth : ℕ) {j : Json} (hj : j.Proper) {r : List Char}
    (hr : EndsNumber r) :
    valueFrom? depth (write j ++ r) = if fits depth j then some (j, r) else none := by
  induction depth generalizing j r with
  | zero => simp [valueFrom?, fits]
  | succ depth ih =>
    by_cases ha : j.IsAtom
    · exact valueFrom?_write_atom hj ha depth hr
    cases hj with
    | text s =>
      have htext : write (.text s) ++ r = '"' :: (s.toList.flatMap writeChar ++ '"' :: r) := by
        simp [write, writeText]
      rw [htext, valueFrom?, textFrom_flatMap]
      simp [fits, ofRaw]
    | @array xs h =>
      cases xs with
      | nil =>
        rw [write, List.cons_append, valueFrom?, List.singleton_append, bracketFrom?,
          skipSpace_of_head (by decide)]
        simp [fits]
      | cons x xs =>
        have hitem : ∀ y ∈ x :: xs, ∀ r, EndsNumber r →
            valueFrom? depth (write y ++ r) = if fits depth y then some (id y, r) else none :=
          fun y hy r hr => ih (h y hy) hr
        have hread := bracketFrom?_joined (.inl rfl) hitem (fun y hy => head_write (h y hy)) r
        have htext : write (.array (x :: xs)) ++ r =
            '[' :: (write x ++ (joined write ']' xs ++ r)) := by
          rw [write, writeItems_eq]
          simp
        rw [htext, valueFrom?, hread, fits, List.map_id]
        cases (x :: xs).all (fits depth) <;> rfl
    | @object es hkeys h =>
      cases es with
      | nil =>
        rw [write, List.cons_append, valueFrom?, List.singleton_append, bracketFrom?,
          skipSpace_of_head (by decide)]
        simp [fits, ofEntries, wholeEntries?]
      | cons e es =>
        have hentry : ∀ y ∈ e :: es, ∀ r, EndsNumber r →
            entryFrom? (valueFrom? depth) (writeEntry y ++ r) =
              if fits depth y.2 then some ((RawText.whole y.1, y.2), r) else none :=
          fun y hy r hr => entryFrom?_writeEntry (fits depth) (h y hy) (ih (h y hy) hr)
        have hread := bracketFrom?_joined (.inr rfl) hentry
          (fun y hy => ⟨'"', _, rfl, by decide, by decide⟩) r
        have htext : write (.object (e :: es)) ++ r =
            '\x7b' :: (writeEntry e ++ (joined writeEntry '\x7d' es ++ r)) := by
          rw [write, writeEntries_eq]
          simp [writeEntry]
        have hfold := foldl_insert (nodup_whole hkeys)
        rw [htext, valueFrom?, hread, fits]
        cases (e :: es).all fun e => fits depth e.2 with
        | false => rfl
        | true =>
          rw [if_pos rfl, if_pos rfl, Option.map_some, hfold, ofEntries_whole]
    | _ => exact absurd trivial ha

/-- **Data comes back from its text if and only if it fits.** -/
theorem read?_write {j : Json} (hj : j.Proper) :
    read? (String.ofList (write j)) = if fits maxDepth j then some j else none := by
  obtain ⟨c, t, heq, hspace, -⟩ := head_write hj
  have hskip : skipSpace (write j) = write j := by
    rw [heq]
    exact skipSpace_of_head hspace
  have hread := valueFrom?_write maxDepth hj (r := []) (by simp [EndsNumber])
  rw [List.append_nil] at hread
  rw [read?, String.toList_ofList, hskip, hread]
  split_ifs <;> rfl

end Sieve.Json
