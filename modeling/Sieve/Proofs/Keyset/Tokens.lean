import Sieve.Proofs.Cursor.RoundTrip
import Sieve.Proofs.Keyset.Fields
import Sieve.Proofs.Value.Kinds

/-!
# Tokens of rows

A row with values of ordered kinds in its sort fields has a cursor with just these values. It has a
token unless an integer among them has too many digits to be written or a text has surrogates, and what
is read from the token is the same cursor.

* `HasKinds`: the row has values of given kinds;
* `Cursor.ofRow_eq_map`: the cursor of a row, field by field;
* `HasKinds.token_ok`, `HasKinds.canCarry`: its token and what is read from it;
* `Cursor.Survives`, `HasKinds.survives`: rows whose cursors come back from their tokens.
-/

namespace Sieve

variable {schema : Option Schema} {names : List String} {row : Value}

/-- The row has values of given kinds in the named fields. -/
def HasKinds (schema : Option Schema) (kinds : String → Kind) (names : List String)
    (row : Value) : Prop :=
  ∀ n ∈ names, ∃ v, sortValue schema n row = .ok v ∧ (kinds n).Has v

theorem hasKinds_iff {kinds : String → Kind} : HasKinds schema kinds names row ↔
    Ranking.Holds schema (fun n => (kinds n).Has) names row ∧
      ∀ n ∈ names, sortValue schema n row ≠ .ok .null := by
  constructor
  · refine fun h => ⟨fun n hn => ?_, fun n hn hnull => ?_⟩
    · obtain ⟨v, hv, hkind⟩ := h n hn
      exact ⟨v, hv, .inr hkind⟩
    · obtain ⟨v, hv, hkind⟩ := h n hn
      rw [hv] at hnull
      exact hkind.ne_null (Except.ok.inj hnull)
  · rintro ⟨h, hfull⟩ n hn
    obtain ⟨v, hv, rfl | hkind⟩ := h n hn
    · exact absurd hv (hfull n hn)
    · exact ⟨v, hv, hkind⟩

namespace Cursor

/-- The cursor of a row holds the named fields in order. -/
theorem ofRow_eq_map {f : String → Value} (hnodup : names.Nodup)
    (h : ∀ n ∈ names, sortValue schema n row = .ok (f n)) :
    ofRow schema row names = .ok (names.map fun n => (n, f n)) := by
  have hstep : ∀ n ∈ names, ∀ c : Cursor,
      (do return c.put n (← (← resolveField schema n).read schema row) : Except Error Cursor) =
        pure (c.put n (f n)) := by
    intro n hn c
    obtain ⟨g, hg, hread⟩ := Outcome.bind_eq_ok_iff.1 (h n hn)
    rw [hg]
    simp only [Outcome.ok_bind, hread]
  have hput : (names.map fun n => (n, f n)).foldl (fun (c : Cursor) e => c.put e.1 e.2) [] =
      names.map fun n => (n, f n) := foldl_put (by simpa [Function.comp_def] using hnodup)
  rw [List.foldl_map] at hput
  rw [ofRow, Outcome.foldlM_congr hstep, List.foldlM_pure]
  exact congrArg _ hput

/-- The cursor of the row has a token that is read as the cursor. -/
def Survives (schema : Option Schema) (names : List String) (row : Value) : Prop :=
  ∃ c token, ofRow schema row names = .ok c ∧ c.encode = .ok token ∧ decode token = .ok c.raw

theorem Survives.token (h : Survives schema names row) : ∃ c token,
    ofRow schema row names = .ok c ∧ tokenOf schema none names row = .ok token ∧
      decode token = .ok c.raw := by
  obtain ⟨c, token, hc, henc, hdec⟩ := h
  refine ⟨c, token, hc, ?_, hdec⟩
  simp only [tokenOf, Option.getD_none, hc, Outcome.ok_bind, henc]

end Cursor

namespace HasKinds

variable {kinds : String → Kind} (h : HasKinds schema kinds names row)
include h

/-- The cursor of the row: its fields are the named ones, its values those of the row. -/
theorem cursor_ok (hnodup : names.Nodup) : ∃ c, Cursor.ofRow schema row names = .ok c ∧
    c.map Prod.fst = names ∧
    ∀ e ∈ c, sortValue schema e.1 row = .ok e.2 ∧ (kinds e.1).Has e.2 := by
  choose! f hf hkind using h
  refine ⟨names.map fun n => (n, f n), Cursor.ofRow_eq_map hnodup hf, ?_, ?_⟩
  · rw [List.map_map]
    exact List.map_id _
  · rintro ⟨n, v⟩ he
    obtain ⟨m, hm, heq⟩ := List.mem_map.1 he
    cases heq
    exact ⟨hf n hm, hkind n hm⟩

end HasKinds

/-- A token can carry the values of the named fields: their integers have few enough digits to be written,
and their texts have no surrogates. -/
def CanCarry (schema : Option Schema) (names : List String) (row : Value) : Prop :=
  ∀ n ∈ names, ∀ v, sortValue schema n row = .ok v → v.shortInts = true ∧ v.isBroken = false

theorem canCarry_iff {c : Cursor} (hfields : c.map Prod.fst = names)
    (hvalues : ∀ e ∈ c, sortValue schema e.1 row = .ok e.2) :
    CanCarry schema names row ↔ ∀ e ∈ c, e.2.shortInts = true ∧ e.2.isBroken = false := by
  subst hfields
  constructor
  · exact fun h e he => h e.1 (List.mem_map_of_mem he) e.2 (hvalues e he)
  · intro h n hn v hv
    obtain ⟨e, he, rfl⟩ := List.mem_map.1 hn
    rw [hvalues e he] at hv
    exact Except.ok.inj hv ▸ h e he

namespace HasKinds

variable {kinds : String → Kind}

/-- A cursor of values of ordered kinds is portable if no text in it has surrogates. -/
theorem isPortable {c : Cursor} (hnodup : names.Nodup) (hfields : c.map Prod.fst = names)
    (hkinds : ∀ e ∈ c, (kinds e.1).Has e.2) (hwhole : ∀ e ∈ c, e.2.isBroken = false) :
    c.IsPortable :=
  ⟨by rw [hfields]; exact hnodup, fun e he => (hkinds e he).portable (hwhole e he)⟩

theorem settled {c : Cursor} (hkinds : ∀ e ∈ c, (kinds e.1).Has e.2) : c.settled = c :=
  (Cursor.settled_eq_self_iff c).2 fun e he =>
    (Value.settled_eq_self_iff _).1 (hkinds e he).settled

variable (h : HasKinds schema kinds names row)
include h

/-- **The token of a row that a token can carry**, and the cursor that is read from it. -/
theorem token_ok (hnodup : names.Nodup) (hcarry : CanCarry schema names row) :
    ∃ c token, Cursor.ofRow schema row names = .ok c ∧ c.map Prod.fst = names ∧
      (∀ e ∈ c, sortValue schema e.1 row = .ok e.2 ∧ (kinds e.1).Has e.2) ∧
      c.encode = .ok token ∧ Cursor.decode token = .ok c.raw := by
  obtain ⟨c, hc, hfields, hvalues⟩ := h.cursor_ok hnodup
  have hcarried := (canCarry_iff hfields fun e he => (hvalues e he).1).1 hcarry
  have hkinds : ∀ e ∈ c, (kinds e.1).Has e.2 := fun e he => (hvalues e he).2
  have hportable := isPortable hnodup hfields hkinds fun e he => (hcarried e he).2
  have hlevels : ∀ e ∈ c, e.2.levels + 2 ≤ Json.maxDepth := by
    intro e he
    have hlevels := (hkinds e he).levels_le
    have hmax : Json.maxDepth = 1000 := rfl
    omega
  obtain ⟨token, henc, hdec, -⟩ :=
    Cursor.decode_encode_iff hportable hlevels fun e he => (hcarried e he).1
  rw [settled hkinds] at hdec
  exact ⟨c, token, hc, hfields, hvalues, henc, hdec⟩

/-- A token can carry the values of a row that has one. -/
theorem canCarry (hnodup : names.Nodup) {token : String}
    (htoken : Cursor.tokenOf schema none names row = .ok token) : CanCarry schema names row := by
  obtain ⟨c, hc, hfields, hvalues⟩ := h.cursor_ok hnodup
  rw [canCarry_iff hfields fun e he => (hvalues e he).1]
  simp only [Cursor.tokenOf, Option.getD_none, hc, Outcome.ok_bind] at htoken
  have hwhole : ∀ e ∈ c, e.2.isBroken = false := fun e he =>
    Cursor.not_isBroken_of_encode htoken he
  refine fun e he => ⟨?_, hwhole e he⟩
  by_contra hlong
  have herror := Cursor.encode_of_long
    (isPortable hnodup hfields (fun e he => (hvalues e he).2) hwhole)
    ⟨e, he, Bool.eq_false_iff.2 hlong⟩
  cases herror.symm.trans htoken

/-- Such rows survive. -/
theorem survives (hnodup : names.Nodup) (hcarry : CanCarry schema names row) :
    Cursor.Survives schema names row := by
  obtain ⟨c, token, hc, _, _, henc, hdec⟩ := h.token_ok hnodup hcarry
  exact ⟨c, token, hc, henc, hdec⟩

end HasKinds

end Sieve
