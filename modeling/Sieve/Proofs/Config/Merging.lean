import Mathlib.Data.List.Nodup
import Sieve.Config

/-!
# Settings laid over others

Settings are maps nested in maps. When a tree of settings is laid over another one, each path of names finds
in the result what the upper tree has for it. Only maps that both trees have are merged, and only where a
path comes to a map of the upper tree without its next name does the lower tree count. Trees are values:
merging makes a third one and leaves both as they are.

* `Settings.follow?`: what a path of names leads to, nulls included;
* `Settings.BreaksOff`, `Settings.RunsThrough`: the two ways in which a path leads to nothing;
* `Settings.get?_merge`, `Settings.keys_merge`: one level of a merged tree;
* `Settings.LaidOver`, `Settings.merge_laidOver`: a merged tree, path by path.
-/

namespace Sieve

/-- A value is a map. -/
def Value.IsMap (v : Value) : Prop :=
  ∃ es, v = .map es

namespace Settings

variable {base above es : Settings} {key : Value} {v : Value} {name : String} {path : List String}

/-! ### One level -/

/-- The keys of settings, in order. -/
def keys (s : Settings) : List Value :=
  s.map Prod.fst

@[simp] theorem keys_cons (k v : Value) (s : Settings) : keys ((k, v) :: s) = k :: keys s := rfl

theorem get?_eq_none_iff {s : Settings} : get? s key = none ↔ key ∉ keys s := by
  induction s with
  | nil => simp [get?, keys]
  | cons e s ih =>
    obtain ⟨k, v⟩ := e
    by_cases hk : k = key
    · simp [get?, hk]
    · simp [get?, hk, ih, Ne.symm hk]

/-- A new key comes last, and an old one keeps its place. -/
theorem keys_put (s : Settings) (key v : Value) :
    keys (put s key v) = if key ∈ keys s then keys s else keys s ++ [key] := by
  induction s with
  | nil => rfl
  | cons e s ih =>
    obtain ⟨k, w⟩ := e
    by_cases hk : k = key
    · simp [put, hk]
    · simp only [put, if_neg hk, keys_cons, ih, List.mem_cons, Ne.symm hk, false_or]
      split <;> rfl

theorem merge_cons (base : Settings) (k v : Value) (above : Settings) :
    merge base ((k, v) :: above) = merge (put base k (mergeValue (get? base k) v)) above := by
  rw [merge]

/-- Under a key of a merged tree stands what the upper tree has for it, merged with what is below. -/
theorem get?_merge (habove : (keys above).Nodup) (base : Settings) (key : Value) :
    get? (merge base above) key =
      match get? above key with
      | none => get? base key
      | some v => some (mergeValue (get? base key) v) := by
  induction above generalizing base with
  | nil => simp [get?]
  | cons e above ih =>
    obtain ⟨k, v⟩ := e
    obtain ⟨hnew, habove⟩ := List.nodup_cons.1 habove
    rw [merge_cons, ih habove]
    by_cases hk : k = key
    · -- no later entry of the upper tree has the key again
      subst hk
      simp [get?, get?_eq_none_iff.2 hnew]
    · rw [get?_put_of_ne base _ (Ne.symm hk), get?, if_neg hk]

/-- The keys of a merged tree are those of the lower tree, and behind them the new ones of the upper
tree. -/
theorem keys_merge (habove : (keys above).Nodup) (base : Settings) :
    keys (merge base above) = keys base ++ (keys above).filter (· ∉ keys base) := by
  induction above generalizing base with
  | nil => simp [keys]
  | cons e above ih =>
    obtain ⟨k, v⟩ := e
    obtain ⟨hnew, habove⟩ := List.nodup_cons.1 habove
    rw [merge_cons, ih habove, keys_put]
    by_cases hk : k ∈ keys base
    · simp [hk]
    · have hothers : (keys above).filter (· ∉ keys base ++ [k]) =
          (keys above).filter (· ∉ keys base) := by
        refine List.filter_congr fun key hkey => ?_
        have hne : key ≠ k := fun h => hnew (h ▸ hkey)
        simp [hne]
      rw [if_neg hk, hothers, keys_cons, List.filter_cons_of_pos (by simpa using hk),
        List.append_assoc, List.singleton_append]

/-! ### Paths -/

/-- What a path of names leads to. -/
def follow? (v : Value) : List String → Option Value
  | [] => some v
  | name :: path =>
    match v with
    | .map es => (get? es (.text name)).bind (follow? · path)
    | _ => none

/-- A path comes to a map that does not have its next name. -/
inductive BreaksOff : Value → List String → Prop
  | here {es : Settings} {name : String} {path : List String} (hmissing : get? es (.text name) = none) :
      BreaksOff (.map es) (name :: path)
  | deeper {es : Settings} {name : String} {path : List String} {v : Value}
      (hfound : get? es (.text name) = some v) (hrest : BreaksOff v path) :
      BreaksOff (.map es) (name :: path)

/-- A path comes to a value that is not a map, and goes on. -/
inductive RunsThrough : Value → List String → Prop
  | here {v : Value} {name : String} {path : List String} (hplain : ¬v.IsMap) :
      RunsThrough v (name :: path)
  | deeper {es : Settings} {name : String} {path : List String} {v : Value}
      (hfound : get? es (.text name) = some v) (hrest : RunsThrough v path) :
      RunsThrough (.map es) (name :: path)

@[simp] theorem follow?_nil (v : Value) : follow? v [] = some v := rfl

@[simp] theorem follow?_map (es : Settings) (name : String) (path : List String) :
    follow? (.map es) (name :: path) = (get? es (.text name)).bind (follow? · path) := rfl

theorem follow?_of_not_isMap (hplain : ¬v.IsMap) (name : String) (path : List String) :
    follow? v (name :: path) = none := by
  cases v with
  | map es => exact absurd ⟨es, rfl⟩ hplain
  | _ => rfl

/-- A path is followed name by name. -/
theorem follow?_append (v : Value) (front path : List String) :
    follow? v (front ++ path) = (follow? v front).bind (follow? · path) := by
  induction front generalizing v with
  | nil => rfl
  | cons name front ih =>
    by_cases hmap : v.IsMap
    · obtain ⟨es, rfl⟩ := hmap
      rw [List.cons_append, follow?_map, follow?_map, Option.bind_assoc]
      exact Option.bind_congr fun w _ => ih w
    · rw [List.cons_append, follow?_of_not_isMap hmap, follow?_of_not_isMap hmap, Option.bind_none]

theorem follow?_cons (v : Value) (name : String) (path : List String) :
    follow? v (name :: path) = (follow? v [name]).bind (follow? · path) :=
  follow?_append v [name] path

/-- A path that leads to nothing breaks off or runs through a value that is not a map. -/
theorem breaksOff_or_runsThrough {v : Value} (h : follow? v path = none) :
    BreaksOff v path ∨ RunsThrough v path := by
  induction path generalizing v with
  | nil => cases h
  | cons name path ih =>
    by_cases hmap : v.IsMap
    · obtain ⟨es, rfl⟩ := hmap
      rw [follow?_map] at h
      cases hfound : get? es (.text name) with
      | none => exact .inl (.here hfound)
      | some w =>
        rw [hfound, Option.bind_some] at h
        exact (ih h).imp (.deeper hfound) (.deeper hfound)
    · exact .inr (.here hmap)

/-- A key of a configuration finds what its path leads to, unless that is null. -/
theorem find?_eq_follow? {v : Value} (hv : v ≠ .null) (path : List String) :
    find? v path = (follow? v path).filter (!·.isNull) := by
  induction path generalizing v with
  | nil =>
    have hgiven : v.isNull = false := by
      rw [← Bool.not_eq_true, Value.isNull_iff]
      exact hv
    rw [follow?_nil, Option.filter_some, hgiven]
    rfl
  | cons name path ih =>
    by_cases hmap : v.IsMap
    · obtain ⟨es, rfl⟩ := hmap
      rw [follow?_map]
      simp only [find?]
      cases get? es (.text name) with
      | none => rfl
      | some w =>
        by_cases hw : w = .null
        · subst hw
          cases path <;> rfl
        · rw [Option.bind_some, ← ih hw]
          cases w <;> first | rfl | exact absurd rfl hw
    · rw [follow?_of_not_isMap hmap]
      cases v with
      | map es => exact absurd ⟨es, rfl⟩ hmap
      | _ => rfl

/-! ### Trees with texts for keys -/

/-- Every map that a path leads to has texts for keys, each of them once. -/
def Keyed (v : Value) : Prop :=
  ∀ path es, follow? v path = some (.map es) →
    ∃ names : List String, keys es = names.map .text ∧ names.Nodup

theorem Keyed.nodup (h : Keyed v) (hpath : follow? v path = some (.map es)) : (keys es).Nodup := by
  obtain ⟨names, hkeys, hnames⟩ := h path es hpath
  rw [hkeys]
  exact hnames.map fun _ _ => Value.text.inj

/-- What a path leads to is such a tree again. -/
theorem Keyed.descend {v w : Value} (h : Keyed v) (hpath : follow? v path = some w) : Keyed w := by
  intro rest es hrest
  refine h (path ++ rest) es ?_
  rw [follow?_append, hpath, Option.bind_some, hrest]

theorem Keyed.child (h : Keyed (.map es)) (hfound : get? es (.text name) = some v) : Keyed v := by
  have hstep : follow? (.map es) [name] = some v := by
    rw [follow?_map, hfound]
    rfl
  exact h.descend hstep

theorem keyed_of_not_isMap (hplain : ¬v.IsMap) : Keyed v := by
  intro path es hpath
  cases path with
  | nil => exact absurd ⟨es, Option.some.inj hpath⟩ hplain
  | cons name path => cases (follow?_of_not_isMap hplain name path).symm.trans hpath

theorem get?_record {entries : List (String × Value)}
    (h : get? (entries.map fun e => (Value.text e.1, e.2)) (.text name) = some v) :
    (name, v) ∈ entries := by
  induction entries with
  | nil => cases h
  | cons e entries ih =>
    obtain ⟨n, w⟩ := e
    rw [List.map_cons, get?] at h
    split at h
    · rename_i hname
      cases h
      cases hname
      exact List.mem_cons_self
    · exact List.mem_cons_of_mem _ (ih h)

theorem keyed_record {entries : List (String × Value)} (hnames : (entries.map Prod.fst).Nodup)
    (hvalues : ∀ e ∈ entries, Keyed e.2) : Keyed (.record entries) := by
  intro path es hpath
  cases path with
  | nil =>
    cases hpath
    refine ⟨entries.map Prod.fst, ?_, hnames⟩
    rw [keys, List.map_map, List.map_map]
    rfl
  | cons name path =>
    obtain ⟨v, hv, hrest⟩ := Option.bind_eq_some_iff.1 hpath
    exact hvalues _ (get?_record hv) path es hrest

/-! ### Merged trees -/

theorem mergeValue_of_not_isMap (hplain : ¬v.IsMap) (below : Option Value) : mergeValue below v = v := by
  cases v with
  | map es => exact absurd ⟨es, rfl⟩ hplain
  | _ => simp [mergeValue]

@[simp] theorem mergeValue_maps (base above : Settings) :
    mergeValue (some (.map base)) (.map above) = .map (merge base above) := by
  rw [mergeValue]

/-- Over what is not a map, a map stands as it is. -/
theorem mergeValue_map {below : Option Value} (hbelow : ∀ b, below ≠ some (.map b)) (above : Settings) :
    mergeValue below (.map above) = .map above := by
  rw [mergeValue]
  exact hbelow

/-- Merging goes on below a name with what both trees have for it. -/
theorem follow?_mergeValue_cons (habove : Keyed (.map above)) (below : Option Value) (name : String)
    (path : List String) :
    follow? (mergeValue below (.map above)) (name :: path) =
      match get? above (.text name) with
      | none => below.bind (follow? · (name :: path))
      | some v => follow? (mergeValue (below.bind (follow? · [name])) v) path := by
  by_cases hbelow : ∃ b, below = some (.map b)
  · obtain ⟨b, rfl⟩ := hbelow
    rw [mergeValue_maps, follow?_map, get?_merge (habove.nodup (follow?_nil _))]
    cases get? above (.text name) with
    | none => rfl
    | some v => simp
  · -- without a map below, the upper map stands alone, and a path finds nothing else
    have hnothing : ∀ path, below.bind (follow? · (name :: path)) = none := by
      intro path
      cases below with
      | none => rfl
      | some w => exact follow?_of_not_isMap (fun ⟨b, hb⟩ => hbelow ⟨b, congrArg some hb⟩) name path
    rw [mergeValue_map fun b hb => hbelow ⟨b, hb⟩, follow?_map, hnothing, hnothing]
    cases get? above (.text name) with
    | none => rfl
    | some v =>
      have halone : mergeValue none v = v := by
        cases v <;> simp [mergeValue]
      dsimp only
      rw [halone, Option.bind_some]

/-- Where the upper tree has a value, the merged one has that value, merged with what is below. -/
theorem follow?_mergeValue {v w : Value} (hv : Keyed v) (hpath : follow? v path = some w)
    (below : Option Value) :
    follow? (mergeValue below v) path = some (mergeValue (below.bind (follow? · path)) w) := by
  induction path generalizing v below with
  | nil =>
    cases hpath
    simp
  | cons name path ih =>
    by_cases hmap : v.IsMap
    · obtain ⟨es, rfl⟩ := hmap
      obtain ⟨u, hu, hrest⟩ := Option.bind_eq_some_iff.1 hpath
      rw [follow?_mergeValue_cons hv, hu]
      dsimp only
      rw [ih (hv.child hu) hrest, Option.bind_assoc]
      simp only [← follow?_cons]
    · cases (follow?_of_not_isMap hmap name path).symm.trans hpath

/-- Where a path breaks off in the upper tree, the lower one counts. -/
theorem BreaksOff.follow?_mergeValue (h : BreaksOff v path) (hv : Keyed v) (below : Option Value) :
    follow? (mergeValue below v) path = below.bind (follow? · path) := by
  induction h generalizing below with
  | here hmissing => rw [follow?_mergeValue_cons hv, hmissing]
  | deeper hfound _ ih =>
    rw [follow?_mergeValue_cons hv, hfound]
    dsimp only
    rw [ih (hv.child hfound), Option.bind_assoc]
    simp only [← follow?_cons]

/-- Where a path runs through a value that is not a map, nothing is found. -/
theorem RunsThrough.follow?_mergeValue (h : RunsThrough v path) (hv : Keyed v) (below : Option Value) :
    follow? (mergeValue below v) path = none := by
  induction h generalizing below with
  | here hplain => rw [mergeValue_of_not_isMap hplain, follow?_of_not_isMap hplain]
  | deeper hfound _ ih =>
    rw [follow?_mergeValue_cons hv, hfound]
    exact ih (hv.child hfound) _

/-- The keys of a map; nothing else has keys. -/
def keysOf : Option Value → List Value
  | some (.map es) => keys es
  | _ => []

/-- A map that two values make has the keys of the lower one first, and then the new ones. -/
theorem keysOf_mergeValue (hv : Keyed v) {below : Option Value} (h : mergeValue below v = .map es) :
    keys es = keysOf below ++ (keysOf (some v)).filter (· ∉ keysOf below) := by
  by_cases hmap : v.IsMap
  · obtain ⟨o, rfl⟩ := hmap
    by_cases hbelow : ∃ b, below = some (.map b)
    · obtain ⟨b, rfl⟩ := hbelow
      rw [mergeValue_maps, Value.map.injEq] at h
      rw [← h, keys_merge (hv.nodup (follow?_nil _))]
      rfl
    · have hnothing : keysOf below = [] := by
        unfold keysOf
        split
        · exact absurd ⟨_, rfl⟩ hbelow
        · rfl
      rw [mergeValue_map fun b hb => hbelow ⟨b, hb⟩, Value.map.injEq] at h
      rw [hnothing, h]
      simp [keysOf]
  · rw [mergeValue_of_not_isMap hmap] at h
    exact absurd ⟨es, h⟩ hmap

/-- A tree of settings is another one laid over a base, path by path. -/
structure LaidOver (base above merged : Settings) : Prop where
  /-- A value that is not a map replaces what is below. -/
  replaced {path : List String} {v : Value} (habove : follow? (.map above) path = some v)
    (hplain : ¬v.IsMap) : follow? (.map merged) path = some v
  /-- Two maps are merged. -/
  joined {path : List String} {b o : Settings} (hbase : follow? (.map base) path = some (.map b))
    (habove : follow? (.map above) path = some (.map o)) :
    follow? (.map merged) path = some (.map (merge b o))
  /-- A map stands as it is where there is no map below. -/
  added {path : List String} {o : Settings} (hbase : ∀ b, follow? (.map base) path ≠ some (.map b))
    (habove : follow? (.map above) path = some (.map o)) : follow? (.map merged) path = some (.map o)
  /-- Where a path breaks off above, it finds what it finds below. -/
  kept {path : List String} (habove : BreaksOff (.map above) path) :
    follow? (.map merged) path = follow? (.map base) path
  /-- A value above that is not a map hides what is below. -/
  hidden {path : List String} (habove : RunsThrough (.map above) path) :
    follow? (.map merged) path = none
  /-- In every map come the keys of the base first, and then the new ones. -/
  order {path : List String} {es : Settings} (hmerged : follow? (.map merged) path = some (.map es)) :
    keys es = keysOf (follow? (.map base) path) ++
      (keysOf (follow? (.map above) path)).filter (· ∉ keysOf (follow? (.map base) path))

/-- **A merged tree is the upper one laid over the lower one, path by path.** The keys of a configuration
find in it what their paths lead to. -/
theorem merge_laidOver (habove : Keyed (.map above)) (base : Settings) :
    LaidOver base above (merge base above) ∧
    ∀ path, find? (.map (merge base above)) path =
      (follow? (.map (merge base above)) path).filter (!·.isNull) := by
  have hfound : ∀ {path v}, follow? (.map above) path = some v →
      follow? (.map (merge base above)) path = some (mergeValue (follow? (.map base) path) v) :=
    fun hpath => mergeValue_maps base above ▸ follow?_mergeValue habove hpath (some (.map base))
  have hkept : ∀ {path}, BreaksOff (.map above) path →
      follow? (.map (merge base above)) path = follow? (.map base) path :=
    fun h => mergeValue_maps base above ▸ h.follow?_mergeValue habove (some (.map base))
  have hhidden : ∀ {path}, RunsThrough (.map above) path →
      follow? (.map (merge base above)) path = none :=
    fun h => mergeValue_maps base above ▸ h.follow?_mergeValue habove (some (.map base))
  refine ⟨⟨?_, ?_, ?_, hkept, hhidden, ?_⟩, fun path => find?_eq_follow? (by simp) path⟩
  · intro path v hv hplain
    rw [hfound hv, mergeValue_of_not_isMap hplain]
  · intro path b o hb ho
    rw [hfound ho, hb, mergeValue_maps]
  · intro path o hb ho
    rw [hfound ho, mergeValue_map hb]
  · intro path es hes
    cases hpath : follow? (.map above) path with
    | some v =>
      rw [hfound hpath, Option.some.injEq] at hes
      exact keysOf_mergeValue (habove.descend hpath) hes
    | none =>
      rcases breaksOff_or_runsThrough hpath with hbreaks | hruns
      · rw [hkept hbreaks] at hes
        simp [keysOf, hes]
      · cases (hhidden hruns).symm.trans hes

/-- A title is taken back by null, colours give way to one word, a word gives way to a map, a language is
new, and the size remains. -/
theorem merge_laidOver_page :
    let base : Settings := [(.text "page", .record [("size", .int 10), ("title", .text "home"),
      ("colors", .record [("text", .text "black")])]), (.text "log", .text "console")]
    let page : Value := .record [("lang", .text "en"), ("title", .null), ("colors", .text "none")]
    let above : Settings := [(.text "log", .record [("level", .text "INFO")]), (.text "page", page)]
    let merged := Value.map (merge base above)
    Keyed (.map above) ∧
    follow? merged ["page", "title"] = some .null ∧ find? merged ["page", "title"] = none ∧
    follow? merged ["page", "size"] = some (.int 10) ∧
    follow? merged ["page", "colors", "text"] = none ∧
    follow? merged ["log"] = some (.record [("level", .text "INFO")]) ∧
    ∃ es, follow? merged ["page"] = some (.map es) ∧
      keys es = [.text "size", .text "title", .text "colors", .text "lang"] := by
  intro base page above merged
  have hplain : ∀ s, ¬(Value.text s).IsMap := by
    rintro s ⟨es, h⟩
    cases h
  have hnull : ¬Value.null.IsMap := by
    rintro ⟨es, h⟩
    cases h
  have hkeyed : Keyed (.map above) := by
    have htext : ∀ s, Keyed (.text s) := fun s => keyed_of_not_isMap (hplain s)
    have hlog : Keyed (.record [("level", .text "INFO")]) := keyed_record (by decide) (by simp [htext])
    have hpage : Keyed page :=
      keyed_record (by decide) (by simp [htext, keyed_of_not_isMap hnull])
    show Keyed (.record [("log", .record [("level", .text "INFO")]), ("page", page)])
    refine keyed_record (by decide) fun e he => ?_
    rcases List.mem_pair.1 he with rfl | rfl
    · exact hlog
    · exact hpage
  have hpage : get? above (.text "page") = some page := by simp [above, get?]
  obtain ⟨hlaid, hfind⟩ := merge_laidOver hkeyed base
  have htitle : follow? merged ["page", "title"] = some .null := by
    refine hlaid.replaced ?_ hnull
    simp [hpage, page, Value.record, get?]
  have hbelow : follow? (.map base) ["page"] = some (.record [("size", .int 10),
      ("title", .text "home"), ("colors", .record [("text", .text "black")])]) := by
    simp [base, get?]
  have habove : follow? (.map above) ["page"] = some page := by simp [hpage]
  have hjoined := hlaid.joined hbelow habove
  refine ⟨hkeyed, htitle, ?_, ?_, ?_, ?_, _, hjoined, (hlaid.order hjoined).trans ?_⟩
  · rw [hfind, htitle]
    rfl
  · rw [hlaid.kept (.deeper hpage (.here (by simp [get?])))]
    simp [base, get?, Value.record]
  · exact hlaid.hidden (.deeper hpage (.deeper (v := .text "none") (by simp [get?]) (.here (hplain _))))
  · refine hlaid.added (fun b => ?_) ?_
    · simp [base, get?]
    · simp [above, get?, Value.record]
  · rw [hbelow, habove]
    simp [keysOf, keys, page, Value.record]

end Settings

end Sieve
