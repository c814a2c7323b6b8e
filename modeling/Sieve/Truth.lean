/-!
# Three-valued truth

A question about a row may have no answer because a value is null. Such an answer is unknown, and
*and*, *or* and *not* carry it along as far as it matters.

Main statements: `all_eq_true_iff`, `all_eq_false_iff`, `any_eq_true_iff`, `not_not`.
-/

namespace Sieve

/-- True, false, or unknown. -/
abbrev Truth := Option Bool

namespace Truth

/-- The negation; unknown stays unknown. -/
def not (t : Truth) : Truth :=
  t.map (!·)

/-- True if all are true, false if one is false, else unknown. -/
def all (ts : List Truth) : Truth :=
  if ts.contains (some false) then some false
  else if ts.contains none then none
  else some true

/-- True if one is true, false if all are false, else unknown. -/
def any (ts : List Truth) : Truth :=
  if ts.contains (some true) then some true
  else if ts.contains none then none
  else some false

theorem all_eq_true_iff (ts : List Truth) : all ts = some true ↔ ∀ t ∈ ts, t = some true := by
  unfold all
  constructor
  · intro h t ht
    split at h
    · simp at h
    · split at h
      · simp at h
      · rename_i hf hn
        match t with
        | some true => rfl
        | some false => simp_all
        | none => simp_all
  · intro h
    have hf : ts.contains (some false) = false := by
      simpa using fun hm => by simpa using h _ hm
    have hn : ts.contains none = false := by
      simpa using fun hm => by simpa using h _ hm
    simp only [hf, hn]
    rfl

theorem any_eq_true_iff (ts : List Truth) : any ts = some true ↔ some true ∈ ts := by
  unfold any
  by_cases h : some true ∈ ts
  · simp [h]
  · by_cases hn : none ∈ ts <;> simp [h, hn]

theorem all_eq_false_iff (ts : List Truth) : all ts = some false ↔ some false ∈ ts := by
  unfold all
  by_cases h : some false ∈ ts
  · simp [h]
  · by_cases hn : none ∈ ts <;> simp [h, hn]

@[simp] theorem all_nil : all [] = some true := rfl

@[simp] theorem any_nil : any [] = some false := rfl

@[simp] theorem not_not (t : Truth) : not (not t) = t := by
  cases t <;> simp [not]

end Truth

end Sieve
