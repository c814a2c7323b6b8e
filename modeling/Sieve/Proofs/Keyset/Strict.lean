import Mathlib.Tactic

/-!
# Strictly sorted lists

Items no two of which tie have exactly one sorted arrangement. Selecting and sorting then commute,
the opposite comparison gives the reversed arrangement, and the items after a place of the
arrangement are those that are greater than the item there.

* `Strict.sorted`: the arrangement;
* `Strict.eq_sorted`: there is no other one;
* `Strict.filter_sorted`, `Strict.sorted_opposite`: selecting from it and turning it round;
* `Strict.filter_after`, `Strict.filter_before`: its two sides.
-/

namespace Sieve.Strict

open Std (TransCmp OrientedCmp ReflCmp)

variable {α : Type} (cmp : α → α → Ordering)

/-- No two of the items tie. -/
def TieFree (xs : List α) : Prop :=
  xs.Pairwise fun a b => cmp a b ≠ .eq

/-- The items in ascending order. -/
def sorted (xs : List α) : List α :=
  xs.mergeSort fun a b => (cmp a b).isLE

/-- Each item is less than all that follow it. -/
def Ascending (xs : List α) : Prop :=
  xs.Pairwise fun a b => cmp a b = .lt

variable {cmp}

theorem sorted_perm (xs : List α) : (sorted cmp xs).Perm xs :=
  List.mergeSort_perm _ _

@[simp] theorem mem_sorted {xs : List α} {a : α} : a ∈ sorted cmp xs ↔ a ∈ xs :=
  (sorted_perm xs).mem_iff

@[simp] theorem length_sorted (xs : List α) : (sorted cmp xs).length = xs.length :=
  (sorted_perm xs).length_eq

theorem Ascending.tieFree {xs : List α} (h : Ascending cmp xs) : TieFree cmp xs :=
  h.imp fun hab => by rw [hab]; decide

theorem Ascending.sides {xs : List α} (h : Ascending cmp xs) {k : Nat} (hk : k < xs.length) :
    (∀ a ∈ xs.take k, cmp a xs[k] = .lt) ∧ ∀ a ∈ xs.drop (k + 1), cmp xs[k] a = .lt := by
  have hsplit : xs.take k ++ xs[k] :: xs.drop (k + 1) = xs := by
    rw [List.getElem_cons_drop, List.take_append_drop]
  have hpair : (xs.take k ++ xs[k] :: xs.drop (k + 1)).Pairwise fun a b => cmp a b = .lt := by
    rw [hsplit]
    exact h
  obtain ⟨_, hright, hbefore⟩ := List.pairwise_append.1 hpair
  exact ⟨fun a ha => hbefore a ha _ List.mem_cons_self, (List.pairwise_cons.1 hright).1⟩

/-- The last of the first items is the greatest of them, and less than the others. -/
theorem Ascending.last {xs : List α} (h : Ascending cmp xs) {n : ℕ} {a : α}
    (ha : (xs.take n).getLast? = some a) :
    (∀ b ∈ xs.take n, b = a ∨ cmp b a = .lt) ∧ ∀ b ∈ xs.drop n, cmp a b = .lt := by
  obtain ⟨ys, hys⟩ := List.getLast?_eq_some_iff.1 ha
  have hpair : (ys ++ [a] ++ xs.drop n).Pairwise fun a b => cmp a b = .lt := by
    rw [← hys, List.take_append_drop]
    exact h
  obtain ⟨hfirst, _, hothers⟩ := List.pairwise_append.1 hpair
  obtain ⟨_, _, hlast⟩ := List.pairwise_append.1 hfirst
  refine ⟨fun b hb => ?_, fun b hb => hothers a (by simp) b hb⟩
  rw [hys] at hb
  rcases List.mem_append.1 hb with hb | hb
  · exact .inr (hlast b hb a (by simp))
  · exact .inl (List.mem_singleton.1 hb)

/-- A test that tells the two sides of an item apart and fails for the item itself. -/
theorem filter_sides {xs : List α} {k : Nat} (hk : k < xs.length) (left right : Bool) {f : α → Bool}
    (hf : f xs[k] = false) (hleft : ∀ a ∈ xs.take k, f a = left)
    (hright : ∀ a ∈ xs.drop (k + 1), f a = right) :
    xs.filter f = (if left then xs.take k else []) ++ if right then xs.drop (k + 1) else [] := by
  have hside : ∀ (b : Bool) (ys : List α), (∀ a ∈ ys, f a = b) →
      ys.filter f = if b then ys else [] := by
    intro b ys h
    cases b
    · simpa using h
    · simpa using h
  calc xs.filter f
      = (xs.take k ++ xs[k] :: xs.drop (k + 1)).filter f := by
        rw [List.getElem_cons_drop, List.take_append_drop]
    _ = _ := by
        rw [List.filter_append, List.filter_cons, hf, hside left _ hleft, hside right _ hright]
        rfl

variable [TransCmp cmp]

theorem TieFree.perm {xs ys : List α} (h : TieFree cmp xs) (hp : xs.Perm ys) : TieFree cmp ys := by
  refine hp.pairwise h fun {a b} hab hba => hab ?_
  have hswap : cmp a b = (cmp b a).swap := OrientedCmp.eq_swap
  rw [hswap, hba]
  rfl

theorem sorted_ascending {xs : List α} (h : TieFree cmp xs) : Ascending cmp (sorted cmp xs) := by
  have hle : (sorted cmp xs).Pairwise fun a b => (cmp a b).isLE = true :=
    List.pairwise_mergeSort (fun _ _ _ => TransCmp.isLE_trans) (fun a b => by
      have hswap : cmp b a = (cmp a b).swap := OrientedCmp.eq_swap
      rw [hswap]
      cases cmp a b <;> rfl) xs
  have hne : TieFree cmp (sorted cmp xs) := h.perm (sorted_perm xs).symm
  refine (hle.and hne).imp fun {a b} hab => ?_
  obtain ⟨hle, hne⟩ := hab
  cases hc : cmp a b with
  | lt => rfl
  | eq => exact absurd hc hne
  | gt => rw [hc] at hle; cases hle

/-- There is one ascending arrangement only. -/
theorem eq_sorted {xs ys : List α} (h : Ascending cmp xs) (hp : xs.Perm ys) :
    xs = sorted cmp ys := by
  refine List.Perm.eq_of_pairwise (fun a b _ _ hab hba => ?_) h
    (sorted_ascending (h.tieFree.perm hp)) (hp.trans (sorted_perm ys).symm)
  -- Two items cannot both be less than the other one.
  have hswap : cmp b a = (cmp a b).swap := OrientedCmp.eq_swap
  rw [hab, hba] at hswap
  cases hswap

theorem filter_sorted {xs : List α} (h : TieFree cmp xs) (f : α → Bool) :
    (sorted cmp xs).filter f = sorted cmp (xs.filter f) :=
  eq_sorted ((sorted_ascending h).filter f) ((sorted_perm xs).filter f)

/-- The opposite comparison arranges the items in reverse. -/
theorem sorted_opposite {xs : List α} (h : TieFree cmp xs) :
    sorted (fun a b => cmp b a) xs = (sorted cmp xs).reverse := by
  have : TransCmp fun a b => cmp b a := TransCmp.opposite
  refine (eq_sorted ?_ ((List.reverse_perm _).trans (sorted_perm xs))).symm
  exact List.pairwise_reverse.2 (sorted_ascending h)

section Sides

variable {xs : List α}

/-- The items that are greater than the one at a place are those behind it. -/
theorem filter_after (h : Ascending cmp xs) {k : Nat} (hk : k < xs.length) :
    xs.filter (fun a => cmp a xs[k] == .gt) = xs.drop (k + 1) := by
  obtain ⟨hbefore, hafter⟩ := h.sides hk
  have hself : cmp xs[k] xs[k] = .eq := ReflCmp.compare_self
  refine filter_sides hk false true (by rw [hself]; rfl) ?_ ?_
  · intro a ha
    rw [hbefore a ha]
    rfl
  · intro a ha
    have hswap : cmp a xs[k] = (cmp xs[k] a).swap := OrientedCmp.eq_swap
    rw [hswap, hafter a ha]
    rfl

/-- The items that are less than the one at a place are those in front of it. -/
theorem filter_before (h : Ascending cmp xs) {k : Nat} (hk : k < xs.length) :
    xs.filter (fun a => cmp xs[k] a == .gt) = xs.take k := by
  obtain ⟨hbefore, hafter⟩ := h.sides hk
  have hself : cmp xs[k] xs[k] = .eq := ReflCmp.compare_self
  rw [filter_sides hk true false (by rw [hself]; rfl)]
  · simp
  · intro a ha
    have hswap : cmp xs[k] a = (cmp a xs[k]).swap := OrientedCmp.eq_swap
    rw [hswap, hbefore a ha]
    rfl
  · intro a ha
    rw [hafter a ha]
    rfl

end Sides

end Sieve.Strict
