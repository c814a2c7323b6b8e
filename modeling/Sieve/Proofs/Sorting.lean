import Mathlib.Tactic
import Sieve.Insertion
import Sieve.Proofs.Outcome

/-!
# Sorting by a total order

A test that never fails and follows a total preorder makes the sort by binary insertion the stable
sort: the items come in order, and items that the order does not tell apart keep their places
relative to each other.

* `Arranged cmp xs ys`: `ys` is the stable arrangement of `xs`;
* `Arranged.unique`: there is only one;
* `sortBy_eq`: the sort is `List.mergeSort`;
* `perm_of_sortBy`: with any other test, the sort still holds the same items.
-/

namespace Sieve.Insertion

open Outcome

variable {ε α : Type} {cmp : α → α → Ordering}

/-- `ys` holds the items of `xs` in order, and equivalent items as they come in `xs`. -/
structure Arranged (cmp : α → α → Ordering) (xs ys : List α) : Prop where
  perm : ys.Perm xs
  sorted : ys.Pairwise fun a b => (cmp a b).isLE
  stable : ∀ a, (ys.filter fun b => cmp a b == .eq) = xs.filter fun b => cmp a b == .eq

theorem isLE_of_not_lt [Std.TransCmp cmp] {a b : α} (h : cmp b a ≠ .lt) : (cmp a b).isLE := by
  rw [← @Std.OrientedCmp.isGE_eq_isLE _ cmp]
  cases hba : cmp b a <;> simp_all

theorem isLE_total [Std.TransCmp cmp] (a b : α) : ((cmp a b).isLE || (cmp b a).isLE) = true := by
  rw [Bool.or_eq_true]
  by_cases h : cmp b a = .lt
  · exact .inr (by simp [h])
  · exact .inl (isLE_of_not_lt h)

theorem Arranged.mergeSort [Std.TransCmp cmp] (xs : List α) :
    Arranged cmp xs (xs.mergeSort fun a b => (cmp a b).isLE) where
  perm := List.mergeSort_perm _ _
  sorted := List.pairwise_mergeSort (fun _ _ _ => Std.TransCmp.isLE_trans) isLE_total xs
  stable a := by
    have hclass : (xs.filter fun b => cmp a b == .eq).Pairwise fun b c => (cmp b c).isLE := by
      refine List.pairwise_of_forall_mem_list fun b hb c hc => ?_
      have hb := (List.mem_filter.1 hb).2
      have hc := (List.mem_filter.1 hc).2
      have : cmp b c = .eq :=
        Std.TransCmp.eq_trans (Std.OrientedCmp.eq_symm (by simpa using hb)) (by simpa using hc)
      simp [this]
    have hsub := List.sublist_mergeSort (fun _ _ _ => Std.TransCmp.isLE_trans) isLE_total hclass
      List.filter_sublist
    have hsub := hsub.filter fun b => cmp a b == .eq
    simp only [List.filter_filter, Bool.and_self] at hsub
    exact (hsub.eq_of_length
      ((List.mergeSort_perm xs _).filter fun b => cmp a b == .eq).length_eq.symm).symm


/-- Two arrangements with the same items in every class of equivalent items are the same. -/
theorem eq_of_classes [Std.TransCmp cmp] {ys zs : List α}
    (hy : ys.Pairwise fun a b => (cmp a b).isLE) (hz : zs.Pairwise fun a b => (cmp a b).isLE)
    (h : ∀ a, (ys.filter fun b => cmp a b == .eq) = zs.filter fun b => cmp a b == .eq) :
    ys = zs := by
  have mem_of_mem {us vs : List α} (h : ∀ a, (us.filter fun b => cmp a b == .eq) =
      vs.filter fun b => cmp a b == .eq) {u : α} (hu : u ∈ us) : u ∈ vs := by
    have : u ∈ us.filter fun b => cmp u b == .eq :=
      List.mem_filter.2 ⟨hu, by simp [Std.ReflCmp.compare_self]⟩
    rw [h u] at this
    exact List.mem_of_mem_filter this
  induction ys generalizing zs with
  | nil =>
    cases zs with
    | nil => rfl
    | cons z zs => exact absurd (mem_of_mem (fun a => (h a).symm) List.mem_cons_self) (by simp)
  | cons y ys ih =>
    cases zs with
    | nil => exact absurd (mem_of_mem h List.mem_cons_self) (by simp)
    | cons z zs =>
      rw [List.pairwise_cons] at hy hz
      have hle : (cmp y z).isLE := by
        rcases List.mem_cons.1 (mem_of_mem (fun a => (h a).symm) List.mem_cons_self) with rfl | hm
        · simp [Std.ReflCmp.compare_self]
        · exact hy.1 z hm
      have hge : (cmp z y).isLE := by
        rcases List.mem_cons.1 (mem_of_mem h List.mem_cons_self) with rfl | hm
        · simp [Std.ReflCmp.compare_self]
        · exact hz.1 y hm
      have heq : cmp y z = .eq := Std.OrientedCmp.isLE_antisymm hle hge
      obtain ⟨rfl, -⟩ : y = z ∧ _ := by simpa [Std.ReflCmp.compare_self, heq] using h y
      refine congrArg (y :: ·) (ih hy.2 hz.2 fun a => ?_)
      have := h a
      rw [List.filter_cons, List.filter_cons] at this
      split at this
      · exact (List.cons.inj this).2
      · exact this

theorem Arranged.unique [Std.TransCmp cmp] {xs ys zs : List α} (hy : Arranged cmp xs ys)
    (hz : Arranged cmp xs zs) : ys = zs :=
  eq_of_classes hy.sorted hz.sorted fun a => (hy.stable a).trans (hz.stable a).symm

/-! ### Insertion -/

variable {before : α → α → Except ε Bool}

/-- The bisection finds the place behind all items that the new one does not belong in front of. -/
theorem place_eq [Std.TransCmp cmp] {x : α} {xs : List α}
    (hb : ∀ y ∈ xs, before x y = .ok (cmp x y == .lt))
    (hs : xs.Pairwise fun a b => (cmp a b).isLE) (fuel low high : Nat) (hfuel : high - low ≤ fuel)
    (hlow : low ≤ high) (hhigh : high ≤ xs.length) (hbelow : ∀ y ∈ xs.take low, cmp x y ≠ .lt)
    (habove : ∀ y ∈ xs.drop high, cmp x y = .lt) :
    ∃ n, place before x xs.toArray fuel low high = .ok n ∧ (∀ y ∈ xs.take n, cmp x y ≠ .lt) ∧
      ∀ y ∈ xs.drop n, cmp x y = .lt := by
  induction fuel generalizing low high with
  | zero =>
    obtain rfl : low = high := by omega
    exact ⟨low, rfl, hbelow, habove⟩
  | succ fuel ih =>
    unfold place
    split
    · rename_i hlt
      have hmid : low + (high - low) / 2 < xs.length := by omega
      generalize hm : low + (high - low) / 2 = middle at hmid
      have hget : xs.toArray[middle]? = some xs[middle] := by simp [hmid]
      have hmem : xs[middle] ∈ xs := List.getElem_mem hmid
      have hsplit : xs = xs.take middle ++ xs[middle] :: xs.drop (middle + 1) := by
        rw [← List.drop_eq_getElem_cons hmid, List.take_append_drop]
      have hpair := hs
      rw [hsplit, List.pairwise_append, List.pairwise_cons] at hpair
      simp only [hget, hb _ hmem]
      by_cases hx : cmp x xs[middle] = .lt
      · obtain ⟨n, hn, hplace⟩ := ih low middle (by omega) (by omega) (by omega) hbelow fun y hy => by
          rw [List.drop_eq_getElem_cons hmid] at hy
          rcases List.mem_cons.1 hy with rfl | hy
          · exact hx
          · exact Std.TransCmp.lt_of_lt_of_isLE hx (hpair.2.1.1 y hy)
        exact ⟨n, by simpa [hx] using hn, hplace⟩
      · have hbelow' : ∀ y ∈ xs.take (middle + 1), cmp x y ≠ .lt := fun y hy hlt => by
          rw [List.take_succ_eq_append_getElem hmid, List.mem_append, List.mem_singleton] at hy
          rcases hy with hy | rfl
          · exact hx (Std.TransCmp.lt_of_lt_of_isLE hlt (hpair.2.2 y hy _ List.mem_cons_self))
          · exact hx hlt
        obtain ⟨n, hn, hplace⟩ := ih (middle + 1) high (by omega) (by omega) (by omega) hbelow' habove
        exact ⟨n, by simpa [hx] using hn, hplace⟩
    · obtain rfl : low = high := by omega
      exact ⟨low, rfl, hbelow, habove⟩

/-- Inserting an item into an arrangement arranges the items with the new one at the end. -/
theorem Arranged.insertSorted [Std.TransCmp cmp] {xs ys : List α} {x : α} (h : Arranged cmp xs ys)
    {before : α → α → Except ε Bool} (hb : ∀ y ∈ ys, before x y = .ok (cmp x y == .lt)) :
    ∃ zs, insertSorted before ys x = .ok zs ∧ Arranged cmp (xs ++ [x]) zs := by
  obtain ⟨n, hn, hbelow, habove⟩ := place_eq hb h.sorted ys.length 0 ys.length (by omega)
    (by omega) le_rfl (by simp) (by simp)
  have hle : ∀ y ∈ ys.take n, (cmp y x).isLE := fun y hy => isLE_of_not_lt (hbelow y hy)
  refine ⟨ys.take n ++ x :: ys.drop n, by simp [Insertion.insertSorted, hn], ?_, ?_, fun a => ?_⟩
  · refine List.perm_middle.trans ?_
    rw [List.take_append_drop]
    exact (h.perm.cons x).trans (List.perm_append_singleton x xs).symm
  · have hpair := h.sorted
    rw [← List.take_append_drop n ys, List.pairwise_append] at hpair
    refine List.pairwise_append.2 ⟨hpair.1, List.pairwise_cons.2 ⟨fun y hy => ?_, hpair.2.1⟩, ?_⟩
    · simp [habove y hy]
    · intro y hy z hz
      rcases List.mem_cons.1 hz with rfl | hz
      · exact hle y hy
      · exact hpair.2.2 y hy z hz
  · -- the items behind the place are greater, so none of them is equivalent to the new one
    have hdrop : cmp a x = .eq → (ys.drop n).filter (fun b => cmp a b == .eq) = [] := by
      intro hax
      refine List.filter_eq_nil_iff.2 fun y hy => ?_
      simp [Std.TransCmp.lt_of_eq_of_lt hax (habove y hy)]
    have hys : (ys.filter fun b => cmp a b == .eq) =
        (ys.take n).filter (fun b => cmp a b == .eq) ++
          (ys.drop n).filter fun b => cmp a b == .eq := by
      rw [← List.filter_append, List.take_append_drop]
    rw [List.filter_append, List.filter_append, ← h.stable a, hys]
    by_cases hax : cmp a x = .eq
    · simp [hax, hdrop hax]
    · simp [hax]

/-! ### The initial run -/

/-- A run that goes on while the test says no is in order. -/
theorem run_ascending [Std.TransCmp cmp] {xs : List α} (done : List α) (last : α)
    (hb : ∀ a ∈ xs, ∀ b ∈ last :: (done ++ xs), before a b = .ok (cmp a b == .lt))
    (hs : (last :: done).reverse.Pairwise fun a b => (cmp a b).isLE) :
    ∃ ys rest, run before false done last xs = .ok (ys, rest) ∧
      ys.reverse ++ rest = (last :: done).reverse ++ xs ∧
      ys.reverse.Pairwise fun a b => (cmp a b).isLE := by
  induction xs generalizing done last with
  | nil => exact ⟨last :: done, [], rfl, by simp, hs⟩
  | cons x xs ih =>
    unfold run
    rw [hb x (by simp) last (by simp)]
    by_cases hx : cmp x last = .lt
    · exact ⟨last :: done, x :: xs, by simp [hx], rfl, hs⟩
    · have hle : (cmp last x).isLE := isLE_of_not_lt hx
      obtain ⟨ys, rest, hrun, happ, hsorted⟩ := ih (last :: done) x
        (fun a ha b hmem => hb a (by simp [ha]) b (by
          simp only [List.mem_cons, List.mem_append] at hmem ⊢
          tauto)) (by
        rw [List.reverse_cons, List.pairwise_append]
        refine ⟨hs, by simp, fun a ha b hmem => ?_⟩
        obtain rfl : b = x := by simpa using hmem
        rw [List.reverse_cons, List.pairwise_append] at hs
        rcases List.mem_append.1 (by simpa using ha : a ∈ done.reverse ++ [last]) with ha | ha
        · exact Std.TransCmp.isLE_trans (hs.2.2 a ha last (by simp)) hle
        · obtain rfl : a = last := by simpa using ha
          exact hle)
      exact ⟨ys, rest, by simpa [hx] using hrun, by simpa using happ, hsorted⟩

/-- A run that goes on while the test says yes is strictly descending. -/
theorem run_descending [Std.TransCmp cmp] {xs : List α} (done : List α) (last : α)
    (hb : ∀ a ∈ xs, ∀ b ∈ last :: (done ++ xs), before a b = .ok (cmp a b == .lt))
    (hs : (last :: done).Pairwise fun a b => cmp a b = .lt) :
    ∃ ys rest, run before true done last xs = .ok (ys, rest) ∧
      ys.reverse ++ rest = (last :: done).reverse ++ xs ∧ ys.Pairwise fun a b => cmp a b = .lt := by
  induction xs generalizing done last with
  | nil => exact ⟨last :: done, [], rfl, by simp, hs⟩
  | cons x xs ih =>
    unfold run
    rw [hb x (by simp) last (by simp)]
    by_cases hx : cmp x last = .lt
    · obtain ⟨ys, rest, hrun, happ, hsorted⟩ := ih (last :: done) x
        (fun a ha b hmem => hb a (by simp [ha]) b (by
          simp only [List.mem_cons, List.mem_append] at hmem ⊢
          tauto)) (by
        rw [List.pairwise_cons] at hs ⊢
        refine ⟨fun a ha => ?_, List.pairwise_cons.2 hs⟩
        rcases List.mem_cons.1 ha with rfl | ha
        · exact hx
        · exact Std.TransCmp.lt_trans hx (hs.1 a ha))
      exact ⟨ys, rest, by simpa [hx] using hrun, by simpa using happ, hsorted⟩
    · exact ⟨last :: done, x :: xs, by simp [hx], rfl, hs⟩

theorem Arranged.of_sorted {xs : List α} (h : xs.Pairwise fun a b => (cmp a b).isLE) :
    Arranged cmp xs xs :=
  ⟨.refl _, h, fun _ => rfl⟩

/-- Turning a strictly descending list round arranges it: no two of its items are equivalent. -/
theorem Arranged.of_descending [Std.TransCmp cmp] {ys : List α}
    (h : ys.Pairwise fun a b => cmp a b = .lt) : Arranged cmp ys.reverse ys where
  perm := (List.reverse_perm ys).symm
  sorted := h.imp fun hab => by simp [hab]
  stable a := by
    induction ys with
    | nil => rfl
    | cons y ys ih =>
      rw [List.pairwise_cons] at h
      rw [List.reverse_cons, List.filter_append, ← ih h.2]
      by_cases hay : cmp a y = .eq
      · have : (ys.filter fun b => cmp a b == .eq) = [] :=
          List.filter_eq_nil_iff.2 fun b hb => by
            simp [Std.TransCmp.lt_of_eq_of_lt hay (h.1 b hb)]
        simp [hay, this]
      · simp [hay]

theorem initialRun_arranged [Std.TransCmp cmp] {xs : List α}
    (hb : ∀ a ∈ xs, ∀ b ∈ xs, before a b = .ok (cmp a b == .lt)) :
    ∃ pre sorted rest, initialRun before xs = .ok (sorted, rest) ∧ pre ++ rest = xs ∧
      Arranged cmp pre sorted := by
  match xs, hb with
  | [], _ => exact ⟨[], [], [], rfl, rfl, .of_sorted .nil⟩
  | [x], _ => exact ⟨[x], [x], [], rfl, rfl, .of_sorted (List.pairwise_singleton _ _)⟩
  | x :: y :: r, hb =>
    have hr : ∀ a ∈ r, ∀ b ∈ y :: ([x] ++ r), before a b = .ok (cmp a b == .lt) :=
      fun a ha b hmem => hb a (by simp [ha]) b (by
        simp only [List.mem_cons, List.mem_append, List.not_mem_nil, or_false] at hmem ⊢
        tauto)
    simp only [initialRun, hb y (by simp) x (by simp)]
    by_cases hyx : cmp y x = .lt
    · obtain ⟨ys, rest, hrun, happ, hsorted⟩ := run_descending [x] y hr
        (by simpa using hyx)
      exact ⟨ys.reverse, ys, rest, by simpa [hyx] using hrun, by simpa using happ,
        .of_descending hsorted⟩
    · have hle : (cmp x y).isLE := isLE_of_not_lt hyx
      obtain ⟨ys, rest, hrun, happ, hsorted⟩ := run_ascending [x] y hr
        (by simpa using hle)
      exact ⟨ys.reverse, ys.reverse, rest,
        by simp [hyx, hrun], by simpa using happ,
        .of_sorted hsorted⟩

/-! ### The sort -/

/-- Inserting items one after another arranges them all. -/
theorem foldlM_arranged [Std.TransCmp cmp] {done sorted rest : List α} (h : Arranged cmp done sorted)
    (hb : ∀ a ∈ rest, ∀ b ∈ done ++ rest, before a b = .ok (cmp a b == .lt)) :
    ∃ zs, rest.foldlM (insertSorted before) sorted = .ok zs ∧ Arranged cmp (done ++ rest) zs := by
  induction rest generalizing done sorted with
  | nil => exact ⟨sorted, rfl, by simpa using h⟩
  | cons x rest ih =>
    obtain ⟨ys, hys, harr⟩ := h.insertSorted fun y hy =>
      hb x (by simp) y (by simp [h.perm.mem_iff.1 hy])
    obtain ⟨zs, hzs, harr'⟩ := ih harr fun a ha b hmem => hb a (by simp [ha]) b (by simpa using hmem)
    refine ⟨zs, ?_, by simpa using harr'⟩
    rw [List.foldlM_cons, hys]
    exact hzs

/-- **The sort is the stable sort**, whenever the test follows a total preorder on the items. -/
theorem sortBy_eq [Std.TransCmp cmp] {xs : List α}
    (hb : ∀ a ∈ xs, ∀ b ∈ xs, before a b = .ok (cmp a b == .lt)) :
    sortBy before xs = .ok (xs.mergeSort fun a b => (cmp a b).isLE) := by
  obtain ⟨pre, sorted, rest, hrun, rfl, harr⟩ := initialRun_arranged hb
  obtain ⟨zs, hzs, harr'⟩ := foldlM_arranged harr
    fun a ha b hmem => hb a (by simp [ha]) b hmem
  have : zs = (pre ++ rest).mergeSort fun a b => (cmp a b).isLE := harr'.unique (.mergeSort _)
  rw [← this, ← hzs, sortBy, hrun]
  rfl

/-! ### Items -/

theorem perm_of_run {answer : Bool} {done : List α} {last : α} {xs ys rest : List α}
    (h : run before answer done last xs = .ok (ys, rest)) :
    (ys ++ rest).Perm (last :: done ++ xs) := by
  induction xs generalizing done last with
  | nil =>
    cases h
    exact .refl _
  | cons x xs ih =>
    obtain ⟨b, _, h⟩ := bind_eq_ok_iff.1 h
    split at h
    · have hmove : (last :: done ++ x :: xs).Perm (x :: (last :: done ++ xs)) := List.perm_middle
      exact (ih h).trans hmove.symm
    · cases h
      exact .refl _

theorem perm_of_initialRun {xs sorted rest : List α}
    (h : initialRun before xs = .ok (sorted, rest)) : (sorted ++ rest).Perm xs := by
  unfold initialRun at h
  split at h
  · cases h
    exact .refl _
  · cases h
    exact .refl _
  · next x y r =>
    obtain ⟨b, _, h⟩ := bind_eq_ok_iff.1 h
    have hstart : (y :: [x] ++ r).Perm (x :: y :: r) := .swap x y r
    split at h
    · exact (perm_of_run h).trans hstart
    · obtain ⟨⟨done, rest⟩, hrun, h⟩ := bind_eq_ok_iff.1 h
      cases h
      exact ((List.reverse_perm done).append_right rest).trans ((perm_of_run hrun).trans hstart)

theorem perm_of_insertSorted {xs ys : List α} {x : α} (h : insertSorted before xs x = .ok ys) :
    ys.Perm (x :: xs) := by
  obtain ⟨n, _, h⟩ := bind_eq_ok_iff.1 h
  cases h
  have hmove : (xs.take n ++ x :: xs.drop n).Perm (x :: (xs.take n ++ xs.drop n)) := List.perm_middle
  rwa [List.take_append_drop] at hmove

theorem perm_of_foldlM {xs sorted ys : List α}
    (h : xs.foldlM (insertSorted before) sorted = .ok ys) : ys.Perm (sorted ++ xs) := by
  induction xs generalizing sorted with
  | nil =>
    cases h
    simp
  | cons x xs ih =>
    rw [List.foldlM_cons] at h
    obtain ⟨next, hnext, h⟩ := bind_eq_ok_iff.1 h
    refine (ih h).trans (((perm_of_insertSorted hnext).append_right xs).trans ?_)
    exact List.perm_middle.symm

/-- **A sort neither loses nor adds items**, whatever the test answers. -/
theorem perm_of_sortBy {xs ys : List α} (h : sortBy before xs = .ok ys) : ys.Perm xs := by
  obtain ⟨⟨sorted, rest⟩, hrun, h⟩ := bind_eq_ok_iff.1 h
  exact (perm_of_foldlM h).trans (perm_of_initialRun hrun)

end Sieve.Insertion
