import Sieve.Proofs.Outcome
import Sieve.Memory

/-!
# Two runs in lockstep

Two runs of one computation on related data end alike if every step treats related data alike.

* `Outcome.Alike`: both runs fail with the same error, or succeed with related results;
* `Insertion.sortBy_alike`: sorting moves the items of both lists to the same places, whatever the
  test answers, as long as it cannot tell related items apart;
* `selectRows_alike`, `window_alike`: selecting and cutting out keep the lists in step.
-/

namespace Sieve

namespace Outcome

variable {ε α α' β β' : Type}

/-- Both computations fail with the same error, or succeed with related results. -/
inductive Alike (R : α → α' → Prop) : Except ε α → Except ε α' → Prop
  | ok {a : α} {a' : α'} (h : R a a') : Alike R (.ok a) (.ok a')
  | error (e : ε) : Alike R (.error e) (.error e)

theorem alike_self (x : Except ε α) : Alike (· = ·) x x := by
  cases x with
  | ok a => exact .ok rfl
  | error e => exact .error e

theorem Alike.eq {x y : Except ε α} (h : Alike (· = ·) x y) : x = y := by
  cases h with
  | ok h => rw [h]
  | error e => rfl

variable {R : α → α' → Prop} {S : β → β' → Prop}

theorem Alike.bind {x : Except ε α} {x' : Except ε α'} {f : α → Except ε β}
    {f' : α' → Except ε β'} (hx : Alike R x x') (hf : ∀ a a', R a a' → Alike S (f a) (f' a')) :
    Alike S (x >>= f) (x' >>= f') := by
  cases hx with
  | ok h => exact hf _ _ h
  | error e => exact .error e

theorem Alike.map {x : Except ε α} {x' : Except ε α'} {f : α → β} {f' : α' → β'} (hx : Alike R x x')
    (hf : ∀ a a', R a a' → S (f a) (f' a')) : Alike S (f <$> x) (f' <$> x') := by
  cases hx with
  | ok h => exact .ok (hf _ _ h)
  | error e => exact .error e

/-- A step may come first, with a result that both go on with. -/
theorem Alike.after_ok (x : Except ε β) {f : β → Except ε α} {f' : β → Except ε α'}
    (h : ∀ b, x = .ok b → Alike R (f b) (f' b)) : Alike R (x >>= f) (x >>= f') := by
  cases x with
  | ok b => exact h b rfl
  | error e => exact .error e

/-- Equal steps may come first. -/
theorem Alike.after (x : Except ε β) {f : β → Except ε α} {f' : β → Except ε α'}
    (h : ∀ b, Alike R (f b) (f' b)) : Alike R (x >>= f) (x >>= f') :=
  .after_ok x fun b _ => h b

variable {xs : List α} {xs' : List α'}

theorem foldlM_alike {f : β → α → Except ε β} {f' : β' → α' → Except ε β'}
    (hf : ∀ b b' a a', S b b' → R a a' → Alike S (f b a) (f' b' a'))
    (hxs : List.Forall₂ R xs xs') {b : β} {b' : β'} (hb : S b b') :
    Alike S (xs.foldlM f b) (xs'.foldlM f' b') := by
  induction hxs generalizing b b' with
  | nil => exact .ok hb
  | cons ha _ ih => exact (hf _ _ _ _ hb ha).bind fun _ _ h => ih h

theorem filterAuxM_alike {f : α → Except ε Bool} {f' : α' → Except ε Bool}
    (hf : ∀ a a', R a a' → f a = f' a') (hxs : List.Forall₂ R xs xs') {done : List α}
    {done' : List α'} (hd : List.Forall₂ R done done') :
    Alike (List.Forall₂ R) (xs.filterAuxM f done) (xs'.filterAuxM f' done') := by
  induction hxs generalizing done done' with
  | nil => exact .ok hd
  | cons ha _ ih =>
    rw [List.filterAuxM, List.filterAuxM, hf _ _ ha]
    refine Alike.after _ fun b => ih ?_
    cases b
    · exact hd
    · exact .cons ha hd

/-- A test that cannot tell related items apart keeps related lists. -/
theorem filterM_alike {f : α → Except ε Bool} {f' : α' → Except ε Bool}
    (hf : ∀ a a', R a a' → f a = f' a') (hxs : List.Forall₂ R xs xs') :
    Alike (List.Forall₂ R) (xs.filterM f) (xs'.filterM f') :=
  (filterAuxM_alike hf hxs .nil).bind fun _ _ h => .ok (List.rel_reverse h)

end Outcome

namespace Traced

variable {α α' β β' : Type} {R : α → α' → Prop} {S : β → β' → Prop}

/-- Both computations report the same events and end alike. -/
structure Alike (R : α → α' → Prop) (x : Traced α) (x' : Traced α') : Prop where
  events : x.events = x'.events
  outcome : Outcome.Alike R x.outcome x'.outcome

theorem alike_self (x : Traced α) : Alike (· = ·) x x :=
  ⟨rfl, Outcome.alike_self _⟩

theorem Alike.eq {x y : Traced α} (h : Alike (· = ·) x y) : x = y := by
  obtain ⟨events, outcome⟩ := x
  obtain ⟨events', outcome'⟩ := y
  obtain ⟨he, ho⟩ := h
  exact congrArg₂ Traced.mk he ho.eq

theorem alike_lift {x : Except Error α} {x' : Except Error α'} (h : Outcome.Alike R x x') :
    Alike R (lift x) (lift x') :=
  ⟨rfl, h⟩

theorem alike_pure {a : α} {a' : α'} (h : R a a') :
    Alike R (pure a : Traced α) (pure a' : Traced α') :=
  ⟨rfl, .ok h⟩

theorem Alike.bind {x : Traced α} {x' : Traced α'} {f : α → Traced β} {f' : α' → Traced β'}
    (hx : Alike R x x') (hf : ∀ a a', R a a' → Alike S (f a) (f' a')) :
    Alike S (x >>= f) (x' >>= f') := by
  obtain ⟨events, outcome⟩ := x
  obtain ⟨events', outcome'⟩ := x'
  obtain ⟨he, ho⟩ := hx
  change events = events' at he
  subst he
  cases ho with
  | ok h =>
    obtain ⟨hfe, hfo⟩ := hf _ _ h
    exact ⟨congrArg (events ++ ·) hfe, hfo⟩
  | error e => exact ⟨rfl, .error e⟩

/-- Equal steps may come first. -/
theorem Alike.after (x : Traced β) {f : β → Traced α} {f' : β → Traced α'}
    (h : ∀ b, x.outcome = .ok b → Alike R (f b) (f' b)) : Alike R (x >>= f) (x >>= f') := by
  obtain ⟨events, e | b⟩ := x
  · exact ⟨rfl, .error e⟩
  · obtain ⟨he, ho⟩ := h b rfl
    exact ⟨congrArg (events ++ ·) he, ho⟩

end Traced

/-! ### Sorting -/

namespace Insertion

open Outcome

variable {ε α α' : Type} {R : α → α' → Prop} {before : α → α → Except ε Bool}
  {before' : α' → α' → Except ε Bool}

theorem getElem?_alike {xs : List α} {xs' : List α'} (hxs : List.Forall₂ R xs xs') (i : Nat) :
    Option.Rel R xs[i]? xs'[i]? := by
  induction hxs generalizing i with
  | nil => exact .none
  | cons ha _ ih =>
    cases i with
    | zero => exact .some ha
    | succ i => simpa using ih i

section

variable (hb : ∀ a a' b b', R a a' → R b b' → before a b = before' a' b')
include hb

theorem place_alike {x : α} {x' : α'} (hx : R x x') {xs : List α} {xs' : List α'}
    (hxs : List.Forall₂ R xs xs') (fuel low high : Nat) :
    place before x xs.toArray fuel low high = place before' x' xs'.toArray fuel low high := by
  induction fuel generalizing low high with
  | zero => rfl
  | succ fuel ih =>
    unfold place
    have hget := getElem?_alike hxs (low + (high - low) / 2)
    simp only [List.getElem?_toArray]
    generalize xs[low + (high - low) / 2]? = y at hget
    generalize xs'[low + (high - low) / 2]? = y' at hget
    cases hget with
    | none => rfl
    | some hy => simp only [hb _ _ _ _ hx hy, ih]

theorem insertSorted_alike {xs : List α} {xs' : List α'} {x : α} {x' : α'}
    (hxs : List.Forall₂ R xs xs') (hx : R x x') :
    Alike (List.Forall₂ R) (insertSorted before xs x) (insertSorted before' xs' x') := by
  unfold insertSorted
  rw [place_alike hb hx hxs, hxs.length_eq]
  exact Alike.after _ fun n =>
    .ok (List.rel_append (List.forall₂_take n hxs) (.cons hx (List.forall₂_drop n hxs)))

theorem run_alike (answer : Bool) {done : List α} {done' : List α'} {last : α} {last' : α'}
    {xs : List α} {xs' : List α'} (hd : List.Forall₂ R done done') (hl : R last last')
    (hxs : List.Forall₂ R xs xs') :
    Alike (fun p p' => List.Forall₂ R p.1 p'.1 ∧ List.Forall₂ R p.2 p'.2)
      (run before answer done last xs) (run before' answer done' last' xs') := by
  induction hxs generalizing done done' last last' with
  | nil => exact .ok ⟨.cons hl hd, .nil⟩
  | cons ha hr ih =>
    unfold run
    rw [hb _ _ _ _ ha hl]
    refine Alike.after _ fun b => ?_
    by_cases h : (b == answer) = true
    · rw [if_pos h, if_pos h]
      exact ih (.cons hl hd) ha
    · rw [if_neg h, if_neg h]
      exact .ok ⟨.cons hl hd, .cons ha hr⟩

theorem initialRun_alike {xs : List α} {xs' : List α'} (hxs : List.Forall₂ R xs xs') :
    Alike (fun p p' => List.Forall₂ R p.1 p'.1 ∧ List.Forall₂ R p.2 p'.2)
      (initialRun before xs) (initialRun before' xs') := by
  cases hxs with
  | nil => exact .ok ⟨.nil, .nil⟩
  | cons hx hr =>
    cases hr with
    | nil => exact .ok ⟨.cons hx .nil, .nil⟩
    | cons hy hr =>
      simp only [initialRun]
      rw [hb _ _ _ _ hy hx]
      refine Alike.after _ fun b => ?_
      cases b
      · exact (run_alike hb false (.cons hx .nil) hy hr).bind fun p p' h =>
          .ok ⟨List.rel_reverse h.1, h.2⟩
      · exact run_alike hb true (.cons hx .nil) hy hr

/-- **A test that cannot tell related items apart sorts related lists alike.** -/
theorem sortBy_alike {xs : List α} {xs' : List α'} (hxs : List.Forall₂ R xs xs') :
    Alike (List.Forall₂ R) (sortBy before xs) (sortBy before' xs') := by
  apply (initialRun_alike hb hxs).bind
  rintro ⟨sorted, rest⟩ ⟨sorted', rest'⟩ ⟨hs, hr⟩
  show Alike _ (rest.foldlM (insertSorted before) sorted) (rest'.foldlM (insertSorted before') sorted')
  apply foldlM_alike _ hr hs
  intro b b' a a' hbb haa
  exact insertSorted_alike hb hbb haa

end

end Insertion

/-! ### Windows -/

section Windows

open Outcome

variable {α α' : Type} {R : α → α' → Prop} {xs : List α} {xs' : List α'}

theorem slice_alike (hxs : List.Forall₂ R xs xs') (start : Int) (stop : Option Int) :
    List.Forall₂ R (slice xs start stop) (slice xs' start stop) := by
  unfold slice
  rw [hxs.length_eq]
  exact List.forall₂_take _ (List.forall₂_drop _ hxs)

theorem window_alike (hxs : List.Forall₂ R xs xs') (limit offset : Value) :
    Alike (List.Forall₂ R) (window xs limit offset) (window xs' limit offset) :=
  Alike.after _ fun _ => Alike.after _ fun _ => Alike.after _ fun _ => .ok (slice_alike hxs _ _)

end Windows

end Sieve
