import Mathlib.Tactic
import Sieve.Event

/-!
# Outcomes of steps

How computations that may fail, or that also report events, succeed step by step.

* `bind_eq_ok_iff`: a sequence of two steps succeeds if both do;
* `mapM_eq_ok_iff`, `filterM_ok`: the same for lists;
* `Outcome.FailsOnly`: what a computation may fail with;
* `Traced.bind_outcome`: events do not matter for the outcome;
* `Traced.Yields`: a property of whatever a computation results in.
-/

namespace Sieve

namespace Outcome

variable {ε α β : Type}

@[simp] theorem pure_eq_ok (a : α) : (pure a : Except ε α) = .ok a := rfl

@[simp] theorem throw_eq_error (e : ε) : (throw e : Except ε α) = .error e := rfl

@[simp] theorem ok_bind (a : α) (f : α → Except ε β) : (Except.ok a >>= f) = f a := rfl

@[simp] theorem error_bind (e : ε) (f : α → Except ε β) :
    ((Except.error e : Except ε α) >>= f) = .error e := rfl

@[simp] theorem map_ok (f : α → β) (a : α) : f <$> (Except.ok a : Except ε α) = .ok (f a) := rfl

@[simp] theorem map_error (f : α → β) (e : ε) :
    f <$> (Except.error e : Except ε α) = .error e := rfl

theorem bind_eq_ok_iff {x : Except ε α} {f : α → Except ε β} {b : β} :
    (x >>= f) = .ok b ↔ ∃ a, x = .ok a ∧ f a = .ok b := by
  cases x <;> simp

theorem map_eq_ok_iff {f : α → β} {x : Except ε α} {b : β} :
    f <$> x = .ok b ↔ ∃ a, x = .ok a ∧ f a = b := by
  cases x <;> simp

/-- All items are answered, in order. -/
theorem mapM_eq_ok_iff {f : α → Except ε β} {xs : List α} {ys : List β} :
    xs.mapM f = .ok ys ↔ List.Forall₂ (fun x y => f x = .ok y) xs ys := by
  induction xs generalizing ys with
  | nil => cases ys <;> simp
  | cons x xs ih =>
    rw [List.mapM_cons]
    constructor
    · intro h
      obtain ⟨y, hy, h⟩ := bind_eq_ok_iff.1 h
      obtain ⟨ys', hys, h⟩ := bind_eq_ok_iff.1 h
      cases h
      exact .cons hy (ih.1 hys)
    · rintro (_ | ⟨hy, hys⟩)
      rw [hy, ok_bind, ih.2 hys, ok_bind]
      rfl

/-- Each answer is that of an item. -/
theorem exists_of_mem_mapM {f : α → Except ε β} {xs : List α} {ys : List β} {y : β}
    (h : xs.mapM f = .ok ys) (hy : y ∈ ys) : ∃ x ∈ xs, f x = .ok y := by
  have hall := mapM_eq_ok_iff.1 h
  clear h
  induction hall with
  | nil => cases hy
  | cons hxy _ ih =>
    rcases List.mem_cons.1 hy with rfl | hy
    · exact ⟨_, by simp, hxy⟩
    · obtain ⟨x, hx, hxy⟩ := ih hy
      exact ⟨x, by simp [hx], hxy⟩

/-- Each item has an answer. -/
theorem exists_answer_of_mapM {f : α → Except ε β} {xs : List α} {ys : List β} {x : α}
    (h : xs.mapM f = .ok ys) (hx : x ∈ xs) : ∃ y ∈ ys, f x = .ok y := by
  have hall := mapM_eq_ok_iff.1 h
  clear h
  induction hall with
  | nil => cases hx
  | cons hxy _ ih =>
    rcases List.mem_cons.1 hx with rfl | hx
    · exact ⟨_, by simp, hxy⟩
    · obtain ⟨y, hy, hxy⟩ := ih hx
      exact ⟨y, by simp [hy], hxy⟩

/-- A failure is that of an item. -/
theorem exists_of_mapM_error {f : α → Except ε β} {xs : List α} {e : ε}
    (h : xs.mapM f = .error e) : ∃ x ∈ xs, f x = .error e := by
  induction xs with
  | nil => cases h
  | cons x xs ih =>
    rw [List.mapM_cons] at h
    cases hx : f x with
    | error e' =>
      rw [hx] at h
      cases h
      exact ⟨x, by simp, hx⟩
    | ok y =>
      cases hxs : xs.mapM f with
      | error e' =>
        rw [hx, hxs] at h
        cases h
        obtain ⟨z, hz, hfz⟩ := ih hxs
        exact ⟨z, by simp [hz], hfz⟩
      | ok ys =>
        rw [hx, hxs] at h
        cases h

theorem mapM_ok {f : α → Except ε β} {g : α → β} {xs : List α} (h : ∀ x ∈ xs, f x = .ok (g x)) :
    xs.mapM f = .ok (xs.map g) := by
  rw [mapM_eq_ok_iff, List.forall₂_map_right_iff, List.forall₂_same]
  exact h

theorem mapM_append_ok {f : α → Except ε β} {xs ys : List α} {as bs : List β}
    (hx : xs.mapM f = .ok as) (hy : ys.mapM f = .ok bs) : (xs ++ ys).mapM f = .ok (as ++ bs) := by
  rw [List.mapM_append, hx, hy]
  rfl

/-- If every item is answered, all of them are. -/
theorem exists_mapM_ok {f : α → Except ε β} {xs : List α} (h : ∀ x ∈ xs, ∃ y, f x = .ok y) :
    ∃ ys, xs.mapM f = .ok ys := by
  induction xs with
  | nil => exact ⟨[], rfl⟩
  | cons x xs ih =>
    obtain ⟨y, hy⟩ := h x (by simp)
    obtain ⟨ys, hys⟩ := ih fun z hz => h z (by simp [hz])
    refine ⟨y :: ys, ?_⟩
    rw [List.mapM_cons, hy, ok_bind, hys]
    rfl

/-- A function of the answers to all items, where it is one of the answer to each. -/
theorem mapM_map {α' β' : Type} {f : α → Except ε β} {f' : α' → Except ε β'} {g : α → α'}
    {h : β → β'} (heq : ∀ x, f' (g x) = h <$> f x) (xs : List α) :
    (xs.map g).mapM f' = List.map h <$> xs.mapM f := by
  induction xs with
  | nil => rfl
  | cons x xs ih =>
    rw [List.map_cons, List.mapM_cons, List.mapM_cons, heq, ih]
    cases f x with
    | error e => rfl
    | ok y => cases xs.mapM f <;> rfl

theorem mapM_congr {f g : α → Except ε β} {xs : List α} (h : ∀ x ∈ xs, f x = g x) :
    xs.mapM f = xs.mapM g := by
  induction xs with
  | nil => rfl
  | cons x xs ih =>
    rw [List.mapM_cons, List.mapM_cons, h x (by simp), ih fun y hy => h y (by simp [hy])]

theorem foldlM_congr {f g : β → α → Except ε β} {xs : List α} (h : ∀ x ∈ xs, ∀ b, f b x = g b x)
    (b : β) : xs.foldlM f b = xs.foldlM g b := by
  induction xs generalizing b with
  | nil => rfl
  | cons x xs ih =>
    rw [List.foldlM_cons, List.foldlM_cons, h x (by simp)]
    exact congrArg (g b x >>= ·) (funext fun b' => ih (fun y hy => h y (by simp [hy])) b')

theorem filterAuxM_ok {f : α → Except ε Bool} {g : α → Bool} {xs : List α}
    (h : ∀ x ∈ xs, f x = .ok (g x)) (done : List α) :
    xs.filterAuxM f done = .ok ((xs.filter g).reverse ++ done) := by
  induction xs generalizing done with
  | nil => rfl
  | cons x xs ih =>
    rw [List.filterAuxM, h x (by simp), ok_bind, ih fun y hy => h y (by simp [hy])]
    cases hg : g x <;> simp [hg]

/-- A test that is answered for all items keeps those it is answered with yes. -/
theorem filterM_ok {f : α → Except ε Bool} {g : α → Bool} {xs : List α}
    (h : ∀ x ∈ xs, f x = .ok (g x)) : xs.filterM f = .ok (xs.filter g) := by
  simp [List.filterM, filterAuxM_ok h]

theorem mem_of_filterAuxM {f : α → Except ε Bool} {xs done ys : List α} {y : α}
    (h : xs.filterAuxM f done = .ok ys) (hy : y ∈ ys) : y ∈ xs ∨ y ∈ done := by
  induction xs generalizing done with
  | nil =>
    cases h
    exact .inr hy
  | cons x xs ih =>
    obtain ⟨b, _, h⟩ := bind_eq_ok_iff.1 h
    rcases ih h with hmem | hmem
    · exact .inl (List.mem_cons_of_mem x hmem)
    · cases b with
      | true =>
        rcases List.mem_cons.1 hmem with rfl | hmem
        · exact .inl List.mem_cons_self
        · exact .inr hmem
      | false => exact .inr hmem

theorem exists_answer_of_filterAuxM {f : α → Except ε Bool} {xs done ys : List α}
    (h : xs.filterAuxM f done = .ok ys) : ∀ x ∈ xs, ∃ b, f x = .ok b := by
  induction xs generalizing done with
  | nil => nofun
  | cons x xs ih =>
    obtain ⟨b, hb, h⟩ := bind_eq_ok_iff.1 h
    exact List.forall_mem_cons.2 ⟨⟨b, hb⟩, ih h⟩

/-- A test that keeps items was answered for all of them. -/
theorem exists_answer_of_filterM {f : α → Except ε Bool} {xs ys : List α}
    (h : xs.filterM f = .ok ys) : ∀ x ∈ xs, ∃ b, f x = .ok b :=
  have ⟨_, hdone, _⟩ := bind_eq_ok_iff.1 h
  exists_answer_of_filterAuxM hdone

/-- What a test keeps is among the items. -/
theorem mem_of_filterM {f : α → Except ε Bool} {xs ys : List α} {y : α}
    (h : xs.filterM f = .ok ys) (hy : y ∈ ys) : y ∈ xs := by
  obtain ⟨done, hdone, h⟩ := bind_eq_ok_iff.1 h
  cases h
  exact (mem_of_filterAuxM hdone (List.mem_reverse.1 hy)).resolve_right (by simp)

/-! ### Failing -/

/-- Whenever the computation fails, the failure has the property. -/
def FailsOnly (P : ε → Prop) (x : Except ε α) : Prop :=
  ∀ e, x = .error e → P e

section

variable {P : ε → Prop}

theorem failsOnly_ok (a : α) : FailsOnly P (.ok a) := nofun

theorem failsOnly_error {e : ε} (h : P e) : FailsOnly P (.error e : Except ε α) := by
  rintro e' ⟨⟩
  exact h

theorem FailsOnly.mono {Q : ε → Prop} {x : Except ε α} (hx : FailsOnly P x) (h : ∀ e, P e → Q e) :
    FailsOnly Q x :=
  fun e he => h e (hx e he)

theorem FailsOnly.bind {x : Except ε α} {f : α → Except ε β} (hx : FailsOnly P x)
    (hf : ∀ a, FailsOnly P (f a)) : FailsOnly P (x >>= f) := by
  intro e h
  cases x with
  | error e' =>
    cases h
    exact hx _ rfl
  | ok a => exact hf a e h

theorem FailsOnly.map {x : Except ε α} (hx : FailsOnly P x) (f : α → β) : FailsOnly P (f <$> x) := by
  intro e h
  cases x with
  | error e' =>
    cases h
    exact hx _ rfl
  | ok a => cases h

theorem failsOnly_mapM {f : α → Except ε β} {xs : List α} (h : ∀ x ∈ xs, FailsOnly P (f x)) :
    FailsOnly P (xs.mapM f) := by
  intro e he
  obtain ⟨x, hx, he⟩ := exists_of_mapM_error he
  exact h x hx e he

theorem failsOnly_anyM {f : α → Except ε Bool} {xs : List α} (h : ∀ x ∈ xs, FailsOnly P (f x)) :
    FailsOnly P (xs.anyM f) := by
  induction xs with
  | nil => exact failsOnly_ok _
  | cons x xs ih =>
    refine (h x (by simp)).bind fun found => ?_
    cases found with
    | true => exact failsOnly_ok _
    | false => exact ih fun y hy => h y (by simp [hy])

theorem failsOnly_findM? {f : α → Except ε Bool} {xs : List α} (h : ∀ x ∈ xs, FailsOnly P (f x)) :
    FailsOnly P (xs.findM? f) := by
  induction xs with
  | nil => exact failsOnly_ok _
  | cons x xs ih =>
    refine (h x (by simp)).bind fun found => ?_
    cases found with
    | true => exact failsOnly_ok _
    | false => exact ih fun y hy => h y (by simp [hy])

end

end Outcome

namespace Traced

variable {α β : Type}

/-- The outcome of two steps. -/
theorem bind_outcome (x : Traced α) (f : α → Traced β) :
    (x >>= f).outcome = x.outcome >>= fun a => (f a).outcome := by
  obtain ⟨events, a | a⟩ := x <;> rfl

@[simp] theorem pure_outcome (a : α) : (pure a : Traced α).outcome = .ok a := rfl

@[simp] theorem lift_outcome (x : Except Error α) : (lift x).outcome = x := rfl

theorem mapM_loop_outcome (f : α → Traced β) (xs : List α) (done : List β) :
    (List.mapM.loop f xs done).outcome = List.mapM.loop (fun x => (f x).outcome) xs done := by
  induction xs generalizing done with
  | nil => rfl
  | cons x xs ih =>
    rw [List.mapM.loop, List.mapM.loop, bind_outcome]
    exact congrArg ((f x).outcome >>= ·) (funext fun y => ih (y :: done))

/-- The outcome of a step for every item. -/
theorem mapM_outcome (f : α → Traced β) (xs : List α) :
    (xs.mapM f).outcome = xs.mapM fun x => (f x).outcome :=
  mapM_loop_outcome f xs []

/-- Whatever the computation results in has the property. -/
def Yields (P : α → Prop) (x : Traced α) : Prop :=
  ∀ a, x.outcome = .ok a → P a

variable {P : α → Prop} {Q : β → Prop}

theorem yields_pure {a : α} (h : P a) : Yields P (pure a) := by
  intro a' ha
  cases ha
  exact h

theorem yields_fail (e : Error) : Yields P (fail e) := by
  intro a ha
  cases ha

theorem yields_lift {x : Except Error α} (h : ∀ a, x = .ok a → P a) : Yields P (lift x) := h

theorem yields_bind {x : Traced α} {f : α → Traced β} (hx : Yields P x)
    (hf : ∀ a, P a → Yields Q (f a)) : Yields Q (x >>= f) := by
  intro b hb
  rw [bind_outcome] at hb
  obtain ⟨a, ha, hb⟩ := Outcome.bind_eq_ok_iff.1 hb
  exact hf a (hx a ha) b hb

/-- What the first step results in may not matter. -/
theorem yields_after {x : Traced α} {f : α → Traced β} (hf : ∀ a, Yields Q (f a)) :
    Yields Q (x >>= f) :=
  yields_bind (P := fun _ => True) (fun _ _ => trivial) fun a _ => hf a

theorem yields_mapM_loop {f : α → Traced β} {xs : List α} (h : ∀ x ∈ xs, Yields Q (f x))
    {done : List β} (hd : ∀ y ∈ done, Q y) :
    Yields (∀ y ∈ ·, Q y) (List.mapM.loop f xs done) := by
  induction xs generalizing done with
  | nil => exact yields_pure fun y hy => hd y (List.mem_reverse.1 hy)
  | cons x xs ih =>
    refine yields_bind (h x (by simp)) fun y hy => ih (fun z hz => h z (by simp [hz])) ?_
    intro z hz
    rcases List.mem_cons.1 hz with rfl | hz
    · exact hy
    · exact hd z hz

/-- All results have the property that each of them has. -/
theorem yields_mapM {f : α → Traced β} {xs : List α} (h : ∀ x ∈ xs, Yields Q (f x)) :
    Yields (∀ y ∈ ·, Q y) (xs.mapM f) :=
  yields_mapM_loop h (by simp)

end Traced

end Sieve
