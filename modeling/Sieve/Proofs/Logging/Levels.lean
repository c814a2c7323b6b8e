import Sieve.Logging

/-!
# Levels of loggers

The level in force of a logger is the one that was set for it, or else that in force of its parent, whose
name is what is in front of the last dot. Two states of the loggers are compared for the loggers of the
library: where the same levels were set in both, the same are in force.

* `Loggers.parent`, `Loggers.level_inherited`: the tree of loggers, and a step up in it;
* `LogOutput.isOwn_induction`: induction from the logger of the library down to its modules;
* `Loggers.levels_agree_iff`: when the levels in force agree for a state in which nothing but some of the
  loggers were set;
* `Loggers.own?_assignAll_of_names`, `Loggers.own?_assignAll_of_not_names`: what is set with a list of
  levels, and what is not.
-/

namespace Sieve

namespace Loggers

/-! ### The tree of loggers -/

theorem mem_fronts {p s : List Char} : p ∈ fronts s ↔ p ++ ['.'] <+: s := by
  induction s generalizing p with
  | nil => simp [fronts]
  | cons c r ih =>
    cases p with
    | nil => by_cases h : c = '.' <;> simp [fronts, h, eq_comm]
    | cons d q =>
      have hrest : d :: q ∈ fronts (c :: r) ↔ q ∈ fronts r ∧ d = c := by
        by_cases h : c = '.' <;> simp [fronts, h, eq_comm]
      rw [hrest, ih, List.cons_append, List.cons_prefix_cons, and_comm]

/-- What is in front of the last dot has the other texts in front of dots in front of its own. -/
theorem fronts_eq (s : List Char) : fronts s = [] ∨ ∃ p, fronts s = p :: fronts p := by
  induction s with
  | nil => exact .inl rfl
  | cons c r ih =>
    obtain h | ⟨p, h⟩ := ih
    · by_cases hc : c = '.'
      · exact .inr ⟨[], by simp [fronts, h, hc]⟩
      · exact .inl (by simp [fronts, h, hc])
    · exact .inr ⟨c :: p, by simp [fronts, h]⟩

/-- The name of the nearest ancestor of a logger. -/
def parent (name : String) : String :=
  (ancestors name).headD ""

theorem ancestors_eq (name : String) :
    ancestors name = [""] ∨ ancestors name = parent name :: ancestors (parent name) := by
  obtain h | ⟨p, h⟩ := fronts_eq name.toList
  · exact .inl (by simp [ancestors, h])
  · exact .inr (by simp [parent, ancestors, h])

theorem level_of_own {l : Loggers} {name : String} {s : Severity} (h : l.own? name = some s) :
    l.level name = s := by
  simp [level, h]

theorem level_top (l : Loggers) : l.level "" = (l.own? "").getD 0 := by
  have htop : ancestors "" = [""] := by decide
  rw [level]
  cases h : l.own? "" <;> simp [htop, h]

/-- A logger without a level of its own has that of its parent. -/
theorem level_inherited {l : Loggers} {name : String} (h : l.own? name = none) :
    l.level name = l.level (parent name) := by
  rw [level, h]
  dsimp only
  obtain hname | hname := ancestors_eq name
  · have hparent : parent name = "" := by simp [parent, hname]
    rw [hname, hparent, level_top, List.findSome?_singleton]
  · rw [hname, level, List.findSome?_cons]
    cases l.own? (parent name) <;> rfl

end Loggers

namespace LogOutput

open Loggers

theorem isOwn_iff {name : String} :
    isOwn name = true ↔ name = root ∨ root.toList ∈ fronts name.toList := by
  simp [isOwn, mem_fronts, String.startsWith_string_iff]

theorem isOwn_root : isOwn root = true := by simp [isOwn]

theorem parent_root : parent root = "" := by decide

theorem key_of_isOwn {name : String} (h : isOwn name = true) : key name ≠ "" := by
  rw [key]
  obtain rfl | hmem := isOwn_iff.1 h
  · decide
  · rw [mem_fronts] at hmem
    split
    · rename_i hname
      rw [hname] at hmem
      exact absurd hmem (by decide)
    · rintro rfl
      exact absurd hmem (by decide)

/-- The parent of a module is the library or a module. -/
theorem isOwn_parent {name : String} (h : isOwn name = true) (hname : name ≠ root) :
    isOwn (parent name) = true ∧ (parent name).length < name.length := by
  have hmem : root.toList ∈ fronts name.toList := (isOwn_iff.1 h).resolve_left hname
  obtain hnone | ⟨p, hp⟩ := fronts_eq name.toList
  · rw [hnone] at hmem
    cases hmem
  · have hparent : parent name = String.ofList p := by simp [parent, ancestors, hp]
    have hshort : p ++ ['.'] <+: name.toList := mem_fronts.1 (hp ▸ List.mem_cons_self)
    rw [hparent]
    constructor
    · rw [hp, List.mem_cons] at hmem
      rw [isOwn_iff, String.toList_ofList]
      refine hmem.imp_left fun hroot => ?_
      rw [← hroot, String.ofList_toList]
    · have hlength := hshort.length_le
      simp only [List.length_append, List.length_singleton, String.length_toList] at hlength
      rw [String.length_ofList]
      omega

/-- What holds of the library, and of a module if it holds of its parent, holds of all modules. -/
theorem isOwn_induction {P : String → Prop} (hroot : P root)
    (hmodule : ∀ name, isOwn name = true → name ≠ root → P (parent name) → P name) :
    ∀ name, isOwn name = true → P name := by
  intro name
  induction hlength : name.length using Nat.strongRecOn generalizing name with
  | ind k ih =>
    intro hown
    by_cases hname : name = root
    · exact hname ▸ hroot
    · obtain ⟨hparent, hshort⟩ := isOwn_parent hown hname
      exact hmodule name hown hname (ih _ (hlength ▸ hshort) _ rfl hparent)

end LogOutput

namespace Loggers

open LogOutput

/-- **Levels agree where nothing is left over.** The loggers of the library that are not among those that
were set alike have no levels in one of two states. The levels in force agree exactly if in the other one
these have no levels either or just those that are in force without them, and if a library without a level
of its own inherits the same. -/
theorem levels_agree_iff {l f : Loggers} {IsSet : String → Prop} (hroot : IsSet root)
    (hset : ∀ name, IsSet name → l.own? name = f.own? name)
    (hunset : ∀ name, isOwn name = true → ¬ IsSet name → f.own? name = none) :
    (∀ name, isOwn name = true → l.level name = f.level name) ↔
      (∀ name, isOwn name = true → ¬ IsSet name →
        ∀ s, l.own? name = some s → s = f.level name) ∧
      (f.own? root = none → l.level "" = f.level "") := by
  constructor
  · intro h
    constructor
    · intro name hown _ s hs
      rw [← h name hown, level_of_own hs]
    · intro hnone
      have hboth := h root isOwn_root
      rwa [level_inherited ((hset root hroot).trans hnone), level_inherited hnone,
        parent_root] at hboth
  · rintro ⟨hleft, htop⟩
    apply isOwn_induction
    · cases hf : f.own? root with
      | some s => rw [level_of_own hf, level_of_own ((hset root hroot).trans hf)]
      | none =>
        rw [level_inherited hf, level_inherited ((hset root hroot).trans hf), parent_root]
        exact htop hf
    · intro name hown _ ih
      by_cases hname : IsSet name
      · cases hf : f.own? name with
        | some s => rw [level_of_own hf, level_of_own ((hset name hname).trans hf)]
        | none => rw [level_inherited hf, level_inherited ((hset name hname).trans hf), ih]
      · cases hl : l.own? name with
        | some s => rw [level_of_own hl, hleft name hown hname s hl]
        | none => rw [level_inherited hl, level_inherited (hunset name hown hname), ih]

/-! ### Setting many levels -/

/-- A list of levels has one for a logger. -/
def Names (ms : List (Value × String)) (name : String) : Prop :=
  ∃ m ∈ ms, ∃ other, nameOf m.1 = .ok other ∧ key other = key name

/-- Whether a level can be set, and which, does not depend on the levels there are. -/
theorem assign_cases (k : Value) (word : String) :
    (∃ e, ∀ l : Loggers, l.assign k word = .error e) ∨
      ∃ name s, nameOf k = .ok name ∧ ∀ l : Loggers, l.assign k word = .ok (l.set name s) := by
  cases hname : nameOf k with
  | error e => exact .inl ⟨e, fun l => by simp [assign, hname, bind, Except.bind]⟩
  | ok name =>
    cases hs : Severity.read word with
    | error e => exact .inl ⟨e, fun l => by simp [assign, hname, hs, bind, Except.bind]⟩
    | ok s =>
      exact .inr ⟨name, s, rfl, fun l => by
        simp [assign, hname, hs, bind, Except.bind, pure, Except.pure]⟩

theorem assignAll_failure (l f : Loggers) (ms : List (Value × String)) :
    (l.assignAll ms).2 = (f.assignAll ms).2 := by
  induction ms generalizing l f with
  | nil => rfl
  | cons m ms ih =>
    obtain ⟨e, h⟩ | ⟨name, s, -, h⟩ := assign_cases m.1 m.2
    · simp [assignAll, h]
    · simp [assignAll, h, ih (l.set name s) (f.set name s)]

theorem own?_assignAll_congr {l f : Loggers} {name : String} (h : l.own? name = f.own? name)
    (ms : List (Value × String)) :
    (l.assignAll ms).1.own? name = (f.assignAll ms).1.own? name := by
  induction ms generalizing l f with
  | nil => exact h
  | cons m ms ih =>
    obtain ⟨e, hm⟩ | ⟨other, s, -, hm⟩ := assign_cases m.1 m.2
    · simp [assignAll, hm, h]
    · simp only [assignAll, hm]
      apply ih
      rw [own?_set, own?_set, h]

/-- Levels that are set do not depend on the levels there were. -/
theorem own?_assignAll_of_names {name : String} {ms : List (Value × String)} (h : Names ms name)
    {l : Loggers} (hdone : (l.assignAll ms).2 = none) (f : Loggers) :
    (l.assignAll ms).1.own? name = (f.assignAll ms).1.own? name := by
  induction ms generalizing l f with
  | nil =>
    obtain ⟨m, hm, -⟩ := h
    cases hm
  | cons m ms ih =>
    obtain ⟨e, hassign⟩ | ⟨other, s, hother, hassign⟩ := assign_cases m.1 m.2
    · simp [assignAll, hassign] at hdone
    · simp only [assignAll, hassign] at hdone ⊢
      by_cases hkey : key other = key name
      · apply own?_assignAll_congr
        rw [own?_set, own?_set, if_pos hkey.symm, if_pos hkey.symm]
      · refine ih ?_ hdone _
        obtain ⟨m', hm, other', hother', hkey'⟩ := h
        obtain rfl | hm := List.mem_cons.1 hm
        · cases hother.symm.trans hother'
          exact absurd hkey' hkey
        · exact ⟨m', hm, other', hother', hkey'⟩

/-- Other levels stay as they are. -/
theorem own?_assignAll_of_not_names {name : String} {ms : List (Value × String)}
    (h : ¬ Names ms name) (l : Loggers) : (l.assignAll ms).1.own? name = l.own? name := by
  induction ms generalizing l with
  | nil => rfl
  | cons m ms ih =>
    have hrest : ¬ Names ms name := fun ⟨m', hm, hname⟩ => h ⟨m', .tail _ hm, hname⟩
    obtain ⟨e, hassign⟩ | ⟨other, s, hother, hassign⟩ := assign_cases m.1 m.2
    · simp [assignAll, hassign]
    · have hkey : key name ≠ key other := fun hkey => h ⟨m, .head _, other, hother, hkey.symm⟩
      simp only [assignAll, hassign]
      rw [ih hrest, own?_set, if_neg hkey]

end Loggers

end Sieve
