import Sieve.Proofs.Paging.Page
import Sieve.Proofs.Validation.Reread

/-!
# Steps by a page

A request for a page, and one for rows from an offset on, has two kinds of neighbours: the next and the
previous page, and the next and the previous offset. The offsets are those a page away from the rows that
are skipped, for both kinds of requests. The pages are found from the number of the page alone, and a
request for an offset has none: its neighbours are those of the first page, wherever it stands.

* `Request.Sized`: requests for a page, or for rows from an offset on, of a given size;
* `Request.Sized.stands`: the page that a request stands on, beside the rows that it skips;
* `Request.Sized.steps`: where the four steps lead, and when they agree;
* `Request.nextPage_behind`: a request for an offset whose next page is behind it.
-/

namespace Sieve

namespace Request

open Outcome Validation

variable {r : Request} {size offset page : ℤ}

/-- The request asks for some number of rows from an offset on, or for a page of this size. The offset and
the number of the page may be missing. -/
inductive Sized (size : ℤ) (r : Request) : Prop
  | offset {o : Value} (ho : o.Whole) (h : r.pagination = alone .offset (.int size) o)
  | page {p : Value} (hp : p.Whole) (h : r.pagination = alone .page p (.int size))

/-! ### Steps from a page and from an offset -/

theorem nextPage_of_currentPage (hsize : r.size = .int size) (hpage : r.currentPage = .int page) :
    r.nextPage .null = .ok (r.onPage (max 1 (page + 1)) size) := by
  rw [nextPage, hpage, Value.plus_int, ok_bind]
  show r.toPage (.int (page + 1)) = _
  rw [toPage_int, hsize]
  rfl

theorem previousPage_of_currentPage (hsize : r.size = .int size)
    (hpage : r.currentPage = .int page) :
    r.previousPage = .ok (r.onPage (max 1 (page - 1)) size) := by
  rw [previousPage, hpage, Value.minus_int, ok_bind, toPage_int, hsize]
  rfl

theorem sizeOrZero_of_size (hsize : r.size = .int size) : r.sizeOrZero = .int size := by
  rw [sizeOrZero, hsize]
  by_cases hzero : size = 0
  · rw [hzero]
    rfl
  · simp [Value.truthy, hzero]

theorem nextOffset_of_skip (hsize : r.size = .int size) (hskip : r.skipOrZero = .ok (.int offset)) :
    r.nextOffset .null = .ok (r.fromOffset (max 0 (offset + size)) size) := by
  rw [nextOffset, hskip, ok_bind, sizeOrZero_of_size hsize, Value.plus_int, ok_bind]
  show r.toOffset (.int (offset + size)) = _
  rw [toOffset_int, hsize]
  rfl

theorem previousOffset_of_skip (hsize : r.size = .int size)
    (hskip : r.skipOrZero = .ok (.int offset)) :
    r.previousOffset = .ok (r.fromOffset (max 0 (offset - size)) size) := by
  rw [previousOffset, hskip, ok_bind, sizeOrZero_of_size hsize, Value.minus_int, ok_bind,
    toOffset_int, hsize]
  rfl

theorem skip_onPage_iff (r : Request) (page size offset : ℤ) :
    (r.onPage page size).skip = .ok (.int offset) ↔ (page - 1) * size = offset := by
  rw [(onPage_cuts r page size).skip, Except.ok.injEq, Value.int.injEq]

/-! ### Where a request stands -/

theorem skipOrZero_of_skip (h : r.skip = .ok (.int offset)) : r.skipOrZero = .ok (.int offset) := by
  rw [skipOrZero, h, ok_bind]
  by_cases hzero : offset = 0
  · rw [hzero]
    rfl
  · simp [Value.truthy, hzero]

theorem skipOrZero_of_null (h : r.skip = .ok .null) : r.skipOrZero = .ok (.int 0) := by
  rw [skipOrZero, h]
  rfl

theorem Sized.size_eq (h : r.Sized size) : r.size = .int size := by
  cases h with
  | offset ho h =>
    rw [Request.size, h]
    rfl
  | page hp h =>
    rw [Request.size, h]
    rcases hp with rfl | ⟨p, rfl⟩ <;> rfl

/-- A request for an offset stands on the first page, whatever it skips. -/
theorem stands_offset {o : Value} (ho : o.Whole)
    (h : r.pagination = alone .offset (.int size) o) :
    r.strategy? = some .offset ∧ r.currentPage = .int 1 ∧
      ∃ offset, r.skipOrZero = .ok (.int offset) := by
  have hskip : r.skip = .ok o := by
    rw [Request.skip, h]
    rfl
  refine ⟨?_, ?_, ?_⟩
  · rw [Request.strategy?, h]
    rfl
  · rw [currentPage, h]
    rfl
  · rcases ho with rfl | ⟨offset, rfl⟩
    · exact ⟨0, skipOrZero_of_null hskip⟩
    · exact ⟨offset, skipOrZero_of_skip hskip⟩

/-- A request for a page skips the pages in front of the one it stands on, except that one for page zero
stands on the first page. -/
theorem stands_page {p : Value} (hp : p.Whole) (h : r.pagination = alone .page p (.int size)) :
    r.strategy? = some .page ∧ ∃ page offset, r.currentPage = .int page ∧
      r.skipOrZero = .ok (.int offset) ∧
      (page = 1 ∧ offset = -size ∨ page ≠ 0 ∧ offset = (page - 1) * size) := by
  have hstrategy : r.strategy? = some .page := by
    rw [Request.strategy?, h]
    rcases hp with rfl | ⟨p, rfl⟩ <;> rfl
  refine ⟨hstrategy, ?_⟩
  rcases hp with rfl | ⟨p, rfl⟩
  · have hskip : r.skip = .ok .null := by
      rw [Request.skip, h]
      rfl
    refine ⟨1, 0, ?_, skipOrZero_of_null hskip, .inr ⟨one_ne_zero, by ring⟩⟩
    rw [currentPage, h]
    rfl
  · have hskip : r.skip = .ok (.int ((p - 1) * size)) := by
      rw [Request.skip, h]
      exact Pagination.skip_page rfl rfl
    by_cases hzero : p = 0
    · subst hzero
      refine ⟨1, (0 - 1) * size, ?_, skipOrZero_of_skip hskip, .inl ⟨rfl, by ring⟩⟩
      rw [currentPage, h]
      rfl
    · refine ⟨p, (p - 1) * size, ?_, skipOrZero_of_skip hskip, .inr ⟨hzero, rfl⟩⟩
      rw [currentPage, h]
      simp [alone, Value.truthy, hzero]

/-! ### Where the steps lead -/

section Pages

variable (hsize : 1 ≤ size)
  (hstands : page = 1 ∧ offset = -size ∨ page ≠ 0 ∧ offset = (page - 1) * size)
include hsize hstands

/-- The next page begins a page behind the rows that are skipped, unless the page does not exist. -/
theorem next_iff : (max 1 (page + 1) - 1) * size = offset + size ↔ 0 ≤ offset := by
  rcases hstands with ⟨rfl, rfl⟩ | ⟨hpage, rfl⟩
  · norm_num
    omega
  · rcases lt_or_gt_of_ne hpage with hneg | hpos
    · have hmax : max 1 (page + 1) = 1 := max_eq_left (by omega)
      have hlow : (page - 1) * size < 0 := mul_neg_of_neg_of_pos (by omega) (by omega)
      have hlow' : (page - 1) * size + size < 0 := by nlinarith
      rw [hmax]
      constructor <;> intro h <;> omega
    · have hmax : max 1 (page + 1) = page + 1 := max_eq_right (by omega)
      have hhigh : 0 ≤ (page - 1) * size := mul_nonneg (by omega) (by omega)
      rw [hmax]
      exact iff_of_true (by ring) hhigh

/-- The previous page begins a page in front of the rows that are skipped, or with the first row. -/
theorem previous_eq : (max 1 (page - 1) - 1) * size = max 0 (offset - size) := by
  rcases hstands with ⟨rfl, rfl⟩ | ⟨_, rfl⟩
  · rw [max_eq_left (by omega : -size - size ≤ 0)]
    norm_num
  · have hback : (page - 1) * size - size = (page - 2) * size := by ring
    rw [hback]
    rcases le_or_gt page 2 with hfirst | hlater
    · rw [max_eq_left (by omega : page - 1 ≤ 1),
        max_eq_left (mul_nonpos_of_nonpos_of_nonneg (by omega : page - 2 ≤ 0) (by omega))]
      ring
    · rw [max_eq_right (by omega : 1 ≤ page - 1),
        max_eq_right (mul_nonneg (by omega : 0 ≤ page - 2) (by omega))]
      ring

end Pages

/-- **Steps to neighbouring pages and to neighbouring offsets.** The offsets are a page away from the rows
that are skipped. The next page is there as well if these are none, or if the request is for a page that
exists; the previous one if they are at most one page, or if the request is for a page. -/
theorem Sized.steps (h : r.Sized size) (hsize : 1 ≤ size) : ∃ offset next previous : ℤ,
    r.skipOrZero = .ok (.int offset) ∧
    r.nextPage .null = .ok (r.onPage next size) ∧
    r.previousPage = .ok (r.onPage previous size) ∧
    r.nextOffset .null = .ok (r.fromOffset (max 0 (offset + size)) size) ∧
    r.previousOffset = .ok (r.fromOffset (max 0 (offset - size)) size) ∧
    ((r.onPage next size).skip = .ok (.int (offset + size)) ↔
      offset = 0 ∨ 0 ≤ offset ∧ r.strategy? = some .page) ∧
    ((r.onPage previous size).skip = .ok (.int (max 0 (offset - size))) ↔
      offset ≤ size ∨ r.strategy? = some .page) := by
  have hrows : r.size = .int size := h.size_eq
  cases h with
  | offset ho h =>
    obtain ⟨hstrategy, hpage, offset, hskip⟩ := stands_offset ho h
    refine ⟨offset, _, _, hskip, nextPage_of_currentPage hrows hpage,
      previousPage_of_currentPage hrows hpage, nextOffset_of_skip hrows hskip,
      previousOffset_of_skip hrows hskip, ?_, ?_⟩
    · -- The next page is the second one, so it begins with the first row behind the first page.
      rw [skip_onPage_iff, hstrategy]
      simp
    · -- The previous page is the first one.
      rw [skip_onPage_iff, hstrategy]
      have hfirst : (max 1 (1 - 1) - 1 : ℤ) * size = 0 := by simp
      rw [hfirst]
      simp only [Option.some.injEq, reduceCtorEq, or_false]
      omega
  | page hp h =>
    obtain ⟨hstrategy, page, offset, hpage, hskip, hstands⟩ := stands_page hp h
    refine ⟨offset, _, _, hskip, nextPage_of_currentPage hrows hpage,
      previousPage_of_currentPage hrows hpage, nextOffset_of_skip hrows hskip,
      previousOffset_of_skip hrows hskip, ?_, ?_⟩
    · rw [skip_onPage_iff, and_iff_left hstrategy, next_iff hsize hstands]
      omega
    · rw [skip_onPage_iff, iff_true_right (.inr hstrategy)]
      exact previous_eq hsize hstands

/-- From the third of some pages the steps lead to the fourth and to the second one. -/
theorem steps_thirdPage :
    (all.onPage 3 10).Sized 10 ∧
    ∃ next previous : ℤ,
      (all.onPage 3 10).nextPage .null = .ok ((all.onPage 3 10).onPage next 10) ∧
      ((all.onPage 3 10).onPage next 10).skip = .ok (.int 30) ∧
      (all.onPage 3 10).previousPage = .ok ((all.onPage 3 10).onPage previous 10) ∧
      ((all.onPage 3 10).onPage previous 10).skip = .ok (.int 10) := by
  have hsized : (all.onPage 3 10).Sized 10 := .page (.inr ⟨3, rfl⟩) rfl
  have hskip : (all.onPage 3 10).skipOrZero = .ok (.int 20) := rfl
  obtain ⟨offset, next, previous, hoffset, hnext, hprevious, _, _, hnext?, hprevious?⟩ :=
    hsized.steps (by norm_num)
  rw [hskip, Except.ok.injEq, Value.int.injEq] at hoffset
  subst hoffset
  exact ⟨hsized, next, previous, hnext, hnext?.2 (.inr ⟨by norm_num, rfl⟩), hprevious,
    hprevious?.2 (.inr rfl)⟩

/-- **The next page of a request for an offset may lie in front of its rows**: from the third ten rows on
the next offset is 30, but the next page is the second one, which begins with offset 10. -/
theorem nextPage_behind :
    (all.fromOffset 20 10).Sized 10 ∧
    (all.fromOffset 20 10).skipOrZero = .ok (.int 20) ∧
    (all.fromOffset 20 10).nextOffset .null = .ok ((all.fromOffset 20 10).fromOffset 30 10) ∧
    (all.fromOffset 20 10).nextPage .null = .ok ((all.fromOffset 20 10).onPage 2 10) ∧
    ((all.fromOffset 20 10).onPage 2 10).skip = .ok (.int 10) ∧
    ((all.fromOffset 20 10).onPage 2 10).skip ≠ .ok (.int (20 + 10)) := by
  refine ⟨.offset (.inr ⟨20, rfl⟩) rfl, rfl, rfl, rfl, rfl, ?_⟩
  rw [ne_eq, skip_onPage_iff]
  norm_num

end Request

end Sieve
