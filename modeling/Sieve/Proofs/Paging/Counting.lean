import Sieve.Proofs.Paging.Neighbours
import Sieve.Proofs.Validation.Settled

/-!
# Counting the pages of valid requests

A valid request for a page, for rows from an offset on or for everything asks for natural numbers of rows.
The pages are counted by dividing them as doubles. The counts are right as far as doubles go: not where
they have no room for the last page beside the others, and there are none where a quotient is out of range.

* `Request.exists_place`: the offset that a request comes to;
* `Meta.Counts`: which counts are right;
* `Request.Counted`: what counting comes to;
* `Params.validateWith_counts`: the pages of valid requests;
* `Params.validateWith_uncounted`: a valid request of which the pages cannot be counted.
-/

namespace Sieve

open Binary64 (Divides overflow underflow)

/-! ### Offsets -/

namespace Value

/-- An integer that is at least another one. -/
theorem Whole.exists_nat {v : Value} (hv : v.Whole) {k : ℕ} (h : v.AtLeast k) :
    ∃ n : ℕ, k ≤ n ∧ v = .int n := by
  rcases hv with rfl | ⟨i, rfl⟩
  · exact absurd rfl h.ne_null
  · rw [AtLeast, Validation.precedes_le_int, Except.ok.injEq, decide_eq_true_iff] at h
    obtain ⟨n, rfl⟩ := Int.eq_ofNat_of_zero_le ((Int.natCast_nonneg k).trans h)
    exact ⟨n, by exact_mod_cast h, rfl⟩

end Value

namespace Pagination

variable {p : Pagination}

theorem Plain.size (hp : p.Plain) : p.size.Whole := by
  unfold Pagination.size
  split
  · exact hp.pageSize
  · exact hp.first
  · exact hp.last
  · exact hp.limit

/-- Without a cursor a page that is given is what is asked for. -/
theorem strategy?_page (hcursor : p.strategy?.any Strategy.byCursor = false)
    (hpage : p.page ≠ .null) : p.strategy? = some .page := by
  have huses : p.uses .page = true := by
    have hgiven : p.page.isNull = false := Bool.not_eq_true _ ▸ mt Value.isNull_iff.1 hpage
    simp [uses, parameters, hgiven]
  revert hcursor
  simp only [strategy?, Strategy.all, List.find?_cons, huses]
  cases p.uses .first <;> cases p.uses .last <;> simp [Strategy.byCursor]

/-- The rows to skip are a natural number, where a number of them is given. -/
theorem exists_skip (hp : p.Plain) (hbounds : p.InBounds)
    (hcursor : p.strategy?.any Strategy.byCursor = false) (hsize : p.size = .null ∨ p.size.AtLeast 1) :
    p.skip = .ok .null ∨ ∃ place : ℕ, p.skip = .ok (.int place) := by
  unfold skip
  split
  · rcases hbounds.offset with hnull | hleast
    · exact .inl (congrArg _ hnull)
    · obtain ⟨place, _, hplace⟩ := hp.offset.exists_nat (k := 0) hleast
      exact .inr ⟨place, congrArg _ hplace⟩
  · next hgiven =>
    simp only [Bool.or_eq_true, Value.isNull_iff, not_or] at hgiven
    have hpaged : p.size = p.pageSize := by
      rw [size, strategy?_page hcursor hgiven.1]
    rw [hpaged] at hsize
    obtain ⟨page, hone, hpage⟩ := hp.page.exists_nat (k := 1) (hbounds.page.resolve_left hgiven.1)
    obtain ⟨size, _, hsize⟩ := hp.pageSize.exists_nat (k := 1) (hsize.resolve_left hgiven.2)
    refine .inr ⟨(page - 1) * size, ?_⟩
    rw [hpage, hsize, Value.minus_int, Outcome.ok_bind, Value.times_int]
    push_cast [hone]
    rfl

end Pagination

namespace Request

variable {r : Request}

/-- **A request without a cursor comes to an offset**, where there are rows on its pages. -/
theorem exists_place (hp : r.pagination.Plain) (hbounds : r.pagination.InBounds)
    (hcursor : r.byCursor = false) (hsize : r.size = .null ∨ r.size.AtLeast 1) :
    ∃ place : ℕ, r.skipOrZero = .ok (.int place) := by
  rcases Pagination.exists_skip hp hbounds hcursor hsize with hskip | ⟨place, hskip⟩
  · exact ⟨0, by rw [skipOrZero, skip, hskip]; rfl⟩
  · refine ⟨place, ?_⟩
    rw [skipOrZero, skip, hskip]
    exact congrArg Except.ok (windowStart_nat place)

end Request

/-! ### Counts -/

namespace Meta

variable {r : Request} {place size total : ℕ}

/-- Which counts are right: the number of pages where doubles do not get in the way of it, and the current
page where they do not get in the way of the offset either, or it does not matter. -/
structure Counts (m : Meta) (place size total : ℕ) : Prop where
  pages : Divides total size → m.totalPages = .int (upward total size)
  noPages : total * underflow ≤ size → m.totalPages = .int 0
  page : total ≤ size ∨ Divides total size ∧ (total ≤ place ∨ Divides place size) →
    m.currentPage = .int (pageAt place size total)

/-- Without a cursor the data follow from the number of rows. -/
theorem of_total {f : Findings} (hcursor : r.byCursor = false) (hf : f.totalCount = .int total) :
    of r f = ofOffset r (.int total) := by
  rw [of, show r.strategy?.any Strategy.byCursor = false from hcursor, hf]
  exact congrArg (ofOffset r) (windowStart_nat total)

/-- Without a number of rows on a page everything is on one page. -/
theorem ofOffset_unsized (hskip : r.skipOrZero = .ok (.int place)) (hsize : r.size = .null)
    (total : ℕ) : ∃ m, ofOffset r (.int total) = .ok m ∧
      m.totalPages = .int (if total = 0 then 0 else 1) ∧ m.currentPage = .int 1 := by
  have hskips : skips (.int place) = .ok (decide (0 < (place : ℤ))) := by
    rw [skips, Value.precedes_int_eq]
  have hpages : pagesOf (.int total) .null = .ok (.int (if total = 0 then 0 else 1)) := by
    rw [pagesOf, Value.equal_int]
    rcases Nat.eq_zero_or_pos total with rfl | hpos
    · rfl
    · rw [beq_eq_false_iff_ne.2 (by omega), if_neg hpos.ne']
      rfl
  rw [ofOffset, hskip, hsize, Outcome.ok_bind, hpages, Outcome.ok_bind, if_neg (by decide), unpaged,
    hskips]
  exact ⟨_, rfl, rfl, rfl⟩

end Meta

namespace Request

/-- What it comes to that the pages of a request are counted, which skips some rows, for a number of rows
in all. -/
inductive Counted (r : Request) (place total : ℕ) : Except Error Meta → Prop
  /-- Everything is on one page, if there is anything. -/
  | unsized {m : Meta} (hsize : r.size = .null)
      (hpages : m.totalPages = .int (if total = 0 then 0 else 1))
      (hpage : m.currentPage = .int 1) : Counted r place total (.ok m)
  /-- A quotient is out of range. -/
  | overflows {size : ℕ} (hs : 0 < size) (hsize : r.size = .int size)
      (hgreat : overflow * size ≤ place ∨ overflow * size ≤ total) :
      Counted r place total (.error .overflow)
  /-- The pages are counted. -/
  | sized {size : ℕ} {m : Meta} (hs : 0 < size) (hsize : r.size = .int size)
      (hplace : place < overflow * size) (htotal : total < overflow * size)
      (hcounts : m.Counts place size total) : Counted r place total (.ok m)

/-- **Counting the pages of a request.** -/
theorem counted {r : Request} {place : ℕ} (hskip : r.skipOrZero = .ok (.int place))
    (hsize : r.size = .null ∨ ∃ size : ℕ, 0 < size ∧ r.size = .int size) (total : ℕ) :
    r.Counted place total (Meta.ofOffset r (.int total)) := by
  rcases hsize with hsize | ⟨size, hs, hsize⟩
  · obtain ⟨m, hm, hpages, hpage⟩ := Meta.ofOffset_unsized hskip hsize total
    rw [hm]
    exact .unsized hsize hpages hpage
  · rcases Meta.ofOffset_outcome hskip hsize hs total with
      ⟨hgreat, hm⟩ | ⟨⟨hplace, htotal⟩, current, pages, hskipped, hcounted, hm⟩
    · rw [hm]
      exact .overflows hs hsize hgreat
    · rw [hm]
      exact .sized hs hsize hplace htotal
        { pages := fun hdivides => congrArg (Value.int ∘ Nat.cast) (hcounted.exact hdivides)
          noPages := fun htiny => congrArg (Value.int ∘ Nat.cast) (hcounted.tiny htiny)
          page := fun h => congrArg (Value.int ∘ Nat.cast)
            (Meta.current_eq_pageAt hs hskipped hcounted h) }

end Request

/-! ### Valid requests -/

namespace Params

open Checking Validation

variable {schema : Option Schema} {o : Options} {params : Params} {r : Request}

/-- Where limits and members of enumerations are integers, so are all numbers of a valid request, and its
page and offset exist. -/
theorem validateWith_plain (ho : o.LimitsWhole) (hmembers : params.MembersWhole)
    (h : (params.validateWith schema o).outcome = .ok r) :
    r.pagination.Plain ∧ r.pagination.InBounds := by
  obtain ⟨es, hes, h⟩ := validateWith_eq_ok_iff.1 h
  obtain ⟨given, used, hscalars, hused, _, _, hpagination⟩ := clean_request_iff.1 h
  have hplain : given.pagination.Plain := by
    rw [scalars_read hscalars]
    refine plain_read ?_
    rintro es' ⟨⟩
    exact hmembers es hes
  refine ⟨(pagination_rechecked ho hplain hused hpagination).plain,
    (pagination_settled hused hpagination).2 ?_ ?_⟩
  · rcases hplain.page with hpage | ⟨i, hpage⟩ <;> rw [hpage]
    · exact Value.not_eludesBounds_null
    · exact Value.not_eludesBounds_int i
  · rcases hplain.offset with hoffset | ⟨i, hoffset⟩ <;> rw [hoffset] <;> nofun

/-- **The pages of a valid request** for a page, for rows from an offset on or for everything. -/
theorem validateWith_counts (ho : o.LimitsWhole) (hmembers : params.MembersWhole)
    (h : (params.validateWith schema o).outcome = .ok r) (hcursor : r.byCursor = false)
    (hsize : r.size = .null ∨ r.size.AtLeast 1) {f : Meta.Findings} {total : ℕ}
    (hf : f.totalCount = .int total) :
    ∃ place : ℕ, r.skipOrZero = .ok (.int place) ∧ r.Counted place total (Meta.of r f) := by
  obtain ⟨hplain, hbounds⟩ := validateWith_plain ho hmembers h
  obtain ⟨place, hskip⟩ := Request.exists_place hplain hbounds hcursor hsize
  rw [Meta.of_total hcursor hf]
  refine ⟨place, hskip, Request.counted hskip (hsize.imp_right fun hleast => ?_) total⟩
  obtain ⟨size, hone, hsize⟩ := hplain.size.exists_nat (k := 1) hleast
  exact ⟨size, hone, hsize⟩

/-- The third page of twenty rows, of 45 rows in all. -/
theorem validateWith_counts_thirdPage :
    limited.LimitsWhole ∧ (entries thirdPage).MembersWhole ∧
    ∃ r, ((entries thirdPage).validateWith none limited).outcome = .ok r ∧ r.byCursor = false ∧
      r.size = .int 20 ∧ r.skipOrZero = .ok (.int 40) ∧
      r.Counted 40 45 (Meta.of r ⟨.int 45, .int 0, .null, .null, .bool false⟩) := by
  have hvalid : ((entries thirdPage).validateWith none limited).outcome = .ok
      ⟨[.group .all [.condition ⟨"a", .eq, .int 1⟩, .condition ⟨"b", .lt, .int 2⟩]], none, none,
        { Pagination.empty with page := .int 3, pageSize := .int 20 }, none⟩ := rfl
  have hleast : (Value.int 20).AtLeast 1 := by
    rw [Value.AtLeast, precedes_le_int]
    rfl
  have htotal : (⟨.int 45, .int 0, .null, .null, .bool false⟩ : Meta.Findings).totalCount =
      .int (45 : ℕ) := rfl
  obtain ⟨place, hskip, hcounted⟩ := validateWith_counts limitsWhole_limited membersWhole_thirdPage
    hvalid rfl (.inr hleast) htotal
  have hplace : (40 : ℤ) = place := Value.int.inj (Except.ok.inj hskip)
  rw [show place = 40 by omega] at hcounted
  exact ⟨limitsWhole_limited, membersWhole_thirdPage, _, hvalid, rfl, rfl, rfl, hcounted⟩

/-- A page of a single row, behind some others. -/
def farPage (n : ℕ) : List (Value × Value) :=
  [(.text "page", .int (n + 1)), (.text "page_size", .int 1)]

theorem farPage_valid (n : ℕ) :
    ((entries (farPage n)).validateWith none admitting).outcome =
      .ok (Request.all.onPage (n + 1) 1) := by
  have hpage : Value.precedes true (.int (n + 1)) (.int 0) = .ok false := by
    rw [precedes_le_int, decide_eq_false (by omega)]
  have hgiven : Value.int (n + 1) ≠ .null := by simp
  refine validateWith_eq_ok_iff.2 ⟨_, rfl, clean_request_iff.2
    ⟨⟨none, none, alone .page (.int (n + 1)) (.int 1)⟩, some .page, (clean_scalars_iff rfl).2 rfl, rfl, rfl, rfl, ?_⟩⟩
  rw [pagination_of_admits rfl, parameters,
    clean_bind_iff fun _ => adds_bind (adds_atLeast _ _ _ _ _) fun _ => adds_pure _]
  exact ⟨.int 1, rfl, (clean_bind_iff fun _ => adds_pure _).2
    ⟨.int (n + 1), clean_atLeast_self hgiven hpage, clean_pure_iff.2 rfl⟩⟩

theorem farPage_overflows {n : ℕ} (h : overflow ≤ n) (total : ℕ) :
    Meta.ofOffset (Request.all.onPage (n + 1) 1) (.int total) = .error .overflow := by
  have hcuts := Request.onPage_cuts .all (n + 1) 1
  rw [add_sub_cancel_right, mul_one] at hcuts
  rcases Meta.ofOffset_outcome hcuts.skipOrZero hcuts.size one_pos total with
    ⟨_, hm⟩ | ⟨⟨hbelow, _⟩, _⟩
  · exact hm
  · rw [Nat.mul_one] at hbelow
    omega

/-- **The pages of a valid request may be impossible to count.** Here `2 ^ 1024` rows are skipped, for
which there is no double. -/
theorem validateWith_uncounted : ∃ r,
    ((entries (farPage (2 ^ 1024))).validateWith none admitting).outcome = .ok r ∧
      r.byCursor = false ∧ r.size = .int 1 ∧
      Meta.of r ⟨.int 1, .int 0, .null, .null, .bool false⟩ = .error .overflow := by
  have hgreat : overflow ≤ 2 ^ 1024 := by
    obtain ⟨k, hk⟩ : ∃ k, k = 970 := ⟨_, rfl⟩
    rw [Binary64.overflow_eq hk, show 1024 = 54 + k by omega, Nat.pow_add]
    exact Nat.mul_le_mul_right _ (Nat.sub_le _ 1)
  have htotal : (⟨.int 1, .int 0, .null, .null, .bool false⟩ : Meta.Findings).totalCount =
      .int (1 : ℕ) := rfl
  refine ⟨_, farPage_valid _, rfl, rfl, ?_⟩
  exact (Meta.of_total rfl htotal).trans (farPage_overflows hgreat 1)

end Params

end Sieve
