import Sieve.Proofs.Paging.Page

/-!
# Neighbours of any place

Rows may be asked for from any offset on, also from inside of a page or from behind the last row. The page
of such an offset is found by rounding up, and is the last one at most, whereas it is the offset itself
that says whether there are rows in front of the answer and after it. Both views agree up to the last
page, and there they come apart.

* `Meta.pageAt`: the page of an offset;
* `Meta.current_eq_pageAt`: it is what the program computes, as far as doubles allow;
* `Meta.ofOffset_outcome`: the data for any offset and any number of rows, or the failure;
* `Meta.Neighbours`, `Meta.ofOffset_neighbours`: what the data say about the pages and offsets next to
  the answer.
-/

namespace Sieve

namespace Meta

open Binary64 (Divides RoundedUp overflow underflow)

variable {r : Request} {offset size total current pages : ℕ}

/-- The page of an offset: the first one that begins there or later, if it exists, and else the last
one. The first page exists even without rows. -/
def pageAt (offset size total : ℕ) : ℕ :=
  max 1 (min (upward offset size + 1) (upward total size))

theorem one_le_pageAt (offset size total : ℕ) : 1 ≤ pageAt offset size total := le_max_left _ _

/-- There is a page in front where something is skipped, and more rows than the page has. -/
theorem one_lt_pageAt_iff (hs : 0 < size) :
    1 < pageAt offset size total ↔ 0 < offset ∧ size < total := by
  have hskipped : 0 < upward offset size ↔ 0 < offset := by
    rw [lt_upward_iff hs, Nat.zero_mul]
  have hmore : 1 < upward total size ↔ size < total := by
    rw [lt_upward_iff hs, Nat.one_mul]
  rw [← hskipped, ← hmore, pageAt]
  omega

/-- Where rows follow, there is a page after the page of the offset, unless the offset is inside of the
page before the last one. -/
theorem pageAt_of_more (hs : 0 < size) (hmore : offset + size < total) :
    pageAt offset size total ≤ upward total size ∧
      (pageAt offset size total = upward total size → ¬size ∣ offset) := by
  have hpages : upward offset size < upward total size :=
    (lt_upward_iff hs).2 ((upward_mul_lt offset hs).trans hmore)
  constructor
  · rw [pageAt]
    omega
  · rintro heq ⟨i, rfl⟩
    have hbefore : i + 1 < upward total size := by
      rw [lt_upward_iff hs, Nat.succ_mul, Nat.mul_comm]
      exact hmore
    rw [Nat.mul_comm, pageAt, upward_mul i hs] at heq
    omega

/-! ### What the program computes -/

/-- As few rows as fit on a page are divided as they should, or the double is zero. -/
theorem divides_or_tiny (hs : 0 < size) (h : total ≤ size) :
    Divides total size ∨ total * underflow ≤ size := by
  rcases Nat.eq_zero_or_pos total with hzero | hpos
  · exact .inl (.inl hzero)
  · obtain ⟨c, _, hparts, hlast, _⟩ := exists_lastPart hs hpos
    have hone : c = 0 := by
      by_contra hne
      have hfull : size ≤ c * size := Nat.le_mul_of_pos_left size (Nat.pos_of_ne_zero hne)
      omega
    rw [hone, Nat.zero_mul, Nat.zero_add] at hparts
    refine (Nat.lt_or_ge size (total * underflow)).imp_left fun hsmall => .inr ⟨?_, hsmall⟩
    rw [← hparts]
    omega

/-- **The page that the program computes**, from an offset and a number of rows that were divided. It is
the page of the offset where there is one page only, and elsewhere as far as doubles do not get in the way
of the number of pages, nor of the offset unless it is behind all rows. -/
theorem current_eq_pageAt (hs : 0 < size) (hskipped : RoundedUp offset size current)
    (hcounted : RoundedUp total size pages)
    (h : total ≤ size ∨ Divides total size ∧ (total ≤ offset ∨ Divides offset size)) :
    (if pages = 0 then 1 else max 1 (min (current + 1) pages)) = pageAt offset size total := by
  rcases h with hfew | ⟨hdivides, hplace⟩
  · -- Both are the first page.
    have hfirst : ¬1 < pageAt offset size total := fun hlt =>
      absurd ((one_lt_pageAt_iff hs).1 hlt).2 (not_lt.2 hfew)
    have hpages : pages ≤ 1 := by
      rcases divides_or_tiny hs hfew with hdivides | htiny
      · rw [hcounted.exact hdivides, ← not_lt, lt_upward_iff hs]
        omega
      · rw [hcounted.tiny htiny]
        exact Nat.zero_le 1
    have hleast := one_le_pageAt offset size total
    split <;> omega
  · rw [hcounted.exact hdivides, pageAt]
    rcases hplace with hbehind | hdivides'
    · -- Behind all rows it is the last page, however the offset is rounded.
      have hlast : upward total size ≤ upward offset size + 1 :=
        (upward_mono size hbehind).trans (Nat.le_succ _)
      have hlast' : upward total size ≤ current + 1 := by
        have hfull : (upward total size - 1) * size ≤ offset := by
          rw [Nat.sub_mul, Nat.one_mul]
          have hparts := upward_mul_lt total hs
          omega
        have hleast := hskipped.least _ hfull ((Nat.sub_le _ 1).trans (hdivides.upward_le hs))
        omega
      split <;> omega
    · rw [hskipped.exact hdivides']
      split <;> omega

/-- **The data for any offset and any number of rows**, or the failure where one of the quotients is out of
range. -/
theorem ofOffset_outcome (hskip : r.skipOrZero = .ok (.int offset)) (hsize : r.size = .int size)
    (hs : 0 < size) (total : ℕ) :
    (overflow * size ≤ offset ∨ overflow * size ≤ total) ∧
        ofOffset r (.int total) = .error .overflow ∨
      (offset < overflow * size ∧ total < overflow * size) ∧ ∃ current pages : ℕ,
        RoundedUp offset size current ∧ RoundedUp total size pages ∧
        ofOffset r (.int total) = .ok (ofPlace r offset size total pages
          (if pages = 0 then 1 else max 1 (min (current + 1) pages))) := by
  have htruthy : (Value.int size).truthy = true := bne_iff_ne.2 (by omega)
  have hform : ofOffset r (.int total) =
      (Value.int <$> (Value.int total).ceilQuotient (.int size)) >>= fun pages =>
        pageOf (.int offset) (.int size) pages >>= fun page =>
          paged r (.int offset) (.int size) (.int total) pages page := by
    rw [ofOffset, hskip, Outcome.ok_bind, hsize, pagesOf_quotient total hs]
    simp only [htruthy, if_true]
  rw [hform]
  rcases Value.ceilQuotient_outcome total hs with
    ⟨hgreat, hpages⟩ | ⟨htotal, pages, hpages, hcounted⟩
  · rw [hpages]
    exact .inl ⟨.inr hgreat, rfl⟩
  rcases Value.ceilQuotient_outcome offset hs with
    ⟨hgreat, hcurrent⟩ | ⟨hoffset, current, hcurrent, hskipped⟩
  · rw [hpages]
    refine .inl ⟨.inl hgreat, ?_⟩
    show pageOf (.int offset) (.int size) (.int pages) >>= _ = _
    rw [pageOf, hcurrent]
    rfl
  · rw [hpages]
    refine .inr ⟨⟨hoffset, htotal⟩, current, pages, hskipped, hcounted, ?_⟩
    show pageOf (.int offset) (.int size) (.int pages) >>= _ = _
    rw [pageOf_quotient pages hcurrent, Outcome.ok_bind, paged_nat]

/-- Numbers below `2 ^ 53` are counted as if there were no doubles. -/
theorem ofOffset_below (hskip : r.skipOrZero = .ok (.int offset)) (hsize : r.size = .int size)
    (hs : 0 < size) (hs' : size < 2 ^ 53) (hoffset : offset < 2 ^ 53) (htotal : total < 2 ^ 53) :
    ofOffset r (.int total) =
      .ok (ofPlace r offset size total (upward total size) (pageAt offset size total)) := by
  have hrange {n : ℕ} (hn : n < 2 ^ 53) : n < overflow * size :=
    (hn.trans Binary64.two_pow_53_lt_overflow).trans_le (Nat.le_mul_of_pos_right _ hs)
  rcases ofOffset_outcome hskip hsize hs total with
    ⟨hgreat, _⟩ | ⟨_, current, pages, hskipped, hcounted, hdata⟩
  · have := hrange hoffset
    have := hrange htotal
    omega
  · have hdivides := Binary64.divides_of_lt hs hs' htotal
    rw [hdata, current_eq_pageAt hs hskipped hcounted
      (.inr ⟨hdivides, .inr (Binary64.divides_of_lt hs hs' hoffset)⟩), hcounted.exact hdivides]

/-! ### Pages and offsets next to the answer -/

/-- What the data of a result say about the pages and offsets next to it. A flag goes with its offset. The
next page goes with it as well, but may be the current one where this is the last page and begins behind
the offset. A page in front is given only where there is more than one page. -/
structure Neighbours (m : Meta) (offset size total : ℕ) : Prop where
  nextOffset_iff : m.nextOffset ≠ .null ↔ m.hasNext = .bool true
  nextPage_iff : m.nextPage ≠ .null ↔ m.hasNext = .bool true
  nextOffset_lt : m.nextOffset ≠ .null → ∃ n : ℕ, m.nextOffset = .int n ∧ n < total
  nextPage_le : m.nextPage ≠ .null → ∃ n current pages : ℕ,
    m.nextPage = .int n ∧ m.currentPage = .int current ∧ m.totalPages = .int pages ∧
      n ≤ pages ∧ (current < n ∨ n = current ∧ current = pages ∧ ¬size ∣ offset)
  previousOffset_iff : m.previousOffset ≠ .null ↔ m.hasPrevious = .bool true
  previousPage_iff : m.previousPage ≠ .null ↔ m.hasPrevious = .bool true ∧ size < total
  previousPage_lt : m.previousPage ≠ .null → ∃ n current : ℕ,
    m.previousPage = .int n ∧ m.currentPage = .int current ∧ 1 ≤ n ∧ n < current

theorem given_iff {c : Prop} [Decidable c] {v : Value} :
    (if c then v else .null) ≠ .null ↔ c ∧ v ≠ .null := by
  by_cases hc : c <;> simp [hc]

theorem bool_decide_iff {c : Prop} [Decidable c] : Value.bool (decide c) = .bool true ↔ c := by
  simp

theorem neighbours_ofPlace (r : Request) (offset total : ℕ) (hs : 0 < size) :
    (ofPlace r offset size total (upward total size) (pageAt offset size total)).Neighbours
      offset size total := by
  have hsome (n : ℕ) : Value.int n ≠ .null := nofun
  have hnext (n : ℕ) : (if offset + size < total then Value.int n else .null) ≠ .null ↔
      offset + size < total := given_iff.trans (and_iff_left (hsome n))
  exact {
    nextOffset_iff := (hnext _).trans bool_decide_iff.symm
    nextPage_iff := (hnext _).trans bool_decide_iff.symm
    nextOffset_lt := by
      intro hset
      have hmore := (hnext _).1 hset
      exact ⟨offset + size, if_pos hmore, hmore⟩
    nextPage_le := by
      intro hset
      have hmore := (hnext _).1 hset
      obtain ⟨hle, hinside⟩ := pageAt_of_more hs hmore
      refine ⟨_, _, _, if_pos hmore, rfl, rfl, min_le_left _ _, ?_⟩
      rcases hle.lt_or_eq with hlt | heq
      · exact .inl (lt_min hlt (Nat.lt_succ_self _))
      · exact .inr ⟨by omega, heq, hinside heq⟩
    previousOffset_iff := (given_iff.trans (and_iff_left (hsome _))).trans bool_decide_iff.symm
    previousPage_iff := by
      refine (given_iff.trans (and_iff_left (hsome _))).trans ((one_lt_pageAt_iff hs).trans ?_)
      exact and_congr_left' bool_decide_iff.symm
    previousPage_lt := by
      intro hset
      have hlt := (given_iff.1 hset).1
      exact ⟨_, _, if_pos hlt, rfl, by omega, by omega⟩ }

/-- **What the data say about the pages and offsets next to the answer**, from any offset on and for any
number of rows. -/
theorem ofOffset_neighbours (hskip : r.skipOrZero = .ok (.int offset)) (hsize : r.size = .int size)
    (hs : 0 < size) (hs' : size < 2 ^ 53) (hoffset : offset < 2 ^ 53) (htotal : total < 2 ^ 53) :
    ∃ m, ofOffset r (.int total) = .ok m ∧ m.Neighbours offset size total :=
  ⟨_, ofOffset_below hskip hsize hs hs' hoffset htotal, neighbours_ofPlace r offset total hs⟩

/-- From the second of four rows on there are two pages of two rows. The current page is the second one,
and so is the next one. -/
theorem ofOffset_neighbours_insidePage :
    ∃ m, ofOffset (Request.all.fromOffset 1 2) (.int 4) = .ok m ∧ m.Neighbours 1 2 4 :=
  ofOffset_neighbours (Request.fromOffset_cuts .all 1 2).skipOrZero rfl (by decide) (by decide)
    (by decide) (by decide)

/-- **The next page may be the current one, and a page in front may be missing where rows are in front.**
The one happens where the offset is inside of the page before the last one, the other where all rows are
on one page. -/
theorem ofOffset_incoherent :
    (∃ m, ofOffset (Request.all.fromOffset 1 2) (.int 4) = .ok m ∧ m.hasNext = .bool true ∧
      m.currentPage = .int 2 ∧ m.nextPage = .int 2) ∧
    ∃ m, ofOffset (Request.all.fromOffset 1 2) (.int 2) = .ok m ∧ m.hasPrevious = .bool true ∧
      m.previousOffset = .int 0 ∧ m.previousPage = .null := by
  have hbelow (total : ℕ) (htotal : total < 2 ^ 53) :
      ofOffset (Request.all.fromOffset 1 2) (.int total) =
        .ok (ofPlace _ 1 2 total (upward total 2) (pageAt 1 2 total)) :=
    ofOffset_below (Request.fromOffset_cuts .all 1 2).skipOrZero rfl (by decide) (by decide)
      (by decide) htotal
  exact ⟨⟨_, hbelow 4 (by decide), rfl, rfl, rfl⟩, _, hbelow 2 (by decide), rfl, rfl, rfl⟩

end Meta

end Sieve
