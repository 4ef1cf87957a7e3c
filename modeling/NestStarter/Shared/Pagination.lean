import Mathlib.Algebra.Order.Ring.Int
import Mathlib.Tactic.Linarith

/-! # Offset pagination

`paginate` clamps the page and the limit, reads one window of the result set and
describes its place among all pages. Following `nextPage` from page 1 reads the
whole set.
-/

namespace NestStarter.Shared

def DEFAULT_PAGE : Int := 1

def DEFAULT_LIMIT : Int := 10

def MAX_LIMIT : Int := 50

structure IPaginationOptions where
  page : Option Int
  limit : Option Int
  deriving DecidableEq, Repr

structure PaginationMeta where
  total : Int
  page : Int
  limit : Int
  totalPages : Int
  nextPage : Option Int
  prevPage : Option Int
  hasNextPage : Bool
  hasPrevPage : Bool
  deriving DecidableEq, Repr

structure IPaginatedResponse (α : Type) where
  data : List α
  pagination : PaginationMeta
  deriving DecidableEq, Repr

/-- A page and a limit inside the safe bounds. -/
structure Clamped where
  page : Int
  limit : Int
  one_le_page : 1 ≤ page
  one_le_limit : 1 ≤ limit
  limit_le : limit ≤ MAX_LIMIT

def IPaginationOptions.clamp (options : IPaginationOptions) : Clamped where
  page := max (options.page.getD DEFAULT_PAGE) 1
  limit := min (max (options.limit.getD DEFAULT_LIMIT) 1) MAX_LIMIT
  one_le_page := le_max_right _ _
  one_le_limit := le_min (le_max_right _ _) (by decide)
  limit_le := min_le_right _ _

def Clamped.skip (c : Clamped) : Int := (c.page - 1) * c.limit

/-- A query whose rows are already selected and ordered. -/
structure SelectQueryBuilder (α : Type) where
  rows : List α
  skip : Int
  take : Int

def SelectQueryBuilder.getManyAndCount {α : Type} (qb : SelectQueryBuilder α) : List α × Int :=
  ((qb.rows.drop qb.skip.toNat).take qb.take.toNat, qb.rows.length)

/-- `Math.ceil(a / b)`; the division of `Int` rounds down. -/
def ceilDiv (a b : Int) : Int := -(-a / b)

def buildPaginationMeta (total page limit : Int) : PaginationMeta :=
  let totalPages := ceilDiv total limit
  let hasNextPage := decide (page < totalPages)
  let hasPrevPage := decide (page > 1)
  { total, page, limit, totalPages
    nextPage := if hasNextPage then some (page + 1) else none
    prevPage := if hasPrevPage then some (page - 1) else none
    hasNextPage, hasPrevPage }

variable {α : Type}

def pageQuery (rows : List α) (options : IPaginationOptions) : SelectQueryBuilder α :=
  { rows, skip := options.clamp.skip, take := options.clamp.limit }

def paginate (rows : List α) (options : IPaginationOptions) : IPaginatedResponse α :=
  let (data, total) := (pageQuery rows options).getManyAndCount
  { data, pagination := buildPaginationMeta total options.clamp.page options.clamp.limit }

theorem Clamped.skip_nonneg (c : Clamped) : 0 ≤ c.skip :=
  Int.mul_nonneg (by have := c.one_le_page; omega) (by have := c.one_le_limit; omega)

theorem Clamped.skip_add_limit (c : Clamped) : c.skip + c.limit = c.page * c.limit := by
  unfold Clamped.skip
  linarith [Int.sub_mul c.page 1 c.limit]

theorem Clamped.skip_pos_iff (c : Clamped) : 0 < c.skip ↔ 1 < c.page := by
  have hl : 0 < c.limit := c.one_le_limit
  unfold Clamped.skip
  rw [mul_pos_iff_of_pos_right hl]
  omega

theorem clamp_page_of_pos {options : IPaginationOptions} {page : Int}
    (h : options.page = some page) (hp : 1 ≤ page) : options.clamp.page = page := by
  simp [IPaginationOptions.clamp, h, hp]

/-- A page lies before the last one exactly when rows follow it. -/
theorem lt_ceilDiv_iff {total page limit : Int} (hl : 0 < limit) :
    page < ceilDiv total limit ↔ page * limit < total := by
  unfold ceilDiv
  rw [lt_neg, Int.ediv_lt_iff_lt_mul hl, Int.neg_mul, neg_lt_neg_iff]

def totalPages (rows : List α) (options : IPaginationOptions) : Int :=
  (paginate rows options).pagination.totalPages

/-- The number of pages depends on the limit only. -/
theorem totalPages_congr {rows : List α} {o o' : IPaginationOptions} (h : o.limit = o'.limit) :
    totalPages rows o = totalPages rows o' := by
  simp [totalPages, paginate, pageQuery, SelectQueryBuilder.getManyAndCount, buildPaginationMeta,
    IPaginationOptions.clamp, h]

theorem paginate_hasNextPage (rows : List α) (o : IPaginationOptions) :
    (paginate rows o).pagination.hasNextPage = true ↔
      o.clamp.skip + o.clamp.limit < rows.length := by
  have hl : 0 < o.clamp.limit := o.clamp.one_le_limit
  rw [Clamped.skip_add_limit, ← lt_ceilDiv_iff hl]
  exact decide_eq_true_iff

theorem paginate_hasPrevPage (rows : List α) (o : IPaginationOptions) :
    (paginate rows o).pagination.hasPrevPage = true ↔ 1 < o.clamp.page :=
  decide_eq_true_iff

theorem ite_some_eq_some {b : Bool} {m n : Int} :
    (if b then some m else none) = some n ↔ b = true ∧ n = m := by
  cases b <;> simp [eq_comm]

theorem paginate_nextPage_eq_some {rows : List α} {o : IPaginationOptions} {n : Int} :
    (paginate rows o).pagination.nextPage = some n ↔
      (paginate rows o).pagination.hasNextPage = true ∧ n = o.clamp.page + 1 :=
  ite_some_eq_some

theorem paginate_prevPage_eq_some {rows : List α} {o : IPaginationOptions} {n : Int} :
    (paginate rows o).pagination.prevPage = some n ↔
      (paginate rows o).pagination.hasPrevPage = true ∧ n = o.clamp.page - 1 :=
  ite_some_eq_some

theorem isSome_eq_of_iff {o : Option Int} {b : Bool} {m : Int}
    (h : ∀ n, o = some n ↔ b = true ∧ n = m) : o.isSome = b := by
  cases b with
  | true => simp [(h m).2 ⟨rfl, rfl⟩]
  | false =>
    cases o with
    | none => rfl
    | some n => simp at h

theorem nextPage_isSome (rows : List α) (o : IPaginationOptions) :
    (paginate rows o).pagination.nextPage.isSome =
      (paginate rows o).pagination.hasNextPage :=
  isSome_eq_of_iff fun _ => paginate_nextPage_eq_some

theorem prevPage_isSome (rows : List α) (o : IPaginationOptions) :
    (paginate rows o).pagination.prevPage.isSome =
      (paginate rows o).pagination.hasPrevPage :=
  isSome_eq_of_iff fun _ => paginate_prevPage_eq_some

@[simp] theorem paginate_page (rows : List α) (o : IPaginationOptions) :
    (paginate rows o).pagination.page = o.clamp.page := rfl

/-- A next page lies after the page that names it and within the pages. -/
theorem nextPage_bounds {rows : List α} {o : IPaginationOptions} {n : Int}
    (h : (paginate rows o).pagination.nextPage = some n) :
    o.clamp.page < n ∧ n ≤ totalPages rows o := by
  obtain ⟨hn, rfl⟩ := paginate_nextPage_eq_some.1 h
  have hlt : o.clamp.page < totalPages rows o := of_decide_eq_true hn
  omega

theorem le_clamp_page (page : Int) (limit : Option Int) :
    page ≤ (IPaginationOptions.clamp ⟨some page, limit⟩).page := le_max_left _ _

/-! ## The walk -/

/-- The responses read from a page on, each `nextPage` followed until it is null. -/
def follow (rows : List α) (limit : Option Int) (page : Int) : List (IPaginatedResponse α) :=
  match _h : (paginate rows ⟨some page, limit⟩).pagination.nextPage with
  | none => [paginate rows ⟨some page, limit⟩]
  | some next => paginate rows ⟨some page, limit⟩ :: follow rows limit next
termination_by (totalPages rows ⟨none, limit⟩ - page).toNat
decreasing_by
  have hb := nextPage_bounds _h
  have hp := le_clamp_page page limit
  have hT : totalPages rows ⟨some page, limit⟩ = totalPages rows ⟨none, limit⟩ :=
    totalPages_congr rfl
  omega

def offset (rows : List α) (limit : Option Int) (page : Int) : Nat :=
  (pageQuery rows ⟨some page, limit⟩).skip.toNat

theorem paginate_data (rows : List α) (limit : Option Int) (page : Int) :
    (paginate rows ⟨some page, limit⟩).data =
      (rows.drop (offset rows limit page)).take
        (pageQuery rows ⟨some page, limit⟩).take.toNat := rfl

theorem skip_nextPage {rows : List α} {limit : Option Int} {page next : Option Int} {n : Int}
    (h : (paginate rows ⟨page, limit⟩).pagination.nextPage = some n)
    (hnext : next = some n) :
    (pageQuery rows ⟨next, limit⟩).skip =
      (pageQuery rows ⟨page, limit⟩).skip + (pageQuery rows ⟨page, limit⟩).take := by
  subst hnext
  obtain ⟨-, rfl⟩ := paginate_nextPage_eq_some.1 h
  have hp := (IPaginationOptions.clamp ⟨page, limit⟩).one_le_page
  have hn : (IPaginationOptions.clamp ⟨some ((IPaginationOptions.clamp ⟨page, limit⟩).page + 1),
      limit⟩).page = (IPaginationOptions.clamp ⟨page, limit⟩).page + 1 :=
    clamp_page_of_pos rfl (by omega)
  simp only [pageQuery, Clamped.skip_add_limit]
  rw [Clamped.skip, hn]
  simp [IPaginationOptions.clamp]

theorem length_le_of_nextPage_eq_none {rows : List α} {o : IPaginationOptions}
    (h : (paginate rows o).pagination.nextPage = none) :
    (rows.length : Int) ≤ o.clamp.skip + o.clamp.limit := by
  have hn : ¬ (paginate rows o).pagination.hasNextPage = true := by
    rw [← nextPage_isSome, h]
    decide
  rw [paginate_hasNextPage] at hn
  omega

/-- The walk from a page on reads every row from that page's first one on. -/
theorem follow_data (rows : List α) (limit : Option Int) (page : Int) :
    (follow rows limit page).flatMap IPaginatedResponse.data =
      rows.drop (offset rows limit page) := by
  fun_induction follow rows limit page with
  | case1 page h =>
    have hlen := length_le_of_nextPage_eq_none h
    have hs := (IPaginationOptions.clamp ⟨some page, limit⟩).skip_nonneg
    rw [List.flatMap_singleton, paginate_data, List.take_of_length_le]
    rw [List.length_drop]
    simp only [offset, pageQuery]
    omega
  | case2 page next h ih =>
    have hskip := skip_nextPage h rfl
    have hs := (IPaginationOptions.clamp ⟨some page, limit⟩).skip_nonneg
    have hl := (IPaginationOptions.clamp ⟨some page, limit⟩).one_le_limit
    have hoff : offset rows limit next =
        offset rows limit page + (pageQuery rows ⟨some page, limit⟩).take.toNat := by
      simp only [offset, pageQuery] at hskip ⊢
      omega
    rw [List.flatMap_cons, ih, paginate_data, hoff, ← List.drop_drop]
    exact List.take_append_drop _ _

/-- The walk makes one request for each page from its start on, and at least one. -/
theorem length_follow (rows : List α) (limit : Option Int) (page : Int) :
    ((follow rows limit page).length : Int) =
      max 1 (totalPages rows ⟨none, limit⟩ -
        (IPaginationOptions.clamp ⟨some page, limit⟩).page + 1) := by
  fun_induction follow rows limit page with
  | case1 page h =>
    have hlen := length_le_of_nextPage_eq_none h
    have hT : totalPages rows ⟨some page, limit⟩ = totalPages rows ⟨none, limit⟩ :=
      totalPages_congr rfl
    have hle : totalPages rows ⟨some page, limit⟩ ≤
        (IPaginationOptions.clamp ⟨some page, limit⟩).page := by
      rw [Clamped.skip_add_limit] at hlen
      exact not_lt.1 fun hlt => not_lt.2 hlen
        ((lt_ceilDiv_iff (IPaginationOptions.clamp ⟨some page, limit⟩).one_le_limit).1 hlt)
    simp only [List.length_singleton]
    omega
  | case2 page next h ih =>
    have hb := nextPage_bounds h
    have hT : totalPages rows ⟨some page, limit⟩ = totalPages rows ⟨none, limit⟩ :=
      totalPages_congr rfl
    obtain ⟨-, hnext⟩ := paginate_nextPage_eq_some.1 h
    have hp := (IPaginationOptions.clamp ⟨some page, limit⟩).one_le_page
    have hc : (IPaginationOptions.clamp ⟨some next, limit⟩).page = next :=
      clamp_page_of_pos rfl (by omega)
    rw [hc] at ih
    simp only [List.length_cons, Nat.cast_add, Nat.cast_one, ih]
    omega

/-! ## One page among the others -/

/-- What one response says about the pages around it. -/
structure Oriented (rows : List α) (page limit : Option Int) : Prop where
  skip_nonneg : 0 ≤ (pageQuery rows ⟨page, limit⟩).skip
  one_le_take : 1 ≤ (pageQuery rows ⟨page, limit⟩).take
  take_le : (pageQuery rows ⟨page, limit⟩).take ≤ MAX_LIMIT
  /-- `hasNextPage` holds exactly when rows remain after the window. -/
  hasNextPage : (paginate rows ⟨page, limit⟩).pagination.hasNextPage = true ↔
    rows.drop ((pageQuery rows ⟨page, limit⟩).skip +
      (pageQuery rows ⟨page, limit⟩).take).toNat ≠ []
  hasPrevPage : (paginate rows ⟨page, limit⟩).pagination.hasPrevPage = true ↔
    0 < (pageQuery rows ⟨page, limit⟩).skip
  nextPage_isSome : (paginate rows ⟨page, limit⟩).pagination.nextPage.isSome =
    (paginate rows ⟨page, limit⟩).pagination.hasNextPage
  prevPage_isSome : (paginate rows ⟨page, limit⟩).pagination.prevPage.isSome =
    (paginate rows ⟨page, limit⟩).pagination.hasPrevPage
  /-- The next page starts where this one ends and names this one as its previous page. -/
  next : ∀ n, (paginate rows ⟨page, limit⟩).pagination.nextPage = some n →
    (pageQuery rows ⟨some n, limit⟩).skip =
        (pageQuery rows ⟨page, limit⟩).skip + (pageQuery rows ⟨page, limit⟩).take ∧
      (paginate rows ⟨some n, limit⟩).pagination.prevPage =
        some (paginate rows ⟨page, limit⟩).pagination.page
  /-- The previous page ends where this one starts. It names this one as its next page
  exactly when this one has a row. -/
  prev : ∀ n, (paginate rows ⟨page, limit⟩).pagination.prevPage = some n →
    (pageQuery rows ⟨some n, limit⟩).skip + (pageQuery rows ⟨some n, limit⟩).take =
        (pageQuery rows ⟨page, limit⟩).skip ∧
      ((paginate rows ⟨some n, limit⟩).pagination.nextPage =
          some (paginate rows ⟨page, limit⟩).pagination.page ↔
        (paginate rows ⟨page, limit⟩).data ≠ [])

theorem paginate_data_ne_nil (rows : List α) (o : IPaginationOptions) :
    (paginate rows o).data ≠ [] ↔ o.clamp.skip < rows.length := by
  have hs := o.clamp.skip_nonneg
  have hl := o.clamp.one_le_limit
  have hdata : (paginate rows o).data =
      (rows.drop o.clamp.skip.toNat).take o.clamp.limit.toNat := rfl
  rw [hdata, ← List.length_pos_iff, List.length_take, List.length_drop]
  omega

theorem prev_of_next {rows : List α} {page limit : Option Int} {n : Int}
    (h : (paginate rows ⟨page, limit⟩).pagination.nextPage = some n) :
    (paginate rows ⟨some n, limit⟩).pagination.prevPage =
      some (paginate rows ⟨page, limit⟩).pagination.page := by
  obtain ⟨-, rfl⟩ := paginate_nextPage_eq_some.1 h
  have hp := (IPaginationOptions.clamp ⟨page, limit⟩).one_le_page
  rw [paginate_prevPage_eq_some, paginate_hasPrevPage,
    clamp_page_of_pos (rfl : _ = some _) (by omega), paginate_page]
  omega

theorem next_of_prev {rows : List α} {page limit : Option Int} {n : Int}
    (h : (paginate rows ⟨page, limit⟩).pagination.prevPage = some n) :
    (pageQuery rows ⟨some n, limit⟩).skip + (pageQuery rows ⟨some n, limit⟩).take =
        (pageQuery rows ⟨page, limit⟩).skip ∧
      ((paginate rows ⟨some n, limit⟩).pagination.nextPage =
          some (paginate rows ⟨page, limit⟩).pagination.page ↔
        (paginate rows ⟨page, limit⟩).data ≠ []) := by
  obtain ⟨hprev, hn⟩ := paginate_prevPage_eq_some.1 h
  have hp := (paginate_hasPrevPage rows _).1 hprev
  have hc : (IPaginationOptions.clamp ⟨some n, limit⟩).page = n :=
    clamp_page_of_pos rfl (by omega)
  have hskip : (IPaginationOptions.clamp ⟨some n, limit⟩).skip +
      (IPaginationOptions.clamp ⟨some n, limit⟩).limit =
        (IPaginationOptions.clamp ⟨page, limit⟩).skip := by
    rw [Clamped.skip_add_limit, hc, hn]
    rfl
  refine ⟨hskip, ?_⟩
  rw [paginate_nextPage_eq_some, paginate_hasNextPage, paginate_data_ne_nil, hskip, hc,
    paginate_page]
  exact and_iff_left (by omega)

theorem oriented (rows : List α) (page limit : Option Int) : Oriented rows page limit where
  skip_nonneg := Clamped.skip_nonneg _
  one_le_take := Clamped.one_le_limit _
  take_le := Clamped.limit_le _
  hasNextPage := by
    have hs := (IPaginationOptions.clamp ⟨page, limit⟩).skip_nonneg
    have hl := (IPaginationOptions.clamp ⟨page, limit⟩).one_le_limit
    rw [paginate_hasNextPage, ← List.length_pos_iff, List.length_drop]
    simp only [pageQuery]
    omega
  hasPrevPage := (paginate_hasPrevPage rows _).trans (Clamped.skip_pos_iff _).symm
  nextPage_isSome := nextPage_isSome rows _
  prevPage_isSome := prevPage_isSome rows _
  next := fun _ h => ⟨skip_nextPage h rfl, prev_of_next h⟩
  prev := fun _ h => next_of_prev h

theorem clamp_page_one (limit : Option Int) :
    (IPaginationOptions.clamp ⟨some 1, limit⟩).page = 1 :=
  clamp_page_of_pos rfl (le_refl 1)

theorem follow_one (rows : List α) (limit : Option Int) :
    (follow rows limit 1).flatMap IPaginatedResponse.data = rows := by
  have hoff : offset rows limit 1 = 0 := by
    simp [offset, pageQuery, Clamped.skip, clamp_page_one]
  rw [follow_data, hoff, List.drop_zero]

/-- Following `nextPage` from page 1 reads every row once, in order, in as many requests as
there are pages, and every single page says truly what lies around it. -/
theorem follow_reads_all (rows : List α) (limit : Option Int) :
    (follow rows limit 1).flatMap IPaginatedResponse.data = rows ∧
      ((follow rows limit 1).length : Int) = max 1 (totalPages rows ⟨some 1, limit⟩) ∧
      ∀ page : Option Int, Oriented rows page limit := by
  have hT : totalPages rows ⟨some 1, limit⟩ = totalPages rows ⟨none, limit⟩ :=
    totalPages_congr rfl
  refine ⟨follow_one rows limit, ?_, fun page => oriented rows page limit⟩
  rw [length_follow, clamp_page_one, hT]
  omega

example : (paginate (List.range 25) ⟨some 2, some 10⟩).pagination =
    { total := 25, page := 2, limit := 10, totalPages := 3, nextPage := some 3,
      prevPage := some 1, hasNextPage := true, hasPrevPage := true } := by decide

end NestStarter.Shared
