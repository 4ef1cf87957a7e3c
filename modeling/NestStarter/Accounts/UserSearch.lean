import Mathlib
import NestStarter.Accounts.Entities
import NestStarter.Core.Like
import NestStarter.Shared.Pagination

/-! # Searching users

`UserRepository.findPageForAdmin`. The search term is spliced into an `ILIKE` pattern as it
was sent; terms without a space are not looked for in the full name.
-/

namespace NestStarter.Accounts

open NestStarter.Core
open NestStarter.Shared

/-- `ILIKE` compares lower case forms. Lower case leaves the special characters of patterns
and the space alone, and makes none of them from another character. -/
structure LowerCase (lower : Char → Char) : Prop where
  special : ∀ m, Like.isMeta m = true → ∀ c, lower c = m ↔ c = m
  space : ∀ c, lower c = ' ' ↔ c = ' '

section Condition

variable (lower : Char → Char)

/-- `column ILIKE pattern`; on a null it is null. -/
def ilike (column : Option String) (pattern : String) : Option Bool :=
  column.map fun text => Like.like (pattern.toList.map lower) (text.toList.map lower)

/-- `OR`, of truth values that may be null. -/
def sqlOr : Option Bool → Option Bool → Option Bool
  | some true, _ => some true
  | _, some true => some true
  | some false, some false => some false
  | _, _ => none

/-- `COALESCE(first_name, '') || ' ' || COALESCE(last_name, '')`. -/
def UserEntity.fullName (user : UserEntity) : String :=
  user.firstName.getD "" ++ " " ++ user.lastName.getD ""

/-- The condition on a row, for a search that is not empty. -/
def searchCondition (search : String) (user : UserEntity) : Option Bool :=
  let pattern := "%" ++ search ++ "%"
  let columns := sqlOr (sqlOr (ilike lower user.firstName pattern)
    (ilike lower user.lastName pattern)) (ilike lower (some user.phone) pattern)
  if search.toList.contains ' ' then sqlOr columns (ilike lower (some user.fullName) pattern)
  else columns

structure ListUsersAdminQueryDto extends IPaginationOptions where
  search : Option String := none
  isProfileCompleted : Option Bool := none

def ListUsersAdminQueryDto.selects (query : ListUsersAdminQueryDto) (user : UserEntity) : Bool :=
  (match query.search with
    | none => true
    | some search => search == "" || searchCondition lower search user == some true) &&
    query.isProfileCompleted.all fun completed => user.isProfileCompleted == completed

/-- `orderBy('user.id', 'DESC')`; the rows of the table are in the order of their ids. -/
def selectedRows (t : UserTable) (query : ListUsersAdminQueryDto) : List UserEntity :=
  (t.rows.filter (query.selects lower)).reverse

def findPageForAdmin (t : UserTable) (query : ListUsersAdminQueryDto) :
    IPaginatedResponse UserEntity :=
  paginate (selectedRows lower t query) query.toIPaginationOptions

/-! ## What an admin looks for -/

def Occurs (search text : String) : Prop := search.toList.map lower <:+: text.toList.map lower

instance (search text : String) : Decidable (Occurs lower search text) :=
  inferInstanceAs (Decidable (_ <:+: _))

/-- The search occurs in a name, in the phone or in the full name. -/
def Found (search : String) (user : UserEntity) : Prop :=
  (∃ text ∈ user.firstName, Occurs lower search text) ∨
    (∃ text ∈ user.lastName, Occurs lower search text) ∨
    Occurs lower search user.phone ∨ Occurs lower search user.fullName

end Condition

theorem sqlOr_eq_true {a b : Option Bool} :
    sqlOr a b = some true ↔ a = some true ∨ b = some true := by
  rcases a with _ | _ | _ <;> rcases b with _ | _ | _ <;> simp [sqlOr]

variable {lower : Char → Char}

theorem map_pattern (h : LowerCase lower) (search : String) :
    ("%" ++ search ++ "%").toList.map lower = '%' :: (search.toList.map lower ++ ['%']) := by
  simp [(h.special '%' (by decide) '%').2 rfl]

theorem isMeta_lower (h : LowerCase lower) {c : Char} (hc : Like.isMeta c = false) :
    Like.isMeta (lower c) = false := by
  cases hm : Like.isMeta (lower c) with
  | false => rfl
  | true =>
    have hsame : c = lower c := (h.special _ hm c).1 rfl
    rw [← hsame, hc] at hm
    cases hm

/-- A term without special characters is looked for as it is. -/
theorem ilike_eq_true (h : LowerCase lower) {search : String}
    (hplain : ∀ c ∈ search.toList, Like.isMeta c = false) (column : Option String) :
    ilike lower column ("%" ++ search ++ "%") = some true ↔
      ∃ text ∈ column, Occurs lower search text := by
  have hmapped : ∀ c ∈ search.toList.map lower, Like.isMeta c = false := by
    intro c hc
    obtain ⟨d, hd, rfl⟩ := List.mem_map.1 hc
    exact isMeta_lower h (hplain d hd)
  cases column with
  | none => simp [ilike]
  | some text =>
    simp only [ilike, Option.map_some, Option.some.injEq, map_pattern h, Like.like_infix hmapped,
      Option.mem_some_iff, exists_eq_left', Occurs]

/-- A text without a space that occurs in two texts joined by one occurs in one of them. -/
theorem infix_of_joined {s a b : List Char} (hs : ' ' ∉ s) (h : s <:+: a ++ ' ' :: b) :
    s <:+: a ∨ s <:+: b := by
  obtain ⟨before, after, heq⟩ := h
  rw [List.append_assoc] at heq
  rcases List.append_eq_append_iff.1 heq with ⟨a', rfl, hrest⟩ | ⟨c, rfl, hrest⟩
  · rcases List.append_eq_append_iff.1 hrest with ⟨d, rfl, -⟩ | ⟨d, rfl, hd⟩
    · exact Or.inl ⟨before, d, List.append_assoc _ _ _⟩
    · cases d with
      | nil => exact Or.inl ⟨before, [], by simp⟩
      | cons x d =>
        obtain rfl : ' ' = x := (List.cons.inj hd).1
        exact absurd (List.mem_append_right _ List.mem_cons_self) hs
  · cases c with
    | nil =>
      cases s with
      | nil => exact Or.inl List.nil_infix
      | cons x s =>
        obtain rfl : ' ' = x := (List.cons.inj hrest).1
        exact absurd List.mem_cons_self hs
    | cons x c =>
      obtain rfl := (List.cons.inj hrest).2
      exact Or.inr ⟨c, after, List.append_assoc _ _ _⟩

/-- Without a space, the full name has nothing that the names do not have. -/
theorem found_iff_of_no_space (h : LowerCase lower) {search : String} (user : UserEntity)
    (hspace : ' ' ∉ search.toList) : Found lower search user ↔
      (∃ text ∈ user.firstName, Occurs lower search text) ∨
        (∃ text ∈ user.lastName, Occurs lower search text) ∨ Occurs lower search user.phone := by
  refine ⟨?_, fun hfound => ?_⟩
  · rintro (hfirst | hlast | hphone | hfull)
    · exact Or.inl hfirst
    · exact Or.inr (Or.inl hlast)
    · exact Or.inr (Or.inr hphone)
    · have hs : ' ' ∉ search.toList.map lower := by
        intro hmem
        obtain ⟨c, hc, heq⟩ := List.mem_map.1 hmem
        exact hspace ((h.space c).1 heq ▸ hc)
      have hempty : Occurs lower search "" → Occurs lower search user.phone := by
        intro hnil
        have hsearch : search.toList.map lower = [] := List.eq_nil_of_infix_nil hnil
        rw [Occurs, hsearch]
        exact List.nil_infix
      have hjoined : search.toList.map lower <:+: (user.firstName.getD "").toList.map lower ++
          ' ' :: (user.lastName.getD "").toList.map lower := by
        have hspaceFixed : lower ' ' = ' ' := (h.space ' ').2 rfl
        simpa [Occurs, UserEntity.fullName, hspaceFixed] using hfull
      rcases infix_of_joined hs hjoined with hfirst | hlast
      · cases hname : user.firstName with
        | none => exact Or.inr (Or.inr (hempty (by rwa [hname] at hfirst)))
        | some text => exact Or.inl ⟨text, rfl, by rwa [hname] at hfirst⟩
      · cases hname : user.lastName with
        | none => exact Or.inr (Or.inr (hempty (by rwa [hname] at hlast)))
        | some text => exact Or.inr (Or.inl ⟨text, rfl, by rwa [hname] at hlast⟩)
  · rcases hfound with hfirst | hlast | hphone
    · exact Or.inl hfirst
    · exact Or.inr (Or.inl hlast)
    · exact Or.inr (Or.inr (Or.inl hphone))

/-- Whichever condition is selected, a term without special characters is looked for in all
four places. -/
theorem searchCondition_of_plain (h : LowerCase lower) {search : String}
    (hplain : ∀ c ∈ search.toList, Like.isMeta c = false) (user : UserEntity) :
    searchCondition lower search user = some true ↔ Found lower search user := by
  have hcolumns : sqlOr (sqlOr (ilike lower user.firstName ("%" ++ search ++ "%"))
      (ilike lower user.lastName ("%" ++ search ++ "%")))
      (ilike lower (some user.phone) ("%" ++ search ++ "%")) = some true ↔
        (∃ text ∈ user.firstName, Occurs lower search text) ∨
          (∃ text ∈ user.lastName, Occurs lower search text) ∨ Occurs lower search user.phone := by
    simp only [sqlOr_eq_true, ilike_eq_true h hplain, Option.mem_some_iff, exists_eq_left',
      or_assoc]
  unfold searchCondition
  by_cases hspace : ' ' ∈ search.toList
  · rw [if_pos (List.contains_iff_mem.2 hspace), sqlOr_eq_true, hcolumns, ilike_eq_true h hplain]
    simp only [Option.mem_some_iff, exists_eq_left', Found, or_assoc]
  · rw [if_neg (fun hc => hspace (List.contains_iff_mem.1 hc)), hcolumns,
      found_iff_of_no_space h user hspace]

/-- The pages of a search without special characters hold the users it occurs in. -/
theorem mem_pages_iff (h : LowerCase lower) {search : String} (hne : search ≠ "")
    (hplain : ∀ c ∈ search.toList, Like.isMeta c = false) (t : UserTable) (limit : Option Int)
    (user : UserEntity) :
    user ∈ (follow (selectedRows lower t { page := none, limit, search := some search }) limit
        1).flatMap IPaginatedResponse.data ↔
      user ∈ t.rows ∧ Found lower search user := by
  rw [follow_one, selectedRows, List.mem_reverse, List.mem_filter,
    ← searchCondition_of_plain h hplain]
  simp [ListUsersAdminQueryDto.selects, hne]

/-! ## Special characters -/

theorem count_map_lower (h : LowerCase lower) {m : Char} (hm : Like.isMeta m = true)
    (cs : List Char) : (cs.map lower).count m = cs.count m := by
  induction cs with
  | nil => rfl
  | cons c cs ih =>
    simp only [List.map_cons, List.count_cons, ih, beq_iff_eq, h.special m hm c]

/-- A text with fewer of a special character does not contain the search. -/
theorem not_occurs_of_count (h : LowerCase lower) {m : Char} (hm : Like.isMeta m = true)
    {search text : String} (hlt : text.toList.count m < search.toList.count m) :
    ¬ Occurs lower search text := by
  intro hocc
  have hle := hocc.sublist.count_le m
  rw [count_map_lower h hm, count_map_lower h hm] at hle
  omega

def nameless (phone : String) : UserEntity where
  id := 1
  createdAt := 0
  updatedAt := 0
  phone := phone

/-- A search with a special character finds some row in which it does not occur. -/
theorem exists_wrong_row (h : LowerCase lower) {search : String} {c : Char}
    (hc : c ∈ search.toList) (hmeta : Like.isMeta c = true) :
    ∃ user, searchCondition lower search user = some true ∧ ¬ Found lower search user := by
  have hfiller : Like.isMeta 'x' = false := by decide
  obtain ⟨p, hp, m, hm, hlt⟩ := Like.exists_match_of_isMeta hfiller hc hmeta
  refine ⟨nameless (String.ofList (Like.fill 'x' p)), ?_, ?_⟩
  · have hpattern : Like.tokens (("%" ++ search ++ "%").toList.map lower) =
        some ((Like.Token.any :: p).map (Like.Token.map lower)) := by
      rw [Like.tokens_map h.special]
      have htokens : Like.tokens ("%" ++ search ++ "%").toList = some (.any :: p) := by
        have hlist : ("%" ++ search ++ "%").toList = '%' :: (search.toList ++ ['%']) := by simp
        rw [hlist, Like.tokens_cons (by decide), hp]
        rfl
      rw [htokens]
      rfl
    have hphone : ilike lower (some (String.ofList (Like.fill 'x' p)))
        ("%" ++ search ++ "%") = some true := by
      rw [ilike, Option.map_some, Like.like, hpattern, String.toList_ofList]
      have hfill := Like.matchesText_fill (lower 'x')
        ((Like.Token.any :: p).map (Like.Token.map lower))
      rw [Like.fill_map] at hfill
      exact congrArg some hfill
    unfold searchCondition
    split
    · exact sqlOr_eq_true.2 (Or.inl (sqlOr_eq_true.2 (Or.inr hphone)))
    · exact sqlOr_eq_true.2 (Or.inr hphone)
  · rintro (⟨text, htext, -⟩ | ⟨text, htext, -⟩ | hocc | hocc)
    · cases htext
    · cases htext
    · refine not_occurs_of_count h hm ?_ hocc
      simpa [nameless] using hlt
    · refine not_occurs_of_count h hm ?_ hocc
      have hname : (nameless (String.ofList (Like.fill 'x' p))).fullName = " " := rfl
      have hzero : (" ".toList).count m = 0 := by
        rcases Like.isMeta_iff.1 hm with rfl | rfl | rfl <;> rfl
      rw [hname, hzero]
      omega

/-- The condition means that the search occurs in the row, for every row, exactly when the
search has no special character. -/
theorem searchCondition_literal_iff (lower : Char → Char) (h : LowerCase lower)
    (search : String) :
    (∀ user, searchCondition lower search user = some true ↔ Found lower search user) ↔
      ∀ c ∈ search.toList, Like.isMeta c = false := by
  constructor
  · intro hall c hc
    cases hmeta : Like.isMeta c with
    | false => rfl
    | true =>
      obtain ⟨user, hcondition, hnot⟩ := exists_wrong_row h hc hmeta
      exact absurd ((hall user).1 hcondition) hnot
  · exact fun hplain user => searchCondition_of_plain h hplain user

theorem toLower_eq_iff {m : Char} (hm : m.isAlpha = false) (c : Char) :
    c.toLower = m ↔ c = m := by
  cases hu : c.isUpper with
  | false => rw [Char.toLower_eq_of_not_isUpper (by simp [hu])]
  | true =>
    have hc : c.isAlpha = true := by simp [Char.isAlpha, hu]
    constructor
    · rintro rfl
      rw [Char.isAlpha_toLower_eq_isAlpha, hc] at hm
      cases hm
    · rintro rfl
      rw [hc] at hm
      cases hm

theorem lowerCase_toLower : LowerCase Char.toLower where
  special m hm := toLower_eq_iff (by rcases Like.isMeta_iff.1 hm with rfl | rfl | rfl <;> rfl)
  space := toLower_eq_iff rfl

def aliHaddad : UserEntity where
  id := 7
  createdAt := 0
  updatedAt := 0
  phone := "+963944123456"
  firstName := some "Ali"
  lastName := some "Haddad"

theorem searchCondition_literal_ali :
    searchCondition Char.toLower "I HA" aliHaddad = some true ↔
      Found Char.toLower "I HA" aliHaddad := by
  have hplain : "I HA".toList.all (fun c => !Like.isMeta c) = true := by decide
  refine (searchCondition_literal_iff Char.toLower lowerCase_toLower "I HA").2 ?_ aliHaddad
  intro c hc
  simpa using List.all_eq_true.1 hplain c hc

/-- An underscore finds a user in whom it does not occur. -/
theorem searchCondition_underscore :
    ¬ (searchCondition Char.toLower "_" aliHaddad = some true ↔
      Found Char.toLower "_" aliHaddad) := by
  intro h
  rcases h.1 (by decide) with ⟨text, htext, hocc⟩ | ⟨text, htext, hocc⟩ | hocc | hocc
  · cases htext
    exact absurd hocc (by decide)
  · cases htext
    exact absurd hocc (by decide)
  · exact absurd hocc (by decide)
  · exact absurd hocc (by decide)

end NestStarter.Accounts
