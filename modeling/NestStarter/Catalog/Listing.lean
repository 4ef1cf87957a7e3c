import NestStarter.Accounts.UserSearch
import NestStarter.Catalog.Answers
import NestStarter.Shared.Walk

/-! # Listing areas among writers

`AreaRepository.paginate`, page after page, while other calls run. No call but a deletion and the
update of an area takes an area away or changes it, so that a client who follows `nextPage` to its
end has been shown every area that the query selected when it began.
-/

namespace NestStarter.Catalog

open NestStarter.Core
open NestStarter.Core.Call (Keeping)
open NestStarter.Accounts (ilike sqlOr)
open NestStarter.Areas (AreaEntity)
open NestStarter.Accounts.Provisioning (Failure)
open NestStarter.Shared

structure ListAreasQueryDto extends IPaginationOptions where
  search : Option String := none
  cityId : Option Nat := none

section Query

variable (lower : Char → Char)

/-- The rows that `WHERE` keeps. An empty search is no condition. -/
def ListAreasQueryDto.selects (query : ListAreasQueryDto) (area : AreaEntity) : Bool :=
  (match query.search with
    | none => true
    | some search => search == "" ||
        sqlOr (ilike lower (some area.nameEn) ("%" ++ search ++ "%"))
          (ilike lower (some area.nameAr) ("%" ++ search ++ "%")) == some true) &&
    query.cityId.all fun cityId => area.cityId == cityId

/-- `orderBy('area.id', 'ASC')`. -/
def selectedAreas (query : ListAreasQueryDto) (t : Tables) : List AreaEntity :=
  (t.rows.areas.filter (query.selects lower)).insertionSort fun a b => a.id ≤ b.id

/-- The pages of a query, from the first one on. -/
def listAll (query : ListAreasQueryDto) (requests : Nat) :
    Script Tables (Option (List (IPaginatedResponse AreaEntity))) :=
  walk (selectedAreas lower query) query.limit requests 1

end Query

variable {lower : Char → Char} {query : ListAreasQueryDto}

theorem mem_selectedAreas {t : Tables} {a : AreaEntity} :
    a ∈ selectedAreas lower query t ↔ a ∈ t.rows.areas ∧ query.selects lower a = true := by
  rw [selectedAreas, List.mem_insertionSort, List.mem_filter]

theorem nodup_selectedAreas (t : Tables) : (selectedAreas lower query t).Nodup := by
  rw [selectedAreas, (List.perm_insertionSort _ _).nodup_iff]
  exact (List.Nodup.of_map _ t.unique.2.1.1).filter _

/-- The areas are in the order of their ids, and no two share one. -/
theorem pairwise_selectedAreas (t : Tables) :
    (selectedAreas lower query t).Pairwise fun a b => a.id < b.id := by
  have hle : (selectedAreas lower query t).Pairwise fun a b => a.id ≤ b.id := by
    have : Std.Total fun a b : AreaEntity => a.id ≤ b.id := ⟨fun a b => Nat.le_total _ _⟩
    have : IsTrans AreaEntity fun a b => a.id ≤ b.id := ⟨fun _ _ _ => Nat.le_trans⟩
    exact List.pairwise_insertionSort _ _
  have hne : (selectedAreas lower query t).Pairwise fun a b => a.id ≠ b.id := by
    have hnodup := (((List.perm_insertionSort (fun a b : AreaEntity => a.id ≤ b.id)
      (t.rows.areas.filter (query.selects lower))).map AreaEntity.id).nodup_iff).2
      (t.unique.2.1.1.sublist (List.filter_sublist.map _))
    exact List.pairwise_map.1 hnodup
  exact hle.imp₂ (fun _ _ hab hne => Nat.lt_of_le_of_ne hab hne) hne

def AreasStay (t t' : Tables) : Prop := t.rows.areas ⊆ t'.rows.areas

theorem areasStay_refl (t : Tables) : AreasStay t t := fun _ h => h

theorem AreasStay.trans {t t' t'' : Tables} (h : AreasStay t t') (h' : AreasStay t' t'') :
    AreasStay t t'' := fun _ ha => h' (h ha)

theorem AreasStay.sublist {t t' : Tables} (h : AreasStay t t') :
    (selectedAreas lower query t).Sublist (selectedAreas lower query t') := by
  have : Std.Antisymm fun a b : AreaEntity => a.id < b.id :=
    ⟨fun _ _ hab hba => absurd hab (Nat.not_lt.2 (Nat.le_of_lt hba))⟩
  refine List.sublist_of_subperm_of_pairwise (List.Nodup.subperm (nodup_selectedAreas t) ?_)
    (pairwise_selectedAreas t) (pairwise_selectedAreas t')
  intro a ha
  obtain ⟨hmem, hselects⟩ := mem_selectedAreas.1 ha
  exact mem_selectedAreas.2 ⟨h hmem, hselects⟩

def Op.SparesAreas : Op → Prop
  | .deleteCity _ | .deleteArea _ | .updateArea .. => False
  | _ => True

section Keeping

variable {α : Type}

theorem keeping_execute {params : List Param} {f : Tables → Except Failure α × Tables}
    (h : ∀ t, AreasStay t (f t).2) : Keeping AreasStay (execute params f) := by
  refine Keeping.statement fun t => ?_
  cases params.find? fun p => ¬ p.Fits with
  | some p => exact areasStay_refl t
  | none => exact h t

theorem keeping_select {params : List Param} (f : Rows → α) :
    Keeping AreasStay (select params f) := keeping_execute fun t => areasStay_refl t

theorem keeping_bind {β : Type} {m : CatalogM α} {f : α → CatalogM β}
    (h : Keeping AreasStay m) (hf : ∀ a, Keeping AreasStay (f a)) : Keeping AreasStay (m >>= f) :=
  Keeping.bind areasStay_refl h hf

theorem areasStay_write {t t' : Tables} (ht : t'.rows = t.rows) {rows : Rows}
    (h : t.rows.areas ⊆ rows.areas) : AreasStay t (t'.write rows).2 := by
  have hsame : AreasStay t t' := fun a ha => by rw [ht]; exact ha
  unfold Tables.write
  split
  · split
    · split
      · split
        · exact h
        · exact hsame
      · exact hsame
    · exact hsame
  · exact hsame

theorem keeping_throw_bind {β : Type} {e : Failure} {f : α → CatalogM β} :
    Keeping AreasStay ((throw e : CatalogM α) >>= f) := by
  intro t
  exact fun _ _ => trivial

end Keeping

/-! ## The writers among the calls -/

section Writers

variable {anyRow : List CityEntity → Option CityEntity} {restrictCode : String}

theorem keeping_city_findById (id : Nat) : Keeping AreasStay (CityRepository.findById id) :=
  keeping_select _

theorem keeping_assertExists (cityId : Nat) :
    Keeping AreasStay (CityService.assertExists cityId) := by
  refine keeping_bind (keeping_select _) fun found => ?_
  cases found with
  | true => exact Keeping.pure
  | false => exact Keeping.throw

theorem keeping_findByName (column : CityEntity → String) (name : Option String) :
    Keeping AreasStay (CityRepository.findByName anyRow column name) := by
  unfold CityRepository.findByName
  cases name with
  | none => exact keeping_select _
  | some name => exact keeping_select _

theorem keeping_city_insert (id : Option Nat) (nameEn nameAr : Option String) :
    Keeping AreasStay (CityRepository.insert id nameEn nameAr) := by
  refine keeping_execute fun t => ?_
  split
  · dsimp only
    split
    · exact fun a ha => by rw [Tables.rows_drawCity]; exact ha
    · exact areasStay_write (t.rows_drawCity id) fun a ha => ha
  · exact areasStay_refl t

theorem keeping_city_update (id : Nat) (nameEn nameAr : Option (Option String)) :
    Keeping AreasStay (CityRepository.update id nameEn nameAr) := by
  refine keeping_execute fun t => ?_
  split
  · split
    · exact areasStay_refl t
    · dsimp only
      split
      · exact areasStay_refl t
      · exact areasStay_write rfl fun a ha => ha
  · exact areasStay_refl t

theorem keeping_city_save (city : CityRecord) : Keeping AreasStay (CityRepository.save city) := by
  refine keeping_bind (keeping_city_findById city.id) fun found => ?_
  cases found with
  | none => exact keeping_city_insert _ _ _
  | some row =>
    dsimp only
    split
    · exact Keeping.pure
    · exact keeping_bind (keeping_city_update _ _ _) fun _ => Keeping.pure

theorem keeping_createCity (dto : CreateCityDto) :
    Keeping AreasStay (CityService.createForAdmin anyRow dto) := by
  refine keeping_bind (keeping_findByName _ _) fun existing => ?_
  split
  · exact keeping_throw_bind
  · refine keeping_bind (keeping_findByName _ _) fun existing => ?_
    split
    · exact keeping_throw_bind
    · exact keeping_city_insert _ _ _

theorem keeping_city_checkName (column : CityEntity → String) (taken : HttpException) (id : Nat)
    (current : String) (name : Option (Option String)) :
    Keeping AreasStay (CityService.checkName anyRow column taken id current name) := by
  cases name with
  | none => exact Keeping.pure
  | some name =>
    rw [CityService.checkName]
    by_cases hsame : name = some current
    · rw [if_neg (not_not_intro hsame)]
      exact Keeping.pure
    · rw [if_pos hsame]
      refine keeping_bind (keeping_findByName _ _) fun existing => ?_
      split
      · exact Keeping.throw
      · exact Keeping.pure

theorem keeping_updateCity (id : Nat) (dto : UpdateCityDto) :
    Keeping AreasStay (CityService.updateForAdmin anyRow id dto) := by
  refine keeping_bind (m := CityService.findByIdOrFail id) ?_ fun city => ?_
  · refine keeping_bind (keeping_city_findById id) fun found => ?_
    cases found with
    | none => exact Keeping.throw
    | some city => exact Keeping.pure
  · refine keeping_bind (keeping_city_checkName _ _ _ _ _) fun _ => ?_
    exact keeping_bind (keeping_city_checkName _ _ _ _ _) fun _ => keeping_city_save _

theorem keeping_area_insert (id : Option Nat) (cityId : Nat) (nameEn nameAr : String) :
    Keeping AreasStay (AreaRepository.insert id cityId nameEn nameAr) := by
  refine keeping_execute fun t => ?_
  split
  · exact areasStay_write (t.rows_drawArea id) fun _ ha => List.mem_append_left _ ha
  · exact areasStay_refl t

theorem keeping_createArea (dto : CreateAreaDto) :
    Keeping AreasStay (AreaService.createForAdmin dto) := by
  refine keeping_bind (keeping_assertExists dto.cityId) fun _ => ?_
  refine keeping_bind (keeping_select _) fun existing => ?_
  split
  · exact keeping_throw_bind
  · refine keeping_bind (keeping_select _) fun existing => ?_
    split
    · exact keeping_throw_bind
    · exact keeping_area_insert _ _ _ _

theorem keeping_user_insert (id : Option Nat) (user : UserRow) :
    Keeping AreasStay (UserRepository.insert id user) :=
  keeping_execute fun t => areasStay_write (t.rows_drawUser id) fun _ ha => ha

theorem keeping_user_save (user : UserRow) : Keeping AreasStay (UserRepository.save user) := by
  refine keeping_bind (keeping_select _) fun found => ?_
  cases found with
  | none => exact keeping_user_insert _ _
  | some row =>
    dsimp only
    split
    · exact Keeping.pure
    · refine keeping_bind (keeping_execute fun t => ?_) fun _ => Keeping.pure
      exact areasStay_write rfl fun _ ha => ha

theorem keeping_user_findByIdOrFail (id : Nat) :
    Keeping AreasStay (UserService.findByIdOrFail id) := by
  refine keeping_bind (keeping_select _) fun found => ?_
  cases found with
  | none => exact Keeping.throw
  | some user => exact Keeping.pure

theorem keeping_updateMe (id : Nat) (cityId : Option (Option Nat)) :
    Keeping AreasStay (UserService.updateMe id cityId) := by
  unfold UserService.updateMe
  split
  · exact keeping_bind (keeping_assertExists _) fun _ =>
      keeping_bind (keeping_user_findByIdOrFail id) fun _ => keeping_user_save _
  · exact keeping_bind (keeping_user_findByIdOrFail id) fun _ => keeping_user_save _

theorem keeping_completeProfile (id cityId : Nat) :
    Keeping AreasStay (UserService.completeProfile id cityId) := by
  refine keeping_bind (keeping_user_findByIdOrFail id) fun current => ?_
  split
  · exact keeping_throw_bind
  · exact keeping_bind (keeping_assertExists cityId) fun _ => keeping_user_save _

theorem keeping_createUser (phone : String) (cityId : Nat) :
    Keeping AreasStay (UserService.createByAdmin phone cityId) := by
  refine keeping_bind (keeping_select _) fun existing => ?_
  split
  · exact keeping_throw_bind
  · exact keeping_bind (keeping_assertExists cityId) fun _ => keeping_user_insert _ _

theorem Op.SparesAreas.keeping {op : Op} (h : op.SparesAreas) :
    Keeping AreasStay (op.call anyRow restrictCode) := by
  cases op with
  | createCity dto => exact keeping_bind (keeping_createCity dto) fun _ => Keeping.pure
  | updateCity id dto => exact keeping_bind (keeping_updateCity id dto) fun _ => Keeping.pure
  | deleteCity id => exact h.elim
  | createArea dto => exact keeping_bind (keeping_createArea dto) fun _ => Keeping.pure
  | updateArea id dto => exact h.elim
  | deleteArea id => exact h.elim
  | updateMe user cityId => exact keeping_bind (keeping_updateMe user cityId) fun _ => Keeping.pure
  | completeProfile user cityId =>
    exact keeping_bind (keeping_completeProfile user cityId) fun _ => Keeping.pure
  | createUser phone cityId =>
    exact keeping_bind (keeping_createUser phone cityId) fun _ => Keeping.pure

end Writers

/-! ## The walk among them -/

/-- A request of a client: pages of areas, or a call that writes. -/
inductive Work where
  | list (query : ListAreasQueryDto) (requests : Nat)
  | write (op : Op)

inductive Reply where
  | pages (responses : Option (List (IPaginatedResponse AreaEntity)))
  | answer (r : Except Failure Answer)

def Work.script (lower : Char → Char) (anyRow : List CityEntity → Option CityEntity)
    (restrictCode : String) : Work → Script Tables Reply
  | .list query requests => do return .pages (← listAll lower query requests)
  | .write op => do return .answer (← (op.call anyRow restrictCode).run)

/-- What a walk owes to who began it on `t`. -/
def Reply.Complete (lower : Char → Char) (t : Tables) : Work → Reply → Prop
  | .list query _, .pages responses => ∀ rs ∈ responses, ∀ a ∈ selectedAreas lower query t,
      a ∈ rs.flatMap IPaginatedResponse.data
  | _, _ => True

theorem safe_listAll (t : Tables) (query : ListAreasQueryDto) (requests : Nat) :
    Script.Safe AreasStay (fun r _ => ∀ rs ∈ r, ∀ a, a ∈ selectedAreas lower query t →
      a ∈ rs.flatMap IPaginatedResponse.data) (listAll lower query requests) t := by
  refine safe_walk _ _ areasStay_refl (fun h => h.sublist) nodup_selectedAreas requests 1 le_rfl t
    _ fun a ha => ⟨ha, ?_⟩
  have hskip : (IPaginationOptions.clamp ⟨some 1, query.limit⟩).skip = 0 := by
    simp [Clamped.skip, clamp_page_one]
  rw [hskip]
  exact Nat.zero_le _

theorem Work.safe {anyRow : List CityEntity → Option CityEntity} {restrictCode : String}
    {work : Work} (h : ∀ op, work = .write op → op.SparesAreas) (t : Tables) :
    Script.Safe AreasStay (fun r _ => Reply.Complete lower t work r)
      (work.script lower anyRow restrictCode) t := by
  cases work with
  | list query requests =>
    exact Script.Safe.bind areasStay_refl (safe_listAll t query requests) fun r _ hr _ _ => hr
  | write op =>
    exact Script.Safe.bind areasStay_refl ((h op rfl).keeping t) fun _ _ _ _ _ => trivial

/-- In every interleaving of walks with calls that neither delete nor update an area, a walk that
reached its last page has shown every area that its query selected when the run began. -/
theorem listed_of_run (lower : Char → Char) (anyRow : List CityEntity → Option CityEntity)
    (restrictCode : String) {work : Nat → Work}
    (hwrites : ∀ c op, work c = .write op → op.SparesAreas) (t : Tables) {clients : List Nat}
    {p : Pool Tables (Script Tables Reply)}
    (hrun : Script.runAll ⟨t, fun c => (work c).script lower anyRow restrictCode⟩ clients = some p)
    {c : Nat} {query : ListAreasQueryDto} {requests : Nat} (hwork : work c = .list query requests)
    {responses : List (IPaginatedResponse AreaEntity)}
    (hdone : p.client c = .done (.pages (some responses))) :
    ∀ a ∈ selectedAreas lower query t, a ∈ responses.flatMap IPaginatedResponse.data := by
  have hcomplete := Script.result_of_run (P := fun c r _ => Reply.Complete lower t (work c) r)
    areasStay_refl AreasStay.trans (fun c => Work.safe (hwrites c) t) hrun hdone
  rw [hwork] at hcomplete
  exact hcomplete responses rfl

/-- A walk of one area a page, and a call that adds an area. -/
def workSample : Nat → Work
  | 0 => .list { page := none, limit := some 1 } 3
  | _ => .write (.createArea ⟨1, "Inshaat", "الإنشاءات"⟩)

/-- The area comes in between the first window and its total. -/
def insertedAcross : List Nat := [0, 1, 1, 1, 1, 0, 0, 0]

def Reply.pageCount : Reply → Option Nat
  | .pages responses => responses.map List.length
  | .answer _ => none

theorem listed_insertedAcross :
    ∃ p responses, Script.runAll ⟨catalogSample, fun c =>
        (workSample c).script Char.toLower List.head? "23503"⟩ insertedAcross = some p ∧
      p.client 0 = .done (.pages (some responses)) ∧ responses.length = 2 ∧
      ⟨1, 1, "Waer", "الوعر"⟩ ∈ responses.flatMap IPaginatedResponse.data := by
  have hwrites : ∀ c op, workSample c = .write op → op.SparesAreas
    | 0, _, h => by cases h
    | _ + 1, _, h => by cases h; trivial
  have hrun : (Script.runAll ⟨catalogSample, fun c =>
      (workSample c).script Char.toLower List.head? "23503"⟩ insertedAcross).any (fun p =>
        (p.client 0).result.bind Reply.pageCount == some 2) = true := by decide +kernel
  obtain ⟨p, hp, hcount⟩ := (Option.any_eq_true _ _).1 hrun
  obtain ⟨r, hr, hcount⟩ := Option.bind_eq_some_iff.1 (beq_iff_eq.1 hcount)
  cases r with
  | answer r => cases hcount
  | pages responses =>
    obtain ⟨responses, rfl, hlength⟩ := Option.map_eq_some_iff.1 hcount
    have hdone := Script.result_eq_some.1 hr
    exact ⟨p, responses, hp, hdone, hlength, listed_of_run Char.toLower List.head? "23503" hwrites
      catalogSample hp rfl hdone _ (by decide)⟩

end NestStarter.Catalog
