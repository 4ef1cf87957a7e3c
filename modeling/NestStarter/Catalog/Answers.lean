import NestStarter.Catalog.Consistent
import NestStarter.Filters.GlobalException

/-! # What a call on the catalogue answers

Nothing holds between two statements of a call: what it looked for may be inserted, and what it
found may be deleted. In whatever order the statements of any number of calls run, the constraints
turn what the checks miss into failures of a statement, and the filter answers each of them with a
4xx.
-/

namespace NestStarter.Catalog

open NestStarter.Core
open NestStarter.Core.Call (Always Ends)
open NestStarter.Areas (AreaEntity UpdateAreaDto cityNotFound areaNotFound)
open NestStarter.Accounts.Provisioning (Failure uniqueViolation)
open NestStarter.Accounts.Completion (userNotFound phoneTaken profileAlreadyCompleted)

section Statements

variable {α : Type} {A : α → Prop} {E : Failure → Prop}

theorem always_execute {params : List Param} {f : Tables → Except Failure α × Tables}
    (hparams : ∀ p ∈ params, ¬ p.Fits → E p.failure)
    (h : (∀ p ∈ params, p.Fits) → ∀ t, Ends A E (f t).1) : Always A E (execute params f) := by
  refine Always.statement fun t => ?_
  cases hfind : params.find? fun p => ¬ p.Fits with
  | some p =>
    have hp : ¬ p.Fits := by simpa using List.find?_some hfind
    exact hparams p (List.mem_of_find?_eq_some hfind) hp
  | none => exact h (by simpa [List.find?_eq_none] using hfind) t

theorem always_select {params : List Param} {f : Rows → α}
    (hparams : ∀ p ∈ params, ¬ p.Fits → E p.failure) (h : ∀ t : Tables, A (f t.rows)) :
    Always A E (select params f) :=
  always_execute hparams fun _ t => h t

theorem ends_error {e : Failure} (h : E e) : Ends A E (.error e) := h

/-- A write of rows that the columns hold ends well or breaks a constraint. -/
theorem ends_write (t : Tables) {rows : Rows} (hclean : rows.Clean) (hranges : rows.Ranges)
    (hunique : ¬ rows.Unique → E uniqueViolation)
    (href : ¬ rows.References → E foreignKeyViolation) :
    Ends (fun _ => True) E (t.write rows).1 := by
  rcases t.write_cases hclean hranges with h | ⟨h, hnot⟩ | ⟨h, hnot⟩ <;> rw [h]
  · trivial
  · exact hunique hnot
  · exact href hnot

theorem ends_write_consistent (t : Tables) {rows : Rows} (h : rows.Consistent) :
    Ends (fun _ => True) E (t.write rows).1 :=
  ends_write t h.clean h.ranges (fun hnot => (hnot h.unique).elim)
    fun hnot => (hnot h.references).elim

theorem ends_map {r : Except Failure Unit} (f : Unit → α) (h : Ends (fun _ => True) E r) :
    Ends (fun _ => True) E (r.map f) := by
  cases r with
  | ok u => trivial
  | error e => exact h

end Statements

/-- One of these exceptions, or a failure of a statement with one of these codes. -/
def Allowed (xs : List HttpException) (codes : List String) : Failure → Prop
  | .http e => e ∈ xs
  | .queryFailed code => code ∈ codes

/-- The texts are clean, and the numbers are sent with all their digits. -/
def Param.Plain : Param → Prop
  | .int n => n < 10 ^ 21
  | .text s => CleanText s

section Calls

variable {anyRow : List CityEntity → Option CityEntity} {restrictCode : String}
  {xs : List HttpException} {codes : List String}

theorem always_throw_bind {α β : Type} {B : β → Prop} {e : HttpException}
    {f : α → CatalogM β} (h : e ∈ xs) :
    Always B (Allowed xs codes) ((throw (.http e) : CatalogM α) >>= f) :=
  Call.always_throw_bind (by exact h)

/-- Of parameters that are plain, only a number can fail to fit. -/
theorem allowed_param {params : List Param} (h : ∀ p ∈ params, p.Plain)
    (hcode : (∃ n, Param.int n ∈ params) → "22003" ∈ codes) :
    ∀ p ∈ params, ¬ p.Fits → Allowed xs codes p.failure := by
  intro p hp hfits
  cases p with
  | int n =>
    have hfailure : (Param.int n).failure = outOfRange := if_pos (h _ hp)
    rw [hfailure]
    exact hcode ⟨n, hp⟩
  | text s => exact absurd (h _ hp) hfits

theorem plain_id {id : Nat} (hid : id < 10 ^ 21) : ∀ p ∈ [Param.int id], p.Plain := by
  intro p hp
  rw [List.mem_singleton.1 hp]
  exact hid

theorem plain_of_integer {n : Nat} (h : n ≤ 2147483647) : n < 10 ^ 21 :=
  Nat.lt_of_le_of_lt h (by decide)

/-! ## Cities -/

def CityRecord.Clean (c : CityRecord) : Prop :=
  (∀ s ∈ c.nameEn, CleanText s) ∧ ∀ s ∈ c.nameAr, CleanText s

theorem plain_textParams {nameEn nameAr : Option String} (hEn : ∀ s ∈ nameEn, CleanText s)
    (hAr : ∀ s ∈ nameAr, CleanText s) : ∀ p ∈ textParams [nameEn, nameAr], p.Plain := by
  intro p hp
  simp only [textParams, List.mem_filterMap, List.mem_cons, List.not_mem_nil, or_false,
    Option.map_eq_some_iff] at hp
  obtain ⟨name, rfl | rfl, s, hs, rfl⟩ := hp
  · exact hEn s hs
  · exact hAr s hs

theorem int_not_mem_textParams (names : List (Option String)) :
    ¬ ∃ n, Param.int n ∈ textParams names := by
  simp [textParams]

def FoundCity (id : Nat) (c : CityEntity) : Prop := c.id = id ∧ CityRecord.Clean c.record

theorem always_city_findById {id : Nat} (hid : id < 10 ^ 21) (hcode : "22003" ∈ codes) :
    Always (fun o => ∀ c ∈ o, FoundCity id c) (Allowed xs codes) (CityRepository.findById id) := by
  refine always_select (allowed_param (plain_id hid) fun _ => hcode) fun t c hc => ?_
  obtain ⟨hEn, hAr⟩ := t.clean.1 c (List.mem_of_find?_eq_some hc)
  exact ⟨by simpa using List.find?_some hc, by simpa [CityEntity.record] using hEn,
    by simpa [CityEntity.record] using hAr⟩

theorem always_city_findByIdOrFail {id : Nat} (hid : id < 10 ^ 21) (hcode : "22003" ∈ codes)
    (hx : cityNotFound ∈ xs) :
    Always (FoundCity id) (Allowed xs codes) (CityService.findByIdOrFail id) := by
  refine (always_city_findById hid hcode).bind fun o ho => ?_
  cases o with
  | none => exact Always.throw hx
  | some c => exact Always.pure (ho c rfl)

theorem always_assertExists {cityId : Nat} (hid : cityId < 10 ^ 21) (hcode : "22003" ∈ codes)
    (hx : cityNotFound ∈ xs) :
    Always (fun _ => True) (Allowed xs codes) (CityService.assertExists cityId) := by
  refine Always.bind (A := fun _ => True)
    (always_select (allowed_param (plain_id hid) fun _ => hcode) fun _ => trivial) fun found _ => ?_
  cases found with
  | true => exact Always.pure trivial
  | false => exact Always.throw hx

theorem always_findByName (column : CityEntity → String) {name : Option String}
    (hname : ∀ s ∈ name, CleanText s) :
    Always (fun _ => True) (Allowed xs codes) (CityRepository.findByName anyRow column name) := by
  cases name with
  | none =>
    unfold CityRepository.findByName
    exact always_select (by simp) fun _ => trivial
  | some name =>
    unfold CityRepository.findByName
    refine always_select (allowed_param ?_ ?_) fun _ => trivial
    · intro p hp
      rw [List.mem_singleton.1 hp]
      exact hname name rfl
    · simp

theorem CityRecord.Clean.row {c : CityRecord} (hc : c.Clean) {row : CityEntity}
    (hrow : c.row = some row) : CleanText row.nameEn ∧ CleanText row.nameAr := by
  obtain ⟨en, hen, hrow⟩ := Option.bind_eq_some_iff.1 hrow
  obtain ⟨ar, har, rfl⟩ := Option.map_eq_some_iff.1 hrow
  exact ⟨hc.1 en hen, hc.2 ar har⟩

theorem CityRecord.id_of_row {c : CityRecord} {row : CityEntity} (hrow : c.row = some row) :
    row.id = c.id := by
  obtain ⟨en, hen, hrow⟩ := Option.bind_eq_some_iff.1 hrow
  obtain ⟨ar, har, rfl⟩ := Option.map_eq_some_iff.1 hrow
  rfl

theorem CityRecord.row_eq_none {c : CityRecord} (hrow : c.row = none) :
    c.nameEn = none ∨ c.nameAr = none := by
  cases hEn : c.nameEn with
  | none => exact Or.inl rfl
  | some en =>
    cases hAr : c.nameAr with
    | none => exact Or.inr rfl
    | some ar => simp [CityRecord.row, hEn, hAr] at hrow

theorem clean_varchar {n : Nat} {s stored : String} (hs : CleanText s)
    (h : varchar n s = some stored) : CleanText stored := by
  unfold varchar at h
  split at h
  · cases h
    exact hs
  · split at h
    · cases h
      intro hmem
      rw [String.toList_ofList] at hmem
      exact hs (List.mem_of_mem_take hmem)
    · cases h

theorem clean_nameColumn {name stored : Option String} (hname : ∀ s ∈ name, CleanText s)
    (h : nameColumn name = some stored) : ∀ s ∈ stored, CleanText s := by
  cases name with
  | none =>
    cases h
    simp
  | some s =>
    obtain ⟨cut, hcut, rfl⟩ := Option.map_eq_some_iff.1 h
    intro s' hs'
    cases hs'
    exact clean_varchar (hname s rfl) hcut

theorem nameColumn_eq_none {name : Option String} (h : nameColumn name = some none) :
    name = none := by
  cases name with
  | none => rfl
  | some s => simp [nameColumn] at h

theorem always_city_insert (id : Option Nat) {nameEn nameAr : Option String}
    (hEn : ∀ s ∈ nameEn, CleanText s) (hAr : ∀ s ∈ nameAr, CleanText s)
    (hcodes : ["22001", "23505"] ⊆ codes)
    (hnull : nameEn = none ∨ nameAr = none → "23502" ∈ codes) :
    Always (fun _ => True) (Allowed xs codes) (CityRepository.insert id nameEn nameAr) := by
  refine always_execute (allowed_param (plain_textParams hEn hAr) fun h =>
    (int_not_mem_textParams _ h).elim) fun _ t => ?_
  split
  · next storedEn storedAr hstoredEn hstoredAr =>
    dsimp only
    cases hrow : CityRecord.row ⟨(t.drawCity id).1, storedEn, storedAr⟩ with
    | none =>
      refine ends_error (hnull ?_)
      rcases CityRecord.row_eq_none hrow with h | h
      · exact Or.inl (nameColumn_eq_none (h ▸ hstoredEn))
      · exact Or.inr (nameColumn_eq_none (h ▸ hstoredAr))
    | some row =>
      have hclean := CityRecord.Clean.row (c := ⟨_, storedEn, storedAr⟩)
        ⟨clean_nameColumn hEn hstoredEn, clean_nameColumn hAr hstoredAr⟩ hrow
      refine ends_map _ (ends_write _ ⟨fun c hc => ?_, t.clean.2⟩ t.ranges
        (fun _ => hcodes (by simp)) fun hnot => ?_)
      · rcases List.mem_append.1 hc with hc | hc
        · exact t.clean.1 c hc
        · rw [List.mem_singleton.1 hc]
          exact hclean
      · exact (hnot (t.references.of_cities (mem_ids_addCity row))).elim
  · exact ends_error (hcodes (by simp))

theorem always_city_update {id : Nat} (hid : id < 10 ^ 21) {nameEn nameAr : Option (Option String)}
    (hEn : ∀ s ∈ nameEn.join, CleanText s) (hAr : ∀ s ∈ nameAr.join, CleanText s)
    (hcodes : ["22001", "22003", "23502", "23505"] ⊆ codes) :
    Always (fun _ => True) (Allowed xs codes) (CityRepository.update id nameEn nameAr) := by
  refine always_execute (allowed_param (fun p hp => ?_) fun _ => hcodes (by simp)) fun _ t => ?_
  · exact (List.mem_append.1 hp).elim (plain_textParams hEn hAr p) (plain_id hid p)
  · split
    · next storedEn storedAr hstoredEn hstoredAr =>
      split
      · trivial
      · next found hfound =>
        obtain ⟨hfoundEn, hfoundAr⟩ := t.clean.1 found (List.mem_of_find?_eq_some hfound)
        have hrecord : CityRecord.Clean
            ⟨id, if nameEn.isSome then storedEn else some found.nameEn,
              if nameAr.isSome then storedAr else some found.nameAr⟩ := by
          refine ⟨fun s hs => ?_, fun s hs => ?_⟩
          · cases nameEn with
            | none => exact Option.some.inj hs ▸ hfoundEn
            | some name => exact clean_nameColumn hEn hstoredEn s hs
          · cases nameAr with
            | none => exact Option.some.inj hs ▸ hfoundAr
            | some name => exact clean_nameColumn hAr hstoredAr s hs
        dsimp only
        split
        · exact ends_error (hcodes (by simp))
        · next row hrow =>
          have hids : (Keyed.alter CityEntity.id id (fun _ => row) t.rows.cities).map
              CityEntity.id = t.rows.cities.map CityEntity.id :=
            Keyed.map_alter fun c _ hc => (CityRecord.id_of_row hrow).trans hc.symm
          refine ends_write _ ⟨fun c hc => ?_, t.clean.2⟩ t.ranges (fun _ => hcodes (by simp))
            fun hnot => ?_
          · obtain ⟨old, hold, rfl⟩ := List.mem_map.1 hc
            split
            · exact hrecord.row hrow
            · exact t.clean.1 old hold
          · exact (hnot (t.references.of_cities fun city hcity => hids.symm ▸ hcity)).elim
    · exact ends_error (hcodes (by simp))

theorem always_city_save {city : CityRecord} (hcity : city.Clean) (hid : city.id < 10 ^ 21)
    (hcodes : ["22001", "22003", "23502", "23505"] ⊆ codes) :
    Always (fun _ => True) (Allowed xs codes) (CityRepository.save city) := by
  refine (always_city_findById hid (hcodes (by simp))).bind fun o _ => ?_
  cases o with
  | none =>
    have hinsert : ["22001", "23505"] ⊆ codes :=
      List.cons_subset.2 ⟨hcodes (by simp), List.cons_subset.2 ⟨hcodes (by simp), by simp⟩⟩
    exact always_city_insert _ hcity.1 hcity.2 hinsert fun _ => hcodes (by simp)
  | some row =>
    dsimp only
    split
    · exact Always.pure trivial
    · refine Always.bind (always_city_update hid (fun s hs => ?_) (fun s hs => ?_) hcodes)
        fun _ _ => Always.pure trivial
      · split at hs
        · cases hs
        · exact hcity.1 s hs
      · split at hs
        · cases hs
        · exact hcity.2 s hs

def UpdateCityDto.Clean (dto : UpdateCityDto) : Prop :=
  (∀ s ∈ dto.nameEn.join, CleanText s) ∧ ∀ s ∈ dto.nameAr.join, CleanText s

theorem always_createCity {dto : CreateCityDto} (hEn : CleanText dto.nameEn)
    (hAr : CleanText dto.nameAr) (hcodes : ["22001", "23505"] ⊆ codes)
    (hx : ∀ e ∈ [CityService.nameEnTaken, CityService.nameArTaken], e ∈ xs) :
    Always (fun _ => True) (Allowed xs codes) (CityService.createForAdmin anyRow dto) := by
  refine (always_findByName _ (by simpa using hEn)).bind fun existing _ => ?_
  split
  · exact always_throw_bind (hx _ (by simp))
  · refine (always_findByName _ (by simpa using hAr)).bind fun existing _ => ?_
    split
    · exact always_throw_bind (hx _ (by simp))
    · exact always_city_insert none (by simpa using hEn) (by simpa using hAr) hcodes (by simp)

theorem always_city_checkName (column : CityEntity → String) {taken : HttpException} (id : Nat)
    (current : String) {name : Option (Option String)} (hname : ∀ s ∈ name.join, CleanText s)
    (hx : taken ∈ xs) :
    Always (fun _ => True) (Allowed xs codes)
      (CityService.checkName anyRow column taken id current name) := by
  cases name with
  | none => exact Always.pure trivial
  | some name =>
    rw [CityService.checkName]
    by_cases hsame : name = some current
    · rw [if_neg (not_not_intro hsame)]
      exact Always.pure trivial
    · rw [if_pos hsame]
      refine (always_findByName column hname).bind fun existing _ => ?_
      split
      · exact Always.throw hx
      · exact Always.pure trivial

theorem always_updateCity {id : Nat} (hid : id < 10 ^ 21) {dto : UpdateCityDto} (hdto : dto.Clean)
    (hcodes : ["22001", "22003", "23502", "23505"] ⊆ codes)
    (hx : ∀ e ∈ [cityNotFound, CityService.nameEnTaken, CityService.nameArTaken], e ∈ xs) :
    Always (fun _ => True) (Allowed xs codes) (CityService.updateForAdmin anyRow id dto) := by
  refine (always_city_findByIdOrFail hid (hcodes (by simp)) (hx _ (by simp))).bind
    fun city hcity => ?_
  refine (always_city_checkName _ id _ hdto.1 (hx _ (by simp))).bind fun _ _ => ?_
  refine (always_city_checkName _ id _ hdto.2 (hx _ (by simp))).bind fun _ _ => ?_
  refine always_city_save ⟨fun s hs => ?_, fun s hs => ?_⟩ (hcity.1 ▸ hid) hcodes
  · cases hEn : dto.nameEn with
    | none => exact hcity.2.1 s (by simpa [hEn, CityEntity.record] using hs)
    | some name => exact hdto.1 s (by simpa [hEn] using hs)
  · cases hAr : dto.nameAr with
    | none => exact hcity.2.2 s (by simpa [hAr, CityEntity.record] using hs)
    | some name => exact hdto.2 s (by simpa [hAr] using hs)

theorem always_city_delete {id : Nat} (hid : id < 10 ^ 21)
    (hcodes : ["22003", restrictCode] ⊆ codes) :
    Always (fun _ => True) (Allowed xs codes) (CityRepository.deleteById restrictCode id) := by
  refine always_execute (allowed_param (plain_id hid) fun _ => hcodes (by simp)) fun _ t => ?_
  dsimp only
  split
  · exact ends_error (hcodes (by simp))
  · next hfree =>
    exact ends_write_consistent t (consistent_removeCity id fun u hu huser =>
      hfree ⟨u, hu, huser⟩)

/-- What `deleteForAdmin` lets out of the errors of the delete. -/
theorem allowed_translateDelete_city {e : Failure} (h : Allowed xs ["22003", restrictCode] e)
    (hx : CityService.cannotDeleteInUse ∈ xs) :
    Allowed xs ("22003" :: [restrictCode].filter (· ≠ "23503"))
      (CityService.translateDelete e) := by
  cases e with
  | http e => exact h
  | queryFailed code =>
    by_cases hcode : code = "23503" ∨ code = "ER_ROW_IS_REFERENCED"
    · simpa only [CityService.translateDelete, if_pos hcode, Allowed] using hx
    · have hother : code ≠ "23503" := fun heq => hcode (Or.inl heq)
      rw [CityService.translateDelete, if_neg hcode]
      simp only [Allowed, List.mem_cons, List.not_mem_nil, or_false, List.mem_filter] at h ⊢
      rcases h with rfl | rfl
      · exact Or.inl rfl
      · exact Or.inr ⟨rfl, by simpa using hother⟩

theorem always_deleteCity {id : Nat} (hid : id < 10 ^ 21)
    (hx : ∀ e ∈ [cityNotFound, CityService.cannotDeleteInUse], e ∈ xs) :
    Always (fun _ => True) (Allowed xs ("22003" :: [restrictCode].filter (· ≠ "23503")))
      (CityService.deleteForAdmin restrictCode id) := by
  refine (always_city_findByIdOrFail hid (by simp) (hx _ (by simp))).bind fun city hcity => ?_
  exact (always_city_delete (hcity.1 ▸ hid) (List.Subset.refl _)).tryCatch fun e he =>
    Always.throw (allowed_translateDelete_city he (hx _ (by simp)))

/-! ## Areas -/

structure FoundArea (id : Nat) (a : AreaEntity) : Prop where
  id : a.id = id
  clean : CleanArea a
  cityId : a.cityId ≤ 2147483647

theorem always_area_findById {id : Nat} (hid : id < 10 ^ 21) (hcode : "22003" ∈ codes) :
    Always (fun o => ∀ a ∈ o, FoundArea id a) (Allowed xs codes) (AreaRepository.findById id) :=
  always_select (allowed_param (plain_id hid) fun _ => hcode) fun t a ha =>
    ⟨by simpa using List.find?_some ha, t.clean.2.1 a (List.mem_of_find?_eq_some ha),
      t.ranges.1 a (List.mem_of_find?_eq_some ha)⟩

theorem always_area_findByIdOrFail {id : Nat} (hid : id < 10 ^ 21) (hcode : "22003" ∈ codes)
    (hx : areaNotFound ∈ xs) :
    Always (FoundArea id) (Allowed xs codes) (AreaService.findByIdOrFail id) := by
  refine (always_area_findById hid hcode).bind fun o ho => ?_
  cases o with
  | none => exact Always.throw hx
  | some a => exact Always.pure (ho a rfl)

theorem plain_key {cityId : Nat} (hid : cityId < 10 ^ 21) {name : String} (hname : CleanText name) :
    ∀ p ∈ [Param.int cityId, .text name], p.Plain := by
  intro p hp
  simp only [List.mem_cons, List.not_mem_nil, or_false] at hp
  rcases hp with rfl | rfl
  · exact hid
  · exact hname

theorem always_findByKey (key : AreaEntity → Nat × String) {cityId : Nat} (hid : cityId < 10 ^ 21)
    {name : String} (hname : CleanText name) (hcode : "22003" ∈ codes) :
    Always (fun _ => True) (Allowed xs codes) (AreaRepository.findByKey key cityId name) :=
  always_select (allowed_param (plain_key hid hname) fun _ => hcode) fun _ => trivial

theorem always_area_insert (id : Option Nat) {cityId : Nat} (hid : cityId < 10 ^ 21)
    {nameEn nameAr : String} (hEn : CleanText nameEn) (hAr : CleanText nameAr)
    (hcodes : ["22001", "22003", "23503", "23505"] ⊆ codes) :
    Always (fun _ => True) (Allowed xs codes)
      (AreaRepository.insert id cityId nameEn nameAr) := by
  refine always_execute (allowed_param (fun p hp => ?_) fun _ => hcodes (by simp)) fun hfits t => ?_
  · simp only [List.mem_cons, List.not_mem_nil, or_false] at hp
    rcases hp with rfl | rfl | rfl
    · exact hid
    · exact hEn
    · exact hAr
  · split
    · next storedEn storedAr hstoredEn hstoredAr =>
      refine ends_map _ (ends_write _ ⟨t.clean.1, fun a ha => ?_, t.clean.2.2⟩
        ⟨fun a ha => ?_, t.ranges.2⟩ (fun _ => hcodes (by simp)) fun _ => hcodes (by simp))
      · rcases List.mem_append.1 ha with ha | ha
        · exact t.clean.2.1 a ha
        · rw [List.mem_singleton.1 ha]
          exact ⟨clean_varchar hEn hstoredEn, clean_varchar hAr hstoredAr⟩
      · rcases List.mem_append.1 ha with ha | ha
        · exact t.ranges.1 a ha
        · rw [List.mem_singleton.1 ha]
          exact hfits (.int cityId) List.mem_cons_self
    · exact ends_error (hcodes (by simp))

theorem clean_storedChanges {changes stored : UpdateAreaDto} (h : CleanChanges changes)
    (hstored : AreaRepository.storedChanges changes = some stored) :
    CleanChanges stored ∧ stored.cityId = changes.cityId := by
  simp only [AreaRepository.storedChanges, Option.bind_eq_bind, Option.bind_eq_some_iff,
    Option.pure_def, Option.some.injEq] at hstored
  obtain ⟨storedEn, hEn, storedAr, hAr, rfl⟩ := hstored
  exact ⟨⟨clean_nameColumn h.1 hEn, clean_nameColumn h.2 hAr⟩, rfl⟩

theorem always_area_update {id : Nat} (hid : id < 10 ^ 21) {changes : UpdateAreaDto}
    (hcity : ∀ city ∈ changes.cityId, city < 10 ^ 21) (h : CleanChanges changes)
    (hcodes : ["22001", "22003", "23503", "23505"] ⊆ codes) :
    Always (fun _ => True) (Allowed xs codes) (AreaRepository.update id changes) := by
  refine always_execute (allowed_param (fun p hp => ?_) fun _ => hcodes (by simp)) fun hfits t => ?_
  · simp only [AreaRepository.changeParams, List.mem_append, List.mem_map, Option.mem_toList,
      List.mem_singleton] at hp
    rcases hp with ((⟨city, hsent, rfl⟩ | ⟨name, hsent, rfl⟩) | ⟨name, hsent, rfl⟩) | rfl
    · exact hcity city hsent
    · exact h.1 name hsent
    · exact h.2 name hsent
    · exact hid
  · cases hstored : AreaRepository.storedChanges changes with
    | none => exact ends_error (hcodes (by simp))
    | some stored =>
      obtain ⟨hclean, hsame⟩ := clean_storedChanges h hstored
      have hrange : ∀ city ∈ stored.cityId, city ≤ 2147483647 := by
        intro city hsent
        rw [hsame] at hsent
        have hmem : Param.int city ∈ AreaRepository.changeParams changes := by
          simpa [AreaRepository.changeParams] using hsent
        exact hfits (.int city) (List.mem_append_left _ hmem)
      refine ends_write _ ⟨t.clean.1, fun a ha => ?_, t.clean.2.2⟩
        ⟨fun a ha => ?_, t.ranges.2⟩ (fun _ => hcodes (by simp)) fun _ => hcodes (by simp)
      · obtain ⟨old, hold, rfl⟩ := List.mem_map.1 ha
        have holdClean : CleanArea old := t.clean.2.1 old hold
        split
        · exact holdClean.merge hclean
        · exact holdClean
      · obtain ⟨old, hold, rfl⟩ := List.mem_map.1 ha
        split
        · cases hsent : stored.cityId with
          | none => simpa [AreaEntity.merge, hsent] using t.ranges.1 old hold
          | some city => simpa [AreaEntity.merge, hsent] using hrange city hsent
        · exact t.ranges.1 old hold

theorem cleanChanges_changedColumns (row : AreaEntity) {area : AreaEntity} (h : CleanArea area) :
    CleanChanges (AreaRepository.changedColumns row area) := by
  constructor
  · intro s hs
    simp only [AreaRepository.changedColumns] at hs
    split at hs
    · cases hs
    · exact Option.some.inj hs ▸ h.1
  · intro s hs
    simp only [AreaRepository.changedColumns] at hs
    split at hs
    · cases hs
    · exact Option.some.inj hs ▸ h.2

theorem always_area_save {area : AreaEntity} (h : CleanArea area) (hid : area.id < 10 ^ 21)
    (hcity : area.cityId < 10 ^ 21) (hcodes : ["22001", "22003", "23503", "23505"] ⊆ codes) :
    Always (fun _ => True) (Allowed xs codes) (AreaRepository.save area) := by
  refine (always_area_findById hid (hcodes (by simp))).bind fun o _ => ?_
  cases o with
  | none => exact always_area_insert _ hcity h.1 h.2 hcodes
  | some row =>
    dsimp only
    split
    · exact Always.pure trivial
    · refine Always.bind (always_area_update hid (fun city hsent => ?_)
        (cleanChanges_changedColumns row h) hcodes) fun _ _ => Always.pure trivial
      simp only [AreaRepository.changedColumns] at hsent
      split at hsent
      · cases hsent
      · exact Option.some.inj hsent ▸ hcity

theorem always_createArea {dto : CreateAreaDto} (hid : dto.cityId < 10 ^ 21)
    (hEn : CleanText dto.nameEn) (hAr : CleanText dto.nameAr)
    (hcodes : ["22001", "22003", "23503", "23505"] ⊆ codes)
    (hx : ∀ e ∈ [cityNotFound, Areas.nameEnTaken, Areas.nameArTaken], e ∈ xs) :
    Always (fun _ => True) (Allowed xs codes) (AreaService.createForAdmin dto) := by
  refine (always_assertExists hid (hcodes (by simp)) (hx _ (by simp))).bind fun _ _ => ?_
  refine (always_findByKey _ hid hEn (hcodes (by simp))).bind fun existing _ => ?_
  split
  · exact always_throw_bind (hx _ (by simp))
  · refine (always_findByKey _ hid hAr (hcodes (by simp))).bind fun existing _ => ?_
    split
    · exact always_throw_bind (hx _ (by simp))
    · exact always_area_insert none hid hEn hAr hcodes

theorem always_area_checkName (key : AreaEntity → Nat × String) {taken : HttpException}
    (id : Nat) {cityId : Nat} (hid : cityId < 10 ^ 21) (current : String) {name : Option String}
    (hname : ∀ s ∈ name, CleanText s) (hcode : "22003" ∈ codes) (hx : taken ∈ xs) :
    Always (fun _ => True) (Allowed xs codes)
      (AreaService.checkName key taken id cityId current name) := by
  cases name with
  | none => exact Always.pure trivial
  | some name =>
    rw [AreaService.checkName]
    by_cases hsame : name = current
    · rw [if_neg (not_not_intro hsame)]
      exact Always.pure trivial
    · rw [if_pos hsame]
      refine (always_findByKey key hid (hname name rfl) hcode).bind fun existing _ => ?_
      split
      · exact Always.throw hx
      · exact Always.pure trivial

theorem always_checkCity {cityId : Option Nat} (hid : ∀ city ∈ cityId, city < 10 ^ 21)
    (hcode : "22003" ∈ codes) (hx : cityNotFound ∈ xs) :
    Always (fun _ => True) (Allowed xs codes) (AreaService.checkCity cityId) := by
  cases cityId with
  | none => exact Always.pure trivial
  | some cityId => exact always_assertExists (hid cityId rfl) hcode hx

theorem always_updateArea {id : Nat} (hid : id < 10 ^ 21) {dto : UpdateAreaDto}
    (hcity : ∀ city ∈ dto.cityId, city < 10 ^ 21) (hdto : CleanChanges dto)
    (hcodes : ["22001", "22003", "23503", "23505"] ⊆ codes)
    (hx : ∀ e ∈ [areaNotFound, cityNotFound, Areas.nameEnTaken, Areas.nameArTaken], e ∈ xs) :
    Always (fun _ => True) (Allowed xs codes) (AreaService.updateForAdmin id dto) := by
  have hcode : "22003" ∈ codes := hcodes (by simp)
  refine (always_area_findByIdOrFail hid hcode (hx _ (by simp))).bind fun area harea => ?_
  have heffective : dto.cityId.getD area.cityId < 10 ^ 21 := by
    cases hsent : dto.cityId with
    | none => exact plain_of_integer harea.cityId
    | some city => exact hcity city hsent
  refine (always_checkCity hcity hcode (hx _ (by simp))).bind fun _ _ => ?_
  refine (always_area_checkName _ id heffective _ hdto.1 hcode (hx _ (by simp))).bind
    fun _ _ => ?_
  refine (always_area_checkName _ id heffective _ hdto.2 hcode (hx _ (by simp))).bind
    fun _ _ => ?_
  exact always_area_save (harea.clean.merge hdto) (harea.id ▸ hid) heffective hcodes

theorem always_area_delete {id : Nat} (hid : id < 10 ^ 21) :
    Always (fun _ => True) (Allowed xs ["22003"]) (AreaRepository.deleteById id) :=
  always_execute (allowed_param (plain_id hid) fun _ => by simp) fun _ t =>
    ends_write_consistent t (consistent_removeArea id)

theorem allowed_translateDelete_area {e : Failure} (h : Allowed xs ["22003"] e) :
    Allowed xs ["22003"] (AreaService.translateDelete e) := by
  cases e with
  | http e => exact h
  | queryFailed code =>
    obtain rfl : code = "22003" := by simpa [Allowed] using h
    exact List.mem_cons_self

theorem always_deleteArea {id : Nat} (hid : id < 10 ^ 21) (hx : areaNotFound ∈ xs) :
    Always (fun _ => True) (Allowed xs ["22003"]) (AreaService.deleteForAdmin id) := by
  refine (always_area_findByIdOrFail hid (by simp) hx).bind fun area harea => ?_
  exact (always_area_delete (harea.id ▸ hid)).tryCatch fun e he =>
    Always.throw (allowed_translateDelete_area he)

/-! ## Users -/

/-- A user in memory whose columns can be parameters. -/
structure PlainUser (id : Nat) (u : UserRow) : Prop where
  id : u.id = id
  phone : CleanText u.phone
  cityId : ∀ city ∈ u.cityId, city < 10 ^ 21

theorem always_user_findById {id : Nat} (hid : id < 10 ^ 21) (hcode : "22003" ∈ codes) :
    Always (fun o => ∀ u ∈ o, PlainUser id u) (Allowed xs codes) (UserRepository.findById id) :=
  always_select (allowed_param (plain_id hid) fun _ => hcode) fun t u hu =>
    have hmem : u ∈ t.rows.users := List.mem_of_find?_eq_some hu
    ⟨by simpa using List.find?_some hu, t.clean.2.2 u hmem,
      fun city hcity => plain_of_integer (t.ranges.2 u hmem city hcity)⟩

theorem always_user_findByIdOrFail {id : Nat} (hid : id < 10 ^ 21) (hcode : "22003" ∈ codes)
    (hx : userNotFound ∈ xs) :
    Always (PlainUser id) (Allowed xs codes) (UserService.findByIdOrFail id) := by
  refine (always_user_findById hid hcode).bind fun o ho => ?_
  cases o with
  | none => exact Always.throw hx
  | some u => exact Always.pure (ho u rfl)

theorem always_user_insert (id : Option Nat) {user : UserRow} (hphone : CleanText user.phone)
    (hcity : ∀ city ∈ user.cityId, city < 10 ^ 21) (hcodes : ["22003", "23503", "23505"] ⊆ codes) :
    Always (fun _ => True) (Allowed xs codes) (UserRepository.insert id user) := by
  refine always_execute (allowed_param (fun p hp => ?_) fun _ => hcodes (by simp)) fun hfits t => ?_
  · simp only [List.mem_cons, List.mem_map, Option.mem_toList] at hp
    rcases hp with rfl | ⟨city, hsent, rfl⟩
    · exact hphone
    · exact hcity city hsent
  · refine ends_map _ (ends_write _ ⟨t.clean.1, t.clean.2.1, fun u hu => ?_⟩
      ⟨t.ranges.1, fun u hu => ?_⟩ (fun _ => hcodes (by simp)) fun _ => hcodes (by simp))
    · rcases List.mem_append.1 hu with hu | hu
      · exact t.clean.2.2 u hu
      · rw [List.mem_singleton.1 hu]
        exact hphone
    · rcases List.mem_append.1 hu with hu | hu
      · exact t.ranges.2 u hu
      · rw [List.mem_singleton.1 hu]
        exact fun city hsent => hfits (.int city) (by simpa using hsent)

theorem always_user_update (row : UserRow) {user : UserRow} (huser : PlainUser user.id user)
    (hid : user.id < 10 ^ 21) (hcodes : ["22003", "23503", "23505"] ⊆ codes) :
    Always (fun _ => True) (Allowed xs codes) (UserRepository.update row user) := by
  refine always_execute (allowed_param (fun p hp => ?_) fun _ => hcodes (by simp)) fun hfits t => ?_
  · simp only [List.mem_append, List.mem_cons, List.not_mem_nil, or_false, List.mem_map,
      Option.mem_toList] at hp
    rcases hp with (rfl | rfl) | ⟨city, hsent, rfl⟩
    · exact huser.phone
    · exact hid
    · exact huser.cityId city hsent
  · refine ends_write _ ⟨t.clean.1, t.clean.2.1, fun u hu => ?_⟩
      ⟨t.ranges.1, fun u hu => ?_⟩ (fun _ => hcodes (by simp)) fun _ => hcodes (by simp)
    · obtain ⟨old, hold, rfl⟩ := List.mem_map.1 hu
      split
      · dsimp only
        split
        · exact t.clean.2.2 old hold
        · exact huser.phone
      · exact t.clean.2.2 old hold
    · obtain ⟨old, hold, rfl⟩ := List.mem_map.1 hu
      split
      · dsimp only
        split
        · exact t.ranges.2 old hold
        · exact fun city hsent =>
            hfits (.int city) (List.mem_append_right _ (by simpa using hsent))
      · exact t.ranges.2 old hold

theorem always_user_save {id : Nat} (hid : id < 10 ^ 21) {user : UserRow}
    (huser : PlainUser id user) (hcodes : ["22003", "23503", "23505"] ⊆ codes) :
    Always (fun _ => True) (Allowed xs codes) (UserRepository.save user) := by
  obtain rfl := huser.id
  refine (always_user_findById hid (hcodes (by simp))).bind fun o _ => ?_
  cases o with
  | none => exact always_user_insert _ huser.phone huser.cityId hcodes
  | some row =>
    dsimp only
    split
    · exact Always.pure trivial
    · exact (always_user_update row huser hid hcodes).bind fun _ _ => Always.pure trivial

theorem always_updateMe {id : Nat} (hid : id < 10 ^ 21) {cityId : Option (Option Nat)}
    (hcity : ∀ city ∈ cityId.join, city < 10 ^ 21) (hcodes : ["22003", "23503", "23505"] ⊆ codes)
    (hx : ∀ e ∈ [cityNotFound, userNotFound], e ∈ xs) :
    Always (fun _ => True) (Allowed xs codes) (UserService.updateMe id cityId) := by
  have hcode : "22003" ∈ codes := hcodes (by simp)
  have hrest : Always (fun _ => True) (Allowed xs codes) (do
      let current ← UserService.findByIdOrFail id
      UserRepository.save { current with cityId := cityId.getD current.cityId }) := by
    refine (always_user_findByIdOrFail hid hcode (hx _ (by simp))).bind fun u hu => ?_
    refine always_user_save hid ⟨hu.id, hu.phone, fun city hsent => ?_⟩ hcodes
    cases cityId with
    | none => exact hu.cityId city hsent
    | some sent => exact hcity city hsent
  unfold UserService.updateMe
  split
  · exact (always_assertExists (hcity _ rfl) hcode (hx _ (by simp))).bind fun _ _ => hrest
  · exact hrest

theorem always_completeProfile {id cityId : Nat} (hid : id < 10 ^ 21) (hcity : cityId < 10 ^ 21)
    (hcodes : ["22003", "23503", "23505"] ⊆ codes)
    (hx : ∀ e ∈ [cityNotFound, userNotFound, profileAlreadyCompleted], e ∈ xs) :
    Always (fun _ => True) (Allowed xs codes) (UserService.completeProfile id cityId) := by
  have hcode : "22003" ∈ codes := hcodes (by simp)
  refine (always_user_findByIdOrFail hid hcode (hx _ (by simp))).bind fun current hcurrent => ?_
  split
  · exact always_throw_bind (hx _ (by simp))
  · refine (always_assertExists hcity hcode (hx _ (by simp))).bind fun _ _ => ?_
    refine always_user_save hid ⟨hcurrent.id, hcurrent.phone, fun city hsent => ?_⟩ hcodes
    exact Option.some.inj hsent ▸ hcity

theorem always_createUser {phone : String} (hphone : CleanText phone) {cityId : Nat}
    (hcity : cityId < 10 ^ 21) (hcodes : ["22003", "23503", "23505"] ⊆ codes)
    (hx : ∀ e ∈ [cityNotFound, phoneTaken], e ∈ xs) :
    Always (fun _ => True) (Allowed xs codes) (UserService.createByAdmin phone cityId) := by
  have hplain : ∀ p ∈ [Param.text phone], p.Plain := by
    intro p hp
    rw [List.mem_singleton.1 hp]
    exact hphone
  refine Always.bind (A := fun _ => True)
    (always_select (allowed_param hplain (by simp)) fun _ => trivial) fun existing _ => ?_
  split
  · exact always_throw_bind (hx _ (by simp))
  · refine (always_assertExists hcity (hcodes (by simp)) (hx _ (by simp))).bind fun _ _ => ?_
    exact always_user_insert none hphone (fun city hsent => Option.some.inj hsent ▸ hcity) hcodes

end Calls

/-! ## Any call -/

def Op.Clean : Op → Prop
  | .createCity dto => CleanText dto.nameEn ∧ CleanText dto.nameAr
  | .updateCity _ dto => dto.Clean
  | .createArea dto => CleanText dto.nameEn ∧ CleanText dto.nameAr
  | .updateArea _ dto => CleanChanges dto
  | .createUser phone _ => CleanText phone
  | .deleteCity _ | .deleteArea _ | .updateMe .. | .completeProfile .. => True

def Op.ints : Op → List Nat
  | .createCity _ => []
  | .updateCity id _ | .deleteCity id | .deleteArea id => [id]
  | .createArea dto => [dto.cityId]
  | .updateArea id dto => id :: dto.cityId.toList
  | .updateMe user cityId => user :: cityId.join.toList
  | .completeProfile user cityId => [user, cityId]
  | .createUser _ cityId => [cityId]

/-- The texts of a call are clean, and its numbers are sent with all their digits. -/
structure Op.Plain (op : Op) : Prop where
  clean : op.Clean
  ints : ∀ n ∈ op.ints, n < 10 ^ 21

/-- The exceptions that a call throws itself. -/
def Op.exceptions : Op → List HttpException
  | .createCity _ => [CityService.nameEnTaken, CityService.nameArTaken]
  | .updateCity .. => [cityNotFound, CityService.nameEnTaken, CityService.nameArTaken]
  | .deleteCity _ => [cityNotFound, CityService.cannotDeleteInUse]
  | .createArea _ => [cityNotFound, Areas.nameEnTaken, Areas.nameArTaken]
  | .updateArea .. => [areaNotFound, cityNotFound, Areas.nameEnTaken, Areas.nameArTaken]
  | .deleteArea _ => [areaNotFound]
  | .updateMe .. => [cityNotFound, userNotFound]
  | .completeProfile .. => [cityNotFound, userNotFound, profileAlreadyCompleted]
  | .createUser .. => [cityNotFound, phoneTaken]

/-- The codes with which a statement of a call fails. -/
def Op.codes (restrictCode : String) : Op → List String
  | .createCity _ => ["22001", "23505"]
  | .updateCity .. => ["22001", "22003", "23502", "23505"]
  -- the call translates 23503
  | .deleteCity _ => "22003" :: [restrictCode].filter (· ≠ "23503")
  | .createArea _ | .updateArea .. => ["22001", "22003", "23503", "23505"]
  | .deleteArea _ => ["22003"]
  | .updateMe .. | .completeProfile .. | .createUser .. => ["22003", "23503", "23505"]

theorem always_answer {α : Type} {E : Failure → Prop} {m : CatalogM α} (f : α → Answer)
    (h : Always (fun _ => True) E m) : Always (fun _ => True) E (do return f (← m)) :=
  h.bind fun _ _ => Always.pure trivial

theorem Op.always_call {anyRow : List CityEntity → Option CityEntity} {restrictCode : String}
    {op : Op} (h : op.Plain) :
    Always (fun _ => True) (Allowed op.exceptions (op.codes restrictCode))
      (op.call anyRow restrictCode) := by
  obtain ⟨hclean, hints⟩ := h
  cases op with
  | createCity dto =>
    exact always_answer _ (always_createCity hclean.1 hclean.2 (List.Subset.refl _) fun _ he => he)
  | updateCity id dto =>
    exact always_answer _ (always_updateCity (hints id (by simp [Op.ints])) hclean
      (List.Subset.refl _) fun _ he => he)
  | deleteCity id =>
    exact always_answer _ (always_deleteCity (hints id (by simp [Op.ints])) fun _ he => he)
  | createArea dto =>
    exact always_answer _ (always_createArea (hints _ (by simp [Op.ints])) hclean.1 hclean.2
      (List.Subset.refl _) fun _ he => he)
  | updateArea id dto =>
    exact always_answer _ (always_updateArea (hints id (by simp [Op.ints]))
      (fun city hsent => hints city (by simpa [Op.ints] using Or.inr hsent)) hclean
      (List.Subset.refl _) fun _ he => he)
  | deleteArea id =>
    exact always_answer _ (always_deleteArea (hints id (by simp [Op.ints])) List.mem_cons_self)
  | updateMe user cityId =>
    exact always_answer _ (always_updateMe (hints user (by simp [Op.ints]))
      (fun city hsent => hints city (by simpa [Op.ints] using Or.inr hsent))
      (List.Subset.refl _) fun _ he => he)
  | completeProfile user cityId =>
    exact always_answer _ (always_completeProfile (hints user (by simp [Op.ints]))
      (hints cityId (by simp [Op.ints])) (List.Subset.refl _) fun _ he => he)
  | createUser phone cityId =>
    exact always_answer _ (always_createUser hclean (hints _ (by simp [Op.ints]))
      (List.Subset.refl _) fun _ he => he)

/-! ## Statuses -/

def statusOf : HttpStatus → Nat × String × String
  | .badRequest => (400, "BadRequestException", "Bad Request")
  | .unauthorized => (401, "UnauthorizedException", "Unauthorized")
  | .forbidden => (403, "ForbiddenException", "Forbidden")
  | .notFound => (404, "NotFoundException", "Not Found")
  | .conflict => (409, "ConflictException", "Conflict")
  | .internalServerError => (500, "InternalServerErrorException", "Internal Server Error")

def thrownOf : Failure → Filters.Thrown
  | .http e => .error
      { name := (statusOf e.status).2.1
        message := e.message
        kind := .http (statusOf e.status).1 (.object none
          [("message", .string e.message), ("error", .string (statusOf e.status).2.2),
            ("statusCode", .number (.finite (statusOf e.status).1))]) }
  | .queryFailed code => .error
      { name := "QueryFailedError", message := "", kind := .queryFailed (some { code }) }

def ClientError (res : Filters.ErrorResponse) : Prop :=
  ∃ code ∈ res.statusCode, 400 ≤ code ∧ code < 500

theorem exceptions_clientError (op : Op) :
    ∀ e ∈ op.exceptions, 400 ≤ (statusOf e.status).1 ∧ (statusOf e.status).1 < 500 := by
  cases op <;> · simp only [Op.exceptions]; decide

theorem codes_clientError {restrictCode : String} (hcode : restrictCode ∈ ["23503", "23001"])
    (op : Op) :
    ∀ code ∈ op.codes restrictCode, ∃ m ∈ Filters.TypeOrmErrorHandler.mapping (some code),
      400 ≤ m.statusCode ∧ m.statusCode < 500 := by
  simp only [List.mem_cons, List.not_mem_nil, or_false] at hcode
  rcases hcode with rfl | rfl <;> cases op <;> · simp only [Op.codes]; decide

/-- The filter answers every failure of a call with a 4xx. -/
theorem clientError_of_allowed {restrictCode : String} (hcode : restrictCode ∈ ["23503", "23001"])
    {op : Op} {e : Failure} (h : Allowed op.exceptions (op.codes restrictCode) e)
    (convert : Shared.Value → Option String) (nodeEnv : Option String) (thrownByHandler : String)
    (now : Instant) (request : Filters.Request) :
    ∃ res, Filters.GlobalExceptionFilter.catch convert nodeEnv thrownByHandler now request
        (thrownOf e) = some res ∧ ClientError res := by
  obtain ⟨status, hstatus, hle, hlt⟩ : ∃ status, (Filters.resolveResponse convert thrownByHandler
      now (thrownOf e)).statusCode = some status ∧ 400 ≤ status ∧ status < 500 := by
    cases e with
    | http e =>
      refine ⟨_, ?_, exceptions_clientError op e h⟩
      cases e with
      | mk status message args => cases status <;> rfl
    | queryFailed code =>
      obtain ⟨m, hm, hle, hlt⟩ := codes_clientError hcode op code h
      have hhandle : Filters.resolveResponse convert thrownByHandler now
          (thrownOf (.queryFailed code)) =
          Filters.TypeOrmErrorHandler.handle now (some { code := some code }) := rfl
      have hm : Filters.TypeOrmErrorHandler.mapping
          (Filters.TypeOrmErrorHandler.codeOf (some { code := some code })) = some m := hm
      refine ⟨m.statusCode, ?_, hle, hlt⟩
      rw [hhandle, Filters.TypeOrmErrorHandler.handle, hm]
      rfl
  obtain ⟨res, hcatch, hbody⟩ := Filters.catch_of_status convert nodeEnv thrownByHandler now
    request hstatus ⟨by omega, by omega⟩
  exact ⟨res, hcatch, status, (Filters.fields_of_body hbody).1.trans hstatus, hle, hlt⟩

def catalogSample : Tables where
  rows := { cities := [⟨1, "Homs", "حمص"⟩], areas := [⟨1, 1, "Waer", "الوعر"⟩] }
  clean := by decide
  ranges := by decide
  unique := by decide
  references := by decide
  nextCity := 2
  nextArea := 2
  nextUser := 1

/-- Two calls create one city, and a third adds an area to a city that a fourth deletes. -/
def opsSample : Nat → Op
  | 0 | 1 => .createCity ⟨"Hama", "حماة"⟩
  | 2 => .createArea ⟨1, "Inshaat", "الإنشاءات"⟩
  | _ => .deleteCity 1

/-- Every check is made before the first write. -/
def checkedTogether : List Nat := [0, 1, 0, 1, 2, 2, 2, 3, 0, 1, 3, 2]

end NestStarter.Catalog
