import NestStarter.Catalog.Consistent

/-! # Updating an area

`AreaService.updateForAdmin` with nobody else at work. Its checks look for a name only when that
name is sent and differs from the old one, although the city may change under a name that stays.
-/

namespace NestStarter.Catalog

open NestStarter.Core
open NestStarter.Areas (AreaEntity UpdateAreaDto cityNotFound areaNotFound)
open NestStarter.Accounts.Provisioning (Failure uniqueViolation)

variable {t : Tables}

/-- Another area than `id` has the name that is sent in place of the current one. -/
def Tables.NameTaken (t : Tables) (key : AreaEntity → Nat × String) (id cityId : Nat)
    (current : String) (sent : Option String) : Prop :=
  ∃ name ∈ sent, name ≠ current ∧ ∃ other ∈ t.rows.areas, other.id ≠ id ∧
    key other = (cityId, name)

theorem Param.failure_eq (p : Param) : ∃ code, p.failure = .queryFailed code := by
  cases p with
  | int n =>
    by_cases hlarge : n < 10 ^ 21
    · exact ⟨"22003", if_pos hlarge⟩
    · exact ⟨"22P02", if_neg hlarge⟩
  | text s => exact ⟨_, rfl⟩

/-- A statement with a parameter that the database does not take. -/
theorem exec_select_of_not_fits {α : Type} {params : List Param} {p : Param} (hp : p ∈ params)
    (h : ¬ p.Fits) (f : Rows → α) :
    ∃ code, Call.exec (select params f) t = (.error (.queryFailed code), t) := by
  obtain ⟨q, -, hexec⟩ := exec_execute_of_not_fits hp h (fun t => (.ok (f t.rows), t)) t
  obtain ⟨code, hcode⟩ := q.failure_eq
  exact ⟨code, by rw [select, hexec, hcode]⟩

theorem exec_assertExists {cityId : Nat} (hid : cityId ≤ 2147483647) :
    Call.exec (CityService.assertExists cityId) t =
      (if t.rows.HasCity cityId then .ok () else .error (.http cityNotFound), t) := by
  rw [CityService.assertExists, Call.exec_bind, CityRepository.existsById,
    exec_select (by simpa [Param.Fits] using hid)]
  by_cases h : t.rows.HasCity cityId <;> simp [h]

theorem exec_checkCity {cityId : Option Nat} (hid : ∀ city ∈ cityId, city ≤ 2147483647) :
    ((∀ city ∈ cityId, t.rows.HasCity city) →
      Call.exec (AreaService.checkCity cityId) t = (.ok (), t)) ∧
    ((∃ city ∈ cityId, ¬ t.rows.HasCity city) →
      Call.exec (AreaService.checkCity cityId) t = (.error (.http cityNotFound), t)) := by
  cases cityId with
  | none => simp [AreaService.checkCity]
  | some city => simp +contextual [AreaService.checkCity, exec_assertExists (hid city rfl)]

theorem exec_checkCity_of_not_fits {cityId : Option Nat}
    (h : ∃ city ∈ cityId, ¬ city ≤ 2147483647) :
    ∃ code, Call.exec (AreaService.checkCity cityId) t = (.error (.queryFailed code), t) := by
  obtain ⟨city, rfl, hcity⟩ := h
  obtain ⟨code, hexec⟩ := exec_select_of_not_fits (t := t) (p := .int city) List.mem_cons_self hcity
    fun r => decide (r.HasCity city)
  refine ⟨code, ?_⟩
  rw [AreaService.checkCity, CityService.assertExists, Call.exec_bind, CityRepository.existsById,
    hexec]

theorem exec_findByKey (key : AreaEntity → Nat × String) {cityId : Nat} {name : String}
    (hid : cityId ≤ 2147483647) (hname : CleanText name) :
    Call.exec (AreaRepository.findByKey key cityId name) t =
      (.ok (t.rows.areas.find? fun a => key a = (cityId, name)), t) :=
  exec_select (by simpa [Param.Fits] using ⟨hid, hname⟩) _ _

section CheckName

variable {key : AreaEntity → Nat × String} {taken : HttpException} {id cityId : Nat}
  {current : String} {sent : Option String}

theorem exec_area_checkName_of_taken (hunique : (t.rows.areas.map key).Nodup)
    (hid : cityId ≤ 2147483647) (hsent : ∀ s ∈ sent, CleanText s)
    (h : t.NameTaken key id cityId current sent) :
    Call.exec (AreaService.checkName key taken id cityId current sent) t =
      (.error (.http taken), t) := by
  obtain ⟨name, rfl, hne, other, hother, hotherId, hkey⟩ := h
  have hfind : (t.rows.areas.find? fun a => key a = (cityId, name)) = some other :=
    (Keyed.find?_eq_some_iff hunique).2 ⟨hother, hkey⟩
  rw [AreaService.checkName, if_pos hne, Call.exec_bind, exec_findByKey key hid (hsent name rfl),
    hfind]
  simp [hotherId]

theorem exec_area_checkName_of_free (hid : cityId ≤ 2147483647) (hsent : ∀ s ∈ sent, CleanText s)
    (h : ¬ t.NameTaken key id cityId current sent) :
    Call.exec (AreaService.checkName key taken id cityId current sent) t = (.ok (), t) := by
  cases sent with
  | none => simp [AreaService.checkName]
  | some name =>
    by_cases hne : name = current
    · simp [AreaService.checkName, hne]
    · rw [AreaService.checkName, if_pos hne, Call.exec_bind,
        exec_findByKey key hid (hsent name rfl)]
      cases hfind : t.rows.areas.find? fun a => key a = (cityId, name) with
      | none => simp
      | some other =>
        have hkey : key other = (cityId, name) := by simpa using List.find?_some hfind
        have hotherId : other.id = id := by
          by_contra hotherId
          exact h ⟨name, rfl, hne, other, List.mem_of_find?_eq_some hfind, hotherId, hkey⟩
        simp [hotherId]

theorem exec_area_checkName_of_not_clean (t : Tables) (key : AreaEntity → Nat × String)
    (taken : HttpException) (id cityId : Nat) (hcurrent : CleanText current)
    (h : ∃ s ∈ sent, ¬ CleanText s) :
    ∃ code, Call.exec (AreaService.checkName key taken id cityId current sent) t =
      (.error (.queryFailed code), t) := by
  obtain ⟨name, rfl, hname⟩ := h
  have hne : name ≠ current := fun heq => hname (heq ▸ hcurrent)
  have hmem : Param.text name ∈ [.int cityId, .text name] := by simp
  obtain ⟨code, hexec⟩ := exec_select_of_not_fits (t := t) hmem hname
    fun r => r.areas.find? fun a => key a = (cityId, name)
  refine ⟨code, ?_⟩
  rw [AreaService.checkName, if_pos hne, Call.exec_bind, AreaRepository.findByKey, hexec]

end CheckName

/-! ## The save -/

def NamesFit (area : AreaEntity) (dto : UpdateAreaDto) : Prop :=
  (∀ name ∈ dto.nameEn, name ≠ area.nameEn → name.length ≤ 128) ∧
    ∀ name ∈ dto.nameAr, name ≠ area.nameAr → name.length ≤ 128

/-- No other area of the target city has a name that the update leaves as it is. -/
def Tables.KeptNamesFree (t : Tables) (area : AreaEntity) (dto : UpdateAreaDto) : Prop :=
  ∀ row ∈ t.rows.areas, row.id ≠ area.id → row.cityId = dto.cityId.getD area.cityId →
    (dto.nameEn.getD area.nameEn = area.nameEn → row.nameEn ≠ area.nameEn) ∧
      (dto.nameAr.getD area.nameAr = area.nameAr → row.nameAr ≠ area.nameAr)

def Rows.putArea (r : Rows) (area : AreaEntity) : Rows :=
  { r with areas := Keyed.alter AreaEntity.id area.id (fun _ => area) r.areas }

def changesOf (area : AreaEntity) (dto : UpdateAreaDto) : UpdateAreaDto :=
  AreaRepository.changedColumns area (area.merge dto)

section Save

variable {area : AreaEntity} {dto : UpdateAreaDto}

section Column

variable {α : Type} [DecidableEq α] {old : α} {sent : Option α}

/-- A column is written when what is sent differs. -/
theorem mem_changed {a : α} :
    a ∈ (if sent.getD old = old then none else some (sent.getD old)) ↔ a ∈ sent ∧ a ≠ old := by
  cases sent with
  | none => simp
  | some b =>
    by_cases hsame : b = old
    · simp +contextual [hsame, eq_comm]
    · simp only [Option.getD_some, if_neg hsame, Option.mem_def, Option.some.injEq]
      exact ⟨fun h => ⟨h, h ▸ hsame⟩, fun h => h.1⟩

theorem getD_changed (old new : α) : (if new = old then none else some new).getD old = new := by
  by_cases hsame : new = old <;> simp [hsame]

end Column

theorem cityId_changesOf {city : Nat} :
    city ∈ (changesOf area dto).cityId ↔ city ∈ dto.cityId ∧ city ≠ area.cityId := mem_changed

theorem nameEn_changesOf {name : String} :
    name ∈ (changesOf area dto).nameEn ↔ name ∈ dto.nameEn ∧ name ≠ area.nameEn := mem_changed

theorem nameAr_changesOf {name : String} :
    name ∈ (changesOf area dto).nameAr ↔ name ∈ dto.nameAr ∧ name ≠ area.nameAr := mem_changed

theorem merge_changesOf : area.merge (changesOf area dto) = area.merge dto :=
  AreaEntity.ext rfl (getD_changed ..) (getD_changed ..) (getD_changed ..)

theorem storedChanges_of_fit (h : NamesFit area dto) :
    AreaRepository.storedChanges (changesOf area dto) = some (changesOf area dto) := by
  have hEn : ∀ s ∈ (changesOf area dto).nameEn, s.length ≤ 128 := fun s hs =>
    h.1 s (nameEn_changesOf.1 hs).1 (nameEn_changesOf.1 hs).2
  have hAr : ∀ s ∈ (changesOf area dto).nameAr, s.length ≤ 128 := fun s hs =>
    h.2 s (nameAr_changesOf.1 hs).1 (nameAr_changesOf.1 hs).2
  simp [AreaRepository.storedChanges, nameColumn_of_short hEn, nameColumn_of_short hAr]

/-- Of a name that is too long, something else is stored if anything is. -/
theorem nameColumn_ne {name stored : Option String} {old : String}
    (hlong : ∃ s ∈ name, ¬ s.length ≤ 128) (hstored : nameColumn name = some stored) :
    stored.getD old ≠ name.getD old := by
  obtain ⟨s, rfl, hlength⟩ := hlong
  obtain ⟨cut, hcut, rfl⟩ := Option.map_eq_some_iff.1 hstored
  rintro rfl
  exact varchar_ne (Nat.not_le.1 hlength) hcut

theorem exists_changed_long {sent : Option String} {old : String}
    (h : ¬ ∀ name ∈ sent, name ≠ old → name.length ≤ 128) :
    ∃ s ∈ (if sent.getD old = old then none else some (sent.getD old)), ¬ s.length ≤ 128 := by
  push Not at h
  obtain ⟨name, hname, hne, hlength⟩ := h
  exact ⟨name, mem_changed.2 ⟨hname, hne⟩, Nat.not_le.2 hlength⟩

theorem merge_stored_ne (h : ¬ NamesFit area dto) {stored : UpdateAreaDto}
    (hstored : AreaRepository.storedChanges (changesOf area dto) = some stored) :
    area.merge stored ≠ area.merge dto := by
  simp only [AreaRepository.storedChanges, Option.bind_eq_bind, Option.bind_eq_some_iff,
    Option.pure_def, Option.some.injEq] at hstored
  obtain ⟨storedEn, hEn, storedAr, hAr, rfl⟩ := hstored
  have hchanges : area.merge dto = area.merge (changesOf area dto) := merge_changesOf.symm
  rw [hchanges]
  intro hmerge
  rcases not_and_or.1 h with hlong | hlong
  · exact nameColumn_ne (exists_changed_long hlong) hEn (congrArg AreaEntity.nameEn hmerge)
  · exact nameColumn_ne (exists_changed_long hlong) hAr (congrArg AreaEntity.nameAr hmerge)

theorem namesFit_of_same (hsame : area = area.merge dto) : NamesFit area dto := by
  have hkeeps : ∀ {sent : Option String} {old : String}, old = sent.getD old →
      ∀ name ∈ sent, name ≠ old → name.length ≤ 128 := by
    rintro sent old hold name rfl hne
    exact (hne hold.symm).elim
  exact ⟨hkeeps (congrArg AreaEntity.nameEn hsame), hkeeps (congrArg AreaEntity.nameAr hsame)⟩

/-- A write goes through or fails with a code of the database. -/
theorem Tables.write_result (t : Tables) (rows : Rows) :
    (∃ t', t.write rows = (.ok (), t') ∧ t'.rows = rows) ∨
      ∃ code, t.write rows = (.error (.queryFailed code), t) := by
  unfold write
  split
  · split
    · split
      · split
        · exact Or.inl ⟨_, rfl, rfl⟩
        · exact Or.inr ⟨"23503", rfl⟩
      · exact Or.inr ⟨"23505", rfl⟩
    · exact Or.inr ⟨"22003", rfl⟩
  · exact Or.inr ⟨"22021", rfl⟩

variable {id : Nat}

/-- What the sent values are when all of them can be parameters. -/
structure Sendable (dto : UpdateAreaDto) : Prop where
  cityId : ∀ city ∈ dto.cityId, city ≤ 2147483647
  nameEn : ∀ name ∈ dto.nameEn, CleanText name
  nameAr : ∀ name ∈ dto.nameAr, CleanText name

theorem exec_area_update (harea : area ∈ t.rows.areas) (hid : area.id ≤ 2147483647)
    (hsend : Sendable dto) :
    Call.exec (AreaRepository.update area.id (changesOf area dto)) t =
      match AreaRepository.storedChanges (changesOf area dto) with
      | none => (.error tooLong, t)
      | some stored => t.write (t.rows.putArea (area.merge stored)) := by
  have hfits : ∀ p ∈ AreaRepository.changeParams (changesOf area dto) ++ [.int area.id],
      p.Fits := by
    intro p hp
    simp only [AreaRepository.changeParams, List.mem_append, List.mem_map, Option.mem_toList,
      List.mem_singleton] at hp
    rcases hp with ((⟨city, hcity, rfl⟩ | ⟨name, hname, rfl⟩) | ⟨name, hname, rfl⟩) | rfl
    · exact hsend.cityId city (cityId_changesOf.1 hcity).1
    · exact hsend.nameEn name (nameEn_changesOf.1 hname).1
    · exact hsend.nameAr name (nameAr_changesOf.1 hname).1
    · exact hid
  rw [AreaRepository.update, exec_execute hfits]
  cases AreaRepository.storedChanges (changesOf area dto) with
  | none => rfl
  | some stored =>
    have hrows : Keyed.alter AreaEntity.id area.id (fun a => a.merge stored) t.rows.areas =
        Keyed.alter AreaEntity.id area.id (fun _ => area.merge stored) t.rows.areas :=
      Keyed.alter_congr fun a ha hsame => by
        rw [List.inj_on_of_nodup_map t.unique.2.1.1 ha harea hsame]
    exact congrArg (fun areas => t.write { t.rows with areas }) hrows

theorem exec_area_findById (hid : id ≤ 2147483647) :
    Call.exec (AreaRepository.findById id) t =
      (.ok (t.rows.areas.find? fun a => a.id = id), t) :=
  exec_select (by simpa [Param.Fits] using hid) _ _

/-- `save` of a stored area: nothing is written when nothing differs. -/
theorem exec_area_save (harea : area ∈ t.rows.areas) (hid : area.id ≤ 2147483647) :
    Call.exec (AreaRepository.save (area.merge dto)) t =
      if area = area.merge dto then (.ok (area.merge dto), t)
      else match Call.exec (AreaRepository.update area.id (changesOf area dto)) t with
        | (.ok (), t') => (.ok (area.merge dto), t')
        | (.error e, t') => (.error e, t') := by
  have hfind : (t.rows.areas.find? fun a => a.id = (area.merge dto).id) = some area :=
    (Keyed.find?_eq_some_iff t.unique.2.1.1).2 ⟨harea, rfl⟩
  have hexec : Call.exec (AreaRepository.findById (area.merge dto).id) t = (.ok (some area), t) :=
    (exec_area_findById hid).trans (by rw [← hfind]; rfl)
  rw [AreaRepository.save, Call.exec_bind, hexec]
  by_cases hsame : area = area.merge dto
  · rw [if_pos hsame]
    simp only [if_pos hsame]
    rfl
  · rw [if_neg hsame]
    simp only [if_neg hsame, Call.exec_bind]
    have hupdate : Call.exec (AreaRepository.update (area.merge dto).id
        (AreaRepository.changedColumns area (area.merge dto))) t =
        Call.exec (AreaRepository.update area.id (changesOf area dto)) t := rfl
    rw [hupdate]
    rcases Call.exec (AreaRepository.update area.id (changesOf area dto)) t with ⟨r, t'⟩
    cases r with
    | ok u => rfl
    | error e => rfl

/-- Where another area has the name that an area is to have, that name stays or is found taken. -/
theorem nameTaken_of_key {key : AreaEntity → Nat × String} {cityId : Nat} {current : String}
    {sent : Option String} {other : AreaEntity} (hother : other ∈ t.rows.areas)
    (hne : other.id ≠ id) (hkey : key other = (cityId, sent.getD current)) :
    sent.getD current = current ∨ t.NameTaken key id cityId current sent := by
  cases sent with
  | none => exact Or.inl rfl
  | some name =>
    by_cases hsame : name = current
    · exact Or.inl hsame
    · exact Or.inr ⟨name, rfl, hsame, other, hother, hne, hkey⟩

/-- Past the checks, no other area has a key of the area to be. -/
theorem free_of_kept
    (hEn : ¬ t.NameTaken AreaEntity.keyEn area.id (dto.cityId.getD area.cityId) area.nameEn
      dto.nameEn)
    (hAr : ¬ t.NameTaken AreaEntity.keyAr area.id (dto.cityId.getD area.cityId) area.nameAr
      dto.nameAr) (hkept : t.KeptNamesFree area dto) {other : AreaEntity}
    (hother : other ∈ t.rows.areas) (hne : other.id ≠ area.id) :
    other.keyEn ≠ (area.merge dto).keyEn ∧ other.keyAr ≠ (area.merge dto).keyAr := by
  refine ⟨fun hkey => ?_, fun hkey => ?_⟩
  · have hstays := (nameTaken_of_key hother hne hkey).resolve_right hEn
    exact (hkept other hother hne (congrArg Prod.fst hkey)).1 hstays
      ((congrArg Prod.snd hkey).trans hstays)
  · have hstays := (nameTaken_of_key hother hne hkey).resolve_right hAr
    exact (hkept other hother hne (congrArg Prod.fst hkey)).2 hstays
      ((congrArg Prod.snd hkey).trans hstays)

theorem kept_of_unique (harea : area ∈ t.rows.areas)
    (hunique : (t.rows.putArea (area.merge dto)).Unique) : t.KeptNamesFree area dto := by
  intro row hrow hne hcity
  have hnew : area.merge dto ∈ (t.rows.putArea (area.merge dto)).areas :=
    Keyed.mem_alter.2 (Or.inl ⟨area, harea, rfl, rfl⟩)
  have hstill : row ∈ (t.rows.putArea (area.merge dto)).areas :=
    Keyed.mem_alter.2 (Or.inr ⟨hrow, hne⟩)
  refine ⟨fun hstays hname => ?_, fun hstays hname => ?_⟩
  · have hsame : row = area.merge dto := List.inj_on_of_nodup_map hunique.2.1.2.1 hstill hnew
      (Prod.ext hcity (hname.trans hstays.symm))
    exact hne (by rw [hsame]; rfl)
  · have hsame : row = area.merge dto := List.inj_on_of_nodup_map hunique.2.1.2.2 hstill hnew
      (Prod.ext hcity (hname.trans hstays.symm))
    exact hne (by rw [hsame]; rfl)

end Save

/-! ## The call -/

section Call

variable {area : AreaEntity} {dto : UpdateAreaDto} {id : Nat}

theorem exec_updateForAdmin_of_not_fits (t : Tables) (dto : UpdateAreaDto)
    (hid : ¬ id ≤ 2147483647) :
    ∃ code, Call.exec (AreaService.updateForAdmin id dto) t = (.error (.queryFailed code), t) := by
  obtain ⟨code, hexec⟩ := exec_select_of_not_fits (t := t) (p := .int id) List.mem_cons_self hid
    fun r => r.areas.find? fun a => a.id = id
  refine ⟨code, ?_⟩
  rw [AreaService.updateForAdmin, Call.exec_bind, AreaService.findByIdOrFail, Call.exec_bind,
    AreaRepository.findById, hexec]

theorem exec_updateForAdmin_of_not_mem (hid : id ≤ 2147483647)
    (hnone : ∀ a ∈ t.rows.areas, a.id ≠ id) :
    Call.exec (AreaService.updateForAdmin id dto) t = (.error (.http areaNotFound), t) := by
  have hfind : (t.rows.areas.find? fun a => a.id = id) = none :=
    List.find?_eq_none.2 fun a ha hsame => hnone a ha (by simpa using hsame)
  rw [AreaService.updateForAdmin, Call.exec_bind, AreaService.findByIdOrFail, Call.exec_bind,
    exec_area_findById hid, hfind]
  rfl

theorem exec_updateForAdmin_of_mem (dto : UpdateAreaDto) (harea : area ∈ t.rows.areas)
    (hid : area.id ≤ 2147483647) :
    Call.exec (AreaService.updateForAdmin area.id dto) t = Call.exec (do
      AreaService.checkCity dto.cityId
      AreaService.checkName AreaEntity.keyEn Areas.nameEnTaken area.id
        (dto.cityId.getD area.cityId) area.nameEn dto.nameEn
      AreaService.checkName AreaEntity.keyAr Areas.nameArTaken area.id
        (dto.cityId.getD area.cityId) area.nameAr dto.nameAr
      AreaRepository.save (area.merge dto)) t := by
  have hfind : (t.rows.areas.find? fun a => a.id = area.id) = some area :=
    (Keyed.find?_eq_some_iff t.unique.2.1.1).2 ⟨harea, rfl⟩
  rw [AreaService.updateForAdmin, Call.exec_bind, AreaService.findByIdOrFail, Call.exec_bind,
    exec_area_findById hid, hfind]
  rfl

theorem exec_updateForAdmin_of_missing (harea : area ∈ t.rows.areas) (hid : area.id ≤ 2147483647)
    (hfits : ∀ city ∈ dto.cityId, city ≤ 2147483647)
    (hmissing : ∃ city ∈ dto.cityId, ¬ t.rows.HasCity city) :
    Call.exec (AreaService.updateForAdmin area.id dto) t = (.error (.http cityNotFound), t) := by
  rw [exec_updateForAdmin_of_mem dto harea hid, Call.exec_bind, (exec_checkCity hfits).2 hmissing]

theorem effective_fits (harea : area ∈ t.rows.areas)
    (hcity : ∀ city ∈ dto.cityId, city ≤ 2147483647) :
    dto.cityId.getD area.cityId ≤ 2147483647 := by
  cases hsent : dto.cityId with
  | none => exact t.ranges.1 area harea
  | some city => exact hcity city hsent

/-- The call looks for the English name, and then for the Arabic one. -/
structure PastCity (t : Tables) (area : AreaEntity) (dto : UpdateAreaDto) : Prop where
  mem : area ∈ t.rows.areas
  id : area.id ≤ 2147483647
  fits : ∀ city ∈ dto.cityId, city ≤ 2147483647
  found : ∀ city ∈ dto.cityId, t.rows.HasCity city

/-- Another area has the English, or the Arabic, name that is sent. -/
def Tables.NameEnTaken (t : Tables) (area : AreaEntity) (dto : UpdateAreaDto) : Prop :=
  t.NameTaken AreaEntity.keyEn area.id (dto.cityId.getD area.cityId) area.nameEn dto.nameEn

def Tables.NameArTaken (t : Tables) (area : AreaEntity) (dto : UpdateAreaDto) : Prop :=
  t.NameTaken AreaEntity.keyAr area.id (dto.cityId.getD area.cityId) area.nameAr dto.nameAr

theorem exec_updateForAdmin_of_city (h : PastCity t area dto) :
    Call.exec (AreaService.updateForAdmin area.id dto) t = Call.exec (do
      AreaService.checkName AreaEntity.keyEn Areas.nameEnTaken area.id
        (dto.cityId.getD area.cityId) area.nameEn dto.nameEn
      AreaService.checkName AreaEntity.keyAr Areas.nameArTaken area.id
        (dto.cityId.getD area.cityId) area.nameAr dto.nameAr
      AreaRepository.save (area.merge dto)) t := by
  rw [exec_updateForAdmin_of_mem dto h.mem h.id, Call.exec_bind, (exec_checkCity h.fits).1 h.found]

theorem exec_updateForAdmin_of_nameEnTaken (h : PastCity t area dto)
    (hclean : ∀ name ∈ dto.nameEn, CleanText name) (htaken : t.NameEnTaken area dto) :
    Call.exec (AreaService.updateForAdmin area.id dto) t =
      (.error (.http Areas.nameEnTaken), t) := by
  rw [exec_updateForAdmin_of_city h, Call.exec_bind,
    exec_area_checkName_of_taken t.unique.2.1.2.1 (effective_fits h.mem h.fits) hclean htaken]

theorem exec_updateForAdmin_of_nameEn (h : PastCity t area dto)
    (hclean : ∀ name ∈ dto.nameEn, CleanText name) (hfree : ¬ t.NameEnTaken area dto) :
    Call.exec (AreaService.updateForAdmin area.id dto) t = Call.exec (do
      AreaService.checkName AreaEntity.keyAr Areas.nameArTaken area.id
        (dto.cityId.getD area.cityId) area.nameAr dto.nameAr
      AreaRepository.save (area.merge dto)) t := by
  rw [exec_updateForAdmin_of_city h, Call.exec_bind,
    exec_area_checkName_of_free (effective_fits h.mem h.fits) hclean hfree]

theorem exec_updateForAdmin_of_nameArTaken (h : PastCity t area dto) (hsend : Sendable dto)
    (hEn : ¬ t.NameEnTaken area dto) (htaken : t.NameArTaken area dto) :
    Call.exec (AreaService.updateForAdmin area.id dto) t =
      (.error (.http Areas.nameArTaken), t) := by
  rw [exec_updateForAdmin_of_nameEn h hsend.nameEn hEn, Call.exec_bind,
    exec_area_checkName_of_taken t.unique.2.1.2.2 (effective_fits h.mem h.fits) hsend.nameAr htaken]

theorem exec_updateForAdmin_of_names (h : PastCity t area dto) (hsend : Sendable dto)
    (hEn : ¬ t.NameEnTaken area dto) (hAr : ¬ t.NameArTaken area dto) :
    Call.exec (AreaService.updateForAdmin area.id dto) t =
      Call.exec (AreaRepository.save (area.merge dto)) t := by
  rw [exec_updateForAdmin_of_nameEn h hsend.nameEn hEn, Call.exec_bind,
    exec_area_checkName_of_free (effective_fits h.mem h.fits) hsend.nameAr hAr]

theorem putArea_of_same (harea : area ∈ t.rows.areas) (hsame : area = area.merge dto) :
    t.rows.putArea (area.merge dto) = t.rows := by
  rw [← hsame, Rows.putArea, Keyed.alter_eq_self fun a ha haid =>
    List.inj_on_of_nodup_map t.unique.2.1.1 harea ha haid.symm]

theorem exec_area_save_of_kept (h : PastCity t area dto) (hsend : Sendable dto)
    (hEn : ¬ t.NameEnTaken area dto) (hAr : ¬ t.NameArTaken area dto) (hfit : NamesFit area dto)
    (hkept : t.KeptNamesFree area dto) :
    ∃ t', Call.exec (AreaRepository.save (area.merge dto)) t = (.ok (area.merge dto), t') ∧
      t'.rows = t.rows.putArea (area.merge dto) ∧
      t'.nextCity = t.nextCity ∧ t'.nextArea = t.nextArea ∧ t'.nextUser = t.nextUser := by
  rw [exec_area_save h.mem h.id]
  by_cases hsame : area = area.merge dto
  · exact ⟨t, by rw [if_pos hsame], (putArea_of_same h.mem hsame).symm, rfl, rfl, rfl⟩
  · rw [if_neg hsame, exec_area_update h.mem h.id hsend, storedChanges_of_fit hfit]
    simp only [merge_changesOf]
    have hcity : t.rows.HasCity (area.merge dto).cityId := by
      cases hsent : dto.cityId with
      | none => simpa [AreaEntity.merge, hsent] using t.references.1 area h.mem
      | some city => simpa [AreaEntity.merge, hsent] using h.found city hsent
    have hconsistent : (t.rows.putArea (area.merge dto)).Consistent :=
      consistent_alterArea area.id (fun _ _ haid => haid.symm)
        (fun _ _ _ => CleanArea.merge (t.clean.2.1 area h.mem) ⟨hsend.nameEn, hsend.nameAr⟩)
        (fun _ _ _ => effective_fits h.mem h.fits) (fun _ _ _ => hcity)
        (fun _ _ _ _ hb hne => (free_of_kept hEn hAr hkept hb hne).1)
        fun _ _ _ _ hb hne => (free_of_kept hEn hAr hkept hb hne).2
    obtain ⟨t', hwrite, hrows, hnext⟩ := t.write_ok hconsistent
    exact ⟨t', by rw [hwrite], hrows, hnext⟩

/-- Where a name stays that another area of the city has, the write breaks its index. -/
theorem exec_area_save_of_not_kept (h : PastCity t area dto) (hsend : Sendable dto)
    (hfit : NamesFit area dto) (hkept : ¬ t.KeptNamesFree area dto) :
    ∃ code, Call.exec (AreaRepository.save (area.merge dto)) t =
      (.error (.queryFailed code), t) := by
  have hunique : ¬ (t.rows.putArea (area.merge dto)).Unique :=
    fun hunique => hkept (kept_of_unique h.mem hunique)
  have hchanged : area ≠ area.merge dto := by
    intro hsame
    rw [putArea_of_same h.mem hsame] at hunique
    exact hunique t.unique
  rw [exec_area_save h.mem h.id, if_neg hchanged, exec_area_update h.mem h.id hsend,
    storedChanges_of_fit hfit]
  simp only [merge_changesOf]
  rcases t.write_result (t.rows.putArea (area.merge dto)) with ⟨t', -, hrows⟩ | ⟨code, hwrite⟩
  · exact (hunique (hrows ▸ t'.unique)).elim
  · exact ⟨code, by rw [hwrite]⟩

/-- Of a name that is too long nothing is stored, or less than the call returns. -/
theorem exec_area_save_of_not_fit (h : PastCity t area dto) (hsend : Sendable dto)
    (hfit : ¬ NamesFit area dto) :
    (∃ code, Call.exec (AreaRepository.save (area.merge dto)) t =
      (.error (.queryFailed code), t)) ∨
    ∃ t' stored, Call.exec (AreaRepository.save (area.merge dto)) t = (.ok (area.merge dto), t') ∧
      t'.rows = t.rows.putArea (area.merge stored) ∧ area.merge stored ≠ area.merge dto := by
  have hchanged : area ≠ area.merge dto := fun hsame => hfit (namesFit_of_same hsame)
  rw [exec_area_save h.mem h.id, if_neg hchanged, exec_area_update h.mem h.id hsend]
  cases hstored : AreaRepository.storedChanges (changesOf area dto) with
  | none => exact Or.inl ⟨"22001", rfl⟩
  | some stored =>
    dsimp only
    rcases t.write_result (t.rows.putArea (area.merge stored)) with
      ⟨t', hwrite, hrows⟩ | ⟨code, hwrite⟩
    · exact Or.inr ⟨t', stored, by rw [hwrite], hrows, merge_stored_ne hfit hstored⟩
    · exact Or.inl ⟨code, by rw [hwrite]⟩

/-! ## What the update comes to -/

/-- The update returns the area with the sent fields changed and writes it, or throws one of its
own errors and writes nothing. -/
def UpdateSettles (t : Tables) (id : Nat) (dto : UpdateAreaDto) : Prop :=
  (∃ area ∈ t.rows.areas, area.id = id ∧ ∃ t',
    Call.exec (AreaService.updateForAdmin id dto) t = (.ok (area.merge dto), t') ∧
    t'.rows = t.rows.putArea (area.merge dto) ∧ t'.rows.AreasUnique) ∨
  ∃ e ∈ [areaNotFound, cityNotFound, Areas.nameEnTaken, Areas.nameArTaken],
    Call.exec (AreaService.updateForAdmin id dto) t = (.error (.http e), t)

/-- The database takes what the call sends it: the ids, the names it looks for, and the names it
writes, none of which stays where another area has it. What comes after a check counts when the
check lets the call through. -/
def Serves (t : Tables) (id : Nat) (dto : UpdateAreaDto) : Prop :=
  id ≤ 2147483647 ∧ ∀ area ∈ t.rows.areas, area.id = id →
    (∀ city ∈ dto.cityId, city ≤ 2147483647) ∧
    ((∀ city ∈ dto.cityId, t.rows.HasCity city) →
      (∀ name ∈ dto.nameEn, CleanText name) ∧
      (¬ t.NameEnTaken area dto →
        (∀ name ∈ dto.nameAr, CleanText name) ∧
        (¬ t.NameArTaken area dto → NamesFit area dto ∧ t.KeptNamesFree area dto)))

theorem not_updateSettles_of_queryFailed {code : String}
    (h : Call.exec (AreaService.updateForAdmin id dto) t = (.error (.queryFailed code), t)) :
    ¬ UpdateSettles t id dto := by
  rintro (⟨area, -, -, t', hok, -⟩ | ⟨e, -, herror⟩)
  · rw [h] at hok
    cases hok
  · rw [h] at herror
    cases herror

theorem updateSettles_of_names_iff (h : PastCity t area dto) (hsend : Sendable dto)
    (hEn : ¬ t.NameEnTaken area dto) (hAr : ¬ t.NameArTaken area dto) :
    UpdateSettles t area.id dto ↔ NamesFit area dto ∧ t.KeptNamesFree area dto := by
  have hexec := exec_updateForAdmin_of_names h hsend hEn hAr
  by_cases hfit : NamesFit area dto
  · by_cases hkept : t.KeptNamesFree area dto
    · obtain ⟨t', hsave, hrows, -⟩ := exec_area_save_of_kept h hsend hEn hAr hfit hkept
      exact iff_of_true (Or.inl ⟨area, h.mem, rfl, t', hexec.trans hsave, hrows, t'.unique.2.1⟩)
        ⟨hfit, hkept⟩
    · obtain ⟨code, hsave⟩ := exec_area_save_of_not_kept h hsend hfit hkept
      exact iff_of_false (not_updateSettles_of_queryFailed (hexec.trans hsave))
        fun hall => hkept hall.2
  · refine iff_of_false ?_ fun hall => hfit hall.1
    rcases exec_area_save_of_not_fit h hsend hfit with
      ⟨code, hsave⟩ | ⟨t', stored, hsave, hrows, hne⟩
    · exact not_updateSettles_of_queryFailed (hexec.trans hsave)
    · rintro (⟨area', harea', hsame, t'', hok, hrows', -⟩ | ⟨e, -, herror⟩)
      · obtain rfl := List.inj_on_of_nodup_map t.unique.2.1.1 harea' h.mem hsame
        rw [hexec.trans hsave] at hok
        cases hok
        have hstored : area'.merge stored ∈ (t.rows.putArea (area'.merge stored)).areas :=
          Keyed.mem_alter.2 (Or.inl ⟨area', harea', rfl, rfl⟩)
        rw [← hrows, hrows'] at hstored
        rcases Keyed.mem_alter.1 hstored with ⟨-, -, -, heq⟩ | ⟨-, hother⟩
        · exact hne heq
        · exact hother rfl
      · rw [hexec.trans hsave] at herror
        cases herror

theorem updateSettles_of_city_iff (h : PastCity t area dto) :
    UpdateSettles t area.id dto ↔
      (∀ name ∈ dto.nameEn, CleanText name) ∧
      (¬ t.NameEnTaken area dto →
        (∀ name ∈ dto.nameAr, CleanText name) ∧
        (¬ t.NameArTaken area dto → NamesFit area dto ∧ t.KeptNamesFree area dto)) := by
  by_cases hcleanEn : ∀ name ∈ dto.nameEn, CleanText name
  · by_cases hEn : t.NameEnTaken area dto
    · exact iff_of_true (Or.inr ⟨Areas.nameEnTaken, by simp,
        exec_updateForAdmin_of_nameEnTaken h hcleanEn hEn⟩)
        ⟨hcleanEn, fun hnot => (hnot hEn).elim⟩
    · have hexec := exec_updateForAdmin_of_nameEn h hcleanEn hEn
      by_cases hcleanAr : ∀ name ∈ dto.nameAr, CleanText name
      · by_cases hAr : t.NameArTaken area dto
        · exact iff_of_true (Or.inr ⟨Areas.nameArTaken, by simp,
            exec_updateForAdmin_of_nameArTaken h ⟨h.fits, hcleanEn, hcleanAr⟩ hEn hAr⟩)
            ⟨hcleanEn, fun _ => ⟨hcleanAr, fun hnot => (hnot hAr).elim⟩⟩
        · rw [updateSettles_of_names_iff h ⟨h.fits, hcleanEn, hcleanAr⟩ hEn hAr]
          exact ⟨fun hall => ⟨hcleanEn, fun _ => ⟨hcleanAr, fun _ => hall⟩⟩,
            fun hall => (hall.2 hEn).2 hAr⟩
      · obtain ⟨code, hcheck⟩ := exec_area_checkName_of_not_clean t AreaEntity.keyAr
          Areas.nameArTaken area.id (dto.cityId.getD area.cityId) (t.clean.2.1 area h.mem).2
          (by simpa using hcleanAr)
        rw [Call.exec_bind, hcheck] at hexec
        exact iff_of_false (not_updateSettles_of_queryFailed hexec)
          fun hall => hcleanAr (hall.2 hEn).1
  · obtain ⟨code, hcheck⟩ := exec_area_checkName_of_not_clean t AreaEntity.keyEn
      Areas.nameEnTaken area.id (dto.cityId.getD area.cityId) (t.clean.2.1 area h.mem).1
      (by simpa using hcleanEn)
    have hexec := exec_updateForAdmin_of_city h
    rw [Call.exec_bind, hcheck] at hexec
    exact iff_of_false (not_updateSettles_of_queryFailed hexec) fun hall => hcleanEn hall.1

theorem updateSettles_of_mem_iff (harea : area ∈ t.rows.areas) (hid : area.id ≤ 2147483647) :
    UpdateSettles t area.id dto ↔
      (∀ city ∈ dto.cityId, city ≤ 2147483647) ∧
      ((∀ city ∈ dto.cityId, t.rows.HasCity city) →
        (∀ name ∈ dto.nameEn, CleanText name) ∧
        (¬ t.NameEnTaken area dto →
          (∀ name ∈ dto.nameAr, CleanText name) ∧
          (¬ t.NameArTaken area dto → NamesFit area dto ∧ t.KeptNamesFree area dto))) := by
  have hexec := exec_updateForAdmin_of_mem dto harea hid
  by_cases hfits : ∀ city ∈ dto.cityId, city ≤ 2147483647
  · by_cases hfound : ∀ city ∈ dto.cityId, t.rows.HasCity city
    · rw [updateSettles_of_city_iff ⟨harea, hid, hfits, hfound⟩]
      exact ⟨fun hall => ⟨hfits, fun _ => hall⟩, fun hall => hall.2 hfound⟩
    · exact iff_of_true (Or.inr ⟨cityNotFound, by simp,
        exec_updateForAdmin_of_missing harea hid hfits (by simpa using hfound)⟩)
        ⟨hfits, fun hall => (hfound hall).elim⟩
  · have hlarge : ∃ city ∈ dto.cityId, ¬ city ≤ 2147483647 := by simpa using hfits
    obtain ⟨code, hcheck⟩ := exec_checkCity_of_not_fits (t := t) hlarge
    rw [Call.exec_bind, hcheck] at hexec
    exact iff_of_false (not_updateSettles_of_queryFailed hexec) fun hall => hfits hall.1

/-- The update settles exactly when the database takes what it is sent and no other area of the
target city has a name that the update leaves as it is. -/
theorem updateSettles_iff (t : Tables) (id : Nat) (dto : UpdateAreaDto) :
    UpdateSettles t id dto ↔ Serves t id dto := by
  by_cases hid : id ≤ 2147483647
  · by_cases hfound : ∃ area ∈ t.rows.areas, area.id = id
    · obtain ⟨area, harea, rfl⟩ := hfound
      rw [updateSettles_of_mem_iff harea hid]
      refine ⟨fun h => ⟨hid, fun area' harea' hsame => ?_⟩, fun h => h.2 area harea rfl⟩
      obtain rfl := List.inj_on_of_nodup_map t.unique.2.1.1 harea' harea hsame
      exact h
    · have hnone : ∀ a ∈ t.rows.areas, a.id ≠ id := fun a ha hsame => hfound ⟨a, ha, hsame⟩
      refine iff_of_true (Or.inr ⟨areaNotFound, by simp, ?_⟩)
        ⟨hid, fun a ha hsame => (hnone a ha hsame).elim⟩
      exact exec_updateForAdmin_of_not_mem hid hnone
  · obtain ⟨code, hexec⟩ := exec_updateForAdmin_of_not_fits t dto hid
    exact iff_of_false (not_updateSettles_of_queryFailed hexec) fun h => hid h.1

end Call

theorem keptNamesFree_of_same_city {area : AreaEntity} {dto : UpdateAreaDto}
    (harea : area ∈ t.rows.areas) (hcity : dto.cityId.getD area.cityId = area.cityId) :
    t.KeptNamesFree area dto := by
  intro row hrow hne hrowCity
  rw [hcity] at hrowCity
  refine ⟨fun _ hname => hne ?_, fun _ hname => hne ?_⟩
  · exact congrArg AreaEntity.id
      (List.inj_on_of_nodup_map t.unique.2.1.2.1 hrow harea (Prod.ext hrowCity hname))
  · exact congrArg AreaEntity.id
      (List.inj_on_of_nodup_map t.unique.2.1.2.2 hrow harea (Prod.ext hrowCity hname))

/-- Two areas of one English name in two cities. -/
def movedSample : Tables where
  rows := {
    cities := [⟨1, "Damascus", "دمشق"⟩, ⟨9, "Daraa", "درعا"⟩]
    areas := [⟨1, 1, "Mezzeh", "المزة"⟩, ⟨2, 9, "Mezzeh", "مزة"⟩] }
  clean := by decide
  ranges := by decide
  unique := by decide
  references := by decide
  nextCity := 10
  nextArea := 3
  nextUser := 1

/-- Moving the first area into the other city keeps its name, which nobody looks for there. -/
theorem not_updateSettles_moved :
    (Call.exec (AreaService.updateForAdmin 1 { cityId := some 9 }) movedSample).1 =
      .error uniqueViolation ∧
    ¬ UpdateSettles movedSample 1 { cityId := some 9 } := by
  have hexec : (Call.exec (AreaService.updateForAdmin 1 { cityId := some 9 }) movedSample).1 =
      .error uniqueViolation := by decide +kernel
  refine ⟨hexec, ?_⟩
  rintro (⟨area, -, -, t', hok, -⟩ | ⟨e, -, herror⟩)
  · rw [hok] at hexec
    cases hexec
  · rw [herror] at hexec
    cases hexec

end NestStarter.Catalog
