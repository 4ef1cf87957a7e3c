import NestStarter.Catalog.Answers
import NestStarter.Catalog.AreaUpdate

/-! # Calls on the catalogue, one after the other

With nobody else at work nothing changes between what a call looks for and what it writes: the
checks are then complete. A call has exactly its effect, or throws an exception whose reason holds,
and never runs into a constraint, unless an area is moved onto a name that it keeps.
-/

namespace NestStarter.Catalog

open NestStarter.Core
open NestStarter.Areas (AreaEntity UpdateAreaDto cityNotFound areaNotFound)
open NestStarter.Accounts.Provisioning (Failure uniqueViolation)
open NestStarter.Accounts.Completion (userNotFound phoneTaken profileAlreadyCompleted)

def CityEntity.merge (c : CityEntity) (dto : UpdateCityDto) : CityEntity :=
  { c with
    nameEn := dto.nameEn.join.getD c.nameEn
    nameAr := dto.nameAr.join.getD c.nameAr }

/-- The answer of a call that goes through, and the rows it leaves. -/
def Op.Effect (t : Tables) (a : Answer) (rows : Rows) : Op → Prop
  | .createCity dto =>
      a = .city ⟨t.nextCity, some dto.nameEn, some dto.nameAr⟩ ∧
        rows = { t.rows with cities := t.rows.cities ++ [⟨t.nextCity, dto.nameEn, dto.nameAr⟩] }
  | .updateCity id dto => ∃ c ∈ t.rows.cities, c.id = id ∧ a = .city (c.merge dto).record ∧
      rows = { t.rows with
        cities := Keyed.alter CityEntity.id id (fun c => c.merge dto) t.rows.cities }
  | .deleteCity id => a = .noContent ∧
      rows = { t.rows with
        cities := t.rows.cities.filter fun c => c.id ≠ id
        areas := t.rows.areas.filter fun a => a.cityId ≠ id }
  | .createArea dto =>
      a = .area ⟨t.nextArea, dto.cityId, dto.nameEn, dto.nameAr⟩ ∧
        rows = { t.rows with
          areas := t.rows.areas ++ [⟨t.nextArea, dto.cityId, dto.nameEn, dto.nameAr⟩] }
  | .updateArea id dto => ∃ area ∈ t.rows.areas, area.id = id ∧ a = .area (area.merge dto) ∧
      rows = { t.rows with
        areas := Keyed.alter AreaEntity.id id (fun area => area.merge dto) t.rows.areas }
  | .deleteArea id => a = .noContent ∧
      rows = { t.rows with areas := t.rows.areas.filter fun a => a.id ≠ id }
  | .updateMe id cityId => ∃ u ∈ t.rows.users, u.id = id ∧
      a = .user { u with cityId := cityId.getD u.cityId } ∧
      rows = { t.rows with
        users := Keyed.alter UserRow.id id (fun u => { u with cityId := cityId.getD u.cityId })
          t.rows.users }
  | .completeProfile id cityId => ∃ u ∈ t.rows.users, u.id = id ∧
      a = .user { u with cityId := some cityId, isProfileCompleted := true } ∧
      rows = { t.rows with
        users := Keyed.alter UserRow.id id
          (fun u => { u with cityId := some cityId, isProfileCompleted := true }) t.rows.users }
  | .createUser phone cityId =>
      a = .user ⟨t.nextUser, phone, some cityId, true⟩ ∧
        rows = { t.rows with users := t.rows.users ++ [⟨t.nextUser, phone, some cityId, true⟩] }

/-- There is an area `id`, and with the changes it would have the key of another one. -/
def Rows.AreaClash (r : Rows) {β : Type} (key : AreaEntity → β) (id : Nat) (dto : UpdateAreaDto) :
    Prop :=
  ∃ area ∈ r.areas, area.id = id ∧ ∃ other ∈ r.areas, other.id ≠ id ∧
    key other = key (area.merge dto)

/-- `e` is a reason not to do the call. -/
def Op.Refused (r : Rows) (e : HttpException) : Op → Prop
  | .createCity dto =>
      (e = CityService.nameEnTaken ∧ ∃ c ∈ r.cities, c.nameEn = dto.nameEn) ∨
        e = CityService.nameArTaken ∧ ∃ c ∈ r.cities, c.nameAr = dto.nameAr
  | .updateCity id dto =>
      (e = cityNotFound ∧ ¬ r.HasCity id) ∨
        r.HasCity id ∧
          ((e = CityService.nameEnTaken ∧
              ∃ c ∈ r.cities, c.id ≠ id ∧ dto.nameEn = some (some c.nameEn)) ∨
            e = CityService.nameArTaken ∧
              ∃ c ∈ r.cities, c.id ≠ id ∧ dto.nameAr = some (some c.nameAr))
  | .deleteCity id =>
      (e = cityNotFound ∧ ¬ r.HasCity id) ∨
        e = CityService.cannotDeleteInUse ∧ ∃ u ∈ r.users, u.cityId = some id
  | .createArea dto =>
      (e = cityNotFound ∧ ¬ r.HasCity dto.cityId) ∨
        (e = Areas.nameEnTaken ∧ ∃ a ∈ r.areas, a.keyEn = (dto.cityId, dto.nameEn)) ∨
        e = Areas.nameArTaken ∧ ∃ a ∈ r.areas, a.keyAr = (dto.cityId, dto.nameAr)
  | .updateArea id dto =>
      (e = areaNotFound ∧ ∀ a ∈ r.areas, a.id ≠ id) ∨
        (e = cityNotFound ∧ ∃ cityId ∈ dto.cityId, ¬ r.HasCity cityId) ∨
        (e = Areas.nameEnTaken ∧ r.AreaClash AreaEntity.keyEn id dto) ∨
        e = Areas.nameArTaken ∧ r.AreaClash AreaEntity.keyAr id dto
  | .deleteArea id => e = areaNotFound ∧ ∀ a ∈ r.areas, a.id ≠ id
  | .updateMe id cityId =>
      (e = cityNotFound ∧ ∃ city ∈ cityId.join, ¬ r.HasCity city) ∨
        e = userNotFound ∧ ∀ u ∈ r.users, u.id ≠ id
  | .completeProfile id cityId =>
      (e = userNotFound ∧ ∀ u ∈ r.users, u.id ≠ id) ∨
        (e = profileAlreadyCompleted ∧ ∃ u ∈ r.users, u.id = id ∧ u.isProfileCompleted = true) ∨
        e = cityNotFound ∧ ¬ r.HasCity cityId
  | .createUser phone cityId =>
      (e = phoneTaken ∧ ∃ u ∈ r.users, u.phone = phone) ∨
        e = cityNotFound ∧ ¬ r.HasCity cityId

/-- Each sequence is past the ids of its table, and that of the cities within its type. -/
structure Tables.Ahead (t : Tables) : Prop where
  integer : t.nextCity ≤ 2147483648
  cities : ∀ c ∈ t.rows.cities, c.id < t.nextCity
  areas : ∀ a ∈ t.rows.areas, a.id < t.nextArea
  users : ∀ u ∈ t.rows.users, u.id < t.nextUser

/-- The call has its effect and nothing was against it, or throws a reason not to do it. -/
def Op.Settles (anyRow : List CityEntity → Option CityEntity) (t : Tables) (op : Op) : Prop :=
  (∃ a t', Call.exec (op.call anyRow "23503") t = (.ok a, t') ∧ t'.Ahead ∧
    op.Effect t a t'.rows ∧ ∀ e, ¬ op.Refused t.rows e) ∨
  ∃ e, Call.exec (op.call anyRow "23503") t = (.error (.http e), t) ∧ op.Refused t.rows e

/-! ## Cities -/

section Ahead

variable {t : Tables}

theorem Tables.Ahead.of_ids (h : t.Ahead) {t' : Tables}
    (hcities : t'.rows.cities.map CityEntity.id ⊆ t.rows.cities.map CityEntity.id)
    (hareas : t'.rows.areas.map AreaEntity.id ⊆ t.rows.areas.map AreaEntity.id)
    (husers : t'.rows.users.map UserRow.id ⊆ t.rows.users.map UserRow.id)
    (hnext : t'.nextCity = t.nextCity ∧ t'.nextArea = t.nextArea ∧ t'.nextUser = t.nextUser) :
    t'.Ahead := by
  refine ⟨hnext.1 ▸ h.integer, fun c hc => ?_, fun a ha => ?_, fun u hu => ?_⟩
  · obtain ⟨d, hd, hid⟩ := List.mem_map.1 (hcities (List.mem_map_of_mem hc))
    rw [hnext.1, ← hid]
    exact h.cities d hd
  · obtain ⟨b, hb, hid⟩ := List.mem_map.1 (hareas (List.mem_map_of_mem ha))
    rw [hnext.2.1, ← hid]
    exact h.areas b hb
  · obtain ⟨v, hv, hid⟩ := List.mem_map.1 (husers (List.mem_map_of_mem hu))
    rw [hnext.2.2, ← hid]
    exact h.users v hv

end Ahead

section Cities

variable {anyRow : List CityEntity → Option CityEntity} {t : Tables}

theorem exec_city_findById {id : Nat} (hid : id ≤ 2147483647) :
    Call.exec (CityRepository.findById id) t =
      (.ok (t.rows.cities.find? fun c => c.id = id), t) :=
  exec_select (by simpa [Param.Fits] using hid) _ _

theorem exec_city_findByIdOrFail_of_mem {c : CityEntity} (hid : c.id ≤ 2147483647)
    (hc : c ∈ t.rows.cities) :
    Call.exec (CityService.findByIdOrFail c.id) t = (.ok c, t) := by
  have hfind : (t.rows.cities.find? fun d => d.id = c.id) = some c :=
    (Keyed.find?_eq_some_iff t.unique.1.1).2 ⟨hc, rfl⟩
  rw [CityService.findByIdOrFail, Call.exec_bind, exec_city_findById hid, hfind]
  rfl

theorem exec_city_findByIdOrFail_of_not {id : Nat} (hid : id ≤ 2147483647)
    (h : ¬ t.rows.HasCity id) :
    Call.exec (CityService.findByIdOrFail id) t = (.error (.http cityNotFound), t) := by
  have hfind : (t.rows.cities.find? fun d => d.id = id) = none := by
    refine List.find?_eq_none.2 fun c hc hcid => h ⟨c, hc, by simpa using hcid⟩
  rw [CityService.findByIdOrFail, Call.exec_bind, exec_city_findById hid, hfind]
  rfl

theorem exec_findByName (column : CityEntity → String) {name : String} (hname : CleanText name) :
    Call.exec (CityRepository.findByName anyRow column (some name)) t =
      (.ok (t.rows.cities.find? fun c => column c = name), t) := by
  unfold CityRepository.findByName
  exact exec_select (by simpa [Param.Fits] using hname) _ _

theorem exec_city_insert (hahead : t.Ahead) (hroom : t.nextCity ≤ 2147483647)
    {nameEn nameAr : String} (hEn : CleanText nameEn ∧ nameEn.length ≤ 128)
    (hAr : CleanText nameAr ∧ nameAr.length ≤ 128)
    (hnewEn : ∀ c ∈ t.rows.cities, c.nameEn ≠ nameEn)
    (hnewAr : ∀ c ∈ t.rows.cities, c.nameAr ≠ nameAr) :
    ∃ t', Call.exec (CityRepository.insert none (some nameEn) (some nameAr)) t =
        (.ok ⟨t.nextCity, some nameEn, some nameAr⟩, t') ∧ t'.Ahead ∧
      t'.rows =
        { t.rows with cities := t.rows.cities ++ [⟨t.nextCity, nameEn, nameAr⟩] } := by
  let drawn := (t.drawCity none).2
  let rows : Rows := { t.rows with cities := t.rows.cities ++ [⟨t.nextCity, nameEn, nameAr⟩] }
  have hconsistent : rows.Consistent := consistent_addCity ⟨hEn.1, hAr.1⟩
    (fun c hc => Nat.ne_of_lt (hahead.cities c hc)) hnewEn hnewAr
  obtain ⟨t', hwrite, hrows, hcity, harea, huser⟩ := drawn.write_ok hconsistent
  refine ⟨t', ?_, ⟨hcity ▸ Nat.succ_le_succ hroom, fun c hc => ?_, fun a ha => ?_,
    fun u hu => ?_⟩, hrows⟩
  · rw [CityRepository.insert, exec_execute (by simp [textParams, Param.Fits, hEn, hAr]),
      nameColumn_of_short (by simpa using hEn.2), nameColumn_of_short (by simpa using hAr.2)]
    show (Except.map (fun _ => _) (drawn.write rows).1, (drawn.write rows).2) = _
    rw [hwrite]
    rfl
  · rw [hrows] at hc
    rw [hcity]
    rcases List.mem_append.1 hc with hc | hc
    · exact Nat.lt_succ_of_lt (hahead.cities c hc)
    · rw [List.mem_singleton.1 hc]
      exact Nat.lt_succ_self _
  · rw [hrows] at ha
    exact harea ▸ hahead.areas a ha
  · rw [hrows] at hu
    exact huser ▸ hahead.users u hu

theorem settles_createCity (hahead : t.Ahead) (hroom : t.nextCity ≤ 2147483647)
    {dto : CreateCityDto} (hEn : CleanText dto.nameEn ∧ dto.nameEn.length ≤ 128)
    (hAr : CleanText dto.nameAr ∧ dto.nameAr.length ≤ 128) :
    (Op.createCity dto).Settles anyRow t := by
  unfold Op.Settles
  rw [Op.call, Call.exec_bind, CityService.createForAdmin, Call.exec_bind,
    exec_findByName _ hEn.1]
  cases hfindEn : t.rows.cities.find? fun c => c.nameEn = dto.nameEn with
  | some c =>
    have hname : c.nameEn = dto.nameEn := by simpa using List.find?_some hfindEn
    exact Or.inr ⟨CityService.nameEnTaken, by simp,
      Or.inl ⟨rfl, c, List.mem_of_find?_eq_some hfindEn, hname⟩⟩
  | none =>
    have hnewEn : ∀ c ∈ t.rows.cities, c.nameEn ≠ dto.nameEn := by
      simpa using List.find?_eq_none.1 hfindEn
    simp only [Option.isSome_none, Bool.false_eq_true, if_false, Call.exec_bind,
      exec_findByName _ hAr.1]
    cases hfindAr : t.rows.cities.find? fun c => c.nameAr = dto.nameAr with
    | some c =>
      have hname : c.nameAr = dto.nameAr := by simpa using List.find?_some hfindAr
      exact Or.inr ⟨CityService.nameArTaken, by simp,
        Or.inr ⟨rfl, c, List.mem_of_find?_eq_some hfindAr, hname⟩⟩
    | none =>
      have hnewAr : ∀ c ∈ t.rows.cities, c.nameAr ≠ dto.nameAr := by
        simpa using List.find?_eq_none.1 hfindAr
      obtain ⟨t', hinsert, hahead', hrows⟩ := exec_city_insert hahead hroom hEn hAr hnewEn hnewAr
      refine Or.inl ⟨_, t', by simp [hinsert], hahead', ⟨rfl, hrows⟩, fun e he => ?_⟩
      rcases he with ⟨-, c, hc, hname⟩ | ⟨-, c, hc, hname⟩
      · exact hnewEn c hc hname
      · exact hnewAr c hc hname

def UpdateCityDto.NonNull (dto : UpdateCityDto) : Prop :=
  dto.nameEn ≠ some none ∧ dto.nameAr ≠ some none

theorem exec_city_checkName {column : CityEntity → String}
    (hunique : (t.rows.cities.map column).Nodup) {taken : HttpException} {c : CityEntity}
    (hc : c ∈ t.rows.cities) {sent : Option (Option String)} (hnull : sent ≠ some none)
    (hclean : ∀ s ∈ sent.join, CleanText s) :
    Call.exec (CityService.checkName anyRow column taken c.id (column c) sent) t =
      (if ∃ d ∈ t.rows.cities, d.id ≠ c.id ∧ sent = some (some (column d)) then
        .error (.http taken) else .ok (), t) := by
  cases sent with
  | none => simp [CityService.checkName]
  | some sent =>
    cases sent with
    | none => exact absurd rfl hnull
    | some name =>
      by_cases hsame : name = column c
      · have hnone : ¬ ∃ d ∈ t.rows.cities, d.id ≠ c.id ∧ some (some name) = some (some (column d))
            := by
          rintro ⟨d, hd, hne, hname⟩
          refine hne (congrArg CityEntity.id (List.inj_on_of_nodup_map hunique hd hc ?_))
          exact ((Option.some.inj (Option.some.inj hname)).symm.trans hsame)
        rw [if_neg hnone, CityService.checkName, if_neg (by simpa using hsame)]
        rfl
      · rw [CityService.checkName, if_pos (by simpa using hsame), Call.exec_bind,
          exec_findByName _ (hclean name rfl)]
        cases hfind : t.rows.cities.find? fun d => column d = name with
        | none =>
          have hfree := List.find?_eq_none.1 hfind
          have hnone : ¬ ∃ d ∈ t.rows.cities, d.id ≠ c.id ∧
              some (some name) = some (some (column d)) := by
            rintro ⟨d, hd, -, hname⟩
            exact hfree d hd (by simpa using (Option.some.inj (Option.some.inj hname)).symm)
          rw [if_neg hnone]
          rfl
        | some d =>
          have hname : column d = name := by simpa using List.find?_some hfind
          have hd := List.mem_of_find?_eq_some hfind
          have hne : d.id ≠ c.id := fun hid => hsame (hname.symm.trans (congrArg column
            (List.inj_on_of_nodup_map t.unique.1.1 hd hc hid)))
          rw [if_pos ⟨d, hd, hne, by rw [hname]⟩]
          simp [hne]

/-- The `UPDATE` of a stored city to the names that the columns come to. -/
theorem exec_city_update {c : CityEntity} (hid : c.id ≤ 2147483647) (hc : c ∈ t.rows.cities)
    {nameEn nameAr : Option (Option String)} {en ar : String}
    (hEn : nameEn.getD (some c.nameEn) = some en) (hAr : nameAr.getD (some c.nameAr) = some ar)
    (hclean : CleanText en ∧ CleanText ar) (hshortEn : ∀ s ∈ nameEn.join, s.length ≤ 128)
    (hshortAr : ∀ s ∈ nameAr.join, s.length ≤ 128) :
    Call.exec (CityRepository.update c.id nameEn nameAr) t =
      t.write { t.rows with
        cities := Keyed.alter CityEntity.id c.id (fun _ => ⟨c.id, en, ar⟩) t.rows.cities } := by
  have hfind : (t.rows.cities.find? fun d => d.id = c.id) = some c :=
    (Keyed.find?_eq_some_iff t.unique.1.1).2 ⟨hc, rfl⟩
  have hsent : ∀ {sent : Option (Option String)} {old name : String},
      sent.getD (some old) = some name → ∀ s ∈ sent.join, s = name := by
    intro sent old name h s hs
    cases sent with
    | none => cases hs
    | some sent => exact Option.some.inj ((show sent = some s from hs).symm.trans h)
  have hcolumn : ∀ (sent : Option (Option String)) (old : Option String),
      (if sent.isSome then sent.join else old) = sent.getD old := by
    intro sent old
    cases sent <;> rfl
  rw [CityRepository.update, exec_execute]
  · simp only [nameColumn_of_short hshortEn, nameColumn_of_short hshortAr, hfind, CityRecord.row,
      hcolumn, hEn, hAr, Option.bind_some, Option.map_some]
    rfl
  · intro p hp
    simp only [textParams, List.mem_append, List.mem_filterMap, List.mem_cons, List.not_mem_nil,
      or_false] at hp
    rcases hp with ⟨name, rfl | rfl, hp⟩ | rfl
    · obtain ⟨s, hs, rfl⟩ := Option.map_eq_some_iff.1 hp
      exact hsent hEn s hs ▸ hclean.1
    · obtain ⟨s, hs, rfl⟩ := Option.map_eq_some_iff.1 hp
      exact hsent hAr s hs ▸ hclean.2
    · exact hid

/-- `save` of a stored city under other names: only the columns that differ are written. -/
theorem exec_city_save (hahead : t.Ahead) {c m : CityEntity} (hid : c.id ≤ 2147483647)
    (hc : c ∈ t.rows.cities) (hm : m.id = c.id) (hclean : CleanText m.nameEn ∧ CleanText m.nameAr)
    (hEn : ∀ d ∈ t.rows.cities, d.id ≠ c.id → d.nameEn ≠ m.nameEn)
    (hAr : ∀ d ∈ t.rows.cities, d.id ≠ c.id → d.nameAr ≠ m.nameAr)
    (hshortEn : m.nameEn ≠ c.nameEn → m.nameEn.length ≤ 128)
    (hshortAr : m.nameAr ≠ c.nameAr → m.nameAr.length ≤ 128) :
    ∃ t', Call.exec (CityRepository.save m.record) t = (.ok m.record, t') ∧ t'.Ahead ∧
      t'.rows = { t.rows with
        cities := Keyed.alter CityEntity.id c.id (fun _ => m) t.rows.cities } := by
  have hfind : (t.rows.cities.find? fun d => d.id = m.record.id) = some c :=
    (Keyed.find?_eq_some_iff t.unique.1.1).2 ⟨hc, hm.symm⟩
  have hmid : m.record.id ≤ 2147483647 := show m.id ≤ _ from hm ▸ hid
  rw [CityRepository.save, Call.exec_bind, exec_city_findById hmid, hfind]
  by_cases hsame : c.record = m.record
  · have heq : c = m := by
      cases c
      cases m
      simpa [CityEntity.record] using hsame
    have hself : Keyed.alter CityEntity.id c.id (fun _ => m) t.rows.cities = t.rows.cities :=
      Keyed.alter_eq_self fun d hd hdid =>
        heq.symm.trans (List.inj_on_of_nodup_map t.unique.1.1 hc hd hdid.symm)
    refine ⟨t, by simp [hsame], hahead, ?_⟩
    rw [hself]
  · have hchanged : ∀ old new : String,
        (if some new = some old then none else some (some new)).getD (some old) = some new := by
      intro old new
      split
      · next h => exact h.symm
      · rfl
    have hshort : ∀ {old new : String}, (new ≠ old → new.length ≤ 128) →
        ∀ s ∈ (if some new = some old then none else some (some new)).join, s.length ≤ 128 := by
      intro old new h s hs
      split at hs
      · cases hs
      · next hne =>
        cases hs
        exact h fun heq => hne (congrArg some heq)
    obtain ⟨t', hwrite, hrows, hnext⟩ := t.write_ok (consistent_alterCity (t := t) c.id
      (f := fun _ => m) (fun d _ hd => hm.trans hd.symm) (fun _ _ _ => hclean)
      (fun _ _ _ => hEn) fun _ _ _ => hAr)
    have hexec := exec_city_update (t := t) hid hc (hchanged c.nameEn m.nameEn)
      (hchanged c.nameAr m.nameAr) hclean (hshort hshortEn) (hshort hshortAr)
    have hrow : (⟨c.id, m.nameEn, m.nameAr⟩ : CityEntity) = m := by rw [← hm]
    rw [hrow, hwrite] at hexec
    refine ⟨t', ?_, hahead.of_ids ?_ ?_ ?_ hnext, hrows⟩
    · simp only [if_neg hsame, Call.exec_bind]
      rw [show m.record.id = c.id from hm, show m.record.nameEn = some m.nameEn from rfl,
        show m.record.nameAr = some m.nameAr from rfl, hexec]
      rfl
    · rw [hrows, Keyed.map_alter fun d _ hd => hm.trans hd.symm]
      exact List.Subset.refl _
    · rw [hrows]
      exact List.Subset.refl _
    · rw [hrows]
      exact List.Subset.refl _

theorem CityEntity.record_merge (c : CityEntity) {dto : UpdateCityDto} (hnull : dto.NonNull) :
    (c.merge dto).record =
      ⟨c.id, dto.nameEn.getD (some c.nameEn), dto.nameAr.getD (some c.nameAr)⟩ := by
  have hgetD : ∀ {sent : Option (Option String)} {old : String}, sent ≠ some none →
      some (sent.join.getD old) = sent.getD (some old) := by
    intro sent old h
    cases sent with
    | none => rfl
    | some sent =>
      cases sent with
      | none => exact absurd rfl h
      | some name => rfl
  simp only [CityEntity.record, CityEntity.merge, hgetD hnull.1, hgetD hnull.2]

/-- A name that no other city has been found under, or that stays, is no other city's. -/
theorem free_merged {column : CityEntity → String} (hunique : (t.rows.cities.map column).Nodup)
    {c : CityEntity} (hc : c ∈ t.rows.cities) {sent : Option (Option String)}
    (h : ¬ ∃ d ∈ t.rows.cities, d.id ≠ c.id ∧ sent = some (some (column d))) :
    ∀ d ∈ t.rows.cities, d.id ≠ c.id → column d ≠ sent.join.getD (column c) := by
  intro d hd hne heq
  cases hsent : sent.join with
  | none =>
    rw [hsent] at heq
    exact hne (congrArg CityEntity.id (List.inj_on_of_nodup_map hunique hd hc heq))
  | some name =>
    rw [hsent] at heq
    exact h ⟨d, hd, hne, by rw [heq]; exact Option.join_eq_some_iff.1 hsent⟩

theorem UpdateCityDto.Clean.merge {dto : UpdateCityDto} (h : dto.Clean) {c : CityEntity}
    (hc : CleanText c.nameEn ∧ CleanText c.nameAr) :
    CleanText (c.merge dto).nameEn ∧ CleanText (c.merge dto).nameAr := by
  have hgetD : ∀ {sent : Option String} {old : String}, (∀ s ∈ sent, CleanText s) →
      CleanText old → CleanText (sent.getD old) := by
    intro sent old hsent hold
    cases sent with
    | none => exact hold
    | some name => exact hsent name rfl
  exact ⟨hgetD h.1 hc.1, hgetD h.2 hc.2⟩

def UpdateCityDto.Short (dto : UpdateCityDto) : Prop :=
  (∀ s ∈ dto.nameEn.join, s.length ≤ 128) ∧ ∀ s ∈ dto.nameAr.join, s.length ≤ 128

theorem short_of_changed {sent : Option String} {old : String}
    (h : ∀ s ∈ sent, s.length ≤ 128) (hne : sent.getD old ≠ old) :
    (sent.getD old).length ≤ 128 := by
  cases sent with
  | none => exact absurd rfl hne
  | some name => exact h name rfl

theorem settles_updateCity (hahead : t.Ahead) {id : Nat} (hid : id ≤ 2147483647)
    {dto : UpdateCityDto} (hclean : dto.Clean) (hnull : dto.NonNull) (hshort : dto.Short) :
    (Op.updateCity id dto).Settles anyRow t := by
  unfold Op.Settles
  by_cases hcity : t.rows.HasCity id
  · obtain ⟨c, hc, rfl⟩ := hcity
    rw [Op.call, Call.exec_bind, CityService.updateForAdmin, Call.exec_bind,
      exec_city_findByIdOrFail_of_mem hid hc]
    simp only [Call.exec_bind, exec_city_checkName t.unique.1.2.1 hc hnull.1 hclean.1]
    by_cases hEn : ∃ d ∈ t.rows.cities, d.id ≠ c.id ∧ dto.nameEn = some (some d.nameEn)
    · exact Or.inr ⟨CityService.nameEnTaken, by simp only [if_pos hEn],
        Or.inr ⟨⟨c, hc, rfl⟩, Or.inl ⟨rfl, hEn⟩⟩⟩
    · simp only [if_neg hEn, exec_city_checkName t.unique.1.2.2 hc hnull.2 hclean.2]
      by_cases hAr : ∃ d ∈ t.rows.cities, d.id ≠ c.id ∧ dto.nameAr = some (some d.nameAr)
      · exact Or.inr ⟨CityService.nameArTaken, by simp only [if_pos hAr],
          Or.inr ⟨⟨c, hc, rfl⟩, Or.inr ⟨rfl, hAr⟩⟩⟩
      · obtain ⟨t', hsave, hahead', hrows⟩ := exec_city_save hahead (m := c.merge dto) hid hc rfl
          (hclean.merge (t.clean.1 c hc)) (free_merged t.unique.1.2.1 hc hEn)
          (free_merged t.unique.1.2.2 hc hAr) (short_of_changed hshort.1)
          (short_of_changed hshort.2)
        rw [CityEntity.record_merge c hnull] at hsave
        refine Or.inl ⟨.city (c.merge dto).record, t', ?_, hahead', ⟨c, hc, rfl, rfl, ?_⟩, ?_⟩
        · simp only [if_neg hAr, hsave, CityEntity.record_merge c hnull]
          rfl
        · rw [hrows, Keyed.alter_congr (g := fun d => d.merge dto) fun d hd hdid =>
            congrArg (CityEntity.merge · dto)
              (List.inj_on_of_nodup_map t.unique.1.1 hc hd hdid.symm)]
        · intro e he
          rcases he with ⟨-, hnot⟩ | ⟨-, ⟨-, h⟩ | ⟨-, h⟩⟩
          · exact hnot ⟨c, hc, rfl⟩
          · exact hEn h
          · exact hAr h
  · rw [Op.call, Call.exec_bind, CityService.updateForAdmin, Call.exec_bind,
      exec_city_findByIdOrFail_of_not hid hcity]
    exact Or.inr ⟨cityNotFound, rfl, Or.inl ⟨rfl, hcity⟩⟩

theorem exec_city_delete {id : Nat} (hid : id ≤ 2147483647) :
    Call.exec (CityRepository.deleteById "23503" id) t =
      if ∃ u ∈ t.rows.users, u.cityId = some id then (.error foreignKeyViolation, t)
      else t.write { t.rows with
        cities := t.rows.cities.filter fun c => c.id ≠ id
        areas := t.rows.areas.filter fun a => a.cityId ≠ id } := by
  rw [CityRepository.deleteById, exec_execute (by simpa [Param.Fits] using hid)]
  rfl

theorem settles_deleteCity (hahead : t.Ahead) {id : Nat} (hid : id ≤ 2147483647) :
    (Op.deleteCity id).Settles anyRow t := by
  unfold Op.Settles
  by_cases hcity : t.rows.HasCity id
  · obtain ⟨c, hc, rfl⟩ := hcity
    rw [Op.call, Call.exec_bind, CityService.deleteForAdmin, Call.exec_bind,
      exec_city_findByIdOrFail_of_mem hid hc]
    simp only [Call.exec_tryCatch, exec_city_delete hid]
    by_cases huser : ∃ u ∈ t.rows.users, u.cityId = some c.id
    · exact Or.inr ⟨CityService.cannotDeleteInUse, by rw [if_pos huser]; rfl,
        Or.inr ⟨rfl, huser⟩⟩
    · obtain ⟨t', hwrite, hrows, hnext⟩ := t.write_ok (consistent_removeCity (t := t) c.id
        fun u hu hucity => huser ⟨u, hu, hucity⟩)
      refine Or.inl ⟨.noContent, t', ?_, hahead.of_ids ?_ ?_ ?_ hnext, ⟨rfl, hrows⟩, ?_⟩
      · rw [if_neg huser, hwrite]
        rfl
      · rw [hrows]
        exact (List.filter_sublist.map _).subset
      · rw [hrows]
        exact (List.filter_sublist.map _).subset
      · rw [hrows]
        exact List.Subset.refl _
      · intro e he
        rcases he with ⟨-, hnot⟩ | ⟨-, hused⟩
        · exact hnot ⟨c, hc, rfl⟩
        · exact huser hused
  · rw [Op.call, Call.exec_bind, CityService.deleteForAdmin, Call.exec_bind,
      exec_city_findByIdOrFail_of_not hid hcity]
    exact Or.inr ⟨cityNotFound, rfl, Or.inl ⟨rfl, hcity⟩⟩

end Cities

/-! ## Areas -/

section Areas

variable {anyRow : List CityEntity → Option CityEntity} {t : Tables}

/-- The ids of the cities are numbers that the database takes. -/
theorem Tables.Ahead.fits (h : t.Ahead) {cityId : Nat} (hcity : t.rows.HasCity cityId) :
    cityId ≤ 2147483647 := by
  obtain ⟨c, hc, rfl⟩ := hcity
  have hlt := h.cities c hc
  have hle := h.integer
  omega

theorem areaClash_of_nameEnTaken {area : AreaEntity} {dto : UpdateAreaDto}
    (harea : area ∈ t.rows.areas) (h : t.NameEnTaken area dto) :
    t.rows.AreaClash AreaEntity.keyEn area.id dto := by
  obtain ⟨name, hsent, -, other, hother, hne, hkey⟩ := h
  refine ⟨area, harea, rfl, other, hother, hne, hkey.trans ?_⟩
  simp [AreaEntity.keyEn, AreaEntity.merge, show dto.nameEn = some name from hsent]

theorem areaClash_of_nameArTaken {area : AreaEntity} {dto : UpdateAreaDto}
    (harea : area ∈ t.rows.areas) (h : t.NameArTaken area dto) :
    t.rows.AreaClash AreaEntity.keyAr area.id dto := by
  obtain ⟨name, hsent, -, other, hother, hne, hkey⟩ := h
  refine ⟨area, harea, rfl, other, hother, hne, hkey.trans ?_⟩
  simp [AreaEntity.keyAr, AreaEntity.merge, show dto.nameAr = some name from hsent]

def ShortNames (dto : UpdateAreaDto) : Prop :=
  (∀ name ∈ dto.nameEn, name.length ≤ 128) ∧ ∀ name ∈ dto.nameAr, name.length ≤ 128

theorem settles_updateArea (hahead : t.Ahead) {id : Nat} (hid : id ≤ 2147483647)
    {dto : UpdateAreaDto} (hsend : Sendable dto) (hshort : ShortNames dto)
    (hfree : ∀ area ∈ t.rows.areas, area.id = id → t.KeptNamesFree area dto) :
    (Op.updateArea id dto).Settles anyRow t := by
  unfold Op.Settles
  rw [Op.call, Call.exec_bind]
  by_cases hfound : ∃ area ∈ t.rows.areas, area.id = id
  · obtain ⟨area, harea, rfl⟩ := hfound
    by_cases hcity : ∀ city ∈ dto.cityId, t.rows.HasCity city
    · have hpast : PastCity t area dto := ⟨harea, hid, hsend.cityId, hcity⟩
      by_cases hEn : t.NameEnTaken area dto
      · rw [exec_updateForAdmin_of_nameEnTaken hpast hsend.nameEn hEn]
        exact Or.inr ⟨Areas.nameEnTaken, rfl,
          Or.inr (Or.inr (Or.inl ⟨rfl, areaClash_of_nameEnTaken harea hEn⟩))⟩
      · by_cases hAr : t.NameArTaken area dto
        · rw [exec_updateForAdmin_of_nameArTaken hpast hsend hEn hAr]
          exact Or.inr ⟨Areas.nameArTaken, rfl,
            Or.inr (Or.inr (Or.inr ⟨rfl, areaClash_of_nameArTaken harea hAr⟩))⟩
        · have hkept := hfree area harea rfl
          obtain ⟨t', hsave, hrows, hnext⟩ := exec_area_save_of_kept hpast hsend hEn hAr
            ⟨fun name hname _ => hshort.1 name hname, fun name hname _ => hshort.2 name hname⟩ hkept
          have hids : t'.rows.areas.map AreaEntity.id = t.rows.areas.map AreaEntity.id := by
            rw [hrows]
            exact Keyed.map_alter fun _ _ hsame => hsame.symm
          rw [exec_updateForAdmin_of_names hpast hsend hEn hAr, hsave]
          refine Or.inl ⟨.area (area.merge dto), t', rfl, hahead.of_ids ?_ ?_ ?_ hnext,
            ⟨area, harea, rfl, rfl, ?_⟩, ?_⟩
          · rw [hrows]
            exact List.Subset.refl _
          · rw [hids]
            exact List.Subset.refl _
          · rw [hrows]
            exact List.Subset.refl _
          · rw [hrows, Rows.putArea]
            congr 1
            exact Keyed.alter_congr fun a ha haid => congrArg (AreaEntity.merge · dto)
              (List.inj_on_of_nodup_map t.unique.2.1.1 harea ha haid.symm)
          · have hclash : ∀ {key : AreaEntity → Nat × String},
                (∀ other ∈ t.rows.areas, other.id ≠ area.id → key other ≠ key (area.merge dto)) →
                ¬ t.rows.AreaClash key area.id dto := by
              rintro key h ⟨same, hsame, hsameId, other, hother, hne, hkey⟩
              rw [List.inj_on_of_nodup_map t.unique.2.1.1 hsame harea hsameId] at hkey
              exact h other hother hne hkey
            rintro e (⟨-, hnone⟩ | ⟨-, city, hsent, hnot⟩ | ⟨-, h⟩ | ⟨-, h⟩)
            · exact hnone area harea rfl
            · exact hnot (hcity city hsent)
            · exact hclash (fun other hother hne =>
                (free_of_kept hEn hAr hkept hother hne).1) h
            · exact hclash (fun other hother hne =>
                (free_of_kept hEn hAr hkept hother hne).2) h
    · have hmissing : ∃ city ∈ dto.cityId, ¬ t.rows.HasCity city := by simpa using hcity
      rw [exec_updateForAdmin_of_missing harea hid hsend.cityId hmissing]
      exact Or.inr ⟨cityNotFound, rfl, Or.inr (Or.inl ⟨rfl, hmissing⟩)⟩
  · have hnone : ∀ a ∈ t.rows.areas, a.id ≠ id := fun a ha hsame => hfound ⟨a, ha, hsame⟩
    rw [exec_updateForAdmin_of_not_mem hid hnone]
    exact Or.inr ⟨areaNotFound, rfl, Or.inl ⟨rfl, hnone⟩⟩

theorem exec_area_insert (hahead : t.Ahead) {dto : CreateAreaDto}
    (hEn : CleanText dto.nameEn ∧ dto.nameEn.length ≤ 128)
    (hAr : CleanText dto.nameAr ∧ dto.nameAr.length ≤ 128) (hcity : t.rows.HasCity dto.cityId)
    (hnewEn : ∀ a ∈ t.rows.areas, a.keyEn ≠ (dto.cityId, dto.nameEn))
    (hnewAr : ∀ a ∈ t.rows.areas, a.keyAr ≠ (dto.cityId, dto.nameAr)) :
    ∃ t', Call.exec (AreaRepository.insert none dto.cityId dto.nameEn dto.nameAr) t =
        (.ok ⟨t.nextArea, dto.cityId, dto.nameEn, dto.nameAr⟩, t') ∧ t'.Ahead ∧
      t'.rows = { t.rows with
        areas := t.rows.areas ++ [⟨t.nextArea, dto.cityId, dto.nameEn, dto.nameAr⟩] } := by
  let drawn := (t.drawArea none).2
  let rows : Rows := { t.rows with
    areas := t.rows.areas ++ [⟨t.nextArea, dto.cityId, dto.nameEn, dto.nameAr⟩] }
  have hconsistent : rows.Consistent := consistent_addArea ⟨hEn.1, hAr.1⟩
    (hahead.fits hcity) hcity
    (fun a ha => Nat.ne_of_lt (hahead.areas a ha)) hnewEn hnewAr
  obtain ⟨t', hwrite, hrows, hnextCity, harea, huser⟩ := drawn.write_ok hconsistent
  refine ⟨t', ?_, ⟨hnextCity ▸ hahead.integer, fun c hc => ?_, fun a ha => ?_, fun u hu => ?_⟩,
    hrows⟩
  · rw [AreaRepository.insert,
      exec_execute (by simpa [Param.Fits] using ⟨hahead.fits hcity, hEn.1, hAr.1⟩),
      varchar_of_short hEn.2, varchar_of_short hAr.2]
    show (Except.map (fun _ => _) (drawn.write rows).1, (drawn.write rows).2) = _
    rw [hwrite]
    rfl
  · rw [hrows] at hc
    exact hnextCity ▸ hahead.cities c hc
  · rw [hrows] at ha
    rw [harea]
    rcases List.mem_append.1 ha with ha | ha
    · exact Nat.lt_succ_of_lt (hahead.areas a ha)
    · rw [List.mem_singleton.1 ha]
      exact Nat.lt_succ_self _
  · rw [hrows] at hu
    exact huser ▸ hahead.users u hu

theorem settles_createArea (hahead : t.Ahead) {dto : CreateAreaDto}
    (hEn : CleanText dto.nameEn ∧ dto.nameEn.length ≤ 128)
    (hAr : CleanText dto.nameAr ∧ dto.nameAr.length ≤ 128) (hid : dto.cityId ≤ 2147483647) :
    (Op.createArea dto).Settles anyRow t := by
  unfold Op.Settles
  rw [Op.call, Call.exec_bind, AreaService.createForAdmin, Call.exec_bind, exec_assertExists hid]
  by_cases hcity : t.rows.HasCity dto.cityId
  · simp only [if_pos hcity, Call.exec_bind, exec_findByKey AreaEntity.keyEn hid hEn.1]
    cases hfindEn : t.rows.areas.find? fun a => a.keyEn = (dto.cityId, dto.nameEn) with
    | some a =>
      have hkey : a.keyEn = (dto.cityId, dto.nameEn) := by simpa using List.find?_some hfindEn
      exact Or.inr ⟨Areas.nameEnTaken, by simp,
        Or.inr (Or.inl ⟨rfl, a, List.mem_of_find?_eq_some hfindEn, hkey⟩)⟩
    | none =>
      have hnewEn : ∀ a ∈ t.rows.areas, a.keyEn ≠ (dto.cityId, dto.nameEn) := by
        simpa using List.find?_eq_none.1 hfindEn
      simp only [Option.isSome_none, Bool.false_eq_true, if_false, Call.exec_bind,
        exec_findByKey AreaEntity.keyAr hid hAr.1]
      cases hfindAr : t.rows.areas.find? fun a => a.keyAr = (dto.cityId, dto.nameAr) with
      | some a =>
        have hkey : a.keyAr = (dto.cityId, dto.nameAr) := by simpa using List.find?_some hfindAr
        exact Or.inr ⟨Areas.nameArTaken, by simp,
          Or.inr (Or.inr ⟨rfl, a, List.mem_of_find?_eq_some hfindAr, hkey⟩)⟩
      | none =>
        have hnewAr : ∀ a ∈ t.rows.areas, a.keyAr ≠ (dto.cityId, dto.nameAr) := by
          simpa using List.find?_eq_none.1 hfindAr
        obtain ⟨t', hinsert, hahead', hrows⟩ :=
          exec_area_insert hahead hEn hAr hcity hnewEn hnewAr
        refine Or.inl ⟨_, t', by simp [hinsert], hahead', ⟨rfl, hrows⟩, fun e he => ?_⟩
        rcases he with ⟨-, hnot⟩ | ⟨-, a, ha, hkey⟩ | ⟨-, a, ha, hkey⟩
        · exact hnot hcity
        · exact hnewEn a ha hkey
        · exact hnewAr a ha hkey
  · simp only [if_neg hcity]
    exact Or.inr ⟨cityNotFound, rfl, Or.inl ⟨rfl, hcity⟩⟩

theorem settles_deleteArea (hahead : t.Ahead) {id : Nat} (hid : id ≤ 2147483647) :
    (Op.deleteArea id).Settles anyRow t := by
  unfold Op.Settles
  rw [Op.call, Call.exec_bind, AreaService.deleteForAdmin, Call.exec_bind,
    AreaService.findByIdOrFail, Call.exec_bind, exec_area_findById hid]
  cases hfind : t.rows.areas.find? fun a => a.id = id with
  | none =>
    refine Or.inr ⟨areaNotFound, rfl, rfl, fun a ha haid => ?_⟩
    exact List.find?_eq_none.1 hfind a ha (by simpa using haid)
  | some area =>
    have harea : area ∈ t.rows.areas := List.mem_of_find?_eq_some hfind
    obtain rfl : area.id = id := by simpa using List.find?_some hfind
    obtain ⟨t', hwrite, hrows, hnext⟩ := t.write_ok (consistent_removeArea (t := t) area.id)
    have hdelete : Call.exec (AreaRepository.deleteById area.id) t = (.ok (), t') := by
      rw [AreaRepository.deleteById, exec_execute (by simpa [Param.Fits] using hid)]
      exact hwrite
    refine Or.inl ⟨.noContent, t', ?_, hahead.of_ids ?_ ?_ ?_ hnext, ⟨rfl, hrows⟩, ?_⟩
    · simp only [Call.exec_pure, Call.exec_tryCatch, hdelete]
    · rw [hrows]
      exact List.Subset.refl _
    · rw [hrows]
      exact (List.filter_sublist.map _).subset
    · rw [hrows]
      exact List.Subset.refl _
    · intro e he
      exact he.2 area harea rfl

end Areas

/-! ## Users -/

section Users

variable {anyRow : List CityEntity → Option CityEntity} {t : Tables}

theorem exec_user_findById {id : Nat} (hid : id ≤ 2147483647) :
    Call.exec (UserRepository.findById id) t =
      (.ok (t.rows.users.find? fun u => u.id = id), t) :=
  exec_select (by simpa [Param.Fits] using hid) _ _

theorem exec_user_findByIdOrFail_of_mem {u : UserRow} (hid : u.id ≤ 2147483647)
    (hu : u ∈ t.rows.users) :
    Call.exec (UserService.findByIdOrFail u.id) t = (.ok u, t) := by
  have hfind : (t.rows.users.find? fun v => v.id = u.id) = some u :=
    (Keyed.find?_eq_some_iff t.unique.2.2.1).2 ⟨hu, rfl⟩
  rw [UserService.findByIdOrFail, Call.exec_bind, exec_user_findById hid, hfind]
  rfl

theorem exec_user_findByIdOrFail_of_not {id : Nat} (hid : id ≤ 2147483647)
    (h : ∀ u ∈ t.rows.users, u.id ≠ id) :
    Call.exec (UserService.findByIdOrFail id) t = (.error (.http userNotFound), t) := by
  have hfind : (t.rows.users.find? fun v => v.id = id) = none :=
    List.find?_eq_none.2 fun u hu huid => h u hu (by simpa using huid)
  rw [UserService.findByIdOrFail, Call.exec_bind, exec_user_findById hid, hfind]
  rfl

/-- `save` of a stored user in another city, or with its profile completed. -/
theorem exec_user_save (hahead : t.Ahead) {u m : UserRow} (hid : u.id ≤ 2147483647)
    (hu : u ∈ t.rows.users) (hm : m.id = u.id) (hphone : m.phone = u.phone)
    (hcity : ∀ city ∈ m.cityId, t.rows.HasCity city) :
    ∃ t', Call.exec (UserRepository.save m) t = (.ok m, t') ∧ t'.Ahead ∧
      t'.rows = { t.rows with
        users := Keyed.alter UserRow.id u.id
          (fun v => { v with cityId := m.cityId, isProfileCompleted := m.isProfileCompleted })
          t.rows.users } := by
  have hfind : (t.rows.users.find? fun v => v.id = m.id) = some u :=
    (Keyed.find?_eq_some_iff t.unique.2.2.1).2 ⟨hu, hm.symm⟩
  have honly : ∀ v ∈ t.rows.users, v.id = u.id → v = u := fun v hv hvid =>
    List.inj_on_of_nodup_map t.unique.2.2.1 hv hu hvid
  have hset : { u with cityId := m.cityId, isProfileCompleted := m.isProfileCompleted } = m := by
    cases m
    simp only at hm hphone
    rw [← hm, ← hphone]
  rw [UserRepository.save, Call.exec_bind, exec_user_findById (hm ▸ hid), hfind]
  by_cases hsame : u = m
  · have hself : Keyed.alter UserRow.id u.id
        (fun v => { v with cityId := m.cityId, isProfileCompleted := m.isProfileCompleted })
        t.rows.users = t.rows.users :=
      Keyed.alter_eq_self fun v hv hvid => by
        rw [honly v hv hvid, hset, hsame]
    refine ⟨t, by simp [hsame], hahead, ?_⟩
    rw [hself]
  · have hfits : ∀ p ∈ [Param.text m.phone, .int m.id] ++ m.cityId.toList.map .int, p.Fits := by
      intro p hp
      simp only [List.mem_append, List.mem_cons, List.not_mem_nil, or_false, List.mem_map,
        Option.mem_toList] at hp
      rcases hp with (rfl | rfl) | ⟨city, hsent, rfl⟩
      · exact hphone ▸ t.clean.2.2 u hu
      · exact hm ▸ hid
      · exact hahead.fits (hcity city hsent)
    have hrows : (t.rows.users.map fun v => if v.id = m.id then
          { v with
            phone := if m.phone = u.phone then v.phone else m.phone
            cityId := if m.cityId = u.cityId then v.cityId else m.cityId
            isProfileCompleted :=
              if m.isProfileCompleted = u.isProfileCompleted then v.isProfileCompleted
              else m.isProfileCompleted }
        else v) = Keyed.alter UserRow.id u.id
          (fun v => { v with cityId := m.cityId, isProfileCompleted := m.isProfileCompleted })
          t.rows.users := by
      rw [hm]
      refine Keyed.alter_congr fun v hv hvid => ?_
      rw [honly v hv hvid, if_pos hphone]
      congr 1
      · split
        · next h => exact h.symm
        · rfl
      · split
        · next h => exact h.symm
        · rfl
    obtain ⟨t', hwrite, hrows', hnext⟩ := t.write_ok (consistent_alterUser (t := t) u.id
      (f := fun v => { v with cityId := m.cityId, isProfileCompleted := m.isProfileCompleted })
      (fun _ => rfl) (fun _ => rfl) (fun _ _ _ city hsent => hahead.fits (hcity city hsent))
      fun _ _ _ => hcity)
    refine ⟨t', ?_, hahead.of_ids ?_ ?_ ?_ hnext, hrows'⟩
    · simp only [if_neg hsame, Call.exec_bind]
      rw [UserRepository.update, exec_execute hfits, hrows, hwrite]
      rfl
    · rw [hrows']
      exact List.Subset.refl _
    · rw [hrows']
      exact List.Subset.refl _
    · have hids : (Keyed.alter UserRow.id u.id
          (fun v => { v with cityId := m.cityId, isProfileCompleted := m.isProfileCompleted })
          t.rows.users).map UserRow.id = t.rows.users.map UserRow.id :=
        Keyed.map_alter fun _ _ _ => rfl
      rw [hrows']
      exact fun id hid => hids ▸ hid

theorem settles_updateMe (hahead : t.Ahead) {id : Nat} (hid : id ≤ 2147483647)
    {cityId : Option (Option Nat)} (hfits : ∀ city ∈ cityId.join, city ≤ 2147483647) :
    (Op.updateMe id cityId).Settles anyRow t := by
  have hcall : Call.exec ((Op.updateMe id cityId).call anyRow "23503") t =
      if ∃ city ∈ cityId.join, ¬ t.rows.HasCity city then (.error (.http cityNotFound), t)
      else Call.exec ((UserService.findByIdOrFail id >>= fun current =>
        UserRepository.save { current with cityId := cityId.getD current.cityId }) >>=
          fun user => pure (.user user)) t := by
    rcases cityId with _ | _ | city
    · simp [Op.call, UserService.updateMe]
    · simp [Op.call, UserService.updateMe]
    · by_cases hcity : t.rows.HasCity city <;>
        simp [Op.call, UserService.updateMe, exec_assertExists (hfits city rfl), hcity]
  unfold Op.Settles
  rw [hcall]
  by_cases hmissing : ∃ city ∈ cityId.join, ¬ t.rows.HasCity city
  · exact Or.inr ⟨cityNotFound, by rw [if_pos hmissing], Or.inl ⟨rfl, hmissing⟩⟩
  · rw [if_neg hmissing, Call.exec_bind, Call.exec_bind]
    by_cases huser : ∃ u ∈ t.rows.users, u.id = id
    · obtain ⟨u, hu, rfl⟩ := huser
      have hcity : ∀ city ∈ cityId.getD u.cityId, t.rows.HasCity city := by
        intro city hsent
        rcases cityId with _ | _ | sent
        · exact t.references.2 u hu city hsent
        · cases hsent
        · by_contra hnot
          exact hmissing ⟨city, hsent, hnot⟩
      obtain ⟨t', hsave, hahead', hrows⟩ := exec_user_save hahead
        (m := { u with cityId := cityId.getD u.cityId }) hid hu rfl rfl hcity
      refine Or.inl ⟨.user { u with cityId := cityId.getD u.cityId }, t', ?_, hahead',
        ⟨u, hu, rfl, rfl, ?_⟩, ?_⟩
      · rw [exec_user_findByIdOrFail_of_mem hid hu]
        simp only [hsave]
        rfl
      · rw [hrows, Keyed.alter_congr (g := fun v => { v with cityId := cityId.getD v.cityId })
          fun v hv hvid => by rw [List.inj_on_of_nodup_map t.unique.2.2.1 hv hu hvid]]
      · rintro e (⟨-, h⟩ | ⟨-, hnone⟩)
        · exact hmissing h
        · exact hnone u hu rfl
    · have hnone : ∀ u ∈ t.rows.users, u.id ≠ id := fun u hu huid => huser ⟨u, hu, huid⟩
      rw [exec_user_findByIdOrFail_of_not hid hnone]
      exact Or.inr ⟨userNotFound, rfl, Or.inr ⟨rfl, hnone⟩⟩

theorem settles_completeProfile (hahead : t.Ahead) {id cityId : Nat} (hid : id ≤ 2147483647)
    (hfits : cityId ≤ 2147483647) : (Op.completeProfile id cityId).Settles anyRow t := by
  unfold Op.Settles
  rw [Op.call, Call.exec_bind, UserService.completeProfile, Call.exec_bind]
  by_cases huser : ∃ u ∈ t.rows.users, u.id = id
  · obtain ⟨u, hu, rfl⟩ := huser
    rw [exec_user_findByIdOrFail_of_mem hid hu]
    by_cases hcompleted : u.isProfileCompleted = true
    · exact Or.inr ⟨profileAlreadyCompleted, by simp [hcompleted],
        Or.inr (Or.inl ⟨rfl, u, hu, rfl, hcompleted⟩)⟩
    · simp only [if_neg hcompleted, Call.exec_bind, exec_assertExists hfits]
      by_cases hcity : t.rows.HasCity cityId
      · obtain ⟨t', hsave, hahead', hrows⟩ := exec_user_save hahead
          (m := { u with cityId := some cityId, isProfileCompleted := true }) hid hu rfl rfl
          fun city hsent => Option.some.inj hsent ▸ hcity
        refine Or.inl ⟨_, t', by simp [hcity, hsave], hahead', ⟨u, hu, rfl, rfl, hrows⟩, ?_⟩
        rintro e (⟨-, hnone⟩ | ⟨-, v, hv, hvid, hdone⟩ | ⟨-, hnot⟩)
        · exact hnone u hu rfl
        · rw [List.inj_on_of_nodup_map t.unique.2.2.1 hv hu hvid] at hdone
          exact hcompleted hdone
        · exact hnot hcity
      · exact Or.inr ⟨cityNotFound, by simp [hcity], Or.inr (Or.inr ⟨rfl, hcity⟩)⟩
  · have hnone : ∀ u ∈ t.rows.users, u.id ≠ id := fun u hu huid => huser ⟨u, hu, huid⟩
    rw [exec_user_findByIdOrFail_of_not hid hnone]
    exact Or.inr ⟨userNotFound, rfl, Or.inl ⟨rfl, hnone⟩⟩

theorem exec_user_insert (hahead : t.Ahead) {phone : String} {cityId : Nat}
    (hphone : CleanText phone) (hcity : t.rows.HasCity cityId)
    (hnew : ∀ u ∈ t.rows.users, u.phone ≠ phone) :
    ∃ t', Call.exec (UserRepository.insert none ⟨0, phone, some cityId, true⟩) t =
        (.ok ⟨t.nextUser, phone, some cityId, true⟩, t') ∧ t'.Ahead ∧
      t'.rows = { t.rows with
        users := t.rows.users ++ [⟨t.nextUser, phone, some cityId, true⟩] } := by
  let drawn := (t.drawUser none).2
  let rows : Rows := { t.rows with
    users := t.rows.users ++ [⟨t.nextUser, phone, some cityId, true⟩] }
  have hconsistent : rows.Consistent := consistent_addUser hphone
    (fun city hsent => hahead.fits (Option.some.inj hsent ▸ hcity))
    (fun city hsent => Option.some.inj hsent ▸ hcity)
    (fun u hu => Nat.ne_of_lt (hahead.users u hu)) hnew
  obtain ⟨t', hwrite, hrows, hnextCity, harea, huser⟩ := drawn.write_ok hconsistent
  refine ⟨t', ?_, ⟨hnextCity ▸ hahead.integer, fun c hc => ?_, fun a ha => ?_, fun u hu => ?_⟩,
    hrows⟩
  · rw [UserRepository.insert,
      exec_execute (by simpa [Param.Fits] using ⟨hphone, hahead.fits hcity⟩)]
    show (Except.map (fun _ => _) (drawn.write rows).1, (drawn.write rows).2) = _
    rw [hwrite]
    rfl
  · rw [hrows] at hc
    exact hnextCity ▸ hahead.cities c hc
  · rw [hrows] at ha
    exact harea ▸ hahead.areas a ha
  · rw [hrows] at hu
    rw [huser]
    rcases List.mem_append.1 hu with hu | hu
    · exact Nat.lt_succ_of_lt (hahead.users u hu)
    · rw [List.mem_singleton.1 hu]
      exact Nat.lt_succ_self _

theorem settles_createUser (hahead : t.Ahead) {phone : String} {cityId : Nat}
    (hphone : CleanText phone) (hfits : cityId ≤ 2147483647) :
    (Op.createUser phone cityId).Settles anyRow t := by
  unfold Op.Settles
  rw [Op.call, Call.exec_bind, UserService.createByAdmin, Call.exec_bind,
    UserRepository.findByPhone, exec_select (by simpa [Param.Fits] using hphone)]
  cases hfind : t.rows.users.find? fun u => u.phone = phone with
  | some u =>
    have hsame : u.phone = phone := by simpa using List.find?_some hfind
    exact Or.inr ⟨phoneTaken, by simp, Or.inl ⟨rfl, u, List.mem_of_find?_eq_some hfind, hsame⟩⟩
  | none =>
    have hnew : ∀ u ∈ t.rows.users, u.phone ≠ phone := by
      simpa using List.find?_eq_none.1 hfind
    simp only [Option.isSome_none, Bool.false_eq_true, if_false, Call.exec_bind,
      exec_assertExists hfits]
    by_cases hcity : t.rows.HasCity cityId
    · obtain ⟨t', hinsert, hahead', hrows⟩ := exec_user_insert hahead hphone hcity hnew
      refine Or.inl ⟨_, t', by simp [hcity, hinsert], hahead', ⟨rfl, hrows⟩, ?_⟩
      rintro e (⟨-, u, hu, hsame⟩ | ⟨-, hnot⟩)
      · exact hnew u hu hsame
      · exact hnot hcity
    · exact Or.inr ⟨cityNotFound, by simp [hcity], Or.inr ⟨rfl, hcity⟩⟩

end Users

/-! ## Histories -/

/-- A new city has an id left, the name of a city is no `null`, and an area is not moved to a city
that has a name it keeps. -/
def Op.Apt (t : Tables) : Op → Prop
  | .createCity _ => t.nextCity ≤ 2147483647
  | .updateCity _ dto => dto.NonNull
  | .updateArea id dto => ∀ area ∈ t.rows.areas, area.id = id → t.KeptNamesFree area dto
  | .deleteCity _ | .createArea _ | .deleteArea _ | .updateMe .. | .completeProfile ..
  | .createUser .. => True

def Op.Short : Op → Prop
  | .createCity dto => dto.nameEn.length ≤ 128 ∧ dto.nameAr.length ≤ 128
  | .updateCity _ dto => dto.Short
  | .createArea dto => dto.nameEn.length ≤ 128 ∧ dto.nameAr.length ≤ 128
  | .updateArea _ dto => ShortNames dto
  | .deleteCity _ | .deleteArea _ | .updateMe .. | .completeProfile .. | .createUser .. => True

/-- What the checks of a call count on. -/
structure Op.Proper (t : Tables) (op : Op) : Prop where
  clean : op.Clean
  short : op.Short
  ints : ∀ n ∈ op.ints, n ≤ 2147483647
  apt : op.Apt t

def Op.step (anyRow : List CityEntity → Option CityEntity) (t : Tables) (op : Op) :
    Option Tables :=
  some (Call.exec (op.call anyRow "23503") t).2

section Histories

variable {anyRow : List CityEntity → Option CityEntity} {t : Tables}

theorem Op.Proper.settles {op : Op} (h : op.Proper t) (hahead : t.Ahead) :
    op.Settles anyRow t := by
  have hfits := h.ints
  cases op with
  | createCity dto =>
    exact settles_createCity hahead h.apt ⟨h.clean.1, h.short.1⟩ ⟨h.clean.2, h.short.2⟩
  | updateCity id dto =>
    exact settles_updateCity hahead (hfits id (by simp [Op.ints])) h.clean h.apt h.short
  | deleteCity id => exact settles_deleteCity hahead (hfits id (by simp [Op.ints]))
  | createArea dto =>
    exact settles_createArea hahead ⟨h.clean.1, h.short.1⟩ ⟨h.clean.2, h.short.2⟩
      (hfits _ (by simp [Op.ints]))
  | updateArea id dto =>
    have hcity : ∀ city ∈ dto.cityId, city ≤ 2147483647 := fun city hsent =>
      hfits city (by simpa [Op.ints] using Or.inr hsent)
    exact settles_updateArea hahead (hfits id (by simp [Op.ints]))
      ⟨hcity, h.clean.1, h.clean.2⟩ h.short h.apt
  | deleteArea id => exact settles_deleteArea hahead (hfits id (by simp [Op.ints]))
  | updateMe user cityId =>
    exact settles_updateMe hahead (hfits user (by simp [Op.ints])) fun city hsent =>
      hfits city (by simpa [Op.ints] using Or.inr hsent)
  | completeProfile user cityId =>
    exact settles_completeProfile hahead (hfits user (by simp [Op.ints]))
      (hfits cityId (by simp [Op.ints]))
  | createUser phone cityId =>
    exact settles_createUser hahead h.clean (hfits _ (by simp [Op.ints]))

/-- A call that settles leaves the sequences ahead. -/
theorem Op.Settles.ahead {op : Op} (h : op.Settles anyRow t) (hahead : t.Ahead) :
    (Call.exec (op.call anyRow "23503") t).2.Ahead := by
  rcases h with ⟨a, t', hexec, hahead', -, -⟩ | ⟨e, hexec, -⟩
  · rw [hexec]
    exact hahead'
  · rw [hexec]
    exact hahead

end Histories

/-- A city is added, then an area in it, and the first city is deleted. -/
def historySample : List Op :=
  [.createCity ⟨"Hama", "حماة"⟩, .createArea ⟨2, "Hader", "الحاضر"⟩, .deleteCity 1]

end NestStarter.Catalog
