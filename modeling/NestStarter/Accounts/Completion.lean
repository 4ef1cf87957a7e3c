import NestStarter.Accounts.Save
import NestStarter.Core.Machine

/-! # What a completed profile keeps

The seven calls of `UserService` that write to `users`, one at a time and with any body
the validators accept. A completed profile never loses its names; `updateMe` takes `null`
for the other fields, as the signal to clear them.
-/

namespace NestStarter.Accounts.Completion

open NestStarter.Core

abbrev UserM (α : Type) := Service UserTable α

def userNotFound : HttpException := ⟨.notFound, "user.errors.not_found", []⟩

def phoneTaken : HttpException := ⟨.conflict, "user.errors.phone_taken", []⟩

def profileAlreadyCompleted : HttpException :=
  ⟨.badRequest, "user.errors.profile_already_completed", []⟩

def cityNotFound : HttpException := ⟨.notFound, "city.errors.not_found", []⟩

def findByIdOrFail (id : Nat) : UserM UserEntity := do
  let user ← Service.statement fun t => (t.findById id, t)
  Service.ofExcept (orThrow userNotFound user)

/-- `cityService.assertExists`, of a city that is there or not. -/
def assertExists (cityExists : Bool) : UserM Unit :=
  Service.ofExcept (if cityExists then .ok () else .error cityNotFound)

def save (now : Instant) (n : NewUser) : UserM Unit :=
  Service.statement fun t => ((), t.insert n now)

def mergeAndSave (now : Instant) (user : UserEntity) (changes : UserChanges) : UserM Unit :=
  Service.statement fun t => ((), t.save (user.merge changes) now)

def findOneOrCreateByPhone (now : Instant) (phone : String) : UserM Unit := do
  let existing ← Service.statement fun t => (t.findByPhone phone, t)
  match existing with
  | some _ => return
  | none => save now { phone, isProfileCompleted := false }

/-- The upload returns `key`, or fails. -/
def uploadPhoto (now : Instant) (id : Nat) (key : Except HttpException String) : UserM Unit := do
  let current ← findByIdOrFail id
  let key ← Service.ofExcept key
  mergeAndSave now current { photoKey := some (some key) }

def setActive (now : Instant) (id : Nat) (isActive : Bool) : UserM Unit := do
  let user ← findByIdOrFail id
  mergeAndSave now user { isActive := some isActive }

def deactivateByAdmin (now : Instant) (id : Nat) : UserM Unit := setActive now id false

def activateByAdmin (now : Instant) (id : Nat) : UserM Unit := setActive now id true

variable (toDateString : Instant → String)

def updateMe (now : Instant) (cityExists : Bool) (id : Nat) (dto : UpdateUserMeDto) :
    UserM Unit := do
  if (dto.cityId.getD none).isSome then assertExists cityExists
  let current ← findByIdOrFail id
  mergeAndSave now current (dto.changes toDateString)

def completeProfile (now : Instant) (cityExists : Bool) (id : Nat) (dto : CompleteUserProfileDto) :
    UserM Unit := do
  let current ← findByIdOrFail id
  if current.isProfileCompleted then throw profileAlreadyCompleted
  assertExists cityExists
  mergeAndSave now current (dto.changes toDateString)

/-- `create({ ...dto, isProfileCompleted: true })`. -/
def CreateUserDto.toNewUser (dto : CreateUserDto) : NewUser where
  phone := dto.phone
  firstName := dto.firstName
  lastName := dto.lastName
  gender := dto.gender
  birthDate := toDateString dto.birthDate
  cityId := dto.cityId
  address := dto.address.getD none
  isProfileCompleted := true

def createByAdmin (now : Instant) (cityExists : Bool) (dto : CreateUserDto) : UserM Unit := do
  let existing ← Service.statement fun t => (t.findByPhone dto.phone, t)
  if existing.isSome then throw phoneTaken
  assertExists cityExists
  save now (CreateUserDto.toNewUser toDateString dto)

/-! ## Requests -/

inductive Op where
  | findOneOrCreateByPhone (phone : String)
  | createByAdmin (body : JsObject)
  | completeProfile (id : Nat) (body : JsObject)
  | updateMe (id : Nat) (body : JsObject)
  | uploadPhoto (id : Nat) (key : Except HttpException String)
  | deactivateByAdmin (id : Nat)
  | activateByAdmin (id : Nat)

/-- A call, with whether `assertExists` finds its city. -/
structure Request where
  now : Instant
  cityExists : Bool
  op : Op

def Request.call (req : Request) : Option (UserM Unit) :=
  match req.op with
  | .findOneOrCreateByPhone phone => some (findOneOrCreateByPhone req.now phone)
  | .createByAdmin body =>
      (CreateUserDto.validate req.now body).map (createByAdmin toDateString req.now req.cityExists)
  | .completeProfile id body =>
      (CompleteUserProfileDto.validate req.now body).map
        (completeProfile toDateString req.now req.cityExists id)
  | .updateMe id body =>
      (UpdateUserMeDto.validate req.now body).map (updateMe toDateString req.now req.cityExists id)
  | .uploadPhoto id key => some (uploadPhoto req.now id key)
  | .deactivateByAdmin id => some (deactivateByAdmin req.now id)
  | .activateByAdmin id => some (activateByAdmin req.now id)

/-- The table after a request, whether its call returned, threw or was never made. -/
def step (t : UserTable) (req : Request) : Option UserTable :=
  match req.call toDateString with
  | some m => some (Service.exec m t).2
  | none => some t

/-- An accepted `updateMe` of the user sends `null` for the property. -/
def Request.Clears (req : Request) (id : Nat) (property : String) : Prop :=
  ∃ body dto, req.op = .updateMe id body ∧ UpdateUserMeDto.validate req.now body = some dto ∧
    body.get property = .null

/-- A new row is complete when it says so. -/
structure NewOk (n : NewUser) : Prop where
  firstName : n.isProfileCompleted = true → n.firstName ≠ none
  lastName : n.isProfileCompleted = true → n.lastName ≠ none
  gender : n.isProfileCompleted = true → n.gender ≠ none
  birthDate : n.isProfileCompleted = true → n.birthDate ≠ none
  cityId : n.isProfileCompleted = true → n.cityId ≠ none

/-- Changes empty a field only when the request clears it, and complete the profile only
with all its fields. -/
structure ChangesOk (Cleared : String → Prop) (changes : UserChanges) : Prop where
  firstName : changes.firstName ≠ some none
  lastName : changes.lastName ≠ some none
  gender : changes.gender = some none → Cleared "gender"
  birthDate : changes.birthDate = some none → Cleared "birthDate"
  cityId : changes.cityId = some none → Cleared "cityId"
  completes : changes.isProfileCompleted = some true →
    changes.firstName.isSome ∧ changes.lastName.isSome ∧ changes.gender.isSome ∧
      changes.birthDate.isSome ∧ changes.cityId.isSome

theorem isOptional_eq_some_none {α : Type} {check : JsValue → Option α} {v : JsValue}
    (h : isOptional check v = some (some none)) : v = .null := by
  cases v with
  | null => rfl
  | undefined => cases h
  | _ =>
      obtain ⟨a, -, ha⟩ := Option.map_eq_some_iff.1 h
      cases ha

variable {toDateString : Instant → String}

theorem changesOk_updateMe {req : Request} {id : Nat} {body : JsObject} {dto : UpdateUserMeDto}
    (hop : req.op = .updateMe id body) (h : UpdateUserMeDto.validate req.now body = some dto) :
    ChangesOk (req.Clears id) (dto.changes toDateString) := by
  have hclears : ∀ property, body.get property = .null → req.Clears id property :=
    fun property hnull => ⟨body, dto, hop, h, hnull⟩
  obtain ⟨-, -, h⟩ := Option.bind_eq_some_iff.1 h
  simp only [Option.bind_eq_bind, Option.bind_eq_some_iff] at h
  obtain ⟨firstName, -, lastName, -, gender, hgender, birthDate, hbirthDate, cityId, hcityId,
    address, -, hdto⟩ := h
  cases hdto
  refine ⟨?_, ?_, fun h => ?_, fun h => ?_, fun h => ?_, fun h => ?_⟩
  · cases firstName <;> simp [UpdateUserMeDto.changes]
  · cases lastName <;> simp [UpdateUserMeDto.changes]
  · obtain rfl : gender = some none := h
    exact hclears _ (isOptional_eq_some_none hgender)
  · obtain rfl : birthDate = some none := by
      simpa [UpdateUserMeDto.changes, Option.map_eq_some_iff] using h
    exact hclears _ (isOptional_eq_some_none hbirthDate)
  · obtain rfl : cityId = some none := h
    exact hclears _ (isOptional_eq_some_none hcityId)
  · cases h

variable (toDateString) in
theorem changesOk_completeProfile (Cleared : String → Prop) (dto : CompleteUserProfileDto) :
    ChangesOk Cleared (dto.changes toDateString) := by
  constructor <;> simp [CompleteUserProfileDto.changes]

/-! ## What a request does to the table -/

/-- A call that loads the user first: the table stays, or is what the rest leaves. -/
theorem exec_findByIdOrFail {t : UserTable} (id : Nat) (f : UserEntity → UserM Unit) :
    (Service.exec (findByIdOrFail id >>= f) t).2 = t ∨
      ∃ current ∈ t.rows, current.id = id ∧
        (Service.exec (findByIdOrFail id >>= f) t).2 = (Service.exec (f current) t).2 := by
  cases hfind : t.findById id with
  | none => exact Or.inl (by simp [findByIdOrFail, hfind])
  | some current =>
      have hid : current.id = id := by simpa using List.find?_some hfind
      exact Or.inr ⟨current, List.mem_of_find?_eq_some hfind, hid, by simp [findByIdOrFail, hfind]⟩

/-- A call as the invariant sees it: it leaves the table, inserts a row, or saves a user. -/
def Writes (req : Request) (t t' : UserTable) : Prop :=
  t' = t ∨ (∃ n, NewOk n ∧ t' = t.insert n req.now) ∨
    ∃ current ∈ t.rows, ∃ changes, ChangesOk (req.Clears current.id) changes ∧
      t' = t.save (current.merge changes) req.now

variable {t t' : UserTable} {req : Request}

/-- A call that loads the user and then saves these changes, or throws in between. -/
theorem Writes.of_load {id : Nat} {f : UserEntity → UserM Unit} {changes : UserChanges}
    (hf : ∀ current, (Service.exec (f current) t).2 = t ∨
      (Service.exec (f current) t).2 = (Service.exec (mergeAndSave req.now current changes) t).2)
    (hchanges : ChangesOk (req.Clears id) changes) :
    Writes req t (Service.exec (findByIdOrFail id >>= f) t).2 := by
  rcases exec_findByIdOrFail id f with hsame | ⟨current, hcurrent, rfl, hexec⟩
  · exact Or.inl hsame
  · rw [hexec]
    rcases hf current with hsame | hsave
    · exact Or.inl hsame
    · exact Or.inr (Or.inr ⟨current, hcurrent, changes, hchanges, hsave⟩)

theorem writes_setActive (id : Nat) (isActive : Bool) :
    Writes req t (Service.exec (setActive req.now id isActive) t).2 :=
  Writes.of_load (fun _ => Or.inr rfl)
    ⟨nofun, nofun, nofun, nofun, nofun, nofun⟩

theorem writes_uploadPhoto (id : Nat) (key : Except HttpException String) :
    Writes req t (Service.exec (uploadPhoto req.now id key) t).2 := by
  cases key with
  | error e =>
      refine Writes.of_load (fun _ => Or.inl (by simp)) (?_ : ChangesOk _ {})
      exact ⟨nofun, nofun, nofun, nofun, nofun, nofun⟩
  | ok key =>
      refine Writes.of_load (fun _ => Or.inr (by simp))
        (?_ : ChangesOk _ { photoKey := some (some key) })
      exact ⟨nofun, nofun, nofun, nofun, nofun, nofun⟩

theorem writes_updateMe {id : Nat} {body : JsObject} {dto : UpdateUserMeDto}
    (hop : req.op = .updateMe id body) (h : UpdateUserMeDto.validate req.now body = some dto) :
    Writes req t (Service.exec (updateMe toDateString req.now req.cityExists id dto) t).2 := by
  have hload : Writes req t (Service.exec (findByIdOrFail id >>= fun current =>
      mergeAndSave req.now current (dto.changes toDateString)) t).2 :=
    Writes.of_load (fun _ => Or.inr rfl) (changesOk_updateMe hop h)
  by_cases hcity : (dto.cityId.getD none).isSome = true
  · cases hexists : req.cityExists with
    | false => exact Or.inl (by simp [updateMe, assertExists, hcity])
    | true => simpa [updateMe, assertExists, hcity] using hload
  · simpa [updateMe, hcity] using hload

theorem writes_completeProfile (id : Nat) (dto : CompleteUserProfileDto) :
    Writes req t
      (Service.exec (completeProfile toDateString req.now req.cityExists id dto) t).2 := by
  refine Writes.of_load (fun current => ?_) (changesOk_completeProfile toDateString _ dto)
  by_cases hdone : current.isProfileCompleted = true
  · exact Or.inl (by simp [hdone])
  · cases hexists : req.cityExists with
    | false => exact Or.inl (by simp [assertExists, hdone])
    | true => exact Or.inr (by simp [assertExists, hdone])

theorem writes_createByAdmin (dto : CreateUserDto) :
    Writes req t (Service.exec (createByAdmin toDateString req.now req.cityExists dto) t).2 := by
  cases hfind : t.findByPhone dto.phone with
  | some user => exact Or.inl (by simp [createByAdmin, hfind])
  | none =>
      cases hexists : req.cityExists with
      | false => exact Or.inl (by simp [createByAdmin, assertExists, hfind])
      | true =>
          refine Or.inr (Or.inl ⟨CreateUserDto.toNewUser toDateString dto, ?_, ?_⟩)
          · constructor <;> exact fun _ => nofun
          · simp [createByAdmin, assertExists, save, hfind]

theorem writes_findOneOrCreateByPhone (phone : String) :
    Writes req t (Service.exec (findOneOrCreateByPhone req.now phone) t).2 := by
  cases hfind : t.findByPhone phone with
  | some user => exact Or.inl (by simp [findOneOrCreateByPhone, hfind])
  | none =>
      refine Or.inr (Or.inl ⟨{ phone, isProfileCompleted := false }, ?_, ?_⟩)
      · constructor <;> exact fun h => nomatch h
      · simp [findOneOrCreateByPhone, save, hfind]

theorem step_writes (h : step toDateString t req = some t') : Writes req t t' := by
  cases hop : req.op with
  | findOneOrCreateByPhone phone =>
      simp only [step, Request.call, hop, Option.some.injEq] at h
      exact h ▸ writes_findOneOrCreateByPhone phone
  | createByAdmin body =>
      cases hvalid : CreateUserDto.validate req.now body with
      | none => exact Or.inl (by simpa [step, Request.call, hop, hvalid] using h.symm)
      | some dto =>
          simp only [step, Request.call, hop, hvalid, Option.map_some, Option.some.injEq] at h
          exact h ▸ writes_createByAdmin dto
  | completeProfile id body =>
      cases hvalid : CompleteUserProfileDto.validate req.now body with
      | none => exact Or.inl (by simpa [step, Request.call, hop, hvalid] using h.symm)
      | some dto =>
          simp only [step, Request.call, hop, hvalid, Option.map_some, Option.some.injEq] at h
          exact h ▸ writes_completeProfile id dto
  | updateMe id body =>
      cases hvalid : UpdateUserMeDto.validate req.now body with
      | none => exact Or.inl (by simpa [step, Request.call, hop, hvalid] using h.symm)
      | some dto =>
          simp only [step, Request.call, hop, hvalid, Option.map_some, Option.some.injEq] at h
          exact h ▸ writes_updateMe hop hvalid
  | uploadPhoto id key =>
      simp only [step, Request.call, hop, Option.some.injEq] at h
      exact h ▸ writes_uploadPhoto id key
  | deactivateByAdmin id =>
      simp only [step, Request.call, hop, Option.some.injEq] at h
      exact h ▸ writes_setActive id false
  | activateByAdmin id =>
      simp only [step, Request.call, hop, Option.some.injEq] at h
      exact h ▸ writes_setActive id true

/-- A completed row has both names, and what else is missing has been cleared. -/
structure RowOk (Cleared : Nat → String → Prop) (u : UserEntity) : Prop where
  firstName : u.isProfileCompleted = true → u.firstName ≠ none
  lastName : u.isProfileCompleted = true → u.lastName ≠ none
  gender : u.isProfileCompleted = true → u.gender = none → Cleared u.id "gender"
  birthDate : u.isProfileCompleted = true → u.birthDate = none → Cleared u.id "birthDate"
  cityId : u.isProfileCompleted = true → u.cityId = none → Cleared u.id "cityId"

variable {Cleared Cleared' : Nat → String → Prop} {u : UserEntity}

theorem RowOk.mono (h : RowOk Cleared u)
    (himp : ∀ property, Cleared u.id property → Cleared' u.id property) : RowOk Cleared' u :=
  ⟨h.firstName, h.lastName, fun hc hn => himp _ (h.gender hc hn),
    fun hc hn => himp _ (h.birthDate hc hn), fun hc hn => himp _ (h.cityId hc hn)⟩

theorem NewOk.rowOk {n : NewUser} (h : NewOk n) (id : Nat) (now : Instant) :
    RowOk Cleared (n.row id now) :=
  ⟨h.firstName, h.lastName, fun hc hn => absurd hn (h.gender hc),
    fun hc hn => absurd hn (h.birthDate hc), fun hc hn => absurd hn (h.cityId hc)⟩

theorem getD_eq_none {α : Type} {change : Option (Option α)} {v : Option α}
    (h : change.getD v = none) : change = some none ∨ change = none ∧ v = none := by
  cases change with
  | none => exact Or.inr ⟨rfl, h⟩
  | some x => exact Or.inl (congrArg some h)

theorem completed_merge {changes : UserChanges} (h : (u.merge changes).isProfileCompleted = true) :
    changes.isProfileCompleted = some true ∨ u.isProfileCompleted = true := by
  cases hchange : changes.isProfileCompleted with
  | none => exact Or.inr (by simpa [UserEntity.merge, hchange] using h)
  | some b => exact Or.inl (by simpa [UserEntity.merge, hchange] using h)

/-- A field that the changes leave out was already completed. -/
theorem completed_of_unset {changes : UserChanges} {α : Type} {change : Option (Option α)}
    (hcompleted : (u.merge changes).isProfileCompleted = true)
    (hset : changes.isProfileCompleted = some true → change.isSome = true)
    (hunset : change = none) : u.isProfileCompleted = true := by
  refine (completed_merge hcompleted).resolve_left fun hcompletes => ?_
  rw [hunset] at hset
  cases hset hcompletes

theorem RowOk.merge {changes : UserChanges} {C : String → Prop} (h : RowOk Cleared u)
    (hch : ChangesOk C changes) (hold : ∀ property, Cleared u.id property → Cleared' u.id property)
    (hnew : ∀ property, C property → Cleared' u.id property) :
    RowOk Cleared' (u.merge changes) where
  firstName hc hn := by
    rcases getD_eq_none hn with hnull | ⟨hunset, hrow⟩
    · exact hch.firstName hnull
    · exact h.firstName (completed_of_unset hc (fun hs => (hch.completes hs).1) hunset) hrow
  lastName hc hn := by
    rcases getD_eq_none hn with hnull | ⟨hunset, hrow⟩
    · exact hch.lastName hnull
    · exact h.lastName (completed_of_unset hc (fun hs => (hch.completes hs).2.1) hunset) hrow
  gender hc hn := by
    rcases getD_eq_none hn with hnull | ⟨hunset, hrow⟩
    · exact hnew _ (hch.gender hnull)
    · have hcompleted := completed_of_unset hc (fun hs => (hch.completes hs).2.2.1) hunset
      exact hold _ (h.gender hcompleted hrow)
  birthDate hc hn := by
    rcases getD_eq_none hn with hnull | ⟨hunset, hrow⟩
    · exact hnew _ (hch.birthDate hnull)
    · exact hold _
        (h.birthDate (completed_of_unset hc (fun hs => (hch.completes hs).2.2.2.1) hunset) hrow)
  cityId hc hn := by
    rcases getD_eq_none hn with hnull | ⟨hunset, hrow⟩
    · exact hnew _ (hch.cityId hnull)
    · exact hold _
        (h.cityId (completed_of_unset hc (fun hs => (hch.completes hs).2.2.2.2) hunset) hrow)

theorem RowOk.saveUser {row user : UserEntity} (h : RowOk Cleared user) (now : Instant) :
    RowOk Cleared (saveUser row user now) := by
  unfold Accounts.saveUser
  split
  · exact ‹user = row› ▸ h
  · exact ⟨h.firstName, h.lastName, h.gender, h.birthDate, h.cityId⟩

theorem rowOk_step (hrows : ∀ u ∈ t.rows, RowOk Cleared u)
    (hstep : step toDateString t req = some t')
    (hold : ∀ id property, Cleared id property → Cleared' id property)
    (hnew : ∀ id property, req.Clears id property → Cleared' id property) :
    ∀ u ∈ t'.rows, RowOk Cleared' u := by
  have hkeep : ∀ u ∈ t.rows, RowOk Cleared' u := fun u hu => (hrows u hu).mono (hold u.id)
  rcases step_writes hstep with rfl | ⟨n, hn, rfl⟩ | ⟨current, hcurrent, changes, hch, rfl⟩
  · exact hkeep
  · intro u hu
    rcases List.mem_append.1 hu with hu | hu
    · exact hkeep u hu
    · rw [List.mem_singleton.1 hu]
      exact hn.rowOk t.nextId req.now
  · intro u hu
    obtain ⟨row, hrow, rfl⟩ := List.mem_map.1 hu
    split
    · exact ((hrows current hcurrent).merge hch (hold _) (hnew _)).saveUser req.now
    · exact hkeep row hrow

theorem rowOk_run {reqs : List Request} (hrows : ∀ u ∈ t.rows, RowOk Cleared u)
    (hrun : run (step toDateString) t reqs = some t') :
    ∀ u ∈ t'.rows, RowOk
      (fun id property => Cleared id property ∨ ∃ req ∈ reqs, req.Clears id property) u := by
  induction reqs generalizing t Cleared with
  | nil =>
      cases hrun
      exact fun u hu => (hrows u hu).mono fun _ hc => Or.inl hc
  | cons req reqs ih =>
      obtain ⟨t₁, hstep, hrest⟩ := run_cons_eq_some.1 hrun
      have hrows₁ : ∀ u ∈ t₁.rows, RowOk
          (fun id property => Cleared id property ∨ req.Clears id property) u :=
        rowOk_step hrows hstep (fun _ _ => Or.inl) fun _ _ => Or.inr
      refine fun u hu => (ih hrows₁ hrest u hu).mono fun property hc => ?_
      rcases hc with (hc | hc) | ⟨r, hr, hc⟩
      · exact Or.inl hc
      · exact Or.inr ⟨req, List.mem_cons_self, hc⟩
      · exact Or.inr ⟨r, List.mem_cons_of_mem _ hr, hc⟩

/-- In every table that requests lead to, a completed profile has both names, and the gender,
birth date and city that no accepted `updateMe` of the user has cleared. -/
theorem completed_of_run (toDateString : Instant → String) (reqs : List Request) (t : UserTable)
    (hrun : run (step toDateString) {} reqs = some t) (u : UserEntity) (hu : u ∈ t.rows)
    (hcompleted : u.isProfileCompleted = true) :
    u.firstName ≠ none ∧ u.lastName ≠ none ∧
      (u.gender = none → ∃ req ∈ reqs, req.Clears u.id "gender") ∧
      (u.birthDate = none → ∃ req ∈ reqs, req.Clears u.id "birthDate") ∧
      (u.cityId = none → ∃ req ∈ reqs, req.Clears u.id "cityId") := by
  have hempty : ∀ u ∈ ({} : UserTable).rows, RowOk (fun _ _ => False) u :=
    fun u hu => absurd hu List.not_mem_nil
  have hrow := rowOk_run hempty hrun u hu
  exact ⟨hrow.firstName hcompleted, hrow.lastName hcompleted,
    fun hn => (hrow.gender hcompleted hn).resolve_left id,
    fun hn => (hrow.birthDate hcompleted hn).resolve_left id,
    fun hn => (hrow.cityId hcompleted hn).resolve_left id⟩

def completeBody : JsObject where
  own := [("phone", .string "+963944123456"), ("firstName", .string "Sara"),
    ("lastName", .string "Haddad"), ("gender", .string "female"), ("birthDate", .date 0),
    ("cityId", .number 1)]

/-- A user is created by an admin, and clears the city. -/
def createdThenCleared : List Request :=
  [⟨10, true, .createByAdmin completeBody⟩, ⟨20, true, .updateMe 1 ⟨[("cityId", .null)], []⟩⟩]

theorem completed_createdThenCleared :
    ∃ t, run (step fun _ => "1970-01-01") {} createdThenCleared = some t ∧
      ∃ u ∈ t.rows, u.isProfileCompleted = true ∧ u.firstName ≠ none ∧
        ∃ req ∈ createdThenCleared, req.Clears u.id "cityId" := by
  have hrun : (run (step fun _ => "1970-01-01") {} createdThenCleared).any (fun t =>
      decide (∃ u ∈ t.rows, u.isProfileCompleted = true ∧ u.cityId = none)) = true := by
    decide +kernel
  simp only [Option.any_eq_true, decide_eq_true_eq] at hrun
  obtain ⟨t, ht, u, hu, hcompleted, hcity⟩ := hrun
  obtain ⟨hfirst, -, -, -, hclears⟩ :=
    completed_of_run (fun _ => "1970-01-01") _ t ht u hu hcompleted
  exact ⟨t, ht, u, hu, hcompleted, hfirst, hclears hcity⟩

/-- The profile is complete and has no city. -/
theorem incomplete_createdThenCleared :
    ∃ t, run (step fun _ => "1970-01-01") {} createdThenCleared = some t ∧
      ∃ u ∈ t.rows, u.isProfileCompleted = true ∧ u.cityId = none := by
  have hrun : (run (step fun _ => "1970-01-01") {} createdThenCleared).any (fun t =>
      decide (∃ u ∈ t.rows, u.isProfileCompleted = true ∧ u.cityId = none)) = true := by
    decide +kernel
  simpa only [Option.any_eq_true, decide_eq_true_eq] using hrun

end NestStarter.Accounts.Completion
