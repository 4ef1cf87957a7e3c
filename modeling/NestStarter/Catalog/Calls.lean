import NestStarter.Accounts.Completion
import NestStarter.Catalog.Tables

/-! # Calls on the catalogue

`CityService` and `AreaService`, and what `UserService` writes into `users.city_id`. A call looks
for what would stand in its way, one statement at a time, and then writes.
-/

namespace NestStarter.Catalog

open NestStarter.Core
open NestStarter.Areas (AreaEntity UpdateAreaDto cityNotFound areaNotFound)
open NestStarter.Accounts.Provisioning (Failure)
open NestStarter.Accounts.Completion (userNotFound phoneTaken profileAlreadyCompleted)

def CityService.nameEnTaken : HttpException := ⟨.conflict, "city.errors.name_en_taken", []⟩

def CityService.nameArTaken : HttpException := ⟨.conflict, "city.errors.name_ar_taken", []⟩

def CityService.cannotDeleteInUse : HttpException :=
  ⟨.conflict, "city.errors.cannot_delete_in_use", []⟩

def AreaService.cannotDeleteInUse : HttpException :=
  ⟨.conflict, "area.errors.cannot_delete_in_use", []⟩

structure CreateCityDto where
  nameEn : String
  nameAr : String
  deriving DecidableEq, Repr

/-- `none` is a field left out, `some none` is `null`, which `@IsOptional` lets through. -/
structure UpdateCityDto where
  nameEn : Option (Option String) := none
  nameAr : Option (Option String) := none
  deriving DecidableEq, Repr

structure CreateAreaDto where
  cityId : Nat
  nameEn : String
  nameAr : String
  deriving DecidableEq, Repr

/-! ## Cities -/

/-- A city in memory, where a name may be `null`. -/
structure CityRecord where
  id : Nat
  nameEn : Option String
  nameAr : Option String
  deriving DecidableEq, Repr

def CityEntity.record (c : CityEntity) : CityRecord := ⟨c.id, some c.nameEn, some c.nameAr⟩

def CityRecord.row (c : CityRecord) : Option CityEntity :=
  c.nameEn.bind fun en => c.nameAr.map fun ar => ⟨c.id, en, ar⟩

def textParams (names : List (Option String)) : List Param := names.filterMap fun n => n.map .text

/-- What a column of names stores; `none` inside is `NULL`. -/
def nameColumn : Option String → Option (Option String)
  | none => some none
  | some name => (varchar 128 name).map some

theorem nameColumn_of_short {name : Option String} (h : ∀ s ∈ name, s.length ≤ 128) :
    nameColumn name = some name := by
  cases name with
  | none => rfl
  | some s => simp [nameColumn, varchar_of_short (h s rfl)]

namespace CityRepository

def findById (id : Nat) : CatalogM (Option CityEntity) :=
  select [.int id] fun r => r.cities.find? fun c => c.id = id

def existsById (id : Nat) : CatalogM Bool := select [.int id] fun r => decide (r.HasCity id)

/-- `findOne({ where: { name } })`. A `null` is no condition, so that any row is found. -/
def findByName (anyRow : List CityEntity → Option CityEntity) (column : CityEntity → String) :
    Option String → CatalogM (Option CityEntity)
  | some name => select [.text name] fun r => r.cities.find? fun c => column c = name
  | none => select [] fun r => anyRow r.cities

def insert (id : Option Nat) (nameEn nameAr : Option String) : CatalogM CityRecord :=
  execute (textParams [nameEn, nameAr]) fun t =>
    match nameColumn nameEn, nameColumn nameAr with
    | some storedEn, some storedAr =>
        let drawn := t.drawCity id
        match CityRecord.row ⟨drawn.1, storedEn, storedAr⟩ with
        | none => (.error notNullViolation, drawn.2)
        | some row =>
            let written := drawn.2.write { t.rows with cities := t.rows.cities ++ [row] }
            (written.1.map fun _ => ⟨drawn.1, nameEn, nameAr⟩, written.2)
    | _, _ => (.error tooLong, t)

def update (id : Nat) (nameEn nameAr : Option (Option String)) : CatalogM Unit :=
  execute (textParams [nameEn.join, nameAr.join] ++ [.int id]) fun t =>
    match nameColumn nameEn.join, nameColumn nameAr.join with
    | some storedEn, some storedAr =>
        match t.rows.cities.find? fun c => c.id = id with
        | none => (.ok (), t)
        | some found =>
            let record : CityRecord :=
              ⟨id, if nameEn.isSome then storedEn else some found.nameEn,
                if nameAr.isSome then storedAr else some found.nameAr⟩
            match record.row with
            | none => (.error notNullViolation, t)
            | some row =>
                t.write { t.rows with
                  cities := t.rows.cities.map fun c => if c.id = id then row else c }
    | _, _ => (.error tooLong, t)

/-- `save` of an entity with an id: the row is read again, and inserted when it is gone. -/
def save (city : CityRecord) : CatalogM CityRecord := do
  match ← findById city.id with
  | none => insert (some city.id) city.nameEn city.nameAr
  | some row => do
      let changed (old : String) (new : Option String) : Option (Option String) :=
        if new = some old then none else some new
      if row.record = city then return city
      update city.id (changed row.nameEn city.nameEn) (changed row.nameAr city.nameAr)
      return city

/-- `DELETE`. The areas of the city go with it; a user in it stops it with the SQLSTATE that the
server has for `RESTRICT`. -/
def deleteById (restrictCode : String) (id : Nat) : CatalogM Unit :=
  execute [.int id] fun t =>
    if ∃ u ∈ t.rows.users, u.cityId = some id then (.error (.queryFailed restrictCode), t)
    else
      t.write { t.rows with
        cities := t.rows.cities.filter fun c => c.id ≠ id
        areas := t.rows.areas.filter fun a => a.cityId ≠ id }

end CityRepository

namespace CityService

variable (anyRow : List CityEntity → Option CityEntity)

def findByIdOrFail (id : Nat) : CatalogM CityEntity := do
  match ← CityRepository.findById id with
  | some city => return city
  | none => throw (.http cityNotFound)

def assertExists (cityId : Nat) : CatalogM Unit := do
  if ← CityRepository.existsById cityId then return () else throw (.http cityNotFound)

def createForAdmin (dto : CreateCityDto) : CatalogM CityRecord := do
  let existingByNameEn ← CityRepository.findByName anyRow (·.nameEn) (some dto.nameEn)
  if existingByNameEn.isSome then throw (.http nameEnTaken)
  let existingByNameAr ← CityRepository.findByName anyRow (·.nameAr) (some dto.nameAr)
  if existingByNameAr.isSome then throw (.http nameArTaken)
  CityRepository.insert none (some dto.nameEn) (some dto.nameAr)

def checkName (column : CityEntity → String) (taken : HttpException) (id : Nat)
    (current : String) : Option (Option String) → CatalogM Unit
  | none => return ()
  | some name =>
      if name ≠ some current then do
        let existing ← CityRepository.findByName anyRow column name
        if existing.any fun other => other.id ≠ id then throw (.http taken) else return ()
      else return ()

def updateForAdmin (id : Nat) (dto : UpdateCityDto) : CatalogM CityRecord := do
  let city ← findByIdOrFail id
  checkName anyRow (·.nameEn) nameEnTaken id city.nameEn dto.nameEn
  checkName anyRow (·.nameAr) nameArTaken id city.nameAr dto.nameAr
  CityRepository.save
    ⟨city.id, dto.nameEn.getD (some city.nameEn), dto.nameAr.getD (some city.nameAr)⟩

/-- What `deleteForAdmin` makes of an error of the delete. -/
def translateDelete : Failure → Failure
  | .queryFailed code =>
      if code = "23503" ∨ code = "ER_ROW_IS_REFERENCED" then .http cannotDeleteInUse
      else .queryFailed code
  | e => e

def deleteForAdmin (restrictCode : String) (id : Nat) : CatalogM Unit := do
  let city ← findByIdOrFail id
  tryCatch (CityRepository.deleteById restrictCode city.id) fun e => throw (translateDelete e)

end CityService

/-! ## Areas -/

namespace AreaRepository

def findById (id : Nat) : CatalogM (Option AreaEntity) :=
  select [.int id] fun r => r.areas.find? fun a => a.id = id

/-- `findByCityAndNameEn` and `findByCityAndNameAr`. -/
def findByKey (key : AreaEntity → Nat × String) (cityId : Nat) (name : String) :
    CatalogM (Option AreaEntity) :=
  select [.int cityId, .text name] fun r => r.areas.find? fun a => key a = (cityId, name)

def insert (id : Option Nat) (cityId : Nat) (nameEn nameAr : String) : CatalogM AreaEntity :=
  execute [.int cityId, .text nameEn, .text nameAr] fun t =>
    match varchar 128 nameEn, varchar 128 nameAr with
    | some storedEn, some storedAr =>
        let drawn := t.drawArea id
        let row : AreaEntity := ⟨drawn.1, cityId, storedEn, storedAr⟩
        let written := drawn.2.write { t.rows with areas := t.rows.areas ++ [row] }
        (written.1.map fun _ => ⟨drawn.1, cityId, nameEn, nameAr⟩, written.2)
    | _, _ => (.error tooLong, t)

def changeParams (changes : UpdateAreaDto) : List Param :=
  changes.cityId.toList.map .int ++ changes.nameEn.toList.map .text ++
    changes.nameAr.toList.map .text

def storedChanges (changes : UpdateAreaDto) : Option UpdateAreaDto := do
  let nameEn ← nameColumn changes.nameEn
  let nameAr ← nameColumn changes.nameAr
  return { changes with nameEn, nameAr }

def update (id : Nat) (changes : UpdateAreaDto) : CatalogM Unit :=
  execute (changeParams changes ++ [.int id]) fun t =>
    match storedChanges changes with
    | none => (.error tooLong, t)
    | some stored =>
        t.write { t.rows with
          areas := t.rows.areas.map fun a => if a.id = id then a.merge stored else a }

def changedColumns (row area : AreaEntity) : UpdateAreaDto :=
  { cityId := if area.cityId = row.cityId then none else some area.cityId
    nameEn := if area.nameEn = row.nameEn then none else some area.nameEn
    nameAr := if area.nameAr = row.nameAr then none else some area.nameAr }

def save (area : AreaEntity) : CatalogM AreaEntity := do
  match ← findById area.id with
  | none => insert (some area.id) area.cityId area.nameEn area.nameAr
  | some row => do
      if row = area then return area
      update area.id (changedColumns row area)
      return area

def deleteById (id : Nat) : CatalogM Unit :=
  execute [.int id] fun t =>
    t.write { t.rows with areas := t.rows.areas.filter fun a => a.id ≠ id }

end AreaRepository

namespace AreaService

def findByIdOrFail (id : Nat) : CatalogM AreaEntity := do
  match ← AreaRepository.findById id with
  | some area => return area
  | none => throw (.http areaNotFound)

def createForAdmin (dto : CreateAreaDto) : CatalogM AreaEntity := do
  CityService.assertExists dto.cityId
  let existingByNameEn ← AreaRepository.findByKey AreaEntity.keyEn dto.cityId dto.nameEn
  if existingByNameEn.isSome then throw (.http Areas.nameEnTaken)
  let existingByNameAr ← AreaRepository.findByKey AreaEntity.keyAr dto.cityId dto.nameAr
  if existingByNameAr.isSome then throw (.http Areas.nameArTaken)
  AreaRepository.insert none dto.cityId dto.nameEn dto.nameAr

/-- One of the two blocks of `updateForAdmin` that look for a name in the city. -/
def checkName (key : AreaEntity → Nat × String) (taken : HttpException) (id cityId : Nat)
    (current : String) : Option String → CatalogM Unit
  | none => return ()
  | some name =>
      if name ≠ current then do
        let existing ← AreaRepository.findByKey key cityId name
        if existing.any fun other => other.id ≠ id then throw (.http taken) else return ()
      else return ()

def checkCity : Option Nat → CatalogM Unit
  | some cityId => CityService.assertExists cityId
  | none => return ()

def updateForAdmin (id : Nat) (dto : UpdateAreaDto) : CatalogM AreaEntity := do
  let area ← findByIdOrFail id
  let effectiveCityId := dto.cityId.getD area.cityId
  checkCity dto.cityId
  checkName AreaEntity.keyEn Areas.nameEnTaken id effectiveCityId area.nameEn dto.nameEn
  checkName AreaEntity.keyAr Areas.nameArTaken id effectiveCityId area.nameAr dto.nameAr
  AreaRepository.save (area.merge dto)

def translateDelete : Failure → Failure
  | .queryFailed code =>
      if code = "23503" then .http cannotDeleteInUse else .queryFailed code
  | e => e

def deleteForAdmin (id : Nat) : CatalogM Unit := do
  let area ← findByIdOrFail id
  tryCatch (AreaRepository.deleteById area.id) fun e => throw (translateDelete e)

end AreaService

/-! ## Users -/

namespace UserRepository

def findById (id : Nat) : CatalogM (Option UserRow) :=
  select [.int id] fun r => r.users.find? fun u => u.id = id

def findByPhone (phone : String) : CatalogM (Option UserRow) :=
  select [.text phone] fun r => r.users.find? fun u => u.phone = phone

def insert (id : Option Nat) (user : UserRow) : CatalogM UserRow :=
  execute (.text user.phone :: user.cityId.toList.map .int) fun t =>
    let drawn := t.drawUser id
    let row : UserRow := { user with id := drawn.1 }
    let written := drawn.2.write { t.rows with users := t.rows.users ++ [row] }
    (written.1.map fun _ => row, written.2)

def update (row user : UserRow) : CatalogM Unit :=
  execute ([.text user.phone, .int user.id] ++ user.cityId.toList.map .int) fun t =>
    t.write { t.rows with
      users := t.rows.users.map fun u =>
        if u.id = user.id then
          { u with
            phone := if user.phone = row.phone then u.phone else user.phone
            cityId := if user.cityId = row.cityId then u.cityId else user.cityId
            isProfileCompleted :=
              if user.isProfileCompleted = row.isProfileCompleted then u.isProfileCompleted
              else user.isProfileCompleted }
        else u }

def save (user : UserRow) : CatalogM UserRow := do
  match ← findById user.id with
  | none => insert (some user.id) user
  | some row => do
      if row = user then return user
      update row user
      return user

end UserRepository

namespace UserService

def findByIdOrFail (id : Nat) : CatalogM UserRow := do
  match ← UserRepository.findById id with
  | some user => return user
  | none => throw (.http userNotFound)

/-- `updateMe`, for the city; `some none` is `null`. -/
def updateMe (id : Nat) (cityId : Option (Option Nat)) : CatalogM UserRow := do
  match cityId with
  | some (some cityId) => CityService.assertExists cityId
  | _ => pure ()
  let current ← findByIdOrFail id
  UserRepository.save { current with cityId := cityId.getD current.cityId }

def completeProfile (id cityId : Nat) : CatalogM UserRow := do
  let current ← findByIdOrFail id
  if current.isProfileCompleted then throw (.http profileAlreadyCompleted)
  CityService.assertExists cityId
  UserRepository.save { current with cityId := some cityId, isProfileCompleted := true }

def createByAdmin (phone : String) (cityId : Nat) : CatalogM UserRow := do
  let existing ← UserRepository.findByPhone phone
  if existing.isSome then throw (.http phoneTaken)
  CityService.assertExists cityId
  UserRepository.insert none ⟨0, phone, some cityId, true⟩

end UserService

/-! ## Any call -/

inductive Op where
  | createCity (dto : CreateCityDto)
  | updateCity (id : Nat) (dto : UpdateCityDto)
  | deleteCity (id : Nat)
  | createArea (dto : CreateAreaDto)
  | updateArea (id : Nat) (dto : UpdateAreaDto)
  | deleteArea (id : Nat)
  | updateMe (user : Nat) (cityId : Option (Option Nat))
  | completeProfile (user cityId : Nat)
  | createUser (phone : String) (cityId : Nat)
  deriving DecidableEq

inductive Answer where
  | city (c : CityRecord)
  | area (a : AreaEntity)
  | user (u : UserRow)
  | noContent
  deriving DecidableEq, Repr

def Op.call (anyRow : List CityEntity → Option CityEntity) (restrictCode : String) :
    Op → CatalogM Answer
  | .createCity dto => do return .city (← CityService.createForAdmin anyRow dto)
  | .updateCity id dto => do return .city (← CityService.updateForAdmin anyRow id dto)
  | .deleteCity id => do
      CityService.deleteForAdmin restrictCode id
      return .noContent
  | .createArea dto => do return .area (← AreaService.createForAdmin dto)
  | .updateArea id dto => do return .area (← AreaService.updateForAdmin id dto)
  | .deleteArea id => do
      AreaService.deleteForAdmin id
      return .noContent
  | .updateMe user cityId => do return .user (← UserService.updateMe user cityId)
  | .completeProfile user cityId => do return .user (← UserService.completeProfile user cityId)
  | .createUser phone cityId => do return .user (← UserService.createByAdmin phone cityId)

end NestStarter.Catalog
