import NestStarter.Accounts.Passwords
import NestStarter.Catalog.Alone
import NestStarter.Core.Procedure
import NestStarter.Seeds.Rows

/-! # The seed script

Outside production the script truncates `users`, `admins` and `areas` and then runs the pipeline;
in production it runs the pipeline alone, on whatever is there. Each query commits by itself, so
that a run that fails leaves what the queries before it wrote.
-/

namespace NestStarter.Seeds

open NestStarter.Core
open NestStarter.Accounts (NewUser UserEntity AdminEntity)
open NestStarter.Accounts.Provisioning (Failure uniqueViolation)
open NestStarter.Areas (AreaEntity)
open NestStarter.Catalog (CityEntity Rows UserRow foreignKeyViolation invalidText outOfRange tooLong
  varchar)

structure Tables where
  cities : List CityEntity := []
  areas : List AreaEntity := []
  users : List UserEntity := []
  admins : List AdminEntity := []

def shortRow (u : UserEntity) : UserRow := ⟨u.id, u.phone, u.cityId, u.isProfileCompleted⟩

def Tables.rows (t : Tables) : Rows where
  cities := t.cities
  areas := t.areas
  users := t.users.map shortRow

def AdminsUnique (admins : List AdminEntity) : Prop :=
  (admins.map fun a => a.id).Nodup ∧ (admins.map fun a => a.username).Nodup

instance (admins : List AdminEntity) : Decidable (AdminsUnique admins) :=
  inferInstanceAs (Decidable (_ ∧ _))

structure Database where
  tables : Tables
  consistent : tables.rows.Consistent
  adminsUnique : AdminsUnique tables.admins
  cityIds : ∀ c ∈ tables.cities, c.id ≤ 2147483647
  /-- The next values of the sequences behind the primary keys. -/
  nextCity : Nat
  nextArea : Nat
  nextUser : Nat
  nextAdmin : Nat

def Database.catalog (db : Database) : Catalog.Tables where
  rows := db.tables.rows
  clean := db.consistent.clean
  ranges := db.consistent.ranges
  unique := db.consistent.unique
  references := db.consistent.references
  nextCity := db.nextCity
  nextArea := db.nextArea
  nextUser := db.nextUser

/-- The end of a statement that leaves `tables`. -/
def Database.put (db : Database) (tables : Tables) : Except Failure Unit × Database :=
  if hclean : tables.rows.Clean then
    if hids : (∀ c ∈ tables.cities, c.id ≤ 2147483647) ∧ tables.rows.Ranges then
      if hunique : tables.rows.Unique ∧ AdminsUnique tables.admins then
        if href : tables.rows.References then
          (.ok (), { db with
            tables
            consistent := ⟨hclean, hids.2, hunique.1, href⟩
            adminsUnique := hunique.2
            cityIds := hids.1 })
        else (.error foreignKeyViolation, db)
      else (.error uniqueViolation, db)
    else (.error outOfRange, db)
  else (.error invalidText, db)

/-! ## Seeders -/

/-- What a run of the script is given. -/
structure Run where
  now : Instant
  salt : String
  hashPassword : String → String → String
  /-- `SEED_ADMIN_USERNAME` and the others, of an environment that has been validated. -/
  username : String
  password : String
  firstName : String
  lastName : String

abbrev SeedM (α : Type) := Procedure Failure Database α

def refusal : Keyed.Refusal → Failure
  | .twice => .queryFailed "21000"
  | .unique => uniqueViolation

def CitiesUnique (cities : List CityEntity) : Prop := Rows.CitiesUnique { cities }

def AreasUnique (areas : List AreaEntity) : Prop := Rows.AreasUnique { areas }

def UsersUnique (users : List UserEntity) : Prop := Rows.UsersUnique { users := users.map shortRow }

instance : DecidablePred CitiesUnique := fun _ => inferInstanceAs (Decidable (_ ∧ _ ∧ _))

instance : DecidablePred AreasUnique := fun _ => inferInstanceAs (Decidable (_ ∧ _ ∧ _))

instance : DecidablePred UsersUnique := fun _ => inferInstanceAs (Decidable (_ ∧ _))

/-- `ON CONFLICT (id) DO UPDATE SET name_en, name_ar`. -/
def cityUpsert : Keyed.Upsert CityEntity CityEntity Nat where
  key := CityEntity.id
  keyOf := CityEntity.id
  row _ c := c
  next n := n
  set old c := { old with nameEn := c.nameEn, nameAr := c.nameAr }

/-- `ON CONFLICT (city_id, name_en) DO UPDATE SET name_ar`. -/
def areaUpsert : Keyed.Upsert AreaSeed AreaEntity (Nat × String) where
  key s := (s.cityId, s.nameEn)
  keyOf := AreaEntity.keyEn
  row n s := ⟨n, s.cityId, s.nameEn, s.nameAr⟩
  next n := n + 1
  set old s := { old with nameAr := s.nameAr }

/-- `userRepo.upsert(userSeeds, ['phone'])`: the columns that a seed has are set. -/
def userUpsert (now : Instant) : Keyed.Upsert NewUser UserEntity String where
  key s := s.phone
  keyOf u := u.phone
  row n s := s.row n now
  next n := n + 1
  set old s :=
    { old with
      phone := s.phone
      firstName := s.firstName
      lastName := s.lastName
      gender := s.gender
      birthDate := s.birthDate
      cityId := s.cityId
      address := s.address
      isProfileCompleted := s.isProfileCompleted
      updatedAt := now }

/-- `SELECT setval(..., (SELECT MAX(id) FROM cities))`. -/
def setval : SeedM Unit :=
  Procedure.operation fun db =>
    match (db.tables.cities.map CityEntity.id).max? with
    | some id => (.ok (), { db with nextCity := id + 1 })
    | none => (.ok (), db)

def upsertCities : SeedM Unit :=
  Procedure.operation fun db =>
    match cityUpsert.exec CitiesUnique [] db.tables.cities db.nextCity citySeeds with
    | (.error e, _) => (.error (refusal e), db)
    | (.ok cities, _) => db.put { db.tables with cities }

def seedCities : SeedM Unit := do
  upsertCities
  setval

def seedAreas : SeedM Unit :=
  Procedure.operation fun db =>
    match areaUpsert.exec AreasUnique [] db.tables.areas db.nextArea areaSeeds with
    | (.error e, next) => (.error (refusal e), { db with nextArea := next })
    | (.ok areas, next) => { db with nextArea := next }.put { db.tables with areas }

def Run.admin (run : Run) (id : Nat) : AdminEntity :=
  AdminEntity.hashPasswordOnSave run.hashPassword run.now run.salt
    { id
      createdAt := run.now
      updatedAt := run.now
      password := run.password
      username := run.username
      firstName := run.firstName
      lastName := run.lastName }

/-- The row that is stored of it, unless a text is too long. -/
def Run.stored (run : Run) (id : Nat) : Option AdminEntity := do
  let username ← varchar 64 run.username
  let firstName ← varchar 100 run.firstName
  let lastName ← varchar 100 run.lastName
  return { run.admin id with username, firstName, lastName }

def findByUsername (username : String) : SeedM (Option AdminEntity) :=
  Procedure.operation fun db =>
    (.ok (db.tables.admins.find? fun a => a.username = username), db)

def insertAdmin (run : Run) : SeedM Unit :=
  Procedure.operation fun db =>
    match run.stored db.nextAdmin with
    | none => (.error tooLong, db)
    | some admin =>
      { db with nextAdmin := db.nextAdmin + 1 }.put
        { db.tables with admins := db.tables.admins ++ [admin] }

def seedAdmin (run : Run) : SeedM Unit := do
  let existing ← findByUsername run.username
  if existing.isSome then return () else insertAdmin run

def seedUsers (run : Run) : SeedM Unit :=
  Procedure.operation fun db =>
    match (userUpsert run.now).exec UsersUnique [] db.tables.users db.nextUser userSeeds with
    | (.error e, next) => (.error (refusal e), { db with nextUser := next })
    | (.ok users, next) => { db with nextUser := next }.put { db.tables with users }

/-! ## The script -/

inductive AppEnvironment where
  | development
  | production
  | test
  deriving DecidableEq, Repr

def resolveEnvironment : Option String → AppEnvironment
  | some "production" => .production
  | some "test" => .test
  | _ => .development

def clear (environment : AppEnvironment) : SeedM Unit :=
  if environment = .production then pure ()
  else Procedure.operation fun db =>
    let tables : Tables := { cities := db.tables.cities }
    ({ db with nextArea := 1, nextUser := 1, nextAdmin := 1 } : Database).put tables

inductive SeedEnvironment where
  | all
  | only (environment : AppEnvironment)
  deriving DecidableEq, Repr

structure SeedStep where
  name : String
  runsIn : List SeedEnvironment
  run : Run → SeedM Unit

def seedPipeline : List SeedStep := [
  { name := "cities", runsIn := [.all], run := fun _ => seedCities },
  { name := "areas", runsIn := [.all], run := fun _ => seedAreas },
  { name := "admin", runsIn := [.all], run := seedAdmin },
  { name := "users", runsIn := [.only .development, .only .test], run := seedUsers }]

def shouldRun (environment : AppEnvironment) (step : SeedStep) : Bool :=
  step.runsIn.contains .all || step.runsIn.contains (.only environment)

def SeedRunner.run (environment : AppEnvironment) (run : Run) : SeedM Unit :=
  (seedPipeline.filter (shouldRun environment)).forM fun step => step.run run

def bootstrap (nodeEnv : Option String) (run : Run) : SeedM Unit := do
  clear (resolveEnvironment nodeEnv)
  SeedRunner.run (resolveEnvironment nodeEnv) run

end NestStarter.Seeds
