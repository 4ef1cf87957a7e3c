import NestStarter.Core.Ddl

/-! # The migrations

Each migration sets the search path and then changes the schema of its connection. `Init` also
makes sure that the schema is there, and the last one that the trigram operators are.
-/

namespace NestStarter.Migrations

open NestStarter.Core.Ddl

structure ConnectionOptions where
  schema : Option String
  deriving DecidableEq, Repr

def getConnectionSchema (options : ConnectionOptions) : String := options.schema.getD "public"

def createSchemaIfNotExists (options : ConnectionOptions) : Statement :=
  .createSchemaIfNotExists (getConnectionSchema options)

def scopeToConnectionSchema (options : ConnectionOptions) : Statement :=
  .setSearchPath [getConnectionSchema options]

structure Migration where
  name : String
  up : ConnectionOptions → List Statement
  down : ConnectionOptions → List Statement

def varchar (name : String) (n : Nat) : Column := { name, type := .varchar (some n) }

def timestamp (name : String) : Column := { name, type := .timestamptz }

def Column.required (c : Column) : Column := { c with notNull := true }

def id (type : ColumnType) : Column := { name := "id", type, notNull := true }

def createdAt : Column := { timestamp "created_at" with notNull := true, default := some "now()" }

def updatedAt : Column := { timestamp "updated_at" with notNull := true, default := some "now()" }

def isActive : Column :=
  { name := "is_active", type := .boolean, notNull := true, default := some "true" }

namespace Init

def admins : Table where
  name := "admins"
  columns := [
    id .serial, createdAt, updatedAt,
    { name := "password", type := .varchar none, notNull := true },
    timestamp "password_changed_at",
    Column.required (varchar "username" 64),
    Column.required (varchar "first_name" 100),
    Column.required (varchar "last_name" 100),
    varchar "phone" 20,
    varchar "photo_key" 512]
  primaryKey := some ("PK_admins", "id")

def cities : Table where
  name := "cities"
  columns := [
    id .serial, Column.required (varchar "name_en" 128), Column.required (varchar "name_ar" 128)]
  primaryKey := some ("PK_cities", "id")

def areas : Table where
  name := "areas"
  columns := [
    id .serial,
    { name := "city_id", type := .integer, notNull := true },
    Column.required (varchar "name_en" 128),
    Column.required (varchar "name_ar" 128)]
  primaryKey := some ("PK_areas", "id")

def users : Table where
  name := "users"
  columns := [
    id .serial, createdAt, updatedAt,
    Column.required (varchar "phone" 20),
    varchar "first_name" 100,
    varchar "last_name" 100,
    { name := "gender", type := .enum "gender_enum" },
    { name := "birth_date", type := .date },
    { name := "city_id", type := .integer },
    varchar "address" 512,
    varchar "photo_key" 512,
    { name := "is_profile_completed", type := .boolean, notNull := true, default := some "false" }]
  primaryKey := some ("PK_users", "id")

def otps : Table where
  name := "otps"
  columns := [
    id .bigserial,
    Column.required (varchar "phone" 32),
    Column.required (varchar "code_hash" 128),
    { name := "purpose", type := .enum "otp_purpose_enum", notNull := true },
    Column.required (timestamp "expires_at"),
    { name := "attempts", type := .integer, notNull := true, default := some "0" },
    timestamp "consumed_at", createdAt, updatedAt]
  primaryKey := some ("PK_otps", "id")

def refreshTokens : Table where
  name := "refresh_tokens"
  columns := [
    id .bigserial,
    Column.required (varchar "token_hash" 64),
    { name := "user_id", type := .integer, notNull := true },
    Column.required (varchar "role" 16),
    Column.required (timestamp "expires_at"),
    timestamp "revoked_at",
    timestamp "last_used_at",
    { name := "replaced_by_id", type := .bigint },
    createdAt]
  primaryKey := some ("PK_refresh_tokens", "id")

def index (name table : String) (columns : List String) : Change :=
  .createIndex { name, table, columns } false

def uniqueIndex (name table : String) (columns : List String) : Change :=
  .createIndex { name, table, columns, unique := true } false

def changes : List Change := [
  .createType "gender_enum" ["male", "female"],
  .createType "otp_purpose_enum" ["user_login"],
  .createTable admins,
  uniqueIndex "IDX_admins_username" "admins" ["username"],
  .createTable cities,
  uniqueIndex "uq_cities_name_en" "cities" ["name_en"],
  uniqueIndex "uq_cities_name_ar" "cities" ["name_ar"],
  .createTable areas,
  index "IDX_areas_city_id" "areas" ["city_id"],
  uniqueIndex "uq_areas_city_id_name_en" "areas" ["city_id", "name_en"],
  uniqueIndex "uq_areas_city_id_name_ar" "areas" ["city_id", "name_ar"],
  .addForeignKey "areas" ⟨"FK_areas_city_id", "city_id", "cities", "id", .cascade⟩,
  .createTable users,
  uniqueIndex "IDX_users_phone" "users" ["phone"],
  index "IDX_users_city_id" "users" ["city_id"],
  index "IDX_users_is_profile_completed" "users" ["is_profile_completed"],
  .addForeignKey "users" ⟨"FK_users_city_id", "city_id", "cities", "id", .restrict⟩,
  .createTable otps,
  index "IDX_otps_phone_purpose_expires_at" "otps" ["phone", "purpose", "expires_at"],
  .createTable refreshTokens,
  uniqueIndex "idx_refresh_token_hash" "refresh_tokens" ["token_hash"],
  index "IDX_refresh_tokens_user_id_role" "refresh_tokens" ["user_id", "role"]]

def undo : List Change := [
  .dropIndexIfExists "IDX_refresh_tokens_user_id_role",
  .dropIndexIfExists "idx_refresh_token_hash",
  .dropTableIfExists "refresh_tokens",
  .dropIndexIfExists "IDX_otps_phone_purpose_expires_at",
  .dropTableIfExists "otps",
  .dropForeignKeyIfExists "users" "FK_users_city_id",
  .dropIndexIfExists "IDX_users_is_profile_completed",
  .dropIndexIfExists "IDX_users_city_id",
  .dropIndexIfExists "IDX_users_phone",
  .dropTableIfExists "users",
  .dropForeignKeyIfExists "areas" "FK_areas_city_id",
  .dropIndexIfExists "uq_areas_city_id_name_ar",
  .dropIndexIfExists "uq_areas_city_id_name_en",
  .dropIndexIfExists "IDX_areas_city_id",
  .dropTableIfExists "areas",
  .dropIndexIfExists "uq_cities_name_ar",
  .dropIndexIfExists "uq_cities_name_en",
  .dropTableIfExists "cities",
  .dropIndexIfExists "IDX_admins_username",
  .dropTableIfExists "admins",
  .dropTypeIfExists "otp_purpose_enum",
  .dropTypeIfExists "gender_enum"]

end Init

def Init : Migration where
  name := "Init1747600000001"
  up options :=
    createSchemaIfNotExists options :: scopeToConnectionSchema options ::
      Init.changes.map .change
  down options := scopeToConnectionSchema options :: Init.undo.map .change

namespace AddCleanupIndexes

def index (name table column : String) : Change :=
  .createIndex { name, table, columns := [column] } true

def changes : List Change := [
  index "IDX_refresh_tokens_expires_at" "refresh_tokens" "expires_at",
  index "IDX_otps_created_at" "otps" "created_at"]

def undo : List Change := [
  .dropIndexIfExists "IDX_otps_created_at",
  .dropIndexIfExists "IDX_refresh_tokens_expires_at"]

end AddCleanupIndexes

def AddCleanupIndexes : Migration where
  name := "AddCleanupIndexes1747600000002"
  up options := scopeToConnectionSchema options :: AddCleanupIndexes.changes.map .change
  down options := scopeToConnectionSchema options :: AddCleanupIndexes.undo.map .change

namespace AddIsActiveToAccounts

def changes : List Change := [
  .addColumnIfNotExists "admins" isActive,
  .addColumnIfNotExists "users" isActive]

def undo : List Change := [
  .dropColumnIfExists "users" "is_active",
  .dropColumnIfExists "admins" "is_active"]

end AddIsActiveToAccounts

def AddIsActiveToAccounts : Migration where
  name := "AddIsActiveToAccounts1747600000003"
  up options := scopeToConnectionSchema options :: AddIsActiveToAccounts.changes.map .change
  down options := scopeToConnectionSchema options :: AddIsActiveToAccounts.undo.map .change

namespace AddUserSearchIndexesAndUnifyPhoneLength

/-- The operators are in `public` or in the schema of the connection. -/
def scope (options : ConnectionOptions) : Statement :=
  .setSearchPath [getConnectionSchema options, "public"]

def widen : List Change := [
  .alterType "users" "phone" (.varchar (some 32)),
  .alterType "admins" "phone" (.varchar (some 32))]

def trigramIndex (name column : String) : Change :=
  .createIndex { name, table := "users", columns := [column], trigram := true } true

def indexes : List Change := [
  trigramIndex "IDX_users_first_name_trgm" "first_name",
  trigramIndex "IDX_users_last_name_trgm" "last_name",
  trigramIndex "IDX_users_phone_trgm" "phone"]

def dropIndexes : List Change := [
  .dropIndexIfExists "IDX_users_phone_trgm",
  .dropIndexIfExists "IDX_users_last_name_trgm",
  .dropIndexIfExists "IDX_users_first_name_trgm"]

def narrowAdmins : Change := .alterType "admins" "phone" (.varchar (some 20))

def narrowUsers : Change := .alterType "users" "phone" (.varchar (some 20))

end AddUserSearchIndexesAndUnifyPhoneLength

open AddUserSearchIndexesAndUnifyPhoneLength in
def AddUserSearchIndexesAndUnifyPhoneLength : Migration where
  name := "AddUserSearchIndexesAndUnifyPhoneLength1747600000004"
  up options :=
    scope options :: widen.map .change ++ .createTrgmIfNotExists :: indexes.map .change
  down options :=
    scope options :: (dropIndexes ++ [narrowAdmins, narrowUsers]).map .change

def migrations : List Migration :=
  [Init, AddCleanupIndexes, AddIsActiveToAccounts, AddUserSearchIndexesAndUnifyPhoneLength]

end NestStarter.Migrations
