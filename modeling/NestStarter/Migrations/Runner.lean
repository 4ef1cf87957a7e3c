import NestStarter.Core.Machine
import NestStarter.Migrations.Files

/-! # Running migrations

The replicas of the application run what is pending when they start, each in one transaction, from
what the `migrations` table of their schema held a moment before; an operator reverts the last one.
Several applications may share the database, each with a schema of its own.
-/

namespace NestStarter.Migrations

open NestStarter.Core.Ddl

structure System where
  db : Database
  /-- The names in the `migrations` table of each schema. -/
  executed : String → List String
  /-- A replica that is starting: its connection, and the names that it has read. -/
  replica : Nat → Option (ConnectionOptions × List String)

def defaultPath : List String := ["public"]

/-- `ensureSchemaExists`: whether it goes through. -/
def ensureSchemaExists (options : ConnectionOptions) (mayCreate : Bool) (db : Database) :
    Bool × Database :=
  match Statement.exec mayCreate defaultPath db (createSchemaIfNotExists options) with
  | .ok (_, db') => (true, db')
  | .error _ => ((db.schemas (getConnectionSchema options)).isSome, db)

def pendingMigrations (executed : List String) : List Migration :=
  migrations.filter fun m => m.name ∉ executed

/-- The transaction of a replica that has read the names `loaded`. -/
def System.executePendingMigrations (σ : System) (options : ConnectionOptions) (mayCreate : Bool)
    (loaded : List String) : Except SqlError Unit × System :=
  let schema := getConnectionSchema options
  let pending := pendingMigrations loaded
  match Statement.execAll mayCreate (pending.flatMap fun m => m.up options) defaultPath σ.db with
  | .error e => (.error e, σ)
  | .ok (_, db) => (.ok (), { σ with
      db
      executed := Function.update σ.executed schema
        (σ.executed schema ++ pending.map Migration.name) })

def lastExecuted (executed : List String) : Option Migration :=
  (migrations.filter fun m => m.name ∈ executed).getLast?

def System.undoLastMigration (σ : System) (options : ConnectionOptions) (mayCreate : Bool) :
    Except SqlError Unit × System :=
  let schema := getConnectionSchema options
  match lastExecuted (σ.executed schema) with
  | none => (.ok (), σ)
  | some m =>
    match Statement.execAll mayCreate (m.down options) defaultPath σ.db with
    | .error e => (.error e, σ)
    | .ok (_, db) => (.ok (), { σ with
        db
        executed := Function.update σ.executed schema
          ((σ.executed schema).filter fun name => name ≠ m.name) })

def holdsText (schema : Schema) (table column : String) (n : Nat) : Bool :=
  (schema.table? table).any fun t => t.columns.any fun c =>
    c.name = column && match c.type with
      | .varchar (some m) => n ≤ m
      | .varchar none => true
      | _ => false

/-- What is done, where it matters by a role with the CREATE right on the database or without. -/
inductive Action where
  | ensureSchema (options : ConnectionOptions) (mayCreate : Bool)
  /-- A replica connects and reads the `migrations` table, which is made when it is not there. -/
  | load (c : Nat) (options : ConnectionOptions)
  | migrate (c : Nat) (mayCreate : Bool)
  /-- The transaction is lost: a deadlock, an index that another one is making, a connection. -/
  | abort (c : Nat)
  | revert (options : ConnectionOptions) (mayCreate : Bool)
  /-- The application changes rows: the longest text of the column is now of `n` characters. -/
  | write (schema table column : String) (n : Nat)

def System.step (σ : System) : Action → Option System
  | .ensureSchema options mayCreate =>
    some { σ with db := (ensureSchemaExists options mayCreate σ.db).2 }
  | .load c options =>
    let schema := getConnectionSchema options
    if σ.replica c = none ∧ (σ.db.schemas schema).isSome then
      some { σ with
        replica := Function.update σ.replica c (some (options, σ.executed schema)) }
    else none
  | .migrate c mayCreate =>
    match σ.replica c with
    | none => none
    | some (options, loaded) =>
      let σ' := (σ.executePendingMigrations options mayCreate loaded).2
      some { σ' with replica := Function.update σ'.replica c none }
  | .abort c => some { σ with replica := Function.update σ.replica c none }
  | .revert options mayCreate => some (σ.undoLastMigration options mayCreate).2
  | .write schema table column n =>
    match σ.db.schemas schema with
    | none => none
    | some s =>
      if holdsText s table column n then
        some { σ with db := { σ.db with
          longest := fun s' t c =>
            if s' = schema ∧ t = table ∧ c = column then n else σ.db.longest s' t c } }
      else none

end NestStarter.Migrations
