import Mathlib.Logic.Function.Basic
import NestStarter.Core.Keyed

/-! # Data definition statements

The schemas of a PostgreSQL database, and what the statements that define them do. A statement
looks for its table or index along the search path and makes new objects in the first schema of it,
so that the same text works on one schema or another. Of the rows a database only knows the longest
text that a column holds, which is what a narrower type can fail on.
-/

namespace NestStarter.Core.Ddl

inductive ColumnType where
  | serial
  | bigserial
  | integer
  | bigint
  | boolean
  | date
  | timestamptz
  | varchar (n : Option Nat)
  | enum (name : String)
  deriving DecidableEq, Repr

structure Column where
  name : String
  type : ColumnType
  notNull : Bool := false
  default : Option String := none
  deriving DecidableEq, Repr

inductive OnDelete where
  | cascade
  | restrict
  deriving DecidableEq, Repr

structure ForeignKey where
  name : String
  column : String
  parent : String
  parentColumn : String
  onDelete : OnDelete
  deriving DecidableEq, Repr

structure Table where
  name : String
  columns : List Column
  /-- The name of the constraint, and its column. -/
  primaryKey : Option (String × String)
  foreignKeys : List ForeignKey := []
  deriving DecidableEq, Repr

structure Index where
  name : String
  table : String
  columns : List String
  unique : Bool := false
  /-- `USING gin (... gin_trgm_ops)`. -/
  trigram : Bool := false
  deriving DecidableEq, Repr

structure Schema where
  /-- The enumerations, with their labels. -/
  types : List (String × List String) := []
  tables : List Table := []
  indexes : List Index := []
  deriving DecidableEq, Repr

def Table.hasColumn (t : Table) (column : String) : Bool := t.columns.any fun c => c.name = column

namespace Schema

variable (s : Schema)

def hasType (name : String) : Bool := s.types.any fun t => t.1 = name

def hasTable (name : String) : Bool := s.tables.any fun t => t.name = name

def hasIndex (name : String) : Bool := s.indexes.any fun i => i.name = name

/-- Tables, indexes and the indexes of primary keys share their names. -/
def hasRelation (name : String) : Bool :=
  s.hasTable name || s.hasIndex name ||
    s.tables.any fun t => t.primaryKey.any fun key => key.1 = name

def table? (name : String) : Option Table := s.tables.find? fun t => t.name = name

def alterTable (name : String) (f : Table → Table) : Schema :=
  { s with tables := Keyed.alter Table.name name f s.tables }

end Schema

inductive SqlError where
  | duplicateObject
  | duplicateTable
  | undefinedObject
  | undefinedTable
  | undefinedColumn
  | dependentObjects
  | noSchema
  | tooLong
  | insufficientPrivilege
  deriving DecidableEq, Repr

/-- A statement on one schema. What is dropped, added or indexed is so `IF EXISTS` or
`IF NOT EXISTS`, where the form has a flag or the name says it. -/
inductive Change where
  | createType (name : String) (labels : List String)
  | createTable (table : Table)
  | createIndex (index : Index) (ifNotExists : Bool)
  | addForeignKey (table : String) (key : ForeignKey)
  | dropForeignKeyIfExists (table name : String)
  | dropIndexIfExists (name : String)
  | dropTableIfExists (name : String)
  | dropTypeIfExists (name : String)
  | addColumnIfNotExists (table : String) (column : Column)
  | dropColumnIfExists (table column : String)
  | alterType (table column : String) (type : ColumnType)
  deriving DecidableEq, Repr

namespace Change

def finds : Change → Schema → Bool
  | createType .., _ | createTable _, _ => true
  | createIndex index _, s => s.hasTable index.table
  | addForeignKey table _, s | dropForeignKeyIfExists table _, s => s.hasTable table
  | dropIndexIfExists name, s => s.hasIndex name
  | dropTableIfExists name, s => s.hasTable name
  | dropTypeIfExists name, s => s.hasType name
  | addColumnIfNotExists table _, s | dropColumnIfExists table _, s | alterType table _ _, s =>
    s.hasTable table

def missing : Change → Option SqlError
  | createType .. | createTable _ => some .noSchema
  | dropForeignKeyIfExists .. | dropIndexIfExists _ | dropTableIfExists _ | dropTypeIfExists _ =>
    none
  | createIndex .. | addForeignKey .. | addColumnIfNotExists .. | dropColumnIfExists ..
  | alterType .. => some .undefinedTable

/-- An enumeration that a column is of is one of the schema. -/
def typeExists (s : Schema) : ColumnType → Bool
  | .enum name => s.hasType name
  | _ => true

def exec : Change → Schema → Except SqlError Schema
  | createType name labels, s =>
    if s.hasType name || s.hasTable name then .error .duplicateObject
    else .ok { s with types := s.types ++ [(name, labels)] }
  | createTable table, s =>
    if s.hasRelation table.name || table.primaryKey.any fun key => s.hasRelation key.1 then
      .error .duplicateTable
    else if s.hasType table.name then .error .duplicateObject
    else if table.columns.any fun c => !typeExists s c.type then .error .undefinedObject
    else if table.primaryKey.any fun key => !table.hasColumn key.2 then .error .undefinedColumn
    else .ok { s with tables := s.tables ++ [table] }
  | createIndex index ifNotExists, s =>
    if index.columns.any fun c => !(s.table? index.table).any fun t => t.hasColumn c then
      .error .undefinedColumn
    else if s.hasRelation index.name then
      if ifNotExists then .ok s else .error .duplicateTable
    else .ok { s with indexes := s.indexes ++ [index] }
  | addForeignKey table key, s =>
    if !s.hasTable key.parent then .error .undefinedTable
    else if !((s.table? table).any fun t => t.hasColumn key.column) then .error .undefinedColumn
    else if !((s.table? key.parent).any fun t =>
        t.primaryKey.any fun primary => primary.2 = key.parentColumn) then
      .error .undefinedObject
    else if (s.table? table).any fun t => t.foreignKeys.any fun k => k.name = key.name then
      .error .duplicateObject
    else .ok (s.alterTable table fun t => { t with foreignKeys := t.foreignKeys ++ [key] })
  | dropForeignKeyIfExists table name, s =>
    .ok (s.alterTable table fun t =>
      { t with foreignKeys := t.foreignKeys.filter fun k => k.name ≠ name })
  | dropIndexIfExists name, s =>
    .ok { s with indexes := s.indexes.filter fun i => i.name ≠ name }
  | dropTableIfExists name, s =>
    if s.tables.any fun t => t.name ≠ name && t.foreignKeys.any fun k => k.parent = name then
      .error .dependentObjects
    else .ok { s with
      tables := s.tables.filter fun t => t.name ≠ name
      indexes := s.indexes.filter fun i => i.table ≠ name }
  | dropTypeIfExists name, s =>
    if s.tables.any fun t => t.columns.any fun c => c.type = .enum name then
      .error .dependentObjects
    else .ok { s with types := s.types.filter fun t => t.1 ≠ name }
  | addColumnIfNotExists table column, s =>
    if (s.table? table).any fun t => t.hasColumn column.name then .ok s
    else if !typeExists s column.type then .error .undefinedObject
    else .ok (s.alterTable table fun t => { t with columns := t.columns ++ [column] })
  | dropColumnIfExists table column, s =>
    if s.tables.any fun t => t.foreignKeys.any fun k =>
        k.parent = table ∧ k.parentColumn = column then
      .error .dependentObjects
    else .ok { s.alterTable table fun t => { t with
        columns := t.columns.filter fun c => c.name ≠ column
        primaryKey := t.primaryKey.filter fun key => key.2 ≠ column
        foreignKeys := t.foreignKeys.filter fun k => k.column ≠ column } with
      indexes := s.indexes.filter fun i => i.table ≠ table || !i.columns.contains column }
  | alterType table column type, s =>
    if !((s.table? table).any fun t => t.hasColumn column) then .error .undefinedColumn
    else .ok (s.alterTable table fun t => { t with
      columns := Keyed.alter Column.name column (fun c => { c with type }) t.columns })

/-- The change depends on the schema alone. -/
def plain : Change → Bool
  | alterType .. => false
  | createIndex index _ => !index.trigram
  | _ => true

def makesTable : Change → Bool
  | createTable _ => true
  | _ => false

def execAll : List Change → Schema → Option Schema
  | [], s => some s
  | c :: cs, s => if c.finds s then (c.exec s).toOption.bind (execAll cs) else none

theorem finds_of_execAll {c : Change} {cs : List Change} {s s' : Schema}
    (h : execAll (c :: cs) s = some s') : c.finds s = true := by
  rw [execAll] at h
  split at h
  · next hfinds => exact hfinds
  · cases h

theorem execAll_append (cs cs' : List Change) (s : Schema) :
    execAll (cs ++ cs') s = (execAll cs s).bind (execAll cs') := by
  induction cs generalizing s with
  | nil => rfl
  | cons c cs ih =>
    rw [List.cons_append, execAll, execAll]
    split
    · cases c.exec s with
      | error e => rfl
      | ok s' => exact ih s'
    · rfl

end Change

/-! ## Databases -/

structure Database where
  schemas : String → Option Schema
  /-- The schema that pg_trgm has been installed into. -/
  trgm : Option String
  /-- The longest text of a column, by schema, table and column. -/
  longest : String → String → String → Nat

inductive Statement where
  | createSchemaIfNotExists (schema : String)
  | setSearchPath (path : List String)
  | createTrgmIfNotExists
  | change (c : Change)
  deriving DecidableEq, Repr

namespace Database

variable (db : Database)

/-- The first schema of the path with what is looked for. -/
def locate (path : List String) (p : Schema → Bool) : Option String :=
  path.find? fun name => (db.schemas name).any p

/-- What else than the schema a change depends on: the texts that are stored, and where the
operator class is. -/
def Allows (path : List String) (schema : String) : Change → Prop
  | .alterType table column (.varchar (some n)) => db.longest schema table column ≤ n
  | .createIndex index _ => index.trigram = true → ∃ s ∈ db.trgm, s ∈ path
  | _ => True

instance (path : List String) (schema : String) : (c : Change) → Decidable (db.Allows path schema c)
  | .alterType table column (.varchar (some n)) =>
    inferInstanceAs (Decidable (db.longest schema table column ≤ n))
  | .createIndex index _ =>
    inferInstanceAs (Decidable (index.trigram = true → ∃ s ∈ db.trgm, s ∈ path))
  | .alterType _ _ (.varchar none) | .alterType _ _ .serial | .alterType _ _ .bigserial
  | .alterType _ _ .integer | .alterType _ _ .bigint | .alterType _ _ .boolean
  | .alterType _ _ .date | .alterType _ _ .timestamptz | .alterType _ _ (.enum _)
  | .createType .. | .createTable _ | .addForeignKey .. | .dropForeignKeyIfExists ..
  | .dropIndexIfExists _ | .dropTableIfExists _ | .dropTypeIfExists _ | .addColumnIfNotExists ..
  | .dropColumnIfExists .. => isTrue trivial

def emptied (schema : String) : Change → Database
  | .createTable table => { db with
      longest := fun s t => if s = schema ∧ t = table.name then fun _ => 0 else db.longest s t }
  | _ => db

end Database

/-- A statement of a transaction, with the search path that it has set. `mayCreate`: the role has
the CREATE right on the database, which `CREATE SCHEMA` asks for before it looks for the schema and
`CREATE EXTENSION` after it has looked for the extension. -/
def Statement.exec (mayCreate : Bool) (path : List String) (db : Database) :
    Statement → Except SqlError (List String × Database)
  | createSchemaIfNotExists schema =>
    if mayCreate then
      .ok (path, { db with
        schemas := Function.update db.schemas schema (some ((db.schemas schema).getD {})) })
    else .error .insufficientPrivilege
  | setSearchPath path' => .ok (path', db)
  | createTrgmIfNotExists =>
    match db.trgm with
    | some _ => .ok (path, db)
    | none =>
      match db.locate path fun _ => true with
      | none => .error .noSchema
      | some schema =>
        if mayCreate then .ok (path, { db with trgm := some schema })
        else .error .insufficientPrivilege
  | change c =>
    match db.locate path c.finds with
    | none =>
      match c.missing with
      | none => .ok (path, db)
      | some e => .error e
    | some schema =>
      if db.Allows path schema c then
        match c.exec ((db.schemas schema).getD {}) with
        | .error e => .error e
        | .ok s => .ok (path, { db.emptied schema c with
            schemas := Function.update db.schemas schema (some s) })
      else
        match c with
        | .createIndex .. => .error .undefinedObject
        | _ => .error .tooLong

def Statement.execAll (mayCreate : Bool) : List Statement → List String → Database →
    Except SqlError (List String × Database)
  | [], path, db => .ok (path, db)
  | st :: sts, path, db =>
    match st.exec mayCreate path db with
    | .error e => .error e
    | .ok (path', db') => execAll mayCreate sts path' db'

section Append

variable {mayCreate : Bool} {st : Statement} {sts sts' : List Statement} {path path' : List String}
  {db db' : Database}

theorem execAll_cons_ok (h : st.exec mayCreate path db = .ok (path', db')) :
    Statement.execAll mayCreate (st :: sts) path db =
      Statement.execAll mayCreate sts path' db' := by
  rw [Statement.execAll, h]

theorem execAll_cons_error {e : SqlError} (h : st.exec mayCreate path db = .error e) :
    Statement.execAll mayCreate (st :: sts) path db = .error e := by
  rw [Statement.execAll, h]

theorem execAll_append_ok (h : Statement.execAll mayCreate sts path db = .ok (path', db')) :
    Statement.execAll mayCreate (sts ++ sts') path db =
      Statement.execAll mayCreate sts' path' db' := by
  induction sts generalizing path db with
  | nil =>
    cases h
    rfl
  | cons st sts ih =>
    rw [Statement.execAll] at h
    rw [List.cons_append, Statement.execAll]
    cases hone : st.exec mayCreate path db with
    | error e =>
      rw [hone] at h
      cases h
    | ok r =>
      rw [hone] at h
      exact ih h

theorem execAll_append_error {e : SqlError}
    (h : Statement.execAll mayCreate sts path db = .error e) :
    Statement.execAll mayCreate (sts ++ sts') path db = .error e := by
  induction sts generalizing path db with
  | nil => cases h
  | cons st sts ih =>
    rw [Statement.execAll] at h
    rw [List.cons_append, Statement.execAll]
    cases hone : st.exec mayCreate path db with
    | error e' =>
      rw [hone] at h
      exact h
    | ok r =>
      rw [hone] at h
      exact ih h

end Append

/-! ## Changes of the first schema of the path -/

section First

variable {mayCreate : Bool} {db db' : Database} {name : String} {rest : List String}
  {schema schema' : Schema} {c : Change} {cs : List Change}

/-- `db'` is `db` with `schema'` as the schema `name`, in which no text has become longer. -/
structure Database.Becomes (db db' : Database) (name : String) (schema' : Schema) : Prop where
  schemas : db'.schemas = Function.update db.schemas name (some schema')
  trgm : db'.trgm = db.trgm
  others : ∀ other, other ≠ name → db'.longest other = db.longest other
  longest : ∀ table column, db'.longest name table column ≤ db.longest name table column

theorem Database.Becomes.refl (hschema : db.schemas name = some schema) :
    db.Becomes db name schema where
  schemas := by rw [← hschema, Function.update_eq_self]
  trgm := rfl
  others _ _ := rfl
  longest _ _ := le_rfl

theorem Database.Becomes.trans {db'' : Database} (h : db.Becomes db' name schema)
    (h' : db'.Becomes db'' name schema') : db.Becomes db'' name schema' where
  schemas := by rw [h'.schemas, h.schemas, Function.update_idem]
  trgm := h'.trgm.trans h.trgm
  others other hne := (h'.others other hne).trans (h.others other hne)
  longest table column := (h'.longest table column).trans (h.longest table column)

theorem Database.allows_of_plain (db : Database) (path : List String) (name : String)
    (h : c.plain = true) : db.Allows path name c := by
  cases c with
  | alterType table column type => cases h
  | createIndex index ifNotExists =>
    intro htrigram
    simp [Change.plain, htrigram] at h
  | _ => trivial

theorem Database.Allows.mono {path : List String} (h : db.Allows path name c)
    (htrgm : db'.trgm = db.trgm)
    (hlongest : ∀ table column, db'.longest name table column ≤ db.longest name table column) :
    db'.Allows path name c := by
  unfold Allows at h ⊢
  split
  · exact (hlongest _ _).trans h
  · rw [htrgm]
    exact h
  · trivial

theorem Database.becomes_emptied (db : Database) (name : String) (c : Change) (schema' : Schema) :
    db.Becomes { db.emptied name c with
      schemas := Function.update db.schemas name (some schema') } name schema' := by
  unfold emptied
  cases c with
  | createTable table =>
    refine ⟨rfl, rfl, fun other hne => ?_, fun t column => ?_⟩
    · funext t
      exact if_neg fun h => hne h.1
    · show (if name = name ∧ t = table.name then fun _ => 0 else db.longest name t) column ≤ _
      split
      · exact Nat.zero_le _
      · exact le_rfl
  | _ => exact ⟨rfl, rfl, fun _ _ => rfl, fun _ _ => le_rfl⟩

theorem Database.locate_first {p : Schema → Bool} (hschema : db.schemas name = some schema)
    (hp : p schema = true) : db.locate (name :: rest) p = some name :=
  List.find?_cons_of_pos (by rw [hschema]; exact hp)

theorem exec_change (hschema : db.schemas name = some schema) (hfinds : c.finds schema = true)
    (hallows : db.Allows (name :: rest) name c) (hexec : c.exec schema = .ok schema') :
    Statement.exec mayCreate (name :: rest) db (.change c) =
      .ok (name :: rest, { db.emptied name c with
        schemas := Function.update db.schemas name (some schema') }) := by
  simp only [Statement.exec, db.locate_first hschema hfinds, if_pos hallows, hschema,
    Option.getD_some, hexec]

theorem exec_change_error {e : SqlError} (hschema : db.schemas name = some schema)
    (hfinds : c.finds schema = true) (hallows : db.Allows (name :: rest) name c)
    (hexec : c.exec schema = .error e) :
    Statement.exec mayCreate (name :: rest) db (.change c) = .error e := by
  simp only [Statement.exec, db.locate_first hschema hfinds, if_pos hallows, hschema,
    Option.getD_some, hexec]

theorem exec_change_refused (hschema : db.schemas name = some schema)
    (hfinds : c.finds schema = true) (hallows : ¬ db.Allows (name :: rest) name c) :
    ∃ e, Statement.exec mayCreate (name :: rest) db (.change c) = .error e := by
  simp only [Statement.exec, db.locate_first hschema hfinds, if_neg hallows]
  cases c <;> exact ⟨_, rfl⟩

/-- The operators stay where they are, or come into the first schema. -/
theorem exec_createTrgm (rest : List String) (hschema : db.schemas name = some schema)
    (hright : db.trgm = none → mayCreate = true) :
    ∃ db', Statement.exec mayCreate (name :: rest) db .createTrgmIfNotExists =
        .ok (name :: rest, db') ∧
      db'.schemas = db.schemas ∧ db'.longest = db.longest ∧
      db'.trgm = some (db.trgm.getD name) := by
  cases htrgm : db.trgm with
  | some s => exact ⟨db, by simp only [Statement.exec, htrgm], rfl, rfl, htrgm⟩
  | none =>
    have hfirst : db.locate (name :: rest) (fun _ => true) = some name :=
      db.locate_first hschema rfl
    exact ⟨{ db with trgm := some name },
      by simp only [Statement.exec, htrgm, hfirst, hright htrgm, if_true], rfl, rfl, rfl⟩

/-- Without the right, operators that are not there cannot be made. -/
theorem exec_createTrgm_refused (rest : List String) (hschema : db.schemas name = some schema)
    (htrgm : db.trgm = none) :
    Statement.exec false (name :: rest) db .createTrgmIfNotExists =
      .error .insufficientPrivilege := by
  have hfirst : db.locate (name :: rest) (fun _ => true) = some name :=
    db.locate_first hschema rfl
  simp only [Statement.exec, htrgm, hfirst, Bool.false_eq_true, if_false]

/-- Changes that find what they look for and that the database allows. -/
theorem execAll_changes (hschema : db.schemas name = some schema)
    (hallows : ∀ c ∈ cs, db.Allows (name :: rest) name c)
    (hexec : Change.execAll cs schema = some schema') :
    ∃ db',
      Statement.execAll mayCreate (cs.map .change) (name :: rest) db = .ok (name :: rest, db') ∧
      db.Becomes db' name schema' := by
  induction cs generalizing db schema with
  | nil =>
    cases hexec
    exact ⟨db, rfl, Database.Becomes.refl hschema⟩
  | cons c cs ih =>
    rw [Change.execAll] at hexec
    split at hexec
    · next hfinds =>
      cases hone : c.exec schema with
      | error e =>
        rw [hone] at hexec
        cases hexec
      | ok schema₁ =>
        rw [hone] at hexec
        have hbecomes := db.becomes_emptied name c schema₁
        obtain ⟨db', hrest, hlast⟩ := ih (by rw [hbecomes.schemas, Function.update_self])
          (fun d hd => (hallows d (List.mem_cons_of_mem _ hd)).mono hbecomes.trgm
            hbecomes.longest) hexec
        refine ⟨db', ?_, hbecomes.trans hlast⟩
        rw [List.map_cons, Statement.execAll,
          exec_change hschema hfinds (hallows c List.mem_cons_self) hone]
        exact hrest
    · cases hexec

theorem longest_of_execAll {path path' : List String}
    (h : Statement.execAll mayCreate (cs.map .change) path db = .ok (path', db'))
    (hcs : ∀ c ∈ cs, c.makesTable = false) : db'.longest = db.longest := by
  induction cs generalizing path db with
  | nil =>
    cases h
    rfl
  | cons c cs ih =>
    have hemptied : ∀ name, (db.emptied name c).longest = db.longest := by
      intro name
      have hc := hcs c List.mem_cons_self
      cases c with
      | createTable table => cases hc
      | _ => rfl
    have hone : ∀ {path₁ db₁}, Statement.exec mayCreate path db (.change c) = .ok (path₁, db₁) →
        db₁.longest = db.longest := by
      intro path₁ db₁ hexec
      simp only [Statement.exec] at hexec
      split at hexec
      · split at hexec
        · cases hexec
          rfl
        · cases hexec
      · split at hexec
        · split at hexec
          · cases hexec
          · cases hexec
            exact hemptied _
        · split at hexec <;> cases hexec
    rw [List.map_cons, Statement.execAll] at h
    cases hexec : Statement.exec mayCreate path db (.change c) with
    | error e =>
      rw [hexec] at h
      cases h
    | ok r =>
      rw [hexec] at h
      exact (ih h fun d hd => hcs d (List.mem_cons_of_mem _ hd)).trans (hone hexec)

/-- A change that the database does not allow, after others. -/
theorem execAll_refused {cs' : List Change} (hschema : db.schemas name = some schema)
    (hexec : Change.execAll (cs ++ c :: cs') schema = some schema')
    (hallows : ∀ d ∈ cs, db.Allows (name :: rest) name d)
    (hcs : ∀ d ∈ cs, d.makesTable = false) (hrefused : ¬ db.Allows (name :: rest) name c) :
    ∃ e,
      Statement.execAll mayCreate ((cs ++ c :: cs').map .change) (name :: rest) db = .error e := by
  rw [Change.execAll_append] at hexec
  cases hfirst : Change.execAll cs schema with
  | none =>
    rw [hfirst] at hexec
    cases hexec
  | some schema₁ =>
    rw [hfirst] at hexec
    obtain ⟨db₁, hrun, hbecomes⟩ := execAll_changes hschema hallows hfirst
    have hlongest := longest_of_execAll hrun hcs
    have hhere : db₁.schemas name = some schema₁ := by
      rw [hbecomes.schemas, Function.update_self]
    have hrefused₁ : ¬ db₁.Allows (name :: rest) name c := fun hallowed =>
      hrefused (hallowed.mono hbecomes.trgm.symm fun _ _ => le_of_eq (by rw [hlongest]))
    obtain ⟨e, herror⟩ := exec_change_refused hhere (Change.finds_of_execAll hexec) hrefused₁
    refine ⟨e, ?_⟩
    rw [List.map_append, execAll_append_ok hrun, List.map_cons]
    exact execAll_cons_error herror

end First

end NestStarter.Core.Ddl
