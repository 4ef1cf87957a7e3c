import Mathlib.Data.List.Nodup
import NestStarter.Domain

/-! # Accounts

The rows of `users` and `admins`, the objects TypeORM hydrates from them, and
what is left of such an object once it has been through JSON. An object is its
own properties and the getters of its prototype.
-/

namespace NestStarter.Accounts

inductive Gender where
  | male
  | female
  deriving DecidableEq, Repr

def Gender.value : Gender → String
  | .male => "male"
  | .female => "female"

structure BaseAccountEntity where
  id : Nat
  createdAt : Instant
  updatedAt : Instant
  isActive : Bool := true
  deriving DecidableEq, Repr

/-- A row of `users`. A `date` column is a string to TypeORM. -/
structure UserEntity extends BaseAccountEntity where
  phone : String
  firstName : Option String := none
  lastName : Option String := none
  gender : Option Gender := none
  birthDate : Option String := none
  cityId : Option Nat := none
  address : Option String := none
  photoKey : Option String := none
  isProfileCompleted : Bool := false
  deriving DecidableEq, Repr

structure BasePasswordUserEntity extends BaseAccountEntity where
  password : String
  passwordChangedAt : Option Instant := none
  deriving DecidableEq, Repr

structure AdminEntity extends BasePasswordUserEntity where
  username : String
  firstName : String
  lastName : String
  phone : Option String := none
  photoKey : Option String := none
  deriving DecidableEq, Repr

structure UserTable where
  rows : List UserEntity := []
  nextId : Nat := 1
  sorted : rows.Pairwise fun u v => u.id < v.id := by decide
  bound : ∀ u ∈ rows, u.id < nextId := by decide
  deriving DecidableEq

structure NewUser where
  phone : String
  firstName : Option String := none
  lastName : Option String := none
  gender : Option Gender := none
  birthDate : Option String := none
  cityId : Option Nat := none
  address : Option String := none
  isProfileCompleted : Bool
  deriving DecidableEq, Repr

def NewUser.row (n : NewUser) (id : Nat) (now : Instant) : UserEntity where
  id := id
  createdAt := now
  updatedAt := now
  phone := n.phone
  firstName := n.firstName
  lastName := n.lastName
  gender := n.gender
  birthDate := n.birthDate
  cityId := n.cityId
  address := n.address
  isProfileCompleted := n.isProfileCompleted

/-- `repo.save` of a loaded entity: the columns in which it differs from the row are
written, and `updated_at` with them. -/
def saveUser (row user : UserEntity) (now : Instant) : UserEntity :=
  if user = row then row else { user with updatedAt := now }

@[simp] theorem isActive_saveUser (row user : UserEntity) (now : Instant) :
    (saveUser row user now).isActive = user.isActive := by
  unfold saveUser
  split
  · subst_vars
    rfl
  · rfl

@[simp] theorem id_saveUser (row user : UserEntity) (now : Instant) :
    (saveUser row user now).id = user.id := by
  unfold saveUser
  split
  · subst_vars
    rfl
  · rfl

namespace UserTable

variable (t : UserTable)

def findById (id : Nat) : Option UserEntity := t.rows.find? fun u => u.id = id

def findByPhone (phone : String) : Option UserEntity := t.rows.find? fun u => u.phone = phone

def insert (n : NewUser) (now : Instant) : UserTable where
  rows := t.rows ++ [n.row t.nextId now]
  nextId := t.nextId + 1
  sorted := by
    refine List.pairwise_append.2 ⟨t.sorted, List.pairwise_singleton .., fun u hu v hv => ?_⟩
    rw [List.mem_singleton.1 hv]
    exact t.bound u hu
  bound := by
    intro u hu
    rcases List.mem_append.1 hu with hu | hu
    · exact Nat.lt_succ_of_lt (t.bound u hu)
    · rw [List.mem_singleton.1 hu]
      exact Nat.lt_succ_self _

def save (user : UserEntity) (now : Instant) : UserTable where
  rows := t.rows.map fun row => if row.id = user.id then saveUser row user now else row
  nextId := t.nextId
  sorted := by
    refine List.pairwise_map.2 (t.sorted.imp fun {u v} huv => ?_)
    have hid : ∀ row : UserEntity,
        (if row.id = user.id then saveUser row user now else row).id = row.id := by
      intro row
      split
      · simp [*]
      · rfl
    rwa [hid, hid]
  bound := by
    intro u hu
    obtain ⟨row, hrow, rfl⟩ := List.mem_map.1 hu
    split
    · rw [id_saveUser, ← ‹row.id = user.id›]
      exact t.bound row hrow
    · exact t.bound row hrow

variable {t}

theorem eq_of_id {u v : UserEntity} (hu : u ∈ t.rows) (hv : v ∈ t.rows) (h : u.id = v.id) : u = v :=
  List.inj_on_of_nodup_map (List.pairwise_map.2 (t.sorted.imp Nat.ne_of_lt)) hu hv h

end UserTable

structure AdminTable where
  rows : List AdminEntity := []
  nodup : (rows.map fun a => a.id).Nodup := by decide
  deriving DecidableEq

namespace AdminTable

variable (t : AdminTable)

def findById (id : Nat) : Option AdminEntity := t.rows.find? fun a => a.id = id

def findByUsername (username : String) : Option AdminEntity :=
  t.rows.find? fun a => a.username = username

variable {t} in
theorem eq_of_id {a b : AdminEntity} (ha : a ∈ t.rows) (hb : b ∈ t.rows)
    (h : a.id = b.id) : a = b :=
  List.inj_on_of_nodup_map t.nodup ha hb h

end AdminTable

structure AccountTables where
  users : UserTable := {}
  admins : AdminTable := {}
  deriving DecidableEq

/-! ## Objects -/

inductive JsValue where
  | undefined
  | null
  | boolean (b : Bool)
  | number (n : Int)
  | string (s : String)
  | date (t : Instant)
  deriving DecidableEq, Repr

def JsValue.nullable {α : Type} (f : α → JsValue) : Option α → JsValue
  | some a => f a
  | none => .null

structure JsObject where
  own : List (String × JsValue)
  /-- The getters of the prototype, with the values they return. -/
  proto : List (String × JsValue) := []
  deriving DecidableEq, Repr

/-- Property access: an own property, else a getter, else `undefined`. -/
def JsObject.get (o : JsObject) (name : String) : JsValue :=
  ((o.own.lookup name).or (o.proto.lookup name)).getD .undefined

/-- What `userRepository.findById` returns for a row: every column, and the `role`
getter on the prototype. -/
def UserEntity.toObject (u : UserEntity) : JsObject where
  own := [
    ("id", .number u.id),
    ("createdAt", .date u.createdAt),
    ("updatedAt", .date u.updatedAt),
    ("isActive", .boolean u.isActive),
    ("phone", .string u.phone),
    ("firstName", .nullable .string u.firstName),
    ("lastName", .nullable .string u.lastName),
    ("gender", .nullable (fun g => .string g.value) u.gender),
    ("birthDate", .nullable .string u.birthDate),
    ("cityId", .nullable (fun n => .number n) u.cityId),
    ("address", .nullable .string u.address),
    ("photoKey", .nullable .string u.photoKey),
    ("isProfileCompleted", .boolean u.isProfileCompleted)]
  proto := [("role", .string Role.user.value)]

/-- The same for an admin; `password` is `select: false`, so a default read leaves it out. -/
def AdminEntity.toObject (a : AdminEntity) : JsObject where
  own := [
    ("id", .number a.id),
    ("createdAt", .date a.createdAt),
    ("updatedAt", .date a.updatedAt),
    ("isActive", .boolean a.isActive),
    ("passwordChangedAt", .nullable .date a.passwordChangedAt),
    ("username", .string a.username),
    ("firstName", .string a.firstName),
    ("lastName", .string a.lastName),
    ("phone", .nullable .string a.phone),
    ("photoKey", .nullable .string a.photoKey)]
  proto := [("role", .string Role.admin.value)]

inductive JsonValue where
  | null
  | boolean (b : Bool)
  | number (n : Int)
  | string (s : String)
  deriving DecidableEq, Repr

/-- The JSON object a stored text spells. -/
abbrev Document := List (String × JsonValue)

variable (toISOString : Instant → String)

/-- `undefined` is not serialised, a date is its `toISOString`. -/
def JsValue.toJson : JsValue → Option JsonValue
  | .undefined => none
  | .null => some .null
  | .boolean b => some (.boolean b)
  | .number n => some (.number n)
  | .string s => some (.string s)
  | .date t => some (.string (toISOString t))

def JsonValue.toJs : JsonValue → JsValue
  | .null => .null
  | .boolean b => .boolean b
  | .number n => .number n
  | .string s => .string s

def JsObject.stringify (o : JsObject) : Document :=
  o.own.filterMap fun p => (p.2.toJson toISOString).map (p.1, ·)

def JsObject.parse (d : Document) : JsObject := { own := d.map fun p => (p.1, p.2.toJs) }

/-- A copy that went through JSON. -/
def JsObject.jsonCopy (o : JsObject) : JsObject := .parse (o.stringify toISOString)

/-! ## What survives -/

def JsValue.jsonCopy (v : JsValue) : JsValue :=
  ((v.toJson toISOString).map JsonValue.toJs).getD .undefined

/-- A property of the copy is the copy of the own property: dates have become strings,
and what the prototype computed is `undefined`. -/
theorem JsObject.get_jsonCopy {o : JsObject} (h : ∀ p ∈ o.own, p.2 ≠ .undefined) (name : String) :
    (o.jsonCopy toISOString).get name =
      ((o.own.lookup name).map (JsValue.jsonCopy toISOString)).getD .undefined := by
  obtain ⟨own, proto⟩ := o
  simp only [JsObject.jsonCopy, JsObject.parse, JsObject.stringify, JsObject.get, List.lookup_nil,
    Option.or_none]
  induction own with
  | nil => rfl
  | cons p own ih =>
      obtain ⟨key, v⟩ := p
      have hv : v ≠ .undefined := h (key, v) (List.mem_cons_self ..)
      obtain ⟨j, hj⟩ : ∃ j, v.toJson toISOString = some j := by
        cases v with
        | undefined => exact absurd rfl hv
        | _ => exact ⟨_, rfl⟩
      rw [List.filterMap_cons_some (b := (key, j)) (by simp [hj])]
      rw [List.map_cons, List.lookup_cons, List.lookup_cons]
      cases name == key with
      | true => simp [JsValue.jsonCopy, hj]
      | false => exact ih fun p hp => h p (List.mem_cons_of_mem _ hp)

theorem JsValue.nullable_ne_undefined {α : Type} {f : α → JsValue} (h : ∀ a, f a ≠ .undefined)
    (o : Option α) : JsValue.nullable f o ≠ .undefined := by
  cases o with
  | none => exact nofun
  | some a => exact h a

theorem UserEntity.own_ne_undefined (u : UserEntity) : ∀ p ∈ u.toObject.own, p.2 ≠ .undefined := by
  simp [UserEntity.toObject, JsValue.nullable_ne_undefined]

theorem AdminEntity.own_ne_undefined (a : AdminEntity) :
    ∀ p ∈ a.toObject.own, p.2 ≠ .undefined := by
  simp [AdminEntity.toObject, JsValue.nullable_ne_undefined]

variable {toISOString}

@[simp] theorem UserEntity.get_isActive (u : UserEntity) :
    u.toObject.get "isActive" = .boolean u.isActive := rfl

@[simp] theorem UserEntity.get_isProfileCompleted (u : UserEntity) :
    u.toObject.get "isProfileCompleted" = .boolean u.isProfileCompleted := rfl

@[simp] theorem UserEntity.get_role (u : UserEntity) : u.toObject.get "role" = .string "user" := rfl

@[simp] theorem AdminEntity.get_isActive (a : AdminEntity) :
    a.toObject.get "isActive" = .boolean a.isActive := rfl

@[simp] theorem AdminEntity.get_role (a : AdminEntity) :
    a.toObject.get "role" = .string "admin" := rfl

@[simp] theorem UserEntity.jsonCopy_isActive (u : UserEntity) :
    (u.toObject.jsonCopy toISOString).get "isActive" = .boolean u.isActive := by
  rw [JsObject.get_jsonCopy toISOString u.own_ne_undefined]
  rfl

@[simp] theorem AdminEntity.jsonCopy_isActive (a : AdminEntity) :
    (a.toObject.jsonCopy toISOString).get "isActive" = .boolean a.isActive := by
  rw [JsObject.get_jsonCopy toISOString a.own_ne_undefined]
  rfl

@[simp] theorem UserEntity.jsonCopy_role (u : UserEntity) :
    (u.toObject.jsonCopy toISOString).get "role" = .undefined := by
  rw [JsObject.get_jsonCopy toISOString u.own_ne_undefined]
  rfl

@[simp] theorem AdminEntity.jsonCopy_role (a : AdminEntity) :
    (a.toObject.jsonCopy toISOString).get "role" = .undefined := by
  rw [JsObject.get_jsonCopy toISOString a.own_ne_undefined]
  rfl

end NestStarter.Accounts
