import NestStarter.Accounts.Dto

/-! # The passwords of admins

`password.util`, the hook that hashes a password before its row is saved, and the
changes of `PATCH /admin/me`. bcrypt is a parameter: `hashPassword` takes the salt it
would draw.
-/

namespace NestStarter.Accounts

/-- What `trim` strips: white space and line terminators. -/
def isWhiteSpace (c : Char) : Bool :=
  [0x09, 0x0A, 0x0B, 0x0C, 0x0D, 0x20, 0xA0, 0x1680, 0x2028, 0x2029, 0x202F, 0x205F, 0x3000,
    0xFEFF].contains c.toNat || (0x2000 ≤ c.toNat && c.toNat ≤ 0x200A)

def trim (s : String) : String :=
  String.ofList ((s.toList.dropWhile isWhiteSpace).reverse.dropWhile isWhiteSpace).reverse

/-- `BCRYPT_HASH_PATTERN`: how the text begins. -/
def isPasswordHashed (value : String) : Bool :=
  match value.toList with
  | '$' :: '2' :: version :: '$' :: cost :: cost' :: '$' :: _ =>
      ['a', 'b', 'y'].contains version && cost.isDigit && cost'.isDigit
  | _ => false

/-- What bcrypt reads of a password: 72 bytes of UTF-8. -/
def bcryptBytes (password : String) : List UInt8 :=
  (password.toList.flatMap String.utf8EncodeChar).take 72

/-- What is documented of bcrypt: a hash begins as hashes do, and a password matches the
hash of another if and only if bcrypt reads the same bytes of both. -/
structure Documented (hashPassword : String → String → String)
    (comparePassword : String → String → Bool) : Prop where
  hashed : ∀ salt p, isPasswordHashed (hashPassword salt p) = true
  compare : ∀ salt p q,
    comparePassword q (hashPassword salt p) = true ↔ bcryptBytes q = bcryptBytes p

/-- The bcrypt hashes of the passwords in the example runs, under one salt; other texts are
kept as they are behind a cost. -/
def hashSample (_salt password : String) : String :=
  if bcryptBytes password = bcryptBytes "correct-horse" then
    "$2b$10$abcdefghijklmnopqrstuuf4yQswfQRuOxajohDXdzREFVDuc.Vdy"
  else if bcryptBytes password = bcryptBytes "another-horse" then
    "$2b$10$abcdefghijklmnopqrstuubO6NM/rkaZSka/SGHj51QNKhFp9WQLS"
  else "$2y$10$" ++ password

def unhashSample (hash : String) : String :=
  if hash = "$2b$10$abcdefghijklmnopqrstuuf4yQswfQRuOxajohDXdzREFVDuc.Vdy" then "correct-horse"
  else if hash = "$2b$10$abcdefghijklmnopqrstuubO6NM/rkaZSka/SGHj51QNKhFp9WQLS" then "another-horse"
  else String.ofList (hash.toList.drop 7)

def compareSample (password hash : String) : Bool :=
  bcryptBytes password == bcryptBytes (unhashSample hash)

theorem bcryptBytes_unhashSample (salt p : String) :
    bcryptBytes (unhashSample (hashSample salt p)) = bcryptBytes p := by
  unfold hashSample
  split
  · rw [unhashSample, if_pos rfl]
    exact Eq.symm ‹_›
  · split
    · rw [unhashSample, if_neg (by decide), if_pos rfl]
      exact Eq.symm ‹_›
    · have hversion : ∀ hash : String, hash.toList[2]? = some 'b' → "$2y$10$" ++ p ≠ hash := by
        rintro hash hthird rfl
        simp at hthird
      rw [unhashSample, if_neg (hversion _ (by decide)), if_neg (hversion _ (by decide))]
      simp

theorem documented_sample : Documented hashSample compareSample where
  hashed salt p := by
    unfold hashSample
    split
    · decide
    · split
      · decide
      · simp [isPasswordHashed]
  compare salt p q := by
    rw [compareSample, bcryptBytes_unhashSample]
    exact beq_iff_eq

section Hook

variable (hashPassword : String → String → String)

def BasePasswordUserEntity.hashPasswordOnSave (now : Instant) (salt : String)
    (user : BasePasswordUserEntity) : BasePasswordUserEntity :=
  if user.password = "" ∨ isPasswordHashed user.password = true then user
  else
    { user with
      password := hashPassword salt (trim user.password), passwordChangedAt := some now }

def AdminEntity.hashPasswordOnSave (now : Instant) (salt : String) (admin : AdminEntity) :
    AdminEntity :=
  { admin with
    toBasePasswordUserEntity :=
      admin.toBasePasswordUserEntity.hashPasswordOnSave hashPassword now salt }

variable {hashPassword} {now : Instant} {salt : String} {admin : AdminEntity}

theorem AdminEntity.hashPasswordOnSave_of_hashed (h : isPasswordHashed admin.password = true) :
    admin.hashPasswordOnSave hashPassword now salt = admin := by
  simp [AdminEntity.hashPasswordOnSave, BasePasswordUserEntity.hashPasswordOnSave, h]

theorem AdminEntity.password_hashPasswordOnSave (hempty : admin.password ≠ "")
    (h : isPasswordHashed admin.password = false) :
    (admin.hashPasswordOnSave hashPassword now salt).password =
      hashPassword salt (trim admin.password) := by
  simp [AdminEntity.hashPasswordOnSave, BasePasswordUserEntity.hashPasswordOnSave, h, hempty]

/-- What the hook leaves as it is: a hash, or no password at all. -/
def StoredPassword (password : String) : Prop := password = "" ∨ isPasswordHashed password = true

theorem AdminEntity.hashPasswordOnSave_of_stored (h : StoredPassword admin.password) :
    admin.hashPasswordOnSave hashPassword now salt = admin := by
  have hkeeps : admin.toBasePasswordUserEntity.hashPasswordOnSave hashPassword now salt =
      admin.toBasePasswordUserEntity := if_pos h
  unfold AdminEntity.hashPasswordOnSave
  rw [hkeeps]

/-- Every admin that is saved has a stored password. -/
theorem AdminEntity.storedPassword_hashPasswordOnSave
    (hhashed : ∀ salt p, isPasswordHashed (hashPassword salt p) = true) :
    StoredPassword (admin.hashPasswordOnSave hashPassword now salt).password := by
  by_cases h : StoredPassword admin.password
  · rw [hashPasswordOnSave_of_stored h]
    exact h
  · obtain ⟨hempty, hraw⟩ := not_or.1 h
    rw [password_hashPasswordOnSave hempty (Bool.eq_false_iff.2 hraw)]
    exact Or.inr (hhashed _ _)

@[simp] theorem AdminEntity.id_hashPasswordOnSave :
    (admin.hashPasswordOnSave hashPassword now salt).id = admin.id := by
  unfold AdminEntity.hashPasswordOnSave BasePasswordUserEntity.hashPasswordOnSave
  split <;> rfl

end Hook

/-! ## `UpdateMeDto` -/

structure UpdateMeDto where
  firstName : Option String := none
  lastName : Option String := none
  phone : Option (Option String) := none
  username : Option String := none
  password : Option String := none
  currentPassword : Option String := none
  deriving DecidableEq, Repr

def nonEmptyField : JsValue → Option String
  | .string s => if s ≠ "" then some s else none
  | _ => none

def UpdateMeDto.isChangingCredentials (dto : UpdateMeDto) : Bool :=
  dto.username.isSome || dto.password.isSome

/-- `currentPassword` is checked, and read, only when credentials change. -/
def UpdateMeDto.validate (body : JsObject) : Option UpdateMeDto := do
  guard (body.whitelisted
    ["firstName", "lastName", "phone", "username", "password", "currentPassword"])
  let firstName ← skipIfUndefined nameField (body.get "firstName")
  let lastName ← skipIfUndefined nameField (body.get "lastName")
  let phone ← isOptional phoneField (body.get "phone")
  let username ← skipIfUndefined (isLength 3 64) (body.get "username")
  let password ← skipIfUndefined (isLength 8 128) (body.get "password")
  let dto : UpdateMeDto := { firstName, lastName, phone, username, password }
  if dto.isChangingCredentials then
    let currentPassword ← nonEmptyField (body.get "currentPassword")
    return { dto with currentPassword := some currentPassword }
  else return dto

/-- An accepted password is shown with 8 to 128 characters. -/
theorem UpdateMeDto.length_password {body : JsObject} {dto : UpdateMeDto} {p : String}
    (h : UpdateMeDto.validate body = some dto) (hp : dto.password = some p) :
    8 ≤ shownLength p ∧ shownLength p ≤ 128 := by
  obtain ⟨-, -, h⟩ := Option.bind_eq_some_iff.1 h
  simp only [Option.bind_eq_bind, Option.bind_eq_some_iff] at h
  obtain ⟨firstName, -, lastName, -, phone, -, username, -, password, hpassword, h⟩ := h
  have hdto : dto.password = password := by
    split at h
    · obtain ⟨currentPassword, -, heq⟩ := Option.bind_eq_some_iff.1 h
      cases heq
      rfl
    · cases h
      rfl
  rw [← hdto, hp] at hpassword
  cases hv : body.get "password" with
  | string s =>
      rw [hv] at hpassword
      simp only [skipIfUndefined, isLength, Option.map_eq_some_iff, Option.some.injEq,
        Option.ite_none_right_eq_some] at hpassword
      obtain ⟨_, ⟨hlength, rfl⟩, rfl⟩ := hpassword
      exact hlength
  | _ => simp [hv, skipIfUndefined, isLength] at hpassword

def AdminEntity.merge (admin : AdminEntity) (dto : UpdateMeDto) : AdminEntity :=
  { admin with
    firstName := dto.firstName.getD admin.firstName
    lastName := dto.lastName.getD admin.lastName
    phone := dto.phone.getD admin.phone
    username := dto.username.getD admin.username
    password := dto.password.getD admin.password }

namespace AdminTable

/-- `save` of a loaded admin. The entity carries the password, which the read of `save`
leaves out, so there is always a column to update. -/
def save (t : AdminTable) (admin : AdminEntity) (now : Instant) : AdminTable where
  rows := t.rows.map fun row => if row.id = admin.id then { admin with updatedAt := now } else row
  nodup := by
    have hid : ∀ row : AdminEntity,
        (if row.id = admin.id then { admin with updatedAt := now } else row).id = row.id := by
      intro row
      split
      · exact ‹row.id = admin.id›.symm
      · rfl
    have hmap : ((t.rows.map fun row =>
        if row.id = admin.id then { admin with updatedAt := now } else row).map fun a => a.id) =
        t.rows.map fun a => a.id := by
      rw [List.map_map]
      exact List.map_congr_left fun row _ => hid row
    rw [hmap]
    exact t.nodup

end AdminTable

end NestStarter.Accounts
