import NestStarter.Accounts.Entities

/-! # What the account endpoints accept

The DTO classes of the user endpoints. What is validated is the instance that
class-transformer made of the body; each property goes through the checks of its
decorators, and a property without decorators is refused. A DTO that passed is what
the service methods get.
-/

namespace NestStarter.Accounts

section Decorators

variable {α : Type}

/-- `@IsOptional()`: `undefined` and `null` skip the other checks. -/
def isOptional (check : JsValue → Option α) : JsValue → Option (Option (Option α))
  | .undefined => some none
  | .null => some (some none)
  | v => (check v).map fun a => some (some a)

/-- `@SkipIfUndefined()`: only `undefined` does. -/
def skipIfUndefined (check : JsValue → Option α) : JsValue → Option (Option α)
  | .undefined => some none
  | v => (check v).map some

end Decorators

/-- U+FE0E and U+FE0F, which choose how the character before them is shown. -/
def isSelector (c : Char) : Bool := c.toNat = 0xFE0E || c.toNat = 0xFE0F

/-- How often a selector follows another character. -/
def presentationSequences : List Char → Nat
  | c :: d :: rest =>
      (if !isSelector c && isSelector d then 1 else 0) + presentationSequences (d :: rest)
  | _ => 0

/-- The length that validator's `isLength` compares: a character and its selector count once. -/
def shownLength (s : String) : Nat := s.length - presentationSequences s.toList

def isLength (min max : Nat) : JsValue → Option String
  | .string s => if min ≤ shownLength s ∧ shownLength s ≤ max then some s else none
  | _ => none

/-- One alphabet, single spaces between the words. -/
def isWords (letter : Char → Bool) (s : String) : Bool :=
  (s.toList.splitOn ' ').all fun word => word ≠ [] && word.all letter

def isName (s : String) : Bool :=
  isWords (fun c => 0x0600 ≤ c.toNat && c.toNat ≤ 0x06FF) s || isWords Char.isAlpha s

def nameField (v : JsValue) : Option String := (isLength 1 100 v).filter isName

def genderField : JsValue → Option Gender
  | .string s => [Gender.male, Gender.female].find? fun g => g.value = s
  | _ => none

/-- `@IsUtcIso8601()` and `@IsPastDate()`, on the `Date` the body's string became. -/
def birthDateField (now : Instant) : JsValue → Option Instant
  | .date d => if d < now then some d else none
  | _ => none

/-- `@IsInt()` and `@Min(1)`. -/
def cityIdField : JsValue → Option Nat
  | .number n => if 1 ≤ n then some n.toNat else none
  | _ => none

def addressField : JsValue → Option String := isLength 0 512

def isValidSyriaPhone (phone : String) : Bool :=
  ["09", "+9639", "009639"].any fun head =>
    head.toList.isPrefixOf phone.toList &&
      match phone.toList.drop head.length with
      | provider :: digits =>
          ['3', '4', '5', '6', '8', '9'].contains provider && digits.length == 7 &&
            digits.all Char.isDigit
      | [] => false

/-- `@IsString()`, `@IsNotEmpty()` and `@SyriaPhone()`. -/
def phoneField : JsValue → Option String
  | .string s => if isValidSyriaPhone s then some s else none
  | _ => none

def JsObject.whitelisted (o : JsObject) (properties : List String) : Bool :=
  o.own.all fun p => properties.contains p.1

/-! ## The user DTOs -/

/-- `none` is a property left out, `some none` one sent as `null`. -/
structure UpdateUserMeDto where
  firstName : Option String := none
  lastName : Option String := none
  gender : Option (Option Gender) := none
  birthDate : Option (Option Instant) := none
  cityId : Option (Option Nat) := none
  address : Option (Option String) := none
  deriving DecidableEq, Repr

structure CompleteUserProfileDto where
  firstName : String
  lastName : String
  gender : Gender
  birthDate : Instant
  cityId : Nat
  address : Option (Option String) := none
  deriving DecidableEq, Repr

structure CreateUserDto extends CompleteUserProfileDto where
  phone : String
  deriving DecidableEq, Repr

def profileProperties : List String :=
  ["firstName", "lastName", "gender", "birthDate", "cityId", "address"]

variable (now : Instant) (body : JsObject)

def UpdateUserMeDto.validate : Option UpdateUserMeDto := do
  guard (body.whitelisted profileProperties)
  let firstName ← skipIfUndefined nameField (body.get "firstName")
  let lastName ← skipIfUndefined nameField (body.get "lastName")
  let gender ← isOptional genderField (body.get "gender")
  let birthDate ← isOptional (birthDateField now) (body.get "birthDate")
  let cityId ← isOptional cityIdField (body.get "cityId")
  let address ← isOptional addressField (body.get "address")
  return { firstName, lastName, gender, birthDate, cityId, address }

/-- The checks on the properties that the other two classes share. -/
def profileFields : Option CompleteUserProfileDto := do
  let firstName ← nameField (body.get "firstName")
  let lastName ← nameField (body.get "lastName")
  let gender ← genderField (body.get "gender")
  let birthDate ← birthDateField now (body.get "birthDate")
  let cityId ← cityIdField (body.get "cityId")
  let address ← isOptional addressField (body.get "address")
  return { firstName, lastName, gender, birthDate, cityId, address }

def CompleteUserProfileDto.validate : Option CompleteUserProfileDto := do
  guard (body.whitelisted profileProperties)
  profileFields now body

def CreateUserDto.validate : Option CreateUserDto := do
  guard (body.whitelisted ("phone" :: profileProperties))
  let phone ← phoneField (body.get "phone")
  let profile ← profileFields now body
  return { profile with phone }

end NestStarter.Accounts
