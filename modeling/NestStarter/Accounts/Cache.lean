import Mathlib.Data.List.Basic
import Mathlib.Logic.Function.Basic
import NestStarter.Accounts.Entities

/-! # The cache

`CacheService` over its two drivers. Redis is a map from keys to JSON texts that
expire; a text is represented by the document it spells.
-/

namespace NestStarter.Accounts

structure Entry where
  value : Document
  expiresAt : Instant
  deriving DecidableEq, Repr

abbrev Redis := String → Option Entry

namespace Redis

def empty : Redis := fun _ => none

def get (r : Redis) (now : Instant) (key : String) : Option Document :=
  (r key).bind fun e => if now < e.expiresAt then some e.value else none

def setEx (r : Redis) (now : Instant) (key : String) (value : Document) (seconds : Nat) : Redis :=
  Function.update r key (some ⟨value, now + seconds * 1000⟩)

def unlink (r : Redis) (key : String) : Redis := Function.update r key none

variable {r : Redis} {now now' : Instant} {key key' : String} {value : Document} {seconds : Nat}

@[simp] theorem get_empty : empty.get now key = none := rfl

theorem get_setEx_self : (r.setEx now key value seconds).get now' key =
    if now' < now + seconds * 1000 then some value else none := by
  simp [get, setEx]

@[simp] theorem get_setEx_of_ne (h : key' ≠ key) :
    (r.setEx now key value seconds).get now' key' = r.get now' key' := by
  simp [get, setEx, Function.update_of_ne h]

@[simp] theorem get_unlink_self : (r.unlink key).get now key = none := by simp [get, unlink]

@[simp] theorem get_unlink_of_ne (h : key' ≠ key) :
    (r.unlink key).get now key' = r.get now key' := by
  simp [get, unlink, Function.update_of_ne h]

theorem get_mono (hnow : now ≤ now') (h : r.get now' key = some value) :
    r.get now key = some value := by
  unfold get at h ⊢
  cases he : r key with
  | none => simp [he] at h
  | some e =>
      by_cases hlt : now' < e.expiresAt
      · have hlt' : now < e.expiresAt := Int.lt_of_le_of_lt hnow hlt
        simpa [he, hlt, hlt'] using h
      · simp [he, hlt] at h

end Redis

def authUser (role : String) (userId : Nat) : String :=
  "auth:user:" ++ role ++ ":" ++ toString userId

def authUserSeconds : Nat := 300

theorem toDigits_inj {m n : Nat} (h : Nat.toDigits 10 m = Nat.toDigits 10 n) : m = n := by
  have hvalue := congrArg (Nat.ofDigitChars 10 · 0) h
  simpa [Nat.ofDigitChars_toDigits] using hvalue

theorem authUser_inj {role role' : Role} {id id' : Nat}
    (h : authUser role.value id = authUser role'.value id') : role = role' ∧ id = id' := by
  have hlist := congrArg String.toList h
  cases role <;> cases role' <;> simp [authUser, Role.value] at hlist
  · exact ⟨rfl, toDigits_inj hlist⟩
  · exact ⟨rfl, toDigits_inj hlist⟩

/-! ## The service -/

/-- `CACHE_DRIVER`, with the key prefix of the Redis driver. -/
inductive CacheDriver where
  | noop
  | redis (keyPrefix : String)
  deriving DecidableEq, Repr

def prefixed (keyPrefix key : String) : String :=
  (if keyPrefix.toList.getLast? = some ':' then keyPrefix else keyPrefix ++ ":") ++ key

theorem prefixed_inj {keyPrefix key key' : String}
    (h : prefixed keyPrefix key = prefixed keyPrefix key') :
    key = key' := by
  have hlist := congrArg String.toList h
  simp only [prefixed, String.toList_append] at hlist
  exact String.toList_inj.1 (List.append_cancel_left hlist)

variable (toISOString : Instant → String)

namespace CacheDriver

def get (driver : CacheDriver) (now : Instant) (key : String) (r : Redis) : Option JsObject :=
  match driver with
  | .noop => none
  | .redis keyPrefix => (r.get now (prefixed keyPrefix key)).map JsObject.parse

def set (driver : CacheDriver) (now : Instant) (key : String) (value : JsObject) (ttlSeconds : Nat)
    (r : Redis) : Redis :=
  match driver with
  | .noop => r
  | .redis keyPrefix =>
      r.setEx now (prefixed keyPrefix key) (value.stringify toISOString) ttlSeconds

def delete (driver : CacheDriver) (key : String) (r : Redis) : Redis :=
  match driver with
  | .noop => r
  | .redis keyPrefix => r.unlink (prefixed keyPrefix key)

variable {toISOString} {driver : CacheDriver} {now now' : Instant} {key key' : String}
  {value : JsObject} {ttlSeconds : Nat} {r : Redis}

@[simp] theorem get_noop : CacheDriver.noop.get now key r = none := rfl

@[simp] theorem get_empty : driver.get now key Redis.empty = none := by cases driver <;> rfl

/-- What is read back is a JSON copy of what was written. -/
theorem get_set_self {o : JsObject}
    (h : driver.get now' key (driver.set toISOString now key value ttlSeconds r) = some o) :
    o = value.jsonCopy toISOString := by
  cases driver with
  | noop => cases h
  | redis keyPrefix =>
      simp only [get, set, Redis.get_setEx_self] at h
      split at h
      · exact (Option.some.inj h).symm
      · cases h

@[simp] theorem get_set_of_ne (h : key' ≠ key) :
    driver.get now' key' (driver.set toISOString now key value ttlSeconds r) =
      driver.get now' key' r := by
  cases driver with
  | noop => rfl
  | redis keyPrefix => simp [get, set, Redis.get_setEx_of_ne (mt prefixed_inj h)]

@[simp] theorem get_delete_self : driver.get now key (driver.delete key r) = none := by
  cases driver <;> simp [get, delete]

@[simp] theorem get_delete_of_ne (h : key' ≠ key) :
    driver.get now key' (driver.delete key r) = driver.get now key' r := by
  cases driver with
  | noop => rfl
  | redis keyPrefix => simp [get, delete, Redis.get_unlink_of_ne (mt prefixed_inj h)]

theorem get_mono {o : JsObject} (hnow : now ≤ now') (h : driver.get now' key r = some o) :
    driver.get now key r = some o := by
  cases driver with
  | noop => cases h
  | redis keyPrefix =>
      obtain ⟨d, hd, rfl⟩ := Option.map_eq_some_iff.1 h
      simp [get, Redis.get_mono hnow hd]

end CacheDriver

/-- `CacheService.getOrSet`; `factory` reads the database. -/
def getOrSet (driver : CacheDriver) (now : Instant) (key : String)
    (factory : Service Redis (Option JsObject)) (ttlSeconds : Nat) :
    Service Redis (Option JsObject) := do
  let cached ← Service.statement fun r => (driver.get now key r, r)
  if cached.isSome then return cached
  let fresh ← factory
  match fresh with
  | some value => Service.statement fun r => ((), driver.set toISOString now key value ttlSeconds r)
  | none => pure ()
  return fresh

variable {toISOString}

theorem exec_getOrSet (driver : CacheDriver) (now : Instant) (key : String)
    (fresh : Option JsObject) (ttlSeconds : Nat) (r : Redis) :
    Service.exec (getOrSet toISOString driver now key (pure fresh) ttlSeconds) r =
      match driver.get now key r, fresh with
      | some value, _ => (.ok (some value), r)
      | none, some value => (.ok (some value), driver.set toISOString now key value ttlSeconds r)
      | none, none => (.ok none, r) := by
  cases hget : driver.get now key r with
  | some value => simp [getOrSet, hget]
  | none => cases fresh <;> simp [getOrSet, hget]

end NestStarter.Accounts
