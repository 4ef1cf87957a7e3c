import Mathlib.Algebra.Ring.Nat
import NestStarter.Accounts.Provisioning
import NestStarter.Areas.Entities
import NestStarter.Core.Script

/-! # The tables of the catalogue

Cities, the areas in them and the users who live in them, with the constraints that the
migrations declare. A statement that would break one fails with its SQLSTATE and writes nothing.
-/

namespace NestStarter.Catalog

open NestStarter.Core
open NestStarter.Areas (AreaEntity)
open NestStarter.Accounts.Provisioning (Failure uniqueViolation)

structure CityEntity where
  id : Nat
  nameEn : String
  nameAr : String
  deriving DecidableEq, Repr

/-- The columns of a user that the catalogue and its callers read. -/
structure UserRow where
  id : Nat
  phone : String
  cityId : Option Nat
  isProfileCompleted : Bool
  deriving DecidableEq, Repr

structure Rows where
  cities : List CityEntity := []
  areas : List AreaEntity := []
  users : List UserRow := []
  deriving DecidableEq

def CleanText (s : String) : Prop := Char.ofNat 0 ∉ s.toList

instance (s : String) : Decidable (CleanText s) := inferInstanceAs (Decidable (¬ _))

namespace Rows

variable (r : Rows)

/-- No text of the database holds the character U+0000. -/
def Clean : Prop :=
  (∀ c ∈ r.cities, CleanText c.nameEn ∧ CleanText c.nameAr) ∧
    (∀ a ∈ r.areas, CleanText a.nameEn ∧ CleanText a.nameAr) ∧
      ∀ u ∈ r.users, CleanText u.phone

def HasCity (cityId : Nat) : Prop := ∃ c ∈ r.cities, c.id = cityId

instance (cityId : Nat) : Decidable (r.HasCity cityId) := List.decidableBEx _ _

/-- The primary keys and the unique indexes of the cities. -/
def CitiesUnique : Prop :=
  (r.cities.map CityEntity.id).Nodup ∧ (r.cities.map CityEntity.nameEn).Nodup ∧
    (r.cities.map CityEntity.nameAr).Nodup

def AreasUnique : Prop :=
  (r.areas.map AreaEntity.id).Nodup ∧ (r.areas.map AreaEntity.keyEn).Nodup ∧
    (r.areas.map AreaEntity.keyAr).Nodup

def UsersUnique : Prop :=
  (r.users.map UserRow.id).Nodup ∧ (r.users.map UserRow.phone).Nodup

/-- `FK_areas_city_id` and `FK_users_city_id`. -/
def References : Prop :=
  (∀ a ∈ r.areas, r.HasCity a.cityId) ∧ ∀ u ∈ r.users, ∀ cityId ∈ u.cityId, r.HasCity cityId

def Unique : Prop := r.CitiesUnique ∧ r.AreasUnique ∧ r.UsersUnique

/-- The type of the references is `integer`. -/
def Ranges : Prop :=
  (∀ a ∈ r.areas, a.cityId ≤ 2147483647) ∧
    ∀ u ∈ r.users, ∀ cityId ∈ u.cityId, cityId ≤ 2147483647

instance : Decidable r.Clean := by
  unfold Clean
  infer_instance

instance : Decidable r.Unique := by
  unfold Unique CitiesUnique AreasUnique UsersUnique
  infer_instance

instance : Decidable r.References := by
  unfold References
  infer_instance

instance : Decidable r.Ranges := by
  unfold Ranges
  infer_instance

end Rows

/-- The database: no constraint is ever broken. -/
structure Tables where
  rows : Rows
  clean : rows.Clean
  ranges : rows.Ranges
  unique : rows.Unique
  references : rows.References
  /-- The next values of the sequences behind the primary keys. -/
  nextCity : Nat
  nextArea : Nat
  nextUser : Nat

def notNullViolation : Failure := .queryFailed "23502"

def foreignKeyViolation : Failure := .queryFailed "23503"

/-- A number that the type `integer` does not hold. -/
def outOfRange : Failure := .queryFailed "22003"

/-- A text that is no number. -/
def invalidInteger : Failure := .queryFailed "22P02"

/-- A text that the server does not take. -/
def invalidText : Failure := .queryFailed "22021"

def tooLong : Failure := .queryFailed "22001"

inductive Param where
  | int (n : Nat)
  | text (s : String)
  deriving DecidableEq, Repr

/-- The database takes the parameter. -/
def Param.Fits : Param → Prop
  | .int n => n ≤ 2147483647
  | .text s => CleanText s

instance : (p : Param) → Decidable p.Fits
  | .int n => inferInstanceAs (Decidable (n ≤ 2147483647))
  | .text s => inferInstanceAs (Decidable (CleanText s))

def Param.failure : Param → Failure
  -- a number from 10²¹ on is sent with an exponent
  | .int n => if n < 10 ^ 21 then outOfRange else invalidInteger
  | .text _ => invalidText

/-- What a `varchar(n)` stores of a text: blanks past its end are cut off. -/
def varchar (n : Nat) (s : String) : Option String :=
  if s.length ≤ n then some s
  else if (s.toList.drop n).all (· = ' ') then some (String.ofList (s.toList.take n))
  else none

theorem varchar_of_short {n : Nat} {s : String} (h : s.length ≤ n) : varchar n s = some s :=
  if_pos h

theorem varchar_ne {n : Nat} {s : String} (h : n < s.length) : varchar n s ≠ some s := by
  unfold varchar
  rw [if_neg (Nat.not_le.2 h)]
  split
  · intro heq
    have hlength := congrArg String.length (Option.some.inj heq)
    rw [String.length_ofList, List.length_take, String.length_toList] at hlength
    omega
  · simp

/-! ## Statements -/

abbrev CatalogM (α : Type) := Call Tables Failure α

namespace Tables

variable (t : Tables)

/-- What a write comes to: the unique indexes are looked at row by row, the references at the end
of the statement. -/
def write (rows : Rows) : Except Failure Unit × Tables :=
  if hclean : rows.Clean then
    if hranges : rows.Ranges then
      if hunique : rows.Unique then
        if href : rows.References then
          (.ok (), { t with
            rows, clean := hclean, ranges := hranges, unique := hunique, references := href })
        else (.error foreignKeyViolation, t)
      else (.error uniqueViolation, t)
    else (.error outOfRange, t)
  else (.error invalidText, t)

variable {t}

theorem write_of_consistent {rows : Rows} (hclean : rows.Clean) (hranges : rows.Ranges)
    (hunique : rows.Unique) (href : rows.References) :
    t.write rows = (.ok (), { t with
      rows, clean := hclean, ranges := hranges, unique := hunique, references := href }) := by
  simp [write, hclean, hranges, hunique, href]

theorem write_cases (t : Tables) {rows : Rows} (hclean : rows.Clean) (hranges : rows.Ranges) :
    (t.write rows).1 = .ok () ∨
      ((t.write rows).1 = .error uniqueViolation ∧ ¬ rows.Unique) ∨
      (t.write rows).1 = .error foreignKeyViolation ∧ ¬ rows.References := by
  unfold write
  rw [dif_pos hclean, dif_pos hranges]
  split
  · next hunique =>
    split
    · exact Or.inl rfl
    · next href => exact Or.inr (Or.inr ⟨rfl, href⟩)
  · next hunique => exact Or.inr (Or.inl ⟨rfl, hunique⟩)

variable (t)

/-- The id of a new row, the given one or the next of the sequence, and what is left. -/
def drawCity : Option Nat → Nat × Tables
  | some id => (id, t)
  | none => (t.nextCity, { t with nextCity := t.nextCity + 1 })

def drawArea : Option Nat → Nat × Tables
  | some id => (id, t)
  | none => (t.nextArea, { t with nextArea := t.nextArea + 1 })

def drawUser : Option Nat → Nat × Tables
  | some id => (id, t)
  | none => (t.nextUser, { t with nextUser := t.nextUser + 1 })

@[simp] theorem rows_drawCity (id : Option Nat) : (t.drawCity id).2.rows = t.rows := by
  cases id <;> rfl

@[simp] theorem rows_drawArea (id : Option Nat) : (t.drawArea id).2.rows = t.rows := by
  cases id <;> rfl

@[simp] theorem rows_drawUser (id : Option Nat) : (t.drawUser id).2.rows = t.rows := by
  cases id <;> rfl

end Tables

/-- A statement with its parameters, which the server reads first. -/
def execute {α : Type} (params : List Param) (f : Tables → Except Failure α × Tables) :
    CatalogM α :=
  Call.statement fun t =>
    match params.find? fun p => ¬ p.Fits with
    | some p => (.error p.failure, t)
    | none => f t

def select {α : Type} (params : List Param) (f : Rows → α) : CatalogM α :=
  execute params fun t => (.ok (f t.rows), t)

theorem exec_execute_of_not_fits {α : Type} {params : List Param} {p : Param} (hp : p ∈ params)
    (h : ¬ p.Fits) (f : Tables → Except Failure α × Tables) (t : Tables) :
    ∃ q ∈ params, Call.exec (execute params f) t = (.error q.failure, t) := by
  rw [execute, Call.exec_statement]
  cases hfind : params.find? fun p => ¬ p.Fits with
  | some q => exact ⟨q, List.mem_of_find?_eq_some hfind, rfl⟩
  | none => exact absurd h (by simpa using List.find?_eq_none.1 hfind p hp)

theorem exec_execute {α : Type} {params : List Param}
    (h : ∀ p ∈ params, p.Fits) (f : Tables → Except Failure α × Tables) (t : Tables) :
    Call.exec (execute params f) t = f t := by
  have hfind : (params.find? fun p => ¬ p.Fits) = none := by
    simpa [List.find?_eq_none] using h
  rw [execute, Call.exec_statement, hfind]

theorem exec_select {α : Type} {params : List Param} (h : ∀ p ∈ params, p.Fits) (f : Rows → α)
    (t : Tables) : Call.exec (select params f) t = (.ok (f t.rows), t) := by
  rw [select, exec_execute h]

end NestStarter.Catalog
