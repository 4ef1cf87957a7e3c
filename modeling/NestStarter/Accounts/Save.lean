import NestStarter.Accounts.Dto

/-! # Saving a loaded user

`mergeAndSave` copies the changes onto the loaded entity and saves it. TypeORM's
`save` reads the row again and updates the columns in which the entity differs from
it, whether the changes name them or not; `updated_at` is set to the time, unless the
entity's own value is among those columns.
-/

namespace NestStarter.Accounts

theorem JsValue.nullable_inj {α : Type} {f : α → JsValue} (hf : Function.Injective f)
    (hnull : ∀ a, f a ≠ .null) : Function.Injective (JsValue.nullable f) := by
  intro a b h
  cases a with
  | none =>
      cases b with
      | none => rfl
      | some b => exact absurd h.symm (hnull b)
  | some a =>
      cases b with
      | none => exact absurd h (hnull a)
      | some b => exact congrArg some (hf h)

theorem Gender.value_inj : Function.Injective Gender.value := by
  intro g g' h
  cases g <;> cases g' <;> first | rfl | exact absurd h (by decide)

/-- The columns of `users` besides the primary key. -/
inductive Column where
  | createdAt
  | updatedAt
  | isActive
  | phone
  | firstName
  | lastName
  | gender
  | birthDate
  | cityId
  | address
  | photoKey
  | isProfileCompleted
  deriving DecidableEq, Repr

def columns : List Column :=
  [.createdAt, .updatedAt, .isActive, .phone, .firstName, .lastName, .gender, .birthDate, .cityId,
    .address, .photoKey, .isProfileCompleted]

theorem mem_columns (c : Column) : c ∈ columns := by
  cases c <;> decide

namespace UserEntity

def column (u : UserEntity) : Column → JsValue
  | .createdAt => .date u.createdAt
  | .updatedAt => .date u.updatedAt
  | .isActive => .boolean u.isActive
  | .phone => .string u.phone
  | .firstName => .nullable .string u.firstName
  | .lastName => .nullable .string u.lastName
  | .gender => .nullable (fun g => .string g.value) u.gender
  | .birthDate => .nullable .string u.birthDate
  | .cityId => .nullable (fun n : Nat => .number n) u.cityId
  | .address => .nullable .string u.address
  | .photoKey => .nullable .string u.photoKey
  | .isProfileCompleted => .boolean u.isProfileCompleted

/-- The row with one column taken from `user`. -/
def put (row user : UserEntity) : Column → UserEntity
  | .createdAt => { row with createdAt := user.createdAt }
  | .updatedAt => { row with updatedAt := user.updatedAt }
  | .isActive => { row with isActive := user.isActive }
  | .phone => { row with phone := user.phone }
  | .firstName => { row with firstName := user.firstName }
  | .lastName => { row with lastName := user.lastName }
  | .gender => { row with gender := user.gender }
  | .birthDate => { row with birthDate := user.birthDate }
  | .cityId => { row with cityId := user.cityId }
  | .address => { row with address := user.address }
  | .photoKey => { row with photoKey := user.photoKey }
  | .isProfileCompleted => { row with isProfileCompleted := user.isProfileCompleted }

@[simp] theorem column_put_self (row user : UserEntity) (c : Column) :
    (row.put user c).column c = user.column c := by
  cases c <;> rfl

theorem column_put_of_ne (row user : UserEntity) {c d : Column} (h : d ≠ c) :
    (row.put user c).column d = row.column d := by
  cases c <;> cases d <;> first | rfl | exact absurd rfl h

/-- Both rows have the same flag when the column is the same. -/
theorem isActive_eq_of_column {u v : UserEntity} (h : u.column .isActive = v.column .isActive) :
    u.isActive = v.isActive :=
  JsValue.boolean.inj h

/-- The primary key and the columns are the whole row. -/
theorem eq_of_column {u v : UserEntity} (hid : u.id = v.id) (h : ∀ c, u.column c = v.column c) :
    u = v := by
  have hstring := JsValue.nullable_inj (f := JsValue.string) (fun _ _ => JsValue.string.inj) nofun
  have hgender := JsValue.nullable_inj (f := fun g : Gender => .string g.value)
    (fun a b hab => Gender.value_inj (JsValue.string.inj hab)) nofun
  have hcity := JsValue.nullable_inj (f := fun n : Nat => .number n)
    (fun a b hab => Int.ofNat_inj.1 (JsValue.number.inj hab)) nofun
  obtain ⟨⟨id, createdAt, updatedAt, isActive⟩, phone, firstName, lastName, gender, birthDate,
    cityId, address, photoKey, isProfileCompleted⟩ := u
  obtain ⟨⟨id', createdAt', updatedAt', isActive'⟩, phone', firstName', lastName', gender',
    birthDate', cityId', address', photoKey', isProfileCompleted'⟩ := v
  obtain rfl : id = id' := hid
  obtain rfl : createdAt = createdAt' := JsValue.date.inj (h .createdAt)
  obtain rfl : updatedAt = updatedAt' := JsValue.date.inj (h .updatedAt)
  obtain rfl : isActive = isActive' := JsValue.boolean.inj (h .isActive)
  obtain rfl : phone = phone' := JsValue.string.inj (h .phone)
  obtain rfl : firstName = firstName' := hstring (h .firstName)
  obtain rfl : lastName = lastName' := hstring (h .lastName)
  obtain rfl : gender = gender' := hgender (h .gender)
  obtain rfl : birthDate = birthDate' := hstring (h .birthDate)
  obtain rfl : cityId = cityId' := hcity (h .cityId)
  obtain rfl : address = address' := hstring (h .address)
  obtain rfl : photoKey = photoKey' := hstring (h .photoKey)
  obtain rfl : isProfileCompleted = isProfileCompleted' :=
    JsValue.boolean.inj (h .isProfileCompleted)
  rfl

/-! ## `save` -/

/-- The columns `save` finds changed when it reads the row again. -/
def changedColumns (row user : UserEntity) : List Column :=
  columns.filter fun c => user.column c ≠ row.column c

theorem mem_changedColumns {row user : UserEntity} {c : Column} :
    c ∈ row.changedColumns user ↔ user.column c ≠ row.column c := by
  simp [changedColumns, mem_columns]

def update (row user : UserEntity) (changed : List Column) (now : Instant) : UserEntity :=
  if changed = [] then row
  else
    let row := changed.foldl (fun row c => row.put user c) row
    if .updatedAt ∈ changed then row else { row with updatedAt := now }

theorem column_foldl_put (user : UserEntity) (changed : List Column) (row : UserEntity)
    (c : Column) :
    (changed.foldl (fun row c => row.put user c) row).column c =
      if c ∈ changed then user.column c else row.column c := by
  induction changed generalizing row with
  | nil => rfl
  | cons d changed ih =>
      rw [List.foldl_cons, ih]
      by_cases hc : c ∈ changed
      · simp [hc]
      · by_cases hcd : c = d
        · subst hcd
          simp [hc]
        · simp [hc, hcd, column_put_of_ne _ _ hcd]

/-- What the `UPDATE` leaves in every column but `updated_at`. -/
theorem column_update (row user : UserEntity) (changed : List Column) (now : Instant) {c : Column}
    (hc : c ≠ .updatedAt) :
    (row.update user changed now).column c =
      if c ∈ changed then user.column c else row.column c := by
  unfold update
  split
  · simp [*]
  · have hupdated : ∀ r : UserEntity, ({ r with updatedAt := now } : UserEntity).column c =
        r.column c := fun r => by
      cases c <;> first | rfl | exact absurd rfl hc
    rw [← column_foldl_put user changed row c]
    split
    · rfl
    · exact hupdated _

/-- `updated_at` is the time of the `UPDATE` when it is not among the columns. -/
theorem updatedAt_update {row user : UserEntity} {changed : List Column} (now : Instant)
    (hc : .updatedAt ∉ changed) :
    (row.update user changed now).updatedAt = row.updatedAt ∨
      (row.update user changed now).updatedAt = now := by
  unfold update
  split
  · exact Or.inl rfl
  · exact Or.inr rfl

theorem id_update (row user : UserEntity) (changed : List Column) (now : Instant) :
    (row.update user changed now).id = row.id := by
  have hput : ∀ (r : UserEntity) c, (r.put user c).id = r.id := fun r c => by cases c <;> rfl
  have hfold : ∀ r : UserEntity, (changed.foldl (fun r c => r.put user c) r).id = r.id := by
    induction changed with
    | nil => exact fun r => rfl
    | cons c changed ih => exact fun r => (ih (r.put user c)).trans (hput r c)
  unfold update
  split
  · rfl
  · split
    · exact hfold row
    · exact hfold row

/-- With nothing between the read and the `UPDATE`, and nothing since the entity was loaded,
the entity is what is stored. -/
theorem update_changedColumns {row user : UserEntity} (now : Instant) (hid : user.id = row.id)
    (hupdated : user.updatedAt = row.updatedAt) :
    row.update user (row.changedColumns user) now = saveUser row user now := by
  have hnot : Column.updatedAt ∉ row.changedColumns user := fun hmem =>
    mem_changedColumns.1 hmem (congrArg JsValue.date hupdated)
  unfold saveUser
  by_cases hsame : user = row
  · have hnil : row.changedColumns user = [] := by simp [changedColumns, hsame]
    rw [if_pos hsame, update, if_pos hnil]
  · have hchanged : row.changedColumns user ≠ [] := fun hnil =>
      hsame (eq_of_column hid fun c => by
        by_contra hc
        have hmem := mem_changedColumns.2 hc
        rw [hnil] at hmem
        cases hmem)
    rw [if_neg hsame]
    refine eq_of_column ((id_update ..).trans hid.symm) fun c => ?_
    by_cases hc : c = .updatedAt
    · subst hc
      rw [update, if_neg hchanged]
      simp only [hnot, if_false]
      rfl
    · have hnow : ({ user with updatedAt := now } : UserEntity).column c = user.column c := by
        cases c <;> first | rfl | exact absurd rfl hc
      rw [column_update _ _ _ _ hc, hnow]
      split
      · rfl
      · by_contra hne
        exact absurd (mem_changedColumns.2 fun heq => hne heq.symm) ‹_›

end UserEntity

/-! ## `merge` -/

/-- `DeepPartial<UserEntity>`, with the properties the service sets; `none` is
`undefined`. -/
structure UserChanges where
  isActive : Option Bool := none
  firstName : Option (Option String) := none
  lastName : Option (Option String) := none
  gender : Option (Option Gender) := none
  birthDate : Option (Option String) := none
  cityId : Option (Option Nat) := none
  address : Option (Option String) := none
  photoKey : Option (Option String) := none
  isProfileCompleted : Option Bool := none
  deriving DecidableEq, Repr

/-- `repo.merge`: it skips `undefined`. -/
def UserEntity.merge (user : UserEntity) (changes : UserChanges) : UserEntity :=
  { user with
    isActive := changes.isActive.getD user.isActive
    firstName := changes.firstName.getD user.firstName
    lastName := changes.lastName.getD user.lastName
    gender := changes.gender.getD user.gender
    birthDate := changes.birthDate.getD user.birthDate
    cityId := changes.cityId.getD user.cityId
    address := changes.address.getD user.address
    photoKey := changes.photoKey.getD user.photoKey
    isProfileCompleted := changes.isProfileCompleted.getD user.isProfileCompleted }

def UserChanges.mentions (changes : UserChanges) : Column → Bool
  | .createdAt | .updatedAt | .phone => false
  | .isActive => changes.isActive.isSome
  | .firstName => changes.firstName.isSome
  | .lastName => changes.lastName.isSome
  | .gender => changes.gender.isSome
  | .birthDate => changes.birthDate.isSome
  | .cityId => changes.cityId.isSome
  | .address => changes.address.isSome
  | .photoKey => changes.photoKey.isSome
  | .isProfileCompleted => changes.isProfileCompleted.isSome

/-- What the changes do not name stays as it was loaded. -/
theorem UserEntity.column_merge (user : UserEntity) {changes : UserChanges} {c : Column}
    (h : changes.mentions c = false) : (user.merge changes).column c = user.column c := by
  cases c <;> simp_all [UserChanges.mentions, UserEntity.merge, UserEntity.column]

/-- A `date` column takes the day of a `Date`, as TypeORM writes it. -/
def UpdateUserMeDto.changes (toDateString : Instant → String) (dto : UpdateUserMeDto) :
    UserChanges where
  firstName := dto.firstName.map some
  lastName := dto.lastName.map some
  gender := dto.gender
  birthDate := dto.birthDate.map (Option.map toDateString)
  cityId := dto.cityId
  address := dto.address

def CompleteUserProfileDto.changes (toDateString : Instant → String)
    (dto : CompleteUserProfileDto) : UserChanges where
  firstName := some dto.firstName
  lastName := some dto.lastName
  gender := some dto.gender
  birthDate := some (toDateString dto.birthDate)
  cityId := some dto.cityId
  address := dto.address
  isProfileCompleted := some true

end NestStarter.Accounts
