import NestStarter.Accounts.Bodies
import NestStarter.Accounts.Completion
import NestStarter.Accounts.Photos
import NestStarter.Sessions.Admins

/-! # What `PATCH /me` changes

A property that is left out is `undefined` on its way through class-transformer, the checks and
`merge`, which skips it; `null` is carried along and stored. Both endpoints keep the two apart but
for the phone of an admin, whose transform makes `undefined` of `null`.
-/

namespace NestStarter.Sessions

open NestStarter.Core NestStarter.Shared Accounts

inductive AdminColumn where
  | createdAt
  | updatedAt
  | isActive
  | password
  | passwordChangedAt
  | username
  | firstName
  | lastName
  | phone
  | photoKey
  deriving DecidableEq, Repr

def adminColumn (a : AdminEntity) : AdminColumn → JsValue
  | .createdAt => .date a.createdAt
  | .updatedAt => .date a.updatedAt
  | .isActive => .boolean a.isActive
  | .password => .string a.password
  | .passwordChangedAt => .nullable .date a.passwordChangedAt
  | .username => .string a.username
  | .firstName => .string a.firstName
  | .lastName => .string a.lastName
  | .phone => .nullable .string a.phone
  | .photoKey => .nullable .string a.photoKey

section

variable (toDateString : Instant → String)

/-- How a value is stored: a date by its day, and no column is `undefined`. -/
def stored : JsValue → JsValue
  | .undefined => .null
  | .date t => .string (toDateString t)
  | v => v

/-- What the column of a property is to be: the same as before when the property is not sent,
`null` when it is sent as `null`, and else what class-transformer makes of what is sent. -/
def Follows (rt : JsRuntime) (p : Property) (sent : Value) (old new : JsValue) : Prop :=
  match sent with
  | .undefined => new = old
  | .null => new = .null
  | sent => ∃ w, p.apply rt sent = some w ∧ new = stored toDateString (flat w)

end

section

variable {α : Type} {check : JsValue → Option α} {u : JsValue}

/-- A check returns what it has read. -/
def Reads (toDateString : Instant → String) (check : JsValue → Option α) (render : α → JsValue) :
    Prop :=
  ∀ u a, check u = some a → stored toDateString u = render a

theorem skipIfUndefined_cases {r : Option α} (h : skipIfUndefined check u = some r) :
    u = .undefined ∧ r = none ∨ u ≠ .undefined ∧ ∃ a, r = some a ∧ check u = some a := by
  by_cases hundefined : u = .undefined
  · subst hundefined
    cases h
    exact Or.inl ⟨rfl, rfl⟩
  · refine Or.inr ⟨hundefined, ?_⟩
    have hcheck : (check u).map some = some r := by
      cases u with
      | undefined => exact absurd rfl hundefined
      | _ => exact h
    obtain ⟨a, ha, rfl⟩ := Option.map_eq_some_iff.1 hcheck
    exact ⟨a, rfl, ha⟩

theorem isOptional_cases {r : Option (Option α)} (h : isOptional check u = some r) :
    u = .undefined ∧ r = none ∨ u = .null ∧ r = some none ∨
      u ≠ .undefined ∧ ∃ a, r = some (some a) ∧ check u = some a := by
  by_cases hundefined : u = .undefined
  · subst hundefined
    cases h
    exact Or.inl ⟨rfl, rfl⟩
  · by_cases hnull : u = .null
    · subst hnull
      cases h
      exact Or.inr (Or.inl ⟨rfl, rfl⟩)
    · refine Or.inr (Or.inr ⟨hundefined, ?_⟩)
      have hcheck : (check u).map (fun a => some (some a)) = some r := by
        cases u with
        | undefined => exact absurd rfl hundefined
        | null => exact absurd rfl hnull
        | _ => exact h
      obtain ⟨a, ha, rfl⟩ := Option.map_eq_some_iff.1 hcheck
      exact ⟨a, rfl, ha⟩

/-- The column keeps its value when the checks get `undefined` and else takes what they get. -/
def Settles (toDateString : Instant → String) (u old new : JsValue) : Prop :=
  u = .undefined ∧ new = old ∨ u ≠ .undefined ∧ new = stored toDateString u

variable {toDateString : Instant → String} {render : α → JsValue} {old : JsValue}

theorem settles_skipIfUndefined {r : Option α} (hreads : Reads toDateString check render)
    (h : skipIfUndefined check u = some r) :
    Settles toDateString u old ((r.map render).getD old) := by
  rcases skipIfUndefined_cases h with ⟨hu, rfl⟩ | ⟨hu, a, rfl, hcheck⟩
  · exact Or.inl ⟨hu, rfl⟩
  · exact Or.inr ⟨hu, (hreads u a hcheck).symm⟩

theorem settles_isOptional {r : Option (Option α)} (hreads : Reads toDateString check render)
    (h : isOptional check u = some r) :
    Settles toDateString u old ((r.map (JsValue.nullable render)).getD old) := by
  rcases isOptional_cases h with ⟨hu, rfl⟩ | ⟨rfl, rfl⟩ | ⟨hu, a, rfl, hcheck⟩
  · exact Or.inl ⟨hu, rfl⟩
  · exact Or.inr ⟨by simp, rfl⟩
  · exact Or.inr ⟨hu, (hreads u a hcheck).symm⟩

theorem reads_isLength (min max : Nat) : Reads toDateString (isLength min max) .string := by
  intro u a h
  cases u with
  | string s =>
    simp only [isLength, Option.ite_none_right_eq_some, Option.some.injEq] at h
    rw [← h.2]
    rfl
  | _ => cases h

theorem reads_nameField : Reads toDateString nameField .string := by
  intro u a h
  exact reads_isLength 1 100 u a (Option.filter_eq_some_iff.1 h).1

theorem reads_genderField :
    Reads toDateString genderField (fun g => .string g.value) := by
  intro u a h
  cases u with
  | string s =>
    have hvalue := List.find?_some h
    simp only [decide_eq_true_eq] at hvalue
    exact congrArg JsValue.string hvalue.symm
  | _ => cases h

theorem reads_birthDateField (now : Instant) :
    Reads toDateString (birthDateField now) (fun t => .string (toDateString t)) := by
  intro u a h
  cases u with
  | date t =>
    simp only [birthDateField, Option.ite_none_right_eq_some, Option.some.injEq] at h
    rw [← h.2]
    rfl
  | _ => cases h

theorem reads_cityIdField : Reads toDateString cityIdField (fun n => .number n) := by
  intro u a h
  cases u with
  | number n =>
    simp only [cityIdField, Option.ite_none_right_eq_some, Option.some.injEq] at h
    obtain ⟨hpos, rfl⟩ := h
    have hnat : (n.toNat : Int) = n := Int.toNat_of_nonneg (by omega)
    exact (congrArg JsValue.number hnat).symm
  | _ => cases h

theorem reads_phoneField : Reads toDateString phoneField .string := by
  intro u a h
  cases u with
  | string s =>
    simp only [phoneField, Option.ite_none_right_eq_some, Option.some.injEq] at h
    rw [← h.2]
    rfl
  | _ => cases h

end

/-! ## Through class-transformer -/

/-- The property keeps `undefined` and `null`, and makes no other value `undefined`. -/
structure Keeps (rt : JsRuntime) (p : Property) : Prop where
  undefined : p.apply rt .undefined = some .undefined
  null : p.apply rt .null = some .null
  sent : ∀ v, p.apply rt v = some .undefined → v = .undefined

variable {rt : JsRuntime}

theorem convert_ne_undefined {type : DesignType} {v : Value} (hv : v ≠ .undefined) :
    rt.convert type v ≠ some .undefined := by
  intro h
  cases v with
  | undefined => exact hv rfl
  | null => cases h
  | array items => cases type <;> cases h
  | _ => cases type <;> simp [JsRuntime.convert] at h

theorem flat_eq_undefined {w : Value} (h : flat w = .undefined) : w = .undefined := by
  unfold flat at h
  split at h
  · rfl
  · cases h
  · cases h
  · split at h <;> cases h
  · cases h
  · cases h
  · cases h

theorem transformUtcIso_ne_undefined {parse : String → Option Instant} {v : Value}
    (hv : v ≠ .undefined) : transformUtcIso parse v ≠ .undefined := by
  intro h
  unfold transformUtcIso at h
  split at h
  · split at h
    · split at h <;> cases h
    · cases h
  · exact hv h

theorem keeps_plain (name : String) (type : DesignType) : Keeps rt { name, type } where
  undefined := rfl
  null := rfl
  sent v h := by
    by_contra hv
    simp only [Property.apply] at h
    exact convert_ne_undefined hv (by simpa using h)

theorem keeps_birthDate (type : DesignType) :
    Keeps rt
      { name := "birthDate", type := type,
        transform := fun v => some (transformUtcIso rt.parse v) } where
  undefined := rfl
  null := rfl
  sent v h := by
    by_contra hv
    obtain ⟨w, hw, htransform⟩ := Option.bind_eq_some_iff.1 h
    refine transformUtcIso_ne_undefined ?_ (Option.some.inj htransform)
    intro hundefined
    subst hundefined
    exact convert_ne_undefined hv hw

theorem Settles.follows {p : Property} {v w : Value} {toDateString : Instant → String}
    {old new : JsValue} (hkeeps : Keeps rt p) (hw : p.apply rt v = some w)
    (h : Settles toDateString (flat w) old new) : Follows toDateString rt p v old new := by
  unfold Follows
  split
  · rw [hkeeps.undefined] at hw
    cases hw
    rcases h with ⟨-, hnew⟩ | ⟨hne, -⟩
    · exact hnew
    · exact absurd rfl hne
  · rw [hkeeps.null] at hw
    cases hw
    rcases h with ⟨hnull, -⟩ | ⟨-, hnew⟩
    · cases hnull
    · exact hnew
  · rcases h with ⟨hundefined, -⟩ | ⟨-, hnew⟩
    · rw [flat_eq_undefined hundefined] at hw
      exact absurd (hkeeps.sent v hw) ‹_›
    · exact ⟨w, hw, hnew⟩

/-! ## Users -/

def userColumns : List (String × Column) :=
  [("firstName", .firstName), ("lastName", .lastName), ("gender", .gender),
    ("birthDate", .birthDate), ("cityId", .cityId), ("address", .address)]

/-- Every property that is sent is stored, and nothing else changes. -/
structure UserSettled (toDateString : Instant → String) (rt : JsRuntime) (body : Body)
    (old new : UserEntity) : Prop where
  id : new.id = old.id
  sent : ∀ p ∈ UpdateUserMeDto.properties rt, ∀ c, userColumns.lookup p.name = some c →
    Follows toDateString rt p (Body.get body p.name) (old.column c) (new.column c)
  other : ∀ c, c ∉ userColumns.map Prod.snd → c ≠ .updatedAt → new.column c = old.column c

structure UserChecked (now : Instant) (o : JsObject) (dto : UpdateUserMeDto) : Prop where
  firstName : skipIfUndefined nameField (o.get "firstName") = some dto.firstName
  lastName : skipIfUndefined nameField (o.get "lastName") = some dto.lastName
  gender : isOptional genderField (o.get "gender") = some dto.gender
  birthDate : isOptional (birthDateField now) (o.get "birthDate") = some dto.birthDate
  cityId : isOptional cityIdField (o.get "cityId") = some dto.cityId
  address : isOptional addressField (o.get "address") = some dto.address

theorem userChecked_of_validate {now : Instant} {o : JsObject} {dto : UpdateUserMeDto}
    (h : UpdateUserMeDto.validate now o = some dto) : UserChecked now o dto := by
  obtain ⟨-, -, h⟩ := Option.bind_eq_some_iff.1 h
  simp only [Option.bind_eq_bind, Option.bind_eq_some_iff] at h
  obtain ⟨firstName, hfirst, lastName, hlast, gender, hgender, birthDate, hbirth, cityId, hcity,
    address, haddress, hdto⟩ := h
  cases hdto
  exact ⟨hfirst, hlast, hgender, hbirth, hcity, haddress⟩

variable {toDateString : Instant → String}

/-! A column of the merged entity is rendered from what the checks have returned. -/

section

variable {α β : Type} (render : α → JsValue)

theorem nullable_getD (r : Option (Option α)) (old : Option α) :
    JsValue.nullable render (r.getD old) =
      (r.map (JsValue.nullable render)).getD (JsValue.nullable render old) := by
  cases r <;> rfl

theorem nullable_getD_some (r : Option α) (old : Option α) :
    JsValue.nullable render ((r.map some).getD old) =
      (r.map render).getD (JsValue.nullable render old) := by
  cases r <;> rfl

theorem nullable_getD_map (f : β → α) (r : Option (Option β)) (old : Option α) :
    JsValue.nullable render ((r.map (Option.map f)).getD old) =
      (r.map (JsValue.nullable fun b => render (f b))).getD (JsValue.nullable render old) := by
  cases r with
  | none => rfl
  | some b => cases b <;> rfl

end

/-- A property that class-transformer keeps is stored as the checks get it. -/
theorem follows_of_accept {properties : List Property} {body : Body} {p : Property}
    {own : List (String × JsValue)} {old new : JsValue} (hkeeps : Keeps rt p)
    (hfind : properties.find? (fun q => q.name = p.name) = some p)
    (hown : plainToInstance rt properties body = some own)
    (h : Settles toDateString (JsObject.get { own } p.name) old new) :
    Follows toDateString rt p (Body.get body p.name) old new := by
  obtain ⟨w, hw, hget⟩ := get_plainToInstance hfind hkeeps.undefined hown
  rw [hget] at h
  exact h.follows hkeeps hw

theorem userSettled_merge {now : Instant} {body : Body} {dto : UpdateUserMeDto}
    (haccept : accept rt (UpdateUserMeDto.properties rt) (UpdateUserMeDto.validate now) body =
      some dto) {old new : UserEntity} (hid : new.id = old.id)
    (hnew : ∀ c, c ≠ .updatedAt →
      new.column c = (old.merge (dto.changes toDateString)).column c) :
    UserSettled toDateString rt body old new := by
  simp only [accept, Option.bind_eq_bind, Option.bind_eq_some_iff] at haccept
  obtain ⟨own, hown, hvalid⟩ := haccept
  have hchecked := userChecked_of_validate hvalid
  refine ⟨hid, ?_, ?_⟩
  · intro p hp c hc
    simp only [UpdateUserMeDto.properties, List.mem_cons, List.not_mem_nil, or_false] at hp
    rcases hp with rfl | rfl | rfl | rfl | rfl | rfl
    · obtain rfl : Column.firstName = c := Option.some.inj hc
      have hstored : (old.merge (dto.changes toDateString)).column .firstName =
          (dto.firstName.map .string).getD (old.column .firstName) :=
        nullable_getD_some ..
      refine follows_of_accept (keeps_plain ..) rfl hown ?_
      rw [hnew _ (by decide), hstored]
      exact settles_skipIfUndefined reads_nameField hchecked.firstName
    · obtain rfl : Column.lastName = c := Option.some.inj hc
      have hstored : (old.merge (dto.changes toDateString)).column .lastName =
          (dto.lastName.map .string).getD (old.column .lastName) :=
        nullable_getD_some ..
      refine follows_of_accept (keeps_plain ..) rfl hown ?_
      rw [hnew _ (by decide), hstored]
      exact settles_skipIfUndefined reads_nameField hchecked.lastName
    · obtain rfl : Column.gender = c := Option.some.inj hc
      have hstored : (old.merge (dto.changes toDateString)).column .gender =
          (dto.gender.map (.nullable fun g => .string g.value)).getD (old.column .gender) :=
        nullable_getD ..
      refine follows_of_accept (keeps_plain ..) rfl hown ?_
      rw [hnew _ (by decide), hstored]
      exact settles_isOptional reads_genderField hchecked.gender
    · obtain rfl : Column.birthDate = c := Option.some.inj hc
      have hstored : (old.merge (dto.changes toDateString)).column .birthDate =
          (dto.birthDate.map (.nullable fun t => .string (toDateString t))).getD
            (old.column .birthDate) :=
        nullable_getD_map ..
      refine follows_of_accept (keeps_birthDate _) rfl hown ?_
      rw [hnew _ (by decide), hstored]
      exact settles_isOptional (reads_birthDateField now) hchecked.birthDate
    · obtain rfl : Column.cityId = c := Option.some.inj hc
      have hstored : (old.merge (dto.changes toDateString)).column .cityId =
          (dto.cityId.map (.nullable fun n : Nat => .number n)).getD (old.column .cityId) :=
        nullable_getD ..
      refine follows_of_accept (keeps_plain ..) rfl hown ?_
      rw [hnew _ (by decide), hstored]
      exact settles_isOptional reads_cityIdField hchecked.cityId
    · obtain rfl : Column.address = c := Option.some.inj hc
      have hstored : (old.merge (dto.changes toDateString)).column .address =
          (dto.address.map (.nullable .string)).getD (old.column .address) :=
        nullable_getD ..
      refine follows_of_accept (keeps_plain ..) rfl hown ?_
      rw [hnew _ (by decide), hstored]
      exact settles_isOptional (reads_isLength 0 512) hchecked.address
  · intro c hc hupdated
    rw [hnew c hupdated]
    refine UserEntity.column_merge old ?_
    cases c <;> first | rfl | exact absurd (by decide) hc

theorem findById_save {t : UserTable} {id : Nat} {user merged : UserEntity} (now : Instant)
    (hfind : t.findById id = some user) (hid : merged.id = id) :
    (t.save merged now).findById id = some (saveUser user merged now) := by
  have hmapped := Photos.find_map_save (fun row : UserEntity => row.id)
    (fun row => saveUser row merged now) hfind fun row _ => (id_saveUser row merged now).trans hid
  simpa [UserTable.findById, UserTable.save, hid] using hmapped

theorem column_saveUser {row user : UserEntity} (now : Instant) {c : Column}
    (hc : c ≠ .updatedAt) : (saveUser row user now).column c = user.column c := by
  unfold saveUser
  split
  · rw [‹user = row›]
  · cases c <;> first | rfl | exact absurd rfl hc

/-- An `updateMe` that returns has saved the changes. -/
theorem updateUser_ok {now : Instant} {cityExists : Bool} {id : Nat} {dto : UpdateUserMeDto}
    {t t' : UserTable} {user : UserEntity} (hfind : t.findById id = some user)
    (h : Service.exec (Completion.updateMe toDateString now cityExists id dto) t = (.ok (), t')) :
    t' = t.save (user.merge (dto.changes toDateString)) now := by
  by_cases hcity : (dto.cityId.getD none).isSome = true
  · cases cityExists with
    | false => simp [Completion.updateMe, Completion.assertExists, hcity] at h
    | true =>
      simp only [Completion.updateMe, Completion.assertExists, Completion.findByIdOrFail,
        Completion.mergeAndSave, hcity, hfind, if_true, orThrow_some, Service.exec_bind,
        Service.exec_statement, Service.exec_ofExcept, Prod.mk.injEq, true_and] at h
      exact h.symm
  · simp only [Completion.updateMe, Completion.findByIdOrFail, Completion.mergeAndSave, hcity,
      hfind, orThrow_some, Service.exec_bind, Service.exec_statement, Service.exec_ofExcept,
      if_false, Bool.false_eq_true, Prod.mk.injEq, true_and] at h
    exact h.symm

theorem userSettled_updateMe {now : Instant} {cityExists : Bool} {id : Nat} {body : Body}
    {dto : UpdateUserMeDto} {t t' : UserTable} {user : UserEntity}
    (hfind : t.findById id = some user)
    (haccept : accept rt (UpdateUserMeDto.properties rt) (UpdateUserMeDto.validate now) body =
      some dto)
    (h : Service.exec (Completion.updateMe toDateString now cityExists id dto) t = (.ok (), t')) :
    ∃ user', t'.findById id = some user' ∧ UserSettled toDateString rt body user user' := by
  have hid : user.id = id := by simpa using List.find?_some hfind
  rw [updateUser_ok hfind h]
  refine ⟨_, findById_save now hfind hid, userSettled_merge haccept ?_ ?_⟩
  · rw [id_saveUser]
    rfl
  · exact fun c hc => column_saveUser now hc

/-! ## Admins -/

def adminColumns : List (String × AdminColumn) :=
  [("firstName", .firstName), ("lastName", .lastName), ("phone", .phone), ("username", .username)]

/-- Every property that is sent is stored, and nothing else changes but the times. A password
that is sent is stored as its hash, so of the password only this is asked: it stays as it is
stored when none is sent. -/
structure AdminSettled (toDateString : Instant → String) (rt : JsRuntime) (body : Body)
    (old new : AdminEntity) : Prop where
  id : new.id = old.id
  sent : ∀ p ∈ UpdateMeDto.properties rt, ∀ c, adminColumns.lookup p.name = some c →
    Follows toDateString rt p (Body.get body p.name) (adminColumn old c) (adminColumn new c)
  password : Body.get body "password" = .undefined → StoredPassword old.password →
    adminColumn new .password = adminColumn old .password
  other : ∀ c, c ∉ adminColumns.map Prod.snd →
    c ∉ [AdminColumn.updatedAt, .passwordChangedAt, .password] →
    adminColumn new c = adminColumn old c

structure AdminChecked (o : JsObject) (dto : UpdateMeDto) : Prop where
  firstName : skipIfUndefined nameField (o.get "firstName") = some dto.firstName
  lastName : skipIfUndefined nameField (o.get "lastName") = some dto.lastName
  phone : isOptional phoneField (o.get "phone") = some dto.phone
  username : skipIfUndefined (isLength 3 64) (o.get "username") = some dto.username
  password : skipIfUndefined (isLength 8 128) (o.get "password") = some dto.password

theorem adminChecked_of_validate {o : JsObject} {dto : UpdateMeDto}
    (h : UpdateMeDto.validate o = some dto) : AdminChecked o dto := by
  obtain ⟨-, -, h⟩ := Option.bind_eq_some_iff.1 h
  simp only [Option.bind_eq_bind, Option.bind_eq_some_iff] at h
  obtain ⟨firstName, hfirst, lastName, hlast, phone, hphone, username, husername, password,
    hpassword, h⟩ := h
  split at h
  · obtain ⟨currentPassword, -, hdto⟩ := Option.bind_eq_some_iff.1 h
    cases hdto
    exact ⟨hfirst, hlast, hphone, husername, hpassword⟩
  · cases h
    exact ⟨hfirst, hlast, hphone, husername, hpassword⟩

def phoneProperty (rt : JsRuntime) : Property where
  name := "phone"
  type := .object
  transform := transformSyriaPhone international rt.text

/-- What the transform takes for no phone. -/
def NoPhone (v : Value) : Prop := v = .undefined ∨ v = .null ∨ v = .string ""

/-- The transform makes `undefined` of no phone, and a text of anything else. -/
theorem apply_phone {v w : Value} (hw : (phoneProperty rt).apply rt v = some w) :
    NoPhone v ∧ w = .undefined ∨ ¬ NoPhone v ∧ ∃ s, w = .string s := by
  have hconvert : rt.convert .object v = some v := by
    cases v <;> rfl
  simp only [Property.apply, phoneProperty, hconvert, Option.bind_some] at hw
  unfold transformSyriaPhone at hw
  split at hw
  · cases hw
    exact Or.inl ⟨Or.inl rfl, rfl⟩
  · cases hw
    exact Or.inl ⟨Or.inr (Or.inl rfl), rfl⟩
  · cases hw
    exact Or.inl ⟨Or.inr (Or.inr rfl), rfl⟩
  · obtain ⟨phoneNumber, -, rfl⟩ := Option.map_eq_some_iff.1 hw
    refine Or.inr ⟨?_, _, rfl⟩
    intro hno
    rcases hno with rfl | rfl | rfl
    · contradiction
    · contradiction
    · contradiction

/-- No phone is to be stored as `null`, and is not stored. -/
theorem follows_phone_iff {v w : Value} {r : Option (Option String)} {old : Option String}
    (hw : (phoneProperty rt).apply rt v = some w)
    (h : isOptional phoneField (flat w) = some r) :
    Follows toDateString rt (phoneProperty rt) v (.nullable .string old)
        (.nullable .string (r.getD old)) ↔
      (v = .null ∨ v = .string "" → old = none) := by
  have hnull : JsValue.nullable .string old = .null ↔ old = none := by
    cases old <;> simp [JsValue.nullable]
  rcases apply_phone hw with ⟨hno, rfl⟩ | ⟨hsome, s, rfl⟩
  · cases h
    rcases hno with rfl | rfl | rfl
    · simp [Follows]
    · simp [Follows, hnull]
    · have hstored : Follows toDateString rt (phoneProperty rt) (.string "")
          (.nullable .string old) (.nullable .string old) ↔
          JsValue.nullable .string old = .null := by
        constructor
        · intro hfollows
          obtain ⟨w, hw', hnew⟩ := hfollows
          rw [hw] at hw'
          cases hw'
          exact hnew
        · intro hnew
          exact ⟨.undefined, hw, hnew⟩
      simpa [hnull] using hstored
  · have hsettles : Settles toDateString (flat (.string s)) (.nullable .string old)
        (.nullable .string (r.getD old)) := by
      rw [nullable_getD]
      exact settles_isOptional reads_phoneField h
    have hfollows : Follows toDateString rt (phoneProperty rt) v (.nullable .string old)
        (.nullable .string (r.getD old)) := by
      unfold Follows
      split
      · exact absurd (Or.inl rfl) hsome
      · exact absurd (Or.inr (Or.inl rfl)) hsome
      · rcases hsettles with ⟨hundefined, -⟩ | ⟨-, hnew⟩
        · cases hundefined
        · exact ⟨_, hw, hnew⟩
    constructor
    · intro _ hclears
      exact absurd (Or.inr hclears) hsome
    · exact fun _ => hfollows

theorem getD_map {α : Type} (render : α → JsValue) (r : Option α) (old : α) :
    render (r.getD old) = (r.map render).getD (render old) := by
  cases r <;> rfl

/-- A body without a password makes a DTO without one. -/
theorem password_of_accept {body : Body} {dto : UpdateMeDto}
    (haccept : accept rt (UpdateMeDto.properties rt) UpdateMeDto.validate body = some dto)
    (hsent : Body.get body "password" = .undefined) : dto.password = none := by
  simp only [accept, Option.bind_eq_bind, Option.bind_eq_some_iff] at haccept
  obtain ⟨own, hown, hvalid⟩ := haccept
  have hcheck := (adminChecked_of_validate hvalid).password
  have hfind : (UpdateMeDto.properties rt).find? (fun p => p.name = "password") =
      some { name := "password", type := .string } := rfl
  obtain ⟨w, hw, hget⟩ := get_plainToInstance hfind rfl hown
  rw [hsent] at hw
  cases hw
  rw [hget] at hcheck
  exact (Option.some.inj hcheck).symm

/-- The body is settled but for the phone, whose column keeps its value when no phone is sent. -/
theorem adminSettled_iff {body : Body} {dto : UpdateMeDto} {old new : AdminEntity}
    (haccept : accept rt (UpdateMeDto.properties rt) UpdateMeDto.validate body = some dto)
    (hid : new.id = old.id)
    (hnew : ∀ c, c ∉ [AdminColumn.updatedAt, .passwordChangedAt, .password] →
      adminColumn new c = adminColumn (old.merge dto) c)
    (hpassword : StoredPassword (old.merge dto).password →
      new.password = (old.merge dto).password) :
    AdminSettled toDateString rt body old new ↔
      (Body.get body "phone" = .null ∨ Body.get body "phone" = .string "" → old.phone = none) := by
  have hkept : Body.get body "password" = .undefined → StoredPassword old.password →
      adminColumn new .password = adminColumn old .password := by
    intro hsent hstored
    have hmerge : (old.merge dto).password = old.password := by
      simp [AdminEntity.merge, password_of_accept haccept hsent]
    rw [hmerge] at hpassword
    exact congrArg JsValue.string (hpassword hstored)
  simp only [accept, Option.bind_eq_bind, Option.bind_eq_some_iff] at haccept
  obtain ⟨own, hown, hvalid⟩ := haccept
  have hchecked := adminChecked_of_validate hvalid
  have hphone : Follows toDateString rt (phoneProperty rt) (Body.get body "phone")
      (adminColumn old .phone) (adminColumn new .phone) ↔
      (Body.get body "phone" = .null ∨ Body.get body "phone" = .string "" → old.phone = none) := by
    have hfind : (UpdateMeDto.properties rt).find? (fun p => p.name = "phone") =
        some (phoneProperty rt) := rfl
    obtain ⟨w, hw, hget⟩ := get_plainToInstance hfind rfl hown
    have hcheck := hchecked.phone
    rw [hget] at hcheck
    rw [hnew _ (by decide)]
    exact follows_phone_iff hw hcheck
  rw [← hphone]
  constructor
  · intro hsettled
    have hmem : phoneProperty rt ∈ UpdateMeDto.properties rt := by
      simp [UpdateMeDto.properties, phoneProperty]
    exact hsettled.sent (phoneProperty rt) hmem .phone rfl
  · intro hfollows
    refine ⟨hid, ?_, hkept, ?_⟩
    · intro p hp c hc
      simp only [UpdateMeDto.properties, List.mem_cons, List.not_mem_nil, or_false] at hp
      rcases hp with rfl | rfl | rfl | rfl | rfl | rfl
      · obtain rfl : AdminColumn.firstName = c := Option.some.inj hc
        have hstored : adminColumn (old.merge dto) .firstName =
            (dto.firstName.map .string).getD (adminColumn old .firstName) := getD_map ..
        refine follows_of_accept (keeps_plain ..) rfl hown ?_
        rw [hnew _ (by decide), hstored]
        exact settles_skipIfUndefined reads_nameField hchecked.firstName
      · obtain rfl : AdminColumn.lastName = c := Option.some.inj hc
        have hstored : adminColumn (old.merge dto) .lastName =
            (dto.lastName.map .string).getD (adminColumn old .lastName) := getD_map ..
        refine follows_of_accept (keeps_plain ..) rfl hown ?_
        rw [hnew _ (by decide), hstored]
        exact settles_skipIfUndefined reads_nameField hchecked.lastName
      · obtain rfl : AdminColumn.phone = c := Option.some.inj hc
        exact hfollows
      · obtain rfl : AdminColumn.username = c := Option.some.inj hc
        have hstored : adminColumn (old.merge dto) .username =
            (dto.username.map .string).getD (adminColumn old .username) := getD_map ..
        refine follows_of_accept (keeps_plain ..) rfl hown ?_
        rw [hnew _ (by decide), hstored]
        exact settles_skipIfUndefined (reads_isLength 3 64) hchecked.username
      · cases hc
      · cases hc
    · intro c hc hexcept
      rw [hnew c hexcept]
      cases c <;> first | rfl | exact absurd (by decide) hc | exact absurd (by decide) hexcept

theorem findById_saveAdmin {t : AdminTable} {id : Nat} {current admin : AdminEntity}
    (now : Instant) (hfind : t.findById id = some current) (hid : admin.id = id) :
    (t.save admin now).findById id = some { admin with updatedAt := now } := by
  have hmapped := Photos.find_map_save (fun row : AdminEntity => row.id)
    (fun _ => { admin with updatedAt := now }) hfind fun _ _ => hid
  simpa [AdminTable.findById, AdminTable.save, hid] using hmapped

/-- The hook writes the password and its time only. -/
theorem adminColumn_hook (hashPassword : String → String → String) (now now' : Instant)
    (salt : String) (admin : AdminEntity) {c : AdminColumn}
    (hc : c ∉ [AdminColumn.updatedAt, .passwordChangedAt, .password]) :
    adminColumn { admin.hashPasswordOnSave hashPassword now salt with updatedAt := now' } c =
      adminColumn admin c := by
  unfold AdminEntity.hashPasswordOnSave BasePasswordUserEntity.hashPasswordOnSave
  split
  · cases c <;> first | rfl | exact absurd (by decide) hc
  · cases c <;> first | rfl | exact absurd (by decide) hc

def userSample : UserEntity :=
  { id := 1, createdAt := 0, updatedAt := 0, phone := "+963944123456", firstName := some "Layla",
    lastName := some "Haddad", address := some "Homs" }

def usersSample : UserTable where
  rows := [userSample]
  nextId := 2
  sorted := List.pairwise_singleton ..
  bound := by
    intro u hu
    rw [List.mem_singleton.1 hu]
    exact Nat.lt_succ_self 1

def adminSample : AdminEntity :=
  { id := 1, createdAt := 0, updatedAt := 0, username := "root", firstName := "Root",
    lastName := "Admin", password := hashSample "" "another-horse",
    phone := some "+963944123456" }

def adminsSample : System := initial { rows := [adminSample], nodup := List.nodup_singleton .. }

end NestStarter.Sessions
