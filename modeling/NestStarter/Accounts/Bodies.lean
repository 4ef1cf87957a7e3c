import NestStarter.Accounts.Passwords
import NestStarter.Accounts.Phone
import NestStarter.Shared.Timezone

/-! # From a body to the checks

The global `ValidationPipe` runs with `enableImplicitConversion`: class-transformer first turns
each property of the body into the type that the class declares for it, then runs its
`@Transform`, and only what comes out is checked.
-/

namespace NestStarter.Accounts

open NestStarter.Shared

/-- The types that properties are declared with, as `design:type` or `@Type` has them. A union
with `null` is `object`. -/
inductive DesignType where
  | object
  | string
  | number
  | date
  deriving DecidableEq, Repr

structure JsRuntime where
  /-- `String(value)` of a number, a date, an array or an object; `none` where it throws. -/
  text : Value → Option String
  /-- `Number(value)` of a text, a date, an array or an object. -/
  numeral : Value → JsNumber
  /-- `Date.parse`. -/
  parse : String → Option Instant
  /-- The time of the date that an array or an object becomes, if it becomes a valid one.
  class-transformer converts an array item by item. -/
  objectTime : Value → Option Instant

/-- A `Date` made of a number has whole milliseconds. -/
def numberTime : JsNumber → Option Instant
  | .finite q =>
      if -8640000000000000 * q.den ≤ q.num ∧ q.num ≤ 8640000000000000 * q.den then
        some (q.num.tdiv q.den)
      else none
  | _ => none

namespace JsRuntime

variable (rt : JsRuntime)

def toNumber : Value → JsNumber
  | .boolean b => .finite (if b then 1 else 0)
  | .number n => n
  | v => rt.numeral v

def time : Value → Option Instant
  | .boolean b => some (if b then 1 else 0)
  | .number n => numberTime n
  | .string s => rt.parse s
  | .date t => t
  | v => rt.objectTime v

/-- The implicit conversion. It leaves `undefined` and `null`; an array stays one, and no check
looks at its items. -/
def convert (type : DesignType) : Value → Option Value
  | .undefined => some .undefined
  | .null => some .null
  | v =>
      match type with
      | .object => some v
      | .date => some (.date (rt.time v))
      | .string =>
          match v with
          | .array items => some (.array items)
          | v => (v.text rt.text).map .string
      | .number =>
          match v with
          | .array items => some (.array items)
          | v => some (.number (rt.toNumber v))

end JsRuntime

inductive Slot where
  | digit
  | char (c : Char)
  deriving DecidableEq, Repr

def Slot.accepts : Slot → Char → Bool
  | .digit, c => c.isDigit
  | .char d, c => c = d

def matchSlots : List Slot → List Char → Bool
  | [], cs => cs = []
  | _ :: _, [] => false
  | slot :: slots, c :: cs => slot.accepts c && matchSlots slots cs

/-- `UTC_ISO_RE` with so many digits after the point. -/
def utcIso (fraction : Nat) : List Slot :=
  let two := [Slot.digit, .digit]
  two ++ two ++ .char '-' :: two ++ .char '-' :: two ++ .char 'T' :: two ++ .char ':' :: two ++
    .char ':' :: two ++
    (if fraction = 0 then [] else .char '.' :: List.replicate fraction .digit) ++ [.char 'Z']

def isUtcIso (s : String) : Bool := [0, 1, 2, 3].any fun n => matchSlots (utcIso n) s.toList

example : ["2026-06-02T10:00:00.000Z", "2026-06-02T10:00:00Z", "2026-06-02",
    "2026-06-02T10:00:00+03:00"].map isUtcIso = [true, true, false, false] := by decide

def transformUtcIso (parse : String → Option Instant) : Value → Value
  | .string s =>
      if isUtcIso s then
        match parse s with
        | some t => .date (some t)
        | none => .string s
      else .string s
  | v => v

/-! ## Classes -/

structure Property where
  name : String
  type : DesignType
  transform : Value → Option Value := some

/-- What a property becomes before it is checked; `none` where that throws. -/
def Property.apply (rt : JsRuntime) (p : Property) (v : Value) : Option Value :=
  (rt.convert p.type v).bind p.transform

abbrev Body := List (String × Value)

def Body.get (body : Body) (name : String) : Value := (body.lookup name).getD .undefined

/-- A property as the checks see it: arrays, objects, invalid dates and numbers that are not
whole fail every one of them, as a boolean does. -/
def flat : Value → JsValue
  | .undefined => .undefined
  | .null => .null
  | .boolean b => .boolean b
  | .number (.finite q) => if q.den = 1 then .number q.num else .boolean false
  | .string s => .string s
  | .date (some t) => .date t
  | _ => .boolean false

section

variable (rt : JsRuntime) (properties : List Property)

/-- The keys that class-transformer passes over: two by name, the others because every instance
has a method of that name. -/
def skippedKeys : List String :=
  ["__proto__", "constructor", "__defineGetter__", "__defineSetter__", "__lookupGetter__",
    "__lookupSetter__", "hasOwnProperty", "isPrototypeOf", "propertyIsEnumerable",
    "toLocaleString", "toString", "valueOf"]

/-- What one property of the body becomes; one that the class does not have is kept, to be
refused, unless it is passed over. -/
def instanceProperty (sent : String × Value) : Option (List (String × JsValue)) :=
  match properties.find? fun p => p.name = sent.1 with
  | some p => (p.apply rt sent.2).map fun v => [(sent.1, flat v)]
  | none => some (if skippedKeys.contains sent.1 then [] else [(sent.1, flat sent.2)])

def plainToInstance : Body → Option (List (String × JsValue))
  | [] => some []
  | sent :: rest => do
      let first ← instanceProperty rt properties sent
      let others ← plainToInstance rest
      return first ++ others

def accept {δ : Type} (validate : JsObject → Option δ) (body : Body) : Option δ := do
  let own ← plainToInstance rt properties body
  validate { own }

end

def CompleteUserProfileDto.properties (rt : JsRuntime) : List Property :=
  [{ name := "firstName", type := .string }, { name := "lastName", type := .string },
    { name := "gender", type := .string },
    { name := "birthDate", type := .date, transform := fun v => some (transformUtcIso rt.parse v) },
    { name := "cityId", type := .number }, { name := "address", type := .object }]

def CreateUserDto.properties (rt : JsRuntime) : List Property :=
  { name := "phone", type := .string, transform := transformSyriaPhone international rt.text } ::
    CompleteUserProfileDto.properties rt

def UpdateUserMeDto.properties (rt : JsRuntime) : List Property :=
  [{ name := "firstName", type := .string }, { name := "lastName", type := .string },
    { name := "gender", type := .object },
    { name := "birthDate", type := .object,
      transform := fun v => some (transformUtcIso rt.parse v) },
    { name := "cityId", type := .number }, { name := "address", type := .object }]

def UpdateMeDto.properties (rt : JsRuntime) : List Property :=
  [{ name := "firstName", type := .string }, { name := "lastName", type := .string },
    { name := "phone", type := .object, transform := transformSyriaPhone international rt.text },
    { name := "username", type := .string }, { name := "password", type := .string },
    { name := "currentPassword", type := .string }]

variable {rt : JsRuntime} {properties : List Property}

theorem instanceProperty_name {sent : String × Value} {made : List (String × JsValue)}
    (h : instanceProperty rt properties sent = some made) : ∀ q ∈ made, q.1 = sent.1 := by
  intro q hq
  unfold instanceProperty at h
  split at h
  · obtain ⟨v, -, rfl⟩ := Option.map_eq_some_iff.1 h
    rw [List.mem_singleton.1 hq]
  · cases h
    split at hq
    · cases hq
    · rw [List.mem_singleton.1 hq]

theorem instanceProperty_apply {p : Property} {name : String} {v : Value}
    {made : List (String × JsValue)}
    (hp : properties.find? (fun p => p.name = name) = some p)
    (h : instanceProperty rt properties (name, v) = some made) :
    ∃ w, p.apply rt v = some w ∧ made = [(name, flat w)] := by
  simp only [instanceProperty, hp, Option.map_eq_some_iff] at h
  obtain ⟨w, hw, rfl⟩ := h
  exact ⟨w, hw, rfl⟩

/-- The checks get what a property becomes; one that is not sent stays `undefined`. -/
theorem get_plainToInstance {p : Property} {name : String} {body : Body}
    {own : List (String × JsValue)} (hp : properties.find? (fun p => p.name = name) = some p)
    (hundefined : p.apply rt .undefined = some .undefined)
    (h : plainToInstance rt properties body = some own) :
    ∃ w, p.apply rt (Body.get body name) = some w ∧
      JsObject.get { own } name = flat w := by
  induction body generalizing own with
  | nil =>
    cases h
    exact ⟨.undefined, hundefined, rfl⟩
  | cons sent rest ih =>
    simp only [plainToInstance, Option.bind_eq_bind, Option.bind_eq_some_iff, Option.pure_def,
      Option.some.injEq] at h
    obtain ⟨made, hmade, others, hothers, rfl⟩ := h
    obtain ⟨sentName, v⟩ := sent
    by_cases hsame : name = sentName
    · subst hsame
      obtain ⟨w, hw, rfl⟩ := instanceProperty_apply hp hmade
      exact ⟨w, by simpa [Body.get] using hw, by simp [JsObject.get]⟩
    · have hlookup : (name == sentName) = false := by simpa using hsame
      have hmissing : made.lookup name = none := by
        refine List.lookup_eq_none_iff.2 fun q hq => ?_
        rw [instanceProperty_name hmade q hq]
        simpa using hsame
      obtain ⟨w, hw, hrest⟩ := ih hothers
      refine ⟨w, by simpa [Body.get, List.lookup_cons, hlookup] using hw, ?_⟩
      rw [← hrest]
      simp [JsObject.get, List.lookup_append, hmissing]

/-! ## Birth dates -/

def birthDateProperty (rt : JsRuntime) : Property where
  name := "birthDate"
  type := .date
  transform := fun v => some (transformUtcIso rt.parse v)

theorem find_birthDate_complete : (CompleteUserProfileDto.properties rt).find?
    (fun p => p.name = "birthDate") = some (birthDateProperty rt) := rfl

theorem find_birthDate_create : (CreateUserDto.properties rt).find?
    (fun p => p.name = "birthDate") = some (birthDateProperty rt) := rfl

/-- Whatever is sent is a date when the transform gets it. -/
theorem apply_birthDate {v : Value} (hundefined : v ≠ .undefined) (hnull : v ≠ .null) :
    (birthDateProperty rt).apply rt v = some (.date (rt.time v)) := by
  have hconvert : rt.convert .date v = some (.date (rt.time v)) := by
    cases v with
    | undefined => exact absurd rfl hundefined
    | null => exact absurd rfl hnull
    | _ => rfl
  simp only [Property.apply, birthDateProperty, hconvert, Option.bind_some, transformUtcIso]

def PastDate (rt : JsRuntime) (now : Instant) (v : Value) : Prop :=
  v ≠ .undefined ∧ v ≠ .null ∧ ∃ t, rt.time v = some t ∧ t < now

theorem birthDateField_apply {now t : Instant} {v w : Value}
    (hw : (birthDateProperty rt).apply rt v = some w)
    (h : birthDateField now (flat w) = some t) : PastDate rt now v := by
  have hundefined : v ≠ .undefined := by
    intro heq
    subst heq
    cases hw
    cases h
  have hnull : v ≠ .null := by
    intro heq
    subst heq
    cases hw
    cases h
  rw [apply_birthDate hundefined hnull] at hw
  cases hw
  refine ⟨hundefined, hnull, ?_⟩
  cases htime : rt.time v with
  | none =>
    rw [htime] at h
    cases h
  | some t' =>
    rw [htime] at h
    simp only [flat, birthDateField, Option.ite_none_right_eq_some] at h
    exact ⟨t', rfl, h.1⟩

theorem birthDate_profileFields {now : Instant} {o : JsObject} {dto : CompleteUserProfileDto}
    (h : profileFields now o = some dto) :
    birthDateField now (o.get "birthDate") = some dto.birthDate := by
  simp only [profileFields, Option.bind_eq_bind, Option.bind_eq_some_iff] at h
  obtain ⟨firstName, -, lastName, -, gender, -, birthDate, hbirthDate, cityId, -, address, -,
    hdto⟩ := h
  cases hdto
  exact hbirthDate

def Accepts {δ : Type} (rt : JsRuntime) (properties : List Property)
    (validate : JsObject → Option δ) (name : String) (v : Value) : Prop :=
  ∃ body : Body, ∃ dto, Body.get body name = v ∧ accept rt properties validate body = some dto

/-- A class that checks the birth date takes past dates only. -/
theorem pastDate_of_accepts {δ : Type} {validate : JsObject → Option δ} {now : Instant} {v : Value}
    (hfind : properties.find? (fun p => p.name = "birthDate") = some (birthDateProperty rt))
    (hfield : ∀ o dto, validate o = some dto →
      ∃ t, birthDateField now (o.get "birthDate") = some t)
    (h : Accepts rt properties validate "birthDate" v) : PastDate rt now v := by
  obtain ⟨body, dto, rfl, h⟩ := h
  simp only [accept, Option.bind_eq_bind, Option.bind_eq_some_iff] at h
  obtain ⟨own, hown, hvalid⟩ := h
  obtain ⟨w, hw, hget⟩ := get_plainToInstance hfind rfl hown
  obtain ⟨t, ht⟩ := hfield _ dto hvalid
  rw [hget] at ht
  exact birthDateField_apply hw ht

theorem pastDate_of_complete {now : Instant} {v : Value}
    (h : Accepts rt (CompleteUserProfileDto.properties rt) (CompleteUserProfileDto.validate now)
      "birthDate" v) : PastDate rt now v := by
  refine pastDate_of_accepts find_birthDate_complete ?_ h
  intro o dto hvalid
  obtain ⟨-, -, hprofile⟩ := Option.bind_eq_some_iff.1 hvalid
  exact ⟨dto.birthDate, birthDate_profileFields hprofile⟩

theorem pastDate_of_create {now : Instant} {v : Value}
    (h : Accepts rt (CreateUserDto.properties rt) (CreateUserDto.validate now) "birthDate" v) :
    PastDate rt now v := by
  refine pastDate_of_accepts find_birthDate_create ?_ h
  intro o dto hvalid
  obtain ⟨-, -, hvalid⟩ := Option.bind_eq_some_iff.1 hvalid
  obtain ⟨phone, -, hvalid⟩ := Option.bind_eq_some_iff.1 hvalid
  obtain ⟨profile, hprofile, -⟩ := Option.bind_eq_some_iff.1 hvalid
  exact ⟨profile.birthDate, birthDate_profileFields hprofile⟩

def profileBody (v : Value) : Body :=
  [("firstName", .string "Layla"), ("lastName", .string "Haddad"), ("gender", .string "female"),
    ("birthDate", v), ("cityId", .number (.finite 1))]

def profileInstance (t : Instant) : List (String × JsValue) :=
  [("firstName", .string "Layla"), ("lastName", .string "Haddad"), ("gender", .string "female"),
    ("birthDate", .date t), ("cityId", .number 1)]

theorem instanceProperty_birthDate {now t : Instant} {v : Value} (h : PastDate rt now v)
    (ht : rt.time v = some t)
    (hfind : properties.find? (fun p => p.name = "birthDate") = some (birthDateProperty rt)) :
    instanceProperty rt properties ("birthDate", v) = some [("birthDate", .date t)] := by
  have happly : (birthDateProperty rt).apply rt v = some (.date (rt.time v)) :=
    apply_birthDate h.1 h.2.1
  rw [ht] at happly
  simp only [instanceProperty, hfind, happly, Option.map_some]
  rfl

theorem profileFields_sample {now t : Instant} {o : JsObject} (ht : t < now)
    (ho : ∀ name ∈ profileProperties, o.get name = JsObject.get { own := profileInstance t } name) :
    profileFields now o = some ⟨"Layla", "Haddad", .female, t, 1, none⟩ := by
  have hfirst : nameField (.string "Layla") = some "Layla" := by decide
  have hlast : nameField (.string "Haddad") = some "Haddad" := by decide
  have hgender : genderField (.string "female") = some .female := by decide
  have hbirth : birthDateField now (.date t) = some t := if_pos ht
  have hcity : cityIdField (.number 1) = some 1 := rfl
  have haddress : isOptional addressField .undefined = some none := rfl
  have hget : ∀ {name w}, name ∈ profileProperties →
      JsObject.get { own := profileInstance t } name = w → o.get name = w :=
    fun hname hw => (ho _ hname).trans hw
  have h1 : o.get "firstName" = .string "Layla" := hget (by decide) rfl
  have h2 : o.get "lastName" = .string "Haddad" := hget (by decide) rfl
  have h3 : o.get "gender" = .string "female" := hget (by decide) rfl
  have h4 : o.get "birthDate" = .date t := hget (by decide) rfl
  have h5 : o.get "cityId" = .number 1 := hget (by decide) rfl
  have h6 : o.get "address" = .undefined := hget (by decide) rfl
  simp only [profileFields, h1, h2, h3, h4, h5, h6, hfirst, hlast, hgender, hbirth, hcity,
    haddress, Option.bind_eq_bind, Option.bind_some, Option.pure_def]

theorem accepts_complete {now : Instant} {v : Value} (h : PastDate rt now v) :
    Accepts rt (CompleteUserProfileDto.properties rt) (CompleteUserProfileDto.validate now)
      "birthDate" v := by
  obtain ⟨t, htime, hpast⟩ := h.2.2
  have hown : plainToInstance rt (CompleteUserProfileDto.properties rt) (profileBody v) =
      some (profileInstance t) := by
    have hbirth := instanceProperty_birthDate h htime find_birthDate_complete
    simp only [profileBody, plainToInstance, hbirth]
    rfl
  refine ⟨profileBody v, ⟨"Layla", "Haddad", .female, t, 1, none⟩, rfl, ?_⟩
  simp only [accept, hown, Option.bind_eq_bind, Option.bind_some]
  exact profileFields_sample hpast fun _ _ => rfl

def createInstance (t : Instant) : JsObject where
  own := ("phone", .string "+963944123456") :: profileInstance t

theorem get_createInstance (t : Instant) {name : String} (hname : name ∈ profileProperties) :
    (createInstance t).get name = JsObject.get { own := profileInstance t } name := by
  have hne : name ≠ "phone" := by
    intro heq
    subst heq
    revert hname
    decide
  have hlookup : (name == "phone") = false := by simpa using hne
  simp [createInstance, JsObject.get, List.lookup_cons, hlookup]

theorem validate_createInstance {now t : Instant} (ht : t < now) :
    ∃ dto, CreateUserDto.validate now (createInstance t) = some dto := by
  have hphone : phoneField ((createInstance t).get "phone") = some "+963944123456" := rfl
  have hprofile := profileFields_sample ht fun _ hname => get_createInstance t hname
  refine ⟨{ firstName := "Layla", lastName := "Haddad", gender := .female, birthDate := t,
            cityId := 1, phone := "+963944123456" }, ?_⟩
  show (phoneField ((createInstance t).get "phone")).bind (fun phone =>
    (profileFields now (createInstance t)).bind fun profile =>
      some ({ profile with phone } : CreateUserDto)) = _
  rw [hphone, Option.bind_some, hprofile]
  rfl

theorem accepts_create {now : Instant} {v : Value} (h : PastDate rt now v) :
    Accepts rt (CreateUserDto.properties rt) (CreateUserDto.validate now) "birthDate" v := by
  obtain ⟨t, htime, hpast⟩ := h.2.2
  have hphone : instanceProperty rt (CreateUserDto.properties rt)
      ("phone", .string "+963944123456") = some [("phone", .string "+963944123456")] := rfl
  have hown : plainToInstance rt (CreateUserDto.properties rt)
      (("phone", .string "+963944123456") :: profileBody v) = some (createInstance t).own := by
    have hbirth := instanceProperty_birthDate h htime find_birthDate_create
    simp only [profileBody, plainToInstance, hbirth, hphone]
    rfl
  obtain ⟨dto, hvalid⟩ := validate_createInstance hpast
  refine ⟨("phone", .string "+963944123456") :: profileBody v, dto, rfl, ?_⟩
  simp only [accept, hown, Option.bind_eq_bind, Option.bind_some]
  exact hvalid

/-- A text of the form that `@IsUtcIso8601()` names, of an instant that is past. -/
def IsUtcPast (rt : JsRuntime) (now : Instant) (v : Value) : Prop :=
  ∃ s t, v = .string s ∧ isUtcIso s = true ∧ rt.parse s = some t ∧ t < now

/-- The two classes take a birth date only as such a text, except of the values that `Date`
reads as a past instant and that are no such text: those they take as well. -/
theorem birthDate_utcPast_iff (rt : JsRuntime) (now : Instant) (v : Value) :
    ((Accepts rt (CreateUserDto.properties rt) (CreateUserDto.validate now) "birthDate" v ∨
        Accepts rt (CompleteUserProfileDto.properties rt) (CompleteUserProfileDto.validate now)
          "birthDate" v) → IsUtcPast rt now v) ↔
      v = .undefined ∨ v = .null ∨ (∀ t, rt.time v = some t → now ≤ t) ∨
        ∃ s, v = .string s ∧ isUtcIso s = true := by
  constructor
  · intro hutc
    by_cases hpast : PastDate rt now v
    · obtain ⟨s, t, hs, hiso, -, -⟩ := hutc (Or.inl (accepts_create hpast))
      exact Or.inr (Or.inr (Or.inr ⟨s, hs, hiso⟩))
    · by_cases hundefined : v = .undefined
      · exact Or.inl hundefined
      · by_cases hnull : v = .null
        · exact Or.inr (Or.inl hnull)
        · refine Or.inr (Or.inr (Or.inl ?_))
          intro t ht
          by_contra hlt
          exact hpast ⟨hundefined, hnull, t, ht, Int.not_le.1 hlt⟩
  · intro hcond haccepts
    have hpast : PastDate rt now v := haccepts.elim pastDate_of_create pastDate_of_complete
    obtain ⟨hundefined, hnull, t, ht, hlt⟩ := hpast
    rcases hcond with rfl | rfl | hlate | ⟨s, rfl, hiso⟩
    · exact absurd rfl hundefined
    · exact absurd rfl hnull
    · exact absurd (hlate t ht) (Int.not_le.2 hlt)
    · exact ⟨s, t, rfl, hiso, ht, hlt⟩

/-- A runtime that reads these two texts as dates. -/
def jsRuntimeSample : JsRuntime where
  text _ := some "[object Object]"
  numeral _ := .nan
  parse s :=
    [("2026-06-02T10:00:00.000Z", 1780394400000), ("2026-06-02", 1780358400000)].lookup s
  objectTime _ := none

/-- On 3 June 2026 a number of milliseconds and a date without a time are taken for birth
dates. -/
theorem birthDate_number_accepted :
    (Accepts jsRuntimeSample (CreateUserDto.properties jsRuntimeSample)
        (CreateUserDto.validate 1780444800000) "birthDate" (.number (.finite 12345)) ∧
      ¬ IsUtcPast jsRuntimeSample 1780444800000 (.number (.finite 12345))) ∧
    (Accepts jsRuntimeSample (CompleteUserProfileDto.properties jsRuntimeSample)
        (CompleteUserProfileDto.validate 1780444800000) "birthDate" (.string "2026-06-02") ∧
      ¬ IsUtcPast jsRuntimeSample 1780444800000 (.string "2026-06-02")) := by
  have hnumber : PastDate jsRuntimeSample 1780444800000 (.number (.finite 12345)) :=
    ⟨by simp, by simp, 12345, by decide, by decide⟩
  have hday : PastDate jsRuntimeSample 1780444800000 (.string "2026-06-02") :=
    ⟨by simp, by simp, 1780358400000, by decide, by decide⟩
  refine ⟨⟨accepts_create hnumber, ?_⟩, accepts_complete hday, ?_⟩
  · intro hutc
    obtain ⟨s, t, hs, -⟩ := hutc
    cases hs
  · intro hutc
    obtain ⟨s, t, hs, hiso, -⟩ := hutc
    cases hs
    revert hiso
    decide

end NestStarter.Accounts
