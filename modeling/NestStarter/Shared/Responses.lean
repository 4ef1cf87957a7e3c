import NestStarter.Shared.CaseConverter

/-! # Responses

What a handler returns passes the interceptors from the last registered to the first: dates are
written out, keys are converted for a client that asks for snake case, and the rest is put into an
envelope. Whichever case a client asks for, it is sent the same response.
-/

namespace NestStarter.Shared

section Dates

variable (toISOString : Instant → String)

mutual

/-- `serializeDates`; `toISOString` throws on an invalid date. -/
def serializeDates : Value → Option Value
  | .date time => time.map fun t => .string (toISOString t)
  | .array items => (serializeItems items).map .array
  | .object _ fields => (serializeFields fields).map fun fields =>
      fields.foldl Value.assign (.object none [])
  | v => some v

def serializeItems : List Value → Option (List Value)
  | [] => some []
  | item :: rest => (serializeDates item).bind fun item =>
      (serializeItems rest).map fun rest => item :: rest

/-- The assignments to the new object, in the order of `Object.keys`. -/
def serializeFields : List (String × Value) → Option (List (String × Value))
  | [] => some []
  | (key, value) :: rest => (serializeDates value).bind fun value =>
      (serializeFields rest).map fun rest => (key, value) :: rest

end

end Dates

def transform (response : Value) : Value :=
  let envelope := response.orElse (.object none [])
  let data := (envelope.get "data").orElse response
  let pagination := envelope.get "pagination"
  .object none (("data", data) :: if pagination.truthy then [("pagination", pagination)] else [])

/-- The interceptors on the response of a handler, `none` where one throws. The class serializer
only sees what the serializer of dates left. -/
def respond (toISOString : Instant → String) (classSerializer : Value → Value)
    (toLowerCase : String → String) (headers : List (String × String)) (response : Value) :
    Option Value :=
  (serializeDates toISOString response).map fun v =>
    transform (SnakeCaseInterceptor.intercept toLowerCase headers (classSerializer v))

/-! ## Dates -/

mutual

def Value.dates : Value → List (Option Instant)
  | .date time => [time]
  | .array items => itemDates items
  | .object _ fields => fieldDates fields
  | _ => []

def itemDates : List Value → List (Option Instant)
  | [] => []
  | item :: rest => item.dates ++ itemDates rest

def fieldDates : List (String × Value) → List (Option Instant)
  | [] => []
  | (_, value) :: rest => value.dates ++ fieldDates rest

end

/-- An ordinary object in camel case. -/
structure PlainCamel (o : Option Value × List (String × Value)) : Prop extends CamelCased o where
  ordinary : o.1 = none

/-- The value is made of ordinary objects in camel case and has no date inside. -/
structure Sendable (v : Value) : Prop where
  objects : ∀ o ∈ v.objects, PlainCamel o
  dates : v.dates = []

structure SendableItems (items : List Value) : Prop where
  objects : ∀ o ∈ Value.itemObjects items, PlainCamel o
  dates : itemDates items = []

structure SendableFields (fields : List (String × Value)) : Prop where
  objects : ∀ o ∈ Value.fieldObjects fields, PlainCamel o
  dates : fieldDates fields = []

theorem keys_serializeFields {toISOString : Instant → String}
    {fields fields' : List (String × Value)}
    (h : serializeFields toISOString fields = some fields') :
    fields'.map Prod.fst = fields.map Prod.fst := by
  induction fields generalizing fields' with
  | nil =>
    cases h
    rfl
  | cons p rest ih =>
    rw [serializeFields] at h
    obtain ⟨value, -, h⟩ := Option.bind_eq_some_iff.1 h
    obtain ⟨rest', hrest, rfl⟩ := Option.map_eq_some_iff.1 h
    simp [ih hrest]

/-- Assigning the properties of an object in camel case to `{}` makes the object. -/
theorem foldl_assign_camel {o : Option Value} {fields : List (String × Value)}
    (h : CamelCased (o, fields)) :
    fields.foldl Value.assign (.object none []) = .object none fields :=
  Value.foldl_assign fields []
    (fun hmem => ne_proto_of_no_separator (h.no_separator _ hmem) rfl) h.nodup

theorem CamelCased.of_keys {o : Option Value} {fields fields' : List (String × Value)}
    (h : CamelCased (o, fields)) (hkeys : fields'.map Prod.fst = fields.map Prod.fst) :
    CamelCased (none, fields') where
  nodup := hkeys ▸ h.nodup
  no_separator := hkeys ▸ h.no_separator

mutual

/-- The serializer leaves ordinary objects in camel case, without a date. -/
theorem sendable_serializeDates {toISOString : Instant → String} : (v : Value) → {v' : Value} →
    (∀ o ∈ v.objects, CamelCased o) → serializeDates toISOString v = some v' → Sendable v'
  | .date time, v', _, h => by
    obtain ⟨t, -, rfl⟩ := Option.map_eq_some_iff.1 h
    exact ⟨by simp [Value.objects], rfl⟩
  | .array items, v', hcamel, h => by
    obtain ⟨items', hitems, rfl⟩ := Option.map_eq_some_iff.1 h
    have hsend := sendable_serializeItems items hcamel hitems
    exact ⟨hsend.objects, hsend.dates⟩
  | .object prototype fields, v', hcamel, h => by
    obtain ⟨fields', hfields, rfl⟩ := Option.map_eq_some_iff.1 h
    have hsend := sendable_serializeFields fields
      (fun o ho => hcamel o (List.mem_cons_of_mem _ ho)) hfields
    have hcased := (hcamel _ List.mem_cons_self).of_keys (keys_serializeFields hfields)
    rw [foldl_assign_camel hcased]
    refine ⟨fun o ho => ?_, hsend.dates⟩
    rcases List.mem_cons.1 ho with rfl | ho
    · exact ⟨hcased, rfl⟩
    · exact hsend.objects o ho
  | .undefined, v', _, h => by cases h; exact ⟨by simp [Value.objects], rfl⟩
  | .null, v', _, h => by cases h; exact ⟨by simp [Value.objects], rfl⟩
  | .boolean _, v', _, h => by cases h; exact ⟨by simp [Value.objects], rfl⟩
  | .number _, v', _, h => by cases h; exact ⟨by simp [Value.objects], rfl⟩
  | .string _, v', _, h => by cases h; exact ⟨by simp [Value.objects], rfl⟩

theorem sendable_serializeItems {toISOString : Instant → String} : (items : List Value) →
    {items' : List Value} → (∀ o ∈ Value.itemObjects items, CamelCased o) →
    serializeItems toISOString items = some items' → SendableItems items'
  | [], _, _, h => by cases h; exact ⟨by simp [Value.itemObjects], rfl⟩
  | item :: rest, _, hcamel, h => by
    obtain ⟨item', hitem, h⟩ := Option.bind_eq_some_iff.1 h
    obtain ⟨rest', hrest, rfl⟩ := Option.map_eq_some_iff.1 h
    have hhead := sendable_serializeDates item
      (fun o ho => hcamel o (List.mem_append_left _ ho)) hitem
    have htail := sendable_serializeItems rest
      (fun o ho => hcamel o (List.mem_append_right _ ho)) hrest
    refine ⟨fun o ho => ?_, by rw [itemDates, hhead.dates, htail.dates]; rfl⟩
    exact (List.mem_append.1 ho).elim (hhead.objects o) (htail.objects o)

theorem sendable_serializeFields {toISOString : Instant → String} :
    (fields : List (String × Value)) → {fields' : List (String × Value)} →
    (∀ o ∈ Value.fieldObjects fields, CamelCased o) →
    serializeFields toISOString fields = some fields' → SendableFields fields'
  | [], _, _, h => by cases h; exact ⟨by simp [Value.fieldObjects], rfl⟩
  | (key, value) :: rest, _, hcamel, h => by
    obtain ⟨value', hvalue, h⟩ := Option.bind_eq_some_iff.1 h
    obtain ⟨rest', hrest, rfl⟩ := Option.map_eq_some_iff.1 h
    have hhead := sendable_serializeDates value
      (fun o ho => hcamel o (List.mem_append_left _ ho)) hvalue
    have htail := sendable_serializeFields rest
      (fun o ho => hcamel o (List.mem_append_right _ ho)) hrest
    refine ⟨fun o ho => ?_, by rw [fieldDates, hhead.dates, htail.dates]; rfl⟩
    exact (List.mem_append.1 ho).elim (hhead.objects o) (htail.objects o)

end

mutual

theorem serializeDates_eq_none_iff (toISOString : Instant → String) : (v : Value) →
    (serializeDates toISOString v = none ↔ none ∈ v.dates)
  | .date time => by cases time <;> simp [serializeDates, Value.dates]
  | .array items => by
    rw [serializeDates, Option.map_eq_none_iff, serializeItems_eq_none_iff _ items, Value.dates]
  | .object _ fields => by
    rw [serializeDates, Option.map_eq_none_iff, serializeFields_eq_none_iff _ fields, Value.dates]
  | .undefined | .null | .boolean _ | .number _ | .string _ => by
    simp [serializeDates, Value.dates]

theorem serializeItems_eq_none_iff (toISOString : Instant → String) : (items : List Value) →
    (serializeItems toISOString items = none ↔ none ∈ itemDates items)
  | [] => by simp [serializeItems, itemDates]
  | item :: rest => by
    rw [itemDates, List.mem_append, ← serializeDates_eq_none_iff toISOString item,
      ← serializeItems_eq_none_iff toISOString rest, serializeItems]
    cases serializeDates toISOString item <;> simp

theorem serializeFields_eq_none_iff (toISOString : Instant → String) :
    (fields : List (String × Value)) →
    (serializeFields toISOString fields = none ↔ none ∈ fieldDates fields)
  | [] => by simp [serializeFields, fieldDates]
  | (key, value) :: rest => by
    rw [fieldDates, List.mem_append,
      ← serializeDates_eq_none_iff toISOString value,
      ← serializeFields_eq_none_iff toISOString rest, serializeFields]
    cases serializeDates toISOString value <;> simp

end

/-! ## The envelope -/

theorem mem_of_lookup {fields : List (String × Value)} {name : String} {v : Value}
    (h : fields.lookup name = some v) : (name, v) ∈ fields := by
  obtain ⟨l₁, l₂, rfl, -⟩ := List.lookup_eq_some_iff.1 h
  simp

theorem fieldDates_of_mem {fields : List (String × Value)} {p : String × Value} (h : p ∈ fields)
    (hdates : fieldDates fields = []) : p.2.dates = [] := by
  induction fields with
  | nil => cases h
  | cons q rest ih =>
    obtain ⟨key, value⟩ := q
    rw [fieldDates, List.append_eq_nil_iff] at hdates
    rcases List.mem_cons.1 h with rfl | h
    · exact hdates.1
    · exact ih h hdates.2

/-- The names that the envelope asks for are written alike in both cases. -/
def envelopeNames : List String := ["data", "pagination"]

theorem toSnakeKey_eq_iff {name key : String} (hname : name ∈ envelopeNames)
    (hkey : '-' ∉ key.toList ∧ '_' ∉ key.toList) : toSnakeKey key = name ↔ key = name := by
  have hcases : ∀ name ∈ envelopeNames, toSnakeKey name = name ∧ toCamelKey name = name := by
    decide
  obtain ⟨hsnake, hcamel⟩ := hcases name hname
  constructor
  · intro h
    rw [← (toCamelKey_toSnakeKey_eq_iff key).2 (not_hasLowerSlot_of_no_separator hkey), h, hcamel]
  · rintro rfl
    exact hsnake

theorem lookup_convertFields {name : String} (hname : name ∈ envelopeNames)
    {fields : List (String × Value)}
    (hkeys : ∀ key ∈ fields.map Prod.fst, '-' ∉ key.toList ∧ '_' ∉ key.toList) :
    (convertFields toSnakeKey fields).lookup name =
      (fields.lookup name).map (convertKeys toSnakeKey) := by
  induction fields with
  | nil => rfl
  | cons p rest ih =>
    obtain ⟨key, value⟩ := p
    rw [List.map_cons, List.forall_mem_cons] at hkeys
    have hiff := toSnakeKey_eq_iff hname hkeys.1
    rw [convertFields, List.lookup_cons, List.lookup_cons, ih hkeys.2]
    by_cases h : key = name
    · subst h
      simp [hiff.2 rfl]
    · have hne : toSnakeKey key ≠ name := fun heq => h (hiff.1 heq)
      simp [beq_eq_false_iff_ne.2 (Ne.symm h), beq_eq_false_iff_ne.2 (Ne.symm hne)]

namespace Sendable

variable {v w : Value}

theorem camelCased (h : Sendable v) : ∀ o ∈ v.objects, CamelCased o :=
  fun o ho => (h.objects o ho).toCamelCased

theorem object_spec {prototype : Option Value} {fields : List (String × Value)}
    (h : Sendable (.object prototype fields)) :
    prototype = none ∧ CamelCased (prototype, fields) ∧
      ∀ p ∈ fields, Sendable p.2 := by
  have hself := h.objects _ List.mem_cons_self
  refine ⟨hself.ordinary, hself.toCamelCased, fun p hp => ⟨fun o ho => ?_, ?_⟩⟩
  · exact h.objects o (List.mem_cons_of_mem _ (Value.mem_fieldObjects.2 ⟨p, hp, ho⟩))
  · exact fieldDates_of_mem hp h.dates

theorem undefined : Sendable .undefined := ⟨by simp [Value.objects], rfl⟩

theorem get (h : Sendable v) (name : String) : Sendable (v.get name) := by
  cases v with
  | object prototype fields =>
    obtain ⟨rfl, -, hfields⟩ := h.object_spec
    rw [Value.get]
    cases hlookup : fields.lookup name with
    | none => exact undefined
    | some value => exact hfields _ (mem_of_lookup hlookup)
  | _ => exact undefined

theorem orElse (h : Sendable v) (hw : Sendable w) : Sendable (v.orElse w) := by
  cases v with
  | undefined => exact hw
  | null => exact hw
  | _ => exact h

/-- Both cases hold the same under a name of the envelope. -/
theorem get_toSnakeCase (h : Sendable v) {name : String} (hname : name ∈ envelopeNames) :
    (convertKeys toSnakeKey v).get name = convertKeys toSnakeKey (v.get name) := by
  cases v with
  | object prototype fields =>
    obtain ⟨rfl, hcased, -⟩ := h.object_spec
    rw [toSnakeCase_object hcased, Value.get, Value.get,
      lookup_convertFields hname hcased.no_separator]
    cases fields.lookup name <;> rfl
  | _ => rfl

theorem orElse_toSnakeCase (h : Sendable v) :
    (convertKeys toSnakeKey v).orElse (convertKeys toSnakeKey w) =
      convertKeys toSnakeKey (v.orElse w) := by
  cases v with
  | object prototype fields =>
    obtain ⟨rfl, hcased, -⟩ := h.object_spec
    show (convertKeys toSnakeKey (.object none fields)).orElse _ =
      convertKeys toSnakeKey (.object none fields)
    rw [toSnakeCase_object hcased]
    rfl
  | _ => rfl

theorem of_fields {fields : List (String × Value)} (hcased : CamelCased (none, fields))
    (hfields : ∀ p ∈ fields, Sendable p.2) : Sendable (.object none fields) where
  objects := by
    intro o ho
    rcases List.mem_cons.1 ho with rfl | ho
    · exact ⟨hcased, rfl⟩
    · obtain ⟨p, hp, ho⟩ := Value.mem_fieldObjects.1 ho
      exact (hfields p hp).objects o ho
  dates := by
    rw [Value.dates]
    induction fields with
    | nil => rfl
    | cons p rest ih =>
      obtain ⟨key, value⟩ := p
      obtain ⟨hhead, htail⟩ := List.forall_mem_cons.1 hfields
      have hrest : CamelCased (none, rest) :=
        ⟨(List.nodup_cons.1 hcased.nodup).2, fun key hkey =>
          hcased.no_separator key (List.mem_cons_of_mem _ hkey)⟩
      rw [fieldDates, hhead.dates, ih hrest htail]
      rfl

/-- The envelope around what can be sent can be sent. -/
theorem transform (h : Sendable v) : Sendable (transform v) := by
  have hempty : Sendable (.object none []) := of_fields ⟨by simp, by simp⟩ (by simp)
  have henvelope := h.orElse hempty
  have hdata := (henvelope.get "data").orElse h
  have hpagination := henvelope.get "pagination"
  unfold NestStarter.Shared.transform
  dsimp only
  split
  · exact of_fields ⟨by simp, by simp⟩ (by simpa using ⟨hdata, hpagination⟩)
  · exact of_fields ⟨by simp, by simp⟩ (by simpa using hdata)

/-- Converting the keys and putting into the envelope commute. -/
theorem transform_toSnakeCase (h : Sendable v) :
    NestStarter.Shared.transform (convertKeys toSnakeKey v) =
      convertKeys toSnakeKey (NestStarter.Shared.transform v) := by
  have hempty : Sendable (.object none []) := of_fields ⟨by simp, by simp⟩ (by simp)
  have henvelope := h.orElse hempty
  have hconvert : (convertKeys toSnakeKey v).orElse (.object none []) =
      convertKeys toSnakeKey (v.orElse (.object none [])) :=
    h.orElse_toSnakeCase (w := .object none [])
  have hdata := (henvelope.get "data").orElse_toSnakeCase (w := v)
  have hpagination := henvelope.get "pagination"
  have htruthy := truthy_toSnakeCase _ hpagination.camelCased
  have htarget := h.transform.object_spec
  rw [NestStarter.Shared.transform, NestStarter.Shared.transform, toSnakeCase_object htarget.2.1]
  rw [hconvert, henvelope.get_toSnakeCase (by decide), henvelope.get_toSnakeCase (by decide), hdata]
  rw [CaseConverterUtils.toSnakeCase] at htruthy
  rw [htruthy]
  cases ((v.orElse (.object none [])).get "pagination").truthy with
  | true => rfl
  | false => rfl

end Sendable

/-- The response of a handler in camel case, of any depth: an invalid date in it makes the
interceptors throw, and otherwise a client that asks for snake case is sent the same body as the
others with its keys converted, which it can convert back, and no body has a date left in it. -/
theorem respond_in_both_cases (toISOString : Instant → String) {classSerializer : Value → Value}
    {toLowerCase : String → String} {headers headers' : List (String × String)} {response : Value}
    (hserializer : ∀ v, serializeDates toISOString response = some v → classSerializer v = v)
    (hcased : ∀ o ∈ response.objects, CamelCased o)
    (hsnake : wantsSnakeCase toLowerCase headers = true)
    (hcamel : wantsSnakeCase toLowerCase headers' = false) :
    (none ∈ response.dates ∧
      respond toISOString classSerializer toLowerCase headers response = none ∧
      respond toISOString classSerializer toLowerCase headers' response = none) ∨
    ∃ body, Sendable body ∧
      respond toISOString classSerializer toLowerCase headers' response = some body ∧
      respond toISOString classSerializer toLowerCase headers response =
        some (CaseConverterUtils.toSnakeCase body) ∧
      CaseConverterUtils.toCamelCase (CaseConverterUtils.toSnakeCase body) = body := by
  cases hdates : serializeDates toISOString response with
  | none =>
    exact Or.inl ⟨(serializeDates_eq_none_iff _ response).1 hdates, by rw [respond, hdates]; rfl,
      by rw [respond, hdates]; rfl⟩
  | some v =>
    have hv := sendable_serializeDates response hcased hdates
    have hbody := hv.transform
    refine Or.inr ⟨transform v, hbody, ?_, ?_, ?_⟩
    · rw [respond, hdates, Option.map_some, hserializer v hdates, SnakeCaseInterceptor.intercept,
        hcamel]
      rfl
    · rw [respond, hdates, Option.map_some, hserializer v hdates, SnakeCaseInterceptor.intercept,
        hsnake, if_pos rfl]
      exact congrArg some hv.transform_toSnakeCase
    · have hround := case_round_trip.2.2 (transform v) hbody.camelCased
      exact hround.1.trans (hround.2 fun o ho => (hbody.objects o ho).ordinary)

def pageSample : Value :=
  .object none [("data", .array [.object none [("createdAt", .date (some 0))]]),
    ("pagination", .object none [("totalPages", .number (.finite 1))])]

theorem respond_in_both_cases_sample :
    ∃ body, respond (fun _ => "1970-01-01T00:00:00.000Z") id id [] pageSample = some body ∧
      respond (fun _ => "1970-01-01T00:00:00.000Z") id id [("x-case-format", "snake")]
        pageSample = some (CaseConverterUtils.toSnakeCase body) ∧
      CaseConverterUtils.toCamelCase (CaseConverterUtils.toSnakeCase body) = body := by
  have hcased : ∀ o ∈ pageSample.objects, CamelCased o := by
    intro o ho
    simp only [pageSample, Value.objects, Value.fieldObjects, Value.itemObjects, List.append_nil,
      List.nil_append, List.cons_append, List.mem_cons, List.not_mem_nil, or_false] at ho
    rcases ho with rfl | rfl | rfl
    all_goals exact ⟨by decide, by simp⟩
  rcases respond_in_both_cases (fun _ => "1970-01-01T00:00:00.000Z")
    (fun _ _ => rfl) hcased (by decide : wantsSnakeCase id [("x-case-format", "snake")] = true)
    (by decide : wantsSnakeCase id [] = false) with ⟨hdates, -⟩ | ⟨body, -, h⟩
  · exact absurd hdates (by simp [pageSample, Value.dates, fieldDates, itemDates])
  · exact ⟨body, h⟩

end NestStarter.Shared
