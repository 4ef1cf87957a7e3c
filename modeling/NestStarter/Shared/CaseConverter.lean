import Mathlib
import NestStarter.Shared.Values

/-! # `CaseConverterUtils`

Keys between snake case and camel case, at every depth of a value. A client that asks
for snake case gets `toSnakeCase` of a response and sends what `toCamelCase` takes back.
-/

namespace NestStarter.Shared

def CASE_FORMAT_HEADER : String := "x-case-format"

def SNAKE_CASE : String := "snake"

def isSeparator (c : Char) : Bool := c == '-' || c == '_'

/-- `.replace(/[-_]([a-z])/gi, (_, char) => char.toUpperCase())`, from the left. -/
def camelChars : List Char → List Char
  | sep :: c :: rest =>
      if isSeparator sep && c.isAlpha then c.toUpper :: camelChars rest
      else sep :: camelChars (c :: rest)
  | cs => cs

/-- `.replace(/[A-Z]/g, (letter) => '_' + letter.toLowerCase())`. -/
def snakeChars (cs : List Char) : List Char :=
  cs.flatMap fun c => if c.isUpper then ['_', c.toLower] else [c]

def toCamelKey (key : String) : String := String.ofList (camelChars key.toList)

def toSnakeKey (key : String) : String := String.ofList (snakeChars key.toList)

/-- A separator with a lower case letter right after it. -/
def HasLowerSlot : List Char → Prop
  | sep :: c :: rest => isSeparator sep = true ∧ c.isLower = true ∨ HasLowerSlot (c :: rest)
  | _ => False

instance HasLowerSlot.decidable : (cs : List Char) → Decidable (HasLowerSlot cs)
  | [] => .isFalse id
  | [_] => .isFalse id
  | sep :: c :: rest =>
      have := HasLowerSlot.decidable (c :: rest)
      inferInstanceAs
        (Decidable (isSeparator sep = true ∧ c.isLower = true ∨ HasLowerSlot (c :: rest)))

/-- A hyphen with a letter right after it. -/
def HasKebabSlot : List Char → Prop
  | sep :: c :: rest => sep = '-' ∧ c.isAlpha = true ∨ HasKebabSlot (c :: rest)
  | _ => False

theorem not_isAlpha_of_isSeparator {c : Char} (h : isSeparator c = true) : c.isAlpha = false := by
  simp only [isSeparator, Bool.or_eq_true, beq_iff_eq] at h
  rcases h with rfl | rfl <;> decide

theorem not_isSeparator_of_isAlpha {c : Char} (h : c.isAlpha = true) : isSeparator c = false := by
  cases hs : isSeparator c with
  | false => rfl
  | true => simp [not_isAlpha_of_isSeparator hs] at h

theorem isAlpha_of_isUpper {c : Char} (h : c.isUpper = true) : c.isAlpha = true := by
  simp [Char.isAlpha, h]

theorem isAlpha_of_isLower {c : Char} (h : c.isLower = true) : c.isAlpha = true := by
  simp [Char.isAlpha, h]

/-- Whether the list begins with a lower case letter. -/
def startsLower : List Char → Bool
  | c :: _ => c.isLower
  | [] => false

theorem hasLowerSlot_cons (c : Char) (cs : List Char) :
    HasLowerSlot (c :: cs) ↔
      isSeparator c = true ∧ startsLower cs = true ∨ HasLowerSlot cs := by
  cases cs <;> simp [HasLowerSlot, startsLower]

theorem hasLowerSlot_cons_of_not_isSeparator {c : Char} (h : isSeparator c = false)
    (cs : List Char) : HasLowerSlot (c :: cs) ↔ HasLowerSlot cs := by
  simp [hasLowerSlot_cons, h]

theorem hasKebabSlot_cons_of_ne {c : Char} (h : c ≠ '-') (cs : List Char) :
    HasKebabSlot (c :: cs) ↔ HasKebabSlot cs := by
  cases cs <;> simp [HasKebabSlot, h]

theorem camelChars_cons_of_not_isSeparator {c : Char} (h : isSeparator c = false)
    (cs : List Char) : camelChars (c :: cs) = c :: camelChars cs := by
  cases cs <;> simp [camelChars, h]

theorem camelChars_slot {sep c : Char} (hs : isSeparator sep = true) (hc : c.isAlpha = true)
    (rest : List Char) : camelChars (sep :: c :: rest) = c.toUpper :: camelChars rest := by
  simp [camelChars, hs, hc]

theorem camelChars_cons_of_not_isAlpha (sep : Char) {c : Char} (hc : c.isAlpha = false)
    (rest : List Char) : camelChars (sep :: c :: rest) = sep :: camelChars (c :: rest) := by
  simp [camelChars, hc]

theorem snakeChars_cons_of_isUpper {c : Char} (h : c.isUpper = true) (cs : List Char) :
    snakeChars (c :: cs) = '_' :: c.toLower :: snakeChars cs := by
  simp [snakeChars, h]

theorem snakeChars_cons_of_not_isUpper {c : Char} (h : c.isUpper = false) (cs : List Char) :
    snakeChars (c :: cs) = c :: snakeChars cs := by
  simp [snakeChars, h]

theorem camelChars_snake_capital {c : Char} (h : c.isUpper = true) (cs : List Char) :
    camelChars ('_' :: c.toLower :: cs) = c :: camelChars cs := by
  have hc : c.toLower.isAlpha = true := by simpa using isAlpha_of_isUpper h
  rw [camelChars_slot (by decide) hc, Char.toUpper_toLower_eq_toUpper,
    Char.toUpper_eq_of_not_isLower (Char.not_isLower_of_isUpper h)]

/-! ## The round trip of a key -/

/-- Camel case after snake case gives the key back exactly when the key has no slot that
snake case could have made. -/
theorem camelChars_snakeChars_eq_iff (cs : List Char) :
    camelChars (snakeChars cs) = cs ↔ ¬ HasLowerSlot cs := by
  induction cs with
  | nil => simp [snakeChars, camelChars, HasLowerSlot]
  | cons c rest ih =>
    cases hu : c.isUpper with
    | true =>
      have hs := not_isSeparator_of_isAlpha (isAlpha_of_isUpper hu)
      rw [snakeChars_cons_of_isUpper hu, camelChars_snake_capital hu, List.cons_inj_right, ih,
        hasLowerSlot_cons_of_not_isSeparator hs]
    | false =>
      rw [snakeChars_cons_of_not_isUpper hu]
      cases hs : isSeparator c with
      | false =>
        rw [camelChars_cons_of_not_isSeparator hs, List.cons_inj_right, ih,
          hasLowerSlot_cons_of_not_isSeparator hs]
      | true =>
        -- What follows a separator decides whether the pair is a slot.
        cases rest with
        | nil => simp [snakeChars, camelChars, HasLowerSlot]
        | cons d r =>
          cases hd : d.isUpper with
          | true =>
            have hl : d.isLower = false := by simpa using Char.not_isLower_of_isUpper hd
            rw [snakeChars_cons_of_isUpper hd, camelChars_cons_of_not_isAlpha c (by decide),
              ← snakeChars_cons_of_isUpper hd, List.cons_inj_right, ih, hasLowerSlot_cons c]
            simp [startsLower, hl]
          | false =>
            cases hl : d.isLower with
            | true =>
              rw [snakeChars_cons_of_not_isUpper hd,
                camelChars_slot hs (isAlpha_of_isLower hl), hasLowerSlot_cons]
              have hne : d.toUpper ≠ c := by
                rintro rfl
                have := not_isAlpha_of_isSeparator hs
                simp [isAlpha_of_isLower hl] at this
              simp [hne, hs, startsLower, hl]
            | false =>
              have ha : d.isAlpha = false := by simp [Char.isAlpha, hd, hl]
              rw [snakeChars_cons_of_not_isUpper hd, camelChars_cons_of_not_isAlpha c ha,
                ← snakeChars_cons_of_not_isUpper hd, List.cons_inj_right, ih, hasLowerSlot_cons c]
              simp [startsLower, hl]

theorem toLower_eq_self_iff {c : Char} : c.toLower = c ↔ c.isUpper = false := by
  constructor
  · intro h
    rw [← h]
    exact Char.isUpper_toLower_eq_false c
  · intro h
    exact Char.toLower_eq_of_not_isUpper (by simp [h])

/-- Snake case after camel case gives the key back exactly when the key is in snake case. -/
theorem snakeChars_camelChars_eq_iff (cs : List Char) :
    snakeChars (camelChars cs) = cs ↔
      (∀ c ∈ cs, c.isUpper = false) ∧ ¬ HasKebabSlot cs := by
  induction cs using camelChars.induct with
  | case1 sep c rest h ih =>
    simp only [Bool.and_eq_true] at h
    obtain ⟨hs, hc⟩ := h
    have hsep : sep.isUpper = false := by
      have := not_isAlpha_of_isSeparator hs
      simp_all [Char.isAlpha]
    have hne : c ≠ '-' := by
      rintro rfl
      exact absurd hc (by decide)
    have hdash : sep = '-' ↔ ¬ sep = '_' := by
      simp only [isSeparator, Bool.or_eq_true, beq_iff_eq] at hs
      rcases hs with rfl | rfl <;> decide
    rw [camelChars_slot hs hc,
      snakeChars_cons_of_isUpper (by rw [Char.isUpper_toUpper_eq_isAlpha, hc]),
      Char.toLower_toUpper_eq_toLower]
    simp only [List.cons.injEq, ih, HasKebabSlot, hasKebabSlot_cons_of_ne hne, hdash, hc,
      List.forall_mem_cons, hsep, toLower_eq_self_iff, eq_comm (a := '_')]
    tauto
  | case2 sep c rest h ih =>
    have hcamel : camelChars (sep :: c :: rest) = sep :: camelChars (c :: rest) := by
      simp only [Bool.not_eq_true] at h
      simp [camelChars, h]
    have hslot : HasKebabSlot (sep :: c :: rest) ↔ HasKebabSlot (c :: rest) := by
      constructor
      · rintro (⟨rfl, hc⟩ | hrest)
        · exact absurd (by rw [hc]; decide) h
        · exact hrest
      · exact Or.inr
    rw [hcamel, hslot, List.forall_mem_cons]
    cases hu : sep.isUpper with
    | true =>
      have hne : '_' ≠ sep := by
        rintro rfl
        exact absurd hu (by decide)
      rw [snakeChars_cons_of_isUpper hu]
      simp [hne]
    | false =>
      rw [snakeChars_cons_of_not_isUpper hu, List.cons_inj_right, ih]
      simp
  | case3 cs hshort =>
    rcases cs with _ | ⟨c, _ | ⟨d, rest⟩⟩
    · simp [camelChars, snakeChars, HasKebabSlot]
    · cases hu : c.isUpper <;> simp [camelChars, snakeChars, HasKebabSlot, hu]
    · exact absurd rfl (hshort c d rest)

/-- The first character stays unless it is written over by a capital. -/
theorem head_camelChars (c : Char) (cs : List Char) :
    startsLower (camelChars (c :: cs)) = true → c.isLower = true := by
  cases cs with
  | nil => exact id
  | cons d rest =>
    unfold camelChars
    split
    · simp [startsLower]
    · exact id

/-- No separator is left in front of a lower case letter. -/
theorem not_hasLowerSlot_camelChars (cs : List Char) : ¬ HasLowerSlot (camelChars cs) := by
  induction cs using camelChars.induct with
  | case1 sep c rest h ih =>
    simp only [Bool.and_eq_true] at h
    rw [camelChars_slot h.1 h.2, hasLowerSlot_cons_of_not_isSeparator
      (not_isSeparator_of_isAlpha (by simpa using h.2))]
    exact ih
  | case2 sep c rest h ih =>
    have hcamel : camelChars (sep :: c :: rest) = sep :: camelChars (c :: rest) := by
      simp only [Bool.not_eq_true] at h
      simp [camelChars, h]
    rw [hcamel, hasLowerSlot_cons]
    rintro (⟨hs, hl⟩ | hrest)
    · exact h (by rw [hs, isAlpha_of_isLower (head_camelChars c rest hl)]; rfl)
    · exact ih hrest
  | case3 cs hshort =>
    rcases cs with _ | ⟨c, _ | ⟨d, rest⟩⟩
    · simp [camelChars, HasLowerSlot]
    · simp [camelChars, HasLowerSlot]
    · exact absurd rfl (hshort c d rest)

/-- A key that `toCamelCase` may write. -/
structure CamelKey (key : String) : Prop where
  ne_proto : key ≠ "__proto__"
  no_slot : ¬ HasLowerSlot key.toList

theorem camelKey_of_no_slot {key : String} (h : ¬ HasLowerSlot key.toList) : CamelKey key where
  ne_proto := by
    rintro rfl
    exact h (by decide)
  no_slot := h

theorem camelKey_toCamelKey (key : String) : CamelKey (toCamelKey key) :=
  camelKey_of_no_slot (by simpa [toCamelKey] using not_hasLowerSlot_camelChars key.toList)

/-! ## Values -/

mutual

def convertKeys (convertKey : String → String) : Value → Value
  | .array items => .array (convertItems convertKey items)
  | .object _ fields => (convertFields convertKey fields).foldl Value.assign (.object none [])
  | v => v

def convertItems (convertKey : String → String) : List Value → List Value
  | [] => []
  | item :: rest => convertKeys convertKey item :: convertItems convertKey rest

/-- The assignments to the new object, in the order of `Object.keys`. -/
def convertFields (convertKey : String → String) :
    List (String × Value) → List (String × Value)
  | [] => []
  | (key, value) :: rest =>
      (convertKey key, convertKeys convertKey value) :: convertFields convertKey rest

end

def CaseConverterUtils.toCamelCase (input : Value) : Value := convertKeys toCamelKey input

def CaseConverterUtils.toSnakeCase (input : Value) : Value := convertKeys toSnakeKey input

theorem keys_convertFields (convertKey : String → String) (fields : List (String × Value)) :
    (convertFields convertKey fields).map Prod.fst =
      (fields.map Prod.fst).map convertKey := by
  induction fields with
  | nil => rfl
  | cons p rest ih => simp [convertFields, ih]

/-- Where the new keys stay distinct, nothing is merged and nothing is lost. -/
theorem convertKeys_object {convertKey : String → String} {prototype : Option Value}
    {fields : List (String × Value)}
    (hproto : "__proto__" ∉ (fields.map Prod.fst).map convertKey)
    (hnodup : ((fields.map Prod.fst).map convertKey).Nodup) :
    convertKeys convertKey (.object prototype fields) =
      .object none (convertFields convertKey fields) := by
  rw [convertKeys, Value.foldl_assign _ [] (by rwa [keys_convertFields])
    (by simpa [keys_convertFields] using hnodup)]
  rfl

/-- An object in camel case: its keys are distinct and free of separators. -/
structure CamelCased (o : Option Value × List (String × Value)) : Prop where
  nodup : (o.2.map Prod.fst).Nodup
  no_separator : ∀ key ∈ o.2.map Prod.fst, '-' ∉ key.toList ∧ '_' ∉ key.toList

theorem not_hasLowerSlot_of_no_separator {cs : List Char} (h : '-' ∉ cs ∧ '_' ∉ cs) :
    ¬ HasLowerSlot cs := by
  induction cs with
  | nil => simp [HasLowerSlot]
  | cons c rest ih =>
    simp only [List.mem_cons, not_or] at h
    have hc : isSeparator c = false := by simp [isSeparator, Ne.symm h.1.1, Ne.symm h.2.1]
    rw [hasLowerSlot_cons_of_not_isSeparator hc]
    exact ih ⟨h.1.2, h.2.2⟩

theorem ofList_eq_iff {cs : List Char} {s : String} : String.ofList cs = s ↔ cs = s.toList :=
  ⟨fun h => by rw [← h, String.toList_ofList], fun h => by rw [h, String.ofList_toList]⟩

theorem toCamelKey_toSnakeKey_eq_iff (key : String) :
    toCamelKey (toSnakeKey key) = key ↔ ¬ HasLowerSlot key.toList := by
  rw [← camelChars_snakeChars_eq_iff, toCamelKey, toSnakeKey, String.toList_ofList,
    ofList_eq_iff]

theorem toSnakeKey_toCamelKey_eq_iff (key : String) :
    toSnakeKey (toCamelKey key) = key ↔
      (∀ c ∈ key.toList, c.isUpper = false) ∧ ¬ HasKebabSlot key.toList := by
  rw [← snakeChars_camelChars_eq_iff, toCamelKey, toSnakeKey, String.toList_ofList,
    ofList_eq_iff]

/-- What snake case makes of a key without separators is no `__proto__`: camel case would
have to give the key back. -/
theorem toSnakeKey_ne_proto {key : String} (h : '-' ∉ key.toList ∧ '_' ∉ key.toList) :
    toSnakeKey key ≠ "__proto__" := by
  intro heq
  have hkey := (toCamelKey_toSnakeKey_eq_iff key).2 (not_hasLowerSlot_of_no_separator h)
  rw [heq] at hkey
  subst hkey
  exact h.2 (by decide)

theorem ne_proto_of_no_separator {key : String} (h : '-' ∉ key.toList ∧ '_' ∉ key.toList) :
    key ≠ "__proto__" := by
  rintro rfl
  exact h.2 (by decide)

theorem map_toCamelKey_toSnakeKey {keys : List String}
    (h : ∀ key ∈ keys, '-' ∉ key.toList ∧ '_' ∉ key.toList) :
    (keys.map toSnakeKey).map toCamelKey = keys := by
  rw [List.map_map]
  exact (List.map_congr_left fun key hkey => (toCamelKey_toSnakeKey_eq_iff key).2
    (not_hasLowerSlot_of_no_separator (h key hkey))).trans (List.map_id keys)

theorem toSnakeCase_object {prototype : Option Value} {fields : List (String × Value)}
    (h : CamelCased (prototype, fields)) :
    convertKeys toSnakeKey (.object prototype fields) =
      .object none (convertFields toSnakeKey fields) := by
  refine convertKeys_object ?_ (List.Nodup.of_map toCamelKey ?_)
  · intro hmem
    obtain ⟨key, hkey, heq⟩ := List.mem_map.1 hmem
    exact toSnakeKey_ne_proto (h.no_separator key hkey) heq
  · rw [map_toCamelKey_toSnakeKey h.no_separator]
    exact h.nodup

theorem toCamelCase_object {prototype : Option Value} {fields : List (String × Value)}
    (h : CamelCased (prototype, fields)) :
    convertKeys toCamelKey (.object none (convertFields toSnakeKey fields)) =
      .object none (convertFields toCamelKey (convertFields toSnakeKey fields)) := by
  have hkeys : (((convertFields toSnakeKey fields).map Prod.fst).map toCamelKey) =
      fields.map Prod.fst := by
    rw [keys_convertFields, map_toCamelKey_toSnakeKey h.no_separator]
  refine convertKeys_object ?_ ?_
  · rw [hkeys]
    exact fun hmem => ne_proto_of_no_separator (h.no_separator _ hmem) rfl
  · rw [hkeys]
    exact h.nodup

mutual

theorem toCamelCase_toSnakeCase : (v : Value) → (∀ o ∈ v.objects, CamelCased o) →
    convertKeys toCamelKey (convertKeys toSnakeKey v) = v.ordinary
  | .array items, h => by
    rw [convertKeys, convertKeys, Value.ordinary, convertItems_round items h]
  | .object prototype fields, h => by
    have hcamel : CamelCased (prototype, fields) := h _ List.mem_cons_self
    rw [toSnakeCase_object hcamel, toCamelCase_object hcamel, Value.ordinary,
      convertFields_round fields hcamel.no_separator fun o ho => h o (List.mem_cons_of_mem _ ho)]
  | .undefined, _ => rfl
  | .null, _ => rfl
  | .boolean _, _ => rfl
  | .number _, _ => rfl
  | .string _, _ => rfl
  | .date _, _ => rfl

theorem convertItems_round : (items : List Value) →
    (∀ o ∈ Value.itemObjects items, CamelCased o) →
    convertItems toCamelKey (convertItems toSnakeKey items) = Value.ordinaryItems items
  | [], _ => rfl
  | item :: rest, h => by
    rw [convertItems, convertItems, Value.ordinaryItems,
      toCamelCase_toSnakeCase item fun o ho => h o (List.mem_append_left _ ho),
      convertItems_round rest fun o ho => h o (List.mem_append_right _ ho)]

theorem convertFields_round : (fields : List (String × Value)) →
    (∀ key ∈ fields.map Prod.fst, '-' ∉ key.toList ∧ '_' ∉ key.toList) →
    (∀ o ∈ Value.fieldObjects fields, CamelCased o) →
    convertFields toCamelKey (convertFields toSnakeKey fields) = Value.ordinaryFields fields
  | [], _, _ => rfl
  | (key, value) :: rest, hkeys, h => by
    simp only [List.map_cons, List.forall_mem_cons] at hkeys
    rw [convertFields, convertFields, Value.ordinaryFields,
      (toCamelKey_toSnakeKey_eq_iff key).2 (not_hasLowerSlot_of_no_separator hkeys.1),
      toCamelCase_toSnakeCase value fun o ho => h o (List.mem_append_left _ ho),
      convertFields_round rest hkeys.2 fun o ho => h o (List.mem_append_right _ ho)]

end

/-- Which keys survive a round trip, in either direction. A value in camel case survives
whole and to any depth, but for the classes its objects may have been instances of. -/
theorem case_round_trip :
    (∀ key, toCamelKey (toSnakeKey key) = key ↔ ¬ HasLowerSlot key.toList) ∧
      (∀ key, toSnakeKey (toCamelKey key) = key ↔
        (∀ c ∈ key.toList, c.isUpper = false) ∧ ¬ HasKebabSlot key.toList) ∧
      ∀ v : Value, (∀ o ∈ v.objects, CamelCased o) →
        CaseConverterUtils.toCamelCase (CaseConverterUtils.toSnakeCase v) = v.ordinary ∧
          ((∀ o ∈ v.objects, o.1 = none) → v.ordinary = v) :=
  ⟨toCamelKey_toSnakeKey_eq_iff, toSnakeKey_toCamelKey_eq_iff,
    fun v h => ⟨toCamelCase_toSnakeCase v h, v.ordinary_of_plain⟩⟩

def usersSample : Value :=
  .object none [("data", .array [
    .object none [("firstName", .string "Samir"), ("createdAt", .date (some 0))],
    .object none [("firstName", .string "Rima"), ("createdAt", .date (some 1))]])]

theorem case_round_trip_sample :
    CaseConverterUtils.toCamelCase (CaseConverterUtils.toSnakeCase usersSample) = usersSample := by
  have hobjects : ∀ o ∈ usersSample.objects, CamelCased o ∧ o.1 = none := by
    intro o ho
    simp only [usersSample, Value.objects, Value.fieldObjects, Value.itemObjects, List.append_nil,
      List.nil_append, List.cons_append, List.mem_cons, List.not_mem_nil, or_false] at ho
    rcases ho with rfl | rfl | rfl
    all_goals exact ⟨⟨by decide, by simp⟩, rfl⟩
  have h := case_round_trip.2.2 usersSample fun o ho => (hobjects o ho).1
  exact h.1.trans (h.2 fun o ho => (hobjects o ho).2)

/-- An object that `toCamelCase` may return. -/
structure Clean (o : Option Value × List (String × Value)) : Prop where
  prototype : o.1 = none
  keys : ∀ key ∈ o.2.map Prod.fst, CamelKey key

mutual

/-- The keys that `convertKeys` assigns to, at every depth. -/
def assignedKeys (convertKey : String → String) : Value → List String
  | .array items => assignedItemKeys convertKey items
  | .object _ fields => assignedFieldKeys convertKey fields
  | _ => []

def assignedItemKeys (convertKey : String → String) : List Value → List String
  | [] => []
  | item :: rest => assignedKeys convertKey item ++ assignedItemKeys convertKey rest

def assignedFieldKeys (convertKey : String → String) : List (String × Value) → List String
  | [] => []
  | (key, value) :: rest =>
      convertKey key :: (assignedKeys convertKey value ++ assignedFieldKeys convertKey rest)

end

mutual

theorem assignedKeys_camel : (v : Value) → ∀ key ∈ assignedKeys toCamelKey v, CamelKey key
  | .array items, key, h => assignedItemKeys_camel items key h
  | .object _ fields, key, h => assignedFieldKeys_camel fields key h

theorem assignedItemKeys_camel : (items : List Value) →
    ∀ key ∈ assignedItemKeys toCamelKey items, CamelKey key
  | item :: rest, key, h => by
    rcases List.mem_append.1 h with h | h
    · exact assignedKeys_camel item key h
    · exact assignedItemKeys_camel rest key h

theorem assignedFieldKeys_camel : (fields : List (String × Value)) →
    ∀ key ∈ assignedFieldKeys toCamelKey fields, CamelKey key
  | (name, value) :: rest, key, h => by
    rcases List.mem_cons.1 h with rfl | h
    · exact camelKey_toCamelKey name
    · rcases List.mem_append.1 h with h | h
      · exact assignedKeys_camel value key h
      · exact assignedFieldKeys_camel rest key h

end

/-- What holds of the properties that an object of the result has, while it is built. -/
def CleanField (p : String × Value) : Prop := CamelKey p.1 ∧ ∀ o ∈ p.2.objects, Clean o

theorem foldl_assign_clean (assignments before : List (String × Value))
    (h : ∀ p ∈ assignments, CleanField p) (hbefore : ∀ p ∈ before, CleanField p) :
    ∃ fields, assignments.foldl Value.assign (.object none before) = .object none fields ∧
      ∀ p ∈ fields, CleanField p := by
  induction assignments generalizing before with
  | nil => exact ⟨before, rfl, hbefore⟩
  | cons p rest ih =>
    rw [List.forall_mem_cons] at h
    rw [List.foldl_cons, Value.assign_of_ne p.2 h.1.1.ne_proto]
    refine ih _ h.2 fun q hq => ?_
    rcases Value.mem_assignField hq with rfl | hq
    · exact h.1
    · exact hbefore q hq

mutual

theorem clean_toCamelCase : (v : Value) → ∀ o ∈ (convertKeys toCamelKey v).objects, Clean o
  | .array items, o, h => clean_convertItems items o h
  | .object prototype fields, o, h => by
    obtain ⟨result, heq, hresult⟩ := foldl_assign_clean (convertFields toCamelKey fields) []
      (clean_convertFields fields) (by simp)
    rw [convertKeys, heq] at h
    rcases List.mem_cons.1 h with rfl | h
    · refine ⟨rfl, fun key hkey => ?_⟩
      obtain ⟨p, hp, rfl⟩ := List.mem_map.1 hkey
      exact (hresult p hp).1
    · obtain ⟨p, hp, hpo⟩ := Value.mem_fieldObjects.1 h
      exact (hresult p hp).2 o hpo

theorem clean_convertItems : (items : List Value) →
    ∀ o ∈ Value.itemObjects (convertItems toCamelKey items), Clean o
  | item :: rest, o, h => by
    rcases List.mem_append.1 h with h | h
    · exact clean_toCamelCase item o h
    · exact clean_convertItems rest o h

theorem clean_convertFields : (fields : List (String × Value)) →
    ∀ p ∈ convertFields toCamelKey fields, CleanField p
  | (key, value) :: rest, p, h => by
    rcases List.mem_cons.1 h with rfl | h
    · exact ⟨camelKey_toCamelKey key, clean_toCamelCase value⟩
    · exact clean_convertFields rest p h

end

/-! ## Requests and responses -/

structure Request where
  headers : List (String × String)
  body : Value
  query : Value
  params : Value

section Requests

variable (toLowerCase : String → String)

def wantsSnakeCase (headers : List (String × String)) : Bool :=
  (headers.lookup CASE_FORMAT_HEADER).map toLowerCase == some SNAKE_CASE

def CamelCaseMiddleware.use (req : Request) : Request :=
  if wantsSnakeCase toLowerCase req.headers then
    { headers := req.headers
      body := if req.body.truthy then CaseConverterUtils.toCamelCase req.body else req.body
      query :=
        if req.query.truthy && req.query.hasKeys then CaseConverterUtils.toCamelCase req.query
        else req.query
      params :=
        if req.params.truthy && req.params.hasKeys then CaseConverterUtils.toCamelCase req.params
        else req.params }
  else req

def SnakeCaseInterceptor.intercept (headers : List (String × String)) (data : Value) : Value :=
  if wantsSnakeCase toLowerCase headers then CaseConverterUtils.toSnakeCase data else data

variable {toLowerCase}

/-- A part of the request is left as it came, or every object in it was made anew. -/
def KeptOrClean (before after : Value) : Prop :=
  after = before ∨ ∀ o ∈ after.objects, Clean o

theorem keptOrClean_ite (b : Bool) (v : Value) :
    KeptOrClean v (if b then CaseConverterUtils.toCamelCase v else v) := by
  cases b with
  | true => exact Or.inr (clean_toCamelCase v)
  | false => exact Or.inl rfl

theorem keptOrClean_use (req : Request) :
    KeptOrClean req.body (CamelCaseMiddleware.use toLowerCase req).body ∧
      KeptOrClean req.query (CamelCaseMiddleware.use toLowerCase req).query ∧
      KeptOrClean req.params (CamelCaseMiddleware.use toLowerCase req).params := by
  unfold CamelCaseMiddleware.use
  split
  · exact ⟨keptOrClean_ite _ _, keptOrClean_ite _ _, keptOrClean_ite _ _⟩
  · exact ⟨Or.inl rfl, Or.inl rfl, Or.inl rfl⟩

/-- No key of a request becomes `__proto__`: camel case assigns to no such key at any depth,
and no object it returns has another prototype. -/
theorem no_prototype_from_keys :
    (∀ v : Value, (∀ key ∈ assignedKeys toCamelKey v, CamelKey key) ∧
      ∀ o ∈ (CaseConverterUtils.toCamelCase v).objects, Clean o) ∧
      ∀ (toLowerCase : String → String) (req : Request),
        KeptOrClean req.body (CamelCaseMiddleware.use toLowerCase req).body ∧
          KeptOrClean req.query (CamelCaseMiddleware.use toLowerCase req).query ∧
          KeptOrClean req.params (CamelCaseMiddleware.use toLowerCase req).params :=
  ⟨fun v => ⟨assignedKeys_camel v, clean_toCamelCase v⟩, fun _ req => keptOrClean_use req⟩

example : toCamelKey "__proto__" = "_Proto__" ∧ toCamelKey "_-_proto-_" = "_-Proto-_" := by decide

theorem truthy_toSnakeCase : (v : Value) → (∀ o ∈ v.objects, CamelCased o) →
    (CaseConverterUtils.toSnakeCase v).truthy = v.truthy
  | .object _ fields, h => by
    rw [CaseConverterUtils.toSnakeCase, toSnakeCase_object (h _ List.mem_cons_self)]
    rfl
  | .array _, _ => rfl
  | .undefined, _ => rfl
  | .null, _ => rfl
  | .boolean _, _ => rfl
  | .number _, _ => rfl
  | .string _, _ => rfl
  | .date _, _ => rfl

/-- A response that a client sends back under the same header arrives as it was. -/
theorem use_intercept (headers : List (String × String)) {data : Value} (query params : Value)
    (h : ∀ o ∈ data.objects, CamelCased o) (hplain : ∀ o ∈ data.objects, o.1 = none) :
    (CamelCaseMiddleware.use toLowerCase
      ⟨headers, SnakeCaseInterceptor.intercept toLowerCase headers data, query, params⟩).body =
        data := by
  have hround := (toCamelCase_toSnakeCase data h).trans (data.ordinary_of_plain hplain)
  unfold CamelCaseMiddleware.use SnakeCaseInterceptor.intercept
  cases hw : wantsSnakeCase toLowerCase headers with
  | false => rfl
  | true =>
    simp only [if_true, truthy_toSnakeCase data h]
    cases ht : data.truthy with
    | true => exact hround
    | false =>
      -- What is not truthy is no object and no array, and snake case leaves it alone.
      cases data <;> first | rfl | cases ht

end Requests

end NestStarter.Shared
