import Mathlib.Data.Rat.Defs
import NestStarter.Domain

/-! # Values of the language

What a parsed body, a response or a property can hold, to any depth.
-/

namespace NestStarter.Shared

/-- A number. The finite doubles are rational; a literal too large for them is read as
infinity. -/
inductive JsNumber where
  | finite (value : ℚ)
  | infinite (negative : Bool)
  | nan
  deriving DecidableEq

inductive Value where
  | undefined
  | null
  | boolean (b : Bool)
  | number (n : JsNumber)
  | string (s : String)
  /-- A `Date`, by its time; an invalid one has none. -/
  | date (time : Option Instant)
  | array (items : List Value)
  /-- The own properties in the order of `Object.keys`. The prototype `none` is the one that
  `{}` has. -/
  | object (prototype : Option Value) (fields : List (String × Value))

namespace Value

def truthy : Value → Bool
  | undefined | null | boolean false | number .nan => false
  | number (.finite q) => q ≠ 0
  | string s => s ≠ ""
  | _ => true

/-- `String(value)`. What a number or a date reads as, and what an array or an object is
converted to or throws, is `convert`. -/
def text (convert : Value → Option String) : Value → Option String
  | undefined => some "undefined"
  | null => some "null"
  | boolean b => some (if b then "true" else "false")
  | string s => some s
  | v => convert v

/-- `Object.keys(value).length > 0`. -/
def hasKeys : Value → Bool
  | string s => s ≠ ""
  | array items => items.length ≠ 0
  | object _ fields => fields.length ≠ 0
  | _ => false

mutual

/-- Every object inside a value, with its prototype and its own properties. -/
def objects : Value → List (Option Value × List (String × Value))
  | array items => itemObjects items
  | object prototype fields => (prototype, fields) :: fieldObjects fields
  | _ => []

def itemObjects : List Value → List (Option Value × List (String × Value))
  | [] => []
  | item :: rest => item.objects ++ itemObjects rest

def fieldObjects : List (String × Value) → List (Option Value × List (String × Value))
  | [] => []
  | (_, value) :: rest => value.objects ++ fieldObjects rest

end

mutual

/-- The value with every object an ordinary one, as object literals make them. -/
def ordinary : Value → Value
  | array items => array (ordinaryItems items)
  | object _ fields => object none (ordinaryFields fields)
  | v => v

def ordinaryItems : List Value → List Value
  | [] => []
  | item :: rest => item.ordinary :: ordinaryItems rest

def ordinaryFields : List (String × Value) → List (String × Value)
  | [] => []
  | (key, value) :: rest => (key, value.ordinary) :: ordinaryFields rest

end

mutual

theorem ordinary_of_plain : (v : Value) → (∀ o ∈ v.objects, o.1 = none) → v.ordinary = v
  | array items, h => by rw [ordinary, ordinaryItems_of_plain items h]
  | object prototype fields, h => by
    have hproto : prototype = none := h _ List.mem_cons_self
    rw [ordinary, hproto,
      ordinaryFields_of_plain fields fun o ho => h o (List.mem_cons_of_mem _ ho)]
  | undefined, _ => rfl
  | null, _ => rfl
  | boolean _, _ => rfl
  | number _, _ => rfl
  | string _, _ => rfl
  | date _, _ => rfl

theorem ordinaryItems_of_plain : (items : List Value) →
    (∀ o ∈ itemObjects items, o.1 = none) → ordinaryItems items = items
  | [], _ => rfl
  | item :: rest, h => by
    rw [ordinaryItems, ordinary_of_plain item fun o ho => h o (List.mem_append_left _ ho),
      ordinaryItems_of_plain rest fun o ho => h o (List.mem_append_right _ ho)]

theorem ordinaryFields_of_plain : (fields : List (String × Value)) →
    (∀ o ∈ fieldObjects fields, o.1 = none) → ordinaryFields fields = fields
  | [], _ => rfl
  | (key, value) :: rest, h => by
    rw [ordinaryFields, ordinary_of_plain value fun o ho => h o (List.mem_append_left _ ho),
      ordinaryFields_of_plain rest fun o ho => h o (List.mem_append_right _ ho)]

end

theorem mem_fieldObjects {fields : List (String × Value)}
    {o : Option Value × List (String × Value)} :
    o ∈ fieldObjects fields ↔ ∃ p ∈ fields, o ∈ p.2.objects := by
  induction fields with
  | nil => simp [fieldObjects]
  | cons p rest ih => simp [fieldObjects, ih]

/-! ## Assignment -/

/-- Whether `__proto__` on the value is the accessor of `Object.prototype`: an own property
hides it, and a chain that ends early does not reach it. -/
def protoAccessor : Value → Bool
  | null => false
  | object none fields => !fields.any fun p => p.1 == "__proto__"
  | object (some prototype) fields =>
      !(fields.any fun p => p.1 == "__proto__") && prototype.protoAccessor
  | _ => true

/-- The own property `key`, written in place or added at the end. -/
def assignField (key : String) (value : Value) : List (String × Value) → List (String × Value)
  | [] => [(key, value)]
  | (k, v) :: rest => if k = key then (k, value) :: rest else (k, v) :: assignField key value rest

/-- `target[key] = value` on an object. The accessor `__proto__` takes an object or `null`
as the new prototype and ignores other values. -/
def assign (target : Value) : String × Value → Value
  | (key, value) =>
    match target with
    | object prototype fields =>
        if key = "__proto__" ∧ (object prototype fields).protoAccessor = true then
          match value with
          | null | date _ | array _ | object _ _ => object (some value) fields
          | _ => object prototype fields
        else object prototype (assignField key value fields)
    | v => v

theorem assignField_of_notMem {key : String} {value : Value} {fields : List (String × Value)}
    (h : key ∉ fields.map Prod.fst) : assignField key value fields = fields ++ [(key, value)] := by
  induction fields with
  | nil => rfl
  | cons p rest ih =>
    simp only [List.map_cons, List.mem_cons, not_or] at h
    simp [assignField, Ne.symm h.1, ih h.2]

theorem mem_assignField {key : String} {value : Value} {fields : List (String × Value)}
    {p : String × Value} (h : p ∈ assignField key value fields) :
    p = (key, value) ∨ p ∈ fields := by
  induction fields with
  | nil => exact Or.inl (List.mem_singleton.1 h)
  | cons q rest ih =>
    obtain ⟨k, v⟩ := q
    unfold assignField at h
    split at h
    · rename_i hk
      rcases List.mem_cons.1 h with rfl | h
      · exact Or.inl (by rw [hk])
      · exact Or.inr (List.mem_cons_of_mem _ h)
    · rcases List.mem_cons.1 h with rfl | h
      · exact Or.inr List.mem_cons_self
      · exact (ih h).imp_right (List.mem_cons_of_mem _)

/-- A key other than `__proto__` leaves the prototype alone. -/
theorem assign_of_ne {key : String} (value : Value) (h : key ≠ "__proto__")
    (prototype : Option Value) (fields : List (String × Value)) :
    assign (object prototype fields) (key, value) =
      object prototype (assignField key value fields) := by
  simp [assign, h]

/-- Assignments to new, distinct keys add the properties in order. -/
theorem foldl_assign (fields : List (String × Value)) (before : List (String × Value))
    (hproto : "__proto__" ∉ fields.map Prod.fst)
    (hnodup : ((before ++ fields).map Prod.fst).Nodup) :
    fields.foldl assign (object none before) = object none (before ++ fields) := by
  induction fields generalizing before with
  | nil => simp
  | cons p rest ih =>
    obtain ⟨key, value⟩ := p
    simp only [List.map_cons, List.mem_cons, not_or] at hproto
    have hkey : key ∉ before.map Prod.fst := by
      intro hmem
      rw [List.map_append, List.nodup_append] at hnodup
      exact hnodup.2.2 key hmem key (by simp) rfl
    rw [List.foldl_cons, assign_of_ne value (Ne.symm hproto.1), assignField_of_notMem hkey,
      ih _ hproto.2 (by simpa using hnodup)]
    simp

def get (name : String) : Value → Value
  | object none fields => (fields.lookup name).getD undefined
  | object (some prototype) fields => (fields.lookup name).getD (prototype.get name)
  | _ => undefined

def orElse (a b : Value) : Value :=
  match a with
  | undefined | null => b
  | v => v

end Value

end NestStarter.Shared
