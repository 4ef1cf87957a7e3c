import Mathlib.Data.List.Nodup

/-! # Maps in insertion order

A `Map` of the language: every key once, in the order in which the keys were first set. Setting
a key that is there replaces its value in place.
-/

namespace NestStarter.Core

structure OrderedMap (κ α : Type) where
  entries : List (κ × α)
  nodup : (entries.map Prod.fst).Nodup

namespace OrderedMap

variable {κ α : Type} [DecidableEq κ]

/-- Replace the value of a key in place, or add the key at the end. -/
def setEntry (k : κ) (v : α) : List (κ × α) → List (κ × α)
  | [] => [(k, v)]
  | e :: es => if e.1 = k then (k, v) :: es else e :: setEntry k v es

theorem map_fst_setEntry (k : κ) (v : α) (es : List (κ × α)) :
    (setEntry k v es).map Prod.fst =
      if k ∈ es.map Prod.fst then es.map Prod.fst else es.map Prod.fst ++ [k] := by
  induction es with
  | nil => rfl
  | cons e es ih =>
      by_cases he : e.1 = k
      · simp [setEntry, he]
      · rw [setEntry, if_neg he, List.map_cons, ih]
        by_cases hk : k ∈ es.map Prod.fst
        · have hcons : k ∈ (e :: es).map Prod.fst := List.mem_cons_of_mem _ hk
          rw [if_pos hk, if_pos hcons, List.map_cons]
        · have hcons : k ∉ (e :: es).map Prod.fst := by
            rw [List.map_cons, List.mem_cons, not_or]
            exact ⟨Ne.symm he, hk⟩
          rw [if_neg hk, if_neg hcons, List.map_cons, List.cons_append]

theorem nodup_setEntry (k : κ) (v : α) {es : List (κ × α)} (h : (es.map Prod.fst).Nodup) :
    ((setEntry k v es).map Prod.fst).Nodup := by
  rw [map_fst_setEntry]
  split
  · exact h
  · rename_i hk
    exact List.Nodup.append h (List.nodup_singleton k) (by simpa using hk)

def getEntry (k : κ) : List (κ × α) → Option α
  | [] => none
  | e :: es => if e.1 = k then some e.2 else getEntry k es

theorem getEntry_setEntry (k k' : κ) (v : α) (es : List (κ × α)) :
    getEntry k' (setEntry k v es) = if k = k' then some v else getEntry k' es := by
  induction es with
  | nil => rfl
  | cons e es ih =>
      by_cases he : e.1 = k
      · rw [setEntry, if_pos he]
        by_cases hk : k = k'
        · simp [getEntry, hk]
        · simp [getEntry, hk, he]
      · rw [setEntry, if_neg he, getEntry, getEntry, ih]
        by_cases hk : k = k'
        · have hne : e.1 ≠ k' := hk ▸ he
          rw [if_neg hne, if_pos hk, if_pos hk]
        · rw [if_neg hk, if_neg hk]

theorem getEntry_eq_some_iff {k : κ} {v : α} {es : List (κ × α)} (h : (es.map Prod.fst).Nodup) :
    getEntry k es = some v ↔ (k, v) ∈ es := by
  induction es with
  | nil => simp [getEntry]
  | cons e es ih =>
      obtain ⟨hhead, htail⟩ := List.nodup_cons.1 h
      rw [getEntry, List.mem_cons]
      by_cases he : e.1 = k
      · have hnotMem : (k, v) ∉ es := fun hmem =>
          hhead (he ▸ List.mem_map_of_mem (f := Prod.fst) hmem)
        rw [if_pos he, Option.some.injEq]
        simp [hnotMem, Prod.ext_iff, he, eq_comm]
      · have hne : (k, v) ≠ e := fun heq => he (congrArg Prod.fst heq).symm
        rw [if_neg he, ih htail]
        simp [hne]

theorem getEntry_of_notMem {k : κ} {es : List (κ × α)} (h : k ∉ es.map Prod.fst) :
    getEntry k es = none := by
  induction es with
  | nil => rfl
  | cons e es ih =>
      rw [List.map_cons, List.mem_cons, not_or] at h
      rw [getEntry, if_neg (Ne.symm h.1), ih h.2]

/-! ## Operations -/

def empty : OrderedMap κ α := ⟨[], List.nodup_nil⟩

def keys (m : OrderedMap κ α) : List κ := m.entries.map Prod.fst

def size (m : OrderedMap κ α) : Nat := m.entries.length

def get (m : OrderedMap κ α) (k : κ) : Option α := getEntry k m.entries

def has (m : OrderedMap κ α) (k : κ) : Bool := decide (k ∈ m.keys)

def set (m : OrderedMap κ α) (k : κ) (v : α) : OrderedMap κ α :=
  ⟨setEntry k v m.entries, nodup_setEntry k v m.nodup⟩

def setSome (m : OrderedMap κ α) (k : κ) : Option α → OrderedMap κ α
  | some v => m.set k v
  | none => m

def setAll (m m' : OrderedMap κ α) : OrderedMap κ α :=
  m'.entries.foldl (fun m e => m.set e.1 e.2) m

variable (m : OrderedMap κ α)

omit [DecidableEq κ] in
theorem nodup_keys : m.keys.Nodup := m.nodup

omit [DecidableEq κ] in
@[simp] theorem length_keys : m.keys.length = m.size := List.length_map _

@[simp] theorem get_empty (k : κ) : (empty : OrderedMap κ α).get k = none := rfl

theorem get_set (k k' : κ) (v : α) :
    (m.set k v).get k' = if k = k' then some v else m.get k' := getEntry_setEntry k k' v m.entries

@[simp] theorem get_set_self (k : κ) (v : α) : (m.set k v).get k = some v := by
  rw [get_set, if_pos rfl]

theorem get_eq_some_iff {k : κ} {v : α} : m.get k = some v ↔ (k, v) ∈ m.entries :=
  getEntry_eq_some_iff m.nodup

theorem mem_keys_iff {k : κ} : k ∈ m.keys ↔ ∃ v, m.get k = some v := by
  simp only [get_eq_some_iff, keys, List.mem_map, Prod.exists, exists_and_right, exists_eq_right]

theorem has_iff {k : κ} : m.has k = true ↔ ∃ v, m.get k = some v := by
  rw [has, decide_eq_true_iff, mem_keys_iff]

theorem get_setSome (k k' : κ) (v : Option α) :
    (m.setSome k v).get k' = if k = k' then v.or (m.get k') else m.get k' := by
  cases v with
  | none => simp [setSome]
  | some v => exact m.get_set k k' v

theorem get_setAll (m' : OrderedMap κ α) (k : κ) :
    (m.setAll m').get k = (m'.get k).or (m.get k) := by
  obtain ⟨es, hnodup⟩ := m'
  induction es generalizing m with
  | nil => rfl
  | cons e es ih =>
      obtain ⟨hhead, htail⟩ := List.nodup_cons.1 hnodup
      have hcons : m.setAll ⟨e :: es, hnodup⟩ = (m.set e.1 e.2).setAll ⟨es, htail⟩ := rfl
      rw [hcons, ih, get_set]
      by_cases he : e.1 = k
      · have hnone : getEntry k es = none := getEntry_of_notMem (he ▸ hhead)
        simp [get, getEntry, he, hnone]
      · simp [get, getEntry, he]

/-- Keys that are set in turn, each to its own value. -/
theorem get_foldl_setSome (f : κ → Option α) (ks : List κ) (k : κ) :
    (ks.foldl (fun m k => m.setSome k (f k)) m).get k =
      if k ∈ ks then (f k).or (m.get k) else m.get k := by
  induction ks generalizing m with
  | nil => rfl
  | cons k' ks ih =>
      rw [List.foldl_cons, ih, get_setSome]
      by_cases hk : k' = k
      · subst hk
        cases f k' <;> simp
      · simp [hk, Ne.symm hk]

end OrderedMap

end NestStarter.Core
