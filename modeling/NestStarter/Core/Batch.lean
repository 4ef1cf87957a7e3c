import Mathlib.Data.List.Perm.Basic

/-! # Batches

Answering many questions at once. What has to be shown of a batch is that it answers every
question as a single call does, position by position; how it gets there is writes of an array at
indices that were saved before.
-/

namespace NestStarter.Core

section Writes

variable {α : Type}

/-- `a[i] = x`, for every write in turn. -/
def writeAll (a : List α) (writes : List (Nat × α)) : List α :=
  writes.foldl (fun a w => a.set w.1 w.2) a

@[simp] theorem writeAll_nil (a : List α) : writeAll a [] = a := rfl

theorem writeAll_cons (a : List α) (w : Nat × α) (writes : List (Nat × α)) :
    writeAll a (w :: writes) = writeAll (a.set w.1 w.2) writes := rfl

theorem writeAll_append (a : List α) (writes writes' : List (Nat × α)) :
    writeAll a (writes ++ writes') = writeAll (writeAll a writes) writes' := List.foldl_append

@[simp] theorem length_writeAll (a : List α) (writes : List (Nat × α)) :
    (writeAll a writes).length = a.length := by
  induction writes generalizing a with
  | nil => rfl
  | cons w writes ih => rw [writeAll_cons, ih, List.length_set]

theorem getElem?_writeAll_of_notMem {a : List α} {writes : List (Nat × α)} {i : Nat}
    (h : i ∉ writes.map Prod.fst) : (writeAll a writes)[i]? = a[i]? := by
  induction writes generalizing a with
  | nil => rfl
  | cons w writes ih =>
      simp only [List.map_cons, List.mem_cons, not_or] at h
      rw [writeAll_cons, ih h.2, List.getElem?_set_ne (Ne.symm h.1)]

/-- With one write at most for each index, what was written is what is read. -/
theorem getElem?_writeAll_of_mem {a : List α} {writes : List (Nat × α)} {i : Nat} {x : α}
    (hnodup : (writes.map Prod.fst).Nodup) (hmem : (i, x) ∈ writes) (hi : i < a.length) :
    (writeAll a writes)[i]? = some x := by
  induction writes generalizing a with
  | nil => cases hmem
  | cons w writes ih =>
      obtain ⟨hhead, htail⟩ := List.nodup_cons.1 hnodup
      rw [writeAll_cons]
      rcases List.mem_cons.1 hmem with rfl | hmem
      · rw [getElem?_writeAll_of_notMem hhead, List.getElem?_set_self hi]
      · exact ih htail hmem (by rwa [List.length_set])

end Writes

/-! ## Single answers -/

section Answers

variable {κ α ε σ : Type}

/-- A batch over an array of answers, which may have holes, against single calls. -/
structure AnswersEach (single : κ → Except ε α) (keys : List κ)
    (batch : Except ε (List (Option α))) : Prop where
  length : ∀ answers, batch = .ok answers → answers.length = keys.length
  entry : ∀ answers, batch = .ok answers → ∀ (i : Nat) (key : κ), keys[i]? = some key →
    ∃ answer, single key = .ok answer ∧ answers[i]? = some (some answer)
  fails : (∃ e, batch = .error e) ↔ ∃ key ∈ keys, ∃ e, single key = .error e

theorem answersEach_ok {single : κ → Except ε α} {keys : List κ} {answers : List (Option α)}
    (hlength : answers.length = keys.length)
    (hentry : ∀ (i : Nat) (key : κ), keys[i]? = some key →
      ∃ answer, single key = .ok answer ∧ answers[i]? = some (some answer)) :
    AnswersEach single keys (.ok answers) := by
  refine ⟨?_, ?_, ?_⟩
  · rintro _ ⟨⟩
    exact hlength
  · rintro _ ⟨⟩
    exact hentry
  · constructor
    · rintro ⟨_, ⟨⟩⟩
    · rintro ⟨key, hkey, e, he⟩
      obtain ⟨i, hi⟩ := List.getElem?_of_mem hkey
      obtain ⟨answer, hanswer, -⟩ := hentry i key hi
      rw [hanswer] at he
      cases he

theorem answersEach_error {single : κ → Except ε α} {keys : List κ} {e : ε}
    (h : ∃ key ∈ keys, ∃ e, single key = .error e) : AnswersEach single keys (.error e) := by
  refine ⟨?_, ?_, ⟨fun _ => h, fun _ => ⟨e, rfl⟩⟩⟩
  · rintro _ ⟨⟩
  · rintro _ ⟨⟩

/-- Single calls, one after the other: all of them are made, and the first that fails is the
answer. -/
def askEach (single : κ → σ → Except ε α × σ) : List κ → σ → Except ε (List (Option α)) × σ
  | [], s => (.ok [], s)
  | key :: keys, s =>
      let r := single key s
      let rs := askEach single keys r.2
      ((do
        let answer ← r.1
        let answers ← rs.1
        return some answer :: answers), rs.2)

/-- Calls whose answers do not depend on the state answer a batch each for itself. -/
theorem askEach_answersEach {single : κ → σ → Except ε α × σ}
    (hsame : ∀ key s s', (single key s).1 = (single key s').1) (keys : List κ) (s s' : σ) :
    AnswersEach (fun key => (single key s').1) keys (askEach single keys s).1 := by
  induction keys generalizing s with
  | nil => exact answersEach_ok rfl (by simp)
  | cons key keys ih =>
      have ih := ih (single key s).2
      rw [askEach]
      cases hkey : (single key s).1 with
      | error e =>
          exact answersEach_error ⟨key, List.mem_cons_self, e, by rw [hsame key s' s, hkey]⟩
      | ok answer =>
          cases hrest : (askEach single keys (single key s).2).1 with
          | error e =>
              obtain ⟨key', hkey', he⟩ := ih.fails.1 ⟨e, hrest⟩
              exact answersEach_error ⟨key', List.mem_cons_of_mem _ hkey', he⟩
          | ok answers =>
              refine answersEach_ok ?_ fun i key' hi => ?_
              · simp [ih.length answers hrest]
              · cases i with
                | zero =>
                    obtain rfl : key = key' := by simpa using hi
                    exact ⟨answer, by rw [hsame key s' s, hkey], rfl⟩
                | succ i =>
                    have hi : keys[i]? = some key' := by simpa using hi
                    obtain ⟨answer', hanswer, hat⟩ := ih.entry answers hrest i key' hi
                    exact ⟨answer', hanswer, by simpa using hat⟩

end Answers

end NestStarter.Core
