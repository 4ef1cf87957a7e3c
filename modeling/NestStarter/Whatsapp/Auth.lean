import Mathlib.Data.List.Basic
import NestStarter.Core.Machine

/-! # The WhatsApp credential store

`WhatsappAuthService` over its storage object, under any interleaving of its
calls and of the completions of the storage operations they await. The section
of a call up to its next `await` is one step. A storage operation takes effect,
or fails, in a step of its own between the call and its resumption. The
`finally` callback of an upload runs before the calls that await the upload's
promise resume.

`saved`, `flushes` and `wipe` are history that no step reads. So are the numbers
in a client's state: how many blobs had been saved when an upload took its
payload, or when a `flush` was called, and whether that `flush` found one pending.
-/

namespace NestStarter.Whatsapp.Auth

open NestStarter.Core

/-- A `flush` that has resolved: how many blobs had been saved when it was called,
and the object stored when it resolved. -/
structure Flushed where
  savedBefore : Nat
  stored : Option String
  deriving DecidableEq, Repr

/-- How far the latest `clear` has come, if no `save` came after it. -/
inductive Wipe where
  | none
  /-- It has been called. -/
  | begun
  /-- The object has been deleted since. -/
  | done
  deriving DecidableEq, Repr

structure Shared where
  stored : Option String := none
  cached : Option String := none
  hydrated : Bool := false
  pending : Option String := none
  flushTimer : Bool := false
  /-- The upload whose promise the field of that name holds. -/
  flushInFlight : Option Nat := none
  nextUpload : Nat := 0
  /-- The uploads whose promise has settled, and those whose promise was rejected. -/
  settled : List Nat := []
  failed : List Nat := []
  saved : List String := []
  flushes : List Flushed := []
  wipe : Wipe := .none
  deriving DecidableEq, Repr

inductive ReadResult where
  | found (blob : String)
  | fileNotFound
  | failed
  deriving DecidableEq, Repr

inductive Pc where
  | idle
  /-- `flush`, awaiting an upload of another call. -/
  | waiting (upload : Nat) (found : Bool) (savedBefore : Nat)
  /-- `flush`, its upload requested. -/
  | uploading (upload : Nat) (payload : String) (seq savedBefore : Nat)
  /-- The request has come back, and the upload's `finally` has not run. -/
  | uploaded (upload : Nat) (ok : Bool) (seq savedBefore : Nat)
  /-- It has run. -/
  | flushed (ok : Bool) (savedBefore : Nat)
  /-- `load`, before and after its read. -/
  | reading
  | read (result : ReadResult)
  /-- `clear`, before and after its delete. -/
  | deleting
  | deleted (ok : Bool)
  /-- `exists`, before and after its look-up. -/
  | checking
  | checked (found : Bool)
  deriving DecidableEq, Repr

abbrev State := Pool Shared Pc

inductive Action where
  | save (serialized : String)
  | load
  | flush
  | clear
  | exists_
  /-- The debounce timer fires. -/
  | fire
  /-- The awaited storage operation takes effect. -/
  | apply
  /-- It fails; an upload may fail after it took effect. -/
  | fail
  /-- The `finally` callback of an upload runs. -/
  | settle
  /-- The code after an `await` runs. -/
  | resume
  deriving DecidableEq, Repr

/-! ## The service -/

def Shared.save (sh : Shared) (serialized : String) : Shared :=
  { sh with
    cached := some serialized
    hydrated := true
    pending := some serialized
    flushTimer := true
    saved := sh.saved ++ [serialized]
    wipe := .none }

def Shared.resolve (sh : Shared) (savedBefore : Nat) : Shared :=
  { sh with flushes := ⟨savedBefore, sh.stored⟩ :: sh.flushes }

/-- `flush` from `const payload = this.pending` on. -/
def uploadPending (sh : Shared) (savedBefore : Nat) : Shared × Pc :=
  match sh.pending with
  | none => (sh.resolve savedBefore, .idle)
  | some payload =>
      ({ sh with
        pending := none
        flushInFlight := some sh.nextUpload
        nextUpload := sh.nextUpload + 1 },
        .uploading sh.nextUpload payload sh.saved.length savedBefore)

def flush (sh : Shared) : Shared × Pc :=
  let sh := { sh with flushTimer := false }
  match sh.flushInFlight with
  | some upload => (sh, .waiting upload sh.pending.isSome sh.saved.length)
  | none => uploadPending sh sh.saved.length

@[simp] theorem uploadPending_wipe (sh : Shared) (n : Nat) :
    (uploadPending sh n).1.wipe = sh.wipe := by
  unfold uploadPending
  split <;> rfl

@[simp] theorem uploadPending_pending (sh : Shared) (n : Nat) :
    (uploadPending sh n).1.pending = none := by
  unfold uploadPending
  split
  · assumption
  · rfl

theorem flush_of_some {sh : Shared} {upload : Nat} (h : sh.flushInFlight = some upload) :
    flush sh = ({ sh with flushTimer := false },
      .waiting upload sh.pending.isSome sh.saved.length) := by
  unfold flush
  dsimp only
  split
  · next u hu =>
    obtain rfl : upload = u := Option.some.inj (h.symm.trans hu)
    rfl
  · next hu => cases h.symm.trans hu

theorem flush_of_none {sh : Shared} (h : sh.flushInFlight = none) :
    flush sh = uploadPending { sh with flushTimer := false } sh.saved.length := by
  unfold flush
  dsimp only
  split
  · next hu => cases h.symm.trans hu
  · rfl

@[simp] theorem flush_wipe (sh : Shared) : (flush sh).1.wipe = sh.wipe := by
  cases h : sh.flushInFlight with
  | none => rw [flush_of_none h, uploadPending_wipe]
  | some upload => rw [flush_of_some h]

def clear (sh : Shared) : Shared × Pc :=
  ({ sh with
    flushTimer := false
    pending := none
    cached := none
    hydrated := true
    wipe := .begun }, .deleting)

/-- `load`, with the value it returns at once if it has been hydrated. -/
def load (sh : Shared) : Option (Option String) × Pc :=
  if sh.hydrated then (some sh.cached, .idle) else (none, .reading)

/-- `exists`, likewise. -/
def exists_ (sh : Shared) : Option Bool × Pc :=
  if sh.hydrated then (some sh.cached.isSome, .idle) else (none, .checking)

def Shared.hydrate (sh : Shared) (cached : Option String) : Shared :=
  { sh with cached := cached, hydrated := true }

def Shared.delete (sh : Shared) : Shared :=
  { sh with stored := none, wipe := if sh.wipe = .begun then .done else sh.wipe }

def move (_ : Nat) (sh : Shared) (pc : Pc) (a : Action) : Option (Shared × Pc) :=
  match a, pc with
  | .save serialized, .idle => some (sh.save serialized, .idle)
  | .load, .idle => some (sh, (load sh).2)
  | .flush, .idle => some (flush sh)
  | .clear, .idle => some (clear sh)
  | .exists_, .idle => some (sh, (exists_ sh).2)
  | .fire, .idle => if sh.flushTimer then some (flush sh) else none
  | .apply, .uploading upload payload seq savedBefore =>
      some ({ sh with stored := some payload }, .uploaded upload true seq savedBefore)
  | .apply, .reading =>
      match sh.stored with
      | some blob => some (sh, .read (.found blob))
      | none => some (sh, .read .fileNotFound)
  | .apply, .deleting => some (sh.delete, .deleted true)
  | .apply, .checking => some (sh, .checked sh.stored.isSome)
  | .fail, .uploading upload _ seq savedBefore => some (sh, .uploaded upload false seq savedBefore)
  | .fail, .uploaded upload true seq savedBefore =>
      some (sh, .uploaded upload false seq savedBefore)
  | .fail, .reading => some (sh, .read .failed)
  | .fail, .deleting => some (sh, .deleted false)
  | .fail, .checking => some (sh, .idle)
  | .settle, .uploaded upload ok _ savedBefore =>
      some ({ sh with
        flushInFlight := none
        settled := upload :: sh.settled
        failed := if ok then sh.failed else upload :: sh.failed }, .flushed ok savedBefore)
  | .resume, .waiting upload _ savedBefore =>
      if upload ∈ sh.failed then some (sh, .idle)
      else if upload ∈ sh.settled then some (uploadPending sh savedBefore)
      else none
  | .resume, .flushed ok savedBefore =>
      some (if ok then sh.resolve savedBefore else sh, .idle)
  | .resume, .read (.found blob) => some (sh.hydrate (some blob), .idle)
  | .resume, .read .fileNotFound => some (sh.hydrate none, .idle)
  | .resume, .read .failed => some (sh, .idle)
  | .resume, .deleted _ => some (sh, .idle)
  | .resume, .checked _ => some (sh, .idle)
  | _, _ => none

inductive Moves (sh : Shared) : Pc → Action → Shared → Pc → Prop where
  | save (serialized : String) : Moves sh .idle (.save serialized) (sh.save serialized) .idle
  | load : Moves sh .idle .load sh (load sh).2
  | flush : Moves sh .idle .flush (flush sh).1 (flush sh).2
  | clear : Moves sh .idle .clear (clear sh).1 (clear sh).2
  | exists_ : Moves sh .idle .exists_ sh (exists_ sh).2
  | fire : sh.flushTimer = true → Moves sh .idle .fire (Auth.flush sh).1 (Auth.flush sh).2
  | upload (upload : Nat) (payload : String) (seq n : Nat) :
      Moves sh (.uploading upload payload seq n) .apply { sh with stored := some payload }
        (.uploaded upload true seq n)
  | readFound (blob : String) : sh.stored = some blob →
      Moves sh .reading .apply sh (.read (.found blob))
  | readNotFound : sh.stored = none → Moves sh .reading .apply sh (.read .fileNotFound)
  | delete : Moves sh .deleting .apply sh.delete (.deleted true)
  | check : Moves sh .checking .apply sh (.checked sh.stored.isSome)
  | uploadFails (upload : Nat) (payload : String) (seq n : Nat) :
      Moves sh (.uploading upload payload seq n) .fail sh (.uploaded upload false seq n)
  | responseFails (upload seq n : Nat) :
      Moves sh (.uploaded upload true seq n) .fail sh (.uploaded upload false seq n)
  | readFails : Moves sh .reading .fail sh (.read .failed)
  | deleteFails : Moves sh .deleting .fail sh (.deleted false)
  | checkFails : Moves sh .checking .fail sh .idle
  | settle (upload : Nat) (ok : Bool) (seq n : Nat) :
      Moves sh (.uploaded upload ok seq n) .settle { sh with
        flushInFlight := none
        settled := upload :: sh.settled
        failed := if ok then sh.failed else upload :: sh.failed } (.flushed ok n)
  | reject (upload : Nat) (found : Bool) (n : Nat) : upload ∈ sh.failed →
      Moves sh (.waiting upload found n) .resume sh .idle
  | proceed (upload : Nat) (found : Bool) (n : Nat) : upload ∉ sh.failed → upload ∈ sh.settled →
      Moves sh (.waiting upload found n) .resume (uploadPending sh n).1 (uploadPending sh n).2
  | resolve (n : Nat) : Moves sh (.flushed true n) .resume (sh.resolve n) .idle
  | rejectOwn (n : Nat) : Moves sh (.flushed false n) .resume sh .idle
  | hydrate (blob : String) :
      Moves sh (.read (.found blob)) .resume (sh.hydrate (some blob)) .idle
  | hydrateNull : Moves sh (.read .fileNotFound) .resume (sh.hydrate none) .idle
  | loadThrows : Moves sh (.read .failed) .resume sh .idle
  | cleared (ok : Bool) : Moves sh (.deleted ok) .resume sh .idle
  | checked (found : Bool) : Moves sh (.checked found) .resume sh .idle

theorem moves_of_move {c : Nat} {sh sh' : Shared} {pc pc' : Pc} {a : Action}
    (h : move c sh pc a = some (sh', pc')) : Moves sh pc a sh' pc' := by
  unfold move at h
  split at h
  · cases h; exact .save _
  · cases h; exact .load
  · have hflush : Moves sh .idle .flush (flush sh).1 (flush sh).2 := .flush
    rwa [Option.some.inj h] at hflush
  · cases h; exact .clear
  · cases h; exact .exists_
  · split at h
    · next htimer =>
      have hfire := Moves.fire htimer
      rwa [Option.some.inj h] at hfire
    · cases h
  · cases h; exact .upload ..
  · split at h
    · next hstored => cases h; exact .readFound _ hstored
    · next hstored => cases h; exact .readNotFound hstored
  · cases h; exact .delete
  · cases h; exact .check
  · cases h; exact .uploadFails ..
  · cases h; exact .responseFails ..
  · cases h; exact .readFails
  · cases h; exact .deleteFails
  · cases h; exact .checkFails
  · cases h; exact .settle ..
  · split at h
    · next hfailed => cases h; exact .reject _ _ _ hfailed
    · next hfailed =>
      split at h
      · next upload found n hsettled =>
        have hproceed := Moves.proceed upload found n hfailed hsettled
        rwa [Option.some.inj h] at hproceed
      · cases h
  · next ok _ =>
    cases ok with
    | true => cases h; exact .resolve _
    | false => cases h; exact .rejectOwn _
  · cases h; exact .hydrate _
  · cases h; exact .hydrateNull
  · cases h; exact .loadThrows
  · cases h; exact .cleared _
  · cases h; exact .checked _
  · cases h

/-- A process starts over the object an earlier one may have left. -/
def init (stored : Option String) : State := ⟨{ stored := stored }, fun _ => .idle⟩

end NestStarter.Whatsapp.Auth
