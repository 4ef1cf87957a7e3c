import NestStarter.Storage.Local
import NestStarter.Storage.Supabase
import NestStarter.Whatsapp.Auth

/-! # Loading the WhatsApp session

`load` over both storage providers, under every outcome of the backend, and
`buildBaileysAuthState`, which pairs afresh when `load` returns `null`.
-/

namespace NestStarter.Whatsapp.Auth

open NestStarter.Core.PosixPath NestStarter.Storage

inductive StorageDriver where
  | LOCAL
  | SUPABASE
  deriving DecidableEq, Repr

def sessionKey : String := "private/whatsapp/session.json"

/-- A failure that is not the absence of the object. The Supabase client returns it as `error`,
or throws it. -/
structure Failure where
  code : String
  message : String
  thrown : Bool
  code_ne : code ≠ "ENOENT"
  deriving DecidableEq, Repr

inductive BackendOutcome where
  | present (buffer : Buffer)
  | absent
  | failed (failure : Failure)
  deriving DecidableEq, Repr

def BackendOutcome.readFile : BackendOutcome → Except ErrnoException Buffer
  | .present buffer => .ok buffer
  | .absent => .error enoent
  | .failed failure => .error ⟨failure.code, failure.message⟩

def BackendOutcome.download : BackendOutcome → Except ClientError Buffer
  | .present buffer => .ok buffer
  | .absent => .error objectNotFound
  | .failed failure =>
      .error (if failure.thrown then .thrown failure.message else .returned failure.message)

/-- Both providers, over any file system and any client. -/
structure Deployment where
  numbers : Numbers
  fs : FileSystem Files
  localConfig : LocalConfig
  client : SupabaseClient Buckets numbers.Number
  supabaseConfig : SupabaseConfig

/-- `this.storage.read(this.key)`, when the backend's read comes out as `outcome`. -/
def readSession (d : Deployment) (driver : StorageDriver) (outcome : BackendOutcome) :
    Except StorageError Buffer :=
  match driver with
  | .LOCAL =>
      LocalStorageProvider.read { d.fs with readFile := fun _ _ => outcome.readFile } d.numbers
        d.localConfig sessionKey ⟨fun _ => none, []⟩
  | .SUPABASE =>
      SupabaseStorageProvider.read { d.client with download := fun _ _ _ => outcome.download }
        d.supabaseConfig sessionKey fun _ => none

theorem sanitizeKey_sessionKey : sanitizeKey sessionKey = .ok sessionKey := by decide +kernel

theorem readSession_local (d : Deployment) (outcome : BackendOutcome) :
    readSession d .LOCAL outcome =
      match outcome with
      | .present buffer => .ok buffer
      | .absent => .error (.fileNotFound sessionKey)
      | .failed failure =>
          .error (.storageProvider ("Failed to read file: " ++ failure.message)) := by
  unfold readSession LocalStorageProvider.read
  rw [sanitizeKey_sessionKey]
  cases outcome with
  | present buffer => rfl
  | absent => rfl
  | failed failure => simp [BackendOutcome.readFile, failure.code_ne]

theorem readSession_supabase (d : Deployment) (outcome : BackendOutcome) :
    readSession d .SUPABASE outcome =
      match outcome with
      | .present buffer => .ok buffer
      | .absent => .error (.fileNotFound sessionKey)
      | .failed failure =>
          .error
            (if failure.thrown then .client failure.message else .fileNotFound sessionKey) := by
  unfold readSession SupabaseStorageProvider.read
  rw [SupabaseStorageProvider.locate_eq, sanitizeKey_sessionKey]
  cases outcome with
  | present buffer => rfl
  | absent => rfl
  | failed failure =>
      cases hthrown : failure.thrown <;>
        simp [BackendOutcome.download, hthrown, Except.map, ClientError.toStorageError]

/-- What `JSON.parse` makes of a blob. -/
inductive Parsed (Creds : Type) where
  | corrupt
  | null
  | object (creds : Option Creds)
  deriving DecidableEq, Repr

/-- The languages' own: UTF-8 decoding, `JSON.parse` with the reviver, and `initAuthCreds`. -/
structure Codec (Creds : Type) where
  decode : Buffer → String
  parse : String → Parsed Creds
  initAuthCreds : Creds

variable {Creds : Type} (codec : Codec Creds)

def loadFrom (read : Except StorageError Buffer) (sh : Shared) :
    Except StorageError (Option String) × Shared :=
  if sh.hydrated then (.ok sh.cached, sh)
  else
    match read with
    | .ok buffer =>
        let sh := sh.hydrate (some (codec.decode buffer))
        (.ok sh.cached, sh)
    | .error (.fileNotFound _) =>
        let sh := sh.hydrate none
        (.ok sh.cached, sh)
    | .error e => (.error e, sh)

/-- The credentials in the state that `buildBaileysAuthState` returns. -/
def buildBaileysAuthState (loaded : Except StorageError (Option String)) :
    Except StorageError Creds := do
  match (← loaded).filter (· ≠ "") with
  | none => return codec.initAuthCreds
  | some serialized =>
      match codec.parse serialized with
      | .corrupt => return codec.initAuthCreds
      | .null => throw (.typeError "Cannot read properties of null (reading 'creds')")
      | .object creds => return creds.getD codec.initAuthCreds

/-- How the machine of the service sees a read. -/
def readResult : Except StorageError Buffer → ReadResult
  | .ok buffer => .found (codec.decode buffer)
  | .error (.fileNotFound _) => .fileNotFound
  | .error _ => .failed

/-- `loadFrom` is the step in which a `load` of the machine resumes. -/
theorem move_resume_loadFrom (c : Nat) {sh : Shared} (hfresh : sh.hydrated = false)
    (read : Except StorageError Buffer) :
    move c sh (.read (readResult codec read)) .resume =
      some ((loadFrom codec read sh).2, .idle) := by
  unfold loadFrom
  rw [hfresh]
  cases read with
  | ok buffer => rfl
  | error e => cases e <;> rfl

/-! ## A run of loads -/

/-- The outcome of a read of `object`, which may fail. -/
def outcomeOf (object : Option Buffer) : Option Failure → BackendOutcome
  | some failure => .failed failure
  | none =>
      match object with
      | some buffer => .present buffer
      | none => .absent

/-- `load` while the object is `object`; `fault` is how its read fails, if it does. -/
def loadUnder (d : Deployment) (driver : StorageDriver) (object : Option Buffer)
    (fault : Option Failure) (sh : Shared) : Except StorageError (Option String) × Shared :=
  loadFrom codec (readSession d driver (outcomeOf object fault)) sh

/-- The object holds the credentials of a paired device. -/
def Paired (object : Option Buffer) (creds : Creds) : Prop :=
  ∃ buffer, object = some buffer ∧ codec.decode buffer ≠ "" ∧
    codec.parse (codec.decode buffer) = .object (some creds)

/-- What one load owes: `null` only for an object that is not there; a failure that is thrown,
with the next load reading again; and no fresh credentials in the place of a pairing. -/
structure LoadSound (d : Deployment) (driver : StorageDriver) (object : Option Buffer)
    (fault : Option Failure) (sh : Shared) : Prop where
  absent : (loadUnder codec d driver object fault sh).1 = .ok none → object = none
  throws : sh.hydrated = false → fault.isSome →
    (∃ e, (loadUnder codec d driver object fault sh).1 = .error e) ∧
    (loadUnder codec d driver object fault sh).2.hydrated = false
  paired : ∀ creds, Paired codec object creds →
    buildBaileysAuthState codec (loadUnder codec d driver object fault sh).1 = .ok creds ∨
    ∃ e, buildBaileysAuthState codec (loadUnder codec d driver object fault sh).1 = .error e

/-- Every load of a run is sound; `faults` says how the reads fail, one after the other. -/
def LoadsSound (d : Deployment) (driver : StorageDriver) (object : Option Buffer) :
    Shared → List (Option Failure) → Prop
  | _, [] => True
  | sh, fault :: faults =>
      LoadSound codec d driver object fault sh ∧
      LoadsSound d driver object (loadUnder codec d driver object fault sh).2 faults

/-- The first read that is not thrown out of the client fails. -/
def ReturnsFailureFirst (faults : List (Option Failure)) : Prop :=
  ∃ failure, (faults.dropWhile fun fault => fault.any Failure.thrown).head? = some (some failure)

variable {codec} {d : Deployment} {driver : StorageDriver} {object : Option Buffer}
  {sh : Shared}

/-- What the service has read. -/
structure Hydrated (codec : Codec Creds) (object : Option Buffer) (sh : Shared) : Prop where
  hydrated : sh.hydrated = true
  cached : sh.cached = object.map codec.decode

theorem buildBaileysAuthState_of_paired {creds : Creds} (h : Paired codec object creds) :
    buildBaileysAuthState codec (.ok (object.map codec.decode)) = .ok creds := by
  obtain ⟨buffer, rfl, hne, hparse⟩ := h
  simp [buildBaileysAuthState, Option.filter, hne, hparse]

/-- A load that returns what the object holds is sound. -/
theorem loadSound_of_eq {fault : Option Failure}
    (h : (loadUnder codec d driver object fault sh).1 = .ok (object.map codec.decode))
    (hfault : sh.hydrated = true ∨ fault = none) : LoadSound codec d driver object fault sh where
  absent hnull := by
    rw [h] at hnull
    cases object with
    | none => rfl
    | some buffer => cases hnull
  throws hfresh hsome := by
    rcases hfault with hfault | rfl
    · rw [hfresh] at hfault
      cases hfault
    · cases hsome
  paired creds hpaired := by
    rw [h]
    exact Or.inl (buildBaileysAuthState_of_paired hpaired)

/-- A `load` that throws and hydrates nothing is sound. -/
theorem loadSound_of_error {e : StorageError}
    (h : loadUnder codec d driver object fault sh = (.error e, sh)) :
    LoadSound codec d driver object fault sh where
  absent hnull := by
    rw [h] at hnull
    cases hnull
  throws hfresh _ := by
    rw [h]
    exact ⟨⟨e, rfl⟩, hfresh⟩
  paired creds _ := by
    rw [h]
    exact Or.inr ⟨e, rfl⟩

theorem Hydrated.load (h : Hydrated codec object sh) (fault : Option Failure) :
    loadUnder codec d driver object fault sh = (.ok (object.map codec.decode), sh) := by
  unfold loadUnder loadFrom
  rw [if_pos h.hydrated, h.cached]

theorem Hydrated.loadsSound (h : Hydrated codec object sh) (faults : List (Option Failure)) :
    LoadsSound codec d driver object sh faults := by
  induction faults with
  | nil => trivial
  | cons fault faults ih =>
      refine ⟨loadSound_of_eq (by rw [h.load]) (Or.inl h.hydrated), ?_⟩
      rw [h.load]
      exact ih

/-- The first read that comes through hydrates the service. -/
theorem load_of_read (hfresh : sh.hydrated = false) :
    (loadUnder codec d driver object none sh).1 = .ok (object.map codec.decode) ∧
    Hydrated codec object (loadUnder codec d driver object none sh).2 := by
  unfold loadUnder loadFrom
  rw [hfresh]
  cases driver <;> cases object <;>
    simp only [outcomeOf, readSession_local, readSession_supabase] <;>
    exact ⟨rfl, rfl, rfl⟩

/-- A failure that reaches `load` as one is thrown, and nothing is hydrated. -/
theorem load_of_failure (hfresh : sh.hydrated = false) {failure : Failure}
    (hthrown : driver = .LOCAL ∨ failure.thrown = true) :
    ∃ e, loadUnder codec d driver object (some failure) sh = (.error e, sh) := by
  unfold loadUnder loadFrom
  rw [hfresh]
  cases driver with
  | LOCAL =>
      simp only [outcomeOf, readSession_local]
      exact ⟨_, rfl⟩
  | SUPABASE =>
      have hthrown := hthrown.resolve_left (by decide)
      simp only [outcomeOf, readSession_supabase, hthrown, if_true]
      exact ⟨_, rfl⟩

/-- A failure that Supabase returns is taken for the absence of the object. -/
theorem load_of_returned (hfresh : sh.hydrated = false) {failure : Failure}
    (hreturned : failure.thrown = false) :
    loadUnder codec d .SUPABASE object (some failure) sh = (.ok none, sh.hydrate none) := by
  unfold loadUnder loadFrom
  rw [hfresh]
  simp [outcomeOf, readSession_supabase, hreturned, Shared.hydrate]

/-- Before anything is hydrated, a run of loads is sound exactly if the storage is local or the
first read that the client does not throw out of comes through. -/
theorem loadsSound_iff (codec : Codec Creds) (d : Deployment) (driver : StorageDriver)
    (object : Option Buffer) (sh : Shared) (hfresh : sh.hydrated = false)
    (faults : List (Option Failure)) :
    LoadsSound codec d driver object sh faults ↔
      driver = .LOCAL ∨ ¬ ReturnsFailureFirst faults := by
  induction faults with
  | nil => simp [LoadsSound, ReturnsFailureFirst]
  | cons fault faults ih =>
      cases fault with
      | none =>
          have hsound : LoadsSound codec d driver object sh (none :: faults) :=
            ⟨loadSound_of_eq (load_of_read hfresh).1 (Or.inr rfl),
              (load_of_read hfresh).2.loadsSound faults⟩
          simp [hsound, ReturnsFailureFirst]
      | some failure =>
          by_cases hthrown : driver = .LOCAL ∨ failure.thrown = true
          · obtain ⟨e, hload⟩ :
                ∃ e, loadUnder codec d driver object (some failure) sh = (.error e, sh) :=
              load_of_failure hfresh hthrown
            have hone : LoadSound codec d driver object (some failure) sh :=
              loadSound_of_error hload
            have hrest : LoadsSound codec d driver object sh (some failure :: faults) ↔
                LoadsSound codec d driver object sh faults := by
              show LoadSound .. ∧ LoadsSound .. ↔ _
              rw [hload, and_iff_right hone]
            rw [hrest, ih]
            rcases hthrown with hlocal | hthrown
            · simp [hlocal]
            · simp [ReturnsFailureFirst, hthrown]
          · obtain ⟨hdriver, hreturned⟩ := not_or.1 hthrown
            have hreturned : failure.thrown = false := by simpa using hreturned
            have hsupabase : driver = .SUPABASE := by
              cases driver with
              | LOCAL => exact absurd rfl hdriver
              | SUPABASE => rfl
            subst hsupabase
            have hload : (loadUnder codec d .SUPABASE object (some failure) sh).1 = .ok none := by
              rw [load_of_returned hfresh hreturned]
            have hfirst : ReturnsFailureFirst (some failure :: faults) :=
              ⟨failure, by simp [hreturned]⟩
            refine iff_of_false (fun hsound => ?_) (by simp [hfirst])
            obtain ⟨⟨e, he⟩, _⟩ := hsound.1.throws hfresh rfl
            rw [hload] at he
            cases he

/-- The session of the example runs: one blob, which holds credentials. -/
def codecSample : Codec String where
  decode buffer := String.ofList (buffer.map fun b => Char.ofNat b.toNat)
  parse s := if s = "paired session" then .object (some "paired") else .corrupt
  initAuthCreds := "fresh"

def sessionSample : Buffer := "paired session".toList.map fun c => UInt8.ofNat c.toNat

def deploymentSample : Deployment where
  numbers := numbersSample
  fs := mapFs "/srv".toList
  localConfig := ⟨"./uploads", "http://localhost:3000", "0123456789abcdef0123456789abcdef"⟩
  client := mapClient (fun bucket path => bucket ++ "/" ++ path)
    fun _ _ _ _ => .error objectNotFound
  supabaseConfig := ⟨"public-files", "private-files"⟩

/-- A network failure, as the client returns it. -/
def fetchFailed : Failure := ⟨"", "fetch failed", false, by decide⟩

theorem loadsSound_iff_retry :
    LoadsSound codecSample deploymentSample .SUPABASE (some sessionSample) {}
      [none, some fetchFailed] ↔
      StorageDriver.SUPABASE = .LOCAL ∨ ¬ ReturnsFailureFirst [none, some fetchFailed] :=
  loadsSound_iff codecSample deploymentSample .SUPABASE (some sessionSample) {} rfl
    [none, some fetchFailed]

/-- A paired session whose first read fails is loaded as `null`, and a second `load` does not
read again: the device is paired afresh. -/
theorem fresh_of_fetchFailed :
    Paired codecSample (some sessionSample) "paired" ∧
    (loadUnder codecSample deploymentSample .SUPABASE (some sessionSample) (some fetchFailed)
      {}).1 = .ok none ∧
    (loadUnder codecSample deploymentSample .SUPABASE (some sessionSample) (some fetchFailed)
      {}).2.hydrated = true ∧
    buildBaileysAuthState codecSample (loadUnder codecSample deploymentSample .SUPABASE
      (some sessionSample) (some fetchFailed) {}).1 = .ok "fresh" ∧
    ¬ LoadsSound codecSample deploymentSample .SUPABASE (some sessionSample) {}
      [some fetchFailed] := by
  have hload : loadUnder codecSample deploymentSample .SUPABASE (some sessionSample)
      (some fetchFailed) {} = (.ok none, Shared.hydrate {} none) :=
    load_of_returned rfl rfl
  refine ⟨⟨sessionSample, rfl, by decide +kernel, by decide +kernel⟩, ?_, ?_, ?_, ?_⟩
  · rw [hload]
  · rw [hload]
    rfl
  · rw [hload]
    rfl
  · intro hsound
    obtain ⟨⟨e, he⟩, _⟩ := hsound.1.throws rfl rfl
    rw [hload] at he
    cases he

end NestStarter.Whatsapp.Auth
