import NestStarter.Storage.Keys

/-! # Storage providers

`IStorageProvider`, and what `StorageService` does before it calls one. A provider works on the
state of its backend; what a call throws leaves the state it reached.
-/

namespace NestStarter.Storage

open NestStarter.Core.PosixPath

structure SaveTarget where
  key : String
  visibility : Visibility
  contentType : Option String := none
  deriving DecidableEq, Repr

structure StoredFile where
  key : String
  visibility : Visibility
  size : Int
  mimeType : String
  deriving DecidableEq, Repr

/-- `IStorageProvider` over a backend in state `σ`, with JavaScript numbers `ν`. Of an access
URL only the text is kept. -/
structure IStorageProvider (σ ν : Type) where
  save : UploadInput → SaveTarget → σ → Except StorageError StoredFile × σ
  delete : String → σ → Except StorageError Unit × σ
  existsKey : String → σ → Except StorageError Bool
  read : String → σ → Except StorageError Buffer
  publicUrl : String → Except StorageError String
  signedUrl : String → ν → Instant → σ → Except StorageError String × σ

def foundOr (key : String) : Option Buffer → Except StorageError Buffer
  | some buffer => .ok buffer
  | none => .error (.fileNotFound key)

theorem foundOr_eq_ok {key : String} {object : Option Buffer} {buffer : Buffer} :
    foundOr key object = .ok buffer ↔ object = some buffer := by
  cases object <;> simp [foundOr]

def visibilityOf (key : String) : Except StorageError Visibility :=
  let head := (segments (trimLeading key.toList)).head?
  if head = some Visibility.PUBLIC.value.toList then .ok .PUBLIC
  else if head = some Visibility.PRIVATE.value.toList then .ok .PRIVATE
  else .error (.storage ("Cannot determine visibility from key: " ++ key))

section Service

variable {σ ν : Type} (provider : IStorageProvider σ ν) (signedUrlTtlSeconds : ν)

def StorageService.getAccessUrl (key : String) (ttlSeconds : Option ν) (now : Instant) (s : σ) :
    Except StorageError String × σ :=
  match visibilityOf key with
  | .error e => (.error e, s)
  | .ok .PUBLIC => (provider.publicUrl key, s)
  | .ok .PRIVATE => provider.signedUrl key (ttlSeconds.getD signedUrlTtlSeconds) now s

/-- The calls of `StorageService` that reach a provider with a key of the caller's. -/
inductive Call (ν : Type) where
  | save (input : UploadInput) (target : SaveTarget)
  | read (key : String)
  | existsKey (key : String)
  | delete (key : String)
  | getAccessUrl (key : String) (ttlSeconds : Option ν) (now : Instant)

inductive Answer where
  | saved (key : String)
  | bytes (buffer : Buffer)
  | found (b : Bool)
  | deleted
  | url
  deriving DecidableEq, Repr

/-- What a caller sees of a call: its answer, or that it threw. -/
def outcome {α : Type} (answer : α → Answer) : Except StorageError α → Option Answer
  | .ok a => some (answer a)
  | .error _ => none

def perform (s : σ) : Call ν → Option Answer × σ
  | .save input target =>
      let r := provider.save input target s
      (outcome (fun f => .saved f.key) r.1, r.2)
  | .read key => (outcome .bytes (provider.read key s), s)
  | .existsKey key => (outcome .found (provider.existsKey key s), s)
  | .delete key =>
      let r := provider.delete key s
      (outcome (fun _ => .deleted) r.1, r.2)
  | .getAccessUrl key ttlSeconds now =>
      let r := StorageService.getAccessUrl provider signedUrlTtlSeconds key ttlSeconds now s
      (outcome (fun _ => .url) r.1, r.2)

def performAll (s : σ) : List (Call ν) → List (Option Answer) × σ
  | [] => ([], s)
  | call :: calls =>
      let r := perform provider signedUrlTtlSeconds s call
      let rest := performAll r.2 calls
      (r.1 :: rest.1, rest.2)

end Service

end NestStarter.Storage
