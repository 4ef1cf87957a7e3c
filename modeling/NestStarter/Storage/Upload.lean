import NestStarter.Storage.Agreement
import NestStarter.Storage.Validation

/-! # Uploads

`StorageService.upload` and the key it makes up, over any provider whose backend holds one object
at each place. Both providers do, the local one over files and the Supabase one over buckets.
-/

namespace NestStarter.Storage

open NestStarter.Core.PosixPath
open NestStarter.Accounts (isWhiteSpace)

/-- `.replace(/p+/g, '-')`; `inRun` when the character before was in `p`. -/
def dashRuns (p : Char → Bool) (inRun : Bool) : List Char → List Char
  | [] => []
  | c :: cs =>
      if p c then (if inRun then dashRuns p true cs else '-' :: dashRuns p true cs)
      else c :: dashRuns p false cs

def extractBaseName (name : List Char) : List Char :=
  if '.' ∈ name ∧ ¬ isDotfile name then (name.reverse.dropWhile (· ≠ '.')).tail.reverse
  else name

/-- The name of a file in the storage; `random` is the number drawn from 1000 to 9999. -/
def uniqueFileName (toLowerCase : String → String) (toISOString : Instant → String)
    (originalName : String) (now : Instant) (random : Nat) : String :=
  let safe := (originalName.toList.map fun c => if c = '/' ∨ c = '\\' then '-' else c).filter
    (· ≠ '\x00')
  let originalExt := extractExtension toLowerCase (String.ofList safe)
  let stem := dashRuns (· = '-') false
    ((dashRuns isWhiteSpace false (extractBaseName safe)).dropWhile (· = '.'))
  let baseName := if stem = [] then "file" else String.ofList stem
  let timestamp := String.ofList ((toISOString now).toList.filter fun c =>
    ¬ ['-', ':', '.', 'T', 'Z'].contains c)
  let name := baseName ++ "-" ++ timestamp ++ "-" ++ toString random
  if originalExt ≠ "" then name ++ "." ++ originalExt else name

structure CompressionPolicy where
  enabled : Bool
  quality : Nat
  minQuality : Nat
  maxOutputSize : String
  outputFormat : String
  deriving DecidableEq, Repr

structure ResolvedStorageConfig where
  defaultValidation : ValidationPolicy
  defaultCompression : CompressionPolicy
  deriving DecidableEq, Repr

structure UploadEnv where
  runtime : Runtime
  toISOString : Instant → String
  process : UploadInput → CompressionPolicy → Except StorageError UploadInput
  config : ResolvedStorageConfig

structure UploadOptions where
  visibility : Visibility
  folder : String
  deriving DecidableEq, Repr

section Upload

variable (env : UploadEnv)

def StorageService.buildSaveTarget (now : Instant) (random : Nat) (input : UploadInput)
    (options : UploadOptions) : SaveTarget :=
  let filename := uniqueFileName env.runtime.toLowerCase env.toISOString input.originalName now
    random
  ⟨joinKey [options.visibility.value, options.folder, filename], options.visibility,
    some input.mimeType⟩

/-- What `upload` hands to the provider, once the file is validated and compressed. -/
def StorageService.prepare (now : Instant) (random : Nat) (input : UploadInput)
    (options : UploadOptions) : Except StorageError (UploadInput × SaveTarget) := do
  FileValidationService.validate (storageValidators env.runtime) input env.config.defaultValidation
  let finalInput ←
    if env.config.defaultCompression.enabled then env.process input env.config.defaultCompression
    else pure input
  return (finalInput, buildSaveTarget env now random finalInput options)

def StorageService.upload {σ ν : Type} (provider : IStorageProvider σ ν) (now : Instant)
    (random : Nat) (input : UploadInput) (options : UploadOptions) (s : σ) :
    Except StorageError StoredFile × σ :=
  match prepare env now random input options with
  | .error e => (.error e, s)
  | .ok (finalInput, target) => provider.save finalInput target s

variable {env}

theorem visibilityOf_joinKey (v : Visibility) (parts : List String) :
    visibilityOf (joinKey (v.value :: parts)) = .ok v := by
  obtain ⟨hempty, htrim, hne, hslash, hlead⟩ : v.value ≠ "" ∧
      trimTrailing (trimLeading v.value.toList) = v.value.toList ∧ v.value.toList ≠ [] ∧
      '/' ∉ v.value.toList ∧ v.value.toList.head? ≠ some '/' := by
    cases v <;> decide +kernel
  have hkey : ∃ rest, (joinKey (v.value :: parts)).toList = ofSegments (v.value.toList :: rest) :=
    ⟨_, by simp [joinKey, hempty, htrim, hne]; rfl⟩
  obtain ⟨rest, hkey⟩ := hkey
  have htext : (joinKey (v.value :: parts)).toList = v.value.toList ∨
      ∃ tail, (joinKey (v.value :: parts)).toList = v.value.toList ++ '/' :: tail := by
    rw [hkey]
    cases rest with
    | nil => exact Or.inl (by simp [ofSegments])
    | cons s rest => exact Or.inr ⟨ofSegments (s :: rest), by simp [ofSegments]⟩
  have hhead : (segments (trimLeading (joinKey (v.value :: parts)).toList)).head? =
      some v.value.toList := by
    rcases htext with htext | ⟨tail, htext⟩
    · rw [htext]
      cases v <;> decide +kernel
    · obtain ⟨c, cs, hcs⟩ := List.exists_cons_of_ne_nil hne
      have hc : c ≠ '/' := by simpa [hcs] using hlead
      have hkeep : trimLeading (v.value.toList ++ '/' :: tail) = v.value.toList ++ '/' :: tail := by
        simp [trimLeading, hcs, hc]
      rw [htext, hkeep]
      exact head_append_slash hslash tail
  unfold visibilityOf
  cases v with
  | PUBLIC => simp only [hhead, if_true]
  | PRIVATE =>
      have hne' : Visibility.PRIVATE.value.toList ≠ Visibility.PUBLIC.value.toList := by
        decide +kernel
      simp [hhead, hne']

theorem StorageService.target_of_prepare {now : Instant} {random : Nat} {input : UploadInput}
    {options : UploadOptions} {finalInput : UploadInput} {target : SaveTarget}
    (h : prepare env now random input options = .ok (finalInput, target)) :
    target = buildSaveTarget env now random finalInput options := by
  unfold prepare at h
  cases hvalid : FileValidationService.validate (storageValidators env.runtime) input
      env.config.defaultValidation with
  | error e => simp [hvalid] at h
  | ok _ =>
      by_cases henabled : env.config.defaultCompression.enabled = true
      · cases hprocess : env.process input env.config.defaultCompression with
        | error e => simp [hvalid, henabled, hprocess] at h
        | ok processed =>
            simp only [hvalid, henabled, hprocess, ok_bind, if_true, pure_eq_ok, Except.ok.injEq,
              Prod.mk.injEq] at h
            rw [← h.1, ← h.2]
      · simp only [hvalid, henabled, ok_bind, pure_eq_ok, if_false, Except.ok.injEq,
          Prod.mk.injEq, Bool.false_eq_true] at h
        rw [← h.1, ← h.2]

/-- The key begins with the visibility it is saved under. -/
theorem StorageService.visibilityOf_prepare {now : Instant} {random : Nat} {input : UploadInput}
    {options : UploadOptions} {finalInput : UploadInput} {target : SaveTarget}
    (h : prepare env now random input options = .ok (finalInput, target)) :
    visibilityOf target.key = .ok target.visibility := by
  rw [target_of_prepare h]
  exact visibilityOf_joinKey options.visibility _

end Upload

/-! ## Providers with one object at each place -/

/-- A provider over a backend that holds at most one object at each place. A key that
`sanitizeKey` refuses has no place. -/
structure ObjectStore (ν : Type) where
  State : Type
  Place : Type
  provider : IStorageProvider State ν
  place : String → Option Place
  contents : State → Place → Option Buffer
  decEq : DecidableEq Place
  place_empty : place "" = none
  existsKey_iff : ∀ key s, provider.existsKey key s = .ok true ↔
    ∃ p buffer, place key = some p ∧ contents s p = some buffer
  read_iff : ∀ key s buffer, provider.read key s = .ok buffer ↔
    ∃ p, place key = some p ∧ contents s p = some buffer
  save_of_none : ∀ input target s, place target.key = none →
    ∃ e, provider.save input target s = (.error e, s)
  save_of_some : ∀ input target s p, visibilityOf target.key = .ok target.visibility →
    place target.key = some p →
    ∃ file s', provider.save input target s = (.ok file, s') ∧ place file.key = some p ∧
      contents s' = Function.update (contents s) p (some input.buffer)
  delete_of_some : ∀ key s p, place key = some p →
    ∃ s', provider.delete key s = (.ok (), s') ∧
      contents s' = Function.update (contents s) p none

instance {ν : Type} (store : ObjectStore ν) : DecidableEq store.Place := store.decEq

/-- The local provider, whose places are files. -/
def localObjects (ν : Numbers) (hmac : String → String → List UInt8) (cwd : Path)
    (cfg : LocalConfig) : ObjectStore ν.Number where
  State := LocalState Files ν
  Place := FilePath
  provider := localStorageProvider (mapFs cwd) ν hmac cfg
  place key := (sanitizeKey key).toOption.map (LocalStorageProvider.keyFile cwd cfg)
  contents s := s.files
  decEq := inferInstance
  place_empty := rfl
  existsKey_iff key s := by
    show LocalStorageProvider.existsKey (mapFs cwd) ν cfg key s = .ok true ↔ _
    rw [LocalStorageProvider.existsKey_mapFs]
    cases sanitizeKey key with
    | error e => simp [Except.map, Except.toOption]
    | ok k => simp [Except.map, Except.toOption, Option.isSome_iff_exists]
  read_iff key s buffer := by
    show LocalStorageProvider.read (mapFs cwd) ν cfg key s = .ok buffer ↔ _
    rw [LocalStorageProvider.read_mapFs]
    cases sanitizeKey key with
    | error e => simp [Except.bind, Except.toOption]
    | ok k => simp [Except.bind, Except.toOption, foundOr_eq_ok]
  save_of_none input target s h := by
    show ∃ e, LocalStorageProvider.save (mapFs cwd) ν cfg input target s = _
    rw [LocalStorageProvider.save_mapFs]
    cases hkey : sanitizeKey target.key with
    | error e => exact ⟨e, rfl⟩
    | ok k => simp [hkey, Except.toOption] at h
  save_of_some input target s p _ h := by
    show ∃ file s', LocalStorageProvider.save (mapFs cwd) ν cfg input target s = _ ∧ _
    rw [LocalStorageProvider.save_mapFs]
    cases hkey : sanitizeKey target.key with
    | error e => simp [hkey, Except.toOption] at h
    | ok k =>
        have hp : LocalStorageProvider.keyFile cwd cfg k = p := by
          simpa [hkey, Except.toOption] using h
        exact ⟨_, _, rfl, by simp [sanitizeKey_idem hkey, Except.toOption, hp], by rw [hp]⟩
  delete_of_some key s p h := by
    show ∃ s', LocalStorageProvider.delete (mapFs cwd) ν cfg key s = _ ∧ _
    rw [LocalStorageProvider.delete_mapFs]
    cases hkey : sanitizeKey key with
    | error e => simp [hkey, Except.toOption] at h
    | ok k =>
        have hp : LocalStorageProvider.keyFile cwd cfg k = p := by
          simpa [hkey, Except.toOption] using h
        exact ⟨_, rfl, by rw [hp]⟩

/-- The Supabase provider, whose places are the paths in its buckets. -/
def supabaseObjects {ν : Type} (getPublicUrl : String → String → String)
    (createSignedUrl : String → String → ν → Buckets → Except ClientError String)
    (cfg : SupabaseConfig) : ObjectStore ν where
  State := Buckets
  Place := String × String
  provider := supabaseStorageProvider (mapClient getPublicUrl createSignedUrl) cfg
  place key := (sanitizeKey key).toOption.map (SupabaseStorageProvider.location cfg)
  contents objects := objects
  decEq := inferInstance
  place_empty := rfl
  existsKey_iff key objects := by
    show SupabaseStorageProvider.existsKey (mapClient getPublicUrl createSignedUrl) cfg key
      objects = .ok true ↔ _
    rw [SupabaseStorageProvider.existsKey_mapClient]
    cases sanitizeKey key with
    | error e => simp [Except.map, Except.toOption]
    | ok k => simp [Except.map, Except.toOption, Option.isSome_iff_exists]
  read_iff key objects buffer := by
    show SupabaseStorageProvider.read (mapClient getPublicUrl createSignedUrl) cfg key
      objects = .ok buffer ↔ _
    rw [SupabaseStorageProvider.read_mapClient]
    cases sanitizeKey key with
    | error e => simp [Except.bind, Except.toOption]
    | ok k => simp [Except.bind, Except.toOption, foundOr_eq_ok]
  save_of_none input target objects h := by
    show ∃ e, SupabaseStorageProvider.save (mapClient getPublicUrl createSignedUrl) cfg input
      target objects = _
    rw [SupabaseStorageProvider.save_mapClient]
    cases hkey : sanitizeKey target.key with
    | error e => exact ⟨e, rfl⟩
    | ok k => simp [hkey, Except.toOption] at h
  save_of_some input target objects p hv h := by
    show ∃ file s', SupabaseStorageProvider.save (mapClient getPublicUrl createSignedUrl) cfg
      input target objects = _ ∧ _
    rw [SupabaseStorageProvider.save_mapClient]
    cases hkey : sanitizeKey target.key with
    | error e => simp [hkey, Except.toOption] at h
    | ok k =>
        have hp : SupabaseStorageProvider.location cfg k = p := by
          simpa [hkey, Except.toOption] using h
        have hbucket : SupabaseStorageProvider.bucketFor cfg target.visibility = p.1 := by
          rw [← hp, SupabaseStorageProvider.location,
            SupabaseStorageProvider.keyVisibility_of_head (head_of_visibilityOf hv hkey)]
        refine ⟨_, _, rfl, h, ?_⟩
        rw [hbucket, hp]
  delete_of_some key objects p h := by
    show ∃ s', SupabaseStorageProvider.delete (mapClient getPublicUrl createSignedUrl) cfg key
      objects = _ ∧ _
    rw [SupabaseStorageProvider.delete_mapClient]
    cases hkey : sanitizeKey key with
    | error e => simp [hkey, Except.toOption] at h
    | ok k =>
        have hp : SupabaseStorageProvider.location cfg k = p := by
          simpa [hkey, Except.toOption] using h
        exact ⟨_, rfl, by rw [hp]⟩

end NestStarter.Storage
