import NestStarter.Storage.Validation

/-! # The validation pipe

`MulterValidationPipe` in front of `FileValidationService`. A validation error becomes a 422;
whatever else a validator throws goes on to the exception filter, as a 500.
-/

namespace NestStarter.Storage

/-- What the adapter reads of `Express.Multer.File`. -/
structure MulterFile where
  buffer : Buffer
  originalname : String
  mimetype : String
  size : Int
  deriving DecidableEq, Repr

def MulterAdapter.toUploadInput (file : MulterFile) : UploadInput :=
  ⟨file.buffer, file.originalname, file.mimetype, file.size⟩

inductive IncomingFiles where
  | undefined
  | file (file : MulterFile)
  | files (files : List MulterFile)
  | fields (record : List (String × List MulterFile))
  deriving DecidableEq, Repr

structure PipePolicy extends ValidationPolicy where
  required : Bool
  deriving DecidableEq, Repr

/-- `Partial<ValidationPolicy>`. An optional field of the policy may be set to `undefined`. -/
structure PolicyOverride where
  required : Option Bool := none
  allowedExtensions : Option (List String) := none
  maxSize : Option String := none
  perTypeMaxSize : Option (Option (List (String × String))) := none
  dimensions : Option (Option DimensionRule) := none
  enforceMagicBytes : Option Bool := none
  deriving DecidableEq, Repr

def PipePolicy.spread (policy : PipePolicy) (override : PolicyOverride) : PipePolicy where
  required := override.required.getD policy.required
  allowedExtensions := override.allowedExtensions.getD policy.allowedExtensions
  maxSize := override.maxSize.getD policy.maxSize
  perTypeMaxSize := override.perTypeMaxSize.getD policy.perTypeMaxSize
  dimensions := override.dimensions.getD policy.dimensions
  enforceMagicBytes := override.enforceMagicBytes.getD policy.enforceMagicBytes

/-- What the pipe throws: `UnprocessableEntityException` with its body, or what it rethrows. -/
inductive PipeError where
  | unprocessableEntity (code message : String) (details : List (String × Detail))
  | rethrown (e : StorageError)
  deriving DecidableEq, Repr

def PipeError.status : PipeError → Nat
  | .unprocessableEntity _ _ _ => 422
  | .rethrown _ => 500

def PipeError.of : StorageError → PipeError
  | .fileValidation message code details => .unprocessableEntity code message details
  | e => .rethrown e

def FileValidationService.validateMany (validators : List IFileValidator)
    (inputs : List UploadInput) (policy : ValidationPolicy) : Except StorageError Unit :=
  inputs.forM fun input => validate validators input policy

def MulterValidationPipe.check (validators : List IFileValidator) (policy : PipePolicy) :
    IncomingFiles → Except StorageError Unit
  | .undefined =>
      if policy.required then throw (.fileValidation "File is required" "FILE_REQUIRED" [])
      else return ()
  | .files files =>
      FileValidationService.validateMany validators (files.map MulterAdapter.toUploadInput)
        policy.toValidationPolicy
  | .file file =>
      FileValidationService.validate validators (MulterAdapter.toUploadInput file)
        policy.toValidationPolicy
  | .fields record =>
      record.forM fun field =>
        FileValidationService.validateMany validators (field.2.map MulterAdapter.toUploadInput)
          policy.toValidationPolicy

/-- `transform`. The overrides are `none` for `false`, and empty when undefined. -/
def MulterValidationPipe.transform (validators : List IFileValidator) (defaults : PipePolicy)
    (overrides : Option PolicyOverride) (value : IncomingFiles) :
    Except PipeError IncomingFiles :=
  match overrides with
  | none => .ok value
  | some override =>
      ((check validators (defaults.spread override) value).mapError PipeError.of).map fun _ => value

/-- Accepted, or rejected with a `FileValidationError`. -/
def Settles (r : Except StorageError Unit) : Prop :=
  r = .ok () ∨ ∃ message code details, r = .error (.fileValidation message code details)

section Settles

@[simp] theorem settles_ok {u : Unit} : Settles (.ok u) := Or.inl rfl

@[simp] theorem settles_error {e : StorageError} :
    Settles (.error e) ↔ ∃ message code details, e = .fileValidation message code details := by
  simp [Settles]

theorem settles_bind {a : Except StorageError Unit} {b : Unit → Except StorageError Unit} :
    Settles (a >>= b) ↔ Settles a ∧ (a = .ok () → Settles (b ())) := by
  cases a <;> simp

theorem settles_forM {α : Type} {f : α → Except StorageError Unit} {l : List α}
    (h : ∀ x ∈ l, Settles (f x)) : Settles (l.forM f) := by
  induction l with
  | nil => exact settles_ok
  | cons x l ih =>
      obtain ⟨hx, hl⟩ := List.forall_mem_cons.1 h
      exact settles_bind.2 ⟨hx, fun _ => ih hl⟩

end Settles

/-! ## What each validator throws -/

section Throws

variable (rt : Runtime) (input : UploadInput) (policy : ValidationPolicy)

/-- Every size literal of the policy parses. -/
def LiteralsParse : Prop :=
  (∃ max, parseSize policy.maxSize = .ok max) ∧
  ∀ table ∈ policy.perTypeMaxSize, ∀ limit ∈ table, ∃ max, parseSize limit.2 = .ok max

/-- A file that the global limit lets through is looked up in a table which does not inherit
its extension. -/
def SizeLookupSafe : Prop :=
  0 < input.size → (∀ max, parseSize policy.maxSize = .ok max → input.size ≤ max) →
    ∀ table ∈ policy.perTypeMaxSize,
      property table (extractExtension rt.toLowerCase input.originalName) ≠ .inherited

/-- A file whose signature is compared has an extension that `EXT_TO_MIME` does not inherit. -/
def MimeLookupSafe : Prop :=
  SizeAllowed rt input policy → ExtensionAllowed rt input policy →
    policy.enforceMagicBytes = true → startsWith input.mimeType "text/" = false →
    extractExtension rt.toLowerCase input.originalName ≠ "txt" →
    rt.magicBytes input.buffer ≠ [] → mimeFromExtension rt.toLowerCase input.originalName ≠ none

variable {rt input policy}

theorem mem_of_property {record : List (String × String)} {name text : String}
    (h : property record name = .own text) : ∃ entry ∈ record, entry.2 = text := by
  unfold property at h
  cases hlookup : record.lookup name with
  | none =>
      rw [hlookup] at h
      simp only at h
      split at h <;> cases h
  | some s =>
      rw [hlookup] at h
      obtain rfl : s = text := by simpa using h
      rw [List.lookup_eq_some_iff] at hlookup
      obtain ⟨before, after, hrecord, -⟩ := hlookup
      exact ⟨(name, s), by simp [hrecord], rfl⟩

theorem SizeValidator.settles_iff (hparse : LiteralsParse policy) :
    Settles (SizeValidator.validate rt input policy) ↔ SizeLookupSafe rt input policy := by
  obtain ⟨⟨max, hmax⟩, htable⟩ := hparse
  unfold SizeValidator.validate SizeLookupSafe
  by_cases hempty : input.size ≤ 0
  · have hnpos : ¬ 0 < input.size := by omega
    simp [hempty, hnpos]
  · have hpos : 0 < input.size := by omega
    by_cases hlarge : (max : Int) < input.size
    · have hnle : ¬ input.size ≤ max := by omega
      simp [hempty, hmax, hlarge, hnle]
    · have hle : input.size ≤ max := by omega
      cases hper : policy.perTypeMaxSize with
      | none => simp [hempty, hmax, hlarge]
      | some table =>
          cases hlimit : property table (extractExtension rt.toLowerCase input.originalName) with
          | undefined => simp [hempty, hmax, hlarge, hlimit]
          | inherited => simp [hempty, hmax, hlarge, hpos, hle, hlimit]
          | own text =>
              obtain ⟨entry, hentry, rfl⟩ := mem_of_property hlimit
              obtain ⟨limit, hparse⟩ := htable table hper entry hentry
              by_cases htext : entry.2 = ""
              · simp [hempty, hmax, hlarge, hlimit, htext]
              · by_cases hover : (limit : Int) < input.size
                · simp [hempty, hmax, hlarge, hlimit, htext, hparse, hover]
                · simp [hempty, hmax, hlarge, hlimit, htext, hparse, hover]

theorem MimeTypeValidator.settles_checkExtension :
    Settles (MimeTypeValidator.checkExtension rt input policy) := by
  unfold MimeTypeValidator.checkExtension
  by_cases hext : extractExtension rt.toLowerCase input.originalName = ""
  · simp [hext]
  · by_cases hmem : extractExtension rt.toLowerCase input.originalName ∈
        policy.allowedExtensions.map rt.toLowerCase
    · simp only [hext, hmem, if_false, not_true_eq_false]
      simp
    · simp only [hext, hmem, if_false, not_false_eq_true, if_true]
      simp

theorem MimeTypeValidator.settles_checkSignature :
    Settles (MimeTypeValidator.checkSignature rt input) ↔
      (rt.magicBytes input.buffer ≠ [] →
        mimeFromExtension rt.toLowerCase input.originalName ≠ none) := by
  unfold MimeTypeValidator.checkSignature
  by_cases hempty : rt.magicBytes input.buffer = []
  · simp [hempty]
  · cases hmime : mimeFromExtension rt.toLowerCase input.originalName with
    | none => simp [hempty]
    | some mime =>
        simp only [hempty, if_false, pure_eq_ok]
        split <;> simp

theorem MimeTypeValidator.settles_iff (hsize : SizeAllowed rt input policy) :
    Settles (MimeTypeValidator.validate rt input policy) ↔ MimeLookupSafe rt input policy := by
  unfold MimeTypeValidator.validate MimeLookupSafe
  rw [settles_bind, checkExtension_eq_ok]
  simp only [settles_checkExtension, true_and, hsize, true_implies]
  refine imp_congr_right fun _ => ?_
  cases henforce : policy.enforceMagicBytes with
  | false => simp
  | true =>
      cases htext : startsWith input.mimeType "text/" with
      | true => simp
      | false =>
          by_cases htxt : extractExtension rt.toLowerCase input.originalName = "txt"
          · simp [htxt]
          · simpa [htxt] using settles_checkSignature

theorem FilenameValidator.settles : Settles (FilenameValidator.validate input policy) := by
  unfold FilenameValidator.validate
  by_cases hname : input.originalName = "" ∨ '\x00' ∈ input.originalName.toList
  · simp [hname]
  · by_cases hall : input.originalName.toList.all isAllowedNameChar = true
    · simp only [hname, hall, if_false, not_true_eq_false]
      simp
    · simp only [hname, hall, if_false]
      simp

theorem settles_checkBound {bound : Option Int} {exceeds : Int → Bool} {message code : String} :
    Settles (checkBound bound exceeds message code) := by
  unfold checkBound
  cases bound with
  | none => simp
  | some b =>
      by_cases hexceeds : b ≠ 0 ∧ exceeds b = true
      · simp [hexceeds]
      · simp [hexceeds]

theorem DimensionsValidator.settles : Settles (DimensionsValidator.validate rt input policy) := by
  unfold DimensionsValidator.validate
  cases policy.dimensions with
  | none => simp
  | some rule =>
      by_cases himage : startsWith input.mimeType "image/" = true
      · simp only [himage, not_true_eq_false, if_false]
        unfold DimensionsValidator.checkImage
        rcases rt.metadata input.buffer with _ | ⟨width, height⟩
        · simp
        · by_cases hzero : width.getD 0 = 0 ∨ height.getD 0 = 0
          · simp [hzero]
          · simp [hzero, settles_bind, settles_checkBound]
      · simp [himage]

theorem settles_validate_iff (hparse : LiteralsParse policy) :
    Settles (FileValidationService.validate (storageValidators rt) input policy) ↔
      SizeLookupSafe rt input policy ∧ MimeLookupSafe rt input policy := by
  show Settles (SizeValidator.validate rt input policy >>= fun _ =>
    MimeTypeValidator.validate rt input policy >>= fun _ =>
    FilenameValidator.validate input policy >>= fun _ =>
    DimensionsValidator.validate rt input policy >>= fun _ => pure ()) ↔ _
  rw [settles_bind, SizeValidator.settles_iff hparse, SizeValidator.validate_eq_ok]
  refine and_congr_right fun _ => ?_
  by_cases hsize : SizeAllowed rt input policy
  · rw [settles_bind, MimeTypeValidator.settles_iff hsize]
    simp [hsize, settles_bind, FilenameValidator.settles, DimensionsValidator.settles]
  · simp [hsize, MimeLookupSafe]

end Throws

/-! ## What the client sees -/

/-- The service accepts and the pipe passes the value on, or the service fails with a
`FileValidationError` and the pipe answers 422 with its code, message and details. -/
def Answered (r : Except StorageError Unit) (t : Except PipeError IncomingFiles)
    (value : IncomingFiles) : Prop :=
  (r = .ok () ∧ t = .ok value) ∨
  ∃ message code details e, r = .error (.fileValidation message code details) ∧ t = .error e ∧
    e = .unprocessableEntity code message details ∧ e.status = 422

theorem MulterValidationPipe.answered_iff_settles (validators : List IFileValidator)
    (defaults : PipePolicy) (override : PolicyOverride) (file : MulterFile) :
    Answered
        (FileValidationService.validate validators (MulterAdapter.toUploadInput file)
          (defaults.spread override).toValidationPolicy)
        (transform validators defaults (some override) (.file file)) (.file file) ↔
      Settles (FileValidationService.validate validators (MulterAdapter.toUploadInput file)
        (defaults.spread override).toValidationPolicy) := by
  unfold Answered transform check
  cases hvalidate : FileValidationService.validate validators (MulterAdapter.toUploadInput file)
      (defaults.spread override).toValidationPolicy with
  | ok _ => simp [hvalidate, Except.mapError, Except.map]
  | error e =>
      cases e <;>
        simp [hvalidate, Except.mapError, Except.map, PipeError.of, PipeError.status]

def IncomingFiles.all : IncomingFiles → List MulterFile
  | .undefined => []
  | .file f => [f]
  | .files fs => fs
  | .fields record => record.flatMap Prod.snd

theorem settles_validateMany {validators : List IFileValidator} {files : List MulterFile}
    {policy : ValidationPolicy} (h : ∀ file ∈ files,
      Settles (FileValidationService.validate validators (MulterAdapter.toUploadInput file)
        policy)) :
    Settles (FileValidationService.validateMany validators
      (files.map MulterAdapter.toUploadInput) policy) :=
  settles_forM (by simpa using h)

/-- A request whose files all settle settles, whatever its shape. -/
theorem MulterValidationPipe.settles_check {validators : List IFileValidator}
    {policy : PipePolicy} {value : IncomingFiles} (h : ∀ file ∈ value.all,
      Settles (FileValidationService.validate validators (MulterAdapter.toUploadInput file)
        policy.toValidationPolicy)) :
    Settles (check validators policy value) := by
  cases value with
  | undefined =>
      rw [check]
      split <;> simp
  | file file => exact h file (List.mem_singleton_self file)
  | files files => exact settles_validateMany h
  | fields record =>
      refine settles_forM fun field hfield => settles_validateMany fun file hfile => ?_
      exact h file (List.mem_flatMap.2 ⟨field, hfield, hfile⟩)

/-- Nothing but validation errors leaves the validators, and the pipe answers them with a 422,
exactly when neither table is asked for a name it inherits. -/
theorem MulterValidationPipe.answered_iff (rt : Runtime) (defaults : PipePolicy)
    (override : PolicyOverride) (file : MulterFile)
    (hparse : LiteralsParse (defaults.spread override).toValidationPolicy) :
    Answered
        (FileValidationService.validate (storageValidators rt) (MulterAdapter.toUploadInput file)
          (defaults.spread override).toValidationPolicy)
        (transform (storageValidators rt) defaults (some override) (.file file)) (.file file) ↔
      SizeLookupSafe rt (MulterAdapter.toUploadInput file)
          (defaults.spread override).toValidationPolicy ∧
        MimeLookupSafe rt (MulterAdapter.toUploadInput file)
          (defaults.spread override).toValidationPolicy := by
  rw [answered_iff_settles, settles_validate_iff hparse]

def defaultPipePolicy : PipePolicy := { defaultValidationPolicy with required := true }

theorem literalsParse_defaultValidationPolicy : LiteralsParse defaultValidationPolicy := by
  refine ⟨⟨10 * 1024 ^ 2, by decide +kernel⟩, ?_⟩
  intro table htable limit hlimit
  obtain rfl := Option.some.inj htable
  have hall : ∀ limit ∈ [("png", "2MB"), ("jpg", "2MB"), ("jpeg", "2MB"), ("webp", "2MB"),
      ("pdf", "4MB"), ("mp4", "20MB"), ("mp3", "4MB"), ("ogg", "4MB"), ("docx", "4MB"),
      ("txt", "1MB")], (parseSize limit.2).toOption.isSome = true := by decide +kernel
  obtain ⟨max, hmax⟩ := Option.isSome_iff_exists.1 (hall limit hlimit)
  exact ⟨max, toOption_eq_some.1 hmax⟩

def photoFile : MulterFile :=
  ⟨[0x89, 0x50, 0x4E, 0x47, 0x0D, 0x0A, 0x1A, 0x0A], "photo.png", "image/png", 8⟩

theorem MulterValidationPipe.answered_photoFile :
    LiteralsParse (defaultPipePolicy.spread {}).toValidationPolicy ∧
    Answered
      (FileValidationService.validate (storageValidators runtimeSample)
        (MulterAdapter.toUploadInput photoFile) (defaultPipePolicy.spread {}).toValidationPolicy)
      (transform (storageValidators runtimeSample) defaultPipePolicy (some {}) (.file photoFile))
      (.file photoFile) := by
  have hparse : LiteralsParse (defaultPipePolicy.spread {}).toValidationPolicy :=
    literalsParse_defaultValidationPolicy
  refine ⟨hparse, (answered_iff runtimeSample defaultPipePolicy {} photoFile hparse).2 ⟨?_, ?_⟩⟩
  · intro _ _ table htable
    obtain rfl := Option.some.inj htable
    decide +kernel
  · intro _ _ _ _ _ _
    decide +kernel

/-- A PNG named `file.constructor`: the limit of that type is a function of `Object`. -/
def constructorFile : MulterFile := { photoFile with originalname := "file.constructor" }

/-- A `TypeError` leaves the validators, and the client sees a 500. -/
theorem MulterValidationPipe.not_answered_constructorFile :
    (transform (storageValidators runtimeSample) defaultPipePolicy (some {})
      (.file constructorFile) = .error (.rethrown (.typeError "size.trim is not a function"))) ∧
    ¬ ∀ (rt : Runtime) (defaults : PipePolicy) (override : PolicyOverride) (file : MulterFile),
      LiteralsParse (defaults.spread override).toValidationPolicy →
      Answered
        (FileValidationService.validate (storageValidators rt) (MulterAdapter.toUploadInput file)
          (defaults.spread override).toValidationPolicy)
        (transform (storageValidators rt) defaults (some override) (.file file)) (.file file) := by
  have hthrown : transform (storageValidators runtimeSample) defaultPipePolicy (some {})
      (.file constructorFile) =
      .error (.rethrown (.typeError "size.trim is not a function")) := by decide +kernel
  refine ⟨hthrown, fun h => ?_⟩
  rcases h runtimeSample defaultPipePolicy {} constructorFile
    literalsParse_defaultValidationPolicy with ⟨-, ht⟩ | ⟨_, _, _, e, -, ht, he, -⟩
  · rw [hthrown] at ht
    cases ht
  · rw [hthrown] at ht
    rw [← Except.error.inj ht] at he
    cases he

end NestStarter.Storage
