import Mathlib.Algebra.Ring.Nat
import NestStarter.Accounts.Passwords
import NestStarter.Core.Binary64
import NestStarter.Storage.Keys

/-! # Validation of uploads

The four validators of `StorageModule`, in registration order. The declared MIME type comes
from the client; the rest of an upload is its bytes, its name and its size.
-/

namespace NestStarter.Storage

open NestStarter.Core.Binary64 (leastExponent infiniteExponent nearest nearest_of_lt)
open NestStarter.Core.PosixPath
open NestStarter.Accounts (trim isWhiteSpace)

def unitMultipliers : List (String × Nat) :=
  [("B", 1), ("KB", 1024), ("MB", 1024 ^ 2), ("GB", 1024 ^ 3), ("TB", 1024 ^ 4)]

def digitsValue (digits : List Char) : Nat :=
  digits.foldl (fun n c => 10 * n + (c.toNat - '0'.toNat)) 0

/-- The groups of `SIZE_PATTERN`: the digits before and after the point, and the unit. -/
def sizePattern (s : List Char) : Option (List Char × List Char × List Char) :=
  let whole := s.takeWhile Char.isDigit
  let unit (rest : List Char) := (rest.dropWhile isWhiteSpace).map Char.toUpper
  if whole = [] then none
  else
    match s.dropWhile Char.isDigit with
    | '.' :: rest =>
        let fraction := rest.takeWhile Char.isDigit
        if fraction = [] then none else some (whole, fraction, unit (rest.dropWhile Char.isDigit))
    | rest => some (whole, [], unit rest)

/-- The amount is the nearest double, and the product with a power of two is exact. `Infinity` is
`2 ^ 1024`, above every finite number. -/
def parseSize (size : String) : Except StorageError Nat :=
  let invalid := .error (.storage ("Invalid file size unit: " ++ size))
  match sizePattern (trim size).toList with
  | none => invalid
  | some (whole, fraction, unit) =>
      match unitMultipliers.lookup (String.ofList unit) with
      | none => invalid
      | some multiplier =>
          let amount := nearest (digitsValue (whole ++ fraction)) (10 ^ fraction.length)
          .ok (min (amount * multiplier / 2 ^ leastExponent) (2 ^ infiniteExponent))

theorem le_of_lookup_unitMultipliers {unit : String} {multiplier : Nat}
    (h : unitMultipliers.lookup unit = some multiplier) : multiplier ≤ 1024 ^ 4 := by
  obtain ⟨l₁, l₂, hsplit, -⟩ := List.lookup_eq_some_iff.1 h
  have hmem : (unit, multiplier) ∈ unitMultipliers := by
    rw [hsplit]
    simp
  have hall : ∀ entry ∈ unitMultipliers, entry.2 ≤ 1024 ^ 4 := by decide
  exact hall _ hmem

/-- A whole amount below `2 ^ 53` is read exactly. -/
theorem parseSize_of_whole {size : String} {whole unit : List Char} {multiplier : Nat}
    (hmatch : sizePattern (trim size).toList = some (whole, [], unit))
    (hunit : unitMultipliers.lookup (String.ofList unit) = some multiplier)
    (hwhole : digitsValue whole < 2 ^ 53) :
    parseSize size = .ok (digitsValue whole * multiplier) := by
  have hexact : nearest (digitsValue whole) 1 * multiplier / 2 ^ leastExponent =
      digitsValue whole * multiplier := by
    rw [nearest_of_lt hwhole, Nat.mul_right_comm, Nat.mul_div_cancel _ (Nat.two_pow_pos _)]
  have hfinite : digitsValue whole * multiplier ≤ 2 ^ infiniteExponent :=
    calc digitsValue whole * multiplier
        ≤ 2 ^ 53 * 1024 ^ 4 := Nat.mul_le_mul hwhole.le (le_of_lookup_unitMultipliers hunit)
      _ = 2 ^ 93 := by decide
      _ ≤ 2 ^ infiniteExponent := Nat.pow_le_pow_right (by decide) (by decide)
  simp only [parseSize, hmatch, hunit, List.append_nil, List.length_nil, Nat.pow_zero, hexact,
    Nat.min_eq_left hfinite]

example : parseSize " 10mb " = .ok (10 * 1024 ^ 2) := by decide +kernel
example : parseSize "1.5KB" = .ok 1536 := by decide +kernel
example : (parseSize "10PB").toOption = none := by decide +kernel
example : parseSize "9007199254740993B" = .ok 9007199254740992 := by decide +kernel

/-! ## The validators -/

structure DimensionRule where
  minWidth : Option Int := none
  maxWidth : Option Int := none
  minHeight : Option Int := none
  maxHeight : Option Int := none
  deriving DecidableEq, Repr

structure ValidationPolicy where
  allowedExtensions : List String
  maxSize : String
  perTypeMaxSize : Option (List (String × String)) := none
  dimensions : Option DimensionRule := none
  enforceMagicBytes : Bool
  deriving DecidableEq, Repr

/-- What the validators call: Unicode lower case, a size as text, the MIME types that
`magic-bytes.js` finds, and the width and height that `sharp` reads, unless it throws. -/
structure Runtime where
  toLowerCase : String → String
  formatBytes : Int → String
  magicBytes : Buffer → List (Option String)
  metadata : Buffer → Option (Option Nat × Option Nat)

def startsWith (s head : String) : Bool := head.toList.isPrefixOf s.toList

def subtypeOf (mime : String) : Option String :=
  (segments mime.toList)[1]?.map String.ofList

section Validators

variable (rt : Runtime)

def SizeValidator.validate (input : UploadInput) (policy : ValidationPolicy) :
    Except StorageError Unit := do
  if input.size ≤ 0 then throw (.fileValidation "File is empty" "FILE_EMPTY" [])
  let globalMax ← parseSize policy.maxSize
  if input.size > globalMax then
    throw (.fileValidation
      ("File size " ++ rt.formatBytes input.size ++ " exceeds maximum " ++ policy.maxSize)
      "FILE_TOO_LARGE" [("actual", .number input.size), ("max", .number globalMax)])
  match policy.perTypeMaxSize with
  | none => return ()
  | some perTypeMaxSize =>
      let ext := extractExtension rt.toLowerCase input.originalName
      match property perTypeMaxSize ext with
      | .undefined => return ()
      | .inherited => throw (.typeError "size.trim is not a function")
      | .own perTypeLimit =>
          if perTypeLimit = "" then return ()
          let limit ← parseSize perTypeLimit
          if input.size > limit then
            throw (.fileValidation
              ("File " ++ input.originalName ++ " (" ++ rt.formatBytes input.size ++
                ") exceeds the " ++ perTypeLimit ++ " limit for ." ++ ext ++ " files")
              "FILE_TYPE_TOO_LARGE"
              [("type", .text ext), ("actual", .number input.size), ("max", .number limit)])

def MimeTypeValidator.checkExtension (input : UploadInput) (policy : ValidationPolicy) :
    Except StorageError Unit := do
  let ext := extractExtension rt.toLowerCase input.originalName
  if ext = "" then
    throw (.fileValidation ("File " ++ input.originalName ++ " has no extension")
      "FILE_EXTENSION_MISSING" [])
  let allowed := policy.allowedExtensions.map rt.toLowerCase
  if ext ∉ allowed then
    throw (.fileValidation
      ("File type ." ++ ext ++ " is not allowed. Allowed types: " ++ ", ".intercalate allowed)
      "FILE_TYPE_NOT_ALLOWED" [("extension", .text ext), ("allowed", .texts allowed)])

def detectedSubtypes (buffer : Buffer) : List String :=
  ((rt.magicBytes buffer).filterMap fun mime => mime.bind subtypeOf).filter (· ≠ "")

/-- The second half of `MimeTypeValidator.validate`, after its two early returns. -/
def MimeTypeValidator.checkSignature (input : UploadInput) : Except StorageError Unit := do
  if rt.magicBytes input.buffer = [] then
    throw (.fileValidation ("Cannot determine real file type of " ++ input.originalName)
      "FILE_SIGNATURE_UNKNOWN" [])
  match mimeFromExtension rt.toLowerCase input.originalName with
  | none => throw (.typeError "mimeFromExtension(...).split is not a function")
  | some mime =>
      let ext := extractExtension rt.toLowerCase input.originalName
      let expectedSubtype := subtypeOf mime
      if expectedSubtype.all fun e => e = "" ∨ e ∉ detectedSubtypes rt input.buffer then
        throw (.fileValidation
          ("File " ++ input.originalName ++ " content does not match its ." ++ ext ++ " extension")
          "FILE_SIGNATURE_MISMATCH"
          [("extension", .text ext),
            ("expected", (expectedSubtype.map Detail.text).getD .undefined),
            ("detected", .texts (detectedSubtypes rt input.buffer))])

def MimeTypeValidator.validate (input : UploadInput) (policy : ValidationPolicy) :
    Except StorageError Unit := do
  checkExtension rt input policy
  if ¬ policy.enforceMagicBytes then return ()
  if startsWith input.mimeType "text/" ∨
      extractExtension rt.toLowerCase input.originalName = "txt" then
    return ()
  checkSignature rt input

/-- `ALLOWED_NAME_PATTERN`, one character of it. -/
def isAllowedNameChar (c : Char) : Bool :=
  (0x0600 ≤ c.toNat && c.toNat ≤ 0x06FF) || c.isAlphanum ||
    ['_', '.', '-', '(', ')', ' '].contains c

def FilenameValidator.validate (input : UploadInput) (_policy : ValidationPolicy) :
    Except StorageError Unit := do
  if input.originalName = "" ∨ '\x00' ∈ input.originalName.toList then
    throw (.fileValidation "File name is invalid" "FILE_NAME_INVALID" [])
  if ¬ input.originalName.toList.all isAllowedNameChar then
    throw (.fileValidation
      ("File name \"" ++ input.originalName ++ "\" contains disallowed characters")
      "FILE_NAME_DISALLOWED_CHARS" [])

/-- `if (bound && …) throw …`: a bound that is absent or zero bounds nothing. -/
def checkBound (bound : Option Int) (exceeds : Int → Bool) (message : String) (code : String) :
    Except StorageError Unit := do
  if let some b := bound then
    if b ≠ 0 ∧ exceeds b then
      throw (.fileValidation (message ++ toString b ++ "px") code [])

/-- What `DimensionsValidator.validate` does after its two early returns. -/
def DimensionsValidator.checkImage (rule : DimensionRule) (input : UploadInput) :
    Except StorageError Unit := do
  match rt.metadata input.buffer with
  | none =>
      throw (.fileValidation ("Could not read image metadata for " ++ input.originalName)
        "IMAGE_METADATA_UNREADABLE" [])
  | some (width, height) =>
      let width := width.getD 0
      let height := height.getD 0
      if width = 0 ∨ height = 0 then
        throw (.fileValidation ("Could not determine image dimensions for " ++ input.originalName)
          "IMAGE_DIMENSIONS_UNKNOWN" [])
      checkBound rule.minWidth (width < ·)
        ("Image width " ++ toString width ++ "px is below the minimum of ") "IMAGE_TOO_NARROW"
      checkBound rule.maxWidth (width > ·)
        ("Image width " ++ toString width ++ "px exceeds the maximum of ") "IMAGE_TOO_WIDE"
      checkBound rule.minHeight (height < ·)
        ("Image height " ++ toString height ++ "px is below the minimum of ") "IMAGE_TOO_SHORT"
      checkBound rule.maxHeight (height > ·)
        ("Image height " ++ toString height ++ "px exceeds the maximum of ") "IMAGE_TOO_TALL"

def DimensionsValidator.validate (input : UploadInput) (policy : ValidationPolicy) :
    Except StorageError Unit :=
  match policy.dimensions with
  | none => return ()
  | some rule =>
      if ¬ startsWith input.mimeType "image/" then return () else checkImage rt rule input

abbrev IFileValidator := UploadInput → ValidationPolicy → Except StorageError Unit

def FileValidationService.validate (validators : List IFileValidator) (input : UploadInput)
    (policy : ValidationPolicy) : Except StorageError Unit :=
  validators.forM fun validator => validator input policy

def storageValidators : List IFileValidator :=
  [SizeValidator.validate rt, MimeTypeValidator.validate rt, FilenameValidator.validate,
    DimensionsValidator.validate rt]

end Validators

/-! ## What each validator accepts -/

section Accepts

variable (rt : Runtime) (input : UploadInput) (policy : ValidationPolicy)

/-- The size is positive and within the bounds, which parse. -/
def SizeAllowed : Prop :=
  0 < input.size ∧ (∃ max, parseSize policy.maxSize = .ok max ∧ input.size ≤ max) ∧
  ∀ table ∈ policy.perTypeMaxSize,
    let perTypeLimit := property table (extractExtension rt.toLowerCase input.originalName)
    perTypeLimit ≠ .inherited ∧
    ∀ text, perTypeLimit = .own text → text ≠ "" →
      ∃ limit, parseSize text = .ok limit ∧ input.size ≤ limit

def ExtensionAllowed : Prop :=
  extractExtension rt.toLowerCase input.originalName ≠ "" ∧
  extractExtension rt.toLowerCase input.originalName ∈
    policy.allowedExtensions.map rt.toLowerCase

/-- One of the types found in the bytes has the subtype that the extension stands for. -/
def BytesMatch : Prop :=
  ∃ mime expected, mimeFromExtension rt.toLowerCase input.originalName = some mime ∧
    subtypeOf mime = some expected ∧ expected ∈ detectedSubtypes rt input.buffer

def NameAllowed : Prop :=
  input.originalName ≠ "" ∧ '\x00' ∉ input.originalName.toList ∧
  ∀ c ∈ input.originalName.toList, isAllowedNameChar c = true

/-- The image is within a bound that is neither absent nor zero. -/
def Within (bound : Option Int) (exceeds : Int → Bool) : Prop :=
  ∀ b ∈ bound, b ≠ 0 → exceeds b = false

/-- There is no rule, or the bytes are an image within it. -/
def ImageAllowed : Prop :=
  ∀ rule ∈ policy.dimensions, ∃ width height : Nat, 0 < width ∧ 0 < height ∧
    rt.metadata input.buffer = some (some width, some height) ∧
    Within rule.minWidth (width < ·) ∧ Within rule.maxWidth (width > ·) ∧
    Within rule.minHeight (height < ·) ∧ Within rule.maxHeight (height > ·)

variable {rt input policy}

theorem SizeValidator.validate_eq_ok :
    SizeValidator.validate rt input policy = .ok () ↔ SizeAllowed rt input policy := by
  unfold SizeValidator.validate SizeAllowed
  by_cases hempty : input.size ≤ 0
  · have hnpos : ¬ 0 < input.size := by omega
    simp [hempty, hnpos]
  · have hpos : 0 < input.size := by omega
    cases hmax : parseSize policy.maxSize with
    | error e => simp [hempty]
    | ok max =>
        by_cases hlarge : (max : Int) < input.size
        · have hnle : ¬ input.size ≤ max := by omega
          simp [hempty, hlarge, hnle]
        · have hle : input.size ≤ max := by omega
          cases htable : policy.perTypeMaxSize with
          | none => simp [hempty, hlarge, hpos, hle]
          | some table =>
              cases hlimit : property table
                  (extractExtension rt.toLowerCase input.originalName) with
              | undefined => simp [hempty, hlarge, hpos, hle, hlimit]
              | inherited => simp [hempty, hlarge, hlimit]
              | own text =>
                  by_cases htext : text = ""
                  · simp [hempty, hlarge, hpos, hle, hlimit, htext]
                  · cases hparse : parseSize text with
                    | error e => simp [hempty, hlarge, hlimit, htext, hparse]
                    | ok limit =>
                        simp [hempty, hlarge, hpos, hle, hlimit, htext, hparse]

theorem MimeTypeValidator.checkExtension_eq_ok :
    MimeTypeValidator.checkExtension rt input policy = .ok () ↔
      ExtensionAllowed rt input policy := by
  unfold MimeTypeValidator.checkExtension ExtensionAllowed
  by_cases hext : extractExtension rt.toLowerCase input.originalName = ""
  · simp [hext]
  · by_cases hmem : extractExtension rt.toLowerCase input.originalName ∈
        policy.allowedExtensions.map rt.toLowerCase
    · simp only [hext, hmem, if_false, not_true_eq_false]
      simp [hext]
    · simp only [hext, hmem, if_false, not_false_eq_true, if_true]
      simp

theorem MimeTypeValidator.checkSignature_eq_ok :
    MimeTypeValidator.checkSignature rt input = .ok () ↔ BytesMatch rt input := by
  unfold MimeTypeValidator.checkSignature BytesMatch
  by_cases hempty : rt.magicBytes input.buffer = []
  · simp [hempty, detectedSubtypes]
  · cases hmime : mimeFromExtension rt.toLowerCase input.originalName with
    | none => simp [hempty]
    | some mime =>
        cases hsub : subtypeOf mime with
        | none => simp [hempty, hsub]
        | some expected =>
            by_cases hmem : expected ∈ detectedSubtypes rt input.buffer
            · have hne : expected ≠ "" := by
                simpa using (List.mem_filter.1 hmem).2
              simp [hempty, hsub, hmem, hne]
            · simp [hempty, hsub, hmem]

theorem FilenameValidator.validate_eq_ok :
    FilenameValidator.validate input policy = .ok () ↔ NameAllowed input := by
  unfold FilenameValidator.validate NameAllowed
  by_cases hname : input.originalName = "" ∨ '\x00' ∈ input.originalName.toList
  · have hnot : ¬ (input.originalName ≠ "" ∧ '\x00' ∉ input.originalName.toList) := by tauto
    simp only [hname, if_true, ← and_assoc, hnot, false_and, iff_false]
    simp
  · obtain ⟨hne, hnul⟩ := not_or.1 hname
    simp only [hname, if_false]
    by_cases hall : input.originalName.toList.all isAllowedNameChar = true
    · have hchars := List.all_eq_true.1 hall
      simp only [hall, hnul]
      simpa [hne] using hchars
    · have hnot : ¬ ∀ c ∈ input.originalName.toList, isAllowedNameChar c = true := by
        simpa using hall
      simp only [hall, hnot]
      simp

theorem checkBound_eq_ok {bound : Option Int} {exceeds : Int → Bool} {message code : String} :
    checkBound bound exceeds message code = .ok () ↔ Within bound exceeds := by
  unfold checkBound Within
  cases bound with
  | none => simp
  | some b =>
      by_cases hzero : b = 0
      · simp [hzero]
      · cases hexceeds : exceeds b <;> simp [hzero, hexceeds]

theorem bind_eq_ok {a : Except StorageError Unit} {b : Unit → Except StorageError Unit} :
    (a >>= b) = .ok () ↔ a = .ok () ∧ b () = .ok () := by
  cases a <;> simp

theorem DimensionsValidator.checkImage_eq_ok {rule : DimensionRule} :
    DimensionsValidator.checkImage rt rule input = .ok () ↔
      ∃ width height : Nat, 0 < width ∧ 0 < height ∧
        rt.metadata input.buffer = some (some width, some height) ∧
        Within rule.minWidth (width < ·) ∧ Within rule.maxWidth (width > ·) ∧
        Within rule.minHeight (height < ·) ∧ Within rule.maxHeight (height > ·) := by
  unfold DimensionsValidator.checkImage
  rcases hmeta : rt.metadata input.buffer with _ | ⟨_ | width, _ | height⟩
  · simp
  · simp
  · simp
  · simp
  · by_cases hzero : width = 0 ∨ height = 0
    · simp [hzero]
      omega
    · have hpos : 0 < width ∧ 0 < height := by omega
      simp [hzero, hpos, bind_eq_ok, checkBound_eq_ok]

end Accepts

/-! ## What the declared type decides -/

section Declared

def UploadInput.declaring (input : UploadInput) (mimeType : String) : UploadInput :=
  { input with mimeType }

variable (rt : Runtime) (input : UploadInput) (policy : ValidationPolicy)

/-- Accepted, or rejected with an error code. -/
def verdict : Except (Option String) Unit :=
  (FileValidationService.validate (storageValidators rt) input policy).mapError StorageError.code

/-- `DimensionsValidator.validate` for a file declared to be an image. -/
def DimensionsValidator.checkRule : Except StorageError Unit :=
  match policy.dimensions with
  | none => .ok ()
  | some rule => checkImage rt rule input

/-- The verdict does not turn on which of the two types was declared, and is a rejection if
the bytes are not what the extension says. -/
def HeaderIgnored (m₁ m₂ : String) : Prop :=
  verdict rt (input.declaring m₁) policy = verdict rt (input.declaring m₂) policy ∧
  (¬ BytesMatch rt input → ∀ m ∈ [m₁, m₂], verdict rt (input.declaring m) policy ≠ .ok ())

/-- The file is rejected before the declared type is read; or its bytes are right, and the
check of its dimensions rejects nothing, is not reached, or is made under both types; or its
bytes are wrong, and the text shortcut is taken under neither type, or under both for a name
that is rejected. -/
def HeaderMoot (m₁ m₂ : String) : Prop :=
  ¬ SizeAllowed rt input policy ∨ ¬ ExtensionAllowed rt input policy ∨
  (BytesMatch rt input ∧
    (¬ NameAllowed input ∨ ImageAllowed rt input policy ∨
      (startsWith m₁ "image/" = startsWith m₂ "image/"))) ∨
  (¬ BytesMatch rt input ∧ startsWith m₁ "text/" = startsWith m₂ "text/" ∧
    (startsWith m₁ "text/" = true → ¬ NameAllowed input))

variable {rt input policy}

theorem DimensionsValidator.checkRule_eq_ok :
    DimensionsValidator.checkRule rt input policy = .ok () ↔ ImageAllowed rt input policy := by
  unfold DimensionsValidator.checkRule ImageAllowed
  cases policy.dimensions with
  | none => simp
  | some rule => simp [checkImage_eq_ok]

theorem FilenameValidator.code_of_error {e : StorageError}
    (h : FilenameValidator.validate input policy = .error e) :
    e.code = some "FILE_NAME_INVALID" ∨ e.code = some "FILE_NAME_DISALLOWED_CHARS" := by
  unfold FilenameValidator.validate at h
  by_cases hname : input.originalName = "" ∨ '\x00' ∈ input.originalName.toList
  · simp only [hname, if_true, throw_eq_error, error_bind, Except.error.injEq] at h
    subst h
    exact Or.inl rfl
  · by_cases hall : input.originalName.toList.all isAllowedNameChar = true
    · simp [hname, hall] at h
    · simp only [hname, hall, if_false, pure_eq_ok, Bool.false_eq_true,
        not_false_eq_true, if_true, throw_eq_error, Except.error.injEq] at h
      subst h
      exact Or.inr rfl

theorem MimeTypeValidator.code_of_signature_error {e : StorageError}
    (h : MimeTypeValidator.checkSignature rt input = .error e) :
    e.code ≠ some "FILE_NAME_INVALID" ∧ e.code ≠ some "FILE_NAME_DISALLOWED_CHARS" := by
  unfold MimeTypeValidator.checkSignature at h
  by_cases hempty : rt.magicBytes input.buffer = []
  · simp only [hempty, if_true, throw_eq_error, error_bind, Except.error.injEq] at h
    subst h
    simp [StorageError.code]
  · cases hmime : mimeFromExtension rt.toLowerCase input.originalName with
    | none =>
        simp only [hempty, hmime, if_false, throw_eq_error, Except.error.injEq] at h
        subst h
        simp [StorageError.code]
    | some mime =>
        simp only [hempty, hmime, if_false, pure_eq_ok] at h
        split at h
        · simp only [throw_eq_error, Except.error.injEq] at h
          subst h
          simp [StorageError.code]
        · cases h

/-- The calls behind `validate`, for a policy that inspects the bytes of the file. -/
theorem validate_declaring (henforce : policy.enforceMagicBytes = true)
    (htxt : extractExtension rt.toLowerCase input.originalName ≠ "txt") (m : String) :
    FileValidationService.validate (storageValidators rt) (input.declaring m) policy = (do
      SizeValidator.validate rt input policy
      MimeTypeValidator.checkExtension rt input policy
      (if startsWith m "text/" then pure () else MimeTypeValidator.checkSignature rt input)
      FilenameValidator.validate input policy
      if startsWith m "image/" then DimensionsValidator.checkRule rt input policy
      else pure ()) := by
  have hdim : DimensionsValidator.validate rt (input.declaring m) policy =
      if startsWith m "image/" then DimensionsValidator.checkRule rt input policy
      else pure () := by
    unfold DimensionsValidator.validate DimensionsValidator.checkRule
    cases policy.dimensions with
    | none => exact (ite_self _).symm
    | some rule =>
        cases himage : startsWith m "image/" with
        | false => simp [UploadInput.declaring, himage]
        | true =>
            simp [UploadInput.declaring, himage]
            rfl
  have hmime : MimeTypeValidator.validate rt (input.declaring m) policy = (do
      MimeTypeValidator.checkExtension rt input policy
      (if startsWith m "text/" then pure () else MimeTypeValidator.checkSignature rt input)) := by
    unfold MimeTypeValidator.validate
    cases htext : startsWith m "text/" <;>
      simp [UploadInput.declaring, henforce, htext, htxt] <;> rfl
  show (SizeValidator.validate rt (input.declaring m) policy >>= fun _ =>
    MimeTypeValidator.validate rt (input.declaring m) policy >>= fun _ =>
    FilenameValidator.validate (input.declaring m) policy >>= fun _ =>
    DimensionsValidator.validate rt (input.declaring m) policy >>= fun _ => pure ()) = _
  rw [hdim, hmime, bind_assoc, bind_pure_unit]
  rfl

theorem startsWith_image_of_text {m : String} (h : startsWith m "text/" = true) :
    startsWith m "image/" = false := by
  unfold startsWith at h ⊢
  obtain ⟨rest, hrest⟩ := List.isPrefixOf_iff_prefix.1 h
  rw [← hrest]
  rfl

/-- The declared type makes no difference, and wrong bytes are always rejected, exactly where
neither shortcut keyed on it is decisive. -/
theorem headerIgnored_iff (rt : Runtime) (input : UploadInput) (policy : ValidationPolicy)
    (m₁ m₂ : String) (henforce : policy.enforceMagicBytes = true)
    (htxt : extractExtension rt.toLowerCase input.originalName ≠ "txt") :
    HeaderIgnored rt input policy m₁ m₂ ↔ HeaderMoot rt input policy m₁ m₂ := by
  unfold HeaderIgnored HeaderMoot verdict
  simp only [validate_declaring henforce htxt, List.forall_mem_cons]
  rw [← SizeValidator.validate_eq_ok, ← MimeTypeValidator.checkExtension_eq_ok,
    ← MimeTypeValidator.checkSignature_eq_ok, ← @FilenameValidator.validate_eq_ok input policy,
    ← DimensionsValidator.checkRule_eq_ok]
  cases hsize : SizeValidator.validate rt input policy with
  | error e => simp [Except.mapError]
  | ok _ =>
      cases hext : MimeTypeValidator.checkExtension rt input policy with
      | error e => simp [Except.mapError]
      | ok _ =>
          cases hsig : MimeTypeValidator.checkSignature rt input with
          | ok _ =>
              cases hname : FilenameValidator.validate input policy with
              | error e => simp [Except.mapError]
              | ok _ =>
                  cases hdim : DimensionsValidator.checkRule rt input policy with
                  | ok _ => simp [Except.mapError]
                  | error e =>
                      cases startsWith m₁ "image/" <;> cases startsWith m₂ "image/" <;>
                        simp [Except.mapError]
          | error e =>
              cases hname : FilenameValidator.validate input policy with
              | error e' =>
                  have hcode := MimeTypeValidator.code_of_signature_error hsig
                  have hne : e.code ≠ e'.code := by
                    intro he
                    rcases FilenameValidator.code_of_error hname with h | h
                    · exact hcode.1 (he.trans h)
                    · exact hcode.2 (he.trans h)
                  cases startsWith m₁ "text/" <;> cases startsWith m₂ "text/" <;>
                    simp [Except.mapError, hne, hne.symm]
              | ok _ =>
                  cases htext₁ : startsWith m₁ "text/" <;> cases htext₂ : startsWith m₂ "text/" <;>
                    simp [Except.mapError, htext₁, htext₂, startsWith_image_of_text]

end Declared

def defaultValidationPolicy : ValidationPolicy where
  allowedExtensions := ["png", "jpg", "jpeg", "webp"]
  maxSize := "10MB"
  perTypeMaxSize := some
    [("png", "2MB"), ("jpg", "2MB"), ("jpeg", "2MB"), ("webp", "2MB"), ("pdf", "4MB"),
      ("mp4", "20MB"), ("mp3", "4MB"), ("ogg", "4MB"), ("docx", "4MB"), ("txt", "1MB")]
  enforceMagicBytes := true

/-- The libraries on the buffers of the example runs: signatures without an image. -/
def runtimeSample : Runtime where
  toLowerCase := lowerSample
  formatBytes n := toString n ++ " B"
  magicBytes buffer :=
    if [0xFF, 0xD8, 0xFF, 0xE0].isPrefixOf buffer then [some "image/jpeg"]
    else if [0x89, 0x50, 0x4E, 0x47, 0x0D, 0x0A, 0x1A, 0x0A].isPrefixOf buffer then
      [some "image/png"]
    else []
  metadata _ := none

def spoofedPhoto : UploadInput where
  buffer := [0xFF, 0xD8, 0xFF, 0xE0, 0x00, 0x10, 0x4A, 0x46, 0x49, 0x46]
  originalName := "photo.png"
  mimeType := "image/png"
  size := 10

theorem headerIgnored_iff_spoofedPhoto :
    defaultValidationPolicy.enforceMagicBytes = true ∧
    extractExtension runtimeSample.toLowerCase spoofedPhoto.originalName ≠ "txt" ∧
    (HeaderIgnored runtimeSample spoofedPhoto defaultValidationPolicy "image/png" "image/jpeg" ↔
      HeaderMoot runtimeSample spoofedPhoto defaultValidationPolicy "image/png" "image/jpeg") :=
  ⟨rfl, by decide +kernel,
    headerIgnored_iff runtimeSample spoofedPhoto defaultValidationPolicy "image/png" "image/jpeg"
      rfl (by decide +kernel)⟩

/-- Declared as text, the JPEG passes for a PNG. -/
theorem verdict_spoofedPhoto :
    defaultValidationPolicy.enforceMagicBytes = true ∧
    extractExtension runtimeSample.toLowerCase spoofedPhoto.originalName ≠ "txt" ∧
    verdict runtimeSample (spoofedPhoto.declaring "image/png") defaultValidationPolicy =
      .error (some "FILE_SIGNATURE_MISMATCH") ∧
    verdict runtimeSample (spoofedPhoto.declaring "text/plain") defaultValidationPolicy = .ok () ∧
    ¬ HeaderIgnored runtimeSample spoofedPhoto defaultValidationPolicy "image/png"
      "text/plain" := by
  have hpng : verdict runtimeSample (spoofedPhoto.declaring "image/png")
      defaultValidationPolicy = .error (some "FILE_SIGNATURE_MISMATCH") := by decide +kernel
  have htext : verdict runtimeSample (spoofedPhoto.declaring "text/plain")
      defaultValidationPolicy = .ok () := by decide +kernel
  refine ⟨rfl, by decide +kernel, hpng, htext, fun h => ?_⟩
  have heq := h.1
  rw [hpng, htext] at heq
  cases heq

end NestStarter.Storage
