import Mathlib.Control.Monad.Basic
import NestStarter.Core.PosixPath
import NestStarter.Domain

/-! # Storage keys and file names

`storage.error.ts`, `path.util.ts`, `file-name.util.ts` and `mime.util.ts`. A key that
`sanitizeKey` returns is a sequence of segments, none of them empty or a dot segment, with
single slashes between them.
-/

namespace NestStarter.Storage

open NestStarter.Core.PosixPath

inductive Visibility where
  | PUBLIC
  | PRIVATE
  deriving DecidableEq, Repr

def Visibility.value : Visibility → String
  | .PUBLIC => "public"
  | .PRIVATE => "private"

abbrev Buffer := List UInt8

structure UploadInput where
  buffer : Buffer
  originalName : String
  mimeType : String
  size : Int
  deriving DecidableEq, Repr

/-- A value in the `details` of a validation error. -/
inductive Detail where
  | undefined
  | number (n : Int)
  | text (s : String)
  | texts (l : List String)
  deriving DecidableEq, Repr

/-- What storage code throws: the classes of `storage.error.ts`, `TypeError`, and what a client
throws. -/
inductive StorageError where
  | storage (message : String)
  | fileValidation (message code : String) (details : List (String × Detail))
  | fileNotFound (key : String)
  | storageProvider (message : String)
  | typeError (message : String)
  | client (message : String)
  deriving DecidableEq, Repr

/-- The `code` of an error; only validation errors have one. -/
def StorageError.code : StorageError → Option String
  | .fileValidation _ code _ => some code
  | _ => none

section Except

variable {α β : Type}

@[simp] theorem pure_eq_ok (a : α) : (pure a : Except StorageError α) = .ok a := rfl

@[simp] theorem throw_eq_error (e : StorageError) :
    (throw e : Except StorageError α) = .error e := rfl

@[simp] theorem ok_bind (a : α) (f : α → Except StorageError β) : (Except.ok a >>= f) = f a := rfl

@[simp] theorem error_bind (e : StorageError) (f : α → Except StorageError β) :
    (Except.error e >>= f) = .error e := rfl

theorem toOption_eq_some {x : Except StorageError α} {a : α} :
    x.toOption = some a ↔ x = .ok a := by cases x <;> simp [Except.toOption]

end Except

def trimLeading (s : List Char) : List Char := s.dropWhile (· = '/')

def trimTrailing (s : List Char) : List Char := (s.reverse.dropWhile (· = '/')).reverse

def slashes (s : List Char) : List Char := s.map fun c => if c = '\\' then '/' else c

def invalidKey : StorageError := .storage "Invalid storage key"

def sanitizeKey (input : String) : Except StorageError String :=
  if input = "" ∨ '\x00' ∈ input.toList then .error invalidKey
  else
    let key := trimTrailing (trimLeading (slashes input.toList))
    if ∀ s ∈ segments key, Proper s then .ok (String.ofList key) else .error invalidKey

def joinKey (parts : List String) : String :=
  String.ofList <| ofSegments <|
    ((parts.filter (· ≠ "")).map fun p => trimTrailing (trimLeading p.toList)).filter (· ≠ [])

def stripPrefix (key head : String) : Except StorageError String := do
  let normalized ← sanitizeKey key
  let normalizedPrefix := trimTrailing (trimLeading head.toList)
  if normalizedPrefix = [] then return normalized
  if normalized.toList = normalizedPrefix then return ""
  if (normalizedPrefix ++ ['/']).isPrefixOf normalized.toList then
    return String.ofList (normalized.toList.drop (normalizedPrefix.length + 1))
  return normalized

example : sanitizeKey "\\avatars\\1.png\\" = .ok "avatars/1.png" := by decide +kernel
example : sanitizeKey "a/../b" = .error invalidKey := by decide +kernel
example : joinKey ["/avatars/", "", "/1/"] = "avatars/1" := by decide +kernel
example : stripPrefix "public/avatars/1.png" "public" = .ok "avatars/1.png" := by decide +kernel

/-! ## Normalised keys -/

/-- A key as `sanitizeKey` returns it. -/
def Normalized (key : String) : Prop :=
  (∀ s ∈ segments key.toList, Proper s) ∧ '\\' ∉ key.toList ∧ '\x00' ∉ key.toList

theorem trimLeading_of_proper {p : Path} (h : ∀ s ∈ segments p, Proper s) : trimLeading p = p := by
  cases p with
  | nil => rfl
  | cons c p =>
      have hc : c ≠ '/' := by
        rintro rfl
        exact (h [] (by rw [segments_slash_cons]; exact List.mem_cons_self)).1 rfl
      simp [trimLeading, hc]

theorem trimTrailing_of_proper {p : Path} (h : ∀ s ∈ segments p, Proper s) :
    trimTrailing p = p := by
  rcases List.eq_nil_or_concat p with rfl | ⟨q, c, rfl⟩
  · rfl
  · have hc : c ≠ '/' := by
      rintro rfl
      refine (h [] ?_).1 rfl
      rw [List.concat_eq_append, segments_append_slash]
      exact List.mem_append_right _ List.mem_cons_self
    simp [trimTrailing, hc]

theorem sanitizeKey_of_normalized {key : String} (h : Normalized key) :
    sanitizeKey key = .ok key := by
  obtain ⟨hproper, hslash, hnul⟩ := h
  have hne : key ≠ "" := by
    rintro rfl
    exact (hproper [] (by decide)).1 rfl
  have hslashes : slashes key.toList = key.toList := by
    refine (List.map_congr_left fun c hc => if_neg ?_).trans (List.map_id _)
    rintro rfl
    exact hslash hc
  unfold sanitizeKey
  rw [if_neg (by tauto), hslashes, trimLeading_of_proper hproper, trimTrailing_of_proper hproper]
  simp only [if_pos hproper, String.ofList_toList]

theorem normalized_of_sanitizeKey {input key : String} (h : sanitizeKey input = .ok key) :
    Normalized key := by
  unfold sanitizeKey at h
  split at h
  · cases h
  · next hvalid =>
      obtain ⟨_, hnul⟩ := not_or.1 hvalid
      simp only at h
      split at h
      · next hproper =>
          cases h
          have hsub : ∀ c ∈ trimTrailing (trimLeading (slashes input.toList)),
              c ∈ slashes input.toList := by
            intro c hc
            have hc := (List.dropWhile_sublist _).mem (List.mem_reverse.1 hc)
            exact (List.dropWhile_sublist _).mem (List.mem_reverse.1 hc)
          refine ⟨by rwa [String.toList_ofList], fun hb => ?_, fun hb => ?_⟩
          · rw [String.toList_ofList] at hb
            obtain ⟨c, _, hc⟩ := List.mem_map.1 (hsub _ hb)
            split at hc
            · cases hc
            · exact absurd hc ‹_›
          · rw [String.toList_ofList] at hb
            obtain ⟨c, hmem, hc⟩ := List.mem_map.1 (hsub _ hb)
            split at hc
            · cases hc
            · exact hnul (hc ▸ hmem)
      · cases h

theorem sanitizeKey_idem {input key : String} (h : sanitizeKey input = .ok key) :
    sanitizeKey key = .ok key := sanitizeKey_of_normalized (normalized_of_sanitizeKey h)

/-! ## `file-name.util` and `mime.util`

Lower case is a parameter: only its value at the extension matters. -/

def afterLastDot (name : List Char) : Option (List Char) :=
  if '.' ∈ name then some (name.reverse.takeWhile (· ≠ '.')).reverse else none

/-- `lastIndexOf('.')` is zero: the only dot is the first character. -/
def isDotfile (name : List Char) : Bool := name.head? = some '.' && '.' ∉ name.tail

def objectPrototype : List String :=
  ["constructor", "__defineGetter__", "__defineSetter__", "hasOwnProperty", "__lookupGetter__",
    "__lookupSetter__", "isPrototypeOf", "propertyIsEnumerable", "toString", "valueOf",
    "__proto__", "toLocaleString"]

/-- `record[name]`: an own property, what the record inherits, or `undefined`. -/
inductive Property where
  | own (s : String)
  | inherited
  | undefined
  deriving DecidableEq, Repr

def property (record : List (String × String)) (name : String) : Property :=
  match record.lookup name with
  | some s => .own s
  | none => if name ∈ objectPrototype then .inherited else .undefined

def extToMime : List (String × String) :=
  [("jpg", "image/jpeg"), ("jpeg", "image/jpeg"), ("png", "image/png"), ("webp", "image/webp"),
    ("gif", "image/gif"), ("avif", "image/avif"), ("heif", "image/heif"),
    ("svg", "image/svg+xml"), ("pdf", "application/pdf"), ("txt", "text/plain"),
    ("json", "application/json"), ("mp4", "video/mp4"), ("mp3", "audio/mpeg"),
    ("ogg", "audio/ogg"),
    ("docx", "application/vnd.openxmlformats-officedocument.wordprocessingml.document")]

section Names

variable (toLowerCase : String → String)

def extractExtension (name : String) : String :=
  match afterLastDot name.toList with
  | some ext => if isDotfile name.toList then "" else toLowerCase (String.ofList ext)
  | none => ""

/-- A property the table inherits is no string. -/
def mimeFromExtension (filename : String) : Option String :=
  match afterLastDot filename.toList with
  | none => some "application/octet-stream"
  | some ext =>
      match property extToMime (toLowerCase (String.ofList ext)) with
      | .own mime => some mime
      | .inherited => none
      | .undefined => some "application/octet-stream"

end Names

def lowerSample (s : String) : String := String.ofList (s.toList.map Char.toLower)

example : extractExtension lowerSample "archive.tar.GZ" = "gz" := by decide +kernel
example : extractExtension lowerSample ".gitignore" = "" := by decide +kernel
example : mimeFromExtension lowerSample "photo.PNG" = some "image/png" := by decide +kernel

end NestStarter.Storage
