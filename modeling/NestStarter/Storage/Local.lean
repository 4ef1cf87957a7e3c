import Mathlib.Logic.Function.Basic
import NestStarter.Storage.Provider

/-! # The local provider

`LocalStorageProvider` over a file system, and the route that serves its files:
`LocalSigningService`, `LocalStreamGuard` and `LocalStorageController`. HMAC-SHA256 is a
parameter.
-/

namespace NestStarter.Storage

open NestStarter.Core.PosixPath

/-- JavaScript numbers up to `===`, with what the code does with them. -/
structure Numbers where
  Number : Type
  /-- `Number(text)` -/
  ofText : String → Number
  /-- `${n}` -/
  text : Number → String
  isFinite : Number → Bool
  /-- `i + n` for an integer `i` -/
  plus : Int → Number → Number
  /-- `n * 1000 < now` -/
  isPast : Number → Instant → Bool

/-- What is documented of the text of a number: a finite number is read off it, and it is made
of digits, letters, signs and points. -/
structure Numbers.Documented (ν : Numbers) : Prop where
  text_inj : ∀ m n, ν.isFinite m = true → ν.text m = ν.text n → m = n
  bar_notMem : ∀ n, '|' ∉ (ν.text n).toList

/-- Natural numbers and `NaN`: the numbers of the example runs. -/
def numbersSample : Numbers where
  Number := Option Nat
  ofText s :=
    if s ≠ "" ∧ s.toList.all Char.isDigit then some (Nat.ofDigitChars 10 s.toList 0) else none
  text
    | some n => n.repr
    | none => "NaN"
  isFinite n := n.isSome
  plus i n := n.map fun n => i.toNat + n
  isPast n now := n.elim false fun n => decide ((n * 1000 : Int) < now)

instance : DecidableEq numbersSample.Number := inferInstanceAs (DecidableEq (Option Nat))

theorem documented_numbersSample : numbersSample.Documented where
  text_inj m n hm h := by
    obtain ⟨m, rfl⟩ := Option.isSome_iff_exists.1 hm
    have htext : m.repr.toList = (numbersSample.text n).toList := congrArg String.toList h
    rw [Nat.toList_repr] at htext
    cases n with
    | none =>
        have hmem : 'N' ∈ Nat.toDigits 10 m := by
          rw [htext]
          decide
        exact absurd (Nat.isDigit_of_mem_toDigits (by decide) (by decide) hmem) (by decide)
    | some n =>
        have hrepr : Nat.toDigits 10 m = Nat.toDigits 10 n := htext.trans Nat.toList_repr
        have hvalue := congrArg (Nat.ofDigitChars 10 · 0) hrepr
        simp only [Nat.ofDigitChars_ten_toDigits] at hvalue
        rw [hvalue]
  bar_notMem n h := by
    cases n with
    | none => exact absurd h (by decide)
    | some n =>
        have htext : '|' ∈ n.repr.toList := h
        rw [Nat.toList_repr] at htext
        exact absurd (Nat.isDigit_of_mem_toDigits (by decide) (by decide) htext) (by decide)

def hexDigit (n : Nat) : Char := if n < 10 then Char.ofNat (48 + n) else Char.ofNat (87 + n)

def hexValue (c : Char) : Option Nat :=
  if c.isDigit then some (c.toNat - 48)
  else if 97 ≤ c.toNat ∧ c.toNat ≤ 102 then some (c.toNat - 87)
  else if 65 ≤ c.toNat ∧ c.toNat ≤ 70 then some (c.toNat - 55)
  else none

def toHex (bytes : List UInt8) : List Char :=
  bytes.flatMap fun b => [hexDigit (b.toNat / 16), hexDigit (b.toNat % 16)]

/-- `Buffer.from(s, 'hex')`: the pairs before the first that is no byte. -/
def fromHex : List Char → List UInt8
  | a :: b :: rest =>
      match hexValue a, hexValue b with
      | some x, some y => UInt8.ofNat (16 * x + y) :: fromHex rest
      | _, _ => []
  | _ => []

theorem fromHex_toHex (bytes : List UInt8) : fromHex (toHex bytes) = bytes := by
  have hdigit : ∀ n < 16, hexValue (hexDigit n) = some n := by decide
  induction bytes with
  | nil => rfl
  | cons b bytes ih =>
      have hlt : b.toNat < 256 := b.toNat_lt
      show fromHex (hexDigit (b.toNat / 16) :: hexDigit (b.toNat % 16) :: toHex bytes) = b :: bytes
      rw [fromHex, hdigit _ (by omega), hdigit _ (by omega)]
      have hb : 16 * (b.toNat / 16) + b.toNat % 16 = b.toNat := Nat.div_add_mod b.toNat 16
      simp only [hb, ih, UInt8.ofNat_toNat]

structure ErrnoException where
  code : String
  message : String
  deriving DecidableEq, Repr

/-- The calls of `fs/promises` on one path; `writeFile` makes the directories above. -/
structure FileSystem (σ : Type) where
  writeFile : Path → Buffer → σ → Except ErrnoException Unit × σ
  unlink : Path → σ → Except ErrnoException Unit × σ
  access : Path → σ → Except ErrnoException Unit
  readFile : Path → σ → Except ErrnoException Buffer
  /-- `stat`, and then whether it is a file. -/
  isFile : Path → σ → Except ErrnoException Bool

abbrev Files := FilePath → Option Buffer

def enoent : ErrnoException := ⟨"ENOENT", "ENOENT: no such file or directory"⟩

def mapFs (cwd : Path) : FileSystem Files where
  writeFile p buffer files := (.ok (), Function.update files (fileOf cwd p) (some buffer))
  unlink p files :=
    if (files (fileOf cwd p)).isSome then (.ok (), Function.update files (fileOf cwd p) none)
    else (.error enoent, files)
  access p files := if (files (fileOf cwd p)).isSome then .ok () else .error enoent
  readFile p files :=
    match files (fileOf cwd p) with
    | some buffer => .ok buffer
    | none => .error enoent
  isFile p files := if (files (fileOf cwd p)).isSome then .ok true else .error enoent

structure LocalConfig where
  basePath : String
  publicBaseUrl : String
  secret : String
  deriving DecidableEq, Repr

structure LocalState (σ : Type) (ν : Numbers) where
  files : σ
  signed : List (String × ν.Number) := []

section Local

variable {σ : Type} (fs : FileSystem σ) (ν : Numbers) (hmac : String → String → List UInt8)
  (cwd : Path) (cfg : LocalConfig)

def signedMessage (key : String) (expiresAt : ν.Number) : String :=
  key ++ "|" ++ ν.text expiresAt

def LocalSigningService.compute (key : String) (expiresAt : ν.Number) : String :=
  String.ofList (toHex (hmac cfg.secret (signedMessage ν key expiresAt)))

def LocalSigningService.sign (key : String) (expiresAt : ν.Number) (s : LocalState σ ν) :
    String × LocalState σ ν :=
  (compute ν hmac cfg key expiresAt, { s with signed := s.signed ++ [(key, expiresAt)] })

def LocalSigningService.verify (key : String) (expiresAt : ν.Number) (token : String)
    (now : Instant) : Bool :=
  if ¬ ν.isFinite expiresAt ∨ ν.isPast expiresAt now then false
  else
    let expected := compute ν hmac cfg key expiresAt
    if expected.length ≠ token.length then false
    else fromHex expected.toList = fromHex token.toList

/-! ## `LocalStorageProvider` -/

def LocalStorageProvider.fullPath (key : String) : Path :=
  join [cfg.basePath.toList, key.toList]

def LocalStorageProvider.save (input : UploadInput) (target : SaveTarget) (s : LocalState σ ν) :
    Except StorageError StoredFile × LocalState σ ν :=
  match sanitizeKey target.key with
  | .error e => (.error e, s)
  | .ok key =>
      match fs.writeFile (fullPath cfg key) input.buffer s.files with
      | (.error e, files) =>
          (.error (.storageProvider ("Failed to save file: " ++ e.message)), { s with files })
      | (.ok _, files) =>
          (.ok ⟨key, target.visibility, input.size, input.mimeType⟩, { s with files })

def LocalStorageProvider.delete (key : String) (s : LocalState σ ν) :
    Except StorageError Unit × LocalState σ ν :=
  match sanitizeKey key with
  | .error e => (.error e, s)
  | .ok key =>
      match fs.unlink (fullPath cfg key) s.files with
      | (.error e, files) =>
          if e.code = "ENOENT" then (.ok (), { s with files })
          else
            (.error (.storageProvider ("Failed to delete file: " ++ e.message)), { s with files })
      | (.ok _, files) => (.ok (), { s with files })

def LocalStorageProvider.existsKey (key : String) (s : LocalState σ ν) :
    Except StorageError Bool := do
  let normalized ← sanitizeKey key
  match fs.access (fullPath cfg normalized) s.files with
  | .ok _ => return true
  | .error _ => return false

def LocalStorageProvider.read (key : String) (s : LocalState σ ν) :
    Except StorageError Buffer := do
  let normalized ← sanitizeKey key
  match fs.readFile (fullPath cfg normalized) s.files with
  | .ok buffer => return buffer
  | .error e =>
      if e.code = "ENOENT" then throw (.fileNotFound key)
      throw (.storageProvider ("Failed to read file: " ++ e.message))

def joinUrl (base : String) (parts : List String) : String :=
  let cleanedBase := trimTrailing base.toList
  let cleanedSegments :=
    (parts.map fun s => trimTrailing (trimLeading s.toList)).filter (· ≠ [])
  if cleanedBase ≠ [] then String.ofList (ofSegments (cleanedBase :: cleanedSegments))
  else String.ofList ('/' :: ofSegments cleanedSegments)

def localStorageRoute : String := "storage"

def LocalStorageProvider.publicUrl (key : String) : Except StorageError String := do
  if (segments key.toList).head? ≠ some Visibility.PUBLIC.value.toList then
    throw (.storageProvider "publicUrl called for a non-public key")
  let normalized ← sanitizeKey key
  return joinUrl cfg.publicBaseUrl [localStorageRoute, normalized]

def LocalStorageProvider.signedUrl (key : String) (ttlSeconds : ν.Number) (now : Instant)
    (s : LocalState σ ν) : Except StorageError String × LocalState σ ν :=
  match sanitizeKey key with
  | .error e => (.error e, s)
  | .ok normalized =>
      let expiresAt := ν.plus (now / 1000) ttlSeconds
      let r := LocalSigningService.sign ν hmac cfg normalized expiresAt s
      (.ok (joinUrl cfg.publicBaseUrl [localStorageRoute, normalized] ++ "?token=" ++ r.1 ++
        "&exp=" ++ ν.text expiresAt), r.2)

def localStorageProvider : IStorageProvider (LocalState σ ν) ν.Number where
  save := LocalStorageProvider.save fs ν cfg
  delete := LocalStorageProvider.delete fs ν cfg
  existsKey := LocalStorageProvider.existsKey fs ν cfg
  read := LocalStorageProvider.read fs ν cfg
  publicUrl := LocalStorageProvider.publicUrl cfg
  signedUrl := LocalStorageProvider.signedUrl ν hmac cfg

inductive PathParam where
  | undefined
  | one (segment : String)
  | many (parts : List String)
  deriving DecidableEq, Repr

def joinSegments : PathParam → String
  | .undefined => ""
  | .one segment => segment
  | .many parts => String.ofList (ofSegments (parts.map String.toList))

/-- The query's `token` and `exp` as strings. -/
structure Query where
  token : Option String := none
  exp : Option String := none
  deriving DecidableEq, Repr

def LocalStreamGuard.canActivate (path : PathParam) (query : Query) (now : Instant) : Bool :=
  let rawKey := joinSegments path
  if rawKey = "" then false
  else
    let key := Visibility.PRIVATE.value ++ "/" ++ rawKey
    let token := query.token.getD ""
    let exp := ν.ofText (query.exp.getD "undefined")
    if token = "" ∨ ¬ ν.isFinite exp then false
    else LocalSigningService.verify ν hmac cfg key exp token now

def notFound : HttpException := ⟨.notFound, "Not Found", []⟩

/-- What `createReadStream` opens, and the headers before it. -/
structure Streamed where
  fullPath : Path
  contentType : Option String
  deriving DecidableEq, Repr

variable (toLowerCase : String → String)

def LocalStorageController.stream (visibility : Visibility) (path : PathParam) (files : σ) :
    Except HttpException Streamed :=
  let root := resolve cwd [cfg.basePath.toList, visibility.value.toList]
  let fullPath := resolve cwd [root, (joinSegments path).toList]
  if fullPath ≠ root ∧ ¬ (root ++ ['/']).isPrefixOf fullPath then .error notFound
  else
    match fs.isFile fullPath files with
    | .error _ => .error notFound
    | .ok false => .error notFound
    | .ok true => .ok ⟨fullPath, mimeFromExtension toLowerCase (String.ofList fullPath)⟩

def LocalStorageController.servePublic (path : PathParam) (files : σ) :
    Except HttpException Streamed :=
  stream fs cwd cfg toLowerCase .PUBLIC path files

def forbidden : HttpException := ⟨.forbidden, "Forbidden resource", []⟩

def LocalStorageController.servePrivate (path : PathParam) (query : Query) (now : Instant)
    (files : σ) : Except HttpException Streamed :=
  if LocalStreamGuard.canActivate ν hmac cfg path query now then
    stream fs cwd cfg toLowerCase .PRIVATE path files
  else .error forbidden

end Local

/-! ## The provider over a map -/

namespace LocalStorageProvider

variable {ν : Numbers} {cwd : Path} {cfg : LocalConfig}

/-- A normalised key names the segments it is made of, below `basePath`. -/
theorem fileOf_fullPath {key : String} (h : Normalized key) :
    fileOf cwd (fullPath cfg key) =
      fileOf cwd cfg.basePath.toList ++ segments key.toList := by
  have hne : key.toList ≠ [] := by
    intro hnil
    exact (h.1 [] (by rw [hnil]; decide)).1 rfl
  rw [fullPath, fileOf_join _ _ hne (isAbsolute_of_proper h.1),
    walk_of_proper h.1]
  simp

def keyFile (cwd : Path) (cfg : LocalConfig) (key : String) : FilePath :=
  fileOf cwd (fullPath cfg key)

theorem save_mapFs (input : UploadInput) (target : SaveTarget) (s : LocalState Files ν) :
    save (mapFs cwd) ν cfg input target s =
      match sanitizeKey target.key with
      | .error e => (.error e, s)
      | .ok key =>
          (.ok ⟨key, target.visibility, input.size, input.mimeType⟩, { s with
            files := Function.update s.files (keyFile cwd cfg key) (some input.buffer) }) := by
  unfold save
  cases sanitizeKey target.key <;> rfl

theorem delete_mapFs (key : String) (s : LocalState Files ν) :
    delete (mapFs cwd) ν cfg key s =
      match sanitizeKey key with
      | .error e => (.error e, s)
      | .ok key =>
          (.ok (), { s with files := Function.update s.files (keyFile cwd cfg key) none }) := by
  unfold delete
  cases sanitizeKey key with
  | error e => rfl
  | ok key =>
      simp only [mapFs, keyFile]
      cases hfile : s.files (fileOf cwd (fullPath cfg key)) with
      | some buffer => rfl
      | none =>
          have hsame : Function.update s.files (fileOf cwd (fullPath cfg key)) none = s.files := by
            rw [← hfile, Function.update_eq_self]
          rw [hsame]
          rfl

theorem existsKey_mapFs (key : String) (s : LocalState Files ν) :
    existsKey (mapFs cwd) ν cfg key s =
      (sanitizeKey key).map fun key => (s.files (keyFile cwd cfg key)).isSome := by
  unfold existsKey
  cases sanitizeKey key with
  | error e => rfl
  | ok key =>
      simp only [mapFs, keyFile, ok_bind, Except.map]
      cases s.files (fileOf cwd (fullPath cfg key)) <;> rfl

theorem read_mapFs (key : String) (s : LocalState Files ν) :
    read (mapFs cwd) ν cfg key s =
      (sanitizeKey key).bind fun normalized =>
        foundOr key (s.files (keyFile cwd cfg normalized)) := by
  unfold read
  cases sanitizeKey key with
  | error e => rfl
  | ok key =>
      simp only [mapFs, keyFile, ok_bind, Except.bind]
      cases s.files (fileOf cwd (fullPath cfg key)) <;> rfl

end LocalStorageProvider

end NestStarter.Storage
