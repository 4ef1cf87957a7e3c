import NestStarter.Accounts.Cache
import NestStarter.Accounts.Save
import NestStarter.Core.Procedure
import NestStarter.Storage.Upload

/-! # Profile photos

`uploadPhoto` of users and of admins over the accounts, the cache and the object storage, when
any of its steps may fail. The old object is deleted before the row is saved, so the photo
survives the call exactly when a deletion that takes effect is followed by a save that does.
-/

namespace NestStarter.Accounts.Photos

open NestStarter.Core NestStarter.Storage Procedure

/-- An exception of the service, an error of the storage, or what the database or the cache
throws. -/
inductive Thrown where
  | http (e : HttpException)
  | storage (e : StorageError)
  | other (message : String)
  deriving DecidableEq, Repr

/-- The accounts, the cache and the objects, and how many saves of a row have taken effect. -/
structure State (σ : Type) where
  accounts : AccountTables := {}
  redis : Redis := .empty
  rowSaves : Nat := 0
  objects : σ

structure MulterFile where
  buffer : Buffer
  originalname : String
  mimetype : String
  size : Int
  deriving DecidableEq, Repr

def MulterAdapter.toUploadInput (file : MulterFile) : UploadInput :=
  ⟨file.buffer, file.originalname, file.mimetype, file.size⟩

/-- What the two services do in different ways. -/
structure PhotoOwner (Row : Type) where
  role : Role
  notFound : HttpException
  folder : String
  findById : AccountTables → Nat → Option Row
  id : Row → Nat
  photoKey : Row → Option String
  /-- The entity it returns, and the tables. -/
  mergeAndSave : Row → String → Instant → AccountTables → Row × AccountTables
  photoKey_saved : ∀ {tables : AccountTables} {i : Nat} {current : Row} (key : String)
    (now : Instant), findById tables i = some current →
    ∃ row, findById (mergeAndSave current key now tables).2 i = some row ∧
      photoKey row = some key

structure Faults where
  load : Option (Fault Thrown) := none
  upload : Option (Fault Thrown) := none
  deleteCurrent : Option (Fault Thrown) := none
  save : Option (Fault Thrown) := none
  invalidate : Option (Fault Thrown) := none
  deriving DecidableEq, Repr

section Service

variable {ν Row : Type} (store : ObjectStore ν) (env : UploadEnv) (driver : CacheDriver)
  (owner : PhotoOwner Row) (faults : Faults)

abbrev PhotoM (α : Type) := Procedure Thrown (State store.State) α

def storage {α : Type} (f : store.State → Except StorageError α × store.State) :
    PhotoM store α :=
  operation fun s => ((f s.objects).1.mapError .storage, { s with objects := (f s.objects).2 })

def findByIdOrFail (id : Nat) : PhotoM store Row :=
  operation fun s =>
    match owner.findById s.accounts id with
    | some row => (.ok row, s)
    | none => (.error (.http owner.notFound), s)

def uploadOptions : UploadOptions := ⟨.PUBLIC, owner.folder⟩

def upload (now : Instant) (random : Nat) (file : MulterFile) : PhotoM store StoredFile :=
  storage store (StorageService.upload env store.provider now random
    (MulterAdapter.toUploadInput file) (uploadOptions owner))

/-- `if (current.photoKey)`: an empty key is none. -/
def deleteCurrent (photoKey : Option String) : PhotoM store Unit :=
  match photoKey with
  | none => pure ()
  | some key =>
      if key = "" then pure ()
      else swallow (under faults.deleteCurrent (storage store (store.provider.delete key)))

def mergeAndSave (now : Instant) (current : Row) (key : String) : PhotoM store Row :=
  operation fun s =>
    (.ok (owner.mergeAndSave current key now s.accounts).1, { s with
      accounts := (owner.mergeAndSave current key now s.accounts).2, rowSaves := s.rowSaves + 1 })

def invalidateAuthCache (id : Nat) : PhotoM store Unit :=
  operation fun s =>
    (.ok (), { s with redis := driver.delete (authUser owner.role.value id) s.redis })

def uploadPhoto (now : Instant) (random : Nat) (id : Nat) (file : MulterFile) :
    PhotoM store Row := do
  let current ← under faults.load (findByIdOrFail store owner id)
  let stored ← under faults.upload (upload store env owner now random file)
  deleteCurrent store faults (owner.photoKey current)
  let saved ← under faults.save (mergeAndSave store owner now current stored.key)
  under faults.invalidate (invalidateAuthCache store driver owner (owner.id saved))
  return saved

end Service

def userNotFound : HttpException := ⟨.notFound, "user.errors.not_found", []⟩

def invalidCredentials : HttpException := ⟨.unauthorized, "admin.errors.invalid_credentials", []⟩

/-- `save` of an admin that was loaded without the password, as `saveUser` is of a user. -/
def saveAdmin (row admin : AdminEntity) (now : Instant) : AdminEntity :=
  if admin = row then row else { admin with updatedAt := now }

theorem id_saveAdmin (row admin : AdminEntity) (now : Instant) :
    (saveAdmin row admin now).id = admin.id := by
  unfold saveAdmin
  split
  · subst_vars
    rfl
  · rfl

def saveAdmins (t : AdminTable) (admin : AdminEntity) (now : Instant) : AdminTable where
  rows := t.rows.map fun row => if row.id = admin.id then saveAdmin row admin now else row
  nodup := by
    have hid : ∀ row : AdminEntity,
        (if row.id = admin.id then saveAdmin row admin now else row).id = row.id := by
      intro row
      split
      · rw [id_saveAdmin]
        exact ‹row.id = admin.id›.symm
      · rfl
    rw [List.map_map]
    exact (List.map_congr_left fun row _ => hid row) ▸ t.nodup

/-- A save of the row that was loaded is found again. -/
theorem find_map_save {Row : Type} (id : Row → Nat) (save : Row → Row) {rows : List Row} {i : Nat}
    {current : Row} (hfind : rows.find? (fun row => id row = i) = some current)
    (hid : ∀ row, id row = i → id (save row) = i) :
    (rows.map fun row => if id row = i then save row else row).find? (fun row => id row = i) =
      some (save current) := by
  induction rows with
  | nil => cases hfind
  | cons row rows ih =>
      by_cases h : id row = i
      · have hcurrent : row = current := by simpa [h] using hfind
        subst hcurrent
        simp [h, hid row h]
      · have hrest : rows.find? (fun row => id row = i) = some current := by
          simpa [h] using hfind
        simpa [h] using ih hrest

def users : PhotoOwner UserEntity where
  role := .user
  notFound := userNotFound
  folder := "avatars/users"
  findById tables i := tables.users.findById i
  id user := user.id
  photoKey user := user.photoKey
  mergeAndSave current key now tables :=
    let user := current.merge { photoKey := some (some key) }
    (saveUser current user now, { tables with users := tables.users.save user now })
  photoKey_saved := by
    intro tables i current key now hfind
    have hid : current.id = i := by simpa using List.find?_some hfind
    have hsaved := find_map_save (fun user : UserEntity => user.id)
      (fun row => saveUser row (current.merge { photoKey := some (some key) }) now) hfind
      fun row _ => (id_saveUser ..).trans hid
    refine ⟨saveUser current (current.merge { photoKey := some (some key) }) now, ?_, ?_⟩
    · simpa [UserTable.findById, UserTable.save, UserEntity.merge, hid] using hsaved
    · unfold saveUser
      split
      · exact (congrArg UserEntity.photoKey ‹_›).symm
      · rfl

def admins : PhotoOwner AdminEntity where
  role := .admin
  notFound := invalidCredentials
  folder := "avatars/admins"
  findById tables i := tables.admins.findById i
  id admin := admin.id
  photoKey admin := admin.photoKey
  mergeAndSave current key now tables :=
    let admin := { current with photoKey := some key }
    (saveAdmin current admin now, { tables with admins := saveAdmins tables.admins admin now })
  photoKey_saved := by
    intro tables i current key now hfind
    have hid : current.id = i := by simpa using List.find?_some hfind
    have hsaved := find_map_save (fun admin : AdminEntity => admin.id)
      (fun row => saveAdmin row { current with photoKey := some key } now) hfind
      fun row _ => (id_saveAdmin ..).trans hid
    refine ⟨_, by simpa [AdminTable.findById, saveAdmins, hid] using hsaved, ?_⟩
    unfold saveAdmin
    split
    · exact (congrArg AdminEntity.photoKey ‹_›).symm
    · rfl

section Services

variable {ν : Type} (store : ObjectStore ν) (env : UploadEnv) (driver : CacheDriver)
  (faults : Faults)

def UserService.uploadPhoto (now : Instant) (random : Nat) (user : UserEntity)
    (file : MulterFile) : PhotoM store UserEntity :=
  Photos.uploadPhoto store env driver users faults now random user.id file

def AdminService.uploadPhoto (now : Instant) (random : Nat) (admin : AdminEntity)
    (file : MulterFile) : PhotoM store AdminEntity :=
  Photos.uploadPhoto store env driver admins faults now random admin.id file

end Services

section Kept

variable {ν Row : Type} (store : ObjectStore ν) (env : UploadEnv) (driver : CacheDriver)
  (owner : PhotoOwner Row) (faults : Faults) (now : Instant) (random id : Nat) (file : MulterFile)

/-- The stored photo key is null or names an object that exists. -/
def PhotoStored (s : State store.State) : Prop :=
  ∀ row key, owner.findById s.accounts id = some row → owner.photoKey row = some key →
    store.provider.existsKey key s.objects = .ok true

/-- The stored photo key is good after the call; one that threw before the row was saved has left
the photo as it was. -/
structure PhotoKept (s : State store.State) (out : Except Thrown Row × State store.State) :
    Prop where
  stored : PhotoStored store owner id out.2
  readable : ∀ e, out.1 = .error e → out.2.rowSaves = s.rowSaves →
    ∀ row key buffer, owner.findById s.accounts id = some row → owner.photoKey row = some key →
      store.provider.read key s.objects = .ok buffer →
      store.provider.read key out.2.objects = .ok buffer

/-- The call gets to the storage with an accepted file and with a photo to replace: `place` holds
`buffer`, and the key made up for `newBuffer` names `newPlace`. -/
structure Replaces (s : State store.State) (place newPlace : store.Place)
    (buffer newBuffer : Buffer) : Prop where
  load : faults.load = none
  current : ∃ row key, owner.findById s.accounts id = some row ∧ owner.photoKey row = some key ∧
    store.place key = some place
  old : store.contents s.objects place = some buffer
  accepted : ∃ input target, StorageService.prepare env now random
      (MulterAdapter.toUploadInput file) (uploadOptions owner) = .ok (input, target) ∧
    input.buffer = newBuffer ∧ store.place target.key = some newPlace

/-- A deletion that takes effect is followed by a save that does, for a key of another object;
other bytes are not put in the place of the photo by a call that does not go on to save. -/
structure Survives (place newPlace : store.Place) (buffer newBuffer : Buffer) : Prop where
  deleted : faults.upload = none → TakesEffect faults.deleteCurrent →
    TakesEffect faults.save ∧ newPlace ≠ place
  overwritten : newPlace = place → newBuffer ≠ buffer → TakesEffect faults.upload →
    faults.upload = none ∧ TakesEffect faults.save

variable {store env driver owner faults now random id file}
variable {s : State store.State} {out : Except Thrown Row × State store.State} {current : Row}
  {newPlace : store.Place}

/-! ## The observations -/

theorem PhotoKept.of_unchanged (hphoto : PhotoStored store owner id s) (h : out.2 = s) :
    PhotoKept store owner id s out := by
  obtain ⟨result, s'⟩ := out
  obtain rfl : s' = s := h
  exact ⟨hphoto, fun _ _ _ _ _ _ _ _ hread => hread⟩

/-- Without a save, the current photo has to be what it was. -/
theorem photoKept_iff_of_unsaved (hphoto : PhotoStored store owner id s)
    (hfind : owner.findById s.accounts id = some current) {e : Thrown} (herror : out.1 = .error e)
    (haccounts : out.2.accounts = s.accounts) (hsaves : out.2.rowSaves = s.rowSaves) :
    PhotoKept store owner id s out ↔
      ∀ key place buffer, owner.photoKey current = some key → store.place key = some place →
        store.contents s.objects place = some buffer →
        store.contents out.2.objects place = some buffer := by
  constructor
  · intro h key place buffer hkey hplace hold
    have hread := h.readable e herror hsaves current key buffer hfind hkey
      ((store.read_iff ..).2 ⟨place, hplace, hold⟩)
    obtain ⟨p, hp, hnew⟩ := (store.read_iff ..).1 hread
    rw [hplace] at hp
    cases hp
    exact hnew
  · intro h
    refine ⟨fun row key hrow hkey => ?_, fun _ _ _ row key buffer hrow hkey hread => ?_⟩
    · rw [haccounts] at hrow
      obtain ⟨place, buffer, hplace, hold⟩ := (store.existsKey_iff ..).1 (hphoto row key hrow hkey)
      rw [hfind] at hrow
      cases hrow
      exact (store.existsKey_iff ..).2 ⟨place, buffer, hplace, h key place buffer hkey hplace hold⟩
    · obtain ⟨place, hplace, hold⟩ := (store.read_iff ..).1 hread
      rw [hfind] at hrow
      cases hrow
      exact (store.read_iff ..).2 ⟨place, hplace, h key place buffer hkey hplace hold⟩

/-- With a save, there has to be an object at the place of the new key. -/
theorem photoKept_iff_of_saved {row : Row} {key : String}
    (hfind : owner.findById out.2.accounts id = some row) (hkey : owner.photoKey row = some key)
    (hplace : store.place key = some newPlace) (hsaves : out.2.rowSaves = s.rowSaves + 1) :
    PhotoKept store owner id s out ↔ ∃ b, store.contents out.2.objects newPlace = some b := by
  constructor
  · intro h
    obtain ⟨p, b, hp, hb⟩ := (store.existsKey_iff ..).1 (h.stored row key hfind hkey)
    rw [hplace] at hp
    cases hp
    exact ⟨b, hb⟩
  · rintro ⟨b, hb⟩
    refine ⟨fun row' key' hrow' hkey' => ?_, fun _ _ hsame => by omega⟩
    rw [hfind] at hrow'
    cases hrow'
    rw [hkey] at hkey'
    cases hkey'
    exact (store.existsKey_iff ..).2 ⟨newPlace, b, hplace, hb⟩

/-- An upload throws and changes nothing, or puts the file at the place of the key it made up. -/
theorem exec_upload_of_error {e : StorageError}
    (h : StorageService.prepare env now random (MulterAdapter.toUploadInput file)
      (uploadOptions owner) = .error e) :
    exec (upload store env owner now random file) s = (.error (.storage e), s) := by
  simp [upload, storage, StorageService.upload, h, Except.mapError]

theorem exec_upload_of_none {input : UploadInput} {target : SaveTarget}
    (h : StorageService.prepare env now random (MulterAdapter.toUploadInput file)
      (uploadOptions owner) = .ok (input, target)) (hplace : store.place target.key = none) :
    ∃ e, exec (upload store env owner now random file) s = (.error e, s) := by
  obtain ⟨e, he⟩ := store.save_of_none input target s.objects hplace
  exact ⟨.storage e, by simp [upload, storage, StorageService.upload, h, he, Except.mapError]⟩

theorem exec_upload_of_some {input : UploadInput} {target : SaveTarget}
    (h : StorageService.prepare env now random (MulterAdapter.toUploadInput file)
      (uploadOptions owner) = .ok (input, target))
    (hplace : store.place target.key = some newPlace) :
    ∃ stored objects, exec (upload store env owner now random file) s =
        (.ok stored, { s with objects }) ∧ store.place stored.key = some newPlace ∧
      store.contents objects =
        Function.update (store.contents s.objects) newPlace (some input.buffer) := by
  obtain ⟨stored, objects, hsave, hkey, hcontents⟩ := store.save_of_some input target s.objects
    newPlace (StorageService.visibilityOf_prepare h) hplace
  exact ⟨stored, objects,
    by simp [upload, storage, StorageService.upload, h, hsave, Except.mapError], hkey, hcontents⟩

theorem exec_deleteCurrent {key : String} {place : store.Place}
    (hplace : store.place key = some place) :
    ∃ objects, exec (deleteCurrent store faults (some key)) s = (.ok (), { s with objects }) ∧
      store.contents objects =
        if TakesEffect faults.deleteCurrent then
          Function.update (store.contents s.objects) place none
        else store.contents s.objects := by
  have hne : key ≠ "" := by
    rintro rfl
    rw [store.place_empty] at hplace
    cases hplace
  obtain ⟨objects, hdelete, hcontents⟩ := store.delete_of_some key s.objects place hplace
  have hexec : exec (storage store (store.provider.delete key)) s =
      (.ok (), { s with objects }) := by simp [storage, hdelete, Except.mapError]
  have hswallow : exec (deleteCurrent store faults (some key)) s =
      (.ok (), if TakesEffect faults.deleteCurrent then { s with objects } else s) := by
    simp only [deleteCurrent, if_neg hne, exec_swallow, snd_exec_under, hexec]
  by_cases heffect : TakesEffect faults.deleteCurrent
  · exact ⟨objects, by rw [hswallow, if_pos heffect], by rw [if_pos heffect]; exact hcontents⟩
  · exact ⟨s.objects, by rw [hswallow, if_neg heffect], by rw [if_neg heffect]⟩

def saveAndInvalidate (store : ObjectStore ν) (driver : CacheDriver) (owner : PhotoOwner Row)
    (faults : Faults) (now : Instant) (current : Row) (key : String) : PhotoM store Row := do
  let saved ← under faults.save (mergeAndSave store owner now current key)
  under faults.invalidate (invalidateAuthCache store driver owner (owner.id saved))
  return saved

theorem saveAndInvalidate_of_effect (heffect : TakesEffect faults.save) (key : String) :
    ∃ result s', exec (saveAndInvalidate store driver owner faults now current key) s =
        (result, s') ∧ s'.accounts = (owner.mergeAndSave current key now s.accounts).2 ∧
      s'.rowSaves = s.rowSaves + 1 ∧ s'.objects = s.objects := by
  generalize hexec : exec (saveAndInvalidate store driver owner faults now current key) s = out
  refine ⟨out.1, out.2, rfl, ?_⟩
  rw [← hexec]
  unfold saveAndInvalidate
  cases hsave : faults.save with
  | some f =>
      rw [hsave, takesEffect_some] at heffect
      simp [mergeAndSave, heffect]
  | none =>
      cases hinvalidate : faults.invalidate with
      | none => simp [mergeAndSave, invalidateAuthCache]
      | some f => cases heff : f.effective <;> simp [mergeAndSave, invalidateAuthCache, heff]

theorem saveAndInvalidate_of_not (hnot : ¬ TakesEffect faults.save) (key : String) :
    ∃ e, exec (saveAndInvalidate store driver owner faults now current key) s = (.error e, s) := by
  unfold saveAndInvalidate
  cases hsave : faults.save with
  | none => exact absurd (hsave ▸ takesEffect_none) hnot
  | some f =>
      have heffective : f.effective = false := by simpa [hsave] using hnot
      exact ⟨f.thrown, by simp [heffective]⟩

/-! ## Exactly when the photo survives -/

theorem replaces_iff {input : UploadInput} {target : SaveTarget} (hload : faults.load = none)
    (hfind : owner.findById s.accounts id = some current)
    (hprepare : StorageService.prepare env now random (MulterAdapter.toUploadInput file)
      (uploadOptions owner) = .ok (input, target))
    (hplace : store.place target.key = some newPlace) {place p : store.Place}
    {buffer newBuffer : Buffer} :
    Replaces store env owner faults now random id file s place p buffer newBuffer ↔
      p = newPlace ∧ newBuffer = input.buffer ∧ ∃ key, owner.photoKey current = some key ∧
        store.place key = some place ∧ store.contents s.objects place = some buffer := by
  constructor
  · rintro ⟨_, ⟨row, key, hrow, hkey, hat⟩, hold, input', target', haccepted, hbytes, hp⟩
    rw [hfind] at hrow
    rw [hprepare] at haccepted
    cases hrow
    cases haccepted
    rw [hplace] at hp
    cases hp
    exact ⟨rfl, hbytes.symm, key, hkey, hat, hold⟩
  · rintro ⟨rfl, rfl, key, hkey, hat, hold⟩
    exact ⟨hload, ⟨current, key, hfind, hkey, hat⟩, hold, input, target, hprepare, rfl, hplace⟩

/-- What an upload leaves of the object at a place. -/
theorem contents_eq_some_iff {contents : store.Place → Option Buffer} {place : store.Place}
    {buffer newBuffer : Buffer} (hold : contents place = some buffer) :
    Function.update contents newPlace (some newBuffer) place = some buffer ↔
      (newPlace = place → newBuffer = buffer) := by
  by_cases hsame : newPlace = place
  · subst hsame
    simp
  · simp [Function.update_of_ne (Ne.symm hsame), hsame, hold]

/-- A call changes nothing and replaces nothing, or gets an accepted file to the storage. -/
theorem uploadPhoto_cases (store : ObjectStore ν) (env : UploadEnv) (driver : CacheDriver)
    (owner : PhotoOwner Row) (faults : Faults) (now : Instant) (random id : Nat)
    (file : MulterFile) (s : State store.State) :
    ((exec (uploadPhoto store env driver owner faults now random id file) s).2 = s ∧
      ∀ place newPlace buffer newBuffer,
        ¬ Replaces store env owner faults now random id file s place newPlace buffer newBuffer) ∨
    ∃ current, ∃ stored : StoredFile, ∃ objects newPlace newBuffer,
      owner.findById s.accounts id = some current ∧ store.place stored.key = some newPlace ∧
      store.contents objects =
        Function.update (store.contents s.objects) newPlace (some newBuffer) ∧
      ((faults.upload = none ∧
          exec (uploadPhoto store env driver owner faults now random id file) s =
            exec (deleteCurrent store faults (owner.photoKey current) >>= fun _ =>
              saveAndInvalidate store driver owner faults now current stored.key)
              { s with objects }) ∨
        ∃ f, faults.upload = some f ∧
          exec (uploadPhoto store env driver owner faults now random id file) s =
            (.error f.thrown, if f.effective then { s with objects } else s)) ∧
      ∀ place p buffer b,
        Replaces store env owner faults now random id file s place p buffer b ↔
          p = newPlace ∧ b = newBuffer ∧ ∃ key, owner.photoKey current = some key ∧
            store.place key = some place ∧ store.contents s.objects place = some buffer := by
  have hfound : ∀ row, owner.findById s.accounts id = some row →
      exec (findByIdOrFail store owner id) s = (.ok row, s) := fun row hrow => by
    simp [findByIdOrFail, hrow]
  cases hload : faults.load with
  | some f =>
      have hsame : (exec (findByIdOrFail store owner id) s).2 = s := by
        unfold findByIdOrFail
        rw [exec_operation]
        split <;> rfl
      refine Or.inl ⟨by simp [uploadPhoto, hload, hsame], fun _ _ _ _ h => ?_⟩
      simpa [hload] using h.load
  | none =>
      cases hfind : owner.findById s.accounts id with
      | none =>
          refine Or.inl ⟨by simp [uploadPhoto, hload, findByIdOrFail, hfind], fun _ _ _ _ h => ?_⟩
          obtain ⟨row, _, hrow, _⟩ := h.current
          rw [hfind] at hrow
          cases hrow
      | some current =>
          have hfound := hfound current hfind
          cases hprepare : StorageService.prepare env now random
              (MulterAdapter.toUploadInput file) (uploadOptions owner) with
          | error e =>
              refine Or.inl ⟨?_, fun _ _ _ _ h => ?_⟩
              · cases hupload : faults.upload <;>
                  simp [uploadPhoto, hload, hfound, hupload, exec_upload_of_error hprepare]
              · obtain ⟨_, _, haccepted, _⟩ := h.accepted
                rw [hprepare] at haccepted
                cases haccepted
          | ok prepared =>
              obtain ⟨input, target⟩ := prepared
              cases hplace : store.place target.key with
              | none =>
                  obtain ⟨e, he⟩ := exec_upload_of_none (s := s) hprepare hplace
                  refine Or.inl ⟨?_, fun _ _ _ _ h => ?_⟩
                  · cases hupload : faults.upload <;>
                      simp [uploadPhoto, hload, hfound, hupload, he]
                  · obtain ⟨_, _, haccepted, _, hp⟩ := h.accepted
                    rw [hprepare] at haccepted
                    cases haccepted
                    rw [hplace] at hp
                    cases hp
              | some newPlace =>
                  obtain ⟨stored, objects, hexec, hstored, hcontents⟩ :=
                    exec_upload_of_some (s := s) hprepare hplace
                  refine Or.inr ⟨current, stored, objects, newPlace, input.buffer, rfl, hstored,
                    hcontents, ?_, fun _ _ _ _ => replaces_iff hload hfind hprepare hplace⟩
                  cases hupload : faults.upload with
                  | none =>
                      refine Or.inl ⟨rfl, ?_⟩
                      simp only [uploadPhoto, hload, hupload, under_none, exec_bind, hfound, hexec,
                        saveAndInvalidate]
                  | some f =>
                      refine Or.inr ⟨f, rfl, ?_⟩
                      simp [uploadPhoto, hload, hupload, hfound, hexec]

theorem forall_photo_iff {key : String} {place : store.Place} {buffer : Buffer}
    {P : store.Place → Buffer → Prop} (hkey : owner.photoKey current = some key)
    (hplace : store.place key = some place) (hold : store.contents s.objects place = some buffer) :
    (∀ key place buffer, owner.photoKey current = some key → store.place key = some place →
      store.contents s.objects place = some buffer → P place buffer) ↔ P place buffer := by
  constructor
  · exact fun h => h key place buffer hkey hplace hold
  · intro h key' place' buffer' hkey' hplace' hold'
    rw [hkey] at hkey'
    cases hkey'
    rw [hplace] at hplace'
    cases hplace'
    rw [hold] at hold'
    cases hold'
    exact h

/-- The rest of the call, when the save takes effect. -/
theorem photoKept_of_saved (hfind : owner.findById s.accounts id = some current)
    {stored : StoredFile} (hstored : store.place stored.key = some newPlace)
    (heffect : TakesEffect faults.save) (objects : store.State) :
    PhotoKept store owner id s (exec (saveAndInvalidate store driver owner faults now current
        stored.key) { s with objects }) ↔
      ∃ b, store.contents objects newPlace = some b := by
  obtain ⟨row, hrow, hkey⟩ := owner.photoKey_saved stored.key now hfind
  obtain ⟨result, s', hexec, haccounts, hsaves, hobjects⟩ : ∃ result s',
      exec (saveAndInvalidate store driver owner faults now current stored.key) { s with objects } =
        (result, s') ∧ s'.accounts = (owner.mergeAndSave current stored.key now s.accounts).2 ∧
      s'.rowSaves = s.rowSaves + 1 ∧ s'.objects = objects :=
    saveAndInvalidate_of_effect heffect stored.key
  rw [hexec, photoKept_iff_of_saved (haccounts ▸ hrow) hkey hstored hsaves, hobjects]

theorem photoKept_of_unsaved (hphoto : PhotoStored store owner id s)
    (hfind : owner.findById s.accounts id = some current) (hnot : ¬ TakesEffect faults.save)
    (newKey : String) (objects : store.State) :
    PhotoKept store owner id s (exec (saveAndInvalidate store driver owner faults now current
        newKey) { s with objects }) ↔
      ∀ key place buffer, owner.photoKey current = some key → store.place key = some place →
        store.contents s.objects place = some buffer →
        store.contents objects place = some buffer := by
  obtain ⟨e, he⟩ : ∃ e, exec (saveAndInvalidate store driver owner faults now current newKey)
      { s with objects } = (.error e, { s with objects }) := saveAndInvalidate_of_not hnot newKey
  rw [he]
  exact photoKept_iff_of_unsaved hphoto hfind rfl rfl rfl

theorem photoKept_of_uploaded (hphoto : PhotoStored store owner id s)
    (hfind : owner.findById s.accounts id = some current) {newBuffer : Buffer}
    {objects : store.State} {stored : StoredFile} (hstored : store.place stored.key = some newPlace)
    (hcontents : store.contents objects =
      Function.update (store.contents s.objects) newPlace (some newBuffer))
    (hupload : faults.upload = none) :
    PhotoKept store owner id s
        (exec (deleteCurrent store faults (owner.photoKey current) >>= fun _ =>
          saveAndInvalidate store driver owner faults now current stored.key)
          { s with objects }) ↔
      ∀ key place buffer, owner.photoKey current = some key → store.place key = some place →
        store.contents s.objects place = some buffer →
        Survives store faults place newPlace buffer newBuffer := by
  rcases Option.eq_none_or_eq_some (owner.photoKey current) with hkey | ⟨key, hkey⟩
  · refine iff_of_true ?_ (by simp [hkey])
    rw [hkey]
    show PhotoKept store owner id s (exec (saveAndInvalidate store driver owner faults now current
      stored.key) { s with objects })
    by_cases heffect : TakesEffect faults.save
    · exact (photoKept_of_saved hfind hstored heffect objects).2 ⟨newBuffer, by simp [hcontents]⟩
    · exact (photoKept_of_unsaved hphoto hfind heffect stored.key objects).2 (by simp [hkey])
  · obtain ⟨place, buffer, hplace, hold⟩ := (store.existsKey_iff ..).1
      (hphoto current key hfind hkey)
    obtain ⟨objects', hexec, hdeleted⟩ : ∃ objects', exec (deleteCurrent store faults
        (owner.photoKey current)) { s with objects } = (.ok (), { s with objects := objects' }) ∧
        store.contents objects' = if TakesEffect faults.deleteCurrent then
          Function.update (store.contents objects) place none else store.contents objects := by
      rw [hkey]
      exact exec_deleteCurrent hplace
    rw [hcontents] at hdeleted
    simp only [exec_bind, hexec]
    rw [forall_photo_iff hkey hplace hold]
    by_cases heffect : TakesEffect faults.save
    · rw [photoKept_of_saved hfind hstored heffect, hdeleted]
      constructor
      · rintro ⟨b, hb⟩
        refine ⟨fun _ hdelete => ⟨heffect, ?_⟩, fun _ _ _ => ⟨hupload, heffect⟩⟩
        rintro rfl
        simp [hdelete] at hb
      · intro h
        by_cases hdelete : TakesEffect faults.deleteCurrent
        · exact ⟨newBuffer, by simp [hdelete, (h.deleted hupload hdelete).2]⟩
        · exact ⟨newBuffer, by simp [hdelete]⟩
    · rw [photoKept_of_unsaved hphoto hfind heffect, forall_photo_iff hkey hplace hold, hdeleted]
      by_cases hdelete : TakesEffect faults.deleteCurrent
      · exact iff_of_false (by simp [hdelete]) fun h => heffect (h.deleted hupload hdelete).1
      · rw [if_neg hdelete, contents_eq_some_iff hold]
        constructor
        · intro h
          exact ⟨fun _ hd => absurd hd hdelete, fun hsame hne _ => absurd (h hsame) hne⟩
        · intro h hsame
          by_contra hne
          exact heffect (h.overwritten hsame hne (hupload ▸ takesEffect_none)).2

theorem photoKept_of_failed (hphoto : PhotoStored store owner id s)
    (hfind : owner.findById s.accounts id = some current) {newBuffer : Buffer}
    {objects : store.State} (hcontents : store.contents objects =
      Function.update (store.contents s.objects) newPlace (some newBuffer))
    {f : Fault Thrown} (hupload : faults.upload = some f) :
    PhotoKept store owner id s (.error f.thrown, if f.effective then { s with objects } else s) ↔
      ∀ key place buffer, owner.photoKey current = some key → store.place key = some place →
        store.contents s.objects place = some buffer →
        Survives store faults place newPlace buffer newBuffer := by
  cases heffective : f.effective with
  | false =>
      refine iff_of_true (.of_unchanged hphoto rfl) fun _ _ _ _ _ _ =>
        ⟨fun h => ?_, fun _ _ h => ?_⟩
      · rw [hupload] at h
        cases h
      · rw [hupload, takesEffect_some, heffective] at h
        cases h
  | true =>
      rw [if_pos rfl, photoKept_iff_of_unsaved hphoto hfind rfl rfl rfl]
      refine forall₃_congr fun key place buffer => forall₃_congr fun _ _ hold => ?_
      show store.contents objects place = some buffer ↔ _
      rw [hcontents, contents_eq_some_iff hold]
      constructor
      · refine fun h => ⟨fun hnone => ?_, fun hsame hne _ => absurd (h hsame) hne⟩
        rw [hupload] at hnone
        cases hnone
      · intro h hsame
        by_contra hne
        have hnone := (h.overwritten hsame hne (by simp [hupload, heffective])).1
        rw [hupload] at hnone
        cases hnone

end Kept

/-- Whatever fails, the stored key is null or names an object after `uploadPhoto`, and a photo that
was not replaced is as it was, if and only if the photo survives what takes effect. -/
theorem photoKept_iff {ν Row : Type} (store : ObjectStore ν) (env : UploadEnv)
    (driver : CacheDriver) (owner : PhotoOwner Row) (faults : Faults) (now : Instant)
    (random id : Nat) (file : MulterFile) (s : State store.State)
    (hphoto : PhotoStored store owner id s) :
    PhotoKept store owner id s
        (exec (uploadPhoto store env driver owner faults now random id file) s) ↔
      ∀ place newPlace buffer newBuffer,
        Replaces store env owner faults now random id file s place newPlace buffer newBuffer →
          Survives store faults place newPlace buffer newBuffer := by
  rcases uploadPhoto_cases store env driver owner faults now random id file s with
    ⟨hsame, hnone⟩ |
    ⟨current, stored, objects, newPlace, newBuffer, hfind, hstored, hcontents, hexec, hreplaces⟩
  · exact iff_of_true (.of_unchanged hphoto hsame) fun _ _ _ _ h => absurd h (hnone _ _ _ _)
  · have hphotos : (∀ place p buffer b,
        Replaces store env owner faults now random id file s place p buffer b →
          Survives store faults place p buffer b) ↔
        ∀ key place buffer, owner.photoKey current = some key → store.place key = some place →
          store.contents s.objects place = some buffer →
          Survives store faults place newPlace buffer newBuffer := by
      simp only [hreplaces]
      constructor
      · exact fun h key place buffer hkey hplace hold =>
          h place newPlace buffer newBuffer ⟨rfl, rfl, key, hkey, hplace, hold⟩
      · rintro h place _ buffer _ ⟨rfl, rfl, key, hkey, hplace, hold⟩
        exact h key place buffer hkey hplace hold
    rw [hphotos]
    rcases hexec with ⟨hupload, hexec⟩ | ⟨f, hupload, hexec⟩
    · rw [hexec]
      exact photoKept_of_uploaded hphoto hfind hstored hcontents hupload
    · rw [hexec]
      exact photoKept_of_failed hphoto hfind hcontents hupload

def objectsSample : ObjectStore Nat :=
  supabaseObjects (fun bucket path => bucket ++ "/" ++ path)
    (fun _ _ _ _ => .error objectNotFound) ⟨"public-files", "private-files"⟩

def uploadEnvSample : UploadEnv where
  runtime := runtimeSample
  toISOString _ := "2024-01-01T00:00:00.000Z"
  process input _ := .ok input
  config := ⟨defaultValidationPolicy, ⟨false, 80, 50, "150KB", "jpeg"⟩⟩

def userWithPhoto : UserEntity where
  id := 1
  createdAt := 0
  updatedAt := 0
  phone := "+963900000001"
  photoKey := some "public/avatars/users/old.png"

def withPhoto : State objectsSample.State where
  accounts.users := ⟨[userWithPhoto], 2, List.pairwise_singleton _ _,
    List.forall_mem_singleton.2 (Nat.lt_succ_self 1)⟩
  accounts.admins := ⟨[], List.nodup_nil⟩
  objects := Function.update (fun _ => none) ("public-files", "avatars/users/old.png") (some [1])

theorem photoStored_withPhoto : PhotoStored objectsSample users 1 withPhoto := by
  intro row key hrow hkey
  have hfind : users.findById withPhoto.accounts 1 = some userWithPhoto := by decide
  rw [hfind] at hrow
  cases hrow
  cases hkey
  decide +kernel

def pngFile : MulterFile where
  buffer := [0x89, 0x50, 0x4E, 0x47, 0x0D, 0x0A, 0x1A, 0x0A]
  originalname := "me.png"
  mimetype := "image/png"
  size := 8

/-- The database rejects the row, as it does a key that is too long for its column. -/
def saveFails : Faults := { save := some ⟨.other "value too long for type", false⟩ }

theorem photoKept_iff_saveFails :
    PhotoStored objectsSample users 1 withPhoto ∧
    (PhotoKept objectsSample users 1 withPhoto
        (exec (uploadPhoto objectsSample uploadEnvSample .noop users saveFails 5 1234 1 pngFile)
          withPhoto) ↔
      ∀ place newPlace buffer newBuffer,
        Replaces objectsSample uploadEnvSample users saveFails 5 1234 1 pngFile withPhoto place
            newPlace buffer newBuffer →
          Survives objectsSample saveFails place newPlace buffer newBuffer) :=
  ⟨photoStored_withPhoto, photoKept_iff objectsSample uploadEnvSample .noop users saveFails 5 1234 1
    pngFile withPhoto photoStored_withPhoto⟩

/-- The old object is gone and the row still names it. -/
theorem photo_lost_saveFails :
    PhotoStored objectsSample users 1 withPhoto ∧
    ¬ PhotoKept objectsSample users 1 withPhoto
        (exec (UserService.uploadPhoto objectsSample uploadEnvSample .noop saveFails 5 1234
          userWithPhoto pngFile) withPhoto) := by
  refine ⟨photoStored_withPhoto, fun h => ?_⟩
  have hrow : users.findById (exec (UserService.uploadPhoto objectsSample uploadEnvSample .noop
      saveFails 5 1234 userWithPhoto pngFile) withPhoto).2.accounts 1 = some userWithPhoto := by
    decide +kernel
  have hexists := h.stored userWithPhoto "public/avatars/users/old.png" hrow rfl
  have hgone : objectsSample.provider.existsKey "public/avatars/users/old.png"
      (exec (UserService.uploadPhoto objectsSample uploadEnvSample .noop saveFails 5 1234
        userWithPhoto pngFile) withPhoto).2.objects = .ok false := by
    decide +kernel
  rw [hgone] at hexists
  cases hexists

end NestStarter.Accounts.Photos
