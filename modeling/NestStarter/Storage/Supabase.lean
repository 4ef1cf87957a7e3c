import Mathlib.Logic.Function.Basic
import NestStarter.Storage.Provider

/-! # The Supabase provider

`SupabaseStorageProvider` over the storage client of `@supabase/supabase-js`, which returns most
failures as `error` and throws the others.
-/

namespace NestStarter.Storage

open NestStarter.Core.PosixPath

inductive ClientError where
  | returned (message : String)
  | thrown (message : String)
  deriving DecidableEq, Repr

/-- `client.storage.from(bucket)`; `existsObject` is the `data` of `exists`. -/
structure SupabaseClient (σ ν : Type) where
  upload : (bucket path : String) → Buffer → (contentType : String) → σ →
    Except ClientError Unit × σ
  remove : (bucket : String) → List String → σ → Except ClientError Unit × σ
  existsObject : (bucket path : String) → σ → Except ClientError Bool
  download : (bucket path : String) → σ → Except ClientError Buffer
  getPublicUrl : (bucket path : String) → String
  createSignedUrl : (bucket path : String) → ν → σ → Except ClientError String

structure SupabaseConfig where
  publicBucket : String
  privateBucket : String
  deriving DecidableEq, Repr

/-- `if (error) throw …`; what the client threw goes through. -/
def ClientError.toStorageError (onReturned : String → StorageError) : ClientError → StorageError
  | .returned message => onReturned message
  | .thrown message => .client message

namespace SupabaseStorageProvider

variable {σ ν : Type} (client : SupabaseClient σ ν) (cfg : SupabaseConfig)

def bucketFor (visibility : Visibility) : String :=
  if visibility = .PRIVATE then cfg.privateBucket else cfg.publicBucket

def visibilityFromKey (key : String) : Except StorageError Visibility := do
  let normalized ← sanitizeKey key
  if (segments normalized.toList).head? = some Visibility.PRIVATE.value.toList then return .PRIVATE
  return .PUBLIC

def pathFor (key : String) : Except StorageError String := do
  let visibility ← visibilityFromKey key
  stripPrefix key visibility.value

def locate (key : String) : Except StorageError (String × String) := do
  let visibility ← visibilityFromKey key
  let path ← pathFor key
  return (bucketFor cfg visibility, path)

def save (input : UploadInput) (target : SaveTarget) (s : σ) :
    Except StorageError StoredFile × σ :=
  match pathFor target.key with
  | .error e => (.error e, s)
  | .ok path =>
      match client.upload (bucketFor cfg target.visibility) path input.buffer
          (target.contentType.getD input.mimeType) s with
      | (.error e, s') =>
          (.error (e.toStorageError fun message =>
            .storageProvider ("Failed to upload to Supabase: " ++ message)), s')
      | (.ok _, s') => (.ok ⟨target.key, target.visibility, input.size, input.mimeType⟩, s')

def delete (key : String) (s : σ) : Except StorageError Unit × σ :=
  match locate cfg key with
  | .error e => (.error e, s)
  | .ok (bucket, path) =>
      match client.remove bucket [path] s with
      | (.error e, s') =>
          (.error (e.toStorageError fun message =>
            .storageProvider ("Failed to delete from Supabase: " ++ message)), s')
      | (.ok _, s') => (.ok (), s')

def existsKey (key : String) (s : σ) : Except StorageError Bool := do
  let (bucket, path) ← locate cfg key
  match client.existsObject bucket path s with
  | .ok data => return data
  -- an `error` comes with no data
  | .error (.returned _) => return false
  | .error (.thrown message) => throw (.client message)

def read (key : String) (s : σ) : Except StorageError Buffer := do
  let (bucket, path) ← locate cfg key
  match client.download bucket path s with
  | .ok data => return data
  | .error e => throw (e.toStorageError fun _ => .fileNotFound key)

def publicUrl (key : String) : Except StorageError String := do
  let visibility ← visibilityFromKey key
  if visibility ≠ .PUBLIC then
    throw (.storageProvider "publicUrl called for a non-public key")
  let path ← pathFor key
  return client.getPublicUrl cfg.publicBucket path

def signedUrl (key : String) (ttlSeconds : ν) (_now : Instant) (s : σ) :
    Except StorageError String × σ :=
  match locate cfg key with
  | .error e => (.error e, s)
  | .ok (bucket, path) =>
      match client.createSignedUrl bucket path ttlSeconds s with
      | .error e =>
          (.error (e.toStorageError fun message =>
            .storageProvider ("Failed to sign URL: " ++ message)), s)
      | .ok url => (.ok url, s)

end SupabaseStorageProvider

def supabaseStorageProvider {σ ν : Type} (client : SupabaseClient σ ν) (cfg : SupabaseConfig) :
    IStorageProvider σ ν where
  save := SupabaseStorageProvider.save client cfg
  delete := SupabaseStorageProvider.delete client cfg
  existsKey := SupabaseStorageProvider.existsKey client cfg
  read := SupabaseStorageProvider.read client cfg
  publicUrl := SupabaseStorageProvider.publicUrl client cfg
  signedUrl := SupabaseStorageProvider.signedUrl client cfg

abbrev Buckets := String × String → Option Buffer

def objectNotFound : ClientError := .returned "Object not found"

/-- A client whose backend is a map, and whose URLs are given. -/
def mapClient {ν : Type} (getPublicUrl : String → String → String)
    (createSignedUrl : String → String → ν → Buckets → Except ClientError String) :
    SupabaseClient Buckets ν where
  upload bucket path buffer _ objects :=
    (.ok (), Function.update objects (bucket, path) (some buffer))
  remove bucket paths objects :=
    (.ok (), paths.foldl (fun o path => Function.update o (bucket, path) none) objects)
  existsObject bucket path objects := .ok (objects (bucket, path)).isSome
  download bucket path objects :=
    match objects (bucket, path) with
    | some buffer => .ok buffer
    | none => .error objectNotFound
  getPublicUrl := getPublicUrl
  createSignedUrl := createSignedUrl

/-! ## Where a normalised key lies -/

namespace SupabaseStorageProvider

def keyVisibility (key : String) : Visibility :=
  if (segments key.toList).head? = some Visibility.PRIVATE.value.toList then .PRIVATE else .PUBLIC

theorem keyVisibility_of_head {key : String} {v : Visibility}
    (h : (segments key.toList).head? = some v.value.toList) : keyVisibility key = v := by
  have hne : Visibility.PUBLIC.value.toList ≠ Visibility.PRIVATE.value.toList := by
    decide +kernel
  unfold keyVisibility
  cases v with
  | PUBLIC => simp [h, hne]
  | PRIVATE => simp [h]

/-- The path of a normalised key in its bucket, in segments. -/
def keyPath (key : String) : List Segment :=
  if (segments key.toList).head? = some (keyVisibility key).value.toList then
    (segments key.toList).tail
  else segments key.toList

def location (cfg : SupabaseConfig) (key : String) : String × String :=
  (bucketFor cfg (keyVisibility key), String.ofList (ofSegments (keyPath key)))

theorem visibilityFromKey_eq (input : String) :
    visibilityFromKey input = (sanitizeKey input).map keyVisibility := by
  unfold visibilityFromKey keyVisibility
  cases sanitizeKey input with
  | error e => rfl
  | ok key =>
      simp only [ok_bind, Except.map]
      split <;> rfl

/-- `stripPrefix` in terms of the segments of the key. -/
theorem stripPrefix_eq (input : String) (v : Visibility) :
    stripPrefix input v.value = (sanitizeKey input).map fun key =>
      if (segments key.toList).head? = some v.value.toList then
        String.ofList (ofSegments (segments key.toList).tail)
      else key := by
  have htrim : trimTrailing (trimLeading v.value.toList) = v.value.toList := by
    cases v <;> decide +kernel
  have hne : v.value.toList ≠ [] := by cases v <;> decide +kernel
  have hsegments : segments v.value.toList = [v.value.toList] := by cases v <;> decide +kernel
  unfold stripPrefix
  cases sanitizeKey input with
  | error e => rfl
  | ok key =>
      simp only [ok_bind, Except.map, htrim, if_neg hne]
      by_cases hsame : key.toList = v.value.toList
      · simp [hsame, hsegments, ofSegments]
      · by_cases hbelow : (v.value.toList ++ ['/']).isPrefixOf key.toList = true
        · obtain ⟨rest, hrest⟩ := List.isPrefixOf_iff_prefix.1 hbelow
          have hkey : key.toList = v.value.toList ++ '/' :: rest := by simpa using hrest.symm
          have hsplit : segments key.toList = v.value.toList :: segments rest := by
            rw [hkey, segments_append_slash, hsegments]
            rfl
          have hdrop : key.toList.drop (v.value.toList.length + 1) = rest := by simp [hkey]
          simp [hsame, hbelow, hsplit, hdrop, ofSegments_segments]
        · have hhead : (segments key.toList).head? ≠ some v.value.toList := by
            intro hhead
            obtain ⟨s, rest, hsplit⟩ := List.exists_cons_of_ne_nil
              (List.splitOn_ne_nil '/' key.toList)
            have hs : s = v.value.toList := by
              have := hhead
              rw [segments, hsplit] at this
              simpa using this
            subst hs
            have hkey : key.toList = ofSegments (v.value.toList :: rest) := by
              rw [← hsplit]
              exact (ofSegments_segments key.toList).symm
            cases rest with
            | nil => exact hsame (by simpa [ofSegments] using hkey)
            | cons t rest =>
                refine hbelow (List.isPrefixOf_iff_prefix.2 ⟨ofSegments (t :: rest), ?_⟩)
                rw [hkey]
                simp [ofSegments]
          simp [hsame, hbelow, hhead]

theorem pathFor_eq (input : String) :
    pathFor input =
      (sanitizeKey input).map fun key => String.ofList (ofSegments (keyPath key)) := by
  unfold pathFor
  rw [visibilityFromKey_eq]
  cases hkey : sanitizeKey input with
  | error e => rfl
  | ok key =>
      show stripPrefix input (keyVisibility key).value = _
      rw [stripPrefix_eq, hkey]
      simp only [Except.map, keyPath]
      split
      · rfl
      · rw [ofSegments_segments, String.ofList_toList]

theorem locate_eq (cfg : SupabaseConfig) (input : String) :
    locate cfg input = (sanitizeKey input).map (location cfg) := by
  unfold locate
  rw [visibilityFromKey_eq, pathFor_eq]
  cases sanitizeKey input <;> rfl

section Map

variable {ν : Type} {getPublicUrl : String → String → String}
  {createSignedUrl : String → String → ν → Buckets → Except ClientError String}
  {cfg : SupabaseConfig}

theorem save_mapClient (input : UploadInput) (target : SaveTarget) (objects : Buckets) :
    save (mapClient getPublicUrl createSignedUrl) cfg input target objects =
      match sanitizeKey target.key with
      | .error e => (.error e, objects)
      | .ok key =>
          (.ok ⟨target.key, target.visibility, input.size, input.mimeType⟩,
            Function.update objects (bucketFor cfg target.visibility, (location cfg key).2)
              (some input.buffer)) := by
  unfold save
  rw [pathFor_eq]
  cases sanitizeKey target.key <;> rfl

theorem delete_mapClient (key : String) (objects : Buckets) :
    delete (mapClient getPublicUrl createSignedUrl) cfg key objects =
      match sanitizeKey key with
      | .error e => (.error e, objects)
      | .ok key => (.ok (), Function.update objects (location cfg key) none) := by
  unfold delete
  rw [locate_eq]
  cases sanitizeKey key <;> rfl

theorem existsKey_mapClient (key : String) (objects : Buckets) :
    existsKey (mapClient getPublicUrl createSignedUrl) cfg key objects =
      (sanitizeKey key).map fun key => (objects (location cfg key)).isSome := by
  unfold existsKey
  rw [locate_eq]
  cases sanitizeKey key <;> rfl

theorem read_mapClient (key : String) (objects : Buckets) :
    read (mapClient getPublicUrl createSignedUrl) cfg key objects =
      (sanitizeKey key).bind fun normalized =>
        foundOr key (objects (location cfg normalized)) := by
  unfold read
  rw [locate_eq]
  cases sanitizeKey key with
  | error e => rfl
  | ok normalized =>
      simp only [mapClient, Except.map, Except.bind, ok_bind]
      cases objects (location cfg normalized) <;> rfl

theorem signedUrl_mapClient (key : String) (ttlSeconds : ν) (now : Instant) (objects : Buckets) :
    signedUrl (mapClient getPublicUrl createSignedUrl) cfg key ttlSeconds now objects =
      match sanitizeKey key with
      | .error e => (.error e, objects)
      | .ok key =>
          match createSignedUrl (location cfg key).1 (location cfg key).2 ttlSeconds objects with
          | .error e =>
              (.error (e.toStorageError fun message =>
                .storageProvider ("Failed to sign URL: " ++ message)), objects)
          | .ok url => (.ok url, objects) := by
  unfold signedUrl
  rw [locate_eq]
  cases sanitizeKey key <;> rfl

theorem publicUrl_eq (client : SupabaseClient Buckets ν) (key : String) :
    publicUrl client cfg key =
      (sanitizeKey key).bind fun normalized =>
        if keyVisibility normalized ≠ .PUBLIC then
          .error (.storageProvider "publicUrl called for a non-public key")
        else .ok (client.getPublicUrl cfg.publicBucket (location cfg normalized).2) := by
  unfold publicUrl
  rw [visibilityFromKey_eq, pathFor_eq]
  cases sanitizeKey key with
  | error e => rfl
  | ok normalized =>
      by_cases hv : keyVisibility normalized = .PUBLIC <;>
        simp [Except.map, Except.bind, hv, location]

end Map

/-! ## Two keys for one object -/

/-- `aliased` is `key` under the public prefix, and `key` has no prefix of its own. -/
def Aliases (key aliased : String) : Prop :=
  aliased.toList = Visibility.PUBLIC.value.toList ++ '/' :: key.toList ∧
  ∀ v : Visibility, (segments key.toList).head? ≠ some v.value.toList

theorem ofSegments_inj {l m : List Segment} (hl : ∀ s ∈ l, s ≠ [] ∧ '/' ∉ s)
    (hm : ∀ s ∈ m, s ≠ [] ∧ '/' ∉ s) (h : ofSegments l = ofSegments m) : l = m := by
  have hnil : ∀ {l : List Segment}, (∀ s ∈ l, s ≠ [] ∧ '/' ∉ s) → ofSegments l = [] → l = [] := by
    intro l hl hempty
    by_contra hne
    have hsplit := segments_ofSegments hne fun s hs => (hl s hs).2
    rw [hempty] at hsplit
    exact (hl [] (by rw [← hsplit]; exact List.mem_cons_self)).1 rfl
  by_cases hempty : l = []
  · subst hempty
    exact (hnil hm h.symm).symm
  · have hempty' : m ≠ [] := by
      rintro rfl
      exact hempty (hnil hl h)
    rw [← segments_ofSegments hempty fun s hs => (hl s hs).2, h,
      segments_ofSegments hempty' fun s hs => (hm s hs).2]

theorem mem_segments_of_mem_keyPath {key : String} {s : Segment} (h : s ∈ keyPath key) :
    s ∈ segments key.toList := by
  unfold keyPath at h
  split at h
  · exact List.mem_of_mem_tail h
  · exact h

theorem toList_inj_of_segments {key key' : String}
    (h : segments key.toList = segments key'.toList) : key = key' := by
  have htext := congrArg ofSegments h
  rw [ofSegments_segments, ofSegments_segments] at htext
  exact String.toList_inj.1 htext

/-- What has the public prefix, beside a key without a prefix at the same path. -/
theorem aliases_of_tail {key key' : String} (hv : keyVisibility key = keyVisibility key')
    (hhead : (segments key.toList).head? = some (keyVisibility key).value.toList)
    (hhead' : (segments key'.toList).head? ≠ some (keyVisibility key').value.toList)
    (htail : (segments key.toList).tail = segments key'.toList) : Aliases key' key := by
  have hpublic : keyVisibility key' = .PUBLIC := by
    unfold keyVisibility at hhead' ⊢
    split at hhead'
    · exact absurd ‹_› hhead'
    · exact if_neg ‹_›
  have hprivate : (segments key'.toList).head? ≠ some Visibility.PRIVATE.value.toList := by
    intro hprivate
    rw [keyVisibility, if_pos hprivate] at hpublic
    cases hpublic
  rw [hv, hpublic] at hhead
  rw [hpublic] at hhead'
  refine ⟨?_, fun v => ?_⟩
  · obtain ⟨tail, hsplit⟩ := List.head?_eq_some_iff.1 hhead
    have hne : tail ≠ [] := by
      rintro rfl
      rw [hsplit] at htail
      exact List.splitOn_ne_nil '/' key'.toList htail.symm
    obtain ⟨t, rest, rfl⟩ := List.exists_cons_of_ne_nil hne
    rw [hsplit] at htail
    rw [← ofSegments_segments key.toList, ← ofSegments_segments key'.toList, hsplit, ← htail]
    simp [ofSegments]
  · cases v with
    | PUBLIC => exact hhead'
    | PRIVATE => exact hprivate

/-- Two normalised keys lie at one place only as a key and its alias. -/
theorem location_inj {cfg : SupabaseConfig} (hbuckets : cfg.publicBucket ≠ cfg.privateBucket)
    {key key' : String} (hkey : Normalized key) (hkey' : Normalized key')
    (h : location cfg key = location cfg key') :
    key = key' ∨ Aliases key key' ∨ Aliases key' key := by
  obtain ⟨hbucket, hpath⟩ := Prod.mk.inj h
  have hv : keyVisibility key = keyVisibility key' := by
    cases hk : keyVisibility key <;> cases hk' : keyVisibility key' <;>
      simp [bucketFor, hk, hk'] at hbucket ⊢
    · exact hbuckets hbucket
    · exact hbuckets hbucket.symm
  have hsegments : ∀ {key : String}, Normalized key → ∀ s ∈ keyPath key, s ≠ [] ∧ '/' ∉ s :=
    fun hk s hs => ⟨(hk.1 s (mem_segments_of_mem_keyPath hs)).1,
      slash_notMem_segments _ s (mem_segments_of_mem_keyPath hs)⟩
  have hpath : keyPath key = keyPath key' :=
    ofSegments_inj (hsegments hkey) (hsegments hkey') (String.ofList_injective hpath)
  unfold keyPath at hpath
  by_cases hhead : (segments key.toList).head? = some (keyVisibility key).value.toList
  · by_cases hhead' : (segments key'.toList).head? = some (keyVisibility key').value.toList
    · rw [if_pos hhead, if_pos hhead'] at hpath
      refine Or.inl (toList_inj_of_segments ?_)
      obtain ⟨tail, hsplit⟩ := List.head?_eq_some_iff.1 hhead
      obtain ⟨tail', hsplit'⟩ := List.head?_eq_some_iff.1 hhead'
      rw [hsplit, hsplit'] at hpath ⊢
      rw [hv]
      exact congrArg _ hpath
    · rw [if_pos hhead, if_neg hhead'] at hpath
      exact Or.inr (Or.inr (aliases_of_tail hv hhead hhead' hpath))
  · by_cases hhead' : (segments key'.toList).head? = some (keyVisibility key').value.toList
    · rw [if_neg hhead, if_pos hhead'] at hpath
      exact Or.inr (Or.inl (aliases_of_tail hv.symm hhead' hhead hpath.symm))
    · rw [if_neg hhead, if_neg hhead'] at hpath
      exact Or.inl (toList_inj_of_segments hpath)

end SupabaseStorageProvider

end NestStarter.Storage
