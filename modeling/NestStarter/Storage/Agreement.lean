import NestStarter.Storage.Local
import NestStarter.Storage.Supabase

/-! # One interface, two providers

The same calls on the local provider, whose files are a map, and on the Supabase provider, whose
buckets are. They answer alike as long as the keys are written the way the service writes them.
-/

namespace NestStarter.Storage

open NestStarter.Core.PosixPath SupabaseStorageProvider

theorem trimTrailing_append (a b : List Char) :
    trimTrailing (a ++ b) =
      if trimTrailing b = [] then trimTrailing a else a ++ trimTrailing b := by
  unfold trimTrailing
  rw [List.reverse_append, List.dropWhile_append]
  by_cases h : b.reverse.dropWhile (· = '/') = []
  · simp [h]
  · simp [h]

theorem trimLeading_slashes {p : Path} (h : (trimLeading p).head? ≠ some '\\') :
    trimLeading (slashes p) = slashes (trimLeading p) := by
  induction p with
  | nil => rfl
  | cons c p ih =>
      by_cases hc : c = '/'
      · subst hc
        exact ih h
      · have hkeep : trimLeading (c :: p) = c :: p := by simp [trimLeading, hc]
        have hback : c ≠ '\\' := by simpa [hkeep] using h
        rw [hkeep]
        simp [slashes, trimLeading, hc, hback]

/-- A text whose first segment is `head` is `head`, or goes on after a slash. -/
theorem eq_or_slash_of_head {p : Path} {head : Segment} (h : (segments p).head? = some head) :
    p = head ∨ ∃ rest, p = head ++ '/' :: rest := by
  obtain ⟨tail, hsplit⟩ := List.head?_eq_some_iff.1 h
  rw [← ofSegments_segments p, hsplit]
  cases tail with
  | nil => exact Or.inl (by simp [ofSegments])
  | cons s tail => exact Or.inr ⟨ofSegments (s :: tail), by simp [ofSegments]⟩

theorem head_append_slash {head : Segment} (hslash : '/' ∉ head) (rest : Path) :
    (segments (head ++ '/' :: rest)).head? = some head := by
  rw [segments_append_slash, segments, List.splitOn_eq_singleton hslash]
  rfl

theorem head_of_visibilityOf_raw {input : String} {v : Visibility}
    (hv : visibilityOf input = .ok v) :
    (segments (trimLeading input.toList)).head? = some v.value.toList := by
  unfold visibilityOf at hv
  simp only at hv
  split at hv
  · cases hv
    assumption
  · split at hv
    · cases hv
      assumption
    · cases hv

/-- The visibility that the service reads off a raw key is that of the normalised key. -/
theorem head_of_visibilityOf {input key : String} {v : Visibility}
    (hv : visibilityOf input = .ok v) (hkey : sanitizeKey input = .ok key) :
    (segments key.toList).head? = some v.value.toList := by
  have hhead := head_of_visibilityOf_raw hv
  obtain ⟨hslashes, htrim, hslash, hfirst⟩ : slashes v.value.toList = v.value.toList ∧
      trimTrailing v.value.toList = v.value.toList ∧ '/' ∉ v.value.toList ∧
      v.value.toList.head? = some 'p' := by
    cases v <;> decide +kernel
  have hlead : trimLeading (slashes input.toList) = slashes (trimLeading input.toList) := by
    refine trimLeading_slashes ?_
    rcases eq_or_slash_of_head hhead with htext | ⟨rest, htext⟩ <;> rw [htext] <;>
      simp [hfirst]
  have hkeytext : key.toList = trimTrailing (slashes (trimLeading input.toList)) := by
    unfold sanitizeKey at hkey
    split at hkey
    · cases hkey
    · simp only at hkey
      split at hkey
      · cases hkey
        rw [String.toList_ofList, hlead]
      · cases hkey
  rcases eq_or_slash_of_head hhead with htext | ⟨rest, htext⟩
  · rw [hkeytext, htext, hslashes, htrim, segments, List.splitOn_eq_singleton hslash]
    rfl
  · have hmap : slashes (v.value.toList ++ '/' :: rest) =
        v.value.toList ++ (['/'] ++ slashes rest) := by
      rw [slashes, List.map_append, List.map_cons]
      exact congrArg (· ++ _) hslashes
    rw [hkeytext, htext, hmap, trimTrailing_append, trimTrailing_append]
    by_cases hrest : trimTrailing (slashes rest) = []
    · rw [if_pos hrest, if_pos (by decide), htrim, segments, List.splitOn_eq_singleton hslash]
      rfl
    · rw [if_neg hrest, if_neg (by simp)]
      exact head_append_slash hslash _

/-! ## Calls that both providers answer alike -/

variable {ν : Numbers} {hmac : String → String → List UInt8} {cwd : Path}
  {lcfg : LocalConfig} {scfg : SupabaseConfig} {signedUrlTtlSeconds : ν.Number}
  {getPublicUrl : String → String → String}
  {createSignedUrl : String → String → ν.Number → Buckets → Except ClientError String}

/-- The normalised key of a call that touches an object. -/
def keyOf {α : Type} : Call α → Option String
  | .save _ target => (sanitizeKey target.key).toOption
  | .read key => (sanitizeKey key).toOption
  | .existsKey key => (sanitizeKey key).toOption
  | .delete key => (sanitizeKey key).toOption
  | .getAccessUrl _ _ _ => none

def savedKey {α : Type} : Call α → Option String
  | .save _ target => (sanitizeKey target.key).toOption
  | _ => none

/-- A key is saved normalised and under the visibility it begins with; a URL is asked for under
a key without a leading slash if it is public, and for an object that the backend signs if it is
private. -/
def Portable (scfg : SupabaseConfig)
    (createSignedUrl : String → String → ν.Number → Buckets → Except ClientError String)
    (signedUrlTtlSeconds : ν.Number) (objects : Buckets) : Call ν.Number → Prop
  | .save _ target => ∀ key, sanitizeKey target.key = .ok key →
      key = target.key ∧ keyVisibility key = target.visibility
  | .getAccessUrl input ttlSeconds _ => ∀ key, sanitizeKey input = .ok key →
      (visibilityOf input = .ok .PUBLIC → input.toList.head? ≠ some '/') ∧
      (visibilityOf input = .ok .PRIVATE → ∃ url,
        createSignedUrl (location scfg key).1 (location scfg key).2
          (ttlSeconds.getD signedUrlTtlSeconds) objects = .ok url)
  | _ => True

/-- The file of every key in use holds what the object of that key holds; a key that is not
saved holds nothing. -/
structure Agree (cwd : Path) (lcfg : LocalConfig) (scfg : SupabaseConfig)
    (saved used : Set String) (files : Files) (objects : Buckets) : Prop where
  same : ∀ key ∈ used, Normalized key →
    files (LocalStorageProvider.keyFile cwd lcfg key) = objects (location scfg key)
  absent : ∀ key ∈ used, Normalized key → key ∉ saved →
    files (LocalStorageProvider.keyFile cwd lcfg key) = none

/-- Of two keys in use, one of them saved, neither is the other under the public prefix. -/
def AliasFree (saved used : Set String) : Prop :=
  ∀ key ∈ used, ∀ aliased ∈ used, key ∈ saved ∨ aliased ∈ saved → ¬ Aliases key aliased

theorem keyFile_inj {key key' : String} (hkey : Normalized key) (hkey' : Normalized key') :
    LocalStorageProvider.keyFile cwd lcfg key = LocalStorageProvider.keyFile cwd lcfg key' ↔
      key = key' := by
  refine ⟨fun h => ?_, fun h => h ▸ rfl⟩
  rw [LocalStorageProvider.keyFile, LocalStorageProvider.keyFile,
    LocalStorageProvider.fileOf_fullPath hkey, LocalStorageProvider.fileOf_fullPath hkey'] at h
  exact toList_inj_of_segments (List.append_cancel_left h)

/-- Writing a saved key, or removing any, at the file and at the object. -/
theorem Agree.update {saved used : Set String} {files : Files} {objects : Buckets}
    (h : Agree cwd lcfg scfg saved used files objects)
    (hbuckets : scfg.publicBucket ≠ scfg.privateBucket) (hfree : AliasFree saved used)
    {key : String} (hkey : key ∈ used) (hnormal : Normalized key) {value : Option Buffer}
    (hvalue : key ∈ saved ∨ value = none) :
    Agree cwd lcfg scfg saved used
      (Function.update files (LocalStorageProvider.keyFile cwd lcfg key) value)
      (Function.update objects (location scfg key) value) := by
  have hfile : ∀ {key'}, Normalized key' → key' ≠ key →
      LocalStorageProvider.keyFile cwd lcfg key' ≠ LocalStorageProvider.keyFile cwd lcfg key :=
    fun hnormal' hne he => hne ((keyFile_inj hnormal' hnormal).1 he)
  refine ⟨fun key' hkey' hnormal' => ?_, fun key' hkey' hnormal' hunsaved => ?_⟩
  · by_cases hsame : key' = key
    · subst hsame
      rw [Function.update_self, Function.update_self]
    · rw [Function.update_of_ne (hfile hnormal' hsame)]
      by_cases hobject : location scfg key' = location scfg key
      · have halias : key ∉ saved ∧ key' ∉ saved := by
          by_contra hsaved
          have hsaved : key ∈ saved ∨ key' ∈ saved := by tauto
          rcases location_inj hbuckets hnormal' hnormal hobject with hk | halias | halias
          · exact hsame hk
          · exact hfree key' hkey' key hkey hsaved.symm halias
          · exact hfree key hkey key' hkey' hsaved halias
        rw [hobject, Function.update_self, h.absent key' hkey' hnormal' halias.2,
          hvalue.resolve_left halias.1]
      · rw [Function.update_of_ne hobject]
        exact h.same key' hkey' hnormal'
  · by_cases hsame : key' = key
    · subst hsame
      rw [Function.update_self]
      exact hvalue.resolve_left hunsaved
    · rw [Function.update_of_ne (hfile hnormal' hsame)]
      exact h.absent key' hkey' hnormal' hunsaved

/-- Whether the local provider has a URL for a key that the service takes to be public. -/
theorem LocalStorageProvider.publicUrl_eq {input : String} (hv : visibilityOf input = .ok .PUBLIC)
    (hlead : input.toList.head? ≠ some '/') :
    LocalStorageProvider.publicUrl lcfg input =
      (sanitizeKey input).map fun key => joinUrl lcfg.publicBaseUrl [localStorageRoute, key] := by
  have htrim : trimLeading input.toList = input.toList := by
    unfold trimLeading
    cases hinput : input.toList with
    | nil => rfl
    | cons c rest =>
        have hc : c ≠ '/' := by simpa [hinput] using hlead
        simp [hc]
  have hhead : (segments input.toList).head? = some Visibility.PUBLIC.value.toList := by
    have hhead := head_of_visibilityOf_raw hv
    rwa [htrim] at hhead
  unfold LocalStorageProvider.publicUrl
  rw [if_neg (by simp [hhead])]
  cases sanitizeKey input <;> rfl

section Lockstep

variable (getPublicUrl createSignedUrl signedUrlTtlSeconds)

abbrev onLocal (ν : Numbers) (hmac : String → String → List UInt8) (cwd : Path)
    (lcfg : LocalConfig) : IStorageProvider (LocalState Files ν) ν.Number :=
  localStorageProvider (mapFs cwd) ν hmac lcfg

abbrev onSupabase (scfg : SupabaseConfig) : IStorageProvider Buckets ν.Number :=
  supabaseStorageProvider (mapClient getPublicUrl createSignedUrl) scfg

end Lockstep

/-- The URLs differ, but where one provider has one, the other has. -/
theorem getAccessUrl_agree (hmac : String → String → List UInt8)
    (getPublicUrl : String → String → String) {saved used : Set String} {input : String}
    {ttlSeconds : Option ν.Number} {now : Instant} {s : LocalState Files ν} {objects : Buckets}
    (hagree : Agree cwd lcfg scfg saved used s.files objects)
    (hportable : Portable scfg createSignedUrl signedUrlTtlSeconds objects
      (.getAccessUrl input ttlSeconds now)) :
    (perform (onLocal ν hmac cwd lcfg) signedUrlTtlSeconds s
        (.getAccessUrl input ttlSeconds now)).1 =
      (perform (onSupabase getPublicUrl createSignedUrl scfg) signedUrlTtlSeconds objects
        (.getAccessUrl input ttlSeconds now)).1 ∧
    Agree cwd lcfg scfg saved used
      (perform (onLocal ν hmac cwd lcfg) signedUrlTtlSeconds s
        (.getAccessUrl input ttlSeconds now)).2.files
      (perform (onSupabase getPublicUrl createSignedUrl scfg) signedUrlTtlSeconds objects
        (.getAccessUrl input ttlSeconds now)).2 := by
  simp only [perform, StorageService.getAccessUrl]
  cases hv : visibilityOf input with
  | error e => exact ⟨rfl, hagree⟩
  | ok v =>
      cases v with
      | PUBLIC =>
          refine ⟨?_, hagree⟩
          simp only [localStorageProvider, supabaseStorageProvider,
            SupabaseStorageProvider.publicUrl_eq]
          cases hkey : sanitizeKey input with
          | error e =>
              have hfail : ∃ e', LocalStorageProvider.publicUrl lcfg input = .error e' := by
                unfold LocalStorageProvider.publicUrl
                split
                · exact ⟨_, rfl⟩
                · exact ⟨e, by rw [hkey]; rfl⟩
              obtain ⟨e', he'⟩ := hfail
              rw [he']
              rfl
          | ok key =>
              have hvisibility : keyVisibility key = .PUBLIC :=
                keyVisibility_of_head (head_of_visibilityOf hv hkey)
              rw [LocalStorageProvider.publicUrl_eq hv ((hportable key hkey).1 hv), hkey]
              simp [Except.map, Except.bind, hvisibility, outcome]
      | PRIVATE =>
          simp only [localStorageProvider, supabaseStorageProvider, signedUrl_mapClient,
            LocalStorageProvider.signedUrl]
          cases hkey : sanitizeKey input with
          | error e => exact ⟨rfl, hagree⟩
          | ok key =>
              obtain ⟨url, hurl⟩ := (hportable key hkey).2 hv
              simp only [hurl]
              exact ⟨rfl, hagree⟩

/-- Both providers answer a call alike and agree after it. -/
theorem perform_agree (hmac : String → String → List UInt8)
    (getPublicUrl : String → String → String)
    (hbuckets : scfg.publicBucket ≠ scfg.privateBucket) {saved used : Set String}
    (hfree : AliasFree saved used) {call : Call ν.Number} (hused : ∀ key ∈ keyOf call, key ∈ used)
    (hsaved : ∀ key ∈ savedKey call, key ∈ saved) {s : LocalState Files ν} {objects : Buckets}
    (hagree : Agree cwd lcfg scfg saved used s.files objects)
    (hportable : Portable scfg createSignedUrl signedUrlTtlSeconds objects call) :
    (perform (onLocal ν hmac cwd lcfg) signedUrlTtlSeconds s call).1 =
      (perform (onSupabase getPublicUrl createSignedUrl scfg) signedUrlTtlSeconds objects call).1 ∧
    Agree cwd lcfg scfg saved used
      (perform (onLocal ν hmac cwd lcfg) signedUrlTtlSeconds s call).2.files
      (perform (onSupabase getPublicUrl createSignedUrl scfg) signedUrlTtlSeconds objects
        call).2 := by
  cases call with
  | save input target =>
      simp only [perform, localStorageProvider, supabaseStorageProvider,
        LocalStorageProvider.save_mapFs, save_mapClient]
      cases hkey : sanitizeKey target.key with
      | error e => exact ⟨rfl, hagree⟩
      | ok key =>
          obtain ⟨hraw, hvisibility⟩ := hportable key hkey
          rw [← hvisibility, ← hraw]
          exact ⟨rfl, hagree.update hbuckets hfree
            (hused key (toOption_eq_some.2 hkey)) (normalized_of_sanitizeKey hkey)
            (Or.inl (hsaved key (toOption_eq_some.2 hkey)))⟩
  | delete input =>
      simp only [perform, localStorageProvider, supabaseStorageProvider,
        LocalStorageProvider.delete_mapFs, delete_mapClient]
      cases hkey : sanitizeKey input with
      | error e => exact ⟨rfl, hagree⟩
      | ok key =>
          exact ⟨rfl, hagree.update hbuckets hfree
            (hused key (toOption_eq_some.2 hkey)) (normalized_of_sanitizeKey hkey)
            (Or.inr rfl)⟩
  | read input =>
      simp only [perform, localStorageProvider, supabaseStorageProvider,
        LocalStorageProvider.read_mapFs, read_mapClient]
      refine ⟨?_, hagree⟩
      cases hkey : sanitizeKey input with
      | error e => rfl
      | ok key =>
          have hsame := hagree.same key (hused key (toOption_eq_some.2 hkey))
            (normalized_of_sanitizeKey hkey)
          simp only [Except.bind, hsame]
  | existsKey input =>
      simp only [perform, localStorageProvider, supabaseStorageProvider,
        LocalStorageProvider.existsKey_mapFs, existsKey_mapClient]
      refine ⟨?_, hagree⟩
      cases hkey : sanitizeKey input with
      | error e => rfl
      | ok key =>
          have hsame := hagree.same key (hused key (toOption_eq_some.2 hkey))
            (normalized_of_sanitizeKey hkey)
          simp only [Except.map, hsame]
  | getAccessUrl input ttlSeconds now =>
      exact getAccessUrl_agree hmac getPublicUrl hagree hportable

/-- Every call of a run is portable where the Supabase provider makes it. -/
def AllPortable (scfg : SupabaseConfig) (getPublicUrl : String → String → String)
    (createSignedUrl : String → String → ν.Number → Buckets → Except ClientError String)
    (signedUrlTtlSeconds : ν.Number) : Buckets → List (Call ν.Number) → Prop
  | _, [] => True
  | objects, call :: calls =>
      Portable scfg createSignedUrl signedUrlTtlSeconds objects call ∧
      AllPortable scfg getPublicUrl createSignedUrl signedUrlTtlSeconds
        (perform (onSupabase getPublicUrl createSignedUrl scfg) signedUrlTtlSeconds objects call).2
        calls

theorem performAll_agree (hbuckets : scfg.publicBucket ≠ scfg.privateBucket)
    {saved used : Set String} (hfree : AliasFree saved used) {calls : List (Call ν.Number)}
    (hused : ∀ call ∈ calls, ∀ key ∈ keyOf call, key ∈ used)
    (hsaved : ∀ call ∈ calls, ∀ key ∈ savedKey call, key ∈ saved) {s : LocalState Files ν}
    {objects : Buckets} (hagree : Agree cwd lcfg scfg saved used s.files objects)
    (hportable : AllPortable scfg getPublicUrl createSignedUrl signedUrlTtlSeconds objects calls) :
    (performAll (onLocal ν hmac cwd lcfg) signedUrlTtlSeconds s calls).1 =
      (performAll (onSupabase getPublicUrl createSignedUrl scfg) signedUrlTtlSeconds objects
        calls).1 := by
  induction calls generalizing s objects with
  | nil => rfl
  | cons call calls ih =>
      obtain ⟨hcall, hcalls⟩ := hportable
      obtain ⟨hsame, hnext⟩ := perform_agree hmac getPublicUrl hbuckets hfree
        (hused call List.mem_cons_self) (hsaved call List.mem_cons_self) hagree hcall
      have hrest := ih (fun c hc => hused c (List.mem_cons_of_mem call hc))
        (fun c hc => hsaved c (List.mem_cons_of_mem call hc)) hnext hcalls
      simp only [performAll, hsame, hrest]

def keysOf (calls : List (Call ν.Number)) : Set String := {key | ∃ call ∈ calls, key ∈ keyOf call}

def savedKeys (calls : List (Call ν.Number)) : Set String :=
  {key | ∃ call ∈ calls, key ∈ savedKey call}

theorem normalized_of_mem_keysOf {calls : List (Call ν.Number)} {key : String}
    (h : key ∈ keysOf calls) : Normalized key := by
  obtain ⟨call, _, hkey⟩ := h
  have hsanitized : ∃ input, sanitizeKey input = .ok key := by
    cases call with
    | getAccessUrl input ttlSeconds now => cases hkey
    | save input target => exact ⟨target.key, toOption_eq_some.1 hkey⟩
    | read input => exact ⟨input, toOption_eq_some.1 hkey⟩
    | existsKey input => exact ⟨input, toOption_eq_some.1 hkey⟩
    | delete input => exact ⟨input, toOption_eq_some.1 hkey⟩
  obtain ⟨input, hinput⟩ := hsanitized
  exact normalized_of_sanitizeKey hinput

/-- Calls on two empty stores: where every call is portable and no saved key is in use under
another name, each call has the same outcome on both. -/
theorem performAll_eq (ν : Numbers) (hmac : String → String → List UInt8) (cwd : Path)
    (lcfg : LocalConfig) (scfg : SupabaseConfig) (signedUrlTtlSeconds : ν.Number)
    (getPublicUrl : String → String → String)
    (createSignedUrl : String → String → ν.Number → Buckets → Except ClientError String)
    (hbuckets : scfg.publicBucket ≠ scfg.privateBucket) (calls : List (Call ν.Number))
    (hfree : AliasFree (savedKeys calls) (keysOf calls))
    (hportable : AllPortable scfg getPublicUrl createSignedUrl signedUrlTtlSeconds
      (fun _ => none) calls) :
    (performAll (onLocal ν hmac cwd lcfg) signedUrlTtlSeconds ⟨fun _ => none, []⟩ calls).1 =
      (performAll (onSupabase getPublicUrl createSignedUrl scfg) signedUrlTtlSeconds
        (fun _ => none) calls).1 ∧
    ∀ key ∈ savedKeys calls, ∀ key' ∈ keysOf calls,
      LocalStorageProvider.keyFile cwd lcfg key = LocalStorageProvider.keyFile cwd lcfg key' ↔
        location scfg key = location scfg key' := by
  have hused : ∀ key ∈ savedKeys calls, key ∈ keysOf calls := by
    rintro key ⟨call, hcall, hkey⟩
    refine ⟨call, hcall, ?_⟩
    cases call with
    | save input target => exact hkey
    | read input => cases hkey
    | existsKey input => cases hkey
    | delete input => cases hkey
    | getAccessUrl input ttlSeconds now => cases hkey
  refine ⟨?_, fun key hkey key' hkey' => ?_⟩
  · exact performAll_agree hbuckets hfree (fun call hcall key hkey => ⟨call, hcall, hkey⟩)
      (fun call hcall key hkey => ⟨call, hcall, hkey⟩) ⟨fun _ _ _ => rfl, fun _ _ _ _ => rfl⟩
      hportable
  · have hnormal := normalized_of_mem_keysOf (hused key hkey)
    have hnormal' := normalized_of_mem_keysOf hkey'
    rw [keyFile_inj hnormal hnormal']
    refine ⟨fun h => h ▸ rfl, fun h => ?_⟩
    rcases location_inj hbuckets hnormal hnormal' h with hsame | halias | halias
    · exact hsame
    · exact absurd halias (hfree key (hused key hkey) key' hkey' (Or.inl hkey))
    · exact absurd halias (hfree key' hkey' key (hused key hkey) (Or.inr hkey))

def supabaseConfigSample : SupabaseConfig where
  publicBucket := "public-files"
  privateBucket := "private-files"

def localFilesSample : LocalConfig where
  basePath := "./uploads"
  publicBaseUrl := "http://localhost:3000"
  secret := "0123456789abcdef0123456789abcdef"

def publicUrlSample (bucket path : String) : String :=
  "https://dummy-project.supabase.co/storage/v1/object/public/" ++ bucket ++ "/" ++ path

/-- Only what is stored is signed. -/
def signSample (bucket path : String) (_ttl : numbersSample.Number) (objects : Buckets) :
    Except ClientError String :=
  if (objects (bucket, path)).isSome then
    .ok ("https://dummy-project.supabase.co/storage/v1/object/sign/" ++ bucket ++ "/" ++ path)
  else .error objectNotFound

def photoSample : UploadInput where
  buffer := [0x89, 0x50, 0x4E, 0x47]
  originalName := "1.png"
  mimeType := "image/png"
  size := 4

def answersLocal (calls : List (Call numbersSample.Number)) : List (Option Answer) :=
  (performAll (onLocal numbersSample (fun _ _ => []) "/srv".toList localFilesSample) (some 3600)
    ⟨fun _ => none, []⟩ calls).1

def answersSupabase (calls : List (Call numbersSample.Number)) : List (Option Answer) :=
  (performAll (onSupabase publicUrlSample signSample supabaseConfigSample) (some 3600)
    (fun _ => none) calls).1

def photoCalls : List (Call numbersSample.Number) :=
  [.save photoSample ⟨"private/1.png", .PRIVATE, none⟩, .read "private/1.png",
    .getAccessUrl "private/1.png" none 0]

theorem sanitizeKey_photo : sanitizeKey "private/1.png" = .ok "private/1.png" := by decide +kernel

theorem performAll_eq_photo : answersLocal photoCalls = answersSupabase photoCalls := by
  have hkeys : ∀ key ∈ keysOf photoCalls, key = "private/1.png" := by
    rintro key ⟨call, hcall, hkey⟩
    simp only [photoCalls, List.mem_cons, List.not_mem_nil, or_false] at hcall
    rcases hcall with rfl | rfl | rfl <;>
      simp [keyOf, sanitizeKey_photo, Except.toOption] at hkey <;> exact hkey.symm
  refine (performAll_eq numbersSample (fun _ _ => []) "/srv".toList localFilesSample
    supabaseConfigSample (some 3600) publicUrlSample signSample (by decide) photoCalls ?_ ?_).1
  · rintro key hkey aliased haliased - ⟨htext, -⟩
    rw [hkeys key hkey, hkeys aliased haliased] at htext
    exact absurd htext (by decide +kernel)
  · refine ⟨fun key hkey => ?_, trivial, fun key hkey => ⟨fun hv => ?_, fun _ => ?_⟩, trivial⟩
    · cases sanitizeKey_photo.symm.trans hkey
      exact ⟨rfl, by decide +kernel⟩
    · exact absurd hv (by decide +kernel)
    · cases sanitizeKey_photo.symm.trans hkey
      exact ⟨"https://dummy-project.supabase.co/storage/v1/object/sign/private-files/1.png",
        by decide +kernel⟩

/-- An object saved without a visibility prefix exists under the public prefix as well, on one
of the two; and a key that is saved with a leading slash comes back without it on the other. -/
theorem answers_differ :
    supabaseConfigSample.publicBucket ≠ supabaseConfigSample.privateBucket ∧
    answersLocal [.save photoSample ⟨"avatars/1.png", .PUBLIC, none⟩,
      .existsKey "public/avatars/1.png"] = [some (.saved "avatars/1.png"), some (.found false)] ∧
    answersSupabase [.save photoSample ⟨"avatars/1.png", .PUBLIC, none⟩,
      .existsKey "public/avatars/1.png"] = [some (.saved "avatars/1.png"), some (.found true)] ∧
    answersLocal [.save photoSample ⟨"/public/1.png", .PUBLIC, none⟩] =
      [some (.saved "public/1.png")] ∧
    answersSupabase [.save photoSample ⟨"/public/1.png", .PUBLIC, none⟩] =
      [some (.saved "/public/1.png")] := by
  decide +kernel

end NestStarter.Storage
