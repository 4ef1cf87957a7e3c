import NestStarter.Storage.Local

/-! # What the local route streams

A private file is streamed only for a key and an expiry that were signed, and it is the file that
`save` writes for that key. Neither route streams anything outside the tree of its visibility.
-/

namespace NestStarter.Storage

open NestStarter.Core.PosixPath

variable {σ : Type} {fs : FileSystem σ} {ν : Numbers} {hmac : String → String → List UInt8}
  {cwd : Path} {cfg : LocalConfig} {toLowerCase : String → String}

def visibilityRoot (cwd : Path) (cfg : LocalConfig) (v : Visibility) : FilePath :=
  fileOf cwd cfg.basePath.toList ++ [v.value.toList]

def Below (cwd : Path) (cfg : LocalConfig) (v : Visibility) (file : FilePath) : Prop :=
  ∃ rest, rest ≠ [] ∧ file = visibilityRoot cwd cfg v ++ rest

theorem visibility_segment (v : Visibility) :
    segments v.value.toList = [v.value.toList] ∧ Proper v.value.toList ∧
      '/' ∉ v.value.toList ∧ isAbsolute v.value.toList = false := by
  cases v <;> decide +kernel

theorem proper_of_mem_root {v : Visibility} : ∀ s ∈ visibilityRoot cwd cfg v, Proper s := by
  intro s hs
  rcases List.mem_append.1 hs with hs | hs
  · exact proper_of_mem_fileOf s hs
  · exact List.mem_singleton.1 hs ▸ (visibility_segment v).2.1

theorem slash_notMem_root {v : Visibility} : ∀ s ∈ visibilityRoot cwd cfg v, '/' ∉ s := by
  intro s hs
  rcases List.mem_append.1 hs with hs | hs
  · exact slash_notMem_fileOf s hs
  · exact List.mem_singleton.1 hs ▸ (visibility_segment v).2.2.1

theorem resolveFile_visibility (v : Visibility) :
    resolveFile cwd [cfg.basePath.toList, v.value.toList] = visibilityRoot cwd cfg v := by
  obtain ⟨hsegments, hproper, _, hrel⟩ := visibility_segment v
  rw [resolveFile_pair, hrel, if_neg (by simp), hsegments,
    walk_of_proper (by simpa using hproper)]
  simp [visibilityRoot]

theorem resolve_visibility (v : Visibility) :
    resolve cwd [cfg.basePath.toList, v.value.toList] =
      '/' :: ofSegments (visibilityRoot cwd cfg v) := by
  rw [resolve, resolveFile_visibility]

theorem fileOf_resolve {paths : List Path} :
    fileOf cwd (resolve cwd paths) = resolveFile cwd paths := by
  refine fileOf_ofSegments (fun s hs => ?_)
    (slash_notMem_normalizeSegments (slash_notMem_segments _))
  exact proper_of_mem_walk (by simp) s (List.mem_reverse.1 hs)

theorem resolveFile_root (v : Visibility) (path : Path) :
    resolveFile cwd ['/' :: ofSegments (visibilityRoot cwd cfg v), path] =
      if isAbsolute path then fileOf cwd path
      else (walk (visibilityRoot cwd cfg v).reverse (segments path)).reverse := by
  rw [resolveFile_pair, fileOf_ofSegments proper_of_mem_root slash_notMem_root]

theorem stream_eq_ok {v : Visibility} {path : PathParam} {files : σ} {st : Streamed}
    (h : LocalStorageController.stream fs cwd cfg toLowerCase v path files = .ok st) :
    st.fullPath = resolve cwd
      ['/' :: ofSegments (visibilityRoot cwd cfg v), (joinSegments path).toList] ∧
    fs.isFile st.fullPath files = .ok true ∧
    (fileOf cwd st.fullPath = visibilityRoot cwd cfg v ∨
      Below cwd cfg v (fileOf cwd st.fullPath)) := by
  unfold LocalStorageController.stream at h
  simp only [resolve_visibility] at h
  split at h
  · cases h
  · next hconfined =>
      cases hfile : fs.isFile (resolve cwd
          ['/' :: ofSegments (visibilityRoot cwd cfg v), (joinSegments path).toList]) files with
      | error e => simp [hfile] at h
      | ok b =>
          cases b with
          | false => simp [hfile] at h
          | true =>
              simp only [hfile, Except.ok.injEq] at h
              subst h
              refine ⟨rfl, hfile, ?_⟩
              by_cases hroot : resolve cwd
                  ['/' :: ofSegments (visibilityRoot cwd cfg v), (joinSegments path).toList] =
                  '/' :: ofSegments (visibilityRoot cwd cfg v)
              · refine Or.inl ?_
                show fileOf cwd (resolve cwd _) = _
                rw [hroot, fileOf_ofSegments proper_of_mem_root slash_notMem_root]
              · refine Or.inr ?_
                have hbelow := of_not_not fun hn => hconfined ⟨hroot, hn⟩
                show Below cwd cfg v (fileOf cwd (resolve cwd _))
                rw [fileOf_resolve]
                refine below_of_isPrefix (by simp [visibilityRoot]) slash_notMem_root
                  (slash_notMem_normalizeSegments (slash_notMem_segments _)) ?_
                exact List.isPrefixOf_iff_prefix.1 hbelow

variable {signedUrlTtlSeconds : ν.Number}

/-- The one provider call that signs, and what it signs. -/
theorem signed_signedUrl (key : String) (ttlSeconds : ν.Number) (now : Instant)
    (s : LocalState σ ν) :
    ∀ c ∈ (LocalStorageProvider.signedUrl ν hmac cfg key ttlSeconds now s).2.signed,
      c ∈ s.signed ∨ Normalized c.1 := by
  intro c hc
  unfold LocalStorageProvider.signedUrl at hc
  cases hkey : sanitizeKey key with
  | error e =>
      rw [hkey] at hc
      exact Or.inl hc
  | ok normalized =>
      rw [hkey] at hc
      rcases List.mem_append.1 hc with hc | hc
      · exact Or.inl hc
      · rw [List.mem_singleton.1 hc]
        exact Or.inr (normalized_of_sanitizeKey hkey)

theorem signed_save (fs : FileSystem σ) (input : UploadInput) (target : SaveTarget)
    (s : LocalState σ ν) :
    (LocalStorageProvider.save fs ν cfg input target s).2.signed = s.signed := by
  unfold LocalStorageProvider.save
  split
  · rfl
  · split <;> rfl

theorem files_save {input : UploadInput} {target : SaveTarget} {s : LocalState σ ν} {key : String}
    (h : sanitizeKey target.key = .ok key) :
    (LocalStorageProvider.save fs ν cfg input target s).2.files =
      (fs.writeFile (LocalStorageProvider.fullPath cfg key) input.buffer s.files).2 := by
  unfold LocalStorageProvider.save
  rw [h]
  simp only
  split
  · next hwrite => rw [hwrite]
  · next hwrite => rw [hwrite]

theorem signed_delete (fs : FileSystem σ) (key : String) (s : LocalState σ ν) :
    (LocalStorageProvider.delete fs ν cfg key s).2.signed = s.signed := by
  unfold LocalStorageProvider.delete
  split
  · rfl
  · split
    · split <;> rfl
    · rfl

theorem signed_perform (s : LocalState σ ν) (call : Call ν.Number) :
    ∀ c ∈ (perform (localStorageProvider fs ν hmac cfg) signedUrlTtlSeconds s call).2.signed,
      c ∈ s.signed ∨ Normalized c.1 := by
  intro c hc
  cases call with
  | save input target => exact Or.inl (signed_save fs input target s ▸ hc)
  | delete key => exact Or.inl (signed_delete fs key s ▸ hc)
  | read key => exact Or.inl hc
  | existsKey key => exact Or.inl hc
  | getAccessUrl key ttlSeconds now =>
      simp only [perform, StorageService.getAccessUrl] at hc
      split at hc
      · exact Or.inl hc
      · exact Or.inl hc
      · exact signed_signedUrl key _ now s c hc

theorem normalized_of_signed {s : LocalState σ ν} (hs : ∀ c ∈ s.signed, Normalized c.1)
    (calls : List (Call ν.Number)) :
    ∀ c ∈ (performAll (localStorageProvider fs ν hmac cfg) signedUrlTtlSeconds s calls).2.signed,
      Normalized c.1 := by
  induction calls generalizing s with
  | nil => exact hs
  | cons call calls ih =>
      refine ih fun c hc => ?_
      rcases signed_perform s call c hc with hold | hnew
      · exact hs c hold
      · exact hnew

/-! ## The guard -/

/-- Who does not know the secret has no digest under it but those that signed URLs carry. -/
def Unforged (hmac : String → String → List UInt8) (secret : String)
    (signed : List (String × ν.Number)) (token : String) : Prop :=
  ∀ message, fromHex token.toList = hmac secret message →
    ∃ c ∈ signed, fromHex token.toList = hmac secret (signedMessage ν c.1 c.2)

theorem append_cons_inj {a : Char} {x x' z z' : List Char} (hx : a ∉ x) (hx' : a ∉ x')
    (h : x ++ a :: z = x' ++ a :: z') : x = x' ∧ z = z' := by
  rcases List.append_eq_append_iff.1 h with ⟨t, rfl, ht⟩ | ⟨t, rfl, ht⟩
  · cases t with
    | nil => simpa using ht
    | cons b t =>
        obtain ⟨rfl, _⟩ := List.cons.inj ht
        exact absurd (List.mem_append_right x List.mem_cons_self) hx'
  · cases t with
    | nil => simpa using ht.symm
    | cons b t =>
        obtain ⟨rfl, _⟩ := List.cons.inj ht
        exact absurd (List.mem_append_right x' List.mem_cons_self) hx

/-- The key and the number can be told apart in what is signed. -/
theorem signedMessage_inj (hν : ν.Documented) {key key' : String} {m n : ν.Number}
    (hfinite : ν.isFinite m = true) (h : signedMessage ν key m = signedMessage ν key' n) :
    key = key' ∧ m = n := by
  have hlist : key.toList ++ '|' :: (ν.text m).toList =
      key'.toList ++ '|' :: (ν.text n).toList := by
    simpa [signedMessage, String.toList_append] using congrArg String.toList h
  have hrev := congrArg List.reverse hlist
  simp only [List.reverse_append, List.reverse_cons, List.append_assoc,
    List.singleton_append] at hrev
  obtain ⟨htext, hkey⟩ := append_cons_inj
    (fun hm => hν.bar_notMem m (List.mem_reverse.1 hm))
    (fun hm => hν.bar_notMem n (List.mem_reverse.1 hm)) hrev
  exact ⟨String.toList_inj.1 (List.reverse_injective hkey),
    hν.text_inj m n hfinite (String.toList_inj.1 (List.reverse_injective htext))⟩

/-- What the guard lets through was signed for that key and that number, and has not expired. -/
theorem signed_of_canActivate {signed : List (String × ν.Number)} {path : PathParam}
    {query : Query} {now : Instant}
    (hinj : ∀ m m', hmac cfg.secret m = hmac cfg.secret m' → m = m') (hν : ν.Documented)
    (hunforged : Unforged hmac cfg.secret signed (query.token.getD ""))
    (h : LocalStreamGuard.canActivate ν hmac cfg path query now = true) :
    (Visibility.PRIVATE.value ++ "/" ++ joinSegments path,
      ν.ofText (query.exp.getD "undefined")) ∈ signed ∧
    ν.isPast (ν.ofText (query.exp.getD "undefined")) now = false := by
  unfold LocalStreamGuard.canActivate at h
  simp only at h
  split at h
  · cases h
  · split at h
    · cases h
    · unfold LocalSigningService.verify at h
      split at h
      · cases h
      · next hvalid =>
          obtain ⟨hfinite, hpast⟩ := not_or.1 hvalid
          simp only at h
          split at h
          · cases h
          · have hbytes := of_decide_eq_true h
            rw [LocalSigningService.compute, String.toList_ofList, fromHex_toHex] at hbytes
            obtain ⟨c, hc, htoken⟩ := hunforged _ hbytes.symm
            obtain ⟨hkey, hexp⟩ := signedMessage_inj hν (not_not.1 hfinite)
              (hinj _ _ (hbytes.trans htoken))
            exact ⟨by rw [hkey, hexp]; exact hc, by simpa using hpast⟩

/-! ## The two routes -/

theorem segments_private (rawKey : String) :
    segments (Visibility.PRIVATE.value ++ "/" ++ rawKey).toList =
      Visibility.PRIVATE.value.toList :: segments rawKey.toList := by
  have htext : (Visibility.PRIVATE.value ++ "/" ++ rawKey).toList =
      Visibility.PRIVATE.value.toList ++ '/' :: rawKey.toList := by
    simp [String.toList_append]
  rw [htext, segments_append_slash, (visibility_segment .PRIVATE).1]
  rfl

/-- Under a normalised key the private route streams the file of that key. -/
theorem fileOf_stream {path : PathParam} {files : σ} {st : Streamed}
    (hkey : Normalized (Visibility.PRIVATE.value ++ "/" ++ joinSegments path))
    (h : LocalStorageController.stream fs cwd cfg toLowerCase .PRIVATE path files = .ok st) :
    fileOf cwd st.fullPath =
      visibilityRoot cwd cfg .PRIVATE ++ segments (joinSegments path).toList := by
  have hproper : ∀ s ∈ segments (joinSegments path).toList, Proper s := by
    intro s hs
    exact hkey.1 s (by rw [segments_private]; exact List.mem_cons_of_mem _ hs)
  rw [(stream_eq_ok h).1, fileOf_resolve, resolveFile_root, isAbsolute_of_proper hproper,
    walk_of_proper hproper]
  simp

/-- Whatever was called before: the private route streams a file only for a key and a number
that `sign` was called for, while the number is not past; the file is the one that `save` writes
for the key, strictly below the private root. The public route streams files strictly below the
public root, or the public root itself where that is a file. -/
theorem streams_confined (fs : FileSystem σ) (ν : Numbers)
    (hmac : String → String → List UInt8) (cwd : Path) (cfg : LocalConfig)
    (toLowerCase : String → String) (signedUrlTtlSeconds : ν.Number)
    (hinj : ∀ m m', hmac cfg.secret m = hmac cfg.secret m' → m = m') (hν : ν.Documented)
    (files₀ : σ) (calls : List (Call ν.Number)) :
    let s := (performAll (localStorageProvider fs ν hmac cfg) signedUrlTtlSeconds ⟨files₀, []⟩
      calls).2
    (∀ path query now, Unforged hmac cfg.secret s.signed (query.token.getD "") →
      LocalStreamGuard.canActivate ν hmac cfg path query now = true →
      let key := Visibility.PRIVATE.value ++ "/" ++ joinSegments path
      let exp := ν.ofText (query.exp.getD "undefined")
      (key, exp) ∈ s.signed ∧ ν.isPast exp now = false ∧
      ∃ saved, (∀ input target (t : LocalState σ ν), target.key = key →
          (LocalStorageProvider.save fs ν cfg input target t).2.files =
            (fs.writeFile saved input.buffer t.files).2) ∧
        ∀ files st,
          LocalStorageController.stream fs cwd cfg toLowerCase .PRIVATE path files = .ok st →
          fileOf cwd st.fullPath = fileOf cwd saved) ∧
    (∀ path query now files st, Unforged hmac cfg.secret s.signed (query.token.getD "") →
      LocalStorageController.servePrivate fs ν hmac cwd cfg toLowerCase path query now files =
        .ok st →
      Below cwd cfg .PRIVATE (fileOf cwd st.fullPath)) ∧
    (∀ path files st,
      LocalStorageController.servePublic fs cwd cfg toLowerCase path files = .ok st →
      Below cwd cfg .PUBLIC (fileOf cwd st.fullPath) ∨
      (fileOf cwd st.fullPath = visibilityRoot cwd cfg .PUBLIC ∧
        fs.isFile st.fullPath files = .ok true)) := by
  intro s
  have hnormalized : ∀ c ∈ s.signed, Normalized c.1 :=
    normalized_of_signed (by simp) calls
  refine ⟨?_, ?_, ?_⟩
  · intro path query now hunforged hguard
    obtain ⟨hsigned, hpast⟩ := signed_of_canActivate hinj hν hunforged hguard
    have hkey := hnormalized _ hsigned
    refine ⟨hsigned, hpast, LocalStorageProvider.fullPath cfg
      (Visibility.PRIVATE.value ++ "/" ++ joinSegments path), ?_, fun files st hst => ?_⟩
    · intro input target t htarget
      exact files_save (by rw [htarget]; exact sanitizeKey_of_normalized hkey)
    · rw [fileOf_stream hkey hst, LocalStorageProvider.fileOf_fullPath hkey, segments_private,
        visibilityRoot]
      simp
  · intro path query now files st hunforged hst
    unfold LocalStorageController.servePrivate at hst
    split at hst
    · next hguard =>
        have hkey := hnormalized _ (signed_of_canActivate hinj hν hunforged hguard).1
        exact ⟨segments (joinSegments path).toList, List.splitOn_ne_nil _ _,
          fileOf_stream hkey hst⟩
    · cases hst
  · intro path files st hst
    obtain ⟨_, hfile, hroot | hbelow⟩ := stream_eq_ok hst
    · exact Or.inr ⟨hroot, hfile⟩
    · exact Or.inl hbelow

def localConfigSample : LocalConfig where
  basePath := "./uploads"
  publicBaseUrl := "http://localhost:3000"
  secret := "0123456789abcdef0123456789abcdef"

/-- HMAC-SHA256 of the one message that the example run signs; other messages are kept. -/
def hmacSample (_secret message : String) : List UInt8 :=
  if message = "private/a.txt|1700003600" then
    fromHex "478fd6e55ebaaddc0f72844939890b96d94dc0170cf91eb11e224b3322bb4c6f".toList
  else List.replicate 33 0 ++ message.toByteArray.data.toList

theorem hmacSample_inj {secret m m' : String} (h : hmacSample secret m = hmacSample secret m') :
    m = m' := by
  have hlength : (fromHex
      "478fd6e55ebaaddc0f72844939890b96d94dc0170cf91eb11e224b3322bb4c6f".toList).length = 32 := by
    decide +kernel
  unfold hmacSample at h
  split at h <;> split at h
  · next hm hm' => exact hm.trans hm'.symm
  · have hlen := congrArg List.length h
    rw [hlength, List.length_append, List.length_replicate] at hlen
    omega
  · have hlen := congrArg List.length h
    rw [hlength, List.length_append, List.length_replicate] at hlen
    omega
  · have hbytes := List.append_cancel_left h
    exact String.toByteArray_inj.1 (ByteArray.ext (Array.toList_inj.1 hbytes))

def textSample : UploadInput where
  buffer := [0x68, 0x69]
  originalName := "a.txt"
  mimeType := "text/plain"
  size := 2

def callsSample : List (Call numbersSample.Number) :=
  [.save textSample ⟨"private/a.txt", .PRIVATE, none⟩,
    .getAccessUrl "private/a.txt" none 1700000000000]

def providerSample : IStorageProvider (LocalState Files numbersSample) numbersSample.Number :=
  localStorageProvider (mapFs "/srv".toList) numbersSample hmacSample localConfigSample

/-- The URL that the second call returned, half an hour later. -/
def querySample : Query where
  token := some "478fd6e55ebaaddc0f72844939890b96d94dc0170cf91eb11e224b3322bb4c6f"
  exp := some "1700003600"

def signedSample : String × numbersSample.Number := ("private/a.txt", some 1700003600)

theorem streams_confined_signedUrl :
    let s := (performAll providerSample (some 3600) ⟨fun _ => none, []⟩ callsSample).2
    LocalStreamGuard.canActivate numbersSample hmacSample localConfigSample (.many ["a.txt"])
      querySample 1700001800000 = true ∧
    signedSample ∈ s.signed := by
  intro s
  have hsigned : s.signed = [signedSample] := by decide +kernel
  have hguard : LocalStreamGuard.canActivate numbersSample hmacSample localConfigSample
      (.many ["a.txt"]) querySample 1700001800000 = true := by decide +kernel
  have hunforged : Unforged (ν := numbersSample) hmacSample localConfigSample.secret s.signed
      (querySample.token.getD "") := by
    intro _ _
    exact ⟨signedSample, by rw [hsigned]; exact List.mem_cons_self, by decide +kernel⟩
  refine ⟨hguard, ?_⟩
  exact ((streams_confined (mapFs "/srv".toList) numbersSample hmacSample "/srv".toList
    localConfigSample lowerSample (some 3600) (fun _ _ => hmacSample_inj) documented_numbersSample
    (fun _ => none) callsSample).1 (.many ["a.txt"]) querySample 1700001800000 hunforged hguard).1

/-- A file saved under the key `public` is streamed for the path `.`: it is the public root. -/
theorem streams_publicRoot :
    let s := (performAll providerSample (some 3600) ⟨fun _ => none, []⟩
      [.save textSample ⟨"public", .PUBLIC, none⟩]).2
    ∃ st, LocalStorageController.servePublic (mapFs "/srv".toList) "/srv".toList localConfigSample
        lowerSample (.many ["."]) s.files = .ok st ∧
      ¬ Below "/srv".toList localConfigSample .PUBLIC (fileOf "/srv".toList st.fullPath) := by
  intro s
  refine ⟨⟨"/srv/uploads/public".toList, some "application/octet-stream"⟩,
    by decide +kernel, ?_⟩
  rintro ⟨rest, hne, hfile⟩
  have hroot : fileOf "/srv".toList "/srv/uploads/public".toList =
      visibilityRoot "/srv".toList localConfigSample .PUBLIC := by decide +kernel
  rw [hroot] at hfile
  exact hne (List.self_eq_append_right.1 hfile)

end NestStarter.Storage
