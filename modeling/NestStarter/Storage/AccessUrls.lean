import NestStarter.Core.Batch
import NestStarter.Storage.Agreement

/-! # Access URLs

`getAccessUrl` and `getAccessUrls` with all that they return. The batch signs its private keys in
one call and puts the results where the keys stood; the Supabase provider does so once more for
each bucket. A time `τ` is what `new Date` makes of a number.
-/

namespace NestStarter.Storage

open NestStarter.Core
open NestStarter.Core.PosixPath

structure AccessUrl (τ : Type) where
  url : String
  expiresAt : Option τ := none
  deriving DecidableEq, Repr

abbrev Urls (τ : Type) := List (Option (AccessUrl τ))

/-- The methods of `IStorageProvider` that return URLs; `signedUrls` is optional. -/
structure UrlProvider (σ ν τ : Type) where
  publicUrl : String → Except StorageError String
  signedUrl : String → ν → Instant → σ → Except StorageError (AccessUrl τ) × σ
  signedUrls : Option (List String → ν → Instant → σ → Except StorageError (Urls τ) × σ)

section Service

variable {σ ν τ : Type} (provider : UrlProvider σ ν τ) (signedUrlTtlSeconds : ν)

def StorageService.accessUrl (key : String) (ttlSeconds : Option ν) (now : Instant) (s : σ) :
    Except StorageError (AccessUrl τ) × σ :=
  match visibilityOf key with
  | .error e => (.error e, s)
  | .ok .PUBLIC => ((provider.publicUrl key).map fun url => ⟨url, none⟩, s)
  | .ok .PRIVATE => provider.signedUrl key (ttlSeconds.getD signedUrlTtlSeconds) now s

/-- The first loop of `getAccessUrls`, from index `i` on. -/
def StorageService.splitKeys (i : Nat) :
    List String → Urls τ × List (String × Nat) → Except StorageError (Urls τ × List (String × Nat))
  | [], r => .ok r
  | key :: keys, (result, privateEntries) =>
      match visibilityOf key with
      | .error e => .error e
      | .ok .PUBLIC =>
          match provider.publicUrl key with
          | .error e => .error e
          | .ok url => splitKeys (i + 1) keys (result.set i (some ⟨url, none⟩), privateEntries)
      | .ok .PRIVATE => splitKeys (i + 1) keys (result, privateEntries ++ [(key, i)])

/-- `provider.signedUrls`, or one call for each key. -/
def StorageService.signAll (keys : List String) (ttl : ν) (now : Instant) (s : σ) :
    Except StorageError (Urls τ) × σ :=
  match provider.signedUrls with
  | some signedUrls => signedUrls keys ttl now s
  | none => askEach (fun key s => provider.signedUrl key ttl now s) keys s

def entryAt (signed : Urls τ) (i : Nat) : Option (AccessUrl τ) := signed[i]?.join

def StorageService.accessUrls (keys : List String) (ttlSeconds : Option ν) (now : Instant)
    (s : σ) : Except StorageError (Urls τ) × σ :=
  if keys = [] then (.ok [], s)
  else
    let ttl := ttlSeconds.getD signedUrlTtlSeconds
    match splitKeys provider 0 keys (List.replicate keys.length none, []) with
    | .error e => (.error e, s)
    | .ok (result, privateEntries) =>
        if privateEntries = [] then (.ok result, s)
        else
          let r := signAll provider (privateEntries.map Prod.fst) ttl now s
          (r.1.map fun signed => writeAll result
            (privateEntries.mapIdx fun i entry => (entry.2, entryAt signed i)), r.2)

end Service

section Local

variable {σ τ : Type} (ν : Numbers) (hmac : String → String → List UInt8) (cfg : LocalConfig)
  (dateOf : ν.Number → τ)

def LocalStorageProvider.signedAccessUrl (key : String) (ttlSeconds : ν.Number) (now : Instant)
    (s : LocalState σ ν) : Except StorageError (AccessUrl τ) × LocalState σ ν :=
  let r := LocalStorageProvider.signedUrl ν hmac cfg key ttlSeconds now s
  (r.1.map fun url => ⟨url, some (dateOf (ν.plus (now / 1000) ttlSeconds))⟩, r.2)

def localUrls : UrlProvider (LocalState σ ν) ν.Number τ where
  publicUrl := LocalStorageProvider.publicUrl cfg
  signedUrl := LocalStorageProvider.signedAccessUrl ν hmac cfg dateOf
  signedUrls := some fun keys ttl now s =>
    askEach (fun key s => LocalStorageProvider.signedAccessUrl ν hmac cfg dateOf key ttl now s)
      keys s

end Local

/-- An entry of what `createSignedUrls` returns. -/
structure SignedEntry where
  error : Option String
  signedUrl : Option String
  deriving DecidableEq, Repr

/-- The URL of an entry that the provider takes: no error, and a URL that is not empty. -/
def SignedEntry.url (entry : SignedEntry) : Option String :=
  if entry.error.getD "" ≠ "" then none else entry.signedUrl.filter (· ≠ "")

namespace SupabaseStorageProvider

variable {σ ν τ : Type} (client : SupabaseClient σ ν)
  (createSignedUrls : (bucket : String) → List String → ν → σ →
    Except ClientError (List SignedEntry))
  (cfg : SupabaseConfig) (dateAfter : Instant → ν → τ)

def signedAccessUrl (key : String) (ttlSeconds : ν) (now : Instant) (s : σ) :
    Except StorageError (AccessUrl τ) × σ :=
  let r := signedUrl client cfg key ttlSeconds now s
  (r.1.map fun url => ⟨url, some (dateAfter now ttlSeconds)⟩, r.2)

/-- `byBucket.set(bucket, [...group, entry])`; the groups stand in the order of insertion. -/
def pushEntry (bucket : String) (entry : String × Nat) :
    List (String × List (String × Nat)) → List (String × List (String × Nat))
  | [] => [(bucket, [entry])]
  | group :: groups =>
      if group.1 = bucket then (group.1, group.2 ++ [entry]) :: groups
      else group :: pushEntry bucket entry groups

def groupKeys (i : Nat) : List String → List (String × List (String × Nat)) →
    Except StorageError (List (String × List (String × Nat)))
  | [], groups => .ok groups
  | key :: keys, groups =>
      match locate cfg key with
      | .error e => .error e
      | .ok (bucket, path) => groupKeys (i + 1) keys (pushEntry bucket (path, i) groups)

/-- The loop over the entries of a group, from `data` on: what is written, and where. -/
def collect (expiresAt : τ) : List (String × Nat) → List SignedEntry →
    Except StorageError (List (Nat × Option (AccessUrl τ)))
  | [], _ => .ok []
  | _ :: _, [] => .error (.typeError "Cannot read properties of undefined (reading 'error')")
  | (path, index) :: entries, entry :: data =>
      match entry.url with
      | none =>
          .error (.storageProvider ("Failed to sign URL for " ++ path ++ ": " ++
            entry.error.getD "no URL returned"))
      | some url =>
          (collect expiresAt entries data).map fun writes =>
            (index, some ⟨url, some expiresAt⟩) :: writes

def signGroup (ttlSeconds : ν) (now : Instant) (s : σ)
    (group : String × List (String × Nat)) :
    Except StorageError (List (Nat × Option (AccessUrl τ))) :=
  match createSignedUrls group.1 (group.2.map Prod.fst) ttlSeconds s with
  | .error e => .error (e.toStorageError fun message =>
      .storageProvider ("Failed to sign URLs: " ++ message))
  | .ok data => collect (dateAfter now ttlSeconds) group.2 data

/-- The groups of `Promise.all`, in their order: the first that fails is the answer. -/
def signGroups (ttlSeconds : ν) (now : Instant) (s : σ) :
    List (String × List (String × Nat)) →
    Except StorageError (List (Nat × Option (AccessUrl τ)))
  | [] => .ok []
  | group :: groups => do
      let writes ← signGroup createSignedUrls dateAfter ttlSeconds now s group
      let rest ← signGroups ttlSeconds now s groups
      return writes ++ rest

def signedUrls (keys : List String) (ttlSeconds : ν) (now : Instant) (s : σ) :
    Except StorageError (Urls τ) × σ :=
  ((do
    let groups ← groupKeys cfg 0 keys []
    let writes ← signGroups createSignedUrls dateAfter ttlSeconds now s groups
    return writeAll (List.replicate keys.length none) writes), s)

end SupabaseStorageProvider

def supabaseUrls {σ ν τ : Type} (client : SupabaseClient σ ν)
    (createSignedUrls : (bucket : String) → List String → ν → σ →
      Except ClientError (List SignedEntry))
    (cfg : SupabaseConfig) (dateAfter : Instant → ν → τ) : UrlProvider σ ν τ where
  publicUrl := SupabaseStorageProvider.publicUrl client cfg
  signedUrl := SupabaseStorageProvider.signedAccessUrl client cfg dateAfter
  signedUrls := some (SupabaseStorageProvider.signedUrls createSignedUrls cfg dateAfter)

/-! ## One batch of the service -/

section Service

variable {σ ν τ : Type} {provider : UrlProvider σ ν τ} {signedUrlTtlSeconds : ν}

structure Split (provider : UrlProvider σ ν τ) (i : Nat) (keys : List String)
    (writes : List (Nat × Option (AccessUrl τ))) (entries : List (String × Nat)) : Prop where
  nodup : (writes.map Prod.fst ++ entries.map Prod.snd).Nodup
  above : ∀ j ∈ writes.map Prod.fst ++ entries.map Prod.snd, i ≤ j
  placed : ∀ (j : Nat) (key : String), keys[j]? = some key →
    (visibilityOf key = .ok .PUBLIC ∧
      ∃ url, provider.publicUrl key = .ok url ∧ (i + j, some ⟨url, none⟩) ∈ writes) ∨
    (visibilityOf key = .ok .PRIVATE ∧ (key, i + j) ∈ entries)
  isPrivate : ∀ entry ∈ entries, entry.1 ∈ keys ∧ visibilityOf entry.1 = .ok .PRIVATE

/-- A key of which `getAccessUrl` gets no further than the first loop. -/
def Stops (provider : UrlProvider σ ν τ) (key : String) : Prop :=
  (∃ e, visibilityOf key = .error e) ∨
    (visibilityOf key = .ok .PUBLIC ∧ ∃ e, provider.publicUrl key = .error e)

theorem Split.cons_public {i : Nat} {key : String} {keys : List String} {url : String}
    {writes : List (Nat × Option (AccessUrl τ))} {entries : List (String × Nat)}
    (h : Split provider (i + 1) keys writes entries) (hv : visibilityOf key = .ok .PUBLIC)
    (hurl : provider.publicUrl key = .ok url) :
    Split provider i (key :: keys) ((i, some ⟨url, none⟩) :: writes) entries := by
  refine ⟨List.nodup_cons.2 ⟨fun hi => ?_, h.nodup⟩, ?_, ?_, fun entry hentry =>
    ⟨List.mem_cons_of_mem _ (h.isPrivate entry hentry).1, (h.isPrivate entry hentry).2⟩⟩
  · have hle := h.above i hi
    omega
  · refine List.forall_mem_cons.2 ⟨Nat.le_refl i, fun j hj => ?_⟩
    have hle := h.above j hj
    omega
  · intro j key' hj
    cases j with
    | zero =>
        obtain rfl : key = key' := by simpa using hj
        exact Or.inl ⟨hv, url, hurl, List.mem_cons_self⟩
    | succ j =>
        have hindex : i + (j + 1) = i + 1 + j := by omega
        rw [hindex]
        refine (h.placed j key' (by simpa using hj)).imp_left fun ⟨hv', url', hurl', hmem⟩ => ?_
        exact ⟨hv', url', hurl', List.mem_cons_of_mem _ hmem⟩

theorem Split.cons_private {i : Nat} {key : String} {keys : List String}
    {writes : List (Nat × Option (AccessUrl τ))} {entries : List (String × Nat)}
    (h : Split provider (i + 1) keys writes entries) (hv : visibilityOf key = .ok .PRIVATE) :
    Split provider i (key :: keys) writes ((key, i) :: entries) := by
  refine ⟨?_, ?_, ?_, List.forall_mem_cons.2 ⟨⟨List.mem_cons_self, hv⟩, fun entry hentry =>
    ⟨List.mem_cons_of_mem _ (h.isPrivate entry hentry).1, (h.isPrivate entry hentry).2⟩⟩⟩
  · refine (List.perm_middle.nodup_iff).2 (List.nodup_cons.2 ⟨fun hi => ?_, h.nodup⟩)
    have hle := h.above i hi
    omega
  · intro j hj
    rcases List.mem_cons.1 (List.perm_middle.mem_iff.1 hj) with rfl | hj
    · exact Nat.le_refl _
    · have hle := h.above j hj
      omega
  · intro j key' hj
    cases j with
    | zero =>
        obtain rfl : key = key' := by simpa using hj
        exact Or.inr ⟨hv, List.mem_cons_self⟩
    | succ j =>
        have hindex : i + (j + 1) = i + 1 + j := by omega
        rw [hindex]
        exact (h.placed j key' (by simpa using hj)).imp_right fun ⟨hv', hmem⟩ =>
          ⟨hv', List.mem_cons_of_mem _ hmem⟩

variable (provider) in
theorem StorageService.splitKeys_spec (keys : List String) (i : Nat) (result : Urls τ)
    (entries : List (String × Nat)) :
    (∃ e, splitKeys provider i keys (result, entries) = .error e ∧
      ∃ key ∈ keys, Stops provider key) ∨
    ∃ writes new, Split provider i keys writes new ∧
      splitKeys provider i keys (result, entries) =
        .ok (writeAll result writes, entries ++ new) := by
  induction keys generalizing i result entries with
  | nil =>
      refine Or.inr ⟨[], [], ⟨List.nodup_nil, by simp, by simp, by simp⟩, ?_⟩
      simp [splitKeys]
  | cons key keys ih =>
      rw [splitKeys]
      cases hv : visibilityOf key with
      | error e => exact Or.inl ⟨e, rfl, key, List.mem_cons_self, Or.inl ⟨e, hv⟩⟩
      | ok v =>
          cases v with
          | PUBLIC =>
              cases hurl : provider.publicUrl key with
              | error e =>
                  exact Or.inl ⟨e, rfl, key, List.mem_cons_self, Or.inr ⟨hv, e, hurl⟩⟩
              | ok url =>
                  rcases ih (i + 1) (result.set i (some ⟨url, none⟩)) entries with
                    ⟨e, he, key', hkey', hstops⟩ | ⟨writes, new, hsplit, hok⟩
                  · exact Or.inl ⟨e, he, key', List.mem_cons_of_mem _ hkey', hstops⟩
                  · exact Or.inr ⟨_, new, hsplit.cons_public hv hurl, hok⟩
          | PRIVATE =>
              rcases ih (i + 1) result (entries ++ [(key, i)]) with
                ⟨e, he, key', hkey', hstops⟩ | ⟨writes, new, hsplit, hok⟩
              · exact Or.inl ⟨e, he, key', List.mem_cons_of_mem _ hkey', hstops⟩
              · refine Or.inr ⟨writes, _, hsplit.cons_private hv, ?_⟩
                simpa using hok

theorem Stops.fails {key : String} (h : Stops provider key) (ttlSeconds : Option ν)
    (now : Instant) (s : σ) :
    ∃ e, (StorageService.accessUrl provider signedUrlTtlSeconds key ttlSeconds now s).1 =
      .error e := by
  unfold StorageService.accessUrl
  rcases h with ⟨e, hv⟩ | ⟨hv, e, hurl⟩
  · exact ⟨e, by rw [hv]⟩
  · exact ⟨e, by rw [hv]; simp [hurl, Except.map]⟩

theorem StorageService.accessUrl_public {key : String} {url : String}
    (hv : visibilityOf key = .ok .PUBLIC) (hurl : provider.publicUrl key = .ok url)
    (ttlSeconds : Option ν) (now : Instant) (s : σ) :
    (accessUrl provider signedUrlTtlSeconds key ttlSeconds now s).1 = .ok ⟨url, none⟩ := by
  rw [accessUrl, hv]
  simp [hurl, Except.map]

theorem StorageService.accessUrl_private {key : String} (hv : visibilityOf key = .ok .PRIVATE)
    (ttlSeconds : Option ν) (now : Instant) (s : σ) :
    accessUrl provider signedUrlTtlSeconds key ttlSeconds now s =
      provider.signedUrl key (ttlSeconds.getD signedUrlTtlSeconds) now s := by
  rw [accessUrl, hv]

theorem entryAt_of_getElem? {signed : Urls τ} {i : Nat} {answer : AccessUrl τ}
    (h : signed[i]? = some (some answer)) : entryAt signed i = some answer := by
  rw [entryAt, h]
  rfl

/-- If the provider signs a batch as it signs each key, the service answers a batch as it answers
each key. -/
theorem StorageService.accessUrls_answersEach {keys : List String} {ttlSeconds : Option ν}
    {now : Instant} {s : σ}
    (hsign : ∀ privateKeys, AnswersEach
      (fun key => (provider.signedUrl key (ttlSeconds.getD signedUrlTtlSeconds) now s).1)
      privateKeys (signAll provider privateKeys (ttlSeconds.getD signedUrlTtlSeconds) now s).1) :
    AnswersEach
      (fun key => (accessUrl provider signedUrlTtlSeconds key ttlSeconds now s).1) keys
      (accessUrls provider signedUrlTtlSeconds keys ttlSeconds now s).1 := by
  unfold accessUrls
  by_cases hempty : keys = []
  · subst hempty
    exact answersEach_ok rfl (by simp)
  rw [if_neg hempty]
  rcases splitKeys_spec provider keys 0 (List.replicate keys.length none) [] with
    ⟨e, he, key, hkey, hstops⟩ | ⟨writes, entries, hsplit, hok⟩
  · simp only [he]
    exact answersEach_error ⟨key, hkey, hstops.fails ttlSeconds now s⟩
  simp only [hok, List.nil_append]
  by_cases hnone : entries = []
  · subst hnone
    rw [if_pos rfl]
    refine answersEach_ok (by simp) fun j key hj => ?_
    obtain ⟨hv, url, hurl, hmem⟩ := (hsplit.placed j key hj).resolve_right (by simp)
    have hlt : j < keys.length := (List.getElem?_eq_some_iff.1 hj).1
    refine ⟨⟨url, none⟩, accessUrl_public hv hurl ttlSeconds now s, ?_⟩
    rw [Nat.zero_add] at hmem
    exact getElem?_writeAll_of_mem (by simpa using hsplit.nodup) hmem (by simpa using hlt)
  · rw [if_neg hnone]
    have hsigned := hsign (entries.map Prod.fst)
    cases hr : (signAll provider (entries.map Prod.fst) (ttlSeconds.getD signedUrlTtlSeconds) now
        s).1 with
    | error e =>
        obtain ⟨key, hkey, e', he'⟩ := hsigned.fails.1 ⟨e, hr⟩
        obtain ⟨entry, hentry, rfl⟩ := List.mem_map.1 hkey
        obtain ⟨hkey, hv⟩ := hsplit.isPrivate entry hentry
        exact answersEach_error ⟨entry.1, hkey, e', by rw [accessUrl_private hv, he']⟩
    | ok signed =>
        have hindices : ((entries.mapIdx fun i entry => (entry.2, entryAt signed i)).map Prod.fst)
            = entries.map Prod.snd := by
          refine List.ext_getElem? fun i => ?_
          simp only [List.getElem?_map, List.getElem?_mapIdx]
          cases entries[i]? <;> rfl
        simp only [Except.map, ← writeAll_append]
        refine answersEach_ok (by simp) fun j key hj => ?_
        have hlt : j < keys.length := (List.getElem?_eq_some_iff.1 hj).1
        have hread : ∀ answer, (j, some answer) ∈
            writes ++ entries.mapIdx (fun i entry => (entry.2, entryAt signed i)) →
            (writeAll (List.replicate keys.length none)
              (writes ++ entries.mapIdx fun i entry => (entry.2, entryAt signed i)))[j]? =
                some (some answer) := fun answer hmem =>
          getElem?_writeAll_of_mem (by
            rw [List.map_append, hindices]
            exact hsplit.nodup) hmem (by simpa using hlt)
        rcases hsplit.placed j key hj with ⟨hv, url, hurl, hmem⟩ | ⟨hv, hmem⟩
        · rw [Nat.zero_add] at hmem
          exact ⟨⟨url, none⟩, accessUrl_public hv hurl ttlSeconds now s,
            hread _ (List.mem_append_left _ hmem)⟩
        · rw [Nat.zero_add] at hmem
          obtain ⟨m, hm⟩ := List.getElem?_of_mem hmem
          obtain ⟨answer, hanswer, hat⟩ := hsigned.entry signed hr m key (by simp [hm])
          refine ⟨answer, by rw [accessUrl_private hv, hanswer],
            hread _ (List.mem_append_right _ ?_)⟩
          rw [← entryAt_of_getElem? hat]
          exact List.mem_of_getElem? (i := m) (by simp [hm])

end Service

/-! ## One batch of the Supabase provider -/

namespace SupabaseStorageProvider

variable {σ ν τ : Type} {client : SupabaseClient σ ν}
  {createSignedUrls : (bucket : String) → List String → ν → σ →
    Except ClientError (List SignedEntry)}
  {cfg : SupabaseConfig} {dateAfter : Instant → ν → τ}

/-- The backend signs a batch of paths as it signs each of them: the entry at each position has
the URL of its path, or none when that path is refused; and when all of the batch is refused, so
is one of the paths. -/
structure BatchAgrees (client : SupabaseClient σ ν)
    (createSignedUrls : (bucket : String) → List String → ν → σ →
      Except ClientError (List SignedEntry)) : Prop where
  entries : ∀ bucket paths ttl s data, createSignedUrls bucket paths ttl s = .ok data →
    data.map SignedEntry.url =
      paths.map fun path => (client.createSignedUrl bucket path ttl s).toOption
  refused : ∀ bucket paths ttl s e, createSignedUrls bucket paths ttl s = .error e →
    ∃ path ∈ paths, ∃ e, client.createSignedUrl bucket path ttl s = .error e

/-- The entries of the groups, each with its bucket: a bucket, a path and an index. -/
def flat (groups : List (String × List (String × Nat))) : List (String × String × Nat) :=
  groups.flatMap fun group => group.2.map fun entry => (group.1, entry)

theorem flat_pushEntry (bucket : String) (entry : String × Nat)
    (groups : List (String × List (String × Nat))) :
    (flat (pushEntry bucket entry groups)).Perm (flat groups ++ [(bucket, entry)]) := by
  induction groups with
  | nil => exact List.Perm.refl _
  | cons group groups ih =>
      rw [pushEntry]
      by_cases hbucket : group.1 = bucket
      · have hswap : ([(bucket, entry)] ++ flat groups).Perm (flat groups ++ [(bucket, entry)]) :=
          List.perm_append_comm
        subst hbucket
        have hrest := hswap.append_left (group.2.map fun entry => (group.1, entry))
        simpa [flat] using hrest
      · rw [if_neg hbucket]
        have hrest := ih.append_left (group.2.map fun entry => (group.1, entry))
        simpa [flat] using hrest

/-- What the first loop of `signedUrls` leaves of the keys from index `i` on. -/
structure Located (cfg : SupabaseConfig) (i : Nat) (keys : List String)
    (located : List (String × String × Nat)) : Prop where
  nodup : (located.map fun entry => entry.2.2).Nodup
  above : ∀ entry ∈ located, i ≤ entry.2.2
  placed : ∀ (j : Nat) (key : String), keys[j]? = some key → ∃ bucket path,
    locate cfg key = .ok (bucket, path) ∧ (bucket, path, i + j) ∈ located
  origin : ∀ entry ∈ located, ∃ key ∈ keys, locate cfg key = .ok (entry.1, entry.2.1)

theorem Located.cons {i : Nat} {key : String} {keys : List String} {bucket path : String}
    {located : List (String × String × Nat)} (h : Located cfg (i + 1) keys located)
    (hlocate : locate cfg key = .ok (bucket, path)) :
    Located cfg i (key :: keys) ((bucket, path, i) :: located) := by
  refine ⟨List.nodup_cons.2 ⟨fun hi => ?_, h.nodup⟩,
    List.forall_mem_cons.2 ⟨Nat.le_refl i, fun entry hentry => ?_⟩, ?_,
    List.forall_mem_cons.2 ⟨⟨key, List.mem_cons_self, hlocate⟩, fun entry hentry => ?_⟩⟩
  · obtain ⟨entry, hentry, hindex⟩ := List.mem_map.1 hi
    have hle := h.above entry hentry
    simp only at hindex
    omega
  · have hle := h.above entry hentry
    omega
  · intro j key' hj
    cases j with
    | zero =>
        obtain rfl : key = key' := by simpa using hj
        exact ⟨bucket, path, hlocate, List.mem_cons_self⟩
    | succ j =>
        obtain ⟨bucket', path', hlocate', hmem⟩ := h.placed j key' (by simpa using hj)
        have hindex : i + (j + 1) = i + 1 + j := by omega
        rw [hindex]
        exact ⟨bucket', path', hlocate', List.mem_cons_of_mem _ hmem⟩
  · obtain ⟨key', hkey', hlocate'⟩ := h.origin entry hentry
    exact ⟨key', List.mem_cons_of_mem _ hkey', hlocate'⟩

variable (cfg) in
theorem groupKeys_spec (keys : List String) (i : Nat)
    (groups : List (String × List (String × Nat))) :
    (∃ e, groupKeys cfg i keys groups = .error e ∧
      ∃ key ∈ keys, ∃ e, locate cfg key = .error e) ∨
    ∃ located groups', Located cfg i keys located ∧ groupKeys cfg i keys groups = .ok groups' ∧
      (flat groups').Perm (flat groups ++ located) := by
  induction keys generalizing i groups with
  | nil =>
      refine Or.inr ⟨[], groups, ⟨List.nodup_nil, by simp, by simp, by simp⟩, rfl, ?_⟩
      rw [List.append_nil]
  | cons key keys ih =>
      rw [groupKeys]
      cases hlocate : locate cfg key with
      | error e => exact Or.inl ⟨e, rfl, key, List.mem_cons_self, e, hlocate⟩
      | ok place =>
          obtain ⟨bucket, path⟩ := place
          rcases ih (i + 1) (pushEntry bucket (path, i) groups) with
            ⟨e, he, key', hkey', hfails⟩ | ⟨located, groups', hlocated, hok, hperm⟩
          · exact Or.inl ⟨e, he, key', List.mem_cons_of_mem _ hkey', hfails⟩
          · refine Or.inr ⟨_, groups', hlocated.cons hlocate, hok, hperm.trans ?_⟩
            have hpush := (flat_pushEntry bucket (path, i) groups).append_right located
            simpa using hpush

theorem collect_spec {bucket : String} {ttl : ν} {s : σ} (expiresAt : τ)
    (entries : List (String × Nat)) (data : List SignedEntry)
    (h : data.map SignedEntry.url = (entries.map Prod.fst).map fun path =>
      (client.createSignedUrl bucket path ttl s).toOption) :
    (∃ e, collect expiresAt entries data = .error e ∧
      ∃ entry ∈ entries, ∃ e, client.createSignedUrl bucket entry.1 ttl s = .error e) ∨
    ∃ writes, collect expiresAt entries data = .ok writes ∧
      writes.map Prod.fst = entries.map Prod.snd ∧
      ∀ entry ∈ entries, ∃ url, client.createSignedUrl bucket entry.1 ttl s = .ok url ∧
        (entry.2, some ⟨url, some expiresAt⟩) ∈ writes := by
  induction entries generalizing data with
  | nil => exact Or.inr ⟨[], by rw [collect], rfl, by simp⟩
  | cons entry entries ih =>
      obtain ⟨path, index⟩ := entry
      cases data with
      | nil => simp at h
      | cons first data =>
          simp only [List.map_cons, List.cons.injEq] at h
          rw [collect]
          cases hsign : client.createSignedUrl bucket path ttl s with
          | error e =>
              rw [hsign] at h
              simp only [h.1, Except.toOption]
              exact Or.inl ⟨_, rfl, (path, index), List.mem_cons_self, e, hsign⟩
          | ok url =>
              rw [hsign] at h
              simp only [h.1, Except.toOption]
              rcases ih data h.2 with ⟨e, he, entry, hentry, hfails⟩ | ⟨writes, hok, hfst, hall⟩
              · rw [he]
                exact Or.inl ⟨e, rfl, entry, List.mem_cons_of_mem _ hentry, hfails⟩
              · rw [hok]
                refine Or.inr ⟨_, rfl, by simp [hfst], List.forall_mem_cons.2
                  ⟨⟨url, hsign, List.mem_cons_self⟩, fun entry hentry => ?_⟩⟩
                obtain ⟨url', hurl', hmem⟩ := hall entry hentry
                exact ⟨url', hurl', List.mem_cons_of_mem _ hmem⟩

variable (dateAfter) in
theorem signGroups_spec (hagrees : BatchAgrees client createSignedUrls) (ttl : ν) (now : Instant)
    (s : σ) (groups : List (String × List (String × Nat))) :
    (∃ e, signGroups createSignedUrls dateAfter ttl now s groups = .error e ∧
      ∃ entry ∈ flat groups, ∃ e,
        client.createSignedUrl entry.1 entry.2.1 ttl s = .error e) ∨
    ∃ writes, signGroups createSignedUrls dateAfter ttl now s groups = .ok writes ∧
      writes.map Prod.fst = (flat groups).map (fun entry => entry.2.2) ∧
      ∀ entry ∈ flat groups, ∃ url,
        client.createSignedUrl entry.1 entry.2.1 ttl s = .ok url ∧
        (entry.2.2, some ⟨url, some (dateAfter now ttl)⟩) ∈ writes := by
  induction groups with
  | nil => exact Or.inr ⟨[], rfl, rfl, by simp [flat]⟩
  | cons group groups ih =>
      obtain ⟨bucket, entries⟩ := group
      have hflat : flat ((bucket, entries) :: groups) =
          entries.map (fun entry => (bucket, entry)) ++ flat groups := by
        simp [flat]
      have hgroup : (∃ e, signGroup createSignedUrls dateAfter ttl now s (bucket, entries) =
            .error e ∧ ∃ entry ∈ entries, ∃ e,
              client.createSignedUrl bucket entry.1 ttl s = .error e) ∨
          ∃ writes, signGroup createSignedUrls dateAfter ttl now s (bucket, entries) =
            .ok writes ∧ writes.map Prod.fst = entries.map Prod.snd ∧
            ∀ entry ∈ entries, ∃ url, client.createSignedUrl bucket entry.1 ttl s = .ok url ∧
              (entry.2, some ⟨url, some (dateAfter now ttl)⟩) ∈ writes := by
        unfold signGroup
        cases hdata : createSignedUrls bucket (entries.map Prod.fst) ttl s with
        | error e =>
            obtain ⟨path, hpath, hfails⟩ := hagrees.refused _ _ _ _ _ hdata
            obtain ⟨entry, hentry, rfl⟩ := List.mem_map.1 hpath
            exact Or.inl ⟨_, rfl, entry, hentry, hfails⟩
        | ok data =>
            exact collect_spec (dateAfter now ttl) entries data (hagrees.entries _ _ _ _ _ hdata)
      rw [signGroups, hflat]
      rcases hgroup with ⟨e, he, entry, hentry, hfails⟩ | ⟨writes, hok, hfst, hall⟩
      · rw [he]
        exact Or.inl ⟨e, rfl, _, List.mem_append_left _ (List.mem_map.2 ⟨entry, hentry, rfl⟩),
          hfails⟩
      · rw [hok]
        rcases ih with ⟨e, he, entry, hentry, hfails⟩ | ⟨rest, hrest, hfst', hall'⟩
        · rw [he]
          exact Or.inl ⟨e, rfl, entry, List.mem_append_right _ hentry, hfails⟩
        · rw [hrest]
          refine Or.inr ⟨writes ++ rest, rfl, by simp [hfst, hfst', Function.comp_def], ?_⟩
          intro entry hentry
          rcases List.mem_append.1 hentry with hentry | hentry
          · obtain ⟨entry, hmem, rfl⟩ := List.mem_map.1 hentry
            obtain ⟨url, hurl, hmem⟩ := hall entry hmem
            exact ⟨url, hurl, List.mem_append_left _ hmem⟩
          · obtain ⟨url, hurl, hmem⟩ := hall' entry hentry
            exact ⟨url, hurl, List.mem_append_right _ hmem⟩

theorem signedAccessUrl_eq {key bucket path : String}
    (hlocate : locate cfg key = .ok (bucket, path)) (ttl : ν) (now : Instant) (s : σ) :
    (∀ url, client.createSignedUrl bucket path ttl s = .ok url →
      (signedAccessUrl client cfg dateAfter key ttl now s).1 =
        .ok ⟨url, some (dateAfter now ttl)⟩) ∧
    ∀ e, client.createSignedUrl bucket path ttl s = .error e →
      ∃ e', (signedAccessUrl client cfg dateAfter key ttl now s).1 = .error e' := by
  unfold signedAccessUrl signedUrl
  simp only [hlocate]
  constructor
  · intro url hurl
    simp [hurl, Except.map]
  · intro e he
    exact ⟨_, by simp [he, Except.map]; rfl⟩

/-- A batch of keys, grouped by bucket and put back in order. -/
theorem signedUrls_answersEach (hagrees : BatchAgrees client createSignedUrls)
    (keys : List String) (ttl : ν) (now : Instant) (s : σ) :
    AnswersEach (fun key => (signedAccessUrl client cfg dateAfter key ttl now s).1) keys
      (signedUrls createSignedUrls cfg dateAfter keys ttl now s).1 := by
  unfold signedUrls
  rcases groupKeys_spec cfg keys 0 [] with
    ⟨e, he, key, hkey, e', hlocate⟩ | ⟨located, groups, hlocated, hok, hperm⟩
  · rw [he]
    refine answersEach_error ⟨key, hkey, e', ?_⟩
    simp [signedAccessUrl, signedUrl, hlocate, Except.map]
  · rw [hok]
    have hperm : (flat groups).Perm located := by simpa [flat] using hperm
    simp only [ok_bind]
    rcases signGroups_spec dateAfter hagrees ttl now s groups with
      ⟨e, he, entry, hentry, e', hfails⟩ | ⟨writes, hwrites, hfst, hall⟩
    · rw [he]
      obtain ⟨key, hkey, hlocate⟩ := hlocated.origin entry (hperm.mem_iff.1 hentry)
      exact answersEach_error ⟨key, hkey, (signedAccessUrl_eq hlocate ttl now s).2 e' hfails⟩
    · rw [hwrites]
      have hnodup : (writes.map Prod.fst).Nodup := by
        rw [hfst]
        exact ((hperm.map _).nodup_iff).2 hlocated.nodup
      refine answersEach_ok (by simp) fun j key hj => ?_
      have hlt : j < keys.length := (List.getElem?_eq_some_iff.1 hj).1
      obtain ⟨bucket, path, hlocate, hmem⟩ := hlocated.placed j key hj
      obtain ⟨url, hurl, hwritten⟩ := hall _ (hperm.mem_iff.2 hmem)
      rw [Nat.zero_add] at hwritten
      exact ⟨_, (signedAccessUrl_eq hlocate ttl now s).1 url hurl,
        getElem?_writeAll_of_mem hnodup hwritten (by simpa using hlt)⟩

end SupabaseStorageProvider

/-! ## Both providers -/

section Providers

variable {τ : Type}

/-- What a key signs to does not depend on what was signed before. -/
theorem LocalStorageProvider.signedAccessUrl_same {σ : Type} {ν : Numbers}
    {hmac : String → String → List UInt8} {cfg : LocalConfig} {dateOf : ν.Number → τ}
    (key : String) (ttl : ν.Number) (now : Instant) (s s' : LocalState σ ν) :
    (signedAccessUrl ν hmac cfg dateOf key ttl now s).1 =
      (signedAccessUrl ν hmac cfg dateOf key ttl now s').1 := by
  unfold signedAccessUrl signedUrl
  cases sanitizeKey key <;> rfl

theorem StorageService.url_accessUrl {σ ν : Type} {urls : UrlProvider σ ν τ}
    {provider : IStorageProvider σ ν} (hpublic : urls.publicUrl = provider.publicUrl)
    (hsigned : ∀ key ttl now s, (urls.signedUrl key ttl now s).1.map AccessUrl.url =
      (provider.signedUrl key ttl now s).1)
    (signedUrlTtlSeconds : ν) (key : String) (ttlSeconds : Option ν) (now : Instant) (s : σ) :
    (accessUrl urls signedUrlTtlSeconds key ttlSeconds now s).1.map AccessUrl.url =
      (getAccessUrl provider signedUrlTtlSeconds key ttlSeconds now s).1 := by
  unfold accessUrl getAccessUrl
  cases visibilityOf key with
  | error e => rfl
  | ok v =>
      cases v with
      | PUBLIC =>
          simp only [hpublic]
          cases provider.publicUrl key <;> rfl
      | PRIVATE => exact hsigned _ _ _ _

theorem url_signedAccessUrl {r : Except StorageError String} {expiresAt : τ} :
    (r.map fun url => (⟨url, some expiresAt⟩ : AccessUrl τ)).map AccessUrl.url = r := by
  cases r <;> rfl

theorem StorageService.url_accessUrl_local {σ : Type} (fs : FileSystem σ) (ν : Numbers)
    (hmac : String → String → List UInt8) (cfg : LocalConfig) (dateOf : ν.Number → τ)
    (signedUrlTtlSeconds : ν.Number) (key : String) (ttlSeconds : Option ν.Number)
    (now : Instant) (s : LocalState σ ν) :
    (accessUrl (localUrls ν hmac cfg dateOf) signedUrlTtlSeconds key ttlSeconds now s).1.map
        AccessUrl.url =
      (getAccessUrl (localStorageProvider fs ν hmac cfg) signedUrlTtlSeconds key ttlSeconds now
        s).1 :=
  url_accessUrl rfl (fun _ _ _ _ => url_signedAccessUrl) signedUrlTtlSeconds key ttlSeconds now s

theorem StorageService.url_accessUrl_supabase {σ ν : Type} (client : SupabaseClient σ ν)
    (createSignedUrls : (bucket : String) → List String → ν → σ →
      Except ClientError (List SignedEntry))
    (cfg : SupabaseConfig) (dateAfter : Instant → ν → τ) (signedUrlTtlSeconds : ν) (key : String)
    (ttlSeconds : Option ν) (now : Instant) (s : σ) :
    (accessUrl (supabaseUrls client createSignedUrls cfg dateAfter) signedUrlTtlSeconds key
        ttlSeconds now s).1.map AccessUrl.url =
      (getAccessUrl (supabaseStorageProvider client cfg) signedUrlTtlSeconds key ttlSeconds now
        s).1 :=
  url_accessUrl rfl (fun _ _ _ _ => url_signedAccessUrl) signedUrlTtlSeconds key ttlSeconds now s

/-- On either provider, a batch of URLs is what its keys get one by one, in their places, and it
fails exactly when one of them does. -/
theorem StorageService.accessUrls_each :
    (∀ (σ : Type) (ν : Numbers) (hmac : String → String → List UInt8) (cfg : LocalConfig)
      (dateOf : ν.Number → τ) (signedUrlTtlSeconds : ν.Number) (keys : List String)
      (ttlSeconds : Option ν.Number) (now : Instant) (s : LocalState σ ν),
      AnswersEach
        (fun key => (accessUrl (localUrls ν hmac cfg dateOf) signedUrlTtlSeconds key ttlSeconds
          now s).1)
        keys (accessUrls (localUrls ν hmac cfg dateOf) signedUrlTtlSeconds keys ttlSeconds
          now s).1) ∧
    ∀ (σ ν : Type) (client : SupabaseClient σ ν)
      (createSignedUrls : (bucket : String) → List String → ν → σ →
        Except ClientError (List SignedEntry))
      (cfg : SupabaseConfig) (dateAfter : Instant → ν → τ) (signedUrlTtlSeconds : ν)
      (keys : List String) (ttlSeconds : Option ν) (now : Instant) (s : σ),
      SupabaseStorageProvider.BatchAgrees client createSignedUrls →
      AnswersEach
        (fun key => (accessUrl (supabaseUrls client createSignedUrls cfg dateAfter)
          signedUrlTtlSeconds key ttlSeconds now s).1)
        keys (accessUrls (supabaseUrls client createSignedUrls cfg dateAfter)
          signedUrlTtlSeconds keys ttlSeconds now s).1 := by
  constructor
  · intro σ ν hmac cfg dateOf signedUrlTtlSeconds keys ttlSeconds now s
    refine accessUrls_answersEach fun privateKeys => ?_
    exact askEach_answersEach
      (fun key => LocalStorageProvider.signedAccessUrl_same key _ now) privateKeys s s
  · intro σ ν client createSignedUrls cfg dateAfter signedUrlTtlSeconds keys ttlSeconds now s
      hagrees
    refine accessUrls_answersEach fun privateKeys => ?_
    exact SupabaseStorageProvider.signedUrls_answersEach hagrees privateKeys _ now s

end Providers

def clientSample : SupabaseClient Buckets numbersSample.Number :=
  mapClient publicUrlSample signSample

def signManySample (bucket : String) (paths : List String) (ttl : numbersSample.Number)
    (objects : Buckets) : Except ClientError (List SignedEntry) :=
  .ok (paths.map fun path =>
    match signSample bucket path ttl objects with
    | .ok url => ⟨none, some url⟩
    | .error _ => ⟨some "Either the object does not exist or you do not have access to it", none⟩)

theorem batchAgrees_sample :
    SupabaseStorageProvider.BatchAgrees clientSample signManySample where
  entries bucket paths ttl s data h := by
    obtain rfl := Except.ok.inj h
    rw [List.map_map]
    refine List.map_congr_left fun path _ => ?_
    have hne :
        "https://dummy-project.supabase.co/storage/v1/object/sign/" ++ bucket ++ "/" ++ path ≠
          "" := by
      intro hempty
      have hlength := congrArg String.length hempty
      simp [String.length_append] at hlength
    show _ = (signSample bucket path ttl s).toOption
    simp only [Function.comp, signSample]
    by_cases hstored : (s (bucket, path)).isSome = true
    · simp [hstored, SignedEntry.url, Except.toOption, Option.filter, hne]
    · simp [hstored, SignedEntry.url, Except.toOption]
  refused _ _ _ _ _ h := by cases h

def bucketsSample : Buckets := fun place =>
  if place = ("private-files", "1.png") then some [0x89] else none

def urlsSample : UrlProvider Buckets numbersSample.Number Instant :=
  supabaseUrls clientSample signManySample supabaseConfigSample
    (fun now ttl => now + 1000 * (ttl.getD 0 : Nat))

theorem StorageService.accessUrls_each_sample :
    SupabaseStorageProvider.BatchAgrees clientSample signManySample ∧
    AnswersEach (fun key => (accessUrl urlsSample (some 60) key none 0 bucketsSample).1)
      ["private/1.png", "public/a.png", "private/1.png"]
      (accessUrls urlsSample (some 60) ["private/1.png", "public/a.png", "private/1.png"] none 0
        bucketsSample).1 :=
  ⟨batchAgrees_sample, accessUrls_each.2 _ _ clientSample signManySample supabaseConfigSample _
    (some 60) _ none 0 bucketsSample batchAgrees_sample⟩

example : (StorageService.accessUrls urlsSample (some 60)
    ["private/1.png", "public/a.png", "private/1.png"] none 0 bucketsSample).1 =
    .ok [some ⟨"https://dummy-project.supabase.co/storage/v1/object/sign/private-files/1.png",
        some 60000⟩,
      some ⟨"https://dummy-project.supabase.co/storage/v1/object/public/public-files/a.png", none⟩,
      some ⟨"https://dummy-project.supabase.co/storage/v1/object/sign/private-files/1.png",
        some 60000⟩] := by decide +kernel

end NestStarter.Storage
