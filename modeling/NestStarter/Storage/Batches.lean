import Mathlib.Data.List.TakeWhile
import NestStarter.Storage.FileNames
import NestStarter.Storage.Pipe

/-! # Batches of uploads

`StorageService.uploadMany`. Each file gets a name from its own, the clock and a random number;
both providers overwrite what is stored under a key.
-/

namespace NestStarter.Storage

open NestStarter.Core.PosixPath

/-- What `uniqueFileName` reads besides the name: the clock, and the number drawn. -/
structure Reading where
  now : Instant
  random : Nat
  deriving DecidableEq, Repr

/-- A file of a batch, and what is read when its name is made up. -/
abbrev BatchFile := UploadInput × Reading

section UploadMany

variable (env : UploadEnv)

/-- The files as they are stored, validated and compressed. -/
def StorageService.processMany (files : List BatchFile) :
    Except StorageError (List BatchFile) := do
  FileValidationService.validateMany (storageValidators env.runtime) (files.map Prod.fst)
    env.config.defaultValidation
  if env.config.defaultCompression.enabled then
    files.mapM fun file => do
      let input ← env.process file.1 env.config.defaultCompression
      return (input, file.2)
  else return files

def StorageService.itemsOf (options : UploadOptions) (files : List BatchFile) :
    List (UploadInput × SaveTarget) :=
  files.map fun file =>
    (file.1, buildSaveTarget env file.2.now file.2.random file.1 options)

end UploadMany

section SaveMany

variable {σ ν : Type} (provider : IStorageProvider σ ν)

/-- `Promise.all` over the saves, taken in the order of the list: all of them are made, and the
first that fails is the answer. -/
def StorageService.saveMany (s : σ) :
    List (UploadInput × SaveTarget) → Except StorageError (List StoredFile) × σ
  | [] => (.ok [], s)
  | item :: items =>
      let r := provider.save item.1 item.2 s
      let rs := saveMany r.2 items
      ((do
        let file ← r.1
        let files ← rs.1
        return file :: files), rs.2)

def StorageService.uploadMany (env : UploadEnv) (files : List BatchFile) (options : UploadOptions)
    (s : σ) : Except StorageError (List StoredFile) × σ :=
  match processMany env files with
  | .error e => (.error e, s)
  | .ok processed => saveMany provider s (itemsOf env options processed)

end SaveMany

theorem toString_nat_inj {m n : Nat} (h : (toString m).toList = (toString n).toList) : m = n := by
  have hdigits := congrArg (fun l => Nat.ofDigitChars 10 l 0) h
  simpa using hdigits

/-- What comes after the last dash is the same, and what comes before it. -/
theorem append_dash_inj {a : Char} {x x' z z' : List Char} (hz : a ∉ z) (hz' : a ∉ z')
    (h : x ++ a :: z = x' ++ a :: z') : x = x' ∧ z = z' := by
  have hrev := congrArg List.reverse h
  simp only [List.reverse_append, List.reverse_cons, List.append_assoc,
    List.singleton_append] at hrev
  obtain ⟨hlast, hfirst⟩ := append_cons_inj (by simpa using hz) (by simpa using hz') hrev
  exact ⟨List.reverse_injective hfirst, List.reverse_injective hlast⟩

/-- The part of a name that the clock and the draw make. -/
def stampOf (toISOString : Instant → String) (reading : Reading) : List Char :=
  '-' :: (timestampOf toISOString reading.now ++ '-' :: (toString reading.random).toList)

section Stamps

variable {toLowerCase : String → String} {toISOString : Instant → String}

theorem dash_notMem_timestampOf (now : Instant) : '-' ∉ timestampOf toISOString now := by
  intro h
  have hkept := (List.mem_filter.1 h).2
  exact absurd hkept (by decide)

theorem notMem_toString {c : Char} (hc : c.isDigit = false) (n : Nat) :
    c ∉ (toString n).toList := by
  intro h
  have hdigit := isDigit_of_mem_toString h
  rw [hc] at hdigit
  cases hdigit

theorem point_notMem_stampOf (reading : Reading) : '.' ∉ stampOf toISOString reading := by
  have htime : '.' ∉ timestampOf toISOString reading.now := by
    intro h
    have hkept := (List.mem_filter.1 h).2
    exact absurd hkept (by decide)
  have hdraw := notMem_toString (c := '.') (by decide) reading.random
  simp only [stampOf, List.mem_cons, List.mem_append, not_or]
  exact ⟨by decide, htime, by decide, hdraw⟩

/-- A stem and a stamp are told apart at the last two dashes. -/
theorem append_stampOf_inj {x x' : List Char} {r r' : Reading}
    (h : x ++ stampOf toISOString r = x' ++ stampOf toISOString r') :
    x = x' ∧ timestampOf toISOString r.now = timestampOf toISOString r'.now ∧
      r.random = r'.random := by
  have hlist : (x ++ '-' :: timestampOf toISOString r.now) ++ '-' :: (toString r.random).toList =
      (x' ++ '-' :: timestampOf toISOString r'.now) ++ '-' :: (toString r'.random).toList := by
    simpa [stampOf] using h
  have hdash := notMem_toString (c := '-') (by decide)
  obtain ⟨hfirst, hdraw⟩ := append_dash_inj (hdash _) (hdash _) hlist
  obtain ⟨hstem, htime⟩ := append_dash_inj (dash_notMem_timestampOf r.now)
    (dash_notMem_timestampOf r'.now) hfirst
  exact ⟨hstem, htime, toString_nat_inj hdraw⟩

theorem toList_name (file : BatchFile) :
    (uniqueFileName toLowerCase toISOString file.1.originalName file.2.now file.2.random).toList =
      stemOf file.1.originalName ++ stampOf toISOString file.2 ++
        endOf toLowerCase file.1.originalName := by
  rw [toList_uniqueFileName]
  simp [stampOf]

theorem endOf_eq (hlower : ∀ s, '.' ∉ s.toList → '.' ∉ (toLowerCase s).toList) (name : String) :
    endOf toLowerCase name = [] ∨ ∃ e, '.' ∉ e ∧ endOf toLowerCase name = '.' :: e := by
  unfold endOf
  simp only
  split
  · refine Or.inr ⟨_, ?_, rfl⟩
    unfold extractExtension afterLastDot
    by_cases hdot : '.' ∈ (String.ofList (safeName name)).toList
    · simp only [if_pos hdot]
      split
      · simp
      · refine hlower _ fun h => ?_
        rw [String.toList_ofList] at h
        have hkept := List.mem_takeWhile_imp (List.mem_reverse.1 h)
        exact absurd hkept (by decide)
    · simp only [if_neg hdot]
      simp
  · exact Or.inl rfl

/-- The same stem, the same extension, the same millisecond and the same draw. -/
def SameParts (toLowerCase : String → String) (toISOString : Instant → String)
    (f g : BatchFile) : Prop :=
  stemOf f.1.originalName = stemOf g.1.originalName ∧
  endOf toLowerCase f.1.originalName = endOf toLowerCase g.1.originalName ∧
  timestampOf toISOString f.2.now = timestampOf toISOString g.2.now ∧ f.2.random = g.2.random

/-- The extension of `f` ends in what the clock and the draw make of `g`, and the name of `g`,
which has no extension, begins with all that comes before in the name of `f`. -/
def Embeds (toLowerCase : String → String) (toISOString : Instant → String)
    (f g : BatchFile) : Prop :=
  ∃ mid, endOf toLowerCase f.1.originalName = '.' :: (mid ++ stampOf toISOString g.2) ∧
    endOf toLowerCase g.1.originalName = [] ∧
    stemOf g.1.originalName = stemOf f.1.originalName ++ stampOf toISOString f.2 ++ '.' :: mid

/-- Two files get one name. -/
def Collide (toLowerCase : String → String) (toISOString : Instant → String)
    (f g : BatchFile) : Prop :=
  SameParts toLowerCase toISOString f g ∨ Embeds toLowerCase toISOString f g ∨
    Embeds toLowerCase toISOString g f

/-- A stamp has no point, so a point after the stem of one name is in the stem of the other. -/
theorem embeds_of_append {x y z e : List Char} {r : Reading} (hy : y = stampOf toISOString r)
    (h : x ++ '.' :: e = z ++ y) : ∃ mid, e = mid ++ y ∧ z = x ++ '.' :: mid := by
  have hpoint : '.' ∉ y := hy ▸ point_notMem_stampOf r
  rcases List.append_eq_append_iff.1 h with ⟨t, hz, ht⟩ | ⟨t, -, ht⟩
  · cases t with
    | nil => exact absurd (by rw [← List.nil_append y, ← ht]; exact List.mem_cons_self) hpoint
    | cons c t =>
        obtain ⟨rfl, he⟩ := List.cons.inj ht
        exact ⟨t, he, hz⟩
  · exact absurd (by rw [ht]; exact List.mem_append_right t List.mem_cons_self) hpoint

theorem name_eq_iff (hlower : ∀ s, '.' ∉ s.toList → '.' ∉ (toLowerCase s).toList)
    (f g : BatchFile) :
    uniqueFileName toLowerCase toISOString f.1.originalName f.2.now f.2.random =
        uniqueFileName toLowerCase toISOString g.1.originalName g.2.now g.2.random ↔
      Collide toLowerCase toISOString f g := by
  rw [← String.toList_inj, toList_name, toList_name]
  constructor
  · intro h
    rcases endOf_eq hlower f.1.originalName with hf | ⟨e, he, hf⟩ <;>
      rcases endOf_eq hlower g.1.originalName with hg | ⟨e', he', hg⟩ <;> rw [hf, hg] at h
    · rw [List.append_nil, List.append_nil] at h
      obtain ⟨hstem, htime, hdraw⟩ := append_stampOf_inj h
      exact Or.inl ⟨hstem, hf.trans hg.symm, htime, hdraw⟩
    · rw [List.append_nil] at h
      obtain ⟨mid, hmid, hstem⟩ := embeds_of_append rfl h.symm
      exact Or.inr (Or.inr ⟨mid, by rw [hg, hmid], hf, hstem⟩)
    · rw [List.append_nil] at h
      obtain ⟨mid, hmid, hstem⟩ := embeds_of_append rfl h
      exact Or.inr (Or.inl ⟨mid, by rw [hf, hmid], hg, hstem⟩)
    · obtain ⟨hfirst, hext⟩ := append_dash_inj he he' h
      obtain ⟨hstem, htime, hdraw⟩ := append_stampOf_inj hfirst
      exact Or.inl ⟨hstem, by rw [hf, hg, hext], htime, hdraw⟩
  · rintro (⟨hstem, hend, htime, hdraw⟩ | ⟨mid, hf, hg, hstem⟩ | ⟨mid, hg, hf, hstem⟩)
    · rw [hstem, hend, stampOf, stampOf, htime, hdraw]
    · rw [hf, hg, hstem]
      simp
    · rw [hf, hg, hstem]
      simp

end Stamps

/-! ## Distinct keys -/

/-- A key is one name after what the visibility and the folder make. -/
theorem exists_joinKey (v : Visibility) (folder : String) :
    ∃ before, ∀ filename : String, Plain filename.toList → filename.toList ≠ [] →
      (joinKey [v.value, folder, filename]).toList = before ++ filename.toList := by
  obtain ⟨hvtrim, hvempty, hvne⟩ := trim_of_normalized (normalized_value v)
  have hname : ∀ filename : String, Plain filename.toList → filename.toList ≠ [] →
      filename ≠ "" ∧ trimTrailing (trimLeading filename.toList) = filename.toList := by
    intro filename hplain hne
    refine ⟨fun hempty => hne (by rw [hempty]; rfl), ?_⟩
    have hends : ∀ s : List Char, '/' ∉ s → s.dropWhile (· = '/') = s := by
      intro s hs
      cases s with
      | nil => rfl
      | cons c s =>
          have hc : c ≠ '/' := fun hc => hs (hc ▸ List.mem_cons_self)
          simp [hc]
    have hslash : '/' ∉ filename.toList := fun hslash => (hplain _ hslash).1 rfl
    rw [trimLeading, hends _ hslash, trimTrailing, hends _ (by simpa using hslash),
      List.reverse_reverse]
  by_cases hfolder : folder = "" ∨ trimTrailing (trimLeading folder.toList) = []
  · refine ⟨v.value.toList ++ ['/'], fun filename hplain hne => ?_⟩
    obtain ⟨hnempty, hntrim⟩ := hname filename hplain hne
    rcases hfolder with rfl | hfolder
    · simp [joinKey, hvempty, hnempty, hvtrim, hntrim, hvne, hne, ofSegments]
    · by_cases hempty : folder = ""
      · subst hempty
        simp [joinKey, hvempty, hnempty, hvtrim, hntrim, hvne, hne, ofSegments]
      · simp [joinKey, hvempty, hnempty, hempty, hfolder, hvtrim, hntrim, hvne, hne, ofSegments]
  · obtain ⟨hempty, hne'⟩ := not_or.1 hfolder
    refine ⟨v.value.toList ++ '/' :: (trimTrailing (trimLeading folder.toList) ++ ['/']),
      fun filename hplain hne => ?_⟩
    obtain ⟨hnempty, hntrim⟩ := hname filename hplain hne
    simp [joinKey, hvempty, hnempty, hempty, hne', hvtrim, hntrim, hvne, hne, ofSegments]

def StorageService.keysOf (env : UploadEnv) (options : UploadOptions) (files : List BatchFile) :
    List String :=
  (itemsOf env options files).map fun item => item.2.key

theorem StorageService.key_eq_iff {env : UploadEnv}
    (htexts : NameTexts env.runtime.toLowerCase env.toISOString)
    (hlower : ∀ s, '.' ∉ s.toList → '.' ∉ (env.runtime.toLowerCase s).toList)
    (options : UploadOptions) (f g : BatchFile) :
    (buildSaveTarget env f.2.now f.2.random f.1 options).key =
        (buildSaveTarget env g.2.now g.2.random g.1 options).key ↔
      Collide env.runtime.toLowerCase env.toISOString f g := by
  obtain ⟨before, hbefore⟩ := exists_joinKey options.visibility options.folder
  have hkey : ∀ h : BatchFile, (buildSaveTarget env h.2.now h.2.random h.1 options).key.toList =
      before ++ (uniqueFileName env.runtime.toLowerCase env.toISOString h.1.originalName h.2.now
        h.2.random).toList := fun h =>
    hbefore _ (plain_uniqueFileName htexts _ _ _) (proper_uniqueFileName _ _ _).1
  rw [← name_eq_iff hlower f g, ← String.toList_inj, hkey, hkey, List.append_cancel_left_eq,
    String.toList_inj]

/-- The keys of a batch are distinct exactly when no two of its files, as they are stored,
collide. -/
theorem StorageService.nodup_keysOf_iff (env : UploadEnv)
    (htexts : NameTexts env.runtime.toLowerCase env.toISOString)
    (hlower : ∀ s, '.' ∉ s.toList → '.' ∉ (env.runtime.toLowerCase s).toList)
    (files processed : List BatchFile) (options : UploadOptions)
    (hprocessed : processMany env files = .ok processed) :
    (∀ {σ ν : Type} (provider : IStorageProvider σ ν) (s : σ),
      uploadMany provider env files options s =
        saveMany provider s (itemsOf env options processed)) ∧
    ((keysOf env options processed).Nodup ↔
      processed.Pairwise fun f g =>
        ¬ Collide env.runtime.toLowerCase env.toISOString f g) := by
  refine ⟨fun provider s => by rw [uploadMany, hprocessed], ?_⟩
  simp only [keysOf, itemsOf, List.map_map, List.Nodup, List.pairwise_map]
  exact List.Pairwise.iff fun f g => not_congr (key_eq_iff htexts hlower options f g)

/-! ## What a batch leaves -/

/-- A batch of keys with places of their own leaves every file at its place, and everything else
as it was. -/
theorem contents_saveMany {ν : Type} (store : ObjectStore ν)
    {items : List (UploadInput × SaveTarget)} {s : store.State}
    (hvisibility : ∀ item ∈ items, visibilityOf item.2.key = .ok item.2.visibility)
    (hplace : ∀ item ∈ items, ∃ p, store.place item.2.key = some p)
    (hdistinct : items.Pairwise fun a b => store.place a.2.key ≠ store.place b.2.key) :
    (∀ item ∈ items, ∀ p, store.place item.2.key = some p →
      store.contents (StorageService.saveMany store.provider s items).2 p =
        some item.1.buffer) ∧
    ∀ p, (∀ item ∈ items, store.place item.2.key ≠ some p) →
      store.contents (StorageService.saveMany store.provider s items).2 p =
        store.contents s p := by
  induction items generalizing s with
  | nil => exact ⟨by simp, fun _ _ => rfl⟩
  | cons item items ih =>
      obtain ⟨hv, hvs⟩ := List.forall_mem_cons.1 hvisibility
      obtain ⟨⟨q, hq⟩, hqs⟩ := List.forall_mem_cons.1 hplace
      obtain ⟨hne, hrest⟩ := List.pairwise_cons.1 hdistinct
      obtain ⟨file, s', hsave, -, hcontents⟩ := store.save_of_some item.1 item.2 s q hv hq
      obtain ⟨hkept, hframe⟩ := ih (s := s') hvs hqs hrest
      have hafter : (StorageService.saveMany store.provider s (item :: items)).2 =
          (StorageService.saveMany store.provider s' items).2 := by
        simp only [StorageService.saveMany, hsave]
      rw [hafter]
      constructor
      · intro other hother p hp
        rcases List.mem_cons.1 hother with rfl | hother
        · obtain rfl : q = p := Option.some.inj (hq.symm.trans hp)
          rw [hframe q fun item' hitem' he => hne item' hitem' (hq.trans he.symm), hcontents,
            Function.update_self]
        · exact hkept other hother p hp
      · intro p hp
        obtain ⟨hpq, hps⟩ := List.forall_mem_cons.1 hp
        rw [hframe p hps, hcontents, Function.update_of_ne]
        rintro rfl
        exact hpq hq

/-- A store that gives the keys filed under one visibility places of their own. -/
def Separates {ν : Type} (store : ObjectStore ν) (cwd : Path) (cfg : LocalConfig) : Prop :=
  ∀ v key key', Filed cwd cfg v key → Filed cwd cfg v key' →
    (∃ p, store.place key = some p) ∧ (store.place key = store.place key' → key = key')

theorem separates_localObjects (ν : Numbers) (hmac : String → String → List UInt8) (cwd : Path)
    (cfg : LocalConfig) : Separates (localObjects ν hmac cwd cfg) cwd cfg := by
  intro v key key' h h'
  have hplace : ∀ {key}, Filed cwd cfg v key → (localObjects ν hmac cwd cfg).place key =
      some (LocalStorageProvider.keyFile cwd cfg key) := by
    intro key h
    simp [localObjects, h.sanitized, Except.toOption]
  refine ⟨⟨_, hplace h⟩, fun he => ?_⟩
  rw [hplace h, hplace h'] at he
  exact (keyFile_inj (normalized_of_sanitizeKey h.sanitized)
    (normalized_of_sanitizeKey h'.sanitized)).1 (Option.some.inj he)

theorem separates_supabaseObjects {ν : Type} (getPublicUrl : String → String → String)
    (createSignedUrl : String → String → ν → Buckets → Except ClientError String)
    {scfg : SupabaseConfig} (hbuckets : scfg.publicBucket ≠ scfg.privateBucket) (cwd : Path)
    (cfg : LocalConfig) :
    Separates (supabaseObjects getPublicUrl createSignedUrl scfg) cwd cfg := by
  intro v key key' h h'
  have hplace : ∀ {key}, Filed cwd cfg v key →
      (supabaseObjects getPublicUrl createSignedUrl scfg).place key =
        some (SupabaseStorageProvider.location scfg key) := by
    intro key h
    simp [supabaseObjects, h.sanitized, Except.toOption]
  have hhead : ∀ {key}, Filed cwd cfg v key →
      (segments key.toList).head? = some v.value.toList := fun h =>
    head_of_visibilityOf h.visibility h.sanitized
  refine ⟨⟨_, hplace h⟩, fun he => ?_⟩
  rw [hplace h, hplace h'] at he
  rcases SupabaseStorageProvider.location_inj hbuckets (normalized_of_sanitizeKey h.sanitized)
    (normalized_of_sanitizeKey h'.sanitized) (Option.some.inj he) with hsame | halias | halias
  · exact hsame
  · exact absurd (hhead h) (halias.2 v)
  · exact absurd (hhead h') (halias.2 v)

/-- After the saves of a batch with distinct keys, each of its files is where its key says. -/
theorem StorageService.kept_of_nodup {ν : Type} {store : ObjectStore ν} {cwd : Path}
    {cfg : LocalConfig} (hstore : Separates store cwd cfg) {env : UploadEnv}
    (htexts : NameTexts env.runtime.toLowerCase env.toISOString) {options : UploadOptions}
    (hfolder : FolderAllowed options.folder) {files : List BatchFile}
    (hnodup : (keysOf env options files).Nodup) (s : store.State) :
    ∀ item ∈ itemsOf env options files, ∀ p, store.place item.2.key = some p →
      store.contents (saveMany store.provider s (itemsOf env options files)).2 p =
        some item.1.buffer := by
  have hfiled : ∀ item ∈ itemsOf env options files,
      Filed cwd cfg options.visibility item.2.key ∧ item.2.visibility = options.visibility := by
    intro item hitem
    obtain ⟨file, -, rfl⟩ := List.mem_map.1 hitem
    exact ⟨filed_buildSaveTarget htexts _ _ _ hfolder cwd cfg, rfl⟩
  refine (contents_saveMany store (fun item hitem => ?_) (fun item hitem => ?_) ?_).1
  · obtain ⟨hkey, hv⟩ := hfiled item hitem
    rw [hkey.visibility, hv]
  · exact (hstore _ _ _ (hfiled item hitem).1 (hfiled item hitem).1).1
  · refine (List.pairwise_map.1 hnodup).imp_of_mem fun ha hb hne he => hne ?_
    exact (hstore _ _ _ (hfiled _ ha).1 (hfiled _ hb).1).2 he

/-- Two PNGs that differ in their last byte, under the name that a phone gives to its photos. -/
def twins (r r' : Reading) : List BatchFile :=
  [(⟨photoFile.buffer ++ [1], "image.png", "image/png", 9⟩, r),
    (⟨photoFile.buffer ++ [2], "image.png", "image/png", 9⟩, r')]

def avatarOptions : UploadOptions := ⟨.PUBLIC, "avatars"⟩

/-- They are stored as they come, whatever is read for their names. -/
theorem StorageService.processMany_twins (r r' : Reading) :
    processMany uploadEnvSample (twins r r') = .ok (twins r r') := by
  have hvalid : FileValidationService.validateMany (storageValidators uploadEnvSample.runtime)
      ((twins ⟨0, 0⟩ ⟨0, 0⟩).map Prod.fst) uploadEnvSample.config.defaultValidation =
        .ok () := by
    decide +kernel
  have hsame : (twins r r').map Prod.fst = (twins ⟨0, 0⟩ ⟨0, 0⟩).map Prod.fst := rfl
  rw [processMany, hsame, hvalid]
  rfl

theorem lowerSample_point (s : String) (h : '.' ∉ s.toList) : '.' ∉ (lowerSample s).toList := by
  intro hmem
  rw [lowerSample, String.toList_ofList] at hmem
  obtain ⟨c, hc, hpoint⟩ := List.mem_map.1 hmem
  exact h (toLower_eq (by decide) hpoint ▸ hc)

theorem StorageService.nodup_keysOf_apart :
    (keysOf uploadEnvSample avatarOptions (twins ⟨0, 1000⟩ ⟨0, 1001⟩)).Nodup := by
  refine ((nodup_keysOf_iff uploadEnvSample nameTexts_sample lowerSample_point _ _ avatarOptions
    (processMany_twins _ _)).2).2 (List.pairwise_pair.2 ?_)
  have hend : endOf lowerSample "image.png" ≠ [] := by decide +kernel
  rintro (hsame | ⟨_, -, hempty, -⟩ | ⟨_, -, hempty, -⟩)
  · exact absurd hsame.2.2.2 (by decide)
  · exact hend hempty
  · exact hend hempty

/-- One clock reading and one draw: the keys are equal, and the second file is all that is left
of the batch. -/
theorem StorageService.not_nodup_keysOf_twins :
    (¬ ∀ (env : UploadEnv) (files processed : List BatchFile) (options : UploadOptions),
      NameTexts env.runtime.toLowerCase env.toISOString →
      (∀ s, '.' ∉ s.toList → '.' ∉ (env.runtime.toLowerCase s).toList) →
      processMany env files = .ok processed → (keysOf env options processed).Nodup) ∧
    ∀ key ∈ keysOf uploadEnvSample avatarOptions (twins ⟨0, 1000⟩ ⟨0, 1000⟩),
      providerSample.read key (uploadMany providerSample uploadEnvSample
        (twins ⟨0, 1000⟩ ⟨0, 1000⟩) avatarOptions ⟨fun _ => none, []⟩).2 =
          .ok (photoFile.buffer ++ [2]) := by
  have hkept : ∀ key ∈ keysOf uploadEnvSample avatarOptions (twins ⟨0, 1000⟩ ⟨0, 1000⟩),
      providerSample.read key (saveMany providerSample ⟨fun _ => none, []⟩
        (itemsOf uploadEnvSample avatarOptions (twins ⟨0, 1000⟩ ⟨0, 1000⟩))).2 =
          .ok (photoFile.buffer ++ [2]) := by
    decide +kernel
  refine ⟨fun h => ?_, by simpa only [uploadMany, processMany_twins] using hkept⟩
  have hnodup := h uploadEnvSample _ _ avatarOptions nameTexts_sample lowerSample_point
    (processMany_twins ⟨0, 1000⟩ ⟨0, 1000⟩)
  exact absurd hnodup (by decide +kernel)

end NestStarter.Storage
