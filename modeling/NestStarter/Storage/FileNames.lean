import NestStarter.Storage.Streaming
import NestStarter.Storage.Upload

/-! # The names uploads are stored under

The key that `upload` makes up for a file of any name: one segment below the folder, below the
visibility.
-/

namespace NestStarter.Storage

open NestStarter.Core.PosixPath
open NestStarter.Accounts (isWhiteSpace)

/-- No separator and no NUL. -/
def Plain (s : List Char) : Prop := ∀ c ∈ s, c ≠ '/' ∧ c ≠ '\\' ∧ c ≠ '\x00'

instance (s : List Char) : Decidable (Plain s) := List.decidableBAll _ s

theorem Plain.subset {s t : List Char} (h : Plain s) (hts : ∀ c ∈ t, c ∈ s) : Plain t :=
  fun c hc => h c (hts c hc)

theorem Plain.append {s t : List Char} (hs : Plain s) (ht : Plain t) : Plain (s ++ t) := by
  intro c hc
  rcases List.mem_append.1 hc with hc | hc
  · exact hs c hc
  · exact ht c hc

/-- What a text of the runtime has to be for the names: lower case brings in no separator and no
NUL, and a timestamp is written in digits, signs, colons, a point, `T` and `Z`. -/
structure NameTexts (toLowerCase : String → String) (toISOString : Instant → String) : Prop where
  lower : ∀ s, Plain s.toList → Plain (toLowerCase s).toList
  stamp : ∀ now, ∀ c ∈ (toISOString now).toList,
    c.isDigit = true ∨ c ∈ ['+', '-', ':', '.', 'T', 'Z']

theorem plain_of_digits {s : List Char}
    (h : ∀ c ∈ s, c.isDigit = true ∨ c ∈ ['+', '-', ':', '.', 'T', 'Z']) : Plain s := by
  intro c hc
  refine ⟨?_, ?_, ?_⟩
  all_goals
    rintro rfl
    exact absurd (h _ hc) (by decide)

theorem isDigit_of_mem_toString {c : Char} {n : Nat} (h : c ∈ (toString n).toList) :
    c.isDigit = true := by
  rw [Nat.toString_eq_repr, Nat.toList_repr] at h
  exact Nat.isDigit_of_mem_toDigits (by decide) (by decide) h

theorem plain_toString (n : Nat) : Plain (toString n).toList :=
  plain_of_digits fun _ hc => Or.inl (isDigit_of_mem_toString hc)

theorem mem_dashRuns {p : Char → Bool} {inRun : Bool} {s : List Char} {c : Char}
    (h : c ∈ dashRuns p inRun s) : c = '-' ∨ c ∈ s := by
  induction s generalizing inRun with
  | nil => simp [dashRuns] at h
  | cons d s ih =>
      rw [dashRuns] at h
      split at h
      · split at h
        · exact (ih h).imp_right (List.mem_cons_of_mem d)
        · rcases List.mem_cons.1 h with rfl | h
          · exact Or.inl rfl
          · exact (ih h).imp_right (List.mem_cons_of_mem d)
      · rcases List.mem_cons.1 h with rfl | h
        · exact Or.inr List.mem_cons_self
        · exact (ih h).imp_right (List.mem_cons_of_mem d)

theorem Plain.dashRuns {p : Char → Bool} {inRun : Bool} {s : List Char} (h : Plain s) :
    Plain (dashRuns p inRun s) := by
  intro c hc
  rcases mem_dashRuns hc with rfl | hc
  · decide
  · exact h c hc

theorem Plain.extractBaseName {s : List Char} (h : Plain s) : Plain (extractBaseName s) := by
  unfold Storage.extractBaseName
  split
  · refine h.subset fun c hc => ?_
    have hc := List.mem_of_mem_tail (List.mem_reverse.1 hc)
    exact List.mem_reverse.1 ((List.dropWhile_sublist _).mem hc)
  · exact h

theorem plain_extractExtension {toLowerCase : String → String} {toISOString : Instant → String}
    (htexts : NameTexts toLowerCase toISOString) {s : String} (h : Plain s.toList) :
    Plain (extractExtension toLowerCase s).toList := by
  unfold extractExtension afterLastDot
  by_cases hdot : '.' ∈ s.toList
  · simp only [if_pos hdot]
    split
    · simp [Plain]
    · refine htexts.lower _ ?_
      rw [String.toList_ofList]
      refine h.subset fun c hc => ?_
      exact List.mem_reverse.1 ((List.takeWhile_sublist _).mem (List.mem_reverse.1 hc))
  · simp [hdot, Plain]

/-- The original name without separators and NULs. -/
def safeName (originalName : String) : List Char :=
  (originalName.toList.map fun c => if c = '/' ∨ c = '\\' then '-' else c).filter (· ≠ '\x00')

/-- What a name begins with. -/
def stemOf (originalName : String) : List Char :=
  let stem := dashRuns (· = '-') false
    ((dashRuns isWhiteSpace false (extractBaseName (safeName originalName))).dropWhile (· = '.'))
  if stem = [] then "file".toList else stem

def endOf (toLowerCase : String → String) (originalName : String) : List Char :=
  let ext := extractExtension toLowerCase (String.ofList (safeName originalName))
  if ext ≠ "" then '.' :: ext.toList else []

def timestampOf (toISOString : Instant → String) (now : Instant) : List Char :=
  (toISOString now).toList.filter fun c => ¬ ['-', ':', '.', 'T', 'Z'].contains c

theorem toList_uniqueFileName (toLowerCase : String → String) (toISOString : Instant → String)
    (originalName : String) (now : Instant) (random : Nat) :
    (uniqueFileName toLowerCase toISOString originalName now random).toList =
      stemOf originalName ++ '-' :: (timestampOf toISOString now ++ '-' ::
        ((toString random).toList ++ endOf toLowerCase originalName)) := by
  unfold uniqueFileName stemOf endOf timestampOf safeName
  simp only
  split <;> split <;> simp

theorem plain_safeName (originalName : String) : Plain (safeName originalName) := by
  intro c hc
  obtain ⟨hmem, hnul⟩ := List.mem_filter.1 hc
  obtain ⟨d, -, hd⟩ := List.mem_map.1 hmem
  refine ⟨?_, ?_, by simpa using hnul⟩
  all_goals
    rintro rfl
    split at hd
    · cases hd
    · next hsep => exact hsep (by simp [hd])

theorem plain_stemOf (originalName : String) : Plain (stemOf originalName) := by
  have hbase : Plain (dashRuns isWhiteSpace false (extractBaseName (safeName originalName))) :=
    (plain_safeName originalName).extractBaseName.dashRuns
  unfold stemOf
  simp only
  split
  · decide
  · exact (hbase.subset fun c hc => (List.dropWhile_sublist _).mem hc).dashRuns

section Names

variable {toLowerCase : String → String} {toISOString : Instant → String}
  (htexts : NameTexts toLowerCase toISOString)
include htexts

theorem plain_endOf (originalName : String) : Plain (endOf toLowerCase originalName) := by
  have hext := plain_extractExtension htexts (s := String.ofList (safeName originalName))
    (by simpa using plain_safeName originalName)
  unfold endOf
  simp only
  split
  · exact List.forall_mem_cons.2 ⟨by decide, hext⟩
  · simp [Plain]

theorem plain_timestampOf (now : Instant) : Plain (timestampOf toISOString now) :=
  (plain_of_digits (htexts.stamp now)).subset fun _ hc => (List.mem_filter.1 hc).1

theorem plain_uniqueFileName (originalName : String) (now : Instant) (random : Nat) :
    Plain (uniqueFileName toLowerCase toISOString originalName now random).toList := by
  rw [toList_uniqueFileName]
  refine (plain_stemOf originalName).append (List.forall_mem_cons.2 ⟨by decide, ?_⟩)
  refine (plain_timestampOf htexts now).append (List.forall_mem_cons.2 ⟨by decide, ?_⟩)
  exact (plain_toString random).append (plain_endOf htexts originalName)

omit htexts in
/-- The name has a dash, so it is not a dot segment. -/
theorem proper_uniqueFileName (originalName : String) (now : Instant) (random : Nat) :
    Proper (uniqueFileName toLowerCase toISOString originalName now random).toList := by
  have hdash : '-' ∈ (uniqueFileName toLowerCase toISOString originalName now random).toList := by
    rw [toList_uniqueFileName]
    exact List.mem_append_right _ List.mem_cons_self
  refine ⟨?_, ?_, ?_⟩
  all_goals
    intro h
    rw [h] at hdash
    exact absurd hdash (by decide)

end Names

/-! ## The key -/

/-- A folder as `upload` is given it: none, or one that `sanitizeKey` leaves unchanged. -/
def FolderAllowed (folder : String) : Prop := folder = "" ∨ sanitizeKey folder = .ok folder

def folderSegments (folder : String) : List Segment :=
  if folder = "" then [] else segments folder.toList

theorem trim_of_normalized {s : String} (h : Normalized s) :
    trimTrailing (trimLeading s.toList) = s.toList ∧ s ≠ "" ∧ s.toList ≠ [] := by
  have hne : s.toList ≠ [] := by
    intro hnil
    exact (h.1 [] (by rw [hnil]; decide)).1 rfl
  refine ⟨?_, fun hempty => hne (by rw [hempty]; rfl), hne⟩
  rw [trimLeading_of_proper h.1, trimTrailing_of_proper h.1]

/-- A plain name that is no dot segment is a key of one segment. -/
theorem normalized_of_plain {s : String} (h : Plain s.toList) (hproper : Proper s.toList) :
    Normalized s ∧ segments s.toList = [s.toList] := by
  have hsegments : segments s.toList = [s.toList] :=
    List.splitOn_eq_singleton fun hslash => (h _ hslash).1 rfl
  refine ⟨⟨?_, fun hc => (h _ hc).2.1 rfl, fun hc => (h _ hc).2.2 rfl⟩, hsegments⟩
  rw [hsegments]
  simpa using hproper

theorem normalized_value (v : Visibility) : Normalized v.value := by
  unfold Normalized
  cases v <;> decide +kernel

theorem joinKey_of_normalized {v : Visibility} {folder filename : String}
    (hfolder : FolderAllowed folder) (hname : Normalized filename) :
    Normalized (joinKey [v.value, folder, filename]) ∧
      segments (joinKey [v.value, folder, filename]).toList =
        v.value.toList :: folderSegments folder ++ segments filename.toList := by
  obtain ⟨hvtrim, hvempty, hvne⟩ := trim_of_normalized (normalized_value v)
  obtain ⟨hntrim, hnempty, hnne⟩ := trim_of_normalized hname
  have hvsegments := (visibility_segment v).1
  have hv := normalized_value v
  rcases hfolder with rfl | hfolder
  · have hkey : (joinKey [v.value, "", filename]).toList =
        v.value.toList ++ '/' :: filename.toList := by
      simp [joinKey, hvempty, hnempty, hvtrim, hntrim, hvne, hnne, ofSegments]
    have hsegments : segments (joinKey [v.value, "", filename]).toList =
        v.value.toList :: segments filename.toList := by
      rw [hkey, segments_append_slash, hvsegments]
      rfl
    refine ⟨⟨?_, ?_, ?_⟩, hsegments⟩
    · rw [hsegments]
      exact List.forall_mem_cons.2 ⟨(visibility_segment v).2.1, hname.1⟩
    · rw [hkey]
      simp [hv.2.1, hname.2.1]
    · rw [hkey]
      simp [hv.2.2, hname.2.2]
  · have hf := normalized_of_sanitizeKey hfolder
    obtain ⟨hftrim, hfempty, hfne⟩ := trim_of_normalized hf
    have hkey : (joinKey [v.value, folder, filename]).toList =
        v.value.toList ++ '/' :: (folder.toList ++ '/' :: filename.toList) := by
      simp [joinKey, hvempty, hnempty, hfempty, hvtrim, hntrim, hftrim, hvne, hnne, hfne,
        ofSegments]
    have hsegments : segments (joinKey [v.value, folder, filename]).toList =
        v.value.toList :: folderSegments folder ++ segments filename.toList := by
      rw [hkey, segments_append_slash, segments_append_slash, hvsegments, folderSegments,
        if_neg hfempty]
      rfl
    refine ⟨⟨?_, ?_, ?_⟩, hsegments⟩
    · rw [hsegments, folderSegments, if_neg hfempty]
      simp only [List.cons_append, List.forall_mem_cons, List.forall_mem_append]
      exact ⟨(visibility_segment v).2.1, hf.1, hname.1⟩
    · rw [hkey]
      simp [hv.2.1, hf.2.1, hname.2.1]
    · rw [hkey]
      simp [hv.2.2, hf.2.2, hname.2.2]

/-- A key is filed under its visibility: it is normalised, it leads below the directory of the
visibility, both tests of a key's visibility find it, and it is the visibility before what is left
when that is stripped. -/
structure Filed (cwd : Path) (cfg : LocalConfig) (v : Visibility) (key : String) : Prop where
  sanitized : sanitizeKey key = .ok key
  below : ∃ rest, rest ≠ [] ∧ resolveFile cwd [cfg.basePath.toList, key.toList] =
    resolveFile cwd [cfg.basePath.toList, v.value.toList] ++ rest
  visibility : visibilityOf key = .ok v
  bucket : SupabaseStorageProvider.visibilityFromKey key = .ok v
  stripped : ∃ path, stripPrefix key v.value = .ok path ∧ v.value ++ "/" ++ path = key

theorem filed_of_segments {cwd : Path} {cfg : LocalConfig} {v : Visibility} {key : String}
    {rest : List Segment} (h : Normalized key) (hrest : rest ≠ [])
    (hsegments : segments key.toList = v.value.toList :: rest)
    (hvisibility : visibilityOf key = .ok v) : Filed cwd cfg v key := by
  have hkey := sanitizeKey_of_normalized h
  have hhead : (segments key.toList).head? = some v.value.toList := by
    rw [hsegments]
    rfl
  refine ⟨hkey, ⟨rest, hrest, ?_⟩, hvisibility, ?_, String.ofList (ofSegments rest), ?_, ?_⟩
  · rw [resolveFile_visibility, resolveFile_pair, isAbsolute_of_proper h.1, if_neg (by simp),
      walk_of_proper h.1, hsegments]
    simp [visibilityRoot]
  · rw [SupabaseStorageProvider.visibilityFromKey_eq, hkey]
    exact congrArg Except.ok (SupabaseStorageProvider.keyVisibility_of_head hhead)
  · rw [SupabaseStorageProvider.stripPrefix_eq, hkey]
    simp only [Except.map, hhead, if_true]
    rw [hsegments]
    rfl
  · obtain ⟨s, tail, rfl⟩ := List.exists_cons_of_ne_nil hrest
    have htext : key.toList = v.value.toList ++ '/' :: ofSegments (s :: tail) := by
      rw [← ofSegments_segments key.toList, hsegments]
      simp [ofSegments]
    apply String.toList_injective
    rw [htext]
    simp

theorem StorageService.filed_buildSaveTarget {env : UploadEnv}
    (htexts : NameTexts env.runtime.toLowerCase env.toISOString) (now : Instant) (random : Nat)
    (input : UploadInput) {options : UploadOptions} (hfolder : FolderAllowed options.folder)
    (cwd : Path) (cfg : LocalConfig) :
    Filed cwd cfg options.visibility (buildSaveTarget env now random input options).key := by
  have hname := normalized_of_plain (plain_uniqueFileName htexts input.originalName now random)
    (proper_uniqueFileName input.originalName now random)
  have hkey := joinKey_of_normalized (v := options.visibility) hfolder hname.1
  refine filed_of_segments hkey.1 ?_ hkey.2 (visibilityOf_joinKey options.visibility _)
  rw [hname.2]
  simp

/-- Whatever its name, a file is uploaded under a key that is filed under the visibility asked
for. -/
theorem StorageService.filed_upload (env : UploadEnv)
    (htexts : NameTexts env.runtime.toLowerCase env.toISOString) (now : Instant) (random : Nat)
    (input : UploadInput) (options : UploadOptions) (hfolder : FolderAllowed options.folder)
    (cwd : Path) (cfg : LocalConfig) :
    Filed cwd cfg options.visibility (buildSaveTarget env now random input options).key ∧
    ∀ finalInput target, prepare env now random input options = .ok (finalInput, target) →
      Filed cwd cfg options.visibility target.key := by
  refine ⟨filed_buildSaveTarget htexts now random input hfolder cwd cfg, ?_⟩
  intro finalInput target hprepare
  rw [target_of_prepare hprepare]
  exact filed_buildSaveTarget htexts now random finalInput hfolder cwd cfg

theorem toLower_eq {c d : Char} (hd : d.toNat < 97) (h : c.toLower = d) : c = d := by
  unfold Char.toLower at h
  split at h
  · next hupper =>
    have hlow : 65 ≤ c.toNat := hupper.1
    have hhigh : c.toNat ≤ 90 := hupper.2
    have hval : (c.val + 32).toNat = d.toNat := congrArg Char.toNat h
    have hadd : (c.val + 32).toNat = c.toNat + 32 := by
      rw [UInt32.toNat_add]
      show (c.toNat + 32) % 2 ^ 32 = _
      omega
    omega
  · exact h

/-- One clock reading, whatever the time. -/
def isoSample (_ : Instant) : String := "2026-01-31T08:30:00.250Z"

theorem nameTexts_sample : NameTexts lowerSample isoSample where
  lower s h := by
    intro c hc
    rw [lowerSample, String.toList_ofList] at hc
    obtain ⟨d, hd, hdc⟩ := List.mem_map.1 hc
    refine ⟨?_, ?_, ?_⟩
    · rintro rfl
      exact (h d hd).1 (toLower_eq (by decide) hdc)
    · rintro rfl
      exact (h d hd).2.1 (toLower_eq (by decide) hdc)
    · rintro rfl
      exact (h d hd).2.2 (toLower_eq (by decide) hdc)
  stamp _ c hc := by
    have hall : "2026-01-31T08:30:00.250Z".toList.all
        (fun c => c.isDigit || ['+', '-', ':', '.', 'T', 'Z'].contains c) = true := by
      decide +kernel
    simpa using List.all_eq_true.1 hall c hc

/-- A service that keeps files as they come. -/
def uploadEnvSample : UploadEnv where
  runtime := runtimeSample
  toISOString := isoSample
  process input _ := .ok input
  config := ⟨defaultValidationPolicy, ⟨false, 80, 50, "150KB", "jpeg"⟩⟩

def uploadNamed (name : String) : UploadInput := ⟨[0], name, "image/png", 1⟩

theorem StorageService.filed_upload_dots :
    FolderAllowed "avatars" ∧
    Filed "/srv".toList localConfigSample .PRIVATE
      (buildSaveTarget uploadEnvSample 0 1000 (uploadNamed "../../etc/passwd")
        ⟨.PRIVATE, "avatars"⟩).key := by
  have hfolder : FolderAllowed "avatars" := Or.inr (by decide +kernel)
  exact ⟨hfolder, (filed_upload uploadEnvSample nameTexts_sample 0 1000
    (uploadNamed "../../etc/passwd") ⟨.PRIVATE, "avatars"⟩ hfolder "/srv".toList
    localConfigSample).1⟩

example : (StorageService.buildSaveTarget uploadEnvSample 0 1000
    (uploadNamed "../../etc/passwd") ⟨.PRIVATE, "avatars"⟩).key =
    "private/avatars/-.-20260131083000250-1000.-etc-passwd" := by decide +kernel

end NestStarter.Storage
