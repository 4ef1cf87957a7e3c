import Mathlib.Algebra.Order.Field.Basic
import Mathlib.Data.Rat.Cast.Order
import Mathlib.Tactic.Linarith
import NestStarter.I18n.Entries

/-! # Coverage of translations

`I18nValidator.validate` compares the entries of every language with those of the reference
language. The coverage of a language is a quotient of two counts, so entries outside the
reference make up for those that are missing in it.
-/

namespace NestStarter.I18n

open NestStarter.Core
open NestStarter.Core.PosixPath (Path)
open NestStarter.Shared (JsNumber)
open NestStarter.Accounts (trim)

abbrev Entries := OrderedMap String TranslationValue

structure TranslationStats where
  totalKeys : Nat
  missingKeys : List String
  extraKeys : List String
  emptyValues : List String
  identicalAcrossLangs : List String
  coverage : ℚ

def isBlank (t : TranslationValue) : Bool := trim t.value == ""

def coverageOf (validKeyCount referenceCount : Nat) : ℚ :=
  let rawCoverage := if referenceCount = 0 then 100 else (validKeyCount : ℚ) / referenceCount * 100
  min 100 (max 0 rawCoverage)

def statsOf (referenceKeys : List String) (langTranslations : Entries) : TranslationStats :=
  let emptyValues := (langTranslations.entries.filter fun e => isBlank e.2).map Prod.fst
  { totalKeys := langTranslations.size
    missingKeys := referenceKeys.filter fun key => !langTranslations.has key
    extraKeys := langTranslations.keys.filter fun key => !decide (key ∈ referenceKeys)
    emptyValues
    identicalAcrossLangs := []
    coverage := coverageOf (langTranslations.size - emptyValues.length) referenceKeys.length }

def computeStatistics (availableLanguages : List String) (referenceLanguage : String)
    (translations : OrderedMap String Entries) : OrderedMap String TranslationStats :=
  let referenceKeys := ((translations.get referenceLanguage).map OrderedMap.keys).getD []
  availableLanguages.foldl
    (fun stats lang => stats.setSome lang ((translations.get lang).map (statsOf referenceKeys)))
    .empty

/-- Whether all languages have the key, with one value. -/
def isIdentical (availableLanguages : List String) (translations : OrderedMap String Entries)
    (key : String) : Bool :=
  let values := availableLanguages.mapM fun lang =>
    ((translations.get lang).bind (·.get key)).map TranslationValue.value
  values.any fun values => (values.foldl addToSet []).length == 1

def computeIdenticalTranslations (availableLanguages allKeys : List String)
    (translations : OrderedMap String Entries) (stats : OrderedMap String TranslationStats) :
    OrderedMap String TranslationStats :=
  let identicalKeys := allKeys.filter (isIdentical availableLanguages translations)
  availableLanguages.foldl
    (fun stats lang => stats.setSome lang
      ((stats.get lang).map fun s => { s with identicalAcrossLangs := identicalKeys }))
    stats

structure ValidationResult where
  languageStats : OrderedMap String TranslationStats
  allKeys : List String
  keyParameters : OrderedMap String (List String)
  translations : OrderedMap String Entries
  availableLanguages : List String
  referenceLanguage : String
  isFullyCovered : Bool

def registerParameters (keyParameters : OrderedMap String (List String))
    (r : String × List String) : OrderedMap String (List String) :=
  if r.2.length = 0 then keyParameters
  else keyParameters.set r.1 (r.2.foldl addToSet ((keyParameters.get r.1).getD []))

def availableLanguages : List Dirent → List String
  | [] => []
  | .directory name _ :: rest => name :: availableLanguages rest
  | _ :: rest => availableLanguages rest

section Validate

variable (numberText : JsNumber → String) (basePath : Path) (referenceLanguage : String)
  (disk : List Dirent)

/-- The languages in the order they are loaded in. -/
def loadOrder : List String :=
  referenceLanguage :: (availableLanguages disk).filter (· ≠ referenceLanguage)

def loadTranslations : OrderedMap String Entries :=
  (loadOrder referenceLanguage disk).foldl
    (fun m lang => m.set lang (loadLanguageData numberText basePath disk lang).entries) .empty

/-- What loading registered. -/
def loadRegistered : List (String × List String) :=
  (loadOrder referenceLanguage disk).flatMap fun lang =>
    (loadLanguageData numberText basePath disk lang).registered

def validate : Except String ValidationResult :=
  let langs := availableLanguages disk
  if referenceLanguage ∉ langs then
    .error ("Reference language '" ++ referenceLanguage ++ "' not found in " ++
      String.ofList basePath)
  else
    let translations := loadTranslations numberText basePath referenceLanguage disk
    let registered := loadRegistered numberText basePath referenceLanguage disk
    let allKeys := (registered.map Prod.fst).foldl addToSet []
    let languageStats := computeIdenticalTranslations langs allKeys translations
      (computeStatistics langs referenceLanguage translations)
    .ok
      { languageStats, allKeys
        keyParameters := registered.foldl registerParameters .empty
        translations
        availableLanguages := langs
        referenceLanguage
        isFullyCovered := langs.all fun lang =>
          (languageStats.get lang).any fun s => s.coverage == 100 }

end Validate

namespace Entries

def translated (entries : Entries) (key : String) : Bool :=
  (entries.get key).any fun t => !isBlank t

theorem translated_iff {entries : Entries} {key : String} :
    entries.translated key = true ↔ ∃ t, entries.get key = some t ∧ isBlank t = false := by
  simp [translated, Option.any_eq_true]

theorem mem_keys_of_translated {entries : Entries} {key : String}
    (h : entries.translated key = true) : key ∈ entries.keys := by
  obtain ⟨t, ht, -⟩ := translated_iff.1 h
  exact entries.mem_keys_iff.2 ⟨t, ht⟩

/-- How many keys of the reference have no entry here, or a blank one. -/
def deficit (entries reference : Entries) : Nat :=
  (reference.keys.filter fun key => !entries.translated key).length

/-- How many entries here are not blank and have no key of the reference. -/
def surplus (entries reference : Entries) : Nat :=
  (entries.keys.filter fun key => entries.translated key && !decide (key ∈ reference.keys)).length

/-- Every key of the reference has an entry here that is not blank. -/
def Covers (entries reference : Entries) : Prop :=
  ∀ key ∈ reference.keys, ∃ t, entries.get key = some t ∧ trim t.value ≠ ""

theorem covers_iff {entries reference : Entries} :
    entries.Covers reference ↔ entries.deficit reference = 0 := by
  rw [deficit, List.length_eq_zero_iff, List.filter_eq_nil_iff]
  refine forall_congr' fun key => forall_congr' fun _ => ?_
  rw [Bool.not_eq_true', Bool.not_eq_false, translated_iff]
  simp [isBlank]

/-- The entries that are not blank, by their keys. -/
theorem map_fst_filter_isBlank (entries : Entries) :
    (entries.entries.filter fun e => !isBlank e.2).map Prod.fst =
      entries.keys.filter entries.translated := by
  rw [OrderedMap.keys, List.filter_map]
  refine congrArg (List.map Prod.fst) (List.filter_congr fun e he => ?_)
  rw [Function.comp_apply, translated, entries.get_eq_some_iff.2 he, Option.any_some]

theorem size_sub_emptyValues (entries : Entries) :
    entries.size - ((entries.entries.filter fun e => isBlank e.2).map Prod.fst).length =
      (entries.keys.filter entries.translated).length := by
  have hsplit := List.length_eq_length_filter_add (l := entries.entries) fun e => isBlank e.2
  rw [← map_fst_filter_isBlank, List.length_map, List.length_map, OrderedMap.size]
  omega

/-- Keys outside the reference count like those inside. -/
theorem length_translated_add_deficit (entries reference : Entries) :
    (entries.keys.filter entries.translated).length + entries.deficit reference =
      reference.size + entries.surplus reference := by
  have hshared : ((entries.keys.filter entries.translated).filter fun key =>
      decide (key ∈ reference.keys)).Perm (reference.keys.filter entries.translated) := by
    rw [List.perm_ext_iff_of_nodup ((entries.nodup_keys.filter _).filter _)
      (reference.nodup_keys.filter _)]
    intro key
    simp only [List.mem_filter, decide_eq_true_eq]
    constructor
    · exact fun h => ⟨h.2, h.1.2⟩
    · exact fun h => ⟨⟨mem_keys_of_translated h.2, h.2⟩, h.1⟩
  have hentries := List.length_eq_length_filter_add
    (l := entries.keys.filter entries.translated) fun key => decide (key ∈ reference.keys)
  have hreference := List.length_eq_length_filter_add (l := reference.keys) entries.translated
  rw [hshared.length_eq, List.filter_filter] at hentries
  rw [reference.length_keys] at hreference
  have hsurplus : (entries.keys.filter fun key =>
      (!decide (key ∈ reference.keys)) && entries.translated key).length =
      entries.surplus reference := by
    simp only [surplus, Bool.and_comm]
  rw [deficit]
  omega

end Entries

/-! ## The coverage of a language -/

theorem coverageOf_eq_hundred_iff {validKeyCount referenceCount : Nat} :
    coverageOf validKeyCount referenceCount = 100 ↔ referenceCount ≤ validKeyCount := by
  unfold coverageOf
  by_cases hzero : referenceCount = 0
  · subst hzero
    simp
  · have hpos : (0 : ℚ) < referenceCount := by exact_mod_cast Nat.pos_of_ne_zero hzero
    have hquotient : (100 : ℚ) ≤ (validKeyCount : ℚ) / referenceCount * 100 ↔
        (referenceCount : ℚ) ≤ validKeyCount := by
      rw [← one_le_div hpos]
      constructor <;> intro h <;> linarith
    rw [if_neg hzero, min_eq_left_iff, le_max_iff, hquotient, Nat.cast_le]
    constructor
    · intro h
      exact h.resolve_left (by norm_num)
    · exact Or.inr

/-- Doubles give the same answer: their rounding keeps the order, and it fixes 1, 100 and the
number before 1, whose hundredfold stays below 100. -/
theorem coverageOf_rounded {round : ℚ → ℚ} (hmono : Monotone round) (hone : round 1 = 1)
    (hhundred : round 100 = 100) (hbelow : round (1 - 1 / 2 ^ 53) = 1 - 1 / 2 ^ 53)
    (hproduct : round ((1 - 1 / 2 ^ 53) * 100) < 100) {validKeyCount referenceCount : Nat}
    (hpos : 0 < referenceCount) (hle : referenceCount ≤ 2 ^ 53) :
    min 100 (max 0 (round (round ((validKeyCount : ℚ) / referenceCount) * 100))) = 100 ↔
      coverageOf validKeyCount referenceCount = 100 := by
  have hpos' : (0 : ℚ) < referenceCount := by exact_mod_cast hpos
  rw [coverageOf_eq_hundred_iff, min_eq_left_iff, le_max_iff]
  constructor
  · intro h
    by_contra hlt
    have hsucc : (validKeyCount : ℚ) + 1 ≤ referenceCount := by exact_mod_cast not_le.1 hlt
    have hle' : (referenceCount : ℚ) ≤ 2 ^ 53 := by exact_mod_cast hle
    have hquotient : (validKeyCount : ℚ) / referenceCount ≤ 1 - 1 / 2 ^ 53 := by
      have hinv : (1 : ℚ) / 2 ^ 53 ≤ 1 / referenceCount := one_div_le_one_div_of_le hpos' hle'
      have hdiv : (validKeyCount : ℚ) / referenceCount ≤ 1 - 1 / referenceCount := by
        rw [div_le_iff₀ hpos', sub_mul, one_div_mul_cancel hpos'.ne']
        linarith
      linarith
    have hrounded : round ((validKeyCount : ℚ) / referenceCount) ≤ 1 - 1 / 2 ^ 53 :=
      hbelow ▸ hmono hquotient
    have hscaled : round (round ((validKeyCount : ℚ) / referenceCount) * 100) < 100 :=
      (hmono (mul_le_mul_of_nonneg_right hrounded (by norm_num))).trans_lt hproduct
    rcases h with h | h
    · norm_num at h
    · exact absurd h (not_le.2 hscaled)
  · intro h
    right
    have hquotient : (1 : ℚ) ≤ (validKeyCount : ℚ) / referenceCount := by
      rw [one_le_div hpos']
      exact_mod_cast h
    have hrounded : (1 : ℚ) ≤ round ((validKeyCount : ℚ) / referenceCount) :=
      hone ▸ hmono hquotient
    have hscaled : (100 : ℚ) ≤ round ((validKeyCount : ℚ) / referenceCount) * 100 := by linarith
    exact hhundred.symm.le.trans (hmono hscaled)

/-- A language is covered when its surplus makes up for its deficit. -/
theorem coverage_statsOf_iff (entries reference : Entries) :
    (statsOf reference.keys entries).coverage = 100 ↔
      entries.deficit reference ≤ entries.surplus reference := by
  have hcount := entries.length_translated_add_deficit reference
  rw [statsOf, coverageOf_eq_hundred_iff, entries.size_sub_emptyValues, reference.length_keys]
  omega

/-! ## The report -/

/-- Comparing the values across languages changes nothing else in the statistics. -/
theorem get_computeIdenticalTranslations {β : Type} {f : TranslationStats → β}
    (hf : ∀ s keys, f { s with identicalAcrossLangs := keys } = f s) (langs allKeys : List String)
    (translations : OrderedMap String Entries) (stats : OrderedMap String TranslationStats)
    (lang : String) :
    ((computeIdenticalTranslations langs allKeys translations stats).get lang).map f =
      (stats.get lang).map f := by
  unfold computeIdenticalTranslations
  generalize allKeys.filter (isIdentical langs translations) = identicalKeys
  induction langs generalizing stats with
  | nil => rfl
  | cons l langs ih =>
      rw [List.foldl_cons, ih, OrderedMap.get_setSome]
      by_cases hl : l = lang
      · subst hl
        cases stats.get l <;> simp [hf]
      · rw [if_neg hl]

section Report

variable (numberText : JsNumber → String) (basePath : Path) (referenceLanguage : String)
  (disk : List Dirent)

def languageEntries (lang : String) : Entries :=
  (loadLanguageData numberText basePath disk lang).entries

/-- Every language has, for every key of the reference language, an entry that is not blank. -/
def Complete : Prop :=
  ∀ lang ∈ availableLanguages disk,
    (languageEntries numberText basePath disk lang).Covers
      (languageEntries numberText basePath disk referenceLanguage)

/-- Some language misses a key of the reference or leaves it blank, and in every language at least
as many entries outside the reference are not blank. -/
def Masked : Prop :=
  (∀ lang ∈ availableLanguages disk,
    (languageEntries numberText basePath disk lang).deficit
        (languageEntries numberText basePath disk referenceLanguage) ≤
      (languageEntries numberText basePath disk lang).surplus
        (languageEntries numberText basePath disk referenceLanguage)) ∧
  ∃ lang ∈ availableLanguages disk,
    0 < (languageEntries numberText basePath disk lang).deficit
      (languageEntries numberText basePath disk referenceLanguage)

variable {numberText basePath referenceLanguage disk}

theorem get_loadTranslations {lang : String} (h : lang ∈ availableLanguages disk) :
    (loadTranslations numberText basePath referenceLanguage disk).get lang =
      some (languageEntries numberText basePath disk lang) := by
  have hmem : lang ∈ loadOrder referenceLanguage disk := by
    by_cases hlang : lang = referenceLanguage
    · exact hlang ▸ List.mem_cons_self
    · exact List.mem_cons_of_mem _ (List.mem_filter.2 ⟨h, by simpa using hlang⟩)
  have hget := OrderedMap.get_foldl_setSome .empty
    (fun l => some (languageEntries numberText basePath disk l)) (loadOrder referenceLanguage disk)
    lang
  rw [if_pos hmem] at hget
  exact hget

theorem get_computeStatistics (hreference : referenceLanguage ∈ availableLanguages disk)
    {lang : String} (h : lang ∈ availableLanguages disk) :
    (computeStatistics (availableLanguages disk) referenceLanguage
        (loadTranslations numberText basePath referenceLanguage disk)).get lang =
      some (statsOf (languageEntries numberText basePath disk referenceLanguage).keys
        (languageEntries numberText basePath disk lang)) := by
  unfold computeStatistics
  rw [get_loadTranslations hreference]
  have hget := OrderedMap.get_foldl_setSome .empty
    (fun l => ((loadTranslations numberText basePath referenceLanguage disk).get l).map
      (statsOf (languageEntries numberText basePath disk referenceLanguage).keys))
    (availableLanguages disk) lang
  rw [if_pos h, get_loadTranslations h] at hget
  exact hget

variable (numberText basePath) in
/-- What the result holds for a language, but for the comparison across languages. -/
theorem exists_validate (hreference : referenceLanguage ∈ availableLanguages disk) :
    ∃ result, validate numberText basePath referenceLanguage disk = .ok result ∧
      result.availableLanguages = availableLanguages disk ∧
      result.isFullyCovered = ((availableLanguages disk).all fun lang =>
        (result.languageStats.get lang).any fun s => s.coverage == 100) ∧
      ∀ {β : Type} (f : TranslationStats → β),
        (∀ s keys, f { s with identicalAcrossLangs := keys } = f s) →
        ∀ lang ∈ availableLanguages disk,
          (result.languageStats.get lang).map f =
            some (f (statsOf (languageEntries numberText basePath disk referenceLanguage).keys
              (languageEntries numberText basePath disk lang))) := by
  refine ⟨_, if_neg (not_not.2 hreference), rfl, rfl, fun f hf lang hlang => ?_⟩
  rw [get_computeIdenticalTranslations hf, get_computeStatistics hreference hlang]
  rfl

variable (numberText basePath) in
/-- What is reported: every surplus makes up for its deficit. -/
theorem exists_validate_covered (hreference : referenceLanguage ∈ availableLanguages disk) :
    ∃ result, validate numberText basePath referenceLanguage disk = .ok result ∧
      (result.isFullyCovered = true ↔ ∀ lang ∈ availableLanguages disk,
        (languageEntries numberText basePath disk lang).deficit
            (languageEntries numberText basePath disk referenceLanguage) ≤
          (languageEntries numberText basePath disk lang).surplus
            (languageEntries numberText basePath disk referenceLanguage)) := by
  obtain ⟨result, hresult, -, hcovered, hstats⟩ :=
    exists_validate numberText basePath hreference
  refine ⟨result, hresult, ?_⟩
  rw [hcovered, List.all_eq_true]
  refine forall_congr' fun lang => forall_congr' fun hlang => ?_
  have hcoverage := hstats TranslationStats.coverage (fun _ _ => rfl) lang hlang
  obtain ⟨s, hs, hs'⟩ := Option.map_eq_some_iff.1 hcoverage
  rw [← coverage_statsOf_iff, hs, Option.any_some, beq_iff_eq, hs']

theorem complete_iff :
    Complete numberText basePath referenceLanguage disk ↔
      ∀ lang ∈ availableLanguages disk,
        (languageEntries numberText basePath disk lang).deficit
          (languageEntries numberText basePath disk referenceLanguage) = 0 := by
  simp only [Complete, Entries.covers_iff]

/-- Complete translations are always reported as such. -/
theorem isFullyCovered_of_complete (hreference : referenceLanguage ∈ availableLanguages disk)
    (hcomplete : Complete numberText basePath referenceLanguage disk) :
    ∃ result, validate numberText basePath referenceLanguage disk = .ok result ∧
      result.isFullyCovered = true := by
  obtain ⟨result, hresult, hcovered⟩ := exists_validate_covered numberText basePath hreference
  refine ⟨result, hresult, hcovered.2 fun lang hlang => ?_⟩
  rw [complete_iff.1 hcomplete lang hlang]
  exact Nat.zero_le _

/-- The report is right exactly when no deficit is masked. -/
theorem isFullyCovered_agrees_iff (hreference : referenceLanguage ∈ availableLanguages disk) :
    ∃ result, validate numberText basePath referenceLanguage disk = .ok result ∧
      ((result.isFullyCovered = true ↔ Complete numberText basePath referenceLanguage disk) ↔
        ¬ Masked numberText basePath referenceLanguage disk) := by
  obtain ⟨result, hresult, hcovered⟩ := exists_validate_covered numberText basePath hreference
  refine ⟨result, hresult, ?_⟩
  rw [hcovered, complete_iff]
  constructor
  · rintro hagrees ⟨hsurplus, lang, hlang, hpos⟩
    exact Nat.ne_of_gt hpos (hagrees.1 hsurplus lang hlang)
  · intro hmasked
    constructor
    · intro hsurplus lang hlang
      by_contra hne
      exact hmasked ⟨hsurplus, lang, hlang, Nat.pos_of_ne_zero hne⟩
    · intro hzero lang hlang
      rw [hzero lang hlang]
      exact Nat.zero_le _

end Report

/-! ## The script -/

def hasBlockingErrors (stats : TranslationStats) : Bool :=
  stats.missingKeys.length > 0 || stats.emptyValues.length > 0

def exitCode (result : ValidationResult) : Nat :=
  if result.availableLanguages.any fun lang =>
    (result.languageStats.get lang).any hasBlockingErrors then 1 else 0

/-- Without blocking errors nothing of the reference is missing or blank. -/
theorem covers_of_hasBlockingErrors {entries reference : Entries}
    (h : hasBlockingErrors (statsOf reference.keys entries) = false) :
    entries.Covers reference := by
  simp only [hasBlockingErrors, statsOf, gt_iff_lt, Bool.or_eq_false_iff, decide_eq_false_iff_not,
    Nat.not_lt, Nat.le_zero_eq, List.length_eq_zero_iff, List.map_eq_nil_iff,
    List.filter_eq_nil_iff] at h
  intro key hkey
  have hhas : entries.has key = true := by simpa using h.1 key hkey
  obtain ⟨t, ht⟩ := entries.has_iff.1 hhas
  refine ⟨t, ht, fun hblank => ?_⟩
  exact h.2 (key, t) (entries.get_eq_some_iff.1 ht) (by simp [isBlank, hblank])

/-- The exit code is not fooled: it is 0 only for complete translations. -/
theorem complete_of_exitCode {numberText : JsNumber → String} {basePath : Path}
    {referenceLanguage : String} {disk : List Dirent} {result : ValidationResult}
    (hreference : referenceLanguage ∈ availableLanguages disk)
    (hresult : validate numberText basePath referenceLanguage disk = .ok result)
    (hexit : exitCode result = 0) : Complete numberText basePath referenceLanguage disk := by
  obtain ⟨result', hresult', hlangs, -, hstats⟩ :=
    exists_validate numberText basePath hreference
  cases hresult.symm.trans hresult'
  intro lang hlang
  apply covers_of_hasBlockingErrors
  have hblocking := hstats hasBlockingErrors (fun _ _ => rfl) lang hlang
  obtain ⟨s, hs, hs'⟩ := Option.map_eq_some_iff.1 hblocking
  rw [← hs', ← Bool.not_eq_true]
  intro hs''
  have hany : (result.availableLanguages.any fun lang =>
      (result.languageStats.get lang).any hasBlockingErrors) = true :=
    List.any_eq_true.2 ⟨lang, hlangs ▸ hlang, by rw [hs]; exact hs''⟩
  rw [exitCode, if_pos hany] at hexit
  cases hexit

def diskSample : List Dirent :=
  [.directory "en" [.file "common.json" (some (.object [("title", .string "Title")]))],
    .directory "ar" [.file "common.json" (some (.object [("other", .string "Other")]))]]

theorem masked_diskSample : Masked (fun _ => "") "/i18n".toList "en" diskSample :=
  ⟨by decide +kernel, "ar", by decide, by decide +kernel⟩

/-- All translations are reported complete, and one is missing. -/
theorem isFullyCovered_diskSample :
    ∃ result, validate (fun _ => "") "/i18n".toList "en" diskSample = .ok result ∧
      result.isFullyCovered = true ∧ ¬ Complete (fun _ => "") "/i18n".toList "en" diskSample := by
  obtain ⟨hsurplus, lang, hlang, hpos⟩ := masked_diskSample
  have hreference : "en" ∈ availableLanguages diskSample := by decide
  obtain ⟨result, hresult, hcovered⟩ :=
    exists_validate_covered (fun _ => "") "/i18n".toList hreference
  refine ⟨result, hresult, hcovered.2 hsurplus, fun hcomplete => ?_⟩
  exact Nat.ne_of_gt hpos (complete_iff.1 hcomplete lang hlang)

theorem isFullyCovered_agrees_diskSample :
    ∃ result, validate (fun _ => "") "/i18n".toList "en" diskSample = .ok result ∧
      ((result.isFullyCovered = true ↔ Complete (fun _ => "") "/i18n".toList "en" diskSample) ↔
        ¬ Masked (fun _ => "") "/i18n".toList "en" diskSample) :=
  isFullyCovered_agrees_iff (by decide)

end NestStarter.I18n
