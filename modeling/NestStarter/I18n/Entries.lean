import NestStarter.Accounts.Passwords
import NestStarter.Core.OrderedMap
import NestStarter.Core.PosixPath
import NestStarter.Shared.Values

/-! # Translation entries

`I18nValidator` up to the entries of one language: the JSON files under its directory, and in
each file the leaves of the tree under their dotted keys. A file's content is represented by what
`JSON.parse` makes of it.
-/

namespace NestStarter.I18n

open NestStarter.Core
open NestStarter.Core.PosixPath (Path basename join)
open NestStarter.Shared (JsNumber)
open NestStarter.Accounts (trim)

inductive JsonValue where
  | null
  | boolean (b : Bool)
  | number (n : JsNumber)
  | string (s : String)
  | array (items : List JsonValue)
  /-- The own properties in the order of `Object.entries`. -/
  | object (fields : List (String × JsonValue))

namespace JsonValue

def isObject : JsonValue → Bool
  | object _ => true
  | _ => false

-- `String(n)` of a number.
variable (numberText : JsNumber → String)

mutual

/-- `String(value)`; it throws for an object whose own `toString` hides the inherited one. -/
def text : JsonValue → Option String
  | null => some "null"
  | boolean b => some (if b then "true" else "false")
  | number n => some (numberText n)
  | string s => some s
  | array items => (itemTexts items).map (",".intercalate ·)
  | object fields =>
      if fields.any fun f => f.1 == "toString" then none else some "[object Object]"

/-- `join` leaves out what is `null`. -/
def itemTexts : List JsonValue → Option (List String)
  | [] => some []
  | null :: items => (itemTexts items).map ("" :: ·)
  | item :: items => do
      let head ← text item
      let tail ← itemTexts items
      return head :: tail

end

end JsonValue

def addToSet (s : List String) (x : String) : List String := if x ∈ s then s else s ++ [x]

/-- The matches of `PARAMETER_PATTERN` without their braces. -/
def parameterTexts : List Char → List (List Char)
  | [] => []
  | c :: cs =>
      let inner := cs.takeWhile (· ≠ '\x7d')
      let rest := cs.dropWhile (· ≠ '\x7d')
      if c = '\x7b' ∧ inner ≠ [] ∧ rest ≠ [] then inner :: parameterTexts rest.tail
      else parameterTexts cs
termination_by cs => cs.length
decreasing_by
  · have hdrop := (List.dropWhile_suffix (· ≠ '\x7d') (l := cs)).length_le
    simp only [List.length_tail, List.length_cons]
    omega
  · simp

def extractParameters (value : String) : List String :=
  ((parameterTexts value.toList).map fun t => trim (String.ofList t)).foldl addToSet []

/-! ## One file -/

structure TranslationValue where
  key : String
  value : String
  file : Path
  parameters : List String
  deriving DecidableEq, Repr

/-- The entries of a file so far, and what was registered with `allKeys` and `keyParameters`. -/
structure Extraction where
  entries : OrderedMap String TranslationValue
  registered : List (String × List String)

def Extraction.empty : Extraction := ⟨OrderedMap.empty, []⟩

section Extract

variable (numberText : JsNumber → String) (fileNamespace : String) (file : Path)

/-- A leaf; what was registered before a throw stays. -/
def addEntry (nestedKey : String) (value : JsonValue) (s : Extraction) :
    Except Extraction Extraction :=
  let fullKey := fileNamespace ++ "." ++ nestedKey
  match value.text numberText with
  | none => .error s
  | some stringValue =>
      let parameters := extractParameters stringValue
      .ok
        { entries := s.entries.set fullKey
            { key := fullKey, value := stringValue, file, parameters }
          registered := s.registered ++ [(fullKey, parameters)] }

mutual

def traverse : JsonValue → String → Extraction → Except Extraction Extraction
  | .object fields, path, s => traverseFields fields path s
  | _, _, s => .ok s

def traverseFields :
    List (String × JsonValue) → String → Extraction → Except Extraction Extraction
  | [], _, s => .ok s
  | (key, value) :: fields, path, s =>
      let nestedKey := if path ≠ "" then path ++ "." ++ key else key
      (if value.isObject then traverse value nestedKey s
        else addEntry numberText fileNamespace file nestedKey value s).bind
          fun s => traverseFields fields path s

end

end Extract

variable (numberText : JsNumber → String)

def jsonExtension : List Char := ".json".toList

def extractEntries (root : JsonValue) (file : Path) : Except Extraction Extraction :=
  let fileNamespace := String.ofList (basename file jsonExtension)
  traverse numberText fileNamespace file root "" .empty

mutual

/-- The leaves of a tree under their dotted keys. -/
def leaves (path : String) : JsonValue → List (String × JsonValue)
  | .object fields => fieldLeaves path fields
  | _ => []

def fieldLeaves (path : String) : List (String × JsonValue) → List (String × JsonValue)
  | [] => []
  | (key, value) :: fields =>
      let nestedKey := if path ≠ "" then path ++ "." ++ key else key
      (if value.isObject then leaves nestedKey value else [(nestedKey, value)]) ++
        fieldLeaves path fields

end

section Leaves

variable {numberText : JsNumber → String} {fileNamespace : String} {file : Path}

def addLeaf (numberText : JsNumber → String) (fileNamespace : String) (file : Path)
    (s : Extraction) (l : String × JsonValue) : Except Extraction Extraction :=
  addEntry numberText fileNamespace file l.1 l.2 s

mutual

/-- The traversal adds the leaves one after the other. -/
theorem traverse_eq_foldlM (value : JsonValue) (path : String) (s : Extraction) :
    traverse numberText fileNamespace file value path s =
      (leaves path value).foldlM (addLeaf numberText fileNamespace file) s := by
  cases value with
  | object fields =>
      rw [traverse, leaves]
      exact traverseFields_eq_foldlM fields path s
  | null => rfl
  | boolean b => rfl
  | number n => rfl
  | string t => rfl
  | array items => rfl

theorem traverseFields_eq_foldlM (fields : List (String × JsonValue)) (path : String)
    (s : Extraction) :
    traverseFields numberText fileNamespace file fields path s =
      (fieldLeaves path fields).foldlM (addLeaf numberText fileNamespace file) s := by
  match fields with
  | [] => rfl
  | (key, value) :: rest =>
      rw [traverseFields, fieldLeaves, List.foldlM_append]
      generalize (if path ≠ "" then path ++ "." ++ key else key) = nestedKey
      have hhead : (if value.isObject then
            traverse numberText fileNamespace file value nestedKey s
          else addEntry numberText fileNamespace file nestedKey value s) =
          (if value.isObject then leaves nestedKey value else [(nestedKey, value)]).foldlM
            (addLeaf numberText fileNamespace file) s := by
        split
        · exact traverse_eq_foldlM value nestedKey s
        · simp [addLeaf]
      have hrest : (fun s => traverseFields numberText fileNamespace file rest path s) =
          fun s => (fieldLeaves path rest).foldlM (addLeaf numberText fileNamespace file) s :=
        funext fun s => traverseFields_eq_foldlM rest path s
      rw [hhead, hrest]
      rfl

end

def fullKeyOf (fileNamespace : String) (l : String × JsonValue) : String :=
  fileNamespace ++ "." ++ l.1

theorem addLeaf_ok {s s' : Extraction} {l : String × JsonValue}
    (h : addLeaf numberText fileNamespace file s l = .ok s') :
    ∃ t : TranslationValue, l.2.text numberText = some t.value ∧
      s'.entries = s.entries.set (fullKeyOf fileNamespace l) t := by
  unfold addLeaf addEntry at h
  cases htext : l.2.text numberText with
  | none => simp [htext] at h
  | some stringValue =>
      simp only [htext] at h
      cases h
      exact ⟨_, rfl, rfl⟩

/-- What the leaves leave behind: an entry for each of their keys, with the text of one of
them. -/
theorem get_foldlM_addLeaf {ls : List (String × JsonValue)} {s s' : Extraction}
    (h : ls.foldlM (addLeaf numberText fileNamespace file) s = .ok s') (key : String) :
    if key ∈ ls.map (fullKeyOf fileNamespace) then
      ∃ t, s'.entries.get key = some t ∧
        ∃ l ∈ ls, key = fullKeyOf fileNamespace l ∧ l.2.text numberText = some t.value
    else s'.entries.get key = s.entries.get key := by
  induction ls generalizing s with
  | nil =>
      cases h
      exact rfl
  | cons l ls ih =>
      rw [List.foldlM_cons] at h
      cases hstep : addLeaf numberText fileNamespace file s l with
      | error e => simp [hstep, bind, Except.bind] at h
      | ok u =>
          obtain ⟨t, htext, hset⟩ := addLeaf_ok hstep
          have hrest := ih (s := u) (by simpa [hstep, bind, Except.bind] using h)
          by_cases hmem : key ∈ ls.map (fullKeyOf fileNamespace)
          · -- a later leaf with this key overwrites the entry
            rw [if_pos hmem] at hrest
            obtain ⟨t', hget, l', hl', hkey⟩ := hrest
            have hcons : key ∈ (l :: ls).map (fullKeyOf fileNamespace) :=
              List.mem_cons_of_mem _ hmem
            rw [if_pos hcons]
            exact ⟨t', hget, l', List.mem_cons_of_mem l hl', hkey⟩
          · rw [if_neg hmem, hset, OrderedMap.get_set] at hrest
            by_cases hl : fullKeyOf fileNamespace l = key
            · rw [if_pos hl] at hrest
              have hcons : key ∈ (l :: ls).map (fullKeyOf fileNamespace) :=
                List.mem_map.2 ⟨l, List.mem_cons_self, hl⟩
              rw [if_pos hcons]
              exact ⟨t, hrest, l, List.mem_cons_self, hl.symm, htext⟩
            · have hcons : key ∉ (l :: ls).map (fullKeyOf fileNamespace) := by
                rw [List.map_cons, List.mem_cons, not_or]
                exact ⟨Ne.symm hl, hmem⟩
              rw [if_neg hl] at hrest
              rw [if_neg hcons, hrest]

variable (numberText) in
/-- A file is read in full, and this leaf of its tree has the key and the text. -/
def Spells (file : Path × Option JsonValue) (key value : String) : Prop :=
  ∃ content x, file.2 = some content ∧ extractEntries numberText content file.1 = .ok x ∧
    ∃ l ∈ leaves "" content,
      key = fullKeyOf (String.ofList (basename file.1 jsonExtension)) l ∧
        l.2.text numberText = some value

/-- A file that is read in full has an entry for every key of its leaves, with the text of such a
leaf, and no other. -/
theorem get_extractEntries {content : JsonValue} {x : Extraction}
    (h : extractEntries numberText content file = .ok x) (key : String) :
    (∀ t, x.entries.get key = some t → Spells numberText (file, some content) key t.value) ∧
      ∀ value, Spells numberText (file, some content) key value →
        ∃ t, x.entries.get key = some t := by
  have hleaves := h
  rw [extractEntries, traverse_eq_foldlM] at hleaves
  have hget := get_foldlM_addLeaf hleaves key
  split at hget
  · obtain ⟨t, ht, l, hl, hkey, htext⟩ := hget
    constructor
    · intro t' ht'
      cases ht.symm.trans ht'
      exact ⟨content, x, rfl, h, l, hl, hkey, htext⟩
    · exact fun _ _ => ⟨t, ht⟩
  · rename_i hmem
    have hnone : x.entries.get key = none := hget
    constructor
    · intro t ht
      cases hnone.symm.trans ht
    · rintro value ⟨content', _, hcontent, -, l, hl, hkey, -⟩
      cases hcontent
      exact absurd (List.mem_map.2 ⟨l, hl, hkey.symm⟩) hmem

end Leaves

/-! ## One language -/

/-- A directory entry; a file holds what it parses to, if it does. -/
inductive Dirent where
  | file (name : String) (content : Option JsonValue)
  | directory (name : String) (items : List Dirent)
  /-- Neither a file nor a directory. -/
  | special (name : String)

mutual

def collectItem (dir : Path) : Dirent → List (Path × Option JsonValue)
  | .file name content =>
      if jsonExtension <:+ name.toList then [(join [dir, name.toList], content)] else []
  | .directory name items => collectJsonFiles (join [dir, name.toList]) items
  | .special _ => []

def collectJsonFiles (dir : Path) : List Dirent → List (Path × Option JsonValue)
  | [] => []
  | item :: items => collectItem dir item ++ collectJsonFiles dir items

end

/-- A file of a language. One that cannot be parsed or read in full adds no entries. -/
def loadFile (s : Extraction) (file : Path × Option JsonValue) : Extraction :=
  match file.2.map fun content => extractEntries numberText content file.1 with
  | none => s
  | some (.ok x) =>
      { entries := s.entries.setAll x.entries, registered := s.registered ++ x.registered }
  | some (.error x) => { s with registered := s.registered ++ x.registered }

def readDirectory (name : String) : List Dirent → List Dirent
  | [] => []
  | .directory n items :: rest => if n = name then items else readDirectory name rest
  | _ :: rest => readDirectory name rest

def loadLanguageData (basePath : Path) (disk : List Dirent) (language : String) : Extraction :=
  let langPath := join [basePath, language.toList]
  (collectJsonFiles langPath (readDirectory language disk)).foldl (loadFile numberText) .empty

section Load

variable (numberText : JsNumber → String) (key : String)

/-- A file replaces the entries under its own keys. -/
theorem get_loadFile (s : Extraction) (file : Path × Option JsonValue) :
    (∀ t, (loadFile numberText s file).entries.get key = some t →
      Spells numberText file key t.value ∨ s.entries.get key = some t) ∧
    ((∃ value, Spells numberText file key value) ∨ (∃ t, s.entries.get key = some t) →
      ∃ t, (loadFile numberText s file).entries.get key = some t) := by
  obtain ⟨path, content⟩ := file
  cases content with
  | none =>
      constructor
      · exact fun t ht => .inr ht
      · rintro (⟨_, _, _, hcontent, -⟩ | hs)
        · cases hcontent
        · exact hs
  | some content =>
      cases hextract : extractEntries numberText content path with
      | error x =>
          have hload : (loadFile numberText s (path, some content)).entries = s.entries := by
            simp [loadFile, hextract]
          rw [hload]
          constructor
          · exact fun t ht => .inr ht
          · rintro (⟨_, _, _, hcontent, hok, -⟩ | hs)
            · cases hcontent
              cases hextract.symm.trans hok
            · exact hs
      | ok x =>
          have hload : (loadFile numberText s (path, some content)).entries =
              s.entries.setAll x.entries := by
            simp [loadFile, hextract]
          obtain ⟨hspells, hget⟩ := get_extractEntries hextract key
          rw [hload, OrderedMap.get_setAll]
          cases hx : x.entries.get key with
          | some t =>
              constructor
              · intro t' ht'
                cases ht'
                exact .inl (hspells t hx)
              · exact fun _ => ⟨t, rfl⟩
          | none =>
              constructor
              · exact fun t ht => .inr ht
              · rintro (⟨value, hvalue⟩ | hs)
                · obtain ⟨t, ht⟩ := hget value hvalue
                  cases hx.symm.trans ht
                · exact hs

theorem get_foldl_loadFile (files : List (Path × Option JsonValue)) (s : Extraction) :
    (∀ t, (files.foldl (loadFile numberText) s).entries.get key = some t →
      (∃ file ∈ files, Spells numberText file key t.value) ∨ s.entries.get key = some t) ∧
    ((∃ file ∈ files, ∃ value, Spells numberText file key value) ∨
        (∃ t, s.entries.get key = some t) →
      ∃ t, (files.foldl (loadFile numberText) s).entries.get key = some t) := by
  induction files generalizing s with
  | nil =>
      constructor
      · exact fun t ht => .inr ht
      · rintro (⟨file, hfile, -⟩ | hs)
        · cases hfile
        · exact hs
  | cons file files ih =>
      obtain ⟨hspells, hget⟩ := get_loadFile numberText key s file
      obtain ⟨hrest, hrest'⟩ := ih (loadFile numberText s file)
      rw [List.foldl_cons]
      constructor
      · intro t ht
        rcases hrest t ht with ⟨file', hfile', hspelt⟩ | ht'
        · exact .inl ⟨file', List.mem_cons_of_mem file hfile', hspelt⟩
        · exact (hspells t ht').imp_left fun hspelt => ⟨file, List.mem_cons_self, hspelt⟩
      · rintro (⟨file', hfile', hvalue⟩ | hs)
        · rcases List.mem_cons.1 hfile' with rfl | hfile'
          · exact hrest' (.inr (hget (.inl hvalue)))
          · exact hrest' (.inl ⟨file', hfile', hvalue⟩)
        · exact hrest' (.inr (hget (.inr hs)))

/-- A language has an entry for every key that its files spell, with a text they spell it with,
and no other. -/
theorem get_loadLanguageData (basePath : Path) (disk : List Dirent) (language : String) :
    (∀ t, (loadLanguageData numberText basePath disk language).entries.get key = some t →
      ∃ file ∈ collectJsonFiles (join [basePath, language.toList]) (readDirectory language disk),
        Spells numberText file key t.value) ∧
    ((∃ file ∈ collectJsonFiles (join [basePath, language.toList]) (readDirectory language disk),
        ∃ value, Spells numberText file key value) →
      ∃ t, (loadLanguageData numberText basePath disk language).entries.get key = some t) := by
  obtain ⟨hspells, hget⟩ := get_foldl_loadFile numberText key
    (collectJsonFiles (join [basePath, language.toList]) (readDirectory language disk)) .empty
  constructor
  · intro t ht
    refine (hspells t ht).resolve_right fun hempty => ?_
    cases hempty
  · exact fun h => hget (.inl h)

end Load

end NestStarter.I18n
