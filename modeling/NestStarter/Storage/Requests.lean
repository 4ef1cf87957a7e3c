import Mathlib.Data.List.TakeWhile
import NestStarter.Storage.Agreement
import NestStarter.Storage.Streaming

/-! # Requests for access URLs

What a request for a URL of the local provider reaches: the fragment stays with the client, the
query is what follows the first `?`, and the router decodes the segments that its wildcard takes.
The application answers under `publicBaseUrl`.
-/

namespace NestStarter.Storage

open NestStarter.Core.PosixPath

/-- A byte written `%XX`, and what follows. -/
def escapedByte : List Char → Option (Nat × List Char)
  | '%' :: a :: b :: rest =>
      match hexValue a, hexValue b with
      | some x, some y => some (16 * x + y, rest)
      | _, _ => none
  | _ => none

/-- The six bits of a continuation byte. -/
def continuation (s : List Char) : Option (Nat × List Char) :=
  match escapedByte s with
  | some (b, rest) => if 0x80 ≤ b ∧ b < 0xC0 then some (b - 0x80, rest) else none
  | none => none

/-- The character of a code point that is no surrogate and not below the least of its length. -/
def codePoint (least n : Nat) : Option Char :=
  if least ≤ n ∧ n.isValidChar then some (Char.ofNat n) else none

/-- A character written as the escapes of its UTF-8 bytes, and what follows. -/
def escapedChar (s : List Char) : Option (Char × List Char) := do
  let (b, rest) ← escapedByte s
  if b < 0x80 then return (Char.ofNat b, rest)
  else if 0xC0 ≤ b ∧ b < 0xE0 then
    let (c, rest) ← continuation rest
    return (← codePoint 0x80 (64 * (b - 0xC0) + c), rest)
  else if 0xE0 ≤ b ∧ b < 0xF0 then
    let (c, rest) ← continuation rest
    let (d, rest) ← continuation rest
    return (← codePoint 0x800 (64 * (64 * (b - 0xE0) + c) + d), rest)
  else if 0xF0 ≤ b ∧ b < 0xF8 then
    let (c, rest) ← continuation rest
    let (d, rest) ← continuation rest
    let (e, rest) ← continuation rest
    return (← codePoint 0x10000 (64 * (64 * (64 * (b - 0xF0) + c) + d) + e), rest)
  else none

/-- The loop of `decodeURIComponent`, in as many rounds as there are characters at most. -/
def decodeLoop : Nat → List Char → Option (List Char)
  | _, [] => some []
  | 0, _ :: _ => none
  | n + 1, c :: cs =>
      if c = '%' then
        match escapedChar (c :: cs) with
        | none => none
        | some (d, rest) => (decodeLoop n rest).map (d :: ·)
      else (decodeLoop n cs).map (c :: ·)

def decodeURIComponent (s : List Char) : Option (List Char) := decodeLoop s.length s

example : (decodeURIComponent "caf%C3%A9%20%e2%82%ac".toList).map String.ofList =
    some "café €" := by
  decide +kernel
example : decodeURIComponent "100%".toList = none := by decide +kernel

theorem decodeLoop_of_notMem {n : Nat} {s : List Char} (h : '%' ∉ s) (hn : s.length ≤ n) :
    decodeLoop n s = some s := by
  induction s generalizing n with
  | nil => cases n <;> rfl
  | cons c s ih =>
      obtain ⟨hc, hs⟩ := not_or.1 (fun hmem => h (List.mem_cons.2 hmem))
      cases n with
      | zero => simp at hn
      | succ n =>
          rw [decodeLoop, if_neg (Ne.symm hc), ih hs (by simpa using hn)]
          rfl

theorem decodeURIComponent_of_notMem {s : List Char} (h : '%' ∉ s) :
    decodeURIComponent s = some s := decodeLoop_of_notMem h (Nat.le_refl _)

theorem length_escapedByte {s rest : List Char} {b : Nat} (h : escapedByte s = some (b, rest)) :
    rest.length + 3 = s.length := by
  unfold escapedByte at h
  split at h
  · split at h
    · simp only [Option.some.injEq, Prod.mk.injEq] at h
      obtain ⟨-, rfl⟩ := h
      simp
    · cases h
  · cases h

theorem length_continuation {s rest : List Char} {b : Nat}
    (h : continuation s = some (b, rest)) : rest.length + 3 = s.length := by
  unfold continuation at h
  split at h
  · next hbyte =>
    split at h
    · simp only [Option.some.injEq, Prod.mk.injEq] at h
      obtain ⟨-, rfl⟩ := h
      exact length_escapedByte hbyte
    · cases h
  · cases h

theorem length_escapedChar {s rest : List Char} {c : Char}
    (h : escapedChar s = some (c, rest)) : rest.length + 3 ≤ s.length := by
  simp only [escapedChar, Option.bind_eq_bind, Option.bind_eq_some_iff, Option.pure_def] at h
  obtain ⟨⟨b, rest₀⟩, hbyte, h⟩ := h
  have hlength := length_escapedByte hbyte
  simp only at h
  split at h
  · simp only [Option.some.injEq, Prod.mk.injEq] at h
    obtain ⟨-, rfl⟩ := h
    omega
  · split at h
    · simp only [Option.bind_eq_some_iff, Option.some.injEq, Prod.mk.injEq] at h
      obtain ⟨⟨_, rest₁⟩, h₁, _, _, _, rfl⟩ := h
      have hlength₁ : rest₁.length + 3 = rest₀.length := length_continuation h₁
      show rest₁.length + 3 ≤ s.length
      omega
    · split at h
      · simp only [Option.bind_eq_some_iff, Option.some.injEq, Prod.mk.injEq] at h
        obtain ⟨⟨_, rest₁⟩, h₁, ⟨_, rest₂⟩, h₂, _, _, _, rfl⟩ := h
        have hlength₁ : rest₁.length + 3 = rest₀.length := length_continuation h₁
        have hlength₂ : rest₂.length + 3 = rest₁.length := length_continuation h₂
        show rest₂.length + 3 ≤ s.length
        omega
      · split at h
        · simp only [Option.bind_eq_some_iff, Option.some.injEq, Prod.mk.injEq] at h
          obtain ⟨⟨_, rest₁⟩, h₁, ⟨_, rest₂⟩, h₂, ⟨_, rest₃⟩, h₃, _, _, _, rfl⟩ := h
          have hlength₁ : rest₁.length + 3 = rest₀.length := length_continuation h₁
          have hlength₂ : rest₂.length + 3 = rest₁.length := length_continuation h₂
          have hlength₃ : rest₃.length + 3 = rest₂.length := length_continuation h₃
          show rest₃.length + 3 ≤ s.length
          omega
        · cases h

theorem length_decodeLoop {n : Nat} {s t : List Char} (h : decodeLoop n s = some t) :
    t.length ≤ s.length ∧ ('%' ∈ s → t.length < s.length) := by
  induction n generalizing s t with
  | zero =>
      cases s with
      | nil =>
          cases h
          simp
      | cons c s => cases h
  | succ n ih =>
      cases s with
      | nil =>
          cases h
          simp
      | cons c s =>
          rw [decodeLoop] at h
          split at h
          · split at h
            · cases h
            · next hchar =>
              obtain ⟨u, hu, rfl⟩ := Option.map_eq_some_iff.1 h
              have hrest := (ih hu).1
              have hescape := length_escapedChar hchar
              simp only [List.length_cons] at hescape ⊢
              omega
          · next hc =>
            obtain ⟨u, hu, rfl⟩ := Option.map_eq_some_iff.1 h
            obtain ⟨hle, hlt⟩ := ih hu
            refine ⟨Nat.succ_le_succ hle, fun hmem => ?_⟩
            have hs := (List.mem_cons.1 hmem).resolve_left (Ne.symm hc)
            exact Nat.succ_lt_succ (hlt hs)

/-- Decoding makes a text with an escape in it shorter. -/
theorem length_decodeURIComponent {s t : List Char} (h : decodeURIComponent s = some t) :
    t.length ≤ s.length ∧ ('%' ∈ s → t.length < s.length) := length_decodeLoop h

/-! ## The request -/

def after? (head s : List Char) : Option (List Char) :=
  if head.isPrefixOf s then some (s.drop head.length) else none

def urlPath (url : List Char) : List Char := url.takeWhile fun c => c ≠ '#' && c ≠ '?'

def urlQuery (url : List Char) : List Char :=
  ((url.takeWhile (· ≠ '#')).dropWhile (· ≠ '?')).drop 1

/-- A `+` in a query is a space. -/
def spaced (s : List Char) : List Char := s.map fun c => if c = '+' then ' ' else c

section Request

variable (malformed : List Char → List Char)

/-- A name or a value in a query; `malformed` is what `querystring` makes of a text that
`decodeURIComponent` refuses. -/
def unescape (s : List Char) : String :=
  String.ofList ((decodeURIComponent (spaced s)).getD (malformed (spaced s)))

def queryPair (pair : List Char) : String × String :=
  (unescape malformed (pair.takeWhile (· ≠ '=')),
    unescape malformed ((pair.dropWhile (· ≠ '=')).drop 1))

def queryPairs (query : List Char) : List (String × String) :=
  ((query.splitOn '&').filter (· ≠ [])).map (queryPair malformed)

def queryValue (name : String) (pairs : List (String × String)) : Option String :=
  match pairs.filter (·.1 = name) with
  | [] => none
  | named => some (",".intercalate (named.map Prod.snd))

def queryOf (query : List Char) : Query :=
  let pairs := queryPairs malformed query
  ⟨queryValue "token" pairs, queryValue "exp" pairs⟩

/-- The wildcard of a route: at least one character, and every segment decoded. A segment that
cannot be decoded is a bad request. -/
def wildcard (rest : List Char) : Option PathParam :=
  if rest = [] then none
  else ((segments rest).mapM decodeURIComponent).map fun parts =>
    .many (parts.map String.ofList)

def storageRoot (publicBaseUrl : String) : List Char :=
  trimTrailing publicBaseUrl.toList ++ '/' :: localStorageRoute.toList ++ ['/']

/-- The route that takes a path, and its parameter. -/
def routeOf (publicBaseUrl : String) (path : List Char) : Option (Visibility × PathParam) := do
  let rest ← after? (storageRoot publicBaseUrl) path
  match after? (Visibility.PUBLIC.value.toList ++ ['/']) rest with
  | some rest => (wildcard rest).map fun param => (.PUBLIC, param)
  | none =>
      let rest ← after? (Visibility.PRIVATE.value.toList ++ ['/']) rest
      (wildcard rest).map fun param => (.PRIVATE, param)

/-- A request for `url` at the time `later` comes to a route of the controller, with a path that
resolves to `file` there; on the private route the guard lets it through. -/
def Reaches (ν : Numbers) (hmac : String → String → List UInt8) (cwd : Path) (cfg : LocalConfig)
    (url : String) (later : Instant) (file : FilePath) : Prop :=
  ∃ v path, routeOf cfg.publicBaseUrl (urlPath url.toList) = some (v, path) ∧
    (v = .PRIVATE → LocalStreamGuard.canActivate ν hmac cfg path
      (queryOf malformed (urlQuery url.toList)) later = true) ∧
    fileOf cwd (resolve cwd [resolve cwd [cfg.basePath.toList, v.value.toList],
      (joinSegments path).toList]) = file

end Request

theorem after?_eq_some {head s rest : List Char} :
    after? head s = some rest ↔ s = head ++ rest := by
  unfold after?
  constructor
  · intro h
    split at h
    · next hhead =>
      obtain ⟨t, rfl⟩ := List.isPrefixOf_iff_prefix.1 hhead
      cases h
      simp
    · cases h
  · rintro rfl
    rw [if_pos (List.isPrefixOf_iff_prefix.2 (List.prefix_append head rest)),
      List.drop_left]

theorem routeOf_eq_some {publicBaseUrl : String} {path : List Char} {v : Visibility}
    {param : PathParam} :
    routeOf publicBaseUrl path = some (v, param) ↔
      ∃ rest, path = storageRoot publicBaseUrl ++ (v.value.toList ++ '/' :: rest) ∧
        wildcard rest = some param := by
  have happ : ∀ v : Visibility, ∀ rest : List Char,
      v.value.toList ++ '/' :: rest = (v.value.toList ++ ['/']) ++ rest := by simp
  have hapart : ∀ rest, after? (Visibility.PUBLIC.value.toList ++ ['/'])
      (Visibility.PRIVATE.value.toList ++ ['/'] ++ rest) = none := fun rest => rfl
  unfold routeOf
  simp only [Option.bind_eq_bind, Option.bind_eq_some_iff, after?_eq_some]
  constructor
  · rintro ⟨below, rfl, h⟩
    cases hpublic : after? (Visibility.PUBLIC.value.toList ++ ['/']) below with
    | some rest =>
        simp only [hpublic, Option.map_eq_some_iff, Prod.mk.injEq] at h
        obtain ⟨_, hparam, rfl, rfl⟩ := h
        exact ⟨rest, by rw [happ .PUBLIC rest, ← after?_eq_some.1 hpublic], hparam⟩
    | none =>
        simp only [hpublic, Option.bind_eq_some_iff, Option.map_eq_some_iff, Prod.mk.injEq,
          after?_eq_some] at h
        obtain ⟨rest, rfl, _, hparam, rfl, rfl⟩ := h
        exact ⟨rest, by rw [happ .PRIVATE rest], hparam⟩
  · rintro ⟨rest, rfl, hparam⟩
    refine ⟨_, rfl, ?_⟩
    cases v with
    | PUBLIC =>
        rw [happ .PUBLIC rest, after?_eq_some.2 rfl]
        simp [hparam]
    | PRIVATE =>
        rw [happ .PRIVATE rest, hapart]
        simp only [Option.bind_eq_some_iff, after?_eq_some, Option.map_eq_some_iff]
        exact ⟨rest, rfl, param, hparam, rfl⟩

theorem mem_ofSegments {c : Char} {l : List Segment} (h : c ∈ ofSegments l) :
    c = '/' ∨ ∃ s ∈ l, c ∈ s := by
  induction l with
  | nil => simp [ofSegments] at h
  | cons s l ih =>
      cases l with
      | nil => exact Or.inr ⟨s, List.mem_cons_self, by simpa [ofSegments] using h⟩
      | cons t l =>
          have htext : ofSegments (s :: t :: l) = s ++ '/' :: ofSegments (t :: l) := by
            simp [ofSegments]
          rw [htext] at h
          rcases List.mem_append.1 h with hs | hrest
          · exact Or.inr ⟨s, List.mem_cons_self, hs⟩
          · rcases List.mem_cons.1 hrest with rfl | hrest
            · exact Or.inl rfl
            · rcases ih hrest with hslash | ⟨u, hu, hc⟩
              · exact Or.inl hslash
              · exact Or.inr ⟨u, List.mem_cons_of_mem s hu, hc⟩

theorem mem_of_mem_segments {c : Char} {s : Segment} {p : Path} (hs : s ∈ segments p)
    (hc : c ∈ s) : c ∈ p := by
  have hmem : ∀ l : List Segment, s ∈ l → c ∈ ofSegments l := by
    intro l hl
    induction l with
    | nil => cases hl
    | cons t l ih =>
        cases l with
        | nil => simpa [ofSegments, List.mem_singleton.1 hl] using hc
        | cons u l =>
            have htext : ofSegments (t :: u :: l) = t ++ '/' :: ofSegments (u :: l) := by
              simp [ofSegments]
            rw [htext]
            rcases List.mem_cons.1 hl with rfl | hl
            · exact List.mem_append_left _ hc
            · exact List.mem_append_right _ (List.mem_cons_of_mem _ (ih hl))
  rw [← ofSegments_segments p]
  exact hmem _ hs

theorem mapM_decode_of_notMem {l : List Segment} (h : ∀ s ∈ l, '%' ∉ s) :
    l.mapM decodeURIComponent = some l := by
  induction l with
  | nil => rfl
  | cons s l ih =>
      obtain ⟨hs, hl⟩ := List.forall_mem_cons.1 h
      rw [List.mapM_cons, decodeURIComponent_of_notMem hs, ih hl]
      rfl

/-- Decoding segment by segment makes the text shorter if there is an escape in it. -/
theorem textLength_mapM_decode {l parts : List Segment}
    (h : l.mapM decodeURIComponent = some parts) :
    textLength parts ≤ textLength l ∧ ((∃ s ∈ l, '%' ∈ s) → textLength parts < textLength l) := by
  induction l generalizing parts with
  | nil =>
      cases h
      simp
  | cons s l ih =>
      simp only [List.mapM_cons, Option.bind_eq_bind, Option.bind_eq_some_iff,
        Option.pure_def, Option.some.injEq] at h
      obtain ⟨t, ht, ts, hts, rfl⟩ := h
      obtain ⟨hle, hlt⟩ := length_decodeURIComponent ht
      obtain ⟨hsle, hslt⟩ := ih hts
      rw [textLength, textLength]
      refine ⟨by omega, ?_⟩
      rintro ⟨u, hu, hescape⟩
      rcases List.mem_cons.1 hu with rfl | hu
      · have hlt := hlt hescape
        omega
      · have hslt := hslt ⟨u, hu, hescape⟩
        omega

/-- What the wildcard yields of a path without an escape is the path. -/
theorem wildcard_of_notMem {rest : List Char} (hne : rest ≠ []) (h : '%' ∉ rest) :
    wildcard rest = some (.many ((segments rest).map String.ofList)) := by
  rw [wildcard, if_neg hne, mapM_decode_of_notMem fun s hs hmem => h (mem_of_mem_segments hs hmem)]
  rfl

theorem joinSegments_many (parts : List Segment) :
    (joinSegments (.many (parts.map String.ofList))).toList = ofSegments parts := by
  simp [joinSegments, Function.comp_def]

/-- The wildcard yields no more than it takes, and less where there is an escape. -/
theorem length_wildcard {rest : List Char} {param : PathParam} (h : wildcard rest = some param) :
    rest ≠ [] ∧ (joinSegments param).toList.length ≤ rest.length ∧
      ('%' ∈ rest → (joinSegments param).toList.length < rest.length) := by
  unfold wildcard at h
  split at h
  · cases h
  · next hne =>
    obtain ⟨parts, hparts, rfl⟩ := Option.map_eq_some_iff.1 h
    obtain ⟨hle, hlt⟩ := textLength_mapM_decode hparts
    have hpartsne : parts ≠ [] := by
      rintro rfl
      have hsplit : segments rest ≠ [] := List.splitOn_ne_nil '/' rest
      obtain ⟨s, l, hl⟩ := List.exists_cons_of_ne_nil hsplit
      rw [hl] at hparts
      simp [List.mapM_cons, Option.bind_eq_some_iff] at hparts
    rw [joinSegments_many]
    rw [textLength_segments] at hle hlt
    rw [textLength_of_ne_nil hpartsne] at hle hlt
    refine ⟨hne, by omega, fun hmem => ?_⟩
    rw [← ofSegments_segments rest] at hmem
    have hescape := (mem_ofSegments hmem).resolve_left (by decide)
    have hlt := hlt hescape
    omega

/-! ## Keys that are served under their URLs -/

/-- Neither the base URL nor the key has a character that ends a path, the key has none that
begins an escape, and it is not the bare name of its visibility. -/
def Served (cfg : LocalConfig) (v : Visibility) (key : String) : Prop :=
  ('#' ∉ cfg.publicBaseUrl.toList ∧ '?' ∉ cfg.publicBaseUrl.toList) ∧ key ≠ v.value ∧
    '#' ∉ key.toList ∧ '?' ∉ key.toList ∧ '%' ∉ key.toList

instance (cfg : LocalConfig) (v : Visibility) (key : String) : Decidable (Served cfg v key) :=
  inferInstanceAs (Decidable (_ ∧ _))

theorem mem_trimTrailing {c : Char} {s : List Char} (hc : c ≠ '/') :
    c ∈ trimTrailing s ↔ c ∈ s := by
  unfold trimTrailing
  rw [List.mem_reverse]
  constructor
  · exact fun h => List.mem_reverse.1 ((List.dropWhile_sublist _).mem h)
  · intro h
    rw [← List.mem_reverse, ← List.takeWhile_append_dropWhile (p := (· = '/')) (l := s.reverse)]
      at h
    rcases List.mem_append.1 h with h | h
    · exact absurd (by simpa using List.all_eq_true.1 List.all_takeWhile _ h) hc
    · exact h

theorem mem_storageRoot {publicBaseUrl : String} {c : Char} (hc : c = '#' ∨ c = '?') :
    c ∈ storageRoot publicBaseUrl ↔ c ∈ publicBaseUrl.toList := by
  have hslash : c ≠ '/' := by rcases hc with rfl | rfl <;> decide
  have hroute : c ∉ '/' :: localStorageRoute.toList ++ ['/'] := by
    rcases hc with rfl | rfl <;> decide
  rw [storageRoot, List.append_assoc, List.mem_append, mem_trimTrailing hslash]
  exact or_iff_left hroute

theorem joinUrl_storage {key : String} (hkey : Normalized key) (publicBaseUrl : String) :
    (joinUrl publicBaseUrl [localStorageRoute, key]).toList =
      storageRoot publicBaseUrl ++ key.toList := by
  have hne : key.toList ≠ [] := by
    intro hnil
    exact (hkey.1 [] (by rw [hnil]; decide)).1 rfl
  have hroute : trimTrailing (trimLeading localStorageRoute.toList) = localStorageRoute.toList := by
    decide
  have hsegments : (([localStorageRoute, key].map fun s =>
      trimTrailing (trimLeading s.toList)).filter (· ≠ [])) =
      [localStorageRoute.toList, key.toList] := by
    rw [List.map_cons, List.map_cons, hroute, trimLeading_of_proper hkey.1,
      trimTrailing_of_proper hkey.1]
    simp [hne, localStorageRoute]
  unfold joinUrl storageRoot
  simp only [hsegments]
  split
  · simp [ofSegments]
  · next hbase =>
    simp [ofSegments, not_not.1 hbase]

theorem urlPath_append_of_notMem {a b : List Char} (ha : '#' ∉ a) (ha' : '?' ∉ a) :
    urlPath (a ++ b) = a ++ urlPath b := by
  refine List.takeWhile_append_of_pos fun c hc => ?_
  have hsharp : c ≠ '#' := fun h => ha (h ▸ hc)
  have hmark : c ≠ '?' := fun h => ha' (h ▸ hc)
  simp [hsharp, hmark]

theorem notMem_urlPath (url : List Char) : '#' ∉ urlPath url ∧ '?' ∉ urlPath url := by
  constructor <;> intro h <;> simpa using List.all_eq_true.1 List.all_takeWhile _ h

theorem urlPath_eq_self {s : List Char} (h : '#' ∉ s) (h' : '?' ∉ s) : urlPath s = s := by
  have happ := urlPath_append_of_notMem (b := []) h h'
  simpa [urlPath] using happ

/-- What is left of a path where nothing but a query follows it. -/
theorem urlPath_append_query {s suffix : List Char} (hsuffix : ∀ c ∈ suffix.head?, c = '?') :
    urlPath (s ++ suffix) = urlPath s := by
  have hnil : urlPath suffix = [] := by
    cases suffix with
    | nil => rfl
    | cons c suffix =>
        obtain rfl : c = '?' := hsuffix c rfl
        rfl
  unfold urlPath at *
  rw [List.takeWhile_append]
  split
  · next hall =>
    rw [hnil, List.append_nil, (List.takeWhile_prefix _).eq_of_length hall]
  · rfl

section Served

variable {ν : Numbers} {hmac : String → String → List UInt8} {cwd : Path} {cfg : LocalConfig}
  {malformed : List Char → List Char} {v : Visibility} {key : String}

variable (cwd cfg) in
/-- What a path under a visibility root resolves to is not longer than the two. -/
theorem textLength_resolveFile_root (v : Visibility) (path : Path) :
    textLength (resolveFile cwd ['/' :: ofSegments (visibilityRoot cwd cfg v), path]) ≤
      textLength (visibilityRoot cwd cfg v) + (path.length + 1) := by
  have hpath := textLength_segments path
  rw [resolveFile_root]
  split
  · next habs =>
    have hwalk := textLength_walk [] (segments path)
    rw [fileOf_eq, if_pos habs, textLength_reverse]
    rw [textLength] at hwalk
    omega
  · have hwalk := textLength_walk (visibilityRoot cwd cfg v).reverse (segments path)
    rw [textLength_reverse]
    rw [textLength_reverse] at hwalk
    omega

theorem keyFile_of_slash {rest : List Char} (hkey : Normalized key)
    (htext : key.toList = v.value.toList ++ '/' :: rest) :
    LocalStorageProvider.keyFile cwd cfg key = visibilityRoot cwd cfg v ++ segments rest := by
  rw [LocalStorageProvider.keyFile, LocalStorageProvider.fileOf_fullPath hkey, htext,
    segments_append_slash, (visibility_segment v).1, visibilityRoot]
  simp

theorem value_inj {v v' : Visibility} (h : v.value.toList = v'.value.toList) : v = v' := by
  cases v <;> cases v' <;> first | rfl | exact absurd h (by decide)

/-- A request that comes to the file of the key has lost nothing of the key on the way. -/
theorem served_of_file {v' : Visibility} {param : PathParam} {url : List Char}
    {suffix : List Char} (hkey : Normalized key)
    (hhead : (segments key.toList).head? = some v.value.toList)
    (hurl : url = storageRoot cfg.publicBaseUrl ++ (key.toList ++ suffix))
    (hsuffix : ∀ c ∈ suffix.head?, c = '?')
    (hroute : routeOf cfg.publicBaseUrl (urlPath url) = some (v', param))
    (hfile : fileOf cwd (resolve cwd [resolve cwd [cfg.basePath.toList, v'.value.toList],
      (joinSegments param).toList]) = LocalStorageProvider.keyFile cwd cfg key) :
    Served cfg v key := by
  obtain ⟨rest, hpath, hwild⟩ := routeOf_eq_some.1 hroute
  have hclean := notMem_urlPath url
  rw [hpath] at hclean
  have hroot : ∀ c, c = '#' ∨ c = '?' → c ∉ storageRoot cfg.publicBaseUrl := by
    rintro c (rfl | rfl) hmem
    · exact hclean.1 (List.mem_append_left _ hmem)
    · exact hclean.2 (List.mem_append_left _ hmem)
  -- the part of the key before the first character that ends a path
  have hbefore : urlPath key.toList = v'.value.toList ++ '/' :: rest := by
    rw [hurl, urlPath_append_of_notMem (hroot _ (Or.inl rfl)) (hroot _ (Or.inr rfl)),
      urlPath_append_query hsuffix] at hpath
    exact List.append_cancel_left hpath
  obtain ⟨lost, hlost⟩ : urlPath key.toList <+: key.toList := List.takeWhile_prefix _
  have htext : key.toList = v'.value.toList ++ '/' :: (rest ++ lost) := by
    rw [← hlost, hbefore]
    simp
  obtain rfl : v' = v := by
    rw [htext, head_append_slash (visibility_segment v').2.2.1] at hhead
    exact value_inj (Option.some.inj hhead)
  -- the file is as long as the key, so the path is too
  obtain ⟨_, hle, hlt⟩ := length_wildcard hwild
  have hbound := textLength_resolveFile_root cwd cfg v' (joinSegments param).toList
  rw [fileOf_resolve, resolve_visibility, keyFile_of_slash hkey htext] at hfile
  rw [hfile, textLength_append, textLength_segments, List.length_append] at hbound
  have hnone : lost = [] := List.length_eq_zero_iff.1 (by omega)
  have hescape : '%' ∉ rest := fun hmem => by
    have hlt := hlt hmem
    omega
  subst hnone
  rw [List.append_nil] at hlost htext
  have hkeyclean := notMem_urlPath key.toList
  rw [hlost] at hkeyclean
  refine ⟨⟨fun h => hroot _ (Or.inl rfl) ((mem_storageRoot (Or.inl rfl)).2 h),
    fun h => hroot _ (Or.inr rfl) ((mem_storageRoot (Or.inr rfl)).2 h)⟩, ?_, hkeyclean.1,
    hkeyclean.2, ?_⟩
  · rintro rfl
    have hlength := congrArg List.length htext
    simp at hlength
  · rw [htext]
    intro hmem
    rcases List.mem_append.1 hmem with hmem | hmem
    · exact absurd hmem (by cases v' <;> decide)
    · exact hescape ((List.mem_cons.1 hmem).resolve_left (by decide))

variable (cwd) in
theorem routeOf_of_served {url suffix : List Char} (hkey : Normalized key)
    (hhead : (segments key.toList).head? = some v.value.toList)
    (hurl : url = storageRoot cfg.publicBaseUrl ++ (key.toList ++ suffix))
    (hsuffix : ∀ c ∈ suffix.head?, c = '?') (h : Served cfg v key) :
    ∃ param, routeOf cfg.publicBaseUrl (urlPath url) = some (v, param) ∧
      key = v.value ++ "/" ++ joinSegments param ∧ joinSegments param ≠ "" ∧
      fileOf cwd (resolve cwd [resolve cwd [cfg.basePath.toList, v.value.toList],
        (joinSegments param).toList]) = LocalStorageProvider.keyFile cwd cfg key := by
  obtain ⟨⟨hsharp, hmark⟩, hbare, hkeysharp, hkeymark, hescape⟩ := h
  obtain ⟨rest, htext⟩ := (eq_or_slash_of_head hhead).resolve_left
    fun hsame => hbare (String.toList_inj.1 hsame)
  have hproper : ∀ s ∈ segments rest, Proper s := by
    intro s hs
    refine hkey.1 s ?_
    rw [htext, segments_append_slash]
    exact List.mem_append_right _ hs
  have hne : rest ≠ [] := by
    rintro rfl
    exact (hproper [] (by decide)).1 rfl
  have hrestescape : '%' ∉ rest := fun hmem => by
    refine hescape ?_
    rw [htext]
    exact List.mem_append_right _ (List.mem_cons_of_mem _ hmem)
  have hpath : urlPath url =
      storageRoot cfg.publicBaseUrl ++ (v.value.toList ++ '/' :: rest) := by
    rw [hurl, urlPath_append_of_notMem (fun h => hsharp ((mem_storageRoot (Or.inl rfl)).1 h))
      (fun h => hmark ((mem_storageRoot (Or.inr rfl)).1 h)), urlPath_append_query hsuffix,
      urlPath_eq_self hkeysharp hkeymark, htext]
  have hjoin : (joinSegments (.many ((segments rest).map String.ofList))).toList = rest := by
    rw [joinSegments_many, ofSegments_segments]
  refine ⟨.many ((segments rest).map String.ofList),
    routeOf_eq_some.2 ⟨rest, hpath, wildcard_of_notMem hne hrestescape⟩, ?_, ?_, ?_⟩
  · refine String.toList_inj.1 ?_
    rw [String.toList_append, String.toList_append, hjoin, htext]
    simp
  · intro hempty
    rw [hempty] at hjoin
    exact hne hjoin.symm
  · rw [fileOf_resolve, resolve_visibility, hjoin, resolveFile_root, isAbsolute_of_proper hproper,
      keyFile_of_slash hkey htext, walk_of_proper hproper]
    simp

end Served

/-! ## The query of a signed URL -/

/-- A character of the text of a number. -/
def NumberChar (c : Char) : Prop := c.isAlphanum = true ∨ c = '+' ∨ c = '-' ∨ c = '.'

/-- What is documented of `Number(text)`: a finite number is read back from its text, and none
from the text of another; a text has no characters but these, and with a space for the sign of its
exponent it is no finite number. -/
structure Numbers.Written (ν : Numbers) : Prop where
  ofText_text : ∀ n, ν.isFinite n = true → ν.ofText (ν.text n) = n
  isFinite_ofText : ∀ n, ν.isFinite (ν.ofText (ν.text n)) = true → ν.isFinite n = true
  numberChar : ∀ n, ∀ c ∈ (ν.text n).toList, NumberChar c
  spaced : ∀ n, '+' ∈ (ν.text n).toList →
    ν.isFinite (ν.ofText (String.ofList (spaced (ν.text n).toList))) = false

theorem isAlphanum_of_mem_toHex {bytes : List UInt8} {c : Char} (h : c ∈ toHex bytes) :
    c.isAlphanum = true := by
  have hdigit : ∀ n < 16, (hexDigit n).isAlphanum = true := by decide
  obtain ⟨b, _, hc⟩ := List.mem_flatMap.1 h
  have hlt : b.toNat < 256 := b.toNat_lt
  simp only [List.mem_cons, List.not_mem_nil, or_false] at hc
  rcases hc with rfl | rfl
  · exact hdigit _ (by omega)
  · exact hdigit _ (by omega)

theorem toHex_ne_nil {bytes : List UInt8} (h : bytes ≠ []) : toHex bytes ≠ [] := by
  obtain ⟨b, bytes, rfl⟩ := List.exists_cons_of_ne_nil h
  simp [toHex]

theorem spaced_of_notMem {s : List Char} (h : '+' ∉ s) : spaced s = s := by
  refine (List.map_congr_left fun c hc => if_neg ?_).trans (List.map_id _)
  rintro rfl
  exact h hc

section Query

variable {malformed : List Char → List Char}

theorem unescape_of_notMem {s : List Char} (h : '%' ∉ s) :
    unescape malformed s = String.ofList (spaced s) := by
  have hspaced : '%' ∉ spaced s := by
    intro hmem
    obtain ⟨c, hc, hsame⟩ := List.mem_map.1 hmem
    split at hsame
    · cases hsame
    · exact h (hsame ▸ hc)
  rw [unescape, decodeURIComponent_of_notMem hspaced]
  rfl

theorem queryPair_eq {name value : List Char} (h : '=' ∉ name) :
    queryPair malformed (name ++ '=' :: value) =
      (unescape malformed name, unescape malformed value) := by
  have hname : ∀ c ∈ name, (decide (c ≠ '=')) = true := by
    intro c hc
    exact decide_eq_true fun hsame => h (hsame ▸ hc)
  unfold queryPair
  rw [List.takeWhile_append_of_pos hname, List.dropWhile_append_of_pos hname]
  simp

/-- The query that `signedUrl` writes. -/
def signedQuery (token number : List Char) : List Char :=
  "token=".toList ++ token ++ "&exp=".toList ++ number

theorem signedQuery_eq (token number : List Char) :
    signedQuery token number = "token=".toList ++ token ++ "&exp=".toList ++ number := rfl

theorem sharp_notMem_signedQuery {token number : List Char}
    (htoken : ∀ c ∈ token, c.isAlphanum = true) (hnumber : ∀ c ∈ number, NumberChar c) :
    '#' ∉ signedQuery token number := by
  have hsharp : '#' ∉ token := fun hmem => absurd (htoken _ hmem) (by decide)
  have hsharp' : '#' ∉ number := by
    intro hmem
    have hchar := hnumber _ hmem
    unfold NumberChar at hchar
    revert hchar
    decide
  simp [signedQuery_eq, hsharp, hsharp']

/-- The query that `signedUrl` writes, as the guard reads it. -/
theorem queryOf_signedQuery {token number : List Char}
    (htoken : ∀ c ∈ token, c.isAlphanum = true) (hnumber : ∀ c ∈ number, NumberChar c) :
    queryOf malformed (signedQuery token number) =
      ⟨some (String.ofList token), some (String.ofList (spaced number))⟩ := by
  have hfree : ∀ d ∈ ['&', '%'], d ∉ token ∧ d ∉ number := by
    intro d hd
    have hneither : d.isAlphanum = false ∧ ¬ NumberChar d := by
      unfold NumberChar
      obtain rfl | rfl : d = '&' ∨ d = '%' := by simpa using hd
      · decide
      · decide
    refine ⟨fun hmem => ?_, fun hmem => hneither.2 (hnumber d hmem)⟩
    simp [htoken d hmem] at hneither
  obtain ⟨⟨htokenAnd, hnumberAnd⟩, htokenEscape, hnumberEscape⟩ :
      ('&' ∉ token ∧ '&' ∉ number) ∧ '%' ∉ token ∧ '%' ∉ number :=
    ⟨hfree '&' (by decide), hfree '%' (by decide)⟩
  have hplus : '+' ∉ token := fun hmem => absurd (htoken _ hmem) (by decide)
  have htext : signedQuery token number =
      ("token".toList ++ '=' :: token) ++ '&' :: ("exp".toList ++ '=' :: number) := by
    simp [signedQuery_eq]
  have hfirst : '&' ∉ "token".toList ++ '=' :: token := by
    simp [htokenAnd]
  have hsecond : '&' ∉ "exp".toList ++ '=' :: number := by
    simp [hnumberAnd]
  have hpairs : queryPairs malformed (signedQuery token number) =
      [("token", String.ofList token), ("exp", String.ofList (spaced number))] := by
    unfold queryPairs
    rw [htext, List.splitOn_append_cons_self, List.splitOn_eq_singleton hfirst,
      List.splitOn_eq_singleton hsecond]
    have hboth : ([("token".toList ++ '=' :: token)] ++ [("exp".toList ++ '=' :: number)]).filter
        (· ≠ []) = [("token".toList ++ '=' :: token), ("exp".toList ++ '=' :: number)] := by
      simp
    rw [hboth, List.map_cons, List.map_cons, queryPair_eq (by decide), queryPair_eq (by decide),
      unescape_of_notMem htokenEscape, unescape_of_notMem hnumberEscape, spaced_of_notMem hplus,
      unescape_of_notMem (by decide), unescape_of_notMem (by decide)]
    rfl
  unfold queryOf
  rw [hpairs]
  rfl

theorem urlQuery_eq {path query : List Char} (hpath : '#' ∉ path) (hpath' : '?' ∉ path)
    (hquery : '#' ∉ query) : urlQuery (path ++ '?' :: query) = query := by
  have hall : ∀ c ∈ path ++ '?' :: query, (decide (c ≠ '#')) = true := by
    intro c hc
    refine decide_eq_true ?_
    rintro rfl
    rcases List.mem_append.1 hc with hc | hc
    · exact hpath hc
    · exact hquery ((List.mem_cons.1 hc).resolve_left (by decide))
  have hskip : ∀ c ∈ path, (decide (c ≠ '?')) = true := fun c hc =>
    decide_eq_true fun hsame => hpath' (hsame ▸ hc)
  rw [urlQuery, List.takeWhile_eq_self_iff.2 hall, List.dropWhile_append_of_pos hskip]
  simp

end Query

section Guard

variable {ν : Numbers} {hmac : String → String → List UInt8} {cfg : LocalConfig}

/-- The guard lets the query of a signed URL through exactly for a finite expiry that is written
without a `+`. -/
theorem canActivate_signed_iff (hdigest : ∀ m, hmac cfg.secret m ≠ []) (hwritten : ν.Written)
    {path : PathParam} {exp : ν.Number} {later : Instant} (hne : joinSegments path ≠ "")
    (hlive : ν.isPast exp later = false) :
    LocalStreamGuard.canActivate ν hmac cfg path
      ⟨some (LocalSigningService.compute ν hmac cfg
        (Visibility.PRIVATE.value ++ "/" ++ joinSegments path) exp),
        some (String.ofList (spaced (ν.text exp).toList))⟩ later = true ↔
      ν.isFinite exp = true ∧ '+' ∉ (ν.text exp).toList := by
  constructor
  · intro h
    unfold LocalStreamGuard.canActivate at h
    simp only [Option.getD_some, if_neg hne] at h
    split at h
    · cases h
    · unfold LocalSigningService.verify at h
      split at h
      · cases h
      · next hvalid =>
        have hfinite := not_not.1 (not_or.1 hvalid).1
        have hplus : '+' ∉ (ν.text exp).toList := by
          intro hplus
          cases hfinite.symm.trans (hwritten.spaced exp hplus)
        rw [spaced_of_notMem hplus, String.ofList_toList] at hfinite
        exact ⟨hwritten.isFinite_ofText exp hfinite, hplus⟩
  · rintro ⟨hfinite, hplus⟩
    have hexp : ν.ofText (String.ofList (spaced (ν.text exp).toList)) = exp := by
      rw [spaced_of_notMem hplus, String.ofList_toList, hwritten.ofText_text exp hfinite]
    have htoken : LocalSigningService.compute ν hmac cfg
        (Visibility.PRIVATE.value ++ "/" ++ joinSegments path) exp ≠ "" := by
      intro hempty
      have htext := congrArg String.toList hempty
      rw [LocalSigningService.compute, String.toList_ofList] at htext
      exact toHex_ne_nil (hdigest _) htext
    unfold LocalStreamGuard.canActivate LocalSigningService.verify
    simp only [Option.getD_some, if_neg hne, hexp]
    simp [htoken, hfinite, hlive]

end Guard

/-! ## A request for an access URL -/

section AccessUrl

variable {σ : Type}

theorem visibilityOf_of_slash {key : String} {v : Visibility} {rest : List Char}
    (h : key.toList = v.value.toList ++ '/' :: rest) : visibilityOf key = .ok v := by
  have htrim : trimLeading key.toList = key.toList := by
    rw [h]
    cases v <;> rfl
  have hhead : (segments key.toList).head? = some v.value.toList := by
    rw [h, head_append_slash (visibility_segment v).2.2.1]
  unfold visibilityOf
  simp only [htrim, hhead]
  cases v with
  | PUBLIC => exact if_pos rfl
  | PRIVATE => rw [if_neg (by decide), if_pos rfl]

section Urls

variable (fs : FileSystem σ) (ν : Numbers) (hmac : String → String → List UInt8)
  (cfg : LocalConfig) (signedUrlTtlSeconds : ν.Number) (ttlSeconds : Option ν.Number)
  (now : Instant) (s : LocalState σ ν) {key normalized : String}

theorem getAccessUrl_public (hkey : sanitizeKey key = .ok normalized)
    (hv : visibilityOf key = .ok .PUBLIC) (hlead : key.toList.head? ≠ some '/') :
    ∃ url, (StorageService.getAccessUrl (localStorageProvider fs ν hmac cfg) signedUrlTtlSeconds
        key ttlSeconds now s).1 = .ok url ∧
      url.toList = storageRoot cfg.publicBaseUrl ++ (normalized.toList ++ []) := by
  refine ⟨joinUrl cfg.publicBaseUrl [localStorageRoute, normalized], ?_, ?_⟩
  · rw [StorageService.getAccessUrl, hv]
    show LocalStorageProvider.publicUrl cfg key = _
    rw [LocalStorageProvider.publicUrl_eq hv hlead, hkey]
    rfl
  · rw [joinUrl_storage (normalized_of_sanitizeKey hkey), List.append_nil]

theorem getAccessUrl_private (hkey : sanitizeKey key = .ok normalized)
    (hv : visibilityOf key = .ok .PRIVATE) :
    let expiresAt := ν.plus (now / 1000) (ttlSeconds.getD signedUrlTtlSeconds)
    ∃ url, (StorageService.getAccessUrl (localStorageProvider fs ν hmac cfg) signedUrlTtlSeconds
        key ttlSeconds now s).1 = .ok url ∧
      url.toList = storageRoot cfg.publicBaseUrl ++ (normalized.toList ++ '?' ::
        signedQuery (LocalSigningService.compute ν hmac cfg normalized expiresAt).toList
          (ν.text expiresAt).toList) := by
  intro expiresAt
  refine ⟨joinUrl cfg.publicBaseUrl [localStorageRoute, normalized] ++ "?token=" ++
    LocalSigningService.compute ν hmac cfg normalized expiresAt ++ "&exp=" ++ ν.text expiresAt,
    ?_, ?_⟩
  · rw [StorageService.getAccessUrl, hv]
    show (LocalStorageProvider.signedUrl ν hmac cfg key _ now s).1 = _
    rw [LocalStorageProvider.signedUrl, hkey]
    rfl
  · generalize LocalSigningService.compute ν hmac cfg normalized expiresAt = token
    have hquery : "?token=".toList = '?' :: "token=".toList := by decide
    rw [String.toList_append, String.toList_append, String.toList_append, String.toList_append,
      joinUrl_storage (normalized_of_sanitizeKey hkey), hquery, signedQuery_eq]
    simp only [List.append_assoc, List.cons_append]

variable {ν hmac cfg} in
theorem isAlphanum_of_mem_compute {expiresAt : ν.Number} {c : Char}
    (h : c ∈ (LocalSigningService.compute ν hmac cfg key expiresAt).toList) :
    c.isAlphanum = true := by
  rw [LocalSigningService.compute, String.toList_ofList] at h
  exact isAlphanum_of_mem_toHex h

variable {cfg} in
/-- The query of a served key is what follows its first `?`. -/
theorem urlQuery_of_served {v : Visibility} {query : List Char} (h : Served cfg v normalized)
    (hquery : '#' ∉ query) :
    urlQuery (storageRoot cfg.publicBaseUrl ++ (normalized.toList ++ '?' :: query)) = query := by
  obtain ⟨⟨hbase, hbase'⟩, _, hkey, hkey', _⟩ := h
  rw [← List.append_assoc]
  refine urlQuery_eq (fun hmem => ?_) (fun hmem => ?_) hquery
  · rcases List.mem_append.1 hmem with hmem | hmem
    · exact hbase ((mem_storageRoot (Or.inl rfl)).1 hmem)
    · exact hkey hmem
  · rcases List.mem_append.1 hmem with hmem | hmem
    · exact hbase' ((mem_storageRoot (Or.inr rfl)).1 hmem)
    · exact hkey' hmem

variable {ν hmac cfg} in
/-- The guard on the private route, for a request with the URL of a served key. -/
theorem canActivate_accessUrl_iff (malformed : List Char → List Char)
    (hdigest : ∀ m, hmac cfg.secret m ≠ []) (hwritten : ν.Written) {param : PathParam}
    {url : List Char} {exp : ν.Number} {later : Instant} (hserved : Served cfg .PRIVATE normalized)
    (hparam : normalized = Visibility.PRIVATE.value ++ "/" ++ joinSegments param)
    (hne : joinSegments param ≠ "") (hlive : ν.isPast exp later = false)
    (hurl : url = storageRoot cfg.publicBaseUrl ++ (normalized.toList ++ '?' ::
      signedQuery (LocalSigningService.compute ν hmac cfg normalized exp).toList
        (ν.text exp).toList)) :
    LocalStreamGuard.canActivate ν hmac cfg param (queryOf malformed (urlQuery url)) later = true ↔
      ν.isFinite exp = true ∧ '+' ∉ (ν.text exp).toList := by
  have htoken : ∀ c ∈ (LocalSigningService.compute ν hmac cfg normalized exp).toList,
      c.isAlphanum = true := fun c hc => isAlphanum_of_mem_compute hc
  have hnumber := hwritten.numberChar exp
  rw [hurl, urlQuery_of_served hserved (sharp_notMem_signedQuery htoken hnumber),
    queryOf_signedQuery htoken hnumber, String.ofList_toList, hparam]
  exact canActivate_signed_iff hdigest hwritten hne hlive

end Urls

/-- A request for the URL of a key comes to the file of that key, and a private one through the
guard, exactly if the key is served and, for a private key, the expiry is finite and written
without a `+`. -/
theorem StorageService.reaches_accessUrl_iff (fs : FileSystem σ) (ν : Numbers)
    (hmac : String → String → List UInt8) (cwd : Path) (cfg : LocalConfig)
    (malformed : List Char → List Char) (signedUrlTtlSeconds : ν.Number)
    (hdigest : ∀ m, hmac cfg.secret m ≠ []) (hwritten : ν.Written)
    {key normalized : String} {v : Visibility} (hkey : sanitizeKey key = .ok normalized)
    (hv : (v.value ++ "/").toList <+: key.toList) (ttlSeconds : Option ν.Number)
    (now later : Instant) (s : LocalState σ ν) :
    let expiresAt := ν.plus (now / 1000) (ttlSeconds.getD signedUrlTtlSeconds)
    (v = .PRIVATE → ν.isPast expiresAt later = false) →
    ((∃ url, (getAccessUrl (localStorageProvider fs ν hmac cfg) signedUrlTtlSeconds key ttlSeconds
          now s).1 = .ok url ∧
        Reaches malformed ν hmac cwd cfg url later
          (LocalStorageProvider.keyFile cwd cfg normalized)) ↔
      Served cfg v normalized ∧
        (v = .PRIVATE → ν.isFinite expiresAt = true ∧ '+' ∉ (ν.text expiresAt).toList)) := by
  intro expiresAt hlive
  have hnormal := normalized_of_sanitizeKey hkey
  obtain ⟨rest, hrest⟩ := hv
  have htext : key.toList = v.value.toList ++ '/' :: rest := by
    rw [← hrest]
    simp [String.toList_append]
  have hvisibility := visibilityOf_of_slash htext
  have hhead := head_of_visibilityOf hvisibility hkey
  cases v with
  | PUBLIC =>
      have hlead : key.toList.head? ≠ some '/' := by
        rw [htext]
        exact fun hslash => absurd (Option.some.inj hslash) (by decide)
      obtain ⟨url, hget, hurl⟩ := getAccessUrl_public fs ν hmac cfg signedUrlTtlSeconds
        ttlSeconds now s hkey hvisibility hlead
      rw [hget]
      constructor
      · rintro ⟨_, hok, v', param, hroute, _, hfile⟩
        cases hok
        exact ⟨served_of_file hnormal hhead hurl (by simp) hroute hfile, nofun⟩
      · rintro ⟨hserved, _⟩
        obtain ⟨param, hroute, _, _, hfile⟩ :=
          routeOf_of_served cwd hnormal hhead hurl (by simp) hserved
        exact ⟨_, rfl, .PUBLIC, param, hroute, nofun, hfile⟩
  | PRIVATE =>
      obtain ⟨url, hget, hurl⟩ := getAccessUrl_private fs ν hmac cfg signedUrlTtlSeconds
        ttlSeconds now s hkey hvisibility
      rw [hget]
      constructor
      · rintro ⟨_, hok, v', param, hroute, hpass, hfile⟩
        cases hok
        have hserved := served_of_file hnormal hhead hurl (by simp) hroute hfile
        obtain ⟨param', hroute', hparam, hne, _⟩ :=
          routeOf_of_served cwd hnormal hhead hurl (by simp) hserved
        obtain ⟨rfl, rfl⟩ := Prod.mk.inj (Option.some.inj (hroute.symm.trans hroute'))
        have hguard := canActivate_accessUrl_iff malformed hdigest hwritten hserved hparam hne
          (hlive rfl) hurl
        exact ⟨hserved, fun _ => hguard.1 (hpass rfl)⟩
      · rintro ⟨hserved, hexpiry⟩
        obtain ⟨param, hroute, hparam, hne, hfile⟩ :=
          routeOf_of_served cwd hnormal hhead hurl (by simp) hserved
        have hguard := canActivate_accessUrl_iff malformed hdigest hwritten hserved hparam hne
          (hlive rfl) hurl
        exact ⟨_, rfl, .PRIVATE, param, hroute, fun _ => hguard.2 (hexpiry rfl), hfile⟩

theorem hmacSample_ne_nil (message : String) :
    hmacSample localConfigSample.secret message ≠ [] := by
  unfold hmacSample
  split
  · decide +kernel
  · simp

theorem written_numbersSample : numbersSample.Written := by
  have hdigit : ∀ (n : Nat) (c : Char), c ∈ n.repr.toList → c.isDigit = true := by
    intro n c hc
    rw [Nat.toList_repr] at hc
    exact Nat.isDigit_of_mem_toDigits (by decide) (by decide) hc
  refine ⟨?_, ?_, ?_, ?_⟩
  · intro n hn
    obtain ⟨n, rfl⟩ := Option.isSome_iff_exists.1 hn
    have hne : n.repr ≠ "" := Nat.repr_ne_empty
    have hall : n.repr.toList.all Char.isDigit = true := List.all_eq_true.2 (hdigit n)
    show (if n.repr ≠ "" ∧ n.repr.toList.all Char.isDigit then
      some (Nat.ofDigitChars 10 n.repr.toList 0) else none) = some n
    rw [if_pos ⟨hne, hall⟩, Nat.toList_repr, Nat.ofDigitChars_ten_toDigits]
  · intro n hn
    cases n with
    | none => exact absurd hn (by decide)
    | some n => rfl
  · intro n c hc
    cases n with
    | none =>
        have hnan : ∀ c ∈ "NaN".toList, c.isAlphanum = true :=
          List.all_eq_true.1 (by decide)
        exact Or.inl (hnan c hc)
    | some n => exact Or.inl (by simp [Char.isAlphanum, hdigit n c hc])
  · intro n hplus
    cases n with
    | none => exact absurd hplus (by decide)
    | some n => exact absurd (hdigit n '+' hplus) (by decide)

theorem StorageService.reaches_accessUrl_private :
    ∃ url, (getAccessUrl providerSample (some 3600) "private/a.txt" none 1700000000000
        ⟨fun _ => none, []⟩).1 = .ok url ∧
      Reaches id numbersSample hmacSample "/srv".toList localConfigSample url 1700001800000
        (LocalStorageProvider.keyFile "/srv".toList localConfigSample "private/a.txt") :=
  (reaches_accessUrl_iff (mapFs "/srv".toList) numbersSample hmacSample "/srv".toList
    localConfigSample id (some 3600) (fun m => hmacSample_ne_nil m) written_numbersSample
    (v := .PRIVATE) (by decide +kernel) (by decide) none 1700000000000 1700001800000
    ⟨fun _ => none, []⟩ (fun _ => by decide +kernel)).2
    ⟨by decide +kernel, fun _ => ⟨by decide, by decide +kernel⟩⟩

/-- The router refuses to decode a key with a percent sign of its own. -/
theorem StorageService.not_reaches_percent :
    sanitizeKey "public/100%.png" = .ok "public/100%.png" ∧
    ¬ ∃ url, (getAccessUrl providerSample (some 3600) "public/100%.png" none 1700000000000
        ⟨fun _ => none, []⟩).1 = .ok url ∧
      Reaches id numbersSample hmacSample "/srv".toList localConfigSample url 1700000000000
        (LocalStorageProvider.keyFile "/srv".toList localConfigSample "public/100%.png") := by
  have hget : (getAccessUrl providerSample (some 3600) "public/100%.png" none 1700000000000
      ⟨fun _ => none, []⟩).1 = .ok "http://localhost:3000/storage/public/100%.png" := by
    decide +kernel
  have hroute : routeOf localConfigSample.publicBaseUrl
      (urlPath "http://localhost:3000/storage/public/100%.png".toList) = none := by
    decide +kernel
  refine ⟨by decide +kernel, ?_⟩
  rintro ⟨url, hok, v, param, hparam, _⟩
  obtain rfl := Except.ok.inj (hget.symm.trans hok)
  rw [hroute] at hparam
  cases hparam

end AccessUrl

end NestStarter.Storage
