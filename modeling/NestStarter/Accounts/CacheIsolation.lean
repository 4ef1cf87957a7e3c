import NestStarter.Accounts.Cache
import NestStarter.Core.Glob
import NestStarter.Core.Machine

/-! # Two drivers on one Redis

`RedisCacheDriver` puts its prefix in front of keys and of patterns alike. Two instances with
different prefixes share the database; what they share beyond that depends on the prefixes.
-/

namespace NestStarter.Accounts

open NestStarter.Core

def utf8 (s : String) : List UInt8 := s.toList.flatMap String.utf8EncodeChar

@[simp] theorem utf8_append (s t : String) : utf8 (s ++ t) = utf8 s ++ utf8 t := by
  simp [utf8]

theorem toList_isPrefix {s t : String} (h : utf8 s <+: utf8 t) :
    s.toList <+: t.toList := by
  obtain ⟨bytes, hbytes⟩ := h
  refine List.isPrefix_of_utf8Encode_append_eq_utf8Encode bytes.toByteArray ?_
  rw [List.utf8Encode, List.utf8Encode, ← List.toByteArray_append]
  exact congrArg List.toByteArray hbytes

def normalizedPrefix (keyPrefix : String) : String :=
  if keyPrefix.toList.getLast? = some ':' then keyPrefix else keyPrefix ++ ":"

theorem prefixed_eq (keyPrefix key : String) :
    prefixed keyPrefix key = normalizedPrefix keyPrefix ++ key := rfl

/-- Neither text begins with the other. -/
def Incomparable (s t : String) : Prop := ¬ s.toList <+: t.toList ∧ ¬ t.toList <+: s.toList

instance (s t : String) : Decidable (Incomparable s t) := inferInstanceAs (Decidable (_ ∧ _))

def Behind (keyPrefix key : String) : Prop := ∃ k, key = prefixed keyPrefix k

theorem behind_prefixed (keyPrefix key : String) : Behind keyPrefix (prefixed keyPrefix key) :=
  ⟨key, rfl⟩

theorem Behind.isPrefix {keyPrefix key : String} (h : Behind keyPrefix key) :
    (normalizedPrefix keyPrefix).toList <+: key.toList := by
  obtain ⟨k, rfl⟩ := h
  rw [prefixed_eq, String.toList_append]
  exact List.prefix_append _ _

theorem behind_of_isPrefix {keyPrefix key : String}
    (h : (normalizedPrefix keyPrefix).toList <+: key.toList) : Behind keyPrefix key := by
  obtain ⟨rest, hrest⟩ := h
  refine ⟨String.ofList rest, String.toList_inj.1 ?_⟩
  rw [prefixed_eq, String.toList_append, String.toList_ofList, hrest]

/-- Two prefixes have a key in common exactly when one begins with the other. -/
theorem exists_behind_iff {keyPrefix keyPrefix' : String} :
    (∃ key, Behind keyPrefix key ∧ Behind keyPrefix' key) ↔
      ¬ Incomparable (normalizedPrefix keyPrefix) (normalizedPrefix keyPrefix') := by
  rw [Incomparable, ← not_or, not_not]
  constructor
  · rintro ⟨key, h, h'⟩
    exact List.prefix_or_prefix_of_prefix h.isPrefix h'.isPrefix
  · rintro (h | h)
    · exact ⟨prefixed keyPrefix' "", behind_of_isPrefix (h.trans (behind_prefixed _ _).isPrefix),
        behind_prefixed _ _⟩
    · exact ⟨prefixed keyPrefix "", behind_prefixed _ _,
        behind_of_isPrefix (h.trans (behind_prefixed _ _).isPrefix)⟩

section Match

-- The rank of bytes in a range of a pattern.
variable (rank : UInt8 → Int)

/-- Whether `MATCH pattern` selects a key. -/
def isMatch (pattern key : String) : Bool := Glob.glob rank (utf8 pattern) (utf8 key)

/-- What a whole `SCAN` yields: keys that match, also several times, and every live one. -/
structure Redis.Scan (r : Redis) (now : Instant) (pattern : String) (batches : List (List String)) :
    Prop where
  matched : ∀ key ∈ batches.flatten, isMatch rank pattern key = true
  complete : ∀ key, r.get now key ≠ none → isMatch rank pattern key = true →
    key ∈ batches.flatten

end Match

def Redis.unlinkAll (r : Redis) (keys : List String) : Redis := keys.foldl Redis.unlink r

theorem Redis.unlinkAll_apply (r : Redis) (keys : List String) (key : String) :
    r.unlinkAll keys key = if key ∈ keys then none else r key := by
  induction keys generalizing r with
  | nil => rfl
  | cons k keys ih =>
      have hcons : r.unlinkAll (k :: keys) key = (r.unlink k).unlinkAll keys key := rfl
      rw [hcons, ih]
      by_cases hmem : key ∈ keys
      · rw [if_pos hmem, if_pos (List.mem_cons_of_mem k hmem)]
      · by_cases hk : key = k
        · subst hk
          simp [Redis.unlink]
        · simp [hmem, hk, Redis.unlink, Function.update_of_ne]

/-- `deletePattern`, over the batches of its scan. -/
def CacheDriver.deletePattern (driver : CacheDriver) (batches : List (List String)) (r : Redis) :
    Redis :=
  match driver with
  | .noop => r
  | .redis _ => batches.foldl (fun r keys => if keys.length > 0 then r.unlinkAll keys else r) r

theorem CacheDriver.deletePattern_apply (keyPrefix : String) (batches : List (List String))
    (r : Redis) (key : String) :
    (CacheDriver.redis keyPrefix).deletePattern batches r key =
      if key ∈ batches.flatten then none else r key := by
  induction batches generalizing r with
  | nil => rfl
  | cons keys batches ih =>
      have hcons : (CacheDriver.redis keyPrefix).deletePattern (keys :: batches) r =
          (CacheDriver.redis keyPrefix).deletePattern batches (r.unlinkAll keys) := by
        cases keys <;> rfl
      rw [hcons, ih, Redis.unlinkAll_apply, List.flatten_cons]
      by_cases hmem : key ∈ batches.flatten
      · rw [if_pos hmem, if_pos (List.mem_append_right keys hmem)]
      · simp [hmem]

/-- After a scan, exactly the keys that match are gone. -/
theorem CacheDriver.get_deletePattern {rank : UInt8 → Int} {keyPrefix pattern : String}
    {batches : List (List String)} {r : Redis} {now : Instant}
    (h : r.Scan rank now (prefixed keyPrefix pattern) batches) (key : String) :
    ((CacheDriver.redis keyPrefix).deletePattern batches r).get now key =
      if isMatch rank (prefixed keyPrefix pattern) key = true then none else r.get now key := by
  by_cases hmem : key ∈ batches.flatten
  · rw [if_pos (h.matched key hmem), Redis.get, deletePattern_apply, if_pos hmem]
    rfl
  · rw [Redis.get, deletePattern_apply, if_neg hmem]
    split
    · rename_i hmatch
      exact not_not.1 fun hne => hmem (h.complete key hne hmatch)
    · rfl

/-! ## Two instances -/

inductive Owner where
  | first
  | second
  deriving DecidableEq, Repr

def Owner.other : Owner → Owner
  | first => second
  | second => first

/-- The calls of `ICacheDriver`; a deletion by pattern comes with what its scan yields. -/
inductive CacheCall where
  | get (key : String)
  | set (key : String) (value : JsObject) (ttlSeconds : Nat)
  | delete (key : String)
  | deletePattern (pattern : String) (batches : List (List String))

/-- The keys that a call may write or remove, through an instance with this prefix. -/
def CacheCall.Touches (own key : String) : CacheCall → Prop
  | .get _ => False
  | .set k _ _ | .delete k => key = prefixed own k
  | .deletePattern _ batches => key ∈ batches.flatten

structure CacheEvent where
  owner : Owner
  now : Instant
  call : CacheCall

/-- The database, and through whom each key was written last. -/
structure SharedCache where
  redis : Redis
  writer : String → Option Owner

namespace SharedCache

def initial (r : Redis) : SharedCache := { redis := r, writer := fun _ => none }

section Calls

variable (toISOString : Instant → String) (prefixes : Owner → String)

def exec (s : SharedCache) (e : CacheEvent) : SharedCache :=
  let driver := CacheDriver.redis (prefixes e.owner)
  match e.call with
  | .get _ => s
  | .set key value ttlSeconds =>
      { redis := driver.set toISOString e.now key value ttlSeconds s.redis
        writer := Function.update s.writer (prefixed (prefixes e.owner) key) (some e.owner) }
  | .delete key => { s with redis := driver.delete key s.redis }
  | .deletePattern _ batches => { s with redis := driver.deletePattern batches s.redis }

def reply (s : SharedCache) (e : CacheEvent) : Option JsObject :=
  match e.call with
  | .get key => (CacheDriver.redis (prefixes e.owner)).get e.now key s.redis
  | _ => none

def step (s : SharedCache) (e : CacheEvent) : Option SharedCache :=
  some (s.exec toISOString prefixes e)

/-- The scan of a deletion by pattern is one of the database as it stands. -/
def Scanned (rank : UInt8 → Int) (s : SharedCache) (e : CacheEvent) : Prop :=
  ∀ pattern batches, e.call = .deletePattern pattern batches →
    s.redis.Scan rank e.now (prefixed (prefixes e.owner) pattern) batches

structure Wrote (s : SharedCache) (now : Instant) (o : Owner) (key : String) : Prop where
  live : (s.redis.get now key).isSome = true
  writer : s.writer key = some o

/-- A call leaves the entries of the other instance alone: it returns none of them, and all are
there afterwards as they were. -/
structure Respects (s : SharedCache) (e : CacheEvent) : Prop where
  returned : ∀ key, e.call = .get key → (s.reply prefixes e).isSome = true →
    s.writer (prefixed (prefixes e.owner) key) ≠ some e.owner.other
  kept : ∀ key, s.Wrote e.now e.owner.other key →
    (s.exec toISOString prefixes e).redis key = s.redis key ∧
      (s.exec toISOString prefixes e).writer key = some e.owner.other

end Calls

end SharedCache

/-- Whatever the two instances call, in whatever order, no call touches an entry of the other. -/
def Isolated (toISOString : Instant → String) (rank : UInt8 → Int) (prefixes : Owner → String) :
    Prop :=
  ∀ (r : Redis) (events : List CacheEvent),
    Along (SharedCache.step toISOString prefixes) (SharedCache.Scanned prefixes rank)
      (.initial r) events →
    Along (SharedCache.step toISOString prefixes) (SharedCache.Respects toISOString prefixes)
      (.initial r) events

section Misses

variable (rank : UInt8 → Int)

/-- The call names no key behind the other prefix, and no pattern that selects one. -/
def CacheCall.Misses (own others : String) : CacheCall → Prop
  | .get key | .set key _ _ | .delete key => ¬ Behind others (prefixed own key)
  | .deletePattern pattern _ =>
      ∀ key, isMatch rank (prefixed own pattern) (prefixed others key) = false

end Misses

namespace SharedCache

variable {toISOString : Instant → String} {rank : UInt8 → Int} {prefixes : Owner → String}
  {s : SharedCache} {e : CacheEvent}

/-- What an instance wrote is behind its prefix. -/
def Owned (prefixes : Owner → String) (s : SharedCache) : Prop :=
  ∀ key o, s.writer key = some o → Behind (prefixes o) key

theorem owned_initial (r : Redis) : (initial r).Owned prefixes := by
  intro key o h
  cases h

theorem Owned.exec (h : s.Owned prefixes) (e : CacheEvent) :
    (s.exec toISOString prefixes e).Owned prefixes := by
  intro key o hwriter
  unfold SharedCache.exec at hwriter
  cases hcall : e.call with
  | get k => exact h key o (by simpa [hcall] using hwriter)
  | set k value ttlSeconds =>
      simp only [hcall] at hwriter
      by_cases hk : key = prefixed (prefixes e.owner) k
      · rw [hk, Function.update_self] at hwriter
        cases hwriter
        exact ⟨k, hk⟩
      · rw [Function.update_of_ne hk] at hwriter
        exact h key o hwriter
  | delete k => exact h key o (by simpa [hcall] using hwriter)
  | deletePattern pattern batches => exact h key o (by simpa [hcall] using hwriter)

theorem exec_of_not_touches {key : String}
    (h : ¬ e.call.Touches (prefixes e.owner) key) :
    (s.exec toISOString prefixes e).redis key = s.redis key ∧
      (s.exec toISOString prefixes e).writer key = s.writer key := by
  unfold SharedCache.exec
  cases hcall : e.call with
  | get k => exact ⟨rfl, rfl⟩
  | set k value ttlSeconds =>
      rw [hcall] at h
      exact ⟨Function.update_of_ne h _ _, Function.update_of_ne h _ _⟩
  | delete k =>
      rw [hcall] at h
      exact ⟨Function.update_of_ne h _ _, rfl⟩
  | deletePattern pattern batches =>
      rw [hcall] at h
      have hkept := CacheDriver.deletePattern_apply (prefixes e.owner) batches s.redis key
      exact ⟨hkept.trans (if_neg h), rfl⟩

/-- A call that misses the keys behind a prefix touches none of them. -/
theorem Scanned.not_touches (hscan : s.Scanned prefixes rank e) {others key : String}
    (hmiss : e.call.Misses rank (prefixes e.owner) others) (hkey : Behind others key) :
    ¬ e.call.Touches (prefixes e.owner) key := by
  cases hcall : e.call with
  | get k => exact id
  | set k value ttlSeconds =>
      rw [hcall] at hmiss
      rintro rfl
      exact hmiss hkey
  | delete k =>
      rw [hcall] at hmiss
      rintro rfl
      exact hmiss hkey
  | deletePattern pattern batches =>
      rw [hcall] at hmiss
      obtain ⟨k, rfl⟩ := hkey
      intro hmem
      have hmatch := (hscan pattern batches hcall).matched _ hmem
      rw [hmiss k] at hmatch
      cases hmatch

/-- A call that misses the other's keys respects them. -/
theorem Owned.respects (h : s.Owned prefixes) (hscan : s.Scanned prefixes rank e)
    (hmiss : e.call.Misses rank (prefixes e.owner) (prefixes e.owner.other)) :
    s.Respects toISOString prefixes e := by
  constructor
  · intro key hcall _ hwriter
    rw [hcall] at hmiss
    exact hmiss (h _ _ hwriter)
  · intro key hkey
    have hbehind : Behind (prefixes e.owner.other) key := h key _ hkey.writer
    obtain ⟨hredis, hwriter⟩ := exec_of_not_touches (hscan.not_touches hmiss hbehind)
    exact ⟨hredis, hwriter.trans hkey.writer⟩

/-- In every run whose calls miss the other's keys, they all respect them. -/
theorem respects_along {r : Redis} {events : List CacheEvent}
    (hscan : Along (step toISOString prefixes) (Scanned prefixes rank) (initial r) events)
    (hmiss : ∀ e ∈ events, e.call.Misses rank (prefixes e.owner) (prefixes e.owner.other)) :
    Along (step toISOString prefixes) (Respects toISOString prefixes) (initial r) events := by
  have hboth := hscan.and (along_of_forall_mem hmiss (initial r))
  refine hboth.of_inv (I := Owned prefixes) ?_ ?_ (owned_initial r)
  · intro s e s' hs _ hstep
    cases hstep
    exact hs.exec e
  · intro s e hs h
    exact hs.respects h.1 h.2

end SharedCache

/-! ## Prefixes that keep two instances apart -/

/-- Neither prefix begins with the other, and no pattern behind one selects a key behind the
other. -/
structure Apart (rank : UInt8 → Int) (keyPrefix keyPrefix' : String) : Prop where
  incomparable : Incomparable (normalizedPrefix keyPrefix) (normalizedPrefix keyPrefix')
  missed : ∀ pattern key,
    isMatch rank (prefixed keyPrefix pattern) (prefixed keyPrefix' key) = false
  missed' : ∀ pattern key,
    isMatch rank (prefixed keyPrefix' pattern) (prefixed keyPrefix key) = false

namespace Isolated

variable {toISOString : Instant → String} {rank : UInt8 → Int} {prefixes : Owner → String}

def written (toISOString : Instant → String) (prefixes : Owner → String) (o : Owner)
    (key : String) : SharedCache :=
  (SharedCache.initial Redis.empty).exec toISOString prefixes
    { owner := o, now := 0, call := .set key { own := [] } 1 }

theorem live_written (o : Owner) (key : String) :
    (written toISOString prefixes o key).Wrote 0 o (prefixed (prefixes o) key) where
  live := by
    simp [written, SharedCache.exec, SharedCache.initial, CacheDriver.set, Redis.get_setEx_self]
  writer := Function.update_self ..

theorem get_written_of_ne {o : Owner} {key k : String} (h : k ≠ prefixed (prefixes o) key) :
    (written toISOString prefixes o key).redis.get 0 k = none :=
  Redis.get_setEx_of_ne h

theorem respects_written (h : Isolated toISOString rank prefixes) (o : Owner) (key : String)
    {e : CacheEvent} (hscan : (written toISOString prefixes o key).Scanned prefixes rank e) :
    (written toISOString prefixes o key).Respects toISOString prefixes e := by
  refine ((h Redis.empty [⟨o, 0, .set key { own := [] } 1⟩, e] ⟨?_, ?_⟩).2 _ rfl).1
  · intro pattern batches hcall
    cases hcall
  · intro s hs
    cases hs
    exact ⟨hscan, fun _ _ => trivial⟩

/-- What an instance wrote behind both prefixes, the other would return. -/
theorem not_behind (h : Isolated toISOString rank prefixes) (o : Owner) (key : String) :
    ¬ Behind (prefixes o) (prefixed (prefixes o.other) key) := by
  rintro ⟨key', hkey⟩
  have hwrote : (written toISOString prefixes o.other key).Wrote 0 o.other
      (prefixed (prefixes o) key') := hkey ▸ live_written o.other key
  have hget := h.respects_written o.other key (e := ⟨o, 0, .get key'⟩) (by
    intro pattern batches hcall
    cases hcall)
  refine hget.returned key' rfl ?_ hwrote.writer
  simpa [SharedCache.reply, CacheDriver.get] using hwrote.live

/-- What a pattern of the other selects, the other would remove. -/
theorem isMatch_eq_false (h : Isolated toISOString rank prefixes) (o : Owner)
    (pattern key : String) :
    isMatch rank (prefixed (prefixes o) pattern) (prefixed (prefixes o.other) key) = false := by
  by_contra hmatch
  rw [Bool.not_eq_false] at hmatch
  have hwrote : (written toISOString prefixes o.other key).Wrote 0 o.other
      (prefixed (prefixes o.other) key) := live_written o.other key
  have hdelete := h.respects_written o.other key
    (e := ⟨o, 0, .deletePattern pattern [[prefixed (prefixes o.other) key]]⟩) (by
      intro pattern' batches hcall
      cases hcall
      constructor
      · intro k hk
        rwa [List.mem_singleton.1 hk]
      · intro k hk _
        by_contra hne
        exact hk (get_written_of_ne fun heq => hne (List.mem_singleton.2 heq)))
  have hremoved := CacheDriver.deletePattern_apply (prefixes o)
    [[prefixed (prefixes o.other) key]] (written toISOString prefixes o.other key).redis
    (prefixed (prefixes o.other) key)
  rw [if_pos (by simp)] at hremoved
  have hlive := hwrote.live
  rw [Redis.get, (hdelete.kept _ hwrote).1.symm.trans hremoved] at hlive
  cases hlive

end Isolated

theorem apart_of_isolated {toISOString : Instant → String} {rank : UInt8 → Int}
    {prefixes : Owner → String} (h : Isolated toISOString rank prefixes) :
    Apart rank (prefixes .first) (prefixes .second) where
  incomparable := by
    by_contra hcomparable
    obtain ⟨_, hfirst, key, rfl⟩ := exists_behind_iff.2 hcomparable
    exact h.not_behind .first key hfirst
  missed := h.isMatch_eq_false .first
  missed' := h.isMatch_eq_false .second

/-- Between prefixes that are apart, every call misses the keys behind the other one. -/
theorem Apart.misses {rank : UInt8 → Int} {keyPrefix keyPrefix' : String}
    (h : Apart rank keyPrefix keyPrefix') (call : CacheCall) :
    call.Misses rank keyPrefix keyPrefix' := by
  have hkey : ∀ key, ¬ Behind keyPrefix' (prefixed keyPrefix key) := fun key hbehind =>
    exists_behind_iff.1 ⟨_, behind_prefixed keyPrefix key, hbehind⟩ h.incomparable
  cases call with
  | get key => exact hkey key
  | set key value ttlSeconds => exact hkey key
  | delete key => exact hkey key
  | deletePattern pattern batches => exact h.missed pattern

theorem Apart.symm {rank : UInt8 → Int} {keyPrefix keyPrefix' : String}
    (h : Apart rank keyPrefix keyPrefix') : Apart rank keyPrefix' keyPrefix :=
  ⟨⟨h.incomparable.2, h.incomparable.1⟩, h.missed', h.missed⟩

/-- Two instances are isolated in all runs exactly when their prefixes are apart. -/
theorem isolated_iff_apart (toISOString : Instant → String) (rank : UInt8 → Int)
    (prefixes : Owner → String) :
    Isolated toISOString rank prefixes ↔ Apart rank (prefixes .first) (prefixes .second) := by
  constructor
  · exact apart_of_isolated
  · intro h r events hscan
    refine SharedCache.respects_along hscan fun e _ => ?_
    cases e.owner with
    | first => exact h.misses e.call
    | second => exact h.symm.misses e.call

/-- A prefix that patterns take literally. -/
def PlainPrefix (keyPrefix : String) : Prop :=
  Glob.isPlain (utf8 (normalizedPrefix keyPrefix)) = true

instance (keyPrefix : String) : Decidable (PlainPrefix keyPrefix) :=
  inferInstanceAs (Decidable (_ = _))

/-- A pattern behind a plain prefix selects keys behind it only. -/
theorem PlainPrefix.behind {rank : UInt8 → Int} {keyPrefix pattern key : String}
    (h : PlainPrefix keyPrefix)
    (hmatch : isMatch rank (prefixed keyPrefix pattern) key = true) : Behind keyPrefix key := by
  rw [isMatch, prefixed_eq, utf8_append, Glob.glob_append h] at hmatch
  obtain ⟨rest, hrest, -⟩ := hmatch
  exact behind_of_isPrefix (toList_isPrefix ⟨rest, hrest.symm⟩)

theorem PlainPrefix.missed {rank : UInt8 → Int} {keyPrefix keyPrefix' : String}
    (h : PlainPrefix keyPrefix)
    (hinc : Incomparable (normalizedPrefix keyPrefix) (normalizedPrefix keyPrefix'))
    (pattern key : String) :
    isMatch rank (prefixed keyPrefix pattern) (prefixed keyPrefix' key) = false := by
  by_contra hmatch
  rw [Bool.not_eq_false] at hmatch
  exact exists_behind_iff.1 ⟨_, h.behind hmatch, behind_prefixed keyPrefix' key⟩ hinc

/-- Plain prefixes are apart when neither begins with the other. -/
theorem apart_iff_incomparable {rank : UInt8 → Int} {keyPrefix keyPrefix' : String}
    (h : PlainPrefix keyPrefix) (h' : PlainPrefix keyPrefix') :
    Apart rank keyPrefix keyPrefix' ↔
      Incomparable (normalizedPrefix keyPrefix) (normalizedPrefix keyPrefix') := by
  constructor
  · intro hapart
    exact hapart.incomparable
  · intro hinc
    exact ⟨hinc, h.missed hinc, h'.missed ⟨hinc.2, hinc.1⟩⟩

example : PlainPrefix "app" ∧ PlainPrefix "shop" ∧
    Incomparable (normalizedPrefix "app") (normalizedPrefix "shop") := by decide

def nestedPrefixes : Owner → String
  | .first => "app"
  | .second => "app:x"

def wildcardPrefixes : Owner → String
  | .first => "a*"
  | .second => "abc"

theorem isMatch_wildcard (rank : UInt8 → Int) :
    isMatch rank (prefixed "a*" "*") (prefixed "abc" "k") = true := by
  have hpattern :
      utf8 (prefixed "a*" "*") = utf8 "a" ++ Glob.star :: (utf8 ":" ++ [Glob.star]) := by
    decide
  have htext : utf8 (prefixed "abc" "k") = utf8 "a" ++ (utf8 "bc" ++ (utf8 ":" ++ utf8 "k")) := by
    decide
  rw [isMatch, hpattern, Glob.glob_append (by decide)]
  refine ⟨_, htext, (Glob.glob_star_cons _ _).2 ⟨_, List.suffix_append _ _, ?_⟩⟩
  exact (Glob.glob_append (by decide) _ _).2 ⟨_, rfl, Glob.glob_star _⟩

/-- The keys of one prefix are keys of the other, or are selected by its patterns. -/
theorem not_isolated_nested_wildcard :
    (normalizedPrefix (nestedPrefixes .first) ≠ normalizedPrefix (nestedPrefixes .second) ∧
      ¬ Isolated (fun _ => "") (fun b => b.toNat) nestedPrefixes) ∧
    (normalizedPrefix (wildcardPrefixes .first) ≠ normalizedPrefix (wildcardPrefixes .second) ∧
      ¬ Isolated (fun _ => "") (fun b => b.toNat) wildcardPrefixes) := by
  refine ⟨⟨by decide, fun h => ?_⟩, ⟨by decide, fun h => ?_⟩⟩
  · exact absurd (apart_of_isolated h).incomparable (by decide)
  · have hmissed := (apart_of_isolated h).missed "*" "k"
    rw [wildcardPrefixes, wildcardPrefixes, isMatch_wildcard] at hmissed
    cases hmissed

end NestStarter.Accounts
