import NestStarter.Whatsapp.Auth

/-! # What `flush` makes durable

Blobs are numbered from 1 in the order they were saved. While the uploads do not
overlap, the storage holds some blob `k`, an upload in flight carries a later one,
and what is pending is the last. A `flush` that finds an upload in flight awaits
it once and does not look again: another call that awaited the same upload may
have begun the next one by then.
-/

namespace NestStarter.Whatsapp.Auth

open NestStarter.Core

def Blob (saved : List String) (k : Nat) (b : String) : Prop :=
  0 < k ∧ saved[k - 1]? = some b

theorem Blob.append {saved : List String} {k : Nat} {b : String} (h : Blob saved k b)
    (s : String) : Blob (saved ++ [s]) k b := by
  have hlt : k - 1 < saved.length := by
    obtain ⟨hlt, _⟩ := List.getElem?_eq_some_iff.1 h.2
    exact hlt
  exact ⟨h.1, by rw [List.getElem?_append_left hlt, h.2]⟩

theorem Blob.le_length {saved : List String} {k : Nat} {b : String} (h : Blob saved k b) :
    k ≤ saved.length := by
  obtain ⟨hlt, _⟩ := List.getElem?_eq_some_iff.1 h.2
  omega

theorem blob_last (saved : List String) (s : String) :
    Blob (saved ++ [s]) (saved.length + 1) s := by
  refine ⟨Nat.succ_pos _, ?_⟩
  simp

theorem Blob.getLast {saved : List String} {b : String} (h : Blob saved saved.length b) :
    saved.getLast? = some b := by
  rw [List.getLast?_eq_getElem?]
  exact h.2

/-- What a resolved `flush` promises: the storage held the blob saved last before the
call, or a later one. -/
def Durable (saved : List String) (f : Flushed) : Prop :=
  f.savedBefore = 0 ∨ ∃ k b, f.savedBefore ≤ k ∧ Blob saved k b ∧ f.stored = some b

theorem Durable.append {saved : List String} {f : Flushed} (h : Durable saved f) (s : String) :
    Durable (saved ++ [s]) f := by
  obtain h | ⟨k, b, hle, hb, hs⟩ := h
  · exact .inl h
  · exact .inr ⟨k, b, hle, hb.append s, hs⟩

/-- A client's upload is between its request and its `finally`. -/
def InFlight : Pc → Prop
  | .uploading _ _ _ _ => True
  | .uploaded _ _ _ _ => True
  | _ => False

/-- So is an upload the client awaits, or the resumption after it is due. -/
def Outstanding : Pc → Prop
  | .waiting _ _ _ => True
  | pc => InFlight pc

/-- The steps the promises leave out: `clear`, and the failure of an upload. -/
def NoFailure (p : State) (a : Nat × Action) : Prop :=
  match a.2, p.client a.1 with
  | .clear, _ => False
  | .fail, .uploading _ _ _ _ => False
  | .fail, .uploaded _ _ _ _ => False
  | _, _ => True

theorem noFailure_iff {p : State} {a : Nat × Action} :
    NoFailure p a ↔ a.2 ≠ .clear ∧ (a.2 = .fail → ¬ InFlight (p.client a.1)) := by
  obtain ⟨c, action⟩ := a
  cases action with
  | fail => cases hpc : p.client c <;> simp [NoFailure, InFlight, hpc]
  | _ => simp [NoFailure]

instance : (pc : Pc) → Decidable (InFlight pc)
  | .uploading _ _ _ _ | .uploaded _ _ _ _ => isTrue trivial
  | .idle | .waiting _ _ _ | .flushed _ _ | .reading | .read _ | .deleting | .deleted _
  | .checking | .checked _ => isFalse id

instance (p : State) (a : Nat × Action) : Decidable (NoFailure p a) :=
  decidable_of_iff _ noFailure_iff.symm

/-- Where a `flush` resumes after an upload of another call, none is in flight again; or
no blob is pending, and none was when it was called. -/
def Rechecked (p : State) (a : Nat × Action) : Prop :=
  match a.2, p.client a.1 with
  | .resume, .waiting _ found _ =>
      p.shared.flushInFlight = none ∨ p.shared.pending = none ∧ found = false
  | _, _ => True

/-- Whether a client that awaits another call's upload had found a pending blob. -/
def Pc.found : Pc → Option Bool
  | .waiting _ found _ => some found
  | _ => none

theorem rechecked_iff {p : State} {a : Nat × Action} :
    Rechecked p a ↔ a.2 = .resume → ∀ found ∈ (p.client a.1).found,
      p.shared.flushInFlight = none ∨ p.shared.pending = none ∧ found = false := by
  obtain ⟨c, action⟩ := a
  cases action with
  | resume => cases hpc : p.client c <;> simp [Rechecked, Pc.found, hpc]
  | _ => simp [Rechecked]

instance (p : State) (a : Nat × Action) : Decidable (Rechecked p a) :=
  decidable_of_iff _ rechecked_iff.symm

/-- The upload in flight: the client, the promise, and the number of its blob. -/
structure Upload where
  client : Nat
  id : Nat
  seq : Nat

/-- The number of the newest blob that is stored or on its way. -/
def newest (k : Nat) : Option Upload → Nat
  | none => k
  | some u => u.seq

/-- The fields, when the storage holds blob `k` and `cur` is in flight. -/
structure Store (k : Nat) (cur : Option Upload) (sh : Shared) : Prop where
  slot : sh.flushInFlight = cur.map Upload.id
  stored : k = 0 ∨ ∃ b, Blob sh.saved k b ∧ sh.stored = some b
  pending : ∀ b, sh.pending = some b → Blob sh.saved sh.saved.length b
  latest : sh.pending = none → newest k cur = sh.saved.length
  ahead : ∀ u, cur = some u → k ≤ u.seq ∧ u.seq ≤ sh.saved.length
  unsettled : ∀ u, cur = some u → u.id ∉ sh.settled ∧ u.id < sh.nextUpload
  fresh : ∀ i ∈ sh.settled, i < sh.nextUpload
  failed : sh.failed = []
  flushes : ∀ f ∈ sh.flushes, Durable sh.saved f

/-- What a client's call carries. -/
def Loc (k : Nat) (cur : Option Upload) (c : Nat) (sh : Shared) : Pc → Prop
  | .uploading id payload seq n => cur = some ⟨c, id, seq⟩ ∧ Blob sh.saved seq payload ∧ n ≤ seq
  | .uploaded id ok seq n => cur = some ⟨c, id, seq⟩ ∧ ok = true ∧ k = seq ∧ n ≤ seq
  | .flushed ok n => ok = true ∧ n ≤ k
  | .waiting id found n => n ≤ sh.saved.length ∧
      (id ∉ sh.settled → ∃ u, cur = some u ∧ u.id = id) ∧
      (found = false → n ≤ newest k cur ∧ (id ∈ sh.settled → n ≤ k))
  | .deleting => False
  | _ => True

structure Inv (k : Nat) (cur : Option Upload) (p : State) : Prop where
  holds : Pool.Holds (Store k cur) (Loc k cur) p
  owner : ∀ u, cur = some u → InFlight (p.client u.client)
  armed : p.shared.pending ≠ none →
    p.shared.flushTimer = true ∨ ∃ c id found n, p.client c = .waiting id found n

/-! ## The fields under each operation -/

section

variable {k : Nat} {cur : Option Upload} {sh sh' : Shared}

theorem Loc.frame {c : Nat} {pc : Pc} (h : Loc k cur c sh pc)
    (hblob : ∀ j b, Blob sh.saved j b → Blob sh'.saved j b)
    (hlen : sh.saved.length ≤ sh'.saved.length) (hsettled : sh'.settled = sh.settled) :
    Loc k cur c sh' pc := by
  cases pc with
  | uploading id payload seq n => exact ⟨h.1, hblob _ _ h.2.1, h.2.2⟩
  | waiting id found n =>
      obtain ⟨hn, hcur, hfound⟩ := h
      exact ⟨by omega, by rwa [hsettled], by rwa [hsettled]⟩
  | _ => exact h

theorem Store.durable (h : Store k cur sh) {n : Nat} (hn : n ≤ k) :
    Durable sh.saved ⟨n, sh.stored⟩ := by
  obtain hk | ⟨b, hb, hstored⟩ := h.stored
  · exact .inl (show n = 0 by omega)
  · exact .inr ⟨k, b, hn, hb, hstored⟩

theorem Store.resolve (h : Store k cur sh) {n : Nat} (hn : n ≤ k) :
    Store k cur (sh.resolve n) := by
  refine ⟨h.slot, h.stored, h.pending, h.latest, h.ahead, h.unsettled, h.fresh, h.failed, ?_⟩
  intro f hf
  obtain rfl | hf := List.mem_cons.1 hf
  · exact h.durable hn
  · exact h.flushes f hf

theorem Store.save (h : Store k cur sh) (s : String) : Store k cur (sh.save s) := by
  refine ⟨h.slot, ?_, ?_, by simp [Shared.save], ?_, h.unsettled, h.fresh, h.failed, ?_⟩
  · obtain hk | ⟨b, hb, hstored⟩ := h.stored
    · exact .inl hk
    · exact .inr ⟨b, hb.append s, hstored⟩
  · intro b hb
    have hb : s = b := Option.some.inj hb
    subst hb
    simpa [Shared.save] using blob_last sh.saved s
  · intro u hu
    have hahead := h.ahead u hu
    simp only [Shared.save, List.length_append, List.length_singleton]
    omega
  · exact fun f hf => (h.flushes f hf).append s

/-- A client is about to resume its `flush`. -/
def Waiting (pc : Pc) : Prop := ∃ id found n, pc = .waiting id found n

@[simp] theorem waiting_iff {pc : Pc} :
    Waiting pc ↔ ∃ id found n, pc = .waiting id found n := Iff.rfl

/-- A step of client `c` from `pc` to `pc'`: what it does to the fields, and that what the
other clients carry stays true. -/
structure After (k : Nat) (cur : Option Upload) (c : Nat) (sh : Shared) (pc : Pc) (k' : Nat)
    (cur' : Option Upload) (sh' : Shared) (pc' : Pc) : Prop where
  store : Store k' cur' sh'
  own : Loc k' cur' c sh' pc'
  others : ∀ d, d ≠ c → ∀ lo, Loc k cur d sh lo → Loc k' cur' d sh' lo
  owner : ∀ u, cur' = some u → cur = some u ∧ u.client ≠ c ∨ u.client = c ∧ InFlight pc'
  armed : sh'.pending ≠ none → sh'.flushTimer = true ∨ Waiting pc' ∨
    sh.pending ≠ none ∧ sh'.flushTimer = sh.flushTimer ∧ ¬ Waiting pc

/-- Nothing is in flight: what is pending goes out, or the call resolves. -/
theorem Store.uploadPending (h : Store k none sh) {n : Nat} (hn : n ≤ sh.saved.length) (c : Nat)
    (pc : Pc) : ∃ cur', After k none c sh pc k cur' (uploadPending sh n).1
      (uploadPending sh n).2 := by
  unfold Auth.uploadPending
  cases hpending : sh.pending with
  | none =>
      have hk : k = sh.saved.length := h.latest hpending
      have hothers : ∀ d, d ≠ c → ∀ lo, Loc k none d sh lo → Loc k none d (sh.resolve n) lo :=
        fun d _ lo hloc => hloc.frame (fun _ _ hb => hb) (Nat.le_refl _) rfl
      exact ⟨none, h.resolve (by omega), trivial, hothers, by simp, fun hp => absurd hpending hp⟩
  | some payload =>
      have hb := h.pending payload hpending
      have hk : k ≤ sh.saved.length := by
        obtain hk | ⟨b, hb, _⟩ := h.stored
        · omega
        · exact hb.le_length
      have hnew : sh.nextUpload ∉ sh.settled := fun hmem =>
        Nat.lt_irrefl _ (h.fresh _ hmem)
      refine ⟨some ⟨c, sh.nextUpload, sh.saved.length⟩, ?_, ⟨rfl, hb, hn⟩, ?_, ?_, by simp⟩
      · refine ⟨rfl, h.stored, by simp, fun _ => rfl, ?_, ?_, ?_, h.failed, h.flushes⟩
        · intro u hu
          cases hu
          exact ⟨hk, Nat.le_refl _⟩
        · intro u hu
          cases hu
          exact ⟨hnew, Nat.lt_succ_self _⟩
        · exact fun i hi => Nat.lt_succ_of_lt (h.fresh i hi)
      · intro d _ lo hloc
        cases lo with
        | uploading id payload seq n => cases hloc.1
        | uploaded id ok seq n => cases hloc.1
        | waiting id found n =>
            obtain ⟨hn, hcur, hfound⟩ := hloc
            refine ⟨hn, fun hid => ?_, fun hf => ⟨hn, (hfound hf).2⟩⟩
            obtain ⟨u, hu, _⟩ := hcur hid
            cases hu
        | _ => exact hloc
      · intro u hu
        cases hu
        exact .inr ⟨rfl, trivial⟩

/-- `flush`, from a client that has nothing in flight. -/
theorem Store.flush (h : Store k cur sh) {c : Nat} (hc : ∀ u, cur = some u → u.client ≠ c) :
    ∃ cur', After k cur c sh .idle k cur' (flush sh).1 (flush sh).2 := by
  have htimer : Store k cur { sh with flushTimer := false } :=
    ⟨h.slot, h.stored, h.pending, h.latest, h.ahead, h.unsettled, h.fresh, h.failed, h.flushes⟩
  have hframe : ∀ d lo, Loc k cur d sh lo → Loc k cur d { sh with flushTimer := false } lo :=
    fun d lo hloc => hloc.frame (fun _ _ hb => hb) (Nat.le_refl _) rfl
  cases cur with
  | none =>
      rw [flush_of_none h.slot]
      obtain ⟨cur', hafter⟩ := htimer.uploadPending (Nat.le_refl _) c .idle
      exact ⟨cur', hafter.store, hafter.own, fun d hd lo hloc => hafter.others d hd lo
        (hframe d lo hloc), hafter.owner, fun hp => absurd (uploadPending_pending _ _) hp⟩
  | some u =>
      rw [flush_of_some h.slot]
      have hfound : sh.pending.isSome = false →
          sh.saved.length ≤ newest k (some u) ∧ (u.id ∈ sh.settled → sh.saved.length ≤ k) := by
        intro hnone
        refine ⟨Nat.le_of_eq (h.latest (by simpa using hnone)).symm, fun hmem => ?_⟩
        exact absurd hmem (h.unsettled u rfl).1
      refine ⟨some u, htimer, ⟨Nat.le_refl _, fun _ => ⟨u, rfl, rfl⟩, hfound⟩, ?_, ?_, ?_⟩
      · exact fun d _ lo hloc => hframe d lo hloc
      · exact fun v hv => .inl ⟨hv, hc v hv⟩
      · exact fun _ => .inr (.inl ⟨_, _, _, rfl⟩)

theorem Store.upload (h : Store k cur sh) {c id seq n : Nat} {payload : String}
    (hloc : Loc k cur c sh (.uploading id payload seq n)) :
    After k cur c sh (.uploading id payload seq n) seq cur { sh with stored := some payload }
      (.uploaded id true seq n) := by
  obtain ⟨hcur, hb, hn⟩ := hloc
  have hahead := h.ahead _ hcur
  have hk : k ≤ seq := hahead.1
  refine ⟨⟨h.slot, .inr ⟨payload, hb, rfl⟩, h.pending, ?_, ?_, h.unsettled, h.fresh, h.failed,
    h.flushes⟩, ⟨hcur, rfl, rfl, hn⟩, ?_, ?_, ?_⟩
  · rw [hcur]
    have hlatest := h.latest
    rwa [hcur] at hlatest
  · intro u hu
    cases hcur.symm.trans hu
    exact ⟨Nat.le_refl _, hahead.2⟩
  · intro d hd lo hlo
    -- The others have nothing in flight, and the stored blob's number only grows.
    cases lo with
    | uploading id' payload' seq' n' => exact hlo
    | uploaded id' ok' seq' n' =>
        cases hcur.symm.trans hlo.1
        exact absurd rfl hd
    | flushed ok' n' => exact ⟨hlo.1, Nat.le_trans hlo.2 hk⟩
    | waiting id' found' n' =>
        obtain ⟨hn', hcur', hfound'⟩ := hlo
        refine ⟨hn', hcur', fun hf => ⟨?_, fun hmem => Nat.le_trans ((hfound' hf).2 hmem) hk⟩⟩
        have hnewest := (hfound' hf).1
        rw [hcur] at hnewest ⊢
        exact hnewest
    | _ => exact hlo
  · intro u hu
    cases hcur.symm.trans hu
    exact .inr ⟨rfl, trivial⟩
  · exact fun hp => .inr (.inr ⟨hp, rfl, by simp⟩)

theorem Store.settle (h : Store k cur sh) {c id seq n : Nat} {ok : Bool}
    (hloc : Loc k cur c sh (.uploaded id ok seq n)) :
    After k cur c sh (.uploaded id ok seq n) k none { sh with
      flushInFlight := none
      settled := id :: sh.settled
      failed := if ok then sh.failed else id :: sh.failed } (.flushed ok n) := by
  obtain ⟨hcur, rfl, rfl, hn⟩ := hloc
  refine ⟨⟨rfl, h.stored, h.pending, ?_, by simp, by simp, ?_, h.failed, h.flushes⟩, ⟨rfl, hn⟩,
    ?_, by simp, ?_⟩
  · have hlatest := h.latest
    rwa [hcur] at hlatest
  · intro i hi
    obtain rfl | hi := List.mem_cons.1 hi
    · exact (h.unsettled _ hcur).2
    · exact h.fresh i hi
  · intro d hd lo hlo
    cases lo with
    | uploading id' payload' seq' n' =>
        cases hcur.symm.trans hlo.1
        exact absurd rfl hd
    | uploaded id' ok' seq' n' =>
        cases hcur.symm.trans hlo.1
        exact absurd rfl hd
    | waiting id' found' n' =>
        obtain ⟨hn', hcur', hfound'⟩ := hlo
        rw [hcur] at hcur' hfound'
        refine ⟨hn', fun hid => ?_, fun hf => ⟨(hfound' hf).1, fun _ => (hfound' hf).1⟩⟩
        simp only [List.mem_cons, not_or] at hid
        obtain ⟨u, hu, hid'⟩ := hcur' hid.2
        cases hu
        exact absurd hid'.symm hid.1
    | _ => exact hlo
  · exact fun hp => .inr (.inr ⟨hp, rfl, by simp⟩)

/-- A step that leaves the blobs and uploads alone. -/
theorem Store.stay (h : Store k cur sh) {c : Nat} {pc pc' : Pc} (hown : Loc k cur c sh pc')
    (hc : ∀ u, cur = some u → u.client ≠ c) (hpc : ¬ Waiting pc) :
    After k cur c sh pc k cur sh pc' :=
  ⟨h, hown, fun _ _ _ hlo => hlo, fun u hu => .inl ⟨hu, hc u hu⟩,
    fun hp => .inr (.inr ⟨hp, rfl, hpc⟩)⟩

theorem Store.hydrate (h : Store k cur sh) {c : Nat} {pc : Pc}
    (hc : ∀ u, cur = some u → u.client ≠ c) (hpc : ¬ Waiting pc) (cached : Option String) :
    After k cur c sh pc k cur (sh.hydrate cached) .idle :=
  ⟨⟨h.slot, h.stored, h.pending, h.latest, h.ahead, h.unsettled, h.fresh, h.failed, h.flushes⟩,
    trivial, fun _ _ _ hlo => hlo.frame (fun _ _ hb => hb) (Nat.le_refl _) rfl,
    fun u hu => .inl ⟨hu, hc u hu⟩, fun hp => .inr (.inr ⟨hp, rfl, hpc⟩)⟩

end

/-! ## Steps -/

theorem Inv.after {k : Nat} {cur : Option Upload} {p : State} {a : Nat × Action} {sh : Shared}
    {pc : Pc} (h : Inv k cur p) (hfail : NoFailure p a) (hre : Rechecked p a)
    (hmoves : Moves p.shared (p.client a.1) a.2 sh pc) :
    ∃ k' cur', After k cur a.1 p.shared (p.client a.1) k' cur' sh pc := by
  have hstore := h.holds.shared
  have hloc := h.holds.client a.1
  have howner : ∀ u, cur = some u → ¬ InFlight (p.client a.1) → u.client ≠ a.1 :=
    fun u hu hpc he => hpc (he ▸ h.owner u hu)
  unfold NoFailure at hfail
  unfold Rechecked at hre
  generalize p.client a.1 = pc₀, a.2 = b at hmoves hfail hre hloc howner ⊢
  cases hmoves with
  | save s =>
      refine ⟨k, cur, hstore.save s, trivial, fun d _ lo hlo => ?_,
        fun u hu => .inl ⟨hu, howner u hu id⟩, fun _ => .inl rfl⟩
      exact hlo.frame (fun _ _ hb => hb.append s) (by simp [Shared.save]) rfl
  | flush => exact ⟨k, hstore.flush fun u hu => howner u hu id⟩
  | fire _ => exact ⟨k, hstore.flush fun u hu => howner u hu id⟩
  | upload id payload seq n => exact ⟨seq, cur, hstore.upload hloc⟩
  | settle id ok seq n => exact ⟨k, none, hstore.settle hloc⟩
  | proceed upload found n _ hsettled =>
      obtain hslot | ⟨hpending, rfl⟩ := hre
      · have hcur : cur = none := by
          have hslot' := hstore.slot
          rw [hslot] at hslot'
          simpa using hslot'.symm
        subst hcur
        exact ⟨k, hstore.uploadPending hloc.1 a.1 _⟩
      · -- Nothing was pending at the call, and the upload it awaited has landed.
        have hn : n ≤ k := (hloc.2.2 rfl).2 hsettled
        have hresolve : uploadPending p.shared n = (p.shared.resolve n, .idle) := by
          simp only [Auth.uploadPending, hpending]
        rw [hresolve]
        exact ⟨k, cur, hstore.resolve hn, trivial,
          fun _ _ _ hlo => hlo.frame (fun _ _ hb => hb) (Nat.le_refl _) rfl,
          fun u hu => .inl ⟨hu, howner u hu id⟩, fun hp => absurd hpending hp⟩
  | resolve n =>
      exact ⟨k, cur, hstore.resolve hloc.2, trivial,
        fun _ _ _ hlo => hlo.frame (fun _ _ hb => hb) (Nat.le_refl _) rfl,
        fun u hu => .inl ⟨hu, howner u hu id⟩, fun hp => .inr (.inr ⟨hp, rfl, by simp⟩)⟩
  | hydrate blob => exact ⟨k, cur, hstore.hydrate (fun u hu => howner u hu id) (by simp) _⟩
  | hydrateNull => exact ⟨k, cur, hstore.hydrate (fun u hu => howner u hu id) (by simp) _⟩
  | clear => exact hfail.elim
  | uploadFails id payload seq n => exact hfail.elim
  | responseFails id seq n => exact hfail.elim
  | reject id found n hmem =>
      rw [hstore.failed] at hmem
      cases hmem
  | rejectOwn n => cases hloc.1
  | delete => exact hloc.elim
  | deleteFails => exact hloc.elim
  | load =>
      refine ⟨k, cur, hstore.stay ?_ (fun u hu => howner u hu id) (by simp)⟩
      unfold load
      split <;> trivial
  | exists_ =>
      refine ⟨k, cur, hstore.stay ?_ (fun u hu => howner u hu id) (by simp)⟩
      unfold exists_
      split <;> trivial
  | _ => exact ⟨k, cur, hstore.stay trivial (fun u hu => howner u hu id) (by simp)⟩

theorem After.inv {k k' : Nat} {cur cur' : Option Upload} {p : State} {c : Nat} {sh : Shared}
    {pc : Pc} (h : Inv k cur p) (ha : After k cur c p.shared (p.client c) k' cur' sh pc) :
    Inv k' cur' ⟨sh, Function.update p.client c pc⟩ := by
  refine ⟨Pool.Holds.move ha.store ha.own fun d hd => ha.others d hd _ (h.holds.client d),
    fun u hu => ?_, fun hp => ?_⟩
  · obtain ⟨hcur, hne⟩ | ⟨rfl, hpc⟩ := ha.owner u hu
    · simpa [Function.update_of_ne hne] using h.owner u hcur
    · simpa using hpc
  · obtain htimer | ⟨id, found, n, hw⟩ | ⟨hp', htimer, hpc⟩ := ha.armed hp
    · exact .inl htimer
    · exact .inr ⟨c, id, found, n, by simp [hw]⟩
    · obtain hold | ⟨d, id, found, n, hd⟩ := h.armed hp'
      · exact .inl (htimer.trans hold)
      · have hne : d ≠ c := fun he => hpc ⟨id, found, n, he ▸ hd⟩
        exact .inr ⟨d, id, found, n, (Function.update_of_ne hne _ _).trans hd⟩

theorem Inv.step {p p' : State} {a : Nat × Action} (h : ∃ k cur, Inv k cur p)
    (hfail : NoFailure p a) (hre : Rechecked p a) (hstep : Pool.step move p a = some p') :
    ∃ k cur, Inv k cur p' := by
  obtain ⟨k, cur, h⟩ := h
  obtain ⟨sh, pc, hmove, rfl⟩ := Pool.step_spec hstep
  obtain ⟨k', cur', hafter⟩ := h.after hfail hre (moves_of_move hmove)
  exact ⟨k', cur', hafter.inv h⟩

theorem inv_init (stored : Option String) : Inv 0 none (init stored) := by
  refine ⟨⟨⟨rfl, .inl rfl, ?_, fun _ => rfl, ?_, ?_, ?_, rfl, ?_⟩, fun _ => trivial⟩, ?_, ?_⟩
  all_goals simp [init]

/-- What the uploads and `flush` promise in every state. -/
structure Durability (p : State) : Prop where
  /-- Uploads never overlap. -/
  single : ∀ c d, InFlight (p.client c) → InFlight (p.client d) → c = d
  flushes : ∀ f ∈ p.shared.flushes, Durable p.shared.saved f
  /-- With no timer and no upload outstanding, the blob saved last is stored. -/
  settled : p.shared.flushTimer = false → (∀ c, ¬ Outstanding (p.client c)) →
    p.shared.saved ≠ [] → p.shared.stored = p.shared.saved.getLast?

theorem Inv.inFlight {k : Nat} {cur : Option Upload} {p : State} (h : Inv k cur p) {c : Nat}
    (hc : InFlight (p.client c)) : ∃ u, cur = some u ∧ u.client = c := by
  have hloc := h.holds.client c
  cases hpc : p.client c with
  | uploading id payload seq n =>
      rw [hpc] at hloc
      exact ⟨_, hloc.1, rfl⟩
  | uploaded id ok seq n =>
      rw [hpc] at hloc
      exact ⟨_, hloc.1, rfl⟩
  | _ =>
      rw [hpc] at hc
      exact hc.elim

theorem Inv.durability {k : Nat} {cur : Option Upload} {p : State} (h : Inv k cur p) :
    Durability p := by
  have hstore := h.holds.shared
  refine ⟨fun c d hc hd => ?_, hstore.flushes, fun htimer hidle hsaved => ?_⟩
  · obtain ⟨u, hu, rfl⟩ := h.inFlight hc
    obtain ⟨v, hv, rfl⟩ := h.inFlight hd
    rw [Option.some.inj (hu.symm.trans hv)]
  · have hcur : cur = none := by
      cases hcur : cur with
      | none => rfl
      | some u =>
          have howner := h.owner u hcur
          have hu := hidle u.client
          cases hpc : p.client u.client <;> simp_all [InFlight, Outstanding]
    have hpending : p.shared.pending = none := by
      refine Classical.byContradiction fun hp => ?_
      obtain ht | ⟨c, id, found, n, hc⟩ := h.armed hp
      · rw [htimer] at ht
        cases ht
      · exact hidle c (by simp [hc, Outstanding])
    have hlatest := hstore.latest hpending
    rw [hcur] at hlatest
    have hk : k = p.shared.saved.length := hlatest
    obtain h0 | ⟨b, hb, hstored⟩ := hstore.stored
    · exact absurd (List.length_eq_zero_iff.1 (hk.symm.trans h0)) hsaved
    · rw [hk] at hb
      rw [hstored, hb.getLast]

/-- Without `clear` and failing uploads, in a run in which every `flush` that awaited
another call's upload finds none in flight when it resumes (or had nothing to wait for),
the uploads and `flush` keep their promises in every state. -/
theorem durability_of_run {stored : Option String} {as : List (Nat × Action)} {p : State}
    (hfail : Along (Pool.step move) NoFailure (init stored) as)
    (hre : Along (Pool.step move) Rechecked (init stored) as)
    (hrun : run (Pool.step move) (init stored) as = some p) : Durability p := by
  let Bound (p : State) : Prop := ∃ k cur, Inv k cur p
  obtain ⟨k, cur, h⟩ : Bound p := run_inv
    (fun _ _ _ hs hC he => Inv.step hs hC.1 hC.2 he) ⟨0, none, inv_init stored⟩
    (hfail.and hre) hrun
  exact h.durability

/-- One `flush` awaits the debounced upload and then makes its own. -/
def oneWaits : List (Nat × Action) :=
  [(0, .save "first"), (0, .fire), (1, .save "second"), (1, .flush), (0, .apply), (0, .settle),
    (1, .resume), (0, .resume), (1, .apply), (1, .settle), (1, .resume)]

theorem durability_of_oneWaits :
    (run (Pool.step move) (init none) oneWaits).isSome = true ∧
      ∀ p, run (Pool.step move) (init none) oneWaits = some p → Durability p :=
  ⟨by decide, fun _ hrun => durability_of_run (by decide) (by decide) hrun⟩

/-- Two calls of `flush` await the debounced upload. -/
def twoWait : List (Nat × Action) :=
  [(0, .save "first"), (0, .fire), (1, .save "second"), (1, .flush), (2, .flush), (0, .apply),
    (0, .settle), (1, .resume), (2, .resume)]

/-- The second of them resolves while the first one's upload is on its way, with the
older blob in the storage. -/
theorem not_durable_after_twoWait :
    ∃ p, run (Pool.step move) (init none) twoWait = some p ∧
      Along (Pool.step move) NoFailure (init none) twoWait ∧
      ∃ f ∈ p.shared.flushes, ¬ Durable p.shared.saved f := by
  have hrun : (run (Pool.step move) (init none) twoWait).any (fun p =>
      decide (Along (Pool.step move) NoFailure (init none) twoWait ∧
        p.shared.saved = ["first", "second"] ∧
        (⟨2, some "first"⟩ : Flushed) ∈ p.shared.flushes)) = true := by
    decide
  simp only [Option.any_eq_true, decide_eq_true_eq] at hrun
  obtain ⟨p, hp, hC, hsaved, hf⟩ := hrun
  refine ⟨p, hp, hC, _, hf, fun hdurable => ?_⟩
  rw [hsaved] at hdurable
  obtain h0 | ⟨k, b, hle, hb, hstored⟩ := hdurable
  · cases h0
  · have hk : k = 2 := Nat.le_antisymm hb.le_length hle
    subst hk
    have hsecond : b = "second" := Option.some.inj hb.2.symm
    have hfirst : "first" = b := Option.some.inj hstored
    rw [hsecond] at hfirst
    exact absurd hfirst (by decide)

end NestStarter.Whatsapp.Auth
