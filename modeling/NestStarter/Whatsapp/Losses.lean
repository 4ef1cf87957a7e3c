import NestStarter.Whatsapp.Flush

/-! # What a failed upload loses

`flush` takes the pending blob out of its field and disarms the timer before it
awaits anything, and puts neither back when an upload fails. The blob of a failed
upload is gone unless a newer one was saved meanwhile; and a `flush` that awaited
the failed upload leaves its own pending blob behind, with no timer to fetch it.
-/

namespace NestStarter.Whatsapp.Auth

open NestStarter.Core

def Flushing : Pc → Prop
  | .waiting _ _ _ => True
  | .uploading _ _ _ _ => True
  | .uploaded _ _ _ _ => True
  | .flushed _ _ => True
  | _ => False

/-- The number of the blob a client's upload carries. -/
def Pc.carries : Pc → Option Nat
  | .uploading _ _ seq _ => some seq
  | .uploaded _ _ seq _ => some seq
  | _ => none

/-- The number of the blob whose upload has failed. -/
def Pc.lost : Pc → Option Nat
  | .uploaded _ false seq _ => some seq
  | _ => none

/-- The upload a client awaits that another call made. -/
def Pc.awaits : Pc → Option Nat
  | .waiting upload _ _ => some upload
  | _ => none

/-- The blob saved last is stored, or in flight, or pending; and what is pending has a timer
or a `flush` that has not returned. -/
structure NeverDropped (p : State) : Prop where
  kept : p.shared.saved ≠ [] → p.shared.stored ≠ p.shared.saved.getLast? →
    p.shared.pending = p.shared.saved.getLast? ∨
      ∃ c, (p.client c).carries = some p.shared.saved.length
  armed : p.shared.pending ≠ none →
    p.shared.flushTimer = true ∨ ∃ c, Flushing (p.client c)

/-- An upload that failed carried a blob that was overtaken, or stored all the same. -/
def Overtaken (p : State) (a : Nat × Action) : Prop :=
  a.2 = .settle → ∀ seq ∈ (p.client a.1).lost,
    seq < p.shared.saved.length ∨ p.shared.stored = p.shared.saved.getLast?

/-- A `flush` that gives up with the upload it awaited leaves nothing pending, or a timer,
or another call that still waits. -/
def Sheltered (p : State) (a : Nat × Action) : Prop :=
  a.2 = .resume → ∀ upload ∈ (p.client a.1).awaits, upload ∈ p.shared.failed →
    p.shared.pending = none ∨ p.shared.flushTimer = true ∨
      ∃ d, d ≠ a.1 ∧ (p.client d).awaits.isSome = true

/-- A `flush` that goes on after the upload it awaited finds no other one on its way, or
nothing pending. -/
def Alone (p : State) (a : Nat × Action) : Prop :=
  a.2 = .resume → ∀ upload ∈ (p.client a.1).awaits, upload ∉ p.shared.failed →
    p.shared.flushInFlight = none ∨ p.shared.pending = none

instance (p : State) (a : Nat × Action) : Decidable (Overtaken p a) := by
  unfold Overtaken; infer_instance

/-! ## The invariant -/

/-- The fields, when `cur` is in flight. -/
structure Held (cur : Option Upload) (sh : Shared) : Prop where
  slot : sh.flushInFlight = cur.map Upload.id
  pending : ∀ b, sh.pending = some b → Blob sh.saved sh.saved.length b
  flying : sh.pending = none → ∀ u, cur = some u → u.seq = sh.saved.length
  landed : sh.pending = none → cur = none → sh.saved = [] ∨ sh.stored = sh.saved.getLast?

/-- What a client's call carries. -/
def Hand (cur : Option Upload) (c : Nat) (sh : Shared) : Pc → Prop
  | .uploading id payload seq _ => cur = some ⟨c, id, seq⟩ ∧ Blob sh.saved seq payload
  | .uploaded id ok seq _ => cur = some ⟨c, id, seq⟩ ∧
      (ok = true → ∃ b, Blob sh.saved seq b ∧ sh.stored = some b)
  | .deleting => False
  | _ => True

structure Safe (cur : Option Upload) (p : State) : Prop where
  holds : Pool.Holds (Held cur) (Hand cur) p
  owner : ∀ u, cur = some u → (p.client u.client).carries = some u.seq
  armed : p.shared.pending ≠ none →
    p.shared.flushTimer = true ∨ ∃ c, (p.client c).awaits.isSome = true

/-- A step of client `c` from `pc` to `pc'`; `waits` says that another client awaits an
upload. -/
structure Later (waits : Prop) (cur : Option Upload) (c : Nat) (sh : Shared) (pc : Pc)
    (cur' : Option Upload) (sh' : Shared) (pc' : Pc) : Prop where
  held : Held cur' sh'
  own : Hand cur' c sh' pc'
  others : ∀ d, d ≠ c → ∀ lo, Hand cur d sh lo → Hand cur' d sh' lo
  owner : ∀ u, cur' = some u →
    cur = some u ∧ u.client ≠ c ∨ u.client = c ∧ pc'.carries = some u.seq
  armed : sh'.pending ≠ none → sh'.flushTimer = true ∨ pc'.awaits.isSome = true ∨
    (sh.pending ≠ none ∧ sh'.flushTimer = sh.flushTimer ∧ pc.awaits = none) ∨ waits

section

variable {waits : Prop} {cur : Option Upload} {sh sh' : Shared} {c : Nat}

theorem Hand.frame {pc : Pc} (h : Hand cur c sh pc)
    (hblob : ∀ j b, Blob sh.saved j b → Blob sh'.saved j b) (hstored : sh'.stored = sh.stored) :
    Hand cur c sh' pc := by
  cases pc with
  | uploading id payload seq n => exact ⟨h.1, hblob _ _ h.2⟩
  | uploaded id ok seq n =>
      refine ⟨h.1, fun hok => ?_⟩
      obtain ⟨b, hb, hs⟩ := h.2 hok
      exact ⟨b, hblob _ _ hb, hstored.trans hs⟩
  | _ => exact h

/-- While nothing is in flight, nobody carries anything. -/
theorem Hand.empty {cur' : Option Upload} {pc : Pc} (h : Hand none c sh pc) :
    Hand cur' c sh' pc := by
  cases pc with
  | uploading id payload seq n => cases h.1
  | uploaded id ok seq n => cases h.1
  | _ => exact h

theorem Held.save (h : Held cur sh) (s : String) : Held cur (sh.save s) := by
  refine ⟨h.slot, fun b hb => ?_, nofun, nofun⟩
  have hb : s = b := Option.some.inj hb
  subst hb
  simpa [Shared.save] using blob_last sh.saved s

/-- A step that leaves the blobs, the uploads and the object alone. -/
theorem Held.stay (h : Held cur sh) {pc pc' : Pc} (hown : Hand cur c sh pc')
    (hc : ∀ u, cur = some u → u.client ≠ c) (hpc : pc.awaits = none) :
    Later waits cur c sh pc cur sh pc' :=
  ⟨h, hown, fun _ _ _ hlo => hlo, fun u hu => .inl ⟨hu, hc u hu⟩,
    fun hp => .inr (.inr (.inl ⟨hp, rfl, hpc⟩))⟩

/-- Nothing is in flight: what is pending goes out, or the call resolves. -/
theorem Held.uploadPending (h : Held none sh) (n : Nat) (pc : Pc) :
    ∃ cur', Later waits none c sh pc cur' (uploadPending sh n).1 (uploadPending sh n).2 := by
  unfold Auth.uploadPending
  cases hpending : sh.pending with
  | none =>
      have hheld : Held none (sh.resolve n) := ⟨h.slot, h.pending, h.flying, h.landed⟩
      exact ⟨none, hheld, trivial, fun d _ lo hlo => hlo.frame (fun _ _ hb => hb) rfl, by simp,
        fun hp => absurd hpending hp⟩
  | some payload =>
      have hb := h.pending payload hpending
      refine ⟨some ⟨c, sh.nextUpload, sh.saved.length⟩, ⟨rfl, by simp, ?_, by simp⟩, ⟨rfl, hb⟩,
        fun d _ lo hlo => hlo.empty, ?_, by simp⟩
      · intro _ u hu
        cases hu
        rfl
      · intro u hu
        cases hu
        exact .inr ⟨rfl, rfl⟩

/-- `flush`, from a client that has nothing in flight. -/
theorem Held.flush (h : Held cur sh) (hc : ∀ u, cur = some u → u.client ≠ c) :
    ∃ cur', Later waits cur c sh .idle cur' (flush sh).1 (flush sh).2 := by
  have htimer : Held cur { sh with flushTimer := false } :=
    ⟨h.slot, h.pending, h.flying, h.landed⟩
  have hframe : ∀ d lo, Hand cur d sh lo → Hand cur d { sh with flushTimer := false } lo :=
    fun d lo hlo => hlo.frame (fun _ _ hb => hb) rfl
  cases cur with
  | none =>
      rw [flush_of_none h.slot]
      obtain ⟨cur', hlater⟩ : ∃ cur', Later waits none c _ .idle cur' _ _ :=
        htimer.uploadPending sh.saved.length .idle
      exact ⟨cur', hlater.held, hlater.own, fun d hd lo hlo =>
        hlater.others d hd lo (hframe d lo hlo), hlater.owner,
        fun hp => absurd (uploadPending_pending _ _) hp⟩
  | some u =>
      rw [flush_of_some h.slot]
      exact ⟨some u, htimer, trivial, fun d _ lo hlo => hframe d lo hlo,
        fun v hv => .inl ⟨hv, hc v hv⟩, fun _ => .inr (.inl rfl)⟩

/-- The upload takes effect: the storage holds its blob. -/
theorem Held.upload (h : Held cur sh) {id seq n : Nat} {payload : String}
    (hloc : Hand cur c sh (.uploading id payload seq n)) :
    Later waits cur c sh (.uploading id payload seq n) cur { sh with stored := some payload }
      (.uploaded id true seq n) := by
  obtain ⟨hcur, hb⟩ := hloc
  refine ⟨⟨h.slot, h.pending, h.flying, fun _ hnone => ?_⟩, ⟨hcur, fun _ => ⟨payload, hb, rfl⟩⟩,
    fun d hd lo hlo => ?_, fun u hu => ?_, fun hp => .inr (.inr (.inl ⟨hp, rfl, rfl⟩))⟩
  · cases hnone.symm.trans hcur
  · cases lo with
    | uploaded id' ok' seq' n' =>
        cases hcur.symm.trans hlo.1
        exact absurd rfl hd
    | _ => exact hlo
  · cases hcur.symm.trans hu
    exact .inr ⟨rfl, rfl⟩

theorem Held.fail (h : Held cur sh) {id seq n : Nat} {pc : Pc} (hcur : cur = some ⟨c, id, seq⟩)
    (hpc : pc.awaits = none) : Later waits cur c sh pc cur sh (.uploaded id false seq n) := by
  refine ⟨h, ⟨hcur, nofun⟩, fun _ _ _ hlo => hlo, fun u hu => ?_,
    fun hp => .inr (.inr (.inl ⟨hp, rfl, hpc⟩))⟩
  cases hcur.symm.trans hu
  exact .inr ⟨rfl, rfl⟩

/-- The `finally` of an upload that landed, or whose blob is not the last. -/
theorem Held.settle (h : Held cur sh) {id seq n : Nat} {ok : Bool}
    (hloc : Hand cur c sh (.uploaded id ok seq n))
    (hlost : ok = false → seq < sh.saved.length ∨ sh.stored = sh.saved.getLast?) :
    Later waits cur c sh (.uploaded id ok seq n) none { sh with
      flushInFlight := none
      settled := id :: sh.settled
      failed := if ok then sh.failed else id :: sh.failed } (.flushed ok n) := by
  obtain ⟨hcur, hok⟩ := hloc
  have hothers : ∀ d, d ≠ c → ∀ lo, Hand cur d sh lo → Hand none d { sh with
      flushInFlight := none
      settled := id :: sh.settled
      failed := if ok then sh.failed else id :: sh.failed } lo := by
    intro d hd lo hlo
    cases lo with
    | uploading id' payload' seq' n' =>
        cases hcur.symm.trans hlo.1
        exact absurd rfl hd
    | uploaded id' ok' seq' n' =>
        cases hcur.symm.trans hlo.1
        exact absurd rfl hd
    | _ => exact hlo
  refine ⟨⟨rfl, h.pending, by simp, fun hpending _ => .inr ?_⟩, trivial, hothers, by simp,
    fun hp => .inr (.inr (.inl ⟨hp, rfl, rfl⟩))⟩
  have hseq : seq = sh.saved.length := h.flying hpending _ hcur
  cases ok with
  | true =>
      obtain ⟨b, hb, hstored⟩ := hok rfl
      rw [hseq] at hb
      show sh.stored = sh.saved.getLast?
      rw [hstored, hb.getLast]
  | false =>
      rcases hlost rfl with hlt | hstored
      · omega
      · exact hstored

theorem Held.hydrate (h : Held cur sh) {pc : Pc} (hc : ∀ u, cur = some u → u.client ≠ c)
    (hpc : pc.awaits = none) (cached : Option String) :
    Later waits cur c sh pc cur (sh.hydrate cached) .idle :=
  ⟨⟨h.slot, h.pending, h.flying, h.landed⟩, trivial,
    fun _ _ _ hlo => hlo.frame (fun _ _ hb => hb) rfl, fun u hu => .inl ⟨hu, hc u hu⟩,
    fun hp => .inr (.inr (.inl ⟨hp, rfl, hpc⟩))⟩

end

/-! ## Steps -/

theorem Safe.later {cur : Option Upload} {p : State} {a : Nat × Action} {sh : Shared} {pc : Pc}
    (h : Safe cur p) (hclear : a.2 ≠ .clear) (hlost : Overtaken p a) (hshelter : Sheltered p a)
    (hre : Alone p a) (hmoves : Moves p.shared (p.client a.1) a.2 sh pc) :
    ∃ cur', Later (∃ d, d ≠ a.1 ∧ (p.client d).awaits.isSome = true) cur a.1 p.shared
      (p.client a.1) cur' sh pc := by
  have hheld := h.holds.shared
  have hloc := h.holds.client a.1
  have howner : ∀ u, cur = some u → (p.client a.1).carries = none → u.client ≠ a.1 := by
    intro u hu hnone he
    have hcarries := h.owner u hu
    rw [he, hnone] at hcarries
    cases hcarries
  unfold Overtaken at hlost
  unfold Sheltered at hshelter
  unfold Alone at hre
  generalize p.client a.1 = pc₀, a.2 = b at hmoves hlost hshelter hre hloc howner hclear ⊢
  cases hmoves with
  | save s =>
      refine ⟨cur, hheld.save s, trivial, fun d _ lo hlo => ?_,
        fun u hu => .inl ⟨hu, howner u hu rfl⟩, fun _ => .inl rfl⟩
      exact hlo.frame (fun _ _ hb => hb.append s) rfl
  | flush => exact hheld.flush fun u hu => howner u hu rfl
  | fire _ => exact hheld.flush fun u hu => howner u hu rfl
  | upload id payload seq n => exact ⟨cur, hheld.upload hloc⟩
  | uploadFails id payload seq n => exact ⟨cur, hheld.fail hloc.1 rfl⟩
  | responseFails id seq n => exact ⟨cur, hheld.fail hloc.1 rfl⟩
  | settle id ok seq n =>
      refine ⟨none, hheld.settle hloc fun hok => hlost rfl seq ?_⟩
      subst hok
      rfl
  | proceed upload found n hfailed hsettled =>
      rcases hre rfl upload rfl hfailed with hslot | hpending
      · have hcur : cur = none := by
          have hslot' := hheld.slot
          rw [hslot] at hslot'
          simpa using hslot'.symm
        subst hcur
        exact hheld.uploadPending n _
      · have hresolve : uploadPending p.shared n = (p.shared.resolve n, .idle) := by
          simp only [Auth.uploadPending, hpending]
        rw [hresolve]
        exact ⟨cur, ⟨hheld.slot, hheld.pending, hheld.flying, hheld.landed⟩, trivial,
          fun _ _ _ hlo => hlo.frame (fun _ _ hb => hb) rfl,
          fun u hu => .inl ⟨hu, howner u hu rfl⟩, fun hp => absurd hpending hp⟩
  | reject upload found n hfailed =>
      refine ⟨cur, hheld, trivial, fun _ _ _ hlo => hlo,
        fun u hu => .inl ⟨hu, howner u hu rfl⟩, fun hp => ?_⟩
      rcases hshelter rfl upload rfl hfailed with hpending | htimer | hwaits
      · exact absurd hpending hp
      · exact .inl htimer
      · exact .inr (.inr (.inr hwaits))
  | resolve n =>
      exact ⟨cur, ⟨hheld.slot, hheld.pending, hheld.flying, hheld.landed⟩, trivial,
        fun _ _ _ hlo => hlo.frame (fun _ _ hb => hb) rfl,
        fun u hu => .inl ⟨hu, howner u hu rfl⟩, fun hp => .inr (.inr (.inl ⟨hp, rfl, rfl⟩))⟩
  | hydrate blob => exact ⟨cur, hheld.hydrate (fun u hu => howner u hu rfl) rfl _⟩
  | hydrateNull => exact ⟨cur, hheld.hydrate (fun u hu => howner u hu rfl) rfl _⟩
  | clear => exact absurd rfl hclear
  | delete => exact hloc.elim
  | deleteFails => exact hloc.elim
  | load =>
      refine ⟨cur, hheld.stay ?_ (fun u hu => howner u hu rfl) rfl⟩
      unfold load
      split <;> trivial
  | exists_ =>
      refine ⟨cur, hheld.stay ?_ (fun u hu => howner u hu rfl) rfl⟩
      unfold exists_
      split <;> trivial
  | _ => exact ⟨cur, hheld.stay trivial (fun u hu => howner u hu rfl) rfl⟩

theorem Later.safe {cur cur' : Option Upload} {p : State} {c : Nat} {sh : Shared} {pc : Pc}
    (h : Safe cur p) (hl : Later (∃ d, d ≠ c ∧ (p.client d).awaits.isSome = true) cur c p.shared
      (p.client c) cur' sh pc) : Safe cur' ⟨sh, Function.update p.client c pc⟩ := by
  refine ⟨Pool.Holds.move hl.held hl.own fun d hd => hl.others d hd _ (h.holds.client d),
    fun u hu => ?_, fun hp => ?_⟩
  · rcases hl.owner u hu with ⟨hcur, hne⟩ | ⟨rfl, hpc⟩
    · simpa [Function.update_of_ne hne] using h.owner u hcur
    · simpa using hpc
  · rcases hl.armed hp with htimer | hw | ⟨hp', htimer, hpc⟩ | ⟨d, hne, hd⟩
    · exact .inl htimer
    · exact .inr ⟨c, by simpa using hw⟩
    · rcases h.armed hp' with hold | ⟨d, hd⟩
      · exact .inl (htimer.trans hold)
      · have hne : d ≠ c := by
          rintro rfl
          simp [hpc] at hd
        exact .inr ⟨d, by simpa [Function.update_of_ne hne] using hd⟩
    · exact .inr ⟨d, by simpa [Function.update_of_ne hne] using hd⟩

theorem safe_init (stored : Option String) : Safe none (init stored) := by
  refine ⟨⟨⟨rfl, ?_, ?_, fun _ _ => .inl rfl⟩, fun _ => trivial⟩, ?_, ?_⟩
  all_goals simp [init]

theorem Pc.flushing_of_awaits {pc : Pc} (h : pc.awaits.isSome = true) : Flushing pc := by
  cases pc <;> simp_all [Pc.awaits, Flushing]

theorem Safe.neverDropped {cur : Option Upload} {p : State} (h : Safe cur p) :
    NeverDropped p := by
  have hheld := h.holds.shared
  refine ⟨fun hsaved hstored => ?_, fun hp => ?_⟩
  · cases hpending : p.shared.pending with
    | some b => exact .inl (hheld.pending b hpending).getLast.symm
    | none =>
        cases hcur : cur with
        | none =>
            rcases hheld.landed hpending hcur with hno | hno
            · exact absurd hno hsaved
            · exact absurd hno hstored
        | some u =>
            have hseq := hheld.flying hpending u hcur
            exact .inr ⟨u.client, hseq ▸ h.owner u hcur⟩
  · exact (h.armed hp).imp_right fun ⟨c, hc⟩ => ⟨c, Pc.flushing_of_awaits hc⟩

/-- Without `clear`, in a run whose failed uploads were overtaken and whose rejected calls
of `flush` leave nothing unattended, no blob is dropped. -/
theorem neverDropped_of_run {stored : Option String} {as : List (Nat × Action)} {p : State}
    (hclear : ∀ a ∈ as, a.2 ≠ .clear)
    (hlost : Along (Pool.step move) Overtaken (init stored) as)
    (hshelter : Along (Pool.step move) Sheltered (init stored) as)
    (halone : Along (Pool.step move) Alone (init stored) as)
    (hrun : run (Pool.step move) (init stored) as = some p) : NeverDropped p := by
  let Bound (p : State) : Prop := ∃ cur, Safe cur p
  have hsteps : ∀ (p : State) (a : Nat × Action) (p' : State), Bound p →
      (a.2 ≠ .clear ∧ Overtaken p a) ∧ Sheltered p a ∧ Alone p a →
      Pool.step move p a = some p' → Bound p' := by
    rintro p a p' ⟨cur, h⟩ ⟨⟨hclear, hlost⟩, hshelter, halone⟩ hstep
    obtain ⟨sh, pc, hmove, rfl⟩ := Pool.step_spec hstep
    obtain ⟨cur', hlater⟩ := h.later hclear hlost hshelter halone (moves_of_move hmove)
    exact ⟨cur', hlater.safe h⟩
  have hC := ((along_of_forall_mem hclear (init stored)).and hlost).and (hshelter.and halone)
  obtain ⟨cur, h⟩ : Bound p := run_inv hsteps ⟨none, safe_init stored⟩ hC hrun
  exact h.neverDropped

/-- The debounced upload fails after a newer blob was saved, which the timer then fetches. -/
def overtakenUpload : List (Nat × Action) :=
  [(0, .save "first"), (0, .fire), (1, .save "second"), (0, .fail), (0, .settle), (0, .resume),
    (1, .fire), (1, .apply), (1, .settle), (1, .resume)]

theorem neverDropped_overtakenUpload :
    ∃ p, run (Pool.step move) (init none) overtakenUpload = some p ∧ NeverDropped p := by
  have hrun : (run (Pool.step move) (init none) overtakenUpload).isSome = true := by decide
  obtain ⟨p, hp⟩ := Option.isSome_iff_exists.1 hrun
  have hnone : Along (Pool.step move) (fun p a => (p.client a.1).awaits = none) (init none)
      overtakenUpload := by decide
  refine ⟨p, hp, neverDropped_of_run (by decide) (by decide) ?_ ?_ hp⟩
  all_goals
    refine along_iff.2 fun as₁ a as₂ p' has hp' _ upload hupload => ?_
    rw [along_iff.1 hnone as₁ a as₂ p' has hp'] at hupload
    cases hupload

/-- The debounced upload of the only blob fails. -/
def failedUpload : List (Nat × Action) :=
  [(0, .save "first"), (0, .fire), (0, .fail), (0, .settle), (0, .resume)]

/-- It fails after a `flush` has disarmed the timer of a newer blob to await it. -/
def failedForAnother : List (Nat × Action) :=
  [(0, .save "first"), (0, .fire), (1, .save "second"), (1, .flush), (0, .fail), (0, .settle),
    (1, .resume), (0, .resume)]

/-- In the first run the blob is neither stored nor pending; in the second it is pending, and
nothing will fetch it. -/
theorem dropped_after_failedUpload :
    (∃ p, run (Pool.step move) (init none) failedUpload = some p ∧ ¬ NeverDropped p) ∧
      ∃ p, run (Pool.step move) (init none) failedForAnother = some p ∧
        p.shared.pending = p.shared.saved.getLast? ∧ ¬ NeverDropped p := by
  have hrun : (run (Pool.step move) (init none) failedUpload).any (fun p =>
        decide ((∀ c : Nat, c < 2 → p.client c = .idle) ∧ p.shared.saved = ["first"] ∧
          p.shared.stored = none ∧ p.shared.pending = none)) = true ∧
      (run (Pool.step move) (init none) failedForAnother).any (fun p =>
        decide ((∀ c : Nat, c < 2 → p.client c = .idle) ∧ p.shared.saved = ["first", "second"] ∧
          p.shared.pending = some "second" ∧ p.shared.flushTimer = false)) = true := by
    decide
  simp only [Option.any_eq_true, decide_eq_true_eq] at hrun
  obtain ⟨⟨p, hp, hidle, hsaved, hstored, hpending⟩, q, hq, hidle', hsaved', hpending', htimer⟩ :=
    hrun
  have hall := Pool.forall_client hp (fun pc => pc = .idle) 2 (fun _ => rfl) (by decide) hidle
  have hall' := Pool.forall_client hq (fun pc => pc = .idle) 2 (fun _ => rfl) (by decide) hidle'
  refine ⟨⟨p, hp, fun h => ?_⟩, q, hq, by simp [hpending', hsaved'], fun h => ?_⟩
  · rcases h.kept (by simp [hsaved]) (by simp [hsaved, hstored]) with hkept | ⟨c, hc⟩
    · simp [hpending, hsaved] at hkept
    · simp [hall c, Pc.carries] at hc
  · rcases h.armed (by simp [hpending']) with harmed | ⟨c, hc⟩
    · simp [htimer] at harmed
    · simp [hall' c, Flushing] at hc

end NestStarter.Whatsapp.Auth
