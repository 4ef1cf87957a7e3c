import NestStarter.Whatsapp.Service

/-! # Unpairing

After a `logout`, and until the next request of a QR code, there is to be no socket, and no
credentials from before are to reach the store. A start whose awaits `logout` overtakes
assigns its socket all the same, and an upload that was requested before arrives. Where
neither is under way, and no code is requested before the `logout` has resolved, it holds.
-/

namespace NestStarter.Whatsapp.Service

open NestStarter.Core

structure Unpaired (s : State) : Prop where
  sock : s.shared.resolved ≠ [] → s.shared.sock = none
  credentials : s.shared.writtenBack = false

instance : DecidablePred Unpaired := fun s =>
  decidable_of_iff ((s.shared.resolved ≠ [] → s.shared.sock = none) ∧ s.shared.writtenBack = false)
    ⟨fun h => ⟨h.1, h.2⟩, fun h => ⟨h.sock, h.credentials⟩⟩

/-- It may yet assign a socket. -/
def Pc.starts (pc : Pc) : Bool := pc.booting || decide (pc = .restarting)

def Pc.clears : Pc → Bool
  | .clearing _ => true
  | _ => false

structure Calm (s : State) (a : Nat × Action) : Prop where
  /-- When a `logout` tears the socket down, none is being started or restarted. -/
  start : tears s.shared (s.client a.1).pc a.2 = true → ∀ d, (s.client d).pc.starts = false
  /-- No code is requested from there until it resolves. -/
  request : a.2 = .getQrBase64 → ∀ d, (s.client d).pc.clears = false
  /-- When it resolves, no upload of older credentials is on its way. -/
  upload : a.2 = .resume → (s.client a.1).threw = false →
    ∀ n, (s.client a.1).pc = .clearing n → ∀ d upload payload seq m,
      (s.client d).auth = .uploading upload payload seq m → n ≤ s.shared.origin seq

def Reading : Auth.Pc → Prop
  | .reading | .read _ => True
  | _ => False

theorem uploadPending_of_none {sh : Auth.Shared} (h : sh.pending = none) (n : Nat) :
    Auth.uploadPending sh n = (sh.resolve n, .idle) := by
  simp [Auth.uploadPending, h]

/-- Without a pending blob a `flush` uploads none. -/
theorem flush_of_pending_none {sh : Auth.Shared} (h : sh.pending = none) :
    (Auth.flush sh).1.pending = none ∧
      ∀ upload payload seq m, (Auth.flush sh).2 ≠ .uploading upload payload seq m := by
  cases hflight : sh.flushInFlight with
  | none =>
      have hpending : ({ sh with flushTimer := false } : Auth.Shared).pending = none := h
      rw [Auth.flush_of_none hflight, uploadPending_of_none hpending]
      exact ⟨h, fun _ _ _ _ hpc => (by cases hpc)⟩
  | some upload =>
      rw [Auth.flush_of_some hflight]
      exact ⟨h, fun _ _ _ _ hpc => (by cases hpc)⟩

theorem not_reading_uploadPending (sh : Auth.Shared) (n : Nat) :
    ¬ Reading (Auth.uploadPending sh n).2 := by
  unfold Auth.uploadPending
  split <;> exact id

theorem not_reading_flush (sh : Auth.Shared) : ¬ Reading (Auth.flush sh).2 := by
  cases hflight : sh.flushInFlight with
  | none =>
      rw [Auth.flush_of_none hflight]
      exact not_reading_uploadPending _ _
  | some upload =>
      rw [Auth.flush_of_some hflight]
      exact id

theorem load_ne_uploading (sh : Auth.Shared) (upload : Nat) (payload : String) (seq n : Nat) :
    (Auth.load sh).2 ≠ .uploading upload payload seq n := by
  intro h
  unfold Auth.load at h
  split at h <;> cases h

/-- What a client's step of the store cannot do without a pending blob, and what only a
`load` can. -/
theorem auth_spec {sh sh' : Auth.Shared} {lo : Local} {pc : Auth.Pc} {a : Auth.Action}
    (hallowed : Auths lo a) (h : Auth.Moves sh lo.auth a sh' pc) :
    (sh.pending = none → sh'.pending = none ∧
      ∀ upload payload seq m, pc ≠ .uploading upload payload seq m) ∧
    (Reading pc → Reading lo.auth) := by
  obtain ⟨pc₀, auth₀, threw⟩ := lo
  dsimp only at h
  cases h with
  | save | load | clear => exact hallowed.elim
  | flush | fire => exact ⟨flush_of_pending_none, fun hr => absurd hr (not_reading_flush sh)⟩
  | proceed upload found n =>
      refine ⟨fun hpending => ?_, fun hr => absurd hr (not_reading_uploadPending sh n)⟩
      rw [uploadPending_of_none hpending]
      exact ⟨hpending, fun _ _ _ _ hpc => (by cases hpc)⟩
  | exists_ =>
      refine ⟨fun hpending => ⟨hpending, fun _ _ _ _ hpc => ?_⟩, fun hr => ?_⟩
      · unfold Auth.exists_ at hpc
        split at hpc <;> cases hpc
      · unfold Auth.exists_ at hr
        split at hr <;> exact hr.elim
  | readFound | readNotFound | readFails =>
      exact ⟨fun hpending => ⟨hpending, fun _ _ _ _ hpc => (by cases hpc)⟩, fun _ => trivial⟩
  | _ => exact ⟨fun hpending => ⟨hpending, fun _ _ _ _ hpc => (by cases hpc)⟩, fun hr => hr.elim⟩

/-! ## The invariant -/

/-- `down`: a `logout` has torn the socket down, and no code has been requested since. -/
structure Held (down : Bool) (sh : Shared) : Prop where
  listeners : ∀ sock ∈ sh.listeners, sh.sock = some sock
  writtenBack : sh.writtenBack = false
  resolved : down = false → sh.resolved = []
  sock : down = true → sh.sock = none
  pending : down = true → sh.auth.pending = none

structure Own (down : Bool) (c : Nat) (sh : Shared) (lo : Local) : Prop where
  promise : ∀ start, lo.pc.start? = some start → sh.startPromise = some start ∧ start.client = c
  sock : lo.pc.booting = true → sh.sock = none
  reading : Reading lo.auth → lo.pc.booting = true
  fresh : ∀ upload payload seq m, lo.auth = .uploading upload payload seq m →
    ∀ n ∈ sh.resolved, n ≤ sh.origin seq
  starts : lo.pc.starts = true → down = false
  clears : lo.pc.clears = true → down = true

variable {down : Bool} {c d : Nat} {sh sh' : Shared} {lo lo' : Local} {a : Action}

theorem Own.stay (h : Own down d sh lo)
    (hpromise : ∀ start, start.client = d → sh.startPromise = some start →
      sh'.startPromise = some start)
    (hsock : lo.pc.booting = true → sh.sock = none → sh'.sock = none)
    (hresolved : ∀ n ∈ sh'.resolved, n ∈ sh.resolved)
    (horigins : sh'.resolved ≠ [] → sh'.origins = sh.origins) : Own down d sh' lo := by
  refine ⟨fun start hstart => ?_, fun hboot => hsock hboot (h.sock hboot), h.reading,
    fun upload payload seq m hpc n hn => ?_, h.starts, h.clears⟩
  · obtain ⟨hp, hclient⟩ := h.promise start hstart
    exact ⟨hpromise start hclient hp, hclient⟩
  · have hle := h.fresh upload payload seq m hpc n (hresolved n hn)
    rwa [Shared.origin, horigins (List.ne_nil_of_mem hn)]

theorem Own.same (h : Own down d sh lo) (hsame : Same sh sh') : Own down d sh' lo :=
  h.stay (fun _ _ hp => hsame.startPromise.trans hp) (fun _ hs => hsame.sock.trans hs)
    hsame.resolved fun _ => hsame.origins

theorem Held.not_mem_resolved (h : Held down sh) (hdown : down = false) (n : Nat) :
    n ∉ sh.resolved := by
  rw [h.resolved hdown]
  exact List.not_mem_nil

theorem Held.same (h : Held down sh) (hsame : Same sh sh') : Held down sh' := by
  refine ⟨fun sock hsock => ?_, hsame.writtenBack.trans h.writtenBack, fun hdown => ?_,
    fun hdown => hsame.sock.trans (h.sock hdown), fun hdown => ?_⟩
  · rw [hsame.sock]
    exact h.listeners sock (hsame.listeners ▸ hsock)
  · refine List.eq_nil_iff_forall_not_mem.2 fun n hn => ?_
    exact h.not_mem_resolved hdown n (hsame.resolved n hn)
  · rw [hsame.auth]
    exact h.pending hdown

/-- A client that neither starts a socket nor clears the store owes nothing. -/
theorem Own.of_not_busy {pc : Pc} (h : pc.busy = false) : Own down c sh { pc } := by
  have hstart := Pc.start_of_not_busy h
  have hboot : pc.booting = false := by cases pc <;> first | rfl | cases h
  have hstarts : pc.starts = false := by cases pc <;> first | rfl | cases h
  have hclears : pc.clears = false := by cases pc <;> first | rfl | cases h
  refine ⟨fun start hs => ?_, fun hb => ?_, fun hr => hr.elim, fun _ _ _ _ hpc => (by cases hpc),
    fun hs => ?_, fun hc => ?_⟩
  · cases hstart.symm.trans hs
  · cases hboot.symm.trans hb
  · cases hstarts.symm.trans hs
  · cases hclears.symm.trans hc

theorem Held.not_stale (h : Held false sh) (origin : Nat) : sh.stale origin = false := by
  simp [Shared.stale, h.resolved rfl]

/-- Once a code has been requested, with no `logout` tearing down. -/
theorem Own.lower (h : Own down d sh lo) (hclears : lo.pc.clears = false) : Own false d sh lo :=
  ⟨h.promise, h.sock, h.reading, h.fresh, fun _ => rfl, fun hc => absurd (hclears.symm.trans hc)
    Bool.false_ne_true⟩

/-- Once a `logout` has torn the socket down, with no start under way. -/
theorem Own.raise (h : Own down d sh lo) (hstarts : lo.pc.starts = false) : Own true d sh lo :=
  ⟨h.promise, h.sock, h.reading, h.fresh, fun hs => absurd (hstarts.symm.trans hs)
    Bool.false_ne_true, fun _ => rfl⟩

theorem Pc.clears_of_start {pc : Pc} {start : Start} (h : pc.start? = some start) :
    pc.clears = false := by
  cases pc <;> first | rfl | cases h

theorem Pc.booting_of_loads {pc : Pc} (h : pc.loads = true) : pc.booting = true := by
  cases pc <;> first | rfl | cases h

theorem Pc.starts_of_booting {pc : Pc} (h : pc.booting = true) : pc.starts = true := by
  simp [Pc.starts, h]

/-! ## Steps -/

def Safe (down : Bool) (s : State) : Prop := Pool.Holds (Held down) (Own down) s

variable {s : State}

theorem Safe.starter (h : Safe down s) {start start' : Start}
    (hstart : (s.client c).pc.start? = some start) (hp : s.shared.startPromise = some start') :
    start'.client = c := by
  obtain ⟨hp', hclient⟩ := (h.client c).promise start hstart
  obtain rfl : start' = start := Option.some.inj (hp.symm.trans hp')
  exact hclient

theorem Safe.begin (h : Safe down s) (hsame : Same s.shared sh') {k : After}
    (hpromise : s.shared.startPromise = none) (hsock : s.shared.sock = none)
    (hresolved : sh'.resolved = []) (hclears : ∀ d, (s.client d).pc.clears = false) :
    Safe false ⟨sh'.begin c,
      Function.update s.client c { pc := .importing ⟨sh'.nextStart, c⟩ k }⟩ := by
  have hheld := h.shared.same hsame
  have hnone : sh'.sock = none := hsame.sock.trans hsock
  refine Pool.Holds.move ⟨hheld.listeners, hheld.writtenBack, fun _ => hresolved, fun _ => hnone,
    fun hdown => absurd hdown Bool.false_ne_true⟩ ?_ fun d _ => ?_
  · refine ⟨fun start hstart => ?_, fun _ => hnone, fun hr => hr.elim,
      fun _ _ _ _ hpc => (by cases hpc), fun _ => rfl, fun hc => (by cases hc)⟩
    cases hstart
    exact ⟨rfl, rfl⟩
  · refine ((h.client d).lower (hclears d)).stay (fun start _ hp => ?_) (fun _ _ => hnone)
      hsame.resolved fun _ => hsame.origins
    cases hpromise.symm.trans hp

theorem Safe.boot (h : Safe down s) (hpc : (s.client c).pc.booting = true)
    (hstart : lo'.pc.start? = (s.client c).pc.start?)
    (hauth : lo'.auth = .idle ∨ lo'.auth = (Auth.load s.shared.auth).2 ∧ lo'.pc.loads = true) :
    Safe down ⟨s.shared, Function.update s.client c lo'⟩ := by
  have hdown : down = false := (h.client c).starts (Pc.starts_of_booting hpc)
  obtain ⟨start, hsome⟩ := Pc.start_of_booting hpc
  refine Pool.Holds.move h.shared ⟨fun start' hs => (h.client c).promise start' (hstart ▸ hs),
    fun _ => (h.client c).sock hpc, fun hr => ?_, fun upload payload seq m hup => ?_,
    fun _ => hdown, fun hc => ?_⟩ fun d _ => h.client d
  · rcases hauth with hidle | ⟨_, hloads⟩
    · rw [hidle] at hr
      exact hr.elim
    · exact Pc.booting_of_loads hloads
  · rcases hauth with hidle | ⟨hload, _⟩
    · cases hidle.symm.trans hup
    · exact absurd (hload.symm.trans hup) (load_ne_uploading _ upload payload seq m)
  · cases (Pc.clears_of_start (hstart.trans hsome)).symm.trans hc

theorem Safe.assign (h : Safe down s) {start : Start} {k : After} {obtained : Nat}
    (hpc : (s.client c).pc = .fetching start k obtained) :
    Safe down ⟨s.shared.assign ⟨start, obtained⟩,
      Function.update s.client c { pc := .started start true k }⟩ := by
  have hboot : (s.client c).pc.booting = true := by rw [hpc]; rfl
  have hstart : (s.client c).pc.start? = some start := by rw [hpc]; rfl
  have hnone := (h.client c).sock hboot
  obtain rfl : down = false := (h.client c).starts (Pc.starts_of_booting hboot)
  refine Pool.Holds.move ⟨fun sock hsock => ?_, h.shared.writtenBack, h.shared.resolved,
    fun hdown => (by cases hdown), fun hdown => (by cases hdown)⟩ ?_ fun d hd => ?_
  · rcases List.mem_cons.1 hsock with rfl | hold
    · rfl
    · cases hnone.symm.trans (h.shared.listeners sock hold)
  · refine ⟨fun start' hs => ?_, fun hb => (by cases hb), fun hr => hr.elim,
      fun _ _ _ _ hup => (by cases hup), fun hs => rfl, fun hc => (by cases hc)⟩
    obtain rfl : start = start' := Option.some.inj hs
    exact (h.client c).promise start hstart
  · refine (h.client d).stay (fun _ _ hp => hp) (fun hb _ => ?_) (fun _ hn => hn) fun _ => rfl
    obtain ⟨start', hstart'⟩ := Pc.start_of_booting hb
    have hp := ((h.client c).promise start hstart).1
    exact absurd ((h.starter hstart' hp).symm.trans (h.starter hstart hp)) hd

theorem Safe.settle (h : Safe down s) {start : Start} {ok : Bool} {k : After}
    (hpc : (s.client c).pc = .started start ok k) (settled failed : List Start) :
    Safe down ⟨{ s.shared with startPromise := none, settled, failed },
      Function.update s.client c { pc := .ensured ok k }⟩ := by
  have hstart : (s.client c).pc.start? = some start := by rw [hpc]; rfl
  have hheld := h.shared
  refine Pool.Holds.move ⟨hheld.listeners, hheld.writtenBack, hheld.resolved, hheld.sock,
    hheld.pending⟩ (.of_not_busy rfl) fun d hd => ?_
  refine (h.client d).stay (fun start' hclient hp => ?_) (fun _ hs => hs) (fun _ hn => hn)
    fun _ => rfl
  exact absurd (hclient.symm.trans (h.starter hstart hp)) hd

theorem Safe.saveCreds (h : Safe down s) {sock : Sock} (hsock : sock ∈ s.shared.listeners)
    (payload : String) :
    Safe down ⟨s.shared.saveCreds sock payload, Function.update s.client c {}⟩ := by
  have hlive := h.shared.listeners sock hsock
  cases down with
  | true => cases (h.shared.sock rfl).symm.trans hlive
  | false =>
      have hwritten : (s.shared.saveCreds sock payload).writtenBack = false := by
        simp [Shared.saveCreds, h.shared.writtenBack, h.shared.not_stale]
      refine Pool.Holds.move ⟨h.shared.listeners, hwritten, h.shared.resolved,
        fun hdown => (by cases hdown), fun hdown => (by cases hdown)⟩ (.of_not_busy rfl)
        fun d _ => ?_
      refine (h.client d).stay (fun _ _ hp => hp) (fun _ hs => hs) (fun _ hn => hn) fun hne => ?_
      exact absurd (h.shared.resolved rfl) hne

/-- What the store is asked in a `teardown` reads nothing, and uploads a pending blob only. -/
theorem teardown_auth (removeAuth : Bool) (sh : Shared) (pc : Pc) :
    ¬ Reading (teardown removeAuth sh pc).2.auth ∧
    (sh.auth.pending = none → (teardown removeAuth sh pc).1.auth.pending = none ∧
      ∀ upload payload seq m, (teardown removeAuth sh pc).2.auth ≠
        .uploading upload payload seq m) := by
  cases removeAuth with
  | true => exact ⟨id, fun _ => ⟨rfl, fun _ _ _ _ hup => (by cases hup)⟩⟩
  | false => exact ⟨not_reading_flush _, fun hpending => flush_of_pending_none hpending⟩

theorem Safe.teardown (h : Safe down s) (hsame : Same s.shared sh') {removeAuth : Bool} {pc : Pc}
    (hcause : Cause s.shared (s.client c) a removeAuth pc)
    (hcalm : tears s.shared (s.client c).pc a = true → ∀ d, (s.client d).pc.starts = false) :
    Safe (down || pc.clears) ⟨(Service.teardown removeAuth sh' pc).1,
      Function.update s.client c (Service.teardown removeAuth sh' pc).2⟩ := by
  have hheld := h.shared.same hsame
  obtain ⟨hreading, hflush⟩ := teardown_auth removeAuth sh' pc
  -- after a `clear` nothing is pending, before a `flush` of an unpaired client nothing was
  have hpending : (down || pc.clears) = true →
      (Service.teardown removeAuth sh' pc).1.auth.pending = none := by
    intro hdown
    rcases Bool.or_eq_true_iff.1 hdown with hdown | hclears
    · exact (hflush (hheld.pending hdown)).1
    · cases pc with
      | clearing n =>
          obtain rfl : removeAuth = true := hcause.1
          rfl
      | _ => cases hclears
  have hstart : pc.start? = none ∧ pc.booting = false := by
    cases pc <;> first | exact ⟨rfl, rfl⟩ | exact hcause.elim
  refine Pool.Holds.move ⟨fun sock hsock => ?_, hheld.writtenBack, fun hdown => ?_, fun _ => rfl,
    hpending⟩ ⟨fun start hs => ?_, fun _ => rfl, fun hr => absurd hr hreading,
      fun upload payload seq m hup n hn => ?_, fun hs => ?_, fun hc => ?_⟩ fun d _ => ?_
  · -- the only listeners were those of the socket
    obtain ⟨hold, hne⟩ := List.mem_filter.1 hsock
    exact absurd (hheld.listeners sock hold) (by simpa using hne)
  · exact hheld.resolved (Bool.or_eq_false_iff.1 hdown).1
  · cases hstart.1.symm.trans hs
  · cases hd : down with
    | true => exact absurd hup ((hflush (hheld.pending hd)).2 upload payload seq m)
    | false => exact absurd hn (hheld.not_mem_resolved hd n)
  · cases pc with
    | restarting =>
        -- a socket was there
        obtain ⟨sock, hsock⟩ := List.exists_mem_of_ne_nil _ hcause
        have hlive := h.shared.listeners sock hsock
        cases hd : down with
        | true => cases (h.shared.sock hd).symm.trans hlive
        | false => rfl
    | clearing n => cases hs
    | tearingDown => cases hs
    | _ => exact hcause.elim
  · have hclears : pc.clears = true := hc
    rw [hclears, Bool.or_true]
  · have hown : Own (down || pc.clears) d s.shared (s.client d) := by
      cases hclears : pc.clears with
      | false => simpa using h.client d
      | true =>
          cases pc with
          | clearing n => simpa using (h.client d).raise (hcalm hcause.2 d)
          | _ => cases hclears
    exact (hown.same hsame).stay (fun _ _ hp => hp) (fun _ _ => rfl) (fun _ hn => hn) fun _ => rfl

theorem Safe.resolve (h : Safe down s) {n : Nat} (hpc : (s.client c).pc = .clearing n)
    (hcalm : ∀ d upload payload seq m, (s.client d).auth = .uploading upload payload seq m →
      n ≤ s.shared.origin seq) :
    Safe down ⟨{ s.shared with resolved := n :: s.shared.resolved },
      Function.update s.client c {}⟩ := by
  have hclears : (s.client c).pc.clears = true := by rw [hpc]; rfl
  obtain rfl : down = true := (h.client c).clears hclears
  have hheld := h.shared
  refine Pool.Holds.move ⟨hheld.listeners, hheld.writtenBack, fun hdown => (by cases hdown),
    hheld.sock, hheld.pending⟩ (.of_not_busy rfl) fun d _ => ?_
  have hown := h.client d
  refine ⟨hown.promise, hown.sock, hown.reading, fun upload payload seq m hup n' hn' => ?_,
    hown.starts, hown.clears⟩
  rcases List.mem_cons.1 hn' with rfl | hold
  · exact hcalm d upload payload seq m hup
  · exact hown.fresh upload payload seq m hup n' hold

/-- The store is given nothing that is older than an unfollowed `logout`. -/
theorem Safe.not_stale_writes (h : Safe down s) (a : Auth.Action) :
    (writes s.shared (s.client c) a).any s.shared.stale = false := by
  unfold writes
  split
  · next upload payload seq m hup =>
    have hfresh := (h.client c).fresh upload payload seq m hup
    simpa [Shared.stale] using hfresh
  · next hread start k obtained hpc =>
    have hboot : (s.client c).pc.booting = true := by rw [hpc]; rfl
    obtain rfl : down = false := (h.client c).starts (Pc.starts_of_booting hboot)
    simp [h.shared.not_stale]
  · rfl

theorem Safe.auth (h : Safe down s) {a : Auth.Action} {auth : Auth.Shared} {pc : Auth.Pc}
    (hallowed : Auths (s.client c) a) (hmove : Auth.Moves s.shared.auth (s.client c).auth a auth pc)
    (threw : Bool) :
    Safe down ⟨{ s.shared with
        auth
        writtenBack := s.shared.writtenBack ||
          (writes s.shared (s.client c) a).any s.shared.stale },
      Function.update s.client c { s.client c with auth := pc, threw }⟩ := by
  have hheld := h.shared
  have hown := h.client c
  obtain ⟨hpending, hreading⟩ := auth_spec hallowed hmove
  have hwritten : (s.shared.writtenBack ||
      (writes s.shared (s.client c) a).any s.shared.stale) = false := by
    rw [hheld.writtenBack, h.not_stale_writes, Bool.or_false]
  refine Pool.Holds.move ⟨hheld.listeners, hwritten, hheld.resolved, hheld.sock,
    fun hdown => (hpending (hheld.pending hdown)).1⟩ ⟨hown.promise, hown.sock,
      fun hr => hown.reading (hreading hr), fun upload payload seq m hup n hn => ?_, hown.starts,
      hown.clears⟩ fun d _ => ?_
  · cases hd : down with
    | true => exact absurd hup ((hpending (hheld.pending hd)).2 upload payload seq m)
    | false => exact absurd hn (hheld.not_mem_resolved hd n)
  · exact (h.client d).stay (fun _ _ hp => hp) (fun _ hs => hs) (fun _ hn => hn) fun _ => rfl

theorem Safe.step (h : Safe down s) {a : Nat × Action} (hcalm : Calm s a)
    (hmoves : Moves a.1 s.shared (s.client a.1) a.2 sh' lo') :
    ∃ down', Safe down' ⟨sh', Function.update s.client a.1 lo'⟩ := by
  obtain ⟨c, a⟩ := a
  cases hmoves with
  | keep hsame hpc =>
      exact ⟨down, .move (h.shared.same hsame) (.of_not_busy hpc) fun d _ =>
        (h.client d).same hsame⟩
  | begin hsame hcause hsock hpromise =>
      rcases hcause with ⟨rfl, hresolved⟩ | hpc
      · exact ⟨false, h.begin hsame hpromise hsock hresolved (hcalm.request rfl)⟩
      · have hstarts : (s.client c).pc.starts = true := by simp [Pc.starts, hpc]
        obtain rfl : down = false := (h.client c).starts hstarts
        have hresolved := (h.shared.same hsame).resolved rfl
        refine ⟨false, h.begin hsame hpromise hsock hresolved fun d => ?_⟩
        cases hclears : (s.client d).pc.clears with
        | false => rfl
        | true => cases (h.client d).clears hclears
  | boot hpc hstart hauth => exact ⟨down, h.boot hpc hstart hauth⟩
  | assign hpc => exact ⟨down, h.assign hpc⟩
  | settle hpc => exact ⟨down, h.settle hpc _ _⟩
  | saveCreds hsock => exact ⟨down, h.saveCreds hsock _⟩
  | teardown hsame hcause => exact ⟨_, h.teardown hsame hcause hcalm.start⟩
  | resolve hpc hthrew => exact ⟨down, h.resolve hpc (hcalm.upload rfl hthrew _ hpc)⟩
  | auth hallowed hmove => exact ⟨down, h.auth hallowed (Auth.moves_of_move hmove) _⟩

theorem Safe.unpaired (h : Safe down s) : Unpaired s := by
  refine ⟨fun hne => ?_, h.shared.writtenBack⟩
  cases hd : down with
  | true => exact h.shared.sock hd
  | false => exact absurd (h.shared.resolved hd) hne

/-! ## Runs -/

theorem safe_init (stored : Option String) (baileys : Bool) : Safe false (init stored baileys) := by
  have hidle : ∀ d, (init stored false).client d = {} := fun d => by cases d <;> rfl
  have hsafe : Safe false (init stored false) := by
    refine ⟨⟨fun _ hsock => absurd hsock List.not_mem_nil, rfl, fun _ => rfl,
      fun hdown => (by cases hdown), fun hdown => (by cases hdown)⟩, fun d => ?_⟩
    rw [hidle d]
    exact .of_not_busy rfl
  cases baileys with
  | false => exact hsafe
  | true =>
      have hbegin := hsafe.begin (c := 0) (k := .nothing) (.refl _) rfl rfl rfl fun d => by
        rw [hidle d]
        rfl
      simpa [init, ensureSocket] using hbegin

def firstSock : Sock := ⟨⟨0, 0⟩, 0⟩

/-- A process starts over stored credentials, up to the fetch of the version. -/
def booting : List (Nat × Action) :=
  [(0, .imported true), (0, .auth .apply), (0, .auth .resume), (0, .resume)]

def booted : List (Nat × Action) := booting ++ [(0, .fetched true), (0, .settle), (0, .resume)]

/-- A `logout` of a service without a connected socket. -/
def offlineLogout (c : Nat) : List (Nat × Action) :=
  [(c, .logout), (c, .auth .apply), (c, .auth .resume), (c, .resume)]

def connectedLogout : List (Nat × Action) :=
  booted ++ [(1, .connectionUpdate firstSock { connection := some .open_ }),
    (1, .credsUpdate firstSock "session"), (1, .logout), (1, .resume), (1, .auth .apply),
    (1, .auth .resume), (1, .resume)]

theorem calm_of_lt {a : Nat × Action} (n : Nat) (hidle : ∀ d, n ≤ d → s.client d = {})
    (hstart : tears s.shared (s.client a.1).pc a.2 = true → ∀ d < n, (s.client d).pc.starts = false)
    (hrequest : a.2 = .getQrBase64 → ∀ d < n, (s.client d).pc.clears = false)
    (hupload : a.2 = .resume → ∀ d < n, (s.client d).auth = .idle) : Calm s a := by
  refine ⟨fun htears d => ?_, fun hget d => ?_, fun hresume _ _ _ d _ _ _ _ hpc => ?_⟩
  all_goals rcases Nat.lt_or_ge d n with hd | hd
  · exact hstart htears d hd
  · rw [hidle d hd]
    rfl
  · exact hrequest hget d hd
  · rw [hidle d hd]
    rfl
  · cases (hupload hresume d hd).symm.trans hpc
  · rw [hidle d hd] at hpc
    cases hpc

def startingLogout : List (Nat × Action) :=
  booting ++ offlineLogout 1 ++ [(0, .fetched true), (1, .credsUpdate firstSock "session")]

def restartingLogout : List (Nat × Action) :=
  booted ++ [(1, .connectionUpdate firstSock { connection := some (.close false) })] ++
    offlineLogout 2 ++
    [(1, .resume), (1, .imported true), (1, .resume), (1, .fetched true)]

/-- A code is requested before the `logout` resolves. -/
def requestDuringLogout : List (Nat × Action) :=
  [(1, .logout), (0, .getQrBase64), (0, .imported true), (0, .resume), (0, .fetched true),
    (1, .auth .apply), (1, .auth .resume), (1, .resume)]

/-- An upload arrives after the `logout` has resolved. -/
def uploadingLogout : List (Nat × Action) :=
  booted ++ [(1, .credsUpdate firstSock "session"), (1, .auth .fire)] ++ offlineLogout 2 ++
    [(1, .auth .apply)]

end NestStarter.Whatsapp.Service
