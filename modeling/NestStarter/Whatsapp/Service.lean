import NestStarter.Whatsapp.Auth

/-! # The WhatsApp socket

`WhatsappService` over its credential store, under any interleaving of its calls, of the
socket's events and of what the calls await. Between two `await`s the code runs in one step;
a client is one asynchronous task, and its calls of the store are steps of that machine.
A socket whose listeners were removed calls none of them.

The rest is history that no step reads: the number of logouts called (`logouts`), those that
have resolved since the latest `getQrBase64` (`resolved`), for each saved blob how many had
been called when the `load` that returned its credentials was (`origins`), and whether
credentials older than a logout of `resolved` have been put into the store (`writtenBack`).
-/

namespace NestStarter.Whatsapp.Service

open NestStarter.Core

structure Start where
  number : Nat
  client : Nat
  deriving DecidableEq, Repr

/-- The socket a call made, and how many logouts had been called when its credentials
were loaded. -/
structure Sock where
  start : Start
  obtained : Nat
  deriving DecidableEq, Repr

structure Shared where
  auth : Auth.Shared := {}
  sock : Option Sock := none
  connected : Bool := false
  latestQr : Option String := none
  startPromise : Option Start := none
  /-- The clients whose promise of a QR code is pending. -/
  waiters : List Nat := []
  /-- The sockets with listeners. -/
  listeners : List Sock := []
  nextStart : Nat := 0
  /-- The calls of `startSocket` whose promise has settled, and those that were rejected. -/
  settled : List Start := []
  failed : List Start := []
  logouts : Nat := 0
  resolved : List Nat := []
  origins : List Nat := []
  writtenBack : Bool := false
  deriving DecidableEq, Repr

/-- What follows `ensureSocket`: the wait of `getQrBase64`, or nothing. -/
inductive After where
  | waitForQr
  | nothing
  deriving DecidableEq, Repr

inductive Pc where
  | idle
  /-- `startSocket`, awaiting the import, the store's `load` and the version. -/
  | importing (start : Start) (k : After)
  | loading (start : Start) (k : After) (obtained : Nat)
  | fetching (start : Start) (k : After) (obtained : Nat)
  /-- It has ended, and its `finally` has not run. -/
  | started (start : Start) (ok : Bool) (k : After)
  /-- `ensureSocket` is to go on. -/
  | ensured (ok : Bool) (k : After)
  /-- `ensureSocket`, awaiting the start of another client. -/
  | awaiting (start : Start) (k : After)
  | waitingForQr
  /-- `logout`, awaiting the socket's, and then its own `teardown`. -/
  | unpairing (logout : Nat)
  | clearing (logout : Nat)
  /-- Any other `teardown`, and that of `restartSocket`. -/
  | tearingDown
  | restarting
  deriving DecidableEq, Repr

/-- `threw`: the awaited call of the store was rejected. -/
structure Local where
  pc : Pc := .idle
  auth : Auth.Pc := .idle
  threw : Bool := false
  deriving DecidableEq, Repr

abbrev State := Pool Shared Local

inductive Connection where
  | connecting
  | open_
  | close (loggedOut : Bool)
  deriving DecidableEq, Repr

structure Update where
  qr : Option String := none
  connection : Option Connection := none
  deriving DecidableEq, Repr

inductive Action where
  | getQrBase64
  | logout
  | onModuleDestroy
  /-- A socket emits `creds.update`, with what its credentials then serialize to. -/
  | credsUpdate (sock : Sock) (payload : String)
  | connectionUpdate (sock : Sock) (update : Update)
  /-- The import ends. -/
  | imported (ok : Bool)
  /-- The version is there, or cannot be had; `makeWASocket` returns or throws. -/
  | fetched (made : Bool)
  /-- The `finally` callback of a start runs. -/
  | settle
  /-- The time of a waiter runs out. -/
  | timeout
  /-- The code after an `await` runs. -/
  | resume
  /-- A step of the store: of the call the client awaits, of its timer's, of its own
  `onModuleDestroy`, or of `exists`. -/
  | auth (a : Auth.Action)
  deriving DecidableEq, Repr

/-! ## The service -/

/-- Credentials of that origin are older than a logout nothing has followed. -/
def Shared.stale (sh : Shared) (origin : Nat) : Bool := sh.resolved.any (origin < ·)

/-- The origin of the blob that was saved last when `seq` had been. -/
def Shared.origin (sh : Shared) (seq : Nat) : Nat := sh.origins.getD (seq - 1) 0

def Shared.saveCreds (sh : Shared) (sock : Sock) (payload : String) : Shared :=
  { sh with
    auth := sh.auth.save payload
    origins := sh.origins ++ [sock.obtained]
    writtenBack := sh.writtenBack || sh.stale sock.obtained }

def Shared.drop (sh : Shared) : Shared :=
  { sh with
    sock := none
    listeners := sh.listeners.filter fun l => sh.sock ≠ some l
    connected := false
    latestQr := none
    waiters := [] }

def teardown (removeAuth : Bool) (sh : Shared) (pc : Pc) : Shared × Local :=
  let sh := sh.drop
  let r := if removeAuth then Auth.clear sh.auth else Auth.flush sh.auth
  ({ sh with auth := r.1 }, { pc, auth := r.2 })

def Shared.begin (sh : Shared) (c : Nat) : Shared :=
  { sh with startPromise := some ⟨sh.nextStart, c⟩, nextStart := sh.nextStart + 1 }

def ensureSocket (c : Nat) (sh : Shared) (k : After) : Shared × Local :=
  match sh.startPromise with
  | some start => (sh, { pc := .awaiting start k })
  | none =>
      if sh.sock.isSome then (sh, { pc := .ensured true k })
      else (sh.begin c, { pc := .importing ⟨sh.nextStart, c⟩ k })

def Shared.assign (sh : Shared) (sock : Sock) : Shared :=
  { sh with sock := some sock, listeners := sock :: sh.listeners }

def proceed (c : Nat) (sh : Shared) : After → Shared × Local
  | .nothing => (sh, {})
  | .waitForQr =>
      if sh.latestQr.isSome then (sh, {})
      else ({ sh with waiters := sh.waiters ++ [c] }, { pc := .waitingForQr })

def Shared.cacheQr (sh : Shared) : Option String → Shared
  | none => sh
  | some qr => { sh with latestQr := some qr, waiters := [] }

def handleConnectionUpdate (sh : Shared) (update : Update) : Shared × Local :=
  let sh := sh.cacheQr update.qr
  match update.connection with
  | some .open_ => ({ sh with connected := true, latestQr := none, waiters := [] }, {})
  | some (.close loggedOut) =>
      let sh := { sh with connected := false, latestQr := none, waiters := [] }
      if loggedOut then teardown true sh .tearingDown else teardown false sh .restarting
  | _ => (sh, {})

def Local.Free (lo : Local) : Prop := lo.pc = .idle ∧ lo.auth = .idle

instance (lo : Local) : Decidable lo.Free := inferInstanceAs (Decidable (_ ∧ _))

/-- The code after an `await` whose promise has settled. -/
def resume (c : Nat) (sh : Shared) (lo : Local) : Option (Shared × Local) :=
  match lo.pc with
  | .loading start k obtained =>
      some (sh, { pc := if lo.threw then .started start false k else .fetching start k obtained })
  | .ensured ok k => some (if ok then proceed c sh k else (sh, {}))
  | .awaiting start k =>
      if start ∈ sh.failed then some (sh, {})
      else if start ∈ sh.settled then some (proceed c sh k)
      else none
  | .waitingForQr => if c ∈ sh.waiters then none else some (sh, {})
  -- whether the socket's `logout` threw or not
  | .unpairing n => some (teardown true sh (.clearing n))
  | .clearing n => some (if lo.threw then sh else { sh with resolved := n :: sh.resolved }, {})
  | .tearingDown => some (sh, {})
  | .restarting => some (if lo.threw then (sh, {}) else ensureSocket c sh .nothing)
  | _ => none

def throws (sh : Auth.Shared) (pc : Auth.Pc) (a : Auth.Action) : Bool :=
  match a, pc with
  | .resume, .read .failed => true
  | .resume, .waiting upload _ _ => decide (upload ∈ sh.failed)
  | .resume, .flushed ok _ => !ok
  | .resume, .deleted ok => !ok
  | _, _ => false

/-- The origin of the credentials that a step puts into the store's memory or its object. -/
def writes (sh : Shared) (lo : Local) (a : Auth.Action) : Option Nat :=
  match a, lo.auth, lo.pc with
  | .apply, .uploading _ _ seq _, _ => some (sh.origin seq)
  | .resume, .read (.found _), .loading _ _ obtained => some obtained
  | _, _, _ => none

/-- Which steps of the store are the client's to take. -/
def Auths (lo : Local) : Auth.Action → Prop
  | .fire | .flush | .exists_ => lo.pc = .idle
  | .save _ | .load | .clear => False
  | _ => True

instance (lo : Local) : DecidablePred (Auths lo)
  | .fire | .flush | .exists_ => inferInstanceAs (Decidable (lo.pc = .idle))
  | .save _ | .load | .clear => isFalse id
  | .apply | .fail | .settle | .resume => isTrue trivial

def move (c : Nat) (sh : Shared) (lo : Local) : Action → Option (Shared × Local)
  | .getQrBase64 =>
      if lo.Free then
        let sh := { sh with resolved := [] }
        -- connected: the 409
        some (if sh.connected then (sh, {}) else ensureSocket c sh .waitForQr)
      else none
  | .logout =>
      if lo.Free then
        let sh := { sh with logouts := sh.logouts + 1 }
        some (if sh.sock.isSome && sh.connected then (sh, { pc := .unpairing sh.logouts })
          else teardown true sh (.clearing sh.logouts))
      else none
  | .onModuleDestroy => if lo.Free then some (teardown false sh .tearingDown) else none
  | .credsUpdate sock payload =>
      if lo.Free ∧ sock ∈ sh.listeners then some (sh.saveCreds sock payload, {}) else none
  | .connectionUpdate sock update =>
      if lo.Free ∧ sock ∈ sh.listeners then some (handleConnectionUpdate sh update) else none
  | .imported ok =>
      match lo.pc with
      | .importing start k =>
          some (sh, if ok then { pc := .loading start k sh.logouts, auth := (Auth.load sh.auth).2 }
            else { pc := .started start false k })
      | _ => none
  | .fetched made =>
      match lo.pc with
      | .fetching start k obtained =>
          some (if made then sh.assign ⟨start, obtained⟩ else sh, { pc := .started start made k })
      | _ => none
  | .settle =>
      match lo.pc with
      | .started start ok k =>
          some ({ sh with
            startPromise := none
            settled := start :: sh.settled
            failed := if ok then sh.failed else start :: sh.failed }, { pc := .ensured ok k })
      | _ => none
  | .timeout =>
      if lo.pc = .waitingForQr ∧ c ∈ sh.waiters then
        some ({ sh with waiters := sh.waiters.filter (· ≠ c) }, {})
      else none
  | .resume => if lo.auth = .idle then resume c sh lo else none
  | .auth a =>
      if Auths lo a then
        (Auth.move c sh.auth lo.auth a).map fun r =>
          ({ sh with
            auth := r.1
            writtenBack := sh.writtenBack || (writes sh lo a).any sh.stale },
            { lo with auth := r.2, threw := throws sh.auth lo.auth a })
      else none

/-- `onModuleInit`, over what an earlier process may have left: with the driver, a first
client starts the socket. -/
def init (stored : Option String) (baileys : Bool) : State :=
  let sh : Shared := { auth := { stored } }
  let r := if baileys then ensureSocket 0 sh .nothing else (sh, {})
  ⟨r.1, Function.update (fun _ => {}) 0 r.2⟩

def step : State → Nat × Action → Option State := Pool.step move

/-! ## Every way a step can go -/

/-- The call of `startSocket` that the client is in. -/
def Pc.start? : Pc → Option Start
  | .importing start _ | .loading start _ _ | .fetching start _ _ | .started start _ _ => some start
  | _ => none

/-- It is in one that has assigned no socket yet. -/
def Pc.booting : Pc → Bool
  | .importing .. | .loading .. | .fetching .. => true
  | _ => false

def Pc.loads : Pc → Bool
  | .loading .. => true
  | _ => false

/-- It may call `startSocket` or be in one, or it is in the `teardown` of a `logout`. -/
def Pc.busy : Pc → Bool
  | .restarting | .clearing _ => true
  | pc => pc.start?.isSome

theorem Pc.start_of_booting {pc : Pc} (h : pc.booting = true) :
    ∃ start, pc.start? = some start := by
  cases pc <;> first | exact ⟨_, rfl⟩ | cases h

theorem Pc.start_of_not_busy {pc : Pc} (h : pc.busy = false) : pc.start? = none := by
  cases pc <;> first | rfl | cases h

/-- A step of `logout` that tears the socket down. -/
def tears (sh : Shared) (pc : Pc) : Action → Bool
  | .logout => !(sh.sock.isSome && sh.connected)
  | .resume => match pc with
    | .unpairing _ => true
    | _ => false
  | _ => false

/-- No difference that concerns the socket or the credentials. -/
structure Same (sh sh' : Shared) : Prop where
  auth : sh'.auth = sh.auth
  sock : sh'.sock = sh.sock
  listeners : sh'.listeners = sh.listeners
  startPromise : sh'.startPromise = sh.startPromise
  origins : sh'.origins = sh.origins
  writtenBack : sh'.writtenBack = sh.writtenBack
  resolved : ∀ n ∈ sh'.resolved, n ∈ sh.resolved

theorem Same.refl (sh : Shared) : Same sh sh := ⟨rfl, rfl, rfl, rfl, rfl, rfl, fun _ h => h⟩

/-- Why `teardown` was called, by what its caller then awaits. -/
def Cause (sh : Shared) (lo : Local) (a : Action) (removeAuth : Bool) : Pc → Prop
  | .tearingDown => True
  | .restarting => sh.listeners ≠ []
  | .clearing _ => removeAuth = true ∧ tears sh lo.pc a = true
  | _ => False

/-- The steps of a client, with those that concern neither the socket nor the
credentials as one. -/
inductive Moves (c : Nat) (sh : Shared) (lo : Local) : Action → Shared → Local → Prop where
  | keep {a : Action} {sh' : Shared} {pc : Pc} (hsame : Same sh sh') (hpc : pc.busy = false) :
      Moves c sh lo a sh' { pc }
  | begin {a : Action} {sh' : Shared} {k : After} (hsame : Same sh sh')
      (hcause : a = .getQrBase64 ∧ sh'.resolved = [] ∨ lo.pc = .restarting)
      (hsock : sh.sock = none) (hpromise : sh.startPromise = none) :
      Moves c sh lo a (sh'.begin c) { pc := .importing ⟨sh'.nextStart, c⟩ k }
  | boot {a : Action} {lo' : Local} (hpc : lo.pc.booting = true)
      (hstart : lo'.pc.start? = lo.pc.start?)
      (hauth : lo'.auth = .idle ∨ lo'.auth = (Auth.load sh.auth).2 ∧ lo'.pc.loads = true) :
      Moves c sh lo a sh lo'
  | assign {start : Start} {k : After} {obtained : Nat} (hpc : lo.pc = .fetching start k obtained) :
      Moves c sh lo (.fetched true) (sh.assign ⟨start, obtained⟩) { pc := .started start true k }
  | settle {start : Start} {ok : Bool} {k : After} (hpc : lo.pc = .started start ok k) :
      Moves c sh lo .settle { sh with
        startPromise := none
        settled := start :: sh.settled
        failed := if ok then sh.failed else start :: sh.failed } { pc := .ensured ok k }
  | saveCreds {sock : Sock} {payload : String} (hsock : sock ∈ sh.listeners) :
      Moves c sh lo (.credsUpdate sock payload) (sh.saveCreds sock payload) {}
  | teardown {a : Action} {sh' : Shared} {removeAuth : Bool} {pc : Pc} (hsame : Same sh sh')
      (hcause : Cause sh lo a removeAuth pc) :
      Moves c sh lo a (teardown removeAuth sh' pc).1 (teardown removeAuth sh' pc).2
  | resolve {n : Nat} (hpc : lo.pc = .clearing n) (hthrew : lo.threw = false) :
      Moves c sh lo .resume { sh with resolved := n :: sh.resolved } {}
  | auth {a : Auth.Action} {auth : Auth.Shared} {pc : Auth.Pc} (hallowed : Auths lo a)
      (hmove : Auth.move c sh.auth lo.auth a = some (auth, pc)) :
      Moves c sh lo (.auth a) { sh with
        auth
        writtenBack := sh.writtenBack || (writes sh lo a).any sh.stale }
        { lo with auth := pc, threw := throws sh.auth lo.auth a }

variable {c : Nat} {sh sh' : Shared} {lo lo' : Local} {a : Action}

theorem Moves.of_eq {r : Shared × Local} (h : some r = some (sh', lo'))
    (hmoves : Moves c sh lo a r.1 r.2) : Moves c sh lo a sh' lo' := by
  rwa [Option.some.inj h] at hmoves

theorem Moves.proceed (k : After) :
    Moves c sh lo a (Service.proceed c sh k).1 (Service.proceed c sh k).2 := by
  cases k with
  | nothing => exact .keep (.refl sh) rfl
  | waitForQr =>
      simp only [Service.proceed]
      split
      · exact .keep (.refl sh) rfl
      · have hbusy : Pc.waitingForQr.busy = false := rfl
        exact .keep ⟨rfl, rfl, rfl, rfl, rfl, rfl, fun _ h => h⟩ hbusy

theorem Moves.ensureSocket {sh₁ : Shared} (k : After) (hsame : Same sh sh₁)
    (hcause : a = .getQrBase64 ∧ sh₁.resolved = [] ∨ lo.pc = .restarting) :
    Moves c sh lo a (Service.ensureSocket c sh₁ k).1 (Service.ensureSocket c sh₁ k).2 := by
  unfold Service.ensureSocket
  split
  · exact .keep hsame rfl
  · next hpromise =>
    split
    · exact .keep hsame rfl
    · next hsock =>
      have hnone : sh₁.sock = none := by simpa using hsock
      exact .begin hsame hcause (hsame.sock ▸ hnone) (hsame.startPromise ▸ hpromise)

theorem same_cacheQr (sh : Shared) (qr : Option String) : Same sh (sh.cacheQr qr) := by
  cases qr with
  | none => exact .refl sh
  | some qr => exact ⟨rfl, rfl, rfl, rfl, rfl, rfl, fun _ h => h⟩

theorem Moves.handleConnectionUpdate {sock : Sock} (update : Update) (hsock : sock ∈ sh.listeners) :
    Moves c sh lo a (Service.handleConnectionUpdate sh update).1
      (Service.handleConnectionUpdate sh update).2 := by
  obtain ⟨hauth, hs, hl, hp, ho, hw, hr⟩ := same_cacheQr sh update.qr
  unfold Service.handleConnectionUpdate
  dsimp only
  split
  · exact .keep ⟨hauth, hs, hl, hp, ho, hw, hr⟩ rfl
  · split
    · exact .teardown ⟨hauth, hs, hl, hp, ho, hw, hr⟩ trivial
    · exact .teardown ⟨hauth, hs, hl, hp, ho, hw, hr⟩ (List.ne_nil_of_mem hsock)
  · exact .keep ⟨hauth, hs, hl, hp, ho, hw, hr⟩ rfl

theorem moves_of_resume (h : resume c sh lo = some (sh', lo')) : Moves c sh lo .resume sh' lo' := by
  unfold resume at h
  split at h
  · next start k obtained hpc =>
    cases h
    exact .boot (by rw [hpc]; rfl) (by rw [hpc]; dsimp only; split <;> rfl) (.inl rfl)
  · split at h
    · exact .of_eq h (.proceed _)
    · cases h
      exact .keep (.refl sh) rfl
  · split at h
    · cases h
      exact .keep (.refl sh) rfl
    · split at h
      · exact .of_eq h (.proceed _)
      · cases h
  · split at h
    · cases h
    · cases h
      exact .keep (.refl sh) rfl
  · next n hpc =>
    have htears : tears sh lo.pc .resume = true := by simp [tears, hpc]
    exact .of_eq h (.teardown (.refl sh) ⟨rfl, htears⟩)
  · next n hpc =>
    split at h
    · cases h
      exact .keep (.refl sh) rfl
    · next hthrew =>
      cases h
      exact .resolve hpc (by simpa using hthrew)
  · cases h
    exact .keep (.refl sh) rfl
  · next hpc =>
    split at h
    · cases h
      exact .keep (.refl sh) rfl
    · exact .of_eq h (.ensureSocket _ (.refl sh) (.inr hpc))
  · cases h

theorem moves_of_move (h : move c sh lo a = some (sh', lo')) : Moves c sh lo a sh' lo' := by
  cases a with
  | getQrBase64 =>
      have hsame : Same sh { sh with resolved := [] } :=
        ⟨rfl, rfl, rfl, rfl, rfl, rfl, fun _ hn => absurd hn List.not_mem_nil⟩
      simp only [move] at h
      split at h
      · split at h
        · cases h
          exact .keep hsame rfl
        · exact .of_eq h (.ensureSocket _ hsame (.inl ⟨rfl, rfl⟩))
      · cases h
  | logout =>
      have hsame : Same sh { sh with logouts := sh.logouts + 1 } :=
        ⟨rfl, rfl, rfl, rfl, rfl, rfl, fun _ hn => hn⟩
      simp only [move] at h
      split at h
      · split at h
        · cases h
          exact .keep hsame rfl
        · next hsock =>
          have htears : tears sh lo.pc .logout = true := by
            simpa only [tears, Bool.not_eq_true', Bool.not_eq_true] using hsock
          exact .of_eq h (.teardown hsame ⟨rfl, htears⟩)
      · cases h
  | onModuleDestroy =>
      simp only [move] at h
      split at h
      · exact .of_eq h (.teardown (.refl sh) trivial)
      · cases h
  | credsUpdate sock payload =>
      simp only [move] at h
      split at h
      · next hfree =>
        cases h
        exact .saveCreds hfree.2
      · cases h
  | connectionUpdate sock update =>
      simp only [move] at h
      split at h
      · next hfree => exact .of_eq h (.handleConnectionUpdate update hfree.2)
      · cases h
  | imported ok =>
      simp only [move] at h
      split at h
      · next start k hpc =>
        cases h
        cases ok with
        | false => exact .boot (by rw [hpc]; rfl) (by rw [hpc]; rfl) (.inl rfl)
        | true =>
            exact .boot (by rw [hpc]; rfl) (by rw [hpc]; rfl) (.inr ⟨rfl, rfl⟩)
      · cases h
  | fetched made =>
      simp only [move] at h
      split at h
      · next start k obtained hpc =>
        cases h
        cases made with
        | false => exact .boot (by rw [hpc]; rfl) (by rw [hpc]; rfl) (.inl rfl)
        | true => exact .assign hpc
      · cases h
  | settle =>
      simp only [move] at h
      split at h
      · next start ok k hpc =>
        cases h
        exact .settle hpc
      · cases h
  | timeout =>
      simp only [move] at h
      split at h
      · cases h
        exact .keep ⟨rfl, rfl, rfl, rfl, rfl, rfl, fun _ hn => hn⟩ rfl
      · cases h
  | resume =>
      simp only [move] at h
      split at h
      · exact moves_of_resume h
      · cases h
  | auth a =>
      simp only [move] at h
      split at h
      · next hallowed =>
        obtain ⟨r, hr, hr'⟩ := Option.map_eq_some_iff.1 h
        cases hr'
        exact .auth hallowed hr
      · cases h

/-! ## The store below -/

def State.store (s : State) : Auth.State := ⟨s.shared.auth, fun c => (s.client c).auth⟩

def Pc.calls : Pc → Bool
  | .idle | .clearing _ | .tearingDown | .restarting => true
  | pc => pc.loads

theorem Pc.calls_of_loads {pc : Pc} (h : pc.loads = true) : pc.calls = true := by
  cases pc <;> first | rfl | cases h

/-- Between its calls of the store a client is idle there. -/
def Synced (lo : Local) : Prop := lo.auth = .idle ∨ lo.pc.calls = true

theorem Synced.idle (h : Synced lo) (hcalls : lo.pc.calls = false) : lo.auth = .idle :=
  h.resolve_right (by simp [hcalls])

theorem Moves.synced (hsynced : Synced lo) (h : Moves c sh lo a sh' lo') : Synced lo' := by
  cases h with
  | keep | begin | assign | settle | saveCreds | resolve => exact .inl rfl
  | boot hpc hstart hauth =>
      rcases hauth with hidle | ⟨_, hloads⟩
      · exact .inl hidle
      · exact .inr (Pc.calls_of_loads hloads)
  | @teardown _ _ _ pc hsame hcause =>
      refine .inr (show pc.calls = true from ?_)
      cases pc <;> first | rfl | exact hcause.elim
  | @auth a _ _ hallowed hmove =>
      rcases hsynced with hidle | hcalls
      · rw [hidle] at hmove
        refine .inr (show lo.pc.calls = true from ?_)
        cases a with
        | fire | flush | exists_ =>
            have hpc : lo.pc = .idle := hallowed
            rw [hpc]
            rfl
        | save | load | clear => exact hallowed.elim
        | _ => cases hmove
      · exact .inr hcalls

/-- A step of a client that is idle in the store makes no step there, or one. -/
theorem Moves.store (hidle : lo.auth = .idle) (h : Moves c sh lo a sh' lo') :
    (sh'.auth = sh.auth ∧ lo'.auth = lo.auth) ∨
      ∃ b, Auth.move c sh.auth lo.auth b = some (sh'.auth, lo'.auth) := by
  cases h with
  | keep hsame => exact .inl ⟨hsame.auth, hidle.symm⟩
  | begin hsame => exact .inl ⟨hsame.auth, hidle.symm⟩
  | boot hpc hstart hauth =>
      rcases hauth with hidle' | ⟨hload, _⟩
      · exact .inl ⟨rfl, hidle'.trans hidle.symm⟩
      · refine .inr ⟨.load, ?_⟩
        rw [hidle, hload]
        rfl
  | assign | settle | resolve => exact .inl ⟨rfl, hidle.symm⟩
  | @saveCreds _ payload hsock =>
      refine .inr ⟨.save payload, ?_⟩
      rw [hidle]
      rfl
  | @teardown _ sh₁ removeAuth pc hsame hcause =>
      rw [hidle, ← hsame.auth]
      cases removeAuth with
      | true => exact .inr ⟨.clear, rfl⟩
      | false => exact .inr ⟨.flush, rfl⟩
  | auth hallowed hmove => exact .inr ⟨_, hmove⟩

/-- A client that makes a step of the service's own is idle in the store. -/
theorem idle_of_move (hsynced : Synced lo) (h : move c sh lo a = some (sh', lo'))
    (ha : ∀ b, a ≠ .auth b) : lo.auth = .idle := by
  cases a with
  | getQrBase64 | logout | onModuleDestroy =>
      simp only [move] at h
      split at h
      · next hfree => exact hfree.2
      · cases h
  | credsUpdate | connectionUpdate =>
      simp only [move] at h
      split at h
      · next hfree => exact hfree.1.2
      · cases h
  | imported | fetched | settle =>
      simp only [move] at h
      split at h
      · next hpc => exact hsynced.idle (by rw [hpc]; rfl)
      · cases h
  | timeout =>
      simp only [move] at h
      split at h
      · next hpc => exact hsynced.idle (by rw [hpc.1]; rfl)
      · cases h
  | resume =>
      simp only [move] at h
      split at h
      · assumption
      · cases h
  | auth b => exact absurd rfl (ha b)

theorem store_of_move (hsynced : Synced lo) (h : move c sh lo a = some (sh', lo')) :
    (sh'.auth = sh.auth ∧ lo'.auth = lo.auth) ∨
      ∃ b, Auth.move c sh.auth lo.auth b = some (sh'.auth, lo'.auth) := by
  by_cases ha : ∃ b, a = .auth b
  · obtain ⟨b, rfl⟩ := ha
    simp only [move] at h
    split at h
    · obtain ⟨r, hr, hr'⟩ := Option.map_eq_some_iff.1 h
      cases hr'
      exact .inr ⟨b, hr⟩
    · cases h
  · exact (moves_of_move h).store (idle_of_move hsynced h fun b hb => ha ⟨b, hb⟩)

theorem store_update (sh : Shared) (client : Nat → Local) (c : Nat) (lo : Local) :
    State.store ⟨sh, Function.update client c lo⟩ =
      ⟨sh.auth, Function.update (fun d => (client d).auth) c lo.auth⟩ := by
  simp only [State.store, Pool.mk.injEq, true_and]
  funext d
  by_cases hd : d = c
  · subst hd
    simp
  · simp [Function.update_of_ne hd]

theorem client_init (stored : Option String) (baileys : Bool) (d : Nat) :
    ((init stored baileys).client d).auth = .idle := by
  cases baileys <;> cases d <;> rfl

theorem store_init (stored : Option String) (baileys : Bool) :
    (init stored baileys).store = Auth.init stored := by
  have hshared : (init stored baileys).shared.auth = { stored } := by cases baileys <;> rfl
  simp only [State.store, Auth.init, hshared, client_init]

/-- What the service does to its store is a run of the store's own machine. -/
theorem store_of_run {stored : Option String} {baileys : Bool} {as : List (Nat × Action)}
    {s : State} (hrun : run step (init stored baileys) as = some s) :
    ∃ bs, run (Pool.step Auth.move) (Auth.init stored) bs = some s.store := by
  let R (s : State) (t : Auth.State) : Prop := t = s.store ∧ ∀ d, Synced (s.client d)
  have hstep : ∀ (s : State) (t : Auth.State) (a : Nat × Action) (s' : State), R s t →
      step s a = some s' → ∃ bs t', run (Pool.step Auth.move) t bs = some t' ∧ R s' t' := by
    rintro s t ⟨c, a⟩ s' ⟨rfl, hsynced⟩ hs
    obtain ⟨sh, lo, hmove, rfl⟩ := Pool.step_spec hs
    have hsynced' : ∀ d, Synced (Function.update s.client c lo d) := by
      refine (Function.forall_update_iff s.client fun _ lo => Synced lo).2 ?_
      exact ⟨(moves_of_move hmove).synced (hsynced c), fun d _ => hsynced d⟩
    rcases store_of_move (hsynced c) hmove with ⟨hauth, hlo⟩ | ⟨b, hb⟩
    · refine ⟨[], s.store, rfl, ?_, hsynced'⟩
      rw [store_update, hauth, hlo, Function.update_eq_self]
      rfl
    · have hstore : Pool.step Auth.move s.store (c, b) =
          some ⟨sh.auth, Function.update s.store.client c lo.auth⟩ :=
        congrArg (Option.map _) hb
      refine ⟨[(c, b)], _, run_cons_eq_some.2 ⟨_, hstore, rfl⟩, ?_, hsynced'⟩
      rw [store_update]
      rfl
  have hinit : R (init stored baileys) (Auth.init stored) :=
    ⟨(store_init stored baileys).symm, fun d => .inl (client_init stored baileys d)⟩
  obtain ⟨bs, t, ht, rfl, _⟩ := run_simulates hstep hinit hrun
  exact ⟨bs, ht⟩

end NestStarter.Whatsapp.Service
