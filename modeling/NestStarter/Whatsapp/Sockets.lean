import NestStarter.Whatsapp.Service

/-! # One socket

What the service asks of the sockets it makes, in the order of its steps: `makeWASocket` in
`startSocket`, and `end` in `teardown`, which ends the socket that `sock` refers to. Neither
`removeAllListeners` nor `end` throws.
-/

namespace NestStarter.Whatsapp.Service

open NestStarter.Core

inductive SockCall where
  | makeWASocket (sock : Sock)
  | end_ (sock : Sock)
  deriving DecidableEq, Repr

def tearsDown (sh : Shared) (lo : Local) : Action → Bool
  | .onModuleDestroy => true
  | .connectionUpdate _ { connection := some (.close _), .. } => true
  | a => tears sh lo.pc a

def sockCalls (sh : Shared) (lo : Local) (a : Action) : List SockCall :=
  match a, lo.pc with
  | .fetched true, .fetching start _ obtained => [.makeWASocket ⟨start, obtained⟩]
  | _, _ => if tearsDown sh lo a then sh.sock.toList.map .end_ else []

def callsOf : State → List (Nat × Action) → List SockCall
  | _, [] => []
  | s, a :: as =>
      match step s a with
      | none => []
      | some s' => sockCalls s.shared (s.client a.1) a.2 ++ callsOf s' as

/-- The sockets that are there after a call, of those that were there before. -/
def SockCall.after (sockets : List Sock) : SockCall → List Sock
  | .makeWASocket sock => sockets ++ [sock]
  | .end_ sock => sockets.erase sock

def unended (calls : List SockCall) : List Sock := calls.foldl SockCall.after []

variable {c d : Nat} {sh sh' : Shared} {lo lo' : Local} {a : Action}

theorem sock_proceed (c : Nat) (sh : Shared) (k : After) : (proceed c sh k).1.sock = sh.sock := by
  cases k with
  | nothing => rfl
  | waitForQr =>
      simp only [proceed]
      split <;> rfl

theorem sock_ensureSocket (c : Nat) (sh : Shared) (k : After) :
    (ensureSocket c sh k).1.sock = sh.sock := by
  unfold ensureSocket
  split
  · rfl
  · split <;> rfl

theorem sock_handleConnectionUpdate (sh : Shared) (update : Update) :
    (handleConnectionUpdate sh update).1.sock =
      match update.connection with
      | some (.close _) => none
      | _ => sh.sock := by
  have hsame := (same_cacheQr sh update.qr).sock
  unfold handleConnectionUpdate
  dsimp only
  split
  · next hopen => simp [hopen, hsame]
  · next loggedOut hclose =>
    simp only [hclose]
    split <;> rfl
  · next hopen hclose =>
    simp only [hsame]

theorem fst_of_eq {r : Shared × Local} (h : some r = some (sh', lo')) : sh' = r.1 := by
  rw [Option.some.inj h]

theorem sock_of_resume (h : resume c sh lo = some (sh', lo'))
    (hstays : tearsDown sh lo .resume = false) : sh'.sock = sh.sock := by
  unfold resume at h
  split at h
  · cases h
    rfl
  · split at h
    · rw [fst_of_eq h, sock_proceed]
    · cases h
      rfl
  · split at h
    · cases h
      rfl
    · split at h
      · rw [fst_of_eq h, sock_proceed]
      · cases h
  · split at h
    · cases h
    · cases h
      rfl
  · next n hpc => simp [tearsDown, tears, hpc] at hstays
  · split at h <;> cases h <;> rfl
  · cases h
    rfl
  · split at h
    · cases h
      rfl
    · rw [fst_of_eq h, sock_ensureSocket]
  · cases h

/-- A step that neither tears down nor makes a socket leaves `sock` as it is. -/
theorem sock_of_move (h : move c sh lo a = some (sh', lo'))
    (hstays : tearsDown sh lo a = false) (hmakes : a ≠ .fetched true) : sh'.sock = sh.sock := by
  cases a with
  | getQrBase64 =>
      simp only [move] at h
      split at h
      · split at h
        · cases h
          rfl
        · rw [fst_of_eq h, sock_ensureSocket]
      · cases h
  | logout =>
      simp only [move] at h
      split at h
      · split at h
        · cases h
          rfl
        · next hsock =>
          have htears : tears sh lo.pc .logout = true := by
            simpa only [tears, Bool.not_eq_true', Bool.not_eq_true] using hsock
          cases htears.symm.trans hstays
      · cases h
  | onModuleDestroy => cases hstays
  | connectionUpdate sock update =>
      simp only [move] at h
      split at h
      · rw [fst_of_eq h, sock_handleConnectionUpdate]
        obtain ⟨qr, connection⟩ := update
        cases connection with
        | none => rfl
        | some connection =>
            cases connection with
            | close loggedOut => cases hstays
            | _ => rfl
      · cases h
  | fetched made =>
      simp only [move] at h
      split at h
      · cases h
        cases made with
        | true => exact absurd rfl hmakes
        | false => rfl
      · cases h
  | resume =>
      simp only [move] at h
      split at h
      · exact sock_of_resume h hstays
      · cases h
  | auth a =>
      simp only [move] at h
      split at h
      · obtain ⟨r, _, hr⟩ := Option.map_eq_some_iff.1 h
        cases hr
        rfl
      · cases h
  | credsUpdate | imported | settle | timeout =>
      simp only [move] at h
      split at h
      · cases h
        rfl
      · cases h

theorem sock_of_tearsDown (h : move c sh lo a = some (sh', lo'))
    (hdown : tearsDown sh lo a = true) : sh'.sock = none := by
  cases a with
  | logout =>
      have hdown : (!(sh.sock.isSome && sh.connected)) = true := hdown
      have hsock : (sh.sock.isSome && sh.connected) = false := by
        simpa only [Bool.not_eq_true'] using hdown
      simp only [move, hsock] at h
      split at h
      · rw [fst_of_eq h]
        rfl
      · cases h
  | onModuleDestroy =>
      simp only [move] at h
      split at h
      · rw [fst_of_eq h]
        rfl
      · cases h
  | connectionUpdate sock update =>
      obtain ⟨qr, connection⟩ := update
      simp only [move] at h
      split at h
      · rw [fst_of_eq h, sock_handleConnectionUpdate]
        cases connection with
        | none => cases hdown
        | some connection =>
            cases connection with
            | close loggedOut => rfl
            | _ => cases hdown
      · cases h
  | resume =>
      simp only [move] at h
      split at h
      · unfold resume at h
        cases hpc : lo.pc with
        | unpairing n =>
            rw [hpc] at h
            rw [fst_of_eq h]
            rfl
        | _ => simp [tearsDown, tears, hpc] at hdown
      · cases h
  | _ => cases hdown

/-! ## One start at a time -/

/-- The start that a client is in is the pending one, and finds no socket. -/
structure Boots (c : Nat) (sh : Shared) (lo : Local) : Prop where
  promise : ∀ start, lo.pc.start? = some start → sh.startPromise = some start ∧ start.client = c
  sock : lo.pc.booting = true → sh.sock = none

def Single (s : State) : Prop := ∀ c, Boots c s.shared (s.client c)

theorem Boots.stay (h : Boots d sh lo)
    (hpromise : ∀ start, start.client = d → sh.startPromise = some start →
      sh'.startPromise = some start)
    (hsock : lo.pc.booting = true → sh.sock = none → sh'.sock = none) : Boots d sh' lo := by
  refine ⟨fun start hstart => ?_, fun hboot => hsock hboot (h.sock hboot)⟩
  obtain ⟨hp, hclient⟩ := h.promise start hstart
  exact ⟨hpromise start hclient hp, hclient⟩

theorem Boots.same (h : Boots d sh lo) (hpromise : sh'.startPromise = sh.startPromise)
    (hsock : sh'.sock = sh.sock) : Boots d sh' lo :=
  h.stay (fun _ _ hp => hpromise.trans hp) fun _ hs => hsock.trans hs

theorem boots_of_start_none {pc : Pc} {auth : Auth.Pc} {threw : Bool} (h : pc.start? = none) :
    Boots c sh ⟨pc, auth, threw⟩ := by
  refine ⟨fun start hstart => ?_, fun hboot => ?_⟩
  · cases h.symm.trans hstart
  · obtain ⟨start, hstart⟩ := Pc.start_of_booting hboot
    cases h.symm.trans hstart

variable {s : State}

theorem Single.client_eq (h : Single s) {start start' : Start}
    (hc : (s.client c).pc.start? = some start) (hd : (s.client d).pc.start? = some start') :
    c = d := by
  obtain ⟨hp, hclient⟩ := (h c).promise start hc
  obtain ⟨hp', hclient'⟩ := (h d).promise start' hd
  obtain rfl : start = start' := Option.some.inj (hp.symm.trans hp')
  exact hclient.symm.trans hclient'

theorem Single.step (h : Single s) (hmoves : Moves c s.shared (s.client c) a sh' lo') :
    Single ⟨sh', Function.update s.client c lo'⟩ := by
  refine (Function.forall_update_iff s.client fun d lo => Boots d sh' lo).2 ?_
  cases hmoves with
  | keep hsame hpc =>
      exact ⟨boots_of_start_none (Pc.start_of_not_busy hpc), fun d _ =>
        (h d).same hsame.startPromise hsame.sock⟩
  | begin hsame hcause hsock hpromise =>
      refine ⟨⟨fun start hstart => ?_, fun _ => hsame.sock.trans hsock⟩, fun d _ => ?_⟩
      · cases hstart
        exact ⟨rfl, rfl⟩
      · refine (h d).stay (fun start _ hp => ?_) fun _ _ => hsame.sock.trans hsock
        cases hpromise.symm.trans hp
  | boot hpc hstart hauth =>
      exact ⟨⟨fun start hs => (h c).promise start (hstart ▸ hs), fun _ => (h c).sock hpc⟩,
        fun d _ => h d⟩
  | @assign start k obtained hpc =>
      have hstart : (s.client c).pc.start? = some start := by rw [hpc]; rfl
      refine ⟨⟨fun start' hs => ?_, fun hboot => (by cases hboot)⟩, fun d hd => ?_⟩
      · obtain rfl : start = start' := Option.some.inj hs
        exact (h c).promise start hstart
      · refine (h d).stay (fun _ _ hp => hp) fun hboot _ => ?_
        obtain ⟨start', hstart'⟩ := Pc.start_of_booting hboot
        exact absurd (h.client_eq hstart' hstart) hd
  | @settle start ok k hpc =>
      have hstart : (s.client c).pc.start? = some start := by rw [hpc]; rfl
      refine ⟨boots_of_start_none rfl, fun d hd => (h d).stay (fun start' hclient hp => ?_)
        fun _ hs => hs⟩
      obtain ⟨hp', hclient'⟩ := (h c).promise start hstart
      obtain rfl : start = start' := Option.some.inj (hp'.symm.trans hp)
      exact absurd (hclient.symm.trans hclient') hd
  | saveCreds hsock => exact ⟨boots_of_start_none rfl, fun d _ => (h d).same rfl rfl⟩
  | @teardown _ sh₁ removeAuth pc hsame hcause =>
      have hstart : pc.start? = none := by
        cases pc <;> first | rfl | exact hcause.elim
      exact ⟨boots_of_start_none hstart, fun d _ =>
        (h d).stay (fun _ _ hp => hsame.startPromise.trans hp) fun _ _ => rfl⟩
  | resolve hpc hthrew => exact ⟨boots_of_start_none rfl, fun d _ => (h d).same rfl rfl⟩
  | auth hallowed hmove =>
      exact ⟨⟨fun start hs => (h c).promise start hs, fun hboot => (h c).sock hboot⟩,
        fun d _ => (h d).same rfl rfl⟩

theorem single_init (stored : Option String) (baileys : Bool) : Single (init stored baileys) := by
  have hidle : Single (init stored false) := fun d => by
    cases d <;> exact boots_of_start_none rfl
  cases baileys with
  | false => exact hidle
  | true =>
      have hbegin := hidle.step (c := 0) (a := .getQrBase64)
        (.begin (k := .nothing) (.refl _) (.inl ⟨rfl, rfl⟩) rfl rfl)
      simpa [init, ensureSocket] using hbegin

/-- The calls of one step, where `sock` has been all there was. -/
theorem Single.sockets (h : Single s) (hmove : move c s.shared (s.client c) a = some (sh', lo')) :
    (sockCalls s.shared (s.client c) a).foldl SockCall.after s.shared.sock.toList =
      sh'.sock.toList := by
  by_cases hmakes : a = .fetched true
  · subst hmakes
    simp only [move] at hmove
    split at hmove
    · next start k obtained hpc =>
      have hsock : s.shared.sock = none := (h c).sock (by rw [hpc]; rfl)
      cases hmove
      simp [sockCalls, hpc, hsock, SockCall.after, Shared.assign]
    · cases hmove
  · have hcalls : sockCalls s.shared (s.client c) a =
        if tearsDown s.shared (s.client c) a then s.shared.sock.toList.map .end_ else [] := by
      unfold sockCalls
      split
      · exact absurd rfl hmakes
      · rfl
    rw [hcalls]
    cases hdown : tearsDown s.shared (s.client c) a with
    | true =>
        rw [sock_of_tearsDown hmove hdown, if_pos rfl]
        cases s.shared.sock with
        | none => rfl
        | some sock => simp [SockCall.after]
    | false =>
        rw [sock_of_move hmove hdown hmakes, if_neg (by simp)]
        rfl

theorem sockets_of_run {as : List (Nat × Action)} {t : State} (h : Single s)
    (hrun : run step s as = some t) :
    (callsOf s as).foldl SockCall.after s.shared.sock.toList = t.shared.sock.toList := by
  induction as generalizing s with
  | nil =>
      cases hrun
      rfl
  | cons a as ih =>
      obtain ⟨s', hs', hrest⟩ := run_cons_eq_some.1 hrun
      have hcalls : callsOf s (a :: as) =
          sockCalls s.shared (s.client a.1) a.2 ++ callsOf s' as := by
        rw [callsOf, hs']
      obtain ⟨sh, lo, hmove, rfl⟩ := Pool.step_spec hs'
      rw [hcalls, List.foldl_append, h.sockets hmove]
      exact ih (h.step (moves_of_move hmove)) hrest

/-- In every state of every run at most one socket that was made has not been ended, and it is the
one in `sock`, if there is one there. -/
theorem unended_of_run {stored : Option String} {baileys : Bool} {as : List (Nat × Action)}
    (hrun : run step (init stored baileys) as = some s) :
    (unended (callsOf (init stored baileys) as)).length ≤ 1 ∧
      ∀ sock, sock ∈ unended (callsOf (init stored baileys) as) ↔ s.shared.sock = some sock := by
  have hnone : (init stored baileys).shared.sock = none := by cases baileys <;> rfl
  have hsockets := sockets_of_run (single_init stored baileys) hrun
  rw [hnone] at hsockets
  have hunended : unended (callsOf (init stored baileys) as) = s.shared.sock.toList := hsockets
  rw [hunended]
  cases s.shared.sock with
  | none => simp
  | some sock => simp [eq_comm]

/-- The first socket is ended, and a second one made in its place. -/
def reconnected : List (Nat × Action) :=
  [(0, .imported true), (0, .auth .apply), (0, .auth .resume), (0, .resume), (0, .fetched true),
    (0, .settle), (0, .resume),
    (1, .connectionUpdate ⟨⟨0, 0⟩, 0⟩ { connection := some (.close false) }), (1, .resume),
    (1, .imported true), (1, .resume), (1, .fetched true), (1, .settle)]

theorem unended_reconnected :
    callsOf (init (some "session") true) reconnected =
      [.makeWASocket ⟨⟨0, 0⟩, 0⟩, .end_ ⟨⟨0, 0⟩, 0⟩, .makeWASocket ⟨⟨1, 1⟩, 0⟩] ∧
    ∃ s, run step (init (some "session") true) reconnected = some s ∧
      (unended (callsOf (init (some "session") true) reconnected)).length ≤ 1 ∧
      ∀ sock, sock ∈ unended (callsOf (init (some "session") true) reconnected) ↔
        s.shared.sock = some sock := by
  have hrun : (run step (init (some "session") true) reconnected).isSome = true := by
    decide +kernel
  obtain ⟨s, hs⟩ := Option.isSome_iff_exists.1 hrun
  exact ⟨by decide +kernel, s, hs, unended_of_run hs⟩

end NestStarter.Whatsapp.Service
