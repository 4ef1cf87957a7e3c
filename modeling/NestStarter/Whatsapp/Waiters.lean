import NestStarter.Core.Machine
import NestStarter.Domain

/-! # Waiting for a QR code

The waiters of `WhatsappService`: `waitForQr`, what the events of the socket and `teardown` do to
the list, and the timer of each waiter. A waiter is its number in the order of registration. Two
fields are history: how many have registered, and the calls of `resolve` and `reject` that their
promises have seen.
-/

namespace NestStarter.Whatsapp.Waiters

open NestStarter.Core

/-- What a waiter is rejected with. -/
inductive QrError where
  | conflict (message : String)
  | serviceUnavailable (message : String)
  deriving DecidableEq, Repr

inductive Outcome where
  | resolved (qr : String)
  | rejected (e : QrError)
  deriving DecidableEq, Repr

inductive Connection where
  | connecting
  | open_
  | close
  deriving DecidableEq, Repr

/-- A `connection.update`; the code is that of its `lastDisconnect`. -/
structure Update where
  qr : Option String := none
  connection : Option Connection := none
  statusCode : Option Nat := none
  deriving DecidableEq, Repr

structure State where
  waiters : List Nat := []
  connected : Bool := false
  latestQr : Option String := none
  /-- The waiters whose timeout is pending. -/
  timers : List Nat := []
  registered : Nat := 0
  settled : List (Nat × Outcome) := []
  deriving DecidableEq, Repr

inductive Action where
  | waitForQr
  | connectionUpdate (update : Update)
  | teardown
  /-- The timer of a waiter fires. -/
  | timeout (waiter : Nat)
  deriving DecidableEq, Repr

def connectedError : QrError := .conflict "WhatsApp session is connected; no QR is needed now."

def closedError (statusCode : Option Nat) : QrError :=
  .serviceUnavailable ("Connection closed" ++
    (match statusCode.filter (· ≠ 0) with
      | some code => " (" ++ toString code ++ ")"
      | none => "") ++ ".")

def tornDownError : QrError := .serviceUnavailable "WhatsApp socket was torn down."

def timeoutError : QrError := .serviceUnavailable "QR code was not generated in time."

/-- `waiter.resolve` and `waiter.reject`: the timeout is cleared first. -/
def State.settle (outcome : Outcome) (s : State) (waiter : Nat) : State :=
  { s with
    timers := s.timers.filter (· ≠ waiter)
    settled := s.settled ++ [(waiter, outcome)] }

def State.settleAll (outcome : Outcome) (s : State) : State :=
  s.waiters.foldl (State.settle outcome) { s with waiters := [] }

def State.resolveWaiters (qr : String) (s : State) : State := s.settleAll (.resolved qr)

def State.rejectWaiters (e : QrError) (s : State) : State := s.settleAll (.rejected e)

def State.waitForQr (s : State) : State :=
  { s with
    waiters := s.waiters ++ [s.registered]
    timers := s.timers ++ [s.registered]
    registered := s.registered + 1 }

/-- `teardown`, as far as it concerns the waiters. -/
def State.teardown (s : State) : State :=
  ({ s with connected := false, latestQr := none } : State).rejectWaiters tornDownError

def Update.code (update : Update) : Option String := update.qr.filter (· ≠ "")

def State.handleConnectionUpdate (s : State) (update : Update) : State :=
  let s := match update.code with
    | some qr => ({ s with latestQr := some qr } : State).resolveWaiters qr
    | none => s
  match update.connection with
  | some .open_ =>
      ({ s with connected := true, latestQr := none } : State).rejectWaiters connectedError
  | some .close =>
      -- then a `teardown`, after a logout as in a restart
      (({ s with connected := false, latestQr := none } : State).rejectWaiters
        (closedError update.statusCode)).teardown
  | _ => s

def step (s : State) : Action → Option State
  | .waitForQr => some s.waitForQr
  | .connectionUpdate update => some (s.handleConnectionUpdate update)
  | .teardown => some s.teardown
  | .timeout waiter =>
      if waiter ∈ s.timers then
        some { s with
          timers := s.timers.filter (· ≠ waiter)
          waiters := s.waiters.filter (· ≠ waiter)
          settled := s.settled ++ [(waiter, .rejected timeoutError)] }
      else none

/-- How an event settles a waiter that it finds, if it concerns it. -/
def verdict (waiter : Nat) : Action → Option Outcome
  | .waitForQr => none
  | .connectionUpdate update =>
      match update.code, update.connection with
      | some qr, _ => some (.resolved qr)
      | none, some .open_ => some (.rejected connectedError)
      | none, some .close => some (.rejected (closedError update.statusCode))
      | none, _ => none
  | .teardown => some (.rejected tornDownError)
  | .timeout w => if w = waiter then some (.rejected timeoutError) else none

def State.outcomes (s : State) (waiter : Nat) : List Outcome :=
  s.settled.filterMap fun p => if p.1 = waiter then some p.2 else none

def registrations (as : List Action) : Nat := as.count .waitForQr

structure Settles (as : List Action) (s : State) : Prop where
  /-- The waiter of a registration has been settled once by the first event after it that
  concerns it, and not at all if there was none. -/
  first : ∀ before after, as = before ++ .waitForQr :: after →
    s.outcomes (registrations before) = (after.findSome? (verdict (registrations before))).toList
  /-- The others have not registered. -/
  none : ∀ w, registrations as ≤ w → s.outcomes w = []
  /-- Those not settled are waiting, in the order of registration. -/
  waiters : s.waiters = (List.range (registrations as)).filter fun w => s.outcomes w = []
  /-- They and no others have a timeout pending. -/
  timers : ∀ w, w ∈ s.timers ↔ w < registrations as ∧ s.outcomes w = []

/-! ## What one call does -/

/-- Every waiter that is there is settled as `v` says. -/
structure SettledBy (v : Nat → Option Outcome) (s s' : State) : Prop where
  outcomes : ∀ w, s'.outcomes w = s.outcomes w ++ if w ∈ s.waiters then (v w).toList else []
  waiters : s'.waiters = s.waiters.filter fun w => (v w).isNone
  timers : s'.timers = s.timers.filter fun w => (v w).isNone
  registered : s'.registered = s.registered

structure Inv (s : State) : Prop where
  timers : s.timers = s.waiters
  waiters : s.waiters = (List.range s.registered).filter fun w => s.outcomes w = []
  none : ∀ w, s.registered ≤ w → s.outcomes w = []

variable {s s' s₁ : State} {v v' : Nat → Option Outcome} {w : Nat}

theorem Inv.nodup (h : Inv s) : s.waiters.Nodup := by
  rw [h.waiters]
  exact List.nodup_range.filter _

theorem Inv.mem_waiters (h : Inv s) : w ∈ s.waiters ↔ w < s.registered ∧ s.outcomes w = [] := by
  rw [h.waiters]
  simp

theorem SettledBy.inv (h : SettledBy v s s') (hs : Inv s) : Inv s' := by
  refine ⟨by rw [h.timers, h.waiters, hs.timers], ?_, fun w hw => ?_⟩
  · rw [h.waiters, hs.waiters, h.registered, List.filter_filter]
    refine List.filter_congr fun w hw => ?_
    have hlt : w < s.registered := List.mem_range.1 hw
    have hmem : w ∈ s.waiters ↔ s.outcomes w = [] := by simp [hs.mem_waiters, hlt]
    rw [h.outcomes w]
    by_cases hnone : s.outcomes w = []
    · cases v w <;> simp [hmem.2 hnone, hnone]
    · simp [hnone]
  · rw [h.registered] at hw
    have hmem : w ∉ s.waiters := fun hmem => Nat.not_lt.2 hw (hs.mem_waiters.1 hmem).1
    rw [h.outcomes w, hs.none w hw, if_neg hmem]
    rfl

/-- Of two calls in a row, the second finds the waiters that the first has left. -/
theorem SettledBy.trans (h : SettledBy v s s₁) (h' : SettledBy v' s₁ s') :
    SettledBy (fun w => (v w).or (v' w)) s s' := by
  refine ⟨fun w => ?_, ?_, ?_, h'.registered.trans h.registered⟩
  · rw [h'.outcomes w, h.outcomes w, h.waiters]
    by_cases hmem : w ∈ s.waiters
    · cases hv : v w <;> simp [hmem, hv]
    · simp [hmem]
  · rw [h'.waiters, h.waiters, List.filter_filter]
    exact List.filter_congr fun w _ => by cases v w <;> simp
  · rw [h'.timers, h.timers, List.filter_filter]
    exact List.filter_congr fun w _ => by cases v w <;> simp

theorem settledBy_none (hsettled : s'.settled = s.settled) (hwaiters : s'.waiters = s.waiters)
    (htimers : s'.timers = s.timers) (hregistered : s'.registered = s.registered) :
    SettledBy (fun _ => none) s s' := by
  refine ⟨fun w => ?_, by simp [hwaiters], by simp [htimers], hregistered⟩
  simp [State.outcomes, hsettled]

theorem foldl_settle (outcome : Outcome) (l : List Nat) (s : State) :
    l.foldl (State.settle outcome) s = { s with
      timers := s.timers.filter (· ∉ l)
      settled := s.settled ++ l.map fun w => (w, outcome) } := by
  induction l generalizing s with
  | nil => simp
  | cons w l ih =>
      have htimers : (s.timers.filter (· ≠ w)).filter (· ∉ l) = s.timers.filter (· ∉ w :: l) := by
        rw [List.filter_filter]
        exact List.filter_congr fun u _ => by simp [Bool.and_comm]
      rw [List.foldl_cons, ih]
      simp only [State.settle, htimers, List.append_assoc, List.map_cons, List.singleton_append]

/-- In a list without repetition each waiter is met at most once. -/
theorem filterMap_settled (outcome : Outcome) {l : List Nat} (hl : l.Nodup) (w : Nat) :
    ((l.map fun u => (u, outcome)).filterMap fun p => if p.1 = w then some p.2 else none) =
      if w ∈ l then [outcome] else [] := by
  induction l with
  | nil => rfl
  | cons u l ih =>
      obtain ⟨hu, hl⟩ := List.nodup_cons.1 hl
      rw [List.map_cons, List.filterMap_cons, ih hl]
      by_cases huw : u = w
      · subst huw
        simp [hu]
      · have hwu : w ≠ u := Ne.symm huw
        simp [huw, hwu]

theorem settledBy_settleAll (hs : Inv s) (outcome : Outcome) :
    SettledBy (fun _ => some outcome) s (s.settleAll outcome) := by
  unfold State.settleAll
  rw [foldl_settle]
  refine ⟨fun w => ?_, by simp, ?_, rfl⟩
  · have happend := filterMap_settled outcome hs.nodup w
    simp only [State.outcomes, List.filterMap_append, happend, Option.toList_some]
  · rw [hs.timers]
    exact List.filter_congr fun w hw => by simp [hw]

/-- What `handleConnectionUpdate` does for the code, if the update has one. -/
theorem settledBy_code (hs : Inv s) (code : Option String) :
    SettledBy (fun _ => code.map .resolved) s
      (match code with
        | some qr => ({ s with latestQr := some qr } : State).resolveWaiters qr
        | none => s) := by
  cases code with
  | none => exact settledBy_none rfl rfl rfl rfl
  | some qr =>
      have hs : Inv { s with latestQr := some qr } := ⟨hs.timers, hs.waiters, hs.none⟩
      obtain ⟨houtcomes, hwaiters, htimers, hregistered⟩ := settledBy_settleAll hs (.resolved qr)
      exact ⟨houtcomes, hwaiters, htimers, hregistered⟩

/-- A `rejectWaiters` after the fields have been set. -/
theorem settledBy_rejectWaiters (hs : Inv s) (connected : Bool) (e : QrError) :
    SettledBy (fun _ => some (.rejected e)) s
      (({ s with connected, latestQr := none } : State).rejectWaiters e) := by
  have hs : Inv { s with connected, latestQr := none } := ⟨hs.timers, hs.waiters, hs.none⟩
  obtain ⟨houtcomes, hwaiters, htimers, hregistered⟩ := settledBy_settleAll hs (.rejected e)
  exact ⟨houtcomes, hwaiters, htimers, hregistered⟩

theorem SettledBy.congr (h : SettledBy v s s') (hv : ∀ w, v w = v' w) : SettledBy v' s s' := by
  rwa [← funext hv]

theorem settledBy_handleConnectionUpdate (hs : Inv s) (update : Update) :
    SettledBy (fun w => verdict w (.connectionUpdate update)) s
      (s.handleConnectionUpdate update) := by
  have hcode := settledBy_code hs update.code
  have hafter := hcode.inv hs
  unfold State.handleConnectionUpdate
  generalize (match update.code with
    | some qr => ({ s with latestQr := some qr } : State).resolveWaiters qr
    | none => s) = s₁ at hcode hafter ⊢
  cases hconnection : update.connection with
  | none =>
      exact hcode.congr fun w => by cases hqr : update.code <;> simp [verdict, hqr, hconnection]
  | some connection =>
      cases connection with
      | connecting =>
          exact hcode.congr fun w => by
            cases hqr : update.code <;> simp [verdict, hqr, hconnection]
      | open_ =>
          refine (hcode.trans (settledBy_rejectWaiters hafter true connectedError)).congr
            fun w => ?_
          cases hqr : update.code <;> simp [verdict, hqr, hconnection]
      | close =>
          -- the second rejection finds no waiter
          have hclosed := settledBy_rejectWaiters hafter false (closedError update.statusCode)
          have hdown := settledBy_rejectWaiters (hclosed.inv hafter) false tornDownError
          refine (hcode.trans (hclosed.trans hdown)).congr fun w => ?_
          cases hqr : update.code <;> simp [verdict, hqr, hconnection]

theorem settledBy_timeout (hs : Inv s) (hw : w ∈ s.timers) :
    SettledBy (fun u => verdict u (.timeout w)) s { s with
      timers := s.timers.filter (· ≠ w)
      waiters := s.waiters.filter (· ≠ w)
      settled := s.settled ++ [(w, .rejected timeoutError)] } := by
  have hkeep : ∀ l : List Nat,
      l.filter (· ≠ w) = l.filter fun u => (verdict u (.timeout w)).isNone := by
    intro l
    refine List.filter_congr fun u _ => ?_
    by_cases hu : w = u
    · simp [verdict, hu]
    · simp [verdict, hu, Ne.symm hu]
  refine ⟨fun u => ?_, hkeep _, hkeep _, rfl⟩
  rw [hs.timers] at hw
  simp only [State.outcomes, List.filterMap_append]
  by_cases hu : w = u
  · subst hu
    simp [verdict, hw]
  · simp [verdict, hu]

/-! ## Steps and runs -/

/-- An event other than a registration settles the waiters that it finds as its verdict says. -/
theorem settledBy_of_step {a : Action} (hs : Inv s) (ha : a ≠ .waitForQr)
    (hstep : step s a = some s') : SettledBy (fun w => verdict w a) s s' := by
  cases a with
  | waitForQr => exact absurd rfl ha
  | connectionUpdate update =>
      cases hstep
      exact settledBy_handleConnectionUpdate hs update
  | teardown =>
      cases hstep
      exact settledBy_rejectWaiters hs false tornDownError
  | timeout w =>
      obtain ⟨hw, heq⟩ := Option.ite_none_right_eq_some.1 hstep
      cases heq
      exact settledBy_timeout hs hw

theorem Inv.waitForQr (h : Inv s) : Inv s.waitForQr := by
  have houtcomes : ∀ w, s.waitForQr.outcomes w = s.outcomes w := fun _ => rfl
  refine ⟨?_, ?_, fun w hw => h.none w (Nat.le_of_succ_le hw)⟩
  · show s.timers ++ [s.registered] = s.waiters ++ [s.registered]
    rw [h.timers]
  · show s.waiters ++ [s.registered] =
      (List.range (s.registered + 1)).filter fun w => s.outcomes w = []
    rw [List.range_succ, List.filter_append, ← h.waiters]
    simp [h.none s.registered (Nat.le_refl _)]

theorem Inv.step {a : Action} (h : Inv s) (hstep : step s a = some s') : Inv s' := by
  by_cases ha : a = .waitForQr
  · subst ha
    cases hstep
    exact h.waitForQr
  · exact (settledBy_of_step h ha hstep).inv h

/-- What one event does to a waiter that has registered before. -/
theorem outcomes_of_step {a : Action} (h : Inv s) (hstep : step s a = some s')
    (hw : w < s.registered) :
    s'.outcomes w = if s.outcomes w = [] then (verdict w a).toList else s.outcomes w := by
  by_cases ha : a = .waitForQr
  · subst ha
    cases hstep
    show s.outcomes w = _
    split <;> simp_all [verdict]
  · rw [(settledBy_of_step h ha hstep).outcomes w]
    by_cases hnone : s.outcomes w = []
    · simp [h.mem_waiters.2 ⟨hw, hnone⟩, hnone]
    · have hmem : w ∉ s.waiters := fun hmem => hnone (h.mem_waiters.1 hmem).2
      simp [hmem, hnone]

theorem registered_of_step {a : Action} (h : Inv s) (hstep : step s a = some s') :
    s'.registered = s.registered + registrations [a] := by
  by_cases ha : a = .waitForQr
  · subst ha
    cases hstep
    rfl
  · rw [(settledBy_of_step h ha hstep).registered]
    simp [registrations, ha]

theorem inv_of_run {as : List Action} (h : Inv s) (hrun : run step s as = some s') :
    Inv s' ∧ s'.registered = s.registered + registrations as := by
  induction as generalizing s with
  | nil =>
      cases hrun
      exact ⟨h, rfl⟩
  | cons a as ih =>
      obtain ⟨s₁, hs₁, hrest⟩ := run_cons_eq_some.1 hrun
      obtain ⟨hinv, hregistered⟩ := ih (h.step hs₁) hrest
      refine ⟨hinv, ?_⟩
      have hcount : registrations (a :: as) = registrations [a] + registrations as := by
        show List.count Action.waitForQr ([a] ++ as) = _
        exact List.count_append
      rw [hregistered, registered_of_step h hs₁, hcount]
      omega

/-- Over a run the first event that concerns a waiter settles it, and the later ones do not. -/
theorem outcomes_of_run {as : List Action} (h : Inv s) (hrun : run step s as = some s')
    (hw : w < s.registered) :
    s'.outcomes w =
      if s.outcomes w = [] then (as.findSome? (verdict w)).toList else s.outcomes w := by
  induction as generalizing s with
  | nil =>
      cases hrun
      split <;> simp_all
  | cons a as ih =>
      obtain ⟨s₁, hs₁, hrest⟩ := run_cons_eq_some.1 hrun
      have hle : s.registered ≤ s₁.registered := by
        rw [registered_of_step h hs₁]
        exact Nat.le_add_right _ _
      rw [ih (h.step hs₁) hrest (Nat.lt_of_lt_of_le hw hle), outcomes_of_step h hs₁ hw]
      by_cases hnone : s.outcomes w = []
      · cases hv : verdict w a <;> simp [hnone, hv]
      · simp [hnone]

/-- For every order of registrations, events, teardowns and timeouts. -/
theorem settles_of_run {as : List Action} (hrun : run step {} as = some s) : Settles as s := by
  have hempty : Inv {} := ⟨rfl, rfl, fun _ _ => rfl⟩
  have hzero : ({} : State).registered = 0 := rfl
  obtain ⟨hinv, hregistered⟩ := inv_of_run hempty hrun
  rw [hzero, Nat.zero_add] at hregistered
  refine ⟨fun before after has => ?_, fun w hw => hinv.none w (by omega), ?_, fun w => ?_⟩
  · subst has
    rw [run_append, Option.bind_eq_some_iff] at hrun
    obtain ⟨s₁, hbefore, hafter⟩ := hrun
    obtain ⟨hinv₁, hregistered₁⟩ := inv_of_run hempty hbefore
    rw [hzero, Nat.zero_add] at hregistered₁
    obtain ⟨s₂, hs₂, hrest⟩ := run_cons_eq_some.1 hafter
    cases hs₂
    have hnew : s₁.waitForQr.outcomes s₁.registered = [] := hinv₁.none _ (Nat.le_refl _)
    have hlt : s₁.registered < s₁.waitForQr.registered := Nat.lt_succ_self _
    rw [← hregistered₁, outcomes_of_run hinv₁.waitForQr hrest hlt, if_pos hnew]
  · rw [hinv.waiters, hregistered]
  · rw [hinv.timers, hinv.mem_waiters, hregistered]

/-- A code that comes with the open connection goes to the one who waits; the next one has to
wait, and its time runs out. -/
def openWithCode : List Action :=
  [.waitForQr, .connectionUpdate { qr := some "2@a", connection := some .open_ }, .waitForQr,
    .waitForQr, .timeout 1, .teardown]

theorem settles_openWithCode :
    ∃ s, run step {} openWithCode = some s ∧
      s.settled = [(0, .resolved "2@a"), (1, .rejected timeoutError),
        (2, .rejected tornDownError)] ∧ Settles openWithCode s := by
  have hrun : (run step {} openWithCode).any (fun s => decide (s.settled =
      [(0, .resolved "2@a"), (1, .rejected timeoutError), (2, .rejected tornDownError)])) =
      true := by decide +kernel
  simp only [Option.any_eq_true, decide_eq_true_eq] at hrun
  obtain ⟨s, hs, hsettled⟩ := hrun
  exact ⟨s, hs, hsettled, settles_of_run hs⟩

end NestStarter.Whatsapp.Waiters
