import NestStarter.Accounts.Completion

/-! # First logins side by side

`findOneOrCreateByPhone`, `verifyOtp` and `createByAdmin` under any interleaving of their
statements. The unique index on `phone` refuses a second row; the call that sends it throws,
after a `verifyOtp` has consumed its code.
-/

namespace NestStarter.Accounts.Provisioning

open NestStarter.Core
open NestStarter.Accounts.Completion (phoneTaken cityNotFound CreateUserDto.toNewUser)

/-- `users`, with its unique index on `phone`. -/
structure Users extends UserTable where
  unique : (rows.map fun u => u.phone).Nodup

inductive Failure where
  | http (e : HttpException)
  /-- A `QueryFailedError`, and its SQLSTATE. -/
  | queryFailed (code : String)
  deriving DecidableEq, Repr

def uniqueViolation : Failure := .queryFailed "23505"

def Users.save (t : Users) (n : NewUser) (now : Instant) : Except Failure (UserEntity × Users) :=
  if h : n.phone ∈ t.rows.map fun u => u.phone then .error uniqueViolation
  else .ok (n.row t.nextId now, { t.toUserTable.insert n now with
    unique := by
      show ((t.rows ++ [n.row t.nextId now]).map fun u => u.phone).Nodup
      rw [List.map_append]
      refine List.nodup_append.2 ⟨t.unique, List.nodup_singleton _, ?_⟩
      rintro _ hu _ hv rfl
      exact h (by rwa [List.mem_singleton.1 hv] at hu) })

inductive Call where
  | findOneOrCreateByPhone (phone : String)
  | verifyOtp (phone : String)
  | createByAdmin (dto : CreateUserDto)
  deriving DecidableEq, Repr

def Call.phone : Call → String
  | .findOneOrCreateByPhone phone => phone
  | .verifyOtp phone => phone
  | .createByAdmin dto => dto.phone

def Call.provisions : Call → Bool
  | .createByAdmin _ => false
  | _ => true

inductive Result where
  | user (u : UserEntity)
  /-- The response of `verifyOtp`, with tokens for this user. -/
  | login (u : UserEntity)
  /-- `otpService.verify` threw. -/
  | refused (e : HttpException)
  | threw (e : Failure)
  deriving DecidableEq, Repr

def Call.answer : Call → UserEntity → Result
  | .verifyOtp _, u => .login u
  | _, u => .user u

/-- Which statement a call is to send next. -/
inductive Pc where
  | idle
  | verifying (phone : String)
  | finding (call : Call)
  | checking (dto : CreateUserDto)
  | saving (call : Call) (n : NewUser)
  | done (call : Call) (result : Result)
  deriving DecidableEq, Repr

abbrev State := Pool Users Pc

inductive Action where
  | call (call : Call)
  /-- `otpService.verify` consumes the code, or throws. -/
  | verify (refusal : Option HttpException)
  | findByPhone
  | assertExists (cityExists : Bool)
  | save (now : Instant)
  deriving DecidableEq, Repr

def Call.start : Call → Pc
  | .verifyOtp phone => .verifying phone
  | call => .finding call

/-- The code after `findByPhone`, to the next statement or the end. -/
def Call.found (call : Call) (existing : Option UserEntity) : Pc :=
  match call with
  | .createByAdmin dto =>
      if existing.isSome then .done call (.threw (.http phoneTaken)) else .checking dto
  | .findOneOrCreateByPhone phone | .verifyOtp phone =>
      match existing with
      | some user => .done call (call.answer user)
      | none => .saving call { phone, isProfileCompleted := false }

variable (toDateString : Instant → String)

def move (_ : Nat) (t : Users) (pc : Pc) : Action → Option (Users × Pc)
  | .call call =>
      match pc with
      | .idle => some (t, call.start)
      | _ => none
  | .verify refusal =>
      match pc with
      | .verifying phone =>
          some (t, match refusal with
            | some e => .done (.verifyOtp phone) (.refused e)
            | none => .finding (.verifyOtp phone))
      | _ => none
  | .findByPhone =>
      match pc with
      | .finding call => some (t, call.found (t.findByPhone call.phone))
      | _ => none
  | .assertExists cityExists =>
      match pc with
      | .checking dto =>
          some (t, if cityExists then
              .saving (.createByAdmin dto) (CreateUserDto.toNewUser toDateString dto)
            else .done (.createByAdmin dto) (.threw (.http cityNotFound)))
      | _ => none
  | .save now =>
      match pc with
      | .saving call n =>
          match t.save n now with
          | .ok (user, t) => some (t, .done call (call.answer user))
          | .error e => some (t, .done call (.threw e))
      | _ => none

def init (users : Users) : State := ⟨users, fun _ => .idle⟩

def step : State → Nat × Action → Option State := Pool.step (move toDateString)

def Stored (t : Users) (phone : String) (user : UserEntity) : Prop :=
  t.rows.filter (fun u => u.phone = phone) = [user]

/-- Every `findOneOrCreateByPhone` that has ended returned the one row of its phone, and every
`verifyOtp` whose code was consumed logged that row's user in. -/
structure Provisioned (s : State) : Prop where
  user : ∀ c phone result, s.client c = .done (.findOneOrCreateByPhone phone) result →
    ∃ user, result = .user user ∧ Stored s.shared phone user
  login : ∀ c phone result, s.client c = .done (.verifyOtp phone) result →
    (∃ e, result = .refused e) ∨ ∃ user, result = .login user ∧ Stored s.shared phone user

def Action.saves : Action → Bool
  | .save _ => true
  | _ => false

def Pc.phone? : Pc → Option String
  | .saving _ n => some n.phone
  | _ => none

def Pc.provisioning (phone : String) : Pc → Bool
  | .saving call n => call.provisions && decide (n.phone = phone)
  | _ => false

/-- When a call sends its row for a phone, no other `findOneOrCreateByPhone` for that phone has
found none and is yet to send one. -/
def Apart (s : State) (a : Nat × Action) : Prop :=
  a.2.saves = true → ∀ phone ∈ (s.client a.1).phone?, ∀ d, d ≠ a.1 →
    (s.client d).provisioning phone = false

variable {toDateString}

theorem save_of_notMem {t : Users} {n : NewUser} (h : n.phone ∉ t.rows.map fun u => u.phone)
    (now : Instant) :
    ∃ t', t.save n now = .ok (n.row t.nextId now, t') ∧
      t'.rows = t.rows ++ [n.row t.nextId now] := by
  unfold Users.save
  rw [dif_neg h]
  exact ⟨_, rfl, rfl⟩

theorem save_of_mem {t : Users} {n : NewUser} (h : n.phone ∈ t.rows.map fun u => u.phone)
    (now : Instant) : t.save n now = .error uniqueViolation := dif_pos h

theorem findByPhone_eq_none {t : Users} {phone : String} :
    t.findByPhone phone = none ↔ phone ∉ t.rows.map fun u => u.phone := by
  simp [UserTable.findByPhone]

theorem filter_eq_singleton {α β : Type} [DecidableEq β] {f : α → β} {l : List α}
    (hl : (l.map f).Nodup) {a : α} (ha : a ∈ l) : l.filter (fun b => f b = f a) = [a] := by
  induction l with
  | nil => cases ha
  | cons b l ih =>
      obtain ⟨hb, hl⟩ := List.nodup_cons.1 hl
      rcases List.mem_cons.1 ha with rfl | ha
      · have hnone : l.filter (fun b => f b = f a) = [] := by
          refine List.filter_eq_nil_iff.2 fun b hmem hsame => hb ?_
          rw [← of_decide_eq_true hsame]
          exact List.mem_map_of_mem hmem
        simp [hnone]
      · have hne : f b ≠ f a := fun hsame => hb (hsame ▸ List.mem_map_of_mem ha)
        simp [hne, ih hl ha]

theorem stored_of_mem {t : Users} {user : UserEntity} (h : user ∈ t.rows) :
    Stored t user.phone user := filter_eq_singleton t.unique h

/-! ## Steps -/

/-- What the place of a client says about the table. -/
def Fits (t : Users) : Pc → Prop
  | .saving call n => call.provisions = true →
      n.phone = call.phone ∧ n.phone ∉ t.rows.map fun u => u.phone
  | .done (.findOneOrCreateByPhone phone) result =>
      ∃ user ∈ t.rows, user.phone = phone ∧ result = .user user
  | .done (.verifyOtp phone) result =>
      (∃ e, result = .refused e) ∨ ∃ user ∈ t.rows, user.phone = phone ∧ result = .login user
  | _ => True

def Inv (s : State) : Prop := ∀ c, Fits s.shared (s.client c)

variable {c d : Nat} {s : State} {t t' : Users} {pc pc' : Pc} {a : Action}

theorem fits_start (t : Users) (call : Call) : Fits t call.start := by
  cases call <;> trivial

/-- A call that has found a row is done with it; one that has not is alone so far. -/
theorem fits_found (t : Users) (call : Call) :
    Fits t (call.found (t.findByPhone call.phone)) := by
  have hfound : ∀ phone user, t.findByPhone phone = some user →
      user ∈ t.rows ∧ user.phone = phone := fun phone user h =>
    ⟨List.mem_of_find?_eq_some h, by simpa using List.find?_some h⟩
  cases call with
  | findOneOrCreateByPhone phone =>
      show Fits t (Call.found (.findOneOrCreateByPhone phone) (t.findByPhone phone))
      cases hfind : t.findByPhone phone with
      | none => exact fun _ => ⟨rfl, findByPhone_eq_none.1 hfind⟩
      | some user => exact ⟨user, (hfound phone user hfind).1, (hfound phone user hfind).2, rfl⟩
  | verifyOtp phone =>
      show Fits t (Call.found (.verifyOtp phone) (t.findByPhone phone))
      cases hfind : t.findByPhone phone with
      | none => exact fun _ => ⟨rfl, findByPhone_eq_none.1 hfind⟩
      | some user =>
          exact Or.inr ⟨user, (hfound phone user hfind).1, (hfound phone user hfind).2, rfl⟩
  | createByAdmin dto =>
      show Fits t (if (t.findByPhone dto.phone).isSome then _ else _)
      split <;> trivial

theorem Fits.insert {row : UserEntity} (h : Fits t pc) (hrows : t'.rows = t.rows ++ [row])
    (hapart : ∀ call n, pc = .saving call n → call.provisions = true → n.phone ≠ row.phone) :
    Fits t' pc := by
  have hmem : ∀ user ∈ t.rows, user ∈ t'.rows := fun user hu => by
    rw [hrows]
    exact List.mem_append_left _ hu
  cases pc with
  | saving call n =>
      intro hprovisions
      obtain ⟨hphone, hnone⟩ := h hprovisions
      have hne := hapart call n rfl hprovisions
      refine ⟨hphone, ?_⟩
      rw [hrows, List.map_append, List.mem_append]
      simpa [hne] using hnone
  | done call result =>
      cases call with
      | findOneOrCreateByPhone phone =>
          obtain ⟨user, hu, hresult⟩ := h
          exact ⟨user, hmem user hu, hresult⟩
      | verifyOtp phone =>
          refine h.imp_right ?_
          rintro ⟨user, hu, hresult⟩
          exact ⟨user, hmem user hu, hresult⟩
      | createByAdmin dto => trivial
  | _ => trivial

theorem fits_of_move (hmove : move toDateString c t pc a = some (t', pc'))
    (ha : ∀ now, a ≠ .save now) : t' = t ∧ Fits t pc' := by
  cases a with
  | call call =>
      cases pc with
      | idle =>
          cases hmove
          exact ⟨rfl, fits_start t call⟩
      | _ => cases hmove
  | verify refusal =>
      cases pc with
      | verifying phone =>
          cases hmove
          cases refusal with
          | none => exact ⟨rfl, trivial⟩
          | some e => exact ⟨rfl, Or.inl ⟨e, rfl⟩⟩
      | _ => cases hmove
  | findByPhone =>
      cases pc with
      | finding call =>
          cases hmove
          exact ⟨rfl, fits_found t call⟩
      | _ => cases hmove
  | assertExists cityExists =>
      cases pc with
      | checking dto =>
          cases hmove
          cases cityExists with
          | true => exact ⟨rfl, fun hprovisions => by cases hprovisions⟩
          | false => exact ⟨rfl, trivial⟩
      | _ => cases hmove
  | save now => exact absurd rfl (ha now)

theorem Inv.step {a : Nat × Action} {s' : State} (h : Inv s) (hapart : Apart s a)
    (hstep : step toDateString s a = some s') : Inv s' := by
  obtain ⟨c, a⟩ := a
  obtain ⟨t', pc', hmove, rfl⟩ := Pool.step_spec hstep
  refine (Function.forall_update_iff s.client fun _ pc => Fits t' pc).2 ?_
  by_cases ha : ∃ now, a = .save now
  · obtain ⟨now, rfl⟩ := ha
    cases hpc : s.client c with
    | saving call n =>
        have hown := h c
        simp only [hpc] at hmove hown
        simp only [move] at hmove
        by_cases hnone : n.phone ∈ s.shared.rows.map fun u => u.phone
        · rw [save_of_mem hnone] at hmove
          cases hmove
          refine ⟨?_, fun d _ => h d⟩
          -- the call that throws is an admin's
          cases call with
          | createByAdmin dto => trivial
          | _ => exact absurd hnone (hown rfl).2
        · obtain ⟨t₁, hsave, hrows⟩ := save_of_notMem hnone now
          rw [hsave] at hmove
          cases hmove
          have hrow : n.row s.shared.nextId now ∈ t'.rows := by
            rw [hrows]
            exact List.mem_append_right _ List.mem_cons_self
          refine ⟨?_, fun d hd => (h d).insert hrows fun call' n' hsaving hprovisions hsame => ?_⟩
          rotate_left
          · have halone := hapart rfl n.phone (by simp [hpc, Pc.phone?]) d hd
            simp [hsaving, Pc.provisioning, hprovisions, hsame, NewUser.row] at halone
          cases call with
          | findOneOrCreateByPhone phone => exact ⟨_, hrow, (hown rfl).1, rfl⟩
          | verifyOtp phone => exact Or.inr ⟨_, hrow, (hown rfl).1, rfl⟩
          | createByAdmin dto => trivial
    | _ =>
        simp only [hpc] at hmove
        cases hmove
  · obtain ⟨rfl, hfits⟩ := fits_of_move hmove fun now hsave => ha ⟨now, hsave⟩
    exact ⟨hfits, fun d _ => h d⟩

/-! ## Runs -/

theorem Inv.provisioned (h : Inv s) : Provisioned s := by
  refine ⟨fun c phone result hc => ?_, fun c phone result hc => ?_⟩
  · have hfits := h c
    rw [hc] at hfits
    obtain ⟨user, hu, rfl, hresult⟩ := hfits
    exact ⟨user, hresult, stored_of_mem hu⟩
  · have hfits := h c
    rw [hc] at hfits
    refine hfits.imp_right ?_
    rintro ⟨user, hu, rfl, hresult⟩
    exact ⟨user, hresult, stored_of_mem hu⟩

/-- Where the calls that store a row for a phone keep apart, each of them returns it. -/
theorem provisioned_of_run {users : Users} {as : List (Nat × Action)}
    (hapart : Along (step toDateString) Apart (init users) as)
    (hrun : run (step toDateString) (init users) as = some s) : Provisioned s := by
  have hinit : Inv (init users) := fun _ => trivial
  have hinv : Inv s := run_inv (fun _ _ _ h hapart hstep => h.step hapart hstep) hinit hapart hrun
  exact hinv.provisioned

theorem step_save_of_mem {call : Call} {n : NewUser} (hd : s.client d = .saving call n)
    (hmem : n.phone ∈ s.shared.rows.map fun u => u.phone) (now : Instant) :
    step toDateString s (d, .save now) =
      some ⟨s.shared, Function.update s.client d (.done call (.threw uniqueViolation))⟩ := by
  have hmove : move toDateString d s.shared (s.client d) (.save now) =
      some (s.shared, .done call (.threw uniqueViolation)) := by
    simp only [hd, move, save_of_mem hmem]
  exact congrArg (Option.map _) hmove

/-- Where they do not, one of them is left that can only throw. -/
theorem threw_of_not_apart {a : Nat × Action} {s' : State}
    (hstep : step toDateString s a = some s') (h : ¬ Apart s a) :
    ∃ d call, call.provisions = true ∧
      ∀ now, ∃ s'', step toDateString s' (d, .save now) = some s'' ∧
        s''.client d = .done call (.threw uniqueViolation) := by
  obtain ⟨c, a⟩ := a
  simp only [Apart, not_forall, Bool.not_eq_false] at h
  obtain ⟨hsaves, phone, hphone, d, hd, hprovisioning⟩ := h
  obtain ⟨now, rfl⟩ : ∃ now, a = .save now := by
    cases a with
    | save now => exact ⟨now, rfl⟩
    | _ => cases hsaves
  obtain ⟨call₀, n₀, hc, rfl⟩ : ∃ call n, s.client c = .saving call n ∧ n.phone = phone := by
    cases hpc : s.client c with
    | saving call n => exact ⟨call, n, rfl, by simpa [hpc, Pc.phone?] using hphone⟩
    | _ => simp [hpc, Pc.phone?] at hphone
  obtain ⟨call, n, hdpc, hprovisions, hsame⟩ : ∃ call n, s.client d = .saving call n ∧
      call.provisions = true ∧ n.phone = n₀.phone := by
    cases hpc : s.client d with
    | saving call n =>
        have hboth : call.provisions = true ∧ n.phone = n₀.phone := by
          simpa [hpc, Pc.provisioning] using hprovisioning
        exact ⟨call, n, rfl, hboth⟩
    | _ => simp [hpc, Pc.provisioning] at hprovisioning
  obtain ⟨t', pc', hmove, rfl⟩ := Pool.step_spec hstep
  -- the row of the phone is there, whether this call has stored it or another before
  have hmem : n.phone ∈ t'.rows.map fun u => u.phone := by
    rw [hsame]
    simp only [hc, move] at hmove
    by_cases hthere : n₀.phone ∈ s.shared.rows.map fun u => u.phone
    · rw [save_of_mem hthere] at hmove
      cases hmove
      exact hthere
    · obtain ⟨t₁, hsave, hrows⟩ := save_of_notMem hthere now
      rw [hsave] at hmove
      cases hmove
      rw [hrows, List.map_append]
      exact List.mem_append_right _ List.mem_cons_self
  have hstill : Function.update s.client c pc' d = .saving call n := by
    rw [Function.update_of_ne hd, hdpc]
  exact ⟨d, call, hprovisions, fun now' => ⟨_, step_save_of_mem hstill hmem now', by simp⟩⟩

def oneUser : Users where
  rows := [NewUser.row { phone := "0933000000", isProfileCompleted := false } 1 0]
  nextId := 2
  sorted := List.pairwise_singleton ..
  bound := List.forall_mem_singleton.2 (Nat.lt_succ_self 1)
  unique := List.nodup_singleton _

/-- Two logins for a phone that has no user yet, the second after the first. -/
def secondLogin : List (Nat × Action) :=
  [(0, .call (.verifyOtp "0944123456")), (0, .verify none), (0, .findByPhone),
    (1, .call (.verifyOtp "0944123456")), (1, .verify none), (0, .save 0), (1, .findByPhone)]

theorem provisioned_secondLogin :
    ∃ s, run (step fun _ => "") (init oneUser) secondLogin = some s ∧ Provisioned s := by
  have hrun : (run (step fun _ => "") (init oneUser) secondLogin).isSome = true := by
    decide +kernel
  have hbelow : Along (step fun _ => "") (fun s a => a.2.saves = true →
      ∀ phone ∈ (s.client a.1).phone?, ∀ d < 2, d ≠ a.1 →
        (s.client d).provisioning phone = false) (init oneUser) secondLogin := by decide +kernel
  have hapart : Along (step fun _ => "") Apart (init oneUser) secondLogin := by
    refine Pool.along_of_forall_lt 2 (fun s a hidle hcalm hsaves phone hphone d hd => ?_)
      (fun d _ => rfl) (by decide) hbelow
    rcases Nat.lt_or_ge d 2 with hlt | hge
    · exact hcalm hsaves phone hphone d hlt hd
    · rw [hidle d hge]
      rfl
  obtain ⟨s, hs⟩ := Option.isSome_iff_exists.1 hrun
  exact ⟨s, hs, provisioned_of_run hapart hs⟩

/-- The same side by side: both find none. -/
def twoLogins : List (Nat × Action) :=
  [(0, .call (.verifyOtp "0944123456")), (1, .call (.verifyOtp "0944123456")), (0, .verify none),
    (1, .verify none), (0, .findByPhone), (1, .findByPhone), (0, .save 0), (1, .save 0)]

theorem not_provisioned_twoLogins :
    ∃ s, run (step fun _ => "") (init oneUser) twoLogins = some s ∧
      s.client 1 = .done (.verifyOtp "0944123456") (.threw uniqueViolation) ∧ ¬ Provisioned s := by
  have hrun : (run (step fun _ => "") (init oneUser) twoLogins).any (fun s => decide
      (s.client 1 = .done (.verifyOtp "0944123456") (.threw uniqueViolation))) = true := by
    decide +kernel
  simp only [Option.any_eq_true, decide_eq_true_eq] at hrun
  obtain ⟨s, hs, hthrew⟩ := hrun
  refine ⟨s, hs, hthrew, fun h => ?_⟩
  rcases h.login 1 _ _ hthrew with ⟨e, he⟩ | ⟨user, hu, _⟩
  · cases he
  · cases hu

end NestStarter.Accounts.Provisioning
