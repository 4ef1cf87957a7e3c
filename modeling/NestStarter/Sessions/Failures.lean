import NestStarter.Core.Procedure
import NestStarter.Sessions.Admins

/-! # A change of access that fails half-way

`AdminService.updateMe` with changed credentials and `UserService.deactivateByAdmin`, when the
row save, the revocation or the cache deletion may fail. The three stores are written one after
the other: what the steps before the failing one did stays done.
-/

namespace NestStarter.Sessions.Failures

open NestStarter.Core Accounts RefreshTokens Procedure

structure Faults where
  save : Option (Fault HttpException) := none
  revoke : Option (Fault HttpException) := none
  invalidate : Option (Fault HttpException) := none
  deriving DecidableEq, Repr

variable (env : Env) (hashPassword : String → String → String) (faults : Faults) (now : Instant)

def dropPrincipal (role : Role) (id : Nat) : SystemM Unit :=
  Service.statement fun s =>
    ((), { s with redis := env.driver.delete (authUser role.value id) s.redis })

def deactivateByAdminUnder (id : Nat) : SystemM Unit := do
  let user ← Service.statement fun s => (s.accounts.users.findById id, s)
  let user ← Service.ofExcept (orThrow userNotFound user)
  under faults.save (Service.statement fun s =>
    ((), setUsers s (s.accounts.users.save { user with isActive := false } now)))
  under faults.revoke (refreshTokenService (RefreshTokens.revokeAllForUser now id .user))
  under faults.invalidate (dropPrincipal env .user id)

def updateMeUnder (salt : String) (id : Nat) (dto : UpdateMeDto) : SystemM AdminEntity := do
  let current ← Service.statement fun s => (s.accounts.admins.findById id, s)
  let current ← Service.ofExcept (orThrow invalidCredentials current)
  Service.ofExcept (verifyCurrentPassword env dto current)
  let admins ← Service.statement fun s => (s.accounts.admins, s)
  Service.ofExcept (checkUsername admins dto current)
  let saved := (current.merge dto).hashPasswordOnSave hashPassword now salt
  under faults.save (Service.statement fun s =>
    ((), setAdmins s (s.accounts.admins.save saved now)))
  if dto.isChangingCredentials then
    under faults.revoke (refreshTokenService (RefreshTokens.revokeAllForUser now id .admin))
  under faults.invalidate (dropPrincipal env .admin id)
  return saved

/-- Without faults they are the calls of the service. -/
theorem deactivateByAdminUnder_none (id : Nat) :
    deactivateByAdminUnder env {} now id = deactivateByAdmin env now id := by
  simp [deactivateByAdminUnder, deactivateByAdmin, setActive]
  rfl

theorem updateMeUnder_none (salt : String) (id : Nat) (dto : UpdateMeDto) :
    updateMeUnder env hashPassword {} now salt id dto =
      updateMe env hashPassword now salt id dto := rfl

inductive Call where
  | updateMe (salt : String) (id : Nat) (dto : UpdateMeDto)
      (changing : dto.isChangingCredentials = true)
  | deactivateByAdmin (id : Nat)

namespace Call

def role : Call → Role
  | .updateMe .. => .admin
  | .deactivateByAdmin _ => .user

def id : Call → Nat
  | .updateMe _ id _ _ => id
  | .deactivateByAdmin id => id

def performUnder : Call → SystemM Unit
  | .updateMe salt id dto _ => do
      let _ ← updateMeUnder env hashPassword faults now salt id dto
      return ()
  | .deactivateByAdmin id => deactivateByAdminUnder env faults now id

def saved (s : System) : Call → Except HttpException AccountTables
  | .updateMe salt id dto _ => do
      let current ← orThrow invalidCredentials (s.accounts.admins.findById id)
      verifyCurrentPassword env dto current
      checkUsername s.accounts.admins dto current
      let admin := (current.merge dto).hashPasswordOnSave hashPassword now salt
      return { s.accounts with admins := s.accounts.admins.save admin now }
  | .deactivateByAdmin id => do
      let user ← orThrow userNotFound (s.accounts.users.findById id)
      return { s.accounts with
        users := s.accounts.users.save { user with isActive := false } now }

end Call

/-- Both calls from the row save on. -/
def saveRevokeInvalidate (role : Role) (id : Nat) (accounts : AccountTables) : SystemM Unit := do
  under faults.save (Service.statement fun s => ((), { s with accounts }))
  under faults.revoke (refreshTokenService (RefreshTokens.revokeAllForUser now id role))
  under faults.invalidate (dropPrincipal env role id)

variable {env hashPassword faults now} {s : System} {call : Call}

@[simp] theorem exec_statement {α : Type} (f : System → α × System) :
    exec (Service.statement f) s = (.ok (f s).1, (f s).2) := rfl

@[simp] theorem exec_ofExcept {α : Type} (x : Except HttpException α) :
    exec (Service.ofExcept x : SystemM α) s = (x, s) := rfl

def revoked (now : Instant) (role : Role) (id : Nat) (t : TokenTable) : TokenTable :=
  { t with rows := (revokeAllForUserStmt id role now).apply t.rows }

@[simp] theorem exec_revoke (role : Role) (id : Nat) :
    exec (refreshTokenService (RefreshTokens.revokeAllForUser now id role)) s =
      (.ok (), { s with tokens := revoked now role id s.tokens }) := by
  show Service.exec (refreshTokenService (RefreshTokens.revokeAllForUser now id role)) s = _
  simp [refreshTokenService, exec_revokeAllForUser, revoked]

/-- A call throws at a check and changes nothing, or comes to the three steps. -/
theorem exec_performUnder (env : Env) (hashPassword : String → String → String) (faults : Faults)
    (now : Instant) (call : Call) (s : System) :
    (∃ e, call.saved env hashPassword now s = .error e ∧
      exec (call.performUnder env hashPassword faults now) s = (.error e, s)) ∨
    ∃ accounts, call.saved env hashPassword now s = .ok accounts ∧
      exec (call.performUnder env hashPassword faults now) s =
        exec (saveRevokeInvalidate env faults now call.role call.id accounts) s := by
  cases call with
  | updateMe salt id dto changing =>
      cases hfind : s.accounts.admins.findById id with
      | none =>
          exact Or.inl ⟨invalidCredentials, by simp [Call.saved, hfind],
            by simp [Call.performUnder, updateMeUnder, hfind]⟩
      | some current =>
          cases hverify : verifyCurrentPassword env dto current with
          | error e =>
              exact Or.inl ⟨e, by simp [Call.saved, hfind, hverify],
                by simp [Call.performUnder, updateMeUnder, hfind, hverify]⟩
          | ok _ =>
              cases hcheck : checkUsername s.accounts.admins dto current with
              | error e =>
                  exact Or.inl ⟨e, by simp [Call.saved, hfind, hverify, hcheck],
                    by simp [Call.performUnder, updateMeUnder, hfind, hverify, hcheck]⟩
              | ok _ =>
                  refine Or.inr ⟨_, by simp [Call.saved, hfind, hverify, hcheck]; rfl, ?_⟩
                  cases hsave : faults.save <;> cases hrevoke : faults.revoke <;>
                    cases hinvalidate : faults.invalidate <;>
                    simp [Call.performUnder, updateMeUnder, saveRevokeInvalidate, hfind, hverify,
                      hcheck, changing, hsave, hrevoke, hinvalidate, dropPrincipal, setAdmins,
                      Call.role, Call.id]
  | deactivateByAdmin id =>
      cases hfind : s.accounts.users.findById id with
      | none =>
          exact Or.inl ⟨userNotFound, by simp [Call.saved, hfind],
            by simp [Call.performUnder, deactivateByAdminUnder, hfind]⟩
      | some user =>
          refine Or.inr ⟨_, by simp [Call.saved, hfind]; rfl, ?_⟩
          cases hsave : faults.save <;>
            simp [Call.performUnder, deactivateByAdminUnder, saveRevokeInvalidate, hfind, setUsers,
              hsave, Call.role, Call.id]

/-- How many of the three steps take effect before the call ends. -/
def Faults.effects (faults : Faults) : Nat :=
  match faults.save, faults.revoke, faults.invalidate with
  | some f, _, _ => if f.effective then 1 else 0
  | none, some f, _ => if f.effective then 2 else 1
  | none, none, some f => if f.effective then 3 else 2
  | none, none, none => 3

def reached (env : Env) (now : Instant) (role : Role) (id : Nat) (accounts : AccountTables)
    (s : System) (effects : Nat) : System where
  accounts := if 1 ≤ effects then accounts else s.accounts
  otps := s.otps
  tokens := if 2 ≤ effects then revoked now role id s.tokens else s.tokens
  redis := if 3 ≤ effects then env.driver.delete (authUser role.value id) s.redis else s.redis

theorem exec_saveRevokeInvalidate (env : Env) (faults : Faults) (now : Instant) (role : Role)
    (id : Nat) (accounts : AccountTables) (s : System) :
    ∃ result, exec (saveRevokeInvalidate env faults now role id accounts) s =
        (result, reached env now role id accounts s faults.effects) ∧
      ((∃ e, result = .error e) ↔ faults ≠ {}) := by
  obtain ⟨save, revoke, invalidate⟩ := faults
  cases save with
  | some f =>
      cases heff : f.effective <;> simp [saveRevokeInvalidate, Faults.effects, reached, heff]
  | none =>
      cases revoke with
      | some f =>
          cases heff : f.effective <;> simp [saveRevokeInvalidate, Faults.effects, reached, heff]
      | none =>
          cases invalidate with
          | some f =>
              cases heff : f.effective <;>
                simp [saveRevokeInvalidate, dropPrincipal, Faults.effects, reached, heff]
          | none => simp [saveRevokeInvalidate, dropPrincipal, Faults.effects, reached]

/-! ## What a failed call leaves -/

structure AsBefore (env : Env) (now : Instant) (role : Role) (id : Nat) (s s' : System) : Prop where
  row : s'.accounts = s.accounts
  tokens : s'.tokens = s.tokens
  principal : ∀ t, now ≤ t → env.driver.get t (authUser role.value id) s'.redis =
    env.driver.get t (authUser role.value id) s.redis

def NoLiveToken (now : Instant) (role : Role) (id : Nat) (t : TokenTable) : Prop :=
  ∀ r ∈ t.rows, r.userId = id → r.role = role → r.revokedAt = none → r.expiresAt ≤ now

def NotCached (env : Env) (now : Instant) (role : Role) (id : Nat) (redis : Redis) : Prop :=
  env.driver.get now (authUser role.value id) redis = none

/-- No session of the principal outlives the call. -/
structure NoOldAccess (env : Env) (now : Instant) (role : Role) (id : Nat) (s : System) :
    Prop where
  tokens : NoLiveToken now role id s.tokens
  principal : NotCached env now role id s.redis

/-- Every step that takes effect finds nothing to change. -/
structure Harmless (env : Env) (faults : Faults) (now : Instant) (role : Role) (id : Nat)
    (accounts : AccountTables) (s : System) : Prop where
  save : 1 ≤ faults.effects → accounts = s.accounts
  revoke : 2 ≤ faults.effects →
    ∀ r ∈ s.tokens.rows, r.userId = id → r.role = role → r.revokedAt ≠ none
  invalidate : 3 ≤ faults.effects → NotCached env now role id s.redis

/-- A step that does not take effect had nothing to take away. -/
structure Unneeded (env : Env) (faults : Faults) (now : Instant) (role : Role) (id : Nat)
    (s : System) : Prop where
  revoke : faults.effects < 2 → NoLiveToken now role id s.tokens
  invalidate : faults.effects < 3 → NotCached env now role id s.redis

section Left

variable {role : Role} {id : Nat} {accounts : AccountTables}

theorem revoked_eq_self_iff {t : TokenTable} :
    revoked now role id t = t ↔
      ∀ r ∈ t.rows, r.userId = id → r.role = role → r.revokedAt ≠ none := by
  constructor
  · intro h r hr huser hrole
    rw [← h] at hr
    exact revoked_of_mem_revokeAllForUser hr huser hrole
  · intro h
    have hnone : (revokeAllForUserStmt id role now).affected t.rows = 0 := by
      refine List.countP_eq_zero.2 fun r hr hsel => ?_
      simp only [revokeAllForUserStmt, Bool.and_eq_true, beq_iff_eq, Option.isNone_iff_eq_none]
        at hsel
      exact h r hr hsel.1.1 hsel.1.2 hsel.2
    simp only [revoked, Stmt.apply_of_affected_eq_zero hnone]

theorem asBefore_reached_iff :
    AsBefore env now role id s (reached env now role id accounts s faults.effects) ↔
      Harmless env faults now role id accounts s := by
  constructor
  · rintro ⟨hrow, htokens, hprincipal⟩
    refine ⟨ite_eq_right_iff.1 hrow, fun h => ?_, fun h => ?_⟩
    · exact revoked_eq_self_iff.1 (ite_eq_right_iff.1 htokens h)
    · have hnow := hprincipal now le_rfl
      simpa [reached, h, NotCached] using hnow.symm
  · rintro ⟨hsave, hrevoke, hinvalidate⟩
    refine ⟨ite_eq_right_iff.2 hsave, ite_eq_right_iff.2 fun h => ?_, fun t ht => ?_⟩
    · exact revoked_eq_self_iff.2 (hrevoke h)
    · by_cases h : 3 ≤ faults.effects
      · have hnone : env.driver.get t (authUser role.value id) s.redis = none := by
          rw [Option.eq_none_iff_forall_ne_some]
          intro o ho
          rw [NotCached] at hinvalidate
          have hnow := CacheDriver.get_mono ht ho
          rw [hinvalidate h] at hnow
          cases hnow
        simp [reached, h, hnone]
      · simp [reached, h]

theorem noOldAccess_reached_iff :
    NoOldAccess env now role id (reached env now role id accounts s faults.effects) ↔
      Unneeded env faults now role id s := by
  constructor
  · rintro ⟨htokens, hprincipal⟩
    refine ⟨fun h => ?_, fun h => ?_⟩
    · simpa [reached, Nat.not_le.2 h] using htokens
    · simpa [reached, Nat.not_le.2 h] using hprincipal
  · rintro ⟨hrevoke, hinvalidate⟩
    refine ⟨?_, ?_⟩
    · by_cases h : 2 ≤ faults.effects
      · intro r hr huser hrole hlive
        simp only [reached, if_pos h] at hr
        exact absurd hlive (revoked_of_mem_revokeAllForUser hr huser hrole)
      · simpa [reached, h] using hrevoke (Nat.lt_of_not_le h)
    · by_cases h : 3 ≤ faults.effects
      · simp [NotCached, reached, h]
      · simpa [reached, h] using hinvalidate (Nat.lt_of_not_le h)

end Left

/-- A call that throws leaves row, tokens and cached principal as they were. -/
def FailsClean (env : Env) (hashPassword : String → String → String) (faults : Faults)
    (now : Instant) (call : Call) (s : System) : Prop :=
  ∀ e s', exec (call.performUnder env hashPassword faults now) s = (.error e, s') →
    AsBefore env now call.role call.id s s'

/-- A call that throws leaves no old session beside a row that it changed. -/
def FailsClosed (env : Env) (hashPassword : String → String → String) (faults : Faults)
    (now : Instant) (call : Call) (s : System) : Prop :=
  ∀ e s', exec (call.performUnder env hashPassword faults now) s = (.error e, s') →
    s'.accounts ≠ s.accounts → NoOldAccess env now call.role call.id s'

/-- A failure leaves everything as it was if and only if the steps that took effect found nothing
to change; and it leaves no old session behind a changed row if and only if the steps that did not
had nothing to take away. -/
theorem failsClean_iff (env : Env) (hashPassword : String → String → String) (faults : Faults)
    (now : Instant) (call : Call) (s : System) :
    (FailsClean env hashPassword faults now call s ↔
      ∀ accounts, call.saved env hashPassword now s = .ok accounts → faults ≠ {} →
        Harmless env faults now call.role call.id accounts s) ∧
    (FailsClosed env hashPassword faults now call s ↔
      ∀ accounts, call.saved env hashPassword now s = .ok accounts → faults ≠ {} →
        1 ≤ faults.effects → accounts ≠ s.accounts →
        Unneeded env faults now call.role call.id s) := by
  unfold FailsClean FailsClosed
  rcases exec_performUnder env hashPassword faults now call s with
    ⟨e, hsaved, hexec⟩ | ⟨accounts, hsaved, hexec⟩
  · rw [hexec, hsaved]
    refine ⟨iff_of_true ?_ (by simp), iff_of_true ?_ (by simp)⟩
    · intro e' s' h
      cases h
      exact ⟨rfl, rfl, fun _ _ => rfl⟩
    · intro e' s' h hne
      cases h
      exact absurd rfl hne
  · obtain ⟨result, hresult, herror⟩ := exec_saveRevokeInvalidate env faults now call.role call.id
      accounts s
    rw [hexec, hresult, hsaved]
    by_cases hfaults : faults = {}
    · have hok : ∀ e, result ≠ .error e := fun e he => herror.1 ⟨e, he⟩ hfaults
      exact ⟨iff_of_true (fun e s' h => absurd (congrArg Prod.fst h) (hok e)) (by simp [hfaults]),
        iff_of_true (fun e s' h => absurd (congrArg Prod.fst h) (hok e)) (by simp [hfaults])⟩
    · obtain ⟨e, rfl⟩ := herror.2 hfaults
      refine ⟨?_, ?_⟩
      · constructor
        · rintro h _ ⟨⟩ _
          exact asBefore_reached_iff.1 (h e _ rfl)
        · intro h e' s' heq
          cases heq
          exact asBefore_reached_iff.2 (h accounts rfl hfaults)
      · constructor
        · rintro h _ ⟨⟩ _ heffect hne
          exact noOldAccess_reached_iff.1 (h e _ rfl (by simpa [reached, heffect] using hne))
        · intro h e' s' heq hne
          cases heq
          have heffect : 1 ≤ faults.effects := by
            by_contra hnot
            exact hne (by simp [reached, hnot])
          exact noOldAccess_reached_iff.2
            (h accounts rfl hfaults heffect (by simpa [reached, heffect] using hne))

def revokeFails : Faults :=
  { revoke := some ⟨⟨.internalServerError, "Connection terminated", []⟩, false⟩ }

def tokenOf (role : Role) : RefreshTokenEntity where
  id := 1
  tokenHash := sha256Sample "a"
  userId := 1
  role := role
  expiresAt := 1000

def activeUser : UserEntity where
  id := 1
  createdAt := 0
  updatedAt := 0
  phone := "+963900000001"

def userLoggedIn : System where
  accounts.users := ⟨[activeUser], 2, List.pairwise_singleton _ _,
    List.forall_mem_singleton.2 (Nat.lt_succ_self 1)⟩
  accounts.admins := ⟨[], List.nodup_nil⟩
  tokens := ⟨[tokenOf .user], 2⟩
  redis := (CacheDriver.redis "app").set (fun _ => "1970-01-01T00:00:00.000Z") 0
    (authUser Role.user.value 1) activeUser.toObject authUserSeconds .empty

def adminLoggedIn : System := { oneAdmin with tokens := ⟨[tokenOf .admin], 2⟩ }

def changePassword : Call :=
  .updateMe "" 1 { password := some "correct-horse", currentPassword := some "another-horse" } rfl

theorem not_failsClosed_of {env : Env} {call : Call} {s : System} {e : HttpException}
    (hthrows : (exec (call.performUnder env hashSample revokeFails 5) s).1 = .error e)
    (hrow : (exec (call.performUnder env hashSample revokeFails 5) s).2.accounts ≠ s.accounts)
    {r : RefreshTokenEntity}
    (hr : r ∈ (exec (call.performUnder env hashSample revokeFails 5) s).2.tokens.rows)
    (huser : r.userId = call.id) (hrole : r.role = call.role) (hlive : r.revokedAt = none)
    (hexpires : 5 < r.expiresAt) :
    ¬ FailsClean env hashSample revokeFails 5 call s ∧
    ¬ FailsClosed env hashSample revokeFails 5 call s := by
  have hexec : exec (call.performUnder env hashSample revokeFails 5) s =
      (.error e, (exec (call.performUnder env hashSample revokeFails 5) s).2) :=
    Prod.ext hthrows rfl
  refine ⟨fun h => hrow (h e _ hexec).row, fun h => ?_⟩
  have hexpired := (h e _ hexec hrow).tokens r hr huser hrole hlive
  exact absurd hexpires (not_lt.2 hexpired)

/-- The user is inactive, or the password new, and the old token can still be exchanged. -/
theorem not_failsClosed_revokeFails :
    (¬ FailsClean .sample hashSample revokeFails 5 (.deactivateByAdmin 1) userLoggedIn ∧
      ¬ FailsClosed .sample hashSample revokeFails 5 (.deactivateByAdmin 1) userLoggedIn) ∧
    (¬ FailsClean .bcrypt hashSample revokeFails 5 changePassword adminLoggedIn ∧
      ¬ FailsClosed .bcrypt hashSample revokeFails 5 changePassword adminLoggedIn) := by
  constructor
  · exact not_failsClosed_of (e := ⟨.internalServerError, "Connection terminated", []⟩)
      (r := tokenOf .user) (by decide +kernel) (by decide +kernel) (by decide +kernel) rfl rfl rfl
      (by decide)
  · exact not_failsClosed_of (e := ⟨.internalServerError, "Connection terminated", []⟩)
      (r := tokenOf .admin) (by decide +kernel) (by decide +kernel) (by decide +kernel) rfl rfl rfl
      (by decide)

end NestStarter.Sessions.Failures
