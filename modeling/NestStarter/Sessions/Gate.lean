import NestStarter.Core.Machine
import NestStarter.Sessions.System

/-! # The account gate

`isActive` is read by `JwtAuthGuard` alone: neither login looks at it. What keeps
an inactive account without tokens is that its sessions are revoked when it is
deactivated and that nobody logs in to it while it is. Where that holds, nothing
is ever minted for an inactive account, and none of its tokens comes back to life
with it.
-/

namespace NestStarter.Sessions

open NestStarter.Core Accounts Otps RefreshTokens

variable {env : Env} {s s' : System} {now : Instant}

def Inactive (accounts : AccountTables) : Role → Nat → Prop
  | .user, id => ∃ u ∈ accounts.users.rows, u.id = id ∧ u.isActive = false
  | .admin, id => ∃ a ∈ accounts.admins.rows, a.id = id ∧ a.isActive = false

instance (accounts : AccountTables) (role : Role) (id : Nat) :
    Decidable (Inactive accounts role id) := by
  cases role <;> unfold Inactive <;> infer_instance

/-- A call stores refresh tokens and returns access tokens for these principals only. -/
structure MintsFor (Allowed : Role → Nat → Prop) (s : System)
    (r : Except HttpException (Option TokenPair) × System) : Prop where
  refresh : Grows (fun row => Allowed row.role row.userId) s.tokens r.2.tokens
  access : ∀ pair, r.1 = .ok (some pair) → Allowed pair.accessToken.role pair.accessToken.userId

/-- Nothing is minted for an account that is inactive when the call is made. -/
def MintsForActive (env : Env) (s : System) (req : Request) : Prop :=
  MintsFor (fun role id => ¬ Inactive s.accounts role id) s (Service.exec (perform env req) s)

/-- Right after an inactive user has been activated, no stored token of theirs can be
exchanged, whenever and in whatever way it is presented. -/
def ActivatesUnexchangeable (env : Env) (s : System) (req : Request) : Prop :=
  match req.op with
  | .activateByAdmin id => Inactive s.accounts .user id →
      ∀ presentedToken row, findByToken env.sha256 (Service.exec (perform env req) s).2.tokens.rows
          presentedToken = some row → row.userId = id → row.role = .user →
        ∀ now newToken,
          (Service.exec (rotate env.sha256 env.refreshTtlSeconds now newToken presentedToken)
          (Service.exec (perform env req) s).2.tokens).1 = .error invalid
  | _ => True

/-- The code is the one `OtpService.verify` accepts. -/
def AcceptsCode (env : Env) (s : System) (now : Instant) (phone code : String) : Prop :=
  ¬ Locked env.otp s.otps now phone .userLogin ∧
    ∃ otp ∈ s.otps.findActiveByPhoneAndPurpose phone .userLogin now,
      otp.attempts < env.otp.maxVerifyAttempts ∧ env.sha256 code = otp.codeHash

/-- A login whose code or password is right is one to an active account. -/
def LogsInToActive (env : Env) (s : System) (req : Request) : Prop :=
  match req.op with
  | .verifyOtp phone code _ => AcceptsCode env s req.now phone code →
      ∀ user ∈ s.accounts.users.findByPhone phone, user.isActive = true
  | .login username password _ =>
      ∀ admin ∈ s.accounts.admins.findByUsername username,
        env.comparePassword password admin.password = true → admin.isActive = true
  | _ => True

instance (phone code : String) : Decidable (AcceptsCode env s now phone code) := by
  unfold AcceptsCode; infer_instance

instance (req : Request) : Decidable (LogsInToActive env s req) := by
  unfold LogsInToActive
  split <;> infer_instance

theorem exec_findOneOrCreateByPhone (phone : String) (s : System) :
    Service.exec (findOneOrCreateByPhone now phone) s =
      match s.accounts.users.findByPhone phone with
      | some user => (.ok user, s)
      | none =>
          let created : NewUser := { phone, isProfileCompleted := false }
          (.ok (created.row s.accounts.users.nextId now),
            setUsers s (s.accounts.users.insert created now)) := by
  cases h : s.accounts.users.findByPhone phone <;> simp [findOneOrCreateByPhone, h]

theorem verify_ok_iff {phone code : String} :
    (Service.exec (Otps.verify env.otp env.sha256 now phone .userLogin code) s.otps).1 = .ok () ↔
      AcceptsCode env s now phone code := by
  rw [exec_verify, AcceptsCode]
  by_cases hl : Locked env.otp s.otps now phone .userLogin
  · simp [hl]
  · cases hf : s.otps.findActiveByPhoneAndPurpose phone .userLogin now with
    | none => simp [hl]
    | some otp =>
        by_cases ha : env.otp.maxVerifyAttempts ≤ otp.attempts
        · simp [hl, ha]
        · by_cases hh : env.sha256 code = otp.codeHash <;> simp [hl, ha, hh, Nat.not_le.1 ha]

def issued (env : Env) (now : Instant) (token : String) (userId : Nat) (role : Role)
    (t : TokenTable) : TokenTable where
  rows := t.rows ++
    [NewToken.row ⟨env.sha256 token, userId, role, newExpiry env.refreshTtlSeconds now⟩ t.nextId]
  nextId := t.nextId + 1

theorem verifyOtp_of_not_accepts {phone code : String} (token : String)
    (h : ¬ AcceptsCode env s now phone code) :
    ∃ e otps,
      Service.exec (verifyOtp env now phone code token) s = (.error e, { s with otps }) := by
  rw [← verify_ok_iff] at h
  cases hv : Service.exec (Otps.verify env.otp env.sha256 now phone .userLogin code) s.otps with
  | mk result otps =>
      rw [hv] at h
      cases result with
      | ok _ => exact absurd rfl h
      | error e => exact ⟨e, otps, by simp [verifyOtp, otpService, hv]⟩

/-- A login stores its token even where the response then fails. -/
theorem exec_verifyOtp {phone code token : String} {otps : OtpTable} {user : UserEntity}
    {s₁ : System}
    (hv : Service.exec (Otps.verify env.otp env.sha256 now phone .userLogin code) s.otps =
      (.ok (), otps))
    (hu : Service.exec (findOneOrCreateByPhone now phone) { s with otps } = (.ok user, s₁)) :
    Service.exec (verifyOtp env now phone code token) s =
      ((env.resolvePhotoUrl user.photoKey).map fun photoUrl =>
          ⟨⟨⟨user.id, .user⟩, token⟩, photoUrl, !user.isProfileCompleted⟩,
        { s₁ with tokens := issued env now token user.id .user s₁.tokens }) := by
  cases hphoto : env.resolvePhotoUrl user.photoKey <;>
    simp [verifyOtp, otpService, refreshTokenService, hv, hu, hphoto, RefreshTokens.exec_issue,
      issued, Except.map]

theorem verifyOtp_of_accepts {phone code : String} (token : String)
    (h : AcceptsCode env s now phone code) :
    ∃ otps user s₁ reply,
      Service.exec (findOneOrCreateByPhone now phone) { s with otps } = (.ok user, s₁) ∧
      Service.exec (verifyOtp env now phone code token) s =
        (reply, { s₁ with tokens := issued env now token user.id .user s₁.tokens }) ∧
      ∀ response, reply = .ok response → response.accessToken = ⟨user.id, .user⟩ := by
  rw [← verify_ok_iff] at h
  cases hv : Service.exec (Otps.verify env.otp env.sha256 now phone .userLogin code) s.otps with
  | mk result otps =>
      obtain rfl : result = .ok () := by simpa [hv] using h
      obtain ⟨user, s₁, hu⟩ : ∃ user s₁,
          Service.exec (findOneOrCreateByPhone now phone) { s with otps } = (.ok user, s₁) := by
        rw [exec_findOneOrCreateByPhone]
        cases s.accounts.users.findByPhone phone <;> exact ⟨_, _, rfl⟩
      refine ⟨otps, user, s₁, _, hu, exec_verifyOtp hv hu, fun response hresponse => ?_⟩
      cases hphoto : env.resolvePhotoUrl user.photoKey with
      | error e => simp [hphoto, Except.map] at hresponse
      | ok photoUrl =>
          simp only [hphoto, Except.map, Except.ok.injEq] at hresponse
          rw [← hresponse]

theorem exec_login {username password token : String} {admin : AdminEntity}
    (hfind : s.accounts.admins.findByUsername username = some admin)
    (hpassword : env.comparePassword password admin.password = true) :
    Service.exec (login env now username password token) s =
      ((env.resolvePhotoUrl admin.photoKey).map fun photoUrl =>
        ⟨⟨⟨admin.id, .admin⟩, token⟩, photoUrl⟩,
        { s with tokens := issued env now token admin.id .admin s.tokens }) := by
  cases hphoto : env.resolvePhotoUrl admin.photoKey <;>
    simp [login, refreshTokenService, hfind, hpassword, hphoto, RefreshTokens.exec_issue, issued,
      Except.map]

theorem exec_login_of_not {username password token : String}
    (h : ∀ admin ∈ s.accounts.admins.findByUsername username,
      env.comparePassword password admin.password = false) :
    Service.exec (login env now username password token) s = (.error invalidCredentials, s) := by
  cases hfind : s.accounts.admins.findByUsername username with
  | none => simp [login, hfind]
  | some admin => simp [login, hfind, h admin hfind]

theorem exec_setActive (id : Nat) (isActive : Bool) (s : System) :
    Service.exec (setActive now id isActive) s =
      match s.accounts.users.findById id with
      | none => (.error userNotFound, s)
      | some user => (.ok (), setUsers s (s.accounts.users.save { user with isActive } now)) := by
  cases h : s.accounts.users.findById id <;> simp [setActive, h]

theorem exec_deactivateByAdmin {id : Nat} {user : UserEntity}
    (hfind : s.accounts.users.findById id = some user) :
    Service.exec (deactivateByAdmin env now id) s =
      (.ok (), { setUsers s (s.accounts.users.save { user with isActive := false } now) with
        tokens := { s.tokens with rows := (revokeAllForUserStmt id .user now).apply s.tokens.rows }
        redis := env.driver.delete (authUser Role.user.value id) s.redis }) := by
  simp [deactivateByAdmin, exec_setActive, hfind, refreshTokenService, exec_revokeAllForUser,
    invalidateAuthCache, setUsers]

theorem exec_deactivateByAdmin_of_none {id : Nat} (hfind : s.accounts.users.findById id = none) :
    Service.exec (deactivateByAdmin env now id) s = (.error userNotFound, s) := by
  simp [deactivateByAdmin, exec_setActive, hfind]

theorem exec_activateByAdmin (id : Nat) (s : System) :
    Service.exec (activateByAdmin env now id) s =
      match s.accounts.users.findById id with
      | none => (.error userNotFound, s)
      | some user =>
          (.ok (), { setUsers s (s.accounts.users.save { user with isActive := true } now) with
          redis := env.driver.delete (authUser Role.user.value id) s.redis }) := by
  cases hfind : s.accounts.users.findById id <;>
    simp [activateByAdmin, exec_setActive, hfind, invalidateAuthCache, setUsers]

theorem inactive_insert {n : NewUser} {accounts : AccountTables} {role : Role}
    {id : Nat} (h : Inactive { accounts with users := accounts.users.insert n now } role id) :
    Inactive accounts role id := by
  cases role with
  | admin => exact h
  | user =>
      obtain ⟨u, hu, hid, hinactive⟩ := h
      rcases List.mem_append.1 hu with hu | hu
      · exact ⟨u, hu, hid, hinactive⟩
      · rw [List.mem_singleton.1 hu] at hinactive
        cases hinactive

/-- Saving an account can disable that account only. -/
theorem inactive_save {user : UserEntity} {accounts : AccountTables} {role : Role} {id : Nat}
    (h : Inactive { accounts with users := accounts.users.save user now } role id) :
    Inactive accounts role id ∨ (user.isActive = false ∧ role = .user ∧ id = user.id) := by
  cases role with
  | admin => exact Or.inl h
  | user =>
      obtain ⟨u, hu, rfl, hinactive⟩ := h
      obtain ⟨row, hrow, rfl⟩ := List.mem_map.1 hu
      by_cases hid : row.id = user.id
      · rw [if_pos hid] at hinactive ⊢
        rw [isActive_saveUser] at hinactive
        exact Or.inr ⟨hinactive, rfl, id_saveUser ..⟩
      · rw [if_neg hid] at hinactive ⊢
        exact Or.inl ⟨row, hrow, rfl, hinactive⟩

/-- A call disables the account it deactivates, whose sessions it has then revoked, and
no other. -/
theorem inactive_perform {req : Request} {role : Role} {id : Nat}
    (h : Inactive (Service.exec (perform env req) s).2.accounts role id) :
    Inactive s.accounts role id ∨ ∀ r ∈ (Service.exec (perform env req) s).2.tokens.rows,
      r.role = role → r.userId = id → r.revokedAt ≠ none := by
  obtain ⟨now, op⟩ := req
  cases op with
  | requestOtp phone draw delivered =>
      rw [perform, Service.exec_bind_pure] at h
      exact Or.inl h
  | verifyOtp phone code token =>
      rw [perform, Service.exec_bind_pure] at h
      refine Or.inl ?_
      by_cases haccepts : AcceptsCode env s now phone code
      · obtain ⟨otps, user, s₁, reply, hu, hexec, _⟩ := verifyOtp_of_accepts token haccepts
        rw [hexec] at h
        rw [exec_findOneOrCreateByPhone] at hu
        split at hu
        · cases hu
          exact h
        · cases hu
          exact inactive_insert h
      · obtain ⟨e, otps, hexec⟩ := verifyOtp_of_not_accepts token haccepts
        rw [hexec] at h
        exact h
  | login username password token =>
      rw [perform, Service.exec_bind_pure] at h
      refine Or.inl ?_
      by_cases hmatch : ∃ admin ∈ s.accounts.admins.findByUsername username,
          env.comparePassword password admin.password = true
      · obtain ⟨admin, hfind, hpassword⟩ := hmatch
        rw [exec_login hfind hpassword] at h
        exact h
      · rw [exec_login_of_not fun admin ha =>
          Bool.eq_false_iff.2 fun hp => hmatch ⟨admin, ha, hp⟩] at h
        exact h
  | refresh refreshToken token =>
      rw [perform, Service.exec_bind_pure, refresh, Service.exec_bind_pure] at h
      exact Or.inl h
  | logout refreshToken =>
      rw [perform, Service.exec_bind_pure] at h
      exact Or.inl h
  | deactivateByAdmin id' =>
      rw [perform, Service.exec_bind_pure] at h ⊢
      cases hfind : s.accounts.users.findById id' with
      | none =>
          rw [exec_deactivateByAdmin_of_none hfind] at h
          exact Or.inl h
      | some user =>
          have hid : user.id = id' := by simpa using List.find?_some hfind
          rw [exec_deactivateByAdmin hfind] at h ⊢
          rcases inactive_save h with h | ⟨_, rfl, rfl⟩
          · exact Or.inl h
          · exact Or.inr fun r hr hrole huser =>
              revoked_of_mem_revokeAllForUser hr (huser.trans hid) hrole
  | activateByAdmin id' =>
      rw [perform, Service.exec_bind_pure, exec_activateByAdmin] at h
      refine Or.inl ?_
      cases hfind : s.accounts.users.findById id' with
      | none =>
          rw [hfind] at h
          exact h
      | some user =>
          rw [hfind] at h
          rcases inactive_save h with h | ⟨hactive, _⟩
          · exact h
          · cases hactive

/-! ## Live sessions are of active accounts -/

structure LiveActive (s : System) : Prop where
  bound : ∀ r ∈ s.tokens.rows, r.id < s.tokens.nextId
  live : ∀ r ∈ s.tokens.rows, r.revokedAt = none → ¬ Inactive s.accounts r.role r.userId

theorem LiveActive.step {req : Request} (h : LiveActive s) (hm : MintsForActive env s req) :
    LiveActive (Service.exec (perform env req) s).2 := by
  refine ⟨hm.refresh.bound h.bound, fun r' hr' hlive hinactive => ?_⟩
  have hbefore : ¬ Inactive s.accounts r'.role r'.userId := by
    rcases hm.refresh.rows r' hr' with ⟨r, hr, hsame⟩ | ⟨_, _, hnew⟩
    · rw [hsame.role, hsame.userId]
      exact h.live r hr (hsame.live hlive)
    · exact hnew
  rcases inactive_perform hinactive with hinactive | hrevoked
  · exact hbefore hinactive
  · exact hrevoked r' hr' rfl rfl hlive

/-- A call without tokens in its response, and none stored. -/
theorem mintsFor_of_ages {Allowed : Role → Nat → Prop} {α : Type} {reply : Except HttpException α}
    (htokens : Ages s.tokens s'.tokens) : MintsFor Allowed s (reply.map fun _ => none, s') := by
  refine ⟨htokens.grows, fun pair hpair => ?_⟩
  cases reply <;> cases hpair

theorem mintsFor_error {Allowed : Role → Nat → Prop} {e : HttpException}
    (htokens : Ages s.tokens s'.tokens) : MintsFor Allowed s (.error e, s') :=
  ⟨htokens.grows, nofun⟩

theorem mintsFor_login {Allowed : Role → Nat → Prop} {α : Type} {reply : Except HttpException α}
    {pair : α → TokenPair} {s₁ : System} {token : String} {userId : Nat} {role : Role}
    (h : Allowed role userId)
    (hreply : ∀ response, reply = .ok response → (pair response).accessToken = ⟨userId, role⟩) :
    MintsFor Allowed s (reply.map fun response => some (pair response),
      { s₁ with tokens := issued env now token userId role s.tokens }) := by
  refine ⟨grows_insert s.tokens h, fun p hp => ?_⟩
  cases reply with
  | error e => cases hp
  | ok response =>
      cases hp
      rw [hreply response rfl]
      exact h

theorem not_inactive_user {accounts : AccountTables} {user : UserEntity}
    (hmem : user ∈ accounts.users.rows) (hactive : user.isActive = true) :
    ¬ Inactive accounts .user user.id := by
  rintro ⟨u, hu, hid, hinactive⟩
  rw [UserTable.eq_of_id hu hmem hid, hactive] at hinactive
  cases hinactive

theorem not_inactive_admin {accounts : AccountTables} {admin : AdminEntity}
    (hmem : admin ∈ accounts.admins.rows) (hactive : admin.isActive = true) :
    ¬ Inactive accounts .admin admin.id := by
  rintro ⟨a, ha, hid, hinactive⟩
  rw [AdminTable.eq_of_id ha hmem hid, hactive] at hinactive
  cases hinactive

theorem not_inactive_nextId (accounts : AccountTables) :
    ¬ Inactive accounts .user accounts.users.nextId := by
  rintro ⟨u, hu, hid, _⟩
  exact Nat.ne_of_lt (accounts.users.bound u hu) hid

theorem mintsForActive_verifyOtp {phone code token : String}
    (hlogin : LogsInToActive env s ⟨now, .verifyOtp phone code token⟩) :
    MintsForActive env s ⟨now, .verifyOtp phone code token⟩ := by
  rw [MintsForActive, perform, Service.exec_bind_pure]
  by_cases haccepts : AcceptsCode env s now phone code
  · obtain ⟨otps, user, s₁, reply, hu, hexec, hreply⟩ := verifyOtp_of_accepts token haccepts
    rw [exec_findOneOrCreateByPhone] at hu
    cases hfind : s.accounts.users.findByPhone phone with
    | some found =>
        simp only [hfind] at hu
        cases hu
        rw [hexec]
        exact mintsFor_login (not_inactive_user (List.mem_of_find?_eq_some hfind)
          (hlogin haccepts user hfind)) hreply
    | none =>
        simp only [hfind] at hu
        cases hu
        rw [hexec]
        exact mintsFor_login (not_inactive_nextId s.accounts) hreply
  · obtain ⟨e, otps, hexec⟩ := verifyOtp_of_not_accepts token haccepts
    rw [hexec]
    exact mintsFor_error (Grows.refl _)

theorem mintsForActive_login {username password token : String}
    (hlogin : LogsInToActive env s ⟨now, .login username password token⟩) :
    MintsForActive env s ⟨now, .login username password token⟩ := by
  rw [MintsForActive, perform, Service.exec_bind_pure]
  by_cases hmatch : ∃ admin ∈ s.accounts.admins.findByUsername username,
      env.comparePassword password admin.password = true
  · obtain ⟨admin, hfind, hpassword⟩ := hmatch
    rw [exec_login hfind hpassword]
    refine mintsFor_login (not_inactive_admin (List.mem_of_find?_eq_some hfind)
      (hlogin admin hfind hpassword)) fun response hresponse => ?_
    cases hphoto : env.resolvePhotoUrl admin.photoKey with
    | error e => simp [hphoto, Except.map] at hresponse
    | ok photoUrl =>
        simp only [hphoto, Except.map, Except.ok.injEq] at hresponse
        rw [← hresponse]
  · rw [exec_login_of_not fun admin ha => Bool.eq_false_iff.2 fun hp => hmatch ⟨admin, ha, hp⟩]
    exact mintsFor_error (Grows.refl _)

/-- What `refresh` mints is for the principal of a live session. -/
theorem mintsForActive_refresh {refreshToken token : String} (h : LiveActive s) :
    MintsForActive env s ⟨now, .refresh refreshToken token⟩ := by
  rw [MintsForActive, perform, Service.exec_bind_pure, refresh, Service.exec_bind_pure,
    refreshTokenService, Service.exec_on]
  rcases rotate_cases env.sha256 env.refreshTtlSeconds now token refreshToken s.tokens with
    ⟨t', hexec, hages⟩ | ⟨row, t', hfind, hlive, _, hexec, hgrows⟩
  · rw [hexec]
    exact mintsFor_error hages
  · have hactive : ¬ Inactive s.accounts row.role row.userId :=
      h.live row (List.mem_of_find?_eq_some hfind) hlive
    rw [hexec]
    refine ⟨⟨hgrows.nextId, fun r hr => ?_⟩, fun pair hpair => ?_⟩
    · refine (hgrows.rows r hr).imp_right fun ⟨hle, hlt, huser, hrole⟩ => ⟨hle, hlt, ?_⟩
      rw [huser, hrole]
      exact hactive
    · cases hpair
      exact hactive

/-- With live sessions of active accounts only, a call that logs in to an active
account, if to any, mints for active accounts only. -/
theorem mintsForActive_of_logsInToActive {req : Request} (h : LiveActive s)
    (hlogin : LogsInToActive env s req) : MintsForActive env s req := by
  obtain ⟨now, op⟩ := req
  cases op with
  | verifyOtp phone code token => exact mintsForActive_verifyOtp hlogin
  | login username password token => exact mintsForActive_login hlogin
  | refresh refreshToken token => exact mintsForActive_refresh h
  | requestOtp phone draw delivered =>
      rw [MintsForActive, perform, Service.exec_bind_pure]
      exact mintsFor_of_ages (Grows.refl _)
  | logout refreshToken =>
      rw [MintsForActive, perform, Service.exec_bind_pure]
      exact mintsFor_of_ages (revoke_ages refreshToken s.tokens)
  | deactivateByAdmin id =>
      rw [MintsForActive, perform, Service.exec_bind_pure]
      refine mintsFor_of_ages ?_
      cases hfind : s.accounts.users.findById id with
      | none =>
          rw [exec_deactivateByAdmin_of_none hfind]
          exact Grows.refl _
      | some user =>
          rw [exec_deactivateByAdmin hfind]
          exact ages_apply (sameSession_revokeAllForUser id .user now) s.tokens
  | activateByAdmin id =>
      rw [MintsForActive, perform, Service.exec_bind_pure, exec_activateByAdmin]
      refine mintsFor_of_ages ?_
      split <;> exact Grows.refl _

/-- A login stores a token for its account, so one that mints for active accounts only is
one to an active account. -/
theorem not_inactive_of_issued {t : TokenTable} {token : String} {userId : Nat} {role : Role}
    (hbound : ∀ r ∈ s.tokens.rows, r.id < s.tokens.nextId)
    (ht : t = issued env now token userId role s.tokens)
    (h : Grows (fun row => ¬ Inactive s.accounts row.role row.userId) s.tokens t) :
    ¬ Inactive s.accounts role userId := by
  subst ht
  rcases h.rows _ (List.mem_append_right _ (List.mem_singleton_self _)) with
    ⟨r, hr, hsame⟩ | ⟨_, _, hnew⟩
  · exact absurd hsame.id (Nat.ne_of_gt (hbound r hr))
  · exact hnew

theorem logsInToActive_of_mintsForActive {req : Request} (h : LiveActive s)
    (hm : MintsForActive env s req) : LogsInToActive env s req := by
  obtain ⟨now, op⟩ := req
  cases op with
  | verifyOtp phone code token =>
      intro haccepts user hfind
      have hrefresh := hm.refresh
      rw [perform, Service.exec_bind_pure] at hrefresh
      obtain ⟨otps, user', s₁, reply, hu, hexec, _⟩ := verifyOtp_of_accepts token haccepts
      rw [exec_findOneOrCreateByPhone, Option.mem_def.1 hfind] at hu
      cases hu
      rw [hexec] at hrefresh
      have hnot := not_inactive_of_issued h.bound rfl hrefresh
      by_contra hinactive
      exact hnot ⟨user, List.mem_of_find?_eq_some hfind, rfl, Bool.eq_false_iff.2 hinactive⟩
  | login username password token =>
      intro admin hfind hpassword
      have hrefresh := hm.refresh
      rw [perform, Service.exec_bind_pure, exec_login hfind hpassword] at hrefresh
      have hnot := not_inactive_of_issued h.bound rfl hrefresh
      by_contra hinactive
      exact hnot ⟨admin, List.mem_of_find?_eq_some hfind, rfl, Bool.eq_false_iff.2 hinactive⟩
  | _ => trivial

theorem LiveActive.activatesUnexchangeable {req : Request} (h : LiveActive s) :
    ActivatesUnexchangeable env s req := by
  obtain ⟨now, op⟩ := req
  cases op with
  | activateByAdmin id =>
      intro hinactive presentedToken row hfind huser hrole now' newToken
      have htokens :
          (Service.exec (perform env ⟨now, .activateByAdmin id⟩) s).2.tokens = s.tokens := by
        rw [perform, Service.exec_bind_pure, exec_activateByAdmin]
        split <;> rfl
      rw [htokens] at hfind ⊢
      rcases rotate_cases env.sha256 env.refreshTtlSeconds now' newToken presentedToken s.tokens
        with ⟨t', hexec, _⟩ | ⟨row', t', hfind', hlive, _, _, _⟩
      · rw [hexec]
      · cases hfind.symm.trans hfind'
        have hnot := h.live row (List.mem_of_find?_eq_some hfind) hlive
        rw [hrole, huser] at hnot
        exact absurd hinactive hnot
  | _ => trivial

theorem LiveActive.initial (admins : AdminTable) : LiveActive (initial admins) :=
  ⟨nofun, nofun⟩

/-- In a run of calls none of which overlap, nothing is minted for an inactive account and
no token of an account outlives its deactivation, if and only if every login whose code or
password is right is one to an active account. -/
theorem mintsForActive_iff_logsInToActive (env : Env) (admins : AdminTable) (reqs : List Request) :
    Along (step env) (fun s req => MintsForActive env s req ∧ ActivatesUnexchangeable env s req)
        (initial admins) reqs ↔
      Along (step env) (LogsInToActive env) (initial admins) reqs := by
  constructor
  · intro h
    refine Along.of_inv (I := LiveActive) (fun s req s' hlive hC hs => ?_)
      (fun s req hlive hC => logsInToActive_of_mintsForActive hlive hC.1)
      (LiveActive.initial admins) h
    cases hs
    exact hlive.step hC.1
  · intro h
    refine Along.of_inv (I := LiveActive) (fun s req s' hlive hC hs => ?_) (fun s req hlive hC =>
      ⟨mintsForActive_of_logsInToActive hlive hC, hlive.activatesUnexchangeable⟩)
      (LiveActive.initial admins) h
    cases hs
    exact hlive.step (mintsForActive_of_logsInToActive hlive hC)

def Env.sample : Env where
  otp := .test
  refreshTtlSeconds := 604800
  driver := .redis "app"
  sha256 := sha256Sample
  comparePassword _ _ := false
  resolvePhotoUrl := .ok

def disabledThenRequested : List Request :=
  [⟨0, .requestOtp "p" 0 true⟩, ⟨0, .verifyOtp "p" "123456" "a"⟩, ⟨0, .deactivateByAdmin 1⟩,
    ⟨0, .requestOtp "p" 0 true⟩]

theorem mints_while_disabled :
    ∃ s, run (step .sample) (initial {}) disabledThenRequested = some s ∧
      Inactive s.accounts .user 1 ∧
      (Service.exec (perform .sample ⟨0, .verifyOtp "p" "123456" "b"⟩) s).1 =
        .ok (some ⟨⟨1, .user⟩, "b"⟩) := by
  have hrun : (run (step .sample) (initial {}) disabledThenRequested).any (fun s => decide
      (Inactive s.accounts .user 1 ∧
        (Service.exec (perform .sample ⟨0, .verifyOtp "p" "123456" "b"⟩) s).1 =
          .ok (some ⟨⟨1, .user⟩, "b"⟩))) = true := by
    decide +kernel
  simpa only [Option.any_eq_true, decide_eq_true_eq] using hrun

end NestStarter.Sessions
