import NestStarter.Accounts.Passwords
import NestStarter.Sessions.Gate

/-! # A changed password and the next login

`AdminService.updateMe` over all the tables, and what the admin's next login makes of
the password it stored. The password goes through three hands: the hook trims what it
hashes and leaves what looks like a hash alone, bcrypt reads 72 bytes, and the login
compares the text as it is sent.
-/

namespace NestStarter.Sessions

open NestStarter.Core Accounts Otps RefreshTokens

def currentPasswordIncorrect : HttpException :=
  ⟨.unauthorized, "admin.errors.current_password_incorrect", []⟩

def usernameTaken : HttpException := ⟨.conflict, "admin.errors.username_taken", []⟩

def setAdmins (s : System) (admins : AdminTable) : System :=
  { s with accounts := { s.accounts with admins } }

/-- `if (!valid) throw`, where the password is asked for. -/
def verifyCurrentPassword (env : Env) (dto : UpdateMeDto) (current : AdminEntity) :
    Except HttpException Unit :=
  if dto.isChangingCredentials ∧
      env.comparePassword (dto.currentPassword.getD "") current.password = false then
    .error currentPasswordIncorrect
  else .ok ()

def checkUsername (admins : AdminTable) (dto : UpdateMeDto) (current : AdminEntity) :
    Except HttpException Unit :=
  match dto.username with
  | none => .ok ()
  | some username =>
      if username = current.username then .ok ()
      else
        match admins.findByUsername username with
        | some existing => if existing.id = current.id then .ok () else .error usernameTaken
        | none => .ok ()

variable (env : Env) (hashPassword : String → String → String)

def updateMe (now : Instant) (salt : String) (id : Nat) (dto : UpdateMeDto) :
    SystemM AdminEntity := do
  let current ← Service.statement fun s => (s.accounts.admins.findById id, s)
  let current ← Service.ofExcept (orThrow invalidCredentials current)
  Service.ofExcept (verifyCurrentPassword env dto current)
  let admins ← Service.statement fun s => (s.accounts.admins, s)
  Service.ofExcept (checkUsername admins dto current)
  let saved := (current.merge dto).hashPasswordOnSave hashPassword now salt
  Service.statement fun s => ((), setAdmins s (s.accounts.admins.save saved now))
  if dto.isChangingCredentials then
    refreshTokenService (RefreshTokens.revokeAllForUser now id .admin)
  Service.statement fun s =>
    ((), { s with redis := env.driver.delete (authUser Role.admin.value id) s.redis })
  return saved

/-- A session is issued, and the response waits for the photo's URL only. -/
def LogsIn (s : System) (row : AdminEntity) (password : String) : Prop :=
  ∀ now token, Service.exec (login env now row.username password token) s =
    ((env.resolvePhotoUrl row.photoKey).map fun photoUrl => ⟨⟨⟨row.id, .admin⟩, token⟩, photoUrl⟩,
      { s with tokens := issued env now token row.id .admin s.tokens })

/-- What is stored for `password` is a hash and not the text, and the text logs in. -/
def Takes (s : System) (id : Nat) (password : String) : Prop :=
  ∃ row ∈ s.accounts.admins.rows, row.id = id ∧
    (∃ salt p, row.password = hashPassword salt p) ∧ row.password ≠ password ∧
      LogsIn env s row password

variable {env hashPassword} {s s' : System} {now : Instant} {salt : String} {id : Nat}
  {dto : UpdateMeDto} {saved : AdminEntity}

/-- What an `updateMe` that returns has found and done. -/
theorem updateMe_ok
    (h : Service.exec (updateMe env hashPassword now salt id dto) s = (.ok saved, s')) :
    ∃ current, s.accounts.admins.findById id = some current ∧
      checkUsername s.accounts.admins dto current = .ok () ∧
      saved = (current.merge dto).hashPasswordOnSave hashPassword now salt ∧
      s'.accounts.admins = s.accounts.admins.save saved now := by
  cases hfind : s.accounts.admins.findById id with
  | none => simp [updateMe, hfind] at h
  | some current =>
      cases hverify : verifyCurrentPassword env dto current with
      | error e => simp [updateMe, hfind, hverify] at h
      | ok _ =>
          cases hcheck : checkUsername s.accounts.admins dto current with
          | error e => simp [updateMe, hfind, hverify, hcheck] at h
          | ok _ =>
              refine ⟨current, rfl, hcheck, ?_⟩
              by_cases hchanging : dto.isChangingCredentials = true
              · simp only [updateMe, refreshTokenService, Service.exec_bind, Service.exec_statement,
                  Service.exec_ofExcept, Service.exec_on, Service.exec_pure,
                  exec_revokeAllForUser, hfind, hverify, hcheck, orThrow_some, hchanging, if_true,
                  Prod.mk.injEq, Except.ok.injEq] at h
                obtain ⟨rfl, rfl⟩ := h
                exact ⟨rfl, rfl⟩
              · simp only [updateMe, refreshTokenService, Service.exec_bind, Service.exec_statement,
                  Service.exec_ofExcept, Service.exec_pure, Service.exec_ite, hfind, hverify,
                  hcheck, orThrow_some, hchanging] at h
                cases h
                exact ⟨rfl, rfl⟩

theorem mem_save {t : AdminTable} {admin row : AdminEntity}
    (h : row ∈ (t.save admin now).rows) :
    row = { admin with updatedAt := now } ∨ row ∈ t.rows ∧ row.id ≠ admin.id := by
  obtain ⟨r, hr, rfl⟩ := List.mem_map.1 h
  by_cases hid : r.id = admin.id
  · rw [if_pos hid]
    exact Or.inl rfl
  · rw [if_neg hid]
    exact Or.inr ⟨hr, hid⟩

/-- Nobody else has the name that passed the check. -/
theorem username_free {t : AdminTable} {current : AdminEntity}
    (hunique : (t.rows.map AdminEntity.username).Nodup) (hcurrent : current ∈ t.rows)
    (hcheck : checkUsername t dto current = .ok ()) :
    ∀ row ∈ t.rows, row.id ≠ current.id → row.username ≠ dto.username.getD current.username := by
  intro row hrow hid hname
  have hne : row.username ≠ current.username := by
    intro heq
    have hrow' : row = current := List.inj_on_of_nodup_map hunique hrow hcurrent heq
    exact hid (by rw [hrow'])
  cases husername : dto.username with
  | none =>
      rw [husername] at hname
      exact hne hname
  | some username =>
      rw [husername, Option.getD_some] at hname
      cases hfind : t.findByUsername username with
      | none =>
          have hnone := List.find?_eq_none.1 hfind row hrow
          exact hnone (by simp [hname])
      | some existing =>
          have hexisting : existing.username = username := by simpa using List.find?_some hfind
          have hmem := List.mem_of_find?_eq_some hfind
          have hrow' : row = existing :=
            List.inj_on_of_nodup_map hunique hrow hmem (hname.trans hexisting.symm)
          subst hrow'
          have hne' : username ≠ current.username := hexisting ▸ hne
          simp [checkUsername, husername, hfind, hne', hid] at hcheck

theorem findByUsername_save {t : AdminTable} {current : AdminEntity}
    (hcurrent : t.findById id = some current)
    (hunique : (t.rows.map AdminEntity.username).Nodup)
    (hcheck : checkUsername t dto current = .ok ()) {admin : AdminEntity} (hid : admin.id = id)
    (hname : admin.username = dto.username.getD current.username) :
    (t.save admin now).findByUsername admin.username = some { admin with updatedAt := now } := by
  have hmem : current ∈ t.rows := List.mem_of_find?_eq_some hcurrent
  have hidc : current.id = id := by simpa using List.find?_some hcurrent
  have hfree := username_free hunique hmem hcheck
  have hsaved : { admin with updatedAt := now } ∈ (t.save admin now).rows :=
    List.mem_map.2 ⟨current, hmem, if_pos (hidc.trans hid.symm)⟩
  cases hfind : (t.save admin now).findByUsername admin.username with
  | none =>
      have hnone := List.find?_eq_none.1 hfind _ hsaved
      exact absurd (by simp) hnone
  | some row =>
      have hrow : row.username = admin.username := by simpa using List.find?_some hfind
      rcases mem_save (List.mem_of_find?_eq_some hfind) with rfl | ⟨hold, hne⟩
      · rfl
      · have hne' : row.id ≠ current.id := by rwa [hidc, ← hid]
        exact absurd (hrow.trans hname) (hfree row hold hne')

/-! ## The password -/

/-- The row that `updateMe` has stored takes a password or not. -/
theorem takes_iff {row : AdminEntity} {p : String} (hrow : row ∈ s.accounts.admins.rows)
    (hid : row.id = id)
    (hfind : s.accounts.admins.findByUsername row.username = some row) :
    Takes env hashPassword s id p ↔
      (∃ salt q, row.password = hashPassword salt q) ∧ row.password ≠ p ∧
        env.comparePassword p row.password = true := by
  constructor
  · rintro ⟨row', hrow', hid', hhash, hne, hlogs⟩
    have heq : row' = row := s.accounts.admins.eq_of_id hrow' hrow (hid'.trans hid.symm)
    subst heq
    refine ⟨hhash, hne, ?_⟩
    by_contra hcompare
    have hlogin := hlogs 0 ""
    rw [exec_login_of_not (by simpa [hfind] using hcompare)] at hlogin
    have hrows := congrArg (fun r => r.2.tokens.rows.length) hlogin
    simp [issued] at hrows
  · rintro ⟨hhash, hne, hcompare⟩
    exact ⟨row, hrow, hid, hhash, hne, fun now token => exec_login hfind hcompare⟩

/-- After `updateMe` with a password, that password is hashed and logs in if and only if
it does not begin as a bcrypt hash and bcrypt reads the same of it with the blanks at its ends
as without. -/
theorem takes_updateMe_iff (env : Env) (hashPassword : String → String → String)
    (hbcrypt : Documented hashPassword env.comparePassword) (s s' : System)
    (hunique : (s.accounts.admins.rows.map AdminEntity.username).Nodup) (now : Instant)
    (salt : String) (id : Nat) (body : JsObject) (dto : UpdateMeDto) (p : String)
    (hvalid : UpdateMeDto.validate body = some dto) (hp : dto.password = some p)
    (saved : AdminEntity)
    (hexec : Service.exec (updateMe env hashPassword now salt id dto) s = (.ok saved, s')) :
    Takes env hashPassword s' id p ↔
      isPasswordHashed p = false ∧ bcryptBytes p = bcryptBytes (trim p) := by
  obtain ⟨current, hcurrent, hcheck, hsaved, hadmins⟩ := updateMe_ok hexec
  have hidc : current.id = id := by simpa using List.find?_some hcurrent
  have hid : saved.id = id := by rw [hsaved, AdminEntity.id_hashPasswordOnSave]; exact hidc
  have hname : saved.username = dto.username.getD current.username := by rw [hsaved]; rfl
  have hfind : (s.accounts.admins.save saved now).findByUsername saved.username =
      some { saved with updatedAt := now } :=
    findByUsername_save hcurrent hunique hcheck hid hname
  rw [← hadmins] at hfind
  have hpassword : (current.merge dto).password = p := by simp [AdminEntity.merge, hp]
  have hempty : p ≠ "" := by
    intro heq
    have hlength := (UpdateMeDto.length_password hvalid hp).1
    rw [heq] at hlength
    exact absurd hlength (by decide)
  rw [takes_iff (List.mem_of_find?_eq_some hfind) hid hfind]
  cases hhashed : isPasswordHashed p with
  | true =>
      have hstored : saved.password = p := by
        rw [hsaved, AdminEntity.hashPasswordOnSave_of_hashed (by rwa [hpassword]), hpassword]
      simp [hstored]
  | false =>
      have hstored : saved.password = hashPassword salt (trim p) := by
        rw [hsaved, AdminEntity.password_hashPasswordOnSave (by rwa [hpassword])
          (by rwa [hpassword]), hpassword]
      have hne : hashPassword salt (trim p) ≠ p := fun heq => by
        have hhashed' := hbcrypt.hashed salt (trim p)
        rw [heq, hhashed] at hhashed'
        cases hhashed'
      simp only [hstored, hbcrypt.compare]
      exact ⟨fun h => ⟨trivial, h.2.2⟩, fun h => ⟨⟨salt, trim p, rfl⟩, hne, h.2⟩⟩

def Env.bcrypt : Env := { Env.sample with comparePassword := compareSample }

def oneAdmin : System := initial ⟨[
  { id := 1, createdAt := 0, updatedAt := 0, username := "root", firstName := "Root",
    lastName := "Admin", password := hashSample "" "another-horse" }], by decide⟩

def changeTo (p : String) : JsObject :=
  ⟨[("password", .string p), ("currentPassword", .string "another-horse")], []⟩

/-- A change that `updateMe` accepts, and what can be seen of the system after it. -/
theorem exec_changeTo (p : String) (seen : System → Bool)
    (h : ((UpdateMeDto.validate (changeTo p)).any fun dto => dto.password = some p &&
      (Service.exec (updateMe .bcrypt hashSample 5 "" 1 dto) oneAdmin).1.isOk &&
      seen (Service.exec (updateMe .bcrypt hashSample 5 "" 1 dto) oneAdmin).2) = true) :
    ∃ dto saved s', UpdateMeDto.validate (changeTo p) = some dto ∧ dto.password = some p ∧
      Service.exec (updateMe .bcrypt hashSample 5 "" 1 dto) oneAdmin = (.ok saved, s') ∧
      seen s' = true := by
  simp only [Option.any_eq_true, Bool.and_eq_true, decide_eq_true_eq] at h
  obtain ⟨dto, hvalid, ⟨hp, hok⟩, hseen⟩ := h
  cases hexec : Service.exec (updateMe .bcrypt hashSample 5 "" 1 dto) oneAdmin with
  | mk result s' =>
      rw [hexec] at hok hseen
      cases result with
      | error e => cases hok
      | ok saved => exact ⟨dto, saved, s', hvalid, hp, hexec, hseen⟩

def refused (p : String) (s : System) : Bool :=
  (s.accounts.admins.findByUsername "root").any fun row =>
    decide (row.id = 1 ∧ row.username = "root" ∧ compareSample p row.password = false)

theorem takes_correctHorse : ∃ dto saved s',
    Service.exec (updateMe .bcrypt hashSample 5 "" 1 dto) oneAdmin = (.ok saved, s') ∧
      Takes .bcrypt hashSample s' 1 "correct-horse" := by
  obtain ⟨dto, saved, s', hvalid, hp, hexec, -⟩ :=
    exec_changeTo "correct-horse" (fun _ => true) (by decide +kernel)
  exact ⟨dto, saved, s', hexec, (takes_updateMe_iff .bcrypt hashSample documented_sample oneAdmin s'
    (by decide) 5 "" 1 _ dto _ hvalid hp saved hexec).2 (by decide +kernel)⟩

/-- `updateMe` accepts a change after which the password is not taken. -/
def Locks (p : String) : Prop :=
  ∃ dto saved s', UpdateMeDto.validate (changeTo p) = some dto ∧ dto.password = some p ∧
    Service.exec (updateMe .bcrypt hashSample 5 "" 1 dto) oneAdmin = (.ok saved, s') ∧
    ¬ Takes .bcrypt hashSample s' 1 p

theorem locks_of_refused (p : String)
    (h : ((UpdateMeDto.validate (changeTo p)).any fun dto => dto.password = some p &&
      (Service.exec (updateMe .bcrypt hashSample 5 "" 1 dto) oneAdmin).1.isOk &&
      refused p (Service.exec (updateMe .bcrypt hashSample 5 "" 1 dto) oneAdmin).2) = true) :
    Locks p := by
  obtain ⟨dto, saved, s', hvalid, hpass, hexec, hseen⟩ := exec_changeTo p (refused p) h
  simp only [refused, Option.any_eq_true, decide_eq_true_eq] at hseen
  obtain ⟨row, hfind, hid, hname, hcompare⟩ := hseen
  refine ⟨dto, saved, s', hvalid, hpass, hexec, fun htakes => ?_⟩
  have hrow := List.mem_of_find?_eq_some hfind
  have hmatch := ((takes_iff hrow hid (hname ▸ hfind)).1 htakes).2.2
  exact Bool.false_ne_true (hcompare.symm.trans hmatch)

/-- With a blank at its end the password is hashed without and compared with it; a text
that begins as a hash is stored as it is. -/
theorem not_takes_blank_or_hashed : Locks "correct-horse " ∧ Locks "$2b$10$abcdefgh" :=
  ⟨locks_of_refused _ (by decide +kernel), locks_of_refused _ (by decide +kernel)⟩

end NestStarter.Sessions
