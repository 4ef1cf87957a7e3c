import NestStarter.RefreshTokens.Service

/-! # What one call does to the table

Each service method with nobody else at work: its result, and how the rows it
leaves come from the rows it found.
-/

namespace NestStarter.RefreshTokens

open NestStarter.Core

variable {sha256 : String → String} {ttlSeconds : Nat} {now : Instant}

/-- A row as it was before a call and after it: the same token of the same principal,
never unrevoked. -/
structure SameSession (r r' : RefreshTokenEntity) : Prop where
  id : r'.id = r.id
  tokenHash : r'.tokenHash = r.tokenHash
  userId : r'.userId = r.userId
  role : r'.role = r.role
  expiresAt : r'.expiresAt = r.expiresAt
  live : r'.revokedAt = none → r.revokedAt = none

theorem SameSession.refl (r : RefreshTokenEntity) : SameSession r r :=
  ⟨rfl, rfl, rfl, rfl, rfl, fun h => h⟩

theorem SameSession.trans {r r' r'' : RefreshTokenEntity} (h : SameSession r r')
    (h' : SameSession r' r'') : SameSession r r'' where
  id := h'.id.trans h.id
  tokenHash := h'.tokenHash.trans h.tokenHash
  userId := h'.userId.trans h.userId
  role := h'.role.trans h.role
  expiresAt := h'.expiresAt.trans h.expiresAt
  live hr := h.live (h'.live hr)

/-- Every row of the later table is one of the earlier, or new and as `New` says. -/
structure Grows (New : RefreshTokenEntity → Prop) (t t' : TokenTable) : Prop where
  nextId : t.nextId ≤ t'.nextId
  rows : ∀ r' ∈ t'.rows, (∃ r ∈ t.rows, SameSession r r') ∨
    (t.nextId ≤ r'.id ∧ r'.id < t'.nextId ∧ New r')

/-- Nothing new. -/
abbrev Ages : TokenTable → TokenTable → Prop := Grows fun _ => False

variable {New : RefreshTokenEntity → Prop} {t t' t'' : TokenTable}

theorem Grows.refl (t : TokenTable) : Grows New t t :=
  ⟨Nat.le_refl _, fun r hr => Or.inl ⟨r, hr, SameSession.refl r⟩⟩

theorem Ages.grows (h : Ages t t') : Grows New t t' :=
  ⟨h.nextId, fun r hr => (h.rows r hr).imp_right fun hnew => hnew.2.2.elim⟩

theorem Ages.row (h : Ages t t') {r' : RefreshTokenEntity} (hr : r' ∈ t'.rows) :
    ∃ r ∈ t.rows, SameSession r r' :=
  (h.rows r' hr).resolve_right fun hnew => hnew.2.2

theorem Grows.ages (h : Grows New t t') (h' : Ages t' t'')
    (hnew : ∀ r r', SameSession r r' → New r → New r') : Grows New t t'' := by
  refine ⟨Nat.le_trans h.nextId h'.nextId, fun r'' hr'' => ?_⟩
  obtain ⟨r', hr', hsame⟩ := h'.row hr''
  rcases h.rows r' hr' with ⟨r, hr, hsame'⟩ | ⟨hle, hlt, hr⟩
  · exact Or.inl ⟨r, hr, hsame'.trans hsame⟩
  · have hnext := h'.nextId
    rw [hsame.id]
    exact Or.inr ⟨hle, by omega, hnew r' r'' hsame hr⟩

theorem Grows.bound (h : Grows New t t') (ht : ∀ r ∈ t.rows, r.id < t.nextId) :
    ∀ r ∈ t'.rows, r.id < t'.nextId := by
  intro r' hr'
  rcases h.rows r' hr' with ⟨r, hr, hsame⟩ | ⟨_, hlt, _⟩
  · have hlt := ht r hr
    have hnext := h.nextId
    rw [hsame.id]
    omega
  · exact hlt

theorem ages_apply {q : Stmt RefreshTokenEntity}
    (hq : ∀ r r', q.write r = some r' → SameSession r r') (t : TokenTable) :
    Ages t { t with rows := q.apply t.rows } := by
  refine ⟨Nat.le_refl _, fun r' hr' => Or.inl ?_⟩
  obtain ⟨r, hr, hw⟩ := List.mem_filterMap.1 hr'
  refine ⟨r, hr, ?_⟩
  split at hw
  · exact hq r r' hw
  · cases hw
    exact SameSession.refl _

theorem grows_insert (t : TokenTable) {n : NewToken} (hn : New (n.row t.nextId)) :
    Grows New t { rows := t.rows ++ [n.row t.nextId], nextId := t.nextId + 1 } := by
  refine ⟨Nat.le_succ _, fun r hr => ?_⟩
  rcases List.mem_append.1 hr with hr | hr
  · exact Or.inl ⟨r, hr, SameSession.refl r⟩
  · rw [List.mem_singleton.1 hr]
    exact Or.inr ⟨Nat.le_refl _, Nat.lt_succ_self _, hn⟩

theorem sameSession_revokeAllForUser (userId : Nat) (role : Role) (now : Instant) :
    ∀ r r', (revokeAllForUserStmt userId role now).write r = some r' → SameSession r r' := by
  rintro r r' ⟨⟩
  exact ⟨rfl, rfl, rfl, rfl, rfl, nofun⟩

theorem sameSession_revoke (id : Nat) (now : Instant) :
    ∀ r r', (revokeStmt id now).write r = some r' → SameSession r r' := by
  rintro r r' ⟨⟩
  exact ⟨rfl, rfl, rfl, rfl, rfl, nofun⟩

theorem sameSession_replace (id savedId : Nat) (now : Instant) :
    ∀ r r', (replaceStmt id savedId now).write r = some r' → SameSession r r' := by
  rintro r r' ⟨⟩
  exact ⟨rfl, rfl, rfl, rfl, rfl, nofun⟩

/-! ## The calls -/

theorem exec_issue (token : String) (userId : Nat) (role : Role) (t : TokenTable) :
    Service.exec (issue sha256 ttlSeconds now token userId role) t =
      (.ok ⟨token, newExpiry ttlSeconds now⟩,
        { rows := t.rows ++
            [NewToken.row ⟨sha256 token, userId, role, newExpiry ttlSeconds now⟩ t.nextId]
          nextId := t.nextId + 1 }) := by
  simp [issue, save]

theorem exec_revokeAllForUser (userId : Nat) (role : Role) (t : TokenTable) :
    Service.exec (revokeAllForUser now userId role) t =
      (.ok (), { t with rows := (revokeAllForUserStmt userId role now).apply t.rows }) := by
  simp [revokeAllForUser, update]

/-- After `revokeAllForUser` no row of the principal is live. -/
theorem revoked_of_mem_revokeAllForUser {userId : Nat} {role : Role}
    {rows : List RefreshTokenEntity} {r : RefreshTokenEntity}
    (hr : r ∈ (revokeAllForUserStmt userId role now).apply rows)
    (huser : r.userId = userId) (hrole : r.role = role) : r.revokedAt ≠ none := by
  obtain ⟨r₀, _, hw⟩ := List.mem_filterMap.1 hr
  split at hw
  · cases hw
    exact nofun
  · rename_i hsel
    cases hw
    intro hlive
    exact hsel (by simp [revokeAllForUserStmt, huser, hrole, hlive])

theorem revoke_ages (presentedToken : String) (t : TokenTable) :
    Ages t (Service.exec (revoke sha256 now presentedToken) t).2 := by
  cases hfind : findByToken sha256 t.rows presentedToken with
  | none =>
      simp only [revoke, Service.exec_bind, Service.exec_statement, hfind]
      exact Grows.refl t
  | some row =>
      by_cases hrevoked : row.revokedAt.isSome = true
      · simp only [revoke, Service.exec_bind, Service.exec_statement, hfind, hrevoked, if_true]
        exact Grows.refl t
      · simp [revoke, update, hfind, hrevoked]
        exact ages_apply (sameSession_revoke row.id now) t

theorem exec_transaction {α : Type} (body : TokenService α) (t : TokenTable) :
    Service.exec (transaction body) t =
      match Service.exec body t with
      | (.ok a, t') => (.ok a, t')
      | (.error e, t') => (.error e, { t with nextId := t'.nextId }) := rfl

/-- `rotate` throws and adds nothing, or it found an unrevoked, unexpired row and added
one of the same principal. -/
theorem rotate_cases (sha256 : String → String) (ttlSeconds : Nat) (now : Instant)
    (newToken presentedToken : String) (t : TokenTable) :
    (∃ t', Service.exec (rotate sha256 ttlSeconds now newToken presentedToken) t =
      (.error invalid, t') ∧ Ages t t') ∨
    ∃ row t', findByToken sha256 t.rows presentedToken = some row ∧ row.revokedAt = none ∧
      now < row.expiresAt ∧
      Service.exec (rotate sha256 ttlSeconds now newToken presentedToken) t =
        (.ok ⟨⟨newToken, newExpiry ttlSeconds now⟩, row.userId, row.role⟩, t') ∧
      Grows (fun r => r.userId = row.userId ∧ r.role = row.role) t t' := by
  by_cases hempty : presentedToken.length = 0
  · exact Or.inl ⟨t, by simp [rotate, lookup, hempty], Grows.refl t⟩
  cases hfind : findByToken sha256 t.rows presentedToken with
  | none => exact Or.inl ⟨t, by simp [rotate, lookup, hempty, hfind], Grows.refl t⟩
  | some row =>
      cases hb : rotateBranch now row with
      | reuse =>
          refine Or.inl ⟨_, ?_, ages_apply (sameSession_revokeAllForUser row.userId row.role now) t⟩
          simp [rotate, lookup, update, hempty, hfind, hb]
      | reject => exact Or.inl ⟨t, by simp [rotate, lookup, hempty, hfind, hb], Grows.refl t⟩
      | exchange =>
          obtain ⟨hlive, hfresh⟩ := rotateBranch_eq_exchange.1 hb
          have hinsert : Grows (fun r => r.userId = row.userId ∧ r.role = row.role) t
              { rows := t.rows ++ [(successor sha256 ttlSeconds now newToken row).row t.nextId]
                nextId := t.nextId + 1 } := grows_insert t ⟨rfl, rfl⟩
          have hreplace := hinsert.ages (ages_apply (sameSession_replace row.id t.nextId now) _)
            fun r r' hsame hr => ⟨hsame.userId.trans hr.1, hsame.role.trans hr.2⟩
          by_cases hone : (replaceStmt row.id t.nextId now).affected
              (t.rows ++ [(successor sha256 ttlSeconds now newToken row).row t.nextId]) = 1
          · refine Or.inr ⟨row, _, rfl, hlive, hfresh, ?_, hreplace⟩
            simp [rotate, lookup, save, update, exec_transaction, hempty, hfind, hb, hone]
          · refine Or.inl ⟨{ t with nextId := t.nextId + 1 }, ?_, ?_⟩
            · simp [rotate, lookup, save, update, exec_transaction, hempty, hfind, hb, hone]
            · exact ⟨Nat.le_succ _, fun r hr => Or.inl ⟨r, hr, SameSession.refl r⟩⟩

end NestStarter.RefreshTokens
