import NestStarter.Core.ReadCommitted
import NestStarter.Domain

/-! # Refresh tokens: table, statements and service

The `refresh_tokens` table with the statements `RefreshTokenRepository` and
`RefreshTokenService` run against it, and the service methods with nobody else
at work. Opaque tokens are drawn by the caller of each method, and `sha256` is a
parameter: the service only compares digests.
-/

namespace NestStarter.RefreshTokens

open NestStarter.Core

structure RefreshTokenEntity where
  id : Nat
  tokenHash : String
  userId : Nat
  role : Role
  expiresAt : Instant
  revokedAt : Option Instant := none
  lastUsedAt : Option Instant := none
  replacedById : Option Nat := none
  deriving DecidableEq, Repr

instance : Keyed RefreshTokenEntity := ⟨RefreshTokenEntity.id⟩

@[simp] theorem key_eq_id (r : RefreshTokenEntity) : key r = r.id := rfl

structure NewToken where
  tokenHash : String
  userId : Nat
  role : Role
  expiresAt : Instant
  deriving DecidableEq, Repr

def NewToken.row (n : NewToken) (id : Nat) : RefreshTokenEntity :=
  { id, tokenHash := n.tokenHash, userId := n.userId, role := n.role, expiresAt := n.expiresAt }

@[simp] theorem NewToken.id_row (n : NewToken) (id : Nat) : (n.row id).id = id := rfl

@[simp] theorem NewToken.key_row (n : NewToken) (id : Nat) : key (n.row id) = id := rfl

def revokeStmt (id : Nat) (at_ : Instant) : Stmt RefreshTokenEntity where
  selects r := r.id == id
  write r := some { r with revokedAt := some at_ }
  key_write := by rintro r r' ⟨⟩; rfl

def revokeAllForUserStmt (userId : Nat) (role : Role) (at_ : Instant) :
    Stmt RefreshTokenEntity where
  selects r := r.userId == userId && r.role == role && r.revokedAt.isNone
  write r := some { r with revokedAt := some at_ }
  key_write := by rintro r r' ⟨⟩; rfl

def deleteExpiredBeforeStmt (now : Instant) : Stmt RefreshTokenEntity where
  selects r := decide (r.expiresAt < now)
  write _ := none
  key_write := by rintro r r' ⟨⟩

/-- The conditional update inside `rotate`'s transaction. -/
def replaceStmt (id savedId : Nat) (now : Instant) : Stmt RefreshTokenEntity where
  selects r := r.id == id && r.revokedAt.isNone
  write r := some { r with
    revokedAt := some now, replacedById := some savedId, lastUsedAt := some now }
  key_write := by rintro r r' ⟨⟩; rfl

def findByToken (sha256 : String → String) (rows : List RefreshTokenEntity) (plainToken : String) :
    Option RefreshTokenEntity :=
  rows.find? fun r => r.tokenHash == sha256 plainToken

def invalid : HttpException := ⟨.unauthorized, "auth.errors.invalid_token", []⟩

inductive RotateBranch where
  /-- The token was rotated before: revoke every session, then reject. -/
  | reuse
  | reject
  | exchange
  deriving DecidableEq, Repr

/-- The two tests of `rotate` on the looked-up row. A set `replacedById` is a
non-empty string, so it is truthy. -/
def rotateBranch (now : Instant) (row : RefreshTokenEntity) : RotateBranch :=
  if row.revokedAt.isSome && row.replacedById.isSome then .reuse
  else if row.revokedAt.isSome || decide (row.expiresAt ≤ now) then .reject
  else .exchange

def newExpiry (ttlSeconds : Nat) (now : Instant) : Instant := now + ttlSeconds * 1000

/-- The row `rotate` inserts: the digest of the new token, for the same principal. -/
def successor (sha256 : String → String) (ttlSeconds : Nat) (now : Instant) (newToken : String)
    (row : RefreshTokenEntity) : NewToken :=
  ⟨sha256 newToken, row.userId, row.role, newExpiry ttlSeconds now⟩

theorem rotateBranch_eq_exchange {now : Instant} {row : RefreshTokenEntity} :
    rotateBranch now row = .exchange ↔ row.revokedAt = none ∧ now < row.expiresAt := by
  unfold rotateBranch
  cases row.revokedAt <;> cases row.replacedById <;> simp

theorem rotateBranch_eq_reuse {now : Instant} {row : RefreshTokenEntity} :
    rotateBranch now row = .reuse ↔
      row.revokedAt.isSome = true ∧ row.replacedById.isSome = true := by
  unfold rotateBranch
  cases row.revokedAt <;> cases row.replacedById <;> simp <;> split <;> simp

/-! ## The service, one call at a time -/

structure TokenTable where
  rows : List RefreshTokenEntity := []
  nextId : Nat := 1
  deriving DecidableEq, Repr

structure RefreshTokenIssueResult where
  token : String
  expiresAt : Instant
  deriving DecidableEq, Repr

structure RefreshTokenRotateResult extends RefreshTokenIssueResult where
  userId : Nat
  role : Role
  deriving DecidableEq, Repr

abbrev TokenService (α : Type) := Service TokenTable α

def save (n : NewToken) : TokenService Nat :=
  Service.statement fun t =>
    (t.nextId, { rows := t.rows ++ [n.row t.nextId], nextId := t.nextId + 1 })

/-- Run an `UPDATE` or `DELETE`; returns the number of affected rows. -/
def update (q : Stmt RefreshTokenEntity) : TokenService Nat :=
  Service.statement fun t => (q.affected t.rows, { t with rows := q.apply t.rows })

/-- `dataSource.transaction`: a throw undoes what the callback wrote, except that
the sequence does not step back. -/
def transaction {α : Type} (body : TokenService α) : TokenService α :=
  ExceptT.mk fun t =>
    match Service.exec body t with
    | (.ok a, t') => (.ok a, t')
    | (.error e, t') => (.error e, { t with nextId := t'.nextId })

variable (sha256 : String → String) (ttlSeconds : Nat)

def issue (now : Instant) (token : String) (userId : Nat) (role : Role) :
    TokenService RefreshTokenIssueResult := do
  let expiresAt := newExpiry ttlSeconds now
  let _ ← save ⟨sha256 token, userId, role, expiresAt⟩
  return ⟨token, expiresAt⟩

def lookup (presentedToken : String) : TokenService RefreshTokenEntity := do
  if presentedToken.length = 0 then throw invalid
  let row ← Service.statement fun t => (findByToken sha256 t.rows presentedToken, t)
  match row with
  | none => throw invalid
  | some row => return row

def rotate (now : Instant) (newToken presentedToken : String) :
    TokenService RefreshTokenRotateResult := do
  let row ← lookup sha256 presentedToken
  match rotateBranch now row with
  | .reuse =>
      let _ ← update (revokeAllForUserStmt row.userId row.role now)
      throw invalid
  | .reject => throw invalid
  | .exchange =>
      transaction do
        let savedId ← save (successor sha256 ttlSeconds now newToken row)
        let affected ← update (replaceStmt row.id savedId now)
        if affected ≠ 1 then throw invalid
      return ⟨⟨newToken, newExpiry ttlSeconds now⟩, row.userId, row.role⟩

def revoke (now : Instant) (presentedToken : String) : TokenService Unit := do
  let row ← Service.statement fun t => (findByToken sha256 t.rows presentedToken, t)
  match row with
  | none => return
  | some row =>
      if row.revokedAt.isSome then return
      let _ ← update (revokeStmt row.id now)

def revokeAllForUser (now : Instant) (userId : Nat) (role : Role) : TokenService Unit := do
  let _ ← update (revokeAllForUserStmt userId role now)

def pruneExpiredTokens (now : Instant) : TokenService Unit := do
  let _ ← update (deleteExpiredBeforeStmt now)

end NestStarter.RefreshTokens
