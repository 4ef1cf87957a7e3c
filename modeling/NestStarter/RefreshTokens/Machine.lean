import NestStarter.Core.Machine
import NestStarter.RefreshTokens.Service

/-! # The refresh-token service under concurrency

Any number of clients, each running one service call after another. A client
stands at the database statement it is waiting for, or between a statement's
result and the code that uses it, so the clock and the other clients may move
at any `await`. An `UPDATE` or `DELETE` takes its candidates, visits them one at
a time and ends its transaction in separate steps.

Three fields of the shared state are history that no step reads except to keep
the drawn tokens distinct: every token ever inserted, the rows `issue`
committed, and the successful exchanges.
-/

namespace NestStarter.RefreshTokens

open NestStarter.Core

inductive Call where
  | issue (userId : Nat) (role : Role) (token : String)
  | rotate (presentedToken : String)
  | revoke (presentedToken : String)
  | revokeAllForUser (userId : Nat) (role : Role)
  | pruneExpiredTokens
  deriving DecidableEq, Repr

/-- A successful `rotate`: the token presented, the row it revoked and the row it
created. -/
structure Exchange where
  presentedToken : String
  oldId : Nat
  newId : Nat
  deriving DecidableEq, Repr

/-- The `UPDATE`s and `DELETE`s of the service. -/
inductive StmtName where
  | revoke (id : Nat) (at_ : Instant)
  | revokeAllForUser (userId : Nat) (role : Role) (at_ : Instant)
  | deleteExpiredBefore (now : Instant)
  | replace (id savedId : Nat) (now : Instant)
  deriving DecidableEq, Repr

def StmtName.stmt : StmtName → Stmt RefreshTokenEntity
  | .revoke id at_ => revokeStmt id at_
  | .revokeAllForUser userId role at_ => revokeAllForUserStmt userId role at_
  | .deleteExpiredBefore now => deleteExpiredBeforeStmt now
  | .replace id savedId now => replaceStmt id savedId now

/-- What follows an `UPDATE` or `DELETE`. -/
inductive Next where
  /-- It was a transaction of its own, and the call ends when it has committed. -/
  | commit
  /-- It was the conditional update of `rotate`: commit if it affected one row,
  roll back and throw otherwise. -/
  | commitIfOne (presentedToken : String) (oldId newId : Nat)
  deriving DecidableEq, Repr

inductive Pc where
  | idle
  /-- `issue`, before its `INSERT`. -/
  | insert (token : NewToken)
  /-- `rotate` (`true`) or `revoke` (`false`), before the lookup. -/
  | find (rotating : Bool) (presentedToken : String)
  /-- The lookup has returned. -/
  | found (rotating : Bool) (presentedToken : String) (row : Option RefreshTokenEntity)
  /-- `rotate`, in its transaction, before the `INSERT`. -/
  | replaceInsert (presentedToken : String) (row : RefreshTokenEntity) (token : NewToken)
      (now : Instant)
  /-- Before an `UPDATE` or `DELETE`. -/
  | update (q : StmtName) (next : Next)
  /-- Inside an `UPDATE` or `DELETE`, with the candidates it has yet to visit. -/
  | scan (q : StmtName) (todo : List Nat) (next : Next)
  deriving DecidableEq, Repr

structure Local where
  pc : Pc := .idle
  txn : Txn RefreshTokenEntity := {}

/-- The principal and digest a token was inserted with, under its row's key. -/
structure Minted where
  id : Nat
  tokenHash : String
  userId : Nat
  role : Role
  deriving DecidableEq, Repr

structure Shared where
  db : Db RefreshTokenEntity := {}
  now : Instant := 0
  minted : List Minted := []
  issued : List Nat := []
  exchanges : List Exchange := []

abbrev State := Pool Shared Local

inductive Action where
  /-- The clock moves on. -/
  | tick (d : Nat)
  | call (k : Call)
  /-- The awaited `INSERT` or `SELECT` takes place. -/
  | exec
  /-- The code after a lookup runs; `rotate` draws its new token here. -/
  | resume (newToken : String)
  /-- The awaited `UPDATE` or `DELETE` takes its candidates. -/
  | start
  | visit (k : Nat)
  /-- The statement has visited its candidates, and its transaction ends. -/
  | finish
  deriving DecidableEq, Repr

def Shared.mint (sh : Shared) (n : NewToken) : List Minted :=
  ⟨sh.db.nextId, n.tokenHash, n.userId, n.role⟩ :: sh.minted

/-- Tokens and digests are pairwise distinct: an insert never repeats a digest. -/
def Shared.Distinct (sh : Shared) (n : NewToken) : Prop :=
  n.tokenHash ∉ sh.minted.map Minted.tokenHash

instance (sh : Shared) (n : NewToken) : Decidable (sh.Distinct n) := by
  unfold Shared.Distinct; infer_instance

variable (sha256 : String → String) (ttlSeconds : Nat)

def begin (now : Instant) : Call → Pc
  | .issue userId role token => .insert ⟨sha256 token, userId, role, newExpiry ttlSeconds now⟩
  | .rotate presentedToken => if presentedToken.length = 0 then .idle else .find true presentedToken
  | .revoke presentedToken => .find false presentedToken
  | .revokeAllForUser userId role => .update (.revokeAllForUser userId role now) .commit
  | .pruneExpiredTokens => .update (.deleteExpiredBefore now) .commit

def afterFind (now : Instant) (newToken : String) :
    Bool → String → Option RefreshTokenEntity → Pc
  | _, _, none => .idle
  | false, _, some row =>
      if row.revokedAt.isSome then .idle else .update (.revoke row.id now) .commit
  | true, presentedToken, some row =>
      match rotateBranch now row with
      | .reuse => .update (.revokeAllForUser row.userId row.role now) .commit
      | .reject => .idle
      | .exchange =>
          .replaceInsert presentedToken row (successor sha256 ttlSeconds now newToken row) now

def move (c : Nat) (sh : Shared) (lo : Local) : Action → Option (Shared × Local)
  | .tick d => some ({ sh with now := sh.now + d }, lo)
  | .call k =>
      match lo.pc with
      | .idle => some (sh, { lo with pc := begin sha256 ttlSeconds sh.now k })
      | _ => none
  | .exec =>
      match lo.pc with
      | .insert n =>
          if sh.Distinct n then
            some ({ sh with
              db := sh.db.append n.row
              minted := sh.mint n
              issued := sh.db.nextId :: sh.issued }, { lo with pc := .idle })
          else none
      | .find rotating presentedToken =>
          some (sh, { lo with
            pc := .found rotating presentedToken (findByToken sha256 sh.db.rows presentedToken) })
      | .replaceInsert presentedToken row n now =>
          if sh.Distinct n then
            some ({ sh with db := (sh.db.insert c lo.txn n.row).1, minted := sh.mint n },
              ⟨.update (.replace row.id sh.db.nextId now)
                (.commitIfOne presentedToken row.id sh.db.nextId),
                (sh.db.insert c lo.txn n.row).2⟩)
          else none
      | _ => none
  | .resume newToken =>
      match lo.pc with
      | .found rotating presentedToken row =>
          some (sh, { lo with
            pc := afterFind sha256 ttlSeconds sh.now newToken rotating presentedToken row })
      | _ => none
  | .start =>
      match lo.pc with
      | .update q next => some (sh, { lo with pc := .scan q (sh.db.candidates lo.txn q.stmt) next })
      | _ => none
  | .visit k =>
      match lo.pc with
      | .scan q todo next =>
          if k ∈ todo then
            (sh.db.visit c lo.txn q.stmt k).map fun r =>
              ({ sh with db := r.1 }, ⟨.scan q (todo.erase k) next, r.2⟩)
          else none
      | _ => none
  | .finish =>
      match lo.pc with
      | .scan _ [] .commit => some ({ sh with db := sh.db.commit c lo.txn }, {})
      | .scan _ [] (.commitIfOne presentedToken oldId newId) =>
          if lo.txn.writes.length = 1 then
            some ({ sh with
              db := sh.db.commit c lo.txn
              exchanges := ⟨presentedToken, oldId, newId⟩ :: sh.exchanges }, {})
          else some ({ sh with db := sh.db.rollback c }, {})
      | _ => none

inductive Moves (c : Nat) : Shared → Local → Action → Shared → Local → Prop where
  | tick (sh : Shared) (lo : Local) (d : Nat) :
      Moves c sh lo (.tick d) { sh with now := sh.now + d } lo
  | call (sh : Shared) (txn : Txn RefreshTokenEntity) (k : Call) :
      Moves c sh ⟨.idle, txn⟩ (.call k) sh ⟨begin sha256 ttlSeconds sh.now k, txn⟩
  | insert (sh : Shared) (txn : Txn RefreshTokenEntity) (n : NewToken) (hn : sh.Distinct n) :
      Moves c sh ⟨.insert n, txn⟩ .exec
        { sh with
          db := sh.db.append n.row
          minted := sh.mint n
          issued := sh.db.nextId :: sh.issued } ⟨.idle, txn⟩
  | find (sh : Shared) (txn : Txn RefreshTokenEntity) (rotating : Bool) (tok : String) :
      Moves c sh ⟨.find rotating tok, txn⟩ .exec sh
        ⟨.found rotating tok (findByToken sha256 sh.db.rows tok), txn⟩
  | replaceInsert (sh : Shared) (txn : Txn RefreshTokenEntity) (tok : String)
      (row : RefreshTokenEntity) (n : NewToken) (now : Instant) (hn : sh.Distinct n) :
      Moves c sh ⟨.replaceInsert tok row n now, txn⟩ .exec
        { sh with db := (sh.db.insert c txn n.row).1, minted := sh.mint n }
        ⟨.update (.replace row.id sh.db.nextId now) (.commitIfOne tok row.id sh.db.nextId),
          (sh.db.insert c txn n.row).2⟩
  | resume (sh : Shared) (txn : Txn RefreshTokenEntity) (rotating : Bool) (tok newToken : String)
      (row : Option RefreshTokenEntity) :
      Moves c sh ⟨.found rotating tok row, txn⟩ (.resume newToken) sh
        ⟨afterFind sha256 ttlSeconds sh.now newToken rotating tok row, txn⟩
  | start (sh : Shared) (txn : Txn RefreshTokenEntity) (q : StmtName) (next : Next) :
      Moves c sh ⟨.update q next, txn⟩ .start sh ⟨.scan q (sh.db.candidates txn q.stmt) next, txn⟩
  | visit (sh : Shared) (txn txn' : Txn RefreshTokenEntity) (db : Db RefreshTokenEntity)
      (q : StmtName) (todo : List Nat) (next : Next) (k : Nat) (hk : k ∈ todo)
      (hv : sh.db.visit c txn q.stmt k = some (db, txn')) :
      Moves c sh ⟨.scan q todo next, txn⟩ (.visit k) { sh with db }
        ⟨.scan q (todo.erase k) next, txn'⟩
  | commit (sh : Shared) (txn : Txn RefreshTokenEntity) (q : StmtName) :
      Moves c sh ⟨.scan q [] .commit, txn⟩ .finish { sh with db := sh.db.commit c txn } {}
  | exchange (sh : Shared) (txn : Txn RefreshTokenEntity) (q : StmtName) (tok : String)
      (oldId newId : Nat) (hone : txn.writes.length = 1) :
      Moves c sh ⟨.scan q [] (.commitIfOne tok oldId newId), txn⟩ .finish
        { sh with
          db := sh.db.commit c txn
          exchanges := ⟨tok, oldId, newId⟩ :: sh.exchanges } {}
  | rollback (sh : Shared) (txn : Txn RefreshTokenEntity) (q : StmtName) (tok : String)
      (oldId newId : Nat) (hone : txn.writes.length ≠ 1) :
      Moves c sh ⟨.scan q [] (.commitIfOne tok oldId newId), txn⟩ .finish
        { sh with db := sh.db.rollback c } {}

variable {sha256 ttlSeconds} in
theorem move_spec {c : Nat} {sh sh' : Shared} {lo lo' : Local} {a : Action}
    (h : move sha256 ttlSeconds c sh lo a = some (sh', lo')) :
    Moves sha256 ttlSeconds c sh lo a sh' lo' := by
  obtain ⟨pc, txn⟩ := lo
  cases a with
  | tick d =>
      cases h
      exact .tick ..
  | call k =>
      cases pc <;> cases h
      exact .call ..
  | exec =>
      cases pc with
      | insert n =>
          by_cases hn : sh.Distinct n
          · simp only [move, if_pos hn, Option.some.injEq, Prod.mk.injEq] at h
            obtain ⟨rfl, rfl⟩ := h
            exact .insert _ _ _ hn
          · simp [move, hn] at h
      | find rotating tok =>
          cases h
          exact .find ..
      | replaceInsert tok row n now =>
          by_cases hn : sh.Distinct n
          · simp only [move, if_pos hn, Option.some.injEq, Prod.mk.injEq] at h
            obtain ⟨rfl, rfl⟩ := h
            exact .replaceInsert _ _ _ _ _ _ hn
          · simp [move, hn] at h
      | _ => cases h
  | resume newToken =>
      cases pc <;> cases h
      exact .resume ..
  | start =>
      cases pc <;> cases h
      exact .start ..
  | visit k =>
      cases pc with
      | scan q todo next =>
          by_cases hk : k ∈ todo
          · simp only [move, if_pos hk] at h
            obtain ⟨⟨db, txn'⟩, hv, he⟩ := Option.map_eq_some_iff.1 h
            cases he
            exact .visit _ _ _ _ _ _ _ _ hk hv
          · simp [move, hk] at h
      | _ => cases h
  | finish =>
      cases pc with
      | scan q todo next =>
          cases todo with
          | cons k todo => cases next <;> cases h
          | nil =>
              cases next with
              | commit =>
                  cases h
                  exact .commit ..
              | commitIfOne tok oldId newId =>
                  by_cases hone : txn.writes.length = 1
                  · simp only [move, if_pos hone, Option.some.injEq, Prod.mk.injEq] at h
                    obtain ⟨rfl, rfl⟩ := h
                    exact .exchange _ _ _ _ _ _ hone
                  · simp only [move, if_neg hone, Option.some.injEq, Prod.mk.injEq] at h
                    obtain ⟨rfl, rfl⟩ := h
                    exact .rollback _ _ _ _ _ _ hone
      | _ => cases h

def initial (now : Instant) : State := ⟨{ now }, fun _ => {}⟩

def step : State → Nat × Action → Option State := Pool.step (move sha256 ttlSeconds)

end NestStarter.RefreshTokens
