import NestStarter.RefreshTokens.Sweep
import NestStarter.Sessions.Admins

/-! # Logins while credentials change

`AdminAuthService.login` and the `AdminService.updateMe` calls that change a username or
a password, interleaved. A login reads the row, compares the password, which takes long,
and issues a session; `updateMe` reads the row, verifies, saves and revokes all sessions.
The sessions are the rows of the refresh-token machine, whose clients are these clients.

`verified` is for the record: what the login that inserted a row had verified.
-/

namespace NestStarter.Sessions.CredentialChange

open NestStarter.Core Accounts
open RefreshTokens (RefreshTokenEntity NewToken begin revokeAllForUserStmt Invoked Live
  ChainOk PcOk StmtOk StmtName)

structure Credentials where
  username : String
  password : String
  deriving DecidableEq, Repr

inductive Call where
  | login (credentials : Credentials) (token : String)
  | updateMe (id : Nat) (dto : UpdateMeDto)
  deriving DecidableEq, Repr

inductive Pc where
  | idle
  | findByUsername (credentials : Credentials) (token : String)
  | checkPassword (credentials : Credentials) (token : String) (admin : AdminEntity)
  /-- The password matched; inside `RefreshTokenService.issue`. -/
  | issue (credentials : Credentials) (admin : AdminEntity)
  | findByIdWithPassword (id : Nat) (dto : UpdateMeDto)
  | checkCurrentPassword (dto : UpdateMeDto) (current : AdminEntity)
  /-- Before `findByUsername` of the new name. -/
  | findTaken (dto : UpdateMeDto) (current : AdminEntity)
  /-- The changes are merged; before the read of `save`. -/
  | save (user : AdminEntity)
  /-- `save` has read the row, and the hook hashes the password. -/
  | hash (user reread : AdminEntity)
  | update (user reread : AdminEntity)
  | revokeAllForUser (id : Nat)
  | invalidateAuthCache
  deriving DecidableEq, Repr

structure Client where
  pc : Pc := .idle
  tokens : RefreshTokens.Local := {}

structure Shared where
  admins : AdminTable
  tokens : RefreshTokens.Shared := {}
  verified : Nat → Option Credentials := fun _ => none

abbrev State := Pool Shared Client

inductive Action where
  | tick (d : Nat)
  | call (k : Call)
  /-- The awaited step takes place. -/
  | exec
  /-- The hook has its hash. -/
  | hashed (salt : String)
  /-- `issue`'s `INSERT`. -/
  | insert
  /-- The steps of the `UPDATE` of `revokeAllForUser`. -/
  | start
  | visit (k : Nat)
  | finish
  deriving DecidableEq, Repr

/-- What an `UPDATE` leaves in a column. -/
def pick {α : Type} [DecidableEq α] (row reread user : α) : α := if user = reread then row else user

/-- The `UPDATE` of the columns in which the entity differs from the row as `save` read it.
That read leaves out the password, which is always among them. -/
def updateColumns (row reread user : AdminEntity) (now : Instant) : AdminEntity :=
  { row with
    createdAt := pick row.createdAt reread.createdAt user.createdAt
    updatedAt := if user.updatedAt = reread.updatedAt then now else user.updatedAt
    isActive := pick row.isActive reread.isActive user.isActive
    password := user.password
    passwordChangedAt := pick row.passwordChangedAt reread.passwordChangedAt user.passwordChangedAt
    username := pick row.username reread.username user.username
    firstName := pick row.firstName reread.firstName user.firstName
    lastName := pick row.lastName reread.lastName user.lastName
    phone := pick row.phone reread.phone user.phone
    photoKey := pick row.photoKey reread.photoKey user.photoKey }

def updateAdmin (t : AdminTable) (user reread : AdminEntity) (now : Instant) : AdminTable where
  rows := t.rows.map fun row =>
    if row.id = user.id then updateColumns row reread user now else row
  nodup := by
    have hid : ∀ row ∈ t.rows, ((fun a : AdminEntity => a.id) ∘ fun row : AdminEntity =>
        if row.id = user.id then updateColumns row reread user now else row) row = row.id := by
      intro row _
      simp only [Function.comp_apply]
      split <;> rfl
    rw [List.map_map, List.map_congr_left hid]
    exact t.nodup

variable (env : Env) (hashPassword : String → String → String)

/-- A step of the client on the refresh-token machine. -/
def tokenMove (c : Nat) (sh : Shared) (lo : Client) (a : RefreshTokens.Action) :
    Option (RefreshTokens.Shared × RefreshTokens.Local) :=
  RefreshTokens.move env.sha256 env.refreshTtlSeconds c sh.tokens lo.tokens a

def move (c : Nat) (sh : Shared) (lo : Client) : Action → Option (Shared × Client)
  | .tick d => some ({ sh with tokens := { sh.tokens with now := sh.tokens.now + d } }, lo)
  | .call k =>
      match lo.pc, k with
      | .idle, .login credentials token =>
          some (sh, { lo with pc := .findByUsername credentials token })
      | .idle, .updateMe id dto =>
          if dto.isChangingCredentials then
            some (sh, { lo with pc := .findByIdWithPassword id dto })
          else none
      | _, _ => none
  | .exec =>
      match lo.pc with
      | .findByUsername credentials token =>
          match sh.admins.findByUsername credentials.username with
          -- the comparison with the dummy hash, and the throw
          | none => some (sh, { lo with pc := .idle })
          | some admin => some (sh, { lo with pc := .checkPassword credentials token admin })
      | .checkPassword credentials token admin =>
          if env.comparePassword credentials.password admin.password then
            (tokenMove env c sh lo (.call (.issue admin.id .admin token))).map fun r =>
              ({ sh with tokens := r.1 }, ⟨.issue credentials admin, r.2⟩)
          else some (sh, { lo with pc := .idle })
      | .findByIdWithPassword id dto =>
          match sh.admins.findById id with
          | none => some (sh, { lo with pc := .idle })
          | some current => some (sh, { lo with pc := .checkCurrentPassword dto current })
      | .checkCurrentPassword dto current =>
          match verifyCurrentPassword env dto current with
          | .error _ => some (sh, { lo with pc := .idle })
          | .ok _ =>
              if dto.username.getD current.username = current.username then
                some (sh, { lo with pc := .save (current.merge dto) })
              else some (sh, { lo with pc := .findTaken dto current })
      | .findTaken dto current =>
          match checkUsername sh.admins dto current with
          | .error _ => some (sh, { lo with pc := .idle })
          | .ok _ => some (sh, { lo with pc := .save (current.merge dto) })
      | .save user =>
          some (sh, { lo with pc := .hash user ((sh.admins.findById user.id).getD user) })
      | .update user reread =>
          let admins := updateAdmin sh.admins user reread sh.tokens.now
          -- the index on `username` is unique
          if (admins.rows.map AdminEntity.username).Nodup then
            (tokenMove env c sh lo (.call (.revokeAllForUser user.id .admin))).map fun r =>
              ({ sh with admins, tokens := r.1 }, ⟨.revokeAllForUser user.id, r.2⟩)
          else some (sh, { lo with pc := .idle })
      | .invalidateAuthCache => some (sh, { lo with pc := .idle })
      | _ => none
  | .hashed salt =>
      match lo.pc with
      | .hash user reread =>
          let user := user.hashPasswordOnSave hashPassword sh.tokens.now salt
          some (sh, { lo with pc := .update user reread })
      | _ => none
  | .insert =>
      match lo.pc with
      | .issue credentials _ =>
          (tokenMove env c sh lo .exec).map fun r =>
            ({ sh with
              tokens := r.1
              verified := Function.update sh.verified sh.tokens.db.nextId (some credentials) },
              ⟨.idle, r.2⟩)
      | _ => none
  | .start =>
      match lo.pc with
      | .revokeAllForUser id => (tokenMove env c sh lo .start).map fun r =>
          ({ sh with tokens := r.1 }, ⟨.revokeAllForUser id, r.2⟩)
      | _ => none
  | .visit k =>
      match lo.pc with
      | .revokeAllForUser id => (tokenMove env c sh lo (.visit k)).map fun r =>
          ({ sh with tokens := r.1 }, ⟨.revokeAllForUser id, r.2⟩)
      | _ => none
  | .finish =>
      match lo.pc with
      | .revokeAllForUser _ => (tokenMove env c sh lo .finish).map fun r =>
          ({ sh with tokens := r.1 }, ⟨.invalidateAuthCache, r.2⟩)
      | _ => none

def initial (admins : AdminTable) (now : Instant) : State :=
  ⟨{ admins, tokens := { now } }, fun _ => {}⟩

def step : State → Nat × Action → Option State := Pool.step (move env hashPassword)

/-! ## Every way a step can go -/

/-- Between its own calls of the refresh-token service a client is idle there. -/
def Sync (lo : Client) : Prop :=
  match lo.pc with
  | .issue _ admin => ∃ n, lo.tokens.pc = .insert n ∧ n.userId = admin.id ∧ n.role = .admin
  | .revokeAllForUser id =>
      ∃ at_, lo.tokens.pc = .update (.revokeAllForUser id .admin at_) .commit ∨
        ∃ todo, lo.tokens.pc = .scan (.revokeAllForUser id .admin at_) todo .commit
  | _ => lo.tokens.pc = .idle

inductive Moves (c : Nat) : Shared → Client → Action → Shared → Client → Prop where
  | tick (sh : Shared) (lo : Client) (d : Nat) :
      Moves c sh lo (.tick d) { sh with tokens := { sh.tokens with now := sh.tokens.now + d } } lo
  /-- Code that writes no row. -/
  | code (sh : Shared) (txn : Txn RefreshTokenEntity) (pc pc' : Pc) (a : Action)
      (hsync : Sync ⟨pc', ⟨.idle, txn⟩⟩) :
      Moves c sh ⟨pc, ⟨.idle, txn⟩⟩ a sh ⟨pc', ⟨.idle, txn⟩⟩
  | verified (sh : Shared) (txn : Txn RefreshTokenEntity) (credentials : Credentials)
      (token : String) (admin : AdminEntity) :
      Moves c sh ⟨.checkPassword credentials token admin, ⟨.idle, txn⟩⟩ .exec sh
        ⟨.issue credentials admin, ⟨begin env.sha256 env.refreshTtlSeconds sh.tokens.now
          (.issue admin.id .admin token), txn⟩⟩
  | insert (sh : Shared) (txn : Txn RefreshTokenEntity) (credentials : Credentials)
      (admin : AdminEntity) (n : NewToken) (hid : n.userId = admin.id) (hrole : n.role = .admin)
      (hn : sh.tokens.Distinct n) :
      Moves c sh ⟨.issue credentials admin, ⟨.insert n, txn⟩⟩ .insert
        { sh with
          tokens := { sh.tokens with
            db := sh.tokens.db.append n.row
            minted := sh.tokens.mint n
            issued := sh.tokens.db.nextId :: sh.tokens.issued }
          verified := Function.update sh.verified sh.tokens.db.nextId (some credentials) }
        ⟨.idle, ⟨.idle, txn⟩⟩
  | update (sh : Shared) (txn : Txn RefreshTokenEntity) (user reread : AdminEntity) :
      Moves c sh ⟨.update user reread, ⟨.idle, txn⟩⟩ .exec
        { sh with admins := updateAdmin sh.admins user reread sh.tokens.now }
        ⟨.revokeAllForUser user.id,
          ⟨.update (.revokeAllForUser user.id .admin sh.tokens.now) .commit, txn⟩⟩
  | start (sh : Shared) (txn : Txn RefreshTokenEntity) (id : Nat) (at_ : Instant) :
      Moves c sh ⟨.revokeAllForUser id, ⟨.update (.revokeAllForUser id .admin at_) .commit, txn⟩⟩
        .start sh ⟨.revokeAllForUser id, ⟨.scan (.revokeAllForUser id .admin at_)
          (sh.tokens.db.candidates txn (revokeAllForUserStmt id .admin at_)) .commit, txn⟩⟩
  | visit (sh : Shared) (txn txn' : Txn RefreshTokenEntity) (db : Db RefreshTokenEntity) (id : Nat)
      (at_ : Instant) (todo : List Nat) (k : Nat) (hk : k ∈ todo)
      (hv : sh.tokens.db.visit c txn (revokeAllForUserStmt id .admin at_) k = some (db, txn')) :
      Moves c sh ⟨.revokeAllForUser id, ⟨.scan (.revokeAllForUser id .admin at_) todo .commit, txn⟩⟩
        (.visit k) { sh with tokens := { sh.tokens with db } } ⟨.revokeAllForUser id,
          ⟨.scan (.revokeAllForUser id .admin at_) (todo.erase k) .commit, txn'⟩⟩
  | finish (sh : Shared) (txn : Txn RefreshTokenEntity) (id : Nat) (at_ : Instant) :
      Moves c sh ⟨.revokeAllForUser id, ⟨.scan (.revokeAllForUser id .admin at_) [] .commit, txn⟩⟩
        .finish { sh with tokens := { sh.tokens with db := sh.tokens.db.commit c txn } }
        ⟨.invalidateAuthCache, {}⟩

variable {env hashPassword} {c : Nat} {sh sh' : Shared} {lo lo' : Client} {a : Action}

theorem Sync.revokeAllForUser {id : Nat} {tokens : RefreshTokens.Local}
    (h : Sync ⟨.revokeAllForUser id, tokens⟩) :
    ∃ at_, tokens.pc = .update (.revokeAllForUser id .admin at_) .commit ∨
      ∃ todo, tokens.pc = .scan (.revokeAllForUser id .admin at_) todo .commit := h

theorem tokenMove_spec {b : RefreshTokens.Action} {r : Shared × Client}
    {after : RefreshTokens.Shared × RefreshTokens.Local → Shared × Client}
    (h : (tokenMove env c sh lo b).map after = some r) :
    ∃ tokens local', RefreshTokens.Moves env.sha256 env.refreshTtlSeconds c sh.tokens lo.tokens b
      tokens local' ∧ after (tokens, local') = r := by
  obtain ⟨⟨tokens, local'⟩, htoken, hafter⟩ := Option.map_eq_some_iff.1 h
  exact ⟨tokens, local', RefreshTokens.move_spec htoken, hafter⟩

/-- The awaited steps, but for those of the refresh-token service. -/
theorem exec_spec (hsync : Sync lo) (h : move env hashPassword c sh lo .exec = some (sh', lo')) :
    Moves env c sh lo .exec sh' lo' := by
  obtain ⟨pc, ⟨tpc, txn⟩⟩ := lo
  cases pc with
  | findByUsername credentials token =>
      obtain rfl : tpc = .idle := hsync
      simp only [move] at h
      split at h <;> cases h <;> exact .code _ _ _ _ _ rfl
  | checkPassword credentials token admin =>
      obtain rfl : tpc = .idle := hsync
      simp only [move] at h
      split at h
      · cases h
        exact .verified ..
      · cases h
        exact .code _ _ _ _ _ rfl
  | findByIdWithPassword id dto =>
      obtain rfl : tpc = .idle := hsync
      simp only [move] at h
      split at h <;> cases h <;> exact .code _ _ _ _ _ rfl
  | checkCurrentPassword dto current =>
      obtain rfl : tpc = .idle := hsync
      simp only [move] at h
      split at h
      · cases h
        exact .code _ _ _ _ _ rfl
      · split at h <;> cases h <;> exact .code _ _ _ _ _ rfl
  | findTaken dto current =>
      obtain rfl : tpc = .idle := hsync
      simp only [move] at h
      split at h <;> cases h <;> exact .code _ _ _ _ _ rfl
  | save user =>
      obtain rfl : tpc = .idle := hsync
      cases h
      exact .code _ _ _ _ _ rfl
  | update user reread =>
      obtain rfl : tpc = .idle := hsync
      simp only [move] at h
      split at h
      · cases h
        exact .update ..
      · cases h
        exact .code _ _ _ _ _ rfl
  | invalidateAuthCache =>
      obtain rfl : tpc = .idle := hsync
      cases h
      exact .code _ _ _ _ _ rfl
  | _ => cases h

theorem move_spec (hsync : Sync lo) (h : move env hashPassword c sh lo a = some (sh', lo')) :
    Moves env c sh lo a sh' lo' := by
  obtain ⟨pc, ⟨tpc, txn⟩⟩ := lo
  cases a with
  | tick d =>
      cases h
      exact .tick ..
  | call k =>
      cases pc with
      | idle =>
          obtain rfl : tpc = .idle := hsync
          cases k with
          | login credentials token =>
              cases h
              exact .code _ _ _ _ _ rfl
          | updateMe id dto =>
              simp only [move] at h
              split at h
              · cases h
                exact .code _ _ _ _ _ rfl
              · cases h
      | _ => cases k <;> cases h
  | exec => exact exec_spec hsync h
  | hashed salt =>
      cases pc with
      | hash user reread =>
          obtain rfl : tpc = .idle := hsync
          cases h
          exact .code _ _ _ _ _ rfl
      | _ => cases h
  | insert =>
      cases pc with
      | issue credentials admin =>
          obtain ⟨n, rfl, hid, hrole⟩ : ∃ n, tpc = .insert n ∧ n.userId = admin.id ∧
            n.role = .admin := hsync
          obtain ⟨_, _, hm, he⟩ := tokenMove_spec h
          cases he
          cases hm with
          | insert _ _ hn => exact .insert _ _ _ _ _ hid hrole hn
      | _ => cases h
  | start =>
      cases pc with
      | revokeAllForUser id =>
          obtain ⟨_, _, hm, he⟩ := tokenMove_spec h
          cases he
          rcases hsync.revokeAllForUser with ⟨at_, rfl | ⟨todo, rfl⟩⟩
          · cases hm
            exact .start ..
          · cases hm
      | _ => cases h
  | visit k =>
      cases pc with
      | revokeAllForUser id =>
          obtain ⟨_, _, hm, he⟩ := tokenMove_spec h
          cases he
          rcases hsync.revokeAllForUser with ⟨at_, rfl | ⟨todo, rfl⟩⟩
          · cases hm
          · cases hm with
            | visit _ txn' db _ _ _ _ hk hv => exact .visit _ _ _ _ _ _ _ _ hk hv
      | _ => cases h
  | finish =>
      cases pc with
      | revokeAllForUser id =>
          obtain ⟨_, _, hm, he⟩ := tokenMove_spec h
          cases he
          rcases hsync.revokeAllForUser with ⟨at_, rfl | ⟨todo, rfl⟩⟩
          · cases hm
          · cases hm
            exact .finish ..
      | _ => cases h

/-! ## Sessions of the stored credentials -/

def Stored (env : Env) (admins : AdminTable) (id : Nat) (credentials : Credentials) : Prop :=
  ∃ row ∈ admins.rows, row.id = id ∧ row.username = credentials.username ∧
    env.comparePassword credentials.password row.password = true

instance (admins : AdminTable) (id : Nat) (credentials : Credentials) :
    Decidable (Stored env admins id credentials) := by
  unfold Stored; infer_instance

def Active (now : Instant) (r : RefreshTokenEntity) : Prop :=
  r.role = .admin ∧ r.revokedAt = none ∧ now < r.expiresAt

instance (now : Instant) (r : RefreshTokenEntity) : Decidable (Active now r) := by
  unfold Active; infer_instance

/-- The login that issued the session had verified the credentials now stored. -/
def OfStored (env : Env) (sh : Shared) (r : RefreshTokenEntity) : Prop :=
  ∃ credentials ∈ sh.verified r.id, Stored env sh.admins r.userId credentials

instance (r : RefreshTokenEntity) : Decidable (OfStored env sh r) := by
  unfold OfStored; infer_instance

/-- The login that is to insert its session: what it has verified, and of whom. -/
def Pc.issuing : Pc → Option (Credentials × AdminEntity)
  | .issue credentials admin => some (credentials, admin)
  | _ => none

/-- When a login inserts its session, what it has verified is still stored, or the change
has yet to start revoking. -/
def Timely (env : Env) (s : State) (a : Nat × Action) : Prop :=
  ∀ p ∈ (s.client a.1).pc.issuing, a.2 = .insert →
    Stored env s.shared.admins p.2.id p.1 ∨ ∃ c, Invoked p.2.id .admin (s.client c).tokens

/-- The client's sweep is to revoke the row: it has not started, has yet to visit the row,
or has locked it. -/
def Revoking (r : RefreshTokenEntity) (lo : RefreshTokens.Local) : Prop :=
  match lo.pc with
  | .update (.revokeAllForUser userId role _) .commit => userId = r.userId ∧ role = r.role
  | .scan (.revokeAllForUser userId role _) todo .commit =>
      userId = r.userId ∧ role = r.role ∧ (r.id ∈ todo ∨ r.id ∈ lo.txn.writes.map Prod.fst)
  | _ => False

/-- What holds of every row that is not revoked. -/
def Covered (env : Env) (s : State) (r : RefreshTokenEntity) : Prop :=
  OfStored env s.shared r ∨ ∃ c, Revoking r (s.client c).tokens

structure Inv (env : Env) (s : State) : Prop where
  clients : Pool.Holds (fun sh => ChainOk env.sha256 sh.tokens)
    (fun c sh lo => PcOk env.sha256 c sh.tokens lo.tokens ∧ Sync lo) s
  sessions : ∀ r ∈ s.shared.tokens.db.rows, r.role = .admin → r.revokedAt = none → Covered env s r

theorem Moves.tokens (hm : Moves env c sh lo a sh' lo') :
    (sh'.tokens = sh.tokens ∧ lo'.tokens = lo.tokens) ∨
      ∃ b, RefreshTokens.Moves env.sha256 env.refreshTtlSeconds c sh.tokens lo.tokens b
        sh'.tokens lo'.tokens := by
  cases hm with
  | tick d => exact Or.inr ⟨_, .tick ..⟩
  | code txn pc pc' _ hsync => exact Or.inl ⟨rfl, rfl⟩
  | verified txn credentials token admin => exact Or.inr ⟨_, .call ..⟩
  | insert txn credentials admin n hid hrole hn => exact Or.inr ⟨_, .insert _ _ _ hn⟩
  | update txn user reread => exact Or.inr ⟨_, .call _ _ (.revokeAllForUser user.id .admin)⟩
  | start txn id at_ => exact Or.inr ⟨_, .start ..⟩
  | visit txn txn' db id at_ todo k hk hv => exact Or.inr ⟨_, .visit _ _ _ _ _ _ _ _ hk hv⟩
  | finish txn id at_ => exact Or.inr ⟨_, .commit ..⟩

theorem Moves.sync (hm : Moves env c sh lo a sh' lo') (h : Sync lo) : Sync lo' := by
  cases hm with
  | tick d => exact h
  | code txn pc pc' _ hsync => exact hsync
  | verified txn credentials token admin => exact ⟨_, rfl, rfl, rfl⟩
  | insert txn credentials admin n hid hrole hn => rfl
  | update txn user reread => exact ⟨_, Or.inl rfl⟩
  | start txn id at_ => exact ⟨_, Or.inr ⟨_, rfl⟩⟩
  | visit txn txn' db id at_ todo k hk hv => exact ⟨_, Or.inr ⟨_, rfl⟩⟩
  | finish txn id at_ => rfl

theorem Inv.clients_step {s : State} (h : Inv env s)
    (hm : Moves env c s.shared (s.client c) a sh' lo') :
    Pool.Holds (fun sh => ChainOk env.sha256 sh.tokens)
      (fun c sh lo => PcOk env.sha256 c sh.tokens lo.tokens ∧ Sync lo)
      ⟨sh', Function.update s.client c lo'⟩ := by
  have hsync := hm.sync (h.clients.client c).2
  rcases hm.tokens with ⟨hsh, hlo⟩ | ⟨b, htokens⟩
  · refine Pool.Holds.move ?_ ?_ fun d _ => ?_
    · rw [hsh]
      exact h.clients.shared
    · rw [hsh, hlo]
      exact ⟨(h.clients.client c).1, hsync⟩
    · rw [hsh]
      exact h.clients.client d
  · have hchain := htokens.chain h.clients.shared (h.clients.client c).1
    refine Pool.Holds.move hchain.1 ⟨hchain.2, hsync⟩ fun d hd => ?_
    exact ⟨htokens.interfere h.clients.shared (h.clients.client c).1 hd (h.clients.client d).1,
      (h.clients.client d).2⟩

theorem mem_updateAdmin {t : AdminTable} {user reread row : AdminEntity} {now : Instant}
    (h : row ∈ t.rows) (hid : row.id ≠ user.id) : row ∈ (updateAdmin t user reread now).rows :=
  List.mem_map.2 ⟨row, h, if_neg hid⟩

/-- A change leaves the other admins' credentials. -/
theorem Stored.updateAdmin {t : AdminTable} {user reread : AdminEntity} {now : Instant} {id : Nat}
    {credentials : Credentials} (h : Stored env t id credentials) (hid : id ≠ user.id) :
    Stored env (updateAdmin t user reread now) id credentials := by
  obtain ⟨row, hrow, rfl, hcredentials⟩ := h
  exact ⟨row, mem_updateAdmin hrow hid, rfl, hcredentials⟩

section Revoking

variable {r : RefreshTokenEntity} {db db' : Db RefreshTokenEntity}
  {txn txn' : Txn RefreshTokenEntity} {id : Nat} {role : Role} {at_ : Instant}

theorem Revoking.of_invoked {lo : RefreshTokens.Local} (h : Invoked r.userId r.role lo) :
    Revoking r lo := by
  unfold Invoked at h
  split at h
  · rename_i hpc
    simpa [Revoking, hpc] using h
  · exact h.elim

theorem Revoking.start (hr : r ∈ db.rows) (hrevoked : r.revokedAt = none)
    (h : Revoking r ⟨.update (.revokeAllForUser id role at_) .commit, txn⟩) :
    Revoking r ⟨.scan (.revokeAllForUser id role at_)
      (db.candidates txn (revokeAllForUserStmt id role at_)) .commit, txn⟩ := by
  obtain ⟨rfl, rfl⟩ : id = r.userId ∧ role = r.role := h
  have hlive : Live r.userId r.role r := ⟨rfl, rfl, hrevoked⟩
  exact ⟨rfl, rfl, Or.inl (Db.mem_candidates txn hr hlive.selects)⟩

theorem Revoking.visit {todo : List Nat} {k : Nat} (hr : r ∈ db.rows)
    (hrevoked : r.revokedAt = none)
    (hv : db.visit c txn (revokeAllForUserStmt id role at_) k = some (db', txn'))
    (h : Revoking r ⟨.scan (.revokeAllForUser id role at_) todo .commit, txn⟩) :
    Revoking r ⟨.scan (.revokeAllForUser id role at_) (todo.erase k) .commit, txn'⟩ := by
  obtain ⟨rfl, rfl, hid⟩ : id = r.userId ∧ role = r.role ∧
    (r.id ∈ todo ∨ r.id ∈ txn.writes.map Prod.fst) := h
  have hlive : Live r.userId r.role r := ⟨rfl, rfl, hrevoked⟩
  exact ⟨rfl, rfl, Db.visit_pending hv hr hlive.selects hid⟩

theorem Revoking.locked
    (h : Revoking r ⟨.scan (.revokeAllForUser id role at_) [] .commit, txn⟩) :
    r.id ∈ txn.writes.map Prod.fst := by
  obtain ⟨_, _, hid⟩ : id = r.userId ∧ role = r.role ∧
    (r.id ∈ [] ∨ r.id ∈ txn.writes.map Prod.fst) := h
  rcases hid with hid | hid
  · cases hid
  · exact hid

end Revoking

section Covered

variable {client : Nat → Client} {r : RefreshTokenEntity}

theorem Covered.move (h : Covered env ⟨sh, client⟩ r) (hlo : client c = lo)
    (hstored : OfStored env sh r → OfStored env sh' r)
    (hrevoking : Revoking r lo.tokens → Revoking r lo'.tokens) :
    Covered env ⟨sh', Function.update client c lo'⟩ r := by
  rcases h with h | ⟨d, h⟩
  · exact Or.inl (hstored h)
  · refine Or.inr ⟨d, ?_⟩
    by_cases hd : d = c
    · subst hd
      simpa using hrevoking (hlo ▸ h)
    · simpa [Function.update_of_ne hd] using h

theorem Timely.covered {txn : Txn RefreshTokenEntity} {credentials : Credentials}
    {admin : AdminEntity} {n : NewToken}
    (h : Timely env ⟨sh, client⟩ (c, .insert))
    (hlo : client c = ⟨.issue credentials admin, ⟨.insert n, txn⟩⟩) (hid : n.userId = admin.id)
    (hrole : n.role = .admin) (hadmins : sh'.admins = sh.admins)
    (hverified :
      sh'.verified = Function.update sh.verified sh.tokens.db.nextId (some credentials)) :
    Covered env ⟨sh', Function.update client c lo'⟩ (n.row sh.tokens.db.nextId) := by
  have hissuing : (credentials, admin) ∈ (client c).pc.issuing := by simp [hlo, Pc.issuing]
  rcases h _ hissuing rfl with hstored | ⟨d, hinvoked⟩
  · refine Or.inl ⟨credentials, ?_, ?_⟩
    · simp [hverified]
    · rw [hadmins]
      simpa [NewToken.row, hid] using hstored
  · have hne : d ≠ c := by
      rintro rfl
      simp [hlo, Invoked] at hinvoked
    have hinvoked' : Invoked (n.row sh.tokens.db.nextId).userId (n.row sh.tokens.db.nextId).role
        (client d).tokens := by
      simpa [NewToken.row, hid, hrole] using hinvoked
    refine Or.inr ⟨d, ?_⟩
    simpa [Function.update_of_ne hne] using Revoking.of_invoked hinvoked'

/-- What a step leaves unrevoked is covered after it. -/
theorem Moves.covered (hm : Moves env c sh lo a sh' lo') (hlo : client c = lo)
    (h : Inv env ⟨sh, client⟩) (htimely : Timely env ⟨sh, client⟩ (c, a))
    (hr : r ∈ sh'.tokens.db.rows) (hrole : r.role = .admin) (hrevoked : r.revokedAt = none) :
    Covered env ⟨sh', Function.update client c lo'⟩ r := by
  have hown : PcOk env.sha256 c sh.tokens lo.tokens := hlo ▸ (h.clients.client c).1
  cases hm with
  | tick d => exact (h.sessions r hr hrole hrevoked).move hlo id id
  | code txn pc pc' _ hsync => exact (h.sessions r hr hrole hrevoked).move hlo id False.elim
  | verified txn credentials token admin =>
      exact (h.sessions r hr hrole hrevoked).move hlo id False.elim
  | insert txn credentials admin n hid hnrole hn =>
      rcases List.mem_append.1 hr with hr | hr
      · refine (h.sessions r hr hrole hrevoked).move hlo (fun hstored => ?_) False.elim
        obtain ⟨credentials', hverified, hstored⟩ := hstored
        have hne : r.id ≠ sh.tokens.db.nextId := Nat.ne_of_lt (h.clients.shared.db.bound r hr)
        exact ⟨credentials', by simpa [Function.update_of_ne hne] using hverified, hstored⟩
      · rw [List.mem_singleton.1 hr]
        exact htimely.covered hlo hid hnrole rfl rfl
  | update txn user reread =>
      by_cases huser : r.userId = user.id
      · exact Or.inr ⟨c, by simp [Revoking, huser, hrole]⟩
      · refine (h.sessions r hr hrole hrevoked).move hlo (fun hstored => ?_) False.elim
        obtain ⟨credentials, hverified, hstored⟩ := hstored
        exact ⟨credentials, hverified, hstored.updateAdmin huser⟩
  | start txn adminId at_ =>
      exact (h.sessions r hr hrole hrevoked).move hlo id (Revoking.start hr hrevoked)
  | visit txn txn' db adminId at_ todo k hk hv =>
      have hrow : r ∈ sh.tokens.db.rows := (Db.visit_rows hv).1 ▸ hr
      exact (h.sessions r hrow hrole hrevoked).move hlo id (Revoking.visit hrow hrevoked hv)
  | finish txn adminId at_ =>
      have hq : StmtOk env.sha256 c sh.tokens txn (.revokeAllForUser adminId .admin at_)
          .commit := hown
      rcases hq.mem_commit h.clients.shared.db hr with ⟨hrow, hfree⟩ | ⟨r₀, _, hw⟩
      · exact (h.sessions r hrow hrole hrevoked).move hlo id fun h => absurd h.locked hfree
      · exact absurd hrevoked (StmtName.revokedAt_write hw)

end Covered

theorem Inv.step {s s' : State} {a : Nat × Action} (h : Inv env s) (htimely : Timely env s a)
    (hs : step env hashPassword s a = some s') : Inv env s' := by
  obtain ⟨sh, lo, hmove, rfl⟩ := Pool.step_spec hs
  have hm := move_spec (h.clients.client a.1).2 hmove
  exact ⟨h.clients_step hm, fun r hr hrole hrevoked =>
    hm.covered rfl h htimely hr hrole hrevoked⟩

theorem Inv.initial (env : Env) (admins : AdminTable) (now : Instant) :
    Inv env (initial admins now) where
  clients :=
    have hchain : RefreshTokens.ChainInv env.sha256 (RefreshTokens.initial now) :=
      RefreshTokens.ChainInv.initial now
    ⟨hchain.shared, fun c => ⟨hchain.client c, rfl⟩⟩
  sessions := fun _ hr => absurd hr List.not_mem_nil

/-- When every call has returned, the active sessions are of logins that verified the
credentials now stored, in every run whose logins insert in time. -/
theorem ofStored_of_run (env : Env) (hashPassword : String → String → String)
    (admins : AdminTable) (now : Instant) (acts : List (Nat × Action)) (s : State)
    (htimely : Along (step env hashPassword) (Timely env) (initial admins now) acts)
    (hrun : run (step env hashPassword) (initial admins now) acts = some s)
    (hidle : ∀ c, (s.client c).pc = .idle) :
    ∀ r ∈ s.shared.tokens.db.rows, Active s.shared.tokens.now r → OfStored env s.shared r := by
  intro r hr hactive
  have h : Inv env s :=
    run_inv (fun _ _ _ hinv htimely hs => hinv.step htimely hs) (Inv.initial env admins now)
      htimely hrun
  rcases h.sessions r hr hactive.1 hactive.2.1 with hstored | ⟨c, hrevoking⟩
  · exact hstored
  · have hsync := (h.clients.client c).2
    simp only [Sync, hidle c] at hsync
    simp [Revoking, hsync] at hrevoking

def admins : AdminTable := oneAdmin.accounts.admins

/-- Client 1 changes the password of the admin 1. -/
def changePassword : List (Nat × Action) :=
  [(1, .call (.updateMe 1
      { password := some "correct-horse", currentPassword := some "another-horse" })),
    (1, .exec), (1, .exec), (1, .exec), (1, .hashed ""), (1, .exec)]

/-- Client 0 has read the old row, and inserts its session before the sweep starts. -/
def insertBeforeSweep : List (Nat × Action) :=
  [(0, .call (.login ⟨"root", "another-horse"⟩ "a")), (0, .exec)] ++ changePassword ++
    [(0, .exec), (0, .insert), (1, .start), (1, .visit 1), (1, .finish), (1, .exec),
      (0, .call (.login ⟨"root", "correct-horse"⟩ "b")), (0, .exec), (0, .exec), (0, .insert)]

/-- Its comparison takes longer than the whole change. -/
def insertAfterSweep : List (Nat × Action) :=
  [(0, .call (.login ⟨"root", "another-horse"⟩ "a")), (0, .exec)] ++ changePassword ++
    [(1, .start), (1, .finish), (1, .exec), (0, .exec), (0, .insert)]

theorem ofStored_insertBeforeSweep :
    ∃ s, run (step .bcrypt hashSample) (initial admins 0) insertBeforeSweep = some s ∧
      (∃ r ∈ s.shared.tokens.db.rows, Active s.shared.tokens.now r) ∧
      ∀ r ∈ s.shared.tokens.db.rows, Active s.shared.tokens.now r →
        OfStored .bcrypt s.shared r := by
  have hrun : (run (step .bcrypt hashSample) (initial admins 0) insertBeforeSweep).any (fun s =>
      decide ((∃ r ∈ s.shared.tokens.db.rows, Active s.shared.tokens.now r) ∧
        ∀ d : Nat, d < 2 → (s.client d).pc = .idle)) = true := by
    decide +kernel
  have htimely : Along (step .bcrypt hashSample) (fun s a => ∀ p ∈ (s.client a.1).pc.issuing,
      a.2 = .insert → Stored .bcrypt s.shared.admins p.2.id p.1 ∨
        ∃ d : Nat, d < 2 ∧ Invoked p.2.id .admin (s.client d).tokens)
      (initial admins 0) insertBeforeSweep := by
    decide +kernel
  simp only [Option.any_eq_true, decide_eq_true_eq] at hrun
  obtain ⟨s, hs, hactive, hidle⟩ := hrun
  refine ⟨s, hs, hactive, ofStored_of_run .bcrypt hashSample admins 0 insertBeforeSweep s ?_ hs ?_⟩
  · refine Along.of_inv (I := fun _ => True) (fun _ _ _ _ _ _ => trivial) ?_ trivial htimely
    intro s a _ h p hp ha
    exact (h p hp ha).imp id fun ⟨d, _, hd⟩ => ⟨d, hd⟩
  · exact Pool.forall_client hs (fun lo => lo.pc = .idle) 2 (fun _ => rfl) (by decide) hidle

/-- Every call has returned, and the session of the old password is alive. -/
theorem not_ofStored_insertAfterSweep :
    ∃ s, run (step .bcrypt hashSample) (initial admins 0) insertAfterSweep = some s ∧
      (∀ c, (s.client c).pc = .idle) ∧
      ∃ r ∈ s.shared.tokens.db.rows, Active s.shared.tokens.now r ∧
        ¬ OfStored .bcrypt s.shared r := by
  have hrun : (run (step .bcrypt hashSample) (initial admins 0) insertAfterSweep).any (fun s =>
      decide ((∀ d : Nat, d < 2 → (s.client d).pc = .idle) ∧
        ∃ r ∈ s.shared.tokens.db.rows, Active s.shared.tokens.now r ∧
          ¬ OfStored .bcrypt s.shared r)) = true := by
    decide +kernel
  simp only [Option.any_eq_true, decide_eq_true_eq] at hrun
  obtain ⟨s, hs, hidle, hstale⟩ := hrun
  exact ⟨s, hs, Pool.forall_client hs (fun lo => lo.pc = .idle) 2 (fun _ => rfl) (by decide) hidle,
    hstale⟩

end NestStarter.Sessions.CredentialChange
