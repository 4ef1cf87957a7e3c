import Mathlib.Data.List.Forall2
import NestStarter.RefreshTokens.Serial

/-! # What pruning forgets

Two runs of the same `rotate` and `revoke` requests, one over the whole table and
one over the table `pruneExpiredTokens` left. A row that was pruned had expired, so
its token is rejected with or without it; but if it had been rotated, presenting it
again revokes every live session of its principal, and without it nothing happens.
-/

namespace NestStarter.RefreshTokens

open NestStarter.Core

variable (sha256 : String → String) (ttlSeconds : Nat)

/-- The request presents a token. -/
def Request.Presents (req : Request) : Prop :=
  match req.call with
  | .rotate _ | .revoke _ => True
  | _ => False

instance (req : Request) : Decidable req.Presents := by
  unfold Request.Presents; split <;> infer_instance

def Request.succeeds (s : Serial) (req : Request) : Bool :=
  (Service.exec (req.call.service sha256 ttlSeconds (s.now + req.delay) req.newToken)
    s.table).1.isOk

def revokedUnexpired (s : Serial) : List Nat :=
  (s.table.rows.filter fun r => s.now < r.expiresAt ∧ r.revokedAt.isSome).map
    RefreshTokenEntity.id

/-- The same request in both runs. -/
def twinStep (s : Serial × Serial) (req : Request) : Option (Serial × Serial) :=
  (s.1.step sha256 ttlSeconds req).bind fun u =>
    (s.2.step sha256 ttlSeconds req).map fun p => (u, p)

/-- The request fares alike in both, and leaves the same unexpired rows revoked. -/
def Agree (s : Serial × Serial) (req : Request) : Prop :=
  req.succeeds sha256 ttlSeconds s.1 = req.succeeds sha256 ttlSeconds s.2 ∧
    ∀ s', twinStep sha256 ttlSeconds s req = some s' →
      revokedUnexpired s'.1 = revokedUnexpired s'.2

/-- A rotated row that expired before `t` is presented again while its principal has a
live session. -/
def StaleReuse (t : Instant) (s : Serial) (req : Request) : Prop :=
  match req.call with
  | .rotate tok =>
      tok.length ≠ 0 ∧
        ∃ r ∈ s.table.rows, r.tokenHash = sha256 tok ∧ r.expiresAt < t ∧
          r.revokedAt.isSome = true ∧ r.replacedById.isSome = true ∧
          ∃ x ∈ s.table.rows, x.userId = r.userId ∧ x.role = r.role ∧ x.revokedAt = none ∧
            s.now + req.delay < x.expiresAt
  | _ => False

instance (t : Instant) (s : Serial) (req : Request) : Decidable (StaleReuse sha256 t s req) := by
  unfold StaleReuse; split <;> infer_instance

def Shared.serial (sh : Shared) (delay : Nat) : Serial :=
  ⟨sh.table, sh.now + delay, sh.minted.map Minted.tokenHash⟩

def Serial.prune (s : Serial) : Serial :=
  { s with table := (Service.exec (pruneExpiredTokens s.now) s.table).2 }

variable {sha256 ttlSeconds}

/-- The table of a reachable state in which every call has returned. -/
def Sound (sha256 : String → String) (s : Serial) : Prop :=
  ∃ p, ChainInv sha256 p ∧ Follows s p

theorem Sound.step {s s' : Serial} {req : Request} (h : Sound sha256 s)
    (hs : s.step sha256 ttlSeconds req = some s') : Sound sha256 s' := by
  obtain ⟨p, hp, hfollows⟩ := h
  obtain ⟨acts, p', hrun, hfollows'⟩ := hfollows.step hs
  have hp' : ChainInv sha256 p' :=
    run_inv (C := fun _ _ => True) (fun _ _ _ hs _ he => ChainInv.step hs he) hp
      (along_true _ _ _) hrun
  exact ⟨p', hp', hfollows'⟩

variable {s : Serial}

theorem Sound.nodup (h : Sound sha256 s) : (s.table.rows.map RefreshTokenEntity.id).Nodup := by
  obtain ⟨p, hp, hfollows⟩ := h
  rw [← hfollows.table]
  exact hp.shared.db.nodup

theorem Sound.eq_of_id (h : Sound sha256 s) {r r' : RefreshTokenEntity} (hr : r ∈ s.table.rows)
    (hr' : r' ∈ s.table.rows) (hid : r.id = r'.id) : r = r' := by
  obtain ⟨p, hp, hfollows⟩ := h
  rw [← hfollows.table] at hr hr'
  exact hp.shared.db.eq_of_key hr hr' hid

theorem Sound.eq_of_hash (h : Sound sha256 s) {r r' : RefreshTokenEntity} (hr : r ∈ s.table.rows)
    (hr' : r' ∈ s.table.rows) (hhash : r.tokenHash = r'.tokenHash) : r = r' := by
  obtain ⟨p, hp, hfollows⟩ := h
  rw [← hfollows.table] at hr hr'
  have hminted : r.minted = r'.minted :=
    List.inj_on_of_nodup_map hp.shared.mintedHash (hp.shared.recorded r hr)
      (hp.shared.recorded r' hr') hhash
  exact hp.shared.db.eq_of_key hr hr' (congrArg Minted.id hminted)

theorem Sound.replaced (h : Sound sha256 s) {r : RefreshTokenEntity} (hr : r ∈ s.table.rows)
    (hreplaced : r.replacedById.isSome = true) : r.revokedAt.isSome = true := by
  obtain ⟨p, hp, hfollows⟩ := h
  rw [← hfollows.table] at hr
  obtain ⟨k, hk⟩ := Option.isSome_iff_exists.1 hreplaced
  exact Option.isSome_iff_ne_none.2 (hp.shared.replaced r hr k hk).1

theorem Sound.bound (h : Sound sha256 s) {r : RefreshTokenEntity} (hr : r ∈ s.table.rows) :
    r.id < s.table.nextId := by
  obtain ⟨p, hp, hfollows⟩ := h
  rw [← hfollows.table] at hr ⊢
  exact hp.shared.db.bound r hr

/-- The row about to be inserted is not one of them. -/
theorem Sound.eq_of_row_id (h : Sound sha256 s) {n : NewToken} {r w : RefreshTokenEntity}
    (hr : r ∈ s.table.rows ++ [n.row s.table.nextId]) (hw : w ∈ s.table.rows)
    (hid : r.id = w.id) : r = w := by
  rcases List.mem_append.1 hr with hr | hr
  · exact h.eq_of_id hr hw hid
  · have hbound := h.bound hw
    rw [List.mem_singleton.1 hr, NewToken.id_row] at hid
    omega

theorem Sound.findByToken_eq_some (h : Sound sha256 s) {tok : String} {r : RefreshTokenEntity} :
    findByToken sha256 s.table.rows tok = some r ↔
      r ∈ s.table.rows ∧ r.tokenHash = sha256 tok := by
  constructor
  · intro hfind
    exact ⟨List.mem_of_find?_eq_some hfind, by simpa using List.find?_some hfind⟩
  · intro ⟨hr, hhash⟩
    cases hfind : findByToken sha256 s.table.rows tok with
    | none =>
        have hnone := List.find?_eq_none.1 hfind r hr
        exact absurd hhash (by simpa using hnone)
    | some r' =>
        have hhash' : r'.tokenHash = sha256 tok := by simpa using List.find?_some hfind
        rw [h.eq_of_hash (List.mem_of_find?_eq_some hfind) hr (hhash'.trans hhash.symm)]

/-! ## The tables side by side -/

/-- A row of the whole table and the one that stands for it in the pruned table: only the
revocation of an expired row may differ. -/
structure Alike (now : Instant) (r r' : RefreshTokenEntity) : Prop where
  id : r'.id = r.id
  tokenHash : r'.tokenHash = r.tokenHash
  userId : r'.userId = r.userId
  role : r'.role = r.role
  expiresAt : r'.expiresAt = r.expiresAt
  replacedById : r'.replacedById = r.replacedById
  revokedAt : now < r.expiresAt → r'.revokedAt = r.revokedAt

theorem Alike.refl (now : Instant) (r : RefreshTokenEntity) : Alike now r r :=
  ⟨rfl, rfl, rfl, rfl, rfl, rfl, fun _ => rfl⟩

theorem Alike.mono {now now' : Instant} {r r' : RefreshTokenEntity} (h : Alike now r r')
    (hle : now ≤ now') : Alike now' r r' :=
  ⟨h.id, h.tokenHash, h.userId, h.role, h.expiresAt, h.replacedById,
    fun hlt => h.revokedAt (Int.lt_of_le_of_lt hle hlt)⟩

/-- The second table is the first without the rows that expired before `t`. -/
structure Twin (t now : Instant) (whole pruned : TokenTable) : Prop where
  nextId : pruned.nextId = whole.nextId
  rows : List.Forall₂ (Alike now) (whole.rows.filter fun r => ¬ r.expiresAt < t) pruned.rows

theorem Twin.mono {t now now' : Instant} {whole pruned : TokenTable}
    (h : Twin t now whole pruned) (hle : now ≤ now') : Twin t now' whole pruned :=
  ⟨h.nextId, h.rows.imp fun _ _ ha => ha.mono hle⟩

theorem Twin.map {t now : Instant} {whole pruned : TokenTable} (h : Twin t now whole pruned)
    {f g : RefreshTokenEntity → RefreshTokenEntity} (hf : ∀ r, (f r).expiresAt = r.expiresAt)
    (hfg : ∀ r ∈ whole.rows, ¬ r.expiresAt < t → ∀ r' ∈ pruned.rows, Alike now r r' →
      Alike now (f r) (g r')) :
    Twin t now { whole with rows := whole.rows.map f }
      { pruned with rows := pruned.rows.map g } := by
  refine ⟨h.nextId, ?_⟩
  have hfilter : (whole.rows.map f).filter (fun r => ¬ r.expiresAt < t) =
      (whole.rows.filter fun r => ¬ r.expiresAt < t).map f := by
    rw [List.filter_map]
    refine congrArg _ (List.filter_congr fun r _ => ?_)
    simp only [Function.comp_apply, hf]
  rw [hfilter, List.forall₂_map_left_iff, List.forall₂_map_right_iff]
  have hrows := List.forall₂_iff_get.1 h.rows
  refine List.forall₂_iff_get.2 ⟨hrows.1, fun i hi hi' => ?_⟩
  obtain ⟨hr, hkept⟩ := List.mem_filter.1
    (List.get_mem (whole.rows.filter fun r => ¬ r.expiresAt < t) ⟨i, hi⟩)
  exact hfg _ hr (by simpa using hkept) _ (List.get_mem _ _) (hrows.2 i hi hi')

/-- Rows that stand for each other, from either side. -/
theorem Twin.exists_pruned {t now : Instant} {whole pruned : TokenTable}
    (h : Twin t now whole pruned) {r : RefreshTokenEntity} (hr : r ∈ whole.rows)
    (hkept : ¬ r.expiresAt < t) : ∃ r' ∈ pruned.rows, Alike now r r' := by
  have hr : r ∈ whole.rows.filter fun r => ¬ r.expiresAt < t :=
    List.mem_filter.2 ⟨hr, by simpa using hkept⟩
  obtain ⟨i, rfl⟩ := List.get_of_mem hr
  have hrows := List.forall₂_iff_get.1 h.rows
  have hi : i < pruned.rows.length := by
    rw [← hrows.1]
    exact i.isLt
  exact ⟨pruned.rows.get ⟨i, hi⟩, List.get_mem _ _, hrows.2 i i.isLt hi⟩

theorem Twin.exists_whole {t now : Instant} {whole pruned : TokenTable}
    (h : Twin t now whole pruned) {r' : RefreshTokenEntity} (hr' : r' ∈ pruned.rows) :
    ∃ r ∈ whole.rows, ¬ r.expiresAt < t ∧ Alike now r r' := by
  obtain ⟨i, rfl⟩ := List.get_of_mem hr'
  have hrows := List.forall₂_iff_get.1 h.rows
  have hi : i < (whole.rows.filter fun r => ¬ r.expiresAt < t).length := by
    rw [hrows.1]
    exact i.isLt
  have hmem := List.get_mem (whole.rows.filter fun r => ¬ r.expiresAt < t) ⟨i, hi⟩
  obtain ⟨hr, hkept⟩ := List.mem_filter.1 hmem
  exact ⟨_, hr, by simpa using hkept, hrows.2 i hi i.isLt⟩

/-- `revoke`, having found `row`, on each row of the table. -/
def revokeRow (row : RefreshTokenEntity) (now : Instant) (r : RefreshTokenEntity) :
    RefreshTokenEntity :=
  if row.revokedAt.isNone && r.id == row.id then { r with revokedAt := some now } else r

def revokeAllRow (userId : Nat) (role : Role) (now : Instant) (r : RefreshTokenEntity) :
    RefreshTokenEntity :=
  if (revokeAllForUserStmt userId role now).selects r then { r with revokedAt := some now } else r

def replaceRow (id savedId : Nat) (now : Instant) (r : RefreshTokenEntity) : RefreshTokenEntity :=
  if (replaceStmt id savedId now).selects r then
    { r with revokedAt := some now, replacedById := some savedId, lastUsedAt := some now }
  else r

theorem revokeAllRow_expiresAt (userId : Nat) (role : Role) (now : Instant)
    (r : RefreshTokenEntity) : (revokeAllRow userId role now r).expiresAt = r.expiresAt := by
  unfold revokeAllRow
  split <;> rfl

theorem replaceRow_expiresAt (id savedId : Nat) (now : Instant) (r : RefreshTokenEntity) :
    (replaceRow id savedId now r).expiresAt = r.expiresAt := by
  unfold replaceRow
  split <;> rfl

theorem replaceRow_of_ne {id savedId : Nat} {now : Instant} {r : RefreshTokenEntity}
    (h : r.id ≠ id) : replaceRow id savedId now r = r := by
  simp [replaceRow, replaceStmt, h]

theorem replaceRow_self {savedId : Nat} {now : Instant} {r : RefreshTokenEntity}
    (h : r.revokedAt = none) : replaceRow r.id savedId now r =
      { r with revokedAt := some now, replacedById := some savedId, lastUsedAt := some now } := by
  simp [replaceRow, replaceStmt, h]

variable {now : Instant} {t : TokenTable} {newToken presentedToken : String}

theorem exec_revoke_of_none (h : findByToken sha256 t.rows presentedToken = none) :
    Service.exec (revoke sha256 now presentedToken) t = (.ok (), t) := by
  simp [revoke, h]

theorem exec_revoke {row : RefreshTokenEntity}
    (h : findByToken sha256 t.rows presentedToken = some row) :
    Service.exec (revoke sha256 now presentedToken) t =
      (.ok (), { t with rows := t.rows.map (revokeRow row now) }) := by
  by_cases hrevoked : row.revokedAt.isSome = true
  · have hmap : t.rows.map (revokeRow row now) = t.rows := by
      refine List.map_id'' (fun r => ?_) t.rows
      simp [revokeRow, Option.ne_none_iff_isSome.2 hrevoked]
    simp [revoke, h, hrevoked, hmap]
  · have hnone : row.revokedAt = none := by simpa using hrevoked
    have hmap := Stmt.apply_eq_map (q := revokeStmt row.id now) (fun r => rfl) t.rows
    have hrows : t.rows.map (revokeRow row now) = (revokeStmt row.id now).apply t.rows := by
      rw [hmap]
      refine List.map_congr_left fun r _ => ?_
      simp [revokeRow, revokeStmt, hnone]
    simp [revoke, update, h, hnone, hrows]

/-- A rotation whose row is not there, or not to be exchanged. -/
theorem exec_rotate_of_none (h : presentedToken.length = 0 ∨
    findByToken sha256 t.rows presentedToken = none) :
    Service.exec (rotate sha256 ttlSeconds now newToken presentedToken) t =
      (.error invalid, t) := by
  by_cases hempty : presentedToken.length = 0
  · simp [rotate, lookup, hempty]
  · simp [rotate, lookup, hempty, h.resolve_left hempty]

theorem exec_rotate_of_reject {row : RefreshTokenEntity}
    (hfind : findByToken sha256 t.rows presentedToken = some row)
    (hb : rotateBranch now row = .reject) :
    Service.exec (rotate sha256 ttlSeconds now newToken presentedToken) t =
      (.error invalid, t) := by
  by_cases hempty : presentedToken.length = 0
  · simp [rotate, lookup, hempty]
  · simp [rotate, lookup, hempty, hfind, hb]

theorem exec_rotate_of_reuse {row : RefreshTokenEntity} (hempty : presentedToken.length ≠ 0)
    (hfind : findByToken sha256 t.rows presentedToken = some row)
    (hb : rotateBranch now row = .reuse) :
    Service.exec (rotate sha256 ttlSeconds now newToken presentedToken) t =
      (.error invalid, { t with rows := t.rows.map (revokeAllRow row.userId row.role now) }) := by
  have hmap := Stmt.apply_eq_map (q := revokeAllForUserStmt row.userId row.role now) (fun r => rfl)
    t.rows
  simp only [rotate, lookup, update, Service.exec_bind, Service.exec_statement, Service.exec_pure,
    hempty, hfind, hb, if_false, hmap]
  rfl

theorem exec_rotate_of_exchange (hempty : presentedToken.length ≠ 0) {row : RefreshTokenEntity}
    (hfind : findByToken sha256 t.rows presentedToken = some row)
    (hb : rotateBranch now row = .exchange)
    (hone : (replaceStmt row.id t.nextId now).affected
      (t.rows ++ [(successor sha256 ttlSeconds now newToken row).row t.nextId]) = 1) :
    Service.exec (rotate sha256 ttlSeconds now newToken presentedToken) t =
      (.ok ⟨⟨newToken, newExpiry ttlSeconds now⟩, row.userId, row.role⟩,
        ⟨(t.rows ++ [(successor sha256 ttlSeconds now newToken row).row t.nextId]).map
          (replaceRow row.id t.nextId now), t.nextId + 1⟩) := by
  have hmap := Stmt.apply_eq_map (q := replaceStmt row.id t.nextId now) (fun r => rfl)
    (t.rows ++ [(successor sha256 ttlSeconds now newToken row).row t.nextId])
  rw [exec_rotate_exchange sha256 ttlSeconds hempty hfind hb, Service.exec_bind_pure, exec_exchange,
    if_pos hone, hmap]
  rfl

/-- The exchange of an unrevoked row finds it unrevoked. -/
theorem Sound.affected (h : Sound sha256 s) {row : RefreshTokenEntity} (hrow : row ∈ s.table.rows)
    (hlive : row.revokedAt = none) (n : NewToken) (now : Instant) :
    (replaceStmt row.id s.table.nextId now).affected
      (s.table.rows ++ [n.row s.table.nextId]) = 1 := by
  have hid : row.id < s.table.nextId := h.bound hrow
  have hnew : (replaceStmt row.id s.table.nextId now).selects (n.row s.table.nextId) = false := by
    simp [replaceStmt, Nat.ne_of_gt hid]
  have hsel : (replaceStmt row.id s.table.nextId now).selects row = true := by
    simp [replaceStmt, hlive]
  have hpos : 0 < s.table.rows.countP (replaceStmt row.id s.table.nextId now).selects :=
    List.countP_pos_iff.2 ⟨row, hrow, hsel⟩
  have hle : s.table.rows.countP (replaceStmt row.id s.table.nextId now).selects ≤
      (s.table.rows.map RefreshTokenEntity.id).count row.id := by
    rw [List.count, List.countP_map]
    refine List.countP_mono_left fun r _ hr => ?_
    simp only [replaceStmt, Bool.and_eq_true] at hr
    exact hr.1
  have hone := List.nodup_iff_count_le_one.1 h.nodup row.id
  rw [Stmt.affected, List.countP_append, List.countP_cons, hnew, List.countP_nil]
  simp only [Bool.false_eq_true, if_false]
  omega

/-! ## Both runs take a request alike -/

structure Paired (sha256 : String → String) (t : Instant) (u p : Serial) : Prop where
  now : p.now = u.now
  le : t ≤ u.now
  digests : p.digests = u.digests
  twin : Twin t u.now u.table p.table
  whole : Sound sha256 u
  pruned : Sound sha256 p

/-- The same outcome, and tables that differ by the pruned rows. -/
structure SameFate {α : Type} (t now : Instant) (x y : Except HttpException α × TokenTable) :
    Prop where
  isOk : x.1.isOk = y.1.isOk
  twin : Twin t now x.2 y.2

variable {t now : Instant} {u p : Serial} {tok newToken : String} {w : RefreshTokenEntity}

theorem Paired.findByToken_of_kept (h : Paired sha256 t u p)
    (hfind : findByToken sha256 u.table.rows tok = some w) (hkept : ¬ w.expiresAt < t) :
    ∃ w', findByToken sha256 p.table.rows tok = some w' ∧ Alike u.now w w' := by
  obtain ⟨hw, hhash⟩ := h.whole.findByToken_eq_some.1 hfind
  obtain ⟨w', hw', halike⟩ := h.twin.exists_pruned hw hkept
  exact ⟨w', h.pruned.findByToken_eq_some.2 ⟨hw', halike.tokenHash.trans hhash⟩, halike⟩

theorem Paired.findByToken_of_pruned (h : Paired sha256 t u p) (tok : String)
    (hfind : ∀ w, findByToken sha256 u.table.rows tok = some w → w.expiresAt < t) :
    findByToken sha256 p.table.rows tok = none := by
  cases hfind' : findByToken sha256 p.table.rows tok with
  | none => rfl
  | some w' =>
      obtain ⟨hw', hhash⟩ := h.pruned.findByToken_eq_some.1 hfind'
      obtain ⟨w, hw, hkept, halike⟩ := h.twin.exists_whole hw'
      have hsome : findByToken sha256 u.table.rows tok = some w :=
        h.whole.findByToken_eq_some.2 ⟨hw, halike.tokenHash.symm.trans hhash⟩
      exact absurd (hfind w hsome) hkept

theorem Paired.unchanged {α : Type} (h : Paired sha256 t u p) (hle : u.now ≤ now)
    (x : Except HttpException α) : SameFate t now (x, u.table) (x, p.table) :=
  ⟨rfl, h.twin.mono hle⟩

theorem Alike.of_expired {r r' x x' : RefreshTokenEntity} (h : Alike now r r')
    (hexpired : ¬ now < r.expiresAt) (hx : x = r ∨ x = { r with revokedAt := some now })
    (hx' : x' = r' ∨ x' = { r' with revokedAt := some now }) : Alike now x x' := by
  rcases hx with rfl | rfl <;> rcases hx' with rfl | rfl <;>
    exact ⟨h.id, h.tokenHash, h.userId, h.role, h.expiresAt, h.replacedById,
      fun hlt => absurd hlt hexpired⟩

theorem Alike.revoked {r r' : RefreshTokenEntity} (h : Alike now r r') :
    Alike now { r with revokedAt := some now } { r' with revokedAt := some now } :=
  ⟨h.id, h.tokenHash, h.userId, h.role, h.expiresAt, h.replacedById, fun _ => rfl⟩

theorem revokeRow_cases (row : RefreshTokenEntity) (now : Instant) (r : RefreshTokenEntity) :
    revokeRow row now r = r ∨ revokeRow row now r = { r with revokedAt := some now } := by
  unfold revokeRow
  split
  · exact Or.inr rfl
  · exact Or.inl rfl

theorem revokeRow_of_ne {row r : RefreshTokenEntity} (h : r.id ≠ row.id) :
    revokeRow row now r = r := by
  simp [revokeRow, h]

theorem revokeAllRow_cases (userId : Nat) (role : Role) (now : Instant) (r : RefreshTokenEntity) :
    revokeAllRow userId role now r = r ∨
      revokeAllRow userId role now r = { r with revokedAt := some now } := by
  unfold revokeAllRow
  split
  · exact Or.inr rfl
  · exact Or.inl rfl

theorem Alike.revokeAllRow {r r' : RefreshTokenEntity} (h : Alike now r r') (userId : Nat)
    (role : Role) :
    Alike now (revokeAllRow userId role now r) (revokeAllRow userId role now r') := by
  by_cases hlive : now < r.expiresAt
  · have hsel : (revokeAllForUserStmt userId role now).selects r' =
        (revokeAllForUserStmt userId role now).selects r := by
      simp only [revokeAllForUserStmt, h.userId, h.role, h.revokedAt hlive]
    unfold RefreshTokens.revokeAllRow
    rw [hsel]
    by_cases hr : (revokeAllForUserStmt userId role now).selects r = true
    · rw [if_pos hr, if_pos hr]
      exact h.revoked
    · rw [if_neg hr, if_neg hr]
      exact h
  · exact h.of_expired hlive (revokeAllRow_cases ..) (revokeAllRow_cases ..)

theorem Paired.revoke (h : Paired sha256 t u p) (hle : u.now ≤ now) (tok : String) :
    SameFate t now (Service.exec (RefreshTokens.revoke sha256 now tok) u.table)
      (Service.exec (RefreshTokens.revoke sha256 now tok) p.table) := by
  cases hfind : findByToken sha256 u.table.rows tok with
  | none =>
      have hfind' := h.findByToken_of_pruned tok (by simp [hfind])
      rw [exec_revoke_of_none hfind, exec_revoke_of_none hfind']
      exact h.unchanged hle _
  | some w =>
      have hw := (h.whole.findByToken_eq_some.1 hfind).1
      rw [exec_revoke hfind]
      by_cases hpruned : w.expiresAt < t
      · have hfind' := h.findByToken_of_pruned tok (by simpa [hfind] using hpruned)
        have hmap := (h.twin.mono hle).map (f := revokeRow w now) (g := id)
          (fun r => by rcases revokeRow_cases w now r with heq | heq <;> rw [heq])
          fun r hr hkept r' _ halike => by
            -- no row but the pruned one changes
            have hne : r.id ≠ w.id := fun hid => hkept (h.whole.eq_of_id hr hw hid ▸ hpruned)
            rw [revokeRow_of_ne hne]
            exact halike
        rw [exec_revoke_of_none hfind']
        rw [List.map_id] at hmap
        exact ⟨rfl, hmap⟩
      · obtain ⟨w', hfind', hw'⟩ := h.findByToken_of_kept hfind hpruned
        have hw' := hw'.mono hle
        rw [exec_revoke hfind']
        refine ⟨rfl, (h.twin.mono hle).map
          (fun r => by rcases revokeRow_cases w now r with heq | heq <;> rw [heq])
          fun r hr hkept r' hr' halike => ?_⟩
        by_cases hlive : now < r.expiresAt
        · by_cases hid : r.id = w.id
          · have hrw := h.whole.eq_of_id hr hw hid
            subst hrw
            have hrw' := h.pruned.eq_of_id hr' (h.pruned.findByToken_eq_some.1 hfind').1
              (halike.id.trans hw'.id.symm)
            subst hrw'
            simp only [revokeRow, halike.revokedAt hlive, beq_self_eq_true, Bool.and_true]
            split
            · exact halike.revoked
            · exact halike
          · have hid' : r'.id ≠ w'.id := by rwa [halike.id, hw'.id]
            rw [revokeRow_of_ne hid, revokeRow_of_ne hid']
            exact halike
        · exact halike.of_expired hlive (revokeRow_cases ..) (revokeRow_cases ..)

/-- A replaced row is revoked in both tables, so an expired row goes the same way. -/
theorem Paired.rotateBranch (h : Paired sha256 t u p) {w' : RefreshTokenEntity}
    (hw : w ∈ u.table.rows) (hw' : w' ∈ p.table.rows) (halike : Alike now w w') :
    rotateBranch now w' = rotateBranch now w := by
  by_cases hreplaced : w.replacedById.isSome = true
  · have hreplaced' : w'.replacedById.isSome = true := by rwa [halike.replacedById]
    simp [RefreshTokens.rotateBranch, hreplaced, hreplaced', h.whole.replaced hw hreplaced,
      h.pruned.replaced hw' hreplaced']
  · have hreplaced' : ¬ w'.replacedById.isSome = true := by rwa [halike.replacedById]
    by_cases hlive : now < w.expiresAt
    · simp [RefreshTokens.rotateBranch, hreplaced, hreplaced', halike.revokedAt hlive,
        halike.expiresAt]
    · have hexpired : w.expiresAt ≤ now := Int.not_lt.1 hlive
      simp [RefreshTokens.rotateBranch, hreplaced, hreplaced', halike.expiresAt, hexpired]

theorem Twin.append {whole pruned : TokenTable} (h : Twin t now whole pruned) {n : NewToken}
    (hkept : ¬ n.expiresAt < t) :
    Twin t now ⟨whole.rows ++ [n.row whole.nextId], whole.nextId + 1⟩
      ⟨pruned.rows ++ [n.row pruned.nextId], pruned.nextId + 1⟩ := by
  refine ⟨by rw [h.nextId], ?_⟩
  have hnew : [n.row whole.nextId].filter (fun r => ¬ r.expiresAt < t) = [n.row whole.nextId] := by
    simpa [NewToken.row] using hkept
  rw [List.filter_append, hnew, h.nextId]
  exact List.rel_append h.rows (.cons (Alike.refl now _) .nil)

theorem newExpiry_not_lt {t now : Instant} (hle : t ≤ now) : ¬ newExpiry ttlSeconds now < t := by
  refine Int.not_lt.2 (Int.le_trans hle (Int.le_add_of_nonneg_right ?_))
  exact Int.mul_nonneg (Int.natCast_nonneg _) (by decide)

theorem Paired.exchange (h : Paired sha256 t u p) (hle : u.now ≤ now) (newToken : String)
    (hempty : tok.length ≠ 0) {w' : RefreshTokenEntity}
    (hfind : findByToken sha256 u.table.rows tok = some w)
    (hfind' : findByToken sha256 p.table.rows tok = some w') (halike : Alike now w w')
    (hb : RefreshTokens.rotateBranch now w = .exchange) :
    SameFate t now (Service.exec (rotate sha256 ttlSeconds now newToken tok) u.table)
      (Service.exec (rotate sha256 ttlSeconds now newToken tok) p.table) := by
  have hw := (h.whole.findByToken_eq_some.1 hfind).1
  have hw' := (h.pruned.findByToken_eq_some.1 hfind').1
  have hb' := (h.rotateBranch hw hw' halike).trans hb
  have hsuccessor : successor sha256 ttlSeconds now newToken w' =
      successor sha256 ttlSeconds now newToken w := by
    simp only [successor, halike.userId, halike.role]
  have hone := h.whole.affected hw (rotateBranch_eq_exchange.1 hb).1
    (successor sha256 ttlSeconds now newToken w) now
  have hone' := h.pruned.affected hw' (rotateBranch_eq_exchange.1 hb').1
    (successor sha256 ttlSeconds now newToken w') now
  rw [exec_rotate_of_exchange hempty hfind hb hone, exec_rotate_of_exchange hempty hfind' hb' hone',
    hsuccessor]
  refine ⟨rfl, ((h.twin.mono hle).append (newExpiry_not_lt (Int.le_trans h.le hle))).map
    (fun r => replaceRow_expiresAt ..) fun r hr hkept r' hr' hrr' => ?_⟩
  by_cases hid : r.id = w.id
  · have hid' : r'.id = w'.id := by rw [hrr'.id, halike.id, hid]
    have hrw := h.whole.eq_of_row_id hr hw hid
    have hrw' := h.pruned.eq_of_row_id hr' hw' hid'
    subst hrw hrw'
    rw [replaceRow_self (rotateBranch_eq_exchange.1 hb).1,
      replaceRow_self (rotateBranch_eq_exchange.1 hb').1, h.twin.nextId]
    exact ⟨halike.id, halike.tokenHash, halike.userId, halike.role, halike.expiresAt, rfl,
      fun _ => rfl⟩
  · have hid' : r'.id ≠ w'.id := by rwa [hrr'.id, halike.id]
    rw [replaceRow_of_ne hid, replaceRow_of_ne hid']
    exact hrr'

theorem Paired.rotate_of_kept (h : Paired sha256 t u p) (hle : u.now ≤ now) (newToken : String)
    (hfind : findByToken sha256 u.table.rows tok = some w) (hkept : ¬ w.expiresAt < t) :
    SameFate t now (Service.exec (rotate sha256 ttlSeconds now newToken tok) u.table)
      (Service.exec (rotate sha256 ttlSeconds now newToken tok) p.table) := by
  by_cases hempty : tok.length = 0
  · rw [exec_rotate_of_none (Or.inl hempty), exec_rotate_of_none (Or.inl hempty)]
    exact h.unchanged hle _
  obtain ⟨w', hfind', halike⟩ := h.findByToken_of_kept hfind hkept
  have halike := halike.mono hle
  have hb' := h.rotateBranch (h.whole.findByToken_eq_some.1 hfind).1
    (h.pruned.findByToken_eq_some.1 hfind').1 halike
  cases hb : RefreshTokens.rotateBranch now w with
  | reject =>
      rw [exec_rotate_of_reject hfind hb, exec_rotate_of_reject hfind' (hb'.trans hb)]
      exact h.unchanged hle _
  | reuse =>
      rw [exec_rotate_of_reuse hempty hfind hb, exec_rotate_of_reuse hempty hfind' (hb'.trans hb),
        halike.userId, halike.role]
      exact ⟨rfl, (h.twin.mono hle).map (fun r => revokeAllRow_expiresAt ..)
        fun r _ _ r' _ hrr' => hrr'.revokeAllRow _ _⟩
  | exchange => exact h.exchange hle newToken hempty hfind hfind' halike hb

/-- The token of a pruned row: it is rejected in both runs, and only a reuse can tell. -/
theorem Paired.rotate_of_pruned (h : Paired sha256 t u p) (hle : u.now ≤ now) (newToken : String)
    (hfind : findByToken sha256 u.table.rows tok = some w) (hpruned : w.expiresAt < t)
    (hstale : tok.length ≠ 0 → RefreshTokens.rotateBranch now w = .reuse →
      ∀ x ∈ u.table.rows, x.userId = w.userId → x.role = w.role → x.revokedAt = none →
        ¬ now < x.expiresAt) :
    SameFate t now (Service.exec (rotate sha256 ttlSeconds now newToken tok) u.table)
      (Service.exec (rotate sha256 ttlSeconds now newToken tok) p.table) := by
  have hfind' := h.findByToken_of_pruned tok (by simpa [hfind] using hpruned)
  rw [exec_rotate_of_none (t := p.table) (Or.inr hfind')]
  by_cases hempty : tok.length = 0
  · rw [exec_rotate_of_none (Or.inl hempty)]
    exact h.unchanged hle _
  cases hb : RefreshTokens.rotateBranch now w with
  | reject =>
      rw [exec_rotate_of_reject hfind hb]
      exact h.unchanged hle _
  | reuse =>
      have hmap := (h.twin.mono hle).map (f := revokeAllRow w.userId w.role now) (g := id)
        (fun r => revokeAllRow_expiresAt ..) fun r hr _ r' _ halike => by
          by_cases hlive : now < r.expiresAt
          · have hsame : revokeAllRow w.userId w.role now r = r := by
              refine if_neg fun hsel => ?_
              simp only [revokeAllForUserStmt, Bool.and_eq_true, beq_iff_eq,
                Option.isNone_iff_eq_none] at hsel
              exact hstale hempty hb r hr hsel.1.1 hsel.1.2 hsel.2 hlive
            rw [hsame]
            exact halike
          · exact halike.of_expired hlive (revokeAllRow_cases ..) (Or.inl rfl)
      rw [exec_rotate_of_reuse hempty hfind hb]
      rw [List.map_id] at hmap
      exact ⟨rfl, hmap⟩
  | exchange =>
      have hlive := (rotateBranch_eq_exchange.1 hb).2
      exact absurd (Int.lt_of_lt_of_le hpruned (Int.le_trans h.le hle)) (Int.lt_asymm hlive)

theorem SameFate.map {α β : Type} {x y : Except HttpException α × TokenTable} (f : α → β)
    (h : SameFate t now x y) : SameFate t now (x.1.map f, x.2) (y.1.map f, y.2) := by
  have hmap : ∀ z : Except HttpException α, (z.map f).isOk = z.isOk := fun z => by
    cases z <;> rfl
  exact ⟨by rw [hmap, hmap, h.isOk], h.twin⟩

variable {req : Request}

variable (ttlSeconds) in
theorem Paired.sameFate (h : Paired sha256 t u p) (hreq : req.Presents)
    (hstale : ¬ StaleReuse sha256 t u req) :
    SameFate t (u.now + req.delay)
      (Service.exec (req.call.service sha256 ttlSeconds (u.now + req.delay) req.newToken) u.table)
      (Service.exec (req.call.service sha256 ttlSeconds (u.now + req.delay) req.newToken)
        p.table) := by
  have hle : u.now ≤ u.now + req.delay := Int.le_add_of_nonneg_right (Int.natCast_nonneg _)
  obtain ⟨delay, call, newToken⟩ := req
  cases call with
  | rotate tok =>
      simp only [Call.service, Service.exec_bind_pure]
      refine SameFate.map _ ?_
      cases hfind : findByToken sha256 u.table.rows tok with
      | none =>
          have hfind' := h.findByToken_of_pruned tok (by simp [hfind])
          rw [exec_rotate_of_none (Or.inr hfind), exec_rotate_of_none (Or.inr hfind')]
          exact h.unchanged hle _
      | some w =>
          by_cases hpruned : w.expiresAt < t
          · obtain ⟨hw, hhash⟩ := h.whole.findByToken_eq_some.1 hfind
            refine h.rotate_of_pruned hle newToken hfind hpruned fun hempty hb x hx huser hrole
              hlive hx' => hstale ?_
            obtain ⟨hrevoked, hreplaced⟩ := rotateBranch_eq_reuse.1 hb
            exact ⟨hempty, w, hw, hhash, hpruned, hrevoked, hreplaced, x, hx, huser,
              hrole, hlive, hx'⟩
          · exact h.rotate_of_kept hle newToken hfind hpruned
  | revoke tok => exact h.revoke hle tok
  | issue userId role token => exact absurd hreq id
  | revokeAllForUser userId role => exact absurd hreq id
  | pruneExpiredTokens => exact absurd hreq id

/-! ## When pruning goes unnoticed -/

theorem forall₂_revokedUnexpired {l l' : List RefreshTokenEntity}
    (h : List.Forall₂ (Alike now) l l') :
    (l'.filter fun r => now < r.expiresAt ∧ r.revokedAt.isSome).map RefreshTokenEntity.id =
      (l.filter fun r => now < r.expiresAt ∧ r.revokedAt.isSome).map RefreshTokenEntity.id := by
  induction h with
  | nil => rfl
  | @cons r r' l l' halike hrest ih =>
      have hiff : (now < r'.expiresAt ∧ r'.revokedAt.isSome = true) ↔
          (now < r.expiresAt ∧ r.revokedAt.isSome = true) := by
        rw [halike.expiresAt]
        exact and_congr_right fun hlt => by rw [halike.revokedAt hlt]
      simp only [List.filter_cons, decide_eq_true_eq, hiff]
      split
      · simp only [List.map_cons, halike.id, ih]
      · exact ih

theorem Paired.revokedUnexpired_eq (h : Paired sha256 t u p) :
    revokedUnexpired u = revokedUnexpired p := by
  have hkept : ((u.table.rows.filter fun r => ¬ r.expiresAt < t).filter fun r =>
      u.now < r.expiresAt ∧ r.revokedAt.isSome) =
      u.table.rows.filter fun r => u.now < r.expiresAt ∧ r.revokedAt.isSome := by
    rw [List.filter_filter]
    refine List.filter_congr fun r _ => ?_
    have himp : u.now < r.expiresAt → ¬ r.expiresAt < t := fun hlt hlt' =>
      Int.lt_asymm hlt (Int.lt_of_lt_of_le hlt' h.le)
    by_cases hlive : u.now < r.expiresAt
    · simp [hlive, himp hlive]
    · simp [hlive]
  have hrows := forall₂_revokedUnexpired h.twin.rows
  rw [hkept] at hrows
  rw [revokedUnexpired, revokedUnexpired, h.now]
  exact hrows.symm

theorem Serial.step_eq {s s' : Serial} (hs : s.step sha256 ttlSeconds req = some s') :
    (∀ d ∈ req.digest sha256, d ∉ s.digests) ∧ s' =
      { table := (Service.exec (req.call.service sha256 ttlSeconds (s.now + req.delay)
          req.newToken) s.table).2
        now := s.now + req.delay
        digests := (req.digest sha256).toList ++ s.digests } := by
  unfold Serial.step at hs
  split at hs
  · exact ⟨‹_›, (Option.some.inj hs).symm⟩
  · cases hs

theorem Paired.exists_step (h : Paired sha256 t u p) {u' : Serial}
    (hs : u.step sha256 ttlSeconds req = some u') :
    ∃ p', p.step sha256 ttlSeconds req = some p' ∧ p'.now = u'.now ∧ p'.digests = u'.digests := by
  obtain ⟨hnew, rfl⟩ := Serial.step_eq hs
  refine ⟨_, if_pos (by rwa [h.digests]), ?_, ?_⟩
  · rw [h.now]
  · rw [h.digests]

theorem Paired.step (h : Paired sha256 t u p) (hreq : req.Presents) {u' p' : Serial}
    (hs : u.step sha256 ttlSeconds req = some u') (hs' : p.step sha256 ttlSeconds req = some p')
    (hstale : ¬ StaleReuse sha256 t u req) :
    Paired sha256 t u' p' ∧
      req.succeeds sha256 ttlSeconds u = req.succeeds sha256 ttlSeconds p := by
  have hfate := h.sameFate ttlSeconds hreq hstale
  obtain ⟨hnew, rfl⟩ := Serial.step_eq hs
  obtain ⟨hnew', rfl⟩ := Serial.step_eq hs'
  refine ⟨⟨by rw [h.now], Int.le_trans h.le ?_, by rw [h.digests], ?_, h.whole.step hs,
    h.pruned.step hs'⟩, ?_⟩
  · exact Int.le_add_of_nonneg_right (Int.natCast_nonneg _)
  · simp only [h.now]
    exact hfate.twin
  · simp only [Request.succeeds, h.now]
    exact hfate.isOk

theorem mem_revokedUnexpired {k : Nat} : k ∈ revokedUnexpired s ↔
    ∃ r ∈ s.table.rows, s.now < r.expiresAt ∧ r.revokedAt.isSome = true ∧ r.id = k := by
  simp only [revokedUnexpired, List.mem_map, List.mem_filter, decide_eq_true_eq, and_assoc]

theorem Paired.not_agree (h : Paired sha256 t u p) {u' p' : Serial}
    (hs : u.step sha256 ttlSeconds req = some u') (hs' : p.step sha256 ttlSeconds req = some p')
    (hstale : StaleReuse sha256 t u req) : revokedUnexpired u' ≠ revokedUnexpired p' := by
  obtain ⟨tok, hcall⟩ : ∃ tok, req.call = .rotate tok := by
    unfold StaleReuse at hstale
    split at hstale
    · exact ⟨_, ‹_›⟩
    · exact hstale.elim
  obtain ⟨delay, call, newToken⟩ := req
  subst hcall
  obtain ⟨hempty, w, hw, hhash, hpruned, hrevoked, hreplaced, x, hx, huser, hrole, hnone,
    hlive⟩ := hstale
  obtain ⟨hnew, rfl⟩ := Serial.step_eq hs
  obtain ⟨hnew', rfl⟩ := Serial.step_eq hs'
  have hfind := h.whole.findByToken_eq_some.2 ⟨hw, hhash⟩
  have hfind' := h.findByToken_of_pruned tok (by simpa [hfind] using hpruned)
  intro heq
  have hmem : x.id ∈ revokedUnexpired
      { table := (Service.exec (Call.service sha256 ttlSeconds (u.now + delay) newToken
          (.rotate tok)) u.table).2, now := u.now + delay } := by
    have hself : revokeAllRow w.userId w.role (u.now + delay) x =
        { x with revokedAt := some (u.now + delay) } := by
      refine if_pos ?_
      simp [revokeAllForUserStmt, huser, hrole, hnone]
    simp only [Call.service, Service.exec_bind_pure]
    rw [exec_rotate_of_reuse hempty hfind (rotateBranch_eq_reuse.2 ⟨hrevoked, hreplaced⟩)]
    refine mem_revokedUnexpired.2 ⟨_, List.mem_map_of_mem hx, ?_⟩
    rw [hself]
    exact ⟨hlive, rfl, rfl⟩
  have hmem' : x.id ∈ revokedUnexpired { p with now := u.now + delay } := by
    have heq' := heq ▸ hmem
    simp only [Call.service, Service.exec_bind_pure] at heq'
    rw [exec_rotate_of_none (Or.inr hfind')] at heq'
    rw [h.now] at heq'
    exact heq'
  -- but there the row that stands for it is not revoked
  obtain ⟨r', hr', hlive', hrevoked', hid⟩ := mem_revokedUnexpired.1 hmem'
  obtain ⟨r, hr, -, halike⟩ := h.twin.exists_whole hr'
  have hrx := h.whole.eq_of_id hr hx (halike.id.symm.trans hid)
  subst hrx
  have hle : u.now ≤ u.now + delay := Int.le_add_of_nonneg_right (Int.natCast_nonneg _)
  rw [halike.revokedAt (Int.lt_of_le_of_lt hle hlive), hnone] at hrevoked'
  cases hrevoked'

theorem Paired.agree_iff (h : Paired sha256 t u p) (hreq : req.Presents) {u' : Serial}
    (hs : u.step sha256 ttlSeconds req = some u') :
    Agree sha256 ttlSeconds (u, p) req ↔ ¬ StaleReuse sha256 t u req := by
  obtain ⟨p', hs', -, -⟩ := h.exists_step hs
  have htwin : twinStep sha256 ttlSeconds (u, p) req = some (u', p') := by simp [twinStep, hs, hs']
  constructor
  · intro hagree hstale
    exact h.not_agree hs hs' hstale (hagree.2 _ htwin)
  · intro hstale
    obtain ⟨hpaired, hsucceeds⟩ := h.step hreq hs hs' hstale
    refine ⟨hsucceeds, fun s' hs'' => ?_⟩
    rw [htwin] at hs''
    cases hs''
    exact hpaired.revokedUnexpired_eq

theorem Paired.along_agree_iff (h : Paired sha256 t u p) {reqs : List Request} {u' : Serial}
    (hreqs : ∀ req ∈ reqs, req.Presents)
    (hrun : run (Serial.step sha256 ttlSeconds) u reqs = some u') :
    Along (twinStep sha256 ttlSeconds) (Agree sha256 ttlSeconds) (u, p) reqs ↔
      Along (Serial.step sha256 ttlSeconds) (fun s req => ¬ StaleReuse sha256 t s req) u reqs := by
  induction reqs generalizing u p with
  | nil => exact Iff.rfl
  | cons req reqs ih =>
      obtain ⟨u₁, hs, hrest⟩ := run_cons_eq_some.1 hrun
      obtain ⟨p₁, hs', -, -⟩ := h.exists_step hs
      have htwin : twinStep sha256 ttlSeconds (u, p) req = some (u₁, p₁) := by
        simp [twinStep, hs, hs']
      have hreq := hreqs req List.mem_cons_self
      have hreqs' := fun r hr => hreqs r (List.mem_cons_of_mem _ hr)
      simp only [Along, h.agree_iff hreq hs, htwin, hs, Option.some.injEq, forall_eq']
      exact and_congr_right fun hstale => ih (h.step hreq hs hs' hstale).1 hreqs' hrest

/-- A committed table is one that a run with nobody inside a call leaves, whatever was under
way in the state it comes from. -/
theorem sound_of_reachable {start : Instant} {p : State}
    (h : Reachable (RefreshTokens.step sha256 ttlSeconds) (initial start) p) (delay : Nat) :
    Sound sha256 (p.shared.serial delay) := by
  have hchain := chainInv_of_reachable h
  have hdb : DbOk { p.shared.db with owner := fun _ => none } :=
    ⟨hchain.shared.db.nodup, hchain.shared.db.bound, fun k c hk => by simp at hk⟩
  let sh : Shared := { p.shared with
    db := { p.shared.db with owner := fun _ => none }, now := p.shared.now + delay }
  have hshared : ChainOk sha256 sh := hchain.shared.congr hdb rfl (Nat.le_refl _) _
  exact ⟨⟨sh, fun _ => {}⟩, ⟨hshared, fun c => ⟨rfl, fun k => by simp [sh]⟩⟩, rfl, rfl,
    fun m hm => List.mem_map_of_mem hm, ⟨hdb, rfl⟩, fun _ => rfl⟩

theorem deleteExpiredBefore_apply (now : Instant) (rows : List RefreshTokenEntity) :
    (deleteExpiredBeforeStmt now).apply rows = rows.filter fun r => ¬ r.expiresAt < now := by
  rw [← List.filterMap_eq_filter]
  refine List.filterMap_congr fun r _ => ?_
  by_cases hr : r.expiresAt < now <;> simp [deleteExpiredBeforeStmt, Option.guard, hr]

theorem Sound.paired_prune (h : Sound sha256 s) : Paired sha256 s.now s s.prune := by
  have hstep : s.step sha256 0 ⟨0, .pruneExpiredTokens, ""⟩ = some s.prune := by
    simp [Serial.step, Serial.prune, Request.digest, Call.drawn, Call.service]
  have hrows : s.prune.table.rows = s.table.rows.filter fun r => ¬ r.expiresAt < s.now := by
    simp [Serial.prune, pruneExpiredTokens, update, deleteExpiredBefore_apply]
  refine ⟨rfl, Int.le_refl _, rfl, ⟨rfl, ?_⟩, h, h.step hstep⟩
  rw [hrows]
  exact List.forall₂_same.2 fun r _ => Alike.refl _ r

/-- Pruning goes unnoticed in exactly the runs in which no rotated token whose row it
deleted is presented again while its principal has a live session. -/
theorem prune_unnoticed_iff (sha256 : String → String) (ttlSeconds : Nat) (start : Instant)
    (p : State) (h : Reachable (RefreshTokens.step sha256 ttlSeconds) (initial start) p)
    (delay : Nat) (reqs : List Request) (hreqs : ∀ req ∈ reqs, req.Presents) (s : Serial)
    (hrun : run (Serial.step sha256 ttlSeconds) (p.shared.serial delay) reqs = some s) :
    Along (twinStep sha256 ttlSeconds) (Agree sha256 ttlSeconds)
        (p.shared.serial delay, (p.shared.serial delay).prune) reqs ↔
      Along (Serial.step sha256 ttlSeconds)
        (fun s req => ¬ StaleReuse sha256 (p.shared.serial delay).now s req)
        (p.shared.serial delay) reqs :=
  (sound_of_reachable h delay).paired_prune.along_agree_iff hreqs hrun

def lateRotation : List (Nat × Action) :=
  [(0, .call (.issue 7 .user "a")), (0, .exec), (0, .tick 59000),
    (0, .call (.rotate "a")), (0, .exec), (0, .resume "b"), (0, .exec), (0, .start),
    (0, .visit 1), (0, .finish)]

/-- Pruned a second after "a" expired, and "b" presented after that. -/
theorem unnoticed_after_lateRotation :
    ∃ p, run (RefreshTokens.step sha256Sample 60) (initial 0) lateRotation = some p ∧
      Along (twinStep sha256Sample 60) (Agree sha256Sample 60)
        (p.shared.serial 2000, (p.shared.serial 2000).prune) [⟨1000, .rotate "b", "c"⟩] := by
  have hrun : ((run (RefreshTokens.step sha256Sample 60) (initial 0) lateRotation).any fun p =>
      (run (Serial.step sha256Sample 60) (p.shared.serial 2000)
          [⟨1000, .rotate "b", "c"⟩]).isSome &&
        decide (Along (Serial.step sha256Sample 60)
          (fun s req => ¬ StaleReuse sha256Sample (p.shared.serial 2000).now s req)
          (p.shared.serial 2000) [⟨1000, .rotate "b", "c"⟩])) = true := by
    decide +kernel
  simp only [Option.any_eq_true, Bool.and_eq_true, decide_eq_true_eq] at hrun
  obtain ⟨p, hp, hsome, halong⟩ := hrun
  obtain ⟨s, hs⟩ := Option.isSome_iff_exists.1 hsome
  exact ⟨p, hp, (prune_unnoticed_iff sha256Sample 60 0 p ⟨_, hp⟩ 2000 _
    (by decide) s hs).2 halong⟩

/-- "a" presented instead: row 2, the token "b", is revoked in the whole table only. -/
theorem noticed_after_lateRotation :
    ∃ p, run (RefreshTokens.step sha256Sample 60) (initial 0) lateRotation = some p ∧
      ¬ Along (twinStep sha256Sample 60) (Agree sha256Sample 60)
        (p.shared.serial 2000, (p.shared.serial 2000).prune) [⟨1000, .rotate "a", "c"⟩] := by
  have hrun : ((run (RefreshTokens.step sha256Sample 60) (initial 0) lateRotation).any fun p =>
      (twinStep sha256Sample 60 (p.shared.serial 2000, (p.shared.serial 2000).prune)
        ⟨1000, .rotate "a", "c"⟩).any fun s =>
          decide (revokedUnexpired s.1 = [2]) && decide (revokedUnexpired s.2 = [])) = true := by
    decide +kernel
  simp only [Option.any_eq_true, Bool.and_eq_true, decide_eq_true_eq] at hrun
  obtain ⟨p, hp, s, hs, hwhole, hpruned⟩ := hrun
  refine ⟨p, hp, fun halong => ?_⟩
  have hagree := halong.1.2 s hs
  rw [hwhole, hpruned] at hagree
  cases hagree

end NestStarter.RefreshTokens
