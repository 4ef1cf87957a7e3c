import NestStarter.RefreshTokens.Machine

/-! # The rotation chain

The invariant behind rotation: a replaced row is revoked, its successor is newer
and belongs to the same principal, and nobody shares it. It is kept by every
step of every client. What carries it is ownership: between a rotation's
conditional update and its commit the old row stays as it was read, so a second
rotation of the same row waits, checks again and rolls back.
-/

namespace NestStarter.RefreshTokens

open NestStarter.Core

/-- The columns no statement updates. -/
def RefreshTokenEntity.minted (r : RefreshTokenEntity) : Minted :=
  ⟨r.id, r.tokenHash, r.userId, r.role⟩

def NewToken.minted (n : NewToken) (id : Nat) : Minted := ⟨id, n.tokenHash, n.userId, n.role⟩

def StmtName.isReplace : StmtName → Bool
  | .replace _ _ _ => true
  | _ => false

theorem StmtName.minted_write {q : StmtName} {r r' : RefreshTokenEntity}
    (h : q.stmt.write r = some r') : r'.minted = r.minted := by
  cases q <;> cases h <;> rfl

theorem StmtName.revokedAt_write {q : StmtName} {r r' : RefreshTokenEntity}
    (h : q.stmt.write r = some r') : r'.revokedAt ≠ none := by
  cases q <;> cases h <;> simp

theorem StmtName.replacedById_write {q : StmtName} (hq : q.isReplace = false)
    {r r' : RefreshTokenEntity} (h : q.stmt.write r = some r') :
    r'.replacedById = r.replacedById := by
  cases q with
  | replace id savedId now => cases hq
  | deleteExpiredBefore now => cases h
  | revoke id at_ => cases h; rfl
  | revokeAllForUser userId role at_ => cases h; rfl

/-- The table, the tokens inserted so far and the exchanges so far. -/
structure ChainOk (sha256 : String → String) (sh : Shared) : Prop where
  db : DbOk sh.db
  mintedId : (sh.minted.map Minted.id).Nodup
  mintedHash : (sh.minted.map Minted.tokenHash).Nodup
  mintedBound : ∀ m ∈ sh.minted, m.id < sh.db.nextId
  recorded : ∀ r ∈ sh.db.rows, r.minted ∈ sh.minted
  exchange : ∀ e ∈ sh.exchanges, ∃ m ∈ sh.minted, ∃ m' ∈ sh.minted,
    m.id = e.oldId ∧ m'.id = e.newId ∧ e.oldId < e.newId ∧ m'.userId = m.userId ∧
      m'.role = m.role ∧ m.tokenHash = sha256 e.presentedToken
  oldId : (sh.exchanges.map Exchange.oldId).Nodup
  newId : (sh.exchanges.map Exchange.newId).Nodup
  spent : ∀ e ∈ sh.exchanges, ∀ r ∈ sh.db.rows, r.id = e.oldId →
    r.revokedAt ≠ none ∧ r.replacedById = some e.newId
  replaced : ∀ r ∈ sh.db.rows, ∀ k, r.replacedById = some k →
    r.revokedAt ≠ none ∧ ∃ e ∈ sh.exchanges, e.oldId = r.id ∧ e.newId = k

/-- No open transaction. -/
def Quiet (c : Nat) (sh : Shared) (txn : Txn RefreshTokenEntity) : Prop :=
  txn = {} ∧ ∀ k, sh.db.owner k ≠ some c

/-- A row once read for `presentedToken`. -/
def Known (sha256 : String → String) (sh : Shared) (presentedToken : String)
    (row : RefreshTokenEntity) : Prop :=
  row.minted ∈ sh.minted ∧ row.tokenHash = sha256 presentedToken

/-- A row that has taken part in no exchange. -/
def Fresh (sh : Shared) (id : Nat) : Prop :=
  ∀ e ∈ sh.exchanges, e.oldId ≠ id ∧ e.newId ≠ id

/-- The transaction of a rotation that has inserted row `newId` to replace `oldId`. -/
def Replacing (sha256 : String → String) (sh : Shared) (txn : Txn RefreshTokenEntity)
    (presentedToken : String) (oldId newId : Nat) : Prop :=
  ∃ n : NewToken, txn.inserted = [n.row newId] ∧ n.minted newId ∈ sh.minted ∧
    Fresh sh newId ∧
    ∃ m ∈ sh.minted, m.id = oldId ∧ oldId < newId ∧ n.userId = m.userId ∧ n.role = m.role ∧
      m.tokenHash = sha256 presentedToken

/-- What an `UPDATE` or `DELETE` knows of its transaction. -/
def StmtOk (sha256 : String → String) (c : Nat) (sh : Shared) (txn : Txn RefreshTokenEntity)
    (q : StmtName) : Next → Prop
  | .commit => TxnOk c sh.db txn q.stmt ∧ txn.inserted = [] ∧ q.isReplace = false
  | .commitIfOne presentedToken oldId newId =>
      TxnOk c sh.db txn q.stmt ∧ Replacing sha256 sh txn presentedToken oldId newId ∧
        ∃ now, q = .replace oldId newId now

/-- What a client knows where it stands. -/
def PcOk (sha256 : String → String) (c : Nat) (sh : Shared) (lo : Local) : Prop :=
  match lo.pc with
  | .idle | .insert _ | .find _ _ => Quiet c sh lo.txn
  | .found _ presentedToken row =>
      Quiet c sh lo.txn ∧ ∀ r, row = some r → Known sha256 sh presentedToken r
  | .replaceInsert presentedToken row n _ =>
      Quiet c sh lo.txn ∧ Known sha256 sh presentedToken row ∧ n.userId = row.userId ∧
        n.role = row.role
  | .update q next => StmtOk sha256 c sh lo.txn q next ∧ lo.txn.writes = []
  | .scan q _ next => StmtOk sha256 c sh lo.txn q next

abbrev ChainInv (sha256 : String → String) : State → Prop :=
  Pool.Holds (ChainOk sha256) (PcOk sha256)

variable {sha256 : String → String} {ttlSeconds : Nat}

theorem Quiet.txnOk {c : Nat} {sh : Shared} {txn : Txn RefreshTokenEntity}
    (h : Quiet c sh txn) (q : Stmt RefreshTokenEntity) : TxnOk c sh.db txn q := by
  obtain ⟨rfl, hfree⟩ := h
  exact TxnOk.empty_iff.2 hfree

theorem StmtOk.txnOk {c : Nat} {sh : Shared} {txn : Txn RefreshTokenEntity} {q : StmtName}
    {next : Next} (h : StmtOk sha256 c sh txn q next) : TxnOk c sh.db txn q.stmt := by
  cases next <;> exact h.1

/-- A client's knowledge survives a step of another that only adds to the history
and respects ownership. -/
theorem PcOk.mono {d : Nat} {sh sh' : Shared} {lo : Local} (h : PcOk sha256 d sh lo)
    (hminted : ∀ m ∈ sh.minted, m ∈ sh'.minted)
    (htxn : ∀ t q, TxnOk d sh.db t q → TxnOk d sh'.db t q)
    (hnew : ∀ r ∈ lo.txn.inserted, Fresh sh r.id → Fresh sh' r.id) : PcOk sha256 d sh' lo := by
  have hquiet : Quiet d sh lo.txn → Quiet d sh' lo.txn := fun hq =>
    ⟨hq.1, TxnOk.empty_iff.1 (hq.1 ▸ htxn _ (deleteExpiredBeforeStmt 0) (hq.txnOk _))⟩
  have hknown : ∀ {tok row}, Known sha256 sh tok row → Known sha256 sh' tok row :=
    fun hk => ⟨hminted _ hk.1, hk.2⟩
  have hstmt : ∀ {q next}, StmtOk sha256 d sh lo.txn q next →
      StmtOk sha256 d sh' lo.txn q next := by
    intro q next hq
    cases next with
    | commit => exact ⟨htxn _ _ hq.1, hq.2⟩
    | commitIfOne tok oldId newId =>
        obtain ⟨ht, ⟨n, hins, hn, hfresh, m, hm, hrest⟩, hq⟩ := hq
        exact ⟨htxn _ _ ht, ⟨n, hins, hminted _ hn, hnew (n.row newId) (by simp [hins]) hfresh,
          m, hminted _ hm, hrest⟩, hq⟩
  unfold PcOk at h ⊢
  cases hpc : lo.pc with
  | idle => simp only [hpc] at h ⊢; exact hquiet h
  | insert n => simp only [hpc] at h ⊢; exact hquiet h
  | find rotating tok => simp only [hpc] at h ⊢; exact hquiet h
  | found rotating tok row =>
      simp only [hpc] at h ⊢
      exact ⟨hquiet h.1, fun r hr => hknown (h.2 r hr)⟩
  | replaceInsert tok row n now => simp only [hpc] at h ⊢; exact ⟨hquiet h.1, hknown h.2.1, h.2.2⟩
  | update q next => simp only [hpc] at h ⊢; exact ⟨hstmt h.1, h.2⟩
  | scan q todo next => simp only [hpc] at h ⊢; exact hstmt h

/-! ## The table under each statement -/

theorem ChainOk.minted_eq {sh : Shared} (h : ChainOk sha256 sh) {m m' : Minted}
    (hm : m ∈ sh.minted) (hm' : m' ∈ sh.minted) (hid : m.id = m'.id) : m = m' :=
  List.inj_on_of_nodup_map h.mintedId hm hm' hid

/-- A key the sequence has not handed out has no history. -/
theorem ChainOk.fresh {sh : Shared} (h : ChainOk sha256 sh) {id : Nat} (hid : sh.db.nextId ≤ id) :
    Fresh sh id := by
  intro e he
  obtain ⟨m, hm, m', hm', hold, hnew, _⟩ := h.exchange e he
  have := h.mintedBound m hm
  have := h.mintedBound m' hm'
  constructor <;> omega

/-- The table keeps its rows: a lock taken, a rollback, or only the clock. -/
theorem ChainOk.congr {sh : Shared} (h : ChainOk sha256 sh) {db : Db RefreshTokenEntity}
    (hdb : DbOk db) (hrows : db.rows = sh.db.rows) (hnext : sh.db.nextId ≤ db.nextId)
    (now : Instant) : ChainOk sha256 { sh with db, now } where
  db := hdb
  mintedId := h.mintedId
  mintedHash := h.mintedHash
  mintedBound := by
    intro m hm
    have hlt := h.mintedBound m hm
    show m.id < db.nextId
    omega
  recorded := fun r hr => h.recorded r (hrows ▸ hr)
  exchange := h.exchange
  oldId := h.oldId
  newId := h.newId
  spent := fun e he r hr => h.spent e he r (hrows ▸ hr)
  replaced := fun r hr => h.replaced r (hrows ▸ hr)

/-- A token is drawn and recorded; its row is not committed yet. -/
theorem ChainOk.mint {sh : Shared} (h : ChainOk sha256 sh) {n : NewToken} (hn : sh.Distinct n)
    {db : Db RefreshTokenEntity} (hdb : DbOk db) (hrows : db.rows = sh.db.rows)
    (hnext : db.nextId = sh.db.nextId + 1) :
    ChainOk sha256 { sh with db, minted := sh.mint n } where
  db := hdb
  mintedId := by
    have hfresh : sh.db.nextId ∉ sh.minted.map Minted.id := by
      intro hmem
      obtain ⟨m, hm, hid⟩ := List.mem_map.1 hmem
      have := h.mintedBound m hm
      omega
    exact List.nodup_cons.2 ⟨hfresh, h.mintedId⟩
  mintedHash := List.nodup_cons.2 ⟨hn, h.mintedHash⟩
  mintedBound := by
    intro m hm
    rcases List.mem_cons.1 hm with rfl | hm
    · simp [hnext]
    · have := h.mintedBound m hm
      simp only [hnext]
      omega
  recorded := fun r hr => List.mem_cons_of_mem _ (h.recorded r (hrows ▸ hr))
  exchange := fun e he => by
    obtain ⟨m, hm, m', hm', hrest⟩ := h.exchange e he
    exact ⟨m, List.mem_cons_of_mem _ hm, m', List.mem_cons_of_mem _ hm', hrest⟩
  oldId := h.oldId
  newId := h.newId
  spent := fun e he r hr => h.spent e he r (hrows ▸ hr)
  replaced := fun r hr => h.replaced r (hrows ▸ hr)

theorem ChainOk.append {sh : Shared} (h : ChainOk sha256 sh) {n : NewToken} (hn : sh.Distinct n)
    (issued : List Nat) :
    ChainOk sha256 { sh with db := sh.db.append n.row, minted := sh.mint n, issued } := by
  have hmint := h.mint hn (h.db.insert 0 {} n.row) rfl rfl
  have hfresh := h.fresh (Nat.le_refl sh.db.nextId)
  refine ⟨h.db.append n.key_row, hmint.mintedId, hmint.mintedHash, hmint.mintedBound, ?_,
    hmint.exchange, h.oldId, h.newId, ?_, ?_⟩
  · intro r hr
    rcases List.mem_append.1 hr with hr | hr
    · exact List.mem_cons_of_mem _ (h.recorded r hr)
    · rw [List.mem_singleton.1 hr]
      exact List.mem_cons_self
  · intro e he r hr hid
    rcases List.mem_append.1 hr with hr | hr
    · exact h.spent e he r hr hid
    · rw [List.mem_singleton.1 hr] at hid
      exact absurd hid.symm (hfresh e he).1
  · intro r hr k hk
    rcases List.mem_append.1 hr with hr | hr
    · exact h.replaced r hr k hk
    · rw [List.mem_singleton.1 hr] at hk
      cases hk

/-- The rows after a statement other than `rotate`'s has committed. -/
theorem StmtOk.mem_commit {sh : Shared} {c : Nat} {txn : Txn RefreshTokenEntity} {q : StmtName}
    (hq : StmtOk sha256 c sh txn q .commit) (h : DbOk sh.db) {r : RefreshTokenEntity}
    (hr : r ∈ (sh.db.commit c txn).rows) :
    (r ∈ sh.db.rows ∧ r.id ∉ txn.writes.map Prod.fst) ∨
      ∃ r₀ ∈ sh.db.rows, q.stmt.write r₀ = some r := by
  obtain ⟨ht, hins, _⟩ := hq
  rw [Db.commit_rows h ht, hins, List.append_nil] at hr
  rcases Stmt.mem_applyTo.1 hr with ⟨hr, hk⟩ | ⟨r₀, hr₀, _, hw⟩
  · exact Or.inl ⟨hr, hk⟩
  · exact Or.inr ⟨r₀, hr₀, hw⟩

/-- A statement other than `rotate`'s commits on its own. -/
theorem ChainOk.commit {sh : Shared} {c : Nat} {txn : Txn RefreshTokenEntity} {q : StmtName}
    (h : ChainOk sha256 sh) (hq : StmtOk sha256 c sh txn q .commit) :
    ChainOk sha256 { sh with db := sh.db.commit c txn } := by
  have hrep := hq.2.2
  refine ⟨h.db.commit hq.1, h.mintedId, h.mintedHash, h.mintedBound, ?_, h.exchange, h.oldId,
    h.newId, ?_, ?_⟩
  · intro r hr
    rcases hq.mem_commit h.db hr with ⟨hr, _⟩ | ⟨r₀, hr₀, hw⟩
    · exact h.recorded r hr
    · rw [StmtName.minted_write hw]
      exact h.recorded r₀ hr₀
  · intro e he r hr hid
    rcases hq.mem_commit h.db hr with ⟨hr, _⟩ | ⟨r₀, hr₀, hw⟩
    · exact h.spent e he r hr hid
    · have hid₀ : r.id = r₀.id := congrArg Minted.id (StmtName.minted_write hw)
      rw [StmtName.replacedById_write hrep hw]
      exact ⟨StmtName.revokedAt_write hw, (h.spent e he r₀ hr₀ (hid₀ ▸ hid)).2⟩
  · intro r hr k hk
    rcases hq.mem_commit h.db hr with ⟨hr, _⟩ | ⟨r₀, hr₀, hw⟩
    · exact h.replaced r hr k hk
    · rw [StmtName.replacedById_write hrep hw] at hk
      have hid : r.id = r₀.id := congrArg Minted.id (StmtName.minted_write hw)
      rw [hid]
      exact ⟨StmtName.revokedAt_write hw, (h.replaced r₀ hr₀ k hk).2⟩

/-- A conditional update that affected one row locked the row that was looked up,
still unrevoked. -/
theorem StmtOk.locked {sh : Shared} {c : Nat} {txn : Txn RefreshTokenEntity} {q : StmtName}
    {tok : String} {oldId newId : Nat}
    (hq : StmtOk sha256 c sh txn q (.commitIfOne tok oldId newId))
    (hone : txn.writes.length = 1) :
    ∃ now, ∃ r₀ ∈ sh.db.rows, q = .replace oldId newId now ∧ r₀.id = oldId ∧ r₀.revokedAt = none ∧
      txn.writes = [(oldId, (replaceStmt oldId newId now).write r₀)] := by
  obtain ⟨ht, _, now, rfl⟩ := hq
  obtain ⟨⟨k, v⟩, hw⟩ := List.length_eq_one_iff.1 hone
  obtain ⟨r₀, hr₀, rfl, hsel, rfl⟩ := ht.write k v (by simp [hw])
  have hsel' : r₀.id = oldId ∧ r₀.revokedAt = none := by
    simpa [StmtName.stmt, replaceStmt] using hsel
  refine ⟨now, r₀, hr₀, rfl, hsel'.1, hsel'.2, ?_⟩
  rw [hw, key_eq_id, hsel'.1]
  rfl

theorem StmtOk.mem_exchange {sh : Shared} {c : Nat} {txn : Txn RefreshTokenEntity} {tok : String}
    {oldId newId : Nat} {now : Instant}
    (hq : StmtOk sha256 c sh txn (.replace oldId newId now) (.commitIfOne tok oldId newId))
    (h : DbOk sh.db) {r₀ : RefreshTokenEntity} (hr₀ : r₀ ∈ sh.db.rows) (hr₀id : r₀.id = oldId)
    (hw : txn.writes = [(oldId, (replaceStmt oldId newId now).write r₀)]) {r : RefreshTokenEntity}
    (hr : r ∈ (sh.db.commit c txn).rows) :
    (r ∈ sh.db.rows ∧ r.id ≠ oldId) ∨
      r = { r₀ with revokedAt := some now, replacedById := some newId, lastUsedAt := some now } ∨
      r ∈ txn.inserted := by
  rw [Db.commit_rows h hq.1] at hr
  rcases List.mem_append.1 hr with hr | hr
  · rcases Stmt.mem_applyTo.1 hr with ⟨hr, hk⟩ | ⟨r₁, hr₁, hk, hw₁⟩
    · exact Or.inl ⟨hr, by simpa [hw] using hk⟩
    · have he : r₁ = r₀ := h.eq_of_key hr₁ hr₀ (by simpa [hw, hr₀id] using hk)
      subst he
      exact Or.inr (Or.inl (Option.some.inj hw₁).symm)
  · exact Or.inr (Or.inr hr)

/-- A rotation commits: the new row appears and the old one names it. -/
theorem ChainOk.exchanged {sh : Shared} {c : Nat} {txn : Txn RefreshTokenEntity} {q : StmtName}
    {tok : String} {oldId newId : Nat} (h : ChainOk sha256 sh)
    (hq : StmtOk sha256 c sh txn q (.commitIfOne tok oldId newId))
    (hone : txn.writes.length = 1) :
    ChainOk sha256 { sh with
      db := sh.db.commit c txn
      exchanges := ⟨tok, oldId, newId⟩ :: sh.exchanges } := by
  obtain ⟨now, r₀, hr₀, rfl, hr₀id, hr₀rev, hwrites⟩ := hq.locked hone
  have hrow : ∀ r ∈ (sh.db.commit c txn).rows, _ := fun r hr =>
    hq.mem_exchange h.db hr₀ hr₀id hwrites hr
  obtain ⟨ht, ⟨n, hins, hn, hfresh, m, hm, hmid, hlt, hrest⟩, _⟩ := hq
  simp only [hins, List.mem_singleton] at hrow
  refine ⟨h.db.commit ht, h.mintedId, h.mintedHash, h.mintedBound, ?_, ?_, ?_, ?_, ?_, ?_⟩
  · intro r hr
    rcases hrow r hr with ⟨hr, _⟩ | rfl | rfl
    · exact h.recorded r hr
    · exact h.recorded r₀ hr₀
    · exact hn
  · intro e he
    rcases List.mem_cons.1 he with rfl | he
    · exact ⟨m, hm, n.minted newId, hn, hmid, rfl, hlt, hrest⟩
    · exact h.exchange e he
  · refine List.nodup_cons.2 ⟨fun hmem => ?_, h.oldId⟩
    obtain ⟨e, he, hold⟩ := List.mem_map.1 hmem
    exact (h.spent e he r₀ hr₀ (hr₀id.trans hold.symm)).1 hr₀rev
  · refine List.nodup_cons.2 ⟨fun hmem => ?_, h.newId⟩
    obtain ⟨e, he, hnew⟩ := List.mem_map.1 hmem
    exact (hfresh e he).2 hnew
  · intro e he r hr hid
    rcases List.mem_cons.1 he with rfl | he
    · rcases hrow r hr with ⟨_, hne⟩ | rfl | rfl
      · exact absurd hid hne
      · simp
      · exact absurd hid (Nat.ne_of_gt hlt)
    · rcases hrow r hr with ⟨hr, _⟩ | rfl | rfl
      · exact h.spent e he r hr hid
      · exact absurd hr₀rev (h.spent e he r₀ hr₀ hid).1
      · exact absurd hid.symm (hfresh e he).1
  · intro r hr k hk
    rcases hrow r hr with ⟨hr, _⟩ | rfl | rfl
    · obtain ⟨hrev, e, he, hek⟩ := h.replaced r hr k hk
      exact ⟨hrev, e, List.mem_cons_of_mem _ he, hek⟩
    · obtain rfl : newId = k := by simpa using hk
      exact ⟨by simp, _, List.mem_cons_self, hr₀id.symm, rfl⟩
    · cases hk

theorem PcOk.txnOk {c : Nat} {sh : Shared} {lo : Local} (h : PcOk sha256 c sh lo) :
    ∃ q, TxnOk c sh.db lo.txn q := by
  unfold PcOk at h
  cases hpc : lo.pc with
  | idle => simp only [hpc] at h; exact ⟨_, h.txnOk (deleteExpiredBeforeStmt 0)⟩
  | insert n => simp only [hpc] at h; exact ⟨_, h.txnOk (deleteExpiredBeforeStmt 0)⟩
  | find rotating tok => simp only [hpc] at h; exact ⟨_, h.txnOk (deleteExpiredBeforeStmt 0)⟩
  | found rotating tok row => simp only [hpc] at h; exact ⟨_, h.1.txnOk (deleteExpiredBeforeStmt 0)⟩
  | replaceInsert tok row n now =>
      simp only [hpc] at h
      exact ⟨_, h.1.txnOk (deleteExpiredBeforeStmt 0)⟩
  | update q next => simp only [hpc] at h; exact ⟨_, h.1.txnOk⟩
  | scan q todo next => simp only [hpc] at h; exact ⟨_, h.txnOk⟩

/-- A statement about to start in a transaction of its own. -/
theorem Quiet.update {c : Nat} {sh : Shared} {txn : Txn RefreshTokenEntity} (h : Quiet c sh txn)
    {q : StmtName} (hq : q.isReplace = false) : PcOk sha256 c sh ⟨.update q .commit, txn⟩ :=
  ⟨⟨h.txnOk _, by rw [h.1], hq⟩, by rw [h.1]⟩

theorem Quiet.call {c : Nat} {sh : Shared} {txn : Txn RefreshTokenEntity} (h : Quiet c sh txn)
    (k : Call) : PcOk sha256 c sh ⟨begin sha256 ttlSeconds sh.now k, txn⟩ := by
  cases k with
  | issue userId role token => exact h
  | rotate tok =>
      by_cases hempty : tok.length = 0
      · rw [begin, if_pos hempty]
        exact h
      · rw [begin, if_neg hempty]
        exact h
  | revoke tok => exact h
  | revokeAllForUser userId role => exact h.update rfl
  | pruneExpiredTokens => exact h.update rfl

theorem Quiet.resume {c : Nat} {sh : Shared} {txn : Txn RefreshTokenEntity} (h : Quiet c sh txn)
    (newToken : String) (rotating : Bool) (tok : String) (row : Option RefreshTokenEntity)
    (hrow : ∀ r, row = some r → Known sha256 sh tok r) :
    PcOk sha256 c sh ⟨afterFind sha256 ttlSeconds sh.now newToken rotating tok row, txn⟩ := by
  cases row with
  | none => cases rotating <;> exact h
  | some r =>
      cases rotating with
      | false =>
          by_cases hrev : r.revokedAt.isSome
          · rw [afterFind, if_pos hrev]
            exact h
          · rw [afterFind, if_neg hrev]
            exact h.update rfl
      | true =>
          cases hb : rotateBranch sh.now r with
          | reuse => simpa only [afterFind, hb] using h.update rfl
          | reject =>
              simp only [afterFind, hb]
              exact h
          | exchange =>
              simp only [afterFind, hb]
              exact ⟨h, hrow r rfl, rfl, rfl⟩

theorem ChainOk.known {sh : Shared} (h : ChainOk sha256 sh) {tok : String} {r : RefreshTokenEntity}
    (hr : findByToken sha256 sh.db.rows tok = some r) : Known sha256 sh tok r :=
  ⟨h.recorded r (List.mem_of_find?_eq_some hr), by simpa using List.find?_some hr⟩

/-- `rotate`'s insert: the new row is the caller's own until the transaction ends. -/
theorem Quiet.replacing {c : Nat} {sh : Shared} {txn : Txn RefreshTokenEntity} {tok : String}
    {row : RefreshTokenEntity} {n : NewToken} (now : Instant) (h : Quiet c sh txn)
    (hsh : ChainOk sha256 sh) (hrow : Known sha256 sh tok row) (huser : n.userId = row.userId)
    (hrole : n.role = row.role) :
    PcOk sha256 c { sh with db := (sh.db.insert c txn n.row).1, minted := sh.mint n }
      ⟨.update (.replace row.id sh.db.nextId now) (.commitIfOne tok row.id sh.db.nextId),
        (sh.db.insert c txn n.row).2⟩ := by
  have hlt : row.id < sh.db.nextId := hsh.mintedBound _ hrow.1
  obtain ⟨rfl, hfree⟩ := h
  have hnot : (replaceStmt row.id sh.db.nextId now).selects (n.row sh.db.nextId) = false := by
    simp [replaceStmt, NewToken.row, Nat.ne_of_gt hlt]
  have ht : TxnOk c (sh.db.insert c {} n.row).1 (sh.db.insert c {} n.row).2
      (replaceStmt row.id sh.db.nextId now) :=
    TxnOk.insert hsh.db (TxnOk.empty_iff.2 hfree) (q := deleteExpiredBeforeStmt 0) n.key_row hnot
  refine ⟨⟨ht, ⟨n, rfl, List.mem_cons_self, hsh.fresh (Nat.le_refl _), row.minted,
    List.mem_cons_of_mem _ hrow.1, rfl, hlt, huser, hrole, hrow.2⟩, now, rfl⟩, rfl⟩

theorem StmtOk.visit {c : Nat} {sh : Shared} {txn txn' : Txn RefreshTokenEntity}
    {db : Db RefreshTokenEntity} {q : StmtName} {next : Next} {k : Nat}
    (h : StmtOk sha256 c sh txn q next) (hv : sh.db.visit c txn q.stmt k = some (db, txn')) :
    StmtOk sha256 c { sh with db } txn' q next := by
  have ht' := h.txnOk.visit hv
  have hins : txn'.inserted = txn.inserted := by
    obtain ⟨_, ⟨_, rfl, _⟩ | ⟨_, _, _, _, _, rfl⟩⟩ := Db.visit_spec hv <;> rfl
  cases next with
  | commit => exact ⟨ht', hins.trans h.2.1, h.2.2⟩
  | commitIfOne tok oldId newId =>
      obtain ⟨_, ⟨n, hn, hrest⟩, hq⟩ := h
      exact ⟨ht', ⟨n, hins.trans hn, hrest⟩, hq⟩

/-! ## Every step keeps the invariant -/

theorem Moves.chain {c : Nat} {sh sh' : Shared} {lo lo' : Local} {a : Action}
    (hm : Moves sha256 ttlSeconds c sh lo a sh' lo') (h : ChainOk sha256 sh)
    (hc : PcOk sha256 c sh lo) : ChainOk sha256 sh' ∧ PcOk sha256 c sh' lo' := by
  cases hm with
  | tick => exact ⟨h.congr h.db rfl (Nat.le_refl _) _, hc⟩
  | call txn k => exact ⟨h, Quiet.call hc k⟩
  | insert txn n hn => exact ⟨h.append hn _, hc⟩
  | find txn rotating tok => exact ⟨h, hc, fun r hr => h.known hr⟩
  | replaceInsert txn tok row n now hn =>
      obtain ⟨hquiet, hrow, huser, hrole⟩ := hc
      exact ⟨h.mint hn (h.db.insert c txn n.row) rfl rfl,
        hquiet.replacing now h hrow huser hrole⟩
  | resume txn rotating tok newToken row => exact ⟨h, hc.1.resume newToken rotating tok row hc.2⟩
  | start txn q next => exact ⟨h, hc.1⟩
  | visit txn txn' db q todo next k hk hv =>
      obtain ⟨hrows, hnext⟩ := Db.visit_rows hv
      exact ⟨h.congr (h.db.visit (StmtOk.txnOk hc) hv) hrows (Nat.le_of_eq hnext.symm) sh.now,
        hc.visit hv⟩
  | commit txn q => exact ⟨h.commit hc, rfl, fun k => sh.db.release_ne c k⟩
  | exchange txn q tok oldId newId hone =>
      exact ⟨h.exchanged hc hone, rfl, fun k => sh.db.release_ne c k⟩
  | rollback txn q tok oldId newId hone =>
      exact ⟨h.congr (h.db.rollback c) rfl (Nat.le_refl _) sh.now, rfl,
        fun k => sh.db.release_ne c k⟩

theorem Moves.interfere {c d : Nat} {sh sh' : Shared} {lo lo' lod : Local} {a : Action}
    (hm : Moves sha256 ttlSeconds c sh lo a sh' lo') (h : ChainOk sha256 sh)
    (hc : PcOk sha256 c sh lo) (hne : d ≠ c) (hd : PcOk sha256 d sh lod) :
    PcOk sha256 d sh' lod := by
  cases hm with
  | tick => exact hd.mono (fun _ hm => hm) (fun _ _ ht => ht) (fun _ _ hf => hf)
  | call txn k => exact hd
  | insert txn n hn =>
      exact hd.mono (fun _ hm => List.mem_cons_of_mem _ hm)
        (fun _ _ ht => ht.append h.db n.key_row) (fun _ _ hf => hf)
  | find txn rotating tok => exact hd
  | replaceInsert txn tok row n now hn =>
      exact hd.mono (fun _ hm => List.mem_cons_of_mem _ hm)
        (fun _ _ ht => ht.other_insert h.db hne txn n.row) (fun _ _ hf => hf)
  | resume txn rotating tok newToken row => exact hd
  | start txn q next => exact hd
  | visit txn txn' db q todo next k hk hv =>
      exact hd.mono (fun _ hm => hm) (fun _ _ ht => TxnOk.other_visit hne ht hv) (fun _ _ hf => hf)
  | commit txn q =>
      exact hd.mono (fun _ hm => hm) (fun _ _ ht => TxnOk.other_commit h.db hc.1 hne ht)
        (fun _ _ hf => hf)
  | exchange txn q tok oldId newId hone =>
      obtain ⟨now, r₀, hr₀, rfl, rfl, _⟩ := hc.locked hone
      obtain ⟨ht, ⟨n, (hins : txn.inserted = [n.row newId]), _⟩, _⟩ := hc
      obtain ⟨p, hp⟩ := hd.txnOk
      refine hd.mono (fun _ hm => hm) (fun _ _ hu => TxnOk.other_commit h.db ht hne hu)
        fun r hr hf e he => ?_
      rcases List.mem_cons.1 he with rfl | he
      · -- the old row is committed and the new one is the mover's own
        refine ⟨fun hid => (hp.inserted r hr).2 (List.mem_map.2 ⟨r₀, hr₀, hid⟩), fun hid => ?_⟩
        exact TxnOk.ne_of_owned ht hp hne (Or.inr (by simp [hins]))
          (Or.inr (List.mem_map.2 ⟨r, hr, hid.symm⟩))
      · exact hf e he
  | rollback txn q tok oldId newId hone =>
      exact hd.mono (fun _ hm => hm) (fun _ _ ht => TxnOk.other_rollback hne ht) (fun _ _ hf => hf)

theorem ChainInv.step {s s' : State} {a : Nat × Action} (h : ChainInv sha256 s)
    (hs : step sha256 ttlSeconds s a = some s') : ChainInv sha256 s' := by
  obtain ⟨sh, lo, hm, rfl⟩ := Pool.step_spec hs
  have hmoves := move_spec hm
  obtain ⟨hsh, hown⟩ := hmoves.chain h.shared (h.client a.1)
  exact Pool.Holds.move hsh hown fun d hd =>
    hmoves.interfere h.shared (h.client a.1) hd (h.client d)

theorem ChainInv.initial (now : Instant) : ChainInv sha256 (initial now) where
  shared := by
    refine ⟨⟨?_, ?_, ?_⟩, ?_, ?_, ?_, ?_, ?_, ?_, ?_, ?_, ?_⟩ <;>
      simp [NestStarter.RefreshTokens.initial]
  client := fun c => ⟨rfl, fun k => by simp [NestStarter.RefreshTokens.initial]⟩

theorem chainInv_of_reachable {now : Instant} {s : State}
    (h : Reachable (step sha256 ttlSeconds) (initial now) s) : ChainInv sha256 s :=
  h.inv (ChainInv.initial now) fun _ _ _ hs he => hs.step he

end NestStarter.RefreshTokens
