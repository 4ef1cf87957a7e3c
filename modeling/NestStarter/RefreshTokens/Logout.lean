import NestStarter.RefreshTokens.SingleUse

/-! # Logging out while the session refreshes itself

`revoke` reads the row of the presented token and updates it by its id in a second
statement. It ends the session exactly when the token has not been exchanged: a
successor is a row of its own that `revoke` never looks at. The rotations it runs
beside leave every other session alone, until one of them is handed a token that
was exchanged before and takes it for theft.
-/

namespace NestStarter.RefreshTokens

open NestStarter.Core

variable {sha256 : String → String} {ttlSeconds : Nat}

/-- One chain of exchanges goes through both rows. -/
def SameChain (sh : Shared) (a b : Nat) : Prop := Descends sh a b ∨ Descends sh b a

/-- Row `id` was given up for a successor. -/
def Spent (sh : Shared) (id : Nat) : Prop := ∃ e ∈ sh.exchanges, e.oldId = id

/-- A step that starts no call but `revoke(tok)` and `rotate`. -/
def Action.OfLogout (tok : String) : Action → Prop
  | .call (.revoke presented) => presented = tok
  | .call (.rotate _) => True
  | .call _ => False
  | _ => True

instance (tok : String) (a : Action) : Decidable (a.OfLogout tok) := by
  unfold Action.OfLogout; split <;> infer_instance

def lookedUp (sha256 : String → String) (p : State) (a : Nat × Action) :
    Option RefreshTokenEntity :=
  match a.2, (p.client a.1).pc with
  | .exec, .find true tok => findByToken sha256 p.shared.db.rows tok
  | _, _ => none

/-- A `rotate` that looks up its token finds row `root` or a successor of it, or nothing. -/
def OnSession (sha256 : String → String) (root : Nat) (p : State) (a : Nat × Action) : Prop :=
  ∀ r, lookedUp sha256 p a = some r → Descends p.shared root r.id

/-- A `rotate` has found a token that was exchanged before. -/
def DetectsReuse (p : State) (a : Nat × Action) : Prop :=
  match a.2, (p.client a.1).pc with
  | .resume _, .found true _ (some r) => rotateBranch p.shared.now r = .reuse
  | _, _ => False

/-- Some `rotate` of the run detects a reuse. -/
def ReuseIn (sha256 : String → String) (ttlSeconds : Nat) (s : State)
    (acts : List (Nat × Action)) : Prop :=
  ∃ as₁ a as₂ p, acts = as₁ ++ a :: as₂ ∧ run (step sha256 ttlSeconds) s as₁ = some p ∧
    DetectsReuse p a

/-- A row before and after: only a detected reuse may have revoked it. -/
def Kept (reuse : Prop) (userId : Nat) (role : Role) (r r' : RefreshTokenEntity) : Prop :=
  r' = r ∨ (reuse ∧ r.userId = userId ∧ r.role = role ∧ r.revokedAt = none ∧
    ∃ at_, r' = { r with revokedAt := some at_ })

/-- The rows outside the session, before and after. -/
structure Spares (reuse : Prop) (root userId : Nat) (role : Role) (sh sh' : Shared) : Prop where
  kept : ∀ r ∈ sh.db.rows, ¬ Descends sh' root r.id →
    ∃ r' ∈ sh'.db.rows, Kept reuse userId role r r'
  old : ∀ r' ∈ sh'.db.rows, ¬ Descends sh' root r'.id →
    ∃ r ∈ sh.db.rows, Kept reuse userId role r r'

variable {reuse : Prop} {root userId c : Nat} {role : Role} {tok : String}

theorem Descends.mono {sh sh' : Shared} (h : ∀ e ∈ sh.exchanges, e ∈ sh'.exchanges) {a b : Nat}
    (hd : Descends sh a b) : Descends sh' a b := by
  have hle : Succeeds sh ≤ Succeeds sh' := fun _ _ ⟨e, he, hab⟩ => ⟨e, h e he, hab⟩
  exact Relation.ReflTransGen.mono hle a b hd

theorem ChainOk.principal {sh : Shared} (h : ChainOk sha256 sh) {a b : Nat}
    (hd : Descends sh a b) {m m' : Minted} (hm : m ∈ sh.minted) (hm' : m' ∈ sh.minted)
    (ha : m.id = a) (hb : m'.id = b) : m'.userId = m.userId ∧ m'.role = m.role := by
  induction hd generalizing m' with
  | refl =>
      rw [h.minted_eq hm hm' (ha.trans hb.symm)]
      exact ⟨rfl, rfl⟩
  | tail _ hstep ih =>
      obtain ⟨e, he, hold, hnew⟩ := hstep
      obtain ⟨n, hn, n', hn', hnid, hnid', _, huser, hrole, _⟩ := h.exchange e he
      obtain ⟨huser', hrole'⟩ := ih hn (hnid.trans hold)
      have hnm : n' = m' := h.minted_eq hn' hm' (hnid'.trans (hnew.trans hb.symm))
      subst hnm
      exact ⟨huser.trans huser', hrole.trans hrole'⟩

theorem Kept.id_eq {r r' : RefreshTokenEntity} (h : Kept reuse userId role r r') :
    r'.id = r.id := by
  rcases h with rfl | ⟨_, _, _, _, at_, rfl⟩ <;> rfl

theorem Kept.trans {r r' r'' : RefreshTokenEntity} (h : Kept reuse userId role r r')
    (h' : Kept reuse userId role r' r'') : Kept reuse userId role r r'' := by
  rcases h' with rfl | ⟨hreuse, huser, hrole, hlive, at_, rfl⟩
  · exact h
  · rcases h with rfl | ⟨_, _, _, _, at', rfl⟩
    · exact Or.inr ⟨hreuse, huser, hrole, hlive, at_, rfl⟩
    · cases hlive

theorem Spares.refl (sh : Shared) : Spares reuse root userId role sh sh :=
  ⟨fun r hr _ => ⟨r, hr, Or.inl rfl⟩, fun r hr _ => ⟨r, hr, Or.inl rfl⟩⟩

theorem Spares.of_rows {sh sh' : Shared} (h : sh'.db.rows = sh.db.rows) :
    Spares reuse root userId role sh sh' :=
  ⟨fun r hr _ => ⟨r, h ▸ hr, Or.inl rfl⟩, fun r hr _ => ⟨r, h ▸ hr, Or.inl rfl⟩⟩

theorem Spares.trans {sh sh' sh'' : Shared} (h : Spares reuse root userId role sh sh')
    (h' : Spares reuse root userId role sh' sh'')
    (hmono : ∀ e ∈ sh'.exchanges, e ∈ sh''.exchanges) : Spares reuse root userId role sh sh'' where
  kept r hr hd := by
    obtain ⟨r', hr', hk⟩ := h.kept r hr fun hd' => hd (hd'.mono hmono)
    obtain ⟨r'', hr'', hk'⟩ := h'.kept r' hr' (by rwa [hk.id_eq])
    exact ⟨r'', hr'', hk.trans hk'⟩
  old r'' hr'' hd := by
    obtain ⟨r', hr', hk'⟩ := h'.old r'' hr'' hd
    have hid := hk'.id_eq
    obtain ⟨r, hr, hk⟩ := h.old r' hr' fun hd' => hd (hid ▸ hd'.mono hmono)
    exact ⟨r, hr, hk.trans hk'⟩

/-! ## The clients around a logout -/

/-- The rows an `UPDATE` of the run may select. -/
def StmtName.Scoped (reuse : Prop) (root userId : Nat) (role : Role) (sh : Shared) :
    StmtName → Prop
  | .revoke id _ => id = root
  | .revokeAllForUser u r _ => reuse ∧ u = userId ∧ r = role
  | .deleteExpiredBefore _ => False
  | .replace id _ _ => Descends sh root id

/-- Where a client stands that runs `revoke(tok)`, or `rotate` on the session. -/
def Scoped (reuse : Prop) (root userId : Nat) (role : Role) (tok : String) (sh : Shared)
    (lo : Local) : Prop :=
  match lo.pc with
  | .idle => True
  | .insert _ => False
  | .find rotating presented => rotating = false → presented = tok
  | .found rotating _ row =>
      ∀ r, row = some r → Descends sh root r.id ∧ (rotating = false → r.id = root)
  | .replaceInsert _ row _ _ => Descends sh root row.id
  | .update q _ => q.Scoped reuse root userId role sh
  | .scan q _ _ => q.Scoped reuse root userId role sh

theorem StmtName.Scoped.mono {sh sh' : Shared} (h : ∀ e ∈ sh.exchanges, e ∈ sh'.exchanges)
    {q : StmtName} (hq : q.Scoped reuse root userId role sh) :
    q.Scoped reuse root userId role sh' := by
  cases q with
  | replace id savedId now => exact Descends.mono h hq
  | revoke id at_ => exact hq
  | revokeAllForUser u r at_ => exact hq
  | deleteExpiredBefore now => exact hq

theorem Scoped.mono {sh sh' : Shared} (h : ∀ e ∈ sh.exchanges, e ∈ sh'.exchanges) {lo : Local}
    (hlo : Scoped reuse root userId role tok sh lo) :
    Scoped reuse root userId role tok sh' lo := by
  unfold Scoped at hlo ⊢
  cases hpc : lo.pc with
  | idle => trivial
  | insert n => simp only [hpc] at hlo
  | find rotating presented => simpa only [hpc] using hlo
  | found rotating presented row =>
      simp only [hpc] at hlo ⊢
      exact fun r hr => ⟨(hlo r hr).1.mono h, (hlo r hr).2⟩
  | replaceInsert presented row n now =>
      simp only [hpc] at hlo ⊢
      exact hlo.mono h
  | update q next =>
      simp only [hpc] at hlo ⊢
      exact hlo.mono h
  | scan q todo next =>
      simp only [hpc] at hlo ⊢
      exact hlo.mono h

theorem Moves.exchanges {sh sh' : Shared} {lo lo' : Local} {a : Action}
    (hm : Moves sha256 ttlSeconds c sh lo a sh' lo') :
    ∀ e ∈ sh.exchanges, e ∈ sh'.exchanges := by
  intro e he
  cases hm with
  | exchange txn q presented oldId newId hone => exact List.mem_cons_of_mem _ he
  | tick => exact he
  | call txn k => exact he
  | insert txn n hn => exact he
  | find txn rotating presented => exact he
  | replaceInsert txn presented row n now hn => exact he
  | resume txn rotating presented newToken row => exact he
  | start txn q next => exact he
  | visit txn txn' db q todo next k hk hv => exact he
  | commit txn q => exact he
  | rollback txn q presented oldId newId hone => exact he

theorem Moves.minted {sh sh' : Shared} {lo lo' : Local} {a : Action}
    (hm : Moves sha256 ttlSeconds c sh lo a sh' lo') : ∀ m ∈ sh.minted, m ∈ sh'.minted := by
  intro m hminted
  cases hm with
  | insert txn n hn => exact List.mem_cons_of_mem _ hminted
  | replaceInsert txn presented row n now hn => exact List.mem_cons_of_mem _ hminted
  | tick => exact hminted
  | call txn k => exact hminted
  | find txn rotating presented => exact hminted
  | resume txn rotating presented newToken row => exact hminted
  | start txn q next => exact hminted
  | visit txn txn' db q todo next k hk hv => exact hminted
  | commit txn q => exact hminted
  | exchange txn q presented oldId newId hone => exact hminted
  | rollback txn q presented oldId newId hone => exact hminted

/-- The calls of the run, and what a step of `rotate` may look up and decide. -/
def Allowed (reuse : Prop) (sha256 : String → String) (root : Nat) (tok : String) (p : State)
    (a : Nat × Action) : Prop :=
  a.2.OfLogout tok ∧ OnSession sha256 root p a ∧ (DetectsReuse p a → reuse)

def Rooted (sha256 : String → String) (root userId : Nat) (role : Role) (tok : String)
    (sh : Shared) : Prop :=
  ⟨root, sha256 tok, userId, role⟩ ∈ sh.minted

/-- A row that a statement of the run updates is of the session, or swept after a reuse. -/
theorem StmtName.Scoped.write {sh sh' : Shared} {q : StmtName}
    (hq : q.Scoped reuse root userId role sh) (hmono : ∀ e ∈ sh.exchanges, e ∈ sh'.exchanges)
    (hroot : Descends sh root root) {r : RefreshTokenEntity} (hsel : q.stmt.selects r = true) :
    ∃ r', q.stmt.write r = some r' ∧ r'.id = r.id ∧
      (Descends sh' root r.id ∨ Kept reuse userId role r r') := by
  cases q with
  | revoke id at_ =>
      have hid : r.id = id := by simpa [StmtName.stmt, revokeStmt] using hsel
      obtain rfl : id = root := hq
      exact ⟨_, rfl, rfl, Or.inl (hid ▸ hroot.mono hmono)⟩
  | revokeAllForUser u ro at_ =>
      obtain ⟨hreuse, rfl, rfl⟩ := hq
      have hlive : (r.userId = u ∧ r.role = ro) ∧ r.revokedAt = none := by
        simpa [StmtName.stmt, revokeAllForUserStmt] using hsel
      exact ⟨_, rfl, rfl, Or.inr (Or.inr ⟨hreuse, hlive.1.1, hlive.1.2, hlive.2, at_, rfl⟩)⟩
  | deleteExpiredBefore now => exact hq.elim
  | replace id savedId now =>
      have hid : r.id = id ∧ r.revokedAt = none := by
        simpa [StmtName.stmt, replaceStmt] using hsel
      exact ⟨_, rfl, rfl, Or.inl (hid.1 ▸ Descends.mono hmono hq)⟩

theorem Spares.commit {sh sh' : Shared} {txn : Txn RefreshTokenEntity} {q : StmtName}
    (h : DbOk sh.db) (ht : TxnOk c sh.db txn q.stmt) (hq : q.Scoped reuse root userId role sh)
    (hdb : sh'.db = sh.db.commit c txn) (hmono : ∀ e ∈ sh.exchanges, e ∈ sh'.exchanges)
    (hins : ∀ r ∈ txn.inserted, Descends sh' root r.id) :
    Spares reuse root userId role sh sh' where
  kept r hr hd := by
    rw [hdb]
    rcases ht.mem_commit_of_mem h hr with hr' | ⟨hsel, hr'⟩
    · exact ⟨r, hr', Or.inl rfl⟩
    · obtain ⟨r', hw, _, hrow⟩ := hq.write hmono .refl hsel
      exact ⟨r', hr' r' hw, hrow.resolve_left hd⟩
  old r' hr' hd := by
    rw [hdb] at hr'
    rcases ht.of_mem_commit h hr' with hr | hr | ⟨r, hr, hsel, hw⟩
    · exact ⟨r', hr, Or.inl rfl⟩
    · exact absurd (hins r' hr) hd
    · obtain ⟨r₁, hw₁, hid, hrow⟩ := hq.write hmono .refl hsel
      obtain rfl : r' = r₁ := Option.some.inj (hw.symm.trans hw₁)
      rw [hid] at hd
      exact ⟨r, hr, hrow.resolve_left hd⟩

/-- The mover leaves the rows outside the session alone. -/
theorem Moves.spares {sh sh' : Shared} {lo lo' : Local} {a : Action}
    (hm : Moves sha256 ttlSeconds c sh lo a sh' lo') (h : ChainOk sha256 sh)
    (hc : PcOk sha256 c sh lo) (hlo : Scoped reuse root userId role tok sh lo) :
    Spares reuse root userId role sh sh' := by
  have hmono := hm.exchanges
  cases hm with
  | tick => exact Spares.of_rows rfl
  | call txn k => exact Spares.refl sh
  | insert txn n hn => exact hlo.elim
  | find txn rotating presented => exact Spares.refl sh
  | replaceInsert txn presented row n now hn => exact Spares.of_rows rfl
  | resume txn rotating presented newToken row => exact Spares.refl sh
  | start txn q next => exact Spares.refl sh
  | visit txn txn' db q todo next k hk hv => exact Spares.of_rows (Db.visit_rows hv).1
  | commit txn q =>
      have hq : StmtOk sha256 c sh txn q .commit := hc
      exact Spares.commit h.db hq.1 hlo rfl hmono (by rw [hq.2.1]; nofun)
  | exchange txn q presented oldId newId hone =>
      have hq : StmtOk sha256 c sh txn q (.commitIfOne presented oldId newId) := hc
      obtain ⟨ht, ⟨n, hins, _⟩, now, rfl⟩ := hq
      refine Spares.commit h.db ht hlo rfl hmono fun r hr => ?_
      rw [hins] at hr
      rw [List.mem_singleton.1 hr]
      have hold : Descends sh root oldId := hlo
      exact (hold.mono hmono).tail ⟨_, List.mem_cons_self, rfl, rfl⟩
  | rollback txn q presented oldId newId hone => exact Spares.of_rows rfl

theorem Moves.present {sh sh' : Shared} {lo lo' : Local} {a : Action}
    (hm : Moves sha256 ttlSeconds c sh lo a sh' lo') (h : ChainOk sha256 sh)
    (hc : PcOk sha256 c sh lo) (hlo : Scoped reuse root userId role tok sh lo) {k : Nat}
    (hk : ∃ r ∈ sh.db.rows, r.id = k) : ∃ r ∈ sh'.db.rows, r.id = k := by
  obtain ⟨r, hr, rfl⟩ := hk
  have hcommit : ∀ {txn : Txn RefreshTokenEntity} {q : StmtName}, TxnOk c sh.db txn q.stmt →
      q.Scoped reuse root userId role sh → ∃ r' ∈ (sh.db.commit c txn).rows, r'.id = r.id := by
    intro txn q ht hq
    rcases ht.mem_commit_of_mem h.db hr with hr' | ⟨hsel, hr'⟩
    · exact ⟨r, hr', rfl⟩
    · obtain ⟨r', hw, hid, _⟩ := hq.write (fun _ he => he) .refl hsel
      exact ⟨r', hr' r' hw, hid⟩
  cases hm with
  | tick => exact ⟨r, hr, rfl⟩
  | call txn k => exact ⟨r, hr, rfl⟩
  | insert txn n hn => exact hlo.elim
  | find txn rotating presented => exact ⟨r, hr, rfl⟩
  | replaceInsert txn presented row n now hn => exact ⟨r, hr, rfl⟩
  | resume txn rotating presented newToken row => exact ⟨r, hr, rfl⟩
  | start txn q next => exact ⟨r, hr, rfl⟩
  | visit txn txn' db q todo next k hk hv => exact ⟨r, (Db.visit_rows hv).1 ▸ hr, rfl⟩
  | commit txn q =>
      have hq : StmtOk sha256 c sh txn q .commit := hc
      exact hcommit hq.txnOk hlo
  | exchange txn q presented oldId newId hone =>
      have hq : StmtOk sha256 c sh txn q (.commitIfOne presented oldId newId) := hc
      exact hcommit hq.txnOk hlo
  | rollback txn q presented oldId newId hone => exact ⟨r, hr, rfl⟩

/-! ## Where the clients stand -/

/-- The row a lookup finds for the session's token is the session's. -/
theorem ChainOk.id_of_findByToken {sh : Shared} (h : ChainOk sha256 sh)
    (hroot : Rooted sha256 root userId role tok sh) {r : RefreshTokenEntity}
    (hr : findByToken sha256 sh.db.rows tok = some r) : r.id = root := by
  obtain ⟨hminted, hhash⟩ := h.known hr
  have he : r.minted = ⟨root, sha256 tok, userId, role⟩ :=
    List.inj_on_of_nodup_map h.mintedHash hminted hroot hhash
  exact congrArg Minted.id he

/-- A client that resumes from a lookup on the session goes on within it. -/
theorem Scoped.resume {sh : Shared} (h : ChainOk sha256 sh)
    (hroot : Rooted sha256 root userId role tok sh) {rotating : Bool} {presented newToken : String}
    {row : Option RefreshTokenEntity} {txn : Txn RefreshTokenEntity}
    (hknown : ∀ r, row = some r → Known sha256 sh presented r)
    (hrow : ∀ r, row = some r → Descends sh root r.id ∧ (rotating = false → r.id = root))
    (hreuse : ∀ r, row = some r → rotating = true → rotateBranch sh.now r = .reuse → reuse) :
    Scoped reuse root userId role tok sh
      ⟨afterFind sha256 ttlSeconds sh.now newToken rotating presented row, txn⟩ := by
  cases row with
  | none => cases rotating <;> trivial
  | some r =>
      obtain ⟨hdesc, hself⟩ := hrow r rfl
      cases rotating with
      | false =>
          by_cases hrevoked : r.revokedAt.isSome = true
          · simp only [afterFind, hrevoked, if_true]
            trivial
          · simp only [afterFind, hrevoked]
            exact hself rfl
      | true =>
          cases hb : rotateBranch sh.now r with
          | reject =>
              simp only [afterFind, hb]
              trivial
          | exchange =>
              simp only [afterFind, hb]
              exact hdesc
          | reuse =>
              obtain ⟨huser, hrole⟩ := h.principal hdesc hroot (hknown r rfl).1 rfl rfl
              simp only [afterFind, hb]
              exact ⟨hreuse r rfl rfl hb, huser, hrole⟩

theorem Moves.scoped {p : State} {sh' : Shared} {lo' : Local} {a : Action}
    (hm : Moves sha256 ttlSeconds c p.shared (p.client c) a sh' lo')
    (h : ChainOk sha256 p.shared) (hc : PcOk sha256 c p.shared (p.client c))
    (hroot : Rooted sha256 root userId role tok p.shared)
    (hlo : Scoped reuse root userId role tok p.shared (p.client c))
    (hC : Allowed reuse sha256 root tok p (c, a)) :
    Scoped reuse root userId role tok sh' lo' := by
  have hmono := hm.exchanges
  obtain ⟨hcall, hfind, hreuse⟩ := hC
  obtain ⟨sh, client⟩ := p
  simp only at hm h hc hroot hlo hmono
  simp only [OnSession, lookedUp, DetectsReuse] at hfind hreuse
  generalize client c = lo at hm hc hlo hfind hreuse
  cases hm with
  | tick => exact hlo.mono hmono
  | call txn k =>
      cases k with
      | revoke presented => exact fun _ => hcall
      | rotate presented =>
          by_cases hempty : presented.length = 0
          · rw [begin, if_pos hempty]
            trivial
          · rw [begin, if_neg hempty]
            intro hrevoking
            cases hrevoking
      | issue u r token => exact hcall.elim
      | revokeAllForUser u r => exact hcall.elim
      | pruneExpiredTokens => exact hcall.elim
  | insert txn n hn => exact hlo.elim
  | find txn rotating presented =>
      intro r hr
      cases rotating with
      | true =>
          refine ⟨hfind r hr, fun hrevoking => ?_⟩
          cases hrevoking
      | false =>
          obtain rfl : presented = tok := hlo rfl
          have hid := h.id_of_findByToken hroot hr
          exact ⟨hid ▸ .refl, fun _ => hid⟩
  | replaceInsert txn presented row n now hn => exact Descends.mono (fun _ he => he) hlo
  | resume txn rotating presented newToken row =>
      refine Scoped.resume h hroot hc.2 hlo fun r hr hrot hb => hreuse ?_
      subst hr hrot
      exact hb
  | start txn q next => exact hlo
  | visit txn txn' db q todo next k hk hv => exact StmtName.Scoped.mono hmono hlo
  | commit txn q => trivial
  | exchange txn q presented oldId newId hone => trivial
  | rollback txn q presented oldId newId hone => trivial

/-! ## The logout itself -/

/-- The session's row is revoked, whatever stands in its place. -/
def Ended (root : Nat) (sh : Shared) : Prop := ∀ r ∈ sh.db.rows, r.id = root → r.revokedAt ≠ none

/-- How far client `c`'s `revoke` has come, from the call on. -/
inductive Revoking (root : Nat) (tok : String) (sh : Shared) (lo : Local) : Prop where
  | finding (hpc : lo.pc = .find false tok)
  | found (r : RefreshTokenEntity) (hpc : lo.pc = .found false tok (some r)) (hid : r.id = root)
      (hrevoked : r.revokedAt ≠ none → Ended root sh)
  | waiting (at_ : Instant) (hpc : lo.pc = .update (.revoke root at_) .commit)
  /-- The row is still to be visited, or locked. -/
  | scanning (at_ : Instant) (todo : List Nat) (hpc : lo.pc = .scan (.revoke root at_) todo .commit)
      (hcov : root ∈ todo ∨ root ∈ lo.txn.writes.map Prod.fst)
  | done (h : Ended root sh)

theorem Moves.ended {sh sh' : Shared} {lo lo' : Local} {a : Action}
    (hm : Moves sha256 ttlSeconds c sh lo a sh' lo') (h : ChainOk sha256 sh)
    (hc : PcOk sha256 c sh lo) (hlo : Scoped reuse root userId role tok sh lo)
    (hpresent : ∃ r ∈ sh.db.rows, r.id = root) (hended : Ended root sh) : Ended root sh' := by
  cases hm with
  | tick => exact hended
  | call txn k => exact hended
  | insert txn n hn => exact hlo.elim
  | find txn rotating presented => exact hended
  | replaceInsert txn presented row n now hn => exact hended
  | resume txn rotating presented newToken row => exact hended
  | start txn q next => exact hended
  | visit txn txn' db q todo next k hk hv =>
      intro r hr
      exact hended r ((Db.visit_rows hv).1 ▸ hr)
  | commit txn q =>
      have hq : StmtOk sha256 c sh txn q .commit := hc
      intro r hr hid
      rcases hq.mem_commit h.db hr with ⟨hr, _⟩ | ⟨r₀, _, hw⟩
      · exact hended r hr hid
      · exact StmtName.revokedAt_write hw
  | exchange txn q presented oldId newId hone =>
      have hq : StmtOk sha256 c sh txn q (.commitIfOne presented oldId newId) := hc
      intro r hr hid
      rcases hq.txnOk.of_mem_commit h.db hr with hr | hr | ⟨r₀, _, _, hw⟩
      · exact hended r hr hid
      · obtain ⟨r₀, hr₀, hr₀id⟩ := hpresent
        refine absurd ?_ (hq.txnOk.inserted r hr).2
        exact List.mem_map.2 ⟨r₀, hr₀, hr₀id.trans hid.symm⟩
      · exact StmtName.revokedAt_write hw
  | rollback txn q presented oldId newId hone => exact hended

theorem Moves.revoking {sh sh' : Shared} {lo lo' : Local} {a : Action}
    (hm : Moves sha256 ttlSeconds c sh lo a sh' lo') (h : ChainOk sha256 sh)
    (hc : PcOk sha256 c sh lo) (hroot : Rooted sha256 root userId role tok sh)
    (hlo : Scoped reuse root userId role tok sh lo) (hpresent : ∃ r ∈ sh.db.rows, r.id = root)
    (hp : Revoking root tok sh lo) : Revoking root tok sh' lo' := by
  cases hp with
  | finding hpc =>
      obtain ⟨_, txn⟩ := lo
      subst hpc
      cases hm with
      | tick => exact .finding rfl
      | find =>
          obtain ⟨r₀, hr₀, hr₀id⟩ := hpresent
          cases hfind : findByToken sha256 sh.db.rows tok with
          | none =>
              have hr₀m : r₀.minted = ⟨root, sha256 tok, userId, role⟩ :=
                h.minted_eq (h.recorded r₀ hr₀) hroot hr₀id
              have hhash : r₀.tokenHash = sha256 tok := congrArg Minted.tokenHash hr₀m
              have hno := List.find?_eq_none.1 hfind r₀ hr₀
              exact absurd hhash (by simpa using hno)
          | some r =>
              have hid := h.id_of_findByToken hroot hfind
              have hr := List.mem_of_find?_eq_some hfind
              refine .found r rfl hid fun hrevoked r' hr' hr'id => ?_
              rwa [h.db.eq_of_key hr' hr (hr'id.trans hid.symm)]
  | found r hpc hid hrevoked =>
      obtain ⟨_, txn⟩ := lo
      subst hpc
      cases hm with
      | tick => exact .found r rfl hid hrevoked
      | resume =>
          by_cases hlive : r.revokedAt.isSome = true
          · exact .done (hrevoked (Option.isSome_iff_ne_none.1 hlive))
          · refine .waiting sh.now ?_
            simp only [afterFind, hlive, ← hid]
            rfl
  | waiting at_ hpc =>
      obtain ⟨_, txn⟩ := lo
      subst hpc
      cases hm with
      | tick => exact .waiting at_ rfl
      | start =>
          obtain ⟨r, hr, rfl⟩ := hpresent
          exact .scanning at_ _ rfl
            (Or.inl (Db.mem_candidates txn hr (by simp [StmtName.stmt, revokeStmt])))
  | scanning at_ todo hpc hcov =>
      obtain ⟨_, txn⟩ := lo
      subst hpc
      cases hm with
      | tick => exact .scanning at_ todo rfl hcov
      | visit _ txn' db _ _ _ k hk hv =>
          obtain ⟨r, hr, rfl⟩ := hpresent
          exact .scanning at_ _ rfl
            (Db.visit_pending hv hr (by simp [StmtName.stmt, revokeStmt]) hcov)
      | commit =>
          refine .done fun r hr hid => ?_
          have hq : StmtOk sha256 c sh txn (.revoke root at_) .commit := hc
          rcases hq.mem_commit h.db hr with ⟨_, hfree⟩ | ⟨r₀, _, hw⟩
          · rcases hcov with hcov | hcov
            · cases hcov
            · exact absurd (hid ▸ hcov) hfree
          · exact StmtName.revokedAt_write hw
  | done hended => exact .done (hm.ended h hc hlo hpresent hended)

theorem Moves.revoking_other {d : Nat} {sh sh' : Shared} {lo lo' loc : Local} {a : Action}
    (hm : Moves sha256 ttlSeconds d sh lo a sh' lo') (h : ChainOk sha256 sh)
    (hd : PcOk sha256 d sh lo) (hlo : Scoped reuse root userId role tok sh lo)
    (hpresent : ∃ r ∈ sh.db.rows, r.id = root) (hp : Revoking root tok sh loc) :
    Revoking root tok sh' loc := by
  cases hp with
  | finding hpc => exact .finding hpc
  | found r hpc hid hrevoked =>
      exact .found r hpc hid fun hr => hm.ended h hd hlo hpresent (hrevoked hr)
  | waiting at_ hpc => exact .waiting at_ hpc
  | scanning at_ todo hpc hcov => exact .scanning at_ todo hpc hcov
  | done hended => exact .done (hm.ended h hd hlo hpresent hended)

/-! ## Runs -/

/-- The session of `tok` since the state `s₀`, at which every call had returned. -/
structure SessionInv (sha256 : String → String) (reuse : Prop) (root userId : Nat) (role : Role)
    (tok : String) (s₀ p : State) : Prop where
  chain : ChainInv sha256 p
  rooted : Rooted sha256 root userId role tok p.shared
  present : ∃ r ∈ p.shared.db.rows, r.id = root
  inSession : ∀ d, Scoped reuse root userId role tok p.shared (p.client d)
  spares : Spares reuse root userId role s₀.shared p.shared

theorem SessionInv.next {s₀ p p' : State} {a : Nat × Action}
    (h : SessionInv sha256 reuse root userId role tok s₀ p)
    (hC : Allowed reuse sha256 root tok p a) (hs : step sha256 ttlSeconds p a = some p') :
    SessionInv sha256 reuse root userId role tok s₀ p' := by
  have hchain := h.chain.step hs
  obtain ⟨sh, lo, hmove, rfl⟩ := Pool.step_spec hs
  have hm := move_spec hmove
  have hsh := h.chain.shared
  have hc := h.chain.client a.1
  have hlo := h.inSession a.1
  refine ⟨hchain, hm.minted _ h.rooted, hm.present hsh hc hlo h.present, fun d => ?_,
    h.spares.trans (hm.spares hsh hc hlo) hm.exchanges⟩
  by_cases hd : d = a.1
  · subst hd
    simpa using hm.scoped hsh hc h.rooted hlo hC
  · simpa [Function.update_of_ne hd] using (h.inSession d).mono hm.exchanges

theorem SessionInv.revoking {s₀ p p' : State} {a : Nat × Action}
    (h : SessionInv sha256 reuse root userId role tok s₀ p)
    (hp : Revoking root tok p.shared (p.client c))
    (hs : step sha256 ttlSeconds p a = some p') :
    Revoking root tok p'.shared (p'.client c) := by
  obtain ⟨sh, lo, hmove, rfl⟩ := Pool.step_spec hs
  have hm := move_spec hmove
  have hsh := h.chain.shared
  have hc := h.chain.client a.1
  by_cases hca : c = a.1
  · subst hca
    simpa using hm.revoking hsh hc h.rooted (h.inSession _) h.present hp
  · simpa [Function.update_of_ne hca] using
      hm.revoking_other hsh hc (h.inSession _) h.present hp

theorem SessionInv.of_run {s₀ s s' : State} {acts : List (Nat × Action)}
    (h : SessionInv sha256 reuse root userId role tok s₀ s)
    (hC : Along (step sha256 ttlSeconds) (Allowed reuse sha256 root tok) s acts)
    (hrun : run (step sha256 ttlSeconds) s acts = some s') :
    SessionInv sha256 reuse root userId role tok s₀ s' :=
  run_inv (fun _ _ _ hinv hC he => hinv.next hC he) h hC hrun

/-- Once `revoke` has returned, the row is revoked. -/
theorem SessionInv.ended {s₀ s s' : State} {acts : List (Nat × Action)}
    (h : SessionInv sha256 reuse root userId role tok s₀ s)
    (hC : Along (step sha256 ttlSeconds) (Allowed reuse sha256 root tok) s acts)
    (hlogout : (c, .call (.revoke tok)) ∈ acts)
    (hrun : run (step sha256 ttlSeconds) s acts = some s')
    (hreturned : (s'.client c).pc = .idle) : Ended root s'.shared := by
  obtain ⟨as₁, as₂, rfl⟩ := List.append_of_mem hlogout
  rw [run_append] at hrun
  obtain ⟨p₁, hp₁, hrest⟩ := Option.bind_eq_some_iff.1 hrun
  obtain ⟨p₂, hp₂, hrest'⟩ := run_cons_eq_some.1 hrest
  have hsuffix := hC.suffix hp₁
  have hinv₂ := (h.of_run hC.prefix hp₁).next hsuffix.1 hp₂
  have hcalled : Revoking root tok p₂.shared (p₂.client c) := by
    obtain ⟨sh, lo, hmove, rfl⟩ := Pool.step_spec hp₂
    have hm := move_spec hmove
    refine .finding ?_
    generalize p₁.client c = lo₁ at hm
    cases hm
    simp [begin]
  let Both (p : State) : Prop := SessionInv sha256 reuse root userId role tok s₀ p ∧
    Revoking root tok p.shared (p.client c)
  have hfinal : Both s' :=
    run_inv (fun _ _ _ hinv hC he => ⟨hinv.1.next hC he, hinv.1.revoking hinv.2 he⟩)
      ⟨hinv₂, hcalled⟩ (hsuffix.2 p₂ hp₂) hrest'
  cases hfinal.2 with
  | finding hpc => simp [hpc] at hreturned
  | found x hpc => simp [hpc] at hreturned
  | waiting at_ hpc => simp [hpc] at hreturned
  | scanning at_ todo hpc => simp [hpc] at hreturned
  | done hended => exact hended

/-- Once the chain ends at a revoked row, nothing on it is live. -/
theorem ChainOk.not_live_of_ended {sh : Shared} (h : ChainOk sha256 sh) (hended : Ended root sh)
    (hspent : ¬ Spent sh root) {r : RefreshTokenEntity} (hr : r ∈ sh.db.rows)
    (hchain : SameChain sh root r.id) : r.revokedAt ≠ none := by
  rcases hchain with hd | hd
  · rcases Relation.ReflTransGen.cases_head hd with heq | ⟨b, ⟨e, he, hold, _⟩, _⟩
    · exact hended r hr heq.symm
    · exact absurd ⟨e, he, hold⟩ hspent
  · intro hlive
    exact hended r hr (h.eq_of_descends hr hlive hd) hlive

/-- When a logout and the refreshes beside it have returned, the session is over unless its
token was exchanged, and the rows outside it are as they were unless a reuse was detected. -/
theorem logout_of_revoke (sha256 : String → String) (ttlSeconds : Nat) (now : Instant)
    (s s' : State) (acts : List (Nat × Action)) (c : Nat) (tok : String) (row : RefreshTokenEntity)
    (hs : Reachable (step sha256 ttlSeconds) (initial now) s)
    (hidle : ∀ d, (s.client d).pc = .idle)
    (hrow : findByToken sha256 s.shared.db.rows tok = some row)
    (hlogout : (c, .call (.revoke tok)) ∈ acts)
    (hcalls : ∀ a ∈ acts, a.2.OfLogout tok)
    (hsession : Along (step sha256 ttlSeconds) (OnSession sha256 row.id) s acts)
    (hrun : run (step sha256 ttlSeconds) s acts = some s')
    (hreturned : ∀ d, (s'.client d).pc = .idle) :
    (¬ Spent s'.shared row.id → ∀ r ∈ s'.shared.db.rows, SameChain s'.shared row.id r.id →
      r.revokedAt ≠ none) ∧
    Spares (ReuseIn sha256 ttlSeconds s acts) row.id row.userId row.role s.shared s'.shared := by
  have hchain := chainInv_of_reachable hs
  have hmem := List.mem_of_find?_eq_some hrow
  have hrooted : Rooted sha256 row.id row.userId row.role tok s.shared := by
    obtain ⟨hminted, hhash⟩ := hchain.shared.known hrow
    rw [Rooted, ← hhash]
    exact hminted
  have hstart : SessionInv sha256 (ReuseIn sha256 ttlSeconds s acts) row.id row.userId row.role
      tok s s := by
    refine ⟨hchain, hrooted, ⟨row, hmem, rfl⟩, fun d => ?_, Spares.refl _⟩
    simp only [Scoped, hidle d]
  have hallowed : Along (step sha256 ttlSeconds)
      (Allowed (ReuseIn sha256 ttlSeconds s acts) sha256 row.id tok) s acts := by
    refine along_iff.2 fun as₁ a as₂ p has hp => ⟨hcalls a (by simp [has]), ?_, fun hreuse => ?_⟩
    · exact along_iff.1 hsession as₁ a as₂ p has hp
    · exact ⟨as₁, a, as₂, p, has, hp, hreuse⟩
  have hend := hstart.of_run hallowed hrun
  exact ⟨fun hspent r hr => hend.chain.shared.not_live_of_ended
    (hstart.ended hallowed hlogout hrun (hreturned c)) hspent hr, hend.spares⟩

def twoSessions : List (Nat × Action) :=
  [(0, .call (.issue 7 .user "a")), (0, .exec), (0, .call (.issue 7 .user "b")), (0, .exec)]

def refreshed : List (Nat × Action) :=
  [(1, .call (.rotate "a")), (1, .exec), (1, .resume "c"), (1, .exec), (1, .start), (1, .visit 1),
    (1, .finish)]

/-- Logging out with "a" after that: the row is revoked already. -/
def refreshedThenLogout : List (Nat × Action) :=
  refreshed ++ [(2, .call (.revoke "a")), (2, .exec), (2, .resume "")]

/-- The other order of the two updates: the logout commits first, and the refresh rolls back. -/
def logoutDuringRefresh : List (Nat × Action) :=
  [(1, .call (.rotate "a")), (2, .call (.revoke "a")), (1, .exec), (2, .exec), (1, .resume "c"),
    (1, .exec), (2, .resume ""), (2, .start), (2, .visit 1), (2, .finish), (1, .start),
    (1, .finish)]

/-- "a" is presented again after it was exchanged. -/
def logoutBesideReuse : List (Nat × Action) :=
  refreshedThenLogout ++ [(1, .call (.rotate "a")), (1, .exec), (1, .resume "d"), (1, .start),
    (1, .visit 2), (1, .visit 3), (1, .finish)]

/-- A row that no exchange created descends from itself only. -/
theorem not_descends {sh : Shared} {a b : Nat} (hab : a ≠ b)
    (hb : ∀ e ∈ sh.exchanges, e.newId ≠ b) : ¬ Descends sh a b := by
  intro hd
  rcases Relation.ReflTransGen.cases_tail hd with heq | ⟨x, _, e, he, _, hnew⟩
  · exact hab heq.symm
  · exact hb e he hnew

/-- The successor of a refreshed token survives the logout, and a reuse beside the logout
revokes the other session. -/
theorem live_after_refreshedThenLogout :
    (∃ s s', run (step sha256Sample 60) (initial 0) twoSessions = some s ∧
      run (step sha256Sample 60) s refreshedThenLogout = some s' ∧
      (∀ d, (s'.client d).pc = .idle) ∧
      ∃ r ∈ s'.shared.db.rows, SameChain s'.shared 1 r.id ∧ r.revokedAt = none) ∧
    ∃ s s', run (step sha256Sample 60) (initial 0) twoSessions = some s ∧
      run (step sha256Sample 60) s logoutBesideReuse = some s' ∧
      (∀ d, (s'.client d).pc = .idle) ∧
      ∃ r ∈ s.shared.db.rows, ¬ SameChain s'.shared 1 r.id ∧ r ∉ s'.shared.db.rows := by
  have hrun : (run (step sha256Sample 60) (initial 0) twoSessions).any (fun s =>
      ((run (step sha256Sample 60) s refreshedThenLogout).any fun s' =>
        decide ((∀ d : Nat, d < 3 → (s'.client d).pc = .idle) ∧
          s'.shared.exchanges = [⟨"a", 1, 3⟩] ∧
          ∃ r ∈ s'.shared.db.rows, r.id = 3 ∧ r.revokedAt = none)) &&
      (run (step sha256Sample 60) s logoutBesideReuse).any fun s' =>
        decide ((∀ d : Nat, d < 3 → (s'.client d).pc = .idle) ∧
          s'.shared.exchanges = [⟨"a", 1, 3⟩] ∧
          ∃ r ∈ s.shared.db.rows, r.id = 2 ∧ r ∉ s'.shared.db.rows)) = true := by
    decide +kernel
  simp only [Option.any_eq_true, Bool.and_eq_true, decide_eq_true_eq] at hrun
  obtain ⟨s, hs, ⟨s₁, hs₁, hidle₁, hex₁, r₁, hr₁, hid₁, hlive⟩,
    s₂, hs₂, hidle₂, hex₂, r₂, hr₂, hid₂, hgone⟩ := hrun
  refine ⟨⟨s, s₁, hs, hs₁, ?_, r₁, hr₁, ?_, hlive⟩, ⟨s, s₂, hs, hs₂, ?_, r₂, hr₂, ?_, hgone⟩⟩
  · exact Pool.forall_client (run_append_of_eq hs ▸ hs₁) (fun lo => lo.pc = .idle) 3 (fun _ => rfl)
      (by decide) hidle₁
  · rw [hid₁]
    exact Or.inl (.single ⟨⟨"a", 1, 3⟩, by simp [hex₁], rfl, rfl⟩)
  · exact Pool.forall_client (run_append_of_eq hs ▸ hs₂) (fun lo => lo.pc = .idle) 3 (fun _ => rfl)
      (by decide) hidle₂
  · rw [hid₂]
    rintro (hd | hd)
    · exact not_descends (by decide) (by simp [hex₂]) hd
    · exact not_descends (by decide) (by simp [hex₂]) hd

/-- The logout that comes first ends the session, and the other one goes on. -/
theorem logout_logoutDuringRefresh :
    ∃ s s', run (step sha256Sample 60) (initial 0) twoSessions = some s ∧
      run (step sha256Sample 60) s logoutDuringRefresh = some s' ∧
      ((¬ Spent s'.shared 1 → ∀ r ∈ s'.shared.db.rows, SameChain s'.shared 1 r.id →
        r.revokedAt ≠ none) ∧
      Spares (ReuseIn sha256Sample 60 s logoutDuringRefresh) 1 7 .user s.shared s'.shared) := by
  have hrun : (run (step sha256Sample 60) (initial 0) twoSessions).any (fun s =>
      decide ((∀ d : Nat, d < 3 → (s.client d).pc = .idle) ∧
        findByToken sha256Sample s.shared.db.rows "a" = some
          ⟨1, sha256Sample "a", 7, .user, 60000, none, none, none⟩ ∧
        Along (step sha256Sample 60) (fun p a => ∀ r ∈ lookedUp sha256Sample p a, r.id = 1) s
          logoutDuringRefresh) &&
      (run (step sha256Sample 60) s logoutDuringRefresh).any fun s' =>
        decide (∀ d : Nat, d < 3 → (s'.client d).pc = .idle)) = true := by
    decide +kernel
  simp only [Option.any_eq_true, Bool.and_eq_true, decide_eq_true_eq] at hrun
  obtain ⟨s, hs, ⟨hidle, hrow, hself⟩, s', hs', hidle'⟩ := hrun
  have hsession : Along (step sha256Sample 60) (OnSession sha256Sample 1) s logoutDuringRefresh :=
    along_iff.2 fun as₁ a as₂ p has hp r hr => by
      rw [along_iff.1 hself as₁ a as₂ p has hp r hr]
      exact .refl
  refine ⟨s, s', hs, hs', logout_of_revoke sha256Sample 60 0 s s' logoutDuringRefresh 2 "a" _
    ⟨_, hs⟩ ?_ hrow (by decide) (by decide) hsession hs' ?_⟩
  · exact Pool.forall_client hs (fun lo => lo.pc = .idle) 3 (fun _ => rfl) (by decide) hidle
  · exact Pool.forall_client (run_append_of_eq hs ▸ hs') (fun lo => lo.pc = .idle) 3 (fun _ => rfl)
      (by decide) hidle'

end NestStarter.RefreshTokens
