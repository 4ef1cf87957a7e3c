import NestStarter.RefreshTokens.Calls
import NestStarter.RefreshTokens.SingleUse

/-! # Calls that nobody interrupts

The clients' machine and the service methods are two readings of one source.
They agree: a call that is made while nobody else is inside one leaves the table
the service method leaves, so every serial history of the service is a run of the
machine, and what holds of every reachable table holds of every serial history.
-/

namespace NestStarter.RefreshTokens

open NestStarter.Core

def Shared.table (sh : Shared) : TokenTable := ⟨sh.db.rows, sh.db.nextId⟩

/-- Nobody is inside a transaction. -/
structure Shared.Quiet (sh : Shared) : Prop where
  ok : DbOk sh.db
  free : sh.db.owner = fun _ => none

variable (sha256 : String → String) (ttlSeconds : Nat)

def Call.service (now : Instant) (newToken : String) : Call → TokenService Unit
  | .issue userId role token => do
      let _ ← RefreshTokens.issue sha256 ttlSeconds now token userId role
  | .rotate presentedToken => do
      let _ ← RefreshTokens.rotate sha256 ttlSeconds now newToken presentedToken
  | .revoke presentedToken => RefreshTokens.revoke sha256 now presentedToken
  | .revokeAllForUser userId role => RefreshTokens.revokeAllForUser now userId role
  | .pruneExpiredTokens => RefreshTokens.pruneExpiredTokens now

def Call.drawn (newToken : String) : Call → Option String
  | .issue _ _ token => some token
  | .rotate _ => some newToken
  | _ => none

/-- Client `c` gets from one state to another on its own. -/
def Alone (c : Nat) (s t : Shared × Local) : Prop :=
  ∃ acts, run (Pool.solo (move sha256 ttlSeconds) c) s acts = some t

/-- The store a call leaves: quiet again, with this table, and with no new digest but
this one. -/
structure Leaves (sh : Shared) (digest : Option String) (t : TokenTable) (sh' : Shared) : Prop where
  quiet : sh'.Quiet
  now : sh'.now = sh.now
  table : sh'.table = t
  minted : ∀ m ∈ sh'.minted, m ∈ sh.minted ∨ digest = some m.tokenHash

variable {sha256 ttlSeconds} {c : Nat} {sh : Shared}

theorem Alone.step {lo : Local} {s t : Shared × Local} {a : Action}
    (hs : move sha256 ttlSeconds c sh lo a = some s) (h : Alone sha256 ttlSeconds c s t) :
    Alone sha256 ttlSeconds c (sh, lo) t := by
  obtain ⟨acts, hrun⟩ := h
  exact ⟨a :: acts, run_cons_eq_some.2 ⟨s, hs, hrun⟩⟩

theorem Alone.trans {s s' t : Shared × Local} (h : Alone sha256 ttlSeconds c s s')
    (h' : Alone sha256 ttlSeconds c s' t) : Alone sha256 ttlSeconds c s t := by
  obtain ⟨acts, hrun⟩ := h
  obtain ⟨acts', hrun'⟩ := h'
  exact ⟨acts ++ acts', by rw [run_append_of_eq hrun, hrun']⟩

theorem Alone.refl (s : Shared × Local) : Alone sha256 ttlSeconds c s s := ⟨[], rfl⟩

namespace Shared.Quiet

theorem txn (h : sh.Quiet) (c : Nat) (q : Stmt RefreshTokenEntity) : TxnOk c sh.db {} q :=
  TxnOk.empty_iff.2 fun k => by simp [h.free]

theorem onlyOwner (h : sh.Quiet) (c : Nat) : sh.db.OnlyOwner c := fun k d hk => by
  simp [h.free] at hk

theorem leaves (h : sh.Quiet) (digest : Option String) : Leaves sh digest sh.table sh :=
  ⟨h, rfl, rfl, fun _ hm => Or.inl hm⟩

end Shared.Quiet

theorem Leaves.weaken {sh' : Shared} {t : TokenTable} (h : Leaves sh none t sh')
    (digest : Option String) : Leaves sh digest t sh' where
  quiet := h.quiet
  now := h.now
  table := h.table
  minted m hm := Or.inl ((h.minted m hm).resolve_right nofun)

variable (sha256 ttlSeconds)

/-- The machine visits the candidates as the table does. -/
theorem alone_visits (sh : Shared) {q : StmtName} {next : Next} {ks : List Nat}
    {txn txn' : Txn RefreshTokenEntity} {db : Db RefreshTokenEntity}
    (h : Db.visits c q.stmt sh.db txn ks = some (db, txn')) :
    Alone sha256 ttlSeconds c (sh, ⟨.scan q ks next, txn⟩)
      ({ sh with db }, ⟨.scan q [] next, txn'⟩) := by
  induction ks generalizing sh txn with
  | nil =>
      cases h
      exact Alone.refl _
  | cons k ks ih =>
      obtain ⟨⟨db₁, txn₁⟩, hv, hrest⟩ := Option.bind_eq_some_iff.1 h
      have hvisit : move sha256 ttlSeconds c sh ⟨.scan q (k :: ks) next, txn⟩ (.visit k) =
          some ({ sh with db := db₁ }, ⟨.scan q ks next, txn₁⟩) := by
        simp [move, hv]
      exact Alone.step hvisit (ih { sh with db := db₁ } hrest)

/-- An `UPDATE` or `DELETE` up to the end of its transaction. -/
theorem alone_scan (sh : Shared) {txn : Txn RefreshTokenEntity} {q : StmtName} (next : Next)
    (hdb : DbOk sh.db) (ht : TxnOk c sh.db txn q.stmt) (hw : txn.writes = [])
    (honly : sh.db.OnlyOwner c) :
    ∃ db txn', Alone sha256 ttlSeconds c (sh, ⟨.update q next, txn⟩)
        ({ sh with db }, ⟨.scan q [] next, txn'⟩) ∧
      txn'.writes.length = q.stmt.affected (sh.db.rows ++ txn.inserted) ∧
      db.commit c txn' = ⟨q.stmt.apply (sh.db.rows ++ txn.inserted), sh.db.nextId, fun _ => none⟩ ∧
      DbOk (db.commit c txn') ∧
      db.rollback c = ⟨sh.db.rows, sh.db.nextId, fun _ => none⟩ := by
  obtain ⟨db, txn', hvs, hrest⟩ := Db.visits_candidates hdb ht hw honly
  have hstart : move sha256 ttlSeconds c sh ⟨.update q next, txn⟩ .start =
      some (sh, ⟨.scan q (sh.db.candidates txn q.stmt) next, txn⟩) := rfl
  exact ⟨db, txn', Alone.step hstart (alone_visits sha256 ttlSeconds sh hvs), hrest⟩

/-- An `UPDATE` or `DELETE` that is a transaction of its own. -/
theorem alone_update (c : Nat) (hq : sh.Quiet) (q : StmtName) :
    ∃ sh', Alone sha256 ttlSeconds c (sh, ⟨.update q .commit, {}⟩) (sh', {}) ∧
      Leaves sh none (Service.exec (update q.stmt) sh.table).2 sh' ∧
      sh'.exchanges = sh.exchanges := by
  obtain ⟨db, txn, hscan, -, hcommit, hok, -⟩ :=
    alone_scan sha256 ttlSeconds sh .commit hq.ok (hq.txn c q.stmt) rfl (hq.onlyOwner c)
  have hfinish : move sha256 ttlSeconds c { sh with db } ⟨.scan q [] .commit, txn⟩ .finish =
      some ({ sh with db := db.commit c txn }, {}) := rfl
  have htable : Shared.table { sh with db := db.commit c txn } =
      (Service.exec (update q.stmt) sh.table).2 := by
    simp [Shared.table, hcommit, update]
  refine ⟨_, hscan.trans (Alone.step hfinish (Alone.refl _)), ⟨⟨hok, ?_⟩, rfl, htable, ?_⟩, rfl⟩
  · show (db.commit c txn).owner = _
    rw [hcommit]
  · exact fun _ hm => Or.inl hm

/-- The transaction of `rotate`. -/
def exchange (now : Instant) (n : NewToken) (row : RefreshTokenEntity) : TokenService Unit :=
  transaction do
    let savedId ← save n
    let affected ← update (replaceStmt row.id savedId now)
    if affected ≠ 1 then throw invalid

theorem exec_exchange (now : Instant) (n : NewToken) (row : RefreshTokenEntity) (t : TokenTable) :
    Service.exec (exchange now n row) t =
      if (replaceStmt row.id t.nextId now).affected (t.rows ++ [n.row t.nextId]) = 1 then
        (.ok (),
          ⟨(replaceStmt row.id t.nextId now).apply (t.rows ++ [n.row t.nextId]), t.nextId + 1⟩)
      else (.error invalid, { t with nextId := t.nextId + 1 }) := by
  by_cases hone : (replaceStmt row.id t.nextId now).affected (t.rows ++ [n.row t.nextId]) = 1
  · simp [exchange, exec_transaction, save, update, hone]
  · simp [exchange, exec_transaction, save, update, hone]

theorem mem_mint {n : NewToken} {m : Minted} (hm : m ∈ sh.mint n) :
    m ∈ sh.minted ∨ some n.tokenHash = some m.tokenHash := by
  rcases List.mem_cons.1 hm with rfl | hm
  · exact Or.inr rfl
  · exact Or.inl hm

/-- The same transaction on the machine: its `INSERT`, and its conditional `UPDATE`. -/
theorem alone_exchange (c : Nat) (hq : sh.Quiet) {row : RefreshTokenEntity}
    (hrow : row ∈ sh.db.rows) (tok : String) (now : Instant) {n : NewToken} (hnew : sh.Distinct n) :
    ∃ sh', Alone sha256 ttlSeconds c (sh, ⟨.replaceInsert tok row n now, {}⟩) (sh', {}) ∧
      Leaves sh (some n.tokenHash) (Service.exec (exchange now n row) sh.table).2 sh' ∧
      (sh'.exchanges ≠ sh.exchanges ↔ (Service.exec (exchange now n row) sh.table).1 = .ok ()) := by
  have hid : row.id < sh.db.nextId := hq.ok.bound row hrow
  let q : StmtName := .replace row.id sh.db.nextId now
  let sh₁ : Shared := { sh with db := (sh.db.insert c {} n.row).1, minted := sh.mint n }
  have hp : q.stmt.selects (n.row sh.db.nextId) = false := by
    simp [q, StmtName.stmt, replaceStmt, Nat.ne_of_gt hid]
  have honly : sh₁.db.OnlyOwner c := by
    intro k d hk
    by_cases hkn : k = sh.db.nextId
    · simpa [sh₁, Db.insert, hkn, eq_comm] using hk
    · simp [sh₁, Db.insert, hkn, hq.free] at hk
  have hinsert : move sha256 ttlSeconds c sh ⟨.replaceInsert tok row n now, {}⟩ .exec =
      some (sh₁, ⟨.update q (.commitIfOne tok row.id sh.db.nextId),
        (sh.db.insert c {} n.row).2⟩) := by
    simp [move, hnew, sh₁, q]
  obtain ⟨db, txn, hscan, hlen, hcommit, hok, hroll⟩ :=
    alone_scan sha256 ttlSeconds sh₁ (.commitIfOne tok row.id sh.db.nextId)
      (hq.ok.insert c {} n.row) (TxnOk.insert hq.ok (hq.txn c q.stmt) (fun _ => rfl) hp) rfl honly
  have halone := Alone.step hinsert hscan
  have hrows : sh₁.db.rows ++ (sh.db.insert c {} n.row).2.inserted =
      sh.db.rows ++ [n.row sh.db.nextId] := rfl
  rw [hrows] at hlen hcommit
  rw [exec_exchange]
  by_cases hone : txn.writes.length = 1
  · have haffected : (replaceStmt row.id sh.table.nextId now).affected
        (sh.table.rows ++ [n.row sh.table.nextId]) = 1 := hlen.symm.trans hone
    let sh₂ : Shared := { sh₁ with
      db := db.commit c txn, exchanges := ⟨tok, row.id, sh.db.nextId⟩ :: sh.exchanges }
    have hfinish : move sha256 ttlSeconds c { sh₁ with db }
        ⟨.scan q [] (.commitIfOne tok row.id sh.db.nextId), txn⟩ .finish = some (sh₂, {}) := by
      simp [move, hone, sh₁, sh₂]
    have hquiet : sh₂.Quiet := ⟨hok, by simp only [sh₂, hcommit]⟩
    rw [if_pos haffected]
    refine ⟨sh₂, halone.trans (Alone.step hfinish (Alone.refl _)), ⟨hquiet, rfl, ?_, ?_⟩, ?_⟩
    · simp only [Shared.table, sh₂, hcommit]
      rfl
    · exact fun m hm => mem_mint hm
    · simp [sh₂]
  · have haffected : ¬ (replaceStmt row.id sh.table.nextId now).affected
        (sh.table.rows ++ [n.row sh.table.nextId]) = 1 := fun h => hone (hlen.trans h)
    let sh₂ : Shared := { sh₁ with db := db.rollback c }
    have hfinish : move sha256 ttlSeconds c { sh₁ with db }
        ⟨.scan q [] (.commitIfOne tok row.id sh.db.nextId), txn⟩ .finish = some (sh₂, {}) := by
      simp [move, hone, sh₂]
    have hquiet : sh₂.Quiet := by
      refine ⟨?_, by simp only [sh₂, hroll]⟩
      simp only [sh₂, hroll]
      refine ⟨hq.ok.nodup, fun r hr => ?_, fun k d hk => by simp at hk⟩
      have hlt := hq.ok.bound r hr
      show key r < sh.db.nextId + 1
      omega
    rw [if_neg haffected]
    refine ⟨sh₂, halone.trans (Alone.step hfinish (Alone.refl _)), ⟨hquiet, rfl, ?_, ?_⟩, ?_⟩
    · simp only [Shared.table, sh₂, hroll]
      rfl
    · exact fun m hm => mem_mint hm
    · simp [sh₂, sh₁]

theorem exec_rotate_exchange {now : Instant} {presentedToken newToken : String} {t : TokenTable}
    {row : RefreshTokenEntity} (hempty : presentedToken.length ≠ 0)
    (hfind : findByToken sha256 t.rows presentedToken = some row)
    (hb : rotateBranch now row = .exchange) :
    Service.exec (rotate sha256 ttlSeconds now newToken presentedToken) t =
      Service.exec (exchange now (successor sha256 ttlSeconds now newToken row) row >>= fun _ =>
        pure ⟨⟨newToken, newExpiry ttlSeconds now⟩, row.userId, row.role⟩) t := by
  simp only [rotate, lookup, Service.exec_bind, Service.exec_statement, Service.exec_pure, hempty,
    hfind, hb, if_false]
  rfl

/-! ## The calls -/

/-- The lookup of `rotate` and `revoke`, and the code that follows it. -/
theorem alone_find (c : Nat) (sh : Shared) (rotating : Bool) (presentedToken newToken : String) :
    Alone sha256 ttlSeconds c (sh, ⟨.find rotating presentedToken, {}⟩)
      (sh, ⟨afterFind sha256 ttlSeconds sh.now newToken rotating presentedToken
        (findByToken sha256 sh.table.rows presentedToken), {}⟩) := by
  have hfind : move sha256 ttlSeconds c sh ⟨.find rotating presentedToken, {}⟩ .exec =
      some (sh, ⟨.found rotating presentedToken
        (findByToken sha256 sh.table.rows presentedToken), {}⟩) := rfl
  exact Alone.step hfind (Alone.step (a := .resume newToken) rfl (Alone.refl _))

/-- `rotate` on the machine: the same table, and an exchange exactly when it returns. -/
theorem alone_rotate (c : Nat) (hq : sh.Quiet) (presentedToken newToken : String)
    (hnew : sha256 newToken ∉ sh.minted.map Minted.tokenHash) :
    ∃ sh', Alone sha256 ttlSeconds c
        (sh, ⟨begin sha256 ttlSeconds sh.now (.rotate presentedToken), {}⟩) (sh', {}) ∧
      Leaves sh (some (sha256 newToken))
        (Service.exec (rotate sha256 ttlSeconds sh.now newToken presentedToken) sh.table).2 sh' ∧
      (sh'.exchanges ≠ sh.exchanges ↔ ∃ r,
        (Service.exec (rotate sha256 ttlSeconds sh.now newToken presentedToken) sh.table).1 =
          .ok r) := by
  by_cases hempty : presentedToken.length = 0
  · have hexec : Service.exec (rotate sha256 ttlSeconds sh.now newToken presentedToken) sh.table =
        (.error invalid, sh.table) := by
      simp [rotate, lookup, hempty]
    rw [begin, if_pos hempty, hexec]
    exact ⟨sh, Alone.refl _, hq.leaves _, by simp⟩
  rw [begin, if_neg hempty]
  have hlookup := alone_find sha256 ttlSeconds c sh true presentedToken newToken
  cases hfind : findByToken sha256 sh.table.rows presentedToken with
  | none =>
      have hexec : Service.exec (rotate sha256 ttlSeconds sh.now newToken presentedToken) sh.table =
          (.error invalid, sh.table) := by
        simp [rotate, lookup, hempty, hfind]
      rw [hfind, afterFind] at hlookup
      rw [hexec]
      exact ⟨sh, hlookup, hq.leaves _, by simp⟩
  | some row =>
      rw [hfind, afterFind] at hlookup
      cases hb : rotateBranch sh.now row with
      | reuse =>
          have hexec : Service.exec (rotate sha256 ttlSeconds sh.now newToken presentedToken)
              sh.table = (.error invalid, (Service.exec
                (update (revokeAllForUserStmt row.userId row.role sh.now)) sh.table).2) := by
            simp [rotate, lookup, update, hempty, hfind, hb]
          simp only [hb] at hlookup
          obtain ⟨sh', halone, hleaves, hexchanges⟩ := alone_update sha256 ttlSeconds
            c hq (.revokeAllForUser row.userId row.role sh.now)
          rw [hexec]
          exact ⟨sh', hlookup.trans halone, hleaves.weaken _, by simp [hexchanges]⟩
      | reject =>
          have hexec : Service.exec (rotate sha256 ttlSeconds sh.now newToken presentedToken)
              sh.table = (.error invalid, sh.table) := by
            simp [rotate, lookup, hempty, hfind, hb]
          simp only [hb] at hlookup
          rw [hexec]
          exact ⟨sh, hlookup, hq.leaves _, by simp⟩
      | exchange =>
          simp only [hb] at hlookup
          obtain ⟨sh', halone, hleaves, hexchanges⟩ := alone_exchange sha256 ttlSeconds
            c hq (List.mem_of_find?_eq_some hfind) presentedToken sh.now
            (n := successor sha256 ttlSeconds sh.now newToken row) hnew
          rw [exec_rotate_exchange sha256 ttlSeconds hempty hfind hb, Service.exec_bind_pure]
          refine ⟨sh', hlookup.trans halone, hleaves, ?_⟩
          rw [hexchanges]
          cases (Service.exec (exchange sh.now (successor sha256 ttlSeconds sh.now newToken row)
            row) sh.table).1 with
          | ok u => simp [Except.map]
          | error e => simp [Except.map]

/-- A call that nobody interrupts, from its first statement on. -/
theorem alone_call (c : Nat) (hq : sh.Quiet) (k : Call) (newToken : String)
    (hnew : ∀ tok, k.drawn newToken = some tok → sha256 tok ∉ sh.minted.map Minted.tokenHash) :
    ∃ sh', Alone sha256 ttlSeconds c (sh, ⟨begin sha256 ttlSeconds sh.now k, {}⟩) (sh', {}) ∧
      Leaves sh ((k.drawn newToken).map sha256)
        (Service.exec (k.service sha256 ttlSeconds sh.now newToken) sh.table).2 sh' := by
  cases k with
  | issue userId role token =>
      let n : NewToken := ⟨sha256 token, userId, role, newExpiry ttlSeconds sh.now⟩
      let sh' : Shared := { sh with
        db := sh.db.append n.row, minted := sh.mint n, issued := sh.db.nextId :: sh.issued }
      have hdistinct : sh.Distinct n := hnew token rfl
      have hinsert : move sha256 ttlSeconds c sh ⟨.insert n, {}⟩ .exec = some (sh', {}) := by
        simp [move, hdistinct, sh']
      have hquiet : sh'.Quiet := ⟨hq.ok.append fun _ => rfl, hq.free⟩
      refine ⟨sh', Alone.step hinsert (Alone.refl _), hquiet, rfl, ?_, fun m hm => mem_mint hm⟩
      rw [Call.service, Service.exec_bind_pure, exec_issue]
      rfl
  | rotate presentedToken =>
      obtain ⟨sh', halone, hleaves, -⟩ :=
        alone_rotate sha256 ttlSeconds c hq presentedToken newToken (hnew newToken rfl)
      rw [Call.service, Service.exec_bind_pure]
      exact ⟨sh', halone, hleaves⟩
  | revoke presentedToken =>
      have hlookup := alone_find sha256 ttlSeconds c sh false presentedToken newToken
      cases hfind : findByToken sha256 sh.table.rows presentedToken with
      | none =>
          have hexec : Service.exec (revoke sha256 sh.now presentedToken) sh.table =
              (.ok (), sh.table) := by
            simp [revoke, hfind]
          rw [hfind, afterFind] at hlookup
          rw [Call.service, hexec]
          exact ⟨sh, hlookup, hq.leaves _⟩
      | some row =>
          rw [hfind, afterFind] at hlookup
          by_cases hrevoked : row.revokedAt.isSome = true
          · have hexec : Service.exec (revoke sha256 sh.now presentedToken) sh.table =
                (.ok (), sh.table) := by
              simp [revoke, hfind, hrevoked]
            rw [if_pos hrevoked] at hlookup
            rw [Call.service, hexec]
            exact ⟨sh, hlookup, hq.leaves _⟩
          · have hexec : Service.exec (revoke sha256 sh.now presentedToken) sh.table =
                (.ok (), (Service.exec (update (revokeStmt row.id sh.now)) sh.table).2) := by
              simp [revoke, update, hfind, hrevoked]
            rw [if_neg hrevoked] at hlookup
            obtain ⟨sh', halone, hleaves, -⟩ :=
              alone_update sha256 ttlSeconds c hq (.revoke row.id sh.now)
            rw [Call.service, hexec]
            exact ⟨sh', hlookup.trans halone, hleaves⟩
  | revokeAllForUser userId role =>
      obtain ⟨sh', halone, hleaves, -⟩ :=
        alone_update sha256 ttlSeconds c hq (.revokeAllForUser userId role sh.now)
      rw [Call.service, revokeAllForUser, Service.exec_bind_pure]
      exact ⟨sh', halone, hleaves⟩
  | pruneExpiredTokens =>
      obtain ⟨sh', halone, hleaves, -⟩ :=
        alone_update sha256 ttlSeconds c hq (.deleteExpiredBefore sh.now)
      rw [Call.service, pruneExpiredTokens, Service.exec_bind_pure]
      exact ⟨sh', halone, hleaves⟩

/-! ## Serial histories -/

structure Serial where
  table : TokenTable := {}
  now : Instant
  /-- The digests of the tokens drawn so far. -/
  digests : List String := []

structure Request where
  delay : Nat
  call : Call
  newToken : String
  deriving DecidableEq, Repr

def Request.digest (req : Request) : Option String := (req.call.drawn req.newToken).map sha256

/-- The call as the service method makes it; the digest of a drawn token is new. -/
def Serial.step (s : Serial) (req : Request) : Option Serial :=
  if ∀ d ∈ req.digest sha256, d ∉ s.digests then
    some {
      table := (Service.exec
        (req.call.service sha256 ttlSeconds (s.now + req.delay) req.newToken) s.table).2
      now := s.now + req.delay
      digests := (req.digest sha256).toList ++ s.digests }
  else none

/-- The machine stands where the serial history does, and nobody is inside a call. -/
structure Follows (s : Serial) (p : State) : Prop where
  table : p.shared.table = s.table
  now : p.shared.now = s.now
  minted : ∀ m ∈ p.shared.minted, m.tokenHash ∈ s.digests
  quiet : p.shared.Quiet
  idle : ∀ c, p.client c = {}

variable {sha256 ttlSeconds}

theorem Follows.step {s s' : Serial} {p : State} {req : Request} (h : Follows s p)
    (hs : s.step sha256 ttlSeconds req = some s') :
    ∃ acts p', run (RefreshTokens.step sha256 ttlSeconds) p acts = some p' ∧ Follows s' p' := by
  by_cases hdigest : ∀ d ∈ req.digest sha256, d ∉ s.digests
  · rw [Serial.step, if_pos hdigest, Option.some.injEq] at hs
    subst hs
    let sh : Shared := { p.shared with now := p.shared.now + req.delay }
    have hquiet : sh.Quiet := ⟨h.quiet.ok, h.quiet.free⟩
    have hnew : ∀ tok, req.call.drawn req.newToken = some tok →
        sha256 tok ∉ sh.minted.map Minted.tokenHash := by
      intro tok htok hmem
      obtain ⟨m, hm, hmtok⟩ := List.mem_map.1 hmem
      refine hdigest (sha256 tok) (by simp [Request.digest, htok]) ?_
      rw [← hmtok]
      exact h.minted m hm
    obtain ⟨sh', ⟨acts, hrun⟩, hleaves⟩ :=
      alone_call sha256 ttlSeconds 0 hquiet req.call req.newToken hnew
    have hsolo : run (Pool.solo (move sha256 ttlSeconds) 0) (p.shared, p.client 0)
        (.tick req.delay :: .call req.call :: acts) = some (sh', p.client 0) := by
      rw [h.idle 0]
      exact hrun
    refine ⟨_, _, Pool.run_solo_self hsolo, ⟨?_, ?_, ?_, hleaves.quiet, h.idle⟩⟩
    · rw [hleaves.table, ← h.table, ← h.now]
      rfl
    · rw [hleaves.now, ← h.now]
    · intro m hm
      rcases hleaves.minted m hm with hold | hnow
      · exact List.mem_append_right _ (h.minted m hold)
      · refine List.mem_append_left _ ?_
        rw [Request.digest, hnow]
        exact List.mem_singleton_self _
  · rw [Serial.step, if_neg hdigest] at hs
    cases hs

/-- Every serial history of the service is a run of the machine that ends with the same
table. -/
theorem follows_of_run {now : Instant} {reqs : List Request} {s : Serial}
    (hrun : run (Serial.step sha256 ttlSeconds) { now } reqs = some s) :
    ∃ acts p, run (RefreshTokens.step sha256 ttlSeconds) (initial now) acts = some p ∧
      Follows s p := by
  refine run_simulates (fun _ _ _ _ hR hs => Follows.step hR hs) ?_ hrun
  exact ⟨rfl, rfl, nofun, ⟨⟨List.nodup_nil, nofun, nofun⟩, rfl⟩, fun _ => rfl⟩

/-- So the links of a serial history's table are those of a reachable one. -/
theorem linked_of_run {now : Instant} {reqs : List Request} {s : Serial}
    (hrun : run (Serial.step sha256 ttlSeconds) { now } reqs = some s) :
    ∀ r ∈ s.table.rows, ∀ k, r.replacedById = some k → r.revokedAt ≠ none ∧ r.id < k ∧
      ∀ r' ∈ s.table.rows, r'.id = k → r'.userId = r.userId ∧ r'.role = r.role := by
  obtain ⟨acts, p, hp, hfollows⟩ := follows_of_run hrun
  have hchain := (chainInv_of_reachable ⟨acts, hp⟩).shared
  rw [← hfollows.table]
  intro r hr k hk
  exact ⟨(hchain.replaced r hr k hk).1, hchain.link hr hk⟩

end NestStarter.RefreshTokens
