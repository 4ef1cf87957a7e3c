import NestStarter.RefreshTokens.Calls

/-! # What a rotation leaves

A `rotate` call that runs alone, when any of its statements may fail. It exchanges
the presented row for one new row, or leaves the rows as they were, or finds the
token reused and revokes the principal's live rows. In no case does it touch a row
of another principal.
-/

namespace NestStarter.RefreshTokens

open NestStarter.Core

/-- The statements of `rotate`, the end of its transaction among them. -/
inductive Statement where
  | findByToken
  | revokeAllForUser
  | save
  | update
  | commit
  deriving DecidableEq, Repr

abbrev Faults := Statement → Option HttpException

/-- `ERROR_CODE_MAP['23505']`: the unique index on `token_hash`. -/
def duplicateRecord : HttpException := ⟨.conflict, "This record already exists", []⟩

/-- `manager.save` under the unique index. -/
def saveUnique (n : NewToken) : TokenService Nat := do
  let taken ← Service.statement fun t => (t.rows.any fun r => r.tokenHash == n.tokenHash, t)
  if taken then throw duplicateRecord
  save n

variable (sha256 : String → String) (ttlSeconds : Nat) (faults : Faults)

def lookupUnder (presentedToken : String) : TokenService RefreshTokenEntity := do
  if presentedToken.length = 0 then throw invalid
  let row ← Service.attempt (faults .findByToken)
    (Service.statement fun t => (findByToken sha256 t.rows presentedToken, t))
  match row with
  | none => throw invalid
  | some row => return row

def rotateUnder (now : Instant) (newToken presentedToken : String) :
    TokenService RefreshTokenRotateResult := do
  let row ← lookupUnder sha256 faults presentedToken
  match rotateBranch now row with
  | .reuse =>
      let _ ← Service.attempt (faults .revokeAllForUser)
        (update (revokeAllForUserStmt row.userId row.role now))
      throw invalid
  | .reject => throw invalid
  | .exchange =>
      transaction do
        let savedId ← Service.attempt (faults .save)
          (saveUnique (successor sha256 ttlSeconds now newToken row))
        let affected ← Service.attempt (faults .update) (update (replaceStmt row.id savedId now))
        if affected ≠ 1 then throw invalid
        Service.attempt (faults .commit) (pure ())
      return ⟨⟨newToken, newExpiry ttlSeconds now⟩, row.userId, row.role⟩

/-! ## The three outcomes -/

abbrev Outcome := Except HttpException RefreshTokenRotateResult × TokenTable

/-- The presented row as the conditional update leaves it. -/
def RefreshTokenEntity.replacedBy (row : RefreshTokenEntity) (savedId : Nat) (now : Instant) :
    RefreshTokenEntity :=
  { row with revokedAt := some now, replacedById := some savedId, lastUsedAt := some now }

/-- One row of `t` was exchanged: it was live, and the row added at the end succeeds it. -/
def Exchanged (now : Instant) (newToken presentedToken : String) (t : TokenTable)
    (out : Outcome) : Prop :=
  ∃ row before after, findByToken sha256 t.rows presentedToken = some row ∧
    row.revokedAt = none ∧ now < row.expiresAt ∧ t.rows = before ++ row :: after ∧
    out.1 = .ok ⟨⟨newToken, now + ttlSeconds * 1000⟩, row.userId, row.role⟩ ∧
    out.2.rows = before ++ row.replacedBy t.nextId now :: after ++
      [{ id := t.nextId, tokenHash := sha256 newToken, userId := row.userId, role := row.role
         expiresAt := now + ttlSeconds * 1000 }]

/-- The call threw and no row was added, changed or removed. -/
def Unchanged (t : TokenTable) (out : Outcome) : Prop :=
  (∃ e, out.1 = .error e) ∧ out.2.rows = t.rows

/-- The presented token had been rotated: every unrevoked row of its principal is now
revoked, and nothing else changed. -/
def ReuseDetected (now : Instant) (presentedToken : String) (t : TokenTable)
    (out : Outcome) : Prop :=
  ∃ row, findByToken sha256 t.rows presentedToken = some row ∧ row.revokedAt ≠ none ∧
    row.replacedById ≠ none ∧ out.1 = .error invalid ∧
    out.2.rows = t.rows.map fun r =>
      if r.userId = row.userId ∧ r.role = row.role ∧ r.revokedAt = none then
        { r with revokedAt := some now }
      else r

/-- The look-up is answered, with `row`. -/
structure Finds (presentedToken : String) (t : TokenTable) (row : RefreshTokenEntity) : Prop where
  nonempty : presentedToken.length ≠ 0
  answered : faults .findByToken = none
  found : findByToken sha256 t.rows presentedToken = some row

/-- No statement of the transaction fails, and the unique index has room for the new hash. -/
structure CanExchange (newToken : String) (t : TokenTable) : Prop where
  save : faults .save = none
  update : faults .update = none
  commit : faults .commit = none
  fresh : ∀ r ∈ t.rows, r.tokenHash ≠ sha256 newToken

def Exchanges (now : Instant) (newToken presentedToken : String) (t : TokenTable) : Prop :=
  ∃ row, Finds sha256 faults presentedToken t row ∧ row.revokedAt = none ∧ now < row.expiresAt ∧
    CanExchange sha256 faults newToken t

def FindsRotated (presentedToken : String) (t : TokenTable) : Prop :=
  ∃ row, Finds sha256 faults presentedToken t row ∧ row.revokedAt ≠ none ∧
    row.replacedById ≠ none ∧ faults .revokeAllForUser = none

/-- The primary key and its sequence. -/
structure TokenTable.Keyed (t : TokenTable) : Prop where
  ids : (t.rows.map RefreshTokenEntity.id).Nodup
  nextId : ∀ r ∈ t.rows, r.id < t.nextId

def ofPrincipal (userId : Nat) (role : Role) (rows : List RefreshTokenEntity) :
    List RefreshTokenEntity :=
  rows.filter fun r => r.userId = userId ∧ r.role = role

variable {sha256 ttlSeconds faults} {now : Instant} {newToken presentedToken : String}
  {t : TokenTable}

theorem Finds.unique {row row' : RefreshTokenEntity} (h : Finds sha256 faults presentedToken t row)
    (h' : Finds sha256 faults presentedToken t row') : row' = row :=
  Option.some.inj (h'.found.symm.trans h.found)

theorem exchanges_iff {row : RefreshTokenEntity}
    (hrow : Finds sha256 faults presentedToken t row) :
    Exchanges sha256 faults now newToken presentedToken t ↔
      rotateBranch now row = .exchange ∧ CanExchange sha256 faults newToken t := by
  constructor
  · rintro ⟨row', hrow', hlive, hfresh, hcan⟩
    obtain rfl := hrow.unique hrow'
    exact ⟨rotateBranch_eq_exchange.2 ⟨hlive, hfresh⟩, hcan⟩
  · rintro ⟨hb, hcan⟩
    obtain ⟨hlive, hfresh⟩ := rotateBranch_eq_exchange.1 hb
    exact ⟨row, hrow, hlive, hfresh, hcan⟩

theorem findsRotated_iff (now : Instant) {row : RefreshTokenEntity}
    (hrow : Finds sha256 faults presentedToken t row) :
    FindsRotated sha256 faults presentedToken t ↔
      rotateBranch now row = .reuse ∧ faults .revokeAllForUser = none := by
  rw [rotateBranch_eq_reuse, Option.isSome_iff_ne_none, Option.isSome_iff_ne_none]
  constructor
  · rintro ⟨row', hrow', hrevoked, hreplaced, hfault⟩
    obtain rfl := hrow.unique hrow'
    exact ⟨⟨hrevoked, hreplaced⟩, hfault⟩
  · rintro ⟨⟨hrevoked, hreplaced⟩, hfault⟩
    exact ⟨row, hrow, hrevoked, hreplaced, hfault⟩

theorem Unchanged.ofPrincipal {out : Outcome} (h : Unchanged t out) (userId : Nat) (role : Role) :
    ofPrincipal userId role out.2.rows = ofPrincipal userId role t.rows := by rw [h.2]

theorem Exchanged.ofPrincipal {out : Outcome}
    (h : Exchanged sha256 ttlSeconds now newToken presentedToken t out) {userId : Nat} {role : Role}
    (hother : ∀ row, findByToken sha256 t.rows presentedToken = some row →
      ¬ (row.userId = userId ∧ row.role = role)) :
    ofPrincipal userId role out.2.rows = ofPrincipal userId role t.rows := by
  obtain ⟨row, before, after, hfind, _, _, hrows, _, hout⟩ := h
  have hrow := hother row hfind
  rw [hout, hrows]
  simp [RefreshTokens.ofPrincipal, RefreshTokenEntity.replacedBy, hrow]

theorem Unchanged.of_eq {out : Outcome} {e : HttpException} (h : out = (.error e, t)) :
    Unchanged t out :=
  ⟨⟨e, by rw [h]⟩, by rw [h]⟩

theorem ReuseDetected.ofPrincipal {out : Outcome}
    (h : ReuseDetected sha256 now presentedToken t out) {userId : Nat} {role : Role}
    (hother : ∀ row, findByToken sha256 t.rows presentedToken = some row →
      ¬ (row.userId = userId ∧ row.role = role)) :
    ofPrincipal userId role out.2.rows = ofPrincipal userId role t.rows := by
  obtain ⟨row, hfind, _, _, _, hout⟩ := h
  have hrow := hother row hfind
  let f : RefreshTokenEntity → RefreshTokenEntity := fun r =>
    if r.userId = row.userId ∧ r.role = row.role ∧ r.revokedAt = none then
      { r with revokedAt := some now }
    else r
  have hkeep : ∀ r, (f r).userId = r.userId ∧ (f r).role = r.role := by
    intro r
    simp only [f]
    split <;> exact ⟨rfl, rfl⟩
  have hfix : ∀ r ∈ RefreshTokens.ofPrincipal userId role t.rows, f r = r := by
    intro r hr
    obtain ⟨huser, hrole⟩ : r.userId = userId ∧ r.role = role := by
      simpa using (List.mem_filter.1 hr).2
    refine if_neg fun hsel => hrow ?_
    rw [← hsel.1, ← hsel.2.1]
    exact ⟨huser, hrole⟩
  have hfilter : (t.rows.map f).filter (fun r => r.userId = userId ∧ r.role = role) =
      (RefreshTokens.ofPrincipal userId role t.rows).map f := by
    rw [List.filter_map]
    refine congrArg _ (List.filter_congr fun r _ => ?_)
    simp only [Function.comp_apply, hkeep]
  rw [hout]
  exact hfilter.trans ((List.map_congr_left hfix).trans (List.map_id _))

/-! ## The call -/

theorem exec_lookupUnder : Service.exec (lookupUnder sha256 faults presentedToken) t =
    if presentedToken.length = 0 then (.error invalid, t)
    else match faults .findByToken, findByToken sha256 t.rows presentedToken with
      | some e, _ => (.error e, t)
      | none, none => (.error invalid, t)
      | none, some row => (.ok row, t) := by
  unfold lookupUnder
  by_cases hempty : presentedToken.length = 0
  · simp [hempty]
  · cases hfault : faults .findByToken with
    | some e => simp [hempty]
    | none => cases hfind : findByToken sha256 t.rows presentedToken <;> simp [hempty, hfind]

/-- A look-up throws, or is answered with a row, and writes nothing. -/
theorem lookupUnder_cases (sha256 : String → String) (faults : Faults) (presentedToken : String)
    (t : TokenTable) :
    ((∃ e, Service.exec (lookupUnder sha256 faults presentedToken) t = (.error e, t)) ∧
      ∀ row, ¬ Finds sha256 faults presentedToken t row) ∨
    ∃ row, Finds sha256 faults presentedToken t row ∧
      Service.exec (lookupUnder sha256 faults presentedToken) t = (.ok row, t) := by
  rw [exec_lookupUnder]
  by_cases hempty : presentedToken.length = 0
  · rw [if_pos hempty]
    exact Or.inl ⟨⟨_, rfl⟩, fun row h => h.nonempty hempty⟩
  · rw [if_neg hempty]
    split
    · next hfault =>
        exact Or.inl ⟨⟨_, rfl⟩, fun row h => by simp [h.answered] at hfault⟩
    · next hnone =>
        exact Or.inl ⟨⟨_, rfl⟩, fun row h => by simp [h.found] at hnone⟩
    · next row hfault hfind => exact Or.inr ⟨row, ⟨hempty, hfault, hfind⟩, rfl⟩

theorem exec_saveUnique (n : NewToken) : Service.exec (saveUnique n) t =
    if t.rows.any fun r => r.tokenHash == n.tokenHash then (.error duplicateRecord, t)
    else (.ok t.nextId, { rows := t.rows ++ [n.row t.nextId], nextId := t.nextId + 1 }) := by
  simp [saveUnique, save]

/-- The callback of the transaction, with its end. -/
def exchangeUnder (faults : Faults) (now : Instant) (n : NewToken) (row : RefreshTokenEntity) :
    TokenService Unit :=
  transaction do
    let savedId ← Service.attempt (faults .save) (saveUnique n)
    let affected ← Service.attempt (faults .update) (update (replaceStmt row.id savedId now))
    if affected ≠ 1 then throw invalid
    Service.attempt (faults .commit) (pure ())

theorem exec_exchangeUnder (faults : Faults) (now : Instant) (t : TokenTable) (newToken : String)
    (row : RefreshTokenEntity) (hcan : CanExchange sha256 faults newToken t)
    (hone : (replaceStmt row.id t.nextId now).affected
      (t.rows ++ [(successor sha256 ttlSeconds now newToken row).row t.nextId]) = 1) :
    Service.exec (exchangeUnder faults now (successor sha256 ttlSeconds now newToken row) row) t =
      (.ok (), { rows := (replaceStmt row.id t.nextId now).apply
                   (t.rows ++ [(successor sha256 ttlSeconds now newToken row).row t.nextId])
                 nextId := t.nextId + 1 }) := by
  have htaken : (t.rows.any fun r => r.tokenHash == sha256 newToken) = false := by
    simpa using hcan.fresh
  unfold exchangeUnder
  rw [exec_transaction]
  simp only [successor] at hone ⊢
  simp [exec_saveUnique, htaken, update, hone, hcan.save, hcan.update, hcan.commit]

/-- Otherwise the transaction throws, and its rollback leaves the rows as they were. -/
theorem exec_exchangeUnder_error (faults : Faults) (now : Instant) (t : TokenTable)
    (newToken : String) (row : RefreshTokenEntity)
    (hcannot : ¬ (CanExchange sha256 faults newToken t ∧
      (replaceStmt row.id t.nextId now).affected
        (t.rows ++ [(successor sha256 ttlSeconds now newToken row).row t.nextId]) = 1)) :
    (∃ e, (Service.exec (exchangeUnder faults now
      (successor sha256 ttlSeconds now newToken row) row) t).1 = .error e) ∧
    (Service.exec (exchangeUnder faults now
      (successor sha256 ttlSeconds now newToken row) row) t).2.rows = t.rows := by
  unfold exchangeUnder
  rw [exec_transaction]
  cases hsave : faults .save with
  | some e => simp
  | none =>
      by_cases htaken : (t.rows.any fun r => r.tokenHash == sha256 newToken) = true
      · simp [exec_saveUnique, successor, htaken]
      · have hfresh : ∀ r ∈ t.rows, r.tokenHash ≠ sha256 newToken := by simpa using htaken
        cases hupdate : faults .update with
        | some e => simp [exec_saveUnique, successor, htaken]
        | none =>
            by_cases hone : (replaceStmt row.id t.nextId now).affected
                (t.rows ++ [(successor sha256 ttlSeconds now newToken row).row t.nextId]) = 1
            · cases hcommit : faults .commit with
              | some e =>
                  simp only [successor] at hone
                  simp [exec_saveUnique, successor, htaken, update, hone]
              | none => exact (hcannot ⟨⟨hsave, hupdate, hcommit, hfresh⟩, hone⟩).elim
            · simp only [successor] at hone
              simp [exec_saveUnique, successor, htaken, update, hone]

theorem replace_apply {row : RefreshTokenEntity} {n : NewToken} (hrow : row ∈ t.rows)
    (hlive : row.revokedAt = none)
    (hone : (replaceStmt row.id t.nextId now).affected (t.rows ++ [n.row t.nextId]) = 1) :
    ∃ before after, t.rows = before ++ row :: after ∧
      (replaceStmt row.id t.nextId now).apply (t.rows ++ [n.row t.nextId]) =
        before ++ row.replacedBy t.nextId now :: after ++ [n.row t.nextId] := by
  obtain ⟨before, after, hrows⟩ := List.append_of_mem hrow
  have hsel : (replaceStmt row.id t.nextId now).selects row = true := by simp [replaceStmt, hlive]
  refine ⟨before, after, hrows, ?_⟩
  rw [hrows, List.append_assoc, List.cons_append] at hone ⊢
  rw [Stmt.apply_of_affected_eq_one hone hsel rfl, List.append_assoc, List.cons_append]
  rfl

/-- Under a primary key the conditional update finds the live row it was given, and no other. -/
theorem affected_replace {row : RefreshTokenEntity} {n : NewToken}
    (hkeyed : t.Keyed) (hrow : row ∈ t.rows) (hlive : row.revokedAt = none) :
    (replaceStmt row.id t.nextId now).affected (t.rows ++ [n.row t.nextId]) = 1 := by
  obtain ⟨before, after, hrows⟩ := List.append_of_mem hrow
  have hsel : (replaceStmt row.id t.nextId now).selects row = true := by simp [replaceStmt, hlive]
  have hother : ∀ l : List RefreshTokenEntity, (∀ r ∈ l, r.id ≠ row.id) →
      l.countP (replaceStmt row.id t.nextId now).selects = 0 := by
    intro l hl
    refine List.countP_eq_zero.2 fun r hr => ?_
    simp [replaceStmt, hl r hr]
  have hne := hkeyed.nextId row hrow
  have hids := hkeyed.ids
  rw [hrows, List.map_append, List.map_cons] at hids
  obtain ⟨_, hafter, hdisjoint⟩ := List.nodup_append.1 hids
  have hbefore := hother before fun r hr he =>
    hdisjoint r.id (List.mem_map_of_mem hr) row.id List.mem_cons_self he
  have hafter := hother after fun r hr he =>
    (List.nodup_cons.1 hafter).1 (he ▸ List.mem_map_of_mem hr)
  have hnew := hother [n.row t.nextId] fun r hr => by
    rw [List.mem_singleton.1 hr, NewToken.id_row]
    omega
  rw [Stmt.affected, hrows, List.countP_append, List.countP_append, List.countP_cons, hbefore,
    hafter, hnew, if_pos hsel]

theorem outcome_of_exchange (ttlSeconds : Nat) (faults : Faults) (newToken : String)
    {row : RefreshTokenEntity}
    (hfind : findByToken sha256 t.rows presentedToken = some row)
    (hb : rotateBranch now row = .exchange) :
    let out := Service.exec (exchangeUnder faults now
      (successor sha256 ttlSeconds now newToken row) row >>= fun _ =>
        pure ⟨⟨newToken, newExpiry ttlSeconds now⟩, row.userId, row.role⟩) t
    (Exchanged sha256 ttlSeconds now newToken presentedToken t out ∨ Unchanged t out) ∧
    (t.Keyed → CanExchange sha256 faults newToken t →
      Exchanged sha256 ttlSeconds now newToken presentedToken t out) ∧
    (¬ CanExchange sha256 faults newToken t → Unchanged t out) := by
  intro out
  obtain ⟨hlive, hfresh⟩ := rotateBranch_eq_exchange.1 hb
  have hrow := List.mem_of_find?_eq_some hfind
  let hits := (replaceStmt row.id t.nextId now).affected
    (t.rows ++ [(successor sha256 ttlSeconds now newToken row).row t.nextId]) = 1
  have hdone : CanExchange sha256 faults newToken t → hits →
      Exchanged sha256 ttlSeconds now newToken presentedToken t out := by
    intro hcan hone
    obtain ⟨before, after, hsplit, happly⟩ := replace_apply hrow hlive hone
    have hok := exec_exchangeUnder faults now t newToken row hcan hone
    have hout : out = _ := (Service.exec_bind_pure ..).trans (by rw [hok])
    refine ⟨row, before, after, hfind, hlive, hfresh, hsplit, by rw [hout]; rfl, ?_⟩
    rw [hout]
    exact happly
  have hthrown : ¬ (CanExchange sha256 faults newToken t ∧ hits) → Unchanged t out := by
    intro hcannot
    obtain ⟨⟨e, herror⟩, hrows⟩ := exec_exchangeUnder_error faults now t newToken row hcannot
    have hout : out = _ := Service.exec_bind_pure ..
    exact ⟨⟨e, by rw [hout, herror]; rfl⟩, by rw [hout]; exact hrows⟩
  refine ⟨?_, fun hkeyed hcan => hdone hcan (affected_replace hkeyed hrow hlive),
    fun hcannot => hthrown fun h => hcannot h.1⟩
  by_cases hall : CanExchange sha256 faults newToken t ∧ hits
  · exact Or.inl (hdone hall.1 hall.2)
  · exact Or.inr (hthrown hall)

/-- What is left of the call when the presented token had been rotated. -/
def revokeThenThrow (faults : Faults) (now : Instant) (row : RefreshTokenEntity) :
    TokenService RefreshTokenRotateResult := do
  let _ ← Service.attempt (faults .revokeAllForUser)
    (update (revokeAllForUserStmt row.userId row.role now))
  throw invalid

theorem outcome_of_reuse (faults : Faults) {row : RefreshTokenEntity}
    (hfind : findByToken sha256 t.rows presentedToken = some row)
    (hb : rotateBranch now row = .reuse) :
    let out := Service.exec (revokeThenThrow faults now row) t
    (faults .revokeAllForUser = none → ReuseDetected sha256 now presentedToken t out) ∧
    (faults .revokeAllForUser ≠ none → Unchanged t out) := by
  intro out
  obtain ⟨hrevoked, hreplaced⟩ := rotateBranch_eq_reuse.1 hb
  constructor
  · intro hfault
    have hout : out = (.error invalid, { t with
        rows := (revokeAllForUserStmt row.userId row.role now).apply t.rows }) := by
      simp [out, revokeThenThrow, hfault, update]
    refine ⟨row, hfind, Option.ne_none_iff_isSome.2 hrevoked,
      Option.ne_none_iff_isSome.2 hreplaced, by rw [hout], ?_⟩
    rw [hout, Stmt.apply_eq_map fun r => rfl]
    refine List.map_congr_left fun r _ => ?_
    simp [revokeAllForUserStmt, and_assoc]
  · intro hfault
    obtain ⟨e, he⟩ := Option.ne_none_iff_exists'.1 hfault
    have hout : out = (.error e, t) := by simp [out, revokeThenThrow, he]
    exact .of_eq hout

theorem exec_rotateUnder_of_not_found
    (hnone : ∀ row, ¬ Finds sha256 faults presentedToken t row) :
    Unchanged t
      (Service.exec (rotateUnder sha256 ttlSeconds faults now newToken presentedToken) t) := by
  rcases lookupUnder_cases sha256 faults presentedToken t with ⟨⟨e, hlook⟩, _⟩ | ⟨row, hrow, _⟩
  · have hout : Service.exec (rotateUnder sha256 ttlSeconds faults now newToken presentedToken) t =
        (.error e, t) := by simp [rotateUnder, hlook]
    exact .of_eq hout
  · exact (hnone row hrow).elim

/-- The call of a token that is found, as one of the three branches. -/
theorem exec_rotateUnder_of_found {row : RefreshTokenEntity}
    (hrow : Finds sha256 faults presentedToken t row) :
    Service.exec (rotateUnder sha256 ttlSeconds faults now newToken presentedToken) t =
      match rotateBranch now row with
      | .reuse => Service.exec (revokeThenThrow faults now row) t
      | .reject => (.error invalid, t)
      | .exchange => Service.exec (exchangeUnder faults now
          (successor sha256 ttlSeconds now newToken row) row >>= fun _ =>
            pure ⟨⟨newToken, newExpiry ttlSeconds now⟩, row.userId, row.role⟩) t := by
  have hlook : Service.exec (lookupUnder sha256 faults presentedToken) t = (.ok row, t) := by
    rw [exec_lookupUnder, if_neg hrow.nonempty, hrow.answered, hrow.found]
  cases hb : rotateBranch now row with
  | reject => simp [rotateUnder, hlook, hb]
  | exchange =>
      simp only [rotateUnder, Service.exec_bind, hlook, hb]
      rfl
  | reuse => simp only [rotateUnder, revokeThenThrow, Service.exec_bind, hlook, hb]

/-- A call that runs alone exchanges, throws, or detects a reuse, and no row of another
principal than the presented token's is added, changed or removed. A live token is exchanged
unless a statement fails or the hash is taken, a rotated one is detected unless a statement
fails, and in every other case the call throws and the rows are as they were. -/
theorem rotate_effect (sha256 : String → String) (ttlSeconds : Nat) (faults : Faults)
    (now : Instant) (newToken presentedToken : String) (t : TokenTable) :
    let out := Service.exec (rotateUnder sha256 ttlSeconds faults now newToken presentedToken) t
    (Exchanged sha256 ttlSeconds now newToken presentedToken t out ∨ Unchanged t out ∨
      ReuseDetected sha256 now presentedToken t out) ∧
    (∀ userId role, (∀ row, findByToken sha256 t.rows presentedToken = some row →
        ¬ (row.userId = userId ∧ row.role = role)) →
      ofPrincipal userId role out.2.rows = ofPrincipal userId role t.rows) ∧
    (t.Keyed → Exchanges sha256 faults now newToken presentedToken t →
      Exchanged sha256 ttlSeconds now newToken presentedToken t out) ∧
    (FindsRotated sha256 faults presentedToken t →
      ReuseDetected sha256 now presentedToken t out) ∧
    (¬ Exchanges sha256 faults now newToken presentedToken t →
      ¬ FindsRotated sha256 faults presentedToken t → Unchanged t out) := by
  intro out
  suffices hall :
      (Exchanged sha256 ttlSeconds now newToken presentedToken t out ∨ Unchanged t out ∨
        ReuseDetected sha256 now presentedToken t out) ∧
      (t.Keyed → Exchanges sha256 faults now newToken presentedToken t →
        Exchanged sha256 ttlSeconds now newToken presentedToken t out) ∧
      (FindsRotated sha256 faults presentedToken t →
        ReuseDetected sha256 now presentedToken t out) ∧
      (¬ Exchanges sha256 faults now newToken presentedToken t →
        ¬ FindsRotated sha256 faults presentedToken t → Unchanged t out) by
    refine ⟨hall.1, fun userId role hother => ?_, hall.2⟩
    rcases hall.1 with h | h | h
    · exact h.ofPrincipal hother
    · exact h.ofPrincipal userId role
    · exact h.ofPrincipal hother
  rcases lookupUnder_cases sha256 faults presentedToken t with ⟨_, hnone⟩ | ⟨row, hrow, _⟩
  · have hout : Unchanged t out := exec_rotateUnder_of_not_found hnone
    exact ⟨Or.inr (Or.inl hout), fun _ ⟨row, h, _⟩ => (hnone row h).elim,
      fun ⟨row, h, _⟩ => (hnone row h).elim, fun _ _ => hout⟩
  · have hexec : out = _ := exec_rotateUnder_of_found hrow
    rw [exchanges_iff hrow, findsRotated_iff now hrow]
    cases hb : rotateBranch now row with
    | reject =>
        rw [hb] at hexec
        have hout : Unchanged t out := .of_eq hexec
        simp [hout]
    | exchange =>
        rw [hb] at hexec
        obtain ⟨hends, hdone, hthrown⟩ := outcome_of_exchange ttlSeconds faults newToken
          hrow.found hb
        rw [hexec]
        exact ⟨hends.imp_right Or.inl, fun hkeyed h => hdone hkeyed h.2, by simp,
          fun hcannot _ => hthrown fun hcan => hcannot ⟨rfl, hcan⟩⟩
    | reuse =>
        rw [hb] at hexec
        obtain ⟨hdone, hthrown⟩ := outcome_of_reuse faults hrow.found hb
        rw [hexec]
        refine ⟨?_, by simp, fun h => hdone h.2, fun _ h => hthrown fun hfault => h ⟨rfl, hfault⟩⟩
        by_cases hfault : faults .revokeAllForUser = none
        · exact Or.inr (Or.inr (hdone hfault))
        · exact Or.inr (Or.inl (hthrown hfault))

/-- As long as the drawn token is new, this is the `rotate` of the other modules. -/
theorem exec_rotateUnder_of_no_faults
    (hnew : ∀ r ∈ t.rows, r.tokenHash ≠ sha256 newToken) :
    Service.exec (rotateUnder sha256 ttlSeconds (fun _ => none) now newToken presentedToken) t =
      Service.exec (rotate sha256 ttlSeconds now newToken presentedToken) t := by
  have htaken : (t.rows.any fun r => r.tokenHash == sha256 newToken) = false := by
    simpa using hnew
  by_cases hempty : presentedToken.length = 0
  · simp [rotateUnder, rotate, lookup, exec_lookupUnder, hempty]
  · cases hfind : findByToken sha256 t.rows presentedToken with
    | none => simp [rotateUnder, rotate, lookup, exec_lookupUnder, hempty, hfind]
    | some row =>
        have hlook : Service.exec (lookupUnder sha256 (fun _ => none) presentedToken) t =
            Service.exec (lookup sha256 presentedToken) t := by
          simp [exec_lookupUnder, lookup, hempty, hfind]
        have hlookup : Service.exec (lookup sha256 presentedToken) t = (.ok row, t) := by
          simp [lookup, hempty, hfind]
        cases hb : rotateBranch now row with
        | reject => simp [rotateUnder, rotate, hlook, hlookup, hb]
        | reuse => simp [rotateUnder, rotate, hlook, hlookup, hb]
        | exchange =>
            have hsave : Service.exec
                (saveUnique (successor sha256 ttlSeconds now newToken row)) t =
                Service.exec (save (successor sha256 ttlSeconds now newToken row)) t := by
              rw [exec_saveUnique, successor, htaken]
              rfl
            by_cases hone : (replaceStmt row.id t.nextId now).affected (t.rows ++
                [(successor sha256 ttlSeconds now newToken row).row t.nextId]) = 1 <;>
              simp [rotateUnder, rotate, hlook, hlookup, hb, exec_transaction, hsave, save, update,
                hone]

end NestStarter.RefreshTokens
