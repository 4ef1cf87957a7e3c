import Mathlib.Data.Set.Function
import NestStarter.RefreshTokens.Prune

/-! # What a sequential caller of `RefreshTokenService` gets

A store of sessions, keyed by the token a client holds: whose session it is, until
when, and whether the token may still be exchanged, has been exchanged, or has been
ended. The service over its table of digests answers every history of calls as
this store does, and its table looks up like it, as far as the tokens in use have
different digests.
-/

namespace NestStarter.RefreshTokens

open NestStarter.Core

inductive Status where
  | live
  | ended
  /-- Exchanged for another token. -/
  | rotated
  deriving DecidableEq, Repr

structure Session where
  userId : Nat
  role : Role
  expiresAt : Instant
  status : Status := .live
  deriving DecidableEq, Repr

abbrev Sessions := String → Option Session

def Session.end_ (x : Session) : Session :=
  if x.status = .live then { x with status := .ended } else x

namespace Sessions

def empty : Sessions := fun _ => none

def open_ (s : Sessions) (token : String) (x : Session) : Sessions :=
  Function.update s token (some x)

def endOne (s : Sessions) (token : String) : Sessions :=
  Function.update s token ((s token).map Session.end_)

def endAll (s : Sessions) (userId : Nat) (role : Role) : Sessions := fun token =>
  (s token).map fun x => if x.userId = userId ∧ x.role = role then x.end_ else x

def dropBefore (s : Sessions) (now : Instant) : Sessions := fun token =>
  (s token).filter fun x => ¬ x.expiresAt < now

/-- A live token is exchanged for a new one of the same principal; a token that was exchanged
before ends every session of its principal. -/
def rotate (s : Sessions) (ttlSeconds : Nat) (now : Instant) (newToken token : String) :
    Except HttpException RefreshTokenRotateResult × Sessions :=
  match if token.length = 0 then none else s token with
  | none => (.error invalid, s)
  | some x =>
      match x.status with
      | .rotated => (.error invalid, s.endAll x.userId x.role)
      | .ended => (.error invalid, s)
      | .live =>
          if x.expiresAt ≤ now then (.error invalid, s)
          else
            (.ok ⟨⟨newToken, newExpiry ttlSeconds now⟩, x.userId, x.role⟩,
              (s.open_ token { x with status := .rotated }).open_ newToken
                ⟨x.userId, x.role, newExpiry ttlSeconds now, .live⟩)

end Sessions

inductive Reply where
  | issued (r : RefreshTokenIssueResult)
  | rotated (r : RefreshTokenRotateResult)
  | done
  deriving DecidableEq, Repr

def Call.answer (sha256 : String → String) (ttlSeconds : Nat) (now : Instant) (newToken : String) :
    Call → TokenService Reply
  | .issue userId role token => do
      return .issued (← RefreshTokens.issue sha256 ttlSeconds now token userId role)
  | .rotate presentedToken => do
      return .rotated (← RefreshTokens.rotate sha256 ttlSeconds now newToken presentedToken)
  | .revoke presentedToken => do
      let _ ← RefreshTokens.revoke sha256 now presentedToken
      return .done
  | .revokeAllForUser userId role => do
      let _ ← RefreshTokens.revokeAllForUser now userId role
      return .done
  | .pruneExpiredTokens => do
      let _ ← RefreshTokens.pruneExpiredTokens now
      return .done

def Sessions.answer (s : Sessions) (ttlSeconds : Nat) (now : Instant) (newToken : String) :
    Call → Except HttpException Reply × Sessions
  | .issue userId role token =>
      (.ok (.issued ⟨token, newExpiry ttlSeconds now⟩),
        s.open_ token ⟨userId, role, newExpiry ttlSeconds now, .live⟩)
  | .rotate token =>
      let r := s.rotate ttlSeconds now newToken token
      (r.1.map Reply.rotated, r.2)
  | .revoke token => (.ok .done, s.endOne token)
  | .revokeAllForUser userId role => (.ok .done, s.endAll userId role)
  | .pruneExpiredTokens => (.ok .done, s.dropBefore now)

def Call.tokens (newToken : String) : Call → List String
  | .issue _ _ token => [token]
  | .rotate presentedToken => [presentedToken, newToken]
  | .revoke presentedToken => [presentedToken]
  | .revokeAllForUser .. | .pruneExpiredTokens => []

/-- A history of requests, made to the store. -/
def replay (ttlSeconds : Nat) : Sessions × Instant → List Request → Sessions × Instant
  | s, [] => s
  | s, req :: reqs =>
      let now := s.2 + req.delay
      replay ttlSeconds ((s.1.answer ttlSeconds now req.newToken req.call).2, now) reqs

/-- One result, and stores that agree on the tokens of `T`. -/
def Matches {α : Type} (T : Set String) (r r' : α × Sessions) : Prop :=
  r.1 = r'.1 ∧ Set.EqOn r.2 r'.2 T

namespace Sessions

variable {T : Set String} {s s' : Sessions} {token : String}

theorem open_congr (h : Set.EqOn s s' T) (token : String) (x : Session) :
    Set.EqOn (s.open_ token x) (s'.open_ token x) T := by
  intro token' htoken'
  simp only [open_, Function.update_apply]
  split
  · rfl
  · exact h htoken'

theorem endOne_congr (h : Set.EqOn s s' T) (htoken : token ∈ T) :
    Set.EqOn (s.endOne token) (s'.endOne token) T := by
  intro token' htoken'
  simp only [endOne, Function.update_apply, h htoken]
  split
  · rfl
  · exact h htoken'

theorem endAll_congr (h : Set.EqOn s s' T) (userId : Nat) (role : Role) :
    Set.EqOn (s.endAll userId role) (s'.endAll userId role) T := fun token htoken => by
  simp only [endAll, h htoken]

theorem dropBefore_congr (h : Set.EqOn s s' T) (now : Instant) :
    Set.EqOn (s.dropBefore now) (s'.dropBefore now) T := fun token htoken => by
  simp only [dropBefore, h htoken]

theorem rotate_congr (h : Set.EqOn s s' T) (htoken : token ∈ T) (ttlSeconds : Nat)
    (now : Instant) (newToken : String) :
    Matches T (s.rotate ttlSeconds now newToken token)
      (s'.rotate ttlSeconds now newToken token) := by
  unfold rotate
  rw [h htoken]
  split
  · exact ⟨rfl, h⟩
  · next x _ =>
    cases x.status with
    | rotated => exact ⟨rfl, endAll_congr h x.userId x.role⟩
    | ended => exact ⟨rfl, h⟩
    | live =>
      dsimp only
      split
      · exact ⟨rfl, h⟩
      · exact ⟨rfl, open_congr (open_congr h token _) newToken _⟩

theorem answer_congr (h : Set.EqOn s s' T) {k : Call} {newToken : String}
    (htokens : ∀ token ∈ k.tokens newToken, token ∈ T) (ttlSeconds : Nat) (now : Instant) :
    Matches T (s.answer ttlSeconds now newToken k) (s'.answer ttlSeconds now newToken k) := by
  cases k with
  | issue userId role token => exact ⟨rfl, open_congr h token _⟩
  | rotate token =>
    obtain ⟨hresult, hstore⟩ := rotate_congr h (htokens token (by simp [Call.tokens])) ttlSeconds
      now newToken
    exact ⟨congrArg (Except.map Reply.rotated) hresult, hstore⟩
  | revoke token => exact ⟨rfl, endOne_congr h (htokens token (by simp [Call.tokens]))⟩
  | revokeAllForUser userId role => exact ⟨rfl, endAll_congr h userId role⟩
  | pruneExpiredTokens => exact ⟨rfl, dropBefore_congr h now⟩

end Sessions

/-! ## The table as a store -/

def RefreshTokenEntity.status (r : RefreshTokenEntity) : Status :=
  if r.revokedAt.isNone then .live else if r.replacedById.isSome then .rotated else .ended

def RefreshTokenEntity.session (r : RefreshTokenEntity) : Session :=
  ⟨r.userId, r.role, r.expiresAt, r.status⟩

/-- The session a token is looked up as. -/
def TokenTable.sessions (sha256 : String → String) (t : TokenTable) : Sessions := fun token =>
  (findByToken sha256 t.rows token).map RefreshTokenEntity.session

variable {sha256 : String → String} {ttlSeconds : Nat} {now : Instant} {t : TokenTable}
  {s : Serial} {rows : List RefreshTokenEntity} {token : String} {T : Set String}

theorem findByToken_map {f : RefreshTokenEntity → RefreshTokenEntity}
    (hf : ∀ r, (f r).tokenHash = r.tokenHash) (rows : List RefreshTokenEntity) (token : String) :
    findByToken sha256 (rows.map f) token = (findByToken sha256 rows token).map f := by
  rw [findByToken, List.find?_map, findByToken]
  refine congrArg (Option.map f) (congrArg (List.find? · rows) ?_)
  funext r
  simp [hf]

/-- A new row is found under its own token; the others are found as before. -/
theorem findByToken_append (hinj : Set.InjOn sha256 T) {n : RefreshTokenEntity}
    (hn : n.tokenHash = sha256 token) (htoken : token ∈ T)
    (hfresh : ∀ r ∈ rows, r.tokenHash ≠ sha256 token) {token' : String} (htoken' : token' ∈ T) :
    findByToken sha256 (rows ++ [n]) token' =
      Function.update (findByToken sha256 rows) token (some n) token' := by
  by_cases hsame : token' = token
  · subst hsame
    have hnone : rows.find? (fun r => r.tokenHash == sha256 token') = none :=
      List.find?_eq_none.2 fun r hr => by simpa using hfresh r hr
    simp [findByToken, List.find?_append, hnone, hn]
  · have hne : sha256 token ≠ sha256 token' := fun h => hsame (hinj htoken htoken' h).symm
    simp [findByToken, List.find?_append, hn, hne, Function.update_of_ne hsame]

theorem sessions_append (nextId : Nat) (hinj : Set.InjOn sha256 T) {n : RefreshTokenEntity}
    (hn : n.tokenHash = sha256 token) (htoken : token ∈ T)
    (hfresh : ∀ r ∈ t.rows, r.tokenHash ≠ sha256 token) :
    Set.EqOn (TokenTable.sessions sha256 ⟨t.rows ++ [n], nextId⟩)
      ((t.sessions sha256).open_ token n.session) T := by
  intro token' htoken'
  rw [TokenTable.sessions, findByToken_append hinj hn htoken hfresh htoken', Sessions.open_]
  by_cases hsame : token' = token
  · subst hsame
    simp
  · simp [Function.update_of_ne hsame, TokenTable.sessions]

theorem sessions_map {f : RefreshTokenEntity → RefreshTokenEntity} {nextId : Nat}
    (hf : ∀ r, (f r).tokenHash = r.tokenHash) (token : String) :
    TokenTable.sessions sha256 ⟨rows.map f, nextId⟩ token =
      (findByToken sha256 rows token).map fun r => (f r).session := by
  rw [TokenTable.sessions, findByToken_map hf, Option.map_map]
  rfl

theorem session_end (r : RefreshTokenEntity) (hlive : r.revokedAt = none)
    (hunreplaced : r.replacedById = none) :
    RefreshTokenEntity.session { r with revokedAt := some now } = r.session.end_ := by
  simp [RefreshTokenEntity.session, RefreshTokenEntity.status, Session.end_, hlive, hunreplaced]

theorem session_end_of_revoked (r : RefreshTokenEntity) (hrevoked : r.revokedAt ≠ none) :
    r.session.end_ = r.session := by
  have hsome : r.revokedAt.isNone = false := by
    simpa [Option.isSome_iff_ne_none] using hrevoked
  unfold Session.end_ RefreshTokenEntity.session RefreshTokenEntity.status
  rw [hsome]
  cases r.replacedById <;> simp

/-! ## One call -/

theorem Sound.hash_mem (h : Sound sha256 s) {r : RefreshTokenEntity} (hr : r ∈ s.table.rows) :
    r.tokenHash ∈ s.digests := by
  obtain ⟨p, hp, hfollows⟩ := h
  rw [← hfollows.table] at hr
  exact hfollows.minted r.minted (hp.shared.recorded r hr)

theorem Sound.unreplaced (h : Sound sha256 s) {r : RefreshTokenEntity} (hr : r ∈ s.table.rows)
    (hlive : r.revokedAt = none) : r.replacedById = none := by
  cases hreplaced : r.replacedById with
  | none => rfl
  | some k =>
      have hrevoked := h.replaced hr (by simp [hreplaced])
      simp [hlive] at hrevoked

theorem Sound.ne_of_token (h : Sound sha256 s) {token' : String} {r row : RefreshTokenEntity}
    (hinj : Set.InjOn sha256 T) (htoken : token ∈ T) (htoken' : token' ∈ T) (hne : token' ≠ token)
    (hrow : findByToken sha256 s.table.rows token = some row)
    (hr : findByToken sha256 s.table.rows token' = some r) : r.id ≠ row.id := by
  intro hid
  obtain ⟨hmem, hhash⟩ := h.findByToken_eq_some.1 hrow
  obtain ⟨hmem', hhash'⟩ := h.findByToken_eq_some.1 hr
  have hsame := h.eq_of_id hmem' hmem hid
  rw [hsame] at hhash'
  exact hne (hinj htoken' htoken (hhash'.symm.trans hhash))

theorem Sound.sessions_revokeRow (h : Sound sha256 s) (hinj : Set.InjOn sha256 T)
    (htoken : token ∈ T) {row : RefreshTokenEntity}
    (hrow : findByToken sha256 s.table.rows token = some row) (now : Instant) :
    Set.EqOn
      (TokenTable.sessions sha256 { s.table with rows := s.table.rows.map (revokeRow row now) })
      ((s.table.sessions sha256).endOne token) T := by
  have hhash : ∀ r, (revokeRow row now r).tokenHash = r.tokenHash := by
    intro r
    unfold revokeRow
    split <;> rfl
  intro token' htoken'
  rw [sessions_map hhash, Sessions.endOne]
  by_cases hsame : token' = token
  · subst hsame
    obtain ⟨hmem, _⟩ := h.findByToken_eq_some.1 hrow
    have hend : (revokeRow row now row).session = row.session.end_ := by
      cases hrevoked : row.revokedAt with
      | none =>
          have hself : revokeRow row now row = { row with revokedAt := some now } := by
            simp [revokeRow, hrevoked]
          rw [hself, session_end row hrevoked (h.unreplaced hmem hrevoked)]
      | some at_ =>
          have hself : revokeRow row now row = row := by simp [revokeRow, hrevoked]
          rw [hself, session_end_of_revoked row (by simp [hrevoked])]
    simp [TokenTable.sessions, hrow, hend]
  · rw [Function.update_of_ne hsame]
    cases hr : findByToken sha256 s.table.rows token' with
    | none => simp [TokenTable.sessions, hr]
    | some r =>
        have hne := h.ne_of_token hinj htoken htoken' hsame hrow hr
        simp [TokenTable.sessions, hr, revokeRow_of_ne hne]

theorem session_revokeAllRow (userId : Nat) (role : Role) (now : Instant) {r : RefreshTokenEntity}
    (hunreplaced : r.revokedAt = none → r.replacedById = none) :
    (revokeAllRow userId role now r).session =
      if r.userId = userId ∧ r.role = role then r.session.end_ else r.session := by
  by_cases hprincipal : r.userId = userId ∧ r.role = role
  · rw [if_pos hprincipal]
    cases hrevoked : r.revokedAt with
    | none =>
        have hself : revokeAllRow userId role now r = { r with revokedAt := some now } := by
          simp [revokeAllRow, revokeAllForUserStmt, hprincipal.1, hprincipal.2, hrevoked]
        rw [hself, session_end r hrevoked (hunreplaced hrevoked)]
    | some at_ =>
        have hself : revokeAllRow userId role now r = r := by
          simp [revokeAllRow, revokeAllForUserStmt, hrevoked]
        rw [hself, session_end_of_revoked r (by simp [hrevoked])]
  · have hself : revokeAllRow userId role now r = r := by
      simp only [revokeAllRow, revokeAllForUserStmt, Bool.and_eq_true, beq_iff_eq]
      exact if_neg fun hsel => hprincipal hsel.1
    rw [if_neg hprincipal, hself]

theorem Sound.sessions_revokeAllRow (h : Sound sha256 s) (userId : Nat) (role : Role)
    (now : Instant) :
    TokenTable.sessions sha256
        { s.table with rows := s.table.rows.map (revokeAllRow userId role now) } =
      (s.table.sessions sha256).endAll userId role := by
  have hhash : ∀ r, (revokeAllRow userId role now r).tokenHash = r.tokenHash := by
    intro r
    unfold revokeAllRow
    split <;> rfl
  funext token
  rw [sessions_map hhash, Sessions.endAll, TokenTable.sessions, Option.map_map]
  cases hr : findByToken sha256 s.table.rows token with
  | none => rfl
  | some r =>
      obtain ⟨hmem, _⟩ := h.findByToken_eq_some.1 hr
      exact congrArg some (session_revokeAllRow userId role now (h.unreplaced hmem))

theorem Sound.sessions_filter (h : Sound sha256 s) (now : Instant) :
    TokenTable.sessions sha256
        { s.table with rows := s.table.rows.filter fun r => ¬ r.expiresAt < now } =
      (s.table.sessions sha256).dropBefore now := by
  funext token
  have hfind : findByToken sha256 (s.table.rows.filter fun r => ¬ r.expiresAt < now) token =
      (findByToken sha256 s.table.rows token).filter fun r => ¬ r.expiresAt < now := by
    cases hr : findByToken sha256 s.table.rows token with
    | none =>
        have hnone := List.find?_eq_none.1 hr
        exact List.find?_eq_none.2 fun r hmem => hnone r (List.mem_filter.1 hmem).1
    | some r =>
        obtain ⟨hmem, hhash⟩ := h.findByToken_eq_some.1 hr
        by_cases hkept : r.expiresAt < now
        · have hdrop : Option.filter (fun r => ¬ r.expiresAt < now) (some r) = none := by
            simp [Option.filter, hkept]
          rw [hdrop]
          refine List.find?_eq_none.2 fun r' hr' hhash' => ?_
          obtain ⟨hmem', hkept'⟩ := List.mem_filter.1 hr'
          have hsame : r' = r :=
            h.eq_of_hash hmem' hmem ((by simpa using hhash' : r'.tokenHash = _).trans hhash.symm)
          rw [hsame] at hkept'
          simp [hkept] at hkept'
        · have hkeep : Option.filter (fun r => ¬ r.expiresAt < now) (some r) = some r := by
            simp [Option.filter, hkept]
          rw [hkeep]
          have hr' : r ∈ s.table.rows.filter fun r => ¬ r.expiresAt < now :=
            List.mem_filter.2 ⟨hmem, by simpa using hkept⟩
          cases hfound : findByToken sha256 (s.table.rows.filter fun r => ¬ r.expiresAt < now)
              token with
          | none =>
              have hnone := List.find?_eq_none.1 hfound r hr'
              exact absurd hhash (by simpa using hnone)
          | some r'' =>
              have hmem'' := (List.mem_filter.1 (List.mem_of_find?_eq_some hfound)).1
              have hhash'' : r''.tokenHash = sha256 token := by
                simpa using List.find?_some hfound
              rw [h.eq_of_hash hmem'' hmem (hhash''.trans hhash.symm)]
  rw [TokenTable.sessions, hfind, Sessions.dropBefore, TokenTable.sessions]
  cases findByToken sha256 s.table.rows token with
  | none => rfl
  | some r => by_cases hkept : r.expiresAt < now <;>
      simp [Option.filter, hkept, RefreshTokenEntity.session]

theorem status_live {r : RefreshTokenEntity} : r.status = .live ↔ r.revokedAt = none := by
  unfold RefreshTokenEntity.status
  cases r.revokedAt <;> cases r.replacedById <;> simp

theorem status_rotated {r : RefreshTokenEntity} :
    r.status = .rotated ↔ r.revokedAt.isSome = true ∧ r.replacedById.isSome = true := by
  unfold RefreshTokenEntity.status
  cases r.revokedAt <;> cases r.replacedById <;> simp

/-- The exchange of a live row, in the table and in the store. -/
theorem Sound.sessions_exchange (h : Sound sha256 s) (hinj : Set.InjOn sha256 T)
    (htoken : token ∈ T) {row : RefreshTokenEntity}
    (hrow : findByToken sha256 s.table.rows token = some row) (hlive : row.revokedAt = none)
    {newToken : String} (hnewToken : newToken ∈ T) (hnew : sha256 newToken ∉ s.digests)
    (ttlSeconds : Nat) (now : Instant) :
    Set.EqOn
      (TokenTable.sessions sha256 ⟨(s.table.rows ++
        [(successor sha256 ttlSeconds now newToken row).row s.table.nextId]).map
          (replaceRow row.id s.table.nextId now), s.table.nextId + 1⟩)
      (((s.table.sessions sha256).open_ token { row.session with status := .rotated }).open_
        newToken ⟨row.userId, row.role, newExpiry ttlSeconds now, .live⟩) T := by
  obtain ⟨hmem, hhash⟩ := h.findByToken_eq_some.1 hrow
  have hkeep : ∀ r, (replaceRow row.id s.table.nextId now r).tokenHash = r.tokenHash := by
    intro r
    unfold replaceRow
    split <;> rfl
  have hfresh : ∀ r ∈ s.table.rows, r.tokenHash ≠ sha256 newToken := fun r hr he =>
    hnew (he ▸ h.hash_mem hr)
  intro token' htoken'
  rw [sessions_map hkeep, findByToken_append hinj rfl hnewToken hfresh htoken', Sessions.open_]
  by_cases hsame : token' = newToken
  · subst hsame
    have hid : ((successor sha256 ttlSeconds now token' row).row s.table.nextId).id ≠ row.id :=
      Nat.ne_of_gt (h.bound hmem)
    simp only [Function.update_self, Option.map_some]
    rw [replaceRow_of_ne hid]
    rfl
  · rw [Function.update_of_ne hsame, Function.update_of_ne hsame, Sessions.open_]
    by_cases hpresented : token' = token
    · subst hpresented
      rw [hrow, Option.map_some, replaceRow_self hlive, Function.update_self]
      rfl
    · rw [Function.update_of_ne hpresented, TokenTable.sessions]
      cases hr : findByToken sha256 s.table.rows token' with
      | none => rfl
      | some r =>
          have hid := h.ne_of_token hinj htoken htoken' hpresented hrow hr
          simp only [Option.map_some]
          rw [replaceRow_of_ne hid]

/-- `rotate` on the table is `rotate` on the store. -/
theorem Sound.rotate_refines (h : Sound sha256 s) (hinj : Set.InjOn sha256 T) (ttlSeconds : Nat)
    (now : Instant) {newToken : String} (hnewToken : newToken ∈ T)
    (hnew : sha256 newToken ∉ s.digests) (htoken : token ∈ T) :
    Matches T
      ((Service.exec (rotate sha256 ttlSeconds now newToken token) s.table).1,
        (Service.exec (rotate sha256 ttlSeconds now newToken token) s.table).2.sessions sha256)
      ((s.table.sessions sha256).rotate ttlSeconds now newToken token) := by
  by_cases hempty : token.length = 0
  · rw [exec_rotate_of_none (Or.inl hempty), Sessions.rotate, if_pos hempty]
    exact ⟨rfl, Set.eqOn_refl _ _⟩
  rw [Sessions.rotate, if_neg hempty]
  cases hrow : findByToken sha256 s.table.rows token with
  | none =>
      have hlookup : s.table.sessions sha256 token = none := by simp [TokenTable.sessions, hrow]
      rw [exec_rotate_of_none (Or.inr hrow), hlookup]
      exact ⟨rfl, Set.eqOn_refl _ _⟩
  | some row =>
      obtain ⟨hmem, _⟩ := h.findByToken_eq_some.1 hrow
      have hlookup : s.table.sessions sha256 token = some row.session := by
        simp [TokenTable.sessions, hrow]
      rw [hlookup]
      cases hb : rotateBranch now row with
      | reuse =>
          have hstatus : row.session.status = .rotated :=
            status_rotated.2 (rotateBranch_eq_reuse.1 hb)
          have htable := h.sessions_revokeAllRow row.userId row.role now
          rw [exec_rotate_of_reuse hempty hrow hb]
          simp only [hstatus, htable]
          exact ⟨rfl, Set.eqOn_refl _ _⟩
      | exchange =>
          obtain ⟨hlive, hopen⟩ := rotateBranch_eq_exchange.1 hb
          have hstatus : row.session.status = .live := status_live.2 hlive
          have hnot : ¬ row.session.expiresAt ≤ now := Int.not_le.2 hopen
          have hone := h.affected hmem hlive (successor sha256 ttlSeconds now newToken row) now
          rw [exec_rotate_of_exchange hempty hrow hb hone]
          simp only [hstatus, if_neg hnot]
          exact ⟨rfl, h.sessions_exchange hinj htoken hrow hlive hnewToken hnew ttlSeconds now⟩
      | reject =>
          rw [exec_rotate_of_reject hrow hb]
          cases hstatus : row.session.status with
          | rotated =>
              have hreuse : rotateBranch now row = .reuse :=
                rotateBranch_eq_reuse.2 (status_rotated.1 hstatus)
              rw [hreuse] at hb
              cases hb
          | ended =>
              simp only [hstatus]
              exact ⟨rfl, Set.eqOn_refl _ _⟩
          | live =>
              have hexpired : row.session.expiresAt ≤ now := by
                by_contra hopen
                have hexchange := rotateBranch_eq_exchange.2
                  ⟨status_live.1 hstatus, Int.not_le.1 hopen⟩
                rw [hexchange] at hb
                cases hb
              simp only [hstatus, if_pos hexpired]
              exact ⟨rfl, Set.eqOn_refl _ _⟩

def Request.reply (sha256 : String → String) (ttlSeconds : Nat) (s : Serial) (req : Request) :
    Except HttpException Reply :=
  (Service.exec (req.call.answer sha256 ttlSeconds (s.now + req.delay) req.newToken) s.table).1

/-- The answer is that of the service, and so is the table it leaves. -/
theorem exec_answer (k : Call) (newToken : String) :
    (Service.exec (k.answer sha256 ttlSeconds now newToken) t).2 =
      (Service.exec (k.service sha256 ttlSeconds now newToken) t).2 := by
  cases k <;> simp only [Call.answer, Call.service, Service.exec_bind_pure]

/-- Each call on the table is the call on the store. -/
theorem Sound.answer_refines (h : Sound sha256 s) (hinj : Set.InjOn sha256 T) (ttlSeconds : Nat)
    (now : Instant) (k : Call) (newToken : String)
    (htokens : ∀ token ∈ k.tokens newToken, token ∈ T)
    (hnew : ∀ token, k.drawn newToken = some token → sha256 token ∉ s.digests) :
    Matches T
      ((Service.exec (k.answer sha256 ttlSeconds now newToken) s.table).1,
        (Service.exec (k.answer sha256 ttlSeconds now newToken) s.table).2.sessions sha256)
      ((s.table.sessions sha256).answer ttlSeconds now newToken k) := by
  cases k with
  | issue userId role token =>
      have htoken : token ∈ T := htokens token (by simp [Call.tokens])
      have hfresh : ∀ r ∈ s.table.rows, r.tokenHash ≠ sha256 token := fun r hr he =>
        hnew token rfl (he ▸ h.hash_mem hr)
      simp only [Call.answer, Service.exec_bind_pure, exec_issue]
      exact ⟨rfl, sessions_append (s.table.nextId + 1) hinj
        (n := NewToken.row ⟨sha256 token, userId, role, newExpiry ttlSeconds now⟩ s.table.nextId)
        rfl htoken hfresh⟩
  | rotate token =>
      obtain ⟨hresult, htable⟩ := h.rotate_refines hinj ttlSeconds now
        (htokens newToken (by simp [Call.tokens])) (hnew newToken rfl)
        (htokens token (by simp [Call.tokens]))
      simp only [Call.answer, Service.exec_bind_pure, Sessions.answer]
      exact ⟨congrArg (Except.map Reply.rotated) hresult, htable⟩
  | revoke token =>
      have htoken : token ∈ T := htokens token (by simp [Call.tokens])
      cases hrow : findByToken sha256 s.table.rows token with
      | none =>
          have hlookup : s.table.sessions sha256 token = none := by
            simp [TokenTable.sessions, hrow]
          have hsame : (s.table.sessions sha256).endOne token = s.table.sessions sha256 := by
            rw [Sessions.endOne, hlookup, Option.map_none, ← hlookup, Function.update_eq_self]
          simp only [Call.answer, Service.exec_bind_pure, exec_revoke_of_none hrow,
            Sessions.answer, hsame]
          exact ⟨rfl, Set.eqOn_refl _ _⟩
      | some row =>
          simp only [Call.answer, Service.exec_bind_pure, exec_revoke hrow, Sessions.answer]
          exact ⟨rfl, h.sessions_revokeRow hinj htoken hrow now⟩
  | revokeAllForUser userId role =>
      have hmap := Stmt.apply_eq_map (q := revokeAllForUserStmt userId role now) (fun r => rfl)
        s.table.rows
      have htable := h.sessions_revokeAllRow userId role now
      simp only [Call.answer, Service.exec_bind_pure, exec_revokeAllForUser, hmap, Sessions.answer]
      exact ⟨rfl, htable ▸ Set.eqOn_refl _ _⟩
  | pruneExpiredTokens =>
      have htable := h.sessions_filter now
      have hexec : Service.exec (pruneExpiredTokens now) s.table =
          (.ok (), { s.table with rows := s.table.rows.filter fun r => ¬ r.expiresAt < now }) := by
        simp [pruneExpiredTokens, update, deleteExpiredBefore_apply]
      simp only [Call.answer, Service.exec_bind_pure, hexec, Sessions.answer, htable]
      exact ⟨rfl, Set.eqOn_refl _ _⟩

/-! ## Every history -/

theorem sound_initial (now : Instant) : Sound sha256 { now } :=
  have hstart : Reachable (RefreshTokens.step sha256 0) (initial now) (initial now) := ⟨[], rfl⟩
  ⟨initial now, chainInv_of_reachable hstart,
    ⟨rfl, rfl, nofun, ⟨⟨List.nodup_nil, nofun, nofun⟩, rfl⟩, fun _ => rfl⟩⟩

theorem drawn_fresh {digests : List String} {req : Request}
    (h : ∀ d ∈ req.digest sha256, d ∉ digests) (token : String)
    (htoken : req.call.drawn req.newToken = some token) : sha256 token ∉ digests :=
  h (sha256 token) (by simp [Request.digest, htoken])

def Request.tokens (req : Request) : List String := req.call.tokens req.newToken

theorem Sound.step_refines (h : Sound sha256 s) (hinj : Set.InjOn sha256 T) {req : Request}
    (htokens : ∀ token ∈ req.tokens, token ∈ T) {s' : Serial}
    (hs : s.step sha256 ttlSeconds req = some s') :
    s'.now = s.now + req.delay ∧ Set.EqOn (s'.table.sessions sha256)
      ((s.table.sessions sha256).answer ttlSeconds (s.now + req.delay) req.newToken req.call).2
      T := by
  by_cases hdigest : ∀ d ∈ req.digest sha256, d ∉ s.digests
  · rw [Serial.step, if_pos hdigest, Option.some.injEq] at hs
    subst hs
    have hanswer := h.answer_refines hinj ttlSeconds (s.now + req.delay) req.call
      req.newToken htokens (drawn_fresh hdigest)
    refine ⟨rfl, ?_⟩
    rw [← exec_answer]
    exact hanswer.2
  · rw [Serial.step, if_neg hdigest] at hs
    cases hs

/-- A table that looks up like a store still does after a history on both. -/
theorem Sound.run_refines (h : Sound sha256 s) (hinj : Set.InjOn sha256 T) {x : Sessions}
    (hstore : Set.EqOn (s.table.sessions sha256) x T) {reqs : List Request}
    (htokens : ∀ req ∈ reqs, ∀ token ∈ req.tokens, token ∈ T) {s' : Serial}
    (hrun : run (Serial.step sha256 ttlSeconds) s reqs = some s') :
    Sound sha256 s' ∧ s'.now = (replay ttlSeconds (x, s.now) reqs).2 ∧
      Set.EqOn (s'.table.sessions sha256) (replay ttlSeconds (x, s.now) reqs).1 T := by
  induction reqs generalizing s x with
  | nil =>
      cases hrun
      exact ⟨h, rfl, hstore⟩
  | cons req reqs ih =>
      obtain ⟨s₁, hs₁, hrest⟩ := run_cons_eq_some.1 hrun
      have hreq : ∀ token ∈ req.tokens, token ∈ T := htokens req List.mem_cons_self
      obtain ⟨hnow, hsessions⟩ := h.step_refines hinj hreq hs₁
      have hanswer := Sessions.answer_congr hstore hreq ttlSeconds (s.now + req.delay)
      have hnext := ih (h.step hs₁) (hsessions.trans hanswer.2)
        (fun req' hreq' => htokens req' (List.mem_cons_of_mem _ hreq')) hrest
      rw [hnow] at hnext
      exact hnext

/-- Where no two of the tokens in use have one digest: after every history of calls each of them is
looked up as the session the store has for it, and the next call is answered as the store answers
it. -/
theorem service_refines_sessions (sha256 : String → String) {T : Set String}
    (hinj : Set.InjOn sha256 T) (ttlSeconds : Nat) (start : Instant) (reqs : List Request)
    (htokens : ∀ req ∈ reqs, ∀ token ∈ req.tokens, token ∈ T) (s : Serial)
    (hrun : run (Serial.step sha256 ttlSeconds) { now := start } reqs = some s) :
    s.now = (replay ttlSeconds (Sessions.empty, start) reqs).2 ∧
      Set.EqOn (s.table.sessions sha256) (replay ttlSeconds (Sessions.empty, start) reqs).1 T ∧
      ∀ req : Request, (∀ token ∈ req.tokens, token ∈ T) →
        (∀ d ∈ req.digest sha256, d ∉ s.digests) →
          req.reply sha256 ttlSeconds s =
            ((replay ttlSeconds (Sessions.empty, start) reqs).1.answer ttlSeconds
              (s.now + req.delay) req.newToken req.call).1 := by
  obtain ⟨hsound, hnow, hstore⟩ := (sound_initial start).run_refines hinj
    (x := Sessions.empty) (fun _ _ => rfl) htokens hrun
  refine ⟨hnow, hstore, fun req hreq hdigest => ?_⟩
  have hanswer := hsound.answer_refines hinj ttlSeconds (s.now + req.delay)
    req.call req.newToken hreq (drawn_fresh hdigest)
  exact hanswer.1.trans (Sessions.answer_congr hstore hreq ttlSeconds (s.now + req.delay)).1

def refreshedLogin : List Request :=
  [⟨0, .issue 7 .user "a", ""⟩, ⟨1000, .rotate "a", "b"⟩, ⟨1000, .revoke "b", ""⟩]

def digestSample (token : String) : String :=
  if token = "a" then "ca978112ca1bbdcafac231b39a23dc4da786eff8147c4e72b9807785afee48bb"
  else if token = "b" then "3e23e8160039594a33894f6564e1b1348bbd7a0088d42c4acb73eeaed59c009d"
  else if token = "c" then "2e7d2c03a9507ae265ecf5b5356885a53393a2029d241394997265a1a25aefc6"
  else "e3b0c44298fc1c149afbf4c8996fb92427ae41e4649b934ca495991b7852b855"

theorem refines_refreshedLogin :
    ∃ s, run (Serial.step digestSample 60) { now := 0 } refreshedLogin = some s ∧
      s.table.sessions digestSample "a" = some ⟨7, .user, 60000, .rotated⟩ ∧
      Request.reply digestSample 60 s ⟨1000, .rotate "b", "c"⟩ = .error invalid := by
  have hrun : (run (Serial.step digestSample 60) { now := 0 } refreshedLogin).any (fun s =>
      decide (s.now = 2000 ∧ s.digests = [digestSample "b", digestSample "a"])) = true := by
    decide +kernel
  simp only [Option.any_eq_true, decide_eq_true_eq] at hrun
  obtain ⟨s, hs, hnow, hdigests⟩ := hrun
  have hinj : Set.InjOn digestSample {token | token ∈ ["a", "b", "c"]} :=
    fun _ htoken _ htoken' h =>
      List.inj_on_of_nodup_map (l := ["a", "b", "c"]) (by decide) htoken htoken' h
  obtain ⟨-, hsessions, hreply⟩ :=
    service_refines_sessions digestSample hinj 60 0 refreshedLogin (by decide) s hs
  have hfresh : ∀ d ∈ Request.digest digestSample ⟨1000, .rotate "b", "c"⟩, d ∉ s.digests := by
    rw [hdigests]
    decide
  refine ⟨s, hs, ?_, ?_⟩
  · rw [hsessions (show "a" ∈ ["a", "b", "c"] by decide)]
    decide +kernel
  · rw [hreply _ (by decide) hfresh, hnow]
    decide +kernel

end NestStarter.RefreshTokens
