import NestStarter.RefreshTokens.Chain

/-! # Revoking every session of a principal

`revokeAllForUser` is one `UPDATE`. It covers the rows that were committed when it
started; a rotation that already holds a lock on one of them adds a row it never
visits. So the sweep leaves nothing alive exactly as long as no rotation of the
principal commits while the sweep is under way, and any other interleaving with
rotations, revocations and pruning is harmless.
-/

namespace NestStarter.RefreshTokens

open NestStarter.Core

variable {sha256 : String → String} {ttlSeconds : Nat} {userId c : Nat} {role : Role}
  {lo : Local}

/-- An exchangeable row of the principal, but for its expiry. -/
def Live (userId : Nat) (role : Role) (r : RefreshTokenEntity) : Prop :=
  r.userId = userId ∧ r.role = role ∧ r.revokedAt = none

def Issuing (userId : Nat) (role : Role) (lo : Local) : Prop :=
  match lo.pc with
  | .insert n => n.userId = userId ∧ n.role = role
  | _ => False

/-- A client has called `revokeAllForUser`, directly or through the reuse detection
of `rotate`, and awaits its statement. -/
def Invoked (userId : Nat) (role : Role) (lo : Local) : Prop :=
  match lo.pc with
  | .update (.revokeAllForUser u r _) .commit => u = userId ∧ r = role
  | _ => False

/-- The sweep has taken its candidates and not ended. -/
def Sweeping (userId : Nat) (role : Role) (lo : Local) : Prop :=
  match lo.pc with
  | .scan (.revokeAllForUser u r _) _ .commit => u = userId ∧ r = role
  | _ => False

/-- The next `finish` of this client commits a rotation of the principal. -/
def Rotating (userId : Nat) (role : Role) (lo : Local) : Prop :=
  match lo.pc with
  | .scan _ [] (.commitIfOne _ _ _) =>
      lo.txn.writes.length = 1 ∧ ∃ r ∈ lo.txn.inserted, r.userId = userId ∧ r.role = role
  | _ => False

/-- Client `c`'s sweep is not under way, or this step does not commit a rotation. -/
def Undisturbed (userId : Nat) (role : Role) (c : Nat) (s : State) (a : Nat × Action) : Prop :=
  Sweeping userId role (s.client c) → ¬ (a.2 = .finish ∧ Rotating userId role (s.client a.1))

instance (r : RefreshTokenEntity) : Decidable (Live userId role r) := by
  unfold Live; infer_instance

instance : Decidable (Issuing userId role lo) := by unfold Issuing; split <;> infer_instance

instance : Decidable (Invoked userId role lo) := by unfold Invoked; split <;> infer_instance

instance : Decidable (Sweeping userId role lo) := by unfold Sweeping; split <;> infer_instance

instance : Decidable (Rotating userId role lo) := by unfold Rotating; split <;> infer_instance

instance (s : State) (a : Nat × Action) : Decidable (Undisturbed userId role c s a) := by
  unfold Undisturbed; infer_instance

theorem Live.selects {r : RefreshTokenEntity} (h : Live userId role r) {at_ : Instant} :
    (StmtName.revokeAllForUser userId role at_).stmt.selects r = true := by
  simp [StmtName.stmt, revokeAllForUserStmt, h.1, h.2.1, h.2.2]

/-- A live row after a step was there before, or an `issue` or a rotation of the
principal has just committed it; the rotation spent a live row for it. -/
theorem Moves.live {sh sh' : Shared} {lo' : Local} {a : Action}
    (hm : Moves sha256 ttlSeconds c sh lo a sh' lo') (h : ChainOk sha256 sh)
    (hc : PcOk sha256 c sh lo) {r : RefreshTokenEntity} (hr : r ∈ sh'.db.rows)
    (hlive : Live userId role r) :
    r ∈ sh.db.rows ∨ Issuing userId role lo ∨
      (a = .finish ∧ Rotating userId role lo ∧ ∃ r₀ ∈ sh.db.rows, Live userId role r₀) := by
  cases hm with
  | tick => exact Or.inl hr
  | call txn k => exact Or.inl hr
  | insert txn n hn =>
      rcases List.mem_append.1 hr with hr | hr
      · exact Or.inl hr
      · rw [List.mem_singleton.1 hr] at hlive
        exact Or.inr (Or.inl ⟨hlive.1, hlive.2.1⟩)
  | find txn rotating tok => exact Or.inl hr
  | replaceInsert txn tok row n now hn => exact Or.inl hr
  | resume txn rotating tok newToken row => exact Or.inl hr
  | start txn q next => exact Or.inl hr
  | visit txn txn' db q todo next k hk hv => exact Or.inl ((Db.visit_rows hv).1 ▸ hr)
  | commit txn q =>
      have hq : StmtOk sha256 c sh txn q .commit := hc
      rcases hq.mem_commit h.db hr with ⟨hr, _⟩ | ⟨r₀, _, hw⟩
      · exact Or.inl hr
      · exact absurd hlive.2.2 (StmtName.revokedAt_write hw)
  | exchange txn q tok oldId newId hone =>
      obtain ⟨now, r₀, hr₀, rfl, hr₀id, hr₀rev, hwrites⟩ := StmtOk.locked hc hone
      rcases StmtOk.mem_exchange hc h.db hr₀ hr₀id hwrites hr with ⟨hr, _⟩ | rfl | hr
      · exact Or.inl hr
      · exact absurd hlive.2.2 (by simp)
      · refine Or.inr (Or.inr ⟨rfl, ⟨hone, r, hr, hlive.1, hlive.2.1⟩, r₀, hr₀, ?_⟩)
        obtain ⟨_,
          ⟨n, (hins : txn.inserted = [n.row newId]), _, _, m, hm, hmid, _, huser, hrole, _⟩,
          _⟩ := hc
        rw [hins, List.mem_singleton] at hr
        have hmr : m = r₀.minted := h.minted_eq hm (h.recorded r₀ hr₀) (hmid.trans hr₀id.symm)
        subst hr hmr
        exact ⟨huser.symm.trans hlive.1, hrole.symm.trans hlive.2.1, hr₀rev⟩
  | rollback txn q tok oldId newId hone => exact Or.inl hr

theorem Moves.issuing {sh sh' : Shared} {lo' : Local} {a : Action}
    (hm : Moves sha256 ttlSeconds c sh lo a sh' lo') (h : Issuing userId role lo') :
    Issuing userId role lo ∨ ∃ token, a = .call (.issue userId role token) := by
  cases hm with
  | tick => exact Or.inl h
  | call txn k =>
      cases k with
      | issue u r token =>
          obtain ⟨rfl, rfl⟩ : u = userId ∧ r = role := h
          exact Or.inr ⟨token, rfl⟩
      | rotate tok =>
          by_cases hempty : tok.length = 0 <;> simp [begin, hempty, Issuing] at h
      | revoke tok => cases h
      | revokeAllForUser u r => cases h
      | pruneExpiredTokens => cases h
  | resume txn rotating tok newToken row =>
      cases row with
      | none => cases rotating <;> cases h
      | some r =>
          cases rotating with
          | false => by_cases hrev : r.revokedAt.isSome <;> simp [afterFind, hrev, Issuing] at h
          | true => cases hb : rotateBranch sh.now r <;> simp [afterFind, hb, Issuing] at h
  | insert txn n hn => cases h
  | find txn rotating tok => cases h
  | replaceInsert txn tok row n now hn => cases h
  | start txn q next => cases h
  | visit txn txn' db q todo next k hk hv => cases h
  | commit txn q => cases h
  | exchange txn q tok oldId newId hone => cases h
  | rollback txn q tok oldId newId hone => cases h

/-! ## The sweep -/

/-- What client `c`'s sweep guarantees, from the call on. -/
inductive Phase (userId : Nat) (role : Role) (sh : Shared) (lo : Local) : Prop where
  | waiting (at_ : Instant) (hpc : lo.pc = .update (.revokeAllForUser userId role at_) .commit)
  /-- Every live row is still to be visited, or locked. -/
  | scanning (at_ : Instant) (todo : List Nat)
      (hpc : lo.pc = .scan (.revokeAllForUser userId role at_) todo .commit)
      (hcov : ∀ r ∈ sh.db.rows, Live userId role r →
        r.id ∈ todo ∨ r.id ∈ lo.txn.writes.map Prod.fst)
  | swept (h : ∀ r ∈ sh.db.rows, ¬ Live userId role r)

theorem Moves.phase {sh sh' : Shared} {lo' : Local} {a : Action}
    (hm : Moves sha256 ttlSeconds c sh lo a sh' lo') (h : ChainOk sha256 sh)
    (hc : PcOk sha256 c sh lo) (hissue : ¬ Issuing userId role lo)
    (hp : Phase userId role sh lo) : Phase userId role sh' lo' := by
  cases hp with
  | waiting at_ hpc =>
      obtain ⟨_, txn⟩ := lo
      subst hpc
      cases hm with
      | tick => exact .waiting at_ rfl
      | start =>
          exact .scanning at_ _ rfl fun r hr hlive =>
            Or.inl (Db.mem_candidates txn hr hlive.selects)
  | scanning at_ todo hpc hcov =>
      obtain ⟨_, txn⟩ := lo
      subst hpc
      cases hm with
      | tick => exact .scanning at_ todo rfl hcov
      | visit _ txn' db _ _ _ k hk hv =>
          refine .scanning at_ _ rfl fun r hr hlive => ?_
          have hrow : r ∈ sh.db.rows := (Db.visit_rows hv).1 ▸ hr
          exact Db.visit_pending hv hrow hlive.selects (hcov r hrow hlive)
      | commit =>
          refine .swept fun r hr hlive => ?_
          have hq : StmtOk sha256 c sh txn (.revokeAllForUser userId role at_) .commit := hc
          rcases hq.mem_commit h.db hr with ⟨hr, hfree⟩ | ⟨r₀, _, hw⟩
          · rcases hcov r hr hlive with hid | hid
            · cases hid
            · exact hfree hid
          · exact StmtName.revokedAt_write hw hlive.2.2
  | swept hnone =>
      refine .swept fun r hr hlive => ?_
      rcases hm.live h hc hr hlive with hr | hi | ⟨_, _, r₀, hr₀, hlive₀⟩
      · exact hnone r hr hlive
      · exact hissue hi
      · exact hnone r₀ hr₀ hlive₀

/-- The steps of the others, as long as none of them commits a rotation of the
principal in the middle of the sweep. -/
theorem Moves.phase_other {d : Nat} {sh sh' : Shared} {lo' loc : Local} {a : Action}
    (hm : Moves sha256 ttlSeconds d sh lo a sh' lo') (h : ChainOk sha256 sh)
    (hd : PcOk sha256 d sh lo) (hissue : ¬ Issuing userId role lo)
    (hC : Sweeping userId role loc → ¬ (a = .finish ∧ Rotating userId role lo))
    (hp : Phase userId role sh loc) : Phase userId role sh' loc := by
  cases hp with
  | waiting at_ hpc => exact .waiting at_ hpc
  | scanning at_ todo hpc hcov =>
      refine .scanning at_ todo hpc fun r hr hlive => ?_
      rcases hm.live h hd hr hlive with hr | hi | ⟨ha, hrot, _⟩
      · exact hcov r hr hlive
      · exact absurd hi hissue
      · exact absurd ⟨ha, hrot⟩ (hC (by simp [Sweeping, hpc]))
  | swept hnone =>
      refine .swept fun r hr hlive => ?_
      rcases hm.live h hd hr hlive with hr | hi | ⟨_, _, r₀, hr₀, hlive₀⟩
      · exact hnone r hr hlive
      · exact hissue hi
      · exact hnone r₀ hr₀ hlive₀

/-- The sweep of client `c`, among clients none of which is issuing. -/
structure SweepInv (sha256 : String → String) (userId : Nat) (role : Role) (c : Nat) (s : State) :
    Prop where
  chain : ChainInv sha256 s
  notIssuing : ∀ d, ¬ Issuing userId role (s.client d)
  phase : Phase userId role s.shared (s.client c)

theorem SweepInv.step {s s' : State} {a : Nat × Action} (h : SweepInv sha256 userId role c s)
    (hnew : ∀ token, a.2 ≠ .call (.issue userId role token))
    (hC : Undisturbed userId role c s a) (hs : step sha256 ttlSeconds s a = some s') :
    SweepInv sha256 userId role c s' := by
  refine ⟨h.chain.step hs, fun d hd => ?_, ?_⟩
  · obtain ⟨sh, lo, hm, rfl⟩ := Pool.step_spec hs
    by_cases hda : d = a.1
    · subst hda
      rcases (move_spec hm).issuing (by simpa using hd) with hi | ⟨token, ha⟩
      · exact h.notIssuing _ hi
      · exact hnew token ha
    · exact h.notIssuing d (by simpa [Function.update_of_ne hda] using hd)
  · obtain ⟨sh, lo, hm, rfl⟩ := Pool.step_spec hs
    by_cases hca : c = a.1
    · subst hca
      simpa using (move_spec hm).phase h.chain.shared (h.chain.client _) (h.notIssuing _) h.phase
    · simpa [Function.update_of_ne hca] using (move_spec hm).phase_other h.chain.shared
        (h.chain.client _) (h.notIssuing _) hC h.phase

/-- When the call has returned, no live row of the principal is left, whatever the
other clients did, unless a rotation committed in the middle of the sweep. -/
theorem not_live_of_revokeAllForUser (sha256 : String → String) (ttlSeconds : Nat) (now : Instant)
    (s s' : State) (acts : List (Nat × Action)) (c userId : Nat) (role : Role)
    (hs : Reachable (step sha256 ttlSeconds) (initial now) s)
    (hcall : Invoked userId role (s.client c))
    (hissuing : ∀ d, ¬ Issuing userId role (s.client d))
    (hnew : ∀ a ∈ acts, ∀ token, a.2 ≠ .call (.issue userId role token))
    (hundisturbed : Along (step sha256 ttlSeconds) (Undisturbed userId role c) s acts)
    (hrun : run (step sha256 ttlSeconds) s acts = some s')
    (hreturned : (s'.client c).pc = .idle) :
    ∀ r ∈ s'.shared.db.rows, ¬ Live userId role r := by
  have hwait : Phase userId role s.shared (s.client c) := by
    unfold Invoked at hcall
    split at hcall
    · rename_i u r at_ hpc
      obtain ⟨rfl, rfl⟩ := hcall
      exact .waiting at_ hpc
    · exact hcall.elim
  have hinv : SweepInv sha256 userId role c s' :=
    run_inv (fun _ _ _ hinv hC he => hinv.step hC.1 hC.2 he)
      ⟨chainInv_of_reachable hs, hissuing, hwait⟩
      ((along_of_forall_mem hnew s).and hundisturbed) hrun
  cases hinv.phase with
  | waiting at_ hpc => simp [hpc] at hreturned
  | scanning at_ todo hpc => simp [hpc] at hreturned
  | swept hnone => exact hnone

/-- A rotation has locked the only row of user 7, and then the sweep is called. -/
def lockedRotation : List (Nat × Action) :=
  [(0, .call (.issue 7 .user "a")), (0, .exec), (1, .call (.rotate "a")), (1, .exec),
    (1, .resume "b"), (1, .exec), (1, .start), (1, .visit 1),
    (2, .call (.revokeAllForUser 7 .user))]

def sweepDuringRotation : List (Nat × Action) :=
  [(2, .start), (1, .finish), (2, .visit 1), (2, .finish)]

def sweepAfterRotation : List (Nat × Action) :=
  [(1, .finish), (2, .start), (2, .visit 2), (2, .finish)]

/-- Both calls have returned, and the row the rotation inserted is alive. -/
theorem live_after_sweepDuringRotation :
    ∃ s s', run (step sha256Sample 60) (initial 0) lockedRotation = some s ∧
      Invoked 7 .user (s.client 2) ∧ (∀ d, ¬ Issuing 7 .user (s.client d)) ∧
      run (step sha256Sample 60) s sweepDuringRotation = some s' ∧
      (∀ d, (s'.client d).pc = .idle) ∧ ∃ r ∈ s'.shared.db.rows, Live 7 .user r := by
  have hrun : (run (step sha256Sample 60) (initial 0) lockedRotation).any (fun s =>
      decide (Invoked 7 .user (s.client 2) ∧ ∀ d : Nat, d < 3 → ¬ Issuing 7 .user (s.client d)) &&
      (run (step sha256Sample 60) s sweepDuringRotation).any fun s' =>
        decide ((∀ d : Nat, d < 3 → (s'.client d).pc = .idle) ∧
          ∃ r ∈ s'.shared.db.rows, Live 7 .user r)) = true := by
    decide
  simp only [Option.any_eq_true, Bool.and_eq_true, decide_eq_true_eq] at hrun
  obtain ⟨s, hs, ⟨hinv, hissuing⟩, s', hs', hidle, hlive⟩ := hrun
  have hstay : ∀ d, ¬ Issuing 7 .user (s.client d) :=
    Pool.forall_client hs (fun lo => ¬ Issuing 7 .user lo) 3 (fun _ h => h) (by decide) hissuing
  have hreturned : ∀ d, (s'.client d).pc = .idle :=
    Pool.forall_client (run_append_of_eq hs ▸ hs') (fun lo => lo.pc = .idle) 3 (fun _ => rfl)
      (by decide) hidle
  exact ⟨s, s', hs, hinv, hstay, hs', hreturned, hlive⟩

theorem not_live_after_sweepAfterRotation :
    ∃ s s', run (step sha256Sample 60) (initial 0) lockedRotation = some s ∧
      run (step sha256Sample 60) s sweepAfterRotation = some s' ∧
      s'.shared.exchanges = [⟨"a", 1, 2⟩] ∧ ∀ r ∈ s'.shared.db.rows, ¬ Live 7 .user r := by
  have hrun : (run (step sha256Sample 60) (initial 0) lockedRotation).any (fun s =>
      decide (Invoked 7 .user (s.client 2) ∧ (∀ d : Nat, d < 3 → ¬ Issuing 7 .user (s.client d)) ∧
        Along (step sha256Sample 60) (Undisturbed 7 .user 2) s sweepAfterRotation) &&
      (run (step sha256Sample 60) s sweepAfterRotation).any fun s' =>
        decide ((s'.client 2).pc = .idle ∧ s'.shared.exchanges = [⟨"a", 1, 2⟩])) = true := by
    decide
  simp only [Option.any_eq_true, Bool.and_eq_true, decide_eq_true_eq] at hrun
  obtain ⟨s, hs, ⟨hinv, hissuing, hC⟩, s', hs', hidle, hex⟩ := hrun
  have hstay : ∀ d, ¬ Issuing 7 .user (s.client d) :=
    Pool.forall_client hs (fun lo => ¬ Issuing 7 .user lo) 3 (fun _ h => h) (by decide) hissuing
  have hnew : ∀ a ∈ sweepAfterRotation, ∀ token, a.2 ≠ .call (.issue 7 .user token) := by
    simp [sweepAfterRotation]
  exact ⟨s, s', hs, hs', hex, not_live_of_revokeAllForUser _ 60 0 s s' _ 2 7 .user
    ⟨lockedRotation, hs⟩ hinv hstay hnew hC hs' hidle⟩

end NestStarter.RefreshTokens
