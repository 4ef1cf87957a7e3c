import NestStarter.Otps.Contract
import NestStarter.Otps.IssueRate

/-! # What pruning may remove

`pruneStaleOtps` keeps rows as long as the longer of the two windows the service
counts over. Two more of its decisions read old rows: `verify` looks for a code that
has not expired, and the resend cooldown looks at the latest code. Where the windows
are at least as long as the lifetime and the cooldown, a service call cannot tell a
pruned table from the whole one; where they are not, some run can.
-/

namespace NestStarter.Otps

open NestStarter.Core
open OtpTable (Matches)

/-- A call, or a run of the nightly job. -/
inductive CronOp where
  | call (op : Op)
  | pruneStaleOtps
  deriving DecidableEq, Repr

def CronOp.isCall : CronOp → Bool
  | .call _ => true
  | .pruneStaleOtps => false

variable (cfg : OtpConfig) (sha256 : String → String)

def Sys.cronStep (s : Sys) : CronOp → Option Sys
  | .call op => s.step cfg sha256 op
  | .pruneStaleOtps =>
      some { s with table := (Service.exec (pruneStaleOtps cfg s.now) s.table).2 }

/-- The same calls give the same results without the nightly job. -/
def PruningUnnoticed : Prop :=
  ∀ (now₀ : Instant) (ops : List CronOp) (s : Sys),
    run (Sys.cronStep cfg sha256) (Sys.initial now₀) ops = some s →
      ∃ s', run (Sys.cronStep cfg sha256) (Sys.initial now₀) (ops.filter CronOp.isCall) = some s' ∧
        s'.log = s.log

/-- The retention covers the lifetime of a code and the resend cooldown. -/
def RetentionCovers : Prop :=
  cfg.ttlSeconds ≤ max cfg.phoneLockWindowSeconds cfg.issueWindowSeconds ∧
    cfg.cooldownSeconds ≤ max cfg.phoneLockWindowSeconds cfg.issueWindowSeconds

variable {cfg sha256}

theorem pruneBefore_le_lockSince (now : Instant) : pruneBefore cfg now ≤ lockSince cfg now := by
  have hle : (cfg.phoneLockWindowSeconds : Int) ≤
      (max cfg.phoneLockWindowSeconds cfg.issueWindowSeconds : Nat) := by
    omega
  exact Int.sub_le_sub_left (Int.mul_le_mul_of_nonneg_right hle (by decide)) now

/-- Old enough to be pruned, a code has outlived any shorter span of seconds. -/
theorem span_le_of_lt_pruneBefore {seconds : Nat}
    (h : seconds ≤ max cfg.phoneLockWindowSeconds cfg.issueWindowSeconds) {createdAt now : Int}
    (hlt : createdAt < pruneBefore cfg now) : seconds * 1000 ≤ now - createdAt := by
  unfold pruneBefore at hlt
  have hlt : createdAt <
      now - (max cfg.phoneLockWindowSeconds cfg.issueWindowSeconds : Nat) * 1000 := hlt
  omega

/-- What the rows of an unpruned table have in common. -/
structure Dated (cfg : OtpConfig) (now : Instant) (t : OtpTable) : Prop where
  ok : t.Ok
  sorted : t.rows.Pairwise fun r s => r.createdAt ≤ s.createdAt
  past : ∀ r ∈ t.rows, r.createdAt ≤ now
  expires : ∀ r ∈ t.rows, r.expiresAt = r.createdAt + cfg.ttlSeconds * 1000

namespace OtpTable

variable {t : OtpTable} {cut : Instant} {phone : String} {purpose : OtpPurpose} {now : Instant}

theorem sumFailedAttemptsSince_deleteCreatedBefore {since : Instant} (h : cut ≤ since) :
    (t.deleteCreatedBefore cut).sumFailedAttemptsSince phone purpose since =
      t.sumFailedAttemptsSince phone purpose since := by
  simp only [sumFailedAttemptsSince, deleteCreatedBefore, List.filter_filter]
  congr 2
  refine List.filter_congr fun r _ => ?_
  by_cases hsince : since ≤ r.createdAt
  · simp [Int.not_lt.2 (Int.le_trans h hsince)]
  · simp [hsince]

theorem update_deleteCreatedBefore {p : OtpEntity → Prop} [DecidablePred p]
    {f : OtpEntity → OtpEntity} (hf : ∀ r, (f r).createdAt = r.createdAt) :
    (t.deleteCreatedBefore cut).update p f = (t.update p f).deleteCreatedBefore cut := by
  simp only [update, deleteCreatedBefore, List.filter_map, OtpTable.mk.injEq, and_true]
  refine congrArg _ (List.filter_congr fun r _ => ?_)
  simp only [Function.comp_apply]
  split
  · rw [hf]
  · rfl

theorem save_deleteCreatedBefore (n : NewOtp) (h : cut ≤ now) :
    (t.deleteCreatedBefore cut).save n now = (t.save n now).deleteCreatedBefore cut := by
  have hkeep : ¬ (n.row t.nextId now).createdAt < cut := Int.not_lt.2 h
  simp only [save, deleteCreatedBefore, List.filter_append, OtpTable.mk.injEq, and_true]
  rw [List.filter_cons_of_pos (by simpa using hkeep), List.filter_nil]

theorem deleteCreatedBefore_deleteCreatedBefore (t : OtpTable) (cut cut' : Instant) :
    (t.deleteCreatedBefore cut).deleteCreatedBefore cut' =
      t.deleteCreatedBefore (max cut cut') := by
  simp only [deleteCreatedBefore, List.filter_filter, OtpTable.mk.injEq, and_true]
  refine List.filter_congr fun r _ => ?_
  have hmax : r.createdAt < max cut cut' ↔ r.createdAt < cut ∨ r.createdAt < cut' := lt_max_iff
  simp [hmax, Bool.and_comm]

/-- No code that is still active is old enough to be pruned. -/
theorem findActive_deleteCreatedBefore (h : Dated cfg now t)
    (httl : cfg.ttlSeconds ≤ max cfg.phoneLockWindowSeconds cfg.issueWindowSeconds)
    (hcut : cut ≤ pruneBefore cfg now) :
    (t.deleteCreatedBefore cut).findActiveByPhoneAndPurpose phone purpose now =
      t.findActiveByPhoneAndPurpose phone purpose now := by
  simp only [findActiveByPhoneAndPurpose, deleteCreatedBefore, List.filter_filter]
  refine congrArg (List.argmax OtpEntity.id) (List.filter_congr fun r hr => ?_)
  by_cases hold : r.createdAt < cut
  · have hspan := span_le_of_lt_pruneBefore httl (Int.lt_of_lt_of_le hold hcut)
    have hexpired : ¬ now < r.expiresAt := by
      rw [h.expires r hr]
      exact Int.not_lt.2 (Int.add_le_of_le_sub_left hspan)
    simp [hexpired]
  · simp [hold]

/-- The latest code is there, or old enough for the cooldown to be over. -/
theorem cooldownError_deleteCreatedBefore (h : Dated cfg now t)
    (hcooldown : cfg.cooldownSeconds ≤ max cfg.phoneLockWindowSeconds cfg.issueWindowSeconds)
    (hcut : cut ≤ pruneBefore cfg now) :
    cooldownError cfg now ((t.deleteCreatedBefore cut).findLatestByPhoneAndPurpose phone purpose) =
      cooldownError cfg now (t.findLatestByPhoneAndPurpose phone purpose) := by
  have hline : (t.deleteCreatedBefore cut).line phone purpose =
      (t.line phone purpose).filter fun r => ¬ r.createdAt < cut := List.filter_comm _ _ _
  have hpruned : (t.deleteCreatedBefore cut).findLatestByPhoneAndPurpose phone purpose =
      ((t.line phone purpose).filter fun r => ¬ r.createdAt < cut).getLast? := by
    rw [← hline]
    exact argmax_id_eq_getLast? ((h.ok.deleteCreatedBefore cut).line_sorted phone purpose)
  have hwhole : t.findLatestByPhoneAndPurpose phone purpose = (t.line phone purpose).getLast? :=
    argmax_id_eq_getLast? (h.ok.line_sorted phone purpose)
  rw [hpruned, hwhole]
  rcases List.eq_nil_or_concat (t.line phone purpose) with hnil | ⟨pre, r, hcat⟩
  · simp [hnil]
  · rw [List.concat_eq_append] at hcat
    rw [hcat, List.filter_append]
    by_cases hold : r.createdAt < cut
    · -- Every earlier code is older still.
      have hsorted : (t.line phone purpose).Pairwise fun r s => r.createdAt ≤ s.createdAt :=
        h.sorted.filter _
      rw [hcat, List.pairwise_append] at hsorted
      have hpre : pre.filter (fun r => ¬ r.createdAt < cut) = [] := by
        rw [List.filter_eq_nil_iff]
        intro r' hr'
        have hle := hsorted.2.2 r' hr' r (List.mem_singleton_self r)
        simpa using Int.lt_of_le_of_lt hle hold
      have hspan := span_le_of_lt_pruneBefore hcooldown (Int.lt_of_lt_of_le hold hcut)
      have hover : ¬ now - r.createdAt < cfg.cooldownSeconds * 1000 := Int.not_lt.2 hspan
      rw [hpre, List.filter_cons_of_neg (by simpa using hold), List.filter_nil]
      simp [cooldownError, hover]
    · rw [List.filter_cons_of_pos (by simpa using hold), List.filter_nil]
      simp

end OtpTable

variable {t : OtpTable} {cut now : Instant}

theorem Locked.deleteCreatedBefore_iff {phone : String} {purpose : OtpPurpose}
    (hcut : cut ≤ pruneBefore cfg now) :
    Locked cfg (t.deleteCreatedBefore cut) now phone purpose ↔ Locked cfg t now phone purpose := by
  rw [Locked, OtpTable.sumFailedAttemptsSince_deleteCreatedBefore
    (Int.le_trans hcut (pruneBefore_le_lockSince now)), Locked]

variable (sha256) in
/-- `verify` cannot tell the pruned table, and leaves it pruned. -/
theorem verify_deleteCreatedBefore (h : Dated cfg now t) (hcovers : RetentionCovers cfg)
    (hcut : cut ≤ pruneBefore cfg now) (phone : String) (purpose : OtpPurpose) (code : String) :
    Service.exec (verify cfg sha256 now phone purpose code) (t.deleteCreatedBefore cut) =
      ((Service.exec (verify cfg sha256 now phone purpose code) t).1,
        (Service.exec (verify cfg sha256 now phone purpose code) t).2.deleteCreatedBefore cut) := by
  simp only [exec_verify, Locked.deleteCreatedBefore_iff hcut,
    OtpTable.findActive_deleteCreatedBefore h hcovers.1 hcut]
  split
  · rfl
  · split
    · rfl
    · split
      · exact congrArg _ (OtpTable.update_deleteCreatedBefore fun r => rfl)
      · split
        · exact congrArg _ (OtpTable.update_deleteCreatedBefore fun r => rfl)
        · exact congrArg _ (OtpTable.update_deleteCreatedBefore fun r => rfl)

variable (sha256) in
theorem issue_deleteCreatedBefore (h : Dated cfg now t) (hcovers : RetentionCovers cfg)
    (hcut : cut ≤ pruneBefore cfg now) (phone : String) (purpose : OtpPurpose) (draw : Nat)
    (delivered : Bool) :
    Service.exec (issue cfg sha256 now phone purpose draw delivered) (t.deleteCreatedBefore cut) =
      ((Service.exec (issue cfg sha256 now phone purpose draw delivered) t).1,
        (Service.exec (issue cfg sha256 now phone purpose draw delivered) t).2.deleteCreatedBefore
          cut) := by
  have hnow : cut ≤ now := by
    refine Int.le_trans hcut (Int.sub_le_self _ ?_)
    exact Int.mul_nonneg (Int.natCast_nonneg _) (by decide)
  simp only [exec_issue, Locked.deleteCreatedBefore_iff hcut,
    OtpTable.countRequestsSince_deleteCreatedBefore
      (Int.le_trans hcut (pruneBefore_le_issueSince now)),
    OtpTable.cooldownError_deleteCreatedBefore h hcovers.2 hcut]
  split
  · rfl
  · split
    · rfl
    · split
      · rfl
      · have hinvalidate : (t.deleteCreatedBefore cut).invalidateActive phone purpose now =
            (t.invalidateActive phone purpose now).deleteCreatedBefore cut :=
          OtpTable.update_deleteCreatedBefore fun r => rfl
        rw [hinvalidate, OtpTable.save_deleteCreatedBefore _ hnow]

/-! ## Runs -/

theorem Dated.tick {now : Instant} (h : Dated cfg now t) (d : Nat) : Dated cfg (now + d) t :=
  ⟨h.ok, h.sorted, fun r hr => Int.le_trans (h.past r hr)
    (Int.le_add_of_nonneg_right (Int.natCast_nonneg d)), h.expires⟩

/-- An update of other columns than the row's identity and dates. -/
def KeepsDates (f : OtpEntity → OtpEntity) : Prop :=
  OtpTable.Keeps f ∧ ∀ r, (f r).createdAt = r.createdAt ∧ (f r).expiresAt = r.expiresAt

theorem Dated.update {now : Instant} (h : Dated cfg now t) {p : OtpEntity → Prop}
    [DecidablePred p] {f : OtpEntity → OtpEntity} (hf : KeepsDates f) :
    Dated cfg now (t.update p f) := by
  have hdates : ∀ r, (if p r then f r else r).createdAt = r.createdAt ∧
      (if p r then f r else r).expiresAt = r.expiresAt := by
    intro r
    split
    · exact hf.2 r
    · exact ⟨rfl, rfl⟩
  refine ⟨h.ok.update hf.1, ?_, ?_, ?_⟩
  · simpa only [OtpTable.update, List.pairwise_map, (hdates _).1] using h.sorted
  · intro r hr
    obtain ⟨r', hr', rfl⟩ := List.mem_map.1 hr
    rw [(hdates r').1]
    exact h.past r' hr'
  · intro r hr
    obtain ⟨r', hr', rfl⟩ := List.mem_map.1 hr
    rw [(hdates r').1, (hdates r').2]
    exact h.expires r' hr'

theorem Dated.save {now : Instant} (h : Dated cfg now t) {n : NewOtp}
    (hn : n.expiresAt = now + cfg.ttlSeconds * 1000) : Dated cfg now (t.save n now) := by
  refine ⟨h.ok.save n now, ?_, ?_, ?_⟩
  · refine List.pairwise_append.2 ⟨h.sorted, List.pairwise_singleton .., fun r hr s hs => ?_⟩
    rw [List.mem_singleton.1 hs]
    exact h.past r hr
  · intro r hr
    rcases List.mem_append.1 hr with hr | hr
    · exact h.past r hr
    · rw [List.mem_singleton.1 hr]
      exact Int.le_refl _
  · intro r hr
    rcases List.mem_append.1 hr with hr | hr
    · exact h.expires r hr
    · rw [List.mem_singleton.1 hr]
      exact hn

theorem Dated.verify {now : Instant} (h : Dated cfg now t) (phone : String)
    (purpose : OtpPurpose) (code : String) :
    Dated cfg now (Service.exec (verify cfg sha256 now phone purpose code) t).2 := by
  rw [exec_verify]
  split
  · exact h
  · split
    · exact h
    · split
      · exact h.update ⟨fun r => ⟨rfl, rfl, rfl⟩, fun r => ⟨rfl, rfl⟩⟩
      · split
        · exact h.update ⟨fun r => ⟨rfl, rfl, rfl⟩, fun r => ⟨rfl, rfl⟩⟩
        · exact h.update ⟨fun r => ⟨rfl, rfl, rfl⟩, fun r => ⟨rfl, rfl⟩⟩

theorem Dated.issue {now : Instant} (h : Dated cfg now t) (phone : String)
    (purpose : OtpPurpose) (draw : Nat) (delivered : Bool) :
    Dated cfg now (Service.exec (issue cfg sha256 now phone purpose draw delivered) t).2 := by
  rw [exec_issue]
  split
  · exact h
  · split
    · exact h
    · split
      · exact h
      · have hinvalidate : Dated cfg now (t.invalidateActive phone purpose now) :=
          h.update ⟨fun r => ⟨rfl, rfl, rfl⟩, fun r => ⟨rfl, rfl⟩⟩
        refine hinvalidate.save ?_
        rfl

/-- The first system has pruned what the second still holds. -/
def Pruned (cfg : OtpConfig) (s s' : Sys) : Prop :=
  s.now = s'.now ∧ s.log = s'.log ∧ Dated cfg s'.now s'.table ∧
    ∃ cut, cut ≤ pruneBefore cfg s'.now ∧ s.table = s'.table.deleteCreatedBefore cut

theorem Pruned.keep {s s' u : Sys} {op : CronOp} (hcovers : RetentionCovers cfg)
    (h : Pruned cfg s s') (hop : op.isCall = true) (hs : s.cronStep cfg sha256 op = some u) :
    ∃ u', s'.cronStep cfg sha256 op = some u' ∧ Pruned cfg u u' := by
  obtain ⟨table, now, log⟩ := s
  obtain ⟨table', now', log'⟩ := s'
  obtain ⟨rfl, rfl, hdated, cut, hcut, htable⟩ := h
  simp only at htable hdated hcut
  subst htable
  cases op with
  | pruneStaleOtps => cases hop
  | call op =>
      cases op with
      | tick d =>
          cases hs
          refine ⟨_, rfl, rfl, rfl, hdated.tick d, cut,
            Int.le_trans hcut (pruneBefore_mono ?_), rfl⟩
          exact Int.le_add_of_nonneg_right (Int.natCast_nonneg d)
      | issue phone purpose draw delivered =>
          by_cases hd : draw < 10 ^ cfg.codeLength
          · simp only [Sys.cronStep, Sys.step, if_pos hd, Option.some.injEq] at hs ⊢
            subst hs
            have hissue := issue_deleteCreatedBefore sha256 hdated hcovers hcut phone
              purpose draw delivered
            refine ⟨_, rfl, rfl, ?_, hdated.issue phone purpose draw delivered, cut, hcut, ?_⟩
            · simp only [Sys.after, hissue]
            · simp only [Sys.after, hissue]
          · simp [Sys.cronStep, Sys.step, hd] at hs
      | verify phone purpose code =>
          cases hs
          have hverify := verify_deleteCreatedBefore sha256 hdated hcovers hcut phone
            purpose code
          refine ⟨_, rfl, rfl, ?_, hdated.verify phone purpose code, cut, hcut, ?_⟩
          · simp only [Sys.after, hverify]
          · simp only [Sys.after, hverify]

theorem Pruned.drop {s s' u : Sys} {op : CronOp} (h : Pruned cfg s s') (hop : op.isCall = false)
    (hs : s.cronStep cfg sha256 op = some u) : Pruned cfg u s' := by
  obtain ⟨hnow, hlog, hdated, cut, hcut, htable⟩ := h
  cases op with
  | call op => cases hop
  | pruneStaleOtps =>
      cases hs
      refine ⟨hnow, hlog, hdated, max cut (pruneBefore cfg s'.now),
        Int.max_le.2 ⟨hcut, Int.le_refl _⟩, ?_⟩
      rw [← OtpTable.deleteCreatedBefore_deleteCreatedBefore, ← htable, ← hnow]
      rfl

theorem pruningUnnoticed_of_covers (hcovers : RetentionCovers cfg) :
    PruningUnnoticed cfg sha256 := by
  intro now₀ ops s hrun
  have hinit : Pruned cfg (Sys.initial now₀) (Sys.initial now₀) :=
    ⟨rfl, rfl, ⟨⟨List.Pairwise.nil, by simp [Sys.initial]⟩, List.Pairwise.nil,
      by simp [Sys.initial], by simp [Sys.initial]⟩, pruneBefore cfg now₀, Int.le_refl _, rfl⟩
  obtain ⟨s', hs', hpruned⟩ := run_filter (fun _ _ _ _ hR hk he => hR.keep hcovers hk he)
    (fun _ _ _ _ hR hk he => hR.drop hk he) hinit hrun
  exact ⟨s', hs', hpruned.2.1.symm⟩

/-! ## One code, pruned while it matters -/

section

variable (cfg sha256)

def firstOtp (phone : String) (purpose : OtpPurpose) : OtpEntity :=
  (newOtp cfg sha256 0 phone purpose (persistedCode cfg 0)).row 1 0

def firstTable (phone : String) (purpose : OtpPurpose) : OtpTable :=
  ⟨[firstOtp cfg sha256 phone purpose], 2⟩

def firstResult : OtpIssueResult := ⟨0 + cfg.ttlSeconds * 1000, cfg.cooldownSeconds, none⟩

def firstLog (phone : String) (purpose : OtpPurpose) : List Entry :=
  [⟨phone, purpose, 0, .issue (persistedCode cfg 0) (.ok (firstResult cfg))⟩]

end

variable {phone : String} {purpose : OtpPurpose}

theorem not_locked_of_sum_eq_zero {t : OtpTable} {now : Instant}
    (h : t.sumFailedAttemptsSince phone purpose (lockSince cfg now) = 0) :
    ¬ Locked cfg t now phone purpose := by
  have hpos := cfg.phoneMaxFailures_pos
  rw [Locked, h]
  omega

theorem cronStep_first : (Sys.initial 0).cronStep cfg sha256 (.call (.issue phone purpose 0 true)) =
    some ⟨firstTable cfg sha256 phone purpose, 0, firstLog cfg phone purpose⟩ := by
  have hdraw : 0 < 10 ^ cfg.codeLength := Nat.pow_pos (by decide)
  have hcount : ¬ cfg.maxIssuesPerWindow ≤
      ({} : OtpTable).countRequestsSince phone purpose (issueSince cfg 0) :=
    Nat.not_le.2 cfg.maxIssues_pos
  have hissue : Service.exec (issue cfg sha256 0 phone purpose 0 true) {} =
      (.ok (firstResult cfg), firstTable cfg sha256 phone purpose) := by
    rw [exec_issue, if_neg (not_locked_of_sum_eq_zero rfl), if_neg hcount]
    rfl
  simp only [Sys.cronStep, Sys.step, if_pos hdraw, Sys.after, Sys.initial, hissue]
  rfl

variable (phone purpose) in
/-- The call made after the first code has been pruned is answered as if it had not been. -/
theorem PruningUnnoticed.last (h : PruningUnnoticed cfg sha256) (d : Nat) (op : Op) {u : Sys}
    (hu : Sys.step cfg sha256 ⟨(firstTable cfg sha256 phone purpose).deleteCreatedBefore
      (pruneBefore cfg (0 + d)), 0 + d, firstLog cfg phone purpose⟩ op = some u) :
    ∃ u', Sys.step cfg sha256 ⟨firstTable cfg sha256 phone purpose, 0 + d,
      firstLog cfg phone purpose⟩ op = some u' ∧ u'.log = u.log := by
  have hrun : run (Sys.cronStep cfg sha256) (Sys.initial 0)
      [.call (.issue phone purpose 0 true), .call (.tick d), .pruneStaleOtps, .call op] =
        some u := by
    refine run_cons_eq_some.2 ⟨_, cronStep_first, run_cons_eq_some.2 ⟨_, rfl, ?_⟩⟩
    exact run_cons_eq_some.2 ⟨_, rfl, run_cons_eq_some.2 ⟨u, hu, rfl⟩⟩
  obtain ⟨s', hs', hlog⟩ := h 0 _ u hrun
  obtain ⟨s₁, hs₁, hrest₁⟩ := run_cons_eq_some.1 hs'
  obtain ⟨s₂, hs₂, hrest₂⟩ := run_cons_eq_some.1 hrest₁
  obtain ⟨s₃, hs₃, hrest₃⟩ := run_cons_eq_some.1 hrest₂
  obtain rfl := Option.some.inj (cronStep_first.symm.trans hs₁)
  obtain rfl := Option.some.inj hs₂
  obtain rfl := Option.some.inj hrest₃
  exact ⟨s₃, hs₃, hlog⟩

def pastRetention (cfg : OtpConfig) : Nat :=
  max cfg.phoneLockWindowSeconds cfg.issueWindowSeconds * 1000 + 1

theorem pruneBefore_pastRetention : pruneBefore cfg (0 + pastRetention cfg) = 1 := by
  show (0 : Int) + (max cfg.phoneLockWindowSeconds cfg.issueWindowSeconds * 1000 + 1 : Nat) -
    (max cfg.phoneLockWindowSeconds cfg.issueWindowSeconds : Nat) * 1000 = 1
  omega

theorem firstTable_pruned : (firstTable cfg sha256 phone purpose).deleteCreatedBefore
    (pruneBefore cfg (0 + pastRetention cfg)) = ⟨[], 2⟩ := by
  rw [pruneBefore_pastRetention]
  rfl

theorem firstOtp_sum {since : Instant} :
    (firstTable cfg sha256 phone purpose).sumFailedAttemptsSince phone purpose since = 0 := by
  rw [firstTable, OtpTable.sumFailedAttemptsSince_cons]
  simp [firstOtp, newOtp, NewOtp.row, OtpTable.sumFailedAttemptsSince]

theorem firstOtp_count : (firstTable cfg sha256 phone purpose).countRequestsSince phone purpose
    (issueSince cfg (0 + pastRetention cfg)) = 0 := by
  have hsince : (1 : Instant) ≤ issueSince cfg (0 + pastRetention cfg) := by
    have hcut : pruneBefore cfg (0 + pastRetention cfg) = 1 := pruneBefore_pastRetention
    rw [← hcut]
    exact pruneBefore_le_issueSince _
  have hold : ¬ issueSince cfg (0 + pastRetention cfg) <
      (firstOtp cfg sha256 phone purpose).createdAt :=
    Int.not_lt.2 (Int.le_trans (show (0 : Int) ≤ 1 by decide) hsince)
  refine List.countP_eq_zero.2 fun r hr => ?_
  rw [List.mem_singleton.1 hr]
  simp only [decide_eq_true_eq]
  exact fun h => hold h.2

theorem firstOtp_active (hlt : max cfg.phoneLockWindowSeconds cfg.issueWindowSeconds <
    cfg.ttlSeconds) : (firstTable cfg sha256 phone purpose).findActiveByPhoneAndPurpose phone
      purpose (0 + pastRetention cfg) = some (firstOtp cfg sha256 phone purpose) := by
  have hlive : (0 : Int) + pastRetention cfg < 0 + cfg.ttlSeconds * 1000 := by
    unfold pastRetention
    omega
  have hkeep : Matches phone purpose (firstOtp cfg sha256 phone purpose) ∧
      (firstOtp cfg sha256 phone purpose).consumedAt = none ∧
      (0 + pastRetention cfg : Instant) < (firstOtp cfg sha256 phone purpose).expiresAt :=
    ⟨⟨rfl, rfl⟩, rfl, hlive⟩
  rw [OtpTable.findActiveByPhoneAndPurpose, firstTable,
    List.filter_cons_of_pos (by simpa only [decide_eq_true_eq] using hkeep), List.filter_nil]
  rfl

/-- A code that lives longer than the retention is taken away while it is active. -/
theorem PruningUnnoticed.ttl_le (h : PruningUnnoticed cfg sha256) :
    cfg.ttlSeconds ≤ max cfg.phoneLockWindowSeconds cfg.issueWindowSeconds := by
  refine Nat.le_of_not_lt fun hlt => ?_
  let phone := "+963944123456"
  let code := persistedCode cfg 0
  obtain ⟨u', hu', hlog⟩ := h.last phone .userLogin (pastRetention cfg)
    (.verify phone .userLogin code) rfl
  obtain rfl := Option.some.inj hu'
  have hresult := (List.cons.inj hlog).1
  rw [firstTable_pruned] at hresult
  have hok : (Service.exec (verify cfg sha256 (0 + pastRetention cfg) phone .userLogin code)
      (firstTable cfg sha256 phone .userLogin)).1 = .ok () := by
    have hattempts : ¬ cfg.maxVerifyAttempts ≤ (firstOtp cfg sha256 phone .userLogin).attempts :=
      Nat.not_le.2 cfg.maxVerifyAttempts_pos
    have hhash : sha256 code = (firstOtp cfg sha256 phone .userLogin).codeHash := rfl
    rw [exec_verify, if_neg (not_locked_of_sum_eq_zero firstOtp_sum), firstOtp_active hlt]
    simp only [if_neg hattempts, if_pos hhash]
  have herror : (Service.exec (verify cfg sha256 (0 + pastRetention cfg) phone .userLogin code)
      ⟨[], 2⟩).1 = .error noActiveCode := by
    rw [exec_verify, if_neg (not_locked_of_sum_eq_zero rfl)]
    rfl
  simp only [hok, herror] at hresult
  cases hresult

/-- A cooldown longer than the retention ends when the code is pruned. -/
theorem PruningUnnoticed.cooldown_le (h : PruningUnnoticed cfg sha256) :
    cfg.cooldownSeconds ≤ max cfg.phoneLockWindowSeconds cfg.issueWindowSeconds := by
  refine Nat.le_of_not_lt fun hlt => ?_
  let phone := "+963944123456"
  have hdraw : 0 < 10 ^ cfg.codeLength := Nat.pow_pos (by decide)
  obtain ⟨u', hu', hlog⟩ := h.last phone .userLogin (pastRetention cfg)
    (.issue phone .userLogin 0 true) (if_pos hdraw)
  obtain rfl := Option.some.inj ((if_pos hdraw).symm.trans hu')
  have hresult := (List.cons.inj hlog).1
  rw [firstTable_pruned] at hresult
  have herror : (Service.exec (issue cfg sha256 (0 + pastRetention cfg) phone .userLogin 0 true)
      (firstTable cfg sha256 phone .userLogin)).1 =
        .error (resendCooldown cfg (0 + pastRetention cfg - 0)) := by
    have hcount : ¬ cfg.maxIssuesPerWindow ≤
        (firstTable cfg sha256 phone .userLogin).countRequestsSince phone .userLogin
          (issueSince cfg (0 + pastRetention cfg)) := by
      rw [firstOtp_count]
      exact Nat.not_le.2 cfg.maxIssues_pos
    have hlatest : (firstTable cfg sha256 phone .userLogin).findLatestByPhoneAndPurpose phone
        .userLogin = some (firstOtp cfg sha256 phone .userLogin) := rfl
    have hyoung : (0 : Int) + pastRetention cfg - 0 < cfg.cooldownSeconds * 1000 := by
      unfold pastRetention
      omega
    have hcooldown : cooldownError cfg (0 + pastRetention cfg)
        (some (firstOtp cfg sha256 phone .userLogin)) =
          some (resendCooldown cfg (0 + pastRetention cfg - 0)) := if_pos ⟨rfl, hyoung⟩
    rw [exec_issue, if_neg (not_locked_of_sum_eq_zero firstOtp_sum), if_neg hcount, hlatest,
      hcooldown]
  have hok : (Service.exec (issue cfg sha256 (0 + pastRetention cfg) phone .userLogin 0 true)
      ⟨[], 2⟩).1 =
        .ok ⟨0 + pastRetention cfg + cfg.ttlSeconds * 1000, cfg.cooldownSeconds, none⟩ := by
    have hcount : ¬ cfg.maxIssuesPerWindow ≤ OtpTable.countRequestsSince ⟨[], 2⟩ phone .userLogin
        (issueSince cfg (0 + pastRetention cfg)) := Nat.not_le.2 cfg.maxIssues_pos
    rw [exec_issue, if_neg (not_locked_of_sum_eq_zero rfl), if_neg hcount]
    rfl
  simp only [hok, herror] at hresult
  cases hresult

/-- Pruning goes unnoticed exactly where the retention covers the lifetime of a code and
the resend cooldown. -/
theorem pruningUnnoticed_iff (cfg : OtpConfig) (sha256 : String → String) :
    PruningUnnoticed cfg sha256 ↔ RetentionCovers cfg :=
  ⟨fun h => ⟨h.ttl_le, h.cooldown_le⟩, pruningUnnoticed_of_covers⟩

/-- Codes that live an hour, with windows of ten and fifteen minutes. -/
def OtpConfig.anHour : OtpConfig := { OtpConfig.test with ttlSeconds := 3600, ttl_pos := by decide }

def prunedCode : List CronOp :=
  [.call (.issue "+963944123456" .userLogin 0 true), .call (.tick 900001), .pruneStaleOtps,
    .call (.verify "+963944123456" .userLogin "123456")]

/-- Fifteen minutes on, the right code is accepted, or refused if the job has run. -/
theorem prunedCode_refused :
    ∃ s s', run (Sys.cronStep .anHour sha256Sample) (Sys.initial 0) prunedCode = some s ∧
      run (Sys.cronStep .anHour sha256Sample) (Sys.initial 0)
        (prunedCode.filter CronOp.isCall) = some s' ∧
      s.log.map Entry.effect = [.refused, .issued "123456"] ∧
      s'.log.map Entry.effect = [.accepted, .issued "123456"] := by
  have hrun : (run (Sys.cronStep .anHour sha256Sample) (Sys.initial 0) prunedCode).map
      (fun s => s.log.map Entry.effect) = some [.refused, .issued "123456"] := by
    decide +kernel
  have hrun' : (run (Sys.cronStep .anHour sha256Sample) (Sys.initial 0)
      (prunedCode.filter CronOp.isCall)).map (fun s => s.log.map Entry.effect) =
        some [.accepted, .issued "123456"] := by
    decide +kernel
  obtain ⟨s, hs, heff⟩ := Option.map_eq_some_iff.1 hrun
  obtain ⟨s', hs', heff'⟩ := Option.map_eq_some_iff.1 hrun'
  exact ⟨s, s', hs, hs', heff, heff'⟩

end NestStarter.Otps
