import NestStarter.Otps.Machine

/-! # How many codes a window admits

One caller, one call after another, with the clock moving inside the calls as
well: a row may be created later than the check that admitted it, and a check may
be later than the instant its window was computed from. `issue` counts the rows
of the window behind it, and `pruneStaleOtps` removes only rows that no later
check counts, so every window of that length is bounded, whatever its position.
-/

namespace NestStarter.Otps

open NestStarter.Core
open OtpTable (Matches)

/-- One caller at work, with the rows inserted so far, newest first. -/
structure Traced where
  shared : Shared
  pc : Pc := .idle
  created : List OtpEntity := []
  deriving DecidableEq, Repr

def recordInsert (sh : Shared) (pc : Pc) (a : Action) (created : List OtpEntity) :
    List OtpEntity :=
  match a, pc with
  | .exec, .insert otp => otp.row sh.table.nextId sh.now :: created
  | _, _ => created

def Traced.initial (now : Instant) : Traced := { shared := { now } }

/-- The rows of a phone and purpose created after an instant, those pruned since included. -/
def createdSince (created : List OtpEntity) (phone : String) (purpose : OtpPurpose)
    (since : Instant) : Nat :=
  created.countP fun r => Matches phone purpose r ∧ since < r.createdAt

variable (cfg : OtpConfig) (sha256 : String → String)

def Traced.step (s : Traced) (a : Action) : Option Traced :=
  (move cfg sha256 0 s.shared s.pc a).map fun r =>
    ⟨r.1, r.2, recordInsert s.shared s.pc a s.created⟩

/-- Those created in the issue window that ends at `x`. -/
def createdWithin (created : List OtpEntity) (phone : String) (purpose : OtpPurpose)
    (x : Instant) : Nat :=
  created.countP fun r =>
    Matches phone purpose r ∧ issueSince cfg x < r.createdAt ∧ r.createdAt ≤ x

/-- Where `pruneStaleOtps` cuts. -/
def pruneBefore (now : Instant) : Instant :=
  now - max cfg.phoneLockWindowSeconds cfg.issueWindowSeconds * 1000

variable {cfg sha256}

theorem pruneBefore_le_issueSince (now : Instant) :
    pruneBefore cfg now ≤ issueSince cfg now := by
  have hle : (cfg.issueWindowSeconds : Int) ≤
      (max cfg.phoneLockWindowSeconds cfg.issueWindowSeconds : Nat) := by
    omega
  exact Int.sub_le_sub_left (Int.mul_le_mul_of_nonneg_right hle (by decide)) now

theorem issueSince_mono {now now' : Instant} (h : now ≤ now') :
    issueSince cfg now ≤ issueSince cfg now' :=
  Int.sub_le_sub_right h _

theorem pruneBefore_mono {now now' : Instant} (h : now ≤ now') :
    pruneBefore cfg now ≤ pruneBefore cfg now' :=
  Int.sub_le_sub_right h _

namespace OtpTable

variable {t : OtpTable} {phone : String} {purpose : OtpPurpose} {since : Instant}

theorem countRequestsSince_update {p : OtpEntity → Prop} [DecidablePred p]
    {f : OtpEntity → OtpEntity}
    (hf : ∀ r, (f r).phone = r.phone ∧ (f r).purpose = r.purpose ∧ (f r).createdAt = r.createdAt) :
    (t.update p f).countRequestsSince phone purpose since =
      t.countRequestsSince phone purpose since := by
  simp only [countRequestsSince, update, List.countP_map]
  refine List.countP_congr fun r _ => ?_
  obtain ⟨hphone, hpurpose, hcreated⟩ := hf r
  have hmatches : Matches phone purpose (f r) ↔ Matches phone purpose r := by
    rw [Matches, hphone, hpurpose, Matches]
  simp only [Function.comp_apply, decide_eq_true_eq]
  split
  · rw [hmatches, hcreated]
  · exact Iff.rfl

theorem countRequestsSince_deleteCreatedBefore {cutoff : Instant} (h : cutoff ≤ since) :
    (t.deleteCreatedBefore cutoff).countRequestsSince phone purpose since =
      t.countRequestsSince phone purpose since := by
  simp only [countRequestsSince, deleteCreatedBefore, List.countP_filter]
  refine List.countP_congr fun r _ => ?_
  simp only [Bool.and_eq_true, decide_eq_true_eq]
  constructor
  · exact fun hr => hr.1
  · exact fun hr => ⟨hr, Int.not_lt.2 (Int.le_of_lt (Int.lt_of_le_of_lt h hr.2))⟩

theorem countRequestsSince_save (n : NewOtp) (now : Instant) :
    (t.save n now).countRequestsSince phone purpose since =
      t.countRequestsSince phone purpose since +
        if Matches phone purpose (n.row t.nextId now) ∧ since < now then 1 else 0 := by
  simp only [countRequestsSince, save, List.countP_append, List.countP_cons, List.countP_nil,
    decide_eq_true_eq, Nat.zero_add]
  rfl

end OtpTable

/-- The table still holds what was created after `cut`, as far as counts go. -/
def Covers (cut : Instant) (created : List OtpEntity) (t : OtpTable) : Prop :=
  ∀ phone purpose since, cut ≤ since →
    createdSince created phone purpose since ≤ t.countRequestsSince phone purpose since

theorem Covers.update {cut : Instant} {created : List OtpEntity} {t : OtpTable}
    (h : Covers cut created t) {p : OtpEntity → Prop} [DecidablePred p]
    {f : OtpEntity → OtpEntity}
    (hf : ∀ r, (f r).phone = r.phone ∧ (f r).purpose = r.purpose ∧ (f r).createdAt = r.createdAt) :
    Covers cut created (t.update p f) := by
  intro phone purpose since hle
  rw [OtpTable.countRequestsSince_update hf]
  exact h phone purpose since hle

theorem Covers.deleteCreatedBefore {cut : Instant} {created : List OtpEntity} {t : OtpTable}
    (h : Covers cut created t) (cutoff : Instant) :
    Covers (max cut cutoff) created (t.deleteCreatedBefore cutoff) := by
  intro phone purpose since hle
  obtain ⟨hcut, hcutoff⟩ := Int.max_le.1 hle
  rw [OtpTable.countRequestsSince_deleteCreatedBefore hcutoff]
  exact h phone purpose since hcut

theorem createdSince_cons (r : OtpEntity) (created : List OtpEntity) (phone : String)
    (purpose : OtpPurpose) (since : Instant) :
    createdSince (r :: created) phone purpose since = createdSince created phone purpose since +
      if Matches phone purpose r ∧ since < r.createdAt then 1 else 0 := by
  simp only [createdSince, List.countP_cons, decide_eq_true_eq]

theorem Covers.save {cut : Instant} {created : List OtpEntity} {t : OtpTable}
    (h : Covers cut created t) (n : NewOtp) (now : Instant) :
    Covers cut (n.row t.nextId now :: created) (t.save n now) := by
  intro phone purpose since hle
  rw [createdSince_cons, OtpTable.countRequestsSince_save]
  exact Nat.add_le_add_right (h phone purpose since hle) _

/-! ## The invariant -/

/-- The check has counted fewer codes than the maximum, from an instant no later than the
window of a row created now. -/
def Allowed (cfg : OtpConfig) (created : List OtpEntity) (now : Instant) (phone : String)
    (purpose : OtpPurpose) : Prop :=
  ∃ since, since ≤ issueSince cfg now ∧
    createdSince created phone purpose since < cfg.maxIssuesPerWindow

/-- What the caller may rely on at each statement, when the table covers what was created
after `cut`. -/
def Stage (cfg : OtpConfig) (cut : Instant) (created : List OtpEntity) (now : Instant) :
    Pc → Prop
  | .count _ _ since => cut ≤ since ∧ since ≤ issueSince cfg now
  | .counted phone purpose n =>
      ∃ since, since ≤ issueSince cfg now ∧ createdSince created phone purpose since ≤ n
  | .latest phone purpose => Allowed cfg created now phone purpose
  | .latestRead phone purpose _ => Allowed cfg created now phone purpose
  | .invalidate phone purpose _ => Allowed cfg created now phone purpose
  | .invalidated phone purpose => Allowed cfg created now phone purpose
  | .insert otp => Allowed cfg created now otp.phone otp.purpose
  | .delete cutoff => cutoff ≤ pruneBefore cfg now
  | _ => True

theorem Allowed.mono {created : List OtpEntity} {now now' : Instant} {phone : String}
    {purpose : OtpPurpose} (h : Allowed cfg created now phone purpose) (hle : now ≤ now') :
    Allowed cfg created now' phone purpose := by
  obtain ⟨since, hsince, hlt⟩ := h
  exact ⟨since, Int.le_trans hsince (issueSince_mono hle), hlt⟩

theorem Stage.mono {cut : Instant} {created : List OtpEntity} {now now' : Instant} {pc : Pc}
    (h : Stage cfg cut created now pc) (hle : now ≤ now') : Stage cfg cut created now' pc := by
  cases pc with
  | count phone purpose since => exact ⟨h.1, Int.le_trans h.2 (issueSince_mono hle)⟩
  | counted phone purpose n =>
      obtain ⟨since, hsince, hn⟩ := h
      exact ⟨since, Int.le_trans hsince (issueSince_mono hle), hn⟩
  | latest phone purpose => exact Allowed.mono h hle
  | latestRead phone purpose row => exact Allowed.mono h hle
  | invalidate phone purpose at_ => exact Allowed.mono h hle
  | invalidated phone purpose => exact Allowed.mono h hle
  | insert otp => exact Allowed.mono h hle
  | delete cutoff => exact Int.le_trans h (pruneBefore_mono hle)
  | _ => trivial

structure IssueInv (cfg : OtpConfig) (cut : Instant) (s : Traced) : Prop where
  pruned : cut ≤ pruneBefore cfg s.shared.now
  covers : Covers cut s.created s.shared.table
  stage : Stage cfg cut s.created s.shared.now s.pc
  bounded : ∀ phone purpose x,
    createdWithin cfg s.created phone purpose x ≤ cfg.maxIssuesPerWindow

/-- The inserted row: a window that holds it begins no earlier than the check's. -/
theorem createdWithin_insert_le {created : List OtpEntity} {now : Instant} {otp : NewOtp}
    (h : Allowed cfg created now otp.phone otp.purpose)
    (hbounded : ∀ phone purpose x,
      createdWithin cfg created phone purpose x ≤ cfg.maxIssuesPerWindow)
    (id : Nat) (phone : String) (purpose : OtpPurpose) (x : Instant) :
    createdWithin cfg (otp.row id now :: created) phone purpose x ≤ cfg.maxIssuesPerWindow := by
  simp only [createdWithin, List.countP_cons, decide_eq_true_eq]
  split
  · next hin =>
    obtain ⟨⟨rfl, rfl⟩, _, hx⟩ := hin
    obtain ⟨since, hsince, hlt⟩ := h
    have hwindow : since ≤ issueSince cfg x := Int.le_trans hsince (issueSince_mono hx)
    have hle : createdWithin cfg created otp.phone otp.purpose x ≤
        createdSince created otp.phone otp.purpose since := by
      refine List.countP_mono_left fun r _ hr => ?_
      simp only [decide_eq_true_eq] at hr ⊢
      exact ⟨hr.1, Int.lt_of_le_of_lt hwindow hr.2.1⟩
    exact Nat.lt_of_le_of_lt hle hlt
  · exact hbounded phone purpose x

theorem lt_of_toLatest {c : Nat} {sh sh' : Shared} {phone phone' : String}
    {purpose purpose' : OtpPurpose} {count : Nat} {a : Action}
    (h : move cfg sha256 c sh (.counted phone purpose count) a =
      some (sh', .latest phone' purpose')) : count < cfg.maxIssuesPerWindow := by
  cases a with
  | resume draw =>
      refine Nat.lt_of_not_le fun hge => ?_
      simp [move, continue_, hge] at h
  | tick d => cases h
  | call k => cases h
  | exec => cases h

theorem recordInsert_of_ne {sh : Shared} {pc : Pc} {a : Action} {created : List OtpEntity}
    (h : ∀ otp, pc ≠ .insert otp) : recordInsert sh pc a created = created := by
  unfold recordInsert
  split
  · exact absurd rfl (h _)
  · rfl

theorem Stage.quiet {cut : Instant} {created : List OtpEntity} {sh sh' : Shared} {pc pc' : Pc}
    {a : Action} (h : Stage cfg cut created sh.now pc) (hcut : cut ≤ pruneBefore cfg sh.now)
    (hcovers : Covers cut created sh.table) (hmove : move cfg sha256 0 sh pc a = some (sh', pc'))
    (hq : Quiet cfg sha256 sh pc pc') : Stage cfg cut created sh.now pc' := by
  cases hq with
  | call k =>
      cases k with
      | pruneStaleOtps => exact Int.le_refl _
      | _ => trivial
  | toCount phone purpose failed =>
      exact ⟨Int.le_trans hcut (pruneBefore_le_issueSince sh.now), Int.le_refl _⟩
  | count phone purpose since => exact ⟨since, h.2, hcovers phone purpose since h.1⟩
  | toLatest phone purpose count =>
      obtain ⟨since, hsince, hn⟩ := h
      exact ⟨since, hsince, Nat.lt_of_le_of_lt hn (lt_of_toLatest hmove)⟩
  | latest phone purpose => exact h
  | toInvalidate phone purpose row => exact h
  | toInsert phone purpose draw => exact h
  | _ => trivial

theorem IssueInv.step {cut : Instant} {s s' : Traced} {a : Action} (h : IssueInv cfg cut s)
    (hs : s.step cfg sha256 a = some s') : ∃ cut', IssueInv cfg cut' s' := by
  obtain ⟨⟨sh', pc'⟩, hmove, rfl⟩ := Option.map_eq_some_iff.1 hs
  obtain ⟨sh, pc, created⟩ := s
  obtain ⟨hpruned, hcovers, hstage, hbounded⟩ := h
  simp only at hmove hpruned hcovers hstage hbounded ⊢
  have hm := move_spec hmove
  cases hm with
  | tick _ d =>
      have hle : sh.now ≤ sh.now + d := Int.le_add_of_nonneg_right (Int.natCast_nonneg d)
      exact ⟨cut, Int.le_trans hpruned (pruneBefore_mono hle), hcovers, hstage.mono hle, hbounded⟩
  | quiet _ _ _ hq =>
      have hne : ∀ otp, pc ≠ .insert otp := by
        rintro otp rfl
        cases hq
      rw [recordInsert_of_ne hne]
      exact ⟨cut, hpruned, hcovers, hstage.quiet hpruned hcovers hmove hq, hbounded⟩
  | find phone purpose code now => exact ⟨cut, hpruned, hcovers, trivial, hbounded⟩
  | exhausted code otp draw hb => exact ⟨cut, hpruned, hcovers, trivial, hbounded⟩
  | accept code otp draw hb => exact ⟨cut, hpruned, hcovers, trivial, hbounded⟩
  | reject code otp draw hb => exact ⟨cut, hpruned, hcovers, trivial, hbounded⟩
  | mark id at_ accepted =>
      exact ⟨cut, hpruned, hcovers.update fun r => ⟨rfl, rfl, rfl⟩, trivial, hbounded⟩
  | increment id =>
      exact ⟨cut, hpruned, hcovers.update fun r => ⟨rfl, rfl, rfl⟩, trivial, hbounded⟩
  | invalidate phone purpose now =>
      exact ⟨cut, hpruned, hcovers.update fun r => ⟨rfl, rfl, rfl⟩, hstage, hbounded⟩
  | insert otp =>
      exact ⟨cut, hpruned, hcovers.save otp sh.now, trivial,
        createdWithin_insert_le hstage hbounded sh.table.nextId⟩
  | delete cutoff =>
      exact ⟨max cut cutoff, Int.max_le.2 ⟨hpruned, hstage⟩, hcovers.deleteCreatedBefore cutoff,
        trivial, hbounded⟩

theorem IssueInv.initial (now : Instant) :
    IssueInv cfg (pruneBefore cfg now) (Traced.initial now) :=
  ⟨Int.le_refl _, fun _ _ _ _ => Nat.le_refl 0, trivial, fun _ _ _ => Nat.zero_le _⟩

/-- In every sequential run, every window of the issue-rate length holds at most the
maximum of codes created for a phone and purpose, wherever it lies. -/
theorem createdWithin_le_of_run (cfg : OtpConfig) (sha256 : String → String) (now₀ : Instant)
    (as : List Action) (s : Traced)
    (hrun : run (Traced.step cfg sha256) (Traced.initial now₀) as = some s) (phone : String)
    (purpose : OtpPurpose) (x : Instant) :
    createdWithin cfg s.created phone purpose x ≤ cfg.maxIssuesPerWindow := by
  let Inv (s : Traced) : Prop := ∃ cut, IssueInv cfg cut s
  have hstep : ∀ s a s', Inv s → Traced.step cfg sha256 s a = some s' → Inv s' :=
    fun _ _ _ ⟨cut, hs⟩ he => hs.step he
  have hinit : Inv (Traced.initial now₀) := ⟨pruneBefore cfg now₀, IssueInv.initial now₀⟩
  obtain ⟨cut, h⟩ : Inv s := Reachable.inv hinit hstep ⟨as, hrun⟩
  exact h.bounded phone purpose x

def issueAndPrune : List Action :=
  [.call (.issue "+963944123456" .userLogin), .exec, .resume 0, .exec, .tick 40, .resume 0, .exec,
    .resume 0, .exec, .resume 0, .tick 7, .exec, .tick 900001, .call .pruneStaleOtps, .exec]

theorem createdWithin_issueAndPrune :
    ∃ s, run (Traced.step .test sha256Sample) (Traced.initial 0) issueAndPrune = some s ∧
      s.shared.table.rows = [] ∧ createdWithin .test s.created "+963944123456" .userLogin 47 = 1 ∧
      createdWithin .test s.created "+963944123456" .userLogin 47 ≤ 5 := by
  have hrun : (run (Traced.step .test sha256Sample) (Traced.initial 0) issueAndPrune).any
      (fun s => decide (s.shared.table.rows = [] ∧
        createdWithin .test s.created "+963944123456" .userLogin 47 = 1)) = true := by
    decide +kernel
  simp only [Option.any_eq_true, decide_eq_true_eq] at hrun
  obtain ⟨s, hs, hrows, hone⟩ := hrun
  exact ⟨s, hs, hrows, hone, createdWithin_le_of_run .test sha256Sample 0 issueAndPrune s hs _ _ 47⟩

end NestStarter.Otps
