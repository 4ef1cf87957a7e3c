import NestStarter.Otps.Contract
import NestStarter.Otps.Machine

/-! # Calls that nobody interrupts

The clients' machine and the service methods are two readings of one source.
They agree: a call that is made while nobody else is inside one leaves the table
the service method leaves, so every sequential run of the service is a run of the
machine.
-/

namespace NestStarter.Otps

open NestStarter.Core

variable {cfg : OtpConfig} {sha256 : String → String}

section

variable (c : Nat) (sh : Shared) (pc : Pc) (acts : List Action)

theorem run_call (k : Call) :
    run (Pool.solo (move cfg sha256) c) (sh, .idle) (.call k :: acts) =
      run (Pool.solo (move cfg sha256) c) (sh, begin cfg sh.now k) acts := rfl

theorem run_exec :
    run (Pool.solo (move cfg sha256) c) (sh, pc) (.exec :: acts) =
      (statement c sh pc).bind fun r => run (Pool.solo (move cfg sha256) c) r acts := rfl

theorem run_resume (draw : Nat) :
    run (Pool.solo (move cfg sha256) c) (sh, pc) (.resume draw :: acts) =
      (continue_ cfg sha256 c sh draw pc).bind fun r =>
        run (Pool.solo (move cfg sha256) c) r acts := rfl

end

theorem verifyBranch_eq (cfg : OtpConfig) (sha256 : String → String) (code : String)
    (otp : OtpEntity) :
    verifyBranch cfg sha256 code otp =
      if cfg.maxVerifyAttempts ≤ otp.attempts then .exhausted
      else if sha256 code = otp.codeHash then .accept
      else .reject := by
  simp only [verifyBranch, ← hashesEqual_iff]
  cases hashesEqual (sha256 code) otp.codeHash <;> rfl

/-- A `verify` that nobody interrupts is the service's. -/
theorem verify_of_solo (c : Nat) (sh : Shared) (phone : String) (purpose : OtpPurpose)
    (code : String) :
    ∃ acts sh', run (Pool.solo (move cfg sha256) c) (sh, .idle)
        (.call (.verify phone purpose code) :: acts) = some (sh', .idle) ∧
      sh'.now = sh.now ∧
      sh'.table = (Service.exec (verify cfg sha256 sh.now phone purpose code) sh.table).2 ∧
      (sh'.verified ≠ sh.verified ↔
        (Service.exec (verify cfg sha256 sh.now phone purpose code) sh.table).1 = .ok ()) := by
  rw [exec_verify]
  by_cases hl : Locked cfg sh.table sh.now phone purpose
  · refine ⟨[.exec, .resume 0], sh, ?_, rfl, by simp [hl], by simp [hl]⟩
    unfold Locked at hl
    simp [run_call, run_exec, run_resume, begin, statement, continue_, hl]
  · have hopen := hl
    unfold Locked at hopen
    cases hf : sh.table.findActiveByPhoneAndPurpose phone purpose sh.now with
    | none =>
        refine ⟨[.exec, .resume 0, .exec, .resume 0], sh, ?_, rfl, by simp [hl], by simp [hl]⟩
        simp [run_call, run_exec, run_resume, begin, statement, continue_, hopen, hf]
    | some otp =>
        have hbranch := verifyBranch_eq cfg sha256 code otp
        by_cases ha : cfg.maxVerifyAttempts ≤ otp.attempts
        · rw [if_pos ha] at hbranch
          refine ⟨[.exec, .resume 0, .exec, .resume 0, .exec],
            { sh with table := sh.table.markConsumed otp.id sh.now }, ?_, rfl, ?_, ?_⟩
          · simp [run_call, run_exec, run_resume, begin, statement, continue_, hopen, hf, hbranch]
          · simp [hl, ha]
          · simp [hl, ha]
        · rw [if_neg ha] at hbranch
          by_cases hh : sha256 code = otp.codeHash
          · rw [if_pos hh] at hbranch
            refine ⟨[.exec, .resume 0, .exec, .resume 0, .exec],
              { sh with
                table := sh.table.markConsumed otp.id sh.now
                verified := otp.id :: sh.verified }, ?_, rfl, ?_, ?_⟩
            · simp [run_call, run_exec, run_resume, begin, statement, continue_, hopen, hf, hbranch]
            · simp [hl, ha, hh]
            · simp [hl, ha, hh]
          · rw [if_neg hh] at hbranch
            refine ⟨[.exec, .resume 0, .exec, .resume 0, .exec],
              { sh with
                table := sh.table.incrementAttempts otp.id
                compared := otp.id :: sh.compared }, ?_, rfl, ?_, ?_⟩
            · simp [run_call, run_exec, run_resume, begin, statement, continue_, hopen, hf, hbranch]
            · simp [hl, ha, hh]
            · simp [hl, ha, hh]

theorem issue_of_solo (c : Nat) (sh : Shared) (phone : String) (purpose : OtpPurpose)
    (delivered : Bool) {draw : Nat} (hdraw : draw < 10 ^ cfg.codeLength) :
    ∃ acts sh', run (Pool.solo (move cfg sha256) c) (sh, .idle)
        (.call (.issue phone purpose) :: acts) = some (sh', .idle) ∧
      sh' = { sh with
        table :=
          (Service.exec (issue cfg sha256 sh.now phone purpose draw delivered) sh.table).2 } := by
  rw [exec_issue]
  by_cases hl : Locked cfg sh.table sh.now phone purpose
  · refine ⟨[.exec, .resume 0], sh, ?_, by simp [hl]⟩
    unfold Locked at hl
    simp [run_call, run_exec, run_resume, begin, statement, continue_, hl]
  · have hopen := hl
    unfold Locked at hopen
    by_cases hr : cfg.maxIssuesPerWindow ≤
        sh.table.countRequestsSince phone purpose (issueSince cfg sh.now)
    · refine ⟨[.exec, .resume 0, .exec, .resume 0], sh, ?_, by simp [hl, hr]⟩
      simp [run_call, run_exec, run_resume, begin, statement, continue_, hopen, hr]
    · cases hc : cooldownError cfg sh.now (sh.table.findLatestByPhoneAndPurpose phone purpose) with
      | some e =>
          refine ⟨[.exec, .resume 0, .exec, .resume 0, .exec, .resume 0], sh, ?_, by simp [hl, hr]⟩
          simp [run_call, run_exec, run_resume, begin, statement, continue_, hopen, hr, hc]
      | none =>
          refine ⟨[.exec, .resume 0, .exec, .resume 0, .exec, .resume 0, .exec, .resume draw,
            .exec], _, ?_, rfl⟩
          simp [run_call, run_exec, run_resume, begin, statement, continue_, hopen, hl, hr, hc,
            hdraw]

/-- The machine stands where the sequential run does, and nobody is inside a call. -/
structure Follows (s : Sys) (p : State) : Prop where
  table : p.shared.table = s.table
  now : p.shared.now = s.now
  idle : ∀ c, p.client c = .idle

variable {s s' : Sys} {p : State}

theorem Follows.solo {sh : Shared} {acts : List Action} (h : Follows s p)
    (hrun : run (Pool.solo (move cfg sha256) 0) (p.shared, .idle) acts = some (sh, .idle))
    (htable : sh.table = s'.table) (hnow : sh.now = s'.now) :
    ∃ acts p', run (Otps.step cfg sha256) p acts = some p' ∧ Follows s' p' := by
  rw [← h.idle 0] at hrun
  exact ⟨_, _, Pool.run_solo_self hrun, htable, hnow, h.idle⟩

theorem Follows.step {op : Op} (h : Follows s p) (hs : Sys.step cfg sha256 s op = some s') :
    ∃ acts p', run (Otps.step cfg sha256) p acts = some p' ∧ Follows s' p' := by
  cases op with
  | tick d =>
      cases hs
      have hrun : run (Pool.solo (move cfg sha256) 0) (p.shared, .idle) [.tick d] =
          some ({ p.shared with now := p.shared.now + d }, .idle) := rfl
      exact h.solo hrun h.table (by simp [h.now])
  | issue phone purpose draw delivered =>
      by_cases hdraw : draw < 10 ^ cfg.codeLength
      · simp only [Sys.step, if_pos hdraw, Option.some.injEq] at hs
        subst hs
        obtain ⟨acts, sh', hrun, rfl⟩ := issue_of_solo 0 p.shared phone purpose delivered hdraw
        exact h.solo hrun (by simp [Sys.after, h.table, h.now]) h.now
      · simp [Sys.step, hdraw] at hs
  | verify phone purpose code =>
      cases hs
      obtain ⟨acts, sh', hrun, hnow, htable, _⟩ := verify_of_solo 0 p.shared phone purpose code
      exact h.solo hrun (by rw [htable, h.table, h.now]; rfl) (hnow.trans h.now)

/-- Every sequential run of the service is a run of the machine that ends with the same
table. -/
theorem follows_of_run {now : Instant} {ops : List Op}
    (hrun : run (Sys.step cfg sha256) (Sys.initial now) ops = some s) :
    ∃ acts p, run (Otps.step cfg sha256) (Otps.initial now) acts = some p ∧ Follows s p :=
  run_simulates (fun _ _ _ _ hR hs => Follows.step hR hs) ⟨rfl, rfl, fun _ => rfl⟩ hrun

end NestStarter.Otps
