import Mathlib.Data.Set.Function
import NestStarter.Otps.Refinement

/-! # What a sequential caller of `OtpService` gets

Runs of `issue` and `verify` calls for any phones, one after another, from the
empty table. Each reachable table carries the sessions its history replays to,
so the outcome of the next call can be read off the history of its own phone.
-/

namespace NestStarter.Otps

open NestStarter.Core

structure Sys where
  table : OtpTable := {}
  now : Instant
  /-- The calls made so far with their results, newest first. -/
  log : List Entry := []

inductive Op where
  | tick (d : Nat)
  | issue (phone : String) (purpose : OtpPurpose) (draw : Nat) (delivered : Bool)
  | verify (phone : String) (purpose : OtpPurpose) (code : String)
  deriving DecidableEq, Repr

variable (cfg : OtpConfig) (sha256 : String → String)

def Sys.initial (now : Instant) : Sys := { now }

def Sys.after {α : Type} (s : Sys) (phone : String) (purpose : OtpPurpose)
    (event : Except HttpException α → Event) (r : Except HttpException α × OtpTable) : Sys :=
  { s with table := r.2, log := ⟨phone, purpose, s.now, event r.1⟩ :: s.log }

def Sys.step (s : Sys) : Op → Option Sys
  | .tick d => some { s with now := s.now + d }
  | .issue phone purpose draw delivered =>
      if draw < 10 ^ cfg.codeLength then
        some (s.after phone purpose (.issue (persistedCode cfg draw))
          (Service.exec (issue cfg sha256 s.now phone purpose draw delivered) s.table))
      else none
  | .verify phone purpose code =>
      some (s.after phone purpose (.verify code)
        (Service.exec (verify cfg sha256 s.now phone purpose code) s.table))

def Op.concerns (phone : String) (purpose : OtpPurpose) : Op → Bool
  | .tick _ => true
  | .issue p q _ _ | .verify p q _ => p = phone ∧ q = purpose

/-- Every line of the table is the session its history replays to. -/
structure Refines (s : Sys) : Prop where
  table : s.table.Ok
  session : ∀ phone purpose, s.table.session phone purpose =
    replay cfg sha256 (history phone purpose s.log)

variable {cfg sha256} {phone : String} {purpose : OtpPurpose}

theorem Refines.tail_closed {s : Sys} (h : Refines cfg sha256 s) (phone : String)
    (purpose : OtpPurpose) : ∀ c ∈ (s.table.session phone purpose).tail, c.closed = true := by
  rw [h.session]
  exact fun c hc => closed_of_mem_tail_replay _ hc

theorem Refines.call {s : Sys} (h : Refines cfg sha256 s) {e : Entry} {t' : OtpTable}
    (hc : Carries cfg sha256 e s.table t') :
    Refines cfg sha256 { s with table := t', log := e :: s.log } := by
  refine ⟨hc.ok, fun phone purpose => ?_⟩
  rw [history_cons]
  by_cases hon : e.On phone purpose
  · obtain ⟨rfl, rfl⟩ := hon
    rw [if_pos ⟨rfl, rfl⟩, hc.own, h.session]
    rfl
  · rw [if_neg hon, hc.other _ _ fun he => hon ⟨he.1.symm, he.2.symm⟩, h.session]

/-- The outcome of `verify`, from the history of its phone. -/
theorem Refines.verify_eq {s : Sys} (h : Refines cfg sha256 s) (code : String) :
    (Service.exec (verify cfg sha256 s.now phone purpose code) s.table).1 =
      (replay cfg sha256 (history phone purpose s.log)).verify cfg sha256 s.now code := by
  rw [(verify_refines h.table (h.tail_closed phone purpose) s.now code).1, h.session]

/-- The outcome of `issue`, from the history of its phone. -/
theorem Refines.issue_eq {s : Sys} (h : Refines cfg sha256 s) (draw : Nat) (delivered : Bool) :
    (Service.exec (issue cfg sha256 s.now phone purpose draw delivered) s.table).1 =
      (replay cfg sha256 (history phone purpose s.log)).issue cfg s.now delivered := by
  rw [(issue_refines h.table s.now draw delivered).1, h.session]

/-- The calls of a run are answered lawfully on every line, and issue only codes
the configuration can produce. -/
structure Recorded (cfg : OtpConfig) (sha256 : String → String) (s : Sys) : Prop where
  refines : Refines cfg sha256 s
  lawful : ∀ phone purpose, Lawful cfg sha256 (history phone purpose s.log)
  past : ∀ e ∈ s.log, e.at_ ≤ s.now
  codes : ∀ e ∈ s.log, ∀ i, e.issued? = some i →
    ∃ draw < 10 ^ cfg.codeLength, i.code = persistedCode cfg draw

theorem Recorded.call {s : Sys} (h : Recorded cfg sha256 s) {e : Entry} {t' : OtpTable}
    (hc : Carries cfg sha256 e s.table t') (hat : e.at_ = s.now)
    (hdec : e.Decided cfg sha256 (replay cfg sha256 (history e.phone e.purpose s.log)))
    (hcode : ∀ i, e.issued? = some i →
      ∃ draw < 10 ^ cfg.codeLength, i.code = persistedCode cfg draw) :
    Recorded cfg sha256 { s with table := t', log := e :: s.log } := by
  refine ⟨h.refines.call hc, fun phone purpose => ?_, fun e' he' => ?_, fun e' he' => ?_⟩
  · rw [history_cons]
    split
    · rename_i hon
      obtain ⟨rfl, rfl⟩ := hon
      exact .cons e _ (h.lawful _ _) (fun e' he' => hat ▸ h.past e' (List.mem_filter.1 he').1) hdec
    · exact h.lawful phone purpose
  · rcases List.mem_cons.1 he' with rfl | he'
    · exact Int.le_of_eq hat
    · exact h.past e' he'
  · rcases List.mem_cons.1 he' with rfl | he'
    · exact hcode
    · exact h.codes e' he'

theorem Recorded.step {s s' : Sys} {op : Op} (h : Recorded cfg sha256 s)
    (hs : s.step cfg sha256 op = some s') : Recorded cfg sha256 s' := by
  have hr := h.refines
  cases op with
  | tick d =>
      cases hs
      refine ⟨⟨hr.table, hr.session⟩, h.lawful, fun e he => ?_, h.codes⟩
      exact Int.le_trans (h.past e he) (Int.le_add_of_nonneg_right (Int.natCast_nonneg d))
  | issue phone purpose draw delivered =>
      by_cases hd : draw < 10 ^ cfg.codeLength
      · simp only [Sys.step, if_pos hd, Option.some.injEq] at hs
        subst hs
        refine h.call (issue_refines hr.table s.now draw delivered).2 rfl
          ⟨delivered, hr.issue_eq draw delivered⟩ fun i hi => ⟨draw, hd, ?_⟩
        obtain ⟨_, r, hres⟩ := Entry.issued?_eq_some.1 hi
        exact (Event.issue.inj hres).1.symm
      · simp [Sys.step, hd] at hs
  | verify phone purpose code =>
      cases hs
      refine h.call (verify_refines hr.table (hr.tail_closed phone purpose) s.now code).2 rfl
        (hr.verify_eq code) fun i hi => ?_
      obtain ⟨_, r, hres⟩ := Entry.issued?_eq_some.1 hi
      cases hres

theorem Recorded.initial (now : Instant) : Recorded cfg sha256 (Sys.initial now) :=
  ⟨⟨⟨List.Pairwise.nil, by simp [Sys.initial]⟩, fun _ _ => rfl⟩, fun _ _ => .nil,
    by simp [Sys.initial], by simp [Sys.initial]⟩

theorem recorded_of_run {now : Instant} {ops : List Op} {s : Sys}
    (h : run (Sys.step cfg sha256) (Sys.initial now) ops = some s) : Recorded cfg sha256 s :=
  Reachable.inv (Recorded.initial now) (fun _ _ _ hs he => hs.step he) ⟨ops, h⟩

/-! ## Other phones -/

/-- The second system has seen the calls for one phone and purpose, and only these. -/
structure Mirrors (cfg : OtpConfig) (sha256 : String → String) (phone : String)
    (purpose : OtpPurpose) (s s' : Sys) : Prop where
  recorded : Recorded cfg sha256 s
  recorded' : Recorded cfg sha256 s'
  now : s'.now = s.now
  log : s'.log = history phone purpose s.log

theorem Mirrors.history_eq {s s' : Sys} (h : Mirrors cfg sha256 phone purpose s s') :
    history phone purpose s'.log = history phone purpose s.log := by
  simp [h.log, history]

theorem Mirrors.verify_eq {s s' : Sys} (h : Mirrors cfg sha256 phone purpose s s') (code : String) :
    (Service.exec (verify cfg sha256 s'.now phone purpose code) s'.table).1 =
      (Service.exec (verify cfg sha256 s.now phone purpose code) s.table).1 := by
  rw [h.recorded'.refines.verify_eq, h.recorded.refines.verify_eq, h.history_eq, h.now]

theorem Mirrors.issue_eq {s s' : Sys} (h : Mirrors cfg sha256 phone purpose s s') (draw : Nat)
    (delivered : Bool) :
    (Service.exec (issue cfg sha256 s'.now phone purpose draw delivered) s'.table).1 =
      (Service.exec (issue cfg sha256 s.now phone purpose draw delivered) s.table).1 := by
  rw [h.recorded'.refines.issue_eq, h.recorded.refines.issue_eq, h.history_eq, h.now]

/-- A call for the observed phone is made in both systems. -/
theorem Mirrors.keep {s s' t : Sys} {op : Op} (h : Mirrors cfg sha256 phone purpose s s')
    (hop : op.concerns phone purpose = true) (hs : s.step cfg sha256 op = some t) :
    ∃ t', s'.step cfg sha256 op = some t' ∧ Mirrors cfg sha256 phone purpose t t' := by
  cases op with
  | tick d =>
      have ht := h.recorded.step hs
      cases hs
      have hs' : s'.step cfg sha256 (.tick d) = some _ := rfl
      exact ⟨_, hs', ht, h.recorded'.step hs', by rw [h.now], h.log⟩
  | issue p q draw delivered =>
      obtain ⟨rfl, rfl⟩ : p = phone ∧ q = purpose := by simpa [Op.concerns] using hop
      have ht := h.recorded.step hs
      by_cases hd : draw < 10 ^ cfg.codeLength
      · simp only [Sys.step, if_pos hd, Option.some.injEq] at hs
        subst hs
        have hs' : s'.step cfg sha256 (.issue p q draw delivered) = some _ := if_pos hd
        refine ⟨_, hs', ht, h.recorded'.step hs', h.now, ?_⟩
        have hon (x : Event) : Entry.On p q ⟨p, q, s.now, x⟩ := ⟨rfl, rfl⟩
        simp only [Sys.after]
        rw [history_cons, if_pos (hon _), h.issue_eq, h.now, h.log]
      · simp [Sys.step, hd] at hs
  | verify p q code =>
      obtain ⟨rfl, rfl⟩ : p = phone ∧ q = purpose := by simpa [Op.concerns] using hop
      have ht := h.recorded.step hs
      cases hs
      have hs' : s'.step cfg sha256 (.verify p q code) = some _ := rfl
      have hon (x : Event) : Entry.On p q ⟨p, q, s.now, x⟩ := ⟨rfl, rfl⟩
      refine ⟨_, hs', ht, h.recorded'.step hs', h.now, ?_⟩
      simp only [Sys.after]
      rw [history_cons, if_pos (hon _), h.verify_eq, h.now, h.log]

theorem Mirrors.drop {s s' t : Sys} {op : Op} (h : Mirrors cfg sha256 phone purpose s s')
    (hop : op.concerns phone purpose = false) (hs : s.step cfg sha256 op = some t) :
    Mirrors cfg sha256 phone purpose t s' := by
  have ht := h.recorded.step hs
  cases op with
  | tick d => cases hop
  | issue p q draw delivered =>
      have hne : ¬ (p = phone ∧ q = purpose) := by
        simpa only [Op.concerns, decide_eq_false_iff_not] using hop
      by_cases hd : draw < 10 ^ cfg.codeLength
      · simp only [Sys.step, if_pos hd, Option.some.injEq] at hs
        subst hs
        refine ⟨ht, h.recorded', h.now, ?_⟩
        rw [h.log, Sys.after, history_cons]
        exact (if_neg hne).symm
      · simp [Sys.step, hd] at hs
  | verify p q code =>
      have hne : ¬ (p = phone ∧ q = purpose) := by
        simpa only [Op.concerns, decide_eq_false_iff_not] using hop
      cases hs
      refine ⟨ht, h.recorded', h.now, ?_⟩
      rw [h.log, Sys.after, history_cons]
      exact (if_neg hne).symm

/-! ## What a rejected call changes -/

/-- An update of the two columns a `verify` may write. -/
def WritesCounters (f : OtpEntity → OtpEntity) : Prop :=
  ∀ r, f r = { r with attempts := (f r).attempts, consumedAt := (f r).consumedAt }

theorem verify_frame {now : Instant} {code : String} {t : OtpTable} {e : HttpException}
    (h : (Service.exec (verify cfg sha256 now phone purpose code) t).1 = .error e) :
    (Service.exec (verify cfg sha256 now phone purpose code) t).2 = t ∨
      ∃ otp f, t.findActiveByPhoneAndPurpose phone purpose now = some otp ∧ WritesCounters f ∧
        (Service.exec (verify cfg sha256 now phone purpose code) t).2 =
          t.update (fun r => r.id = otp.id) f := by
  rw [exec_verify] at h ⊢
  by_cases hl : Locked cfg t now phone purpose
  · exact Or.inl (by rw [if_pos hl])
  · simp only [if_neg hl] at h ⊢
    cases hf : t.findActiveByPhoneAndPurpose phone purpose now with
    | none => exact Or.inl rfl
    | some otp =>
        simp only [hf] at h ⊢
        refine Or.inr ?_
        by_cases ha : cfg.maxVerifyAttempts ≤ otp.attempts
        · exact ⟨otp, _, rfl, fun r => rfl, by rw [if_pos ha]; rfl⟩
        · by_cases hh : sha256 code = otp.codeHash
          · simp [ha, hh] at h
          · exact ⟨otp, _, rfl, fun r => rfl, by rw [if_neg ha, if_neg hh]; rfl⟩

theorem issue_frame {now : Instant} {draw : Nat} {delivered : Bool} {t : OtpTable}
    {e : HttpException}
    (h : (Service.exec (issue cfg sha256 now phone purpose draw delivered) t).1 = .error e) :
    (Service.exec (issue cfg sha256 now phone purpose draw delivered) t).2 = t := by
  rw [exec_issue] at h ⊢
  by_cases hl : Locked cfg t now phone purpose
  · rw [if_pos hl]
  · simp only [if_neg hl] at h ⊢
    by_cases hr : cfg.maxIssuesPerWindow ≤ t.countRequestsSince phone purpose (issueSince cfg now)
    · rw [if_pos hr]
    · simp only [if_neg hr] at h ⊢
      cases hc : cooldownError cfg now (t.findLatestByPhoneAndPurpose phone purpose) with
      | some x => rfl
      | none => simp [hc] at h

/-! ## The contract -/

/-- What holds between the history of a phone and the next call for it. -/
structure Contract (cfg : OtpConfig) (sha256 : String → String) (codes : Set String)
    (now₀ : Instant) (ops : List Op) (s : Sys) (phone : String) (purpose : OtpPurpose) : Prop where
  accepts : ∀ code ∈ codes,
    (Service.exec (verify cfg sha256 s.now phone purpose code) s.table).1 = .ok () ↔
      Accepts cfg (history phone purpose s.log) s.now code
  /-- Without the calls for other phones, the same calls have the same results. -/
  isolated : ∃ s', run (Sys.step cfg sha256) (Sys.initial now₀)
      (ops.filter (Op.concerns phone purpose)) = some s' ∧
    s'.log = history phone purpose s.log ∧
    (∀ code, (Service.exec (verify cfg sha256 s'.now phone purpose code) s'.table).1 =
      (Service.exec (verify cfg sha256 s.now phone purpose code) s.table).1) ∧
    ∀ draw delivered,
      (Service.exec (issue cfg sha256 s'.now phone purpose draw delivered) s'.table).1 =
        (Service.exec (issue cfg sha256 s.now phone purpose draw delivered) s.table).1
  verifyFrame : ∀ code e,
    (Service.exec (verify cfg sha256 s.now phone purpose code) s.table).1 = .error e →
    (Service.exec (verify cfg sha256 s.now phone purpose code) s.table).2 = s.table ∨
      ∃ otp f, s.table.findActiveByPhoneAndPurpose phone purpose s.now = some otp ∧
        WritesCounters f ∧ (Service.exec (verify cfg sha256 s.now phone purpose code) s.table).2 =
          s.table.update (fun r => r.id = otp.id) f
  issueFrame : ∀ draw delivered e,
    (Service.exec (issue cfg sha256 s.now phone purpose draw delivered) s.table).1 = .error e →
    (Service.exec (issue cfg sha256 s.now phone purpose draw delivered) s.table).2 = s.table

theorem contract_of_run (cfg : OtpConfig) (sha256 : String → String) (codes : Set String)
    (hsha : Set.InjOn sha256 codes)
    (hcodes : ∀ draw < 10 ^ cfg.codeLength, persistedCode cfg draw ∈ codes) (now₀ : Instant)
    (ops : List Op) (s : Sys)
    (hrun : run (Sys.step cfg sha256) (Sys.initial now₀) ops = some s) (phone : String)
    (purpose : OtpPurpose) : Contract cfg sha256 codes now₀ ops s phone purpose := by
  have hrec : Recorded cfg sha256 s := recorded_of_run hrun
  have hinit : Mirrors cfg sha256 phone purpose (Sys.initial now₀) (Sys.initial now₀) :=
    ⟨Recorded.initial now₀, Recorded.initial now₀, rfl, rfl⟩
  obtain ⟨s', hrun', hmirror⟩ := run_filter (fun _ _ _ _ hR hk he => hR.keep hk he)
    (fun _ _ _ _ hR hk he => hR.drop hk he) hinit hrun
  refine ⟨fun code hcode => ?_, ⟨s', hrun', hmirror.log, hmirror.verify_eq, hmirror.issue_eq⟩,
    fun code e => verify_frame, fun draw delivered e => issue_frame⟩
  rw [hrec.refines.verify_eq]
  refine (hrec.lawful phone purpose).verify_ok_iff fun i hi hhash => hsha hcode ?_ hhash
  obtain ⟨e, he, hei⟩ := List.exists_of_findSome?_eq_some hi
  obtain ⟨draw, hdraw, hc⟩ := hrec.codes e (List.mem_filter.1 he).1 i hei
  exact hc ▸ hcodes draw hdraw

def twoPhones : List Op :=
  [.issue "+963944123456" .userLogin 0 true, .issue "+963933000000" .userLogin 0 false,
    .verify "+963944123456" .userLogin "000000", .tick 1000,
    .verify "+963933000000" .userLogin "123456"]

theorem contract_twoPhones :
    ∃ s, run (Sys.step .test sha256Sample) (Sys.initial 0) twoPhones = some s ∧
      s.log.map Entry.effect =
        [.accepted, .wrong, .issued "123456", .issued "123456"] ∧
      Contract .test sha256Sample {"123456", "000000"} 0 twoPhones s
        "+963944123456" .userLogin := by
  have hrun : (run (Sys.step .test sha256Sample) (Sys.initial 0) twoPhones).map
      (fun s => s.log.map Entry.effect) =
        some [.accepted, .wrong, .issued "123456", .issued "123456"] := by
    decide +kernel
  obtain ⟨s, hs, heff⟩ := Option.map_eq_some_iff.1 hrun
  have hinj : Set.InjOn sha256Sample {"123456", "000000"} := by
    rintro a (rfl | rfl) b (rfl | rfl) <;> simp [sha256Sample]
  have hcodes : ∀ draw < 10 ^ OtpConfig.test.codeLength,
      persistedCode .test draw ∈ ({"123456", "000000"} : Set String) :=
    fun draw _ => Or.inl rfl
  exact ⟨s, hs, heff, contract_of_run .test sha256Sample _ hinj hcodes 0 twoPhones s hs _ _⟩

end NestStarter.Otps
