import Mathlib.Algebra.GroupWithZero.Nat
import Mathlib.Data.List.MinMax
import NestStarter.Domain

/-! # One-time codes: table, statements and service

The `otps` table with the statements of `OtpRepository`, and `OtpService` with
nobody else at work. A call reads one clock value. The random draw behind a code
and the outcome of the WhatsApp dispatch are arguments, and `sha256` is a
parameter.
-/

namespace NestStarter.Otps

inductive OtpPurpose where
  | userLogin
  deriving DecidableEq, Repr

/-- `OtpEntity`, less its `updatedAt` stamp, which nothing reads. -/
structure OtpEntity where
  id : Nat
  phone : String
  codeHash : String
  purpose : OtpPurpose
  expiresAt : Instant
  attempts : Nat := 0
  consumedAt : Option Instant := none
  createdAt : Instant
  deriving DecidableEq, Repr

structure NewOtp where
  phone : String
  purpose : OtpPurpose
  codeHash : String
  expiresAt : Instant
  attempts : Nat := 0
  deriving DecidableEq, Repr

/-- The row an `INSERT` stores; `created_at` is filled with it. -/
def NewOtp.row (n : NewOtp) (id : Nat) (createdAt : Instant) : OtpEntity :=
  { id, phone := n.phone, codeHash := n.codeHash, purpose := n.purpose, expiresAt := n.expiresAt,
    attempts := n.attempts, createdAt }

structure OtpTable where
  rows : List OtpEntity := []
  nextId : Nat := 1
  deriving DecidableEq, Repr

/-- The settings `OtpService` reads, as `otpSchema` accepts them. -/
structure OtpConfig where
  ttlSeconds : Nat
  cooldownSeconds : Nat
  maxVerifyAttempts : Nat
  codeLength : Nat
  phoneLockWindowSeconds : Nat
  phoneMaxFailuresPerWindow : Nat
  issueWindowSeconds : Nat
  maxIssuesPerWindow : Nat
  otpFixedCode : Option String := none
  ttl_pos : 0 < ttlSeconds := by decide
  cooldown_pos : 0 < cooldownSeconds := by decide
  maxVerifyAttempts_pos : 0 < maxVerifyAttempts := by decide
  codeLength_bounds : 4 ≤ codeLength ∧ codeLength ≤ 10 := by decide
  phoneLockWindow_pos : 0 < phoneLockWindowSeconds := by decide
  phoneMaxFailures_pos : 0 < phoneMaxFailuresPerWindow := by decide
  issueWindow_pos : 0 < issueWindowSeconds := by decide
  maxIssues_pos : 0 < maxIssuesPerWindow := by decide

/-- `OTP_FIXED_CODE || undefined`: an empty setting is none. -/
def OtpConfig.fixedCode (cfg : OtpConfig) : Option String := cfg.otpFixedCode.filter (· ≠ "")

/-- The settings of the service's own tests, with the fixed development code. -/
def OtpConfig.test : OtpConfig where
  ttlSeconds := 300
  cooldownSeconds := 60
  maxVerifyAttempts := 5
  codeLength := 6
  phoneLockWindowSeconds := 900
  phoneMaxFailuresPerWindow := 10
  issueWindowSeconds := 600
  maxIssuesPerWindow := 5
  otpFixedCode := some "123456"

/-- Two failures in ten seconds. -/
def OtpConfig.tenSeconds : OtpConfig where
  ttlSeconds := 100
  cooldownSeconds := 1
  maxVerifyAttempts := 2
  codeLength := 6
  phoneLockWindowSeconds := 10
  phoneMaxFailuresPerWindow := 2
  issueWindowSeconds := 600
  maxIssuesPerWindow := 5
  otpFixedCode := some "123456"

namespace OtpTable

variable (t : OtpTable)

def Matches (phone : String) (purpose : OtpPurpose) (r : OtpEntity) : Prop :=
  r.phone = phone ∧ r.purpose = purpose

instance (phone : String) (purpose : OtpPurpose) (r : OtpEntity) :
    Decidable (Matches phone purpose r) := by
  unfold Matches; infer_instance

def save (n : NewOtp) (now : Instant) : OtpTable where
  rows := t.rows ++ [n.row t.nextId now]
  nextId := t.nextId + 1

def findActiveByPhoneAndPurpose (phone : String) (purpose : OtpPurpose) (now : Instant) :
    Option OtpEntity :=
  (t.rows.filter fun r => Matches phone purpose r ∧ r.consumedAt = none ∧ now < r.expiresAt).argmax
    OtpEntity.id

def findLatestByPhoneAndPurpose (phone : String) (purpose : OtpPurpose) : Option OtpEntity :=
  (t.rows.filter fun r => Matches phone purpose r).argmax OtpEntity.id

def update (p : OtpEntity → Prop) [DecidablePred p] (f : OtpEntity → OtpEntity) : OtpTable :=
  { t with rows := t.rows.map fun r => if p r then f r else r }

def incrementAttempts (id : Nat) : OtpTable :=
  t.update (fun r => r.id = id) fun r => { r with attempts := r.attempts + 1 }

def markConsumed (id : Nat) (at_ : Instant) : OtpTable :=
  t.update (fun r => r.id = id) fun r => { r with consumedAt := some at_ }

def invalidateActive (phone : String) (purpose : OtpPurpose) (now : Instant) : OtpTable :=
  t.update (fun r => Matches phone purpose r ∧ r.consumedAt = none)
    fun r => { r with consumedAt := some now }

def countRequestsSince (phone : String) (purpose : OtpPurpose) (since : Instant) : Nat :=
  t.rows.countP fun r => Matches phone purpose r ∧ since < r.createdAt

def deleteCreatedBefore (cutoff : Instant) : OtpTable :=
  { t with rows := t.rows.filter fun r => ¬ r.createdAt < cutoff }

def sumFailedAttemptsSince (phone : String) (purpose : OtpPurpose) (since : Instant) : Nat :=
  ((t.rows.filter fun r => Matches phone purpose r ∧ since ≤ r.createdAt).map
    OtpEntity.attempts).sum

end OtpTable

def noActiveCode : HttpException := ⟨.unauthorized, "otp.errors.no_active_code", []⟩

def tooManyAttempts : HttpException := ⟨.unauthorized, "otp.errors.too_many_attempts", []⟩

def invalidCode : HttpException := ⟨.unauthorized, "otp.errors.invalid_code", []⟩

def minutes (seconds : Nat) : Nat := (seconds + 59) / 60

variable (cfg : OtpConfig)

def phoneLocked : HttpException :=
  ⟨.unauthorized, "otp.errors.phone_locked", [("minutes", minutes cfg.phoneLockWindowSeconds)]⟩

def issueRateExceeded : HttpException :=
  ⟨.badRequest, "otp.errors.issue_rate_exceeded", [("minutes", minutes cfg.issueWindowSeconds)]⟩

/-- The exception of the resend cooldown, with the seconds left rounded up. -/
def resendCooldown (age : Int) : HttpException :=
  ⟨.badRequest, "otp.errors.resend_cooldown",
    [("seconds", (cfg.cooldownSeconds * 1000 - age + 999) / 1000)]⟩

def lockSince (now : Instant) : Instant := now - cfg.phoneLockWindowSeconds * 1000

def issueSince (now : Instant) : Instant := now - cfg.issueWindowSeconds * 1000

def cooldownError (now : Instant) (latest : Option OtpEntity) : Option HttpException :=
  match latest with
  | some latest =>
      if latest.consumedAt = none ∧ now - latest.createdAt < cfg.cooldownSeconds * 1000 then
        some (resendCooldown cfg (now - latest.createdAt))
      else none
  | none => none

def generateCode (n : Nat) : String :=
  String.ofList ((toString n).toList.leftpad cfg.codeLength '0')

/-- The code `issue` stores the digest of: the fixed code where one is set. -/
def persistedCode (n : Nat) : String := cfg.fixedCode.getD (generateCode cfg n)

/-- `hashesEqual`; equal bytes are equal strings. -/
def hashesEqual (a b : String) : Bool :=
  if a.length ≠ b.length then false else a == b

@[simp] theorem hashesEqual_iff (a b : String) : hashesEqual a b = true ↔ a = b := by
  unfold hashesEqual
  constructor
  · intro h
    split at h
    · cases h
    · exact beq_iff_eq.1 h
  · rintro rfl
    simp

/-! ## The service, one call at a time -/

structure OtpIssueResult where
  expiresAt : Instant
  cooldownSeconds : Nat
  dispatchWarning : Option String := none
  deriving DecidableEq, Repr

abbrev OtpM (α : Type) := Service OtpTable α

def assertPhoneNotLocked (now : Instant) (phone : String) (purpose : OtpPurpose) : OtpM Unit := do
  let failed ← Service.statement fun t =>
    (t.sumFailedAttemptsSince phone purpose (lockSince cfg now), t)
  if failed ≥ cfg.phoneMaxFailuresPerWindow then throw (phoneLocked cfg)

def assertIssueRateNotExceeded (now : Instant) (phone : String) (purpose : OtpPurpose) :
    OtpM Unit := do
  let count ← Service.statement fun t =>
    (t.countRequestsSince phone purpose (issueSince cfg now), t)
  if count ≥ cfg.maxIssuesPerWindow then throw (issueRateExceeded cfg)

variable (sha256 : String → String)

def newOtp (now : Instant) (phone : String) (purpose : OtpPurpose) (code : String) : NewOtp :=
  { phone, purpose, codeHash := sha256 code, expiresAt := now + cfg.ttlSeconds * 1000 }

/-- `OtpService.issue`. `delivered` tells whether the dispatch went through; a
failure only adds a warning to the result. -/
def issue (now : Instant) (phone : String) (purpose : OtpPurpose) (draw : Nat) (delivered : Bool) :
    OtpM OtpIssueResult := do
  assertPhoneNotLocked cfg now phone purpose
  assertIssueRateNotExceeded cfg now phone purpose
  let latest ← Service.statement fun t => (t.findLatestByPhoneAndPurpose phone purpose, t)
  match cooldownError cfg now latest with
  | some e => throw e
  | none =>
      Service.statement fun t => ((), t.invalidateActive phone purpose now)
      let otp := newOtp cfg sha256 now phone purpose (persistedCode cfg draw)
      Service.statement fun t => ((), t.save otp now)
      let dispatchWarning := if delivered then none else some "otp.warnings.dispatch_failed"
      return ⟨otp.expiresAt, cfg.cooldownSeconds, dispatchWarning⟩

def verify (now : Instant) (phone : String) (purpose : OtpPurpose) (code : String) :
    OtpM Unit := do
  assertPhoneNotLocked cfg now phone purpose
  let otp ← Service.statement fun t => (t.findActiveByPhoneAndPurpose phone purpose now, t)
  match otp with
  | none => throw noActiveCode
  | some otp =>
      if otp.attempts ≥ cfg.maxVerifyAttempts then
        Service.statement fun t => ((), t.markConsumed otp.id now)
        throw tooManyAttempts
      if !hashesEqual (sha256 code) otp.codeHash then
        Service.statement fun t => ((), t.incrementAttempts otp.id)
        throw invalidCode
      Service.statement fun t => ((), t.markConsumed otp.id now)

def pruneStaleOtps (now : Instant) : OtpM Unit :=
  Service.statement fun t => ((), t.deleteCreatedBefore
    (now - max cfg.phoneLockWindowSeconds cfg.issueWindowSeconds * 1000))

/-- The lock test, as a function of the table. -/
def Locked (t : OtpTable) (now : Instant) (phone : String) (purpose : OtpPurpose) : Prop :=
  cfg.phoneMaxFailuresPerWindow ≤ t.sumFailedAttemptsSince phone purpose (lockSince cfg now)

instance (t : OtpTable) (now : Instant) (phone : String) (purpose : OtpPurpose) :
    Decidable (Locked cfg t now phone purpose) := by
  unfold Locked; infer_instance

variable {cfg sha256}

@[simp] theorem exec_assertPhoneNotLocked (now : Instant) (phone : String) (purpose : OtpPurpose)
    (t : OtpTable) : Service.exec (assertPhoneNotLocked cfg now phone purpose) t =
      if Locked cfg t now phone purpose then (.error (phoneLocked cfg), t) else (.ok (), t) := by
  simp [assertPhoneNotLocked, Locked]

@[simp] theorem exec_assertIssueRateNotExceeded (now : Instant) (phone : String)
    (purpose : OtpPurpose) (t : OtpTable) :
    Service.exec (assertIssueRateNotExceeded cfg now phone purpose) t =
      if cfg.maxIssuesPerWindow ≤ t.countRequestsSince phone purpose (issueSince cfg now) then
        (.error (issueRateExceeded cfg), t)
      else (.ok (), t) := by
  simp [assertIssueRateNotExceeded]

theorem exec_verify (now : Instant) (phone : String) (purpose : OtpPurpose) (code : String)
    (t : OtpTable) : Service.exec (verify cfg sha256 now phone purpose code) t =
      if Locked cfg t now phone purpose then (.error (phoneLocked cfg), t)
      else
        match t.findActiveByPhoneAndPurpose phone purpose now with
        | none => (.error noActiveCode, t)
        | some otp =>
            if cfg.maxVerifyAttempts ≤ otp.attempts then
              (.error tooManyAttempts, t.markConsumed otp.id now)
            else if sha256 code = otp.codeHash then (.ok (), t.markConsumed otp.id now)
            else (.error invalidCode, t.incrementAttempts otp.id) := by
  by_cases hl : Locked cfg t now phone purpose
  · simp [verify, hl]
  · cases hf : t.findActiveByPhoneAndPurpose phone purpose now with
    | none => simp [verify, hl, hf]
    | some otp =>
        by_cases ha : cfg.maxVerifyAttempts ≤ otp.attempts
        · simp [verify, hl, hf, ha]
        · by_cases hh : sha256 code = otp.codeHash <;> simp [verify, hl, hf, ha, hh]

theorem exec_issue (now : Instant) (phone : String) (purpose : OtpPurpose) (draw : Nat)
    (delivered : Bool) (t : OtpTable) :
    Service.exec (issue cfg sha256 now phone purpose draw delivered) t =
      if Locked cfg t now phone purpose then (.error (phoneLocked cfg), t)
      else if cfg.maxIssuesPerWindow ≤ t.countRequestsSince phone purpose (issueSince cfg now) then
        (.error (issueRateExceeded cfg), t)
      else
        match cooldownError cfg now (t.findLatestByPhoneAndPurpose phone purpose) with
        | some e => (.error e, t)
        | none =>
            (.ok ⟨now + cfg.ttlSeconds * 1000, cfg.cooldownSeconds,
                if delivered then none else some "otp.warnings.dispatch_failed"⟩,
              (t.invalidateActive phone purpose now).save
                (newOtp cfg sha256 now phone purpose (persistedCode cfg draw)) now) := by
  by_cases hl : Locked cfg t now phone purpose
  · simp [issue, hl]
  · by_cases hr : cfg.maxIssuesPerWindow ≤ t.countRequestsSince phone purpose (issueSince cfg now)
    · simp [issue, hl, hr]
    · cases hc : cooldownError cfg now (t.findLatestByPhoneAndPurpose phone purpose) with
      | none => simp [issue, hl, hr, hc, newOtp]
      | some e => simp [issue, hl, hr, hc]

end NestStarter.Otps
