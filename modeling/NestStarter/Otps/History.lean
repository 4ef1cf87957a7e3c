import NestStarter.Otps.Service

/-! # One-time codes: calls and what they add up to

What the component is for, said without a table. The history of one phone and
purpose is the list of its calls with their results, newest first. Its session
is the list of the codes issued so far, newest first, each with the number of
wrong guesses made against it and whether it can still be used. A session
decides the next call; a history replays into a session.
-/

namespace NestStarter.Otps

/-- What a call asked for and how it ended. An `issue` carries the code it would
store, or stored. -/
inductive Event where
  | issue (code : String) (result : Except HttpException OtpIssueResult)
  | verify (code : String) (result : Except HttpException Unit)

inductive Effect where
  | issued (code : String)
  | accepted
  /-- Rejected as `invalid_code`. -/
  | wrong
  /-- Rejected as `too_many_attempts`. -/
  | exhausted
  | refused
  deriving DecidableEq, Repr

def Event.effect : Event → Effect
  | .issue code (.ok _) => .issued code
  | .issue _ (.error _) => .refused
  | .verify _ (.ok _) => .accepted
  | .verify _ (.error e) =>
      if e = invalidCode then .wrong else if e = tooManyAttempts then .exhausted else .refused

theorem Event.effect_eq_issued {x : Event} {code : String} :
    x.effect = .issued code ↔ ∃ r, x = .issue code (.ok r) := by
  cases x with
  | issue code' result => cases result <;> simp [Event.effect]
  | verify code' result =>
      cases result with
      | ok u => simp [Event.effect]
      | error e =>
          by_cases he : e = invalidCode
          · simp [Event.effect, he]
          · by_cases he' : e = tooManyAttempts <;> simp_all [Event.effect]

theorem Event.effect_eq_wrong {x : Event} :
    x.effect = .wrong ↔ ∃ code, x = .verify code (.error invalidCode) := by
  cases x with
  | issue code result => cases result <;> simp [Event.effect]
  | verify code result =>
      cases result with
      | ok u => simp [Event.effect]
      | error e =>
          by_cases he : e = invalidCode
          · simp [Event.effect, he]
          · by_cases he' : e = tooManyAttempts <;> simp_all [Event.effect]

theorem Event.effect_eq_exhausted {x : Event} :
    x.effect = .exhausted ↔ ∃ code, x = .verify code (.error tooManyAttempts) := by
  have hne : tooManyAttempts ≠ invalidCode := by decide
  cases x with
  | issue code result => cases result <;> simp [Event.effect]
  | verify code result =>
      cases result with
      | ok u => simp [Event.effect]
      | error e =>
          by_cases he : e = tooManyAttempts
          · simp [Event.effect, he, hne]
          · by_cases he' : e = invalidCode <;> simp_all [Event.effect]

structure Entry where
  phone : String
  purpose : OtpPurpose
  at_ : Instant
  event : Event

structure Issued where
  createdAt : Instant
  code : String
  deriving DecidableEq, Repr

/-- A wrong code, and when the code it was compared with had been created. -/
structure Guess where
  at_ : Instant
  codeCreatedAt : Instant
  deriving DecidableEq, Repr

namespace Entry

def On (phone : String) (purpose : OtpPurpose) (e : Entry) : Prop :=
  e.phone = phone ∧ e.purpose = purpose

instance (phone : String) (purpose : OtpPurpose) (e : Entry) : Decidable (e.On phone purpose) := by
  unfold On; infer_instance

def effect (e : Entry) : Effect := e.event.effect

def issued? (e : Entry) : Option Issued :=
  match e.effect with
  | .issued code => some ⟨e.at_, code⟩
  | _ => none

theorem issued?_eq_some {e : Entry} {i : Issued} :
    e.issued? = some i ↔ i.createdAt = e.at_ ∧ ∃ r, e.event = .issue i.code (.ok r) := by
  obtain ⟨createdAt, code⟩ := i
  unfold issued? effect
  split
  · rename_i code' hc
    obtain ⟨r, hr⟩ := Event.effect_eq_issued.1 hc
    simp [hr, eq_comm]
  · rename_i hno
    simp only [reduceCtorEq, false_iff, not_and, not_exists]
    intro _ r hr
    exact hno code (Event.effect_eq_issued.2 ⟨r, hr⟩)

end Entry

def history (phone : String) (purpose : OtpPurpose) (log : List Entry) : List Entry :=
  log.filter fun e => e.On phone purpose

theorem history_cons (phone : String) (purpose : OtpPurpose) (e : Entry) (log : List Entry) :
    history phone purpose (e :: log) =
      if e.On phone purpose then e :: history phone purpose log
      else history phone purpose log := by
  simp only [history, List.filter_cons, decide_eq_true_eq]

def lastIssue (log : List Entry) : Option Issued := log.findSome? Entry.issued?

def sinceIssue (log : List Entry) : List Entry := log.takeWhile fun e => e.issued?.isNone

def guesses : List Entry → List Guess
  | [] => []
  | e :: older =>
      match lastIssue older with
      | some i =>
          if e.effect = .wrong then ⟨e.at_, i.createdAt⟩ :: guesses older else guesses older
      | none => guesses older

/-- How many codes were rejected as invalid since the latest issue. -/
def wrongSinceIssue (log : List Entry) : Nat :=
  (sinceIssue log).countP fun e => e.effect = .wrong

/-- The newest code was used up since the latest issue. -/
def closedSinceIssue (log : List Entry) : Bool :=
  (sinceIssue log).any fun e => e.effect = .accepted ∨ e.effect = .exhausted

/-! ## Sessions -/

structure Code where
  createdAt : Instant
  expiresAt : Instant
  codeHash : String
  wrong : Nat
  closed : Bool
  deriving DecidableEq, Repr

def Code.close (c : Code) : Code := { c with closed := true }

def Code.miss (c : Code) : Code := { c with wrong := c.wrong + 1 }

abbrev Session := List Code

namespace Session

def failuresSince (cs : Session) (since : Instant) : Nat :=
  ((cs.filter fun c => since ≤ c.createdAt).map Code.wrong).sum

def requestsSince (cs : Session) (since : Instant) : Nat := cs.countP fun c => since < c.createdAt

def active (cs : Session) (now : Instant) : Option Code :=
  cs.head?.filter fun c => !c.closed && now < c.expiresAt

variable (cfg : OtpConfig) (sha256 : String → String)

def verify (cs : Session) (now : Instant) (code : String) : Except HttpException Unit :=
  if cfg.phoneMaxFailuresPerWindow ≤ cs.failuresSince (lockSince cfg now) then
    .error (phoneLocked cfg)
  else
    match cs.active now with
    | none => .error noActiveCode
    | some c =>
        if cfg.maxVerifyAttempts ≤ c.wrong then .error tooManyAttempts
        else if sha256 code = c.codeHash then .ok ()
        else .error invalidCode

/-- The resend cooldown, which the newest code imposes while it can be used. -/
def cooldown (now : Instant) (newest : Option Code) : Option HttpException :=
  match newest with
  | some c =>
      if c.closed = false ∧ now - c.createdAt < cfg.cooldownSeconds * 1000 then
        some (resendCooldown cfg (now - c.createdAt))
      else none
  | none => none

def refusal (cs : Session) (now : Instant) : Option HttpException :=
  if cfg.phoneMaxFailuresPerWindow ≤ cs.failuresSince (lockSince cfg now) then
    some (phoneLocked cfg)
  else if cfg.maxIssuesPerWindow ≤ cs.requestsSince (issueSince cfg now) then
    some (issueRateExceeded cfg)
  else cooldown cfg now cs.head?

def issue (cs : Session) (now : Instant) (delivered : Bool) : Except HttpException OtpIssueResult :=
  match cs.refusal cfg now with
  | some e => .error e
  | none => .ok ⟨now + cfg.ttlSeconds * 1000, cfg.cooldownSeconds,
      if delivered then none else some "otp.warnings.dispatch_failed"⟩

end Session

variable (cfg : OtpConfig) (sha256 : String → String)

def Entry.apply (e : Entry) (cs : Session) : Session :=
  match e.effect with
  | .issued code =>
      ⟨e.at_, e.at_ + cfg.ttlSeconds * 1000, sha256 code, 0, false⟩ :: cs.map Code.close
  | .accepted | .exhausted => cs.modifyHead Code.close
  | .wrong => cs.modifyHead Code.miss
  | .refused => cs

def replay (log : List Entry) : Session := log.foldr (Entry.apply cfg sha256) []

/-! ## What a replay remembers -/

section Facts

variable {e : Entry} {log : List Entry}

theorem lastIssue_cons (e : Entry) (log : List Entry) :
    lastIssue (e :: log) = e.issued?.or (lastIssue log) := by
  cases h : e.issued? <;> simp [lastIssue, h]

theorem sinceIssue_cons (e : Entry) (log : List Entry) :
    sinceIssue (e :: log) = if e.issued?.isNone then e :: sinceIssue log else [] := by
  simp [sinceIssue, List.takeWhile_cons]

theorem wrongSinceIssue_cons (e : Entry) (log : List Entry) : wrongSinceIssue (e :: log) =
    if e.issued?.isNone then wrongSinceIssue log + if e.effect = .wrong then 1 else 0 else 0 := by
  rw [wrongSinceIssue, sinceIssue_cons]
  split <;> simp [wrongSinceIssue, List.countP_cons]

theorem closedSinceIssue_cons (e : Entry) (log : List Entry) : closedSinceIssue (e :: log) =
    (e.issued?.isNone &&
      (decide (e.effect = .accepted ∨ e.effect = .exhausted) || closedSinceIssue log)) := by
  rw [closedSinceIssue, sinceIssue_cons]
  cases e.issued? <;> simp [closedSinceIssue]

theorem replay_head? (log : List Entry) :
    (replay cfg sha256 log).head? = (lastIssue log).map fun i =>
    ⟨i.createdAt, i.createdAt + cfg.ttlSeconds * 1000, sha256 i.code, wrongSinceIssue log,
      closedSinceIssue log⟩ := by
  induction log with
  | nil => rfl
  | cons e log ih =>
      have hreplay : replay cfg sha256 (e :: log) = e.apply cfg sha256 (replay cfg sha256 log) :=
        rfl
      rw [hreplay, lastIssue_cons]
      cases he : e.effect with
      | issued code =>
          simp [Entry.apply, Entry.issued?, he, wrongSinceIssue_cons, closedSinceIssue_cons]
      | accepted =>
          simp [Entry.apply, Entry.issued?, he, wrongSinceIssue_cons, closedSinceIssue_cons, ih,
            List.head?_modifyHead, Code.close, Function.comp_def]
      | wrong =>
          simp [Entry.apply, Entry.issued?, he, wrongSinceIssue_cons, closedSinceIssue_cons, ih,
            List.head?_modifyHead, Code.miss, Function.comp_def]
      | exhausted =>
          simp [Entry.apply, Entry.issued?, he, wrongSinceIssue_cons, closedSinceIssue_cons, ih,
            List.head?_modifyHead, Code.close, Function.comp_def]
      | refused =>
          simp [Entry.apply, Entry.issued?, he, wrongSinceIssue_cons, closedSinceIssue_cons, ih]

variable {cfg sha256} in
theorem closed_of_mem_tail_replay (log : List Entry) {c : Code}
    (hc : c ∈ (replay cfg sha256 log).tail) : c.closed = true := by
  induction log with
  | nil => cases hc
  | cons e log ih =>
      have hreplay : replay cfg sha256 (e :: log) = e.apply cfg sha256 (replay cfg sha256 log) :=
        rfl
      rw [hreplay] at hc
      cases he : e.effect with
      | issued code =>
          simp only [Entry.apply, he, List.tail_cons, List.mem_map] at hc
          obtain ⟨c', _, rfl⟩ := hc
          rfl
      | accepted => exact ih (by simpa [Entry.apply, he] using hc)
      | wrong => exact ih (by simpa [Entry.apply, he] using hc)
      | exhausted => exact ih (by simpa [Entry.apply, he] using hc)
      | refused => exact ih (by simpa [Entry.apply, he] using hc)

namespace Session

theorem failuresSince_cons (c : Code) (cs : Session) (since : Instant) :
    failuresSince (c :: cs) since =
      (if since ≤ c.createdAt then c.wrong else 0) + failuresSince cs since := by
  by_cases h : since ≤ c.createdAt <;> simp [failuresSince, h]

theorem failuresSince_map_close (cs : Session) (since : Instant) :
    failuresSince (cs.map Code.close) since = cs.failuresSince since := by
  induction cs with
  | nil => rfl
  | cons c cs ih => simp [failuresSince_cons, ih, Code.close]

theorem failuresSince_close (cs : Session) (since : Instant) :
    failuresSince (cs.modifyHead Code.close) since = cs.failuresSince since := by
  cases cs with
  | nil => rfl
  | cons c cs => simp [failuresSince_cons, Code.close]

theorem failuresSince_miss {cs : Session} {c : Code} (hc : cs.head? = some c) (since : Instant) :
    failuresSince (cs.modifyHead Code.miss) since =
      cs.failuresSince since + if since ≤ c.createdAt then 1 else 0 := by
  cases cs with
  | nil => cases hc
  | cons c' cs =>
      cases hc
      by_cases h : since ≤ c.createdAt <;> simp [failuresSince_cons, Code.miss, h]
      omega

end Session

/-- The lock counts the wrong guesses by the age of the code they were compared with. -/
theorem failuresSince_replay (log : List Entry) (since : Instant) :
    (replay cfg sha256 log).failuresSince since =
      (guesses log).countP fun g => since ≤ g.codeCreatedAt := by
  induction log with
  | nil => rfl
  | cons e log ih =>
      have hreplay : replay cfg sha256 (e :: log) = e.apply cfg sha256 (replay cfg sha256 log) :=
        rfl
      have hhead := replay_head? cfg sha256 log
      rw [hreplay]
      cases he : e.effect with
      | issued code =>
          cases hl : lastIssue log <;>
            simp [Entry.apply, he, guesses, hl, Session.failuresSince_cons,
              Session.failuresSince_map_close, ih]
      | accepted =>
          cases hl : lastIssue log <;>
            simp [Entry.apply, he, guesses, hl, Session.failuresSince_close, ih]
      | wrong =>
          cases hl : lastIssue log with
          | none =>
              have hnil : replay cfg sha256 log = [] := by simpa [hl] using hhead
              simp [Entry.apply, he, guesses, hl, ← ih, hnil]
          | some i =>
              simp only [hl, Option.map_some] at hhead
              simp [Entry.apply, he, guesses, hl, Session.failuresSince_miss hhead, ih,
                List.countP_cons]
      | exhausted =>
          cases hl : lastIssue log <;>
            simp [Entry.apply, he, guesses, hl, Session.failuresSince_close, ih]
      | refused => cases hl : lastIssue log <;> simp [Entry.apply, he, guesses, hl, ih]

/-- The outcome of a `verify`, from the history alone. -/
theorem verify_replay (log : List Entry) (now : Instant) (code : String) :
    (replay cfg sha256 log).verify cfg sha256 now code =
      if cfg.phoneMaxFailuresPerWindow ≤
          (guesses log).countP (fun g => lockSince cfg now ≤ g.codeCreatedAt) then
        .error (phoneLocked cfg)
      else
        match lastIssue log with
        | none => .error noActiveCode
        | some i =>
            if closedSinceIssue log = true ∨ i.createdAt + cfg.ttlSeconds * 1000 ≤ now then
              .error noActiveCode
            else if cfg.maxVerifyAttempts ≤ wrongSinceIssue log then .error tooManyAttempts
            else if sha256 code = sha256 i.code then .ok ()
            else .error invalidCode := by
  rw [Session.verify, failuresSince_replay, Session.active, replay_head?]
  split
  · rfl
  · cases hl : lastIssue log with
    | none => rfl
    | some i =>
        by_cases hopen : closedSinceIssue log = true ∨ i.createdAt + cfg.ttlSeconds * 1000 ≤ now
        · have hdead : (!closedSinceIssue log &&
              decide (now < i.createdAt + cfg.ttlSeconds * 1000)) = false := by
            rcases hopen with hc | hexp
            · simp [hc]
            · simp [Int.not_lt.2 hexp]
          simp [hdead, hopen, Option.filter]
        · obtain ⟨hc, hexp⟩ := not_or.1 hopen
          simp [Option.filter, Bool.eq_false_iff.2 hc, Int.not_le.1 hexp]

end Facts

/-! ## Lawful histories -/

/-- The call was answered as its session decides. -/
def Entry.Decided (e : Entry) (cs : Session) : Prop :=
  match e.event with
  | .issue _ result => ∃ delivered, result = cs.issue cfg e.at_ delivered
  | .verify code result => result = cs.verify cfg sha256 e.at_ code

/-- Calls in the order of time, each answered as the history before it decides. -/
inductive Lawful : List Entry → Prop where
  | nil : Lawful []
  | cons (e : Entry) (log : List Entry) (hlog : Lawful log) (hat : ∀ e' ∈ log, e'.at_ ≤ e.at_)
      (hdec : e.Decided cfg sha256 (replay cfg sha256 log)) : Lawful (e :: log)

variable {cfg sha256} {e : Entry} {log : List Entry}

/-- A wrong guess met a usable code with attempts left, and an open phone. -/
theorem Entry.Decided.wrong (h : e.Decided cfg sha256 (replay cfg sha256 log))
    (he : e.effect = .wrong) :
    (guesses log).countP (fun g => lockSince cfg e.at_ ≤ g.codeCreatedAt) <
        cfg.phoneMaxFailuresPerWindow ∧
      wrongSinceIssue log < cfg.maxVerifyAttempts ∧ ∃ i, lastIssue log = some i := by
  obtain ⟨phone, purpose, at_, event⟩ := e
  obtain ⟨code, rfl⟩ := Event.effect_eq_wrong.1 he
  have hv := (verify_replay cfg sha256 log at_ code).symm.trans h.symm
  split at hv
  · simp [phoneLocked, invalidCode] at hv
  · rename_i hlock
    split at hv
    · simp [noActiveCode, invalidCode] at hv
    · rename_i i hi
      split at hv
      · simp [noActiveCode, invalidCode] at hv
      · split at hv
        · simp [tooManyAttempts, invalidCode] at hv
        · rename_i hmax
          exact ⟨Nat.not_le.1 hlock, Nat.not_le.1 hmax, i, hi⟩

/-- A code rejected for too many attempts has seen them. -/
theorem Entry.Decided.exhausted (h : e.Decided cfg sha256 (replay cfg sha256 log))
    (he : e.effect = .exhausted) : cfg.maxVerifyAttempts ≤ wrongSinceIssue log := by
  obtain ⟨phone, purpose, at_, event⟩ := e
  obtain ⟨code, rfl⟩ := Event.effect_eq_exhausted.1 he
  have hv := (verify_replay cfg sha256 log at_ code).symm.trans h.symm
  split at hv
  · simp [phoneLocked, tooManyAttempts] at hv
  · split at hv
    · simp [noActiveCode, tooManyAttempts] at hv
    · split at hv
      · simp [noActiveCode, tooManyAttempts] at hv
      · split at hv
        · assumption
        · split at hv
          · cases hv
          · simp [invalidCode, tooManyAttempts] at hv

theorem Lawful.exhausted (h : Lawful cfg sha256 log) :
    (∃ e ∈ sinceIssue log, e.effect = .exhausted) →
      cfg.maxVerifyAttempts ≤ wrongSinceIssue log := by
  induction h with
  | nil => simp [sinceIssue]
  | cons e log hlog hat hdec ih =>
      rw [sinceIssue_cons, wrongSinceIssue_cons]
      split
      · rintro ⟨e', he', heff⟩
        rcases List.mem_cons.1 he' with rfl | he'
        · exact Nat.le_add_right_of_le (hdec.exhausted heff)
        · exact Nat.le_add_right_of_le (ih ⟨e', he', heff⟩)
      · simp

/-- The history entitles this code to a login now. -/
def Accepts (cfg : OtpConfig) (log : List Entry) (now : Instant) (code : String) : Prop :=
  ∃ i, lastIssue log = some i ∧ now < i.createdAt + cfg.ttlSeconds * 1000 ∧ code = i.code ∧
    (∀ e ∈ sinceIssue log, e.effect ≠ .accepted) ∧
    wrongSinceIssue log < cfg.maxVerifyAttempts ∧
    (guesses log).countP (fun g => lockSince cfg now ≤ g.codeCreatedAt) <
      cfg.phoneMaxFailuresPerWindow

theorem closedSinceIssue_eq_false {log : List Entry} : closedSinceIssue log = false ↔
    (∀ e ∈ sinceIssue log, e.effect ≠ .accepted) ∧ ∀ e ∈ sinceIssue log, e.effect ≠ .exhausted := by
  simp only [closedSinceIssue, List.any_eq_false, decide_eq_true_eq, not_or]
  exact ⟨fun h => ⟨fun e he => (h e he).1, fun e he => (h e he).2⟩,
    fun h e he => ⟨h.1 e he, h.2 e he⟩⟩

/-- With attempts left, only a success can have used the newest code up. -/
theorem Lawful.closedSinceIssue_iff (h : Lawful cfg sha256 log)
    (hwrong : wrongSinceIssue log < cfg.maxVerifyAttempts) :
    closedSinceIssue log = false ↔ ∀ e ∈ sinceIssue log, e.effect ≠ .accepted := by
  rw [closedSinceIssue_eq_false]
  refine ⟨fun hc => hc.1, fun hc => ⟨hc, fun e he hex => ?_⟩⟩
  exact absurd (h.exhausted ⟨e, he, hex⟩) (Nat.not_le.2 hwrong)

theorem Lawful.verify_ok_iff (h : Lawful cfg sha256 log) {now : Instant} {code : String}
    (hinj : ∀ i, lastIssue log = some i → sha256 code = sha256 i.code → code = i.code) :
    (replay cfg sha256 log).verify cfg sha256 now code = .ok () ↔ Accepts cfg log now code := by
  rw [verify_replay, Accepts]
  by_cases hlock : cfg.phoneMaxFailuresPerWindow ≤
      (guesses log).countP (fun g => lockSince cfg now ≤ g.codeCreatedAt)
  · simp [hlock]
  · rw [if_neg hlock]
    cases hl : lastIssue log with
    | none => simp
    | some i =>
        simp only [Option.some.injEq, exists_eq_left', Nat.not_le.1 hlock, and_true]
        by_cases hwrong : wrongSinceIssue log < cfg.maxVerifyAttempts
        · rw [← h.closedSinceIssue_iff hwrong]
          by_cases hdead : closedSinceIssue log = true ∨ i.createdAt + cfg.ttlSeconds * 1000 ≤ now
          · rw [if_pos hdead]
            refine ⟨fun hx => (by cases hx), fun hx => ?_⟩
            rcases hdead with hc | hexp
            · simp [hc] at hx
            · exact absurd hx.1 (Int.not_lt.2 hexp)
          · obtain ⟨hc, hexp⟩ := not_or.1 hdead
            rw [if_neg hdead, if_neg (Nat.not_le.2 hwrong)]
            by_cases hcode : code = i.code
            · simp [hcode, Int.not_le.1 hexp, Bool.eq_false_iff.2 hc, hwrong]
            · have hhash : sha256 code ≠ sha256 i.code := fun hh => hcode (hinj i hl hh)
              simp [hhash, hcode]
        · simp only [hwrong, Nat.not_lt.1 hwrong, if_true, and_false, iff_false]
          split <;> simp

end NestStarter.Otps
