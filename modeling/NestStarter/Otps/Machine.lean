import NestStarter.Core.Machine
import NestStarter.Otps.Table

/-! # The OTP service under concurrency

Any number of clients, each inside one `issue`, `verify` or `pruneStaleOtps`
call after another. Every statement of `OtpRepository` commits on its own and
takes place in one step; between two statements of a call the clock moves and
the other clients run. What a call has read may be out of date when it acts on
it, and that is what these modules are about.

Three fields of the shared state are there for the record and no step reads
them: the rows that wrong codes were compared with, the increments that are
awaited for them, and the rows that let a `verify` succeed.
-/

namespace NestStarter.Otps

open NestStarter.Core

inductive Call where
  | issue (phone : String) (purpose : OtpPurpose)
  | verify (phone : String) (purpose : OtpPurpose) (code : String)
  | pruneStaleOtps
  deriving DecidableEq, Repr

inductive Pc where
  | idle
  /-- `assertPhoneNotLocked`, before its `SELECT`; `code` is `none` in an `issue`. -/
  | sum (phone : String) (purpose : OtpPurpose) (code : Option String) (since : Instant)
  | summed (phone : String) (purpose : OtpPurpose) (code : Option String) (failed : Nat)
  /-- `verify`, before `findActiveByPhoneAndPurpose`. -/
  | find (phone : String) (purpose : OtpPurpose) (code : String) (now : Instant)
  | found (code : String) (otp : Option OtpEntity)
  /-- Before `markConsumed`; `accepted` tells a matching code from an exhausted one. -/
  | mark (id : Nat) (at_ : Instant) (accepted : Bool)
  | increment (id : Nat)
  /-- `issue`, before `countRequestsSince`. -/
  | count (phone : String) (purpose : OtpPurpose) (since : Instant)
  | counted (phone : String) (purpose : OtpPurpose) (count : Nat)
  | latest (phone : String) (purpose : OtpPurpose)
  | latestRead (phone : String) (purpose : OtpPurpose) (row : Option OtpEntity)
  | invalidate (phone : String) (purpose : OtpPurpose) (now : Instant)
  | invalidated (phone : String) (purpose : OtpPurpose)
  | insert (otp : NewOtp)
  | delete (cutoff : Instant)
  deriving DecidableEq, Repr

structure Shared where
  table : OtpTable := {}
  now : Instant
  compared : List Nat := []
  /-- A client and the row whose `attempts` it is about to increment. -/
  inFlight : List (Nat × Nat) := []
  verified : List Nat := []
  deriving DecidableEq, Repr

abbrev State := Pool Shared Pc

inductive Action where
  | tick (d : Nat)
  | call (k : Call)
  /-- The awaited statement takes place. -/
  | exec
  /-- The code after a statement runs; `issue` draws its code here. -/
  | resume (draw : Nat)
  deriving DecidableEq, Repr

variable (cfg : OtpConfig) (sha256 : String → String)

def begin (now : Instant) : Call → Pc
  | .issue phone purpose => .sum phone purpose none (lockSince cfg now)
  | .verify phone purpose code => .sum phone purpose (some code) (lockSince cfg now)
  | .pruneStaleOtps =>
      .delete (now - max cfg.phoneLockWindowSeconds cfg.issueWindowSeconds * 1000)

inductive VerifyBranch where
  | exhausted
  | accept
  | reject
  deriving DecidableEq, Repr

def verifyBranch (code : String) (otp : OtpEntity) : VerifyBranch :=
  if otp.attempts ≥ cfg.maxVerifyAttempts then .exhausted
  else if !hashesEqual (sha256 code) otp.codeHash then .reject
  else .accept

/-- The awaited statement: its effect, and where the client stands after it. -/
def statement (c : Nat) (sh : Shared) : Pc → Option (Shared × Pc)
  | .sum phone purpose code since =>
      some (sh, .summed phone purpose code (sh.table.sumFailedAttemptsSince phone purpose since))
  | .find phone purpose code now =>
      some (sh, .found code (sh.table.findActiveByPhoneAndPurpose phone purpose now))
  | .mark id at_ accepted =>
      some ({ sh with
        table := sh.table.markConsumed id at_
        verified := if accepted then id :: sh.verified else sh.verified }, .idle)
  | .increment id =>
      some ({ sh with
        table := sh.table.incrementAttempts id
        inFlight := sh.inFlight.erase (c, id) }, .idle)
  | .count phone purpose since =>
      some (sh, .counted phone purpose (sh.table.countRequestsSince phone purpose since))
  | .latest phone purpose =>
      some (sh, .latestRead phone purpose (sh.table.findLatestByPhoneAndPurpose phone purpose))
  | .invalidate phone purpose now =>
      some ({ sh with table := sh.table.invalidateActive phone purpose now },
        .invalidated phone purpose)
  | .insert otp => some ({ sh with table := sh.table.save otp sh.now }, .idle)
  | .delete cutoff => some ({ sh with table := sh.table.deleteCreatedBefore cutoff }, .idle)
  | _ => none

/-- The code between a statement's result and the next statement. -/
def continue_ (c : Nat) (sh : Shared) (draw : Nat) : Pc → Option (Shared × Pc)
  | .summed phone purpose code failed =>
      some (sh,
        if failed ≥ cfg.phoneMaxFailuresPerWindow then .idle
        else
          match code with
          | some code => .find phone purpose code sh.now
          | none => .count phone purpose (issueSince cfg sh.now))
  | .found _ none => some (sh, .idle)
  | .found code (some otp) =>
      match verifyBranch cfg sha256 code otp with
      | .exhausted => some (sh, .mark otp.id sh.now false)
      | .accept => some (sh, .mark otp.id sh.now true)
      | .reject =>
          some ({ sh with
            compared := otp.id :: sh.compared
            inFlight := (c, otp.id) :: sh.inFlight }, .increment otp.id)
  | .counted phone purpose count =>
      some (sh, if count ≥ cfg.maxIssuesPerWindow then .idle else .latest phone purpose)
  | .latestRead phone purpose row =>
      some (sh,
        match cooldownError cfg sh.now row with
        | some _ => .idle
        | none => .invalidate phone purpose sh.now)
  | .invalidated phone purpose =>
      if draw < 10 ^ cfg.codeLength then
        some (sh, .insert (newOtp cfg sha256 sh.now phone purpose (persistedCode cfg draw)))
      else none
  | _ => none

def move (c : Nat) (sh : Shared) (pc : Pc) : Action → Option (Shared × Pc)
  | .tick d => some ({ sh with now := sh.now + d }, pc)
  | .call k =>
      match pc with
      | .idle => some (sh, begin cfg sh.now k)
      | _ => none
  | .exec => statement c sh pc
  | .resume draw => continue_ cfg sha256 c sh draw pc

def initial (now : Instant) : State := ⟨{ now }, fun _ => .idle⟩

def step : State → Nat × Action → Option State := Pool.step (move cfg sha256)

/-! ## Rules -/

/-- The steps that only read, or only move the client on. -/
inductive Quiet (cfg : OtpConfig) (sha256 : String → String) (sh : Shared) : Pc → Pc → Prop where
  | call (k : Call) : Quiet cfg sha256 sh .idle (begin cfg sh.now k)
  | sum (phone purpose code since) : Quiet cfg sha256 sh (.sum phone purpose code since)
      (.summed phone purpose code (sh.table.sumFailedAttemptsSince phone purpose since))
  | locked (phone purpose code failed) :
      Quiet cfg sha256 sh (.summed phone purpose code failed) .idle
  | toFind (phone purpose code failed) :
      Quiet cfg sha256 sh (.summed phone purpose (some code) failed)
        (.find phone purpose code sh.now)
  | toCount (phone purpose failed) : Quiet cfg sha256 sh (.summed phone purpose none failed)
      (.count phone purpose (issueSince cfg sh.now))
  | noActive (code) : Quiet cfg sha256 sh (.found code none) .idle
  | count (phone purpose since) : Quiet cfg sha256 sh (.count phone purpose since)
      (.counted phone purpose (sh.table.countRequestsSince phone purpose since))
  | tooMany (phone purpose count) : Quiet cfg sha256 sh (.counted phone purpose count) .idle
  | toLatest (phone purpose count) :
      Quiet cfg sha256 sh (.counted phone purpose count) (.latest phone purpose)
  | latest (phone purpose) : Quiet cfg sha256 sh (.latest phone purpose)
      (.latestRead phone purpose (sh.table.findLatestByPhoneAndPurpose phone purpose))
  | cooldown (phone purpose row) : Quiet cfg sha256 sh (.latestRead phone purpose row) .idle
  | toInvalidate (phone purpose row) :
      Quiet cfg sha256 sh (.latestRead phone purpose row) (.invalidate phone purpose sh.now)
  | toInsert (phone purpose draw) : Quiet cfg sha256 sh (.invalidated phone purpose)
      (.insert (newOtp cfg sha256 sh.now phone purpose (persistedCode cfg draw)))

inductive Moves (cfg : OtpConfig) (sha256 : String → String) (c : Nat) :
    Shared → Pc → Action → Shared → Pc → Prop where
  | tick (sh : Shared) (pc : Pc) (d : Nat) :
      Moves cfg sha256 c sh pc (.tick d) { sh with now := sh.now + d } pc
  | quiet (sh : Shared) (pc pc' : Pc) (a : Action) (h : Quiet cfg sha256 sh pc pc') :
      Moves cfg sha256 c sh pc a sh pc'
  | find (sh : Shared) (phone : String) (purpose : OtpPurpose) (code : String) (now : Instant) :
      Moves cfg sha256 c sh (.find phone purpose code now) .exec sh
        (.found code (sh.table.findActiveByPhoneAndPurpose phone purpose now))
  | exhausted (sh : Shared) (code : String) (otp : OtpEntity) (draw : Nat)
      (h : verifyBranch cfg sha256 code otp = .exhausted) :
      Moves cfg sha256 c sh (.found code (some otp)) (.resume draw) sh (.mark otp.id sh.now false)
  | accept (sh : Shared) (code : String) (otp : OtpEntity) (draw : Nat)
      (h : verifyBranch cfg sha256 code otp = .accept) :
      Moves cfg sha256 c sh (.found code (some otp)) (.resume draw) sh (.mark otp.id sh.now true)
  | reject (sh : Shared) (code : String) (otp : OtpEntity) (draw : Nat)
      (h : verifyBranch cfg sha256 code otp = .reject) :
      Moves cfg sha256 c sh (.found code (some otp)) (.resume draw)
        { sh with
          compared := otp.id :: sh.compared
          inFlight := (c, otp.id) :: sh.inFlight } (.increment otp.id)
  | mark (sh : Shared) (id : Nat) (at_ : Instant) (accepted : Bool) :
      Moves cfg sha256 c sh (.mark id at_ accepted) .exec
        { sh with
          table := sh.table.markConsumed id at_
          verified := if accepted then id :: sh.verified else sh.verified } .idle
  | increment (sh : Shared) (id : Nat) :
      Moves cfg sha256 c sh (.increment id) .exec
        { sh with
          table := sh.table.incrementAttempts id
          inFlight := sh.inFlight.erase (c, id) } .idle
  | invalidate (sh : Shared) (phone : String) (purpose : OtpPurpose) (now : Instant) :
      Moves cfg sha256 c sh (.invalidate phone purpose now) .exec
        { sh with table := sh.table.invalidateActive phone purpose now }
        (.invalidated phone purpose)
  | insert (sh : Shared) (otp : NewOtp) :
      Moves cfg sha256 c sh (.insert otp) .exec { sh with table := sh.table.save otp sh.now } .idle
  | delete (sh : Shared) (cutoff : Instant) :
      Moves cfg sha256 c sh (.delete cutoff) .exec
        { sh with table := sh.table.deleteCreatedBefore cutoff } .idle

variable {cfg sha256}

theorem statement_spec {c : Nat} {sh sh' : Shared} {pc pc' : Pc}
    (h : statement c sh pc = some (sh', pc')) :
    Moves cfg sha256 c sh pc .exec sh' pc' := by
  cases pc with
  | sum phone purpose code since => cases h; exact .quiet _ _ _ _ (.sum ..)
  | find phone purpose code now => cases h; exact .find ..
  | mark id at_ accepted => cases h; exact .mark ..
  | increment id => cases h; exact .increment ..
  | count phone purpose since => cases h; exact .quiet _ _ _ _ (.count ..)
  | latest phone purpose => cases h; exact .quiet _ _ _ _ (.latest ..)
  | invalidate phone purpose now => cases h; exact .invalidate ..
  | insert otp => cases h; exact .insert ..
  | delete cutoff => cases h; exact .delete ..
  | _ => cases h

theorem continue_spec {c : Nat} {sh sh' : Shared} {pc pc' : Pc} {draw : Nat}
    (h : continue_ cfg sha256 c sh draw pc = some (sh', pc')) :
    Moves cfg sha256 c sh pc (.resume draw) sh' pc' := by
  cases pc with
  | summed phone purpose code failed =>
      cases h
      split
      · exact .quiet _ _ _ _ (.locked ..)
      · cases code with
        | none => exact .quiet _ _ _ _ (.toCount ..)
        | some code => exact .quiet _ _ _ _ (.toFind ..)
  | found code otp =>
      cases otp with
      | none => cases h; exact .quiet _ _ _ _ (.noActive ..)
      | some otp =>
          cases hb : verifyBranch cfg sha256 code otp <;> simp only [continue_, hb] at h <;> cases h
          · exact .exhausted _ _ _ _ hb
          · exact .accept _ _ _ _ hb
          · exact .reject _ _ _ _ hb
  | counted phone purpose count =>
      cases h
      split
      · exact .quiet _ _ _ _ (.tooMany ..)
      · exact .quiet _ _ _ _ (.toLatest ..)
  | latestRead phone purpose row =>
      cases h
      split
      · exact .quiet _ _ _ _ (.cooldown ..)
      · exact .quiet _ _ _ _ (.toInvalidate ..)
  | invalidated phone purpose =>
      by_cases hd : draw < 10 ^ cfg.codeLength
      · simp only [continue_, if_pos hd] at h
        cases h
        exact .quiet _ _ _ _ (.toInsert _ _ draw)
      · simp [continue_, hd] at h
  | _ => cases h

theorem move_spec {c : Nat} {sh sh' : Shared} {pc pc' : Pc} {a : Action}
    (h : move cfg sha256 c sh pc a = some (sh', pc')) : Moves cfg sha256 c sh pc a sh' pc' := by
  cases a with
  | tick d => cases h; exact .tick ..
  | call k => cases pc <;> cases h; exact .quiet _ _ _ _ (.call k)
  | exec => exact statement_spec h
  | resume draw => exact continue_spec h

/-- What a row keeps and how it can change while it is stored. -/
structure Evolves (r r' : OtpEntity) : Prop where
  id : r'.id = r.id
  phone : r'.phone = r.phone
  purpose : r'.purpose = r.purpose
  createdAt : r'.createdAt = r.createdAt
  expiresAt : r'.expiresAt = r.expiresAt
  consumed : r'.consumedAt = none → r.consumedAt = none

theorem Evolves.refl (r : OtpEntity) : Evolves r r := ⟨rfl, rfl, rfl, rfl, rfl, fun h => h⟩

theorem exists_evolves_of_mem_update {t : OtpTable} {p : OtpEntity → Prop} [DecidablePred p]
    {f : OtpEntity → OtpEntity} {r' : OtpEntity} (hr' : r' ∈ (t.update p f).rows)
    (hf : ∀ r, Evolves r (f r)) : ∃ r ∈ t.rows, Evolves r r' := by
  obtain ⟨r, hr, rfl⟩ := List.mem_map.1 hr'
  refine ⟨r, hr, ?_⟩
  split
  · exact hf r
  · exact Evolves.refl r

/-- A stored row was stored before, or its `INSERT` has just taken place. -/
theorem Moves.row {c : Nat} {sh sh' : Shared} {pc pc' : Pc} {a : Action}
    (hm : Moves cfg sha256 c sh pc a sh' pc') {r' : OtpEntity} (hr' : r' ∈ sh'.table.rows) :
    (∃ r ∈ sh.table.rows, Evolves r r') ∨
      ∃ otp, a = .exec ∧ pc = .insert otp ∧ r' = otp.row sh.table.nextId sh.now := by
  cases hm with
  | mark id at_ accepted =>
      exact Or.inl (exists_evolves_of_mem_update hr' fun r =>
        ⟨rfl, rfl, rfl, rfl, rfl, fun h => nomatch h⟩)
  | increment id =>
      exact Or.inl (exists_evolves_of_mem_update hr' fun r => ⟨rfl, rfl, rfl, rfl, rfl, fun h => h⟩)
  | invalidate phone purpose now =>
      exact Or.inl (exists_evolves_of_mem_update hr' fun r =>
        ⟨rfl, rfl, rfl, rfl, rfl, fun h => nomatch h⟩)
  | insert otp =>
      rcases List.mem_append.1 hr' with hr | hr
      · exact Or.inl ⟨r', hr, Evolves.refl r'⟩
      · exact Or.inr ⟨otp, rfl, rfl, List.mem_singleton.1 hr⟩
  | delete cutoff => exact Or.inl ⟨r', (List.mem_filter.1 hr').1, Evolves.refl r'⟩
  | tick => exact Or.inl ⟨r', hr', Evolves.refl r'⟩
  | quiet => exact Or.inl ⟨r', hr', Evolves.refl r'⟩
  | find phone purpose code now => exact Or.inl ⟨r', hr', Evolves.refl r'⟩
  | exhausted code otp draw h => exact Or.inl ⟨r', hr', Evolves.refl r'⟩
  | accept code otp draw h => exact Or.inl ⟨r', hr', Evolves.refl r'⟩
  | reject code otp draw h => exact Or.inl ⟨r', hr', Evolves.refl r'⟩

theorem Moves.table {c : Nat} {sh sh' : Shared} {pc pc' : Pc} {a : Action}
    (hm : Moves cfg sha256 c sh pc a sh' pc') (h : sh.table.Ok) :
    sh'.table.Ok ∧ sh.table.nextId ≤ sh'.table.nextId := by
  cases hm with
  | mark id at_ accepted => exact ⟨h.update fun r => ⟨rfl, rfl, rfl⟩, Nat.le_refl _⟩
  | increment id => exact ⟨h.update fun r => ⟨rfl, rfl, rfl⟩, Nat.le_refl _⟩
  | invalidate phone purpose now => exact ⟨h.update fun r => ⟨rfl, rfl, rfl⟩, Nat.le_refl _⟩
  | insert otp => exact ⟨h.save otp sh.now, Nat.le_succ _⟩
  | delete cutoff => exact ⟨h.deleteCreatedBefore cutoff, Nat.le_refl _⟩
  | tick => exact ⟨h, Nat.le_refl _⟩
  | quiet => exact ⟨h, Nat.le_refl _⟩
  | find phone purpose code now => exact ⟨h, Nat.le_refl _⟩
  | exhausted code otp draw hb => exact ⟨h, Nat.le_refl _⟩
  | accept code otp draw hb => exact ⟨h, Nat.le_refl _⟩
  | reject code otp draw hb => exact ⟨h, Nat.le_refl _⟩

/-- The table is in order in every state of a run. -/
def TableInv (s : State) : Prop := s.shared.table.Ok

theorem TableInv.step {s s' : State} {a : Nat × Action} (h : TableInv s)
    (hs : step cfg sha256 s a = some s') : TableInv s' := by
  obtain ⟨sh', pc', hm, rfl⟩ := Pool.step_spec hs
  exact ((move_spec hm).table h).1

theorem TableInv.initial (now : Instant) : TableInv (initial now) :=
  ⟨List.Pairwise.nil, by simp [Otps.initial]⟩

theorem tableInv_of_run {now : Instant} {acts : List (Nat × Action)} {s : State}
    (h : run (Otps.step cfg sha256) (Otps.initial now) acts = some s) : TableInv s :=
  Reachable.inv (TableInv.initial now) (fun _ _ _ hs he => hs.step he) ⟨acts, h⟩

end NestStarter.Otps
