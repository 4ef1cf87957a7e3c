import NestStarter.Otps.Contract

/-! # How many wrong codes a rolling window admits

The phone lock sums attempts over the codes created inside the window, whenever
the guesses were made. So it bounds, in every interval of the window's length,
the guesses against codes created in that interval; guesses against the one code
that was already there are bounded by the attempts of a single code.
-/

namespace NestStarter.Otps

open NestStarter.Core

variable {cfg : OtpConfig} {sha256 : String → String} {e : Entry} {log : List Entry}

/-- The wrong codes compared in an interval. -/
def wrongWithin (log : List Entry) (a b : Instant) : Nat :=
  log.countP fun e => e.effect = .wrong ∧ a ≤ e.at_ ∧ e.at_ ≤ b

/-- Those compared with a code created in the interval. -/
def wrongOnNew (log : List Entry) (a b : Instant) : Nat :=
  (guesses log).countP fun g => (a ≤ g.at_ ∧ g.at_ ≤ b) ∧ a ≤ g.codeCreatedAt

def wrongOnOld (log : List Entry) (a b : Instant) : Nat :=
  (guesses log).countP fun g => (a ≤ g.at_ ∧ g.at_ ≤ b) ∧ g.codeCreatedAt < a

theorem guesses_cons_of_ne (he : e.effect ≠ .wrong) : guesses (e :: log) = guesses log := by
  simp only [guesses, if_neg he]
  split <;> rfl

theorem guesses_cons_of_wrong (he : e.effect = .wrong) {i : Issued} (hi : lastIssue log = some i) :
    guesses (e :: log) = ⟨e.at_, i.createdAt⟩ :: guesses log := by
  simp [guesses, hi, he]

theorem exists_of_mem_guesses {g : Guess} (hg : g ∈ guesses log) : ∃ e ∈ log, e.at_ = g.at_ := by
  induction log with
  | nil => cases hg
  | cons e log ih =>
      by_cases he : e.effect = .wrong
      · cases hi : lastIssue log with
        | none =>
            have hg' : g ∈ guesses log := by simpa [guesses, hi] using hg
            obtain ⟨e', he', hat⟩ := ih hg'
            exact ⟨e', List.mem_cons_of_mem _ he', hat⟩
        | some i =>
            rw [guesses_cons_of_wrong he hi] at hg
            rcases List.mem_cons.1 hg with rfl | hg
            · exact ⟨e, List.mem_cons_self, rfl⟩
            · obtain ⟨e', he', hat⟩ := ih hg
              exact ⟨e', List.mem_cons_of_mem _ he', hat⟩
      · rw [guesses_cons_of_ne he] at hg
        obtain ⟨e', he', hat⟩ := ih hg
        exact ⟨e', List.mem_cons_of_mem _ he', hat⟩

theorem Lawful.wrongWithin_eq (h : Lawful cfg sha256 log) (a b : Instant) :
    wrongWithin log a b = (guesses log).countP fun g => a ≤ g.at_ ∧ g.at_ ≤ b := by
  induction h with
  | nil => rfl
  | cons e log hlog hat hdec ih =>
      rw [wrongWithin, List.countP_cons, ← wrongWithin, ih]
      by_cases he : e.effect = .wrong
      · obtain ⟨_, _, i, hi⟩ := hdec.wrong he
        rw [guesses_cons_of_wrong he hi, List.countP_cons]
        simp [he]
      · rw [guesses_cons_of_ne he]
        simp [he]

theorem wrongOnNew_add_wrongOnOld (log : List Entry) (a b : Instant) :
    wrongOnNew log a b + wrongOnOld log a b =
      (guesses log).countP fun g => a ≤ g.at_ ∧ g.at_ ≤ b := by
  unfold wrongOnNew wrongOnOld
  induction guesses log with
  | nil => rfl
  | cons g gs ih =>
      simp only [List.countP_cons, ← ih]
      by_cases hat : a ≤ g.at_ ∧ g.at_ ≤ b
      · by_cases hnew : a ≤ g.codeCreatedAt
        · simp [hat, hnew, Int.not_lt.2 hnew]
          omega
        · simp [hat, hnew, Int.not_le.1 hnew]
          omega
      · simp [hat]

/-- Later guesses than the latest issue were made against its code. -/
theorem Lawful.countP_guesses_le (h : Lawful cfg sha256 log) {i : Issued}
    (hi : lastIssue log = some i) :
    (guesses log).countP (fun g => i.createdAt < g.at_) ≤ wrongSinceIssue log := by
  induction h with
  | nil => cases hi
  | cons e log hlog hat hdec ih =>
      rw [lastIssue_cons] at hi
      rw [wrongSinceIssue_cons]
      cases hissued : e.issued? with
      | some j =>
          obtain rfl : j = i := by simpa [hissued] using hi
          have he : e.effect ≠ .wrong := fun he => by simp [Entry.issued?, he] at hissued
          have hcreated : j.createdAt = e.at_ := (Entry.issued?_eq_some.1 hissued).1
          rw [guesses_cons_of_ne he, List.countP_eq_zero.2]
          · exact Nat.zero_le _
          · intro g hg
            obtain ⟨e', he', hat'⟩ := exists_of_mem_guesses hg
            have := hat e' he'
            simp only [decide_eq_true_eq, hcreated, ← hat']
            exact Int.not_lt.2 this
      | none =>
          have hi' : lastIssue log = some i := by simpa [hissued] using hi
          rw [Option.isNone_none, if_pos rfl]
          by_cases he : e.effect = .wrong
          · rw [guesses_cons_of_wrong he hi', List.countP_cons, if_pos he]
            have := ih hi'
            split <;> omega
          · rw [guesses_cons_of_ne he, if_neg he]
            exact ih hi'

/-! ## Intervals -/

/-- A code that was there before the interval has only its own attempts. -/
theorem Lawful.wrongOnOld_le (h : Lawful cfg sha256 log) (a b : Instant) :
    wrongOnOld log a b ≤ cfg.maxVerifyAttempts := by
  induction h with
  | nil => exact Nat.zero_le _
  | cons e log hlog hat hdec ih =>
      by_cases he : e.effect = .wrong
      · obtain ⟨_, hwrong, i, hi⟩ := hdec.wrong he
        rw [wrongOnOld, guesses_cons_of_wrong he hi, List.countP_cons, ← wrongOnOld]
        split
        · rename_i hin
          obtain ⟨_, hold⟩ : (a ≤ e.at_ ∧ e.at_ ≤ b) ∧ i.createdAt < a := by simpa using hin
          have hle : wrongOnOld log a b ≤ (guesses log).countP fun g => i.createdAt < g.at_ := by
            refine List.countP_mono_left fun g _ hg => ?_
            obtain ⟨⟨hag, _⟩, _⟩ : (a ≤ g.at_ ∧ g.at_ ≤ b) ∧ g.codeCreatedAt < a := by
              simpa using hg
            exact decide_eq_true (Int.lt_of_lt_of_le hold hag)
          have := hlog.countP_guesses_le hi
          omega
        · exact ih
      · rw [wrongOnOld, guesses_cons_of_ne he]
        exact ih

/-- The lock: a guess that is admitted finds fewer than the maximum in its window. -/
theorem Lawful.wrongOnNew_le (h : Lawful cfg sha256 log) (a : Instant) :
    wrongOnNew log a (a + cfg.phoneLockWindowSeconds * 1000) ≤ cfg.phoneMaxFailuresPerWindow := by
  induction h with
  | nil => exact Nat.zero_le _
  | cons e log hlog hat hdec ih =>
      by_cases he : e.effect = .wrong
      · obtain ⟨hlock, _, i, hi⟩ := hdec.wrong he
        rw [wrongOnNew, guesses_cons_of_wrong he hi, List.countP_cons, ← wrongOnNew]
        split
        · rename_i hin
          obtain ⟨⟨_, hend⟩, _⟩ : (a ≤ e.at_ ∧ e.at_ ≤ a + cfg.phoneLockWindowSeconds * 1000) ∧
              a ≤ i.createdAt := by simpa using hin
          have hsince : lockSince cfg e.at_ ≤ a := Int.sub_right_le_of_le_add hend
          have hle : wrongOnNew log a (a + cfg.phoneLockWindowSeconds * 1000) ≤
              (guesses log).countP fun g => lockSince cfg e.at_ ≤ g.codeCreatedAt := by
            refine List.countP_mono_left fun g _ hg => ?_
            obtain ⟨_, hnew⟩ : (a ≤ g.at_ ∧ g.at_ ≤ a + cfg.phoneLockWindowSeconds * 1000) ∧
                a ≤ g.codeCreatedAt := by simpa using hg
            exact decide_eq_true (Int.le_trans hsince hnew)
          omega
        · exact ih
      · rw [wrongOnNew, guesses_cons_of_ne he]
        exact ih

/-- What a rolling window admits on one phone, in every sequential run. -/
theorem wrongWithin_le_of_run (cfg : OtpConfig) (sha256 : String → String) (now₀ : Instant)
    (ops : List Op) (s : Sys)
    (hrun : run (Sys.step cfg sha256) (Sys.initial now₀) ops = some s) (phone : String)
    (purpose : OtpPurpose) (a : Instant) :
    wrongOnNew (history phone purpose s.log) a (a + cfg.phoneLockWindowSeconds * 1000) ≤
        cfg.phoneMaxFailuresPerWindow ∧
      wrongOnOld (history phone purpose s.log) a (a + cfg.phoneLockWindowSeconds * 1000) ≤
        cfg.maxVerifyAttempts ∧
      wrongWithin (history phone purpose s.log) a (a + cfg.phoneLockWindowSeconds * 1000) ≤
        cfg.phoneMaxFailuresPerWindow + cfg.maxVerifyAttempts := by
  have hlaw := (recorded_of_run hrun).lawful phone purpose
  have hnew := hlaw.wrongOnNew_le a
  have hold := hlaw.wrongOnOld_le a (a + cfg.phoneLockWindowSeconds * 1000)
  refine ⟨hnew, hold, ?_⟩
  rw [hlaw.wrongWithin_eq, ← wrongOnNew_add_wrongOnOld]
  omega

/-- A guess against the first code at second 9, one against the second code at second
10, and one more as soon as the first code has left the window. -/
def straddle : List Op :=
  [.issue "p" .userLogin 0 true, .tick 9000, .verify "p" .userLogin "000000", .tick 1000,
    .issue "p" .userLogin 0 true, .verify "p" .userLogin "000000", .tick 1,
    .verify "p" .userLogin "000000"]

/-- Three wrong codes are compared between the seconds 9 and 19. -/
theorem wrongWithin_straddle :
    ∃ s, run (Sys.step .tenSeconds sha256Sample) (Sys.initial 0) straddle = some s ∧
      wrongWithin (history "p" .userLogin s.log) 9000
        (9000 + OtpConfig.tenSeconds.phoneLockWindowSeconds * 1000) = 3 ∧
      OtpConfig.tenSeconds.phoneMaxFailuresPerWindow = 2 := by
  have hrun : (run (Sys.step .tenSeconds sha256Sample) (Sys.initial 0) straddle).map
      (fun s => wrongWithin (history "p" .userLogin s.log) 9000
        (9000 + OtpConfig.tenSeconds.phoneLockWindowSeconds * 1000)) = some 3 := by
    decide +kernel
  obtain ⟨s, hs, hwrong⟩ := Option.map_eq_some_iff.1 hrun
  exact ⟨s, hs, hwrong, rfl⟩

theorem wrongWithin_le_straddle :
    ∃ s, run (Sys.step .tenSeconds sha256Sample) (Sys.initial 0) straddle = some s ∧
      wrongWithin (history "p" .userLogin s.log) 9000 (9000 + 10 * 1000) ≤ 4 := by
  have hrun : (run (Sys.step .tenSeconds sha256Sample) (Sys.initial 0) straddle).isSome := by
    decide
  obtain ⟨s, hs⟩ := Option.isSome_iff_exists.1 hrun
  exact ⟨s, hs, (wrongWithin_le_of_run .tenSeconds sha256Sample 0 straddle s hs "p" .userLogin
    9000).2.2⟩

end NestStarter.Otps
