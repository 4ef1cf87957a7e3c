import NestStarter.Core.Crowd
import NestStarter.Otps.Caps
import NestStarter.Otps.IssueRate

/-! # What a crowd can do

Every check of the OTP service is a statement of its own, so calls that overlap
pass it together. How far its limits are overrun depends on the number of calls
in flight and on nothing else: not on the order of the statements, the clock or
how long a run is. With `k` callers a code logs in `k` times at most, a row and a
phone take `k - 1` wrong codes beyond their limit, a phone has `k` usable codes,
and a window holds `k - 1` codes beyond its own.
-/

namespace NestStarter.Otps

open NestStarter.Core

open OtpTable (Matches)

variable {cfg : OtpConfig} {sha256 : String → String} {c id k : Nat} {sh sh' : Shared} {pc pc' : Pc}
  {a : Action} {phone : String} {purpose : OtpPurpose}

def Within (k : Nat) (acts : List (Nat × Action)) : Prop := ∀ a ∈ acts, a.1 < k

instance (k : Nat) (acts : List (Nat × Action)) : Decidable (Within k acts) := by
  unfold Within; infer_instance

/-- What every step of the first `k` clients keeps holds after their runs. -/
theorem Within.inv {Inv : State → Prop} {now : Instant} {acts : List (Nat × Action)} {s : State}
    (hk : Within k acts) (hinit : Inv (initial now))
    (hstep : ∀ {s : State} {c : Nat} {a : Action} {sh' pc'}, Inv s → c < k →
      move cfg sha256 c s.shared (s.client c) a = some (sh', pc') →
      Inv ⟨sh', Function.update s.client c pc'⟩)
    (hrun : run (step cfg sha256) (initial now) acts = some s) : Inv s := by
  refine run_inv (C := fun _ a => a.1 < k) (fun s a s' hs hlt he => ?_) hinit
    (along_of_forall_mem hk _) hrun
  obtain ⟨sh', pc', hm, rfl⟩ := Pool.step_spec he
  exact hstep hs hlt hm

/-- The rows that let a `verify` succeed are used up, and a row being accepted is a row that
was stored. -/
structure Used (sh : Shared) : Prop where
  table : sh.table.Ok
  bound : ∀ id ∈ sh.verified, id < sh.table.nextId
  consumed : ∀ r ∈ sh.table.rows, r.id ∈ sh.verified → r.consumedAt ≠ none

def Stored (cfg : OtpConfig) (sha256 : String → String) (sh : Shared) (pc : Pc) : Prop :=
  ∀ id, Accepting cfg sha256 id pc → id < sh.table.nextId

theorem Stored.move (htable : sh.table.Ok) (h : Stored cfg sha256 sh pc)
    (hm : Moves cfg sha256 c sh pc a sh' pc') : Stored cfg sha256 sh' pc' := by
  intro id hacc
  have hnext := (hm.table htable).2
  rcases hm.accepting hacc with hold | ⟨_, hread⟩
  · exact Nat.lt_of_lt_of_le (h id hold) hnext
  · obtain ⟨otp, hotp, rfl, _⟩ := acceptedRead_mem hread
    exact Nat.lt_of_lt_of_le (htable.bound otp hotp) hnext

theorem Used.move (h : Used sh) (hpc : Stored cfg sha256 sh pc)
    (hm : Moves cfg sha256 c sh pc a sh' pc') : Used sh' := by
  obtain ⟨htable, hnext⟩ := hm.table h.table
  -- a row that had let a call succeed is consumed, and stays so
  have hkeep : ∀ r' ∈ sh'.table.rows, r'.id ∈ sh.verified → r'.consumedAt ≠ none := by
    intro r' hr' hid hopen
    rcases hm.row hr' with ⟨r, hr, hev⟩ | ⟨otp, _, _, rfl⟩
    · exact h.consumed r hr (hev.id ▸ hid) (hev.consumed hopen)
    · exact Nat.lt_irrefl _ (h.bound _ hid)
  rcases hm.verified with hv | ⟨id₀, at_, hacc, _, hv, htab⟩
  · refine ⟨htable, fun id hid => ?_, fun r hr hid => hkeep r hr (hv ▸ hid)⟩
    exact Nat.lt_of_lt_of_le (h.bound id (hv ▸ hid)) hnext
  · refine ⟨htable, fun id hid => ?_, fun r hr hid => ?_⟩
    · rcases List.mem_cons.1 (hv ▸ hid) with rfl | hid
      · exact Nat.lt_of_lt_of_le (hpc id hacc) hnext
      · exact Nat.lt_of_lt_of_le (h.bound id hid) hnext
    · rcases List.mem_cons.1 (hv ▸ hid) with hr₀ | hid
      · rw [htab] at hr
        obtain ⟨r₀, _, rfl⟩ := List.mem_map.1 hr
        by_cases hid₀ : r₀.id = id₀
        · simp [hid₀]
        · simp only [if_neg hid₀] at hr₀
          exact absurd hr₀ hid₀
      · exact hkeep r hr hid

/-- A client comes to accept a row that has let nobody succeed yet, or the successes and
acceptances of the row together do not grow. -/
theorem Moves.successes (hm : Moves cfg sha256 c sh pc a sh' pc') (h : Used sh) :
    sh'.verified.count id + (if Accepting cfg sha256 id pc' then 1 else 0) ≤
        sh.verified.count id + (if Accepting cfg sha256 id pc then 1 else 0) ∨
      sh'.verified.count id ≤ 0 := by
  by_cases hacc : Accepting cfg sha256 id pc'
  · rcases hm.verified with hv | ⟨_, _, _, hidle, _, _⟩
    · rw [hv]
      rcases hm.accepting hacc with hold | ⟨_, hread⟩
      · rw [if_pos hacc, if_pos hold]
        exact Or.inl (Nat.le_refl _)
      · obtain ⟨otp, hotp, rfl, hopen⟩ := acceptedRead_mem hread
        have hunused : otp.id ∉ sh.verified := fun hid => h.consumed otp hotp hid hopen
        exact Or.inr (Nat.le_of_eq (List.count_eq_zero.2 hunused))
    · rw [hidle] at hacc
      exact hacc.elim
  · rw [if_neg hacc]
    refine Or.inl ?_
    rcases hm.verified with hv | ⟨id₀, _, hacc₀, _, hv, _⟩
    · rw [hv]
      omega
    · rw [hv]
      by_cases hid : id₀ = id
      · subst hid
        rw [List.count_cons_self, if_pos hacc₀]
      · rw [List.count_cons_of_ne hid]
        omega

structure UseBudget (cfg : OtpConfig) (sha256 : String → String) (k id : Nat) (s : State) :
    Prop where
  holds : Pool.Holds Used (fun _ => Stored cfg sha256) s
  budget : Pool.Budget k 0 (fun sh => sh.verified.count id) (Accepting cfg sha256 id) s

theorem UseBudget.initial (now : Instant) : UseBudget cfg sha256 k id (initial now) where
  holds := ⟨⟨TableInv.initial now, nofun, nofun⟩, fun _ _ h => h.elim⟩
  budget := Pool.Budget.initial rfl fun _ h => h

theorem UseBudget.move {s : State} (h : UseBudget cfg sha256 k id s) (hc : c < k)
    (hm : Moves cfg sha256 c s.shared (s.client c) a sh' pc') :
    UseBudget cfg sha256 k id ⟨sh', Function.update s.client c pc'⟩ where
  holds := by
    have hused := h.holds.shared
    refine Pool.Holds.move (hused.move (h.holds.client c) hm)
      ((h.holds.client c).move hused.table hm) fun d _ id hacc => ?_
    exact Nat.lt_of_lt_of_le (h.holds.client d id hacc) (hm.table hused.table).2
  budget := h.budget.step_of_check hc (hm.successes h.holds.shared)

/-- In every run of `k` clients a code lets `k` of their calls succeed at most. -/
theorem verified_le_of_run (cfg : OtpConfig) (sha256 : String → String) (now : Instant) (k : Nat)
    (acts : List (Nat × Action)) (s : State) (hk : Within k acts)
    (hrun : run (step cfg sha256) (initial now) acts = some s) (id : Nat) :
    s.shared.verified.count id ≤ k := by
  have hinv : UseBudget cfg sha256 k id s :=
    hk.inv (UseBudget.initial now) (fun h hc hm => h.move hc (move_spec hm)) hrun
  have hle := hinv.budget.spent_le
  omega

def oneIssued : Shared where
  table := OtpTable.save {} (newOtp .test sha256Sample 0 "p" .userLogin "123456") 0
  now := 0

def Shared.accept (sh : Shared) : Shared :=
  { sh with table := sh.table.markConsumed 1 0, verified := 1 :: sh.verified }

/-- What a `verify` does before its mark. -/
def readActions : List Action :=
  [.call (.verify "p" .userLogin "123456"), .exec, .resume 0, .exec, .resume 0]

/-- `k` calls read the row before any of them marks it. -/
def crowdedLogins (k : Nat) : List (Nat × Action) :=
  issueSteps 0 "p" ++ ((List.range k).flatMap fun c => readActions.map fun a => (c, a)) ++
    (List.range k).flatMap fun c => [Action.exec].map fun a => (c, a)

theorem run_issueSteps :
    run (step .test sha256Sample) (initial 0) (issueSteps 0 "p") =
      some ⟨oneIssued, fun _ => .idle⟩ := by
  have hsolo : run (Pool.solo (move .test sha256Sample) 0)
      ((initial 0).shared, (initial 0).client 0) ((issueSteps 0 "p").map Prod.snd) =
      some (oneIssued, (initial 0).client 0) := by
    decide +kernel
  exact Pool.run_solo_self hsolo

theorem verified_accept_iterate (n : Nat) :
    (Shared.accept^[n] oneIssued).verified = List.replicate n 1 := by
  induction n with
  | zero => rfl
  | succ n ih =>
      rw [Function.iterate_succ_apply', List.replicate_succ, ← ih]
      rfl

theorem run_readActions (c : Nat) :
    run (Pool.solo (move .test sha256Sample) c) (oneIssued, .idle) readActions =
      some (oneIssued, .mark 1 0 true) := rfl

theorem run_crowdedLogins (k : Nat) :
    run (step .test sha256Sample) (initial 0) (crowdedLogins k) =
      some ⟨Shared.accept^[k] oneIssued, fun _ => .idle⟩ := by
  have hread : run (step .test sha256Sample) ⟨oneIssued, fun _ => .idle⟩
      ((List.range k).flatMap fun c => readActions.map fun a => (c, a)) =
      some ⟨oneIssued, fun d => if d < k then .mark 1 0 true else .idle⟩ :=
    Pool.run_each (fun _ => oneIssued) (fun _ => Pc.idle) k (fun _ _ => rfl)
      fun c _ => run_readActions c
  have hmark : run (step .test sha256Sample)
      ⟨oneIssued, fun d => if d < k then .mark 1 0 true else .idle⟩
      ((List.range k).flatMap fun c => [Action.exec].map fun a => (c, a)) =
      some ⟨Shared.accept^[k] oneIssued,
        fun d => if d < k then .idle else if d < k then .mark 1 0 true else .idle⟩ := by
    refine Pool.run_each (fun n => Shared.accept^[n] oneIssued) _ k (fun c hc => if_pos hc)
      fun c hc => ?_
    rw [Function.iterate_succ_apply']
    rfl
  have hidle : (fun d => if d < k then Pc.idle else if d < k then .mark 1 0 true else .idle) =
      fun _ => .idle := by
    funext d
    split <;> rfl
  rw [crowdedLogins, run_append_of_eq (run_append_of_eq run_issueSteps ▸ hread), hmark, hidle]

/-- The bound is the exact worst case: some run of `k` clients reaches it. -/
theorem verified_crowdedLogins (k : Nat) (hk : 0 < k) :
    Within k (crowdedLogins k) ∧
      ∃ s, run (step .test sha256Sample) (initial 0) (crowdedLogins k) = some s ∧
        s.shared.verified.count 1 = k := by
  refine ⟨fun a ha => ?_, _, run_crowdedLogins k, ?_⟩
  · simp only [crowdedLogins, List.mem_append, List.mem_flatMap, List.mem_map, List.mem_range] at ha
    rcases ha with (ha | ⟨c, hc, _, _, rfl⟩) | ⟨c, hc, _, _, rfl⟩
    · have hzero : ∀ b ∈ issueSteps 0 "p", b.1 = 0 := by decide
      rw [hzero a ha]
      exact hk
    · exact hc
    · exact hc
  · rw [verified_accept_iterate, List.count_replicate_self]

theorem verified_le_crowdedLogins :
    ∃ s, run (step .test sha256Sample) (initial 0) (crowdedLogins 3) = some s ∧
      s.shared.verified.count 1 ≤ 3 := by
  obtain ⟨hwithin, s, hs, _⟩ := verified_crowdedLogins 3 (by decide)
  exact ⟨s, hs, verified_le_of_run .test sha256Sample 0 3 _ s hwithin hs 1⟩

/-! ## Wrong codes and their increments -/

/-- The client is about to report a wrong code. -/
def Reporting (pc : Pc) : Prop :=
  match pc with
  | .increment _ => True
  | _ => False

/-- The client has read row `id` with attempts below the limit and a code that does not match. -/
def Rejecting (cfg : OtpConfig) (sha256 : String → String) (id : Nat) (pc : Pc) : Prop :=
  match pc with
  | .found code (some otp) => otp.id = id ∧ verifyBranch cfg sha256 code otp = .reject
  | _ => False

/-- The client has found the phone's window open and has not compared its code yet. -/
def Guessing (cfg : OtpConfig) (sha256 : String → String) (phone : String) (purpose : OtpPurpose)
    (pc : Pc) : Prop :=
  match pc with
  | .summed p q (some _) failed =>
    (p = phone ∧ q = purpose) ∧ failed < cfg.phoneMaxFailuresPerWindow
  | .find p q _ _ => p = phone ∧ q = purpose
  | .found code (some otp) => Matches phone purpose otp ∧ verifyBranch cfg sha256 code otp = .reject
  | _ => False

instance : DecidablePred Reporting := fun pc => by unfold Reporting; split <;> infer_instance

instance : DecidablePred fun pc => pc = Pc.increment id := fun _ => inferInstance

instance : DecidablePred (Rejecting cfg sha256 id)
  | .found code (some otp) =>
    inferInstanceAs (Decidable (otp.id = id ∧ verifyBranch cfg sha256 code otp = .reject))
  | .idle | .sum .. | .summed .. | .find .. | .found _ none | .mark .. | .increment _ | .count ..
  | .counted .. | .latest .. | .latestRead .. | .invalidate .. | .invalidated .. | .insert _
  | .delete _ => inferInstanceAs (Decidable False)

instance : DecidablePred (Guessing cfg sha256 phone purpose)
  | .summed p q (some _) failed =>
    inferInstanceAs (Decidable ((p = phone ∧ q = purpose) ∧ failed < cfg.phoneMaxFailuresPerWindow))
  | .find p q _ _ => inferInstanceAs (Decidable (p = phone ∧ q = purpose))
  | .found code (some otp) =>
    inferInstanceAs (Decidable (Matches phone purpose otp ∧
      verifyBranch cfg sha256 code otp = .reject))
  | .idle | .sum .. | .summed _ _ none _ | .found _ none | .mark .. | .increment _ | .count ..
  | .counted .. | .latest .. | .latestRead .. | .invalidate .. | .invalidated .. | .insert _
  | .delete _ => inferInstanceAs (Decidable False)

/-- What a client relies on besides: the window it asked for is behind it, and the row it holds
is the stored row of that id, at an earlier time. -/
structure Informed (cfg : OtpConfig) (sh : Shared) (pc : Pc) : Prop where
  sum : ∀ phone purpose code since, pc = .sum phone purpose code since →
    since ≤ lockSince cfg sh.now
  count : ∀ phone purpose since, pc = .count phone purpose since → since ≤ issueSince cfg sh.now
  found : ∀ code otp, pc = .found code (some otp) →
    ∀ r ∈ sh.table.rows, r.id = otp.id → Evolves otp r

theorem Evolves.trans {r r' r'' : OtpEntity} (h : Evolves r r') (h' : Evolves r' r'') :
    Evolves r r'' where
  id := h'.id.trans h.id
  phone := h'.phone.trans h.phone
  purpose := h'.purpose.trans h.purpose
  createdAt := h'.createdAt.trans h.createdAt
  expiresAt := h'.expiresAt.trans h.expiresAt
  consumed := fun ho => h.consumed (h'.consumed ho)

theorem Quiet.informed (h : Quiet cfg sha256 sh pc pc') : Informed cfg sh pc' := by
  cases h with
  | call k =>
      cases k with
      | issue phone purpose =>
          refine ⟨fun _ _ _ _ he => ?_, nofun, nofun⟩
          cases he
          exact Int.le_refl _
      | verify phone purpose code =>
          refine ⟨fun _ _ _ _ he => ?_, nofun, nofun⟩
          cases he
          exact Int.le_refl _
      | pruneStaleOtps => exact ⟨nofun, nofun, nofun⟩
  | toCount phone purpose failed =>
      refine ⟨nofun, fun _ _ _ he => ?_, nofun⟩
      cases he
      exact Int.le_refl _
  | _ => exact ⟨nofun, nofun, nofun⟩

/-- What a client relies on survives the steps of the others. -/
theorem Informed.mono {d : Nat} {pcd pcd' : Pc} (h : Informed cfg sh pc) (hstand : Standing c sh pc)
    (hm : Moves cfg sha256 d sh pcd a sh' pcd') : Informed cfg sh' pc where
  sum := fun phone purpose code since he =>
    Int.le_trans (h.sum phone purpose code since he) (Int.sub_le_sub_right hm.now_le _)
  count := fun phone purpose since he =>
    Int.le_trans (h.count phone purpose since he) (Int.sub_le_sub_right hm.now_le _)
  found := by
    intro code otp he r' hr' hid
    rcases hm.row hr' with ⟨r, hr, hev⟩ | ⟨new, _, _, rfl⟩
    · exact (h.found code otp he r hr (hev.id.symm.trans hid)).trans hev
    · have hlt := hstand.found code otp he
      exact absurd hid (Nat.ne_of_gt hlt)

theorem Moves.informed (hm : Moves cfg sha256 c sh pc a sh' pc') (htable : sh.table.Ok)
    (hstand : Standing c sh pc) (h : Informed cfg sh pc) : Informed cfg sh' pc' := by
  have hm' := hm
  cases hm with
  | tick d => exact h.mono hstand hm'
  | quiet _ _ _ hq => exact hq.informed
  | find phone purpose code now =>
      refine ⟨nofun, nofun, fun code' otp he r hr hid => ?_⟩
      injection he with _ hotp
      rw [htable.eq_of_id hr (OtpTable.findActive_mem hotp).1 hid]
      exact Evolves.refl otp
  | _ => exact ⟨nofun, nofun, nofun⟩

theorem informed_move {s : State}
    (h : Pool.Holds Books (fun c sh pc => Standing c sh pc ∧ Informed cfg sh pc) s)
    (hm : Moves cfg sha256 c s.shared (s.client c) a sh' pc') :
    Pool.Holds Books (fun c sh pc => Standing c sh pc ∧ Informed cfg sh pc)
      ⟨sh', Function.update s.client c pc'⟩ := by
  have htable := h.shared.table
  obtain ⟨hstand, hinf⟩ := h.client c
  refine Pool.Holds.move (h.shared.step hstand hm)
    ⟨hm.standing htable hstand, hm.informed htable hstand hinf⟩ fun d hd => ?_
  obtain ⟨hstand', hinf'⟩ := h.client d
  exact ⟨hm.standing_other htable hd hstand', hinf'.mono hstand' hm⟩

theorem informed_initial (now : Instant) :
    Pool.Holds Books (fun c sh pc => Standing c sh pc ∧ Informed cfg sh pc) (initial now) where
  shared := (books_initial now).shared
  client := fun _ => ⟨⟨nofun, nofun, nofun⟩, ⟨nofun, nofun, nofun⟩⟩

theorem not_reporting (h : ¬ Reporting pc) (id : Nat) : pc ≠ .increment id := by
  rintro rfl
  exact h trivial

theorem Quiet.not_reporting (h : Quiet cfg sha256 sh pc pc') :
    ¬ Reporting pc ∧ ¬ Reporting pc' := by
  cases h with
  | call k => cases k <;> exact ⟨fun h => h, fun h => h⟩
  | _ => exact ⟨fun h => h, fun h => h⟩

/-- The awaited increments, and the clients that await them, come and go together. -/
structure Reports (sh sh' : Shared) (pc pc' : Pc) : Prop where
  length : sh'.inFlight.length + (if Reporting pc then 1 else 0) =
    sh.inFlight.length + if Reporting pc' then 1 else 0
  awaited : ∀ id, sh'.awaited id + (if pc = .increment id then 1 else 0) =
    sh.awaited id + if pc' = .increment id then 1 else 0

theorem Reports.of_not (hflight : sh'.inFlight = sh.inFlight) (h : ¬ Reporting pc)
    (h' : ¬ Reporting pc') : Reports sh sh' pc pc' where
  length := by rw [hflight, if_neg h, if_neg h']
  awaited := fun id => by
    rw [Shared.awaited, hflight, if_neg (not_reporting h id), if_neg (not_reporting h' id),
      Shared.awaited]

theorem Moves.reports (hm : Moves cfg sha256 c sh pc a sh' pc') (hstand : Standing c sh pc) :
    Reports sh sh' pc pc' := by
  cases hm with
  | tick => exact ⟨rfl, fun _ => rfl⟩
  | quiet _ _ _ hq => exact .of_not rfl hq.not_reporting.1 hq.not_reporting.2
  | reject code otp draw hb =>
      refine ⟨by simp [Reporting], fun id => ?_⟩
      simp only [Shared.awaited, List.countP_cons, decide_eq_true_eq, Pc.increment.injEq]
      simp
  | increment i =>
      have hmem := hstand.awaiting i rfl
      have hlength := (List.perm_cons_erase hmem).length_eq
      refine ⟨by simpa [Reporting] using hlength.symm, fun id => ?_⟩
      have hcount := (List.perm_cons_erase hmem).countP_eq fun p => decide (p.2 = id)
      rw [List.countP_cons] at hcount
      simp only [Shared.awaited, decide_eq_true_eq, Pc.increment.injEq] at hcount ⊢
      simpa using hcount.symm
  | _ => exact .of_not rfl (fun h => h) (fun h => h)

/-- The clients about to report, as many as the records say. -/
def Reported (k : Nat) (s : State) : Prop :=
  s.shared.inFlight.length = Pool.crowd k Reporting s.client ∧
    ∀ id, s.shared.awaited id = Pool.crowd k (fun pc => pc = .increment id) s.client

theorem Reported.move {s : State} (h : Reported k s) (hc : c < k)
    (hr : Reports s.shared sh' (s.client c) pc') :
    Reported k ⟨sh', Function.update s.client c pc'⟩ := by
  refine ⟨?_, fun id => ?_⟩
  · have hcrowd := Pool.crowd_update Reporting s.client pc' hc
    have hlength := hr.length
    have hsame := h.1
    simp only
    omega
  · have hcrowd := Pool.crowd_update (fun pc => pc = .increment id) s.client pc' hc
    have hawaited := hr.awaited id
    have hsame := h.2 id
    simp only at hcrowd ⊢
    omega

theorem Quiet.not_rejecting (h : Quiet cfg sha256 sh pc pc') : ¬ Rejecting cfg sha256 id pc' := by
  cases h with
  | call k => cases k <;> exact fun h => h
  | _ => exact fun h => h

theorem reject_lt {code : String} {otp : OtpEntity}
    (h : verifyBranch cfg sha256 code otp = .reject) : otp.attempts < cfg.maxVerifyAttempts := by
  unfold verifyBranch at h
  split at h
  · cases h
  · omega

/-- The wrong codes of a row, and the clients about to compare one, do not grow together, or a
client has just read the row with attempts below the limit. -/
theorem Moves.guesses (hm : Moves cfg sha256 c sh pc a sh' pc') (id : Nat) :
    sh'.compared.count id + (if Rejecting cfg sha256 id pc' then 1 else 0) ≤
        sh.compared.count id + (if Rejecting cfg sha256 id pc then 1 else 0) ∨
      sh' = sh ∧ ¬ Reporting pc ∧ ¬ Reporting pc' ∧
        ∃ otp ∈ sh.table.rows, otp.id = id ∧ otp.attempts < cfg.maxVerifyAttempts := by
  cases hm with
  | tick => exact Or.inl (Nat.le_refl _)
  | quiet _ _ _ hq =>
      rw [if_neg hq.not_rejecting]
      exact Or.inl (by omega)
  | find phone purpose code now =>
      by_cases hr : Rejecting cfg sha256 id
          (.found code (sh.table.findActiveByPhoneAndPurpose phone purpose now))
      · cases hf : sh.table.findActiveByPhoneAndPurpose phone purpose now with
        | none =>
            rw [hf] at hr
            exact hr.elim
        | some otp =>
            rw [hf] at hr
            obtain ⟨hid, hb⟩ := hr
            exact Or.inr ⟨rfl, fun h => h, fun h => h, otp, (OtpTable.findActive_mem hf).1, hid,
              reject_lt hb⟩
      · rw [if_neg hr]
        exact Or.inl (by omega)
  | reject code otp draw hb =>
      refine Or.inl ?_
      by_cases hid : otp.id = id
      · subst hid
        simp [Rejecting, hb]
      · rw [List.count_cons_of_ne hid]
        simp [Rejecting]
  | _ => exact Or.inl (Nat.le_add_right _ _)

/-! ## The window of a phone -/

/-- The settled sum of a window exceeds the stored one by the awaited increments at most. -/
theorem Shared.settled_sum_le (htable : sh.table.Ok) (phone : String) (purpose : OtpPurpose)
    (since : Instant) :
    sh.settled.sumFailedAttemptsSince phone purpose since ≤
      sh.table.sumFailedAttemptsSince phone purpose since + sh.inFlight.length := by
  suffices hall : ∀ inFlight,
      (Shared.settled { sh with inFlight }).sumFailedAttemptsSince phone purpose since ≤
        sh.table.sumFailedAttemptsSince phone purpose since + inFlight.length from hall sh.inFlight
  intro inFlight
  induction inFlight with
  | nil =>
      have hsettled : Shared.settled { sh with inFlight := [] } = sh.table :=
        congrArg (OtpTable.mk · sh.table.nextId) (List.map_id'' (fun _ => rfl) _)
      rw [hsettled]
      exact Nat.le_refl _
  | cons p inFlight ih =>
      have hok : (Shared.settled { sh with inFlight }).Ok := Shared.settled_ok htable
      have hone : (Shared.settled { sh with inFlight }).rows.countP
          (fun r => r.id = p.2 ∧ Matches phone purpose r ∧ since ≤ r.createdAt) ≤ 1 :=
        Nat.le_trans (List.countP_mono_left fun r _ hr => by simp at hr ⊢; exact hr.1)
          (hok.countP_id_le_one p.2)
      calc (Shared.settled { sh with inFlight := p :: inFlight }).sumFailedAttemptsSince phone
            purpose since
          = ((Shared.settled { sh with inFlight }).incrementAttempts p.2).sumFailedAttemptsSince
              phone purpose since := by
            rw [← settled_reject { sh with inFlight } p.1 p.2 sh.compared]
        _ = (Shared.settled { sh with inFlight }).sumFailedAttemptsSince phone purpose since +
              (Shared.settled { sh with inFlight }).rows.countP fun r =>
                r.id = p.2 ∧ Matches phone purpose r ∧ since ≤ r.createdAt :=
            OtpTable.sumFailedAttemptsSince_incrementAttempts ..
        _ ≤ sh.table.sumFailedAttemptsSince phone purpose since + (p :: inFlight).length := by
            rw [List.length_cons]
            omega

theorem failed_lt {p : String} {q : OtpPurpose} {code : Option String} {failed : Nat}
    (h : move cfg sha256 c sh (.summed p q code failed) a = some (sh', pc'))
    (hmoved : pc' ≠ .summed p q code failed) (hopen : pc' ≠ .idle) :
    failed < cfg.phoneMaxFailuresPerWindow := by
  cases a with
  | tick d =>
      cases h
      exact absurd rfl hmoved
  | call k => cases h
  | exec => cases h
  | resume draw =>
      by_cases hfull : failed ≥ cfg.phoneMaxFailuresPerWindow
      · simp only [move, continue_, if_pos hfull, Option.some.injEq, Prod.mk.injEq] at h
        exact absurd h.2.symm hopen
      · omega

/-- A client comes to guess by reading a window that is open. -/
theorem Guessing.of_move (h : move cfg sha256 c sh pc a = some (sh', pc'))
    (hg : Guessing cfg sha256 phone purpose pc') :
    Guessing cfg sha256 phone purpose pc ∨
      sh' = sh ∧ ¬ Reporting pc' ∧ ∃ code since, pc = .sum phone purpose code since ∧
        sh.table.sumFailedAttemptsSince phone purpose since < cfg.phoneMaxFailuresPerWindow := by
  cases move_spec h with
  | tick => exact Or.inl hg
  | quiet _ _ _ hq =>
      cases hq with
      | call k => cases k <;> exact hg.elim
      | sum p q code since =>
          cases code with
          | none => exact hg.elim
          | some code =>
              obtain ⟨⟨rfl, rfl⟩, hlt⟩ := hg
              exact Or.inr ⟨rfl, fun h => h, some code, since, rfl, hlt⟩
      | toFind p q code failed => exact Or.inl ⟨hg, failed_lt h nofun nofun⟩
      | _ => exact hg.elim
  | find p q code now =>
      cases hf : sh.table.findActiveByPhoneAndPurpose p q now with
      | none =>
          rw [hf] at hg
          exact hg.elim
      | some otp =>
          rw [hf] at hg
          obtain ⟨⟨rfl, rfl⟩, _⟩ := hg
          obtain ⟨_, ⟨hphone, hpurpose⟩, _⟩ := OtpTable.findActive_mem hf
          exact Or.inl ⟨hphone.symm, hpurpose.symm⟩
  | _ => exact hg.elim

/-- The settled sum of a window and the clients about to add to it do not grow together, or a
client has just read a sum below the limit. -/
theorem failures_of_move (h : move cfg sha256 c sh pc a = some (sh', pc')) (hbooks : Books sh)
    (hstand : Standing c sh pc) (hinf : Informed cfg sh pc) (phone : String)
    (purpose : OtpPurpose) :
    sh'.settled.sumFailedAttemptsSince phone purpose (lockSince cfg sh'.now) +
        (if Guessing cfg sha256 phone purpose pc' then 1 else 0) ≤
      sh.settled.sumFailedAttemptsSince phone purpose (lockSince cfg sh.now) +
        (if Guessing cfg sha256 phone purpose pc then 1 else 0) ∨
      sh' = sh ∧ ¬ Reporting pc ∧ ¬ Reporting pc' ∧
        sh.table.sumFailedAttemptsSince phone purpose (lockSince cfg sh.now) <
          cfg.phoneMaxFailuresPerWindow := by
  have hm := move_spec h
  rcases hm.settles hstand.awaiting hbooks.inFlight hstand.insert with
    ⟨_, _, hsettles⟩ | ⟨code, otp, draw, rfl, rfl, hb, rfl⟩
  · have hlater : lockSince cfg sh.now ≤ lockSince cfg sh'.now := Int.sub_le_sub_right hm.now_le _
    have hsum : sh'.settled.sumFailedAttemptsSince phone purpose (lockSince cfg sh'.now) ≤
        sh.settled.sumFailedAttemptsSince phone purpose (lockSince cfg sh.now) :=
      Nat.le_trans (hsettles.sums ..) (OtpTable.sumFailedAttemptsSince_anti _ _ _ hlater)
    by_cases hg : Guessing cfg sha256 phone purpose pc'
    · rcases hg.of_move h with hold | ⟨hsame, hnot, code, since, rfl, hlt⟩
      · rw [if_pos hg, if_pos hold]
        exact Or.inl (by omega)
      · have hsince := hinf.sum phone purpose code since rfl
        have hanti := OtpTable.sumFailedAttemptsSince_anti sh.table phone purpose hsince
        exact Or.inr ⟨hsame, fun h => h, hnot, by omega⟩
    · rw [if_neg hg]
      exact Or.inl (by omega)
  · simp only [move, continue_, hb, Option.some.injEq, Prod.mk.injEq, true_and] at h
    subst h
    have hok := Shared.settled_ok hbooks.table
    have hsum := OtpTable.sumFailedAttemptsSince_incrementAttempts sh.settled.rows
      sh.settled.nextId otp.id phone purpose (lockSince cfg sh.now)
    have hnot : ¬ Guessing cfg sha256 phone purpose (.increment otp.id) := fun h => h
    rw [settled_reject, if_neg hnot]
    refine Or.inl (Nat.le_trans (Nat.le_of_eq hsum) (Nat.add_le_add_left ?_ _))
    by_cases hmatch : Matches phone purpose otp
    · have hg : Guessing cfg sha256 phone purpose (.found code (some otp)) := ⟨hmatch, hb⟩
      rw [if_pos hg]
      exact Nat.le_trans (List.countP_mono_left fun r _ hr => by simp at hr ⊢; exact hr.1)
        (hok.countP_id_le_one otp.id)
    · -- the row compared with belongs to another phone, and the window does not count it
      refine Nat.le_trans (Nat.le_of_eq (List.countP_eq_zero.2 fun r' hr' hp => hmatch ?_))
        (Nat.zero_le _)
      simp only [decide_eq_true_eq] at hp
      obtain ⟨r, hr, rfl⟩ := List.mem_map.1 hr'
      have hev := hinf.found code otp rfl r hr hp.1
      exact ⟨hev.phone.symm.trans hp.2.1.1, hev.purpose.symm.trans hp.2.1.2⟩

/-! ## Both caps -/

structure CapBudget (cfg : OtpConfig) (sha256 : String → String) (k : Nat) (s : State) : Prop where
  holds : Pool.Holds Books (fun c sh pc => Standing c sh pc ∧ Informed cfg sh pc) s
  reported : Reported k s
  row : ∀ id, Pool.Budget k (cfg.maxVerifyAttempts - 1) (fun sh => sh.compared.count id)
    (Rejecting cfg sha256 id) s
  window : ∀ phone purpose, Pool.Budget k (cfg.phoneMaxFailuresPerWindow - 1)
    (fun sh => sh.settled.sumFailedAttemptsSince phone purpose (lockSince cfg sh.now))
    (Guessing cfg sha256 phone purpose) s

theorem CapBudget.initial (now : Instant) : CapBudget cfg sha256 k (initial now) where
  holds := informed_initial now
  reported := ⟨(Pool.crowd_eq_zero fun _ h => h).symm, fun _ => (Pool.crowd_eq_zero nofun).symm⟩
  row := fun _ => Pool.Budget.initial rfl fun _ h => h
  window := fun _ _ => Pool.Budget.initial rfl fun _ h => h

theorem CapBudget.move {s : State} (h : CapBudget cfg sha256 k s) (hc : c < k)
    (hmove : move cfg sha256 c s.shared (s.client c) a = some (sh', pc')) :
    CapBudget cfg sha256 k ⟨sh', Function.update s.client c pc'⟩ := by
  have hm := move_spec hmove
  have hbooks := h.holds.shared
  obtain ⟨hstand, hinf⟩ := h.holds.client c
  have hmaxRow := cfg.maxVerifyAttempts_pos
  have hmaxPhone := cfg.phoneMaxFailures_pos
  refine ⟨informed_move h.holds hm, h.reported.move hc (hm.reports hstand), fun id => ?_,
    fun phone purpose => ?_⟩
  · refine (h.row id).step (q := fun pc => pc = .increment id) hc (fun pc hr he => ?_) ?_
    · rw [he] at hr
      exact hr
    · rcases hm.guesses id with hspend | ⟨rfl, hnot, hnot', otp, hotp, rfl, hlt⟩
      · exact Or.inl hspend
      · have hcrowd : Pool.crowd k (fun pc => pc = .increment otp.id)
            (Function.update s.client c pc') = s.shared.awaited otp.id :=
          (Pool.crowd_update_of_not (fun pc => pc = Pc.increment otp.id) hc
            (not_reporting hnot otp.id) (not_reporting hnot' otp.id)).trans
            (h.reported.2 otp.id).symm
        have hcount : s.shared.compared.count otp.id = otp.attempts + s.shared.awaited otp.id :=
          hbooks.counted (s.shared.settledRow otp) (List.mem_map_of_mem hotp)
        rw [hcrowd]
        exact Or.inr (by omega)
  · refine (h.window phone purpose).step (q := Reporting) hc (fun pc hg hr => ?_) ?_
    · cases pc <;> first | exact hr | exact hg
    · rcases failures_of_move hmove hbooks hstand hinf phone purpose with
        hspend | ⟨rfl, hnot, hnot', hlt⟩
      · exact Or.inl hspend
      · rw [Pool.crowd_update_of_not Reporting hc hnot hnot', ← h.reported.1]
        have hle := Shared.settled_sum_le hbooks.table phone purpose (lockSince cfg s.shared.now)
        exact Or.inr (by omega)

/-- In every run of `k` clients, no row is compared with `k` wrong codes more than the limit, no
counter exceeds it by as much, and no phone's attempts in the lock window theirs. -/
theorem caps_lt_of_run (cfg : OtpConfig) (sha256 : String → String) (now : Instant) (k : Nat)
    (acts : List (Nat × Action)) (s : State) (hk : Within k acts)
    (hrun : run (step cfg sha256) (initial now) acts = some s) :
    (∀ id, s.shared.compared.count id < cfg.maxVerifyAttempts + k) ∧
      (∀ r ∈ s.shared.table.rows, r.attempts < cfg.maxVerifyAttempts + k) ∧
      ∀ phone purpose, s.shared.table.sumFailedAttemptsSince phone purpose
        (lockSince cfg s.shared.now) < cfg.phoneMaxFailuresPerWindow + k := by
  have hinv : CapBudget cfg sha256 k s :=
    hk.inv (CapBudget.initial now) (fun h hc hm => h.move hc hm) hrun
  have hmaxRow := cfg.maxVerifyAttempts_pos
  have hmaxPhone := cfg.phoneMaxFailures_pos
  refine ⟨fun id => ?_, fun r hr => ?_, fun phone purpose => ?_⟩
  · have hle := (hinv.row id).spent_le
    omega
  · have hle := (hinv.row r.id).spent_le
    have hcount := count_compared_of_run hrun hr
    omega
  · have hle := (hinv.window phone purpose).spent_le
    have hsettled := s.shared.le_settled phone purpose (lockSince cfg s.shared.now)
    omega

theorem caps_lt_parallelGuesses :
    ∃ s, run (step .test sha256Sample) (initial 0) parallelGuesses = some s ∧
      s.shared.compared.count 1 = 11 ∧ s.shared.compared.count 1 < 5 + 12 := by
  have hrun : (run (step .test sha256Sample) (initial 0) parallelGuesses).map
      (fun s => s.shared.compared.count 1) = some 11 := by
    decide +kernel
  obtain ⟨s, hs, hcount⟩ := Option.map_eq_some_iff.1 hrun
  have hwithin : Within 12 parallelGuesses := by decide +kernel
  exact ⟨s, hs, hcount, (caps_lt_of_run .test sha256Sample 0 12 _ s hwithin hs).1 1⟩

/-! ## Usable codes -/

/-- The client has invalidated the codes of the phone and has yet to insert its own. -/
def Issuing (phone : String) (purpose : OtpPurpose) (pc : Pc) : Prop :=
  match pc with
  | .invalidated p q => p = phone ∧ q = purpose
  | .insert otp => otp.phone = phone ∧ otp.purpose = purpose
  | _ => False

instance : DecidablePred (Issuing phone purpose) :=
  fun pc => by unfold Issuing; split <;> infer_instance

def Shared.live (sh : Shared) (phone : String) (purpose : OtpPurpose) : Nat :=
  sh.table.rows.countP fun r => Matches phone purpose r ∧ LiveAt sh.now r

/-- Rows that are rewritten in place are usable no more than before. -/
theorem Shared.live_update_le {p : OtpEntity → Prop} [DecidablePred p] {f : OtpEntity → OtpEntity}
    (hf : ∀ r, Evolves r (f r)) (htable : sh'.table = sh.table.update p f)
    (hnow : sh'.now = sh.now) : sh'.live phone purpose ≤ sh.live phone purpose := by
  rw [Shared.live, htable, OtpTable.update, List.countP_map, hnow]
  refine List.countP_mono_left fun r _ hr => ?_
  simp only [Function.comp_apply, decide_eq_true_eq] at hr ⊢
  have hev : Evolves r (if p r then f r else r) := by
    split
    · exact hf r
    · exact Evolves.refl r
  obtain ⟨⟨hphone, hpurpose⟩, hlive⟩ := hr
  exact ⟨⟨hev.phone.symm.trans hphone, hev.purpose.symm.trans hpurpose⟩,
    hlive.evolves hev (Int.le_refl _)⟩

theorem Shared.live_le_of_now_le (htable : sh'.table = sh.table) (hnow : sh.now ≤ sh'.now) :
    sh'.live phone purpose ≤ sh.live phone purpose := by
  rw [Shared.live, htable]
  refine List.countP_mono_left fun r _ hr => ?_
  simp only [decide_eq_true_eq] at hr ⊢
  exact ⟨hr.1, hr.2.evolves (Evolves.refl r) hnow⟩

theorem Shared.live_save (sh : Shared) (otp : NewOtp) (phone : String) (purpose : OtpPurpose) :
    Shared.live { sh with table := sh.table.save otp sh.now } phone purpose ≤
      sh.live phone purpose + if Issuing phone purpose (.insert otp) then 1 else 0 := by
  simp only [Shared.live, OtpTable.save, List.countP_append, List.countP_singleton]
  refine Nat.add_le_add_left ?_ _
  by_cases hmatch : Issuing phone purpose (.insert otp)
  · rw [if_pos hmatch]
    split
    · exact Nat.le_refl 1
    · exact Nat.zero_le 1
  · have hrow : ¬ (Matches phone purpose (otp.row sh.table.nextId sh.now) ∧
        LiveAt sh.now (otp.row sh.table.nextId sh.now)) := fun h => hmatch h.1
    simp [hrow]

theorem Shared.live_invalidate (sh : Shared) (phone : String) (purpose : OtpPurpose)
    (at_ : Instant) :
    Shared.live { sh with table := sh.table.invalidateActive phone purpose at_ } phone purpose =
      0 := by
  refine List.countP_eq_zero.2 fun r' hr' hp => ?_
  obtain ⟨r, _, rfl⟩ := List.mem_map.1 hr'
  simp only [decide_eq_true_eq] at hp
  obtain ⟨hmatch, hopen, _⟩ := hp
  by_cases hr : Matches phone purpose r ∧ r.consumedAt = none
  · simp only [if_pos hr] at hopen
    cases hopen
  · simp only [if_neg hr] at hmatch hopen
    exact hr ⟨hmatch, hopen⟩

theorem Quiet.not_issuing (h : Quiet cfg sha256 sh pc pc') (hi : Issuing phone purpose pc') :
    Issuing phone purpose pc := by
  cases h with
  | call k => cases k <;> exact hi.elim
  | toInsert p q draw => exact hi
  | _ => exact hi.elim

/-- The usable codes of a phone and the clients about to add one do not grow together, or a
client has just consumed them all. -/
theorem Moves.codes (hm : Moves cfg sha256 c sh pc a sh' pc') (phone : String)
    (purpose : OtpPurpose) :
    sh'.live phone purpose + (if Issuing phone purpose pc' then 1 else 0) ≤
        sh.live phone purpose + (if Issuing phone purpose pc then 1 else 0) ∨
      sh'.live phone purpose ≤ 0 := by
  have hkeep : ∀ {n n' : Nat}, n' ≤ n → ¬ Issuing phone purpose pc' →
      n' + (if Issuing phone purpose pc' then 1 else 0) ≤
        n + if Issuing phone purpose pc then 1 else 0 := by
    intro n n' hle hnot
    rw [if_neg hnot]
    omega
  cases hm with
  | tick _ d =>
      have hlater : sh.now ≤ sh.now + (d : Int) := Int.le_add_of_nonneg_right (Int.natCast_nonneg d)
      refine Or.inl (Nat.add_le_add_right ?_ _)
      exact Shared.live_le_of_now_le rfl hlater
  | quiet _ _ _ hq =>
      by_cases hi : Issuing phone purpose pc'
      · rw [if_pos hi, if_pos (hq.not_issuing hi)]
        exact Or.inl (Nat.le_refl _)
      · exact Or.inl (hkeep (Nat.le_refl _) hi)
  | invalidate p q at_ =>
      by_cases hpq : p = phone ∧ q = purpose
      · obtain ⟨rfl, rfl⟩ := hpq
        exact Or.inr (Nat.le_of_eq (Shared.live_invalidate ..))
      · have hconsume : ∀ r : OtpEntity, Evolves r { r with consumedAt := some at_ } :=
          fun r => ⟨rfl, rfl, rfl, rfl, rfl, nofun⟩
        exact Or.inl (hkeep (Shared.live_update_le hconsume rfl rfl) hpq)
  | insert otp =>
      have hnot : ¬ Issuing phone purpose .idle := fun h => h
      rw [if_neg hnot]
      exact Or.inl (Shared.live_save sh otp phone purpose)
  | mark id at_ accepted =>
      have hconsume : ∀ r : OtpEntity, Evolves r { r with consumedAt := some at_ } :=
        fun r => ⟨rfl, rfl, rfl, rfl, rfl, nofun⟩
      exact Or.inl (hkeep (Shared.live_update_le hconsume rfl rfl) fun h => h)
  | increment id =>
      have hcount : ∀ r : OtpEntity, Evolves r { r with attempts := r.attempts + 1 } :=
        fun r => ⟨rfl, rfl, rfl, rfl, rfl, fun h => h⟩
      exact Or.inl (hkeep (Shared.live_update_le hcount rfl rfl) fun h => h)
  | delete cutoff =>
      have hle := (List.filter_sublist (l := sh.table.rows)
        (p := fun r => ¬ r.createdAt < cutoff)).countP_le (p := fun r =>
          Matches phone purpose r ∧ LiveAt sh.now r)
      exact Or.inl (hkeep hle fun h => h)
  | find p q code now => exact Or.inl (hkeep (Nat.le_refl _) fun h => h)
  | exhausted code otp draw hb => exact Or.inl (hkeep (Nat.le_refl _) fun h => h)
  | accept code otp draw hb => exact Or.inl (hkeep (Nat.le_refl _) fun h => h)
  | reject code otp draw hb => exact Or.inl (hkeep (Nat.le_refl _) fun h => h)

/-- In every state of every run of `k` clients a phone has `k` usable codes at most. -/
theorem live_le_of_run (cfg : OtpConfig) (sha256 : String → String) (now : Instant) (k : Nat)
    (acts : List (Nat × Action)) (s : State) (hk : Within k acts)
    (hrun : run (step cfg sha256) (initial now) acts = some s) (phone : String)
    (purpose : OtpPurpose) :
    (s.shared.table.rows.filter fun r => Matches phone purpose r ∧
      LiveAt s.shared.now r).length ≤ k := by
  have hinv : Pool.Budget k 0 (fun sh => sh.live phone purpose) (Issuing phone purpose) s :=
    hk.inv (Pool.Budget.initial rfl fun _ h => h)
      (fun h hc hm => h.step_of_check hc ((move_spec hm).codes phone purpose)) hrun
  have hle := hinv.spent_le
  rw [← List.countP_eq_length_filter]
  exact Nat.le_trans hle (Nat.le_of_eq (Nat.zero_add k))

theorem live_le_overlappingIssues :
    ∃ s, run (step .test sha256Sample) (initial 0) overlappingIssues = some s ∧
      (s.shared.table.rows.filter fun r => Matches "p" .userLogin r ∧
        LiveAt s.shared.now r).length = 2 ∧
      (s.shared.table.rows.filter fun r => Matches "p" .userLogin r ∧
        LiveAt s.shared.now r).length ≤ 2 := by
  have hrun : (run (step .test sha256Sample) (initial 0) overlappingIssues).map
      (fun s => (s.shared.table.rows.filter fun r => Matches "p" .userLogin r ∧
        LiveAt s.shared.now r).length) = some 2 := by
    decide +kernel
  obtain ⟨s, hs, hlength⟩ := Option.map_eq_some_iff.1 hrun
  have hwithin : Within 2 overlappingIssues := by decide +kernel
  exact ⟨s, hs, hlength, live_le_of_run .test sha256Sample 0 2 _ s hwithin hs "p" .userLogin⟩

/-- While a call inserts its code, no other call has invalidated the codes of that phone and has
yet to insert its own. -/
def IssuesApart (s : State) (a : Nat × Action) : Prop :=
  ∀ otp, a.2 = .exec → s.client a.1 = .insert otp →
    ∀ c, c ≠ a.1 → ¬ Issuing otp.phone otp.purpose (s.client c)

/-- There is no usable code of a phone whose codes a client has invalidated. -/
def Cleared (s : State) : Prop :=
  ∀ c phone purpose, Issuing phone purpose (s.client c) → s.shared.live phone purpose = 0

theorem Moves.live_of_issuing (hm : Moves cfg sha256 c sh pc a sh' pc')
    (hi : Issuing phone purpose pc') :
    Issuing phone purpose pc ∨ sh'.live phone purpose = 0 := by
  cases hm with
  | tick => exact Or.inl hi
  | quiet _ _ _ hq => exact Or.inl (hq.not_issuing hi)
  | invalidate p q at_ =>
      obtain ⟨rfl, rfl⟩ := hi
      exact Or.inr (Shared.live_invalidate ..)
  | _ => exact hi.elim

theorem Moves.issuing (hm : Moves cfg sha256 c sh pc a sh' pc') (hi : Issuing phone purpose pc) :
    Issuing phone purpose pc' ∨
      ∃ otp, a = .exec ∧ pc = .insert otp ∧ Issuing phone purpose (.insert otp) := by
  cases hm with
  | tick => exact Or.inl hi
  | quiet _ _ _ hq =>
      cases hq with
      | toInsert p q draw => exact Or.inl hi
      | _ => exact hi.elim
  | insert otp => exact Or.inr ⟨otp, rfl, rfl, hi⟩
  | _ => exact hi.elim

theorem Cleared.step {s s' : State} {a : Nat × Action} (h : Cleared s) (hC : IssuesApart s a)
    (hs : step cfg sha256 s a = some s') : Cleared s' := by
  obtain ⟨sh', pc', hm, rfl⟩ := Pool.step_spec hs
  have hmoves := move_spec hm
  intro c phone purpose hi
  -- codes are added by a client that issues, and only when it inserts
  have hbefore : ∀ d, Issuing phone purpose (s.client d) →
      (Issuing phone purpose (s.client a.1) → Issuing phone purpose pc') →
        sh'.live phone purpose = 0 := by
    intro d hd hstill
    have hnone := h d phone purpose hd
    rcases hmoves.codes phone purpose with hcodes | hzero
    · by_cases hissuing : Issuing phone purpose (s.client a.1)
      · rw [if_pos hissuing, if_pos (hstill hissuing)] at hcodes
        omega
      · rw [if_neg hissuing] at hcodes
        omega
    · exact Nat.le_zero.1 hzero
  by_cases hc : c = a.1
  · simp only [hc, Function.update_self] at hi
    rcases hmoves.live_of_issuing hi with hold | hzero
    · exact hbefore a.1 hold fun _ => hi
    · exact hzero
  · simp only [Function.update_of_ne hc] at hi
    refine hbefore c hi fun hissuing => ?_
    rcases hmoves.issuing hissuing with hstill | ⟨otp, hexec, hpc, rfl, rfl⟩
    · exact hstill
    · exact absurd hi (hC otp hexec hpc c hc)

theorem Cleared.insertsAlone {s : State} {a : Nat × Action} (h : Cleared s) :
    InsertsAlone s a := by
  intro hexec
  cases hpc : s.client a.1 with
  | insert otp =>
      intro hopen
      have hnone := h a.1 otp.phone otp.purpose (by rw [hpc]; exact ⟨rfl, rfl⟩)
      refine findActive_eq_none.2 fun r hr hmatch hlive => ?_
      exact List.countP_eq_zero.1 hnone r hr (decide_eq_true ⟨hmatch, hlive⟩)
  | _ => trivial

/-- Where no two requests for one phone overlap between their invalidation and their insert, every
insert of a run is alone. -/
theorem insertsAlone_of_issuesApart (cfg : OtpConfig) (sha256 : String → String) (now : Instant)
    (acts : List (Nat × Action))
    (hapart : Along (step cfg sha256) IssuesApart (initial now) acts) :
    Along (step cfg sha256) InsertsAlone (initial now) acts := by
  have hstart : Cleared (initial now) := fun _ _ _ hi => hi.elim
  exact Along.of_inv (fun _ _ _ h hC hs => h.step hC hs) (fun _ _ h _ => h.insertsAlone) hstart
    hapart

/-! ## Codes in a window -/

/-- The client has counted fewer codes of the phone than the maximum and has yet to insert its
own. -/
def Asking (cfg : OtpConfig) (phone : String) (purpose : OtpPurpose) (pc : Pc) : Prop :=
  match pc with
  | .counted p q count => (p = phone ∧ q = purpose) ∧ count < cfg.maxIssuesPerWindow
  | .latest p q => p = phone ∧ q = purpose
  | .latestRead p q _ => p = phone ∧ q = purpose
  | .invalidate p q _ => p = phone ∧ q = purpose
  | .invalidated p q => p = phone ∧ q = purpose
  | .insert otp => otp.phone = phone ∧ otp.purpose = purpose
  | _ => False

instance : DecidablePred (Asking cfg phone purpose) :=
  fun pc => by unfold Asking; split <;> infer_instance

def Shared.issued (cfg : OtpConfig) (sh : Shared) (phone : String) (purpose : OtpPurpose) : Nat :=
  sh.table.countRequestsSince phone purpose (issueSince cfg sh.now)

theorem OtpTable.countRequestsSince_anti {t : OtpTable} {since since' : Instant}
    (h : since ≤ since') : t.countRequestsSince phone purpose since' ≤
      t.countRequestsSince phone purpose since := by
  refine List.countP_mono_left fun r _ hr => ?_
  simp only [decide_eq_true_eq] at hr ⊢
  exact ⟨hr.1, Int.lt_of_le_of_lt h hr.2⟩

theorem count_lt {p : String} {q : OtpPurpose} {count : Nat}
    (h : move cfg sha256 c sh (.counted p q count) a = some (sh', pc'))
    (hmoved : pc' ≠ .counted p q count) (hopen : pc' ≠ .idle) :
    count < cfg.maxIssuesPerWindow := by
  cases a with
  | tick d =>
      cases h
      exact absurd rfl hmoved
  | call k => cases h
  | exec => cases h
  | resume draw =>
      by_cases hfull : count ≥ cfg.maxIssuesPerWindow
      · simp only [move, continue_, if_pos hfull, Option.some.injEq, Prod.mk.injEq] at h
        exact absurd h.2.symm hopen
      · omega

/-- A client comes to ask by counting fewer codes than the maximum. -/
theorem Asking.of_move (h : move cfg sha256 c sh pc a = some (sh', pc'))
    (hinf : Informed cfg sh pc) (ha : Asking cfg phone purpose pc') :
    Asking cfg phone purpose pc ∨ sh' = sh ∧
      sh.issued cfg phone purpose < cfg.maxIssuesPerWindow := by
  cases move_spec h with
  | tick => exact Or.inl ha
  | quiet _ _ _ hq =>
      cases hq with
      | call k => cases k <;> exact ha.elim
      | count p q since =>
          obtain ⟨⟨rfl, rfl⟩, hlt⟩ := ha
          have hsince := hinf.count p q since rfl
          have hanti : sh.issued cfg p q ≤ sh.table.countRequestsSince p q since :=
            OtpTable.countRequestsSince_anti hsince
          exact Or.inr ⟨rfl, by omega⟩
      | toLatest p q count => exact Or.inl ⟨ha, count_lt h nofun nofun⟩
      | latest p q => exact Or.inl ha
      | toInvalidate p q row => exact Or.inl ha
      | toInsert p q draw => exact Or.inl ha
      | _ => exact ha.elim
  | invalidate p q at_ => exact Or.inl ha
  | _ => exact ha.elim

/-- The codes of a window and the clients about to add to it do not grow together, or a client
has just counted fewer than the maximum. -/
theorem issued_of_move (h : move cfg sha256 c sh pc a = some (sh', pc'))
    (hinf : Informed cfg sh pc) (phone : String) (purpose : OtpPurpose) :
    sh'.issued cfg phone purpose + (if Asking cfg phone purpose pc' then 1 else 0) ≤
        sh.issued cfg phone purpose + (if Asking cfg phone purpose pc then 1 else 0) ∨
      sh'.issued cfg phone purpose < cfg.maxIssuesPerWindow := by
  have hkeep : sh'.issued cfg phone purpose ≤ sh.issued cfg phone purpose →
      sh'.issued cfg phone purpose + (if Asking cfg phone purpose pc' then 1 else 0) ≤
        sh.issued cfg phone purpose + (if Asking cfg phone purpose pc then 1 else 0) ∨
      sh'.issued cfg phone purpose < cfg.maxIssuesPerWindow := by
    intro hle
    by_cases ha : Asking cfg phone purpose pc'
    · rcases ha.of_move h hinf with hold | ⟨rfl, hlt⟩
      · rw [if_pos ha, if_pos hold]
        exact Or.inl (by omega)
      · exact Or.inr hlt
    · rw [if_neg ha]
      exact Or.inl (by omega)
  cases move_spec h with
  | tick _ d =>
      have hlater : sh.now ≤ sh.now + (d : Int) := Int.le_add_of_nonneg_right (Int.natCast_nonneg d)
      exact hkeep (OtpTable.countRequestsSince_anti (issueSince_mono hlater))
  | insert otp =>
      have hsave : (sh.table.save otp sh.now).countRequestsSince phone purpose
          (issueSince cfg sh.now) =
          sh.issued cfg phone purpose + if Matches phone purpose (otp.row sh.table.nextId sh.now) ∧
            issueSince cfg sh.now < sh.now then 1 else 0 :=
        OtpTable.countRequestsSince_save otp sh.now
      have hnot : ¬ Asking cfg phone purpose .idle := fun h => h
      rw [if_neg hnot]
      refine Or.inl (Nat.le_trans (Nat.le_of_eq hsave) (Nat.add_le_add_left ?_ _))
      by_cases ha : Asking cfg phone purpose (.insert otp)
      · rw [if_pos ha]
        split
        · exact Nat.le_refl 1
        · exact Nat.zero_le 1
      · have hrow : ¬ (Matches phone purpose (otp.row sh.table.nextId sh.now) ∧
            issueSince cfg sh.now < sh.now) := fun h => ha h.1
        rw [if_neg hrow]
        exact Nat.zero_le _
  | mark id at_ accepted =>
      exact hkeep (Nat.le_of_eq (OtpTable.countRequestsSince_update fun r => ⟨rfl, rfl, rfl⟩))
  | increment id =>
      exact hkeep (Nat.le_of_eq (OtpTable.countRequestsSince_update fun r => ⟨rfl, rfl, rfl⟩))
  | invalidate p q at_ =>
      exact hkeep (Nat.le_of_eq (OtpTable.countRequestsSince_update fun r => ⟨rfl, rfl, rfl⟩))
  | delete cutoff => exact hkeep (List.filter_sublist.countP_le)
  | quiet => exact hkeep (Nat.le_refl _)
  | find p q code now => exact hkeep (Nat.le_refl _)
  | exhausted code otp draw hb => exact hkeep (Nat.le_refl _)
  | accept code otp draw hb => exact hkeep (Nat.le_refl _)
  | reject code otp draw hb => exact hkeep (Nat.le_refl _)

structure IssueBudget (cfg : OtpConfig) (k : Nat) (phone : String) (purpose : OtpPurpose)
    (s : State) : Prop where
  holds : Pool.Holds Books (fun c sh pc => Standing c sh pc ∧ Informed cfg sh pc) s
  budget : Pool.Budget k (cfg.maxIssuesPerWindow - 1) (fun sh => sh.issued cfg phone purpose)
    (Asking cfg phone purpose) s

theorem IssueBudget.move {s : State} (h : IssueBudget cfg k phone purpose s) (hc : c < k)
    (hmove : move cfg sha256 c s.shared (s.client c) a = some (sh', pc')) :
    IssueBudget cfg k phone purpose ⟨sh', Function.update s.client c pc'⟩ where
  holds := informed_move h.holds (move_spec hmove)
  budget := by
    have hmax := cfg.maxIssues_pos
    refine h.budget.step_of_check hc ?_
    refine (issued_of_move hmove (h.holds.client c).2 phone purpose).imp_right fun hlt => ?_
    omega

/-- In every state of every run of `k` clients the window of a phone holds fewer than `k` codes
more than the maximum. -/
theorem issued_lt_of_run (cfg : OtpConfig) (sha256 : String → String) (now : Instant) (k : Nat)
    (acts : List (Nat × Action)) (s : State) (hk : Within k acts)
    (hrun : run (step cfg sha256) (initial now) acts = some s) (phone : String)
    (purpose : OtpPurpose) :
    s.shared.table.countRequestsSince phone purpose (issueSince cfg s.shared.now) <
      cfg.maxIssuesPerWindow + k := by
  have hinv : IssueBudget cfg k phone purpose s :=
    hk.inv ⟨informed_initial now, Pool.Budget.initial rfl fun _ h => h⟩
      (fun h hc hm => h.move hc hm) hrun
  have hmax := cfg.maxIssues_pos
  have hle : s.shared.table.countRequestsSince phone purpose (issueSince cfg s.shared.now) ≤
      cfg.maxIssuesPerWindow - 1 + k := hinv.budget.spent_le
  omega

theorem issued_lt_overlappingIssues :
    ∃ s, run (step .test sha256Sample) (initial 0) overlappingIssues = some s ∧
      s.shared.table.rows.length = 2 ∧
      s.shared.table.countRequestsSince "p" .userLogin (issueSince .test s.shared.now) < 5 + 2 := by
  have hrun : (run (step .test sha256Sample) (initial 0) overlappingIssues).map
      (fun s => s.shared.table.rows.length) = some 2 := by
    decide +kernel
  obtain ⟨s, hs, hlength⟩ := Option.map_eq_some_iff.1 hrun
  have hwithin : Within 2 overlappingIssues := by decide +kernel
  exact ⟨s, hs, hlength, issued_lt_of_run .test sha256Sample 0 2 _ s hwithin hs "p" .userLogin⟩

end NestStarter.Otps
