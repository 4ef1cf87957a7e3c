import NestStarter.Core.Machine
import NestStarter.Otps.History
import NestStarter.Otps.Table

/-! # The table refines the sessions

Read off the `otps` table, the rows of a phone and purpose are its session. A
service call decides as the session decides and leaves the session the history
replays to; it leaves every other session alone. The argument rests on two
facts about reachable tables: rows stand in the order of their ids, and only the
newest row of a phone and purpose can be unconsumed.
-/

namespace NestStarter.Otps

open OtpTable (Matches)

def OtpEntity.toCode (r : OtpEntity) : Code :=
  ⟨r.createdAt, r.expiresAt, r.codeHash, r.attempts, r.consumedAt.isSome⟩

namespace OtpTable

def line (t : OtpTable) (phone : String) (purpose : OtpPurpose) : List OtpEntity :=
  t.rows.filter fun r => Matches phone purpose r

/-- The rows of a phone and purpose, newest first, as a session knows them. -/
def session (t : OtpTable) (phone : String) (purpose : OtpPurpose) : Session :=
  ((t.line phone purpose).map OtpEntity.toCode).reverse

variable {t : OtpTable} {phone phone' : String} {purpose purpose' : OtpPurpose}

theorem Ok.line_sorted (h : t.Ok) (phone : String) (purpose : OtpPurpose) :
    (t.line phone purpose).Pairwise fun r s => r.id < s.id := h.sorted.filter _

theorem filter_matches (t : OtpTable) (phone : String) (purpose : OtpPurpose)
    (p : OtpEntity → Prop) [DecidablePred p] :
    t.rows.filter (fun r => Matches phone purpose r ∧ p r) =
      (t.line phone purpose).filter fun r => p r := by
  rw [line, List.filter_filter]
  refine List.filter_congr fun r _ => ?_
  simp [Bool.and_comm]

theorem session_eq_cons {pre : List OtpEntity} {r : OtpEntity}
    (h : t.line phone purpose = pre ++ [r]) :
    t.session phone purpose = r.toCode :: (pre.map OtpEntity.toCode).reverse := by
  simp [session, h]

theorem sumFailedAttemptsSince_eq (t : OtpTable) (phone : String) (purpose : OtpPurpose)
    (since : Instant) : t.sumFailedAttemptsSince phone purpose since =
      (t.session phone purpose).failuresSince since := by
  rw [sumFailedAttemptsSince, filter_matches]
  simp only [session, Session.failuresSince, List.filter_reverse, List.filter_map, List.map_reverse,
    List.sum_reverse, List.map_map]
  rfl

theorem countRequestsSince_eq (t : OtpTable) (phone : String) (purpose : OtpPurpose)
    (since : Instant) : t.countRequestsSince phone purpose since =
      (t.session phone purpose).requestsSince since := by
  rw [countRequestsSince, List.countP_eq_length_filter, filter_matches,
    ← List.countP_eq_length_filter]
  simp only [session, Session.requestsSince, List.countP_reverse, List.countP_map]
  rfl

theorem map_findLatest (h : t.Ok) :
    (t.findLatestByPhoneAndPurpose phone purpose).map OtpEntity.toCode =
      (t.session phone purpose).head? := by
  have hlast : t.findLatestByPhoneAndPurpose phone purpose = (t.line phone purpose).getLast? :=
    argmax_id_eq_getLast? (h.line_sorted phone purpose)
  simp [hlast, session]

/-- Where only the newest row can be unconsumed, the active row is the newest. -/
theorem findActive_spec (h : t.Ok) (now : Instant)
    (htail : ∀ c ∈ (t.session phone purpose).tail, c.closed = true) :
    (t.findActiveByPhoneAndPurpose phone purpose now).map OtpEntity.toCode =
        (t.session phone purpose).active now ∧
      ∀ otp, t.findActiveByPhoneAndPurpose phone purpose now = some otp →
        ∃ pre, t.line phone purpose = pre ++ [otp] := by
  have hfind : t.findActiveByPhoneAndPurpose phone purpose now =
      ((t.line phone purpose).filter fun r =>
        r.consumedAt = none ∧ now < r.expiresAt).getLast? := by
    rw [findActiveByPhoneAndPurpose, filter_matches]
    exact argmax_id_eq_getLast? ((h.line_sorted phone purpose).filter _)
  rcases List.eq_nil_or_concat (t.line phone purpose) with hnil | ⟨pre, r, hcat⟩
  · simp [hfind, hnil, session, Session.active]
  · rw [List.concat_eq_append] at hcat
    have hpre : pre.filter (fun r => r.consumedAt = none ∧ now < r.expiresAt) = [] := by
      rw [List.filter_eq_nil_iff]
      intro r' hr'
      have hclosed : r'.consumedAt.isSome = true := htail r'.toCode (by
        rw [session_eq_cons hcat]
        simpa using ⟨r', hr', rfl⟩)
      have hne : r'.consumedAt ≠ none := Option.isSome_iff_ne_none.1 hclosed
      simp [hne]
    rw [hfind, hcat, List.filter_append, hpre, session_eq_cons hcat]
    by_cases hact : r.consumedAt = none ∧ now < r.expiresAt
    · simp [Session.active, OtpEntity.toCode, hact.1, hact.2, Option.filter]
    · simp [hact, Session.active, OtpEntity.toCode, Option.filter]

theorem line_update {p : OtpEntity → Prop} [DecidablePred p] {f : OtpEntity → OtpEntity}
    (hf : Keeps f) : (t.update p f).line phone purpose =
      (t.line phone purpose).map fun r => if p r then f r else r := by
  simp only [line, OtpTable.update, List.filter_map]
  refine congrArg _ (List.filter_congr fun r _ => ?_)
  simp only [Function.comp_apply]
  split
  · simp [Matches, (hf r).2.1, (hf r).2.2]
  · rfl

/-- An update that spares the rows of a phone and purpose. -/
theorem session_update_of_forall {p : OtpEntity → Prop} [DecidablePred p]
    {f : OtpEntity → OtpEntity} (hf : Keeps f) (hp : ∀ r ∈ t.line phone purpose, ¬ p r) :
    (t.update p f).session phone purpose = t.session phone purpose := by
  have hmap : (t.line phone purpose).map (fun r => if p r then f r else r) =
      t.line phone purpose :=
    (List.map_congr_left fun r hr => if_neg (hp r hr)).trans (List.map_id _)
  rw [session, line_update hf, hmap, session]

theorem session_update_last (h : t.Ok) {pre : List OtpEntity} {otp : OtpEntity}
    (hline : t.line phone purpose = pre ++ [otp]) {f : OtpEntity → OtpEntity} (hf : Keeps f) :
    (t.update (fun r => r.id = otp.id) f).session phone purpose =
      (f otp).toCode :: (t.session phone purpose).tail := by
  have hpre : pre.map (fun r => if r.id = otp.id then f r else r) = pre := by
    refine (List.map_congr_left fun r hr => if_neg ?_).trans (List.map_id _)
    have hsorted := h.line_sorted phone purpose
    rw [hline, List.pairwise_append] at hsorted
    exact Nat.ne_of_lt (hsorted.2.2 r hr otp (List.mem_singleton_self otp))
  rw [session_eq_cons hline, List.tail_cons, session, line_update hf, hline, List.map_append, hpre]
  simp

theorem session_update_last_other (h : t.Ok) {pre : List OtpEntity} {otp : OtpEntity}
    (hline : t.line phone purpose = pre ++ [otp]) {f : OtpEntity → OtpEntity} (hf : Keeps f)
    (hne : ¬ (phone' = phone ∧ purpose' = purpose)) :
    (t.update (fun r => r.id = otp.id) f).session phone' purpose' = t.session phone' purpose' := by
  refine session_update_of_forall hf fun r hr hid => hne ?_
  have hotp : otp ∈ t.line phone purpose := by simp [hline]
  obtain ⟨hotp, hmatch⟩ := List.mem_filter.1 hotp
  obtain ⟨hr, hmatch'⟩ := List.mem_filter.1 hr
  obtain rfl := h.eq_of_id hr hotp hid
  obtain ⟨rfl, rfl⟩ : Matches phone' purpose' r := by simpa using hmatch'
  simpa [Matches] using hmatch

theorem session_invalidateActive (t : OtpTable) (phone : String) (purpose : OtpPurpose)
    (now : Instant) : (t.invalidateActive phone purpose now).session phone purpose =
      (t.session phone purpose).map Code.close := by
  have hf : Keeps fun r => { r with consumedAt := some now } := fun r => ⟨rfl, rfl, rfl⟩
  rw [invalidateActive, session, line_update hf, session, List.map_reverse, List.map_map,
    List.map_map]
  refine congrArg _ (List.map_congr_left fun r hr => ?_)
  have hmatch : Matches phone purpose r := by simpa using (List.mem_filter.1 hr).2
  cases hc : r.consumedAt <;> simp [hmatch, hc, OtpEntity.toCode, Code.close]

theorem session_invalidateActive_other (hne : ¬ (phone' = phone ∧ purpose' = purpose))
    (now : Instant) : (t.invalidateActive phone purpose now).session phone' purpose' =
      t.session phone' purpose' := by
  refine session_update_of_forall (fun r => ⟨rfl, rfl, rfl⟩) fun r hr hp => hne ?_
  obtain ⟨rfl, rfl⟩ : Matches phone' purpose' r := by simpa using (List.mem_filter.1 hr).2
  exact hp.1

theorem line_save (t : OtpTable) (n : NewOtp) (now : Instant) (phone : String)
    (purpose : OtpPurpose) : (t.save n now).line phone purpose = t.line phone purpose ++
      [n.row t.nextId now].filter fun r => Matches phone purpose r := List.filter_append ..

theorem session_save (t : OtpTable) (n : NewOtp) (now : Instant) :
    (t.save n now).session n.phone n.purpose =
      ⟨now, n.expiresAt, n.codeHash, n.attempts, false⟩ :: t.session n.phone n.purpose := by
  have hrow : Matches n.phone n.purpose (n.row t.nextId now) := ⟨rfl, rfl⟩
  rw [session, line_save, List.filter_cons_of_pos (by simpa only [decide_eq_true_eq] using hrow)]
  simp [session, OtpEntity.toCode, NewOtp.row]

theorem session_save_other {n : NewOtp} (hne : ¬ (phone' = n.phone ∧ purpose' = n.purpose))
    (now : Instant) : (t.save n now).session phone' purpose' = t.session phone' purpose' := by
  have hrow : ¬ Matches phone' purpose' (n.row t.nextId now) := fun h => hne ⟨h.1.symm, h.2.symm⟩
  rw [session, line_save, List.filter_cons_of_neg (by simpa only [decide_eq_true_eq] using hrow)]
  simp [session]

end OtpTable

/-! ## Calls -/

variable {cfg : OtpConfig} {sha256 : String → String} {t : OtpTable} {phone : String}
  {purpose : OtpPurpose}

/-- The call recorded as `e` takes table `t` to `t'`, as the sessions tell it. -/
structure Carries (cfg : OtpConfig) (sha256 : String → String) (e : Entry) (t t' : OtpTable) :
    Prop where
  ok : t'.Ok
  own : t'.session e.phone e.purpose = e.apply cfg sha256 (t.session e.phone e.purpose)
  other : ∀ phone purpose, ¬ (phone = e.phone ∧ purpose = e.purpose) →
    t'.session phone purpose = t.session phone purpose

theorem Carries.refused {e : Entry} (h : t.Ok) (he : e.effect = .refused) :
    Carries cfg sha256 e t t :=
  ⟨h, by simp [Entry.apply, he], fun _ _ _ => rfl⟩

theorem Carries.update_last {e : Entry} {pre : List OtpEntity} {otp : OtpEntity} (h : t.Ok)
    (hline : t.line e.phone e.purpose = pre ++ [otp]) {f : OtpEntity → OtpEntity} {g : Code → Code}
    (hf : OtpTable.Keeps f) (hg : (f otp).toCode = g otp.toCode)
    (he : ∀ cs, e.apply cfg sha256 cs = cs.modifyHead g) :
    Carries cfg sha256 e t (t.update (fun r => r.id = otp.id) f) where
  ok := h.update hf
  own := by
    rw [OtpTable.session_update_last h hline hf, he, hg, OtpTable.session_eq_cons hline]
    rfl
  other := fun _ _ hne => OtpTable.session_update_last_other h hline hf hne

theorem effect_phoneLocked (code : String) :
    (Event.verify code (.error (phoneLocked cfg))).effect = .refused := by
  simp [Event.effect, phoneLocked, invalidCode, tooManyAttempts]

/-- `verify` decides as the session does, and leaves the table its entry calls for. -/
theorem verify_refines (h : t.Ok) (htail : ∀ c ∈ (t.session phone purpose).tail, c.closed = true)
    (now : Instant) (code : String) :
    (Service.exec (verify cfg sha256 now phone purpose code) t).1 =
        (t.session phone purpose).verify cfg sha256 now code ∧
      Carries cfg sha256 ⟨phone, purpose, now,
          .verify code (Service.exec (verify cfg sha256 now phone purpose code) t).1⟩ t
        (Service.exec (verify cfg sha256 now phone purpose code) t).2 := by
  obtain ⟨hactive, hline⟩ := OtpTable.findActive_spec h now htail
  have hlocked : Locked cfg t now phone purpose ↔ cfg.phoneMaxFailuresPerWindow ≤
      (t.session phone purpose).failuresSince (lockSince cfg now) := by
    rw [Locked, OtpTable.sumFailedAttemptsSince_eq]
  rw [exec_verify]
  by_cases hl : Locked cfg t now phone purpose
  · simp only [if_pos hl, Session.verify, if_pos (hlocked.1 hl), true_and]
    exact Carries.refused h (effect_phoneLocked code)
  · simp only [if_neg hl, Session.verify, if_neg (mt hlocked.2 hl), ← hactive]
    cases hf : t.findActiveByPhoneAndPurpose phone purpose now with
    | none => exact ⟨rfl, Carries.refused h rfl⟩
    | some otp =>
        obtain ⟨pre, hpre⟩ := hline otp hf
        by_cases ha : cfg.maxVerifyAttempts ≤ otp.attempts
        · simp only [Option.map_some, OtpEntity.toCode, if_pos ha, true_and]
          exact Carries.update_last h hpre (fun r => ⟨rfl, rfl, rfl⟩) rfl fun cs => rfl
        · by_cases hh : sha256 code = otp.codeHash
          · simp only [Option.map_some, OtpEntity.toCode, if_neg ha, if_pos hh, true_and]
            exact Carries.update_last h hpre (fun r => ⟨rfl, rfl, rfl⟩) rfl fun cs => rfl
          · simp only [Option.map_some, OtpEntity.toCode, if_neg ha, if_neg hh, true_and]
            exact Carries.update_last h hpre (fun r => ⟨rfl, rfl, rfl⟩) rfl fun cs => rfl

theorem cooldownError_eq (now : Instant) (latest : Option OtpEntity) :
    cooldownError cfg now latest = Session.cooldown cfg now (latest.map OtpEntity.toCode) := by
  cases latest with
  | none => rfl
  | some r =>
      cases hc : r.consumedAt <;> simp [cooldownError, Session.cooldown, OtpEntity.toCode, hc]

/-- `issue` decides as the session does, and leaves the table its entry calls for. -/
theorem issue_refines (h : t.Ok) (now : Instant) (draw : Nat) (delivered : Bool) :
    (Service.exec (issue cfg sha256 now phone purpose draw delivered) t).1 =
        (t.session phone purpose).issue cfg now delivered ∧
      Carries cfg sha256 ⟨phone, purpose, now, .issue (persistedCode cfg draw)
          (Service.exec (issue cfg sha256 now phone purpose draw delivered) t).1⟩ t
        (Service.exec (issue cfg sha256 now phone purpose draw delivered) t).2 := by
  have hlocked : Locked cfg t now phone purpose ↔ cfg.phoneMaxFailuresPerWindow ≤
      (t.session phone purpose).failuresSince (lockSince cfg now) := by
    rw [Locked, OtpTable.sumFailedAttemptsSince_eq]
  rw [exec_issue]
  by_cases hl : Locked cfg t now phone purpose
  · simp only [if_pos hl, Session.issue, Session.refusal, if_pos (hlocked.1 hl), true_and]
    exact Carries.refused h rfl
  · simp only [if_neg hl, Session.issue, Session.refusal, if_neg (mt hlocked.2 hl),
      OtpTable.countRequestsSince_eq, cooldownError_eq, OtpTable.map_findLatest h]
    by_cases hr : cfg.maxIssuesPerWindow ≤
        (t.session phone purpose).requestsSince (issueSince cfg now)
    · simp only [if_pos hr, true_and]
      exact Carries.refused h rfl
    · simp only [if_neg hr]
      cases hc : Session.cooldown cfg now (t.session phone purpose).head? with
      | some e => exact ⟨rfl, Carries.refused h rfl⟩
      | none =>
          have hok : (t.invalidateActive phone purpose now).Ok := h.update fun r => ⟨rfl, rfl, rfl⟩
          refine ⟨rfl, hok.save _ _, ?_, fun phone' purpose' hne => ?_⟩
          · exact (OtpTable.session_save _ _ _).trans
              (congrArg _ (OtpTable.session_invalidateActive t phone purpose now))
          · exact (OtpTable.session_save_other hne now).trans
              (OtpTable.session_invalidateActive_other hne now)

end NestStarter.Otps
