import NestStarter.Otps.Machine

/-! # How often one code logs in

`verify` reads the active row, compares, and marks the row consumed by its id
alone. Two calls that have both read the row before either has marked it both
succeed. Where that overlap does not occur, a row is the reason for one success
at most, whatever else runs in between.
-/

namespace NestStarter.Otps

open NestStarter.Core

variable {cfg : OtpConfig} {sha256 : String → String} {c id : Nat} {sh sh' : Shared} {pc pc' : Pc}
  {a : Action}

/-- The client has read row `id` with a matching code and has yet to mark it. -/
def Accepting (cfg : OtpConfig) (sha256 : String → String) (id : Nat) (pc : Pc) : Prop :=
  match pc with
  | .found code (some otp) => otp.id = id ∧ verifyBranch cfg sha256 code otp = .accept
  | .mark i _ true => i = id
  | _ => False

/-- The row the client's next statement reads with a matching code. -/
def acceptedRead (cfg : OtpConfig) (sha256 : String → String) (sh : Shared) (pc : Pc) :
    Option Nat :=
  match pc with
  | .find phone purpose code now =>
      ((sh.table.findActiveByPhoneAndPurpose phone purpose now).filter fun otp =>
        verifyBranch cfg sha256 code otp = .accept).map OtpEntity.id
  | _ => none

/-- A step that reads a row with a matching code does so while nobody else is
between such a read of that row and its mark. -/
def ReadsAlone (cfg : OtpConfig) (sha256 : String → String) (s : State) (a : Nat × Action) : Prop :=
  a.2 = .exec → ∀ id ∈ acceptedRead cfg sha256 s.shared (s.client a.1),
    ∀ d, ¬ Accepting cfg sha256 id (s.client d)

instance : Decidable (Accepting cfg sha256 id pc) := by unfold Accepting; split <;> infer_instance

theorem Quiet.not_accepting (h : Quiet cfg sha256 sh pc pc') : ¬ Accepting cfg sha256 id pc' := by
  cases h with
  | call k => cases k <;> exact fun h => h
  | _ => exact fun h => h

theorem Moves.accepting (hm : Moves cfg sha256 c sh pc a sh' pc')
    (h : Accepting cfg sha256 id pc') :
    Accepting cfg sha256 id pc ∨ (a = .exec ∧ id ∈ acceptedRead cfg sha256 sh pc) := by
  cases hm with
  | tick => exact Or.inl h
  | quiet _ _ _ hq => exact absurd h hq.not_accepting
  | find phone purpose code now =>
      refine Or.inr ⟨rfl, ?_⟩
      cases hf : sh.table.findActiveByPhoneAndPurpose phone purpose now with
      | none => simp [Accepting, hf] at h
      | some otp =>
          simp only [hf] at h
          obtain ⟨rfl, hb⟩ := h
          simp [acceptedRead, hf, hb]
  | accept code otp draw hb => exact Or.inl ⟨h, hb⟩
  | exhausted code otp draw hb => exact h.elim
  | reject code otp draw hb => exact h.elim
  | mark id at_ accepted => exact h.elim
  | increment id => exact h.elim
  | invalidate phone purpose now => exact h.elim
  | insert otp => exact h.elim
  | delete cutoff => exact h.elim

/-- A success marks the row the client was accepting. -/
theorem Moves.verified (hm : Moves cfg sha256 c sh pc a sh' pc') :
    sh'.verified = sh.verified ∨
      ∃ id at_, Accepting cfg sha256 id pc ∧ pc' = .idle ∧ sh'.verified = id :: sh.verified ∧
        sh'.table = sh.table.markConsumed id at_ := by
  cases hm with
  | mark id at_ accepted =>
      cases accepted with
      | false => exact Or.inl rfl
      | true => exact Or.inr ⟨id, at_, rfl, rfl, rfl, rfl⟩
  | _ => exact Or.inl rfl

theorem acceptedRead_mem (h : id ∈ acceptedRead cfg sha256 sh pc) :
    ∃ otp ∈ sh.table.rows, otp.id = id ∧ otp.consumedAt = none := by
  unfold acceptedRead at h
  split at h
  · obtain ⟨otp, hotp, rfl⟩ := Option.map_eq_some_iff.1 h
    obtain ⟨hotp, _⟩ := Option.filter_eq_some_iff.1 hotp
    obtain ⟨hrow, _, hopen, _⟩ := OtpTable.findActive_mem hotp
    exact ⟨otp, hrow, rfl, hopen⟩
  · cases h

/-! ## The invariant -/

/-- A row that has let a `verify` succeed is consumed; a row somebody is accepting
has not done so yet, and nobody else is accepting it. -/
structure UseInv (cfg : OtpConfig) (sha256 : String → String) (s : State) : Prop where
  table : s.shared.table.Ok
  once : s.shared.verified.Nodup
  consumed : ∀ id ∈ s.shared.verified, id < s.shared.table.nextId ∧
    ∀ r ∈ s.shared.table.rows, r.id = id → r.consumedAt ≠ none
  accepting : ∀ d id, Accepting cfg sha256 id (s.client d) →
    id ∉ s.shared.verified ∧ id < s.shared.table.nextId
  alone : ∀ d e id, Accepting cfg sha256 id (s.client d) → Accepting cfg sha256 id (s.client e) →
    d = e

/-- Who is accepting a row after a step was so before, or has just read it alone. -/
theorem UseInv.accepting_step {s : State} {a : Nat × Action} (hC : ReadsAlone cfg sha256 s a)
    (hm : Moves cfg sha256 a.1 s.shared (s.client a.1) a.2 sh' pc') {d : Nat}
    (hd : Accepting cfg sha256 id (Function.update s.client a.1 pc' d)) :
    Accepting cfg sha256 id (s.client d) ∨ d = a.1 ∧
      id ∈ acceptedRead cfg sha256 s.shared (s.client a.1) ∧
      ∀ e, ¬ Accepting cfg sha256 id (s.client e) := by
  by_cases hda : d = a.1
  · subst hda
    rcases hm.accepting (by simpa using hd) with hold | ⟨hexec, hread⟩
    · exact Or.inl hold
    · exact Or.inr ⟨rfl, hread, hC hexec id hread⟩
  · exact Or.inl (by simpa [Function.update_of_ne hda] using hd)

theorem UseInv.step {s s' : State} {a : Nat × Action} (h : UseInv cfg sha256 s)
    (hC : ReadsAlone cfg sha256 s a) (hs : step cfg sha256 s a = some s') :
    UseInv cfg sha256 s' := by
  obtain ⟨sh', pc', hm, rfl⟩ := Pool.step_spec hs
  have hmoves := move_spec hm
  obtain ⟨htable, hnext⟩ := hmoves.table h.table
  have hacc : ∀ d id, Accepting cfg sha256 id (Function.update s.client a.1 pc' d) →
      id ∉ s.shared.verified ∧ id < s.shared.table.nextId := by
    intro d id hd
    rcases UseInv.accepting_step hC hmoves hd with hold | ⟨_, hread, _⟩
    · exact h.accepting d id hold
    · obtain ⟨otp, hotp, rfl, hopen⟩ := acceptedRead_mem hread
      exact ⟨fun hv => (h.consumed _ hv).2 otp hotp rfl hopen, h.table.bound otp hotp⟩
  have hkeep : ∀ id ∈ s.shared.verified, id < sh'.table.nextId ∧
      ∀ r ∈ sh'.table.rows, r.id = id → r.consumedAt ≠ none := by
    intro id hid
    obtain ⟨hlt, hused⟩ := h.consumed id hid
    refine ⟨by omega, fun r' hr' hrid hopen => ?_⟩
    rcases hmoves.row hr' with ⟨r, hr, hev⟩ | ⟨otp, _, _, rfl⟩
    · exact hused r hr (hev.id.symm.trans hrid) (hev.consumed hopen)
    · exact absurd hrid (Nat.ne_of_gt hlt)
  have halone : ∀ d e id, Accepting cfg sha256 id (Function.update s.client a.1 pc' d) →
      Accepting cfg sha256 id (Function.update s.client a.1 pc' e) → d = e := by
    intro d e id hd he
    rcases UseInv.accepting_step hC hmoves hd with hd' | ⟨hda, _, hnone⟩
    · rcases UseInv.accepting_step hC hmoves he with he' | ⟨_, _, hnone⟩
      · exact h.alone d e id hd' he'
      · exact absurd hd' (hnone d)
    · rcases UseInv.accepting_step hC hmoves he with he' | ⟨hea, _, _⟩
      · exact absurd he' (hnone e)
      · exact hda.trans hea.symm
  rcases hmoves.verified with hv | ⟨id₀, at_, hacc₀, hidle, hv, htab⟩
  · refine ⟨htable, hv ▸ h.once, hv ▸ hkeep, fun d id hd => ?_, halone⟩
    exact ⟨hv ▸ (hacc d id hd).1, Nat.lt_of_lt_of_le (hacc d id hd).2 hnext⟩
  · obtain ⟨hfresh, hlt⟩ := h.accepting a.1 id₀ hacc₀
    refine ⟨htable, ?_, ?_, fun d id hd => ⟨?_, Nat.lt_of_lt_of_le (hacc d id hd).2 hnext⟩, halone⟩
    · rw [hv]
      exact List.nodup_cons.2 ⟨hfresh, h.once⟩
    · rw [hv]
      intro id hid
      rcases List.mem_cons.1 hid with rfl | hid
      · refine ⟨Nat.lt_of_lt_of_le hlt hnext, fun r hr hrid => ?_⟩
        rw [htab] at hr
        obtain ⟨r₀, _, rfl⟩ := List.mem_map.1 hr
        by_cases hr₀ : r₀.id = id
        · simp [hr₀]
        · simp only [if_neg hr₀] at hrid
          exact absurd hrid hr₀
      · exact hkeep id hid
    · rw [hv]
      intro hid
      rcases List.mem_cons.1 hid with rfl | hid
      · have hda : d ≠ a.1 := by
          rintro rfl
          simp [hidle, Accepting] at hd
        have hold : Accepting cfg sha256 id (s.client d) := by
          simpa [Function.update_of_ne hda] using hd
        exact hda (h.alone d a.1 id hold hacc₀)
      · exact (hacc d id hd).1 hid

theorem UseInv.initial (now : Instant) : UseInv cfg sha256 (initial now) where
  table := ⟨List.Pairwise.nil, by simp [Otps.initial]⟩
  once := List.nodup_nil
  consumed := by simp [Otps.initial]
  accepting := fun _ _ h => h.elim
  alone := fun _ _ _ h _ => h.elim

/-- A row is the reason for at most one success, in every run in which no two calls
overlap between reading it with a matching code and marking it. -/
theorem verified_at_most_once (cfg : OtpConfig) (sha256 : String → String) (now : Instant)
    (acts : List (Nat × Action)) (s : State)
    (hrun : run (step cfg sha256) (initial now) acts = some s)
    (halone : Along (step cfg sha256) (ReadsAlone cfg sha256) (initial now) acts) (id : Nat) :
    s.shared.verified.count id ≤ 1 :=
  List.nodup_iff_count_le_one.1
    (run_inv (fun _ _ _ hinv hC hs => hinv.step hC hs) (UseInv.initial now) halone hrun).once id

def issueSteps (c : Nat) (phone : String) : List (Nat × Action) :=
  [(c, .call (.issue phone .userLogin)), (c, .exec), (c, .resume 0), (c, .exec), (c, .resume 0),
    (c, .exec), (c, .resume 0), (c, .exec), (c, .resume 0), (c, .exec)]

def verifySteps (c : Nat) (phone code : String) : List (Nat × Action) :=
  [(c, .call (.verify phone .userLogin code)), (c, .exec), (c, .resume 0), (c, .exec),
    (c, .resume 0), (c, .exec)]

/-- Both calls read the row before either marks it. -/
def overlappingLogins : List (Nat × Action) :=
  issueSteps 0 "p" ++ (verifySteps 1 "p" "123456").take 4 ++ verifySteps 2 "p" "123456" ++
    (verifySteps 1 "p" "123456").drop 4

/-- The first call marks the row before the second reads. -/
def successiveLogins : List (Nat × Action) :=
  issueSteps 0 "p" ++ verifySteps 1 "p" "123456" ++ (verifySteps 2 "p" "123456").take 5

theorem verified_overlappingLogins :
    ∃ s, run (step .test sha256Sample) (initial 0) overlappingLogins = some s ∧
      s.shared.verified.count 1 = 2 := by
  have hrun : (run (step .test sha256Sample) (initial 0) overlappingLogins).map
      (fun s => s.shared.verified.count 1) = some 2 := by
    decide +kernel
  obtain ⟨s, hs, hcount⟩ := Option.map_eq_some_iff.1 hrun
  exact ⟨s, hs, hcount⟩

theorem verified_successiveLogins :
    ∃ s, run (step .test sha256Sample) (initial 0) successiveLogins = some s ∧
      s.shared.verified = [1] ∧ s.shared.verified.count 1 ≤ 1 := by
  have hrun : (run (step .test sha256Sample) (initial 0) successiveLogins).map
      (fun s => s.shared.verified) = some [1] := by
    decide +kernel
  obtain ⟨s, hs, hverified⟩ := Option.map_eq_some_iff.1 hrun
  have hfew : Along (step .test sha256Sample)
      (fun s a => a.2 = .exec → ∀ id ∈ acceptedRead .test sha256Sample s.shared (s.client a.1),
        ∀ d : Nat, d < 3 → ¬ Accepting .test sha256Sample id (s.client d))
      (initial 0) successiveLogins := by
    decide +kernel
  have halone : Along (step .test sha256Sample) (ReadsAlone .test sha256Sample) (initial 0)
      successiveLogins := by
    refine Pool.along_of_forall_lt 3 (fun s a hidle hC hexec id hid d => ?_) (fun _ _ => rfl)
      (by decide) hfew
    by_cases hd : d < 3
    · exact hC hexec id hid d hd
    · rw [hidle d (Nat.not_lt.1 hd)]
      exact fun h => h
  exact ⟨s, hs, hverified, verified_at_most_once .test sha256Sample 0 _ s hs halone 1⟩

end NestStarter.Otps
