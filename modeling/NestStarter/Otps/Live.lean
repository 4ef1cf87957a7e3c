import NestStarter.Otps.Reuse

/-! # How many codes of a phone are usable

`issue` consumes the unconsumed rows of the phone and inserts the new row in a
second statement. Another `issue` whose insert falls between the two leaves a
row that nobody has consumed. At every moment at most one code of a phone is
usable exactly as long as that does not happen.
-/

namespace NestStarter.Otps

open NestStarter.Core

open OtpTable (Matches)

variable {cfg : OtpConfig} {sha256 : String → String}

def LiveAt (now : Instant) (r : OtpEntity) : Prop := r.consumedAt = none ∧ now < r.expiresAt

instance (now : Instant) (r : OtpEntity) : Decidable (LiveAt now r) := by
  unfold LiveAt; infer_instance

/-- Each phone and purpose has at most one usable row. -/
def OneLive (sh : Shared) : Prop :=
  ∀ r ∈ sh.table.rows, ∀ r' ∈ sh.table.rows, r.phone = r'.phone → r.purpose = r'.purpose →
    LiveAt sh.now r → LiveAt sh.now r' → r = r'

/-- An `INSERT` of a row that has not expired meets no usable row of its phone: what
the call invalidated is still all there was. -/
def InsertsAlone (s : State) (a : Nat × Action) : Prop :=
  a.2 = .exec →
    match s.client a.1 with
    | .insert otp => s.shared.now < otp.expiresAt →
        s.shared.table.findActiveByPhoneAndPurpose otp.phone otp.purpose s.shared.now = none
    | _ => True

instance (sh : Shared) : Decidable (OneLive sh) := by unfold OneLive; infer_instance

instance (s : State) (a : Nat × Action) : Decidable (InsertsAlone s a) := by
  unfold InsertsAlone
  split <;> infer_instance

theorem findActive_eq_none {t : OtpTable} {phone : String} {purpose : OtpPurpose} {now : Instant} :
    t.findActiveByPhoneAndPurpose phone purpose now = none ↔
      ∀ r ∈ t.rows, Matches phone purpose r → ¬ LiveAt now r := by
  rw [OtpTable.findActiveByPhoneAndPurpose, List.argmax_eq_none, List.filter_eq_nil_iff]
  simp [LiveAt]

theorem Moves.now_le {c : Nat} {sh sh' : Shared} {pc pc' : Pc} {a : Action}
    (hm : Moves cfg sha256 c sh pc a sh' pc') : sh.now ≤ sh'.now := by
  cases hm with
  | tick _ d => exact Int.le_add_of_nonneg_right (Int.natCast_nonneg d)
  | _ => exact Int.le_refl _

theorem LiveAt.evolves {r r' : OtpEntity} {now now' : Instant} (h : LiveAt now' r')
    (hev : Evolves r r') (hnow : now ≤ now') : LiveAt now r :=
  ⟨hev.consumed h.1, Int.lt_of_le_of_lt hnow (hev.expiresAt ▸ h.2)⟩

theorem OneLive.step {s s' : State} {a : Nat × Action} (h : OneLive s.shared)
    (htable : s.shared.table.Ok) (hC : InsertsAlone s a) (hs : step cfg sha256 s a = some s') :
    OneLive s'.shared := by
  obtain ⟨sh', pc', hm, rfl⟩ := Pool.step_spec hs
  have hmoves := move_spec hm
  have htable' := (hmoves.table htable).1
  have hnow := hmoves.now_le
  -- a row that was just inserted is the only usable one of its phone
  have hnew : ∀ otp, a.2 = .exec → s.client a.1 = .insert otp → ∀ r ∈ s.shared.table.rows,
      ∀ r', Evolves r r' → r'.phone = otp.phone → r'.purpose = otp.purpose →
      LiveAt sh'.now (otp.row s.shared.table.nextId s.shared.now) → ¬ LiveAt sh'.now r' := by
    intro otp hexec hpc r hr r' hev hphone hpurpose hl hl'
    have hopen : s.shared.now < otp.expiresAt := Int.lt_of_le_of_lt hnow hl.2
    have hnone := hC hexec
    simp only [hpc] at hnone
    exact findActive_eq_none.1 (hnone hopen) r hr
      ⟨hev.phone.symm.trans hphone, hev.purpose.symm.trans hpurpose⟩ (hl'.evolves hev hnow)
  intro r' hr' q' hq' hphone hpurpose hlr hlq
  rcases hmoves.row hr' with ⟨r, hr, hevr⟩ | ⟨otp, hexec, hpc, hro⟩
  · rcases hmoves.row hq' with ⟨q, hq, hevq⟩ | ⟨otp, hexec, hpc, hqo⟩
    · have hrq : r = q := h r hr q hq (hevr.phone.symm.trans (hphone.trans hevq.phone))
        (hevr.purpose.symm.trans (hpurpose.trans hevq.purpose)) (hlr.evolves hevr hnow)
        (hlq.evolves hevq hnow)
      subst hrq
      exact htable'.eq_of_id hr' hq' (hevr.id.trans hevq.id.symm)
    · subst hqo
      exact absurd hlr (hnew otp hexec hpc r hr r' hevr hphone hpurpose hlq)
  · rcases hmoves.row hq' with ⟨q, hq, hevq⟩ | ⟨otp', _, hpc', hqo⟩
    · subst hro
      exact absurd hlq (hnew otp hexec hpc q hq q' hevq hphone.symm hpurpose.symm hlr)
    · obtain rfl : otp = otp' := by simpa [hpc] using hpc'
      rw [hro, hqo]

/-- An insert beside a usable row makes two of them. -/
theorem insertsAlone_of_oneLive {s s' : State} {a : Nat × Action} (htable : s.shared.table.Ok)
    (hs : step cfg sha256 s a = some s') (h : OneLive s'.shared) : InsertsAlone s a := by
  intro hexec
  cases hpc : s.client a.1 with
  | insert otp =>
      simp only
      intro hopen
      rw [findActive_eq_none]
      intro r hr hmatch hlive
      obtain ⟨sh', pc', hm, rfl⟩ := Pool.step_spec hs
      rw [hexec, hpc] at hm
      obtain ⟨rfl, rfl⟩ := Prod.mk.inj (Option.some.inj hm)
      have hlast : otp.row s.shared.table.nextId s.shared.now ∈
          (s.shared.table.save otp s.shared.now).rows := by simp [OtpTable.save]
      have heq := h r (List.mem_append_left _ hr) _ hlast hmatch.1 hmatch.2 hlive ⟨rfl, hopen⟩
      have hid : r.id = s.shared.table.nextId := congrArg OtpEntity.id heq
      have := htable.bound r hr
      omega
  | _ => trivial

structure LiveInv (s : State) : Prop where
  table : TableInv s
  one : OneLive s.shared

theorem LiveInv.step {s s' : State} {a : Nat × Action} (h : LiveInv s) (hC : InsertsAlone s a)
    (hs : step cfg sha256 s a = some s') : LiveInv s' :=
  ⟨h.table.step hs, h.one.step h.table hC hs⟩

theorem LiveInv.initial (now : Instant) : LiveInv (initial now) :=
  ⟨TableInv.initial now, by simp [OneLive, Otps.initial]⟩

/-- At every moment of a run each phone has at most one usable code, if and only if
every insert of the run found none. -/
theorem oneLive_iff_insertsAlone (cfg : OtpConfig) (sha256 : String → String) (now : Instant)
    (acts : List (Nat × Action)) (s : State)
    (hrun : run (step cfg sha256) (initial now) acts = some s) :
    (∀ as bs t, acts = as ++ bs → run (step cfg sha256) (initial now) as = some t →
        OneLive t.shared) ↔
      Along (step cfg sha256) InsertsAlone (initial now) acts := by
  constructor
  · intro h
    rw [along_iff]
    intro as a bs t hacts ht
    subst hacts
    rw [run_append_of_eq ht] at hrun
    obtain ⟨t', ht', _⟩ := run_cons_eq_some.1 hrun
    have hnext : run (step cfg sha256) (initial now) (as ++ [a]) = some t' := by
      rw [run_append_of_eq ht]
      exact run_cons_eq_some.2 ⟨t', ht', rfl⟩
    exact insertsAlone_of_oneLive (tableInv_of_run ht) ht'
      (h (as ++ [a]) bs t' (List.append_cons ..) hnext)
  · intro h as bs t hacts ht
    subst hacts
    exact (run_inv (fun _ _ _ hinv hC hs => hinv.step hC hs) (LiveInv.initial now) h.prefix ht).one

/-- Both calls invalidate before either inserts. -/
def overlappingIssues : List (Nat × Action) :=
  (issueSteps 0 "p").take 9 ++ (issueSteps 1 "p").take 9 ++ (issueSteps 0 "p").drop 9 ++
    (issueSteps 1 "p").drop 9

/-- A second code is issued after the cooldown, while somebody tries the first one. -/
def successiveIssues : List (Nat × Action) :=
  issueSteps 0 "p" ++ (verifySteps 2 "p" "000000").take 4 ++ [(0, .tick 60000)] ++
    issueSteps 1 "p" ++ (verifySteps 2 "p" "000000").drop 4

theorem not_oneLive_overlappingIssues :
    ∃ s, run (step .test sha256Sample) (initial 0) overlappingIssues = some s ∧
      ¬ OneLive s.shared := by
  have hrun : (run (step .test sha256Sample) (initial 0) overlappingIssues).any
      (fun s => !decide (OneLive s.shared)) = true := by
    decide +kernel
  simpa only [Option.any_eq_true, Bool.not_eq_true', decide_eq_false_iff_not] using hrun

theorem oneLive_successiveIssues :
    ∃ s, run (step .test sha256Sample) (initial 0) successiveIssues = some s ∧
      s.shared.table.rows.length = 2 ∧
      ∀ as bs t, successiveIssues = as ++ bs →
        run (step .test sha256Sample) (initial 0) as = some t → OneLive t.shared := by
  have hrun : (run (step .test sha256Sample) (initial 0) successiveIssues).map
      (fun s => s.shared.table.rows.length) = some 2 := by
    decide +kernel
  obtain ⟨s, hs, hlength⟩ := Option.map_eq_some_iff.1 hrun
  have halone : Along (step .test sha256Sample) InsertsAlone (initial 0) successiveIssues := by
    decide +kernel
  exact ⟨s, hs, hlength,
    (oneLive_iff_insertsAlone .test sha256Sample 0 successiveIssues s hs).2 halone⟩

end NestStarter.Otps
