import NestStarter.Otps.Live

/-! # How many wrong codes are compared

`verify` checks the attempts of the row and the failures of the phone, compares,
and increments in a statement of its own. A wrong code that has been compared is
not in the table until that statement has run; the settled table is the one in
which all of them have. Every wrong code ends up in it, in every run. Both caps
hold exactly as long as both checks would still pass on the settled table when a
comparison fails.
-/

namespace NestStarter.Otps

open NestStarter.Core

open OtpTable (Matches Counts)

variable {cfg : OtpConfig} {sha256 : String → String} {c id : Nat} {sh sh' : Shared} {pc pc' : Pc}
  {a : Action}

def Shared.awaited (sh : Shared) (id : Nat) : Nat := sh.inFlight.countP fun p => p.2 = id

def Shared.settledRow (sh : Shared) (r : OtpEntity) : OtpEntity :=
  { r with attempts := r.attempts + sh.awaited r.id }

/-- The table once every awaited increment has taken place. -/
def Shared.settled (sh : Shared) : OtpTable :=
  { sh.table with rows := sh.table.rows.map sh.settledRow }

theorem Shared.settled_ok (h : sh.table.Ok) : sh.settled.Ok where
  sorted := List.pairwise_map.2 h.sorted
  bound := by
    intro r hr
    obtain ⟨r₀, hr₀, rfl⟩ := List.mem_map.1 hr
    exact h.bound r₀ hr₀

theorem Shared.le_settled (sh : Shared) (phone : String) (purpose : OtpPurpose) (since : Instant) :
    sh.table.sumFailedAttemptsSince phone purpose since ≤
      sh.settled.sumFailedAttemptsSince phone purpose since := by
  have h := OtpTable.sumFailedAttemptsSince_le_of_map sh.table.rows (f := fun r => r)
    (g := sh.settledRow) (fun r _ => ⟨rfl, rfl, rfl, Nat.le_add_right ..⟩) sh.table.nextId
    sh.table.nextId phone purpose since
  rwa [List.map_id'] at h

/-- A step that settles nothing new: window sums do not grow, and a settled row was
there with the same attempts, or is new and has none. -/
structure Settles (sh sh' : Shared) : Prop where
  sums : ∀ phone purpose since, sh'.settled.sumFailedAttemptsSince phone purpose since ≤
    sh.settled.sumFailedAttemptsSince phone purpose since
  rows : ∀ r' ∈ sh'.settled.rows, (∃ r ∈ sh.settled.rows, r.id = r'.id ∧ r.attempts = r'.attempts) ∨
    (r'.id = sh.table.nextId ∧ r'.attempts = 0)

theorem Settles.of_map {g : OtpEntity → OtpEntity} (hrows : sh'.table.rows = sh.table.rows.map g)
    (hid : ∀ r, (g r).id = r.id)
    (hg : ∀ r ∈ sh.table.rows, (g r).phone = r.phone ∧ (g r).purpose = r.purpose ∧
      (g r).createdAt = r.createdAt ∧
        (g r).attempts + sh'.awaited r.id = r.attempts + sh.awaited r.id) :
    Settles sh sh' where
  sums := by
    intro phone purpose since
    have hmap : sh'.settled.rows = sh.table.rows.map fun r => sh'.settledRow (g r) := by
      simp [Shared.settled, hrows, Function.comp_def]
    have h := OtpTable.sumFailedAttemptsSince_le_of_map sh.table.rows
      (f := fun r => sh'.settledRow (g r)) (g := sh.settledRow) (fun r hr => ?_) sh'.table.nextId
      sh.table.nextId phone purpose since
    · rw [← hmap] at h
      exact h
    · obtain ⟨hphone, hpurpose, hcreated, hattempts⟩ := hg r hr
      exact ⟨hphone, hpurpose, hcreated, by simp [Shared.settledRow, hid, hattempts]⟩
  rows := by
    intro r' hr'
    obtain ⟨r₁, hr₁, rfl⟩ := List.mem_map.1 hr'
    rw [hrows] at hr₁
    obtain ⟨r, hr, rfl⟩ := List.mem_map.1 hr₁
    refine Or.inl ⟨sh.settledRow r, List.mem_map_of_mem hr, (hid r).symm, ?_⟩
    simp [Shared.settledRow, hid, (hg r hr).2.2.2]

theorem Settles.of_eq (htable : sh'.table = sh.table) (hflight : sh'.inFlight = sh.inFlight) :
    Settles sh sh' :=
  Settles.of_map (g := fun r => r) (by simp [htable]) (fun _ => rfl)
    fun r _ => ⟨rfl, rfl, rfl, by simp [Shared.awaited, hflight]⟩

theorem Settles.save (h : ∀ p ∈ sh.inFlight, p.2 < sh.table.nextId) {otp : NewOtp}
    (hotp : otp.attempts = 0) : Settles sh { sh with table := sh.table.save otp sh.now } := by
  have hnone : sh.awaited sh.table.nextId = 0 :=
    List.countP_eq_zero.2 fun p hp => by simpa using Nat.ne_of_lt (h p hp)
  have hrow : sh.settledRow (otp.row sh.table.nextId sh.now) = otp.row sh.table.nextId sh.now := by
    simp [Shared.settledRow, NewOtp.row, hnone]
  have hsettled : Shared.settled { sh with table := sh.table.save otp sh.now } =
      sh.settled.save otp sh.now := by
    have hmap : (sh.table.save otp sh.now).rows.map sh.settledRow =
        (sh.settled.save otp sh.now).rows := by
      simp [OtpTable.save, Shared.settled, hrow]
    exact congrArg (OtpTable.mk · (sh.table.nextId + 1)) hmap
  refine ⟨fun phone purpose since => ?_, fun r hr => ?_⟩
  · rw [hsettled, OtpTable.sumFailedAttemptsSince_save _ hotp]
  · rw [hsettled] at hr
    rcases List.mem_append.1 hr with hr | hr
    · exact Or.inl ⟨r, hr, rfl, rfl⟩
    · rw [List.mem_singleton.1 hr]
      exact Or.inr ⟨rfl, hotp⟩

theorem Settles.delete (cutoff : Instant) :
    Settles sh { sh with table := sh.table.deleteCreatedBefore cutoff } := by
  have hsettled : Shared.settled { sh with table := sh.table.deleteCreatedBefore cutoff } =
      sh.settled.deleteCreatedBefore cutoff := by
    have hmap : (sh.table.deleteCreatedBefore cutoff).rows.map sh.settledRow =
        (sh.settled.deleteCreatedBefore cutoff).rows := by
      simp only [OtpTable.deleteCreatedBefore, Shared.settled, List.filter_map]
      rfl
    exact congrArg (OtpTable.mk · sh.table.nextId) hmap
  refine ⟨fun phone purpose since => ?_, fun r hr => ?_⟩
  · rw [hsettled]
    exact OtpTable.sumFailedAttemptsSince_deleteCreatedBefore_le ..
  · rw [hsettled] at hr
    exact Or.inl ⟨r, (List.mem_filter.1 hr).1, rfl, rfl⟩

/-- An awaited increment is in the settled table already. -/
theorem Settles.increment (h : (c, id) ∈ sh.inFlight) :
    Settles sh { sh with
      table := sh.table.incrementAttempts id
      inFlight := sh.inFlight.erase (c, id) } := by
  refine Settles.of_map
    (g := fun r => if r.id = id then { r with attempts := r.attempts + 1 } else r)
    rfl (fun r => by split <;> rfl) fun r _ => ?_
  have hcount : ∀ j,
      (sh.inFlight.erase (c, id)).countP (fun p => p.2 = j) + (if id = j then 1 else 0) =
      sh.inFlight.countP fun p => p.2 = j := by
    intro j
    have hperm := (List.perm_cons_erase h).countP_eq fun p => p.2 = j
    rw [hperm, List.countP_cons]
    simp
  have hj := hcount r.id
  by_cases hr : r.id = id
  · simp only [hr, if_true, Shared.awaited] at hj ⊢
    refine ⟨trivial, trivial, trivial, ?_⟩
    omega
  · simp only [hr, Ne.symm hr, if_false, Shared.awaited] at hj ⊢
    exact ⟨trivial, trivial, trivial, by omega⟩

/-- A comparison that fails is an increment of the settled table. -/
theorem settled_reject (sh : Shared) (c id : Nat) (compared : List Nat) :
    Shared.settled { sh with compared := compared, inFlight := (c, id) :: sh.inFlight } =
      sh.settled.incrementAttempts id := by
  have hmap : sh.table.rows.map
      (Shared.settledRow { sh with compared := compared, inFlight := (c, id) :: sh.inFlight }) =
      (sh.settled.incrementAttempts id).rows := by
    simp only [OtpTable.incrementAttempts, OtpTable.update, Shared.settled, List.map_map]
    refine List.map_congr_left fun r _ => ?_
    by_cases hr : r.id = id
    · simp [Shared.settledRow, Shared.awaited, hr, Nat.add_assoc]
    · simp [Shared.settledRow, Shared.awaited, hr, Ne.symm hr]
  exact congrArg (OtpTable.mk · sh.table.nextId) hmap

/-- A step leaves the comparisons alone and settles nothing new, or a comparison fails. -/
theorem Moves.settles (hm : Moves cfg sha256 c sh pc a sh' pc')
    (hawait : ∀ id, pc = .increment id → (c, id) ∈ sh.inFlight)
    (hbound : ∀ p ∈ sh.inFlight, p.2 < sh.table.nextId)
    (hnew : ∀ otp, pc = .insert otp → otp.attempts = 0) :
    (sh'.compared = sh.compared ∧ sh'.inFlight ⊆ sh.inFlight ∧ Settles sh sh') ∨
      ∃ code otp draw, pc = .found code (some otp) ∧ a = .resume draw ∧
        verifyBranch cfg sha256 code otp = .reject ∧
        sh' = { sh with
          compared := otp.id :: sh.compared
          inFlight := (c, otp.id) :: sh.inFlight } := by
  cases hm with
  | tick => exact Or.inl ⟨rfl, fun _ hp => hp, Settles.of_eq rfl rfl⟩
  | quiet => exact Or.inl ⟨rfl, fun _ hp => hp, Settles.of_eq rfl rfl⟩
  | find phone purpose code now => exact Or.inl ⟨rfl, fun _ hp => hp, Settles.of_eq rfl rfl⟩
  | exhausted code otp draw hb => exact Or.inl ⟨rfl, fun _ hp => hp, Settles.of_eq rfl rfl⟩
  | accept code otp draw hb => exact Or.inl ⟨rfl, fun _ hp => hp, Settles.of_eq rfl rfl⟩
  | reject code otp draw hb => exact Or.inr ⟨code, otp, draw, rfl, rfl, hb, rfl⟩
  | mark id at_ accepted =>
      refine Or.inl ⟨rfl, fun _ hp => hp, Settles.of_map rfl (fun r => ?_) fun r _ => ?_⟩
      · split <;> rfl
      · split <;> exact ⟨rfl, rfl, rfl, rfl⟩
  | increment id => exact Or.inl ⟨rfl, List.erase_subset, Settles.increment (hawait id rfl)⟩
  | invalidate phone purpose now =>
      refine Or.inl ⟨rfl, fun _ hp => hp, Settles.of_map rfl (fun r => ?_) fun r _ => ?_⟩
      · split <;> rfl
      · split <;> exact ⟨rfl, rfl, rfl, rfl⟩
  | insert otp => exact Or.inl ⟨rfl, fun _ hp => hp, Settles.save hbound (hnew otp rfl)⟩
  | delete cutoff => exact Or.inl ⟨rfl, fun _ hp => hp, Settles.delete cutoff⟩

/-! ## Every wrong code ends up in the table -/

/-- What a client has read, is about to insert or is about to increment. -/
structure Standing (c : Nat) (sh : Shared) (pc : Pc) : Prop where
  awaiting : ∀ id, pc = .increment id → (c, id) ∈ sh.inFlight
  found : ∀ code otp, pc = .found code (some otp) → otp.id < sh.table.nextId
  insert : ∀ otp, pc = .insert otp → otp.attempts = 0

/-- The ids in the records are ids of the table, and the settled attempts of a row
are the wrong codes that were compared with it. -/
structure Books (sh : Shared) : Prop where
  table : sh.table.Ok
  inFlight : ∀ p ∈ sh.inFlight, p.2 < sh.table.nextId
  compared : ∀ id ∈ sh.compared, id < sh.table.nextId
  counted : ∀ r ∈ sh.settled.rows, sh.compared.count r.id = r.attempts

theorem Books.step (h : Books sh) (hpc : Standing c sh pc)
    (hm : Moves cfg sha256 c sh pc a sh' pc') :
    Books sh' := by
  obtain ⟨htable, hnext⟩ := hm.table h.table
  have hfresh : sh.compared.count sh.table.nextId = 0 :=
    List.count_eq_zero.2 fun hid => Nat.lt_irrefl _ (h.compared _ hid)
  rcases hm.settles hpc.awaiting h.inFlight hpc.insert with
    ⟨hcompared, hsub, hsettles⟩ | ⟨code, otp, draw, hfound, rfl, hb, rfl⟩
  · refine ⟨htable, fun p hp => ?_, fun id hid => ?_, fun r' hr' => ?_⟩
    · have hlt := h.inFlight p (hsub hp)
      omega
    · rw [hcompared] at hid
      have hlt := h.compared id hid
      omega
    · rw [hcompared]
      rcases hsettles.rows r' hr' with ⟨r, hr, hid, hattempts⟩ | ⟨hid, hattempts⟩
      · rw [← hid, ← hattempts]
        exact h.counted r hr
      · rw [hid, hattempts, hfresh]
  · have hotp := hpc.found code otp hfound
    refine ⟨h.table, List.forall_mem_cons.2 ⟨hotp, h.inFlight⟩,
      List.forall_mem_cons.2 ⟨hotp, h.compared⟩, ?_⟩
    · rw [settled_reject]
      intro r' hr'
      obtain ⟨r, hr, rfl⟩ := List.mem_map.1 hr'
      have hcount := h.counted r hr
      by_cases hid : r.id = otp.id
      · simp only [hid, if_true, List.count_cons_self] at hcount ⊢
        rw [hcount]
      · simp only [hid, if_false]
        rw [List.count_cons_of_ne (Ne.symm hid), hcount]

theorem Quiet.standing (h : Quiet cfg sha256 sh pc pc') : Standing c sh pc' := by
  cases h with
  | call k => cases k <;> exact ⟨nofun, nofun, nofun⟩
  | toInsert phone purpose draw =>
      refine ⟨nofun, nofun, fun otp hotp => ?_⟩
      cases hotp
      rfl
  | _ => exact ⟨nofun, nofun, nofun⟩

theorem Moves.standing (hm : Moves cfg sha256 c sh pc a sh' pc') (htable : sh.table.Ok)
    (h : Standing c sh pc) : Standing c sh' pc' := by
  cases hm with
  | tick => exact ⟨h.awaiting, h.found, h.insert⟩
  | quiet _ _ _ hq => exact hq.standing
  | find phone purpose code now =>
      refine ⟨nofun, fun code' otp hotp => ?_, nofun⟩
      injection hotp with _ hotp
      exact htable.bound otp (OtpTable.findActive_mem hotp).1
  | reject code otp draw hb =>
      refine ⟨fun id hid => ?_, nofun, nofun⟩
      cases hid
      exact List.mem_cons_self ..
  | _ => exact ⟨nofun, nofun, nofun⟩

theorem Moves.standing_other (hm : Moves cfg sha256 c sh pc a sh' pc') (htable : sh.table.Ok)
    {d : Nat} (hd : d ≠ c) {pcd : Pc} (h : Standing d sh pcd) : Standing d sh' pcd := by
  refine ⟨fun id hid => ?_, fun code otp hotp =>
    Nat.lt_of_lt_of_le (h.found code otp hotp) (hm.table htable).2, h.insert⟩
  have hmem := h.awaiting id hid
  cases hm with
  | reject code otp draw hb => exact List.mem_cons_of_mem _ hmem
  | increment id' => exact (List.mem_erase_of_ne fun he => hd (Prod.mk.inj he).1).2 hmem
  | _ => exact hmem

theorem books_step {s s' : State} {a : Nat × Action} (h : Pool.Holds Books Standing s)
    (hs : step cfg sha256 s a = some s') : Pool.Holds Books Standing s' := by
  obtain ⟨sh', pc', hm, rfl⟩ := Pool.step_spec hs
  have hmoves := move_spec hm
  exact Pool.Holds.move (h.shared.step (h.client a.1) hmoves)
    (hmoves.standing h.shared.table (h.client a.1))
    fun d hd => hmoves.standing_other h.shared.table hd (h.client d)

theorem books_initial (now : Instant) : Pool.Holds Books Standing (initial now) where
  shared := ⟨TableInv.initial now, nofun, nofun, nofun⟩
  client := fun _ => ⟨nofun, nofun, nofun⟩

/-- In every run, whatever the order of the statements, the wrong codes compared with a
stored row are its attempts and the increments still awaited for it. -/
theorem count_compared_of_run {now : Instant} {acts : List (Nat × Action)} {s : State}
    (hrun : run (step cfg sha256) (initial now) acts = some s) {r : OtpEntity}
    (hr : r ∈ s.shared.table.rows) :
    s.shared.compared.count r.id = r.attempts + s.shared.awaited r.id := by
  have h : Pool.Holds Books Standing s :=
    Reachable.inv (books_initial now) (fun _ _ _ hs he => books_step hs he) ⟨acts, hrun⟩
  exact h.shared.counted (s.shared.settledRow r) (List.mem_map_of_mem hr)

/-! ## The caps -/

/-- When a comparison fails, both checks would still pass on the settled table: the
row is stored with attempts below the limit and, if the lock window reaches back to
it, its phone is not locked. -/
def ChecksHold (cfg : OtpConfig) (sha256 : String → String) (s : State) (a : Nat × Action) : Prop :=
  match a.2, s.client a.1 with
  | .resume _, .found code (some otp) => verifyBranch cfg sha256 code otp = .reject →
      ∃ r ∈ s.shared.settled.rows, r.id = otp.id ∧ r.attempts < cfg.maxVerifyAttempts ∧
        (lockSince cfg s.shared.now ≤ r.createdAt →
          ¬ Locked cfg s.shared.settled s.shared.now r.phone r.purpose)
  | _, _ => True

instance (s : State) : (a : Nat × Action) → Decidable (ChecksHold cfg sha256 s a)
  | (c, act) => by
      dsimp only [ChecksHold]
      split <;> infer_instance

/-- Both caps, on the settled table. -/
structure WithinCaps (cfg : OtpConfig) (sh : Shared) : Prop where
  row : ∀ id, sh.compared.count id ≤ cfg.maxVerifyAttempts
  window : ∀ phone purpose,
    sh.settled.sumFailedAttemptsSince phone purpose (lockSince cfg sh.now) ≤
      cfg.phoneMaxFailuresPerWindow

/-- One more wrong code, after both checks passed on the settled table. -/
theorem WithinCaps.reject (hbooks : Books sh) (h : WithinCaps cfg sh) {r : OtpEntity}
    (hr : r ∈ sh.settled.rows) (hlt : r.attempts < cfg.maxVerifyAttempts)
    (hopen : lockSince cfg sh.now ≤ r.createdAt →
      ¬ Locked cfg sh.settled sh.now r.phone r.purpose) :
    WithinCaps cfg { sh with
      compared := r.id :: sh.compared
      inFlight := (c, r.id) :: sh.inFlight } where
  row := by
    intro id
    by_cases hid : r.id = id
    · subst hid
      rw [List.count_cons_self, hbooks.counted r hr]
      exact hlt
    · rw [List.count_cons_of_ne hid]
      exact h.row id
  window := by
    intro phone purpose
    rw [settled_reject]
    have hsum := OtpTable.sumFailedAttemptsSince_incrementAttempts sh.settled.rows
      sh.settled.nextId r.id phone purpose (lockSince cfg sh.now)
    refine hsum.trans_le ?_
    -- the increment shows where the window reaches back to the row, and there the phone was open
    by_cases hin : Matches phone purpose r ∧ lockSince cfg sh.now ≤ r.createdAt
    · obtain ⟨⟨rfl, rfl⟩, hsince⟩ := hin
      have hone : sh.settled.rows.countP (fun s => s.id = r.id ∧ Matches r.phone r.purpose s ∧
          lockSince cfg sh.now ≤ s.createdAt) ≤ 1 :=
        le_trans (List.countP_mono_left fun s _ hs => by simp at hs ⊢; exact hs.1)
          ((Shared.settled_ok hbooks.table).countP_id_le_one r.id)
      have hroom := Nat.lt_of_not_le (hopen hsince)
      exact Nat.le_trans (Nat.add_le_add_left hone _) hroom
    · have hnone : sh.settled.rows.countP (fun s => s.id = r.id ∧ Matches phone purpose s ∧
          lockSince cfg sh.now ≤ s.createdAt) = 0 := by
        refine List.countP_eq_zero.2 fun s hs hp => ?_
        simp only [decide_eq_true_eq] at hp
        exact hin ((Shared.settled_ok hbooks.table).eq_of_id hs hr hp.1 ▸ hp.2)
      rw [hnone]
      exact h.window phone purpose

theorem WithinCaps.step (hbooks : Books sh) (hpc : Standing c sh pc) (h : WithinCaps cfg sh)
    (hC : ∀ code otp draw, pc = .found code (some otp) → a = .resume draw →
      verifyBranch cfg sha256 code otp = .reject →
      ∃ r ∈ sh.settled.rows, r.id = otp.id ∧ r.attempts < cfg.maxVerifyAttempts ∧
        (lockSince cfg sh.now ≤ r.createdAt → ¬ Locked cfg sh.settled sh.now r.phone r.purpose))
    (hm : Moves cfg sha256 c sh pc a sh' pc') : WithinCaps cfg sh' := by
  rcases hm.settles hpc.awaiting hbooks.inFlight hpc.insert with
    ⟨hcompared, _, hsettles⟩ | ⟨code, otp, draw, hfound, hdraw, hb, rfl⟩
  · refine ⟨fun id => hcompared ▸ h.row id, fun phone purpose => ?_⟩
    have hlater : lockSince cfg sh.now ≤ lockSince cfg sh'.now := Int.sub_le_sub_right hm.now_le _
    calc sh'.settled.sumFailedAttemptsSince phone purpose (lockSince cfg sh'.now)
        ≤ sh.settled.sumFailedAttemptsSince phone purpose (lockSince cfg sh'.now) :=
          hsettles.sums ..
      _ ≤ sh.settled.sumFailedAttemptsSince phone purpose (lockSince cfg sh.now) :=
          OtpTable.sumFailedAttemptsSince_anti _ _ _ hlater
      _ ≤ cfg.phoneMaxFailuresPerWindow := h.window phone purpose
  · obtain ⟨r, hr, hid, hlt, hopen⟩ := hC code otp draw hfound hdraw hb
    rw [← hid]
    exact h.reject hbooks hr hlt hopen

structure CapsInv (cfg : OtpConfig) (s : State) : Prop where
  books : Pool.Holds Books Standing s
  caps : WithinCaps cfg s.shared

theorem CapsInv.step {s s' : State} {a : Nat × Action} (h : CapsInv cfg s)
    (hC : ChecksHold cfg sha256 s a) (hs : step cfg sha256 s a = some s') : CapsInv cfg s' := by
  refine ⟨books_step h.books hs, ?_⟩
  obtain ⟨sh', pc', hm, rfl⟩ := Pool.step_spec hs
  refine WithinCaps.step h.books.shared (h.books.client a.1) h.caps ?_ (move_spec hm)
  intro code otp draw hfound hdraw hb
  simp only [ChecksHold, hfound, hdraw] at hC
  exact hC hb

theorem CapsInv.initial (now : Instant) : CapsInv cfg (initial now) where
  books := books_initial now
  caps := ⟨fun _ => Nat.zero_le _, fun _ _ => Nat.zero_le _⟩

/-- In every run whose failing comparisons would still have passed both checks, no row
is compared with more wrong codes than the limit, no counter exceeds it, and no phone's
attempts in the lock window exceed theirs. -/
theorem caps_of_run (cfg : OtpConfig) (sha256 : String → String) (now : Instant)
    (acts : List (Nat × Action)) (s : State)
    (hrun : run (step cfg sha256) (initial now) acts = some s)
    (hchecks : Along (step cfg sha256) (ChecksHold cfg sha256) (initial now) acts) :
    (∀ id, s.shared.compared.count id ≤ cfg.maxVerifyAttempts) ∧
      (∀ r ∈ s.shared.table.rows, r.attempts ≤ cfg.maxVerifyAttempts) ∧
      ∀ phone purpose, s.shared.table.sumFailedAttemptsSince phone purpose
        (lockSince cfg s.shared.now) ≤ cfg.phoneMaxFailuresPerWindow := by
  have h : CapsInv cfg s :=
    run_inv (fun _ _ _ hinv hC hs => hinv.step hC hs) (CapsInv.initial now) hchecks hrun
  refine ⟨h.caps.row, fun r hr => ?_, fun phone purpose => ?_⟩
  · have hcount := count_compared_of_run hrun hr
    have hrow := h.caps.row r.id
    omega
  · have hsettled := s.shared.le_settled phone purpose (lockSince cfg s.shared.now)
    have hwindow := h.caps.window phone purpose
    omega

/-- Eleven calls read the row before any of them increments it. -/
def parallelGuesses : List (Nat × Action) :=
  issueSteps 0 "p" ++
    (List.range 11).flatMap (fun c => (verifySteps (c + 1) "p" "000000").take 4) ++
    (List.range 11).flatMap (fun c => (verifySteps (c + 1) "p" "000000").drop 4)

/-- Two calls overlap while there is room for both. -/
def pairedGuesses : List (Nat × Action) :=
  issueSteps 0 "p" ++ (verifySteps 1 "p" "000000").take 4 ++ verifySteps 2 "p" "000000" ++
    (verifySteps 1 "p" "000000").drop 4

theorem caps_exceeded_parallelGuesses :
    ∃ s, run (step .test sha256Sample) (initial 0) parallelGuesses = some s ∧
      OtpConfig.test.maxVerifyAttempts < s.shared.compared.count 1 ∧
      (∃ r ∈ s.shared.table.rows, OtpConfig.test.maxVerifyAttempts < r.attempts) ∧
      OtpConfig.test.phoneMaxFailuresPerWindow <
        s.shared.table.sumFailedAttemptsSince "p" .userLogin (lockSince .test s.shared.now) := by
  have hrun : (run (step .test sha256Sample) (initial 0) parallelGuesses).any (fun s => decide
      (OtpConfig.test.maxVerifyAttempts < s.shared.compared.count 1 ∧
        (∃ r ∈ s.shared.table.rows, OtpConfig.test.maxVerifyAttempts < r.attempts) ∧
        OtpConfig.test.phoneMaxFailuresPerWindow <
          s.shared.table.sumFailedAttemptsSince "p" .userLogin (lockSince .test s.shared.now))) =
      true := by
    decide +kernel
  simpa only [Option.any_eq_true, decide_eq_true_eq] using hrun

theorem caps_pairedGuesses :
    ∃ s, run (step .test sha256Sample) (initial 0) pairedGuesses = some s ∧
      s.shared.compared = [1, 1] ∧ ∀ r ∈ s.shared.table.rows, r.attempts ≤ 5 := by
  have hrun : (run (step .test sha256Sample) (initial 0) pairedGuesses).map
      (fun s => s.shared.compared) = some [1, 1] := by
    decide +kernel
  obtain ⟨s, hs, hcompared⟩ := Option.map_eq_some_iff.1 hrun
  have hchecks : Along (step .test sha256Sample) (ChecksHold .test sha256Sample) (initial 0)
      pairedGuesses := by
    decide +kernel
  exact ⟨s, hs, hcompared, (caps_of_run .test sha256Sample 0 pairedGuesses s hs hchecks).2.1⟩

end NestStarter.Otps
