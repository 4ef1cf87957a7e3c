import NestStarter.Accounts.Save
import NestStarter.Core.Machine

/-! # Saves from stale loads

The calls that change one user's row, interleaved: each loads the entity, later saves
it, and may wait for other services in between. `save` itself is two awaited steps, the
read and the `UPDATE`.

An awaited step may also fail, and then the call throws. The sessions and the cached
principal, which the calls end with, are no part of the row and left out here.
`deactivated` is for the record: a deactivation has returned.
-/

namespace NestStarter.Accounts.LostUpdate

open NestStarter.Core

inductive Call where
  | deactivateByAdmin
  | updateMe (dto : UpdateUserMeDto)
  | uploadPhoto
  | completeProfile (dto : CompleteUserProfileDto)
  deriving DecidableEq, Repr

inductive Pc where
  | idle
  /-- `updateMe`, before `assertExists` of the city. -/
  | assertCity (dto : UpdateUserMeDto)
  /-- Before `findByIdOrFail`. -/
  | find (k : Call)
  | upload (user : UserEntity)
  /-- The photo is stored, the old one is to be deleted. -/
  | deletePhoto (user : UserEntity) (key : String)
  /-- `completeProfile`, before `assertExists` of the city. -/
  | assertExists (user : UserEntity) (dto : CompleteUserProfileDto)
  /-- The changes are merged; before the read of `save`. -/
  | save (k : Call) (changes : UserChanges) (user : UserEntity)
  | update (k : Call) (changes : UserChanges) (user : UserEntity) (changed : List Column)
  | revokeAllForUser
  | invalidateAuthCache (k : Call)
  deriving DecidableEq, Repr

structure Shared where
  row : UserEntity
  now : Instant
  deactivated : Bool := false

abbrev State := Pool Shared Pc

inductive Action where
  | tick (d : Nat)
  | call (k : Call)
  /-- The awaited step takes place. -/
  | exec
  /-- The upload is done. -/
  | stored (key : String)
  /-- The awaited step fails. -/
  | fail
  deriving DecidableEq, Repr

def mergeAndSave (k : Call) (user : UserEntity) (changes : UserChanges) : Pc :=
  .save k changes (user.merge changes)

def afterSave : Call → Pc
  | .deactivateByAdmin => .revokeAllForUser
  | k => .invalidateAuthCache k

variable (toDateString : Instant → String)

def loaded (user : UserEntity) : Call → Pc
  | .deactivateByAdmin => mergeAndSave .deactivateByAdmin user { isActive := some false }
  | .updateMe dto => mergeAndSave (.updateMe dto) user (dto.changes toDateString)
  | .uploadPhoto => .upload user
  -- throws `profile_already_completed`
  | .completeProfile dto => if user.isProfileCompleted then .idle else .assertExists user dto

def move (_c : Nat) (sh : Shared) (pc : Pc) : Action → Option (Shared × Pc)
  | .tick d => some ({ sh with now := sh.now + d }, pc)
  | .call k =>
      match pc with
      | .idle =>
          match k with
          | .updateMe dto =>
              if (dto.cityId.getD none).isSome then some (sh, .assertCity dto)
              else some (sh, .find k)
          | k => some (sh, .find k)
      | _ => none
  | .exec =>
      match pc with
      | .assertCity dto => some (sh, .find (.updateMe dto))
      | .find k => some (sh, loaded toDateString sh.row k)
      | .deletePhoto user key =>
          some (sh, mergeAndSave .uploadPhoto user { photoKey := some (some key) })
      | .assertExists user dto =>
          some (sh, mergeAndSave (.completeProfile dto) user (dto.changes toDateString))
      | .save k changes user =>
          match sh.row.changedColumns user with
          | [] => some (sh, afterSave k)
          | changed => some (sh, .update k changes user changed)
      | .update k _ user changed =>
          some ({ sh with row := sh.row.update user changed sh.now }, afterSave k)
      | .revokeAllForUser => some (sh, .invalidateAuthCache .deactivateByAdmin)
      | .invalidateAuthCache k =>
          some ({ sh with deactivated := sh.deactivated || k = .deactivateByAdmin }, .idle)
      | _ => none
  | .stored key =>
      match pc with
      | .upload user =>
          match user.photoKey with
          | none | some "" =>
              some (sh, mergeAndSave .uploadPhoto user { photoKey := some (some key) })
          | some _ => some (sh, .deletePhoto user key)
      | _ => none
  | .fail =>
      match pc with
      | .idle => none
      -- `.catch(() => undefined)`
      | .deletePhoto user key =>
          some (sh, mergeAndSave .uploadPhoto user { photoKey := some (some key) })
      | _ => some (sh, .idle)

def initial (row : UserEntity) (now : Instant) : State := ⟨{ row, now }, fun _ => .idle⟩

def step : State → Nat × Action → Option State := Pool.step (move toDateString)

/-- No changes are merged yet, or the call is over. -/
def Pc.early : Pc → Bool
  | .save .. | .update .. | .revokeAllForUser | .invalidateAuthCache _ => false
  | _ => true

/-- The steps after `merge`, one rule each; those before it leave the row alone. -/
inductive Moves : Shared → Pc → Action → Shared → Pc → Prop where
  | tick (sh : Shared) (pc : Pc) (d : Nat) :
      Moves sh pc (.tick d) { sh with now := sh.now + d } pc
  | early (sh : Shared) (pc pc' : Pc) (a : Action) (h : pc'.early = true) : Moves sh pc a sh pc'
  | merge (sh : Shared) (pc : Pc) (a : Action) (k : Call) (user : UserEntity)
      (changes : UserChanges)
      (h : changes.isActive = if k = .deactivateByAdmin then some false else none) :
      Moves sh pc a sh (mergeAndSave k user changes)
  | unchanged (sh : Shared) (k : Call) (changes : UserChanges) (user : UserEntity)
      (h : sh.row.changedColumns user = []) :
      Moves sh (.save k changes user) .exec sh (afterSave k)
  | read (sh : Shared) (k : Call) (changes : UserChanges) (user : UserEntity) :
      Moves sh (.save k changes user) .exec sh
        (.update k changes user (sh.row.changedColumns user))
  | update (sh : Shared) (k : Call) (changes : UserChanges) (user : UserEntity)
      (changed : List Column) :
      Moves sh (.update k changes user changed) .exec
        { sh with row := sh.row.update user changed sh.now } (afterSave k)
  | revokeAllForUser (sh : Shared) :
      Moves sh .revokeAllForUser .exec sh (.invalidateAuthCache .deactivateByAdmin)
  | return_ (sh : Shared) (k : Call) :
      Moves sh (.invalidateAuthCache k) .exec
        { sh with deactivated := sh.deactivated || k = .deactivateByAdmin } .idle

variable {toDateString} {c : Nat} {sh sh' : Shared} {pc pc' : Pc} {a : Action}

theorem moves_loaded (sh : Shared) (pc : Pc) (a : Action) (user : UserEntity) (k : Call) :
    Moves sh pc a sh (loaded toDateString user k) := by
  cases k with
  | deactivateByAdmin => exact .merge _ _ _ _ _ _ rfl
  | updateMe dto => exact .merge _ _ _ _ _ _ rfl
  | uploadPhoto => exact .early _ _ _ _ rfl
  | completeProfile dto =>
      show Moves sh pc a sh (if user.isProfileCompleted then .idle else .assertExists user dto)
      split
      · exact .early _ _ _ _ rfl
      · exact .early _ _ _ _ rfl

theorem move_spec (h : move toDateString c sh pc a = some (sh', pc')) :
    Moves sh pc a sh' pc' := by
  cases a with
  | tick d => cases h; exact .tick ..
  | call k =>
      cases pc with
      | idle =>
          cases k with
          | updateMe dto =>
              simp only [move] at h
              split at h <;> cases h <;> exact .early _ _ _ _ rfl
          | _ => cases h; exact .early _ _ _ _ rfl
      | _ => cases h
  | exec =>
      cases pc with
      | assertCity dto => cases h; exact .early _ _ _ _ rfl
      | find k => cases h; exact moves_loaded ..
      | deletePhoto user key => cases h; exact .merge _ _ _ _ _ _ rfl
      | assertExists user dto => cases h; exact .merge _ _ _ _ _ _ rfl
      | save k changes user =>
          cases hchanged : sh.row.changedColumns user with
          | nil =>
              simp only [move, hchanged] at h
              cases h
              exact .unchanged _ _ _ _ hchanged
          | cons col rest =>
              simp only [move, hchanged] at h
              cases h
              rw [← hchanged]
              exact .read ..
      | update k changes user changed => cases h; exact .update ..
      | revokeAllForUser => cases h; exact .revokeAllForUser ..
      | invalidateAuthCache k => cases h; exact .return_ ..
      | _ => cases h
  | stored key =>
      cases pc with
      | upload user =>
          simp only [move] at h
          split at h <;> cases h
          · exact .merge _ _ _ _ _ _ rfl
          · exact .merge _ _ _ _ _ _ rfl
          · exact .early _ _ _ _ rfl
      | _ => cases h
  | fail =>
      cases pc with
      | idle => cases h
      | deletePhoto user key => cases h; exact .merge _ _ _ _ _ _ rfl
      | _ => cases h; exact .early _ _ _ _ rfl

/-! ## Fresh reads -/

/-- The columns that the `UPDATE` a client is about to run was asked to change. -/
def Pc.mentions : Pc → Column → Bool
  | .update _ changes _ _ => changes.mentions
  | _ => fun _ => false

/-- When `save` reads the row again, the columns the call does not mention are as it
loaded them. -/
def Fresh (s : State) (a : Nat × Action) : Prop :=
  match s.client a.1, a.2 with
  | .save _ changes user, .exec =>
      ∀ c ∈ columns, changes.mentions c = false → user.column c = s.shared.row.column c
  | _, _ => True

instance (s : State) (a : Nat × Action) : Decidable (Fresh s a) := by
  unfold Fresh; split <;> infer_instance

/-- The step changes no column that its call does not mention, but for `updated_at`,
which takes the time. -/
def Spares (toDateString : Instant → String) (s : State) (a : Nat × Action) : Prop :=
  ∀ s', step toDateString s a = some s' → ∀ c, (s.client a.1).mentions c = false →
    s'.shared.row.column c = s.shared.row.column c ∨
      c = .updatedAt ∧ s'.shared.row.updatedAt = s.shared.now

/-- The changes of a deactivation deactivate, and no others touch the flag. -/
structure Carries (k : Call) (changes : UserChanges) (user : UserEntity) : Prop where
  deactivates : k = .deactivateByAdmin → changes.isActive = some false
  disabled : changes.isActive.isSome = true → user.isActive = false

/-- What a client knows where it stands. -/
def PcOk (_c : Nat) (sh : Shared) : Pc → Prop
  | .save k changes user => Carries k changes user
  | .update k changes user changed =>
      Carries k changes user ∧ (∀ c ∈ changed, changes.mentions c = true) ∧
        (k = .deactivateByAdmin → .isActive ∈ changed ∨ sh.row.isActive = false)
  | .revokeAllForUser => sh.row.isActive = false
  | .invalidateAuthCache k => k = .deactivateByAdmin → sh.row.isActive = false
  | _ => True

def Disabled (sh : Shared) : Prop := sh.deactivated = true → sh.row.isActive = false

abbrev Inv : State → Prop := Pool.Holds Disabled PcOk

theorem PcOk.of_early (h : pc.early = true) : PcOk c sh pc := by
  cases pc <;> trivial

theorem PcOk.afterSave {k : Call} (h : k = .deactivateByAdmin → sh.row.isActive = false) :
    PcOk c sh (afterSave k) := by
  cases k with
  | deactivateByAdmin => exact h rfl
  | _ => exact h

/-- A client's knowledge survives what keeps a disabled row disabled. -/
theorem PcOk.mono (h : PcOk c sh pc) (hrow : sh.row.isActive = false → sh'.row.isActive = false) :
    PcOk c sh' pc := by
  cases pc with
  | update k changes user changed => exact ⟨h.1, h.2.1, fun hk => (h.2.2 hk).imp_right hrow⟩
  | revokeAllForUser => exact hrow h
  | invalidateAuthCache k => exact fun hk => hrow (h hk)
  | _ => exact h

theorem Carries.merge {k : Call} {changes : UserChanges} (user : UserEntity)
    (h : changes.isActive = if k = .deactivateByAdmin then some false else none) :
    Carries k changes (user.merge changes) := by
  refine ⟨fun hk => by rw [h, if_pos hk], fun hsome => ?_⟩
  by_cases hk : k = .deactivateByAdmin
  · rw [if_pos hk] at h
    simp [UserEntity.merge, h]
  · rw [h, if_neg hk] at hsome
    cases hsome

/-- The flag after an `UPDATE` of mentioned columns. -/
theorem Carries.isActive_update {k : Call} {changes : UserChanges} {user : UserEntity}
    (h : Carries k changes user) {changed : List Column}
    (hmentions : ∀ c ∈ changed, changes.mentions c = true) (row : UserEntity) (now : Instant)
    (hrow : .isActive ∈ changed ∨ row.isActive = false) :
    (row.update user changed now).isActive = false := by
  have hcolumn := UserEntity.column_update row user changed now (c := .isActive) (by decide)
  by_cases hmem : Column.isActive ∈ changed
  · rw [if_pos hmem] at hcolumn
    exact (UserEntity.isActive_eq_of_column hcolumn).trans (h.disabled (hmentions _ hmem))
  · rw [if_neg hmem] at hcolumn
    exact (UserEntity.isActive_eq_of_column hcolumn).trans (hrow.resolve_left hmem)

/-- A deactivation that has read the row finds it enabled or has nothing to write. -/
theorem Carries.read {k : Call} {changes : UserChanges} {user row : UserEntity}
    (h : Carries k changes user) (hk : k = .deactivateByAdmin) :
    .isActive ∈ row.changedColumns user ∨ row.isActive = false := by
  by_cases hmem : Column.isActive ∈ row.changedColumns user
  · exact Or.inl hmem
  · have hcolumn : user.column .isActive = row.column .isActive := by
      by_contra hne
      exact hmem (UserEntity.mem_changedColumns.2 hne)
    have hdisabled := h.disabled (by rw [h.deactivates hk]; rfl)
    exact Or.inr ((UserEntity.isActive_eq_of_column hcolumn).symm.trans hdisabled)

/-- The mover's part, and what the others rely on. -/
theorem Moves.keeps (hm : Moves sh pc a sh' pc') (hsh : Disabled sh) (hpc : PcOk c sh pc)
    (hfresh : ∀ k changes user, pc = .save k changes user → a = .exec →
      ∀ col ∈ columns, changes.mentions col = false → user.column col = sh.row.column col) :
    Disabled sh' ∧ PcOk c sh' pc' ∧
      (sh.row.isActive = false → sh'.row.isActive = false) := by
  cases hm with
  | tick pc d => exact ⟨hsh, hpc.mono fun hrow => hrow, fun hrow => hrow⟩
  | early pc pc' a h => exact ⟨hsh, PcOk.of_early h, fun hrow => hrow⟩
  | merge pc a k user changes h => exact ⟨hsh, Carries.merge user h, fun hrow => hrow⟩
  | unchanged k changes user h =>
      refine ⟨hsh, PcOk.afterSave fun hk => ?_, fun hrow => hrow⟩
      exact (Carries.read hpc hk).resolve_left (by simp [h])
  | read k changes user =>
      refine ⟨hsh, ⟨hpc, fun col hcol => ?_, fun hk => Carries.read hpc hk⟩, fun hrow => hrow⟩
      by_contra hnot
      exact UserEntity.mem_changedColumns.1 hcol
        (hfresh k changes user rfl rfl col (mem_columns col) (by simpa using hnot))
  | update k changes user changed =>
      obtain ⟨hcarries, hmentions, hdeactivates⟩ := hpc
      have hrow := hcarries.isActive_update hmentions sh.row sh.now
      exact ⟨fun hdone => hrow (Or.inr (hsh hdone)),
        PcOk.afterSave fun hk => hrow (hdeactivates hk), fun hrow' => hrow (Or.inr hrow')⟩
  | revokeAllForUser => exact ⟨hsh, fun _ => hpc, fun hrow => hrow⟩
  | return_ k =>
      refine ⟨fun hdone => ?_, trivial, fun hrow => hrow⟩
      rcases Bool.or_eq_true_iff.1 hdone with hdone | hk
      · exact hsh hdone
      · exact hpc (of_decide_eq_true hk)

theorem Fresh.columns {s : State} {a : Nat × Action} (h : Fresh s a) :
    ∀ k changes user, s.client a.1 = .save k changes user → a.2 = .exec →
      ∀ col ∈ columns, changes.mentions col = false →
        user.column col = s.shared.row.column col := by
  intro k changes user hpc ha
  simpa only [Fresh, hpc, ha] using h

theorem Inv.step {s s' : State} {a : Nat × Action} (h : Inv s) (hfresh : Fresh s a)
    (hs : step toDateString s a = some s') : Inv s' := by
  obtain ⟨sh, pc, hm, rfl⟩ := Pool.step_spec hs
  obtain ⟨hsh, hown, hrow⟩ := (move_spec hm).keeps h.shared (h.client a.1) hfresh.columns
  exact Pool.Holds.move hsh hown fun d _ => (h.client d).mono hrow

theorem Inv.spares {s : State} {a : Nat × Action} (h : Inv s) : Spares toDateString s a := by
  intro s' hs col hcol
  obtain ⟨c, act⟩ := a
  obtain ⟨sh, pc, hm, rfl⟩ := Pool.step_spec hs
  have hpc := h.client c
  simp only at hm hcol
  generalize s.client c = pc₀ at hm hpc hcol
  cases move_spec hm with
  | update k changes user changed =>
      have hnot : ∀ c, changes.mentions c = false → c ∉ changed := fun c hc hmem => by
        rw [hpc.2.1 c hmem] at hc
        cases hc
      by_cases hupdated : col = .updatedAt
      · rcases UserEntity.updatedAt_update s.shared.now (hnot .updatedAt rfl) with hkept | hnow
        · exact Or.inl (by subst hupdated; exact congrArg JsValue.date hkept)
        · exact Or.inr ⟨hupdated, hnow⟩
      · refine Or.inl ((UserEntity.column_update _ _ _ _ hupdated).trans ?_)
        rw [if_neg (hnot col hcol)]
  | _ => exact Or.inl rfl

/-- Where every `save` reads the row as its call loaded it, but for the columns the call
changes, no update is lost: a user is disabled once a deactivation has returned, and no
call reverts what another one changed. -/
theorem noLostUpdate_of_run (toDateString : Instant → String) (row : UserEntity) (now : Instant)
    (acts : List (Nat × Action)) (s : State)
    (hrun : run (step toDateString) (initial row now) acts = some s)
    (hfresh : Along (step toDateString) Fresh (initial row now) acts) :
    (s.shared.deactivated = true → s.shared.row.isActive = false) ∧
      Along (step toDateString) (Spares toDateString) (initial row now) acts := by
  have hinit : Inv (initial row now) := ⟨nofun, fun _ => trivial⟩
  have hstep : ∀ s a s', Inv s → Fresh s a → step toDateString s a = some s' → Inv s' :=
    fun s a s' h hfresh hs => h.step hfresh hs
  exact ⟨(run_inv hstep hinit hfresh hrun).shared,
    Along.of_inv hstep (fun s a h _ => h.spares) hinit hfresh⟩

def sampleUser : UserEntity where
  id := 7
  createdAt := 0
  updatedAt := 0
  phone := "+963944123456"

/-- A deactivation between the two statements of the save of `PATCH /user/me`. -/
def overlapping : List (Nat × Action) :=
  [(0, .call (.updateMe { firstName := some "Sara" })), (0, .exec), (1, .call .deactivateByAdmin),
    (1, .exec), (0, .exec), (0, .tick 5), (1, .exec), (1, .exec), (0, .exec), (1, .exec),
    (1, .exec), (0, .exec)]

theorem noLostUpdate_overlapping :
    ∃ s, run (step fun _ => "") (initial sampleUser 1) overlapping = some s ∧
      s.shared.row.firstName = some "Sara" ∧ s.shared.deactivated = true ∧
      s.shared.row.isActive = false ∧
      Along (step fun _ => "") (Spares fun _ => "") (initial sampleUser 1) overlapping := by
  have hrun : (run (step fun _ => "") (initial sampleUser 1) overlapping).any
      (fun s => s.shared.row.firstName = some "Sara" ∧ s.shared.deactivated) = true := by decide
  obtain ⟨s, hs, hboth⟩ := (Option.any_eq_true _ _).1 hrun
  obtain ⟨hname, hdone⟩ := of_decide_eq_true hboth
  obtain ⟨hrow, hspares⟩ :=
    noLostUpdate_of_run (fun _ => "") sampleUser 1 overlapping s hs (by decide)
  exact ⟨s, hs, hname, hdone, hrow hdone, hspares⟩

/-- The deactivation comes between the load and the save. -/
def overtaken : List (Nat × Action) :=
  [(0, .call (.updateMe { firstName := some "Sara" })), (0, .exec),
    (1, .call .deactivateByAdmin), (1, .exec), (1, .exec), (1, .exec), (1, .exec), (1, .exec),
    (0, .exec), (0, .exec), (0, .exec)]

/-- The save writes the flag it loaded, and the user is enabled again. -/
theorem lostUpdate_of_overtaken :
    ∃ s, run (step fun _ => "") (initial sampleUser 1) overtaken = some s ∧
      (∀ c, s.client c = .idle) ∧ s.shared.deactivated = true ∧ s.shared.row.isActive = true := by
  have hrun : run (step fun _ => "") (initial sampleUser 1) overtaken = some _ := rfl
  refine ⟨_, rfl, ?_, rfl, rfl⟩
  exact Pool.forall_client hrun (· = .idle) 2 (fun _ => rfl) (by decide) (by decide)

end NestStarter.Accounts.LostUpdate
