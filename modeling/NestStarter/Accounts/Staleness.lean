import NestStarter.Accounts.Coherence

/-! # How long a deactivated user is still let in

A guard that read the row before a deactivation may cache it afterwards. What it
caches lives for the TTL and nothing renews it, since every later miss reads the
saved row. So once the deactivation has deleted the cached copy and no guard is
still about to write what it read before, the user is out after one TTL: whatever
guard run starts then is rejected, in every order of the steps.
-/

namespace NestStarter.Accounts

open NestStarter.Core

variable {toISOString : Instant → String} {g : JwtAuthGuard} {id : Nat} {c : Nat}
  {sh sh' : Shared} {pc pc' : Pc} {a : Action}

theorem CacheDriver.get_set_expired {driver : CacheDriver} {now now' : Instant} {key : String}
    {value : JsObject} {ttlSeconds : Nat} {r : Redis} (h : now + ttlSeconds * 1000 ≤ now') :
    driver.get now' key (driver.set toISOString now key value ttlSeconds r) = none := by
  cases driver with
  | noop => rfl
  | redis keyPrefix =>
      have hgone : ¬ now' < now + ttlSeconds * 1000 := Int.not_lt.2 h
      simp [get, set, Redis.get_setEx_self, hgone]

/-- Once a deactivation has deleted the cached copy, the row is disabled and whatever was cached
since is gone one TTL from now. -/
structure Expiring (g : JwtAuthGuard) (id : Nat) (sh : Shared) : Prop where
  row : sh.invalidated = true → sh.row.isActive = false
  cached : sh.invalidated = true → ∀ now', sh.now + authUserSeconds * 1000 ≤ now' →
    g.driver.get now' (authUser Role.user.value id) sh.redis = none

/-- What a deactivation carries on from its save. -/
def Deactivating (_c : Nat) (sh : Shared) : Pc → Prop
  | .save user => user.isActive = false
  | .revoke => sh.row.isActive = false
  | .delete => sh.row.isActive = false
  | _ => True

theorem Moves.row (hm : Moves toISOString g id sh pc a sh' pc') (hpc : Deactivating c sh pc)
    (h : sh.row.isActive = false) : sh'.row.isActive = false := by
  cases hm with
  | save user => exact (isActive_saveUser ..).trans hpc
  | finish late user => cases late <;> exact h
  | _ => exact h

theorem Moves.deactivating (hm : Moves toISOString g id sh pc a sh' pc')
    (hpc : Deactivating c sh pc) : Deactivating c sh' pc' := by
  cases hm with
  | tick =>
      cases pc with
      | save user => exact hpc
      | revoke => exact hpc
      | delete => exact hpc
      | _ => trivial
  | find => exact rfl
  | save user => exact (isActive_saveUser ..).trans hpc
  | revoke => exact hpc
  | _ => trivial

theorem Deactivating.of_row {d : Nat} {pcd : Pc} (h : Deactivating d sh pcd)
    (hrow : sh.row.isActive = false → sh'.row.isActive = false) : Deactivating d sh' pcd := by
  cases pcd with
  | save user => exact h
  | revoke => exact hrow h
  | delete => exact hrow h
  | _ => trivial

theorem Expiring.move (h : Expiring g id sh) (hpc : Deactivating c sh pc)
    (hm : Moves toISOString g id sh pc a sh' pc') : Expiring g id sh' := by
  cases hm with
  | tick _ d =>
      refine ⟨h.row, fun hinv now' hle => h.cached hinv now' (Int.le_trans ?_ hle)⟩
      have hnow : sh.now ≤ sh.now + d := Int.le_add_of_nonneg_right (Int.natCast_nonneg d)
      exact Int.add_le_add_right hnow _
  | fill late user => exact ⟨h.row, fun _ now' hle => CacheDriver.get_set_expired hle⟩
  | finish late user => cases late <;> exact ⟨h.row, h.cached⟩
  | save user => exact ⟨fun _ => (isActive_saveUser ..).trans hpc, h.cached⟩
  | delete =>
      exact ⟨fun _ => hpc, fun _ now' _ => by simp [Shared.invalidate]⟩
  | _ => exact ⟨h.row, h.cached⟩

theorem expiring_step {s s' : State} {a : Nat × Action}
    (h : Pool.Holds (Expiring g id) Deactivating s) (hs : step toISOString g id s a = some s') :
    Pool.Holds (Expiring g id) Deactivating s' := by
  obtain ⟨sh', pc', hm, rfl⟩ := Pool.step_spec hs
  have hmoves := move_spec hm
  have hpc := h.client a.1
  exact Pool.Holds.move (h.shared.move hpc hmoves) (hmoves.deactivating hpc)
    fun d _ => (h.client d).of_row (hmoves.row hpc)

theorem expiring_of_run {row : UserEntity} {redis : Redis} {now : Instant}
    {acts : List (Nat × Action)} {s : State}
    (hrun : run (step toISOString g id) (initial row redis now) acts = some s) :
    Pool.Holds (Expiring g id) Deactivating s :=
  Reachable.inv ⟨⟨nofun, nofun⟩, fun _ => trivial⟩ (fun _ _ _ hs he => expiring_step hs he)
    ⟨acts, hrun⟩

def NoStaleFill (s : State) : Prop :=
  ∀ d late user, s.client d = .fill late user → user.isActive = false

/-- The row is disabled, and so is whatever is cached from `until` on. -/
structure Fading (g : JwtAuthGuard) (id : Nat) (until_ : Instant) (sh : Shared) : Prop where
  invalidated : sh.invalidated = true
  row : sh.row.isActive = false
  cached : ∀ now' user, until_ ≤ now' →
    g.driver.get now' (authUser Role.user.value id) sh.redis = some user → Disabled user

/-- What a client carries is disabled. -/
def Fades (_c : Nat) (sh : Shared) : Pc → Prop
  | .fill _ user => user.isActive = false
  | pc => Deactivating _c sh pc

theorem Fades.deactivating {pc : Pc} (h : Fades c sh pc) : Deactivating c sh pc := by
  cases pc with
  | fill late user => trivial
  | _ => exact h

theorem Fading.move {until_ : Instant} (h : Fading g id until_ sh) (hpc : Fades c sh pc)
    (hm : Moves toISOString g id sh pc a sh' pc') : Fading g id until_ sh' := by
  have hrow := hm.row hpc.deactivating h.row
  cases hm with
  | fill late user =>
      refine ⟨h.invalidated, hrow, fun now' o _ ho => ?_⟩
      have hdisabled : user.isActive = false := hpc
      rw [CacheDriver.get_set_self ho]
      simp [Disabled, hdisabled]
  | delete => exact ⟨rfl, hrow, fun now' user _ huser => by simp [Shared.invalidate] at huser⟩
  | finish late user => cases late <;> exact ⟨h.invalidated, hrow, h.cached⟩
  | _ => exact ⟨h.invalidated, hrow, h.cached⟩

theorem Moves.fades {until_ : Instant} (hm : Moves toISOString g id sh pc a sh' pc')
    (h : Fading g id until_ sh) (hpc : Fades c sh pc) : Fades c sh' pc' := by
  have hd := hm.deactivating hpc.deactivating
  cases hm with
  | tick =>
      cases pc with
      | fill late user => exact hpc
      | _ => exact hd
  | load late => exact h.row
  | _ => exact hd

theorem Fades.of_row {d : Nat} {pcd : Pc} (h : Fades d sh pcd)
    (hrow : sh.row.isActive = false → sh'.row.isActive = false) : Fades d sh' pcd := by
  cases pcd with
  | fill late user => exact h
  | _ => exact h.deactivating.of_row hrow

theorem fading_step {until_ : Instant} {s s' : State} {a : Nat × Action}
    (h : Pool.Holds (Fading g id until_) Fades s) (hs : step toISOString g id s a = some s') :
    Pool.Holds (Fading g id until_) Fades s' := by
  obtain ⟨sh', pc', hm, rfl⟩ := Pool.step_spec hs
  have hmoves := move_spec hm
  have hpc := h.client a.1
  exact Pool.Holds.move (h.shared.move hpc hmoves) (hmoves.fades h.shared hpc)
    fun d _ => (h.client d).of_row (hmoves.row hpc.deactivating)

theorem fading_of_expiring {s : State} (h : Pool.Holds (Expiring g id) Deactivating s)
    (hinv : s.shared.invalidated = true) (hnone : NoStaleFill s) :
    Pool.Holds (Fading g id (s.shared.now + authUserSeconds * 1000)) Fades s where
  shared := by
    refine ⟨hinv, h.shared.row hinv, fun now' user hle huser => ?_⟩
    rw [h.shared.cached hinv now' hle] at huser
    cases huser
  client := by
    intro d
    have hd := h.client d
    cases hpc : s.client d with
    | fill late user => exact hnone d late user hpc
    | _ =>
        rw [hpc] at hd
        exact hd

theorem fading_of_run {until_ : Instant} {s t : State} {acts : List (Nat × Action)}
    (h : Pool.Holds (Fading g id until_) Fades s)
    (hrun : run (step toISOString g id) s acts = some t) :
    Pool.Holds (Fading g id until_) Fades t :=
  Reachable.inv h (fun _ _ _ hs he => fading_step hs he) ⟨acts, hrun⟩

/-! ## A new record -/

/-- The guard runs under way are not counted among those that start from here. -/
def Pc.anew : Pc → Pc
  | .get _ => .get false
  | .load _ => .load false
  | .fill _ user => .fill false user
  | .resolved _ user => .resolved false user
  | pc => pc

/-- The record starts again: every guard run from here on is recorded. -/
def anew (s : State) : State :=
  ⟨{ s.shared with returned := true, lateOutcomes := [] }, fun d => (s.client d).anew⟩

theorem Fades.anew (h : Fades c sh pc) :
    Fades c { sh with returned := true, lateOutcomes := [] } pc.anew := by
  cases pc <;> exact h

theorem fading_anew {until_ : Instant} {s : State} (h : Pool.Holds (Fading g id until_) Fades s) :
    Pool.Holds (Fading g id until_) Fades (anew s) where
  shared := ⟨h.shared.invalidated, h.shared.row, h.shared.cached⟩
  client := fun d => (h.client d).anew

/-- From `until_` on, what the guards rely on after a deactivation holds. -/
theorem invalidated_anew {until_ : Instant} {s : State}
    (h : Pool.Holds (Fading g id until_) Fades s) (hlater : until_ ≤ s.shared.now) :
    Pool.Holds (Invalidated g id) Standing (anew s) where
  shared := ⟨fun _ => h.shared.row, fun _ user huser => h.shared.cached _ user hlater huser,
    fun _ => h.shared.invalidated, nofun⟩
  client := by
    intro d
    have hd := h.client d
    show Standing d (anew s).shared (s.client d).anew
    cases hpc : s.client d with
    | get late => exact nofun
    | load late => exact nofun
    | fill late user => exact nofun
    | resolved late user => exact nofun
    | save user =>
        rw [hpc] at hd
        exact hd
    | revoke =>
        rw [hpc] at hd
        exact hd
    | delete =>
        rw [hpc] at hd
        exact hd
    | deleted => exact h.shared.invalidated
    | _ => trivial

theorem fillsBeforeDelete_of_fading {until_ : Instant} {s : State} (a : Nat × Action)
    (h : Pool.Holds (Fading g id until_) Fades s) : FillsBeforeDelete s a := by
  unfold FillsBeforeDelete
  split
  · rename_i late user _ hpc
    intro hactive
    have hfill := h.client a.1
    rw [hpc] at hfill
    have hinactive : user.isActive = false := hfill
    rw [hinactive] at hactive
    cases hactive
  · trivial

/-- After a deactivation has deleted the cached copy, and once no guard is still about to write
an active entity, every guard run that starts one TTL later is rejected. -/
theorem rejected_after_ttl (toISOString : Instant → String) (g : JwtAuthGuard) (id : Nat)
    (row : UserEntity) (redis : Redis) (now : Instant) (as bs cs : List (Nat × Action))
    (s₁ s₂ s₃ : State)
    (hrun₁ : run (step toISOString g id) (initial row redis now) as = some s₁)
    (hdeleted : s₁.shared.invalidated = true) (hnone : NoStaleFill s₁)
    (hrun₂ : run (step toISOString g id) s₁ bs = some s₂)
    (hlater : s₁.shared.now + authUserSeconds * 1000 ≤ s₂.shared.now)
    (hrun₃ : run (step toISOString g id) (anew s₂) cs = some s₃) :
    ∀ x ∈ s₃.shared.lateOutcomes, x = .error accountDisabled := by
  have hfading := fading_of_run (fading_of_expiring (expiring_of_run hrun₁) hdeleted hnone) hrun₂
  have hfills : Along (step toISOString g id) FillsBeforeDelete (anew s₂) cs :=
    (along_true _ _ cs).of_inv (fun _ _ _ hs _ he => fading_step hs he)
      (fun _ a hs _ => fillsBeforeDelete_of_fading a hs) (fading_anew hfading)
  exact (run_inv (fun _ _ _ hinv hC hs => invalidated_step hinv hC hs)
    (invalidated_anew hfading hlater) hfills hrun₃).shared.outcomes

/-- The active row is cached after the delete, and a guard run is let in on it; one TTL later the
next one is not. -/
theorem rejected_after_fillAcrossDeactivation :
    ∃ s₁ s₂ s₃, run (step (fun _ => "") .sample 1) (initial .sample .empty 0)
        fillAcrossDeactivation = some s₁ ∧
      run (step (fun _ => "") .sample 1) s₁ [(0, .tick 300000)] = some s₂ ∧
      run (step (fun _ => "") .sample 1) (anew s₂) (missSteps 3) = some s₃ ∧
      s₁.shared.lateOutcomes = [.ok (UserEntity.sample.toObject.jsonCopy fun _ => "")] ∧
      s₃.shared.lateOutcomes.length = 1 ∧
      ∀ x ∈ s₃.shared.lateOutcomes, x = .error accountDisabled := by
  have hrun : (run (step (fun _ => "") .sample 1) (initial .sample .empty 0)
      fillAcrossDeactivation).any (fun s₁ => s₁.shared.invalidated &&
        decide (s₁.shared.lateOutcomes =
          [.ok (UserEntity.sample.toObject.jsonCopy fun _ => "")]) &&
        decide (∀ d : Nat, d < 3 → s₁.client d = .idle) &&
        (run (step (fun _ => "") .sample 1) s₁ [(0, .tick 300000)]).any fun s₂ =>
          decide (s₁.shared.now + authUserSeconds * 1000 ≤ s₂.shared.now) &&
          (run (step (fun _ => "") .sample 1) (anew s₂) (missSteps 3)).any fun s₃ =>
            decide (s₃.shared.lateOutcomes.length = 1)) = true := by
    decide +kernel
  simp only [Option.any_eq_true, Bool.and_eq_true, decide_eq_true_eq] at hrun
  obtain ⟨s₁, hs₁, ⟨⟨hdeleted, hlet⟩, hidle⟩, s₂, hs₂, hlater, s₃, hs₃, hlength⟩ := hrun
  have hclients : ∀ d, s₁.client d = .idle :=
    Pool.forall_client hs₁ (fun pc => pc = .idle) 3 (fun _ => rfl) (by decide) hidle
  have hnone : NoStaleFill s₁ := by
    intro d late user hpc
    rw [hclients d] at hpc
    cases hpc
  exact ⟨s₁, s₂, s₃, hs₁, hs₂, hs₃, hlet, hlength,
    rejected_after_ttl (fun _ => "") .sample 1 .sample .empty 0 _ _ _ s₁ s₂ s₃ hs₁ hdeleted hnone
      hs₂ hlater hs₃⟩

end NestStarter.Accounts
