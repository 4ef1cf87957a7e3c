import NestStarter.Accounts.Guards
import NestStarter.Core.Machine

/-! # The cached principal and deactivation

Guard runs for one user, interleaved with `deactivateByAdmin` of that user. A guard
reads the cache, on a miss the row, and then writes what it read to the cache;
deactivation writes the row and then deletes the cached copy. The code between
two awaited steps touches nothing shared, so it is part of the step before it.

The last three fields of the shared state are there for the record and no step's
effect depends on them: whether a deactivation has deleted the cached copy, whether
one has returned, and how the guard runs ended that started after that.
-/

namespace NestStarter.Accounts

open NestStarter.Core

inductive Call where
  | canActivate (context : ExecutionContext)
  | deactivateByAdmin
  deriving DecidableEq, Repr

/-- Where a client stands. `late` tells that a deactivation had returned when the
guard run started. -/
inductive Pc where
  | idle
  | get (late : Bool)
  | load (late : Bool)
  | fill (late : Bool) (user : UserEntity)
  | resolved (late : Bool) (user : JsObject)
  | find
  | save (user : UserEntity)
  | revoke
  | delete
  | deleted
  deriving DecidableEq, Repr

structure Shared where
  row : UserEntity
  redis : Redis
  now : Instant
  invalidated : Bool := false
  returned : Bool := false
  lateOutcomes : List (Except HttpException JsObject) := []

abbrev State := Pool Shared Pc

inductive Action where
  | tick (d : Nat)
  | call (k : Call)
  /-- The awaited step takes place. -/
  | exec
  /-- The call goes on to its end. -/
  | resume
  deriving DecidableEq, Repr

variable (toISOString : Instant → String) (g : JwtAuthGuard) (id : Nat)

/-- `getOrSet` writes what the factory returned. -/
def Shared.fill (sh : Shared) (user : UserEntity) : Shared :=
  let key := authUser Role.user.value id
  { sh with redis := g.driver.set toISOString sh.now key user.toObject authUserSeconds sh.redis }

def Shared.invalidate (sh : Shared) : Shared :=
  { sh with redis := g.driver.delete (authUser Role.user.value id) sh.redis, invalidated := true }

def Shared.finish (sh : Shared) (late : Bool) (user : JsObject) : Shared :=
  if late then { sh with lateOutcomes := requireActive (some user) :: sh.lateOutcomes } else sh

def move (_c : Nat) (sh : Shared) (pc : Pc) : Action → Option (Shared × Pc)
  | .tick d => some ({ sh with now := sh.now + d }, pc)
  | .call k =>
      match pc, k with
      | .idle, .canActivate context =>
          match g.principal context with
          | .ok (some (.user, userId)) => if userId = id then some (sh, .get sh.returned) else none
          | _ => none
      | .idle, .deactivateByAdmin => some (sh, .find)
      | _, _ => none
  | .exec =>
      match pc with
      | .get late =>
          match g.driver.get sh.now (authUser Role.user.value id) sh.redis with
          | some user => some (sh, .resolved late user)
          | none => some (sh, .load late)
      | .load late => some (sh, .fill late sh.row)
      | .fill late user => some (sh.fill toISOString g id user, .resolved late user.toObject)
      | .find => some (sh, .save { sh.row with isActive := false })
      | .save user => some ({ sh with row := saveUser sh.row user sh.now }, .revoke)
      -- `revokeAllForUser`, on a table the guard does not read
      | .revoke => some (sh, .delete)
      | .delete => some (sh.invalidate g id, .deleted)
      | _ => none
  | .resume =>
      match pc with
      | .resolved late user => some (sh.finish late user, .idle)
      | .deleted => some ({ sh with returned := true }, .idle)
      | _ => none

def initial (row : UserEntity) (redis : Redis) (now : Instant) : State :=
  ⟨{ row, redis, now }, fun _ => .idle⟩

def step : State → Nat × Action → Option State := Pool.step (move toISOString g id)

/-- The steps of a client, one rule for each thing a step can do. -/
inductive Moves (toISOString : Instant → String) (g : JwtAuthGuard) (id : Nat) :
    Shared → Pc → Action → Shared → Pc → Prop where
  | tick (sh : Shared) (pc : Pc) (d : Nat) :
      Moves toISOString g id sh pc (.tick d) { sh with now := sh.now + d } pc
  | canActivate (sh : Shared) (context : ExecutionContext)
      (h : g.principal context = .ok (some (.user, id))) :
      Moves toISOString g id sh .idle (.call (.canActivate context)) sh (.get sh.returned)
  | deactivate (sh : Shared) :
      Moves toISOString g id sh .idle (.call .deactivateByAdmin) sh .find
  | hit (sh : Shared) (late : Bool) (user : JsObject)
      (h : g.driver.get sh.now (authUser Role.user.value id) sh.redis = some user) :
      Moves toISOString g id sh (.get late) .exec sh (.resolved late user)
  | miss (sh : Shared) (late : Bool) : Moves toISOString g id sh (.get late) .exec sh (.load late)
  | load (sh : Shared) (late : Bool) :
      Moves toISOString g id sh (.load late) .exec sh (.fill late sh.row)
  | fill (sh : Shared) (late : Bool) (user : UserEntity) :
      Moves toISOString g id sh (.fill late user) .exec (sh.fill toISOString g id user)
        (.resolved late user.toObject)
  | finish (sh : Shared) (late : Bool) (user : JsObject) :
      Moves toISOString g id sh (.resolved late user) .resume (sh.finish late user) .idle
  | find (sh : Shared) :
      Moves toISOString g id sh .find .exec sh (.save { sh.row with isActive := false })
  | save (sh : Shared) (user : UserEntity) :
      Moves toISOString g id sh (.save user) .exec
        { sh with row := saveUser sh.row user sh.now } .revoke
  | revoke (sh : Shared) : Moves toISOString g id sh .revoke .exec sh .delete
  | delete (sh : Shared) :
      Moves toISOString g id sh .delete .exec (sh.invalidate g id) .deleted
  | return_ (sh : Shared) :
      Moves toISOString g id sh .deleted .resume { sh with returned := true } .idle

variable {toISOString g id} {c : Nat} {sh sh' : Shared} {pc pc' : Pc} {a : Action}

theorem move_spec (h : move toISOString g id c sh pc a = some (sh', pc')) :
    Moves toISOString g id sh pc a sh' pc' := by
  cases a with
  | tick d => cases h; exact .tick ..
  | call k =>
      cases pc with
      | idle =>
          cases k with
          | deactivateByAdmin => cases h; exact .deactivate ..
          | canActivate context =>
              simp only [move] at h
              split at h
              · split at h
                · rename_i hid
                  subst hid
                  cases h
                  exact .canActivate _ _ ‹_›
                · cases h
              · cases h
      | _ => cases k <;> cases h
  | exec =>
      cases pc with
      | get late =>
          cases hget : g.driver.get sh.now (authUser Role.user.value id) sh.redis with
          | some user =>
              simp only [move, hget] at h
              cases h
              exact .hit _ _ _ hget
          | none =>
              simp only [move, hget] at h
              cases h
              exact .miss ..
      | load late => cases h; exact .load ..
      | fill late user => cases h; exact .fill ..
      | find => cases h; exact .find ..
      | save user => cases h; exact .save ..
      | revoke => cases h; exact .revoke ..
      | delete => cases h; exact .delete ..
      | _ => cases h
  | resume =>
      cases pc with
      | resolved late user => cases h; exact .finish ..
      | deleted => cases h; exact .return_ ..
      | _ => cases h

def guardActions (context : ExecutionContext) (cached : Option JsObject) : List Action :=
  match cached with
  | some _ => [.call (.canActivate context), .exec, .resume]
  | none => [.call (.canActivate context), .exec, .exec, .exec, .resume]

/-- A guard run whose steps nobody interrupts is a call of `canActivate`: the cache is
left alike, and the run ends as the call does. -/
theorem canActivate_of_solo {db : AccountTables} {context : ExecutionContext}
    (hp : g.principal context = .ok (some (.user, id)))
    (hrow : findByIdForAuth db .user id = some sh.row.toObject) :
    ∃ (user : JsObject) (sh' : Shared), run (Pool.solo (move toISOString g id) c) (sh, .idle)
        (guardActions context (g.driver.get sh.now (authUser Role.user.value id) sh.redis)) =
          some (sh'.finish sh.returned user, .idle) ∧
      Service.exec (g.canActivate toISOString db sh.now context) sh.redis =
        ((requireActive (some user)).map fun user => (true, some user), sh'.redis) := by
  have hexec : Service.exec (g.canActivate toISOString db sh.now context) sh.redis = _ :=
    exec_canActivate
  rw [hp] at hexec
  simp only [Service.exec_bind, exec_getOrSet, hrow] at hexec
  cases hget : g.driver.get sh.now (authUser Role.user.value id) sh.redis with
  | some user =>
      refine ⟨user, sh, ?_, ?_⟩
      · simp [run, Pool.solo, guardActions, move, hp, hget]
      · rw [hexec, hget]
        cases ha : requireActive (some user) <;> simp [ha, Except.map]
  | none =>
      refine ⟨sh.row.toObject, sh.fill toISOString g id sh.row, ?_, ?_⟩
      · simp [run, Pool.solo, guardActions, move, hp, hget]
      · rw [hexec, hget]
        cases ha : requireActive (some sh.row.toObject) <;> simp [ha, Except.map, Shared.fill]

/-! ## After a deactivation -/

/-- A principal the guard rejects as disabled. -/
def Disabled (user : JsObject) : Prop := user.get "isActive" = .boolean false

theorem Disabled.requireActive_eq {user : JsObject} (h : Disabled user) :
    requireActive (some user) = .error accountDisabled := if_pos h

/-- Once a deactivation has deleted the cached copy, the row and whatever is cached are
disabled, and every guard run that started after its return has been rejected. -/
structure Invalidated (g : JwtAuthGuard) (id : Nat) (sh : Shared) : Prop where
  row : sh.invalidated = true → sh.row.isActive = false
  cached : sh.invalidated = true →
    ∀ user, g.driver.get sh.now (authUser Role.user.value id) sh.redis = some user → Disabled user
  returned : sh.returned = true → sh.invalidated = true
  outcomes : ∀ x ∈ sh.lateOutcomes, x = .error accountDisabled

/-- What a client carries on from here. -/
def Standing (_c : Nat) (sh : Shared) : Pc → Prop
  | .get late => late = true → sh.returned = true
  | .load late => late = true → sh.returned = true
  | .fill late user => late = true → user.isActive = false
  | .resolved late user => late = true → Disabled user
  | .save user => user.isActive = false
  | .revoke => sh.row.isActive = false
  | .delete => sh.row.isActive = false
  | .deleted => sh.invalidated = true
  | _ => True

/-- No entity that is still active is written to the cache after a deactivation has
deleted the cached copy. -/
def FillsBeforeDelete (s : State) (a : Nat × Action) : Prop :=
  match a.2, s.client a.1 with
  | .exec, .fill _ user => user.isActive = true → s.shared.invalidated = false
  | _, _ => True

instance (s : State) (a : Nat × Action) : Decidable (FillsBeforeDelete s a) := by
  unfold FillsBeforeDelete
  split <;> infer_instance

theorem Invalidated.step (h : Invalidated g id sh) (hpc : Standing c sh pc)
    (hC : a = .exec → ∀ late user, pc = .fill late user → user.isActive = true →
      sh.invalidated = false)
    (hm : Moves toISOString g id sh pc a sh' pc') : Invalidated g id sh' := by
  cases hm with
  | tick _ d =>
      refine ⟨h.row, fun hinv user huser => ?_, h.returned, h.outcomes⟩
      have hnow : sh.now ≤ sh.now + d := Int.le_add_of_nonneg_right (Int.natCast_nonneg d)
      exact h.cached hinv user (CacheDriver.get_mono hnow huser)
  | fill late user =>
      refine ⟨h.row, fun hinv o ho => ?_, h.returned, h.outcomes⟩
      have hdisabled : user.isActive = false := by
        cases hactive : user.isActive with
        | false => rfl
        | true =>
            have hnot := hC rfl late user rfl hactive
            exact absurd hinv (by simp [Shared.fill, hnot])
      rw [CacheDriver.get_set_self ho]
      simp [Disabled, hdisabled]
  | finish late user =>
      cases late with
      | false => exact h
      | true =>
          refine ⟨h.row, h.cached, h.returned, fun x hx => ?_⟩
          rcases List.mem_cons.1 hx with rfl | hx
          · exact (hpc rfl).requireActive_eq
          · exact h.outcomes x hx
  | save user =>
      exact ⟨fun _ => (isActive_saveUser ..).trans hpc, h.cached, h.returned, h.outcomes⟩
  | delete =>
      refine ⟨fun _ => hpc, fun _ user huser => ?_, fun _ => rfl, h.outcomes⟩
      simp [Shared.invalidate] at huser
  | return_ => exact ⟨h.row, h.cached, fun _ => hpc, h.outcomes⟩
  | _ => exact h

/-- Nothing a client relies on is taken back. -/
structure Keeps (sh sh' : Shared) : Prop where
  row : sh.row.isActive = false → sh'.row.isActive = false
  invalidated : sh.invalidated = true → sh'.invalidated = true
  returned : sh.returned = true → sh'.returned = true

theorem Standing.keeps {d : Nat} {pcd : Pc} (h : Standing d sh pcd) (hk : Keeps sh sh') :
    Standing d sh' pcd := by
  cases pcd with
  | get late => exact fun hlate => hk.returned (h hlate)
  | load late => exact fun hlate => hk.returned (h hlate)
  | revoke => exact hk.row h
  | delete => exact hk.row h
  | deleted => exact hk.invalidated h
  | _ => exact h

theorem Moves.keeps (hm : Moves toISOString g id sh pc a sh' pc') (hpc : Standing c sh pc) :
    Keeps sh sh' := by
  cases hm with
  | save user => exact ⟨fun _ => (isActive_saveUser ..).trans hpc, fun h => h, fun h => h⟩
  | delete => exact ⟨fun h => h, fun _ => rfl, fun h => h⟩
  | return_ => exact ⟨fun h => h, fun h => h, fun _ => rfl⟩
  | finish late user => cases late <;> exact ⟨fun h => h, fun h => h, fun h => h⟩
  | _ => exact ⟨fun h => h, fun h => h, fun h => h⟩

theorem Moves.standing (hm : Moves toISOString g id sh pc a sh' pc') (h : Invalidated g id sh)
    (hpc : Standing c sh pc) : Standing c sh' pc' := by
  cases hm with
  | tick => exact hpc.keeps ⟨fun h => h, fun h => h, fun h => h⟩
  | canActivate context hp => exact fun hlate => hlate
  | hit late user hget => exact fun hlate => h.cached (h.returned (hpc hlate)) user hget
  | miss late => exact hpc
  | load late => exact fun hlate => h.row (h.returned (hpc hlate))
  | fill late user => exact fun hlate => by simp [Disabled, hpc hlate]
  | find => exact rfl
  | save user => exact (isActive_saveUser ..).trans hpc
  | revoke => exact hpc
  | delete => exact rfl
  | _ => trivial

theorem invalidated_step {s s' : State} {a : Nat × Action}
    (h : Pool.Holds (Invalidated g id) Standing s) (hC : FillsBeforeDelete s a)
    (hs : step toISOString g id s a = some s') : Pool.Holds (Invalidated g id) Standing s' := by
  obtain ⟨sh', pc', hm, rfl⟩ := Pool.step_spec hs
  have hmoves := move_spec hm
  have hpc := h.client a.1
  refine Pool.Holds.move (h.shared.step hpc ?_ hmoves) (hmoves.standing h.shared hpc)
    fun d _ => (h.client d).keeps (hmoves.keeps hpc)
  intro hexec late user hfill hactive
  simp only [FillsBeforeDelete, hexec, hfill] at hC
  exact hC hactive

/-- Every guard run that starts after a deactivation has returned is rejected, in every
run in which no active entity is cached after the deactivation's delete. -/
theorem lateOutcomes_of_run (toISOString : Instant → String) (g : JwtAuthGuard) (id : Nat)
    (row : UserEntity) (redis : Redis) (now : Instant) (acts : List (Nat × Action)) (s : State)
    (hrun : run (step toISOString g id) (initial row redis now) acts = some s)
    (hfills : Along (step toISOString g id) FillsBeforeDelete (initial row redis now) acts) :
    ∀ x ∈ s.shared.lateOutcomes, x = .error accountDisabled :=
  have hinit : Pool.Holds (Invalidated g id) Standing (initial row redis now) :=
    ⟨⟨nofun, nofun, nofun, nofun⟩, fun _ => trivial⟩
  (run_inv (fun _ _ _ hinv hC hs => invalidated_step hinv hC hs) hinit hfills hrun).shared.outcomes

def missSteps (c : Nat) : List (Nat × Action) :=
  [(c, .call (.canActivate .sample)), (c, .exec), (c, .exec), (c, .exec), (c, .resume)]

def hitSteps (c : Nat) : List (Nat × Action) :=
  [(c, .call (.canActivate .sample)), (c, .exec), (c, .resume)]

def deactivateSteps (c : Nat) : List (Nat × Action) :=
  [(c, .call .deactivateByAdmin), (c, .exec), (c, .exec), (c, .exec), (c, .exec), (c, .resume)]

/-- The first guard reads the row before it is saved and caches it after the delete. -/
def fillAcrossDeactivation : List (Nat × Action) :=
  (missSteps 0).take 3 ++ deactivateSteps 1 ++ (missSteps 0).drop 3 ++ hitSteps 2

/-- The first guard has cached the row when the delete comes. -/
def fillBeforeDeactivation : List (Nat × Action) :=
  missSteps 0 ++ deactivateSteps 1 ++ missSteps 2

def UserEntity.sample : UserEntity := { id := 1, createdAt := 0, updatedAt := 0, phone := "p" }

theorem admitted_fillAcrossDeactivation :
    ∃ s, run (step (fun _ => "") .sample 1) (initial .sample .empty 0)
        fillAcrossDeactivation = some s ∧
      s.shared.row.isActive = false ∧
      s.shared.lateOutcomes = [.ok (UserEntity.sample.toObject.jsonCopy fun _ => "")] := by
  have hrun : (run (step (fun _ => "") .sample 1) (initial .sample .empty 0)
      fillAcrossDeactivation).any (fun s => decide (s.shared.row.isActive = false ∧
        s.shared.lateOutcomes = [.ok (UserEntity.sample.toObject.jsonCopy fun _ => "")]))
          = true := by
    decide +kernel
  simpa only [Option.any_eq_true, decide_eq_true_eq] using hrun

theorem rejected_fillBeforeDeactivation :
    ∃ s, run (step (fun _ => "") .sample 1) (initial .sample .empty 0)
        fillBeforeDeactivation = some s ∧
      s.shared.lateOutcomes.length = 1 ∧
      ∀ x ∈ s.shared.lateOutcomes, x = .error accountDisabled := by
  have hrun : (run (step (fun _ => "") .sample 1) (initial .sample .empty 0)
      fillBeforeDeactivation).map (fun s => s.shared.lateOutcomes.length) = some 1 := by
    decide +kernel
  obtain ⟨s, hs, hlength⟩ := Option.map_eq_some_iff.1 hrun
  have hfills : Along (step (fun _ => "") .sample 1) FillsBeforeDelete (initial .sample .empty 0)
      fillBeforeDeactivation := by
    decide +kernel
  exact ⟨s, hs, hlength,
    lateOutcomes_of_run (fun _ => "") .sample 1 .sample .empty 0 fillBeforeDeactivation s hs hfills⟩

end NestStarter.Accounts
