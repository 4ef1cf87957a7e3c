import NestStarter.Accounts.Cache

/-! # The two guards

`JwtAuthGuard` puts the principal on the request, fresh from the database or as the
JSON copy Redis kept of it; `ProfileCompletionGuard` then reads it. The first reads
own properties only. The second reads `role`, a getter, so the copy passes where
the entity is stopped.
-/

namespace NestStarter.Accounts

/-- The metadata `@Public()` and `@Protected()` leave on a handler or a class. -/
structure Metadata where
  isPublic : Option Bool := none
  roles : Option (List Role) := none
  deriving DecidableEq, Repr

structure ExecutionContext where
  getHandler : Metadata := {}
  getClass : Metadata := {}
  authorization : Option String := none
  deriving DecidableEq, Repr

def getAllAndOverride {α : Type} (key : Metadata → Option α) (context : ExecutionContext) :
    Option α :=
  (key context.getHandler).or (key context.getClass)

/-- The claims the guard reads; a signed token can carry a `role` of any type. -/
structure DecodedAccessTokenPayload where
  userId : Nat
  role : JsValue
  deriving DecidableEq, Repr

def missingToken : HttpException := ⟨.unauthorized, "auth.errors.missing_token", []⟩

def invalidToken : HttpException := ⟨.unauthorized, "auth.errors.invalid_token", []⟩

def forbiddenRole : HttpException := ⟨.forbidden, "auth.errors.forbidden_role", []⟩

def authResolverNotConfigured : HttpException :=
  ⟨.internalServerError, "auth.errors.auth_resolver_not_configured", []⟩

def accountNotFound : HttpException := ⟨.unauthorized, "auth.errors.account_not_found", []⟩

def accountDisabled : HttpException := ⟨.unauthorized, "auth.errors.account_disabled", []⟩

def profileNotCompleted : HttpException := ⟨.forbidden, "user.errors.profile_not_completed", []⟩

def findByIdForAuth (db : AccountTables) (role : Role) (id : Nat) : Option JsObject :=
  match role with
  | .user => (db.users.findById id).map UserEntity.toObject
  | .admin => (db.admins.findById id).map AdminEntity.toObject

/-- What is injected into the guard: the cache driver, the roles whose resolver has
been registered, and `AppJwtService.verifyAccessToken`, `none` where it throws. -/
structure JwtAuthGuard where
  driver : CacheDriver
  registered : List Role
  verifyAccessToken : String → Option DecodedAccessTokenPayload

def JwtAuthGuard.resolver (g : JwtAuthGuard) (db : AccountTables) (role : Role) :
    Option (Nat → Option JsObject) :=
  if role ∈ g.registered then some (findByIdForAuth db role) else none

def isPublic (context : ExecutionContext) : Bool :=
  getAllAndOverride Metadata.isPublic context == some true

def splitSpaces (header : String) : List String := (header.toList.splitOn ' ').map String.ofList

def extractBearerToken (context : ExecutionContext) : Option String :=
  match context.authorization with
  | none => none
  | some header =>
      if header = "" then none
      else
        match splitSpaces header with
        | scheme :: token :: _ => if scheme = "Bearer" ∧ token ≠ "" then some token else none
        | _ => none

def coerceRole : JsValue → Option Role
  | .string s => [Role.admin, Role.user].find? fun role => role.value = s
  | _ => none

def assertRoleAllowed (context : ExecutionContext) (role : Role) : Except HttpException Unit :=
  match getAllAndOverride Metadata.roles context with
  | some required => if required ≠ [] ∧ role ∉ required then .error forbiddenRole else .ok ()
  | none => .ok ()

/-- The tests on the principal, before it goes on the request. -/
def requireActive (user : Option JsObject) : Except HttpException JsObject :=
  match user with
  | none => .error accountNotFound
  | some user => if user.get "isActive" = .boolean false then .error accountDisabled else .ok user

variable (toISOString : Instant → String)

/-- `JwtAuthGuard.canActivate`, with the principal it puts on the request. -/
def JwtAuthGuard.canActivate (g : JwtAuthGuard) (db : AccountTables) (now : Instant)
    (context : ExecutionContext) : Service Redis (Bool × Option JsObject) := do
  if isPublic context then
    return (true, none)
  else
    let token ← Service.ofExcept (orThrow missingToken (extractBearerToken context))
    let payload ← Service.ofExcept (orThrow invalidToken (g.verifyAccessToken token))
    let role ← Service.ofExcept (orThrow invalidToken (coerceRole payload.role))
    Service.ofExcept (assertRoleAllowed context role)
    let resolver ← Service.ofExcept (orThrow authResolverNotConfigured (g.resolver db role))
    let user ← getOrSet toISOString g.driver now (authUser role.value payload.userId)
      (pure (resolver payload.userId)) authUserSeconds
    let user ← Service.ofExcept (requireActive user)
    return (true, some user)

/-- `ProfileCompletionGuard.canActivate`, on the principal of the request. -/
def profileCompletion (user : Option JsObject) : Except HttpException Bool :=
  match user with
  | none => .ok true
  | some user =>
      if user.get "role" ≠ .string Role.user.value then .ok true
      else if user.get "isProfileCompleted" ≠ .boolean true then .error profileNotCompleted
      else .ok true

/-- The two guards in the order of `@RequireCompletedProfile()`. -/
def JwtAuthGuard.thenProfileCompletion (g : JwtAuthGuard) (db : AccountTables) (now : Instant)
    (context : ExecutionContext) : Service Redis Bool := do
  let (admitted, user) ← g.canActivate toISOString db now context
  if admitted then Service.ofExcept (profileCompletion user) else return false

def JwtAuthGuard.outcome (g : JwtAuthGuard) (db : AccountTables) (now : Instant)
    (context : ExecutionContext) (r : Redis) : Except HttpException Bool :=
  (Service.exec (g.thenProfileCompletion toISOString db now context) r).1

/-- The same guard under `CACHE_DRIVER=noop`. -/
def JwtAuthGuard.uncached (g : JwtAuthGuard) : JwtAuthGuard := { g with driver := .noop }

/-! ## What the guards decide -/

def JwtAuthGuard.principal (g : JwtAuthGuard) (context : ExecutionContext) :
    Except HttpException (Option (Role × Nat)) := do
  if isPublic context then
    return none
  else
    let token ← orThrow missingToken (extractBearerToken context)
    let payload ← orThrow invalidToken (g.verifyAccessToken token)
    let role ← orThrow invalidToken (coerceRole payload.role)
    assertRoleAllowed context role
    if role ∈ g.registered then return some (role, payload.userId)
    else throw authResolverNotConfigured

/-- What both guards make of the principal a lookup returned. -/
def decision (user : Option JsObject) : Except HttpException Bool :=
  (requireActive user).bind fun user => profileCompletion (some user)

variable {toISOString} {g : JwtAuthGuard} {db : AccountTables} {now : Instant}
  {context : ExecutionContext} {r : Redis}

/-- `canActivate` is the lookup of the principal and the tests on it. -/
theorem exec_canActivate : Service.exec (g.canActivate toISOString db now context) r =
    match g.principal context with
    | .error e => (.error e, r)
    | .ok none => (.ok (true, none), r)
    | .ok (some (role, id)) => Service.exec (do
        let user ← getOrSet toISOString g.driver now (authUser role.value id)
          (pure (findByIdForAuth db role id)) authUserSeconds
        let user ← Service.ofExcept (requireActive user)
        return (true, some user)) r := by
  unfold JwtAuthGuard.canActivate JwtAuthGuard.principal
  by_cases hpublic : isPublic context = true
  · simp [hpublic]
  · cases htoken : extractBearerToken context with
    | none => simp [hpublic]
    | some token =>
        cases hpayload : g.verifyAccessToken token with
        | none => simp [hpublic, hpayload]
        | some payload =>
            cases hrole : coerceRole payload.role with
            | none => simp [hpublic, hpayload, hrole]
            | some role =>
                cases hallowed : assertRoleAllowed context role with
                | error e => simp [hpublic, hpayload, hrole, hallowed]
                | ok _ => by_cases hreg : role ∈ g.registered <;>
                    simp [hpublic, hpayload, hrole, hallowed, hreg, JwtAuthGuard.resolver]

/-- The outcome is the decision on the cached copy, or else on the entity, which is
then cached. -/
theorem exec_thenProfileCompletion :
    Service.exec (g.thenProfileCompletion toISOString db now context) r =
    match g.principal context with
    | .error e => (.error e, r)
    | .ok none => (.ok true, r)
    | .ok (some (role, id)) =>
        match g.driver.get now (authUser role.value id) r, findByIdForAuth db role id with
        | some user, _ => (decision (some user), r)
        | none, some user => (decision (some user),
            g.driver.set toISOString now (authUser role.value id) user authUserSeconds r)
        | none, none => (.error accountNotFound, r) := by
  rw [JwtAuthGuard.thenProfileCompletion, Service.exec_bind, exec_canActivate]
  cases g.principal context with
  | error e => rfl
  | ok principal =>
      cases principal with
      | none => simp [profileCompletion]
      | some p =>
          obtain ⟨role, id⟩ := p
          simp only [Service.exec_bind, exec_getOrSet]
          cases g.driver.get now (authUser role.value id) r with
          | some user => cases ha : requireActive (some user) <;> simp [decision, ha, Except.bind]
          | none =>
              cases findByIdForAuth db role id with
              | some user =>
                  cases ha : requireActive (some user) <;> simp [decision, ha, Except.bind]
              | none => simp [requireActive]

/-! ## Entity and copy -/

theorem decision_user (u : UserEntity) : decision (some u.toObject) =
    if u.isActive = false then .error accountDisabled
    else if u.isProfileCompleted = true then .ok true
    else .error profileNotCompleted := by
  cases hactive : u.isActive <;> cases hcompleted : u.isProfileCompleted <;>
    simp [decision, requireActive, profileCompletion, Except.bind, Role.value, hactive, hcompleted]

/-- Without its getter a user passes the second guard, profile completed or not. -/
theorem decision_user_jsonCopy (u : UserEntity) :
    decision (some (u.toObject.jsonCopy toISOString)) =
      if u.isActive = false then .error accountDisabled else .ok true := by
  cases hactive : u.isActive <;>
    simp [decision, requireActive, profileCompletion, Except.bind, hactive]

theorem decision_admin (a : AdminEntity) : decision (some a.toObject) =
    if a.isActive = false then .error accountDisabled else .ok true := by
  cases hactive : a.isActive <;>
    simp [decision, requireActive, profileCompletion, Except.bind, Role.value, hactive]

theorem decision_admin_jsonCopy (a : AdminEntity) :
    decision (some (a.toObject.jsonCopy toISOString)) = decision (some a.toObject) := by
  rw [decision_admin]
  cases hactive : a.isActive <;>
    simp [decision, requireActive, profileCompletion, Except.bind, hactive]

/-- Every cached principal is a JSON copy of the row as it is. -/
def CurrentCopies (toISOString : Instant → String) (driver : CacheDriver) (db : AccountTables)
    (now : Instant) (r : Redis) : Prop :=
  ∀ role id o, driver.get now (authUser role.value id) r = some o →
    ∃ user, findByIdForAuth db role id = some user ∧ o = user.jsonCopy toISOString

theorem CurrentCopies.empty (driver : CacheDriver) :
    CurrentCopies toISOString driver db now Redis.empty := by
  intro role id o h
  simp at h

/-- Requests keep the cache current as long as the rows do not change. -/
theorem CurrentCopies.request (h : CurrentCopies toISOString g.driver db now r) {now' : Instant}
    (hnow : now ≤ now') : CurrentCopies toISOString g.driver db now'
      (Service.exec (g.thenProfileCompletion toISOString db now context) r).2 := by
  have hlater : CurrentCopies toISOString g.driver db now' r :=
    fun role id o ho => h role id o (CacheDriver.get_mono hnow ho)
  rw [exec_thenProfileCompletion]
  cases g.principal context with
  | error e => exact hlater
  | ok principal =>
      cases principal with
      | none => exact hlater
      | some p =>
          obtain ⟨role, id⟩ := p
          dsimp only
          cases g.driver.get now (authUser role.value id) r with
          | some user => exact hlater
          | none =>
              cases hfind : findByIdForAuth db role id with
              | none => exact hlater
              | some user =>
                  intro role' id' o ho
                  by_cases hkey : authUser role'.value id' = authUser role.value id
                  · obtain ⟨rfl, rfl⟩ := authUser_inj hkey
                    rw [hkey] at ho
                    exact ⟨user, hfind, CacheDriver.get_set_self ho⟩
                  · rw [CacheDriver.get_set_of_ne hkey] at ho
                    exact hlater role' id' o ho

/-- The request is from an active user whose profile is not completed, and is served
from the cache. -/
def ServesIncomplete (g : JwtAuthGuard) (db : AccountTables) (now : Instant)
    (context : ExecutionContext) (r : Redis) : Prop :=
  ∃ id u, g.principal context = .ok (some (.user, id)) ∧ db.users.findById id = some u ∧
    u.isActive = true ∧ u.isProfileCompleted = false ∧
    (g.driver.get now (authUser Role.user.value id) r).isSome

/-- Users whose profile is not completed are denied. -/
def DeniesIncomplete (g : JwtAuthGuard) (db : AccountTables) (context : ExecutionContext)
    (outcome : Except HttpException Bool) : Prop :=
  ∀ id u, g.principal context = .ok (some (.user, id)) →
    db.users.findById id = some u → u.isProfileCompleted = false →
    ∃ e, outcome = .error e

/-- Without a cache the decision is on the entity. -/
theorem outcome_uncached : g.uncached.outcome toISOString db now context r =
    match g.principal context with
    | .error e => .error e
    | .ok none => .ok true
    | .ok (some (role, id)) => decision (findByIdForAuth db role id) := by
  have hprincipal : g.uncached.principal context = g.principal context := rfl
  rw [JwtAuthGuard.outcome, exec_thenProfileCompletion, hprincipal]
  cases g.principal context with
  | error e => rfl
  | ok principal =>
      cases principal with
      | none => rfl
      | some p =>
          obtain ⟨role, id⟩ := p
          simp only [JwtAuthGuard.uncached, CacheDriver.get_noop]
          cases findByIdForAuth db role id <;> rfl

theorem deniesIncomplete_uncached :
    DeniesIncomplete g db context (g.uncached.outcome toISOString db now context r) := by
  intro id u hprincipal hfind hincomplete
  rw [outcome_uncached, hprincipal]
  simp only [findByIdForAuth, hfind, Option.map_some, decision_user, hincomplete]
  split
  · exact ⟨accountDisabled, rfl⟩
  · exact ⟨profileNotCompleted, rfl⟩

theorem ServesIncomplete.outcome (hcurrent : CurrentCopies toISOString g.driver db now r)
    (h : ServesIncomplete g db now context r) :
    g.outcome toISOString db now context r = .ok true := by
  obtain ⟨id, u, hprincipal, hfind, hactive, _, hcached⟩ := h
  obtain ⟨o, ho⟩ := Option.isSome_iff_exists.1 hcached
  obtain ⟨user, huser, rfl⟩ := hcurrent .user id o ho
  obtain rfl : user = u.toObject := by simpa [findByIdForAuth, hfind] using huser.symm
  rw [JwtAuthGuard.outcome, exec_thenProfileCompletion, hprincipal]
  simp [ho, decision_user_jsonCopy, hactive]

/-- A copy is decided like its entity, unless it is one of an incomplete user. -/
theorem decision_jsonCopy {role : Role} {id : Nat} {user : JsObject}
    (huser : findByIdForAuth db role id = some user)
    (h : ∀ u, role = .user → db.users.findById id = some u → u.isActive = true →
      u.isProfileCompleted = true) :
    decision (some (user.jsonCopy toISOString)) = decision (some user) := by
  cases role with
  | admin =>
      obtain ⟨a, _, rfl⟩ := Option.map_eq_some_iff.1 huser
      exact decision_admin_jsonCopy a
  | user =>
      obtain ⟨u, hu, rfl⟩ := Option.map_eq_some_iff.1 huser
      rw [decision_user_jsonCopy, decision_user]
      cases hactive : u.isActive with
      | false => rfl
      | true => simp [h u rfl hu hactive]

theorem outcome_eq_uncached (hcurrent : CurrentCopies toISOString g.driver db now r)
    (h : ¬ ServesIncomplete g db now context r) (r' : Redis) :
    g.outcome toISOString db now context r = g.uncached.outcome toISOString db now context r' := by
  rw [outcome_uncached, JwtAuthGuard.outcome, exec_thenProfileCompletion]
  cases hp : g.principal context with
  | error e => rfl
  | ok principal =>
      cases principal with
      | none => rfl
      | some p =>
          obtain ⟨role, id⟩ := p
          dsimp only
          cases hget : g.driver.get now (authUser role.value id) r with
          | none => cases findByIdForAuth db role id <;> rfl
          | some o =>
              obtain ⟨user, huser, rfl⟩ := hcurrent role id o hget
              rw [huser]
              refine decision_jsonCopy huser fun u hrole hu hactive => ?_
              subst hrole
              by_contra hincomplete
              exact h ⟨id, u, hp, hu, hactive, Bool.eq_false_iff.2 hincomplete, by rw [hget]; rfl⟩

/-- The two guards decide alike with and without the cache, and stop every user whose
profile is not completed, exactly when they do not serve one of these from the cache. -/
theorem sameDecision_iff_not_servesIncomplete (toISOString : Instant → String) (g : JwtAuthGuard)
    (db : AccountTables) (now : Instant) (context : ExecutionContext) (r r' : Redis)
    (hcurrent : CurrentCopies toISOString g.driver db now r) :
    (g.outcome toISOString db now context r = g.uncached.outcome toISOString db now context r' ∧
      DeniesIncomplete g db context (g.outcome toISOString db now context r)) ↔
      ¬ ServesIncomplete g db now context r := by
  constructor
  · intro hsame hserves
    have hadmitted := hserves.outcome hcurrent
    obtain ⟨id, u, hprincipal, hfind, _, hincomplete, _⟩ := hserves
    obtain ⟨e, he⟩ := hsame.2 id u hprincipal hfind hincomplete
    cases he.symm.trans hadmitted
  · intro h
    have hsame := outcome_eq_uncached hcurrent h r'
    refine ⟨hsame, ?_⟩
    rw [hsame]
    exact deniesIncomplete_uncached

def JwtAuthGuard.sample : JwtAuthGuard where
  driver := .redis "app"
  registered := [.admin, .user]
  verifyAccessToken _ := some ⟨1, .string "user"⟩

def AccountTables.sample (isProfileCompleted : Bool) : AccountTables where
  users := {
    rows := [{ id := 1, createdAt := 0, updatedAt := 0, phone := "p", isProfileCompleted }]
    nextId := 2
    sorted := List.pairwise_singleton ..
    bound := List.forall_mem_singleton.2 (Nat.lt_succ_self 1) }

def ExecutionContext.sample : ExecutionContext where
  getHandler := { roles := some [.user] }
  authorization := some "Bearer token"

/-- What the first request leaves in an empty Redis. -/
def Redis.afterRequest (isProfileCompleted : Bool) : Redis :=
  (Service.exec (JwtAuthGuard.sample.thenProfileCompletion (fun _ => "")
    (.sample isProfileCompleted) 0 .sample) Redis.empty).2

theorem currentCopies_afterRequest (isProfileCompleted : Bool) :
    CurrentCopies (fun _ => "") JwtAuthGuard.sample.driver (.sample isProfileCompleted) 1000
      (.afterRequest isProfileCompleted) :=
  (CurrentCopies.empty _).request (by decide : (0 : Int) ≤ 1000)

theorem secondRequest_incomplete :
    CurrentCopies (fun _ => "") JwtAuthGuard.sample.driver (.sample false) 1000
      (.afterRequest false) ∧
      JwtAuthGuard.sample.outcome (fun _ => "") (.sample false) 1000 .sample (.afterRequest false) =
        .ok true ∧
      JwtAuthGuard.sample.uncached.outcome (fun _ => "") (.sample false) 1000 .sample
        (.afterRequest false) = .error profileNotCompleted := by
  refine ⟨currentCopies_afterRequest false, ?_, ?_⟩
  · decide +kernel
  · decide +kernel

theorem secondRequest_complete :
    (JwtAuthGuard.sample.driver.get 1000 (authUser "user" 1) (.afterRequest true)).isSome ∧
      JwtAuthGuard.sample.outcome (fun _ => "") (.sample true) 1000 .sample (.afterRequest true) =
        JwtAuthGuard.sample.uncached.outcome (fun _ => "") (.sample true) 1000 .sample
          (.afterRequest true) := by
  have hcompleted : ∀ u ∈ (AccountTables.sample true).users.rows,
      u.isProfileCompleted = true := by decide
  have hserves : ¬ ServesIncomplete .sample (.sample true) 1000 .sample (.afterRequest true) := by
    rintro ⟨id, u, _, hfind, _, hincomplete, _⟩
    simp [hcompleted u (List.mem_of_find?_eq_some hfind)] at hincomplete
  refine ⟨by decide +kernel, ?_⟩
  exact ((sameDecision_iff_not_servesIncomplete (fun _ => "") .sample (.sample true) 1000 .sample
    (.afterRequest true) (.afterRequest true) (currentCopies_afterRequest true)).2 hserves).1

end NestStarter.Accounts
