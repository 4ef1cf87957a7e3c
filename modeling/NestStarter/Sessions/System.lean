import NestStarter.Accounts.Cache
import NestStarter.Otps.Service
import NestStarter.RefreshTokens.Calls

/-! # The sessions of the whole system

Everything that begins, prolongs or ends a session, over all the tables: the OTP
and password logins, the refresh and logout endpoints, and the admin's switch for
a user's account. One call at a time; a call reads one clock value.
-/

namespace NestStarter.Sessions

open Accounts Otps RefreshTokens

structure System where
  accounts : AccountTables := {}
  otps : OtpTable := {}
  tokens : TokenTable := {}
  redis : Redis := .empty

/-- Settings, and what stands for `sha256`, `bcrypt.compare` and the storage service. -/
structure Env where
  otp : OtpConfig
  refreshTtlSeconds : Nat
  driver : CacheDriver
  sha256 : String → String
  comparePassword : String → String → Bool
  resolvePhotoUrl : Option String → Except HttpException (Option String)

abbrev SystemM (α : Type) := Service System α

def otpService {α : Type} (m : OtpM α) : SystemM α :=
  Service.on System.otps (fun s otps => { s with otps }) m

def refreshTokenService {α : Type} (m : TokenService α) : SystemM α :=
  Service.on System.tokens (fun s tokens => { s with tokens }) m

def setUsers (s : System) (users : UserTable) : System :=
  { s with accounts := { s.accounts with users } }

structure AccessTokenPayload where
  userId : Nat
  role : Role
  deriving DecidableEq, Repr

structure TokenPair where
  accessToken : AccessTokenPayload
  refreshToken : String
  deriving DecidableEq, Repr

structure UserLoginResponse extends TokenPair where
  photoUrl : Option String
  requiresProfileCompletion : Bool
  deriving DecidableEq, Repr

structure AdminLoginResponse extends TokenPair where
  photoUrl : Option String
  deriving DecidableEq, Repr

structure RefreshResponse extends TokenPair where
  role : Role
  deriving DecidableEq, Repr

def invalidCredentials : HttpException := ⟨.unauthorized, "admin.errors.invalid_credentials", []⟩

def userNotFound : HttpException := ⟨.notFound, "user.errors.not_found", []⟩

def findOneOrCreateByPhone (now : Instant) (phone : String) : SystemM UserEntity := do
  let existing ← Service.statement fun s => (s.accounts.users.findByPhone phone, s)
  match existing with
  | some user => return user
  | none =>
      let created : NewUser := { phone, isProfileCompleted := false }
      Service.statement fun s => (created.row s.accounts.users.nextId now,
        setUsers s (s.accounts.users.insert created now))

variable (env : Env)

def requestOtp (now : Instant) (phone : String) (draw : Nat) (delivered : Bool) :
    SystemM OtpIssueResult :=
  otpService (Otps.issue env.otp env.sha256 now phone .userLogin draw delivered)

def verifyOtp (now : Instant) (phone code token : String) : SystemM UserLoginResponse := do
  otpService (Otps.verify env.otp env.sha256 now phone .userLogin code)
  let user ← findOneOrCreateByPhone now phone
  let accessToken : AccessTokenPayload := ⟨user.id, .user⟩
  let refresh ← refreshTokenService
    (RefreshTokens.issue env.sha256 env.refreshTtlSeconds now token user.id .user)
  let photoUrl ← Service.ofExcept (env.resolvePhotoUrl user.photoKey)
  return ⟨⟨accessToken, refresh.token⟩, photoUrl, !user.isProfileCompleted⟩

def login (now : Instant) (username password token : String) : SystemM AdminLoginResponse := do
  let admin ← Service.statement fun s => (s.accounts.admins.findByUsername username, s)
  let admin ← Service.ofExcept (orThrow invalidCredentials admin)
  if env.comparePassword password admin.password then
    let accessToken : AccessTokenPayload := ⟨admin.id, .admin⟩
    let refresh ← refreshTokenService
      (RefreshTokens.issue env.sha256 env.refreshTtlSeconds now token admin.id .admin)
    let photoUrl ← Service.ofExcept (env.resolvePhotoUrl admin.photoKey)
    return ⟨⟨accessToken, refresh.token⟩, photoUrl⟩
  else throw invalidCredentials

def refresh (now : Instant) (refreshToken token : String) : SystemM RefreshResponse := do
  let rotated ← refreshTokenService
    (RefreshTokens.rotate env.sha256 env.refreshTtlSeconds now token refreshToken)
  let accessToken : AccessTokenPayload := ⟨rotated.userId, rotated.role⟩
  return ⟨⟨accessToken, rotated.token⟩, rotated.role⟩

def logout (now : Instant) (refreshToken : String) : SystemM Unit :=
  refreshTokenService (RefreshTokens.revoke env.sha256 now refreshToken)

def setActive (now : Instant) (id : Nat) (isActive : Bool) : SystemM Unit := do
  let user ← Service.statement fun s => (s.accounts.users.findById id, s)
  let user ← Service.ofExcept (orThrow userNotFound user)
  Service.statement fun s => ((), setUsers s (s.accounts.users.save { user with isActive } now))

def invalidateAuthCache (id : Nat) : SystemM Unit :=
  Service.statement fun s =>
    ((), { s with redis := env.driver.delete (authUser Role.user.value id) s.redis })

def deactivateByAdmin (now : Instant) (id : Nat) : SystemM Unit := do
  setActive now id false
  refreshTokenService (RefreshTokens.revokeAllForUser now id .user)
  invalidateAuthCache env id

def activateByAdmin (now : Instant) (id : Nat) : SystemM Unit := do
  setActive now id true
  invalidateAuthCache env id

inductive Op where
  | requestOtp (phone : String) (draw : Nat) (delivered : Bool)
  | verifyOtp (phone code token : String)
  | login (username password token : String)
  | refresh (refreshToken token : String)
  | logout (refreshToken : String)
  | deactivateByAdmin (id : Nat)
  | activateByAdmin (id : Nat)
  deriving DecidableEq, Repr

structure Request where
  now : Instant
  op : Op
  deriving DecidableEq, Repr

def perform (req : Request) : SystemM (Option TokenPair) :=
  match req.op with
  | .requestOtp phone draw delivered => do
      let _ ← requestOtp env req.now phone draw delivered
      return none
  | .verifyOtp phone code token => do
      let response ← verifyOtp env req.now phone code token
      return some response.toTokenPair
  | .login username password token => do
      let response ← login env req.now username password token
      return some response.toTokenPair
  | .refresh refreshToken token => do
      let response ← refresh env req.now refreshToken token
      return some response.toTokenPair
  | .logout refreshToken => do
      logout env req.now refreshToken
      return none
  | .deactivateByAdmin id => do
      deactivateByAdmin env req.now id
      return none
  | .activateByAdmin id => do
      activateByAdmin env req.now id
      return none

def step (s : System) (req : Request) : Option System := some (Service.exec (perform env req) s).2

def initial (admins : AdminTable) : System := { accounts := { admins } }

end NestStarter.Sessions
