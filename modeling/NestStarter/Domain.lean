import Mathlib.Data.Int.Order.Basic

/-! # Words the modules share

Instants, roles and HTTP exceptions. A message is represented by its
translation key and arguments; the translated text is a function of these.
-/

namespace NestStarter

/-- Milliseconds since the epoch, as `Date.now()` counts them. -/
abbrev Instant := Int

inductive Role where
  | admin
  | user
  deriving DecidableEq, Repr

def Role.value : Role → String
  | .admin => "admin"
  | .user => "user"

inductive HttpStatus where
  | badRequest
  | unauthorized
  | forbidden
  | notFound
  | conflict
  | internalServerError
  deriving DecidableEq, Repr

/-- A Nest exception: its status, and the key and arguments given to
`translator.tr`. -/
structure HttpException where
  status : HttpStatus
  message : String
  args : List (String × Int) := []
  deriving DecidableEq, Repr

/-- SHA-256 of the strings that the example runs digest. -/
def sha256Sample (s : String) : String :=
  if s = "a" then "ca978112ca1bbdcafac231b39a23dc4da786eff8147c4e72b9807785afee48bb"
  else if s = "b" then "3e23e8160039594a33894f6564e1b1348bbd7a0088d42c4acb73eeaed59c009d"
  else if s = "c" then "2e7d2c03a9507ae265ecf5b5356885a53393a2029d241394997265a1a25aefc6"
  else if s = "000000" then "91b4d142823f7d20c5f08df69122de43f35f057a988d9619f6d3138485c9a203"
  else if s = "123456" then "8d969eef6ecad3c29a3a629280e686cf0c3f5d5a86aff3ca12020c923adc6c92"
  else ""

def orThrow {α : Type} (e : HttpException) : Option α → Except HttpException α
  | some a => .ok a
  | none => .error e

@[simp] theorem orThrow_some {α : Type} (e : HttpException) (a : α) :
    orThrow e (some a) = .ok a := rfl

@[simp] theorem orThrow_none {α : Type} (e : HttpException) :
    orThrow e (none : Option α) = .error e := rfl

@[simp] theorem pure_eq_ok {α : Type} (a : α) : (pure a : Except HttpException α) = .ok a := rfl

@[simp] theorem throw_eq_error {α : Type} (e : HttpException) :
    (throw e : Except HttpException α) = .error e := rfl

@[simp] theorem ok_bind {α β : Type} (a : α) (f : α → Except HttpException β) :
    (Except.ok a >>= f) = f a := rfl

@[simp] theorem error_bind {α β : Type} (e : HttpException) (f : α → Except HttpException β) :
    (Except.error e >>= f) = .error e := rfl

/-- Service code over one table: it may throw, and what its statements wrote
before the throw stays written. -/
abbrev Service (σ α : Type) := ExceptT HttpException (StateM σ) α

namespace Service

variable {σ α β : Type}

def exec (m : Service σ α) (s : σ) : Except HttpException α × σ := m.run.run s

@[simp] theorem exec_pure (a : α) (s : σ) : exec (pure a : Service σ α) s = (.ok a, s) := rfl

@[simp] theorem exec_throw (e : HttpException) (s : σ) :
    exec (throw e : Service σ α) s = (.error e, s) := rfl

@[simp] theorem exec_bind (m : Service σ α) (f : α → Service σ β) (s : σ) :
    exec (m >>= f) s =
      match exec m s with
      | (.ok a, s') => exec (f a) s'
      | (.error e, s') => (.error e, s') := by
  simp only [exec, ExceptT.run, bind, ExceptT.bind, ExceptT.mk, ExceptT.bindCont, StateT.run,
    StateT.bind]
  cases m s with
  | mk r s' => cases r <;> rfl

@[simp] theorem exec_map (f : α → β) (m : Service σ α) (s : σ) :
    exec (f <$> m) s =
      match exec m s with
      | (.ok a, s') => (.ok (f a), s')
      | (.error e, s') => (.error e, s') := by
  rw [map_eq_pure_bind, exec_bind]
  rfl

theorem exec_bind_pure (m : Service σ α) (f : α → β) (s : σ) :
    exec (m >>= fun a => pure (f a)) s = ((exec m s).1.map f, (exec m s).2) := by
  rw [exec_bind]
  cases exec m s with
  | mk r s' => cases r <;> rfl

def statement (f : σ → α × σ) : Service σ α := ExceptT.mk fun s => let r := f s; (.ok r.1, r.2)

@[simp] theorem exec_statement (f : σ → α × σ) (s : σ) :
    exec (statement f) s = (.ok (f s).1, (f s).2) := rfl

/-- Code between the statements that may throw. -/
def ofExcept (x : Except HttpException α) : Service σ α := ExceptT.mk fun s => (x, s)

@[simp] theorem exec_ofExcept (x : Except HttpException α) (s : σ) :
    exec (ofExcept x) s = (x, s) := rfl

/-- An awaited operation that may fail before it takes effect; `fault` is what it then throws. -/
def attempt (fault : Option HttpException) (m : Service σ α) : Service σ α :=
  match fault with
  | some e => throw e
  | none => m

@[simp] theorem attempt_none (m : Service σ α) : attempt none m = m := rfl

@[simp] theorem attempt_some (e : HttpException) (m : Service σ α) :
    attempt (some e) m = throw e := rfl

/-- A call of a service that works on one part of the state. -/
def on {τ : Type} (get : σ → τ) (set : σ → τ → σ) (m : Service τ α) : Service σ α :=
  ExceptT.mk fun s => let r := exec m (get s); (r.1, set s r.2)

@[simp] theorem exec_on {τ : Type} (get : σ → τ) (set : σ → τ → σ) (m : Service τ α) (s : σ) :
    exec (on get set m) s = ((exec m (get s)).1, set s (exec m (get s)).2) := rfl

@[simp] theorem exec_ite (c : Prop) [Decidable c] (m n : Service σ α) (s : σ) :
    exec (if c then m else n) s = if c then exec m s else exec n s := by
  split <;> rfl

end Service

end NestStarter
