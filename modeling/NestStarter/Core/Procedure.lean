import Mathlib.Control.Monad.Basic

/-! # Procedures whose steps may fail

Code over a state that may throw: what it did before the throw stays done. A step may be made to
fail, before it takes effect or after.
-/

namespace NestStarter.Core

abbrev Procedure (ε σ α : Type) := ExceptT ε (StateM σ) α

/-- How a step fails: what it throws, and whether it had taken effect by then. -/
structure Fault (ε : Type) where
  thrown : ε
  effective : Bool
  deriving DecidableEq, Repr

namespace Procedure

variable {ε σ α β : Type}

/-- Run a procedure: its result, and the state it leaves. -/
def exec (m : Procedure ε σ α) (s : σ) : Except ε α × σ := m.run.run s

@[simp] theorem exec_pure (a : α) (s : σ) : exec (pure a : Procedure ε σ α) s = (.ok a, s) := rfl

@[simp] theorem exec_throw (e : ε) (s : σ) :
    exec (throw e : Procedure ε σ α) s = (.error e, s) := rfl

@[simp] theorem exec_bind (m : Procedure ε σ α) (f : α → Procedure ε σ β) (s : σ) :
    exec (m >>= f) s =
      match exec m s with
      | (.ok a, s') => exec (f a) s'
      | (.error e, s') => (.error e, s') := by
  simp only [exec, ExceptT.run, bind, ExceptT.bind, ExceptT.mk, ExceptT.bindCont, StateT.run,
    StateT.bind]
  cases m s with
  | mk r s' => cases r <;> rfl

@[simp] theorem exec_map (f : α → β) (m : Procedure ε σ α) (s : σ) :
    exec (f <$> m) s = ((exec m s).1.map f, (exec m s).2) := by
  rw [map_eq_pure_bind, exec_bind]
  cases exec m s with
  | mk r s' => cases r <;> rfl

def operation (f : σ → Except ε α × σ) : Procedure ε σ α := ExceptT.mk f

@[simp] theorem exec_operation (f : σ → Except ε α × σ) (s : σ) : exec (operation f) s = f s := rfl

def swallow (m : Procedure ε σ α) : Procedure ε σ Unit :=
  ExceptT.mk fun s => (.ok (), (exec m s).2)

@[simp] theorem exec_swallow (m : Procedure ε σ α) (s : σ) :
    exec (swallow m) s = (.ok (), (exec m s).2) := rfl

/-- `m`, failing as `fault` says. -/
def under (fault : Option (Fault ε)) (m : Procedure ε σ α) : Procedure ε σ α :=
  ExceptT.mk fun s =>
    match fault with
    | none => exec m s
    | some f => (.error f.thrown, if f.effective then (exec m s).2 else s)

/-- The step takes effect, whether or not its caller learns of it. -/
def TakesEffect (fault : Option (Fault ε)) : Prop := ∀ f ∈ fault, f.effective = true

instance (fault : Option (Fault ε)) : Decidable (TakesEffect fault) :=
  match fault with
  | none => isTrue nofun
  | some f => decidable_of_iff (f.effective = true) (by simp [TakesEffect])

@[simp] theorem takesEffect_none : TakesEffect (none : Option (Fault ε)) := nofun

@[simp] theorem takesEffect_some (f : Fault ε) :
    TakesEffect (some f) ↔ f.effective = true := by simp [TakesEffect]

@[simp] theorem under_none (m : Procedure ε σ α) : under none m = m := rfl

@[simp] theorem exec_under_some (f : Fault ε) (m : Procedure ε σ α) (s : σ) :
    exec (under (some f) m) s = (.error f.thrown, if f.effective then (exec m s).2 else s) := rfl

theorem snd_exec_under (fault : Option (Fault ε)) (m : Procedure ε σ α) (s : σ) :
    (exec (under fault m) s).2 = if TakesEffect fault then (exec m s).2 else s := by
  cases fault with
  | none => simp
  | some f => simp

end Procedure

end NestStarter.Core
