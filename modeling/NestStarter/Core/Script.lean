import NestStarter.Core.Machine

/-! # Scripts of atomic statements

A script is a call as a store sees it: one atomic statement after another, each chosen from the
replies before it. With the store to itself it is a function of the store. Among others it is a
client of a pool, and what it reads may be gone before its next statement; a script is safe when
what is promised of it survives anything the others are allowed to do in between.
-/

namespace NestStarter.Core

inductive Script (σ α : Type) : Type 1 where
  | done (a : α)
  | step {β : Type} (q : σ → β × σ) (next : β → Script σ α)

namespace Script

variable {σ α β ε : Type}

def bind : Script σ α → (α → Script σ β) → Script σ β
  | .done a, f => f a
  | .step q next, f => .step q fun b => (next b).bind f

instance : Monad (Script σ) where
  pure := .done
  bind := bind

@[simp] theorem done_bind (a : α) (f : α → Script σ β) : (Script.done a >>= f) = f a := rfl

@[simp] theorem step_bind {γ : Type} (q : σ → γ × σ) (next : γ → Script σ α)
    (f : α → Script σ β) : (Script.step q next >>= f) = .step q fun b => next b >>= f := rfl

def statement (q : σ → α × σ) : Script σ α := .step q .done

def exec : Script σ α → σ → α × σ
  | .done a, s => (a, s)
  | .step q next, s => (next (q s).1).exec (q s).2

@[simp] theorem exec_done (a : α) (s : σ) : (Script.done a).exec s = (a, s) := rfl

@[simp] theorem exec_pure (a : α) (s : σ) : (pure a : Script σ α).exec s = (a, s) := rfl

@[simp] theorem exec_statement (q : σ → α × σ) (s : σ) : (statement q).exec s = q s := rfl

@[simp] theorem exec_bind (p : Script σ α) (f : α → Script σ β) (s : σ) :
    (p >>= f).exec s = (f (p.exec s).1).exec (p.exec s).2 := by
  induction p generalizing s with
  | done a => rfl
  | step q next ih => exact ih (q s).1 (q s).2

def move (_c : Nat) (s : σ) : Script σ α → Unit → Option (σ × Script σ α)
  | .done _, _ => none
  | .step q next, _ => some ((q s).2, next (q s).1)

/-- The client of each action runs its next statement. -/
def runAll (p : Pool σ (Script σ α)) (clients : List Nat) : Option (Pool σ (Script σ α)) :=
  run (Pool.step move) p (clients.map fun c => (c, ()))

/-- The result of a script that has ended. -/
def result : Script σ α → Option α
  | .done a => some a
  | .step _ _ => none

theorem result_eq_some {p : Script σ α} {a : α} : p.result = some a ↔ p = .done a := by
  cases p <;> simp [result]

/-- What a client does with the store to itself is what it does while the others stand still. -/
theorem runAll_alone (p : Pool σ (Script σ α)) (c : Nat) :
    ∃ n, runAll p (List.replicate n c) =
      some ⟨((p.client c).exec p.shared).2,
        Function.update p.client c (.done ((p.client c).exec p.shared).1)⟩ := by
  generalize hscript : p.client c = script
  induction script generalizing p with
  | done a =>
    refine ⟨0, ?_⟩
    rw [← hscript, Function.update_eq_self_iff.2 (by rw [hscript]; rfl), hscript]
    rfl
  | step q next ih =>
    obtain ⟨n, hn⟩ := ih (q p.shared).1
      ⟨(q p.shared).2, Function.update p.client c (next (q p.shared).1)⟩ (by simp)
    refine ⟨n + 1, ?_⟩
    rw [runAll, List.replicate_succ, List.map_cons]
    refine run_cons_eq_some.2 ⟨_, by simp only [Pool.step, hscript, move]; rfl, ?_⟩
    rw [Function.update_idem] at hn
    exact hn

/-! ## Safety -/

section Safe

variable {Keeps : σ → σ → Prop}

/-- Whatever the others do before each statement, as long as they keep `Keeps`, the statement
keeps it too, and the result is one that `P` allows from then on. -/
def Safe (Keeps : σ → σ → Prop) (P : α → σ → Prop) : Script σ α → σ → Prop
  | .done a, s => ∀ s', Keeps s s' → P a s'
  | .step q next, s => ∀ s', Keeps s s' →
      Keeps s' (q s').2 ∧ Safe Keeps P (next (q s').1) (q s').2

variable {P : α → σ → Prop} {Q : β → σ → Prop} {s s' : σ}

theorem Safe.stable {p : Script σ α} (h : Safe Keeps P p s)
    (htrans : ∀ {a b c}, Keeps a b → Keeps b c → Keeps a c) (hs : Keeps s s') :
    Safe Keeps P p s' := by
  cases p with
  | done a => exact fun t ht => h t (htrans hs ht)
  | step q next => exact fun t ht => h t (htrans hs ht)

theorem Safe.result (hrefl : ∀ s, Keeps s s) {a : α} (h : Safe Keeps P (.done a) s) : P a s :=
  h s (hrefl s)

theorem Safe.bind (hrefl : ∀ s, Keeps s s) {p : Script σ α} {f : α → Script σ β}
    (h : Safe Keeps P p s) (hf : ∀ a s', P a s' → Safe Keeps Q (f a) s') :
    Safe Keeps Q (p >>= f) s := by
  induction p generalizing s with
  | done a => exact hf a s (h.result hrefl)
  | step q next ih => exact fun s' hs' => ⟨(h s' hs').1, ih _ (h s' hs').2⟩

theorem Safe.mono {Q : α → σ → Prop} (hPQ : ∀ a s, P a s → Q a s) {p : Script σ α}
    (h : Safe Keeps P p s) : Safe Keeps Q p s := by
  induction p generalizing s with
  | done a => exact fun s' hs' => hPQ a s' (h s' hs')
  | step q next ih => exact fun s' hs' => ⟨(h s' hs').1, ih _ (h s' hs').2⟩

/-- A statement is safe when its reply is, and stays so. -/
theorem Safe.statement {q : σ → α × σ}
    (h : ∀ s', Keeps s s' → Keeps s' (q s').2 ∧ ∀ t, Keeps (q s').2 t → P (q s').1 t) :
    Safe Keeps P (statement q) s := h

end Safe

/-- In a pool of safe scripts every step keeps what the others count on, and the scripts stay
safe. -/
theorem safe_of_run {Keeps : σ → σ → Prop} {P : Nat → α → σ → Prop} (hrefl : ∀ s, Keeps s s)
    (htrans : ∀ {a b c}, Keeps a b → Keeps b c → Keeps a c) {p p' : Pool σ (Script σ α)}
    {clients : List Nat} (hsafe : ∀ c, Safe Keeps (P c) (p.client c) p.shared)
    (hrun : runAll p clients = some p') :
    Keeps p.shared p'.shared ∧ ∀ c, Safe Keeps (P c) (p'.client c) p'.shared := by
  induction clients generalizing p with
  | nil =>
    cases hrun
    exact ⟨hrefl _, hsafe⟩
  | cons d clients ih =>
    obtain ⟨p₁, hstep, hrest⟩ := run_cons_eq_some.1 hrun
    obtain ⟨s₁, lo, hmove, rfl⟩ := Pool.step_spec hstep
    have hd := hsafe d
    cases hscript : p.client d with
    | done a => simp [hscript, move] at hmove
    | step q next =>
      simp only [hscript, move, Option.some.injEq, Prod.mk.injEq] at hmove
      obtain ⟨rfl, rfl⟩ := hmove
      rw [hscript] at hd
      obtain ⟨hkeeps, hnext⟩ := hd p.shared (hrefl _)
      have hclients : ∀ c, Safe Keeps (P c)
          (Function.update p.client d (next (q p.shared).1) c) (q p.shared).2 := by
        intro c
        by_cases hc : c = d
        · subst hc
          simpa using hnext
        · rw [Function.update_of_ne hc]
          exact (hsafe c).stable htrans hkeeps
      obtain ⟨hlater, hsafe'⟩ := ih hclients hrest
      exact ⟨htrans hkeeps hlater, hsafe'⟩

/-- Every finished script of such a pool has a result that was promised. -/
theorem result_of_run {Keeps : σ → σ → Prop} {P : Nat → α → σ → Prop} (hrefl : ∀ s, Keeps s s)
    (htrans : ∀ {a b c}, Keeps a b → Keeps b c → Keeps a c) {p p' : Pool σ (Script σ α)}
    {clients : List Nat} (hsafe : ∀ c, Safe Keeps (P c) (p.client c) p.shared)
    (hrun : runAll p clients = some p') {c : Nat} {a : α} (hdone : p'.client c = .done a) :
    P c a p'.shared := by
  have h := (safe_of_run hrefl htrans hsafe hrun).2 c
  rw [hdone] at h
  exact h.result hrefl

end Script

/-! ## Scripts that may throw -/

abbrev Call (σ ε α : Type) := ExceptT ε (Script σ) α

namespace Call

variable {σ ε ε' α β : Type}

def exec (m : Call σ ε α) (s : σ) : Except ε α × σ := Script.exec m.run s

def statement (q : σ → Except ε α × σ) : Call σ ε α := ExceptT.mk (Script.statement q)

@[simp] theorem exec_pure (a : α) (s : σ) : exec (pure a : Call σ ε α) s = (.ok a, s) := rfl

@[simp] theorem exec_throw (e : ε) (s : σ) :
    exec (throw e : Call σ ε α) s = (.error e, s) := rfl

@[simp] theorem exec_statement (q : σ → Except ε α × σ) (s : σ) : exec (statement q) s = q s := rfl

theorem run_bind (m : Call σ ε α) (f : α → Call σ ε β) :
    (m >>= f).run = m.run >>= ExceptT.bindCont f := rfl

@[simp] theorem exec_bind (m : Call σ ε α) (f : α → Call σ ε β) (s : σ) :
    exec (m >>= f) s =
      match exec m s with
      | (.ok a, s') => exec (f a) s'
      | (.error e, s') => (.error e, s') := by
  rw [exec, run_bind, Script.exec_bind]
  unfold exec
  cases m.run.exec s with
  | mk r s' => cases r <;> rfl

@[simp] theorem exec_tryCatch (m : Call σ ε α) (f : ε → Call σ ε α) (s : σ) :
    exec (tryCatch m f) s =
      match exec m s with
      | (.ok a, s') => (.ok a, s')
      | (.error e, s') => exec (f e) s' := by
  show Script.exec (m.run >>= _) s = _
  rw [Script.exec_bind]
  unfold exec
  cases m.run.exec s with
  | mk r s' => cases r <;> rfl

/-- A value that `A` allows or an error that `E` allows. -/
def Ends (A : α → Prop) (E : ε → Prop) : Except ε α → Prop
  | .ok a => A a
  | .error e => E e

/-- What a call comes to, whatever the others do between its statements: a value that `A` allows
or an error that `E` allows. -/
def Always (A : α → Prop) (E : ε → Prop) (m : Call σ ε α) : Prop :=
  ∀ s, Script.Safe (fun _ _ => True) (fun r _ => Ends A E r) m.run s

section Always

variable {A : α → Prop} {B : β → Prop} {E : ε → Prop}

theorem Always.pure {a : α} (h : A a) : Always A E (pure a : Call σ ε α) := fun _ _ _ => h

theorem Always.throw {e : ε} (h : E e) : Always A E (throw e : Call σ ε α) := fun _ _ _ => h

theorem Always.statement {q : σ → Except ε α × σ} (h : ∀ s, Ends A E (q s).1) :
    Always A E (statement q) := fun _ s _ => ⟨trivial, fun _ _ => h s⟩

theorem Always.bind {m : Call σ ε α} {f : α → Call σ ε β} (h : Always A E m)
    (hf : ∀ a, A a → Always B E (f a)) : Always B E (m >>= f) := by
  intro s
  rw [run_bind]
  refine Script.Safe.bind (fun _ => trivial) (h s) fun r s' hr => ?_
  cases r with
  | ok a => exact hf a hr s'
  | error e => exact fun _ _ => hr

theorem always_throw_bind {e : ε} {f : α → Call σ ε β} (h : E e) :
    Always B E ((throw e : Call σ ε α) >>= f) :=
  Always.bind (A := fun _ => False) (Always.throw h) fun _ hfalse => hfalse.elim

theorem Always.tryCatch {E' : ε → Prop} {m : Call σ ε α} {f : ε → Call σ ε α} (h : Always A E m)
    (hf : ∀ e, E e → Always A E' (f e)) : Always A E' (tryCatch m f) := by
  intro s
  refine Script.Safe.bind (p := m.run) (fun _ => trivial) (h s) fun r s' hr => ?_
  cases r with
  | ok a => exact fun _ _ => hr
  | error e => exact hf e hr s'

theorem Always.mono {A' : α → Prop} {E' : ε → Prop} {m : Call σ ε α} (h : Always A E m)
    (hA : ∀ a, A a → A' a) (hE : ∀ e, E e → E' e) : Always A' E' m := fun s =>
  (h s).mono fun r _ hr => by
    cases r with
    | ok a => exact hA a hr
    | error e => exact hE e hr

/-- In every interleaving a finished call came to something it always comes to. -/
theorem Always.of_run {A : Nat → α → Prop} {E : Nat → ε → Prop} {calls : Nat → Call σ ε α} {s : σ}
    {clients : List Nat} {p : Pool σ (Script σ (Except ε α))}
    (h : ∀ c, Always (A c) (E c) (calls c))
    (hrun : Script.runAll ⟨s, fun c => (calls c).run⟩ clients = some p) {c : Nat}
    {r : Except ε α} (hdone : p.client c = .done r) : Ends (A c) (E c) r :=
  Script.result_of_run (P := fun c r _ => Ends (A c) (E c) r) (fun _ => trivial)
    (fun _ _ => trivial) (fun c => h c s) hrun hdone

end Always

/-- Every statement of the call keeps `Keeps`, whatever the replies. -/
def Keeping (Keeps : σ → σ → Prop) (m : Call σ ε α) : Prop :=
  ∀ s, Script.Safe Keeps (fun _ _ => True) m.run s

section Keeping

variable {Keeps : σ → σ → Prop}

theorem Keeping.pure {a : α} : Keeping Keeps (pure a : Call σ ε α) := fun _ _ _ => trivial

theorem Keeping.throw {e : ε} : Keeping Keeps (throw e : Call σ ε α) := fun _ _ _ => trivial

theorem Keeping.statement {q : σ → Except ε α × σ} (h : ∀ s, Keeps s (q s).2) :
    Keeping Keeps (statement q) := fun _ s _ => ⟨h s, fun _ _ => trivial⟩

theorem Keeping.bind (hrefl : ∀ s, Keeps s s) {m : Call σ ε α} {f : α → Call σ ε β}
    (h : Keeping Keeps m) (hf : ∀ a, Keeping Keeps (f a)) : Keeping Keeps (m >>= f) := by
  intro s
  rw [run_bind]
  refine Script.Safe.bind hrefl (h s) fun r s' _ => ?_
  cases r with
  | ok a => exact hf a s'
  | error e => exact fun _ _ => trivial

end Keeping

end Call

end NestStarter.Core
