import Mathlib.Logic.Function.Basic
import Mathlib.Data.List.Basic

/-! # Partial-step machines and pools of clients

A machine is its step function: what one labelled action does to a state, or
`none` where the action is not enabled. Runs are finite action lists, so a
prefix of a run is a run, and whatever holds at the end of every run holds in
every state a run passes through. Invariants are proved one step at a time and
lifted to runs here, once.

A pool is a machine of any number of clients. Each client has a local state and
all of them share one store; an action names the client that moves, so an
action list is an interleaving of the clients' steps.
-/

namespace NestStarter.Core

section Machine

variable {σ α : Type*}

/-! ## Runs -/

/-- Take the actions in order; `none` when one of them is not enabled. -/
def run (step : σ → α → Option σ) : σ → List α → Option σ
  | s, [] => some s
  | s, a :: as => (step s a).bind fun s' => run step s' as

@[simp] theorem run_nil (step : σ → α → Option σ) (s : σ) : run step s [] = some s := rfl

theorem run_cons_eq_some {step : σ → α → Option σ} {s t : σ} {a : α} {as : List α} :
    run step s (a :: as) = some t ↔ ∃ s', step s a = some s' ∧ run step s' as = some t := by
  simp [run, Option.bind_eq_some_iff]

theorem run_append (step : σ → α → Option σ) (s : σ) (as bs : List α) :
    run step s (as ++ bs) = (run step s as).bind fun s' => run step s' bs := by
  induction as generalizing s with
  | nil => simp
  | cons a as ih =>
      cases h : step s a with
      | none => simp [run, h]
      | some s' => simp [run, h, ih]

theorem run_append_of_eq {step : σ → α → Option σ} {s t : σ} {as bs : List α}
    (h : run step s as = some t) : run step s (as ++ bs) = run step t bs := by
  simp [run_append, h]

/-- The condition holds at every step of the run, in the state before the step. -/
def Along (step : σ → α → Option σ) (C : σ → α → Prop) : σ → List α → Prop
  | _, [] => True
  | s, a :: as => C s a ∧ ∀ s', step s a = some s' → Along step C s' as

/-- The same, for every way to cut the run at a step. -/
theorem along_iff {step : σ → α → Option σ} {C : σ → α → Prop} {s : σ} {as : List α} :
    Along step C s as ↔
      ∀ as₁ a as₂ s₁, as = as₁ ++ a :: as₂ → run step s as₁ = some s₁ → C s₁ a := by
  constructor
  · intro h as₁ a as₂ s₁ has hrun
    subst has
    induction as₁ generalizing s with
    | nil =>
        cases hrun
        exact h.1
    | cons b as₁ ih =>
        obtain ⟨s', hs', hrest⟩ := run_cons_eq_some.1 hrun
        rw [List.cons_append] at h
        exact ih hrest (h.2 s' hs')
  · intro h
    induction as generalizing s with
    | nil => trivial
    | cons a as ih =>
        refine ⟨h [] a as s rfl rfl, fun s' hs' => ih fun as₁ b as₂ s₁ has hrun => ?_⟩
        exact h (a :: as₁) b as₂ s₁ (by rw [has]; rfl) (run_cons_eq_some.2 ⟨s', hs', hrun⟩)

theorem Along.prefix {step : σ → α → Option σ} {C : σ → α → Prop} {s : σ} {as bs : List α}
    (h : Along step C s (as ++ bs)) : Along step C s as :=
  along_iff.2 fun as₁ a as₂ s₁ has hrun =>
    along_iff.1 h as₁ a (as₂ ++ bs) s₁ (by rw [has]; simp) hrun

theorem Along.suffix {step : σ → α → Option σ} {C : σ → α → Prop} {s t : σ} {as bs : List α}
    (h : Along step C s (as ++ bs)) (hrun : run step s as = some t) : Along step C t bs :=
  along_iff.2 fun bs₁ b bs₂ t₁ hbs hrun' =>
    along_iff.1 h (as ++ bs₁) b bs₂ t₁ (by rw [hbs]; simp) (by rw [run_append_of_eq hrun, hrun'])

/-- A condition that can be decided at each step can be decided along a run. -/
instance Along.decidable {step : σ → α → Option σ} {C : σ → α → Prop}
    [∀ s a, Decidable (C s a)] : (s : σ) → (as : List α) → Decidable (Along step C s as)
  | _, [] => isTrue trivial
  | s, a :: as =>
      match h : step s a with
      | none => decidable_of_iff (C s a) (by simp [Along, h])
      | some s' =>
          have : Decidable (Along step C s' as) := Along.decidable s' as
          decidable_of_iff (C s a ∧ Along step C s' as) (by simp [Along, h])

/-- The run lemma: what one step preserves, a run preserves. The condition `C`
restricts the steps for which the step obligation is owed. -/
theorem run_inv {step : σ → α → Option σ} {C : σ → α → Prop} {Inv : σ → Prop}
    (hstep : ∀ s a s', Inv s → C s a → step s a = some s' → Inv s')
    {s t : σ} {as : List α} (hs : Inv s) (hC : Along step C s as)
    (hrun : run step s as = some t) : Inv t := by
  induction as generalizing s with
  | nil =>
      cases hrun
      exact hs
  | cons a as ih =>
      obtain ⟨s', hs', hrest⟩ := run_cons_eq_some.1 hrun
      exact ih (hstep s a s' hs hC.1 hs') (hC.2 s' hs') hrest

/-- A condition that follows from another, wherever what the run preserves holds. -/
theorem Along.of_inv {step : σ → α → Option σ} {C D : σ → α → Prop} {I : σ → Prop}
    (hstep : ∀ s a s', I s → C s a → step s a = some s' → I s')
    (hCD : ∀ s a, I s → C s a → D s a) {s : σ} {as : List α} (hs : I s)
    (h : Along step C s as) : Along step D s as := by
  induction as generalizing s with
  | nil => trivial
  | cons a as ih =>
      exact ⟨hCD s a hs h.1, fun s' hs' => ih (hstep s a s' hs h.1 hs') (h.2 s' hs')⟩

theorem along_true (step : σ → α → Option σ) (s : σ) (as : List α) :
    Along step (fun _ _ => True) s as := by
  induction as generalizing s with
  | nil => trivial
  | cons a as ih => exact ⟨trivial, fun s' _ => ih s'⟩

/-- A condition on the action alone is a condition on the list. -/
theorem along_of_forall_mem {step : σ → α → Option σ} {C : α → Prop} {as : List α}
    (h : ∀ a ∈ as, C a) (s : σ) : Along step (fun _ a => C a) s as := by
  induction as generalizing s with
  | nil => trivial
  | cons a as ih =>
      exact ⟨h a (List.mem_cons_self ..), fun s' _ =>
        ih (fun b hb => h b (List.mem_cons_of_mem a hb)) s'⟩

theorem Along.and {step : σ → α → Option σ} {C D : σ → α → Prop} {s : σ} {as : List α}
    (hC : Along step C s as) (hD : Along step D s as) :
    Along step (fun s a => C s a ∧ D s a) s as := by
  induction as generalizing s with
  | nil => trivial
  | cons a as ih => exact ⟨⟨hC.1, hD.1⟩, fun s' hs' => ih (hC.2 s' hs') (hD.2 s' hs')⟩

/-- Erasing the steps that do not concern an observer leaves a run it cannot tell
from the original. -/
theorem run_filter {step : σ → α → Option σ} {keep : α → Bool} {R : σ → σ → Prop}
    (hkeep : ∀ s s' a t, R s s' → keep a = true → step s a = some t →
      ∃ t', step s' a = some t' ∧ R t t')
    (hdrop : ∀ s s' a t, R s s' → keep a = false → step s a = some t → R t s')
    {s s' t : σ} {as : List α} (hR : R s s') (hrun : run step s as = some t) :
    ∃ t', run step s' (as.filter keep) = some t' ∧ R t t' := by
  induction as generalizing s s' with
  | nil =>
      cases hrun
      exact ⟨s', rfl, hR⟩
  | cons a as ih =>
      obtain ⟨u, hu, hrest⟩ := run_cons_eq_some.1 hrun
      cases hk : keep a with
      | true =>
          obtain ⟨u', hu', hRu⟩ := hkeep s s' a u hR hk hu
          obtain ⟨t', ht', hRt⟩ := ih hRu hrest
          refine ⟨t', ?_, hRt⟩
          rw [List.filter_cons_of_pos hk]
          exact run_cons_eq_some.2 ⟨u', hu', ht'⟩
      | false =>
          obtain ⟨t', ht', hRt⟩ := ih (hdrop s s' a u hR hk hu) hrest
          refine ⟨t', ?_, hRt⟩
          rwa [List.filter_cons_of_neg (by simp [hk])]

/-- Forward simulation: when each step is matched by a run of another machine, a run is. -/
theorem run_simulates {τ β : Type*} {step : σ → α → Option σ} {step' : τ → β → Option τ}
    {R : σ → τ → Prop}
    (hstep : ∀ s t a s', R s t → step s a = some s' →
      ∃ bs t', run step' t bs = some t' ∧ R s' t')
    {s s' : σ} {t : τ} {as : List α} (hR : R s t) (hrun : run step s as = some s') :
    ∃ bs t', run step' t bs = some t' ∧ R s' t' := by
  induction as generalizing s t with
  | nil =>
      cases hrun
      exact ⟨[], t, rfl, hR⟩
  | cons a as ih =>
      obtain ⟨u, hu, hrest⟩ := run_cons_eq_some.1 hrun
      obtain ⟨bs, t₁, hbs, hR₁⟩ := hstep s t a u hR hu
      obtain ⟨cs, t', hcs, hR'⟩ := ih hR₁ hrest
      refine ⟨bs ++ cs, t', ?_, hR'⟩
      rw [run_append_of_eq hbs, hcs]

def Reachable (step : σ → α → Option σ) (init : σ) (s : σ) : Prop :=
  ∃ as, run step init as = some s

theorem Reachable.inv {step : σ → α → Option σ} {init : σ} {Inv : σ → Prop}
    (hinit : Inv init) (hstep : ∀ s a s', Inv s → step s a = some s' → Inv s')
    {s : σ} (h : Reachable step init s) : Inv s := by
  obtain ⟨as, hrun⟩ := h
  exact run_inv (C := fun _ _ => True) (fun s a s' hs _ he => hstep s a s' hs he)
    hinit (along_true step init as) hrun

end Machine

/-! ## Pools -/

/-- A shared store and the local state of every client. -/
structure Pool (Sh Lo : Type*) where
  shared : Sh
  client : Nat → Lo

namespace Pool

variable {Sh Lo α : Type*}

/-- Client `a.1` takes the action `a.2`; the other clients keep their state. -/
def step (move : Nat → Sh → Lo → α → Option (Sh × Lo)) (p : Pool Sh Lo) (a : Nat × α) :
    Option (Pool Sh Lo) :=
  (move a.1 p.shared (p.client a.1) a.2).map fun r =>
    ⟨r.1, Function.update p.client a.1 r.2⟩

theorem step_spec {move : Nat → Sh → Lo → α → Option (Sh × Lo)} {p p' : Pool Sh Lo}
    {a : Nat × α} (h : step move p a = some p') :
    ∃ sh lo, move a.1 p.shared (p.client a.1) a.2 = some (sh, lo) ∧
      p' = ⟨sh, Function.update p.client a.1 lo⟩ := by
  obtain ⟨r, hr, rfl⟩ := Option.map_eq_some_iff.1 h
  exact ⟨r.1, r.2, hr, rfl⟩

theorem run_client {move : Nat → Sh → Lo → α → Option (Sh × Lo)} {p q : Pool Sh Lo}
    {as : List (Nat × α)} (h : run (step move) p as = some q) {d : Nat}
    (hd : ∀ a ∈ as, a.1 ≠ d) : q.client d = p.client d := by
  induction as generalizing p with
  | nil =>
      cases h
      rfl
  | cons a as ih =>
      obtain ⟨p', hp', hrest⟩ := run_cons_eq_some.1 h
      obtain ⟨sh, lo, _, rfl⟩ := step_spec hp'
      rw [ih hrest fun b hb => hd b (List.mem_cons_of_mem a hb)]
      exact Function.update_of_ne (hd a (List.mem_cons_self ..)).symm _ _

/-- One client with the store to itself. -/
def solo (move : Nat → Sh → Lo → α → Option (Sh × Lo)) (c : Nat) (s : Sh × Lo) (a : α) :
    Option (Sh × Lo) :=
  move c s.1 s.2 a

/-- What a client can do with the store to itself, it can do while the others stand still. -/
theorem run_solo {move : Nat → Sh → Lo → α → Option (Sh × Lo)} {c : Nat} {p : Pool Sh Lo}
    {as : List α} {sh : Sh} {lo : Lo}
    (h : run (solo move c) (p.shared, p.client c) as = some (sh, lo)) :
    run (step move) p (as.map fun a => (c, a)) = some ⟨sh, Function.update p.client c lo⟩ := by
  induction as generalizing p with
  | nil =>
      cases h
      simp
  | cons a as ih =>
      obtain ⟨⟨sh', lo'⟩, hs, hrest⟩ := run_cons_eq_some.1 h
      have hstep : step move p (c, a) = some ⟨sh', Function.update p.client c lo'⟩ :=
        congrArg (Option.map _) hs
      have hnext := ih (p := ⟨sh', Function.update p.client c lo'⟩) (by simpa using hrest)
      rw [Function.update_idem] at hnext
      exact run_cons_eq_some.2 ⟨_, hstep, hnext⟩

/-- The same, when the client ends where it began. -/
theorem run_solo_self {move : Nat → Sh → Lo → α → Option (Sh × Lo)} {c : Nat} {p : Pool Sh Lo}
    {as : List α} {sh : Sh}
    (h : run (solo move c) (p.shared, p.client c) as = some (sh, p.client c)) :
    run (step move) p (as.map fun a => (c, a)) = some ⟨sh, p.client⟩ := by
  rw [run_solo h, Function.update_eq_self]

/-- To know something of every client, look at those that were named. -/
theorem forall_client {move : Nat → Sh → Lo → α → Option (Sh × Lo)} {p q : Pool Sh Lo}
    {as : List (Nat × α)} (h : run (step move) p as = some q) (P : Lo → Prop) (n : Nat)
    (hp : ∀ d, P (p.client d)) (has : ∀ a ∈ as, a.1 < n) (hq : ∀ d < n, P (q.client d)) (d : Nat) :
    P (q.client d) := by
  by_cases hd : d < n
  · exact hq d hd
  · have hne : ∀ a ∈ as, a.1 ≠ d := fun a ha he => hd (by simpa [he] using has a ha)
    rw [run_client h hne]
    exact hp d

/-- To know a condition on all clients along a run, look at those that are named. -/
theorem along_of_forall_lt {move : Nat → Sh → Lo → α → Option (Sh × Lo)}
    {C C' : Pool Sh Lo → Nat × α → Prop} (n : Nat) {lo : Lo}
    (hCC : ∀ p a, (∀ d, n ≤ d → p.client d = lo) → C' p a → C p a) {p : Pool Sh Lo}
    {as : List (Nat × α)} (hp : ∀ d, n ≤ d → p.client d = lo) (has : ∀ a ∈ as, a.1 < n)
    (hC : Along (step move) C' p as) : Along (step move) C p as := by
  induction as generalizing p with
  | nil => trivial
  | cons a as ih =>
      refine ⟨hCC p a hp hC.1, fun p' hp' => ?_⟩
      refine ih (fun d hd => ?_) (fun b hb => has b (List.mem_cons_of_mem a hb)) (hC.2 p' hp')
      obtain ⟨sh, lo', _, rfl⟩ := step_spec hp'
      have hne : d ≠ a.1 := Nat.ne_of_gt (Nat.lt_of_lt_of_le (has a List.mem_cons_self) hd)
      simpa [Function.update_of_ne hne] using hp d hd

/-- An invariant of the store, and of each client's state against the store. -/
structure Holds (Inv : Sh → Prop) (Loc : Nat → Sh → Lo → Prop) (p : Pool Sh Lo) : Prop where
  shared : Inv p.shared
  client : ∀ c, Loc c p.shared (p.client c)

/-- A step keeps the invariant when the mover re-establishes its own part and
does not interfere with the part of any other client. -/
theorem Holds.move {Inv : Sh → Prop} {Loc : Nat → Sh → Lo → Prop} {p : Pool Sh Lo}
    {c : Nat} {sh : Sh} {lo : Lo} (hsh : Inv sh) (hown : Loc c sh lo)
    (hother : ∀ d, d ≠ c → Loc d sh (p.client d)) :
    Holds Inv Loc ⟨sh, Function.update p.client c lo⟩ := by
  refine ⟨hsh, fun d => ?_⟩
  by_cases hd : d = c
  · subst hd
    simpa using hown
  · simpa [Function.update_of_ne hd] using hother d hd

/-- All clients but one are at rest, and the store fits where that one stands. -/
def Alone (rest : Lo) (Stage : Sh → Lo → Prop) (p : Pool Sh Lo) : Prop :=
  ∃ c, (∀ d, d ≠ c → p.client d = rest) ∧ Stage p.shared (p.client c)

/-- It stays so if a step fits what it found, and no client leaves its rest while another is away
from it. -/
theorem Alone.step {move : Nat → Sh → Lo → α → Option (Sh × Lo)} {rest : Lo}
    {Stage : Sh → Lo → Prop} {p p' : Pool Sh Lo} {a : Nat × α} (h : Alone rest Stage p)
    (hstage : ∀ {lo sh' lo'}, Stage p.shared lo → move a.1 p.shared lo a.2 = some (sh', lo') →
      Stage sh' lo')
    (hother : ∀ {lo sh' lo'}, Stage p.shared lo → lo ≠ rest →
      move a.1 p.shared rest a.2 = some (sh', lo') → Stage sh' lo ∧ lo' = rest)
    (hstep : Pool.step move p a = some p') : Alone rest Stage p' := by
  obtain ⟨c, hrest, hc⟩ := h
  obtain ⟨sh', lo', hmove, rfl⟩ := step_spec hstep
  by_cases hac : a.1 = c
  · rw [hac] at hmove
    refine ⟨c, fun d hd => ?_, ?_⟩
    · rw [hac]
      exact (Function.update_of_ne hd _ _).trans (hrest d hd)
    · simpa [hac] using hstage hc (by rwa [hac])
  · rw [hrest a.1 hac] at hmove
    by_cases hclient : p.client c = rest
    · -- all are at rest, so the mover may become the one that is away
      rw [hclient] at hc
      refine ⟨a.1, fun d hd => (Function.update_of_ne hd _ _).trans ?_, ?_⟩
      · by_cases hdc : d = c
        · rw [hdc, hclient]
        · exact hrest d hdc
      · simpa using hstage hc hmove
    · obtain ⟨hc', rfl⟩ := hother hc hclient hmove
      refine ⟨c, fun d hd => ?_, ?_⟩
      · by_cases hda : d = a.1
        · simp [hda]
        · exact (Function.update_of_ne hda _ _).trans (hrest d hd)
      · simpa [Function.update_of_ne (Ne.symm hac)] using hc'

end Pool

end NestStarter.Core
