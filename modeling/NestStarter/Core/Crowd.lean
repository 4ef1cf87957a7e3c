import Mathlib.Data.Nat.Count
import NestStarter.Core.Machine

/-! # Crowds

A check that is not atomic with the act it allows is passed by every client that
reaches it before the first of them acts. It still bounds what a crowd can do:
a client that has passed holds one permit, which its act spends, and nobody holds
two. With `k` clients a limit is overrun by the permits that are out, and by no
more, in every interleaving.
-/

namespace NestStarter.Core.Pool

variable {Sh Lo α : Type*} {k c : Nat} {client : Nat → Lo} {lo : Lo} {p q : Lo → Prop}
  [DecidablePred p] [DecidablePred q]

/-- How many of the first `k` clients satisfy `p`. -/
def crowd (k : Nat) (p : Lo → Prop) [DecidablePred p] (client : Nat → Lo) : Nat :=
  Nat.count (fun d => p (client d)) k

theorem crowd_eq_zero (h : ∀ d, ¬ p (client d)) : crowd k p client = 0 := by
  induction k with
  | zero => rfl
  | succ k ih =>
      rw [crowd, Nat.count_succ, if_neg (h k), Nat.add_zero]
      exact ih

/-- A client that nobody counts may do as it likes. -/
theorem crowd_update_of_le (h : k ≤ c) :
    crowd k p (Function.update client c lo) = crowd k p client := by
  induction k with
  | zero => rfl
  | succ k ih =>
      have hne : k ≠ c := by omega
      have hrest := ih (by omega)
      simp only [crowd, Nat.count_succ, Function.update_of_ne hne] at hrest ⊢
      rw [hrest]

theorem crowd_update (p : Lo → Prop) [DecidablePred p] (client : Nat → Lo) (lo : Lo) (h : c < k) :
    crowd k p (Function.update client c lo) + (if p (client c) then 1 else 0) =
      crowd k p client + if p lo then 1 else 0 := by
  induction k with
  | zero => omega
  | succ k ih =>
      by_cases hk : c = k
      · subst hk
        have hrest : crowd c p (Function.update client c lo) = crowd c p client :=
          crowd_update_of_le (Nat.le_refl c)
        simp only [crowd, Nat.count_succ, Function.update_self] at hrest ⊢
        omega
      · have hrest := ih (by omega)
        have hne : k ≠ c := fun he => hk he.symm
        simp only [crowd, Nat.count_succ, Function.update_of_ne hne] at hrest ⊢
        omega

theorem crowd_update_of_not (p : Lo → Prop) [DecidablePred p] (h : c < k) (hold : ¬ p (client c))
    (hnew : ¬ p lo) :
    crowd k p (Function.update client c lo) = crowd k p client := by
  have hmove := crowd_update p client lo h
  simpa only [if_neg hold, if_neg hnew, Nat.add_zero] using hmove

theorem crowd_add_crowd_le (client : Nat → Lo) (h : ∀ lo, p lo → ¬ q lo) :
    crowd k p client + crowd k q client ≤ k := by
  induction k with
  | zero => exact Nat.le_refl 0
  | succ k ih =>
      have hone : (if p (client k) then 1 else 0) + (if q (client k) then 1 else 0) ≤ 1 := by
        by_cases hp : p (client k)
        · simp [hp, h _ hp]
        · simp only [if_neg hp, Nat.zero_add]
          split <;> omega
      simp only [crowd, Nat.count_succ] at ih ⊢
      omega

theorem run_each {move : Nat → Sh → Lo → α → Option (Sh × Lo)} {lo lo' : Lo} {as : List α}
    (sh : Nat → Sh) (client : Nat → Lo) (k : Nat) (hlo : ∀ c < k, client c = lo)
    (h : ∀ c < k, run (solo move c) (sh c, lo) as = some (sh (c + 1), lo')) :
    run (step move) ⟨sh 0, client⟩ ((List.range k).flatMap fun c => as.map fun a => (c, a)) =
      some ⟨sh k, fun d => if d < k then lo' else client d⟩ := by
  induction k with
  | zero => simp
  | succ k ih =>
      have hrest := ih (fun c hc => hlo c (Nat.lt_succ_of_lt hc)) fun c hc =>
        h c (Nat.lt_succ_of_lt hc)
      have hlast : run (solo move k) (sh k, (fun d => if d < k then lo' else client d) k) as =
          some (sh (k + 1), lo') := by
        simpa [hlo k (Nat.lt_succ_self k)] using h k (Nat.lt_succ_self k)
      have hclients : Function.update (fun d => if d < k then lo' else client d) k lo' =
          fun d => if d < k + 1 then lo' else client d := by
        funext d
        by_cases hd : d = k
        · simp [hd]
        · have hiff : d < k ↔ d < k + 1 := by omega
          simp [Function.update_of_ne hd, hiff]
      rw [List.range_succ, List.flatMap_append, run_append_of_eq hrest, List.flatMap_singleton,
        run_solo (p := ⟨sh k, fun d => if d < k then lo' else client d⟩) hlast, hclients]

/-! ## Permits -/

/-- What is spent and what is out stay within the limit and one permit for each client. -/
def Budget (k limit : Nat) (spent : Sh → Nat) (p : Lo → Prop) [DecidablePred p]
    (s : Pool Sh Lo) : Prop :=
  spent s.shared + crowd k p s.client ≤ limit + k

theorem Budget.initial {limit : Nat} {spent : Sh → Nat} {s : Pool Sh Lo}
    (hspent : spent s.shared = 0) (h : ∀ d, ¬ p (s.client d)) : Budget k limit spent p s := by
  rw [Budget, hspent, crowd_eq_zero h]
  exact Nat.zero_le _

theorem Budget.spent_le {limit : Nat} {spent : Sh → Nat} {s : Pool Sh Lo}
    (h : Budget k limit spent p s) : spent s.shared ≤ limit + k :=
  Nat.le_trans (Nat.le_add_right _ _) h

/-- A step spends no more than the permit it gives up, or takes a permit while all that is spent
is within the limit, but for what the clients in `q`, which hold none, have yet to report. -/
theorem Budget.step {limit : Nat} {spent : Sh → Nat} {s : Pool Sh Lo} {sh : Sh}
    (h : Budget k limit spent p s) (hc : c < k) (hpq : ∀ lo, p lo → ¬ q lo)
    (hmove : spent sh + (if p lo then 1 else 0) ≤
        spent s.shared + (if p (s.client c) then 1 else 0) ∨
      spent sh ≤ limit + crowd k q (Function.update s.client c lo)) :
    Budget k limit spent p ⟨sh, Function.update s.client c lo⟩ := by
  unfold Budget at h ⊢
  rcases hmove with hspend | htake
  · have hcrowd := crowd_update p s.client lo hc
    simp only
    omega
  · have hdisj := crowd_add_crowd_le (k := k) (Function.update s.client c lo) hpq
    simp only
    omega

theorem Budget.step_of_check {limit : Nat} {spent : Sh → Nat} {s : Pool Sh Lo} {sh : Sh}
    (h : Budget k limit spent p s) (hc : c < k)
    (hmove : spent sh + (if p lo then 1 else 0) ≤
        spent s.shared + (if p (s.client c) then 1 else 0) ∨ spent sh ≤ limit) :
    Budget k limit spent p ⟨sh, Function.update s.client c lo⟩ := by
  refine h.step (q := fun _ => False) hc (fun _ _ hf => hf) (hmove.imp_right fun hle => ?_)
  exact Nat.le_trans hle (Nat.le_add_right _ _)

end NestStarter.Core.Pool
