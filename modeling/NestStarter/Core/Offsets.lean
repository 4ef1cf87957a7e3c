import Mathlib.Data.Int.Basic

/-! # Offsets with isolated changes

A function of time that keeps its value between changes, the changes some distance apart.
Over a window shorter than that distance it takes two values at most, one before the change
and one from it on.
-/

namespace NestStarter.Core.Offsets

variable {offset : Int → Int} {apart : Int}

/-- The offset at `t` is another than right before. -/
def ChangesAt (offset : Int → Int) (t : Int) : Prop := offset (t - 1) ≠ offset t

/-- Any two changes are at least `apart` apart. -/
def Isolated (offset : Int → Int) (apart : Int) : Prop :=
  ∀ s t, s < t → ChangesAt offset s → ChangesAt offset t → apart ≤ t - s

/-- Between two times with different offsets there is a change. -/
theorem exists_change {a b : Int} (hab : a ≤ b) (h : offset a ≠ offset b) :
    ∃ t, a < t ∧ t ≤ b ∧ ChangesAt offset t := by
  obtain ⟨n, rfl⟩ : ∃ n : Nat, b = a + n := ⟨(b - a).toNat, by omega⟩
  induction n with
  | zero => simp at h
  | succ n ih =>
    by_cases hlast : offset (a + n) = offset (a + (n + 1 : Nat))
    · obtain ⟨t, hat, htb, ht⟩ := ih (by omega) (by rwa [hlast])
      exact ⟨t, hat, by omega, ht⟩
    · refine ⟨a + (n + 1 : Nat), by omega, Int.le_refl _, ?_⟩
      have hpred : a + (n + 1 : Nat) - 1 = a + n := by omega
      rwa [ChangesAt, hpred]

/-- Right before a change the offset has been what it then was for long. -/
theorem eq_before_change {t u : Int} (h : Isolated offset apart) (ht : ChangesAt offset t)
    (hu : u < t) (hclose : t - u ≤ apart) : offset u = offset (t - 1) := by
  by_contra hne
  obtain ⟨s, hus, hst, hs⟩ := exists_change (by omega : u ≤ t - 1) hne
  have := h s t (by omega) hs ht
  omega

/-- From a change on the offset stays what it has become. -/
theorem eq_after_change {t u : Int} (h : Isolated offset apart) (ht : ChangesAt offset t)
    (hu : t ≤ u) (hclose : u - t < apart) : offset u = offset t := by
  by_contra hne
  obtain ⟨s, hts, hsu, hs⟩ := exists_change hu (Ne.symm hne)
  have := h t s hts ht hs
  omega

theorem eq_or_eq_of_le {a b c : Int} (h : Isolated offset apart) (hab : a ≤ b) (hbc : b ≤ c)
    (hclose : c - a < apart) : offset a = offset b ∨ offset b = offset c := by
  by_contra hne
  rw [not_or] at hne
  obtain ⟨s, has, hsb, hs⟩ := exists_change hab hne.1
  obtain ⟨t, hbt, htc, ht⟩ := exists_change hbc hne.2
  have := h s t (by omega) hs ht
  omega

/-- Of three times in a short window two have the same offset. -/
theorem two_values {a b c l : Int} (h : Isolated offset apart) (ha : l ≤ a ∧ a < l + apart)
    (hb : l ≤ b ∧ b < l + apart) (hc : l ≤ c ∧ c < l + apart) :
    offset a = offset b ∨ offset b = offset c ∨ offset a = offset c := by
  rcases Int.le_total a b with hab | hba
  · rcases Int.le_total b c with hbc | hcb
    · have := eq_or_eq_of_le h hab hbc (by omega)
      omega
    · rcases Int.le_total a c with hac | hca
      · have := eq_or_eq_of_le h hac hcb (by omega)
        omega
      · have := eq_or_eq_of_le h hca hab (by omega)
        omega
  · rcases Int.le_total a c with hac | hca
    · have := eq_or_eq_of_le h hba hac (by omega)
      omega
    · rcases Int.le_total b c with hbc | hcb
      · have := eq_or_eq_of_le h hbc hca (by omega)
        omega
      · have := eq_or_eq_of_le h hcb hba (by omega)
        omega

/-- Between two times of which only the first satisfies `P` there is a last one that does. -/
theorem exists_last {P : Int → Prop} {a b : Int} (hab : a ≤ b) (ha : P a) (hb : ¬ P b) :
    ∃ s, a < s ∧ s ≤ b ∧ P (s - 1) ∧ ¬ P s := by
  obtain ⟨n, rfl⟩ : ∃ n : Nat, b = a + n := ⟨(b - a).toNat, by omega⟩
  induction n with
  | zero => simp [ha] at hb
  | succ n ih =>
    by_cases hlast : P (a + n)
    · refine ⟨a + (n + 1 : Nat), by omega, Int.le_refl _, ?_, hb⟩
      have hpred : a + (n + 1 : Nat) - 1 = a + n := by omega
      rwa [hpred]
    · obtain ⟨s, has, hsb, hs, hs'⟩ := ih (by omega) hlast
      exact ⟨s, has, by omega, hs, hs'⟩

/-- A clock that falls from `wall` or later to before it shows `wall` on both sides of the
change. -/
theorem shown_twice {bound s wall : Int} (h : Isolated offset apart)
    (hbound : ∀ t, -bound ≤ offset t ∧ offset t ≤ bound) (hapart : 2 * bound < apart)
    (hbefore : wall ≤ s - 1 + offset (s - 1)) (hafter : s + offset s ≤ wall) :
    (∃ v, v < s ∧ v + offset v = wall) ∧ ∃ v, s ≤ v ∧ v + offset v = wall := by
  have hlow := hbound s
  have hhigh := hbound (s - 1)
  have hchange : ChangesAt offset s := by
    unfold ChangesAt
    omega
  constructor
  · have hsame : offset (wall - offset (s - 1)) = offset (s - 1) :=
      eq_before_change h hchange (by omega) (by omega)
    exact ⟨wall - offset (s - 1), by omega, by omega⟩
  · have hsame : offset (wall - offset s) = offset s :=
      eq_after_change h hchange (by omega) (by omega)
    exact ⟨wall - offset s, by omega, by omega⟩

/-- A time of the clock that is shown once is not shown, nor passed, before, and is passed ever
after. -/
theorem le_iff_of_shown_once {bound u wall : Int} (h : Isolated offset apart)
    (hbound : ∀ t, -bound ≤ offset t ∧ offset t ≤ bound) (hapart : 2 * bound < apart)
    (hu : u + offset u = wall) (hunique : ∀ v, v + offset v = wall → v = u) (t : Int) :
    wall ≤ t + offset t ↔ u ≤ t := by
  constructor
  · intro hwall
    by_contra hlt
    by_cases hprev : wall ≤ u - 1 + offset (u - 1)
    · obtain ⟨⟨v, hvu, hv⟩, _⟩ := shown_twice h hbound hapart hprev (Int.le_of_eq hu)
      have := hunique v hv
      omega
    · obtain ⟨s, hts, hsu, hs, hs'⟩ := exists_last (P := fun t => wall ≤ t + offset t)
        (show t ≤ u - 1 by omega) hwall hprev
      obtain ⟨⟨v, hvs, hv⟩, _⟩ := shown_twice h hbound hapart hs (by omega)
      have := hunique v hv
      omega
  · intro hut
    by_contra hwall
    obtain ⟨s, hus, hst, hs, hs'⟩ := exists_last (P := fun t => wall ≤ t + offset t) hut
      (Int.le_of_eq hu.symm) hwall
    obtain ⟨_, v, hsv, hv⟩ := shown_twice h hbound hapart hs (by omega)
    have := hunique v hv
    omega

end NestStarter.Core.Offsets
