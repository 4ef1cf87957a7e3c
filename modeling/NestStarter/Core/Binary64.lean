import Mathlib.Algebra.Ring.Nat
import Mathlib.Data.Nat.Log

/-! # Doubles

The double nearest to a ratio that is not negative. A double is a multiple of the least positive
one, so a natural number stands for it.
-/

namespace NestStarter.Core.Binary64

/-- The least positive double is `2 ^ -1074`. -/
def leastExponent : Nat := 1074

/-- The finite doubles are below `2 ^ 1024`. -/
def infiniteExponent : Nat := 1024

/-- `n / d` to the nearest integer, half-way to the even one. -/
def roundHalfEven (n d : Nat) : Nat :=
  match compare (2 * (n % d)) d with
  | .lt => n / d
  | .eq => n / d + n / d % 2
  | .gt => n / d + 1

/-- The double nearest to `n / d`, in units of the least positive one. It has 53 bits at most. -/
def nearest (n d : Nat) : Nat :=
  let ulp := 2 ^ (Nat.log2 (n * 2 ^ leastExponent / d) - 52)
  roundHalfEven (n * 2 ^ leastExponent) (d * ulp) * ulp

theorem roundHalfEven_of_dvd {n d : Nat} (hd : 0 < d) (h : d ∣ n) :
    roundHalfEven n d = n / d := by
  have hlt : compare (2 * (n % d)) d = .lt := by
    rw [Nat.mod_eq_zero_of_dvd h]
    exact Nat.compare_eq_lt.2 hd
  rw [roundHalfEven, hlt]

theorem log2_shift_sub_le {n e : Nat} (h : n < 2 ^ 53) : Nat.log2 (n * 2 ^ e) - 52 ≤ e := by
  rcases Nat.eq_zero_or_pos n with rfl | hn
  · simp
  · have hne : n * 2 ^ e ≠ 0 := Nat.mul_ne_zero hn.ne' (Nat.two_pow_pos e).ne'
    have hlog : Nat.log2 (n * 2 ^ e) < 53 + e := by
      rw [Nat.log2_lt hne, Nat.pow_add]
      exact Nat.mul_lt_mul_of_pos_right h (Nat.two_pow_pos e)
    omega

theorem nearest_of_lt {n : Nat} (h : n < 2 ^ 53) : nearest n 1 = n * 2 ^ leastExponent := by
  have hdvd : 2 ^ (Nat.log2 (n * 2 ^ leastExponent) - 52) ∣ n * 2 ^ leastExponent :=
    Nat.dvd_mul_left_of_dvd (Nat.pow_dvd_pow 2 (log2_shift_sub_le h)) n
  rw [nearest, Nat.div_one, Nat.one_mul, roundHalfEven_of_dvd (Nat.two_pow_pos _) hdvd,
    Nat.div_mul_cancel hdvd]

example : nearest (2 ^ 53 + 1) 1 = nearest (2 ^ 53) 1 := by decide +kernel

end NestStarter.Core.Binary64
