import RecoverAI.Decimal.Rounding
import Mathlib.Data.Int.Log

/-!
# Rounding to digits and then to an integer

A number is rounded half to even to `p + 1` digits, of which none is below `10 ^ t`, and the
result half up to an integer. The integer is the nearest one unless the number is on a
midpoint, or is lifted to one.
-/
namespace RecoverAI.Rounding

/-- The unit of the last digit that is kept. -/
def unit (p : ℕ) (t : ℤ) (y : ℚ) : ℚ := 10 ^ max (Int.log 10 y - p) t

/-- The number with the digits that are kept. -/
def kept (p : ℕ) (t : ℤ) (y : ℚ) : ℚ := unit p t y * halfEven.nearest (y / unit p t y)

/-- On a midpoint between an even integer and the next, where all digits before the point are kept
but none behind it; or less than half a unit below a midpoint. -/
def Misrounded (p : ℕ) (y : ℚ) : Prop :=
  ∃ n : ℕ, if 10 ^ p ≤ y then y = n + 1 / 2 ∧ n % 2 = 0
    else y < n + 1 / 2 ∧ (n + 1 / 2 - 10 ^ (Int.log 10 y - p) / 2 < y ∨
      y = n + 1 / 2 - 10 ^ (Int.log 10 y - p) / 2 ∧ Int.log 10 y + 2 ≤ p)

variable {p : ℕ} {t : ℤ} {u y : ℚ}

theorem unit_pos : 0 < unit p t y := zpow_pos (by norm_num) _

theorem log_lt {z : ℤ} (positive : 0 < y) (h : y < 10 ^ z) : Int.log 10 y < z :=
  (Int.lt_zpow_iff_log_lt (by norm_num) positive).1 (by exact_mod_cast h)

theorem le_log {z : ℤ} (h : 10 ^ z ≤ y) : z ≤ Int.log 10 y :=
  (Int.zpow_le_iff_le_log (by norm_num) (lt_of_lt_of_le (zpow_pos (by norm_num) z) h)).1
    (by exact_mod_cast h)

/-- Only an integer is left of a number with all its digits before the point. -/
theorem unit_eq_one (ht : t ≤ 0) (large : 10 ^ p ≤ y) (small : y < 10 ^ (p + 1)) :
    unit p t y = 1 := by
  have positive : 0 < y := lt_of_lt_of_le (by positivity) large
  have above : (p : ℤ) ≤ Int.log 10 y := le_log (by exact_mod_cast large)
  have below : Int.log 10 y < ((p + 1 : ℕ) : ℤ) := log_lt positive (by exact_mod_cast small)
  rw [unit, max_eq_left (by omega), show Int.log 10 y - p = 0 by omega, zpow_zero]

theorem unit_eq_pow (ht : t < 0) (positive : 0 < y) (small : y < 10 ^ p) :
    ∃ k : ℕ, unit p t y = (10 ^ (k + 1))⁻¹ ∧ max (Int.log 10 y - p) t = -(k + 1) := by
  have below : Int.log 10 y < p := log_lt positive (by exact_mod_cast small)
  have low : max (Int.log 10 y - p) t ≤ -1 := max_le (by omega) (by omega)
  obtain ⟨k, hk⟩ : ∃ k : ℕ, max (Int.log 10 y - p) t = -(k + 1) :=
    ⟨(-max (Int.log 10 y - p) t).toNat - 1, by omega⟩
  refine ⟨k, ?_, hk⟩
  rw [unit, hk, zpow_neg]
  exact_mod_cast rfl

theorem zpow_le_tenth {z : ℤ} (h : z ≤ -1) : (10 : ℚ) ^ z ≤ 1 / 10 :=
  (zpow_le_zpow_right₀ (by norm_num) h).trans_eq (by norm_num)

theorem inv_pow_le (k : ℕ) : ((10 : ℚ) ^ (k + 1))⁻¹ ≤ 1 / 10 := by
  rw [← zpow_natCast, ← zpow_neg]
  exact zpow_le_tenth (by omega)

theorem kept_bounds : y - unit p t y / 2 ≤ kept p t y ∧ kept p t y ≤ y + unit p t y / 2 := by
  have positive := unit_pos (p := p) (t := t) (y := y)
  obtain ⟨lo, hi⟩ := nearest_bounds halfEven (y / unit p t y)
  rw [kept]
  generalize unit p t y = u at *
  constructor
  · calc y - u / 2 = u * (y / u - 1 / 2) := by field_simp
      _ ≤ _ := mul_le_mul_of_nonneg_left lo positive.le
  · calc u * (halfEven.nearest (y / u) : ℚ) ≤ u * (y / u + 1 / 2) :=
      mul_le_mul_of_nonneg_left hi positive.le
      _ = y + u / 2 := by field_simp

@[simp] theorem kept_zero : kept p t 0 = 0 := by
  rw [kept, zero_div, ← Int.cast_zero, nearest_intCast, Int.cast_zero, mul_zero]

theorem kept_nonneg (h : 0 ≤ y) : 0 ≤ kept p t y :=
  mul_nonneg unit_pos.le (by exact_mod_cast nearest_nonneg halfEven (div_nonneg h unit_pos.le))

theorem one_le_pow (p : ℕ) : (1 : ℚ) ≤ 10 ^ p := one_le_pow₀ (by norm_num)

/-- Which numbers have at most `p + 1` digits before the point when they are rounded. -/
theorem kept_lt_iff (ht : t < 0) (nonneg : 0 ≤ y) :
    kept p t y < 10 ^ (p + 1) ↔ y < 10 ^ (p + 1) - 1 / 2 := by
  have one := one_le_pow p
  have next : (10 : ℚ) ^ (p + 1) = 10 * 10 ^ p := pow_succ' _ _
  rcases nonneg.eq_or_lt with rfl | positive
  · rw [kept_zero]
    constructor <;> intro <;> linarith
  rcases lt_or_ge y (10 ^ p) with small | large
  · obtain ⟨k, unit_eq, -⟩ := unit_eq_pow ht positive small
    have bounds := kept_bounds (p := p) (t := t) (y := y)
    have le := inv_pow_le k
    rw [unit_eq] at bounds
    constructor <;> intro <;> linarith
  rcases lt_or_ge y (10 ^ (p + 1)) with small | huge
  · have bounds := nearest_bounds halfEven y
    rw [kept, unit_eq_one ht.le large small, div_one, one_mul]
    constructor
    · intro fits
      by_contra tie
      have above := nearest_mono halfEven (not_lt.1 tie)
      have carry : halfEven.nearest (10 ^ (p + 1) - 1 / 2) = 10 ^ (p + 1) :=
        halfEven_eq_iff.2 (.inr ⟨by rw [pow_succ]; omega, .inl (by push_cast; rfl)⟩)
      rw [carry] at above
      have : ((10 ^ (p + 1) : ℤ) : ℚ) ≤ halfEven.nearest y := by exact_mod_cast above
      push_cast at this
      linarith
    · intro fits
      linarith
  · have log : ((p + 1 : ℕ) : ℤ) ≤ Int.log 10 y := le_log (by exact_mod_cast huge)
    have least : (10 : ℚ) ^ Int.log 10 y ≤ y := by
      exact_mod_cast Int.zpow_log_le_self (b := 10) (by norm_num) positive
    have unit_eq : unit p t y = 10 ^ (Int.log 10 y - p) := by rw [unit, max_eq_left (by omega)]
    have split : (10 : ℚ) ^ Int.log 10 y = unit p t y * ((10 ^ p : ℕ) : ℤ) := by
      rw [unit_eq, zpow_sub₀ (by norm_num), zpow_natCast]
      push_cast
      field_simp
    have digits : ((10 ^ p : ℕ) : ℤ) ≤ halfEven.nearest (y / unit p t y) := by
      rw [← nearest_intCast halfEven ((10 ^ p : ℕ) : ℤ)]
      exact nearest_mono _ (by rw [le_div_iff₀ unit_pos, mul_comm]; linarith)
    have above : (10 : ℚ) ^ (p + 1) ≤ kept p t y := by
      calc (10 : ℚ) ^ (p + 1) = 10 ^ ((p + 1 : ℕ) : ℤ) := (zpow_natCast _ _).symm
        _ ≤ 10 ^ Int.log 10 y := zpow_le_zpow_right₀ (by norm_num) log
        _ = unit p t y * ((10 ^ p : ℕ) : ℤ) := split
        _ ≤ kept p t y := mul_le_mul_of_nonneg_left (by exact_mod_cast digits) unit_pos.le
    constructor <;> intro <;> linarith

theorem midpoint_eq (m : ℤ) (k : ℕ) :
    (m : ℚ) + 1 / 2 = (10 ^ (k + 1))⁻¹ * ((10 * m + 5) * 10 ^ k : ℤ) := by
  push_cast
  rw [pow_succ]
  field_simp
  ring

theorem midpoint_even (m : ℤ) (k : ℕ) : (10 * m + 5) * 10 ^ k % 2 = 0 ↔ 0 < k := by
  cases k with
  | zero => rw [pow_zero]; omega
  | succ k =>
    refine iff_of_true (Int.emod_eq_zero_of_dvd ?_) k.succ_pos
    exact Dvd.dvd.mul_left (dvd_pow (by decide) k.succ_ne_zero) _

theorem lifts_pow_iff (k : ℕ) : Lifts (10 ^ (k + 1))⁻¹ y ↔ ∃ m : ℤ, y < m + 1 / 2 ∧
    (m + 1 / 2 - (10 ^ (k + 1))⁻¹ / 2 < y ∨ y = m + 1 / 2 - (10 ^ (k + 1))⁻¹ / 2 ∧ 0 < k) := by
  constructor
  · rintro ⟨m, h, midpoint, below, close⟩
    refine ⟨m, below, close.imp_right fun ⟨tie, even⟩ => ⟨tie, ?_⟩⟩
    have same : (h : ℚ) = ((10 * m + 5) * 10 ^ k : ℤ) :=
      mul_left_cancel₀ (by positivity) (midpoint.symm.trans (midpoint_eq m k))
    rw [← midpoint_even m k, ← (by exact_mod_cast same : h = (10 * m + 5) * 10 ^ k)]
    exact even
  · rintro ⟨m, below, close⟩
    exact ⟨m, _, midpoint_eq m k, below,
      close.imp_right fun ⟨tie, several⟩ => ⟨tie, (midpoint_even m k).2 several⟩⟩

/-- A small number is not near a midpoint. -/
theorem far (hu : u ≤ 1 / 10) (positive : 0 < y) (small : y < 1 / 10) (m : ℤ)
    (below : y < m + 1 / 2) : y < m + 1 / 2 - u / 2 := by
  have nonneg : -1 < m := by exact_mod_cast (by linarith : (-1 : ℚ) < m)
  have nonneg : (0 : ℚ) ≤ m := by exact_mod_cast (by omega : 0 ≤ m)
  linarith

theorem lifts_unit_iff (ht : t + p + 2 ≤ 0) (positive : 0 < y) (small : y < 10 ^ p) :
    Lifts (unit p t y) y ↔ Misrounded p y := by
  obtain ⟨k, unit_eq, exponent⟩ := unit_eq_pow (t := t) (by omega) positive small
  have le := inv_pow_le k
  rw [unit_eq, lifts_pow_iff, Misrounded]
  simp only [if_neg small.not_ge]
  rcases lt_or_ge (Int.log 10 y - p) t with tiny | normal
  · have bound : y < 1 / 10 := by
      calc
        y < 10 ^ (Int.log 10 y + 1) := by
          exact_mod_cast Int.lt_zpow_succ_log_self (b := 10) (by norm_num) y
        _ ≤ 1 / 10 := zpow_le_tenth (by omega)
    have smaller : (10 : ℚ) ^ (Int.log 10 y - p) ≤ 1 / 10 := zpow_le_tenth (by omega)
    constructor
    · rintro ⟨m, below, close⟩
      have := far le positive bound m below
      rcases close with close | ⟨close, -⟩ <;> linarith
    · rintro ⟨n, below, close⟩
      have := far smaller positive bound n (by exact_mod_cast below)
      push_cast at this
      rcases close with close | ⟨close, -⟩ <;> linarith
  · rw [max_eq_left normal] at exponent
    have same : (10 : ℚ) ^ (Int.log 10 y - p) = (10 ^ (k + 1))⁻¹ := by
      rw [exponent, zpow_neg]
      exact_mod_cast rfl
    have several : 0 < k ↔ Int.log 10 y + 2 ≤ p := by omega
    rw [same, several]
    constructor
    · rintro ⟨m, below, close⟩
      have nonneg : -1 < m := by exact_mod_cast (by linarith : (-1 : ℚ) < m)
      lift m to ℕ using (by omega)
      exact ⟨m, by exact_mod_cast below, by exact_mod_cast close⟩
    · rintro ⟨n, below, close⟩
      exact ⟨n, by exact_mod_cast below, by exact_mod_cast close⟩

/-- When both roundings give the nearest integer. -/
theorem halfUp_kept_iff (ht : t + p + 2 ≤ 0) (positive : 0 < y) (small : y < 10 ^ (p + 1)) :
    halfUp.nearest (kept p t y) = halfUp.nearest y ↔ ¬ Misrounded p y := by
  rcases lt_or_ge y (10 ^ p) with short | large
  · obtain ⟨k, unit_eq, -⟩ := unit_eq_pow (t := t) (by omega) positive short
    rw [← lifts_unit_iff ht positive short, kept]
    refine halfUp_halfEven_iff unit_pos fun m => ⟨(10 * m + 5) * 10 ^ k, ?_⟩
    rw [unit_eq]
    exact midpoint_eq m k
  · rw [kept, unit_eq_one (by omega) large small, div_one, one_mul, nearest_intCast,
      halfEven_eq_halfUp_iff, Misrounded]
    simp only [if_pos large]
    refine not_congr ⟨?_, ?_⟩
    · rintro ⟨m, tie, even⟩
      have nonneg : -1 < m := by exact_mod_cast (by linarith : (-1 : ℚ) < m)
      lift m to ℕ using (by omega)
      exact ⟨m, by exact_mod_cast tie, by exact_mod_cast even⟩
    · rintro ⟨n, tie, even⟩
      exact ⟨n, by exact_mod_cast tie, by exact_mod_cast even⟩

theorem not_misrounded_zero (p : ℕ) : ¬ Misrounded p 0 := by
  have one := one_le_pow p
  rintro ⟨n, h⟩
  rw [if_neg (by linarith), Int.log_zero_right, zero_sub, zpow_neg, zpow_natCast] at h
  have small : ((10 : ℚ) ^ p)⁻¹ ≤ 1 := inv_le_one_of_one_le₀ one
  have nonneg : (0 : ℚ) ≤ n := n.cast_nonneg
  obtain ⟨-, close | ⟨close, digits⟩⟩ := h
  · linarith
  · obtain ⟨k, rfl⟩ : ∃ k, p = k + 1 := ⟨p - 1, by omega⟩
    linarith [inv_pow_le k]

/-- An integer is not misrounded. -/
theorem not_misrounded_natCast (p n : ℕ) : ¬ Misrounded p n := by
  rcases n.eq_zero_or_pos with rfl | positive
  · rw [Nat.cast_zero]
    exact not_misrounded_zero p
  rintro ⟨m, h⟩
  split at h
  next =>
    have twice : (2 * n : ℚ) = 2 * m + 1 := by linarith [h.1]
    have twice : 2 * n = 2 * m + 1 := by exact_mod_cast twice
    omega
  next small =>
    have positive : (0 : ℚ) < n := by exact_mod_cast positive
    have log : Int.log 10 (n : ℚ) < p := log_lt positive (by exact_mod_cast not_le.1 small)
    have unit_le : (10 : ℚ) ^ (Int.log 10 (n : ℚ) - p) ≤ 1 / 10 := zpow_le_tenth (by omega)
    obtain ⟨below, close⟩ := h
    have le : n < m + 1 := by exact_mod_cast (by linarith : (n : ℚ) < m + 1)
    have ge : m < n := by
      have : (m : ℚ) < n := by rcases close with close | ⟨close, -⟩ <;> linarith
      exact_mod_cast this
    omega

end RecoverAI.Rounding
