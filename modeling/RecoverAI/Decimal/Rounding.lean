import Mathlib.Data.Rat.Floor
import Mathlib.Tactic.FieldSimp
import Mathlib.Tactic.Linarith
import Mathlib.Tactic.Positivity

/-!
# Rounding to the nearest

The two modes in which a quotient is rounded, on natural numbers as a program computes them and on
rationals as they are specified, and when rounding twice is the same as rounding once.
-/
namespace RecoverAI

/-- What becomes of a tie; `halfUp` is meant for magnitudes. -/
inductive Rounding where
  | halfEven | halfUp
deriving DecidableEq

namespace Rounding

/-- Whether a quotient `q` with remainder `r` is rounded up, for the divisor `p`. -/
def roundsUp (mode : Rounding) (q r p : Nat) : Bool :=
  match mode with
  | halfEven => p < 2 * r || (2 * r = p && q % 2 = 1)
  | halfUp => p ≤ 2 * r

/-- `c / p`, rounded. -/
def divide (mode : Rounding) (c p : Nat) : Nat :=
  if mode.roundsUp (c / p) (c % p) p then c / p + 1 else c / p

/-- The nearest integer. -/
def nearest (mode : Rounding) (x : ℚ) : ℤ :=
  match mode with
  | halfEven =>
    if Int.fract x < 1 / 2 then ⌊x⌋ else if 1 / 2 < Int.fract x then ⌊x⌋ + 1
    else if ⌊x⌋ % 2 = 1 then ⌊x⌋ + 1 else ⌊x⌋
  | halfUp => ⌊x + 1 / 2⌋

variable {mode : Rounding} {x y u : ℚ} {n : ℤ}

theorem halfUp_eq_iff : halfUp.nearest x = n ↔ n - 1 / 2 ≤ x ∧ x < n + 1 / 2 := by
  rw [nearest, Int.floor_eq_iff]
  constructor <;> rintro ⟨_, _⟩ <;> constructor <;> linarith

theorem eq_of_near {k n : ℤ} (below : (n : ℚ) < k + 1) (above : (k : ℚ) < n + 1) : k = n := by
  have below : n < k + 1 := by exact_mod_cast below
  have above : k < n + 1 := by exact_mod_cast above
  omega

theorem halfEven_eq_iff : halfEven.nearest x = n ↔
    (n - 1 / 2 < x ∧ x < n + 1 / 2) ∨ n % 2 = 0 ∧ (x = n - 1 / 2 ∨ x = n + 1 / 2) := by
  have split := Int.floor_add_fract x
  have small := Int.fract_lt_one x
  have nonneg := Int.fract_nonneg x
  rw [nearest]
  generalize Int.fract x = f at *
  generalize ⌊x⌋ = k at *
  subst split
  -- No integer is nearest to a midpoint alone.
  have between : (n : ℚ) - 1 / 2 < k + 1 / 2 → ¬ ((k : ℚ) + 1 / 2 < n + 1 / 2) := by
    intro lo hi
    have lo : n < k + 1 := by exact_mod_cast (by linarith : (n : ℚ) < k + 1)
    have hi : k < n := by exact_mod_cast (by linarith : (k : ℚ) < n)
    omega
  split_ifs with down up odd
  · constructor
    · rintro rfl
      exact .inl ⟨by linarith, by linarith⟩
    · rintro (⟨lo, hi⟩ | ⟨-, eq | eq⟩) <;> refine eq_of_near ?_ ?_ <;> linarith
  · constructor
    · rintro rfl
      push_cast
      exact .inl ⟨by linarith, by linarith⟩
    · rintro (⟨lo, hi⟩ | ⟨-, eq | eq⟩) <;> refine eq_of_near ?_ ?_ <;> push_cast <;> linarith
  · have tie : f = 1 / 2 := by linarith
    constructor
    · rintro rfl
      push_cast
      exact .inr ⟨by omega, .inl (by linarith)⟩
    · rintro (⟨lo, hi⟩ | ⟨even, eq | eq⟩)
      · exact absurd (by linarith) (between (by linarith))
      · refine eq_of_near ?_ ?_ <;> push_cast <;> linarith
      · have : k = n := eq_of_near (by linarith) (by linarith)
        omega
  · have tie : f = 1 / 2 := by linarith
    constructor
    · rintro rfl
      exact .inr ⟨by omega, .inr (by linarith)⟩
    · rintro (⟨lo, hi⟩ | ⟨even, eq | eq⟩)
      · exact absurd (by linarith) (between (by linarith))
      · have : k + 1 = n := eq_of_near (by push_cast; linarith) (by push_cast; linarith)
        omega
      · refine eq_of_near ?_ ?_ <;> linarith

theorem nearest_bounds (mode : Rounding) (x : ℚ) :
    x - 1 / 2 ≤ mode.nearest x ∧ mode.nearest x ≤ x + 1 / 2 := by
  cases mode with
  | halfUp =>
    obtain ⟨lo, hi⟩ := halfUp_eq_iff.1 (rfl : halfUp.nearest x = _)
    constructor <;> linarith
  | halfEven =>
    rcases halfEven_eq_iff.1 (rfl : halfEven.nearest x = _) with ⟨lo, hi⟩ | ⟨-, eq | eq⟩ <;>
      constructor <;> linarith

theorem nearest_mono (mode : Rounding) (h : x ≤ y) : mode.nearest x ≤ mode.nearest y := by
  by_contra above
  have above : (mode.nearest y : ℚ) + 1 ≤ mode.nearest x := by
    exact_mod_cast (by omega : mode.nearest y + 1 ≤ mode.nearest x)
  obtain rfl : x = y :=
    le_antisymm h (by linarith [(nearest_bounds mode x).2, (nearest_bounds mode y).1])
  linarith

@[simp] theorem nearest_intCast (mode : Rounding) (n : ℤ) : mode.nearest n = n := by
  cases mode with
  | halfUp => exact halfUp_eq_iff.2 ⟨by linarith, by linarith⟩
  | halfEven => exact halfEven_eq_iff.2 (.inl ⟨by linarith, by linarith⟩)

@[simp] theorem nearest_natCast (mode : Rounding) (n : ℕ) : mode.nearest n = n := by
  rw [← Int.cast_natCast, nearest_intCast]

theorem nearest_nonneg (mode : Rounding) (h : 0 ≤ x) : 0 ≤ mode.nearest x := by
  rw [← nearest_intCast mode 0]
  exact nearest_mono mode (by simpa using h)

theorem divide_eq_nearest (mode : Rounding) (c : Nat) {p : Nat} (positive : 0 < p) :
    (mode.divide c p : ℤ) = mode.nearest ((c : ℚ) / p) := by
  have hp : (0 : ℚ) < p := by exact_mod_cast positive
  have small := Nat.mod_lt c positive
  have split : (c : ℚ) = p * (c / p : Nat) + (c % p : Nat) := by
    exact_mod_cast (Nat.div_add_mod c p).symm
  rw [divide]
  generalize c / p = q at *
  generalize c % p = r at *
  have small' : (r : ℚ) < p := by exact_mod_cast small
  have nonneg : (0 : ℚ) ≤ r := r.cast_nonneg
  rw [split]
  symm
  cases mode with
  | halfUp =>
    rw [halfUp_eq_iff, le_div_iff₀ hp, div_lt_iff₀ hp]
    by_cases up : p ≤ 2 * r
    · have up' : (p : ℚ) ≤ 2 * r := by exact_mod_cast up
      rw [if_pos (by simpa [roundsUp] using up)]
      push_cast
      constructor <;> linarith
    · have up' : (2 * r : ℚ) < p := by exact_mod_cast (by omega : 2 * r < p)
      rw [if_neg (by simpa [roundsUp] using up)]
      push_cast
      constructor <;> linarith
  | halfEven =>
    rw [halfEven_eq_iff, lt_div_iff₀ hp, div_lt_iff₀ hp, div_eq_iff hp.ne', div_eq_iff hp.ne']
    rcases lt_trichotomy (2 * r) p with down | tie | up
    · have down' : (2 * r : ℚ) < p := by exact_mod_cast down
      rw [if_neg (by simp [roundsUp]; omega)]
      push_cast
      exact .inl ⟨by linarith, by linarith⟩
    · have tie' : (2 * r : ℚ) = p := by exact_mod_cast tie
      by_cases odd : q % 2 = 1
      · rw [if_pos (by simp [roundsUp, tie, odd])]
        push_cast
        exact .inr ⟨by omega, .inl (by linarith)⟩
      · rw [if_neg (by simp [roundsUp, tie, odd])]
        push_cast
        exact .inr ⟨by omega, .inr (by linarith)⟩
    · have up' : (p : ℚ) < 2 * r := by exact_mod_cast up
      rw [if_pos (by simp [roundsUp, up])]
      push_cast
      exact .inl ⟨by linarith, by linarith⟩

/-! ## Rounding twice -/

theorem halfEven_eq_halfUp_iff :
    halfEven.nearest y = halfUp.nearest y ↔ ¬ ∃ m : ℤ, y = m + 1 / 2 ∧ m % 2 = 0 := by
  rw [eq_comm, halfUp_eq_iff]
  have even := halfEven_eq_iff.1 (rfl : halfEven.nearest y = _)
  generalize halfEven.nearest y = n at even ⊢
  constructor
  · rintro ⟨lo, hi⟩ ⟨m, rfl, parity⟩
    have near : n = m + 1 := eq_of_near (by push_cast; linarith) (by push_cast; linarith)
    rcases even with ⟨lo', -⟩ | ⟨parity', -⟩
    · rw [near] at lo'
      push_cast at lo'
      linarith
    · omega
  · intro free
    rcases even with ⟨lo, hi⟩ | ⟨parity, eq | eq⟩
    · exact ⟨lo.le, hi⟩
    · exact ⟨eq.ge, by linarith⟩
    · exact absurd ⟨n, eq, parity⟩ free

/-- Rounding to multiples of `u` lifts `y` to a midpoint between integers. -/
def Lifts (u y : ℚ) : Prop :=
  ∃ m h : ℤ, (m : ℚ) + 1 / 2 = u * h ∧ y < m + 1 / 2 ∧
    (m + 1 / 2 - u / 2 < y ∨ y = m + 1 / 2 - u / 2 ∧ h % 2 = 0)

/-- Where all midpoints are multiples of `u`, only such a lift makes rounding twice differ. -/
theorem halfUp_halfEven_iff (positive : 0 < u)
    (midpoints : ∀ m : ℤ, ∃ h : ℤ, (m : ℚ) + 1 / 2 = u * h) :
    halfUp.nearest (u * halfEven.nearest (y / u)) = halfUp.nearest y ↔ ¬ Lifts u y := by
  constructor
  · rintro same ⟨m, h, midpoint, below, close⟩
    have lifted : halfEven.nearest (y / u) = h := by
      rw [halfEven_eq_iff, lt_div_iff₀ positive, div_lt_iff₀ positive, div_eq_iff positive.ne',
        div_eq_iff positive.ne']
      rcases close with close | ⟨tie, even⟩
      · exact .inl ⟨by linarith, by linarith⟩
      · exact .inr ⟨even, .inl (by linarith)⟩
    rw [lifted, ← midpoint, halfUp_eq_iff] at same
    have least := (halfUp_eq_iff.1 (rfl : halfUp.nearest y = _)).1
    have above : m < halfUp.nearest y := by
      exact_mod_cast (by linarith [same.2] : (m : ℚ) < halfUp.nearest y)
    have above : (m : ℚ) + 1 ≤ halfUp.nearest y := by exact_mod_cast above
    linarith
  · intro kept
    obtain ⟨lo, hi⟩ := halfUp_eq_iff.1 (rfl : halfUp.nearest y = _)
    generalize halfUp.nearest y = n at *
    obtain ⟨h, hh⟩ := midpoints n
    obtain ⟨h', hh'⟩ := midpoints (n - 1)
    push_cast at hh'
    rw [halfUp_eq_iff]
    have first : h' ≤ halfEven.nearest (y / u) := by
      rw [← nearest_intCast halfEven h']
      exact nearest_mono _ (by rw [le_div_iff₀ positive]; linarith)
    have last : halfEven.nearest (y / u) ≤ h := by
      rw [← nearest_intCast halfEven h]
      exact nearest_mono _ (by rw [div_le_iff₀ positive]; linarith)
    have other : halfEven.nearest (y / u) ≠ h := by
      intro lifted
      refine kept ⟨n, h, hh, hi, ?_⟩
      rw [halfEven_eq_iff, lt_div_iff₀ positive, div_lt_iff₀ positive, div_eq_iff positive.ne',
        div_eq_iff positive.ne'] at lifted
      rcases lifted with ⟨close, -⟩ | ⟨even, tie | tie⟩
      · exact .inl (by linarith)
      · exact .inr ⟨by linarith, even⟩
      · linarith
    generalize halfEven.nearest (y / u) = k at *
    have first : u * h' ≤ u * k := mul_le_mul_of_nonneg_left (by exact_mod_cast first) positive.le
    have last : u * k < u * h :=
      mul_lt_mul_of_pos_left (by exact_mod_cast lt_of_le_of_ne last other) positive
    constructor <;> linarith

end Rounding

end RecoverAI
