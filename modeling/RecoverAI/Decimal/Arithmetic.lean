import RecoverAI.Decimal.Rounding
import Mathlib.Data.Int.Log

/-!
# Decimal arithmetic

Finite decimals, and the operations of a context: the exact result is brought into the range and the
precision of the context, and a trapped condition is an error. The results are specified by the
nearest multiple of the last digit that is kept.
-/
namespace RecoverAI

/-- `± coeff * 10 ^ exp`. -/
structure Dec where
  negative : Bool
  coeff : Nat
  exp : Int
deriving DecidableEq

/-- The conditions that raise. -/
inductive Signal where
  | invalidOperation | divisionByZero | overflow
deriving DecidableEq

structure DecimalContext where
  prec : Nat
  emin : Int
  emax : Int

namespace DecimalContext

/-- The context of a thread that sets none. -/
def default : DecimalContext := ⟨28, -999999, 999999⟩

/-- The exponent of the smallest subnormal number. -/
def etiny (ctx : DecimalContext) : Int := ctx.emin - ctx.prec + 1

end DecimalContext

def numDigits (n : Nat) : Nat := (Nat.toDigits 10 n).length

namespace Dec

/-- The exponent of the first digit. -/
def adjusted (d : Dec) : Int := d.exp + numDigits d.coeff - 1

/-- The digits from `10 ^ e` on. -/
def rescale (mode : Rounding) (d : Dec) (e : Int) : Dec :=
  { d with
    coeff := if e ≤ d.exp then d.coeff * 10 ^ (d.exp - e).toNat
      else mode.divide d.coeff (10 ^ (e - d.exp).toNat)
    exp := e }

/-- The first `prec` digits, with a carry out of the first one. -/
def round (ctx : DecimalContext) (mode : Rounding) (d : Dec) : Except Signal Dec :=
  let r := d.rescale mode (d.exp + (numDigits d.coeff - ctx.prec : Nat))
  if r.coeff = 10 ^ ctx.prec then
    let r := { r with coeff := 10 ^ (ctx.prec - 1), exp := r.exp + 1 }
    if ctx.emax < r.adjusted then .error .overflow else .ok r
  else .ok r

/-- The number with the exact coefficient as the context can hold it. -/
def finalize (ctx : DecimalContext) (mode : Rounding) (d : Dec) : Except Signal Dec :=
  if ctx.emax < d.adjusted then
    if d.coeff = 0 then .ok { d with exp := ctx.emax } else .error .overflow
  else if d.adjusted < ctx.emin ∧ d.exp < ctx.etiny then .ok (d.rescale mode ctx.etiny)
  else if ctx.prec < numDigits d.coeff then d.round ctx mode
  else .ok d

def mul (ctx : DecimalContext) (mode : Rounding) (a b : Dec) : Except Signal Dec :=
  finalize ctx mode ⟨a.negative != b.negative, a.coeff * b.coeff, a.exp + b.exp⟩

def quantize (ctx : DecimalContext) (mode : Rounding) (d : Dec) (e : Int) : Except Signal Dec :=
  if ctx.emax < e ∨ e < ctx.etiny then .error .invalidOperation
  else if d.coeff = 0 then finalize ctx mode { d with exp := e }
  else if (ctx.prec : Int) < numDigits d.coeff + (d.exp - e) then .error .invalidOperation
  else
    let r := d.rescale mode e
    if ctx.emax < r.adjusted ∨ r.adjusted < ctx.etiny then .error .invalidOperation
      else finalize ctx mode r

/-- Drop at most `k` trailing zeros; also answers how many were dropped. -/
def dropZeros : Nat → Nat → Nat × Nat
  | 0, c => (c, 0)
  | k + 1, c =>
    if c % 10 = 0 then
      let (c, zeros) := dropZeros k (c / 10)
      (c, zeros + 1)
    else (c, 0)

def div (ctx : DecimalContext) (mode : Rounding) (a b : Dec) : Except Signal Dec :=
  let negative := a.negative != b.negative
  let ideal := a.exp - b.exp
  if b.coeff = 0 then .error (if a.coeff = 0 then .invalidOperation else .divisionByZero)
  else if a.coeff = 0 then finalize ctx mode ⟨negative, 0, ideal⟩
  else
    let shift : Int := numDigits b.coeff - numDigits a.coeff + ctx.prec + 1
    let n := a.coeff * 10 ^ shift.toNat
    let m := b.coeff * 10 ^ (-shift).toNat
    if n % m = 0 then
      let (coeff, zeros) := dropZeros shift.toNat (n / m)
      finalize ctx mode ⟨negative, coeff, ideal - shift + zeros⟩
    else finalize ctx mode ⟨negative, if n / m % 5 = 0 then n / m + 1 else n / m, ideal - shift⟩

/-- Truncated, as `int(d)`. -/
def toInt (d : Dec) : Int :=
  let n := if 0 ≤ d.exp then d.coeff * 10 ^ d.exp.toNat else d.coeff / 10 ^ (-d.exp).toNat
  if d.negative then -n else n

/-- The number without its sign. -/
def magnitude (d : Dec) : ℚ := d.coeff * 10 ^ d.exp

def value (d : Dec) : ℚ := if d.negative then -d.magnitude else d.magnitude

end Dec

/-- A number of the `decimal` module. -/
inductive Decimal where
  | finite (d : Dec)
  | infinity (negative : Bool)
  | nan (negative signaling : Bool) (payload : Nat)
deriving DecidableEq

namespace Decimal

/-- What an operation makes of a number that is none; a payload is cut to the precision. -/
def quiet (ctx : DecimalContext) (negative signaling : Bool) (payload : Nat) :
    Except Signal Decimal :=
  if signaling then .error .invalidOperation
    else .ok (.nan negative false (payload % 10 ^ ctx.prec))

/-- `x < 0`. -/
def ltZero : Decimal → Except Signal Bool
  | finite d => .ok (d.negative && d.coeff ≠ 0)
  | infinity negative => .ok negative
  | nan _ _ _ => .error .invalidOperation

def mul (ctx : DecimalContext) (mode : Rounding) (x : Decimal) (d : Dec) : Except Signal Decimal :=
  match x with
  | finite a => (a.mul ctx mode d).map finite
  | infinity negative =>
    if d.coeff = 0 then .error .invalidOperation else .ok (.infinity (negative != d.negative))
  | nan negative signaling payload => quiet ctx negative signaling payload

/-- `x.quantize(Decimal((0, (1,), e)), mode)`. -/
def quantize (ctx : DecimalContext) (mode : Rounding) (x : Decimal) (e : Int) :
    Except Signal Decimal :=
  match x with
  | finite a => (a.quantize ctx mode e).map finite
  | infinity _ => .error .invalidOperation
  | nan negative signaling payload => quiet ctx negative signaling payload

end Decimal

/-! ## Digits -/

theorem numDigits_pos (n : Nat) : 0 < numDigits n := List.length_pos_iff.2 Nat.toDigits_ne_nil

theorem numDigits_le_iff {n k : Nat} (positive : 0 < k) : numDigits n ≤ k ↔ n < 10 ^ k :=
  Nat.length_toDigits_le_iff (by decide) positive

theorem lt_pow_numDigits (n : Nat) : n < 10 ^ numDigits n :=
  (numDigits_le_iff (numDigits_pos n)).1 le_rfl

theorem pow_le_of_ne_zero {n : Nat} (h : n ≠ 0) : 10 ^ (numDigits n - 1) ≤ n := by
  rcases Nat.lt_or_ge 1 (numDigits n) with several | one
  · have above := (numDigits_le_iff (n := n) (k := numDigits n - 1) (by omega)).not.1 (by omega)
    omega
  · rw [Nat.sub_eq_zero_of_le one, pow_zero]
    omega

theorem cast_pow_toNat {z : ℤ} (h : 0 ≤ z) : ((10 ^ z.toNat : Nat) : ℚ) = 10 ^ z := by
  push_cast
  rw [← zpow_natCast, Int.toNat_of_nonneg h]

theorem ten_zpow_pos (z : ℤ) : (0 : ℚ) < 10 ^ z := zpow_pos (by norm_num) z

namespace Dec

variable {d r : Dec} {ctx : DecimalContext} {mode : Rounding} {e : ℤ}

theorem magnitude_nonneg (d : Dec) : 0 ≤ d.magnitude :=
  mul_nonneg d.coeff.cast_nonneg (ten_zpow_pos _).le

theorem magnitude_lt (d : Dec) : d.magnitude < 10 ^ (d.adjusted + 1) := by
  have bound : (d.coeff : ℚ) < 10 ^ (numDigits d.coeff : ℤ) := by
    rw [zpow_natCast]
    exact_mod_cast lt_pow_numDigits d.coeff
  calc d.magnitude < 10 ^ (numDigits d.coeff : ℤ) * 10 ^ d.exp :=
    mul_lt_mul_of_pos_right bound (ten_zpow_pos _)
    _ = 10 ^ (d.adjusted + 1) := by
      rw [← zpow_add₀ (by norm_num), adjusted]
      congr 1
      omega

theorem le_magnitude (h : d.coeff ≠ 0) : 10 ^ d.adjusted ≤ d.magnitude := by
  have bound : (10 : ℚ) ^ ((numDigits d.coeff : ℤ) - 1) ≤ d.coeff := by
    have := pow_le_of_ne_zero h
    have := numDigits_pos d.coeff
    rw [show (numDigits d.coeff : ℤ) - 1 =
      ((numDigits d.coeff - 1 : Nat) : ℤ) by omega, zpow_natCast]
    exact_mod_cast pow_le_of_ne_zero h
  calc (10 : ℚ) ^ d.adjusted = 10 ^ ((numDigits d.coeff : ℤ) - 1) * 10 ^ d.exp := by
        rw [← zpow_add₀ (by norm_num), adjusted]
        congr 1
        omega
    _ ≤ d.magnitude := mul_le_mul_of_nonneg_right bound (ten_zpow_pos _).le

theorem magnitude_eq_zero (h : d.coeff = 0) : d.magnitude = 0 := by
  rw [magnitude, h, Nat.cast_zero, zero_mul]

theorem value_neg_iff : d.value < 0 ↔ d.negative = true ∧ d.coeff ≠ 0 := by
  have nonneg := magnitude_nonneg d
  rw [value]
  by_cases zero : d.coeff = 0
  · simp [zero, magnitude_eq_zero zero]
  · have positive := (ten_zpow_pos _).trans_le (le_magnitude zero)
    split
    next negative => exact ⟨fun _ => ⟨negative, zero⟩, fun _ => by linarith⟩
    next positive => exact ⟨fun below => absurd below nonneg.not_gt, fun h => absurd h.1 positive⟩

theorem value_of_nonneg (h : ¬ d.value < 0) : d.value = d.magnitude := by
  by_cases negative : d.negative = true
  · have zero : d.coeff = 0 := not_not.1 fun some => h (value_neg_iff.2 ⟨negative, some⟩)
    rw [value, magnitude_eq_zero zero, neg_zero, ite_self]
  · exact if_neg negative

theorem adjusted_eq_log (h : d.coeff ≠ 0) : d.adjusted = Int.log 10 d.magnitude := by
  have positive : 0 < d.magnitude := (ten_zpow_pos _).trans_le (le_magnitude h)
  refine le_antisymm
    ((Int.zpow_le_iff_le_log (by norm_num) positive).1 (by exact_mod_cast le_magnitude h)) ?_
  have := (Int.lt_zpow_iff_log_lt (b := 10) (by norm_num) positive).1
    (by exact_mod_cast magnitude_lt d)
  omega

@[simp] theorem rescale_negative : (d.rescale mode e).negative = d.negative := rfl

@[simp] theorem rescale_exp : (d.rescale mode e).exp = e := rfl

/-- Rescaling rounds to a multiple of `10 ^ e`. -/
theorem rescale_coeff (mode : Rounding) (d : Dec) (e : ℤ) :
    ((d.rescale mode e).coeff : ℤ) = mode.nearest (d.magnitude / 10 ^ e) := by
  rw [rescale]
  dsimp only
  split
  next le =>
    have exact_ : d.magnitude / 10 ^ e = ((d.coeff * 10 ^ (d.exp - e).toNat : Nat) : ℤ) := by
      rw [Int.cast_natCast, Nat.cast_mul, cast_pow_toNat (by omega), zpow_sub₀ (by norm_num),
        magnitude, mul_div_assoc]
    rw [exact_, Rounding.nearest_intCast]
  next gt =>
    have quotient : d.magnitude / 10 ^ e = (d.coeff : ℚ) / (10 ^ (e - d.exp).toNat : Nat) := by
      rw [cast_pow_toNat (by omega), zpow_sub₀ (by norm_num), magnitude]
      field_simp
    rw [quotient, Rounding.divide_eq_nearest _ _ (by positivity)]

theorem rescale_magnitude (mode : Rounding) (d : Dec) (e : ℤ) :
    (d.rescale mode e).magnitude = mode.nearest (d.magnitude / 10 ^ e) * 10 ^ e := by
  rw [magnitude, rescale_exp, ← rescale_coeff, Int.cast_natCast]

theorem rescale_coeff_le {k : Nat} (h : d.magnitude ≤ k * 10 ^ e) :
    (d.rescale mode e).coeff ≤ k := by
  have le := Rounding.nearest_mono mode ((div_le_iff₀ (ten_zpow_pos e)).2 h)
  rw [← rescale_coeff, show (k : ℚ) = ((k : ℤ) : ℚ) by simp, Rounding.nearest_intCast] at le
  exact_mod_cast le

theorem le_rescale_coeff {k : Nat} (h : k * 10 ^ e ≤ d.magnitude) :
    k ≤ (d.rescale mode e).coeff := by
  have le := Rounding.nearest_mono mode ((le_div_iff₀ (ten_zpow_pos e)).2 h)
  rw [← rescale_coeff, show (k : ℚ) = ((k : ℤ) : ℚ) by simp, Rounding.nearest_intCast] at le
  exact_mod_cast le

theorem rescale_of_le (mode : Rounding) (h : e ≤ d.exp) :
    (d.rescale mode e).magnitude = d.magnitude := by
  rw [magnitude, magnitude, rescale]
  dsimp only
  rw [if_pos h, Nat.cast_mul, cast_pow_toNat (by omega), mul_assoc, ← zpow_add₀ (by norm_num),
    sub_add_cancel]

/-- A multiple of a higher digit is not rounded. -/
theorem rescale_multiple {e' : ℤ} {k : Nat} (place : e' ≤ e) (multiple : d.magnitude = k * 10 ^ e) :
    (d.rescale mode e').magnitude = d.magnitude := by
  have integer : d.magnitude / 10 ^ e' = ((k * 10 ^ (e - e').toNat : Nat) : ℤ) := by
    rw [multiple, Int.cast_natCast, Nat.cast_mul, cast_pow_toNat (by omega),
      zpow_sub₀ (by norm_num), mul_div_assoc]
  rw [rescale_magnitude, integer, Rounding.nearest_intCast, ← integer,
    div_mul_cancel₀ _ (ten_zpow_pos _).ne']

/-! ## Results in a context -/

/-- The exponent of the last digit that the context keeps. -/
def lastDigit (ctx : DecimalContext) (d : Dec) : ℤ := max (d.adjusted - ctx.prec + 1) ctx.etiny

/-- A result has at most the digits of the context and is the nearest multiple of its last digit. -/
structure Fits (ctx : DecimalContext) (mode : Rounding) (d r : Dec) : Prop where
  negative : r.negative = d.negative
  magnitude : r.magnitude = (d.rescale mode (d.lastDigit ctx)).magnitude
  digits : numDigits r.coeff ≤ ctx.prec

/-- What becomes of a number: it fits, or it is too large even when it is rounded. -/
def Settles (ctx : DecimalContext) (mode : Rounding) (d : Dec) : Except Signal Dec → Prop
  | .ok r => d.Fits ctx mode r
  | .error _ => 10 ^ (ctx.emax + 1) ≤ (d.rescale mode (d.lastDigit ctx)).magnitude

theorem settles_of_large (prec : 0 < ctx.prec) (range : ctx.etiny ≤ ctx.emax) (h : d.coeff ≠ 0)
    (large : ctx.emax < d.adjusted) (s : Signal) : d.Settles ctx mode (.error s) := by
  have place : d.lastDigit ctx ≤ d.adjusted := max_le (by omega) (by omega)
  have power : ((10 ^ (d.adjusted - d.lastDigit ctx).toNat : Nat) : ℚ) * 10 ^ d.lastDigit ctx =
      10 ^ d.adjusted := by
    rw [cast_pow_toNat (by omega), ← zpow_add₀ (by norm_num), sub_add_cancel]
  have first : 10 ^ (d.adjusted - d.lastDigit ctx).toNat ≤
      (d.rescale mode (d.lastDigit ctx)).coeff :=
    le_rescale_coeff (power ▸ le_magnitude h)
  calc (10 : ℚ) ^ (ctx.emax + 1) ≤ 10 ^ d.adjusted := zpow_le_zpow_right₀ (by norm_num) (by omega)
    _ = (10 ^ (d.adjusted - d.lastDigit ctx).toNat : Nat) * 10 ^ d.lastDigit ctx := power.symm
    _ ≤ _ := mul_le_mul_of_nonneg_right (by exact_mod_cast first) (ten_zpow_pos _).le

theorem settles_subnormal (prec : 0 < ctx.prec) (small : d.adjusted < ctx.emin) :
    d.Settles ctx mode (.ok (d.rescale mode ctx.etiny)) := by
  have tiny : ctx.etiny = ctx.emin - ctx.prec + 1 := rfl
  have place : d.lastDigit ctx = ctx.etiny := max_eq_right (by omega)
  have few : (d.rescale mode ctx.etiny).coeff ≤ 10 ^ (ctx.prec - 1) := by
    refine rescale_coeff_le ((magnitude_lt d).le.trans ?_)
    push_cast
    rw [← zpow_natCast, ← zpow_add₀ (by norm_num)]
    exact zpow_le_zpow_right₀ (by norm_num) (by omega)
  exact ⟨rfl, by rw [place],
    (numDigits_le_iff prec).2 (few.trans_lt (Nat.pow_lt_pow_right (by decide) (by omega)))⟩

theorem settles_round (prec : 0 < ctx.prec) (long : ctx.prec < numDigits d.coeff)
    (normal : ctx.etiny ≤ d.adjusted - ctx.prec + 1) : d.Settles ctx mode (d.round ctx mode) := by
  have adj : d.adjusted = d.exp + numDigits d.coeff - 1 := rfl
  have place : d.exp + (numDigits d.coeff - ctx.prec : Nat) = d.lastDigit ctx := by
    rw [lastDigit, max_eq_left normal]
    omega
  have few : (d.rescale mode (d.lastDigit ctx)).coeff ≤ 10 ^ ctx.prec := by
    refine rescale_coeff_le ((magnitude_lt d).le.trans ?_)
    push_cast
    rw [← zpow_natCast, ← zpow_add₀ (by norm_num)]
    exact zpow_le_zpow_right₀ (by norm_num) (by omega)
  rw [round, place]
  dsimp only
  generalize hr : d.rescale mode (d.lastDigit ctx) = r at few
  have negative : r.negative = d.negative := hr ▸ rfl
  split_ifs with carry above
  · -- The carry makes the number a power of ten.
    have power : r.magnitude = 10 ^ (ctx.prec + r.exp) := by
      rw [Dec.magnitude, carry, zpow_add₀ (by norm_num), zpow_natCast]
      push_cast
      rfl
    have digits : numDigits (10 ^ (ctx.prec - 1)) ≤ ctx.prec :=
      (numDigits_le_iff prec).2 (Nat.pow_lt_pow_right (by decide) (by omega))
    rw [adjusted] at above
    dsimp only at above
    rw [Settles, hr, power]
    exact zpow_le_zpow_right₀ (by norm_num) (by omega)
  · refine ⟨negative, ?_, (numDigits_le_iff prec).2 (Nat.pow_lt_pow_right (by decide) (by omega))⟩
    rw [hr, magnitude, magnitude, carry]
    push_cast
    rw [← zpow_natCast, ← zpow_natCast, ← zpow_add₀ (by norm_num), ← zpow_add₀ (by norm_num)]
    congr 1
    omega
  · exact ⟨negative, hr ▸ rfl, (numDigits_le_iff prec).2 (lt_of_le_of_ne few carry)⟩

theorem settles_self (place : d.lastDigit ctx ≤ d.exp) (short : numDigits d.coeff ≤ ctx.prec) :
    d.Settles ctx mode (.ok d) :=
  ⟨rfl, (rescale_of_le mode place).symm, short⟩

theorem finalize_settles (ctx : DecimalContext) (mode : Rounding) (prec : 0 < ctx.prec)
    (range : ctx.etiny ≤ ctx.emax) (h : d.coeff ≠ 0) :
    d.Settles ctx mode (finalize ctx mode d) := by
  have tiny : ctx.etiny = ctx.emin - ctx.prec + 1 := rfl
  have adj : d.adjusted = d.exp + numDigits d.coeff - 1 := rfl
  unfold finalize
  split_ifs with large small long
  · exact settles_of_large prec range h large _
  · exact settles_subnormal prec small.1
  · exact settles_round prec long (by omega)
  · exact settles_self (max_le (by omega) (by omega)) (by omega)

/-! ## The operations -/

theorem finalize_self (large : d.adjusted ≤ ctx.emax) (small : ctx.etiny ≤ d.exp)
    (short : numDigits d.coeff ≤ ctx.prec) : finalize ctx mode d = .ok d := by
  rw [finalize, if_neg (by omega), if_neg (by omega), if_neg (by omega)]

theorem finalize_zero (ctx : DecimalContext) (mode : Rounding) (prec : 0 < ctx.prec)
    (h : d.coeff = 0) : ∃ r, finalize ctx mode d = .ok r ∧ r.coeff = 0 := by
  have one : numDigits d.coeff = 1 := by rw [h]; rfl
  unfold finalize
  split_ifs with large small long
  · exact ⟨_, rfl, h⟩
  · have none : (d.rescale mode ctx.etiny).coeff ≤ 0 := rescale_coeff_le (by simp [magnitude, h])
    exact ⟨_, rfl, Nat.le_zero.1 none⟩
  · omega
  · exact ⟨_, rfl, h⟩

theorem quantize_zero (prec : 0 < ctx.prec) (low : ctx.etiny ≤ e) (high : e ≤ ctx.emax)
    (h : d.coeff = 0) : quantize ctx mode d e = .ok { d with exp := e } := by
  have one : numDigits d.coeff = 1 := by rw [h]; rfl
  have adj : ({ d with exp := e } : Dec).adjusted = e + numDigits d.coeff - 1 := rfl
  rw [quantize, if_neg (by omega), if_pos h,
    finalize_self (by omega) low (by show numDigits d.coeff ≤ _; omega)]

/-- A number with the digits of the context can be rescaled while its first
digit stays in the context. -/
theorem quantize_eq (prec : 0 < ctx.prec) (low : ctx.etiny ≤ e) (high : e + ctx.prec ≤ ctx.emax + 1)
    (h : d.coeff ≠ 0) (short : numDigits d.coeff ≤ ctx.prec) :
    quantize ctx mode d e =
      if d.magnitude < 10 ^ (ctx.prec + e) then .ok (d.rescale mode e)
        else .error .invalidOperation := by
  have adj : d.adjusted = d.exp + numDigits d.coeff - 1 := rfl
  rw [quantize, if_neg (by omega), if_neg h]
  by_cases fits : (ctx.prec : ℤ) < numDigits d.coeff + (d.exp - e)
  · have large : (10 : ℚ) ^ (ctx.prec + e) ≤ d.magnitude :=
      (zpow_le_zpow_right₀ (by norm_num) (by omega)).trans (le_magnitude h)
    rw [if_pos fits, if_neg large.not_gt]
  · have small : d.magnitude < 10 ^ (ctx.prec + e) :=
      (magnitude_lt d).trans_le (zpow_le_zpow_right₀ (by norm_num) (by omega))
    have few : (d.rescale mode e).coeff < 10 ^ ctx.prec := by
      rcases le_or_gt e d.exp with le | gt
      · have exact_ := rescale_of_le mode le
        rw [magnitude, rescale_exp] at exact_
        have : ((d.rescale mode e).coeff : ℚ) < 10 ^ ctx.prec := by
          rw [← exact_, zpow_add₀ (by norm_num), zpow_natCast] at small
          exact lt_of_mul_lt_mul_right small (ten_zpow_pos e).le
        exact_mod_cast this
      · refine lt_of_le_of_lt (rescale_coeff_le (k := 10 ^ (ctx.prec - 1)) ?_)
          (Nat.pow_lt_pow_right (by decide) (by omega))
        refine (magnitude_lt d).le.trans ?_
        push_cast
        rw [← zpow_natCast, ← zpow_add₀ (by norm_num)]
        exact zpow_le_zpow_right₀ (by norm_num) (by omega)
    have digits := (numDigits_le_iff prec).2 few
    have some := numDigits_pos (d.rescale mode e).coeff
    have adj' : (d.rescale mode e).adjusted = e + numDigits (d.rescale mode e).coeff - 1 := rfl
    rw [if_neg fits, if_pos small]
    dsimp only
    rw [if_neg (by omega), finalize_self (by omega) low digits]

theorem Fits.exact_ (h : d.Fits ctx mode r) {k : Nat} (place : d.lastDigit ctx ≤ e)
    (multiple : d.magnitude = k * 10 ^ e) : r.magnitude = d.magnitude :=
  h.magnitude.trans (rescale_multiple place multiple)

theorem dropZeros_eq (k c : Nat) : (dropZeros k c).1 * 10 ^ (dropZeros k c).2 = c := by
  induction k generalizing c with
  | zero => simp [dropZeros]
  | succ k ih =>
    rw [dropZeros]
    split
    next whole =>
      have := ih (c / 10)
      dsimp only
      rw [pow_succ, ← mul_assoc, this]
      omega
    next => simp

/-- A quotient that ends is formed exactly before the context is applied. -/
theorem div_eq_finalize (ctx : DecimalContext) (mode : Rounding) {a b : Dec} (ha : a.coeff ≠ 0)
    (hb : b.coeff ≠ 0) {shift : Nat}
    (places : (numDigits b.coeff : ℤ) - numDigits a.coeff + ctx.prec + 1 = shift)
    (ends : b.coeff ∣ a.coeff * 10 ^ shift) :
    ∃ q : Dec, q.coeff ≠ 0 ∧ q.negative = (a.negative != b.negative) ∧
      q.magnitude = a.magnitude / b.magnitude ∧ div ctx mode a b = finalize ctx mode q := by
  obtain ⟨c, hc⟩ := ends
  have zeros := dropZeros_eq shift c
  have quotient : a.coeff * 10 ^ shift / b.coeff = c := by
    rw [hc, Nat.mul_div_cancel_left _ (by omega)]
  refine ⟨⟨_, (dropZeros shift c).1, a.exp - b.exp - shift + (dropZeros shift c).2⟩,
    fun none => ?_, rfl, ?_, ?_⟩
  · dsimp only at none
    rw [none, zero_mul] at zeros
    rw [← zeros, mul_zero] at hc
    exact ha (by simpa using hc)
  · have digits : ((dropZeros shift c).1 : ℚ) * 10 ^ ((dropZeros shift c).2 : ℤ) = c := by
      rw [zpow_natCast]
      exact_mod_cast zeros
    have product : (b.coeff : ℚ) * c = a.coeff * 10 ^ (shift : ℤ) := by
      rw [zpow_natCast]
      exact_mod_cast hc.symm
    have divisor : (b.coeff : ℚ) * 10 ^ b.exp ≠ 0 :=
      mul_ne_zero (by exact_mod_cast hb) (ten_zpow_pos _).ne'
    rw [magnitude, magnitude, magnitude, eq_div_iff divisor]
    calc ((dropZeros shift c).1 : ℚ) * 10 ^ (a.exp - b.exp - shift + (dropZeros shift c).2) *
      (b.coeff * 10 ^ b.exp)
        = (b.coeff * ((dropZeros shift c).1 * 10 ^ ((dropZeros shift c).2 : ℤ))) *
            (10 ^ (a.exp - b.exp - shift) * 10 ^ b.exp) := by
          rw [zpow_add₀ (by norm_num)]
          ring
      _ = a.coeff * (10 ^ (shift : ℤ) * (10 ^ (a.exp - b.exp - shift) * 10 ^ b.exp)) := by
          rw [digits, product]
          ring
      _ = a.coeff * 10 ^ a.exp := by
          rw [← zpow_add₀ (by norm_num), ← zpow_add₀ (by norm_num)]
          congr 2
          omega
  · have none : (-(shift : ℤ)).toNat = 0 := by omega
    rw [div]
    dsimp only
    rw [if_neg hb, if_neg ha, places, Int.toNat_natCast, none, pow_zero, mul_one, quotient,
      if_pos (show a.coeff * 10 ^ shift % b.coeff = 0 by rw [hc, Nat.mul_mod_right])]
    rfl

end Dec

end RecoverAI
