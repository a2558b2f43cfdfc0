import RecoverAI.Domain.Money
import RecoverAI.Decimal.Kept
import RecoverAI.Decimal.Text

/-!
# Conversion of amounts

`major_to_minor` and `format_minor`, in the default decimal context. The product with 100
is rounded to 28 digits before it is rounded to a minor unit, so the conversion is exact
only where the two agree.
-/
namespace RecoverAI

/-- What `major_to_minor` is given. -/
inductive Amount where
  | text (s : String)
  | int (n : Int)
  | decimal (x : Decimal) (held : x.representable)

/-- What it raises: `MoneyError`, a signal of the decimal context, or an error of `str` or `int`. -/
inductive AmountError where
  | money (message : String)
  | signal (s : Signal)
  | valueError
  | overflowError
deriving DecidableEq

namespace Amount

/-- The digits of an integer that the interpreter writes. -/
def maxStrDigits : Nat := 4300

/-- `str(amount)`. -/
def str : Amount → Except AmountError String
  | text s => .ok s
  | int n => if numDigits n.natAbs ≤ maxStrDigits then .ok (toString n) else .error .valueError
  | decimal x _ => .ok x.str

/-- The number that is given; `none` for a text that is no number. -/
def value [PyText] : Amount → Option Decimal
  | text s => Decimal.parse s
  | int n => some (.finite ⟨n < 0, n.natAbs, 0⟩)
  | decimal x _ => some x

def printable : Amount → Prop
  | int n => numDigits n.natAbs ≤ maxStrDigits
  | _ => True

end Amount

/-- `int(x)`. -/
def Decimal.toInt : Decimal → Except AmountError Int
  | finite d => .ok d.toInt
  | infinity _ => .error .overflowError
  | nan _ _ _ => .error .valueError

/-- `Decimal("100")`. -/
def hundred : Dec := ⟨false, 100, 0⟩

/-- `int((amount * Decimal("100")).quantize(Decimal("1"), rounding=ROUND_HALF_UP))`. -/
def minorUnits (amount : Decimal) : Except AmountError Int := do
  let product ← (amount.mul .default .halfEven hundred).mapError .signal
  let whole ← (product.quantize .default .halfUp 0).mapError .signal
  whole.toInt

def majorToMinor [PyText] (amountMajor : Amount) (currency : String) :
    Except AmountError (Int × String) := do
  let normalizedCurrency ← (normalizeCurrency currency).mapError .money
  let text ← amountMajor.str
  match Decimal.parse text with
  | none => .error (.money "invalid amount")
  | some amount =>
    if ← amount.ltZero.mapError .signal then .error (.money "amount cannot be negative")
    else
      let minor ← minorUnits amount
      let validated ← (validateAmountMinor minor).mapError .money
      return (validated, normalizedCurrency)

def formatMinor [PyText] (amountMinor : Int) (currency : String) : Except AmountError String := do
  let validatedAmount ← (validateAmountMinor amountMinor).mapError .money
  let normalizedCurrency ← (normalizeCurrency currency).mapError .money
  let major ← (Dec.div .default .halfEven
      ⟨validatedAmount < 0, validatedAmount.natAbs, 0⟩ hundred).mapError .signal
  return major.formatFixed 2 ++ " " ++ normalizedCurrency

/-! ## Minor units -/

theorem Decimal.ltZero_finite (d : Dec) : ltZero (.finite d) = .ok (decide (d.value < 0)) := by
  rw [ltZero, Except.ok.injEq, Bool.eq_iff_iff, decide_eq_true_iff, Dec.value_neg_iff]
  simp

/-- The value with the digits that the context keeps. -/
def kept (y : ℚ) : ℚ := Rounding.kept 27 DecimalContext.default.etiny y

/-- An integer that is not negative. -/
theorem toInt_of_value {r : Dec} (integer : r.exp = 0) (nonneg : r.negative = true → r.coeff = 0) :
    r.toInt = r.coeff := by
  rw [Dec.toInt, integer]
  split
  next negative => simp [nonneg negative]
  next => simp

/-- What rounding leaves of a number in the context. -/
theorem rescale_lastDigit {d : Dec} (h : d.coeff ≠ 0) :
    (d.rescale .halfEven (d.lastDigit .default)).magnitude = kept d.magnitude := by
  have digit : d.lastDigit .default =
      max (Int.log 10 d.magnitude - (27 : ℕ)) DecimalContext.default.etiny := by
    have prec : DecimalContext.default.prec = 28 := rfl
    rw [Dec.lastDigit, Dec.adjusted_eq_log h, prec]
    congr 1
    omega
  rw [Dec.rescale_magnitude, kept, Rounding.kept, Rounding.unit, digit, mul_comm]

/-- An exact result in the context. -/
theorem finalize_default {d : Dec} (h : d.coeff ≠ 0) :
    match Dec.finalize .default .halfEven d with
    | .ok r => r.negative = d.negative ∧ r.magnitude = kept d.magnitude ∧ numDigits r.coeff ≤ 28
    | .error _ => (10 : ℚ) ^ 28 ≤ kept d.magnitude := by
  have settles := Dec.finalize_settles .default .halfEven (by decide) (by decide) h
  rw [← rescale_lastDigit h]
  revert settles
  cases Dec.finalize .default .halfEven d with
  | ok r => exact fun fits => ⟨fits.negative, fits.magnitude, fits.digits⟩
  | error s =>
    intro large
    refine le_trans ?_ large
    rw [← zpow_natCast]
    exact zpow_le_zpow_right₀ (by norm_num) (by decide)

theorem magnitude_hundred (d : Dec) :
    (⟨d.negative != hundred.negative, d.coeff * hundred.coeff, d.exp + hundred.exp⟩ :
      Dec).magnitude = 100 * d.magnitude := by
  rw [Dec.magnitude, Dec.magnitude, hundred, add_zero]
  push_cast
  ring

/-- What is left of a product in the context, in minor units. -/
theorem wholeUnits {r : Dec} (sign : r.negative = true → r.coeff = 0)
    (short : numDigits r.coeff ≤ 28) :
    (do let whole ← ((Decimal.finite r).quantize .default .halfUp 0).mapError AmountError.signal
        whole.toInt) =
      if r.magnitude < 10 ^ 28 then .ok (Rounding.halfUp.nearest r.magnitude : ℤ)
      else .error (AmountError.signal .invalidOperation) := by
  rw [Decimal.quantize]
  by_cases zero : r.coeff = 0
  · have none : (0 : ℚ) = (0 : ℤ) := by simp
    rw [Dec.quantize_zero (by decide) (by decide) (by decide) zero, Dec.magnitude_eq_zero zero,
      if_pos (by norm_num), none, Rounding.nearest_intCast]
    exact congrArg Except.ok
      ((toInt_of_value (r := { r with exp := 0 }) rfl fun _ => zero).trans
        (congrArg Int.ofNat zero))
  · have unit_ : (10 : ℚ) ^ (0 : ℤ) = 1 := zpow_zero _
    have coeff := Dec.rescale_coeff .halfUp r 0
    have limit : (10 : ℚ) ^ (DecimalContext.default.prec + (0 : ℤ)) = 10 ^ 28 := by
      rw [add_zero, zpow_natCast]
      rfl
    rw [unit_, div_one] at coeff
    rw [Dec.quantize_eq (by decide) (by decide) (by decide) zero short, limit]
    split
    · exact congrArg Except.ok
        ((toInt_of_value (r := r.rescale .halfUp 0) rfl fun negative =>
          absurd (sign negative) zero).trans coeff)
    · rfl

/-- The conversion rounds twice, and fails where the first result has more than 28
digits before the point. -/
theorem minorUnits_finite {d : Dec} (h : ¬ d.value < 0) : ∃ s, minorUnits (.finite d) =
    if kept (100 * d.value) < 10 ^ 28 then .ok (Rounding.halfUp.nearest (kept (100 * d.value)))
    else .error (.signal s) := by
  have sign : d.negative = true → d.coeff = 0 := fun negative =>
    not_not.1 fun some_ => h (Dec.value_neg_iff.2 ⟨negative, some_⟩)
  rw [Dec.value_of_nonneg h, minorUnits, Decimal.mul, Dec.mul, ← magnitude_hundred]
  by_cases zero : d.coeff = 0
  · obtain ⟨r, product, none⟩ :=
      Dec.finalize_zero .default .halfEven
      (d := ⟨d.negative != hundred.negative, d.coeff * hundred.coeff, d.exp + hundred.exp⟩)
      (by decide) (by rw [zero, zero_mul])
    refine ⟨.invalidOperation, ?_⟩
    rw [product, magnitude_hundred, Dec.magnitude_eq_zero zero, mul_zero, kept, Rounding.kept_zero,
      ← Dec.magnitude_eq_zero none]
    exact wholeUnits (fun _ => none) (by rw [none]; decide)
  · have settled := finalize_default
      (d := ⟨d.negative != hundred.negative, d.coeff * hundred.coeff, d.exp + hundred.exp⟩)
      (Nat.mul_ne_zero zero (by decide))
    revert settled
    cases Dec.finalize .default .halfEven _ with
    | ok r =>
      rintro ⟨negative, magnitude, short⟩
      refine ⟨.invalidOperation, ?_⟩
      rw [← magnitude]
      exact wholeUnits
        (fun minus => absurd (sign (by simpa [negative, hundred] using minus)) zero) short
    | error s =>
      intro large
      exact ⟨s, by rw [if_neg large.not_gt]; rfl⟩

/-! ## Exactness -/

section Exactness

variable [PyText] {amount : Amount} {currency code : String}

/-- Either `MoneyError`, or the nearest number of minor units, half up, and
the normalized currency. -/
def ExactOrRefused (amount : Amount) (currency : String) : Prop :=
  match majorToMinor amount currency with
  | .ok (minor, code) => normalizeCurrency currency = .ok code ∧
      ∃ d, amount.value = some (.finite d) ∧ 0 ≤ d.value ∧ minor = ⌊100 * d.value + 1 / 2⌋
  | .error e => ∃ message, e = .money message

/-- The numbers whose conversion is exact or refused. -/
def Decimal.Convertible : Decimal → Prop
  | finite d => d.value < 0 ∨ 100 * d.value < 10 ^ 28 - 1 / 2 ∧
    ¬ Rounding.Misrounded 27 (100 * d.value)
  | infinity negative => negative = true
  | nan _ _ _ => False

def Convertible (amount : Amount) (currency : String) : Prop :=
  (∃ message, normalizeCurrency currency = .error message) ∨
    amount.printable ∧ ∀ x, amount.value = some x → x.Convertible

/-- The text of an amount is that of its number. -/
theorem Amount.parse_str (h : amount.printable) :
    ∃ s, amount.str = .ok s ∧ Decimal.parse s = amount.value := by
  cases amount with
  | text s => exact ⟨s, rfl, rfl⟩
  | int n =>
    refine ⟨_, if_pos h, ?_⟩
    rw [Decimal.toString_int]
    exact Decimal.parse_str (Dec.representable_of_digits h (by decide) (by decide))
  | decimal x held => exact ⟨_, rfl, Decimal.parse_decimal_str held⟩

theorem majorToMinor_of_currency (valid : normalizeCurrency currency = .ok code)
    (h : amount.printable) :
    majorToMinor amount currency =
      match amount.value with
      | none => .error (.money "invalid amount")
      | some x => do
        if ← x.ltZero.mapError .signal then .error (.money "amount cannot be negative")
        else
          let minor ← minorUnits x
          let validated ← (validateAmountMinor minor).mapError .money
          return (validated, code) := by
  obtain ⟨s, text, number⟩ := Amount.parse_str h
  rw [majorToMinor, valid, text, ← number]
  rfl

/-- The conversion of a number that is not refused. -/
theorem convert_finite {d : Dec} (valid : normalizeCurrency currency = .ok code)
    (h : amount.printable) (number : amount.value = some (.finite d)) (nonneg : ¬ d.value < 0) :
    ∃ s, majorToMinor amount currency =
      if 100 * d.value < 10 ^ 28 - 1 / 2
        then .ok (Rounding.halfUp.nearest (kept (100 * d.value)), code)
      else .error (.signal s) := by
  obtain ⟨s, conversion⟩ := minorUnits_finite nonneg
  have positive : 0 ≤ 100 * d.value := by linarith [not_lt.1 nonneg]
  have checked := validateAmountMinor_of_nonneg (Rounding.nearest_nonneg .halfUp
    (Rounding.kept_nonneg (p := 27) (t := DecimalContext.default.etiny) positive))
  refine ⟨s, ?_⟩
  rw [majorToMinor_of_currency valid h, number]
  dsimp only
  rw [Decimal.ltZero_finite, conversion, decide_eq_false nonneg]
  simp only [kept, Rounding.kept_lt_iff (show DecimalContext.default.etiny < 0 by decide) positive]
  split
  · simp only [bind, Except.bind, Except.mapError, checked]
    rfl
  · rfl

omit [PyText] in
theorem halfUp_kept_iff {y : ℚ} (nonneg : 0 ≤ y) (small : y < 10 ^ 28) :
    Rounding.halfUp.nearest (kept y) = ⌊y + 1 / 2⌋ ↔ ¬ Rounding.Misrounded 27 y := by
  rcases nonneg.eq_or_lt with rfl | positive
  · rw [kept, Rounding.kept_zero]
    exact iff_of_true rfl (Rounding.not_misrounded_zero 27)
  · exact Rounding.halfUp_kept_iff (by decide) positive small

/-- The result for a number that is not refused. -/
theorem exactOrRefused_finite {d : Dec} (valid : normalizeCurrency currency = .ok code)
    (h : amount.printable) (number : amount.value = some (.finite d)) (nonneg : ¬ d.value < 0) :
    ExactOrRefused amount currency ↔
      100 * d.value < 10 ^ 28 - 1 / 2 ∧ ¬ Rounding.Misrounded 27 (100 * d.value) := by
  obtain ⟨s, conversion⟩ := convert_finite valid h number nonneg
  rw [ExactOrRefused, conversion]
  split_ifs with small
  · rw [← halfUp_kept_iff (by linarith) (by linarith)]
    dsimp only
    constructor
    · rintro ⟨-, d', number', -, exact_⟩
      obtain rfl : d = d' := by simpa [number] using number'
      exact ⟨small, exact_⟩
    · rintro ⟨-, exact_⟩
      exact ⟨valid, d, number, not_lt.1 nonneg, exact_⟩
  · refine iff_of_false ?_ fun convertible => small convertible.1
    rintro ⟨message, raised⟩
    cases raised

/-- Conversion is exact, or refused by `MoneyError`, just for these amounts. -/
theorem exactOrRefused_iff (amount : Amount) (currency : String) :
    ExactOrRefused amount currency ↔ Convertible amount currency := by
  cases valid : normalizeCurrency currency with
  | error message =>
    have refused : majorToMinor amount currency = .error (.money message) := by
      rw [majorToMinor, valid]
      rfl
    rw [ExactOrRefused, refused]
    exact iff_of_true ⟨message, rfl⟩ (.inl ⟨message, valid⟩)
  | ok code =>
    have accepted : Convertible amount currency ↔
        amount.printable ∧ ∀ x, amount.value = some x → x.Convertible := by
      simp [Convertible, valid]
    rw [accepted]
    by_cases printed : amount.printable
    · have conversion := majorToMinor_of_currency valid printed
      cases number : amount.value with
      | none =>
        rw [number] at conversion
        rw [ExactOrRefused, conversion]
        exact iff_of_true ⟨_, rfl⟩ ⟨printed, nofun⟩
      | some x =>
        have only : (amount.printable ∧ ∀ x', some x = some x' → x'.Convertible) ↔
            x.Convertible := by simp [printed]
        rw [number] at conversion
        dsimp only at conversion
        rw [only]
        cases x with
        | finite d =>
          by_cases below : d.value < 0
          · rw [Decimal.ltZero_finite, decide_eq_true below] at conversion
            rw [ExactOrRefused, conversion]
            exact iff_of_true ⟨_, rfl⟩ (.inl below)
          · rw [exactOrRefused_finite valid printed number below]
            exact (or_iff_right below).symm
        | infinity negative =>
          rw [ExactOrRefused, conversion]
          cases negative with
          | true => exact iff_of_true ⟨_, rfl⟩ rfl
          | false => exact iff_of_false (fun ⟨_, raised⟩ => by cases raised) Bool.false_ne_true
        | nan negative signaling payload =>
          rw [ExactOrRefused, conversion]
          exact iff_of_false (fun ⟨_, raised⟩ => by cases raised) id
    · have raised : majorToMinor amount currency = .error .valueError := by
        cases amount with
        | int n =>
          have str : (Amount.int n).str = .error .valueError := if_neg printed
          rw [majorToMinor, valid, str]
          rfl
        | text s => exact absurd trivial printed
        | decimal x held => exact absurd trivial printed
      rw [ExactOrRefused, raised]
      exact iff_of_false (fun ⟨_, same⟩ => by cases same) fun h => printed h.1

/-- One amount that is off refutes exactness. -/
theorem not_all_exact {minor : Int} {d : Dec} (number : amount.value = some (.finite d))
    (converted : majorToMinor amount currency = .ok (minor, code))
    (off : minor ≠ ⌊100 * d.value + 1 / 2⌋) :
    ¬ ∀ amount currency, ExactOrRefused amount currency := by
  intro all
  have result := all amount currency
  rw [ExactOrRefused, converted] at result
  obtain ⟨-, d', number', -, same⟩ := result
  obtain rfl : d = d' := by simpa [number] using number'
  exact off same

end Exactness

/-- Less than half a minor unit, with more digits than the context keeps. -/
def almostHalf : Amount := .text "0.00499999999999999999999999999999999"

theorem almostHalf_value :
    @Amount.value PyText.ascii almostHalf =
      some (.finite ⟨false, 499999999999999999999999999999999, -35⟩) := by
  decide +kernel

theorem almostHalf_rounded : @majorToMinor PyText.ascii almostHalf "INR" = .ok (1, "INR") := by
  decide +kernel

theorem conversion_inexact : ¬ ∀ amount currency, @ExactOrRefused PyText.ascii amount currency := by
  refine @not_all_exact PyText.ascii _ _ _ _ _ almostHalf_value almostHalf_rounded fun same => ?_
  rw [eq_comm, Int.floor_eq_iff, Dec.value, Dec.magnitude] at same
  norm_num at same

/-! ## Round trip -/

/-- `s.rsplit(" ", 1)`; `none` without a space. -/
def rsplit (s : String) : Option (String × String) :=
  let back := s.toList.reverse
  match back.dropWhile (· ≠ ' ') with
  | [] => none
  | _ :: number =>
    some (String.ofList number.reverse, String.ofList (back.takeWhile (· ≠ ' ')).reverse)

theorem rsplit_append {s t : List Char} (h : ' ' ∉ t) :
    rsplit (String.ofList (s ++ ' ' :: t)) = some (String.ofList s, String.ofList t) := by
  have back : (s ++ ' ' :: t).reverse = t.reverse ++ ' ' :: s.reverse := by simp
  have after : ∀ c ∈ t.reverse, decide (c ≠ ' ') = true := by
    intro c hc
    refine decide_eq_true ?_
    rintro rfl
    exact h (List.mem_reverse.1 hc)
  rw [rsplit, String.toList_ofList, back, List.dropWhile_append_of_pos after,
    List.takeWhile_append_of_pos after]
  simp

/-- A quotient that ends after two places and is not large is exact. -/
theorem finalize_cents {q : Dec} {n : Nat} (some_ : q.coeff ≠ 0)
    (cents : q.magnitude = n * 10 ^ (-2 : ℤ)) (small : n < 10 ^ 20) :
    ∃ r, Dec.finalize .default .halfEven q = .ok r ∧ r.negative = q.negative ∧
      r.magnitude = q.magnitude := by
  have bound : q.magnitude < 10 ^ (18 : ℤ) := by
    have small : (n : ℚ) < 10 ^ 20 := by exact_mod_cast small
    rw [cents]
    norm_num
    linarith
  have first : q.adjusted < 18 :=
    (zpow_lt_zpow_iff_right₀ (by norm_num)).1 ((Dec.le_magnitude some_).trans_lt bound)
  have place : q.lastDigit .default ≤ -2 := by
    have prec : DecimalContext.default.prec = 28 := rfl
    exact max_le (by omega) (by decide)
  have settles := Dec.finalize_settles .default .halfEven (by decide) (by decide) some_
  revert settles
  cases Dec.finalize .default .halfEven q with
  | ok r => exact fun fits => ⟨r, rfl, fits.negative, fits.exact_ place cents⟩
  | error s =>
    intro large
    have large : (10 : ℚ) ^ (DecimalContext.default.emax + 1) ≤ q.magnitude :=
      Dec.rescale_multiple place cents ▸ large
    have top := (zpow_lt_zpow_iff_right₀ (by norm_num)).1 (large.trans_lt bound)
    exact absurd top (by decide)

/-- `Decimal(n) / Decimal("100")`. -/
theorem div_hundred {n : Nat} (small : n < 2 ^ 63) :
    ∃ r, Dec.div .default .halfEven ⟨false, n, 0⟩ hundred = .ok r ∧
    r.negative = false ∧ r.magnitude = n * 10 ^ (-2 : ℤ) := by
  rcases n.eq_zero_or_pos with rfl | positive
  · exact ⟨⟨false, 0, 0⟩, by decide, rfl, by simp [Dec.magnitude]⟩
  · have digits : numDigits n ≤ 19 := (numDigits_le_iff (by decide)).2 (small.trans (by decide))
    have length := numDigits_pos n
    have shift : (numDigits hundred.coeff : ℤ) - numDigits n + DecimalContext.default.prec + 1 =
        (32 - numDigits n : ℕ) := by
      show (3 : ℤ) - numDigits n + 28 + 1 = _
      omega
    obtain ⟨q, some_, negative, quotient, div⟩ := Dec.div_eq_finalize .default .halfEven
      (a := ⟨false, n, 0⟩) (b := hundred) (by show n ≠ 0; omega) (by decide) shift
      (Dvd.dvd.mul_left (pow_dvd_pow 10 (show 2 ≤ 32 - numDigits n by omega)) n)
    have cents : q.magnitude = n * 10 ^ (-2 : ℤ) := by
      rw [quotient, Dec.magnitude, Dec.magnitude, hundred]
      norm_num
      ring
    obtain ⟨r, finalized, sign, exact_⟩ := finalize_cents some_ cents (small.trans (by decide))
    exact ⟨r, div.trans finalized, sign.trans negative, exact_.trans cents⟩

/-- An amount of minor units with two places. -/
def centsText (n : Nat) : String := String.ofList (Dec.point (Nat.toDigits 10 n) (numDigits n - 2))

theorem formatFixed_cents {r : Dec} {n : Nat} (negative : r.negative = false)
    (cents : r.magnitude = n * 10 ^ (-2 : ℤ)) : r.formatFixed 2 = centsText n := by
  have coeff : (r.rescale .halfEven (-2)).coeff = n := by
    have nearest := Dec.rescale_coeff .halfEven r (-2)
    rw [cents, mul_div_cancel_right₀ _ (ten_zpow_pos _).ne', Rounding.nearest_natCast] at nearest
    exact_mod_cast nearest
  rw [Dec.formatFixed]
  show String.ofList
    (Dec.signText r.negative ++ Dec.point (Nat.toDigits 10 (r.rescale .halfEven (-2)).coeff)
    ((Nat.toDigits 10 (r.rescale .halfEven (-2)).coeff).length - 2)) = _
  rw [coeff, negative]
  rfl

section

variable [PyText] {n : Nat} {currency code : String}

theorem parse_centsText (few : numDigits n ≤ 4000) :
    Decimal.parse (centsText n) = some (.finite ⟨false, n, -2⟩) := by
  have place : (0 : Int) - (numDigits n - (numDigits n - 2)) = -2 := by omega
  have text : centsText n =
      String.ofList (Dec.signText false ++ Dec.point (Nat.toDigits 10 n) (numDigits n - 2) ++
      Dec.scaleText 0) := by
    rw [Dec.scaleText, if_pos rfl, List.append_nil]
    rfl
  rw [text, Decimal.parse_point (by omega)
    (Dec.representable_of_digits (by omega) (by omega) (by omega)), place]

theorem convert_centsText (small : n < 2 ^ 63) (valid : normalizeCurrency code = .ok code) :
    majorToMinor (.text (centsText n)) code = .ok (n, code) := by
  have digits : numDigits n ≤ 19 := (numDigits_le_iff (by decide)).2 (small.trans (by decide))
  have amount : 100 * (⟨false, n, -2⟩ : Dec).value = n := by
    rw [Dec.value, Dec.magnitude]
    norm_num
    ring
  have bound : (n : ℚ) < 2 ^ 63 := by exact_mod_cast small
  have nonneg : ¬ (⟨false, n, -2⟩ : Dec).value < 0 := by
    have : (0 : ℚ) ≤ n := n.cast_nonneg
    linarith
  have printed : (Amount.text (centsText n)).printable := trivial
  have number : (Amount.text (centsText n)).value = some (.finite ⟨false, n, -2⟩) :=
    parse_centsText (digits.trans (by decide))
  obtain ⟨s, conversion⟩ := convert_finite valid printed number nonneg
  have nearest : Rounding.halfUp.nearest (kept n) = n := by
    rw [(halfUp_kept_iff n.cast_nonneg (bound.trans (by norm_num))).2
      (Rounding.not_misrounded_natCast 27 n)]
    exact Rounding.nearest_natCast .halfUp n
  rw [conversion, amount, if_pos (bound.trans (by norm_num)), nearest]

theorem formatMinor_eq (small : n < 2 ^ 63) (valid : normalizeCurrency currency = .ok code) :
    formatMinor n currency = .ok (centsText n ++ " " ++ code) := by
  obtain ⟨r, div, negative, cents⟩ := div_hundred small
  have nonneg : (0 : ℤ) ≤ n := Int.natCast_nonneg n
  rw [formatMinor, validateAmountMinor_of_nonneg nonneg, valid, ← formatFixed_cents negative cents]
  simp only [Except.mapError, bind, Except.bind, decide_eq_false nonneg.not_gt,
    Int.natAbs_natCast, div]
  rfl

/-- A normalized currency has no white space to strip, and is in upper case. -/
theorem normalizeCurrency_idem (upper_upper : ∀ s, PyText.upper (PyText.upper s) = PyText.upper s)
    (letters : ∀ c, PyText.isAlpha c = true → PyText.isSpace c = false)
    (valid : normalizeCurrency currency = .ok code) : normalizeCurrency code = .ok code := by
  obtain ⟨upper, length, alpha⟩ := normalizeCurrency_eq_ok.1 valid
  have all_ : ∀ c ∈ code.toList, PyText.isAlpha c = true := by
    rw [Text.isAlpha, Bool.and_eq_true] at alpha
    exact List.all_eq_true.1 alpha.2
  have bare : Text.strip code = code := by
    rw [Text.strip, Text.stripBy_of_forall_not fun c hc => letters c (all_ c hc),
      String.ofList_toList]
  refine normalizeCurrency_eq_ok.2 ⟨?_, length, alpha⟩
  rw [bare, ← upper, upper_upper]

theorem space_not_mem (alpha : Text.isAlpha code = true) : ' ' ∉ code.toList := by
  intro space
  rw [Text.isAlpha, Bool.and_eq_true] at alpha
  have letter := List.all_eq_true.1 alpha.2 ' ' space
  rw [PyText.isAlpha_ascii ' ' (by decide)] at letter
  exact absurd letter (by decide)

/-- What `format_minor` writes of a stored amount is read back by `major_to_minor`. -/
theorem majorToMinor_formatMinor {n : Int} {currency code : String}
    (upper_upper : ∀ s, PyText.upper (PyText.upper s) = PyText.upper s)
    (letters : ∀ c, PyText.isAlpha c = true → PyText.isSpace c = false)
    (nonneg : 0 ≤ n) (stored : n < 2 ^ 63) (valid : normalizeCurrency currency = .ok code) :
    ∃ text number code', formatMinor n currency = .ok text ∧ rsplit text = some (number, code') ∧
      majorToMinor (.text number) code' = .ok (n, code) ∧ normalizeCurrency code = .ok code := by
  lift n to ℕ using nonneg
  have small : n < 2 ^ 63 := by exact_mod_cast stored
  have again := normalizeCurrency_idem upper_upper letters valid
  obtain ⟨-, -, alpha⟩ := normalizeCurrency_eq_ok.1 valid
  refine ⟨_, centsText n, code, formatMinor_eq small valid, ?_,
    convert_centsText small again, again⟩
  have text : centsText n ++ " " ++
      code = String.ofList ((centsText n).toList ++ ' ' :: code.toList) := by
    rw [← String.toList_inj]
    simp
  rw [text, rsplit_append (space_not_mem alpha), String.ofList_toList, String.ofList_toList]

end

theorem toUpper_toUpper (c : Char) : c.toUpper.toUpper = c.toUpper := by
  have upper : ¬ ('a'.val ≤ c.toUpper.val ∧ c.toUpper.val ≤ 'z'.val) := by
    delta Char.toUpper
    split <;> grind [UInt32.toNat_add]
  exact dif_neg upper

theorem majorToMinor_formatMinor_inr :
    ∃ text number code', @formatMinor PyText.ascii 7999 "inr" = .ok text ∧
    rsplit text = some (number, code') ∧
      @majorToMinor PyText.ascii (.text number) code' = .ok (7999, "INR") ∧
    @normalizeCurrency PyText.ascii "INR" = .ok "INR" := by
  refine @majorToMinor_formatMinor PyText.ascii 7999 "inr" "INR" (fun s => ?_) (fun c letter => ?_)
    (by decide) (by decide)
    (by decide +kernel)
  · show String.ofList ((String.ofList (s.toList.map Char.toUpper)).toList.map Char.toUpper) = _
    rw [String.toList_ofList, List.map_map]
    exact congrArg String.ofList (List.map_congr_left fun c _ => toUpper_toUpper c)
  · refine @Decimal.isSpace_plain PyText.ascii c ?_
    have alphanum : c.isAlphanum = true := Bool.or_eq_true_iff.2 (.inl letter)
    simp [Decimal.isPlain, alphanum]

end RecoverAI
